import Mathlib.Logic.Function.Iterate
import TibServer.Bytes

/-!
The block cipher of the protocol (`Protocol::XTEA_encrypt`, `Protocol::XTEA_decrypt`
in `protocol.cpp`): 32 rounds on two words and a running sum, and each round is
undone by the other side's.
-/

namespace TibServer

/-- The four words of a key. -/
abbrev XteaKey := Fin 4 → UInt32

namespace Xtea

open Bytes

/-- The words of a block, and the sum. -/
structure Words where
  v0 : UInt32
  v1 : UInt32
  sum : UInt32

def delta : UInt32 := 0x61C88647

/-- `k[sum & 3]`. -/
def word (key : XteaKey) (i : UInt32) : UInt32 :=
  key ⟨(i &&& 3).toNat % 4, Nat.mod_lt _ (Nat.succ_pos 3)⟩

/-- `(v << 4 ^ v >> 5) + v`. -/
def mix (v : UInt32) : UInt32 := ((v <<< 4) ^^^ (v >>> 5)) + v

def encryptRound (key : XteaKey) (w : Words) : Words :=
  let v0 := w.v0 + (mix w.v1 ^^^ (w.sum + word key w.sum))
  let sum := w.sum - delta
  let v1 := w.v1 + (mix v0 ^^^ (sum + word key (sum >>> 11)))
  { v0, v1, sum }

def decryptRound (key : XteaKey) (w : Words) : Words :=
  let v1 := w.v1 - (mix w.v0 ^^^ (w.sum + word key (w.sum >>> 11)))
  let sum := w.sum + delta
  let v0 := w.v0 - (mix v1 ^^^ (sum + word key sum))
  { v0, v1, sum }

/-- The words at the start of a block of eight bytes. -/
def load (block : List UInt8) (sum : UInt32) : Words where
  v0 := UInt32.ofNat (ofLE (block.take 4))
  v1 := UInt32.ofNat (ofLE ((block.drop 4).take 4))
  sum

def save (w : Words) : List UInt8 := toLE 4 w.v0.toNat ++ toLE 4 w.v1.toNat

def encryptBlock (key : XteaKey) (block : List UInt8) : List UInt8 :=
  save ((encryptRound key)^[32] (load block 0))

def decryptBlock (key : XteaKey) (block : List UInt8) : List UInt8 :=
  save ((decryptRound key)^[32] (load block 0xC6EF3720))

/-! ### Decryption undoes encryption -/

theorem decryptRound_encryptRound (key : XteaKey) :
    Function.LeftInverse (decryptRound key) (encryptRound key) := by
  intro w
  simp [decryptRound, encryptRound]

@[simp] theorem encryptRound_sum (key : XteaKey) (w : Words) :
    (encryptRound key w).sum = w.sum - delta := rfl

theorem encryptRounds_sum (key : XteaKey) (n : Nat) (w : Words) :
    ((encryptRound key)^[n] w).sum = (fun sum => sum - delta)^[n] w.sum := by
  induction n generalizing w with
  | zero => rfl
  | succ n ih => rw [Function.iterate_succ_apply, ih, Function.iterate_succ_apply, encryptRound_sum]

/-- The sum the receiver starts from is the one the sender ends with. -/
theorem final_sum : (fun sum => sum - delta)^[32] 0 = 0xC6EF3720 := by decide

@[simp] theorem save_length (w : Words) : (save w).length = 8 := by simp [save]

theorem load_save (w : Words) : load (save w) w.sum = w := by
  have word_ (v : UInt32) : UInt32.ofNat (ofLE (toLE 4 v.toNat)) = v := by
    have small := v.toNat_lt
    rw [ofLE_toLE, Nat.mod_eq_of_lt (by omega), UInt32.ofNat_toNat]
  have first : (save w).take 4 = toLE 4 w.v0.toNat := List.take_left' (toLE_length ..)
  have second : ((save w).drop 4).take 4 = toLE 4 w.v1.toNat := by
    rw [save, List.drop_left' (toLE_length ..), List.take_of_length_le (by simp)]
  rw [load, first, second, word_, word_]

theorem save_load {block : List UInt8} (h : block.length = 8) (sum : UInt32) :
    save (load block sum) = block := by
  have word_ {l : List UInt8} (h : l.length = 4) : toLE 4 (UInt32.ofNat (ofLE l)).toNat = l := by
    have small := ofLE_lt l
    rw [h] at small
    rw [UInt32.toNat_ofNat_of_lt' (by simpa using small), ← h, toLE_ofLE]
  have rest : (block.drop 4).length = 4 := by
    rw [List.length_drop]
    omega
  rw [save, load, word_ (by rw [List.length_take]; omega), word_ (by rw [List.length_take]; omega),
    List.take_of_length_le rest.le, List.take_append_drop]

@[simp] theorem encryptBlock_length (key : XteaKey) (block : List UInt8) :
    (encryptBlock key block).length = 8 := save_length _

@[simp] theorem decryptBlock_length (key : XteaKey) (block : List UInt8) :
    (decryptBlock key block).length = 8 := save_length _

/-- A block is decrypted to what it was. -/
theorem decryptBlock_encryptBlock (key : XteaKey) {block : List UInt8} (h : block.length = 8) :
    decryptBlock key (encryptBlock key block) = block := by
  have sum := encryptRounds_sum key 32 (load block 0)
  have start : load (encryptBlock key block) 0xC6EF3720 =
      (encryptRound key)^[32] (load block 0) := by
    rw [← final_sum]
    exact (congrArg (load _) sum.symm).trans (load_save _)
  rw [decryptBlock, start, (decryptRound_encryptRound key).iterate 32, save_load h]

end Xtea

end TibServer
