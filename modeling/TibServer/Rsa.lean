import Mathlib.Data.Nat.Size
import TibServer.Bytes
import TibServer.ModularPowers

/-!
The cipher of the first message (`rsa.cpp`): a block of 128 bytes is a number, the most
significant byte first, and decryption raises it to the private exponent. Nothing is written
for the number zero, whose last byte stays what it was.
-/

namespace TibServer

open Bytes ModularPowers

/-! ### Numbers with the most significant byte first -/

def toBE (n x : Nat) : List UInt8 := (toLE n x).reverse

def ofBE (l : List UInt8) : Nat := ofLE l.reverse

@[simp] theorem toBE_length (n x : Nat) : (toBE n x).length = n := by simp [toBE]

theorem ofBE_toBE {n x : Nat} (h : x < 256 ^ n) : ofBE (toBE n x) = x := by
  rw [ofBE, toBE, List.reverse_reverse, ofLE_toLE, Nat.mod_eq_of_lt h]

theorem toLE_pad {k x : Nat} (h : x < 256 ^ k) (n : Nat) :
    toLE (k + n) x = toLE k x ++ List.replicate n 0 := by
  induction k generalizing x with
  | zero =>
      obtain rfl : x = 0 := by simpa using h
      rw [Nat.zero_add, toLE, List.nil_append]
      induction n with
      | zero => rfl
      | succ n ih =>
          rw [toLE, Nat.zero_div, ih, List.replicate_succ]
          rfl
  | succ k ih =>
      have below : x / 256 < 256 ^ k := by
        rw [Nat.div_lt_iff_lt_mul (by decide), ← pow_succ]
        exact h
      rw [Nat.add_right_comm, toLE, toLE, ih below, List.cons_append]

/-- The bytes that are not needed are zero. -/
theorem toBE_pad {k n x : Nat} (h : x < 256 ^ k) (le : k ≤ n) :
    toBE n x = List.replicate (n - k) 0 ++ toBE k x := by
  obtain ⟨j, rfl⟩ := Nat.exists_eq_add_of_le le
  rw [toBE, toLE_pad h, List.reverse_append, List.reverse_replicate, Nat.add_sub_cancel_left,
    toBE]

/-- Bytes are written over those at a place. -/
def overwrite (l : List UInt8) (pos : Nat) (bytes : List UInt8) : List UInt8 :=
  l.take pos ++ bytes ++ l.drop (pos + bytes.length)

structure RSA where
  n : Nat
  d : Nat

namespace RSA

/-- `RSA::setKey`, on the numbers of the two texts. -/
def setKey (p q : Nat) : RSA where
  n := p * q
  d := inverseMod 65537 ((p - 1) * (q - 1))

/-- `mpz_sizeinbase(m, 2)`; zero has one digit, too. -/
def sizeinbase (m : Nat) : Nat := max 1 m.size

/-- `mpz_powm` -/
def powm (c d n : Nat) : Nat := powMod n c d.size d

/-- What `mpz_export` writes, nothing for zero. -/
def exported (m : Nat) : List UInt8 := toBE ((m.size + 7) / 8) m

/-- `RSA::decrypt`, on the 128 bytes that it is given. -/
def decrypt (key : RSA) (msg : List UInt8) : List UInt8 :=
  let c := ofBE msg
  let m := powm c key.d key.n
  let count := (sizeinbase m + 7) / 8
  let msg := overwrite msg 0 (List.replicate (128 - count) 0)
  overwrite msg (128 - count) (exported m)

/-- The other side: the power to the public exponent. -/
def encrypt (key : RSA) (m : Nat) : List UInt8 := toBE 128 (powm m 65537 key.n)

@[simp] theorem encrypt_length (key : RSA) (m : Nat) : (key.encrypt m).length = 128 := by
  simp [encrypt]

@[simp] theorem setKey_n (p q : Nat) : (setKey p q).n = p * q := rfl

@[simp] theorem setKey_d (p q : Nat) :
    (setKey p q).d = inverseMod 65537 ((p - 1) * (q - 1)) := rfl

theorem powm_eq (c d n : Nat) : powm c d n = c ^ d % n := powMod_eq n c (Nat.lt_size_self d)

/-! ### What is left in the block -/

variable {key : RSA} {msg : List UInt8} {m : Nat}

theorem lt_pow_count (m : Nat) : m < 256 ^ ((m.size + 7) / 8) := by
  refine (Nat.lt_size_self m).trans_le ?_
  have base : (256 : Nat) = 2 ^ 8 := rfl
  rw [base, ← pow_mul]
  exact Nat.pow_le_pow_right (by decide) (by omega)

theorem count_le {k : Nat} (h : m < 256 ^ k) : (m.size + 7) / 8 ≤ k := by
  have size : m.size ≤ 8 * k := by
    have base : (2 : Nat) ^ 8 = 256 := rfl
    rw [Nat.size_le, pow_mul, base]
    exact h
  omega

/-- A number that is not zero fills the block. -/
theorem decrypt_of_pos (block : msg.length = 128) (n_pos : 0 < key.n)
    (key_size : key.n ≤ 256 ^ 128) (pos : 0 < ofBE msg ^ key.d % key.n) :
    key.decrypt msg = toBE 128 (ofBE msg ^ key.d % key.n) := by
  have lt : ofBE msg ^ key.d % key.n < 256 ^ 128 :=
    (Nat.mod_lt _ n_pos).trans_le key_size
  have le := count_le lt
  have size : sizeinbase (ofBE msg ^ key.d % key.n) = (ofBE msg ^ key.d % key.n).size :=
    max_eq_right (Nat.size_pos.mpr pos)
  simp only [decrypt, powm_eq, size]
  generalize ofBE msg ^ key.d % key.n = m at pos lt le size ⊢
  rw [toBE_pad (lt_pow_count m) le]
  unfold overwrite exported
  have rest : (List.replicate (128 - (m.size + 7) / 8) (0 : UInt8)).length =
      128 - (m.size + 7) / 8 := List.length_replicate
  rw [List.take_zero, List.nil_append, rest, Nat.zero_add, toBE_length,
    List.take_left' rest, List.drop_eq_nil_of_le, List.append_nil]
  simp only [List.length_append, rest, List.length_drop, block]
  omega

/-- Of zero only the last byte is not written. -/
theorem decrypt_of_zero (zero : ofBE msg ^ key.d % key.n = 0) :
    key.decrypt msg = List.replicate 127 0 ++ msg.drop 127 := by
  have size : sizeinbase 0 = 1 := by simp [sizeinbase]
  have empty : exported 0 = [] := by simp [exported, toBE, toLE]
  simp only [decrypt, powm_eq, zero, size, empty]
  unfold overwrite
  simp

/-- Decryption undoes the power to the public exponent, for every number below the product
of the primes. -/
theorem decrypt_encrypt {p q : Nat} (hp : p.Prime) (hq : q.Prime) (ne : p ≠ q)
    (coprime : Nat.Coprime 65537 ((p - 1) * (q - 1))) (key_size : p * q ≤ 256 ^ 128)
    (lt : m < p * q) : (setKey p q).decrypt ((setKey p q).encrypt m) = toBE 128 m := by
  have n_pos : 0 < p * q := by omega
  have large : 1 < (p - 1) * (q - 1) := by
    have two_p := hp.two_le
    have two_q := hq.two_le
    rcases Nat.lt_or_gt_of_ne ne with less | less
    · exact Nat.lt_of_lt_of_le (by omega : 1 < q - 1) (Nat.le_mul_of_pos_left _ (by omega))
    · exact Nat.lt_of_lt_of_le (by omega : 1 < p - 1) (Nat.le_mul_of_pos_right _ (by omega))
  have cipher : ofBE ((setKey p q).encrypt m) = m ^ 65537 % (p * q) := by
    rw [encrypt, powm_eq, setKey_n, ofBE_toBE ((Nat.mod_lt _ n_pos).trans_le key_size)]
  have plain : ofBE ((setKey p q).encrypt m) ^ (setKey p q).d % (setKey p q).n = m := by
    rw [cipher, setKey_n, ← Nat.pow_mod]
    have undone := pow_pow_modEq hp hq ne (mul_inverseMod coprime large) m
    rw [setKey_d, undone, Nat.mod_eq_of_lt lt]
  rcases Nat.eq_zero_or_pos m with zero | pos
  · have silent : (setKey p q).encrypt m = List.replicate 128 0 := by
      rw [encrypt, powm_eq, zero]
      simp [toBE, toLE]
    rw [decrypt_of_zero (plain.trans zero), silent, zero,
      toBE_pad (k := 0) (by simp) (by simp)]
    simp [toBE, toLE]
  · rw [decrypt_of_pos (encrypt_length _ _) n_pos key_size (by rw [plain]; exact pos), plain]

end RSA

end TibServer
