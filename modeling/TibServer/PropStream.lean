import Mathlib.Data.BitVec
import TibServer.Bytes

/-!
The property streams of `fileloader.h`: numbers and strings written one after the
other, and read back from what is left of a stream. A struct is read as its fields,
one after the other: it is there as a whole or not at all.
-/

namespace TibServer

/-- What is left to read. -/
abbrev PropStream := List UInt8

namespace PropStream

open Bytes

/-- `PropStream::read`. -/
def read (w : Nat) (s : PropStream) : Option (BitVec w × PropStream) :=
  if s.length < w / 8 then none
  else some (BitVec.ofNat w (ofLE (s.take (w / 8))), s.drop (w / 8))

/-- `PropStream::skip`. -/
def skip (n : Nat) (s : PropStream) : Option PropStream :=
  if s.length < n then none else some (s.drop n)

/-- `PropStream::readString`. -/
def readString (s : PropStream) : Option (List UInt8 × PropStream) := do
  let (strLen, s) ← s.read 16
  if s.length < strLen.toNat then none
  else some (s.take strLen.toNat, s.drop strLen.toNat)

/-- `PropWriteStream::write`. -/
def write {w : Nat} (add : BitVec w) : PropStream := toLE (w / 8) add.toNat

/-- `PropWriteStream::writeString`: a string that is too long is written as none. -/
def writeString (str : List UInt8) : PropStream :=
  if str.length > 0xFFFF then write (0 : BitVec 16)
  else write (BitVec.ofNat 16 str.length) ++ str

/-- An attribute of a stream: its number, and the bytes of its value. -/
def attr (number : BitVec 8) (value : List UInt8) : List UInt8 := write number ++ value

variable {w : Nat} {s s' : PropStream}

@[simp] theorem write_length (add : BitVec w) : (write add).length = w / 8 := toLE_length _ _

/-- A number is read back as it was written, and what follows it is left. -/
theorem read_write (whole : 8 * (w / 8) = w) (add : BitVec w) (s : PropStream) :
    read w (write add ++ s) = some (add, s) := by
  have len : (write add).length = w / 8 := write_length add
  have fits : ¬ (write add ++ s).length < w / 8 := by
    rw [List.length_append]
    omega
  have power : 256 ^ (w / 8) = 2 ^ w := by
    rw [show 256 = 2 ^ 8 from rfl, ← pow_mul, whole]
  rw [read, if_neg fits, List.take_left' len, List.drop_left' len, write, ofLE_toLE, power,
    Nat.mod_eq_of_lt add.isLt, BitVec.ofNat_toNat, BitVec.setWidth_eq]

theorem read_write_8 (add : BitVec 8) (s : PropStream) :
    read 8 (write add ++ s) = some (add, s) := read_write rfl add s

theorem read_write_16 (add : BitVec 16) (s : PropStream) :
    read 16 (write add ++ s) = some (add, s) := read_write rfl add s

theorem read_write_32 (add : BitVec 32) (s : PropStream) :
    read 32 (write add ++ s) = some (add, s) := read_write rfl add s

theorem read_length {v : BitVec w} (h : read w s = some (v, s')) :
    s'.length + w / 8 = s.length := by
  unfold read at h
  split at h
  · exact absurd h (by simp)
  · obtain ⟨-, rfl⟩ := Prod.mk.inj (Option.some.inj h)
    rw [List.length_drop]
    omega

theorem skip_length {n : Nat} (h : skip n s = some s') : s'.length + n = s.length := by
  unfold skip at h
  split at h
  · exact absurd h (by simp)
  · obtain rfl := Option.some.inj h
    rw [List.length_drop]
    omega

/-- A string is read back unless it is too long to be written. -/
theorem readString_writeString {str : List UInt8} (fits : str.length ≤ 0xFFFF) (s : PropStream) :
    readString (writeString str ++ s) = some (str, s) := by
  have len : (BitVec.ofNat 16 str.length).toNat = str.length := by
    rw [BitVec.toNat_ofNat]
    omega
  have short : ¬ (str ++ s).length < str.length := by
    rw [List.length_append]
    omega
  rw [writeString, if_neg (not_lt.mpr fits), List.append_assoc, readString, read_write_16]
  simp only [Option.bind_eq_bind, Option.bind_some, len, if_neg short]
  rw [List.take_left' rfl, List.drop_left' rfl]

/-- A string that is too long is read back as none. -/
theorem readString_written (str : List UInt8) (s : PropStream) :
    readString (writeString str ++ s) =
      some (if str.length > 0xFFFF then [] else str, s) := by
  by_cases long : str.length > 0xFFFF
  · have empty : readString (writeString [] ++ s) = some ([], s) :=
      readString_writeString (by simp) s
    rw [if_pos long, ← empty]
    simp only [writeString, if_pos long]
    rfl
  · rw [if_neg long, readString_writeString (not_lt.mp long)]

/-! ### What is read is gone -/

/-- A reader takes its bytes from the front. -/
def Consumes {α : Type} (reads : PropStream → Option (α × PropStream)) : Prop :=
  ∀ s v s', reads s = some (v, s') → s'.length ≤ s.length

theorem read_consumes (w : Nat) : Consumes (read w) := by
  intro s v s' h
  have len := read_length h
  omega

theorem bind_consumes {α β : Type} {reads : PropStream → Option (α × PropStream)}
    {next : α → PropStream → Option (β × PropStream)} (h : Consumes reads)
    (h' : ∀ v, Consumes (next v)) : Consumes fun s => (reads s).bind fun r => next r.1 r.2 := by
  intro s v s' e
  obtain ⟨r, here, rest⟩ := Option.bind_eq_some_iff.mp e
  exact (h' _ _ _ _ rest).trans (h _ _ _ here)

theorem some_consumes {α : Type} (v : α) : Consumes fun s => some (v, s) := by
  intro s v' s' e
  obtain ⟨-, rfl⟩ := Prod.mk.inj (Option.some.inj e)
  exact le_rfl

theorem readString_consumes : Consumes readString := by
  intro s v s' h
  obtain ⟨⟨strLen, rest⟩, first, h⟩ := Option.bind_eq_some_iff.mp h
  have len := read_length first
  simp only at h
  split at h
  · exact absurd h (by simp)
  · obtain ⟨-, rfl⟩ := Prod.mk.inj (Option.some.inj h)
    rw [List.length_drop]
    omega

theorem ite_consumes {α : Type} {p : Prop} [Decidable p]
    {f g : PropStream → Option (α × PropStream)} (hf : Consumes f) (hg : Consumes g) :
    Consumes fun s => if p then f s else g s := by
  intro s v s' e
  split at e
  · exact hf _ _ _ e
  · exact hg _ _ _ e

end PropStream

end TibServer
