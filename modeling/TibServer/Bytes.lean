import Mathlib.Data.List.Basic
import Mathlib.Tactic.SplitIfs
import Mathlib.Tactic.Ring

/-!
Bytes: numbers as little-endian lists, and buffers, which are functions from
positions to bytes, with the slices that are read from them and stored in them.
-/

namespace Bytes

/-! ### Little-endian numbers -/

/-- The `n` lowest bytes of a number, the lowest first. -/
def toLE : Nat → Nat → List UInt8
  | 0, _ => []
  | n + 1, x => UInt8.ofNat x :: toLE n (x / 256)

/-- The number a list of bytes stands for, the lowest first. -/
def ofLE : List UInt8 → Nat
  | [] => 0
  | b :: l => b.toNat + 256 * ofLE l

@[simp] theorem toLE_length (n x : Nat) : (toLE n x).length = n := by
  induction n generalizing x with
  | zero => rfl
  | succ n ih => simp [toLE, ih]

theorem ofLE_lt (l : List UInt8) : ofLE l < 256 ^ l.length := by
  induction l with
  | nil => simp [ofLE]
  | cons b l ih =>
      have := b.toNat_lt
      rw [ofLE, List.length_cons, pow_succ]
      omega

theorem ofLE_toLE (n x : Nat) : ofLE (toLE n x) = x % 256 ^ n := by
  induction n generalizing x with
  | zero => simp [toLE, ofLE, Nat.mod_one]
  | succ n ih =>
      have low : (UInt8.ofNat x).toNat = x % 256 := UInt8.toNat_ofNat' ..
      rw [toLE, ofLE, ih, low, pow_succ', Nat.mod_mul]

theorem toLE_ofLE (l : List UInt8) : toLE l.length (ofLE l) = l := by
  induction l with
  | nil => rfl
  | cons b l ih =>
      have small := b.toNat_lt
      have head : UInt8.ofNat (b.toNat + 256 * ofLE l) = b := by
        apply UInt8.toNat_inj.mp
        rw [UInt8.toNat_ofNat']
        omega
      have tail : (b.toNat + 256 * ofLE l) / 256 = ofLE l := by omega
      rw [List.length_cons, ofLE, toLE, head, tail, ih]

/-! ### Buffers -/

/-- What lies at each position. -/
abbrev Buffer := Nat → UInt8

/-- The `n` bytes from a position on. -/
def slice (b : Buffer) (pos n : Nat) : List UInt8 := (List.range n).map fun i => b (pos + i)

/-- A list stored from a position on. -/
def store (b : Buffer) (pos : Nat) (l : List UInt8) : Buffer :=
  fun i => if pos ≤ i then (l[i - pos]?).getD (b i) else b i

@[simp] theorem slice_length (b : Buffer) (pos n : Nat) : (slice b pos n).length = n := by
  simp [slice]

theorem slice_getElem? (b : Buffer) (pos n i : Nat) :
    (slice b pos n)[i]? = if i < n then some (b (pos + i)) else none := by
  simp only [slice, List.getElem?_map]
  split_ifs <;> simp_all

/-- Slices are equal when the bytes they take are. -/
theorem slice_congr {b b' : Buffer} {pos pos' n : Nat} (h : ∀ i < n, b (pos + i) = b' (pos' + i)) :
    slice b pos n = slice b' pos' n := by
  refine List.map_congr_left fun i hi => h i (List.mem_range.mp hi)

theorem slice_add (b : Buffer) (pos m n : Nat) :
    slice b pos (m + n) = slice b pos m ++ slice b (pos + m) n := by
  simp only [slice, List.range_add, List.map_append, List.map_map]
  congr 1
  refine List.map_congr_left fun i _ => ?_
  simp [Nat.add_assoc]

theorem slice_take (b : Buffer) (pos : Nat) {m n : Nat} (h : m ≤ n) :
    (slice b pos n).take m = slice b pos m := by
  obtain ⟨k, rfl⟩ := Nat.exists_eq_add_of_le h
  rw [slice_add, List.take_left' (slice_length b pos m)]

theorem slice_drop (b : Buffer) (pos : Nat) {m n : Nat} (h : m ≤ n) :
    (slice b pos n).drop m = slice b (pos + m) (n - m) := by
  obtain ⟨k, rfl⟩ := Nat.exists_eq_add_of_le h
  rw [slice_add, List.drop_left' (slice_length b pos m), Nat.add_sub_cancel_left]

theorem store_inside (b : Buffer) (pos : Nat) (l : List UInt8) {i : Nat} (hi : i < l.length) :
    store b pos l (pos + i) = l[i] := by
  simp [store, hi]

theorem store_outside (b : Buffer) {pos i : Nat} (l : List UInt8)
    (hi : i < pos ∨ pos + l.length ≤ i) : store b pos l i = b i := by
  unfold store
  split_ifs with above
  · have past : l.length ≤ i - pos := by omega
    simp [past]
  · rfl

/-- What was stored is read back. -/
theorem slice_store (b : Buffer) (pos : Nat) (l : List UInt8) :
    slice (store b pos l) pos l.length = l := by
  apply List.ext_getElem?
  intro i
  rw [slice_getElem?]
  split_ifs with hi
  · rw [store_inside b pos l hi, List.getElem?_eq_getElem hi]
  · exact (List.getElem?_eq_none (not_lt.mp hi)).symm

/-- A slice apart from what was stored is as it was. -/
theorem slice_store_apart (b : Buffer) {pos q n : Nat} (l : List UInt8)
    (apart : q + n ≤ pos ∨ pos + l.length ≤ q) :
    slice (store b pos l) q n = slice b q n :=
  slice_congr fun i hi => store_outside b l (by omega)

/-! ### Blocks of eight bytes -/

/-- A function of blocks, applied to `n` blocks one after the other. -/
def mapBlocks (f : List UInt8 → List UInt8) : Nat → List UInt8 → List UInt8
  | 0, _ => []
  | n + 1, l => f (l.take 8) ++ mapBlocks f n (l.drop 8)

/-- The same in a buffer, in place. -/
def storeBlocks (f : List UInt8 → List UInt8) : Nat → Buffer → Nat → Buffer
  | 0, b, _ => b
  | n + 1, b, pos => storeBlocks f n (store b pos (f (slice b pos 8))) (pos + 8)

section Blocks

variable {f g : List UInt8 → List UInt8}

theorem mapBlocks_length (hf : ∀ l, (f l).length = 8) (n : Nat) (l : List UInt8) :
    (mapBlocks f n l).length = 8 * n := by
  induction n generalizing l with
  | zero => rfl
  | succ n ih =>
      rw [mapBlocks, List.length_append, hf, ih]
      omega

/-- A function of blocks is undone block by block. -/
theorem mapBlocks_inverse (hf : ∀ l, (f l).length = 8)
    (inverse : ∀ l : List UInt8, l.length = 8 → g (f l) = l) (n : Nat) {l : List UInt8}
    (hl : l.length = 8 * n) : mapBlocks g n (mapBlocks f n l) = l := by
  induction n generalizing l with
  | zero => simpa [mapBlocks, eq_comm] using List.length_eq_zero_iff.mp hl
  | succ n ih =>
      have head : (l.take 8).length = 8 := by
        rw [List.length_take]
        omega
      have tail : (l.drop 8).length = 8 * n := by
        rw [List.length_drop]
        omega
      rw [mapBlocks, mapBlocks, List.take_left' (hf _), List.drop_left' (hf _), inverse _ head,
        ih tail, List.take_append_drop]

theorem storeBlocks_outside (hf : ∀ l, (f l).length = 8) (n : Nat) (b : Buffer) {pos i : Nat}
    (hi : i < pos ∨ pos + 8 * n ≤ i) : storeBlocks f n b pos i = b i := by
  induction n generalizing b pos with
  | zero => rfl
  | succ n ih =>
      rw [storeBlocks, ih _ (by omega), store_outside]
      rw [hf]
      omega

/-- In place or on the list, the blocks are the same. -/
theorem slice_storeBlocks (hf : ∀ l, (f l).length = 8) (n : Nat) (b : Buffer) (pos : Nat) :
    slice (storeBlocks f n b pos) pos (8 * n) = mapBlocks f n (slice b pos (8 * n)) := by
  induction n generalizing b pos with
  | zero => rfl
  | succ n ih =>
      have split : 8 * (n + 1) = 8 + 8 * n := by ring
      have first : slice (storeBlocks f n (store b pos (f (slice b pos 8))) (pos + 8)) pos 8 =
          f (slice b pos 8) := by
        have whole := slice_store b pos (f (slice b pos 8))
        rw [hf] at whole
        rw [← whole]
        exact slice_congr fun i hi => by
          rw [storeBlocks_outside hf n _ (by omega), whole]
      have rest : slice (store b pos (f (slice b pos 8))) (pos + 8) (8 * n) =
          slice b (pos + 8) (8 * n) := slice_store_apart b _ (.inr (by rw [hf]))
      rw [storeBlocks, split, slice_add, first, ih, rest, mapBlocks, slice_add,
        List.take_left' (slice_length ..), List.drop_left' (slice_length ..)]

end Blocks

end Bytes
