import Mathlib.Tactic

/-!
Rows of cells in bytes. A cell is empty or holds a block of bytes, and the empty cells between
two blocks are counted in one byte before the mark `0xFF`. The count is carried from cell to
cell; it is -1 where no mark has to be written before the next block.

A reader has to know where a block ends: it reads the block of a cell with the mark behind it,
or the mark alone where the cell is empty.
-/

namespace SkipCoding

abbrev Cell := Option (List UInt8)

def mark (count : Int) : List UInt8 := [UInt8.ofNat count.toNat, 0xFF]

/-- The mark that is written where the count is not -1. -/
def flush (count : Int) : List UInt8 := if count ≥ 0 then mark count else []

/-- What is written for one cell, and the count after it. -/
def write (count : Int) : Cell → List UInt8 × Int
  | some block => (flush count ++ block, 0)
  | none => if count = 0xFE then (mark 0xFF, -1) else ([], count + 1)

/-- What is written for a row, and the count after it. -/
def writeRow (count : Int) : List Cell → List UInt8 × Int
  | [] => ([], count)
  | cell :: cells =>
      ((write count cell).1 ++ (writeRow (write count cell).2 cells).1,
        (writeRow (write count cell).2 cells).2)

/-- A row with the last mark. -/
def encode (count : Int) (cells : List Cell) : List UInt8 :=
  (writeRow count cells).1 ++ flush (writeRow count cells).2

theorem encode_nil (count : Int) : encode count [] = flush count := rfl

theorem encode_cons (count : Int) (cell : Cell) (cells : List Cell) :
    encode count (cell :: cells) =
      (write count cell).1 ++ encode (write count cell).2 cells := by
  rw [encode, writeRow, encode, List.append_assoc]

/-! ### Reading -/

/-- Reads a cell up to its mark: the cell, the count of the mark and the rest. -/
abbrev BlockReader := List UInt8 → Option (Cell × Nat × List UInt8)

/-- Reads a number of cells, the next ones of which may have been counted by a mark. -/
def decode (read : BlockReader) : Nat → Nat → List UInt8 → Option (List Cell × List UInt8)
  | 0, _, bytes => some ([], bytes)
  | n + 1, skip + 1, bytes => (decode read n skip bytes).map fun row => (none :: row.1, row.2)
  | n + 1, 0, bytes =>
      match read bytes with
      | none => none
      | some (cell, skip, rest) =>
          (decode read n skip rest).map fun row => (cell :: row.1, row.2)

/-- What a reader must know about the blocks of a row. -/
structure Reads (read : BlockReader) (cells : List Cell) : Prop where
  gap : ∀ (count : UInt8) (rest : List UInt8),
    read (count :: 0xFF :: rest) = some (none, count.toNat, rest)
  block : ∀ block, some block ∈ cells → ∀ (count : UInt8) (rest : List UInt8),
    read (block ++ count :: 0xFF :: rest) = some (some block, count.toNat, rest)

variable {read : BlockReader}

theorem Reads.tail {cell : Cell} {cells : List Cell} (h : Reads read (cell :: cells)) :
    Reads read cells :=
  ⟨h.gap, fun block hmem => h.block block (List.mem_cons_of_mem _ hmem)⟩

theorem toNat_ofNat {count : Nat} (h : count ≤ 0xFF) : (UInt8.ofNat count).toNat = count := by
  rw [UInt8.toNat_ofNat']
  exact Nat.mod_eq_of_lt (by omega)

/-- The rest of a row while a mark is due: it begins with the mark, which counts the empty
cells that have been passed and all that follow, and a reader that has passed those reads the
row. -/
def ReadsDue (read : BlockReader) (cells : List Cell) (count : Nat) : Prop :=
  ∃ total rest, encode count cells = UInt8.ofNat total :: 0xFF :: rest ∧
    count ≤ total ∧ total ≤ 0xFF ∧
    decode read cells.length (total - count) rest = some (cells, [])

theorem encode_due_nil (count : Nat) : encode count [] = [UInt8.ofNat count, 0xFF] := by
  rw [encode_nil, flush, if_pos (Int.natCast_nonneg count), mark, Int.toNat_natCast]

/-- A block is read with the mark that is due behind it. -/
theorem decode_block {block : List UInt8} {cells : List Cell}
    (h : Reads read (some block :: cells)) (hdue : ReadsDue read cells 0) :
    decode read (cells.length + 1) 0 (block ++ encode 0 cells) = some (some block :: cells, []) := by
  obtain ⟨total, rest, hbytes, -, htotal, hdecode⟩ := hdue
  have hread := h.block block List.mem_cons_self (UInt8.ofNat total) rest
  rw [Nat.sub_zero] at hdecode
  rw [decode, show encode 0 cells = UInt8.ofNat total :: 0xFF :: rest from hbytes, hread]
  simp only [toNat_ofNat htotal, hdecode]
  rfl

/-- While no mark is due the row is read from the next cell on, and while one is due as
`ReadsDue` says. The induction needs both, since every mark ends the one and every block or
empty cell behind it begins the other. -/
theorem decode_encode_both {cells : List Cell} (h : Reads read cells) :
    decode read cells.length 0 (encode (-1) cells) = some (cells, []) ∧
      ∀ count ≤ 0xFE, ReadsDue read cells count := by
  induction cells with
  | nil =>
      refine ⟨rfl, fun count hcount => ⟨count, [], ?_, Nat.le_refl _, by omega, rfl⟩⟩
      exact encode_due_nil count
  | cons cell cells ih =>
      obtain ⟨hnew, hdue⟩ := ih h.tail
      cases cell with
      | none =>
          refine ⟨?_, fun count hcount => ?_⟩
          · obtain ⟨total, rest, hbytes, -, htotal, hdecode⟩ := hdue 0 (by omega)
            have hread := h.gap (UInt8.ofNat total) rest
            rw [Nat.sub_zero] at hdecode
            rw [encode_cons, write, if_neg (by omega), List.nil_append, List.length_cons, decode,
              show encode (-1 + 1) cells = UInt8.ofNat total :: 0xFF :: rest from hbytes, hread]
            simp only [toNat_ofNat htotal, hdecode]
            rfl
          · by_cases hfull : count = 0xFE
            · refine ⟨0xFF, encode (-1) cells, ?_, by omega, Nat.le_refl _, ?_⟩
              · rw [encode_cons, write, if_pos (by omega)]
                rfl
              · rw [hfull, List.length_cons]
                show (decode read cells.length 0 (encode (-1) cells)).map _ = _
                rw [hnew]
                rfl
            · obtain ⟨total, rest, hbytes, hle, htotal, hdecode⟩ := hdue (count + 1) (by omega)
              refine ⟨total, rest, ?_, by omega, htotal, ?_⟩
              · rw [encode_cons, write, if_neg (by omega), List.nil_append, ← hbytes]
                rfl
              · have hskip : total - count = (total - (count + 1)) + 1 := by omega
                rw [hskip, List.length_cons, decode, hdecode]
                rfl
      | some block =>
          have hblock := decode_block h (hdue 0 (by omega))
          refine ⟨?_, fun count hcount => ?_⟩
          · rw [encode_cons]
            exact hblock
          · refine ⟨count, block ++ encode 0 cells, ?_, Nat.le_refl _, by omega, ?_⟩
            · rw [encode_cons, write, flush, if_pos (Int.natCast_nonneg count), mark,
                Int.toNat_natCast]
              rfl
            · rw [Nat.sub_self]
              exact hblock

/-- What is written for a row is read back. -/
theorem decode_encode {cells : List Cell} (h : Reads read cells) :
    decode read cells.length 0 (encode (-1) cells) = some (cells, []) :=
  (decode_encode_both h).1

end SkipCoding
