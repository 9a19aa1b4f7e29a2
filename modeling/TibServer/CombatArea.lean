import TibServer.FloatRounding
import TibServer.PathSearch

/-!
The areas of combat (`combat.h`, `combat.cpp`): a matrix of cells about a centre, and the matrices
that are copied from it for the other directions. A write outside of a matrix fails here. The sizes
are those of matrices in memory, so that coordinates do not wrap; a centre that is computed below
zero is kept as that number.
-/

namespace TibServer.CombatArea

open PathSearch (Direction)

inductive MatrixOperation
  | copy | mirror | flip | rotate90 | rotate180 | rotate270
  deriving DecidableEq, Repr

/-- The cells row by row; those that are not in the matrix are not looked at. -/
structure MatrixArea where
  rows : ℕ
  cols : ℕ
  centerX : ℤ := 0
  centerY : ℤ := 0
  data : ℕ → ℕ → Bool := fun _ _ => false

namespace MatrixArea

def setValue (area : MatrixArea) (row col : ℤ) (value : Bool) : Option MatrixArea :=
  if 0 ≤ row ∧ row < area.rows ∧ 0 ≤ col ∧ col < area.cols then
    some { area with
      data := Function.update area.data row.toNat
        (Function.update (area.data row.toNat) col.toNat value) }
  else none

def setCenter (area : MatrixArea) (y x : ℤ) : MatrixArea :=
  { area with centerX := x, centerY := y }

/-- Cells of the input, each with the place where it is written, in the order of the loops. -/
def copyCells (input output : MatrixArea) (cells : List ((ℕ × ℕ) × (ℤ × ℤ))) :
    Option MatrixArea :=
  cells.foldlM (fun output cell =>
    output.setValue cell.2.1 cell.2.2 (input.data cell.1.1 cell.1.2)) output

end MatrixArea

/-- The cosine and the sine of the angle. -/
def rotation : MatrixOperation → ℤ × ℤ
  | .rotate90 => (0, 1)
  | .rotate180 => (-1, 0)
  | .rotate270 => (0, -1)
  | _ => (1, 0)

def copyArea (input output : MatrixArea) (op : MatrixOperation) : Option MatrixArea :=
  match op with
  | .copy => do
      let output ← input.copyCells output <| (List.range input.rows).flatMap fun y =>
        (List.range input.cols).map fun x => ((y, x), (y, x))
      some (output.setCenter input.centerY input.centerX)
  | .mirror => do
      let output ← input.copyCells output <| (List.range input.rows).flatMap fun y =>
        (List.range input.cols).map fun rx => ((y, input.cols - 1 - rx), (y, rx))
      some (output.setCenter input.centerY (input.rows - 1 - input.centerX))
  | .flip => do
      let output ← input.copyCells output <| (List.range input.cols).flatMap fun x =>
        (List.range input.rows).map fun ry => ((input.rows - 1 - ry, x), (ry, x))
      some (output.setCenter (input.cols - 1 - input.centerY) input.centerX)
  | op => do
      let rotateCenterX : ℤ := (output.cols / 2 : ℕ) - 1
      let rotateCenterY : ℤ := (output.rows / 2 : ℕ) - 1
      let (cos, sin) := rotation op
      let output ← input.copyCells output <| (List.range input.cols).flatMap fun (x : ℕ) =>
        (List.range input.rows).map fun (y : ℕ) =>
          let newX := x - input.centerX
          let newY := y - input.centerY
          let rotatedX := newX * cos + newY * -sin
          let rotatedY := newX * sin + newY * cos
          ((y, x), (rotatedY + rotateCenterY, rotatedX + rotateCenterX))
      some (output.setCenter rotateCenterY rotateCenterX)

/-- A value of the list that sets its cell. -/
def MatrixArea.setCell (area : MatrixArea) (y x : ℕ) (value : ℕ) : Option MatrixArea :=
  if value = 1 ∨ value = 3 then area.setValue y x true else some area

/-- The loop of `createArea` over the values. -/
def fillArea (cols : ℕ) : MatrixArea → ℕ → ℕ → List ℕ → Option MatrixArea
  | area, _, _, [] => some area
  | area, x, y, value :: list => do
      let area ← area.setCell y x value
      let area := if value = 2 ∨ value = 3 then area.setCenter y x else area
      if cols = x + 1 then fillArea cols area 0 (y + 1) list else fillArea cols area (x + 1) y list

def createArea (list : List ℕ) (rows : ℕ) : Option MatrixArea :=
  let cols := if rows = 0 then 0 else list.length / rows
  fillArea cols { rows, cols } 0 0 list

structure AreaCombat where
  areas : Direction → Option MatrixArea := fun _ => none
  hasExtArea : Bool := false

namespace AreaCombat

def setupArea (a : AreaCombat) (list : List ℕ) (rows : ℕ) : Option AreaCombat := do
  let area ← createArea list rows
  let maxOutput := max area.cols area.rows * 2
  let southArea ← copyArea area { rows := maxOutput, cols := maxOutput } .rotate180
  let eastArea ← copyArea area { rows := maxOutput, cols := maxOutput } .rotate90
  let westArea ← copyArea area { rows := maxOutput, cols := maxOutput } .rotate270
  some { a with areas := fun
    | .north => area
    | .south => southArea
    | .east => eastArea
    | .west => westArea
    | direction => a.areas direction }

def setupExtArea (a : AreaCombat) (list : List ℕ) (rows : ℕ) : Option AreaCombat :=
  if list.isEmpty then some a
  else do
    let area ← createArea list rows
    let maxOutput := max area.cols area.rows * 2
    let neArea ← copyArea area { rows := maxOutput, cols := maxOutput } .mirror
    let swArea ← copyArea area { rows := maxOutput, cols := maxOutput } .flip
    let seArea ← copyArea swArea { rows := maxOutput, cols := maxOutput } .mirror
    some { hasExtArea := true, areas := fun
      | .northwest => area
      | .northeast => neArea
      | .southwest => swArea
      | .southeast => seArea
      | direction => a.areas direction }

end AreaCombat

/-! ### The rounding -/

/-- `round` of C: halves away from zero. -/
def roundAway (x : ℚ) : ℤ := if x < 0 then -⌊-x + 1 / 2⌋ else ⌊x + 1 / 2⌋

theorem roundAway_near {x : ℚ} {n : ℤ} (h : |x - n| < 1 / 2) : roundAway x = n := by
  obtain ⟨hlow, hhigh⟩ := abs_lt.1 h
  unfold roundAway
  split_ifs with hneg
  · rw [neg_eq_iff_eq_neg, Int.floor_eq_iff]
    push_cast
    constructor <;> linarith
  · rw [Int.floor_eq_iff]
    constructor <;> linarith

/-- Doubles that are nearly the cosine and the sine of the angle make of 32-bit coordinates, rounded
to doubles throughout and to an integer at last, what the cosine and the sine make themselves. -/
theorem rotated_rounded {x y cos sin : ℤ} {a b : ℚ} (hx : |x| ≤ 2 ^ 32) (hy : |y| ≤ 2 ^ 32)
    (hcos : |cos| ≤ 1) (hsin : |sin| ≤ 1) (ha : |a - cos| ≤ 1 / 2 ^ 50)
    (hb : |b - sin| ≤ 1 / 2 ^ 50) :
    roundAway (FloatRounding.round 53
      (FloatRounding.round 53 (x * a) + FloatRounding.round 53 (y * b))) = x * cos + y * sin := by
  have hproduct {x n : ℤ} {a : ℚ} (hx : |x| ≤ 2 ^ 32) (hn : |n| ≤ 1) (ha : |a - n| ≤ 1 / 2 ^ 50) :
      |(x : ℚ) * n| ≤ 2 ^ 32 ∧ |FloatRounding.round 53 (x * a) - x * n| ≤ 1 / 2 ^ 17 := by
    have hx' : |(x : ℚ)| ≤ 2 ^ 32 := by exact_mod_cast hx
    have hn' : |(n : ℚ)| ≤ 1 := by exact_mod_cast hn
    have hexact : |(x : ℚ) * n| ≤ 2 ^ 32 := by
      rw [abs_mul]
      nlinarith [abs_nonneg (x : ℚ), abs_nonneg (n : ℚ)]
    have hnear : |(x : ℚ) * a - x * n| ≤ 2 ^ 32 * (1 / 2 ^ 50) := by
      rw [← mul_sub, abs_mul]
      exact mul_le_mul hx' ha (abs_nonneg _) (by norm_num)
    have hsize : |(x : ℚ) * a| ≤ 2 ^ 53 * 2 ^ (-20 : ℤ) := by
      have := abs_sub_abs_le_abs_sub ((x : ℚ) * a) (x * n)
      norm_num at this hnear hexact ⊢
      linarith
    have herror := FloatRounding.round_error (by norm_num) hsize
    have htriangle := abs_sub_le (FloatRounding.round 53 (x * a)) (x * a) (x * n)
    refine ⟨hexact, ?_⟩
    norm_num at herror hnear ⊢
    linarith
  obtain ⟨hxcos, hxa⟩ := hproduct hx hcos ha
  obtain ⟨hysin, hyb⟩ := hproduct hy hsin hb
  apply roundAway_near
  push_cast
  have hsum : |FloatRounding.round 53 (x * a) + FloatRounding.round 53 (y * b) -
      (x * cos + y * sin)| ≤ 1 / 2 ^ 16 := by
    have := abs_add_le (FloatRounding.round 53 (x * a) - x * cos)
      (FloatRounding.round 53 (y * b) - y * sin)
    rw [add_sub_add_comm]
    norm_num at hxa hyb ⊢
    linarith
  have hsize : |FloatRounding.round 53 (x * a) + FloatRounding.round 53 (y * b)| ≤
      2 ^ 53 * 2 ^ (-19 : ℤ) := by
    have hexact := abs_add_le ((x : ℚ) * cos) (y * sin)
    have hnear := abs_sub_abs_le_abs_sub
      (FloatRounding.round 53 (x * a) + FloatRounding.round 53 (y * b)) (x * cos + y * sin)
    norm_num at hexact hnear hsum hxcos hysin ⊢
    linarith
  have herror := FloatRounding.round_error (by norm_num) hsize
  have htriangle := abs_sub_le (FloatRounding.round 53
    (FloatRounding.round 53 (x * a) + FloatRounding.round 53 (y * b)))
    (FloatRounding.round 53 (x * a) + FloatRounding.round 53 (y * b)) (x * cos + y * sin)
  norm_num at herror hsum ⊢
  linarith

/-! ### The sets that are stored -/

/-- The offsets from the centre to the cells that are set. -/
def MatrixArea.offsets (area : MatrixArea) : Set (ℤ × ℤ) :=
  {p | ∃ y < area.rows, ∃ x < area.cols, area.data y x = true ∧
    p = (x - area.centerX, y - area.centerY)}

/-- The offsets that a list with rows of this length gives for the centre at this place. -/
def baseSet (list : List ℕ) (cols centre : ℕ) : Set (ℤ × ℤ) :=
  {p | ∃ i, (list[i]? = some 1 ∨ list[i]? = some 3) ∧
    p = (((i % cols : ℕ) : ℤ) - (centre % cols : ℕ), ((i / cols : ℕ) : ℤ) - (centre / cols : ℕ))}

/-- The last place of the list that is marked as the centre. -/
def IsCentre (list : List ℕ) (centre : ℕ) : Prop :=
  (list[centre]? = some 2 ∨ list[centre]? = some 3) ∧
    ∀ i, list[i]? = some 2 ∨ list[i]? = some 3 → i ≤ centre

def rotated90 (p : ℤ × ℤ) : ℤ × ℤ := (-p.2, p.1)
def rotated180 (p : ℤ × ℤ) : ℤ × ℤ := (-p.1, -p.2)
def rotated270 (p : ℤ × ℤ) : ℤ × ℤ := (p.2, -p.1)
def mirrored (p : ℤ × ℤ) : ℤ × ℤ := (-p.1, p.2)
def flipped (p : ℤ × ℤ) : ℤ × ℤ := (p.1, -p.2)

def AreaCombat.Stores (a : AreaCombat) (direction : Direction) (s : Set (ℤ × ℤ)) : Prop :=
  ∃ area, a.areas direction = some area ∧ area.offsets = s

/-- The areas are made without a write outside, and for each direction the set is that of the list
turned to it. -/
def Turned (list : List ℕ) (rows cols centre : ℕ) : Prop :=
  ∀ a : AreaCombat,
    (∃ b, a.setupArea list rows = some b ∧
      b.Stores .north (baseSet list cols centre) ∧
      b.Stores .east (rotated90 '' baseSet list cols centre) ∧
      b.Stores .south (rotated180 '' baseSet list cols centre) ∧
      b.Stores .west (rotated270 '' baseSet list cols centre)) ∧
    ∃ b, a.setupExtArea list rows = some b ∧
      b.Stores .northwest (baseSet list cols centre) ∧
      b.Stores .northeast (mirrored '' baseSet list cols centre) ∧
      b.Stores .southwest (flipped '' baseSet list cols centre) ∧
      b.Stores .southeast (mirrored '' (flipped '' baseSet list cols centre))

/-! ### Copying cells -/

section

variable {input output : MatrixArea} {cells : List ((ℕ × ℕ) × (ℤ × ℤ))}

def MatrixArea.Inside (area : MatrixArea) (p : ℤ × ℤ) : Prop :=
  0 ≤ p.1 ∧ p.1 < area.rows ∧ 0 ≤ p.2 ∧ p.2 < area.cols

theorem setValue_inside {p : ℤ × ℤ} (h : output.Inside p) (value : Bool) :
    ∃ data, output.setValue p.1 p.2 value = some { output with data } ∧
      ∀ y x : ℕ, data y x = if p = (↑y, ↑x) then value else output.data y x := by
  refine ⟨_, if_pos h, fun y x => ?_⟩
  obtain ⟨hrow, -, hcol, -⟩ := h
  have hy : y = p.1.toNat ↔ p.1 = y := by omega
  have hx : x = p.2.toNat ↔ p.2 = x := by omega
  simp only [Function.update_apply, Prod.ext_iff, hy]
  by_cases hsame : p.1 = y
  · simp only [hsame, if_true, true_and, Int.toNat_natCast, Function.update_apply, hx]
  · simp only [hsame, if_false, false_and]

/-- Cells with places inside and apart from each other are all written. -/
theorem copyCells_spec (hinside : ∀ cell ∈ cells, output.Inside cell.2)
    (happart : ∀ c ∈ cells, ∀ d ∈ cells, c.2 = d.2 → c.1 = d.1) :
    ∃ data, input.copyCells output cells = some { output with data } ∧
      ∀ y x : ℕ, data y x = true ↔
        (∃ cell ∈ cells, cell.2 = (↑y, ↑x) ∧ input.data cell.1.1 cell.1.2 = true) ∨
          output.data y x = true ∧ ∀ cell ∈ cells, cell.2 ≠ (↑y, ↑x) := by
  induction cells generalizing output with
  | nil => exact ⟨output.data, rfl, fun y x => by simp⟩
  | cons cell cells ih =>
      obtain ⟨data, hwrite, hdata⟩ := setValue_inside (hinside cell List.mem_cons_self)
        (input.data cell.1.1 cell.1.2)
      obtain ⟨data', hcopy, hdata'⟩ := @ih { output with data }
        (fun c hc => hinside c (List.mem_cons_of_mem _ hc))
        fun c hc d hd => happart c (List.mem_cons_of_mem _ hc) d (List.mem_cons_of_mem _ hd)
      refine ⟨data', ?_, fun y x => ?_⟩
      · rw [MatrixArea.copyCells, List.foldlM_cons, hwrite]
        exact hcopy
      · rw [hdata' y x]
        simp only [hdata y x, List.exists_mem_cons_iff, List.forall_mem_cons]
        by_cases hplace : cell.2 = (↑y, ↑x)
        · simp only [hplace, if_true, true_and, ne_eq, not_true_eq_false, false_and, and_false,
            or_false]
          constructor
          · rintro (hlater | ⟨hvalue, -⟩)
            · exact .inr hlater
            · exact .inl hvalue
          · rintro (hvalue | hlater)
            · -- a later cell for this place is the same cell
              by_cases hlater : ∃ c ∈ cells, c.2 = (↑y, ↑x)
              · obtain ⟨c, hc, hsame⟩ := hlater
                have hcell := happart c (List.mem_cons_of_mem _ hc) cell List.mem_cons_self
                  (hsame.trans hplace.symm)
                exact .inl ⟨c, hc, hsame, by rw [hcell]; exact hvalue⟩
              · exact .inr ⟨hvalue, fun c hc hsame => hlater ⟨c, hc, hsame⟩⟩
            · exact .inl hlater
        · simp only [hplace, if_false, false_and, false_or, ne_eq, not_false_eq_true, true_and]

/-- All cells are copied to places about a centre: the offsets are turned as the places are. -/
theorem copyCells_offsets (n : ℕ) (target : ℕ → ℕ → ℤ × ℤ) (centerY centerX : ℤ)
    (turn : ℤ × ℤ → ℤ × ℤ)
    (hcells : ∀ c, c ∈ cells ↔
      c.1.1 < input.rows ∧ c.1.2 < input.cols ∧ c.2 = target c.1.1 c.1.2)
    (hinside : ∀ y < input.rows, ∀ x < input.cols,
      (0 ≤ (target y x).1 ∧ (target y x).1 < n) ∧ 0 ≤ (target y x).2 ∧ (target y x).2 < n)
    (hturn : ∀ y < input.rows, ∀ x < input.cols,
      ((target y x).2 - centerX, (target y x).1 - centerY) =
        turn (x - input.centerX, y - input.centerY))
    (hinj : Function.Injective turn) :
    ∃ area, (input.copyCells { rows := n, cols := n } cells).bind
        (fun output => some (output.setCenter centerY centerX)) = some area ∧
      area.rows = n ∧ area.cols = n ∧ area.centerX = centerX ∧ area.centerY = centerY ∧
      area.offsets = turn '' input.offsets := by
  obtain ⟨data, hcopy, hdata⟩ := @copyCells_spec input { rows := n, cols := n } cells
    (fun c hc => by
      obtain ⟨hy, hx, htarget⟩ := (hcells c).1 hc
      obtain ⟨⟨hy0, hyn⟩, hx0, hxn⟩ := hinside _ hy _ hx
      rw [htarget]
      exact ⟨hy0, hyn, hx0, hxn⟩)
    (fun c hc d hd hsame => by
      obtain ⟨hy, hx, htarget⟩ := (hcells c).1 hc
      obtain ⟨hy', hx', htarget'⟩ := (hcells d).1 hd
      have heq := hturn _ hy' _ hx'
      rw [← htarget', ← hsame, htarget, hturn _ hy _ hx] at heq
      have heq := hinj heq
      rw [Prod.ext_iff] at heq ⊢
      omega)
  refine ⟨_, by rw [hcopy]; rfl, rfl, rfl, rfl, rfl, ?_⟩
  ext p
  constructor
  · rintro ⟨y, hy, x, hx, hset, rfl⟩
    obtain ⟨c, hc, hplace, hvalue⟩ : ∃ c ∈ cells, c.2 = (↑y, ↑x) ∧
        input.data c.1.1 c.1.2 = true := ((hdata y x).1 hset).resolve_right fun h => by cases h.1
    obtain ⟨hcy, hcx, htarget⟩ := (hcells c).1 hc
    refine ⟨_, ⟨c.1.1, hcy, c.1.2, hcx, hvalue, rfl⟩, ?_⟩
    rw [← hturn _ hcy _ hcx, ← htarget, hplace]
    rfl
  · rintro ⟨-, ⟨y, hy, x, hx, hset, rfl⟩, rfl⟩
    obtain ⟨⟨hy0, hyn⟩, hx0, hxn⟩ := hinside y hy x hx
    have hplace : target y x = (↑(target y x).1.toNat, ↑(target y x).2.toNat) := by
      rw [Int.toNat_of_nonneg hy0, Int.toNat_of_nonneg hx0]
    refine ⟨(target y x).1.toNat, by change _ < n; omega, (target y x).2.toNat,
      by change _ < n; omega,
      (hdata _ _).2 (.inl ⟨((y, x), target y x), (hcells _).2 ⟨hy, hx, rfl⟩, hplace, hset⟩), ?_⟩
    rw [← hturn y hy x hx, Int.toNat_of_nonneg hy0, Int.toNat_of_nonneg hx0]
    rfl

end

/-! ### The copies -/

section

variable {input : MatrixArea} {n : ℕ}

/-- Mirrored, or flipped, and moved by a number of cells. -/
def mirroredBy (k : ℤ) (p : ℤ × ℤ) : ℤ × ℤ := (-p.1 + k, p.2)
def flippedBy (k : ℤ) (p : ℤ × ℤ) : ℤ × ℤ := (p.1, -p.2 + k)

/-- The mirrored cells lie beside their place by as much as there are more columns than rows. -/
theorem copyArea_mirror (hrows : input.rows ≤ n) (hcols : input.cols ≤ n) :
    ∃ area, copyArea input { rows := n, cols := n } .mirror = some area ∧
      area.rows = n ∧ area.cols = n ∧
      area.offsets = mirroredBy (input.cols - input.rows) '' input.offsets := by
  obtain ⟨area, harea, hr, hc, -, -, hoffsets⟩ := @copyCells_offsets input
    ((List.range input.rows).flatMap fun y =>
      (List.range input.cols).map fun rx => ((y, input.cols - 1 - rx), (y, rx)))
    n (fun y x => (y, input.cols - 1 - x)) input.centerY (input.rows - 1 - input.centerX)
    (mirroredBy (input.cols - input.rows))
    (fun c => by
      simp only [List.mem_flatMap, List.mem_map, List.mem_range]
      constructor
      · rintro ⟨y, hy, rx, hrx, rfl⟩
        refine ⟨hy, by dsimp only; omega, ?_⟩
        simp only [Prod.mk.injEq, true_and]
        omega
      · rintro ⟨hy, hx, htarget⟩
        refine ⟨c.1.1, hy, input.cols - 1 - c.1.2, by omega, ?_⟩
        ext
        · rfl
        · dsimp only
          omega
        · rw [htarget]
        · rw [htarget]
          dsimp only
          omega)
    (fun y hy x hx => by dsimp only; omega)
    (fun y hy x hx => by ext <;> dsimp only [mirroredBy]; omega)
    (fun p q h => by
      simp only [mirroredBy, Prod.mk.injEq] at h
      ext <;> omega)
  exact ⟨area, harea, hr, hc, hoffsets⟩

/-- The flipped cells lie below their place by as much as there are more rows than columns. -/
theorem copyArea_flip (hrows : input.rows ≤ n) (hcols : input.cols ≤ n) :
    ∃ area, copyArea input { rows := n, cols := n } .flip = some area ∧
      area.rows = n ∧ area.cols = n ∧
      area.offsets = flippedBy (input.rows - input.cols) '' input.offsets := by
  obtain ⟨area, harea, hr, hc, -, -, hoffsets⟩ := @copyCells_offsets input
    ((List.range input.cols).flatMap fun x =>
      (List.range input.rows).map fun ry => ((input.rows - 1 - ry, x), (ry, x)))
    n (fun y x => (input.rows - 1 - y, x)) (input.cols - 1 - input.centerY) input.centerX
    (flippedBy (input.rows - input.cols))
    (fun c => by
      simp only [List.mem_flatMap, List.mem_map, List.mem_range]
      constructor
      · rintro ⟨x, hx, ry, hry, rfl⟩
        refine ⟨by dsimp only; omega, hx, ?_⟩
        simp only [Prod.mk.injEq, and_true]
        omega
      · rintro ⟨hy, hx, htarget⟩
        refine ⟨c.1.2, hx, input.rows - 1 - c.1.1, by omega, ?_⟩
        ext
        · dsimp only
          omega
        · rfl
        · rw [htarget]
          dsimp only
          omega
        · rw [htarget])
    (fun y hy x hx => by dsimp only; omega)
    (fun y hy x hx => by ext <;> dsimp only [flippedBy]; omega)
    (fun p q h => by
      simp only [flippedBy, Prod.mk.injEq] at h
      ext <;> omega)
  exact ⟨area, harea, hr, hc, hoffsets⟩

def rotatedBy (cos sin : ℤ) (p : ℤ × ℤ) : ℤ × ℤ :=
  (p.1 * cos + p.2 * -sin, p.1 * sin + p.2 * cos)

/-- Rotated about the centre, which is inside, the cells stay within the larger matrix. -/
theorem copyArea_rotate {op : MatrixOperation} {cos sin : ℤ}
    (hop : op = .rotate90 ∧ cos = 0 ∧ sin = 1 ∨ op = .rotate180 ∧ cos = -1 ∧ sin = 0 ∨
      op = .rotate270 ∧ cos = 0 ∧ sin = -1)
    (hrows : input.rows ≤ n) (hcols : input.cols ≤ n)
    (hcenterX : 0 ≤ input.centerX ∧ input.centerX < input.cols)
    (hcenterY : 0 ≤ input.centerY ∧ input.centerY < input.rows) :
    ∃ area, copyArea input { rows := n * 2, cols := n * 2 } op = some area ∧
      area.offsets = rotatedBy cos sin '' input.offsets := by
  have hhalf : n * 2 / 2 = n := by omega
  obtain ⟨area, harea, -, -, -, -, hoffsets⟩ := @copyCells_offsets input
    ((List.range input.cols).flatMap fun (x : ℕ) => (List.range input.rows).map fun (y : ℕ) =>
      ((y, x), ((x - input.centerX) * sin + (y - input.centerY) * cos + ((n : ℤ) - 1),
        (x - input.centerX) * cos + (y - input.centerY) * -sin + ((n : ℤ) - 1))))
    (n * 2) (fun y x => ((x - input.centerX) * sin + (y - input.centerY) * cos + ((n : ℤ) - 1),
        (x - input.centerX) * cos + (y - input.centerY) * -sin + ((n : ℤ) - 1)))
    (n - 1) (n - 1) (rotatedBy cos sin)
    (fun c => by
      simp only [List.mem_flatMap, List.mem_map, List.mem_range]
      constructor
      · rintro ⟨x, hx, y, hy, rfl⟩
        exact ⟨hy, hx, rfl⟩
      · rintro ⟨hy, hx, htarget⟩
        exact ⟨c.1.2, hx, c.1.1, hy, by rw [← htarget]⟩)
    (fun y hy x hx => by
      rcases hop with ⟨-, rfl, rfl⟩ | ⟨-, rfl, rfl⟩ | ⟨-, rfl, rfl⟩ <;> dsimp only <;> omega)
    (fun y hy x hx => by
      rw [rotatedBy]
      ext <;> dsimp only <;> omega)
    (fun p q h => by
      simp only [rotatedBy, Prod.mk.injEq] at h
      rcases hop with ⟨-, rfl, rfl⟩ | ⟨-, rfl, rfl⟩ | ⟨-, rfl, rfl⟩ <;> ext <;> omega)
  refine ⟨area, ?_, hoffsets⟩
  rcases hop with ⟨rfl, rfl, rfl⟩ | ⟨rfl, rfl, rfl⟩ | ⟨rfl, rfl, rfl⟩
  · rw [← harea]
    simp only [copyArea, rotation, hhalf]
    rfl
  · rw [← harea]
    simp only [copyArea, rotation, hhalf]
    rfl
  · rw [← harea]
    simp only [copyArea, rotation, hhalf]
    rfl

end

/-! ### The area of a list -/

theorem div_mod_succ {cols : ℕ} (hcols : 0 < cols) (i : ℕ) :
    (cols = i % cols + 1 → (i + 1) % cols = 0 ∧ (i + 1) / cols = i / cols + 1) ∧
      (cols ≠ i % cols + 1 → (i + 1) % cols = i % cols + 1 ∧ (i + 1) / cols = i / cols) := by
  have hsplit := Nat.div_add_mod i cols
  have hlt := Nat.mod_lt i hcols
  constructor
  · intro h
    have heq : i + 1 = cols * (i / cols + 1) := by
      rw [Nat.mul_add, Nat.mul_one]
      omega
    constructor
    · rw [heq, Nat.mul_mod_right]
    · rw [heq, Nat.mul_div_cancel_left _ hcols]
  · intro h
    have heq : i + 1 = i % cols + 1 + cols * (i / cols) := by omega
    constructor
    · rw [heq, Nat.add_mul_mod_self_left, Nat.mod_eq_of_lt (by omega)]
    · rw [heq, Nat.add_mul_div_left _ _ hcols, Nat.div_eq_of_lt (by omega), Nat.zero_add]

theorem place_iff {cols x : ℕ} (hx : x < cols) (i : ℕ) {y : ℕ} :
    y = i / cols ∧ x = i % cols ↔ i + 0 = y * cols + x := by
  have hsplit := Nat.div_add_mod i cols
  rw [Nat.mul_comm y]
  constructor
  · rintro ⟨rfl, rfl⟩
    omega
  · intro h
    obtain rfl : i = x + cols * y := by omega
    rw [Nat.add_mul_div_left _ _ (by omega), Nat.add_mul_mod_self_left, Nat.mod_eq_of_lt hx,
      Nat.div_eq_of_lt hx, Nat.zero_add]
    exact ⟨rfl, rfl⟩

theorem setCell_spec {area : MatrixArea} {y x : ℕ} (hy : y < area.rows) (hx : x < area.cols)
    (value : ℕ) :
    ∃ data, area.setCell y x value = some { area with data } ∧
      ∀ y' x', data y' x' = true ↔
        area.data y' x' = true ∨ (value = 1 ∨ value = 3) ∧ y' = y ∧ x' = x := by
  by_cases hset : value = 1 ∨ value = 3
  · have hinside : area.Inside (↑y, ↑x) := ⟨by simp, by simpa using hy, by simp, by simpa using hx⟩
    obtain ⟨data, hwrite, hdata⟩ := setValue_inside hinside true
    refine ⟨data, (if_pos hset).trans hwrite, fun y' x' => ?_⟩
    rw [hdata]
    simp only [Prod.mk.injEq, Nat.cast_inj, hset, true_and, @eq_comm ℕ y', @eq_comm ℕ x']
    by_cases hplace : y = y' ∧ x = x'
    · simp [hplace]
    · simp [hplace]
  · exact ⟨area.data, if_neg hset, fun y' x' => by simp [hset]⟩

/-- The loop from a place of the list on: the cells of the places marked are set, and the centre is
the last that is marked. -/
theorem fillArea_spec {rows cols : ℕ} (hcols : 0 < cols) (list : List ℕ) (area : MatrixArea)
    (i : ℕ) (hrows' : area.rows = rows) (hcols' : area.cols = cols)
    (hend : i + list.length = rows * cols) :
    ∃ area', fillArea cols area (i % cols) (i / cols) list = some area' ∧
      area'.rows = rows ∧ area'.cols = cols ∧
      (∀ y x, x < cols → (area'.data y x = true ↔ area.data y x = true ∨
        ∃ j, (list[j]? = some 1 ∨ list[j]? = some 3) ∧ i + j = y * cols + x)) ∧
      (∀ c, IsCentre list c → area'.centerX = ((i + c) % cols : ℕ) ∧
        area'.centerY = ((i + c) / cols : ℕ)) ∧
      ((∀ c : ℕ, ¬ (list[c]? = some 2 ∨ list[c]? = some 3)) →
        area'.centerX = area.centerX ∧ area'.centerY = area.centerY) := by
  induction list generalizing area i with
  | nil =>
      refine ⟨area, rfl, hrows', hcols', fun y x _ => by simp, fun c hc => ?_,
        fun _ => ⟨rfl, rfl⟩⟩
      exact absurd hc.1 (by simp)
  | cons value list ih =>
      rw [List.length_cons] at hend
      have hy : i / cols < area.rows := by
        rw [hrows']
        exact Nat.div_lt_of_lt_mul (by rw [Nat.mul_comm]; omega)
      have hx : i % cols < area.cols := by
        rw [hcols']
        exact Nat.mod_lt i hcols
      obtain ⟨data, hmark, hdata⟩ := setCell_spec hy hx value
      let area₂ : MatrixArea :=
        if value = 2 ∨ value = 3 then
          ({ area with data } : MatrixArea).setCenter ↑(i / cols) ↑(i % cols)
        else { area with data }
      have hrows₂ : area₂.rows = rows := by
        simp only [area₂]
        split <;> exact hrows'
      have hcols₂ : area₂.cols = cols := by
        simp only [area₂]
        split <;> exact hcols'
      have hdata₂ : area₂.data = data := by
        simp only [area₂]
        split <;> rfl
      obtain ⟨area', hfill, hr, hc, hcells, hcentre, hnone⟩ :=
        ih area₂ (i + 1) hrows₂ hcols₂ (by omega)
      have hnext : fillArea cols area (i % cols) (i / cols) (value :: list) =
          fillArea cols area₂ ((i + 1) % cols) ((i + 1) / cols) list := by
        obtain ⟨hlast, hinner⟩ := div_mod_succ hcols i
        rw [fillArea, hmark]
        change (if cols = i % cols + 1 then fillArea cols area₂ 0 (i / cols + 1) list
          else fillArea cols area₂ (i % cols + 1) (i / cols) list) = _
        by_cases h : cols = i % cols + 1
        · rw [if_pos h, (hlast h).1, (hlast h).2]
        · rw [if_neg h, (hinner h).1, (hinner h).2]
      refine ⟨area', hnext.trans hfill, hr, hc, fun y x hx' => ?_, fun c hc' => ?_,
        fun hno => ?_⟩
      · rw [hcells y x hx', hdata₂, hdata, or_assoc]
        refine or_congr_right ?_
        constructor
        · rintro (⟨hvalue, hplace⟩ | ⟨j, hj, hplace⟩)
          · exact ⟨0, by simpa using hvalue, (place_iff hx' i).1 hplace⟩
          · exact ⟨j + 1, by simpa using hj, by omega⟩
        · rintro ⟨j, hj, hplace⟩
          cases j with
          | zero => exact .inl ⟨by simpa using hj, (place_iff hx' i).2 hplace⟩
          | succ j => exact .inr ⟨j, by simpa using hj, by omega⟩
      · obtain ⟨hmarked, hlast⟩ := hc'
        cases c with
        | zero =>
            have hvalue : value = 2 ∨ value = 3 := by simpa using hmarked
            obtain ⟨hx₂, hy₂⟩ := hnone fun j hj => by
              have := hlast (j + 1) (by simpa using hj)
              omega
            rw [hx₂, hy₂]
            simp only [area₂, if_pos hvalue]
            exact ⟨rfl, rfl⟩
        | succ c =>
            have hcentre' : IsCentre list c := ⟨by simpa using hmarked, fun j hj => by
              have := hlast (j + 1) (by simpa using hj)
              omega⟩
            rw [(hcentre c hcentre').1, (hcentre c hcentre').2, Nat.add_assoc, Nat.add_comm 1 c]
            exact ⟨rfl, rfl⟩
      · have hvalue : ¬ (value = 2 ∨ value = 3) := by simpa using hno 0
        obtain ⟨hx₂, hy₂⟩ := hnone fun j => by simpa using hno (j + 1)
        rw [hx₂, hy₂]
        simp only [area₂, if_neg hvalue, and_self]

theorem createArea_spec {list : List ℕ} {rows cols centre : ℕ}
    (hlength : list.length = rows * cols) (hcentre : IsCentre list centre) :
    ∃ area, createArea list rows = some area ∧ area.rows = rows ∧ area.cols = cols ∧
      (0 ≤ area.centerX ∧ area.centerX < cols) ∧ (0 ≤ area.centerY ∧ area.centerY < rows) ∧
      area.offsets = baseSet list cols centre := by
  have hinside : centre < rows * cols := by
    rw [← hlength]
    rcases hcentre.1 with h | h <;> exact (List.getElem?_eq_some_iff.1 h).1
  have hcols : 0 < cols := Nat.pos_of_mul_pos_left (Nat.zero_lt_of_lt hinside)
  have hrows : 0 < rows := Nat.pos_of_mul_pos_right (Nat.zero_lt_of_lt hinside)
  obtain ⟨area, hfill, hr, hc, hcells, hplace, -⟩ := fillArea_spec hcols list
    { rows := rows, cols := cols } 0 rfl rfl ((Nat.zero_add _).trans hlength)
  obtain ⟨hx, hy⟩ := hplace centre hcentre
  rw [Nat.zero_mod, Nat.zero_div] at hfill
  rw [Nat.zero_add] at hx hy
  have hxlt := Nat.mod_lt centre hcols
  have hylt : centre / cols < rows := Nat.div_lt_of_lt_mul (by rw [Nat.mul_comm]; exact hinside)
  refine ⟨area, ?_, hr, hc, ?_, ?_, ?_⟩
  · rw [createArea, if_neg (by omega), hlength, Nat.mul_div_cancel_left _ hrows]
    exact hfill
  · rw [hx]
    omega
  · rw [hy]
    exact ⟨Int.natCast_nonneg _, Int.ofNat_lt.2 hylt⟩
  · ext p
    rw [MatrixArea.offsets, baseSet, hx, hy, hr, hc]
    constructor
    · rintro ⟨y, -, x, hx', hset, rfl⟩
      obtain ⟨j, hj, hplace⟩ := ((hcells y x hx').1 hset).resolve_left Bool.false_ne_true
      rw [Nat.zero_add] at hplace
      obtain ⟨hyj, hxj⟩ := (place_iff hx' j).2 hplace
      exact ⟨j, hj, by rw [← hyj, ← hxj]⟩
    · rintro ⟨j, hj, rfl⟩
      have hjlt : j < rows * cols := by
        rw [← hlength]
        rcases hj with h | h <;> exact (List.getElem?_eq_some_iff.1 h).1
      refine ⟨j / cols, Nat.div_lt_of_lt_mul (by rw [Nat.mul_comm]; exact hjlt), j % cols,
        Nat.mod_lt j hcols, (hcells _ _ (Nat.mod_lt j hcols)).2 (.inr ⟨j, hj, ?_⟩), rfl⟩
      rw [Nat.zero_add]
      exact (place_iff (Nat.mod_lt j hcols) j).1 ⟨rfl, rfl⟩

/-! ### The directions -/

/-- What is stored of a list for each direction: all is turned as it should be but for the distances
by which what is mirrored and what is flipped lies beside its place. -/
theorem areas_stored {list : List ℕ} {rows cols centre : ℕ}
    (hlength : list.length = rows * cols) (hcentre : IsCentre list centre) (a : AreaCombat) :
    (∃ b, a.setupArea list rows = some b ∧
      b.Stores .north (baseSet list cols centre) ∧
      b.Stores .east (rotated90 '' baseSet list cols centre) ∧
      b.Stores .south (rotated180 '' baseSet list cols centre) ∧
      b.Stores .west (rotated270 '' baseSet list cols centre)) ∧
    ∃ b, a.setupExtArea list rows = some b ∧
      b.Stores .northwest (baseSet list cols centre) ∧
      b.Stores .northeast (mirroredBy (cols - rows) '' baseSet list cols centre) ∧
      b.Stores .southwest (flippedBy (rows - cols) '' baseSet list cols centre) ∧
      b.Stores .southeast (mirrored '' (flippedBy (rows - cols) '' baseSet list cols centre)) := by
  obtain ⟨area, hcreate, hr, hc, hx, hy, hbase⟩ := createArea_spec hlength hcentre
  have hcols : area.cols ≤ max area.cols area.rows := Nat.le_max_left _ _
  have hrows : area.rows ≤ max area.cols area.rows := Nat.le_max_right _ _
  rw [← hr] at hy
  rw [← hc] at hx
  constructor
  · obtain ⟨south, hsouth, hsouthSet⟩ :=
      copyArea_rotate (.inr (.inl ⟨rfl, rfl, rfl⟩)) hrows hcols hx hy
    obtain ⟨east, heast, heastSet⟩ := copyArea_rotate (.inl ⟨rfl, rfl, rfl⟩) hrows hcols hx hy
    obtain ⟨west, hwest, hwestSet⟩ :=
      copyArea_rotate (.inr (.inr ⟨rfl, rfl, rfl⟩)) hrows hcols hx hy
    refine ⟨_, by simp only [AreaCombat.setupArea, hcreate, hsouth, heast, hwest,
      Option.bind_eq_bind, Option.bind_some]; rfl, ⟨area, rfl, hbase⟩, ⟨east, rfl, ?_⟩,
      ⟨south, rfl, ?_⟩, ⟨west, rfl, ?_⟩⟩
    · rw [heastSet, hbase]
      exact Set.image_congr' fun p => by
        ext <;> simp only [rotatedBy, rotated90] <;> omega
    · rw [hsouthSet, hbase]
      exact Set.image_congr' fun p => by
        ext <;> simp only [rotatedBy, rotated180] <;> omega
    · rw [hwestSet, hbase]
      exact Set.image_congr' fun p => by
        ext <;> simp only [rotatedBy, rotated270] <;> omega
  · have hne : list.isEmpty = false := by
      rw [List.isEmpty_eq_false_iff]
      rintro rfl
      exact absurd hcentre.1 (by simp)
    have hrows' : area.rows ≤ max area.cols area.rows * 2 := by omega
    have hcols' : area.cols ≤ max area.cols area.rows * 2 := by omega
    obtain ⟨ne, hmirror, -, -, hneSet⟩ := copyArea_mirror hrows' hcols'
    obtain ⟨sw, hflip, hswRows, hswCols, hswSet⟩ := copyArea_flip hrows' hcols'
    obtain ⟨se, hboth, -, -, hseSet⟩ := copyArea_mirror (n := max area.cols area.rows * 2)
      hswRows.le hswCols.le
    refine ⟨_, by simp only [AreaCombat.setupExtArea, hne, hcreate, hmirror, hflip, hboth,
      Option.bind_eq_bind, Option.bind_some]; rfl, ⟨area, rfl, hbase⟩, ⟨ne, rfl, ?_⟩,
      ⟨sw, rfl, ?_⟩, ⟨se, rfl, ?_⟩⟩
    · rw [hneSet, hbase, hr, hc]
    · rw [hswSet, hbase, hr, hc]
    · rw [hseSet, hswSet, hbase, hr, hc, hswRows, hswCols]
      exact Set.image_congr' fun p => by
        ext <;> simp only [mirroredBy, mirrored]
        omega

/-- What is moved by a number of cells to itself is empty, if it has bounds. -/
theorem eq_empty_of_moved {s : Set (ℤ × ℤ)} (low high k : ℤ) (hk : k ≠ 0)
    (hbounds : ∀ p ∈ s, low ≤ p.1 ∧ p.1 ≤ high) (hmoved : ∀ p ∈ s, (p.1 + k, p.2) ∈ s) :
    s = ∅ := by
  by_contra hne
  obtain ⟨p, hp⟩ := Set.nonempty_iff_ne_empty.2 hne
  have hall (n : ℕ) : (p.1 + n * k, p.2) ∈ s := by
    induction n with
    | zero => simpa using hp
    | succ n ih =>
        have hnext := hmoved _ ih
        rwa [add_assoc, ← add_one_mul, ← Nat.cast_succ] at hnext
  obtain ⟨hlow, hhigh⟩ := hbounds p hp
  obtain ⟨n, hn⟩ := Int.eq_ofNat_of_zero_le (show 0 ≤ high - low + 1 by omega)
  have hfar := hbounds _ (hall n)
  dsimp only at hfar
  rcases lt_or_gt_of_ne hk with hneg | hpos
  · have hmul : (n : ℤ) * k ≤ n * -1 := Int.mul_le_mul_of_nonneg_left (by omega) (by omega)
    omega
  · have hmul : (n : ℤ) * 1 ≤ n * k := Int.mul_le_mul_of_nonneg_left (by omega) (by omega)
    omega

theorem AreaCombat.Stores.unique {a : AreaCombat} {direction : Direction} {s t : Set (ℤ × ℤ)}
    (hs : a.Stores direction s) (ht : a.Stores direction t) : s = t := by
  obtain ⟨area, harea, rfl⟩ := hs
  obtain ⟨area', harea', rfl⟩ := ht
  rw [Option.some.inj (harea.symm.trans harea')]

theorem baseSet_eq_empty_iff {list : List ℕ} {cols centre : ℕ} :
    baseSet list cols centre = ∅ ↔ ∀ value ∈ list, value ≠ 1 ∧ value ≠ 3 := by
  rw [Set.eq_empty_iff_forall_notMem]
  constructor
  · intro hempty value hvalue
    obtain ⟨i, hi⟩ := List.getElem?_of_mem hvalue
    constructor
    · rintro rfl
      exact hempty _ ⟨i, .inl hi, rfl⟩
    · rintro rfl
      exact hempty _ ⟨i, .inr hi, rfl⟩
  · rintro hnone p ⟨i, hi | hi, rfl⟩
    · exact (hnone 1 (List.mem_of_getElem? hi)).1 rfl
    · exact (hnone 3 (List.mem_of_getElem? hi)).2 rfl

theorem mirroredBy_zero : mirroredBy 0 = mirrored := by
  funext p
  simp [mirroredBy, mirrored]

theorem flippedBy_zero : flippedBy 0 = flipped := by
  funext p
  simp [flippedBy, flipped]

/-- All areas are turned as they should be just when the area is square or has no cell. -/
theorem turned_iff (list : List ℕ) (rows cols centre : ℕ) (hlength : list.length = rows * cols)
    (hcentre : IsCentre list centre) :
    Turned list rows cols centre ↔ rows = cols ∨ ∀ value ∈ list, value ≠ 1 ∧ value ≠ 3 := by
  constructor
  · intro hturned
    refine or_iff_not_imp_left.2 fun hne => ?_
    rw [← baseSet_eq_empty_iff]
    obtain ⟨-, b, hsetup, -, hmirrored, -, -⟩ := hturned {}
    obtain ⟨-, b', hsetup', -, hstored, -, -⟩ := areas_stored hlength hcentre {}
    rw [← Option.some.inj (hsetup.symm.trans hsetup')] at hstored
    have hsame := hmirrored.unique hstored
    have hcols : 0 < cols := by
      rcases Nat.eq_zero_or_pos cols with rfl | h
      · rw [Nat.mul_zero, List.length_eq_zero_iff] at hlength
        exact absurd hcentre.1 (by simp [hlength])
      · exact h
    have hempty : mirrored '' baseSet list cols centre = ∅ := by
      refine eq_empty_of_moved (-cols) cols (cols - rows) (by omega) ?_ ?_
      · rintro - ⟨-, ⟨i, -, rfl⟩, rfl⟩
        have := Nat.mod_lt i hcols
        have := Nat.mod_lt centre hcols
        dsimp only [mirrored]
        omega
      · rintro - ⟨p, hp, rfl⟩
        rw [hsame]
        exact ⟨p, hp, rfl⟩
    exact Set.image_eq_empty.1 hempty
  · intro h a
    obtain ⟨hmain, b, hsetup, hnw, hne, hsw, hse⟩ := areas_stored hlength hcentre a
    rcases h with rfl | hnone
    · simp only [sub_self, mirroredBy_zero, flippedBy_zero] at hne hsw hse
      exact ⟨hmain, b, hsetup, hnw, hne, hsw, hse⟩
    · rw [baseSet_eq_empty_iff.2 hnone] at hmain hnw hne hsw hse ⊢
      simp only [Set.image_empty] at hmain hne hsw hse ⊢
      exact ⟨hmain, b, hsetup, hnw, hne, hsw, hse⟩

namespace Sample

/-- The four cells about the centre of a square of nine, and the centre. -/
theorem cross_turned : Turned [0, 1, 0, 1, 3, 1, 0, 1, 0] 3 3 4 :=
  (turned_iff [0, 1, 0, 1, 3, 1, 0, 1, 0] 3 3 4 rfl ⟨.inr rfl, fun i hi => by
    by_contra hlate
    have hlt : i < 9 := by
      rcases hi with h | h <;> exact (List.getElem?_eq_some_iff.1 h).1
    interval_cases i <;> simp at hi⟩).2 (.inl rfl)

/-- A row of three cells with the centre at its end. -/
theorem row_isCentre : IsCentre [1, 1, 3] 2 := ⟨.inr rfl, fun i hi => by
  have hlt : i < 3 := by
    rcases hi with h | h <;> exact (List.getElem?_eq_some_iff.1 h).1
  omega⟩

theorem row_length : [1, 1, 3].length = 1 * 3 := rfl

/-- Mirrored, the row begins two cells from the centre. -/
theorem row_moved : ¬ Turned [1, 1, 3] 1 3 2 := by
  intro hturned
  obtain ⟨-, b, hsetup, -, hmirrored, -, -⟩ := hturned {}
  obtain ⟨-, b', hsetup', -, hstored, -, -⟩ := areas_stored row_length row_isCentre {}
  rw [← Option.some.inj (hsetup.symm.trans hsetup')] at hstored
  have hcentre : ((0, 0) : ℤ × ℤ) ∈ mirrored '' baseSet [1, 1, 3] 3 2 :=
    ⟨(0, 0), ⟨2, .inr rfl, rfl⟩, rfl⟩
  rw [hmirrored.unique hstored] at hcentre
  obtain ⟨-, ⟨i, -, rfl⟩, hplace⟩ := hcentre
  simp only [mirroredBy, Prod.mk.injEq] at hplace
  omega

end Sample

end TibServer.CombatArea
