import TibServer.DigitalLine
import TibServer.WalkCache

/-!
The line of sight (`Map::checkSightLine` and `Map::isSightClear` of `map.cpp`): a walk from one
position to another that takes, of the three steps towards the destination, the ones of smaller
cross product with the line, in signed arithmetic of 32 bits.
-/

namespace TibServer.SightLine

open WalkCache (getOffsetX getOffsetY uint16)

/-- Signed arithmetic of 32 bits. -/
def int32 (n : Int) : Int := n.bmod 4294967296

/-- What the line asks of the map, with `Tile::hasProperty` of `CONST_PROP_BLOCKPROJECTILE`. -/
structure SightMap (Tile : Type) where
  getTile : Position → Option Tile
  blocksProjectile : Tile → Bool
  getThingCount : Tile → Nat

/-- The variables of `Map::checkSightLine` that the loop does not change. -/
structure Ray where
  destination : Position
  mx : Int
  my : Int
  A : Int
  B : Int
  C : Int

/-- The direction from one coordinate to another. -/
def towards (a b : Nat) : Int := if a < b then 1 else if a = b then 0 else -1

def ray (start destination : Position) : Ray :=
  let A := getOffsetY destination start
  let B := getOffsetX start destination
  { destination, A, B
    mx := towards start.x destination.x
    my := towards start.y destination.y
    C := int32 (-int32 (int32 (A * destination.x) + int32 (B * destination.y))) }

namespace Ray

variable (r : Ray)

/-- `std::abs(A * x + B * y + C)` -/
def move (x y : Int) : Int := int32 |int32 (int32 (int32 (r.A * x) + int32 (r.B * y)) + r.C)|

/-- The two branches of one turn of the loop. -/
def step (start : Position) : Position :=
  let move_hor := r.move (start.x + r.mx) start.y
  let move_ver := r.move start.x (start.y + r.my)
  let move_cross := r.move (start.x + r.mx) (start.y + r.my)
  let y :=
    if start.y ≠ r.destination.y ∧
        (start.x = r.destination.x ∨ move_ver < move_hor ∨ move_cross < move_hor) then
      uint16 (start.y + r.my)
    else start.y
  let x :=
    if start.x ≠ r.destination.x ∧
        (y = r.destination.y ∨ move_hor < move_ver ∨ move_cross < move_ver) then
      uint16 (start.x + r.mx)
    else start.x
  { start with x, y }

end Ray

namespace SightMap

variable {Tile : Type} (m : SightMap Tile)

/-- `tile && tile->hasProperty(CONST_PROP_BLOCKPROJECTILE)` -/
def blocked (pos : Position) : Bool := (m.getTile pos).any m.blocksProjectile

/-- The jump between the floors, with the number of floors left. -/
def checkFloors : Nat → Position → Bool
  | 0, _ => true
  | n + 1, start =>
    if (m.getTile start).any fun tile => 0 < m.getThingCount tile then false
    else checkFloors n { start with z := start.z + 1 }

/-- The loop, with a bound on its turns: without result where they do not suffice. -/
def checkRay (r : Ray) : Nat → Position → Option Bool
  | fuel, start =>
    if start.x = r.destination.x ∧ start.y = r.destination.y then
      some (m.checkFloors (r.destination.z - start.z) start)
    else
      match fuel with
      | 0 => none
      | fuel + 1 =>
        let start := r.step start
        if m.blocked start then some false else checkRay r fuel start

def checkSightLine (fuel : Nat) (fromPos toPos : Position) : Option Bool :=
  if fromPos = toPos then some true
  else
    let start := if toPos.z < fromPos.z then toPos else fromPos
    let destination := if toPos.z < fromPos.z then fromPos else toPos
    m.checkRay (ray start destination) fuel start

/-- Two converging rays. -/
def isSightClear (fuel : Nat) (fromPos toPos : Position) (floorCheck : Bool) : Option Bool :=
  if floorCheck ∧ fromPos.z ≠ toPos.z then some false
  else do
    let clear ← m.checkSightLine fuel fromPos toPos
    if clear then pure true else m.checkSightLine fuel toPos fromPos

end SightMap

/-! ### What the walk is to be -/

/-- A position with coordinates of the types that it has. -/
def Machine (pos : Position) : Prop := pos.x < 65536 ∧ pos.y < 65536

instance instDecidableMachine (pos : Position) : Decidable (Machine pos) :=
  inferInstanceAs (Decidable (_ ∧ _))

/-- The ideal line has the points `fromPos + t * (toPos - fromPos)`; the distances along the axes
are summed up. -/
def offLine (fromPos toPos pos : Position) (t : ℚ) : ℚ :=
  |pos.x - (fromPos.x + t * (toPos.x - fromPos.x))| +
    |pos.y - (fromPos.y + t * (toPos.y - fromPos.y))|

/-- Of the sides of the box with these corners, the longer one. -/
def steps (fromPos toPos : Position) : Nat :=
  max (getOffsetX toPos fromPos).natAbs (getOffsetY toPos fromPos).natAbs

/-- The walk `walk` goes straight, and in as few steps as there can be, to the destination. -/
structure Straight (fromPos toPos : Position) (walk : Nat → Position) : Prop where
  starts : walk 0 = fromPos
  arrives : walk (steps fromPos toPos) = toPos
  under_way : ∀ k < steps fromPos toPos, walk k ≠ toPos
  neighbours : ∀ k < steps fromPos toPos,
    (getOffsetX (walk (k + 1)) (walk k)).natAbs ≤ 1 ∧
      (getOffsetY (walk (k + 1)) (walk k)).natAbs ≤ 1 ∧ walk (k + 1) ≠ walk k
  inside : ∀ k ≤ steps fromPos toPos,
    (min fromPos.x toPos.x ≤ (walk k).x ∧ (walk k).x ≤ max fromPos.x toPos.x) ∧
      (min fromPos.y toPos.y ≤ (walk k).y ∧ (walk k).y ≤ max fromPos.y toPos.y) ∧
      (walk k).z = fromPos.z
  dominant : ∀ k ≤ steps fromPos toPos,
    ((getOffsetY toPos fromPos).natAbs ≤ (getOffsetX toPos fromPos).natAbs →
        (getOffsetX (walk k) fromPos).natAbs = k) ∧
      ((getOffsetX toPos fromPos).natAbs ≤ (getOffsetY toPos fromPos).natAbs →
        (getOffsetY (walk k) fromPos).natAbs = k)
  near : ∀ k ≤ steps fromPos toPos, ∃ t : ℚ, 0 ≤ t ∧ t ≤ 1 ∧
    offLine fromPos toPos (walk k) t ≤ 1 / 2

/-! ### Along one axis -/

/-- The coordinate `x` is `u` away from `p`, on the way to `q`. -/
def Along (p q : Nat) (u x : ℤ) : Prop := (p ≤ q → x = p + u) ∧ (q ≤ p → x = p - u)

section Axis

variable {p q : Nat} {u x : ℤ}

theorem Along.zero : Along p q 0 p := ⟨fun _ => by omega, fun _ => by omega⟩

theorem Along.towards (h : Along p q u x) (hne : p ≠ q) :
    Along p q (u + 1) (x + towards p q) := by
  obtain ⟨hup, hdown⟩ := h
  unfold SightLine.towards
  refine ⟨fun hle => ?_, fun hle => ?_⟩
  · rw [if_pos (by omega)]
    omega
  · rw [if_neg (by omega), if_neg (by omega)]
    omega

theorem Along.eq_iff {x : Nat} (h : Along p q u x) (hu : 0 ≤ u ∧ u ≤ ((q : ℤ) - p).natAbs) :
    x = q ↔ u = ((q : ℤ) - p).natAbs := by
  obtain ⟨hup, hdown⟩ := h
  omega

/-- A coordinate that stays between two of 16 bits does not wrap. -/
theorem Along.moved (h : Along p q u x) (hu : 0 ≤ u ∧ u < ((q : ℤ) - p).natAbs)
    (hp : p < 65536) (hq : q < 65536) :
    Along p q (u + 1) (uint16 (x + SightLine.towards p q)) := by
  have hmoved := h.towards (by omega)
  have hkept : (uint16 (x + SightLine.towards p q) : ℤ) = x + SightLine.towards p q := by
    obtain ⟨hup, hdown⟩ := hmoved
    unfold uint16
    omega
  rwa [hkept]

theorem Along.between {x : Nat} (h : Along p q u x)
    (hu : 0 ≤ u ∧ u ≤ ((q : ℤ) - p).natAbs) : min p q ≤ x ∧ x ≤ max p q := by
  obtain ⟨hup, hdown⟩ := h
  omega

theorem Along.next {u' x' : ℤ} (h : Along p q u x) (h' : Along p q u' x')
    (hu : u ≤ u' ∧ u' ≤ u + 1) : (x' - x).natAbs ≤ 1 := by
  obtain ⟨hup, hdown⟩ := h
  obtain ⟨hup', hdown'⟩ := h'
  omega

theorem Along.natAbs (h : Along p q u x) (hu : 0 ≤ u) : ((x - p).natAbs : ℤ) = u := by
  obtain ⟨hup, hdown⟩ := h
  omega

theorem Along.distance {x : Nat} {w : ℤ} (h : Along p q u x) (hw : w = ((q : ℤ) - p).natAbs)
    (t : ℚ) : |(x : ℚ) - (p + t * (q - p))| = |(u : ℚ) - w * t| := by
  obtain ⟨hup, hdown⟩ := h
  rcases le_total p q with hle | hle
  · have hw' : (w : ℚ) = q - p := by exact_mod_cast (show w = q - p by omega)
    have hx : (x : ℚ) = p + u := by exact_mod_cast hup hle
    rw [hw', hx]
    congr 1
    ring
  · have hw' : (w : ℚ) = p - q := by exact_mod_cast (show w = p - q by omega)
    have hx : (x : ℚ) = p - u := by exact_mod_cast hdown hle
    rw [hw', hx, ← abs_neg]
    congr 1
    ring

end Axis

/-! ### The cross products -/

section Moves

open DigitalLine

variable {fromPos toPos : Position} {u v x y : ℤ}

/-- The sides of the box. -/
def width (fromPos toPos : Position) : ℤ := (getOffsetX toPos fromPos).natAbs
def height (fromPos toPos : Position) : ℤ := (getOffsetY toPos fromPos).natAbs

theorem cross_eq (hx : Along fromPos.x toPos.x u x) (hy : Along fromPos.y toPos.y v y) :
    |getOffsetY toPos fromPos * (x - toPos.x) + getOffsetX fromPos toPos * (y - toPos.y)| =
      |error (height fromPos toPos) (width fromPos toPos) u v| := by
  obtain ⟨hxup, hxdown⟩ := hx
  obtain ⟨hyup, hydown⟩ := hy
  unfold error height width getOffsetX getOffsetY
  rcases le_total fromPos.x toPos.x with hright | hleft
  · rw [hxup hright, show (((toPos.x : ℤ) - fromPos.x).natAbs : ℤ) = toPos.x - fromPos.x by omega]
    rcases le_total fromPos.y toPos.y with hdown | hup
    · rw [hyup hdown,
        show (((toPos.y : ℤ) - fromPos.y).natAbs : ℤ) = toPos.y - fromPos.y by omega]
      congr 1
      ring
    · rw [hydown hup, show (((toPos.y : ℤ) - fromPos.y).natAbs : ℤ) = fromPos.y - toPos.y by omega,
        ← abs_neg]
      congr 1
      ring
  · rw [hxdown hleft, show (((toPos.x : ℤ) - fromPos.x).natAbs : ℤ) = fromPos.x - toPos.x by omega]
    rcases le_total fromPos.y toPos.y with hdown | hup
    · rw [hyup hdown,
        show (((toPos.y : ℤ) - fromPos.y).natAbs : ℤ) = toPos.y - fromPos.y by omega, ← abs_neg]
      congr 1
      ring
    · rw [hydown hup, show (((toPos.y : ℤ) - fromPos.y).natAbs : ℤ) = fromPos.y - toPos.y by omega]
      congr 1
      ring

theorem int32_of_small {n : ℤ} (h : |n| < 2147483648) : int32 n = n := by
  rw [abs_lt] at h
  exact Int.bmod_eq_of_le (by omega) (by omega)

/-- The products wrap, but the sum does not. -/
theorem move_eq (hx : Along fromPos.x toPos.x u x) (hy : Along fromPos.y toPos.y v y)
    (hsmall : |error (height fromPos toPos) (width fromPos toPos) u v| < 2147483648) :
    (ray fromPos toPos).move x y =
      |error (height fromPos toPos) (width fromPos toPos) u v| := by
  have hcross := cross_eq hx hy
  have hsum : int32 (int32 (int32 ((ray fromPos toPos).A * x) +
      int32 ((ray fromPos toPos).B * y)) + (ray fromPos toPos).C) =
      getOffsetY toPos fromPos * (x - toPos.x) + getOffsetX fromPos toPos * (y - toPos.y) := by
    refine Eq.trans ?_ (int32_of_small (by rwa [hcross]))
    unfold ray int32
    dsimp only
    simp only [Int.bmod_add_bmod, Int.add_bmod_bmod, Int.bmod_neg_bmod]
    congr 1
    ring
  rw [Ray.move, hsum, hcross, int32_of_small (by rwa [abs_abs])]

/-- What a turn of the loop does to the two coordinates, with the comparisons as they are. -/
theorem step_along {pos : Position} (hfrom : Machine fromPos) (hto : Machine toPos)
    (hx : Along fromPos.x toPos.x u pos.x) (hy : Along fromPos.y toPos.y v pos.y)
    (hu : 0 ≤ u ∧ u ≤ width fromPos toPos) (hv : 0 ≤ v ∧ v ≤ height fromPos toPos) :
    let r := ray fromPos toPos
    let move_hor := r.move (pos.x + r.mx) pos.y
    let move_ver := r.move pos.x (pos.y + r.my)
    let move_cross := r.move (pos.x + r.mx) (pos.y + r.my)
    let v' := if v ≠ height fromPos toPos ∧ (u = width fromPos toPos ∨ move_ver < move_hor ∨
      move_cross < move_hor) then v + 1 else v
    let u' := if u ≠ width fromPos toPos ∧ (v' = height fromPos toPos ∨ move_hor < move_ver ∨
      move_cross < move_ver) then u + 1 else u
    Along fromPos.x toPos.x u' (r.step pos).x ∧ Along fromPos.y toPos.y v' (r.step pos).y ∧
      (r.step pos).z = pos.z := by
  intro r move_hor move_ver move_cross v' u'
  have hxends : pos.x = toPos.x ↔ u = width fromPos toPos := hx.eq_iff hu
  have hyends : pos.y = toPos.y ↔ v = height fromPos toPos := hy.eq_iff hv
  have hy' : Along fromPos.y toPos.y v' (r.step pos).y := by
    have hstep : (r.step pos).y = if pos.y ≠ toPos.y ∧ (pos.x = toPos.x ∨ move_ver < move_hor ∨
        move_cross < move_hor) then uint16 (pos.y + r.my) else pos.y := rfl
    simp only [hstep, v', ne_eq, hxends, hyends]
    split_ifs with hturn
    · exact hy.moved ⟨hv.1, lt_of_le_of_ne hv.2 hturn.1⟩ hfrom.2 hto.2
    · exact hy
  have hv' : 0 ≤ v' ∧ v' ≤ height fromPos toPos := by
    simp only [v']
    split_ifs with hturn
    · omega
    · exact hv
  have hyends' : (r.step pos).y = toPos.y ↔ v' = height fromPos toPos := hy'.eq_iff hv'
  have hstep : (r.step pos).x = if pos.x ≠ toPos.x ∧ ((r.step pos).y = toPos.y ∨
      move_hor < move_ver ∨ move_cross < move_ver) then uint16 (pos.x + r.mx) else pos.x := rfl
  refine ⟨?_, hy', rfl⟩
  simp only [hstep, u', ne_eq, hxends, hyends']
  split_ifs with hturn
  · exact hx.moved ⟨hu.1, lt_of_le_of_ne hu.2 hturn.1⟩ hfrom.1 hto.1
  · exact hx

theorem steps_eq :
    (steps fromPos toPos : ℤ) = max (width fromPos toPos) (height fromPos toPos) := by
  unfold steps width height
  omega

theorem width_lt (hfrom : Machine fromPos) (hto : Machine toPos) :
    width fromPos toPos < 65536 := by
  unfold Machine at hfrom hto
  unfold width getOffsetX
  omega

theorem height_lt (hfrom : Machine fromPos) (hto : Machine toPos) :
    height fromPos toPos < 65536 := by
  unfold Machine at hfrom hto
  unfold height getOffsetY
  omega

/-- The three numbers that are compared, where neither side of the box is zero. -/
theorem moves_eq {pos : Position} (hfrom : Machine fromPos) (hto : Machine toPos)
    (hx : Along fromPos.x toPos.x u pos.x) (hy : Along fromPos.y toPos.y v pos.y)
    (hwide : 0 < width fromPos toPos) (hhigh : 0 < height fromPos toPos)
    (hsmall : |error (height fromPos toPos) (width fromPos toPos) u v| < 65536) :
    let r := ray fromPos toPos
    let e := error (height fromPos toPos) (width fromPos toPos) u v
    r.move (pos.x + r.mx) pos.y = |e + height fromPos toPos| ∧
      r.move pos.x (pos.y + r.my) = |e - width fromPos toPos| ∧
      r.move (pos.x + r.mx) (pos.y + r.my) = |e + height fromPos toPos - width fromPos toPos| := by
  intro r e
  have hx' := hx.towards (by rintro h; rw [width, getOffsetX, h] at hwide; simp at hwide)
  have hy' := hy.towards (by rintro h; rw [height, getOffsetY, h] at hhigh; simp at hhigh)
  have hwidth := width_lt hfrom hto
  have hheight := height_lt hfrom hto
  rw [abs_lt] at hsmall
  refine ⟨?_, ?_, ?_⟩
  · have hmove := @move_eq fromPos toPos _ _ _ _ hx' hy
    rw [error_right, abs_lt] at hmove
    exact hmove (by omega)
  · have hmove := @move_eq fromPos toPos _ _ _ _ hx hy'
    rw [error_up, abs_lt] at hmove
    exact hmove (by omega)
  · have hmove := @move_eq fromPos toPos _ _ _ _ hx' hy'
    rw [error_up, error_right, abs_lt] at hmove
    exact hmove (by omega)

/-- How far the walk is after `k` steps. -/
structure Walked (fromPos toPos : Position) (k : ℕ) (u v : ℤ) (pos : Position) : Prop where
  x : Along fromPos.x toPos.x u pos.x
  y : Along fromPos.y toPos.y v pos.y
  z : pos.z = fromPos.z
  wide : height fromPos toPos ≤ width fromPos toPos →
    u = k ∧ Near (height fromPos toPos) (width fromPos toPos) u v
  high : width fromPos toPos < height fromPos toPos →
    v = k ∧ Near (width fromPos toPos) (height fromPos toPos) v u

theorem Walked.start (hne : fromPos.x ≠ toPos.x ∨ fromPos.y ≠ toPos.y) :
    Walked fromPos toPos 0 0 0 fromPos where
  x := .zero
  y := .zero
  z := rfl
  wide hle := by
    refine ⟨rfl, .start ?_ hle ?_⟩
    · unfold height
      omega
    · unfold width height getOffsetX getOffsetY at *
      omega
  high hlt := by
    refine ⟨rfl, .start ?_ hlt.le ?_⟩
    · unfold width
      omega
    · unfold width height at *
      omega

section Step

variable {pos : Position} {k : ℕ} (hfrom : Machine fromPos) (hto : Machine toPos)
include hfrom hto

/-- Along the wider side of the box. -/
theorem step_wide (hx : Along fromPos.x toPos.x u pos.x) (hy : Along fromPos.y toPos.y v pos.y)
    (hnear : Near (height fromPos toPos) (width fromPos toPos) u v)
    (hu : u < width fromPos toPos) :
    let r := ray fromPos toPos
    let v' := if width fromPos toPos <
      2 * (error (height fromPos toPos) (width fromPos toPos) u v + height fromPos toPos)
      then v + 1 else v
    Along fromPos.x toPos.x (u + 1) (r.step pos).x ∧ Along fromPos.y toPos.y v' (r.step pos).y ∧
      (r.step pos).z = pos.z := by
  intro r v'
  have hspec := step_along hfrom hto hx hy hnear.along hnear.across
  have hzero : height fromPos toPos = 0 ∨ 0 < height fromPos toPos := by
    have := hnear.sides
    omega
  rcases hzero with hflat | hhigh
  · have hv : v = height fromPos toPos := by
      have := hnear.across
      omega
    have hkept : v' = v := if_neg (hnear.far hv hu)
    simp only [hv, ne_eq, not_true_eq_false, false_and, if_false, true_or, and_true,
      if_pos hu.ne] at hspec
    rw [hkept, hv]
    exact hspec
  · have herror := hnear.error_le
    have hwidth := width_lt hfrom hto
    obtain ⟨hhor, hver, hcross⟩ := moves_eq hfrom hto hx hy
      (by have := hnear.sides; omega) hhigh (by omega)
    have hacross : (v ≠ height fromPos toPos ∧ (u = width fromPos toPos ∨
        |error (height fromPos toPos) (width fromPos toPos) u v - width fromPos toPos| <
          |error (height fromPos toPos) (width fromPos toPos) u v + height fromPos toPos| ∨
        |error (height fromPos toPos) (width fromPos toPos) u v + height fromPos toPos -
            width fromPos toPos| <
          |error (height fromPos toPos) (width fromPos toPos) u v + height fromPos toPos|)) ↔
        width fromPos toPos <
          2 * (error (height fromPos toPos) (width fromPos toPos) u v + height fromPos toPos) := by
      rw [hnear.goes_across_iff]
      refine ⟨fun h => h.2.resolve_left hu.ne, fun h => ⟨fun hv => hnear.far hv hu h, .inr h⟩⟩
    simp only [hhor, hver, hcross] at hspec
    simp only [hacross] at hspec
    rw [if_pos ⟨hu.ne, .inr (hnear.goes_along hhigh)⟩] at hspec
    exact hspec

/-- Along the higher side of the box. -/
theorem step_high (hx : Along fromPos.x toPos.x u pos.x) (hy : Along fromPos.y toPos.y v pos.y)
    (hnear : Near (width fromPos toPos) (height fromPos toPos) v u)
    (hv : v < height fromPos toPos) :
    let r := ray fromPos toPos
    let u' := if height fromPos toPos <
      2 * (error (width fromPos toPos) (height fromPos toPos) v u + width fromPos toPos)
      then u + 1 else u
    Along fromPos.x toPos.x u' (r.step pos).x ∧ Along fromPos.y toPos.y (v + 1) (r.step pos).y ∧
      (r.step pos).z = pos.z := by
  intro r u'
  have hspec := step_along hfrom hto hx hy hnear.across hnear.along
  have hzero : width fromPos toPos = 0 ∨ 0 < width fromPos toPos := by
    have := hnear.sides
    omega
  rcases hzero with hflat | hwide
  · have hu : u = width fromPos toPos := by
      have := hnear.across
      omega
    have hkept : u' = u := if_neg (hnear.far hu hv)
    simp only [hu, ne_eq, not_true_eq_false, false_and, if_false, true_or, and_true,
      if_pos hv.ne] at hspec
    rw [hkept, hu]
    exact hspec
  · have hswap : error (height fromPos toPos) (width fromPos toPos) u v =
        -error (width fromPos toPos) (height fromPos toPos) v u := by
      unfold error
      ring
    have herror := hnear.error_le
    have hheight := height_lt hfrom hto
    obtain ⟨hhor, hver, hcross⟩ := moves_eq hfrom hto hx hy hwide
      (by have := hnear.sides; omega) (by rw [hswap, abs_neg]; omega)
    generalize herr : error (width fromPos toPos) (height fromPos toPos) v u = e at *
    have hhor' : r.move (pos.x + r.mx) pos.y = |e - height fromPos toPos| := by
      rw [hhor, hswap, ← abs_neg]
      congr 1
      ring
    have hver' : r.move pos.x (pos.y + r.my) = |e + width fromPos toPos| := by
      rw [hver, hswap, ← abs_neg]
      congr 1
      ring
    have hcross' : r.move (pos.x + r.mx) (pos.y + r.my) =
        |e + width fromPos toPos - height fromPos toPos| := by
      rw [hcross, hswap, ← abs_neg]
      congr 1
      ring
    have halong := hnear.goes_along hwide
    have hturns := hnear.goes_across_iff
    rw [herr] at halong hturns
    have hacross : (u ≠ width fromPos toPos ∧ (v + 1 = height fromPos toPos ∨
        |e - height fromPos toPos| < |e + width fromPos toPos| ∨
        |e + width fromPos toPos - height fromPos toPos| < |e + width fromPos toPos|)) ↔
        height fromPos toPos < 2 * (e + width fromPos toPos) := by
      rw [hturns]
      refine ⟨fun ⟨hu, h⟩ => h.elim (fun hlast => ?_) id, fun h => ⟨fun hu => ?_, .inr h⟩⟩
      · -- in the last step the error would be left
        by_contra hstay
        have hnext := hnear.step hv
        rw [herr, if_neg hstay] at hnext
        exact hu (hnext.last hlast)
      · exact hnear.far hu hv (by rwa [herr])
    simp only [r, hhor', hver', hcross'] at hspec
    simp only [if_pos (show v ≠ height fromPos toPos ∧ (u = width fromPos toPos ∨ _) from
      ⟨hv.ne, .inr halong⟩)] at hspec
    simp only [hacross] at hspec
    simp only [u', herr]
    exact hspec

/-- The walk goes one further along the longer side, and leaves the line by half a tile at most. -/
theorem Walked.step (h : Walked fromPos toPos k u v pos) (hk : k < steps fromPos toPos) :
    ∃ u' v', Walked fromPos toPos (k + 1) u' v' ((ray fromPos toPos).step pos) ∧
      (u ≤ u' ∧ u' ≤ u + 1) ∧ (v ≤ v' ∧ v' ≤ v + 1) := by
  have hsteps := @steps_eq fromPos toPos
  rcases le_or_gt (height fromPos toPos) (width fromPos toPos) with hle | hlt
  · obtain ⟨hu, hnear⟩ := h.wide hle
    have hunder : u < width fromPos toPos := by omega
    obtain ⟨hx, hy, hz⟩ := step_wide hfrom hto h.x h.y hnear hunder
    refine ⟨_, _, ⟨hx, hy, hz.trans h.z, fun _ => ⟨?_, hnear.step hunder⟩,
      fun h => absurd h ?_⟩, ?_, ?_⟩
    · push_cast
      omega
    · omega
    · omega
    · split_ifs <;> omega
  · obtain ⟨hv, hnear⟩ := h.high hlt
    have hunder : v < height fromPos toPos := by omega
    obtain ⟨hx, hy, hz⟩ := step_high hfrom hto h.x h.y hnear hunder
    refine ⟨_, _, ⟨hx, hy, hz.trans h.z, fun h => absurd h ?_,
      fun _ => ⟨?_, hnear.step hunder⟩⟩, ?_, ?_⟩
    · omega
    · push_cast
      omega
    · split_ifs <;> omega
    · omega

theorem walked (hne : fromPos.x ≠ toPos.x ∨ fromPos.y ≠ toPos.y) (hk : k ≤ steps fromPos toPos) :
    ∃ u v, Walked fromPos toPos k u v ((ray fromPos toPos).step^[k] fromPos) := by
  induction k with
  | zero => exact ⟨0, 0, .start hne⟩
  | succ k ih =>
      obtain ⟨u, v, h⟩ := ih (by omega)
      rw [Function.iterate_succ_apply']
      obtain ⟨u', v', h', -⟩ := h.step hfrom hto hk
      exact ⟨u', v', h'⟩

end Step

section Walk

variable {pos : Position} {k : ℕ} (h : Walked fromPos toPos k u v pos)
include h

theorem Walked.bounds :
    (0 ≤ u ∧ u ≤ width fromPos toPos) ∧ (0 ≤ v ∧ v ≤ height fromPos toPos) := by
  rcases le_or_gt (height fromPos toPos) (width fromPos toPos) with hle | hlt
  · obtain ⟨-, hnear⟩ := h.wide hle
    exact ⟨hnear.along, hnear.across⟩
  · obtain ⟨-, hnear⟩ := h.high hlt
    exact ⟨hnear.across, hnear.along⟩

/-- The walk is on the destination after its last step, and not before. -/
theorem Walked.arrived_iff (hk : k ≤ steps fromPos toPos) :
    (pos.x = toPos.x ∧ pos.y = toPos.y) ↔ k = steps fromPos toPos := by
  obtain ⟨hu, hv⟩ := h.bounds
  have hsteps := @steps_eq fromPos toPos
  rw [h.x.eq_iff hu, h.y.eq_iff hv]
  change u = width fromPos toPos ∧ v = height fromPos toPos ↔ _
  rcases le_or_gt (height fromPos toPos) (width fromPos toPos) with hle | hlt
  · obtain ⟨huk, hnear⟩ := h.wide hle
    refine ⟨fun hend => by omega, fun hend => ?_⟩
    have hlast : u = width fromPos toPos := by omega
    exact ⟨hlast, hnear.last hlast⟩
  · obtain ⟨hvk, hnear⟩ := h.high hlt
    refine ⟨fun hend => by omega, fun hend => ?_⟩
    have hlast : v = height fromPos toPos := by omega
    exact ⟨hnear.last hlast, hlast⟩

/-- How far it is along the longer side, or along both of a square. -/
theorem Walked.dominant :
    ((getOffsetY toPos fromPos).natAbs ≤ (getOffsetX toPos fromPos).natAbs →
        (getOffsetX pos fromPos).natAbs = k) ∧
      ((getOffsetX toPos fromPos).natAbs ≤ (getOffsetY toPos fromPos).natAbs →
        (getOffsetY pos fromPos).natAbs = k) := by
  obtain ⟨hu, hv⟩ := h.bounds
  have hxoff : ((getOffsetX pos fromPos).natAbs : ℤ) = u := h.x.natAbs hu.1
  have hyoff : ((getOffsetY pos fromPos).natAbs : ℤ) = v := h.y.natAbs hv.1
  constructor
  · intro hle
    obtain ⟨huk, -⟩ := h.wide (by unfold width height; omega)
    omega
  · intro hle
    rcases le_or_gt (height fromPos toPos) (width fromPos toPos) with hsquare | hlt
    · obtain ⟨huk, hnear⟩ := h.wide hsquare
      have hdiagonal := hnear.diagonal (by unfold width height at *; omega)
      omega
    · obtain ⟨hvk, -⟩ := h.high hlt
      omega

/-- The walk passes the point of the line that is as far along the longer side. -/
theorem Walked.near : ∃ t : ℚ, 0 ≤ t ∧ t ≤ 1 ∧ offLine fromPos toPos pos t ≤ 1 / 2 := by
  unfold offLine
  rcases le_or_gt (height fromPos toPos) (width fromPos toPos) with hle | hlt
  · obtain ⟨-, hnear⟩ := h.wide hle
    obtain ⟨ht0, ht1, hcancel⟩ := hnear.fraction
    refine ⟨u / width fromPos toPos, ht0, ht1, ?_⟩
    rw [h.x.distance rfl, h.y.distance rfl]
    change |(u : ℚ) - width fromPos toPos * _| + |(v : ℚ) - height fromPos toPos * _| ≤ 1 / 2
    rw [hcancel, abs_zero, zero_add]
    exact hnear.distance_le
  · obtain ⟨-, hnear⟩ := h.high hlt
    obtain ⟨ht0, ht1, hcancel⟩ := hnear.fraction
    refine ⟨v / height fromPos toPos, ht0, ht1, ?_⟩
    rw [h.x.distance rfl, h.y.distance rfl]
    change |(u : ℚ) - width fromPos toPos * _| + |(v : ℚ) - height fromPos toPos * _| ≤ 1 / 2
    rw [hcancel, abs_zero, add_zero]
    exact hnear.distance_le

end Walk

end Moves

/-! ### The whole line -/

/-- The position after `k` turns of the loop. -/
def walk (fromPos toPos : Position) (k : ℕ) : Position := (ray fromPos toPos).step^[k] fromPos

section Line

variable {fromPos toPos : Position}

theorem position_eq (hx : fromPos.x = toPos.x) (hy : fromPos.y = toPos.y)
    (hz : fromPos.z = toPos.z) : fromPos = toPos := by
  cases fromPos
  cases toPos
  dsimp only at hx hy hz
  rw [hx, hy, hz]

theorem straight_self (pos : Position) : Straight pos pos (walk pos pos) := by
  have hsteps : steps pos pos = 0 := by simp [steps, getOffsetX, getOffsetY]
  refine ⟨rfl, ?_, ?_, ?_, ?_, ?_, ?_⟩
  · rw [hsteps]
    rfl
  · rw [hsteps]
    exact fun k hk => absurd hk (Nat.not_lt_zero k)
  · rw [hsteps]
    exact fun k hk => absurd hk (Nat.not_lt_zero k)
  · intro k hk
    obtain rfl : k = 0 := by omega
    exact ⟨by simp [walk], by simp [walk], rfl⟩
  · intro k hk
    obtain rfl : k = 0 := by omega
    simp [walk, getOffsetX, getOffsetY]
  · intro k hk
    obtain rfl : k = 0 := by omega
    exact ⟨0, le_rfl, zero_le_one, by simp [walk, offLine]⟩

theorem straight (hfrom : Machine fromPos) (hto : Machine toPos) (hz : fromPos.z = toPos.z) :
    Straight fromPos toPos (walk fromPos toPos) := by
  by_cases hne : fromPos.x ≠ toPos.x ∨ fromPos.y ≠ toPos.y
  · have hwalked : ∀ k ≤ steps fromPos toPos, ∃ u v,
        Walked fromPos toPos k u v (walk fromPos toPos k) := fun k hk => walked hfrom hto hne hk
    refine ⟨rfl, ?_, ?_, ?_, ?_, ?_, ?_⟩
    · obtain ⟨u, v, h⟩ := hwalked _ le_rfl
      obtain ⟨hx, hy⟩ := (h.arrived_iff le_rfl).2 rfl
      exact position_eq hx hy (h.z.trans hz)
    · intro k hk hend
      obtain ⟨u, v, h⟩ := hwalked k hk.le
      exact hk.ne ((h.arrived_iff hk.le).1 (by rw [hend]; exact ⟨rfl, rfl⟩))
    · intro k hk
      obtain ⟨u, v, h⟩ := hwalked k hk.le
      obtain ⟨u', v', h', hu, hv⟩ := h.step hfrom hto hk
      rw [show (ray fromPos toPos).step (walk fromPos toPos k) = walk fromPos toPos (k + 1) from
        (Function.iterate_succ_apply' _ _ _).symm] at h'
      refine ⟨h.x.next h'.x hu, h.y.next h'.y hv, fun hstay => ?_⟩
      obtain ⟨hwide, hhigh⟩ := h.dominant
      obtain ⟨hwide', hhigh'⟩ := h'.dominant
      rw [hstay] at hwide' hhigh'
      omega
    · intro k hk
      obtain ⟨u, v, h⟩ := hwalked k hk
      obtain ⟨hu, hv⟩ := h.bounds
      exact ⟨h.x.between hu, h.y.between hv, h.z⟩
    · intro k hk
      obtain ⟨u, v, h⟩ := hwalked k hk
      exact h.dominant
    · intro k hk
      obtain ⟨u, v, h⟩ := hwalked k hk
      exact h.near
  · obtain rfl : fromPos = toPos := position_eq (by tauto) (by tauto) hz
    exact straight_self fromPos

variable {Tile : Type} (m : SightMap Tile)

theorem checkRay_arrived (fuel : ℕ) :
    m.checkRay (ray fromPos toPos) fuel toPos = some true := by
  unfold SightMap.checkRay
  rw [if_pos ⟨rfl, rfl⟩, show (ray fromPos toPos).destination = toPos from rfl, Nat.sub_self,
    SightMap.checkFloors]

theorem checkRay_turn {start : Position} (fuel : ℕ) (hz : start.z = toPos.z)
    (hne : start ≠ toPos) :
    m.checkRay (ray fromPos toPos) (fuel + 1) start =
      if m.blocked ((ray fromPos toPos).step start) then some false
      else m.checkRay (ray fromPos toPos) fuel ((ray fromPos toPos).step start) := by
  rw [SightMap.checkRay, if_neg]
  rintro ⟨hx, hy⟩
  exact hne (position_eq hx hy hz)

/-- The loop on a way of which `k` turns are done looks at the positions behind them. -/
def Looked (fromPos toPos : Position) (m : SightMap Tile) (fuel k : ℕ) : Prop :=
  ∃ clear, m.checkRay (ray fromPos toPos) fuel (walk fromPos toPos k) = some clear ∧
    (clear = false ↔ ∃ j, k < j ∧ j ≤ steps fromPos toPos ∧
      m.blocked (walk fromPos toPos j) = true)

theorem looked_arrived (h : Straight fromPos toPos (walk fromPos toPos)) (fuel : ℕ) :
    Looked fromPos toPos m fuel (steps fromPos toPos) := by
  rw [Looked, h.arrives]
  refine ⟨true, checkRay_arrived m fuel, fun h => absurd h.symm Bool.false_ne_true, ?_⟩
  rintro ⟨j, hj, hj', -⟩
  omega

theorem looked (hfrom : Machine fromPos) (hto : Machine toPos) (hz : fromPos.z = toPos.z)
    {k fuel : ℕ} (hk : k ≤ steps fromPos toPos) (hfuel : steps fromPos toPos ≤ k + fuel) :
    Looked fromPos toPos m fuel k := by
  have hstraight := straight hfrom hto hz
  induction fuel generalizing k with
  | zero =>
      obtain rfl : k = steps fromPos toPos := by omega
      exact looked_arrived m hstraight 0
  | succ fuel ih =>
      rcases eq_or_lt_of_le hk with rfl | hlt
      · exact looked_arrived m hstraight (fuel + 1)
      have hzk := (hstraight.inside k hk).2.2
      have hnext : (ray fromPos toPos).step (walk fromPos toPos k) = walk fromPos toPos (k + 1) :=
        (Function.iterate_succ_apply' _ _ _).symm
      rw [Looked, checkRay_turn m fuel (hzk.trans hz) (hstraight.under_way k hlt), hnext]
      cases hblocked : m.blocked (walk fromPos toPos (k + 1)) with
      | true =>
          rw [if_pos rfl]
          exact ⟨false, rfl, fun _ => ⟨k + 1, by omega, hlt, hblocked⟩, fun _ => rfl⟩
      | false =>
          obtain ⟨clear, hclear, hiff⟩ := ih hlt (by omega)
          rw [if_neg Bool.false_ne_true]
          refine ⟨clear, hclear, hiff.trans ⟨?_, ?_⟩⟩
          · rintro ⟨j, hj, hj', hwall⟩
            exact ⟨j, by omega, hj', hwall⟩
          · rintro ⟨j, hj, hj', hwall⟩
            refine ⟨j, lt_of_le_of_ne hj ?_, hj', hwall⟩
            rintro rfl
            rw [hblocked] at hwall
            exact Bool.false_ne_true hwall

theorem checkSightLine_eq (hfrom : Machine fromPos) (hto : Machine toPos)
    (hz : fromPos.z = toPos.z) {fuel : ℕ} (hfuel : steps fromPos toPos ≤ fuel) :
    ∃ clear, m.checkSightLine fuel fromPos toPos = some clear ∧
      (clear = false ↔ ∃ j, 0 < j ∧ j ≤ steps fromPos toPos ∧
        m.blocked (walk fromPos toPos j) = true) := by
  rw [SightMap.checkSightLine]
  split_ifs with hsame
  · subst hsame
    have hsteps : steps fromPos fromPos = 0 := by simp [steps, getOffsetX, getOffsetY]
    refine ⟨true, rfl, fun h => absurd h.symm Bool.false_ne_true, ?_⟩
    rintro ⟨j, hj, hj', -⟩
    omega
  · omega
  · exact looked m hfrom hto hz (Nat.zero_le _) (by omega)

theorem steps_comm : steps toPos fromPos = steps fromPos toPos := by
  unfold steps getOffsetX getOffsetY
  omega

/-- Sight is blocked where both of the rays are. -/
theorem isSightClear_eq (hfrom : Machine fromPos) (hto : Machine toPos)
    (hz : fromPos.z = toPos.z) {fuel : ℕ} (hfuel : steps fromPos toPos ≤ fuel)
    (floorCheck : Bool) :
    ∃ clear, m.isSightClear fuel fromPos toPos floorCheck = some clear ∧
      (clear = false ↔
        (∃ j, 0 < j ∧ j ≤ steps fromPos toPos ∧ m.blocked (walk fromPos toPos j) = true) ∧
          ∃ j, 0 < j ∧ j ≤ steps fromPos toPos ∧ m.blocked (walk toPos fromPos j) = true) := by
  obtain ⟨clear, hclear, hblocked⟩ := checkSightLine_eq m hfrom hto hz hfuel
  obtain ⟨clear', hclear', hblocked'⟩ :=
    checkSightLine_eq m hto hfrom hz.symm (hfuel.trans' steps_comm.le)
  rw [steps_comm] at hblocked'
  rw [SightMap.isSightClear, if_neg (fun h => h.2 hz), hclear, ← hblocked, ← hblocked']
  cases clear with
  | true => exact ⟨true, rfl, by simp⟩
  | false => exact ⟨clear', hclear', by simp⟩

end Line

/-- On one floor the walk is straight, and the line is blocked where one of its tiles, the last one
included, blocks projectiles. -/
theorem sight_line {Tile : Type} (m : SightMap Tile) (fromPos toPos : Position)
    (hfrom : Machine fromPos) (hto : Machine toPos) (hz : fromPos.z = toPos.z) :
    Straight fromPos toPos (walk fromPos toPos) ∧
      ∀ fuel, steps fromPos toPos ≤ fuel →
        ∃ clear, m.checkSightLine fuel fromPos toPos = some clear ∧
          (clear = false ↔ ∃ k, 0 < k ∧ k ≤ steps fromPos toPos ∧
            m.blocked (walk fromPos toPos k) = true) :=
  ⟨straight hfrom hto hz, fun _ hfuel => checkSightLine_eq m hfrom hto hz hfuel⟩

namespace Sample

/-- A wall. -/
def walled : SightMap Unit where
  getTile pos := if pos = ⟨40001, 30000, 7⟩ then some () else none
  blocksProjectile _ := true
  getThingCount _ := 1

/-- A way through a large part of a map, which ends on the wall. -/
theorem far_line :
    Straight ⟨100, 60000, 7⟩ ⟨40001, 30000, 7⟩ (walk ⟨100, 60000, 7⟩ ⟨40001, 30000, 7⟩) ∧
      ∀ fuel, steps ⟨100, 60000, 7⟩ ⟨40001, 30000, 7⟩ ≤ fuel →
        ∃ clear, walled.checkSightLine fuel ⟨100, 60000, 7⟩ ⟨40001, 30000, 7⟩ = some clear ∧
          (clear = false ↔ ∃ k, 0 < k ∧ k ≤ steps ⟨100, 60000, 7⟩ ⟨40001, 30000, 7⟩ ∧
            walled.blocked (walk ⟨100, 60000, 7⟩ ⟨40001, 30000, 7⟩ k) = true) :=
  sight_line walled ⟨100, 60000, 7⟩ ⟨40001, 30000, 7⟩ (by decide) (by decide) rfl

end Sample

end TibServer.SightLine
