import TibServer.PathSearch

/-!
How a monster keeps its distance (`monster.cpp`): eight sectors for where the target is, each with
its own cascade of neighbours to walk to. A neighbour that is chosen can be walked to, and a monster
that does not flee never comes closer to its target.
-/

namespace TibServer.KeepDistance

open PathSearch (Direction)

/-! ### Positions -/

structure Position where
  x : BitVec 16
  y : BitVec 16
  z : BitVec 8
  deriving DecidableEq

namespace Position

def getOffsetX (p₁ p₂ : Position) : Int := p₁.x.toNat - p₂.x.toNat

def getOffsetY (p₁ p₂ : Position) : Int := p₁.y.toNat - p₂.y.toNat

def getDistanceX (p₁ p₂ : Position) : Int := |getOffsetX p₁ p₂|

def getDistanceY (p₁ p₂ : Position) : Int := |getOffsetY p₁ p₂|

def getDistanceZ (p₁ p₂ : Position) : Int := |(p₁.z.toNat : Int) - p₂.z.toNat|

/-- How many steps apart they are, where steps may be diagonal. -/
def steps (p₁ p₂ : Position) : Int := max (getDistanceX p₁ p₂) (getDistanceY p₁ p₂)

/-- No neighbour lies behind a border of the coordinates. -/
def Inland (p : Position) : Prop :=
  0 < p.x.toNat ∧ p.x.toNat < 0xFFFF ∧ 0 < p.y.toNat ∧ p.y.toNat < 0xFFFF

end Position

def getNextPosition (direction : Direction) (pos : Position) : Position :=
  match direction with
  | .north => { pos with y := pos.y - 1 }
  | .south => { pos with y := pos.y + 1 }
  | .west => { pos with x := pos.x - 1 }
  | .east => { pos with x := pos.x + 1 }
  | .southwest => { pos with x := pos.x - 1, y := pos.y + 1 }
  | .northwest => { pos with x := pos.x - 1, y := pos.y - 1 }
  | .northeast => { pos with x := pos.x + 1, y := pos.y - 1 }
  | .southeast => { pos with x := pos.x + 1, y := pos.y + 1 }

/-! ### The monster and what it looks at -/

/-- The creatures on a tile, and whether `queryAdd` lets the monster onto it with
`FLAG_PATHFINDING`. -/
structure Tile where
  creatures : List CreatureId := []
  queryAdd : Bool := true

structure Monster where
  spawn : Bool := false
  masterPos : Position := ⟨0, 0, 0⟩
  despawnRadius : Int := 0
  despawnRange : Int := 0
  targetDistance : Int := 1
  stepDuration : Int := 0
  getWalkCache : Position → Int := fun _ => 2
  getTile : Position → Option Tile
  canSeeCreature : CreatureId → Bool := fun _ => true
  isSightClear : Position → Position → Bool → Bool := fun _ _ _ => true

namespace Monster

/-- `Spawns::isInZone` -/
def isInZone (centerPos : Position) (radius : Int) (pos : Position) : Bool :=
  radius == -1 ||
    decide ((pos.x.toNat : Int) ≥ centerPos.x.toNat - radius ∧
      (pos.x.toNat : Int) ≤ centerPos.x.toNat + radius ∧
      (pos.y.toNat : Int) ≥ centerPos.y.toNat - radius ∧
      (pos.y.toNat : Int) ≤ centerPos.y.toNat + radius)

def isInSpawnRange (m : Monster) (pos : Position) : Bool :=
  if !m.spawn then true
  else if m.despawnRadius == 0 then true
  else if !isInZone m.masterPos m.despawnRadius pos then false
  else if m.despawnRange == 0 then true
  else !decide (Position.getDistanceZ pos m.masterPos > m.despawnRange)

/-- `Tile::getTopVisibleCreature`, for a monster. -/
def getTopVisibleCreature (m : Monster) (tile : Tile) : Option CreatureId :=
  tile.creatures.find? m.canSeeCreature

def canWalkTo (m : Monster) (pos : Position) (direction : Direction) : Bool :=
  let pos := getNextPosition direction pos
  if m.isInSpawnRange pos then
    if m.getWalkCache pos == 0 then false
    else
      match m.getTile pos with
      | none => false
      | some tile => (m.getTopVisibleCreature tile).isNone && tile.queryAdd
  else false

end Monster

/-! ### The sectors -/

section Sectors

-- the answers of `canWalkTo`, the coin that `boolean_random` throws once at most, and whether the
-- monster flees
variable (walk : Direction → Bool) (coin flee : Bool)

/-- A diagonal sector: `a` or `b`, else `ab` between them; fleeing, also `c` or `d`; at last `e` or
`f`, from where `e'` or `f'` could be reached. -/
def escapeDiagonal (a b ab c d e e' f f' : Direction) : Option Direction :=
  if walk a && walk b then some (if coin then a else b)
  else if walk a then some a
  else if walk b then some b
  else if walk ab then some ab
  else if flee && walk c && walk d then some (if coin then c else d)
  else if flee && walk c then some c
  else if flee && walk d then some d
  else if walk e && walk e' then some e
  else if walk f && walk f' then some f
  else none

/-- A straight sector: `away`; else to the side, `a` or `b`, by the offset along it; then diagonally,
`e` or `f`, or to the sides `e'` and `f'` of these; fleeing, at last `toward` the target. -/
def escapeStraight (offset : Int) (away a b e e' f f' toward : Direction) : Option Direction :=
  if walk away then some away
  else if walk a && walk b && offset == 0 then some (if coin then a else b)
  else if walk a && decide (offset ≤ 0) then some a
  else if walk b && decide (offset ≥ 0) then some b
  else if flee && walk a && walk b then some (if coin then a else b)
  else if flee && walk a then some a
  else if flee && walk b then some b
  else if walk e || walk f then
    if walk e && walk f then some (if coin then e else f)
    else if walk e' then some e'
    else if walk e then some e
    else if walk f' then some f'
    else if walk f then some f
    else none
  else if flee && walk toward then some toward
  else none

def playerNW : Option Direction :=
  escapeDiagonal walk coin flee .south .east .southeast .north .west .west .southwest .north
    .northeast

def playerSE : Option Direction :=
  escapeDiagonal walk coin flee .west .north .northwest .south .east .south .southwest .east
    .northeast

def playerSW : Option Direction :=
  escapeDiagonal walk coin flee .north .east .northeast .south .west .west .northwest .south
    .southeast

def playerNE : Option Direction :=
  escapeDiagonal walk coin flee .west .south .southwest .north .east .east .southeast .north
    .northwest

def playerNorth (offsetx : Int) : Option Direction :=
  escapeStraight walk coin flee offsetx .south .west .east .southwest .west .southeast .east .north

def playerSouth (offsetx : Int) : Option Direction :=
  escapeStraight walk coin flee offsetx .north .west .east .northwest .west .northeast .east .south

def playerWest (offsety : Int) : Option Direction :=
  escapeStraight walk coin flee offsety .east .north .south .southeast .south .northeast .north .west

def playerEast (offsety : Int) : Option Direction :=
  escapeStraight walk coin flee offsety .west .north .south .northwest .north .southwest .south .east

/-- The sector by the offsets of the monster from its target. -/
def escape (offsetx offsety : Int) : Option Direction :=
  if |offsetx| = |offsety| ∧ offsetx ≥ 1 ∧ offsety ≥ 1 then playerNW walk coin flee
  else if |offsetx| = |offsety| ∧ offsetx ≤ -1 ∧ offsety ≤ -1 then playerSE walk coin flee
  else if |offsetx| = |offsety| ∧ offsetx ≥ 1 ∧ offsety ≤ -1 then playerSW walk coin flee
  else if |offsetx| = |offsety| ∧ offsetx ≤ -1 ∧ offsety ≥ 1 then playerNE walk coin flee
  else if |offsety| > |offsetx| then
    if offsety < 0 then playerSouth walk coin flee offsetx else playerNorth walk coin flee offsetx
  else
    if offsetx < 0 then playerEast walk coin flee offsety else playerWest walk coin flee offsety

end Sectors

/-! ### The step -/

/-- What is returned, the direction where one is set, and the duration of the monster's steps. -/
structure Outcome where
  result : Bool
  direction : Option Direction
  stepDuration : Int

namespace Monster

/-- `getRandomStep`, with the list of directions as it was shuffled. -/
def getRandomStep (m : Monster) (creaturePos : Position) (dirList : List Direction) :
    Option Direction :=
  dirList.find? (m.canWalkTo creaturePos)

def getDistanceStep (m : Monster) (coin : Bool) (dirList : List Direction)
    (creaturePos targetPos : Position) (flee : Bool) : Outcome :=
  let dx := Position.getDistanceX creaturePos targetPos
  let dy := Position.getDistanceY creaturePos targetPos
  let distance := max dx dy
  if !flee && (decide (distance > m.targetDistance) || !m.isSightClear creaturePos targetPos true) then
    ⟨false, none, m.stepDuration⟩
  else if !flee && distance == m.targetDistance then ⟨true, none, m.stepDuration⟩
  else
    let offsetx := Position.getOffsetX creaturePos targetPos
    let offsety := Position.getOffsetY creaturePos targetPos
    let stepDuration :=
      if dx ≤ 1 ∧ dy ≤ 1 then
        if m.stepDuration < 2 then m.stepDuration + 1 else m.stepDuration
      else if m.stepDuration > 0 then m.stepDuration - 1
      else m.stepDuration
    let walk := m.canWalkTo creaturePos
    -- the target is on the monster
    if offsetx = 0 ∧ offsety = 0 then
      let direction := m.getRandomStep creaturePos dirList
      ⟨direction.isSome, direction, stepDuration⟩
    else ⟨true, escape walk coin flee offsetx offsety, stepDuration⟩

end Monster

/-! ### The cascades -/

section Cascades

variable {walk : Direction → Bool} {coin flee : Bool} {a b ab c d e e' f f' away toward : Direction}
  {offset : Int} {direction : Direction} {l : List Direction}

/-- A direction that can be walked, and one of `l` unless the monster flees. -/
def Chosen (walk : Direction → Bool) (flee : Bool) (l : List Direction) (direction : Direction) :
    Prop :=
  walk direction = true ∧ (flee = false → direction ∈ l)

theorem of_branch {p : Prop} [Decidable p] {rest : Option Direction}
    (h : (if p then some a else rest) = some direction) :
    (p ∧ a = direction) ∨ rest = some direction := by
  split_ifs at h with hp
  · exact .inl ⟨hp, Option.some.inj h⟩
  · exact .inr h

theorem chosen_of_coin (h : (walk a && walk b) = true) (ha : a ∈ l) (hb : b ∈ l) :
    Chosen walk flee l (if coin then a else b) := by
  rw [Bool.and_eq_true] at h
  cases coin with
  | true => exact ⟨h.1, fun _ => ha⟩
  | false => exact ⟨h.2, fun _ => hb⟩

/-- What only a fleeing monster does. -/
theorem chosen_of_flee (h : (flee && walk a) = true) : Chosen walk flee l a := by
  rw [Bool.and_eq_true] at h
  exact ⟨h.2, fun hflee => absurd (hflee.symm.trans h.1) Bool.false_ne_true⟩

theorem chosen_of_flee_coin (h : (flee && walk a && walk b) = true) :
    Chosen walk flee l (if coin then a else b) := by
  rw [Bool.and_assoc, Bool.and_eq_true] at h
  have hboth := Bool.and_eq_true_iff.mp h.2
  cases coin with
  | true => exact chosen_of_flee (Bool.and_eq_true_iff.mpr ⟨h.1, hboth.1⟩)
  | false => exact chosen_of_flee (Bool.and_eq_true_iff.mpr ⟨h.1, hboth.2⟩)

theorem chosen_of_walk (h : walk a = true) (ha : a ∈ l) : Chosen walk flee l a := ⟨h, fun _ => ha⟩

theorem escapeDiagonal_chosen
    (h : escapeDiagonal walk coin flee a b ab c d e e' f f' = some direction) :
    Chosen walk flee [a, b, ab, e, f] direction := by
  unfold escapeDiagonal at h
  rcases of_branch h with ⟨hboth, rfl⟩ | h
  · exact chosen_of_coin hboth (by simp) (by simp)
  rcases of_branch h with ⟨ha, rfl⟩ | h
  · exact chosen_of_walk ha (by simp)
  rcases of_branch h with ⟨hb, rfl⟩ | h
  · exact chosen_of_walk hb (by simp)
  rcases of_branch h with ⟨hab, rfl⟩ | h
  · exact chosen_of_walk hab (by simp)
  -- fleeing
  rcases of_branch h with ⟨hboth, rfl⟩ | h
  · exact chosen_of_flee_coin hboth
  rcases of_branch h with ⟨hc, rfl⟩ | h
  · exact chosen_of_flee hc
  rcases of_branch h with ⟨hd, rfl⟩ | h
  · exact chosen_of_flee hd
  -- towards a place from where another diagonal could be reached
  rcases of_branch h with ⟨he, rfl⟩ | h
  · exact chosen_of_walk (Bool.and_eq_true_iff.mp he).1 (by simp)
  rcases of_branch h with ⟨hf, rfl⟩ | h
  · exact chosen_of_walk (Bool.and_eq_true_iff.mp hf).1 (by simp)
  · exact absurd h.symm (Option.some_ne_none _)

theorem escapeStraight_chosen
    (h : escapeStraight walk coin flee offset away a b e e' f f' toward = some direction) :
    Chosen walk flee [away, a, b, e, e', f, f'] direction := by
  unfold escapeStraight at h
  rcases of_branch h with ⟨haway, rfl⟩ | h
  · exact chosen_of_walk haway (by simp)
  rcases of_branch h with ⟨hboth, rfl⟩ | h
  · exact chosen_of_coin (Bool.and_eq_true_iff.mp hboth).1 (by simp) (by simp)
  rcases of_branch h with ⟨ha, rfl⟩ | h
  · exact chosen_of_walk (Bool.and_eq_true_iff.mp ha).1 (by simp)
  rcases of_branch h with ⟨hb, rfl⟩ | h
  · exact chosen_of_walk (Bool.and_eq_true_iff.mp hb).1 (by simp)
  -- fleeing
  rcases of_branch h with ⟨hboth, rfl⟩ | h
  · exact chosen_of_flee_coin hboth
  rcases of_branch h with ⟨ha, rfl⟩ | h
  · exact chosen_of_flee ha
  rcases of_branch h with ⟨hb, rfl⟩ | h
  · exact chosen_of_flee hb
  by_cases hdiagonal : (walk e || walk f) = true
  · rw [if_pos hdiagonal] at h
    rcases of_branch h with ⟨hboth, rfl⟩ | h
    · exact chosen_of_coin hboth (by simp) (by simp)
    rcases of_branch h with ⟨he, rfl⟩ | h
    · exact chosen_of_walk he (by simp)
    rcases of_branch h with ⟨he, rfl⟩ | h
    · exact chosen_of_walk he (by simp)
    rcases of_branch h with ⟨hf, rfl⟩ | h
    · exact chosen_of_walk hf (by simp)
    rcases of_branch h with ⟨hf, rfl⟩ | h
    · exact chosen_of_walk hf (by simp)
    · exact absurd h.symm (Option.some_ne_none _)
  · rw [if_neg hdiagonal] at h
    rcases of_branch h with ⟨htoward, rfl⟩ | h
    · exact chosen_of_flee htoward
    · exact absurd h.symm (Option.some_ne_none _)

end Cascades

/-! ### The distance -/

section Distance

variable {p t : Position} {direction : Direction}

/-- The step in a direction, as it changes the two offsets. -/
def offsetOf : Direction → Int × Int
  | .north => (0, -1)
  | .south => (0, 1)
  | .west => (-1, 0)
  | .east => (1, 0)
  | .southwest => (-1, 1)
  | .northwest => (-1, -1)
  | .northeast => (1, -1)
  | .southeast => (1, 1)

theorem offset_next (h : p.Inland) (direction : Direction) (t : Position) :
    Position.getOffsetX (getNextPosition direction p) t =
        Position.getOffsetX p t + (offsetOf direction).1 ∧
      Position.getOffsetY (getNextPosition direction p) t =
        Position.getOffsetY p t + (offsetOf direction).2 := by
  obtain ⟨hx, hx', hy, hy'⟩ := h
  have hwest : ((p.x - 1).toNat : Int) = p.x.toNat - 1 := by bv_omega
  have heast : ((p.x + 1).toNat : Int) = p.x.toNat + 1 := by bv_omega
  have hnorth : ((p.y - 1).toNat : Int) = p.y.toNat - 1 := by bv_omega
  have hsouth : ((p.y + 1).toNat : Int) = p.y.toNat + 1 := by bv_omega
  unfold Position.getOffsetX Position.getOffsetY
  cases direction <;> simp only [getNextPosition, offsetOf, hwest, heast, hnorth, hsouth] <;> omega

/-- The distance does not shrink where the greater of the two offsets does not. -/
theorem steps_le (h : p.Inland)
    (hoffset : max |Position.getOffsetX p t| |Position.getOffsetY p t| ≤
      max |Position.getOffsetX p t + (offsetOf direction).1|
        |Position.getOffsetY p t + (offsetOf direction).2|) :
    Position.steps p t ≤ Position.steps (getNextPosition direction p) t := by
  obtain ⟨hx, hy⟩ := offset_next h direction t
  unfold Position.steps Position.getDistanceX Position.getDistanceY
  rw [hx, hy]
  exact hoffset

end Distance

section Step

variable {walk : Direction → Bool} {coin flee : Bool} {x y : Int} {direction : Direction}

/-- A step that does not make the greater of the two offsets smaller. -/
def Keeps (x y : Int) (d : Direction) : Prop :=
  max |x| |y| ≤ max |x + (offsetOf d).1| |y + (offsetOf d).2|

theorem Chosen.keeps {l : List Direction} (h : Chosen walk flee l direction)
    (hl : ∀ d ∈ l, Keeps x y d) :
    walk direction = true ∧ (flee = false → Keeps x y direction) :=
  ⟨h.1, fun hflee => hl _ (h.2 hflee)⟩

theorem of_split {p : Prop} [Decidable p] {first rest : Option Direction}
    (h : (if p then first else rest) = some direction) :
    (p ∧ first = some direction) ∨ (¬p ∧ rest = some direction) := by
  split_ifs at h with hp
  · exact .inl ⟨hp, h⟩
  · exact .inr ⟨hp, h⟩

/-- The offset that is the greater one does not become smaller. -/
theorem keeps_of {d : Direction} (h : |y| ≤ |x| ∧ |x| ≤ |x + (offsetOf d).1| ∨
    |x| ≤ |y| ∧ |y| ≤ |y + (offsetOf d).2|) : Keeps x y d := by
  unfold Keeps
  rcases h with ⟨hmax, hgrow⟩ | ⟨hmax, hgrow⟩
  · rw [max_eq_left hmax]
    exact hgrow.trans (le_max_left _ _)
  · rw [max_eq_right hmax]
    exact hgrow.trans (le_max_right _ _)

theorem abs_add_one (h : 0 ≤ x) : |x| ≤ |x + 1| := by
  rw [abs_of_nonneg h, abs_of_nonneg (by omega)]
  omega

theorem abs_sub_one (h : x ≤ 0) : |x| ≤ |x + -1| := by
  rw [abs_of_nonpos h, abs_of_nonpos (by omega)]
  omega

/-- Both offsets are the greater one; it is enough that one of them does not become smaller. -/
theorem escapeDiagonal_keeps {a b ab c d e e' f f' : Direction}
    (h : escapeDiagonal walk coin flee a b ab c d e e' f f' = some direction)
    (hequal : |x| = |y|)
    (hl : ∀ d ∈ [a, b, ab, e, f], |x| ≤ |x + (offsetOf d).1| ∨ |y| ≤ |y + (offsetOf d).2|) :
    walk direction = true ∧ (flee = false → Keeps x y direction) := by
  refine (escapeDiagonal_chosen h).keeps fun d hd => keeps_of ?_
  rcases hl d hd with hx | hy
  · exact .inl ⟨hequal.ge, hx⟩
  · exact .inr ⟨hequal.le, hy⟩

theorem escapeStraight_keeps {away a b e e' f f' toward : Direction} {offset : Int}
    (h : escapeStraight walk coin flee offset away a b e e' f f' toward = some direction)
    (hl : ∀ d ∈ [away, a, b, e, e', f, f'], |y| ≤ |x| ∧ |x| ≤ |x + (offsetOf d).1| ∨
      |x| ≤ |y| ∧ |y| ≤ |y + (offsetOf d).2|) :
    walk direction = true ∧ (flee = false → Keeps x y direction) :=
  (escapeStraight_chosen h).keeps fun d hd => keeps_of (hl d hd)

theorem escape_keeps (h : escape walk coin flee x y = some direction) :
    walk direction = true ∧ (flee = false → Keeps x y direction) := by
  unfold escape at h
  rcases of_split h with ⟨⟨hequal, hx, hy⟩, h⟩ | ⟨-, h⟩
  · have hgrow := abs_add_one (show 0 ≤ x by omega)
    have hgrow' := abs_add_one (show 0 ≤ y by omega)
    exact escapeDiagonal_keeps h hequal (by simp [offsetOf, hgrow, hgrow'])
  rcases of_split h with ⟨⟨hequal, hx, hy⟩, h⟩ | ⟨-, h⟩
  · have hgrow := abs_sub_one (show x ≤ 0 by omega)
    have hgrow' := abs_sub_one (show y ≤ 0 by omega)
    exact escapeDiagonal_keeps h hequal (by simp [offsetOf, hgrow, hgrow'])
  rcases of_split h with ⟨⟨hequal, hx, hy⟩, h⟩ | ⟨-, h⟩
  · have hgrow := abs_add_one (show 0 ≤ x by omega)
    have hgrow' := abs_sub_one (show y ≤ 0 by omega)
    exact escapeDiagonal_keeps h hequal (by simp [offsetOf, hgrow, hgrow'])
  rcases of_split h with ⟨⟨hequal, hx, hy⟩, h⟩ | ⟨-, h⟩
  · have hgrow := abs_sub_one (show x ≤ 0 by omega)
    have hgrow' := abs_add_one (show 0 ≤ y by omega)
    exact escapeDiagonal_keeps h hequal (by simp [offsetOf, hgrow, hgrow'])
  rcases of_split h with ⟨hvertical, h⟩ | ⟨hhorizontal, h⟩
  · have hle : |x| ≤ |y| := hvertical.le
    rcases of_split h with ⟨hside, h⟩ | ⟨hside, h⟩
    · have hgrow := abs_sub_one (show y ≤ 0 by omega)
      exact escapeStraight_keeps h (by simp [offsetOf, hle, hgrow])
    · have hgrow := abs_add_one (show 0 ≤ y by omega)
      exact escapeStraight_keeps h (by simp [offsetOf, hle, hgrow])
  · have hle : |y| ≤ |x| := not_lt.mp hhorizontal
    rcases of_split h with ⟨hside, h⟩ | ⟨hside, h⟩
    · have hgrow := abs_sub_one (show x ≤ 0 by omega)
      exact escapeStraight_keeps h (by simp [offsetOf, hle, hgrow])
    · have hgrow := abs_add_one (show 0 ≤ x by omega)
      exact escapeStraight_keeps h (by simp [offsetOf, hle, hgrow])

end Step

/-- A direction that is set can be walked, and without flight no step brings the monster closer. -/
theorem distance_kept (m : Monster) (coin : Bool) (dirList : List Direction)
    (creaturePos targetPos : Position) (flee : Bool) (direction : Direction)
    (hinland : creaturePos.Inland)
    (hset : (m.getDistanceStep coin dirList creaturePos targetPos flee).direction =
      some direction) :
    m.canWalkTo creaturePos direction = true ∧
      (flee = false → creaturePos.steps targetPos ≤
        (getNextPosition direction creaturePos).steps targetPos) := by
  unfold Monster.getDistanceStep at hset
  dsimp only at hset
  rw [apply_ite Outcome.direction] at hset
  rcases of_split hset with ⟨-, hset⟩ | ⟨-, hset⟩
  · exact absurd hset.symm (Option.some_ne_none _)
  rw [apply_ite Outcome.direction] at hset
  rcases of_split hset with ⟨-, hset⟩ | ⟨-, hset⟩
  · exact absurd hset.symm (Option.some_ne_none _)
  rw [apply_ite Outcome.direction] at hset
  rcases of_split hset with ⟨⟨hx, hy⟩, hset⟩ | ⟨-, hset⟩
  · -- the two are on one place; any step leads away from it
    refine ⟨List.find?_some hset, fun _ => steps_le hinland ?_⟩
    rw [hx, hy]
    exact max_le ((abs_nonneg _).trans (le_max_left _ _)) ((abs_nonneg _).trans (le_max_left _ _))
  · obtain ⟨hwalk, hkeeps⟩ := escape_keeps hset
    exact ⟨hwalk, fun hflee => steps_le hinland (hkeeps hflee)⟩

namespace Sample

/-- A ranged monster on open ground. -/
def archer : Monster := { targetDistance := 4, getTile := fun _ => some {} }

/-- The player is on the tile to the north-west, and the archer goes south. -/
theorem archer_south : archer.canWalkTo ⟨100, 100, 7⟩ .south = true ∧
    (false = false → Position.steps ⟨100, 100, 7⟩ ⟨99, 99, 7⟩ ≤
      (getNextPosition .south ⟨100, 100, 7⟩).steps ⟨99, 99, 7⟩) :=
  distance_kept archer true [] ⟨100, 100, 7⟩ ⟨99, 99, 7⟩ false .south
    ⟨by decide, by decide, by decide, by decide⟩ (by decide)

end Sample

end TibServer.KeepDistance
