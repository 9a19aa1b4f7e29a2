import Mathlib.Data.BitVec
import Mathlib.Tactic

/-!
The experience of a player and what depends on the level (`player.cpp`, `player.h`), and how it is
stored and read back (`iologindata.cpp`).

Numbers have the widths of the source, and what it computes wraps as there. The current health and
mana are left out: a change of the level only fills them up. What a script makes of the amounts
that are gained and lost is a parameter, and so is the loss of a death, which is computed in
floating point.
-/

namespace TibServer.Experience

structure Vocation where
  id : BitVec 16
  gainHP : BitVec 32
  gainMana : BitVec 32
  gainCap : BitVec 32
  deriving DecidableEq, Repr

def VOCATION_NONE : BitVec 16 := 0

structure Player where
  level : BitVec 32 := 1
  experience : BitVec 64 := 0
  levelPercent : BitVec 8 := 0
  healthMax : BitVec 32 := 1000
  manaMax : BitVec 32 := 0
  capacity : BitVec 32 := 40000
  deriving DecidableEq, Repr

/-- The scripts of the events `onGainExperience` and `onLoseExperience`. -/
structure Events where
  onGainExperience : Player → BitVec 64 → BitVec 64 := fun _ exp => exp
  onLoseExperience : Player → BitVec 64 → BitVec 64 := fun _ exp => exp

/-- `Player::getExpForLevel`: its argument is an `int32_t`, and it computes in `uint64_t`. -/
def getExpForLevel (lv : BitVec 32) : BitVec 64 :=
  let lv := (lv - 1).signExtend 64
  (50 * lv * lv * lv - 150 * lv * lv + 400 * lv) / 3

/-- `Player::getPercentLevel`. -/
def getPercentLevel (count nextLevelCount : BitVec 64) : BitVec 8 :=
  if nextLevelCount = 0 then 0
  else
    let result := (count * 100 / nextLevelCount).setWidth 8
    if 100 < result then 0 else result

/-- `std::max<int32_t>(0, value)`. -/
def atLeastZero (value : BitVec 32) : BitVec 32 := if value.msb then 0 else value

namespace Player

/-- What `levelPercent` becomes at the end of a change. -/
def setPercent (p : Player) (currLevelExp nextLevelExp : BitVec 64) : Player :=
  { p with
    levelPercent :=
      if currLevelExp < nextLevelExp then
        getPercentLevel (p.experience - currLevelExp) (nextLevelExp - currLevelExp)
      else 0 }

def raise (v : Vocation) (p : Player) : Player :=
  { p with
    level := p.level + 1
    healthMax := p.healthMax + v.gainHP
    manaMax := p.manaMax + v.gainMana
    capacity := p.capacity + v.gainCap }

def lower (v : Vocation) (p : Player) : Player :=
  { p with
    level := p.level - 1
    healthMax := atLeastZero (p.healthMax - v.gainHP)
    manaMax := atLeastZero (p.manaMax - v.gainMana)
    capacity := atLeastZero (p.capacity - v.gainCap) }

/-- The loop of `addExperience`, with the two bounds it leaves. -/
def advance (v : Vocation) (p : Player) (currLevelExp nextLevelExp : BitVec 64) :
    Player × BitVec 64 × BitVec 64 :=
  if nextLevelExp ≤ p.experience then
    let raised := p.raise v
    let next := getExpForLevel (raised.level + 1)
    -- the player has reached the last level
    if next ≤ nextLevelExp then (raised, nextLevelExp, next)
    else advance v raised nextLevelExp next
  else (p, currLevelExp, nextLevelExp)
  termination_by 2 ^ 64 - nextLevelExp.toNat
  decreasing_by
    rename_i hnext
    have hlt : nextLevelExp.toNat < (getExpForLevel ((p.raise v).level + 1)).toNat :=
      Nat.lt_of_not_le hnext
    have := (getExpForLevel ((p.raise v).level + 1)).isLt
    omega

/-- `Player::addExperience`. -/
def addExperience (events : Events) (v : Vocation) (p : Player) (exp : BitVec 64) : Player :=
  let currLevelExp := getExpForLevel p.level
  let nextLevelExp := getExpForLevel (p.level + 1)
  if nextLevelExp ≤ currLevelExp then { p with levelPercent := 0 }
  else
    let exp := events.onGainExperience p exp
    if exp = 0 then p
    else
      let (p, currLevelExp, nextLevelExp) :=
        advance v { p with experience := p.experience + exp } currLevelExp nextLevelExp
      p.setPercent currLevelExp nextLevelExp

/-- The loop of `removeExperience` and of `death`. -/
def downgrade (v : Vocation) (p : Player) : Player :=
  if 1 < p.level ∧ p.experience < getExpForLevel p.level then downgrade v (p.lower v) else p
  termination_by p.level.toNat
  decreasing_by
    rename_i hdown
    have hlt : 1 < p.level := hdown.1
    show (p.level - 1).toNat < p.level.toNat
    bv_omega

/-- `Player::removeExperience`: what is left is compared with 0 as an `int64_t`. -/
def removeExperience (events : Events) (v : Vocation) (p : Player) (exp : BitVec 64) : Player :=
  if p.experience = 0 ∨ exp = 0 then p
  else
    let exp := events.onLoseExperience p exp
    if exp = 0 then p
    else
      let left := p.experience - exp
      let p := downgrade v { p with experience := if left.msb then 0 else left }
      p.setPercent (getExpForLevel p.level) (getExpForLevel (p.level + 1))

/-- The loss of levels in `Player::death`, of a player who loses skills. -/
def death (events : Events) (v : Vocation) (p : Player) (expLoss : BitVec 64) : Player :=
  let expLoss := events.onLoseExperience p expLoss
  if expLoss = 0 then p
  else
    let p :=
      if v.id = VOCATION_NONE ∨ 7 < p.level then { p with experience := p.experience - expLoss }
      else p
    let p := downgrade v p
    p.setPercent (getExpForLevel p.level) (getExpForLevel (p.level + 1))

end Player

/-- The columns of `players`, which are signed numbers. -/
structure Row where
  level : Int
  experience : Int
  healthmax : Int
  manamax : Int
  cap : Int
  deriving DecidableEq, Repr

/-- What the `UPDATE` of `IOLoginData::savePlayer` writes: a number that is out of the range of its
column is refused, with the whole row. -/
def savePlayer (p : Player) (row : Row) : Row :=
  if p.level.toNat < 2 ^ 31 ∧ p.experience.toNat < 2 ^ 63 ∧ p.manaMax.toNat < 2 ^ 31 then
    ⟨p.level.toNat, p.experience.toNat, p.healthMax.toInt, p.manaMax.toNat, p.capacity.toNat / 100⟩
  else row

/-- `IOLoginData::loadPlayer`. -/
def loadPlayer (row : Row) : Player :=
  let level : BitVec 32 := if BitVec.ofInt 32 row.level = 0 then 1 else BitVec.ofInt 32 row.level
  let experience := BitVec.ofInt 64 row.experience
  let currExpCount := getExpForLevel level
  let nextExpCount := getExpForLevel (level + 1)
  let experience :=
    if experience < currExpCount ∨ nextExpCount < experience then currExpCount else experience
  { level, experience
    levelPercent :=
      if currExpCount < nextExpCount then
        getPercentLevel (experience - currExpCount) (nextExpCount - currExpCount)
      else 0
    healthMax := BitVec.ofInt 32 row.healthmax
    manaMax := BitVec.ofInt 32 row.manamax
    capacity := BitVec.ofInt 32 row.cap * 100 }

end TibServer.Experience
