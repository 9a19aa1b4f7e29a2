import Mathlib.Data.BitVec
import Mathlib.Data.List.FinRange
import Mathlib.Logic.Function.Basic

/-!
Conditions of a player (`condition.cpp`, and the condition functions of
`creature.cpp` and `player.cpp`), with what those that change skills, stats and speed
add to the player and take back.

Left out are the effects of the other conditions, what the player is told, and
scripts. Equipment and mounts change the same numbers with accounts of their own: the
player here has none. Percentages are computed with floats, and speeds from a formula
and at random, so the results come with the event that asks for them; so does what
damage over time does to its own clock.
-/

namespace TibServer

inductive ConditionType
  | poison | fire | energy | bleeding | haste | paralyze | outfit | invisible | light
  | manashield | infight | drunk | exhaustWeapon | regeneration | soul | drown | muted
  | channelMutedTicks | yellTicks | attributes | freezing | dazzled | cursed
  | exhaustCombat | exhaustHeal | pacified | spellCooldown | spellGroupCooldown
  deriving DecidableEq, Repr

namespace ConditionType

/-- The types whose conditions are `ConditionDamage`. -/
def isDamage : ConditionType → Bool
  | poison | fire | energy | drown | freezing | dazzled | cursed | bleeding => true
  | _ => false

/-- The types whose conditions are `ConditionSpeed`. -/
def isSpeed : ConditionType → Bool
  | haste | paralyze => true
  | _ => false

end ConditionType

abbrev Skill := Fin 13
abbrev Stat := Fin 4

def STAT_MAXHITPOINTS : Stat := 0
def STAT_MAXMANAPOINTS : Stat := 1
def STAT_MAGICPOINTS : Stat := 3

def CONDITIONID_DEFAULT : Int := -1
def CONDITIONID_COMBAT : Int := 0

/-- A condition with the fields of `ConditionAttributes` and `ConditionSpeed`, which
only conditions of their types use: the type decides on the class. -/
structure Condition where
  conditionType : ConditionType
  id : Int
  subId : BitVec 32
  ticks : Int
  endTime : Int := 0
  skills : Skill → BitVec 32 := 0
  skillsPercent : Skill → BitVec 32 := 0
  stats : Stat → BitVec 32 := 0
  statsPercent : Stat → BitVec 32 := 0
  speedDelta : BitVec 32 := 0

/-- What an event brings with it. -/
structure ConditionEnv where
  /-- `OTSYS_TIME`. -/
  now : Int
  walkDelay : Int
  /-- `value * ((percent - 100) / 100.f)`, cut to an integer. -/
  percentOf : Int → BitVec 32 → BitVec 32
  /-- A random speed between the values of the formula. -/
  rolled : BitVec 32
  /-- Whether a `ConditionDamage` starts. -/
  damageStarts : Bool
  /-- The ticks and the end of a `ConditionDamage` that is merged with another. -/
  damageMerged : Condition → Condition → Int × Int
  /-- The same when it is executed, and whether it goes on. -/
  damageExecuted : Condition → Int × Int × Bool

namespace Condition

variable (c : Condition)

/-- What a condition is found by. -/
def key : ConditionType × Int × BitVec 32 := (c.conditionType, c.id, c.subId)

def setTicks (newTicks now : Int) : Condition :=
  { c with ticks := newTicks, endTime := newTicks + now }

def isPersistent : Bool :=
  if c.ticks = -1 then false
  else decide (c.id = CONDITIONID_DEFAULT ∨ c.id = CONDITIONID_COMBAT)

/-- `Condition::updateCondition`: whether another condition may take over. -/
def updateCondition (addCondition : Condition) (now : Int) : Bool :=
  if c.conditionType ≠ addCondition.conditionType then false
  else if c.ticks = -1 ∧ addCondition.ticks > 0 then false
  else if addCondition.ticks ≥ 0 ∧ c.endTime > now + addCondition.ticks then false
  else true

/-- `Condition::executeCondition`: the clock goes on, and whether time is left. -/
def executeCondition (interval now : Int) : Condition × Bool :=
  if c.ticks = -1 then (c, true)
  else ({ c with ticks := max 0 (c.ticks - interval) }, decide (c.endTime ≥ now))

end Condition

/-- The conditions of a player, and the numbers they change. -/
structure Bearer where
  conditions : List Condition := []
  varSkills : Skill → BitVec 32 := 0
  varStats : Stat → BitVec 32 := 0
  varSpeed : BitVec 32 := 0
  baseSpeed : BitVec 32
  /-- The levels of the skills. -/
  skills : Skill → BitVec 32
  healthMax : BitVec 32
  manaMax : BitVec 32
  magLevel : BitVec 32
  health : BitVec 32
  mana : BitVec 32
  isSuppress : ConditionType → Bool

/-- `std::max<int32_t>` and `std::min<int32_t>`. -/
def smax (a b : BitVec 32) : BitVec 32 := if a.slt b then b else a
def smin (a b : BitVec 32) : BitVec 32 := if b.slt a then b else a

namespace Bearer

variable (b : Bearer)

/-! ### The numbers -/

def getMaxHealth : BitVec 32 := smax 1 (b.healthMax + b.varStats STAT_MAXHITPOINTS)
def getMaxMana : BitVec 32 := smax 0 (b.manaMax + b.varStats STAT_MAXMANAPOINTS)
def getMagicLevel : BitVec 32 := smax 0 (b.magLevel + b.varStats STAT_MAGICPOINTS)

def changeHealth (healthChange : BitVec 32) : Bearer :=
  { b with health :=
      if (0 : BitVec 32).slt healthChange then
        b.health + smin healthChange (b.getMaxHealth - b.health)
      else smax 0 (b.health + healthChange) }

def changeMana (manaChange : BitVec 32) : Bearer :=
  { b with mana :=
      if (0 : BitVec 32).slt manaChange then b.mana + smin manaChange (b.getMaxMana - b.mana)
      else smax 0 (b.mana + manaChange) }

def setVarSkill (skill : Skill) (modifier : BitVec 32) : Bearer :=
  { b with varSkills := Function.update b.varSkills skill (b.varSkills skill + modifier) }

def addVarStat (stat : Stat) (modifier : BitVec 32) : Bearer :=
  { b with varStats := Function.update b.varStats stat (b.varStats stat + modifier) }

/-- Health and mana above their new limits are cut. -/
def setVarStats (stat : Stat) (modifier : BitVec 32) : Bearer :=
  let b := b.addVarStat stat modifier
  if stat = STAT_MAXHITPOINTS then
    if b.getMaxHealth.slt b.health then b.changeHealth (b.getMaxHealth - b.health) else b
  else if stat = STAT_MAXMANAPOINTS then
    if b.getMaxMana.ult b.mana then b.changeMana (b.getMaxMana - b.mana) else b
  else b

def getSpeed : BitVec 32 := b.baseSpeed + b.varSpeed

/-- `Game::changeSpeed`. -/
def changeSpeed (varSpeedDelta : BitVec 32) : Bearer :=
  { b with varSpeed := b.getSpeed - b.baseSpeed + varSpeedDelta }

/-! ### Attributes -/

/-- `ConditionAttributes::updatePercentSkills` and `updatePercentStats`. -/
def updatePercentSkills (c : Condition) (env : ConditionEnv) : Condition :=
  { c with skills := fun i =>
      if c.skillsPercent i = 0 then c.skills i
      else env.percentOf (b.skills i).toNat (c.skillsPercent i) }

def updatePercentStats (c : Condition) (env : ConditionEnv) : Condition :=
  { c with stats := fun i =>
      if c.statsPercent i = 0 then c.stats i
      else if i = STAT_MAXHITPOINTS then env.percentOf b.getMaxHealth.toInt (c.statsPercent i)
      else if i = STAT_MAXMANAPOINTS then env.percentOf b.getMaxMana.toNat (c.statsPercent i)
      else if i = STAT_MAGICPOINTS then env.percentOf b.getMagicLevel.toNat (c.statsPercent i)
      else c.stats i }

def updateSkills (c : Condition) : Bearer :=
  (List.finRange 13).foldl
    (fun b i => if c.skills i ≠ 0 then b.setVarSkill i (c.skills i) else b) b

def updateStats (c : Condition) : Bearer :=
  (List.finRange 4).foldl
    (fun b i => if c.stats i ≠ 0 then b.setVarStats i (c.stats i) else b) b

/-- The percentages are computed and everything is added, the skills first. -/
def applyAttributes (c : Condition) (env : ConditionEnv) : Condition × Bearer :=
  let c := b.updatePercentSkills c env
  let b := b.updateSkills c
  let c := b.updatePercentStats c env
  (c, b.updateStats c)

/-- `ConditionAttributes::endCondition`. -/
def endAttributes (c : Condition) : Bearer :=
  let b := (List.finRange 13).foldl (fun b i =>
    if c.skills i ≠ 0 ∨ c.skillsPercent i ≠ 0 then b.setVarSkill i (-c.skills i) else b) b
  (List.finRange 4).foldl
    (fun b i => if c.stats i ≠ 0 then b.setVarStats i (-c.stats i) else b) b

/-! ### Start, merge and end -/

/-- `startCondition` of each class: no answer when it refuses. -/
def startCondition (c : Condition) (env : ConditionEnv) : Option (Condition × Bearer) :=
  let c := { c with endTime := if c.ticks > 0 then c.ticks + env.now else c.endTime }
  if c.conditionType = .attributes then some (b.applyAttributes c env)
  else if c.conditionType.isSpeed then
    let c := { c with speedDelta := if c.speedDelta = 0 then env.rolled else c.speedDelta }
    some (c, b.changeSpeed c.speedDelta)
  else if c.conditionType.isDamage then if env.damageStarts then some (c, b) else none
  else some (c, b)

def endCondition (c : Condition) : Bearer :=
  if c.conditionType = .attributes then b.endAttributes c
  else if c.conditionType.isSpeed then b.changeSpeed (-c.speedDelta)
  else b

/-- `addCondition` of each class: what becomes of a condition that another one of the
same type is added to. -/
def mergeCondition (c addCondition : Condition) (env : ConditionEnv) : Condition × Bearer :=
  if c.conditionType = .attributes then
    if c.updateCondition addCondition env.now then
      (b.endCondition c).applyAttributes
        { c.setTicks addCondition.ticks env.now with
          skills := addCondition.skills
          skillsPercent := addCondition.skillsPercent
          stats := addCondition.stats
          statsPercent := addCondition.statsPercent } env
    else (c, b)
  else if c.conditionType.isSpeed then
    if c.conditionType ≠ addCondition.conditionType then (c, b)
    else if c.ticks = -1 ∧ addCondition.ticks > 0 then (c, b)
    else
      let speedDelta :=
        if addCondition.speedDelta = 0 then env.rolled else addCondition.speedDelta
      ({ c.setTicks addCondition.ticks env.now with speedDelta },
        if speedDelta - c.speedDelta ≠ 0 then b.changeSpeed (speedDelta - c.speedDelta) else b)
  else if c.conditionType.isDamage then
    let clock := env.damageMerged c addCondition
    ({ c with ticks := clock.1, endTime := clock.2 }, b)
  else if c.updateCondition addCondition env.now then
    (c.setTicks addCondition.ticks env.now, b)
  else (c, b)

def executeCondition (c : Condition) (interval : Int) (env : ConditionEnv) : Condition × Bool :=
  if c.conditionType.isDamage then
    let clock := env.damageExecuted c
    ({ c with ticks := clock.1, endTime := clock.2.1 }, clock.2.2)
  else c.executeCondition interval env.now

/-! ### The list of conditions -/

def hasCondition (type : ConditionType) (now : Int) : Bool :=
  !b.isSuppress type &&
    b.conditions.any fun c =>
      decide (c.conditionType = type) && decide (c.subId = 0) && decide (c.endTime ≥ now)

/-- The loop of `removeCondition`: conditions are taken out and end, one after the
other; a paralysis that may not go yet stops it. -/
def removeLoop (goes : Condition → Bool) (stops : Bool) :
    List Condition → Bearer → List Condition × Bearer
  | [], b => ([], b)
  | c :: rest, b =>
    if goes c then
      if stops then (c :: rest, b) else removeLoop goes stops rest (b.endCondition c)
    else
      let after := removeLoop goes stops rest b
      (c :: after.1, after.2)

def removeWhere (goes : Condition → Bool) (stops : Bool) : Bearer :=
  let after := removeLoop goes stops b.conditions b
  { after.2 with conditions := after.1 }

/-- Whether a paralysis has to stay until the player has taken his step. -/
def mustStay (type : ConditionType) (force : Bool) (env : ConditionEnv) : Bool :=
  !force && decide (type = .paralyze) && decide (env.walkDelay > 0)

/-- `Creature::removeCondition` by type. -/
def removeType (type : ConditionType) (force : Bool) (env : ConditionEnv) : Bearer :=
  b.removeWhere (fun c => c.conditionType = type) (mustStay type force env)

/-- `Creature::removeCondition` by type and id. -/
def removeTypeId (type : ConditionType) (id : Int) (force : Bool) (env : ConditionEnv) : Bearer :=
  b.removeWhere (fun c => c.conditionType = type ∧ c.id = id) (mustStay type force env)

/-- `Creature::removeCondition` of the condition at a place of the list. -/
def removeAt (n : Nat) (force : Bool) (env : ConditionEnv) : Bearer :=
  match b.conditions[n]? with
  | none => b
  | some c =>
    if mustStay c.conditionType force env then b
    else ({ b with conditions := b.conditions.eraseIdx n } : Bearer).endCondition c

/-- What the death of a player does to his conditions. -/
def removePersistent : Bearer := b.removeWhere Condition.isPersistent false

/-- Haste and paralysis drive each other out. -/
def onAddCondition (type : ConditionType) (env : ConditionEnv) : Bearer :=
  if type = .paralyze ∧ b.hasCondition .haste env.now = true then b.removeType .haste false env
  else if type = .haste ∧ b.hasCondition .paralyze env.now = true then
    b.removeType .paralyze false env
  else b

/-- `Creature::addCondition`. -/
def addCondition (c : Condition) (force : Bool) (env : ConditionEnv) : Bearer :=
  if !force && decide (c.conditionType = .haste) && b.hasCondition .paralyze env.now &&
      decide (env.walkDelay > 0) then b
  else
    match b.conditions.findIdx? (fun prev => decide (prev.key = c.key)) with
    | some n =>
      match b.conditions[n]? with
      | none => b
      | some prevCond =>
        let merged := b.mergeCondition prevCond c env
        { merged.2 with conditions := b.conditions.set n merged.1 }
    | none =>
      match b.startCondition c env with
      | none => b
      | some started =>
        ({ started.2 with conditions := b.conditions ++ [started.1] } : Bearer).onAddCondition
          c.conditionType env

/-- The loop of `Creature::executeConditions`. -/
def executeLoop (interval : Int) (env : ConditionEnv) :
    List Condition → Bearer → List Condition × Bearer
  | [], b => ([], b)
  | c :: rest, b =>
    let executed := executeCondition c interval env
    if executed.2 then
      let after := executeLoop interval env rest b
      (executed.1 :: after.1, after.2)
    else executeLoop interval env rest (b.endCondition executed.1)

def executeConditions (interval : Int) (env : ConditionEnv) : Bearer :=
  let after := executeLoop interval env b.conditions b
  { after.2 with conditions := after.1 }

/-! ### Runs -/

inductive Event
  | add (c : Condition) (force : Bool) (env : ConditionEnv)
  | removeType (type : ConditionType) (force : Bool) (env : ConditionEnv)
  | removeTypeId (type : ConditionType) (id : Int) (force : Bool) (env : ConditionEnv)
  | removeAt (n : Nat) (force : Bool) (env : ConditionEnv)
  | execute (interval : Int) (env : ConditionEnv)
  | death
  /-- `setTicks` of a condition that is kept until the next action. -/
  | setTicks (n : Nat) (newTicks now : Int)
  /-- The skills and stats that the player has of his own change. -/
  | advance (skills : Skill → BitVec 32) (healthMax manaMax magLevel baseSpeed : BitVec 32)
  /-- Health and mana change. -/
  | drain (healthChange manaChange : BitVec 32)
  | suppress (isSuppress : ConditionType → Bool)

def step : Event → Bearer
  | .add c force env => b.addCondition c force env
  | .removeType type force env => b.removeType type force env
  | .removeTypeId type id force env => b.removeTypeId type id force env
  | .removeAt n force env => b.removeAt n force env
  | .execute interval env => b.executeConditions interval env
  | .death => b.removePersistent
  | .setTicks n newTicks now =>
    { b with conditions := b.conditions.modify n fun c => c.setTicks newTicks now }
  | .advance skills healthMax manaMax magLevel baseSpeed =>
    { b with skills, healthMax, manaMax, magLevel, baseSpeed }
  | .drain healthChange manaChange => (b.changeHealth healthChange).changeMana manaChange
  | .suppress isSuppress => { b with isSuppress }

end Bearer

end TibServer
