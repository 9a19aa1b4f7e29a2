import TibServer.Condition
import TibServer.PropStream

/-!
Conditions as they are saved with a player and loaded again (`condition.cpp`,
`IOLoginData::savePlayer` and `IOLoginData::loadPlayer` in `iologindata.cpp`): every
class with its fields, what it writes, and what it reads back attribute by attribute.

The end of a condition is a time of day that is set when the condition starts, so it is
left out. The numbers of a formula are floats, kept as the 32 bits they are written as.
-/

namespace TibServer

namespace ConditionType

/-- All types, in the order of their bits. -/
def all : List ConditionType :=
  [poison, fire, energy, bleeding, haste, paralyze, outfit, invisible, light, manashield,
    infight, drunk, exhaustWeapon, regeneration, soul, drown, muted, channelMutedTicks,
    yellTicks, attributes, freezing, dazzled, cursed, exhaustCombat, exhaustHeal, pacified,
    spellCooldown, spellGroupCooldown]

/-- The value of the enumerator: one bit. -/
def value (t : ConditionType) : BitVec 32 := 1 <<< all.idxOf t

/-- The cases of a switch over a value that may be no type at all. -/
def ofValue (v : BitVec 32) : Option ConditionType := all.find? (·.value = v)

theorem ofValue_value (t : ConditionType) : ofValue t.value = some t := by
  cases t <;> decide

end ConditionType

structure IntervalInfo where
  timeLeft : BitVec 32
  value : BitVec 32
  interval : BitVec 32
  deriving DecidableEq

/-- `Outfit_t`. The struct ends with a byte of padding, which copies take along. -/
structure Outfit where
  lookType : BitVec 16 := 0
  lookTypeEx : BitVec 16 := 0
  lookMount : BitVec 16 := 0
  lookHead : BitVec 8 := 0
  lookBody : BitVec 8 := 0
  lookLegs : BitVec 8 := 0
  lookFeet : BitVec 8 := 0
  lookAddons : BitVec 8 := 0
  padding : BitVec 8 := 0
  deriving DecidableEq

structure ConditionAttributes where
  skills : Skill → BitVec 32 := 0
  skillsPercent : Skill → BitVec 32 := 0
  stats : Stat → BitVec 32 := 0
  statsPercent : Stat → BitVec 32 := 0
  currentSkill : Nat := 0
  currentStat : Nat := 0

structure ConditionRegeneration where
  internalHealthTicks : BitVec 32 := 0
  internalManaTicks : BitVec 32 := 0
  healthTicks : BitVec 32 := 1000
  manaTicks : BitVec 32 := 1000
  healthGain : BitVec 32 := 0
  manaGain : BitVec 32 := 0

structure ConditionSoul where
  internalSoulTicks : BitVec 32 := 0
  soulTicks : BitVec 32 := 0
  soulGain : BitVec 32 := 0

structure ConditionDamage where
  maxDamage : BitVec 32 := 0
  minDamage : BitVec 32 := 0
  startDamage : BitVec 32 := 0
  periodDamage : BitVec 32 := 0
  periodDamageTick : BitVec 32 := 0
  tickInterval : BitVec 32 := 2000
  forceUpdate : Bool := false
  delayed : Bool := false
  field : Bool := false
  owner : BitVec 32 := 0
  damageList : List IntervalInfo := []

structure ConditionSpeed where
  speedDelta : BitVec 32
  mina : BitVec 32 := 0
  minb : BitVec 32 := 0
  maxa : BitVec 32 := 0
  maxb : BitVec 32 := 0

structure ConditionLight where
  level : BitVec 8
  color : BitVec 8
  internalLightTicks : BitVec 32 := 0
  lightChangeInterval : BitVec 32 := 0

/-- The classes derived from `Condition`, with their own fields. -/
inductive ConditionData
  | generic
  | invisible
  | spellCooldown
  | spellGroupCooldown
  | attributes (d : ConditionAttributes)
  | regeneration (d : ConditionRegeneration)
  | soul (d : ConditionSoul)
  | damage (d : ConditionDamage)
  | speed (d : ConditionSpeed)
  | outfit (o : Outfit)
  | light (d : ConditionLight)

/-- A condition object; what a stream says its type is may be no type at all. -/
structure StoredCondition where
  conditionType : BitVec 32
  id : BitVec 8
  ticks : BitVec 32
  subId : BitVec 32
  isBuff : Bool
  data : ConditionData

def CONDITIONATTR_TYPE : BitVec 8 := 1
def CONDITIONATTR_ID : BitVec 8 := 2
def CONDITIONATTR_TICKS : BitVec 8 := 3
def CONDITIONATTR_HEALTHTICKS : BitVec 8 := 4
def CONDITIONATTR_HEALTHGAIN : BitVec 8 := 5
def CONDITIONATTR_MANATICKS : BitVec 8 := 6
def CONDITIONATTR_MANAGAIN : BitVec 8 := 7
def CONDITIONATTR_DELAYED : BitVec 8 := 8
def CONDITIONATTR_OWNER : BitVec 8 := 9
def CONDITIONATTR_INTERVALDATA : BitVec 8 := 10
def CONDITIONATTR_SPEEDDELTA : BitVec 8 := 11
def CONDITIONATTR_FORMULA_MINA : BitVec 8 := 12
def CONDITIONATTR_FORMULA_MINB : BitVec 8 := 13
def CONDITIONATTR_FORMULA_MAXA : BitVec 8 := 14
def CONDITIONATTR_FORMULA_MAXB : BitVec 8 := 15
def CONDITIONATTR_LIGHTCOLOR : BitVec 8 := 16
def CONDITIONATTR_LIGHTLEVEL : BitVec 8 := 17
def CONDITIONATTR_LIGHTTICKS : BitVec 8 := 18
def CONDITIONATTR_LIGHTINTERVAL : BitVec 8 := 19
def CONDITIONATTR_SOULTICKS : BitVec 8 := 20
def CONDITIONATTR_SOULGAIN : BitVec 8 := 21
def CONDITIONATTR_SKILLS : BitVec 8 := 22
def CONDITIONATTR_STATS : BitVec 8 := 23
def CONDITIONATTR_OUTFIT : BitVec 8 := 24
def CONDITIONATTR_PERIODDAMAGE : BitVec 8 := 25
def CONDITIONATTR_ISBUFF : BitVec 8 := 26
def CONDITIONATTR_SUBID : BitVec 8 := 27
def CONDITIONATTR_END : BitVec 8 := 254

namespace StoredCondition

open PropStream

variable (c : StoredCondition)

/-- `Condition::isPersistent`. -/
def isPersistent : Bool :=
  if c.ticks = -1 then false
  else decide (c.id.toInt = CONDITIONID_DEFAULT ∨ c.id.toInt = CONDITIONID_COMBAT)

/-! ### Writing -/

/-- A byte for a flag. -/
def flag (b : Bool) : BitVec 8 := if b then 1 else 0

/-- `Condition::serialize`. -/
def serializeBase : List UInt8 :=
  attr CONDITIONATTR_TYPE (write c.conditionType) ++
    attr CONDITIONATTR_ID (write (c.id.signExtend 32)) ++
    attr CONDITIONATTR_TICKS (write c.ticks) ++
    attr CONDITIONATTR_ISBUFF (write (flag c.isBuff)) ++
    attr CONDITIONATTR_SUBID (write c.subId)

def writeInterval (i : IntervalInfo) : List UInt8 :=
  write i.timeLeft ++ write i.value ++ write i.interval

def writeOutfit (o : Outfit) : List UInt8 :=
  write o.lookType ++ write o.lookTypeEx ++ write o.lookMount ++ write o.lookHead ++
    write o.lookBody ++ write o.lookLegs ++ write o.lookFeet ++ write o.lookAddons ++
    write o.padding

/-- What a class writes after the fields of its base class. -/
def serializeData : ConditionData → List UInt8
  | .generic | .invisible | .spellCooldown | .spellGroupCooldown => []
  | .attributes d =>
      ((List.ofFn d.skills).flatMap fun v => attr CONDITIONATTR_SKILLS (write v)) ++
        (List.ofFn d.stats).flatMap fun v => attr CONDITIONATTR_STATS (write v)
  | .regeneration d =>
      attr CONDITIONATTR_HEALTHTICKS (write d.healthTicks) ++
        attr CONDITIONATTR_HEALTHGAIN (write d.healthGain) ++
        attr CONDITIONATTR_MANATICKS (write d.manaTicks) ++
        attr CONDITIONATTR_MANAGAIN (write d.manaGain)
  | .soul d =>
      attr CONDITIONATTR_SOULGAIN (write d.soulGain) ++
        attr CONDITIONATTR_SOULTICKS (write d.soulTicks)
  | .damage d =>
      attr CONDITIONATTR_DELAYED (write (flag d.delayed)) ++
        attr CONDITIONATTR_PERIODDAMAGE (write d.periodDamage) ++
        d.damageList.flatMap fun i => attr CONDITIONATTR_INTERVALDATA (writeInterval i)
  | .speed d =>
      attr CONDITIONATTR_SPEEDDELTA (write d.speedDelta) ++
        attr CONDITIONATTR_FORMULA_MINA (write d.mina) ++
        attr CONDITIONATTR_FORMULA_MINB (write d.minb) ++
        attr CONDITIONATTR_FORMULA_MAXA (write d.maxa) ++
        attr CONDITIONATTR_FORMULA_MAXB (write d.maxb)
  | .outfit o => attr CONDITIONATTR_OUTFIT (writeOutfit o)
  | .light d =>
      attr CONDITIONATTR_LIGHTCOLOR (write (d.color.setWidth 32)) ++
        attr CONDITIONATTR_LIGHTLEVEL (write (d.level.setWidth 32)) ++
        attr CONDITIONATTR_LIGHTTICKS (write d.internalLightTicks) ++
        attr CONDITIONATTR_LIGHTINTERVAL (write d.lightChangeInterval)

/-- The virtual `serialize`. -/
def serialize : List UInt8 := c.serializeBase ++ serializeData c.data

/-! ### Reading -/

/-- Reading the one value of an attribute. -/
def field {α : Type} (reads : PropStream → Option (α × PropStream)) (f : α → StoredCondition)
    (s : PropStream) : Option (StoredCondition × PropStream) :=
  (reads s).map fun r => (f r.1, r.2)

/-- `Condition::unserializeProp`. -/
def unserializePropBase (attr : BitVec 8) (s : PropStream) :
    Option (StoredCondition × PropStream) :=
  if attr = CONDITIONATTR_TYPE then
    field (read 32) (fun value => { c with conditionType := value }) s
  else if attr = CONDITIONATTR_ID then
    field (read 32) (fun value => { c with id := value.setWidth 8 }) s
  else if attr = CONDITIONATTR_TICKS then
    field (read 32) (fun value => { c with ticks := value }) s
  else if attr = CONDITIONATTR_ISBUFF then
    field (read 8) (fun value => { c with isBuff := value != 0 }) s
  else if attr = CONDITIONATTR_SUBID then
    field (read 32) (fun value => { c with subId := value }) s
  else if attr = CONDITIONATTR_END then some (c, s)
  else none

def readInterval (s : PropStream) : Option (IntervalInfo × PropStream) := do
  let (timeLeft, s) ← read 32 s
  let (value, s) ← read 32 s
  let (interval, s) ← read 32 s
  return ({ timeLeft, value, interval }, s)

def readOutfit (s : PropStream) : Option (Outfit × PropStream) := do
  let (lookType, s) ← read 16 s
  let (lookTypeEx, s) ← read 16 s
  let (lookMount, s) ← read 16 s
  let (lookHead, s) ← read 8 s
  let (lookBody, s) ← read 8 s
  let (lookLegs, s) ← read 8 s
  let (lookFeet, s) ← read 8 s
  let (lookAddons, s) ← read 8 s
  let (padding, s) ← read 8 s
  return ({ lookType, lookTypeEx, lookMount, lookHead, lookBody, lookLegs, lookFeet,
            lookAddons, padding }, s)

/-- Writing to the next entry of an array; behind its end nothing is written here. -/
def setNext {n : Nat} (a : Fin n → BitVec 32) (current : Nat) (v : BitVec 32) : Fin n → BitVec 32 :=
  fun k => if k.val = current then v else a k

/-- `if (ticks != -1) setTicks(ticks + interval)`. -/
def addInterval (ticks : BitVec 32) (i : IntervalInfo) : BitVec 32 :=
  if ticks = -1 then ticks else ticks + i.interval

/-- The virtual `unserializeProp`. -/
def unserializeProp (attr : BitVec 8) (s : PropStream) : Option (StoredCondition × PropStream) :=
  match c.data with
  | .generic | .invisible | .spellCooldown | .spellGroupCooldown => c.unserializePropBase attr s
  | .attributes d =>
      if attr = CONDITIONATTR_SKILLS then
        field (read 32) (fun value => { c with data := .attributes { d with
          skills := setNext d.skills d.currentSkill value
          currentSkill := d.currentSkill + 1 } }) s
      else if attr = CONDITIONATTR_STATS then
        field (read 32) (fun value => { c with data := .attributes { d with
          stats := setNext d.stats d.currentStat value
          currentStat := d.currentStat + 1 } }) s
      else c.unserializePropBase attr s
  | .regeneration d =>
      if attr = CONDITIONATTR_HEALTHTICKS then
        field (read 32) (fun value => { c with data := .regeneration { d with healthTicks := value } }) s
      else if attr = CONDITIONATTR_HEALTHGAIN then
        field (read 32) (fun value => { c with data := .regeneration { d with healthGain := value } }) s
      else if attr = CONDITIONATTR_MANATICKS then
        field (read 32) (fun value => { c with data := .regeneration { d with manaTicks := value } }) s
      else if attr = CONDITIONATTR_MANAGAIN then
        field (read 32) (fun value => { c with data := .regeneration { d with manaGain := value } }) s
      else c.unserializePropBase attr s
  | .soul d =>
      if attr = CONDITIONATTR_SOULGAIN then
        field (read 32) (fun value => { c with data := .soul { d with soulGain := value } }) s
      else if attr = CONDITIONATTR_SOULTICKS then
        field (read 32) (fun value => { c with data := .soul { d with soulTicks := value } }) s
      else c.unserializePropBase attr s
  | .damage d =>
      if attr = CONDITIONATTR_DELAYED then
        field (read 8) (fun value => { c with data := .damage { d with delayed := value != 0 } }) s
      else if attr = CONDITIONATTR_PERIODDAMAGE then
        field (read 32) (fun value => { c with data := .damage { d with periodDamage := value } }) s
      else if attr = CONDITIONATTR_OWNER then (skip 4 s).map fun s => (c, s)
      else if attr = CONDITIONATTR_INTERVALDATA then
        field readInterval (fun damageInfo => { c with
          data := .damage { d with damageList := d.damageList ++ [damageInfo] }
          ticks := addInterval c.ticks damageInfo }) s
      else c.unserializePropBase attr s
  | .speed d =>
      if attr = CONDITIONATTR_SPEEDDELTA then
        field (read 32) (fun value => { c with data := .speed { d with speedDelta := value } }) s
      else if attr = CONDITIONATTR_FORMULA_MINA then
        field (read 32) (fun value => { c with data := .speed { d with mina := value } }) s
      else if attr = CONDITIONATTR_FORMULA_MINB then
        field (read 32) (fun value => { c with data := .speed { d with minb := value } }) s
      else if attr = CONDITIONATTR_FORMULA_MAXA then
        field (read 32) (fun value => { c with data := .speed { d with maxa := value } }) s
      else if attr = CONDITIONATTR_FORMULA_MAXB then
        field (read 32) (fun value => { c with data := .speed { d with maxb := value } }) s
      else c.unserializePropBase attr s
  | .outfit _ =>
      if attr = CONDITIONATTR_OUTFIT then
        field readOutfit (fun outfit => { c with data := .outfit outfit }) s
      else c.unserializePropBase attr s
  | .light d =>
      if attr = CONDITIONATTR_LIGHTCOLOR then
        field (read 32) (fun value => { c with data := .light { d with color := value.setWidth 8 } }) s
      else if attr = CONDITIONATTR_LIGHTLEVEL then
        field (read 32) (fun value => { c with data := .light { d with level := value.setWidth 8 } }) s
      else if attr = CONDITIONATTR_LIGHTTICKS then
        field (read 32) (fun value => { c with data := .light { d with internalLightTicks := value } }) s
      else if attr = CONDITIONATTR_LIGHTINTERVAL then
        field (read 32) (fun value => { c with data := .light { d with lightChangeInterval := value } }) s
      else c.unserializePropBase attr s

/-! What is read is gone from the stream. -/

theorem readInterval_consumes : Consumes readInterval :=
  bind_consumes (read_consumes 32) fun _ => bind_consumes (read_consumes 32) fun _ =>
    bind_consumes (read_consumes 32) fun _ => some_consumes _

theorem readOutfit_consumes : Consumes readOutfit :=
  bind_consumes (read_consumes 16) fun _ => bind_consumes (read_consumes 16) fun _ =>
    bind_consumes (read_consumes 16) fun _ => bind_consumes (read_consumes 8) fun _ =>
    bind_consumes (read_consumes 8) fun _ => bind_consumes (read_consumes 8) fun _ =>
    bind_consumes (read_consumes 8) fun _ => bind_consumes (read_consumes 8) fun _ =>
    bind_consumes (read_consumes 8) fun _ => some_consumes _

theorem field_consumes {α : Type} {reads : PropStream → Option (α × PropStream)}
    {f : α → StoredCondition} (h : Consumes reads) : Consumes (field reads f) := by
  intro s c s' e
  obtain ⟨r, here, e⟩ := Option.map_eq_some_iff.mp e
  obtain ⟨-, rfl⟩ := Prod.mk.inj e
  exact h _ _ _ here

theorem unserializePropBase_consumes (attr : BitVec 8) :
    Consumes (c.unserializePropBase attr) := by
  have word {f : BitVec 32 → StoredCondition} := field_consumes (f := f) (read_consumes 32)
  refine ite_consumes word (ite_consumes word (ite_consumes word (ite_consumes ?_
    (ite_consumes word (ite_consumes (some_consumes c) ?_)))))
  · exact field_consumes (read_consumes 8)
  · exact fun s v s' e => absurd e (by simp)

theorem unserializeProp_consumes (attr : BitVec 8) : Consumes (c.unserializeProp attr) := by
  have base := c.unserializePropBase_consumes attr
  have word {f : BitVec 32 → StoredCondition} := field_consumes (f := f) (read_consumes 32)
  unfold unserializeProp
  cases c.data with
  | generic => exact base
  | invisible => exact base
  | spellCooldown => exact base
  | spellGroupCooldown => exact base
  | attributes d => exact ite_consumes word (ite_consumes word base)
  | regeneration d =>
      exact ite_consumes word (ite_consumes word (ite_consumes word (ite_consumes word base)))
  | soul d => exact ite_consumes word (ite_consumes word base)
  | damage d =>
      refine ite_consumes (field_consumes (read_consumes 8)) (ite_consumes word
        (ite_consumes ?_ (ite_consumes (field_consumes readInterval_consumes) base)))
      intro s v s' e
      obtain ⟨rest, here, e⟩ := Option.map_eq_some_iff.mp e
      obtain ⟨-, rfl⟩ := Prod.mk.inj e
      have len := skip_length here
      omega
  | speed d =>
      exact ite_consumes word (ite_consumes word (ite_consumes word (ite_consumes word
        (ite_consumes word base))))
  | outfit o => exact ite_consumes (field_consumes readOutfit_consumes) base
  | light d =>
      exact ite_consumes word (ite_consumes word (ite_consumes word (ite_consumes word base)))

/-- `Condition::unserialize`, up to the end mark or the end of the stream. -/
def unserialize (c : StoredCondition) (s : PropStream) : Option StoredCondition × PropStream :=
  match _first : read 8 s with
  | none => (some c, s)
  | some (attr, rest) =>
      if attr = CONDITIONATTR_END then (some c, rest)
      else
        match _second : c.unserializeProp attr rest with
        | none => (none, rest)
        | some (c', rest') => unserialize c' rest'
termination_by s.length
decreasing_by
  have shorter := read_length _first
  have consumed := c.unserializeProp_consumes _ _ _ _ _second
  omega

/-! ### Creating and loading -/

/-- The class `Condition::createCondition` makes for a type. -/
def newData (type : ConditionType) (param : BitVec 32) : ConditionData :=
  match type with
  | .poison | .fire | .energy | .drown | .freezing | .dazzled | .cursed | .bleeding => .damage {}
  | .haste | .paralyze => .speed { speedDelta := param }
  | .invisible => .invisible
  | .outfit => .outfit {}
  | .light =>
      .light { level := (param &&& 0xFF).setWidth 8, color := ((param &&& 0xFF00) >>> 8).setWidth 8 }
  | .regeneration => .regeneration {}
  | .soul => .soul {}
  | .attributes => .attributes {}
  | .spellCooldown => .spellCooldown
  | .spellGroupCooldown => .spellGroupCooldown
  | .infight | .drunk | .exhaustWeapon | .exhaustCombat | .exhaustHeal | .muted
  | .channelMutedTicks | .yellTicks | .pacified | .manashield => .generic

/-- `Condition::createCondition` by type; a `ConditionDamage` is not given its ticks. -/
def createCondition (id : BitVec 8) (type ticks param : BitVec 32) (buff : Bool)
    (subId : BitVec 32) : Option StoredCondition :=
  (ConditionType.ofValue type).map fun t =>
    { conditionType := type
      id := id
      ticks := if t.isDamage then 0 else ticks
      subId := subId
      isBuff := buff
      data := newData t param }

/-- Reading the number of an attribute that must come next. -/
def expect (attr : BitVec 8) (s : PropStream) : Option PropStream := do
  let (number, s) ← read 8 s
  if number = attr then some s else none

/-- `Condition::createCondition(PropStream&)`. -/
def createFrom (s : PropStream) : Option (StoredCondition × PropStream) := do
  let s ← expect CONDITIONATTR_TYPE s
  let (type, s) ← read 32 s
  let s ← expect CONDITIONATTR_ID s
  let (id, s) ← read 32 s
  let s ← expect CONDITIONATTR_TICKS s
  let (ticks, s) ← read 32 s
  let s ← expect CONDITIONATTR_ISBUFF s
  let (buff, s) ← read 8 s
  let s ← expect CONDITIONATTR_SUBID s
  let (subId, s) ← read 32 s
  let c ← createCondition (id.setWidth 8) type ticks 0 (buff != 0) subId
  return (c, s)

theorem expect_length {attr : BitVec 8} {s s' : PropStream} (h : expect attr s = some s') :
    s'.length < s.length := by
  obtain ⟨⟨number, rest⟩, here, e⟩ := Option.bind_eq_some_iff.mp h
  have len := read_length here
  simp only at e
  split at e
  · obtain rfl := Option.some.inj e
    omega
  · exact absurd e (by simp)

theorem createFrom_length {s s' : PropStream} {c : StoredCondition}
    (h : createFrom s = some (c, s')) : s'.length < s.length := by
  simp only [createFrom, Option.bind_eq_bind, Option.bind_eq_some_iff] at h
  obtain ⟨s₁, e₁, ⟨v₂, s₂⟩, e₂, s₃, e₃, ⟨v₄, s₄⟩, e₄, s₅, e₅, ⟨v₆, s₆⟩, e₆, s₇, e₇, ⟨v₈, s₈⟩,
    e₈, s₉, e₉, ⟨v₁₀, s₁₀⟩, e₁₀, c', -, e⟩ := h
  obtain ⟨-, rfl⟩ := Prod.mk.inj (Option.some.inj e)
  have l₁ : s₁.length < s.length := expect_length e₁
  have l₂ := read_length e₂
  have l₃ : s₃.length < s₂.length := expect_length e₃
  have l₄ := read_length e₄
  have l₅ : s₅.length < s₄.length := expect_length e₅
  have l₆ := read_length e₆
  have l₇ : s₇.length < s₆.length := expect_length e₇
  have l₈ := read_length e₈
  have l₉ : s₉.length < s₈.length := expect_length e₉
  have l₁₀ := read_length e₁₀
  show s₁₀.length < s.length
  omega

theorem unserialize_length (c : StoredCondition) (s : PropStream) :
    (c.unserialize s).2.length ≤ s.length := by
  fun_induction unserialize c s with
  | case1 c s none_ => exact le_rfl
  | case2 c s rest first =>
      have len := read_length first
      show rest.length ≤ s.length
      omega
  | case3 c s attr rest first notEnd refused =>
      have len := read_length first
      show rest.length ≤ s.length
      omega
  | case4 c s attr rest first notEnd c' rest' granted ih =>
      have len := read_length first
      have consumed := c.unserializeProp_consumes _ _ _ _ granted
      omega

/-- The loop of `IOLoginData::loadPlayer`: every condition that is read goes to the
front of the list. -/
def loadAux (s : PropStream) (stored : List StoredCondition) : List StoredCondition :=
  match _here : createFrom s with
  | none => stored
  | some (c, rest) =>
      let read := c.unserialize rest
      loadAux read.2 (read.1.toList ++ stored)
termination_by s.length
decreasing_by
  exact (c.unserialize_length rest).trans_lt (createFrom_length _here)

/-- `player->storedConditionList` after `IOLoginData::loadPlayer`. -/
def loadConditions (s : PropStream) : List StoredCondition := loadAux s []

/-- The blob `IOLoginData::savePlayer` writes. -/
def saveConditions (conditions : List StoredCondition) : List UInt8 :=
  (conditions.filter isPersistent).flatMap fun c => c.serialize ++ write CONDITIONATTR_END

end StoredCondition

end TibServer
