import Mathlib.Tactic
import Mathlib.Data.BitVec
import Mathlib.Algebra.BigOperators.Fin
import TibServer.ItemType

/-!
What a player wears (`movement.cpp`, `player.cpp`): the move events that put an item's abilities on
a player and take them off again, and the transformations that they set off. A handler runs again
inside the transformation of an item, so the handlers are defined with a bound on how often.
-/

namespace TibServer.Equipment

/-- `slots_t`, from `CONST_SLOT_FIRST` to `CONST_SLOT_LAST`. -/
inductive slots_t
  | HEAD | NECKLACE | BACKPACK | ARMOR | RIGHT | LEFT | LEGS | FEET | RING | AMMO | STORE_INBOX
  deriving DecidableEq

/-- The slots, as the inventory numbers them. -/
def slots_t.all : Finset slots_t :=
  {.HEAD, .NECKLACE, .BACKPACK, .ARMOR, .RIGHT, .LEFT, .LEGS, .FEET, .RING, .AMMO, .STORE_INBOX}

theorem slots_t.mem_all (slot : slots_t) : slot ∈ slots_t.all := by cases slot <;> decide

instance slotsFintype : Fintype slots_t := ⟨slots_t.all, slots_t.mem_all⟩

/-- `skills_t`, from `SKILL_FIRST` to `SKILL_LAST`. -/
inductive skills_t
  | FIST | CLUB | SWORD | AXE | DISTANCE | SHIELD | FISHING | CRITICAL_HIT_CHANCE
  | CRITICAL_HIT_DAMAGE | LIFE_LEECH_CHANCE | LIFE_LEECH_AMOUNT | MANA_LEECH_CHANCE
  | MANA_LEECH_AMOUNT
  deriving DecidableEq

/-- The loop from `SKILL_FIRST` to `SKILL_LAST`. -/
def skills_t.loop : List skills_t :=
  [.FIST, .CLUB, .SWORD, .AXE, .DISTANCE, .SHIELD, .FISHING, .CRITICAL_HIT_CHANCE,
    .CRITICAL_HIT_DAMAGE, .LIFE_LEECH_CHANCE, .LIFE_LEECH_AMOUNT, .MANA_LEECH_CHANCE,
    .MANA_LEECH_AMOUNT]

inductive stats_t
  | MAXHITPOINTS | MAXMANAPOINTS | SOULPOINTS | MAGICPOINTS
  deriving DecidableEq

/-- The loop from `STAT_FIRST` to `STAT_LAST`. -/
def stats_t.loop : List stats_t := [.MAXHITPOINTS, .MAXMANAPOINTS, .SOULPOINTS, .MAGICPOINTS]

/-! ### Items and events -/

/-- The fields of `Abilities` that `EquipItem` and `DeEquipItem` read. -/
structure Abilities where
  healthGain : BitVec 32 := 0
  healthTicks : BitVec 32 := 0
  manaGain : BitVec 32 := 0
  manaTicks : BitVec 32 := 0
  conditionSuppressions : BitVec 32 := 0
  stats : stats_t → Int := fun _ => 0
  statsPercent : stats_t → Int := fun _ => 0
  skills : skills_t → Int := fun _ => 0
  speed : Int := 0
  manaShield : Bool := false
  invisible : Bool := false
  regeneration : Bool := false

structure ItemType extends TibServer.ItemType where
  abilities : Option Abilities := none
  transformEquipTo : Nat := 0
  transformDeEquipTo : Nat := 0

inductive MoveEvent_t
  | EQUIP | DEEQUIP
  deriving DecidableEq

/-- What an event runs: one of the two functions, or a script. -/
inductive EquipFunction
  | EquipItem | DeEquipItem | script
  deriving DecidableEq

structure MoveEvent where
  equipFunction : EquipFunction
  wieldInfo : BitVec 32 := 0
  reqLevel : Nat := 0
  reqMagLevel : Nat := 0
  premium : Bool := false
  vocEquipMap : List Nat := []

/-- What the server has loaded: the item types, the event of an item id in a slot
(`MoveEvents::getEvent`), and the product of a stat and a percentage less one hundred, as the
floating point unit computes and cuts it. -/
structure Table where
  items : Nat → ItemType
  getEvent : Nat → MoveEvent_t → slots_t → Option MoveEvent
  percentOf : Int → Int → Int

namespace Table

variable (table : Table)

/-- The id of the item that `Item::CreateItem` makes, if it makes one. -/
def CreateItem (id : Nat) : Option Nat :=
  let it := (table.items id).toItemType
  if it.group == .deprecated || it.id == 0 then none
  else if it.hasClass then some id
  else some (createdId id)

/-- `Item::canTransform`: all but doors. -/
def canTransform (id : Nat) : Bool :=
  let it := (table.items id).toItemType
  !(it.isDoor && !it.isContainer)

end Table

/-! ### The player -/

/-- A regeneration condition; the times are those of the class where the item gives none. -/
structure Regeneration where
  healthGain : BitVec 32 := 0
  healthTicks : BitVec 32 := 1000
  manaGain : BitVec 32 := 0
  manaTicks : BitVec 32 := 1000

/-- The conditions without an end that have a slot for their id. -/
structure SlotConditions where
  invisible : Bool := false
  manaShield : Bool := false
  regeneration : Option Regeneration := none

/-- What a player has without his items. -/
structure Base where
  level : Nat := 1
  magLevel : Nat := 0
  healthMax : Int := 150
  manaMax : Int := 0
  vocationId : Nat := 0
  premium : Bool := false
  ignoreWeaponCheck : Bool := false

/-- `Player::getDefaultStats` -/
def Base.getDefaultStats (base : Base) : stats_t → Int
  | .MAXHITPOINTS => base.healthMax
  | .MAXMANAPOINTS => base.manaMax
  | .MAGICPOINTS => base.magLevel
  | .SOULPOINTS => 0

structure Player extends Base where
  health : Int := 150
  mana : Int := 0
  inventory : slots_t → Option Nat := fun _ => none
  inventoryAbilities : slots_t → Bool := fun _ => false
  varSkills : skills_t → Int := fun _ => 0
  varStats : stats_t → Int := fun _ => 0
  varSpeed : Int := 0
  conditionSuppressions : BitVec 32 := 0
  conditions : slots_t → SlotConditions := fun _ => {}

/-- An item that an event is about: what lies in a slot of the player, or an item that lies
elsewhere and is known by its id. -/
inductive Thing
  | inSlot (slot : slots_t)
  | elsewhere (id : Nat)

namespace Player

variable (p : Player)

def getID : Thing → Nat
  | .inSlot slot => (p.inventory slot).getD 0
  | .elsewhere id => id

def getMaxHealth : Int := max 1 (p.healthMax + p.varStats .MAXHITPOINTS)

def getMaxMana : Int := max 0 (p.manaMax + p.varStats .MAXMANAPOINTS)

def getMagicLevel : Int := max 0 (p.magLevel + p.varStats .MAGICPOINTS)

def setInventory (slot : slots_t) (id : Option Nat) : Player :=
  { p with inventory := Function.update p.inventory slot id }

def setItemAbility (slot : slots_t) (enabled : Bool) : Player :=
  { p with inventoryAbilities := Function.update p.inventoryAbilities slot enabled }

def setVarSkill (skill : skills_t) (modifier : Int) : Player :=
  { p with varSkills := Function.update p.varSkills skill (p.varSkills skill + modifier) }

/-- `Creature::changeHealth` -/
def changeHealth (healthChange : Int) : Player :=
  { p with
    health := if 0 < healthChange then p.health + min healthChange (p.getMaxHealth - p.health)
      else max 0 (p.health + healthChange) }

/-- `Creature::changeMana` -/
def changeMana (manaChange : Int) : Player :=
  { p with
    mana := if 0 < manaChange then p.mana + min manaChange (p.getMaxMana - p.mana)
      else max 0 (p.mana + manaChange) }

/-- `Player::setVarStats` -/
def setVarStats (stat : stats_t) (modifier : Int) : Player :=
  let p := { p with varStats := Function.update p.varStats stat (p.varStats stat + modifier) }
  match stat with
  | .MAXHITPOINTS =>
      if p.getMaxHealth < p.health then p.changeHealth (p.getMaxHealth - p.health) else p
  | .MAXMANAPOINTS => if p.getMaxMana < p.mana then p.changeMana (p.getMaxMana - p.mana) else p
  | _ => p

/-- `Game::changeSpeed` -/
def changeSpeed (varSpeedDelta : Int) : Player := { p with varSpeed := p.varSpeed + varSpeedDelta }

def addConditionSuppressions (conditions : BitVec 32) : Player :=
  { p with conditionSuppressions := p.conditionSuppressions ||| conditions }

def removeConditionSuppressions (conditions : BitVec 32) : Player :=
  { p with conditionSuppressions := p.conditionSuppressions &&& ~~~conditions }

/-- `Creature::addCondition` and `removeCondition` for the conditions whose id is the slot; a
condition that is there already takes over the values of the new one. -/
def setConditions (slot : slots_t) (f : SlotConditions → SlotConditions) : Player :=
  { p with conditions := Function.update p.conditions slot (f (p.conditions slot)) }

/-- The loop over the skill modifiers; `sign` is `-1` where they are taken back. -/
def modifySkills (sign : Int) (abilities : Abilities) : Player :=
  skills_t.loop.foldl (fun p skill =>
    if abilities.skills skill ≠ 0 then p.setVarSkill skill (sign * abilities.skills skill) else p) p

/-- The loop over the stat modifiers; the percentage is one of the present stat. -/
def modifyStats (table : Table) (sign : Int) (abilities : Abilities) : Player :=
  stats_t.loop.foldl (fun p stat =>
    let p := if abilities.stats stat ≠ 0 then p.setVarStats stat (sign * abilities.stats stat) else p
    if abilities.statsPercent stat ≠ 0 then
      p.setVarStats stat
        (sign * table.percentOf (p.getDefaultStats stat) (abilities.statsPercent stat))
    else p) p

end Player

/-- The regeneration condition that `EquipItem` makes. -/
def Abilities.regenerationCondition (abilities : Abilities) : Regeneration :=
  let condition : Regeneration := {}
  let condition := if abilities.healthGain ≠ 0 then
    { condition with healthGain := abilities.healthGain } else condition
  let condition := if abilities.healthTicks ≠ 0 then
    { condition with healthTicks := abilities.healthTicks } else condition
  let condition := if abilities.manaGain ≠ 0 then
    { condition with manaGain := abilities.manaGain } else condition
  if abilities.manaTicks ≠ 0 then { condition with manaTicks := abilities.manaTicks }
  else condition

/-- What `EquipItem` does once the slot is set. -/
def Player.addAbilities (table : Table) (slot : slots_t) (abilities : Abilities) (p : Player) :
    Player :=
  let p := if abilities.invisible then
    p.setConditions slot fun c => { c with invisible := true } else p
  let p := if abilities.manaShield then
    p.setConditions slot fun c => { c with manaShield := true } else p
  let p := if abilities.speed ≠ 0 then p.changeSpeed abilities.speed else p
  let p := if abilities.conditionSuppressions ≠ 0 then
    p.addConditionSuppressions abilities.conditionSuppressions else p
  let p := if abilities.regeneration then
    p.setConditions slot fun c => { c with regeneration := some abilities.regenerationCondition }
    else p
  let p := p.modifySkills 1 abilities
  p.modifyStats table 1 abilities

/-- What `DeEquipItem` does after the item is transformed. -/
def Player.removeAbilities (table : Table) (slot : slots_t) (abilities : Abilities) (p : Player) :
    Player :=
  let p := if abilities.invisible then
    p.setConditions slot fun c => { c with invisible := false } else p
  let p := if abilities.manaShield then
    p.setConditions slot fun c => { c with manaShield := false } else p
  let p := if abilities.speed ≠ 0 then p.changeSpeed (-abilities.speed) else p
  let p := if abilities.conditionSuppressions ≠ 0 then
    p.removeConditionSuppressions abilities.conditionSuppressions else p
  let p := if abilities.regeneration then
    p.setConditions slot fun c => { c with regeneration := none } else p
  let p := p.modifySkills (-1) abilities
  p.modifyStats table (-1) abilities

/-! ### Handlers -/

/-- What a handler leaves behind: its result, the item it was called with, and the player. -/
structure Fired where
  ret : Nat
  item : Thing
  player : Player

/-- The checks of `EquipItem` that lead to the result `0`. -/
def MoveEvent.isMetBy (moveEvent : MoveEvent) (p : Player) : Bool :=
  p.ignoreWeaponCheck || moveEvent.wieldInfo == 0 ||
    (moveEvent.reqLevel ≤ p.level && (moveEvent.reqMagLevel : Int) ≤ p.getMagicLevel &&
      (!moveEvent.premium || p.premium) &&
      (moveEvent.vocEquipMap.isEmpty || moveEvent.vocEquipMap.contains p.vocationId))

/-- `MoveEvents::onPlayerEquip` or `onPlayerDeEquip`. -/
abbrev Handler := MoveEvent_t → Thing → slots_t → Player → Option Fired

/-- `Game::transformItem` for an item that may lie in a slot. A count is given only by those who
keep the id of the item (`recount`). -/
def transformItem (table : Table) (fire : Handler) (item : Thing) (newId : Nat) (recount : Bool)
    (p : Player) : Option (Thing × Player) :=
  match item with
  -- what lies elsewhere changes nothing of the player
  | .elsewhere _ => some (item, p)
  | .inSlot slot =>
      let id := p.getID item
      if id = newId ∧ recount = false then some (item, p)
      else if !table.canTransform id then some (item, p)
      else if (table.items newId).id = 0 then some (item, p)
      else if (table.items id).alwaysOnTop != (table.items newId).alwaysOnTop then do
        -- the slot does not take the item back, which is lost
        let fired ← fire .DEEQUIP (.elsewhere id) slot (p.setInventory slot none)
        return (.elsewhere newId, fired.player)
      else if (table.items id).type = (table.items newId).type then do
        let fired ← fire .DEEQUIP item slot p
        let p := match fired.item with
          | .inSlot slot =>
              if id ≠ newId then fired.player.setInventory slot (some newId) else fired.player
          | .elsewhere _ => fired.player
        let fired ← fire .EQUIP fired.item slot p
        return (fired.item, fired.player)
      else
        match table.CreateItem newId with
        | none => some (item, p)
        | some created => do
            let fired ← fire .EQUIP (.inSlot slot) slot (p.setInventory slot (some created))
            let fired ← fire .DEEQUIP (.elsewhere id) slot fired.player
            return (.elsewhere id, fired.player)

/-- `EquipItem` -/
def EquipItem (table : Table) (fire : Handler) (moveEvent : MoveEvent) (item : Thing)
    (slot : slots_t) (isCheck : Bool) (p : Player) : Option Fired :=
  if p.inventoryAbilities slot then some ⟨1, item, p⟩
  else if !moveEvent.isMetBy p then some ⟨0, item, p⟩
  else if isCheck then some ⟨1, item, p⟩
  else do
    let it := table.items (p.getID item)
    let (item, p) ← if it.transformEquipTo ≠ 0 then
        transformItem table fire item it.transformEquipTo false p
      else some (item, p.setItemAbility slot true)
    match it.abilities with
    | none => return ⟨1, item, p⟩
    | some abilities => return ⟨1, item, p.addAbilities table slot abilities⟩

/-- `DeEquipItem` -/
def DeEquipItem (table : Table) (fire : Handler) (item : Thing) (slot : slots_t) (p : Player) :
    Option Fired :=
  if !p.inventoryAbilities slot then some ⟨1, item, p⟩
  else do
    let it := table.items (p.getID item)
    let p := p.setItemAbility slot false
    let (item, p) ← if it.transformDeEquipTo ≠ 0 then
        transformItem table fire item it.transformDeEquipTo false p
      else some (item, p)
    match it.abilities with
    | none => return ⟨1, item, p⟩
    | some abilities => return ⟨1, item, p.removeAbilities table slot abilities⟩

/-- `MoveEvent::fireEquip` of the event that `getEvent` finds. What a script does is its own
affair; a handler within a handler has one call less. -/
def fireEquip (table : Table) (isCheck : Bool) : Nat → Handler
  | 0, _, _, _, _ => none
  | calls + 1, eventType, item, slot, p =>
      match table.getEvent (p.getID item) eventType slot with
      | none => some ⟨1, item, p⟩
      | some moveEvent =>
          match moveEvent.equipFunction with
          | .script => some ⟨1, item, p⟩
          | .EquipItem =>
              EquipItem table (fireEquip table false calls) moveEvent item slot isCheck p
          | .DeEquipItem => DeEquipItem table (fireEquip table false calls) item slot p

/-! ### Runs -/

inductive Event
  /-- `Player::queryAdd` asks for an item that lies elsewhere. -/
  | check (slot : slots_t) (id : Nat)
  /-- An item comes into an empty slot. -/
  | addThing (slot : slots_t) (id : Nat)
  /-- The item leaves the slot. -/
  | removeThing (slot : slots_t)
  /-- A part of a stack leaves the slot. -/
  | split (slot : slots_t)
  /-- A stack in the slot grows, or the player logs in with the item. -/
  | merge (slot : slots_t)
  | moveThing (fromSlot toSlot : slots_t)
  /-- The item in the slot decays, loses a charge or is transformed by a script. -/
  | transform (slot : slots_t) (newId : Nat) (recount : Bool)
  /-- A level, a magic level, base stats, a vocation. -/
  | change (base : Base) (health mana : Int)

/-- What the event makes of the player, if the handlers come to an end within `calls` calls. -/
def perform (table : Table) (calls : Nat) (p : Player) : Event → Option Player
  | .check slot id =>
      (fireEquip table true calls .EQUIP (.elsewhere id) slot p).map Fired.player
  | .addThing slot id =>
      match p.inventory slot with
      | some _ => none
      | none =>
          (fireEquip table false calls .EQUIP (.inSlot slot) slot
            (p.setInventory slot (some id))).map Fired.player
  | .removeThing slot =>
      match p.inventory slot with
      | none => none
      | some id =>
          (fireEquip table false calls .DEEQUIP (.elsewhere id) slot
            (p.setInventory slot none)).map Fired.player
  | .split slot =>
      if p.inventory slot = none then none
      else (fireEquip table false calls .DEEQUIP (.inSlot slot) slot p).map Fired.player
  | .merge slot =>
      if p.inventory slot = none then none
      else (fireEquip table false calls .EQUIP (.inSlot slot) slot p).map Fired.player
  | .moveThing fromSlot toSlot =>
      match p.inventory fromSlot, p.inventory toSlot with
      | some id, none => do
          let p := (p.setInventory fromSlot none).setInventory toSlot (some id)
          let fired ← fireEquip table false calls .DEEQUIP (.inSlot toSlot) fromSlot p
          match fired.item with
          | .inSlot slot =>
              (fireEquip table false calls .EQUIP (.inSlot slot) slot fired.player).map Fired.player
          | .elsewhere _ => return fired.player
      | _, _ => none
  | .transform slot newId recount =>
      if p.inventory slot = none then none
      else
        (transformItem table (fireEquip table false calls) (.inSlot slot) newId recount p).map
          Prod.snd
  | .change base health mana => some { p with toBase := base, health := health, mana := mana }

end TibServer.Equipment
