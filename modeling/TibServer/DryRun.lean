import TibServer.Conservation

/-!
What else `Game::internalRemoveItem` writes (`game.cpp`, `item.cpp`, `house.cpp`,
`luascript.cpp`): the temporary items of the script environments, the unique items,
the doors of the houses and the items to be released. The virtual `onRemoved` runs at
the end of the function, outside the part that the test skips.
-/

namespace TibServer

/-- The registries that an item can be in besides its cylinder. `tempItems` is the
multimap of the script environments, in the order of its keys. -/
structure Registries where
  tempItems : List (Nat × ItemRef) := []
  uniqueItems : Nat → Option ItemRef := fun _ => none
  house : ItemRef → Option Nat := fun _ => none
  doorList : Nat → List ItemRef := fun _ => []
  referenceCounter : ItemRef → Nat := fun _ => 0
  toReleaseItems : List ItemRef := []
  isInternalRemoved : PlayerId → Bool := fun _ => false

namespace Registries

variable (r : Registries)

/-- `ScriptEnvironment::removeTempItem`. -/
def removeTempItem (item : ItemRef) : Registries :=
  { r with tempItems := r.tempItems.eraseP (·.2 == item) }

/-- `Game::removeUniqueItem`. -/
def removeUniqueItem (uniqueId : Nat) : Registries :=
  if (r.uniqueItems uniqueId).isSome then
    { r with uniqueItems := Function.update r.uniqueItems uniqueId none }
  else r

/-- `House::removeDoor`. -/
def removeDoor (h : Nat) (door : ItemRef) : Registries :=
  if door ∈ r.doorList h then
    { r with
      referenceCounter := Function.update r.referenceCounter door (r.referenceCounter door - 1)
      doorList := Function.update r.doorList h ((r.doorList h).erase door) }
  else r

end Registries

structure Realm where
  game : Game
  registries : Registries

namespace Realm

variable (s : Realm) (item : ItemRef)

/-- `uint16_t getUniqueId`. -/
def getUniqueId : Nat := (BitVec.ofInt 16 ((s.game.world.item item).getIntAttr .uniqueId)).toNat

/-- `Item::onRemoved`. -/
def itemOnRemoved : Realm :=
  let r := s.registries.removeTempItem item
  if (s.game.world.item item).hasAttribute .uniqueId then
    { s with registries := r.removeUniqueItem (s.getUniqueId item) }
  else { s with registries := r }

/-- The virtual `onRemoved`; only `Door` has its own. -/
def onRemoved : Realm :=
  let s' := s.itemOnRemoved item
  if (s.game.world.item item).cls = .door then
    match s.registries.house item with
    | some h => { s' with registries := s'.registries.removeDoor h item }
    | none => s'
  else s'

/-- `isRemoved`, up the parents. -/
def isRemoved : Nat → ItemRef → Bool
  | 0, _ => false
  | n + 1, i =>
      match (s.game.world.item i).parent with
      | none => true
      | some (.tile _) => false
      | some (.player p) => s.registries.isInternalRemoved p
      | some (.container c) => isRemoved n c

/-- `ReleaseItem` of an item that is removed. -/
def release : Realm :=
  if s.isRemoved s.game.world.walkFuel item then
    { s with registries.toReleaseItems := s.registries.toReleaseItems ++ [item] }
  else s

/-- `Game::internalRemoveItem`. The notification of the cylinder changes no parent, so
that the item may as well be released after it. -/
def internalRemoveItem (count : Option Nat) (test : Bool) (flags : Flags) : ReturnValue × Realm :=
  let (ret, game) := s.game.internalRemoveItem item count test flags
  if ret ≠ .noError then (ret, s)
  else
    let s := { s with game }
    let s := if test then s else s.release item
    (.noError, s.onRemoved item)

end Realm

/-! ### What the notification does -/

namespace Realm

variable {s : Realm} {item : ItemRef} {count : Option Nat} {flags : Flags}

/-- The item is in no registry: no script made it for a time, nothing is registered
under its unique id, and it is no door of a house. -/
structure Unregistered (s : Realm) (item : ItemRef) : Prop where
  temp : ∀ e ∈ s.registries.tempItems, e.2 ≠ item
  unique : (s.game.world.item item).hasAttribute .uniqueId = true →
    s.registries.uniqueItems (s.getUniqueId item) = none
  door : (s.game.world.item item).cls = .door → ∀ h, s.registries.house item = some h →
    item ∉ s.registries.doorList h

theorem removeUniqueItem_eq {r : Registries} {n : Nat} :
    (r.removeUniqueItem n).uniqueItems = r.uniqueItems ↔ r.uniqueItems n = none := by
  unfold Registries.removeUniqueItem
  split
  · next found =>
      constructor
      · intro same
        have here : Function.update r.uniqueItems n none n = r.uniqueItems n := congrFun same n
        rw [Function.update_self] at here
        exact here.symm
      · intro none
        rw [none] at found
        simp at found
  · next free => simpa using free

theorem removeDoor_eq {r : Registries} {h : Nat} {door : ItemRef} :
    (r.removeDoor h door).doorList = r.doorList ↔ door ∉ r.doorList h := by
  unfold Registries.removeDoor
  split
  · next mem =>
      refine iff_of_false (fun same => ?_) (not_not.mpr mem)
      have here : (Function.update r.doorList h ((r.doorList h).erase door) h).length =
          (r.doorList h).length := congrArg List.length (congrFun same h)
      rw [Function.update_self, List.length_erase_of_mem mem] at here
      have pos := List.length_pos_of_mem mem
      omega
  · next free => exact iff_of_true rfl free

theorem removeTempItem_eq {r : Registries} :
    (r.removeTempItem item).tempItems = r.tempItems ↔ ∀ e ∈ r.tempItems, e.2 ≠ item := by
  rw [Registries.removeTempItem, List.eraseP_eq_self_iff]
  simp

/-! Each part of the notification writes one registry. -/

section Fields

variable (r : Registries) (n : Nat)

@[simp] theorem removeUniqueItem_tempItems : (r.removeUniqueItem n).tempItems = r.tempItems := by
  unfold Registries.removeUniqueItem
  split <;> rfl

@[simp] theorem removeUniqueItem_doorList : (r.removeUniqueItem n).doorList = r.doorList := by
  unfold Registries.removeUniqueItem
  split <;> rfl

@[simp] theorem removeDoor_tempItems : (r.removeDoor n item).tempItems = r.tempItems := by
  unfold Registries.removeDoor
  split <;> rfl

@[simp] theorem removeDoor_uniqueItems : (r.removeDoor n item).uniqueItems = r.uniqueItems := by
  unfold Registries.removeDoor
  split <;> rfl

theorem removeUniqueItem_congr {r' : Registries} (h : r'.uniqueItems = r.uniqueItems) :
    (r'.removeUniqueItem n).uniqueItems = (r.removeUniqueItem n).uniqueItems := by
  unfold Registries.removeUniqueItem
  rw [h]
  split
  · rfl
  · exact h

theorem removeDoor_congr {r' : Registries} (h : r'.doorList = r.doorList) :
    (r'.removeDoor n item).doorList = (r.removeDoor n item).doorList := by
  unfold Registries.removeDoor
  rw [h]
  split
  · rfl
  · exact h

end Fields

theorem itemOnRemoved_tempItems :
    (s.itemOnRemoved item).registries.tempItems =
      (s.registries.removeTempItem item).tempItems := by
  unfold itemOnRemoved
  split
  · exact removeUniqueItem_tempItems _ _
  · rfl

theorem itemOnRemoved_uniqueItems
    (unique : (s.game.world.item item).hasAttribute .uniqueId = true) :
    (s.itemOnRemoved item).registries.uniqueItems =
      (s.registries.removeUniqueItem (s.getUniqueId item)).uniqueItems := by
  unfold itemOnRemoved
  rw [if_pos unique]
  exact removeUniqueItem_congr _ _ rfl

theorem itemOnRemoved_doorList :
    (s.itemOnRemoved item).registries.doorList = s.registries.doorList := by
  unfold itemOnRemoved
  split
  · exact removeUniqueItem_doorList _ _
  · rfl

theorem onRemoved_fields (s : Realm) (item : ItemRef) :
    (s.onRemoved item).registries.tempItems = (s.registries.removeTempItem item).tempItems ∧
      ((s.game.world.item item).hasAttribute .uniqueId = true →
        (s.onRemoved item).registries.uniqueItems =
          (s.registries.removeUniqueItem (s.getUniqueId item)).uniqueItems) ∧
      ((s.game.world.item item).cls = .door → ∀ h, s.registries.house item = some h →
        (s.onRemoved item).registries.doorList = (s.registries.removeDoor h item).doorList) := by
  refine ⟨?_, fun unique => ?_, fun door h house => ?_⟩
  · rw [← itemOnRemoved_tempItems]
    unfold onRemoved
    split
    · split
      · exact removeDoor_tempItems _ _
      · rfl
    · rfl
  · rw [← itemOnRemoved_uniqueItems unique]
    unfold onRemoved
    split
    · split
      · exact removeDoor_uniqueItems _ _
      · rfl
    · rfl
  · unfold onRemoved
    simp only [if_pos door, house]
    exact removeDoor_congr _ _ itemOnRemoved_doorList

theorem onRemoved_eq : s.onRemoved item = s ↔ s.Unregistered item := by
  obtain ⟨temp, unique, door⟩ := s.onRemoved_fields item
  constructor
  · intro same
    rw [same] at temp unique door
    exact ⟨removeTempItem_eq.mp temp.symm, fun h => removeUniqueItem_eq.mp (unique h).symm,
      fun cls h house => removeDoor_eq.mp (door cls h house).symm⟩
  · intro free
    have noTemp : s.registries.removeTempItem item = s.registries := by
      have list : s.registries.tempItems.eraseP (·.2 == item) = s.registries.tempItems :=
        removeTempItem_eq.mpr free.temp
      rw [Registries.removeTempItem, list]
    have quiet : s.itemOnRemoved item = s := by
      unfold itemOnRemoved
      rw [noTemp]
      split
      · next has =>
          simp only [Registries.removeUniqueItem, free.unique has, Option.isSome_none,
            Bool.false_eq_true, if_false]
      · rfl
    unfold onRemoved
    rw [quiet]
    split
    · next cls =>
        split
        · next h house =>
            simp only [Registries.removeDoor, free.door cls h house, if_false]
        · rfl
    · rfl

/-! ### Dry runs -/

/-- The questions that `internalRemoveItem` asks are all answered. -/
def Removable (g : Game) (item : ItemRef) (count : Option Nat) (flags : Flags) : Prop :=
  ∃ parent, g.world.getParent item = some parent ∧
    g.world.queryRemove (g.world.sourceCylinder parent) item
      (count.getD (g.world.getItemCount item)) { flags with ignoreNotMoveable := true } = .noError ∧
    (g.world.item item).canRemove = true

theorem game_dryRun (g : Game) (item : ItemRef) (count : Option Nat) (flags : Flags) :
    (g.internalRemoveItem item count true flags).2 = g ∧
      (g.internalRemoveItem item count true flags).1 =
        (g.internalRemoveItem item count false flags).1 ∧
      ((g.internalRemoveItem item count true flags).1 = .noError ↔
        Removable g item count flags) := by
  simp only [Game.internalRemoveItem, Removable]
  cases g.world.getParent item with
  | none => simp
  | some parent =>
      simp only [Option.some.injEq, exists_eq_left']
      generalize g.world.queryRemove (g.world.sourceCylinder parent) item
        (count.getD (g.world.getItemCount item)) { flags with ignoreNotMoveable := true } = ret
      by_cases ok : ret = .noError
      · by_cases can : (g.world.item item).canRemove = true
        · simp [ok, can]
        · simp [ok, can]
      · simp [ok]

/-- A dry run leaves everything as it is and answers what the real run answers. -/
structure DryRun (s : Realm) (item : ItemRef) (count : Option Nat) (flags : Flags) : Prop where
  unchanged : (s.internalRemoveItem item count true flags).2 = s
  answer : (s.internalRemoveItem item count true flags).1 =
    (s.internalRemoveItem item count false flags).1

/-- The notification runs in the test as well: an item that can be removed must be in no
registry. -/
theorem dry_run_iff (s : Realm) (item : ItemRef) (count : Option Nat) (flags : Flags) :
    DryRun s item count flags ↔ (Removable s.game item count flags → s.Unregistered item) := by
  obtain ⟨same, answer, ok⟩ := game_dryRun s.game item count flags
  have ret : ∀ test, (s.internalRemoveItem item count test flags).1 =
      (s.game.internalRemoveItem item count test flags).1 := by
    intro test
    unfold Realm.internalRemoveItem
    split
    next ret game run =>
      rw [run]
      split
      · rfl
      · next noError => exact (not_not.mp noError).symm
  have state : (s.internalRemoveItem item count true flags).2 =
      if (s.game.internalRemoveItem item count true flags).1 = .noError then s.onRemoved item
      else s := by
    unfold Realm.internalRemoveItem
    split
    next ret game run =>
      rw [run] at same
      simp only at same
      subst same
      rw [run]
      by_cases noError : ret = .noError
      · simp [noError]
      · simp [noError]
  rw [← ok, ← onRemoved_eq]
  constructor
  · rintro ⟨unchanged, -⟩ noError
    rwa [state, if_pos noError] at unchanged
  · intro quiet
    refine ⟨?_, ?_⟩
    · rw [state]
      split
      · next noError => exact quiet noError
      · rfl
    · rw [ret, ret, answer]

end Realm

/-! ### A unique item

The item of a trade is asked for in a dry run first, and is registered no longer. -/

namespace Sample

def relic : Realm where
  game := game (world
    [Item.setIntAttr { id := 1, parent := some (.tile here) } .uniqueId 5000]
    { itemList := [0], downItemCount := 1 } fun _ => none)
  registries := { uniqueItems := fun n => if n = 5000 then some 0 else none }

theorem relic_deregistered : ¬Realm.DryRun relic 0 none {} := by
  intro dry
  have registered := congrArg (fun s => s.registries.uniqueItems 5000) dry.unchanged
  revert registered
  decide

end Sample

end TibServer
