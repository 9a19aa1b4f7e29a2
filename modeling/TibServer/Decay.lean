import TibServer.ItemType

/-!
Decaying items (`game.cpp`, `item.cpp`): the items that wait to be sorted in, the wheel of four
buckets, and the references that count how often an item is used.

An item is seen by what its decay needs. Where it lies is left to the cylinders: an item has a
parent or not, and what the parent answers to a call is an input. `startDecay` and
`internalDecayItem` call each other as long as items turn into items whose time is up, and are run
on fuel. A tick is taken item by item: what scripts do while one item turns into another may come
between the items.
-/

namespace TibServer.Decay

abbrev Ref := Nat

inductive ItemDecayState
  | false | true | pending
  deriving DecidableEq, Repr

structure Item where
  id : Nat
  decaying : ItemDecayState := .false
  duration : Option (BitVec 32) := none
  hasUniqueId : Bool := false
  hasCharges : Bool := false
  subType : Nat := 1
  canTransform : Bool := true
  /-- `parent != nullptr`, and whether that parent is removed itself. -/
  hasParent : Bool := true
  parentRemoved : Bool := false
  referenceCounter : Nat := 1

/-- `it` is the bucket that is looked through, with what stays in it and what is to come. -/
structure Tick where
  bucket : Nat
  kept : List Ref
  coming : List Ref

structure State where
  item : Ref → Item
  next : Ref := 0
  decayItems : Nat → List Ref := fun _ => []
  toDecayItems : List Ref := []
  lastBucket : Nat := 0
  toReleaseItems : List Ref := []
  ticking : Option Tick := none
  /-- The references that are not owned by the lists: that of the parent of an item and those of
  the rest of the game. Nothing reads it. -/
  held : Ref → Nat := fun _ => 0

def EVENT_DECAYINTERVAL : Nat := 250
def EVENT_DECAY_BUCKETS : Nat := 4

/-- What the cylinders answer while an item is transformed or removed: whether `getThingIndex` finds
it, whether `addThing` takes it back, and whether `queryRemove` and `canRemove` allow it to go. -/
structure Answers where
  indexFound : Bool := true
  takenBack : Bool := true
  mayRemove : Bool := true

namespace Item

variable (items : Items) (i : Item)

def isRemoved : Bool := !i.hasParent || i.parentRemoved

/-- `getIntAttr` of an attribute that is not there is 0. -/
def getDuration : BitVec 32 := i.duration.getD 0

def newDuration (it : ItemType) : BitVec 32 := BitVec.ofNat 32 (it.decayTime * 1000)

/-- `Item::canDecay`. -/
def canDecay : Bool :=
  let it := items.type i.id
  !i.isRemoved && !(decide (it.decayTo < 0) || it.decayTime == 0) && !i.hasUniqueId

/-- `Item::setSubType`. -/
def setSubType (n : Nat) : Item :=
  let it := items.type i.id
  { i with
    subType := n
    hasCharges := i.hasCharges ||
      (!it.isFluidContainer && !it.isSplash && !it.stackable && it.charges != 0) }

/-- `Item::setDefaultSubtype`. -/
def setDefaultSubtype : Item :=
  let it := items.type i.id
  if it.charges = 0 then { i with subType := 1 }
  else if it.stackable then { i with subType := it.charges }
  else { i with subType := it.charges, hasCharges := true }

/-- `Item::setID`. -/
def setID (newid : Nat) : Item :=
  let prevIt := items.type i.id
  let it := items.type newid
  let i := { i with id := newid }
  let i :=
    if newDuration it = 0 ∧ it.stopTime = false ∧ it.decayTo < 0 then
      { i with decaying := .false, duration := none }
    else i
  if newDuration it ≠ 0 ∧ (prevIt.stopTime = false ∨ i.duration = none) then
    { i with decaying := .false, duration := some (newDuration it) }
  else i

/-- `setID`, and `setSubType` where there is a count. -/
def setIDAndCount (newId : Nat) : Option Nat → Item
  | some count => (i.setID items newId).setSubType items count
  | none => i.setID items newId

/-- `updateThing` of the cylinders, after the default subtype where the group changes. -/
def updated (itemId count : Nat) (defaultSubtype : Bool) : Item :=
  ((if defaultSubtype then i.setDefaultSubtype items else i).setID items itemId).setSubType items
    count

end Item

/-- `Item::CreateItem`, and the parent that takes the item. -/
def createItem (items : Items) (type count : Nat) : Option Item :=
  let it := items.type type
  if it.group = .deprecated ∨ it.id = 0 then none
  else
    let id := if it.hasClass then type else createdId type
    let duration := Item.newDuration (items.type id)
    let count := if it.stackable && count == 0 then 1 else count
    some
      { id, subType := if count ≠ 0 then count else if it.charges ≠ 0 then it.charges else 1
        hasCharges := !it.stackable && it.charges != 0
        duration := if duration = 0 then none else some duration }

namespace State

variable (s : State)

def updateItem (i : Ref) (f : Item → Item) : State :=
  { s with item := Function.update s.item i (f (s.item i)) }

/-- `Game::ReleaseItem` of a reference that is not owned by a list. -/
def releaseHeld (i : Ref) : State :=
  { s with
    toReleaseItems := s.toReleaseItems ++ [i]
    held := Function.update s.held i (s.held i - 1) }

/-- `Game::ReleaseItem` of the reference that a list owned. -/
def releaseListed (i : Ref) : State := { s with toReleaseItems := s.toReleaseItems ++ [i] }

/-- An object that comes into being. -/
def allocate (new : Item) : State :=
  { s with
    item := Function.update s.item s.next new
    held := Function.update s.held s.next 1
    next := s.next + 1 }

def pushBack (bucket : Nat) (i : Ref) : State :=
  { s with decayItems := Function.update s.decayItems bucket (s.decayItems bucket ++ [i]) }

end State

/-! ### Transforming and removing -/

section Operations

variable (items : Items)

/-- What `Game::transformItem` does to an item: it returns the item or a null pointer as it is, it
removes it, takes it off and puts it back under another id, gives it another id where it is, or puts
another item in its place. -/
inductive Change
  | returned
  | null
  | removed
  | readded (newId : Nat) (newCount : Option Nat)
  | updated (itemId count : Nat) (defaultSubtype : Bool)
  | replaced (newId : Nat) (newCount : Option Nat)
  deriving DecidableEq, Repr

/-- The cases of `Game::transformItem`, with what it does where it calls itself; `newCount` is -1
where it is none. -/
def changeWith (again : Change) (ans : Answers) (item : Item) (newId : Nat)
    (newCount : Option Nat) : Change :=
  let curType := items.type item.id
  let newType := items.type newId
  if item.id = newId ∧ (newCount = none ∨ newCount = some item.subType ∧ newCount ≠ some 0) then
    .returned
  else if item.hasParent = false then .null
  else if ans.indexFound = false then .returned
  else if item.canTransform = false then .returned
  else if newType.id = 0 then .returned
  else if curType.alwaysOnTop ≠ newType.alwaysOnTop then .readded newId newCount
  else if curType.type = newType.type then
    if newCount = some 0 ∧ (curType.stackable = true ∨ item.hasCharges = true) then
      if curType.stackable then .removed
      else
        let newItemId : Int := if curType.id = newType.id then curType.decayTo else newId
        if newItemId ≤ 0 then .removed
        else if newItemId ≠ newId then .replaced (newItemId.toNat % 65536) (some 1)
        else again
    else
      let count :=
        match newCount with
        | some count => if newType.hasSubType then count else item.subType
        | none => item.subType
      .updated (if curType.id ≠ newType.id then newId else item.id) count
        (curType.id ≠ newType.id && newType.group != curType.group)
  else .replaced newId newCount

/-- `Game::transformItem` calls itself without a count, and then not again. -/
def change (ans : Answers) (item : Item) (newId : Nat) (newCount : Option Nat) : Change :=
  changeWith items (changeWith items .returned ans item newId none) ans item newId newCount

/-- `Game::internalRemoveItem` of the whole item. -/
def internalRemoveItem (ans : Answers) (s : State) (i : Ref) : State :=
  if (s.item i).hasParent = false then s
  else if ans.mayRemove = false then s
  else (s.updateItem i fun item => { item with hasParent := false }).releaseHeld i

/-- What a change does, and what `transformItem` returns. -/
def apply (ans : Answers) (s : State) (i : Ref) : Change → State × Option Ref
  | .returned => (s, some i)
  | .null => (s, none)
  | .removed => (internalRemoveItem ans s i, none)
  | .readded newId newCount =>
      let s := s.updateItem i fun item => item.setIDAndCount items newId newCount
      if ans.takenBack then (s, some i)
      else ((s.updateItem i fun item => { item with hasParent := false }).releaseHeld i, none)
  | .updated itemId count defaultSubtype =>
      (s.updateItem i fun item => item.updated items itemId count defaultSubtype, some i)
  | .replaced newId newCount =>
      match createItem items newId (newCount.getD 0) with
      | none => (s, none)
      | some new =>
          (((s.updateItem i fun item => { item with hasParent := false }).releaseHeld i).allocate new,
            some s.next)

/-- `Game::transformItem`. -/
def transformItem (ans : Answers) (s : State) (i : Ref) (newId : Nat) (newCount : Option Nat) :
    State × Option Ref :=
  apply items ans s i (change items ans (s.item i) newId newCount)

/-! ### Decay -/

/-- `Game::internalDecayItem`, with the `startDecay` it calls. -/
def internalDecayItem (start : State → Option Ref → Option State) (ans : Answers) (s : State)
    (i : Ref) : Option State :=
  let it := items.type (s.item i).id
  if it.decayTo ≠ 0 then
    let (s, newItem) := transformItem items ans s i (it.decayTo % 65536).toNat none
    start s newItem
  else some (internalRemoveItem ans s i)

/-- The item is put on the list of those that start to decay. -/
def pushFront (s : State) (i : Ref) : State :=
  { s.updateItem i fun item =>
      { item with decaying := .true, referenceCounter := item.referenceCounter + 1 } with
    toDecayItems := i :: s.toDecayItems }

/-- `Game::startDecay`. -/
def startDecay (ans : Nat → Answers) : Nat → State → Option Ref → Option State
  | 0, _, _ => none
  | _ + 1, s, none => some s
  | fuel + 1, s, some i =>
      if !(s.item i).canDecay items then some s
      else if (s.item i).decaying = .true then some s
      else if (s.item i).getDuration ≠ 0 then some (pushFront s i)
      else internalDecayItem items (startDecay ans fuel) (ans fuel) s i

/-- An item that started to decay gets its bucket. -/
def sortIn (s : State) (i : Ref) : State :=
  let dur := (s.item i).getDuration.toNat
  if EVENT_DECAYINTERVAL * EVENT_DECAY_BUCKETS ≤ dur then s.pushBack s.lastBucket i
  else s.pushBack ((s.lastBucket + 1 + dur / 1000) % EVENT_DECAY_BUCKETS) i

/-- `Game::cleanup`: an item whose counter comes to 0 is gone. -/
def cleanup (s : State) : State :=
  let sorted := s.toDecayItems.foldl sortIn s
  { sorted with
    item := fun i => { s.item i with
      referenceCounter := (s.item i).referenceCounter - s.toReleaseItems.count i }
    toReleaseItems := []
    toDecayItems := [] }

/-- `Game::checkDecay` up to its loop. -/
def checkDecay (s : State) : State :=
  let bucket := (s.lastBucket + 1) % EVENT_DECAY_BUCKETS
  { s with
    ticking := some ⟨bucket, [], s.decayItems bucket⟩
    decayItems := Function.update s.decayItems bucket [] }

/-- `std::min<int32_t>(EVENT_DECAYINTERVAL * EVENT_DECAY_BUCKETS, duration)`. -/
def decreaseTime (duration : BitVec 32) : Int :=
  min ((EVENT_DECAYINTERVAL * EVENT_DECAY_BUCKETS : Nat) : Int) duration.toInt

/-- What the loop does with an item: it drops it, it keeps it in its bucket, it moves it to
another one, or its time is up. -/
inductive Turn
  | drop
  | keep
  | move (bucket : Nat)
  | decay
  deriving DecidableEq, Repr

def turn (item : Item) (bucket : Nat) : Turn :=
  let duration := item.getDuration.toInt - decreaseTime item.getDuration
  if !item.canDecay items then .drop
  else if duration ≤ 0 then .decay
  else if duration < EVENT_DECAYINTERVAL * EVENT_DECAY_BUCKETS then
    let newBucket :=
      (bucket + (duration.toNat + EVENT_DECAYINTERVAL / 2) / 1000) % EVENT_DECAY_BUCKETS
    if newBucket = bucket then .decay else .move newBucket
  else .keep

/-- The item that comes next is taken off its bucket, with its duration decreased. -/
def takeNext (s : State) (tick : Tick) (i : Ref) (coming : List Ref) : State :=
  { s.updateItem i fun item =>
      { item with
        duration := some (item.getDuration - BitVec.ofInt 32 (decreaseTime item.getDuration)) } with
    ticking := some { tick with coming } }

/-- One round of the loop of `Game::checkDecay`. -/
def checkItem (ans : Nat → Answers) (fuel : Nat) (s : State) (tick : Tick) (i : Ref)
    (coming : List Ref) : Option State :=
  let taken := takeNext s tick i coming
  match turn items (s.item i) tick.bucket with
  | .drop =>
      let s := { s with ticking := some { tick with coming } }
      some ((s.updateItem i fun item => { item with decaying := .false }).releaseListed i)
  | .keep => some { taken with ticking := some { tick with kept := tick.kept ++ [i], coming } }
  | .move bucket => some (taken.pushBack bucket i)
  | .decay =>
      (internalDecayItem items (startDecay items ans fuel) (ans fuel) taken i).map
        (·.releaseListed i)

/-- The end of `Game::checkDecay`. -/
def endCheck (s : State) (tick : Tick) : State :=
  cleanup
    { s with
      ticking := none
      lastBucket := tick.bucket
      decayItems := Function.update s.decayItems tick.bucket
        (tick.kept ++ s.decayItems tick.bucket) }

end Operations

end TibServer.Decay
