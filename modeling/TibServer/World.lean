import TibServer.ItemType

/-!
Things and cylinders (`thing.h`, `cylinder.h`, `item.h`, `container.h`, `tile.h`,
`player.h`): the state on which the item operations of the game work.

Items live in a store and refer to each other by reference, as the pointers of
the source do: an item knows its parent, a container the list of its items.
Movement scripts and events are not modelled (they do nothing); the answer of
`MoveEvents::onPlayerEquip` in check mode is a parameter. Teleports, trash
holders and mailboxes are items here, never destinations, and a script's
virtual cylinder is no parent at all.
-/

namespace TibServer

abbrev ItemRef := Nat
abbrev PlayerId := Nat
abbrev CreatureId := Nat

/-- The values of `ReturnValue` that the modelled functions return. -/
inductive ReturnValue
  | noError | notPossible | notEnoughRoom | cannotThrow | notMoveable
  | dropTwoHandedItem | bothHandsNeedToBeFree | canOnlyUseOneWeapon | needExchange
  | cannotBeDressed | putThisObjectInYourHand | putThisObjectInBothHands
  | containerNotEnoughRoom | notEnoughCapacity | cannotPickup | thisIsImpossible
  | depotIsFull | canOnlyUseOneShield | firstGoDownStairs | firstGoUpStairs | thereIsNoWay
  | creatureIsNotReachable | youAreAlreadyTrading | thisPlayerIsAlreadyTrading
  deriving DecidableEq, Repr

/-- `cylinderflags_t`, one field a bit. -/
structure Flags where
  noLimit : Bool := false
  ignoreBlockItem : Bool := false
  ignoreBlockCreature : Bool := false
  childIsOwner : Bool := false
  pathfinding : Bool := false
  ignoreFieldDamage : Bool := false
  ignoreNotMoveable : Bool := false
  ignoreAutoStack : Bool := false
  deriving DecidableEq, Repr

def INDEX_WHEREEVER : Int := -1

structure Position where
  x : Nat
  y : Nat
  z : Nat
  deriving DecidableEq, Repr

/-- What a thing's parent can be. -/
inductive Cylinder
  | tile (pos : Position)
  | player (p : PlayerId)
  | container (c : ItemRef)
  deriving DecidableEq, Repr

/-- The classes derived from `Container`, with their own data. `browseField` is
the container over the items of a tile that `Container(Tile*)` makes; it is a
view of the tile, whose list is not stored. -/
inductive ContainerKind
  | plain
  | depotChest (maxDepotItems : Nat)
  | depotLocker
  | inbox
  | reward
  | rewardChest
  | browseField
  deriving DecidableEq, Repr

/-- A container: its size is a 32-bit number, and its class decides whether
rewards and reward chests are shown in pages. -/
structure Container where
  kind : ContainerKind := .plain
  maxSize : Nat
  unlocked : Bool := true
  pagination : Bool := false
  itemlist : List ItemRef := []
  totalWeight : BitVec 32 := 0
  maxSize_lt : maxSize < 2 ^ 32 := by decide
  rewards_paginated : kind = .reward ∨ kind = .rewardChest → pagination = true := by decide
  deriving DecidableEq

namespace Container

def size (c : Container) : Nat := c.itemlist.length
def capacity (c : Container) : Nat := c.maxSize
def hasPagination (c : Container) : Bool := c.pagination

end Container

/-- The dynamic class of an item object. -/
inductive ItemClass
  | item
  | container (c : Container)
  | teleport
  | magicField
  | door
  | trashHolder
  | mailbox
  | bed (house : Option Nat)
  deriving DecidableEq

structure Item where
  id : Nat
  count : UInt8 := 1
  attributes : Option ItemAttributes := none
  parent : Option Cylinder := none
  cls : ItemClass := .item
  deriving DecidableEq

namespace Item

def getContainer (i : Item) : Option Container :=
  match i.cls with
  | .container c => some c
  | _ => none

def isContainer (i : Item) : Bool := i.getContainer.isSome

def getMagicField (i : Item) : Bool := i.cls == .magicField

def getBed (i : Item) : Bool :=
  match i.cls with
  | .bed _ => true
  | _ => false

/-- `Item::canRemove`, virtual. -/
def canRemove (i : Item) : Bool :=
  match i.cls with
  | .bed house => house.isNone
  | .container c => c.kind == .plain || c.kind == .browseField
  | _ => true

/-- A container's item list; other items hold nothing. -/
def itemlist (i : Item) : List ItemRef := (i.getContainer.map (·.itemlist)).getD []

def hasAttribute (i : Item) (t : AttrType) : Bool :=
  match i.attributes with
  | none => false
  | some a => a.hasAttribute t

def getIntAttr (i : Item) (t : AttrType) : Int :=
  match i.attributes with
  | none => 0
  | some a => a.getIntAttr t

def setIntAttr (i : Item) (t : AttrType) (n : Int) : Item :=
  { i with attributes := some ((i.attributes.getD .empty).setIntAttr t n) }

def removeAttribute (i : Item) (t : AttrType) : Item :=
  { i with attributes := i.attributes.map (·.removeAttribute t) }

/-- `Item::equals`. -/
def equals (i o : Item) : Bool :=
  i.id == o.id &&
    match i.attributes, o.attributes with
    | none, none => true
    | some a, some b => a.attributeBits == b.attributeBits && a.sameValues b
    | _, _ => false

theorem equals_id {i o : Item} (h : i.equals o = true) : i.id = o.id := by
  simp only [equals, Bool.and_eq_true, beq_iff_eq] at h
  exact h.1

theorem equals_symm {i o : Item} (h : i.equals o = true) : o.equals i = true := by
  rcases i with ⟨iid, ic, ia, ip, icl⟩
  rcases o with ⟨oid, oc, oa, op, ocl⟩
  cases ia <;> cases oa <;> simp only [equals, Bool.and_eq_true, beq_iff_eq] at h ⊢
  · exact ⟨h.1.symm, trivial⟩
  · exact absurd h.2 (by simp)
  · exact absurd h.2 (by simp)
  · exact ⟨h.1.symm, h.2.1.symm, ItemAttributes.sameValues_symm h.2.2⟩

theorem equals_comm (i o : Item) : i.equals o = o.equals i := by
  rw [Bool.eq_iff_iff]
  exact ⟨equals_symm, equals_symm⟩

def getItemCount (i : Item) : Nat := i.count.toNat

theorem getItemCount_lt (i : Item) : i.getItemCount < 256 := i.count.toNat_lt

def setItemCount (i : Item) (n : Nat) : Item := { i with count := UInt8.ofNat n }
def setParent (i : Item) (p : Option Cylinder) : Item := { i with parent := p }

def withContainer (i : Item) (c : Container) : Item := { i with cls := .container c }

end Item

/-- A tile's ground and item vector. The vector's first `downItemCount` entries
are the down items, the others the top items. -/
structure Tile where
  ground : Option ItemRef := none
  itemList : List ItemRef := []
  downItemCount : Nat := 0
  creatures : List CreatureId := []
  flags : BitVec 32 := 0
  house : Option Nat := none

namespace Tile

def downItems (t : Tile) : List ItemRef := t.itemList.take t.downItemCount
def topItems (t : Tile) : List ItemRef := t.itemList.drop t.downItemCount
def getTopItemCount (t : Tile) : Nat := t.itemList.length - t.downItemCount
def getTopDownItem (t : Tile) : Option ItemRef := t.downItems.head?
/-- `Tile::getThingIndex` of an item: the ground, then the top items, the
creatures and the down items. -/
def getThingIndex (t : Tile) (alwaysOnTop : Bool) (i : ItemRef) : Int :=
  if t.ground = some i then 0
  else
    let n : Int := if t.ground.isSome then 1 else 0
    if alwaysOnTop then
      if i ∈ t.topItems then n + t.topItems.idxOf i else -1
    else if i ∈ t.downItems then
      n + t.getTopItemCount + t.creatures.length + t.downItems.idxOf i
    else -1

def hasFlag (t : Tile) (f : BitVec 32) : Bool := (t.flags &&& f) != 0

/-- Taking an item off the part of the vector that its type belongs to. -/
def erase (t : Tile) (alwaysOnTop : Bool) (i : ItemRef) : Tile :=
  if alwaysOnTop then { t with itemList := t.downItems ++ t.topItems.erase i }
  else
    { t with
      itemList := t.downItems.erase i ++ t.topItems
      downItemCount := t.downItemCount - 1 }

/-- The place `Tile::replaceThing` writes to, and what lay there: the ground, a
top item or, past the creatures, a down item. -/
def replaceAt (t : Tile) (index : Nat) (i : ItemRef) : Option (ItemRef × Tile) :=
  let replace (n : Nat) :=
    t.itemList[n]?.map fun o => (o, { t with itemList := t.itemList.set n i })
  match t.ground, index with
  | some o, 0 => some (o, { t with ground := some i })
  | _, _ =>
      let n := index - t.ground.toList.length
      if n < t.getTopItemCount then replace (t.downItemCount + n)
      else
        let n := n - t.getTopItemCount
        if n < t.creatures.length then none
        else
          let n := n - t.creatures.length
          if n < t.downItemCount then replace n else none

end Tile

/-- The part of `Player` the item operations read and write. -/
structure Player where
  inventory : Nat → Option ItemRef := fun _ => none
  capacity : BitVec 32 := 0
  inventoryWeight : BitVec 32 := 0
  cannotPickupItem : Bool := false
  hasInfiniteCapacity : Bool := false
  tile : Option Position := none

def CONST_SLOT_FIRST : Nat := 1
def CONST_SLOT_AMMO : Nat := 10
def CONST_SLOT_LAST : Nat := 11

/-- The loop `for (i = CONST_SLOT_FIRST; i <= CONST_SLOT_LAST; ++i)`. -/
def slots : List Nat := List.range' 1 11

structure World where
  items : Items
  classicEquipmentSlots : Bool
  canEquip : PlayerId → ItemRef → Int → Bool
  isInvited : Nat → PlayerId → Bool
  isInGhostMode : CreatureId → Bool
  players : List PlayerId
  browseFields : Position → Option ItemRef
  item : ItemRef → Item
  next : ItemRef
  tile : Position → Option Tile
  player : PlayerId → Player

namespace World

variable (w : World)

/-! ### Reading an item -/

/-- `Item::items[item->getID()]`. -/
def typeOf (i : ItemRef) : ItemType := w.items.type (w.item i).id

def isStackable (i : ItemRef) : Bool := (w.typeOf i).stackable
def isAlwaysOnTop (i : ItemRef) : Bool := (w.typeOf i).alwaysOnTop
def isPickupable (i : ItemRef) : Bool := (w.typeOf i).pickupable
def isMoveable (i : ItemRef) : Bool := (w.typeOf i).moveable
def getItemCount (i : ItemRef) : Nat := (w.item i).getItemCount

def getContainer (i : ItemRef) : Option Container := (w.item i).getContainer

def itemlist (c : ItemRef) : List ItemRef := (w.item c).itemlist

def equals (i o : ItemRef) : Bool := (w.item i).equals (w.item o)

def getSubType (i : ItemRef) : Nat :=
  let it := w.typeOf i
  if it.isFluidContainer || it.isSplash then
    (BitVec.ofInt 16 ((w.item i).getIntAttr .fluidType)).toNat
  else if it.stackable then w.getItemCount i
  else if it.charges != 0 then (BitVec.ofInt 16 ((w.item i).getIntAttr .charges)).toNat
  else w.getItemCount i

def getBaseWeight (i : ItemRef) : BitVec 32 :=
  if (w.item i).hasAttribute .weight then BitVec.ofInt 32 ((w.item i).getIntAttr .weight)
  else (w.typeOf i).weight

/-- `Item::getWeight`, the weight of the object without its contents. -/
def ownWeight (i : ItemRef) : BitVec 32 :=
  if w.isStackable i then w.getBaseWeight i * BitVec.ofNat 32 (max 1 (w.getItemCount i))
  else w.getBaseWeight i

/-- The virtual `getWeight`: a container adds its `totalWeight`. -/
def getWeight (i : ItemRef) : BitVec 32 :=
  match w.getContainer i with
  | some c => w.ownWeight i + c.totalWeight
  | none => w.ownWeight i

/-! ### Parents

`getParent` is virtual: depot chests, inboxes and rewards hide the locker or
chest they lie in. A walk up the parents visits every item at most once, so
`walkFuel` steps are enough for it. -/

def walkFuel : Nat := w.next + 3

def kindOf (c : ItemRef) : Option ContainerKind := (w.getContainer c).map (·.kind)

def getParentAux : Nat → Cylinder → Option Cylinder
  | _, .tile _ => none
  | _, .player p => (w.player p).tile.map .tile
  | 0, .container _ => none
  | n + 1, .container c =>
      match w.kindOf c with
      | some (.depotChest _) =>
          ((w.item c).parent.bind (getParentAux n)).bind (getParentAux n)
      | some .inbox => (w.item c).parent.bind (getParentAux n)
      | some .reward => (w.item c).parent.bind (getParentAux n)
      | _ => (w.item c).parent

/-- `Cylinder::getParent`, virtual. -/
def parentOf (c : Cylinder) : Option Cylinder := w.getParentAux w.walkFuel c

/-- `Item::getParent`, virtual. -/
def getParent (i : ItemRef) : Option Cylinder := w.parentOf (.container i)

/-- The cylinders met by `while (c) { ...; c = c->getParent(); }`. -/
def chain : Nat → Option Cylinder → List Cylinder
  | 0, _ => []
  | _, none => []
  | n + 1, some c => c :: chain n (w.parentOf c)

/-- The strict ancestors of an item, nearest first. -/
def ancestors (i : ItemRef) : List Cylinder := w.chain w.walkFuel (w.getParent i)

/-- The loop of `Item::getTopParent`: `prevaux` and `aux`. -/
def topParentAux : Nat → Option Cylinder → Cylinder → Option Cylinder
  | 0, prev, aux => some (prev.getD aux)
  | n + 1, prev, aux =>
      match w.parentOf aux with
      | none => some (prev.getD aux)
      | some up => topParentAux n (some aux) up

/-- `Item::getTopParent`: only a container is itself a cylinder. -/
def getTopParent (i : ItemRef) : Option Cylinder :=
  let self := if (w.getContainer i).isSome then some (Cylinder.container i) else none
  match w.getParent i with
  | none => self
  | some aux => w.topParentAux w.walkFuel self aux

/-- `Item::getTile`. -/
def getTile (i : ItemRef) : Option Position :=
  let top := w.getTopParent i
  match (match top.bind w.parentOf with | some q => some q | none => top) with
  | some (.tile p) => some p
  | _ => none

/-- `Thing::getTile` of a cylinder. -/
def tileOf : Cylinder → Option Position
  | .tile p => some p
  | .player p => (w.player p).tile
  | .container c => w.getTile c

/-! ### Contents -/

/-- The containers a `ContainerIterator` queues: those that hold something. -/
def subContainers (l : List ItemRef) : List ItemRef :=
  l.filter fun i => (w.getContainer i).isSome && !(w.itemlist i).isEmpty

/-- What a `ContainerIterator` visits from the queue of containers `over`, in its order. -/
def iterate : Nat → List ItemRef → List ItemRef
  | 0, _ => []
  | _, [] => []
  | n + 1, c :: queue =>
      w.itemlist c ++ iterate n (queue ++ w.subContainers (w.itemlist c))

def iterator (c : ItemRef) : List ItemRef :=
  w.iterate w.walkFuel (w.subContainers [c])

def getItemHoldingCount (c : ItemRef) : Nat := (w.iterator c).length

def isHoldingItem (c i : ItemRef) : Bool := (w.iterator c).contains i

def getInventoryItem (p : PlayerId) (slot : Int) : Option ItemRef :=
  if 1 ≤ slot ∧ slot ≤ 11 then (w.player p).inventory slot.toNat else none

/-! ### Writing -/

def setItem (i : ItemRef) (f : Item → Item) : World :=
  { w with item := Function.update w.item i (f (w.item i)) }

def setTile (pos : Position) (t : Tile) : World :=
  { w with tile := Function.update w.tile pos (some t) }

def setPlayer (p : PlayerId) (pl : Player) : World :=
  { w with player := Function.update w.player p pl }

/-- Changing the container part of a container object. -/
def setContainer (c : ItemRef) (f : Container → Container) : World :=
  w.setItem c fun i =>
    match i.getContainer with
    | some k => i.withContainer (f k)
    | none => i

end World

end TibServer
