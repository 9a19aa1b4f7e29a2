import TibServer.Destination

/-!
The operations that change a cylinder: `addThing`, `updateThing`,
`replaceThing` and `removeThing` of containers, players and tiles
(`container.cpp`, `player.cpp`, `tile.cpp`), the changes of an item they make
(`item.cpp`), and the weight notifications that follow a move.

An open browse field is a view of its tile: an item listed in both has the tile
as its parent here, where the source lets the view stand in between.
-/

namespace TibServer

namespace World

variable (w : World)

/-! ### Items -/

inductive ItemProperty
  | blockSolid | moveable | blockPath | immovableBlockSolid | immovableBlockPath
  | immovableNoFieldBlockPath | noFieldBlockPath | supportHangable | isVertical
  deriving DecidableEq, Repr

/-- `Item::hasProperty`. -/
def hasProperty (i : ItemRef) (prop : ItemProperty) : Bool :=
  let it := w.typeOf i
  let immovable := !it.moveable || (w.item i).hasAttribute .uniqueId
  match prop with
  | .blockSolid => it.blockSolid
  | .moveable => it.moveable && !(w.item i).hasAttribute .uniqueId
  | .blockPath => it.blockPathFind
  | .immovableBlockSolid => it.blockSolid && immovable
  | .immovableBlockPath => it.blockPathFind && immovable
  | .immovableNoFieldBlockPath => !it.isMagicField && it.blockPathFind && immovable
  | .noFieldBlockPath => !it.isMagicField && it.blockPathFind
  | .supportHangable => it.isHorizontal || it.isVertical
  | .isVertical => it.isVertical

/-- `uint32_t newDuration = it.decayTime * 1000`. -/
def durationOf (it : ItemType) : BitVec 32 := BitVec.ofNat 32 (it.decayTime * 1000)

/-- `Item::setID`. -/
def setID (i : Item) (newId : Nat) : Item :=
  let prevIt := w.items.type i.id
  let it := w.items.type newId
  let newDuration := durationOf it
  let i := { i with id := newId }
  let i :=
    if newDuration = 0 ∧ !it.stopTime ∧ it.decayTo < 0 then
      (i.removeAttribute .decayState).removeAttribute .duration
    else i
  let i :=
    if BitVec.ofInt 32 (i.getIntAttr .corpseOwner) = 0x7FFFFFFF#32 then i
    else i.removeAttribute .corpseOwner
  if newDuration ≠ 0 ∧ (!prevIt.stopTime ∨ !i.hasAttribute .duration) then
    (i.setIntAttr .decayState 0).setIntAttr .duration newDuration.toInt
  else i

/-- `Item::setSubType`. -/
def setSubType (i : Item) (n : Nat) : Item :=
  let it := w.items.type i.id
  if it.isFluidContainer || it.isSplash then i.setIntAttr .fluidType (n % 65536 : Nat)
  else if it.stackable then i.setItemCount n
  else if it.charges != 0 then i.setIntAttr .charges (n % 65536 : Nat)
  else i.setItemCount n

/-- The constructor `Item::Item(type, count)`. -/
def constructItem (type count : Nat) (cls : ItemClass) : Item :=
  let it := w.items.type type
  let i : Item := { id := type, cls }
  let i :=
    if it.isFluidContainer || it.isSplash then i.setIntAttr .fluidType count
    else if it.stackable then
      if count ≠ 0 then i.setItemCount count
      else if it.charges ≠ 0 then i.setItemCount it.charges else i
    else if it.charges ≠ 0 then
      i.setIntAttr .charges (if count ≠ 0 then count else it.charges)
    else i
  if durationOf it ≠ 0 then i.setIntAttr .duration (durationOf it).toInt else i

/-- The class `Item::CreateItem` gives an object. -/
def classOf (it : ItemType) : ItemClass :=
  if it.isDepot then .container { kind := .depotLocker, maxSize := 4 }
  else if it.isRewardChest then
    .container { kind := .rewardChest, maxSize := 32, unlocked := false, pagination := true }
  else if it.isContainer then
    .container
      { maxSize := it.maxItems.toNat
        maxSize_lt := it.maxItems.toNat_lt.trans (by decide) }
  else if it.isTeleport then .teleport
  else if it.isMagicField then .magicField
  else if it.isDoor then .door
  else if it.isTrashHolder then .trashHolder
  else if it.isMailbox then .mailbox
  else if it.isBed then .bed none
  else .item

/-- `Item::CreateItem`. -/
def createItem (type count : Nat) : Option Item :=
  let it := w.items.type type
  if it.group = .deprecated then none
  else
    let count := if it.stackable && count == 0 then 1 else count
    if it.id = 0 then none
    else
      match classOf it with
      | .item => some (w.constructItem (createdId type) count .item)
      | cls => some (w.constructItem type 0 cls)

/-- `Item::clone`; a type without an item leaves nothing to copy to. -/
def cloneItem (i : Item) : Item :=
  let new := (w.createItem i.id i.getItemCount).getD { id := i.id }
  { new with attributes := i.attributes.or new.attributes }

/-- An object that comes into being gets the next reference. -/
def allocate (i : Item) : World :=
  { w with item := Function.update w.item w.next i, next := w.next + 1 }

/-- What is left of a stack, as the `removeThing` functions compute it. -/
def remaining (itemCount count : Nat) : Nat :=
  (max 0 (BitVec.ofNat 32 itemCount - BitVec.ofNat 32 count).toInt).toNat % 256

/-! ### Containers -/

/-- `Container::updateItemWeight`: the container and, one after the other, the
containers it lies in. -/
def updateItemWeightAux : Nat → World → ItemRef → BitVec 32 → World
  | 0, w, _, _ => w
  | n + 1, w, c, diff =>
      let w := w.setContainer c fun k => { k with totalWeight := k.totalWeight + diff }
      match w.getParent c with
      | some (.container r) => updateItemWeightAux n w r diff
      | _ => w

def updateItemWeight (c : ItemRef) (diff : BitVec 32) : World :=
  updateItemWeightAux w.walkFuel w c diff

def setItemlist (c : ItemRef) (l : List ItemRef) : World :=
  w.setContainer c fun k => { k with itemlist := l }

/-- Putting an item at the front of a container, as `internalAddThing` does; a
browse field keeps no list of its own. -/
def pushFront (c i : ItemRef) : World :=
  match w.kindOf c with
  | none | some .browseField => w
  | some _ =>
      let w := (w.setItem i (·.setParent (some (.container c)))).setItemlist c
        (i :: w.itemlist c)
      w.updateItemWeight c (w.getWeight i)

def containerAddThing (c : ItemRef) (index : Int) (i : ItemRef) : World :=
  match w.getContainer c with
  | none => w
  | some k => if index ≥ k.capacity then w else w.pushFront c i

/-- The weight before and after a change of an item lying in a container. -/
def containerChange (c i : ItemRef) (f : Item → Item) : World :=
  let oldWeight := w.getWeight i
  let w := w.setItem i f
  w.updateItemWeight c (-oldWeight + w.getWeight i)

def containerUpdateThing (c i : ItemRef) (itemId count : Nat) : World :=
  if w.containerGetThingIndex c i = -1 then w
  else w.containerChange c i fun x => w.setSubType (w.setID x itemId) count

def containerReplaceThing (c : ItemRef) (index : Nat) (i : ItemRef) : World :=
  match (w.itemlist c)[index]? with
  | none => w
  | some old =>
      let w := (w.setItemlist c ((w.itemlist c).set index i)).setItem i
        (·.setParent (some (.container c)))
      let w := w.updateItemWeight c (-w.getWeight old + w.getWeight i)
      w.setItem old (·.setParent none)

def containerRemoveThing (c i : ItemRef) (count : Nat) : World :=
  if w.containerGetThingIndex c i = -1 then w
  else if w.isStackable i ∧ count ≠ w.getItemCount i then
    w.containerChange c i (·.setItemCount (remaining (w.getItemCount i) count))
  else
    let w := (w.updateItemWeight c (-w.getWeight i)).setItem i (·.setParent none)
    w.setItemlist c ((w.itemlist c).erase i)

/-! ### Players -/

def setInventory (p : PlayerId) (slot : Nat) (i : Option ItemRef) : World :=
  w.setPlayer p { w.player p with
    inventory := Function.update (w.player p).inventory slot i }

def playerAddThing (p : PlayerId) (index : Int) (i : ItemRef) : World :=
  if index < CONST_SLOT_FIRST ∨ index > CONST_SLOT_LAST then w
  else (w.setItem i (·.setParent (some (.player p)))).setInventory p index.toNat (some i)

def playerUpdateThing (p : PlayerId) (i : ItemRef) (itemId count : Nat) : World :=
  if w.playerGetThingIndex p i = -1 then w
  else w.setItem i fun x => w.setSubType (w.setID x itemId) count

def playerReplaceThing (p : PlayerId) (index : Nat) (i : ItemRef) : World :=
  match w.getInventoryItem p index with
  | none => w
  | some _ =>
      (w.setItem i (·.setParent (some (.player p)))).setInventory p index (some i)

def playerRemoveThing (p : PlayerId) (i : ItemRef) (count : Nat) : World :=
  let index := w.playerGetThingIndex p i
  if index = -1 then w
  else if w.isStackable i ∧ count ≠ w.getItemCount i then
    w.setItem i (·.setItemCount (remaining (w.getItemCount i) count))
  else (w.setItem i (·.setParent none)).setInventory p index.toNat none

/-! ### Tiles -/

/-- `Tile::hasProperty(exclude, prop)`. -/
def tileHasProperty (t : Tile) (exclude : ItemRef) (prop : ItemProperty) : Bool :=
  (t.ground.toList ++ t.itemList).any fun i => i != exclude && w.hasProperty i prop

/-- `Tile::setTileFlags`. -/
def setTileFlags (t : Tile) (i : ItemRef) : Tile :=
  let it := w.typeOf i
  let set (cond : Bool) (f : BitVec 32) (flags : BitVec 32) := if cond then flags ||| f else flags
  let cls := (w.item i).cls
  let flags := set (!t.hasFlag TILESTATE_FLOORCHANGE && it.floorChange != 0) it.floorChange t.flags
  let flags := set (w.hasProperty i .immovableBlockSolid) TILESTATE_IMMOVABLEBLOCKSOLID flags
  let flags := set (w.hasProperty i .blockPath) TILESTATE_BLOCKPATH flags
  let flags := set (w.hasProperty i .noFieldBlockPath) TILESTATE_NOFIELDBLOCKPATH flags
  let flags := set (w.hasProperty i .immovableNoFieldBlockPath)
    TILESTATE_IMMOVABLENOFIELDBLOCKPATH flags
  let flags := set (cls == .teleport) TILESTATE_TELEPORT flags
  let flags := set (cls == .magicField) TILESTATE_MAGICFIELD flags
  let flags := set (cls == .mailbox) TILESTATE_MAILBOX flags
  let flags := set (cls == .trashHolder) TILESTATE_TRASHHOLDER flags
  let flags := set (w.hasProperty i .blockSolid) TILESTATE_BLOCKSOLID flags
  let flags := set (w.item i).getBed TILESTATE_BED flags
  let flags := set (w.kindOf i == some .depotLocker) TILESTATE_DEPOT flags
  let flags := set (w.hasProperty i .supportHangable) TILESTATE_SUPPORTS_HANGABLE flags
  { t with flags }

/-- `Tile::resetTileFlags`. -/
def resetTileFlags (t : Tile) (i : ItemRef) : Tile :=
  let it := w.typeOf i
  let reset (cond : Bool) (f : BitVec 32) (flags : BitVec 32) :=
    if cond then flags &&& ~~~f else flags
  let last (prop : ItemProperty) := w.hasProperty i prop && !w.tileHasProperty t i prop
  let cls := (w.item i).cls
  let flags := reset (it.floorChange != 0) TILESTATE_FLOORCHANGE t.flags
  let flags := reset (last .blockSolid) TILESTATE_BLOCKSOLID flags
  let flags := reset (last .immovableBlockSolid) TILESTATE_IMMOVABLEBLOCKSOLID flags
  let flags := reset (last .blockPath) TILESTATE_BLOCKPATH flags
  let flags := reset (last .noFieldBlockPath) TILESTATE_NOFIELDBLOCKPATH flags
  let flags := reset (last .immovableBlockPath) TILESTATE_IMMOVABLEBLOCKPATH flags
  let flags := reset (last .immovableNoFieldBlockPath) TILESTATE_IMMOVABLENOFIELDBLOCKPATH flags
  let flags := reset (cls == .teleport) TILESTATE_TELEPORT flags
  let flags := reset (cls == .magicField) TILESTATE_MAGICFIELD flags
  let flags := reset (cls == .mailbox) TILESTATE_MAILBOX flags
  let flags := reset (cls == .trashHolder) TILESTATE_TRASHHOLDER flags
  let flags := reset (w.item i).getBed TILESTATE_BED flags
  let flags := reset (w.kindOf i == some .depotLocker) TILESTATE_DEPOT flags
  let flags := reset (w.hasProperty i .supportHangable) TILESTATE_SUPPORTS_HANGABLE flags
  { t with flags }

/-- `items->insert` into the top items, before the first of at least the same order. -/
def insertTop (i : ItemRef) : List ItemRef → List ItemRef
  | [] => [i]
  | o :: l =>
      if (w.typeOf i).alwaysOnTopOrder ≤ (w.typeOf o).alwaysOnTopOrder then i :: o :: l
      else o :: insertTop i l

/-- Taking an item off the tile's vector; the flags are reset by what stays. -/
def tileErase (pos : Position) (t : Tile) (i : ItemRef) : World :=
  (w.setItem i (·.setParent none)).setTile pos
    (w.resetTileFlags (t.erase (w.isAlwaysOnTop i) i) i)

def tileRemoveThing (pos : Position) (i : ItemRef) (count : Nat) : World :=
  match w.tile pos with
  | none => w
  | some t =>
      if w.tileGetThingIndex pos i = -1 then w
      else if t.ground = some i then
        (w.setItem i (·.setParent none)).setTile pos
          (w.resetTileFlags { t with ground := none } i)
      else if !w.isAlwaysOnTop i && w.isStackable i && count != w.getItemCount i then
        w.setItem i (·.setItemCount (remaining (w.getItemCount i) count))
      else w.tileErase pos t i

/-- The splash, or the magic field, that an item added to a tile takes the place of. -/
def replacedItem (t : Tile) (i : ItemRef) : Option ItemRef :=
  let it := w.typeOf i
  if it.isGroundTile then t.ground
  else if it.alwaysOnTop then
    if it.isSplash then t.topItems.find? fun o => (w.typeOf o).isSplash else none
  else if it.isMagicField then t.downItems.find? fun o => (w.item o).getMagicField
  else none

/-- The tile's vector, or its ground, with the item in it. -/
def tileInsert (pos : Position) (i : ItemRef) : World :=
  match w.tile pos with
  | none => w
  | some t =>
      let t :=
        if (w.typeOf i).isGroundTile then { t with ground := some i }
        else if w.isAlwaysOnTop i then
          { t with itemList := t.downItems ++ w.insertTop i t.topItems }
        else
          { t with itemList := i :: t.itemList, downItemCount := t.downItemCount + 1 }
      w.setTile pos (w.setTileFlags t i)

def tileAddThing (pos : Position) (i : ItemRef) : World :=
  match w.tile pos with
  | none => w
  | some t =>
      if t.itemList.length ≥ 0xFFFF then w
      else
        let w := w.setItem i (·.setParent (some (.tile pos)))
        match w.replacedItem t i with
        | none => w.tileInsert pos i
        | some o =>
            if (w.typeOf i).isGroundTile then
              -- the old ground is overwritten
              (w.setItem o (·.setParent none)).setTile pos
                (w.setTileFlags (w.resetTileFlags { t with ground := some i } o) i)
            else if (w.typeOf i).isMagicField && !(w.typeOf i).alwaysOnTop &&
                !(w.typeOf o).replaceable then
              -- this magic field cannot be replaced: the new one is gone
              w.setItem i (·.setParent none)
            else ((w.tileRemoveThing pos o 1).setItem o (·.setParent none)).tileInsert pos i

def tileUpdateThing (pos : Position) (i : ItemRef) (itemId count : Nat) : World :=
  match w.tile pos with
  | none => w
  | some t =>
      if w.tileGetThingIndex pos i = -1 then w
      else
        let w' := w.setItem i fun x => w.setSubType (w.setID x itemId) count
        w'.setTile pos (w'.setTileFlags (w.resetTileFlags t i) i)

def tileReplaceThing (pos : Position) (index : Nat) (i : ItemRef) : World :=
  match w.tile pos with
  | none => w
  | some t =>
      match t.replaceAt index i with
      | none => w
      | some (o, t) =>
          let w := w.setItem i (·.setParent (some (.tile pos)))
          (w.setTile pos (w.setTileFlags (w.resetTileFlags t o) i)).setItem o (·.setParent none)

/-! ### The virtual operations -/

/-- `Cylinder::addThing(int32_t, Thing*)`. -/
def addThing (c : Cylinder) (index : Int) (i : ItemRef) : World :=
  match c with
  | .tile pos => w.tileAddThing pos i
  | .player p => w.playerAddThing p index i
  | .container c => w.containerAddThing c index i

/-- `Cylinder::addThing(Thing*)`, which does nothing in a player. -/
def addThingFront (c : Cylinder) (i : ItemRef) : World :=
  match c with
  | .player _ => w
  | _ => w.addThing c 0 i

def updateThing (c : Cylinder) (i : ItemRef) (itemId count : Nat) : World :=
  match c with
  | .tile pos => w.tileUpdateThing pos i itemId count
  | .player p => w.playerUpdateThing p i itemId count
  | .container c => w.containerUpdateThing c i itemId count

def replaceThing (c : Cylinder) (index : Nat) (i : ItemRef) : World :=
  match c with
  | .tile pos => w.tileReplaceThing pos index i
  | .player p => w.playerReplaceThing p index i
  | .container c => w.containerReplaceThing c index i

def removeThing (c : Cylinder) (i : ItemRef) (count : Nat) : World :=
  match c with
  | .tile pos => w.tileRemoveThing pos i count
  | .player p => w.playerRemoveThing p i count
  | .container c => w.containerRemoveThing c i count

/-! What is not found at an index is neither changed nor removed. -/

theorem removeThing_not_found {c : Cylinder} {i : ItemRef} (count : Nat)
    (h : w.getThingIndex c i = -1) : w.removeThing c i count = w := by
  cases c with
  | tile pos =>
      simp only [removeThing, tileRemoveThing]
      cases w.tile pos with
      | none => rfl
      | some t => simp only [getThingIndex] at h; simp [h]
  | player p => simp only [getThingIndex] at h; simp [removeThing, playerRemoveThing, h]
  | container c => simp only [getThingIndex] at h; simp [removeThing, containerRemoveThing, h]

theorem updateThing_not_found {c : Cylinder} {i : ItemRef} (itemId count : Nat)
    (h : w.getThingIndex c i = -1) : w.updateThing c i itemId count = w := by
  cases c with
  | tile pos =>
      simp only [updateThing, tileUpdateThing]
      cases w.tile pos with
      | none => rfl
      | some t => simp only [getThingIndex] at h; simp [h]
  | player p => simp only [getThingIndex] at h; simp [updateThing, playerUpdateThing, h]
  | container c => simp only [getThingIndex] at h; simp [updateThing, containerUpdateThing, h]
/-! ### Notifications

What `postAddNotification` and `postRemoveNotification` change, with scripts
left out, is the weight a player carries. -/

def updateInventoryWeight (p : PlayerId) : World :=
  let pl := w.player p
  if pl.hasInfiniteCapacity then w
  else
    w.setPlayer p { pl with
      inventoryWeight := ((slots.filterMap pl.inventory).map w.getWeight).sum }

inductive CylinderLink
  | owner | parent | topParent | near
  deriving DecidableEq, Repr

/-- The player whose weight a notification of a cylinder updates. -/
def notifiedPlayer : Nat → Cylinder → CylinderLink → Option PlayerId
  | _, .tile _, _ => none
  | _, .player p, link => if link = .owner ∨ link = .topParent then some p else none
  | 0, .container _, _ => none
  | n + 1, .container c, _ =>
      match w.kindOf c with
      | some (.depotChest _) | some .inbox | some .reward =>
          (w.getParent c).bind fun q => notifiedPlayer n q .parent
      | some .depotLocker | some .rewardChest =>
          (w.item c).parent.bind fun q => notifiedPlayer n q .parent
      | _ =>
          match w.getTopParent c with
          | some (.player p) => some p
          | some t =>
              if t = .container c then
                (w.getParent c).bind fun q => notifiedPlayer n q .near
              else notifiedPlayer n t .parent
          | none => none

/-- `postAddNotification` and `postRemoveNotification` of a cylinder. -/
def postNotification (c : Cylinder) : World :=
  match w.notifiedPlayer w.walkFuel c .owner with
  | some p => w.updateInventoryWeight p
  | none => w

end World

end TibServer
