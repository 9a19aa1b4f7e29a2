import TibServer.Game

/-!
Moving, adding, removing and transforming items (`game.cpp`):
`internalMoveItem`, `internalAddItem`, `internalRemoveItem` and
`transformItem`, each in the steps of the source.
-/

namespace TibServer

namespace World

variable (w : World)

/-- An open browse field stands for its tile. -/
def sourceCylinder (c : Cylinder) : Cylinder :=
  match w.tileOf c with
  | none => c
  | some pos =>
      match w.browseFields pos with
      | some r => if c = .container r then .tile pos else c
      | none => c

/-- `toCylinder`, or a cylinder above it, is the item the other side trades. -/
def insideTradeItem (c : Cylinder) (tradeItem : Option ItemRef) : Bool :=
  match tradeItem with
  | none => false
  | some ti => (w.chain w.walkFuel (some c)).contains (.container ti)

/-- The stack an item would go into: `item->isStackable() && item->equals(toItem)`. -/
def mergeTarget (item : ItemRef) (toItem : Option ItemRef) : Option ItemRef :=
  toItem.filter fun o => w.isStackable item && w.equals item o

/-! ### The questions of `internalMoveItem` -/

/-- What the questions before a move come to: an error, the destination taking
the item in as it is, or an exchange with the item that is in its place. -/
inductive Admission
  | refused (ret : ReturnValue)
  | admitted
  | exchange (toItem : ItemRef)

/-- The first query of the destination and, if it asks for an exchange, whether
the source takes `toItem` and the destination gives it. Where only the latter
fails, the source goes on as if nothing had been asked. An exchange without a
`toItem` would read through a null pointer; it is refused here. -/
def admission (fromCylinder : Cylinder) (d : Dest) (item : ItemRef) (count : Nat)
    (actor : Option PlayerId) : Admission :=
  let ret := w.queryAdd d.cylinder d.index item count d.flags actor
  if ret = .noError then .admitted
  else if ret ≠ .needExchange then .refused ret
  else
    match d.destItem with
    | none => .refused .notPossible
    | some toItem =>
        let toCount := w.getItemCount toItem
        let ret := w.queryAdd fromCylinder (w.getThingIndex fromCylinder item) toItem toCount {}
        if ret ≠ .noError then .refused ret
        else
          let (retMaxCount, maxCount) :=
            w.queryMaxCount fromCylinder INDEX_WHEREEVER toItem toCount {}
          if retMaxCount ≠ .noError ∧ maxCount = 0 then .refused retMaxCount
          else if w.queryRemove d.cylinder toItem toCount d.flags ≠ .noError then .admitted
          else .exchange toItem

/-- How much can be moved, whether it can leave the source, and whether it would
go into the item the other side trades: the error, or the answer a move ends
with and the number of units `m`. -/
def moveCheck (fromCylinder : Cylinder) (d : Dest) (item : ItemRef) (count : Nat)
    (tradeItem : Option ItemRef) : Except ReturnValue (ReturnValue × Nat) :=
  let (retMaxCount, maxQueryCount) := w.queryMaxCount d.cylinder d.index item count d.flags
  if retMaxCount ≠ .noError ∧ maxQueryCount = 0 then .error retMaxCount
  else
    let m := if w.isStackable item then min count maxQueryCount else maxQueryCount
    let ret := w.queryRemove fromCylinder item m d.flags
    if ret ≠ .noError then .error ret
    else if w.insideTradeItem d.cylinder tradeItem then .error .notEnoughRoom
    -- we could not move all, inform the player
    else .ok (if w.isStackable item ∧ maxQueryCount < count then retMaxCount else ret, m)

/-- `std::min<uint32_t>(100 - toItem->getItemCount(), m)`. -/
def mergeCount (toItemCount m : Nat) : Nat :=
  min (BitVec.ofInt 32 (100 - (toItemCount : Int))).toNat m

end World

namespace Game

variable (g : Game)

/-- `postAddNotification` or `postRemoveNotification` of `c`, made where the
thing is found at an index. -/
def post (c : Cylinder) (index : Int) : Game :=
  if index ≠ -1 then g.setWorld (g.world.postNotification c) else g

@[simp] theorem post_trade (c : Cylinder) (index : Int) : (g.post c index).trade = g.trade := by
  unfold post
  split <;> rfl

/-! ### `internalMoveItem` -/

/-- What `internalMoveItem` leaves: its answer, `_moveItem`, the number of units
taken out of the source (`m`, and 0 when it returns before that), the game. -/
structure MoveResult where
  ret : ReturnValue
  moveItem : Option ItemRef := none
  moved : Nat := 0
  game : Game

/-- The item of the destination is taken out and put into the source. -/
def swap (fromCylinder toCylinder : Cylinder) (toItem : ItemRef) : Game :=
  let oldToItemIndex := g.world.getThingIndex toCylinder toItem
  let g := g.removeThing toCylinder toItem (g.world.getItemCount toItem)
  let g := g.addThingFront fromCylinder toItem
  let g := g.post toCylinder oldToItemIndex
  g.post fromCylinder (g.world.getThingIndex fromCylinder toItem)

/-- The first query of the destination, and the exchange it may ask for: the
answer comes with what `toItem` is afterwards. -/
def queryAddOrSwap (fromCylinder : Cylinder) (d : Dest) (item : ItemRef) (count : Nat)
    (actor : Option PlayerId) : ReturnValue × Option ItemRef × Game :=
  match g.world.admission fromCylinder d item count actor with
  | .refused ret => (ret, d.destItem, g)
  | .admitted => (.noError, d.destItem, g)
  | .exchange toItem =>
      let g := g.swap fromCylinder d.cylinder toItem
      (g.world.queryAdd d.cylinder d.index item count d.flags, none, g)

/-- The units of a stack that go into `toItem`: their number, and `updateItem`. -/
def mergeInto (toCylinder : Cylinder) (item : ItemRef) (toItem : Option ItemRef) (m : Nat) :
    Nat × Option ItemRef × Game :=
  match g.world.mergeTarget item toItem with
  | some o =>
      let n := World.mergeCount (g.world.getItemCount o) m
      (n, some o,
        g.updateThing toCylinder o (g.world.item o).id (g.world.getItemCount o + n))
  | none => (0, none, g)

/-- `item->clone()` with the count `n`; it gets the reference `next`. -/
def cloneWith (item : ItemRef) (n : Nat) : Game :=
  g.setWorld (g.world.allocate ((g.world.cloneItem (g.world.item item)).setItemCount n))

/-- `item->clone()` with the count that is left, if any. -/
def cloneRest (item : ItemRef) (newCount : Nat) : Option ItemRef × Game :=
  if newCount > 0 then (some g.world.next, g.cloneWith item newCount) else (none, g)

/-- `moveItem` and `updateItem` of a stack. -/
def merge (toCylinder : Cylinder) (item : ItemRef) (toItem : Option ItemRef) (m : Nat) :
    Option ItemRef × Option ItemRef × Game :=
  let (n, updateItem, g) := g.mergeInto toCylinder item toItem m
  let (moveItem, g) := g.cloneRest item (m - n)
  (moveItem, updateItem, g)

/-- Removing the item and updating the items: `moveItem` and `updateItem`. -/
def takeUnits (fromCylinder toCylinder : Cylinder) (item : ItemRef) (toItem : Option ItemRef)
    (m : Nat) : Option ItemRef × Option ItemRef × Game :=
  let g := g.removeThing fromCylinder item m
  if g.world.isStackable item then g.merge toCylinder item toItem m
  else (some item, none, g)

/-- The notification about an item that may be missing. -/
def postItem (c : Cylinder) (item : Option ItemRef) : Game :=
  match item with
  | some x => g.post c (g.world.getThingIndex c x)
  | none => g

/-- The part of `internalMoveItem` that moves: `m` units leave the source, go
into `toItem` or into a clone, and what is left to add is added. -/
def transfer (fromCylinder toCylinder : Cylinder) (index : Int) (item : ItemRef)
    (toItem : Option ItemRef) (m : Nat) : Option ItemRef × Game :=
  let itemIndex := g.world.getThingIndex fromCylinder item
  let (moveItem, updateItem, g) := g.takeUnits fromCylinder toCylinder item toItem m
  let g :=
    match moveItem with
    | some x => g.addThing toCylinder index x
    | none => g
  let g := g.post fromCylinder itemIndex
  let g := g.postItem toCylinder moveItem
  let g := g.postItem toCylinder updateItem
  (moveItem.or (some item), g)

/-- The part of `internalMoveItem` after the destination let the item in. -/
def moveUnits (fromCylinder : Cylinder) (d : Dest) (item : ItemRef) (toItem : Option ItemRef)
    (count : Nat) (tradeItem : Option ItemRef) : MoveResult :=
  match g.world.moveCheck fromCylinder d item count tradeItem with
  | .error ret => { ret, game := g }
  | .ok (ret, m) =>
      let (moveItem, g) := g.transfer fromCylinder d.cylinder d.index item toItem m
      { ret, moveItem, moved := m, game := g }

def internalMoveItem (fromCylinder toCylinder : Cylinder) (index : Int) (item : ItemRef)
    (count : Nat) (flags : Flags := {}) (actor : Option PlayerId := none)
    (tradeItem : Option ItemRef := none) : MoveResult :=
  let fromCylinder := g.world.sourceCylinder fromCylinder
  let d := g.world.destination g.trade.tradeItem item { cylinder := toCylinder, index, flags }
  -- destination is the same as the source?
  if d.destItem = some item then { ret := .noError, game := g }
  else
    let (ret, toItem, g) := g.queryAddOrSwap fromCylinder d item count actor
    if ret ≠ .noError then { ret, game := g }
    else g.moveUnits fromCylinder d item toItem count tradeItem

/-! ### `internalAddItem` -/

def ITEM_REWARD_CONTAINER : Nat := 21518

structure AddResult where
  ret : ReturnValue
  remainderCount : Nat := 0
  game : Game

/-- Adding the object itself, and the notification. -/
def place (c : Cylinder) (index : Int) (item : ItemRef) : Game :=
  let g := g.addThing c index item
  g.post c (g.world.getThingIndex c item)

/-- A failed count is only minded where the destination is an item. -/
def refusesCount (w : World) (c : Cylinder) (ret : ReturnValue) : Bool :=
  ret != .noError &&
    match c with
    | .container r => (w.item r).id != ITEM_REWARD_CONTAINER
    | _ => false

/-- Where `internalAddItem` is sent. -/
def addDest (destCylinder : Cylinder) (item : ItemRef) (index : Int) (flags : Flags) : Dest :=
  g.world.queryDestination g.trade.tradeItem item { cylinder := destCylinder, index, flags }

/-- Whether the whole amount fits is asked of the original cylinder. -/
def addMaxCount (destCylinder : Cylinder) (item : ItemRef) (d : Dest) : ReturnValue × Nat :=
  g.world.queryMaxCount destCylinder INDEX_WHEREEVER item (g.world.getItemCount item) d.flags

/-- The questions of `internalAddItem`. -/
def addCheck (destCylinder : Cylinder) (item : ItemRef) (index : Int) (flags : Flags) :
    ReturnValue :=
  let d := g.addDest destCylinder item index flags
  let ret := g.world.queryAdd d.cylinder d.index item (g.world.getItemCount item) d.flags
  if ret ≠ .noError then ret
  else
    let (ret, _) := g.addMaxCount destCylinder item d
    if refusesCount g.world d.cylinder ret then ret else .noError

/-- `toCylinder->updateThing` of the stack that takes `n` units. -/
def addMerge (d : Dest) (toItem : ItemRef) (n : Nat) : Game :=
  g.updateThing d.cylinder toItem (g.world.item toItem).id (g.world.getItemCount toItem + n)

/-- `Game::internalAddItem`, with a bound on the depth of its recursion. Each
call is about fewer units than the one that makes it. -/
def addItemAux : Nat → Game → Cylinder → ItemRef → Int → Flags → Bool → AddResult
  | 0, g, _, _, _, _, _ => { ret := .notPossible, game := g }
  | fuel + 1, g, destCylinder, item, index, flags, test =>
      let ret := g.addCheck destCylinder item index flags
      if ret ≠ .noError then { ret, game := g }
      else if test then { ret := .noError, game := g }
      else
        let d := g.addDest destCylinder item index flags
        match g.world.mergeTarget item d.destItem with
        | none => { ret := .noError, game := g.place d.cylinder d.index item }
        | some toItem =>
            let itemCount := g.world.getItemCount item
            let m := min itemCount (g.addMaxCount destCylinder item d).2
            let n := World.mergeCount (g.world.getItemCount toItem) m
            let g := g.addMerge d toItem n
            let count := m - n
            if count > 0 then
              if itemCount ≠ count then
                let r := addItemAux fuel (g.cloneWith item count) destCylinder g.world.next
                  INDEX_WHEREEVER d.flags false
                if r.ret ≠ .noError then
                  { ret := .noError, remainderCount := count, game := r.game }
                else { ret := .noError, game := r.game }
              else { ret := .noError, game := g.place d.cylinder d.index item }
            else
              -- fully merged with toItem, item will be destroyed
              { ret := .noError
                game := g.post d.cylinder (g.world.getThingIndex d.cylinder toItem) }

def internalAddItem (toCylinder : Cylinder) (item : ItemRef) (index : Int := INDEX_WHEREEVER)
    (flags : Flags := {}) (test : Bool := false) : AddResult :=
  addItemAux (g.world.getItemCount item + 1) g toCylinder item index flags test

/-! ### `internalRemoveItem` -/

def internalRemoveItem (item : ItemRef) (count : Option Nat := none) (test : Bool := false)
    (flags : Flags := {}) : ReturnValue × Game :=
  match g.world.getParent item with
  | none => (.notPossible, g)
  | some parent =>
      let cylinder := g.world.sourceCylinder parent
      let count := count.getD (g.world.getItemCount item)
      let ret := g.world.queryRemove cylinder item count { flags with ignoreNotMoveable := true }
      if ret ≠ .noError then (ret, g)
      else if !(g.world.item item).canRemove then (.notPossible, g)
      else if test then (.noError, g)
      else
        let index := g.world.getThingIndex cylinder item
        let g := g.removeThing cylinder item count
        (.noError, g.post cylinder index)

/-! ### `transformItem` -/

/-- `Item::setDefaultSubtype`. -/
def setDefaultSubtype (items : Items) (i : Item) : Item :=
  let it := items.type i.id
  let i := i.setItemCount 1
  if it.charges ≠ 0 then
    if it.stackable then i.setItemCount it.charges else i.setIntAttr .charges it.charges
  else i

/-- The new item takes the place of the old one. -/
def replaceItem (cylinder : Cylinder) (itemIndex : Int) (item newItem : ItemRef) : Game :=
  let g := g.replaceThing cylinder itemIndex.toNat newItem
  let g := g.setWorld (g.world.postNotification cylinder)
  let g := g.setWorld (g.world.setItem item (·.setParent none))
  g.setWorld (g.world.postNotification cylinder)

/-- A new item of the type takes the place of the old one, if there is one. -/
def createAndReplace (cylinder : Cylinder) (itemIndex : Int) (item : ItemRef) (newId count : Nat) :
    Option ItemRef × Game :=
  match g.world.createItem newId count with
  | none => (none, g)
  | some new =>
      let newItem := g.world.next
      (some newItem,
        (g.setWorld (g.world.allocate new)).replaceItem cylinder itemIndex item newItem)

/-- `cylinder->updateThing` with the new id and subtype, the default subtype
being set first where the groups differ. -/
def updateType (cylinder : Cylinder) (itemIndex : Int) (item : ItemRef) (newId : Nat)
    (newCount : Int) : Game :=
  let curType := g.world.typeOf item
  let newType := g.world.items.type newId
  let g := g.setWorld (g.world.postNotification cylinder)
  let count := g.world.getSubType item
  let g :=
    if curType.id ≠ newType.id ∧ newType.group ≠ curType.group then
      g.setWorld (g.world.setItem item (setDefaultSubtype g.world.items))
    else g
  let itemId := if curType.id ≠ newType.id then newId else (g.world.item item).id
  let count :=
    if newCount ≠ -1 ∧ newType.hasSubType then (newCount % 65536).toNat else count
  let g := g.updateThing cylinder item itemId count
  g.post cylinder itemIndex

/-- The old item is removed, and added again as the new one. -/
def reinsert (cylinder : Cylinder) (item : ItemRef) (newId : Nat) (newCount : Int) : Game :=
  let g := g.removeThing cylinder item (g.world.getItemCount item)
  let g := g.setWorld (g.world.postNotification cylinder)
  let g := g.setWorld (g.world.setItem item fun x =>
    let x := g.world.setID x newId
    if newCount ≠ -1 then g.world.setSubType x (newCount % 65536).toNat else x)
  g.addThingFront cylinder item

/-- The notification comes from where the item is then. -/
def postReinserted (item : ItemRef) : Option ItemRef × Game :=
  match g.world.getParent item with
  | none => (none, g)
  | some newParent => (some item, g.setWorld (g.world.postNotification newParent))

/-- `Game::transformItem`. The source calls itself once, without a count and
with the same id, where the last charge of an item is used up. -/
def transformItem (item : ItemRef) (newId : Nat) (newCount : Int := -1) :
    Option ItemRef × Game :=
  let w := g.world
  if (w.item item).id = newId ∧
      (newCount = -1 ∨ (newCount = w.getSubType item ∧ newCount ≠ 0)) then (some item, g)
  else
    match w.getParent item with
    | none => (none, g)
    | some parent =>
        let cylinder := w.sourceCylinder parent
        let itemIndex := w.getThingIndex cylinder item
        let newType := w.items.type newId
        let curType := w.typeOf item
        if itemIndex = -1 then (some item, g)
        else if newType.id = 0 then (some item, g)
        else if curType.alwaysOnTop ≠ newType.alwaysOnTop then
          (g.reinsert cylinder item newId newCount).postReinserted item
        else if curType.type = newType.type then
          if newCount = 0 ∧ w.isStackable item then
            (none, (g.internalRemoveItem item).2)
          else if newCount = 0 ∧ (w.item item).hasAttribute .charges then
            let newItemId : Int := if curType.id = newType.id then curType.decayTo else newId
            if newItemId ≤ 0 then (none, (g.internalRemoveItem item).2)
            else if newItemId ≠ newId then
              g.createAndReplace cylinder itemIndex item (newItemId % 65536).toNat 1
            else if (w.item item).id = newId then (some item, g)
            else (some item, g.updateType cylinder itemIndex item newId (-1))
          else (some item, g.updateType cylinder itemIndex item newId newCount)
        else if newCount = -1 then g.createAndReplace cylinder itemIndex item newId 0
        else g.createAndReplace cylinder itemIndex item newId (newCount % 65536).toNat

end Game

end TibServer
