import TibServer.ItemStore
import TibServer.Payment

/-!
Buying items in the store (`game.cpp`: `playerBuyStoreOffer`, `account.cpp`). The coins
are taken first; the items are then made and added to the store inbox pack by pack, and
where a pack is refused a part of the price is given back.

The coins lie in a row of the table `accounts`. A change of them is a task of the
database thread, which may run it after the row is read again. The messages to the client
are left out.
-/

namespace TibServer.Store

open Game World

def CONST_SLOT_STORE_INBOX : Nat := 11
def TRANSFORM_BOX_ID : Nat := 26054

inductive OfferType
  | item | stackableItem | wrapItem
  deriving DecidableEq, Repr

/-- `ItemOffer`. An offer without a price or a count is not loaded. -/
structure ItemOffer where
  type : OfferType
  price : BitVec 32
  productId : BitVec 16
  count : BitVec 16
  price_ne : price ≠ 0
  count_ne : count ≠ 0

/-- The account: the coins in the table, the changes of them that are not run yet, and
the amounts in `store_history`. -/
structure Account where
  coins : BitVec 32
  tasks : List Int := []
  history : List Int := []
  deriving DecidableEq

namespace Account

variable (a : Account)

/-- `IOAccount::getCoinBalance`. -/
def getCoinBalance : BitVec 32 := a.coins

/-- `IOAccount::addCoins`. -/
def addCoins (amount : BitVec 32) : Account := { a with tasks := a.tasks ++ [amount.toInt] }

/-- `IOAccount::removeCoins`. -/
def removeCoins (amount : BitVec 32) : Account := { a with tasks := a.tasks ++ [-amount.toInt] }

/-- `IOAccount::registerTransaction`. -/
def registerTransaction (coins : BitVec 32) : Account :=
  { a with history := a.history ++ [coins.toInt] }

/-- The coins there are when all tasks have run. -/
def balance : Int := a.coins.toInt + a.tasks.sum

end Account

/-- `offer->price * (tmp->count - pendingCount) / tmp->count`. -/
def refund (offer : ItemOffer) (pendingCount : Nat) : BitVec 32 :=
  offer.price * BitVec.ofNat 32 (offer.count.toNat - pendingCount) / offer.count.setWidth 32

/-- The branch in which a pack is refused: charging partially. -/
def Account.refuse (a : Account) (offer : ItemOffer) (pendingCount : Nat) : Account :=
  (a.addCoins (refund offer pendingCount)).registerTransaction
    (-1 * offer.price + refund offer pendingCount)

def packSize (offer : ItemOffer) : Nat := if offer.type = .stackableItem then 100 else 1

/-- The type an offer makes items of. -/
def madeType (offer : ItemOffer) : Nat :=
  if offer.type = .wrapItem then TRANSFORM_BOX_ID else offer.productId.toNat

/-- `setActionId` and `setSpecialDescription` of a box. -/
def wrap (offer : ItemOffer) (name : String) (x : Item) : Item :=
  if offer.type = .wrapItem then
    (x.setActionId offer.productId).setStrAttr .description
      ("Unwrap it in your own house to create a <" ++ name ++ ">.").toUTF8.toList
  else x

/-- The item of a pack. The source would write through a null pointer where no box can
be made. -/
def makePack (w : World) (offer : ItemOffer) (name : String) (count : Nat) : Option Item :=
  (w.createItem (madeType offer) count).map (wrap offer name)

/-- The pack that comes next. -/
def pack (offer : ItemOffer) (pendingCount : Nat) : Nat := min (packSize offer) pendingCount

theorem pack_pos (offer : ItemOffer) {pendingCount : Nat} (h : pendingCount > 0) :
    0 < pack offer pendingCount := by
  unfold pack packSize
  split <;> omega

/-- `while (pendingCount > 0)`. -/
def deliver (g : Game) (a : Account) (inbox : ItemRef) (offer : ItemOffer) (name : String)
    (pendingCount : Nat) : Game × Account :=
  if pendingCount > 0 then
    match makePack g.world offer name (pack offer pendingCount) with
    | none => (g, a.refuse offer pendingCount)
    | some x =>
        let r := (g.mint x).internalAddItem (.container inbox) g.world.next INDEX_WHEREEVER
          { noLimit := true }
        if r.ret ≠ .noError then (r.game, a.refuse offer pendingCount)
        else deliver r.game a inbox offer name (pendingCount - pack offer pendingCount)
  else (g, a)
termination_by pendingCount
decreasing_by
  have := pack_pos offer ‹pendingCount > 0›
  omega

/-- The store inbox, if the player has one that is a container. -/
def storeInbox (w : World) (p : PlayerId) : Option (ItemRef × Container) :=
  ((w.player p).inventory CONST_SLOT_STORE_INBOX).bind fun i =>
    (w.getContainer i).map fun k => (i, k)

def freeSlots (k : Container) : BitVec 32 := BitVec.ofNat 32 k.capacity - BitVec.ofNat 32 k.size

def requiredSlots (offer : ItemOffer) : BitVec 32 :=
  if offer.type = .stackableItem then
    if offer.count % 100 ≠ 0 then (offer.count / 100).setWidth 32 + 1
    else (offer.count / 100).setWidth 32
  else offer.count.setWidth 32

def capNeeded (w : World) (offer : ItemOffer) : BitVec 32 :=
  if offer.type = .wrapItem then 0
  else (w.items.type offer.productId.toNat).weight * offer.count.setWidth 32

/-- Neither free slots nor capacity are in the way. -/
def room (w : World) (p : PlayerId) (offer : ItemOffer) (k : Container) : Bool :=
  decide (¬freeSlots k < requiredSlots offer) && decide (¬w.getFreeCapacity p < capNeeded w offer)

/-- `Game::playerBuyStoreOffer` for an offer of items; `name` is that of the product. -/
def playerBuyStoreOffer (g : Game) (p : PlayerId) (a : Account) (offer : ItemOffer)
    (name : String) : Game × Account :=
  if a.getCoinBalance < offer.price then (g, a)
  else
    match storeInbox g.world p with
    | none => (g, a)
    | some (inbox, k) =>
        if room g.world p offer k then
          deliver g ((a.removeCoins offer.price).registerTransaction (-1 * offer.price)) inbox
            offer name offer.count.toNat
        else (g, a)

end TibServer.Store
