import TibServer.ItemType

/-!
The market (`game.cpp`, `iomarket.cpp`): the table of offers, the handlers of the players, and
the expiry of offers, whose query runs in the thread of the database and whose callback comes
back to the dispatcher later.

A player stands for what the handlers ask about it, online or stored: the units that
`getMarketItemList` finds in the depot locker, by ware, the units in the inbox, by type, and the
coins of the account. The history of the market and the messages to the clients are left out.
Every statement on the table succeeds. The rest of the game may change the players as it likes
between two tasks of the dispatcher.
-/

namespace TibServer.Market

inductive MarketAction
  | buy | sell
  deriving DecidableEq, Repr

/-- A row of `market_offers`. -/
structure MarketOffer where
  id : Nat
  playerId : Nat
  sale : MarketAction
  itemtype : Nat
  amount : Nat
  price : Nat
  created : Int
  deriving DecidableEq, Repr

/-- A player, by `guid`. `loads` says that `loadPlayerById` reads it. -/
structure Player where
  isOnline : Bool := false
  loads : Bool := true
  isInMarket : Bool := false
  isPremium : Bool := false
  bankBalance : Nat := 0
  coinBalance : Nat := 0
  wares : Nat → Nat := fun _ => 0
  inbox : Nat → Nat := fun _ => 0

/-- `fee` is the fee of a price and an amount before its bounds, which is computed in floating
point. -/
structure Config where
  items : Items
  getItemIdByClientId : Nat → ItemType
  fee : Nat → Nat → Nat
  marketPremium : Bool := true
  maxOfferCount : Nat := 100
  marketOfferDuration : Nat := 2592000

structure State where
  /-- The table, and the next value of its `AUTO_INCREMENT`. -/
  offers : List MarketOffer := []
  nextId : Nat := 1
  /-- The expiry queries that wait for the thread of the database, by their date. -/
  queries : List Int := []
  /-- The result sets whose callbacks wait for the dispatcher. -/
  fetched : List (List MarketOffer) := []
  /-- What is left of the result set of the callback that runs. -/
  running : List MarketOffer := []
  players : Nat → Player := fun _ => {}

/-- What happened to an offer, as it stood in the table: units, or gold where an offer to buy is
cancelled or expires. -/
inductive Event
  | posted (offer : MarketOffer)
  | accepted (offer : MarketOffer) (amount : Nat)
  | cancelled (offer : MarketOffer) (given : Nat)
  | expired (offer : MarketOffer) (given : Nat)
  deriving DecidableEq, Repr

def ITEM_TIBIA_COIN : Nat := 24774

namespace State

variable (s : State)

def updatePlayer (guid : Nat) (f : Player → Player) : State :=
  { s with players := Function.update s.players guid (f (s.players guid)) }

/-! ### The table -/

/-- `IOMarket::getOfferByCounter`. -/
def getOfferByCounter (cfg : Config) (timestamp : Int) (counter : Nat) : Option MarketOffer :=
  s.offers.find? fun offer =>
    decide (offer.created = timestamp - cfg.marketOfferDuration) && offer.id % 65536 == counter

def getPlayerOfferCount (playerId : Nat) : Nat :=
  (s.offers.filter (·.playerId = playerId)).length

def createOffer (playerId : Nat) (action : MarketAction) (itemId amount price : Nat) (now : Int) :
    State × List Event :=
  let offer := ⟨s.nextId, playerId, action, itemId, amount, price, now⟩
  ({ s with offers := s.offers ++ [offer], nextId := s.nextId + 1 }, [.posted offer])

def acceptOffer (offerId amount : Nat) : State :=
  { s with
    offers := s.offers.map fun offer =>
      if offer.id = offerId then { offer with amount := offer.amount - amount } else offer }

def deleteOffer (offerId : Nat) : State :=
  { s with offers := s.offers.filter (·.id ≠ offerId) }

/-! ### Giving -/

/-- `player->bankBalance += value` where the player is online or was loaded, and
`increaseBankBalance` where not: a sum that is out of range is not stored. -/
def increaseBankBalance (guid value : Nat) : State :=
  s.updatePlayer guid fun player =>
    if player.isOnline then { player with bankBalance := (player.bankBalance + value) % 2 ^ 64 }
    else if player.bankBalance + value < 2 ^ 64 then
      { player with bankBalance := player.bankBalance + value }
    else player

def decreaseBankBalance (guid value : Nat) : State :=
  s.updatePlayer guid fun player => { player with bankBalance := player.bankBalance - value }

def addCoins (guid amount : Nat) : State :=
  s.updatePlayer guid fun player => { player with coinBalance := player.coinBalance + amount }

def removeCoins (guid amount : Nat) : State :=
  s.updatePlayer guid fun player => { player with coinBalance := player.coinBalance - amount }

def removeWares (guid wareId amount : Nat) : State :=
  s.updatePlayer guid fun player =>
    { player with wares := fun ware =>
        if ware = wareId then player.wares ware - amount else player.wares ware }

def addToInbox (guid id amount : Nat) : State :=
  s.updatePlayer guid fun player =>
    { player with inbox := fun type =>
        if type = id then player.inbox type + amount else player.inbox type }

end State

/-- The id of the item that `CreateItem` makes. -/
def deliveredId (items : Items) (id : Nat) : Nat :=
  if (items.type id).hasClass then id else createdId id

/-- `CreateItem` makes an item, and the inbox takes it without a limit. -/
def inboxTakes (items : Items) (id : Nat) : Bool :=
  (items.type id).group != .deprecated && (items.type id).id != 0 &&
    (items.type (deliveredId items id)).pickupable

/-- The loop that gives stackable items to an inbox: the units that came in. -/
def giveStacks (takes : Bool) (tmpAmount : Nat) : Nat :=
  if 0 < tmpAmount then
    let stackCount := min 100 tmpAmount
    if takes then stackCount + giveStacks takes (tmpAmount - stackCount) else 0
  else 0
  termination_by tmpAmount

/-- The loop that gives items that do not stack. -/
def giveItems (takes : Bool) : Nat → Nat
  | 0 => 0
  | amount + 1 => if takes then 1 + giveItems takes amount else 0

/-- The units of `amount` that come into an inbox. -/
def unitsGiven (items : Items) (it : ItemType) (amount : Nat) : Nat :=
  if it.stackable then giveStacks (inboxTakes items it.id) amount
  else giveItems (inboxTakes items it.id) amount

def State.giveUnits (items : Items) (s : State) (guid : Nat) (it : ItemType) (amount : Nat) :
    State :=
  s.addToInbox guid (deliveredId items it.id) (unitsGiven items it amount)

/-! ### The handlers -/

section Handlers

variable (cfg : Config) (s : State)

/-- The fee within its bounds. -/
def Config.offerFee (price amount : Nat) : Nat := min (max (cfg.fee price amount) 20) 1000

/-- `Game::playerCreateMarketOffer`. -/
def playerCreateMarketOffer (guid : Nat) (type : MarketAction) (spriteId amount price : Nat)
    (now : Int) : State × List Event :=
  let player := s.players guid
  let itt := cfg.getItemIdByClientId spriteId
  let it := cfg.getItemIdByClientId itt.wareId
  let fee := cfg.offerFee price amount
  let totalPrice := price * amount + fee
  if amount = 0 ∨ 64000 < amount then (s, [])
  else if price = 0 ∨ 999999999 < price then (s, [])
  else if player.isOnline = false ∨ player.isInMarket = false then (s, [])
  else if cfg.marketPremium && !player.isPremium then (s, [])
  else if itt.id = 0 ∨ itt.wareId = 0 then (s, [])
  else if it.id = 0 ∨ it.wareId = 0 then (s, [])
  else if it.stackable = false ∧ 2000 < amount then (s, [])
  else if cfg.maxOfferCount ≠ 0 ∧ cfg.maxOfferCount ≤ s.getPlayerOfferCount guid then (s, [])
  else match type with
    | .sell =>
        if player.bankBalance < fee then (s, [])
        else if it.id = ITEM_TIBIA_COIN then
          if player.coinBalance < amount then (s, [])
          else ((s.removeCoins guid amount).decreaseBankBalance guid fee).createOffer guid type
            it.id amount price now
        else if player.wares it.wareId < amount then (s, [])
        else ((s.removeWares guid it.wareId amount).decreaseBankBalance guid fee).createOffer guid
          type it.id amount price now
    | .buy =>
        if player.bankBalance < totalPrice then (s, [])
        else (s.decreaseBankBalance guid totalPrice).createOffer guid type it.id amount price now

/-- `Game::playerCancelMarketOffer`. -/
def playerCancelMarketOffer (guid : Nat) (timestamp : Int) (counter : Nat) : State × List Event :=
  let player := s.players guid
  if player.isOnline = false ∨ player.isInMarket = false then (s, [])
  else match s.getOfferByCounter cfg timestamp counter with
    | none => (s, [])
    | some offer =>
        let it := cfg.items.type offer.itemtype
        if offer.playerId ≠ guid then (s, [])
        else match offer.sale with
          | .buy =>
              let totalPrice := offer.price * offer.amount
              ((s.increaseBankBalance guid totalPrice).deleteOffer offer.id,
                [.cancelled offer totalPrice])
          | .sell =>
              if it.id = 0 then (s, [])
              else if it.id = ITEM_TIBIA_COIN then
                ((s.addCoins guid offer.amount).deleteOffer offer.id,
                  [.cancelled offer offer.amount])
              else ((s.giveUnits cfg.items guid it offer.amount).deleteOffer offer.id,
                [.cancelled offer (unitsGiven cfg.items it offer.amount)])

/-- The end of `Game::playerAcceptMarketOffer`: what is left of the offer is stored. -/
def storeAccepted (offer : MarketOffer) (amount : Nat) : State × List Event :=
  if offer.amount - amount = 0 then (s.deleteOffer offer.id, [.accepted offer amount])
  else (s.acceptOffer offer.id amount, [.accepted offer amount])

/-- `Game::playerAcceptMarketOffer`. -/
def playerAcceptMarketOffer (guid : Nat) (timestamp : Int) (counter amount : Nat) :
    State × List Event :=
  let player := s.players guid
  if amount = 0 ∨ 64000 < amount then (s, [])
  else if player.isOnline = false ∨ player.isInMarket = false then (s, [])
  else match s.getOfferByCounter cfg timestamp counter with
    | none => (s, [])
    | some offer =>
        let it := cfg.items.type offer.itemtype
        let buyer := s.players offer.playerId
        let totalPrice := offer.price * amount
        if offer.amount < amount then (s, [])
        else if it.id = 0 then (s, [])
        else match offer.sale with
          | .buy =>
              if (buyer.isOnline || buyer.loads) = false then (s, [])
              else if it.id = ITEM_TIBIA_COIN then
                if player.coinBalance < amount then (s, [])
                else storeAccepted (((s.removeCoins guid amount).increaseBankBalance guid
                  totalPrice).addCoins offer.playerId amount) offer amount
              else if player.wares it.wareId < amount then (s, [])
              else storeAccepted (((s.removeWares guid it.wareId amount).increaseBankBalance guid
                totalPrice).giveUnits cfg.items offer.playerId it amount) offer amount
          | .sell =>
              if player.bankBalance < totalPrice then (s, [])
              else if it.id = ITEM_TIBIA_COIN then
                storeAccepted (((s.decreaseBankBalance guid totalPrice).addCoins guid
                  amount).increaseBankBalance offer.playerId totalPrice) offer amount
              else storeAccepted (((s.decreaseBankBalance guid totalPrice).giveUnits cfg.items guid
                it amount).increaseBankBalance offer.playerId totalPrice) offer amount

/-! ### The expiry -/

/-- `IOMarket::checkExpiredOffers`: the date is taken when the query is made. -/
def checkExpiredOffers (now : Int) : State :=
  { s with queries := s.queries ++ [now - cfg.marketOfferDuration] }

/-- The query of the expiry, in the thread of the database. -/
def selectExpired (date : Int) : List MarketOffer := s.offers.filter (·.created ≤ date)

/-- What `IOMarket::processExpiredOffers` does with a row of its result set. The offer that goes
to the history is the row of the table, the row of the result set is what was fetched. -/
def processExpiredOffer (row : MarketOffer) : State × List Event :=
  match s.offers.find? (·.id = row.id) with
  | none => (s, [])
  | some offer =>
      let s := s.deleteOffer row.id
      let itemType := cfg.items.type row.itemtype
      let player := s.players row.playerId
      match row.sale with
      | .sell =>
          if itemType.id = 0 then (s, [.expired offer 0])
          else if (player.isOnline || player.loads) = false then (s, [.expired offer 0])
          else (s.giveUnits cfg.items row.playerId itemType row.amount,
            [.expired offer (unitsGiven cfg.items itemType row.amount)])
      | .buy =>
          let totalPrice := row.price * row.amount
          (s.increaseBankBalance row.playerId totalPrice, [.expired offer totalPrice])

/-- A task of the dispatcher or of the thread of the database. The callback of an expiry is one
task of the dispatcher, and while it runs only the thread of the database takes steps. -/
inductive Step : State → List Event → State → Prop
  | create (s : State) (guid : Nat) (type : MarketAction) (spriteId amount price : Nat) (now : Int)
      (idle : s.running = []) :
      Step s (playerCreateMarketOffer cfg s guid type spriteId amount price now).2
        (playerCreateMarketOffer cfg s guid type spriteId amount price now).1
  | cancel (s : State) (guid : Nat) (timestamp : Int) (counter : Nat) (idle : s.running = []) :
      Step s (playerCancelMarketOffer cfg s guid timestamp counter).2
        (playerCancelMarketOffer cfg s guid timestamp counter).1
  | accept (s : State) (guid : Nat) (timestamp : Int) (counter amount : Nat)
      (idle : s.running = []) :
      Step s (playerAcceptMarketOffer cfg s guid timestamp counter amount).2
        (playerAcceptMarketOffer cfg s guid timestamp counter amount).1
  | check (s : State) (now : Int) (idle : s.running = []) :
      Step s [] (checkExpiredOffers cfg s now)
  | select (s : State) (date : Int) (queries : List Int) (first : s.queries = date :: queries) :
      Step s [] { s with queries, fetched := s.fetched ++ [selectExpired s date] }
  | callback (s : State) (rows : List MarketOffer) (fetched : List (List MarketOffer))
      (idle : s.running = []) (first : s.fetched = rows :: fetched) :
      Step s [] { s with fetched, running := rows }
  | row (s : State) (row : MarketOffer) (rows : List MarketOffer) (next : s.running = row :: rows) :
      Step s (processExpiredOffer cfg { s with running := rows } row).2
        (processExpiredOffer cfg { s with running := rows } row).1
  | other (s : State) (players : Nat → Player) (idle : s.running = []) :
      Step s [] { s with players }

/-- A run from a state, with what happened in it, whose steps are taken in states that meet a
condition. -/
inductive Run (condition : State → Prop) (first : State) : List Event → State → Prop
  | refl : Run condition first [] first
  | tail {events events' : List Event} {s s' : State} (run : Run condition first events s)
      (meets : condition s) (step : Step cfg s events' s') :
      Run condition first (events ++ events') s'

end Handlers

end TibServer.Market
