import TibServer.Move

/-!
The trade handlers of the game (`game.cpp`): `playerRequestTrade`,
`playerAcceptTrade`, `playerCloseTrade` and what a log-out does to a trade.

Each handler is a function of the game. What it asks of the map, of the client
and of the event scripts is a record of answers.
-/

namespace TibServer

/-- What the trade handlers ask of the rest of the server: the line of sight
between two positions, the path to a position, the containers the player has
open (with the index of the first item shown), the item `findItemOfType` finds
for the client id 0, the players' names, and the scripts `onTradeRequest` and
`onTradeAccept`. -/
structure Surroundings where
  getName : PlayerId → String := fun _ => ""
  canThrowObjectTo : Position → Position → Bool := fun _ _ => true
  hasPathTo : Position → Bool := fun _ => false
  containerByID : Nat → Option (ItemRef × Nat) := fun _ => none
  itemOfClientId : Option ItemRef := none
  onTradeRequest : PlayerId → PlayerId → ItemRef → Bool := fun _ _ _ => true
  onTradeAccept : PlayerId → PlayerId → Option ItemRef → Option ItemRef → Bool :=
    fun _ _ _ _ => true

/-- The trades while two partners exchange their items: both are in
`TRADE_TRANSFER`, and what they trade is off the map. -/
def Trade.exchanging (t : Trade) (player partner : PlayerId) : Trade :=
  (((t.setTradeState player .transfer).setTradeState partner .transfer).eraseItem
    (t.tradeItem player)).eraseItem (t.tradeItem partner)

namespace World

variable (w : World)

/-! ### The item a client points at -/

/-- A wall that holds hangable things hides them from the one side of it. -/
def hidesHangable (p : PlayerId) (pos : Position) : Bool :=
  match w.tile pos with
  | none => false
  | some t =>
      t.hasFlag TILESTATE_SUPPORTS_HANGABLE &&
        if (t.ground.toList ++ t.itemList).any (w.hasProperty · .isVertical) then
          (w.playerPosition p).x + 1 == pos.x
        else (w.playerPosition p).y + 1 == pos.y

/-- The items `Container(Tile*)` lists for a browse field. -/
def browsedItems (t : Tile) : List ItemRef :=
  (t.itemList.filter fun i => ((w.getContainer i).isSome || w.hasProperty i .moveable) &&
    !(w.item i).hasAttribute .uniqueId).reverse

/-- The items an open container shows. -/
def shownItems (c : ItemRef) : List ItemRef :=
  if w.kindOf c = some .browseField then
    match (w.getTile c).bind w.tile with
    | some t => w.browsedItems t
    | none => []
  else w.itemlist c

/-- `Game::internalGetThing(player, pos, stackPos, 0, STACKPOS_TOPDOWN_ITEM)`. -/
def internalGetThing (s : Surroundings) (p : PlayerId) (pos : Position) : Option ItemRef :=
  if pos.x ≠ 0xFFFF then
    match w.tileAt pos.x pos.y pos.z with
    | none => none
    | some q => if w.hidesHangable p q then none else (w.tile q).bind (·.getTopDownItem)
  else if pos.y &&& 0x40 ≠ 0 then
    match s.containerByID (pos.y &&& 0x0F) with
    | none => none
    | some (c, first) =>
        if w.kindOf c = some .browseField ∧ ((w.getTile c).map (w.hidesHangable p)) = some true then
          none
        else (w.shownItems c)[first + pos.z]?
  else if pos.y = 0 ∧ pos.z = 0 then s.itemOfClientId
  else w.getInventoryItem p (pos.y % 256 : Nat)

end World

/-! ### A request -/

/-- What becomes of a request before a trade is opened. -/
inductive TradeRequest
  | ignored
  | refused (ret : ReturnValue)
  | told (text : String)
  /-- The player is sent to the item, and asks again. -/
  | walk
  | granted (item : ItemRef)
  deriving DecidableEq

namespace Game

variable (g : Game)

def isOnline (p : PlayerId) : Bool := g.world.players.contains p

/-- The loops over `tradeItems`: the item, or one it lies in or holds, is on a table. -/
def isTraded (item : ItemRef) : Bool :=
  g.trade.tradeItems.keys.any fun i =>
    item == i ||
      ((g.world.getContainer item).isSome && g.world.isHoldingItem item i) ||
      ((g.world.getContainer i).isSome && g.world.isHoldingItem i item)

/-- The checks on the item itself. -/
def offeredItem (s : Surroundings) (player tradePartner : PlayerId) (pos : Position)
    (spriteId : Nat) : TradeRequest :=
  match g.world.internalGetThing s player pos with
  | none => .refused .notPossible
  | some item =>
      let playerPosition := g.world.playerPosition player
      let itemPosition := g.world.itemPosition item
      if (g.world.typeOf item).clientId ≠ spriteId ∨ !g.world.isPickupable item ∨
          (g.world.item item).hasAttribute .uniqueId then .refused .notPossible
      else if playerPosition.z > itemPosition.z then .refused .firstGoUpStairs
      else if playerPosition.z < itemPosition.z then .refused .firstGoDownStairs
      else if !World.areInRange 1 1 0 itemPosition playerPosition then
        if s.hasPathTo pos then .walk else .refused .thereIsNoWay
      else if g.isTraded item then .told "This item is already being traded."
      else if (g.world.getContainer item).isSome ∧ g.world.getItemHoldingCount item + 1 > 100 then
        .told "You can not trade more than 100 items."
      else if !s.onTradeRequest player tradePartner item then .ignored
      else .granted item

def tradeRequest (s : Surroundings) (player : PlayerId) (pos : Position)
    (tradePlayerId : PlayerId) (spriteId : Nat) : TradeRequest :=
  if !g.isOnline player then .ignored
  else if !g.isOnline tradePlayerId ∨ tradePlayerId = player then .told "Sorry, not possible."
  else
    let playerPosition := g.world.playerPosition player
    let partnerPosition := g.world.playerPosition tradePlayerId
    if !World.areInRange 2 2 0 partnerPosition playerPosition then
      .told (s.getName tradePlayerId ++ " tells you to move closer.")
    else if !s.canThrowObjectTo partnerPosition playerPosition then
      .refused .creatureIsNotReachable
    else g.offeredItem s player tradePlayerId pos spriteId

def setTrade (t : Trade) : Game := { g with trade := t }

@[simp] theorem setTrade_world (t : Trade) : (g.setTrade t).world = g.world := rfl
@[simp] theorem setTrade_trade (t : Trade) : (g.setTrade t).trade = t := rfl

/-- `Game::playerRequestTrade`. -/
def playerRequestTrade (s : Surroundings) (player : PlayerId) (pos : Position)
    (tradePlayerId : PlayerId) (spriteId : Nat) : Game :=
  match g.tradeRequest s player pos tradePlayerId spriteId with
  | .granted item =>
      match g.trade.internalStartTrade player tradePlayerId item with
      | .ok t => g.setTrade t
      | .error _ => g
  | _ => g

/-! ### An accept -/

/-- `Game::internalAddItem` and `internalRemoveItem` as tests, also without an item. -/
def testAdd (p : PlayerId) (item : Option ItemRef) : ReturnValue :=
  match item with
  | some i => (g.internalAddItem (.player p) i INDEX_WHEREEVER {} true).ret
  | none => .notPossible

def testRemove (item : ItemRef) : ReturnValue :=
  (g.internalRemoveItem item (some (g.world.getItemCount item)) true).1

/-- Whether the two items can change hands, as far as the tests say. -/
def canExchange (player partner : PlayerId) (item₁ item₂ : ItemRef) : Bool :=
  g.testAdd partner (some item₁) == .noError && g.testAdd player (some item₂) == .noError &&
    g.testRemove item₁ == .noError && g.testRemove item₂ == .noError

/-- The two moves: the second one's answer is not looked at. -/
def exchangeItems (player partner : PlayerId) (item₁ item₂ : ItemRef) : Game :=
  match g.world.getParent item₁, g.world.getParent item₂ with
  | some cylinder₁, some cylinder₂ =>
      let count₂ := g.world.getItemCount item₂
      let r := g.internalMoveItem cylinder₁ (.player partner) INDEX_WHEREEVER item₁
        (g.world.getItemCount item₁) { ignoreAutoStack := true } none (some item₂)
      if r.ret = .noError then
        (r.game.internalMoveItem cylinder₂ (.player player) INDEX_WHEREEVER item₂ count₂
          { ignoreAutoStack := true }).game
      else r.game
  | _, _ => g

/-- Both players have accepted: their items change hands, if they can, and the
trade is over. -/
def completeTrade (s : Surroundings) (player partner : PlayerId) : Game :=
  let item₁ := g.trade.tradeItem player
  let item₂ := g.trade.tradeItem partner
  if !s.onTradeAccept player partner item₁ item₂ then
    g.setTrade (g.trade.internalCloseTrade player)
  else
    let g := g.setTrade (g.trade.exchanging player partner)
    let g :=
      match item₁, item₂ with
      | some i₁, some i₂ =>
          if g.canExchange player partner i₁ i₂ then g.exchangeItems player partner i₁ i₂ else g
      | _, _ => g
    g.setTrade ((g.trade.clear player).clear partner)

/-- The checks of an accept: the partner of the player, if the accept counts. -/
def acceptPartner (s : Surroundings) (player : PlayerId) : Option PlayerId :=
  if !g.isOnline player then none
  else if g.trade.tradeState player ≠ .acknowledge ∧ g.trade.tradeState player ≠ .initiated then
    none
  else
    (g.trade.tradePartner player).filter fun partner =>
      s.canThrowObjectTo (g.world.playerPosition partner) (g.world.playerPosition player)

/-- `Game::playerAcceptTrade`. -/
def playerAcceptTrade (s : Surroundings) (player : PlayerId) : Game :=
  match g.acceptPartner s player with
  | none => g
  | some partner =>
      let g := g.setTrade (g.trade.setTradeState player .accept)
      if g.trade.tradeState partner = .accept then g.completeTrade s player partner else g

/-! ### Closing -/

/-- `Game::playerCloseTrade`. -/
def playerCloseTrade (player : PlayerId) : Game :=
  if !g.isOnline player then g else g.setTrade (g.trade.internalCloseTrade player)

/-- `Player::onRemoveCreature` of the player who logs out. -/
def logout (player : PlayerId) : Game :=
  let w := { g.world with players := g.world.players.filter (· ≠ player) }
  if (g.trade.tradePartner player).isSome then
    { world := w, trade := g.trade.internalCloseTrade player }
  else { g with world := w }

end Game

end TibServer
