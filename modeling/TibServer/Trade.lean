import TibServer.Mutators
import Mathlib.Data.List.AList

/-!
Trades between players (`game.cpp`, `player.cpp`): the trade fields of each
player, the map of the items on the table, and what closes a trade when items
change.

`Trade` is kept apart from the world of items: the trade handlers read the
world and change the trades, the item operations change the world and report
their changes to the players near enough to see them.
-/

namespace TibServer

/-- `tradestate_t`. -/
inductive TradeState
  | none | initiated | accept | acknowledge | transfer
  deriving DecidableEq, Repr

/-- The trade fields of `Player`. -/
structure PlayerTrade where
  tradePartner : Option PlayerId := none
  tradeItem : Option ItemRef := none
  tradeState : TradeState := .none
  deriving DecidableEq

/-- All players' trade fields and `Game::tradeItems`. -/
structure Trade where
  player : PlayerId → PlayerTrade
  tradeItems : AList fun _ : ItemRef => PlayerId

namespace Trade

variable (t : Trade)

def tradeItem (p : PlayerId) : Option ItemRef := (t.player p).tradeItem
def tradePartner (p : PlayerId) : Option PlayerId := (t.player p).tradePartner
def tradeState (p : PlayerId) : TradeState := (t.player p).tradeState

def setPlayer (p : PlayerId) (pt : PlayerTrade) : Trade :=
  { t with player := Function.update t.player p pt }

@[simp] theorem setPlayer_tradeItems (p : PlayerId) (pt : PlayerTrade) :
    (t.setPlayer p pt).tradeItems = t.tradeItems := rfl

@[simp] theorem setPlayer_self (p : PlayerId) (pt : PlayerTrade) :
    (t.setPlayer p pt).player p = pt := by simp [setPlayer]

theorem setPlayer_of_ne {p q : PlayerId} (pt : PlayerTrade) (h : q ≠ p) :
    (t.setPlayer p pt).player q = t.player q := by simp [setPlayer, h]

def setTradeState (p : PlayerId) (s : TradeState) : Trade :=
  t.setPlayer p { t.player p with tradeState := s }

/-- Taking an item off the map of items being traded. -/
def eraseItem (i : Option ItemRef) : Trade :=
  match i with
  | some i => { t with tradeItems := t.tradeItems.erase i }
  | none => t

@[simp] theorem eraseItem_player (i : Option ItemRef) : (t.eraseItem i).player = t.player := by
  cases i <;> rfl

/-- One side of `Game::internalCloseTrade`. -/
def leave (p : PlayerId) : Trade := (t.eraseItem (t.tradeItem p)).setPlayer p {}

def internalCloseTrade (p : PlayerId) : Trade :=
  let partner := t.tradePartner p
  if partner.map t.tradeState = some .transfer ∨ t.tradeState p = .transfer then t
  else
    match partner with
    | some q => (t.leave p).leave q
    | none => t.leave p

/-- Putting an item on the table: the fields of the player and the map. -/
def offer (player partner : PlayerId) (item : ItemRef) : Trade :=
  let t := t.setPlayer player
    { tradePartner := some partner, tradeItem := some item, tradeState := .initiated }
  { t with tradeItems := t.tradeItems.insert item player }

/-- `Game::internalStartTrade`: the trade opened, or what the player is told. -/
def internalStartTrade (player partner : PlayerId) (item : ItemRef) : Except ReturnValue Trade :=
  if t.tradeState player ≠ .none ∧
      ¬(t.tradeState player = .acknowledge ∧ t.tradePartner player = some partner) then
    .error .youAreAlreadyTrading
  else if t.tradeState partner ≠ .none ∧ t.tradePartner partner ≠ some player then
    .error .thisPlayerIsAlreadyTrading
  else
    let t := t.offer player partner item
    if t.tradeState partner = .none then
      .ok (t.setPlayer partner
        { t.player partner with tradeState := .acknowledge, tradePartner := some player })
    else .ok t

/-- The end of `playerAcceptTrade`: both players' fields are cleared. -/
def clear (p : PlayerId) : Trade := t.setPlayer p {}

end Trade

/-! ### Who sees a change -/

/-- `Tile::nullptr_tile`'s position. -/
def nullPosition : Position := ⟨0xFFFF, 0xFFFF, 0xFF⟩

namespace World

variable (w : World)

def playerPosition (p : PlayerId) : Position := (w.player p).tile.getD nullPosition

/-- `Thing::getPosition` of an item. -/
def itemPosition (i : ItemRef) : Position := (w.getTile i).getD nullPosition

/-- `Position::areInRange<dx, dy, dz>`. -/
def areInRange (dx dy dz : Int) (p q : Position) : Bool :=
  decide (|(p.x : Int) - q.x| ≤ dx) && decide (|(p.y : Int) - q.y| ≤ dy) &&
    decide (|(p.z : Int) - q.z| ≤ dz)

/-- The floors `Map::getSpectators` looks at. -/
def floorRange (multifloor : Bool) (z : Nat) : Nat × Nat :=
  if !multifloor then (z, z)
  else if z > 7 then (z - 2, min (z + 2) 15)
  else if z = 6 then (0, 8)
  else if z = 7 then (0, 9)
  else (0, 7)

/-- `Map::getSpectators`, the players among the spectators. -/
def getSpectators (center : Position) (multifloor : Bool) (range : Int) : List PlayerId :=
  if center.z ≥ MAP_MAX_LAYERS then []
  else
    let (minZ, maxZ) := floorRange multifloor center.z
    w.players.filter fun p =>
      let q := w.playerPosition p
      let offsetZ : Int := (center.z : Int) - q.z
      decide (minZ ≤ q.z) && decide (q.z ≤ maxZ) &&
        decide (|(q.x : Int) - (center.x + offsetZ)| ≤ range) &&
        decide (|(q.y : Int) - (center.y + offsetZ)| ≤ range)

def maxViewport : Int := 11

/-- Those the hooks of a container tell. -/
def containerSpectators (c : ItemRef) : List PlayerId :=
  w.getSpectators (w.itemPosition c) false 2

/-- Those the hooks of a tile tell. -/
def tileSpectators (pos : Position) : List PlayerId := w.getSpectators pos true maxViewport

/-- `while (container) { ...; container = container->getParent() }`: the
containers an item lies in, up to the first cylinder that is none. -/
def holders (i : ItemRef) : List ItemRef :=
  (w.ancestors i).takeWhile (fun c => match c with | .container _ => true | _ => false)
    |>.filterMap fun c => match c with | .container r => some r | _ => none

/-! ### The hooks of a player -/

def checkTradeState (p : PlayerId) (i : ItemRef) (t : Trade) : Trade :=
  match t.tradeItem p with
  | none => t
  | some ti =>
      if t.tradeState p = .transfer then t
      else if ti = i ∨ ti ∈ w.holders i then t.internalCloseTrade p
      else t

/-- `container->isHoldingItem(tradeItem)` closes the trade of the player. -/
def checkHolding (p : PlayerId) (c : ItemRef) (t : Trade) : Trade :=
  match t.tradeItem p with
  | none => t
  | some ti => if w.isHoldingItem c ti then t.internalCloseTrade p else t

def onRemoveContainerItem (p : PlayerId) (container i : ItemRef) (t : Trade) : Trade :=
  if t.tradeState p = .transfer then t
  else
    let t := w.checkTradeState p i t
    match t.tradeItem p with
    | none => t
    | some ti =>
        if w.getParent ti ≠ some (.container container) then w.checkHolding p container t else t

def onUpdateContainerItem (p : PlayerId) (container old new : ItemRef) (t : Trade) : Trade :=
  let t := if old ≠ new then w.onRemoveContainerItem p container old t else t
  if t.tradeState p = .transfer then t else w.checkTradeState p old t

def onRemoveInventoryItem (p : PlayerId) (i : ItemRef) (t : Trade) : Trade :=
  if t.tradeState p = .transfer then t
  else
    let t := w.checkTradeState p i t
    if (w.getContainer i).isSome then w.checkHolding p i t else t

def onUpdateInventoryItem (p : PlayerId) (old new : ItemRef) (t : Trade) : Trade :=
  let t := if old ≠ new then w.onRemoveInventoryItem p old t else t
  if t.tradeState p = .transfer then t else w.checkTradeState p old t

/-- `Player::onRemoveTileItem` does what `Player::onRemoveInventoryItem` does. -/
def onRemoveTileItem (p : PlayerId) (i : ItemRef) (t : Trade) : Trade :=
  w.onRemoveInventoryItem p i t

def onUpdateTileItem (p : PlayerId) (old new : ItemRef) (t : Trade) : Trade :=
  let t := if old ≠ new then w.onRemoveTileItem p old t else t
  if t.tradeState p = .transfer then t
  else if t.tradeItem p = some old then t.internalCloseTrade p
  else t

/-! ### The hooks of containers and tiles, told to every spectator -/

/-- The players of a list are told one after the other. -/
def notifyAll (players : List PlayerId) (hook : PlayerId → Trade → Trade) (t : Trade) : Trade :=
  players.foldl (fun t p => hook p t) t

def containerOnAdd (c i : ItemRef) (t : Trade) : Trade :=
  if (w.getParent c).isSome then
    notifyAll (w.containerSpectators c) (fun p => w.checkTradeState p i) t
  else t

def containerOnUpdate (c old new : ItemRef) (t : Trade) : Trade :=
  if (w.getParent c).isSome then
    notifyAll (w.containerSpectators c) (fun p => w.onUpdateContainerItem p c old new) t
  else t

def containerOnRemove (c i : ItemRef) (t : Trade) : Trade :=
  if (w.getParent c).isSome then
    notifyAll (w.containerSpectators c) (fun p => w.onRemoveContainerItem p c i) t
  else t

def tileOnUpdate (pos : Position) (old new : ItemRef) (t : Trade) : Trade :=
  notifyAll (w.tileSpectators pos) (fun p => w.onUpdateTileItem p old new) t

def tileOnRemove (pos : Position) (i : ItemRef) (t : Trade) : Trade :=
  notifyAll (w.tileSpectators pos) (fun p => w.onRemoveTileItem p i) t

end World

end TibServer
