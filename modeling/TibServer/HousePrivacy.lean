import TibServer.AccessList

/-!
Who is inside a house (`house.cpp`, `housetile.cpp`). A house lets in its owner and those on its
lists; whoever a new list or a new owner shuts out is thrown out at the entry. Players walk, log in
and out, and the lists change in any order.
-/

namespace TibServer.HousePrivacy

abbrev PlayerId := ℕ

abbrev TileId := ℕ

abbrev HouseId := ℕ

def GUEST_LIST : ℕ := 0x100

def SUBOWNER_LIST : ℕ := 0x101

def MAP_MAX_LAYERS : ℕ := 16

inductive AccessHouseLevel
  | HOUSE_NOT_INVITED
  | HOUSE_GUEST
  | HOUSE_SUBOWNER
  | HOUSE_OWNER
  deriving DecidableEq, Repr

/-- The number of the level, by which levels compare. -/
def AccessHouseLevel.toNat : AccessHouseLevel → ℕ
  | HOUSE_NOT_INVITED => 0
  | HOUSE_GUEST => 1
  | HOUSE_SUBOWNER => 2
  | HOUSE_OWNER => 3

structure Door where
  doorId : ℕ
  accessList : AccessList := {}

structure House where
  owner : ℕ := 0
  isLoaded : Bool := false
  subOwnerList : AccessList := {}
  guestList : AccessList := {}
  doorList : List Door := []

structure Player where
  person : AccessList.Player
  /-- Ids in the database start at one. -/
  identified : person.guid ≠ 0
  /-- `hasFlag(PlayerFlag_CanEditHouses)` -/
  canEditHouses : Bool := false
  editHouse : Option HouseId := none
  editListId : ℕ := 0
  windowTextId : BitVec 32 := 0
  /-- `getTile()` -/
  tile : Option TileId := none

/-- The map, as it was loaded. -/
structure MapData where
  /-- The house of a `HouseTile`. -/
  houseOf : TileId → Option HouseId
  houseTiles : HouseId → List TileId
  listed : ∀ h t, t ∈ houseTiles h ↔ houseOf t = some h
  /-- The tile at the entry position. -/
  entry : HouseId → Option TileId
  /-- The tile of a player's temple, or `nullptr_tile`. -/
  temple : PlayerId → TileId
  /-- `Tile::queryDestination`: where stairs lead, else the tile itself. -/
  destination : TileId → TileId

/-- Houses are entered from outside, and stairs in them stay in them. -/
structure MapData.Sound (m : MapData) : Prop where
  entries : ∀ h, ∃ t, m.entry h = some t ∧ m.houseOf t = none
  stairs : ∀ t h, m.houseOf (m.destination t) = some h → m.houseOf t = some h

structure World where
  houses : HouseId → House
  players : PlayerId → Player
  /-- The players among the creatures of a tile. -/
  creatures : TileId → List PlayerId

/-! ### Access -/

namespace House

/-- `House::getHouseAccessLevel` -/
def getHouseAccessLevel (house : House) : Option Player → AccessHouseLevel
  | none => .HOUSE_OWNER
  | some player =>
      if player.canEditHouses then .HOUSE_OWNER
      else if player.person.guid = house.owner then .HOUSE_OWNER
      else if house.subOwnerList.isInList player.person then .HOUSE_SUBOWNER
      else if house.guestList.isInList player.person then .HOUSE_GUEST
      else .HOUSE_NOT_INVITED

/-- `House::isInvited` -/
def isInvited (house : House) (player : Player) : Bool :=
  house.getHouseAccessLevel (some player) ≠ .HOUSE_NOT_INVITED

/-- `House::canEditAccessList` -/
def canEditAccessList (house : House) (listId : ℕ) (player : Player) : Bool :=
  match house.getHouseAccessLevel (some player) with
  | .HOUSE_OWNER => true
  | .HOUSE_SUBOWNER => listId = GUEST_LIST
  | _ => false

end House

/-- `Door::canUse`, for a door of this house. -/
def Door.canUse (door : Door) (house : House) (player : Player) : Bool :=
  if AccessHouseLevel.HOUSE_SUBOWNER.toNat ≤ (house.getHouseAccessLevel (some player)).toNat then
    true
  else door.accessList.isInList player.person

/-- `Door::setAccessList` for the first door of this number. -/
def setDoorList (d : AccessList.Directory) (listId : ℕ) (textlist : List Char) :
    List Door → List Door
  | [] => []
  | door :: doors =>
      if door.doorId = listId then
        { door with accessList := door.accessList.parseList d textlist } :: doors
      else door :: setDoorList d listId textlist doors

/-! ### Moving -/

namespace World

def setHouse (w : World) (h : HouseId) (house : House) : World :=
  { w with houses := Function.update w.houses h house }

def setPlayer (w : World) (x : PlayerId) (player : Player) : World :=
  { w with players := Function.update w.players x player }

/-- `Tile::removeThing` -/
def removeThing (w : World) (tile : TileId) (x : PlayerId) : World :=
  { w with creatures := Function.update w.creatures tile ((w.creatures tile).erase x) }

/-- `Tile::addThing` -/
def addThing (w : World) (tile : TileId) (x : PlayerId) : World :=
  { w.setPlayer x { w.players x with tile := some tile } with
    creatures := Function.update w.creatures tile (x :: w.creatures tile) }

/-- `Map::moveCreature` -/
def moveCreature (w : World) (x : PlayerId) (newTile : TileId) : World :=
  match (w.players x).tile with
  | none => w
  | some oldTile => (w.removeThing oldTile x).addThing newTile x

/-- `HouseTile::queryAdd`; `allowed` is the answer of `Tile::queryAdd`. -/
def queryAdd (m : MapData) (w : World) (tile : TileId) (x : PlayerId) (allowed : Bool) : Bool :=
  match m.houseOf tile with
  | none => allowed
  | some h => if !(w.houses h).isInvited (w.players x) then false else allowed

/-- `HouseTile::queryDestination` -/
def queryDestination (m : MapData) (w : World) (tile : TileId) (x : PlayerId) : TileId :=
  match m.houseOf tile with
  | none => m.destination tile
  | some h =>
      if !(w.houses h).isInvited (w.players x) then
        match m.entry h with
        | some entry => entry
        | none => m.temple x
      else m.destination tile

/-- The loop of `Game::internalMoveCreature`. -/
def moveOn (m : MapData) (x : PlayerId) : ℕ → World → TileId → World
  | 0, w, _ => w
  | n + 1, w, toCylinder =>
      let subCylinder := w.queryDestination m toCylinder x
      if subCylinder = toCylinder then w
      else moveOn m x n (w.moveCreature x subCylinder) subCylinder

/-- `Game::internalMoveCreature` -/
def internalMoveCreature (m : MapData) (w : World) (x : PlayerId) (toTile : TileId)
    (allowed : Bool) : World :=
  if w.queryAdd m toTile x allowed then
    moveOn m x MAP_MAX_LAYERS (w.moveCreature x toTile) toTile
  else w

/-- `Game::internalTeleport`; with `FLAG_NOLIMIT` a tile takes every creature. -/
def internalTeleport (m : MapData) (w : World) (x : PlayerId) (newPos : Option TileId) : World :=
  if newPos = (w.players x).tile then w
  else
    match newPos with
    | none => w
    | some toTile => if w.queryAdd m toTile x true then w.moveCreature x toTile else w

/-- `Map::placeCreature`, on a tile where there was room. -/
def placeCreature (m : MapData) (w : World) (x : PlayerId) (tile : TileId) : World :=
  w.addThing (w.queryDestination m tile x) x

/-- `Game::removeCreature` -/
def removeCreature (w : World) (x : PlayerId) : World :=
  match (w.players x).tile with
  | none => w
  | some tile => (w.removeThing tile x).setPlayer x { w.players x with tile := none }

/-! ### Throwing out -/

/-- `House::kickPlayer` -/
def kickPlayer (m : MapData) (w : World) (h : HouseId) (player : Option PlayerId)
    (target : PlayerId) : World :=
  match (w.players target).tile with
  | none => w
  | some tile =>
      if m.houseOf tile ≠ some h then w
      else if ((w.houses h).getHouseAccessLevel (player.map w.players)).toNat <
          ((w.houses h).getHouseAccessLevel (some (w.players target))).toNat ||
          (w.players target).canEditHouses then w
      else w.internalTeleport m target (m.entry h)

/-- The loop over the creatures of a tile, from the last one on, with those that are `out`. -/
def kickFrom (m : MapData) (h : HouseId) (tile : TileId) (out : House → Player → Bool) :
    ℕ → World → World
  | 0, w => w
  | i + 1, w =>
      match (w.creatures tile)[i]? with
      | none => kickFrom m h tile out i w
      | some x =>
          kickFrom m h tile out i
            (if out (w.houses h) (w.players x) then w.kickPlayer m h none x else w)

/-- The loop over the tiles of a house. -/
def kickAll (m : MapData) (h : HouseId) (out : House → Player → Bool) :
    List TileId → World → World
  | [], w => w
  | tile :: tiles, w =>
      kickAll m h out tiles (kickFrom m h tile out (w.creatures tile).length w)

/-- `House::setAccessList` -/
def setAccessList (m : MapData) (w : World) (h : HouseId) (d : AccessList.Directory) (listId : ℕ)
    (textlist : List Char) : World :=
  let house := w.houses h
  let uninvited := fun (house : House) player => !house.isInvited player
  if listId = GUEST_LIST then
    kickAll m h uninvited (m.houseTiles h)
      (w.setHouse h { house with guestList := house.guestList.parseList d textlist })
  else if listId = SUBOWNER_LIST then
    kickAll m h uninvited (m.houseTiles h)
      (w.setHouse h { house with subOwnerList := house.subOwnerList.parseList d textlist })
  else w.setHouse h { house with doorList := setDoorList d listId textlist house.doorList }

/-- What `House::setOwner` does where someone owned the house: all are thrown out and all lists
emptied. -/
def vacate (m : MapData) (w : World) (h : HouseId) (d : AccessList.Directory) : World :=
  let w := kickAll m h (fun _ _ => true) (m.houseTiles h) w
  let w := w.setHouse h { w.houses h with owner := 0 }
  let w := w.setAccessList m h d SUBOWNER_LIST []
  let w := w.setAccessList m h d GUEST_LIST []
  let house := w.houses h
  w.setHouse h { house with
    doorList := house.doorList.map fun door =>
      { door with accessList := door.accessList.parseList d [] } }

/-- `House::setOwner`; `known` where the database has a name for the id. -/
def setOwner (m : MapData) (w : World) (h : HouseId) (d : AccessList.Directory) (guid : ℕ)
    (known : Bool) : World :=
  let house := w.houses h
  if house.isLoaded ∧ house.owner = guid then w
  else
    let w := w.setHouse h { house with isLoaded := true }
    let w := if house.owner ≠ 0 then w.vacate m h d else w
    if guid ≠ 0 ∧ known then w.setHouse h { w.houses h with owner := guid } else w

/-! ### Windows -/

/-- `Player::setEditHouse` -/
def setEditHouse (w : World) (x : PlayerId) (house : Option HouseId) (listId : ℕ) : World :=
  let player := w.players x
  w.setPlayer x { player with
    windowTextId := player.windowTextId + 1, editHouse := house, editListId := listId }

/-- `Game::playerUpdateHouseWindow` -/
def playerUpdateHouseWindow (m : MapData) (w : World) (x : PlayerId) (d : AccessList.Directory)
    (listId : ℕ) (windowTextId : BitVec 32) (text : List Char) : World :=
  let player := w.players x
  let w :=
    match player.editHouse with
    | none => w
    | some h =>
        if (w.houses h).canEditAccessList player.editListId player ∧
            player.windowTextId = windowTextId ∧ listId = 0 then
          w.setAccessList m h d player.editListId text
        else w
  w.setEditHouse x none 0

end World

/-! ### Runs -/

inductive Event
  /-- A player logs in, with what the database has of him. -/
  | login (x : PlayerId) (player : Player) (tile : TileId)
  | logout (x : PlayerId)
  | walk (x : PlayerId) (toTile : TileId) (allowed : Bool)
  | teleport (x : PlayerId) (newPos : Option TileId)
  /-- `Map::moveCreature` by a teleporter or a script, which checks nothing. -/
  | force (x : PlayerId) (tile : TileId)
  | setOwner (h : HouseId) (d : AccessList.Directory) (guid : ℕ) (known : Bool)
  | setAccessList (h : HouseId) (d : AccessList.Directory) (listId : ℕ) (text : List Char)
  | setEditHouse (x : PlayerId) (house : Option HouseId) (listId : ℕ)
  | updateHouseWindow (x : PlayerId) (d : AccessList.Directory) (listId : ℕ)
      (windowTextId : BitVec 32) (text : List Char)
  | kickPlayer (h : HouseId) (player : Option PlayerId) (target : PlayerId)
  | setGuild (x : PlayerId) (guild : Option ℕ)
  | setGroup (x : PlayerId) (canEditHouses : Bool)

namespace World

/-- One event. A player who is not online does nothing. -/
def step (m : MapData) (w : World) : Event → World
  | .login x player tile =>
      if (w.players x).tile = none then
        (w.setPlayer x { player with tile := none }).placeCreature m x tile
      else w
  | .logout x => w.removeCreature x
  | .walk x toTile allowed =>
      if (w.players x).tile = none then w else w.internalMoveCreature m x toTile allowed
  | .teleport x newPos =>
      if (w.players x).tile = none then w else w.internalTeleport m x newPos
  | .force x tile => w.moveCreature x tile
  | .setOwner h d guid known => w.setOwner m h d guid known
  | .setAccessList h d listId text => w.setAccessList m h d listId text
  | .setEditHouse x house listId => w.setEditHouse x house listId
  | .updateHouseWindow x d listId windowTextId text =>
      if (w.players x).tile = none then w
      else w.playerUpdateHouseWindow m x d listId windowTextId text
  | .kickPlayer h player target => w.kickPlayer m h player target
  | .setGuild x guild =>
      let player := w.players x
      w.setPlayer x { player with person := { player.person with guild := guild } }
  | .setGroup x canEditHouses =>
      w.setPlayer x { w.players x with canEditHouses := canEditHouses }

def run (m : MapData) (w : World) (events : List Event) : World := events.foldl (step m) w

end World

variable {m : MapData} {w w' w'' : World} {h : HouseId} {x y : PlayerId} {t tile : TileId}

/-! ### Levels -/

@[simp] theorem isInvited_tile (house : House) (player : Player) (t : Option TileId) :
    house.isInvited { player with tile := t } = house.isInvited player := rfl

theorem isInvited_of_canEditHouses {house : House} {player : Player}
    (can : player.canEditHouses = true) : house.isInvited player = true := by
  simp [House.isInvited, House.getHouseAccessLevel, can]

theorem isInvited_iff {house : House} {player : Player} :
    house.isInvited player = true ↔ player.canEditHouses = true ∨
      player.person.guid = house.owner ∨ house.subOwnerList.isInList player.person = true ∨
      house.guestList.isInList player.person = true := by
  rw [House.isInvited, House.getHouseAccessLevel]
  split_ifs with can owns sub guest
  · simp [can]
  · simp [owns]
  · simp [sub]
  · simp [guest]
  · simp [can, owns, sub, guest]

theorem level_le (house : House) (player : Option Player) :
    (house.getHouseAccessLevel player).toNat ≤ AccessHouseLevel.HOUSE_OWNER.toNat := by
  cases house.getHouseAccessLevel player
  · exact Nat.zero_le 3
  · exact Nat.le_of_ble_eq_true rfl
  · exact Nat.le_of_ble_eq_true rfl
  · exact Nat.le_refl 3

/-! ### Where everybody is -/

/-- The tiles list the players that are on them, each once. -/
structure World.Seated (w : World) : Prop where
  mem : ∀ x t, x ∈ w.creatures t ↔ (w.players x).tile = some t
  nodup : ∀ t, (w.creatures t).Nodup

/-- In the houses the player is in, if any, he is invited. -/
def World.Welcome (m : MapData) (w : World) (x : PlayerId) : Prop :=
  ∀ t h, (w.players x).tile = some t → m.houseOf t = some h →
    (w.houses h).isInvited (w.players x) = true

namespace World

@[simp] theorem setHouse_self (house : House) : (w.setHouse h house).houses h = house := by
  simp [World.setHouse]

theorem setHouse_other {g : HouseId} (other : g ≠ h) (house : House) :
    (w.setHouse h house).houses g = w.houses g := by
  simp [World.setHouse, other]

theorem Seated.removeThing (hw : w.Seated) (on : (w.players x).tile = some t) :
    ((w.removeThing t x).setPlayer x { w.players x with tile := none }).Seated := by
  constructor
  case mem =>
    intro y s
    simp only [World.removeThing, setPlayer]
    by_cases same : y = x
    · subst same
      simp only [Function.update_self]
      by_cases here : s = t
      · subst here
        simp [(hw.nodup s).not_mem_erase]
      · rw [Function.update_of_ne here, hw.mem, on]
        simp [Ne.symm here]
    · rw [Function.update_of_ne same, ← hw.mem]
      by_cases here : s = t
      · subst here
        rw [Function.update_self, List.mem_erase_of_ne same]
      · rw [Function.update_of_ne here]
  case nodup =>
    rw [setPlayer, World.removeThing, Function.forall_update_iff w.creatures fun _ l => l.Nodup]
    exact ⟨(hw.nodup t).erase x, fun s _ => hw.nodup s⟩

theorem Seated.addThing (hw : w.Seated) (off : (w.players x).tile = none) (t : TileId) :
    (w.addThing t x).Seated := by
  have absent : ∀ s, x ∉ w.creatures s := by
    intro s here
    rw [hw.mem, off] at here
    cases here
  constructor
  case mem =>
    intro y s
    simp only [World.addThing, setPlayer]
    by_cases same : y = x
    · subst same
      simp only [Function.update_self]
      by_cases here : s = t
      · subst here
        simp
      · rw [Function.update_of_ne here]
        simp [absent s, Ne.symm here]
    · rw [Function.update_of_ne same, ← hw.mem]
      by_cases here : s = t
      · subst here
        rw [Function.update_self]
        simp [same]
      · rw [Function.update_of_ne here]
  case nodup =>
    rw [World.addThing, Function.forall_update_iff w.creatures fun _ l => l.Nodup]
    exact ⟨List.nodup_cons.2 ⟨absent t, hw.nodup t⟩, fun s _ => hw.nodup s⟩

theorem Seated.moveCreature (hw : w.Seated) (x : PlayerId) (t : TileId) :
    (w.moveCreature x t).Seated := by
  rw [World.moveCreature]
  cases on : (w.players x).tile with
  | none => exact hw
  | some s =>
      have off := (hw.removeThing on).addThing (x := x) (by simp [setPlayer]) t
      simpa [World.addThing, setPlayer, World.removeThing] using off

theorem moveCreature_creatures (on : (w.players x).tile = some tile) (away : tile ≠ t) :
    (w.moveCreature x t).creatures tile = (w.creatures tile).erase x := by
  simp [World.moveCreature, on, World.addThing, World.removeThing, away]

theorem moveCreature_self (on : (w.players x).tile = some tile) :
    (w.moveCreature x t).players x = { w.players x with tile := some t } := by
  simp [World.moveCreature, on, World.addThing, World.removeThing, setPlayer]

theorem moveCreature_other (other : y ≠ x) :
    (w.moveCreature x t).players y = w.players y := by
  rw [World.moveCreature]
  cases (w.players x).tile with
  | none => rfl
  | some s => simp [World.addThing, World.removeThing, setPlayer, other]

@[simp] theorem moveCreature_houses : (w.moveCreature x t).houses = w.houses := by
  rw [World.moveCreature]
  cases (w.players x).tile with
  | none => rfl
  | some s => rfl

theorem Welcome.congr (hw : w.Welcome m x) (houses : w'.houses = w.houses)
    (self : w'.players x = w.players x) : w'.Welcome m x := by
  intro t h on inside
  rw [self] at on ⊢
  rw [houses]
  exact hw t h on inside

/-- Nobody is let into a house by going where he is sent to. -/
theorem queryDestination_invited (sound : m.Sound)
    (inside : m.houseOf (w.queryDestination m tile x) = some h) :
    (w.houses h).isInvited (w.players x) = true := by
  rw [queryDestination] at inside
  cases home : m.houseOf tile with
  | none =>
      simp only [home] at inside
      rw [sound.stairs tile h inside] at home
      cases home
  | some g =>
      simp only [home] at inside
      split_ifs at inside with uninvited
      · obtain ⟨e, he, free⟩ := sound.entries g
        rw [he] at inside
        simp only [free] at inside
        cases inside
      · rw [sound.stairs tile h inside] at home
        cases home
        simpa using uninvited

/-! ### Throwing out -/

/-- Some players were thrown out of the house, nothing else happened. -/
structure Kicked (m : MapData) (h : HouseId) (w w' : World) : Prop where
  houses : w'.houses = w.houses
  players : ∀ y, ∃ t, w'.players y = { w.players y with tile := t }
  tiles : ∀ y t, (w'.players y).tile = some t → m.houseOf t ≠ none →
    (w.players y).tile = some t

theorem Kicked.refl : Kicked m h w w where
  houses := rfl
  players y := ⟨(w.players y).tile, rfl⟩
  tiles _ _ on _ := on

theorem Kicked.trans (first : Kicked m h w w') (then' : Kicked m h w' w'') :
    Kicked m h w w'' where
  houses := then'.houses.trans first.houses
  players y := by
    obtain ⟨s, hs⟩ := first.players y
    obtain ⟨t, ht⟩ := then'.players y
    exact ⟨t, by rw [ht, hs]⟩
  tiles y t on inside := first.tiles y t (then'.tiles y t on inside) inside

theorem Kicked.moveCreature (free : m.houseOf t = none) (x : PlayerId) :
    Kicked m h w (w.moveCreature x t) where
  houses := moveCreature_houses
  players y := by
    by_cases self : y = x
    · subst self
      cases on : (w.players y).tile with
      | none => exact ⟨none, by rw [World.moveCreature, on]; simp [← on]⟩
      | some s => exact ⟨some t, moveCreature_self on⟩
    · exact ⟨(w.players y).tile, moveCreature_other self⟩
  tiles y s on inside := by
    by_cases self : y = x
    · subst self
      cases before : (w.players y).tile with
      | none => rwa [World.moveCreature, before, before] at on
      | some r =>
          rw [moveCreature_self before] at on
          cases on
          exact absurd free inside
    · rwa [moveCreature_other self] at on

theorem internalTeleport_free (entry : m.entry h = some t) (free : m.houseOf t = none)
    (elsewhere : (w.players x).tile ≠ some t) :
    w.internalTeleport m x (m.entry h) = w.moveCreature x t := by
  rw [entry]
  simp [internalTeleport, Ne.symm elsewhere, queryAdd, free]

theorem kickPlayer_cases (sound : m.Sound) (player : Option PlayerId) (x : PlayerId) :
    w.kickPlayer m h player x = w ∨
      ∃ t, m.houseOf t = none ∧ w.kickPlayer m h player x = w.moveCreature x t := by
  obtain ⟨e, entry, free⟩ := sound.entries h
  rw [kickPlayer]
  cases on : (w.players x).tile with
  | none => exact Or.inl rfl
  | some t =>
      dsimp only
      split_ifs with outside lower
      · exact Or.inl rfl
      · exact Or.inl rfl
      · refine Or.inr ⟨e, free, internalTeleport_free entry free ?_⟩
        rintro same
        rw [on] at same
        cases same
        exact outside (by rw [free]; exact nofun)

theorem Kicked.kickPlayer (sound : m.Sound) (player : Option PlayerId) (x : PlayerId) :
    Kicked m h w (w.kickPlayer m h player x) := by
  rcases kickPlayer_cases sound player x with same | ⟨t, free, moved⟩
  · rw [same]
    exact Kicked.refl
  · rw [moved]
    exact Kicked.moveCreature free x

theorem Seated.kickPlayer (hw : w.Seated) (sound : m.Sound) (player : Option PlayerId)
    (x : PlayerId) : (w.kickPlayer m h player x).Seated := by
  rcases kickPlayer_cases sound player x with same | ⟨t, free, moved⟩
  · rw [same]
    exact hw
  · rw [moved]
    exact hw.moveCreature x t

/-- The house throws out whoever may not edit it. -/
theorem kickPlayer_none (sound : m.Sound) (on : (w.players x).tile = some t)
    (inside : m.houseOf t = some h) (bound : (w.players x).canEditHouses = false) :
    ∃ e, m.houseOf e = none ∧ w.kickPlayer m h none x = w.moveCreature x e := by
  obtain ⟨e, entry, free⟩ := sound.entries h
  refine ⟨e, free, ?_⟩
  have higher : ¬((w.houses h).getHouseAccessLevel (Option.map w.players none)).toNat <
      ((w.houses h).getHouseAccessLevel (some (w.players x))).toNat :=
    not_lt.2 (level_le _ _)
  rw [World.kickPlayer, on]
  simp only [inside, ne_eq, not_true_eq_false, if_false, bound, Bool.or_false, decide_eq_true_eq]
  rw [if_neg higher]
  apply internalTeleport_free entry free
  intro same
  rw [on] at same
  cases same
  rw [free] at inside
  cases inside

/-- He is not among those to go, or cannot be thrown out. -/
def Settled (out : House → Player → Bool) (house : House) (player : Player) : Prop :=
  out house player = false ∨ player.canEditHouses = true

section Loops

variable {o : House → Player → Bool}

/-- Where a player stands makes no difference to whether he has to go. -/
def Placeless (o : House → Player → Bool) : Prop :=
  ∀ house player t, o house { player with tile := t } = o house player

theorem Settled.move {house : House} {player : Player} (placeless : Placeless o)
    (t : Option TileId) :
    Settled o house { player with tile := t } ↔ Settled o house player := by
  rw [Settled, Settled, placeless]

theorem Kicked.settled_iff (placeless : Placeless o) (kicked : Kicked m h w w') (y : PlayerId) :
    Settled o (w'.houses h) (w'.players y) ↔ Settled o (w.houses h) (w.players y) := by
  obtain ⟨t, ht⟩ := kicked.players y
  rw [ht, kicked.houses, Settled.move placeless]

/-- A kick of the player at a place: he cannot be thrown out, or he is gone from the place. -/
theorem kick_turn (sound : m.Sound) (hw : w.Seated) (inside : m.houseOf tile = some h) {i : ℕ}
    (at_i : (w.creatures tile)[i]? = some x) :
    (w.kickPlayer m h none x = w ∧ (w.players x).canEditHouses = true) ∨
      (w.kickPlayer m h none x).creatures tile = (w.creatures tile).eraseIdx i := by
  have on : (w.players x).tile = some tile := by
    rw [← hw.mem]
    exact List.mem_of_getElem? at_i
  by_cases can : (w.players x).canEditHouses = true
  · refine Or.inl ⟨?_, can⟩
    simp [World.kickPlayer, on, inside, can]
  · obtain ⟨e, free, moved⟩ := kickPlayer_none sound on inside (by simpa using can)
    refine Or.inr ?_
    rw [moved, moveCreature_creatures on]
    · obtain ⟨lt, at_i⟩ := List.getElem?_eq_some_iff.1 at_i
      rw [← at_i]
      exact List.Nodup.erase_getElem (hw.nodup tile) i lt
    · rintro rfl
      rw [free] at inside
      cases inside

/-- The loop settles the places it comes to; what a kick moves up it has been at. -/
theorem kickFrom_spec (sound : m.Sound) (placeless : Placeless o)
    (inside : m.houseOf tile = some h) (i : ℕ) (hw : w.Seated)
    (done : ∀ j x, i ≤ j → (w.creatures tile)[j]? = some x →
      Settled o (w.houses h) (w.players x)) :
    (kickFrom m h tile o i w).Seated ∧ Kicked m h w (kickFrom m h tile o i w) ∧
      ∀ x ∈ (kickFrom m h tile o i w).creatures tile,
        Settled o ((kickFrom m h tile o i w).houses h)
          ((kickFrom m h tile o i w).players x) := by
  induction i generalizing w with
  | zero =>
      refine ⟨hw, Kicked.refl, ?_⟩
      intro x here
      obtain ⟨j, at_j⟩ := List.mem_iff_getElem?.1 here
      exact done j x (Nat.zero_le j) at_j
  | succ i ih =>
      rw [kickFrom]
      cases at_i : (w.creatures tile)[i]? with
      | none =>
          apply ih hw
          intro j y le at_j
          rcases Nat.eq_or_lt_of_le le with rfl | lt
          · rw [at_i] at at_j
            cases at_j
          · exact done j y lt at_j
      | some x =>
          dsimp only
          split_ifs with goes
          · have kicked : Kicked m h w (w.kickPlayer m h none x) := Kicked.kickPlayer sound none x
            obtain ⟨seated, later, settled⟩ := ih (hw.kickPlayer sound none x) (by
              intro j y le at_j
              rw [kicked.settled_iff placeless]
              rcases kick_turn sound hw inside at_i with ⟨same, can⟩ | gone
              · rw [same] at at_j
                rcases Nat.eq_or_lt_of_le le with rfl | lt
                · rw [at_i] at at_j
                  cases at_j
                  exact Or.inr can
                · exact done j y lt at_j
              · rw [gone, List.getElem?_eraseIdx, if_neg (not_lt.2 le)] at at_j
                exact done (j + 1) y (Nat.succ_le_succ le) at_j)
            exact ⟨seated, kicked.trans later, settled⟩
          · apply ih hw
            intro j y le at_j
            rcases Nat.eq_or_lt_of_le le with rfl | lt
            · rw [at_i] at at_j
              cases at_j
              exact Or.inl (by simpa using goes)
            · exact done j y lt at_j

/-- After the loop over the tiles nobody is on them who has to go and can. -/
theorem kickAll_spec (sound : m.Sound) (placeless : Placeless o) (tiles : List TileId)
    (inside : ∀ t ∈ tiles, m.houseOf t = some h) (hw : w.Seated) :
    (kickAll m h o tiles w).Seated ∧ Kicked m h w (kickAll m h o tiles w) ∧
      ∀ y, ∀ t ∈ tiles, ((kickAll m h o tiles w).players y).tile = some t →
        Settled o ((kickAll m h o tiles w).houses h) ((kickAll m h o tiles w).players y) := by
  induction tiles generalizing w with
  | nil => exact ⟨hw, Kicked.refl, fun _ _ here => absurd here List.not_mem_nil⟩
  | cons tile tiles ih =>
      have home := inside tile List.mem_cons_self
      obtain ⟨seated, kicked, settled⟩ := kickFrom_spec (o := o) sound placeless home
        (w.creatures tile).length hw (by
          intro j x le at_j
          rw [List.getElem?_eq_none le] at at_j
          cases at_j)
      obtain ⟨seated', kicked', settled'⟩ := ih
        (fun t here => inside t (List.mem_cons_of_mem tile here)) seated
      rw [kickAll]
      refine ⟨seated', kicked.trans kicked', ?_⟩
      intro y t here on
      rcases List.mem_cons.1 here with rfl | later
      · rw [kicked'.settled_iff placeless]
        apply settled
        rw [seated.mem]
        exact kicked'.tiles y t on (by rw [home]; exact Option.some_ne_none h)
      · exact settled' y t later on

end Loops

/-! ### Lists and owners -/

/-- In the other houses the player is invited. -/
def WelcomeElsewhere (m : MapData) (h : HouseId) (w : World) (x : PlayerId) : Prop :=
  ∀ t g, (w.players x).tile = some t → m.houseOf t = some g → g ≠ h →
    (w.houses g).isInvited (w.players x) = true

/-- In this house the player is invited. -/
def WelcomeHere (m : MapData) (h : HouseId) (w : World) (x : PlayerId) : Prop :=
  ∀ t, (w.players x).tile = some t → m.houseOf t = some h →
    (w.houses h).isInvited (w.players x) = true

theorem Welcome.elsewhere (hw : w.Welcome m x) : WelcomeElsewhere m h w x :=
  fun t g on inside _ => hw t g on inside

theorem WelcomeElsewhere.welcome (elsewhere : WelcomeElsewhere m h w x)
    (here : WelcomeHere m h w x) : w.Welcome m x := by
  intro t g on inside
  by_cases same : g = h
  · subst same
    exact here t on inside
  · exact elsewhere t g on inside same

theorem WelcomeElsewhere.setHouse (elsewhere : WelcomeElsewhere m h w x) (house : House) :
    WelcomeElsewhere m h (w.setHouse h house) x := by
  intro t g on inside other
  rw [setHouse_other other]
  exact elsewhere t g on inside other

theorem WelcomeElsewhere.kicked (elsewhere : WelcomeElsewhere m h w x)
    (kicked : Kicked m h w w') : WelcomeElsewhere m h w' x := by
  intro t g on inside other
  obtain ⟨s, same⟩ := kicked.players x
  have before := kicked.tiles x t on (by rw [inside]; exact Option.some_ne_none g)
  rw [kicked.houses, same, isInvited_tile]
  exact elsewhere t g before inside other

theorem Seated.setHouse (hw : w.Seated) (house : House) : (w.setHouse h house).Seated :=
  ⟨hw.mem, hw.nodup⟩

/-- After everybody was looked at, those in the house are invited. -/
theorem kickAll_uninvited (sound : m.Sound) (hw : w.Seated) :
    (kickAll m h (fun house player => !house.isInvited player) (m.houseTiles h) w).Seated ∧
      Kicked m h w (kickAll m h (fun house player => !house.isInvited player) (m.houseTiles h) w) ∧
      ∀ x, WelcomeHere m h
        (kickAll m h (fun house player => !house.isInvited player) (m.houseTiles h) w) x := by
  obtain ⟨seated, kicked, settled⟩ := kickAll_spec
    (o := fun house player => !house.isInvited player) sound (fun _ _ _ => rfl)
    (m.houseTiles h) (fun t here => (m.listed h t).1 here) hw
  refine ⟨seated, kicked, ?_⟩
  intro x t on inside
  rcases settled x t ((m.listed h t).2 inside) on with stays | can
  · simpa using stays
  · exact isInvited_of_canEditHouses can

theorem setDoors_level (house : House) (doors : List Door) (player : Player) :
    ({ house with doorList := doors } : House).isInvited player = house.isInvited player := rfl

/-- What a step may do that only has to do with this house. -/
structure Settles (m : MapData) (h : HouseId) (w w' : World) : Prop where
  seated : w'.Seated
  elsewhere : ∀ x, WelcomeElsewhere m h w x → WelcomeElsewhere m h w' x
  here : ∀ x, WelcomeHere m h w x → WelcomeHere m h w' x

theorem Settles.welcome (settles : Settles m h w w') (hw : w.Welcome m x) : w'.Welcome m x :=
  (settles.elsewhere x hw.elsewhere).welcome (settles.here x fun t on inside => hw t h on inside)

theorem Settles.trans (first : Settles m h w w') (then' : Settles m h w' w'') :
    Settles m h w w'' where
  seated := then'.seated
  elsewhere x hx := then'.elsewhere x (first.elsewhere x hx)
  here x hx := then'.here x (first.here x hx)

/-- A change of the house that takes no invitation away. -/
theorem Settles.setHouse (hw : w.Seated) {house : House}
    (more : ∀ x, (w.houses h).isInvited (w.players x) = true →
      house.isInvited (w.players x) = true) : Settles m h w (w.setHouse h house) where
  seated := hw.setHouse house
  elsewhere _ hx := hx.setHouse house
  here x hx := by
    intro t on inside
    rw [setHouse_self]
    exact more x (hx t on inside)

/-- A change of the house after which everybody is looked at. -/
theorem Settles.looked (sound : m.Sound) (hw : w.Seated) (house : House) :
    Settles m h w (kickAll m h (fun house player => !house.isInvited player) (m.houseTiles h)
      (w.setHouse h house)) := by
  obtain ⟨seated, kicked, here⟩ := kickAll_uninvited (h := h) sound (hw.setHouse house)
  exact ⟨seated, fun x hx => (hx.setHouse house).kicked kicked, fun x _ => here x⟩

theorem Settles.setAccessList (sound : m.Sound) (hw : w.Seated) (d : AccessList.Directory)
    (listId : ℕ) (text : List Char) : Settles m h w (w.setAccessList m h d listId text) := by
  rw [World.setAccessList]
  split_ifs with guests subowners
  · exact Settles.looked sound hw _
  · exact Settles.looked sound hw _
  · exact Settles.setHouse hw fun x invited => by rw [setDoors_level]; exact invited

/-- After all were thrown out only those are left that can never be. -/
theorem Settles.vacate (sound : m.Sound) (hw : w.Seated) (d : AccessList.Directory) :
    Settles m h w (w.vacate m h d) := by
  obtain ⟨seated, kicked, settled⟩ := kickAll_spec (o := fun _ _ => true) sound
    (fun _ _ _ => rfl) (m.houseTiles h) (fun t here => (m.listed h t).1 here) hw
  have unowned : Settles m h w ((kickAll m h (fun _ _ => true) (m.houseTiles h) w).setHouse h
      { (kickAll m h (fun _ _ => true) (m.houseTiles h) w).houses h with owner := 0 }) := by
    refine ⟨seated.setHouse _, fun x hx => (hx.kicked kicked).setHouse _, ?_⟩
    intro x _ t on inside
    rcases settled x t ((m.listed h t).2 inside) on with stays | can
    · cases stays
    · exact isInvited_of_canEditHouses can
  rw [World.vacate]
  have sub := unowned.trans (Settles.setAccessList sound unowned.seated d SUBOWNER_LIST [])
  have guest := sub.trans (Settles.setAccessList sound sub.seated d GUEST_LIST [])
  exact guest.trans (Settles.setHouse guest.seated fun x invited => by
    rw [setDoors_level]
    exact invited)

theorem setAccessList_owner (sound : m.Sound) (hw : w.Seated) (d : AccessList.Directory)
    (listId : ℕ) (text : List Char) :
    ((w.setAccessList m h d listId text).houses h).owner = (w.houses h).owner := by
  rw [World.setAccessList]
  split_ifs with guests subowners
  · rw [(kickAll_uninvited sound (hw.setHouse _)).2.1.houses, setHouse_self]
  · rw [(kickAll_uninvited sound (hw.setHouse _)).2.1.houses, setHouse_self]
  · rw [setHouse_self]

theorem vacate_owner (sound : m.Sound) (hw : w.Seated) (d : AccessList.Directory) :
    ((w.vacate m h d).houses h).owner = 0 := by
  obtain ⟨seated, -, -⟩ := kickAll_spec (o := fun _ _ => true) sound
    (fun _ _ _ => rfl) (m.houseTiles h) (fun t here => (m.listed h t).1 here) hw
  have unowned := seated.setHouse (h := h)
    { (kickAll m h (fun _ _ => true) (m.houseTiles h) w).houses h with owner := 0 }
  have sub := (Settles.setAccessList (h := h) sound unowned d SUBOWNER_LIST []).seated
  rw [World.vacate, setHouse_self, setAccessList_owner sound sub, setAccessList_owner sound unowned,
    setHouse_self]

/-- A new owner of a house without one takes no invitation away. -/
theorem Settles.newOwner (hw : w.Seated) (free : (w.houses h).owner = 0) (guid : ℕ) :
    Settles m h w (w.setHouse h { w.houses h with owner := guid }) := by
  apply Settles.setHouse hw
  intro x invited
  rw [isInvited_iff] at invited ⊢
  rcases invited with can | owns | listed
  · exact Or.inl can
  · rw [free] at owns
    exact absurd owns (w.players x).identified
  · exact Or.inr (Or.inr listed)

theorem Settles.refl (hw : w.Seated) : Settles m h w w :=
  ⟨hw, fun _ hx => hx, fun _ hx => hx⟩

theorem Settles.setOwner (sound : m.Sound) (hw : w.Seated) (d : AccessList.Directory) (guid : ℕ)
    (known : Bool) : Settles m h w (w.setOwner m h d guid known) := by
  have loaded : Settles m h w (w.setHouse h { w.houses h with isLoaded := true }) :=
    Settles.setHouse hw fun x invited => invited
  rw [World.setOwner]
  split_ifs with same owned bought bought
  · exact Settles.refl hw
  · have left := loaded.trans (Settles.vacate sound loaded.seated d)
    exact left.trans (Settles.newOwner left.seated (vacate_owner sound loaded.seated d) guid)
  · exact loaded.trans (Settles.vacate sound loaded.seated d)
  · refine loaded.trans (Settles.newOwner loaded.seated ?_ guid)
    rw [setHouse_self]
    exact not_not.1 owned
  · exact loaded

/-! ### Steps and runs -/

theorem Seated.setPlayer (hw : w.Seated) {player : Player}
    (same : player.tile = (w.players y).tile) : (w.setPlayer y player).Seated := by
  refine ⟨?_, hw.nodup⟩
  intro z t
  by_cases self : z = y
  · subst self
    simp only [World.setPlayer, Function.update_self, same]
    exact hw.mem z t
  · simp only [World.setPlayer, Function.update_of_ne self]
    exact hw.mem z t

theorem Welcome.setPlayer (hw : w.Welcome m x) {player : Player}
    (same : y = x → player.tile = (w.players x).tile ∧
      ∀ house : House, house.isInvited player = house.isInvited (w.players x)) :
    (w.setPlayer y player).Welcome m x := by
  intro t h on inside
  by_cases self : x = y
  · subst self
    obtain ⟨tile, invited⟩ := same rfl
    simp only [World.setPlayer, Function.update_self] at on ⊢
    rw [invited]
    exact hw t h (tile ▸ on) inside
  · simp only [World.setPlayer, Function.update_of_ne self] at on ⊢
    exact hw t h on inside

theorem Seated.setEditHouse (hw : w.Seated) (y : PlayerId) (house : Option HouseId) (listId : ℕ) :
    (w.setEditHouse y house listId).Seated := hw.setPlayer rfl

theorem Welcome.setEditHouse (hw : w.Welcome m x) (y : PlayerId) (house : Option HouseId)
    (listId : ℕ) : (w.setEditHouse y house listId).Welcome m x := by
  apply hw.setPlayer
  rintro rfl
  exact ⟨rfl, fun _ => rfl⟩

theorem updateHouseWindow_spec (sound : m.Sound) (y : PlayerId) (d : AccessList.Directory)
    (listId : ℕ) (windowTextId : BitVec 32) (text : List Char) (hw : w.Seated)
    (welcome : w.Welcome m x) :
    (w.playerUpdateHouseWindow m y d listId windowTextId text).Seated ∧
      (w.playerUpdateHouseWindow m y d listId windowTextId text).Welcome m x := by
  rw [playerUpdateHouseWindow]
  cases (w.players y).editHouse with
  | none => exact ⟨hw.setEditHouse y none 0, welcome.setEditHouse y none 0⟩
  | some h =>
      dsimp only
      split_ifs with edits
      · have settles := Settles.setAccessList (h := h) sound hw d (w.players y).editListId text
        exact ⟨settles.seated.setEditHouse y none 0,
          (settles.welcome welcome).setEditHouse y none 0⟩
      · exact ⟨hw.setEditHouse y none 0, welcome.setEditHouse y none 0⟩

theorem Welcome.moveCreature (hw : w.Welcome m x) (y : PlayerId) (t : TileId)
    (entering : y = x → ∀ h, m.houseOf t = some h → (w.houses h).isInvited (w.players x) = true) :
    (w.moveCreature y t).Welcome m x := by
  by_cases self : x = y
  · subst self
    cases on : (w.players x).tile with
    | none =>
        rw [World.moveCreature, on]
        exact hw
    | some s =>
        intro r h on' inside
        rw [moveCreature_self on] at on' ⊢
        cases on'
        rw [moveCreature_houses, isInvited_tile]
        exact entering rfl h inside
  · exact hw.congr moveCreature_houses (moveCreature_other self)

theorem queryAdd_invited {allowed : Bool} (enters : w.queryAdd m t x allowed = true)
    (inside : m.houseOf t = some h) : (w.houses h).isInvited (w.players x) = true := by
  simp only [queryAdd, inside] at enters
  by_contra uninvited
  simp [uninvited] at enters

/-- The stairs behind a tile where the player is invited lead nowhere else. -/
theorem moveOn_spec (sound : m.Sound) (y : PlayerId) (n : ℕ) (t : TileId) (hw : w.Seated)
    (welcome : w.Welcome m x) :
    (moveOn m y n w t).Seated ∧ (moveOn m y n w t).Welcome m x := by
  induction n generalizing w t with
  | zero => exact ⟨hw, welcome⟩
  | succ n ih =>
      rw [moveOn]
      split_ifs with stays
      · exact ⟨hw, welcome⟩
      · apply ih
        · exact hw.moveCreature y _
        · apply welcome.moveCreature
          rintro rfl h inside
          exact queryDestination_invited sound inside

theorem internalMoveCreature_spec (sound : m.Sound) (y : PlayerId) (toTile : TileId)
    (allowed : Bool) (hw : w.Seated) (welcome : w.Welcome m x) :
    (w.internalMoveCreature m y toTile allowed).Seated ∧
      (w.internalMoveCreature m y toTile allowed).Welcome m x := by
  rw [internalMoveCreature]
  split_ifs with enters
  · apply moveOn_spec sound
    · exact hw.moveCreature y toTile
    · apply welcome.moveCreature
      rintro rfl h inside
      exact queryAdd_invited enters inside
  · exact ⟨hw, welcome⟩

theorem internalTeleport_cases (newPos : Option TileId) :
    w.internalTeleport m x newPos = w ∨
      ∃ t, w.queryAdd m t x true = true ∧ w.internalTeleport m x newPos = w.moveCreature x t := by
  cases newPos with
  | none => simp [internalTeleport]
  | some t =>
      by_cases stays : some t = (w.players x).tile
      · exact Or.inl (by simp [internalTeleport, stays])
      · by_cases enters : w.queryAdd m t x true = true
        · exact Or.inr ⟨t, enters, by simp [internalTeleport, stays, enters]⟩
        · exact Or.inl (by simp [internalTeleport, stays, enters])

theorem login_spec (sound : m.Sound) (hw : w.Seated) (welcome : w.Welcome m x)
    (off : (w.players y).tile = none) (player : Player) (tile : TileId) :
    ((w.setPlayer y { player with tile := none }).placeCreature m y tile).Seated ∧
      ((w.setPlayer y { player with tile := none }).placeCreature m y tile).Welcome m x := by
  have seated : (w.setPlayer y { player with tile := none }).Seated := hw.setPlayer off.symm
  refine ⟨seated.addThing (by simp [World.setPlayer]) _, ?_⟩
  intro t h on inside
  by_cases self : x = y
  · subst self
    simp only [placeCreature, World.addThing, World.setPlayer, Function.update_self] at on ⊢
    cases on
    simpa [World.setPlayer] using queryDestination_invited sound inside
  · simp only [placeCreature, World.addThing, World.setPlayer, Function.update_of_ne self] at on ⊢
    exact welcome t h on inside

theorem logout_spec (hw : w.Seated) (welcome : w.Welcome m x) (y : PlayerId) :
    (w.removeCreature y).Seated ∧ (w.removeCreature y).Welcome m x := by
  rw [World.removeCreature]
  cases on : (w.players y).tile with
  | none => exact ⟨hw, welcome⟩
  | some t =>
      refine ⟨hw.removeThing on, ?_⟩
      intro s h on' inside
      by_cases self : x = y
      · subst self
        simp [World.setPlayer] at on'
      · simp only [World.setPlayer, World.removeThing, Function.update_of_ne self] at on' ⊢
        exact welcome s h on' inside

end World

/-- What neither changes the player's guild or group nor forces him into a house. -/
def Event.Undisturbed (m : MapData) (x : PlayerId) : Event → Prop
  | .force y tile => y = x → m.houseOf tile = none
  | .setGuild y _ => y ≠ x
  | .setGroup y _ => y ≠ x
  | _ => True

namespace World

theorem step_spec (sound : m.Sound) (hw : w.Seated) (welcome : w.Welcome m x) {event : Event}
    (quiet : event.Undisturbed m x) :
    (w.step m event).Seated ∧ (w.step m event).Welcome m x := by
  cases event with
  | login y player tile =>
      rw [step]
      split_ifs with off
      · exact login_spec sound hw welcome off player tile
      · exact ⟨hw, welcome⟩
  | logout y => exact logout_spec hw welcome y
  | walk y toTile allowed =>
      rw [step]
      split_ifs with off
      · exact ⟨hw, welcome⟩
      · exact internalMoveCreature_spec sound y toTile allowed hw welcome
  | teleport y newPos =>
      rw [step]
      split_ifs with off
      · exact ⟨hw, welcome⟩
      · rcases internalTeleport_cases (w := w) (x := y) newPos with same | ⟨t, enters, moved⟩
        · rw [same]
          exact ⟨hw, welcome⟩
        · rw [moved]
          refine ⟨hw.moveCreature y t, welcome.moveCreature y t ?_⟩
          rintro rfl h inside
          exact queryAdd_invited enters inside
  | force y tile =>
      refine ⟨hw.moveCreature y tile, welcome.moveCreature y tile ?_⟩
      intro self h inside
      rw [quiet self] at inside
      cases inside
  | setOwner h d guid known =>
      have settles := Settles.setOwner (h := h) sound hw d guid known
      exact ⟨settles.seated, settles.welcome welcome⟩
  | setAccessList h d listId text =>
      have settles := Settles.setAccessList (h := h) sound hw d listId text
      exact ⟨settles.seated, settles.welcome welcome⟩
  | setEditHouse y house listId =>
      exact ⟨hw.setEditHouse y house listId, welcome.setEditHouse y house listId⟩
  | updateHouseWindow y d listId windowTextId text =>
      rw [step]
      split_ifs with off
      · exact ⟨hw, welcome⟩
      · exact updateHouseWindow_spec sound y d listId windowTextId text hw welcome
  | kickPlayer h player target =>
      rcases kickPlayer_cases (w := w) (h := h) sound player target with same | ⟨t, free, moved⟩
      · rw [step, same]
        exact ⟨hw, welcome⟩
      · rw [step, moved]
        refine ⟨hw.moveCreature target t, welcome.moveCreature target t ?_⟩
        intro _ g inside
        rw [free] at inside
        cases inside
  | setGuild y guild =>
      exact ⟨hw.setPlayer rfl, welcome.setPlayer fun self => absurd self quiet⟩
  | setGroup y canEditHouses =>
      exact ⟨hw.setPlayer rfl, welcome.setPlayer fun self => absurd self quiet⟩

/-- Nobody is in the game yet. -/
def opened (houses : HouseId → House) (players : PlayerId → Player) : World where
  houses := houses
  players x := { players x with tile := none }
  creatures _ := []

theorem run_spec (sound : m.Sound) (events : List Event) (hw : w.Seated) (welcome : w.Welcome m x)
    (quiet : ∀ event ∈ events, event.Undisturbed m x) :
    (run m w events).Seated ∧ (run m w events).Welcome m x := by
  induction events generalizing w with
  | nil => exact ⟨hw, welcome⟩
  | cons event events ih =>
      obtain ⟨seated, welcome'⟩ := step_spec sound hw welcome (quiet event List.mem_cons_self)
      exact ih seated welcome' fun later here => quiet later (List.mem_cons_of_mem event here)

/-- Whatever the players, the owners and the scripts do, whoever is inside a house is invited to
it, unless his guild or group was changed or he was forced in. -/
theorem house_private (sound : m.Sound) (houses : HouseId → House) (players : PlayerId → Player)
    (events : List Event) (x : PlayerId) (quiet : ∀ event ∈ events, event.Undisturbed m x) :
    ∀ t h, x ∈ (run m (opened houses players) events).creatures t → m.houseOf t = some h →
      ((run m (opened houses players) events).houses h).isInvited
        ((run m (opened houses players) events).players x) = true := by
  have seated : (opened houses players).Seated := by
    constructor
    case mem => simp [opened]
    case nodup => simp [opened]
  have welcome : (opened houses players).Welcome m x := by
    intro t h on
    cases on
  obtain ⟨after, inside⟩ := run_spec sound events seated welcome quiet
  intro t h here
  exact inside t h ((after.mem x t).1 here)

end World

namespace Sample

/-- One house of one tile, entered from the street. -/
def street : MapData where
  houseOf t := if t = 0 then some 0 else none
  houseTiles h := if h = 0 then [0] else []
  listed h t := by
    by_cases first : h = 0
    · by_cases home : t = 0
      · simp [first, home]
      · simp [first, home]
    · by_cases home : t = 0
      · simp [first, home, Ne.symm first]
      · simp [first, home]
  entry _ := some 1
  temple _ := 1
  destination t := t

theorem street_sound : street.Sound where
  entries _ := ⟨1, rfl, rfl⟩
  stairs _ _ inside := inside

def residents : Registry := ⟨[(1, "Jay".toList)], by decide, by decide, by decide⟩

def orders : Registry := ⟨[(3, "Red Rose".toList)], by decide, by decide, by decide⟩

def nobody : AccessList.Directory :=
  ⟨residents, orders, [], fun _ here => absurd here List.not_mem_nil⟩

def neighbour (x : PlayerId) : Player where
  person := ⟨x + 1, "Jay".toList, none, by decide⟩
  identified := Nat.succ_ne_zero x

/-- The owner asks everybody in, and one comes. -/
def party : List Event :=
  [.setOwner 0 nobody 1 true, .login 0 (neighbour 0) 1, .login 1 (neighbour 1) 0,
    .setEditHouse 0 (some 0) GUEST_LIST, .updateHouseWindow 0 nobody 0 1 ['*'], .walk 1 0 true]

/-- The list is emptied, and the guest is back on the street. -/
def ended : List Event :=
  party ++ [.setEditHouse 0 (some 0) GUEST_LIST, .updateHouseWindow 0 nobody 0 3 []]

theorem guest_thrown_out :
    1 ∈ (World.run street (World.opened (fun _ => {}) neighbour) party).creatures 0 ∧
      ((World.run street (World.opened (fun _ => {}) neighbour) party).houses 0).isInvited
        ((World.run street (World.opened (fun _ => {}) neighbour) party).players 1) = true ∧
      (World.run street (World.opened (fun _ => {}) neighbour) ended).creatures 0 = [] := by
  have here : 1 ∈ (World.run street (World.opened (fun _ => {}) neighbour) party).creatures 0 := by
    decide
  refine ⟨here, ?_, by decide⟩
  exact World.house_private street_sound (fun _ => {}) neighbour party 1
    (by simp [party, Event.Undisturbed]) 0 0 here rfl

end Sample

end TibServer.HousePrivacy
