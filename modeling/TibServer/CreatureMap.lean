import Mathlib.Data.Finset.Insert
import TibServer.World

/-!
The creatures on the map (`map.cpp`, and the parts of `tile.cpp` and `game.cpp` that
place, move and remove them) and the search for those around a position, with its
cache.

Creatures are kept twice: on the tiles, and in the leaves of the map's tree, each of
which covers eight by eight tiles on all floors. A leaf that does not exist has no
creatures here, and a neighbour is found by its place, not by a link. What the
creatures that are found are told is left out.
-/

namespace TibServer

def FLOOR_SIZE : Nat := 8

/-- The number of floors. -/
def mapLayers : Nat := 16

def maxViewportX : Int := 11
def maxViewportY : Int := 11

/-- A leaf keeps no order: the last of a list takes the place of one that goes. -/
structure QTreeLeafNode where
  creatureList : List CreatureId := []
  playerList : List CreatureId := []

structure CreatureMap where
  isPlayer : CreatureId → Bool
  /-- Where there is a tile. -/
  isTile : Position → Bool
  isTile_bounds : ∀ pos, isTile pos = true → pos.x < 2 ^ 16 ∧ pos.y < 2 ^ 16 ∧ pos.z < mapLayers
  /-- The creatures of the tile at a position. -/
  creatures : Position → List CreatureId := fun _ => []
  parent : CreatureId → Option Position := fun _ => none
  removed : CreatureId → Bool := fun _ => false
  leaf : Nat × Nat → QTreeLeafNode := fun _ => {}
  spectatorCache : Position → Option (Finset CreatureId) := fun _ => none
  playersSpectatorCache : Position → Option (Finset CreatureId) := fun _ => none

/-! ### The window of a search -/

/-- The arguments of `Map::getSpectators`; a range of 0 is the default. -/
structure SpectatorQuery where
  centerPos : Position
  multifloor : Bool := false
  onlyPlayers : Bool := false
  minRangeX : Int := 0
  maxRangeX : Int := 0
  minRangeY : Int := 0
  maxRangeY : Int := 0

/-- The arguments of `Map::getSpectatorsInternal`, the ranges added to the centre. -/
structure SpectatorWindow where
  centerZ : Int
  minX : Int
  maxX : Int
  minY : Int
  maxY : Int
  minZ : Int
  maxZ : Int

namespace SpectatorQuery

variable (q : SpectatorQuery)

def lowX : Int := if q.minRangeX = 0 then -maxViewportX else -q.minRangeX
def highX : Int := if q.maxRangeX = 0 then maxViewportX else q.maxRangeX
def lowY : Int := if q.minRangeY = 0 then -maxViewportY else -q.minRangeY
def highY : Int := if q.maxRangeY = 0 then maxViewportY else q.maxRangeY

/-- The floors that are searched: a floor under ground sees two each way, one above
those above ground, and the lowest of these a little below. -/
def floors : Int × Int :=
  let z : Int := q.centerPos.z
  if q.multifloor then
    if z > 7 then (max (z - 2) 0, min (z + 2) (mapLayers - 1))
    else if z = 6 then (0, 8)
    else if z = 7 then (0, 9)
    else (0, 7)
  else (z, z)

def window : SpectatorWindow where
  centerZ := q.centerPos.z
  minX := q.centerPos.x + q.lowX
  maxX := q.centerPos.x + q.highX
  minY := q.centerPos.y + q.lowY
  maxY := q.centerPos.y + q.highY
  minZ := q.floors.1
  maxZ := q.floors.2

/-- The window whose result is kept in the caches. -/
def cached : Bool :=
  decide (q.lowX = -maxViewportX ∧ q.highX = maxViewportX ∧
    q.lowY = -maxViewportY ∧ q.highY = maxViewportY) && q.multifloor

end SpectatorQuery

namespace SpectatorWindow

variable (w : SpectatorWindow)

/-- The window is moved by a tile for each floor. -/
def contains (pos : Position) : Bool :=
  let offsetZ := w.centerZ - pos.z
  !(decide (w.minZ > pos.z) || decide (w.maxZ < pos.z)) &&
    !(decide (w.minY + offsetZ > pos.y) || decide (w.maxY + offsetZ < pos.y) ||
      decide (w.minX + offsetZ > pos.x) || decide (w.maxX + offsetZ < pos.x))

/-- `std::min<uint32_t>(0xFFFF, std::max<int32_t>(0, v))`: the sum is cut to 32 bits. -/
def clamp (v : Int) : Nat := (min 0xFFFF (max 0 (v.bmod (2 ^ 32)))).toNat

/-- The leaves between two coordinates. -/
def leaves (low high : Int) : List Nat :=
  List.range' (clamp low / FLOOR_SIZE) (clamp high / FLOOR_SIZE + 1 - clamp low / FLOOR_SIZE)

def columns : List Nat := leaves (w.minX + (w.centerZ - w.maxZ)) (w.maxX + (w.centerZ - w.minZ))
def rows : List Nat := leaves (w.minY + (w.centerZ - w.maxZ)) (w.maxY + (w.centerZ - w.minZ))

end SpectatorWindow

namespace CreatureMap

variable (s : CreatureMap)

/-! ### The search -/

def seesCreature (w : SpectatorWindow) (c : CreatureId) : Bool := (s.parent c).any w.contains

/-- The creatures of one leaf that are in the window join the others. -/
def scanLeaf (w : SpectatorWindow) (onlyPlayers : Bool) (spectators : Finset CreatureId)
    (at_ : Nat × Nat) : Finset CreatureId :=
  (if onlyPlayers then (s.leaf at_).playerList else (s.leaf at_).creatureList).foldl
    (fun spectators c => if s.seesCreature w c then insert c spectators else spectators) spectators

def getSpectatorsInternal (spectators : Finset CreatureId) (w : SpectatorWindow)
    (onlyPlayers : Bool) : Finset CreatureId :=
  w.rows.foldl (fun spectators ny =>
    w.columns.foldl (fun spectators nx => s.scanLeaf w onlyPlayers spectators (nx, ny)) spectators)
    spectators

/-- What the caches answer, those of the players first. -/
def lookup (q : SpectatorQuery) : Option (Finset CreatureId) :=
  if q.cached then
    match if q.onlyPlayers then s.playersSpectatorCache q.centerPos else none with
    | some cachedSpectators => some cachedSpectators
    | none =>
      (s.spectatorCache q.centerPos).map fun cachedSpectators =>
        if q.onlyPlayers then cachedSpectators.filter fun c => s.isPlayer c = true
        else cachedSpectators
  else none

/-- What was found is kept, together with what had been found before. -/
def keep (q : SpectatorQuery) (spectators : Finset CreatureId) : CreatureMap :=
  if q.cached then
    if q.onlyPlayers then
      { s with playersSpectatorCache :=
          Function.update s.playersSpectatorCache q.centerPos (some spectators) }
    else
      { s with spectatorCache := Function.update s.spectatorCache q.centerPos (some spectators) }
  else s

def getSpectators (spectators : Finset CreatureId) (q : SpectatorQuery) :
    Finset CreatureId × CreatureMap :=
  if q.centerPos.z ≥ mapLayers then (spectators, s)
  else
    match s.lookup q with
    | some cachedSpectators => (spectators ∪ cachedSpectators, s)
    | none =>
      let found := s.getSpectatorsInternal spectators q.window q.onlyPlayers
      (found, s.keep q found)

def clearSpectatorCache : CreatureMap :=
  { s with spectatorCache := fun _ => none, playersSpectatorCache := fun _ => none }

/-! ### Creatures -/

def leafAt (pos : Position) : Nat × Nat := (pos.x / FLOOR_SIZE, pos.y / FLOOR_SIZE)

/-- `Tile::addThing` and `Tile::internalAddThing` of a creature. -/
def addThing (pos : Position) (c : CreatureId) : CreatureMap :=
  { s.clearSpectatorCache with
    parent := Function.update s.parent c (some pos)
    creatures := Function.update s.creatures pos (c :: s.creatures pos) }

/-- `Tile::removeThing` of a creature. -/
def removeThing (pos : Position) (c : CreatureId) : CreatureMap :=
  if c ∈ s.creatures pos then
    { s.clearSpectatorCache with
      creatures := Function.update s.creatures pos ((s.creatures pos).erase c) }
  else s

/-- `QTreeLeafNode::addCreature`. -/
def addCreature (at_ : Nat × Nat) (c : CreatureId) : CreatureMap :=
  { s with
    leaf := Function.update s.leaf at_
      { creatureList := (s.leaf at_).creatureList ++ [c]
        playerList :=
          if s.isPlayer c then (s.leaf at_).playerList ++ [c] else (s.leaf at_).playerList } }

/-- `QTreeLeafNode::removeCreature`. -/
def leafRemoveCreature (at_ : Nat × Nat) (c : CreatureId) : CreatureMap :=
  { s with
    leaf := Function.update s.leaf at_
      { creatureList := (s.leaf at_).creatureList.erase c
        playerList :=
          if s.isPlayer c then (s.leaf at_).playerList.erase c else (s.leaf at_).playerList } }

/-- `Game::internalPlaceCreature`, when the tile that was found is at `dest`. -/
def placeCreature (c : CreatureId) (dest : Position) : CreatureMap :=
  if s.parent c = none ∧ s.isTile dest = true then
    (s.addThing dest c).addCreature (leafAt dest) c
  else s

def moveCreature (c : CreatureId) (newPos : Position) : CreatureMap :=
  match s.parent c with
  | none => s
  | some oldPos =>
    if s.removed c = true ∨ s.isTile newPos = false then s
    else
      let old := s.getSpectators ∅ { centerPos := oldPos, multifloor := true }
      let s := (old.2.getSpectators old.1 { centerPos := newPos, multifloor := true }).2
      let s := s.removeThing oldPos c
      let s :=
        if leafAt oldPos ≠ leafAt newPos then
          (s.leafRemoveCreature (leafAt oldPos) c).addCreature (leafAt newPos) c
        else s
      s.addThing newPos c

/-- `Game::removeCreature`. A creature that was removed is never placed again: its
parent stays. -/
def removeCreature (c : CreatureId) : CreatureMap :=
  match s.parent c with
  | none => s
  | some pos =>
    if s.removed c then s
    else
      let s := (s.getSpectators ∅ { centerPos := pos, multifloor := true }).2
      let s := (s.leafRemoveCreature (leafAt pos) c).removeThing pos c
      { s with removed := Function.update s.removed c true }

/-! ### Runs -/

/-- What happens on the map; a task of the dispatcher ends with its caches cleared. -/
inductive Event
  | place (c : CreatureId) (dest : Position)
  | move (c : CreatureId) (newPos : Position)
  | remove (c : CreatureId)
  | spectators (before : Finset CreatureId) (q : SpectatorQuery)
    (bounds : q.centerPos.x < 2 ^ 16 ∧ q.centerPos.y < 2 ^ 16)
  | endTask

def step : Event → CreatureMap
  | .place c dest => s.placeCreature c dest
  | .move c newPos => s.moveCreature c newPos
  | .remove c => s.removeCreature c
  | .spectators before q _ => (s.getSpectators before q).2
  | .endTask => s.clearSpectatorCache

end CreatureMap

end TibServer
