import TibServer.ArrayLoops
import TibServer.TileOps

/-!
The walk cache of a monster (`creature.cpp`): for each tile around it, whether the monster could go
there, looked up once and kept up to date while creatures and items come and go.

Of all creatures only monsters use the cache. A monster is told of what happens on the tiles in
its viewport, which is as wide as the cache; what happens elsewhere would not change the cache, and
is told as well here. That a move makes the monster lose summons which are far away is a step of its
own, before the move.
-/

namespace TibServer.WalkCache

open ArrayLoops

abbrev CombatType := BitVec 32

def COMBAT_ENERGYDAMAGE : CombatType := 1 <<< 1
def COMBAT_EARTHDAMAGE : CombatType := 1 <<< 2
def COMBAT_FIREDAMAGE : CombatType := 1 <<< 3

/-- What the type of a magic field has besides. -/
structure FieldType where
  combatType : CombatType := 0
  /-- `conditionDamage->getTotalDamage()`, or 0. -/
  damage : Int := 0

/-- What a tile asks of a creature that stands on it; the master is that of a summon. -/
structure Occupant where
  isPlayer : Bool := false
  isMonster : Bool := false
  isInGhostMode : Bool := false
  isPushable : Bool := false
  isSummonOfPlayer : Bool := false

structure Monster where
  id : CreatureId
  position : Position
  isMoveLocked : Bool := false
  isSummon : Bool := false
  canPushItems : Bool := false
  canPushCreatures : Bool := false
  canWalkOnEnergy : Bool := true
  canWalkOnFire : Bool := true
  canWalkOnPoison : Bool := true
  ignoreFieldDamage : Bool := false
  damageImmunities : BitVec 32 := 0
  randomSteping : Bool := false
  isMapLoaded : Bool := false
  localMapCache : Nat → Nat → Bool := fun _ _ => false

structure State where
  world : World
  occupant : CreatureId → Occupant
  /-- By the id of an item type. -/
  fieldType : Nat → FieldType
  monster : Monster

def maxViewportX : Nat := 11
def maxViewportY : Nat := 11
def mapWalkWidth : Nat := maxViewportX * 2 + 1
def mapWalkHeight : Nat := maxViewportY * 2 + 1
def maxWalkCacheWidth : Int := (mapWalkWidth - 1) / 2
def maxWalkCacheHeight : Int := (mapWalkHeight - 1) / 2

def TILESTATE_PROTECTIONZONE : BitVec 32 := 1 <<< 7

def getOffsetX (p1 p2 : Position) : Int := p1.x - p2.x
def getOffsetY (p1 p2 : Position) : Int := p1.y - p2.y
def getDistanceY (p1 p2 : Position) : Int := (getOffsetY p1 p2).natAbs

/-- `Position::areInRange<1, 1, 0>`. -/
def areNextTo (p1 p2 : Position) : Bool :=
  (getOffsetX p1 p2).natAbs ≤ 1 && (getOffsetY p1 p2).natAbs ≤ 1 && p1.z == p2.z

/-- The conversion of a coordinate to `uint16_t`. -/
def uint16 (n : Int) : Nat := (n % 65536).toNat

namespace Monster

variable (m : Monster)

def isImmune (combatType : CombatType) : Bool := combatType &&& m.damageImmunities != 0

def canWalkOnFieldType (combatType : CombatType) : Bool :=
  if combatType = COMBAT_ENERGYDAMAGE then m.canWalkOnEnergy
  else if combatType = COMBAT_FIREDAMAGE then m.canWalkOnFire
  else if combatType = COMBAT_EARTHDAMAGE then m.canWalkOnPoison
  else true

def useCacheMap : Bool := !m.randomSteping

end Monster

namespace State

variable (s : State)

/-! ### The query -/

/-- `Tile::getFieldItem`. -/
def getFieldItem (t : Tile) : Option ItemRef :=
  if !t.hasFlag World.TILESTATE_MAGICFIELD then none
  else
    match t.ground.filter fun i => (s.world.item i).getMagicField with
    | some i => some i
    | none => t.itemList.reverse.find? fun i => (s.world.item i).getMagicField

/-- A creature that a monster which pushes creatures does not get past. -/
def keepsPlace (c : CreatureId) : Bool :=
  let o := s.occupant c
  !(o.isPlayer && o.isInGhostMode) && (!o.isMonster || !o.isPushable || o.isSummonOfPlayer)

/-- A field that the monster does not walk through. -/
def hurts (flags : Flags) (field : ItemRef) : Bool :=
  let it := s.world.typeOf field
  let fieldType := s.fieldType it.id
  !it.blockSolid && fieldType.damage != 0 && !s.monster.isImmune fieldType.combatType &&
    !(flags.ignoreFieldDamage &&
      (s.monster.canWalkOnFieldType fieldType.combatType || s.monster.ignoreFieldDamage))

/-- `Tile::queryAdd` of a monster. -/
def queryAdd (t : Tile) (flags : Flags) : ReturnValue :=
  let m := s.monster
  if flags.noLimit then .noError
  else if flags.pathfinding &&
      t.hasFlag (World.TILESTATE_FLOORCHANGE ||| World.TILESTATE_TELEPORT) then .notPossible
  else if m.isMoveLocked || t.ground.isNone then .notPossible
  else if t.hasFlag (TILESTATE_PROTECTIONZONE ||| World.TILESTATE_FLOORCHANGE |||
      World.TILESTATE_TELEPORT) then .notPossible
  else if (m.canPushCreatures && !m.isSummon) && t.creatures.any s.keepsPlace then .notPossible
  else if !(m.canPushCreatures && !m.isSummon) &&
      t.creatures.any (fun c => !(s.occupant c).isInGhostMode) then .notEnoughRoom
  else if t.hasFlag World.TILESTATE_IMMOVABLEBLOCKSOLID then .notPossible
  else if flags.pathfinding && t.hasFlag World.TILESTATE_IMMOVABLENOFIELDBLOCKPATH then
    .notPossible
  else if (t.hasFlag World.TILESTATE_BLOCKSOLID ||
      flags.pathfinding && t.hasFlag World.TILESTATE_NOFIELDBLOCKPATH) &&
      !(m.canPushItems || flags.ignoreBlockItem) then .notPossible
  else if (s.getFieldItem t).any (s.hurts flags) then .notPossible
  else .noError

/-- `tile && tile->queryAdd(0, *this, 1, FLAG_PATHFINDING | FLAG_IGNOREFIELDDAMAGE) ==
RETURNVALUE_NOERROR`. -/
def walkable (tile : Option Tile) : Bool :=
  tile.any fun t => s.queryAdd t { pathfinding := true, ignoreFieldDamage := true } == .noError

/-- `Map::getTile`. -/
def getTile (x y : Int) (z : Nat) : Option Tile := s.world.tile ⟨uint16 x, uint16 y, z⟩

/-! ### The cache -/

def mapCache (f : (Nat → Nat → Bool) → Nat → Nat → Bool) : State :=
  { s with monster := { s.monster with localMapCache := f s.monster.localMapCache } }

/-- `Creature::updateTileCache(tile, dx, dy)`. -/
def updateTileCache (tile : Option Tile) (dx dy : Int) : State :=
  s.mapCache fun cache =>
    if |dx| ≤ maxWalkCacheWidth ∧ |dy| ≤ maxWalkCacheHeight then
      Function.update cache (maxWalkCacheHeight + dy).toNat
        (Function.update (cache (maxWalkCacheHeight + dy).toNat) (maxWalkCacheWidth + dx).toNat
          (s.walkable tile))
    else cache

/-- `Creature::updateTileCache(tile, pos)`. -/
def updateTileCacheAt (tile : Option Tile) (pos : Position) : State :=
  if pos.z = s.monster.position.z then
    s.updateTileCache tile (getOffsetX pos s.monster.position) (getOffsetY pos s.monster.position)
  else s

/-- `for (d = -range; d <= range; ++d)` -/
def offsets (range : Int) : List Int :=
  (List.range (2 * range + 1).toNat).map fun (k : Nat) => (k : Int) - range

/-- The body of the two loops of `Creature::updateMapCache`. -/
def updateMapTile (x y : Int) : State :=
  let myPos := s.monster.position
  let pos : Position := ⟨uint16 (myPos.x + x), uint16 (myPos.y + y), myPos.z⟩
  s.updateTileCacheAt (s.world.tile pos) pos

/-- `Creature::updateMapCache`. -/
def updateMapCache : State :=
  (offsets maxWalkCacheHeight).foldl
    (fun s y => (offsets maxWalkCacheWidth).foldl (fun s x => updateMapTile s x y) s) s

/-- `Creature::getWalkCache`. -/
def getWalkCache (pos : Position) : Nat :=
  let myPos := s.monster.position
  if !s.monster.useCacheMap then 2
  else if myPos.z ≠ pos.z then 0
  else if pos = myPos then 1
  else
    let dx := getOffsetX pos myPos
    let dy := getOffsetY pos myPos
    if |dx| ≤ maxWalkCacheWidth ∧ |dy| ≤ maxWalkCacheHeight then
      if s.monster.localMapCache (maxWalkCacheHeight + dy).toNat (maxWalkCacheWidth + dx).toNat
        then 1 else 0
    else 2

/-- `Map::canWalkTo`. -/
def canWalkTo (pos : Position) : Option Tile :=
  let walkCache := s.getWalkCache pos
  if walkCache = 0 then none
  else if walkCache = 1 then s.world.tile pos
  else if s.monster.position = pos then s.world.tile pos
  else if s.walkable (s.world.tile pos) then s.world.tile pos
  else none

/-! ### What the monster is told -/

/-- What an operation on the items of a tile tells of. -/
inductive Notice
  | added
  | updated (oldType newType : ItemType)
  | removed (iType : ItemType)

/-- `Creature::onAddTileItem`, `onUpdateTileItem` and `onRemoveTileItem`. -/
def Notice.refreshes : Notice → Bool
  | .added => true
  | .updated oldType newType =>
      oldType.blockSolid || oldType.blockPathFind || newType.blockPathFind || newType.blockSolid
  | .removed iType => iType.blockSolid || iType.blockPathFind || iType.isGroundTile

/-- The last notice that an operation gives, if any: what is added where something was removed
first tells of both. -/
def notice (w : World) (t : Tile) : TileOp → Option Notice
  | .addThing i =>
      if t.itemList.length ≥ 0xFFFF ∨ (w.replacedItem t i).any (TileOp.withstands w i) then none
      else if (w.typeOf i).isGroundTile then
        some (t.ground.elim .added fun o => .updated (w.typeOf o) (w.typeOf i))
      else some .added
  | .internalAddThing _ => none
  | .updateThing i itemId _ =>
      if t.getThingIndex (w.isAlwaysOnTop i) i = -1 then none
      else some (.updated (w.typeOf i) (w.items.type itemId))
  | .replaceThing index i =>
      (t.replaceAt index i).map fun replaced => .updated (w.typeOf replaced.1) (w.typeOf i)
  | .removeThing i count =>
      if t.getThingIndex (w.isAlwaysOnTop i) i = -1 then none
      else if t.ground = some i then some (.removed (w.typeOf i))
      else if !w.isAlwaysOnTop i && w.isStackable i && count != w.getItemCount i then
        some (.updated (w.typeOf i) (w.typeOf i))
      else some (.removed (w.typeOf i))

/-- Whether the monster looks the tile up again after an operation. -/
def refreshes (w : World) (t : Tile) (op : TileOp) : Bool := (notice w t op).any Notice.refreshes

/-- `if (isMapLoaded && pos.z == getPosition().z) updateTileCache(tile, pos)` -/
def refreshTile (pos : Position) : State :=
  if s.monster.isMapLoaded then s.updateTileCacheAt (s.world.tile pos) pos else s

/-! ### Moving -/

/-- The tiles at these offsets are looked up again. -/
def refresh (list : List (Int × Int)) : State :=
  list.foldl
    (fun s d =>
      let myPos := s.monster.position
      s.updateTileCache (s.getTile (myPos.x + d.1) (myPos.y + d.2) myPos.z) d.1 d.2) s

/-- To the north and to the south. -/
def shiftY (oldPos newPos : Position) : State :=
  if newPos.y < oldPos.y then
    (s.mapCache (shiftUp (mapWalkHeight - 1))).refresh
      ((offsets maxWalkCacheWidth).map fun x => (x, -maxWalkCacheHeight))
  else if oldPos.y < newPos.y then
    (s.mapCache (shiftDown (mapWalkHeight - 1))).refresh
      ((offsets maxWalkCacheWidth).map fun x => (x, maxWalkCacheHeight))
  else s

/-- The rows that are shifted to the west or to the east, with the number of them. -/
def shiftedRows (oldPos newPos : Position) : Nat × Nat :=
  let dy := getDistanceY oldPos newPos
  let starty : Int := if dy < 0 then 0 else if 0 < dy then dy else 0
  let endy : Int := if dy < 0 then mapWalkHeight - 1 + dy else mapWalkHeight - 1
  (starty.toNat, (endy + 1 - starty).toNat)

/-- To the east and to the west. -/
def shiftX (oldPos newPos : Position) : State :=
  let (start, rows) := shiftedRows oldPos newPos
  if oldPos.x < newPos.x then
    (s.mapCache (mapRange (shiftDown (mapWalkWidth - 1)) start rows)).refresh
      ((offsets maxWalkCacheHeight).map fun y => (maxWalkCacheWidth, y))
  else if newPos.x < oldPos.x then
    (s.mapCache (mapRange (shiftUp (mapWalkWidth - 1)) start rows)).refresh
      ((offsets maxWalkCacheHeight).map fun y => (-maxWalkCacheWidth, y))
  else s

/-- The part of `Creature::onCreatureMove` on the cache, of the monster itself. -/
def onOwnMove (oldPos newPos : Position) (teleport : Bool) : State :=
  if !s.monster.isMapLoaded then s
  else if teleport || oldPos.z != newPos.z then s.updateMapCache
  else
    let s := (s.shiftY oldPos newPos).shiftX oldPos newPos
    s.updateTileCacheAt (s.world.tile oldPos) oldPos

/-- Creatures come to a tile and leave it. -/
def withCreatures (pos : Position) (f : List CreatureId → List CreatureId) : State :=
  { s with world := { s.world with
      tile := Function.update s.world.tile pos
        ((s.world.tile pos).map fun t => { t with creatures := f t.creatures }) } }

/-- The creature is taken off its tile and put on another one. -/
def moved (c : CreatureId) (oldPos newPos : Position) : State :=
  let moved := (s.withCreatures oldPos (·.erase c)).withCreatures newPos (c :: ·)
  if c = s.monster.id then { moved with monster := { s.monster with position := newPos } }
  else moved

def isTeleport (oldPos newPos : Position) (forceTeleport : Bool) : Bool :=
  forceTeleport || (s.world.tile newPos).any (·.ground.isNone) || !areNextTo oldPos newPos

/-- `Map::moveCreature`, and `Creature::onCreatureMove`. -/
def moveCreature (c : CreatureId) (oldPos newPos : Position) (forceTeleport : Bool) : State :=
  let moved := s.moved c oldPos newPos
  if c = s.monster.id then
    moved.onOwnMove oldPos newPos (s.isTeleport oldPos newPos forceTeleport)
  else (moved.refreshTile newPos).refreshTile oldPos

/-! ### Coming and going -/

/-- `Creature::onCreatureAppear` of the monster itself. -/
def onOwnAppear : State :=
  if s.monster.useCacheMap then
    ({ s with monster := { s.monster with isMapLoaded := true } } : State).updateMapCache
  else s

/-- The beginning of `Creature::onThink`. -/
def onThink : State :=
  if !s.monster.isMapLoaded && s.monster.useCacheMap then
    ({ s with monster := { s.monster with isMapLoaded := true } } : State).updateMapCache
  else s

/-- Another creature is put on a tile, and `Creature::onCreatureAppear`. -/
def placeCreature (c : CreatureId) (pos : Position) : State :=
  (s.withCreatures pos (c :: ·)).refreshTile pos

/-- `Game::removeCreature`, and `Creature::onRemoveCreature`. -/
def removeCreature (c : CreatureId) (pos : Position) : State :=
  (s.withCreatures pos (·.erase c)).refreshTile pos

/-- An operation on the items of a tile. -/
def operate (pos : Position) (op : TileOp) : State :=
  let operated : State := { s with world := s.world.apply pos op }
  if (s.world.tile pos).any fun t => refreshes s.world t op then operated.refreshTile pos
  else operated

end State

end TibServer.WalkCache
