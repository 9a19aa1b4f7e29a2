import TibServer.NetworkMessage
import TibServer.Destination
import TibServer.ConditionStore
import TibServer.KnownCreatures

/-!
The descriptions of tiles that are sent to a client (`protocolgamebase.cpp`), and the
positions in the stack of a tile that its updates name (`tile.cpp`).

What the functions ask of creatures and of the client's player stands in a `ClientView`,
which does not change while a description is written.
-/

namespace TibServer

inductive CreatureType
  | player | monster | npc
  deriving DecidableEq, Repr

/-- `CreatureType_t`, as it is sent. -/
def CreatureType.toByte : CreatureType → UInt8
  | .player => 0
  | .monster => 1
  | .npc => 2

def CREATURETYPE_SUMMONPLAYER : UInt8 := 3

/-- What `AddCreature` reads of a creature, some of it by way of the player that sees it. -/
structure CreatureLook where
  id : BitVec 32
  id_ne : id ≠ 0
  type : CreatureType := .monster
  /-- The id of the master, and whether it is a player. -/
  master : Option (BitVec 32 × Bool) := none
  name : List UInt8 := []
  /-- In percent, rounded up. -/
  health : UInt8 := 100
  isHealthHidden : Bool := false
  direction : UInt8 := 0
  isInGhostMode : Bool := false
  isInvisible : Bool := false
  currentOutfit : Outfit := {}
  lightLevel : UInt8 := 0
  lightColor : UInt8 := 0
  stepSpeed : Nat := 0
  skullClient : UInt8 := 0
  partyShield : UInt8 := 0
  guildEmblem : UInt8 := 0
  speechBubble : UInt8 := 0
  helpers : Nat := 0
  canWalkthroughEx : Bool := false

/-- A client's player and what it sees; a player sees itself. -/
structure ClientView where
  player : CreatureId
  position : Position
  loggedIn : Bool := true
  isAccessPlayer : Bool := false
  version : Nat := 1100
  look : CreatureId → CreatureLook
  canSeeCreature : CreatureId → Bool
  /-- `ProtocolGameBase::canSee` of the creature with an id. -/
  canSee : BitVec 32 → Bool
  sees_itself : canSeeCreature player = true

/-- The creatures that the client knows, and the orders of its set after the insertions that
follow. -/
structure KnownState where
  knownCreatureSet : List (BitVec 32) := []
  arrangements : Nat → Arrangement

/-- A thing as `GetTileDescription` writes it. -/
inductive WrittenThing
  | item (i : ItemRef)
  | creature (c : CreatureId) (known : Bool) (remove : BitVec 32)
  deriving DecidableEq, Repr

/-! ### The traversal of a tile -/

namespace ClientView

variable (view : ClientView)

/-- `checkCreatureAsKnown`, and the creature as it is written then. -/
def introduce (st : KnownState) (c : CreatureId) : WrittenThing × KnownState :=
  let result := KnownCall.checkCreatureAsKnown
    { id := (view.look c).id
      id_ne := (view.look c).id_ne
      canSee := view.canSee
      arrangement := st.arrangements 0
      removedKnown := 0 } st.knownCreatureSet
  (.creature c result.known result.removedKnown,
    { knownCreatureSet := result.knownCreatureSet, arrangements := fun n => st.arrangements (n + 1) })

/-- A loop over items; it has no count where it returned. -/
def writeItems (count : Nat) : List ItemRef → List WrittenThing × Option Nat
  | [] => ([], some count)
  | i :: rest =>
      if count + 1 = 10 then ([.item i], none)
      else (.item i :: (writeItems (count + 1) rest).1, (writeItems (count + 1) rest).2)

/-- The loop over the creatures, last one first. On the tile of a player who is not logged in
yet (`spawning`) the player takes the ninth place unless it was written before. -/
def writeCreatures (spawning : Bool) (st : KnownState) (playerSpawned : Bool) (count : Nat) :
    List CreatureId → List WrittenThing × Option Nat × KnownState
  | [] => ([], some count, st)
  | c :: rest =>
      if !view.canSeeCreature c then writeCreatures spawning st playerSpawned count rest
      else
        let playerSpawned := playerSpawned || c == view.player
        let (thing, st) := view.introduce st c
        let (things, st, count) :=
          if spawning ∧ count = 8 ∧ playerSpawned = false then
            let (player, st) := view.introduce st view.player
            ([thing, player], st, count + 1)
          else ([thing], st, count)
        if count + 1 = 10 then (things, none, st)
        else
          let (others, count, st) := writeCreatures spawning st playerSpawned (count + 1) rest
          (things ++ others, count, st)

/-- The things that `GetTileDescription` writes, in their order. -/
def describe (st : KnownState) (pos : Position) (t : Tile) : List WrittenThing × KnownState :=
  let ground := t.ground.toList.map WrittenThing.item
  match writeItems ground.length t.topItems with
  | (top, none) => (ground ++ top, st)
  | (top, some count) =>
      match view.writeCreatures (!view.loggedIn && pos == view.position) st false count
        t.creatures.reverse with
      | (creatures, none, st) => (ground ++ top ++ creatures, st)
      | (creatures, some count, st) =>
          (ground ++ top ++ creatures ++ (writeItems count t.downItems).1, st)

end ClientView

/-! ### The messages -/

def fluidMap : List UInt8 := [0, 1, 5, 3, 6, 8, 9, 2]

/-- `NetworkMessage::addItem` of an item. -/
def NetworkMessage.addItem (m : NetworkMessage) (w : World) (i : ItemRef) : NetworkMessage :=
  let it := w.typeOf i
  let m := (m.add 2 it.clientId).addByte 0xFF
  let m :=
    if it.stackable then m.addByte (UInt8.ofNat (min 0xFF (w.getItemCount i)))
    else if it.isSplash || it.isFluidContainer then
      m.addByte (fluidMap.getD (BitVec.ofInt 16 ((w.item i).getIntAttr .fluidType) &&& 7).toNat 0)
    else m
  if it.isAnimation then m.addByte 0xFE else m

/-- `NetworkMessage::addItemId`. -/
def NetworkMessage.addItemId (m : NetworkMessage) (w : World) (itemId : Nat) : NetworkMessage :=
  m.add 2 (w.items.type itemId).clientId

def AddOutfit (w : World) (m : NetworkMessage) (outfit : Outfit) : NetworkMessage :=
  let m := m.add 2 outfit.lookType.toNat
  let m :=
    if outfit.lookType ≠ 0 then
      ((((m.addByte ⟨outfit.lookHead⟩).addByte ⟨outfit.lookBody⟩).addByte ⟨outfit.lookLegs⟩).addByte
        ⟨outfit.lookFeet⟩).addByte ⟨outfit.lookAddons⟩
    else m.addItemId w outfit.lookTypeEx.toNat
  m.add 2 outfit.lookMount.toNat

namespace ClientView

variable (view : ClientView)

/-- The id of the master, for a type that is sent with it. -/
def addMaster (look : CreatureLook) (creatureType : UInt8) (m : NetworkMessage) :
    NetworkMessage :=
  if creatureType = CREATURETYPE_SUMMONPLAYER then
    match look.master with
    | some (master, _) => m.add 4 master.toNat
    | none => m
  else m

def AddCreature (w : World) (m : NetworkMessage) (c : CreatureId) (known : Bool)
    (remove : BitVec 32) : NetworkMessage :=
  let look := view.look c
  let m :=
    if known then (m.add 2 0x62).add 4 look.id.toNat
    else
      let m := (((m.add 2 0x61).add 4 remove.toNat).add 4 look.id.toNat).addByte look.type.toByte
      (addMaster look look.type.toByte m).addString look.name
  let m := m.addByte (if look.isHealthHidden then 0 else look.health)
  let m := m.addByte look.direction
  let m :=
    AddOutfit w m (if !look.isInGhostMode && !look.isInvisible then look.currentOutfit else {})
  let m := m.addByte (if view.isAccessPlayer then 0xFF else look.lightLevel)
  let m := m.addByte look.lightColor
  let m := m.add 2 (look.stepSpeed / 2)
  let m := m.addByte look.skullClient
  let m := m.addByte look.partyShield
  let m := if !known then m.addByte look.guildEmblem else m
  let creatureType :=
    if look.type = .monster ∧ (look.master.map Prod.snd).getD false = true then
      CREATURETYPE_SUMMONPLAYER
    else look.type.toByte
  let m := addMaster look creatureType (m.addByte creatureType)
  let m := m.addByte look.speechBubble
  let m := m.addByte 0xFF
  let m := if view.version ≥ 1110 then m.addByte 0 else m
  let m := m.add 2 (if look.type = .player then look.helpers else 0)
  m.addByte (if look.canWalkthroughEx then 0 else 1)

def addThing (w : World) (m : NetworkMessage) : WrittenThing → NetworkMessage
  | .item i => m.addItem w i
  | .creature c known remove => view.AddCreature w m c known remove

/-- `GetTileDescription`: the environmental effects, and then the things. -/
def GetTileDescription (w : World) (st : KnownState) (pos : Position) (t : Tile)
    (m : NetworkMessage) : NetworkMessage × KnownState :=
  ((view.describe st pos t).1.foldl (view.addThing w) (m.add 2 0), (view.describe st pos t).2)

end ClientView

/-- `Map::getTile`, with the position that the tile has. The coordinates are cut to 16 bits and
the floor to 8. -/
def World.getMapTile (w : World) (x y z : Int) : Option (Position × Tile) :=
  let pos : Position := ⟨(x % 65536).toNat, (y % 65536).toNat, (z % 256).toNat⟩
  if pos.z ≥ World.MAP_MAX_LAYERS then none else (w.tile pos).map fun t => (pos, t)

/-- What the map description is written with. -/
structure MapWriter where
  msg : NetworkMessage
  known : KnownState
  skip : Int

namespace MapWriter

variable (w : World) (view : ClientView) (s : MapWriter)

/-- The tile or the gap at one place of a floor. -/
def visit (x y z : Int) : MapWriter :=
  match w.getMapTile x y z with
  | some (pos, tile) =>
      let msg :=
        if s.skip ≥ 0 then (s.msg.addByte (UInt8.ofNat s.skip.toNat)).addByte 0xFF else s.msg
      let (msg, known) := view.GetTileDescription w s.known pos tile msg
      { msg, known, skip := 0 }
  | none =>
      if s.skip = 0xFE then { s with msg := (s.msg.addByte 0xFF).addByte 0xFF, skip := -1 }
      else { s with skip := s.skip + 1 }

def GetFloorDescription (x y z width height offset : Int) : MapWriter :=
  (List.range width.toNat).foldl (fun s nx =>
    (List.range height.toNat).foldl (fun s ny =>
      visit w view s (x + nx + offset) (y + ny + offset) z) s) s

/-- The floors of a map description: those about the floor of a position below the ground, and
all from the ground upwards. -/
def floors (z : Int) : List Int :=
  if z > 7 then
    let startz := z - 2
    let endz := min ((World.MAP_MAX_LAYERS : Int) - 1) (z + 2)
    (List.range (endz + 1 - startz).toNat).map fun n => startz + n
  else [7, 6, 5, 4, 3, 2, 1, 0]

/-- `GetMapDescription`. -/
def GetMapDescription (msg : NetworkMessage) (known : KnownState) (x y z width height : Int) :
    NetworkMessage × KnownState :=
  let s := (floors z).foldl
    (fun s nz => GetFloorDescription w view s x y nz width height (z - nz))
    ⟨msg, known, -1⟩
  if s.skip ≥ 0 then
    ((s.msg.addByte (UInt8.ofNat s.skip.toNat)).addByte 0xFF, s.known)
  else (s.msg, s.known)

end MapWriter

/-! ### Positions in the stack -/

namespace Tile

variable (w : World) (t : Tile) (view : ClientView)

/-- The loops of `getStackposOfItem`: the place of an item, counted on, or how far the count
came; no count where it reached 10. -/
def stackposAmong (i : ItemRef) (n : Nat) : List ItemRef → Option (Int ⊕ Nat)
  | [] => some (.inr n)
  | o :: rest =>
      if o = i then some (.inl n)
      else if n + 1 ≥ 10 then none
      else stackposAmong i (n + 1) rest

/-- The loop over the creatures, which counts those that are seen. -/
def countSeen (n : Nat) : List CreatureId → Option Nat
  | [] => some n
  | c :: rest =>
      if view.canSeeCreature c then
        if n + 1 ≥ 10 then none else countSeen (n + 1) rest
      else countSeen n rest

def getStackposOfItem (i : ItemRef) : Int :=
  if t.ground = some i then 0
  else
    let n := t.ground.toList.length
    let top : Option (Int ⊕ Nat) :=
      if w.isAlwaysOnTop i then stackposAmong i n t.topItems
      else if n + t.getTopItemCount ≥ 10 then none
      else some (.inr (n + t.getTopItemCount))
    match top with
    | none => -1
    | some (.inl n) => n
    | some (.inr n) =>
        match countSeen view n t.creatures with
        | none => -1
        | some n =>
            if w.isAlwaysOnTop i then -1
            else
              match stackposAmong i n t.downItems with
              | some (.inl n) => n
              | _ => -1

/-- The loop of `getStackposOfCreature`. -/
def stackposOfSeen (c : CreatureId) (n : Nat) : List CreatureId → Int
  | [] => -1
  | o :: rest =>
      if o = c then n
      else if view.canSeeCreature o then
        if n + 1 ≥ 10 then -1 else stackposOfSeen c (n + 1) rest
      else stackposOfSeen c n rest

def getStackposOfCreature (c : CreatureId) : Int :=
  let n := t.ground.toList.length + t.getTopItemCount
  if n ≥ 10 then -1 else stackposOfSeen view c n t.creatures.reverse

/-- The loop of `getClientIndexOfCreature`. -/
def clientIndexOfSeen (c : CreatureId) (n : Nat) : List CreatureId → Int
  | [] => -1
  | o :: rest =>
      if o = c then n
      else if view.canSeeCreature o then clientIndexOfSeen c (n + 1) rest
      else clientIndexOfSeen c n rest

def getClientIndexOfCreature (c : CreatureId) : Int :=
  clientIndexOfSeen view c (t.ground.toList.length + t.getTopItemCount) t.creatures.reverse

end Tile

end TibServer
