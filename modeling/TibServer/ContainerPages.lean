import Mathlib.Data.BitVec
import Mathlib.Data.List.Basic
import Mathlib.Logic.Function.Basic

/-!
Open containers (`player.cpp`, `container.cpp`, `game.cpp`): the windows in which players see
containers, and the page at which each of them stands. Containers, items and players are known by
numbers. Who is near a container, who has a client and where a container is are inputs.
-/

namespace TibServer.ContainerPages

structure Container where
  maxSize : Nat
  pagination : Bool
  itemlist : List Nat
  capacity_pos : 0 < maxSize

namespace Container

variable (container : Container)

def capacity : Nat := container.maxSize

def size : Nat := container.itemlist.length

/-- `Container::getThingIndex`. -/
def getThingIndex (thing : Nat) : Int :=
  match container.itemlist.findIdx? (· == thing) with
  | some index => index
  | none => -1

/-- `std::floor(getThingIndex(thing) / capacity()) * capacity()`, where the index becomes unsigned. -/
def pageStart (thing : Nat) : Nat :=
  ((container.getThingIndex thing) % 2 ^ 32).toNat / container.capacity * container.capacity

end Container

structure OpenContainer where
  container : Nat
  index : BitVec 16
  deriving DecidableEq

structure State where
  containers : Nat → Container
  /-- By player and window. -/
  openContainers : Nat → Nat → Option OpenContainer
  hasClient : Nat → Bool

namespace State

variable (s : State)

def setContainer (c : Nat) (container : Container) : State :=
  { s with containers := Function.update s.containers c container }

def setWindow (player cid : Nat) (window : Option OpenContainer) : State :=
  { s with
    openContainers := Function.update s.openContainers player
      (Function.update (s.openContainers player) cid window) }

/-- `Player::addContainer`. -/
def addContainer (player cid c : Nat) : State :=
  if cid > 0xF then s else s.setWindow player cid (some ⟨c, 0⟩)

/-- `Player::closeContainer`. -/
def closeContainer (player cid : Nat) : State := s.setWindow player cid none

/-- `Player::setContainerIndex`. -/
def setContainerIndex (player cid : Nat) (index : BitVec 16) : State :=
  match s.openContainers player cid with
  | none => s
  | some window => s.setWindow player cid (some { window with index := index })

/-- `Player::getContainerByID`. -/
def getContainerByID (player cid : Nat) : Option Nat :=
  (s.openContainers player cid).map OpenContainer.container

/-- `Game::playerSeekInContainer`. -/
def playerSeekInContainer (player cid : Nat) (index : BitVec 16) : State :=
  match s.getContainerByID player cid with
  | none => s
  | some c =>
      if !(s.containers c).pagination then s
      else if index.toNat % (s.containers c).capacity ≠ 0 ∨ index.toNat ≥ (s.containers c).size then s
      else s.setContainerIndex player cid index

/-- `Game::playerMoveUpContainer`, into the container or the field that holds the open one. A number
that does not fit into 16 bits becomes some other number. -/
def playerMoveUpContainer (player cid : Nat) (parent : Option Nat) (overflow : BitVec 16) : State :=
  match s.getContainerByID player cid, parent with
  | some c, some parent =>
      if (s.containers parent).pagination then
        let page := (s.containers parent).pageStart c
        (s.addContainer player cid parent).setContainerIndex player cid
          (if page < 2 ^ 16 then BitVec.ofNat 16 page else overflow)
      else s.addContainer player cid parent
  | _, _ => s

/-- What `Player::sendRemoveContainerItem` makes of a window, of the container as it was. -/
def turnBack (c : Nat) (window : OpenContainer) : OpenContainer :=
  if window.container = c ∧ window.index ≠ 0 ∧ (s.containers c).size - 1 ≤ window.index.toNat then
    { window with index := window.index - BitVec.ofNat 16 (s.containers c).capacity }
  else window

/-- `Container::onRemoveContainerItem`: the players near the container are told. -/
def onRemoveContainerItem (c : Nat) (spectators : List Nat) : State :=
  { s with
    openContainers := fun player cid =>
      if player ∈ spectators ∧ s.hasClient player then
        (s.openContainers player cid).map (s.turnBack c)
      else s.openContainers player cid }

/-- `Container::removeThing`, of a whole item. -/
def removeThing (c item : Nat) (hasParent : Bool) (spectators : List Nat) : State :=
  if item ∈ (s.containers c).itemlist then
    (if hasParent then s.onRemoveContainerItem c spectators else s).setContainer c
      { s.containers c with itemlist := (s.containers c).itemlist.erase item }
  else s

/-- `Container::addThing`, or `Container::addItemBack`. -/
def addThing (c item : Nat) (back : Bool) : State :=
  s.setContainer c
    { s.containers c with
      itemlist :=
        if back then (s.containers c).itemlist ++ [item] else item :: (s.containers c).itemlist }

/-- `Container::replaceThing`. -/
def replaceThing (c index item : Nat) : State :=
  s.setContainer c { s.containers c with itemlist := (s.containers c).itemlist.set index item }

end State

/-! ### Runs -/

inductive Event
  /-- A container comes into the world, or its items are not seen by anyone. -/
  | create (c : Nat) (container : Container)
  | addContainer (player cid c : Nat)
  | closeContainer (player cid : Nat)
  | seek (player cid : Nat) (index : BitVec 16)
  | moveUp (player cid : Nat) (parent : Option Nat) (overflow : BitVec 16)
  | addThing (c item : Nat) (back : Bool)
  | replaceThing (c index item : Nat)
  | removeThing (c item : Nat) (hasParent : Bool) (spectators : List Nat)
  | setClient (player : Nat) (hasClient : Bool)

def perform (s : State) : Event → State
  | .create c container => s.setContainer c container
  | .addContainer player cid c => s.addContainer player cid c
  | .closeContainer player cid => s.closeContainer player cid
  | .seek player cid index => s.playerSeekInContainer player cid index
  | .moveUp player cid parent overflow => s.playerMoveUpContainer player cid parent overflow
  | .addThing c item back => s.addThing c item back
  | .replaceThing c index item => s.replaceThing c index item
  | .removeThing c item hasParent spectators => s.removeThing c item hasParent spectators
  | .setClient player hasClient =>
      { s with hasClient := Function.update s.hasClient player hasClient }

def Possible (s : State) : Event → Prop
  | .create c _ => ∀ player cid, s.getContainerByID player cid ≠ some c
  | _ => True

/-- At first nobody has anything open. -/
inductive Run (allowed : State → Event → Prop) : State → Prop
  | start (containers : Nat → Container) :
      Run allowed ⟨containers, fun _ _ => none, fun _ => true⟩
  | step {s : State} (event : Event) (run : Run allowed s) (possible : Possible s event)
      (meets : allowed s event) : Run allowed (perform s event)

end TibServer.ContainerPages
