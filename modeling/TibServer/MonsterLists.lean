import TibServer.CreatureMap

/-!
What a monster knows of the creatures around it (`monster.cpp`): its targets and its friends, with
a reference held for each entry.

The creatures are described as far as the lists depend on them. The order in which the search for
spectators enumerates them is an input, as is whether the script of the monster's type takes an
event over. Walking, fighting and the list of monsters that think are left out.
-/

namespace TibServer.Monster

inductive Kind
  | player (ignoredByMonsters : Bool)
  | monster
  | npc
  deriving DecidableEq

structure Creature where
  kind : Kind
  position : Position
  /-- Placed on the map and not removed. -/
  present : Bool
  health : Int
  master : Option CreatureId
  party : Option Nat
  deriving DecidableEq

/-- The monster `self` among the other creatures. -/
structure Surroundings where
  self : CreatureId
  creature : CreatureId → Creature
  hasConditions : Bool

structure Lists where
  targetList : List CreatureId := []
  friendList : List CreatureId := []
  /-- The references to a creature that the lists hold. -/
  references : CreatureId → Int := fun _ => 0

structure State where
  around : Surroundings
  lists : Lists

/-- `Creature::canSee`. -/
def canSeeFrom (myPos pos : Position) (viewRangeX viewRangeY : Int) : Bool :=
  let distanceZ : Int := (myPos.z : Int) - pos.z
  let below := if myPos.z ≤ 7 then decide (pos.z ≤ 7) else decide (distanceZ.natAbs ≤ 2)
  below &&
    decide ((pos.x : Int) ≥ myPos.x - viewRangeX + distanceZ) &&
    decide ((pos.x : Int) ≤ myPos.x + viewRangeX + distanceZ) &&
    decide ((pos.y : Int) ≥ myPos.y - viewRangeY + distanceZ) &&
    decide ((pos.y : Int) ≤ myPos.y + viewRangeY + distanceZ)

/-- A creature at the position is found by `getSpectators(center, true)`. -/
def isSpectator (center pos : Position) : Bool :=
  decide (center.z < mapLayers) &&
    ({ centerPos := center, multifloor := true } : SpectatorQuery).window.contains pos

namespace Surroundings

variable (w : Surroundings)

/-! ### Creatures -/

def setCreature (c : CreatureId) (creature : Creature) : Surroundings :=
  { w with creature := Function.update w.creature c creature }

def isPlayer (c : CreatureId) : Bool :=
  match (w.creature c).kind with
  | .player _ => true
  | _ => false

def isMonster (c : CreatureId) : Bool := (w.creature c).kind == .monster

def isSummon (c : CreatureId) : Bool := (w.creature c).master.isSome

/-- `getMaster()->getPlayer()`. -/
def masterPlayer (c : CreatureId) : Option CreatureId := (w.creature c).master.filter w.isPlayer

/-- `Player::isPartner`. -/
def isPartner (p other : CreatureId) : Bool :=
  (w.creature p).party.isSome && (w.creature p).party == (w.creature other).party

def canSee (pos : Position) : Bool := canSeeFrom (w.creature w.self).position pos 10 10

def isFriend (c : CreatureId) : Bool :=
  match w.masterPlayer w.self with
  | some masterPlayer =>
      let tmpPlayer := if w.isPlayer c then some c else w.masterPlayer c
      tmpPlayer.any fun tmp => tmp == masterPlayer || w.isPartner masterPlayer tmp
  | none => w.isMonster c && !w.isSummon c

def isOpponent (c : CreatureId) : Bool :=
  match w.masterPlayer w.self with
  | some master => c != master
  | none =>
      (match (w.creature c).kind with
        | .player ignoredByMonsters => !ignoredByMonsters
        | _ => false) || (w.masterPlayer c).isSome

/-- An entry that is dead or out of view. -/
def isGone (c : CreatureId) : Bool :=
  decide ((w.creature c).health ≤ 0) || !w.canSee (w.creature c).position

/-- The monster is on the map and has health. -/
def isAlive : Bool :=
  (w.creature w.self).present && decide (0 < (w.creature w.self).health)

/-- The monster is among the creatures that are told what happens at a position. -/
def isTold (pos : Position) : Bool :=
  (w.creature w.self).present && isSpectator pos (w.creature w.self).position

/-- Whether a convinced creature makes the monster look around. -/
def minds (convincer c : CreatureId) : Bool :=
  convincer != w.self && (w.isFriend c || w.isOpponent c)

end Surroundings

namespace Lists

variable (w : Surroundings) (l : Lists)

/-! ### The lists -/

def incrementReference (c : CreatureId) : Lists :=
  { l with references := Function.update l.references c (l.references c + 1) }

def decrementReference (c : CreatureId) : Lists :=
  { l with references := Function.update l.references c (l.references c - 1) }

def addFriend (c : CreatureId) : Lists :=
  if c ∈ l.friendList then l
  else ({ l with friendList := c :: l.friendList } : Lists).incrementReference c

def removeFriend (c : CreatureId) : Lists :=
  if c ∈ l.friendList then
    ({ l with friendList := l.friendList.erase c } : Lists).decrementReference c
  else l

def addTarget (c : CreatureId) (pushFront : Bool) : Lists :=
  if c ∈ l.targetList then l
  else if pushFront then
    ({ l with targetList := c :: l.targetList } : Lists).incrementReference c
  else ({ l with targetList := l.targetList ++ [c] } : Lists).incrementReference c

def removeTarget (c : CreatureId) : Lists :=
  if c ∈ l.targetList then
    ({ l with targetList := l.targetList.erase c } : Lists).decrementReference c
  else l

/-- The loops that erase entries, with their references. -/
def eraseFriends (gone : CreatureId → Bool) : Lists :=
  { l with
    friendList := l.friendList.filter fun c => !gone c
    references := fun c => l.references c - (l.friendList.filter gone).count c }

def eraseTargets (gone : CreatureId → Bool) : Lists :=
  { l with
    targetList := l.targetList.filter fun c => !gone c
    references := fun c => l.references c - (l.targetList.filter gone).count c }

def clearTargetList : Lists := l.eraseTargets fun _ => true

def clearFriendList : Lists := l.eraseFriends fun _ => true

/-! ### Idle -/

def setIdle (idle : Bool) : Lists :=
  if !w.isAlive then l
  else if idle then l.clearTargetList.clearFriendList
  else l

def updateIdleStatus : Lists :=
  l.setIdle w (!w.hasConditions && !w.isSummon w.self && l.targetList.isEmpty)

/-! ### Creatures that come and go -/

def onCreatureFound (c : CreatureId) (pushFront : Bool) : Lists :=
  let l := if w.isFriend c then l.addFriend c else l
  let l := if w.isOpponent c then l.addTarget c pushFront else l
  l.updateIdleStatus w

def onCreatureEnter (c : CreatureId) : Lists := l.onCreatureFound w c true

def onCreatureLeave (c : CreatureId) : Lists :=
  let l := if w.isFriend c then l.removeFriend c else l
  if w.isOpponent c then
    let l := l.removeTarget c
    if l.targetList.isEmpty then l.updateIdleStatus w else l
  else l

/-- The other spectators are found in some order. -/
def updateTargetList (spectators : List CreatureId) : Lists :=
  let l := l.eraseFriends w.isGone
  let l := l.eraseTargets w.isGone
  spectators.foldl (fun l spectator =>
    if w.canSee (w.creature spectator).position then l.onCreatureFound w spectator false else l) l

/-! ### The events of the monster -/

/-- `handled`: the script of the monster's type takes the event over. -/
def onCreatureAppear (c : CreatureId) (spectators : List CreatureId) (handled : Bool) : Lists :=
  if handled then l
  else if c = w.self then (l.updateTargetList w spectators).updateIdleStatus w
  else l.onCreatureEnter w c

def onRemoveCreature (c : CreatureId) (handled : Bool) : Lists :=
  if handled then l
  else if c = w.self then l.setIdle w true
  else l.onCreatureLeave w c

def onCreatureMove (c : CreatureId) (newPos oldPos : Position) (spectators : List CreatureId)
    (handled : Bool) : Lists :=
  if handled then l
  else if c = w.self then (l.updateTargetList w spectators).updateIdleStatus w
  else
    let canSeeNewPos := w.canSee newPos
    let canSeeOldPos := w.canSee oldPos
    let l :=
      if canSeeNewPos && !canSeeOldPos then l.onCreatureEnter w c
      else if !canSeeNewPos && canSeeOldPos then l.onCreatureLeave w c
      else l
    l.updateIdleStatus w

def onCreatureConvinced (convincer c : CreatureId) (spectators : List CreatureId) : Lists :=
  if w.minds convincer c then (l.updateTargetList w spectators).updateIdleStatus w else l

/-- A creature that is followed goes to the front of the targets if there is a way to it, else to
the back, or off the list of a summon. -/
def onFollowCreatureComplete (c : CreatureId) (hasFollowPath : Bool) : Lists :=
  if c ∈ l.targetList then
    if hasFollowPath then { l with targetList := c :: l.targetList.erase c }
    else if !w.isSummon w.self then { l with targetList := l.targetList.erase c ++ [c] }
    else ({ l with targetList := l.targetList.erase c } : Lists).decrementReference c
  else l

end Lists

/-! ### The world around -/

namespace Surroundings

variable (w : Surroundings)

/-- A creature that is removed leaves a master who is there. -/
def clearMaster (c : CreatureId) : Surroundings :=
  match (w.creature c).master with
  | some master =>
      if (w.creature master).present then w.setCreature c { w.creature c with master := none } else w
  | none => w

def place (c : CreatureId) (pos : Position) : Surroundings :=
  w.setCreature c { w.creature c with position := pos, present := true }

def move (c : CreatureId) (pos : Position) : Surroundings :=
  w.setCreature c { w.creature c with position := pos }

/-- What the monster sees of a creature that is removed. `ownFirst`: the creature is told before
the monster is. -/
def removing (c : CreatureId) (ownFirst : Bool) : Surroundings :=
  if ownFirst || c == w.self then w.clearMaster c else w

def remove (c : CreatureId) : Surroundings :=
  let w := w.clearMaster c
  w.setCreature c { w.creature c with present := false }

def setMaster (c : CreatureId) (master : Option CreatureId) : Surroundings :=
  w.setCreature c { w.creature c with master }

/-- The new master; the summons of the convinced creature die. -/
def convinced (c convincer : CreatureId) : Surroundings :=
  { w with
    creature := fun d =>
      if d = c then { w.creature c with master := some convincer }
      else if (w.creature d).master = some c then
        { w.creature d with health := 0, master := none }
      else w.creature d }

/-- A creature that has a player as its master, or this one, is not convinced. -/
def resists (c convincer : CreatureId) : Bool :=
  (w.masterPlayer c).isSome || (w.creature c).master == some convincer

/-- The others that the search around the monster finds. -/
def Finds (spectators : List CreatureId) : Prop :=
  ∀ d, d ∈ spectators ↔ d ≠ w.self ∧ (w.creature d).present = true ∧
    isSpectator (w.creature w.self).position (w.creature d).position = true

end Surroundings

inductive Event
  | place (c : CreatureId) (pos : Position) (spectators : List CreatureId) (handled : Bool)
  | remove (c : CreatureId) (ownFirst handled : Bool)
  | move (c : CreatureId) (newPos : Position) (spectators : List CreatureId) (handled : Bool)
  | setMaster (c : CreatureId) (master : Option CreatureId)
  | convince (c convincer : CreatureId) (spectators later : List CreatureId)
  | setParty (c : CreatureId) (party : Option Nat)
  | setHealth (c : CreatureId) (health : Int)
  | setConditions (has : Bool)
  | setIdle (idle : Bool)
  | followComplete (c : CreatureId) (hasFollowPath : Bool)

namespace State

variable (s : State)

/-- `Game::placeCreature`. -/
def placeCreature (c : CreatureId) (pos : Position) (spectators : List CreatureId)
    (handled : Bool) : State :=
  if (s.around.creature c).present then s
  else
    let w := s.around.place c pos
    { around := w
      lists := if w.isTold pos then s.lists.onCreatureAppear w c spectators handled else s.lists }

/-- `Game::removeCreature`. -/
def removeCreature (c : CreatureId) (ownFirst handled : Bool) : State :=
  if !(s.around.creature c).present then s
  else
    { around := s.around.remove c
      lists :=
        if s.around.isTold (s.around.creature c).position then
          s.lists.onRemoveCreature (s.around.removing c ownFirst) c handled
        else s.lists }

/-- `Map::moveCreature`. -/
def moveCreature (c : CreatureId) (newPos : Position) (spectators : List CreatureId)
    (handled : Bool) : State :=
  if !(s.around.creature c).present then s
  else
    let oldPos := (s.around.creature c).position
    let w := s.around.move c newPos
    { around := w
      lists :=
        if s.around.isTold oldPos || s.around.isTold newPos then
          s.lists.onCreatureMove w c newPos oldPos spectators handled
        else s.lists }

/-- `Monster::convinceCreature`, where the kind of monster can be convinced. -/
def convinceCreature (c convincer : CreatureId) (spectators later : List CreatureId) : State :=
  if s.around.resists c convincer then s
  else
    let w := s.around.convinced c convincer
    let l :=
      if c = w.self then (s.lists.updateTargetList w spectators).updateIdleStatus w else s.lists
    { around := w
      lists :=
        if w.isTold (w.creature c).position || w.isTold (w.creature convincer).position then
          l.onCreatureConvinced w convincer c later
        else l }

def step : Event → State
  | .place c pos spectators handled => s.placeCreature c pos spectators handled
  | .remove c ownFirst handled => s.removeCreature c ownFirst handled
  | .move c newPos spectators handled => s.moveCreature c newPos spectators handled
  | .setMaster c master => { s with around := s.around.setMaster c master }
  | .convince c convincer spectators later => s.convinceCreature c convincer spectators later
  | .setParty c party =>
      { s with around := s.around.setCreature c { s.around.creature c with party } }
  | .setHealth c health =>
      { s with around := s.around.setCreature c { s.around.creature c with health } }
  | .setConditions has =>
      let w := { s.around with hasConditions := has }
      { around := w, lists := s.lists.updateIdleStatus w }
  | .setIdle idle => { s with lists := s.lists.setIdle s.around idle }
  | .followComplete c hasFollowPath =>
      { s with lists := s.lists.onFollowCreatureComplete s.around c hasFollowPath }

/-- Creatures stand on tiles, and the searches find who is there. -/
def possible : Event → Prop
  | .place c pos spectators _ => pos.z < mapLayers ∧ (s.around.place c pos).Finds spectators
  | .move c newPos spectators _ => newPos.z < mapLayers ∧ (s.around.move c newPos).Finds spectators
  | .convince c convincer spectators later =>
      (s.around.convinced c convincer).Finds spectators ∧
        (s.around.convinced c convincer).Finds later
  | _ => True

/-- The monster and the others before they are placed. -/
def init (self : CreatureId) (creature : CreatureId → Creature) : State where
  around := {
    self
    creature := fun c => { creature c with present := false }
    hasConditions := false }
  lists := {}

end State

end TibServer.Monster
