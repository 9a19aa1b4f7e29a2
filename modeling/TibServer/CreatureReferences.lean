import TibServer.Runs

/-!
The memory of the creatures. A creature counts the references to it and deletes itself with the
last one; what is deleted lets go of the monsters in its lists and of its summons, and these may go
with it. What reads or writes a creature that is not in memory has no result here.
-/

namespace TibServer.CreatureReferences

/-- A pointer to a creature. -/
abbrev CreatureId := ℕ

/-- What of a creature decides how long it lives. A monster's `friendList` is a set in the source;
its order plays no part. -/
structure Creature where
  /-- `parent` is not null. -/
  placed : Bool := false
  isInternalRemoved : Bool := false
  creatureCheck : Bool := false
  inCheckCreaturesVector : Bool := false
  master : Option CreatureId := none
  summons : List CreatureId := []
  targetList : List CreatureId := []
  friendList : List CreatureId := []
  referenceCounter : ℕ := 0

/-- It stands on a tile. -/
def Creature.onMap (x : Creature) : Bool :=
  x.placed && !x.isInternalRemoved

def EVENT_CREATURECOUNT : ℕ := 10

theorem eventCreatureCount_pos : 0 < EVENT_CREATURECOUNT := by decide

/-- The list of the `n`-th pass: the first pass goes over the first list, and each schedules the
one over the next list. -/
def listOf (n : ℕ) : Fin EVENT_CREATURECOUNT :=
  ⟨n % EVENT_CREATURECOUNT, Nat.mod_lt _ eventCreatureCount_pos⟩

structure Game where
  /-- The creatures in memory. -/
  creatures : CreatureId → Option Creature
  /-- No pointer from here on was ever given out. -/
  allocated : ℕ
  checkCreatureLists : Fin EVENT_CREATURECOUNT → List CreatureId
  ToReleaseCreatures : List CreatureId
  /-- The references of spawns, protocols and spectators. -/
  holders : List CreatureId
  /-- The pass over a list under way, with the place of its iterator. -/
  iterator : Option ℕ
  /-- The passes that have ended. -/
  passes : ℕ
  /-- Who was visited in which pass, the last one first. -/
  thoughts : List (CreatureId × ℕ)

namespace Game

def set (g : Game) (c : CreatureId) (x : Creature) : Game :=
  { g with creatures := Function.update g.creatures c (some x) }

def free (g : Game) (c : CreatureId) : Game :=
  { g with creatures := Function.update g.creatures c none }

/-! ### The reference counter -/

def incrementReferenceCounter (c : CreatureId) (g : Game) : Option Game := do
  let x ← g.creatures c
  some (g.set c { x with referenceCounter := x.referenceCounter + 1 })

/-- What a destructor still has to do. -/
inductive Job where
  | decrement (c : CreatureId)
  | removeMaster (s : CreatureId)
  deriving DecidableEq

/-- `~Monster` clears the lists of targets and friends, then `~Creature` lets the summons go. -/
def destructor (x : Creature) : List Job :=
  x.targetList.map .decrement ++ x.friendList.map .decrement ++ x.summons.map .removeMaster

/-- The calls that are left, the innermost first: `decrementReferenceCounter`, which deletes a
creature with the last reference to it, and `removeMaster`. -/
def settle : ℕ → List Job → Game → Option Game
  | _, [], g => some g
  | 0, _ :: _, _ => none
  | fuel + 1, .decrement c :: jobs, g => do
      let x ← g.creatures c
      match x.referenceCounter with
      | 0 => none
      | 1 => settle fuel (destructor x ++ jobs) (g.free c)
      | n + 2 => settle fuel jobs (g.set c { x with referenceCounter := n + 1 })
  | fuel + 1, .removeMaster s :: jobs, g => do
      let x ← g.creatures s
      if x.master.isSome then
        settle fuel (.decrement s :: jobs) (g.set s { x with master := none })
      else settle fuel jobs g

/-- How many calls a creature's destructor makes. -/
def load : Option Creature → ℕ
  | none => 0
  | some x => x.targetList.length + x.friendList.length + 2 * x.summons.length

def Job.weight : Job → ℕ
  | .decrement _ => 1
  | .removeMaster _ => 2

/-- More calls than these are never made. -/
def weight (g : Game) (jobs : List Job) : ℕ :=
  (∑ c ∈ Finset.range g.allocated, load (g.creatures c)) + (jobs.map Job.weight).sum

def perform (jobs : List Job) (g : Game) : Option Game :=
  settle (g.weight jobs) jobs g

def decrementReferenceCounter (c : CreatureId) (g : Game) : Option Game :=
  g.perform [.decrement c]

/-! ### Placed creatures and the lists of the heartbeat -/

/-- `new`. -/
def create (g : Game) : Game :=
  { g.set g.allocated {} with allocated := g.allocated + 1 }

/-- `delete`, of what could not be placed. -/
def discard (c : CreatureId) (g : Game) : Option Game := do
  let x ← g.creatures c
  (g.free c).perform (destructor x)

/-- `Game::internalPlaceCreature`, where the map has found it a tile. -/
def internalPlaceCreature (c : CreatureId) (g : Game) : Option Game := do
  let x ← g.creatures c
  if x.placed then some g
  else incrementReferenceCounter c (g.set c { x with placed := true })

def ReleaseCreature (c : CreatureId) (g : Game) : Game :=
  { g with ToReleaseCreatures := g.ToReleaseCreatures ++ [c] }

/-- `Tile::postAddNotification` keeps the creature for the scripts that run in it. -/
def postAddNotification (c : CreatureId) (g : Game) : Option Game := do
  let g ← incrementReferenceCounter c g
  some (g.ReleaseCreature c)

def addCreatureCheck (c : CreatureId) (bucket : Fin EVENT_CREATURECOUNT) (g : Game) :
    Option Game := do
  let x ← g.creatures c
  let x := { x with creatureCheck := true }
  if x.inCheckCreaturesVector then some (g.set c x)
  else
    let g := g.set c { x with inCheckCreaturesVector := true }
    let g := { g with
      checkCreatureLists := Function.update g.checkCreatureLists bucket
        (g.checkCreatureLists bucket ++ [c]) }
    incrementReferenceCounter c g

def removeCreatureCheck (c : CreatureId) (g : Game) : Option Game := do
  let x ← g.creatures c
  if x.inCheckCreaturesVector then some (g.set c { x with creatureCheck := false }) else some g

/-- `Game::cleanup`, of the creatures. No destructor adds to the vector, so it is emptied first. -/
def cleanup (g : Game) : Option Game :=
  { g with ToReleaseCreatures := [] }.perform (g.ToReleaseCreatures.map .decrement)

/-! ### Masters and summons -/

/-- The new master gets the summon. -/
def joinSummons (c : CreatureId) : Option CreatureId → Game → Option Game
  | none, g => some g
  | some m, g => do
      let g ← incrementReferenceCounter c g
      let y ← g.creatures m
      some (g.set m { y with summons := y.summons ++ [c] })

/-- The old one loses it. -/
def leaveSummons (c : CreatureId) : Option CreatureId → Game → Option Game
  | none, g => some g
  | some m, g => do
      let y ← g.creatures m
      if c ∈ y.summons then
        decrementReferenceCounter c (g.set m { y with summons := y.summons.erase c })
      else some g

/-- `Creature::setMaster`. -/
def setMaster (c : CreatureId) (newMaster : Option CreatureId) (g : Game) : Option Game := do
  let x ← g.creatures c
  if newMaster.isNone && x.master.isNone then some g
  else
    let g ← joinSummons c newMaster g
    let x ← g.creatures c
    leaveSummons c x.master (g.set c { x with master := newMaster })

/-- `Monster::death` and `convinceCreature` let all summons go. Nothing reads the list before it
is cleared, so it is emptied first. -/
def dropSummons (c : CreatureId) (g : Game) : Option Game := do
  let x ← g.creatures c
  let g ← (g.set c { x with summons := [] }).perform (x.summons.map .removeMaster)
  let _ ← g.creatures c
  some g

/-! ### Targets and friends -/

/-- The set takes the entry first in the source. -/
def addFriend (m c : CreatureId) (g : Game) : Option Game := do
  let y ← g.creatures m
  if c ∈ y.friendList then some g
  else
    let g ← incrementReferenceCounter c g
    let y ← g.creatures m
    some (g.set m { y with friendList := c :: y.friendList })

def addTarget (m c : CreatureId) (pushFront : Bool) (g : Game) : Option Game := do
  let y ← g.creatures m
  if c ∈ y.targetList then some g
  else
    let g ← incrementReferenceCounter c g
    let y ← g.creatures m
    some (g.set m { y with
      targetList := if pushFront then c :: y.targetList else y.targetList ++ [c] })

/-- The entry leaves the list before the reference goes, which nothing can see; the monster is
there after both. -/
def removeFriend (m c : CreatureId) (g : Game) : Option Game := do
  let y ← g.creatures m
  if c ∈ y.friendList then
    let g ← decrementReferenceCounter c (g.set m { y with friendList := y.friendList.erase c })
    let _ ← g.creatures m
    some g
  else some g

def removeTarget (m c : CreatureId) (g : Game) : Option Game := do
  let y ← g.creatures m
  if c ∈ y.targetList then
    let g ← decrementReferenceCounter c (g.set m { y with targetList := y.targetList.erase c })
    let _ ← g.creatures m
    some g
  else some g

def clearTargetList (m : CreatureId) (g : Game) : Option Game := do
  let y ← g.creatures m
  let g ← (g.set m { y with targetList := [] }).perform (y.targetList.map .decrement)
  let _ ← g.creatures m
  some g

def clearFriendList (m : CreatureId) (g : Game) : Option Game := do
  let y ← g.creatures m
  let g ← (g.set m { y with friendList := [] }).perform (y.friendList.map .decrement)
  let _ ← g.creatures m
  some g

/-! ### Removal -/

/-- What the monsters around do when a creature leaves the map, itself among them: one drops
another from its friends or its targets. -/
structure Drop where
  monster : CreatureId
  creature : CreatureId
  friend : Bool

/-- A spectator stands on the map. -/
def drop (g : Game) (d : Drop) : Option Game :=
  match g.creatures d.monster with
  | none => some g
  | some y =>
      if y.onMap then
        if d.friend then removeFriend d.monster d.creature g
        else removeTarget d.monster d.creature g
      else some g

/-- `Creature::onRemoveCreature`, for the creature itself. -/
def leaveMaster (c : CreatureId) (g : Game) : Option Game := do
  let x ← g.creatures c
  match x.master with
  | none => some g
  | some m =>
      let y ← g.creatures m
      if y.isInternalRemoved then some g else setMaster c none g

/-- `Game::removeCreature` of one creature, up to its summons. It has to be on a tile. -/
def removeOne (drops : List Drop) (c : CreatureId) (g : Game) : Option Game := do
  let x ← g.creatures c
  let g ← if x.placed then some g else none
  let g ← drops.foldlM drop g
  let g ← leaveMaster c g
  let x ← g.creatures c
  let g := (g.set c { x with isInternalRemoved := true }).ReleaseCreature c
  removeCreatureCheck c g

/-- The loops over summons that are under way, the innermost first, each with the place of its
iterator. -/
def removeSummons (drops : CreatureId → List Drop) :
    ℕ → List (CreatureId × ℕ) → Game → Option Game
  | _, [], g => some g
  | 0, _ :: _, _ => none
  | fuel + 1, (c, k) :: rest, g => do
      let x ← g.creatures c
      match x.summons[k]? with
      | none => removeSummons drops fuel rest g
      | some s =>
          let y ← g.creatures s
          if y.isInternalRemoved then removeSummons drops fuel ((c, k + 1) :: rest) g
          else
            let g ← removeOne (drops s) s g
            removeSummons drops fuel ((s, 0) :: (c, k + 1) :: rest) g

/-- What a creature that is not removed yet can still add to the loops. -/
def upcoming : Option Creature → ℕ
  | none => 0
  | some x => if x.isInternalRemoved then 0 else x.summons.length + 2

/-- What is left of the loop over the summons of a creature. -/
def remaining (g : Game) (frame : CreatureId × ℕ) : ℕ :=
  match g.creatures frame.1 with
  | none => 1
  | some x => x.summons.length - frame.2 + 1

def loops (g : Game) (frames : List (CreatureId × ℕ)) : ℕ :=
  (∑ c ∈ Finset.range g.allocated, upcoming (g.creatures c)) + (frames.map g.remaining).sum

/-- `Game::removeCreature`. -/
def removeCreature (drops : CreatureId → List Drop) (c : CreatureId) (g : Game) :
    Option Game := do
  let x ← g.creatures c
  if x.isInternalRemoved then some g
  else
    let g ← removeOne (drops c) c g
    removeSummons drops (g.loops [(c, 0)]) [(c, 0)] g

/-! ### The heartbeat -/

/-- The list of the next pass or of the pass under way. -/
def index (g : Game) : Fin EVENT_CREATURECOUNT := listOf g.passes

/-- `Game::checkCreatures`, up to its loop. -/
def checkCreatures (g : Game) : Game :=
  { g with iterator := some 0 }

/-- One round of the loop: the creature thinks, attacks and suffers, or dies, or it leaves the
list; after the last round the pass is over. -/
def visit (k : ℕ) (g : Game) : Option Game :=
  match (g.checkCreatureLists g.index)[k]? with
  | none => ({ g with iterator := none, passes := g.passes + 1 } : Game).cleanup
  | some c => do
      let x ← g.creatures c
      if x.creatureCheck then
        some { g with iterator := some (k + 1), thoughts := (c, g.passes) :: g.thoughts }
      else
        let g := g.set c { x with inCheckCreaturesVector := false }
        let g := { g with
          checkCreatureLists := Function.update g.checkCreatureLists g.index
            ((g.checkCreatureLists g.index).eraseIdx k) }
        some (g.ReleaseCreature c)

/-! ### Who refers to a creature -/

/-- The references for its tile and for its master. -/
def own (x : Creature) : ℕ :=
  (if x.onMap then 1 else 0) + (if x.master.isSome then 1 else 0)

/-- The references that it keeps to another creature. -/
def links (d : CreatureId) : Option Creature → ℕ
  | none => 0
  | some x => x.targetList.count d + x.friendList.count d

def linked (g : Game) (d : CreatureId) : ℕ :=
  ∑ m ∈ Finset.range g.allocated, links d (g.creatures m)

def checks (g : Game) (d : CreatureId) : ℕ :=
  ∑ i, (g.checkCreatureLists i).count d

/-- The references from outside the creature. -/
def others (g : Game) (d : CreatureId) : ℕ :=
  g.linked d + g.checks d + g.ToReleaseCreatures.count d + g.holders.count d

/-- All that refers to a creature. -/
def owners (g : Game) (c : CreatureId) : ℕ :=
  (g.creatures c).elim 0 own + g.others c

/-- Some place of the game has the pointer. -/
def Referred (g : Game) (c : CreatureId) : Prop := 0 < g.owners c

instance decidableReferred (g : Game) (c : CreatureId) : Decidable (g.Referred c) :=
  inferInstanceAs (Decidable (0 < g.owners c))

/-- It was allocated and never placed: the pointer is its creator's. -/
def Fresh (g : Game) (c : CreatureId) : Prop :=
  (g.creatures c).any (!·.placed) = true

instance decidableFresh (g : Game) (c : CreatureId) : Decidable (g.Fresh c) :=
  inferInstanceAs (Decidable ((g.creatures c).any (!·.placed) = true))

/-- A pointer that there is. -/
def Known (g : Game) (c : CreatureId) : Prop := g.Fresh c ∨ g.Referred c

instance decidableKnown (g : Game) (c : CreatureId) : Decidable (g.Known c) :=
  inferInstanceAs (Decidable (g.Fresh c ∨ g.Referred c))

/-- What runs in it does not lose it: it stands on the map, or the heartbeat goes over it. -/
def Stays (g : Game) (m : CreatureId) : Prop :=
  (g.creatures m).any Creature.onMap = true ∨ 0 < g.checks m

instance decidableStays (g : Game) (m : CreatureId) : Decidable (g.Stays m) :=
  inferInstanceAs (Decidable ((g.creatures m).any Creature.onMap = true ∨ 0 < g.checks m))

end Game

/-! ### The events -/

inductive Event where
  | create
  | discard (c : CreatureId)
  | internalPlaceCreature (c : CreatureId)
  | postAddNotification (c : CreatureId)
  | addCreatureCheck (c : CreatureId) (bucket : Fin EVENT_CREATURECOUNT)
  | removeCreatureCheck (c : CreatureId)
  | removeCreature (c : CreatureId) (drops : CreatureId → List Game.Drop)
  | setMaster (c : CreatureId) (newMaster : Option CreatureId)
  | dropSummons (c : CreatureId)
  | addFriend (m c : CreatureId)
  | removeFriend (m c : CreatureId)
  | addTarget (m c : CreatureId) (pushFront : Bool)
  | removeTarget (m c : CreatureId)
  | clearTargetList (m : CreatureId)
  | clearFriendList (m : CreatureId)
  /-- A spawn, a protocol or a spectator keeps a creature. -/
  | hold (c : CreatureId)
  | letGo (c : CreatureId)
  | cleanup
  | checkCreatures
  | visit

/-- What happens; no result where a creature is used that is not in memory. -/
def step (g : Game) : Event → Option Game
  | .create => some g.create
  | .discard c => g.discard c
  | .internalPlaceCreature c => g.internalPlaceCreature c
  | .postAddNotification c => g.postAddNotification c
  | .addCreatureCheck c bucket => g.addCreatureCheck c bucket
  | .removeCreatureCheck c => g.removeCreatureCheck c
  | .removeCreature c drops => g.removeCreature drops c
  | .setMaster c newMaster => g.setMaster c newMaster
  | .dropSummons c => g.dropSummons c
  | .addFriend m c => g.addFriend m c
  | .removeFriend m c => g.removeFriend m c
  | .addTarget m c pushFront => g.addTarget m c pushFront
  | .removeTarget m c => g.removeTarget m c
  | .clearTargetList m => g.clearTargetList m
  | .clearFriendList m => g.clearFriendList m
  | .hold c => do
      let g ← g.incrementReferenceCounter c
      some { g with holders := c :: g.holders }
  | .letGo c => ({ g with holders := g.holders.erase c } : Game).decrementReferenceCounter c
  | .cleanup => g.cleanup
  | .checkCreatures => some g.checkCreatures
  | .visit => g.iterator.bind g.visit

/-- What the callers see to: they have the pointers from somewhere, what they run in does not go
away, and the heartbeat's passes do not overlap. Only what was placed is removed or gets a
master. -/
def Possible (g : Game) : Event → Prop
  | .create | .cleanup => True
  | .discard c => g.Fresh c ∧ g.owners c = 0
  | .internalPlaceCreature c | .postAddNotification c | .addCreatureCheck c _
  | .removeCreatureCheck c | .hold c => g.Known c
  | .removeCreature c _ => g.Referred c ∧ ¬g.Fresh c
  | .setMaster c newMaster => g.Referred c ∧ ¬g.Fresh c ∧ ∀ m ∈ newMaster, g.Known m
  | .dropSummons m | .removeFriend m _ | .removeTarget m _ | .clearTargetList m
  | .clearFriendList m => g.Stays m
  | .addFriend m c | .addTarget m c _ => g.Known m ∧ g.Known c
  | .letGo c => c ∈ g.holders
  | .checkCreatures => g.iterator = none
  | .visit => g.iterator.isSome = true

instance decidablePossible (g : Game) : (event : Event) → Decidable (Possible g event)
  | .create | .cleanup => inferInstanceAs (Decidable True)
  | .discard c => inferInstanceAs (Decidable (g.Fresh c ∧ g.owners c = 0))
  | .internalPlaceCreature c | .postAddNotification c | .addCreatureCheck c _
  | .removeCreatureCheck c | .hold c => inferInstanceAs (Decidable (g.Known c))
  | .removeCreature c _ => inferInstanceAs (Decidable (g.Referred c ∧ ¬g.Fresh c))
  | .setMaster c newMaster => inferInstanceAs (Decidable
      (g.Referred c ∧ ¬g.Fresh c ∧ ∀ m ∈ newMaster, g.Known m))
  | .dropSummons m | .removeFriend m _ | .removeTarget m _ | .clearTargetList m
  | .clearFriendList m => inferInstanceAs (Decidable (g.Stays m))
  | .addFriend m c | .addTarget m c _ => inferInstanceAs (Decidable (g.Known m ∧ g.Known c))
  | .letGo c => inferInstanceAs (Decidable (c ∈ g.holders))
  | .checkCreatures => inferInstanceAs (Decidable (g.iterator = none))
  | .visit => inferInstanceAs (Decidable (g.iterator.isSome = true))

/-- No creature yet. -/
def started : Game where
  creatures := fun _ => none
  allocated := 0
  checkCreatureLists := fun _ => []
  ToReleaseCreatures := []
  holders := []
  iterator := none
  passes := 0
  thoughts := []

end TibServer.CreatureReferences
