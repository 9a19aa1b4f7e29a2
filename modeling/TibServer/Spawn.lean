import Mathlib.Data.List.Basic
import Mathlib.Data.List.Nodup
import Mathlib.Logic.Function.Basic

/-!
Spawns (`spawn.cpp`): the monsters that belong to a place, and the timers that put them back. What
the rest of the game does is an input: where a player is near, whether a monster can be placed, who
dies, leaves the zone or is convinced.

A monster is known by a number. The multimap is kept as a list of its pairs; what is asked of it
does not depend on their order. Event ids do not wrap.
-/

namespace TibServer.Spawn

/-- What `spawnBlock_t` and the monster type hold, but for the place. -/
structure SpawnBlock where
  isBlockable : Bool
  interval : Nat

/-- The spawn ids are 1, 2 and so on, in the order of `addMonster`. -/
structure Table where
  blocks : List SpawnBlock
  rateSpawn : Nat

namespace Table

variable (table : Table)

def spawnIds : List Nat := List.range' 1 table.blocks.length

def block (spawnId : Nat) : SpawnBlock := table.blocks.getD (spawnId - 1) ⟨true, 0⟩

/-- The least of the intervals, of a minute at most. -/
def interval : Nat := table.blocks.foldl (fun interval sb => min interval sb.interval) 60000

end Table

inductive Task
  | checkSpawn
  | scheduleSpawn (spawnId interval : Nat)
  deriving DecidableEq, Repr

/-- What the scheduler holds for this spawn. -/
structure SchedulerTask where
  eventId : Nat
  cycle : Nat
  task : Task
  deriving DecidableEq, Repr

structure State where
  now : Nat := 0
  lastSpawn : Nat → Nat := fun _ => 0
  spawnedMap : List (Nat × Nat) := []
  checkSpawnEvent : Nat := 0
  pending : List SchedulerTask := []
  lastEventId : Nat := 0
  nextMonster : Nat := 0
  isRemoved : Nat → Bool := fun _ => false
  isInSpawnZone : Nat → Bool := fun _ => true
  /-- Whether the monster still belongs to its spawn. -/
  hasSpawn : Nat → Bool := fun _ => false

/-- By spawn id: whether a player is near, whether the monster can be placed, and whether it is
placed in the zone. -/
structure Answers where
  findPlayer : Nat → Bool := fun _ => false
  placed : Nat → Bool := fun _ => true
  inZone : Nat → Bool := fun _ => true

def NONBLOCKABLE_SPAWN_INTERVAL : Nat := 1400

namespace State

variable (table : Table) (ans : Answers) (s : State)

/-- `g_scheduler.addEvent`. -/
def addEvent (delay : Nat) (task : Task) : State :=
  { s with
    lastEventId := s.lastEventId + 1
    pending := s.pending ++ [⟨s.lastEventId + 1, s.now + delay, task⟩] }

/-- `Spawn::startSpawnCheck`. -/
def startSpawnCheck : State :=
  if s.checkSpawnEvent = 0 then
    { s.addEvent table.interval .checkSpawn with checkSpawnEvent := s.lastEventId + 1 }
  else s

/-- `Spawn::spawnMonster`. -/
def spawnMonster (spawnId : Nat) : State :=
  if ans.placed spawnId then
    { s with
      spawnedMap := s.spawnedMap ++ [(spawnId, s.nextMonster)]
      lastSpawn := Function.update s.lastSpawn spawnId s.now
      nextMonster := s.nextMonster + 1
      isRemoved := Function.update s.isRemoved s.nextMonster false
      isInSpawnZone := Function.update s.isInSpawnZone s.nextMonster (ans.inZone spawnId)
      hasSpawn := Function.update s.hasSpawn s.nextMonster true }
  else s

/-- `Spawn::scheduleSpawn`. -/
def scheduleSpawn (spawnId interval : Nat) : State :=
  if interval = 0 then s.spawnMonster ans spawnId
  else s.addEvent 1400 (.scheduleSpawn spawnId (interval - NONBLOCKABLE_SPAWN_INTERVAL))

/-- `Spawn::startup`. -/
def startup : State := table.spawnIds.foldl (fun s spawnId => s.spawnMonster ans spawnId) s

/-- The pair that `Spawn::cleanup` leaves of one, if any. -/
def cleaned (entry : Nat × Nat) : Option (Nat × Nat) :=
  if s.isRemoved entry.2 then none
  else if !s.isInSpawnZone entry.2 && entry.1 != 0 then some (0, entry.2)
  else some entry

/-- `Spawn::cleanup`. -/
def cleanup : State :=
  { s with
    spawnedMap := s.spawnedMap.filterMap s.cleaned
    lastSpawn := fun spawnId =>
      if s.spawnedMap.any fun entry =>
          entry.1 == spawnId && spawnId != 0 && s.isRemoved entry.2 then s.now
      else s.lastSpawn spawnId }

/-- `spawnedMap.find(spawnId) != spawnedMap.end()` -/
def isSpawned (spawnId : Nat) : Bool := s.spawnedMap.any fun entry => entry.1 == spawnId

/-- The loop of `Spawn::checkSpawn`. -/
def checkLoop : List Nat → Nat → State → State
  | [], _, s => s
  | spawnId :: spawnIds, spawnCount, s =>
      let sb := table.block spawnId
      if s.isSpawned spawnId then checkLoop spawnIds spawnCount s
      else if s.lastSpawn spawnId + sb.interval ≤ s.now then
        if sb.isBlockable && ans.findPlayer spawnId then
          checkLoop spawnIds spawnCount
            { s with lastSpawn := Function.update s.lastSpawn spawnId s.now }
        else
          let s :=
            if sb.isBlockable then s.spawnMonster ans spawnId
            else s.scheduleSpawn ans spawnId (3 * NONBLOCKABLE_SPAWN_INTERVAL)
          if table.rateSpawn ≤ spawnCount + 1 then s
          else checkLoop spawnIds (spawnCount + 1) s
      else checkLoop spawnIds spawnCount s

/-- `Spawn::checkSpawn`. -/
def checkSpawn : State :=
  let s := checkLoop table ans table.spawnIds 0 ({ s with checkSpawnEvent := 0 } : State).cleanup
  if s.spawnedMap.length < table.blocks.length then
    { s.addEvent table.interval .checkSpawn with checkSpawnEvent := s.lastEventId + 1 }
  else s

/-- A task of the scheduler is run. -/
def fire (e : SchedulerTask) : State :=
  let s := { s with pending := s.pending.erase e }
  match e.task with
  | .checkSpawn => s.checkSpawn table ans
  | .scheduleSpawn spawnId interval => s.scheduleSpawn ans spawnId interval

/-- `Monster::onRemoveCreature` of the monster itself, where no script takes it over. -/
def die (m : Nat) : State :=
  let s := { s with isRemoved := Function.update s.isRemoved m true }
  if s.hasSpawn m then s.startSpawnCheck table else s

/-- `Spawn::removeMonster`, when the monster is convinced. -/
def removeMonster (m : Nat) : State :=
  if s.hasSpawn m then
    { s with
      spawnedMap := s.spawnedMap.eraseP fun entry => entry.2 == m
      hasSpawn := Function.update s.hasSpawn m false }
  else s

end State

/-! ### Runs -/

inductive Event
  | wait (time : Nat)
  | fire (e : SchedulerTask) (ans : Answers)
  | die (m : Nat)
  | move (m : Nat) (inZone : Bool)
  | convince (m : Nat)

def perform (table : Table) (s : State) : Event → State
  | .wait time => { s with now := s.now + time }
  | .fire e ans => s.fire table ans e
  | .die m => s.die table m
  | .move m inZone => { s with isInSpawnZone := Function.update s.isInSpawnZone m inZone }
  | .convince m => s.removeMonster m

/-- A task is run once its cycle has passed, and nobody dies twice. -/
def Possible (s : State) : Event → Prop
  | .fire e _ => e ∈ s.pending ∧ e.cycle ≤ s.now
  | .die m => s.isRemoved m = false
  | _ => True

inductive Run (table : Table) (allowed : State → Event → Prop) : State → Prop
  | startup (ans : Answers) (now : Nat) :
      Run table allowed (({ now := now } : State).startup table ans)
  | step {s : State} (event : Event) (run : Run table allowed s) (possible : Possible s event)
      (meets : allowed s event) : Run table allowed (perform table s event)

end TibServer.Spawn
