import Mathlib.Tactic
import TibServer.Runs

/-!
The raids (`raids.cpp`): a list of raids, of which a timer starts one from time to time, and the
events of the raid that runs, each of which schedules the next one. A task first waits in the
scheduler, where it can be stopped, and then in the queue of the dispatcher, where it cannot.
-/

namespace TibServer.Raids

structure RaidEvent where
  delay : BitVec 32

inductive RaidState
  | IDLE | EXECUTING
  deriving DecidableEq

structure Raid where
  raidEvents : List RaidEvent
  interval : Nat
  margin : BitVec 64
  canBeRepeated : Bool
  nextEvent : Nat := 0
  state : RaidState := .IDLE
  nextEventEvent : Nat := 0

/-- A raid of the file, whose events are sorted by their delay. -/
structure RaidNode where
  raidEvents : List RaidEvent
  interval : Nat
  margin : BitVec 64
  canBeRepeated : Bool

/-- What the scheduler and the dispatcher call. -/
inductive Task
  | checkRaids
  | executeRaidEvent (raid : Nat) (raidEvent : RaidEvent)

/-- The raid of the task. -/
def Task.raid? : Task → Option Nat
  | .checkRaids => none
  | .executeRaidEvent raid _ => some raid

@[simp] theorem Task.raid?_checkRaids : Task.checkRaids.raid? = none := rfl

@[simp] theorem Task.raid?_executeRaidEvent (raid : Nat) (raidEvent : RaidEvent) :
    (Task.executeRaidEvent raid raidEvent).raid? = some raid := rfl

structure SchedulerTask where
  eventId : Nat
  delay : BitVec 32
  task : Task

/-- A raid is named by its place in memory, and `none` there is a raid that is deleted. -/
structure State where
  memory : Nat → Option Raid := fun _ => none
  allocated : Nat := 0
  raidList : List Nat := []
  running : Option Nat := none
  lastRaidEnd : BitVec 64 := 0
  checkRaidsEvent : Nat := 0
  loaded : Bool := false
  started : Bool := false
  lastEventId : Nat := 0
  scheduled : List SchedulerTask := []
  dispatched : List Task := []

def CHECK_RAIDS_INTERVAL : Nat := 60

def RAID_MINTICKS : Int := 1000

def MAX_RAND_RANGE : Nat := 10000000

namespace State

variable (s : State)

/-- The id of the event is the new `lastEventId`. -/
def addEvent (delay : BitVec 32) (task : Task) : State :=
  { s with
    lastEventId := s.lastEventId + 1
    scheduled := s.scheduled ++ [⟨s.lastEventId + 1, delay, task⟩] }

def stopEvent (eventId : Nat) : State :=
  { s with scheduled := s.scheduled.filter fun entry => entry.eventId ≠ eventId }

def setRaid (r : Nat) (raid : Option Raid) : State :=
  { s with memory := Function.update s.memory r raid }

/-! ### A raid -/

/-- An event of the raid is scheduled. -/
def addRaidEvent (r : Nat) (raid : Raid) (delay : BitVec 32) (raidEvent : RaidEvent) : State :=
  (s.addEvent delay (.executeRaidEvent r raidEvent)).setRaid r
    (some { raid with nextEventEvent := s.lastEventId + 1 })

def startRaid (r : Nat) (raid : Raid) : State :=
  match raid.raidEvents[raid.nextEvent]? with
  | some raidEvent =>
      s.addRaidEvent r { raid with state := .EXECUTING } raidEvent.delay raidEvent
  | none => s

def resetRaid (r : Nat) (raid : Raid) (now : BitVec 64) : State :=
  { s.setRaid r (some { raid with nextEvent := 0, state := .IDLE }) with
    running := none
    lastRaidEnd := now }

/-- `done` is what `executeEvent` returns. -/
def executeRaidEvent (r : Nat) (raid : Raid) (raidEvent : RaidEvent) (done : Bool)
    (now : BitVec 64) : State :=
  if done then
    let raid := { raid with nextEvent := raid.nextEvent + 1 }
    match raid.raidEvents[raid.nextEvent]? with
    | some newRaidEvent =>
        let ticks := max RAID_MINTICKS (newRaidEvent.delay - raidEvent.delay).toInt
        s.addRaidEvent r raid (BitVec.ofInt 32 ticks) newRaidEvent
    | none => s.resetRaid r raid now
  else s.resetRaid r raid now

/-! ### All raids -/

/-- The raid may start now; `draw` is the random number drawn for it. -/
def due (now : BitVec 64) (draw : Nat → Nat) (r : Nat) : Bool :=
  match s.memory r with
  | some raid => decide (s.lastRaidEnd + raid.margin ≤ now) &&
      decide (MAX_RAND_RANGE * CHECK_RAIDS_INTERVAL / raid.interval ≥ draw r)
  | none => false

/-- A raid that is due starts; one that cannot be repeated leaves the list. -/
def beginRaid (now : BitVec 64) (draw : Nat → Nat) : State :=
  match s.raidList.find? (s.due now draw) with
  | some r =>
      match s.memory r with
      | some raid =>
          let t := { s with running := some r }.startRaid r raid
          if raid.canBeRepeated then t else { t with raidList := t.raidList.erase r }
      | none => s
  | none => s

/-- The timer is set again. -/
def scheduleCheck : State :=
  { s.addEvent (BitVec.ofNat 32 (CHECK_RAIDS_INTERVAL * 1000)) .checkRaids with
    checkRaidsEvent := s.lastEventId + 1 }

def checkRaids (now : BitVec 64) (draw : Nat → Nat) : State :=
  (if s.running = none then s.beginRaid now draw else s).scheduleCheck

def stopEvents (raid : Raid) : State :=
  if raid.nextEventEvent ≠ 0 then s.stopEvent raid.nextEventEvent else s

/-- One turn of the loop of `clear`. -/
def deleteRaid (r : Nat) : State :=
  match s.memory r with
  | some raid => (s.stopEvents raid).setRaid r none
  | none => s

def clear : State :=
  { s.raidList.foldl deleteRaid (s.stopEvent s.checkRaidsEvent) with
    checkRaidsEvent := 0
    raidList := []
    loaded := false
    started := false
    running := none
    lastRaidEnd := 0 }

/-- One turn of the loop of `loadFromXml`. -/
def newRaid (node : RaidNode) : State :=
  if node.interval = 0 then s
  else
    let raid : Raid :=
      { raidEvents := node.raidEvents
        interval := node.interval
        margin := node.margin
        canBeRepeated := node.canBeRepeated }
    { s.setRaid s.allocated (some raid) with
      allocated := s.allocated + 1
      raidList := s.raidList ++ [s.allocated] }

def loadFromXml (raids : List RaidNode) : State :=
  if s.loaded then s else { raids.foldl newRaid s with loaded := true }

def startup (now : BitVec 64) : State :=
  if !s.loaded || s.started then s
  else { { s with lastRaidEnd := now }.scheduleCheck with started := true }

/-! ### The threads -/

/-- An event of the scheduler is due, and its task goes to the dispatcher. -/
def fire (i : Nat) : Option State :=
  match s.scheduled[i]? with
  | some entry =>
      some { s with
        scheduled := s.scheduled.eraseIdx i
        dispatched := s.dispatched ++ [entry.task] }
  | none => none

/-- The dispatcher runs its next task. No run goes through a deleted raid. -/
def dispatch (now : BitVec 64) (draw : Nat → Nat) (done : Bool) : Option State :=
  match s.dispatched with
  | .checkRaids :: rest => some ({ s with dispatched := rest }.checkRaids now draw)
  | .executeRaidEvent r raidEvent :: rest =>
      match s.memory r with
      | some raid =>
          some ({ s with dispatched := rest }.executeRaidEvent r raid raidEvent done now)
      | none => none
  | [] => none

end State

/-- `reload` is `clear` and `loadFromXml`. -/
inductive Event
  | clear
  | loadFromXml (raids : List RaidNode)
  | startup (now : BitVec 64)
  | fire (i : Nat)
  | dispatch (now : BitVec 64) (draw : Nat → Nat) (done : Bool)

def State.perform (s : State) : Event → Option State
  | .clear => some s.clear
  | .loadFromXml raids => some (s.loadFromXml raids)
  | .startup now => some (s.startup now)
  | .fire i => s.fire i
  | .dispatch now draw done => s.dispatch now draw done

end TibServer.Raids
