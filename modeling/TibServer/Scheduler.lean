import Mathlib.Tactic

/-!
The scheduler (`scheduler.cpp`): a queue of tasks with the time at which each of them is due, a set
of the ids of those that are not stopped, and a thread that hands the tasks to the dispatcher. A
section under the lock is one step. The thread may be woken without reason, and takes any of the
tasks that are due first.

What a step is remembered for is kept beside: which tasks were added, stopped, handed over and thrown
away. The clock does not go back.
-/

namespace TibServer.Scheduler

structure SchedulerTask where
  /-- How many tasks were added before. -/
  number : Nat
  eventId : Nat
  cycle : Nat
  deriving DecidableEq, Repr

inductive ThreadState
  | running
  | closing
  | terminated
  deriving DecidableEq, Repr

/-- Where `Scheduler::threadMain` is. -/
inductive Timer
  /-- Before it looks at the state of the thread. -/
  | loop
  /-- Before it locks the queue. -/
  | locking
  /-- In `wait` or in `wait_until`, perhaps with a signal on its way. -/
  | waiting (deadline : Option Nat) (signalled : Bool)
  /-- Before `g_dispatcher.addTask`. -/
  | handing (task : SchedulerTask)
  /-- After the top of an empty queue. -/
  | broken
  | done
  deriving DecidableEq, Repr

/-- `eventSignal.notify_one` -/
def Timer.signal : Timer → Timer
  | .waiting deadline _ => .waiting deadline true
  | timer => timer

structure State where
  clock : Nat := 0
  threadState : ThreadState := .running
  lastEventId : Nat := 0
  eventList : List SchedulerTask := []
  eventIds : List Nat := []
  timer : Timer := .loop
  added : List SchedulerTask := []
  stopped : List SchedulerTask := []
  handed : List (SchedulerTask × Nat) := []
  discarded : List SchedulerTask := []
  isShutDown : Bool := false

/-- `++lastEventId`, which is never zero. -/
def nextEventId (lastEventId : Nat) : Nat :=
  if (lastEventId + 1) % 2 ^ 32 = 0 then 1 else (lastEventId + 1) % 2 ^ 32

namespace State

variable (s : State)

/-- The task of the next `addEvent`. -/
def nextTask (cycle : Nat) : SchedulerTask :=
  ⟨s.added.length, nextEventId s.lastEventId, cycle⟩

/-- `Scheduler::addEvent`. -/
def addEvent (cycle : Nat) : Nat × State :=
  if s.threadState = .running then
    let task := s.nextTask cycle
    (task.eventId,
      { s with
        lastEventId := task.eventId
        eventIds := s.eventIds.insert task.eventId
        eventList := task :: s.eventList
        added := task :: s.added
        timer := if ∀ other ∈ s.eventList, cycle < other.cycle then s.timer.signal else s.timer })
  else (0, s)

/-- `Scheduler::stopEvent`. -/
def stopEvent (eventid : Nat) : Bool × State :=
  if eventid = 0 then (false, s)
  else if eventid ∈ s.eventIds then
    (true,
      { s with
        eventIds := s.eventIds.erase eventid
        stopped := (s.eventList.filter fun task => task.eventId = eventid) ++ s.stopped })
  else (false, s)

/-- What `Scheduler::shutdown` does under the lock. -/
def clear : State :=
  { s with
    eventList := []
    eventIds := []
    timer := s.timer.signal
    discarded := s.eventList ++ s.discarded
    isShutDown := true }

/-- `eventList.top()` -/
def IsTop (task : SchedulerTask) : Prop :=
  task ∈ s.eventList ∧ ∀ other ∈ s.eventList, task.cycle ≤ other.cycle

/-- `eventList.top()->getCycle()`, if there is one. -/
def topCycle : Option Nat := (s.eventList.map SchedulerTask.cycle).min?

/-- The thread has waited until the deadline. -/
def timeout (task : SchedulerTask) : State :=
  if s.eventList = [] then { s with timer := .broken }
  else if task.eventId ∈ s.eventIds then
    { s with
      eventList := s.eventList.erase task
      eventIds := s.eventIds.erase task.eventId
      timer := .handing task }
  else { s with eventList := s.eventList.erase task, timer := .loop }

end State

inductive Event
  | tick (time : Nat)
  | addEvent (cycle : Nat)
  | stopEvent (eventid : Nat)
  /-- `stop`, of the thread. -/
  | stop
  /-- `setState(THREAD_STATE_TERMINATED)` -/
  | terminate
  | clear
  | check
  | enter
  | timeout (task : SchedulerTask)
  | wake
  | hand
  deriving DecidableEq

def perform (s : State) : Event → State
  | .tick time => { s with clock := s.clock + time }
  | .addEvent cycle => (s.addEvent cycle).2
  | .stopEvent eventid => (s.stopEvent eventid).2
  | .stop => { s with threadState := .closing }
  | .terminate => { s with threadState := .terminated }
  | .clear => s.clear
  | .check => { s with timer := if s.threadState = .terminated then .done else .locking }
  | .enter => { s with timer := .waiting s.topCycle false }
  | .timeout task => s.timeout task
  | .wake => { s with timer := .loop }
  | .hand =>
      match s.timer with
      | .handing task => { s with timer := .loop, handed := (task, s.clock) :: s.handed }
      | _ => s

/-- The queue is emptied by a shutdown that has set the state. -/
def Possible (s : State) : Event → Prop
  | .clear => s.threadState ≠ .running
  | .check => s.timer = .loop
  | .enter => s.timer = .locking
  | .timeout task =>
      (∃ deadline ≤ s.clock, ∃ signalled, s.timer = .waiting (some deadline) signalled) ∧
        (s.eventList = [] ∨ s.IsTop task)
  | .wake => ∃ deadline signalled, s.timer = .waiting deadline signalled
  | .hand => ∃ task, s.timer = .handing task
  | _ => True

/-- No task in the queue has the next id. -/
def Fresh (s : State) : Event → Prop
  | .addEvent _ => ∀ task ∈ s.eventList, task.eventId ≠ nextEventId s.lastEventId
  | _ => True

inductive Run : State → Prop
  | start (clock : Nat) : Run { clock := clock }
  | step {s : State} (event : Event) (run : Run s) (possible : Possible s event)
      (fresh : Fresh s event) : Run (perform s event)

/-- Steps of the thread that do not happen without reason. -/
def Due (s : State) : Event → Prop
  | .check | .enter | .timeout _ | .hand => True
  | .wake => ∃ deadline, s.timer = .waiting deadline true
  | _ => False

/-- What the thread can do when it is left alone. -/
inductive Alone : State → State → Prop
  | refl (s : State) : Alone s s
  | step {s s' : State} (event : Event) (possible : Possible s event) (due : Due s event)
      (rest : Alone (perform s event) s') : Alone s s'

end TibServer.Scheduler
