import Mathlib.Tactic
import TibServer.Runs

/-!
The database tasks (`databasetasks.cpp`): a queue under a lock, a worker thread that takes one task
after the other out of it and runs each outside the lock, and a shutdown that runs the rest in its
own thread with the lock held. A locked section is one step; a task that the worker has taken out
is run in steps of its own.
-/

namespace TibServer.DatabaseTasks

open TibServer.Runs

inductive ThreadState
  | RUNNING | CLOSING | TERMINATED
  deriving DecidableEq

/-- A task; `number` is its place among the accepted ones. -/
structure DatabaseTask where
  number : Nat
  query : String
  callback : Bool
  store : Bool
  deriving DecidableEq

/-- A task begins to run on the database, or comes to an end there. -/
inductive Mark
  | started (task : DatabaseTask)
  | finished (task : DatabaseTask)
  deriving DecidableEq

/-- Where the worker is in `threadMain`. -/
inductive Worker
  /-- before `getState()` -/
  | checking
  /-- before `lock()` -/
  | locking
  /-- in `wait` -/
  | waiting
  /-- out of `wait`, before it has the lock again -/
  | woken
  /-- The task is taken out and not yet on the database. -/
  | popped (task : DatabaseTask)
  | executing (task : DatabaseTask)
  /-- The task is done, and its callback is not yet with the dispatcher. -/
  | executed (task : DatabaseTask)
  | ended
  deriving DecidableEq

/-- The state of the threads, the tasks that have been accepted, what has happened on the database,
the callbacks that have reached the dispatcher, and the notifications that are under way. -/
structure State where
  threadState : ThreadState := .RUNNING
  tasks : List DatabaseTask := []
  worker : Worker := .checking
  signals : Nat := 0
  accepted : List DatabaseTask := []
  marks : List Mark := []
  callbacks : List DatabaseTask := []

/-- The marks of tasks that run one after the other. -/
def serial (tasks : List DatabaseTask) : List Mark :=
  tasks.flatMap fun task => [.started task, .finished task]

/-- The callbacks of tasks that run one after the other. -/
def posted (tasks : List DatabaseTask) : List DatabaseTask := tasks.filter DatabaseTask.callback

namespace State

variable (s : State)

/-- `addTask`, up to the notification. -/
def addTask (query : String) (callback store : Bool) : State :=
  if s.threadState = .RUNNING then
    let task : DatabaseTask := ⟨s.accepted.length, query, callback, store⟩
    { s with
      signals := if s.tasks.isEmpty then s.signals + 1 else s.signals
      tasks := s.tasks ++ [task]
      accepted := s.accepted ++ [task] }
  else s

/-- `runTask`, in one go. -/
def runTask (task : DatabaseTask) : State :=
  { s with
    marks := s.marks ++ [.started task, .finished task]
    callbacks := if task.callback then s.callbacks ++ [task] else s.callbacks }

def flush : State := { s.tasks.foldl runTask s with tasks := [] }

/-- `shutdown`, up to the notification. -/
def shutdown : State :=
  let s := { s with threadState := .TERMINATED }.flush
  { s with signals := s.signals + 1 }

/-- The locked section in which the worker takes a task out, or goes on without one. -/
def pop (idle : Worker) : State :=
  match s.tasks with
  | [] => { s with worker := idle }
  | task :: tasks => { s with tasks := tasks, worker := .popped task }

/-- One step of the worker. -/
def work : Option State :=
  match s.worker with
  | .checking =>
      some { s with worker := if s.threadState = .TERMINATED then .ended else .locking }
  | .locking => some (s.pop .waiting)
  | .waiting => none
  | .woken => some (s.pop .checking)
  | .popped task => some { s with marks := s.marks ++ [.started task], worker := .executing task }
  | .executing task =>
      some { s with marks := s.marks ++ [.finished task], worker := .executed task }
  | .executed task =>
      some { s with
        callbacks := if task.callback then s.callbacks ++ [task] else s.callbacks
        worker := .checking }
  | .ended => none

/-- A notification wakes the worker, if it waits. -/
def notify : Option State :=
  match s.signals with
  | 0 => none
  | signals + 1 =>
      some { s with
        signals := signals
        worker := if s.worker = .waiting then .woken else s.worker }

end State

inductive Event
  | addTask (query : String) (callback store : Bool)
  | stop
  | shutdown
  | work
  | notify
  /-- A wait may end without a notification. -/
  | spurious

def State.perform (s : State) : Event → Option State
  | .addTask query callback store => some (s.addTask query callback store)
  | .stop => some { s with threadState := .CLOSING }
  | .shutdown => some s.shutdown
  | .work => s.work
  | .notify => s.notify
  | .spurious => if s.worker = .waiting then some { s with worker := .woken } else none

end TibServer.DatabaseTasks
