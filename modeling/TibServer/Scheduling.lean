import Mathlib.Tactic
import TibServer.Scheduler

/-!
What the scheduler does with a task. Until a shutdown empties the queue, a task that was added is
waiting in the queue, or stopped, or handed over once and not before its time. The thread waits for
the task that is due first or has been signalled, so that it gets to every task in the end.
-/

namespace TibServer.Scheduler

variable {s s' : State}

/-- The task that is being handed over. -/
def Timer.taken : Timer → List SchedulerTask
  | .handing task => [task]
  | _ => []

@[simp] theorem signal_taken (timer : Timer) : timer.signal.taken = timer.taken := by
  cases timer <;> rfl

namespace State

variable (s : State)

/-- The tasks that the thread has taken out of the queue to hand them over. -/
def taken : List SchedulerTask := s.handed.map Prod.fst ++ s.timer.taken

/-- Where the tasks are that were not stopped and found out. -/
def places : List SchedulerTask := s.taken ++ s.eventList ++ s.discarded

end State

/-- What holds of the tasks at any time. -/
structure Inv (s : State) : Prop where
  number_lt : ∀ task ∈ s.added, task.number < s.added.length
  eventId_ne_zero : ∀ task ∈ s.added, task.eventId ≠ 0
  places_nodup : s.places.Nodup
  places_added : ∀ task ∈ s.places, task ∈ s.added
  stopped_added : ∀ task ∈ s.stopped, task ∈ s.added
  kept : ∀ task ∈ s.added, task ∉ s.stopped → task ∈ s.places
  unstopped : ∀ task ∈ s.taken, task ∉ s.stopped
  ids_nodup : s.eventIds.Nodup
  mem_ids : ∀ id, id ∈ s.eventIds ↔ ∃ task ∈ s.eventList, task.eventId = id ∧ task ∉ s.stopped
  queue_ids : (s.eventList.map SchedulerTask.eventId).Nodup
  handed_cycle : ∀ entry ∈ s.handed, entry.1.cycle ≤ entry.2
  taken_cycle : ∀ task ∈ s.timer.taken, task.cycle ≤ s.clock
  deadline : ∀ deadline signalled, s.timer = .waiting (some deadline) signalled →
    (∃ task ∈ s.eventList, task.cycle ≤ deadline) ∨ s.eventList = []
  nonempty : s.isShutDown = false →
    ∀ deadline signalled, s.timer = .waiting (some deadline) signalled → s.eventList ≠ []
  unsignalled : ∀ deadline, s.timer = .waiting deadline false → deadline = s.topCycle
  untouched : s.isShutDown = false → s.discarded = [] ∧ s.timer ≠ .broken
  shutDown : s.isShutDown = true → s.threadState ≠ .running ∧ s.eventList = []

theorem inv_start (clock : Nat) : Inv { clock := clock } := by
  constructor <;> simp [State.places, State.taken, Timer.taken]

theorem nextEventId_ne_zero (lastEventId : Nat) : nextEventId lastEventId ≠ 0 := by
  unfold nextEventId
  split_ifs <;> omega

/-- A task that is added is a new one. -/
theorem nextTask_not_mem (h : Inv s) (cycle : Nat) : s.nextTask cycle ∉ s.added :=
  fun hmem => lt_irrefl _ (h.number_lt _ hmem)

theorem topCycle_eq_some {deadline : Nat} : s.topCycle = some deadline ↔
    (∃ task ∈ s.eventList, task.cycle = deadline) ∧
      ∀ task ∈ s.eventList, deadline ≤ task.cycle := by
  unfold State.topCycle
  rw [List.min?_eq_some_iff]
  simp

theorem topCycle_eq_none : s.topCycle = none ↔ s.eventList = [] := by
  unfold State.topCycle
  rw [List.min?_eq_none_iff, List.map_eq_nil_iff]

theorem waiting_of_signal {timer : Timer} {deadline : Option Nat} {signalled : Bool}
    (h : timer.signal = .waiting deadline signalled) :
    (∃ before, timer = .waiting deadline before) ∧ signalled = true := by
  cases timer with
  | waiting deadline' before =>
      cases h
      exact ⟨⟨before, rfl⟩, rfl⟩
  | _ => cases h

theorem signal_ne_broken {timer : Timer} (h : timer ≠ .broken) : timer.signal ≠ .broken := by
  cases timer with
  | broken => exact absurd rfl h
  | _ => exact fun heq => by cases heq

/-- A task that is not due before all others changes nothing of what the thread waits for. -/
theorem topCycle_cons (s : State) (task : SchedulerTask) {other : SchedulerTask}
    {list : List SchedulerTask} (hmem : other ∈ list) (hle : other.cycle ≤ task.cycle) :
    ({ s with eventList := task :: list } : State).topCycle =
      ({ s with eventList := list } : State).topCycle := by
  obtain ⟨deadline, htop⟩ : ∃ deadline, ({ s with eventList := list } : State).topCycle =
      some deadline := by
    rw [← Option.ne_none_iff_exists']
    exact fun hnone => List.ne_nil_of_mem hmem (topCycle_eq_none.1 hnone)
  rw [htop]
  obtain ⟨⟨first, hfirst, hcycle⟩, hleast⟩ := topCycle_eq_some.1 htop
  refine topCycle_eq_some.2 ⟨⟨first, List.mem_cons_of_mem _ hfirst, hcycle⟩, fun t ht => ?_⟩
  rcases List.mem_cons.1 ht with rfl | hold
  · exact (hleast other hmem).trans hle
  · exact hleast t hold

theorem Inv.addEvent (h : Inv s) {cycle : Nat} (fresh : Fresh s (.addEvent cycle)) :
    Inv (s.addEvent cycle).2 := by
  unfold State.addEvent
  by_cases hrunning : s.threadState = .running
  · rw [if_pos hrunning]
    have hopen : s.isShutDown = false := by
      rw [← Bool.not_eq_true]
      exact fun hdown => (h.shutDown hdown).1 hrunning
    have hnew := nextTask_not_mem h cycle
    have hplace : s.nextTask cycle ∉ s.places := fun hmem => hnew (h.places_added _ hmem)
    have hstopped : s.nextTask cycle ∉ s.stopped := fun hmem => hnew (h.stopped_added _ hmem)
    have hid : (s.nextTask cycle).eventId ∉ s.eventIds := by
      intro hmem
      obtain ⟨task, htask, heq, -⟩ := (h.mem_ids _).1 hmem
      exact fresh task htask heq
    have htimer {deadline : Option Nat} {signalled : Bool}
        (heq : (if ∀ other ∈ s.eventList, cycle < other.cycle then s.timer.signal else s.timer) =
          .waiting deadline signalled) : ∃ before, s.timer = .waiting deadline before := by
      split_ifs at heq
      · exact (waiting_of_signal heq).1
      · exact ⟨signalled, heq⟩
    have htaken : (if ∀ other ∈ s.eventList, cycle < other.cycle then s.timer.signal
        else s.timer).taken = s.timer.taken := by
      split_ifs
      · exact signal_taken _
      · rfl
    dsimp only
    have hperm : (s.handed.map Prod.fst ++ (if ∀ other ∈ s.eventList, cycle < other.cycle then
          s.timer.signal else s.timer).taken ++ s.nextTask cycle :: s.eventList ++
          s.discarded).Perm (s.nextTask cycle :: s.places) := by
      rw [htaken]
      exact List.perm_middle.append_right s.discarded
    constructor
    case number_lt =>
      intro task hmem
      rcases List.mem_cons.1 hmem with rfl | hold
      · exact Nat.lt_succ_self _
      · exact (h.number_lt task hold).trans (Nat.lt_succ_self _)
    case eventId_ne_zero =>
      intro task hmem
      rcases List.mem_cons.1 hmem with rfl | hold
      · exact nextEventId_ne_zero _
      · exact h.eventId_ne_zero task hold
    case places_nodup => exact hperm.nodup_iff.2 (List.nodup_cons.2 ⟨hplace, h.places_nodup⟩)
    case places_added =>
      intro task hmem
      rcases List.mem_cons.1 (hperm.mem_iff.1 hmem) with rfl | hold
      · exact List.mem_cons_self
      · exact List.mem_cons_of_mem _ (h.places_added task hold)
    case stopped_added => exact fun task hmem => List.mem_cons_of_mem _ (h.stopped_added task hmem)
    case kept =>
      intro task hmem hnot
      refine hperm.mem_iff.2 ?_
      rcases List.mem_cons.1 hmem with rfl | hold
      · exact List.mem_cons_self
      · exact List.mem_cons_of_mem _ (h.kept task hold hnot)
    case unstopped =>
      intro task hmem
      refine h.unstopped task ?_
      unfold State.taken at hmem ⊢
      rwa [htaken] at hmem
    case ids_nodup =>
      rw [List.insert_of_not_mem hid]
      exact List.nodup_cons.2 ⟨hid, h.ids_nodup⟩
    case mem_ids =>
      intro id
      rw [List.mem_insert_iff, h.mem_ids, List.exists_mem_cons_iff]
      refine or_congr ⟨fun heq => ⟨heq.symm, hstopped⟩, fun hand => hand.1.symm⟩ Iff.rfl
    case queue_ids =>
      rw [List.map_cons, List.nodup_cons]
      refine ⟨fun hmem => ?_, h.queue_ids⟩
      obtain ⟨task, htask, heq⟩ := List.mem_map.1 hmem
      exact fresh task htask heq
    case handed_cycle => exact h.handed_cycle
    case taken_cycle =>
      rw [htaken]
      exact h.taken_cycle
    case deadline =>
      intro deadline signalled heq
      obtain ⟨before, hbefore⟩ := htimer heq
      rcases h.deadline deadline before hbefore with ⟨task, htask, hle⟩ | hnil
      · exact Or.inl ⟨task, List.mem_cons_of_mem _ htask, hle⟩
      · exact absurd hnil (h.nonempty hopen deadline before hbefore)
    case nonempty => exact fun _ _ _ _ => List.cons_ne_nil _ _
    case unsignalled =>
      intro deadline heq
      split_ifs at heq with hfirst
      · exact absurd (waiting_of_signal heq).2 Bool.false_ne_true
      · -- the thread need not be woken
        push Not at hfirst
        obtain ⟨other, hother, hle⟩ := hfirst
        exact (h.unsignalled deadline heq).trans
          (topCycle_cons s (s.nextTask cycle) hother hle).symm
    case untouched =>
      intro _
      refine ⟨(h.untouched hopen).1, ?_⟩
      split_ifs
      · exact signal_ne_broken (h.untouched hopen).2
      · exact (h.untouched hopen).2
    case shutDown => exact fun hdown => absurd hopen (by rw [hdown]; decide)
  · rw [if_neg hrunning]
    exact h

theorem Inv.stopEvent (h : Inv s) (eventid : Nat) : Inv (s.stopEvent eventid).2 := by
  unfold State.stopEvent
  split_ifs with hzero hmem
  · exact h
  · have hstopped {task : SchedulerTask}
        (hnot : task ∉ (s.eventList.filter fun task => task.eventId = eventid) ++ s.stopped) :
        task ∉ s.stopped :=
      fun hold => hnot (List.mem_append_right _ hold)
    constructor
    case stopped_added =>
      intro task htask
      rcases List.mem_append.1 htask with hqueue | hold
      · refine h.places_added task ?_
        exact List.mem_append_left _ (List.mem_append_right _ (List.mem_filter.1 hqueue).1)
      · exact h.stopped_added task hold
    case kept => exact fun task htask hnot => h.kept task htask (hstopped hnot)
    case unstopped =>
      intro task htask hin
      rcases List.mem_append.1 hin with hqueue | hold
      · have hapart := (List.nodup_append.1 (List.nodup_append.1 h.places_nodup).1).2.2
        exact hapart task htask task (List.mem_filter.1 hqueue).1 rfl
      · exact h.unstopped task htask hold
    case ids_nodup => exact h.ids_nodup.erase _
    case mem_ids =>
      intro id
      rw [h.ids_nodup.mem_erase_iff, h.mem_ids]
      constructor
      · rintro ⟨hne, task, htask, heq, hnot⟩
        refine ⟨task, htask, heq, fun hin => ?_⟩
        rcases List.mem_append.1 hin with hqueue | hold
        · exact hne (heq.symm.trans (by simpa using (List.mem_filter.1 hqueue).2))
        · exact hnot hold
      · rintro ⟨task, htask, heq, hnot⟩
        refine ⟨fun hsame => hnot (List.mem_append_left _ (List.mem_filter.2 ⟨htask, ?_⟩)),
          task, htask, heq, hstopped hnot⟩
        rw [decide_eq_true_eq]
        exact heq.trans hsame
    all_goals first
      | exact h.number_lt | exact h.eventId_ne_zero | exact h.places_nodup | exact h.places_added
      | exact h.queue_ids | exact h.handed_cycle | exact h.taken_cycle | exact h.deadline
      | exact h.nonempty | exact h.unsignalled | exact h.untouched | exact h.shutDown
  · exact h

theorem Inv.clear (h : Inv s) (possible : Possible s .clear) : Inv s.clear := by
  have hplaces : s.clear.places = s.places := by
    unfold State.places State.taken State.clear
    rw [signal_taken, List.append_nil, List.append_assoc _ s.eventList]
  have htaken : s.clear.taken = s.taken := by
    unfold State.taken State.clear
    rw [signal_taken]
  constructor
  case number_lt => exact h.number_lt
  case eventId_ne_zero => exact h.eventId_ne_zero
  case places_nodup => exact hplaces ▸ h.places_nodup
  case places_added => exact hplaces ▸ h.places_added
  case stopped_added => exact h.stopped_added
  case kept => exact hplaces ▸ h.kept
  case unstopped => exact htaken ▸ h.unstopped
  case ids_nodup => exact List.nodup_nil
  case mem_ids =>
    exact fun id => iff_of_false List.not_mem_nil fun ⟨_, hmem, _⟩ => List.not_mem_nil hmem
  case queue_ids => exact List.nodup_nil
  case handed_cycle => exact h.handed_cycle
  case taken_cycle => exact fun task hmem => h.taken_cycle task (signal_taken s.timer ▸ hmem)
  case deadline => exact fun _ _ _ => Or.inr rfl
  case nonempty => exact fun hopen => absurd hopen.symm Bool.false_ne_true
  case unsignalled => exact fun _ heq => absurd (waiting_of_signal heq).2 Bool.false_ne_true
  case untouched => exact fun hopen => absurd hopen.symm Bool.false_ne_true
  case shutDown => exact fun _ => ⟨possible, rfl⟩

/-- The thread moves without a task. -/
theorem Inv.setTimer (h : Inv s) {timer : Timer} (hbefore : s.timer.taken = [])
    (hafter : timer.taken = []) (hbroken : timer = .broken → s.isShutDown = true)
    (hwaiting : ∀ deadline signalled, timer = .waiting deadline signalled →
      deadline = s.topCycle) : Inv { s with timer := timer } := by
  have htaken : ({ s with timer := timer } : State).taken = s.taken := by
    unfold State.taken
    rw [hbefore, hafter]
  have hplaces : ({ s with timer := timer } : State).places = s.places := by
    unfold State.places
    rw [htaken]
  constructor
  case places_nodup => exact hplaces ▸ h.places_nodup
  case places_added => exact hplaces ▸ h.places_added
  case kept => exact hplaces ▸ h.kept
  case unstopped => exact htaken ▸ h.unstopped
  case taken_cycle => exact fun task hmem => absurd (hafter ▸ hmem) List.not_mem_nil
  case deadline =>
    intro deadline signalled heq
    obtain ⟨⟨task, htask, hcycle⟩, -⟩ := topCycle_eq_some.1 (hwaiting _ _ heq).symm
    exact Or.inl ⟨task, htask, hcycle.le⟩
  case nonempty =>
    intro _ deadline signalled heq hnil
    have hnone : s.topCycle = none := topCycle_eq_none.2 hnil
    rw [hnone] at hwaiting
    cases hwaiting _ _ heq
  case unsignalled => exact fun deadline heq => hwaiting _ _ heq
  case untouched =>
    refine fun hopen => ⟨(h.untouched hopen).1, fun heq => ?_⟩
    rw [hbroken heq] at hopen
    cases hopen
  all_goals first
    | exact h.number_lt | exact h.eventId_ne_zero | exact h.stopped_added | exact h.ids_nodup
    | exact h.mem_ids | exact h.queue_ids | exact h.handed_cycle | exact h.shutDown

/-- In the queue a task is known by its id. -/
theorem Inv.eq_of_eventId (h : Inv s) {task other : SchedulerTask} (htask : task ∈ s.eventList)
    (hother : other ∈ s.eventList) (heq : task.eventId = other.eventId) : task = other :=
  List.inj_on_of_nodup_map h.queue_ids htask hother heq

theorem Inv.eventList_nodup (h : Inv s) : s.eventList.Nodup := h.queue_ids.of_map _

/-- The thread takes out a task that is not stopped. -/
theorem Inv.take (h : Inv s) {task : SchedulerTask} (hbefore : s.timer.taken = [])
    (htask : task ∈ s.eventList) (hcycle : task.cycle ≤ s.clock)
    (hid : task.eventId ∈ s.eventIds) :
    Inv { s with
      eventList := s.eventList.erase task
      eventIds := s.eventIds.erase task.eventId
      timer := .handing task } := by
  have hlist := h.eventList_nodup
  have hnot : task ∉ s.stopped := by
    obtain ⟨other, hother, heq, hother'⟩ := (h.mem_ids _).1 hid
    rwa [h.eq_of_eventId htask hother heq.symm]
  have hperm : (s.handed.map Prod.fst ++ [task] ++ s.eventList.erase task ++ s.discarded).Perm
      s.places := by
    unfold State.places State.taken
    rw [hbefore, List.append_nil, List.append_assoc (s.handed.map Prod.fst)]
    exact ((List.perm_cons_erase htask).symm.append_left _).append_right _
  constructor
  case places_nodup => exact hperm.nodup_iff.2 h.places_nodup
  case places_added => exact fun other hmem => h.places_added other (hperm.mem_iff.1 hmem)
  case kept => exact fun other hmem hother => hperm.mem_iff.2 (h.kept other hmem hother)
  case unstopped =>
    intro other hmem
    rcases List.mem_append.1 hmem with hold | hnew
    · exact h.unstopped other (List.mem_append_left _ hold)
    · rw [List.mem_singleton.1 hnew]
      exact hnot
  case ids_nodup => exact h.ids_nodup.erase _
  case mem_ids =>
    intro id
    rw [h.ids_nodup.mem_erase_iff, h.mem_ids]
    constructor
    · rintro ⟨hne, other, hother, heq, hother'⟩
      refine ⟨other, (hlist.mem_erase_iff).2 ⟨fun hsame => hne ?_, hother⟩, heq, hother'⟩
      rw [← heq, hsame]
    · rintro ⟨other, hother, heq, hother'⟩
      obtain ⟨hne, hmem⟩ := hlist.mem_erase_iff.1 hother
      exact ⟨fun hsame => hne (h.eq_of_eventId hmem htask (heq.trans hsame)), other, hmem, heq,
        hother'⟩
  case queue_ids => exact h.queue_ids.sublist (List.erase_sublist.map _)
  case taken_cycle =>
    intro other hmem
    rw [List.mem_singleton.1 hmem]
    exact hcycle
  case deadline => exact fun _ _ heq => by cases heq
  case nonempty => exact fun _ _ _ heq => by cases heq
  case unsignalled => exact fun _ heq => by cases heq
  case untouched => exact fun hopen => ⟨(h.untouched hopen).1, fun heq => by cases heq⟩
  case shutDown =>
    intro hdown
    obtain ⟨-, hnil⟩ := h.shutDown hdown
    rw [hnil] at htask
    exact absurd htask List.not_mem_nil
  all_goals first
    | exact h.number_lt | exact h.eventId_ne_zero | exact h.stopped_added | exact h.handed_cycle

/-- The thread throws away a task that is stopped. -/
theorem Inv.drop (h : Inv s) {task : SchedulerTask} (hbefore : s.timer.taken = [])
    (htask : task ∈ s.eventList) (hid : task.eventId ∉ s.eventIds) :
    Inv { s with eventList := s.eventList.erase task, timer := .loop } := by
  have hlist := h.eventList_nodup
  have hstopped : task ∈ s.stopped := by
    by_contra hnot
    exact hid ((h.mem_ids _).2 ⟨task, htask, rfl, hnot⟩)
  have hsub : (s.handed.map Prod.fst ++ [] ++ s.eventList.erase task ++ s.discarded).Sublist
      s.places := by
    unfold State.places State.taken
    rw [hbefore]
    exact (List.erase_sublist.append_left _).append_right _
  constructor
  case places_nodup => exact h.places_nodup.sublist hsub
  case places_added => exact fun other hmem => h.places_added other (hsub.subset hmem)
  case kept =>
    intro other hmem hother
    have hne : other ≠ task := fun heq => hother (heq ▸ hstopped)
    have hplace := h.kept other hmem hother
    unfold State.places State.taken at hplace ⊢
    rw [hbefore] at hplace
    simp only [List.mem_append] at hplace ⊢
    rcases hplace with (hhanded | hqueue) | hdiscarded
    · exact Or.inl (Or.inl hhanded)
    · exact Or.inl (Or.inr ((List.mem_erase_of_ne hne).2 hqueue))
    · exact Or.inr hdiscarded
  case unstopped =>
    intro other hmem
    rcases List.mem_append.1 hmem with hold | hnew
    · exact h.unstopped other (List.mem_append_left _ hold)
    · exact absurd hnew List.not_mem_nil
  case mem_ids =>
    intro id
    rw [h.mem_ids]
    refine exists_congr fun other => ?_
    rw [hlist.mem_erase_iff]
    refine ⟨fun ⟨hmem, heq, hother⟩ => ⟨⟨fun hsame => hother (hsame ▸ hstopped), hmem⟩, heq, hother⟩,
      fun ⟨⟨_, hmem⟩, heq, hother⟩ => ⟨hmem, heq, hother⟩⟩
  case queue_ids => exact h.queue_ids.sublist (List.erase_sublist.map _)
  case taken_cycle => exact fun other hmem => absurd hmem List.not_mem_nil
  case deadline => exact fun _ _ heq => by cases heq
  case nonempty => exact fun _ _ _ heq => by cases heq
  case unsignalled => exact fun _ heq => by cases heq
  case untouched => exact fun hopen => ⟨(h.untouched hopen).1, fun heq => by cases heq⟩
  case shutDown =>
    intro hdown
    obtain ⟨-, hnil⟩ := h.shutDown hdown
    rw [hnil] at htask
    exact absurd htask List.not_mem_nil
  all_goals first
    | exact h.number_lt | exact h.eventId_ne_zero | exact h.stopped_added | exact h.ids_nodup
    | exact h.handed_cycle

/-- The task goes to the dispatcher. -/
theorem Inv.hand (h : Inv s) {task : SchedulerTask} (htimer : s.timer = .handing task) :
    Inv { s with timer := .loop, handed := (task, s.clock) :: s.handed } := by
  have hone : s.timer.taken = [task] := by
    rw [htimer]
    rfl
  have htaken : (((task, s.clock) :: s.handed).map Prod.fst ++ []).Perm s.taken := by
    unfold State.taken
    rw [hone, List.append_nil]
    exact (List.perm_append_singleton task _).symm
  have hperm : (((task, s.clock) :: s.handed).map Prod.fst ++ [] ++ s.eventList ++
      s.discarded).Perm s.places :=
    (htaken.append_right _).append_right _
  constructor
  case places_nodup => exact hperm.nodup_iff.2 h.places_nodup
  case places_added => exact fun other hmem => h.places_added other (hperm.mem_iff.1 hmem)
  case kept => exact fun other hmem hother => hperm.mem_iff.2 (h.kept other hmem hother)
  case unstopped => exact fun other hmem => h.unstopped other (htaken.mem_iff.1 hmem)
  case handed_cycle =>
    intro entry hmem
    rcases List.mem_cons.1 hmem with rfl | hold
    · exact h.taken_cycle task (hone ▸ List.mem_singleton_self task)
    · exact h.handed_cycle entry hold
  case taken_cycle => exact fun other hmem => absurd hmem List.not_mem_nil
  case deadline => exact fun _ _ heq => by cases heq
  case nonempty => exact fun _ _ _ heq => by cases heq
  case unsignalled => exact fun _ heq => by cases heq
  case untouched => exact fun hopen => ⟨(h.untouched hopen).1, fun heq => by cases heq⟩
  all_goals first
    | exact h.number_lt | exact h.eventId_ne_zero | exact h.stopped_added | exact h.ids_nodup
    | exact h.mem_ids | exact h.queue_ids | exact h.shutDown

theorem Inv.timeout (h : Inv s) {task : SchedulerTask} (possible : Possible s (.timeout task)) :
    Inv (s.timeout task) := by
  obtain ⟨⟨deadline, hclock, signalled, htimer⟩, htop⟩ := possible
  have hbefore : s.timer.taken = [] := by
    rw [htimer]
    rfl
  unfold State.timeout
  split_ifs with hnil hid
  · -- only a shutdown leaves the thread with nothing
    refine h.setTimer hbefore rfl (fun _ => ?_) (fun _ _ heq => by cases heq)
    rw [← Bool.not_eq_false]
    exact fun hopen => h.nonempty hopen deadline signalled htimer hnil
  · obtain ⟨hmem, hleast⟩ := htop.resolve_left hnil
    obtain ⟨other, hother, hle⟩ := (h.deadline deadline signalled htimer).resolve_right hnil
    exact h.take hbefore hmem ((hleast other hother).trans (hle.trans hclock)) hid
  · exact h.drop hbefore (htop.resolve_left hnil).1 hid

theorem Inv.perform (h : Inv s) {event : Event} (possible : Possible s event)
    (fresh : Fresh s event) : Inv (perform s event) := by
  cases event with
  | tick time =>
      have hlater (task : SchedulerTask) (hmem : task ∈ s.timer.taken) :
          task.cycle ≤ s.clock + time :=
        (h.taken_cycle task hmem).trans (Nat.le_add_right ..)
      exact { h with taken_cycle := hlater }
  | addEvent cycle => exact h.addEvent fresh
  | stopEvent eventid => exact h.stopEvent eventid
  | stop =>
      have hclosing : ThreadState.closing ≠ .running := by decide
      exact { h with shutDown := fun hdown => ⟨hclosing, (h.shutDown hdown).2⟩ }
  | terminate =>
      have hterminated : ThreadState.terminated ≠ .running := by decide
      exact { h with shutDown := fun hdown => ⟨hterminated, (h.shutDown hdown).2⟩ }
  | clear => exact h.clear possible
  | check =>
      have hloop : s.timer = .loop := possible
      refine h.setTimer (by rw [hloop]; rfl) ?_ (fun heq => ?_) fun _ _ heq => ?_
      · split_ifs <;> rfl
      · split_ifs at heq
      · split_ifs at heq
  | enter =>
      have hlocking : s.timer = .locking := possible
      refine h.setTimer (by rw [hlocking]; rfl) rfl (fun heq => by cases heq) fun _ _ heq => ?_
      cases heq
      rfl
  | timeout task => exact h.timeout possible
  | wake =>
      obtain ⟨deadline, signalled, htimer⟩ := possible
      exact h.setTimer (by rw [htimer]; rfl) rfl (fun heq => by cases heq)
        fun _ _ heq => by cases heq
  | hand =>
      obtain ⟨task, htimer⟩ := possible
      unfold Scheduler.perform
      rw [htimer]
      exact h.hand htimer

theorem run_inv (run : Run s) : Inv s := by
  induction run with
  | start clock => exact inv_start clock
  | step event _ possible fresh ih => exact ih.perform possible fresh

/-! ### The thread gets to every task -/

theorem Alone.trans {s'' : State} (h : Alone s s') (h' : Alone s' s'') : Alone s s'' := by
  induction h with
  | refl s => exact h'
  | step event possible due _ ih => exact .step event possible due (ih h')

/-- A single step. -/
theorem Alone.one (event : Event) (possible : Possible s event) (due : Due s event) :
    Alone s (perform s event) :=
  .step event possible due (.refl _)

/-- What the thread does by itself is part of a run. -/
theorem Alone.run (h : Alone s s') (run : Run s) : Run s' := by
  induction h with
  | refl s => exact run
  | step event possible due _ ih =>
      refine ih (run.step event possible ?_)
      cases event with
      | addEvent cycle => exact absurd due id
      | _ => trivial

/-- The thread comes to wait for the first task, at most by way of what it has in hand. -/
theorem alone_waiting (h : Inv s) (hstate : s.threadState ≠ .terminated)
    (hopen : s.isShutDown = false) (hdone : s.timer ≠ .done) :
    ∃ s', Alone s s' ∧ s'.timer = .waiting s'.topCycle false ∧ s'.eventList = s.eventList ∧
      s'.stopped = s.stopped ∧ s'.clock = s.clock ∧ s'.threadState = s.threadState ∧
        s'.isShutDown = s.isShutDown ∧
          ∀ task ∈ s.handed.map Prod.fst, task ∈ s'.handed.map Prod.fst := by
  have hlocking {s : State} (htimer : s.timer = .locking) :
      Alone s { s with timer := .waiting s.topCycle false } := .one .enter htimer trivial
  have hloop {s : State} (htimer : s.timer = .loop) (hstate : s.threadState ≠ .terminated) :
      Alone s { s with timer := .waiting s.topCycle false } := by
    refine .step .check htimer trivial ?_
    have hcheck : perform s .check = { s with timer := .locking } := by
      unfold perform
      rw [if_neg hstate]
    rw [hcheck]
    exact hlocking rfl
  cases htimer : s.timer with
  | loop => exact ⟨_, hloop htimer hstate, rfl, rfl, rfl, rfl, rfl, rfl, fun _ hmem => hmem⟩
  | locking => exact ⟨_, hlocking htimer, rfl, rfl, rfl, rfl, rfl, rfl, fun _ hmem => hmem⟩
  | waiting deadline signalled =>
      cases signalled with
      | false =>
          have hdeadline := h.unsignalled deadline htimer
          exact ⟨s, .refl s, hdeadline ▸ htimer, rfl, rfl, rfl, rfl, rfl, fun _ hmem => hmem⟩
      | true =>
          have hwake : Alone s { s with timer := .loop } :=
            .one .wake ⟨deadline, true, htimer⟩ ⟨deadline, htimer⟩
          exact ⟨_, hwake.trans (hloop rfl hstate), rfl, rfl, rfl, rfl, rfl, rfl,
            fun _ hmem => hmem⟩
  | handing task =>
      have hhand : Alone s { s with timer := .loop, handed := (task, s.clock) :: s.handed } := by
        have hperform : perform s .hand =
            { s with timer := .loop, handed := (task, s.clock) :: s.handed } := by
          unfold perform
          rw [htimer]
        exact hperform ▸ .one .hand ⟨task, htimer⟩ trivial
      exact ⟨_, hhand.trans (hloop rfl hstate), rfl, rfl, rfl, rfl, rfl, rfl,
        fun _ hmem => List.mem_cons_of_mem _ hmem⟩
  | broken => exact absurd htimer (h.untouched hopen).2
  | done => exact absurd htimer hdone

/-- A task that is due and not stopped is handed over by what the thread does by itself. -/
theorem alone_handed (length : Nat) (run : Run s) (hlength : s.eventList.length = length)
    (hstate : s.threadState ≠ .terminated) (hdone : s.timer ≠ .done) {task : SchedulerTask}
    (htask : task ∈ s.eventList) (hnot : task ∉ s.stopped) (hcycle : task.cycle ≤ s.clock) :
    ∃ s', Alone s s' ∧ task ∈ s'.handed.map Prod.fst := by
  induction length generalizing s with
  | zero =>
      rw [List.length_eq_zero_iff] at hlength
      rw [hlength] at htask
      exact absurd htask List.not_mem_nil
  | succ length ih =>
      have hopen : s.isShutDown = false := by
        rw [← Bool.not_eq_true]
        intro hdown
        rw [((run_inv run).shutDown hdown).2] at htask
        exact List.not_mem_nil htask
      obtain ⟨s₁, halone, htimer, hlist, hstopped, hclock, hthread, hopen₁, -⟩ :=
        alone_waiting (run_inv run) hstate hopen hdone
      rw [← hlist] at htask hlength
      rw [← hstopped] at hnot
      rw [← hclock] at hcycle
      have hinv := run_inv (halone.run run)
      obtain ⟨deadline, htop⟩ : ∃ deadline, s₁.topCycle = some deadline := by
        rw [← Option.ne_none_iff_exists']
        exact fun hnone => List.ne_nil_of_mem htask (topCycle_eq_none.1 hnone)
      obtain ⟨⟨first, hfirst, rfl⟩, hleast⟩ := topCycle_eq_some.1 htop
      have hpossible : Possible s₁ (.timeout first) :=
        ⟨⟨first.cycle, (hleast task htask).trans hcycle, false, htop ▸ htimer⟩,
          Or.inr ⟨hfirst, hleast⟩⟩
      have hnil : s₁.eventList ≠ [] := List.ne_nil_of_mem htask
      have hstep : Alone s (s₁.timeout first) := halone.trans (.one _ hpossible trivial)
      by_cases heq : task = first
      · subst heq
        have hid : task.eventId ∈ s₁.eventIds := (hinv.mem_ids _).2 ⟨task, htask, rfl, hnot⟩
        have htaken : (s₁.timeout task).timer = .handing task := by
          unfold State.timeout
          rw [if_neg hnil, if_pos hid]
        refine ⟨_, hstep.trans (.one .hand ⟨task, htaken⟩ trivial), ?_⟩
        unfold perform
        rw [htaken]
        exact List.mem_cons_self
      · -- another one was due before
        have hafter : (s₁.timeout first).eventList = s₁.eventList.erase first ∧
            (s₁.timeout first).stopped = s₁.stopped ∧ (s₁.timeout first).clock = s₁.clock ∧
              (s₁.timeout first).threadState = s₁.threadState ∧
                (s₁.timeout first).timer ≠ .done := by
          unfold State.timeout
          rw [if_neg hnil]
          split_ifs
          · exact ⟨rfl, rfl, rfl, rfl, fun h => by cases h⟩
          · exact ⟨rfl, rfl, rfl, rfl, fun h => by cases h⟩
        obtain ⟨hlist₂, hstopped₂, hclock₂, hthread₂, hdone₂⟩ := hafter
        obtain ⟨s', halone', hhanded⟩ := ih (hstep.run run)
          (by rw [hlist₂, List.length_erase_of_mem hfirst]; omega)
          (by rw [hthread₂, hthread]; exact hstate) hdone₂
          (by rw [hlist₂]; exact (List.mem_erase_of_ne heq).2 htask)
          (by rw [hstopped₂]; exact hnot) (by rw [hclock₂]; exact hcycle)
        exact ⟨s', hstep.trans halone', hhanded⟩

/-! ### What becomes of a task -/

/-- The task is registered: added, not stopped, and neither taken by the thread nor thrown away. -/
def State.registered (s : State) (task : SchedulerTask) : Prop :=
  task ∈ s.added ∧ task ∉ s.stopped ∧ task ∉ s.taken ∧ task ∉ s.discarded

/-- What is promised of every task at any time. -/
structure Kept (s : State) : Prop where
  /-- It is handed over at most once, and not before its time. -/
  once : (s.handed.map Prod.fst).Nodup
  onTime : ∀ entry ∈ s.handed, entry.1.cycle ≤ entry.2
  /-- It is never handed over once `stopEvent` has returned true for it. -/
  stopped : ∀ task ∈ s.stopped, task ∉ s.handed.map Prod.fst
  stopEvent : ∀ id, (s.stopEvent id).1 = true ↔ ∃ task, s.registered task ∧ task.eventId = id

/-- A registered task is in the queue. -/
theorem Inv.registered_iff (h : Inv s) {task : SchedulerTask} :
    s.registered task ↔ task ∈ s.eventList ∧ task ∉ s.stopped := by
  constructor
  · rintro ⟨hadded, hnot, htaken, hdiscarded⟩
    have hplace := h.kept task hadded hnot
    unfold State.places at hplace
    simp only [List.mem_append] at hplace
    rcases hplace with (hin | hqueue) | hin
    · exact absurd hin htaken
    · exact ⟨hqueue, hnot⟩
    · exact absurd hin hdiscarded
  · rintro ⟨hqueue, hnot⟩
    obtain ⟨hfirst, -, hapart⟩ := List.nodup_append.1 h.places_nodup
    refine ⟨h.places_added task ?_, hnot, fun hin => ?_, fun hin => ?_⟩
    · exact List.mem_append_left _ (List.mem_append_right _ hqueue)
    · exact (List.nodup_append.1 hfirst).2.2 task hin task hqueue rfl
    · exact hapart task (List.mem_append_right _ hqueue) task hin rfl

theorem Inv.stopEvent_iff (h : Inv s) (id : Nat) :
    (s.stopEvent id).1 = true ↔ ∃ task, s.registered task ∧ task.eventId = id := by
  have hsame : (∃ task, s.registered task ∧ task.eventId = id) ↔ id ∈ s.eventIds := by
    rw [h.mem_ids]
    refine exists_congr fun task => ?_
    rw [h.registered_iff, and_assoc, and_comm (a := task ∉ s.stopped)]
  rw [hsame]
  unfold State.stopEvent
  split_ifs with hzero hmem
  · refine iff_of_false not_false fun hmem => ?_
    obtain ⟨task, htask, heq, -⟩ := (h.mem_ids id).1 hmem
    have hadded := h.places_added task (List.mem_append_left _ (List.mem_append_right _ htask))
    exact h.eventId_ne_zero task hadded (heq.trans hzero)
  · exact iff_of_true rfl hmem
  · exact iff_of_false not_false hmem

theorem Inv.toKept (h : Inv s) : Kept s := by
  have htaken : s.taken.Nodup :=
    (List.nodup_append.1 (List.nodup_append.1 h.places_nodup).1).1
  refine ⟨(List.nodup_append.1 htaken).1, h.handed_cycle, fun task hmem hin => ?_, h.stopEvent_iff⟩
  exact h.unstopped task (List.mem_append_left _ hin) hmem

/-- **Nothing is lost until a shutdown.** At any time every task keeps the promises; one that is not
stopped has been handed over, or is being handed over, or waits in the queue, or was there when a
shutdown emptied it. One that waits and is due is handed over by what the thread does by itself,
while the thread runs. Until a shutdown empties the queue nothing is thrown away, and the thread never
takes the top of an empty queue. -/
theorem tasks_kept (run : Run s) :
    Kept s ∧
      (∀ task ∈ s.added, task ∉ s.stopped →
        task ∈ s.taken ∨ task ∈ s.eventList ∨ task ∈ s.discarded) ∧
      (s.threadState ≠ .terminated → s.timer ≠ .done → ∀ task ∈ s.eventList, task ∉ s.stopped →
        task.cycle ≤ s.clock → ∃ s', Alone s s' ∧ task ∈ s'.handed.map Prod.fst) ∧
      (s.isShutDown = false → s.discarded = [] ∧ s.timer ≠ .broken) := by
  have h := run_inv run
  refine ⟨h.toKept, fun task hmem hnot => ?_, fun hstate hdone task htask hnot hcycle => ?_,
    h.untouched⟩
  · have hplace := h.kept task hmem hnot
    unfold State.places at hplace
    rwa [List.mem_append, List.mem_append, or_assoc] at hplace
  · exact alone_handed _ run rfl hstate hdone htask hnot hcycle

namespace Sample

/-- A task is added, and the server shuts down before it is due. -/
def shutDownEarly : List Event := [.addEvent 10, .terminate, .clear]

theorem shutDownEarly_run : Run (shutDownEarly.foldl perform { clock := 0 }) := by
  refine (Run.start 0).step (.addEvent 10) trivial (fun _ hmem => absurd hmem List.not_mem_nil)
    |>.step .terminate trivial trivial |>.step .clear ?_ trivial
  exact fun heq => by cases heq

theorem never_handed : ¬ ∀ s, Run s → Kept s ∧
    (∀ task ∈ s.added, task ∉ s.stopped → task ∈ s.taken ∨ task ∈ s.eventList) ∧
      s.timer ≠ .broken := by
  intro h
  obtain ⟨-, hfound, -⟩ := h _ shutDownEarly_run
  exact absurd (hfound ⟨0, 1, 10⟩ (by decide) (by decide)) (by decide)

/-- A task is added and comes due while the thread waits for it. -/
def waitedFor : List Event := [.check, .enter, .addEvent 10, .wake, .check, .enter, .tick 10]

theorem waitedFor_run : Run (waitedFor.foldl perform { clock := 0 }) :=
  (Run.start 0).step .check rfl trivial |>.step .enter rfl trivial
    |>.step (.addEvent 10) trivial (fun _ hmem => absurd hmem List.not_mem_nil)
    |>.step .wake ⟨none, true, rfl⟩ trivial |>.step .check rfl trivial |>.step .enter rfl trivial
    |>.step (.tick 10) trivial trivial

theorem waitedFor_handed : ∃ s', Alone (waitedFor.foldl perform { clock := 0 }) s' ∧
    ⟨0, 1, 10⟩ ∈ s'.handed.map Prod.fst :=
  (tasks_kept waitedFor_run).2.2.1 (fun heq => by cases heq) (fun heq => by cases heq) _
    (by decide) (by decide) (by decide)

end Sample

end TibServer.Scheduler
