import TibServer.DatabaseTasks

/-!
The order of the database tasks. They are executed as they have been accepted, and so are their
callbacks, in a run in which the shutdown never finds the worker with a task in hand and others
behind it: the worker runs its task outside the lock, and the shutdown does not wait for it.
-/

namespace TibServer.DatabaseTasks

open TibServer.Runs

/-! ### What is required -/

/-- What happens without another call: the worker goes on, and notifications arrive. -/
def Event.own : Event → Prop
  | .work | .notify => True
  | _ => False

/-- Left to itself the worker comes to rest, and then everything has been executed. -/
structure State.Settles (s : State) : Prop where
  rests : ∃ bound, ∀ events, (∀ event ∈ events, event.own) →
    (run State.perform s events).isSome → events.length ≤ bound
  complete : ∀ events t, (∀ event ∈ events, event.own) → run State.perform s events = some t →
    t.work = none → t.notify = none →
    t.marks = serial s.accepted ∧ t.callbacks = posted s.accepted

/-- What has happened is the beginning of a serial execution of the accepted tasks, which goes on to
its end. -/
structure State.Ordered (s : State) : Prop where
  marks : s.marks <+: serial s.accepted
  callbacks : s.callbacks <+: posted s.accepted
  settles : s.Settles

namespace Worker

/-- The task that is taken out and not done. -/
def inFlight : Worker → List DatabaseTask
  | .popped task | .executing task => [task]
  | _ => []

def begun : Worker → List Mark
  | .executing task => [.started task]
  | _ => []

/-- The task that is done, with its callback still to come. -/
def unposted : Worker → List DatabaseTask
  | .executed task => posted [task]
  | _ => []

end Worker

/-- The shutdown overtakes no task and no callback of the worker. -/
def State.Waits (s : State) : Event → Prop
  | .shutdown => (s.worker.inFlight = [] ∨ s.tasks = []) ∧
      (s.worker.unposted = [] ∨ posted s.tasks = [])
  | _ => True

/-! ### The serial execution -/

variable {s s' t : State} {event : Event} {events : List Event} {done : List DatabaseTask}
  {task : DatabaseTask}

theorem serial_append (before after : List DatabaseTask) :
    serial (before ++ after) = serial before ++ serial after :=
  List.flatMap_append

theorem posted_append (before after : List DatabaseTask) :
    posted (before ++ after) = posted before ++ posted after :=
  List.filter_append before after

@[simp] theorem serial_nil : serial [] = [] := rfl

@[simp] theorem posted_nil : posted [] = [] := rfl

theorem serial_cons (tasks : List DatabaseTask) :
    serial (task :: tasks) = .started task :: .finished task :: serial tasks := rfl

theorem posted_singleton : posted [task] = if task.callback then [task] else [] := by
  rw [posted, List.filter_cons, List.filter_nil]

theorem foldl_runTask (tasks : List DatabaseTask) (s : State) :
    tasks.foldl State.runTask s = { s with
      marks := s.marks ++ serial tasks
      callbacks := s.callbacks ++ posted tasks } := by
  induction tasks generalizing s with
  | nil => simp
  | cons task tasks ih =>
      rw [List.foldl_cons, ih]
      have hposted : (s.runTask task).callbacks = s.callbacks ++ posted [task] := by
        rw [posted_singleton]
        cases hcallback : task.callback with
        | false => simp [State.runTask, hcallback]
        | true => simp [State.runTask, hcallback]
      have hcons : posted (task :: tasks) = posted [task] ++ posted tasks :=
        posted_append [task] tasks
      rw [hposted, hcons, serial_cons, List.append_assoc]
      simp [State.runTask]

/-- The shutdown executes what is queued, whatever the worker does. -/
theorem shutdown_eq : s.shutdown = { s with
    threadState := .TERMINATED
    tasks := []
    signals := s.signals + 1
    marks := s.marks ++ serial s.tasks
    callbacks := s.callbacks ++ posted s.tasks } := by
  simp only [State.shutdown, State.flush, foldl_runTask]

/-! ### The invariant -/

/-- The accepted tasks are those done, the one in hand and those queued, and no wake-up is lost. -/
structure State.Kept (s : State) (done : List DatabaseTask) : Prop where
  accepted : s.accepted = done ++ s.worker.inFlight ++ s.tasks
  marks : s.marks = serial done ++ s.worker.begun
  callbacks : s.callbacks ++ s.worker.unposted = posted done
  awake : s.worker = .waiting → s.tasks ≠ [] → 0 < s.signals
  ended : s.worker = .ended → s.tasks = [] ∧ s.threadState ≠ .RUNNING
  terminated : s.threadState = .TERMINATED → s.tasks = []
  numbered : s.accepted.map DatabaseTask.number = List.range s.accepted.length

theorem State.Kept.addTask (h : s.Kept done) (query : String) (callback store : Bool) :
    (s.addTask query callback store).Kept done := by
  rw [State.addTask]
  split
  · next hrunning =>
      refine ⟨?_, h.marks, h.callbacks, fun hwaiting _ => ?_, fun hended => ?_,
        fun hterminated => ?_, ?_⟩
      · simp only [h.accepted, List.append_assoc]
      · -- a queue that was not empty had its notification before
        dsimp only
        split
        · exact Nat.succ_pos s.signals
        · next hempty => exact h.awake hwaiting fun hnil => hempty (by rw [hnil]; rfl)
      · exact absurd hrunning (h.ended hended).2
      · have hterminated' : s.threadState = .TERMINATED := hterminated
        rw [hrunning] at hterminated'
        cases hterminated'
      · simp only [List.map_append, h.numbered, List.map_cons, List.map_nil, List.length_append,
          List.length_cons, List.length_nil, zero_add, List.range_succ]
  · exact h

theorem State.Kept.shutdown (h : s.Kept done) (hwaits : s.Waits .shutdown) :
    s.shutdown.Kept (done ++ s.tasks) := by
  obtain ⟨hflight, hunposted⟩ := hwaits
  rw [shutdown_eq]
  have hbegun : s.worker.begun = [] ∨ s.tasks = [] := by
    rcases hflight with hnone | hempty
    · left
      cases hworker : s.worker with
      | executing task =>
          rw [hworker] at hnone
          cases hnone
      | _ => rfl
    · exact .inr hempty
  refine ⟨?_, ?_, ?_, fun _ hsome => absurd rfl hsome, fun hended => ?_, fun _ => rfl, h.numbered⟩
  · rcases hflight with hnone | hempty
    · simp [h.accepted, hnone]
    · simp [h.accepted, hempty]
  · rcases hbegun with hnone | hempty
    · simp [h.marks, hnone, serial_append]
    · simp [h.marks, hempty]
  · dsimp only
    rw [posted_append, ← h.callbacks]
    rcases hunposted with hnone | hempty
    · simp [hnone]
    · simp [hempty]
  · exact ⟨rfl, by simp⟩

/-- The locked section keeps the order; the worker is where it has nothing in hand. -/
theorem State.Kept.pop (h : s.Kept done) (hflight : s.worker.inFlight = [])
    (hunposted : s.worker.unposted = []) (hbegun : s.worker.begun = []) (idle : Worker)
    (hidle : idle = .waiting ∨ idle = .checking) : (s.pop idle).Kept done := by
  have haccepted := h.accepted
  have hmarks := h.marks
  have hcallbacks := h.callbacks
  rw [hflight] at haccepted
  rw [hbegun] at hmarks
  rw [hunposted] at hcallbacks
  rw [State.pop]
  split
  · next hempty =>
      rcases hidle with rfl | rfl
      · exact ⟨haccepted, hmarks, hcallbacks, fun _ hsome => absurd hempty hsome,
          fun hended => (by cases hended), h.terminated, h.numbered⟩
      · exact ⟨haccepted, hmarks, hcallbacks, fun hwaiting => (by cases hwaiting),
          fun hended => (by cases hended), h.terminated, h.numbered⟩
  · next task tasks htasks =>
      refine ⟨?_, hmarks, hcallbacks, fun hwaiting => (by cases hwaiting),
        fun hended => (by cases hended), fun hterminated => ?_, h.numbered⟩
      · rw [haccepted, htasks]
        simp [Worker.inFlight]
      · have hempty := h.terminated hterminated
        rw [htasks] at hempty
        cases hempty

theorem State.Kept.work (h : s.Kept done) (hr : s.work = some s') : ∃ done', s'.Kept done' := by
  have haccepted := h.accepted
  have hmarks := h.marks
  have hcallbacks := h.callbacks
  rw [State.work] at hr
  cases hworker : s.worker with
  | checking =>
      rw [hworker] at haccepted hmarks hcallbacks hr
      cases hr
      refine ⟨done, ?_⟩
      by_cases hterminated : s.threadState = .TERMINATED
      · rw [if_pos hterminated]
        exact ⟨haccepted, hmarks, hcallbacks, fun hwaiting => (by cases hwaiting),
          fun _ => ⟨h.terminated hterminated, fun hrunning => by
            rw [hterminated] at hrunning
            cases hrunning⟩, h.terminated, h.numbered⟩
      · rw [if_neg hterminated]
        exact ⟨haccepted, hmarks, hcallbacks, fun hwaiting => (by cases hwaiting),
          fun hended => (by cases hended), h.terminated, h.numbered⟩
  | locking =>
      rw [hworker] at hr
      cases hr
      exact ⟨done, h.pop (by rw [hworker]; rfl) (by rw [hworker]; rfl) (by rw [hworker]; rfl) _
        (.inl rfl)⟩
  | waiting =>
      rw [hworker] at hr
      cases hr
  | woken =>
      rw [hworker] at hr
      cases hr
      exact ⟨done, h.pop (by rw [hworker]; rfl) (by rw [hworker]; rfl) (by rw [hworker]; rfl) _
        (.inr rfl)⟩
  | popped task =>
      rw [hworker] at haccepted hmarks hcallbacks hr
      cases hr
      refine ⟨done, haccepted, ?_, hcallbacks, fun hwaiting => (by cases hwaiting),
        fun hended => (by cases hended), h.terminated, h.numbered⟩
      simp [hmarks, Worker.begun]
  | executing task =>
      -- the task is done from here on, with its callback still in hand
      rw [hworker] at haccepted hmarks hcallbacks hr
      cases hr
      refine ⟨done ++ [task], ?_, ?_, ?_, fun hwaiting => (by cases hwaiting),
        fun hended => (by cases hended), h.terminated, h.numbered⟩
      · simp [haccepted, Worker.inFlight]
      · simp [hmarks, serial_append, serial_cons, Worker.begun]
      · simp only [Worker.unposted, List.append_nil] at hcallbacks ⊢
        rw [posted_append, hcallbacks]
  | executed task =>
      rw [hworker] at haccepted hmarks hcallbacks hr
      cases hr
      refine ⟨done, haccepted, hmarks, ?_, fun hwaiting => (by cases hwaiting),
        fun hended => (by cases hended), h.terminated, h.numbered⟩
      rw [← hcallbacks]
      simp only [Worker.unposted, posted_singleton, List.append_nil]
      split
      · rfl
      · exact (List.append_nil s.callbacks).symm
  | ended =>
      rw [hworker] at hr
      cases hr

/-- A worker that has left `wait` has nothing in hand, as before. -/
theorem State.Kept.wake (h : s.Kept done) (hwaiting : s.worker = .waiting) (signals : Nat) :
    { s with signals := signals, worker := .woken }.Kept done := by
  have haccepted := h.accepted
  have hmarks := h.marks
  have hcallbacks := h.callbacks
  rw [hwaiting] at haccepted hmarks hcallbacks
  exact ⟨haccepted, hmarks, hcallbacks, fun hwoken => (by cases hwoken),
    fun hended => (by cases hended), h.terminated, h.numbered⟩

theorem State.Kept.notify (h : s.Kept done) (hr : s.notify = some s') : s'.Kept done := by
  rw [State.notify] at hr
  split at hr
  · cases hr
  · next signals hsignals =>
      cases hr
      by_cases hwaiting : s.worker = .waiting
      · rw [if_pos hwaiting]
        exact h.wake hwaiting signals
      · rw [if_neg hwaiting]
        exact ⟨h.accepted, h.marks, h.callbacks, fun hwaits => absurd hwaits hwaiting, h.ended,
          h.terminated, h.numbered⟩

theorem State.Kept.perform (h : s.Kept done) (hwaits : s.Waits event)
    (hr : s.perform event = some s') : ∃ done', s'.Kept done' := by
  cases event with
  | addTask query callback store =>
      cases hr
      exact ⟨done, h.addTask query callback store⟩
  | stop =>
      cases hr
      exact ⟨done, h.accepted, h.marks, h.callbacks, h.awake,
        fun hended => ⟨(h.ended hended).1, by simp⟩, fun hterminated => (by cases hterminated),
        h.numbered⟩
  | shutdown =>
      cases hr
      exact ⟨done ++ s.tasks, h.shutdown hwaits⟩
  | work => exact h.work hr
  | notify => exact ⟨done, h.notify hr⟩
  | spurious =>
      simp only [State.perform] at hr
      split at hr
      · next hwaiting =>
          cases hr
          exact ⟨done, h.wake hwaiting s.signals⟩
      · cases hr

/-! ### The worker comes to rest -/

/-- How far the worker is from its rest. -/
def Worker.distance : Worker → Nat
  | .popped _ => 5
  | .executing _ => 4
  | .executed _ | .woken => 3
  | .checking => 2
  | .locking => 1
  | .waiting | .ended => 0

def State.distance (s : State) : Nat := 8 * s.tasks.length + 4 * s.signals + s.worker.distance

theorem pop_distance (idle : Worker) (hidle : idle.distance < s.worker.distance) :
    (s.pop idle).distance < s.distance := by
  rw [State.pop]
  split
  · exact Nat.add_lt_add_left hidle _
  · next task tasks htasks =>
      simp only [State.distance, htasks, List.length_cons, Worker.distance]
      omega

/-- Each step of the worker and each notification comes nearer to the rest. -/
theorem own_distance (hown : event.own) (hr : s.perform event = some s') :
    s'.distance < s.distance ∧ s'.accepted = s.accepted := by
  cases event with
  | work =>
      simp only [State.perform, State.work] at hr
      cases hworker : s.worker with
      | checking =>
          rw [hworker] at hr
          cases hr
          refine ⟨?_, rfl⟩
          simp only [State.distance, hworker]
          split
          · exact Nat.add_lt_add_left (by decide) _
          · exact Nat.add_lt_add_left (by decide) _
      | locking =>
          rw [hworker] at hr
          cases hr
          refine ⟨pop_distance .waiting (by rw [hworker]; decide), ?_⟩
          rw [State.pop]
          split
          · rfl
          · rfl
      | woken =>
          rw [hworker] at hr
          cases hr
          refine ⟨pop_distance .checking (by rw [hworker]; decide), ?_⟩
          rw [State.pop]
          split
          · rfl
          · rfl
      | popped task | executing task | executed task =>
          rw [hworker] at hr
          cases hr
          refine ⟨?_, rfl⟩
          simp only [State.distance, hworker]
          exact Nat.add_lt_add_left (by simp only [Worker.distance]; omega) _
      | waiting | ended =>
          rw [hworker] at hr
          cases hr
  | notify =>
      simp only [State.perform, State.notify] at hr
      split at hr
      · cases hr
      · next signals hsignals =>
          cases hr
          refine ⟨?_, rfl⟩
          simp only [State.distance, hsignals]
          split
          · simp only [Worker.distance]
            omega
          · omega
  | addTask query callback store => exact hown.elim
  | stop => exact hown.elim
  | shutdown => exact hown.elim
  | spurious => exact hown.elim

theorem own_waits (hown : event.own) : s.Waits event := by
  cases event with
  | shutdown => exact hown.elim
  | _ => trivial

theorem own_bounded (hown : ∀ event ∈ events, event.own)
    (hr : (run State.perform s events).isSome) : events.length ≤ s.distance := by
  induction events generalizing s with
  | nil => exact Nat.zero_le _
  | cons event events ih =>
      obtain ⟨t, ht⟩ := Option.isSome_iff_exists.1 hr
      obtain ⟨u, hu, hrest⟩ := Option.bind_eq_some_iff.1 ht
      have hlater := ih (s := u) (fun next hnext => hown next (List.mem_cons_of_mem event hnext))
        (Option.isSome_iff_exists.2 ⟨t, hrest⟩)
      have hnearer := (own_distance (hown event List.mem_cons_self) hu).1
      rw [List.length_cons]
      omega

theorem own_kept (hown : ∀ event ∈ events, event.own) (h : s.Kept done)
    (hr : run State.perform s events = some t) :
    (∃ done', t.Kept done') ∧ t.accepted = s.accepted := by
  induction events generalizing s done with
  | nil =>
      cases hr
      exact ⟨⟨done, h⟩, rfl⟩
  | cons event events ih =>
      obtain ⟨u, hu, hrest⟩ := Option.bind_eq_some_iff.1 hr
      have hevent := hown event List.mem_cons_self
      obtain ⟨done', h'⟩ := h.perform (own_waits hevent) hu
      obtain ⟨hkept, haccepted⟩ :=
        ih (fun next hnext => hown next (List.mem_cons_of_mem event hnext)) h' hrest
      exact ⟨hkept, haccepted.trans (own_distance hevent hu).2⟩

/-- Where nothing can go on, the worker waits or has ended, and nothing is queued. -/
theorem State.Kept.rest (h : s.Kept done) (hwork : s.work = none) (hnotify : s.notify = none) :
    s.marks = serial s.accepted ∧ s.callbacks = posted s.accepted := by
  have hsignals : s.signals = 0 := by
    rw [State.notify] at hnotify
    split at hnotify
    · assumption
    · cases hnotify
  have haccepted := h.accepted
  have hmarks := h.marks
  have hcallbacks := h.callbacks
  rw [State.work] at hwork
  cases hworker : s.worker with
  | waiting =>
      have hempty : s.tasks = [] := by
        by_contra hsome
        have hpositive := h.awake hworker hsome
        omega
      rw [hworker, hempty] at haccepted
      rw [hworker] at hmarks hcallbacks
      simp only [Worker.inFlight, Worker.begun, Worker.unposted, List.append_nil] at *
      rw [haccepted]
      exact ⟨hmarks, hcallbacks⟩
  | ended =>
      rw [hworker, (h.ended hworker).1] at haccepted
      rw [hworker] at hmarks hcallbacks
      simp only [Worker.inFlight, Worker.begun, Worker.unposted, List.append_nil] at *
      rw [haccepted]
      exact ⟨hmarks, hcallbacks⟩
  | _ =>
      rw [hworker] at hwork
      cases hwork

theorem State.Kept.ordered (h : s.Kept done) : s.Ordered := by
  refine ⟨?_, ?_, ⟨s.distance, fun events => own_bounded⟩, ?_⟩
  · rw [h.marks, h.accepted, List.append_assoc, serial_append]
    refine (List.prefix_append_right_inj _).2 ?_
    cases s.worker with
    | executing task => exact ⟨.finished task :: serial s.tasks, rfl⟩
    | _ => exact List.nil_prefix
  · rw [h.accepted, List.append_assoc, posted_append, ← h.callbacks, List.append_assoc]
    exact List.prefix_append s.callbacks _
  · intro events t hown hr hwork hnotify
    obtain ⟨⟨done', h'⟩, haccepted⟩ := own_kept hown h hr
    rw [← haccepted]
    exact h'.rest hwork hnotify

/-! ### The shutdown that overtakes -/

theorem number_ne (hnumbered : s.accepted.map DatabaseTask.number =
    List.range s.accepted.length) (before after : List DatabaseTask)
    (haccepted : s.accepted = before ++ task :: after) : task ∉ after := by
  intro hmem
  have hnodup : (s.accepted.map DatabaseTask.number).Nodup := by
    rw [hnumbered]
    exact List.nodup_range
  rw [haccepted, List.map_append, List.map_cons] at hnodup
  have hlater := (List.nodup_cons.1 (List.nodup_append.1 hnodup).2.1).1
  exact hlater (List.mem_map.2 ⟨task, hmem, rfl⟩)

/-- Where the shutdown overtakes a task, the marks are out of order; where it overtakes a callback,
the callbacks are. -/
theorem State.Kept.overtaken (h : s.Kept done) (hwaits : ¬ s.Waits .shutdown) :
    ¬ s.shutdown.Ordered := by
  rw [shutdown_eq]
  intro hordered
  have haccepted := h.accepted
  have hmarks : s.marks ++ serial s.tasks <+: serial s.accepted := hordered.marks
  have hcallbacks : s.callbacks ++ posted s.tasks <+: posted s.accepted := hordered.callbacks
  rw [h.accepted, List.append_assoc, serial_append, h.marks, List.append_assoc,
    List.prefix_append_right_inj] at hmarks
  rw [h.accepted, List.append_assoc, posted_append, ← h.callbacks, List.append_assoc,
    List.prefix_append_right_inj] at hcallbacks
  apply hwaits
  constructor
  · by_contra hboth
    obtain ⟨hflight, htasks⟩ := not_or.1 hboth
    obtain ⟨first, rest, hfirst⟩ := List.exists_cons_of_ne_nil htasks
    cases hworker : s.worker with
    | popped task =>
        rw [hworker, hfirst] at hmarks haccepted
        have heq : first = task := by
          simpa [Worker.begun, Worker.inFlight, serial_cons] using
            (List.cons_prefix_cons.1 hmarks).1
        refine number_ne h.numbered done (first :: rest) (?_ : _ = done ++ task :: _)
          (by rw [heq]; exact List.mem_cons_self)
        rw [haccepted]
        simp [Worker.inFlight]
    | executing task =>
        rw [hworker, hfirst] at hmarks
        have hnext := (List.cons_prefix_cons.1 (List.cons_prefix_cons.1 hmarks).2).1
        cases hnext
    | _ =>
        rw [hworker] at hflight
        exact hflight rfl
  · by_contra hboth
    obtain ⟨hunposted, hposted⟩ := not_or.1 hboth
    obtain ⟨first, rest, hfirst⟩ := List.exists_cons_of_ne_nil hposted
    cases hworker : s.worker with
    | executed task =>
        rw [hworker] at hunposted hcallbacks haccepted
        have hsome : posted [task] = [task] := by
          rw [posted_singleton]
          refine if_pos (by_contra fun hcallback => hunposted ?_)
          rw [Worker.unposted, posted_singleton, if_neg hcallback]
        rw [hfirst, Worker.unposted, hsome] at hcallbacks
        have heq : first = task := (List.cons_prefix_cons.1 hcallbacks).1
        have hnew : task ∉ s.tasks := by
          have hdone : task ∈ posted done := by
            rw [← h.callbacks, hworker, Worker.unposted, hsome]
            exact List.mem_append_right s.callbacks List.mem_cons_self
          obtain ⟨before, after, hsplit⟩ := List.append_of_mem (List.mem_filter.1 hdone).1
          intro hmem
          refine number_ne h.numbered before (after ++ s.tasks) ?_
            (List.mem_append_right after hmem)
          rw [haccepted, hsplit]
          simp [Worker.inFlight]
        refine hnew (List.mem_filter.1 (?_ : task ∈ posted s.tasks)).1
        rw [hfirst, heq]
        exact List.mem_cons_self
    | _ =>
        rw [hworker] at hunposted
        exact hunposted rfl

/-! ### Runs -/

theorem not_ordered_of_not_waits (h : s.Kept done) (hwaits : ¬ s.Waits event)
    (hr : s.perform event = some s') : ¬ s'.Ordered := by
  cases event with
  | shutdown =>
      cases hr
      exact h.overtaken hwaits
  | _ => exact absurd trivial hwaits

theorem kept_start : ({} : State).Kept [] :=
  ⟨rfl, rfl, rfl, fun _ hsome => absurd rfl hsome, fun hended => (by cases hended),
    fun _ => rfl, rfl⟩

/-- In a run from the start, the tasks are in order in every state if and only if no shutdown
overtakes the worker. -/
theorem tasks_in_order_iff (events : List Event) (hr : run State.perform {} events = some s') :
    Throughout State.perform State.Ordered {} events ↔
      Allowed State.perform State.Waits {} events :=
  throughout_iff (I := fun s => ∃ done, s.Kept done) ⟨[], kept_start⟩
    (fun _ ⟨_, h⟩ => h.ordered) (fun _ _ _ ⟨_, h⟩ hwaits hs => h.perform hwaits hs)
    (fun _ _ _ ⟨_, h⟩ hwaits hs => not_ordered_of_not_waits h hwaits hs) hr

namespace Sample

/-- The worker has taken the insertion out when the shutdown comes. -/
def insertion : List Event :=
  [.work, .addTask "INSERT" false false, .addTask "DELETE" false false, .work, .shutdown, .work,
    .work]

theorem insertion_in_order_iff : Throughout State.perform State.Ordered {} insertion ↔
    Allowed State.perform State.Waits {} insertion :=
  tasks_in_order_iff insertion rfl

/-- The shutdown executes the deletion before the insertion. -/
theorem insertion_overtaken : ¬ ∀ events : List Event,
    Throughout State.perform State.Ordered {} events := by
  intro hclaim
  obtain ⟨later, hlater⟩ := (hclaim insertion insertion [] rfl _ rfl).marks
  have hfirst := (List.cons.inj hlater).1
  exact absurd hfirst (by decide)

end Sample

end TibServer.DatabaseTasks
