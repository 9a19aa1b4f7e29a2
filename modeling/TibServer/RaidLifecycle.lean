import TibServer.Raids

/-!
The lifecycle of raids. At most one raid executes, it is the one that is running, and its event
keeps it going until it is reset, in a run in which each raid that starts has an event and each
`clear` finds the raid that runs in the list and its event in the scheduler.
-/

namespace TibServer.Raids

open TibServer.Runs

/-! ### What is required -/

/-- The raids whose events are scheduled, or handed to the dispatcher. -/
def State.pending (s : State) : List Nat :=
  s.scheduled.filterMap (fun entry => entry.task.raid?) ++ s.dispatched.filterMap Task.raid?

/-- What happens while a raid runs: its event becomes due, and the dispatcher goes on. -/
def State.Own (s : State) (event : Event) : Prop :=
  s.running ≠ none ∧
    match event with
    | .fire i => ∃ entry, s.scheduled[i]? = some entry ∧ entry.task.raid? ≠ none
    | .dispatch _ _ _ => True
    | _ => False

structure State.Lifecycle (s : State) : Prop where
  /-- At most one raid is executing. -/
  single : ∀ r r' raid raid', s.memory r = some raid → s.memory r' = some raid' →
    raid.state = .EXECUTING → raid'.state = .EXECUTING → r = r'
  /-- The event of exactly the running raid is pending. -/
  pends : ∀ r, s.running = some r → s.pending = [r]
  /-- The running raid goes on. -/
  goesOn : s.running ≠ none → ∃ event, s.Own event ∧ (s.perform event).isSome
  /-- It does not go on for ever. -/
  resets : ∃ bound, ∀ events, Allowed State.perform State.Own s events →
    (run State.perform s events).isSome → events.length ≤ bound
  /-- After `clear` no event is pending. -/
  cleared : s.loaded = false → s.pending = []

/-- A raid that starts has an event; `clear` finds the running raid in the list, and its event still
with the scheduler. -/
def State.Keeps (s : State) : Event → Prop
  | .dispatch now draw _ => s.dispatched.head? = some .checkRaids → s.running = none →
      ∀ r raid, s.raidList.find? (s.due now draw) = some r → s.memory r = some raid →
        raid.raidEvents ≠ []
  | .clear => (∀ r, s.running = some r → r ∈ s.raidList) ∧
      s.dispatched.filterMap Task.raid? = []
  | _ => True

/-! ### The invariant -/

/-- The events of raids have ids of their own, which their raids know. -/
structure State.Named (s : State) : Prop where
  bounded : ∀ entry ∈ s.scheduled, entry.eventId ≤ s.lastEventId
  positive : ∀ entry ∈ s.scheduled, 0 < entry.eventId
  known : ∀ r raid, s.memory r = some raid → raid.nextEventEvent ≤ s.lastEventId
  check : s.checkRaidsEvent ≤ s.lastEventId
  notCheck : ∀ entry ∈ s.scheduled, entry.task.raid? ≠ none → entry.eventId ≠ s.checkRaidsEvent
  owner : ∀ entry ∈ s.scheduled, ∀ r, entry.task.raid? = some r → ∀ r' raid',
    s.memory r' = some raid' → (raid'.nextEventEvent = entry.eventId ↔ r' = r)

/-- The raid that runs is executing, and its event is pending. -/
def Raid.Runs (raid : Raid) : Prop :=
  raid.state = .EXECUTING ∧ raid.nextEvent < raid.raidEvents.length

def Raid.Idle (raid : Raid) : Prop := raid.state = .IDLE ∧ raid.nextEvent = 0

structure State.Inv (s : State) : Prop where
  named : s.Named
  fresh : ∀ r, s.allocated ≤ r → s.memory r = none
  idle : ∀ r raid, s.memory r = some raid → s.running ≠ some r → raid.Idle
  runs : ∀ r, s.running = some r → (∃ raid, s.memory r = some raid ∧ raid.Runs) ∧ s.pending = [r]
  rests : s.running = none → s.pending = []

/-- Where no raids are loaded, none is in the list and none runs. -/
def State.Closed (s : State) : Prop := s.loaded = false → s.running = none ∧ s.raidList = []

variable {s s' t : State} {event : Event} {events : List Event} {r : Nat} {raid : Raid}

/-! ### Names -/

/-- Nothing new is scheduled, and the raids that are left keep the ids of their events. -/
theorem State.Named.of_less (h : s.Named) (hs : ∀ entry ∈ t.scheduled, entry ∈ s.scheduled)
    (hm : ∀ r raid', t.memory r = some raid' →
      ∃ raid, s.memory r = some raid ∧ raid'.nextEventEvent = raid.nextEventEvent)
    (hid : t.lastEventId = s.lastEventId)
    (hcheck : t.checkRaidsEvent = s.checkRaidsEvent ∨ t.checkRaidsEvent = 0) : t.Named := by
  refine ⟨fun entry hentry => ?_, fun entry hentry => h.positive entry (hs entry hentry),
    fun r raid' hraid' => ?_, ?_, fun entry hentry hsome => ?_,
    fun entry hentry r hr r' raid' hraid' => ?_⟩
  · rw [hid]
    exact h.bounded entry (hs entry hentry)
  · obtain ⟨raid, hraid, heq⟩ := hm r raid' hraid'
    rw [heq, hid]
    exact h.known r raid hraid
  · rw [hid]
    rcases hcheck with heq | hzero
    · exact heq ▸ h.check
    · exact hzero ▸ Nat.zero_le _
  · rcases hcheck with heq | hzero
    · exact heq ▸ h.notCheck entry (hs entry hentry) hsome
    · have hpositive := h.positive entry (hs entry hentry)
      omega
  · obtain ⟨raid, hraid, heq⟩ := hm r' raid' hraid'
    rw [heq]
    exact h.owner entry (hs entry hentry) r hr r' raid hraid

theorem State.Named.scheduleCheck (h : s.Named) : s.scheduleCheck.Named := by
  have hmem : ∀ entry ∈ s.scheduleCheck.scheduled, entry ∈ s.scheduled ∨
      entry.eventId = s.lastEventId + 1 ∧ entry.task.raid? = none := by
    intro entry hentry
    rcases List.mem_append.1 hentry with hold | hnew
    · exact .inl hold
    · rw [List.mem_singleton.1 hnew]
      exact .inr ⟨rfl, rfl⟩
  refine ⟨fun entry hentry => ?_, fun entry hentry => ?_,
    fun r raid hraid => Nat.le_succ_of_le (h.known r raid hraid), le_rfl,
    fun entry hentry hsome => ?_, fun entry hentry r hr => ?_⟩
  · rcases hmem entry hentry with hold | ⟨hid, -⟩
    · exact Nat.le_succ_of_le (h.bounded entry hold)
    · exact le_of_eq hid
  · rcases hmem entry hentry with hold | ⟨hid, -⟩
    · exact h.positive entry hold
    · omega
  · rcases hmem entry hentry with hold | ⟨-, hnone⟩
    · have hbounded := h.bounded entry hold
      change entry.eventId ≠ s.lastEventId + 1
      omega
    · exact absurd hnone hsome
  · rcases hmem entry hentry with hold | ⟨-, hnone⟩
    · exact h.owner entry hold r hr
    · rw [hnone] at hr
      cases hr

/-- The new event is the only one of a raid. -/
theorem State.Named.addRaidEvent (h : s.Named)
    (hnone : ∀ entry ∈ s.scheduled, entry.task.raid? = none) (delay : BitVec 32)
    (raidEvent : RaidEvent) : (s.addRaidEvent r raid delay raidEvent).Named := by
  have hmem : ∀ entry ∈ (s.addRaidEvent r raid delay raidEvent).scheduled,
      (entry ∈ s.scheduled ∧ entry.task.raid? = none) ∨
        entry.eventId = s.lastEventId + 1 ∧ entry.task.raid? = some r := by
    intro entry hentry
    rcases List.mem_append.1 hentry with hold | hnew
    · exact .inl ⟨hold, hnone entry hold⟩
    · rw [List.mem_singleton.1 hnew]
      exact .inr ⟨rfl, rfl⟩
  have hraids : ∀ r' raid', (s.addRaidEvent r raid delay raidEvent).memory r' = some raid' →
      (r' = r ∧ raid'.nextEventEvent = s.lastEventId + 1) ∨
        r' ≠ r ∧ raid'.nextEventEvent ≤ s.lastEventId := by
    intro r' raid' hraid'
    change Function.update s.memory r _ r' = some raid' at hraid'
    by_cases heq : r' = r
    · rw [heq, Function.update_self] at hraid'
      cases hraid'
      exact .inl ⟨heq, rfl⟩
    · rw [Function.update_of_ne heq] at hraid'
      exact .inr ⟨heq, h.known r' raid' hraid'⟩
  refine ⟨fun entry hentry => ?_, fun entry hentry => ?_, fun r' raid' hraid' => ?_,
    Nat.le_succ_of_le h.check, fun entry hentry hsome => ?_,
    fun entry hentry r₁ hr₁ r' raid' hraid' => ?_⟩
  · rcases hmem entry hentry with ⟨hold, -⟩ | ⟨hid, -⟩
    · exact Nat.le_succ_of_le (h.bounded entry hold)
    · exact le_of_eq hid
  · rcases hmem entry hentry with ⟨hold, -⟩ | ⟨hid, -⟩
    · exact h.positive entry hold
    · omega
  · change raid'.nextEventEvent ≤ s.lastEventId + 1
    rcases hraids r' raid' hraid' with ⟨-, hid⟩ | ⟨-, hid⟩
    · exact le_of_eq hid
    · exact Nat.le_succ_of_le hid
  · rcases hmem entry hentry with ⟨-, hempty⟩ | ⟨hid, -⟩
    · exact absurd hempty hsome
    · have hcheck := h.check
      change entry.eventId ≠ s.checkRaidsEvent
      omega
  · rcases hmem entry hentry with ⟨-, hempty⟩ | ⟨hid, hraid⟩
    · rw [hempty] at hr₁
      cases hr₁
    · obtain rfl : r = r₁ := Option.some.inj (hraid.symm.trans hr₁)
      rw [hid]
      rcases hraids r' raid' hraid' with ⟨heq, hid'⟩ | ⟨hne, hid'⟩
      · exact iff_of_true hid' heq
      · exact iff_of_false (by omega) hne

/-! ### Pending events -/

theorem pending_eq_nil : s.pending = [] ↔
    (∀ entry ∈ s.scheduled, entry.task.raid? = none) ∧
      s.dispatched.filterMap Task.raid? = [] := by
  rw [State.pending, List.append_eq_nil_iff, List.filterMap_eq_nil_iff]

theorem pending_scheduleCheck : s.scheduleCheck.pending = s.pending := by
  simp [State.pending, State.scheduleCheck, State.addEvent]

theorem pending_addRaidEvent (hpending : s.pending = []) (delay : BitVec 32)
    (raidEvent : RaidEvent) : (s.addRaidEvent r raid delay raidEvent).pending = [r] := by
  obtain ⟨hscheduled, hdispatched⟩ := pending_eq_nil.1 hpending
  have hold := List.filterMap_eq_nil_iff.2 hscheduled
  simp [State.pending, State.addRaidEvent, State.addEvent, State.setRaid, hold, hdispatched]

theorem pending_fire {i : Nat} (hr : s.fire i = some s') : s'.pending.Perm s.pending := by
  rw [State.fire] at hr
  split at hr
  · next entry hentry =>
      cases hr
      obtain ⟨hi, rfl⟩ := List.getElem?_eq_some_iff.1 hentry
      have herase := (List.getElem_cons_eraseIdx_perm hi).filterMap fun entry => entry.task.raid?
      rw [List.filterMap_cons] at herase
      simp only [State.pending, List.filterMap_append, List.filterMap_cons, List.filterMap_nil]
      cases htask : s.scheduled[i].task.raid? with
      | none =>
          rw [htask] at herase
          rw [List.append_nil]
          exact herase.append_right _
      | some r =>
          rw [htask] at herase
          refine .trans ?_ (herase.append_right _)
          rw [← List.append_assoc, List.cons_append]
          exact List.perm_append_singleton r _
  · cases hr

/-! ### The steps -/

theorem State.Inv.scheduleCheck (h : s.Inv) : s.scheduleCheck.Inv := by
  refine ⟨h.named.scheduleCheck, h.fresh, h.idle, ?_, ?_⟩
  · rw [pending_scheduleCheck]
    exact h.runs
  · rw [pending_scheduleCheck]
    exact h.rests

/-- Between two events of the raid nothing is pending. -/
structure State.Between (s : State) (r : Nat) : Prop where
  named : s.Named
  fresh : ∀ r, s.allocated ≤ r → s.memory r = none
  others : ∀ r' raid', s.memory r' = some raid' → r' ≠ r → raid'.Idle
  exists_raid : s.memory r ≠ none
  pending : s.pending = []

theorem State.Between.addRaidEvent (h : s.Between r) (hrunning : s.running = some r)
    (hruns : raid.Runs) (delay : BitVec 32) (raidEvent : RaidEvent) :
    (s.addRaidEvent r raid delay raidEvent).Inv := by
  refine ⟨h.named.addRaidEvent (pending_eq_nil.1 h.pending).1 delay raidEvent,
    fun r' hr' => ?_, fun r' raid' hraid' hother => ?_, fun r' hr' => ?_, fun hnone => ?_⟩
  · change Function.update s.memory r _ r' = none
    have hne : r' ≠ r := by
      rintro rfl
      exact h.exists_raid (h.fresh r' hr')
    rw [Function.update_of_ne hne]
    exact h.fresh r' hr'
  · have hne : r' ≠ r := by
      rintro rfl
      exact hother hrunning
    change Function.update s.memory r _ r' = some raid' at hraid'
    rw [Function.update_of_ne hne] at hraid'
    exact h.others r' raid' hraid' hne
  · obtain rfl : r = r' := Option.some.inj (hrunning.symm.trans hr')
    refine ⟨⟨{ raid with nextEventEvent := s.lastEventId + 1 }, ?_, hruns⟩,
      pending_addRaidEvent h.pending delay raidEvent⟩
    exact Function.update_self r _ s.memory
  · have hnone' : s.running = none := hnone
    rw [hrunning] at hnone'
    cases hnone'

theorem State.Between.resetRaid (h : s.Between r) (hraid : s.memory r = some raid)
    (now : BitVec 64) (n : Nat) :
    (s.resetRaid r { raid with nextEvent := n } now).Inv := by
  have hmemory : ∀ r' raid',
      (s.resetRaid r { raid with nextEvent := n } now).memory r' = some raid' →
      (r' = r ∧ raid' = { raid with nextEvent := 0, state := .IDLE }) ∨
        r' ≠ r ∧ s.memory r' = some raid' := by
    intro r' raid' hraid'
    change Function.update s.memory r _ r' = some raid' at hraid'
    by_cases heq : r' = r
    · rw [heq, Function.update_self] at hraid'
      exact .inl ⟨heq, (Option.some.inj hraid').symm⟩
    · rw [Function.update_of_ne heq] at hraid'
      exact .inr ⟨heq, hraid'⟩
  refine ⟨h.named.of_less (fun entry => id) (fun r' raid' hraid' => ?_) rfl (.inl rfl),
    fun r' hr' => ?_, fun r' raid' hraid' _ => ?_, fun r' hr' => (by cases hr'),
    fun _ => h.pending⟩
  · rcases hmemory r' raid' hraid' with ⟨rfl, rfl⟩ | ⟨-, hold⟩
    · exact ⟨raid, hraid, rfl⟩
    · exact ⟨raid', hold, rfl⟩
  · change Function.update s.memory r _ r' = none
    have hne : r' ≠ r := by
      rintro rfl
      exact h.exists_raid (h.fresh r' hr')
    rw [Function.update_of_ne hne]
    exact h.fresh r' hr'
  · rcases hmemory r' raid' hraid' with ⟨-, rfl⟩ | ⟨hne, hold⟩
    · exact ⟨rfl, rfl⟩
    · exact h.others r' raid' hold hne

/-- The next event of the raid, or its end. -/
theorem State.Between.executeRaidEvent (h : s.Between r) (hraid : s.memory r = some raid)
    (hrunning : s.running = some r) (hruns : raid.Runs) (raidEvent : RaidEvent) (done : Bool)
    (now : BitVec 64) : (s.executeRaidEvent r raid raidEvent done now).Inv := by
  rw [State.executeRaidEvent]
  split
  · dsimp only
    split
    · next newRaidEvent hnext =>
        obtain ⟨hlength, -⟩ := List.getElem?_eq_some_iff.1 hnext
        have hruns' : Raid.Runs { raid with nextEvent := raid.nextEvent + 1 } :=
          ⟨hruns.1, hlength⟩
        exact h.addRaidEvent hrunning hruns' _ _
    · exact h.resetRaid hraid now (raid.nextEvent + 1)
  · exact h.resetRaid hraid now raid.nextEvent

/-- A raid that is found has an event, and starts with it. -/
theorem State.Inv.beginRaid (h : s.Inv) (hrunning : s.running = none) (now : BitVec 64)
    (draw : Nat → Nat) (hevents : ∀ r raid, s.raidList.find? (s.due now draw) = some r →
      s.memory r = some raid → raid.raidEvents ≠ []) : (s.beginRaid now draw).Inv := by
  rw [State.beginRaid]
  split
  · next r hfind =>
      split
      · next raid hraid =>
          obtain ⟨hstate, hnext⟩ := h.idle r raid hraid
            (by rw [hrunning]; exact (Option.some_ne_none r).symm)
          obtain ⟨raidEvent, rest, hcons⟩ := List.exists_cons_of_ne_nil (hevents r raid hfind hraid)
          have hbetween : ({ s with running := some r } : State).Between r :=
            ⟨h.named.of_less (fun entry => id) (fun r' raid' hraid' => ⟨raid', hraid', rfl⟩) rfl
              (.inl rfl), h.fresh,
              fun r' raid' hraid' _ =>
                h.idle r' raid' hraid' (by rw [hrunning]; exact (Option.some_ne_none r').symm),
              by rw [hraid]; exact Option.some_ne_none raid, h.rests hrunning⟩
          have hstart : ({ s with running := some r }.startRaid r raid).Inv := by
            simp only [State.startRaid, hnext, hcons, List.getElem?_cons_zero]
            exact hbetween.addRaidEvent rfl ⟨rfl, Nat.succ_pos _⟩ _ _
          dsimp only
          split
          · exact hstart
          · exact ⟨hstart.named.of_less (fun entry => id)
              (fun r' raid' hraid' => ⟨raid', hraid', rfl⟩) rfl (.inl rfl), hstart.fresh,
              hstart.idle, hstart.runs, hstart.rests⟩
      · exact h
  · exact h

theorem State.Inv.fire (h : s.Inv) {i : Nat} (hr : s.fire i = some s') : s'.Inv := by
  have hpending := pending_fire hr
  rw [State.fire] at hr
  split at hr
  · next entry hentry =>
      cases hr
      refine ⟨h.named.of_less (fun entry => List.mem_of_mem_eraseIdx)
        (fun r' raid' hraid' => ⟨raid', hraid', rfl⟩) rfl (.inl rfl), h.fresh, h.idle,
        fun r hrunning => ?_, fun hnone => ?_⟩
      · obtain ⟨hraid, hone⟩ := h.runs r hrunning
        rw [hone] at hpending
        exact ⟨hraid, List.perm_singleton.1 hpending⟩
      · rw [h.rests hnone] at hpending
        exact List.perm_nil.1 hpending
  · cases hr

/-- The task of the raid that runs leaves nothing pending. -/
theorem State.Inv.between (h : s.Inv) {raidEvent : RaidEvent} {rest : List Task}
    (hdispatched : s.dispatched = .executeRaidEvent r raidEvent :: rest) :
    s.running = some r ∧ ({ s with dispatched := rest } : State).Between r := by
  have hmem : r ∈ s.pending := by
    rw [State.pending, hdispatched]
    exact List.mem_append_right _ List.mem_cons_self
  cases hrunning : s.running with
  | none =>
      rw [h.rests hrunning] at hmem
      cases hmem
  | some r' =>
      obtain ⟨⟨raid, hraid, -⟩, hone⟩ := h.runs r' hrunning
      rw [hone] at hmem
      obtain rfl : r = r' := List.mem_singleton.1 hmem
      refine ⟨rfl, h.named.of_less (fun entry => id)
        (fun r' raid' hraid' => ⟨raid', hraid', rfl⟩) rfl (.inl rfl), h.fresh,
        fun r' raid' hraid' hne => h.idle r' raid' hraid' ?_,
        by rw [hraid]; exact Option.some_ne_none raid, ?_⟩
      · rw [hrunning]
        exact fun heq => hne (Option.some.inj heq).symm
      · rw [State.pending, hdispatched, List.filterMap_cons,
          Task.raid?_executeRaidEvent] at hone
        have hlength := congrArg List.length hone
        simp only [List.length_append, List.length_cons, List.length_nil] at hlength
        apply List.eq_nil_of_length_eq_zero
        rw [State.pending, List.length_append]
        dsimp only
        omega

/-- A new raid is idle, and its event is none that is scheduled. -/
theorem State.Inv.newRaid (h : s.Inv) (node : RaidNode) : (s.newRaid node).Inv := by
  rw [State.newRaid]
  split
  · exact h
  · dsimp only
    generalize hnew : Raid.mk node.raidEvents node.interval node.margin node.canBeRepeated 0
      .IDLE 0 = new
    have hmemory : ∀ r' raid', Function.update s.memory s.allocated (some new) r' = some raid' →
        (r' = s.allocated ∧ raid' = new) ∨ r' ≠ s.allocated ∧ s.memory r' = some raid' := by
      intro r' raid' hraid'
      by_cases heq : r' = s.allocated
      · rw [heq, Function.update_self] at hraid'
        exact .inl ⟨heq, (Option.some.inj hraid').symm⟩
      · rw [Function.update_of_ne heq] at hraid'
        exact .inr ⟨heq, hraid'⟩
    have hallocated : ∀ r, s.running = some r → r ≠ s.allocated := by
      rintro r hrunning rfl
      obtain ⟨⟨raid, hraid, -⟩, -⟩ := h.runs s.allocated hrunning
      rw [h.fresh s.allocated le_rfl] at hraid
      cases hraid
    refine ⟨⟨h.named.bounded, h.named.positive, fun r' raid' hraid' => ?_, h.named.check,
      h.named.notCheck, fun entry hentry r hr r' raid' hraid' => ?_⟩, fun r' hr' => ?_,
      fun r' raid' hraid' hother => ?_, fun r hrunning => ?_, h.rests⟩
    · rcases hmemory r' raid' hraid' with ⟨-, rfl⟩ | ⟨-, hold⟩
      · exact hnew ▸ Nat.zero_le _
      · exact h.named.known r' raid' hold
    · rcases hmemory r' raid' hraid' with ⟨rfl, rfl⟩ | ⟨-, hold⟩
      · have hpositive := h.named.positive entry hentry
        have hpending : r ∈ s.pending :=
          List.mem_append_left _ (List.mem_filterMap.2 ⟨entry, hentry, hr⟩)
        refine iff_of_false (by rw [← hnew]; dsimp only; omega) fun heq => ?_
        cases hrunning : s.running with
        | none =>
            rw [h.rests hrunning] at hpending
            cases hpending
        | some r' =>
            rw [(h.runs r' hrunning).2] at hpending
            exact hallocated r' hrunning (heq.trans (List.mem_singleton.1 hpending)).symm
      · exact h.named.owner entry hentry r hr r' raid' hold
    · change Function.update s.memory s.allocated (some new) r' = none
      have hlater : s.allocated + 1 ≤ r' := hr'
      rw [Function.update_of_ne (by omega)]
      exact h.fresh r' (by omega)
    · rcases hmemory r' raid' hraid' with ⟨-, rfl⟩ | ⟨-, hold⟩
      · exact hnew ▸ ⟨rfl, rfl⟩
      · exact h.idle r' raid' hold hother
    · obtain ⟨⟨raid, hraid, hruns⟩, hpending⟩ := h.runs r hrunning
      refine ⟨⟨raid, ?_, hruns⟩, hpending⟩
      change Function.update s.memory s.allocated (some new) r = some raid
      rw [Function.update_of_ne (hallocated r hrunning)]
      exact hraid

theorem State.Inv.loadFromXml (h : s.Inv) (raids : List RaidNode) : (s.loadFromXml raids).Inv := by
  have hfold : ∀ s : State, s.Inv → (raids.foldl State.newRaid s).Inv := by
    induction raids with
    | nil => exact fun s => id
    | cons node raids ih => exact fun s h => ih (s.newRaid node) (h.newRaid node)
  rw [State.loadFromXml]
  split
  · exact h
  · have hloaded := hfold s h
    exact ⟨hloaded.named.of_less (fun entry => id) (fun r' raid' hraid' => ⟨raid', hraid', rfl⟩)
      rfl (.inl rfl), hloaded.fresh, hloaded.idle, hloaded.runs, hloaded.rests⟩

theorem State.Inv.startup (h : s.Inv) (now : BitVec 64) : (s.startup now).Inv := by
  rw [State.startup]
  split
  · exact h
  · have hended : ({ s with lastRaidEnd := now } : State).Inv :=
      ⟨h.named.of_less (fun entry => id) (fun r' raid' hraid' => ⟨raid', hraid', rfl⟩) rfl
        (.inl rfl), h.fresh, h.idle, h.runs, h.rests⟩
    have hstarted := hended.scheduleCheck
    exact ⟨hstarted.named.of_less (fun entry => id)
      (fun r' raid' hraid' => ⟨raid', hraid', rfl⟩) rfl (.inl rfl), hstarted.fresh,
      hstarted.idle, hstarted.runs, hstarted.rests⟩

/-! ### `clear` -/

theorem deleteRaid_memory (r r' : Nat) :
    (s.deleteRaid r).memory r' = if r' = r then none else s.memory r' := by
  rw [State.deleteRaid]
  split
  · next raid hraid =>
      change Function.update (s.stopEvents raid).memory r none r' = _
      have hstop : (s.stopEvents raid).memory = s.memory := by
        rw [State.stopEvents]
        split
        · rfl
        · rfl
      rw [hstop, Function.update_apply]
  · next hnone =>
      split
      · next heq => rw [heq, hnone]
      · rfl

theorem mem_deleteRaid (entry : SchedulerTask) : entry ∈ (s.deleteRaid r).scheduled ↔
    entry ∈ s.scheduled ∧ ∀ raid, s.memory r = some raid → raid.nextEventEvent ≠ 0 →
      entry.eventId ≠ raid.nextEventEvent := by
  rw [State.deleteRaid]
  split
  · next raid hraid =>
      rw [hraid]
      change entry ∈ (s.stopEvents raid).scheduled ↔ _
      rw [State.stopEvents]
      split
      · next hsome =>
          simp only [State.stopEvent, List.mem_filter, decide_eq_true_eq]
          refine and_congr_right fun _ => ⟨fun hne raid' heq _ => ?_, fun hne => hne raid rfl hsome⟩
          obtain rfl := Option.some.inj heq
          exact hne
      · next hzero =>
          refine (and_iff_left fun raid' heq hsome => ?_).symm
          obtain rfl := Option.some.inj heq
          exact absurd hsome hzero
  · next hnone =>
      refine (and_iff_left fun raid hraid => ?_).symm
      rw [hnone] at hraid
      cases hraid

/-- What the loop of `clear` leaves: no raid of the list, and what is scheduled for others. -/
theorem foldl_deleteRaid (list : List Nat) (s : State) :
    (∀ r, (list.foldl State.deleteRaid s).memory r = if r ∈ list then none else s.memory r) ∧
    (∀ entry, entry ∈ (list.foldl State.deleteRaid s).scheduled ↔ entry ∈ s.scheduled ∧
      ∀ r ∈ list, ∀ raid, s.memory r = some raid → raid.nextEventEvent ≠ 0 →
        entry.eventId ≠ raid.nextEventEvent) ∧
    (list.foldl State.deleteRaid s).lastEventId = s.lastEventId ∧
    (list.foldl State.deleteRaid s).allocated = s.allocated ∧
    (list.foldl State.deleteRaid s).dispatched = s.dispatched := by
  induction list generalizing s with
  | nil => simp
  | cons r list ih =>
      obtain ⟨hmemory, hscheduled, hid, hallocated, hdispatched⟩ := ih (s.deleteRaid r)
      have hframe : (s.deleteRaid r).lastEventId = s.lastEventId ∧
          (s.deleteRaid r).allocated = s.allocated ∧
          (s.deleteRaid r).dispatched = s.dispatched := by
        rw [State.deleteRaid]
        split
        · next raid hraid =>
            simp only [State.setRaid, State.stopEvents]
            split
            · exact ⟨rfl, rfl, rfl⟩
            · exact ⟨rfl, rfl, rfl⟩
        · exact ⟨rfl, rfl, rfl⟩
      rw [List.foldl_cons]
      refine ⟨fun r' => ?_, fun entry => ?_, hid.trans hframe.1, hallocated.trans hframe.2.1,
        hdispatched.trans hframe.2.2⟩
      · rw [hmemory, deleteRaid_memory]
        by_cases heq : r' = r
        · simp [heq]
        · simp [heq]
      · rw [hscheduled, mem_deleteRaid, and_assoc, List.forall_mem_cons]
        refine and_congr_right fun _ => and_congr_right fun hfirst => ?_
        refine forall₃_congr fun r' _ raid => ?_
        rw [deleteRaid_memory]
        by_cases heq : r' = r
        · rw [if_pos heq, heq]
          exact iff_of_true (fun hnone => by cases hnone) (hfirst raid)
        · rw [if_neg heq]

theorem clear_memory (r : Nat) :
    s.clear.memory r = if r ∈ s.raidList then none else s.memory r :=
  (foldl_deleteRaid s.raidList (s.stopEvent s.checkRaidsEvent)).1 r

theorem mem_clear (entry : SchedulerTask) : entry ∈ s.clear.scheduled ↔
    (entry ∈ s.scheduled ∧ entry.eventId ≠ s.checkRaidsEvent) ∧
      ∀ r ∈ s.raidList, ∀ raid, s.memory r = some raid → raid.nextEventEvent ≠ 0 →
        entry.eventId ≠ raid.nextEventEvent := by
  have hmem := (foldl_deleteRaid s.raidList (s.stopEvent s.checkRaidsEvent)).2.1 entry
  have hstop : entry ∈ (s.stopEvent s.checkRaidsEvent).scheduled ↔
      entry ∈ s.scheduled ∧ entry.eventId ≠ s.checkRaidsEvent := by
    simp only [State.stopEvent, List.mem_filter, decide_eq_true_eq]
  rw [hstop] at hmem
  exact hmem

theorem clear_dispatched : s.clear.dispatched = s.dispatched :=
  (foldl_deleteRaid s.raidList (s.stopEvent s.checkRaidsEvent)).2.2.2.2

/-- An event that is scheduled is that of the running raid. -/
theorem State.Inv.running_of_mem (h : s.Inv) {entry : SchedulerTask} (hentry : entry ∈ s.scheduled)
    (hr : entry.task.raid? = some r) : s.running = some r ∧
      ∃ raid, s.memory r = some raid ∧ raid.nextEventEvent = entry.eventId := by
  have hmem : r ∈ s.pending :=
    List.mem_append_left _ (List.mem_filterMap.2 ⟨entry, hentry, hr⟩)
  cases hrunning : s.running with
  | none =>
      rw [h.rests hrunning] at hmem
      cases hmem
  | some r' =>
      obtain ⟨⟨raid, hraid, -⟩, hone⟩ := h.runs r' hrunning
      rw [hone] at hmem
      obtain rfl : r = r' := List.mem_singleton.1 hmem
      exact ⟨rfl, raid, hraid, (h.named.owner entry hentry r hr r raid hraid).2 rfl⟩

theorem State.Inv.clear (h : s.Inv) (hkeeps : s.Keeps .clear) : s.clear.Inv := by
  obtain ⟨hlisted, hdispatched⟩ := hkeeps
  obtain ⟨-, -, hid, hallocated, -⟩ :=
    foldl_deleteRaid s.raidList (s.stopEvent s.checkRaidsEvent)
  have hmemory : ∀ r raid, s.clear.memory r = some raid →
      r ∉ s.raidList ∧ s.memory r = some raid := by
    intro r raid hraid
    rw [clear_memory] at hraid
    split at hraid
    · cases hraid
    · next hnot => exact ⟨hnot, hraid⟩
  refine ⟨h.named.of_less (fun entry hentry => ((mem_clear entry).1 hentry).1.1)
    (fun r raid hraid => ⟨raid, (hmemory r raid hraid).2, rfl⟩) hid (.inr rfl), fun r hr => ?_,
    fun r raid hraid _ => ?_, fun r hr => (by cases hr), fun _ => ?_⟩
  · have hlater : s.allocated ≤ r := hallocated ▸ hr
    rw [clear_memory, h.fresh r hlater, ite_self]
  · obtain ⟨hnot, hold⟩ := hmemory r raid hraid
    exact h.idle r raid hold fun hrunning => hnot (hlisted r hrunning)
  · rw [pending_eq_nil, clear_dispatched]
    refine ⟨fun entry hentry => ?_, hdispatched⟩
    obtain ⟨⟨hold, -⟩, hstopped⟩ := (mem_clear entry).1 hentry
    by_contra hsome
    obtain ⟨r, hr⟩ := Option.ne_none_iff_exists'.1 hsome
    obtain ⟨hrunning, raid, hraid, heq⟩ := h.running_of_mem hold hr
    have hpositive := h.named.positive entry hold
    exact hstopped r (hlisted r hrunning) raid hraid (by omega) heq.symm

/-! ### Runs -/

theorem startRaid_loaded : (s.startRaid r raid).loaded = s.loaded := by
  rw [State.startRaid]
  split
  · rfl
  · rfl

theorem executeRaidEvent_loaded (raidEvent : RaidEvent) (done : Bool) (now : BitVec 64) :
    (s.executeRaidEvent r raid raidEvent done now).loaded = s.loaded := by
  rw [State.executeRaidEvent]
  split
  · dsimp only
    split
    · rfl
    · rfl
  · rfl

/-- A raid is found only where raids are loaded. -/
theorem State.Closed.beginRaid (h : s.Closed) (now : BitVec 64) (draw : Nat → Nat) :
    (s.beginRaid now draw).Closed := by
  rw [State.beginRaid]
  split
  · next r hfind =>
      split
      · next raid hraid =>
          have hstart : ({ s with running := some r }.startRaid r raid).loaded = s.loaded :=
            startRaid_loaded
          have hloaded : s.loaded = true := by
            by_contra hnot
            rw [(h (Bool.eq_false_iff.2 hnot)).2] at hfind
            cases hfind
          have hthere := hstart.trans hloaded
          dsimp only
          split
          · exact fun hnot => absurd hthere (Bool.eq_false_iff.1 hnot)
          · exact fun hnot => absurd hthere (Bool.eq_false_iff.1 hnot)
      · exact h
  · exact h

theorem State.Inv.perform (h : s.Inv) (hclosed : s.Closed) (hkeeps : s.Keeps event)
    (hr : s.perform event = some s') : s'.Inv ∧ s'.Closed := by
  cases event with
  | clear =>
      cases hr
      exact ⟨h.clear hkeeps, fun _ => ⟨rfl, rfl⟩⟩
  | loadFromXml raids =>
      cases hr
      refine ⟨h.loadFromXml raids, fun hloaded => ?_⟩
      rw [State.loadFromXml] at hloaded ⊢
      split at hloaded
      · next hthere =>
          rw [hthere] at hloaded
          cases hloaded
      · cases hloaded
  | startup now =>
      cases hr
      refine ⟨h.startup now, fun hloaded => ?_⟩
      rw [State.startup] at hloaded ⊢
      split at hloaded
      · next hnot =>
          rw [if_pos hnot]
          exact hclosed hloaded
      · next hnot =>
          rw [if_neg hnot]
          exact hclosed hloaded
  | fire i =>
      refine ⟨h.fire hr, ?_⟩
      simp only [State.perform, State.fire] at hr
      split at hr
      · cases hr
        exact hclosed
      · cases hr
  | dispatch now draw done =>
      simp only [State.perform, State.dispatch] at hr
      split at hr
      · next rest hdispatched =>
          cases hr
          have hrest : ({ s with dispatched := rest } : State).Inv := by
            refine ⟨h.named.of_less (fun entry => id)
              (fun r' raid' hraid' => ⟨raid', hraid', rfl⟩) rfl (.inl rfl), h.fresh, h.idle,
              fun r hrunning => ?_, fun hnone => ?_⟩
            · obtain ⟨hraid, hone⟩ := h.runs r hrunning
              rw [State.pending, hdispatched, List.filterMap_cons, Task.raid?_checkRaids] at hone
              exact ⟨hraid, hone⟩
            · have hnothing := h.rests hnone
              rw [State.pending, hdispatched, List.filterMap_cons,
                Task.raid?_checkRaids] at hnothing
              exact hnothing
          rw [State.checkRaids]
          split
          · next hnone =>
              refine ⟨(hrest.beginRaid hnone now draw fun r raid hfind hraid =>
                hkeeps (by rw [hdispatched]; rfl) hnone r raid hfind hraid).scheduleCheck, ?_⟩
              exact State.Closed.beginRaid (s := { s with dispatched := rest }) hclosed now draw
          · exact ⟨hrest.scheduleCheck, hclosed⟩
      · next r raidEvent rest hdispatched =>
          obtain ⟨hrunning, hbetween⟩ := h.between hdispatched
          obtain ⟨⟨raid, hraid, hruns⟩, -⟩ := h.runs r hrunning
          rw [hraid] at hr
          cases hr
          refine ⟨hbetween.executeRaidEvent hraid hrunning hruns raidEvent done now, ?_⟩
          intro hloaded
          rw [executeRaidEvent_loaded] at hloaded
          have hnone := (hclosed hloaded).1
          rw [hrunning] at hnone
          cases hnone
      · cases hr

/-! ### The raid comes to its end -/

/-- How far the running raid is from its end. -/
def State.distance (s : State) : Nat :=
  match s.running with
  | some r =>
      match s.memory r with
      | some raid => 3 * (raid.raidEvents.length - raid.nextEvent) +
          2 * (s.scheduled.filterMap fun entry => entry.task.raid?).length + s.dispatched.length
      | none => 0
  | none => 0

theorem distance_eq (s : State) (hrunning : s.running = some r) (hraid : s.memory r = some raid) :
    s.distance = 3 * (raid.raidEvents.length - raid.nextEvent) +
      2 * (s.scheduled.filterMap fun entry => entry.task.raid?).length + s.dispatched.length := by
  simp only [State.distance, hrunning, hraid]

theorem distance_addRaidEvent (s : State) (hrunning : s.running = some r)
    (hscheduled : s.scheduled.filterMap (fun entry => entry.task.raid?) = [])
    (delay : BitVec 32) (raidEvent : RaidEvent) :
    (s.addRaidEvent r raid delay raidEvent).distance =
      3 * (raid.raidEvents.length - raid.nextEvent) + 2 + s.dispatched.length := by
  have hraid : (s.addRaidEvent r raid delay raidEvent).memory r =
      some { raid with nextEventEvent := s.lastEventId + 1 } :=
    Function.update_self r _ s.memory
  rw [distance_eq (s.addRaidEvent r raid delay raidEvent) hrunning hraid]
  simp [State.addRaidEvent, State.addEvent, State.setRaid, hscheduled]

theorem distance_resetRaid (now : BitVec 64) : (s.resetRaid r raid now).distance = 0 := rfl

/-- Each step of the running raid brings it nearer to its end. -/
theorem State.Inv.own (h : s.Inv) (hown : s.Own event) (hr : s.perform event = some s') :
    s'.distance < s.distance := by
  obtain ⟨hsome, hevent⟩ := hown
  obtain ⟨r, hrunning⟩ := Option.ne_none_iff_exists'.1 hsome
  obtain ⟨⟨raid, hraid, hruns⟩, hpending⟩ := h.runs r hrunning
  rw [distance_eq s hrunning hraid]
  cases event with
  | fire i =>
      obtain ⟨entry, hentry, htask⟩ := hevent
      simp only [State.perform, State.fire, hentry] at hr
      cases hr
      obtain ⟨hi, rfl⟩ := List.getElem?_eq_some_iff.1 hentry
      obtain ⟨r', hr'⟩ := Option.ne_none_iff_exists'.1 htask
      have herase := ((List.getElem_cons_eraseIdx_perm hi).filterMap
        fun entry => entry.task.raid?).length_eq
      rw [List.filterMap_cons, hr', List.length_cons] at herase
      refine lt_of_eq_of_lt (distance_eq _ hrunning hraid) ?_
      simp only [List.length_append, List.length_cons, List.length_nil]
      omega
  | dispatch now draw done =>
      simp only [State.perform, State.dispatch] at hr
      split at hr
      · next rest hdispatched =>
          cases hr
          rw [State.checkRaids, if_neg (by rw [hrunning]; exact Option.some_ne_none r)]
          refine lt_of_eq_of_lt (distance_eq _ hrunning hraid) ?_
          simp only [State.scheduleCheck, State.addEvent, List.filterMap_append,
            List.filterMap_cons, Task.raid?_checkRaids, List.filterMap_nil, List.append_nil,
            hdispatched, List.length_cons]
          exact Nat.lt_succ_self _
      · next r' raidEvent rest hdispatched =>
          obtain ⟨hrunning', hbetween⟩ := h.between hdispatched
          obtain rfl : r = r' := Option.some.inj (hrunning.symm.trans hrunning')
          rw [hraid] at hr
          cases hr
          have hscheduled := List.filterMap_eq_nil_iff.2 (pending_eq_nil.1 hbetween.pending).1
          have hnext := hruns.2
          rw [State.executeRaidEvent, hdispatched, List.length_cons]
          split
          · dsimp only
            split
            · refine lt_of_eq_of_lt (distance_addRaidEvent { s with dispatched := rest } hrunning
                hscheduled _ _) ?_
              dsimp only
              omega
            · rw [distance_resetRaid]
              omega
          · rw [distance_resetRaid]
            omega
      · cases hr
  | clear => exact hevent.elim
  | loadFromXml raids => exact hevent.elim
  | startup now => exact hevent.elim

theorem own_keeps (hown : s.Own event) : s.Keeps event := by
  obtain ⟨hsome, hevent⟩ := hown
  cases event with
  | dispatch now draw done => exact fun _ hnone => absurd hnone hsome
  | fire i => trivial
  | clear => exact hevent.elim
  | loadFromXml raids => exact hevent.elim
  | startup now => exact hevent.elim

theorem own_bounded (h : s.Inv) (hclosed : s.Closed)
    (hown : Allowed State.perform State.Own s events)
    (hr : (run State.perform s events).isSome) : events.length ≤ s.distance := by
  induction events generalizing s with
  | nil => exact Nat.zero_le _
  | cons event events ih =>
      obtain ⟨t, ht⟩ := Option.isSome_iff_exists.1 hr
      obtain ⟨u, hu, hrest⟩ := Option.bind_eq_some_iff.1 ht
      obtain ⟨h', hclosed'⟩ := h.perform hclosed (own_keeps hown.head) hu
      have hlater := ih h' hclosed' (hown.tail hu) (Option.isSome_iff_exists.2 ⟨t, hrest⟩)
      have hnearer := h.own hown.head hu
      rw [List.length_cons]
      omega

/-- The event that is pending can become due, or the dispatcher has something to do. -/
theorem State.Inv.goesOn (h : s.Inv) (hsome : s.running ≠ none) :
    ∃ event, s.Own event ∧ (s.perform event).isSome := by
  obtain ⟨r, hrunning⟩ := Option.ne_none_iff_exists'.1 hsome
  obtain ⟨-, hpending⟩ := h.runs r hrunning
  by_cases hscheduled : ∀ entry ∈ s.scheduled, entry.task.raid? = none
  · rw [State.pending, List.filterMap_eq_nil_iff.2 hscheduled, List.nil_append] at hpending
    refine ⟨.dispatch 0 (fun _ => 0) false, ⟨hsome, trivial⟩, ?_⟩
    simp only [State.perform, State.dispatch]
    split
    · rfl
    · next r' raidEvent rest hdispatched =>
        obtain ⟨raid, hraid⟩ := Option.ne_none_iff_exists'.1 (h.between hdispatched).2.exists_raid
        have hraid' : s.memory r' = some raid := hraid
        rw [hraid']
        rfl
    · next hnone =>
        rw [hnone] at hpending
        cases hpending
  · obtain ⟨entry, hlater⟩ := not_forall.1 hscheduled
    obtain ⟨hentry, htask⟩ := Classical.not_imp.1 hlater
    obtain ⟨i, hi⟩ := List.mem_iff_getElem?.1 hentry
    refine ⟨.fire i, ⟨hsome, entry, hi, htask⟩, ?_⟩
    simp only [State.perform, State.fire, hi]
    rfl

theorem State.Inv.lifecycle (h : s.Inv) (hclosed : s.Closed) : s.Lifecycle := by
  refine ⟨fun r r' raid raid' hraid hraid' hexecuting hexecuting' => ?_,
    fun r hrunning => (h.runs r hrunning).2, h.goesOn,
    ⟨s.distance, fun events => own_bounded h hclosed⟩, fun hloaded => h.rests (hclosed hloaded).1⟩
  have hrunning : ∀ r raid, s.memory r = some raid → raid.state = .EXECUTING →
      s.running = some r := by
    intro r raid hraid hexecuting
    by_contra hnot
    have hidle := (h.idle r raid hraid hnot).1
    rw [hexecuting] at hidle
    cases hidle
  exact Option.some.inj
    ((hrunning r raid hraid hexecuting).symm.trans (hrunning r' raid' hraid' hexecuting'))

/-! ### The steps that break it -/

/-- A raid without events runs for ever. -/
theorem not_lifecycle_of_empty (h : s.Inv) (now : BitVec 64) (draw : Nat → Nat) {rest : List Task}
    (hdispatched : s.dispatched = .checkRaids :: rest) (hnone : s.running = none)
    (hfind : s.raidList.find? (s.due now draw) = some r) (hraid : s.memory r = some raid)
    (hempty : raid.raidEvents = []) :
    ¬ ({ s with dispatched := rest }.checkRaids now draw).Lifecycle := by
  intro hlife
  have hfind' : s.raidList.find? (State.due { s with dispatched := rest } now draw) = some r :=
    hfind
  have hstart : ({ s with dispatched := rest, running := some r } : State).startRaid r raid =
      { s with dispatched := rest, running := some r } := by
    simp only [State.startRaid, hempty, List.getElem?_nil]
  have hpending : ({ s with dispatched := rest } : State).pending = [] := by
    have hrests := h.rests hnone
    rw [State.pending, hdispatched, List.filterMap_cons, Task.raid?_checkRaids] at hrests
    exact hrests
  rw [State.checkRaids, if_pos hnone, State.beginRaid] at hlife
  simp only [hfind', hraid, hstart] at hlife
  have hone := hlife.pends r (by
    simp only [State.scheduleCheck, State.addEvent]
    split
    · rfl
    · rfl)
  rw [pending_scheduleCheck] at hone
  split at hone
  · exact absurd (hpending.symm.trans hone) (List.cons_ne_nil r []).symm
  · exact absurd (hpending.symm.trans hone) (List.cons_ne_nil r []).symm

/-- The event of a raid that `clear` does not find stays pending. -/
theorem State.Inv.survives (h : s.Inv) (hkeeps : ¬ s.Keeps .clear) : ¬ s.clear.Lifecycle := by
  intro hlife
  obtain ⟨hscheduled, hdispatched⟩ := pending_eq_nil.1 (hlife.cleared rfl)
  rw [clear_dispatched] at hdispatched
  refine hkeeps ⟨fun r hrunning => ?_, hdispatched⟩
  by_contra hnot
  have hpending := (h.runs r hrunning).2
  rw [State.pending, hdispatched, List.append_nil] at hpending
  obtain ⟨entry, hentry, htask⟩ := List.mem_filterMap.1 (hpending ▸ List.mem_singleton_self r)
  have hsome : entry.task.raid? ≠ none := by
    rw [htask]
    exact Option.some_ne_none r
  refine hsome (hscheduled entry ((mem_clear entry).2
    ⟨⟨hentry, h.named.notCheck entry hentry hsome⟩, fun r' hr' raid' hraid' _ heq => ?_⟩))
  obtain rfl := (h.named.owner entry hentry r htask r' raid' hraid').1 heq.symm
  exact hnot hr'

theorem not_lifecycle_of_not_keeps (h : s.Inv) (hkeeps : ¬ s.Keeps event)
    (hr : s.perform event = some s') : ¬ s'.Lifecycle := by
  cases event with
  | clear =>
      cases hr
      exact h.survives hkeeps
  | dispatch now draw done =>
      simp only [State.Keeps, Classical.not_imp, not_forall, not_not] at hkeeps
      obtain ⟨hhead, hnone, r, raid, hfind, hraid, hempty⟩ := hkeeps
      obtain ⟨rest, hdispatched⟩ := List.head?_eq_some_iff.1 hhead
      simp only [State.perform, State.dispatch, hdispatched] at hr
      cases hr
      exact not_lifecycle_of_empty h now draw hdispatched hnone hfind hraid hempty
  | loadFromXml raids => exact absurd trivial hkeeps
  | startup now => exact absurd trivial hkeeps
  | fire i => exact absurd trivial hkeeps

theorem inv_start : ({} : State).Inv ∧ ({} : State).Closed := by
  refine ⟨⟨⟨?_, ?_, ?_, le_rfl, ?_, ?_⟩, fun _ _ => rfl, ?_, ?_, fun _ => rfl⟩,
    fun _ => ⟨rfl, rfl⟩⟩
  · exact fun entry hentry => (by cases hentry)
  · exact fun entry hentry => (by cases hentry)
  · exact fun r raid hraid => (by cases hraid)
  · exact fun entry hentry => (by cases hentry)
  · exact fun entry hentry => (by cases hentry)
  · exact fun r raid hraid => (by cases hraid)
  · exact fun r hr => (by cases hr)

/-- In a run from the start, the lifecycle is right in every state if and only if each raid that
starts has an event, and each `clear` finds the raid that runs and its event. -/
theorem raid_lifecycle_iff (events : List Event) (hr : run State.perform {} events = some s') :
    Throughout State.perform State.Lifecycle {} events ↔
      Allowed State.perform State.Keeps {} events :=
  throughout_iff (I := fun s => s.Inv ∧ s.Closed) inv_start
    (fun _ ⟨h, hclosed⟩ => h.lifecycle hclosed)
    (fun _ _ _ ⟨h, hclosed⟩ hkeeps hs => h.perform hclosed hkeeps hs)
    (fun _ _ _ ⟨h, _⟩ hkeeps hs => not_lifecycle_of_not_keeps h hkeeps hs) hr

namespace Sample

/-- A raid that comes once is running when the raids are loaded again. -/
def reloaded : List Event :=
  [.loadFromXml [⟨[⟨1000⟩, ⟨5000⟩], 3600, 0, false⟩], .startup 0, .fire 0,
    .dispatch 60000 (fun _ => 0) true, .clear]

theorem reloaded_lifecycle_iff : Throughout State.perform State.Lifecycle {} reloaded ↔
    Allowed State.perform State.Keeps {} reloaded :=
  raid_lifecycle_iff reloaded rfl

/-- Its event is not stopped, for the raid has left the list when it started. -/
theorem raid_survives : ¬ ∀ events : List Event,
    Throughout State.perform State.Lifecycle {} events := by
  intro hclaim
  have hnothing := (hclaim reloaded reloaded [] rfl _ rfl).cleared rfl
  exact absurd hnothing (by decide)

end Sample

end TibServer.Raids
