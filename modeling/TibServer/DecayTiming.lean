import TibServer.DecayPlaces

/-!
When an item decays. The wheel is given the time, with ticks that come exactly every 250
milliseconds. An item that is left alone decays once, at a tick that is known as soon as the item is
sorted in: at the next one whatever is left of its last second, and else within a turn of the wheel
that takes a whole second.
-/

namespace TibServer.Decay

/-! ### Time -/

/-- A state, how many ticks have begun, and the time in milliseconds. -/
structure Timed where
  state : State
  ticks : Nat
  now : Nat

namespace Timed

/-- No event is later than the next tick, and a tick takes no time. -/
def latest (c : Timed) : Nat :=
  if c.state.ticking.isSome then c.now else EVENT_DECAYINTERVAL * (c.ticks + 1)

inductive Step (items : Items) : Timed → Event → Timed → Prop
  | tick {c : Timed} {s' : State} (heq : perform items c.state .checkDecay = some s') :
      Step items c .checkDecay ⟨s', c.ticks + 1, EVENT_DECAYINTERVAL * (c.ticks + 1)⟩
  | other {c : Timed} {event : Event} {s' : State} {now : Nat} (hevent : event ≠ .checkDecay)
      (heq : perform items c.state event = some s') (hfrom : c.now ≤ now) (hto : now ≤ c.latest) :
      Step items c event ⟨s', c.ticks, now⟩

inductive Reached (items : Items) : Timed → Prop
  | start : Reached items ⟨.empty, 0, 0⟩
  | step {c c' : Timed} {event : Event} (h : Reached items c) (hstep : Step items c event c') :
      Reached items c'

/-- The bucket that is looked through is that of the tick, which is as long ago as it should be. -/
structure Exact (c : Timed) : Prop where
  between : c.state.ticking = none → c.state.lastBucket = c.ticks % EVENT_DECAY_BUCKETS
  during : ∀ tick, c.state.ticking = some tick →
    tick.bucket = c.ticks % EVENT_DECAY_BUCKETS ∧ c.now = EVENT_DECAYINTERVAL * c.ticks
  begun : EVENT_DECAYINTERVAL * c.ticks ≤ c.now
  due : c.now ≤ EVENT_DECAYINTERVAL * (c.ticks + 1)

variable {items : Items} {c c' c'' : Timed} {event : Event} {i : Ref} {n d t N : Nat}

theorem Exact.latest_le (h : Exact c) : c.latest ≤ EVENT_DECAYINTERVAL * (c.ticks + 1) := by
  unfold latest
  split_ifs
  · exact h.due
  · exact Nat.le_refl _

theorem Exact.step (h : Exact c) (hstep : Step items c event c') : Exact c' := by
  cases hstep with
  | @tick s' heq =>
      rcases wheel_perform heq with ⟨-, hnone, hwheel⟩ | ⟨hevent, -⟩ | ⟨hevent, -⟩
      · obtain ⟨hticking, -⟩ := Prod.mk.inj hwheel
        refine ⟨fun hnone' => ?_, fun tick htick => ⟨?_, rfl⟩, Nat.le_refl _,
          Nat.mul_le_mul_left _ (Nat.le_succ _)⟩
        · exact absurd (hticking.symm.trans (congrArg _ hnone')) (Option.some_ne_none _)
        · have hbucket := hticking.symm.trans (congrArg _ htick)
          refine (Option.some.inj hbucket).symm.trans ?_
          rw [h.between hnone]
          exact Nat.mod_add_mod _ _ _
      · cases hevent
      · exact absurd rfl hevent
  | @other event s' now hevent heq hfrom hto =>
      have hdue := hto.trans h.latest_le
      have hbegun := h.begun.trans hfrom
      rcases wheel_perform heq with ⟨rfl, -⟩ | ⟨-, tick, hticking, hwheel⟩ | ⟨-, hwheel⟩
      · exact absurd rfl hevent
      · obtain ⟨hnone, hlast⟩ := Prod.mk.inj hwheel
        refine ⟨fun _ => hlast.trans (h.during tick hticking).1, fun tick' htick' => ?_, hbegun,
          hdue⟩
        exact absurd (hnone.symm.trans (congrArg _ htick')).symm (Option.some_ne_none _)
      · obtain ⟨hticking, hlast⟩ := Prod.mk.inj hwheel
        refine ⟨fun hnone => ?_, fun tick' htick' => ?_, hbegun, hdue⟩
        · rw [hnone] at hticking
          exact hlast.trans (h.between (Option.map_eq_none_iff.1 hticking.symm))
        · rw [htick'] at hticking
          obtain ⟨tick, htick, hbucket⟩ := Option.map_eq_some_iff.1 hticking.symm
          obtain ⟨hmod, hnow⟩ := h.during tick htick
          refine ⟨hbucket.symm.trans hmod, Nat.le_antisymm ?_ ?_⟩
          · rw [latest, htick, hnow] at hto
            exact hto
          · exact hbegun

theorem Reached.exact (h : Reached items c) : Exact c := by
  induction h with
  | start =>
      refine ⟨fun _ => rfl, fun tick htick => ?_, Nat.le_refl _, Nat.zero_le _⟩
      exact absurd htick.symm (Option.some_ne_none tick)
  | step h hstep ih => exact ih.step hstep

/-! ### The tick at which an item decays -/

/-- The tick that an item decays at which the tick `v` looks at next, with `d` left: whole turns of
the wheel, and one tick more where less than an eighth of a second is missing to another one. -/
def finish (v d : Nat) : Nat :=
  if d < 1000 ∨ 2147483648 ≤ d then v
  else v + 4 * (d / 1000 - 1) + if d % 1000 < 875 then 0 else 1

theorem finish_keep {v d : Nat} (hlow : 2000 ≤ d) (hhigh : d < 2147483648) :
    finish (v + 4) (d - 1000) = finish v d := by
  unfold finish
  split_ifs <;> omega

theorem finish_move {v d : Nat} (hlow : 1875 ≤ d) (hhigh : d < 2000) :
    finish (v + 1) (d - 1000) = finish v d := by
  unfold finish
  split_ifs <;> omega

theorem le_finish (v d : Nat) : v ≤ finish v d := by
  unfold finish
  split_ifs <;> omega

/-- The tick `v` is the next one that looks at an item in this place. -/
def Next (ticks v : Nat) : Place → Prop
  | .started => False
  | .bucket b => ticks < v ∧ v ≤ ticks + 4 ∧ slot v = b
  | .coming => v = ticks
  | .kept => v = ticks + 4

def Scheduled (items : Items) (i : Ref) (N : Nat) (c : Timed) : Prop :=
  ∃ p d v, Waits items i p d c.state ∧ Next c.ticks v p ∧ finish v d.toNat = N

theorem slot_eq_iff {m n : Nat} : slot m = slot n ↔ m % 4 = n % 4 := Fin.mk.injEq _ _ _ _ ▸ Iff.rfl

theorem Exact.lastBucket_lt (h : Exact c) (hnone : c.state.ticking = none) :
    c.state.lastBucket < EVENT_DECAY_BUCKETS := by
  rw [h.between hnone]
  exact Nat.mod_lt _ (by decide)

theorem Exact.bucket_lt (h : Exact c) {tick : Tick} (hticking : c.state.ticking = some tick) :
    tick.bucket < EVENT_DECAY_BUCKETS := by
  rw [(h.during tick hticking).1]
  exact Nat.mod_lt _ (by decide)

/-- The tick at which an item decays does not change while it waits. -/
theorem Scheduled.step (h : Scheduled items i N c) (hexact : Exact c)
    (halone : LeftAlone items c.state i event) (hstep : Step items c event c') :
    Scheduled items i N c' := by
  obtain ⟨p, d, v, hwaits, hnext, rfl⟩ := h
  cases hstep with
  | @tick s' heq =>
      obtain ⟨p', d', hwaits', hpasses⟩ := hwaits.perform halone hexact.lastBucket_lt
        (fun _ => hexact.bucket_lt) heq
      cases hpasses with
      | spared _ _ _ hcheck hclean hend => exact absurd rfl hcheck
      | checkDecay _ _ hnone =>
          refine ⟨_, _, v, hwaits', ?_, rfl⟩
          rcases hwaits.of_not_ticking hnone with rfl | ⟨b, rfl⟩
          · exact hnext.elim
          · obtain ⟨hlow, hhigh, hslot⟩ := hnext
            have hlast := hexact.between hnone
            rw [Place.looked]
            by_cases hb : b = slot (c.state.lastBucket + 1)
            · rw [if_pos hb]
              rw [← hslot, slot_eq_iff, hlast, EVENT_DECAY_BUCKETS] at hb
              change v = c.ticks + 1
              omega
            · rw [if_neg hb]
              refine ⟨?_, by dsimp only; omega, hslot⟩
              rw [← hslot, slot_eq_iff, hlast, EVENT_DECAY_BUCKETS] at hb
              dsimp only
              omega
  | @other event s' now hevent heq hfrom hto =>
      obtain ⟨p', d', hwaits', hpasses⟩ := hwaits.perform halone hexact.lastBucket_lt
        (fun _ => hexact.bucket_lt) heq
      cases hpasses with
      | spared _ _ _ hcheck hclean hend => exact ⟨_, _, v, hwaits', hnext, rfl⟩
      | checkDecay _ _ hnone => exact absurd rfl hevent
      | cleanup _ _ hnone =>
          have hp : p ≠ .started := fun hp => by rw [hp] at hnext; exact hnext
          rw [Place.sorted_of_ne hp] at hwaits'
          exact ⟨_, _, v, hwaits', hnext, rfl⟩
      | @endCheck _ _ tick hticking hcoming =>
          refine ⟨_, _, v, hwaits', ?_, rfl⟩
          cases p with
          | started => exact hnext.elim
          | bucket b => exact hnext
          | coming => exact absurd hcoming (hwaits.coming_ne_nil hticking)
          | kept =>
              have hbucket := (hexact.during tick hticking).1
              change v = c.ticks + 4 at hnext
              rw [EVENT_DECAY_BUCKETS] at hbucket
              refine ⟨by dsimp only; omega, by dsimp only; omega, slot_eq_iff.mpr ?_⟩
              omega
      | @checkItem answers fuel _ _ _ tick hticking hleft hlt hround =>
          have hbucket := (hexact.during tick hticking).1
          change v = c.ticks at hnext
          rcases hround with ⟨hlow, rfl⟩ | ⟨hlow, hhigh, rfl⟩
          · refine ⟨_, _, v + 4, hwaits', congrArg (· + 4) hnext, ?_⟩
            rw [hleft, finish_keep hlow hlt]
          · refine ⟨_, _, v + 1, hwaits', ⟨by dsimp only; omega, by dsimp only; omega, ?_⟩, ?_⟩
            · rw [slot_eq_iff, hbucket, hnext, EVENT_DECAY_BUCKETS]
              omega
            · rw [hleft, finish_move hlow hhigh]

/-! ### An item that has just started -/

/-- The item started at `t` and is not sorted in yet. -/
structure Lit (items : Items) (i : Ref) (d : BitVec 32) (t : Nat) (c : Timed) : Prop where
  waits : Waits items i .started d c.state
  begun : EVENT_DECAYINTERVAL * c.ticks ≤ t + EVENT_DECAYINTERVAL
  idle : c.state.ticking = none → EVENT_DECAYINTERVAL * c.ticks ≤ t
  due : t ≤ EVENT_DECAYINTERVAL * (c.ticks + 1)

/-- The tick at which an item decays that is sorted in after the tick `n`. -/
def decayTick (n d : Nat) : Nat := finish (if d < 1000 then n + 1 else n + 4) d

theorem next_sorted {n last dur : Nat} (hlast : last = n % 4) :
    Next n (if dur < 1000 then n + 1 else n + 4) (Place.started.sorted last dur) := by
  rw [Place.sorted]
  refine ⟨by split_ifs <;> omega, by split_ifs <;> omega, slot_eq_iff.mpr ?_⟩
  split_ifs <;> omega

/-- The item is sorted in as soon as it is not among those that started. -/
theorem Lit.step {d : BitVec 32} (h : Lit items i d t c) (hexact : Exact c)
    (halone : LeftAlone items c.state i event) (hstep : Step items c event c') :
    Lit items i d t c' ∨ Scheduled items i (decayTick c'.ticks d.toNat) c' ∧
      EVENT_DECAYINTERVAL * c'.ticks ≤ t + EVENT_DECAYINTERVAL ∧
      t ≤ EVENT_DECAYINTERVAL * (c'.ticks + 1) := by
  have hbegun := h.begun
  have hdue := h.due
  cases hstep with
  | @tick s' heq =>
      obtain ⟨p', d', hwaits', hpasses⟩ := h.waits.perform halone hexact.lastBucket_lt
        (fun _ => hexact.bucket_lt) heq
      cases hpasses with
      | spared _ _ _ hcheck hclean hend => exact absurd rfl hcheck
      | checkDecay _ _ hnone =>
          have hidle := h.idle hnone
          refine .inl ⟨hwaits', ?_, fun hnone' => ?_, ?_⟩
          · rw [Nat.mul_succ]
            exact Nat.add_le_add_right hidle _
          · obtain ⟨-, heq⟩ := Option.ite_none_right_eq_some.1 heq
            rw [← Option.some.inj heq] at hnone'
            exact absurd hnone'.symm (Option.some_ne_none _).symm
          · exact hdue.trans (Nat.mul_le_mul_left _ (Nat.le_succ _))
  | @other event s' now hevent heq hfrom hto =>
      obtain ⟨p', d', hwaits', hpasses⟩ := h.waits.perform halone hexact.lastBucket_lt
        (fun _ => hexact.bucket_lt) heq
      cases hpasses with
      | spared _ _ _ hcheck hclean hend =>
          refine .inl ⟨hwaits', hbegun, fun hnone => ?_, hdue⟩
          rcases wheel_perform heq with ⟨rfl, -⟩ | ⟨rfl, -⟩ | ⟨-, hwheel⟩
          · exact absurd rfl hcheck
          · exact absurd rfl hend
          · obtain ⟨hticking, -⟩ := Prod.mk.inj hwheel
            rw [hnone] at hticking
            exact h.idle (Option.map_eq_none_iff.1 hticking.symm)
      | checkDecay _ _ hnone => exact absurd rfl hevent
      | cleanup _ _ hnone =>
          exact .inr ⟨⟨_, _, _, hwaits', next_sorted (hexact.between hnone), rfl⟩, hbegun, hdue⟩
      | @endCheck _ _ tick hticking hcoming =>
          have hbucket := (hexact.during tick hticking).1
          exact .inr ⟨⟨_, _, _, hwaits', next_sorted hbucket, rfl⟩, hbegun, hdue⟩

/-! ### Runs -/

/-- The item was put into decay at `t`, with `d` left, and waits to be sorted in. -/
inductive Awaiting (items : Items) (i : Ref) (d t : Nat) : Timed → Prop
  | started {c c' : Timed} {answers : Nat → Answers} {fuel : Nat} (hreached : Reached items c)
      (hlives : i < c.state.next) (hunlisted : c.state.occurrences i = 0)
      (hcan : (c.state.item i).canDecay items = true)
      (hdecaying : (c.state.item i).decaying ≠ .true)
      (hduration : (c.state.item i).getDuration.toNat = d) (hpos : 0 < d)
      (hstep : Step items c (.startDecay answers fuel i) c') (ht : c'.now = t) :
      Awaiting items i d t c'
  | step {c c' : Timed} {event : Event} (h : Awaiting items i d t c)
      (halone : LeftAlone items c.state i event) (hstep : Step items c event c')
      (hstarted : i ∈ c'.state.toDecayItems) : Awaiting items i d t c'

/-- The item was sorted in after the tick `n`, and has been left alone since. -/
inductive Burns (items : Items) (i : Ref) (d t : Nat) : Nat → Timed → Prop
  | sorted {c c' : Timed} {event : Event} (h : Awaiting items i d t c)
      (halone : LeftAlone items c.state i event) (hstep : Step items c event c')
      (hsorted : i ∉ c'.state.toDecayItems) : Burns items i d t c'.ticks c'
  | step {n : Nat} {c c' : Timed} {event : Event} (h : Burns items i d t n c)
      (halone : LeftAlone items c.state i event) (hstep : Step items c event c') :
      Burns items i d t n c'

theorem Scheduled.not_started (h : Scheduled items i N c) : i ∉ c.state.toDecayItems := by
  obtain ⟨p, d, v, hwaits, hnext, -⟩ := h
  have hp : p ≠ .started := fun hp => by rw [hp] at hnext; exact hnext
  have hcount := hwaits.count .started
  rw [if_neg (Ne.symm hp)] at hcount
  exact List.count_eq_zero.1 hcount

theorem Lit.started {b : BitVec 32} (h : Lit items i b t c) : i ∈ c.state.toDecayItems := by
  have hcount := h.waits.count .started
  rw [if_pos rfl] at hcount
  exact List.count_pos_iff.1 (by change 0 < (Place.started.list c.state).count i; omega)

/-- An item whose time is not up goes to those that started. -/
theorem startDecay_pushFront {s s' : State} {answers : Nat → Answers} {fuel : Nat}
    (hcan : (s.item i).canDecay items = true) (hdecaying : (s.item i).decaying ≠ .true)
    (hduration : (s.item i).getDuration ≠ 0)
    (heq : startDecay items answers fuel s (some i) = some s') : s' = pushFront s i := by
  cases fuel with
  | zero => cases heq
  | succ fuel =>
      rw [startDecay, hcan, if_neg (by decide), if_neg hdecaying, if_pos hduration] at heq
      exact (Option.some.inj heq).symm

theorem Awaiting.lit (h : Awaiting items i d t c) :
    Exact c ∧ ∃ b : BitVec 32, b.toNat = d ∧ Lit items i b t c := by
  induction h with
  | @started c c' answers fuel hreached hlives hunlisted hcan hdecaying hduration hpos hstep ht =>
      have hexact := hreached.exact
      refine ⟨hexact.step hstep, (c.state.item i).getDuration, hduration, ?_⟩
      cases hstep with
      | @other _ s' now hevent heq hfrom hto =>
          subst ht
          have hduration' : (c.state.item i).getDuration ≠ 0 := by
            intro hzero
            rw [hzero] at hduration
            exact absurd hduration (Nat.ne_of_lt hpos)
          have hpushed := startDecay_pushFront hcan hdecaying hduration' heq
          subst hpushed
          refine ⟨.pushFront hlives hunlisted hcan, ?_, fun _ => ?_, hto.trans hexact.latest_le⟩
          · exact (hexact.begun.trans hfrom).trans (Nat.le_add_right _ _)
          · exact hexact.begun.trans hfrom
  | @step c c' event h halone hstep hstarted ih =>
      obtain ⟨hexact, b, hb, hlit⟩ := ih
      refine ⟨hexact.step hstep, b, hb, ?_⟩
      rcases hlit.step hexact halone hstep with hlit' | ⟨hscheduled, -⟩
      · exact hlit'
      · exact absurd hstarted hscheduled.not_started

/-- Where the item will decay, and how far the tick it was sorted in after is from its start. -/
theorem Burns.scheduled (h : Burns items i d t n c) : Exact c ∧ d < 4294967296 ∧
    Scheduled items i (decayTick n d) c ∧
    EVENT_DECAYINTERVAL * n ≤ t + EVENT_DECAYINTERVAL ∧ t ≤ EVENT_DECAYINTERVAL * (n + 1) := by
  induction h with
  | @sorted c c' event h halone hstep hsorted =>
      obtain ⟨hexact, b, rfl, hlit⟩ := h.lit
      rcases hlit.step hexact halone hstep with hlit' | ⟨hscheduled, hbegun, hdue⟩
      · exact absurd hlit'.started hsorted
      · exact ⟨hexact.step hstep, b.isLt, hscheduled, hbegun, hdue⟩
  | @step n c c' event h halone hstep ih =>
      obtain ⟨hexact, hlt, hscheduled, hbounds⟩ := ih
      exact ⟨hexact.step hstep, hlt, hscheduled.step hexact halone hstep, hbounds⟩

/-- The times differ by at most one tick. -/
def OnTime (now due : Nat) : Prop :=
  now ≤ due + EVENT_DECAYINTERVAL ∧ due ≤ now + EVENT_DECAYINTERVAL

/-- The duration `d` from `t` on fits the ticks, the last of which was at `T` when the item was sorted
in: less than a second is up within two ticks from `T`, and of more, what is beyond the last whole
second is up within a tick of `T`. -/
def Punctual (d t T : Nat) : Prop :=
  d < 1000 ∧ T ≤ t + d ∧ t + d ≤ T + 500 ∨
    1000 ≤ d ∧ d < 2147483648 ∧ T ≤ t + d % 1000 + 250 ∧ t + d % 1000 ≤ T + 250

theorem onTime_iff (hlow : 250 * n ≤ t + 250) (hhigh : t ≤ 250 * (n + 1)) :
    OnTime (250 * decayTick n d) (t + d) ↔ Punctual d t (250 * n) := by
  unfold OnTime Punctual decayTick finish EVENT_DECAYINTERVAL
  split_ifs <;> omega

/-- The time of a waiting item is not up before its tick. -/
theorem Scheduled.le (h : Scheduled items i N c) :
    c.ticks ≤ N ∧ (c.state.ticking = none → c.ticks < N) := by
  obtain ⟨p, d, v, hwaits, hnext, rfl⟩ := h
  have hfinish := le_finish v d.toNat
  constructor
  · cases p with
    | started => exact hnext.elim
    | bucket b => exact (Nat.le_of_lt hnext.1).trans hfinish
    | coming =>
        change v = c.ticks at hnext
        omega
    | kept =>
        change v = c.ticks + 4 at hnext
        omega
  · intro hnone
    rcases hwaits.of_not_ticking hnone with rfl | ⟨b, rfl⟩
    · exact hnext.elim
    · exact Nat.lt_of_lt_of_le hnext.1 hfinish

theorem Scheduled.now_le (h : Scheduled items i N c) (hexact : Exact c) :
    c.now ≤ EVENT_DECAYINTERVAL * N := by
  obtain ⟨hle, hlt⟩ := h.le
  cases hticking : c.state.ticking with
  | none => exact hexact.due.trans (Nat.mul_le_mul_left _ (hlt hticking))
  | some tick =>
      rw [(hexact.during tick hticking).2]
      exact Nat.mul_le_mul_left _ hle

/-- The loop comes to a waiting item whose time is up at the tick it is scheduled for. -/
theorem Scheduled.decays (h : Scheduled items i N c) (hexact : Exact c)
    (hdecays : Decays items c.state i) : c.now = EVENT_DECAYINTERVAL * N := by
  obtain ⟨p, d, v, hwaits, hnext, rfl⟩ := h
  obtain ⟨tick, coming, hticking, hcoming, hturn⟩ := hdecays
  obtain ⟨rfl, -⟩ := hwaits.taken hticking hcoming
  change v = c.ticks at hnext
  have hrange : d.toNat < 1875 ∨ 2147483648 ≤ d.toNat := by
    by_contra hout
    have hdur := hwaits.duration
    by_cases hfar : 2000 ≤ d.toNat
    · rw [turn_keep hwaits.canDecay _ (by rw [hdur]; exact hfar) (by rw [hdur]; omega)] at hturn
      cases hturn
    · rw [turn_move hwaits.canDecay _ (by rw [hdur]; omega) (by rw [hdur]; omega)] at hturn
      cases hturn
  have hfinish : finish v d.toNat = v := by
    unfold finish
    split_ifs <;> omega
  rw [(hexact.during tick hticking).2, hfinish, hnext]

/-- An item that is put into decay and left alone decays once: it is on one list until it does, and
it does at a tick that is known when it is sorted in, at which it is taken off the lists. That tick is
the one it should be, or the next or the last one, just if its duration fits the ticks. -/
theorem decay_timing_iff :
    (∀ (s : State) (i : Ref) (answers : Nat → Answers) (fuel : Nat),
      (s.item i).canDecay items = true → (s.item i).decaying ≠ .true →
        (s.item i).getDuration = 0 → startDecay items answers (fuel + 1) s (some i) =
          internalDecayItem items (startDecay items answers fuel) (answers fuel) s i) ∧
    ∀ i d t n c, Burns items i d t n c →
      (c.state.occurrences i = 1 ∧ c.now ≤ EVENT_DECAYINTERVAL * decayTick n d ∧
        (c.state.ticking = none → c.ticks < decayTick n d)) ∧
      (Decays items c.state i → c.now = EVENT_DECAYINTERVAL * decayTick n d ∧
        (∀ tick coming, c.state.ticking = some tick → tick.coming = i :: coming →
          (takeNext c.state tick i coming).occurrences i = 0) ∧
        (OnTime c.now (t + d) ↔ Punctual d t (EVENT_DECAYINTERVAL * n))) := by
  refine ⟨fun s i answers fuel hcan hdecaying hduration => ?_, fun i d t n c h => ?_⟩
  · rw [startDecay, hcan, if_neg (by decide), if_neg hdecaying, if_neg (not_not.mpr hduration)]
  · obtain ⟨hexact, -, hscheduled, hbegun, hdue⟩ := h.scheduled
    obtain ⟨p, b, v, hwaits, -⟩ := id hscheduled
    refine ⟨⟨hwaits.occurrences, hscheduled.now_le hexact, hscheduled.le.2⟩, fun hdecays => ?_⟩
    have hnow := hscheduled.decays hexact hdecays
    refine ⟨hnow, fun tick coming hticking hcoming => ?_, hnow ▸ onTime_iff hbegun hdue⟩
    obtain ⟨-, htaken⟩ := hwaits.taken hticking hcoming
    rw [occurrences_places, htaken, htaken, htaken, htaken, htaken, htaken, htaken]

end Timed

namespace Sample

open Timed

/-- A torch with 300 milliseconds left, put into decay at 100: it burns down at the tick at 250. -/
theorem torch_on_time : ∃ c, Burns torches 0 300 100 0 c ∧ Decays torches c.state 0 ∧
    c.now = 250 ∧ OnTime c.now 400 := by
  have hedited : Reached torches ⟨_, 0, 0⟩ :=
    (Reached.start.step (.other (by simp : Event.create 2055 1 ≠ _) rfl (Nat.le_refl 0)
      (Nat.zero_le _))).step (.other (by simp : Event.edit 0 (some 300) false false 1 true false ≠ _)
        rfl (Nat.le_refl 0) (Nat.zero_le _))
  have hstarted : Awaiting torches 0 300 100 ⟨_, 0, 100⟩ :=
    .started hedited (by decide) (by decide) (by decide) (by decide) (by decide) (by decide)
      (.other (by simp : Event.startDecay answers 1 0 ≠ _) rfl (Nat.zero_le 100) (by decide)) rfl
  have hsorted : Burns torches 0 300 100 0 ⟨_, 0, 100⟩ :=
    .sorted hstarted (show LeftAlone torches _ 0 .cleanup from trivial)
      (.other (by simp : Event.cleanup ≠ _) rfl (Nat.le_refl 100) (by decide)) (by decide)
  have hticking := hsorted.step (show LeftAlone torches _ 0 .checkDecay from trivial) (.tick rfl)
  obtain ⟨hnow, -, hiff⟩ :=
    (decay_timing_iff.2 0 300 100 0 _ hticking).2 ⟨_, _, rfl, rfl, by decide⟩
  exact ⟨_, hticking, ⟨_, _, rfl, rfl, by decide⟩, hnow, hiff.mpr (.inl (by decide))⟩

/-- A torch with 999 milliseconds left, put into decay at 0: it burns down at the tick at 250 too. -/
theorem torch_burnt_early : ∃ c, Burns torches 0 999 0 0 c ∧ Decays torches c.state 0 ∧
    c.now = 250 ∧ ¬OnTime c.now 999 := by
  have hedited : Reached torches ⟨_, 0, 0⟩ :=
    (Reached.start.step (.other (by simp : Event.create 2055 1 ≠ _) rfl (Nat.le_refl 0)
      (Nat.zero_le _))).step (.other (by simp : Event.edit 0 (some 999) false false 1 true false ≠ _)
        rfl (Nat.le_refl 0) (Nat.zero_le _))
  have hstarted : Awaiting torches 0 999 0 ⟨_, 0, 0⟩ :=
    .started hedited (by decide) (by decide) (by decide) (by decide) (by decide) (by decide)
      (.other (by simp : Event.startDecay answers 1 0 ≠ _) rfl (Nat.le_refl 0) (Nat.zero_le _)) rfl
  have hsorted : Burns torches 0 999 0 0 ⟨_, 0, 0⟩ :=
    .sorted hstarted (show LeftAlone torches _ 0 .cleanup from trivial)
      (.other (by simp : Event.cleanup ≠ _) rfl (Nat.le_refl 0) (Nat.zero_le _)) (by decide)
  have hticking := hsorted.step (show LeftAlone torches _ 0 .checkDecay from trivial) (.tick rfl)
  exact ⟨_, hticking, ⟨_, _, rfl, rfl, by decide⟩, rfl, fun h => absurd h.2 (by decide)⟩

end Sample

end TibServer.Decay
