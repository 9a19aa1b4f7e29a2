import TibServer.Training

/-!
The laws of training: tries are worth the same at once and one after the other, what is left of
them is less than the next level asks for, and offline they lead to where they lead online. Each
holds with an exact exception; all are read off the levels that the tries are worth.
-/

namespace TibServer.Training

open Experience (getPercentLevel)
open Thresholds

variable {w : Nat} {req : BitVec w → BitVec 64} {resets : Bool} {s : Counter w}
  {m a b : BitVec 64} {k k' rest : Nat}

/-- The level `k` steps up. -/
def Counter.up (s : Counter w) (k : Nat) : BitVec w := s.level + BitVec.ofNat w k

/-- The requirements of the levels from that of the counter on. -/
def Counter.asks (req : BitVec w → BitVec 64) (s : Counter w) (k : Nat) : Nat :=
  (req (s.up k)).toNat

@[simp] theorem up_zero (s : Counter w) : s.up 0 = s.level := by simp [Counter.up]

theorem up_one (s : Counter w) : s.up 1 = s.level + 1 := rfl

theorem up_succ (s : Counter w) (k : Nat) : s.up (k + 1) = s.up k + 1 := by
  unfold Counter.up
  rw [BitVec.add_assoc]
  congr 1
  exact BitVec.ofNat_add k 1

theorem up_up {s' : Counter w} (h : s'.level = s.up k) (j : Nat) : s'.up j = s.up (k + j) := by
  unfold Counter.up at *
  rw [h, BitVec.add_assoc, BitVec.ofNat_add]

theorem asks_up (req : BitVec w → BitVec 64) {s' : Counter w} (h : s'.level = s.up k) :
    s'.asks req = fun j => s.asks req (k + j) := by
  funext j
  unfold Counter.asks
  rw [up_up h]

theorem asks_zero (req : BitVec w → BitVec 64) (s : Counter w) :
    s.asks req 0 = (req s.level).toNat := by simp [Counter.asks]

theorem asks_one (req : BitVec w → BitVec 64) (s : Counter w) :
    s.asks req 1 = (req (s.level + 1)).toNat := rfl

/-! ### The loop -/

/-- What the loop leaves where the levels go on. -/
structure Stopped (req : BitVec w → BitVec 64) (s : Counter w) (k rest : Nat) (run : Run w) :
    Prop where
  level : run.counter.level = s.up k
  tries : (run.counter.tries + run.count).toNat = rest
  curr : run.curr = req (s.up k)
  next : run.next = req (s.up (k + 1))
  levelled : run.levelled = decide (k ≠ 0)

/-- What the loop leaves at the last level. -/
def topped (req : BitVec w → BitVec 64) (resets : Bool) (s : Counter w) (k : Nat) : Run w :=
  ⟨⟨s.up k, 0, if resets then 0 else s.percent⟩, 0, req (s.up k), req (s.up (k + 1)), true⟩

/-- The loop over the levels, by induction on how far the requirement still can rise. -/
theorem loop_spec (resets : Bool) (hlt : s.tries.toNat + m.toNat < 2 ^ 64)
    (hrise : s.asks req 0 < s.asks req 1)
    (ht : s.tries.toNat < s.asks req 1) :
    let run := loop req resets s m (req s.level) (req (s.level + 1))
    (∃ k rest, Stays (s.asks req) s.tries.toNat m.toNat k rest ∧ Stopped req s k rest run) ∨
      ∃ k, Peaks (s.asks req) s.tries.toNat m.toNat k ∧ run = topped req resets s k := by
  induction hn : 2 ^ 64 - (req (s.level + 1)).toNat using Nat.strong_induction_on
    generalizing s m with
  | _ n ih =>
      intro run
      have hsum : (s.tries + m).toNat = s.tries.toNat + m.toNat := by
        rw [BitVec.toNat_add, Nat.mod_eq_of_lt hlt]
      have hone := asks_one req s
      by_cases hreach : req (s.level + 1) ≤ s.tries + m
      · have hreach' : s.asks req 1 ≤ s.tries.toNat + m.toNat := by
          rw [hone, ← hsum]
          exact hreach
        have htwo : s.asks req 2 = (req (s.level + 1 + 1)).toNat := by
          unfold Counter.asks
          rw [up_succ, up_one]
        by_cases htop : req (s.level + 1 + 1) ≤ req (s.level + 1)
        · refine .inr ⟨1, .here hrise hreach' (by rw [htwo, hone]; exact htop), ?_⟩
          simp only [run]
          rw [loop, if_pos hreach]
          dsimp only
          rw [if_pos htop]
          simp only [topped, up_one, show s.up (1 + 1) = s.level + 1 + 1 from up_succ s 1]
        · let raised : Counter w := ⟨s.level + 1, 0, if resets then 0 else s.percent⟩
          have hup : raised.level = s.up 1 := rfl
          have hasks := asks_up req hup
          have hrise' : s.asks req 1 < s.asks req 2 := by
            rw [htwo, hone]
            exact Nat.lt_of_not_le htop
          have hm' : (m - (req (s.level + 1) - s.tries)).toNat =
              s.tries.toNat + m.toNat - s.asks req 1 := by
            rw [hone]
            rw [hone] at ht hreach'
            bv_omega
          have hrun : run = { loop req resets raised (m - (req (s.level + 1) - s.tries))
              (req raised.level) (req (raised.level + 1)) with levelled := true } := by
            simp only [run]
            rw [loop, if_pos hreach]
            dsimp only
            rw [if_neg htop]
          have hsmall : raised.tries.toNat + (m - (req (s.level + 1) - s.tries)).toNat < 2 ^ 64 := by
            have := (m - (req (s.level + 1) - s.tries)).isLt
            change 0 + _ < _
            omega
          have hrec := ih (2 ^ 64 - (req (raised.level + 1)).toNat)
            (by rw [← hn]; rw [htwo, hone] at hrise'; have := (req (s.level + 1 + 1)).isLt
                change 2 ^ 64 - (req (s.level + 1 + 1)).toNat < _; omega)
            (s := raised) hsmall
            (by rw [hasks]; exact hrise') (by rw [hasks]; change 0 < s.asks req 2; omega) rfl
          have hzero : raised.tries.toNat = 0 := rfl
          rw [hasks, hzero, hm'] at hrec
          -- the first level is one more than those that follow it
          have hfirst := Stays.first hrise hrise' ht.le
          have hadd : s.asks req 1 - s.tries.toNat + (s.tries.toNat + m.toNat - s.asks req 1) =
              m.toNat := by omega
          rcases hrec with ⟨k, rest, hstays, hstop⟩ | ⟨k, hpeaks, htopped⟩
          · refine .inl ⟨1 + k, rest, hadd ▸ hfirst.trans hstays, ?_⟩
            rw [hrun]
            exact ⟨hstop.level.trans (up_up hup k), hstop.tries,
              hstop.curr.trans (congrArg req (up_up hup k)),
              hstop.next.trans (congrArg req (up_up hup (k + 1))), by simp⟩
          · refine .inr ⟨1 + k, hadd ▸ hfirst.then_peaks hpeaks, ?_⟩
            rw [hrun, htopped]
            simp only [topped, up_up hup, Nat.add_assoc]
            cases resets <;> rfl
      · have hreach' : s.tries.toNat + m.toNat < s.asks req 1 := by
          rw [hone, ← hsum]
          exact Nat.lt_of_not_le hreach
        have hrun : run = ⟨s, m, req s.level, req (s.level + 1), false⟩ := by
          simp only [run]
          rw [loop, if_neg hreach]
        refine .inl ⟨0, _, .here hrise hreach', ?_⟩
        rw [hrun]
        exact ⟨(up_zero s).symm, hsum, by simp, rfl, rfl⟩

/-! ### What a function makes of the tries -/

/-- A counter at a level with tries below the next. -/
def Counter.reached (req : BitVec w → BitVec 64) (s : Counter w) (k rest : Nat) : Counter w :=
  ⟨s.up k, BitVec.ofNat 64 rest, getPercentLevel (BitVec.ofNat 64 rest) (req (s.up (k + 1)))⟩

/-- Below the last level, with less than the next one asks for. -/
structure Counter.Below (req : BitVec w → BitVec 64) (s : Counter w) : Prop where
  rises : s.asks req 0 < s.asks req 1
  tries : s.tries.toNat < s.asks req 1

/-- A function that trains counters; at the last level it shows the percentage `top`. -/
structure Gains (req : BitVec w → BitVec 64) (top : Counter w → BitVec 8)
    (f : Counter w → BitVec 64 → Counter w) : Prop where
  full : ∀ {s m}, s.asks req 1 ≤ s.asks req 0 → f s m = s
  stays : ∀ {s m k rest}, m ≠ 0 → s.Below req → s.tries.toNat + m.toNat < 2 ^ 64 →
    Stays (s.asks req) s.tries.toNat m.toNat k rest → f s m = s.reached req k rest
  peaks : ∀ {s m k}, m ≠ 0 → s.Below req → s.tries.toNat + m.toNat < 2 ^ 64 →
    Peaks (s.asks req) s.tries.toNat m.toNat k → f s m = ⟨s.up k, 0, top s⟩
  spills : ∀ {s m}, m ≠ 0 → s.Below req → 2 ^ 64 ≤ s.tries.toNat + m.toNat →
    f s m = s.reached req 0 (s.tries.toNat + m.toNat - 2 ^ 64)

theorem Stopped.finish {run : Run w} (h : Stopped req s k rest run)
    (hrise : s.asks req k < s.asks req (k + 1)) : run.finish = s.reached req k rest := by
  have htries : run.counter.tries + run.count = BitVec.ofNat 64 rest := by
    rw [← h.tries, BitVec.ofNat_toNat, BitVec.setWidth_eq]
  have hlt : run.curr < run.next := by
    rw [h.curr, h.next]
    exact hrise
  unfold Run.finish Counter.reached
  dsimp only
  rw [if_pos hlt, htries, h.level, h.next]

theorem topped_finish (htop : s.asks req (k + 1) ≤ s.asks req k) :
    (topped req resets s k).finish = ⟨s.up k, 0, 0⟩ := by
  have hlt : ¬req (s.up k) < req (s.up (k + 1)) := Nat.not_lt_of_le htop
  unfold Run.finish topped
  dsimp only
  rw [if_neg hlt, add_zero]

/-- Tries that wrap around are not enough for a level. -/
theorem loop_spills (resets : Bool) (h : s.Below req) (hwrap : 2 ^ 64 ≤ s.tries.toNat + m.toNat) :
    Stopped req s 0 (s.tries.toNat + m.toNat - 2 ^ 64)
      (loop req resets s m (req s.level) (req (s.level + 1))) := by
  have hm := m.isLt
  have ht := h.tries
  have hsum : (s.tries + m).toNat = s.tries.toNat + m.toNat - 2 ^ 64 := by
    rw [BitVec.toNat_add]
    omega
  have hreach : ¬req (s.level + 1) ≤ s.tries + m := by
    intro hle
    have hle' : s.asks req 1 ≤ (s.tries + m).toNat := hle
    omega
  rw [loop, if_neg hreach]
  exact ⟨(up_zero s).symm, hsum, by simp, rfl, rfl⟩

theorem not_full (h : s.Below req) : ¬req (s.level + 1) ≤ req s.level := by
  have hrise := h.rises
  rw [asks_zero, asks_one] at hrise
  exact Nat.not_le_of_lt hrise

theorem full_iff : s.asks req 1 ≤ s.asks req 0 ↔ req (s.level + 1) ≤ req s.level := by
  rw [asks_zero, asks_one]
  rfl

/-- Where the levels go on, and where they do not. -/
theorem loop_stays (resets : Bool) (h : s.Below req) (hlt : s.tries.toNat + m.toNat < 2 ^ 64)
    (hstays : Stays (s.asks req) s.tries.toNat m.toNat k rest) :
    Stopped req s k rest (loop req resets s m (req s.level) (req (s.level + 1))) := by
  rcases loop_spec resets hlt h.rises h.tries with
    ⟨k', rest', hstays', hstop⟩ | ⟨k', hpeaks, -⟩
  · obtain ⟨rfl, rfl⟩ := hstays.unique hstays'
    exact hstop
  · exact (hstays.not_peaks hpeaks).elim

theorem loop_peaks (h : s.Below req) (hlt : s.tries.toNat + m.toNat < 2 ^ 64)
    (hpeaks : Peaks (s.asks req) s.tries.toNat m.toNat k) :
    loop req resets s m (req s.level) (req (s.level + 1)) = topped req resets s k := by
  rcases loop_spec resets hlt h.rises h.tries with
    ⟨k', rest', hstays, -⟩ | ⟨k', hpeaks', htopped⟩
  · exact (hstays.not_peaks hpeaks).elim
  · obtain rfl := hpeaks.unique hpeaks'
    exact htopped

/-- There is an outcome. -/
theorem outcome (h : s.Below req) (hlt : s.tries.toNat + m.toNat < 2 ^ 64) :
    (∃ k rest, Stays (s.asks req) s.tries.toNat m.toNat k rest) ∨
      ∃ k, Peaks (s.asks req) s.tries.toNat m.toNat k := by
  rcases loop_spec true hlt h.rises h.tries with ⟨k, rest, hstays, -⟩ | ⟨k, hpeaks, -⟩
  · exact .inl ⟨k, rest, hstays⟩
  · exact .inr ⟨k, hpeaks⟩

theorem gains_addSkillAdvance (req : BitVec w → BitVec 64) :
    Gains req (fun _ => 0) (Counter.addSkillAdvance req id) where
  full h := if_pos (full_iff.mp h)
  stays hm h hlt hstays := by
    rw [Counter.addSkillAdvance, if_neg (not_full h)]
    have hrise := hstays.rising _ (Nat.lt_succ_self _)
    exact (if_neg hm).trans ((loop_stays _ h hlt hstays).finish hrise)
  peaks hm h hlt hpeaks := by
    rw [Counter.addSkillAdvance, if_neg (not_full h)]
    refine (if_neg hm).trans ?_
    rw [id, loop_peaks h hlt hpeaks]
    exact topped_finish hpeaks.top
  spills hm h hwrap := by
    rw [Counter.addSkillAdvance, if_neg (not_full h)]
    exact (if_neg hm).trans ((loop_spills _ h hwrap).finish h.rises)

theorem addManaSpent_of_below (h : s.Below req) (hm : m ≠ 0) :
    s.addManaSpent req id false m =
      let run := loop req false s m (req s.level) (req (s.level + 1))
      if run.next ≤ run.curr then run.counter else run.finish := by
  unfold Counter.addManaSpent
  rw [if_neg Bool.false_ne_true]
  dsimp only
  rw [if_neg (not_full h)]
  exact if_neg hm

theorem Stopped.not_last {run : Run w} (h : Stopped req s k rest run)
    (hrise : s.asks req k < s.asks req (k + 1)) : ¬run.next ≤ run.curr := by
  rw [h.next, h.curr]
  exact Nat.not_le_of_lt hrise

/-- The percentage of the magic level is left as it was at the last level. -/
theorem gains_addManaSpent (req : BitVec w → BitVec 64) :
    Gains req Counter.percent (fun s m => s.addManaSpent req id false m) where
  full h := (if_neg Bool.false_ne_true).trans (if_pos (full_iff.mp h))
  stays hm h hlt hstays := by
    have hrise := hstays.rising _ (Nat.lt_succ_self _)
    have hstop := loop_stays false h hlt hstays
    rw [addManaSpent_of_below h hm]
    exact (if_neg (hstop.not_last hrise)).trans (hstop.finish hrise)
  peaks hm h hlt hpeaks := by
    rw [addManaSpent_of_below h hm, loop_peaks h hlt hpeaks]
    exact if_pos hpeaks.top
  spills hm h hwrap := by
    have hstop := loop_spills false h hwrap
    rw [addManaSpent_of_below h hm]
    exact (if_neg (hstop.not_last h.rises)).trans (hstop.finish h.rises)

theorem addOfflineTries_of_below (h : s.Below req) :
    (s.addOfflineTries req id resets m).1 =
      (loop req resets s m (req s.level) (req (s.level + 1))).finish := by
  unfold Counter.addOfflineTries
  dsimp only
  rw [if_neg (not_full h)]
  rfl

theorem gains_addOfflineTries (req : BitVec w → BitVec 64) (resets : Bool) :
    Gains req (fun _ => 0) (fun s m => (s.addOfflineTries req id resets m).1) where
  full h := congrArg Prod.fst (if_pos (full_iff.mp h))
  stays _ h hlt hstays := by
    rw [addOfflineTries_of_below h]
    exact (loop_stays _ h hlt hstays).finish (hstays.rising _ (Nat.lt_succ_self _))
  peaks _ h hlt hpeaks := by
    rw [addOfflineTries_of_below h, loop_peaks h hlt hpeaks]
    exact topped_finish hpeaks.top
  spills _ h hwrap := by
    rw [addOfflineTries_of_below h]
    exact (loop_spills _ h hwrap).finish h.rises

/-! ### The laws -/

section

variable {top : Counter w → BitVec 8} {f : Counter w → BitVec 64 → Counter w}

/-- The tries wrap around the second time, after a level was reached the first time. -/
def Overflows (req : BitVec w → BitVec 64) (s : Counter w) (a b : BitVec 64) : Prop :=
  s.Below req ∧ s.asks req 1 ≤ s.tries.toNat + a.toNat ∧ s.tries.toNat + a.toNat < 2 ^ 64 ∧
    2 ^ 64 ≤ s.tries.toNat + a.toNat + b.toNat

/-- Where the second tries reach the last level, the first left the percentage that is shown
there. -/
def TopKept (req : BitVec w → BitVec 64) (top : Counter w → BitVec 8) (s : Counter w)
    (a b : BitVec 64) : Prop :=
  ∀ k rest k', a ≠ 0 → s.tries.toNat + a.toNat + b.toNat < 2 ^ 64 →
    Stays (s.asks req) s.tries.toNat a.toNat k rest →
    Peaks (s.asks req) s.tries.toNat (a.toNat + b.toNat) k' →
    top (s.reached req k rest) = top s

theorem reached_below (hrise : s.asks req k < s.asks req (k + 1))
    (hrest : rest < s.asks req (k + 1)) :
    (s.reached req k rest).Below req ∧ (s.reached req k rest).tries.toNat = rest ∧
      (s.reached req k rest).asks req = fun j => s.asks req (k + j) := by
  have hasks := asks_up (s := s) (k := k) req (rfl : (s.reached req k rest).level = s.up k)
  have hmax := (req (s.up (k + 1))).isLt
  have htries : (s.reached req k rest).tries.toNat = rest :=
    (BitVec.toNat_ofNat _ _).trans (Nat.mod_eq_of_lt (hrest.trans hmax))
  refine ⟨⟨?_, ?_⟩, htries, hasks⟩
  · rw [hasks]
    exact hrise
  · rw [hasks, htries]
    exact hrest

theorem reached_reached (k' rest' : Nat) :
    (s.reached req k rest).reached req k' rest' = s.reached req (k + k') rest' := by
  have hup (j : Nat) : (s.reached req k rest).up j = s.up (k + j) := up_up rfl j
  unfold Counter.reached at hup ⊢
  rw [hup, hup, Nat.add_assoc]

/-- Another level by a requirement that is greater. -/
theorem level_ne {s' : Counter w} (h : s'.level = s.up k) (hlt : s.asks req 0 < s.asks req k) :
    s'.level ≠ s.level := by
  intro he
  rw [asks_zero, Counter.asks, ← h, he] at hlt
  exact lt_irrefl _ hlt

/-- The requirement of the level does not go down. -/
theorem Gains.level (hf : Gains req top f) (idle : ∀ s, f s 0 = s)
    (hs : s.asks req 0 < s.asks req 1 → s.tries.toNat < s.asks req 1) (m : BitVec 64) :
    ∃ k, (f s m).level = s.up k ∧ s.asks req 0 ≤ s.asks req k := by
  have hzero : s.level = s.up 0 := (up_zero s).symm
  by_cases hfull : s.asks req 1 ≤ s.asks req 0
  · rw [hf.full hfull]
    exact ⟨0, hzero, le_rfl⟩
  · have hbelow : s.Below req := ⟨not_le.mp hfull, hs (not_le.mp hfull)⟩
    by_cases hm : m = 0
    · rw [hm, idle]
      exact ⟨0, hzero, le_rfl⟩
    · by_cases hlt : s.tries.toNat + m.toNat < 2 ^ 64
      · rcases outcome hbelow hlt with ⟨k, rest, hstays⟩ | ⟨k, hpeaks⟩
        · rw [hf.stays hm hbelow hlt hstays]
          refine ⟨k, rfl, ?_⟩
          rcases Nat.eq_zero_or_pos k with rfl | hk
          · exact le_rfl
          · exact ((hstays.rising.mono (Nat.le_succ k)).lt hk).le
        · rw [hf.peaks hm hbelow hlt hpeaks]
          exact ⟨k, rfl, (hpeaks.rising.lt hpeaks.pos).le⟩
      · rw [hf.spills hm hbelow (not_lt.mp hlt)]
        exact ⟨0, rfl, le_rfl⟩

/-- A level that was reached is not lost by more tries. -/
theorem Gains.level_ne (hf : Gains req top f) (idle : ∀ s, f s 0 = s) (h : s.Below req)
    (ha : a ≠ 0) (hlt : s.tries.toNat + a.toNat < 2 ^ 64)
    (hone : s.asks req 1 ≤ s.tries.toNat + a.toNat) (b : BitVec 64) :
    (f (f s a) b).level ≠ s.level := by
  have hfrom {s' : Counter w} {k : Nat} (hk : 0 < k) (hrise : Rising (s.asks req) k)
      (hlevel : s'.level = s.up k)
      (hs' : s'.asks req 0 < s'.asks req 1 → s'.tries.toNat < s'.asks req 1) :
      (f s' b).level ≠ s.level := by
    obtain ⟨j, hj, hle⟩ := hf.level idle hs' b
    rw [asks_up req hlevel] at hle
    rw [up_up hlevel] at hj
    exact Training.level_ne hj ((hrise.lt hk).trans_le hle)
  rcases outcome h hlt with ⟨k, rest, hstays⟩ | ⟨k, hpeaks⟩
  · have hk : 0 < k := by
      by_contra hk
      obtain rfl : k = 0 := by omega
      have hsum := hstays.sum
      have hbelow := hstays.below
      simp only [total_zero] at hsum
      simp only [Nat.zero_add] at hbelow
      omega
    rw [hf.stays ha h hlt hstays]
    have hreached := reached_below (hstays.rising _ (Nat.lt_succ_self _)) hstays.below
    exact hfrom hk (hstays.rising.mono (Nat.le_succ k)) rfl fun _ => hreached.1.tries
  · rw [hf.peaks ha h hlt hpeaks]
    refine hfrom hpeaks.pos hpeaks.rising rfl fun hrise => ?_
    have hasks := asks_up (s := s) (k := k) req
      (rfl : (⟨s.up k, 0, top s⟩ : Counter w).level = s.up k)
    rw [hasks] at hrise
    exact absurd hrise (not_lt.mpr hpeaks.top)

/-- Tries one after the other are worth what they are together. -/
theorem Gains.add_iff (hf : Gains req top f) (idle : ∀ s, f s 0 = s)
    (hs : s.asks req 0 < s.asks req 1 → s.tries.toNat < s.asks req 1)
    (hab : a.toNat + b.toNat < 2 ^ 64) :
    f (f s a) b = f s (a + b) ↔ ¬Overflows req s a b ∧ TopKept req top s a b := by
  have hsum : (a + b).toNat = a.toNat + b.toNat := by
    rw [BitVec.toNat_add, Nat.mod_eq_of_lt hab]
  by_cases hfull : s.asks req 1 ≤ s.asks req 0
  · simp only [hf.full hfull, true_iff]
    refine ⟨fun h => absurd h.1.rises (not_lt.mpr hfull), fun k rest k' _ _ hstays _ => ?_⟩
    exact absurd (hstays.rising 0 (Nat.succ_pos k)) (not_lt.mpr hfull)
  have h : s.Below req := ⟨not_le.mp hfull, hs (not_le.mp hfull)⟩
  have ht := h.tries
  by_cases ha : a = 0
  · subst ha
    simp only [idle, zero_add, true_iff]
    refine ⟨fun ho => ?_, fun k rest k' hne => absurd rfl hne⟩
    have := ho.2.1
    simp at this
    omega
  by_cases hb : b = 0
  · subst hb
    simp only [idle, add_zero, true_iff]
    refine ⟨fun ho => ?_, fun k rest k' _ _ hstays hpeaks => (hstays.not_peaks hpeaks).elim⟩
    have := ho.2.2
    simp at this
    omega
  have hne : a + b ≠ 0 := by
    intro he
    have hzero := congrArg BitVec.toNat he
    rw [hsum] at hzero
    have : a.toNat ≠ 0 := fun h0 => ha (BitVec.eq_of_toNat_eq h0)
    simp at hzero
    omega
  by_cases htotal : s.tries.toNat + a.toNat + b.toNat < 2 ^ 64
  · have hlt : s.tries.toNat + a.toNat < 2 ^ 64 := by omega
    have hlt' : s.tries.toNat + (a + b).toNat < 2 ^ 64 := by omega
    have hno : ¬Overflows req s a b := fun ho => by have := ho.2.2.2; omega
    rcases outcome h hlt with ⟨k, rest, hstays⟩ | ⟨k, hpeaks⟩
    · obtain ⟨hbelow, htries, hasks⟩ :=
        reached_below (hstays.rising _ (Nat.lt_succ_self _)) hstays.below
      have hsum1 := hstays.sum
      have hlt1 : (s.reached req k rest).tries.toNat + b.toNat < 2 ^ 64 := by omega
      rw [hf.stays ha h hlt hstays]
      rcases outcome hbelow hlt1 with ⟨k', rest', hstays'⟩ | ⟨k', hpeaks'⟩
      · rw [hf.stays hb hbelow hlt1 hstays', reached_reached]
        rw [hasks, htries] at hstays'
        have hall := hstays.trans hstays'
        rw [← hsum] at hall
        rw [hf.stays hne h hlt' hall]
        refine ⟨fun _ => ⟨hno, fun k rest k' _ _ _ hpeaks => ?_⟩, fun _ => rfl⟩
        rw [← hsum] at hpeaks
        exact (hall.not_peaks hpeaks).elim
      · rw [hf.peaks hb hbelow hlt1 hpeaks', up_up (s := s) (k := k) rfl]
        rw [hasks, htries] at hpeaks'
        have hall := hstays.then_peaks hpeaks'
        have hall' := hall
        rw [← hsum] at hall'
        rw [hf.peaks hne h hlt' hall', Counter.mk.injEq]
        refine ⟨fun htop => ⟨hno, fun k2 rest2 _ _ _ hstays2 _ => ?_⟩, fun hkept => ?_⟩
        · obtain ⟨rfl, rfl⟩ := hstays.unique hstays2
          exact htop.2.2
        · exact ⟨rfl, rfl, hkept.2 k rest _ ha htotal hstays hall⟩
    · have hfull' : (⟨s.up k, 0, top s⟩ : Counter w).asks req 1 ≤
          (⟨s.up k, 0, top s⟩ : Counter w).asks req 0 := by
        rw [asks_up (s := s) (k := k) req rfl]
        exact hpeaks.top
      have hall := hpeaks.more b.toNat
      rw [← hsum] at hall
      rw [hf.peaks ha h hlt hpeaks, hf.full hfull', hf.peaks hne h hlt' hall]
      refine ⟨fun _ => ⟨hno, fun k rest k' _ _ hstays _ => ?_⟩, fun _ => rfl⟩
      exact (hstays.not_peaks hpeaks).elim
  · have hwrap : 2 ^ 64 ≤ s.tries.toNat + (a + b).toNat := by omega
    have hkept : TopKept req top s a b := fun k rest k' _ hlt => absurd hlt htotal
    have hat := a.isLt
    rw [hf.spills hne h hwrap]
    by_cases hlt : s.tries.toNat + a.toNat < 2 ^ 64
    · by_cases hone : s.asks req 1 ≤ s.tries.toNat + a.toNat
      · refine ⟨fun he => ?_, fun hno => absurd ⟨h, hone, hlt, not_lt.mp htotal⟩ hno.1⟩
        have hlevel := hf.level_ne idle h ha hlt hone b
        rw [he] at hlevel
        exact absurd (up_zero s) hlevel
      · have hstays := Stays.here h.rises (not_le.mp hone)
        obtain ⟨hbelow, htries, -⟩ := reached_below h.rises hstays.below
        rw [hf.stays ha h hlt hstays, hf.spills hb hbelow (by omega), reached_reached, htries]
        refine ⟨fun _ => ⟨fun ho => hone ho.2.1, hkept⟩, fun _ => ?_⟩
        rw [hsum, Nat.add_assoc]
    · have hsmall : s.tries.toNat + a.toNat - 2 ^ 64 < s.asks req (0 + 1) := by
        simp only [Nat.zero_add]
        omega
      obtain ⟨hbelow, htries, hasks⟩ := reached_below h.rises hsmall
      have hsmall' : (s.reached req 0 (s.tries.toNat + a.toNat - 2 ^ 64)).tries.toNat + b.toNat <
          (s.reached req 0 (s.tries.toNat + a.toNat - 2 ^ 64)).asks req 1 := by
        rw [htries, hasks]
        simp only [Nat.zero_add]
        omega
      have hstays := Stays.here hbelow.rises hsmall'
      rw [hf.spills ha h (not_lt.mp hlt), hf.stays hb hbelow (by omega) hstays, reached_reached,
        htries]
      refine ⟨fun _ => ⟨fun ho => hlt ho.2.2.1, hkept⟩, fun _ => ?_⟩
      have hsame : s.tries.toNat + a.toNat - 2 ^ 64 + b.toNat =
          s.tries.toNat + (a.toNat + b.toNat) - 2 ^ 64 := by omega
      rw [hsum, hsame]

/-- The last level, where it is reached, asks for something. -/
def TopAsks (req : BitVec w → BitVec 64) (s : Counter w) (m : BitVec 64) : Prop :=
  ∀ k, s.tries.toNat + m.toNat < 2 ^ 64 → Peaks (s.asks req) s.tries.toNat m.toNat k →
    s.asks req (k + 1) ≠ 0

/-- What is left is less than the next level asks for. -/
theorem Gains.tries_lt_iff (hf : Gains req top f)
    (idle : (f s 0).level = s.level ∧ (f s 0).tries = s.tries)
    (hs : s.tries.toNat < s.asks req 1) (m : BitVec 64) :
    (f s m).tries < req ((f s m).level + 1) ↔ TopAsks req s m := by
  by_cases hfull : s.asks req 1 ≤ s.asks req 0
  · rw [hf.full hfull]
    refine ⟨fun _ k _ hpeaks => ?_, fun _ => hs⟩
    exact absurd (hpeaks.rising 0 hpeaks.pos) (not_lt.mpr hfull)
  have h : s.Below req := ⟨not_le.mp hfull, hs⟩
  by_cases hm : m = 0
  · subst hm
    rw [idle.1, idle.2]
    refine ⟨fun _ k _ hpeaks => ?_, fun _ => hs⟩
    have hstays := Stays.here (m := 0) h.rises (by omega)
    exact (hstays.not_peaks hpeaks).elim
  have hreached {k rest : Nat} (hrise : s.asks req k < s.asks req (k + 1))
      (hrest : rest < s.asks req (k + 1)) :
      (s.reached req k rest).tries < req ((s.reached req k rest).level + 1) := by
    obtain ⟨hbelow, -, -⟩ := reached_below hrise hrest
    exact hbelow.tries
  by_cases hlt : s.tries.toNat + m.toNat < 2 ^ 64
  · rcases outcome h hlt with ⟨k, rest, hstays⟩ | ⟨k, hpeaks⟩
    · rw [hf.stays hm h hlt hstays]
      refine ⟨fun _ k' _ hpeaks => (hstays.not_peaks hpeaks).elim, fun _ => ?_⟩
      exact hreached (hstays.rising _ (Nat.lt_succ_self _)) hstays.below
    · rw [hf.peaks hm h hlt hpeaks]
      have hasks : s.asks req (k + 1) = (req (s.up k + 1)).toNat := by
        rw [Counter.asks, up_succ]
      have hzero : (0 : BitVec 64) < req (s.up k + 1) ↔ s.asks req (k + 1) ≠ 0 := by
        rw [hasks, BitVec.lt_def]
        exact Nat.pos_iff_ne_zero
      refine hzero.trans ⟨fun hne k' _ hpeaks' => ?_, fun hall => hall k hlt hpeaks⟩
      obtain rfl := hpeaks.unique hpeaks'
      exact hne
  · rw [hf.spills hm h (not_lt.mp hlt)]
    refine ⟨fun _ k hlt' => absurd hlt' hlt, fun _ => hreached h.rises ?_⟩
    have := m.isLt
    have := h.tries
    simp only [Nat.zero_add]
    omega

/-- Two functions train alike where they show the same percentage at the last level. -/
theorem Gains.eq_iff {top' : Counter w → BitVec 8} {g : Counter w → BitVec 64 → Counter w}
    (hf : Gains req top f) (hg : Gains req top' g)
    (hs : s.asks req 0 < s.asks req 1 → s.tries.toNat < s.asks req 1) (hm : m ≠ 0) :
    f s m = g s m ↔ ∀ k, s.tries.toNat + m.toNat < 2 ^ 64 →
      Peaks (s.asks req) s.tries.toNat m.toNat k → top s = top' s := by
  by_cases hfull : s.asks req 1 ≤ s.asks req 0
  · rw [hf.full hfull, hg.full hfull]
    refine ⟨fun _ k _ hpeaks => ?_, fun _ => rfl⟩
    exact absurd (hpeaks.rising 0 hpeaks.pos) (not_lt.mpr hfull)
  have h : s.Below req := ⟨not_le.mp hfull, hs (not_le.mp hfull)⟩
  by_cases hlt : s.tries.toNat + m.toNat < 2 ^ 64
  · rcases outcome h hlt with ⟨k, rest, hstays⟩ | ⟨k, hpeaks⟩
    · rw [hf.stays hm h hlt hstays, hg.stays hm h hlt hstays]
      exact ⟨fun _ k' _ hpeaks => (hstays.not_peaks hpeaks).elim, fun _ => rfl⟩
    · rw [hf.peaks hm h hlt hpeaks, hg.peaks hm h hlt hpeaks, Counter.mk.injEq]
      exact ⟨fun he _ _ _ => he.2.2, fun hall => ⟨rfl, rfl, hall k hlt hpeaks⟩⟩
  · rw [hf.spills hm h (not_lt.mp hlt), hg.spills hm h (not_lt.mp hlt)]
    exact ⟨fun _ k hlt' => absurd hlt' hlt, fun _ => rfl⟩

/-- Tries are not lost. -/
theorem Gains.ne (hf : Gains req top f) (h : s.Below req) (hm : m ≠ 0) : f s m ≠ s := by
  have hmt := m.isLt
  have hm0 : m.toNat ≠ 0 := fun h0 => hm (BitVec.eq_of_toNat_eq h0)
  have hself {k rest : Nat} (hrise : s.asks req k < s.asks req (k + 1))
      (hrest : rest < s.asks req (k + 1)) (hne : rest ≠ s.tries.toNat) :
      s.reached req k rest ≠ s := by
    intro he
    obtain ⟨-, htries, -⟩ := reached_below hrise hrest
    rw [he] at htries
    exact hne htries.symm
  by_cases hlt : s.tries.toNat + m.toNat < 2 ^ 64
  · rcases outcome h hlt with ⟨k, rest, hstays⟩ | ⟨k, hpeaks⟩
    · rw [hf.stays hm h hlt hstays]
      rcases Nat.eq_zero_or_pos k with rfl | hk
      · have hsum := hstays.sum
        refine hself h.rises hstays.below ?_
        simp only [total_zero] at hsum
        omega
      · intro he
        have hlevel : (s.reached req k rest).level = s.up k := rfl
        exact Training.level_ne hlevel ((hstays.rising.mono (Nat.le_succ k)).lt hk)
          (congrArg Counter.level he)
    · rw [hf.peaks hm h hlt hpeaks]
      intro he
      have hlevel : (⟨s.up k, 0, top s⟩ : Counter w).level = s.up k := rfl
      exact Training.level_ne hlevel (hpeaks.rising.lt hpeaks.pos) (congrArg Counter.level he)
  · rw [hf.spills hm h (not_lt.mp hlt)]
    have ht := h.tries
    exact hself h.rises (by simp only [Nat.zero_add]; omega) (by omega)

end

/-! ### The player -/

theorem addSkillAdvance_idle (req : BitVec w → BitVec 64) (s : Counter w) :
    s.addSkillAdvance req id 0 = s := by
  unfold Counter.addSkillAdvance
  dsimp only
  split
  · rfl
  · exact if_pos rfl

theorem addManaSpent_flag (event : BitVec 64 → BitVec 64) (s : Counter w) (m : BitVec 64) :
    s.addManaSpent req event true m = s := if_pos rfl

theorem addManaSpent_idle (req : BitVec w → BitVec 64) (s : Counter w) :
    s.addManaSpent req id false 0 = s := by
  unfold Counter.addManaSpent
  rw [if_neg Bool.false_ne_true]
  dsimp only
  split
  · rfl
  · exact if_pos rfl

/-- The percentage that belongs to the tries. -/
def Counter.Shows (req : BitVec w → BitVec 64) (s : Counter w) : Prop :=
  s.percent = getPercentLevel s.tries (req (s.level + 1))

theorem addOfflineTries_keeps (req : BitVec w → BitVec 64) (resets : Bool) (s : Counter w)
    (hs : s.asks req 0 < s.asks req 1 → s.tries.toNat < s.asks req 1) :
    (s.addOfflineTries req id resets 0).1.level = s.level ∧
      (s.addOfflineTries req id resets 0).1.tries = s.tries := by
  by_cases hfull : s.asks req 1 ≤ s.asks req 0
  · rw [(gains_addOfflineTries req resets).full hfull]
    exact ⟨rfl, rfl⟩
  · have h : s.Below req := ⟨not_le.mp hfull, hs (not_le.mp hfull)⟩
    have hreach : ¬req (s.level + 1) ≤ s.tries + 0 := by
      rw [add_zero]
      exact Nat.not_le_of_lt h.tries
    rw [addOfflineTries_of_below h, loop, if_neg hreach]
    exact ⟨rfl, add_zero _⟩

/-- Offline, no tries at all still set the percentage. -/
theorem addOfflineTries_idle (h : s.Below req) :
    (s.addOfflineTries req id resets 0).1 = s ↔ s.Shows req := by
  have ht := h.tries
  have hzero : s.tries.toNat + (0 : BitVec 64).toNat = s.tries.toNat := by simp
  have hstays := Stays.here (t := s.tries.toNat) (m := (0 : BitVec 64).toNat) h.rises (by omega)
  rw [addOfflineTries_of_below h,
    (loop_stays _ h (by have := s.tries.isLt; omega) hstays).finish h.rises, hzero]
  obtain ⟨level, tries, percent⟩ := s
  simp only [Counter.reached, Counter.Shows, Counter.mk.injEq, BitVec.ofNat_toNat,
    BitVec.setWidth_eq, up_zero, true_and]
  exact eq_comm

/-- Two ways to train offline and online, by the tries that count. -/
structure Trainings where
  events : Events
  eventsOffline : Events
  a : BitVec 64
  b : BitVec 64
  offline : BitVec 64
  online : BitVec 64

namespace Trainings

variable (t : Trainings) (trained : Trained)

/-- The tries that count. -/
def countA : BitVec 64 := t.events.onGainSkillTries trained t.a
def countB : BitVec 64 := t.events.onGainSkillTries trained t.b
def countOnline : BitVec 64 := t.events.onGainSkillTries trained t.online

/-- What scripts make of the tries together is what they make of each, and offline they count as
many as online. -/
structure Matches : Prop where
  sum : (t.events.onGainSkillTries trained (t.a + t.b)).toNat =
    (t.countA trained).toNat + (t.countB trained).toNat
  offline : (if t.offline = 0 then 0 else t.eventsOffline.onGainSkillTries trained t.offline) =
    t.countOnline trained

variable {t trained}

theorem Matches.count (h : t.Matches trained) :
    t.events.onGainSkillTries trained (t.a + t.b) = t.countA trained + t.countB trained := by
  refine BitVec.eq_of_toNat_eq ?_
  rw [BitVec.toNat_add, ← h.sum, Nat.mod_eq_of_lt (BitVec.isLt _)]

theorem Matches.count_lt (h : t.Matches trained) :
    (t.countA trained).toNat + (t.countB trained).toNat < 2 ^ 64 := by
  rw [← h.sum]
  exact BitVec.isLt _

end Trainings

namespace Player

variable (v : Vocation) (p : Player) (skill : Skill) (t : Trainings)

/-- The laws of a skill. -/
structure SkillLaws : Prop where
  add : (p.addSkillAdvance t.events v skill t.a).addSkillAdvance t.events v skill t.b =
    p.addSkillAdvance t.events v skill (t.a + t.b)
  below : ((p.addSkillAdvance t.events v skill t.a).skills skill).tries <
    v.getReqSkillTries skill (((p.addSkillAdvance t.events v skill t.a).skills skill).level + 1)
  belowOffline :
    ((p.addOfflineTrainingTries t.eventsOffline v (.skill skill) t.offline).1.skills skill).tries <
      v.getReqSkillTries skill (((p.addOfflineTrainingTries t.eventsOffline v (.skill skill)
        t.offline).1.skills skill).level + 1)
  offline : (p.addOfflineTrainingTries t.eventsOffline v (.skill skill) t.offline).1 =
    p.addSkillAdvance t.events v skill t.online

/-- Where they hold. -/
structure SkillFits : Prop where
  add : ¬Overflows (v.getReqSkillTries skill) (p.skills skill) (t.countA (.skill skill))
    (t.countB (.skill skill))
  below : TopAsks (v.getReqSkillTries skill) (p.skills skill) (t.countA (.skill skill))
  belowOffline : TopAsks (v.getReqSkillTries skill) (p.skills skill)
    (t.countOnline (.skill skill))
  offline : (p.skills skill).Below (v.getReqSkillTries skill) → t.offline ≠ 0 →
    t.countOnline (.skill skill) = 0 → (p.skills skill).Shows (v.getReqSkillTries skill)

/-- The laws of the magic level. -/
structure MagicLaws : Prop where
  add : (p.addManaSpent t.events v t.a).addManaSpent t.events v t.b =
    p.addManaSpent t.events v (t.a + t.b)
  below : (p.addManaSpent t.events v t.a).magic.tries <
    v.getReqMana ((p.addManaSpent t.events v t.a).magic.level + 1)
  belowOffline : (p.addOfflineTrainingTries t.eventsOffline v .magLevel t.offline).1.magic.tries <
    v.getReqMana
      ((p.addOfflineTrainingTries t.eventsOffline v .magLevel t.offline).1.magic.level + 1)
  offline : (p.addOfflineTrainingTries t.eventsOffline v .magLevel t.offline).1 =
    p.addManaSpent t.events v t.online

/-- Where the magic level is trained offline as it is online. -/
def OfflineFits (c : Counter 32) (flag : Bool) (n : BitVec 64) : Prop :=
  c.Below v.getReqMana → (n = 0 → c.Shows v.getReqMana) ∧ (n ≠ 0 → flag = false ∧
    ∀ k, c.tries.toNat + n.toNat < 2 ^ 64 →
      Peaks (c.asks v.getReqMana) c.tries.toNat n.toNat k → c.percent = 0)

/-- Where they hold. -/
structure MagicFits : Prop where
  add : p.notGainMana = false →
    ¬Overflows v.getReqMana p.magic (t.countA .magLevel) (t.countB .magLevel) ∧
      TopKept v.getReqMana Counter.percent p.magic (t.countA .magLevel) (t.countB .magLevel)
  below : p.notGainMana = false → TopAsks v.getReqMana p.magic (t.countA .magLevel)
  belowOffline : TopAsks v.getReqMana p.magic (t.countOnline .magLevel)
  offline : t.offline ≠ 0 → OfflineFits v p.magic p.notGainMana (t.countOnline .magLevel)

variable {v p skill t}

theorem addSkillAdvance_eq {events : Events} {count : BitVec 64} :
    p.addSkillAdvance events v skill count = { p with
      skills := Function.update p.skills skill ((p.skills skill).addSkillAdvance
        (v.getReqSkillTries skill) id (events.onGainSkillTries (.skill skill) count)) } := rfl

theorem addOffline_skill {events : Events} {n : BitVec 64} (hn : n ≠ 0) :
    (p.addOfflineTrainingTries events v (.skill skill) n).1 = { p with
      skills := Function.update p.skills skill ((p.skills skill).addOfflineTries
        (v.getReqSkillTries skill) id true (events.onGainSkillTries (.skill skill) n)).1 } := by
  unfold addOfflineTrainingTries
  rw [if_neg hn]
  rfl

theorem addOffline_zero {events : Events} {trained : Trained} :
    (p.addOfflineTrainingTries events v trained 0).1 = p := rfl

theorem withSkill_inj {c c' : Counter 16} :
    ({ p with skills := Function.update p.skills skill c } : Player) =
      { p with skills := Function.update p.skills skill c' } ↔ c = c' := by
  refine ⟨fun h => ?_, fun h => h ▸ rfl⟩
  have hskills := congrFun (congrArg Player.skills h) skill
  simpa using hskills

theorem skill_iff (hbelow : (p.skills skill).tries <
      v.getReqSkillTries skill ((p.skills skill).level + 1))
    (hmatch : t.Matches (.skill skill)) :
    p.SkillLaws v skill t ↔ p.SkillFits v skill t := by
  have hgains := gains_addSkillAdvance (v.getReqSkillTries skill)
  have hoff := gains_addOfflineTries (v.getReqSkillTries skill) true
  have hidle := addSkillAdvance_idle (v.getReqSkillTries skill)
  have hs : (p.skills skill).tries.toNat < (p.skills skill).asks (v.getReqSkillTries skill) 1 :=
    hbelow
  have hkeeps := addOfflineTries_keeps (v.getReqSkillTries skill) true
    (p.skills skill) fun _ => hs
  have hadd : (p.addSkillAdvance t.events v skill t.a).addSkillAdvance t.events v skill t.b =
      p.addSkillAdvance t.events v skill (t.a + t.b) ↔
      ¬Overflows (v.getReqSkillTries skill) (p.skills skill) (t.countA (.skill skill))
        (t.countB (.skill skill)) := by
    simp only [addSkillAdvance_eq, Function.update_self, Function.update_idem]
    rw [withSkill_inj, hmatch.count]
    refine (hgains.add_iff hidle (fun _ => hs) hmatch.count_lt).trans (and_iff_left ?_)
    exact fun _ _ _ _ _ _ _ => rfl
  have hlow : ((p.addSkillAdvance t.events v skill t.a).skills skill).tries <
      v.getReqSkillTries skill (((p.addSkillAdvance t.events v skill t.a).skills skill).level + 1) ↔
      TopAsks (v.getReqSkillTries skill) (p.skills skill) (t.countA (.skill skill)) := by
    simp only [addSkillAdvance_eq, Function.update_self]
    exact hgains.tries_lt_iff (by rw [hidle]; exact ⟨rfl, rfl⟩) hs _
  by_cases hn : t.offline = 0
  · -- nothing is trained offline
    have hzero : t.countOnline (.skill skill) = 0 := by
      rw [← hmatch.offline, if_pos hn]
    have hsame : p.addSkillAdvance t.events v skill t.online = p := by
      rw [addSkillAdvance_eq, show t.events.onGainSkillTries (.skill skill) t.online = 0 from hzero,
        hidle, Function.update_eq_self]
    have hasks : TopAsks (v.getReqSkillTries skill) (p.skills skill) 0 :=
      (hgains.tries_lt_iff (by rw [hidle]; exact ⟨rfl, rfl⟩) hs 0).mp (by rw [hidle]; exact hbelow)
    refine ⟨fun h => ⟨hadd.mp h.add, hlow.mp h.below, by rw [hzero]; exact hasks,
      fun _ hne => absurd hn hne⟩, fun h => ⟨hadd.mpr h.add, hlow.mpr h.below, ?_, ?_⟩⟩
    · rw [hn, addOffline_zero]
      exact hbelow
    · rw [hn, addOffline_zero, hsame]
  · have hcount : t.eventsOffline.onGainSkillTries (.skill skill) t.offline =
        t.countOnline (.skill skill) := by
      rw [← hmatch.offline, if_neg hn]
    have hlowOff : ((p.addOfflineTrainingTries t.eventsOffline v (.skill skill)
          t.offline).1.skills skill).tries < v.getReqSkillTries skill
          (((p.addOfflineTrainingTries t.eventsOffline v (.skill skill)
            t.offline).1.skills skill).level + 1) ↔
        TopAsks (v.getReqSkillTries skill) (p.skills skill) (t.countOnline (.skill skill)) := by
      simp only [addOffline_skill hn, Function.update_self, hcount]
      exact hoff.tries_lt_iff hkeeps hs _
    have heq : (p.addOfflineTrainingTries t.eventsOffline v (.skill skill) t.offline).1 =
        p.addSkillAdvance t.events v skill t.online ↔
        ((p.skills skill).Below (v.getReqSkillTries skill) →
          t.countOnline (.skill skill) = 0 →
            (p.skills skill).Shows (v.getReqSkillTries skill)) := by
      rw [addOffline_skill hn, addSkillAdvance_eq, withSkill_inj, hcount]
      change _ = (p.skills skill).addSkillAdvance _ id (t.countOnline (.skill skill)) ↔ _
      by_cases hm : t.countOnline (.skill skill) = 0
      · rw [hm, hidle]
        by_cases hfull : (p.skills skill).asks (v.getReqSkillTries skill) 1 ≤
            (p.skills skill).asks (v.getReqSkillTries skill) 0
        · rw [hoff.full hfull]
          exact ⟨fun _ h => absurd h.rises (not_lt.mpr hfull), fun _ => rfl⟩
        · have h : (p.skills skill).Below (v.getReqSkillTries skill) := ⟨not_le.mp hfull, hs⟩
          rw [addOfflineTries_idle h]
          exact ⟨fun hshow _ _ => hshow, fun hall => hall h rfl⟩
      · refine ⟨fun _ _ h0 => absurd h0 hm, fun _ => ?_⟩
        exact (hoff.eq_iff hgains (fun _ => hs) hm).mpr fun _ _ _ => rfl
    exact ⟨fun h => ⟨hadd.mp h.add, hlow.mp h.below, hlowOff.mp h.belowOffline,
        fun hb _ h0 => heq.mp h.offline hb h0⟩,
      fun h => ⟨hadd.mpr h.add, hlow.mpr h.below, hlowOff.mpr h.belowOffline,
        heq.mpr fun hb h0 => h.offline hb hn h0⟩⟩

theorem addManaSpent_eq {events : Events} {amount : BitVec 64} :
    p.addManaSpent events v amount = { p with
      magic := p.magic.addManaSpent v.getReqMana id p.notGainMana
        (events.onGainSkillTries .magLevel amount) } := rfl

theorem addOffline_magic {events : Events} {n : BitVec 64} (hn : n ≠ 0) :
    (p.addOfflineTrainingTries events v .magLevel n).1 = { p with
      magic := (p.magic.addOfflineTries v.getReqMana id false
        (events.onGainSkillTries .magLevel n)).1 } := by
  unfold addOfflineTrainingTries
  rw [if_neg hn]
  rfl

theorem withMagic_inj {c c' : Counter 32} :
    ({ p with magic := c } : Player) = { p with magic := c' } ↔ c = c' :=
  ⟨fun h => congrArg Player.magic h, fun h => h ▸ rfl⟩

/-- Training the magic level online and offline, by the tries that count. -/
theorem magic_offline {c : Counter 32} {flag : Bool} {n : BitVec 64}
    (hs : c.tries.toNat < c.asks v.getReqMana 1) :
    (c.addOfflineTries v.getReqMana id false n).1 = c.addManaSpent v.getReqMana id flag n ↔
      OfflineFits v c flag n := by
  have hoff := gains_addOfflineTries v.getReqMana false
  by_cases hfull : c.asks v.getReqMana 1 ≤ c.asks v.getReqMana 0
  · have hon : c.addManaSpent v.getReqMana id flag n = c := by
      cases flag with
      | true => exact addManaSpent_flag id c n
      | false => exact (gains_addManaSpent _).full hfull
    rw [hoff.full hfull, hon]
    exact ⟨fun _ h => absurd h.rises (not_lt.mpr hfull), fun _ => rfl⟩
  have h : c.Below v.getReqMana := ⟨not_le.mp hfull, hs⟩
  by_cases hn : n = 0
  · have hon : c.addManaSpent v.getReqMana id flag 0 = c := by
      cases flag with
      | true => exact addManaSpent_flag id c 0
      | false => exact addManaSpent_idle _ c
    rw [hn, hon, addOfflineTries_idle h]
    exact ⟨fun hshow _ => ⟨fun _ => hshow, fun hne => absurd rfl hne⟩, fun hall => (hall h).1 rfl⟩
  cases flag with
  | true =>
      rw [addManaSpent_flag]
      refine ⟨fun he => absurd he (hoff.ne h hn), fun hall => ?_⟩
      cases ((hall h).2 hn).1
  | false =>
      rw [hoff.eq_iff (gains_addManaSpent _) (fun _ => hs) hn]
      refine ⟨fun hall _ => ⟨fun h0 => absurd h0 hn, fun _ => ⟨rfl, fun k hlt hp => ?_⟩⟩,
        fun hall k hlt hp => ?_⟩
      · exact (hall k hlt hp).symm
      · exact (((hall h).2 hn).2 k hlt hp).symm

theorem magic_iff (hbelow : p.magic.tries < v.getReqMana (p.magic.level + 1))
    (hmatch : t.Matches .magLevel) : p.MagicLaws v t ↔ p.MagicFits v t := by
  have hgains := gains_addManaSpent v.getReqMana
  have hoff := gains_addOfflineTries v.getReqMana false
  have hidle := addManaSpent_idle v.getReqMana
  have hs : p.magic.tries.toNat < p.magic.asks v.getReqMana 1 := hbelow
  have hkeeps := addOfflineTries_keeps v.getReqMana false p.magic fun _ => hs
  have hadd : (p.addManaSpent t.events v t.a).addManaSpent t.events v t.b =
      p.addManaSpent t.events v (t.a + t.b) ↔ (p.notGainMana = false →
        ¬Overflows v.getReqMana p.magic (t.countA .magLevel) (t.countB .magLevel) ∧
          TopKept v.getReqMana Counter.percent p.magic (t.countA .magLevel)
            (t.countB .magLevel)) := by
    simp only [addManaSpent_eq]
    rw [withMagic_inj, hmatch.count]
    cases p.notGainMana with
    | true =>
        simp only [addManaSpent_flag]
        exact ⟨(fun _ h => by cases h), fun _ => trivial⟩
    | false =>
        refine (hgains.add_iff hidle (fun _ => hs) hmatch.count_lt).trans ?_
        exact ⟨fun h _ => h, fun h => h rfl⟩
  have hlow : (p.addManaSpent t.events v t.a).magic.tries <
      v.getReqMana ((p.addManaSpent t.events v t.a).magic.level + 1) ↔
      (p.notGainMana = false → TopAsks v.getReqMana p.magic (t.countA .magLevel)) := by
    simp only [addManaSpent_eq]
    cases p.notGainMana with
    | true =>
        simp only [addManaSpent_flag]
        exact ⟨(fun _ h => by cases h), fun _ => hbelow⟩
    | false =>
        refine (hgains.tries_lt_iff (by rw [hidle]; exact ⟨rfl, rfl⟩) hs _).trans ?_
        exact ⟨fun h _ => h, fun h => h rfl⟩
  by_cases hn : t.offline = 0
  · -- nothing is trained offline
    have hzero : t.countOnline .magLevel = 0 := by
      rw [← hmatch.offline, if_pos hn]
    have hsame : p.addManaSpent t.events v t.online = p := by
      rw [addManaSpent_eq, show t.events.onGainSkillTries .magLevel t.online = 0 from hzero]
      cases hflag : p.notGainMana with
      | true => rw [addManaSpent_flag, ← hflag]
      | false => rw [hidle, ← hflag]
    have hasks : TopAsks v.getReqMana p.magic 0 :=
      (hgains.tries_lt_iff (by rw [hidle]; exact ⟨rfl, rfl⟩) hs 0).mp (by rw [hidle]; exact hbelow)
    refine ⟨fun h => ⟨hadd.mp h.add, hlow.mp h.below, by rw [hzero]; exact hasks,
      fun hne => absurd hn hne⟩, fun h => ⟨hadd.mpr h.add, hlow.mpr h.below, ?_, ?_⟩⟩
    · rw [hn, addOffline_zero]
      exact hbelow
    · rw [hn, addOffline_zero, hsame]
  · have hcount : t.eventsOffline.onGainSkillTries .magLevel t.offline =
        t.countOnline .magLevel := by
      rw [← hmatch.offline, if_neg hn]
    have hlowOff : (p.addOfflineTrainingTries t.eventsOffline v .magLevel
          t.offline).1.magic.tries < v.getReqMana ((p.addOfflineTrainingTries t.eventsOffline v
            .magLevel t.offline).1.magic.level + 1) ↔
        TopAsks v.getReqMana p.magic (t.countOnline .magLevel) := by
      simp only [addOffline_magic hn, hcount]
      exact hoff.tries_lt_iff hkeeps hs _
    have heq : (p.addOfflineTrainingTries t.eventsOffline v .magLevel t.offline).1 =
        p.addManaSpent t.events v t.online ↔
        OfflineFits v p.magic p.notGainMana (t.countOnline .magLevel) := by
      rw [addOffline_magic hn, addManaSpent_eq, withMagic_inj, hcount]
      exact magic_offline hs
    exact ⟨fun h => ⟨hadd.mp h.add, hlow.mp h.below, hlowOff.mp h.belowOffline,
        fun _ => heq.mp h.offline⟩,
      fun h => ⟨hadd.mpr h.add, hlow.mpr h.below, hlowOff.mpr h.belowOffline,
        heq.mpr (h.offline hn)⟩⟩

end Player

/-- Where the laws of training hold, for skills and for the magic level. -/
theorem training_iff (v : Vocation) (p : Player) (t : Trainings) :
    (∀ skill, (p.skills skill).tries < v.getReqSkillTries skill ((p.skills skill).level + 1) →
      t.Matches (.skill skill) → (p.SkillLaws v skill t ↔ p.SkillFits v skill t)) ∧
    (p.magic.tries < v.getReqMana (p.magic.level + 1) → t.Matches .magLevel →
      (p.MagicLaws v t ↔ p.MagicFits v t)) :=
  ⟨fun _ hbelow hmatch => Player.skill_iff hbelow hmatch,
    fun hbelow hmatch => Player.magic_iff hbelow hmatch⟩

namespace Sample

/-- The mana of the levels 4, 5 and 6 for a multiplier of 1.05. -/
def vocation : Vocation where
  getReqSkillTries _ _ := 0
  getReqMana level := if level = 4 then 460 else 480

def mage : Player where
  skills _ := { level := 10 }
  magic := { level := 4 }

/-- The last level is reached with half of the mana already shown, or with none. -/
theorem mage_percent :
    mage.magic.tries < vocation.getReqMana (mage.magic.level + 1) ∧
    ((mage.addManaSpent {} vocation 240).addManaSpent {} vocation 240).magic = ⟨5, 0, 50⟩ ∧
    (mage.addManaSpent {} vocation (240 + 240)).magic = ⟨5, 0, 0⟩ := by
  have hhalf : (mage.addManaSpent {} vocation 240).magic = ⟨4, 240, 50⟩ := by
    simp only [Player.addManaSpent, Counter.addManaSpent, mage, vocation]
    rw [loop]
    decide
  refine ⟨by decide, ?_, ?_⟩
  · rw [Player.addManaSpent, hhalf]
    simp only [Counter.addManaSpent, vocation]
    rw [loop]
    decide
  · simp only [Player.addManaSpent, Counter.addManaSpent, mage, vocation]
    rw [loop]
    decide

end Sample

end TibServer.Training
