import TibServer.TrainingLaws

/-!
What a death takes of the skills and of the magic level (`Player::death` in `player.cpp`). The part
of the sum of all tries that is lost is computed in floating point, and is a parameter here; of
what is lost of a skill, 32 bits are kept.
-/

namespace TibServer.Training

open Experience (getPercentLevel atLeastZero)
open Thresholds

variable {w : Nat}

namespace Counter

/-- The sum of the requirements from level `first` on, and of the tries. -/
def sumTries (req : BitVec w → BitVec 64) (first : Nat) (s : Counter w) : BitVec 64 :=
  (List.range' first (s.level.toNat + 1 - first)).foldl
    (fun sum c => sum + req (BitVec.ofNat w c)) 0 + s.tries

/-- The loop over the magic levels. -/
def downMana (req : BitVec 32 → BitVec 64) (s : Counter 32) (lostMana : BitVec 64) :
    Counter 32 × BitVec 64 :=
  if s.tries < lostMana ∧ 0 < s.level then
    downMana req { s with tries := req s.level, level := s.level - 1 } (lostMana - s.tries)
  else (s, lostMana)
  termination_by s.level.toNat
  decreasing_by
    rename_i h
    have hpos : 0 < s.level := h.2
    show (s.level - 1).toNat < s.level.toNat
    bv_omega

def loseMana (req : BitVec 32 → BitVec 64) (loss : BitVec 64 → BitVec 64) (s : Counter 32) :
    Counter 32 :=
  let (s, lostMana) := s.downMana req (loss (s.sumTries req 1))
  let tries := s.tries - lostMana
  let nextReqMana := req (s.level + 1)
  { s with
    tries
    percent := if req s.level < nextReqMana then getPercentLevel tries nextReqMana else 0 }

/-- The loop over the levels of a skill. -/
def downSkill (req : BitVec 16 → BitVec 64) (s : Counter 16) (lostSkillTries : BitVec 32) :
    Counter 16 × BitVec 32 :=
  if s.tries < lostSkillTries.setWidth 64 then
    if s.level ≤ 10 then ({ s with level := 10, tries := 0 }, 0)
    else
      downSkill req { s with tries := req s.level, level := s.level - 1 }
        ((lostSkillTries.setWidth 64 - s.tries : BitVec 64).setWidth 32)
  else (s, lostSkillTries)
  termination_by s.level.toNat
  decreasing_by
    rename_i h
    have hpos : ¬s.level ≤ 10 := h
    show (s.level - 1).toNat < s.level.toNat
    bv_omega

/-- `std::max<int32_t>(0, left)`. -/
def atLeastZero32 (left : BitVec 64) : BitVec 64 := (atLeastZero (left.setWidth 32)).setWidth 64

def loseSkill (req : BitVec 16 → BitVec 64) (loss : BitVec 64 → BitVec 64) (s : Counter 16) :
    Counter 16 :=
  let (s, lostSkillTries) := s.downSkill req ((loss (s.sumTries req 11)).setWidth 32)
  let tries := atLeastZero32 (s.tries - lostSkillTries.setWidth 64)
  { s with tries, percent := getPercentLevel tries (req s.level) }

end Counter

/-- The part of `Player::death` on the skills and the magic level. -/
def Player.death (v : Vocation) (loss : BitVec 64 → BitVec 64) (p : Player) : Player :=
  { p with
    magic := p.magic.loseMana v.getReqMana loss
    skills := fun skill => (p.skills skill).loseSkill (v.getReqSkillTries skill) loss }

/-! ### The sum -/

/-- The requirements of the levels above the one that is started at. -/
def base (req : BitVec w → BitVec 64) (start k : Nat) : Nat :=
  (req (BitVec.ofNat w (start + k))).toNat

/-- What the levels and the tries are worth. -/
def Counter.worth (req : BitVec w → BitVec 64) (start : Nat) (s : Counter w) : Nat :=
  total (base req start) (s.level.toNat - start) + s.tries.toNat

/-! ### The loops -/

variable {k : Nat}

theorem base_level (req : BitVec w → BitVec 64) {level : BitVec w} {start : Nat}
    (h : level.toNat = start + k) : (req level).toNat = base req start k := by
  unfold base
  rw [← h, BitVec.ofNat_toNat, BitVec.setWidth_eq]

theorem downMana_eq (req : BitVec 32 → BitVec 64) {s : Counter 32} (lost : BitVec 64)
    (hlevel : s.level.toNat = 0 + k) :
    let q := fall (base req 0) k s.tries.toNat lost.toNat
    (s.downMana req lost).1.level.toNat = 0 + q.1 ∧
      (s.downMana req lost).1.tries.toNat = q.2.1 ∧ (s.downMana req lost).2.toNat = q.2.2 := by
  induction k generalizing s lost with
  | zero =>
      have hstop : ¬(s.tries < lost ∧ 0 < s.level) := by
        rintro ⟨-, hpos⟩
        have hpos' : 0 < s.level.toNat := hpos
        omega
      rw [Counter.downMana, if_neg hstop]
      exact ⟨hlevel, rfl, rfl⟩
  | succ k ih =>
      have hreq := base_level req hlevel
      by_cases hle : lost.toNat ≤ s.tries.toNat
      · have hstop : ¬(s.tries < lost ∧ 0 < s.level) := fun h => absurd h.1 (not_lt.mpr hle)
        rw [Counter.downMana, if_neg hstop, fall_of_le hle]
        exact ⟨hlevel, rfl, rfl⟩
      · have hdown : s.tries < lost ∧ 0 < s.level := ⟨not_le.mp hle, by
          change 0 < s.level.toNat
          omega⟩
        have hlost : (lost - s.tries).toNat = lost.toNat - s.tries.toNat :=
          BitVec.toNat_sub_of_le (not_le.mp hle).le
        have hlevel' : (s.level - 1).toNat = 0 + k := by bv_omega
        rw [Counter.downMana, if_pos hdown, fall_succ (not_le.mp hle), ← hreq, ← hlost]
        exact ih (s := { s with tries := req s.level, level := s.level - 1 }) _ hlevel'

theorem toNat_wide (lost : BitVec 32) : (lost.setWidth 64).toNat = lost.toNat := by
  rw [BitVec.toNat_setWidth]
  have := lost.isLt
  omega

theorem lt_wide {tries : BitVec 64} {lost : BitVec 32} (h : tries.toNat < lost.toNat) :
    tries < lost.setWidth 64 := by
  rw [BitVec.lt_def, toNat_wide]
  exact h

theorem downSkill_stop {req : BitVec 16 → BitVec 64} {s : Counter 16} {lost : BitVec 32}
    (h : lost.toNat ≤ s.tries.toNat) : s.downSkill req lost = (s, lost) := by
  have hstop : ¬s.tries < lost.setWidth 64 := by
    rw [BitVec.lt_def, toNat_wide]
    omega
  rw [Counter.downSkill, if_neg hstop]

/-- The loop of a skill stops at the bottom, where nothing is left. -/
theorem downSkill_eq {req : BitVec 16 → BitVec 64} {s : Counter 16} {lost : BitVec 32}
    (hlevel : s.level.toNat = 10 + k) :
    let q := fall (base req 10) k s.tries.toNat lost.toNat
    (q.2.2 ≤ q.2.1 → (s.downSkill req lost).1.level.toNat = 10 + q.1 ∧
      (s.downSkill req lost).1.tries.toNat = q.2.1 ∧ (s.downSkill req lost).2.toNat = q.2.2) ∧
    (q.2.1 < q.2.2 → (s.downSkill req lost).1.level = 10 ∧ (s.downSkill req lost).1.tries = 0 ∧
      (s.downSkill req lost).2 = 0) := by
  induction k generalizing s lost with
  | zero =>
      by_cases hle : lost.toNat ≤ s.tries.toNat
      · rw [downSkill_stop hle]
        exact ⟨fun _ => ⟨hlevel, rfl, rfl⟩, fun hlt => absurd hlt (not_lt.mpr hle)⟩
      · have hten : s.level ≤ 10 := by
          change s.level.toNat ≤ 10
          omega
        rw [Counter.downSkill, if_pos (lt_wide (not_le.mp hle)), if_pos hten]
        exact ⟨fun h => absurd h hle, fun _ => ⟨rfl, rfl, rfl⟩⟩
  | succ k ih =>
      by_cases hle : lost.toNat ≤ s.tries.toNat
      · rw [downSkill_stop hle, fall_of_le hle]
        exact ⟨fun _ => ⟨hlevel, rfl, rfl⟩, fun hlt => absurd hlt (not_lt.mpr hle)⟩
      · have hten : ¬s.level ≤ 10 := by
          change ¬s.level.toNat ≤ 10
          omega
        have hlost : ((lost.setWidth 64 - s.tries : BitVec 64).setWidth 32).toNat =
            lost.toNat - s.tries.toNat := by
          have hlt := lost.isLt
          have hsub : (lost.setWidth 64 - s.tries).toNat = lost.toNat - s.tries.toNat := by
            rw [BitVec.toNat_sub_of_le (Nat.le_of_lt (lt_wide (not_le.mp hle))), toNat_wide]
          rw [BitVec.toNat_setWidth, hsub]
          omega
        have hlevel' : (s.level - 1).toNat = 10 + k := by bv_omega
        rw [Counter.downSkill, if_pos (lt_wide (not_le.mp hle)), if_neg hten,
          fall_succ (not_le.mp hle), ← base_level req hlevel, ← hlost]
        exact ih (s := { s with tries := req s.level, level := s.level - 1 }) hlevel'

/-! ### The laws of a death -/

/-- The percentage that training shows for the level and the tries. -/
def Counter.shown (req : BitVec w → BitVec 64) (s : Counter w) : BitVec 8 :=
  (Run.finish ⟨s, 0, req s.level, req (s.level + 1), false⟩).percent

theorem shown_eq (req : BitVec w → BitVec 64) (s : Counter w) :
    s.shown req = if req s.level < req (s.level + 1) then
      getPercentLevel s.tries (req (s.level + 1)) else 0 := by
  unfold Counter.shown Run.finish
  dsimp only
  rw [add_zero]

theorem getPercentLevel_zero (next : BitVec 64) : getPercentLevel 0 next = 0 := by
  unfold getPercentLevel
  split
  · rfl
  · have hzero : (0 : BitVec 64) * 100 / next = 0 := by
      rw [zero_mul]
      exact BitVec.zero_udiv
    rw [hzero]
    rfl

theorem base_succ (req : BitVec w → BitVec 64) {level : BitVec w} {start : Nat}
    (h : level.toNat = start + k) : (req (level + 1)).toNat = base req start (k + 1) := by
  have hnext : level + 1 = BitVec.ofNat w (start + (k + 1)) := by
    rw [← Nat.add_assoc, ← h, BitVec.ofNat_add, BitVec.ofNat_toNat, BitVec.setWidth_eq]
    rfl
  rw [hnext]
  rfl

theorem worth_eq (req : BitVec w → BitVec 64) {s : Counter w} {start : Nat}
    (h : s.level.toNat = start + k) :
    s.worth req start = total (base req start) k + s.tries.toNat := by
  unfold Counter.worth
  rw [h, Nat.add_sub_cancel_left]

/-- A conversion to `int32_t` keeps what is below 2 ^ 31. -/
theorem atLeastZero32_eq (x : BitVec 64) : Counter.atLeastZero32 x = x ↔ x.toNat < 2 ^ 31 := by
  have hlow : (x.setWidth 32).toNat = x.toNat % 2 ^ 32 := BitVec.toNat_setWidth 32 x
  have hmsb := BitVec.msb_eq_decide (x.setWidth 32)
  unfold Counter.atLeastZero32
  rw [← BitVec.toNat_inj, toNat_wide]
  unfold atLeastZero
  split
  · rename_i h
    rw [hmsb] at h
    simp only [decide_eq_true_eq] at h
    have : (0 : BitVec 32).toNat = 0 := rfl
    omega
  · rename_i h
    rw [hmsb] at h
    simp only [decide_eq_true_eq] at h
    omega

/-- What is asked of a death where `lost` is taken from the counter. -/
structure Lowered (req : BitVec w → BitVec 64) (start lost : Nat) (s s' : Counter w) : Prop where
  /-- The loop over the levels up to this one ends. -/
  ends : s.level.toNat + 1 < 2 ^ w
  sum : s.worth req start < 2 ^ 64
  start_le : start ≤ s'.level.toNat
  worth : s'.worth req start = s.worth req start - lost
  below : s'.tries < req (s'.level + 1)
  percent : s'.percent = s'.shown req

/-- Where what is left is less than the next level asks for. -/
structure Lowers (req : BitVec w → BitVec 64) (start lost : Nat) (s : Counter w) : Prop where
  ends : s.level.toNat + 1 < 2 ^ w
  sum : s.worth req start < 2 ^ 64
  below : lost ≤ s.worth req start →
    s.worth req start - lost < total (base req start) (s.level.toNat - start + 1)

/-! ### A skill -/

section

variable {req : BitVec 16 → BitVec 64} {s : Counter 16}

/-- A loss that is more than everything leads to the bottom. -/
theorem downSkill_bottom (lost : BitVec 32) (h : s.worth req 10 < lost.toNat) :
    (s.downSkill req lost).1.level = 10 ∧ (s.downSkill req lost).1.tries = 0 ∧
      (s.downSkill req lost).2 = 0 := by
  rcases Nat.lt_or_ge s.level.toNat 10 with hlow | hten
  · have hlt : s.tries.toNat < lost.toNat := by
      unfold Counter.worth at h
      omega
    have hlevel : s.level ≤ 10 := hlow.le
    rw [Counter.downSkill, if_pos (lt_wide hlt), if_pos hlevel]
    exact ⟨rfl, rfl, rfl⟩
  · obtain ⟨k, hlevel⟩ := Nat.exists_eq_add_of_le hten
    rw [worth_eq req hlevel] at h
    exact (downSkill_eq hlevel).2 (fall_bottom h).2

variable {loss : BitVec 64 → BitVec 64} {ℓ : BitVec 64}

theorem lost_toNat (h : ℓ.toNat < 2 ^ 32) : (ℓ.setWidth 32).toNat = ℓ.toNat := by
  rw [BitVec.toNat_setWidth, Nat.mod_eq_of_lt h]

theorem loseSkill_bottom (hloss : loss (s.sumTries req 11) = ℓ) (hfits : ℓ.toNat < 2 ^ 32)
    (h : s.worth req 10 < ℓ.toNat) : s.loseSkill req loss = ⟨10, 0, 0⟩ := by
  obtain ⟨hlevel, htries, hleft⟩ := downSkill_bottom (ℓ.setWidth 32)
    (by rwa [lost_toNat hfits])
  unfold Counter.loseSkill
  dsimp only
  rw [hloss, hlevel, htries, hleft]
  have hzero : Counter.atLeastZero32 (0 - BitVec.setWidth 64 (0 : BitVec 32)) = 0 := by decide
  rw [hzero, getPercentLevel_zero]

theorem loseSkill_stop (hloss : loss (s.sumTries req 11) = ℓ) (hfits : ℓ.toNat < 2 ^ 32)
    (h : ℓ.toNat ≤ s.tries.toNat) :
    (s.loseSkill req loss).level = s.level ∧
      (s.loseSkill req loss).tries = Counter.atLeastZero32 (s.tries - ℓ) := by
  unfold Counter.loseSkill
  dsimp only
  rw [hloss, downSkill_stop (by rwa [lost_toNat hfits])]
  refine ⟨rfl, ?_⟩
  have hwide : (ℓ.setWidth 32).setWidth 64 = ℓ :=
    BitVec.eq_of_toNat_eq (by rw [toNat_wide, lost_toNat hfits])
  simp only [hwide]

theorem loseSkill_covered {k : Nat} (hloss : loss (s.sumTries req 11) = ℓ)
    (hfits : ℓ.toNat < 2 ^ 32) (hlevel : s.level.toNat = 10 + k)
    (hle : ℓ.toNat ≤ s.worth req 10)
    (hbelow : s.worth req 10 - ℓ.toNat < total (base req 10) (k + 1)) :
    ∃ k' rest, rest < 2 ^ 64 ∧ Sits (base req 10) (s.worth req 10 - ℓ.toNat) k' rest ∧
      (s.loseSkill req loss).level.toNat = 10 + k' ∧
      (s.loseSkill req loss).tries = Counter.atLeastZero32 (BitVec.ofNat 64 rest) ∧
      (s.loseSkill req loss).percent =
        getPercentLevel (s.loseSkill req loss).tries (req (BitVec.ofNat 16 (10 + k'))) := by
  rw [worth_eq req hlevel] at hle hbelow ⊢
  rw [total_succ] at hbelow
  obtain ⟨hcover, hsits⟩ := fall_sits hle (fun _ => by omega)
  rw [← lost_toNat hfits] at hcover hsits ⊢
  obtain ⟨hdown, htries, hleft⟩ := (downSkill_eq hlevel).1 hcover
  unfold Counter.loseSkill
  dsimp only
  rw [hloss]
  refine ⟨_, _, ?_, hsits, hdown, ?_, ?_⟩
  · rw [← htries]
    exact (Nat.sub_le _ _).trans_lt (BitVec.isLt _)
  · rw [← htries, ← hleft]
    congr 1
    apply BitVec.eq_of_toNat_eq
    rw [BitVec.toNat_sub_of_le, toNat_wide, BitVec.toNat_ofNat, Nat.mod_eq_of_lt]
    · exact (Nat.sub_le _ _).trans_lt (BitVec.isLt _)
    · rw [BitVec.le_def, toNat_wide, htries, hleft]
      exact hcover
  · rw [← hdown, BitVec.ofNat_toNat, BitVec.setWidth_eq]

/-- Where the loss and what is left of the tries fit, and the requirement of the level shows the
same percentage of the tries as the one of the next level. -/
structure SkillLowers (req : BitVec 16 → BitVec 64) (lost : Nat) (s : Counter 16) : Prop
    extends Lowers req 10 lost s where
  fits : lost < 2 ^ 32
  ten_le : s.level.toNat < 10 → s.tries.toNat < lost
  bottom : s.worth req 10 < lost → 0 < (req 11).toNat
  rest : ∀ k rest, lost ≤ s.worth req 10 → Sits (base req 10) (s.worth req 10 - lost) k rest →
    rest < 2 ^ 31 ∧
      getPercentLevel (BitVec.ofNat 64 rest) (req (BitVec.ofNat 16 (10 + k))) =
        (⟨BitVec.ofNat 16 (10 + k), BitVec.ofNat 64 rest, 0⟩ : Counter 16).shown req

theorem shown_congr {w : Nat} {req : BitVec w → BitVec 64} {s s' : Counter w}
    (hlevel : s.level = s'.level) (htries : s.tries = s'.tries) : s.shown req = s'.shown req := by
  rw [shown_eq, shown_eq, hlevel, htries]

theorem Lowered.ten_le (hloss : loss (s.sumTries req 11) = ℓ) (hfits : ℓ.toNat < 2 ^ 32)
    (h : Lowered req 10 ℓ.toNat s (s.loseSkill req loss)) (hlow : s.level.toNat < 10) :
    s.tries.toNat < ℓ.toNat := by
  by_contra hle
  have hstart := h.start_le
  rw [(loseSkill_stop hloss hfits (not_lt.mp hle)).1] at hstart
  omega

theorem Lowered.left_below {k : Nat} (hloss : loss (s.sumTries req 11) = ℓ)
    (hfits : ℓ.toNat < 2 ^ 32) (h : Lowered req 10 ℓ.toNat s (s.loseSkill req loss))
    (hlevel : s.level.toNat = 10 + k) (hle : ℓ.toNat ≤ s.worth req 10) :
    s.worth req 10 - ℓ.toNat < total (base req 10) (k + 1) := by
  rw [total_succ]
  rcases Nat.lt_or_ge s.tries.toNat ℓ.toNat with hlt | hge
  · have hworth := worth_eq req hlevel
    omega
  · obtain ⟨hsame, -⟩ := loseSkill_stop hloss hfits hge
    have hbelow := h.below
    have hworth := h.worth
    rw [worth_eq req (k := k) (by rw [hsame, hlevel])] at hworth
    rw [BitVec.lt_def, hsame, base_succ req hlevel] at hbelow
    omega

theorem Lowered.skill_lowers (hloss : loss (s.sumTries req 11) = ℓ) (hfits : ℓ.toNat < 2 ^ 32)
    (h : Lowered req 10 ℓ.toNat s (s.loseSkill req loss)) : SkillLowers req ℓ.toNat s := by
  have hten := h.ten_le hloss hfits
  have hleft : ℓ.toNat ≤ s.worth req 10 → ∃ k, s.level.toNat = 10 + k ∧
      s.worth req 10 - ℓ.toNat < total (base req 10) (k + 1) := by
    intro hle
    rcases Nat.lt_or_ge s.level.toNat 10 with hlow | hge
    · have hlt := hten hlow
      unfold Counter.worth at hle
      rw [Nat.sub_eq_zero_of_le hlow.le, total_zero] at hle
      omega
    · obtain ⟨k, hlevel⟩ := Nat.exists_eq_add_of_le hge
      exact ⟨k, hlevel, h.left_below hloss hfits hlevel hle⟩
  refine ⟨⟨h.ends, h.sum, fun hle => ?_⟩, hfits, hten, fun hlt => ?_, fun k rest hle hsits => ?_⟩
  · obtain ⟨k, hlevel, hbelow⟩ := hleft hle
    rwa [hlevel, Nat.add_sub_cancel_left]
  · have hbelow := h.below
    rw [loseSkill_bottom hloss hfits hlt] at hbelow
    exact hbelow
  · obtain ⟨k₀, hlevel, hbelow⟩ := hleft hle
    obtain ⟨k', rest', hrest, hsits', hlevel', htries, hpercent⟩ :=
      loseSkill_covered hloss hfits hlevel hle hbelow
    obtain ⟨rfl, rfl⟩ := hsits'.unique hsits
    have hkept : Counter.atLeastZero32 (BitVec.ofNat 64 rest') = BitVec.ofNat 64 rest' := by
      have hworth := h.worth
      rw [worth_eq req hlevel', htries, hsits.sum] at hworth
      apply BitVec.eq_of_toNat_eq
      rw [BitVec.toNat_ofNat, Nat.mod_eq_of_lt hrest]
      omega
    have hsmall := (atLeastZero32_eq _).mp hkept
    rw [BitVec.toNat_ofNat, Nat.mod_eq_of_lt hrest] at hsmall
    refine ⟨hsmall, ?_⟩
    rw [htries, hkept, h.percent] at hpercent
    rw [← hpercent]
    refine shown_congr ?_ (htries.trans hkept)
    rw [← hlevel', BitVec.ofNat_toNat, BitVec.setWidth_eq]

theorem SkillLowers.lowered (hloss : loss (s.sumTries req 11) = ℓ)
    (h : SkillLowers req ℓ.toNat s) : Lowered req 10 ℓ.toNat s (s.loseSkill req loss) := by
  rcases Nat.lt_or_ge (s.worth req 10) ℓ.toNat with hlt | hle
  · rw [loseSkill_bottom hloss h.fits hlt]
    refine ⟨h.ends, h.sum, le_rfl, ?_, h.bottom hlt, ?_⟩
    · rw [Nat.sub_eq_zero_of_le hlt.le]
      rfl
    · rw [shown_eq]
      simp only [getPercentLevel_zero, ite_self]
  · have hge : 10 ≤ s.level.toNat := by
      by_contra hlow
      have hlt := h.ten_le (not_le.mp hlow)
      unfold Counter.worth at hle
      rw [Nat.sub_eq_zero_of_le (not_le.mp hlow).le, total_zero] at hle
      omega
    obtain ⟨k, hlevel⟩ := Nat.exists_eq_add_of_le hge
    have hbelow := h.below hle
    rw [hlevel, Nat.add_sub_cancel_left] at hbelow
    obtain ⟨k', rest, hrest, hsits, hlevel', htries, hpercent⟩ :=
      loseSkill_covered hloss h.fits hlevel hle hbelow
    obtain ⟨hsmall, hshown⟩ := h.rest k' rest hle hsits
    have hrest' : (BitVec.ofNat 64 rest).toNat = rest := by
      rw [BitVec.toNat_ofNat, Nat.mod_eq_of_lt hrest]
    have hkept := (atLeastZero32_eq (BitVec.ofNat 64 rest)).mpr (by rwa [hrest'])
    rw [hkept] at htries
    refine ⟨h.ends, h.sum, ?_, ?_, ?_, ?_⟩
    · omega
    · rw [worth_eq req hlevel', htries, hrest', hsits.sum]
    · rw [BitVec.lt_def, htries, hrest', base_succ req hlevel']
      exact hsits.below
    · rw [hpercent, htries, hshown]
      refine shown_congr ?_ htries.symm
      rw [← hlevel', BitVec.ofNat_toNat, BitVec.setWidth_eq]

end

/-! ### The magic level -/

section

variable {req : BitVec 32 → BitVec 64} {s : Counter 32} {loss : BitVec 64 → BitVec 64}
  {ℓ : BitVec 64}

/-- Where the loss is covered and what is left is less than the next level asks for. -/
structure MagicLowers (req : BitVec 32 → BitVec 64) (lost : Nat) (s : Counter 32) : Prop
    extends Lowers req 0 lost s where
  covers : lost ≤ s.worth req 0

theorem loseMana_covered (hloss : loss (s.sumTries req 1) = ℓ)
    (hle : (s.downMana req ℓ).2 ≤ (s.downMana req ℓ).1.tries) :
    let q := fall (base req 0) s.level.toNat s.tries.toNat ℓ.toNat
    (s.loseMana req loss).level.toNat = 0 + q.1 ∧
      (s.loseMana req loss).tries.toNat = q.2.1 - q.2.2 ∧
      (s.loseMana req loss).percent = (s.loseMana req loss).shown req := by
  obtain ⟨hlevel, htries, hleft⟩ := downMana_eq req ℓ (Nat.zero_add _).symm
  unfold Counter.loseMana
  dsimp only
  rw [hloss]
  refine ⟨hlevel, ?_, ?_⟩
  · rw [BitVec.toNat_sub_of_le hle, htries, hleft]
  · rw [shown_eq]

theorem MagicLowers.lowered (hloss : loss (s.sumTries req 1) = ℓ)
    (h : MagicLowers req ℓ.toNat s) :
    (s.downMana req ℓ).2 ≤ (s.downMana req ℓ).1.tries ∧
      Lowered req 0 ℓ.toNat s (s.loseMana req loss) := by
  have hworth := worth_eq req (s := s) (Nat.zero_add s.level.toNat).symm
  have hbelow := h.below h.covers
  rw [Nat.sub_zero, hworth, total_succ] at hbelow
  have hle := h.covers
  rw [hworth] at hle
  obtain ⟨hcover, hsits⟩ := fall_sits hle (fun _ => by omega)
  obtain ⟨-, htries, hleft⟩ := downMana_eq req ℓ (Nat.zero_add _).symm
  have hunsigned : (s.downMana req ℓ).2 ≤ (s.downMana req ℓ).1.tries := by
    rw [BitVec.le_def, htries, hleft]
    exact hcover
  obtain ⟨hlevel', htries', hpercent⟩ := loseMana_covered hloss hunsigned
  refine ⟨hunsigned, h.ends, h.sum, Nat.zero_le _, ?_, ?_, hpercent⟩
  · rw [worth_eq req hlevel', htries', hworth, hsits.sum]
  · rw [BitVec.lt_def, htries', base_succ req hlevel']
    exact hsits.below

theorem Lowered.magic_lowers (hloss : loss (s.sumTries req 1) = ℓ)
    (hunsigned : (s.downMana req ℓ).2 ≤ (s.downMana req ℓ).1.tries)
    (h : Lowered req 0 ℓ.toNat s (s.loseMana req loss)) : MagicLowers req ℓ.toNat s := by
  have hlevel := (Nat.zero_add s.level.toNat).symm
  have hworth := worth_eq req hlevel
  obtain ⟨-, htries, hleft⟩ := downMana_eq req ℓ hlevel
  obtain ⟨hlevel', htries', -⟩ := loseMana_covered hloss hunsigned
  refine ⟨⟨h.ends, h.sum, fun hle => ?_⟩, ?_⟩
  · rw [Nat.sub_zero, total_succ]
    rcases Nat.lt_or_ge s.tries.toNat ℓ.toNat with hlt | hge
    · omega
    · have hbelow := h.below
      simp only [fall_of_le hge] at hlevel' htries'
      rw [BitVec.lt_def, htries', base_succ req hlevel'] at hbelow
      omega
  · by_contra hlt
    rw [hworth] at hlt
    obtain ⟨-, hbottom⟩ := fall_bottom (not_le.mp hlt)
    rw [BitVec.le_def, htries, hleft] at hunsigned
    omega

end

/-! ### The laws of a death -/

namespace Player

variable (v : Vocation) (loss : BitVec 64 → BitVec 64) (p : Player) (skill : Skill)

def lostSkillTries : BitVec 64 := loss ((p.skills skill).sumTries (v.getReqSkillTries skill) 11)

def lostMana : BitVec 64 := loss (p.magic.sumTries v.getReqMana 1)

/-- A death takes the loss from a skill, of which 32 bits are kept. -/
structure LosesSkill : Prop extends
    Lowered (v.getReqSkillTries skill) 10 (p.lostSkillTries v loss skill).toNat (p.skills skill)
      ((p.death v loss).skills skill) where
  fits : (p.lostSkillTries v loss skill).toNat < 2 ^ 32

/-- A death takes the loss from the magic level, and nothing from a number that is less. -/
structure LosesMagic : Prop extends
    Lowered v.getReqMana 0 (p.lostMana v loss).toNat p.magic (p.death v loss).magic where
  unsigned : (p.magic.downMana v.getReqMana (p.lostMana v loss)).2 ≤
    (p.magic.downMana v.getReqMana (p.lostMana v loss)).1.tries

theorem death_iff :
    (∀ skill, p.LosesSkill v loss skill ↔
      SkillLowers (v.getReqSkillTries skill) (p.lostSkillTries v loss skill).toNat
        (p.skills skill)) ∧
    (p.LosesMagic v loss ↔ MagicLowers v.getReqMana (p.lostMana v loss).toNat p.magic) := by
  refine ⟨fun skill => ⟨fun h => ?_, fun h => ?_⟩, fun h => ?_, fun h => ?_⟩
  · exact h.toLowered.skill_lowers rfl h.fits
  · exact ⟨h.lowered rfl, h.fits⟩
  · exact h.toLowered.magic_lowers rfl h.unsigned
  · obtain ⟨hunsigned, hlowered⟩ := h.lowered (Eq.refl (loss _))
    exact ⟨hlowered, hunsigned⟩

end Player

namespace Sample

/-- A skill asks for five tries more at each level. -/
def trainer : Vocation where
  getReqSkillTries _ level := level.setWidth 64 * 5 - 5
  getReqMana _ := 1600

def veteran : Player where
  skills _ := ⟨12, 30, 50⟩
  magic := ⟨0, 0, 0⟩

/-- A death that takes nothing changes what is shown of the skill: `30` of the `55` tries that led
to the level in place of `30` of the `60` that lead to the next. -/
theorem veteran_percent :
    (veteran.death trainer (fun _ => 0)).skills 2 = ⟨12, 30, 54⟩ ∧
      ¬veteran.LosesSkill trainer (fun _ => 0) 2 := by
  have hdeath : (veteran.death trainer (fun _ => 0)).skills 2 = ⟨12, 30, 54⟩ := by
    change (⟨12, 30, 50⟩ : Counter 16).loseSkill (trainer.getReqSkillTries 2) (fun _ => 0) = _
    unfold Counter.loseSkill
    rw [downSkill_stop (by decide)]
    decide
  refine ⟨hdeath, fun h => ?_⟩
  have hpercent := h.percent
  rw [hdeath] at hpercent
  revert hpercent
  decide

end Sample

end TibServer.Training
