import TibServer.Experience

/-!
The level of a player against its experience, over all gains, losses, deaths and logins.

The experience of a level is a polynomial, and `getExpForLevel` computes it without wrapping for
every level that can be reached with less than 2 ^ 62 points. What makes the loops agree is that
each of them ends at the one level whose experience is reached while that of the next is not.
-/

namespace TibServer.Experience

/-! ### The experience of a level -/

/-- The experience that a level asks for. -/
def experienceOf : Nat → Nat
  | 0 => 0
  | 1 => 0
  | l + 2 => experienceOf (l + 1) + (50 * (l * (l - 1)) + 100)

theorem experienceOf_succ (l : Nat) :
    3 * experienceOf (l + 1) + 150 * l ^ 2 = 50 * l ^ 3 + 400 * l := by
  induction l with
  | zero => rfl
  | succ l ih =>
      rw [experienceOf]
      cases l with
      | zero => rfl
      | succ k =>
          rw [Nat.add_sub_cancel]
          linarith [ih]

theorem experienceOf_lt_succ {level : Nat} (h : 0 < level) :
    experienceOf level < experienceOf (level + 1) := by
  obtain ⟨l, rfl⟩ : ∃ l, level = l + 1 := ⟨level - 1, by omega⟩
  rw [experienceOf]
  omega

theorem experienceOf_mono {level level' : Nat} (h : level ≤ level') :
    experienceOf level ≤ experienceOf level' := by
  induction h with
  | refl => exact le_rfl
  | @step level' h ih =>
      refine ih.trans ?_
      rcases Nat.eq_zero_or_pos level' with rfl | hpos
      · exact le_rfl
      · exact (experienceOf_lt_succ hpos).le

/-- One experience belongs to one level. -/
theorem level_unique {level level' experience : Nat} (hlower : experienceOf level ≤ experience)
    (hupper : experience < experienceOf (level + 1)) (hlower' : experienceOf level' ≤ experience)
    (hupper' : experience < experienceOf (level' + 1)) : level = level' := by
  rcases Nat.lt_trichotomy level level' with h | h | h
  · have := experienceOf_mono (show level + 1 ≤ level' from h)
    omega
  · exact h
  · have := experienceOf_mono (show level' + 1 ≤ level from h)
    omega

/-- No level above this one is reached with less than 2 ^ 62 points. -/
def lastLevel : Nat := 655360

theorem level_lt_last {level : Nat} (h : experienceOf level < 2 ^ 62) : level < lastLevel := by
  by_contra hle
  have hmono := experienceOf_mono (Nat.le_of_not_lt hle)
  have hlast := experienceOf_succ (lastLevel - 1)
  rw [lastLevel] at hmono hlast
  norm_num at hlast
  omega

theorem toNat_getExpForLevel {level : BitVec 32} (hpos : 0 < level.toNat)
    (hle : level.toNat ≤ lastLevel) :
    (getExpForLevel level).toNat = experienceOf level.toNat := by
  obtain ⟨l, hl⟩ : ∃ l, level.toNat = l + 1 := ⟨level.toNat - 1, by omega⟩
  rw [hl, lastLevel] at hle
  -- the number that is cubed is the level less one, in 64 bits
  have hext : (level - 1).signExtend 64 = BitVec.ofNat 64 l := by
    have hsub : level - 1 = BitVec.ofNat 32 l := by bv_omega
    rw [hsub, BitVec.signExtend_eq_setWidth_of_msb_false]
    · bv_omega
    · rw [BitVec.msb_eq_false_iff_two_mul_lt, BitVec.toNat_ofNat]
      omega
  have hexp := experienceOf_succ l
  have hcast : (3 : BitVec 64) * BitVec.ofNat 64 (experienceOf (l + 1)) +
      150 * BitVec.ofNat 64 l ^ 2 = 50 * BitVec.ofNat 64 l ^ 3 + 400 * BitVec.ofNat 64 l := by
    have hofNat := congrArg (BitVec.ofNat 64) hexp
    simp only [BitVec.ofNat_add, BitVec.ofNat_mul, pow_succ, pow_zero, one_mul] at hofNat ⊢
    exact hofNat
  have hpoly : 50 * BitVec.ofNat 64 l * BitVec.ofNat 64 l * BitVec.ofNat 64 l -
      150 * BitVec.ofNat 64 l * BitVec.ofNat 64 l + 400 * BitVec.ofNat 64 l =
        BitVec.ofNat 64 (3 * experienceOf (l + 1)) := by
    rw [BitVec.ofNat_mul]
    show _ = (3 : BitVec 64) * BitVec.ofNat 64 (experienceOf (l + 1))
    linear_combination -hcast
  have hbound : 3 * experienceOf (l + 1) < 2 ^ 64 := by
    have hcube : l ^ 3 ≤ 655360 ^ 3 := Nat.pow_le_pow_left (by omega) 3
    norm_num at hcube
    omega
  rw [getExpForLevel, hext, hpoly, hl, BitVec.toNat_udiv, BitVec.toNat_ofNat,
    Nat.mod_eq_of_lt hbound]
  exact Nat.mul_div_cancel_left _ (by decide)

theorem toNat_level_succ {level : BitVec 32} (h : level.toNat < lastLevel) :
    (level + 1).toNat = level.toNat + 1 := by
  rw [lastLevel] at h
  bv_omega

/-! ### What belongs to a level -/

/-- The values of a player at level 1. -/
structure Base where
  healthMax : Nat
  manaMax : Nat
  capacity : Nat

/-- A value at a level, from its value at level 1 and what a level adds. -/
def valueAt (start : Nat) (gain : BitVec 32) (level : Nat) : Nat := start + (level - 1) * gain.toNat

theorem valueAt_succ (start : Nat) (gain : BitVec 32) {level : Nat} (h : 0 < level) :
    valueAt start gain (level + 1) = valueAt start gain level + gain.toNat := by
  obtain ⟨l, rfl⟩ : ∃ l, level = l + 1 := ⟨level - 1, by omega⟩
  rw [valueAt, valueAt, Nat.add_sub_cancel, Nat.add_sub_cancel, Nat.succ_mul, Nat.add_assoc]

theorem valueAt_mono (start : Nat) (gain : BitVec 32) {level level' : Nat} (h : level ≤ level') :
    valueAt start gain level ≤ valueAt start gain level' :=
  Nat.add_le_add_left (Nat.mul_le_mul_right _ (by omega)) _

section Values

variable {value gain : BitVec 32} {n : Nat}

theorem toInt_eq_iff : value.toInt = n ↔ value.toNat = n ∧ n < 2 ^ 31 := by
  rw [BitVec.toInt_eq_toNat_cond]
  have := value.isLt
  split_ifs <;> omega

theorem toNat_raise (h : value.toNat = n) (hlt : n + gain.toNat < 2 ^ 32) :
    (value + gain).toNat = n + gain.toNat := by
  rw [BitVec.toNat_add, h, Nat.mod_eq_of_lt hlt]

/-- The clamp at 0 does nothing to a value that is left as an `int32_t`. -/
theorem toNat_atLeastZero (h : value.toNat = n + gain.toNat) (hlt : n < 2 ^ 31) :
    (atLeastZero (value - gain)).toNat = n := by
  have hsub : (value - gain).toNat = n := by bv_omega
  rw [atLeastZero, if_neg, hsub]
  rw [Bool.not_eq_true, BitVec.msb_eq_false_iff_two_mul_lt, hsub]
  omega

end Values

section Invariant

variable (v : Vocation) (base : Base)

structure Stats (p : Player) : Prop where
  healthMax : p.healthMax.toInt = valueAt base.healthMax v.gainHP p.level.toNat
  manaMax : p.manaMax.toNat = valueAt base.manaMax v.gainMana p.level.toNat
  capacity : p.capacity.toNat = valueAt base.capacity v.gainCap p.level.toNat

/-- The level is the one of the experience, and the values are those of the level. -/
structure Kept (p : Player) : Prop where
  level_pos : 0 < p.level.toNat
  lower : experienceOf p.level.toNat ≤ p.experience.toNat
  upper : p.experience.toNat < experienceOf (p.level.toNat + 1)
  experience_lt : p.experience.toNat < 2 ^ 62
  stats : Stats v base p

/-- The values fit into their types at every level that is reached with so many points. -/
def Fits (experience : Nat) : Prop :=
  ∀ level, experienceOf level ≤ experience →
    valueAt base.healthMax v.gainHP level < 2 ^ 31 ∧
      valueAt base.manaMax v.gainMana level < 2 ^ 32 ∧
      valueAt base.capacity v.gainCap level < 2 ^ 32

/-- If so few points take a level from the player, the mana and the capacity of the level below
are left as numbers of an `int32_t`. -/
def FitsBelow (p : Player) (experience : Nat) : Prop :=
  experience < experienceOf p.level.toNat →
    valueAt base.manaMax v.gainMana (p.level.toNat - 1) < 2 ^ 31 ∧
      valueAt base.capacity v.gainCap (p.level.toNat - 1) < 2 ^ 31

variable {v base} {p : Player}

theorem Kept.level_lt (h : Kept v base p) : p.level.toNat < lastLevel :=
  level_lt_last (h.lower.trans_lt h.experience_lt)

theorem Kept.setPercent (h : Kept v base p) (curr next : BitVec 64) :
    Kept v base (p.setPercent curr next) :=
  ⟨h.level_pos, h.lower, h.upper, h.experience_lt, h.stats.1, h.stats.2, h.stats.3⟩

/-- The bounds as the source computes them. -/
theorem Kept.bounds (h : Kept v base p) :
    getExpForLevel p.level ≤ p.experience ∧ p.experience < getExpForLevel (p.level + 1) := by
  have hlt := h.level_lt
  have hsucc := toNat_level_succ hlt
  rw [BitVec.le_def, BitVec.lt_def, toNat_getExpForLevel h.level_pos hlt.le,
    toNat_getExpForLevel (by omega) (by omega), hsucc]
  exact ⟨h.lower, h.upper⟩

theorem Stats.raise (h : Stats v base p) (hpos : 0 < p.level.toNat)
    (hlevel : p.level.toNat < lastLevel)
    (hhealth : valueAt base.healthMax v.gainHP (p.level.toNat + 1) < 2 ^ 31)
    (hmana : valueAt base.manaMax v.gainMana (p.level.toNat + 1) < 2 ^ 32)
    (hcap : valueAt base.capacity v.gainCap (p.level.toNat + 1) < 2 ^ 32) :
    Stats v base (p.raise v) := by
  rw [valueAt_succ _ _ hpos] at hhealth hmana hcap
  have hsucc : (p.raise v).level.toNat = p.level.toNat + 1 := toNat_level_succ hlevel
  refine ⟨?_, ?_, ?_⟩
  · rw [hsucc, valueAt_succ _ _ hpos, toInt_eq_iff]
    exact ⟨toNat_raise (toInt_eq_iff.1 h.healthMax).1 (by omega), hhealth⟩
  · rw [hsucc, valueAt_succ _ _ hpos]
    exact toNat_raise h.manaMax hmana
  · rw [hsucc, valueAt_succ _ _ hpos]
    exact toNat_raise h.capacity hcap

theorem Stats.lower (h : Stats v base p) (hpos : 1 < p.level.toNat)
    (hmana : valueAt base.manaMax v.gainMana (p.level.toNat - 1) < 2 ^ 31)
    (hcap : valueAt base.capacity v.gainCap (p.level.toNat - 1) < 2 ^ 31) :
    Stats v base (p.lower v) := by
  obtain ⟨l, hl⟩ : ∃ l, p.level.toNat = l + 1 := ⟨p.level.toNat - 1, by omega⟩
  have hlower : (p.lower v).level.toNat = l := by
    show (p.level - 1).toNat = l
    bv_omega
  have hlpos : 0 < l := by omega
  obtain ⟨hhealth, hmana', hcap'⟩ := h
  obtain ⟨hhealth, hlt⟩ := toInt_eq_iff.1 hhealth
  rw [hl, valueAt_succ _ _ hlpos] at hhealth hmana' hcap' hlt
  rw [hl, Nat.add_sub_cancel] at hmana hcap
  refine ⟨?_, ?_, ?_⟩
  · rw [hlower, toInt_eq_iff]
    exact ⟨toNat_atLeastZero hhealth (by omega), by omega⟩
  · rw [hlower]
    exact toNat_atLeastZero hmana' hmana
  · rw [hlower]
    exact toNat_atLeastZero hcap' hcap

/-! ### The loops -/

/-- The loop of a gain ends at the level of the experience. -/
theorem advance_kept (hpos : 0 < p.level.toNat)
    (hlower : experienceOf p.level.toNat ≤ p.experience.toNat)
    (hlt : p.experience.toNat < 2 ^ 62) (hstats : Stats v base p)
    (hfits : Fits v base p.experience.toNat) :
    ∃ q, p.advance v (getExpForLevel p.level) (getExpForLevel (p.level + 1)) =
        (q, getExpForLevel q.level, getExpForLevel (q.level + 1)) ∧
      q.experience = p.experience ∧ Kept v base q := by
  -- every round comes one level nearer to the last
  induction hleft : lastLevel - p.level.toNat using Nat.strong_induction_on generalizing p with
  | _ left ih =>
      have hlevel := level_lt_last (hlower.trans_lt hlt)
      have hsucc := toNat_level_succ hlevel
      have hnext := @toNat_getExpForLevel (p.level + 1) (by omega) (by omega)
      rw [hsucc] at hnext
      rw [Player.advance]
      by_cases hreached : getExpForLevel (p.level + 1) ≤ p.experience
      · have hreached' : experienceOf (p.level.toNat + 1) ≤ p.experience.toNat := by
          rw [← hnext]
          exact hreached
        have hlevel' := level_lt_last (hreached'.trans_lt hlt)
        have hsucc' : (p.raise v).level.toNat = p.level.toNat + 1 := hsucc
        obtain ⟨hhealth, hmana, hcap⟩ := hfits _ hreached'
        have hraise := hstats.raise hpos hlevel hhealth hmana hcap
        have hnotlast : ¬ getExpForLevel ((p.raise v).level + 1) ≤ getExpForLevel (p.level + 1) := by
          rw [BitVec.le_def, hnext, toNat_getExpForLevel (by rw [toNat_level_succ] <;> omega)
            (by rw [toNat_level_succ] <;> omega), toNat_level_succ (by omega), hsucc']
          exact Nat.not_le_of_lt (experienceOf_lt_succ (by omega))
        obtain ⟨q, hq, hexp, hkept⟩ := ih (lastLevel - (p.raise v).level.toNat) (by omega)
          (p := p.raise v) (by omega) (by rw [hsucc']; exact hreached') hlt hraise hfits rfl
        refine ⟨q, ?_, hexp, hkept⟩
        rw [if_pos hreached]
        exact (if_neg hnotlast).trans hq
      · refine ⟨p, if_neg hreached, rfl, hpos, hlower, ?_, hlt, hstats⟩
        rw [← hnext]
        exact Nat.lt_of_not_le hreached

/-- The loop of a loss ends at the level of the experience. -/
theorem downgrade_kept (hpos : 0 < p.level.toNat) (hlevel : p.level.toNat < lastLevel)
    (hupper : p.experience.toNat < experienceOf (p.level.toNat + 1))
    (hlt : p.experience.toNat < 2 ^ 62) (hstats : Stats v base p)
    (hfits : FitsBelow v base p p.experience.toNat) :
    (p.downgrade v).experience = p.experience ∧ Kept v base (p.downgrade v) := by
  induction hl : p.level.toNat using Nat.strong_induction_on generalizing p with
  | _ level ih =>
      have hcurr := toNat_getExpForLevel hpos hlevel.le
      rw [Player.downgrade]
      by_cases hdown : 1 < p.level ∧ p.experience < getExpForLevel p.level
      · have hone : 1 < p.level.toNat := hdown.1
        have hbelow : p.experience.toNat < experienceOf p.level.toNat := by
          rw [← hcurr]
          exact hdown.2
        have hlower : (p.lower v).level.toNat = p.level.toNat - 1 := by
          show (p.level - 1).toNat = _
          bv_omega
        obtain ⟨hmana, hcap⟩ := hfits hbelow
        rw [if_pos hdown]
        refine ih (p.lower v).level.toNat (by omega) (p := p.lower v) (by omega) (by omega) ?_ hlt
          (hstats.lower hone hmana hcap) (fun _ => ?_) rfl
        · rw [hlower, Nat.sub_add_cancel hone.le]
          exact hbelow
        · rw [hlower]
          exact ⟨(valueAt_mono _ _ (by omega)).trans_lt hmana,
            (valueAt_mono _ _ (by omega)).trans_lt hcap⟩
      · rw [if_neg hdown]
        refine ⟨rfl, hpos, ?_, hupper, hlt, hstats⟩
        by_contra hbelow
        have hbelow' : p.experience < getExpForLevel p.level := by
          rw [BitVec.lt_def, hcurr]
          omega
        rcases Nat.lt_or_ge 1 p.level.toNat with hone | hone
        · exact hdown ⟨hone, hbelow'⟩
        · rw [show p.level.toNat = 1 by omega, experienceOf] at hbelow
          exact hbelow (Nat.zero_le _)

/-! ### What changes the experience -/

/-- A gain keeps the experience below 2 ^ 62 and the values in their types. -/
def GainFits (v : Vocation) (base : Base) (p : Player) (exp : BitVec 64) : Prop :=
  p.experience.toNat + exp.toNat < 2 ^ 62 ∧ Fits v base (p.experience.toNat + exp.toNat)

theorem Kept.gain {exp : BitVec 64} (h : Kept v base p) (hfits : GainFits v base p exp) :
    ∃ q, Player.advance v { p with experience := p.experience + exp } (getExpForLevel p.level)
        (getExpForLevel (p.level + 1)) = (q, getExpForLevel q.level, getExpForLevel (q.level + 1)) ∧
      q.experience = p.experience + exp ∧ Kept v base q := by
  have hsum : (p.experience + exp).toNat = p.experience.toNat + exp.toNat := by
    have := hfits.1
    bv_omega
  refine advance_kept (p := { p with experience := p.experience + exp }) h.level_pos ?_ ?_
    ⟨h.stats.1, h.stats.2, h.stats.3⟩ ?_
  · show experienceOf p.level.toNat ≤ (p.experience + exp).toNat
    rw [hsum]
    exact h.lower.trans (Nat.le_add_right ..)
  · show (p.experience + exp).toNat < _
    rw [hsum]
    exact hfits.1
  · show Fits v base (p.experience + exp).toNat
    rw [hsum]
    exact hfits.2

theorem Kept.not_last (h : Kept v base p) :
    ¬ getExpForLevel (p.level + 1) ≤ getExpForLevel p.level :=
  fun hle => Nat.not_le_of_lt (Nat.lt_of_le_of_lt h.bounds.1 h.bounds.2) hle

theorem Kept.addExperience {events : Events} {exp : BitVec 64} (h : Kept v base p)
    (hfits : GainFits v base p (events.onGainExperience p exp)) :
    Kept v base (p.addExperience events v exp) ∧
      (p.addExperience events v exp).experience =
        p.experience + events.onGainExperience p exp := by
  rw [Player.addExperience, if_neg h.not_last]
  by_cases hzero : events.onGainExperience p exp = 0
  · rw [if_pos hzero, hzero]
    exact ⟨h, (BitVec.add_zero _).symm⟩
  · obtain ⟨q, hq, hexp, hkept⟩ := h.gain hfits
    rw [if_neg hzero]
    show Kept v base (Player.setPercent (Player.advance v _ _ _).1 _ _) ∧
      (Player.setPercent (Player.advance v _ _ _).1 _ _).experience = _
    rw [hq]
    exact ⟨hkept.setPercent _ _, hexp⟩

/-- What is left of the experience when so many points are lost. -/
theorem Kept.downgrade (h : Kept v base p) {left : BitVec 64}
    (hle : left.toNat ≤ p.experience.toNat) (hfits : FitsBelow v base p left.toNat) :
    Kept v base (Player.downgrade v { p with experience := left }) ∧
      (Player.downgrade v { p with experience := left }).experience = left := by
  have hdown := downgrade_kept (p := { p with experience := left }) h.level_pos h.level_lt
    (hle.trans_lt h.upper) (hle.trans_lt h.experience_lt) ⟨h.stats.1, h.stats.2, h.stats.3⟩ hfits
  exact ⟨hdown.2, hdown.1⟩

/-- A loss of less than 2 ^ 63 points more than there are leaves what the subtraction gives. -/
def LossFits (v : Vocation) (base : Base) (p : Player) (exp : BitVec 64) : Prop :=
  exp.toNat ≤ p.experience.toNat + 2 ^ 63 ∧
    FitsBelow v base p (p.experience.toNat - exp.toNat)

theorem toNat_left {experience exp : BitVec 64} (hlt : experience.toNat < 2 ^ 62)
    (hle : exp.toNat ≤ experience.toNat + 2 ^ 63) :
    (if (experience - exp).msb then 0 else experience - exp : BitVec 64).toNat =
      experience.toNat - exp.toNat := by
  have hexp := exp.isLt
  by_cases h : exp.toNat ≤ experience.toNat
  · have hsub : (experience - exp).toNat = experience.toNat - exp.toNat :=
      BitVec.toNat_sub_of_le h
    rw [if_neg, hsub]
    rw [Bool.not_eq_true, BitVec.msb_eq_false_iff_two_mul_lt, hsub]
    omega
  · have hsub : (experience - exp).toNat = 2 ^ 64 - (exp.toNat - experience.toNat) := by bv_omega
    rw [if_pos]
    · show 0 = _
      omega
    · rw [BitVec.msb_eq_true_iff_two_mul_ge, hsub]
      omega

theorem Kept.removeExperience {events : Events} {exp : BitVec 64} (h : Kept v base p)
    (hfits : LossFits v base p (events.onLoseExperience p exp))
    (hsome : ¬ (p.experience = 0 ∨ exp = 0)) :
    Kept v base (p.removeExperience events v exp) ∧
      (p.removeExperience events v exp).experience.toNat =
        p.experience.toNat - (events.onLoseExperience p exp).toNat := by
  rw [Player.removeExperience, if_neg hsome]
  by_cases hnone : events.onLoseExperience p exp = 0
  · rw [if_pos hnone, hnone]
    exact ⟨h, rfl⟩
  · have hleft := toNat_left h.experience_lt hfits.1
    obtain ⟨hkept, hexperience⟩ := h.downgrade (by rw [hleft]; exact Nat.sub_le ..)
      (by rw [hleft]; exact hfits.2)
    rw [if_neg hnone]
    refine ⟨hkept.setPercent _ _, ?_⟩
    exact (congrArg BitVec.toNat hexperience).trans hleft

/-- A death takes no more than there is. -/
def DeathFits (v : Vocation) (base : Base) (p : Player) (expLoss : BitVec 64) : Prop :=
  v.id = VOCATION_NONE ∨ 7 < p.level →
    expLoss.toNat ≤ p.experience.toNat ∧ FitsBelow v base p (p.experience.toNat - expLoss.toNat)

theorem Kept.death {events : Events} {expLoss : BitVec 64} (h : Kept v base p)
    (hfits : DeathFits v base p (events.onLoseExperience p expLoss)) :
    Kept v base (p.death events v expLoss) := by
  rw [Player.death]
  by_cases hnone : events.onLoseExperience p expLoss = 0
  · rw [if_pos hnone]
    exact h
  rw [if_neg hnone]
  by_cases hloses : v.id = VOCATION_NONE ∨ 7 < p.level
  · obtain ⟨hle, hbelow⟩ := hfits hloses
    have hsub := BitVec.toNat_sub_of_le hle
    show Kept v base (Player.setPercent (Player.downgrade v (if _ then _ else _)) _ _)
    rw [if_pos hloses]
    exact (h.downgrade (by rw [hsub]; exact Nat.sub_le ..)
      (by rw [hsub]; exact hbelow)).1.setPercent _ _
  · show Kept v base (Player.setPercent (Player.downgrade v (if _ then _ else _)) _ _)
    rw [if_neg hloses]
    exact (downgrade_kept h.level_pos h.level_lt h.upper h.experience_lt h.stats fun hlt =>
      absurd h.lower (Nat.not_le_of_lt hlt)).2.setPercent _ _

/-- The mana is a number of its column, and the capacity is stored without a remainder. -/
def StoreFits (p : Player) : Prop := p.manaMax.toNat < 2 ^ 31 ∧ p.capacity.toNat % 100 = 0

/-- What is stored and read back is the player. -/
theorem Kept.relog (h : Kept v base p) (hfits : StoreFits p) (row : Row) :
    Kept v base (loadPlayer (savePlayer p row)) ∧
      (loadPlayer (savePlayer p row)).experience = p.experience := by
  have hlevel := h.level_lt
  have hlt := h.experience_lt
  rw [lastLevel] at hlevel
  have hrow : savePlayer p row = ⟨p.level.toNat, p.experience.toNat, p.healthMax.toInt,
      p.manaMax.toNat, p.capacity.toNat / 100⟩ :=
    if_pos ⟨by omega, by omega, hfits.1⟩
  have hcap : BitVec.ofInt 32 ((p.capacity.toNat : Int) / 100) * 100 = p.capacity := by
    have hmod := hfits.2
    have hdiv : (p.capacity.toNat : Int) / 100 = ((p.capacity.toNat / 100 : Nat) : Int) := rfl
    rw [hdiv, BitVec.ofInt_natCast]
    apply BitVec.eq_of_toNat_eq
    have hcap := p.capacity.isLt
    rw [BitVec.toNat_mul, BitVec.toNat_ofNat]
    show p.capacity.toNat / 100 % 2 ^ 32 * 100 % 2 ^ 32 = _
    omega
  have hload : loadPlayer (savePlayer p row) =
      { p with levelPercent := (loadPlayer (savePlayer p row)).levelPercent } := by
    have hne : p.level ≠ 0 := fun heq => by
      have := h.level_pos
      rw [heq] at this
      exact absurd this (by decide)
    rw [hrow]
    unfold loadPlayer
    simp only [BitVec.ofInt_natCast, BitVec.ofNat_toNat, BitVec.setWidth_eq, BitVec.ofInt_toInt,
      if_neg hne, hcap]
    rw [if_neg]
    exact not_or.2 ⟨BitVec.not_lt.2 h.bounds.1,
      BitVec.not_lt.2 (BitVec.le_of_lt h.bounds.2)⟩
  rw [hload]
  exact ⟨⟨h.level_pos, h.lower, h.upper, hlt, h.stats.1, h.stats.2, h.stats.3⟩, rfl⟩

/-! ### Runs -/

inductive Action
  | gain (exp : BitVec 64)
  | lose (exp : BitVec 64)
  | die (expLoss : BitVec 64)
  /-- A logout and a login, with the row that was stored before. -/
  | relog (row : Row)

def act (events : Events) (v : Vocation) (p : Player) : Action → Player
  | .gain exp => p.addExperience events v exp
  | .lose exp => p.removeExperience events v exp
  | .die expLoss => p.death events v expLoss
  | .relog row => loadPlayer (savePlayer p row)

/-- What an action asks of the state before it, for the amount that the scripts leave. -/
def Meets (events : Events) (v : Vocation) (base : Base) (p : Player) : Action → Prop
  | .gain exp => GainFits v base p (events.onGainExperience p exp)
  | .lose exp =>
      p.experience = 0 ∨ exp = 0 ∨ LossFits v base p (events.onLoseExperience p exp)
  | .die expLoss => DeathFits v base p (events.onLoseExperience p expLoss)
  | .relog _ => StoreFits p

def play (events : Events) (v : Vocation) (p : Player) (actions : List Action) : Player :=
  actions.foldl (act events v) p

/-- Every action of a run meets its condition. -/
def AllMeet (events : Events) (v : Vocation) (base : Base) : Player → List Action → Prop
  | _, [] => True
  | p, action :: actions =>
      Meets events v base p action ∧ AllMeet events v base (act events v p action) actions

theorem Kept.act {events : Events} {action : Action} (h : Kept v base p)
    (hmeets : Meets events v base p action) : Kept v base (act events v p action) := by
  cases action with
  | gain exp => exact (h.addExperience hmeets).1
  | lose exp =>
      by_cases hnone : p.experience = 0 ∨ exp = 0
      · show Kept v base (p.removeExperience events v exp)
        rw [Player.removeExperience, if_pos hnone]
        exact h
      · exact (h.removeExperience ((or_assoc.2 hmeets).resolve_left hnone) hnone).1
  | die expLoss => exact h.death hmeets
  | relog row => exact (h.relog hmeets row).1

theorem Kept.play {events : Events} {actions : List Action} (h : Kept v base p)
    (hmeet : AllMeet events v base p actions) : Kept v base (play events v p actions) := by
  induction actions generalizing p with
  | nil => exact h
  | cons action actions ih => exact ih (h.act hmeet.1) hmeet.2

/-- The experience, the level and the three values of two players agree. -/
structure Same (p q : Player) : Prop where
  experience : p.experience = q.experience
  level : p.level = q.level
  healthMax : p.healthMax = q.healthMax
  manaMax : p.manaMax = q.manaMax
  capacity : p.capacity = q.capacity

/-- The experience determines the rest. -/
theorem Kept.same {q : Player} (h : Kept v base p) (hq : Kept v base q)
    (hexp : p.experience = q.experience) : Same p q := by
  have hlevel : p.level.toNat = q.level.toNat :=
    level_unique h.lower h.upper (hexp ▸ hq.lower) (hexp ▸ hq.upper)
  refine ⟨hexp, BitVec.eq_of_toNat_eq hlevel, BitVec.eq_of_toInt_eq ?_, BitVec.eq_of_toNat_eq ?_,
    BitVec.eq_of_toNat_eq ?_⟩
  · rw [h.stats.healthMax, hq.stats.healthMax, hlevel]
  · rw [h.stats.manaMax, hq.stats.manaMax, hlevel]
  · rw [h.stats.capacity, hq.stats.capacity, hlevel]

end Invariant

/-- In every run whose actions meet their conditions the level is the one of the experience, as
`getExpForLevel` computes it, and the health, the mana and the capacity are their values at level 1
and what the levels above it add. Where no script changes the amounts, to gain and to lose the same
amount changes none of them, and to gain two amounts is to gain their sum. -/
theorem experience_level_kept (v : Vocation) (base : Base) {p : Player} (h : Kept v base p) :
    (∀ events actions, AllMeet events v base p actions →
      Kept v base (play events v p actions) ∧
      getExpForLevel (play events v p actions).level ≤ (play events v p actions).experience ∧
      (play events v p actions).experience <
        getExpForLevel ((play events v p actions).level + 1)) ∧
    (∀ exp, AllMeet {} v base p [.gain exp, .lose exp] →
      Same (play {} v p [.gain exp, .lose exp]) p) ∧
    ∀ a b, AllMeet {} v base p [.gain a, .gain b] →
      Same (play {} v p [.gain a, .gain b]) (play {} v p [.gain (a + b)]) := by
  refine ⟨fun events actions hmeet => ?_, fun exp hmeet => ?_, fun a b hmeet => ?_⟩
  · have hkept := h.play hmeet
    exact ⟨hkept, hkept.bounds⟩
  · have hkept := h.play hmeet
    refine hkept.same h ?_
    obtain ⟨hgain, hlose, -⟩ := hmeet
    obtain ⟨hq, hexp⟩ := h.addExperience hgain
    have hlt : p.experience.toNat + exp.toNat < 2 ^ 62 := hgain.1
    have hexp : (Player.addExperience {} v p exp).experience = p.experience + exp := hexp
    have hsum : (p.experience + exp).toNat = p.experience.toNat + exp.toNat := by bv_omega
    apply BitVec.eq_of_toNat_eq
    show (Player.removeExperience {} v (Player.addExperience {} v p exp) exp).experience.toNat = _
    by_cases hnone : (Player.addExperience {} v p exp).experience = 0 ∨ exp = 0
    · rw [Player.removeExperience, if_pos hnone, hexp]
      rcases hnone with hnone | hnone
      · rw [hexp] at hnone
        rw [hnone] at hsum ⊢
        change 0 = _ at hsum
        show 0 = _
        omega
      · rw [hnone]
        exact congrArg BitVec.toNat (BitVec.add_zero _)
    · have hleft := (hq.removeExperience ((or_assoc.2 hlose).resolve_left hnone) hnone).2
      refine hleft.trans ?_
      rw [hexp]
      show (p.experience + exp).toNat - exp.toNat = _
      omega
  · have hkept := h.play hmeet
    obtain ⟨ha, hb, -⟩ := hmeet
    obtain ⟨hq, hexpa⟩ := h.addExperience ha
    obtain ⟨hr, hexpb⟩ := hq.addExperience hb
    have hexpa : (Player.addExperience {} v p a).experience = p.experience + a := hexpa
    have hsum : p.experience.toNat + (a + b).toNat = (p.experience + a).toNat + b.toNat := by
      have ha : p.experience.toNat + a.toNat < 2 ^ 62 := ha.1
      have hb : (Player.addExperience {} v p a).experience.toNat + b.toNat < 2 ^ 62 := hb.1
      rw [hexpa] at hb
      bv_omega
    have hboth : GainFits v base p (a + b) := by
      change GainFits v base (Player.addExperience {} v p a) b at hb
      unfold GainFits at hb ⊢
      rw [hexpa, ← hsum] at hb
      exact hb
    obtain ⟨ht, hexp⟩ := @Kept.addExperience v base p {} (a + b) h hboth
    refine hkept.same ht ?_
    refine (hexpb.trans ?_).trans hexp.symm
    show (Player.addExperience {} v p a).experience + b = p.experience + (a + b)
    rw [hexpa, BitVec.add_assoc]

namespace Sample

/-- The vocation without a name, and a new player of it. -/
def noVocation : Vocation := ⟨0, 5, 5, 1000⟩

def base : Base := ⟨150, 0, 40000⟩

def player : Player := { healthMax := 150, experience := 99 }

theorem kept : Kept noVocation base player := by
  refine ⟨by decide, by decide, by decide, by decide, rfl, rfl, rfl⟩

/-- One point takes the player to level 2. -/
theorem next_level : Kept noVocation base player ∧ Kept noVocation base (play {} noVocation player [.gain 1]) := by
  have hfits : Fits noVocation base 100 := fun level hlevel => by
    have hle : level ≤ 2 := by
      by_contra hlt
      have := experienceOf_mono (show 3 ≤ level by omega)
      exact absurd (this.trans hlevel) (by decide)
    exact ⟨(valueAt_mono _ _ hle).trans_lt (by decide), (valueAt_mono _ _ hle).trans_lt (by decide),
      (valueAt_mono _ _ hle).trans_lt (by decide)⟩
  exact ⟨kept,
    ((experience_level_kept noVocation base kept).1 {} [.gain 1] ⟨⟨by decide, hfits⟩, trivial⟩).1⟩

/-- A loss of 2 ^ 64 - 1 points, which is what a script asks for with -1, adds a point, and the
player has the experience of level 2 at level 1. -/
theorem negative_loss : Kept noVocation base player ∧
    (play {} noVocation player [.lose (-1)]).level = 1 ∧
      ¬ (play {} noVocation player [.lose (-1)]).experience <
        getExpForLevel ((play {} noVocation player [.lose (-1)]).level + 1) := by
  have hplay : play {} noVocation player [.lose (-1)] = { player with experience := 100, levelPercent := 100 } := by
    show Player.removeExperience {} noVocation player (-1) = _
    rw [Player.removeExperience, if_neg (by decide)]
    show (if (-1 : BitVec 64) = 0 then _ else Player.setPercent (Player.downgrade noVocation _) _ _) = _
    rw [if_neg (by decide), Player.downgrade, if_neg (by decide)]
    rfl
  rw [hplay]
  exact ⟨kept, rfl, by decide⟩

end Sample

end TibServer.Experience
