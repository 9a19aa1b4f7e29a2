import TibServer.FloatRounding

/-!
How the damage of a condition is dealt out (`ConditionDamage::init` and `generateDamageList` in
`condition.cpp`): a list of values that get smaller, each of them as often as brings the sum nearer
to its part of the damage. The nearness is computed in floating point, and an `int32_t` that runs
over is undefined behaviour, of which nothing comes here.
-/

namespace TibServer.DamageList

open FloatRounding

/-! ### The test of the loop -/

def float (x : ℚ) : ℚ := round 24 x

def double (x : ℚ) : ℚ := round 53 x

def x1 (sum i med : ℕ) : ℚ := |double (1 - float (float (float sum + float i) / float med))|

def x2 (sum med : ℕ) : ℚ := |double (1 - float (float sum / float med))|

/-- Where `med` is zero both sides are infinite; here they are both one. -/
def Nearer (sum i med : ℕ) : Prop := x1 sum i med < x2 sum med

instance (sum i med : ℕ) : Decidable (Nearer sum i med) :=
  inferInstanceAs (Decidable (x1 sum i med < x2 sum med))

section

variable {sum i med : ℕ}

theorem float_natCast (n : ℕ) : float n = roundPos 24 n := round_of_nonneg n.cast_nonneg

theorem float_natCast_nonneg (n : ℕ) : 0 ≤ float n := by
  rw [float_natCast]
  exact roundPos_nonneg 24 n.cast_nonneg

theorem float_mono {x y : ℚ} (h : 0 ≤ x) (hle : x ≤ y) : float x ≤ float y := by
  unfold float
  rw [round_of_nonneg h, round_of_nonneg (h.trans hle)]
  exact roundPos_mono (by omega) h hle

theorem float_of_fits {x : ℚ} (h : Fits 24 x) : float x = x := by
  unfold float
  rw [round_of_nonneg h.nonneg, roundPos_of_fits (by omega) h]

theorem float_fits {x : ℚ} (h : 0 ≤ x) : Fits 24 (float x) := by
  unfold float
  rw [round_of_nonneg h]
  exact roundPos_fits (by omega) h

theorem float_one : float 1 = 1 := by
  have hfits : Fits 24 ((1 : ℕ) : ℚ) := fits_natCast (by decide) (by omega)
  rw [Nat.cast_one] at hfits
  exact float_of_fits hfits

/-- A number that is not less stays so with the next entry. -/
theorem le_float_sum (sum i : ℕ) : float sum ≤ float (float sum + float i) :=
  calc float sum = float (float sum) := (float_of_fits (float_fits sum.cast_nonneg)).symm
    _ ≤ float (float sum + float i) :=
      float_mono (float_natCast_nonneg sum) (le_add_of_nonneg_right (float_natCast_nonneg i))

/-- The distance of a number from one, as the test computes it. -/
theorem distance_eq (x : ℚ) : |double (1 - x)| = roundPos 53 |1 - x| := abs_round 53 _

theorem distance_mono {x y : ℚ} (hx : 1 ≤ x) (hle : x ≤ y) :
    |double (1 - x)| ≤ |double (1 - y)| := by
  rw [distance_eq, distance_eq, abs_sub_comm, abs_sub_comm 1 y, abs_of_nonneg (by linarith),
    abs_of_nonneg (by linarith)]
  exact roundPos_mono (by omega) (by linarith) (by linarith)

/-- From the target on every entry leads away from it. -/
theorem Nearer.lt (h : Nearer sum i med) : 0 < i ∧ sum < med := by
  refine ⟨?_, ?_⟩
  · rcases Nat.eq_zero_or_pos i with rfl | hpos
    · have hzero : float ((0 : ℕ) : ℚ) = 0 := by
        rw [float_natCast, Nat.cast_zero, roundPos_zero]
      unfold Nearer x1 x2 at h
      rw [hzero, add_zero, float_of_fits (float_fits sum.cast_nonneg)] at h
      exact absurd h (lt_irrefl _)
    · exact hpos
  · by_contra hge
    have hle : float med ≤ float sum :=
      float_mono med.cast_nonneg (Nat.cast_le.mpr (not_lt.mp hge))
    rcases Nat.eq_zero_or_pos med with rfl | hpos
    · have hzero : float ((0 : ℕ) : ℚ) = 0 := by
        rw [float_natCast, Nat.cast_zero, roundPos_zero]
      unfold Nearer x1 x2 at h
      rw [hzero, div_zero, div_zero] at h
      exact absurd h (lt_irrefl _)
    · have hmed : 1 ≤ float med := by
        rw [← float_one]
        exact float_mono zero_le_one (Nat.one_le_cast.mpr hpos)
      have hratio : 1 ≤ float sum / float med := (one_le_div (by linarith)).mpr hle
      have hone : 1 ≤ float (float sum / float med) := by
        rw [← float_one]
        exact float_mono zero_le_one hratio
      refine absurd h (not_lt.mpr (distance_mono hone (float_mono (by linarith) ?_)))
      exact div_le_div_of_nonneg_right (le_float_sum sum i) (by linarith)

end

/-! ### The list -/

/-- The entries of one value. -/
def addEntries (i med sum : ℕ) : Option (List ℕ × ℕ) :=
  let sum' := sum + i
  if 2 ^ 31 ≤ sum' then none
  else if Nearer sum' i med then
    (addEntries i med sum').map fun (list, sum) => (i :: list, sum)
  else some ([i], sum')
  termination_by med - sum
  decreasing_by
    rename_i h
    obtain ⟨hpos, hlt⟩ := h.lt
    omega

/-- The entries of the values from `i` down. -/
def addValues (amount start : ℕ) : ℕ → ℕ → Option (List ℕ)
  | 0, _ => some []
  | i + 1, sum => do
      let n := start + 1 - (i + 1)
      if 2 ^ 31 ≤ n * amount then none
      else
        let med := n * amount / start
        let (list, sum) ← addEntries (i + 1) med sum
        return list ++ (← addValues amount start i sum)

def generateDamageList (amount start : ℤ) : Option (List ℕ) :=
  addValues amount.natAbs start.toNat start.toNat 0

structure ConditionDamage where
  periodDamage : ℤ := 0
  /-- `minDamage`, `maxDamage` and `startDamage` are set as absolute values. -/
  minDamage : ℕ := 0
  maxDamage : ℕ := 0
  startDamage : ℕ := 0
  /-- The values of the damage list. -/
  damageList : List ℤ := []

namespace ConditionDamage

/-- The value to start with, for the amount that was rolled. -/
def start (d : ConditionDamage) (amount : ℕ) : ℕ :=
  if d.maxDamage < d.startDamage then d.maxDamage
  else if d.startDamage = 0 then max 1 ((amount + 19) / 20)
  else d.startDamage

/-- `amount` is the random number between `minDamage` and `maxDamage`. -/
def init (d : ConditionDamage) (amount : ℕ) : Option ConditionDamage :=
  if d.periodDamage ≠ 0 ∨ d.damageList ≠ [] ∨ amount = 0 then some d
  else do
    let list ← generateDamageList amount (d.start amount)
    return { d with
      startDamage := d.start amount
      damageList := list.map fun value : ℕ => -(value : ℤ) }

end ConditionDamage

end TibServer.DamageList
