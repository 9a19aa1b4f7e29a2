import Mathlib.Data.Int.Log
import Mathlib.Data.Rat.Floor
import Mathlib.Tactic

/-!
Rounding to the nearest number of `p` binary digits, and to the one with an even last digit of two
that are as near. The exponents have no bounds.
-/

namespace FloatRounding

/-- The nearest integer, the even one of two. -/
def nearestEven (x : ℚ) : ℤ :=
  if x - ⌊x⌋ < 1 / 2 then ⌊x⌋ else if 1 / 2 < x - ⌊x⌋ then ⌊x⌋ + 1 else ⌊x⌋ + ⌊x⌋ % 2

/-- The value of the last of the digits of a number. -/
def ulp (p : ℕ) (x : ℚ) : ℚ := 2 ^ (Int.log 2 x + 1 - p)

def roundPos (p : ℕ) (x : ℚ) : ℚ := nearestEven (x / ulp p x) * ulp p x

def round (p : ℕ) (x : ℚ) : ℚ := if x < 0 then -roundPos p (-x) else roundPos p x

/-- A number of `p` digits. -/
def Fits (p : ℕ) (y : ℚ) : Prop := ∃ m : ℕ, ∃ k : ℤ, m < 2 ^ p ∧ y = m * 2 ^ k

variable {p : ℕ} {x y : ℚ} {k : ℤ}

/-! ### Integers -/

theorem nearestEven_error (x : ℚ) : |(nearestEven x : ℚ) - x| ≤ 1 / 2 := by
  have hle := Int.floor_le x
  have hlt := Int.lt_floor_add_one x
  unfold nearestEven
  rw [abs_le]
  split_ifs with hlow hhigh
  · constructor <;> linarith
  · push_cast
    constructor <;> linarith
  · have hmid : x - ⌊x⌋ = 1 / 2 := le_antisymm (not_lt.mp hhigh) (not_lt.mp hlow)
    rcases Int.emod_two_eq_zero_or_one ⌊x⌋ with heven | hodd
    · rw [heven]
      push_cast
      constructor <;> linarith
    · rw [hodd]
      push_cast
      constructor <;> linarith

theorem nearestEven_nearest (x : ℚ) (n : ℤ) : |(nearestEven x : ℚ) - x| ≤ |(n : ℚ) - x| := by
  rcases eq_or_ne (nearestEven x) n with rfl | hne
  · rfl
  · have hone : (1 : ℚ) ≤ |(nearestEven x : ℚ) - n| := by
      exact_mod_cast Int.one_le_abs (sub_ne_zero.mpr hne)
    have htriangle := abs_sub_le (nearestEven x : ℚ) x n
    have herror := nearestEven_error x
    rw [abs_sub_comm (n : ℚ) x]
    linarith

@[simp] theorem nearestEven_intCast (n : ℤ) : nearestEven n = n := by
  unfold nearestEven
  rw [Int.floor_intCast, sub_self, if_pos (by norm_num)]

/-- Between two integers the even one is taken. -/
theorem nearestEven_half (n : ℤ) : nearestEven (n + 1 / 2) = n + n % 2 := by
  have hfloor : ⌊(n : ℚ) + 1 / 2⌋ = n := by
    rw [Int.floor_eq_iff]
    constructor <;> linarith
  unfold nearestEven
  rw [hfloor, add_sub_cancel_left, if_neg (lt_irrefl _), if_neg (lt_irrefl _)]

theorem nearestEven_nonneg (h : 0 ≤ x) : 0 ≤ nearestEven x := by
  have herror := (abs_le.mp (nearestEven_error x)).1
  have hgt : (-1 : ℚ) < nearestEven x := by linarith
  have hgt' : -1 < nearestEven x := by exact_mod_cast hgt
  omega

/-! ### Numbers of `p` digits -/

theorem ulp_pos (p : ℕ) (x : ℚ) : 0 < ulp p x := zpow_pos (by norm_num) _

theorem zpow_add_nat (p : ℕ) (k : ℤ) : (2 : ℚ) ^ (p + k) = 2 ^ p * 2 ^ k := by
  rw [zpow_add₀ (by norm_num), zpow_natCast]

/-- A number has `p` digits before the end of its last one. -/
theorem ulp_bounds (p : ℕ) (h : 0 < x) : 2 ^ p * ulp p x ≤ 2 * x ∧ x < 2 ^ p * ulp p x := by
  have hulp : 2 ^ p * ulp p x = 2 ^ (Int.log 2 x + 1) := by
    unfold ulp
    rw [← zpow_add_nat]
    congr 1
    ring
  rw [hulp]
  refine ⟨?_, Int.lt_zpow_succ_log_self (by norm_num) x⟩
  have hlog := Int.zpow_log_le_self (b := 2) (by norm_num) h
  rw [zpow_add_one₀ (by norm_num)]
  push_cast at hlog
  linarith

theorem Fits.nonneg (h : Fits p y) : 0 ≤ y := by
  obtain ⟨m, k, -, rfl⟩ := h
  positivity

theorem fits_zpow (m : ℕ) (k : ℤ) (h : m ≤ 2 ^ p) (hp : 0 < p) : Fits p (m * 2 ^ k) := by
  rcases h.lt_or_eq with hlt | rfl
  · exact ⟨m, k, hlt, rfl⟩
  · refine ⟨1, p + k, Nat.one_lt_two_pow hp.ne', ?_⟩
    rw [zpow_add_nat]
    push_cast
    ring

theorem fits_natCast {m : ℕ} (h : m ≤ 2 ^ p) (hp : 0 < p) : Fits p m := by
  have hfits := fits_zpow m 0 h hp
  rwa [zpow_zero, mul_one] at hfits

/-- A large number of `p` digits is a whole multiple of a power of two. -/
theorem Fits.multiple (h : Fits p y) (hle : 2 ^ p * 2 ^ k ≤ 2 * y) : ∃ n : ℕ, y = n * 2 ^ k := by
  obtain ⟨m, j, hm, rfl⟩ := h
  rcases lt_or_ge j k with hlt | hge
  · exfalso
    have hm' : (m : ℚ) + 1 ≤ 2 ^ p := by exact_mod_cast hm
    have hpow : (2 : ℚ) * 2 ^ j ≤ 2 ^ k := by
      rw [mul_comm, ← zpow_add_one₀ (by norm_num)]
      exact zpow_le_zpow_right₀ (by norm_num) (by omega)
    have hpos : (0 : ℚ) < 2 ^ j := zpow_pos (by norm_num) _
    nlinarith
  · obtain ⟨d, rfl⟩ := Int.le.dest hge
    refine ⟨m * 2 ^ d, ?_⟩
    rw [add_comm, zpow_add_nat]
    push_cast
    ring

/-! ### Rounding -/

@[simp] theorem roundPos_zero (p : ℕ) : roundPos p 0 = 0 := by
  unfold roundPos
  rw [zero_div]
  have hzero := nearestEven_intCast 0
  push_cast at hzero
  rw [hzero]
  simp

theorem roundPos_nonneg (p : ℕ) (h : 0 ≤ x) : 0 ≤ roundPos p x :=
  mul_nonneg (by exact_mod_cast nearestEven_nonneg (div_nonneg h (ulp_pos p x).le))
    (ulp_pos p x).le

theorem scaled_nearest (x : ℚ) {u : ℚ} (hu : 0 < u) (n : ℤ) :
    |nearestEven (x / u) * u - x| ≤ |n * u - x| := by
  have hscale : ∀ a : ℚ, |a * u - x| = |a - x / u| * u := by
    intro a
    rw [← abs_of_pos hu, ← abs_mul, abs_of_pos hu, sub_mul, div_mul_cancel₀ x hu.ne']
  rw [hscale, hscale]
  exact mul_le_mul_of_nonneg_right (nearestEven_nearest _ _) hu.le

theorem roundPos_fits (hp : 0 < p) (h : 0 ≤ x) : Fits p (roundPos p x) := by
  rcases h.eq_or_lt with rfl | hpos
  · rw [roundPos_zero]
    exact ⟨0, 0, Nat.two_pow_pos p, by simp⟩
  · obtain ⟨n, hn⟩ := Int.eq_ofNat_of_zero_le (nearestEven_nonneg (div_nonneg h (ulp_pos p x).le))
    have hle : n ≤ 2 ^ p := by
      have herror := (abs_le.mp (nearestEven_error (x / ulp p x))).2
      have hlt : x / ulp p x < 2 ^ p := (div_lt_iff₀ (ulp_pos p x)).mpr (ulp_bounds p hpos).2
      rw [hn] at herror
      have hlt' : ((n : ℤ) : ℚ) < 2 ^ p + 1 := by linarith
      have hlt'' : n < 2 ^ p + 1 := by exact_mod_cast hlt'
      omega
    unfold roundPos
    rw [hn]
    exact fits_zpow n _ hle hp

/-- No number of `p` digits is nearer. -/
theorem roundPos_nearest (hp : 0 < p) (h : 0 ≤ x) (hy : Fits p y) :
    |roundPos p x - x| ≤ |y - x| := by
  rcases h.eq_or_lt with rfl | hpos
  · rw [roundPos_zero, sub_zero, abs_zero]
    exact abs_nonneg _
  · have hu := ulp_pos p x
    obtain ⟨hlow, -⟩ := ulp_bounds p hpos
    rcases le_or_gt (2 ^ p * ulp p x) (2 * y) with hge | hlt
    · obtain ⟨n, rfl⟩ := hy.multiple hge
      exact scaled_nearest x hu n
    · -- below the numbers with the same last digit, the least of these is nearer
      have hhalf : ((2 ^ (p - 1) : ℤ) : ℚ) * 2 = 2 ^ p := by
        push_cast
        rw [← pow_succ, Nat.sub_add_cancel hp]
      have hbelow : ((2 ^ (p - 1) : ℤ) : ℚ) * ulp p x ≤ x := by
        rw [← hhalf] at hlow
        linarith
      have hbelow' : y ≤ ((2 ^ (p - 1) : ℤ) : ℚ) * ulp p x := by
        rw [← hhalf] at hlt
        linarith
      refine (scaled_nearest x hu (2 ^ (p - 1))).trans ?_
      rw [abs_sub_comm _ x, abs_sub_comm y x, abs_of_nonneg (by linarith),
        abs_of_nonneg (by linarith)]
      linarith

theorem roundPos_of_fits (hp : 0 < p) (h : Fits p x) : roundPos p x = x := by
  have hnearest := roundPos_nearest hp h.nonneg h
  rw [sub_self, abs_zero] at hnearest
  linarith [abs_nonpos_iff.mp hnearest]

theorem roundPos_mono (hp : 0 < p) (h : 0 ≤ x) (hle : x ≤ y) : roundPos p x ≤ roundPos p y := by
  rcases hle.eq_or_lt with rfl | hlt
  · rfl
  · by_contra hgt
    have hx := roundPos_nearest hp h (roundPos_fits hp (h.trans hle))
    have hy := roundPos_nearest hp (h.trans hle) (roundPos_fits hp h)
    have hlt' := not_le.mp hgt
    rw [abs_le] at hx hy
    rcases abs_cases (roundPos p y - x) with hc | hc <;>
      rcases abs_cases (roundPos p x - y) with hc' | hc' <;> linarith [hx.1, hx.2, hy.1, hy.2]

/-- Up to `2 ^ p` multiples of a power of two, half of it is the greatest error. -/
theorem roundPos_error (hp : 0 < p) (h : 0 ≤ x) (hle : x ≤ 2 ^ p * 2 ^ k) :
    |roundPos p x - x| ≤ 2 ^ k / 2 := by
  have hu : (0 : ℚ) < 2 ^ k := zpow_pos (by norm_num) _
  obtain ⟨n, hn⟩ := Int.eq_ofNat_of_zero_le (nearestEven_nonneg (div_nonneg h hu.le))
  have herror := nearestEven_error (x / 2 ^ k)
  rw [hn] at herror
  have hscale : |(n : ℚ) * 2 ^ k - x| = |(n : ℚ) - x / 2 ^ k| * 2 ^ k := by
    rw [← abs_of_pos hu, ← abs_mul, abs_of_pos hu, sub_mul, div_mul_cancel₀ x hu.ne']
  have hfits : n ≤ 2 ^ p := by
    have hlt : x / 2 ^ k ≤ 2 ^ p := (div_le_iff₀ hu).mpr hle
    have hlt' : ((n : ℤ) : ℚ) < 2 ^ p + 1 := by linarith [(abs_le.mp herror).2]
    have hlt'' : n < 2 ^ p + 1 := by exact_mod_cast hlt'
    omega
  refine (roundPos_nearest hp h (fits_zpow n k hfits hp)).trans ?_
  rw [hscale]
  push_cast at herror
  nlinarith

/-! ### Whole numbers with one digit more -/

theorem roundPos_twice {s : ℕ} (hlow : 2 ^ p ≤ s) (hhigh : s < 2 ^ (p + 1)) :
    roundPos p s = nearestEven (s / 2) * 2 := by
  have hlog : Nat.log 2 s = p := Nat.log_eq_of_pow_le_of_lt_pow hlow hhigh
  have hulp : ulp p s = 2 := by
    unfold ulp
    rw [Int.log_natCast, hlog, add_sub_cancel_left, zpow_one]
  unfold roundPos
  rw [hulp]

theorem roundPos_even {n : ℕ} (hlow : 2 ^ p ≤ 2 * n) (hhigh : 2 * n < 2 ^ (p + 1)) :
    roundPos p (2 * n : ℕ) = (2 * n : ℕ) := by
  have hhalf : ((2 * n : ℕ) : ℚ) / 2 = (n : ℤ) := by
    push_cast
    ring
  rw [roundPos_twice hlow hhigh, hhalf, nearestEven_intCast]
  push_cast
  ring

theorem roundPos_odd {n : ℕ} (hlow : 2 ^ p ≤ 2 * n + 1) (hhigh : 2 * n + 1 < 2 ^ (p + 1)) :
    roundPos p (2 * n + 1 : ℕ) = (2 * (n + n % 2) : ℕ) := by
  have hhalf : ((2 * n + 1 : ℕ) : ℚ) / 2 = (n : ℤ) + 1 / 2 := by
    push_cast
    ring
  have hsum : (n : ℤ) + n % 2 = (n + n % 2 : ℕ) := by omega
  rw [roundPos_twice hlow hhigh, hhalf, nearestEven_half, hsum, Int.cast_natCast, Nat.mul_comm,
    Nat.cast_mul, Nat.cast_ofNat]

/-! ### Both signs -/

theorem round_of_nonneg (h : 0 ≤ x) : round p x = roundPos p x := if_neg (not_lt.mpr h)

theorem abs_round (p : ℕ) (x : ℚ) : |round p x| = roundPos p |x| := by
  unfold round
  split_ifs with h
  · rw [abs_neg, abs_of_neg h, abs_of_nonneg (roundPos_nonneg p (by linarith))]
  · have hx := not_lt.mp h
    rw [abs_of_nonneg hx, abs_of_nonneg (roundPos_nonneg p hx)]

theorem round_error (hp : 0 < p) (hle : |x| ≤ 2 ^ p * 2 ^ k) : |round p x - x| ≤ 2 ^ k / 2 := by
  unfold round
  split_ifs with h
  · rw [abs_of_neg h] at hle
    have herror := roundPos_error hp (by linarith) hle
    rwa [← abs_neg, neg_sub, sub_neg_eq_add, add_comm, ← sub_neg_eq_add]
  · rw [abs_of_nonneg (not_lt.mp h)] at hle
    exact roundPos_error hp (not_lt.mp h) hle

end FloatRounding
