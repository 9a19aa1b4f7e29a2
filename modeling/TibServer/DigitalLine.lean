import Mathlib.Tactic

/-!
Drawing a line with integer points. The line ends on `(n, m)`, of which `n` is the longer side; a
point is `i` along the longer side and `j` along the shorter one, and its error is the cross
product, `n` times its distance from the line along the shorter side. Every step goes along the
longer side, and along the shorter one too where the error would exceed half of `n`.
-/

namespace DigitalLine

variable {m n i j : ℤ}

def error (m n i j : ℤ) : ℤ := m * i - n * j

/-- A point of the walk. -/
structure Near (m n i j : ℤ) : Prop where
  sides : 0 ≤ m ∧ m ≤ n
  along : 0 ≤ i ∧ i ≤ n
  lower : -n < 2 * error m n i j
  upper : 2 * error m n i j ≤ n

@[simp] theorem error_right : error m n (i + 1) j = error m n i j + m := by
  unfold error
  ring

@[simp] theorem error_up : error m n i (j + 1) = error m n i j - n := by
  unfold error
  ring

namespace Near

theorem start (hm : 0 ≤ m) (hmn : m ≤ n) (hn : 0 < n) : Near m n 0 0 where
  sides := ⟨hm, hmn⟩
  along := ⟨le_rfl, hn.le⟩
  lower := by
    unfold error
    omega
  upper := by
    unfold error
    omega

variable (h : Near m n i j)
include h

/-- The shorter side is not left. -/
theorem across : 0 ≤ j ∧ j ≤ m := by
  obtain ⟨⟨hm, hmn⟩, ⟨hi, hin⟩, hlower, hupper⟩ := h
  unfold error at hlower hupper
  have hn : 0 < n := by omega
  have hgrown : 0 ≤ m * i := mul_nonneg hm hi
  have hrest : m * i ≤ m * n := mul_le_mul_of_nonneg_left hin hm
  constructor
  · by_contra hneg
    have hback : n * j ≤ n * (-1) := mul_le_mul_of_nonneg_left (by omega) hn.le
    omega
  · by_contra hbeyond
    have hfar : n * (m + 1) ≤ n * j := mul_le_mul_of_nonneg_left (by omega) hn.le
    have hsplit : n * (m + 1) = m * n + n := by ring
    omega

theorem last (hi : i = n) : j = m := by
  obtain ⟨hj, hjm⟩ := h.across
  obtain ⟨⟨hm, hmn⟩, -, hlower, hupper⟩ := h
  unfold error at hlower hupper
  subst hi
  by_contra hne
  have hshort : i * (j + 1) ≤ i * m := mul_le_mul_of_nonneg_left (by omega) (by omega)
  have hsplit : i * (j + 1) = i * j + i := by ring
  have hcomm : m * i = i * m := mul_comm m i
  omega

/-- On the far side nothing is left to do across. -/
theorem far (hj : j = m) (hi : i < n) : ¬ n < 2 * (error m n i j + m) := by
  obtain ⟨⟨hm, hmn⟩, -, -, -⟩ := h
  unfold error
  subst hj
  have hleft : j * (i + 1) ≤ j * n := mul_le_mul_of_nonneg_left (by omega) hm
  have hsplit : j * (i + 1) = j * i + j := by ring
  have hcomm : n * j = j * n := mul_comm n j
  omega

theorem step (hi : i < n) :
    Near m n (i + 1) (if n < 2 * (error m n i j + m) then j + 1 else j) := by
  obtain ⟨⟨hm, hmn⟩, ⟨hi0, -⟩, hlower, hupper⟩ := h
  split_ifs with hturn
  · refine ⟨⟨hm, hmn⟩, by omega, ?_, ?_⟩
    · rw [error_up, error_right]
      omega
    · rw [error_up, error_right]
      omega
  · refine ⟨⟨hm, hmn⟩, by omega, ?_, ?_⟩
    · rw [error_right]
      omega
    · rw [error_right]
      omega

/-- The three errors that a step can have are compared: going along beats not going along. -/
theorem goes_along (hm : 0 < m) :
    |error m n i j + m| < |error m n i j - n| ∨
      |error m n i j + m - n| < |error m n i j - n| := by
  obtain ⟨⟨-, hmn⟩, -, hlower, hupper⟩ := h
  have hstrict : m + 2 * error m n i j < 2 * n := by
    by_contra hhalf
    -- on a diagonal the error is a multiple of the side, so never the half of it
    obtain rfl : m = n := by omega
    have hhalf' : m * (2 * (i - j)) = m * 1 := by
      unfold error at hhalf hupper
      have hsplit : m * (2 * (i - j)) = 2 * (m * i - m * j) := by ring
      omega
    have hodd := mul_left_cancel₀ hm.ne' hhalf'
    omega
  refine .inr ?_
  rw [abs_of_nonpos (show error m n i j - n ≤ 0 by omega), abs_lt]
  omega

theorem goes_across_iff :
    (|error m n i j - n| < |error m n i j + m| ∨
        |error m n i j + m - n| < |error m n i j + m|) ↔
      n < 2 * (error m n i j + m) := by
  obtain ⟨⟨hm, hmn⟩, -, hlower, hupper⟩ := h
  rw [abs_of_nonpos (show error m n i j - n ≤ 0 by omega)]
  rcases le_total 0 (error m n i j + m) with hpositive | hnegative
  · rw [abs_of_nonneg hpositive, abs_lt]
    omega
  · rw [abs_of_nonpos hnegative, abs_lt]
    omega

theorem error_le : |error m n i j| ≤ n := by
  obtain ⟨⟨hm, hmn⟩, -, hlower, hupper⟩ := h
  rw [abs_le]
  omega

/-- A diagonal is not left. -/
theorem diagonal (hmn : m = n) : j = i := by
  obtain ⟨-, -, hlower, hupper⟩ := h
  unfold error at hlower hupper
  subst hmn
  by_contra hne
  rcases lt_or_gt_of_ne hne with hless | hmore
  · have hone : m * (j + 1) ≤ m * i := mul_le_mul_of_nonneg_left (by omega) (by omega)
    have hsplit : m * (j + 1) = m * j + m := by ring
    omega
  · have hone : m * (i + 1) ≤ m * j := mul_le_mul_of_nonneg_left (by omega) (by omega)
    have hsplit : m * (i + 1) = m * i + m := by ring
    omega

theorem longer_pos : (0 : ℚ) < n := by
  obtain ⟨-, -, hlower, hupper⟩ := h
  exact_mod_cast (show 0 < n by omega)

theorem fraction : (0 : ℚ) ≤ i / n ∧ (i : ℚ) / n ≤ 1 ∧ (i : ℚ) - n * (i / n) = 0 := by
  have hn := h.longer_pos
  have hi : (0 : ℚ) ≤ i := by exact_mod_cast h.along.1
  have hin : (i : ℚ) ≤ n := by exact_mod_cast h.along.2
  refine ⟨div_nonneg hi hn.le, (div_le_one hn).2 hin, ?_⟩
  rw [mul_div_cancel₀ _ hn.ne', sub_self]

/-- The line passes the point within half a unit. -/
theorem distance_le : |(j : ℚ) - m * (i / n)| ≤ 1 / 2 := by
  have hn := h.longer_pos
  obtain ⟨-, -, hlower, hupper⟩ := h
  have herror : (j : ℚ) - m * (i / n) = -(error m n i j : ℚ) / n := by
    unfold error
    push_cast
    field_simp
    ring
  have hlower' : -(n : ℚ) ≤ 2 * error m n i j := by exact_mod_cast hlower.le
  have hupper' : 2 * (error m n i j : ℚ) ≤ n := by exact_mod_cast hupper
  rw [herror, abs_le, le_div_iff₀ hn, div_le_iff₀ hn]
  constructor
  · linarith
  · linarith

end Near

end DigitalLine
