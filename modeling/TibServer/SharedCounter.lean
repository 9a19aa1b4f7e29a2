import Mathlib.Algebra.Order.Group.Nat
import Mathlib.Data.Nat.Find
import Mathlib.Tactic.Ring

/-!
A counter that several periods share. Every round raises it by one; a period comes up in the rounds
in which it divides the counter; the counter may be reset at the end of a round that has reached the
period. Two rounds in which the period comes up follow each other at less than twice its length.
-/

namespace SharedCounter

/-- The values of the counter in the rounds, and after which of them it is reset. -/
structure Run where
  value : Nat → Nat
  reset : Nat → Bool
  next : ∀ n, value (n + 1) = if reset n then 1 else value n + 1

variable {r : Run} {m i j : Nat}

/-- The counter is never reset before it has reached the period. -/
def Run.Reaches (r : Run) (m : Nat) : Prop := ∀ n, r.reset n = true → m ≤ r.value n

theorem value_add (h : ∀ k < j, r.reset (i + k) = false) : r.value (i + j) = r.value i + j := by
  induction j with
  | zero => rfl
  | succ j ih =>
      rw [← Nat.add_assoc, r.next, h j (Nat.lt_succ_self j),
        ih fun k hk => h k (Nat.lt_succ_of_lt hk)]
      rfl

/-- After a reset the counter goes up to the period. -/
theorem value_after_reset (h : r.Reaches m) (hi : r.reset i = true) (hj : j < m) :
    r.value (i + 1 + j) = j + 1 := by
  induction j with
  | zero =>
      rw [Nat.add_zero, r.next, hi]
      rfl
  | succ j ih =>
      have hvalue := ih (Nat.lt_of_succ_lt hj)
      have hrunning : r.reset (i + 1 + j) = false := by
        by_contra hreset
        have hreached := h _ (Bool.not_eq_false _ ▸ hreset)
        omega
      rw [← Nat.add_assoc, r.next, hrunning, hvalue]
      rfl

/-- The next round in which the period comes up: after as many rounds as the period is long; or,
where the counter is reset in between, later by what it was past a multiple of the period. -/
theorem next_multiple (h : r.Reaches m) (hm : 0 < m) (hi : m ∣ r.value i) :
    ∃ gap, m ≤ gap ∧ gap < 2 * m ∧ m ∣ r.value (i + gap) ∧
      (∀ j, 0 < j → j < gap → ¬m ∣ r.value (i + j)) ∧
      ((∀ j < gap, r.reset (i + j) = false) ∧ gap = m ∨
        ∃ j < gap, r.reset (i + j) = true ∧ gap = m + r.value (i + j) % m) := by
  by_cases hreset : ∃ j < m, r.reset (i + j) = true
  · have hleast := Nat.find_spec hreset
    have hrunning : ∀ k < Nat.find hreset, r.reset (i + k) = false := fun k hk =>
      Bool.eq_false_iff.mpr fun hk' =>
        Nat.find_min hreset hk ⟨hk.trans hleast.1, hk'⟩
    generalize Nat.find hreset = j at hleast hrunning
    obtain ⟨hj, hreset⟩ := hleast
    have hbefore : ∀ k ≤ j, r.value (i + k) = r.value i + k := fun k hk =>
      value_add fun l hl => hrunning l (hl.trans_le hk)
    have hafter : ∀ k < m, r.value (i + j + 1 + k) = k + 1 := fun k hk =>
      value_after_reset h hreset hk
    refine ⟨j + m, by omega, by omega, ?_, fun k hk hk' => ?_, .inr ⟨j, by omega, hreset, ?_⟩⟩
    · have hlast := hafter (m - 1) (by omega)
      rw [show i + j + 1 + (m - 1) = i + (j + m) by omega] at hlast
      rw [hlast, Nat.sub_add_cancel hm]
    · rcases Nat.lt_or_ge j k with hpast | hyet
      · have hvalue := hafter (k - j - 1) (by omega)
        rw [show i + j + 1 + (k - j - 1) = i + k by omega] at hvalue
        rw [hvalue]
        exact Nat.not_dvd_of_pos_of_lt (by omega) (by omega)
      · rw [hbefore k hyet, Nat.dvd_add_right hi]
        exact Nat.not_dvd_of_pos_of_lt hk (by omega)
    · rw [hbefore j le_rfl, Nat.add_mod, Nat.mod_eq_zero_of_dvd hi, Nat.zero_add, Nat.mod_mod,
        Nat.mod_eq_of_lt hj, Nat.add_comm]
  · have hrunning : ∀ k < m, r.reset (i + k) = false := fun k hk =>
      Bool.eq_false_iff.mpr fun hk' => hreset ⟨k, hk, hk'⟩
    refine ⟨m, le_rfl, by omega, ?_, fun k hk hk' => ?_, .inl ⟨hrunning, rfl⟩⟩
    · rw [value_add hrunning]
      exact (Nat.dvd_add_right hi).mpr dvd_rfl
    · rw [value_add fun l hl => hrunning l (hl.trans hk'), Nat.dvd_add_right hi]
      exact Nat.not_dvd_of_pos_of_lt hk hk'

end SharedCounter
