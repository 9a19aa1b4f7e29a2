import Mathlib.Algebra.BigOperators.Group.Finset.Basic
import Mathlib.Algebra.Order.BigOperators.Group.Finset
import Mathlib.Tactic

/-!
Counting up through levels. The requirement of a level is given by its distance from where the
count begins; as long as the requirements rise, what is counted is taken from it level by level,
and where they stop rising the count ends.
-/

namespace Thresholds

variable (r : Nat → Nat)

/-- What the next `k` levels ask for together. -/
def total (k : Nat) : Nat := ∑ j ∈ Finset.range k, r (j + 1)

def Rising (k : Nat) : Prop := ∀ j < k, r j < r (j + 1)

/-- What a count of `m` from nothing comes to. -/
structure Sits (m k rest : Nat) : Prop where
  sum : m = total r k + rest
  below : rest < r (k + 1)

/-- From a count of `t`, another `m` lead `k` levels up and leave `rest`. -/
structure Stays (t m k rest : Nat) : Prop where
  rising : Rising r (k + 1)
  sum : t + m = total r k + rest
  below : rest < r (k + 1)

/-- From a count of `t`, another `m` lead to the last level, `k` levels up. -/
structure Peaks (t m k : Nat) : Prop where
  pos : 0 < k
  rising : Rising r k
  top : r (k + 1) ≤ r k
  enough : total r k ≤ t + m

variable {r} {t a b m k k' rest rest' : Nat}

@[simp] theorem total_zero : total r 0 = 0 := rfl

theorem total_succ (k : Nat) : total r (k + 1) = total r k + r (k + 1) :=
  Finset.sum_range_succ _ _

theorem total_add (k k' : Nat) : total r (k + k') = total r k + total (fun j => r (k + j)) k' := by
  induction k' with
  | zero => rfl
  | succ k' ih => rw [← Nat.add_assoc, total_succ, total_succ, ih, Nat.add_assoc, Nat.add_assoc]

theorem total_mono (h : k ≤ k') : total r k ≤ total r k' := by
  obtain ⟨d, rfl⟩ := Nat.exists_eq_add_of_le h
  rw [total_add]
  exact Nat.le_add_right _ _

theorem Rising.mono (h : Rising r k') (hle : k ≤ k') : Rising r k :=
  fun j hj => h j (hj.trans_le hle)

theorem Rising.lt (h : Rising r k) (hpos : 0 < k) : r 0 < r k := by
  induction k with
  | zero => omega
  | succ k ih =>
      have hstep := h k (Nat.lt_succ_self k)
      rcases Nat.eq_zero_or_pos k with rfl | hk
      · exact hstep
      · exact (ih (h.mono (Nat.le_succ k)) hk).trans hstep

theorem Rising.append (h : Rising r k) (h' : Rising (fun j => r (k + j)) k') :
    Rising r (k + k') := by
  intro j hj
  rcases Nat.lt_or_ge j k with hlt | hge
  · exact h j hlt
  · obtain ⟨d, rfl⟩ := Nat.exists_eq_add_of_le hge
    exact h' d (by omega)

/-! ### One level at a time -/

theorem Stays.here (hrise : r 0 < r 1) (h : t + m < r 1) : Stays r t m 0 (t + m) := by
  refine ⟨fun j hj => ?_, by simp, h⟩
  obtain rfl : j = 0 := by omega
  exact hrise

/-- Just what the first level still asks for. -/
theorem Stays.first (hrise : r 0 < r 1) (hrise' : r 1 < r 2) (ht : t ≤ r 1) :
    Stays r t (r 1 - t) 1 0 := by
  refine ⟨fun j hj => ?_, ?_, (Nat.zero_le _).trans_lt hrise'⟩
  · rcases (by omega : j = 0 ∨ j = 1) with rfl | rfl
    · exact hrise
    · exact hrise'
  · have htotal : total r 1 = r 1 := by simp [total]
    omega

theorem Peaks.here (hrise : r 0 < r 1) (h : r 1 ≤ t + m) (htop : r 2 ≤ r 1) : Peaks r t m 1 := by
  refine ⟨Nat.one_pos, fun j hj => ?_, htop, by simpa [total] using h⟩
  obtain rfl : j = 0 := by omega
  exact hrise

/-! ### More than once -/

theorem Stays.trans (h : Stays r t a k rest) (h' : Stays (fun j => r (k + j)) rest b k' rest') :
    Stays r t (a + b) (k + k') rest' := by
  have hsum := h.sum
  have hsum' := h'.sum
  have htotal := total_add (r := r) k k'
  exact ⟨(h.rising.mono (Nat.le_succ k)).append h'.rising, by omega, h'.below⟩

theorem Stays.then_peaks (h : Stays r t a k rest) (h' : Peaks (fun j => r (k + j)) rest b k') :
    Peaks r t (a + b) (k + k') := by
  have hsum := h.sum
  have henough := h'.enough
  have htotal := total_add (r := r) k k'
  have hpos := h'.pos
  exact ⟨by omega, (h.rising.mono (Nat.le_succ k)).append h'.rising, h'.top, by omega⟩

theorem Peaks.more (h : Peaks r t a k) (b : Nat) : Peaks r t (a + b) k :=
  { h with enough := h.enough.trans (by omega) }

/-! ### One outcome -/

theorem Sits.le (h : Sits r m k rest) (h' : Sits r m k' rest') : k ≤ k' := by
  by_contra hlt
  have hmono := total_mono (r := r) (show k' + 1 ≤ k by omega)
  have hsucc := total_succ (r := r) k'
  have hsum := h.sum
  have hsum' := h'.sum
  have hbelow := h'.below
  omega

theorem Sits.unique (h : Sits r m k rest) (h' : Sits r m k' rest') : k = k' ∧ rest = rest' := by
  obtain rfl : k = k' := (h.le h').antisymm (h'.le h)
  have hsum := h.sum
  have hsum' := h'.sum
  exact ⟨rfl, by omega⟩

theorem Stays.sits (h : Stays r t m k rest) : Sits r (t + m) k rest := ⟨h.sum, h.below⟩

theorem Stays.unique (h : Stays r t m k rest) (h' : Stays r t m k' rest') :
    k = k' ∧ rest = rest' :=
  h.sits.unique h'.sits

theorem Stays.not_peaks (h : Stays r t m k rest) (h' : Peaks r t m k') : False := by
  rcases Nat.lt_or_ge k k' with hlt | hge
  · have hmono := total_mono (r := r) (show k + 1 ≤ k' by omega)
    have hsucc := total_succ (r := r) k
    have hsum := h.sum
    have hbelow := h.below
    have henough := h'.enough
    omega
  · exact absurd (h.rising k' (by omega)) (not_lt.mpr h'.top)

theorem Peaks.unique (h : Peaks r t a k) (h' : Peaks r t b k') : k = k' := by
  rcases Nat.lt_trichotomy k k' with hlt | rfl | hlt
  · exact absurd (h'.rising k hlt) (not_lt.mpr h.top)
  · rfl
  · exact absurd (h.rising k' hlt) (not_lt.mpr h'.top)

/-! ### Counting down -/

/-- The tries of a level are lost before the one below is gone into; what is lost beyond that stays
over at the bottom. -/
def fall (r : Nat → Nat) : Nat → Nat → Nat → Nat × Nat × Nat
  | 0, t, lost => (0, t, lost)
  | k + 1, t, lost => if lost ≤ t then (k + 1, t, lost) else fall r k (r (k + 1)) (lost - t)

theorem fall_of_le {lost : Nat} (h : lost ≤ t) : fall r k t lost = (k, t, lost) := by
  cases k with
  | zero => rfl
  | succ k => exact if_pos h

theorem fall_succ {lost : Nat} (h : t < lost) :
    fall r (k + 1) t lost = fall r k (r (k + 1)) (lost - t) :=
  if_neg (Nat.not_le_of_lt h)

/-- What is left is what the sum is less the loss. -/
theorem fall_sits {lost : Nat} (h : lost ≤ total r k + t)
    (hbelow : lost ≤ t → t - lost < r (k + 1)) :
    (fall r k t lost).2.2 ≤ (fall r k t lost).2.1 ∧
      Sits r (total r k + t - lost) (fall r k t lost).1
        ((fall r k t lost).2.1 - (fall r k t lost).2.2) := by
  induction k generalizing t lost with
  | zero =>
      simp only [total_zero, Nat.zero_add] at h ⊢
      exact ⟨h, ⟨by simp [fall], hbelow h⟩⟩
  | succ k ih =>
      by_cases hle : lost ≤ t
      · rw [fall_of_le hle]
        exact ⟨hle, ⟨by simp only; omega, hbelow hle⟩⟩
      · rw [total_succ] at h ⊢
        rw [fall_succ (not_le.mp hle)]
        have hrest := @ih (r (k + 1)) (lost - t) (by omega) (fun _ => by omega)
        have hsame : total r k + r (k + 1) + t - lost = total r k + r (k + 1) - (lost - t) := by
          omega
        rw [hsame]
        exact hrest

theorem fall_bottom {lost : Nat} (h : total r k + t < lost) :
    (fall r k t lost).1 = 0 ∧ (fall r k t lost).2.1 < (fall r k t lost).2.2 := by
  induction k generalizing t lost with
  | zero => exact ⟨rfl, by simpa [fall] using h⟩
  | succ k ih =>
      rw [total_succ] at h
      rw [fall_succ (by omega)]
      exact ih (by omega)

end Thresholds
