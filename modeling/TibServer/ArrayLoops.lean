import Mathlib.Data.Finset.Basic
import Mathlib.Logic.Function.Basic

/-!
Loops that shift the entries of an array in place, and what they leave. An array is a function of
the index; the loops touch the entries up to a bound and keep the others.
-/

namespace TibServer.ArrayLoops

variable {α : Type*}

/-- `for (k = n; --k >= 0;) a[k + 1] = a[k]` -/
def shiftUp : Nat → (Nat → α) → Nat → α
  | 0, a => a
  | n + 1, a => shiftUp n (Function.update a (n + 1) (a n))

/-- `for (k = 0; k < n; ++k) a[k] = a[k + 1]` -/
def shiftDown : Nat → (Nat → α) → Nat → α
  | 0, a => a
  | n + 1, a => Function.update (shiftDown n a) n (shiftDown n a (n + 1))

/-- `for (k = start; k < start + n; ++k) a[k] = f(a[k])` -/
def mapRange (f : α → α) (start : Nat) : Nat → (Nat → α) → Nat → α
  | 0, a => a
  | n + 1, a => Function.update (mapRange f start n a) (start + n) (f (mapRange f start n a (start + n)))

/-- Running down, the loop reads every entry before it is overwritten. -/
theorem shiftUp_apply (n : Nat) (a : Nat → α) (k : Nat) :
    shiftUp n a k = if 1 ≤ k ∧ k ≤ n then a (k - 1) else a k := by
  induction n generalizing a with
  | zero =>
      rw [if_neg (by omega)]
      rfl
  | succ n ih =>
      rw [shiftUp, ih]
      by_cases hk : k = n + 1
      · subst hk
        rw [if_neg (by omega), if_pos (by omega), Function.update_self, Nat.add_sub_cancel]
      · have hbefore : k - 1 ≠ n + 1 ∨ ¬ (1 ≤ k ∧ k ≤ n) := by omega
        rw [Function.update_of_ne hk]
        by_cases hin : 1 ≤ k ∧ k ≤ n
        · rw [if_pos hin, if_pos ⟨hin.1, hin.2.trans (Nat.le_succ n)⟩,
            Function.update_of_ne (hbefore.resolve_right (not_not.2 hin))]
        · rw [if_neg hin, if_neg (by omega)]

/-- Running up, the entry read is still that of before. -/
theorem shiftDown_apply (n : Nat) (a : Nat → α) (k : Nat) :
    shiftDown n a k = if k < n then a (k + 1) else a k := by
  induction n generalizing k with
  | zero =>
      rw [if_neg (Nat.not_lt_zero k)]
      rfl
  | succ n ih =>
      rw [shiftDown]
      by_cases hk : k = n
      · subst hk
        rw [Function.update_self, ih, if_neg (by omega), if_pos (Nat.lt_succ_self k)]
      · rw [Function.update_of_ne hk, ih]
        by_cases hlt : k < n
        · rw [if_pos hlt, if_pos (by omega)]
        · rw [if_neg hlt, if_neg (by omega)]

/-- Every entry of the range is changed once. -/
theorem mapRange_apply (f : α → α) (start n : Nat) (a : Nat → α) (k : Nat) :
    mapRange f start n a k = if start ≤ k ∧ k < start + n then f (a k) else a k := by
  induction n generalizing k with
  | zero =>
      rw [if_neg (by omega)]
      rfl
  | succ n ih =>
      rw [mapRange]
      by_cases hk : k = start + n
      · subst hk
        rw [Function.update_self, ih, if_neg (by omega), if_pos (by omega)]
      · rw [Function.update_of_ne hk, ih]
        by_cases hin : start ≤ k ∧ k < start + n
        · rw [if_pos hin, if_pos (by omega)]
        · rw [if_neg hin, if_neg (by omega)]

end TibServer.ArrayLoops
