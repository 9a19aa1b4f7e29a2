import Mathlib.Algebra.Group.Basic
import Mathlib.Logic.Function.Basic

/-!
Cells of a group, some of which hold something, and links from what a cell holds to what the
neighbouring cell holds. The links stay complete when something new is entered in a cell, as long
as it is linked with the neighbours on both sides.
-/

namespace NeighbourLinks

variable {G α : Type*} {cell : G → Option α} {link : α → Option α} {a : α} {b d : G}

/-- Nothing is in two cells. -/
def Single (cell : G → Option α) : Prop := ∀ ⦃b b' a⦄, cell b = some a → cell b' = some a → b = b'

/-- The link of what a cell holds is what the next cell holds. -/
def Leads [Add G] (d : G) (cell : G → Option α) (link : α → Option α) : Prop :=
  ∀ ⦃b a⦄, cell b = some a → link a = cell (b + d)

/-! ### Entering -/

theorem Single.enter [DecidableEq G] (h : Single cell) (ha : ∀ b, cell b ≠ some a)
    (b : G) : Single (Function.update cell b (some a)) := by
  intro c c' i hi hi'
  by_cases hc : c = b
  · by_cases hc' : c' = b
    · rw [hc, hc']
    · rw [hc, Function.update_self] at hi
      rw [Function.update_of_ne hc', ← hi] at hi'
      exact absurd hi' (ha c')
  · rw [Function.update_of_ne hc] at hi
    by_cases hc' : c' = b
    · rw [hc', Function.update_self] at hi'
      exact absurd (hi.trans hi'.symm) (ha c)
    · rw [Function.update_of_ne hc'] at hi'
      exact h hi hi'

variable [AddGroup G] [DecidableEq α]

/-- The links when `a` is entered in a cell: its own to the next cell, where there is something,
and to it from the cell before. -/
def relink (cell : G → Option α) (link : α → Option α) (d b : G) (a i : α) : Option α :=
  if a = i ∧ (cell (b + d)).isSome then cell (b + d)
  else if cell (b - d) = some i then some a
  else if i = a then none else link i

theorem relink_self (ha : ∀ b, cell b ≠ some a) (b : G) :
    relink cell link d b a a = cell (b + d) := by
  rw [relink, if_neg (ha (b - d)), if_pos rfl]
  cases cell (b + d) with
  | none => simp
  | some j => simp

theorem Leads.enter [DecidableEq G] (h : Leads d cell link) (hsingle : Single cell)
    (ha : ∀ b, cell b ≠ some a) (hd : d ≠ 0) (b : G) :
    Leads d (Function.update cell b (some a)) (relink cell link d b a) := by
  have hstep : b + d ≠ b := fun hb => hd (add_eq_left.mp hb)
  intro c i hi
  by_cases hc : c = b
  · rw [hc, Function.update_self] at hi
    obtain rfl := Option.some.inj hi
    rw [hc, Function.update_of_ne hstep, relink_self ha]
  · rw [Function.update_of_ne hc] at hi
    have hia : i ≠ a := fun hia => ha c (hia ▸ hi)
    rw [relink, if_neg fun hai => hia hai.1.symm]
    by_cases hbd : c + d = b
    · have hbefore : cell (b - d) = some i := by rw [← hbd, add_sub_cancel_right, hi]
      rw [if_pos hbefore, hbd, Function.update_self]
    · have hbefore : cell (b - d) ≠ some i := by
        intro hbefore
        exact hbd (by rw [hsingle hi hbefore, sub_add_cancel])
      rw [if_neg hbefore, if_neg hia, Function.update_of_ne hbd, h hi]

end NeighbourLinks
