import Mathlib.Algebra.BigOperators.Group.Finset.Basic
import Mathlib.Algebra.BigOperators.Group.List.Basic
import Mathlib.Algebra.Order.BigOperators.Group.Finset
import Mathlib.Tactic

/-!
Books: which entries are listed at which place, and what the entries listed
at a set of places are worth together. Taking an entry off one place and
putting it at another are relations between two books, so that an operation
can be described by them whatever it does to the order of a list.
-/

namespace Ledger

variable {P R : Type*}

/-- What the entries listed at the places of `S` are worth. -/
def total (S : Finset P) (book : P → List R) (val : R → ℕ) : ℕ :=
  ∑ p ∈ S, ((book p).map val).sum

/-- Nothing is listed outside `S`. -/
def Within (S : Finset P) (book : P → List R) : Prop := ∀ p, p ∉ S → book p = []

/-- No entry is listed twice. -/
structure Once (book : P → List R) : Prop where
  nodup : ∀ p, (book p).Nodup
  place : ∀ {p q r}, r ∈ book p → r ∈ book q → p = q

/-- `r` is taken off the list of `p`. -/
structure Took [DecidableEq R] (book book' : P → List R) (p : P) (r : R) : Prop where
  mem : r ∈ book p
  here : (book' p).Perm ((book p).erase r)
  other : ∀ q, q ≠ p → book' q = book q

/-- `r` is put into the list of `p`. -/
structure Put (book book' : P → List R) (p : P) (r : R) : Prop where
  here : (book' p).Perm (r :: book p)
  other : ∀ q, q ≠ p → book' q = book q

section Total

variable {S : Finset P} {book book' : P → List R} {val val' : R → ℕ} {p : P} {r : R}

/-- Two books that differ at one place only differ in total by its two lists. -/
theorem total_change [DecidableEq P] (hp : p ∈ S) (h : ∀ q, q ≠ p → book' q = book q) :
    total S book' val + ((book p).map val).sum =
      total S book val + ((book' p).map val).sum := by
  unfold total
  rw [← Finset.add_sum_erase S _ hp, ← Finset.add_sum_erase S _ hp]
  have rest : ∑ q ∈ S.erase p, ((book' q).map val).sum =
      ∑ q ∈ S.erase p, ((book q).map val).sum :=
    Finset.sum_congr rfl fun q hq => by rw [h q (Finset.ne_of_mem_erase hq)]
  rw [rest]
  omega

theorem total_took [DecidableEq P] [DecidableEq R] (hp : p ∈ S) (h : Took book book' p r) :
    total S book' val + val r = total S book val := by
  have change : total S book' val + ((book p).map val).sum =
      total S book val + ((book' p).map val).sum := total_change hp h.other
  have here : ((book' p).map val).sum + val r = ((book p).map val).sum := by
    rw [(h.here.map val).sum_eq]
    have split := ((List.perm_cons_erase h.mem).map val).sum_eq
    rw [split, List.map_cons, List.sum_cons, Nat.add_comm]
  omega

theorem total_put [DecidableEq P] (hp : p ∈ S) (h : Put book book' p r) :
    total S book' val = total S book val + val r := by
  have change : total S book' val + ((book p).map val).sum =
      total S book val + ((book' p).map val).sum := total_change hp h.other
  have here : ((book' p).map val).sum = val r + ((book p).map val).sum := by
    rw [(h.here.map val).sum_eq, List.map_cons, List.sum_cons]
  omega

theorem total_congr (h : ∀ p ∈ S, ∀ r ∈ book p, val' r = val r) :
    total S book val' = total S book val :=
  Finset.sum_congr rfl fun p hp => by rw [List.map_congr_left (h p hp)]

/-- An entry nobody lists can change its value. -/
theorem total_unlisted (h : ∀ q, r ∉ book q) (hv : ∀ s, s ≠ r → val' s = val s) :
    total S book val' = total S book val :=
  total_congr fun q _ s hs => hv s fun e => h q (e ▸ hs)

/-- The entries of one value at a place are at most the whole. -/
theorem le_total (hp : p ∈ S) (hr : r ∈ book p) : val r ≤ total S book val := by
  have h₁ : val r ≤ ((book p).map val).sum := by
    exact List.single_le_sum (by simp) _ (List.mem_map_of_mem hr)
  have h₂ : ((book p).map val).sum ≤ total S book val :=
    Finset.single_le_sum (f := fun p => ((book p).map val).sum) (fun _ _ => Nat.zero_le _) hp
  exact h₁.trans h₂

end Total

section Places

variable [DecidableEq R] {S : Finset P} {book book' book'' : P → List R} {p q : P} {r s : R}

theorem Took.mem_iff (h : Took book book' p r) (once : Once book) :
    s ∈ book' q ↔ s ∈ book q ∧ s ≠ r := by
  by_cases e : q = p
  · subst e
    rw [h.here.mem_iff, (once.nodup q).mem_erase_iff, and_comm]
  · rw [h.other q e]
    exact ⟨fun hs => ⟨hs, fun he => e (once.place (he ▸ hs) h.mem)⟩, fun hs => hs.1⟩

theorem Took.once (h : Took book book' p r) (once : Once book) : Once book' where
  nodup q := by
    by_cases e : q = p
    · subst e
      exact h.here.nodup_iff.mpr ((once.nodup q).erase r)
    · rw [h.other q e]
      exact once.nodup q
  place hs hs' := once.place ((h.mem_iff once).mp hs).1 ((h.mem_iff once).mp hs').1

/-- What was taken is listed nowhere any more. -/
theorem Took.unlisted (h : Took book book' p r) (once : Once book) : r ∉ book' q :=
  fun hr => ((h.mem_iff once).mp hr).2 rfl

omit [DecidableEq R] in
theorem Put.mem (h : Put book book' p r) : r ∈ book' p :=
  h.here.mem_iff.mpr (List.mem_cons_self)

omit [DecidableEq R] in
theorem Put.mem_of_mem (h : Put book book' p r) (hs : s ∈ book q) : s ∈ book' q := by
  by_cases e : q = p
  · subst e
    exact h.here.mem_iff.mpr (List.mem_cons_of_mem _ hs)
  · rwa [h.other q e]

omit [DecidableEq R] in
theorem Put.eq_or_mem (h : Put book book' p r) (hs : s ∈ book' q) :
    (s = r ∧ q = p) ∨ s ∈ book q := by
  by_cases e : q = p
  · subst e
    rcases List.mem_cons.mp (h.here.mem_iff.mp hs) with e | hs
    · exact .inl ⟨e, rfl⟩
    · exact .inr hs
  · rw [h.other q e] at hs
    exact .inr hs

omit [DecidableEq R] in
theorem Put.once (h : Put book book' p r) (once : Once book) (hr : ∀ q, r ∉ book q) :
    Once book' where
  nodup q := by
    by_cases e : q = p
    · subst e
      exact h.here.nodup_iff.mpr (List.nodup_cons.mpr ⟨hr q, once.nodup q⟩)
    · rw [h.other q e]
      exact once.nodup q
  place hs hs' := by
    rcases h.eq_or_mem hs with ⟨rfl, rfl⟩ | hs
    · rcases h.eq_or_mem hs' with ⟨_, rfl⟩ | hs'
      · rfl
      · exact absurd hs' (hr _)
    · rcases h.eq_or_mem hs' with ⟨rfl, rfl⟩ | hs'
      · exact absurd hs (hr _)
      · exact once.place hs hs'

/-- A list that is another one with `r` in it has had `r` put in, or taken off. -/
theorem Took.of_perm (h : (book p).Perm (r :: book' p)) (ho : ∀ q, q ≠ p → book' q = book q) :
    Took book book' p r where
  mem := h.mem_iff.mpr List.mem_cons_self
  here := by
    have := (h.erase r).symm
    rwa [List.erase_cons_head] at this
  other := ho

theorem exists_took [DecidableEq P] (hr : r ∈ book p) : ∃ book', Took book book' p r :=
  ⟨Function.update book p ((book p).erase r), hr, by simp,
    fun q hq => by rw [Function.update_of_ne hq]⟩

/-- A change of the value of one listed entry. -/
theorem total_revalue [DecidableEq P] {val val' : R → ℕ} (once : Once book) (hp : p ∈ S)
    (hr : r ∈ book p) (hv : ∀ s, s ≠ r → val' s = val s) :
    total S book val' + val r = total S book val + val' r := by
  -- compare both with the book from which the entry is taken
  obtain ⟨bare, took⟩ := exists_took hr
  have old : total S bare val + val r = total S book val := total_took hp took
  have new : total S bare val' + val' r = total S book val' := total_took hp took
  have same : total S bare val' = total S bare val :=
    total_unlisted (fun _ => took.unlisted once) hv
  omega

end Places

/-! A list kept as slots, some of them empty. -/

section Slots

variable {α β : Type*} [DecidableEq α] {l : List α} {f : α → Option β} {s : α} {b : β}

/-- Emptying the place of an entry takes the entry out of the list. -/
theorem filterMap_update_none (hl : l.Nodup) (hs : s ∈ l) (hf : f s = some b) :
    (l.filterMap f).Perm (b :: l.filterMap (Function.update f s none)) := by
  induction l with
  | nil => simp at hs
  | cons x l ih =>
      rw [List.nodup_cons] at hl
      by_cases hx : x = s
      · subst hx
        have rest : l.filterMap (Function.update f x none) = l.filterMap f :=
          List.filterMap_congr fun y hy => by
            rw [Function.update_of_ne]
            rintro rfl
            exact hl.1 hy
        simp [hf, rest]
      · have hs' : s ∈ l := (List.mem_cons.mp hs).resolve_left (Ne.symm hx)
        have ih := ih hl.2 hs'
        rw [List.filterMap_cons, List.filterMap_cons, Function.update_of_ne hx]
        cases f x with
        | none => exact ih
        | some y => exact (ih.cons y).trans (List.Perm.swap _ _ _)

/-- Filling an empty place puts the entry into the list. -/
theorem filterMap_update_some (hl : l.Nodup) (hs : s ∈ l) (hf : f s = none) :
    (l.filterMap (Function.update f s (some b))).Perm (b :: l.filterMap f) := by
  have h := filterMap_update_none (f := Function.update f s (some b)) (b := b) hl hs (by simp)
  rwa [Function.update_idem, ← hf, Function.update_eq_self] at h

end Slots

end Ledger
