import Mathlib.Data.Finset.Card
import Mathlib.Data.List.Nodup
import Mathlib.Tactic

/-!
Searching with a worklist: the entries of a queue are visited in turn, and the
children of each are queued behind the others. Where no entry is the child of two,
and no root the child of anything reached, every entry that can be reached is
visited, and once.
-/

namespace Worklist

variable {α : Type*} (children : α → List α)

/-- The entries visited from a queue, with a bound on their number. -/
def visit : Nat → List α → List α
  | 0, _ => []
  | _, [] => []
  | n + 1, a :: queue => a :: visit n (queue ++ children a)

inductive Reached (roots : List α) : α → Prop
  | root {a : α} (ha : a ∈ roots) : Reached roots a
  | child {a b : α} (ha : Reached roots a) (hb : b ∈ children a) : Reached roots b

structure Forest (roots : List α) : Prop where
  nodup : roots.Nodup
  each : ∀ a, (children a).Nodup
  apart : ∀ {a b c}, c ∈ children a → c ∈ children b → a = b
  outer : ∀ {a b}, a ∈ roots → Reached children roots b → a ∉ children b

/-- A search under way: what is visited already and what is queued. -/
structure Searching (roots visited queue : List α) : Prop where
  nodup : (visited ++ queue).Nodup
  reached : ∀ a ∈ visited ++ queue, Reached children roots a
  origin : ∀ a ∈ visited ++ queue, a ∈ roots ∨ ∃ b ∈ visited, a ∈ children b
  started : ∀ a ∈ roots, a ∈ visited ++ queue
  closed : ∀ a ∈ visited, ∀ b ∈ children a, b ∈ visited ++ queue

variable {children} {roots visited queue : List α} {a : α}

theorem Forest.searching (h : Forest children roots) : Searching children roots [] roots where
  nodup := h.nodup
  reached _ ha := .root ha
  origin _ ha := .inl ha
  started _ ha := ha
  closed _ ha := by simp at ha

theorem Searching.step (h : Searching children roots visited (a :: queue))
    (forest : Forest children roots) :
    Searching children roots (visited ++ [a]) (queue ++ children a) := by
  have same : ∀ {b}, b ∈ visited ++ [a] ++ (queue ++ children a) ↔
      b ∈ visited ++ a :: queue ∨ b ∈ children a := by
    intro b
    simp only [List.mem_append, List.mem_cons]
    tauto
  have here : a ∈ visited ++ a :: queue := by simp
  -- a child that is known already would be a root, or the child of two
  have fresh : ∀ b ∈ visited ++ a :: queue, b ∉ children a := by
    intro b hb child
    rcases h.origin b hb with root | ⟨c, hc, child'⟩
    · exact forest.outer root (h.reached a here) child
    · obtain rfl := forest.apart child child'
      exact (List.nodup_append.mp h.nodup).2.2 a hc a List.mem_cons_self rfl
  refine ⟨?_, fun b hb => ?_, fun b hb => ?_, fun b hb => ?_, fun b hb c hc => ?_⟩
  · have all : visited ++ [a] ++ (queue ++ children a) =
        (visited ++ a :: queue) ++ children a := by simp
    rw [all, List.nodup_append]
    exact ⟨h.nodup, forest.each a, fun b hb c hc e => fresh b hb (e ▸ hc)⟩
  · rcases same.mp hb with known | child
    · exact h.reached b known
    · exact .child (h.reached a here) child
  · rcases same.mp hb with known | child
    · refine (h.origin b known).imp_right ?_
      rintro ⟨c, hc, child⟩
      exact ⟨c, List.mem_append_left _ hc, child⟩
    · exact .inr ⟨a, by simp, child⟩
  · exact same.mpr (.inl (h.started b hb))
  · rcases List.mem_append.mp hb with old | new
    · exact same.mpr (.inl (h.closed b old c hc))
    · obtain rfl := List.mem_singleton.mp new
      exact same.mpr (.inr hc)

theorem Searching.length_le [DecidableEq α] {bound : Finset α}
    (h : Searching children roots visited queue)
    (finite : ∀ a, Reached children roots a → a ∈ bound) :
    visited.length + queue.length ≤ bound.card := by
  rw [← List.length_append, ← List.toFinset_card_of_nodup h.nodup]
  exact Finset.card_le_card fun a ha => finite a (h.reached a (List.mem_toFinset.mp ha))

theorem Searching.visit [DecidableEq α] {n : Nat} {bound : Finset α}
    (h : Searching children roots visited queue) (forest : Forest children roots)
    (finite : ∀ a, Reached children roots a → a ∈ bound)
    (enough : bound.card < visited.length + n) :
    (visited ++ visit children n queue).Nodup ∧
      ∀ a, a ∈ visited ++ Worklist.visit children n queue ↔ Reached children roots a := by
  induction n generalizing visited queue with
  | zero =>
      have few := h.length_le finite
      omega
  | succ n ih =>
      cases queue with
      | nil =>
          refine ⟨by simpa [Worklist.visit] using h.nodup, fun a => ⟨fun ha => ?_, fun ha => ?_⟩⟩
          · exact h.reached a (by simpa [Worklist.visit] using ha)
          · have all : a ∈ visited := by
              induction ha with
              | root ha => simpa using h.started _ ha
              | child _ hb known => simpa using h.closed _ known _ hb
            exact List.mem_append_left _ all
      | cons a queue =>
          have more : (visited ++ [a]).length = visited.length + 1 := by simp
          have rest := ih (h.step forest) (by omega)
          rw [List.append_assoc] at rest
          exact rest

/-- With a bound above the number of entries that can be reached. -/
theorem visit_spec [DecidableEq α] (n : Nat) (bound : Finset α) (forest : Forest children roots)
    (finite : ∀ a, Reached children roots a → a ∈ bound) (enough : bound.card < n) :
    (visit children n roots).Nodup ∧
      ∀ a, a ∈ visit children n roots ↔ Reached children roots a :=
  forest.searching.visit forest finite (by simpa using enough)

end Worklist
