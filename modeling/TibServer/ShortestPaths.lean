import Mathlib.Order.Bounds.Basic
import Mathlib.Tactic

/-!
Paths over labelled edges with costs, and the argument of Dijkstra: where every edge out of a
settled vertex is relaxed, a path from a settled vertex ends at a settled one with a value that is
no greater, or costs at least as much as what is not settled yet.
-/

namespace ShortestPaths

variable {V L : Type*}

/-- Along the edges with these labels, with the sum of their costs. -/
inductive Path (edge : L → V → V → Int → Prop) : V → List L → V → Int → Prop
  | nil (u : V) : Path edge u [] u 0
  | cons {l : L} {u v t : V} {c d : Int} {ls : List L} (step : edge l u v c)
      (rest : Path edge v ls t d) : Path edge u (l :: ls) t (c + d)

/-- A path to a goal than which no path to a goal costs less. -/
def Cheapest (edge : L → V → V → Int → Prop) (goal : V → Prop) (s : V) (ls : List L) : Prop :=
  ∃ t c, Path edge s ls t c ∧ goal t ∧
    ∀ ls' t' c', Path edge s ls' t' c' → goal t' → c ≤ c'

/-- Every edge out of a settled vertex leads to a settled one that is worth no more than by this
edge, or costs `bound`. -/
def Relaxed (edge : L → V → V → Int → Prop) (settled : V → Int → Prop) (bound : Int) : Prop :=
  ∀ {l u v x c}, settled u x → edge l u v c → bound ≤ x + c ∨ ∃ y ≤ x + c, settled v y

variable {edge : L → V → V → Int → Prop} {s t u v : V} {ls : List L} {c : Int}

theorem Path.nonneg (h : Path edge u ls v c) (nonneg : ∀ {l u v c}, edge l u v c → 0 ≤ c) :
    0 ≤ c := by
  induction h with
  | nil => exact le_rfl
  | cons step _ ih =>
      have := nonneg step
      omega

theorem Path.settled {settled : V → Int → Prop} {bound x : Int} (h : Path edge u ls v c)
    (nonneg : ∀ {l u v c}, edge l u v c → 0 ≤ c) (relaxed : Relaxed edge settled bound)
    (hu : settled u x) : bound ≤ x + c ∨ ∃ y ≤ x + c, settled v y := by
  induction h generalizing x with
  | nil => exact .inr ⟨x, by omega, hu⟩
  | cons step rest ih =>
      have hrest := rest.nonneg nonneg
      rcases relaxed hu step with far | ⟨y, hy, hv⟩
      · exact .inl (by omega)
      · rcases ih hv with far | ⟨z, hz, ht⟩
        · exact .inl (by omega)
        · exact .inr ⟨z, by omega, ht⟩

/-- The first goal that is settled, or about to be, is reached at the least cost. -/
theorem Path.cheapest {goal : V → Prop} (settled : V → Int → Prop) (h : Path edge s ls t c)
    (ht : goal t) (nonneg : ∀ {l u v c}, edge l u v c → 0 ≤ c)
    (relaxed : Relaxed edge settled c) (hs : c ≤ 0 ∨ settled s 0)
    (first : ∀ {v y}, settled v y → goal v → c ≤ y) : Cheapest edge goal s ls := by
  refine ⟨t, c, h, ht, fun ls' t' c' h' ht' => ?_⟩
  rcases hs with none | hs
  · exact none.trans (h'.nonneg nonneg)
  · rcases h'.settled nonneg relaxed hs with far | ⟨y, hy, hv⟩
    · omega
    · have := first hv ht'
      omega

end ShortestPaths
