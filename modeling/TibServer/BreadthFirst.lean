import Mathlib.Data.List.Perm.Basic
import Mathlib.Data.List.Flatten

/-!
The breadth-first walk over trees. A queue holds the nodes that are yet to be visited; the children
of a node go to its end when the node is taken from its front. As many steps as there are nodes at
and below those of the queue empty it.
-/

namespace BreadthFirst

variable {α : Type*} {children below : α → List α} {x y : α} {queue : List α} {n : Nat}

/-- The nodes that `n` steps visit, and the queue that they leave. -/
def search (children : α → List α) : Nat → List α → List α × List α
  | 0, queue => ([], queue)
  | _ + 1, [] => ([], [])
  | n + 1, x :: queue =>
      (x :: (search children n (queue ++ children x)).1,
        (search children n (queue ++ children x)).2)

/-- `below x` lists all nodes under `x`; the trees are finite where there is such a list. -/
def Lists (children below : α → List α) : Prop :=
  ∀ x, below x = (children x).flatMap fun y => y :: below y

/-- The nodes of a queue and all nodes under them. -/
def nodes (below : α → List α) (queue : List α) : List α := queue.flatMap fun x => x :: below x

theorem nodes_cons (below : α → List α) (x : α) (queue : List α) :
    nodes below (x :: queue) = x :: (below x ++ nodes below queue) := rfl

/-- A step takes one node off all those of the queue. -/
theorem Lists.nodes_step (h : Lists children below) (x : α) (queue : List α) :
    nodes below (queue ++ children x) = nodes below queue ++ below x := by
  unfold nodes
  rw [List.flatMap_append, ← h x]

/-- Every node is visited as often as it occurs, and nothing is left. -/
theorem Lists.search (h : Lists children below) (hn : n = (nodes below queue).length) :
    (search children n queue).1.Perm (nodes below queue) ∧ (search children n queue).2 = [] := by
  induction n generalizing queue with
  | zero =>
      cases queue with
      | nil => exact ⟨.refl _, rfl⟩
      | cons x queue => simp [nodes_cons] at hn
  | succ n ih =>
      cases queue with
      | nil => simp [nodes] at hn
      | cons x queue =>
          rw [nodes_cons, List.length_cons, List.length_append] at hn
          have hrest : n = (nodes below (queue ++ children x)).length := by
            rw [h.nodes_step, List.length_append]
            omega
          obtain ⟨hperm, hempty⟩ := ih hrest
          refine ⟨?_, hempty⟩
          rw [nodes_cons]
          refine .cons x (hperm.trans ?_)
          rw [h.nodes_step]
          exact List.perm_append_comm

/-- The nodes of the queue are themselves visited. -/
theorem mem_search_of_queue (hempty : (search children n queue).2 = []) (hx : x ∈ queue) :
    x ∈ (search children n queue).1 := by
  induction n generalizing queue with
  | zero =>
      obtain rfl : queue = [] := hempty
      exact absurd hx List.not_mem_nil
  | succ n ih =>
      cases queue with
      | nil => exact absurd hx List.not_mem_nil
      | cons y queue =>
          rcases List.mem_cons.mp hx with rfl | hrest
          · exact List.mem_cons_self
          · exact List.mem_cons_of_mem _ (ih hempty (List.mem_append_left _ hrest))

/-- What holds of the queue and goes from nodes to their children holds of all that is visited. -/
theorem search_induction {P : α → Prop} (hqueue : ∀ x ∈ queue, P x)
    (hchildren : ∀ x, P x → ∀ y ∈ children x, P y) (hx : x ∈ (search children n queue).1) : P x := by
  induction n generalizing queue with
  | zero => exact absurd hx List.not_mem_nil
  | succ n ih =>
      cases queue with
      | nil => exact absurd hx List.not_mem_nil
      | cons y queue =>
          rcases List.mem_cons.mp hx with rfl | hrest
          · exact hqueue x List.mem_cons_self
          · refine ih (fun z hz => ?_) hrest
            rcases List.mem_append.mp hz with hqueued | hchild
            · exact hqueue z (List.mem_cons_of_mem _ hqueued)
            · exact hchildren y (hqueue y List.mem_cons_self) z hchild

/-- A node is visited before its children. -/
theorem search_before (hempty : (search children n queue).2 = [])
    (hx : x ∈ (search children n queue).1) (hy : y ∈ children x) :
    [x, y].Sublist (search children n queue).1 := by
  induction n generalizing queue with
  | zero => exact absurd hx List.not_mem_nil
  | succ n ih =>
      cases queue with
      | nil => exact absurd hx List.not_mem_nil
      | cons z queue =>
          have hrest : (search children n (queue ++ children z)).2 = [] := hempty
          rcases List.mem_cons.mp hx with rfl | hx
          · have hvisited := mem_search_of_queue hrest (List.mem_append_right queue hy)
            exact .cons_cons x (List.singleton_sublist.mpr hvisited)
          · exact .cons z (ih hrest hx)

end BreadthFirst
