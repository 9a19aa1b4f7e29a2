import Mathlib.Logic.Function.Basic

/-!
Trees that are entered along paths and grown where a path asks for it. On a tree of which every
leaf lies at one depth, growing a path puts a leaf at its end, unless there is one, and changes no
other path.
-/

inductive PathTree (ι α : Type*)
  | null
  | leaf (a : α)
  | node (child : ι → PathTree ι α)

namespace PathTree

variable {ι α : Type*} {n : Nat} {t : PathTree ι α} {a b : α} {p q : List ι}

def lookup : PathTree ι α → List ι → Option α
  | .leaf a, _ => some a
  | .node child, i :: p => (child i).lookup p
  | _, _ => none

/-- Every leaf is `n` steps down. -/
def Uniform : Nat → PathTree ι α → Prop
  | _, .null => True
  | 0, .leaf _ => True
  | 0, .node _ => False
  | _ + 1, .leaf _ => False
  | n + 1, .node child => ∀ i, (child i).Uniform n

@[simp] theorem uniform_null (n : Nat) : (null : PathTree ι α).Uniform n := by
  cases n <;> exact trivial

@[simp] theorem lookup_null (p : List ι) : (null : PathTree ι α).lookup p = none := by
  cases p <;> rfl

@[simp] theorem lookup_leaf (a : α) (p : List ι) : (leaf a).lookup p = some a := by
  cases p <;> rfl

@[simp] theorem lookup_node_cons (child : ι → PathTree ι α) (i : ι) (p : List ι) :
    (node child).lookup (i :: p) = (child i).lookup p := rfl

/-! ### Growing -/

variable [DecidableEq ι]

/-- The missing nodes of the path, and at its end a leaf. -/
def grow (a : α) : List ι → PathTree ι α → PathTree ι α
  | [], .null => .leaf a
  | i :: p, .null => .node (Function.update (fun _ => .null) i (grow a p .null))
  | i :: p, .node child => .node (Function.update child i (grow a p (child i)))
  | _, t => t

/-- A missing node grows as one without children does. -/
theorem grow_null_cons (a : α) (i : ι) (p : List ι) :
    grow a (i :: p) .null = grow a (i :: p) (.node fun _ => .null) := rfl

theorem grow_node_cons (a : α) (i : ι) (p : List ι) (child : ι → PathTree ι α) :
    grow a (i :: p) (.node child) = .node (Function.update child i (grow a p (child i))) := rfl

theorem Uniform.grow (h : t.Uniform p.length) (a : α) : (t.grow a p).Uniform p.length := by
  induction p generalizing t with
  | nil =>
      cases t with
      | null => exact trivial
      | leaf b => exact trivial
      | node child => exact h.elim
  | cons i p ih =>
      have hnode {child : ι → PathTree ι α} (hchild : ∀ j, (child j).Uniform p.length) (j : ι) :
          (Function.update child i ((child i).grow a p) j).Uniform p.length := by
        by_cases hj : j = i
        · rw [hj, Function.update_self]
          exact ih (hchild i)
        · rw [Function.update_of_ne hj]
          exact hchild j
      cases t with
      | null => exact hnode fun _ => uniform_null _
      | leaf b => exact h.elim
      | node child => exact hnode h

/-- The end of the path has its leaf, or else the new one. -/
theorem lookup_grow_self (h : t.Uniform p.length) (a : α) :
    (t.grow a p).lookup p = some ((t.lookup p).getD a) := by
  induction p generalizing t with
  | nil =>
      cases t with
      | null => rfl
      | leaf b => rfl
      | node child => exact h.elim
  | cons i p ih =>
      have hnode {child : ι → PathTree ι α} (hchild : (child i).Uniform p.length) :
          (PathTree.grow a (i :: p) (.node child)).lookup (i :: p) =
            some (((child i).lookup p).getD a) := by
        rw [grow_node_cons, lookup_node_cons, Function.update_self]
        exact ih hchild
      cases t with
      | null => rw [grow_null_cons, hnode (uniform_null _), lookup_null, lookup_null]
      | leaf b => exact h.elim
      | node child => exact hnode (h i)

theorem lookup_grow_of_ne (h : t.Uniform p.length) (hlength : q.length = p.length) (hne : q ≠ p)
    (a : α) : (t.grow a p).lookup q = t.lookup q := by
  induction p generalizing t q with
  | nil => exact absurd (List.length_eq_zero_iff.mp hlength) hne
  | cons i p ih =>
      obtain ⟨j, q, rfl⟩ := List.exists_cons_of_length_eq_add_one hlength
      have hnode {child : ι → PathTree ι α} (hchild : (child i).Uniform p.length) :
          (PathTree.grow a (i :: p) (.node child)).lookup (j :: q) = (child j).lookup q := by
        rw [grow_node_cons, lookup_node_cons]
        by_cases hj : j = i
        · rw [hj, Function.update_self]
          exact ih hchild (Nat.succ.inj hlength) fun hq => hne (by rw [hj, hq])
        · rw [Function.update_of_ne hj]
      cases t with
      | null => rw [grow_null_cons, hnode (uniform_null _), lookup_null, lookup_null]
      | leaf b => exact h.elim
      | node child => exact hnode (h i)

end PathTree
