import TibServer.WildcardTree
import Mathlib.Data.Finset.Card
import Mathlib.Tactic

/-!
The tree of names is a set of names: what a node holds is where its breakpoints are, a
query is answered by the names below its end, and no branch stands without a name below it.
-/

namespace TibServer.WildcardTreeNode

/-- The name ends at a breakpoint below the node. -/
def Holds (cur : WildcardTreeNode) (name : List UInt8) : Prop :=
  ∃ child, cur.descend name = some child ∧ child.breakpoint = true

/-- A name ends at the node or below it, as far as one level shows. -/
def Live (cur : WildcardTreeNode) : Prop :=
  cur.children = [] → cur.breakpoint = true

/-- No key is there twice, and every branch leads to a name. -/
inductive Valid : WildcardTreeNode → Prop
  | node {cur : WildcardTreeNode} (keys : (cur.children.map Prod.fst).Nodup)
      (live : ∀ ch child, cur.getChild ch = some child → child.Live)
      (below : ∀ ch child, cur.getChild ch = some child → child.Valid) : Valid cur

/-! ### The children -/

theorem lookup_entry (key k : UInt8) (node : WildcardTreeNode)
    (rest : List (UInt8 × WildcardTreeNode)) :
    ((k, node) :: rest).lookup key = if key = k then some node else rest.lookup key := by
  rw [List.lookup_cons]
  by_cases h : key = k
  · simp [h]
  · rw [if_neg h, beq_false_of_ne h]

theorem lookup_setChild (ch key : UInt8) (child : WildcardTreeNode)
    (children : List (UInt8 × WildcardTreeNode)) :
    (setChild ch child children).lookup key =
      if key = ch then some child else children.lookup key := by
  induction children with
  | nil => exact lookup_entry key ch child []
  | cons entry rest ih =>
      obtain ⟨k, node⟩ := entry
      rw [setChild]
      by_cases hk : k = ch
      · subst hk
        rw [if_pos rfl, lookup_entry, lookup_entry]
        by_cases h : key = k
        · rw [if_pos h, if_pos h]
        · rw [if_neg h, if_neg h, if_neg h]
      · rw [if_neg hk, lookup_entry, lookup_entry, ih]
        by_cases h : key = k
        · subst h
          rw [if_pos rfl, if_neg hk, if_pos rfl]
        · rw [if_neg h, if_neg h]

theorem lookup_eraseChild (ch key : UInt8) (children : List (UInt8 × WildcardTreeNode)) :
    (eraseChild ch children).lookup key =
      if key = ch then none else children.lookup key := by
  rw [eraseChild]
  induction children with
  | nil => simp
  | cons entry rest ih =>
      obtain ⟨k, node⟩ := entry
      by_cases hk : k = ch
      · subst hk
        rw [List.filter_cons_of_neg (by simp), ih, lookup_entry]
        by_cases h : key = k
        · rw [if_pos h, if_pos h]
        · rw [if_neg h, if_neg h, if_neg h]
      · rw [List.filter_cons_of_pos (by simpa using hk), lookup_entry, ih, lookup_entry]
        by_cases h : key = k
        · subst h
          rw [if_pos rfl, if_neg hk, if_pos rfl]
        · rw [if_neg h, if_neg h]

theorem setChild_self {ch : UInt8} {child : WildcardTreeNode}
    {children : List (UInt8 × WildcardTreeNode)} (h : children.lookup ch = some child) :
    setChild ch child children = children := by
  induction children with
  | nil => exact absurd h (by simp)
  | cons entry rest ih =>
      obtain ⟨k, node⟩ := entry
      rw [lookup_entry] at h
      rw [setChild]
      by_cases hk : k = ch
      · subst hk
        rw [if_pos rfl] at h ⊢
        rw [Option.some.inj h]
      · rw [if_neg (Ne.symm hk)] at h
        rw [if_neg hk, ih h]

theorem setChild_ne_nil (ch : UInt8) (child : WildcardTreeNode)
    (children : List (UInt8 × WildcardTreeNode)) : setChild ch child children ≠ [] := by
  intro h
  have hlookup := lookup_setChild ch ch child children
  rw [h, if_pos rfl] at hlookup
  exact absurd hlookup (by simp)

theorem keys_setChild_subset (ch : UInt8) (child : WildcardTreeNode)
    (children : List (UInt8 × WildcardTreeNode)) :
    (setChild ch child children).map Prod.fst ⊆ ch :: children.map Prod.fst := by
  induction children with
  | nil => exact List.Subset.refl _
  | cons entry rest ih =>
      obtain ⟨k, node⟩ := entry
      rw [setChild]
      by_cases hk : k = ch
      · subst hk
        rw [if_pos rfl]
        exact List.subset_cons_self _ _
      · rw [if_neg hk]
        intro key hkey
        rcases List.mem_cons.mp hkey with rfl | hkey
        · exact List.mem_cons_of_mem _ List.mem_cons_self
        · rcases List.mem_cons.mp (ih hkey) with rfl | hkey
          · exact List.mem_cons_self
          · exact List.mem_cons_of_mem _ (List.mem_cons_of_mem _ hkey)

theorem keys_setChild_nodup (ch : UInt8) (child : WildcardTreeNode)
    {children : List (UInt8 × WildcardTreeNode)} (h : (children.map Prod.fst).Nodup) :
    ((setChild ch child children).map Prod.fst).Nodup := by
  induction children with
  | nil => exact List.nodup_singleton ch
  | cons entry rest ih =>
      obtain ⟨k, node⟩ := entry
      rw [List.map_cons, List.nodup_cons] at h
      rw [setChild]
      by_cases hk : k = ch
      · subst hk
        rw [if_pos rfl, List.map_cons, List.nodup_cons]
        exact h
      · rw [if_neg hk, List.map_cons, List.nodup_cons]
        refine ⟨fun hmem => ?_, ih h.2⟩
        rcases List.mem_cons.mp (keys_setChild_subset ch child rest hmem) with hkey | hkey
        · exact hk hkey
        · exact h.1 hkey

/-! ### The names below a node -/

@[simp] theorem holds_nil {cur : WildcardTreeNode} : cur.Holds [] ↔ cur.breakpoint = true := by
  simp [Holds, descend]

theorem holds_cons {cur : WildcardTreeNode} {ch : UInt8} {name : List UInt8} :
    cur.Holds (ch :: name) ↔ ∃ child, cur.getChild ch = some child ∧ child.Holds name := by
  rw [Holds, descend]
  cases cur.getChild ch with
  | none => simp
  | some child => simp [Holds]

/-- The names below the end of a query are those that it begins. -/
theorem holds_append {cur : WildcardTreeNode} {query name : List UInt8} :
    cur.Holds (query ++ name) ↔
      ∃ child, cur.descend query = some child ∧ child.Holds name := by
  induction query generalizing cur with
  | nil => simp [descend]
  | cons ch query ih =>
      rw [List.cons_append, holds_cons, descend]
      cases cur.getChild ch with
      | none => simp
      | some child => simpa using ih

theorem Valid.keys {cur : WildcardTreeNode} (h : cur.Valid) :
    (cur.children.map Prod.fst).Nodup := by
  cases h with
  | node keys live below => exact keys

theorem Valid.child {cur child : WildcardTreeNode} {ch : UInt8} (h : cur.Valid)
    (hchild : cur.getChild ch = some child) : child.Live ∧ child.Valid := by
  cases h with
  | node keys live below => exact ⟨live ch child hchild, below ch child hchild⟩

theorem Valid.descend {cur child : WildcardTreeNode} {query : List UInt8} (h : cur.Valid)
    (hquery : query ≠ []) (hchild : cur.descend query = some child) :
    child.Live ∧ child.Valid := by
  induction query generalizing cur with
  | nil => exact absurd rfl hquery
  | cons ch query ih =>
      rw [WildcardTreeNode.descend] at hchild
      cases hfirst : cur.getChild ch with
      | none =>
          rw [hfirst] at hchild
          exact absurd hchild (by simp)
      | some next =>
          rw [hfirst] at hchild
          cases query with
          | nil =>
              obtain rfl := Option.some.inj hchild
              exact h.child hfirst
          | cons c query => exact ih (h.child hfirst).2 (List.cons_ne_nil _ _) hchild

/-- There is a name below every node that is live. -/
theorem Valid.exists_name {cur : WildcardTreeNode} (h : cur.Valid) (hlive : cur.Live) :
    ∃ name, cur.Holds name := by
  induction h with
  | @node cur keys live below ih =>
      cases hchildren : cur.children with
      | nil => exact ⟨[], holds_nil.mpr (hlive hchildren)⟩
      | cons entry rest =>
          obtain ⟨ch, child⟩ := entry
          have hchild : cur.getChild ch = some child := by
            rw [getChild, hchildren, lookup_entry, if_pos rfl]
          obtain ⟨name, hname⟩ := ih ch child hchild (live ch child hchild)
          exact ⟨ch :: name, holds_cons.mpr ⟨child, hchild, hname⟩⟩

/-! ### Insertion -/

theorem children_addChild {cur : WildcardTreeNode} {ch : UInt8} {breakpoint : Bool} :
    (cur.addChild ch breakpoint).children =
      ((cur.getChild ch).map WildcardTreeNode.children).getD [] := by
  rw [addChild]
  cases cur.getChild ch with
  | none => rfl
  | some child =>
      simp only [Option.map_some, Option.getD_some]
      split_ifs <;> rfl

theorem breakpoint_addChild {cur : WildcardTreeNode} {ch : UInt8} {breakpoint : Bool} :
    (cur.addChild ch breakpoint).breakpoint =
      (breakpoint || ((cur.getChild ch).map WildcardTreeNode.breakpoint).getD false) := by
  rw [addChild]
  cases cur.getChild ch with
  | none => simp
  | some child => cases breakpoint <;> cases h : child.breakpoint <;> simp [h]

theorem holds_addChild {cur : WildcardTreeNode} {ch : UInt8} {breakpoint : Bool}
    {name : List UInt8} :
    (cur.addChild ch breakpoint).Holds name ↔
      breakpoint = true ∧ name = [] ∨ cur.Holds (ch :: name) := by
  rw [holds_cons]
  cases name with
  | nil =>
      rw [holds_nil, breakpoint_addChild]
      cases cur.getChild ch <;> simp
  | cons c name =>
      rw [holds_cons, getChild, children_addChild]
      cases cur.getChild ch <;> simp [holds_cons, getChild]

/-- A child that holds what it held and one name more, put in its place. -/
theorem holds_setChild {cur child : WildcardTreeNode} {ch : UInt8} {tail name : List UInt8}
    (h : ∀ rest, child.Holds rest ↔ rest = tail ∨ cur.Holds (ch :: rest)) :
    ({ cur with children := setChild ch child cur.children } : WildcardTreeNode).Holds name ↔
      name = ch :: tail ∨ cur.Holds name := by
  cases name with
  | nil => simp
  | cons c name =>
      rw [holds_cons, getChild, lookup_setChild]
      by_cases hc : c = ch
      · subst hc
        simp [h]
      · simp [hc, holds_cons, getChild]

/-- Insertion adds the name and no other. -/
theorem holds_insert {cur : WildcardTreeNode} {str name : List UInt8} (hstr : str ≠ []) :
    (cur.insert str).Holds name ↔ name = str ∨ cur.Holds name := by
  induction str generalizing cur name with
  | nil => exact absurd rfl hstr
  | cons ch str ih =>
      cases str with
      | nil => exact holds_setChild fun rest => holds_addChild.trans (by simp)
      | cons next str =>
          refine holds_setChild fun rest => (ih (List.cons_ne_nil _ _)).trans ?_
          rw [holds_addChild]
          simp

theorem Valid.setChild {cur child : WildcardTreeNode} {ch : UInt8} (h : cur.Valid)
    (hlive : child.Live) (hchild : child.Valid) :
    ({ cur with
        children := WildcardTreeNode.setChild ch child cur.children } : WildcardTreeNode).Valid := by
  have hget : ∀ key next, (WildcardTreeNode.setChild ch child cur.children).lookup key = some next →
      next.Live ∧ next.Valid := by
    intro key next hnext
    rw [lookup_setChild] at hnext
    by_cases hkey : key = ch
    · rw [if_pos hkey] at hnext
      obtain rfl := Option.some.inj hnext
      exact ⟨hlive, hchild⟩
    · rw [if_neg hkey] at hnext
      exact h.child hnext
  exact .node (keys_setChild_nodup ch child h.keys) (fun key next hnext => (hget key next hnext).1)
    fun key next hnext => (hget key next hnext).2

/-- Validity is about the children. -/
theorem Valid.of_children {cur next : WildcardTreeNode} (h : cur.Valid)
    (hchildren : next.children = cur.children) : next.Valid := by
  cases h with
  | node keys live below =>
      rw [← hchildren] at keys
      refine .node keys (fun ch child hchild => ?_) fun ch child hchild => ?_
      · rw [getChild, hchildren] at hchild
        exact live ch child hchild
      · rw [getChild, hchildren] at hchild
        exact below ch child hchild

theorem valid_leaf (breakpoint : Bool) : Valid { breakpoint } :=
  .node List.nodup_nil (fun _ _ h => absurd h (by simp [getChild])) fun _ _ h =>
    absurd h (by simp [getChild])

theorem Valid.addChild {cur : WildcardTreeNode} (h : cur.Valid) (ch : UInt8)
    (breakpoint : Bool) : (cur.addChild ch breakpoint).Valid := by
  cases hchild : cur.getChild ch with
  | none =>
      refine (valid_leaf breakpoint).of_children ?_
      rw [children_addChild, hchild]
      rfl
  | some child =>
      refine (h.child hchild).2.of_children ?_
      rw [children_addChild, hchild]
      rfl

theorem insert_children_ne_nil (cur : WildcardTreeNode) {str : List UInt8} (hstr : str ≠ []) :
    (cur.insert str).children ≠ [] := by
  cases str with
  | nil => exact absurd rfl hstr
  | cons ch str =>
      cases str with
      | nil => exact setChild_ne_nil _ _ _
      | cons next str => exact setChild_ne_nil _ _ _

theorem Valid.insert {cur : WildcardTreeNode} (h : cur.Valid) (str : List UInt8) :
    (cur.insert str).Valid := by
  induction str generalizing cur with
  | nil => exact h
  | cons ch str ih =>
      cases str with
      | nil =>
          refine h.setChild (fun _ => ?_) (h.addChild ch true)
          rw [breakpoint_addChild, Bool.true_or]
      | cons next str =>
          refine h.setChild (fun hnone => ?_) (ih (h.addChild ch false))
          exact absurd hnone (insert_children_ne_nil _ (List.cons_ne_nil _ _))

/-- To insert a name that is there changes nothing. -/
theorem insert_of_holds {cur : WildcardTreeNode} {str : List UInt8} (h : cur.Holds str) :
    cur.insert str = cur := by
  induction str generalizing cur with
  | nil => rfl
  | cons ch str ih =>
      obtain ⟨child, hchild, hstr⟩ := holds_cons.mp h
      cases str with
      | nil =>
          have hsame : cur.addChild ch true = child := by
            rw [WildcardTreeNode.addChild, hchild]
            simp [holds_nil.mp hstr]
          rw [WildcardTreeNode.insert, hsame, setChild_self hchild]
          cases cur
          rfl
      | cons next str =>
          have hsame : cur.addChild ch false = child := by
            rw [WildcardTreeNode.addChild, hchild]
            simp
          rw [WildcardTreeNode.insert, hsame, ih hstr, setChild_self hchild]
          cases cur
          rfl

/-! ### Removal -/

/-- Where the path ends before the name does, the name is not there. -/
theorem not_holds_of_removePath {cur : WildcardTreeNode} {str : List UInt8}
    (h : cur.removePath str = none) : ¬cur.Holds str := by
  induction str generalizing cur with
  | nil => exact absurd h (by simp [removePath])
  | cons ch str ih =>
      rw [holds_cons]
      rintro ⟨child, hchild, hstr⟩
      rw [removePath, hchild] at h
      cases hpath : child.removePath str with
      | none => exact ih hpath hstr
      | some result =>
          obtain ⟨next, erased⟩ := result
          cases erased <;> exact absurd h (by simp [hpath])

/-- What a removal through a child does. -/
theorem removePath_cons {cur cur' : WildcardTreeNode} {ch : UInt8} {str : List UInt8}
    {erased : Bool} (h : cur.removePath (ch :: str) = some (cur', erased)) :
    ∃ child next, cur.getChild ch = some child ∧
      (child.removePath str = some (next, true) ∧
          cur' = { cur with children := eraseChild ch cur.children } ∧
          erased = ((eraseChild ch cur.children).isEmpty && !cur.breakpoint) ∨
        child.removePath str = some (next, false) ∧
          cur' = { cur with children := setChild ch next cur.children } ∧ erased = false) := by
  rw [removePath] at h
  cases hchild : cur.getChild ch with
  | none =>
      rw [hchild] at h
      exact absurd h (by simp)
  | some child =>
      rw [hchild] at h
      cases hpath : child.removePath str with
      | none => exact absurd h (by simp [hpath])
      | some result =>
          obtain ⟨next, pruned⟩ := result
          simp only [hpath] at h
          cases pruned with
          | true =>
              obtain ⟨rfl, rfl⟩ := Prod.mk.inj (Option.some.inj h)
              exact ⟨child, next, rfl, .inl ⟨hpath, rfl, rfl⟩⟩
          | false =>
              obtain ⟨rfl, rfl⟩ := Prod.mk.inj (Option.some.inj h)
              exact ⟨child, next, rfl, .inr ⟨hpath, rfl, rfl⟩⟩

/-- What is left of a node after the removal of a name below it. -/
structure Without (cur : WildcardTreeNode) (str : List UInt8) (cur' : WildcardTreeNode)
    (erased : Bool) : Prop where
  holds : ∀ name, cur'.Holds name ↔ name ≠ str ∧ cur.Holds name
  erased_iff : erased = true ↔ cur'.children = [] ∧ cur'.breakpoint = false
  valid : cur.Valid → cur'.Valid

theorem not_holds_of_bare {cur : WildcardTreeNode} (hchildren : cur.children = [])
    (hbreakpoint : cur.breakpoint = false) (name : List UInt8) : ¬cur.Holds name := by
  cases name with
  | nil => simp [hbreakpoint]
  | cons c name => simp [holds_cons, getChild, hchildren]

theorem Valid.erase {cur : WildcardTreeNode} (h : cur.Valid) (ch : UInt8) :
    ({ cur with children := eraseChild ch cur.children } : WildcardTreeNode).Valid := by
  have hget : ∀ key next, (eraseChild ch cur.children).lookup key = some next →
      cur.getChild key = some next := by
    intro key next hnext
    rw [lookup_eraseChild] at hnext
    by_cases hkey : key = ch
    · rw [if_pos hkey] at hnext
      exact absurd hnext (by simp)
    · rw [if_neg hkey] at hnext
      exact hnext
  refine .node (h.keys.sublist (List.filter_sublist.map _)) (fun key next hnext => ?_)
    fun key next hnext => ?_
  · exact (h.child (hget key next hnext)).1
  · exact (h.child (hget key next hnext)).2

/-- The child loses the name and is erased, because it holds no other. -/
theorem Without.erase {cur child next : WildcardTreeNode} {ch : UInt8} {str : List UInt8}
    (hchild : cur.getChild ch = some child) (h : Without child str next true) :
    Without cur (ch :: str) { cur with children := eraseChild ch cur.children }
      ((eraseChild ch cur.children).isEmpty && !cur.breakpoint) := by
  refine ⟨fun name => ?_, by simp, fun hvalid => hvalid.erase ch⟩
  obtain ⟨hchildren, hbreakpoint⟩ := h.erased_iff.mp rfl
  cases name with
  | nil => simp
  | cons c name =>
      rw [holds_cons, holds_cons, getChild, lookup_eraseChild]
      by_cases hc : c = ch
      · subst hc
        have hnone := fun hname => not_holds_of_bare hchildren hbreakpoint name
          ((h.holds name).mpr hname)
        rw [if_pos rfl, hchild]
        simpa using hnone
      · simp [hc, getChild]

/-- The child loses the name and stays. -/
theorem Without.set {cur child next : WildcardTreeNode} {ch : UInt8} {str : List UInt8}
    (hchild : cur.getChild ch = some child) (h : Without child str next false) :
    Without cur (ch :: str) { cur with children := setChild ch next cur.children } false := by
  refine ⟨fun name => ?_, ?_, fun hvalid => ?_⟩
  · cases name with
    | nil => simp
    | cons c name =>
        rw [holds_cons, holds_cons, getChild, lookup_setChild]
        by_cases hc : c = ch
        · subst hc
          rw [if_pos rfl, hchild]
          simpa using h.holds name
        · simp [hc, getChild]
  · simpa using fun hnone => absurd hnone (setChild_ne_nil ch next cur.children)
  · refine hvalid.setChild (fun hnone => ?_) (h.valid (hvalid.child hchild).2)
    rw [← Bool.not_eq_false]
    intro hfalse
    exact absurd (h.erased_iff.mpr ⟨hnone, hfalse⟩) Bool.false_ne_true

theorem removePath_without {cur cur' : WildcardTreeNode} {str : List UInt8} {erased : Bool}
    (h : cur.removePath str = some (cur', erased)) : Without cur str cur' erased := by
  induction str generalizing cur cur' erased with
  | nil =>
      obtain ⟨rfl, rfl⟩ := Prod.mk.inj (Option.some.inj h)
      refine ⟨fun name => ?_, by simp, fun hvalid => hvalid.of_children rfl⟩
      cases name with
      | nil => simp
      | cons c name => simp [holds_cons, getChild]
  | cons ch str ih =>
      obtain ⟨child, next, hchild, ⟨hpath, rfl, rfl⟩ | ⟨hpath, rfl, rfl⟩⟩ := removePath_cons h
      · exact (ih hpath).erase hchild
      · exact (ih hpath).set hchild

theorem holds_remove {cur : WildcardTreeNode} {str name : List UInt8} :
    (cur.remove str).Holds name ↔ name ≠ str ∧ cur.Holds name := by
  rw [remove]
  cases hpath : cur.removePath str with
  | none =>
      refine ⟨fun hname => ⟨fun hsame => ?_, hname⟩, fun hname => hname.2⟩
      exact not_holds_of_removePath hpath (hsame ▸ hname)
  | some result => exact (removePath_without hpath).holds name

theorem Valid.remove {cur : WildcardTreeNode} (h : cur.Valid) (str : List UInt8) :
    (cur.remove str).Valid := by
  rw [WildcardTreeNode.remove]
  cases hpath : cur.removePath str with
  | none => exact h
  | some result => exact (removePath_without hpath).valid h

/-- To remove a name that is not there changes nothing. -/
theorem removePath_of_not_holds {cur : WildcardTreeNode} {str : List UInt8} (h : cur.Valid)
    (hlive : cur.Live ∨ str ≠ []) (hstr : ¬cur.Holds str) :
    cur.removePath str = none ∨ cur.removePath str = some (cur, false) := by
  induction str generalizing cur with
  | nil =>
      have hlive : cur.Live := hlive.resolve_right fun hne => hne rfl
      rw [holds_nil, Bool.not_eq_true] at hstr
      refine .inr ?_
      obtain ⟨children, breakpoint⟩ := cur
      simp only at hstr
      subst hstr
      cases children with
      | nil => exact absurd (hlive rfl) Bool.false_ne_true
      | cons entry rest => rfl
  | cons ch str ih =>
      rw [removePath]
      cases hchild : cur.getChild ch with
      | none => exact .inl rfl
      | some child =>
          obtain ⟨hchildLive, hchildValid⟩ := h.child hchild
          have hnot : ¬child.Holds str := fun hname => hstr (holds_cons.mpr ⟨child, hchild, hname⟩)
          rcases ih hchildValid (.inl hchildLive) hnot with hpath | hpath
          · simp only [hpath, true_or]
          · simp only [hpath, setChild_self hchild]
            cases cur
            exact .inr rfl

theorem remove_of_not_holds {cur : WildcardTreeNode} {str : List UInt8} (h : cur.Valid)
    (hne : str ≠ []) (hstr : ¬cur.Holds str) : cur.remove str = cur := by
  rw [remove]
  rcases removePath_of_not_holds h (.inr hne) hstr with hpath | hpath
  · rw [hpath]
  · rw [hpath]

/-- Removal changes nothing on the way of a query that does not begin the name. -/
theorem descend_removePath {cur cur' : WildcardTreeNode} {str query : List UInt8} {erased : Bool}
    (h : cur.removePath str = some (cur', erased)) (hquery : ¬query <+: str) :
    cur'.descend query = cur.descend query := by
  induction str generalizing cur cur' erased query with
  | nil =>
      obtain ⟨rfl, rfl⟩ := Prod.mk.inj (Option.some.inj h)
      cases query with
      | nil => exact absurd List.nil_prefix hquery
      | cons c query => rfl
  | cons ch str ih =>
      cases query with
      | nil => exact absurd List.nil_prefix hquery
      | cons c query =>
          have hrest : c = ch → ¬query <+: str := fun hc hprefix =>
            hquery (List.cons_prefix_cons.mpr ⟨hc, hprefix⟩)
          obtain ⟨child, next, hchild, ⟨hpath, rfl, rfl⟩ | ⟨hpath, rfl, rfl⟩⟩ := removePath_cons h
          · rw [descend, descend, getChild, lookup_eraseChild]
            by_cases hc : c = ch
            · -- the rest of the query ends nowhere below the erased child
              have hbelow := ih hpath (hrest hc)
              have hbare := ((removePath_without hpath).erased_iff.mp rfl).1
              subst hc
              rw [if_pos rfl, hchild]
              cases query with
              | nil => exact absurd List.nil_prefix (hrest rfl)
              | cons c query =>
                  rw [descend, getChild, hbare] at hbelow
                  exact hbelow
            · rw [if_neg hc]
              rfl
          · rw [descend, descend, getChild, lookup_setChild]
            by_cases hc : c = ch
            · have hbelow := ih hpath (hrest hc)
              subst hc
              rw [if_pos rfl, hchild]
              exact hbelow
            · rw [if_neg hc]
              rfl

theorem findOne_remove (cur : WildcardTreeNode) {str query : List UInt8}
    (hquery : ¬query <+: str) (result : List UInt8) :
    (cur.remove str).findOne query result = cur.findOne query result := by
  rw [remove]
  cases hpath : cur.removePath str with
  | none => rfl
  | some removed =>
      simp only [findOne]
      rw [descend_removePath hpath hquery]

/-! ### Completion -/

/-- The completion of a query at its end: the only name below, or two of them. -/
theorem complete_cases {cur : WildcardTreeNode} (h : cur.Valid) (hlive : cur.Live)
    (result : List UInt8) :
    (∃ suffix, cur.complete result = (.noError, result ++ suffix) ∧
        ∀ name, cur.Holds name ↔ name = suffix) ∨
      ((cur.complete result).1 = .nameIsTooAmbiguous ∧
        ∃ a b, a ≠ b ∧ cur.Holds a ∧ cur.Holds b) := by
  fun_induction complete cur result with
  | case1 breakpoint result =>
      refine .inl ⟨[], by rw [List.append_nil], fun name => ?_⟩
      have hbreakpoint : breakpoint = true := hlive rfl
      cases name with
      | nil => simpa using hbreakpoint
      | cons c name => simp [holds_cons, getChild]
  | case2 ch child result ih =>
      have hchild : getChild ⟨[(ch, child)], false⟩ ch = some child := by
        rw [getChild, lookup_entry, if_pos rfl]
      obtain ⟨hchildLive, hchildValid⟩ := h.child hchild
      rcases ih hchildValid hchildLive with ⟨suffix, hanswer, honly⟩ | ⟨hanswer, a, b, hab, ha, hb⟩
      · refine .inl ⟨ch :: suffix, ?_, fun name => ?_⟩
        · rw [hanswer, List.append_assoc, List.singleton_append]
        · cases name with
          | nil => simp
          | cons c name =>
              rw [holds_cons, getChild, lookup_entry]
              by_cases hc : c = ch
              · subst hc
                simp [honly]
              · simp [hc]
      · refine .inr ⟨hanswer, ch :: a, ch :: b, ?_, ?_, ?_⟩
        · exact fun hsame => hab (List.cons.inj hsame).2
        · exact holds_cons.mpr ⟨child, hchild, ha⟩
        · exact holds_cons.mpr ⟨child, hchild, hb⟩
  | case3 cur result hnone hone =>
      refine .inr ⟨rfl, ?_⟩
      have hname : ∀ ch child, cur.getChild ch = some child → ∃ name, cur.Holds (ch :: name) := by
        intro ch child hchild
        obtain ⟨name, hname⟩ := (h.child hchild).2.exists_name (h.child hchild).1
        exact ⟨name, holds_cons.mpr ⟨child, hchild, hname⟩⟩
      obtain ⟨children, breakpoint⟩ := cur
      rcases children with _ | ⟨⟨ch, child⟩, _ | ⟨⟨c, other⟩, rest⟩⟩
      · exact absurd rfl (hnone breakpoint)
      · have hbreakpoint : breakpoint = true := by
          rw [← Bool.not_eq_false]
          rintro rfl
          exact hone ch child rfl
        obtain ⟨name, hbelow⟩ := hname ch child (by
          rw [getChild, lookup_entry, if_pos rfl])
        exact ⟨[], ch :: name, (List.cons_ne_nil _ _).symm, holds_nil.mpr hbreakpoint, hbelow⟩
      · have hne : c ≠ ch := by
          have hkeys := h.keys
          rintro rfl
          simp at hkeys
        obtain ⟨name, hfirst⟩ := hname ch child (by
          rw [getChild, lookup_entry, if_pos rfl])
        obtain ⟨word, hsecond⟩ := hname c other (by
          rw [getChild, lookup_entry, if_neg hne, lookup_entry, if_pos rfl])
        exact ⟨ch :: name, c :: word, fun hsame => hne (List.cons.inj hsame).1.symm, hfirst,
          hsecond⟩

/-! ### The set of names -/

/-- A call on the tree. -/
inductive NameCall
  | insert (name : List UInt8)
  | remove (name : List UInt8)
  deriving DecidableEq, Repr

def NameCall.name : NameCall → List UInt8
  | .insert name => name
  | .remove name => name

def apply (cur : WildcardTreeNode) : NameCall → WildcardTreeNode
  | .insert name => cur.insert name
  | .remove name => cur.remove name

/-- The tree after some calls, from the empty one of the game. -/
def run (calls : List NameCall) : WildcardTreeNode := calls.foldl apply {}

def NameCall.change (names : Finset (List UInt8)) : NameCall → Finset (List UInt8)
  | .insert name => Insert.insert name names
  | .remove name => names.erase name

/-- The names that are stored after some calls. -/
def stored (calls : List NameCall) : Finset (List UInt8) := calls.foldl NameCall.change ∅

/-- The names that a query begins. -/
def matching (names : Finset (List UInt8)) (query : List UInt8) : Finset (List UInt8) :=
  names.filter fun name => query <+: name

/-- The tree is valid and holds the names of a set. -/
structure Represents (cur : WildcardTreeNode) (names : Finset (List UInt8)) : Prop where
  valid : cur.Valid
  holds : ∀ name, cur.Holds name ↔ name ∈ names

theorem Represents.apply {cur : WildcardTreeNode} {names : Finset (List UInt8)}
    (h : cur.Represents names) {call : NameCall} (hcall : call.name ≠ []) :
    (cur.apply call).Represents (call.change names) := by
  cases call with
  | insert name =>
      refine ⟨h.valid.insert name, fun other => ?_⟩
      rw [WildcardTreeNode.apply, holds_insert (show name ≠ [] from hcall), NameCall.change, Finset.mem_insert, h.holds]
  | remove name =>
      refine ⟨h.valid.remove name, fun other => ?_⟩
      rw [WildcardTreeNode.apply, holds_remove, NameCall.change, Finset.mem_erase, h.holds]

theorem represents_run {calls : List NameCall} (hcalls : ∀ call ∈ calls, call.name ≠ []) :
    (run calls).Represents (stored calls) := by
  have hfold : ∀ {cur : WildcardTreeNode} {names : Finset (List UInt8)}, cur.Represents names →
      (calls.foldl WildcardTreeNode.apply cur).Represents
        (calls.foldl NameCall.change names) := by
    induction calls with
    | nil => exact id
    | cons call calls ih =>
        intro cur names h
        exact ih (fun c hc => hcalls c (List.mem_cons_of_mem _ hc))
          (h.apply (hcalls call List.mem_cons_self))
  refine hfold ⟨valid_leaf false, fun name => ?_⟩
  have hnone : ¬Holds {} name := not_holds_of_bare rfl rfl name
  simp [hnone]

/-- A query finds no name, one name or several, as many as it begins. -/
theorem Represents.findOne_cases {cur : WildcardTreeNode} {names : Finset (List UInt8)}
    (h : cur.Represents names) {query : List UInt8} (hquery : query ≠ []) (result : List UInt8) :
    cur.findOne query result = (.playerWithThisNameIsNotOnline, result) ∧
        matching names query = ∅ ∨
      (∃ name, cur.findOne query result = (.noError, name) ∧ matching names query = {name}) ∨
      (cur.findOne query result).1 = .nameIsTooAmbiguous ∧
        1 < (matching names query).card := by
  have hmem : ∀ {name}, name ∈ matching names query ↔
      ∃ rest, query ++ rest = name ∧ ∃ child, cur.descend query = some child ∧
        child.Holds rest := by
    intro name
    rw [matching, Finset.mem_filter, and_comm, ← h.holds]
    constructor
    · rintro ⟨⟨rest, rfl⟩, hholds⟩
      exact ⟨rest, rfl, holds_append.mp hholds⟩
    · rintro ⟨rest, rfl, hholds⟩
      exact ⟨⟨rest, rfl⟩, holds_append.mpr hholds⟩
  rw [findOne]
  cases hend : cur.descend query with
  | none =>
      refine .inl ⟨rfl, Finset.eq_empty_of_forall_notMem fun name hname => ?_⟩
      obtain ⟨rest, -, child, hchild, -⟩ := hmem.mp hname
      exact absurd (hend.symm.trans hchild) (by simp)
  | some child =>
      obtain ⟨hlive, hvalid⟩ := h.valid.descend hquery hend
      have hbelow : ∀ {rest}, child.Holds rest → query ++ rest ∈ matching names query :=
        fun hrest => hmem.mpr ⟨_, rfl, child, hend, hrest⟩
      rcases complete_cases hvalid hlive query with ⟨suffix, hanswer, honly⟩ | ⟨hanswer, a, b, hab, ha, hb⟩
      · refine .inr (.inl ⟨query ++ suffix, hanswer, ?_⟩)
        ext name
        rw [Finset.mem_singleton, hmem]
        constructor
        · rintro ⟨rest, rfl, next, hnext, hrest⟩
          obtain rfl := Option.some.inj (hend.symm.trans hnext)
          rw [(honly rest).mp hrest]
        · rintro rfl
          exact ⟨suffix, rfl, child, hend, (honly suffix).mpr rfl⟩
      · refine .inr (.inr ⟨hanswer, Finset.one_lt_card.mpr ?_⟩)
        exact ⟨_, hbelow ha, _, hbelow hb, fun hsame => hab (List.append_cancel_left hsame)⟩

/-- After any calls with names that are not empty the tree is the set of the names stored: a
query gets the full name if it begins just one of them, and is told whether it begins several
or none; calls that change no name change nothing, and the removal of a name changes nothing
for the queries that do not begin it. -/
theorem findOne_stored {calls : List NameCall} (hcalls : ∀ call ∈ calls, call.name ≠ [])
    {query : List UInt8} (hquery : query ≠ []) (result : List UInt8) :
    (∀ name, (run calls).findOne query result = (.noError, name) ↔
        matching (stored calls) query = {name}) ∧
      (((run calls).findOne query result).1 = .nameIsTooAmbiguous ↔
        1 < (matching (stored calls) query).card) ∧
      (((run calls).findOne query result).1 = .playerWithThisNameIsNotOnline ↔
        matching (stored calls) query = ∅) ∧
      (∀ name ∈ stored calls, (run calls).insert name = run calls) ∧
      (∀ name ∉ stored calls, name ≠ [] → (run calls).remove name = run calls) ∧
      ∀ name, ¬query <+: name →
        ((run calls).remove name).findOne query result = (run calls).findOne query result := by
  have h := represents_run hcalls
  have hrest : (∀ name ∈ stored calls, (run calls).insert name = run calls) ∧
      (∀ name ∉ stored calls, name ≠ [] → (run calls).remove name = run calls) ∧
      ∀ name, ¬query <+: name →
        ((run calls).remove name).findOne query result = (run calls).findOne query result := by
    refine ⟨fun name hname => insert_of_holds ((h.holds name).mpr hname), fun name hname hne => ?_,
      fun name hbegins => findOne_remove _ hbegins result⟩
    exact remove_of_not_holds h.valid hne fun hholds => hname ((h.holds name).mp hholds)
  rcases h.findOne_cases hquery result with ⟨hanswer, hnone⟩ | ⟨full, hanswer, hone⟩ |
    ⟨hanswer, hmany⟩
  · refine ⟨fun name => ?_, ?_, ?_, hrest⟩
    · rw [hanswer, hnone]
      simp [eq_comm]
    · rw [hanswer, hnone]
      simp
    · rw [hanswer, hnone]
      simp
  · refine ⟨fun name => ?_, ?_, ?_, hrest⟩
    · rw [hanswer, hone]
      simp
    · rw [hanswer, hone]
      simp
    · rw [hanswer, hone]
      simp
  · refine ⟨fun name => ⟨fun h => ?_, fun h => ?_⟩, ?_, ?_, hrest⟩
    · rw [h] at hanswer
      exact absurd hanswer (by simp)
    · rw [h] at hmany
      exact absurd hmany (by simp)
    · rw [hanswer]
      simp [hmany]
    · rw [hanswer]
      simp only [reduceCtorEq, false_iff]
      rintro hnone
      rw [hnone] at hmany
      exact absurd hmany (by simp)

/-! ### Samples -/

namespace Sample

/-- "ab", "abc" and "b" come online, and "ab" leaves. -/
def calls : List NameCall :=
  [.insert [97, 98], .insert [97, 98, 99], .insert [98], .remove [97, 98]]

/-- "a" is completed to "abc". -/
theorem completed : (run calls).findOne [97] [] = (.noError, [97, 98, 99]) :=
  ((@findOne_stored calls (by decide) [97] (by decide) []).1 _).mpr (by decide)

end Sample

end TibServer.WildcardTreeNode
