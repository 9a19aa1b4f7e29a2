import Mathlib.Data.Finset.Card
import TibServer.PathSearch

/-!
The nodes of a path search. A node that was expanded is never made cheaper: what is expanded costs
no more than what is open, and every step costs something. So its parent, its cost and the
neighbours that were looked at stay as they were, each node costs what its parent costs and the
step, and as many iterations as there are nodes end the search.
-/

namespace TibServer.PathSearch

open WalkCache (CombatType getOffsetX getOffsetY getDistanceY uint16)

theorem uint16_lt (n : Int) : uint16 n < 65536 := by
  unfold uint16
  omega

/-! ### The table of the nodes -/

namespace AStarNodes

variable {s s' : AStarNodes} {n i j : Nat}

theorem key_inj {x y x' y' : Nat} (hy : y < 65536) (hy' : y' < 65536) :
    key x y = key x' y' ↔ x = x' ∧ y = y' := by
  unfold key
  rw [← Nat.shiftLeft_add_eq_or_of_lt hy, ← Nat.shiftLeft_add_eq_or_of_lt hy']
  simp only [Nat.shiftLeft_eq]
  omega

/-- A node is expanded when it is closed, or being expanded. -/
def Expanded (s : AStarNodes) (n : Option Nat) (i : Nat) : Prop :=
  i < s.curNode ∧ (s.openNodes i = false ∨ n = some i)

/-- What a step of an expansion leaves of the nodes. -/
structure Grows (s : AStarNodes) (n : Nat) (s' : AStarNodes) : Prop where
  curNode_le : s.curNode ≤ s'.curNode
  expanded : ∀ i, s'.Expanded (some n) i ↔ s.Expanded (some n) i
  settled : ∀ i, s.Expanded (some n) i → s'.nodes i = s.nodes i
  cheaper : ∀ i < s.curNode, (s'.nodes i).x = (s.nodes i).x ∧ (s'.nodes i).y = (s.nodes i).y ∧
    (s'.nodes i).f ≤ (s.nodes i).f

theorem Grows.refl (s : AStarNodes) (n : Nat) : s.Grows n s where
  curNode_le := le_rfl
  expanded _ := Iff.rfl
  settled _ _ := rfl
  cheaper _ _ := ⟨rfl, rfl, le_rfl⟩

theorem Grows.trans {s'' : AStarNodes} (h : s.Grows n s') (h' : s'.Grows n s'') :
    s.Grows n s'' where
  curNode_le := h.curNode_le.trans h'.curNode_le
  expanded i := (h'.expanded i).trans (h.expanded i)
  settled i hi := (h'.settled i ((h.expanded i).mpr hi)).trans (h.settled i hi)
  cheaper i hi := by
    obtain ⟨hx, hy, hf⟩ := h.cheaper i hi
    obtain ⟨hx', hy', hf'⟩ := h'.cheaper i (hi.trans_le h.curNode_le)
    exact ⟨hx'.trans hx, hy'.trans hy, hf'.trans hf⟩

/-! ### The best node -/

/-- The best of the nodes below `k`. -/
def Best (s : AStarNodes) (k : Nat) (best : Int × Option Nat) : Prop :=
  (∀ i < k, s.openNodes i = true → best.1 ≤ (s.nodes i).f) ∧
    ∀ i ∈ best.2, i < k ∧ s.openNodes i = true ∧ (s.nodes i).f = best.1

theorem better_spec (best : Int × Option Nat) (h : s.Best i best) :
    s.Best (i + 1) (s.better best i) := by
  obtain ⟨hle, hat⟩ := h
  unfold better
  split
  · rename_i hi
    refine ⟨fun j hj hopen => ?_, fun j hj => ?_⟩
    · rcases Nat.lt_succ_iff_lt_or_eq.mp hj with before | rfl
      · exact hi.2.le.trans (hle j before hopen)
      · exact le_rfl
    · obtain rfl : i = j := by simpa using hj
      exact ⟨Nat.lt_succ_self i, hi.1, rfl⟩
  · rename_i hi
    refine ⟨fun j hj hopen => ?_, fun j hj => ?_⟩
    · rcases Nat.lt_succ_iff_lt_or_eq.mp hj with before | rfl
      · exact hle j before hopen
      · exact not_lt.mp fun hlt => hi ⟨hopen, hlt⟩
    · obtain ⟨hlt, rest⟩ := hat j hj
      exact ⟨hlt.trans (Nat.lt_succ_self i), rest⟩

theorem best_foldl (s : AStarNodes) (k : Nat) :
    s.Best k ((List.range k).foldl s.better (2147483647, none)) := by
  induction k with
  | zero => exact ⟨fun i hi => absurd hi (Nat.not_lt_zero i), fun i hi => by simp at hi⟩
  | succ k ih =>
      rw [List.range_succ, List.foldl_append]
      exact better_spec _ ih

theorem getBestNode_spec (h : s.getBestNode = some n) :
    n < s.curNode ∧ s.openNodes n = true ∧
      ∀ i < s.curNode, s.openNodes i = true → (s.nodes n).f ≤ (s.nodes i).f := by
  unfold getBestNode at h
  split at h
  · cases h
  · obtain ⟨hle, hat⟩ := best_foldl s s.curNode
    obtain ⟨hn, hopen, hf⟩ := hat n h
    exact ⟨hn, hopen, fun i hi hi' => hf ▸ hle i hi hi'⟩

end AStarNodes

/-! ### Directions -/

theorem neighbors_subset (s : AStarNodes) (allowDiagonal : Bool) (n : Nat) :
    s.neighbors allowDiagonal n ⊆ allNeighbors := by
  unfold AStarNodes.neighbors
  cases (s.nodes n).parent with
  | none => exact fun _ h => h
  | some p =>
      refine fun o ho => ?_
      have hall (d : Direction) : dirNeighbors d ⊆ allNeighbors := by
        cases d <;> decide
      exact hall _ (List.mem_of_mem_take ho)

section

variable {Tile : Type} [DecidableEq Tile] (w : Surroundings Tile)
  (call : FrozenPathingConditionCall) (fpp : FindPathParams)

namespace Surroundings

/-- The position of a node. -/
def place (node : AStarNode) : Position := ⟨node.x, node.y, w.position.z⟩

/-- What a step of a path may lead to. -/
structure Admissible (pos : Position) : Prop where
  x_lt : pos.x < 65536
  y_lt : pos.y < 65536
  inside : w.outside call fpp pos = false
  walkable : (w.canWalkTo pos).isSome = true

/-- The cost of a step from a node. -/
def stepCost (node : AStarNode) (pos : Position) : Int :=
  node.getMapWalkCost pos + w.tileCost pos

omit [DecidableEq Tile] in
theorem tileCost_bounds (pos : Position) : 0 ≤ w.tileCost pos ∧ w.tileCost pos ≤ 210 := by
  unfold tileCost
  cases w.getTile pos with
  | none => simp
  | some t =>
      simp only [Option.elim_some, getTileWalkCost, MAP_NORMALWALKCOST]
      repeat' split
      all_goals omega

omit [DecidableEq Tile] in
theorem stepCost_bounds (node : AStarNode) (pos : Position) :
    10 ≤ w.stepCost node pos ∧ w.stepCost node pos ≤ 235 := by
  have := w.tileCost_bounds pos
  unfold stepCost AStarNode.getMapWalkCost MAP_DIAGONALWALKCOST MAP_NORMALWALKCOST
  split <;> omega

/-- How a node came from its parent. -/
structure Child (s : AStarNodes) (n : Option Nat) (i p : Nat) (offset : Int × Int) : Prop where
  parent : (s.nodes i).parent = some p
  expanded : s.Expanded n p
  mem : offset ∈ s.neighbors fpp.allowDiagonal p
  place : w.place (s.nodes i) = w.shift (s.nodes p).x (s.nodes p).y offset
  admissible : w.Admissible call fpp (w.place (s.nodes i))
  cost : (s.nodes i).f = (s.nodes p).f + w.stepCost (s.nodes p) (w.place (s.nodes i))

/-- The nodes of a search, between two iterations or while a node is being expanded. -/
structure Grown (n : Option Nat) (s : AStarNodes) : Prop where
  pos : 0 < s.curNode
  curNode_le : s.curNode ≤ MAX_NODES
  inMap : ∀ i < s.curNode, (s.nodes i).x < 65536 ∧ (s.nodes i).y < 65536
  table : ∀ {x y i}, x < 65536 → y < 65536 → (s.getNodeByPosition x y = some i ↔
    i < s.curNode ∧ (s.nodes i).x = x ∧ (s.nodes i).y = y)
  root : s.nodes 0 = { x := w.position.x, y := w.position.y }
  child : ∀ i < s.curNode, i ≠ 0 → ∃ p offset, w.Child call fpp s n i p offset
  bounds : ∀ i < s.curNode, 0 ≤ (s.nodes i).f ∧ (s.nodes i).f ≤ 235 * i
  frontier : ∀ {i j}, s.Expanded n i → j < s.curNode → ¬s.Expanded n j →
    (s.nodes i).f ≤ (s.nodes j).f
  current : ∀ m, n = some m → m < s.curNode ∧ s.openNodes m = true ∧
    ∀ i, s.Expanded n i → (s.nodes i).f ≤ (s.nodes m).f
  closed : s.closedNodes = ((Finset.range s.curNode).filter (s.openNodes · = false)).card

/-- There is a node where the neighbour is, at no more than the step costs. -/
def Reached (s : AStarNodes) (f : Int) (node : AStarNode) (pos : Position) : Prop :=
  ∃ j < s.curNode, w.place (s.nodes j) = pos ∧ (s.nodes j).f ≤ f + w.stepCost node pos

end Surroundings

open Surroundings

variable {w call fpp} {s s' : AStarNodes} {n : Nat} {o : Option Nat} {offset : Int × Int}

/-! ### One neighbour -/

theorem visit_cases (h : w.visit call fpp n (s.nodes n).f s offset = some s') :
    let node := s.nodes n
    let pos := w.shift node.x node.y offset
    let newf := node.f + w.stepCost node pos
    let m := s.getNodeByPosition pos.x pos.y
    s' = s ∧ (w.outside call fpp pos = true ∨ m = none ∧ (w.canWalkTo pos).isSome = false) ∨
      s' = s ∧ (∃ i, m = some i ∧ (s.nodes i).f ≤ newf) ∨
      w.outside call fpp pos = false ∧
        ((∃ i, m = some i ∧ newf < (s.nodes i).f ∧ s' = (s.reparent i n newf).openNode i) ∨
          m = none ∧ (w.canWalkTo pos).isSome = true ∧
            s.createOpenNode n pos.x pos.y newf = some s') := by
  intro node pos newf m
  have hnewf : newf = node.f + node.getMapWalkCost pos + w.tileCost pos := by
    simp only [newf, stepCost]
    omega
  simp only [visit] at h
  split at h
  · rename_i hout
    exact .inl ⟨(Option.some.inj h).symm, .inl hout⟩
  · rename_i hout
    split at h
    · rename_i i hi
      split at h
      · rename_i hle
        exact .inr (.inl ⟨(Option.some.inj h).symm, i, hi, hnewf ▸ hle⟩)
      · rename_i hlt
        refine .inr (.inr ⟨Bool.not_eq_true _ ▸ hout, .inl ⟨i, hi, ?_, ?_⟩⟩)
        · exact hnewf ▸ not_le.mp hlt
        · rw [hnewf]
          exact (Option.some.inj h).symm
    · rename_i hi
      split at h
      · rename_i hwalk
        exact .inl ⟨(Option.some.inj h).symm, .inr ⟨hi, by simpa using hwalk⟩⟩
      · rename_i hwalk
        refine .inr (.inr ⟨Bool.not_eq_true _ ▸ hout, .inr ⟨hi, ?_, ?_⟩⟩)
        · simpa [Option.isSome_iff_ne_none] using hwalk
        · rw [hnewf]
          exact h

/-- The nodes with a new one. -/
structure Created (s : AStarNodes) (node : AStarNode) (s' : AStarNodes) : Prop where
  room : s.curNode < MAX_NODES
  curNode : s'.curNode = s.curNode + 1
  self : s'.nodes s.curNode = node
  other : ∀ i < s.curNode, s'.nodes i = s.nodes i
  opened : s'.openNodes s.curNode = true
  openNodes : ∀ i < s.curNode, s'.openNodes i = s.openNodes i
  found : s'.getNodeByPosition node.x node.y = some s.curNode
  getNode : ∀ {x y}, y < 65536 → node.y < 65536 → ¬(x = node.x ∧ y = node.y) →
    s'.getNodeByPosition x y = s.getNodeByPosition x y
  closedNodes : s'.closedNodes = s.closedNodes

theorem createOpenNode_created {p x y : Nat} {f : Int}
    (h : s.createOpenNode p x y f = some s') : Created s ⟨some p, f, x, y⟩ s' := by
  unfold AStarNodes.createOpenNode at h
  split at h
  · cases h
  · rename_i hroom
    obtain rfl := Option.some.inj h
    refine ⟨by omega, rfl, ?_, fun i hi => ?_, ?_, fun i hi => ?_, ?_, fun hy hy' hne => ?_, rfl⟩
    · exact Function.update_self ..
    · exact Function.update_of_ne hi.ne _ _
    · exact Function.update_self ..
    · exact Function.update_of_ne hi.ne _ _
    · simp only [AStarNodes.getNodeByPosition, Function.update_self]
    · have hkey := fun e => hne ((AStarNodes.key_inj hy hy').mp e)
      simp only [AStarNodes.getNodeByPosition, Function.update_of_ne hkey]

namespace Surroundings.Grown

theorem position_eq (hg : w.Grown call fpp o s) (i : Nat) (pos : Position)
    (hx : pos.x < 65536) (hy : pos.y < 65536) (hz : pos.z = w.position.z) :
    s.getNodeByPosition pos.x pos.y = some i ↔ i < s.curNode ∧ w.place (s.nodes i) = pos := by
  rw [hg.table hx hy]
  obtain ⟨x, y, z⟩ := pos
  simp only [place, Position.mk.injEq]
  refine and_congr_right fun _ => ?_
  simp_all

theorem expanded_current (hg : w.Grown call fpp (some n) s) : s.Expanded (some n) n :=
  ⟨(hg.current n rfl).1, .inr rfl⟩

theorem open_of_not_expanded {i : Nat} (hi : i < s.curNode) (h : ¬s.Expanded o i) :
    s.openNodes i = true := by
  cases hopen : s.openNodes i with
  | true => rfl
  | false => exact absurd ⟨hi, .inl hopen⟩ h

theorem neighbors_eq (hg : w.Grown call fpp (some n) s) (h : s.Grows n s') {p : Nat}
    (hp : s.Expanded (some n) p) (allowDiagonal : Bool) :
    s'.neighbors allowDiagonal p = s.neighbors allowDiagonal p := by
  unfold AStarNodes.neighbors
  rw [h.settled p hp]
  by_cases hp0 : p = 0
  · subst hp0
    rw [hg.root]
  · obtain ⟨q, _, hq⟩ := hg.child p hp.1 hp0
    simp only [hq.parent, h.settled q hq.expanded]

end Surroundings.Grown

theorem Surroundings.Child.grows {i p : Nat} (hc : w.Child call fpp s (some n) i p offset)
    (hg : w.Grown call fpp (some n) s) (h : s.Grows n s') (hi : s'.nodes i = s.nodes i) :
    w.Child call fpp s' (some n) i p offset where
  parent := by rw [hi, hc.parent]
  expanded := (h.expanded p).mpr hc.expanded
  mem := by rw [hg.neighbors_eq h hc.expanded]; exact hc.mem
  place := by rw [hi, hc.place, h.settled p hc.expanded]
  admissible := by rw [hi]; exact hc.admissible
  cost := by rw [hi, hc.cost, h.settled p hc.expanded]

/-- What the step to a neighbour gives a node. -/
def Surroundings.Steps (w : Surroundings Tile) (call : FrozenPathingConditionCall)
    (fpp : FindPathParams) (s : AStarNodes) (n : Nat) (offset : Int × Int) (pos : Position)
    (newf : Int) : Prop :=
  offset ∈ s.neighbors fpp.allowDiagonal n ∧ pos = w.shift (s.nodes n).x (s.nodes n).y offset ∧
    newf = (s.nodes n).f + w.stepCost (s.nodes n) pos ∧ w.outside call fpp pos = false

namespace Surroundings.Grown

variable {pos : Position} {newf : Int} {i : Nat}

theorem le_current (hg : w.Grown call fpp (some n) s) (hi : s.Expanded (some n) i) :
    (s.nodes i).f ≤ (s.nodes n).f :=
  (hg.current n rfl).2.2 i hi

omit [DecidableEq Tile] in
theorem lt_newf (hs : w.Steps call fpp s n offset pos newf) : (s.nodes n).f + 10 ≤ newf := by
  have := w.stepCost_bounds (s.nodes n) pos
  have := hs.2.2.1
  omega

/-- What is made cheaper is open. -/
theorem not_expanded (hg : w.Grown call fpp (some n) s) (hs : w.Steps call fpp s n offset pos newf)
    (hlt : newf < (s.nodes i).f) : ¬s.Expanded (some n) i := by
  intro hi
  have := hg.le_current hi
  have := lt_newf hs
  omega

theorem reparent_grows (hg : w.Grown call fpp (some n) s)
    (hs : w.Steps call fpp s n offset pos newf) (hlt : newf < (s.nodes i).f) :
    s.Grows n (s.reparent i n newf) where
  curNode_le := le_rfl
  expanded _ := Iff.rfl
  settled j hj := by
    have hne : j ≠ i := fun e => hg.not_expanded hs hlt (e ▸ hj)
    exact Function.update_of_ne hne _ _
  cheaper j _ := by
    by_cases hj : j = i
    · subst hj
      simp only [AStarNodes.reparent, Function.update_self]
      exact ⟨trivial, trivial, hlt.le⟩
    · simp [AStarNodes.reparent, hj]

theorem reparent (hg : w.Grown call fpp (some n) s) (hs : w.Steps call fpp s n offset pos newf)
    (hi : i < s.curNode) (hpos : w.place (s.nodes i) = pos) (hlt : newf < (s.nodes i).f) :
    w.Grown call fpp (some n) (s.reparent i n newf) := by
  have hgrows := hg.reparent_grows hs hlt
  have hnot := hg.not_expanded hs hlt
  have hn := hg.expanded_current
  have hne : i ≠ n := fun e => hnot (e ▸ hn)
  have hlow := hg.bounds n hn.1
  have hnew := lt_newf hs
  have hi0 : i ≠ 0 := by
    rintro rfl
    rw [hg.root] at hlt
    simp only at hlt
    omega
  have hself : (s.reparent i n newf).nodes i = { s.nodes i with f := newf, parent := some n } :=
    Function.update_self ..
  have hother (j : Nat) (hj : j ≠ i) : (s.reparent i n newf).nodes j = s.nodes j :=
    Function.update_of_ne hj _ _
  have hsame (j : Nat) : ((s.reparent i n newf).nodes j).x = (s.nodes j).x ∧
      ((s.reparent i n newf).nodes j).y = (s.nodes j).y := by
    by_cases hj : j = i
    · subst hj
      simp [hself]
    · simp [hother j hj]
  refine ⟨hg.pos, hg.curNode_le, fun j hj => ?_, fun hx hy => ?_, ?_, fun j hj hj0 => ?_,
    fun j hj => ?_, fun {j k} hj hk hnk => ?_, fun m hm => ?_, hg.closed⟩
  · rw [(hsame j).1, (hsame j).2]
    exact hg.inMap j hj
  · rw [(hsame _).1, (hsame _).2]
    exact hg.table hx hy
  · rw [hother 0 (Ne.symm hi0)]
    exact hg.root
  · by_cases hji : j = i
    · subst hji
      obtain ⟨p, _, hp⟩ := hg.child j hj hj0
      have hplace : w.place ((s.reparent j n newf).nodes j) = w.place (s.nodes j) := by
        simp [hself, place]
      have hnode := hgrows.settled n hn
      refine ⟨n, offset, by rw [hself], hn, ?_, ?_, ?_, ?_⟩
      · rw [hg.neighbors_eq hgrows hn]
        exact hs.1
      · rw [hplace, hpos, hnode]
        exact hs.2.1
      · rw [hplace]
        exact hp.admissible
      · rw [hplace, hpos, hnode, hself]
        exact hs.2.2.1
    · obtain ⟨p, offset', hp⟩ := hg.child j hj hj0
      exact ⟨p, offset', hp.grows hg hgrows (hother j hji)⟩
  · by_cases hji : j = i
    · subst hji
      have := hg.bounds j hj
      simp only [hself]
      omega
    · rw [hother j hji]
      exact hg.bounds j hj
  · have hj' : s.Expanded (some n) j := hj
    rw [hgrows.settled j hj']
    by_cases hki : k = i
    · subst hki
      have := hg.le_current hj'
      simp only [hself]
      omega
    · rw [hother k hki]
      exact hg.frontier hj' hk hnk
  · obtain rfl := Option.some.inj hm
    refine ⟨hn.1, (hg.current n rfl).2.1, fun j hj => ?_⟩
    have hj' : s.Expanded (some n) j := hj
    rw [hgrows.settled j hj', hgrows.settled n hn]
    exact hg.le_current hj'

/-! ### A new node -/

section

variable (hg : w.Grown call fpp (some n) s) (hs : w.Steps call fpp s n offset pos newf)
  (h : s.createOpenNode n pos.x pos.y newf = some s')

include hg h

theorem create_grows : s.Grows n s' := by
  have hnew := createOpenNode_created h
  have hn := (hg.expanded_current).1
  refine ⟨by rw [hnew.curNode]; omega, fun j => ?_, fun j hj => hnew.other j hj.1, fun j hj => ?_⟩
  · by_cases hj : j = s.curNode
    · subst hj
      have hne : n ≠ s.curNode := hn.ne
      simp [AStarNodes.Expanded, hnew.opened, hne]
    · by_cases hlt : j < s.curNode
      · have hlt' : j < s'.curNode := hlt.trans (by rw [hnew.curNode]; omega)
        simp [AStarNodes.Expanded, hlt, hlt', hnew.openNodes j hlt]
      · have hlt' : ¬j < s'.curNode := by rw [hnew.curNode]; omega
        simp [AStarNodes.Expanded, hlt, hlt']
  · rw [hnew.other j hj]
    exact ⟨rfl, rfl, le_rfl⟩

theorem create_table (hy : pos.y < 65536)
    (hnone : s.getNodeByPosition pos.x pos.y = none) {x y j : Nat} (hx' : x < 65536)
    (hy' : y < 65536) : s'.getNodeByPosition x y = some j ↔
      j < s'.curNode ∧ (s'.nodes j).x = x ∧ (s'.nodes j).y = y := by
  have hnew := createOpenNode_created h
  have hold (j : Nat) := hg.table (i := j) hx' hy'
  have hlast (j : Nat) (hj : j < s'.curNode) : j < s.curNode ∨ j = s.curNode := by
    rw [hnew.curNode] at hj
    omega
  by_cases hkey : x = pos.x ∧ y = pos.y
  · obtain ⟨rfl, rfl⟩ := hkey
    have hfound : s'.getNodeByPosition pos.x pos.y = some s.curNode := hnew.found
    rw [hfound, Option.some.injEq]
    refine ⟨fun e => ?_, fun ⟨hj, hjx⟩ => ?_⟩
    · subst e
      rw [hnew.self, hnew.curNode]
      exact ⟨Nat.lt_succ_self _, rfl, rfl⟩
    · rcases hlast j hj with hlt | rfl
      · rw [hnew.other j hlt] at hjx
        have := (hold j).mpr ⟨hlt, hjx⟩
        rw [hnone] at this
        cases this
      · rfl
  · rw [hnew.getNode hy' hy hkey, hold]
    refine ⟨fun ⟨hj, hjx⟩ => ?_, fun ⟨hj, hjx⟩ => ?_⟩
    · rw [hnew.other j hj, hnew.curNode]
      exact ⟨by omega, hjx⟩
    · rcases hlast j hj with hlt | rfl
      · rw [hnew.other j hlt] at hjx
        exact ⟨hlt, hjx⟩
      · rw [hnew.self] at hjx
        exact absurd ⟨hjx.1.symm, hjx.2.symm⟩ hkey

include hs

theorem create (hnone : s.getNodeByPosition pos.x pos.y = none)
    (hwalk : (w.canWalkTo pos).isSome = true) : w.Grown call fpp (some n) s' := by
  have hgrows := hg.create_grows h
  have hnew := createOpenNode_created h
  have hn := hg.expanded_current
  have hx : pos.x < 65536 := hs.2.1 ▸ uint16_lt _
  have hy : pos.y < 65536 := hs.2.1 ▸ uint16_lt _
  have hself := hnew.self
  have hcur := hnew.curNode
  have hcost := w.stepCost_bounds (s.nodes n) pos
  have hlow := hg.bounds n hn.1
  have hnewf := hs.2.2.1
  have hlast (j : Nat) (hj : j < s'.curNode) : j < s.curNode ∨ j = s.curNode := by omega
  refine ⟨by omega, hcur ▸ hnew.room, fun j hj => ?_, hg.create_table h hy hnone, ?_,
    fun j hj hj0 => ?_, fun j hj => ?_, fun {j k} hj hk hnk => ?_, fun m hm => ?_, ?_⟩
  · rcases hlast j hj with hlt | rfl
    · rw [hnew.other j hlt]
      exact hg.inMap j hlt
    · rw [hself]
      exact ⟨hx, hy⟩
  · rw [hnew.other 0 hg.pos]
    exact hg.root
  · rcases hlast j hj with hlt | rfl
    · obtain ⟨p, offset', hp⟩ := hg.child j hlt hj0
      exact ⟨p, offset', hp.grows hg hgrows (hnew.other j hlt)⟩
    · have hplace : w.place (s'.nodes s.curNode) = pos := by
        rw [hself, hs.2.1]
        rfl
      have hnode := hgrows.settled n hn
      refine ⟨n, offset, by rw [hself], (hgrows.expanded n).mpr hn, ?_, ?_, ?_, ?_⟩
      · rw [hg.neighbors_eq hgrows hn]
        exact hs.1
      · rw [hplace, hnode]
        exact hs.2.1
      · rw [hplace]
        exact ⟨hx, hy, hs.2.2.2, hwalk⟩
      · rw [hplace, hself, hnode]
        exact hs.2.2.1
  · rcases hlast j hj with hlt | rfl
    · rw [hnew.other j hlt]
      exact hg.bounds j hlt
    · have hnn := hn.1
      simp only [hself]
      omega
  · have hj' := (hgrows.expanded j).mp hj
    rw [hgrows.settled j hj']
    rcases hlast k hk with hlt | rfl
    · rw [hnew.other k hlt]
      exact hg.frontier hj' hlt fun hk' => hnk ((hgrows.expanded k).mpr hk')
    · have := hg.le_current hj'
      simp only [hself]
      omega
  · obtain rfl := Option.some.inj hm
    refine ⟨hn.1.trans_le hgrows.curNode_le, ?_, fun j hj => ?_⟩
    · rw [hnew.openNodes _ hn.1]
      exact (hg.current _ rfl).2.1
    · have hj' := (hgrows.expanded j).mp hj
      rw [hgrows.settled j hj', hgrows.settled _ hn]
      exact hg.le_current hj'
  · rw [hnew.closedNodes, hg.closed, hcur, Finset.range_add_one, Finset.filter_insert,
      if_neg (by simp [hnew.opened])]
    congr 2
    exact Finset.filter_congr fun j hj => by rw [hnew.openNodes j (Finset.mem_range.mp hj)]

end

/-! ### The expansion of a node -/

/-- One neighbour: the nodes stay in order, and there is a node for it where there may be one. -/
theorem visit (hg : w.Grown call fpp (some n) s)
    (hoffset : offset ∈ s.neighbors fpp.allowDiagonal n)
    (h : w.visit call fpp n (s.nodes n).f s offset = some s') :
    w.Grown call fpp (some n) s' ∧ s.Grows n s' ∧
      (w.Admissible call fpp (w.shift (s.nodes n).x (s.nodes n).y offset) →
        w.Reached s' (s.nodes n).f (s.nodes n) (w.shift (s.nodes n).x (s.nodes n).y offset)) := by
  have hx : (w.shift (s.nodes n).x (s.nodes n).y offset).x < 65536 := uint16_lt _
  have hy : (w.shift (s.nodes n).x (s.nodes n).y offset).y < 65536 := uint16_lt _
  have hat (i : Nat) := hg.position_eq i _ hx hy rfl
  obtain ⟨rfl, hout⟩ | ⟨rfl, i, hi, hle⟩ | ⟨hin, ⟨i, hi, hlt, rfl⟩ | ⟨hnone, hwalk, hcreate⟩⟩ :=
    visit_cases h
  · refine ⟨hg, .refl s' n, fun hadm => ?_⟩
    rcases hout with hout | ⟨-, hwalk⟩
    · rw [hadm.inside] at hout
      cases hout
    · rw [hadm.walkable] at hwalk
      cases hwalk
  · obtain ⟨hcur, hplace⟩ := (hat i).mp hi
    exact ⟨hg, .refl s' n, fun _ => ⟨i, hcur, hplace, hle⟩⟩
  · obtain ⟨hcur, hplace⟩ := (hat i).mp hi
    have hs : w.Steps call fpp s n offset _ _ := ⟨hoffset, rfl, rfl, hin⟩
    have hopen : (s.reparent i n ((s.nodes n).f + w.stepCost (s.nodes n)
        (w.shift (s.nodes n).x (s.nodes n).y offset))).openNodes i = true :=
      open_of_not_expanded hcur (hg.not_expanded hs hlt)
    have hsame : (s.reparent i n ((s.nodes n).f + w.stepCost (s.nodes n)
        (w.shift (s.nodes n).x (s.nodes n).y offset))).openNode i = s.reparent i n _ :=
      if_pos hopen
    rw [hsame]
    refine ⟨hg.reparent hs hcur hplace hlt, hg.reparent_grows hs hlt, fun _ => ⟨i, hcur, ?_, ?_⟩⟩
    · simpa [AStarNodes.reparent, place] using hplace
    · simp [AStarNodes.reparent]
  · have hs : w.Steps call fpp s n offset _ _ := ⟨hoffset, rfl, rfl, hin⟩
    have hnew := createOpenNode_created hcreate
    refine ⟨hg.create hs hcreate hnone hwalk, hg.create_grows hcreate,
      fun _ => ⟨s.curNode, ?_, ?_, ?_⟩⟩
    · rw [hnew.curNode]
      omega
    · rw [hnew.self]
      rfl
    · rw [hnew.self]

end Surroundings.Grown

omit [DecidableEq Tile] in
theorem Surroundings.Reached.grows {f : Int} {node : AStarNode} {pos : Position}
    (hr : w.Reached s f node pos) (h : s.Grows n s') : w.Reached s' f node pos := by
  obtain ⟨j, hj, hplace, hf⟩ := hr
  obtain ⟨hx, hy, hle⟩ := h.cheaper j hj
  refine ⟨j, hj.trans_le h.curNode_le, ?_, hle.trans hf⟩
  rw [← hplace]
  simp only [place, hx, hy]

namespace Surroundings.Grown

theorem expand {offsets : List (Int × Int)} {b : Bool} (hg : w.Grown call fpp (some n) s)
    (hoffsets : offsets ⊆ s.neighbors fpp.allowDiagonal n)
    (h : w.expand call fpp n (s.nodes n).f offsets s = (s', b)) :
    w.Grown call fpp (some n) s' ∧ s.Grows n s' ∧
      (b = true → ∀ offset ∈ offsets,
        w.Admissible call fpp (w.shift (s.nodes n).x (s.nodes n).y offset) →
        w.Reached s' (s.nodes n).f (s.nodes n) (w.shift (s.nodes n).x (s.nodes n).y offset)) := by
  induction offsets generalizing s with
  | nil =>
      obtain ⟨rfl, -⟩ := Prod.mk.inj h
      exact ⟨hg, .refl s n, fun _ _ ho => absurd ho List.not_mem_nil⟩
  | cons offset offsets ih =>
      obtain ⟨hoffset, hrest⟩ := List.cons_subset.mp hoffsets
      simp only [Surroundings.expand] at h
      cases hv : w.visit call fpp n (s.nodes n).f s offset with
      | none =>
          rw [hv] at h
          obtain ⟨rfl, rfl⟩ := Prod.mk.inj h
          exact ⟨hg, .refl s n, fun hb => by cases hb⟩
      | some s₁ =>
          obtain ⟨hg₁, hgrows₁, hreached⟩ := hg.visit hoffset hv
          have hnode := hgrows₁.settled n hg.expanded_current
          rw [hv] at h
          simp only at h
          rw [← hnode] at h
          rw [← hg.neighbors_eq hgrows₁ hg.expanded_current] at hrest
          obtain ⟨hg', hgrows', hall⟩ := ih hg₁ hrest h
          refine ⟨hg', hgrows₁.trans hgrows', fun hb o ho hadm => ?_⟩
          rcases List.mem_cons.mp ho with rfl | ho
          · exact (hreached hadm).grows hgrows'
          · rw [← hnode] at hadm ⊢
            exact hall hb o ho hadm

end Surroundings.Grown

/-! ### The use of the pool -/

theorem createOpenNode_curNode {p x y : Nat} {f : Int} :
    (∀ s', s.createOpenNode p x y f = some s' → s'.curNode ≤ s.curNode + 1) ∧
      (s.createOpenNode p x y f = none → MAX_NODES ≤ s.curNode) := by
  refine ⟨fun s' h => ((createOpenNode_created h).curNode).le, fun h => ?_⟩
  unfold AStarNodes.createOpenNode at h
  split at h
  · assumption
  · cases h

theorem openNode_curNode (s : AStarNodes) (i : Nat) : (s.openNode i).curNode = s.curNode := by
  unfold AStarNodes.openNode
  split <;> rfl

theorem visit_curNode (w : Surroundings Tile) (call : FrozenPathingConditionCall)
    (fpp : FindPathParams) (s : AStarNodes) (n : Nat) (f : Int) (offset : Int × Int) :
    (∀ s', w.visit call fpp n f s offset = some s' → s'.curNode ≤ s.curNode + 1) ∧
      (w.visit call fpp n f s offset = none → MAX_NODES ≤ s.curNode) := by
  have hsame : (∀ s', some s = some s' → s'.curNode ≤ s.curNode + 1) ∧
      (some s = none → MAX_NODES ≤ s.curNode) := by
    refine ⟨fun s' h => ?_, fun h => by cases h⟩
    obtain rfl := Option.some.inj h
    omega
  unfold visit
  dsimp only
  split
  · exact hsame
  · split
    · split
      · exact hsame
      · refine ⟨fun s' h => ?_, fun h => by cases h⟩
        obtain rfl := Option.some.inj h
        rw [openNode_curNode]
        exact Nat.le_succ _
    · split
      · exact hsame
      · exact createOpenNode_curNode

theorem expand_curNode {f : Int} {offsets : List (Int × Int)} {b : Bool}
    (h : w.expand call fpp n f offsets s = (s', b)) :
    s'.curNode ≤ s.curNode + offsets.length ∧
      (b = false → MAX_NODES < s.curNode + offsets.length) := by
  induction offsets generalizing s with
  | nil =>
      obtain ⟨rfl, rfl⟩ := Prod.mk.inj h
      exact ⟨le_rfl, fun hb => by cases hb⟩
  | cons offset offsets ih =>
      obtain ⟨hsome, hnone⟩ := visit_curNode w call fpp s n f offset
      simp only [expand] at h
      simp only [List.length_cons]
      cases hv : w.visit call fpp n f s offset with
      | none =>
          rw [hv] at h
          obtain ⟨rfl, rfl⟩ := Prod.mk.inj h
          have := hnone hv
          exact ⟨by omega, fun _ => by omega⟩
      | some s₁ =>
          rw [hv] at h
          have hle := hsome s₁ hv
          obtain ⟨hcur, hfull⟩ := ih h
          exact ⟨by omega, fun hb => by have := hfull hb; omega⟩

/-! ### Iterations -/

namespace Surroundings.Grown

/-- The best node begins to be expanded. -/
theorem begin (hg : w.Grown call fpp none s) (h : s.getBestNode = some n) :
    w.Grown call fpp (some n) s := by
  obtain ⟨hn, hopen, hbest⟩ := AStarNodes.getBestNode_spec h
  have hmore {i : Nat} (hi : s.Expanded none i) : s.Expanded (some n) i :=
    ⟨hi.1, hi.2.imp_right fun e => by cases e⟩
  have hcases {i : Nat} (hi : s.Expanded (some n) i) : s.Expanded none i ∨ i = n := by
    rcases hi.2 with hclosed | e
    · exact .inl ⟨hi.1, .inl hclosed⟩
    · exact .inr (Option.some.inj e).symm
  have hopenOf {i : Nat} (hi : i < s.curNode) (h : ¬s.Expanded (some n) i) :
      s.openNodes i = true := open_of_not_expanded hi h
  have hn' : ¬s.Expanded none n := by
    rintro ⟨-, hclosed | e⟩
    · rw [hopen] at hclosed
      cases hclosed
    · cases e
  refine ⟨hg.pos, hg.curNode_le, hg.inMap, hg.table, hg.root, fun i hi hi0 => ?_, hg.bounds,
    fun hi hj hnj => ?_, fun m hm => ?_, hg.closed⟩
  · obtain ⟨p, offset, hp⟩ := hg.child i hi hi0
    exact ⟨p, offset, { hp with expanded := hmore hp.expanded }⟩
  · rcases hcases hi with hi | rfl
    · exact hg.frontier hi hj fun hj' => hnj (hmore hj')
    · exact hbest _ hj (hopenOf hj hnj)
  · obtain rfl := Option.some.inj hm
    refine ⟨hn, hopen, fun i hi => ?_⟩
    rcases hcases hi with hi | rfl
    · exact hg.frontier hi hn hn'
    · exact le_rfl

theorem closeNode_expanded (hg : w.Grown call fpp (some n) s) (i : Nat) :
    (s.closeNode n).Expanded none i ↔ s.Expanded (some n) i := by
  by_cases hi : i = n
  · subst hi
    simp [AStarNodes.Expanded, AStarNodes.closeNode]
  · simp [AStarNodes.Expanded, AStarNodes.closeNode, hi, Ne.symm hi]

/-- The expanded node is closed. -/
theorem close (hg : w.Grown call fpp (some n) s) : w.Grown call fpp none (s.closeNode n) := by
  have hexp := hg.closeNode_expanded
  have hn := hg.expanded_current.1
  refine ⟨hg.pos, hg.curNode_le, hg.inMap, hg.table, hg.root, fun i hi hi0 => ?_, hg.bounds,
    fun hi hj hnj => ?_, fun m hm => ?_, ?_⟩
  · obtain ⟨p, offset, hp⟩ := hg.child i hi hi0
    exact ⟨p, offset, hp.parent, (hexp p).mpr hp.expanded, hp.mem, hp.place, hp.admissible, hp.cost⟩
  · exact hg.frontier ((hexp _).mp hi) hj fun hj' => hnj ((hexp _).mpr hj')
  · cases hm
  · have hset : (Finset.range s.curNode).filter ((s.closeNode n).openNodes · = false) =
        insert n ((Finset.range s.curNode).filter (s.openNodes · = false)) := by
      ext i
      rw [Finset.mem_insert, Finset.mem_filter, Finset.mem_filter]
      by_cases hi : i = n
      · subst hi
        have hclosed : (s.closeNode i).openNodes i = false := Function.update_self ..
        simp [hclosed, hn]
      · have hsame : (s.closeNode n).openNodes i = s.openNodes i := Function.update_of_ne hi _ _
        simp [hsame, hi]
    have hnot : n ∉ (Finset.range s.curNode).filter (s.openNodes · = false) := by
      simp [(hg.current n rfl).2.1]
    change s.closedNodes + 1 = _
    rw [show (s.closeNode n).curNode = s.curNode from rfl, hset, Finset.card_insert_of_notMem hnot,
      hg.closed]
    simp

theorem closedNodes_le (hg : w.Grown call fpp o s) : s.closedNodes ≤ MAX_NODES := by
  rw [hg.closed]
  have hcard := Finset.card_filter_le (Finset.range s.curNode) (s.openNodes · = false)
  rw [Finset.card_range] at hcard
  exact_mod_cast hcard.trans hg.curNode_le

/-- The constructor. -/
theorem start : w.Grown call fpp none (.start w.position.x w.position.y) := by
  have hnode : (AStarNodes.start w.position.x w.position.y).nodes 0 =
      { x := w.position.x, y := w.position.y } := rfl
  have hnone (i : Nat) (hi : i < (AStarNodes.start w.position.x w.position.y).curNode) :
      i = 0 := Nat.lt_one_iff.mp hi
  have hroom : 1 ≤ MAX_NODES := by decide
  refine ⟨Nat.one_pos, hroom, fun i hi => ?_, fun {x y i} hx hy => ?_, rfl, fun i hi hi0 => ?_,
    fun i hi => ?_, fun {i j} hi hj hnj => ?_, (fun m hm => by cases hm), rfl⟩
  · obtain rfl := hnone i hi
    exact ⟨w.x_lt, w.y_lt⟩
  · have hkey : AStarNodes.key x y = AStarNodes.key w.position.x w.position.y ↔
        x = w.position.x ∧ y = w.position.y := AStarNodes.key_inj hy w.y_lt
    by_cases hxy : x = w.position.x ∧ y = w.position.y
    · obtain ⟨rfl, rfl⟩ := hxy
      simp only [AStarNodes.start, AStarNodes.getNodeByPosition, Function.update_self,
        Option.some.injEq]
      refine ⟨fun e => ?_, fun ⟨hi, _⟩ => (hnone i hi).symm⟩
      subst e
      exact ⟨Nat.one_pos, rfl, rfl⟩
    · have hne : AStarNodes.key x y ≠ AStarNodes.key w.position.x w.position.y :=
        fun e => hxy (hkey.mp e)
      simp only [AStarNodes.start, AStarNodes.getNodeByPosition, Function.update_of_ne hne]
      refine ⟨(fun e => by cases e), fun ⟨hi, hix, hiy⟩ => ?_⟩
      obtain rfl := hnone i hi
      exact absurd ⟨hix.symm, hiy.symm⟩ hxy
  · exact absurd (hnone i hi) hi0
  · obtain rfl := hnone i hi
    rw [hnode]
    simp
  · obtain rfl := hnone i hi.1
    obtain rfl := hnone j hj
    exact absurd hi hnj

end Surroundings.Grown

end

end TibServer.PathSearch
