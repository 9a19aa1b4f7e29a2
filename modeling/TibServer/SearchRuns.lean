import TibServer.SearchNodes

/-!
The run of a path search: what holds between two iterations, that every iteration closes one more
node of the pool, so that the search ends, and what is known of the nodes when it does.
-/

namespace TibServer.PathSearch

open WalkCache (CombatType getOffsetX getOffsetY getDistanceY uint16)

variable {Tile : Type} {w : Surroundings Tile} {call : FrozenPathingConditionCall}
  {fpp : FindPathParams}

/-! ### The condition -/

section

variable {pos : Position} {b : Int}

theorem holds_best (h : (call.holds w w.position pos fpp b).1 = true) (hb : 0 ≤ b) :
    (call.holds w w.position pos fpp 0).1 = true := by
  unfold FrozenPathingConditionCall.holds at h ⊢
  dsimp only at h ⊢
  split_ifs at h ⊢ <;> first | rfl | omega

theorem holds_nonneg (hb : 0 ≤ b) : 0 ≤ (call.holds w w.position pos fpp b).2 := by
  unfold FrozenPathingConditionCall.holds
  dsimp only
  split_ifs <;> dsimp only <;> omega

theorem holds_adjacent (h : fpp.maxTargetDist = 1) :
    (call.holds w w.position pos fpp b).2 = b := by
  unfold FrozenPathingConditionCall.holds
  dsimp only
  split_ifs <;> rfl

theorem holds_false (h : (call.holds w w.position pos fpp b).1 = false) :
    (call.holds w w.position pos fpp b).2 = b := by
  unfold FrozenPathingConditionCall.holds at h ⊢
  dsimp only at h ⊢
  split_ifs at h ⊢ <;> rfl

/-- What ends the search ends it whatever was found before. -/
theorem holds_exact (h : call.holds w w.position pos fpp 0 = (true, 0))
    (hb : fpp.maxTargetDist = 1 → b = 0) : call.holds w w.position pos fpp b = (true, 0) := by
  unfold FrozenPathingConditionCall.holds at h ⊢
  dsimp only at h ⊢
  split_ifs at h ⊢
  -- the best match only counts between the distances
  all_goals first
    | (have hzero := (Prod.mk.inj h).2; omega)
    | simp_all

/-- What ends the search with a best match that was taken back is exact. -/
theorem holds_exact_of (h : call.holds w w.position pos fpp b = (true, 0))
    (hone : fpp.maxTargetDist ≠ 1) (hb : 0 ≤ b) :
    call.holds w w.position pos fpp 0 = (true, 0) := by
  unfold FrozenPathingConditionCall.holds at h ⊢
  dsimp only at h ⊢
  split_ifs at h ⊢
  all_goals first
    | (have hzero := (Prod.mk.inj h).2; omega)
    | simp_all

end

/-! ### Iterations -/

variable [DecidableEq Tile] {s s' : Search} {n fuel : Nat}

/-- Every neighbour that was looked at has a node, at no more than the step to it costs. -/
def Covered (w : Surroundings Tile) (call : FrozenPathingConditionCall) (fpp : FindPathParams)
    (nodes : AStarNodes) (i : Nat) : Prop :=
  ∀ offset ∈ nodes.neighbors fpp.allowDiagonal i,
    w.Admissible call fpp (w.shift (nodes.nodes i).x (nodes.nodes i).y offset) →
    w.Reached nodes (nodes.nodes i).f (nodes.nodes i)
      (w.shift (nodes.nodes i).x (nodes.nodes i).y offset)

/-- A search between two iterations. The first nodes are expanded before the pool can give out. -/
structure Sound (w : Surroundings Tile) (call : FrozenPathingConditionCall) (fpp : FindPathParams)
    (s : Search) : Prop where
  grown : w.Grown call fpp none s.nodes
  pool : (s.nodes.curNode : Int) ≤ 1 + 8 * s.nodes.closedNodes
  best_nonneg : 0 ≤ s.bestMatch
  best_adjacent : fpp.maxTargetDist = 1 → s.bestMatch = 0
  found : ∀ m, s.found = some m → m < s.nodes.curNode ∧ s.endPos = w.place (s.nodes.nodes m) ∧
    (call.holds w w.position s.endPos fpp 0).1 = true
  settled : ∀ m, s.found = some m → s.nodes.Expanded none m
  passed : s.found.isSome = true → s.bestMatch ≠ 0
  unmatched : ∀ i, s.nodes.Expanded none i →
    call.holds w w.position (w.place (s.nodes.nodes i)) fpp 0 ≠ (true, 0)
  covered : s.exhausted = false → ∀ i, s.nodes.Expanded none i → Covered w call fpp s.nodes i
  near : ∀ i, s.nodes.Expanded none i → (s.nodes.nodes i).f ≤ 10 → Covered w call fpp s.nodes i

theorem Sound.initial : Sound w call fpp w.initial where
  grown := .start
  pool := (by decide : (1 : Int) ≤ 1 + 8 * 0)
  best_nonneg := le_rfl
  best_adjacent _ := rfl
  found _ h := by cases h
  settled _ h := by cases h
  passed h := by cases h
  unmatched i hi := by
    obtain rfl : i = 0 := Nat.lt_one_iff.mp hi.1
    rcases hi.2 with h | h <;> cases h
  covered _ i hi := by
    obtain rfl : i = 0 := Nat.lt_one_iff.mp hi.1
    rcases hi.2 with h | h <;> cases h
  near i hi := by
    obtain rfl : i = 0 := Nat.lt_one_iff.mp hi.1
    rcases hi.2 with h | h <;> cases h

/-- The nodes after an iteration that goes on. -/
theorem iterate_goesOn (h : w.iterate call fpp s = .goesOn s') :
    ∃ n nodes b, s.nodes.getBestNode = some n ∧ w.isMatch call fpp s n = false ∧
      w.expand call fpp n (s.nodes.nodes n).f (s.nodes.neighbors fpp.allowDiagonal n) s.nodes =
        (nodes, b) ∧
      s' = { w.test call fpp s n with nodes := nodes.closeNode n
                                      exhausted := s.exhausted || !b } := by
  unfold Surroundings.iterate at h
  split at h
  · cases h
  · split at h
    · split at h <;> cases h
    · rename_i n hbest
      dsimp only at h
      split at h
      · cases h
      · rename_i hmatch
        have htest : (w.test call fpp s n).exhausted = s.exhausted := by
          unfold Surroundings.test
          dsimp only
          split <;> rfl
        split at h
        · rename_i nodes hexpand
          cases h
          refine ⟨n, nodes, true, hbest, by simpa using hmatch, hexpand, ?_⟩
          rw [← htest]
          simp
        · rename_i nodes hexpand
          split at h
          · cases h
            exact ⟨n, nodes, false, hbest, by simpa using hmatch, hexpand, by simp⟩
          · cases h

theorem iterate_ends (h : w.iterate call fpp s = .ends s') :
    s' = s ∨ ∃ n, s.nodes.getBestNode = some n ∧ w.isMatch call fpp s n = true ∧
      s' = w.test call fpp s n := by
  unfold Surroundings.iterate at h
  split at h
  · cases h
    exact .inl rfl
  · split at h
    · split at h
      · cases h
        exact .inl rfl
      · cases h
    · rename_i n hbest
      dsimp only at h
      split at h
      · rename_i hmatch
        cases h
        exact .inr ⟨n, hbest, hmatch, rfl⟩
      · split at h
        · cases h
        · split at h <;> cases h

omit [DecidableEq Tile] in
/-- The node that is being looked at, by the condition. -/
theorem test_eq (w : Surroundings Tile) (call : FrozenPathingConditionCall)
    (fpp : FindPathParams) (s : Search) (n : Nat) :
    let pos := w.place (s.nodes.nodes n)
    let r := call.holds w w.position pos fpp s.bestMatch
    w.test call fpp s n = { s with
      found := if r.1 then some n else s.found
      endPos := if r.1 then pos else s.endPos
      bestMatch := r.2 } := by
  intro pos r
  have hr : call.holds w w.position pos fpp s.bestMatch = r := rfl
  obtain ⟨b, best⟩ := r
  unfold Surroundings.test
  dsimp only
  rw [show (⟨(s.nodes.nodes n).x, (s.nodes.nodes n).y, w.position.z⟩ : Position) = pos from rfl, hr]
  cases b <;> rfl

omit [DecidableEq Tile] in
theorem isMatch_eq_true (s : Search) (n : Nat) : w.isMatch call fpp s n = true ↔
    call.holds w w.position (w.place (s.nodes.nodes n)) fpp s.bestMatch = (true, 0) := by
  simp [Surroundings.isMatch, Surroundings.place]

section

variable {nodes nodes' : AStarNodes}

/-- No node is closed while another one is expanded. -/
theorem closedNodes_expand (hg : w.Grown call fpp (some n) nodes)
    (hg' : w.Grown call fpp (some n) nodes') (h : nodes.Grows n nodes') :
    nodes'.closedNodes = nodes.closedNodes := by
  have hclosed {nodes : AStarNodes} (hg : w.Grown call fpp (some n) nodes) (i : Nat) :
      i ∈ (Finset.range nodes.curNode).filter (nodes.openNodes · = false) ↔
        nodes.Expanded (some n) i ∧ i ≠ n := by
    have hopen := (hg.current n rfl).2.1
    rw [Finset.mem_filter, Finset.mem_range]
    refine ⟨fun ⟨hi, hf⟩ => ⟨⟨hi, .inl hf⟩, ?_⟩, fun ⟨⟨hi, hf⟩, hne⟩ => ⟨hi, ?_⟩⟩
    · rintro rfl
      rw [hopen] at hf
      cases hf
    · rcases hf with hf | e
      · exact hf
      · exact absurd (Option.some.inj e).symm hne
  rw [hg.closed, hg'.closed]
  congr 2
  ext i
  rw [hclosed hg, hclosed hg', h.expanded i]

theorem Covered.grows {i : Nat} (hc : Covered w call fpp nodes i)
    (hg : w.Grown call fpp (some n) nodes) (h : nodes.Grows n nodes')
    (hi : nodes.Expanded (some n) i) : Covered w call fpp nodes' i := by
  intro offset ho hadm
  rw [hg.neighbors_eq h hi] at ho
  rw [h.settled i hi] at hadm ⊢
  exact (hc offset ho hadm).grows h

/-! ### The first nodes -/

theorem place_injOn {o : Option Nat} (hg : w.Grown call fpp o nodes) {i j : Nat}
    (hi : i < nodes.curNode) (hj : j < nodes.curNode) (h : w.place (nodes.nodes i) = w.place (nodes.nodes j)) : i = j := by
  obtain ⟨hx, hy⟩ := hg.inMap i hi
  have hfind := (hg.position_eq i (w.place (nodes.nodes i)) hx hy rfl).mpr ⟨hi, rfl⟩
  have hfind' := (hg.position_eq j (w.place (nodes.nodes i)) hx hy rfl).mpr
    ⟨hj, h.symm⟩
  exact Option.some.inj (hfind.symm.trans hfind')

/-- What costs one step at most is the start or beside it. -/
theorem place_near {i : Nat} (hg : w.Grown call fpp (some n) nodes) (hi : i < nodes.curNode)
    (hf : (nodes.nodes i).f ≤ 10) : w.place (nodes.nodes i) ∈
      w.position :: allNeighbors.map (w.shift w.position.x w.position.y) := by
  by_cases hi0 : i = 0
  · subst hi0
    rw [hg.root]
    exact List.mem_cons_self
  · obtain ⟨p, offset, hp⟩ := hg.child i hi hi0
    have hstep := w.stepCost_bounds (nodes.nodes p) (w.place (nodes.nodes i))
    have hcost := hp.cost
    have hp0 : p = 0 := by
      by_contra hp0
      obtain ⟨q, _, hq⟩ := hg.child p hp.expanded.1 hp0
      have hstep' := w.stepCost_bounds (nodes.nodes q) (w.place (nodes.nodes p))
      have hcost' := hq.cost
      have := (hg.bounds q hq.expanded.1).1
      omega
    subst hp0
    refine List.mem_cons_of_mem _ (List.mem_map.mpr ⟨offset, ?_, ?_⟩)
    · exact neighbors_subset _ _ _ hp.mem
    · rw [hp.place, hg.root]

theorem closedNodes_near (hg : w.Grown call fpp (some n) nodes) (hf : (nodes.nodes n).f ≤ 10) :
    nodes.closedNodes ≤ 9 := by
  have hle : ((Finset.range nodes.curNode).filter (nodes.openNodes · = false)).card ≤
      (w.position :: allNeighbors.map (w.shift w.position.x w.position.y)).toFinset.card := by
    refine Finset.card_le_card_of_injOn (fun i => w.place (nodes.nodes i)) (fun i hi => ?_) ?_
    · simp only [Finset.coe_filter, Finset.mem_range, Set.mem_ofPred_eq] at hi
      have hlow := hg.le_current ⟨hi.1, .inl hi.2⟩
      exact List.mem_toFinset.mpr (place_near hg hi.1 (hlow.trans hf))
    · intro i hi j hj h
      simp only [Finset.coe_filter, Finset.mem_range, Set.mem_ofPred_eq] at hi hj
      exact place_injOn hg hi.1 hj.1 h
  have hlist := List.toFinset_card_le
    (w.position :: allNeighbors.map (w.shift w.position.x w.position.y))
  have hnine : (w.position :: allNeighbors.map (w.shift w.position.x w.position.y)).length = 9 :=
    rfl
  rw [hg.closed]
  omega

end

theorem neighbors_length (nodes : AStarNodes) (allowDiagonal : Bool) (n : Nat) :
    (nodes.neighbors allowDiagonal n).length ≤ 8 := by
  unfold AStarNodes.neighbors
  cases (nodes.nodes n).parent with
  | none => exact le_rfl
  | some p =>
      have htable (d : Direction) : (dirNeighbors d).length ≤ 8 := by
        cases d <;> decide
      exact (List.length_take_le' _ _).trans (htable _)

/-- What the condition finds in a node that does not end the search. -/
theorem Sound.test (hs : Sound w call fpp s)
    (hmatch : w.isMatch call fpp s n = false) :
    let t := w.test call fpp s n
    0 ≤ t.bestMatch ∧ (fpp.maxTargetDist = 1 → t.bestMatch = 0) ∧
      (t.found.isSome = true → t.bestMatch ≠ 0) ∧
      ∀ m, t.found = some m → m = n ∧ t.endPos = w.place (s.nodes.nodes n) ∧
        (call.holds w w.position t.endPos fpp 0).1 = true ∨
        s.found = some m ∧ t.endPos = s.endPos := by
  have heq := test_eq w call fpp s n
  dsimp only at heq
  have hne : ¬call.holds w w.position (w.place (s.nodes.nodes n)) fpp s.bestMatch = (true, 0) := by
    rw [← isMatch_eq_true, hmatch]
    exact Bool.false_ne_true
  dsimp only
  rw [heq]
  dsimp only
  refine ⟨holds_nonneg hs.best_nonneg, fun h => ?_, fun hfound => ?_, fun m hm => ?_⟩
  · rw [holds_adjacent h]
    exact hs.best_adjacent h
  · cases hr : (call.holds w w.position (w.place (s.nodes.nodes n)) fpp s.bestMatch).1 with
    | true => exact fun h => hne (Prod.ext hr h)
    | false =>
        rw [holds_false hr]
        rw [hr] at hfound
        exact hs.passed hfound
  · cases hr : (call.holds w w.position (w.place (s.nodes.nodes n)) fpp s.bestMatch).1 with
    | true =>
        rw [hr] at hm
        exact .inl ⟨(Option.some.inj hm).symm, rfl, holds_best hr hs.best_nonneg⟩
    | false =>
        rw [hr] at hm
        exact .inr ⟨hm, rfl⟩

theorem Sound.goesOn (hs : Sound w call fpp s) (h : w.iterate call fpp s = .goesOn s') :
    Sound w call fpp s' ∧ s'.nodes.closedNodes = s.nodes.closedNodes + 1 := by
  obtain ⟨n, nodes, b, hbest, hmatch, hexpand, rfl⟩ := iterate_goesOn h
  have hg := hs.grown.begin hbest
  have hn := hg.expanded_current
  obtain ⟨hg', hgrows, hreached⟩ := hg.expand (List.Subset.refl _) hexpand
  obtain ⟨hcur, hfull⟩ := expand_curNode hexpand
  have hlength := neighbors_length s.nodes fpp.allowDiagonal n
  have hclosed := closedNodes_expand hg hg' hgrows
  obtain ⟨hnonneg, hadjacent, hpassed, hfound⟩ := hs.test hmatch
  -- what is expanded now was before, or is the node itself
  have hexpanded (i : Nat) (hi : (nodes.closeNode n).Expanded none i) :
      s.nodes.Expanded (some n) i := (hgrows.expanded i).mp ((hg'.closeNode_expanded i).mp hi)
  have hbefore (i : Nat) (hi : s.nodes.Expanded (some n) i) : s.nodes.Expanded none i ∨ i = n := by
    rcases hi.2 with hclosed | e
    · exact .inl ⟨hi.1, .inl hclosed⟩
    · exact .inr (Option.some.inj e).symm
  have hself : b = true → Covered w call fpp nodes n := by
    intro hb offset ho hadm
    rw [hg.neighbors_eq hgrows hn] at ho
    rw [hgrows.settled n hn] at hadm ⊢
    exact hreached hb offset ho hadm
  have hmark {m : Nat} (hm : (w.test call fpp s n).found = some m) :
      s.nodes.Expanded (some n) m ∧
        (w.test call fpp s n).endPos = w.place (s.nodes.nodes m) ∧
        (call.holds w w.position (w.test call fpp s n).endPos fpp 0).1 = true := by
    rcases hfound m hm with ⟨rfl, hend, hholds⟩ | ⟨hold, hend⟩
    · exact ⟨hn, hend, hholds⟩
    · obtain ⟨-, hend', hholds⟩ := hs.found m hold
      have hset := hs.settled m hold
      exact ⟨⟨hset.1, .inl (hset.2.resolve_right (by simp))⟩, hend.trans hend', hend ▸ hholds⟩
  refine ⟨⟨hg'.close, ?_, hnonneg, hadjacent, fun m hm => ?_, fun m hm => ?_, hpassed,
    fun i hi => ?_, fun hex i hi => ?_, fun i hi hf => ?_⟩, ?_⟩
  · have hpool := hs.pool
    change (nodes.curNode : Int) ≤ 1 + 8 * (nodes.closedNodes + 1)
    omega
  · obtain ⟨hexp, hend, hholds⟩ := hmark hm
    refine ⟨hexp.1.trans_le hgrows.curNode_le, hend.trans ?_, hholds⟩
    exact congrArg _ (hgrows.settled m hexp).symm
  · exact (hg'.closeNode_expanded m).mpr ((hgrows.expanded m).mpr (hmark hm).1)
  · have hi' := hexpanded i hi
    have hnode : (nodes.closeNode n).nodes i = s.nodes.nodes i := hgrows.settled i hi'
    rw [hnode]
    rcases hbefore i hi' with hi' | rfl
    · exact hs.unmatched i hi'
    · intro hzero
      have := (isMatch_eq_true s i).mpr (holds_exact hzero hs.best_adjacent)
      rw [hmatch] at this
      cases this
  · simp only [Bool.or_eq_false_iff, Bool.not_eq_false'] at hex
    rcases hbefore i (hexpanded i hi) with hi' | rfl
    · have hcovered := (hs.covered hex.1 i hi').grows hg hgrows (hexpanded i hi)
      exact hcovered
    · exact hself hex.2
  · have hnode : (nodes.closeNode n).nodes i = s.nodes.nodes i :=
      hgrows.settled i (hexpanded i hi)
    rw [hnode] at hf
    rcases hbefore i (hexpanded i hi) with hi' | rfl
    · have hcovered := (hs.near i hi' hf).grows hg hgrows (hexpanded i hi)
      exact hcovered
    · refine hself (Bool.eq_true_of_not_eq_false fun hb => ?_)
      have hnine := closedNodes_near hg hf
      have hlt := hfull hb
      have hpool := hs.pool
      have hmax : MAX_NODES = 512 := rfl
      omega
  · change nodes.closedNodes + 1 = _
    rw [hclosed]

/-! ### The run -/

/-- However a search ends, it was sound in the iteration that ended it. -/
theorem search_spec (hs : Sound w call fpp s) (h : w.search call fpp fuel s = some (some s')) :
    ∃ t, Sound w call fpp t ∧ w.iterate call fpp t = .ends s' := by
  induction fuel generalizing s with
  | zero => cases h
  | succ fuel ih =>
      unfold Surroundings.search at h
      split at h
      · rename_i t hit
        exact ih (hs.goesOn hit).1 h
      · rename_i t hit
        cases h
        exact ⟨s, hs, hit⟩
      · cases h

/-- Each iteration closes a node of the pool. -/
theorem search_terminates (hs : Sound w call fpp s) (fuel : Nat)
    (hfuel : MAX_NODES < s.nodes.closedNodes + fuel) : (w.search call fpp fuel s).isSome := by
  induction fuel generalizing s with
  | zero =>
      have := hs.grown.closedNodes_le
      omega
  | succ fuel ih =>
      unfold Surroundings.search
      split
      · rename_i t hit
        obtain ⟨ht, hclosed⟩ := hs.goesOn hit
        exact ih ht (by rw [hclosed]; omega)
      · rfl
      · rfl

end TibServer.PathSearch
