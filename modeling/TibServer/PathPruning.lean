import TibServer.PathValidity

/-!
What is left out of a path search. After the first step only the neighbours away from the parent
are looked at, which costs nothing: the others are reached from the parent as cheaply. Without
diagonal steps that leaves no diagonal one, except where a path begins.
-/

namespace TibServer.PathSearch

open WalkCache (CombatType getOffsetX getOffsetY getDistanceY uint16)
open ShortestPaths

variable {Tile : Type} [DecidableEq Tile] {w : Surroundings Tile}
  {call : FrozenPathingConditionCall} {fpp : FindPathParams} {s s' : Search}
  {nodes : AStarNodes} {i j m n p fuel : Nat} {o : Option Nat} {q : Position} {c : Int}
  {d e : Direction} {dirs : List Direction}

/-! ### Pruned neighbours -/

/-- A neighbour that is left out is the parent, or the parent's and no farther from it. -/
theorem pruned_cases (d e : Direction)
    (h : e.offset ∉ dirNeighbors (parentDirection true (-d.offset.1) (-d.offset.2))) :
    (d.offset.1 + e.offset.1 = 0 ∧ d.offset.2 + e.offset.2 = 0) ∨
      ∃ b : Direction, b.offset.1 = d.offset.1 + e.offset.1 ∧
        b.offset.2 = d.offset.2 + e.offset.2 ∧ b.cost ≤ d.cost + e.cost := by
  cases d <;> cases e <;> first
    | exact absurd (by decide) h
    | exact .inl (by decide)
    | exact .inr ⟨.north, by decide⟩
    | exact .inr ⟨.east, by decide⟩
    | exact .inr ⟨.south, by decide⟩
    | exact .inr ⟨.west, by decide⟩

theorem neighbors_child {offset : Int × Int} {allowDiagonal : Bool}
    (h : (nodes.nodes i).parent = some p) :
    offset ∈ nodes.neighbors allowDiagonal i ↔
      offset ∈ (dirNeighbors (parentDirection allowDiagonal
        ((nodes.nodes p).x - (nodes.nodes i).x) ((nodes.nodes p).y - (nodes.nodes i).y))).take
        (if allowDiagonal then 5 else 3) := by
  unfold AStarNodes.neighbors
  rw [h]

theorem take_dirNeighbors (d : Direction) : (dirNeighbors d).take 5 = dirNeighbors d := by
  cases d <;> rfl

/-- A step that was looked at. -/
theorem Covered.edge (hc : Covered w call fpp nodes i)
    (h : w.Edge call fpp d (w.place (nodes.nodes i)) q c)
    (hd : d.offset ∈ nodes.neighbors fpp.allowDiagonal i) :
    ∃ j < nodes.curNode, w.place (nodes.nodes j) = q ∧
      (nodes.nodes j).f ≤ (nodes.nodes i).f + c := by
  have hshift : w.shift (nodes.nodes i).x (nodes.nodes i).y d.offset = q :=
    shift_eq (p := w.place (nodes.nodes i)) h.admissible.x_lt h.admissible.y_lt h.x h.y h.z
  obtain ⟨j, hj, hplace, hf⟩ := hc d.offset hd (hshift ▸ h.admissible)
  refine ⟨j, hj, hplace.trans hshift, hf.trans ?_⟩
  rw [hshift, Surroundings.stepCost, getMapWalkCost_eq h.x h.y, h.cost]

/-- All steps from what is expanded have nodes, by induction on the cost of the nodes. -/
theorem covered_edge (hg : w.Grown call fpp none nodes) (hdiagonal : fpp.allowDiagonal = true)
    (hinland : w.Inland call fpp)
    (hcovered : ∀ i, nodes.Expanded none i → Covered w call fpp nodes i) (k : Nat)
    (hi : nodes.Expanded none i) (hk : (nodes.nodes i).f < k)
    (h : w.Edge call fpp e (w.place (nodes.nodes i)) q c) :
    ∃ j < nodes.curNode, w.place (nodes.nodes j) = q ∧
      (nodes.nodes j).f ≤ (nodes.nodes i).f + c := by
  induction k generalizing i e q c with
  | zero =>
      have := (hg.bounds i hi.1).1
      omega
  | succ k ih =>
      by_cases hlooked : e.offset ∈ nodes.neighbors fpp.allowDiagonal i
      · exact (hcovered i hi).edge h hlooked
      · by_cases hi0 : i = 0
        · subst hi0
          refine absurd ?_ hlooked
          unfold AStarNodes.neighbors
          rw [hg.root]
          exact e.offset_mem
        · obtain ⟨p, _, hp⟩ := hg.child i hi.1 hi0
          obtain ⟨d, hedge, -⟩ := child_edge hg hinland hp
          have hstep := w.stepCost_bounds (nodes.nodes p) (w.place (nodes.nodes i))
          have hcost := hp.cost
          have hx := hedge.x
          have hy := hedge.y
          have hdx : ((nodes.nodes p).x : Int) - (nodes.nodes i).x = -d.offset.1 := by
            simp only [Surroundings.place] at hx
            omega
          have hdy : ((nodes.nodes p).y : Int) - (nodes.nodes i).y = -d.offset.2 := by
            simp only [Surroundings.place] at hy
            omega
          rw [neighbors_child hp.parent, hdiagonal, hdx, hdy, if_pos rfl, take_dirNeighbors]
            at hlooked
          have hnonneg := edge_nonneg h
          rcases pruned_cases d e hlooked with ⟨hx0, hy0⟩ | ⟨b, hbx, hby, hbcost⟩
          · -- back to the parent
            refine ⟨p, hp.expanded.1, ?_, by omega⟩
            have hqx := h.x
            have hqy := h.y
            have hqz := h.z
            obtain ⟨x, y, z⟩ := q
            simp only [Surroundings.place] at hx hy hqx hqy hqz ⊢
            simp only [Position.mk.injEq]
            omega
          · -- a neighbour of the parent
            have hqcost := h.cost
            have hicost := hedge.cost
            have htile := w.tileCost_bounds (w.place (nodes.nodes i))
            have hfrom : w.Edge call fpp b (w.place (nodes.nodes p)) q (b.cost + w.tileCost q) :=
              ⟨h.admissible, by rw [h.x, hx, hbx]; omega, by rw [h.y, hy, hby]; omega,
                h.z.trans hedge.z, rfl⟩
            obtain ⟨j, hj, hplace, hf⟩ := ih hp.expanded (by omega) hfrom
            exact ⟨j, hj, hplace, by omega⟩

/-! ### The least cost -/

/-- Where a search ends at once. -/
def Surroundings.Exact (w : Surroundings Tile) (call : FrozenPathingConditionCall)
    (fpp : FindPathParams) (pos : Position) : Prop :=
  call.holds w w.position pos fpp 0 = (true, 0)

/-- A search that ended without a best match only was ended by a match. -/
theorem ends_match (hs : Sound w call fpp s) (h : w.iterate call fpp s = .ends s')
    (hfound : s'.found.isSome = true) (hbest : s'.bestMatch = 0) :
    ∃ n, s.nodes.getBestNode = some n ∧ w.isMatch call fpp s n = true ∧
      s' = w.test call fpp s n := by
  rcases iterate_ends h with rfl | hmatch
  · exact absurd hbest (hs.passed hfound)
  · exact hmatch

theorem match_exact (hs : Sound w call fpp s) (h : w.isMatch call fpp s n = true) :
    w.Exact call fpp (w.place (s.nodes.nodes n)) ∧ (w.test call fpp s n).found = some n ∧
      (w.test call fpp s n).exhausted = s.exhausted := by
  have hr := (isMatch_eq_true s n).mp h
  have heq := test_eq w call fpp s n
  dsimp only at heq
  rw [hr] at heq
  refine ⟨?_, by rw [heq]; rfl, by rw [heq]⟩
  have hfirst := holds_best (congrArg Prod.fst hr) hs.best_nonneg
  by_cases hone : fpp.maxTargetDist = 1
  · exact Prod.ext hfirst (holds_adjacent hone)
  · exact holds_exact_of hr hone hs.best_nonneg

/-- With diagonal steps and while the pool holds out, a path to an exact match costs the least. -/
theorem Surroundings.path_cheapest {fuel : Nat} {s : Search} {dirs : List Direction}
    (hdiagonal : fpp.allowDiagonal = true) (hinland : w.Inland call fpp)
    (hrun : w.search call fpp fuel w.initial = some (some s)) (hfound : s.found.isSome = true)
    (hbest : s.bestMatch = 0) (hpool : s.exhausted = false)
    (hreturns : w.Returns call fpp (some dirs)) :
    Cheapest (w.Edge call fpp) (w.Exact call fpp) w.position dirs := by
  obtain ⟨bound, hbound⟩ := hreturns
  obtain ⟨t, s', m, ht, hit, hrun', hm, hretrace⟩ :=
    returned_cases (hbound (max bound fuel) (le_max_left bound fuel))
  obtain rfl : s = s' := by
    have := (search_mono (le_max_right bound fuel) hrun).symm.trans hrun'
    exact Option.some.inj (Option.some.inj this)
  obtain ⟨n, hfirst, hmatch, rfl⟩ := ends_match ht hit hfound hbest
  obtain ⟨hexact, hfoundn, hsame⟩ := match_exact ht hmatch
  obtain rfl : n = m := Option.some.inj (hfoundn.symm.trans hm)
  rw [hsame] at hpool
  obtain ⟨hn, -, hleast⟩ := AStarNodes.getBestNode_spec hfirst
  have hg := ht.grown
  have hpath := retrace_path hg hinland hn (.nil _) hretrace
  rw [add_zero] at hpath
  have hopen {j : Nat} (hj : j < t.nodes.curNode) (h : ¬t.nodes.Expanded none j) :
      (t.nodes.nodes n).f ≤ (t.nodes.nodes j).f :=
    hleast j hj (Grown.open_of_not_expanded hj h)
  -- settled is what was expanded, at the cost of its node
  refine hpath.cheapest (fun v y => ∃ i, t.nodes.Expanded none i ∧
    w.place (t.nodes.nodes i) = v ∧ (t.nodes.nodes i).f = y) hexact edge_nonneg ?_ ?_ ?_
  · rintro d u v x c ⟨i, hi, rfl, rfl⟩ hedge
    obtain ⟨j, hj, hplace, hf⟩ := covered_edge hg hdiagonal hinland (ht.covered hpool)
      ((t.nodes.nodes i).f.toNat + 1) hi (by have := (hg.bounds i hi.1).1; omega) hedge
    by_cases hexp : t.nodes.Expanded none j
    · exact .inr ⟨_, hf, j, hexp, hplace, rfl⟩
    · exact .inl ((hopen hj hexp).trans hf)
  · have hroot := hg.root
    by_cases hexp : t.nodes.Expanded none 0
    · exact .inr ⟨0, hexp, by rw [hroot]; rfl, by rw [hroot]⟩
    · have := hopen hg.pos hexp
      rw [hroot] at this
      exact .inl this
  · rintro v y ⟨i, hi, rfl, -⟩ hgoal
    exact absurd hgoal (ht.unmatched i hi)

namespace Sample

theorem border_lt : 65535 < 65536 := by decide

theorem near_border_lt : 5 < 65536 := by decide

/-- Two tiles to the east of the creature over the border, and a way round. -/
def isle : Surroundings Position :=
  floor ⟨65535, 5, 7⟩ border_lt near_border_lt
    [⟨65535, 5, 7⟩, ⟨0, 5, 7⟩, ⟨1, 5, 7⟩, ⟨0, 6, 7⟩, ⟨1, 7, 7⟩, ⟨2, 6, 7⟩]

/-- Over the border the offset of the parent is not understood, and two steps for 20 are missed
for four. -/
theorem isle_dearer :
    (isle.search ⟨⟨1, 5, 7⟩⟩ (exactly true) 20 isle.initial).map (Option.map fun s =>
        (s.found.map fun m => (s.nodes.nodes m).f, s.bestMatch, s.exhausted)) =
      some (some (some 85, 0, false)) ∧
    isle.Returns ⟨⟨1, 5, 7⟩⟩ (exactly true)
      (some [.south, .southeast, .northeast, .northwest]) ∧
    (isle.shift 65535 5 (1, 0) = ⟨0, 5, 7⟩ ∧ (isle.canWalkTo ⟨0, 5, 7⟩).isSome = true ∧
      isle.tileCost ⟨0, 5, 7⟩ = 0) ∧
    (isle.shift 0 5 (1, 0) = ⟨1, 5, 7⟩ ∧ (isle.canWalkTo ⟨1, 5, 7⟩).isSome = true ∧
      isle.tileCost ⟨1, 5, 7⟩ = 0) ∧
    ¬Cheapest (isle.Edge ⟨⟨1, 5, 7⟩⟩ (exactly true)) (isle.Exact ⟨⟨1, 5, 7⟩⟩ (exactly true))
      isle.position [.south, .southeast, .northeast, .northwest] := by
  refine ⟨by decide, returns_of_run 20 (by decide), by decide, by decide, ?_⟩
  rintro ⟨t, c, hpath, -⟩
  obtain _ | ⟨hedge, -⟩ := hpath
  have hmem := floor_admissible hedge.admissible
  have hx := hedge.x
  have hy := hedge.y
  simp only [Direction.offset, isle, floor, List.mem_cons, List.not_mem_nil, or_false] at hx hy hmem
  rcases hmem with rfl | rfl | rfl | rfl | rfl | rfl <;> simp at hx hy

theorem six_lt : 6 < 65536 := by decide

/-- A row of tiles. -/
def meadow : Surroundings Position :=
  floor ⟨5, 6, 7⟩ near_border_lt six_lt [⟨5, 6, 7⟩, ⟨6, 6, 7⟩, ⟨7, 7, 7⟩]

theorem meadow_inland (call : FrozenPathingConditionCall) (fpp : FindPathParams) :
    meadow.Inland call fpp := by
  refine inland_of_interior fun p hp => ?_
  rcases hp with rfl | hp
  · decide
  · have hall : ∀ p ∈ [(⟨5, 6, 7⟩ : Position), ⟨6, 6, 7⟩, ⟨7, 7, 7⟩],
        (1 ≤ p.x ∧ p.x ≤ 65534) ∧ 1 ≤ p.y ∧ p.y ≤ 65534 := by decide
    exact hall p (floor_admissible hp)

theorem meadow_cheapest : Cheapest (meadow.Edge ⟨⟨7, 7, 7⟩⟩ (exactly true))
    (meadow.Exact ⟨⟨7, 7, 7⟩⟩ (exactly true)) meadow.position [.east, .southeast] := by
  have hend : (meadow.search ⟨⟨7, 7, 7⟩⟩ (exactly true) 10 meadow.initial).map (Option.map fun s =>
      (s.found.isSome, s.bestMatch, s.exhausted)) = some (some (true, 0, false)) := by decide
  obtain ⟨r, hrun, hr⟩ := Option.map_eq_some_iff.mp hend
  obtain ⟨s, rfl, hs⟩ := Option.map_eq_some_iff.mp hr
  simp only [Prod.mk.injEq] at hs
  exact Surroundings.path_cheapest rfl (meadow_inland _ _) hrun hs.1 hs.2.1 hs.2.2
    (returns_of_run 10 (by decide))

end Sample

/-! ### Without diagonal steps -/

theorem directionFrom_isDiagonal {dx dy : Int} (h : directionFrom dx dy = some d)
    (hd : d.isDiagonal = true) : dx = -d.offset.1 ∧ dy = -d.offset.2 := by
  unfold directionFrom at h
  split_ifs at h <;> cases h <;> simp_all [Direction.isDiagonal, Direction.offset]

/-- Of the neighbours of a node with a parent, the first three are beside it. -/
theorem take_three (dx dy : Int) {offset : Int × Int}
    (h : offset ∈ (dirNeighbors (parentDirection false dx dy)).take 3) :
    offset.1 = 0 ∨ offset.2 = 0 := by
  have hall : ∀ d : Direction, d.isDiagonal = false →
      ∀ offset ∈ (dirNeighbors d).take 3, offset.1 = 0 ∨ offset.2 = 0 := by
    intro d hd
    cases d <;> first | decide | cases hd
  refine hall _ ?_ offset h
  unfold parentDirection
  split_ifs <;> simp_all [Direction.isDiagonal]

/-- After the first step, no step that is found is diagonal. -/
theorem child_orthogonal {offset : Int × Int} (hg : w.Grown call fpp o nodes)
    (hflag : fpp.allowDiagonal = false) (hp : w.Child call fpp nodes o i p offset) (hp0 : p ≠ 0)
    (h : directionFrom ((nodes.nodes p).x - (nodes.nodes i).x)
      ((nodes.nodes p).y - (nodes.nodes i).y) = some d) : d.isDiagonal = false := by
  obtain ⟨q, _, hq⟩ := hg.child p hp.expanded.1 hp0
  have hmem := hp.mem
  rw [neighbors_child hq.parent, hflag, if_neg Bool.false_ne_true] at hmem
  have hxy := hg.inMap p hp.expanded.1
  have hplace := Position.mk.inj hp.place
  refine Bool.eq_false_iff.mpr fun hd => ?_
  obtain ⟨hdx, hdy⟩ := directionFrom_isDiagonal h hd
  have hne : d.offset.1 ≠ 0 ∧ d.offset.2 ≠ 0 := by
    revert hd
    cases d <;> decide
  have hx := hplace.1
  have hy := hplace.2.1
  rcases take_three _ _ hmem with h0 | h0
  · rw [h0] at hx
    unfold uint16 at hx
    omega
  · rw [h0] at hy
    unfold uint16 at hy
    omega

/-- Beside every diagonal neighbour of the start that can be walked to there is a free position,
one step from both. -/
def Surroundings.CornersFree (w : Surroundings Tile) (call : FrozenPathingConditionCall)
    (fpp : FindPathParams) : Prop :=
  ∀ d q c, d.isDiagonal = true → w.Edge call fpp d w.position q c →
    ∃ a e e' c', e.isDiagonal = false ∧ e'.isDiagonal = false ∧
      w.Edge call fpp e w.position a 10 ∧ w.Edge call fpp e' a q c'

/-- The diagonal directions of a list are that of a step from the start. -/
theorem retrace_orthogonal {dirList : List Direction} (hg : w.Grown call fpp o nodes)
    (hflag : fpp.allowDiagonal = false) (hi : i < nodes.curNode)
    (hlist : ∀ d ∈ dirList, d.isDiagonal = false)
    (h : nodes.retrace fuel (nodes.nodes i).parent (nodes.nodes i).x (nodes.nodes i).y dirList =
      some dirs) :
    (∀ d ∈ dirs.tail, d.isDiagonal = false) ∧ ∀ d ∈ dirs, d.isDiagonal = true →
      ∃ k offset, (k = i ∨ nodes.Expanded o k) ∧ k < nodes.curNode ∧
        w.Child call fpp nodes o k 0 offset ∧
        directionFrom ((nodes.nodes 0).x - (nodes.nodes k).x)
          ((nodes.nodes 0).y - (nodes.nodes k).y) = some d := by
  induction fuel generalizing i dirList with
  | zero => cases h
  | succ fuel ih =>
      by_cases hi0 : i = 0
      · subst hi0
        rw [hg.root] at h
        obtain rfl := Option.some.inj h
        refine ⟨fun d hd => hlist d (List.mem_of_mem_tail hd), fun d hd hdiag => ?_⟩
        rw [hlist d hd] at hdiag
        cases hdiag
      · obtain ⟨p, offset, hp⟩ := hg.child i hi hi0
        rw [hp.parent] at h
        unfold AStarNodes.retrace at h
        dsimp only at h
        by_cases hp0 : p = 0
        · subst hp0
          rw [hg.root] at h
          cases fuel with
          | zero => cases h
          | succ fuel =>
              obtain rfl := Option.some.inj h
              refine ⟨fun d hd => ?_, fun d hd hdiag => ?_⟩
              · cases hdir : directionFrom (w.position.x - (nodes.nodes i).x)
                    (w.position.y - (nodes.nodes i).y) with
                | none =>
                    simp only [hdir] at hd
                    exact hlist d (List.mem_of_mem_tail hd)
                | some b =>
                    simp only [hdir] at hd
                    exact hlist d hd
              · rcases List.mem_append.mp hd with hd | hd
                · refine ⟨i, offset, .inl rfl, hi, hp, ?_⟩
                  rw [hg.root]
                  exact Option.mem_toList.mp hd
                · rw [hlist d hd] at hdiag
                  cases hdiag
        · have hdirs (d : Direction) (hd : d ∈ (directionFrom
              ((nodes.nodes p).x - (nodes.nodes i).x)
              ((nodes.nodes p).y - (nodes.nodes i).y)).toList ++ dirList) :
              d.isDiagonal = false := by
            rcases List.mem_append.mp hd with hd | hd
            · exact child_orthogonal hg hflag hp hp0 (Option.mem_toList.mp hd)
            · exact hlist d hd
          obtain ⟨htail, hfirst⟩ := ih hp.expanded.1 hdirs h
          refine ⟨htail, fun d hd hdiag => ?_⟩
          obtain ⟨k, offset', hk, rest⟩ := hfirst d hd hdiag
          exact ⟨k, offset', .inr (hk.elim (fun e => e ▸ hp.expanded) id), rest⟩

/-- The second of two steps around a corner is looked at. -/
theorem corner_neighbors {e' : Direction} (he : e.isDiagonal = false) (he' : e'.isDiagonal = false)
    (hd : d.isDiagonal = true) (hx : d.offset.1 = e.offset.1 + e'.offset.1)
    (hy : d.offset.2 = e.offset.2 + e'.offset.2) :
    e'.offset ∈ (dirNeighbors (parentDirection false (-e.offset.1) (-e.offset.2))).take 3 := by
  cases e <;> first
    | cases he; done
    | (cases e' <;> first
        | cases he'; done
        | (cases d <;> first
            | cases hd; done
            | cases hx; done
            | cases hy; done
            | decide))

/-- What costs less than a node of the list was expanded. -/
theorem expanded_of_lt (hs : Sound w call fpp s) (hit : w.iterate call fpp s = .ends s')
    (hm : s'.found = some m) (hi : i = m ∨ s.nodes.Expanded none i) (hj : j < s.nodes.curNode)
    (hlt : (s.nodes.nodes j).f < (s.nodes.nodes i).f) : s.nodes.Expanded none j := by
  by_contra hj'
  have hfrom (hi : s.nodes.Expanded none i) : False :=
    absurd (hs.grown.frontier hi hj hj') (not_le.mpr hlt)
  rcases hi with rfl | hi
  · rcases iterate_ends hit with rfl | ⟨n, hbest, hmatch, rfl⟩
    · exact hfrom (hs.settled i hm)
    · obtain ⟨-, hn, -⟩ := match_exact hs hmatch
      obtain rfl : n = i := Option.some.inj (hn.symm.trans hm)
      obtain ⟨-, -, hleast⟩ := AStarNodes.getBestNode_spec hbest
      exact absurd (hleast j hj (Surroundings.Grown.open_of_not_expanded hj hj'))
        (not_le.mpr hlt)
  · exact hfrom hi

/-- Around a free corner two steps cost less than the diagonal one. -/
theorem corner_shorter (hs : Sound w call fpp s) (hit : w.iterate call fpp s = .ends s')
    (hm : s'.found = some m) (hflag : fpp.allowDiagonal = false)
    (hfree : w.CornersFree call fpp) (hi : i = m ∨ s.nodes.Expanded none i)
    (hcur : i < s.nodes.curNode) {offset : Int × Int}
    (hp : w.Child call fpp s.nodes none i 0 offset)
    (h : directionFrom ((s.nodes.nodes 0).x - (s.nodes.nodes i).x)
      ((s.nodes.nodes 0).y - (s.nodes.nodes i).y) = some d) : d.isDiagonal = false := by
  have hg := hs.grown
  have hroot := hg.root
  have hfree0 : (s.nodes.nodes 0).f = 0 := by rw [hroot]
  refine Bool.eq_false_iff.mpr fun hd => ?_
  obtain ⟨hdx, hdy⟩ := directionFrom_isDiagonal h hd
  rw [hroot] at hdx hdy
  simp only at hdx hdy
  have hedge : w.Edge call fpp d w.position (w.place (s.nodes.nodes i))
      (d.cost + w.tileCost (w.place (s.nodes.nodes i))) :=
    ⟨hp.admissible, by simp only [Surroundings.place]; omega,
      by simp only [Surroundings.place]; omega, rfl, rfl⟩
  have hdcost : d.cost = 25 := by simp [Direction.cost, hd]
  have hf : (s.nodes.nodes i).f = 25 + w.tileCost (w.place (s.nodes.nodes i)) := by
    have hwalk : ({ x := w.position.x, y := w.position.y } : AStarNode).getMapWalkCost
        (w.place (s.nodes.nodes i)) = d.cost := getMapWalkCost_eq hedge.x hedge.y
    rw [hp.cost, hroot, Surroundings.stepCost, hwalk, hdcost]
    simp
  have htile := w.tileCost_bounds (w.place (s.nodes.nodes i))
  have hbelow {j : Nat} (hj : j < s.nodes.curNode) (hlt : (s.nodes.nodes j).f < 25) :
      s.nodes.Expanded none j := expanded_of_lt hs hit hm hi hj (by omega)
  obtain ⟨a, e, e', c', he, he', hto, hon⟩ := hfree d _ _ hd hedge
  -- the position beside the start has a node that is expanded
  have hstart : s.nodes.Expanded none 0 := hbelow hg.pos (by omega)
  have hto' : w.Edge call fpp e (w.place (s.nodes.nodes 0)) a 10 := by
    rw [hroot]
    exact hto
  have hfirst : e.offset ∈ s.nodes.neighbors fpp.allowDiagonal 0 := by
    unfold AStarNodes.neighbors
    rw [hroot]
    exact e.offset_mem
  obtain ⟨j, hj, hja, hjf⟩ :=
    (hs.near 0 hstart (by omega)).edge hto' hfirst
  rw [hroot] at hjf
  simp only [zero_add] at hjf
  have hjexp := hbelow hj (by omega)
  have hj0 : j ≠ 0 := by
    rintro rfl
    rw [hroot] at hja
    subst hja
    have hx := hto.x
    have hy := hto.y
    simp only [Surroundings.place] at hx hy
    revert hx hy
    cases e <;> simp [Direction.offset]
  obtain ⟨p, _, hjp⟩ := hg.child j hj hj0
  have hp0 : p = 0 := by
    by_contra hp0
    obtain ⟨b, _, hb⟩ := hg.child p hjp.expanded.1 hp0
    have := w.stepCost_bounds (s.nodes.nodes p) (w.place (s.nodes.nodes j))
    have := w.stepCost_bounds (s.nodes.nodes b) (w.place (s.nodes.nodes p))
    have := hjp.cost
    have := hb.cost
    have := (hg.bounds b hb.expanded.1).1
    omega
  subst hp0
  -- and from there the corner is looked at
  have hjx : ((s.nodes.nodes j).x : Int) = w.position.x + e.offset.1 := by
    rw [← hto.x, ← hja]
    rfl
  have hjy : ((s.nodes.nodes j).y : Int) = w.position.y + e.offset.2 := by
    rw [← hto.y, ← hja]
    rfl
  have hx := hon.x
  have hy := hon.y
  have hcost := hon.cost
  rw [hto.x] at hx
  rw [hto.y] at hy
  have hqx := hedge.x
  have hqy := hedge.y
  have hsecond : e'.offset ∈ s.nodes.neighbors fpp.allowDiagonal j := by
    rw [neighbors_child hjp.parent, hroot, hflag, if_neg Bool.false_ne_true]
    have h1 : ((w.position.x : Int) - (s.nodes.nodes j).x) = -e.offset.1 := by omega
    have h2 : ((w.position.y : Int) - (s.nodes.nodes j).y) = -e.offset.2 := by omega
    rw [h1, h2]
    exact corner_neighbors he he' hd (by omega) (by omega)
  rw [← hja] at hon
  obtain ⟨k, hk, hkq, hkf⟩ := (hs.near j hjexp hjf).edge hon hsecond
  obtain rfl := place_injOn hg hk hcur hkq
  have hecost : e'.cost = 10 := by simp [Direction.cost, he']
  omega

namespace Sample

/-- A tile at the corner of the creature's. -/
def ledge : Surroundings Position :=
  floor ⟨5, 6, 7⟩ near_border_lt six_lt [⟨5, 6, 7⟩, ⟨6, 7, 7⟩]

/-- And one beside both. -/
def bend : Surroundings Position :=
  floor ⟨5, 6, 7⟩ near_border_lt six_lt [⟨5, 6, 7⟩, ⟨6, 6, 7⟩, ⟨6, 7, 7⟩]

theorem bend_cornersFree : bend.CornersFree ⟨⟨6, 7, 7⟩⟩ (exactly false) := by
  intro d q c hd h
  have hmem := floor_admissible h.admissible
  have hx := h.x
  have hy := h.y
  simp only [bend, floor, List.mem_cons, List.not_mem_nil, or_false] at hx hy hmem
  have hq : q = ⟨6, 7, 7⟩ := by
    rcases hmem with rfl | rfl | rfl
    · cases d <;> first | cases hd; done | simp [Direction.offset] at hx hy
    · cases d <;> first | cases hd; done | simp [Direction.offset] at hx hy
    · rfl
  subst hq
  exact ⟨⟨6, 6, 7⟩, .east, .south, 10, rfl, rfl,
    ⟨⟨by decide, by decide, by decide, by decide⟩, by decide, by decide, rfl, by decide⟩,
    ⟨⟨by decide, by decide, by decide, by decide⟩, by decide, by decide, rfl, by decide⟩⟩

end Sample

end TibServer.PathSearch
