import TibServer.SearchRuns
import TibServer.ShortestPaths

/-!
What a path search returns: it ends, and its list of directions leads over positions the creature
can walk to, to one where the condition holds. A list is a path from where the creature is as long
as no step leads over the border of the coordinates, where they wrap around.
-/

namespace TibServer.PathSearch

open WalkCache (CombatType getOffsetX getOffsetY getDistanceY uint16)
open ShortestPaths

/-! ### Steps -/

namespace Direction

def offset : Direction → Int × Int
  | .north => (0, -1)
  | .east => (1, 0)
  | .south => (0, 1)
  | .west => (-1, 0)
  | .southwest => (-1, 1)
  | .southeast => (1, 1)
  | .northwest => (-1, -1)
  | .northeast => (1, -1)

def cost (d : Direction) : Int := if d.isDiagonal then 25 else 10

end Direction

theorem exists_direction {offset : Int × Int} (h : offset ∈ allNeighbors) :
    ∃ d : Direction, d.offset = offset := by
  have hall : ∀ offset ∈ allNeighbors, offset ∈ [Direction.north, .east, .south, .west, .southwest,
      .southeast, .northwest, .northeast].map Direction.offset := by decide
  obtain ⟨d, -, hd⟩ := List.mem_map.mp (hall offset h)
  exact ⟨d, hd⟩

theorem Direction.offset_mem (d : Direction) : d.offset ∈ allNeighbors := by
  cases d <;> decide

theorem directionFrom_offset (d : Direction) :
    directionFrom (-d.offset.1) (-d.offset.2) = some d := by
  cases d <;> decide

section

variable {Tile : Type} [DecidableEq Tile] (w : Surroundings Tile)
  (call : FrozenPathingConditionCall) (fpp : FindPathParams)

namespace Surroundings

/-- A step of the creature, with its cost. -/
structure Edge (d : Direction) (p q : Position) (c : Int) : Prop where
  admissible : w.Admissible call fpp q
  x : (q.x : Int) = p.x + d.offset.1
  y : (q.y : Int) = p.y + d.offset.2
  z : q.z = p.z
  cost : c = d.cost + w.tileCost q

/-- No step of the search leads over the border. -/
def Inland : Prop :=
  ∀ p, p = w.position ∨ w.Admissible call fpp p → ∀ offset ∈ allNeighbors,
    w.Admissible call fpp (w.shift p.x p.y offset) →
    ((w.shift p.x p.y offset).x : Int) = p.x + offset.1 ∧
      ((w.shift p.x p.y offset).y : Int) = p.y + offset.2

/-- The result for every bound on the loops that is large enough. -/
def Returns (r : Option (List Direction)) : Prop :=
  ∃ bound, ∀ fuel ≥ bound, w.getPathMatching call fpp fuel [] = some r

end Surroundings

end

variable {Tile : Type} [DecidableEq Tile] {w : Surroundings Tile}
  {call : FrozenPathingConditionCall} {fpp : FindPathParams} {s s' : Search}
  {nodes : AStarNodes} {i n fuel : Nat} {o : Option Nat}

theorem edge_nonneg {d : Direction} {p q : Position} {c : Int} (h : w.Edge call fpp d p q c) :
    0 ≤ c := by
  have := w.tileCost_bounds q
  have hd : 0 ≤ d.cost := by cases d <;> decide
  have := h.cost
  omega

omit [DecidableEq Tile] in
/-- An offset that does not wrap around leads to the neighbour. -/
theorem shift_eq {p q : Position} {d : Direction} (hx : q.x < 65536) (hy : q.y < 65536)
    (hx' : (q.x : Int) = p.x + d.offset.1) (hy' : (q.y : Int) = p.y + d.offset.2)
    (hz : q.z = w.position.z) : w.shift p.x p.y d.offset = q := by
  obtain ⟨x, y, z⟩ := q
  simp only at hx hy hx' hy' hz
  subst hz
  simp only [Surroundings.shift, Position.mk.injEq, and_true, uint16]
  omega

/-! ### The list of directions -/

theorem getMapWalkCost_eq {node : AStarNode} {q : Position} {d : Direction}
    (hx : (q.x : Int) = node.x + d.offset.1) (hy : (q.y : Int) = node.y + d.offset.2) :
    node.getMapWalkCost q = d.cost := by
  have hx' : (node.x : Int) - q.x = -d.offset.1 := by omega
  have hy' : (node.y : Int) - q.y = -d.offset.2 := by omega
  unfold AStarNode.getMapWalkCost
  rw [hx', hy']
  cases d <;> decide

theorem place_known (hg : w.Grown call fpp o nodes) (hi : i < nodes.curNode) :
    w.place (nodes.nodes i) = w.position ∨ w.Admissible call fpp (w.place (nodes.nodes i)) := by
  by_cases hi0 : i = 0
  · subst hi0
    rw [hg.root]
    exact .inl rfl
  · obtain ⟨p, _, hp⟩ := hg.child i hi hi0
    exact .inr hp.admissible

/-- Inland, a node is a step away from its parent. -/
theorem child_edge {p : Nat} {offset : Int × Int} (hg : w.Grown call fpp o nodes)
    (hinland : w.Inland call fpp) (hp : w.Child call fpp nodes o i p offset) :
    ∃ d : Direction, w.Edge call fpp d (w.place (nodes.nodes p)) (w.place (nodes.nodes i))
        ((nodes.nodes i).f - (nodes.nodes p).f) ∧
      directionFrom ((nodes.nodes p).x - (nodes.nodes i).x)
        ((nodes.nodes p).y - (nodes.nodes i).y) = some d := by
  have hmem := neighbors_subset _ _ _ hp.mem
  obtain ⟨d, rfl⟩ := exists_direction hmem
  have hadm := hp.admissible
  obtain ⟨hx, hy⟩ := hinland _ (place_known hg hp.expanded.1) _ hmem (hp.place ▸ hadm)
  have hxi : ((nodes.nodes i).x : Int) = (nodes.nodes p).x + d.offset.1 :=
    (congrArg (fun q : Position => (q.x : Int)) hp.place).trans hx
  have hyi : ((nodes.nodes i).y : Int) = (nodes.nodes p).y + d.offset.2 :=
    (congrArg (fun q : Position => (q.y : Int)) hp.place).trans hy
  refine ⟨d, ⟨hadm, hxi, hyi, rfl, ?_⟩, ?_⟩
  · rw [hp.cost, Surroundings.stepCost, getMapWalkCost_eq hxi hyi]
    omega
  · have hdx : ((nodes.nodes p).x : Int) - (nodes.nodes i).x = -d.offset.1 := by omega
    have hdy : ((nodes.nodes p).y : Int) - (nodes.nodes i).y = -d.offset.2 := by omega
    rw [hdx, hdy]
    exact directionFrom_offset d

/-- The parents lead to the start, with a cost that goes down to nothing. -/
theorem retrace_isSome (fuel : Nat) (hg : w.Grown call fpp o nodes) (hi : i < nodes.curNode)
    (hfuel : (nodes.nodes i).f < fuel) (dirList : List Direction) :
    (nodes.retrace fuel (nodes.nodes i).parent (nodes.nodes i).x (nodes.nodes i).y
      dirList).isSome := by
  induction fuel generalizing i dirList with
  | zero =>
      have := (hg.bounds i hi).1
      omega
  | succ fuel ih =>
      by_cases hi0 : i = 0
      · subst hi0
        rw [hg.root]
        rfl
      · obtain ⟨p, _, hp⟩ := hg.child i hi hi0
        have hstep := w.stepCost_bounds (nodes.nodes p) (w.place (nodes.nodes i))
        have hcost := hp.cost
        rw [hp.parent]
        exact ih hp.expanded.1 (by omega) _

theorem retrace_path {dirList dirs : List Direction} {q : Position} {c : Int}
    (hg : w.Grown call fpp o nodes) (hinland : w.Inland call fpp) (hi : i < nodes.curNode)
    (hpath : Path (w.Edge call fpp) (w.place (nodes.nodes i)) dirList q c)
    (h : nodes.retrace fuel (nodes.nodes i).parent (nodes.nodes i).x (nodes.nodes i).y dirList =
      some dirs) :
    Path (w.Edge call fpp) w.position dirs q ((nodes.nodes i).f + c) := by
  induction fuel generalizing i dirList c with
  | zero => cases h
  | succ fuel ih =>
      by_cases hi0 : i = 0
      · subst hi0
        rw [hg.root] at h hpath ⊢
        obtain rfl := Option.some.inj h
        have hstart : Path (w.Edge call fpp) w.position dirList q c := hpath
        simpa using hstart
      · obtain ⟨p, _, hp⟩ := hg.child i hi hi0
        obtain ⟨d, hedge, hd⟩ := child_edge hg hinland hp
        rw [hp.parent] at h
        simp only [AStarNodes.retrace, hd, Option.toList_some, List.singleton_append] at h
        have hfrom := ih hp.expanded.1 (.cons hedge hpath) h
        have hsum : (nodes.nodes i).f + c =
            (nodes.nodes p).f + ((nodes.nodes i).f - (nodes.nodes p).f + c) := by omega
        rw [hsum]
        exact hfrom

/-! ### The end of a search -/

/-- The node of the last match. -/
theorem ends_found (hs : Sound w call fpp s) (h : w.iterate call fpp s = .ends s') :
    s'.nodes = s.nodes ∧ ∀ m, s'.found = some m → m < s.nodes.curNode ∧
      s'.endPos = w.place (s.nodes.nodes m) ∧
      (call.holds w w.position s'.endPos fpp 0).1 = true := by
  rcases iterate_ends h with rfl | ⟨n, hbest, hmatch, rfl⟩
  · exact ⟨rfl, hs.found⟩
  · have hr := (isMatch_eq_true s n).mp hmatch
    have heq := test_eq w call fpp s n
    dsimp only at heq
    rw [hr] at heq
    rw [heq]
    refine ⟨rfl, fun m hm => ?_⟩
    obtain rfl : n = m := Option.some.inj hm
    have hholds : (call.holds w w.position (w.place (s.nodes.nodes n)) fpp s.bestMatch).1 = true :=
      congrArg Prod.fst hr
    exact ⟨(AStarNodes.getBestNode_spec hbest).1, rfl, holds_best hholds hs.best_nonneg⟩

theorem search_mono {fuel' : Nat} {r : Option Search} (hle : fuel ≤ fuel')
    (h : w.search call fpp fuel s = some r) : w.search call fpp fuel' s = some r := by
  induction fuel generalizing s fuel' with
  | zero => cases h
  | succ fuel ih =>
      cases fuel' with
      | zero => omega
      | succ fuel' =>
          unfold Surroundings.search at h ⊢
          split at h
          · exact ih (by omega) h
          · exact h
          · exact h

theorem retrace_mono {fuel' : Nat} {found : Option Nat} {prevx prevy : Int}
    {dirList dirs : List Direction} (hle : fuel ≤ fuel')
    (h : nodes.retrace fuel found prevx prevy dirList = some dirs) :
    nodes.retrace fuel' found prevx prevy dirList = some dirs := by
  induction fuel generalizing found prevx prevy dirList fuel' with
  | zero => cases h
  | succ fuel ih =>
      cases fuel' with
      | zero => omega
      | succ fuel' =>
          cases found with
          | none => exact h
          | some i =>
              unfold AStarNodes.retrace at h ⊢
              exact ih (by omega) h

theorem getPathMatching_mono {fuel' : Nat} {dirList : List Direction}
    {r : Option (List Direction)} (hle : fuel ≤ fuel')
    (h : w.getPathMatching call fpp fuel dirList = some r) :
    w.getPathMatching call fpp fuel' dirList = some r := by
  unfold Surroundings.getPathMatching at h ⊢
  obtain ⟨run, hrun, hr⟩ := Option.bind_eq_some_iff.mp h
  rw [search_mono hle hrun, Option.bind_some]
  cases run with
  | none => exact hr
  | some s =>
      dsimp only at hr ⊢
      cases hfound : s.found with
      | none =>
          rw [hfound] at hr
          exact hr
      | some m =>
          rw [hfound] at hr
          obtain ⟨dirs, hdirs, rfl⟩ := Option.map_eq_some_iff.mp hr
          exact Option.map_eq_some_iff.mpr ⟨dirs, retrace_mono hle hdirs, rfl⟩

theorem returns_of_run (fuel : Nat) {r : Option (List Direction)}
    (h : w.getPathMatching call fpp fuel [] = some r) : w.Returns call fpp r :=
  ⟨fuel, fun _ hle => getPathMatching_mono hle h⟩

theorem Surroundings.Returns.unique {r r' : Option (List Direction)} (h : w.Returns call fpp r)
    (h' : w.Returns call fpp r') : r = r' := by
  obtain ⟨bound, hr⟩ := h
  obtain ⟨bound', hr'⟩ := h'
  have := (hr _ (le_max_left bound bound')).symm.trans (hr' _ (le_max_right bound bound'))
  exact Option.some.inj this

/-- What is behind a list that is returned. -/
theorem returned_cases {dirs : List Direction}
    (h : w.getPathMatching call fpp fuel [] = some (some dirs)) :
    ∃ s s' m, Sound w call fpp s ∧ w.iterate call fpp s = .ends s' ∧
      w.search call fpp fuel w.initial = some (some s') ∧ s'.found = some m ∧
      s.nodes.retrace fuel (s.nodes.nodes m).parent (s.nodes.nodes m).x (s.nodes.nodes m).y [] =
        some dirs := by
  unfold Surroundings.getPathMatching at h
  obtain ⟨run, hrun, hr⟩ := Option.bind_eq_some_iff.mp h
  cases run with
  | none => cases hr
  | some s' =>
      dsimp only at hr
      cases hfound : s'.found with
      | none =>
          rw [hfound] at hr
          cases hr
      | some m =>
          rw [hfound] at hr
          obtain ⟨dirs', hdirs, he⟩ := Option.map_eq_some_iff.mp hr
          obtain rfl := Option.some.inj he
          obtain ⟨s, hs, hit⟩ := search_spec .initial hrun
          obtain ⟨hnodes, hends⟩ := ends_found hs hit
          obtain ⟨-, hend, -⟩ := hends m hfound
          rw [hnodes, hend] at hdirs
          exact ⟨s, s', m, hs, hit, hrun, hfound, hdirs⟩

/-- A search returns; and inland, what it returns is a path to where the condition holds. -/
theorem Surroundings.path_valid (w : Surroundings Tile) (call : FrozenPathingConditionCall)
    (fpp : FindPathParams) : ∃ r, w.Returns call fpp r ∧
      (w.Inland call fpp → ∀ dirs, r = some dirs → ∃ q c,
        Path (w.Edge call fpp) w.position dirs q c ∧
          (call.holds w w.position q fpp 0).1 = true) := by
  have hreturns : ∃ r, w.Returns call fpp r := by
    have hinitial : Sound w call fpp w.initial := .initial
    have hsome := search_terminates hinitial 120833
      (by decide : (512 : Int) < 0 + 120833)
    obtain ⟨run, hrun⟩ := Option.isSome_iff_exists.mp hsome
    cases run with
    | none =>
        refine ⟨none, returns_of_run 120833 ?_⟩
        unfold getPathMatching
        rw [hrun, Option.bind_some]
    | some s' =>
        obtain ⟨s, hs, hit⟩ := search_spec .initial hrun
        obtain ⟨hnodes, hends⟩ := ends_found hs hit
        cases hfound : s'.found with
        | none =>
            refine ⟨none, returns_of_run 120833 ?_⟩
            unfold getPathMatching
            rw [hrun, Option.bind_some]
            dsimp only
            rw [hfound]
        | some m =>
            obtain ⟨hm, hend, -⟩ := hends m hfound
            have hcur := hs.grown.curNode_le
            have hmax : MAX_NODES = 512 := rfl
            have hf := (hs.grown.bounds m hm).2
            obtain ⟨dirs, hdirs⟩ := Option.isSome_iff_exists.mp
              (retrace_isSome 120833 hs.grown hm (by omega) [])
            refine ⟨some dirs, returns_of_run 120833 ?_⟩
            unfold getPathMatching
            rw [hrun, Option.bind_some]
            dsimp only
            rw [hfound]
            dsimp only
            rw [hnodes, hend]
            exact Option.map_eq_some_iff.mpr ⟨dirs, hdirs, rfl⟩
  obtain ⟨r, hr⟩ := hreturns
  refine ⟨r, hr, fun hinland dirs hdirs => ?_⟩
  subst hdirs
  obtain ⟨bound, hbound⟩ := hr
  obtain ⟨s, s', m, hs, hit, -, hfound, hretrace⟩ := returned_cases (hbound bound le_rfl)
  obtain ⟨hm, hend, hholds⟩ := (ends_found hs hit).2 m hfound
  have hpath := retrace_path hs.grown hinland hm (.nil _) hretrace
  exact ⟨_, _, hpath, hend ▸ hholds⟩

/-- Away from the border, no step leads over it. -/
theorem inland_of_interior (h : ∀ p, p = w.position ∨ w.Admissible call fpp p →
    (1 ≤ p.x ∧ p.x ≤ 65534) ∧ 1 ≤ p.y ∧ p.y ≤ 65534) : w.Inland call fpp := by
  intro p hp offset hoffset _
  obtain ⟨d, rfl⟩ := exists_direction hoffset
  obtain ⟨hx, hy⟩ := h p hp
  simp only [Surroundings.shift, uint16]
  cases d <;> simp only [Direction.offset] <;> omega

/-! ### Over the border -/

namespace Sample

theorem shore_lt : 1 < 65536 := by decide

/-- A floor of tiles around a creature, without anything else. -/
def floor (position : Position) (x_lt : position.x < 65536) (y_lt : position.y < 65536)
    (tiles : List Position) : Surroundings Position where
  position := position
  x_lt := x_lt
  y_lt := y_lt
  tile := some position
  getTile pos := if pos ∈ tiles then some pos else none
  getWalkCache _ := 2
  queryAdd _ := .noError
  getTopVisibleCreature _ := none
  getFieldItem _ := none
  isImmune _ := false
  hasCondition _ := false
  isSightClear _ _ _ := true

/-- Two tiles to the west of the creature, beside each other over the border. -/
def coast : Surroundings Position :=
  floor ⟨1, 1, 7⟩ shore_lt shore_lt [⟨1, 1, 7⟩, ⟨0, 1, 7⟩, ⟨65535, 1, 7⟩]

theorem floor_admissible {position : Position} {x_lt : position.x < 65536}
    {y_lt : position.y < 65536} {tiles : List Position} {p : Position}
    (h : (floor position x_lt y_lt tiles).Admissible call fpp p) : p ∈ tiles := by
  have hwalk := h.walkable
  simp only [Surroundings.canWalkTo, floor] at hwalk
  by_contra hp
  simp [hp] at hwalk

/-- To a position itself. -/
def exactly (allowDiagonal : Bool) : FindPathParams :=
  { clearSight := false, allowDiagonal, minTargetDist := 0, maxTargetDist := 0 }

/-- The step over the border is missing from the list. -/
theorem coast_lost : coast.Returns ⟨⟨65535, 1, 7⟩⟩ (exactly true) (some [.west]) ∧
    ¬∃ q c, Path (coast.Edge ⟨⟨65535, 1, 7⟩⟩ (exactly true)) coast.position [.west] q c ∧
      (FrozenPathingConditionCall.holds ⟨⟨65535, 1, 7⟩⟩ coast coast.position q (exactly true)
        0).1 = true := by
  refine ⟨returns_of_run 10 (by decide), ?_⟩
  rintro ⟨q, c, hpath, hholds⟩
  obtain _ | ⟨hedge, _ | _⟩ := hpath
  have hq : q = ⟨0, 1, 7⟩ := by
    obtain ⟨x, y, z⟩ := q
    have hx := hedge.x
    have hy := hedge.y
    have hz := hedge.z
    simp only [Direction.offset, coast, floor] at hx hy hz
    simp only [Position.mk.injEq]
    omega
  subst hq
  revert hholds
  decide

end Sample

end TibServer.PathSearch
