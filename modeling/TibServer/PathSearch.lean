import TibServer.Condition
import TibServer.WalkCache

/-!
The search for a path (`Map::getPathMatching` and `AStarNodes` in `map.cpp`, the condition of
`creature.cpp`): nodes from a pool of fixed size, by position in a table, of which the cheapest
that is open is expanded; after the first step only in the directions away from its parent.

What the map and the creature answer is left open. Costs are sums of few steps, and a distance is
added to a coordinate: both are integers here.
-/

namespace TibServer.PathSearch

open WalkCache (CombatType getOffsetX getOffsetY getDistanceY uint16)

inductive Direction
  | north | east | south | west | southwest | southeast | northwest | northeast
  deriving DecidableEq, Repr

/-- `DIRECTION_DIAGONAL_MASK`. -/
def Direction.isDiagonal : Direction → Bool
  | .north | .east | .south | .west => false
  | .southwest | .southeast | .northwest | .northeast => true

structure FindPathParams where
  fullPathSearch : Bool := true
  clearSight : Bool := true
  allowDiagonal : Bool := true
  keepDistance : Bool := false
  maxSearchDist : Int := 0
  minTargetDist : Int := -1
  maxTargetDist : Int := -1

/-- What a search asks of the map and of the creature. -/
structure Surroundings (Tile : Type) where
  position : Position
  x_lt : position.x < 65536
  y_lt : position.y < 65536
  tile : Option Tile
  getTile : Position → Option Tile
  getWalkCache : Position → Int
  /-- Of the creature, with `FLAG_PATHFINDING` and `FLAG_IGNOREFIELDDAMAGE`. -/
  queryAdd : Tile → ReturnValue
  getTopVisibleCreature : Tile → Option CreatureId
  /-- The combat type of `Tile::getFieldItem`. -/
  getFieldItem : Tile → Option CombatType
  isImmune : CombatType → Bool
  hasCondition : Option ConditionType → Bool
  isSightClear : Position → Position → Bool → Bool

def getDistanceX (p1 p2 : Position) : Int := (getOffsetX p1 p2).natAbs

/-! ### The condition -/

structure FrozenPathingConditionCall where
  targetPos : Position

namespace FrozenPathingConditionCall

variable (call : FrozenPathingConditionCall)

def isInRange (startPos testPos : Position) (fpp : FindPathParams) : Bool :=
  let targetPos := call.targetPos
  if fpp.fullPathSearch then
    if (testPos.x : Int) > targetPos.x + fpp.maxTargetDist then false
    else if (testPos.x : Int) < targetPos.x - fpp.maxTargetDist then false
    else if (testPos.y : Int) > targetPos.y + fpp.maxTargetDist then false
    else if (testPos.y : Int) < targetPos.y - fpp.maxTargetDist then false
    else true
  else
    let dx := getOffsetX startPos targetPos
    let dxMax := if dx ≥ 0 then fpp.maxTargetDist else 0
    let dxMin := if dx ≤ 0 then fpp.maxTargetDist else 0
    let dy := getOffsetY startPos targetPos
    let dyMax := if dy ≥ 0 then fpp.maxTargetDist else 0
    let dyMin := if dy ≤ 0 then fpp.maxTargetDist else 0
    if (testPos.x : Int) > targetPos.x + dxMax then false
    else if (testPos.x : Int) < targetPos.x - dxMin then false
    else if (testPos.y : Int) > targetPos.y + dyMax then false
    else if (testPos.y : Int) < targetPos.y - dyMin then false
    else true

/-- `operator()`, with the best match so far and after it. -/
def holds {Tile : Type} (w : Surroundings Tile) (startPos testPos : Position)
    (fpp : FindPathParams) (bestMatchDist : Int) : Bool × Int :=
  if !call.isInRange startPos testPos fpp then (false, bestMatchDist)
  else if fpp.clearSight && !w.isSightClear testPos call.targetPos true then (false, bestMatchDist)
  else
    let testDist := max (getDistanceX call.targetPos testPos) (getDistanceY call.targetPos testPos)
    if fpp.maxTargetDist = 1 then
      if testDist < fpp.minTargetDist ∨ testDist > fpp.maxTargetDist then (false, bestMatchDist)
      else (true, bestMatchDist)
    else if testDist ≤ fpp.maxTargetDist then
      if testDist < fpp.minTargetDist then (false, bestMatchDist)
      else if testDist = fpp.maxTargetDist then (true, 0)
      else if testDist > bestMatchDist then (true, testDist)
      else (false, bestMatchDist)
    else (false, bestMatchDist)

end FrozenPathingConditionCall

/-! ### The nodes -/

def MAX_NODES : Nat := 512
def MAP_NORMALWALKCOST : Int := 10
def MAP_DIAGONALWALKCOST : Int := 25

structure AStarNode where
  parent : Option Nat := none
  f : Int := 0
  x : Nat := 0
  y : Nat := 0

/-- A node is known by its place in the pool. -/
structure AStarNodes where
  nodes : Nat → AStarNode
  openNodes : Nat → Bool
  nodeTable : Nat → Option Nat
  curNode : Nat
  closedNodes : Int

namespace AStarNodes

variable (s : AStarNodes)

/-- `(x << 16) | y`. -/
def key (x y : Nat) : Nat := x <<< 16 ||| y

/-- The constructor. -/
def start (x y : Nat) : AStarNodes where
  nodes := Function.update (fun _ => {}) 0 { x, y }
  openNodes := Function.update (fun _ => false) 0 true
  nodeTable := Function.update (fun _ => none) (key x y) (some 0)
  curNode := 1
  closedNodes := 0

def createOpenNode (parent x y : Nat) (f : Int) : Option AStarNodes :=
  if s.curNode ≥ MAX_NODES then none
  else
    some { s with
      nodes := Function.update s.nodes s.curNode { parent := some parent, f, x, y }
      openNodes := Function.update s.openNodes s.curNode true
      nodeTable := Function.update s.nodeTable (key x y) (some s.curNode)
      curNode := s.curNode + 1 }

/-- One step of the loop for the best node, with the best so far. -/
def better (best : Int × Option Nat) (i : Nat) : Int × Option Nat :=
  if s.openNodes i ∧ (s.nodes i).f < best.1 then ((s.nodes i).f, some i) else best

def getBestNode : Option Nat :=
  if s.curNode = 0 then none
  else ((List.range s.curNode).foldl s.better (2147483647, none)).2

def closeNode (i : Nat) : AStarNodes :=
  { s with
    openNodes := Function.update s.openNodes i false
    closedNodes := s.closedNodes + 1 }

def openNode (i : Nat) : AStarNodes :=
  if s.openNodes i then s
  else
    { s with
      openNodes := Function.update s.openNodes i true
      closedNodes := s.closedNodes - 1 }

/-- The node gets a cost and a parent that make it cheaper. -/
def reparent (i parent : Nat) (f : Int) : AStarNodes :=
  { s with nodes := Function.update s.nodes i { s.nodes i with f, parent := some parent } }

def getNodeByPosition (x y : Nat) : Option Nat := s.nodeTable (key x y)

end AStarNodes

def AStarNode.getMapWalkCost (node : AStarNode) (neighborPos : Position) : Int :=
  if ((node.x : Int) - neighborPos.x).natAbs = ((node.y : Int) - neighborPos.y).natAbs then
    MAP_DIAGONALWALKCOST
  else MAP_NORMALWALKCOST

/-- `Combat::DamageToConditionType`; `CONDITION_NONE` is none. -/
def DamageToConditionType (type : CombatType) : Option ConditionType :=
  if type = 1 <<< 3 then some .fire
  else if type = 1 <<< 1 then some .energy
  else if type = 1 <<< 8 then some .drown
  else if type = 1 <<< 2 then some .poison
  else if type = 1 <<< 9 then some .freezing
  else if type = 1 <<< 10 then some .dazzled
  else if type = 1 <<< 11 then some .cursed
  else if type = 1 <<< 0 then some .bleeding
  else none

namespace Surroundings

variable {Tile : Type} [DecidableEq Tile] (w : Surroundings Tile)

/-- `Map::canWalkTo`. -/
def canWalkTo (pos : Position) : Option Tile :=
  let walkCache := w.getWalkCache pos
  if walkCache = 0 then none
  else if walkCache = 1 then w.getTile pos
  else
    let tile := w.getTile pos
    if w.tile ≠ tile then tile.filter fun t => w.queryAdd t = .noError else tile

def getTileWalkCost (tile : Tile) : Int :=
  let cost := if (w.getTopVisibleCreature tile).isSome then MAP_NORMALWALKCOST * 3 else 0
  match w.getFieldItem tile with
  | some combatType =>
      if !w.isImmune combatType && !w.hasCondition (DamageToConditionType combatType) then
        cost + MAP_NORMALWALKCOST * 18
      else cost
  | none => cost

/-- Of the tile at a position. Where a node is there is a tile; the one of the start may be
missing, and is not made cheaper by whatever it costs. -/
def tileCost (pos : Position) : Int := (w.getTile pos).elim 0 w.getTileWalkCost

end Surroundings

/-! ### The search -/

def allNeighbors : List (Int × Int) :=
  [(-1, 0), (0, 1), (1, 0), (0, -1), (-1, -1), (1, -1), (1, 1), (-1, 1)]

/-- The neighbours that are looked at, by where the parent is. -/
def dirNeighbors : Direction → List (Int × Int)
  | .north => [(-1, 0), (0, 1), (1, 0), (1, 1), (-1, 1)]
  | .east => [(-1, 0), (0, 1), (0, -1), (-1, -1), (-1, 1)]
  | .south => [(-1, 0), (1, 0), (0, -1), (-1, -1), (1, -1)]
  | .west => [(0, 1), (1, 0), (0, -1), (1, -1), (1, 1)]
  | .southwest => [(1, 0), (0, -1), (-1, -1), (1, -1), (1, 1)]
  | .southeast => [(-1, 0), (0, -1), (-1, -1), (1, -1), (-1, 1)]
  | .northwest => [(0, 1), (1, 0), (1, -1), (1, 1), (-1, 1)]
  | .northeast => [(-1, 0), (0, 1), (-1, -1), (1, 1), (-1, 1)]

/-- The direction of the parent, by its offset. -/
def parentDirection (allowDiagonal : Bool) (offset_x offset_y : Int) : Direction :=
  if offset_y = 0 then
    if offset_x = -1 then .west else .east
  else if !allowDiagonal || offset_x = 0 then
    if offset_y = -1 then .north else .south
  else if offset_y = -1 then
    if offset_x = -1 then .northwest else .northeast
  else if offset_x = -1 then .southwest
  else .southeast

def AStarNodes.neighbors (s : AStarNodes) (allowDiagonal : Bool) (n : Nat) : List (Int × Int) :=
  match (s.nodes n).parent with
  | some p =>
      (dirNeighbors (parentDirection allowDiagonal
        ((s.nodes p).x - (s.nodes n).x) ((s.nodes p).y - (s.nodes n).y))).take
        (if allowDiagonal then 5 else 3)
  | none => allNeighbors

structure Search where
  nodes : AStarNodes
  bestMatch : Int := 0
  found : Option Nat := none
  endPos : Position
  /-- Whether the pool had no node left for a neighbour; the search goes on without it. -/
  exhausted : Bool := false

/-- What becomes of the search in one iteration. -/
inductive Outcome
  | goesOn (s : Search)
  | ends (s : Search)
  | fails

/-- A direction by the offset of the node before. -/
def directionFrom (dx dy : Int) : Option Direction :=
  if dx = 1 ∧ dy = 1 then some .northwest
  else if dx = -1 ∧ dy = 1 then some .northeast
  else if dx = 1 ∧ dy = -1 then some .southwest
  else if dx = -1 ∧ dy = -1 then some .southeast
  else if dx = 1 then some .west
  else if dx = -1 then some .east
  else if dy = 1 then some .north
  else if dy = -1 then some .south
  else none

/-- The walk over the parents to the start, with a bound on the number of steps. -/
def AStarNodes.retrace (s : AStarNodes) :
    Nat → Option Nat → Int → Int → List Direction → Option (List Direction)
  | 0, _, _, _, _ => none
  | _ + 1, none, _, _, dirList => some dirList
  | fuel + 1, some i, prevx, prevy, dirList =>
      let node := s.nodes i
      s.retrace fuel node.parent node.x node.y
        ((directionFrom (node.x - prevx) (node.y - prevy)).toList ++ dirList)

namespace Surroundings

variable {Tile : Type} [DecidableEq Tile] (w : Surroundings Tile)
  (call : FrozenPathingConditionCall) (fpp : FindPathParams)

/-- The position at an offset, on the floor of the creature. -/
def shift (x y : Nat) (offset : Int × Int) : Position :=
  ⟨uint16 (x + offset.1), uint16 (y + offset.2), w.position.z⟩

/-- What is passed over. -/
def outside (pos : Position) : Bool :=
  (fpp.maxSearchDist ≠ 0 && (getDistanceX w.position pos > fpp.maxSearchDist ||
    getDistanceY w.position pos > fpp.maxSearchDist)) ||
  (fpp.keepDistance && !call.isInRange w.position pos fpp)

/-- One neighbour of a node with this cost; none when the pool has no node left. -/
def visit (n : Nat) (f : Int) (s : AStarNodes) (offset : Int × Int) : Option AStarNodes :=
  let pos := w.shift (s.nodes n).x (s.nodes n).y offset
  if w.outside call fpp pos then some s
  else
    let newf := f + (s.nodes n).getMapWalkCost pos + w.tileCost pos
    match s.getNodeByPosition pos.x pos.y with
    | some neighborNode =>
        if (s.nodes neighborNode).f ≤ newf then some s
        else some ((s.reparent neighborNode n newf).openNode neighborNode)
    | none =>
        if (w.canWalkTo pos).isNone then some s else s.createOpenNode n pos.x pos.y newf

/-- The loop over the neighbours, and whether it got to the end. -/
def expand (n : Nat) (f : Int) : List (Int × Int) → AStarNodes → AStarNodes × Bool
  | [], s => (s, true)
  | offset :: offsets, s =>
      match w.visit call fpp n f s offset with
      | some s' => expand n f offsets s'
      | none => (s, false)

/-- What the node is to the condition; only where it holds does the best match change. -/
def test (s : Search) (n : Nat) : Search :=
  let node := s.nodes.nodes n
  let pos : Position := ⟨node.x, node.y, w.position.z⟩
  match call.holds w w.position pos fpp s.bestMatch with
  | (true, bestMatch) => { s with found := some n, endPos := pos, bestMatch }
  | (false, bestMatch) => { s with bestMatch }

/-- Whether the test ended the search. -/
def isMatch (s : Search) (n : Nat) : Bool :=
  let node := s.nodes.nodes n
  call.holds w w.position ⟨node.x, node.y, w.position.z⟩ fpp s.bestMatch = (true, 0)

def iterate (s : Search) : Outcome :=
  if !(fpp.maxSearchDist ≠ 0 || s.nodes.closedNodes < 100) then .ends s
  else
    match s.nodes.getBestNode with
    | none => if s.found.isSome then .ends s else .fails
    | some n =>
        let t := w.test call fpp s n
        if w.isMatch call fpp s n then .ends t
        else
          match w.expand call fpp n (s.nodes.nodes n).f
              (s.nodes.neighbors fpp.allowDiagonal n) s.nodes with
          | (nodes, true) => .goesOn { t with nodes := nodes.closeNode n }
          | (nodes, false) =>
              if t.found.isSome then
                .goesOn { t with nodes := nodes.closeNode n, exhausted := true }
              else .fails

/-- The main loop, with a bound on the number of iterations. -/
def search : Nat → Search → Option (Option Search)
  | 0, _ => none
  | fuel + 1, s =>
      match w.iterate call fpp s with
      | .goesOn s' => search fuel s'
      | .ends s' => some (some s')
      | .fails => some none

def initial : Search where
  nodes := .start w.position.x w.position.y
  endPos := ⟨0, 0, 0⟩

/-- `Map::getPathMatching`, with a bound on its loops; no list where it returns false. -/
def getPathMatching (fuel : Nat) (dirList : List Direction) : Option (Option (List Direction)) :=
  (w.search call fpp fuel w.initial).bind fun
    | none => some none
    | some s =>
        match s.found with
        | none => some none
        | some found =>
            (s.nodes.retrace fuel (s.nodes.nodes found).parent s.endPos.x s.endPos.y
              dirList).map some

end Surroundings

end TibServer.PathSearch
