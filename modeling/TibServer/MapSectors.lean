import Mathlib.Data.BitVec
import Mathlib.Data.Finset.Insert
import Mathlib.Data.List.Nodup
import TibServer.KeepDistance
import TibServer.NeighbourLinks
import TibServer.SectorTree
import TibServer.TileIndex

/-!
The map by sectors (`map.h`, `map.cpp`). A leaf of the quadtree holds the floors of its block and
points to the leaves to the east and to the south. In every run each of these links is the leaf of
the neighbouring block as soon as there is one, so that the walk over a range sees every leaf of
the range once. A coordinate keeps the first tile that it is given.
-/

namespace TibServer.MapSectors

def MAP_MAX_LAYERS : Nat := 16

abbrev TileRef := Nat

structure Floor where
  tiles : BitVec 3 → BitVec 3 → Option TileRef := fun _ _ => none

def Floor.set (floor : Floor) (ox oy : BitVec 3) (tile : TileRef) : Floor where
  tiles := Function.update floor.tiles ox (Function.update (floor.tiles ox) oy (some tile))

structure QTreeLeafNode where
  leafS : Option LeafId := none
  leafE : Option LeafId := none
  array : Fin MAP_MAX_LAYERS → Option Floor := fun _ => none
  creature_list : List CreatureId := []
  player_list : List CreatureId := []

namespace QTreeLeafNode

def getFloor (l : QTreeLeafNode) (z : Fin MAP_MAX_LAYERS) : Option Floor := l.array z

def createFloor (l : QTreeLeafNode) (z : Fin MAP_MAX_LAYERS) : Floor := (l.getFloor z).getD {}

def setFloor (l : QTreeLeafNode) (z : Fin MAP_MAX_LAYERS) (floor : Floor) : QTreeLeafNode :=
  { l with array := Function.update l.array z (some floor) }

def addCreature (l : QTreeLeafNode) (c : CreatureId) (player : Bool) : QTreeLeafNode :=
  { l with
    creature_list := l.creature_list ++ [c]
    player_list := if player then l.player_list ++ [c] else l.player_list }

/-- The last one takes the place of the one that is removed. -/
def swapRemove (c : CreatureId) (list : List CreatureId) : List CreatureId :=
  (list.set (list.idxOf c) (list.getLastD c)).dropLast

def removeCreature (l : QTreeLeafNode) (c : CreatureId) (player : Bool) : QTreeLeafNode :=
  { l with
    creature_list := swapRemove c l.creature_list
    player_list := if player then swapRemove c l.player_list else l.player_list }

end QTreeLeafNode

/-- The map, the leaves that were made, and what is on the tiles. -/
structure Map where
  root : QTreeNode := .node fun _ => .null
  leaves : LeafId → QTreeLeafNode := fun _ => {}
  allocated : LeafId := 0
  tiles : TileRef → TileIndex.Tile := fun _ => {}

/-- The place of a coordinate in its block. -/
def offset (x : BitVec 16) : BitVec 3 := (x &&& FLOOR_MASK).setWidth 3

namespace Map

/-- `Map::getQTNode` -/
def getQTNode (m : Map) (x y : BitVec 16) : Option LeafId :=
  m.root.getLeafStatic (x.setWidth 32) (y.setWidth 32)

/-- `Map::getTile` -/
def getTile (m : Map) (x y : BitVec 16) (z : BitVec 8) : Option TileRef :=
  if hz : z.toNat < MAP_MAX_LAYERS then
    (m.root.getLeafStatic (x.setWidth 32) (y.setWidth 32)).bind fun leaf =>
      ((m.leaves leaf).getFloor ⟨z.toNat, hz⟩).bind fun floor => floor.tiles (offset x) (offset y)
  else none

def modify (m : Map) (id : LeafId) (f : QTreeLeafNode → QTreeLeafNode) : Map :=
  { m with leaves := Function.update m.leaves id (f (m.leaves id)) }

/-- `if (northLeaf) { northLeaf->leafS = leaf; }`, where both are there. -/
def linkS (m : Map) (northLeaf leaf : Option LeafId) : Map :=
  match northLeaf, leaf with
  | some id, some leaf => m.modify id fun l => { l with leafS := some leaf }
  | _, _ => m

def linkE (m : Map) (westLeaf leaf : Option LeafId) : Map :=
  match westLeaf, leaf with
  | some id, some leaf => m.modify id fun l => { l with leafE := some leaf }
  | _, _ => m

/-- The leaf is entered with its neighbours, and they with it. -/
def linkLeaf (m : Map) (leaf : LeafId) (x y : BitVec 32) : Map :=
  let m := m.linkS (m.root.getLeaf x (y - BitVec.ofNat 32 FLOOR_SIZE)) leaf
  let m := m.linkE (m.root.getLeaf (x - BitVec.ofNat 32 FLOOR_SIZE) y) leaf
  let m := m.linkS leaf (m.root.getLeaf x (y + BitVec.ofNat 32 FLOOR_SIZE))
  m.linkE leaf (m.root.getLeaf (x + BitVec.ofNat 32 FLOOR_SIZE) y)

/-- `setTile`, up to the leaf. -/
def makeLeaf (m : Map) (x y : BitVec 32) : Map × LeafId :=
  match m.root.createLeaf m.allocated 15 x y with
  | (root, leaf, false) => ({ m with root }, leaf)
  | (root, leaf, true) =>
      let m := { m with
        root
        leaves := Function.update m.leaves leaf {}
        allocated := m.allocated + 1 }
      (m.linkLeaf leaf x y, leaf)

/-- The things of a tile that is set where there is one, the items from the last to the first and
then the ground; the tile that held them is deleted. -/
def mergeTile (kind : ItemRef → TileIndex.Kind) (tiles : TileRef → TileIndex.Tile)
    (tile newTile : TileRef) : TileRef → TileIndex.Tile :=
  let items := ((tiles newTile).items.map (·.items)).getD []
  let filled := items.reverse.foldl (fun t i => t.addThing kind (.item i)) (tiles tile)
  let filled := match (tiles newTile).ground with
    | some ground => filled.addThing kind (.item ground)
    | none => filled
  Function.update (Function.update tiles tile filled) newTile {}

/-- `setTile`, from the leaf on. -/
def placeTile (kind : ItemRef → TileIndex.Kind) (m : Map) (leaf : LeafId) (x y : BitVec 16)
    (z : Fin MAP_MAX_LAYERS) (newTile : TileRef) : Map :=
  let floor := (m.leaves leaf).createFloor z
  match floor.tiles (offset x) (offset y) with
  | some tile =>
      { m.modify leaf (·.setFloor z floor) with tiles := mergeTile kind m.tiles tile newTile }
  | none => m.modify leaf (·.setFloor z (floor.set (offset x) (offset y) newTile))

/-- `Map::setTile` -/
def setTile (kind : ItemRef → TileIndex.Kind) (m : Map) (x y : BitVec 16) (z : BitVec 8)
    (newTile : TileRef) : Map :=
  if hz : z.toNat < MAP_MAX_LAYERS then
    let (m, leaf) := m.makeLeaf (x.setWidth 32) (y.setWidth 32)
    m.placeTile kind leaf x y ⟨z.toNat, hz⟩ newTile
  else m

/-! ### The walk -/

/-- A row of the walk: over the links to the east, and where there is no leaf by a search. -/
def walkRow (m : Map) (ny : Nat) : List Nat → Option LeafId → List LeafId
  | [], _ => []
  | _ :: columns, some leafE => leafE :: m.walkRow ny columns (m.leaves leafE).leafE
  | nx :: columns, none =>
      m.walkRow ny columns
        (m.root.getLeafStatic (BitVec.ofNat 32 (nx + FLOOR_SIZE)) (BitVec.ofNat 32 ny))

/-- The rows, over the links to the south of the leaves they start with. -/
def walkRows (m : Map) (startx1 : Nat) (columns : List Nat) :
    List Nat → Option LeafId → List LeafId
  | [], _ => []
  | ny :: rows, leafS =>
      let next := match leafS with
        | some leafS => (m.leaves leafS).leafS
        | none =>
            m.root.getLeafStatic (BitVec.ofNat 32 startx1) (BitVec.ofNat 32 (ny + FLOOR_SIZE))
      m.walkRow ny columns leafS ++ m.walkRows startx1 columns rows next

end Map

/-- `for (n = start; n <= stop; n += FLOOR_SIZE)` -/
def steps (start stop : Nat) : List Nat :=
  List.range' start ((stop + FLOOR_SIZE - start) / FLOOR_SIZE) FLOOR_SIZE

def corner (x : Nat) : Nat := x - x % FLOOR_SIZE

/-- The leaves that `getSpectatorsInternal` walks over, from `(x1, y1)` to `(x2, y2)`. -/
def Map.walk (m : Map) (x1 y1 x2 y2 : BitVec 16) : List LeafId :=
  let startx1 := corner x1.toNat
  let starty1 := corner y1.toNat
  let startLeaf := m.root.getLeafStatic (BitVec.ofNat 32 startx1) (BitVec.ofNat 32 starty1)
  m.walkRows startx1 (steps startx1 (corner x2.toNat)) (steps starty1 (corner y2.toNat)) startLeaf

/-- The ranges around a position. -/
structure Ranges where
  minRangeX : Int
  maxRangeX : Int
  minRangeY : Int
  maxRangeY : Int
  minRangeZ : Int
  maxRangeZ : Int

/-- A border of the walk: of 32 bits, and then clipped. -/
def border (v : Int) : BitVec 16 := BitVec.ofNat 16 (min 0xFFFF (max 0 (v.bmod 0x100000000)).toNat)

section Spectators

variable (position : CreatureId → KeepDistance.Position) (centerPos : KeepDistance.Position)
  (r : Ranges)

/-- Whether a creature is in the range on its own floor. -/
def Ranges.inRange (c : CreatureId) : Bool :=
  let cpos := position c
  let offsetZ : Int := centerPos.z.toNat - cpos.z.toNat
  ¬(r.minRangeZ > cpos.z.toNat ∨ r.maxRangeZ < cpos.z.toNat) ∧
    ¬(centerPos.y.toNat + r.minRangeY + offsetZ > cpos.y.toNat ∨
      centerPos.y.toNat + r.maxRangeY + offsetZ < cpos.y.toNat ∨
      centerPos.x.toNat + r.minRangeX + offsetZ > cpos.x.toNat ∨
      centerPos.x.toNat + r.maxRangeX + offsetZ < cpos.x.toNat)

/-- `getSpectatorsInternal`; farther floors are seen shifted, so the borders are those of the
lowest and the highest one. -/
def Map.getSpectatorsInternal (m : Map) (spectators : Finset CreatureId) (onlyPlayers : Bool) :
    Finset CreatureId :=
  let minoffset := (centerPos.z.toNat : Int) - r.maxRangeZ
  let x1 := border (centerPos.x.toNat + r.minRangeX + minoffset)
  let y1 := border (centerPos.y.toNat + r.minRangeY + minoffset)
  let maxoffset := (centerPos.z.toNat : Int) - r.minRangeZ
  let x2 := border (centerPos.x.toNat + r.maxRangeX + maxoffset)
  let y2 := border (centerPos.y.toNat + r.maxRangeY + maxoffset)
  (m.walk x1 y1 x2 y2).foldl (fun spectators leaf =>
    let node_list :=
      if onlyPlayers then (m.leaves leaf).player_list else (m.leaves leaf).creature_list
    node_list.foldl (fun spectators c =>
      if r.inRange position centerPos c then insert c spectators else spectators) spectators)
    spectators

end Spectators

/-! ### Runs -/

inductive Event
  | setTile (x y : BitVec 16) (z : BitVec 8) (newTile : TileRef)
  | addCreature (x y : BitVec 16) (c : CreatureId) (player : Bool)
  | removeCreature (x y : BitVec 16) (c : CreatureId) (player : Bool)
  /-- What other operations do on a tile. -/
  | changeTile (t : TileRef) (tile : TileIndex.Tile)

namespace Map

variable (kind : ItemRef → TileIndex.Kind)

def step (m : Map) : Event → Map
  | .setTile x y z newTile => m.setTile kind x y z newTile
  | .addCreature x y c player =>
      match m.getQTNode x y with
      | some leaf => m.modify leaf (·.addCreature c player)
      | none => m
  | .removeCreature x y c player =>
      match m.getQTNode x y with
      | some leaf => m.modify leaf (·.removeCreature c player)
      | none => m
  | .changeTile t tile => { m with tiles := Function.update m.tiles t tile }

def run (m : Map) (events : List Event) : Map := events.foldl (step kind) m

end Map

/-! ### Links -/

namespace Map

variable {m m' : Map} {x y x' y' : BitVec 32} {id : LeafId}

@[simp] theorem linkS_root (m : Map) (l s : Option LeafId) : (m.linkS l s).root = m.root := by
  unfold linkS; split <;> rfl

@[simp] theorem linkE_root (m : Map) (l s : Option LeafId) : (m.linkE l s).root = m.root := by
  unfold linkE; split <;> rfl

@[simp] theorem linkS_allocated (m : Map) (l s : Option LeafId) :
    (m.linkS l s).allocated = m.allocated := by
  unfold linkS; split <;> rfl

@[simp] theorem linkE_allocated (m : Map) (l s : Option LeafId) :
    (m.linkE l s).allocated = m.allocated := by
  unfold linkE; split <;> rfl

@[simp] theorem linkS_tiles (m : Map) (l s : Option LeafId) : (m.linkS l s).tiles = m.tiles := by
  unfold linkS; split <;> rfl

@[simp] theorem linkE_tiles (m : Map) (l s : Option LeafId) : (m.linkE l s).tiles = m.tiles := by
  unfold linkE; split <;> rfl

theorem linkS_leaves (m : Map) (l s : Option LeafId) (id : LeafId) :
    (m.linkS l s).leaves id = { m.leaves id with
      leafS := if l = some id ∧ s.isSome then s else (m.leaves id).leafS } := by
  unfold linkS modify
  cases l with
  | none => simp
  | some l =>
      cases s with
      | none => simp
      | some s =>
          by_cases hid : id = l
          · simp [hid]
          · simp [hid, Ne.symm hid]

theorem linkE_leaves (m : Map) (l s : Option LeafId) (id : LeafId) :
    (m.linkE l s).leaves id = { m.leaves id with
      leafE := if l = some id ∧ s.isSome then s else (m.leaves id).leafE } := by
  unfold linkE modify
  cases l with
  | none => simp
  | some l =>
      cases s with
      | none => simp
      | some s =>
          by_cases hid : id = l
          · simp [hid]
          · simp [hid, Ne.symm hid]

@[simp] theorem linkLeaf_root (m : Map) (leaf : LeafId) (x y : BitVec 32) :
    (m.linkLeaf leaf x y).root = m.root := by simp [linkLeaf]

@[simp] theorem linkLeaf_allocated (m : Map) (leaf : LeafId) (x y : BitVec 32) :
    (m.linkLeaf leaf x y).allocated = m.allocated := by simp [linkLeaf]

@[simp] theorem linkLeaf_tiles (m : Map) (leaf : LeafId) (x y : BitVec 32) :
    (m.linkLeaf leaf x y).tiles = m.tiles := by simp [linkLeaf]

/-- Of a leaf only its own links change, and those that lead to it. -/
theorem linkLeaf_leaves (m : Map) (leaf : LeafId) (x y : BitVec 32) (id : LeafId) :
    (m.linkLeaf leaf x y).leaves id = { m.leaves id with
      leafS :=
        if leaf = id ∧ (m.root.getLeaf x (y + 8)).isSome then m.root.getLeaf x (y + 8)
        else if m.root.getLeaf x (y - 8) = some id then some leaf else (m.leaves id).leafS
      leafE :=
        if leaf = id ∧ (m.root.getLeaf (x + 8) y).isSome then m.root.getLeaf (x + 8) y
        else if m.root.getLeaf (x - 8) y = some id then some leaf else (m.leaves id).leafE } := by
  simp [linkLeaf, linkS_leaves, linkE_leaves, FLOOR_SIZE]

/-- The leaf of a block. -/
def cell (m : Map) : BitVec 13 × BitVec 13 → Option LeafId := m.root.cell

/-- Every leaf is that of one block, and its links are the leaves of the blocks next to it. -/
structure Linked (m : Map) : Prop where
  rooted : Rooted m.root
  fresh : ∀ ⦃b id⦄, m.cell b = some id → id < m.allocated
  single : NeighbourLinks.Single m.cell
  east : NeighbourLinks.Leads (1, 0) m.cell fun id => (m.leaves id).leafE
  south : NeighbourLinks.Leads (0, 1) m.cell fun id => (m.leaves id).leafS

theorem linked_empty (tiles : TileRef → TileIndex.Tile) : Linked { tiles } where
  rooted := ⟨fun _ => PathTree.uniform_null 12, _, rfl⟩
  fresh _ _ h := absurd h.symm (Option.some_ne_none _)
  single _ _ _ h := absurd h.symm (Option.some_ne_none _)
  east _ _ h := absurd h.symm (Option.some_ne_none _)
  south _ _ h := absurd h.symm (Option.some_ne_none _)

/-- Steps that leave the tree and the links alone. -/
theorem Linked.of_leaves (h : Linked m) (hrooted : Rooted m'.root) (hcell : m'.cell = m.cell)
    (hallocated : m'.allocated = m.allocated)
    (hE : ∀ id, (m'.leaves id).leafE = (m.leaves id).leafE)
    (hS : ∀ id, (m'.leaves id).leafS = (m.leaves id).leafS) : Linked m' where
  rooted := hrooted
  fresh := by
    rw [hcell, hallocated]
    exact h.fresh
  single := hcell ▸ h.single
  east := by
    rw [hcell, funext hE]
    exact h.east
  south := by
    rw [hcell, funext hS]
    exact h.south

/-! ### A leaf -/

/-- The leaf is there; the tree has the path to it already. -/
theorem makeLeaf_of_some (h : Linked m) (hid : m.root.getLeaf x y = some id) :
    m.makeLeaf x y = ({ m with root := m.root.grow m.allocated (path 13 x y) }, id) := by
  rw [makeLeaf, h.rooted.createLeaf_eq, hid]
  rfl

/-- The map with a new leaf, before it is linked. -/
def withLeaf (m : Map) (x y : BitVec 32) : Map :=
  { m with
    root := m.root.grow m.allocated (path 13 x y)
    leaves := Function.update m.leaves m.allocated {}
    allocated := m.allocated + 1 }

theorem makeLeaf_of_none (h : Linked m) (hid : m.root.getLeaf x y = none) :
    m.makeLeaf x y = ((m.withLeaf x y).linkLeaf m.allocated x y, m.allocated) := by
  rw [makeLeaf, h.rooted.createLeaf_eq, hid]
  rfl

theorem Linked.rooted_withLeaf (h : Linked m) (x y : BitVec 32) : Rooted (m.withLeaf x y).root :=
  h.rooted.grow m.allocated x y

theorem Linked.cell_withLeaf (h : Linked m) (hid : m.root.getLeaf x y = none) :
    (m.withLeaf x y).cell = Function.update m.cell (block x, block y) (some m.allocated) := by
  refine (h.rooted.cell_grow m.allocated x y).trans ?_
  rw [hid]
  rfl

@[simp] theorem linkLeaf_cell (m : Map) (leaf : LeafId) (x y : BitVec 32) :
    (m.linkLeaf leaf x y).cell = m.cell := by
  unfold cell
  rw [linkLeaf_root]

/-- Beside the new leaf the blocks have the leaves they had. -/
theorem Linked.getLeaf_withLeaf (h : Linked m) (hid : m.root.getLeaf x y = none)
    (x' y' : BitVec 32) {d : BitVec 13 × BitVec 13} (hd : d ≠ 0)
    (hblock : (block x', block y') = (block x, block y) + d) :
    (m.withLeaf x y).root.getLeaf x' y' = m.cell ((block x, block y) + d) := by
  refine ((h.rooted_withLeaf x y).getLeaf_eq_cell x' y').trans ?_
  rw [hblock]
  exact (congrFun (h.cell_withLeaf hid) _).trans
    (Function.update_of_ne (fun hb => hd (add_eq_left.mp hb)) _ _)

theorem Linked.linkLeaf (h : Linked m) (hid : m.root.getLeaf x y = none) :
    Linked ((m.withLeaf x y).linkLeaf m.allocated x y) := by
  have hcell := h.cell_withLeaf hid
  have hnew (b : BitVec 13 × BitVec 13) : m.cell b ≠ some m.allocated :=
    fun hb => Nat.lt_irrefl _ (h.fresh hb)
  have hleaves (id : LeafId) : (m.withLeaf x y).leaves id =
      if id = m.allocated then {} else m.leaves id := Function.update_apply _ _ _ _
  have hstep (b d : BitVec 13 × BitVec 13) : b + -d = b - d := (sub_eq_add_neg b d).symm
  have hE (id : LeafId) : (((m.withLeaf x y).linkLeaf m.allocated x y).leaves id).leafE =
      NeighbourLinks.relink m.cell (fun id => (m.leaves id).leafE) (1, 0) (block x, block y)
        m.allocated id := by
    have hnext := h.getLeaf_withLeaf hid (x + 8) y (d := (1, 0)) (by decide)
      (by rw [block_add]; simp)
    have hbefore := h.getLeaf_withLeaf hid (x - 8) y (d := -(1, 0)) (by decide)
      (by rw [block_sub]; simp [sub_eq_add_neg])
    rw [linkLeaf_leaves, NeighbourLinks.relink, hnext, hbefore, hleaves, hstep]
    dsimp only
    rw [apply_ite QTreeLeafNode.leafE]
  have hS (id : LeafId) : (((m.withLeaf x y).linkLeaf m.allocated x y).leaves id).leafS =
      NeighbourLinks.relink m.cell (fun id => (m.leaves id).leafS) (0, 1) (block x, block y)
        m.allocated id := by
    have hnext := h.getLeaf_withLeaf hid x (y + 8) (d := (0, 1)) (by decide)
      (by rw [block_add]; simp)
    have hbefore := h.getLeaf_withLeaf hid x (y - 8) (d := -(0, 1)) (by decide)
      (by rw [block_sub]; simp [sub_eq_add_neg])
    rw [linkLeaf_leaves, NeighbourLinks.relink, hnext, hbefore, hleaves, hstep]
    dsimp only
    rw [apply_ite QTreeLeafNode.leafS]
  exact {
    rooted := by
      rw [linkLeaf_root]
      exact h.rooted_withLeaf x y
    fresh := by
      intro b id hb
      rw [linkLeaf_cell, hcell] at hb
      rw [linkLeaf_allocated]
      by_cases hblock : b = (block x, block y)
      · rw [hblock, Function.update_self] at hb
        exact Option.some.inj hb ▸ Nat.lt_succ_self _
      · rw [Function.update_of_ne hblock] at hb
        exact Nat.lt_succ_of_lt (h.fresh hb)
    single := by
      rw [linkLeaf_cell, hcell]
      exact h.single.enter hnew _
    east := by
      rw [linkLeaf_cell, hcell, funext hE]
      exact h.east.enter h.single hnew (by decide) _
    south := by
      rw [linkLeaf_cell, hcell, funext hS]
      exact h.south.enter h.single hnew (by decide) _ }

theorem Linked.cell_grow_of_some (h : Linked m) (hid : m.root.getLeaf x y = some id) :
    QTreeNode.cell (m.root.grow m.allocated (path 13 x y)) = m.cell := by
  have hcell := hid
  rw [h.rooted.getLeaf_eq_cell] at hcell
  rw [h.rooted.cell_grow, hid, Option.getD_some, ← hcell]
  exact Function.update_eq_self _ _

theorem Linked.makeLeaf (h : Linked m) (x y : BitVec 32) : Linked (m.makeLeaf x y).1 := by
  cases hid : m.root.getLeaf x y with
  | none =>
      rw [makeLeaf_of_none h hid]
      exact h.linkLeaf hid
  | some id =>
      rw [makeLeaf_of_some h hid]
      exact h.of_leaves (h.rooted.grow _ x y) (h.cell_grow_of_some hid) rfl (fun _ => rfl)
        fun _ => rfl

/-- What `makeLeaf` gives is the leaf of the block. -/
theorem Linked.cell_makeLeaf (h : Linked m) (x y : BitVec 32) :
    (m.makeLeaf x y).1.cell (block x, block y) = some (m.makeLeaf x y).2 := by
  cases hid : m.root.getLeaf x y with
  | none =>
      rw [makeLeaf_of_none h hid, linkLeaf_cell, h.cell_withLeaf hid]
      exact Function.update_self _ _ _
  | some id =>
      rw [makeLeaf_of_some h hid]
      refine (congrFun (h.cell_grow_of_some hid) _).trans ?_
      rw [cell, ← h.rooted.getLeaf_eq_cell, hid]

@[simp] theorem Linked.makeLeaf_tiles (h : Linked m) (x y : BitVec 32) :
    (m.makeLeaf x y).1.tiles = m.tiles := by
  cases hid : m.root.getLeaf x y with
  | none =>
      rw [makeLeaf_of_none h hid, linkLeaf_tiles]
      rfl
  | some id => rw [makeLeaf_of_some h hid]

/-! ### A place -/

/-- The block of a coordinate. -/
def home (x y : BitVec 16) : BitVec 13 × BitVec 13 :=
  (block (x.setWidth 32), block (y.setWidth 32))

/-- The block and the place in it tell coordinates apart. -/
theorem coordinate_ext {x x' : BitVec 16} (hblock : block (x.setWidth 32) = block (x'.setWidth 32))
    (hoffset : offset x = offset x') : x = x' := by
  have hlow (x : BitVec 16) : (offset x).toNat = x.toNat % 8 := by
    have hmask := Nat.and_two_pow_sub_one_eq_mod x.toNat 3
    rw [offset, BitVec.toNat_setWidth, BitVec.toNat_and]
    exact (congrArg (· % 8) hmask).trans (Nat.mod_mod _ _)
  have hhigh := congrArg BitVec.toNat hblock
  have hmod := congrArg BitVec.toNat hoffset
  rw [toNat_block, toNat_block, BitVec.toNat_setWidth, BitVec.toNat_setWidth] at hhigh
  rw [hlow, hlow] at hmod
  apply BitVec.eq_of_toNat_eq
  omega

/-- The tile in a place of a block. -/
def slot (m : Map) (b : BitVec 13 × BitVec 13) (z : Fin MAP_MAX_LAYERS) (ox oy : BitVec 3) :
    Option TileRef :=
  (m.cell b).bind fun leaf => ((m.leaves leaf).createFloor z).tiles ox oy

theorem getFloor_bind (l : QTreeLeafNode) (z : Fin MAP_MAX_LAYERS) (ox oy : BitVec 3) :
    ((l.getFloor z).bind fun floor => floor.tiles ox oy) = (l.createFloor z).tiles ox oy := by
  unfold QTreeLeafNode.createFloor
  cases l.getFloor z with
  | none => rfl
  | some floor => rfl

theorem Linked.getTile_eq_slot (h : Linked m) (x y : BitVec 16) {z : BitVec 8}
    (hz : z.toNat < MAP_MAX_LAYERS) :
    m.getTile x y z = m.slot (home x y) ⟨z.toNat, hz⟩ (offset x) (offset y) := by
  rw [getTile, dif_pos hz, h.rooted.getLeafStatic_eq, h.rooted.getLeaf_eq_cell]
  simp only [getFloor_bind]
  rfl

theorem linkLeaf_createFloor (m : Map) (leaf : LeafId) (x y : BitVec 32) (id : LeafId)
    (z : Fin MAP_MAX_LAYERS) :
    ((m.linkLeaf leaf x y).leaves id).createFloor z = (m.leaves id).createFloor z := by
  rw [linkLeaf_leaves]
  rfl

/-- A new leaf has no tiles yet. -/
theorem Linked.slot_makeLeaf (h : Linked m) (x y : BitVec 32) :
    (m.makeLeaf x y).1.slot = m.slot := by
  funext b z ox oy
  cases hid : m.root.getLeaf x y with
  | none =>
      have hempty : m.cell (block x, block y) = none := by
        rw [cell, ← h.rooted.getLeaf_eq_cell, hid]
      rw [makeLeaf_of_none h hid, slot, slot, linkLeaf_cell, h.cell_withLeaf hid]
      by_cases hb : b = (block x, block y)
      · have hnew : (m.withLeaf x y).leaves m.allocated = {} := Function.update_self _ _ _
        rw [hb, Function.update_self, hempty, Option.bind_some, linkLeaf_createFloor, hnew]
        rfl
      · rw [Function.update_of_ne hb]
        cases hcell : m.cell b with
        | none => rfl
        | some leaf =>
            have hne : leaf ≠ m.allocated := Nat.ne_of_lt (h.fresh hcell)
            rw [Option.bind_some, Option.bind_some, linkLeaf_createFloor]
            exact congrArg (fun l => (QTreeLeafNode.createFloor l z).tiles ox oy)
              (Function.update_of_ne hne _ _)
  | some id =>
      rw [makeLeaf_of_some h hid, slot, slot]
      exact congrArg (Option.bind · _) (congrFun (h.cell_grow_of_some hid) b)

theorem createFloor_setFloor (l : QTreeLeafNode) (z z' : Fin MAP_MAX_LAYERS) (floor : Floor) :
    (l.setFloor z floor).createFloor z' = if z' = z then floor else l.createFloor z' := by
  unfold QTreeLeafNode.createFloor QTreeLeafNode.setFloor QTreeLeafNode.getFloor
  dsimp only
  rw [Function.update_apply]
  split <;> rfl

/-- A floor that is set is seen in its block alone. -/
theorem Linked.slot_setFloor (h : Linked m) {b : BitVec 13 × BitVec 13} {leaf : LeafId}
    (hleaf : m.cell b = some leaf) (z : Fin MAP_MAX_LAYERS) (floor : Floor)
    (b' : BitVec 13 × BitVec 13) (z' : Fin MAP_MAX_LAYERS) (ox oy : BitVec 3) :
    (m.modify leaf (·.setFloor z floor)).slot b' z' ox oy =
      if b' = b ∧ z' = z then floor.tiles ox oy else m.slot b' z' ox oy := by
  change (m.cell b').bind (fun id => ((Function.update m.leaves leaf
    ((m.leaves leaf).setFloor z floor) id).createFloor z').tiles ox oy) = _
  by_cases hb : b' = b
  · rw [hb, slot, hleaf, Option.bind_some, Option.bind_some, Function.update_self,
      createFloor_setFloor]
    by_cases hz : z' = z
    · rw [if_pos hz, if_pos ⟨rfl, hz⟩]
    · rw [if_neg hz, if_neg fun hbz => hz hbz.2]
  · rw [if_neg fun hbz => hb hbz.1, slot]
    cases hcell : m.cell b' with
    | none => rfl
    | some id =>
        have hne : id ≠ leaf := fun hid => hb (h.single (hid ▸ hcell) hleaf)
        rw [Option.bind_some, Option.bind_some, Function.update_of_ne hne]

theorem tiles_set (floor : Floor) (ox oy : BitVec 3) (t : TileRef) (ox' oy' : BitVec 3) :
    (floor.set ox oy t).tiles ox' oy' =
      if ox' = ox ∧ oy' = oy then some t else floor.tiles ox' oy' := by
  dsimp only [Floor.set]
  by_cases hx : ox' = ox
  · rw [hx, Function.update_self, Function.update_apply]
    simp
  · rw [Function.update_of_ne hx, if_neg fun hxy => hx hxy.1]

variable (kind : ItemRef → TileIndex.Kind)

theorem placeTile_of_none {leaf : LeafId} {x y : BitVec 16} {z : Fin MAP_MAX_LAYERS} {t : TileRef}
    (htile : ((m.leaves leaf).createFloor z).tiles (offset x) (offset y) = none) :
    m.placeTile kind leaf x y z t =
      m.modify leaf (·.setFloor z (((m.leaves leaf).createFloor z).set (offset x) (offset y) t)) := by
  rw [placeTile, htile]

theorem placeTile_of_some {leaf : LeafId} {x y : BitVec 16} {z : Fin MAP_MAX_LAYERS}
    {t tile : TileRef}
    (htile : ((m.leaves leaf).createFloor z).tiles (offset x) (offset y) = some tile) :
    m.placeTile kind leaf x y z t =
      { m.modify leaf (·.setFloor z ((m.leaves leaf).createFloor z)) with
        tiles := mergeTile kind m.tiles tile t } := by
  rw [placeTile, htile]

/-- A place keeps its tile, and takes the new one where it has none. -/
theorem Linked.slot_placeTile (h : Linked m) {leaf : LeafId} {x y : BitVec 16}
    (hleaf : m.cell (home x y) = some leaf) (z : Fin MAP_MAX_LAYERS) (t : TileRef)
    (b : BitVec 13 × BitVec 13) (z' : Fin MAP_MAX_LAYERS) (ox oy : BitVec 3) :
    (m.placeTile kind leaf x y z t).slot b z' ox oy =
      if (b = home x y ∧ z' = z) ∧ ox = offset x ∧ oy = offset y then
        some ((m.slot b z' ox oy).getD t)
      else m.slot b z' ox oy := by
  have hslot (ox oy : BitVec 3) :
      m.slot (home x y) z ox oy = ((m.leaves leaf).createFloor z).tiles ox oy := by
    rw [slot, hleaf, Option.bind_some]
  cases htile : ((m.leaves leaf).createFloor z).tiles (offset x) (offset y) with
  | none =>
      rw [placeTile_of_none kind htile, h.slot_setFloor hleaf]
      by_cases hbz : b = home x y ∧ z' = z
      · obtain ⟨rfl, rfl⟩ := hbz
        rw [if_pos ⟨rfl, rfl⟩, tiles_set, hslot]
        by_cases hplace : ox = offset x ∧ oy = offset y
        · obtain ⟨rfl, rfl⟩ := hplace
          rw [if_pos ⟨rfl, rfl⟩, if_pos ⟨⟨rfl, rfl⟩, rfl, rfl⟩, htile, Option.getD_none]
        · rw [if_neg hplace, if_neg fun hall => hplace hall.2]
      · rw [if_neg hbz, if_neg fun hall => hbz hall.1]
  | some tile =>
      rw [placeTile_of_some kind htile]
      refine (h.slot_setFloor hleaf _ _ _ _ _ _).trans ?_
      by_cases hbz : b = home x y ∧ z' = z
      · obtain ⟨rfl, rfl⟩ := hbz
        rw [if_pos ⟨rfl, rfl⟩, hslot]
        by_cases hplace : ox = offset x ∧ oy = offset y
        · obtain ⟨rfl, rfl⟩ := hplace
          rw [if_pos ⟨⟨rfl, rfl⟩, rfl, rfl⟩, htile, Option.getD_some]
        · rw [if_neg fun hall => hplace hall.2]
      · rw [if_neg hbz, if_neg fun hall => hbz hall.1]

/-- Changes of a leaf that are not to its links. -/
theorem Linked.modify (h : Linked m) (leaf : LeafId) {f : QTreeLeafNode → QTreeLeafNode}
    (hE : ∀ l, (f l).leafE = l.leafE) (hS : ∀ l, (f l).leafS = l.leafS) :
    Linked (m.modify leaf f) := by
  have hlink {g : QTreeLeafNode → Option LeafId} (hg : ∀ l, g (f l) = g l) (id : LeafId) :
      g ((m.modify leaf f).leaves id) = g (m.leaves id) := by
    change g (Function.update m.leaves leaf (f (m.leaves leaf)) id) = _
    by_cases hid : id = leaf
    · rw [hid, Function.update_self, hg]
    · rw [Function.update_of_ne hid]
  exact h.of_leaves h.rooted rfl rfl (hlink hE) (hlink hS)

theorem Linked.placeTile (h : Linked m) (leaf : LeafId) (x y : BitVec 16) (z : Fin MAP_MAX_LAYERS)
    (t : TileRef) : Linked (m.placeTile kind leaf x y z t) := by
  cases htile : ((m.leaves leaf).createFloor z).tiles (offset x) (offset y) with
  | none =>
      rw [placeTile_of_none kind htile]
      exact h.modify leaf (fun _ => rfl) fun _ => rfl
  | some tile =>
      rw [placeTile_of_some kind htile]
      exact (h.modify leaf (f := (·.setFloor z _)) (fun _ => rfl) fun _ => rfl).of_leaves
        h.rooted rfl rfl (fun _ => rfl) fun _ => rfl

/-! ### `setTile` -/

theorem Linked.setTile (h : Linked m) (x y : BitVec 16) (z : BitVec 8) (t : TileRef) :
    Linked (m.setTile kind x y z t) := by
  rw [Map.setTile]
  split
  · exact (h.makeLeaf _ _).placeTile kind _ _ _ _ _
  · exact h

theorem place_ext {x y x' y' : BitVec 16} : (home x' y' = home x y ∧
    offset x' = offset x ∧ offset y' = offset y) ↔ x' = x ∧ y' = y := by
  constructor
  · rintro ⟨hhome, hx, hy⟩
    obtain ⟨hblockx, hblocky⟩ := Prod.mk.inj hhome
    exact ⟨coordinate_ext hblockx hx, coordinate_ext hblocky hy⟩
  · rintro ⟨rfl, rfl⟩
    exact ⟨rfl, rfl, rfl⟩

/-- Every coordinate keeps its tile; the one that is set has one afterwards. -/
theorem Linked.getTile_setTile (h : Linked m) (x y : BitVec 16) (z : BitVec 8) (t : TileRef)
    (x' y' : BitVec 16) (z' : BitVec 8) :
    (m.setTile kind x y z t).getTile x' y' z' =
      if (x' = x ∧ y' = y ∧ z' = z) ∧ z'.toNat < MAP_MAX_LAYERS then
        some ((m.getTile x' y' z').getD t)
      else m.getTile x' y' z' := by
  have hset := h.setTile kind x y z t
  by_cases hz' : z'.toNat < MAP_MAX_LAYERS
  · rw [hset.getTile_eq_slot x' y' hz', h.getTile_eq_slot x' y' hz', Map.setTile]
    by_cases hz : z.toNat < MAP_MAX_LAYERS
    · have hleaf := h.cell_makeLeaf (x.setWidth 32) (y.setWidth 32)
      have hplace : (((home x' y' = home x y ∧ (⟨z'.toNat, hz'⟩ : Fin MAP_MAX_LAYERS) =
          ⟨z.toNat, hz⟩) ∧ offset x' = offset x ∧ offset y' = offset y) ↔
          (x' = x ∧ y' = y ∧ z' = z) ∧ z'.toNat < MAP_MAX_LAYERS) := by
        rw [Fin.mk.injEq, BitVec.toNat_inj, and_right_comm, place_ext, and_assoc]
        exact (and_iff_left hz').symm
      rw [dif_pos hz]
      refine ((h.makeLeaf _ _).slot_placeTile kind hleaf _ t _ _ _ _).trans ?_
      rw [h.slot_makeLeaf]
      exact if_congr hplace rfl rfl
    · have hne : ¬((x' = x ∧ y' = y ∧ z' = z) ∧ z'.toNat < MAP_MAX_LAYERS) := by
        rintro ⟨⟨-, -, rfl⟩, hlt⟩
        exact hz hlt
      rw [dif_neg hz, if_neg hne]
  · rw [if_neg fun hall => hz' hall.2, getTile, getTile, dif_neg hz', dif_neg hz']

/-! ### Over runs -/

theorem Linked.step (h : Linked m) (e : Event) : Linked (m.step kind e) := by
  cases e with
  | setTile x y z t => exact h.setTile kind x y z t
  | addCreature x y c player =>
      rw [Map.step]
      split
      · exact h.modify _ (fun _ => rfl) fun _ => rfl
      · exact h
  | removeCreature x y c player =>
      rw [Map.step]
      split
      · exact h.modify _ (fun _ => rfl) fun _ => rfl
      · exact h
  | changeTile t tile => exact h.of_leaves h.rooted rfl rfl (fun _ => rfl) fun _ => rfl

theorem Linked.run (h : Linked m) (events : List Event) : Linked (m.run kind events) := by
  induction events generalizing m with
  | nil => exact h
  | cons e events ih => exact ih (h.step kind e)

/-- The tile that an event sets at a coordinate. -/
def tileAt (x y : BitVec 16) (z : BitVec 8) : Event → Option TileRef
  | .setTile x' y' z' t => if x = x' ∧ y = y' ∧ z = z' then some t else none
  | .addCreature _ _ _ _ => none
  | .removeCreature _ _ _ _ => none
  | .changeTile _ _ => none

/-- The tile that the first `setTile` at a coordinate is given. -/
def firstTile (x y : BitVec 16) (z : BitVec 8) (events : List Event) : Option TileRef :=
  events.findSome? (tileAt x y z)

theorem getTile_modify (m : Map) (leaf : LeafId) {f : QTreeLeafNode → QTreeLeafNode}
    (hf : ∀ l, (f l).array = l.array) : (m.modify leaf f).getTile = m.getTile := by
  have hfloor (id : LeafId) (z : Fin MAP_MAX_LAYERS) :
      ((m.modify leaf f).leaves id).getFloor z = (m.leaves id).getFloor z := by
    change (Function.update m.leaves leaf (f (m.leaves leaf)) id).array z = (m.leaves id).array z
    by_cases hid : id = leaf
    · rw [hid, Function.update_self, hf]
    · rw [Function.update_of_ne hid]
  funext x y z
  unfold getTile
  simp only [hfloor]
  rfl

/-- A step leaves the tiles that are there. -/
theorem Linked.getTile_step (h : Linked m) (e : Event) (x y : BitVec 16) {z : BitVec 8}
    (hz : z.toNat < MAP_MAX_LAYERS) :
    (m.step kind e).getTile x y z = (m.getTile x y z).or (tileAt x y z e) := by
  cases e with
  | setTile x' y' z' t =>
      rw [Map.step, h.getTile_setTile, tileAt]
      by_cases hplace : x = x' ∧ y = y' ∧ z = z'
      · rw [if_pos ⟨hplace, hz⟩, if_pos hplace]
        cases m.getTile x y z <;> rfl
      · rw [if_neg fun hall => hplace hall.1, if_neg hplace, Option.or_none]
  | addCreature x' y' c player =>
      rw [Map.step, tileAt, Option.or_none]
      split
      · rw [getTile_modify m _ (f := (·.addCreature c player)) fun _ => rfl]
      · rfl
  | removeCreature x' y' c player =>
      rw [Map.step, tileAt, Option.or_none]
      split
      · rw [getTile_modify m _ (f := (·.removeCreature c player)) fun _ => rfl]
      · rfl
  | changeTile t tile => exact (Option.or_none).symm

/-- A run gives a coordinate without a tile the first that is set there. -/
theorem Linked.getTile_run (h : Linked m) (events : List Event) (x y : BitVec 16) {z : BitVec 8}
    (hz : z.toNat < MAP_MAX_LAYERS) :
    (m.run kind events).getTile x y z = (m.getTile x y z).or (firstTile x y z events) := by
  induction events generalizing m with
  | nil => exact (Option.or_none).symm
  | cons e events ih =>
      refine (ih (h.step kind e)).trans ?_
      rw [h.getTile_step kind e x y hz, firstTile, firstTile, List.findSome?_cons, Option.or_assoc]
      cases tileAt x y z e <;> rfl

/-! ### The leaves of a range -/

/-- The leaf at a coordinate of the walk. -/
def sector (m : Map) (nx ny : Nat) : Option LeafId :=
  m.root.getLeaf (BitVec.ofNat 32 nx) (BitVec.ofNat 32 ny)

theorem block_ofNat_add (n : Nat) :
    block (BitVec.ofNat 32 (n + FLOOR_SIZE)) = block (BitVec.ofNat 32 n) + 1 := by
  rw [← block_add, BitVec.ofNat_add]
  rfl

theorem Linked.leafE (h : Linked m) {nx ny : Nat} (hid : m.sector nx ny = some id) :
    (m.leaves id).leafE = m.sector (nx + FLOOR_SIZE) ny := by
  rw [sector, h.rooted.getLeaf_eq_cell] at hid ⊢
  rw [block_ofNat_add]
  exact (h.east hid).trans (by simp [cell])

theorem Linked.leafS (h : Linked m) {nx ny : Nat} (hid : m.sector nx ny = some id) :
    (m.leaves id).leafS = m.sector nx (ny + FLOOR_SIZE) := by
  rw [sector, h.rooted.getLeaf_eq_cell] at hid ⊢
  rw [block_ofNat_add]
  exact (h.south hid).trans (by simp [cell])

/-- A row meets the leaves of its columns, whether over links or by searches. -/
theorem Linked.walkRow_eq (h : Linked m) (ny start len : Nat) :
    m.walkRow ny (List.range' start len FLOOR_SIZE) (m.sector start ny) =
      (List.range' start len FLOOR_SIZE).filterMap fun nx => m.sector nx ny := by
  induction len generalizing start with
  | zero => rfl
  | succ len ih =>
      rw [List.range'_succ]
      cases hid : m.sector start ny with
      | none =>
          rw [walkRow, List.filterMap_cons_none (f := (m.sector · ny)) hid, h.rooted.getLeafStatic_eq]
          exact ih (start + FLOOR_SIZE)
      | some id =>
          rw [walkRow, List.filterMap_cons_some (f := (m.sector · ny)) hid, h.leafE hid, ih]

theorem Linked.walkRows_eq (h : Linked m) (startx1 columns starty1 len : Nat) :
    m.walkRows startx1 (List.range' startx1 columns FLOOR_SIZE)
        (List.range' starty1 len FLOOR_SIZE) (m.sector startx1 starty1) =
      (List.range' starty1 len FLOOR_SIZE).flatMap fun ny =>
        (List.range' startx1 columns FLOOR_SIZE).filterMap fun nx => m.sector nx ny := by
  induction len generalizing starty1 with
  | zero => rfl
  | succ len ih =>
      rw [List.range'_succ, List.flatMap_cons, ← h.walkRow_eq, ← ih]
      cases hid : m.sector startx1 starty1 with
      | none =>
          rw [walkRows, h.rooted.getLeafStatic_eq]
          rfl
      | some id => rw [walkRows, h.leafS hid]

theorem Linked.walk_eq (h : Linked m) (x1 y1 x2 y2 : BitVec 16) : m.walk x1 y1 x2 y2 =
    (steps (corner y1.toNat) (corner y2.toNat)).flatMap fun ny =>
      (steps (corner x1.toNat) (corner x2.toNat)).filterMap fun nx => m.sector nx ny := by
  rw [walk, h.rooted.getLeafStatic_eq]
  exact h.walkRows_eq _ _ _ _

theorem mem_steps {a b n : Nat} :
    n ∈ steps (corner a) (corner b) ↔ n % FLOOR_SIZE = 0 ∧ corner a ≤ n ∧ n ≤ corner b := by
  unfold steps corner FLOOR_SIZE
  rw [List.mem_range']
  constructor
  · rintro ⟨i, hi, rfl⟩
    omega
  · rintro ⟨hn, ha, hb⟩
    exact ⟨(n - (a - a % 8)) / 8, by omega, by omega⟩

theorem steps_nodup (start stop : Nat) : (steps start stop).Nodup :=
  List.nodup_range' FLOOR_SIZE (Nat.zero_lt_succ 7)

/-- No leaf is at two of the coordinates that walks look at. -/
theorem Linked.sector_inj (h : Linked m) {nx ny nx' ny' : Nat} (hid : m.sector nx ny = some id)
    (hid' : m.sector nx' ny' = some id)
    (hn : ∀ n ∈ [nx, ny, nx', ny'], n % FLOOR_SIZE = 0 ∧ n < 65536) : nx = nx' ∧ ny = ny' := by
  rw [sector, h.rooted.getLeaf_eq_cell] at hid hid'
  obtain ⟨hx, hy⟩ := Prod.mk.inj (h.single hid hid')
  have hblock {n n' : Nat} (hmem : n ∈ [nx, ny, nx', ny']) (hmem' : n' ∈ [nx, ny, nx', ny'])
      (hblock : block (BitVec.ofNat 32 n) = block (BitVec.ofNat 32 n')) : n = n' := by
    have htoNat := congrArg BitVec.toNat hblock
    rw [toNat_block, toNat_block, BitVec.toNat_ofNat, BitVec.toNat_ofNat] at htoNat
    have hn₁ := hn n hmem
    have hn₂ := hn n' hmem'
    unfold FLOOR_SIZE at hn₁ hn₂
    omega
  exact ⟨hblock (by simp) (by simp) hx, hblock (by simp) (by simp) hy⟩

theorem mem_steps_lt {x1 x2 : BitVec 16} {n : Nat}
    (hn : n ∈ steps (corner x1.toNat) (corner x2.toNat)) : n % FLOOR_SIZE = 0 ∧ n < 65536 := by
  have hx2 := x2.isLt
  obtain ⟨hmod, -, hle⟩ := mem_steps.mp hn
  unfold corner at hle
  exact ⟨hmod, by omega⟩

/-- No leaf is met twice. -/
theorem Linked.walk_nodup (h : Linked m) (x1 y1 x2 y2 : BitVec 16) :
    (m.walk x1 y1 x2 y2).Nodup := by
  rw [h.walk_eq, List.Nodup, List.pairwise_flatMap]
  constructor
  · intro ny hny
    rw [List.pairwise_filterMap]
    refine (steps_nodup _ _).imp_of_mem fun {nx nx'} hnx hnx' hne id hid id' hid' heq => ?_
    refine hne (h.sector_inj hid (heq ▸ hid') fun n hn => ?_).1
    simp only [List.mem_cons, List.not_mem_nil, or_false] at hn
    rcases hn with rfl | rfl | rfl | rfl
    all_goals exact mem_steps_lt ‹_›
  · refine (steps_nodup _ _).imp_of_mem fun {ny ny'} hny hny' hne id hid id' hid' heq => ?_
    obtain ⟨nx, hnx, hid⟩ := List.mem_filterMap.mp hid
    obtain ⟨nx', hnx', hid'⟩ := List.mem_filterMap.mp hid'
    refine hne (h.sector_inj hid (heq ▸ hid') fun n hn => ?_).2
    simp only [List.mem_cons, List.not_mem_nil, or_false] at hn
    rcases hn with rfl | rfl | rfl | rfl
    all_goals exact mem_steps_lt ‹_›

/-- A leaf of a coordinate in the range. -/
def Meets (m : Map) (x1 y1 x2 y2 : BitVec 16) (leaf : LeafId) : Prop :=
  ∃ x y, m.getQTNode x y = some leaf ∧ (x1 ≤ x ∧ x ≤ x2) ∧ y1 ≤ y ∧ y ≤ y2

theorem corner_mem {x1 x x2 : BitVec 16} (h : x1 ≤ x ∧ x ≤ x2) :
    corner x.toNat ∈ steps (corner x1.toNat) (corner x2.toNat) := by
  obtain ⟨h1, h2⟩ := h
  rw [BitVec.le_def] at h1 h2
  rw [mem_steps]
  unfold corner FLOOR_SIZE
  omega

theorem block_corner (x : BitVec 16) :
    block (BitVec.ofNat 32 (corner x.toNat)) = block (x.setWidth 32) := by
  have hx := x.isLt
  apply BitVec.eq_of_toNat_eq
  rw [toNat_block, toNat_block, BitVec.toNat_ofNat, BitVec.toNat_setWidth]
  unfold corner FLOOR_SIZE
  omega

theorem Linked.getQTNode_eq (h : Linked m) (x y : BitVec 16) :
    m.getQTNode x y = m.sector (corner x.toNat) (corner y.toNat) := by
  rw [getQTNode, sector, h.rooted.getLeafStatic_eq, h.rooted.getLeaf_eq_cell,
    h.rooted.getLeaf_eq_cell, block_corner, block_corner]

theorem Linked.mem_walk (h : Linked m) {x1 y1 x2 y2 : BitVec 16} {leaf : LeafId}
    (hmeets : m.Meets x1 y1 x2 y2 leaf) : leaf ∈ m.walk x1 y1 x2 y2 := by
  obtain ⟨x, y, hleaf, hx, hy⟩ := hmeets
  rw [h.getQTNode_eq] at hleaf
  rw [h.walk_eq, List.mem_flatMap]
  exact ⟨_, corner_mem hy, List.mem_filterMap.mpr ⟨_, corner_mem hx, hleaf⟩⟩

/-! ### The sectors of a run -/

/-- The map after a run. -/
def after (tiles : TileRef → TileIndex.Tile) (events : List Event) : Map :=
  ({ tiles } : Map).run kind events

theorem linked_after (tiles : TileRef → TileIndex.Tile) (events : List Event) :
    Linked (after kind tiles events) := (linked_empty tiles).run kind events

theorem getTile_empty (tiles : TileRef → TileIndex.Tile) (x y : BitVec 16) (z : BitVec 8) :
    ({ tiles } : Map).getTile x y z = none := by
  rw [getTile]
  split <;> rfl

/-- What was set first is on the map, on the layers that there are. -/
theorem getTile_after (tiles : TileRef → TileIndex.Tile) (events : List Event) (x y : BitVec 16)
    (z : BitVec 8) : (after kind tiles events).getTile x y z =
      if z.toNat < MAP_MAX_LAYERS then firstTile x y z events else none := by
  by_cases hz : z.toNat < MAP_MAX_LAYERS
  · rw [if_pos hz, after, (linked_empty tiles).getTile_run kind events x y hz, getTile_empty,
      Option.none_or]
  · rw [if_neg hz, getTile, dif_neg hz]

/-- A tile that is set where there is one is emptied into it. -/
theorem Linked.tiles_setTile (h : Linked m) {x y : BitVec 16} {z : BitVec 8} {tile : TileRef}
    (htile : m.getTile x y z = some tile) (newTile : TileRef) :
    (m.setTile kind x y z newTile).tiles = mergeTile kind m.tiles tile newTile := by
  by_cases hz : z.toNat < MAP_MAX_LAYERS
  · have hslot := h.getTile_eq_slot x y hz
    rw [htile, ← h.slot_makeLeaf (x.setWidth 32) (y.setWidth 32), slot, home, h.cell_makeLeaf,
      Option.bind_some] at hslot
    rw [Map.setTile, dif_pos hz]
    refine (congrArg Map.tiles (placeTile_of_some kind hslot.symm)).trans ?_
    exact congrArg (mergeTile kind · tile newTile) (h.makeLeaf_tiles _ _)
  · rw [getTile, dif_neg hz] at htile
    exact absurd htile.symm (Option.some_ne_none _)

theorem block_setWidth_add (x : BitVec 16) :
    block ((x + 8).setWidth 32) = block (x.setWidth 32) + 1 := by
  have height : (8 : BitVec 16).toNat = 8 := rfl
  have hone : (1 : BitVec 13).toNat = 1 := rfl
  have hx := x.isLt
  apply BitVec.eq_of_toNat_eq
  rw [toNat_block, BitVec.toNat_add, toNat_block, BitVec.toNat_setWidth, BitVec.toNat_setWidth,
    BitVec.toNat_add, height, hone]
  omega

theorem Linked.getQTNode_eq_cell (h : Linked m) (x y : BitVec 16) :
    m.getQTNode x y = m.cell (home x y) := by
  rw [getQTNode, h.rooted.getLeafStatic_eq, h.rooted.getLeaf_eq_cell]
  rfl

/-- The links of a leaf are the leaves to the east and to the south, if there are any. -/
theorem Linked.links (h : Linked m) {x y : BitVec 16} {leaf : LeafId}
    (hleaf : m.getQTNode x y = some leaf) :
    (m.leaves leaf).leafE = m.getQTNode (x + 8) y ∧
      (m.leaves leaf).leafS = m.getQTNode x (y + 8) := by
  rw [h.getQTNode_eq_cell] at hleaf
  rw [h.getQTNode_eq_cell, h.getQTNode_eq_cell, home, home, block_setWidth_add,
    block_setWidth_add]
  exact ⟨(h.east hleaf).trans (by simp [home]), (h.south hleaf).trans (by simp [home])⟩

/-- In every run a coordinate keeps its first tile, into which the later ones are emptied; the
links of a leaf are its neighbours, and a walk meets every leaf of its range once. -/
theorem sectors_indexed (tiles : TileRef → TileIndex.Tile) (events : List Event) :
    (∀ x y z, (after kind tiles events).getTile x y z =
      if z.toNat < MAP_MAX_LAYERS then firstTile x y z events else none) ∧
    (∀ x y z tile newTile, (after kind tiles events).getTile x y z = some tile →
      ((after kind tiles events).setTile kind x y z newTile).tiles =
        mergeTile kind (after kind tiles events).tiles tile newTile) ∧
    (∀ x1 y1 x2 y2 leaf, (after kind tiles events).Meets x1 y1 x2 y2 leaf →
      ((after kind tiles events).walk x1 y1 x2 y2).count leaf = 1) ∧
    ∀ x y leaf, (after kind tiles events).getQTNode x y = some leaf →
      ((after kind tiles events).leaves leaf).leafE =
        (after kind tiles events).getQTNode (x + 8) y ∧
      ((after kind tiles events).leaves leaf).leafS =
        (after kind tiles events).getQTNode x (y + 8) := by
  have hlinked := linked_after kind tiles events
  refine ⟨getTile_after kind tiles events, ?_, ?_, fun x y leaf hleaf => hlinked.links hleaf⟩
  · intro x y z tile newTile htile
    exact hlinked.tiles_setTile kind htile newTile
  · intro x1 y1 x2 y2 leaf hmeets
    exact List.count_eq_one_of_mem (hlinked.walk_nodup x1 y1 x2 y2) (hlinked.mem_walk hmeets)

end Map

namespace Sample

/-- Three tiles, the last one at the coordinate of the first. -/
def events : List Event := [.setTile 100 100 7 1, .setTile 104 100 7 2, .setTile 100 100 7 3]

theorem leaf_walked :
    ((Map.after (fun _ => {}) (fun _ => {}) events).walk 96 96 110 110).count 1 = 1 :=
  (Map.sectors_indexed (fun _ => {}) (fun _ => {}) events).2.2.1 96 96 110 110 1
    ⟨104, 100, by rfl, by decide, by decide⟩

/-- A coordinate does not get the tile that is set there last. -/
theorem last_merged : ¬∀ (events : List Event) (x y : BitVec 16) (z : BitVec 8) (t : TileRef),
    (Map.after (fun _ => {}) (fun _ => {}) (events ++ [.setTile x y z t])).getTile x y z =
      some t := by
  intro h
  have hlast := h (events.take 2) 100 100 7 3
  have hfirst : (Map.after (fun _ => {}) (fun _ => {}) events).getTile 100 100 7 = some 1 := by rfl
  exact absurd (hfirst.symm.trans hlast) (by decide)

end Sample

/-! ### Spectators -/

section Spectators

variable {α : Type*} [DecidableEq α] {c : α} {s : Finset α} {l : List α}

theorem mem_foldl_insert (p : α → Bool) : c ∈ l.foldl (fun s c => if p c then insert c s else s) s ↔
    c ∈ s ∨ c ∈ l ∧ p c = true := by
  induction l generalizing s with
  | nil => simp
  | cons d l ih =>
      rw [List.foldl_cons, ih, List.mem_cons]
      by_cases hd : p d = true
      · rw [if_pos hd, Finset.mem_insert]
        constructor
        · rintro ((rfl | hs) | hl)
          · exact .inr ⟨.inl rfl, hd⟩
          · exact .inl hs
          · exact .inr ⟨.inr hl.1, hl.2⟩
        · rintro (hs | ⟨rfl | hl, hc⟩)
          · exact .inl (.inr hs)
          · exact .inl (.inl rfl)
          · exact .inr ⟨hl, hc⟩
      · rw [if_neg hd]
        constructor
        · rintro (hs | hl)
          · exact .inl hs
          · exact .inr ⟨.inr hl.1, hl.2⟩
        · rintro (hs | ⟨rfl | hl, hc⟩)
          · exact .inl hs
          · exact absurd hc hd
          · exact .inr ⟨hl, hc⟩

theorem mem_foldl_lists {β : Type*} (p : α → Bool) (list : β → List α) (leaves : List β) :
    c ∈ leaves.foldl
        (fun s leaf => (list leaf).foldl (fun s c => if p c then insert c s else s) s) s ↔
      c ∈ s ∨ (∃ leaf ∈ leaves, c ∈ list leaf) ∧ p c = true := by
  induction leaves generalizing s with
  | nil => simp
  | cons leaf leaves ih =>
      rw [List.foldl_cons, ih, mem_foldl_insert, List.exists_mem_cons_iff, or_and_right, or_assoc]

end Spectators

theorem toNat_border {v : Int} (hlow : -0x80000000 ≤ v) (hhigh : v < 0x80000000) :
    ((border v).toNat : Int) = min 0xFFFF (max 0 v) := by
  have hbmod : v.bmod 0x100000000 = v := Int.bmod_eq_of_le (by omega) (by omega)
  have hlt : min 0xFFFF (max 0 v).toNat < 65536 := by omega
  rw [border, hbmod, BitVec.toNat_ofNat, Nat.mod_eq_of_lt hlt]
  omega

theorem border_le {v : Int} {p : BitVec 16} (hlow : -0x80000000 ≤ v) (h : v ≤ p.toNat) :
    border v ≤ p := by
  have hp := p.isLt
  have hborder := toNat_border hlow (by omega)
  rw [BitVec.le_def]
  omega

theorem le_border {v : Int} {p : BitVec 16} (hhigh : v < 0x80000000) (h : p.toNat ≤ v) :
    p ≤ border v := by
  have hp := p.isLt
  have hborder := toNat_border (by omega) hhigh
  rw [BitVec.le_def]
  omega

/-- The borders of the walk are numbers of 32 bits. -/
structure Ranges.Fits (centerPos : KeepDistance.Position) (r : Ranges) : Prop where
  x1 : -0x80000000 ≤ centerPos.x.toNat + r.minRangeX + (centerPos.z.toNat - r.maxRangeZ)
  y1 : -0x80000000 ≤ centerPos.y.toNat + r.minRangeY + (centerPos.z.toNat - r.maxRangeZ)
  x2 : centerPos.x.toNat + r.maxRangeX + (centerPos.z.toNat - r.minRangeZ) < 0x80000000
  y2 : centerPos.y.toNat + r.maxRangeY + (centerPos.z.toNat - r.minRangeZ) < 0x80000000

/-- A creature in the range, listed in the leaf of its position, is found. -/
theorem Map.Linked.mem_getSpectatorsInternal {m : Map} (h : m.Linked)
    {position : CreatureId → KeepDistance.Position} {centerPos : KeepDistance.Position} {r : Ranges}
    (hfits : r.Fits centerPos) {c : CreatureId} {leaf : LeafId}
    (hleaf : m.getQTNode (position c).x (position c).y = some leaf) (onlyPlayers : Bool)
    (hlisted : c ∈ if onlyPlayers then (m.leaves leaf).player_list
      else (m.leaves leaf).creature_list)
    (hrange : r.inRange position centerPos c = true) (spectators : Finset CreatureId) :
    c ∈ m.getSpectatorsInternal position centerPos r spectators onlyPlayers := by
  have hin := of_decide_eq_true hrange
  obtain ⟨hz, hxy⟩ := hin
  rw [not_or, Int.not_lt, Int.not_lt] at hz
  simp only [not_or, Int.not_lt] at hxy
  obtain ⟨hy1, hy2, hx1, hx2⟩ := hxy
  rw [getSpectatorsInternal, mem_foldl_lists]
  refine .inr ⟨⟨leaf, h.mem_walk ⟨_, _, hleaf, ⟨?_, ?_⟩, ?_, ?_⟩, hlisted⟩, hrange⟩
  · exact border_le hfits.x1 (by omega)
  · exact le_border hfits.x2 (by omega)
  · exact border_le hfits.y1 (by omega)
  · exact le_border hfits.y2 (by omega)

end TibServer.MapSectors
