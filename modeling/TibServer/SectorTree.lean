import TibServer.PathTree

/-!
The quadtree of the map (`map.h`, `map.cpp`). A leaf is found by the bits 15 to 3 of both
coordinates, the highest first, so it is the leaf of a block of 8 times 8 tiles.
-/

namespace TibServer.MapSectors

abbrev LeafId := Nat

def FLOOR_BITS : Nat := 3
def FLOOR_SIZE : Nat := 8
def FLOOR_MASK : BitVec 16 := 7

abbrev QTreeNode := PathTree (BitVec 2) LeafId

/-- The child in which a coordinate lies. -/
def childIndex (x y : BitVec 32) : BitVec 2 :=
  (((x &&& 0x8000) >>> 15) ||| ((y &&& 0x8000) >>> 14)).setWidth 2

namespace QTreeNode

def getLeaf : QTreeNode → BitVec 32 → BitVec 32 → Option LeafId
  | .leaf id, _, _ => some id
  | .null, _, _ => none
  | .node child, x, y => getLeaf (child (childIndex x y)) (x <<< 1) (y <<< 1)

/-- `getLeafStatic`, a loop that starts below the node; a leaf has no children. -/
def getLeafStatic : QTreeNode → BitVec 32 → BitVec 32 → Option LeafId
  | .node child, x, y =>
      match child (childIndex x y) with
      | .null => none
      | .leaf id => some id
      | .node _ => getLeafStatic (child (childIndex x y)) (x <<< 1) (y <<< 1)
  | _, _, _ => none

/-- A child that is missing is made, above the lowest level as a node; and whether it is a new
leaf. -/
def makeChild (fresh : LeafId) (level : Nat) : QTreeNode → QTreeNode × Bool
  | .null => if level ≠ FLOOR_BITS then (.node fun _ => .null, false) else (.leaf fresh, true)
  | next => (next, false)

/-- `QTreeNode::createLeaf` gives the tree, the leaf, and whether it was made now, as `fresh`. -/
def createLeaf (fresh : LeafId) :
    Nat → QTreeNode → BitVec 32 → BitVec 32 → QTreeNode × LeafId × Bool
  | level + 1, .node child, x, y =>
      let index := childIndex x y
      let next := makeChild fresh (level + 1) (child index)
      let below := createLeaf fresh level next.1 (x * 2) (y * 2)
      (.node (Function.update child index below.1), below.2.1, next.2 || below.2.2)
  | _, .leaf id, _, _ => (.leaf id, id, false)
  -- the levels end where the leaves are, and a node that is called is not null
  | _, t, _, _ => (t, fresh, false)

end QTreeNode

/-! ### Paths -/

/-- The children that `n` steps go through. -/
def path : Nat → BitVec 32 → BitVec 32 → List (BitVec 2)
  | 0, _, _ => []
  | n + 1, x, y => childIndex x y :: path n (x <<< 1) (y <<< 1)

variable {n : Nat} {t : QTreeNode} {x y x' y' : BitVec 32}

@[simp] theorem length_path (n : Nat) (x y : BitVec 32) : (path n x y).length = n := by
  induction n generalizing x y with
  | zero => rfl
  | succ n ih => rw [path, List.length_cons, ih]

theorem childIndex_zero (x y : BitVec 32) : (childIndex x y).getLsbD 0 = x.getLsbD 15 := by
  simp [childIndex]

theorem childIndex_one (x y : BitVec 32) : (childIndex x y).getLsbD 1 = y.getLsbD 15 := by
  simp [childIndex]

theorem childIndex_eq_iff : childIndex x y = childIndex x' y' ↔
    x.getLsbD 15 = x'.getLsbD 15 ∧ y.getLsbD 15 = y'.getLsbD 15 := by
  constructor
  · intro h
    rw [← childIndex_zero x y, ← childIndex_one x y, h, childIndex_zero, childIndex_one]
    exact ⟨rfl, rfl⟩
  · rintro ⟨hx, hy⟩
    refine BitVec.eq_of_getLsbD_eq fun i hi => ?_
    rcases Nat.lt_succ_iff_lt_or_eq.mp hi with hi | rfl
    · obtain rfl := Nat.lt_one_iff.mp hi
      rw [childIndex_zero, childIndex_zero, hx]
    · rw [childIndex_one, childIndex_one, hy]

/-- The coordinates agree in the bits that `n` steps look at. -/
def Agree (n : Nat) (x x' : BitVec 32) : Prop := ∀ i < n, x.getLsbD (15 - i) = x'.getLsbD (15 - i)

theorem agree_succ (hn : n < 16) : Agree (n + 1) x x' ↔
    x.getLsbD 15 = x'.getLsbD 15 ∧ Agree n (x <<< 1) (x' <<< 1) := by
  have hshift (x : BitVec 32) {i : Nat} (hi : i < n) :
      (x <<< 1).getLsbD (15 - i) = x.getLsbD (15 - (i + 1)) := by
    have hlow : ¬ 15 - i < 1 := by omega
    have hhigh : 15 - i < 32 := by omega
    rw [BitVec.getLsbD_shiftLeft, decide_eq_true hhigh, decide_eq_false hlow, Nat.sub_sub]
    rfl
  constructor
  · intro h
    refine ⟨h 0 (Nat.zero_lt_succ n), fun i hi => ?_⟩
    rw [hshift x hi, hshift x' hi]
    exact h (i + 1) (Nat.succ_lt_succ hi)
  · rintro ⟨hzero, h⟩ i hi
    cases i with
    | zero => exact hzero
    | succ i =>
        rw [← hshift x (Nat.lt_of_succ_lt_succ hi), ← hshift x' (Nat.lt_of_succ_lt_succ hi)]
        exact h i (Nat.lt_of_succ_lt_succ hi)

theorem path_eq_iff (hn : n ≤ 16) :
    path n x y = path n x' y' ↔ Agree n x x' ∧ Agree n y y' := by
  induction n generalizing x y x' y' with
  | zero =>
      have hagree (x x' : BitVec 32) : Agree 0 x x' := fun i hi => absurd hi (Nat.not_lt_zero i)
      exact ⟨fun _ => ⟨hagree x x', hagree y y'⟩, fun _ => rfl⟩
  | succ n ih =>
      rw [path, path, List.cons.injEq, childIndex_eq_iff, ih (Nat.le_of_succ_le hn),
        agree_succ hn, agree_succ hn]
      exact and_and_and_comm

/-! ### The tree along its paths -/

namespace QTreeNode

theorem getLeaf_eq_lookup (h : t.Uniform n) (x y : BitVec 32) :
    t.getLeaf x y = t.lookup (path n x y) := by
  induction n generalizing t x y with
  | zero =>
      cases t with
      | null => rfl
      | leaf id => rfl
      | node child => exact h.elim
  | succ n ih =>
      cases t with
      | null => rfl
      | leaf id => exact h.elim
      | node child => exact ih (h (childIndex x y)) _ _

/-- The loop finds what the recursion finds. -/
theorem getLeafStatic_eq (h : ∃ child, t = .node child) (x y : BitVec 32) :
    t.getLeafStatic x y = t.getLeaf x y := by
  induction t generalizing x y with
  | null => obtain ⟨child, hchild⟩ := h; cases hchild
  | leaf id => obtain ⟨child, hchild⟩ := h; cases hchild
  | node child ih =>
      rw [getLeafStatic, getLeaf]
      cases hnext : child (childIndex x y) with
      | null => rfl
      | leaf id => rfl
      | node grandchild =>
          dsimp only
          rw [← hnext]
          exact ih _ ⟨grandchild, hnext⟩ _ _

theorem makeChild_leaf (fresh : LeafId) (level : Nat) (id : LeafId) :
    makeChild fresh level (.leaf id) = (.leaf id, false) := rfl

theorem makeChild_node (fresh : LeafId) (level : Nat) (child : BitVec 2 → QTreeNode) :
    makeChild fresh level (.node child) = (.node child, false) := rfl

/-- `createLeaf` grows the path of the coordinate. -/
theorem createLeaf_eq (h : t.Uniform n) (hnull : t ≠ .null) (fresh : LeafId) (x y : BitVec 32) :
    t.createLeaf fresh (n + 2) x y = (t.grow fresh (path n x y),
      (t.lookup (path n x y)).getD fresh, (t.lookup (path n x y)).isNone) := by
  induction n generalizing t x y with
  | zero =>
      cases t with
      | null => exact absurd rfl hnull
      | leaf id => rfl
      | node child => exact h.elim
  | succ n ih =>
      have hdouble (x : BitVec 32) : x * (2 : BitVec 32) = x <<< 1 := by
        rw [BitVec.shiftLeft_eq_mul_twoPow]; rfl
      cases t with
      | null => exact absurd rfl hnull
      | leaf id => exact h.elim
      | node child =>
          rw [createLeaf, path, PathTree.grow_node_cons, PathTree.lookup_node_cons, hdouble,
            hdouble]
          have hchild := h (childIndex x y)
          generalize child (childIndex x y) = next at hchild ⊢
          cases next with
          | null =>
              cases n with
              | zero => rfl
              | succ n =>
                  have hlevel : n + 1 + 2 + 1 ≠ FLOOR_BITS := by unfold FLOOR_BITS; omega
                  have hempty : PathTree.Uniform (n + 1) (.node fun _ => .null : QTreeNode) :=
                    fun _ => PathTree.uniform_null n
                  rw [makeChild, if_pos hlevel, ih hempty (by simp)]
                  rfl
          | leaf id => rw [makeChild_leaf, ih hchild (by simp), Bool.false_or]
          | node grandchild => rw [makeChild_node, ih hchild (by simp), Bool.false_or]

end QTreeNode

/-! ### Blocks -/

/-- The bits 15 to 3 of a coordinate, by which its leaf is found. -/
def block (x : BitVec 32) : BitVec 13 := x.extractLsb' 3 13

theorem agree_iff_block : Agree 13 x x' ↔ block x = block x' := by
  constructor
  · intro h
    refine BitVec.eq_of_getLsbD_eq fun i hi => ?_
    have hbit := h (12 - i) (by omega)
    rw [show 15 - (12 - i) = 3 + i by omega] at hbit
    rw [block, block, BitVec.getLsbD_extractLsb', BitVec.getLsbD_extractLsb', hbit]
  · intro h i hi
    have hbit := congrArg (·.getLsbD (12 - i)) h
    have hlow : 12 - i < 13 := by omega
    simp only [block, BitVec.getLsbD_extractLsb', hlow, decide_true, Bool.true_and] at hbit
    rwa [show 3 + (12 - i) = 15 - i by omega] at hbit

theorem toNat_block (x : BitVec 32) : (block x).toNat = x.toNat / 8 % 8192 := by
  rw [block, BitVec.extractLsb'_toNat, Nat.shiftRight_eq_div_pow]

/-- The next coordinate block, after the last one the first. -/
theorem block_add (x : BitVec 32) : block (x + 8) = block x + 1 := by
  apply BitVec.eq_of_toNat_eq
  have height : (8 : BitVec 32).toNat = 8 := rfl
  have hone : (1 : BitVec 13).toNat = 1 := rfl
  rw [BitVec.toNat_add, toNat_block, toNat_block, BitVec.toNat_add, height, hone]
  omega

theorem block_sub (x : BitVec 32) : block (x - 8) = block x - 1 := by
  rw [eq_comm, BitVec.sub_eq_iff_eq_add, ← block_add, BitVec.sub_add_cancel]

/-! ### The leaf of a block -/

theorem path_eq_iff_block :
    path 13 x' y' = path 13 x y ↔ block x' = block x ∧ block y' = block y := by
  rw [path_eq_iff (by decide), agree_iff_block, agree_iff_block]

/-- The root of a map: all leaves are those of blocks. -/
structure Rooted (t : QTreeNode) : Prop where
  uniform : t.Uniform 13
  node : ∃ child, t = .node child

theorem Rooted.getLeafStatic_eq (h : Rooted t) (x y : BitVec 32) :
    t.getLeafStatic x y = t.getLeaf x y := QTreeNode.getLeafStatic_eq h.node x y

/-- A coordinate of the block. -/
def coordinate (b : BitVec 13) : BitVec 32 := b.setWidth 32 <<< 3

@[simp] theorem block_coordinate (b : BitVec 13) : block (coordinate b) = b := by
  apply BitVec.eq_of_toNat_eq
  rw [toNat_block, coordinate, BitVec.toNat_shiftLeft, BitVec.toNat_setWidth,
    Nat.shiftLeft_eq]
  omega

/-- The leaf of a block. -/
def QTreeNode.cell (t : QTreeNode) (b : BitVec 13 × BitVec 13) : Option LeafId :=
  t.getLeaf (coordinate b.1) (coordinate b.2)

/-- The coordinates of a block have one leaf. -/
theorem Rooted.getLeaf_eq_cell (h : Rooted t) (x y : BitVec 32) :
    t.getLeaf x y = t.cell (block x, block y) := by
  rw [QTreeNode.cell, QTreeNode.getLeaf_eq_lookup h.uniform, QTreeNode.getLeaf_eq_lookup h.uniform,
    path_eq_iff_block.mpr ⟨(block_coordinate (block x)).symm, (block_coordinate (block y)).symm⟩]

/-- `createLeaf` from the root finds the leaf of the block or makes it. -/
theorem Rooted.createLeaf_eq (h : Rooted t) (fresh : LeafId) (x y : BitVec 32) :
    t.createLeaf fresh 15 x y = (t.grow fresh (path 13 x y),
      (t.getLeaf x y).getD fresh, (t.getLeaf x y).isNone) := by
  have hnull : t ≠ .null := by
    obtain ⟨child, rfl⟩ := h.node
    simp
  rw [QTreeNode.createLeaf_eq h.uniform hnull, QTreeNode.getLeaf_eq_lookup h.uniform]

theorem Rooted.grow (h : Rooted t) (fresh : LeafId) (x y : BitVec 32) :
    Rooted (t.grow fresh (path 13 x y)) where
  uniform := by
    have huniform := h.uniform
    rw [← length_path 13 x y] at huniform ⊢
    exact huniform.grow fresh
  node := by
    obtain ⟨child, rfl⟩ := h.node
    rw [path, PathTree.grow_node_cons]
    exact ⟨_, rfl⟩

/-- No other block gets or loses its leaf. -/
theorem Rooted.cell_grow (h : Rooted t) (fresh : LeafId) (x y : BitVec 32) :
    QTreeNode.cell (t.grow fresh (path 13 x y)) =
      Function.update t.cell (block x, block y) (some ((t.getLeaf x y).getD fresh)) := by
  have huniform := h.uniform
  rw [← length_path 13 x y] at huniform
  funext b
  have hblock : path 13 (coordinate b.1) (coordinate b.2) = path 13 x y ↔
      b = (block x, block y) := by
    rw [path_eq_iff_block, block_coordinate, block_coordinate, Prod.ext_iff]
  rw [QTreeNode.cell, QTreeNode.getLeaf_eq_lookup (h.grow fresh x y).uniform,
    QTreeNode.getLeaf_eq_lookup h.uniform]
  by_cases hb : b = (block x, block y)
  · rw [hblock.mpr hb, PathTree.lookup_grow_self huniform, hb, Function.update_self]
  · have hlength : (path 13 (coordinate b.1) (coordinate b.2)).length = (path 13 x y).length := by
      rw [length_path, length_path]
    rw [PathTree.lookup_grow_of_ne huniform hlength (fun hpath => hb (hblock.mp hpath)),
      Function.update_of_ne hb, QTreeNode.cell, QTreeNode.getLeaf_eq_lookup h.uniform]

end TibServer.MapSectors
