import TibServer.MapSectors

/-!
The creatures of the leaves (`map.cpp`). A creature on the map stands in the list of the leaf
of its position and in no other, however creatures are placed, moved and removed and tiles are
set; so the search for spectators finds exactly the creatures of its range.
-/

namespace TibServer.MapSectors

/-! ### Removal by the last one -/

section SwapRemove

variable {c : CreatureId} {l : List CreatureId}

/-- The list loses the one that is removed, in another order. -/
theorem swapRemove_perm (mem : c ∈ l) : (QTreeLeafNode.swapRemove c l).Perm (l.erase c) := by
  obtain ⟨front, last, rfl⟩ : ∃ front last, l = front ++ [last] :=
    ⟨l.dropLast, l.getLast (List.ne_nil_of_mem mem), (List.dropLast_append_getLast _).symm⟩
  have lastD : (front ++ [last]).getLastD c = last := by simp
  rw [QTreeLeafNode.swapRemove, lastD]
  by_cases inFront : c ∈ front
  · have place : (front ++ [last]).idxOf c = front.idxOf c := List.idxOf_append_of_mem inFront
    have lt : front.idxOf c < front.length := List.idxOf_lt_length_of_mem inFront
    rw [place, List.set_append_left _ _ lt, List.dropLast_concat,
      List.erase_append_left _ inFront]
    obtain ⟨before, after, rfl, new⟩ := List.eq_append_cons_of_mem inFront
    have index : (before ++ c :: after).idxOf c = before.length := by
      rw [List.idxOf_append_of_notMem new, List.idxOf_cons_self, Nat.add_zero]
    have erased : (before ++ c :: after).erase c = before ++ after := by
      rw [List.erase_append_right _ new, List.erase_cons_head]
    rw [index, erased, List.set_append_right _ _ (Nat.le_refl _), Nat.sub_self,
      List.set_cons_zero, List.append_assoc]
    exact List.Perm.append_left _ (List.perm_append_singleton last after).symm
  · have eq : c = last := by
      rcases List.mem_append.mp mem with h | h
      · exact absurd h inFront
      · exact List.mem_singleton.mp h
    subst eq
    have place : (front ++ [c]).idxOf c = front.length := by
      rw [List.idxOf_append_of_notMem inFront, List.idxOf_cons_self, Nat.add_zero]
    rw [place, List.set_append_right _ _ (Nat.le_refl _), Nat.sub_self, List.set_cons_zero,
      List.dropLast_concat, List.erase_append_right _ inFront, List.erase_cons_head,
      List.append_nil]

theorem mem_swapRemove (mem : c ∈ l) (nodup : l.Nodup) {d : CreatureId} :
    d ∈ QTreeLeafNode.swapRemove c l ↔ d ≠ c ∧ d ∈ l := by
  rw [(swapRemove_perm mem).mem_iff, nodup.mem_erase_iff]

theorem swapRemove_nodup (mem : c ∈ l) (nodup : l.Nodup) :
    (QTreeLeafNode.swapRemove c l).Nodup :=
  (swapRemove_perm mem).nodup_iff.mpr (nodup.erase c)

end SwapRemove

/-! ### Creatures on the map -/

/-- The map, who is on it, and where. -/
structure Populated where
  map : Map
  position : CreatureId → KeepDistance.Position
  placed : Finset CreatureId := ∅

inductive Happening
  | setTile (x y : BitVec 16) (z : BitVec 8) (newTile : TileRef)
  | changeTile (t : TileRef) (tile : TileIndex.Tile)
  /-- `Map::placeCreature`, with the tile that its search found. -/
  | placeCreature (c : CreatureId) (dest : KeepDistance.Position)
  | moveCreature (c : CreatureId) (newPos : KeepDistance.Position)
  /-- `Tile::removeCreature` -/
  | removeCreature (c : CreatureId)

namespace Populated

variable (kind : ItemRef → TileIndex.Kind) (player : CreatureId → Bool)

/-- There is a tile at the position. -/
def HasTile (s : Populated) (p : KeepDistance.Position) : Prop := (s.map.getTile p.x p.y p.z).isSome

instance (s : Populated) (p : KeepDistance.Position) : Decidable (s.HasTile p) :=
  inferInstanceAs (Decidable (_ = true))

/-- The leaf of a position. -/
def nodeAt (s : Populated) (p : KeepDistance.Position) : Option LeafId := s.map.getQTNode p.x p.y

def addTo (s : Populated) (p : KeepDistance.Position) (c : CreatureId) : Map :=
  s.map.step kind (.addCreature p.x p.y c (player c))

def removeFrom (s : Populated) (p : KeepDistance.Position) (c : CreatureId) : Map :=
  s.map.step kind (.removeCreature p.x p.y c (player c))

/-- A creature is placed when it has no parent, and moved or removed when it has one. -/
def step (s : Populated) : Happening → Populated
  | .setTile x y z newTile => { s with map := s.map.step kind (.setTile x y z newTile) }
  | .changeTile t tile => { s with map := s.map.step kind (.changeTile t tile) }
  | .placeCreature c dest =>
      if c ∉ s.placed ∧ s.HasTile dest then
        { map := s.addTo kind player dest c
          position := Function.update s.position c dest
          placed := insert c s.placed }
      else s
  | .moveCreature c newPos =>
      if c ∈ s.placed ∧ s.HasTile newPos then
        let moved : Populated := { s with position := Function.update s.position c newPos }
        if s.nodeAt (s.position c) ≠ s.nodeAt newPos then
          let left : Populated := { moved with map := s.removeFrom kind player (s.position c) c }
          { left with map := left.addTo kind player newPos c }
        else moved
      else s
  | .removeCreature c =>
      if c ∈ s.placed then
        { s with
          map := s.removeFrom kind player (s.position c) c
          placed := s.placed.erase c }
      else s

def run (s : Populated) (happenings : List Happening) : Populated :=
  happenings.foldl (step kind player) s

end Populated

/-! ### Where a creature is listed -/

/-- The list that the search goes through. -/
def QTreeLeafNode.listOf (onlyPlayers : Bool) (l : QTreeLeafNode) : List CreatureId :=
  if onlyPlayers then l.player_list else l.creature_list

namespace Populated

variable {kind : ItemRef → TileIndex.Kind} {player : CreatureId → Bool} {s : Populated}

/-- Who belongs into the list of a leaf. -/
def Belongs (player : CreatureId → Bool) (s : Populated) (onlyPlayers : Bool) (leaf : LeafId)
    (c : CreatureId) : Prop :=
  c ∈ s.placed ∧ (onlyPlayers = true → player c = true) ∧ s.nodeAt (s.position c) = some leaf

/-- Every creature on the map is listed once, in the leaf of its position. -/
structure Listed (player : CreatureId → Bool) (s : Populated) : Prop where
  linked : s.map.Linked
  standing : ∀ c ∈ s.placed, (s.nodeAt (s.position c)).isSome
  nodup : ∀ onlyPlayers leaf, ((s.map.leaves leaf).listOf onlyPlayers).Nodup
  mem : ∀ onlyPlayers leaf c,
    c ∈ (s.map.leaves leaf).listOf onlyPlayers ↔ s.Belongs player onlyPlayers leaf c

/-- Steps that leave the lists and the leaves of the creatures alone. -/
theorem Listed.of_lists (h : Listed player s) {m : Map} (linked : m.Linked)
    (lists : ∀ onlyPlayers leaf,
      (m.leaves leaf).listOf onlyPlayers = (s.map.leaves leaf).listOf onlyPlayers)
    (nodes : ∀ c ∈ s.placed, m.getQTNode (s.position c).x (s.position c).y =
      s.nodeAt (s.position c)) : Listed player { s with map := m } where
  linked := linked
  standing c hc := by
    rw [nodeAt, nodes c hc]
    exact h.standing c hc
  nodup onlyPlayers leaf := by
    rw [lists]
    exact h.nodup onlyPlayers leaf
  mem onlyPlayers leaf c := by
    rw [lists, h.mem]
    refine and_congr_right fun hc => and_congr_right fun _ => ?_
    exact iff_of_eq (congrArg (· = some leaf) (nodes c hc).symm)

theorem Listed.unallocated (h : Listed player s) (onlyPlayers : Bool) :
    (s.map.leaves s.map.allocated).listOf onlyPlayers = [] := by
  rw [List.eq_nil_iff_forall_not_mem]
  intro c hc
  have leaf := ((h.mem _ _ _).mp hc).2.2
  rw [nodeAt, h.linked.getQTNode_eq_cell] at leaf
  exact Nat.lt_irrefl _ (h.linked.fresh leaf)

end Populated

/-! ### Tiles that are set -/

namespace Map

variable {m : Map} {kind : ItemRef → TileIndex.Kind}

theorem listOf_modify (leaf : LeafId) (f : QTreeLeafNode → QTreeLeafNode) (id : LeafId)
    (onlyPlayers : Bool) :
    ((m.modify leaf f).leaves id).listOf onlyPlayers =
      if id = leaf then (f (m.leaves leaf)).listOf onlyPlayers
      else (m.leaves id).listOf onlyPlayers := by
  change ((Function.update m.leaves leaf (f (m.leaves leaf))) id).listOf onlyPlayers = _
  by_cases h : id = leaf
  · rw [if_pos h, h, Function.update_self]
  · rw [if_neg h, Function.update_of_ne h]

theorem Linked.listOf_makeLeaf (h : m.Linked) {onlyPlayers : Bool}
    (empty : (m.leaves m.allocated).listOf onlyPlayers = []) (x y : BitVec 32) (id : LeafId) :
    ((m.makeLeaf x y).1.leaves id).listOf onlyPlayers = (m.leaves id).listOf onlyPlayers := by
  cases hid : m.root.getLeaf x y with
  | some leaf => rw [makeLeaf_of_some h hid]
  | none =>
      rw [makeLeaf_of_none h hid, linkLeaf_leaves]
      change ((Function.update m.leaves m.allocated {}) id).listOf onlyPlayers = _
      by_cases new : id = m.allocated
      · rw [new, Function.update_self, empty]
        cases onlyPlayers with
        | false => rfl
        | true => rfl
      · rw [Function.update_of_ne new]

theorem listOf_placeTile (leaf : LeafId) (x y : BitVec 16) (z : Fin MAP_MAX_LAYERS) (t : TileRef)
    (id : LeafId) (onlyPlayers : Bool) :
    ((m.placeTile kind leaf x y z t).leaves id).listOf onlyPlayers =
      (m.leaves id).listOf onlyPlayers := by
  have floor (floor : Floor) :
      ((m.modify leaf (·.setFloor z floor)).leaves id).listOf onlyPlayers =
        (m.leaves id).listOf onlyPlayers := by
    rw [listOf_modify]
    split_ifs with same
    · rw [same]
      rfl
    · rfl
  cases tile : ((m.leaves leaf).createFloor z).tiles (offset x) (offset y) with
  | none =>
      rw [placeTile_of_none kind tile]
      exact floor _
  | some old =>
      rw [placeTile_of_some kind tile]
      exact floor _

/-- A leaf that is there stays the leaf of its block. -/
theorem Linked.cell_makeLeaf_of_some (h : m.Linked) (x y : BitVec 32)
    {b : BitVec 13 × BitVec 13} {id : LeafId} (hb : m.cell b = some id) :
    (m.makeLeaf x y).1.cell b = some id := by
  cases hid : m.root.getLeaf x y with
  | some leaf =>
      rw [makeLeaf_of_some h hid]
      exact (congrFun (h.cell_grow_of_some hid) b).trans hb
  | none =>
      rw [makeLeaf_of_none h hid, linkLeaf_cell, h.cell_withLeaf hid]
      refine (Function.update_of_ne ?_ _ _).trans hb
      rintro rfl
      rw [h.rooted.getLeaf_eq_cell] at hid
      exact absurd (hid.symm.trans hb).symm (Option.some_ne_none _)

theorem Linked.getQTNode_setTile (h : m.Linked) (x y : BitVec 16) (z : BitVec 8) (t : TileRef)
    {x' y' : BitVec 16} (there : (m.getQTNode x' y').isSome) :
    (m.setTile kind x y z t).getQTNode x' y' = m.getQTNode x' y' := by
  obtain ⟨id, hid⟩ := Option.isSome_iff_exists.mp there
  rw [(h.setTile kind x y z t).getQTNode_eq_cell, hid]
  rw [h.getQTNode_eq_cell] at hid
  rw [Map.setTile]
  split
  · have cell := h.cell_makeLeaf_of_some (x.setWidth 32) (y.setWidth 32) hid
    rw [← cell]
    have root (m : Map) (leaf : LeafId) (z : Fin MAP_MAX_LAYERS) :
        (m.placeTile kind leaf x y z t).cell = m.cell := by
      cases tile : ((m.leaves leaf).createFloor z).tiles (offset x) (offset y) with
      | none => rw [placeTile_of_none kind tile]; rfl
      | some old => rw [placeTile_of_some kind tile]; rfl
    exact congrFun (root _ _ _) _
  · exact hid

end Map

/-! ### Creatures that come and go -/

namespace Populated

variable {kind : ItemRef → TileIndex.Kind} {player : CreatureId → Bool} {s : Populated}

theorem Listed.setTile (h : Listed player s) (x y : BitVec 16) (z : BitVec 8) (t : TileRef) :
    Listed player { s with map := s.map.setTile kind x y z t } := by
  refine h.of_lists (h.linked.setTile kind x y z t) (fun onlyPlayers leaf => ?_) fun c hc => ?_
  · rw [Map.setTile]
    split
    · rw [Map.listOf_placeTile]
      exact h.linked.listOf_makeLeaf (h.unallocated onlyPlayers) _ _ _
    · rfl
  · exact h.linked.getQTNode_setTile x y z t (h.standing c hc)

theorem listOf_addCreature (l : QTreeLeafNode) (c : CreatureId) (isPlayer onlyPlayers : Bool) :
    (l.addCreature c isPlayer).listOf onlyPlayers =
      if onlyPlayers = true → isPlayer = true then l.listOf onlyPlayers ++ [c]
      else l.listOf onlyPlayers := by
  cases onlyPlayers with
  | false => rfl
  | true =>
      cases isPlayer with
      | false => rfl
      | true => rfl

theorem listOf_removeCreature (l : QTreeLeafNode) (c : CreatureId)
    (isPlayer onlyPlayers : Bool) :
    (l.removeCreature c isPlayer).listOf onlyPlayers =
      if onlyPlayers = true → isPlayer = true then
        QTreeLeafNode.swapRemove c (l.listOf onlyPlayers)
      else l.listOf onlyPlayers := by
  cases onlyPlayers with
  | false => rfl
  | true =>
      cases isPlayer with
      | false => rfl
      | true => rfl

/-- A creature that was not on the map comes to a position. -/
theorem Listed.add (h : Listed player s) {c : CreatureId} (new : c ∉ s.placed)
    {dest : KeepDistance.Position} {leaf : LeafId} (there : s.nodeAt dest = some leaf) :
    Listed player
      { map := s.addTo kind player dest c
        position := Function.update s.position c dest
        placed := insert c s.placed } := by
  have map : s.addTo kind player dest c = s.map.modify leaf (·.addCreature c (player c)) := by
    rw [nodeAt] at there
    rw [addTo, Map.step, there]
  rw [map]
  have other {d : CreatureId} (hd : d ∈ s.placed) :
      Function.update s.position c dest d = s.position d := by
    apply Function.update_of_ne
    rintro rfl
    exact new hd
  have unlisted (onlyPlayers : Bool) (id : LeafId) :
      c ∉ (s.map.leaves id).listOf onlyPlayers :=
    fun hc => new ((h.mem _ _ _).mp hc).1
  have linked := h.linked.modify leaf (f := (·.addCreature c (player c))) (fun _ => rfl)
    fun _ => rfl
  refine ⟨linked, ?_, ?_, ?_⟩
  · intro d hd
    rcases Finset.mem_insert.mp hd with rfl | hd
    · simp only [Function.update_self]
      exact Option.isSome_iff_exists.mpr ⟨leaf, there⟩
    · simp only [other hd]
      exact h.standing d hd
  · intro onlyPlayers id
    rw [Map.listOf_modify]
    split_ifs with same
    · rw [listOf_addCreature]
      split_ifs
      · rw [List.nodup_append]
        refine ⟨h.nodup _ _, List.nodup_singleton c, ?_⟩
        intro a ha b hb
        rw [List.mem_singleton.mp hb]
        rintro rfl
        exact unlisted _ _ ha
      · exact h.nodup _ _
    · exact h.nodup _ _
  · intro onlyPlayers id d
    have listed : d ∈ ((s.map.modify leaf (·.addCreature c (player c))).leaves id).listOf
        onlyPlayers ↔ d ∈ (s.map.leaves id).listOf onlyPlayers ∨
          d = c ∧ id = leaf ∧ (onlyPlayers = true → player c = true) := by
      rw [Map.listOf_modify]
      split_ifs with same
      · rw [listOf_addCreature]
        split_ifs with shown
        · rw [List.mem_append, List.mem_singleton, same]
          exact or_congr_right ⟨fun eq => ⟨eq, rfl, shown⟩, fun of => of.1⟩
        · rw [same]
          exact (or_iff_left fun of => shown of.2.2).symm
      · exact (or_iff_left fun of => same of.2.1).symm
    rw [listed, h.mem]
    unfold Belongs
    by_cases eq : d = c
    · subst eq
      simp only [new, false_and, false_or, true_and, Finset.mem_insert, true_or,
        Function.update_self]
      have node : Populated.nodeAt
          { map := s.map.modify leaf (·.addCreature d (player d))
            position := Function.update s.position d dest
            placed := insert d s.placed } dest = some leaf := there
      rw [node, Option.some.injEq]
      exact ⟨fun of => ⟨of.2, of.1.symm⟩, fun of => ⟨of.2.symm, of.1⟩⟩
    · simp only [eq, false_and, or_false, Finset.mem_insert, false_or]
      refine and_congr_right fun hd => and_congr_right fun _ => ?_
      simp only [other hd]
      exact Iff.rfl

/-- A creature leaves the map. -/
theorem Listed.remove (h : Listed player s) {c : CreatureId} (on : c ∈ s.placed) :
    Listed player
      { s with
        map := s.removeFrom kind player (s.position c) c
        placed := s.placed.erase c } := by
  obtain ⟨leaf, there⟩ := Option.isSome_iff_exists.mp (h.standing c on)
  have map : s.removeFrom kind player (s.position c) c =
      s.map.modify leaf (·.removeCreature c (player c)) := by
    rw [nodeAt] at there
    rw [removeFrom, Map.step, there]
  rw [map]
  have here {onlyPlayers : Bool} (shown : onlyPlayers = true → player c = true) :
      c ∈ (s.map.leaves leaf).listOf onlyPlayers := (h.mem _ _ _).mpr ⟨on, shown, there⟩
  have linked := h.linked.modify leaf (f := (·.removeCreature c (player c))) (fun _ => rfl)
    fun _ => rfl
  refine ⟨linked, ?_, ?_, ?_⟩
  · intro d hd
    exact h.standing d (Finset.mem_of_mem_erase hd)
  · intro onlyPlayers id
    rw [Map.listOf_modify]
    split_ifs with same
    · rw [listOf_removeCreature]
      split_ifs with shown
      · exact swapRemove_nodup (here shown) (h.nodup _ _)
      · exact h.nodup _ _
    · exact h.nodup _ _
  · intro onlyPlayers id d
    have listed : d ∈ ((s.map.modify leaf (·.removeCreature c (player c))).leaves id).listOf
        onlyPlayers ↔ d ≠ c ∧ d ∈ (s.map.leaves id).listOf onlyPlayers := by
      have only (mem : d ∈ (s.map.leaves id).listOf onlyPlayers) (eq : d = c) :
          id = leaf ∧ (onlyPlayers = true → player c = true) := by
        subst eq
        obtain ⟨-, shown, node⟩ := (h.mem _ _ _).mp mem
        exact ⟨Option.some.inj (node.symm.trans there), shown⟩
      rw [Map.listOf_modify]
      split_ifs with same
      · rw [listOf_removeCreature]
        split_ifs with shown
        · rw [same]
          exact mem_swapRemove (here shown) (h.nodup _ _)
        · rw [← same]
          exact ⟨fun mem => ⟨fun eq => shown (only mem eq).2, mem⟩, fun mem => mem.2⟩
      · exact ⟨fun mem => ⟨fun eq => same (only mem eq).1, mem⟩, fun mem => mem.2⟩
    rw [listed, h.mem]
    unfold Belongs
    rw [Finset.mem_erase, and_assoc]
    exact Iff.rfl

/-- A creature moves inside the block of a leaf. -/
theorem Listed.shift (h : Listed player s) {c : CreatureId} {newPos : KeepDistance.Position}
    (same : s.nodeAt (s.position c) = s.nodeAt newPos) :
    Listed player { s with position := Function.update s.position c newPos } := by
  have nodes (d : CreatureId) :
      s.nodeAt (Function.update s.position c newPos d) = s.nodeAt (s.position d) := by
    by_cases eq : d = c
    · rw [eq, Function.update_self, same]
    · rw [Function.update_of_ne eq]
  refine ⟨h.linked, fun d hd => ?_, h.nodup, fun onlyPlayers leaf d => ?_⟩
  · exact (congrArg Option.isSome (nodes d)).trans (h.standing d hd)
  · rw [h.mem]
    refine and_congr_right fun _ => and_congr_right fun _ => ?_
    exact iff_of_eq (congrArg (· = some leaf) (nodes d).symm)

theorem HasTile.nodeAt {p : KeepDistance.Position} (h : s.HasTile p) :
    ∃ leaf, s.nodeAt p = some leaf := by
  rw [← Option.isSome_iff_exists]
  unfold HasTile Map.getTile at h
  unfold Populated.nodeAt Map.getQTNode
  split at h
  · cases leaf : s.map.root.getLeafStatic (p.x.setWidth 32) (p.y.setWidth 32) with
    | none =>
        rw [leaf] at h
        exact absurd h (by simp)
    | some id => rfl
  · exact absurd h (by simp)

theorem Listed.step (h : Listed player s) (e : Happening) :
    Listed player (s.step kind player e) := by
  cases e with
  | setTile x y z t => exact h.setTile x y z t
  | changeTile t tile =>
      exact h.of_lists (h.linked.step kind (.changeTile t tile)) (fun _ _ => rfl) fun _ _ => rfl
  | placeCreature c dest =>
      rw [Populated.step]
      split_ifs with guard
      · obtain ⟨leaf, there⟩ := guard.2.nodeAt
        exact h.add guard.1 there
      · exact h
  | removeCreature c =>
      rw [Populated.step]
      split_ifs with on
      · exact h.remove on
      · exact h
  | moveCreature c newPos =>
      rw [Populated.step]
      split_ifs with guard other
      · obtain ⟨leaf, there⟩ := guard.2.nodeAt
        have left := @Listed.remove kind player s h c guard.1
        have root : (s.removeFrom kind player (s.position c) c).root = s.map.root := by
          rw [removeFrom, Map.step]
          split <;> rfl
        have there' : nodeAt
            { s with
              map := s.removeFrom kind player (s.position c) c
              placed := s.placed.erase c } newPos = some leaf := by
          rw [nodeAt, Map.getQTNode, root]
          exact there
        have back := @Listed.add kind player _ left c (Finset.notMem_erase c s.placed) _ _ there'
        rw [Finset.insert_erase guard.1] at back
        exact back
      · exact h.shift (not_not.mp other)
      · exact h

theorem Listed.run (h : Listed player s) (happenings : List Happening) :
    Listed player (s.run kind player happenings) := by
  induction happenings generalizing s with
  | nil => exact h
  | cons e happenings ih => exact ih (h.step e)

theorem listed_empty (tiles : TileRef → TileIndex.Tile)
    (position : CreatureId → KeepDistance.Position) :
    Listed player { map := { tiles }, position } where
  linked := Map.linked_empty tiles
  standing _ h := absurd h (Finset.notMem_empty _)
  nodup onlyPlayers leaf := by
    cases onlyPlayers with
    | false => exact List.nodup_nil
    | true => exact List.nodup_nil
  mem onlyPlayers leaf c := by
    refine iff_of_false ?_ fun h => Finset.notMem_empty _ h.1
    cases onlyPlayers with
    | false => exact List.not_mem_nil
    | true => exact List.not_mem_nil

/-! ### The search -/

/-- The map after a run, with the creatures on it. -/
def populated (kind : ItemRef → TileIndex.Kind) (player : CreatureId → Bool)
    (tiles : TileRef → TileIndex.Tile) (position : CreatureId → KeepDistance.Position)
    (happenings : List Happening) : Populated :=
  ({ map := { tiles }, position } : Populated).run kind player happenings

theorem Listed.mem_spectators (h : Listed player s) {centerPos : KeepDistance.Position}
    {r : Ranges} (fits : r.Fits centerPos) (spectators : Finset CreatureId) (onlyPlayers : Bool)
    (c : CreatureId) :
    c ∈ s.map.getSpectatorsInternal s.position centerPos r spectators onlyPlayers ↔
      c ∈ spectators ∨ c ∈ s.placed ∧ (onlyPlayers = true → player c = true) ∧
        r.inRange s.position centerPos c = true := by
  constructor
  · intro found
    rw [Map.getSpectatorsInternal] at found
    rcases (mem_foldl_lists _ _ _).mp found with found | ⟨⟨leaf, -, listed⟩, range⟩
    · exact .inl found
    · obtain ⟨on, shown, -⟩ := (h.mem onlyPlayers leaf c).mp listed
      exact .inr ⟨on, shown, range⟩
  · rintro (found | ⟨on, shown, range⟩)
    · rw [Map.getSpectatorsInternal]
      exact (mem_foldl_lists _ _ _).mpr (.inl found)
    · obtain ⟨leaf, there⟩ := Option.isSome_iff_exists.mp (h.standing c on)
      have listed := (h.mem onlyPlayers leaf c).mpr ⟨on, shown, there⟩
      exact h.linked.mem_getSpectatorsInternal fits there onlyPlayers listed range spectators

/-- In every run the search adds the creatures on the map that are in its range, or the players
among them, and no others. -/
theorem spectators_exact (kind : ItemRef → TileIndex.Kind) (player : CreatureId → Bool)
    (tiles : TileRef → TileIndex.Tile) (position : CreatureId → KeepDistance.Position)
    (happenings : List Happening) (centerPos : KeepDistance.Position) (r : Ranges)
    (fits : r.Fits centerPos) (spectators : Finset CreatureId) (onlyPlayers : Bool)
    (c : CreatureId) :
    c ∈ (populated kind player tiles position happenings).map.getSpectatorsInternal
        (populated kind player tiles position happenings).position centerPos r spectators
        onlyPlayers ↔
      c ∈ spectators ∨ c ∈ (populated kind player tiles position happenings).placed ∧
        (onlyPlayers = true → player c = true) ∧
        r.inRange (populated kind player tiles position happenings).position centerPos c =
          true :=
  ((listed_empty tiles position).run happenings).mem_spectators fits spectators onlyPlayers c

end Populated

namespace Sample

/-- A creature is placed, another one beside it, and the first walks into the next block. -/
def walkers : List Happening :=
  [.setTile 100 100 7 1, .setTile 104 100 7 2, .placeCreature 1 ⟨100, 100, 7⟩,
    .placeCreature 2 ⟨100, 100, 7⟩, .moveCreature 1 ⟨104, 100, 7⟩, .removeCreature 2]

def viewport : Ranges := ⟨-11, 11, -11, 11, 0, 7⟩

def street : Populated :=
  Populated.populated (fun _ => {}) (fun _ => true) (fun _ => {}) (fun _ => ⟨0, 0, 0⟩) walkers

theorem walker_seen :
    1 ∈ street.map.getSpectatorsInternal street.position ⟨100, 100, 7⟩ viewport ∅ true :=
  (Populated.spectators_exact (fun _ => {}) (fun _ => true) (fun _ => {}) (fun _ => ⟨0, 0, 0⟩)
    walkers ⟨100, 100, 7⟩ viewport ⟨by decide, by decide, by decide, by decide⟩ ∅ true 1).mpr
    (.inr ⟨by decide, by decide, by decide⟩)

end Sample

end TibServer.MapSectors
