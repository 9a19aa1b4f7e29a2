import TibServer.WalkCache

/-!
What the walk cache holds over all runs: for each tile of the window but the monster's own, what the
query answers now, as long as no answer changes untold and the steps to the south-east and south-west
are taken where the first and the last row do not tell apart the tiles they mix up.
-/

namespace TibServer.WalkCache

open ArrayLoops

/-! ### The cells of the cache -/

def InWindow (dx dy : Int) : Prop := |dx| ≤ maxWalkCacheWidth ∧ |dy| ≤ maxWalkCacheHeight

/-- The coordinate is one of a position. -/
def IsCoordinate (n : Int) : Prop := 0 ≤ n ∧ n < 65536

namespace State

variable (s : State)

/-- What the cache holds for a tile of the window. -/
def cell (dx dy : Int) : Bool :=
  s.monster.localMapCache (maxWalkCacheHeight + dy).toNat (maxWalkCacheWidth + dx).toNat

/-- What the query answers for it. -/
def answer (dx dy : Int) : Bool :=
  s.walkable (s.getTile (s.monster.position.x + dx) (s.monster.position.y + dy)
    s.monster.position.z)

end State

variable {s : State} {dx dy x y : Int} {tile : Option Tile} {pos : Position}

theorem inWindow_iff : InWindow dx dy ↔ -11 ≤ dx ∧ dx ≤ 11 ∧ -11 ≤ dy ∧ dy ≤ 11 := by
  show |dx| ≤ 11 ∧ |dy| ≤ 11 ↔ _
  rw [abs_le, abs_le, and_assoc]

theorem maxWalkCacheWidth_eq : maxWalkCacheWidth = 11 := rfl
theorem maxWalkCacheHeight_eq : maxWalkCacheHeight = 11 := rfl

theorem uint16_of_isCoordinate {n : Int} (h : IsCoordinate n) : uint16 n = n.toNat := by
  rw [uint16, Int.emod_eq_of_lt h.1 h.2]

theorem updateTileCache_cell (hin : InWindow x y) :
    (s.updateTileCache tile dx dy).cell x y =
      if x = dx ∧ y = dy then s.walkable tile else s.cell x y := by
  rw [inWindow_iff] at hin
  unfold State.updateTileCache State.cell State.mapCache
  dsimp only
  rw [maxWalkCacheWidth_eq, maxWalkCacheHeight_eq]
  by_cases hd : |dx| ≤ 11 ∧ |dy| ≤ 11
  · rw [if_pos hd]
    rw [abs_le, abs_le] at hd
    by_cases hy : y = dy
    · subst hy
      rw [Function.update_self]
      by_cases hx : x = dx
      · subst hx
        rw [Function.update_self, if_pos ⟨rfl, rfl⟩]
      · rw [Function.update_of_ne (by omega), if_neg fun h => hx h.1]
    · rw [Function.update_of_ne (by omega), if_neg fun h => hy h.2]
  · rw [if_neg hd, if_neg]
    rintro ⟨rfl, rfl⟩
    exact hd ⟨abs_le.2 ⟨hin.1, hin.2.1⟩, abs_le.2 hin.2.2⟩

theorem updateTileCacheAt_cell (hin : InWindow x y) :
    (s.updateTileCacheAt tile pos).cell x y =
      if (pos.x : Int) = s.monster.position.x + x ∧ (pos.y : Int) = s.monster.position.y + y ∧
          pos.z = s.monster.position.z then
        s.walkable tile
      else s.cell x y := by
  unfold State.updateTileCacheAt
  by_cases hz : pos.z = s.monster.position.z
  · rw [if_pos hz, updateTileCache_cell hin]
    unfold getOffsetX getOffsetY
    refine if_congr ⟨fun h => ⟨by omega, by omega, hz⟩, fun h => ⟨by omega, by omega⟩⟩ rfl rfl
  · rw [if_neg hz, if_neg fun h => hz h.2.2]

/-! ### Looking tiles up again -/

/-- Two states that differ in the cache only. -/
def Alike (s s' : State) : Prop := ∃ cache, s' = s.mapCache fun _ => cache

namespace Alike

variable {s' s'' : State}

theorem refl (s : State) : Alike s s := ⟨s.monster.localMapCache, rfl⟩

theorem trans (h : Alike s s') (h' : Alike s' s'') : Alike s s'' := by
  obtain ⟨cache, rfl⟩ := h
  obtain ⟨cache', rfl⟩ := h'
  exact ⟨cache', rfl⟩

theorem mapCache (s : State) (f : (Nat → Nat → Bool) → Nat → Nat → Bool) :
    Alike s (s.mapCache f) :=
  ⟨f s.monster.localMapCache, rfl⟩

theorem world (h : Alike s s') : s'.world = s.world := by
  obtain ⟨cache, rfl⟩ := h
  rfl

theorem position (h : Alike s s') : s'.monster.position = s.monster.position := by
  obtain ⟨cache, rfl⟩ := h
  rfl

theorem walkable (h : Alike s s') (tile : Option Tile) : s'.walkable tile = s.walkable tile := by
  obtain ⟨cache, rfl⟩ := h
  rfl

theorem answer (h : Alike s s') (dx dy : Int) : s'.answer dx dy = s.answer dx dy := by
  obtain ⟨cache, rfl⟩ := h
  rfl

theorem updateTileCache (s : State) (tile : Option Tile) (dx dy : Int) :
    Alike s (s.updateTileCache tile dx dy) :=
  mapCache s _

theorem updateTileCacheAt (s : State) (tile : Option Tile) (pos : Position) :
    Alike s (s.updateTileCacheAt tile pos) := by
  unfold State.updateTileCacheAt
  split_ifs
  · exact mapCache s _
  · exact refl s

end Alike

theorem foldl_alike {ι : Type} {step : State → ι → State} (list : List ι)
    (halike : ∀ s' d, Alike s' (step s' d)) : Alike s (list.foldl step s) := by
  induction list generalizing s with
  | nil => exact Alike.refl s
  | cons d list ih => exact (halike s d).trans ih

/-- Steps that each look up the tiles they hit. -/
theorem foldl_cells {ι : Type} {step : State → ι → State} (hits : ι → Int → Int → Prop)
    [∀ d x y, Decidable (hits d x y)] (list : List ι) (halike : ∀ s' d, Alike s' (step s' d))
    (hcell : ∀ s' d, Alike s s' → d ∈ list → ∀ x y, InWindow x y →
      (step s' d).cell x y = if hits d x y then s.answer x y else s'.cell x y)
    (hin : InWindow x y) : (list.foldl step s).cell x y =
      if ∃ d ∈ list, hits d x y then s.answer x y else s.cell x y := by
  induction list using List.reverseRecOn with
  | nil =>
      rw [if_neg fun ⟨d, hd, _⟩ => List.not_mem_nil hd]
      rfl
  | append_singleton list d ih =>
      have hcells := ih fun s' d hs hd => hcell s' d hs (List.mem_append_left _ hd)
      rw [List.foldl_append, List.foldl_cons, List.foldl_nil,
        hcell _ d (foldl_alike list halike) (List.mem_append_right _ List.mem_cons_self) x y hin,
        hcells]
      by_cases hd : hits d x y
      · rw [if_pos hd, if_pos ⟨d, List.mem_append_right _ List.mem_cons_self, hd⟩]
      · rw [if_neg hd]
        refine if_congr ⟨fun ⟨d', hd', hhits⟩ => ⟨d', List.mem_append_left _ hd', hhits⟩, ?_⟩ rfl rfl
        rintro ⟨d', hd', hhits⟩
        rcases List.mem_append.1 hd' with hmem | hmem
        · exact ⟨d', hmem, hhits⟩
        · exact absurd (List.mem_singleton.1 hmem ▸ hhits) hd

theorem Alike.refresh (s : State) (list : List (Int × Int)) : Alike s (s.refresh list) :=
  foldl_alike list fun s' d => Alike.updateTileCache s' _ d.1 d.2

theorem refresh_cell (list : List (Int × Int)) (hin : InWindow x y) :
    (s.refresh list).cell x y = if (x, y) ∈ list then s.answer x y else s.cell x y := by
  have hcells := foldl_cells (s := s) (fun d x y => x = d.1 ∧ y = d.2) list
    (fun s' d => Alike.updateTileCache s' _ d.1 d.2) (fun s' d hs _ x y hin => by
      rw [updateTileCache_cell hin]
      refine ite_congr rfl (fun h => ?_) fun _ => rfl
      rw [h.1, h.2]
      exact hs.answer d.1 d.2) hin
  refine hcells.trans (if_congr ⟨?_, fun hmem => ⟨(x, y), hmem, rfl, rfl⟩⟩ rfl rfl)
  rintro ⟨⟨x', y'⟩, hmem, rfl, rfl⟩
  exact hmem

theorem mem_offsets {range d : Int} (h : 0 ≤ range) :
    d ∈ State.offsets range ↔ -range ≤ d ∧ d ≤ range := by
  unfold State.offsets
  rw [List.mem_map]
  constructor
  · rintro ⟨k, hk, rfl⟩
    rw [List.mem_range] at hk
    omega
  · rintro ⟨hlow, hhigh⟩
    exact ⟨(d + range).toNat, List.mem_range.2 (by omega), by omega⟩

/-- A coordinate near to another is reached by one offset only, if at all. -/
theorem uint16_add_eq {p d d' : Int} (hp : IsCoordinate p) (hd : -11 ≤ d ∧ d ≤ 11)
    (hd' : -11 ≤ d' ∧ d' ≤ 11) : (uint16 (p + d') : Int) = p + d ↔ d = d' ∧ IsCoordinate (p + d) := by
  unfold IsCoordinate at hp ⊢
  unfold uint16
  omega

/-- The position is one that `uint16_t` coordinates give. -/
def IsPosition (pos : Position) : Prop := pos.x < 65536 ∧ pos.y < 65536

/-- The tile of the window lies on the map. -/
def OnMap (s : State) (dx dy : Int) : Prop :=
  IsCoordinate (s.monster.position.x + dx) ∧ IsCoordinate (s.monster.position.y + dy)

instance (n : Int) : Decidable (IsCoordinate n) := inferInstanceAs (Decidable (_ ∧ _))
instance (s : State) (dx dy : Int) : Decidable (OnMap s dx dy) :=
  inferInstanceAs (Decidable (_ ∧ _))

theorem Alike.updateMapTile (s : State) (x y : Int) : Alike s (s.updateMapTile x y) :=
  Alike.updateTileCacheAt s _ _

theorem updateMapTile_cell (hpos : IsPosition s.monster.position) (hd : InWindow dx dy)
    (hin : InWindow x y) : (s.updateMapTile dx dy).cell x y =
      if (x = dx ∧ y = dy) ∧ OnMap s x y then s.answer x y else s.cell x y := by
  have hx : IsCoordinate s.monster.position.x := ⟨by omega, by have := hpos.1; omega⟩
  have hy : IsCoordinate s.monster.position.y := ⟨by omega, by have := hpos.2; omega⟩
  rw [inWindow_iff] at hd
  have hwindow := inWindow_iff.1 hin
  have hx := uint16_add_eq hx ⟨hwindow.1, hwindow.2.1⟩ ⟨hd.1, hd.2.1⟩
  have hy := uint16_add_eq hy hwindow.2.2 hd.2.2
  unfold State.updateMapTile
  rw [updateTileCacheAt_cell hin]
  refine ite_congr (propext ?_) (fun h => ?_) fun _ => rfl
  · rw [hx, hy]
    unfold OnMap
    tauto
  · obtain ⟨⟨rfl, rfl⟩, _⟩ := h
    rfl

theorem Alike.updateMapRow (s : State) (y : Int) (list : List Int) :
    Alike s (list.foldl (fun s x => s.updateMapTile x y) s) :=
  foldl_alike list fun s' x => Alike.updateMapTile s' x y

theorem Alike.onMap {s' : State} (h : Alike s s') (x y : Int) : OnMap s' x y ↔ OnMap s x y := by
  unfold OnMap
  rw [h.position]

theorem mem_window {range : Int} (h : range = 11) :
    dx ∈ State.offsets range ↔ -11 ≤ dx ∧ dx ≤ 11 := by
  subst h
  exact mem_offsets (by decide)

theorem updateMapRow_cell (hpos : IsPosition s.monster.position) (hdy : -11 ≤ dy ∧ dy ≤ 11)
    (hin : InWindow x y) :
    ((State.offsets maxWalkCacheWidth).foldl (fun s x => s.updateMapTile x dy) s).cell x y =
      if y = dy ∧ OnMap s x y then s.answer x y else s.cell x y := by
  have hwindow := inWindow_iff.1 hin
  have hcells := foldl_cells (s := s) (fun dx x y => (x = dx ∧ y = dy) ∧ OnMap s x y)
    (State.offsets maxWalkCacheWidth) (fun s' dx => Alike.updateMapTile s' dx dy)
    (fun s' dx hs hdx x y hin => by
      have hdx := (mem_window maxWalkCacheWidth_eq).1 hdx
      rw [updateMapTile_cell (hs.position ▸ hpos) (inWindow_iff.2 ⟨hdx.1, hdx.2, hdy⟩) hin,
        hs.answer]
      exact if_congr (by rw [hs.onMap]) rfl rfl) hin
  refine hcells.trans (if_congr ⟨?_, fun h => ⟨x, ?_, ⟨rfl, h.1⟩, h.2⟩⟩ rfl rfl)
  · rintro ⟨dx, _, ⟨_, hy⟩, hmap⟩
    exact ⟨hy, hmap⟩
  · exact (mem_window maxWalkCacheWidth_eq).2 ⟨hwindow.1, hwindow.2.1⟩

theorem Alike.updateMapCache (s : State) : Alike s s.updateMapCache :=
  foldl_alike _ fun s' y => Alike.updateMapRow s' y _

/-- All tiles of the window that there are on the map are looked up. -/
theorem updateMapCache_cell (hpos : IsPosition s.monster.position) (hin : InWindow x y) :
    s.updateMapCache.cell x y = if OnMap s x y then s.answer x y else s.cell x y := by
  have hwindow := inWindow_iff.1 hin
  have hcells := foldl_cells (s := s) (fun dy x y => y = dy ∧ OnMap s x y)
    (State.offsets maxWalkCacheHeight) (fun s' dy => Alike.updateMapRow s' dy _)
    (fun s' dy hs hdy x y hin => by
      rw [updateMapRow_cell (hs.position ▸ hpos) ((mem_window maxWalkCacheHeight_eq).1 hdy) hin,
        hs.answer]
      exact if_congr (by rw [hs.onMap]) rfl rfl) hin
  refine hcells.trans (if_congr ⟨?_, fun h => ⟨y, ?_, rfl, h⟩⟩ rfl rfl)
  · rintro ⟨dy, _, _, hmap⟩
    exact hmap
  · exact (mem_window maxWalkCacheHeight_eq).2 hwindow.2.2

/-! ### Shifting -/

theorem shiftUp_cell (hin : InWindow x y) :
    (s.mapCache (shiftUp (mapWalkHeight - 1))).cell x y =
      if -11 < y then s.cell x (y - 1) else s.cell x y := by
  rw [inWindow_iff] at hin
  unfold State.cell State.mapCache
  dsimp only
  rw [maxWalkCacheHeight_eq, shiftUp_apply]
  show (if 1 ≤ (11 + y).toNat ∧ (11 + y).toNat ≤ 22 then _ else _ : Nat → Bool) _ = _
  by_cases hy : -11 < y
  · rw [if_pos hy, if_pos (by omega), show (11 + y).toNat - 1 = (11 + (y - 1)).toNat by omega]
  · rw [if_neg hy, if_neg (by omega)]

theorem shiftDown_cell (hin : InWindow x y) :
    (s.mapCache (shiftDown (mapWalkHeight - 1))).cell x y =
      if y < 11 then s.cell x (y + 1) else s.cell x y := by
  rw [inWindow_iff] at hin
  unfold State.cell State.mapCache
  dsimp only
  rw [maxWalkCacheHeight_eq, shiftDown_apply]
  show (if (11 + y).toNat < 22 then _ else _ : Nat → Bool) _ = _
  by_cases hy : y < 11
  · rw [if_pos hy, if_pos (by omega), show (11 + y).toNat + 1 = (11 + (y + 1)).toNat by omega]
  · rw [if_neg hy, if_neg (by omega)]

/-- The rows that are shifted to the side start below the first if the step is diagonal. -/
theorem mapRange_cell {f : (Nat → Bool) → Nat → Bool} {start : Nat} (hstart : start ≤ 23)
    (hin : InWindow x y) : (s.mapCache (mapRange f start (23 - start))).cell x y =
      if start ≤ 11 + y then
        f (s.monster.localMapCache (11 + y).toNat) (11 + x).toNat
      else s.cell x y := by
  rw [inWindow_iff] at hin
  unfold State.cell State.mapCache
  dsimp only
  rw [maxWalkCacheHeight_eq, maxWalkCacheWidth_eq, mapRange_apply]
  by_cases hy : (start : Int) ≤ 11 + y
  · rw [if_pos hy, if_pos (by omega)]
  · rw [if_neg hy, if_neg (by omega)]

theorem mem_row {range : Int} {v : Int} (h : range = 11) :
    (x, y) ∈ (State.offsets range).map (fun x => (x, v)) ↔ (-11 ≤ x ∧ x ≤ 11) ∧ y = v := by
  rw [List.mem_map]
  constructor
  · rintro ⟨d, hd, hpair⟩
    obtain ⟨rfl, rfl⟩ := Prod.mk.inj hpair
    exact ⟨(mem_window h).1 hd, rfl⟩
  · rintro ⟨hx, rfl⟩
    exact ⟨x, (mem_window h).2 hx, rfl⟩

theorem mem_column {range : Int} {v : Int} (h : range = 11) :
    (x, y) ∈ (State.offsets range).map (fun y => (v, y)) ↔ (-11 ≤ y ∧ y ≤ 11) ∧ x = v := by
  rw [List.mem_map]
  constructor
  · rintro ⟨d, hd, hpair⟩
    obtain ⟨rfl, rfl⟩ := Prod.mk.inj hpair
    exact ⟨(mem_window h).1 hd, rfl⟩
  · rintro ⟨hy, rfl⟩
    exact ⟨y, (mem_window h).2 hy, rfl⟩

variable {oldPos newPos : Position} {ex ey : Int}

theorem Alike.shiftY (s : State) (oldPos newPos : Position) : Alike s (s.shiftY oldPos newPos) := by
  unfold State.shiftY
  split_ifs
  · exact (Alike.mapCache s _).trans (Alike.refresh _ _)
  · exact (Alike.mapCache s _).trans (Alike.refresh _ _)
  · exact Alike.refl s

theorem Alike.shiftX (s : State) (oldPos newPos : Position) : Alike s (s.shiftX oldPos newPos) := by
  unfold State.shiftX
  dsimp only
  split_ifs
  · exact (Alike.mapCache s _).trans (Alike.refresh _ _)
  · exact (Alike.mapCache s _).trans (Alike.refresh _ _)
  · exact Alike.refl s

/-- A step to the north or to the south: the rows move, and the new one is looked up. -/
theorem shiftY_cell (hey : (newPos.y : Int) = oldPos.y + ey) (hnext : -1 ≤ ey ∧ ey ≤ 1)
    (hin : InWindow x y) : (s.shiftY oldPos newPos).cell x y =
      if -11 ≤ y + ey ∧ y + ey ≤ 11 then s.cell x (y + ey) else s.answer x y := by
  have hwindow := inWindow_iff.1 hin
  have hx : -11 ≤ x ∧ x ≤ 11 := ⟨hwindow.1, hwindow.2.1⟩
  unfold State.shiftY
  by_cases hnorth : newPos.y < oldPos.y
  · obtain rfl : ey = -1 := by omega
    rw [if_pos hnorth, refresh_cell _ hin, shiftUp_cell hin, maxWalkCacheHeight_eq]
    by_cases hedge : y = -11
    · rw [if_pos ((mem_row maxWalkCacheWidth_eq).2 ⟨hx, hedge⟩), if_neg (by omega)]
      exact (Alike.mapCache s _).answer x y
    · rw [if_neg fun h => hedge ((mem_row maxWalkCacheWidth_eq).1 h).2, if_pos (by omega),
        if_pos (by omega)]
      rfl
  rw [if_neg hnorth]
  by_cases hsouth : oldPos.y < newPos.y
  · obtain rfl : ey = 1 := by omega
    rw [if_pos hsouth, refresh_cell _ hin, shiftDown_cell hin, maxWalkCacheHeight_eq]
    by_cases hedge : y = 11
    · rw [if_pos ((mem_row maxWalkCacheWidth_eq).2 ⟨hx, hedge⟩), if_neg (by omega)]
      exact (Alike.mapCache s _).answer x y
    · rw [if_neg fun h => hedge ((mem_row maxWalkCacheWidth_eq).1 h).2, if_pos (by omega),
        if_pos (by omega)]
  · obtain rfl : ey = 0 := by omega
    rw [if_neg hsouth, add_zero, if_pos hwindow.2.2]

theorem shiftedRows_eq (hey : (newPos.y : Int) = oldPos.y + ey) (hnext : -1 ≤ ey ∧ ey ≤ 1) :
    State.shiftedRows oldPos newPos = (ey.natAbs, 23 - ey.natAbs) := by
  have hdistance : getDistanceY oldPos newPos = ey.natAbs := by
    unfold getDistanceY getOffsetY
    omega
  unfold State.shiftedRows
  rw [hdistance, show ((mapWalkHeight : Nat) : Int) = 23 by rfl]
  dsimp only
  have hnot : ¬ ((ey.natAbs : Nat) : Int) < 0 := by omega
  rw [if_neg hnot, if_neg hnot]
  refine Prod.ext ?_ ?_
  · dsimp only
    split_ifs <;> omega
  · dsimp only
    split_ifs <;> omega

/-- A step to the east or to the west: the rows from the second on move if the step is diagonal,
whether it goes to the north or to the south, and the new column is looked up. -/
theorem shiftX_cell (hex : (newPos.x : Int) = oldPos.x + ex) (hnextx : -1 ≤ ex ∧ ex ≤ 1)
    (hey : (newPos.y : Int) = oldPos.y + ey) (hnexty : -1 ≤ ey ∧ ey ≤ 1)
    (hin : InWindow x y) : (s.shiftX oldPos newPos).cell x y =
      if -11 ≤ x + ex ∧ x + ex ≤ 11 then
        if ey = 0 ∨ y ≠ -11 then s.cell (x + ex) y else s.cell x y
      else s.answer x y := by
  have hwindow := inWindow_iff.1 hin
  unfold State.shiftX
  rw [shiftedRows_eq hey hnexty]
  dsimp only
  have hrows : ((ey.natAbs : Nat) : Int) ≤ 11 + y ↔ ey = 0 ∨ y ≠ -11 := by omega
  by_cases heast : oldPos.x < newPos.x
  · obtain rfl : ex = 1 := by omega
    rw [if_pos heast, refresh_cell _ hin, mapRange_cell (by omega) hin, maxWalkCacheWidth_eq]
    by_cases hedge : x = 11
    · rw [if_pos ((mem_column maxWalkCacheHeight_eq).2 ⟨hwindow.2.2, hedge⟩), if_neg (by omega)]
      exact (Alike.mapCache s _).answer x y
    · rw [if_neg fun h => hedge ((mem_column maxWalkCacheHeight_eq).1 h).2,
        if_pos (show -11 ≤ x + 1 ∧ x + 1 ≤ 11 by omega)]
      refine if_congr hrows ?_ rfl
      rw [shiftDown_apply, if_pos (by change _ < 22; omega)]
      unfold State.cell
      rw [maxWalkCacheHeight_eq, maxWalkCacheWidth_eq,
        show (11 + x).toNat + 1 = (11 + (x + 1)).toNat by omega]
  rw [if_neg heast]
  by_cases hwest : newPos.x < oldPos.x
  · obtain rfl : ex = -1 := by omega
    rw [if_pos hwest, refresh_cell _ hin, mapRange_cell (by omega) hin, maxWalkCacheWidth_eq]
    by_cases hedge : x = -11
    · rw [if_pos ((mem_column maxWalkCacheHeight_eq).2 ⟨hwindow.2.2, hedge⟩), if_neg (by omega)]
      exact (Alike.mapCache s _).answer x y
    · rw [if_neg fun h => hedge ((mem_column maxWalkCacheHeight_eq).1 h).2,
        if_pos (show -11 ≤ x + -1 ∧ x + -1 ≤ 11 by omega)]
      refine if_congr hrows ?_ rfl
      rw [shiftUp_apply, if_pos ⟨by omega, by change _ ≤ 22; omega⟩]
      unfold State.cell
      rw [maxWalkCacheHeight_eq, maxWalkCacheWidth_eq,
        show (11 + x).toNat - 1 = (11 + (x + -1)).toNat by omega]
  · obtain rfl : ex = 0 := by omega
    rw [if_neg hwest, add_zero, if_pos ⟨hwindow.1, hwindow.2.1⟩, ite_self]

/-! ### Agreement -/

/-- Once it is loaded, the cache holds the answers for the tiles of the window but the monster's
own. -/
structure Agrees (s : State) : Prop where
  position : IsPosition s.monster.position
  cells : s.monster.isMapLoaded = true → ∀ x y, InWindow x y → OnMap s x y →
    ¬ (x = 0 ∧ y = 0) → s.cell x y = s.answer x y

/-- In the first and in the last row of the window, the tiles that a step to the south-east or to
the south-west mixes up have one answer. -/
def TellsNoneApart (s : State) (ex : Int) : Prop :=
  ∀ x, -11 ≤ x ∧ x ≤ 11 → -11 ≤ x + ex ∧ x + ex ≤ 11 →
    (OnMap s x (-11) → OnMap s (x - ex) (-11) ∧ s.answer x (-11) = s.answer (x - ex) (-11)) ∧
    (OnMap s x 11 → s.answer x 11 = s.answer (x + ex) 11)

/-- What the cache holds after both shifts, for the tiles it held before, and for the others. -/
theorem shifted_cell (hex : (newPos.x : Int) = oldPos.x + ex) (hnextx : -1 ≤ ex ∧ ex ≤ 1)
    (hey : (newPos.y : Int) = oldPos.y + ey) (hnexty : -1 ≤ ey ∧ ey ≤ 1)
    (hin : InWindow x y) : ((s.shiftY oldPos newPos).shiftX oldPos newPos).cell x y =
      if -11 ≤ x + ex ∧ x + ex ≤ 11 then
        if ey = 1 ∧ ex ≠ 0 ∧ y = -11 then s.cell x (-11 + 1)
        else if ey = 1 ∧ ex ≠ 0 ∧ y = 11 then s.answer (x + ex) 11
        else if -11 ≤ y + ey ∧ y + ey ≤ 11 then s.cell (x + ex) (y + ey)
        else s.answer x y
      else s.answer x y := by
  have hwindow := inWindow_iff.1 hin
  rw [shiftX_cell hex hnextx hey hnexty hin]
  by_cases hx : -11 ≤ x + ex ∧ x + ex ≤ 11
  · have hside : InWindow (x + ex) y := inWindow_iff.2 ⟨hx.1, hx.2, hwindow.2.2⟩
    rw [if_pos hx, if_pos hx, shiftY_cell hey hnexty hside, shiftY_cell hey hnexty hin]
    by_cases htop : ey = 1 ∧ ex ≠ 0 ∧ y = -11
    · obtain ⟨rfl, hne, rfl⟩ := htop
      rw [if_neg (by omega), if_pos (by omega), if_pos ⟨rfl, hne, rfl⟩]
    rw [if_neg htop]
    by_cases hbottom : ey = 1 ∧ ex ≠ 0 ∧ y = 11
    · obtain ⟨rfl, hne, rfl⟩ := hbottom
      rw [if_pos (by omega), if_neg (by omega), if_pos ⟨rfl, hne, rfl⟩]
    rw [if_neg hbottom]
    by_cases hrow : ey = 0 ∨ y ≠ -11
    · rw [if_pos hrow]
      refine ite_congr rfl (fun _ => rfl) fun hout => ?_
      obtain rfl : ex = 0 := by omega
      rw [add_zero]
    · rw [if_neg hrow]
      refine ite_congr rfl (fun hy => ?_) fun _ => rfl
      obtain rfl : ex = 0 := by omega
      rw [add_zero]
  · rw [if_neg hx, if_neg hx]
    exact (Alike.shiftY s _ _).answer x y

theorem answer_eq (s : State) (x y : Int) : s.answer x y =
    s.walkable (s.world.tile ⟨uint16 (s.monster.position.x + x), uint16 (s.monster.position.y + y),
      s.monster.position.z⟩) := rfl

/-- An offset other than that of a position leads to another position. -/
theorem ne_of_offset {p : Position} (hmap : OnMap s x y)
    (hne : ¬ ((p.x : Int) = s.monster.position.x + x ∧ (p.y : Int) = s.monster.position.y + y)) :
    (⟨uint16 (s.monster.position.x + x), uint16 (s.monster.position.y + y),
      s.monster.position.z⟩ : Position) ≠ p := by
  rintro rfl
  refine hne ⟨?_, ?_⟩
  · rw [uint16_of_isCoordinate hmap.1]
    exact Int.toNat_of_nonneg hmap.1.1
  · rw [uint16_of_isCoordinate hmap.2]
    exact Int.toNat_of_nonneg hmap.2.1

section Moves

variable {c : CreatureId}

theorem moved_position (oldPos newPos : Position) (hself : c = s.monster.id) :
    (s.moved c oldPos newPos).monster.position = newPos := by
  unfold State.moved
  rw [if_pos hself]

theorem moved_isMapLoaded :
    (s.moved c oldPos newPos).monster.isMapLoaded = s.monster.isMapLoaded := by
  unfold State.moved
  split_ifs <;> rfl

theorem moved_cell (x y : Int) : (s.moved c oldPos newPos).cell x y = s.cell x y := by
  unfold State.moved
  split_ifs <;> rfl

/-- A move changes no answer but those of the two tiles. -/
theorem moved_walkable (hold : pos ≠ oldPos) (hnew : pos ≠ newPos) :
    (s.moved c oldPos newPos).walkable ((s.moved c oldPos newPos).world.tile pos) =
      s.walkable (s.world.tile pos) := by
  have htile : (s.moved c oldPos newPos).world.tile pos = s.world.tile pos := by
    have hfirst : (s.withCreatures oldPos (·.erase c)).world.tile pos = s.world.tile pos :=
      Function.update_of_ne hold ..
    have hsecond : ((s.withCreatures oldPos (·.erase c)).withCreatures newPos (c :: ·)).world.tile
        pos = s.world.tile pos :=
      (Function.update_of_ne hnew ..).trans hfirst
    unfold State.moved
    split_ifs
    · exact hsecond
    · exact hsecond
  rw [htile]
  unfold State.moved
  split_ifs <;> rfl

/-- The answers for the tiles that stay in the window, from their new offsets. -/
theorem moved_answer (hself : c = s.monster.id) (hold : oldPos = s.monster.position)
    (hz : newPos.z = oldPos.z) (x' y' : Int) (hx : (newPos.x : Int) + x = oldPos.x + x')
    (hy : (newPos.y : Int) + y = oldPos.y + y') (hmap : OnMap (s.moved c oldPos newPos) x y)
    (hhere : ¬ (x = 0 ∧ y = 0)) (hleft : ¬ (x' = 0 ∧ y' = 0)) :
    (s.moved c oldPos newPos).answer x y = s.answer x' y' := by
  have hposition := moved_position oldPos newPos hself
  rw [answer_eq, moved_walkable]
  · rw [answer_eq, hposition, ← hold, hx, hy, hz]
  · refine ne_of_offset hmap ?_
    rw [hposition]
    omega
  · refine ne_of_offset hmap ?_
    rw [hposition]
    omega

/-- The monster goes one tile on. -/
theorem Agrees.ownStep (h : Agrees s) (hself : c = s.monster.id)
    (hold : oldPos = s.monster.position) (hnew : IsPosition newPos) (hz : newPos.z = oldPos.z)
    (hex : (newPos.x : Int) = oldPos.x + ex) (hnextx : -1 ≤ ex ∧ ex ≤ 1)
    (hey : (newPos.y : Int) = oldPos.y + ey) (hnexty : -1 ≤ ey ∧ ey ≤ 1)
    (hloaded : s.monster.isMapLoaded = true)
    (hsouth : ey = 1 → ex ≠ 0 → TellsNoneApart (s.moved c oldPos newPos) ex)
    {m shifted : State} (hm : m = s.moved c oldPos newPos)
    (hshifted : shifted = (m.shiftY oldPos newPos).shiftX oldPos newPos) :
    Agrees (shifted.updateTileCacheAt (shifted.world.tile oldPos) oldPos) := by
  have hposition : m.monster.position = newPos := hm ▸ moved_position oldPos newPos hself
  have halike : Alike m shifted :=
    hshifted ▸ (Alike.shiftY m _ _).trans (Alike.shiftX _ _ _)
  have hall := halike.trans (Alike.updateTileCacheAt shifted (shifted.world.tile oldPos) oldPos)
  refine ⟨hall.position ▸ hposition ▸ hnew, fun _ x y hin hmap hhere => ?_⟩
  rw [hall.onMap] at hmap
  have hwindow := inWindow_iff.1 hin
  rw [hall.answer, updateTileCacheAt_cell hin, halike.position, hposition]
  by_cases hleft : (oldPos.x : Int) = newPos.x + x ∧ (oldPos.y : Int) = newPos.y + y ∧
      oldPos.z = newPos.z
  · -- the tile that the monster left is looked up at the end
    rw [if_pos hleft, halike.walkable, halike.world, answer_eq, hposition, ← hleft.1, ← hleft.2.1,
      ← hleft.2.2]
    have hpos := h.position
    rw [← hold] at hpos
    rw [uint16_of_isCoordinate ⟨by omega, by have := hpos.1; omega⟩,
      uint16_of_isCoordinate ⟨by omega, by have := hpos.2; omega⟩, Int.toNat_natCast,
      Int.toNat_natCast]
  rw [if_neg hleft, hshifted, shifted_cell hex hnextx hey hnexty hin]
  by_cases hx : -11 ≤ x + ex ∧ x + ex ≤ 11
  · rw [if_pos hx]
    subst hm
    by_cases htop : ey = 1 ∧ ex ≠ 0 ∧ y = -11
    · obtain ⟨rfl, hne, rfl⟩ := htop
      obtain ⟨hbeside, hsame⟩ := (hsouth rfl hne x ⟨hwindow.1, hwindow.2.1⟩ hx).1 hmap
      rw [if_pos ⟨rfl, hne, rfl⟩, moved_cell, hsame,
        moved_answer hself hold hz x (-11 + 1) (by omega) (by omega) hbeside (by omega)
          (by omega)]
      refine h.cells hloaded x (-11 + 1) (inWindow_iff.2 (by omega)) ?_ (by omega)
      unfold OnMap at hbeside ⊢
      rw [hposition] at hbeside
      rw [← hold, show (oldPos.x : Int) + x = newPos.x + (x - ex) by omega,
        show (oldPos.y : Int) + (-11 + 1) = newPos.y + -11 by omega]
      exact hbeside
    rw [if_neg htop]
    by_cases hbottom : ey = 1 ∧ ex ≠ 0 ∧ y = 11
    · obtain ⟨rfl, hne, rfl⟩ := hbottom
      rw [if_pos ⟨rfl, hne, rfl⟩]
      exact ((hsouth rfl hne x ⟨hwindow.1, hwindow.2.1⟩ hx).2 hmap).symm
    rw [if_neg hbottom]
    by_cases hy : -11 ≤ y + ey ∧ y + ey ≤ 11
    · have hmoved : ¬ (x + ex = 0 ∧ y + ey = 0) := by
        rintro ⟨hx0, hy0⟩
        exact hleft ⟨by omega, by omega, hz.symm⟩
      rw [if_pos hy, moved_cell,
        moved_answer hself hold hz (x + ex) (y + ey) (by omega) (by omega) hmap hhere
          hmoved]
      refine h.cells hloaded _ _ (inWindow_iff.2 (by omega)) ?_ hmoved
      unfold OnMap at hmap ⊢
      rw [hposition] at hmap
      rw [← hold, show (oldPos.x : Int) + (x + ex) = newPos.x + x by omega,
        show (oldPos.y : Int) + (y + ey) = newPos.y + y by omega]
      exact hmap
    · rw [if_neg hy]
  · rw [if_neg hx]

theorem Agrees.updateMapCache (h : IsPosition s.monster.position) : Agrees s.updateMapCache := by
  have hall := Alike.updateMapCache s
  refine ⟨?_, fun _ x y hin hmap _ => ?_⟩
  · rw [hall.position]
    exact h
  · rw [updateMapCache_cell h hin, if_pos ((hall.onMap x y).1 hmap), hall.answer]

theorem areNextTo_iff {p q : Position} : areNextTo p q = true ↔
    (-1 ≤ (q.x : Int) - p.x ∧ (q.x : Int) - p.x ≤ 1) ∧
      (-1 ≤ (q.y : Int) - p.y ∧ (q.y : Int) - p.y ≤ 1) ∧ q.z = p.z := by
  unfold areNextTo getOffsetX getOffsetY
  simp only [Bool.and_eq_true, decide_eq_true_eq, beq_iff_eq]
  omega

/-- The monster moves: by a step, or to anywhere. -/
theorem Agrees.ownMove (h : Agrees s) (hself : c = s.monster.id)
    (hold : oldPos = s.monster.position) (hnew : IsPosition newPos) {forceTeleport : Bool}
    (hsouth : s.isTeleport oldPos newPos forceTeleport = false → newPos.y = oldPos.y + 1 →
      newPos.x ≠ oldPos.x → s.monster.isMapLoaded = true →
        TellsNoneApart (s.moved c oldPos newPos) (newPos.x - oldPos.x)) :
    Agrees (s.moveCreature c oldPos newPos forceTeleport) := by
  have hposition : IsPosition (s.moved c oldPos newPos).monster.position := by
    rw [moved_position oldPos newPos hself]
    exact hnew
  unfold State.moveCreature
  rw [if_pos hself]
  unfold State.onOwnMove
  rw [moved_isMapLoaded]
  cases hloaded : s.monster.isMapLoaded with
  | false =>
      refine ⟨hposition, fun htrue => ?_⟩
      change (s.moved c oldPos newPos).monster.isMapLoaded = true at htrue
      rw [moved_isMapLoaded, hloaded] at htrue
      exact absurd htrue Bool.false_ne_true
  | true =>
      rw [if_neg (by decide)]
      by_cases hfar : (s.isTeleport oldPos newPos forceTeleport || oldPos.z != newPos.z) = true
      · rw [if_pos hfar]
        exact Agrees.updateMapCache hposition
      rw [if_neg hfar]
      have hstep : s.isTeleport oldPos newPos forceTeleport = false := by
        cases htele : s.isTeleport oldPos newPos forceTeleport with
        | false => rfl
        | true => exact absurd (by rw [htele]; rfl) hfar
      have hnext : areNextTo oldPos newPos = true := by
        unfold State.isTeleport at hstep
        simp only [Bool.or_eq_false_iff, Bool.not_eq_false'] at hstep
        exact hstep.2
      obtain ⟨hx, hy, hz⟩ := areNextTo_iff.1 hnext
      have hex : (newPos.x : Int) = oldPos.x + ((newPos.x : Int) - oldPos.x) := by omega
      have hey : (newPos.y : Int) = oldPos.y + ((newPos.y : Int) - oldPos.y) := by omega
      refine h.ownStep hself hold hnew hz hex hx hey hy hloaded ?_ rfl rfl
      intro hone hside
      exact hsouth hstep (by omega) (by omega) hloaded

end Moves

/-! ### What the monster is told -/

/-- The position lies at the offset. -/
def LiesAt (s : State) (p : Position) (x y : Int) : Prop :=
  (p.x : Int) = s.monster.position.x + x ∧ (p.y : Int) = s.monster.position.y + y ∧
    p.z = s.monster.position.z

/-- The cache agrees but for some positions. -/
structure AgreesBeside (s : State) (told : List Position) : Prop where
  position : IsPosition s.monster.position
  cells : s.monster.isMapLoaded = true → ∀ x y, InWindow x y → OnMap s x y →
    ¬ (x = 0 ∧ y = 0) → (∀ p ∈ told, ¬ LiesAt s p x y) → s.cell x y = s.answer x y

theorem AgreesBeside.agrees (h : AgreesBeside s []) : Agrees s :=
  ⟨h.position, fun hloaded x y hin hmap hhere =>
    h.cells hloaded x y hin hmap hhere fun _ hp => absurd hp List.not_mem_nil⟩

/-- What changes no answer but for some positions. -/
theorem Agrees.beside (h : Agrees s) {s' : State} {told : List Position}
    (hposition : s'.monster.position = s.monster.position)
    (hloaded : s'.monster.isMapLoaded = s.monster.isMapLoaded)
    (hcache : s'.monster.localMapCache = s.monster.localMapCache)
    (hanswer : ∀ p, p ∉ told →
      s'.walkable (s'.world.tile p) = s.walkable (s.world.tile p)) :
    AgreesBeside s' told := by
  refine ⟨?_, fun hflag x y hin hmap hhere hbeside => ?_⟩
  · rw [hposition]
    exact h.position
  · have hsame : s'.answer x y = s.answer x y := by
      rw [answer_eq, answer_eq, ← hposition]
      refine hanswer _ fun hmem => hbeside _ hmem ⟨?_, ?_, rfl⟩
      · rw [uint16_of_isCoordinate hmap.1]
        exact Int.toNat_of_nonneg hmap.1.1
      · rw [uint16_of_isCoordinate hmap.2]
        exact Int.toNat_of_nonneg hmap.2.1
    unfold OnMap at hmap
    rw [hposition] at hmap
    rw [hsame, ← h.cells (hloaded ▸ hflag) x y hin hmap hhere]
    unfold State.cell
    rw [hcache]

/-- A tile is looked up. -/
theorem AgreesBeside.refreshTile {told : List Position} (h : AgreesBeside s (pos :: told)) :
    AgreesBeside (s.refreshTile pos) told := by
  unfold State.refreshTile
  cases hflag : s.monster.isMapLoaded with
  | false =>
      refine ⟨h.position, fun htrue => ?_⟩
      change s.monster.isMapLoaded = true at htrue
      rw [hflag] at htrue
      exact absurd htrue Bool.false_ne_true
  | true =>
      rw [if_pos rfl]
      have hall := Alike.updateTileCacheAt s (s.world.tile pos) pos
      refine ⟨?_, fun _ x y hin hmap hhere hbeside => ?_⟩
      · rw [hall.position]
        exact h.position
      rw [hall.onMap] at hmap
      rw [updateTileCacheAt_cell hin, hall.answer]
      by_cases hpoint : (pos.x : Int) = s.monster.position.x + x ∧
          (pos.y : Int) = s.monster.position.y + y ∧ pos.z = s.monster.position.z
      · rw [if_pos hpoint, answer_eq, uint16_of_isCoordinate hmap.1,
          uint16_of_isCoordinate hmap.2, ← hpoint.1, ← hpoint.2.1, ← hpoint.2.2,
          Int.toNat_natCast, Int.toNat_natCast]
      · rw [if_neg hpoint]
        refine h.cells hflag x y hin hmap hhere fun p hp => ?_
        rcases List.mem_cons.1 hp with rfl | hp
        · exact hpoint
        · have hnot := hbeside p hp
          unfold LiesAt at hnot ⊢
          rwa [hall.position] at hnot

/-- Another creature moves. -/
theorem Agrees.otherMove (h : Agrees s) {c : CreatureId} {forceTeleport : Bool}
    (hother : c ≠ s.monster.id) : Agrees (s.moveCreature c oldPos newPos forceTeleport) := by
  have hmonster : (s.moved c oldPos newPos).monster = s.monster := by
    unfold State.moved
    rw [if_neg hother]
    rfl
  have hbeside : AgreesBeside (s.moved c oldPos newPos) [newPos, oldPos] := by
    refine h.beside ?_ ?_ ?_ fun p hp => ?_
    · rw [hmonster]
    · rw [hmonster]
    · rw [hmonster]
    · exact moved_walkable (fun hold => hp (by rw [hold]; simp)) (fun hnew => hp (by rw [hnew]; simp))
  unfold State.moveCreature
  rw [if_neg hother]
  exact hbeside.refreshTile.refreshTile.agrees

/-- A creature comes to a tile or goes. -/
theorem Agrees.withCreatures (h : Agrees s) (f : List CreatureId → List CreatureId) :
    Agrees ((s.withCreatures pos f).refreshTile pos) := by
  have hbeside : AgreesBeside (s.withCreatures pos f) [pos] := by
    refine h.beside rfl rfl rfl fun p hp => ?_
    have htile : (s.withCreatures pos f).world.tile p = s.world.tile p :=
      Function.update_of_ne (fun heq => hp (List.mem_singleton.2 heq)) ..
    rw [htile]
    rfl
  exact hbeside.refreshTile.agrees

/-! ### Operations on the items of a tile -/

/-- The item that an operation is about. -/
def itemOf : TileOp → ItemRef
  | .addThing i => i
  | .internalAddThing i => i
  | .updateThing i _ _ => i
  | .replaceThing _ i => i
  | .removeThing i _ => i

theorem itemOf_coming {w : World} {t : Tile} {op : TileOp} {i : ItemRef} {it : ItemType}
    (h : op.coming w t = some (i, it)) : itemOf op = i := by
  cases op with
  | addThing j =>
      simp only [TileOp.coming] at h
      split_ifs at h
      exact (Prod.mk.inj (Option.some.inj h)).1
  | internalAddThing j =>
      simp only [TileOp.coming] at h
      split_ifs at h <;> exact (Prod.mk.inj (Option.some.inj h)).1
  | updateThing j itemId count =>
      simp only [TileOp.coming] at h
      split_ifs at h
      exact (Prod.mk.inj (Option.some.inj h)).1
  | replaceThing index j =>
      obtain ⟨replaced, _, heq⟩ := Option.map_eq_some_iff.1 h
      exact (Prod.mk.inj heq).1
  | removeThing j count => cases h

theorem setTile_tile_of_ne {w : World} {p : Position} (h : p ≠ pos) (t : Tile) :
    (w.setTile pos t).tile p = w.tile p :=
  Function.update_of_ne h ..

theorem tileRemoveThing_tile {w : World} {p : Position} (h : p ≠ pos) (i : ItemRef) (count : Nat) :
    (w.tileRemoveThing pos i count).tile p = w.tile p := by
  unfold World.tileRemoveThing
  split
  · rfl
  · split_ifs
    · rfl
    · exact setTile_tile_of_ne h _
    · rfl
    · exact setTile_tile_of_ne h _

theorem tileInsert_tile {w : World} {p : Position} (h : p ≠ pos) (i : ItemRef) :
    (w.tileInsert pos i).tile p = w.tile p := by
  unfold World.tileInsert
  split
  · rfl
  · exact setTile_tile_of_ne h _

/-- An operation on a tile leaves the others alone. -/
theorem apply_tile {w : World} {p : Position} (h : p ≠ pos) (op : TileOp) :
    (w.apply pos op).tile p = w.tile p := by
  cases op with
  | addThing i =>
      show (w.tileAddThing pos i).tile p = _
      unfold World.tileAddThing
      split
      · rfl
      · split_ifs
        · rfl
        · dsimp only
          split
          · exact tileInsert_tile h i
          · split_ifs
            · exact setTile_tile_of_ne h _
            · rfl
            · exact (tileInsert_tile h i).trans (tileRemoveThing_tile h _ 1)
  | internalAddThing i =>
      show (w.tileInternalAddThing pos i).tile p = _
      unfold World.tileInternalAddThing
      split
      · rfl
      · dsimp only
        split_ifs
        · exact setTile_tile_of_ne h _
        · rfl
        · rfl
        · exact setTile_tile_of_ne h _
        · exact setTile_tile_of_ne h _
  | updateThing i itemId count =>
      show (w.tileUpdateThing pos i itemId count).tile p = _
      unfold World.tileUpdateThing
      split
      · rfl
      · split_ifs
        · rfl
        · exact setTile_tile_of_ne h _
  | replaceThing index i =>
      show (w.tileReplaceThing pos index i).tile p = _
      unfold World.tileReplaceThing
      split
      · rfl
      · split
        · rfl
        · exact setTile_tile_of_ne h _
  | removeThing i count => exact tileRemoveThing_tile h i count

/-- The answer for a tile is that of what lies on it, and of what it is. -/
theorem walkable_of_face {w : World} {t : Tile}
    (hface : ∀ i ∈ t.things, w.face i = s.world.face i) :
    ({ s with world := w } : State).walkable (some t) = s.walkable (some t) := by
  have hfield (i : ItemRef) (hi : i ∈ t.things) :
      (w.item i).getMagicField = (s.world.item i).getMagicField :=
    (World.class_of_face (hface i hi)).2.1
  have hground : t.ground.filter (fun i => (w.item i).getMagicField) =
      t.ground.filter fun i => (s.world.item i).getMagicField := by
    cases hg : t.ground with
    | none => rfl
    | some i =>
        have hi : i ∈ t.things := by
          unfold Tile.things
          rw [hg]
          exact List.mem_cons_self
        simp only [Option.filter_some, hfield i hi]
  have hlist : t.itemList.reverse.find? (fun i => (w.item i).getMagicField) =
      t.itemList.reverse.find? fun i => (s.world.item i).getMagicField := by
    refine List.find?_congr fun i hi => hfield i ?_
    exact List.mem_append_right _ (List.mem_reverse.1 hi)
  have hsame : ({ s with world := w } : State).getFieldItem t = s.getFieldItem t := by
    unfold State.getFieldItem
    dsimp only
    rw [hground, hlist]
  have hmem (i : ItemRef) (hi : s.getFieldItem t = some i) : i ∈ t.things := by
    unfold State.getFieldItem at hi
    split_ifs at hi
    cases hg : t.ground.filter fun i => (s.world.item i).getMagicField with
    | none =>
        rw [hg] at hi
        exact List.mem_append_right _ (List.mem_reverse.1 (List.mem_of_find?_eq_some hi))
    | some j =>
        rw [hg] at hi
        obtain ⟨hj, _⟩ := Option.filter_eq_some_iff.1 hg
        rw [← Option.some.inj hi]
        exact List.mem_append_left _ (Option.mem_toList.2 hj)
  have hhurts (flags : Flags) :
      (s.getFieldItem t).any (({ s with world := w } : State).hurts flags) =
        (s.getFieldItem t).any (s.hurts flags) := by
    cases hi : s.getFieldItem t with
    | none => rfl
    | some i =>
        show ({ s with world := w } : State).hurts flags i = s.hurts flags i
        unfold State.hurts
        dsimp only
        rw [World.typeOf_of_face (hface i (hmem i hi))]
  have hquery (flags : Flags) :
      ({ s with world := w } : State).queryAdd t flags = s.queryAdd t flags := by
    unfold State.queryAdd
    rw [hsame, hhurts]
    rfl
  unfold State.walkable
  exact congrArg (· == ReturnValue.noError) (hquery _)

/-- An operation on the items of a tile changes the answer for no other tile. -/
theorem operate_walkable {t : Tile} {op : TileOp} (hhere : s.world.tile pos = some t)
    (hlone : ∀ p u, p ≠ pos → s.world.tile p = some u → itemOf op ∉ u.things) {p : Position}
    (hp : p ≠ pos) :
    ({ s with world := s.world.apply pos op } : State).walkable ((s.world.apply pos op).tile p) =
      s.walkable (s.world.tile p) := by
  obtain ⟨t', _, hturn⟩ := World.apply_turn hhere op
  rw [apply_tile hp]
  cases hu : s.world.tile p with
  | none => rfl
  | some u =>
      refine walkable_of_face fun i hi => hturn.others i fun it hcoming => ?_
      rw [← itemOf_coming hcoming] at hi
      exact hlone p u hp hu hi

/-! ### Runs -/

/-- What happens around a monster. Besides the moves and the changes of tiles, anything may change
that the monster is not told of, such as what it is able to do itself. -/
inductive Event
  | appear
  | think
  | move (c : CreatureId) (oldPos newPos : Position) (forceTeleport : Bool)
  | place (c : CreatureId) (pos : Position)
  | remove (c : CreatureId) (pos : Position)
  | operate (pos : Position) (op : TileOp)
  | untold (s' : State)

def perform (s : State) : Event → State
  | .appear => s.onOwnAppear
  | .think => s.onThink
  | .move c oldPos newPos forceTeleport => s.moveCreature c oldPos newPos forceTeleport
  | .place c pos => s.placeCreature c pos
  | .remove c pos => s.removeCreature c pos
  | .operate pos op => s.operate pos op
  | .untold s' => s'

/-- The monster moves from where it is to a position there is, and an item that is operated on lies
on no other tile. -/
def Possible (s : State) : Event → Prop
  | .move c oldPos newPos _ => c = s.monster.id → oldPos = s.monster.position ∧ IsPosition newPos
  | .operate pos op => (∃ t, s.world.tile pos = some t) ∧
      ∀ p u, p ≠ pos → s.world.tile p = some u → itemOf op ∉ u.things
  | .untold s' => s'.monster.position = s.monster.position ∧
      s'.monster.isMapLoaded = s.monster.isMapLoaded ∧
        s'.monster.localMapCache = s.monster.localMapCache
  | _ => True

/-- What the monster does not look up again keeps its answer, and a step to the south-east or
south-west is taken where the first and the last row tell apart none of the tiles mixed up. -/
def Spares (s : State) : Event → Prop
  | .move c oldPos newPos forceTeleport => c = s.monster.id →
      s.isTeleport oldPos newPos forceTeleport = false → newPos.y = oldPos.y + 1 →
        newPos.x ≠ oldPos.x → s.monster.isMapLoaded = true →
          TellsNoneApart (s.moved c oldPos newPos) (newPos.x - oldPos.x)
  | .operate pos op => (s.world.tile pos).any (fun t => State.refreshes s.world t op) = false →
      s.monster.isMapLoaded = true →
        ({ s with world := s.world.apply pos op } : State).walkable
          ((s.world.apply pos op).tile pos) = s.walkable (s.world.tile pos)
  | .untold s' => s.monster.isMapLoaded = true → ∀ x y, InWindow x y → OnMap s x y →
      ¬ (x = 0 ∧ y = 0) → s'.answer x y = s.answer x y
  | _ => True

/-- The runs of a monster that is on the map, with its cache not yet loaded. -/
inductive Run (allowed : State → Event → Prop) : State → Prop
  | start {s : State} (position : IsPosition s.monster.position)
      (unloaded : s.monster.isMapLoaded = false) : Run allowed s
  | step {s : State} (event : Event) (run : Run allowed s) (possible : Possible s event)
      (meets : allowed s event) : Run allowed (perform s event)

theorem Agrees.loading (h : Agrees s) : Agrees
    ({ s with monster := { s.monster with isMapLoaded := true } } : State).updateMapCache := by
  refine Agrees.updateMapCache ?_
  exact h.position

theorem Agrees.perform {event : Event} (h : Agrees s) (possible : Possible s event)
    (meets : Spares s event) : Agrees (perform s event) := by
  cases event with
  | appear =>
      show Agrees s.onOwnAppear
      unfold State.onOwnAppear
      split_ifs
      · exact h.loading
      · exact h
  | think =>
      show Agrees s.onThink
      unfold State.onThink
      split_ifs
      · exact h.loading
      · exact h
  | move c oldPos newPos forceTeleport =>
      by_cases hself : c = s.monster.id
      · obtain ⟨hold, hnew⟩ := possible hself
        exact h.ownMove hself hold hnew (meets hself)
      · exact h.otherMove hself
  | place c pos => exact h.withCreatures (c :: ·)
  | remove c pos => exact h.withCreatures (·.erase c)
  | operate pos op =>
      obtain ⟨⟨t, hhere⟩, hlone⟩ := possible
      show Agrees (s.operate pos op)
      unfold State.operate
      dsimp only
      cases hrefresh : (s.world.tile pos).any fun t => State.refreshes s.world t op with
      | true =>
          rw [if_pos rfl]
          have hbeside : AgreesBeside
              ({ s with world := s.world.apply pos op } : State) [pos] := by
            refine h.beside rfl rfl rfl fun p hp => operate_walkable hhere hlone fun heq => hp ?_
            exact List.mem_singleton.2 heq
          exact hbeside.refreshTile.agrees
      | false =>
          rw [if_neg (by decide)]
          cases hloaded : s.monster.isMapLoaded with
          | false =>
              refine ⟨h.position, fun htrue => ?_⟩
              change s.monster.isMapLoaded = true at htrue
              rw [hloaded] at htrue
              exact absurd htrue Bool.false_ne_true
          | true =>
              have hbeside : AgreesBeside
                  ({ s with world := s.world.apply pos op } : State) [] := by
                refine h.beside rfl rfl rfl fun p _ => ?_
                by_cases hp : p = pos
                · rw [hp]
                  exact meets hrefresh hloaded
                · exact operate_walkable hhere hlone hp
              exact hbeside.agrees
  | untold s' =>
      obtain ⟨hposition, hloaded, hcache⟩ := possible
      show Agrees s'
      refine ⟨?_, fun hflag x y hin hmap hhere => ?_⟩
      · rw [hposition]
        exact h.position
      · unfold OnMap at hmap
        rw [hposition] at hmap
        rw [hloaded] at hflag
        rw [meets hflag x y hin hmap hhere, ← h.cells hflag x y hin hmap hhere]
        unfold State.cell
        rw [hcache]

theorem Run.agrees (h : Run Spares s) : Agrees s := by
  induction h with
  | start position unloaded =>
      refine ⟨position, fun htrue => ?_⟩
      rw [unloaded] at htrue
      exact absurd htrue Bool.false_ne_true
  | step event run possible meets ih => exact ih.perform possible meets

/-- Where the cache answers for a position on the monster's floor but its own, the answer is that of
the query, in every run in which no answer changes untold and the steps to the south-east and
south-west mix up no tiles of different answers. -/
theorem walk_cache_agrees (h : Run Spares s) (hloaded : s.monster.isMapLoaded = true)
    (hpos : IsPosition pos) (hfloor : pos.z = s.monster.position.z)
    (hown : pos ≠ s.monster.position) (hcached : s.getWalkCache pos ≠ 2) :
    s.getWalkCache pos = if s.walkable (s.world.tile pos) then 1 else 0 := by
  unfold State.getWalkCache at hcached ⊢
  dsimp only at hcached ⊢
  by_cases huse : (!s.monster.useCacheMap) = true
  · rw [if_pos huse] at hcached
    exact absurd rfl hcached
  rw [if_neg huse, if_neg (not_not.2 hfloor.symm), if_neg hown] at hcached ⊢
  by_cases hin : |getOffsetX pos s.monster.position| ≤ maxWalkCacheWidth ∧
      |getOffsetY pos s.monster.position| ≤ maxWalkCacheHeight
  · rw [if_pos hin]
    have hx : (s.monster.position.x : Int) + getOffsetX pos s.monster.position = pos.x := by
      unfold getOffsetX
      omega
    have hy : (s.monster.position.y : Int) + getOffsetY pos s.monster.position = pos.y := by
      unfold getOffsetY
      omega
    have hcx : IsCoordinate (pos.x : Int) := ⟨by omega, by have := hpos.1; omega⟩
    have hcy : IsCoordinate (pos.y : Int) := ⟨by omega, by have := hpos.2; omega⟩
    have hmap : OnMap s (getOffsetX pos s.monster.position)
        (getOffsetY pos s.monster.position) := by
      unfold OnMap
      rw [hx, hy]
      exact ⟨hcx, hcy⟩
    have hcell := h.agrees.cells hloaded _ _ hin hmap fun hzero => hown ?_
    · rw [answer_eq, hx, hy, uint16_of_isCoordinate hcx, uint16_of_isCoordinate hcy,
        Int.toNat_natCast, Int.toNat_natCast, ← hfloor] at hcell
      unfold State.cell at hcell
      rw [hcell]
    · unfold getOffsetX getOffsetY at hzero
      have hxy : pos.x = s.monster.position.x ∧ pos.y = s.monster.position.y := by omega
      cases hp : s.monster.position
      rw [hp] at hxy hfloor
      cases pos
      simp only [Position.mk.injEq]
      exact ⟨hxy.1, hxy.2, hfloor⟩
  · rw [if_neg hin] at hcached
    exact absurd rfl hcached

/-- The tile to walk to is found as without the cache. -/
theorem Run.canWalkTo_eq (h : Run Spares s) (hloaded : s.monster.isMapLoaded = true)
    (hpos : IsPosition pos) (hfloor : pos.z = s.monster.position.z)
    (hown : pos ≠ s.monster.position) : s.canWalkTo pos =
      if s.walkable (s.world.tile pos) then s.world.tile pos else none := by
  unfold State.canWalkTo
  dsimp only
  by_cases hcached : s.getWalkCache pos = 2
  · rw [hcached, if_neg (by decide), if_neg (by decide), if_neg hown.symm]
  · rw [walk_cache_agrees h hloaded hpos hfloor hown hcached]
    cases s.walkable (s.world.tile pos) <;> rfl

namespace Sample

def grounds : Items where
  type id := { id, group := .ground }
  stackable_isPlain id h := by simp at h
  stackable_down id h := by simp at h
  stackable_createdId id h := by simp at h

/-- A world with ground at three positions, two of them on the way of the monster. -/
def first (next : Position) : State where
  world := { TibServer.Sample.plot grounds with
    tile := fun pos =>
      if pos = ⟨100, 100, 7⟩ ∨ pos = next ∨ pos = ⟨101, 90, 7⟩ then some { ground := some 1 }
      else none }
  occupant _ := {}
  fieldType _ := {}
  monster := { id := 1, position := ⟨100, 100, 7⟩ }

def stepped (next : Position) : State :=
  (first next).onOwnAppear.moveCreature 1 ⟨100, 100, 7⟩ next false

theorem first_appeared {allowed : State → Event → Prop} (next : Position)
    (meets : allowed (first next) .appear) : Run allowed (first next).onOwnAppear :=
  (Run.start (s := first next) ⟨show 100 < 65536 by decide, show 100 < 65536 by decide⟩ rfl).step .appear trivial meets

/-- A step to the east keeps what is known of the north. -/
theorem east_cached : (stepped ⟨101, 100, 7⟩).getWalkCache ⟨101, 90, 7⟩ = 1 := by
  have hrun : Run Spares (stepped ⟨101, 100, 7⟩) :=
    (first_appeared ⟨101, 100, 7⟩ trivial).step
      (.move 1 ⟨100, 100, 7⟩ ⟨101, 100, 7⟩ false) (fun _ => ⟨by decide +kernel, by decide, by decide⟩)
        fun _ _ hsouth => absurd hsouth (by decide)
  have hagrees := @walk_cache_agrees _ ⟨101, 90, 7⟩ hrun (by decide +kernel)
    ⟨by decide, by decide⟩ (by decide +kernel) (by decide +kernel) (by decide +kernel)
  exact hagrees.trans (by decide +kernel)

/-- After a step to the south-east, a tile in the first row is taken for the one beside it. -/
theorem south_east_mistaken : Run (fun _ _ => True) (stepped ⟨101, 101, 7⟩) ∧
    (stepped ⟨101, 101, 7⟩).monster.isMapLoaded = true ∧
    (stepped ⟨101, 101, 7⟩).getWalkCache ⟨101, 90, 7⟩ = 0 ∧
    (stepped ⟨101, 101, 7⟩).walkable
      ((stepped ⟨101, 101, 7⟩).world.tile ⟨101, 90, 7⟩) = true := by
  refine ⟨?_, by decide +kernel, by decide +kernel, by decide +kernel⟩
  exact (first_appeared ⟨101, 101, 7⟩ trivial).step
    (.move 1 ⟨100, 100, 7⟩ ⟨101, 101, 7⟩ false)
      (fun _ => ⟨by decide +kernel, by decide, by decide⟩) trivial

end Sample

end TibServer.WalkCache
