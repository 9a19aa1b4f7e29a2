import Mathlib.Data.Finset.Basic
import TibServer.CreatureMap

/-!
What `Map::getSpectators` answers: the creatures it is given and those that a scan of
all tiles in the window would find, as long as nothing else has been kept in the
caches.
-/

namespace TibServer

/-! ### The leaves under a window -/

namespace SpectatorWindow

/-- The coordinates of the leaves fit into 32 bits. -/
structure Fits (w : SpectatorWindow) : Prop where
  low_x : -2 ^ 31 ≤ w.minX + (w.centerZ - w.maxZ) ∧ w.minX + (w.centerZ - w.maxZ) < 2 ^ 31
  high_x : -2 ^ 31 ≤ w.maxX + (w.centerZ - w.minZ) ∧ w.maxX + (w.centerZ - w.minZ) < 2 ^ 31
  low_y : -2 ^ 31 ≤ w.minY + (w.centerZ - w.maxZ) ∧ w.minY + (w.centerZ - w.maxZ) < 2 ^ 31
  high_y : -2 ^ 31 ≤ w.maxY + (w.centerZ - w.minZ) ∧ w.maxY + (w.centerZ - w.minZ) < 2 ^ 31

variable {w : SpectatorWindow} {pos : Position}

theorem clamp_eq {v : Int} (h : -2 ^ 31 ≤ v ∧ v < 2 ^ 31) :
    clamp v = (min 0xFFFF (max 0 v)).toNat := by
  rw [clamp, Int.bmod_eq_of_le (by omega) (by omega)]

theorem mem_leaves {low high : Int} (hl : -2 ^ 31 ≤ low ∧ low < 2 ^ 31)
    (hh : -2 ^ 31 ≤ high ∧ high < 2 ^ 31) {x : Nat} (small : x < 2 ^ 16) (le : low ≤ x)
    (ge : x ≤ high) : x / FLOOR_SIZE ∈ leaves low high := by
  rw [leaves, clamp_eq hl, clamp_eq hh, List.mem_range'_1]
  have first : (min 0xFFFF (max 0 low)).toNat / FLOOR_SIZE ≤ x / FLOOR_SIZE :=
    Nat.div_le_div_right (by omega)
  have last : x / FLOOR_SIZE ≤ (min 0xFFFF (max 0 high)).toNat / FLOOR_SIZE :=
    Nat.div_le_div_right (by omega)
  omega

theorem contains_iff : w.contains pos = true ↔
    (w.minZ ≤ pos.z ∧ pos.z ≤ w.maxZ) ∧
      (w.minY + (w.centerZ - pos.z) ≤ pos.y ∧ pos.y ≤ w.maxY + (w.centerZ - pos.z)) ∧
      w.minX + (w.centerZ - pos.z) ≤ pos.x ∧ pos.x ≤ w.maxX + (w.centerZ - pos.z) := by
  simp only [contains, Bool.and_eq_true, Bool.not_eq_true', Bool.or_eq_false_iff,
    decide_eq_false_iff_not]
  omega

/-- The leaf of a tile in the window is visited. -/
theorem Fits.visited (h : w.Fits) (inside : w.contains pos = true)
    (hx : pos.x < 2 ^ 16) (hy : pos.y < 2 ^ 16) :
    (CreatureMap.leafAt pos).1 ∈ w.columns ∧ (CreatureMap.leafAt pos).2 ∈ w.rows := by
  obtain ⟨floor, row, column⟩ := contains_iff.mp inside
  exact ⟨mem_leaves h.low_x h.high_x hx (by omega) (by omega),
    mem_leaves h.low_y h.high_y hy (by omega) (by omega)⟩

end SpectatorWindow

namespace CreatureMap

variable {s s' : CreatureMap} {q : SpectatorQuery} {c : CreatureId} {before : Finset CreatureId}

/-! ### The scan of all tiles -/

/-- A creature stands on a tile in the window. -/
def Seen (s : CreatureMap) (q : SpectatorQuery) (c : CreatureId) : Prop :=
  q.centerPos.z < mapLayers ∧
    ∃ pos, c ∈ s.creatures pos ∧ q.window.contains pos = true ∧
      (q.onlyPlayers = true → s.isPlayer c = true)

/-- The tiles, the leaves and the creatures agree on who is where. -/
structure Charted (s : CreatureMap) : Prop where
  tile : ∀ pos c, c ∈ s.creatures pos ↔ s.parent c = some pos ∧ s.removed c = false
  tile_once : ∀ pos, (s.creatures pos).Nodup
  on_tile : ∀ c pos, s.parent c = some pos → s.isTile pos = true
  unplaced : ∀ c, s.parent c = none → s.removed c = false
  leaf : ∀ at_ c, c ∈ (s.leaf at_).creatureList ↔
    ∃ pos, s.parent c = some pos ∧ s.removed c = false ∧ leafAt pos = at_
  leaf_once : ∀ at_, (s.leaf at_).creatureList.Nodup
  players : ∀ at_ c, c ∈ (s.leaf at_).playerList ↔
    c ∈ (s.leaf at_).creatureList ∧ s.isPlayer c = true
  players_once : ∀ at_, (s.leaf at_).playerList.Nodup

/-! ### The search finds what the scan finds -/

/-- A fold that adds to a set adds what its steps add. -/
theorem mem_foldl {α : Type} {f : Finset CreatureId → α → Finset CreatureId} {P : α → Prop}
    (h : ∀ found a, c ∈ f found a ↔ c ∈ found ∨ P a) (l : List α) (found : Finset CreatureId) :
    c ∈ l.foldl f found ↔ c ∈ found ∨ ∃ a ∈ l, P a := by
  induction l generalizing found with
  | nil => simp
  | cons a l ih =>
      rw [List.foldl_cons, ih, h]
      simp only [List.mem_cons, exists_eq_or_imp, or_assoc]

theorem mem_scanLeaf (w : SpectatorWindow) (onlyPlayers : Bool) (at_ : Nat × Nat) :
    c ∈ s.scanLeaf w onlyPlayers before at_ ↔ c ∈ before ∨
      c ∈ (if onlyPlayers then (s.leaf at_).playerList else (s.leaf at_).creatureList) ∧
        s.seesCreature w c = true := by
  unfold scanLeaf
  rw [mem_foldl (P := fun a => a = c ∧ s.seesCreature w a = true)]
  · simp
  · intro found a
    split
    · next seen => simp [seen, or_comm, eq_comm]
    · next unseen => simp [unseen]

theorem mem_getSpectatorsInternal (w : SpectatorWindow) (onlyPlayers : Bool) :
    c ∈ s.getSpectatorsInternal before w onlyPlayers ↔ c ∈ before ∨
      ∃ ny ∈ w.rows, ∃ nx ∈ w.columns,
        c ∈ (if onlyPlayers then (s.leaf (nx, ny)).playerList
          else (s.leaf (nx, ny)).creatureList) ∧ s.seesCreature w c = true := by
  unfold getSpectatorsInternal
  refine mem_foldl (fun found ny => ?_) _ _
  exact mem_foldl (fun found nx => mem_scanLeaf w onlyPlayers (nx, ny)) _ _

/-- The search through the leaves finds the creatures of the tiles. -/
theorem Charted.mem_internal (h : s.Charted) (valid : q.centerPos.z < mapLayers)
    (fits : q.window.Fits) :
    c ∈ s.getSpectatorsInternal before q.window q.onlyPlayers ↔ c ∈ before ∨ s.Seen q c := by
  rw [mem_getSpectatorsInternal]
  refine or_congr_right ⟨?_, ?_⟩
  · rintro ⟨ny, -, nx, -, listed, seen⟩
    have member : c ∈ (s.leaf (nx, ny)).creatureList ∧
        (q.onlyPlayers = true → s.isPlayer c = true) := by
      split at listed
      · next only =>
          obtain ⟨member, player⟩ := (h.players _ _).mp listed
          exact ⟨member, fun _ => player⟩
      · next all => exact ⟨listed, fun only => absurd only all⟩
    obtain ⟨pos, hp, alive, -⟩ := (h.leaf _ _).mp member.1
    rw [seesCreature, hp] at seen
    exact ⟨valid, pos, (h.tile _ _).mpr ⟨hp, alive⟩, seen, member.2⟩
  · rintro ⟨-, pos, member, inside, only⟩
    obtain ⟨hp, alive⟩ := (h.tile _ _).mp member
    obtain ⟨hx, hy, -⟩ := s.isTile_bounds pos (h.on_tile c pos hp)
    obtain ⟨column, row⟩ := fits.visited inside hx hy
    have listed : c ∈ (s.leaf (leafAt pos)).creatureList :=
      (h.leaf _ _).mpr ⟨pos, hp, alive, rfl⟩
    refine ⟨_, row, _, column, ?_, ?_⟩
    · split
      · next all => exact (h.players _ _).mpr ⟨listed, only all⟩
      · exact listed
    · rw [seesCreature, hp]
      exact inside

/-! ### The caches -/

/-- What the caches hold is what would be found. -/
structure Sound (s : CreatureMap) : Prop where
  all : ∀ pos kept, s.spectatorCache pos = some kept →
    ∀ c, c ∈ kept ↔ s.Seen { centerPos := pos, multifloor := true } c
  players : ∀ pos kept, s.playersSpectatorCache pos = some kept →
    ∀ c, c ∈ kept ↔ s.Seen { centerPos := pos, multifloor := true, onlyPlayers := true } c

/-- The cached window is the one around the centre, whatever ranges name it. -/
theorem cached_window (h : q.cached = true) (onlyPlayers : Bool) :
    q.window = ({ centerPos := q.centerPos, multifloor := true, onlyPlayers } : SpectatorQuery).window := by
  simp only [SpectatorQuery.cached, Bool.and_eq_true, decide_eq_true_eq] at h
  obtain ⟨⟨lowX, highX, lowY, highY⟩, multifloor⟩ := h
  simp only [SpectatorQuery.window, SpectatorQuery.floors, lowX, highX, lowY, highY, multifloor]
  rfl

theorem cached_seen (h : q.cached = true) : s.Seen q c ↔
    s.Seen { centerPos := q.centerPos, multifloor := true, onlyPlayers := q.onlyPlayers } c := by
  rw [Seen, cached_window h q.onlyPlayers]
  rfl

/-- Of all that are seen, the players. -/
theorem seen_players_iff (pos : Position) :
    s.Seen { centerPos := pos, multifloor := true, onlyPlayers := true } c ↔
      s.Seen { centerPos := pos, multifloor := true } c ∧ s.isPlayer c = true := by
  constructor
  · rintro ⟨valid, p, member, inside, only⟩
    exact ⟨⟨valid, p, member, inside, nofun⟩, only rfl⟩
  · rintro ⟨⟨valid, p, member, inside, -⟩, player⟩
    exact ⟨valid, p, member, inside, fun _ => player⟩

theorem floors_bounds (valid : q.centerPos.z < mapLayers) :
    0 ≤ q.floors.1 ∧ q.floors.1 ≤ q.floors.2 ∧ q.floors.2 < mapLayers := by
  simp only [mapLayers] at valid
  simp only [SpectatorQuery.floors, mapLayers]
  split_ifs <;> refine ⟨?_, ?_, ?_⟩ <;> simp only <;> omega

theorem cached_fits (h : q.cached = true) (valid : q.centerPos.z < mapLayers)
    (bounds : q.centerPos.x < 2 ^ 16 ∧ q.centerPos.y < 2 ^ 16) : q.window.Fits := by
  obtain ⟨low, ordered, high⟩ := floors_bounds valid
  simp only [SpectatorQuery.cached, Bool.and_eq_true, decide_eq_true_eq] at h
  obtain ⟨⟨lowX, highX, lowY, highY⟩, -⟩ := h
  simp only [mapLayers, maxViewportX, maxViewportY] at *
  constructor <;>
    simp only [SpectatorQuery.window, lowX, highX, lowY, highY] <;> omega

theorem Sound.lookup (h : s.Sound) {kept : Finset CreatureId} (hk : s.lookup q = some kept) :
    c ∈ kept ↔ s.Seen q c := by
  unfold CreatureMap.lookup at hk
  split at hk
  · next cached =>
      rw [cached_seen cached]
      cases only : q.onlyPlayers with
      | false =>
          simp only [only, Bool.false_eq_true, if_false, Option.map_eq_some_iff] at hk
          obtain ⟨all, hall, rfl⟩ := hk
          exact h.all _ _ hall c
      | true =>
          simp only [only, if_true] at hk
          split at hk
          · next players hp =>
              obtain rfl := Option.some.inj hk
              exact h.players _ _ hp c
          · obtain ⟨all, hall, rfl⟩ := Option.map_eq_some_iff.mp hk
            rw [Finset.mem_filter, h.all _ _ hall c, seen_players_iff]
  · cases hk

/-- A query is answered with what it was given and what a scan would find. -/
theorem Charted.mem_getSpectators (h : s.Charted) (sound : s.Sound) (fits : q.window.Fits) :
    c ∈ (s.getSpectators before q).1 ↔ c ∈ before ∨ s.Seen q c := by
  unfold getSpectators
  split
  · next invalid => simp [Seen, not_lt.mpr invalid]
  · next valid =>
      split
      · next kept hk => rw [Finset.mem_union, sound.lookup hk]
      · exact h.mem_internal (not_le.mp valid) fits

/-! ### What a query leaves in the caches -/

/-- A query writes its answer into a cache. -/
def Fills (s : CreatureMap) (q : SpectatorQuery) : Prop :=
  q.centerPos.z < mapLayers ∧ q.cached = true ∧ s.lookup q = none

/-- Nothing but the caches differs. -/
structure Recached (s s' : CreatureMap) : Prop where
  isPlayer : s'.isPlayer = s.isPlayer
  isTile : s'.isTile = s.isTile
  creatures : s'.creatures = s.creatures
  parent : s'.parent = s.parent
  removed : s'.removed = s.removed
  leaf : s'.leaf = s.leaf

theorem Recached.refl (s : CreatureMap) : Recached s s := ⟨rfl, rfl, rfl, rfl, rfl, rfl⟩

theorem Recached.trans {s'' : CreatureMap} (h : Recached s s') (h' : Recached s' s'') :
    Recached s s'' :=
  ⟨h'.isPlayer.trans h.isPlayer, h'.isTile.trans h.isTile, h'.creatures.trans h.creatures,
    h'.parent.trans h.parent, h'.removed.trans h.removed, h'.leaf.trans h.leaf⟩

theorem Recached.seen (h : Recached s s') : s'.Seen q c ↔ s.Seen q c := by
  rw [Seen, Seen, h.creatures, h.isPlayer]

theorem Recached.charted (h : Recached s s') (hs : s.Charted) : s'.Charted where
  tile pos c := by rw [h.creatures, h.parent, h.removed]; exact hs.tile pos c
  tile_once pos := by rw [h.creatures]; exact hs.tile_once pos
  on_tile c pos := by rw [h.parent, h.isTile]; exact hs.on_tile c pos
  unplaced c := by rw [h.parent, h.removed]; exact hs.unplaced c
  leaf at_ c := by rw [h.leaf, h.parent, h.removed]; exact hs.leaf at_ c
  leaf_once at_ := by rw [h.leaf]; exact hs.leaf_once at_
  players at_ c := by rw [h.leaf, h.isPlayer]; exact hs.players at_ c
  players_once at_ := by rw [h.leaf]; exact hs.players_once at_

theorem keep_recached (s : CreatureMap) (q : SpectatorQuery) (found : Finset CreatureId) :
    Recached s (s.keep q found) := by
  unfold keep
  split_ifs <;> exact ⟨rfl, rfl, rfl, rfl, rfl, rfl⟩

theorem getSpectators_recached (s : CreatureMap) (before : Finset CreatureId) (q : SpectatorQuery) :
    Recached s (s.getSpectators before q).2 := by
  unfold getSpectators
  split
  · exact .refl s
  · split
    · exact .refl s
    · exact keep_recached s q _

theorem clearSpectatorCache_recached (s : CreatureMap) : Recached s s.clearSpectatorCache :=
  ⟨rfl, rfl, rfl, rfl, rfl, rfl⟩

theorem clearSpectatorCache_sound (s : CreatureMap) : s.clearSpectatorCache.Sound :=
  ⟨nofun, nofun⟩

/-- Keeping the right answer does no harm. -/
theorem Sound.keep (h : s.Sound) {found : Finset CreatureId}
    (right : q.cached = true → ∀ c, c ∈ found ↔ s.Seen q c) : (s.keep q found).Sound := by
  have same := keep_recached s q found
  constructor
  · intro pos kept hk c
    rw [same.seen]
    unfold CreatureMap.keep at hk
    split at hk
    · next cached =>
        split at hk
        · exact h.all pos kept hk c
        · next all =>
            simp only [Function.update_apply] at hk
            split at hk
            · next here =>
                subst here
                obtain rfl := Option.some.inj hk
                rw [right cached, cached_seen cached, Bool.eq_false_iff.mpr all]
            · exact h.all pos kept hk c
    · exact h.all pos kept hk c
  · intro pos kept hk c
    rw [same.seen]
    unfold CreatureMap.keep at hk
    split at hk
    · next cached =>
        split at hk
        · next players =>
            simp only [Function.update_apply] at hk
            split at hk
            · next here =>
                subst here
                obtain rfl := Option.some.inj hk
                rw [right cached, cached_seen cached, players]
            · exact h.players pos kept hk c
        · exact h.players pos kept hk c
    · exact h.players pos kept hk c

/-- A query that fills a cache leaves it right when what it was given would be found
anyway. -/
theorem Charted.sound_getSpectators (h : s.Charted) (sound : s.Sound)
    (bounds : q.centerPos.x < 2 ^ 16 ∧ q.centerPos.y < 2 ^ 16)
    (pure_ : s.Fills q → ∀ c ∈ before, s.Seen q c) : (s.getSpectators before q).2.Sound := by
  unfold getSpectators
  split
  · exact sound
  · next valid =>
      split
      · exact sound
      · next missed =>
          refine sound.keep fun cached c => ?_
          have valid := not_le.mp valid
          rw [h.mem_internal valid (cached_fits cached valid bounds)]
          exact or_iff_right_of_imp (pure_ ⟨valid, cached, missed⟩ c)

/-! ### Creatures that come and go -/

/-- A creature is put on a tile, and into the leaf around it. -/
theorem Charted.placed (h : s.Charted) {dest : Position} (new : s.parent c = none)
    (there : s.isTile dest = true) :
    ((s.addThing dest c).addCreature (leafAt dest) c).Charted := by
  have alive := h.unplaced c new
  have nowhere (pos : Position) : c ∉ s.creatures pos := by
    rw [h.tile, new]
    simp
  have unlisted (at_ : Nat × Nat) : c ∉ (s.leaf at_).creatureList := by
    rw [h.leaf, new]
    simp
  have unlisted' (at_ : Nat × Nat) : c ∉ (s.leaf at_).playerList := by
    rw [h.players]
    exact fun listed => unlisted at_ listed.1
  constructor <;> simp only [addCreature, addThing, clearSpectatorCache, Function.update_apply]
  · intro pos x
    have old := h.tile pos x
    grind
  · intro pos
    have old := h.tile_once pos
    grind
  · intro x pos
    have old := h.on_tile x pos
    grind
  · intro x
    have old := h.unplaced x
    grind
  · intro at_ x
    have old := h.leaf at_ x
    grind
  · intro at_
    have old := h.leaf_once at_
    grind
  · intro at_ x
    have old := h.players at_ x
    grind
  · intro at_
    have old := h.players_once at_
    grind

/-- Taken from its tile, put on another, and from leaf to leaf if they differ. -/
def relocate (s : CreatureMap) (oldPos newPos : Position) (c : CreatureId) : CreatureMap :=
  let s := s.removeThing oldPos c
  (if leafAt oldPos ≠ leafAt newPos then
    (s.leafRemoveCreature (leafAt oldPos) c).addCreature (leafAt newPos) c
  else s).addThing newPos c

theorem relocate_eq {oldPos newPos : Position} (onTile : c ∈ s.creatures oldPos) :
    s.relocate oldPos newPos c =
      { s with
        parent := Function.update s.parent c (some newPos)
        creatures := Function.update
          (Function.update s.creatures oldPos ((s.creatures oldPos).erase c)) newPos
          (c :: Function.update s.creatures oldPos ((s.creatures oldPos).erase c) newPos)
        leaf :=
          if leafAt oldPos ≠ leafAt newPos then
            ((s.leafRemoveCreature (leafAt oldPos) c).addCreature (leafAt newPos) c).leaf
          else s.leaf
        spectatorCache := fun _ => none
        playersSpectatorCache := fun _ => none } := by
  simp only [relocate, removeThing, onTile, if_true]
  split <;> rfl

theorem Charted.relocated (h : s.Charted) {oldPos newPos : Position}
    (old : s.parent c = some oldPos) (alive : s.removed c = false)
    (there : s.isTile newPos = true) : (s.relocate oldPos newPos c).Charted := by
  have onTile : c ∈ s.creatures oldPos := (h.tile _ _).mpr ⟨old, alive⟩
  have inLeaf : c ∈ (s.leaf (leafAt oldPos)).creatureList :=
    (h.leaf _ _).mpr ⟨oldPos, old, alive, rfl⟩
  have erased (pos : Position) (x : CreatureId) := (h.tile_once pos).mem_erase_iff (a := x) (b := c)
  have unlisted (x : CreatureId) :=
    (h.leaf_once (leafAt oldPos)).mem_erase_iff (a := x) (b := c)
  have unlisted' (x : CreatureId) :=
    (h.players_once (leafAt oldPos)).mem_erase_iff (a := x) (b := c)
  rw [relocate_eq onTile]
  constructor <;> simp only [addCreature, leafRemoveCreature, Function.update_apply]
  · intro pos x
    have tile := h.tile pos x
    grind
  · intro pos
    have once := h.tile_once pos
    have once' := (h.tile_once pos).erase c
    have tile := h.tile pos c
    grind
  · intro x pos
    have on_tile := h.on_tile x pos
    grind
  · intro x
    have unplaced := h.unplaced x
    grind
  · intro at_ x
    have leaf := h.leaf at_ x
    split <;> grind
  · intro at_
    have once := h.leaf_once at_
    have leaf := h.leaf at_ c
    have once' := (h.leaf_once (leafAt oldPos)).erase c
    split <;> grind
  · intro at_ x
    have players := h.players at_ x
    split <;> grind
  · intro at_
    have once := h.players_once at_
    have players := h.players at_ c
    have leaf := h.leaf at_ c
    have once' := (h.players_once (leafAt oldPos)).erase c
    split <;> grind

/-- Taken from its leaf and from its tile for good. -/
def withdraw (s : CreatureMap) (pos : Position) (c : CreatureId) : CreatureMap :=
  let s := (s.leafRemoveCreature (leafAt pos) c).removeThing pos c
  { s with removed := Function.update s.removed c true }

theorem Charted.withdrawn (h : s.Charted) {pos : Position} (old : s.parent c = some pos)
    (alive : s.removed c = false) : (s.withdraw pos c).Charted := by
  have onTile : c ∈ s.creatures pos := (h.tile _ _).mpr ⟨old, alive⟩
  have erased (p : Position) (x : CreatureId) := (h.tile_once p).mem_erase_iff (a := x) (b := c)
  have unlisted (x : CreatureId) := (h.leaf_once (leafAt pos)).mem_erase_iff (a := x) (b := c)
  have unlisted' (x : CreatureId) :=
    (h.players_once (leafAt pos)).mem_erase_iff (a := x) (b := c)
  have member : c ∈ (s.leafRemoveCreature (leafAt pos) c).creatures pos := onTile
  simp only [withdraw, removeThing, member, if_true]
  constructor <;> simp only [leafRemoveCreature, clearSpectatorCache, Function.update_apply]
  · intro p x
    have tile := h.tile p x
    grind
  · intro p
    have once := h.tile_once p
    have once' := (h.tile_once p).erase c
    grind
  · exact h.on_tile
  · intro x
    have unplaced := h.unplaced x
    grind
  · intro at_ x
    have leaf := h.leaf at_ x
    grind
  · intro at_
    have once := h.leaf_once at_
    have once' := (h.leaf_once (leafAt pos)).erase c
    grind
  · intro at_ x
    have players := h.players at_ x
    grind
  · intro at_
    have once := h.players_once at_
    have once' := (h.players_once (leafAt pos)).erase c
    grind

/-! ### Steps and runs -/

theorem sound_of_empty (all : s.spectatorCache = fun _ => none)
    (players : s.playersSpectatorCache = fun _ => none) : s.Sound :=
  ⟨fun pos kept hk => by simp [all] at hk, fun pos kept hk => by simp [players] at hk⟩

/-- A query that would fill a cache is given creatures that it would find itself. -/
def Keeps (s : CreatureMap) : Event → Prop
  | .spectators before q _ => s.Fills q → ∀ c ∈ before, s.Seen q c
  | _ => True

theorem Charted.placeCreature (h : s.Charted) (sound : s.Sound) (dest : Position) :
    (s.placeCreature c dest).Charted ∧ (s.placeCreature c dest).Sound := by
  unfold CreatureMap.placeCreature
  split
  · next new => exact ⟨h.placed new.1 new.2, sound_of_empty rfl rfl⟩
  · exact ⟨h, sound⟩

theorem Charted.moveCreature (h : s.Charted) (sound : s.Sound) (newPos : Position) :
    (s.moveCreature c newPos).Charted ∧ (s.moveCreature c newPos).Sound := by
  unfold CreatureMap.moveCreature
  split
  · exact ⟨h, sound⟩
  · next oldPos old =>
      split
      · exact ⟨h, sound⟩
      · next allowed =>
          simp only [not_or, Bool.not_eq_true, Bool.not_eq_false] at allowed
          obtain ⟨alive, there⟩ := allowed
          -- the two searches write caches that are cleared before anyone reads them
          have recached := (getSpectators_recached s ∅
            { centerPos := oldPos, multifloor := true }).trans (getSpectators_recached _
              (s.getSpectators ∅ { centerPos := oldPos, multifloor := true }).1
              { centerPos := newPos, multifloor := true })
          simp only
          generalize (CreatureMap.getSpectators _ _ { centerPos := newPos, multifloor := true }).2 = s'
            at recached ⊢
          have charted := recached.charted h
          rw [← recached.parent] at old
          rw [← recached.removed] at alive
          rw [← recached.isTile] at there
          change (s'.relocate oldPos newPos c).Charted ∧ (s'.relocate oldPos newPos c).Sound
          refine ⟨charted.relocated old alive there, ?_⟩
          rw [relocate_eq ((charted.tile _ _).mpr ⟨old, alive⟩)]
          exact sound_of_empty rfl rfl

theorem Charted.removeCreature (h : s.Charted) (sound : s.Sound) :
    (s.removeCreature c).Charted ∧ (s.removeCreature c).Sound := by
  unfold CreatureMap.removeCreature
  split
  · exact ⟨h, sound⟩
  · next pos old =>
      split
      · exact ⟨h, sound⟩
      · next alive =>
          have recached := getSpectators_recached s ∅ { centerPos := pos, multifloor := true }
          simp only
          generalize (s.getSpectators ∅ { centerPos := pos, multifloor := true }).2 = s'
            at recached ⊢
          have charted := recached.charted h
          rw [← recached.parent] at old
          rw [Bool.not_eq_true, ← recached.removed] at alive
          change (s'.withdraw pos c).Charted ∧ (s'.withdraw pos c).Sound
          refine ⟨charted.withdrawn old alive, ?_⟩
          have onTile : c ∈ (s'.leafRemoveCreature (leafAt pos) c).creatures pos :=
            (charted.tile _ _).mpr ⟨old, alive⟩
          simp only [withdraw, removeThing, onTile, if_true]
          exact sound_of_empty rfl rfl

theorem Charted.step (h : s.Charted) (sound : s.Sound) (e : Event) (keeps : s.Keeps e) :
    (s.step e).Charted ∧ (s.step e).Sound := by
  cases e with
  | place c dest => exact h.placeCreature sound dest
  | move c newPos => exact h.moveCreature sound newPos
  | remove c => exact h.removeCreature sound
  | spectators before q bounds =>
      exact ⟨(getSpectators_recached s before q).charted h,
        h.sound_getSpectators sound bounds keeps⟩
  | endTask =>
      exact ⟨(clearSpectatorCache_recached s).charted h, clearSpectatorCache_sound s⟩

/-- The runs from an empty map in which every query keeps its answer pure. -/
inductive Run : CreatureMap → Prop
  | start (isPlayer : CreatureId → Bool) (isTile : Position → Bool)
      (bounds : ∀ pos, isTile pos = true → pos.x < 2 ^ 16 ∧ pos.y < 2 ^ 16 ∧ pos.z < mapLayers) :
      Run { isPlayer, isTile, isTile_bounds := bounds }
  | step {s : CreatureMap} (e : Event) (before : Run s) (keeps : s.Keeps e) : Run (s.step e)

theorem Run.sound (h : Run s) : s.Charted ∧ s.Sound := by
  induction h with
  | start isPlayer isTile bounds =>
      refine ⟨?_, sound_of_empty rfl rfl⟩
      constructor <;> simp
  | step e before keeps ih => exact ih.1.step ih.2 e keeps

/-- In every such run a search, cached or not, unites what it is given with what a
scan of the tiles in its window would find. -/
theorem Run.getSpectators_eq (h : Run s) (before : Finset CreatureId) (q : SpectatorQuery)
    (fits : q.window.Fits) (c : CreatureId) :
    c ∈ (s.getSpectators before q).1 ↔ c ∈ before ∨ s.Seen q c :=
  h.sound.1.mem_getSpectators h.sound.2 fits

end CreatureMap

namespace Sample

/-! ### A creature far away -/

def lawn : Position := { x := 100, y := 100, z := 7 }
def hill : Position := { x := 500, y := 500, z := 7 }

/-- Two tiles far apart. -/
def meadow : CreatureMap where
  isPlayer _ := true
  isTile pos := decide (pos = lawn ∨ pos = hill)
  isTile_bounds pos h := by
    rcases of_decide_eq_true h with rfl | rfl <;> decide

def peopled : CreatureMap := (meadow.step (.place 1 lawn)).step (.place 2 hill)

theorem peopled_run : peopled.Run :=
  .step (.place 2 hill) (.step (.place 1 lawn) (.start _ _ _) trivial) trivial

/-- Two searches that gather creatures in one set. -/
def gathered : CreatureMap :=
  let first := peopled.getSpectators ∅ { centerPos := lawn, multifloor := true }
  first.2.step (.spectators first.1 { centerPos := hill, multifloor := true } (by decide))

/-- The next search on the hill finds the creature on the lawn. -/
theorem stale_spectator :
    1 ∈ (gathered.getSpectators ∅ { centerPos := hill, multifloor := true }).1 ∧
      ¬ gathered.Seen { centerPos := hill, multifloor := true } 1 := by
  refine ⟨by decide, ?_⟩
  rintro ⟨-, pos, member, inside, -⟩
  have charted : gathered.Charted :=
    (CreatureMap.getSpectators_recached _ _ _).charted
      ((CreatureMap.getSpectators_recached _ _ _).charted peopled_run.sound.1)
  have here : gathered.parent 1 = some lawn := by decide
  obtain rfl := Option.some.inj (here.symm.trans ((charted.tile _ _).mp member).1)
  revert inside
  decide

theorem peopled_spectators :
    2 ∈ (peopled.getSpectators {1} { centerPos := hill, multifloor := true }).1 ↔
      2 ∈ ({1} : Finset CreatureId) ∨ peopled.Seen { centerPos := hill, multifloor := true } 2 :=
  peopled_run.getSpectators_eq {1} { centerPos := hill, multifloor := true }
    (CreatureMap.cached_fits (by decide) (by decide) (by decide)) 2

end Sample

end TibServer
