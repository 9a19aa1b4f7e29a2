import TibServer.Answers

/-!
The exchange. The item of the destination is taken out and put to the front of
the source, through an `addThing` that a player leaves empty, that a container
without room ignores, and in which a tile may have one thing replace another.
What goes out of the world there is named; everything else is kept.
-/

namespace TibServer

namespace World

variable {w w' : World}

/-! ### Objects and their types -/

/-- Objects are what their types say, and lie where their types belong. -/
structure Typed (w : World) : Prop where
  field : ∀ o, (w.item o).getMagicField = true → w.isStackable o = false
  ground : ∀ {pos t o}, w.tile pos = some t → t.ground = some o →
    (w.typeOf o).isGroundTile = true
  top : ∀ {pos t o}, w.tile pos = some t → o ∈ t.topItems → w.isAlwaysOnTop o = true
  down : ∀ {pos t o}, w.tile pos = some t → o ∈ t.downItems → w.isAlwaysOnTop o = false
  notGround : ∀ {pos t o}, w.tile pos = some t → o ∈ t.itemList →
    (w.typeOf o).isGroundTile = false

theorem isStackable_of_ground {i : ItemRef} (h : (w.typeOf i).isGroundTile = true) :
    w.isStackable i = false := by
  rw [Bool.eq_false_iff]
  intro hs
  have plain := w.items.stackable_isPlain _ hs
  simp only [ItemType.isPlain, Bool.and_eq_true, beq_iff_eq] at plain
  simp only [typeOf] at h
  simp [ItemType.isGroundTile, plain.1] at h

theorem isStackable_of_splash {i : ItemRef} (h : (w.typeOf i).isSplash = true) :
    w.isStackable i = false := by
  rw [Bool.eq_false_iff]
  intro hs
  have plain := w.items.stackable_isPlain _ hs
  simp only [ItemType.isPlain, Bool.and_eq_true, beq_iff_eq] at plain
  simp only [typeOf] at h
  simp [ItemType.isSplash, plain.1] at h

theorem getMagicField_of_shell {i j : Item} (shell : i.cls.shell = j.cls.shell) :
    i.getMagicField = j.getMagicField := by
  unfold Item.getMagicField
  cases hc : j.cls <;> cases hc' : i.cls <;>
    simp only [hc, hc', ItemClass.shell, reduceCtorEq] at shell <;> rfl

theorem getMagicField_of_stack {i : ItemRef} (h : (w'.item i).stack = (w.item i).stack) :
    (w'.item i).getMagicField = (w.item i).getMagicField :=
  getMagicField_of_shell (Item.shell_of_stack h)

/-- Where no type and no tile changes, items are still what their types say. -/
theorem Typed.congr (ht : Typed w) (items : w'.items = w.items)
    (id : ∀ o, (w'.item o).id = (w.item o).id)
    (cls : ∀ o, (w'.item o).getMagicField = (w.item o).getMagicField)
    (tile : ∀ pos, (w'.tile pos).map Tile.bare = (w.tile pos).map Tile.bare) : Typed w' where
  field o ho := by
    rw [cls] at ho
    rw [isStackable_of_id items (id o)]
    exact ht.field o ho
  ground {pos t' o} htile ho := by
    obtain ⟨t, ht', bare⟩ := bare_of_tile tile htile
    rw [typeOf_of_id items (id o)]
    exact ht.ground ht' ((congrArg Tile.ground bare :) ▸ ho : t.ground = some o)
  top {pos t' o} htile ho := by
    obtain ⟨t, ht', bare⟩ := bare_of_tile tile htile
    rw [isAlwaysOnTop_of_id items (id o)]
    exact ht.top ht' ((congrArg Tile.topItems bare :) ▸ ho : o ∈ t.topItems)
  down {pos t' o} htile ho := by
    obtain ⟨t, ht', bare⟩ := bare_of_tile tile htile
    rw [isAlwaysOnTop_of_id items (id o)]
    exact ht.down ht' ((congrArg Tile.downItems bare :) ▸ ho : o ∈ t.downItems)
  notGround {pos t' o} htile ho := by
    obtain ⟨t, ht', bare⟩ := bare_of_tile tile htile
    rw [typeOf_of_id items (id o)]
    exact ht.notGround ht' ((congrArg Tile.itemList bare :) ▸ ho : o ∈ t.itemList)

/-! ### What goes out of the world -/

/-- What lies on a tile where an item goes, the item itself apart. -/
def standsFor (w : World) (t : Tile) (i : ItemRef) : Option ItemRef :=
  let it := w.typeOf i
  if it.isGroundTile then t.ground
  else if it.alwaysOnTop then
    if it.isSplash then t.topItems.find? fun o => o != i && (w.typeOf o).isSplash else none
  else if it.isMagicField then
    t.downItems.find? fun o => o != i && (w.item o).getMagicField
  else none

/-- What is gone when an item is added to a cylinder: the item itself where nothing
takes it in, or what it replaces. -/
def displaced (w : World) (c : Cylinder) (index : Int) (i : ItemRef) : Option ItemRef :=
  if w.refuses c index then some i
  else
    match c with
    | .player p => w.getInventoryItem p index
    | .container _ => none
    | .tile pos =>
        (w.tile pos).bind fun t =>
          if t.itemList.length ≥ 0xFFFF then some i
          else
            (w.standsFor t i).map fun o =>
              if (w.typeOf i).isMagicField && !(w.typeOf i).isGroundTile &&
                !(w.typeOf i).alwaysOnTop && !(w.typeOf o).replaceable then i else o

/-- The same for `addThing(Thing*)`, which does nothing in a player. -/
def displacedFront (w : World) (c : Cylinder) (i : ItemRef) : Option ItemRef :=
  match c with
  | .player _ => some i
  | _ => w.displaced c 0 i

theorem standsFor_eq {t : Tile} {i : ItemRef} (hi : i ∉ t.itemList) :
    w.standsFor t i = w.replacedItem t i := by
  have apart : ∀ {l : List ItemRef} (p : ItemRef → Bool), i ∉ l →
      l.find? (fun o => o != i && p o) = l.find? p := by
    intro l p hl
    induction l with
    | nil => rfl
    | cons o l ih =>
        have ne : (o != i) = true := bne_iff_ne.mpr fun e => hl (e ▸ List.mem_cons_self)
        have rest := ih fun h => hl (List.mem_cons_of_mem _ h)
        rw [List.find?_cons, List.find?_cons, rest, ne, Bool.true_and]
  have down : i ∉ t.downItems := fun h => hi (List.mem_of_mem_take h)
  have top : i ∉ t.topItems := fun h => hi (List.mem_of_mem_drop h)
  simp only [standsFor, replacedItem, apart _ down, apart _ top]

/-- What stands in an item's place is no stack. -/
theorem standsFor_single {pos : Position} {t : Tile} {i o : ItemRef} (ht : Typed w)
    (htile : w.tile pos = some t) (h : w.standsFor t i = some o) : w.isStackable o = false := by
  simp only [standsFor] at h
  split at h
  · exact isStackable_of_ground (ht.ground htile h)
  · split at h
    · split at h
      · have type := List.find?_some h
        rw [Bool.and_eq_true] at type
        exact isStackable_of_splash type.2
      · simp at h
    · split at h
      · have cls := List.find?_some h
        rw [Bool.and_eq_true] at cls
        exact ht.field o cls.2
      · simp at h

theorem standsFor_mem {t : Tile} {i o : ItemRef} (h : w.standsFor t i = some o) :
    t.ground = some o ∨ o ∈ t.itemList := by
  simp only [standsFor] at h
  split at h
  · exact .inl h
  · split at h
    · split at h
      · exact .inr (List.mem_of_mem_drop (List.mem_of_find?_eq_some h))
      · simp at h
    · split at h
      · exact .inr (List.mem_of_mem_take (List.mem_of_find?_eq_some h))
      · simp at h

/-- What goes in front of an item is the item itself, or no stack that lay there. -/
theorem displacedFront_cases {c : Cylinder} {i x : ItemRef} (ht : Typed w)
    (h : w.displacedFront c i = some x) :
    x = i ∨ (w.isStackable x = false ∧ x ∈ w.things c) := by
  cases c with
  | player p => exact .inl (Option.some.inj h).symm
  | container c =>
      simp only [displacedFront, displaced] at h
      split at h
      · exact .inl (Option.some.inj h).symm
      · simp at h
  | tile pos =>
      simp only [displacedFront, displaced] at h
      split at h
      · exact .inl (Option.some.inj h).symm
      · obtain ⟨t, htile, h⟩ := Option.bind_eq_some_iff.mp h
        split at h
        · exact .inl (Option.some.inj h).symm
        · obtain ⟨y, hy, e⟩ := Option.map_eq_some_iff.mp h
          split at e
          · exact .inl e.symm
          · subst e
            refine .inr ⟨standsFor_single ht htile hy, ?_⟩
            simp only [things, htile, List.mem_append, Option.mem_toList]
            exact standsFor_mem hy

/-! ### Adding an item -/

/-- What `addThing` does with an item that lay nowhere, where `x` goes. -/
structure Placed (w w' : World) (c : Cylinder) (i : ItemRef) (x : Option ItemRef) : Prop where
  items : w'.items = w.items
  next : w'.next = w.next
  stack : ∀ o, (w'.item o).stack = (w.item o).stack
  wellFormed : WellFormed w'
  found : ∀ {q o}, x ≠ some o → w.Found q o → w'.Found q o
  tiles : ∀ pos, (w'.tile pos).isSome = (w.tile pos).isSome
  ground : ∀ {pos t'}, w'.tile pos = some t' → ∃ t, w.tile pos = some t ∧
    (t'.ground = t.ground ∨ t'.ground = some i ∧ (w.typeOf i).isGroundTile = true)
  total : ∀ {S : Finset Cylinder}, (x ≠ some i → c ∈ S) → ∀ id,
    w'.total S id + (x.elim 0 (w.units id)) = w.total S id + w.units id i
  gone : ∀ {o}, x = some o → ∀ q, o ∉ w'.things q
  arrived : x ≠ some i → i ∈ w'.things c

section Placing

variable {c : Cylinder} {i : ItemRef}

theorem Kept.bare (h : Kept w w') {pos : Position} {t' : Tile} (ht : w'.tile pos = some t') :
    ∃ t, w.tile pos = some t ∧ t'.bare = t.bare := bare_of_tile h.tile ht

theorem Kept.ground (h : Kept w w') {pos : Position} {t' : Tile} (ht : w'.tile pos = some t') :
    ∃ t, w.tile pos = some t ∧ t'.ground = t.ground := by
  obtain ⟨t, ht', bare⟩ := h.bare ht
  exact ⟨t, ht', (congrArg Tile.ground bare :)⟩

/-- Nothing takes the item in. -/
theorem Kept.placed (h : Kept w w') (hw : WellFormed w) (hi : ∀ q, i ∉ w.things q) :
    Placed w w' c i (some i) where
  items := h.items
  next := h.next
  stack := h.stack
  wellFormed := hw.kept h
  found _ hf := h.found.mpr hf
  tiles := h.tiles
  ground ht := by
    obtain ⟨t, ht, ground⟩ := h.ground ht
    exact ⟨t, ht, .inl ground⟩
  total _ id := by rw [h.total, Option.elim_some]
  gone {o} ho q := by
    obtain rfl := Option.some.inj ho
    rw [h.things]
    exact hi q
  arrived ne := absurd rfl ne

/-- It is taken in, and nothing goes. -/
theorem Added.placed (h : Added w w' c i) (hw : WellFormed w) (hi : ∀ q, i ∉ w.things q)
    (hn : i < w.next)
    (hg : ∀ {pos t'}, w'.tile pos = some t' → ∃ t, w.tile pos = some t ∧
      (t'.ground = t.ground ∨ t'.ground = some i ∧ (w.typeOf i).isGroundTile = true)) :
    Placed w w' c i none where
  items := h.items
  next := h.next
  stack := h.stack
  wellFormed := hw.added h hi hn
  found _ := h.found
  tiles := h.tiles
  ground := hg
  total hcS id := by rw [h.total (hcS (by simp)), Option.elim_none, Nat.add_zero]
  gone ho := by simp at ho
  arrived _ := h.put.mem

/-- It is taken in where another item was taken out. -/
theorem Taken.placed {w₁ : World} {o : ItemRef} (h : Taken w w₁ c o) (h' : Added w₁ w' c i)
    (hw : WellFormed w) (hi : ∀ q, i ∉ w.things q) (hn : i < w.next) (ho : o ≠ i)
    (hg : ∀ {pos t'}, w'.tile pos = some t' → ∃ t, w.tile pos = some t ∧
      (t'.ground = t.ground ∨ t'.ground = some i ∧ (w.typeOf i).isGroundTile = true)) :
    Placed w w' c i (some o) where
  items := h'.items.trans h.items
  next := h'.next.trans h.next
  stack j := (h'.stack j).trans (h.stack j)
  wellFormed := by
    refine (hw.taken h).added h' (fun q hq => ?_) (h.next ▸ hn)
    exact hi q ((h.took.mem_iff hw.once).mp hq).1
  found hx hf := h'.found (h.found (fun e => hx (e ▸ rfl)) hf)
  tiles pos := (h'.tiles pos).trans (h.tiles pos)
  ground := hg
  total hcS id := by
    have hcS := hcS fun e => ho (Option.some.inj e)
    have out := h.total hcS id
    have into := h'.total hcS id
    rw [h.units] at into
    rw [Option.elim_some]
    omega
  gone {x} hx q hq := by
    obtain rfl := Option.some.inj hx
    rcases h'.put.eq_or_mem hq with ⟨e, -⟩ | hq
    · exact ho e
    · exact h.took.unlisted hw.once hq
  arrived _ := h'.put.mem

/-- The change of an item's parent comes first. -/
theorem Kept.andPlaced {w₁ : World} {x : Option ItemRef} (h : Kept w w₁)
    (h' : Placed w₁ w' c i x) : Placed w w' c i x where
  items := h'.items.trans h.items
  next := h'.next.trans h.next
  stack o := (h'.stack o).trans (h.stack o)
  wellFormed := h'.wellFormed
  found hx hf := h'.found hx (h.found.mpr hf)
  tiles pos := (h'.tiles pos).trans (h.tiles pos)
  ground ht' := by
    obtain ⟨t₁, ht₁, ground⟩ := h'.ground ht'
    obtain ⟨t, ht, same⟩ := h.ground ht₁
    refine ⟨t, ht, ?_⟩
    rwa [same, h.typeOf] at ground
  total hc id := by
    have account := h'.total hc id
    rwa [h.units, h.total] at account
  gone := h'.gone
  arrived := h'.arrived

theorem Placed.kept {w₁ : World} {x : Option ItemRef} (h : Placed w w₁ c i x)
    (h' : Kept w₁ w') : Placed w w' c i x where
  items := h'.items.trans h.items
  next := h'.next.trans h.next
  stack o := (h'.stack o).trans (h.stack o)
  wellFormed := h.wellFormed.kept h'
  found hx hf := h'.found.mpr (h.found hx hf)
  tiles pos := (h'.tiles pos).trans (h.tiles pos)
  ground ht' := by
    obtain ⟨t₁, ht₁, same⟩ := h'.ground ht'
    obtain ⟨t, ht, ground⟩ := h.ground ht₁
    exact ⟨t, ht, same ▸ ground⟩
  total hc id := by
    rw [h'.total]
    exact h.total hc id
  gone hx q := by
    rw [h'.things]
    exact h.gone hx q
  arrived ne := by
    rw [h'.things]
    exact h.arrived ne

/-- The account of all cylinders that list something. -/
theorem Placed.total_within {S : Finset Cylinder} {x : Option ItemRef}
    (h : Placed w w' c i x) (hS : Ledger.Within S w'.things) (id : Nat) :
    w'.total S id + (x.elim 0 (w.units id)) = w.total S id + w.units id i := by
  refine h.total (fun ne => ?_) id
  by_contra out
  have arrived := h.arrived ne
  rw [hS c out] at arrived
  simp at arrived

end Placing

/-! ### Tiles -/

theorem tileInsert_ground {pos q : Position} {i : ItemRef} {t' : Tile}
    (h : (w.tileInsert pos i).tile q = some t') : ∃ t, w.tile q = some t ∧
      (t'.ground = t.ground ∨ t'.ground = some i ∧ (w.typeOf i).isGroundTile = true) := by
  unfold tileInsert at h
  split at h
  · exact ⟨t', h, .inl rfl⟩
  · next t ht =>
      by_cases hq : q = pos
      · subst hq
        rw [setTile_tile_self, Option.some.injEq] at h
        subst h
        refine ⟨t, ht, ?_⟩
        by_cases ground : (w.typeOf i).isGroundTile = true
        · exact .inr ⟨by simp [setTileFlags, ground], ground⟩
        · refine .inl ?_
          simp only [setTileFlags, ground, if_false, Bool.false_eq_true]
          split <;> rfl
      · have same : w.tile q = some t' := by simpa [setTile, hq] using h
        exact ⟨t', same, .inl rfl⟩

theorem tileErase_ground {pos q : Position} {t t' : Tile} {i : ItemRef}
    (ht : w.tile pos = some t) (h : (w.tileErase pos t i).tile q = some t') :
    ∃ t, w.tile q = some t ∧ t'.ground = t.ground := by
  by_cases hq : q = pos
  · subst hq
    rw [tileErase, setTile_tile_self, Option.some.injEq] at h
    subst h
    exact ⟨t, ht, Tile.erase_ground _ _ _⟩
  · have same : w.tile q = some t' := by simpa [tileErase, setTile, setItem, hq] using h
    exact ⟨t', same, rfl⟩

/-- What stands in an item's place is found there, and is no stack. -/
theorem replacedItem_found {pos : Position} {t : Tile} {i o : ItemRef} (ht : Typed w)
    (htile : w.tile pos = some t) (hr : w.replacedItem t i = some o) :
    w.Found (.tile pos) o ∧ w.isStackable o = false ∧
      ((w.typeOf i).isGroundTile = false → o ∈ t.itemList) := by
  unfold replacedItem at hr
  simp only at hr
  split at hr
  · next ground =>
      refine ⟨found_tile.mpr ⟨t, htile, .inl hr⟩, isStackable_of_ground (ht.ground htile hr), ?_⟩
      simp [ground]
  · split at hr
    · split at hr
      · have mem := List.mem_of_find?_eq_some hr
        refine ⟨found_tile.mpr ⟨t, htile, .inr ?_⟩, isStackable_of_splash (List.find?_some hr :),
          fun _ => List.mem_of_mem_drop mem⟩
        rw [if_pos (ht.top htile mem)]
        exact mem
      · simp at hr
    · split at hr
      · have mem := List.mem_of_find?_eq_some hr
        refine ⟨found_tile.mpr ⟨t, htile, .inr ?_⟩, ht.field o (List.find?_some hr :),
          fun _ => List.mem_of_mem_take mem⟩
        rw [if_neg (by rw [ht.down htile mem]; exact Bool.false_ne_true)]
        exact mem
      · simp at hr

/-- The ground of a tile with a ground item put on it. -/
theorem newGround_placed {pos : Position} {t t' : Tile} {i o : ItemRef} (hw : WellFormed w)
    (htile : w.tile pos = some t) (hg : t.ground = some o)
    (hb : t'.bare = { t with ground := some i }.bare) (type : (w.typeOf i).isGroundTile = true)
    (hi : ∀ q, i ∉ w.things q) (hn : i < w.next) :
    Placed w (w.setTile pos t') (.tile pos) i (some o) := by
  have mem : o ∈ w.things (.tile pos) := by simp [things, htile, hg]
  have taken : Taken w (w.setTile pos { t with ground := none }) (.tile pos) o := by
    refine setTile_taken w htile rfl (by simp [hg]) fun x top hx h => ?_
    rw [Tile.getThingIndex_ne] at h ⊢
    exact h.imp (fun e => absurd (Option.some.inj (e.symm.trans hg)) hx) id
  have added : Added (w.setTile pos { t with ground := none })
      ((w.setTile pos { t with ground := none }).setTile pos t') (.tile pos) i := by
    refine setTile_added _ (w.setTile_tile_self pos _) hb (by simp) fun x top h => ?_
    rw [Tile.getThingIndex_ne] at h ⊢
    exact h.imp (fun e => absurd e (by simp)) id
  have twice : (w.setTile pos { t with ground := none }).setTile pos t' = w.setTile pos t' := by
    simp [setTile]
  rw [twice] at added
  refine taken.placed added hw hi hn (fun e => hi _ (e ▸ mem)) ?_
  intro q t'' h
  by_cases hq : q = pos
  · subst hq
    rw [setTile_tile_self, Option.some.injEq] at h
    subst h
    exact ⟨t, htile, .inr ⟨(congrArg Tile.ground hb :), type⟩⟩
  · have same : w.tile q = some t'' := by simpa [setTile, hq] using h
    exact ⟨t'', same, .inl rfl⟩

/-- A splash or a magic field takes the place of the one that lay there. -/
theorem replace_placed {pos : Position} {t : Tile} {i o : ItemRef} (hw : WellFormed w)
    (htile : w.tile pos = some t) (hf : w.Found (.tile pos) o) (hs : w.isStackable o = false)
    (ho : o ∈ t.itemList) (type : (w.typeOf i).isGroundTile = false)
    (hi : ∀ q, i ∉ w.things q) (hn : i < w.next) :
    Placed w (((w.tileRemoveThing pos o 1).setItem o (·.setParent none)).tileInsert pos i)
      (.tile pos) i (some o) := by
  have notGround : t.ground ≠ some o := by
    intro e
    have once := hw.once.nodup (.tile pos)
    simp only [things, htile, e, Option.toList_some, List.singleton_append,
      List.nodup_cons] at once
    exact once.1 ho
  have index : w.tileGetThingIndex pos o ≠ -1 := hf
  have erase : w.tileRemoveThing pos o 1 = w.tileErase pos t o := by
    simp [tileRemoveThing, htile, index, notGround, hs]
  rw [erase]
  have taken := (w.tileErase_taken htile notGround hf).kept (setParent_kept _ o none)
  have same : ((w.tileErase pos t o).setItem o (·.setParent none)).typeOf i = w.typeOf i :=
    typeOf_of_id taken.items (Item.id_of_stack (taken.stack i))
  obtain ⟨t₁, h₁⟩ : ∃ t₁, ((w.tileErase pos t o).setItem o (·.setParent none)).tile pos =
      some t₁ := ⟨_, setTile_tile_self _ pos _⟩
  have added := tileInsert_added (i := i) _ h₁ fun ground => by
    rw [same, type] at ground
    exact absurd ground Bool.false_ne_true
  refine taken.placed added hw hi hn (fun e => hi (.tile pos) (e ▸ hf.mem)) ?_
  intro q t' h
  obtain ⟨t₂, h₂, ground⟩ := tileInsert_ground h
  obtain ⟨t₃, h₃, ground'⟩ := tileErase_ground htile h₂
  refine ⟨t₃, h₃, .inl ?_⟩
  rcases ground with e | ⟨-, isGround⟩
  · rw [e, ground']
  · rw [same, type] at isGround
    exact absurd isGround Bool.false_ne_true

theorem Kept.replacedItem (h : Kept w w') (t : Tile) (i : ItemRef) :
    w'.replacedItem t i = w.replacedItem t i := by
  have types : w'.typeOf = w.typeOf := funext h.typeOf
  have cls : ∀ o, (w'.item o).getMagicField = (w.item o).getMagicField :=
    fun o => getMagicField_of_stack (h.stack o)
  simp only [World.replacedItem, types, cls]

theorem Kept.typed (h : Kept w w') (ht : Typed w) : Typed w' :=
  ht.congr h.items h.id (fun o => getMagicField_of_stack (h.stack o)) h.tile

theorem displaced_tile {pos : Position} {t : Tile} {i : ItemRef} (index : Int)
    (htile : w.tile pos = some t) (room : ¬t.itemList.length ≥ 0xFFFF) (hi : i ∉ t.itemList) :
    w.displaced (.tile pos) index i = (w.replacedItem t i).map fun o =>
      if (w.typeOf i).isMagicField && !(w.typeOf i).isGroundTile &&
        !(w.typeOf i).alwaysOnTop && !(w.typeOf o).replaceable then i else o := by
  simp only [displaced, refuses, htile, Option.isNone_some, Bool.false_eq_true, if_false,
    Option.bind_some, if_neg room, standsFor_eq hi]

theorem tileAddThing_placed {pos : Position} {i : ItemRef} (index : Int) (hw : WellFormed w)
    (ht : Typed w) (hi : ∀ q, i ∉ w.things q) (hn : i < w.next) :
    Placed w (w.tileAddThing pos i) (.tile pos) i (w.displaced (.tile pos) index i) := by
  cases htile : w.tile pos with
  | none =>
      simp only [tileAddThing, displaced, refuses, htile, Option.isNone_none, if_true]
      exact (Kept.refl w).placed hw hi
  | some t =>
      by_cases full : t.itemList.length ≥ 0xFFFF
      · simp only [tileAddThing, displaced, refuses, htile, if_pos full, Option.isNone_some,
          Bool.false_eq_true, if_false, Option.bind_some]
        exact (Kept.refl w).placed hw hi
      · have unlisted : i ∉ t.itemList := by
          intro h
          refine hi (.tile pos) ?_
          simp [things, htile, h]
        have kept := setParent_kept w i (some (.tile pos))
        have tile₁ : (w.setItem i (·.setParent (some (.tile pos)))).tile pos = some t := htile
        rw [displaced_tile index htile full unlisted]
        simp only [tileAddThing, htile, if_neg full, kept.replacedItem, kept.typeOf]
        refine kept.andPlaced ?_
        generalize w.setItem i (·.setParent (some (.tile pos))) = w₁ at kept tile₁ ⊢
        have hw₁ := hw.kept kept
        have hi₁ : ∀ q, i ∉ w₁.things q := kept.things ▸ hi
        have hn₁ : i < w₁.next := kept.next ▸ hn
        cases hr : w.replacedItem t i with
        | none =>
            refine (tileInsert_added w₁ tile₁ fun ground => ?_).placed hw₁ hi₁ hn₁
              tileInsert_ground
            rw [kept.typeOf] at ground
            simpa only [replacedItem, ground, if_true] using hr
        | some o =>
            obtain ⟨found, single, listed⟩ :=
              replacedItem_found (kept.typed ht) tile₁ ((kept.replacedItem t i).trans hr)
            simp only [Option.map_some]
            by_cases ground : (w.typeOf i).isGroundTile = true
            · have old : t.ground = some o := by
                simpa only [replacedItem, ground, if_true] using hr
              simp only [ground, if_true, Bool.not_true, Bool.and_false, Bool.false_and,
                Bool.false_eq_true, if_false]
              have freed := setParent_kept w₁ o none
              have type : ((w₁.setItem o (·.setParent none)).typeOf i).isGroundTile = true := by
                rw [freed.typeOf, kept.typeOf, ground]
              exact freed.andPlaced (newGround_placed (hw₁.kept freed) tile₁ old rfl type
                (freed.things ▸ hi₁) hn₁)
            · rw [Bool.not_eq_true] at ground
              rw [kept.typeOf] at listed
              simp only [ground, Bool.false_eq_true, if_false, Bool.not_false, Bool.and_true]
              split
              · exact (setParent_kept w₁ i none).placed hw₁ hi₁
              · exact replace_placed hw₁ tile₁ found single (listed ground)
                  ((kept.typeOf i).symm ▸ ground) hi₁ hn₁

/-! ### Containers and players -/

theorem containerAddThing_ground {c i : ItemRef} {index : Int} {q : Position} {t' : Tile}
    (h : (w.containerAddThing c index i).tile q = some t') :
    ∃ t, w.tile q = some t ∧ t'.ground = t.ground := by
  unfold containerAddThing at h
  split at h
  · exact ⟨t', h, rfl⟩
  · split at h
    · exact ⟨t', h, rfl⟩
    · unfold pushFront at h
      split at h
      · exact ⟨t', h, rfl⟩
      · exact ⟨t', h, rfl⟩
      · obtain ⟨t, ht, ground⟩ := Kept.ground (updateItemWeight_kept _ _ _) h
        exact ⟨t, ht, ground⟩

theorem containerAddThing_placed {c i : ItemRef} (index : Int) (hw : WellFormed w)
    (hi : ∀ q, i ∉ w.things q) (hn : i < w.next)
    (taken : w.refuses (.container c) index = false) :
    Placed w (w.containerAddThing c index i) (.container c) i none := by
  refine (addThing_added w (takes_of_room (i := i) taken trivial)).placed hw hi hn fun h => ?_
  obtain ⟨t, ht, ground⟩ := containerAddThing_ground h
  exact ⟨t, ht, .inl ground⟩

/-- What lay in the slot is overwritten. -/
theorem playerAddThing_placed {p : PlayerId} {i : ItemRef} {index : Int} (hw : WellFormed w)
    (hi : ∀ q, i ∉ w.things q) (hn : i < w.next)
    (taken : w.refuses (.player p) index = false) :
    Placed w (w.playerAddThing p index i) (.player p) i (w.getInventoryItem p index) := by
  have inside : 1 ≤ index ∧ index ≤ 11 := by simpa [refuses] using taken
  have slot : index.toNat ∈ slots := mem_slots.mpr (by omega)
  have out : ¬(index < CONST_SLOT_FIRST ∨ index > CONST_SLOT_LAST) := by
    simp only [CONST_SLOT_FIRST, CONST_SLOT_LAST]
    omega
  have kept := setParent_kept w i (some (.player p))
  simp only [playerAddThing, if_neg out, getInventoryItem, if_pos inside]
  cases hs : (w.player p).inventory index.toNat with
  | none =>
      exact (kept.added (setInventory_added _ slot hs)).placed hw hi hn
        fun h => ⟨_, h, .inl rfl⟩
  | some o =>
      have mem : o ∈ w.things (.player p) := List.mem_filterMap.mpr ⟨_, slot, hs⟩
      have taken := kept.taken (setInventory_taken _ slot hs)
      have empty : ∀ w₁ : World, ((w₁.setInventory p index.toNat none).player p).inventory
          index.toNat = none := by
        intro w₁
        simp [setInventory, setPlayer]
      have twice : ∀ w₁ : World, (w₁.setInventory p index.toNat none).setInventory p index.toNat
          (some i) = w₁.setInventory p index.toNat (some i) := by
        intro w₁
        simp [setInventory, setPlayer]
      rw [← twice]
      exact taken.placed (setInventory_added _ slot (empty _)) hw hi hn
        (fun e => hi _ (e ▸ mem)) fun h => ⟨_, h, .inl rfl⟩

/-- Adding an item to a cylinder: one thing goes, or none. -/
theorem addThing_placed {c : Cylinder} {i : ItemRef} (index : Int) (hw : WellFormed w)
    (ht : Typed w) (hi : ∀ q, i ∉ w.things q) (hn : i < w.next) :
    Placed w (w.addThing c index i) c i (w.displaced c index i) := by
  cases refused : w.refuses c index with
  | true =>
      have gone : w.displaced c index i = some i := by simp only [displaced, refused, if_true]
      rw [addThing_refused i refused, gone]
      exact (Kept.refl w).placed hw hi
  | false =>
      cases c with
      | tile pos => exact tileAddThing_placed index hw ht hi hn
      | player p =>
          have gone : w.displaced (.player p) index i = w.getInventoryItem p index := by
            simp only [displaced, refused, Bool.false_eq_true, if_false]
          rw [gone]
          exact playerAddThing_placed hw hi hn refused
      | container c =>
          have gone : w.displaced (.container c) index i = none := by
            simp only [displaced, refused, Bool.false_eq_true, if_false]
          rw [gone]
          exact containerAddThing_placed index hw hi hn refused

theorem addThingFront_placed {c : Cylinder} {i : ItemRef} (hw : WellFormed w) (ht : Typed w)
    (hi : ∀ q, i ∉ w.things q) (hn : i < w.next) :
    Placed w (w.addThingFront c i) c i (w.displacedFront c i) := by
  cases c with
  | player p => exact (Kept.refl w).placed hw hi
  | tile pos => exact addThing_placed (c := .tile pos) 0 hw ht hi hn
  | container c => exact addThing_placed (c := .container c) 0 hw ht hi hn

theorem tileInsert_player (w : World) (pos : Position) (i : ItemRef) :
    (w.tileInsert pos i).player = w.player := by
  unfold tileInsert
  split <;> rfl

theorem tileRemoveThing_player (w : World) (pos : Position) (i : ItemRef) (n : Nat) :
    (w.tileRemoveThing pos i n).player = w.player := by
  unfold tileRemoveThing
  split
  · rfl
  · split_ifs <;> rfl

theorem tileAddThing_player (w : World) (pos : Position) (i : ItemRef) :
    (w.tileAddThing pos i).player = w.player := by
  unfold tileAddThing
  split
  · rfl
  · split
    · rfl
    · simp only
      split
      · exact tileInsert_player _ pos i
      · split_ifs
        · rfl
        · rfl
        · exact (tileInsert_player _ pos i).trans (tileRemoveThing_player _ pos _ 1)

/-- `addThing(Thing*)` changes no player's slots. -/
theorem addThingFront_inventory (w : World) (c : Cylinder) (i : ItemRef) (p : PlayerId) :
    ((w.addThingFront c i).player p).inventory = (w.player p).inventory := by
  cases c with
  | player q => rfl
  | tile pos => exact congrArg (fun pl => (pl p).inventory) (w.tileAddThing_player pos i)
  | container c =>
      simp only [addThingFront, addThing, containerAddThing]
      split
      · rfl
      · split
        · rfl
        · unfold pushFront
          split
          · rfl
          · rfl
          · exact (updateItemWeight_kept _ _ _).inventory p

/-! ### Taking the other item out -/

/-- A top down item is taken out of its tile, and no other tile changes. -/
theorem removeThing_tile {c : Cylinder} {o : ItemRef} {q : Position} {t' : Tile}
    (hf : w.Found c o) (hs : ¬(w.isStackable o = true ∧ n ≠ w.getItemCount o))
    (hd : ∀ pos t, c = .tile pos → w.tile pos = some t →
      t.ground ≠ some o ∧ w.isAlwaysOnTop o = false)
    (h : (w.removeThing c o n).tile q = some t') :
    ∃ t, w.tile q = some t ∧ t'.bare = (if c = .tile q then t.erase false o else t).bare := by
  cases c with
  | tile pos =>
      obtain ⟨t, ht, -⟩ := found_tile.mp hf
      obtain ⟨ground, top⟩ := hd pos t rfl ht
      have index : w.tileGetThingIndex pos o ≠ -1 := hf
      have part : (w.isStackable o && n != w.getItemCount o) = false := by
        rw [Bool.eq_false_iff]
        simpa using hs
      simp only [removeThing, tileRemoveThing, ht, index, if_false, if_neg ground, top,
        Bool.not_false, Bool.true_and, part, Bool.false_eq_true, tileErase] at h
      by_cases hq : q = pos
      · subst hq
        rw [setTile_tile_self, Option.some.injEq] at h
        subst h
        exact ⟨t, ht, by rw [if_pos rfl, resetTileFlags_bare]⟩
      · have same : w.tile q = some t' := by simpa [setTile, setItem, hq] using h
        exact ⟨t', same, by rw [if_neg (by simpa using Ne.symm hq)]⟩
  | player p =>
      have same : (w.removeThing (.player p) o n).tile = w.tile := by
        simp only [removeThing, playerRemoveThing]
        split_ifs <;> rfl
      exact ⟨t', same ▸ h, by simp⟩
  | container c =>
      have index : w.containerGetThingIndex c o ≠ -1 := hf
      have kept := updateItemWeight_kept w c (-w.getWeight o)
      simp only [removeThing, containerRemoveThing, index, hs, if_false] at h
      obtain ⟨t, ht, bare⟩ := Kept.bare kept h
      exact ⟨t, ht, by simpa using bare⟩

theorem find?_erase_of_not {p : ItemRef → Bool} {o : ItemRef} (hp : p o = false)
    (l : List ItemRef) : (l.erase o).find? p = l.find? p := by
  induction l with
  | nil => rfl
  | cons a l ih =>
      by_cases e : a = o
      · subst e
        rw [List.erase_cons_head, List.find?_cons, hp]
      · rw [List.erase_cons_tail (by simpa using e), List.find?_cons, List.find?_cons, ih]

/-! ### The exchange -/

section Exchanging

variable {src : Cylinder} {d : Dest} {i o : ItemRef} {count : Nat} {actor : Option PlayerId}

/-- A tile that takes part in an exchange gives its top down item. -/
theorem Exchange.topDown (h : w.Exchange src d i count actor o) (ok : w.DestOk d)
    (hw : WellFormed w) (ht : Typed w) {pos : Position} {t : Tile} (hc : d.cylinder = .tile pos)
    (htile : w.tile pos = some t) :
    o ∈ t.downItems ∧ t.ground ≠ some o ∧ w.isAlwaysOnTop o = false := by
  have mem : o ∈ t.downItems := by
    simp only [DestOk, hc, h.destItem, htile, Option.bind_some, Tile.getTopDownItem] at ok
    exact List.mem_of_mem_head? ok.symm
  refine ⟨mem, fun e => ?_, ht.down htile mem⟩
  have once := hw.once.nodup (.tile pos)
  simp only [things, htile, e, Option.toList_some, List.singleton_append,
    List.nodup_cons] at once
  exact once.1 (List.mem_of_mem_take mem)

/-- The world with the exchanged item taken out of the destination. -/
def takenOut (w : World) (d : Dest) (o : ItemRef) : World :=
  w.removeThing d.cylinder o (w.getItemCount o)

theorem Exchange.taken (h : w.Exchange src d i count actor o) :
    Taken w (w.takenOut d o) d.cylinder o :=
  removeThing_taken w h.granted.found (by simp)

theorem Exchange.tile (h : w.Exchange src d i count actor o) (ok : w.DestOk d)
    (hw : WellFormed w) (ht : Typed w) {q : Position} {t' : Tile}
    (htile : (w.takenOut d o).tile q = some t') :
    ∃ t, w.tile q = some t ∧
      t'.bare = (if d.cylinder = .tile q then t.erase false o else t).bare :=
  removeThing_tile h.granted.found (by simp)
    (fun _ _ hc ht' => (h.topDown ok hw ht hc ht').2) htile

/-- A tile of which the exchanged item was taken, if it lay there. -/
theorem Exchange.parts (h : w.Exchange src d i count actor o) (ok : w.DestOk d)
    (hw : WellFormed w) (ht : Typed w) {q : Position} {t' : Tile}
    (htile : (w.takenOut d o).tile q = some t') :
    ∃ t, w.tile q = some t ∧ t'.ground = t.ground ∧ t'.topItems = t.topItems ∧
      t'.downItems = t.downItems.erase o ∧ t'.itemList.length ≤ t.itemList.length := by
  obtain ⟨t, ht', bare⟩ := h.tile ok hw ht htile
  refine ⟨t, ht', ?_⟩
  by_cases hc : d.cylinder = .tile q
  · obtain ⟨mem, -⟩ := h.topDown ok hw ht hc ht'
    obtain ⟨down', top'⟩ := Tile.erase_down mem
    rw [if_pos hc] at bare
    have list : t'.itemList = (t.erase false o).itemList := (congrArg Tile.itemList bare :)
    have shorter := (t.erase_perm false mem).length_eq
    rw [List.length_cons, ← list] at shorter
    exact ⟨(congrArg Tile.ground bare :), (congrArg Tile.topItems bare :).trans top',
      (congrArg Tile.downItems bare :).trans down', by omega⟩
  · rw [if_neg hc] at bare
    have down : t'.downItems = t.downItems := (congrArg Tile.downItems bare :)
    have list : t'.itemList = t.itemList := (congrArg Tile.itemList bare :)
    refine ⟨(congrArg Tile.ground bare :), (congrArg Tile.topItems bare :), ?_, by rw [list]⟩
    rw [down, List.erase_of_not_mem]
    intro mem
    refine hc (hw.once.place h.granted.found.mem (q := .tile q) ?_)
    simp only [things, ht', List.mem_append]
    exact .inr (List.mem_of_mem_take mem)

theorem Exchange.typed (h : w.Exchange src d i count actor o) (ok : w.DestOk d)
    (hw : WellFormed w) (ht : Typed w) : Typed (w.takenOut d o) where
  field x hx := by
    rw [getMagicField_of_stack (h.taken.stack x)] at hx
    rw [isStackable_of_id h.taken.items (Item.id_of_stack (h.taken.stack x))]
    exact ht.field x hx
  ground {q t' x} htile hx := by
    obtain ⟨t, ht', ground, -⟩ := h.parts ok hw ht htile
    rw [typeOf_of_id h.taken.items (Item.id_of_stack (h.taken.stack x))]
    exact ht.ground ht' (ground ▸ hx)
  top {q t' x} htile hx := by
    obtain ⟨t, ht', -, top, -⟩ := h.parts ok hw ht htile
    rw [isAlwaysOnTop_of_id h.taken.items (Item.id_of_stack (h.taken.stack x))]
    exact ht.top ht' (top ▸ hx)
  down {q t' x} htile hx := by
    obtain ⟨t, ht', -, -, down, -⟩ := h.parts ok hw ht htile
    rw [isAlwaysOnTop_of_id h.taken.items (Item.id_of_stack (h.taken.stack x))]
    exact ht.down ht' (List.mem_of_mem_erase (down ▸ hx))
  notGround {q t' x} htile hx := by
    obtain ⟨t, ht', -, top, down, -⟩ := h.parts ok hw ht htile
    rw [typeOf_of_id h.taken.items (Item.id_of_stack (h.taken.stack x))]
    refine ht.notGround ht' ?_
    rw [← t'.downItems_append_topItems, top, down, List.mem_append] at hx
    rw [← t.downItems_append_topItems, List.mem_append]
    exact hx.imp_left List.mem_of_mem_erase

/-- What goes can be told before anything is taken out. -/
theorem Exchange.displacedFront_eq (h : w.Exchange src d i count actor o) (ok : w.DestOk d)
    (hw : WellFormed w) (ht : Typed w) :
    (w.takenOut d o).displacedFront src o = w.displacedFront src o := by
  have type : ∀ x, (w.takenOut d o).typeOf x = w.typeOf x := fun x =>
    typeOf_of_id h.taken.items (Item.id_of_stack (h.taken.stack x))
  cases src with
  | player p => rfl
  | container c =>
      have shell : (w.takenOut d o).shellOf c = w.shellOf c :=
        shellOf_congr (Item.shell_of_stack (h.taken.stack c))
      simp only [displacedFront, displaced, refuses_congr (c := .container c)
        (fun r e => (Cylinder.container.inj e) ▸ shell) h.taken.tiles]
  | tile pos =>
      have welcome := h.welcome
      simp only [queryAdd] at welcome
      obtain ⟨t, htile, room⟩ := tileQueryAdd_room (.inl welcome)
      obtain ⟨t', htile'⟩ : ∃ t', (w.takenOut d o).tile pos = some t' := by
        rw [← Option.isSome_iff_exists, h.taken.tiles pos, htile]
        rfl
      obtain ⟨t₁, ht₁, ground, top, down, length⟩ := h.parts ok hw ht htile'
      obtain rfl : t = t₁ := Option.some.inj (htile.symm.trans ht₁)
      have room' : ¬t'.itemList.length ≥ 0xFFFF := by omega
      have room₀ : ¬t.itemList.length ≥ 0xFFFF := by omega
      have field : ∀ x, ((w.takenOut d o).item x).getMagicField = (w.item x).getMagicField :=
        fun x => getMagicField_of_stack (h.taken.stack x)
      have downs := find?_erase_of_not
        (p := fun x => x != o && (w.item x).getMagicField) (o := o) (by simp) t.downItems
      have same : (w.takenOut d o).standsFor t' o = w.standsFor t o := by
        simp only [standsFor, type, ground, top, down, field, downs]
      simp only [displacedFront, displaced, refuses, htile, htile', Option.isNone_some,
        Bool.false_eq_true, if_false, Option.bind_some, if_neg room', if_neg room₀, same, type]

/-- What an exchange leaves, where `x` goes out of the world. -/
structure Exchanged (w w' : World) (src dst : Cylinder) (o : ItemRef) (x : Option ItemRef) :
    Prop where
  items : w'.items = w.items
  next : w'.next = w.next
  stack : ∀ j, (w'.item j).stack = (w.item j).stack
  wellFormed : WellFormed w'
  found : ∀ {q j}, j ≠ o → x ≠ some j → w.Found q j → w'.Found q j
  slot : ∀ p s, (w'.player p).inventory s = (w.player p).inventory s ∨
    (w'.player p).inventory s = none
  emptied : ∀ {p s}, s ∈ slots → (w.player p).inventory s = some o →
    (w'.player p).inventory s = none
  tiles : ∀ pos, (w'.tile pos).isSome = (w.tile pos).isSome
  ground : ∀ {pos t'}, w'.tile pos = some t' → ∃ t, w.tile pos = some t ∧
    (t'.ground = t.ground ∨ t'.ground = some o ∧ (w.typeOf o).isGroundTile = true)
  total : ∀ {S : Finset Cylinder}, src ∈ S → dst ∈ S → ∀ id,
    w'.total S id + (x.elim 0 (w.units id)) = w.total S id
  gone : ∀ {j}, x = some j → ∀ q, j ∉ w'.things q
  arrived : x = none → o ∈ w'.things src

theorem Taken.exchanged {w₁ : World} {dst : Cylinder} {x : Option ItemRef}
    (h : Taken w w₁ dst o) (h' : Placed w₁ w' src o x) (hw : WellFormed w)
    (hs : ∀ p, (w'.player p).inventory = (w₁.player p).inventory)
    (hg : ∀ {pos t₁}, w₁.tile pos = some t₁ → ∃ t, w.tile pos = some t ∧ t₁.ground = t.ground) :
    Exchanged w w' src dst o x where
  items := h'.items.trans h.items
  next := h'.next.trans h.next
  stack j := (h'.stack j).trans (h.stack j)
  wellFormed := h'.wellFormed
  found ho hx hf := h'.found hx (h.found ho hf)
  slot p s := by
    rw [hs p]
    exact h.slot p s
  emptied {p s} slot ho := by
    rw [hs p]
    rcases h.slot p s with e | e
    · refine absurd ?_ (h.took.unlisted hw.once (q := .player p))
      exact List.mem_filterMap.mpr ⟨s, slot, e.trans ho⟩
    · exact e
  tiles pos := (h'.tiles pos).trans (h.tiles pos)
  ground ht' := by
    obtain ⟨t₁, ht₁, ground⟩ := h'.ground ht'
    obtain ⟨t, ht, same⟩ := hg ht₁
    refine ⟨t, ht, ?_⟩
    rwa [same, typeOf_of_id h.items (Item.id_of_stack (h.stack o))] at ground
  total hsrc hdst id := by
    have out := h.total hdst id
    have into := h'.total (fun _ => hsrc) id
    rw [h.units] at into
    omega
  gone := h'.gone
  arrived none := h'.arrived (by simp [none])

theorem Exchanged.kept {w₁ : World} {dst : Cylinder} {x : Option ItemRef}
    (h : Exchanged w w₁ src dst o x) (h' : Kept w₁ w') : Exchanged w w' src dst o x where
  items := h'.items.trans h.items
  next := h'.next.trans h.next
  stack j := (h'.stack j).trans (h.stack j)
  wellFormed := h.wellFormed.kept h'
  found ho hx hf := h'.found.mpr (h.found ho hx hf)
  slot p s := by
    rw [h'.inventory p]
    exact h.slot p s
  emptied hs ho := by
    rw [h'.inventory]
    exact h.emptied hs ho
  tiles pos := (h'.tiles pos).trans (h.tiles pos)
  ground ht' := by
    obtain ⟨t₁, ht₁, same⟩ := h'.ground ht'
    obtain ⟨t, ht, ground⟩ := h.ground ht₁
    exact ⟨t, ht, same ▸ ground⟩
  total hsrc hdst id := by
    rw [h'.total]
    exact h.total hsrc hdst id
  gone hx q := by
    rw [h'.things]
    exact h.gone hx q
  arrived none := by
    rw [h'.things]
    exact h.arrived none

end Exchanging

end World

namespace Game

open World

variable {g : Game} {src : Cylinder} {d : Dest} {i o : ItemRef} {count : Nat}
  {actor : Option PlayerId}

theorem swap_exchanged (h : g.world.Exchange src d i count actor o) (ok : g.world.DestOk d)
    (hw : WellFormed g.world) (ht : Typed g.world) :
    Exchanged g.world (g.swap src d.cylinder o).world src d.cylinder o
      (g.world.displacedFront src o) := by
  have taken := h.taken
  have placed := addThingFront_placed (c := src) (hw.taken taken) (h.typed ok hw ht)
    (fun q => taken.took.unlisted hw.once) (taken.next ▸ hw.fresh h.granted.found.mem)
  rw [h.displacedFront_eq ok hw ht] at placed
  have moved := taken.exchanged placed hw (addThingFront_inventory _ src o) fun ht' => by
    obtain ⟨t, ht, ground, -⟩ := h.parts ok hw ht ht'
    exact ⟨t, ht, ground⟩
  unfold swap
  refine moved.kept (Kept.trans ?_ (post_kept _ _ _))
  refine Kept.trans ?_ (post_kept _ _ _)
  rw [addThingFront_world, removeThing_world]
  rfl

end Game

end TibServer
