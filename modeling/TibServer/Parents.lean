import TibServer.Payment

/-!
Parents. Every item that lies in a cylinder has it for its parent, or, on a tile, the
browse field that is open on it. The operations that put a stack in, change it or take
it out keep that, so that a stack that lies in a cylinder is found there by
`internalRemoveItem`.
-/

namespace TibServer

namespace World

variable {w w' w'' : World} {c : Cylinder} {i o : ItemRef} {moved : Set ItemRef}

/-! ### Which parents change -/

/-- Only the items of `moved` get another parent. -/
structure Rehomed (w w' : World) (moved : Set ItemRef) : Prop where
  parent : ∀ o, o ∉ moved → (w'.item o).parent = (w.item o).parent
  browseFields : w'.browseFields = w.browseFields

namespace Rehomed

theorem refl (w : World) (moved : Set ItemRef) : Rehomed w w moved :=
  ⟨fun _ _ => rfl, rfl⟩

theorem trans (h : Rehomed w w' moved) (h' : Rehomed w' w'' moved) : Rehomed w w'' moved where
  parent o ho := (h'.parent o ho).trans (h.parent o ho)
  browseFields := h'.browseFields.trans h.browseFields

theorem mono (h : Rehomed w w' ∅) (moved : Set ItemRef) : Rehomed w w' moved where
  parent o _ := h.parent o (Set.notMem_empty o)
  browseFields := h.browseFields

end Rehomed

theorem setItem_rehomed (w : World) (i : ItemRef) {f : Item → Item}
    (h : (f (w.item i)).parent = (w.item i).parent) : Rehomed w (w.setItem i f) ∅ where
  parent o _ := by
    rw [setItem_item]
    split
    · next e => rw [h, e]
    · rfl
  browseFields := rfl

theorem setParent_rehomed (w : World) (i : ItemRef) (p : Option Cylinder) :
    Rehomed w (w.setItem i (·.setParent p)) {i} where
  parent o ho := by rw [setItem_item, if_neg (Set.mem_singleton_iff.not.mp ho)]
  browseFields := rfl

theorem setContainer_rehomed (w : World) (c : ItemRef) (f : Container → Container) :
    Rehomed w (w.setContainer c f) ∅ := by
  refine w.setItem_rehomed c ?_
  split <;> rfl

theorem updateItemWeight_rehomed (w : World) (c : ItemRef) (diff : BitVec 32) :
    Rehomed w (w.updateItemWeight c diff) ∅ := by
  suffices ∀ n w c, Rehomed w (updateItemWeightAux n w c diff) ∅ from this _ _ _
  intro n
  induction n with
  | zero => exact fun w _ => Rehomed.refl w ∅
  | succ n ih =>
      intro w c
      have here := w.setContainer_rehomed c fun k => { k with totalWeight := k.totalWeight + diff }
      simp only [updateItemWeightAux]
      split
      · exact here.trans (ih _ _)
      · exact here

theorem setItemlist_rehomed (w : World) (c : ItemRef) (l : List ItemRef) :
    Rehomed w (w.setItemlist c l) ∅ := w.setContainer_rehomed c _

theorem setPlayer_rehomed (w : World) (p : PlayerId) (pl : Player) (moved : Set ItemRef) :
    Rehomed w (w.setPlayer p pl) moved := ⟨fun _ _ => rfl, rfl⟩

theorem setTile_rehomed (w : World) (pos : Position) (t : Tile) (moved : Set ItemRef) :
    Rehomed w (w.setTile pos t) moved := ⟨fun _ _ => rfl, rfl⟩

theorem postNotification_rehomed (w : World) (c : Cylinder) :
    Rehomed w (w.postNotification c) ∅ := by
  unfold postNotification
  split
  · unfold updateInventoryWeight
    simp only
    split
    · exact .refl _ _
    · exact w.setPlayer_rehomed _ _ _
  · exact .refl _ _

theorem allocate_rehomed (w : World) (x : Item) : Rehomed w (w.allocate x) {w.next} where
  parent o ho := by simp [allocate, Set.mem_singleton_iff.not.mp ho]
  browseFields := rfl

theorem setID_parent (w : World) (i : Item) (id : Nat) : (w.setID i id).parent = i.parent := by
  simp only [setID]
  split <;> split <;> split <;> rfl

theorem setSubType_parent (w : World) (i : Item) (n : Nat) :
    (w.setSubType i n).parent = i.parent := by
  simp only [setSubType]
  split
  · rfl
  · split
    · rfl
    · split <;> rfl

/-- The change of an item's type and count. -/
theorem retype_rehomed (w : World) (i : ItemRef) (itemId count : Nat) :
    Rehomed w (w.setItem i fun x => w.setSubType (w.setID x itemId) count) ∅ := by
  refine w.setItem_rehomed i ?_
  rw [setSubType_parent, setID_parent]

theorem containerChange_rehomed (w : World) (c i : ItemRef) {f : Item → Item}
    (h : (f (w.item i)).parent = (w.item i).parent) :
    Rehomed w (w.containerChange c i f) ∅ :=
  (w.setItem_rehomed i h).trans (updateItemWeight_rehomed _ _ _)

theorem updateThing_rehomed (w : World) (c : Cylinder) (i : ItemRef) (itemId count : Nat) :
    Rehomed w (w.updateThing c i itemId count) ∅ := by
  cases c with
  | tile pos =>
      simp only [updateThing, tileUpdateThing]
      split
      · exact .refl _ _
      · split
        · exact .refl _ _
        · exact (w.retype_rehomed i itemId count).trans (setTile_rehomed _ _ _ _)
  | player p =>
      simp only [updateThing, playerUpdateThing]
      split
      · exact .refl _ _
      · exact w.retype_rehomed i itemId count
  | container r =>
      simp only [updateThing, containerUpdateThing]
      split
      · exact .refl _ _
      · refine w.containerChange_rehomed r i ?_
        rw [setSubType_parent, setID_parent]

theorem removeThing_rehomed (w : World) (c : Cylinder) (i : ItemRef) (count : Nat) :
    Rehomed w (w.removeThing c i count) {i} := by
  cases c with
  | tile pos =>
      simp only [removeThing, tileRemoveThing]
      split
      · exact .refl _ _
      · split
        · exact .refl _ _
        · split
          · exact (w.setParent_rehomed i none).trans (setTile_rehomed _ _ _ _)
          · split
            · exact (w.setItem_rehomed i rfl).mono _
            · exact (w.setParent_rehomed i none).trans (setTile_rehomed _ _ _ _)
  | player p =>
      simp only [removeThing, playerRemoveThing]
      split
      · exact .refl _ _
      · split
        · exact (w.setItem_rehomed i rfl).mono _
        · exact (w.setParent_rehomed i none).trans (setPlayer_rehomed _ _ _ _)
  | container r =>
      simp only [removeThing, containerRemoveThing]
      split
      · exact .refl _ _
      · split
        · exact (w.containerChange_rehomed r i rfl).mono _
        · exact (((w.updateItemWeight_rehomed _ _).mono _).trans (setParent_rehomed _ i none)).trans
            ((setItemlist_rehomed _ _ _).mono _)

/-- A stack that is taken in has the cylinder for its parent. -/
theorem addThing_parent {index : Int} (takes : w.Takes c index i) :
    Rehomed w (w.addThing c index i) {i} ∧ ((w.addThing c index i).item i).parent = some c := by
  have self : ∀ p, ((w.setItem i (·.setParent p)).item i).parent = p := fun p => by
    rw [setItem_item, if_pos rfl]
    rfl
  cases c with
  | tile pos =>
      obtain ⟨t, ht, room, free⟩ := takes
      have kept := setParent_kept w i (some (.tile pos))
      have free := (kept.replacedItem t i).trans free
      simp only [addThing, tileAddThing, ht, not_le.mpr room, if_false, free]
      unfold tileInsert
      split
      · exact ⟨w.setParent_rehomed i _, self _⟩
      · exact ⟨(w.setParent_rehomed i _).trans (setTile_rehomed _ _ _ _), self _⟩
  | player p =>
      obtain ⟨first, last, -⟩ := takes
      have slot : ¬(index < CONST_SLOT_FIRST ∨ index > CONST_SLOT_LAST) := by
        simp only [CONST_SLOT_FIRST, CONST_SLOT_LAST]
        omega
      simp only [addThing, playerAddThing, if_neg slot]
      exact ⟨(w.setParent_rehomed i _).trans (setPlayer_rehomed _ _ _ _), self _⟩
  | container r =>
      obtain ⟨k, hk, kind, index_lt⟩ := takes
      have kind' := kindOf_of_getContainer hk
      simp only [addThing, containerAddThing, hk, not_le.mpr index_lt, if_false,
        pushFront, kind']
      have list := setItemlist_rehomed (w.setItem i (·.setParent (some (.container r)))) r
        (i :: w.itemlist r)
      have rest := fun diff => list.trans (updateItemWeight_rehomed _ r diff)
      exact ⟨(w.setParent_rehomed i _).trans ((rest _).mono _),
        ((rest _).parent i (Set.notMem_empty i)).trans (self _)⟩

/-! ### Where a stack is taken in -/

section Displacing

variable {index : Int}

theorem standsFor_stackable (hs : w.isStackable i = true) (t : Tile) : w.standsFor t i = none := by
  have ground : (w.typeOf i).isGroundTile = false := w.items.stackable_not_ground hs
  have down : (w.typeOf i).alwaysOnTop = false := w.items.stackable_down _ hs
  simp only [standsFor, ground, down, isMagicField_of_stackable hs, Bool.false_eq_true, if_false]

/-- On a tile, a stack is only displaced by a full vector. -/
theorem displaced_stack (hs : w.isStackable i = true) {pos : Position} {t : Tile}
    (ht : w.tile pos = some t) :
    w.displaced (.tile pos) index i = if t.itemList.length ≥ 0xFFFF then some i else none := by
  have open_ : w.refuses (.tile pos) index = false := by simp [refuses, ht]
  simp only [displaced, open_, Bool.false_eq_true, if_false, ht, Option.bind_some,
    standsFor_stackable hs, Option.map_none]

theorem takes_of_displaced (hs : w.isStackable i = true) (free : w.displaced c index i = none) :
    w.Takes c index i := by
  have open_ : w.refuses c index = false := by
    rw [Bool.eq_false_iff]
    intro refused
    simp [displaced, refused] at free
  cases c with
  | player p =>
      rw [displaced, open_] at free
      simp only [refuses, Bool.not_eq_false', Bool.and_eq_true, decide_eq_true_eq] at open_
      exact ⟨open_.1, open_.2, free⟩
  | container r => exact takes_of_room open_ trivial
  | tile pos =>
      cases ht : w.tile pos with
      | none => simp [refuses, ht] at open_
      | some t =>
          rw [displaced_stack hs ht] at free
          have room : ¬t.itemList.length ≥ 0xFFFF := fun full => by simp [full] at free
          exact ⟨t, ht, not_le.mp room, replacedItem_stackable hs t⟩

/-- A stack that takes its own place was put nowhere. -/
theorem addThing_displaced (hs : w.isStackable i = true) (unlisted : ∀ q, i ∉ w.things q)
    (gone : w.displaced c index i = some i) : w.addThing c index i = w := by
  by_cases refused : w.refuses c index = true
  · exact addThing_refused i refused
  · have open_ := Bool.not_eq_true _ ▸ refused
    cases c with
    | container r => simp [displaced, open_] at gone
    | player p =>
        rw [displaced, open_] at gone
        obtain ⟨first, last⟩ : 1 ≤ index ∧ index ≤ 11 := by
          simpa only [refuses, Bool.not_eq_false', Bool.and_eq_true, decide_eq_true_eq] using open_
        have worn : w.getInventoryItem p index = some i := gone
        rw [getInventoryItem, if_pos ⟨first, last⟩] at worn
        refine absurd ?_ (unlisted (.player p))
        exact List.mem_filterMap.mpr ⟨index.toNat, mem_slots.mpr (by omega), worn⟩
    | tile pos =>
        cases ht : w.tile pos with
        | none => simp [refuses, ht] at open_
        | some t =>
            rw [displaced_stack hs ht] at gone
            have full : t.itemList.length ≥ 0xFFFF := by
              by_contra room
              simp [room] at gone
            simp only [addThing, tileAddThing, ht, if_pos full]

end Displacing

/-! ### Items know where they lie -/

/-- What lies in a cylinder has it for its parent, or the browse field open on it; a
browse field lies on its tile and lists nothing itself. -/
structure Parented (w : World) : Prop where
  parent : ∀ {c i}, i ∈ w.things c → (w.item i).parent = some c ∨
    ∃ pos r, c = .tile pos ∧ w.browseFields pos = some r ∧
      (w.item i).parent = some (.container r)
  browsed : ∀ {pos r}, w.browseFields pos = some r → w.kindOf r = some .browseField ∧
    (w.item r).parent = some (.tile pos) ∧ w.itemlist r = []

/-- Where the source of a removal is looked for, an item is. -/
theorem Parented.source (h : Parented w) (hi : i ∈ w.things c) (plain : w.getContainer i = none) :
    ∃ p, w.getParent i = some p ∧ w.sourceCylinder p = c := by
  have kind : w.kindOf i = none := by rw [kindOf, plain, Option.map_none]
  have up : w.getParent i = (w.item i).parent := by
    simp [getParent, parentOf, walkFuel, getParentAux, kind]
  rcases h.parent hi with parent | ⟨pos, r, rfl, open_, parent⟩
  · refine ⟨c, up.trans parent, ?_⟩
    unfold sourceCylinder
    split
    · rfl
    · split
      · next r browse =>
          split
          · next e =>
              subst e
              rw [things, (h.browsed browse).2.2] at hi
              simp at hi
          · rfl
      · rfl
  · obtain ⟨field, tile, -⟩ := h.browsed open_
    have above : w.parentOf (.container r) = some (.tile pos) := by
      simp [parentOf, walkFuel, getParentAux, field, tile]
    have top : w.parentOf (.tile pos) = none := by simp [parentOf, walkFuel, getParentAux]
    have some : (w.getContainer r).isSome = true := by
      rw [← Option.isSome_map (f := (·.kind))]
      exact Option.isSome_of_eq_some field
    have lies : w.tileOf (.container r) = Option.some pos := by
      simp only [tileOf, getTile, getTopParent, getParent, above, walkFuel, topParentAux, top, some,
        if_true, Option.getD_some, Option.bind_some]
    refine ⟨.container r, up.trans parent, ?_⟩
    simp only [sourceCylinder, lies, open_, if_true]

theorem kindOf_of_shell {r : ItemRef} (h : (w'.item r).cls.shell = (w.item r).cls.shell) :
    w'.kindOf r = w.kindOf r := by
  have shell := shellOf_congr h
  simp only [shellOf, kindOf] at shell ⊢
  cases hk : w.getContainer r <;> cases hk' : w'.getContainer r <;>
    simp only [hk, hk', Option.map_some, Option.map_none, reduceCtorEq, Option.some.injEq] at shell ⊢
  exact (congrArg Container.kind shell :)

theorem kindOf_congr {r : ItemRef} (h : (w'.item r).stack = (w.item r).stack) :
    w'.kindOf r = w.kindOf r := kindOf_of_shell (Item.shell_of_stack h)

theorem getContainer_of_stack (h : (w'.item i).stack = (w.item i).stack)
    (plain : w.getContainer i = none) : w'.getContainer i = none := by
  rw [← shellOf_isNone] at plain ⊢
  rw [shellOf_congr (Item.shell_of_stack h), plain]

namespace Parented

variable (h : Parented w)
include h

theorem browse_ne (plain : w.getContainer i = none) {pos : Position} {r : ItemRef}
    (browse : w.browseFields pos = some r) : r ≠ i := by
  rintro rfl
  have kind := (h.browsed browse).1
  simp [kindOf, plain] at kind

/-- Where no list changes. -/
theorem kept (things : w'.things = w.things) (homes : Rehomed w w' ∅)
    (kind : ∀ r, (w.getContainer r).isSome = true → w'.kindOf r = w.kindOf r) :
    Parented w' where
  parent {c o} ho := by
    rw [homes.parent o (Set.notMem_empty o), homes.browseFields]
    exact h.parent (things ▸ ho)
  browsed {pos r} browse := by
    rw [homes.browseFields] at browse
    obtain ⟨field, tile, list⟩ := h.browsed browse
    have some : (w.getContainer r).isSome = true := by
      rw [← Option.isSome_map (f := (·.kind))]
      exact Option.isSome_of_eq_some field
    refine ⟨(kind r some).trans field, ?_, ?_⟩
    · rw [homes.parent r (Set.notMem_empty r), tile]
    · exact (congrFun things (.container r)).trans list

theorem added (taken : Added w w' c i) (homes : Rehomed w w' {i})
    (parent : (w'.item i).parent = some c) (plain : w.getContainer i = none)
    (unlisted : ∀ q, i ∉ w.things q) (room : ∀ r, c = .container r → w.kindOf r ≠ some .browseField) :
    Parented w' where
  parent {q o} ho := by
    rw [homes.browseFields]
    rcases taken.put.eq_or_mem ho with ⟨rfl, rfl⟩ | old
    · exact .inl parent
    · have ne : o ∉ ({i} : Set ItemRef) := fun e => unlisted q (Set.mem_singleton_iff.mp e ▸ old)
      rw [homes.parent o ne]
      exact h.parent old
  browsed {pos r} browse := by
    rw [homes.browseFields] at browse
    obtain ⟨field, tile, list⟩ := h.browsed browse
    have ne := h.browse_ne plain browse
    refine ⟨(kindOf_congr (taken.stack r)).trans field, ?_, ?_⟩
    · rw [homes.parent r (Set.mem_singleton_iff.not.mpr ne), tile]
    · have other : Cylinder.container r ≠ c := fun e => room r e.symm field
      exact (taken.put.other _ other).trans list

theorem taken (once : Ledger.Once w.things) (out : Taken w w' c i) (homes : Rehomed w w' {i})
    (plain : w.getContainer i = none) : Parented w' where
  parent {q o} ho := by
    rw [homes.browseFields]
    obtain ⟨old, ne⟩ := (out.took.mem_iff once).mp ho
    rw [homes.parent o (Set.mem_singleton_iff.not.mpr ne)]
    exact h.parent old
  browsed {pos r} browse := by
    rw [homes.browseFields] at browse
    obtain ⟨field, tile, list⟩ := h.browsed browse
    have ne := h.browse_ne plain browse
    refine ⟨(kindOf_congr (out.stack r)).trans field, ?_, ?_⟩
    · rw [homes.parent r (Set.mem_singleton_iff.not.mpr ne), tile]
    · by_cases e : Cylinder.container r = c
      · have mem := out.took.mem
        rw [← e, things, list] at mem
        simp at mem
      · exact (out.took.other _ e).trans list

theorem allocate {x : Item} (hw : WellFormed w) (empty : x.itemlist = []) :
    Parented (w.allocate x) where
  parent {q o} ho := by
    have touched := allocate_touched hw empty
    rw [touched.things] at ho
    have ne : o ∉ ({w.next} : Set ItemRef) := fun e =>
      hw.next_unlisted q (Set.mem_singleton_iff.mp e ▸ ho)
    rw [(w.allocate_rehomed x).parent o ne]
    exact h.parent ho
  browsed {pos r} browse := by
    have touched := allocate_touched hw empty
    obtain ⟨field, tile, list⟩ := h.browsed (show w.browseFields pos = some r from browse)
    have ne : r ≠ w.next := by
      rintro rfl
      simp [kindOf, hw.unused (le_refl _)] at field
    refine ⟨(kindOf_congr (touched.stack r ne)).trans field, ?_, ?_⟩
    · rw [(w.allocate_rehomed x).parent r (Set.mem_singleton_iff.not.mpr ne), tile]
    · exact (congrFun touched.things (.container r)).trans list

end Parented

/-! ### A stack is taken out -/

theorem Typed.found (h : Typed w) (hi : i ∈ w.things c) : w.Found c i := by
  cases c with
  | player p => exact found_player.mpr hi
  | container r => exact found_container.mpr hi
  | tile pos =>
      rw [found_tile]
      cases ht : w.tile pos with
      | none => simp [things, ht] at hi
      | some t =>
          simp only [things, ht, List.mem_append, Option.mem_toList] at hi
          refine ⟨t, rfl, ?_⟩
          rcases hi with ground | list
          · exact .inl ground
          · rw [← t.downItems_append_topItems, List.mem_append] at list
            rcases list with down | top
            · rw [h.down ht down]
              exact .inr down
            · rw [h.top ht top]
              exact .inr top

theorem Typed.not_ground (h : Typed w) (hs : w.isStackable i = true) {pos : Position} {t : Tile}
    (ht : w.tile pos = some t) : t.ground ≠ some i := by
  intro ground
  rw [isStackable_of_ground (h.ground ht ground)] at hs
  simp at hs

/-- Tiles with no more on them than there was. -/
theorem Typed.fewer (h : Typed w) (items : w'.items = w.items)
    (stack : ∀ o, (w'.item o).stack = (w.item o).stack)
    (tile : ∀ {pos t'}, w'.tile pos = some t' → ∃ t, w.tile pos = some t ∧
      t'.ground = t.ground ∧ t'.topItems = t.topItems ∧ t'.downItems ⊆ t.downItems) :
    Typed w' := by
  have type : ∀ o, w'.typeOf o = w.typeOf o := fun o =>
    typeOf_of_id items (Item.id_of_stack (stack o))
  refine ⟨fun o ho => ?_, fun ht' ho => ?_, fun ht' ho => ?_, fun ht' ho => ?_, fun ht' ho => ?_⟩
  · rw [getMagicField_of_stack (stack o)] at ho
    rw [isStackable, type]
    exact h.field o ho
  · obtain ⟨t, ht, ground, -⟩ := tile ht'
    rw [type]
    exact h.ground ht (ground ▸ ho)
  · obtain ⟨t, ht, -, top, -⟩ := tile ht'
    rw [isAlwaysOnTop, type]
    exact h.top ht (top ▸ ho)
  · obtain ⟨t, ht, -, -, down⟩ := tile ht'
    rw [isAlwaysOnTop, type]
    exact h.down ht (down ho)
  · obtain ⟨t, ht, -, top, down⟩ := tile ht'
    rw [type]
    refine h.notGround ht ?_
    rw [← Tile.downItems_append_topItems, List.mem_append] at ho ⊢
    exact ho.imp (fun x => down x) fun x => top ▸ x

theorem removeThing_part_rehomed {m : Nat} (hs : w.isStackable i = true)
    (part : m ≠ w.getItemCount i)
    (hg : ∀ pos t, c = .tile pos → w.tile pos = some t → t.ground ≠ some i) :
    Rehomed w (w.removeThing c i m) ∅ := by
  have top := isAlwaysOnTop_of_stackable hs
  cases c with
  | tile pos =>
      simp only [removeThing, tileRemoveThing]
      split
      · exact .refl _ _
      · next t ht =>
          split
          · exact .refl _ _
          · simp only [hg pos t rfl ht, top, hs, part, if_false, Bool.not_false, Bool.true_and,
              bne_iff_ne, ne_eq, not_false_eq_true, if_true]
            exact w.setItem_rehomed i rfl
  | player p =>
      simp only [removeThing, playerRemoveThing]
      split
      · exact .refl _ _
      · rw [if_pos ⟨hs, part⟩]
        exact w.setItem_rehomed i rfl
  | container r =>
      simp only [removeThing, containerRemoveThing]
      split
      · exact .refl _ _
      · rw [if_pos ⟨hs, part⟩]
        exact w.containerChange_rehomed r i rfl

/-- Of a stack that lies in a cylinder, `m` are taken out. -/
structure Unstacked (w w' : World) (c : Cylinder) (i : ItemRef) (m : Nat) : Prop
    extends Removed w w' c i m where
  typed : Typed w'
  parented : Parented w'
  listed : ∀ {q o}, o ≠ i → o ∈ w.things q → o ∈ w'.things q

theorem removeThing_unstacked {m : Nat} (hw : WellFormed w) (ht : Typed w) (hp : Parented w)
    (hi : i ∈ w.things c) (hs : w.isStackable i = true) (plain : w.getContainer i = none)
    (hm : m ≤ w.getItemCount i) : Unstacked w (w.removeThing c i m) c i m := by
  have found := ht.found hi
  have hg : ∀ pos t, c = .tile pos → w.tile pos = some t → t.ground ≠ some i :=
    fun _ _ _ => ht.not_ground hs
  have removed := removeThing_removed hw found (fun _ => hm) hg
  rw [if_pos hs] at removed
  refine ⟨removed, ?_, ?_, fun ne mem => (removed.found ne (ht.found mem)).mem⟩
  · by_cases part : m = w.getItemCount i
    · have whole : ¬(w.isStackable i = true ∧ m ≠ w.getItemCount i) := fun h => h.2 part
      have taken := w.removeThing_taken found whole
      refine ht.fewer taken.items taken.stack fun {pos t'} htile => ?_
      obtain ⟨t, ht', bare⟩ := removeThing_tile found whole (fun pos t hc h =>
        ⟨hg pos t hc h, isAlwaysOnTop_of_stackable hs⟩) htile
      have ground : t'.ground = _ := (congrArg Tile.ground bare :)
      have top : t'.topItems = _ := (congrArg Tile.topItems bare :)
      have down : t'.downItems = _ := (congrArg Tile.downItems bare :)
      refine ⟨t, ht', ?_⟩
      by_cases here : c = .tile pos
      · subst here
        obtain ⟨t₁, ht₁, place⟩ := found_tile.mp found
        obtain rfl : t = t₁ := Option.some.inj (ht'.symm.trans ht₁)
        rw [isAlwaysOnTop_of_stackable hs] at place
        obtain ⟨down', top'⟩ := Tile.erase_down (place.resolve_left (ht.not_ground hs ht'))
        simp only [Tile.bare, if_true] at ground top down
        refine ⟨ground, top.trans top', ?_⟩
        rw [down]
        exact down' ▸ List.erase_subset
      · simp only [Tile.bare, if_neg here] at ground top down
        exact ⟨ground, top, down ▸ List.Subset.refl _⟩
    · exact (w.removeThing_recounted found hs (lt_of_le_of_ne hm part) hg).1.typed ht
  · by_cases part : m = w.getItemCount i
    · have taken := w.removeThing_taken found fun h => h.2 part
      exact hp.taken hw.once taken (w.removeThing_rehomed c i m) plain
    · have recounted := (w.removeThing_recounted found hs (lt_of_le_of_ne hm part) hg).1
      refine hp.kept recounted.things (removeThing_part_rehomed hs part hg) fun r some => ?_
      have ne : r ≠ i := by
        rintro rfl
        simp [plain] at some
      exact kindOf_congr (recounted.stack r ne)

theorem Kept.parented (h : Kept w w') (homes : Rehomed w w' ∅) (hp : Parented w) : Parented w' :=
  hp.kept h.things homes fun r _ => kindOf_congr (h.stack r)

theorem Unstacked.kept {m : Nat} (h : Unstacked w w' c i m) (h' : Kept w' w'')
    (homes : Rehomed w' w'' ∅) : Unstacked w w'' c i m where
  toStatic := h.toStatic.trans h'.static
  wellFormed := h.wellFormed.kept h'
  stack o ho := (h'.stack o).trans (h.stack o ho)
  id := (h'.id i).trans h.id
  attributes := (Item.attributes_of_stack (h'.stack i)).trans h.attributes
  found ho hf := h'.found.mpr (h.found ho hf)
  total hc id := by
    rw [h'.total]
    exact h.total hc id
  gone single q := by
    rw [h'.things]
    exact h.gone single q
  typed := h'.typed h.typed
  parented := h'.parented homes h.parented
  listed ne mem := by
    rw [h'.things]
    exact h.listed ne mem

end World

namespace Game

open World

variable {g g' g'' : Game} {c : Cylinder} {i o : ItemRef} {index : Int} {flags : Flags} {d : Dest}
  {n id : Nat}

theorem post_rehomed (g : Game) (c : Cylinder) (index : Int) :
    Rehomed g.world (g.post c index).world ∅ := by
  unfold Game.post
  split
  · exact postNotification_rehomed _ _
  · exact .refl _ _

/-- `internalRemoveItem` of `m` units of a stack that lies in a cylinder. -/
theorem Sound.internalRemoveItem {m : Nat} (h : Sound g) (hp : Parented g.world)
    (hi : i ∈ g.world.things c) (hs : g.world.isStackable i = true)
    (plain : (g.world.item i).cls = .item) (pos : 0 < m) (hm : m ≤ g.world.getItemCount i)
    {count : Option Nat} (hc : count.getD (g.world.getItemCount i) = m) :
    Unstacked g.world (g.internalRemoveItem i count).2.world c i m := by
  have noContainer : g.world.getContainer i = none := by
    rw [World.getContainer, Item.getContainer, plain]
  obtain ⟨p, up, source⟩ := hp.source hi noContainer
  have found := h.typed.found hi
  have query : g.world.queryRemove c i m { ignoreNotMoveable := true } = .noError := by
    have index : g.world.getThingIndex c i ≠ -1 := found
    simp [queryRemove, index, pos.ne', not_lt.mpr hm]
  have free : (g.world.item i).canRemove = true := by rw [Item.canRemove, plain]
  simp only [Game.internalRemoveItem, up, source, hc, query, free, ne_eq, not_true_eq_false,
    Bool.not_true, Bool.false_eq_true, if_false]
  refine Unstacked.kept ?_ (post_kept _ _ _) (post_rehomed _ _ _)
  rw [removeThing_world]
  exact removeThing_unstacked h.wellFormed h.typed hp hi hs noContainer hm

/-! ### A stack is added

Stacks of other kinds are left as they are, where they are. -/

/-- The game after stacks of kind `id` were added. -/
structure Spares (id : Nat) (g g' : Game) : Prop where
  next : g.world.next ≤ g'.world.next
  parented : Parented g.world → Parented g'.world
  listed : ∀ {c o}, o ∈ g.world.things c → o ∈ g'.world.things c
  stack : ∀ {o}, o < g.world.next → (g.world.item o).id ≠ id →
    (g'.world.item o).stack = (g.world.item o).stack

namespace Spares

theorem refl (id : Nat) (g : Game) : Spares id g g := ⟨le_refl _, fun h => h, fun h => h, fun _ _ => rfl⟩

theorem trans (h : Spares id g g') (h' : Spares id g' g'') : Spares id g g'' where
  next := h.next.trans h'.next
  parented hp := h'.parented (h.parented hp)
  listed ho := h'.listed (h.listed ho)
  stack ho ne := by
    have same := h.stack ho ne
    have ne' := (Item.id_of_stack same).symm ▸ ne
    exact (h'.stack (lt_of_lt_of_le ho h.next) ne').trans same

theorem kept (h : Kept g.world g'.world) (homes : Rehomed g.world g'.world ∅) : Spares id g g' where
  next := h.next.ge
  parented := h.parented homes
  listed ho := h.things ▸ ho
  stack _ _ := h.stack _

end Spares

/-- A new stack of kind `id`. -/
structure NewStack (id : Nat) (g : Game) (i : ItemRef) : Prop extends New g i where
  stackable : g.world.isStackable i = true
  plain : g.world.getContainer i = none
  id : (g.world.item i).id = id

theorem NewStack.place (h : NewStack id g i)
    (vacant : g.world.displaced c index i = none ∨ g.world.displaced c index i = some i) :
    Spares id g (g.place c index i) := by
  have posted : Spares id (g.addThing c index i) (g.place c index i) :=
    .kept (post_kept _ _ _) (post_rehomed _ _ _)
  refine Spares.trans ?_ posted
  have world := addThing_world (g := g) c index i
  rcases vacant with free | gone
  · have takes := takes_of_displaced h.stackable free
    have added := g.world.addThing_added takes
    obtain ⟨homes, parent⟩ := addThing_parent takes
    have room : ∀ r, c = .container r → g.world.kindOf r ≠ some .browseField := by
      rintro r rfl kind
      obtain ⟨k, hk, other, -⟩ := takes
      rw [kindOf_of_getContainer hk] at kind
      exact other (Option.some.inj kind)
    rw [← world] at added homes parent
    exact ⟨added.next.ge, fun hp => hp.added added homes parent h.plain h.unlisted room,
      fun ho => added.put.mem_of_mem ho, fun _ _ => added.stack _⟩
  · have same : (g.addThing c index i).world = g.world := by
      rw [world, addThing_displaced h.stackable h.unlisted gone]
    exact .kept (by rw [same]) (by rw [same]; exact .refl _ _)

theorem NewStack.addMerge (h : NewStack id g i) (ok : g.world.DestOk d)
    (target : g.world.mergeTarget i d.destItem = some o) (m : Nat) :
    NewStack id (g.addMerge d o (mergeCount (g.world.getItemCount o) m)) i ∧
      Spares id g (g.addMerge d o (mergeCount (g.world.getItemCount o) m)) := by
  obtain ⟨destItem, hs, he⟩ := mergeTarget_some target
  have stack := (equals_stackable he).trans hs
  have merged := h.toNew.addMerge ok target m
  have recounted := g.world.updateThing_recounted
    (g.world.getItemCount o + mergeCount (g.world.getItemCount o) m)
    (ok.target_found destItem stack) stack
  have homes := g.world.updateThing_rehomed d.cylinder o (g.world.item o).id
    (g.world.getItemCount o + mergeCount (g.world.getItemCount o) m)
  rw [← updateThing_world] at recounted homes
  refine ⟨⟨merged.toNew, ?_, getContainer_of_stack merged.stack h.plain,
    (Item.id_of_stack merged.stack).trans h.id⟩, recounted.next, fun hp => ?_,
    fun ho => recounted.things ▸ ho, fun {x} _ other => ?_⟩
  · rw [isStackable_of_id merged.items (Item.id_of_stack merged.stack), h.stackable]
  · refine hp.kept recounted.things homes fun r _ => ?_
    by_cases e : r = o
    · exact kindOf_of_shell (e ▸ recounted.shell)
    · exact kindOf_congr (recounted.stack r e)
  · refine recounted.stack x ?_
    rintro rfl
    exact other ((Item.equals_id he).symm.trans h.id)

theorem Spares.mint {x : Item} (hw : WellFormed g.world) (empty : x.itemlist = []) :
    Spares id g (g.mint x) where
  next := Nat.le_succ _
  parented hp := hp.allocate hw empty
  listed ho := (allocate_touched hw empty).things ▸ ho
  stack ho _ := (allocate_touched hw empty).stack _ ho.ne

theorem NewStack.cloneWith (h : NewStack id g i) (small : n < 256) :
    NewStack id (g.cloneWith i n) g.world.next ∧ Spares id g (g.cloneWith i n) := by
  have cloned := cloneWith_cloned h.wellFormed h.stackable small
  have plain : (g.cloneWith i n).world.getContainer g.world.next = none := by
    rw [World.getContainer, Item.getContainer, cloned.cls]
  refine ⟨⟨h.toNew.cloneWith h.stackable small, ?_, plain, cloned.id.trans h.id⟩,
    .mint h.wellFormed ?_⟩
  · rw [isStackable, typeOf, cloned.id, cloned.touched.items]
    exact h.stackable
  · have empty := itemlist_of_getContainer_none plain
    rw [itemlist] at empty
    simpa [Game.cloneWith, allocate] using empty

/-- Whatever becomes of a new stack, the stacks of other kinds are spared. -/
theorem NewStack.addItemAux {fuel : Nat} (h : NewStack id g i) :
    Spares id g (addItemAux fuel g c i INDEX_WHEREEVER flags false).game := by
  induction fuel generalizing g i flags with
  | zero => exact .refl id g
  | succ fuel ih =>
      by_cases letIn : g.addCheck c i INDEX_WHEREEVER flags = .noError
      · have ok := g.addDest_ok c i INDEX_WHEREEVER flags
        rw [Game.addItemAux]
        simp only [letIn, ne_eq, not_true_eq_false, if_false, Bool.false_eq_true]
        generalize hd : g.addDest c i INDEX_WHEREEVER flags = d at ok ⊢
        cases target : g.world.mergeTarget i d.destItem with
        | none => exact h.place (addDest_vacant h.stackable hd target)
        | some o =>
            have fits : g.world.getItemCount i < 256 := Item.getItemCount_lt _
            have maxLe := Nat.min_le_left (g.world.getItemCount i) (g.addMaxCount c i d).2
            generalize min (g.world.getItemCount i) (g.addMaxCount c i d).2 = m at maxLe ⊢
            obtain ⟨new, merged⟩ := h.addMerge ok target m
            have unmerged := addDest_unmerged (m := m) hd target
            simp only
            generalize mergeCount (g.world.getItemCount o) m = n at new merged unmerged ⊢
            by_cases rest : m - n > 0
            · by_cases part : g.world.getItemCount i = m - n
              · have vacant := displaced_stackable new.stackable d.index
                  (unmerged (by omega) (by omega))
                simp only [rest, part, not_true_eq_false, if_true, if_false]
                exact merged.trans (new.place vacant)
              · obtain ⟨clone, cloned⟩ := new.cloneWith (n := m - n) (by omega)
                simp only [rest, part, not_false_eq_true, if_true, apply_ite AddResult.game,
                  ite_self]
                exact (merged.trans cloned).trans (ih clone)
            · simp only [rest, if_false]
              exact merged.trans (.kept (post_kept _ _ _) (post_rehomed _ _ _))
      · rw [(addItemAux_refused _ false letIn).2]
        exact .refl id g

/-! ### Coins are added -/

theorem Sound.addCoins_spares {s : Coins} (h : Sound g) (minted : Minted g.world.items s.type)
    (c : Cylinder) (flags : Flags) : Spares s.type g (g.addCoins c flags s.type s.count) := by
  obtain ⟨x, create, id, plain, -⟩ := createItem_minted minted
  have noContainer : x.getContainer = none := by rw [Item.getContainer, plain]
  have empty : x.itemlist = [] := by
    rw [Item.itemlist, noContainer]
    rfl
  obtain ⟨new, -⟩ := h.mint empty fun field => by
    rw [Item.getMagicField, plain] at field
    exact absurd field (by decide)
  have object : (g.mint x).world.item g.world.next = x := by simp [Game.mint, allocate]
  have stack : NewStack s.type (g.mint x) g.world.next := by
    refine ⟨new, ?_, ?_, ?_⟩
    · rw [isStackable, typeOf, object, id]
      exact minted.stackable
    · rw [World.getContainer, object, noContainer]
    · rw [object, id]
  have born : Spares s.type g (g.mint x) := .mint h.wellFormed empty
  have mint : g.setWorld (g.world.allocate x) = g.mint x := rfl
  have added : ∀ c flags, Spares s.type g
      ((g.mint x).internalAddItem c g.world.next INDEX_WHEREEVER flags).game :=
    fun c flags => born.trans stack.addItemAux
  simp only [Game.addCoins, create, mint]
  by_cases letIn : (g.mint x).addCheck c g.world.next INDEX_WHEREEVER flags = .noError
  · have ret : ((g.mint x).internalAddItem c g.world.next INDEX_WHEREEVER flags).ret = .noError :=
      (addItemAux_adds new (Nat.lt_add_one _) letIn).ret
    simpa only [ret, ne_eq, not_true_eq_false, if_false] using added c flags
  · have refused : ((g.mint x).internalAddItem c g.world.next INDEX_WHEREEVER flags).ret ≠
          .noError ∧
        ((g.mint x).internalAddItem c g.world.next INDEX_WHEREEVER flags).game = g.mint x :=
      addItemAux_refused _ false letIn
    simp only [refused, ne_eq, not_false_eq_true, if_true]
    cases (g.mint x).world.tileOf c with
    | none => exact born
    | some pos => exact added _ _

/-- A stack of another kind stays where it is, and as it is, whatever coins are added. -/
theorem Sound.addStacks_spares {l : List Coins} (h : Sound g) (coinage : Coinage g.world.items)
    (coins : ∀ s ∈ l, coinWorth s.type ≠ 0) (c : Cylinder) (flags : Flags)
    (hp : Parented g.world) :
    Parented (l.foldl (Coins.addTo c flags) g).world ∧
      ∀ q o, o ∈ g.world.things q → (∀ s ∈ l, (g.world.item o).id ≠ s.type) →
        o ∈ (l.foldl (Coins.addTo c flags) g).world.things q ∧
          ((l.foldl (Coins.addTo c flags) g).world.item o).stack = (g.world.item o).stack := by
  induction l generalizing g with
  | nil => exact ⟨hp, fun q o ho _ => ⟨ho, rfl⟩⟩
  | cons s l ih =>
      have minted := coinage.minted (coins s List.mem_cons_self)
      have spares := h.addCoins_spares minted c flags
      have gained := h.addCoins minted ∅ c flags
      obtain ⟨parented, others⟩ := ih gained.toSound (gained.items ▸ coinage)
        (fun s hs => coins s (List.mem_cons_of_mem _ hs)) (spares.parented hp)
      refine ⟨parented, fun q o ho other => ?_⟩
      have same := spares.stack (h.wellFormed.fresh ho) (other s List.mem_cons_self)
      obtain ⟨listed, stack⟩ := others q o (spares.listed ho) fun t ht => by
        rw [Item.id_of_stack same]
        exact other t (List.mem_cons_of_mem _ ht)
      exact ⟨listed, stack.trans same⟩

end Game

end TibServer
