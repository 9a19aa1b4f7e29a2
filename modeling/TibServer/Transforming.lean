import TibServer.Parents
import TibServer.TileOps

/-!
What `Game::transformItem` leaves as it was. An item is made another one where it lies, is
replaced there, is taken away, or, where the one lies above the creatures of a tile and the other
below, is taken away and added again. The other things of the cylinder stay what they are, in their
order; only an item that is added to a tile again can take the place of another one there.
-/

namespace TibServer

/-! ### Lists -/

namespace ListRest

variable {α : Type*} {l : List α} {a b : α} {p : α → Bool} {n : ℕ}

theorem filter_set (hn : l[n]? = some a) (ha : p a = false) (hb : p b = false) :
    (l.set n b).filter p = l.filter p := by
  induction l generalizing n with
  | nil => rfl
  | cons x l ih =>
      cases n with
      | zero =>
          obtain rfl : x = a := by simpa using hn
          simp [ha, hb]
      | succ n =>
          rw [List.getElem?_cons_succ] at hn
          rw [List.set_cons_succ, List.filter_cons, List.filter_cons, ih hn]

theorem notMem_set (nodup : l.Nodup) (hn : l[n]? = some a) (hab : a ≠ b) : a ∉ l.set n b := by
  induction l generalizing n with
  | nil => simp
  | cons x l ih =>
      obtain ⟨hx, hl⟩ := List.nodup_cons.1 nodup
      cases n with
      | zero =>
          obtain rfl : x = a := by simpa using hn
          simp [hab, hx]
      | succ n =>
          rw [List.getElem?_cons_succ] at hn
          rw [List.set_cons_succ, List.mem_cons]
          rintro (rfl | hmem)
          · exact hx (List.mem_of_getElem? hn)
          · exact ih hl hn hmem

variable [DecidableEq α]

theorem filter_erase (ha : p a = false) : (l.erase a).filter p = l.filter p := by
  induction l with
  | nil => rfl
  | cons x l ih =>
      rw [List.erase_cons]
      split_ifs with hx
      · rw [beq_iff_eq] at hx
        rw [hx, List.filter_cons_of_neg (by simp [ha])]
      · rw [List.filter_cons, List.filter_cons, ih]

theorem idxOf_set (ha : a ∈ l) (hb : b ∉ l) : (l.set (l.idxOf a) b).idxOf b = l.idxOf a := by
  induction l with
  | nil => simp at ha
  | cons x l ih =>
      rw [List.mem_cons, not_or] at hb
      by_cases hx : x = a
      · rw [hx, List.idxOf_cons_self, List.set_cons_zero, List.idxOf_cons_self]
      · have hmem : a ∈ l := (List.mem_cons.1 ha).resolve_left (Ne.symm hx)
        rw [List.idxOf_cons_ne l hx, List.set_cons_succ, List.idxOf_cons_ne _ (Ne.symm hb.1),
          ih hmem hb.2]

end ListRest

/-! ### The things of a cylinder -/

/-- The things of a tile in the order of their indices. -/
def Tile.order (t : Tile) : List (ItemRef ⊕ CreatureId) :=
  (t.ground.toList ++ t.topItems).map .inl ++ t.creatures.map .inr ++ t.downItems.map .inl

namespace World

variable {w w' w'' : World} {c : Cylinder} {item new o : ItemRef} {out : List ItemRef}

def order (w : World) : Cylinder → List (ItemRef ⊕ CreatureId)
  | .tile pos => ((w.tile pos).map Tile.order).getD []
  | .player p => (slots.filterMap (w.player p).inventory).map .inl
  | .container r => (w.itemlist r).map .inl

/-- Whether a thing is none of the items of `out`. -/
def spares (out : List ItemRef) : ItemRef ⊕ CreatureId → Bool
  | .inl i => !out.contains i
  | .inr _ => true

/-- The things of a cylinder that are not in `out`, in their order. -/
def others (w : World) (c : Cylinder) (out : List ItemRef) : List (ItemRef ⊕ CreatureId) :=
  (w.order c).filter (spares out)

/-- The item lies, as far as it knows, in the container `r`. -/
def LiesIn (w : World) (i r : ItemRef) : Prop := (w.item i).parent = some (.container r)

/-- Nothing lies in itself, and the containers that items know are there. -/
structure Nested (w : World) : Prop where
  loopless : ∀ i, ¬ Relation.TransGen w.LiesIn i i
  known : ∀ {i r}, w.LiesIn i r → r < w.next

/-- What hides the container that it lies in. -/
def Hides (w : World) (i : ItemRef) : Prop :=
  (∃ n, w.kindOf i = some (.depotChest n)) ∨ w.kindOf i = some .inbox ∨
    w.kindOf i = some .reward

/-- The items whose weights change with what lies in `c`: it and what it lies in. -/
def Around (w : World) : Cylinder → ItemRef → Prop
  | .container r, o => Relation.ReflTransGen w.LiesIn r o
  | _, _ => False

/-- Between the worlds the things of `c` stay what and where they are, those in `out` aside; of the
items `around`, only what they hold and weigh may change. -/
structure Rest (around : ItemRef → Prop) (out : List ItemRef) (c : Cylinder) (w w' : World) :
    Prop where
  items : w'.items = w.items
  others : w'.others c out = w.others c out
  item : ∀ o, ¬ around o → o ∉ out → w'.item o = w.item o
  parent : ∀ o, around o → (w'.item o).parent = (w.item o).parent
  slot : ∀ p s o, (w.player p).inventory s = some o → o ∉ out →
    (w'.player p).inventory s = some o

namespace Rest

variable {around : ItemRef → Prop}

theorem refl : Rest around out c w w where
  items := rfl
  others := rfl
  item _ _ _ := rfl
  parent _ _ := rfl
  slot _ _ _ h _ := h

theorem trans (h : Rest around out c w w') (h' : Rest around out c w' w'') :
    Rest around out c w w'' where
  items := h'.items.trans h.items
  others := h'.others.trans h.others
  item o ho hout := (h'.item o ho hout).trans (h.item o ho hout)
  parent o ho := (h'.parent o ho).trans (h.parent o ho)
  slot p s o ho hout := h'.slot p s o (h.slot p s o ho hout) hout

end Rest

theorem order_of_bare {t t' : Tile} (h : t'.bare = t.bare) : t'.order = t.order := by
  obtain ⟨ground, itemList, downItemCount, creatures, flags, house⟩ := t
  obtain ⟨ground', itemList', downItemCount', creatures', flags', house'⟩ := t'
  simp only [Tile.bare, Tile.mk.injEq] at h
  obtain ⟨rfl, rfl, rfl, rfl, -, rfl⟩ := h
  rfl

theorem Kept.order (h : Kept w w') : w'.order = w.order := by
  funext c
  cases c with
  | tile pos =>
      have hbare := h.tile pos
      cases ht : w.tile pos with
      | none =>
          rw [ht, Option.map_none, Option.map_eq_none_iff] at hbare
          simp only [World.order, hbare, ht]
      | some t =>
          rw [ht, Option.map_some] at hbare
          obtain ⟨t', ht', hflags⟩ := Option.map_eq_some_iff.1 hbare
          simp only [World.order, ht, ht', Option.map_some, order_of_bare hflags]
  | player p => simp only [World.order, h.inventory]
  | container r => simp only [World.order, h.itemlist]

section Steps

variable {around : ItemRef → Prop}

theorem Kept.rest (h : Kept w w')
    (item : ∀ o, ¬ around o → o ∉ out → w'.item o = w.item o)
    (parent : ∀ o, around o → (w'.item o).parent = (w.item o).parent) :
    Rest around out c w w' where
  items := h.items
  others := by rw [others, others, h.order]
  item := item
  parent := parent
  slot p s o ho _ := by rwa [h.inventory]

theorem postNotification_item (w : World) (c : Cylinder) :
    (w.postNotification c).item = w.item := by
  unfold postNotification
  split
  · unfold updateInventoryWeight
    simp only
    split <;> rfl
  · rfl

theorem postNotification_rest (q : Cylinder) : Rest around out c w (w.postNotification q) :=
  (w.postNotification_kept q).rest (fun o _ _ => by rw [postNotification_item])
    (fun o _ => by rw [postNotification_item])

/-- An item of `out` is changed. -/
theorem setItem_rest {f : Item → Item} (hout : item ∈ out) (hapart : ¬ around item)
    (hlist : ∀ x, (f x).itemlist = x.itemlist) : Rest around out c w (w.setItem item f) where
  items := rfl
  others := by
    have horder : (w.setItem item f).order c = w.order c := by
      cases c with
      | container r => simp only [order, w.setItem_itemlist hlist]
      | _ => rfl
    rw [others, others, horder]
  item o _ ho := by
    rw [setItem_item, if_neg]
    rintro rfl
    exact ho hout
  parent o ho := by
    rw [setItem_item, if_neg]
    rintro rfl
    exact hapart ho
  slot _ _ _ h _ := h

theorem setContainer_other {r : ItemRef} (f : Container → Container) (h : o ≠ r) :
    (w.setContainer r f).item o = w.item o := by
  rw [setContainer, setItem_item, if_neg h]

theorem setContainer_parent (r : ItemRef) (f : Container → Container) :
    ((w.setContainer r f).item o).parent = (w.item o).parent :=
  (setContainer_rehomed w r f).parent o (Set.notMem_empty o)

/-- The walk comes to a container from a container only. -/
theorem getParentAux_container {n : ℕ} {q : Cylinder} {r : ItemRef}
    (h : w.getParentAux n q = some (.container r)) : ∃ i, q = .container i := by
  cases q with
  | tile pos => simp [getParentAux] at h
  | player p => cases htile : (w.player p).tile <;> simp [getParentAux, htile] at h
  | container i => exact ⟨i, rfl⟩

/-- The containers that `getParent` leads to are around the item. -/
theorem getParentAux_inside {n : ℕ} {i r : ItemRef}
    (h : w.getParentAux n (.container i) = some (.container r)) :
    Relation.TransGen w.LiesIn i r := by
  induction n generalizing i r with
  | zero => simp [getParentAux] at h
  | succ n ih =>
      -- the parent of the parent
      have hbind : ∀ {x : ItemRef}, (w.item i).parent.bind (w.getParentAux n) =
          some (.container x) → Relation.TransGen w.LiesIn i x := by
        intro x hx
        obtain ⟨q, hq, hup⟩ := Option.bind_eq_some_iff.1 hx
        obtain ⟨y, rfl⟩ := getParentAux_container hup
        exact .head hq (ih hup)
      simp only [getParentAux] at h
      split at h
      · obtain ⟨q, hq, hup⟩ := Option.bind_eq_some_iff.1 h
        obtain ⟨y, rfl⟩ := getParentAux_container hup
        exact (hbind hq).trans (ih hup)
      · exact hbind h
      · exact hbind h
      · exact .single h

theorem eq_of_sourceCylinder {q : Cylinder} (h : w.sourceCylinder q = c)
    (hoff : ∀ pos, c ≠ .tile pos) : q = c := by
  unfold sourceCylinder at h
  split at h
  · exact h
  · split at h
    · split_ifs at h
      · exact absurd h.symm (hoff _)
      · exact h
    · exact h

theorem getParent_plain (h : ¬ w.Hides item) : w.getParent item = (w.item item).parent := by
  rw [Hides, not_or, not_or, not_exists] at h
  obtain ⟨hchest, hinbox, hreward⟩ := h
  rw [getParent, parentOf, walkFuel, getParentAux]
  split
  · next hkind => exact absurd hkind (hchest _)
  · next hkind => exact absurd hkind hinbox
  · next hkind => exact absurd hkind hreward
  · rfl

theorem getParent_none (h : (w.item item).parent = none) : w.getParent item = none := by
  rw [getParent, parentOf, walkFuel, getParentAux, h]
  split <;> rfl

/-- What lies around something lies around what that lies in. -/
def Closed (around : ItemRef → Prop) (w : World) : Prop :=
  ∀ i r, around i → w.LiesIn i r → around r

theorem Closed.transGen (h : Closed around w) {i r : ItemRef} (hi : around i)
    (hir : Relation.TransGen w.LiesIn i r) : around r := by
  induction hir with
  | single hir => exact h i _ hi hir
  | tail _ hstep ih => exact h _ _ ih hstep

theorem Closed.of_parent (h : Closed around w)
    (hparent : ∀ o, around o → (w'.item o).parent = (w.item o).parent) : Closed around w' := by
  intro i r hi hir
  refine h i r hi ?_
  rwa [LiesIn, ← hparent i hi]

theorem updateItemWeight_item (closed : Closed around w) {r : ItemRef} (hr : around r)
    (diff : BitVec 32) (ho : ¬ around o) : (w.updateItemWeight r diff).item o = w.item o := by
  suffices haux : ∀ n w r, Closed around w → around r →
      (updateItemWeightAux n w r diff).item o = w.item o from haux _ _ _ closed hr
  intro n
  induction n with
  | zero => exact fun _ _ _ _ => rfl
  | succ n ih =>
      intro w r closed hr
      have hne : o ≠ r := by
        rintro rfl
        exact ho hr
      have hhere := @setContainer_other w o r
        (fun k => { k with totalWeight := k.totalWeight + diff }) hne
      have hclosed : Closed around
          (w.setContainer r fun k => { k with totalWeight := k.totalWeight + diff }) :=
        closed.of_parent fun o _ => setContainer_parent r _
      simp only [updateItemWeightAux]
      split
      · next up hup =>
          rw [ih _ up hclosed (hclosed.transGen hr (getParentAux_inside hup)), hhere]
      · exact hhere

theorem updateItemWeight_parent (r : ItemRef) (diff : BitVec 32) :
    ((w.updateItemWeight r diff).item o).parent = (w.item o).parent :=
  (updateItemWeight_rehomed w r diff).parent o (Set.notMem_empty o)

theorem updateItemWeight_rest (closed : Closed around w) {r : ItemRef} (hr : around r)
    (diff : BitVec 32) : Rest around out c w (w.updateItemWeight r diff) :=
  (w.updateItemWeight_kept r diff).rest
    (fun _ ho _ => updateItemWeight_item closed hr diff ho)
    (fun _ _ => updateItemWeight_parent r diff)

/-- The items of `out` are apart from what lies around the cylinder. -/
structure Apart (around : ItemRef → Prop) (out : List ItemRef) (c : Cylinder) (w : World) :
    Prop where
  closed : Closed around w
  self : ∀ r, c = .container r → around r
  out : ∀ o ∈ out, ¬ around o

theorem Apart.of_rest (h : Apart around out c w) (hrest : Rest around out c w w') :
    Apart around out c w' where
  closed := h.closed.of_parent hrest.parent
  self := h.self
  out := h.out

/-! ### Writing a list, a slot, a tile -/

theorem spares_of_mem (h : item ∈ out) : spares out (.inl item) = false := by
  simp [spares, h]

theorem setItemlist_rest {r : ItemRef} {k : Container} {l : List ItemRef}
    (hr : around r) (hk : w.getContainer r = some k)
    (hl : (l.map Sum.inl).filter (spares out) =
      ((w.itemlist r).map Sum.inl).filter (spares out)) :
    Rest around out (.container r) w (w.setItemlist r l) where
  items := rfl
  others := by
    simp only [others, order]
    rw [w.itemlist_setItemlist hk, if_pos rfl, hl]
  item o ho _ := by
    refine setContainer_other _ ?_
    rintro rfl
    exact ho hr
  parent o _ := setContainer_parent r _
  slot _ _ _ h _ := h

theorem setInventory_rest {p : PlayerId} {s : Nat} {i : Option ItemRef}
    (hi : ∀ x ∈ i, x ∈ out) (hold : ∀ x, (w.player p).inventory s = some x → x ∈ out) :
    Rest around out (.player p) w (w.setInventory p s i) where
  items := rfl
  others := by
    simp only [others, order, List.filter_map, List.filter_filterMap,
      setInventory_inventory_self]
    congr 2
    funext s'
    by_cases hs : s' = s
    · subst hs
      rw [Function.update_self]
      have hnone : ∀ j : Option ItemRef, (∀ x ∈ j, x ∈ out) →
          j.filter (spares out ∘ Sum.inl) = none := by
        intro j hj
        cases j with
        | none => rfl
        | some x => simp [Option.filter, spares_of_mem (hj x rfl)]
      rw [hnone i hi, hnone _ hold]
    · rw [Function.update_of_ne hs]
  item _ _ _ := rfl
  parent _ _ := rfl
  slot q s' o ho hout := by
    rw [setInventory_inventory]
    split
    · next hq =>
        subst hq
        rw [Function.update_of_ne]
        · exact ho
        · rintro rfl
          exact hout (hold o ho)
    · exact ho

theorem setTile_rest {pos : Position} {t t' : Tile} (ht : w.tile pos = some t)
    (horder : t'.order.filter (spares out) = t.order.filter (spares out)) :
    Rest around out (.tile pos) w (w.setTile pos t') where
  items := rfl
  others := by
    simp only [others, order, setTile_tile_self, ht, Option.map_some, Option.getD_some, horder]
  item _ _ _ := rfl
  parent _ _ := rfl
  slot _ _ _ h _ := h

/-! ### Updating -/

def retype (w : World) (itemId count : Nat) (x : Item) : Item :=
  w.setSubType (w.setID x itemId) count

theorem retype_itemlist (itemId count : Nat) (x : Item) :
    (w.retype itemId count x).itemlist = x.itemlist :=
  Item.itemlist_of_cls ((w.setSubType_cls _ _).trans (w.setID_cls _ _))

theorem updateThing_kept (found : w.Found c item) (itemId count : Nat) :
    Kept (w.setItem item (w.retype itemId count)) (w.updateThing c item itemId count) := by
  cases c with
  | tile pos =>
      obtain ⟨t, ht, -⟩ := found_tile.mp found
      have hfound : w.tileGetThingIndex pos item ≠ -1 := found
      simp only [updateThing, tileUpdateThing, ht, hfound, if_false]
      refine setFlags_kept _ ht ?_
      rw [setTileFlags_bare, resetTileFlags_bare]
  | player p =>
      have hfound : w.playerGetThingIndex p item ≠ -1 := found
      simp only [updateThing, playerUpdateThing, hfound, if_false]
      exact Kept.refl _
  | container r =>
      have hfound : w.containerGetThingIndex r item ≠ -1 := found
      simp only [updateThing, containerUpdateThing, hfound, if_false]
      exact updateItemWeight_kept _ _ _

theorem Apart.updateThing (h : Apart around out c w) (hout : item ∈ out)
    (found : w.Found c item) (itemId count : Nat) :
    Rest around out c w (w.updateThing c item itemId count) := by
  have hretype : Rest around out c w (w.setItem item (w.retype itemId count)) :=
    setItem_rest hout (h.out item hout) (retype_itemlist itemId count)
  refine hretype.trans ?_
  cases c with
  | tile pos =>
      obtain ⟨t, ht, -⟩ := found_tile.mp found
      have hkept := updateThing_kept found itemId count
      have hfound : w.tileGetThingIndex pos item ≠ -1 := found
      simp only [World.updateThing, tileUpdateThing, ht, hfound, if_false] at hkept ⊢
      exact hkept.rest (fun _ _ _ => rfl) (fun _ _ => rfl)
  | player p =>
      have hfound : w.playerGetThingIndex p item ≠ -1 := found
      simp only [World.updateThing, playerUpdateThing, hfound, if_false]
      exact .refl
  | container r =>
      have hfound : w.containerGetThingIndex r item ≠ -1 := found
      simp only [World.updateThing, containerUpdateThing, hfound, if_false]
      exact updateItemWeight_rest (h.of_rest hretype).closed (h.self r rfl) _

/-! ### Removing -/

theorem filter_map_erase {l : List ItemRef} (h : item ∈ out) :
    ((l.erase item).map Sum.inl).filter (spares out) = (l.map Sum.inl).filter (spares out) := by
  rw [List.filter_map, List.filter_map, ListRest.filter_erase]
  exact spares_of_mem h

theorem others_erase {t : Tile} {top : Bool}
    (hmem : if top then item ∈ t.topItems else item ∈ t.downItems) (hout : item ∈ out) :
    (t.erase top item).order.filter (spares out) = t.order.filter (spares out) := by
  cases top with
  | true =>
      obtain ⟨hdown, htop⟩ := Tile.erase_top hmem
      simp only [Tile.order, Tile.erase_ground, hdown, htop, List.map_append, List.filter_append,
        filter_map_erase hout]
      rfl
  | false =>
      obtain ⟨hdown, htop⟩ := Tile.erase_down hmem
      simp only [Tile.order, Tile.erase_ground, hdown, htop, List.map_append, List.filter_append,
        filter_map_erase hout]
      rfl

theorem others_ground {t : Tile} (hhere : ∀ i ∈ t.ground, i ∈ out) {ground : Option ItemRef}
    (hground : ∀ i ∈ ground, i ∈ out) :
    ({ t with ground } : Tile).order.filter (spares out) = t.order.filter (spares out) := by
  have hnone : ∀ g : Option ItemRef, (∀ i ∈ g, i ∈ out) →
      (g.toList.map Sum.inl).filter (spares out) = [] := by
    intro g hg
    cases g with
    | none => rfl
    | some i => simp [spares_of_mem (hg i rfl)]
  simp only [Tile.order, Tile.topItems, Tile.downItems, List.map_append, List.filter_append,
    hnone _ hhere, hnone _ hground]

theorem order_flags (w w' : World) (t : Tile) (i o : ItemRef) :
    (w'.setTileFlags (w.resetTileFlags t o) i).order = t.order :=
  order_of_bare ((w'.setTileFlags_bare _ _).trans (w.resetTileFlags_bare _ _))

theorem order_resetFlags (w : World) (t : Tile) (i : ItemRef) :
    (w.resetTileFlags t i).order = t.order :=
  order_of_bare (w.resetTileFlags_bare _ _)

theorem order_setFlags (w : World) (t : Tile) (i : ItemRef) :
    (w.setTileFlags t i).order = t.order :=
  order_of_bare (w.setTileFlags_bare _ _)

theorem Apart.setParent (h : Apart around out c w) (hout : item ∈ out) (p : Option Cylinder) :
    Rest around out c w (w.setItem item (·.setParent p)) :=
  setItem_rest hout (h.out item hout) fun _ => rfl

/-- A part of a stack, or all of it, is taken out. -/
theorem Apart.removeThing (h : Apart around out c w) (hout : item ∈ out)
    (found : w.Found c item) (count : Nat) :
    Rest around out c w (w.removeThing c item count) := by
  have hcount : ∀ n, Rest around out c w (w.setItem item (·.setItemCount n)) := fun n =>
    setItem_rest hout (h.out item hout) fun _ => rfl
  cases c with
  | tile pos =>
      obtain ⟨t, ht, hmem⟩ := found_tile.mp found
      have hfound : w.tileGetThingIndex pos item ≠ -1 := found
      simp only [World.removeThing, tileRemoveThing, ht, hfound, if_false, tileErase]
      split
      · next hground =>
          refine (h.setParent hout none).trans (setTile_rest ht ?_)
          rw [order_resetFlags]
          refine others_ground ?_ (by simp)
          rw [hground]
          intro i hi
          rwa [← Option.mem_some_iff.1 hi]
      · next hground =>
          split
          · exact hcount _
          · refine (h.setParent hout none).trans (setTile_rest ht ?_)
            rw [order_resetFlags]
            exact others_erase (hmem.resolve_left hground) hout
  | player p =>
      obtain ⟨s, hs, hinventory, hindex⟩ := playerGetThingIndex_found found
      simp only [World.removeThing, playerRemoveThing, hindex]
      rw [if_neg (by omega)]
      split
      · exact hcount _
      · refine (h.setParent hout none).trans (setInventory_rest (by simp) fun x hx => ?_)
        rw [Int.toNat_natCast] at hx
        obtain rfl : item = x := Option.some.inj (hinventory.symm.trans hx)
        exact hout
  | container r =>
      have hmem := found_container.mp found
      have hfound : w.containerGetThingIndex r item ≠ -1 := found
      simp only [World.removeThing, containerRemoveThing, hfound, if_false]
      split
      · exact (hcount _).trans
          (updateItemWeight_rest (h.of_rest (hcount _)).closed (h.self r rfl) _)
      · have hweighed : Rest around out (.container r) w
            (w.updateItemWeight r (-w.getWeight item)) :=
          updateItemWeight_rest h.closed (h.self r rfl) _
        have hparent := hweighed.trans ((h.of_rest hweighed).setParent hout none)
        refine hparent.trans ?_
        have hkept := (updateItemWeight_kept w r (-w.getWeight item)).trans
          (setParent_kept _ item none)
        rw [← hkept.itemlist r] at hmem
        obtain ⟨k, hk⟩ := getContainer_of_mem hmem
        exact setItemlist_rest (h.self r rfl) hk (filter_map_erase hout)

/-! ### Replacing -/

theorem filter_map_set {l : List ItemRef} {n : ℕ} (hn : l[n]? = some item) (hout : item ∈ out)
    (hnew : new ∈ out) :
    ((l.set n new).map Sum.inl).filter (spares out) = (l.map Sum.inl).filter (spares out) := by
  rw [List.filter_map, List.filter_map, ListRest.filter_set hn]
  · exact spares_of_mem hout
  · exact spares_of_mem hnew

/-- What `replaceAt` makes of a tile, at the index of an item. -/
inductive Replaced (t : Tile) (top : Bool) (item new : ItemRef) : Tile → Prop
  | ground (here : t.ground = some item) : Replaced t top item new { t with ground := some new }
  | top (off : t.ground ≠ some item) (ontop : top = true) (mem : item ∈ t.topItems) :
      Replaced t top item new
        { t with itemList := t.itemList.set (t.downItemCount + t.topItems.idxOf item) new }
  | down (off : t.ground ≠ some item) (below : top = false) (mem : item ∈ t.downItems) :
      Replaced t top item new { t with itemList := t.itemList.set (t.downItems.idxOf item) new }

theorem getElem?_topItems (t : Tile) (n : ℕ) :
    t.itemList[t.downItemCount + n]? = t.topItems[n]? := by
  rw [Tile.topItems, List.getElem?_drop]

theorem getTopItemCount_eq (t : Tile) : t.getTopItemCount = t.topItems.length := by
  rw [Tile.getTopItemCount, Tile.topItems, List.length_drop]

/-- Behind the ground, the index counts the top items, the creatures and the down items. -/
theorem replaceAt_behind {t : Tile} {m n : ℕ} (off : t.ground = none ∨ 0 < n)
    (hn : n = t.ground.toList.length + m) :
    t.replaceAt n new =
      if m < t.getTopItemCount then
        t.itemList[t.downItemCount + m]?.map fun o =>
          (o, { t with itemList := t.itemList.set (t.downItemCount + m) new })
      else if m - t.getTopItemCount < t.creatures.length then none
      else if m - t.getTopItemCount - t.creatures.length < t.downItemCount then
        t.itemList[m - t.getTopItemCount - t.creatures.length]?.map fun o =>
          (o, { t with
            itemList := t.itemList.set (m - t.getTopItemCount - t.creatures.length) new })
      else none := by
  have hm : n - t.ground.toList.length = m := by omega
  unfold Tile.replaceAt
  cases hground : t.ground with
  | none =>
      rw [hground] at hm
      simp only [hm]
  | some g =>
      rw [hground] at hm
      cases n with
      | zero => simp [hground] at off
      | succ n => simp only [hm]

theorem replaceAt_replaced {t : Tile} {top : Bool} (h : t.getThingIndex top item ≠ -1) :
    ∃ u, t.replaceAt (t.getThingIndex top item).toNat new = some (item, u) ∧
      Replaced t top item new u := by
  have hmem := Tile.getThingIndex_ne.mp h
  by_cases hground : t.ground = some item
  · refine ⟨_, ?_, .ground hground⟩
    simp [Tile.getThingIndex, Tile.replaceAt, hground]
  · replace hmem := hmem.resolve_left hground
    have hlength : (if t.ground.isSome then 1 else 0 : Int) = t.ground.toList.length := by
      cases t.ground <;> rfl
    have hoff : ∀ m : ℕ, t.ground = none ∨ 0 < t.ground.toList.length + m := by
      intro m
      cases hground : t.ground with
      | none => exact .inl rfl
      | some g => exact .inr (by simp only [Option.toList_some, List.length_singleton]; omega)
    have htops := getTopItemCount_eq t
    cases top with
    | true =>
        replace hmem : item ∈ t.topItems := hmem
        have hindex := List.idxOf_lt_length_of_mem hmem
        have hvalue : (t.getThingIndex true item).toNat =
            t.ground.toList.length + t.topItems.idxOf item := by
          rw [Tile.getThingIndex, if_neg hground, if_pos rfl, if_pos hmem, hlength]
          omega
        refine ⟨_, ?_, .top hground rfl hmem⟩
        rw [hvalue, replaceAt_behind (hoff _) rfl, if_pos (by omega), getElem?_topItems,
          List.getElem?_idxOf hmem, Option.map_some]
    | false =>
        replace hmem : item ∈ t.downItems := hmem
        have hindex := List.idxOf_lt_length_of_mem hmem
        have hdowns := t.downItems_length_le
        have hvalue : (t.getThingIndex false item).toNat = t.ground.toList.length +
            (t.getTopItemCount + t.creatures.length + t.downItems.idxOf item) := by
          rw [Tile.getThingIndex, if_neg hground, if_neg Bool.false_ne_true, if_pos hmem, hlength]
          omega
        refine ⟨_, ?_, .down hground rfl hmem⟩
        have hplace : t.getTopItemCount + t.creatures.length + t.downItems.idxOf item -
            t.getTopItemCount - t.creatures.length = t.downItems.idxOf item := by omega
        have hhere : t.itemList[t.downItems.idxOf item]? = some item := by
          rw [← t.downItems_append_topItems, List.getElem?_append_left hindex,
            List.getElem?_idxOf hmem]
        rw [hvalue, replaceAt_behind (hoff _) rfl, if_neg (by omega), if_neg (by omega), hplace,
          if_pos (by omega), hhere, Option.map_some]

theorem set_top (t : Tile) (m : ℕ) :
    ({ t with itemList := t.itemList.set (t.downItemCount + m) new } : Tile).downItems =
        t.downItems ∧
      ({ t with itemList := t.itemList.set (t.downItemCount + m) new } : Tile).topItems =
        t.topItems.set m new := by
  constructor
  · rw [Tile.downItems, Tile.downItems, List.take_set_of_le (Nat.le_add_right _ _)]
  · unfold Tile.topItems
    dsimp only
    rw [List.drop_set, if_neg (by omega), Nat.add_sub_cancel_left]

theorem set_down (t : Tile) {m : ℕ} (hm : m < t.downItemCount) :
    ({ t with itemList := t.itemList.set m new } : Tile).downItems = t.downItems.set m new ∧
      ({ t with itemList := t.itemList.set m new } : Tile).topItems = t.topItems := by
  constructor
  · rw [Tile.downItems, Tile.downItems, List.take_set]
  · rw [Tile.topItems, Tile.topItems, List.drop_set, if_pos hm]

namespace Replaced

variable {t u : Tile} {top : Bool} (h : Replaced t top item new u)
include h

theorem others (hout : item ∈ out) (hnew : new ∈ out) :
    u.order.filter (spares out) = t.order.filter (spares out) := by
  cases h with
  | ground here =>
      refine others_ground (fun i hi => ?_) (by simp [hnew])
      rw [here] at hi
      rwa [← Option.mem_some_iff.1 hi]
  | top off ontop mem =>
      obtain ⟨hdown, htop⟩ := @set_top new t (t.topItems.idxOf item)
      simp only [Tile.order, hdown, htop, List.map_append, List.filter_append,
        filter_map_set (List.getElem?_idxOf mem) hout hnew]
  | down off below mem =>
      have hindex := List.idxOf_lt_length_of_mem mem
      have hdowns := t.downItems_length_le
      obtain ⟨hdown, htop⟩ := @set_down new t _ (hindex.trans_le hdowns)
      simp only [Tile.order, hdown, htop, List.map_append, List.filter_append,
        filter_map_set (List.getElem?_idxOf mem) hout hnew]

/-- The new item is found where the old one was. -/
theorem getThingIndex (hnew : new ∉ t.things) :
    u.getThingIndex top new = t.getThingIndex top item := by
  have hground : ∀ {g : Option ItemRef}, t.ground = g → g ≠ some new := by
    rintro g rfl hg
    exact hnew (List.mem_append_left _ (by simp [hg]))
  have hlist : new ∉ t.itemList := fun hmem => hnew (List.mem_append_right _ hmem)
  rw [← t.downItems_append_topItems, List.mem_append, not_or] at hlist
  cases h with
  | ground here => simp [Tile.getThingIndex, here]
  | top off ontop mem =>
      obtain ⟨hdown, htop⟩ := @set_top new t (t.topItems.idxOf item)
      have hindex := List.idxOf_lt_length_of_mem mem
      have hmem : new ∈ t.topItems.set (t.topItems.idxOf item) new := List.mem_set hindex new
      simp only [Tile.getThingIndex, htop, ontop, if_true, off, if_false, hground rfl, mem, hmem,
        ListRest.idxOf_set mem hlist.2]
  | down off below mem =>
      have hindex := List.idxOf_lt_length_of_mem mem
      have hdowns := t.downItems_length_le
      obtain ⟨hdown, htop⟩ := @set_down new t _ (hindex.trans_le hdowns)
      have hmem : new ∈ t.downItems.set (t.downItems.idxOf item) new := List.mem_set hindex new
      simp only [Tile.getThingIndex, Tile.getTopItemCount, List.length_set, hdown, below, off,
        if_false, Bool.false_eq_true, hground rfl, mem, hmem, if_true,
        ListRest.idxOf_set mem hlist.1]

theorem swapped : Swapped t item new u := by
  cases h with
  | ground here => exact .ground here
  | top off ontop mem =>
      exact .item (by rw [getElem?_topItems, List.getElem?_idxOf mem])
  | down off below mem =>
      refine .item ?_
      rw [← t.downItems_append_topItems,
        List.getElem?_append_left (List.idxOf_lt_length_of_mem mem), List.getElem?_idxOf mem]

end Replaced

theorem Apart.replaceThing (h : Apart around out c w) (hout : item ∈ out) (hnew : new ∈ out)
    (found : w.Found c item) :
    Rest around out c w (w.replaceThing c (w.getThingIndex c item).toNat new) := by
  cases c with
  | tile pos =>
      obtain ⟨t, ht, -⟩ := found_tile.mp found
      have hindex : w.getThingIndex (.tile pos) item =
          t.getThingIndex (w.isAlwaysOnTop item) item := by
        simp only [World.getThingIndex, tileGetThingIndex, ht]
      obtain ⟨u, hu, hreplaced⟩ := @replaceAt_replaced item new t (w.isAlwaysOnTop item)
        (by rw [← hindex]; exact found)
      simp only [World.replaceThing, tileReplaceThing, ht, hindex, hu]
      have hparent := h.setParent hnew (some (.tile pos))
      refine hparent.trans ?_
      have htile : Rest around out (.tile pos) (w.setItem new (·.setParent (some (.tile pos))))
          ((w.setItem new (·.setParent (some (.tile pos)))).setTile pos
            ((w.setItem new (·.setParent (some (.tile pos)))).setTileFlags
              ((w.setItem new (·.setParent (some (.tile pos)))).resetTileFlags u item) new)) := by
        refine setTile_rest ht ?_
        rw [order_flags]
        exact hreplaced.others hout hnew
      exact htile.trans (((h.of_rest hparent).of_rest htile).setParent hout none)
  | player p =>
      obtain ⟨s, hs, hinventory, hindex⟩ := playerGetThingIndex_found found
      have hhere : w.getInventoryItem p s = some item := by
        rw [getInventoryItem, if_pos (by have := mem_slots.mp hs; omega), Int.toNat_natCast,
          hinventory]
      simp only [World.replaceThing, World.getThingIndex, hindex, playerReplaceThing,
        Int.toNat_natCast, hhere]
      refine (h.setParent hnew _).trans (setInventory_rest ?_ ?_)
      · intro x hx
        rwa [← Option.mem_some_iff.1 hx]
      · intro x hx
        obtain rfl : item = x := Option.some.inj (hinventory.symm.trans hx)
        exact hout
  | container r =>
      have hmem := found_container.mp found
      have hindex : (w.getThingIndex (.container r) item).toNat = (w.itemlist r).idxOf item := by
        simp only [World.getThingIndex, containerGetThingIndex, indexIn, hmem, if_true,
          Int.toNat_natCast]
      obtain ⟨k, hk⟩ := getContainer_of_mem hmem
      have hhere := List.getElem?_idxOf hmem
      simp only [World.replaceThing, containerReplaceThing, hindex, hhere]
      have hlist := setItemlist_rest (h.self r rfl) hk (filter_map_set hhere hout hnew)
      have hparent := hlist.trans ((h.of_rest hlist).setParent hnew (some (.container r)))
      refine hparent.trans ?_
      have hthere := h.of_rest hparent
      exact (updateItemWeight_rest hthere.closed (h.self r rfl) _).trans
        ((hthere.of_rest (updateItemWeight_rest hthere.closed (h.self r rfl) _)).setParent hout
          none)

/-- The new item lies at the index of the old one, which lies nowhere. -/
structure Supplanted (w w' : World) (c : Cylinder) (item new : ItemRef) : Prop where
  there : new ∈ w'.things c
  gone : ∀ q, item ∉ w'.things q
  index : w.isAlwaysOnTop new = w.isAlwaysOnTop item →
    w'.getThingIndex c new = w.getThingIndex c item

theorem Supplanted.kept (h : Supplanted w w' c item new) (hkept : Kept w' w'') :
    Supplanted w w'' c item new where
  there := by
    rw [hkept.things]
    exact h.there
  gone := by
    rw [hkept.things]
    exact h.gone
  index htop := by
    rw [hkept.getThingIndex]
    exact h.index htop

/-- What a list of things becomes, while the other cylinders keep theirs. -/
theorem gone_of_things (once : Ledger.Once w.things) (hmem : item ∈ w.things c)
    (hother : ∀ q, q ≠ c → w'.things q = w.things q) (hhere : item ∉ w'.things c) :
    ∀ q, item ∉ w'.things q := by
  intro q hq
  by_cases hqc : q = c
  · subst hqc
    exact hhere hq
  · rw [hother q hqc] at hq
    exact hqc (once.place hq hmem)

theorem things_tile {pos : Position} {t : Tile} (ht : w.tile pos = some t) :
    w.things (.tile pos) = t.things := by
  simp only [things, ht]
  rfl

theorem things_of_bare {t t' : Tile} (h : t'.bare = t.bare) : t'.things = t.things := by
  obtain ⟨ground, itemList, downItemCount, creatures, flags, house⟩ := t
  obtain ⟨ground', itemList', downItemCount', creatures', flags', house'⟩ := t'
  simp only [Tile.bare, Tile.mk.injEq] at h
  obtain ⟨rfl, rfl, rfl, rfl, -, rfl⟩ := h
  rfl

theorem setTile_setTile {pos : Position} {t t' : Tile} {f : Item → Item} :
    ((w.setTile pos t).setItem o f).setTile pos t' = (w.setItem o f).setTile pos t' := by
  simp only [setTile, setItem, Function.update_idem]

theorem replaceThing_supplanted (once : Ledger.Once w.things) (found : w.Found c item)
    (hnew : ∀ q, new ∉ w.things q) :
    Supplanted w (w.replaceThing c (w.getThingIndex c item).toNat new) c item new := by
  have hne : item ≠ new := by
    rintro rfl
    exact hnew c found.mem
  cases c with
  | tile pos =>
      obtain ⟨t, ht, -⟩ := found_tile.mp found
      have hindex : w.getThingIndex (.tile pos) item =
          t.getThingIndex (w.isAlwaysOnTop item) item := by
        simp only [World.getThingIndex, tileGetThingIndex, ht]
      obtain ⟨u, hu, hreplaced⟩ := @replaceAt_replaced item new t (w.isAlwaysOnTop item)
        (by rw [← hindex]; exact found)
      have hfresh : new ∉ t.things := by
        rw [← things_tile ht]
        exact hnew _
      have hnodup : t.things.Nodup := by
        rw [← things_tile ht]
        exact once.nodup _
      obtain ⟨rest, hbefore, hafter⟩ := hreplaced.swapped.perm
      have hitem : item ∉ rest := (List.nodup_cons.1 (hbefore.nodup_iff.1 hnodup)).1
      have hplaced : Supplanted w (w.setTile pos u) (.tile pos) item new := by
        have hthings : (w.setTile pos u).things (.tile pos) = u.things :=
          things_tile (w.setTile_tile_self pos u)
        refine ⟨?_, gone_of_things once found.mem (fun q hq => w.setTile_things pos u hq) ?_, ?_⟩
        · rw [hthings]
          exact hafter.mem_iff.2 List.mem_cons_self
        · rw [hthings]
          intro hmem
          rcases List.mem_cons.1 (hafter.mem_iff.1 hmem) with heq | hmem
          · exact hne heq
          · exact hitem hmem
        · intro htop
          have hnewIndex : (w.setTile pos u).getThingIndex (.tile pos) new =
              u.getThingIndex (w.isAlwaysOnTop new) new := by
            simp only [World.getThingIndex, tileGetThingIndex, setTile_tile_self]
            rfl
          rw [hnewIndex, hindex, htop]
          exact hreplaced.getThingIndex hfresh
      refine hplaced.kept ?_
      simp only [World.replaceThing, tileReplaceThing, ht, hindex, hu]
      refine Kept.trans ?_ (setParent_kept _ item none)
      rw [← @setTile_setTile w new pos u]
      refine (setParent_kept (w.setTile pos u) new (some (.tile pos))).trans
        (setFlags_kept _ (w.setTile_tile_self pos u) ?_)
      rw [setTileFlags_bare, resetTileFlags_bare]
  | player p =>
      obtain ⟨s, hs, hinventory, hindex⟩ := playerGetThingIndex_found found
      have hhere : w.getInventoryItem p s = some item := by
        rw [getInventoryItem, if_pos (by have := mem_slots.mp hs; omega), Int.toNat_natCast,
          hinventory]
      have hother : ∀ s' ∈ slots, s' ≠ s → (w.player p).inventory s' ≠ some item := by
        intro s' hs' hss hx
        have htaken := w.setInventory_taken hs hinventory
        have hstill : item ∈ (w.setInventory p s none).things (.player p) := by
          refine List.mem_filterMap.2 ⟨s', hs', ?_⟩
          rw [setInventory_inventory_self, Function.update_of_ne hss, hx]
        exact htaken.took.unlisted once hstill
      simp only [World.replaceThing, hindex, World.getThingIndex, playerReplaceThing,
        Int.toNat_natCast, hhere]
      have hthere : new ∈ ((w.setItem new (·.setParent (some (.player p)))).setInventory p s
          (some new)).things (.player p) := List.mem_filterMap.2 ⟨s, hs, by simp⟩
      refine ⟨hthere, gone_of_things once found.mem (fun q hq => ?_) ?_, fun _ => ?_⟩
      · rw [setInventory_things _ p s _ hq, (setParent_kept w new _).things]
      · intro hmem
        obtain ⟨s', hs', hx⟩ := List.mem_filterMap.1 hmem
        rw [setInventory_inventory_self] at hx
        by_cases hss : s' = s
        · subst hss
          rw [Function.update_self] at hx
          exact hne (Option.some.inj hx).symm
        · rw [Function.update_of_ne hss] at hx
          exact hother s' hs' hss hx
      · obtain ⟨s', hs', hx, hnewIndex⟩ := playerGetThingIndex_found (found_player.2 hthere)
        rw [setInventory_inventory_self] at hx
        by_cases hss : s' = s
        · rw [hss] at hnewIndex
          exact hnewIndex.trans hindex.symm
        · rw [Function.update_of_ne hss] at hx
          exact absurd (List.mem_filterMap.2 ⟨s', hs', hx⟩) (hnew (.player p))
  | container r =>
      have hmem := found_container.mp found
      have hindex : (w.getThingIndex (.container r) item).toNat = (w.itemlist r).idxOf item := by
        simp only [World.getThingIndex, containerGetThingIndex, indexIn, hmem, if_true,
          Int.toNat_natCast]
      obtain ⟨k, hk⟩ := getContainer_of_mem hmem
      have hhere := List.getElem?_idxOf hmem
      have hfresh : new ∉ w.itemlist r := hnew (.container r)
      have hplaced : Supplanted w
          (w.setItemlist r ((w.itemlist r).set ((w.itemlist r).idxOf item) new)) (.container r)
          item new := by
        have hthings := w.setItemlist_things hk ((w.itemlist r).set ((w.itemlist r).idxOf item) new)
        have hlt := List.idxOf_lt_length_of_mem hmem
        refine ⟨?_, gone_of_things once found.mem (fun q hq => ?_) ?_, fun _ => ?_⟩
        · rw [hthings, Function.update_self]
          exact List.mem_set hlt new
        · rw [hthings, Function.update_of_ne hq]
        · rw [hthings, Function.update_self]
          exact ListRest.notMem_set (once.nodup (.container r)) hhere hne
        · simp only [World.getThingIndex, containerGetThingIndex, indexIn,
            w.itemlist_setItemlist hk, if_true, hmem, List.mem_set hlt new,
            ListRest.idxOf_set hmem hfresh]
      refine hplaced.kept ?_
      simp only [World.replaceThing, containerReplaceThing, hindex, hhere]
      exact (((setParent_kept _ new _).trans (updateItemWeight_kept _ _ _)).trans
        (setParent_kept _ item none))

/-! ### Adding -/

theorem filter_insertTop (l : List ItemRef) (hout : item ∈ out) :
    ((w.insertTop item l).map Sum.inl).filter (spares out) =
      (l.map Sum.inl).filter (spares out) := by
  induction l with
  | nil => simp [insertTop, spares_of_mem hout]
  | cons o l ih =>
      rw [insertTop]
      split
      · rw [List.map_cons, List.filter_cons_of_neg (by simp [spares_of_mem hout])]
      · rw [List.map_cons, List.map_cons, List.filter_cons, List.filter_cons, ih]

theorem others_insertTop (w : World) (t : Tile) (hout : item ∈ out) :
    ({ t with itemList := t.downItems ++ w.insertTop item t.topItems } : Tile).order.filter
      (spares out) = t.order.filter (spares out) := by
  by_cases hfull : t.downItems.length = t.downItemCount
  · have hdown : ({ t with itemList := t.downItems ++ w.insertTop item t.topItems } :
        Tile).downItems = t.downItems := List.take_left' hfull
    have htop : ({ t with itemList := t.downItems ++ w.insertTop item t.topItems } :
        Tile).topItems = w.insertTop item t.topItems := List.drop_left' hfull
    simp only [Tile.order, hdown, htop, List.map_append, List.filter_append,
      filter_insertTop _ hout]
  · -- the vector is shorter than its part of down items
    have hle := t.downItems_length_le
    have hnone : t.topItems = [] := by
      have hlength : t.downItems.length = min t.downItemCount t.itemList.length :=
        List.length_take
      exact List.drop_of_length_le (by omega)
    have hdown : ({ t with itemList := t.downItems ++ w.insertTop item t.topItems } :
        Tile).downItems = t.downItems ++ [item] := by
      rw [hnone, insertTop]
      refine List.take_of_length_le ?_
      rw [List.length_append, List.length_singleton]
      dsimp only
      omega
    have htop : ({ t with itemList := t.downItems ++ w.insertTop item t.topItems } :
        Tile).topItems = [] := by
      rw [hnone, insertTop]
      refine List.drop_of_length_le ?_
      rw [List.length_append, List.length_singleton]
      dsimp only
      omega
    simp only [Tile.order, hdown, htop]
    simp [hnone, spares_of_mem hout]

theorem others_cons (t : Tile) (hout : item ∈ out) :
    ({ t with itemList := item :: t.itemList, downItemCount := t.downItemCount + 1 } :
      Tile).order.filter (spares out) = t.order.filter (spares out) := by
  simp only [Tile.order, Tile.topItems, Tile.downItems, List.drop_succ_cons, List.take_succ_cons,
    List.map_append, List.map_cons, List.filter_append, List.filter_cons, spares_of_mem hout,
    Bool.false_eq_true, if_false]

theorem tileInsert_rest {pos : Position} {t : Tile} (ht : w.tile pos = some t)
    (hout : item ∈ out)
    (hground : (w.typeOf item).isGroundTile = true → ∀ g ∈ t.ground, g ∈ out) :
    Rest around out (.tile pos) w (w.tileInsert pos item) ∧
      item ∈ (w.tileInsert pos item).things (.tile pos) := by
  simp only [tileInsert, ht]
  split
  · next htype =>
      refine ⟨setTile_rest ht ?_, ?_⟩
      · rw [order_setFlags]
        exact others_ground (hground htype) (by simp [hout])
      · rw [things_tile (setTile_tile_self _ _ _), things_of_bare (w.setTileFlags_bare _ _)]
        simp [Tile.things]
  · split
    · refine ⟨setTile_rest ht ?_, ?_⟩
      · rw [order_setFlags]
        exact others_insertTop w t hout
      · rw [things_tile (setTile_tile_self _ _ _), things_of_bare (w.setTileFlags_bare _ _)]
        simp [Tile.things, (w.insertTop_perm item t.topItems).mem_iff]
    · refine ⟨setTile_rest ht ?_, ?_⟩
      · rw [order_setFlags]
        exact others_cons t hout
      · rw [things_tile (setTile_tile_self _ _ _), things_of_bare (w.setTileFlags_bare _ _)]
        simp [Tile.things]

theorem setParent_parent (p : Option Cylinder) :
    ((w.setItem item (·.setParent p)).item item).parent = p := by
  rw [setItem_item, if_pos rfl]
  rfl

theorem removeThing_parent {count : ℕ} (found : w.Found c item)
    (whole : ¬(w.isStackable item = true ∧ count ≠ w.getItemCount item)) :
    ((w.removeThing c item count).item item).parent = none := by
  cases c with
  | tile pos =>
      obtain ⟨t, ht, -⟩ := found_tile.mp found
      have hfound : w.tileGetThingIndex pos item ≠ -1 := found
      simp only [World.removeThing, tileRemoveThing, ht, hfound, if_false, tileErase]
      split
      · exact setParent_parent none
      · split
        · next hpart =>
            simp only [Bool.and_eq_true, bne_iff_ne] at hpart
            exact absurd ⟨hpart.1.2, hpart.2⟩ whole
        · exact setParent_parent none
  | player p =>
      have hfound : w.playerGetThingIndex p item ≠ -1 := found
      simp only [World.removeThing, playerRemoveThing, hfound, if_false, whole]
      exact setParent_parent none
  | container r =>
      have hfound : w.containerGetThingIndex r item ≠ -1 := found
      simp only [World.removeThing, containerRemoveThing, hfound, if_false, whole]
      rw [setItemlist, setContainer_parent]
      exact setParent_parent none

/-- An item that is added lies in the cylinder afterwards, or nowhere. -/
structure AddedFront (around : ItemRef → Prop) (out : List ItemRef) (c : Cylinder) (item : ItemRef)
    (w w' : World) : Prop where
  rest : Rest around out c w w'
  stack : (w'.item item).stack = (w.item item).stack
  placed : item ∈ w'.things c ∧ (w'.item item).parent = some c ∨
    (∀ q, item ∉ w'.things q) ∧ (w'.item item).parent = none

theorem setParent_stack (p : Option Cylinder) :
    ((w.setItem item (·.setParent p)).item o).stack = (w.item o).stack :=
  (setParent_kept w item p).stack o

theorem tileRemoveThing_other (pos : Position) (count : ℕ) (h : o ≠ item) :
    (w.tileRemoveThing pos item count).item o = w.item o := by
  have hset : ∀ f, (w.setItem item f).item o = w.item o := fun f => by
    rw [setItem_item, if_neg h]
  unfold tileRemoveThing
  split
  · rfl
  · split
    · rfl
    · split
      · exact hset (·.setParent none)
      · split
        · exact hset _
        · exact hset (·.setParent none)

theorem replacedItem_mem {t : Tile} (h : w.replacedItem t item = some o) : o ∈ t.things := by
  unfold replacedItem at h
  simp only at h
  rw [Tile.things, ← t.downItems_append_topItems]
  simp only [List.mem_append, Option.mem_toList]
  split_ifs at h
  · exact .inl h
  · exact .inr (.inr (List.mem_of_find?_eq_some h))
  · exact .inr (.inl (List.mem_of_find?_eq_some h))

theorem Apart.tileAddThing {pos : Position} (h : Apart around out (.tile pos) w)
    (hout : item ∈ out) (unlisted : ∀ q, item ∉ w.things q)
    (hparent : (w.item item).parent = none)
    (displaced : ∀ t o, w.tile pos = some t → w.replacedItem t item = some o → o ∈ out) :
    AddedFront around out (.tile pos) item w (w.tileAddThing pos item) := by
  unfold World.tileAddThing
  cases ht : w.tile pos with
  | none => exact ⟨.refl, rfl, .inr ⟨unlisted, hparent⟩⟩
  | some t =>
      simp only
      split
      · exact ⟨.refl, rfl, .inr ⟨unlisted, hparent⟩⟩
      have hlinked := h.setParent hout (some (.tile pos))
      have hfaces : ∀ x, (w.setItem item (·.setParent (some (.tile pos)))).face x = w.face x :=
        setParent_face _
      rw [replacedItem_of_face hfaces]
      have hthere := h.of_rest hlinked
      have hlinkedParent := @setParent_parent w item (some (.tile pos))
      have hlinkedStack := @setParent_stack w item item (some (.tile pos))
      have hlinkedThings := (setParent_kept w item (some (.tile pos))).things
      have hlinkedTile : (w.setItem item (·.setParent (some (.tile pos)))).tile pos = some t := ht
      generalize w.setItem item (·.setParent (some (.tile pos))) = w₁ at *
      cases hreplaced : w.replacedItem t item with
      | none =>
          have hbare : (w₁.typeOf item).isGroundTile = true → ∀ g ∈ t.ground, g ∈ out := by
            intro hground g hg
            rw [typeOf_of_face (hfaces item)] at hground
            rw [replacedItem, if_pos hground] at hreplaced
            rw [hreplaced] at hg
            exact absurd hg (Option.not_mem_none g)
          obtain ⟨hrest, hmem⟩ := tileInsert_rest hlinkedTile hout hbare
          refine ⟨hlinked.trans hrest, ?_, .inl ⟨hmem, ?_⟩⟩
          · rw [tileInsert_item, hlinkedStack]
          · rw [tileInsert_item, hlinkedParent]
      | some o =>
          have hdisplaced := displaced t o ht hreplaced
          have hne : o ≠ item := by
            rintro rfl
            refine unlisted (.tile pos) ?_
            rw [things_tile ht]
            exact replacedItem_mem hreplaced
          simp only
          split
          · next hground =>
              rw [typeOf_of_face (hfaces item)] at hground
              have hhere : t.ground = some o := by
                rwa [replacedItem, if_pos hground] at hreplaced
              have hoff := hthere.setParent hdisplaced none
              refine ⟨(hlinked.trans hoff).trans (setTile_rest hlinkedTile ?_), ?_,
                .inl ⟨?_, ?_⟩⟩
              · rw [order_flags]
                refine others_ground (fun g hg => ?_) (by simp [hout])
                rw [hhere] at hg
                rwa [← Option.mem_some_iff.1 hg]
              · change ((w₁.setItem o (·.setParent none)).item item).stack = _
                rw [setParent_stack, hlinkedStack]
              · rw [things_tile (setTile_tile_self _ _ _),
                  things_of_bare ((setTileFlags_bare _ _ _).trans (resetTileFlags_bare _ _ _))]
                simp [Tile.things]
              · change ((w₁.setItem o (·.setParent none)).item item).parent = _
                rw [setItem_item, if_neg hne.symm, hlinkedParent]
          · next hground =>
              split
              · refine ⟨hlinked.trans (hthere.setParent hout none), ?_,
                  .inr ⟨?_, setParent_parent none⟩⟩
                · rw [setParent_stack, hlinkedStack]
                rw [(setParent_kept w₁ item none).things, hlinkedThings]
                exact unlisted
              · rw [typeOf_of_face (hfaces item)] at hground
                have hremoved : Rest around out (.tile pos) w₁ (w₁.tileRemoveThing pos o 1) := by
                  by_cases hfound : w₁.Found (.tile pos) o
                  · exact hthere.removeThing hdisplaced hfound 1
                  · rw [show w₁.tileRemoveThing pos o 1 = w₁ from
                      removeThing_not_found _ 1 (not_not.1 hfound)]
                    exact .refl
                have hsame : (w₁.tileRemoveThing pos o 1).item item = w₁.item item :=
                  tileRemoveThing_other pos 1 hne.symm
                obtain ⟨t', ht'⟩ : ∃ t', (w₁.tileRemoveThing pos o 1).tile pos = some t' := by
                  rcases tileRemoveThing_turned (i := o) hlinkedTile 1 with
                    ⟨-, ht'⟩ | ⟨u, -, -, ht'⟩
                  · exact ⟨_, ht'⟩
                  · exact ⟨_, ht'⟩
                have hoff := hremoved.trans ((hthere.of_rest hremoved).setParent hdisplaced none)
                have hfaces' := (tileRemoveThing_faces (i := o) hlinkedTile 1).2 item
                generalize w₁.tileRemoveThing pos o 1 = w₂ at *
                have htile : (w₂.setItem o (·.setParent none)).tile pos = some t' := ht'
                obtain ⟨hrest, hmem⟩ := tileInsert_rest htile hout fun htype => by
                  rw [typeOf_of_face (setParent_face none item), typeOf_of_face hfaces',
                    typeOf_of_face (hfaces item)] at htype
                  exact absurd htype hground
                refine ⟨(hlinked.trans hoff).trans hrest, ?_, .inl ⟨hmem, ?_⟩⟩
                · rw [tileInsert_item, setParent_stack, hsame, hlinkedStack]
                · rw [tileInsert_item, setItem_item, if_neg hne.symm, hsame, hlinkedParent]

theorem Apart.containerAddThing {r : ItemRef} (h : Apart around out (.container r) w)
    (hout : item ∈ out) (unlisted : ∀ q, item ∉ w.things q)
    (hparent : (w.item item).parent = none) :
    AddedFront around out (.container r) item w (w.containerAddThing r 0 item) := by
  have hnone : AddedFront around out (.container r) item w w :=
    ⟨.refl, rfl, .inr ⟨unlisted, hparent⟩⟩
  unfold World.containerAddThing
  cases hk : w.getContainer r with
  | none => exact hnone
  | some k =>
      simp only
      split
      · exact hnone
      · next hroom =>
          have hkind : w.kindOf r = some k.kind := kindOf_of_getContainer hk
          by_cases hbrowse : k.kind = .browseField
          · rw [hbrowse] at hkind
            simpa only [pushFront, hkind] using hnone
          have hadded := w.pushFront_added (i := item) hkind hbrowse
          have hlinked := h.setParent hout (some (.container r))
          have hthere := h.of_rest hlinked
          have hlinkedParent := @setParent_parent w item (some (.container r))
          have hkept := setParent_kept w item (some (.container r))
          have hlist : ∃ k', (w.setItem item (·.setParent (some (.container r)))).getContainer r =
              some k' := by
            obtain ⟨k', hk', -⟩ := Option.map_eq_some_iff.1
              ((kindOf_congr (hkept.stack r)).trans hkind)
            exact ⟨k', hk'⟩
          obtain ⟨k', hk'⟩ := hlist
          have hfilter : ((item :: w.itemlist r).map Sum.inl).filter (spares out) =
              (((w.setItem item (·.setParent (some (.container r)))).itemlist r).map
                Sum.inl).filter (spares out) := by
            rw [hkept.itemlist, List.map_cons,
            List.filter_cons_of_neg (by simp [spares_of_mem hout])]
          have hlisted := setItemlist_rest (h.self r rfl) hk' hfilter
          have hthere' := hthere.of_rest hlisted
          refine ⟨?_, hadded.stack item, .inl ⟨hadded.put.mem, ?_⟩⟩
          · unfold pushFront
            rw [hkind]
            split
            · exact .refl
            · exact .refl
            · exact (hlinked.trans hlisted).trans
                (updateItemWeight_rest hthere'.closed (h.self r rfl) _)
          · have htaken := (@addThing_parent w (.container r) item 0
              ⟨k, hk, hbrowse, not_le.1 hroom⟩).2
            simpa only [addThing, World.containerAddThing, hk, hroom, if_false] using htaken

theorem Apart.addThingFront (h : Apart around out c w)
    (hout : item ∈ out) (unlisted : ∀ q, item ∉ w.things q)
    (hparent : (w.item item).parent = none)
    (displaced : ∀ pos t o, c = .tile pos → w.tile pos = some t → w.replacedItem t item = some o →
      o ∈ out) :
    AddedFront around out c item w (w.addThingFront c item) := by
  cases c with
  | tile pos => exact h.tileAddThing hout unlisted hparent fun t o => displaced pos t o rfl
  | player p => exact ⟨.refl, rfl, .inr ⟨unlisted, hparent⟩⟩
  | container r => exact h.containerAddThing hout unlisted hparent

end Steps

/-! ### What a transformation is to do -/

/-- The id that `Item::CreateItem` gives to an object of a type. -/
def createdAs (w : World) (type : ℕ) : ℕ :=
  if classOf (w.items.type type) = .item then createdId type else type

structure Detached (w : World) (i : ItemRef) : Prop where
  parent : (w.item i).parent = none
  unlisted : ∀ q, i ∉ w.things q

/-- Of the items on a tile, the one that an item added to it as one of `newId` takes the place
of. -/
def Displaces (w : World) (c : Cylinder) (item : ItemRef) (newId : ℕ) (o : ItemRef) : Prop :=
  ∃ pos t, c = .tile pos ∧ w.tile pos = some t ∧ o ∈ t.things ∧ o ≠ item ∧
    w.isAlwaysOnTop item ≠ (w.items.type newId).alwaysOnTop ∧
    ((w.items.type newId).isGroundTile = true ∧ t.ground = some o ∨
      (w.items.type newId).alwaysOnTop = true ∧ (w.items.type newId).isSplash = true ∧
        (w.typeOf o).isSplash = true ∨
      (w.items.type newId).alwaysOnTop = false ∧ (w.items.type newId).isMagicField = true ∧
        (w.item o).getMagicField = true)

end World

/-- Every type that is in the table has the id under which it is found there. -/
def SelfNumbered (items : Items) : Prop := ∀ id, (items.type id).id ≠ 0 → (items.type id).id = id

/-- What the item `r` that is returned has become: it is the item as it was, or one of `newId`, or
of what the old type decays to when the last charge is used up. Objects that are made new get the
id `made`. -/
def Becomes (made : ℕ → ℕ) (g g' : Game) (item r : ItemRef) (newId : ℕ) (newCount : ℤ) : Prop :=
  (g' = g ∧ r = item) ∨ (g'.world.item r).id = newId ∨
    (r ≠ item ∧ (g'.world.item r).id = made newId) ∨
    (r ≠ item ∧ newCount = 0 ∧ (g.world.item item).hasAttribute .charges = true ∧
      (g.world.item item).id = newId ∧
      (g'.world.item r).id = made ((g.world.typeOf item).decayTo % 65536).toNat)

/-- `transformItem` on an item of the cylinder `c`, with what is returned and the game
afterwards. -/
structure Transforms (made : ℕ → ℕ) (displaced : List ItemRef) (g : Game) (c : Cylinder)
    (item : ItemRef) (newId : ℕ) (newCount : ℤ) (r : Option ItemRef) (g' : Game) : Prop where
  unchanged : ∀ o ∈ g.world.things c, o ≠ item → o ∉ displaced →
    g'.world.item o = g.world.item o
  order : g'.world.others c (item :: r.toList ++ displaced) =
    g.world.others c (item :: r.toList ++ displaced)
  slots : ∀ p, c = .player p → ∀ s ∈ slots, ∀ o, (g.world.player p).inventory s = some o →
    o ≠ item → o ∉ displaced → (g'.world.player p).inventory s = some o
  there : ∀ i ∈ r, i ∈ g'.world.things c
  index : ∀ i ∈ r, g'.world.isAlwaysOnTop i = g.world.isAlwaysOnTop item →
    g'.world.getThingIndex c i = g.world.getThingIndex c item
  becomes : ∀ i ∈ r, Becomes made g g' item i newId newCount
  replaced : ∀ i ∈ r, i ≠ item → g'.world.Detached item
  null : r = none → g' = g ∨ g'.world.Detached item ∨
    (g.world.Hides item ∧ ∃ pos, c = .tile pos ∧ (g.world.browseFields pos).isSome)

namespace World

variable {w w' : World} {c : Cylinder} {item o : ItemRef} {out : List ItemRef}

section Around

variable (hw : WellFormed w) (hp : Parented w) (hn : Nested w)
include hp hn

theorem not_around (ho : o ∈ w.things c) : ¬ w.Around c o := by
  intro haround
  cases c with
  | tile pos => exact haround
  | player p => exact haround
  | container r =>
      rcases hp.parent ho with hparent | ⟨pos, r', hc, -⟩
      · exact hn.loopless o (.head' hparent haround)
      · exact Cylinder.noConfusion hc

include hw

omit hp in
theorem next_not_around (hi : item ∈ w.things c) : ¬ w.Around c w.next := by
  intro haround
  cases c with
  | tile pos => exact haround
  | player p => exact haround
  | container r =>
      rcases Relation.ReflTransGen.cases_tail haround with heq | ⟨x, -, hx⟩
      · obtain ⟨k, hk⟩ := @getContainer_of_mem w r item hi
        rw [hw.unused heq.le] at hk
        exact Option.some_ne_none k hk.symm
      · exact Nat.lt_irrefl _ (hn.known hx)

theorem apart (hi : item ∈ w.things c) (hout : ∀ o ∈ out, o ∈ w.things c ∨ o = w.next) :
    Apart (w.Around c) out c w where
  closed i r hir hr := by
    cases c with
    | tile pos => exact hir
    | player p => exact hir
    | container r => exact .tail hir hr
  self r hr := by
    subst hr
    exact .refl
  out o ho := by
    rcases hout o ho with ho | rfl
    · exact not_around hp hn ho
    · exact next_not_around hw hn hi

end Around

/-! ### A new object -/

theorem constructItem_parent (type count : ℕ) (cls : ItemClass) :
    (w.constructItem type count cls).parent = none := by
  simp only [constructItem, apply_ite Item.parent, Item.setIntAttr_parent]
  simp [Item.setItemCount]

theorem classOf_itemlist (it : ItemType) {i : Item} (h : i.cls = classOf it) :
    i.itemlist = [] := by
  unfold classOf at h
  split_ifs at h <;> simp [Item.itemlist, Item.getContainer, h]

theorem createItem_spec {type count : ℕ} {x : Item} (h : w.createItem type count = some x) :
    x.id = w.createdAs type ∧ x.parent = none ∧ x.itemlist = [] := by
  unfold createItem at h
  rw [createdAs]
  simp only at h
  generalize (if (w.items.type type).stackable && count == 0 then 1 else count) = count' at h
  split at h
  · exact absurd h.symm (Option.some_ne_none x)
  split at h
  · exact absurd h.symm (Option.some_ne_none x)
  split at h
  · next hclass =>
      obtain rfl := Option.some.inj h
      rw [if_pos hclass, constructItem_id]
      exact ⟨rfl, constructItem_parent _ _ _,
        classOf_itemlist _ ((constructItem_cls _ _ _ _).trans hclass.symm)⟩
  · next hclass =>
      obtain rfl := Option.some.inj h
      rw [if_neg hclass, constructItem_id]
      exact ⟨rfl, constructItem_parent _ _ _, classOf_itemlist _ (constructItem_cls _ _ _ _)⟩

theorem allocate_rest {around : ItemRef → Prop} {x : Item} (hw : WellFormed w)
    (hout : w.next ∈ out) (hapart : ¬ around w.next) (empty : x.itemlist = []) :
    Rest around out c w (w.allocate x) where
  items := rfl
  others := by
    have hthings := (allocate_touched hw empty).things
    have horder : (w.allocate x).order c = w.order c := by
      cases c with
      | container r => exact congrArg (List.map Sum.inl) (congrFun hthings (.container r))
      | _ => rfl
    rw [others, others, horder]
  item o _ ho := by
    refine Function.update_of_ne ?_ _ _
    rintro rfl
    exact ho hout
  parent o ho := by
    have hne : o ≠ w.next := by
      rintro rfl
      exact hapart ho
    simp only [allocate, Function.update_of_ne hne]
  slot _ _ _ h _ := h

theorem allocate_index {x : Item} (hw : WellFormed w) (empty : x.itemlist = [])
    (hne : item ≠ w.next) :
    (w.allocate x).getThingIndex c item = w.getThingIndex c item := by
  have hthings := (allocate_touched hw empty).things
  cases c with
  | tile pos =>
      simp only [getThingIndex, tileGetThingIndex, isAlwaysOnTop, typeOf, allocate,
        Function.update_of_ne hne]
  | player p => rfl
  | container r =>
      have hlist : (w.allocate x).itemlist r = w.itemlist r := congrFun hthings (.container r)
      simp only [getThingIndex, containerGetThingIndex, hlist]

theorem setItemlist_id (r : ItemRef) (l : List ItemRef) :
    ((w.setItemlist r l).item o).id = (w.item o).id :=
  Item.id_of_stack (w.setItemlist_stack r l o)

theorem replaceThing_id {new : ItemRef} (index : ℕ) :
    ((w.replaceThing c index new).item o).id = (w.item o).id := by
  have hparent : ∀ (w' : World) (i : ItemRef) (p : Option Cylinder),
      ((w'.setItem i (·.setParent p)).item o).id = (w'.item o).id := fun w' i p =>
    Item.id_of_stack ((setParent_kept w' i p).stack o)
  cases c with
  | tile pos =>
      simp only [replaceThing, tileReplaceThing]
      split
      · rfl
      · split
        · rfl
        · rw [hparent]
          exact hparent w new _
  | player p =>
      simp only [replaceThing, playerReplaceThing]
      split
      · rfl
      · exact hparent w new _
  | container r =>
      simp only [replaceThing, containerReplaceThing]
      split
      · rfl
      · rw [hparent, Item.id_of_stack ((updateItemWeight_kept _ _ _).stack o), hparent,
          setItemlist_id]

/-! ### An item changed where it lies -/

section Change

variable {f : Item → Item}

theorem setItem_things (hlist : ∀ x, (f x).itemlist = x.itemlist) :
    (w.setItem item f).things = w.things := by
  funext q
  cases q with
  | container r => exact w.setItem_itemlist hlist r
  | _ => rfl

theorem setItem_getThingIndex (hlist : ∀ x, (f x).itemlist = x.itemlist)
    (htop : (w.items.type (f (w.item item)).id).alwaysOnTop = w.isAlwaysOnTop item) :
    (w.setItem item f).getThingIndex c item = w.getThingIndex c item := by
  cases c with
  | tile pos =>
      have hsame : (w.setItem item f).isAlwaysOnTop item = w.isAlwaysOnTop item := by
        rw [isAlwaysOnTop, typeOf, setItem_item, if_pos rfl]
        exact htop
      simp only [getThingIndex, tileGetThingIndex, setItem_tile, hsame]
  | player p => rfl
  | container r =>
      have hsame : (w.setItem item f).itemlist r = w.itemlist r := w.setItem_itemlist hlist r
      simp only [getThingIndex, containerGetThingIndex, hsame]

theorem setDefaultSubtype_id (i : Item) : (Game.setDefaultSubtype w.items i).id = i.id := by
  unfold Game.setDefaultSubtype
  simp only
  split_ifs <;> rfl

theorem setDefaultSubtype_itemlist (i : Item) :
    (Game.setDefaultSubtype w.items i).itemlist = i.itemlist := by
  unfold Game.setDefaultSubtype
  simp only
  split_ifs <;> rfl

end Change

end World

namespace Game

open World

variable {g g' : Game} {c : Cylinder} {item : ItemRef} {newId : ℕ} {newCount : ℤ}
  {made : ℕ → ℕ} {displaced : List ItemRef}

theorem post_item (g : Game) (q : Cylinder) (index : ℤ) :
    (g.post q index).world.item = g.world.item := by
  unfold post
  split
  · exact postNotification_item g.world q
  · rfl

theorem post_rest {around : ItemRef → Prop} {out : List ItemRef} (g : Game) (q : Cylinder)
    (index : ℤ) : Rest around out c g.world (g.post q index).world := by
  unfold post
  split
  · exact postNotification_rest q
  · exact .refl

section Branches

variable (hw : WellFormed g.world) (hp : Parented g.world) (hn : Nested g.world)
  (hi : item ∈ g.world.things c)

theorem transforms_self : Transforms made displaced g c item newId newCount none g where
  unchanged _ _ _ _ := rfl
  order := rfl
  slots _ _ _ _ _ h _ _ := h
  there := by simp
  index := by simp
  becomes := by simp
  replaced := by simp
  null _ := .inl rfl

include hi in
theorem transforms_kept : Transforms made displaced g c item newId newCount (some item) g where
  unchanged _ _ _ _ := rfl
  order := rfl
  slots _ _ _ _ _ h _ _ := h
  there i h := by
    rwa [← Option.mem_some_iff.1 h]
  index i h _ := by
    rw [← Option.mem_some_iff.1 h]
  becomes i h := .inl ⟨rfl, (Option.mem_some_iff.1 h).symm⟩
  replaced i h hne := absurd (Option.mem_some_iff.1 h).symm hne
  null h := absurd h (Option.some_ne_none item)

include hp hn in
/-- What a `Rest` says about the things of the cylinder. -/
theorem transforms_of_rest {r : Option ItemRef} (hw : WellFormed g.world)
    (hrest : Rest (g.world.Around c) (item :: r.toList ++ displaced) c g.world g'.world)
    (hr : ∀ i ∈ r, i = item ∨ i = g.world.next)
    (there : ∀ i ∈ r, i ∈ g'.world.things c)
    (index : ∀ i ∈ r, g'.world.isAlwaysOnTop i = g.world.isAlwaysOnTop item →
      g'.world.getThingIndex c i = g.world.getThingIndex c item)
    (becomes : ∀ i ∈ r, Becomes made g g' item i newId newCount)
    (replaced : ∀ i ∈ r, i ≠ item → g'.world.Detached item)
    (null : r = none → g' = g ∨ g'.world.Detached item ∨
      (g.world.Hides item ∧ ∃ pos, c = .tile pos ∧ (g.world.browseFields pos).isSome)) :
    Transforms made displaced g c item newId newCount r g' := by
  have hold : ∀ o ∈ g.world.things c, o ≠ item → o ∉ r := by
    intro o ho hne hmem
    rcases hr o hmem with heq | rfl
    · exact hne heq
    · exact hw.next_unlisted c ho
  refine ⟨fun o ho hne hd => ?_, hrest.others, fun p hc s hs o ho hne hd => ?_, there, index,
    becomes, replaced, null⟩
  · refine hrest.item o (not_around hp hn ho) ?_
    rw [List.cons_append, List.mem_cons, List.mem_append, Option.mem_toList]
    rintro (heq | hmem | hmem)
    · exact hne heq
    · exact hold o ho hne hmem
    · exact hd hmem
  · subst hc
    have hmem : o ∈ g.world.things (.player p) := List.mem_filterMap.2 ⟨s, hs, ho⟩
    refine hrest.slot p s o ho ?_
    rw [List.cons_append, List.mem_cons, List.mem_append, Option.mem_toList]
    rintro (heq | hr' | hd')
    · exact hne heq
    · exact hold o hmem hne hr'
    · exact hd hd'

include hw hp hn hi in
theorem removed_transforms {parent : Cylinder} (hparent : g.world.getParent item = some parent)
    (hsource : g.world.sourceCylinder parent = c) :
    Transforms made [] g c item newId newCount none (g.internalRemoveItem item).2 := by
  unfold internalRemoveItem
  simp only [hparent, hsource, Option.getD_none]
  split
  · exact transforms_self
  · next hqueried =>
      rw [not_not] at hqueried
      split
      · exact transforms_self
      · rw [if_neg Bool.false_ne_true]
        have hfound : g.world.Found c item := by
          intro hnot
          rw [queryRemove, if_pos hnot] at hqueried
          exact absurd hqueried (by decide)
        have hwhole : ¬(g.world.isStackable item = true ∧
            g.world.getItemCount item ≠ g.world.getItemCount item) := fun h => h.2 rfl
        have htaken := g.world.removeThing_taken hfound hwhole
        have hrest := (@apart _ c item [item] hw hp hn hi (by simpa using .inl hi)).removeThing
          List.mem_cons_self hfound (g.world.getItemCount item)
        have hnone := removeThing_parent hfound hwhole
        refine transforms_of_rest hp hn hw ?_ (by simp) (by simp) (by simp) (by simp) (by simp)
          fun _ => .inr (.inl ?_)
        · refine Rest.trans ?_ (post_rest _ _ _)
          rw [removeThing_world]
          exact hrest
        · refine ⟨?_, fun q => ?_⟩
          · rw [post_item, removeThing_world, hnone]
          · rw [(post_kept _ c _).things, removeThing_world]
            exact htaken.took.unlisted hw.once

include hw hp hn hi in
theorem created_transforms {type count : ℕ} (hfound : g.world.Found c item)
    (htype : type = newId ∨ newCount = 0 ∧ (g.world.item item).hasAttribute .charges = true ∧
      (g.world.item item).id = newId ∧ type = ((g.world.typeOf item).decayTo % 65536).toNat) :
    Transforms g.world.createdAs [] g c item newId newCount
      (g.createAndReplace c (g.world.getThingIndex c item) item type count).1
      (g.createAndReplace c (g.world.getThingIndex c item) item type count).2 := by
  unfold createAndReplace
  cases hnew : g.world.createItem type count with
  | none => exact transforms_self
  | some x =>
      obtain ⟨hid, -, hempty⟩ := createItem_spec hnew
      have hne : item ≠ g.world.next := by
        rintro rfl
        exact hw.next_unlisted c hi
      have hapart := @apart _ c item [item, g.world.next] hw hp hn hi (by
        simpa using .inl hi)
      have hallocated : Rest (g.world.Around c) [item, g.world.next] c g.world
          (g.world.allocate x) :=
        allocate_rest hw (by simp) (next_not_around hw hn hi) hempty
      have htouched := allocate_touched hw hempty
      have hw' := hw.touched htouched
      have hindex := @allocate_index g.world c item x hw hempty hne
      have hfound' : (g.world.allocate x).Found c item := htouched.found hfound
      have hfresh : ∀ q, g.world.next ∉ (g.world.allocate x).things q := by
        rw [htouched.things]
        exact hw.next_unlisted
      have hnewOut : g.world.next ∈ [item, g.world.next] := by simp
      have hreplaced := (hapart.of_rest hallocated).replaceThing List.mem_cons_self hnewOut hfound'
      have hsupplanted := replaceThing_supplanted hw'.once hfound' hfresh
      rw [hindex] at hreplaced hsupplanted
      have hnewId := @replaceThing_id (g.world.allocate x) c g.world.next g.world.next
        (g.world.getThingIndex c item).toNat
      simp only [replaceItem, setWorld_world, replaceThing_world]
      generalize (g.world.allocate x).replaceThing c (g.world.getThingIndex c item).toNat
        g.world.next = w₂ at *
      -- what the notifications and the parent of the old item leave
      have hposted := w₂.postNotification_kept c
      have hlast := (hposted.trans (setParent_kept _ item none)).trans (postNotification_kept _ c)
      have hthere := hsupplanted.kept hlast
      have hapart₂ := (hapart.of_rest hallocated).of_rest hreplaced
      have hrest := ((hallocated.trans hreplaced).trans
        (postNotification_rest c)).trans (((hapart₂.of_rest (postNotification_rest c)).setParent
          List.mem_cons_self none).trans (postNotification_rest c))
      have hlastId : ∀ i, (((w₂.postNotification c).setItem item
          (·.setParent none)).postNotification c |>.item i).id = (w₂.item i).id := fun i =>
        Item.id_of_stack (hlast.stack i)
      have hborn : (g.world.allocate x).item g.world.next = x := Function.update_self _ _ _
      have hkept : (g.world.allocate x).item item = g.world.item item :=
        Function.update_of_ne hne _ _
      refine transforms_of_rest hp hn hw hrest ?_ ?_ ?_ ?_ ?_ ?_
      · exact fun i h => .inr (Option.mem_some_iff.1 h).symm
      · intro i h
        rw [← Option.mem_some_iff.1 h]
        exact hthere.there
      · intro i h htop
        rw [← Option.mem_some_iff.1 h] at htop ⊢
        refine (hthere.index ?_).trans hindex
        rw [isAlwaysOnTop_of_id hallocated.items.symm (by rw [hkept])] at htop
        rw [← htop]
        refine (isAlwaysOnTop_of_id (hrest.items.trans hallocated.items.symm) ?_).symm
        rw [hlastId, hnewId]
      · intro i h
        rw [← Option.mem_some_iff.1 h]
        have hmade : (((w₂.postNotification c).setItem item
            (·.setParent none)).postNotification c |>.item g.world.next).id =
            g.world.createdAs type := by
          rw [hlastId, hnewId, hborn, hid]
        rcases htype with rfl | ⟨hcount, hcharges, hsame, rfl⟩
        · exact .inr (.inr (.inl ⟨hne.symm, hmade⟩))
        · exact .inr (.inr (.inr ⟨hne.symm, hcount, hcharges, hsame, hmade⟩))
      · intro _ _ _
        refine ⟨?_, hthere.gone⟩
        rw [setWorld_world, postNotification_item]
        exact setParent_parent none
      · exact fun h => absurd h (Option.some_ne_none _)

omit hw hp hn hi in
theorem eq_of_numbered (hnumbered : SelfNumbered g.world.items)
    (hknown : (g.world.items.type newId).id ≠ 0)
    (hids : (g.world.typeOf item).id = (g.world.items.type newId).id) :
    (g.world.item item).id = newId := by
  rw [← hnumbered newId hknown, ← hids, typeOf]
  refine (hnumbered _ ?_).symm
  rw [← typeOf, hids]
  exact hknown

include hw hp hn hi in
theorem updated_transforms (hfound : g.world.Found c item) (hnumbered : SelfNumbered g.world.items)
    (hknown : (g.world.items.type newId).id ≠ 0)
    (htop : (g.world.typeOf item).alwaysOnTop = (g.world.items.type newId).alwaysOnTop)
    (count : ℤ) :
    Transforms made [] g c item newId newCount (some item)
      (g.updateType c (g.world.getThingIndex c item) item newId count) := by
  have hapart := @apart _ c item [item, item] hw hp hn hi (by simpa using .inl hi)
  have hposted : Rest (g.world.Around c) [item, item] c g.world (g.world.postNotification c) :=
    postNotification_rest c
  have hkept := g.world.postNotification_kept c
  unfold updateType
  simp only [setWorld_world]
  generalize hg₂ : (if (g.world.typeOf item).id ≠ (g.world.items.type newId).id ∧
      (g.world.items.type newId).group ≠ (g.world.typeOf item).group then _ else _ : Game) = g₂
  have hdefault : Rest (g.world.Around c) [item, item] c g.world g₂.world ∧
      g₂.world.things = g.world.things ∧ (g₂.world.item item).id = (g.world.item item).id ∧
      g₂.world.getThingIndex c item = g.world.getThingIndex c item := by
    subst hg₂
    split
    · refine ⟨hposted.trans (setItem_rest List.mem_cons_self
        ((hapart.of_rest hposted).out item List.mem_cons_self) setDefaultSubtype_itemlist),
        (setItem_things setDefaultSubtype_itemlist).trans hkept.things, ?_,
        (setItem_getThingIndex setDefaultSubtype_itemlist ?_).trans (hkept.getThingIndex c item)⟩
      · rw [setWorld_world, setItem_item, if_pos rfl, setDefaultSubtype_id, hkept.id]
      · rw [setDefaultSubtype_id]
        rfl
    · exact ⟨hposted, hkept.things, hkept.id item, hkept.getThingIndex c item⟩
  obtain ⟨hrest, hthings, hid, hindex⟩ := hdefault
  have hfound₂ : g₂.world.Found c item := by
    rw [Found, hindex]
    exact hfound
  generalize hitemId : (if (g.world.typeOf item).id ≠ (g.world.items.type newId).id then newId
    else (g₂.world.item item).id) = itemId
  have hnewId : itemId = newId := by
    subst hitemId
    split_ifs with hsame
    · rfl
    · rw [hid]
      exact eq_of_numbered hnumbered hknown (not_not.1 hsame)
  subst hnewId
  generalize (if count ≠ -1 ∧ (g.world.items.type itemId).hasSubType then (count % 65536).toNat
    else _ : ℕ) = n
  have hupdated := (hapart.of_rest hrest).updateThing List.mem_cons_self hfound₂ itemId n
  have hretyped := updateThing_kept hfound₂ itemId n
  have hpost := post_kept (g₂.updateThing c item itemId n) c (g.world.getThingIndex c item)
  have hpostRest : Rest (g.world.Around c) [item, item] c
      (g₂.updateThing c item itemId n).world _ :=
    post_rest (g₂.updateThing c item itemId n) c (g.world.getThingIndex c item)
  rw [updateThing_world] at hpost hpostRest
  have hlast := hretyped.trans hpost
  have hretypedId : (g₂.world.retype itemId n (g₂.world.item item)).id = itemId := by
    rw [retype, setSubType_id, setID_id]
  refine transforms_of_rest hp hn hw ((hrest.trans hupdated).trans hpostRest) ?_ ?_ ?_ ?_ ?_ ?_
  · exact fun i h => .inl (Option.mem_some_iff.1 h).symm
  · intro i h
    rw [← Option.mem_some_iff.1 h, hlast.things,
      setItem_things (retype_itemlist itemId n), hthings]
    exact hi
  · intro i h _
    rw [← Option.mem_some_iff.1 h, hlast.getThingIndex,
      setItem_getThingIndex (retype_itemlist itemId n), hindex]
    rw [hretypedId, hrest.items, ← htop, isAlwaysOnTop, typeOf, typeOf, hrest.items, hid]
  · intro i h
    rw [← Option.mem_some_iff.1 h]
    refine .inr (.inl ?_)
    rw [hlast.id, setItem_item, if_pos rfl, hretypedId]
  · exact fun i h hne => absurd (Option.mem_some_iff.1 h).symm hne
  · exact fun h => absurd h (Option.some_ne_none _)

/-- The item, off the cylinder and retyped, before it is added again. -/
def lifted (g : Game) (c : Cylinder) (item : ItemRef) (newId : ℕ) (newCount : ℤ) : World :=
  let w := (g.world.removeThing c item (g.world.getItemCount item)).postNotification c
  w.setItem item fun x =>
    let x := w.setID x newId
    if newCount ≠ -1 then w.setSubType x (newCount % 65536).toNat else x

/-- What the item takes the place of then. -/
def displacedBy (g : Game) (c : Cylinder) (item : ItemRef) (newId : ℕ) (newCount : ℤ) :
    Option ItemRef :=
  match c with
  | .tile pos =>
      ((g.lifted c item newId newCount).tile pos).bind fun t =>
        (g.lifted c item newId newCount).replacedItem t item
  | _ => none

theorem reinsert_world :
    (g.reinsert c item newId newCount).world =
      (g.lifted c item newId newCount).addThingFront c item := by
  unfold reinsert lifted
  simp only [setWorld_world, addThingFront_world, removeThing_world]

/-- The item off the cylinder. -/
structure Off (g : Game) (c : Cylinder) (item : ItemRef) (newId : ℕ) (w : World) : Prop where
  taken : ∀ {q o}, o ∈ w.things q ↔ o ∈ g.world.things q ∧ o ≠ item
  parent : (w.item item).parent = none
  id : (w.item item).id = newId
  kind : w.kindOf item = g.world.kindOf item

include hw in
theorem lifted_off (hfound : g.world.Found c item) :
    Off g c item newId (g.lifted c item newId newCount) := by
  have hwhole : ¬(g.world.isStackable item = true ∧
      g.world.getItemCount item ≠ g.world.getItemCount item) := fun h => h.2 rfl
  have htaken := g.world.removeThing_taken hfound hwhole
  have hnone := removeThing_parent hfound hwhole
  have hposted := (g.world.removeThing c item (g.world.getItemCount item)).postNotification_kept c
  unfold lifted
  simp only
  generalize hw₂ : (g.world.removeThing c item (g.world.getItemCount item)).postNotification c = w₂
    at *
  have hstack : (w₂.item item).stack = (g.world.item item).stack :=
    (hposted.stack item).trans (htaken.stack item)
  have hparent : (w₂.item item).parent = none := by
    rw [← hw₂, postNotification_item, hnone]
  -- retyping keeps the class, and with it what kind of container the item is
  have hcls : ∀ x : Item, (if newCount ≠ -1 then
      w₂.setSubType (w₂.setID x newId) (newCount % 65536).toNat else w₂.setID x newId).cls =
        x.cls := by
    intro x
    split
    · rw [setSubType_cls, setID_cls]
    · rw [setID_cls]
  have hhere : ((w₂.setItem item fun x => if newCount ≠ -1 then
      w₂.setSubType (w₂.setID x newId) (newCount % 65536).toNat
        else w₂.setID x newId).item item) = if newCount ≠ -1 then
      w₂.setSubType (w₂.setID (w₂.item item) newId) (newCount % 65536).toNat
        else w₂.setID (w₂.item item) newId := by
    rw [setItem_item, if_pos rfl]
  refine ⟨?_, ?_, ?_, ?_⟩
  · intro q o
    rw [setItem_things fun x => Item.itemlist_of_cls (hcls x), hposted.things]
    exact htaken.took.mem_iff hw.once
  · rw [hhere]
    split
    · rw [setSubType_parent, setID_parent, hparent]
    · rw [setID_parent, hparent]
  · rw [hhere]
    split
    · rw [setSubType_id, setID_id]
    · rw [setID_id]
  · rw [← kindOf_congr hstack]
    refine kindOf_of_shell ?_
    rw [hhere, hcls]

include hp hn in
/-- Where an item is found that hides what it lies in, that is a tile that is browsed. -/
theorem hides_on_tile {parent : Cylinder} (hi : item ∈ g.world.things c)
    (hparent : g.world.getParent item = some parent)
    (hsource : g.world.sourceCylinder parent = c) (hides : g.world.Hides item) :
    ∃ pos, c = .tile pos ∧ (g.world.browseFields pos).isSome := by
  rcases hp.parent hi with hhere | ⟨pos, r, hc, hbrowse, -⟩
  swap
  · exact ⟨pos, hc, Option.isSome_of_eq_some hbrowse⟩
  exfalso
  -- behind the cylinder the walk would come to it again
  have hup : ∃ n, g.world.getParentAux n c = some parent ∨
      (g.world.getParentAux n c).bind (g.world.getParentAux n) = some parent := by
    rw [getParent, parentOf, walkFuel, getParentAux] at hparent
    rcases hides with ⟨k, hkind⟩ | hkind | hkind
    · rw [hkind, hhere] at hparent
      exact ⟨_, .inr hparent⟩
    · rw [hkind, hhere] at hparent
      exact ⟨_, .inl hparent⟩
    · rw [hkind, hhere] at hparent
      exact ⟨_, .inl hparent⟩
  obtain ⟨n, hup⟩ := hup
  cases c with
  | tile pos => simp [getParentAux] at hup
  | player p =>
      obtain rfl := eq_of_sourceCylinder hsource fun pos h => Cylinder.noConfusion h
      cases htile : (g.world.player p).tile <;> simp [getParentAux, htile] at hup
  | container r =>
      obtain rfl := eq_of_sourceCylinder hsource fun pos h => Cylinder.noConfusion h
      rcases hup with hup | hup
      · exact hn.loopless r (getParentAux_inside hup)
      · obtain ⟨q, hq, hup⟩ := Option.bind_eq_some_iff.1 hup
        obtain ⟨x, rfl⟩ := getParentAux_container hup
        exact hn.loopless r ((getParentAux_inside hq).trans (getParentAux_inside hup))

/-- The ground of a tile that an item is lifted off was its ground before. -/
theorem lifted_ground {pos : Position} {t' : Tile}
    (ht' : (g.lifted (.tile pos) item newId newCount).tile pos = some t') :
    ∃ t, g.world.tile pos = some t ∧ ∀ o, t'.ground = some o → t.ground = some o := by
  have hposted := ((g.world.removeThing (.tile pos) item
    (g.world.getItemCount item)).postNotification_kept (.tile pos)).tile pos
  rw [lifted] at ht'
  simp only [setItem_tile] at ht'
  rw [ht', Option.map_some] at hposted
  obtain ⟨u, hu, hbare⟩ := Option.map_eq_some_iff.1 hposted.symm
  have hground : t'.ground = u.ground := (congrArg Tile.ground hbare.symm :)
  rw [hground]
  simp only [World.removeThing] at hu
  cases ht : g.world.tile pos with
  | none =>
      rw [tileRemoveThing, ht] at hu
      exact absurd (ht.symm.trans hu).symm (Option.some_ne_none u)
  | some t =>
      refine ⟨t, rfl, fun o ho => ?_⟩
      rcases tileRemoveThing_turned (i := item) ht (g.world.getItemCount item) with
        ⟨-, hsame⟩ | ⟨v, -, hlifted, hv⟩
      · obtain rfl := Option.some.inj (hsame.symm.trans hu)
        exact ho
      · obtain rfl := Option.some.inj (hv.symm.trans hu)
        have hreset : (g.world.resetTileFlags v item).ground = v.ground :=
          (congrArg Tile.ground (g.world.resetTileFlags_bare v item) :)
        rw [hreset] at ho
        cases hlifted with
        | ground here => exact absurd ho.symm (Option.some_ne_none o)
        | top mem => rwa [Tile.erase_ground] at ho
        | down mem => rwa [Tile.erase_ground] at ho

include hw hp hn hi in
theorem lifted_rest {out : List ItemRef} (hfound : g.world.Found c item) (hout : item ∈ out)
    (hthere : ∀ o ∈ out, o ∈ g.world.things c ∨ o = g.world.next) :
    Rest (g.world.Around c) out c g.world (g.lifted c item newId newCount) := by
  have hapart := apart hw hp hn hi hthere
  have hremoved := hapart.removeThing hout hfound (g.world.getItemCount item)
  have hposted := hremoved.trans (postNotification_rest c)
  unfold lifted
  refine hposted.trans ?_
  refine setItem_rest hout ((hapart.of_rest hposted).out item hout) fun x =>
    Item.itemlist_of_cls ?_
  split
  · rw [setSubType_cls, setID_cls]
  · rw [setID_cls]

include hw hp hn hi in
/-- What the item is put in the place of lay on the tile before. -/
theorem displacedBy_displaces (hfound : g.world.Found c item)
    (htop : (g.world.typeOf item).alwaysOnTop ≠ (g.world.items.type newId).alwaysOnTop)
    {o : ItemRef} (h : g.displacedBy c item newId newCount = some o) :
    g.world.Displaces c item newId o := by
  have hoff := @lifted_off g c item newId newCount hw hfound
  have hrest := @lifted_rest g c item newId newCount hw hp hn hi [item] hfound
    List.mem_cons_self (by simpa using .inl hi)
  cases c with
  | player p => exact absurd h.symm (Option.some_ne_none o)
  | container r => exact absurd h.symm (Option.some_ne_none o)
  | tile pos =>
      obtain ⟨t', ht', hreplaced⟩ := Option.bind_eq_some_iff.1 h
      obtain ⟨t, ht, hground⟩ := lifted_ground ht'
      have hthere : o ∈ (g.lifted (.tile pos) item newId newCount).things (.tile pos) := by
        rw [things_tile ht']
        exact replacedItem_mem hreplaced
      obtain ⟨hmem, hne⟩ := hoff.taken.1 hthere
      rw [things_tile ht] at hmem
      have hsame : (g.lifted (.tile pos) item newId newCount).item o = g.world.item o :=
        hrest.item o not_false (by simpa using hne)
      have htype : (g.lifted (.tile pos) item newId newCount).typeOf item =
          g.world.items.type newId := by rw [typeOf, hrest.items, hoff.id]
      have htypes : (g.lifted (.tile pos) item newId newCount).typeOf o = g.world.typeOf o := by
        rw [typeOf, hrest.items, hsame, typeOf]
      refine ⟨pos, t, rfl, ht, hmem, hne, htop, ?_⟩
      unfold replacedItem at hreplaced
      simp only [htype] at hreplaced
      split_ifs at hreplaced with hisGround hontop hsplash hfield
      · exact .inl ⟨hisGround, hground o hreplaced⟩
      · refine .inr (.inl ⟨hontop, hsplash, ?_⟩)
        rw [← htypes]
        simpa only using List.find?_some hreplaced
      · refine .inr (.inr ⟨Bool.eq_false_of_not_eq_true hontop, hfield, ?_⟩)
        rw [← hsame]
        simpa only using List.find?_some hreplaced

include hw hp hn hi in
theorem reinserted_transforms (hfound : g.world.Found c item)
    (htop : (g.world.typeOf item).alwaysOnTop ≠ (g.world.items.type newId).alwaysOnTop)
    (hhides : g.world.Hides item →
      ∃ pos, c = .tile pos ∧ (g.world.browseFields pos).isSome) :
    Transforms made (g.displacedBy c item newId newCount).toList g c item newId newCount
      ((g.reinsert c item newId newCount).postReinserted item).1
      ((g.reinsert c item newId newCount).postReinserted item).2 := by
  have hoff := @lifted_off g c item newId newCount hw hfound
  have hunlisted : ∀ q, item ∉ (g.lifted c item newId newCount).things q :=
    fun q hq => (hoff.taken.1 hq).2 rfl
  -- the rest, whether or not the item is returned
  have hadded : ∀ r : Option ItemRef, (∀ i ∈ r, i = item) →
      AddedFront (g.world.Around c)
        (item :: r.toList ++ (g.displacedBy c item newId newCount).toList) c item
        (g.lifted c item newId newCount) (g.reinsert c item newId newCount).world ∧
      Rest (g.world.Around c)
        (item :: r.toList ++ (g.displacedBy c item newId newCount).toList) c
        g.world (g.reinsert c item newId newCount).world := by
    intro r hr
    have hthere : ∀ o ∈ item :: r.toList ++ (g.displacedBy c item newId newCount).toList,
        o ∈ g.world.things c ∨ o = g.world.next := by
      intro o ho
      rw [List.cons_append, List.mem_cons, List.mem_append, Option.mem_toList,
        Option.mem_toList] at ho
      rcases ho with rfl | ho | ho
      · exact .inl hi
      · rw [hr o ho]
        exact .inl hi
      · obtain ⟨pos, t, rfl, ht, hmem, -⟩ := displacedBy_displaces hw hp hn hi hfound htop ho
        rw [things_tile ht]
        exact .inl hmem
    have hlifted := @lifted_rest g c item newId newCount hw hp hn hi _ hfound
      List.mem_cons_self hthere
    have hapart := (apart hw hp hn hi hthere).of_rest hlifted
    rw [reinsert_world]
    have hfront := hapart.addThingFront List.mem_cons_self hunlisted hoff.parent ?_
    · exact ⟨hfront, hlifted.trans hfront.rest⟩
    · rintro pos t o rfl ht hreplaced
      rw [List.cons_append, List.mem_cons, List.mem_append, Option.mem_toList, Option.mem_toList]
      refine .inr (.inr ?_)
      rw [displacedBy, ht]
      exact hreplaced
  obtain ⟨hnone, -⟩ := hadded none (by simp)
  have hid : ((g.reinsert c item newId newCount).world.item item).id = newId := by
    rw [Item.id_of_stack hnone.stack, hoff.id]
  have hkind : (g.reinsert c item newId newCount).world.kindOf item = g.world.kindOf item := by
    rw [kindOf_congr hnone.stack, hoff.kind]
  unfold postReinserted
  split
  · next hparent =>
      have hrest := (hadded none (by simp)).2
      refine transforms_of_rest hp hn hw hrest (by simp) (by simp) (by simp) (by simp) (by simp)
        fun _ => .inr ?_
      rcases hnone.placed with ⟨-, hhere⟩ | ⟨hgone, hfree⟩
      · refine .inr ?_
        by_contra hplain
        have hnot : ¬ (g.reinsert c item newId newCount).world.Hides item := by
          rw [Hides, hkind]
          exact fun hhide => hplain ⟨hhide, hhides hhide⟩
        rw [getParent_plain hnot, hhere] at hparent
        exact Option.some_ne_none _ hparent
      · exact .inl ⟨hfree, hgone⟩
  · next newParent hparent =>
      have hrest := (hadded (some item) (by simp)).2
      have hhere : item ∈ (g.reinsert c item newId newCount).world.things c := by
        rcases hnone.placed with ⟨hmem, -⟩ | ⟨-, hfree⟩
        · exact hmem
        · rw [getParent_none hfree] at hparent
          exact absurd hparent.symm (Option.some_ne_none _)
      have hkept := (g.reinsert c item newId newCount).world.postNotification_kept newParent
      refine transforms_of_rest hp hn hw (hrest.trans (postNotification_rest newParent)) ?_ ?_ ?_
        ?_ ?_ ?_
      · exact fun i h => .inl (Option.mem_some_iff.1 h).symm
      · intro i h
        rw [← Option.mem_some_iff.1 h, setWorld_world, hkept.things]
        exact hhere
      · intro i h hsame
        -- the new type lies on the other side of the creatures
        rw [← Option.mem_some_iff.1 h, setWorld_world, isAlwaysOnTop, typeOf, hkept.id, hkept.items,
          hrest.items, hid] at hsame
        exact absurd hsame.symm htop
      · intro i h
        rw [← Option.mem_some_iff.1 h]
        refine .inr (.inl ?_)
        rw [setWorld_world, hkept.id, hid]
      · exact fun i h hne => absurd (Option.mem_some_iff.1 h).symm hne
      · exact fun h => absurd h (Option.some_ne_none _)

end Branches

/-- The ways through `transformItem`. -/
theorem transformItem_cases {P : Option ItemRef × Game → Prop} (kept : P (some item, g))
    (missing : P (none, g))
    (acts : ∀ parent, g.world.getParent item = some parent →
      g.world.Found (g.world.sourceCylinder parent) item → (g.world.items.type newId).id ≠ 0 →
      ((g.world.typeOf item).alwaysOnTop ≠ (g.world.items.type newId).alwaysOnTop →
        P ((g.reinsert (g.world.sourceCylinder parent) item newId newCount).postReinserted item)) ∧
      ((g.world.typeOf item).alwaysOnTop = (g.world.items.type newId).alwaysOnTop →
        P (none, (g.internalRemoveItem item).2) ∧
        (∀ count, P (some item, g.updateType (g.world.sourceCylinder parent)
          (g.world.getThingIndex (g.world.sourceCylinder parent) item) item newId count)) ∧
        (∀ type count, (type = newId ∨ newCount = 0 ∧
            (g.world.item item).hasAttribute .charges = true ∧
            (g.world.typeOf item).id = (g.world.items.type newId).id ∧
            type = ((g.world.typeOf item).decayTo % 65536).toNat) →
          P (g.createAndReplace (g.world.sourceCylinder parent)
            (g.world.getThingIndex (g.world.sourceCylinder parent) item) item type count)))) :
    P (g.transformItem item newId newCount) := by
  unfold transformItem
  simp only
  split
  · exact kept
  cases hparent : g.world.getParent item with
  | none => exact missing
  | some parent =>
      dsimp only
      split
      · exact kept
      next hfound =>
      split
      · exact kept
      next hknown =>
      obtain ⟨hreinserted, hsame⟩ := acts parent hparent hfound hknown
      split
      · next htop => exact hreinserted htop
      next htop =>
      obtain ⟨hremoved, hupdated, hcreated⟩ := hsame (not_not.1 htop)
      split
      · split
        · exact hremoved
        · split
          · next hcharges =>
              generalize hitemId : (if (g.world.typeOf item).id = (g.world.items.type newId).id
                then (g.world.typeOf item).decayTo else newId : ℤ) = newItemId
              split
              · exact hremoved
              · split
                · next hother =>
                    refine hcreated _ _ (.inr ⟨hcharges.1, hcharges.2, ?_⟩)
                    split_ifs at hitemId with hids
                    · exact ⟨hids, by rw [hitemId]⟩
                    · exact absurd hitemId.symm hother
                · split
                  · exact kept
                  · exact hupdated (-1)
          · exact hupdated newCount
      · split
        · exact hcreated newId 0 (.inl rfl)
        · exact hcreated newId _ (.inl rfl)

end Game

/-! ### A bottle and a puddle -/

namespace Sample

open World

/-- Puddles, with keys of the odd ids and plain items of the even ones. -/
def puddles : Items where
  type id :=
    if id = 2019 then { id, group := .splash, alwaysOnTop := true }
    else { id, type := if id % 2 = 1 then .key else .none }
  stackable_isPlain id h := by split_ifs at h
  stackable_down id h := by split_ifs at h
  stackable_createdId id h := by split_ifs at h

/-- A bottle, an inbox and, above them, a puddle, on a tile that is browsed. -/
def spilled : Game :=
  game { world
    [{ id := 2, parent := some (.tile here) }, { id := 2019, parent := some (.tile here) },
      { id := 4, parent := some (.container 3),
        cls := .container { kind := .inbox, maxSize := 30 } },
      { id := 6, parent := some (.tile here),
        cls := .container { kind := .browseField, maxSize := 30 } }]
    { itemList := [0, 2, 1], downItemCount := 2 } (fun _ => none) with
    items := puddles
    browseFields := fun pos => if pos = here then some 3 else none }

theorem spilled_wellFormed : WellFormed spilled.world := by
  have listed : (world
      [{ id := 2, parent := some (.tile here) }, { id := 2019, parent := some (.tile here) },
        { id := 4, parent := some (.container 3),
          cls := .container { kind := .inbox, maxSize := 30 } },
        { id := 6, parent := some (.tile here),
          cls := .container { kind := .browseField, maxSize := 30 } }]
      { itemList := [0, 2, 1], downItemCount := 2 } (fun _ => none)).WellFormed :=
    world_wellFormed (by decide) (by decide)
  exact ⟨listed.once, listed.fresh, listed.unused⟩

theorem spilled_lies {i r : ItemRef} (h : spilled.world.LiesIn i r) : i = 2 ∧ r = 3 := by
  rcases lt_or_ge i 4 with hlt | hge
  · interval_cases i
    · exact absurd h (by simp [LiesIn, spilled, game, world])
    · exact absurd h (by simp [LiesIn, spilled, game, world])
    · refine ⟨rfl, ?_⟩
      have hparent : some (Cylinder.container 3) = some (.container r) := h
      simpa using hparent.symm
    · exact absurd h (by simp [LiesIn, spilled, game, world])
  · exact absurd h (by simp [LiesIn, spilled, game, world, hge])

theorem spilled_nested : Nested spilled.world where
  loopless i h := by
    obtain ⟨r, hstep, hrest⟩ := Relation.TransGen.head'_iff.1 h
    obtain ⟨rfl, rfl⟩ := spilled_lies hstep
    rcases Relation.ReflTransGen.cases_head hrest with heq | ⟨x, hx, -⟩
    · exact absurd heq (by decide)
    · exact absurd (spilled_lies hx).1 (by decide)
  known h := by
    rw [(spilled_lies h).2]
    decide

theorem spilled_parented : Parented spilled.world where
  parent {c i} hi := by
    cases c with
    | player p =>
        exfalso
        by_cases hp : p = 0
        · simp [things, spilled, game, world, hp] at hi
        · simp [things, spilled, game, world, hp] at hi
    | container r =>
        rcases lt_or_ge r 4 with hlt | hge
        · interval_cases r
          all_goals exact absurd hi List.not_mem_nil
        · rw [things, itemlist_of_getContainer_none (spilled_wellFormed.unused hge)] at hi
          exact absurd hi List.not_mem_nil
    | tile pos =>
        by_cases hpos : pos = here
        · subst hpos
          have hlist : i ∈ [0, 2, 1] := hi
          fin_cases hlist
          · exact .inl rfl
          · exact .inr ⟨here, 3, rfl, rfl, rfl⟩
          · exact .inl rfl
        · simp [things, spilled, game, world, hpos] at hi
  browsed {pos r} h := by
    have hhere : (if pos = here then some 3 else none : Option ItemRef) = some r := h
    split_ifs at hhere with hpos
    obtain rfl := Option.some.inj hhere
    subst hpos
    exact ⟨rfl, rfl, rfl⟩

theorem puddles_numbered : SelfNumbered puddles := by
  intro id _
  unfold puddles
  dsimp only
  split_ifs <;> rfl

end Sample

end TibServer
