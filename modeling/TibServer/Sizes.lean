import TibServer.Answers

/-!
How long the lists of the containers get. An operation of a cylinder puts at
most one item into one container, and all the others only get shorter; this
needs no assumption about the world it happens in.
-/

namespace TibServer

namespace World

variable {w w' w'' : World} {c : Cylinder} {r : ItemRef} {i o : ItemRef} {n : Nat}

/-- The number of items of a container. -/
def sizeOf (w : World) (r : ItemRef) : Nat := (w.itemlist r).length

theorem sizeOf_eq {k : Container} (hr : w.getContainer r = some k) : w.sizeOf r = k.size := by
  have h : (w.item r).getContainer = some k := hr
  simp only [sizeOf, itemlist, Item.itemlist, h]
  rfl

/-! ### Operations that make no list longer -/

/-- One item may change, but not its kind or its class; no list gets longer. -/
structure Loosened (w w' : World) (i : ItemRef) : Prop where
  items : w'.items = w.items
  next : w'.next = w.next
  stack : ∀ o, o ≠ i → (w'.item o).stack = (w.item o).stack
  id : (w'.item i).id = (w.item i).id
  attributes : (w'.item i).attributes = (w.item i).attributes
  shell : (w'.item i).cls.shell = (w.item i).cls.shell
  size : ∀ r, w'.sizeOf r ≤ w.sizeOf r

namespace Loosened

theorem refl (w : World) (i : ItemRef) : Loosened w w i :=
  ⟨rfl, rfl, fun _ _ => rfl, rfl, rfl, rfl, fun _ => le_refl _⟩

theorem trans (h : Loosened w w' i) (h' : Loosened w' w'' i) : Loosened w w'' i where
  items := h'.items.trans h.items
  next := h'.next.trans h.next
  stack o ho := (h'.stack o ho).trans (h.stack o ho)
  id := h'.id.trans h.id
  attributes := h'.attributes.trans h.attributes
  shell := h'.shell.trans h.shell
  size r := (h'.size r).trans (h.size r)

/-- A world whose items are those of another one. -/
theorem of_item (items : w'.items = w.items) (next : w'.next = w.next) (h : w'.item = w.item) :
    Loosened w w' i where
  items := items
  next := next
  stack o _ := by rw [h]
  id := by rw [h]
  attributes := by rw [h]
  shell := by rw [h]
  size r := by rw [sizeOf, sizeOf, itemlist, itemlist, h]

theorem shellOf (h : Loosened w w' i) (r : ItemRef) : w'.shellOf r = w.shellOf r := by
  refine shellOf_congr ?_
  by_cases e : r = i
  · rw [e]
    exact h.shell
  · exact Item.shell_of_stack (h.stack r e)

theorem equals (h : Loosened w w' i) (o : ItemRef) : w'.equals i o = w.equals i o := by
  simp only [World.equals, Item.equals]
  by_cases e : o = i
  · rw [e, h.id, h.attributes]
  · rw [h.id, h.attributes, Item.id_of_stack (h.stack o e), Item.attributes_of_stack (h.stack o e)]

theorem isStackable (h : Loosened w w' i) : w'.isStackable i = w.isStackable i :=
  isStackable_of_id h.items h.id

theorem mergeTarget (h : Loosened w w' i) (toItem : Option ItemRef) :
    w'.mergeTarget i toItem = w.mergeTarget i toItem := by
  simp only [World.mergeTarget, h.equals, h.isStackable]

theorem getItemCount (h : Loosened w w' i) (ho : o ≠ i) : w'.getItemCount o = w.getItemCount o :=
  Item.getItemCount_of_stack (h.stack o ho)

end Loosened

theorem Kept.loosened (h : Kept w w') : Loosened w w' i where
  items := h.items
  next := h.next
  stack o _ := h.stack o
  id := h.id i
  attributes := Item.attributes_of_stack (h.stack i)
  shell := Item.shell_of_stack (h.stack i)
  size r := (congrArg List.length (h.itemlist r)).le

/-- A change of an item that leaves its class, its id and its attributes alone. -/
theorem setItem_loosened (w : World) (i : ItemRef) {f : Item → Item}
    (id : (f (w.item i)).id = (w.item i).id)
    (attributes : (f (w.item i)).attributes = (w.item i).attributes)
    (cls : (f (w.item i)).cls = (w.item i).cls) : Loosened w (w.setItem i f) i where
  items := rfl
  next := rfl
  stack o ho := by simp [setItem, ho]
  id := by simpa [setItem] using id
  attributes := by simpa [setItem] using attributes
  shell := by simp [setItem, cls]
  size r := by
    by_cases e : r = i
    · subst e
      simp [sizeOf, itemlist, setItem, Item.itemlist, Item.getContainer, cls]
    · simp [sizeOf, itemlist, setItem, e]

theorem setItemlist_loosened (w : World) (r : ItemRef) {l : List ItemRef}
    (h : l.length ≤ w.sizeOf r) (i : ItemRef) : Loosened w (w.setItemlist r l) i where
  items := rfl
  next := rfl
  stack o _ := w.setItemlist_stack r l o
  id := Item.id_of_stack (w.setItemlist_stack r l i)
  attributes := Item.attributes_of_stack (w.setItemlist_stack r l i)
  shell := Item.shell_of_stack (w.setItemlist_stack r l i)
  size o := by
    cases hr : w.getContainer r with
    | none =>
        have none_ : (w.item r).getContainer = none := hr
        have same : (w.setItemlist r l).itemlist o = w.itemlist o := by
          simp only [setItemlist, setContainer, itemlist, setItem_item, none_]
          split_ifs with e
          · rw [e]
          · rfl
        rw [sizeOf, same]
        exact le_refl _
    | some k =>
        rw [sizeOf, w.itemlist_setItemlist hr]
        split_ifs with e
        · rw [e]
          exact h
        · exact le_refl _

theorem setTile_loosened (w : World) (pos : Position) (t : Tile) (i : ItemRef) :
    Loosened w (w.setTile pos t) i := .of_item rfl rfl rfl

theorem setInventory_loosened (w : World) (p : PlayerId) (slot : Nat) (o : Option ItemRef)
    (i : ItemRef) : Loosened w (w.setInventory p slot o) i := .of_item rfl rfl rfl

theorem containerRemoveThing_loosened (w : World) (r i : ItemRef) (n : Nat) :
    Loosened w (w.containerRemoveThing r i n) i := by
  unfold containerRemoveThing
  split
  · exact .refl w i
  · split
    · exact (w.setItem_loosened i rfl rfl rfl).trans (updateItemWeight_kept _ _ _).loosened
    · have lighter := (w.updateItemWeight_kept r (-w.getWeight i)).trans
        (setParent_kept _ i none)
      refine lighter.loosened.trans (setItemlist_loosened _ r ?_ i)
      exact List.length_erase_le

theorem playerRemoveThing_loosened (w : World) (p : PlayerId) (i : ItemRef) (n : Nat) :
    Loosened w (w.playerRemoveThing p i n) i := by
  unfold playerRemoveThing
  simp only
  split
  · exact .refl w i
  · split
    · exact w.setItem_loosened i rfl rfl rfl
    · exact (setParent_kept w i none).loosened.trans (setInventory_loosened _ _ _ _ i)

theorem tileRemoveThing_loosened (w : World) (pos : Position) (i : ItemRef) (n : Nat) :
    Loosened w (w.tileRemoveThing pos i n) i := by
  unfold tileRemoveThing
  split
  · exact .refl w i
  · split
    · exact .refl w i
    · split
      · exact (setParent_kept w i none).loosened.trans (setTile_loosened _ _ _ i)
      · split
        · exact w.setItem_loosened i rfl rfl rfl
        · exact (setParent_kept w i none).loosened.trans (setTile_loosened _ _ _ i)

/-- Removing makes no list longer. -/
theorem removeThing_loosened (w : World) (c : Cylinder) (i : ItemRef) (n : Nat) :
    Loosened w (w.removeThing c i n) i := by
  cases c with
  | tile pos => exact w.tileRemoveThing_loosened pos i n
  | player p => exact w.playerRemoveThing_loosened p i n
  | container r => exact w.containerRemoveThing_loosened r i n

/-! ### Operations that make at most one list longer -/

/-- No container changes its shape, and only the list of `c` gets longer, by one. -/
structure Grown (w w' : World) (c : Option ItemRef) : Prop where
  shell : ∀ r, w'.shellOf r = w.shellOf r ∨ w'.getContainer r = none
  size : ∀ r, w'.sizeOf r ≤ w.sizeOf r + if c = some r then 1 else 0

namespace Grown

variable {x : Option ItemRef}

theorem refl (w : World) : Grown w w none := ⟨fun _ => .inl rfl, fun _ => by simp⟩

theorem trans (h : Grown w w' none) (h' : Grown w' w'' x) : Grown w w'' x where
  shell r := by
    rcases h'.shell r with same | gone
    · rcases h.shell r with same' | gone'
      · exact .inl (same.trans same')
      · exact .inr (shellOf_isNone.mp (same.trans (shellOf_isNone.mpr gone')))
    · exact .inr gone
  size r := (h'.size r).trans (by simpa using h.size r)

theorem trans' (h : Grown w w' x) (h' : Grown w' w'' none) : Grown w w'' x where
  shell r := by
    rcases h'.shell r with same | gone
    · rcases h.shell r with same' | gone'
      · exact .inl (same.trans same')
      · exact .inr (shellOf_isNone.mp (same.trans (shellOf_isNone.mpr gone')))
    · exact .inr gone
  size r := by
    have last := h'.size r
    simp only [reduceCtorEq, if_false, Nat.add_zero] at last
    exact last.trans (h.size r)

theorem weaken (h : Grown w w' none) : Grown w w' x := h.trans
  ⟨fun _ => .inl rfl, fun _ => Nat.le_add_right _ _⟩

end Grown

theorem Loosened.grown (h : Loosened w w' i) : Grown w w' none where
  shell r := .inl (h.shellOf r)
  size r := by simpa using h.size r

theorem Kept.grown (h : Kept w w') : Grown w w' none := (h.loosened (i := 0)).grown

/-- A change of an item that leaves its class alone. -/
theorem setItem_grown (w : World) (i : ItemRef) {f : Item → Item}
    (cls : (f (w.item i)).cls = (w.item i).cls) : Grown w (w.setItem i f) none where
  shell r := by
    refine .inl (shellOf_congr ?_)
    by_cases e : r = i
    · subst e
      simp [setItem, cls]
    · simp [setItem, e]
  size r := by
    by_cases e : r = i
    · subst e
      simp [sizeOf, itemlist, setItem, Item.itemlist, Item.getContainer, cls]
    · simp [sizeOf, itemlist, setItem, e]

theorem updateThing_grown (w : World) (c : Cylinder) (i : ItemRef) (itemId count : Nat) :
    Grown w (w.updateThing c i itemId count) none := by
  have update : Grown w (w.setItem i fun x => w.setSubType (w.setID x itemId) count) none :=
    w.setItem_grown i (by rw [setSubType_cls, setID_cls])
  cases c with
  | tile pos =>
      simp only [updateThing, tileUpdateThing]
      split
      · exact .refl w
      · split
        · exact .refl w
        · exact update.trans (setTile_loosened _ _ _ i).grown
  | player p =>
      simp only [updateThing, playerUpdateThing]
      split
      · exact .refl w
      · exact update
  | container r =>
      simp only [updateThing, containerUpdateThing]
      split
      · exact .refl w
      · exact update.trans (updateItemWeight_kept _ _ _).grown

theorem pushFront_grown (w : World) (r i : ItemRef) : Grown w (w.pushFront r i) (some r) := by
  unfold pushFront
  have pushed : Grown w ((w.setItem i (·.setParent (some (.container r)))).setItemlist r
      (i :: w.itemlist r)) (some r) := by
    have parent := w.setParent_kept i (some (.container r))
    refine parent.grown.trans ⟨fun o => .inl ?_, fun o => ?_⟩
    · exact shellOf_congr (Item.shell_of_stack (setItemlist_stack _ _ _ _))
    · cases hr : (w.setItem i (·.setParent (some (.container r)))).getContainer r with
      | none =>
          have same : ((w.setItem i (·.setParent (some (.container r)))).setItemlist r
              (i :: w.itemlist r)).sizeOf o =
                (w.setItem i (·.setParent (some (.container r)))).sizeOf o := by
            have none_ : ((w.setItem i (·.setParent (some (.container r)))).item r).getContainer =
              none := hr
            generalize w.setItem i (·.setParent (some (.container r))) = v at none_ ⊢
            simp only [sizeOf, setItemlist, setContainer, itemlist, setItem_item, none_]
            split_ifs with e
            · rw [e]
            · rfl
          rw [same]
          omega
      | some k =>
          rw [sizeOf, itemlist_setItemlist _ hr]
          split_ifs with e e' e'
          · subst e
            rw [List.length_cons, ← parent.itemlist o]
            rfl
          · exact absurd (congrArg some e.symm) e'
          · exact absurd (Option.some.inj e').symm e
          · exact le_refl _
  split
  · exact (Grown.refl w).weaken
  · exact (Grown.refl w).weaken
  · exact pushed.trans' (updateItemWeight_kept _ _ _).grown

/-- The container an item that is added goes into. -/
def Cylinder.ref : Cylinder → Option ItemRef
  | .container r => some r
  | _ => none

theorem tileInsert_grown (w : World) (pos : Position) (i : ItemRef) :
    Grown w (w.tileInsert pos i) none :=
  (Loosened.of_item (i := i) (w.tileInsert_items pos i) (w.tileInsert_next pos i)
    (w.tileInsert_item pos i)).grown

theorem addThing_grown (w : World) (c : Cylinder) (index : Int) (i : ItemRef) :
    Grown w (w.addThing c index i) (Cylinder.ref c) := by
  cases c with
  | tile pos =>
      simp only [addThing, tileAddThing, Cylinder.ref]
      split
      · exact .refl w
      · split
        · exact .refl w
        · have parent := (w.setParent_kept i (some (.tile pos))).grown
          refine parent.trans ?_
          split
          · exact tileInsert_grown _ _ _
          · split
            · exact (setParent_kept _ _ none).grown.trans (setTile_loosened _ _ _ i).grown
            · split
              · exact (setParent_kept _ _ none).grown
              · exact ((tileRemoveThing_loosened _ _ _ _).grown.trans
                  (setParent_kept _ _ none).grown).trans (tileInsert_grown _ _ _)
  | player p =>
      simp only [addThing, playerAddThing, Cylinder.ref]
      split
      · exact .refl w
      · exact (setParent_kept w i _).grown.trans (setInventory_loosened _ _ _ _ i).grown
  | container r =>
      simp only [addThing, containerAddThing, Cylinder.ref]
      split
      · exact (Grown.refl w).weaken
      · split
        · exact (Grown.refl w).weaken
        · exact w.pushFront_grown r i

end World

end TibServer
