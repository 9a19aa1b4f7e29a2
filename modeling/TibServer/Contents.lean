import TibServer.Move
import TibServer.Ledger

/-!
What lies where. The items a cylinder lists, the units they count, and what each
operation of a cylinder does to both: it keeps everything, takes one item out,
puts one in, or changes the count of a listed stack. A later argument about a
move only composes these four relations.
-/

namespace TibServer

/-! ### Stacks and lists -/

namespace ItemClass

/-- A container without what lies in it. -/
def shell : ItemClass → ItemClass
  | .container c => .container { c with itemlist := [], totalWeight := 0 }
  | cls => cls

end ItemClass

namespace Item

/-- An item without its place and without what lies in it. -/
def stack (i : Item) : Item := { i with parent := none, cls := i.cls.shell }

variable {i j : Item}

theorem id_of_stack (h : i.stack = j.stack) : i.id = j.id := (congrArg Item.id h :)
theorem count_of_stack (h : i.stack = j.stack) : i.count = j.count := (congrArg Item.count h :)
theorem attributes_of_stack (h : i.stack = j.stack) : i.attributes = j.attributes :=
  (congrArg Item.attributes h :)
theorem shell_of_stack (h : i.stack = j.stack) : i.cls.shell = j.cls.shell :=
  (congrArg Item.cls h :)

theorem getItemCount_of_stack (h : i.stack = j.stack) : i.getItemCount = j.getItemCount := by
  rw [getItemCount, getItemCount, count_of_stack h]

theorem equals_of_stack {o p : Item} (h : i.stack = j.stack) (h' : o.stack = p.stack) :
    i.equals o = j.equals p := by
  simp only [equals, id_of_stack h, id_of_stack h', attributes_of_stack h, attributes_of_stack h']

@[simp] theorem setParent_stack (p : Option Cylinder) : (i.setParent p).stack = i.stack := rfl
@[simp] theorem setParent_itemlist (p : Option Cylinder) :
    (i.setParent p).itemlist = i.itemlist := rfl
@[simp] theorem setParent_id (p : Option Cylinder) : (i.setParent p).id = i.id := rfl

@[simp] theorem setItemCount_id (n : Nat) : (i.setItemCount n).id = i.id := rfl
@[simp] theorem setItemCount_cls (n : Nat) : (i.setItemCount n).cls = i.cls := rfl
@[simp] theorem setItemCount_itemlist (n : Nat) : (i.setItemCount n).itemlist = i.itemlist := rfl
@[simp] theorem setItemCount_getItemCount (n : Nat) :
    (i.setItemCount n).getItemCount = n % 256 := by
  simp [setItemCount, getItemCount]

@[simp] theorem setIntAttr_id (t : AttrType) (n : Int) : (i.setIntAttr t n).id = i.id := rfl
@[simp] theorem setIntAttr_count (t : AttrType) (n : Int) :
    (i.setIntAttr t n).count = i.count := rfl
@[simp] theorem setIntAttr_cls (t : AttrType) (n : Int) : (i.setIntAttr t n).cls = i.cls := rfl
@[simp] theorem setIntAttr_parent (t : AttrType) (n : Int) :
    (i.setIntAttr t n).parent = i.parent := rfl
@[simp] theorem removeAttribute_id (t : AttrType) : (i.removeAttribute t).id = i.id := rfl
@[simp] theorem removeAttribute_count (t : AttrType) :
    (i.removeAttribute t).count = i.count := rfl
@[simp] theorem removeAttribute_cls (t : AttrType) : (i.removeAttribute t).cls = i.cls := rfl
@[simp] theorem removeAttribute_parent (t : AttrType) :
    (i.removeAttribute t).parent = i.parent := rfl

theorem setIntAttr_hasAttribute {t u : AttrType} (n : Int) (h : t ≠ u) :
    (i.setIntAttr t n).hasAttribute u = i.hasAttribute u := by
  simp only [setIntAttr, hasAttribute, ItemAttributes.setIntAttr]
  cases i.attributes with
  | none =>
      simp only [Option.getD_none]
      split
      · rw [ItemAttributes.hasAttribute_setAttr _ _ h, ItemAttributes.hasAttribute_empty]
      · exact ItemAttributes.hasAttribute_empty u
  | some a =>
      simp only [Option.getD_some]
      split
      · exact ItemAttributes.hasAttribute_setAttr _ _ h
      · rfl

theorem removeAttribute_hasAttribute {t u : AttrType} (h : t ≠ u) :
    (i.removeAttribute t).hasAttribute u = i.hasAttribute u := by
  simp only [removeAttribute, hasAttribute]
  cases i.attributes with
  | none => rfl
  | some a => exact a.hasAttribute_removeAttribute h

theorem itemlist_of_cls (h : i.cls = j.cls) : i.itemlist = j.itemlist := by
  simp only [itemlist, getContainer, h]

end Item

/-- A tile without its flags. -/
def Tile.bare (t : Tile) : Tile := { t with flags := 0 }

namespace World

variable {w w' w'' : World}

/-- The items that lie in a cylinder itself, not deeper. -/
def things (w : World) : Cylinder → List ItemRef
  | .tile pos =>
      match w.tile pos with
      | some t => t.ground.toList ++ t.itemList
      | none => []
  | .player p => slots.filterMap (w.player p).inventory
  | .container c => w.itemlist c

/-- What an item counts: the units of a stack, one for anything else. -/
def unitsOf (w : World) (i : ItemRef) : Nat := if w.isStackable i then w.getItemCount i else 1

/-- The units of kind `id` that an item is. -/
def units (w : World) (id : Nat) (i : ItemRef) : Nat :=
  if (w.item i).id = id then w.unitsOf i else 0

/-- The units of kind `id` in the cylinders of `S`. -/
def total (w : World) (S : Finset Cylinder) (id : Nat) : Nat :=
  Ledger.total S w.things (w.units id)

/-- An item found at an index of a cylinder. -/
def Found (w : World) (c : Cylinder) (i : ItemRef) : Prop := w.getThingIndex c i ≠ -1

/-! ### Four kinds of change -/

/-- Every item stays where it is and what it is. -/
structure Kept (w w' : World) : Prop where
  items : w'.items = w.items
  next : w'.next = w.next
  stack : ∀ i, (w'.item i).stack = (w.item i).stack
  itemlist : ∀ c, w'.itemlist c = w.itemlist c
  inventory : ∀ p, (w'.player p).inventory = (w.player p).inventory
  tile : ∀ pos, (w'.tile pos).map Tile.bare = (w.tile pos).map Tile.bare

/-- One item is taken off the list of a cylinder. -/
structure Taken (w w' : World) (c : Cylinder) (i : ItemRef) : Prop where
  items : w'.items = w.items
  next : w'.next = w.next
  stack : ∀ i, (w'.item i).stack = (w.item i).stack
  took : Ledger.Took w.things w'.things c i
  found : ∀ {c' o}, o ≠ i → w.Found c' o → w'.Found c' o
  slot : ∀ p s, (w'.player p).inventory s = (w.player p).inventory s ∨
    (w'.player p).inventory s = none
  tiles : ∀ pos, (w'.tile pos).isSome = (w.tile pos).isSome

/-- One item is put into the list of a cylinder. -/
structure Added (w w' : World) (c : Cylinder) (i : ItemRef) : Prop where
  items : w'.items = w.items
  next : w'.next = w.next
  stack : ∀ i, (w'.item i).stack = (w.item i).stack
  put : Ledger.Put w.things w'.things c i
  found : ∀ {c' o}, w.Found c' o → w'.Found c' o
  inventory : ∀ p, c ≠ .player p → (w'.player p).inventory = (w.player p).inventory
  tiles : ∀ pos, (w'.tile pos).isSome = (w.tile pos).isSome

/-- One item changes, or comes into being, and no list does. -/
structure Touched (w w' : World) (i : ItemRef) : Prop where
  items : w'.items = w.items
  next : w.next ≤ w'.next
  stack : ∀ o, o ≠ i → (w'.item o).stack = (w.item o).stack
  born : (w'.item i).cls.shell = (w.item i).cls.shell ∨ (w.next ≤ i ∧ i < w'.next)
  things : w'.things = w.things
  found : ∀ {c o}, w.Found c o → w'.Found c o
  inventory : ∀ p, (w'.player p).inventory = (w.player p).inventory
  tile : ∀ pos, (w'.tile pos).map Tile.bare = (w.tile pos).map Tile.bare

/-- One item gets the count `n`, and perhaps other attributes. -/
structure Recounted (w w' : World) (i : ItemRef) (n : Nat) : Prop extends Touched w w' i where
  id : (w'.item i).id = (w.item i).id
  shell : (w'.item i).cls.shell = (w.item i).cls.shell
  count : w'.getItemCount i = n
  sameNext : w'.next = w.next

/-! ### What they leave unchanged -/

section Reading

theorem typeOf_of_id {i : ItemRef} (hi : w'.items = w.items) (h : (w'.item i).id = (w.item i).id) :
    w'.typeOf i = w.typeOf i := by rw [typeOf, typeOf, hi, h]

theorem isStackable_of_id {i : ItemRef} (hi : w'.items = w.items)
    (h : (w'.item i).id = (w.item i).id) : w'.isStackable i = w.isStackable i := by
  rw [isStackable, isStackable, typeOf_of_id hi h]

theorem isAlwaysOnTop_of_id {i : ItemRef} (hi : w'.items = w.items)
    (h : (w'.item i).id = (w.item i).id) : w'.isAlwaysOnTop i = w.isAlwaysOnTop i := by
  rw [isAlwaysOnTop, isAlwaysOnTop, typeOf_of_id hi h]

theorem units_of_stack (hi : w'.items = w.items) {i : ItemRef}
    (h : (w'.item i).stack = (w.item i).stack) (id : Nat) : w'.units id i = w.units id i := by
  have hid := Item.id_of_stack h
  have hs := isStackable_of_id hi hid
  simp only [units, unitsOf, hs, hid, getItemCount, Item.getItemCount_of_stack h]

theorem Taken.units (h : Taken w w' c i) (id : Nat) : w'.units id = w.units id :=
  funext fun _ => units_of_stack h.items (h.stack _) id

theorem Added.units (h : Added w w' c i) (id : Nat) : w'.units id = w.units id :=
  funext fun _ => units_of_stack h.items (h.stack _) id

theorem Kept.units (h : Kept w w') (id : Nat) : w'.units id = w.units id :=
  funext fun _ => units_of_stack h.items (h.stack _) id

theorem Touched.units (h : Touched w w' i) (id : Nat) {o : ItemRef} (ho : o ≠ i) :
    w'.units id o = w.units id o := units_of_stack h.items (h.stack _ ho) id

end Reading

namespace Kept

@[refl] theorem refl (w : World) : Kept w w :=
  ⟨rfl, rfl, fun _ => rfl, fun _ => rfl, fun _ => rfl, fun _ => rfl⟩

theorem trans (h : Kept w w') (h' : Kept w' w'') : Kept w w'' where
  items := h'.items.trans h.items
  next := h'.next.trans h.next
  stack i := (h'.stack i).trans (h.stack i)
  itemlist c := (h'.itemlist c).trans (h.itemlist c)
  inventory p := (h'.inventory p).trans (h.inventory p)
  tile pos := (h'.tile pos).trans (h.tile pos)

variable (h : Kept w w')
include h

theorem id (i : ItemRef) : (w'.item i).id = (w.item i).id := Item.id_of_stack (h.stack i)

theorem typeOf (i : ItemRef) : w'.typeOf i = w.typeOf i := typeOf_of_id h.items (h.id i)

theorem things : w'.things = w.things := by
  funext c
  cases c with
  | tile pos =>
      have same := h.tile pos
      simp only [World.things]
      cases ht : w.tile pos <;> cases ht' : w'.tile pos <;>
        simp only [ht, ht', Option.map_some, Option.map_none, reduceCtorEq, Option.some.injEq]
          at same ⊢
      exact (congrArg (fun t : Tile => t.ground.toList ++ t.itemList) same :)
  | player p => simp only [World.things, h.inventory]
  | container c => exact h.itemlist c

theorem getThingIndex (c : Cylinder) (i : ItemRef) :
    w'.getThingIndex c i = w.getThingIndex c i := by
  cases c with
  | tile pos =>
      have same := h.tile pos
      simp only [World.getThingIndex, tileGetThingIndex,
        isAlwaysOnTop_of_id h.items (h.id i)]
      cases ht : w.tile pos <;> cases ht' : w'.tile pos <;>
        simp only [ht, ht', Option.map_some, Option.map_none, reduceCtorEq, Option.some.injEq]
          at same ⊢
      exact (congrArg (fun t : Tile => t.getThingIndex (w.isAlwaysOnTop i) i) same :)
  | player p => simp only [World.getThingIndex, playerGetThingIndex, h.inventory]
  | container c => simp only [World.getThingIndex, containerGetThingIndex, h.itemlist]

theorem found {c : Cylinder} {i : ItemRef} : w'.Found c i ↔ w.Found c i := by
  rw [Found, Found, h.getThingIndex]

end Kept

/-! ### Composing -/

section Composing

variable {c : Cylinder} {i : ItemRef} {n : Nat}

theorem tiles_of_bare (h : ∀ pos, (w'.tile pos).map Tile.bare = (w.tile pos).map Tile.bare)
    (pos : Position) : (w'.tile pos).isSome = (w.tile pos).isSome := by
  have := congrArg Option.isSome (h pos)
  simpa only [Option.isSome_map] using this

theorem Kept.tiles (h : Kept w w') : ∀ pos, (w'.tile pos).isSome = (w.tile pos).isSome :=
  tiles_of_bare h.tile

theorem Touched.tiles (h : Touched w w' i) :
    ∀ pos, (w'.tile pos).isSome = (w.tile pos).isSome := tiles_of_bare h.tile

/-- A tile that was kept, flags apart. -/
theorem bare_of_tile (h : ∀ pos, (w'.tile pos).map Tile.bare = (w.tile pos).map Tile.bare)
    {pos : Position} {t' : Tile} (ht : w'.tile pos = some t') :
    ∃ t, w.tile pos = some t ∧ t'.bare = t.bare := by
  have same := h pos
  rw [ht, Option.map_some] at same
  obtain ⟨t, ht', bare⟩ := Option.map_eq_some_iff.mp same.symm
  exact ⟨t, ht', bare.symm⟩

theorem Kept.taken (h : Kept w w') (h' : Taken w' w'' c i) : Taken w w'' c i where
  items := h'.items.trans h.items
  next := h'.next.trans h.next
  stack i := (h'.stack i).trans (h.stack i)
  took := h.things ▸ h'.took
  found ho hf := h'.found ho (h.found.mpr hf)
  slot p s := by
    rw [← h.inventory p]
    exact h'.slot p s
  tiles pos := (h'.tiles pos).trans (h.tiles pos)

theorem Taken.kept (h : Taken w w' c i) (h' : Kept w' w'') : Taken w w'' c i where
  items := h'.items.trans h.items
  next := h'.next.trans h.next
  stack i := (h'.stack i).trans (h.stack i)
  took := h'.things ▸ h.took
  found ho hf := h'.found.mpr (h.found ho hf)
  slot p s := by
    rw [h'.inventory p]
    exact h.slot p s
  tiles pos := (h'.tiles pos).trans (h.tiles pos)

theorem Kept.added (h : Kept w w') (h' : Added w' w'' c i) : Added w w'' c i where
  items := h'.items.trans h.items
  next := h'.next.trans h.next
  stack i := (h'.stack i).trans (h.stack i)
  put := h.things ▸ h'.put
  found hf := h'.found (h.found.mpr hf)
  inventory p hp := (h'.inventory p hp).trans (h.inventory p)
  tiles pos := (h'.tiles pos).trans (h.tiles pos)

theorem Added.kept (h : Added w w' c i) (h' : Kept w' w'') : Added w w'' c i where
  items := h'.items.trans h.items
  next := h'.next.trans h.next
  stack i := (h'.stack i).trans (h.stack i)
  put := h'.things ▸ h.put
  found hf := h'.found.mpr (h.found hf)
  inventory p hp := (h'.inventory p).trans (h.inventory p hp)
  tiles pos := (h'.tiles pos).trans (h.tiles pos)

theorem Touched.kept (h : Touched w w' i) (h' : Kept w' w'') : Touched w w'' i where
  items := h'.items.trans h.items
  next := h.next.trans h'.next.ge
  stack o ho := (h'.stack o).trans (h.stack o ho)
  born := by
    rw [Item.shell_of_stack (h'.stack i), h'.next]
    exact h.born
  things := h'.things.trans h.things
  found hf := h'.found.mpr (h.found hf)
  inventory p := (h'.inventory p).trans (h.inventory p)
  tile pos := (h'.tile pos).trans (h.tile pos)

theorem Recounted.kept (h : Recounted w w' i n) (h' : Kept w' w'') : Recounted w w'' i n where
  toTouched := h.toTouched.kept h'
  id := (h'.id i).trans h.id
  shell := (Item.shell_of_stack (h'.stack i)).trans h.shell
  count := (Item.getItemCount_of_stack (h'.stack i)).trans h.count
  sameNext := h'.next.trans h.sameNext

end Composing

/-! ### The containers there are -/

/-- A container as it was made: its kind, its size and its two switches. -/
def shellOf (w : World) (c : ItemRef) : Option Container :=
  (w.getContainer c).map fun k => { k with itemlist := [], totalWeight := 0 }

theorem shellOf_eq (w : World) (c : ItemRef) :
    w.shellOf c = match (w.item c).cls.shell with
      | .container k => some k
      | _ => none := by
  unfold shellOf getContainer Item.getContainer
  cases (w.item c).cls <;> rfl

theorem shellOf_congr {c : ItemRef} (h : (w'.item c).cls.shell = (w.item c).cls.shell) :
    w'.shellOf c = w.shellOf c := by rw [shellOf_eq, shellOf_eq, h]

theorem shellOf_isNone {c : ItemRef} : w.shellOf c = none ↔ w.getContainer c = none :=
  Option.map_eq_none_iff

/-! ### Well-formed worlds -/

/-- Every item is listed at most once, and the next reference is still free. -/
structure WellFormed (w : World) : Prop where
  once : Ledger.Once w.things
  fresh : ∀ {c i}, i ∈ w.things c → i < w.next
  unused : ∀ {c}, w.next ≤ c → w.getContainer c = none

theorem itemlist_of_getContainer_none {c : ItemRef} (h : w.getContainer c = none) :
    w.itemlist c = [] := by
  have : (w.item c).getContainer = none := h
  rw [itemlist, Item.itemlist, this]
  rfl

/-- Whether a world is well formed can be seen from the cylinders that list something. -/
theorem WellFormed.of_listed (l : List Cylinder)
    (empty : ∀ c, c ∉ l → w.things c = []) (once : (l.flatMap w.things).Nodup)
    (fresh : ∀ i ∈ l.flatMap w.things, i < w.next)
    (unused : ∀ c, w.next ≤ c → w.getContainer c = none) : WellFormed w where
  once := by
    rw [List.nodup_flatMap] at once
    have listed : ∀ {c i}, i ∈ w.things c → c ∈ l := by
      intro c i hi
      by_contra out
      rw [empty c out] at hi
      simp at hi
    refine ⟨fun c => ?_, fun {p q r} hp hq => ?_⟩
    · by_cases hc : c ∈ l
      · exact once.1 c hc
      · rw [empty c hc]
        exact List.nodup_nil
    · by_contra ne
      have : Std.Symm (Function.onFun List.Disjoint w.things) := ⟨fun _ _ h => h.symm⟩
      exact once.2.forall (listed hp) (listed hq) ne hp hq
  fresh {c i} hi := by
    refine fresh i (List.mem_flatMap.mpr ⟨c, ?_, hi⟩)
    by_contra out
    rw [empty c out] at hi
    simp at hi
  unused hc := unused _ hc

theorem WellFormed.next_unlisted (h : WellFormed w) (c : Cylinder) : w.next ∉ w.things c :=
  fun hn => Nat.lt_irrefl _ (h.fresh hn)

namespace WellFormed

variable {c : Cylinder} {i : ItemRef} {n : Nat}

theorem kept (h : WellFormed w) (hk : Kept w w') : WellFormed w' where
  once := hk.things ▸ h.once
  fresh hi := hk.next ▸ h.fresh (hk.things ▸ hi)
  unused {r} hr := by
    rw [← shellOf_isNone, shellOf_congr (Item.shell_of_stack (hk.stack r)), shellOf_isNone]
    exact h.unused (hk.next ▸ hr)

theorem taken (h : WellFormed w) (ht : Taken w w' c i) : WellFormed w' where
  once := ht.took.once h.once
  fresh hi := ht.next ▸ h.fresh ((ht.took.mem_iff h.once).mp hi).1
  unused {r} hr := by
    rw [← shellOf_isNone, shellOf_congr (Item.shell_of_stack (ht.stack r)), shellOf_isNone]
    exact h.unused (ht.next ▸ hr)

theorem added (h : WellFormed w) (ha : Added w w' c i) (hu : ∀ q, i ∉ w.things q)
    (hi : i < w.next) : WellFormed w' where
  once := ha.put.once h.once hu
  fresh {q o} ho := by
    rw [ha.next]
    rcases ha.put.eq_or_mem ho with ⟨rfl, -⟩ | ho
    · exact hi
    · exact h.fresh ho
  unused {r} hr := by
    rw [← shellOf_isNone, shellOf_congr (Item.shell_of_stack (ha.stack r)), shellOf_isNone]
    exact h.unused (ha.next ▸ hr)

theorem touched (h : WellFormed w) (ht : Touched w w' i) : WellFormed w' where
  once := ht.things ▸ h.once
  fresh hi := lt_of_lt_of_le (h.fresh (ht.things ▸ hi)) ht.next
  unused {r} hr := by
    have shell : (w'.item r).cls.shell = (w.item r).cls.shell := by
      by_cases e : r = i
      · subst e
        exact ht.born.resolve_right fun born => absurd born.2 (Nat.not_lt.mpr hr)
      · exact Item.shell_of_stack (ht.stack r e)
    rw [← shellOf_isNone, shellOf_congr shell, shellOf_isNone]
    exact h.unused (ht.next.trans hr)

end WellFormed

/-! ### Totals -/

section Totals

variable {S : Finset Cylinder} {c : Cylinder} {i : ItemRef} {n : Nat}

theorem Kept.total (h : Kept w w') (id : Nat) : w'.total S id = w.total S id := by
  rw [World.total, World.total, h.things, h.units]

theorem Taken.total (h : Taken w w' c i) (hc : c ∈ S) (id : Nat) :
    w'.total S id + w.units id i = w.total S id := by
  rw [World.total, World.total, h.units]
  exact Ledger.total_took hc h.took

theorem Added.total (h : Added w w' c i) (hc : c ∈ S) (id : Nat) :
    w'.total S id = w.total S id + w.units id i := by
  rw [World.total, World.total, h.units]
  exact Ledger.total_put hc h.put

theorem Touched.total (h : Touched w w' i) (hi : ∀ q, i ∉ w.things q) (id : Nat) :
    w'.total S id = w.total S id := by
  rw [World.total, World.total, h.things]
  exact Ledger.total_unlisted hi fun o ho => h.units id ho

theorem Touched.total_listed (h : Touched w w' i) (hw : WellFormed w) (hc : c ∈ S)
    (hi : i ∈ w.things c) (id : Nat) :
    w'.total S id + w.units id i = w.total S id + w'.units id i := by
  rw [World.total, World.total, h.things]
  exact Ledger.total_revalue hw.once hc hi fun o ho => h.units id ho

end Totals

end World

end TibServer
