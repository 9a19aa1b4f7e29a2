import TibServer.Targets

/-!
The accounts of a transfer. Units leave the source, go into a stack of the
destination or into a clone, and what is left is added. The units that are gone
afterwards are those of a clone nobody took in, and those a count of eight bits
could not hold.
-/

namespace TibServer

namespace World

variable {w w' : World}

/-! ### What a transfer leaves as it is -/

/-- Nothing is put anywhere: lists only get shorter, slots only get empty, and
the containers and tiles there are stay. -/
structure Static (w w' : World) : Prop where
  items : w'.items = w.items
  next : w.next ≤ w'.next
  shell : ∀ c, c < w.next → w'.shellOf c = w.shellOf c
  length : ∀ q, (w'.things q).length ≤ (w.things q).length
  slot : ∀ p s, (w'.player p).inventory s = (w.player p).inventory s ∨
    (w'.player p).inventory s = none
  tiles : ∀ pos, (w'.tile pos).isSome = (w.tile pos).isSome

namespace Static

@[refl] theorem refl (w : World) : Static w w :=
  ⟨rfl, le_refl _, fun _ _ => rfl, fun _ => le_refl _, fun _ _ => .inl rfl, fun _ => rfl⟩

theorem trans {w'' : World} (h : Static w w') (h' : Static w' w'') : Static w w'' where
  items := h'.items.trans h.items
  next := h.next.trans h'.next
  shell c hc := (h'.shell c (lt_of_lt_of_le hc h.next)).trans (h.shell c hc)
  length q := (h'.length q).trans (h.length q)
  slot p s := by
    rcases h'.slot p s with e | e
    · rw [e]
      exact h.slot p s
    · exact .inr e
  tiles pos := (h'.tiles pos).trans (h.tiles pos)

theorem slot_none (h : Static w w') {p : PlayerId} {s : Nat}
    (hs : (w.player p).inventory s = none) : (w'.player p).inventory s = none := by
  rcases h.slot p s with e | e
  · rw [e, hs]
  · exact e

end Static

theorem Kept.static (h : Kept w w') : Static w w' where
  items := h.items
  next := h.next.ge
  shell c _ := shellOf_congr (Item.shell_of_stack (h.stack c))
  length q := by rw [h.things]
  slot p s := .inl (by rw [h.inventory])
  tiles := h.tiles

theorem Touched.static {i : ItemRef} (h : Touched w w' i) : Static w w' where
  items := h.items
  next := h.next
  shell c hc := by
    refine shellOf_congr ?_
    by_cases e : c = i
    · subst e
      exact h.born.resolve_right fun born => absurd hc (Nat.not_lt.mpr born.1)
    · exact Item.shell_of_stack (h.stack c e)
  length q := by rw [h.things]
  slot p s := .inl (by rw [h.inventory])
  tiles := h.tiles

theorem Taken.static {c : Cylinder} {i : ItemRef} (h : Taken w w' c i) : Static w w' where
  items := h.items
  next := h.next.ge
  shell c _ := shellOf_congr (Item.shell_of_stack (h.stack c))
  length q := by
    by_cases e : q = c
    · subst e
      rw [h.took.here.length_eq]
      exact List.length_erase_le
    · rw [h.took.other q e]
  slot := h.slot
  tiles := h.tiles

/-! ### Taking units out -/

/-- What `removeThing` does to the source of a transfer of `m` units. -/
structure Removed (w w' : World) (c : Cylinder) (i : ItemRef) (m : Nat) : Prop
    extends Static w w' where
  wellFormed : WellFormed w'
  stack : ∀ o, o ≠ i → (w'.item o).stack = (w.item o).stack
  id : (w'.item i).id = (w.item i).id
  attributes : (w'.item i).attributes = (w.item i).attributes
  found : ∀ {q o}, o ≠ i → w.Found q o → w'.Found q o
  total : ∀ {S : Finset Cylinder}, c ∈ S → ∀ id,
    w'.total S id + (if (w.item i).id = id then m else 0) = w.total S id
  /-- An item that is no stack is out of the world. -/
  gone : w.isStackable i = false → ∀ q, i ∉ w'.things q

theorem Taken.removed (hw : WellFormed w) {c : Cylinder} {i : ItemRef}
    (h : Taken w w' c i) : Removed w w' c i (w.unitsOf i) where
  toStatic := h.static
  wellFormed := hw.taken h
  stack o _ := h.stack o
  id := Item.id_of_stack (h.stack i)
  attributes := Item.attributes_of_stack (h.stack i)
  found := h.found
  total hc id := h.total hc id
  gone _ _ := h.took.unlisted hw.once

theorem Recounted.removed (hw : WellFormed w) {c : Cylinder} {i : ItemRef} {m : Nat}
    (hi : i ∈ w.things c) (hs : w.isStackable i = true) (hm : m ≤ w.getItemCount i)
    (ha : (w'.item i).attributes = (w.item i).attributes)
    (h : Recounted w w' i (w.getItemCount i - m)) : Removed w w' c i m where
  toStatic := h.toTouched.static
  wellFormed := hw.touched h.toTouched
  stack := h.stack
  id := h.id
  attributes := ha
  found _ := h.found
  total {S} hc id := by
    have account := h.toTouched.total_listed hw hc hi id
    have hs' : w'.isStackable i = true := by rw [isStackable_of_id h.items h.id, hs]
    simp only [units, unitsOf, hs, hs', if_true, h.id, h.count] at account ⊢
    by_cases kind : (w.item i).id = id
    · simp only [kind, if_true] at account ⊢
      omega
    · simp only [kind, if_false, Nat.add_zero] at account ⊢
      exact account
  gone hs' := by simp [hs] at hs'

theorem removeThing_removed (hw : WellFormed w) {c : Cylinder} {i : ItemRef} {m : Nat}
    (hi : w.Found c i) (hm : w.isStackable i = true → m ≤ w.getItemCount i)
    (hg : ∀ pos t, c = .tile pos → w.tile pos = some t → t.ground ≠ some i) :
    Removed w (w.removeThing c i m) c i (if w.isStackable i then m else 1) := by
  by_cases part : w.isStackable i = true ∧ m ≠ w.getItemCount i
  · obtain ⟨hs, hne⟩ := part
    have hm := hm hs
    obtain ⟨h, attributes⟩ := w.removeThing_recounted hi hs (lt_of_le_of_ne hm hne) hg
    rw [if_pos hs]
    exact h.removed hw hi.mem hs hm attributes
  · have h := (w.removeThing_taken hi part).removed hw
    have units : w.unitsOf i = if w.isStackable i then m else 1 := by
      unfold unitsOf
      split
      · next hs => exact (not_not.mp fun hne => part ⟨hs, hne⟩).symm
      · rfl
    rwa [units] at h

/-! ### Units that go into a stack -/

/-- The units that go into the stack that takes them. -/
def mergedUnits (w : World) (i : ItemRef) (toItem : Option ItemRef) (m : Nat) : Nat :=
  match w.mergeTarget i toItem with
  | some o => mergeCount (w.getItemCount o) m
  | none => 0

/-- The units its count of eight bits cannot hold. -/
def overflow (w : World) (i : ItemRef) (toItem : Option ItemRef) (m : Nat) : Nat :=
  match w.mergeTarget i toItem with
  | some o =>
      let count := w.getItemCount o + mergeCount (w.getItemCount o) m
      count - count % 256
  | none => 0

theorem mergeTarget_some {i o : ItemRef} {toItem : Option ItemRef}
    (h : w.mergeTarget i toItem = some o) :
    toItem = some o ∧ w.isStackable i = true ∧ w.equals i o = true := by
  simpa [mergeTarget, Option.filter_eq_some_iff] using h

theorem mergeTarget_equals {i o : ItemRef} (hs : w.isStackable i = true)
    (h : w.equals i o = true) : w.mergeTarget i (some o) = some o := by simp [mergeTarget, hs, h]

theorem mergeTarget_single {i : ItemRef} {toItem : Option ItemRef}
    (hs : w.isStackable i = false) : w.mergeTarget i toItem = none := by
  cases toItem <;> simp [mergeTarget, hs]

theorem mergedUnits_le (w : World) (i : ItemRef) (toItem : Option ItemRef) (m : Nat) :
    w.mergedUnits i toItem m ≤ m := by
  unfold mergedUnits
  split
  · exact Nat.min_le_right _ _
  · exact Nat.zero_le _

theorem equals_stackable {i o : ItemRef} (h : w.equals i o = true) :
    w.isStackable o = w.isStackable i := by
  have id := Item.equals_id h
  rw [isStackable, isStackable, typeOf, typeOf, id]

/-- The count written into the stack that takes the units. -/
theorem updateThing_merged (hw : WellFormed w) {c : Cylinder} {i o : ItemRef}
    {toItem : Option ItemRef} {m : Nat} (target : w.mergeTarget i toItem = some o)
    (ho : w.Found c o) :
    let w' := w.updateThing c o (w.item o).id
      (w.getItemCount o + mergeCount (w.getItemCount o) m)
    Recounted w w' o ((w.getItemCount o + mergeCount (w.getItemCount o) m) % 256) ∧
    ∀ {S : Finset Cylinder}, c ∈ S → ∀ id,
      w'.total S id + (if (w.item i).id = id then w.overflow i toItem m else 0) =
        w.total S id + if (w.item i).id = id then w.mergedUnits i toItem m else 0 := by
  intro w'
  obtain ⟨-, hs, he⟩ := mergeTarget_some target
  have stack : w.isStackable o = true := by rw [equals_stackable he, hs]
  have h : Recounted w w' o _ := w.updateThing_recounted _ ho stack
  refine ⟨h, fun {S} hc id => ?_⟩
  have account := h.toTouched.total_listed hw hc ho.mem id
  have stack' : w'.isStackable o = true := by rw [isStackable_of_id h.items h.id, stack]
  simp only [units, unitsOf, stack, stack', if_true, h.id, h.count, ← Item.equals_id he]
    at account
  simp only [overflow, mergedUnits, target]
  by_cases kind : (w.item i).id = id
  · simp only [kind, if_true] at account ⊢
    omega
  · simp only [kind, if_false, Nat.add_zero] at account ⊢
    exact account

/-! ### Units that are added -/

/-- `addThing` does nothing: the index is no slot, or not below the capacity, or
there is no tile. -/
def refuses (w : World) (c : Cylinder) (index : Int) : Bool :=
  match c with
  | .tile pos => (w.tile pos).isNone
  | .player _ => !(decide (1 ≤ index) && decide (index ≤ 11))
  | .container c =>
      match w.getContainer c with
      | some k => k.kind == .browseField || decide ((k.capacity : Int) ≤ index)
      | none => true

/-- Nothing is in the way of an item that is added. -/
def Room (w : World) (c : Cylinder) (index : Int) (i : ItemRef) : Prop :=
  match c with
  | .tile pos => (w.things (.tile pos)).length < 0xFFFF ∧
      (w.typeOf i).isGroundTile = false ∧ (w.typeOf i).isSplash = false ∧
      (w.typeOf i).isMagicField = false
  | .player p => w.getInventoryItem p index = none
  | .container _ => True

theorem addThing_refused {c : Cylinder} {index : Int} (i : ItemRef)
    (h : w.refuses c index = true) : w.addThing c index i = w := by
  cases c with
  | tile pos =>
      have none : w.tile pos = none := Option.isNone_iff_eq_none.mp h
      simp [addThing, tileAddThing, none]
  | player p =>
      have out : index < CONST_SLOT_FIRST ∨ index > CONST_SLOT_LAST := by
        simp only [refuses, Bool.not_eq_true', Bool.and_eq_false_iff, decide_eq_false_iff_not] at h
        simp only [CONST_SLOT_FIRST, CONST_SLOT_LAST]
        omega
      simp only [addThing, playerAddThing, if_pos out]
  | container c =>
      simp only [addThing, containerAddThing]
      cases hc : w.getContainer c with
      | none => rfl
      | some k =>
          simp only [refuses, hc, Bool.or_eq_true, beq_iff_eq, decide_eq_true_eq] at h
          rcases h with browse | past
          · have kind : w.kindOf c = some .browseField := by rw [kindOf, hc, Option.map_some, browse]
            simp only [pushFront, kind, ite_self]
          · simp [past]

theorem takes_of_room {c : Cylinder} {index : Int} {i : ItemRef} (h : w.refuses c index = false)
    (hr : w.Room c index i) : w.Takes c index i := by
  cases c with
  | tile pos =>
      obtain ⟨t, ht⟩ : ∃ t, w.tile pos = some t := by
        rw [← Option.isSome_iff_exists, ← Option.not_isNone, Bool.not_eq_true']
        exact h
      obtain ⟨room, ground, splash, field⟩ := hr
      simp only [things, ht, List.length_append] at room
      refine ⟨t, ht, by omega, ?_⟩
      simp [replacedItem, ground, splash, field]
  | player p =>
      simp only [refuses, Bool.not_eq_false', Bool.and_eq_true, decide_eq_true_eq] at h
      exact ⟨h.1, h.2, hr⟩
  | container c =>
      cases hc : w.getContainer c with
      | none => simp [refuses, hc] at h
      | some k =>
          simp only [refuses, hc, Bool.or_eq_false_iff, beq_eq_false_iff_ne,
            decide_eq_false_iff_not, not_le] at h
          exact ⟨k, hc, h.1, h.2⟩

/-- A container that exists. -/
def Exists (w : World) (c : Cylinder) : Prop := ∀ r, c = .container r → r < w.next

theorem refuses_congr {c : Cylinder} (shell : ∀ r, c = .container r → w'.shellOf r = w.shellOf r)
    (tiles : ∀ pos, (w'.tile pos).isSome = (w.tile pos).isSome) (index : Int) :
    w'.refuses c index = w.refuses c index := by
  cases c with
  | tile pos => rw [refuses, refuses, ← Option.not_isSome, ← Option.not_isSome, tiles pos]
  | player p => rfl
  | container c =>
      have shell := shell c rfl
      simp only [shellOf] at shell
      simp only [refuses]
      cases hk : w.getContainer c <;> cases hk' : w'.getContainer c <;>
        simp only [hk, hk', Option.map_some, Option.map_none, reduceCtorEq, Option.some.injEq]
          at shell ⊢
      exact (congrArg (fun k : Container =>
        k.kind == .browseField || decide ((k.capacity : Int) ≤ index)) shell :)

theorem Static.refuses (h : Static w w') {c : Cylinder} (hc : w.Exists c) (index : Int) :
    w'.refuses c index = w.refuses c index :=
  refuses_congr (fun r e => h.shell r (hc r e)) h.tiles index

theorem Static.room (h : Static w w') {c : Cylinder} {index : Int} {i x : ItemRef}
    (hx : w'.typeOf x = w.typeOf i) (hr : w.Room c index i) : w'.Room c index x := by
  cases c with
  | tile pos =>
      obtain ⟨room, ground, splash, field⟩ := hr
      refine ⟨lt_of_le_of_lt (h.length _) room, ?_⟩
      rw [hx]
      exact ⟨ground, splash, field⟩
  | player p =>
      simp only [Room, getInventoryItem] at hr ⊢
      split
      · next slot =>
          rw [if_pos slot] at hr
          exact h.slot_none hr
      · rfl
  | container c => trivial

/-! ### The clone -/

theorem createdId_stackable {i : Item} (h : (w.items.type i.id).stackable = true) :
    createdId i.id = i.id := w.items.stackable_createdId _ h

theorem constructItem_id (w : World) (type count : Nat) (cls : ItemClass) :
    (w.constructItem type count cls).id = type := by
  simp only [constructItem, apply_ite Item.id, Item.setIntAttr_id, Item.setItemCount_id, ite_self]

theorem constructItem_cls (w : World) (type count : Nat) (cls : ItemClass) :
    (w.constructItem type count cls).cls = cls := by
  simp only [constructItem, apply_ite Item.cls, Item.setIntAttr_cls, Item.setItemCount_cls,
    ite_self]

theorem classOf_plain {it : ItemType} (h : it.isPlain = true) : classOf it = .item := by
  simp only [ItemType.isPlain, Bool.and_eq_true, Bool.or_eq_true, beq_iff_eq] at h
  obtain ⟨group, type⟩ := h
  have container : it.isContainer = false := by simp [ItemType.isContainer, group]
  rcases type with ((type | type) | type) | type <;>
    simp [classOf, ItemType.isDepot, ItemType.isRewardChest, container, ItemType.isTeleport,
      ItemType.isMagicField, ItemType.isDoor, ItemType.isTrashHolder, ItemType.isMailbox,
      ItemType.isBed, type]

/-- A clone of a stack is a plain item of the same kind. -/
theorem cloneItem_stackable {i : Item} (h : (w.items.type i.id).stackable = true) :
    (w.cloneItem i).id = i.id ∧ (w.cloneItem i).cls = .item := by
  have plain := classOf_plain (w.items.stackable_isPlain _ h)
  simp only [cloneItem]
  cases hc : w.createItem i.id i.getItemCount with
  | none => exact ⟨rfl, rfl⟩
  | some x =>
      simp only [createItem] at hc
      split at hc
      · simp at hc
      · split at hc
        · simp at hc
        · simp only [plain, Option.some.injEq] at hc
          subst hc
          simp only [Option.getD_some]
          rw [constructItem_id, constructItem_cls, createdId_stackable h]
          exact ⟨rfl, rfl⟩

/-! ### What a transfer comes to -/

/-- The units a transfer adds to the destination. -/
def restUnits (w : World) (i : ItemRef) (toItem : Option ItemRef) (m : Nat) : Nat :=
  if w.isStackable i then m - w.mergedUnits i toItem m else 1

/-- The units a transfer loses: those a full stack cannot count, and those the
destination refuses. -/
def transferLoss (w : World) (c : Cylinder) (index : Int) (i : ItemRef)
    (toItem : Option ItemRef) (m : Nat) : Nat :=
  w.overflow i toItem m +
    if w.refuses c index then w.restUnits i toItem m else 0

theorem Removed.equals {w w' : World} {c : Cylinder} {i : ItemRef} {m : Nat}
    (h : Removed w w' c i m) (o : ItemRef) : w'.equals i o = w.equals i o := by
  simp only [World.equals, Item.equals]
  by_cases e : o = i
  · subst e
    rw [h.id, h.attributes]
  · have same := h.stack o e
    rw [h.id, h.attributes, Item.id_of_stack same, Item.attributes_of_stack same]

section Removed

variable {w w' : World} {c : Cylinder} {i : ItemRef} {toItem : Option ItemRef} {m n : Nat}

theorem Removed.isStackable (h : Removed w w' c i n) : w'.isStackable i = w.isStackable i :=
  isStackable_of_id h.items h.id

theorem Removed.mergeTarget (h : Removed w w' c i n) :
    w'.mergeTarget i toItem = w.mergeTarget i toItem := by
  simp only [World.mergeTarget, h.equals, h.isStackable]

/-- The stack that takes units is as full as before. -/
theorem Removed.mergedUnits (h : Removed w w' c i n)
    (ht : ∀ o, w.mergeTarget i toItem = some o → o ≠ i) :
    w'.mergedUnits i toItem m = w.mergedUnits i toItem m := by
  unfold World.mergedUnits
  rw [h.mergeTarget]
  cases target : w.mergeTarget i toItem with
  | none => rfl
  | some o =>
      have same : w'.getItemCount o = w.getItemCount o :=
        Item.getItemCount_of_stack (h.stack o (ht o target))
      simp only [same]

theorem Removed.overflow (h : Removed w w' c i n)
    (ht : ∀ o, w.mergeTarget i toItem = some o → o ≠ i) :
    w'.overflow i toItem m = w.overflow i toItem m := by
  unfold World.overflow
  rw [h.mergeTarget]
  cases target : w.mergeTarget i toItem with
  | none => rfl
  | some o =>
      have same : w'.getItemCount o = w.getItemCount o :=
        Item.getItemCount_of_stack (h.stack o (ht o target))
      simp only [same]

end Removed

/-! ### The units on their way -/

/-- What is left of the item `i` of world `w` in the hand of the transfer: an
object `x` nobody lists, which counts `rest` units, or nothing. -/
structure Carried (w w' : World) (i : ItemRef) (x : Option ItemRef) (rest : Nat) : Prop where
  static : Static w w'
  wellFormed : WellFormed w'
  nothing : x = none → rest = 0
  unlisted : ∀ {y}, x = some y → ∀ q, y ∉ w'.things q
  lt_next : ∀ {y}, x = some y → y < w'.next
  id : ∀ {y}, x = some y → (w'.item y).id = (w.item i).id
  units : ∀ {y}, x = some y → w'.unitsOf y = rest
  positive : ∀ {y}, x = some y → 0 < rest

/-- Units carried after a removal are units carried from the start. -/
theorem Removed.carried {w₁ w₂ : World} {c : Cylinder} {n : Nat} (h : Removed w w₁ c i n) (hc : Carried w₁ w₂ i x rest) :
    Carried w w₂ i x rest where
  static := h.toStatic.trans hc.static
  wellFormed := hc.wellFormed
  nothing := hc.nothing
  unlisted := hc.unlisted
  lt_next := hc.lt_next
  id hx := (hc.id hx).trans h.id
  units := hc.units
  positive := hc.positive

section Adding

variable {i y : ItemRef} {x : Option ItemRef} {rest : Nat} {c : Cylinder} {index : Int}

/-- Where the destination does not refuse it, what is carried is taken in. -/
theorem Carried.added (h : Carried w w' i x rest) (hx : x = some y) (he : w.Exists c)
    (hr : w.Room c index i) (taken : w.refuses c index = false) :
    Added w' (w'.addThing c index y) c y := by
  have type : w'.typeOf y = w.typeOf i := by rw [typeOf, typeOf, h.static.items, h.id hx]
  exact addThing_added w' (takes_of_room (h.static.refuses he index ▸ taken)
    (h.static.room type hr))

/-- Adding what is carried: it is in the destination, or lost. -/
theorem Carried.total {S : Finset Cylinder} (h : Carried w w' i x rest) (hx : x = some y)
    (he : w.Exists c) (hr : w.refuses c index = false → w.Room c index i) (hc : c ∈ S) (id : Nat) :
    (w'.addThing c index y).total S id +
        (if (w.item i).id = id then (if w.refuses c index then rest else 0) else 0) =
      w'.total S id + if (w.item i).id = id then rest else 0 := by
  cases refuses : w.refuses c index with
  | true => rw [addThing_refused y ((h.static.refuses he index).trans refuses), if_pos rfl]
  | false =>
      rw [(h.added hx he (hr refuses) refuses).total hc, World.units, h.id hx, h.units hx]
      split <;> simp

end Adding

/-! ### What a transfer asks -/

/-- What a transfer asks of the world: the item is in the source with at least
the units to move, and is not the ground there; the destination exists, and a
stack that takes units is found in it and is another one. -/
structure Transferable (w : World) (src dst : Cylinder) (i : ItemRef)
    (toItem : Option ItemRef) (m : Nat) : Prop where
  wellFormed : WellFormed w
  found : w.Found src i
  units : w.isStackable i = true → m ≤ w.getItemCount i
  notGround : ∀ pos t, src = .tile pos → w.tile pos = some t → t.ground ≠ some i
  dst_exists : w.Exists dst
  target : ∀ o, w.mergeTarget i toItem = some o → o ≠ i ∧ w.Found dst o

theorem Transferable.removed {src dst : Cylinder} {i : ItemRef}
    {toItem : Option ItemRef} {m : Nat} (h : Transferable w src dst i toItem m) :
    Removed w (w.removeThing src i m) src i (if w.isStackable i then m else 1) :=
  removeThing_removed h.wellFormed h.found h.units h.notGround

end World

namespace Game

open World

variable {g : Game}

/-- What the update of the stack that takes units leaves as it is. -/
structure Merged (w w' : World) (i : ItemRef) : Prop where
  static : Static w w'
  wellFormed : WellFormed w'
  id : (w'.item i).id = (w.item i).id

theorem Merged.isStackable {w w' : World} {i : ItemRef} (h : Merged w w' i) :
    w'.isStackable i = w.isStackable i := isStackable_of_id h.static.items h.id

theorem mergeInto_units (c : Cylinder) (i : ItemRef) (toItem : Option ItemRef) (m : Nat) :
    (g.mergeInto c i toItem m).1 = g.world.mergedUnits i toItem m := by
  unfold mergeInto mergedUnits
  cases g.world.mergeTarget i toItem <;> rfl

/-- The accounts of the units that go into a stack. -/
theorem mergeInto_merged {c : Cylinder} {i : ItemRef} {toItem : Option ItemRef} {m : Nat}
    (hw : WellFormed g.world)
    (ht : ∀ o, g.world.mergeTarget i toItem = some o → o ≠ i ∧ g.world.Found c o) :
    Merged g.world (g.mergeInto c i toItem m).2.2.world i ∧
    ∀ {S : Finset Cylinder}, c ∈ S → ∀ id,
      (g.mergeInto c i toItem m).2.2.world.total S id +
          (if (g.world.item i).id = id then g.world.overflow i toItem m else 0) =
        g.world.total S id +
          if (g.world.item i).id = id then g.world.mergedUnits i toItem m else 0 := by
  cases target : g.world.mergeTarget i toItem with
  | none =>
      simp only [mergeInto, overflow, mergedUnits, target]
      exact ⟨⟨.refl _, hw, rfl⟩, by simp⟩
  | some o =>
      obtain ⟨ne, found⟩ := ht o target
      obtain ⟨h, account⟩ := updateThing_merged hw (m := m) target found
      simp only [mergeInto, target, updateThing_world]
      exact ⟨⟨h.toTouched.static, hw.touched h.toTouched,
        Item.id_of_stack (h.stack i ne.symm)⟩, account⟩

/-- A clone of a stack is a new plain object of its kind. -/
structure Cloned (w w' : World) (i : ItemRef) (n : Nat) : Prop where
  touched : Touched w w' w.next
  lt_next : w.next < w'.next
  id : (w'.item w.next).id = (w.item i).id
  cls : (w'.item w.next).cls = .item
  count : w'.getItemCount w.next = n

theorem cloneWith_cloned {i : ItemRef} {n : Nat} (hw : WellFormed g.world)
    (hs : g.world.isStackable i = true) (hn : n < 256) :
    Cloned g.world (g.cloneWith i n).world i n := by
  obtain ⟨id, cls⟩ := cloneItem_stackable (w := g.world) (i := g.world.item i) hs
  unfold cloneWith
  generalize hc : (g.world.cloneItem (g.world.item i)).setItemCount n = clone
  have cls' : clone.cls = .item := by rw [← hc, Item.setItemCount_cls, cls]
  have object : (g.world.allocate clone).item g.world.next = clone := by simp [allocate]
  refine ⟨allocate_touched hw ?_, Nat.lt_succ_self _, ?_, ?_, ?_⟩
  · simp only [Item.itemlist, Item.getContainer, cls']
    rfl
  · rw [setWorld_world, object, ← hc, Item.setItemCount_id, id]
  · rw [setWorld_world, object, cls']
  · rw [setWorld_world, World.getItemCount, object, ← hc, Item.setItemCount_getItemCount,
      Nat.mod_eq_of_lt hn]

theorem Cloned.unitsOf {w w' : World} {i : ItemRef} {n : Nat} (h : Cloned w w' i n)
    (hs : w.isStackable i = true) : w'.unitsOf w.next = n := by
  have stack : w'.isStackable w.next = true := by
    rw [World.isStackable, typeOf, h.id, h.touched.items]
    exact hs
  rw [World.unitsOf, if_pos stack, h.count]

/-- A clone of a stack is carried until it is added. -/
theorem cloneRest_carried {w : World} {i : ItemRef} (rest : Nat) (h : Merged w g.world i)
    (hs : w.isStackable i = true) (hr : rest < 256) :
    Carried w (g.cloneRest i rest).2.world i (g.cloneRest i rest).1 rest ∧
      ∀ {S : Finset Cylinder} id, (g.cloneRest i rest).2.world.total S id = g.world.total S id := by
  unfold cloneRest
  by_cases some : rest > 0
  · simp only [if_pos some]
    have cloned := cloneWith_cloned h.wellFormed (h.isStackable.trans hs) hr
    have born := cloned.touched
    refine ⟨⟨h.static.trans born.static, h.wellFormed.touched born, by simp, ?_, ?_, ?_, ?_,
      fun _ => some⟩, fun {S} id => born.total h.wellFormed.next_unlisted id⟩
    · rintro y ⟨⟩ q
      rw [born.things]
      exact h.wellFormed.next_unlisted q
    · rintro y ⟨⟩
      exact cloned.lt_next
    · rintro y ⟨⟩
      exact cloned.id.trans h.id
    · rintro y ⟨⟩
      exact cloned.unitsOf (h.isStackable.trans hs)
  · simp only [if_neg some]
    exact ⟨⟨h.static, h.wellFormed, fun _ => by omega, by simp, by simp, by simp, by simp,
      by simp⟩, by simp⟩

/-- A stack is merged into, and a clone made of what is left. -/
theorem merge_carried {c : Cylinder} {i : ItemRef} {toItem : Option ItemRef} {m : Nat}
    (hw : WellFormed g.world) (hs : g.world.isStackable i = true) (hm : m < 256)
    (ht : ∀ o, g.world.mergeTarget i toItem = some o → o ≠ i ∧ g.world.Found c o) :
    Carried g.world (g.merge c i toItem m).2.2.world i (g.merge c i toItem m).1
      (m - g.world.mergedUnits i toItem m) ∧
    ∀ {S : Finset Cylinder}, c ∈ S → ∀ id,
      (g.merge c i toItem m).2.2.world.total S id +
          (if (g.world.item i).id = id then g.world.overflow i toItem m else 0) =
        g.world.total S id +
          if (g.world.item i).id = id then g.world.mergedUnits i toItem m else 0 := by
  obtain ⟨merged, account⟩ := mergeInto_merged (m := m) hw ht
  obtain ⟨carried, same⟩ := cloneRest_carried (m - g.world.mergedUnits i toItem m)
    merged hs (by omega)
  simp only [merge, mergeInto_units]
  refine ⟨carried, fun {S} hc id => ?_⟩
  rw [same]
  exact account hc id

/-! ### The transfer -/

/-- Taking the units out and merging them: what is left is in the hand, and only
what a full stack cannot count is lost. -/
theorem takeUnits_carried {src dst : Cylinder} {i : ItemRef} {toItem : Option ItemRef} {m : Nat}
    (h : Transferable g.world src dst i toItem m) :
    Carried g.world (g.takeUnits src dst i toItem m).2.2.world i
      (g.takeUnits src dst i toItem m).1 (g.world.restUnits i toItem m) ∧
    ∀ {S : Finset Cylinder}, src ∈ S → dst ∈ S → ∀ id,
      (g.takeUnits src dst i toItem m).2.2.world.total S id +
          (if (g.world.item i).id = id then
            g.world.restUnits i toItem m + g.world.overflow i toItem m else 0) =
        g.world.total S id := by
  have removed : Removed g.world (g.removeThing src i m).world src i
      (if g.world.isStackable i then m else 1) := by
    rw [removeThing_world]
    exact h.removed
  cases hs : g.world.isStackable i with
  | true =>
      have hs₁ : (g.removeThing src i m).world.isStackable i = true :=
        removed.isStackable.trans hs
      have ne := fun o ho => (h.target o ho).1
      have fits : m < 256 := lt_of_le_of_lt (h.units hs) (Item.getItemCount_lt _)
      have target : ∀ o, (g.removeThing src i m).world.mergeTarget i toItem = some o →
          o ≠ i ∧ (g.removeThing src i m).world.Found dst o := by
        intro o ho
        rw [removed.mergeTarget] at ho
        exact ⟨ne o ho, removed.found (ne o ho) (h.target o ho).2⟩
      obtain ⟨carried, account⟩ := merge_carried removed.wellFormed hs₁ fits target
      have rest : g.world.restUnits i toItem m = m - g.world.mergedUnits i toItem m := by
        rw [restUnits, hs, if_pos rfl]
      have take : g.takeUnits src dst i toItem m =
          (g.removeThing src i m).merge dst i toItem m := by
        simp only [takeUnits, hs₁, if_true]
      rw [removed.mergedUnits ne] at carried
      rw [take, rest]
      refine ⟨removed.carried carried, fun {S} hsrc hdst id => ?_⟩
      have out := removed.total hsrc id
      have into := account hdst id
      have le := g.world.mergedUnits_le i toItem m
      rw [removed.id, removed.mergedUnits ne, removed.overflow ne] at into
      simp only [hs, if_true] at out ⊢
      by_cases kind : (g.world.item i).id = id
      · simp only [kind, if_true] at out into ⊢
        omega
      · simp only [kind, if_false, Nat.add_zero] at out into ⊢
        omega
  | false =>
      have hs₁ : (g.removeThing src i m).world.isStackable i = false :=
        removed.isStackable.trans hs
      have take : g.takeUnits src dst i toItem m = (some i, none, g.removeThing src i m) := by
        simp only [takeUnits, hs₁, Bool.false_eq_true, if_false]
      have rest : g.world.restUnits i toItem m = 1 := by
        rw [restUnits, hs, if_neg Bool.false_ne_true]
      rw [take, rest]
      refine ⟨⟨removed.toStatic, removed.wellFormed, by simp, ?_, ?_, ?_, ?_, fun _ => one_pos⟩,
        fun {S} hsrc _ id => ?_⟩
      · rintro y ⟨⟩
        exact removed.gone hs
      · rintro y ⟨⟩
        exact lt_of_lt_of_le (h.wellFormed.fresh h.found.mem) removed.next
      · rintro y ⟨⟩
        exact removed.id
      · rintro y ⟨⟩
        rw [unitsOf, hs₁, if_neg Bool.false_ne_true]
      · have out := removed.total hsrc id
        have none : g.world.overflow i toItem m = 0 := by
          simp only [overflow, mergeTarget_single hs]
        simpa only [hs, none, Bool.false_eq_true, if_false, Nat.add_zero] using out

/-- The accounts of a transfer: what is there afterwards and what it lost are what
was there before. -/
theorem transfer_total {src dst : Cylinder} {index : Int} {i : ItemRef}
    {toItem : Option ItemRef} {m : Nat} {S : Finset Cylinder}
    (h : Transferable g.world src dst i toItem m)
    (hr : 0 < g.world.restUnits i toItem m → g.world.refuses dst index = false →
      g.world.Room dst index i)
    (hsrc : src ∈ S) (hdst : dst ∈ S) (id : Nat) :
    (g.transfer src dst index i toItem m).2.world.total S id +
        (if (g.world.item i).id = id then g.world.transferLoss dst index i toItem m else 0) =
      g.world.total S id := by
  obtain ⟨carried, account⟩ := takeUnits_carried h
  have account := account hsrc hdst id
  -- the notifications change no account
  have posted : (g.transfer src dst index i toItem m).2.world.total S id =
      (match (g.takeUnits src dst i toItem m).1 with
        | some x => (g.takeUnits src dst i toItem m).2.2.addThing dst index x
        | none => (g.takeUnits src dst i toItem m).2.2).world.total S id :=
    (((post_kept _ _ _).trans (postItem_kept _ _ _)).trans (postItem_kept _ _ _)).total id
  rw [posted, transferLoss]
  cases hx : (g.takeUnits src dst i toItem m).1 with
  | none =>
      have nothing := carried.nothing hx
      simp only [nothing, ite_self, Nat.add_zero, Nat.zero_add] at account ⊢
      exact account
  | some x =>
      have added := carried.total hx h.dst_exists (hr (carried.positive hx)) hdst id
      simp only [addThing_world] at added ⊢
      by_cases kind : (g.world.item i).id = id
      · simp only [kind, if_true] at account added ⊢
        omega
      · simp only [kind, if_false, Nat.add_zero] at account added ⊢
        omega

end Game

end TibServer
