import TibServer.Contents

/-!
What each operation of a cylinder does to the lists and the stacks: a chain of
lemmas from the single writes (an item, a container's list, a slot, a tile) up
to the virtual `addThing`, `updateThing` and `removeThing`.
-/

namespace TibServer

namespace World

variable {w w' w'' : World}

/-! ### Changing an item, a container, a player, a tile -/

theorem setItem_item (w : World) (i : ItemRef) (f : Item → Item) (o : ItemRef) :
    (w.setItem i f).item o = if o = i then f (w.item i) else w.item o := by
  by_cases h : o = i <;> simp [setItem, h]

@[simp] theorem setItem_items (i : ItemRef) (f : Item → Item) :
    (w.setItem i f).items = w.items := rfl
@[simp] theorem setItem_player (i : ItemRef) (f : Item → Item) :
    (w.setItem i f).player = w.player := rfl
@[simp] theorem setItem_tile (i : ItemRef) (f : Item → Item) :
    (w.setItem i f).tile = w.tile := rfl
@[simp] theorem setItem_next (i : ItemRef) (f : Item → Item) :
    (w.setItem i f).next = w.next := rfl

theorem setItem_itemlist (w : World) {i : ItemRef} {f : Item → Item}
    (hf : ∀ x, (f x).itemlist = x.itemlist) (c : ItemRef) :
    (w.setItem i f).itemlist c = w.itemlist c := by
  simp only [itemlist, setItem_item]
  split
  · next h => rw [hf, h]
  · rfl

/-- A change of an item that only concerns its place or the weight of its contents. -/
theorem setItem_kept (w : World) {i : ItemRef} {f : Item → Item}
    (hs : ∀ x, (f x).stack = x.stack) (hl : ∀ x, (f x).itemlist = x.itemlist) :
    Kept w (w.setItem i f) where
  items := rfl
  next := rfl
  stack o := by
    rw [setItem_item]
    split
    · next h => rw [hs, h]
    · rfl
  itemlist := w.setItem_itemlist hl
  inventory _ := rfl
  tile _ := rfl

theorem setParent_kept (w : World) (i : ItemRef) (p : Option Cylinder) :
    Kept w (w.setItem i (·.setParent p)) :=
  w.setItem_kept (fun _ => rfl) (fun _ => rfl)

theorem setTotalWeight_kept (w : World) (c : ItemRef) (f : Container → BitVec 32) :
    Kept w (w.setContainer c fun k => { k with totalWeight := f k }) := by
  refine w.setItem_kept (fun x => ?_) (fun x => ?_)
  all_goals
    rcases x with ⟨id, count, attributes, parent, cls⟩
    cases cls <;> rfl

theorem updateItemWeight_kept (w : World) (c : ItemRef) (diff : BitVec 32) :
    Kept w (w.updateItemWeight c diff) := by
  suffices ∀ n w c, Kept w (updateItemWeightAux n w c diff) from this _ _ _
  intro n
  induction n with
  | zero => exact fun w _ => Kept.refl w
  | succ n ih =>
      intro w c
      have here := w.setTotalWeight_kept c fun k => k.totalWeight + diff
      simp only [updateItemWeightAux]
      split
      · exact here.trans (ih _ _)
      · exact here

theorem setPlayer_kept (w : World) {p : PlayerId} {pl : Player}
    (h : pl.inventory = (w.player p).inventory) : Kept w (w.setPlayer p pl) where
  items := rfl
  next := rfl
  stack _ := rfl
  itemlist _ := rfl
  inventory q := by
    by_cases hq : q = p
    · subst hq
      simp [setPlayer, h]
    · simp [setPlayer, hq]
  tile _ := rfl

theorem setFlags_kept (w : World) {pos : Position} {t t' : Tile} (h : w.tile pos = some t)
    (ht : t'.bare = t.bare) : Kept w (w.setTile pos t') where
  items := rfl
  next := rfl
  stack _ := rfl
  itemlist _ := rfl
  inventory _ := rfl
  tile q := by
    by_cases hq : q = pos
    · subst hq
      simp [setTile, h, ht]
    · simp [setTile, hq]

theorem postNotification_kept (w : World) (c : Cylinder) : Kept w (w.postNotification c) := by
  unfold postNotification
  split
  · unfold updateInventoryWeight
    simp only
    split
    · rfl
    · exact w.setPlayer_kept rfl
  · rfl

/-! ### Containers -/

theorem itemlist_setItemlist (w : World) {c : ItemRef} {k : Container}
    (hc : w.getContainer c = some k) (l : List ItemRef) (o : ItemRef) :
    (w.setItemlist c l).itemlist o = if o = c then l else w.itemlist o := by
  have hc' : (w.item c).getContainer = some k := hc
  simp only [setItemlist, setContainer, itemlist, setItem_item]
  split
  · simp only [hc']
    rfl
  · rfl

theorem setItemlist_stack (w : World) (c : ItemRef) (l : List ItemRef) (o : ItemRef) :
    ((w.setItemlist c l).item o).stack = (w.item o).stack := by
  simp only [setItemlist, setContainer, setItem_item]
  split
  · next h =>
      subst h
      rcases w.item o with ⟨id, count, attributes, parent, cls⟩
      cases cls <;> rfl
  · rfl

theorem getContainer_of_mem {c i : ItemRef} (h : i ∈ w.itemlist c) :
    ∃ k, w.getContainer c = some k := by
  cases hc : w.getContainer c with
  | none =>
      have : (w.item c).getContainer = none := hc
      simp [itemlist, Item.itemlist, this] at h
  | some k => exact ⟨k, rfl⟩

/-- Writing the list of a container changes what lies there only. -/
theorem setItemlist_things (w : World) {c : ItemRef} {k : Container}
    (hc : w.getContainer c = some k) (l : List ItemRef) :
    (w.setItemlist c l).things = Function.update w.things (.container c) l := by
  funext q
  by_cases hq : q = .container c
  · subst hq
    simp [things, w.itemlist_setItemlist hc]
  · rw [Function.update_of_ne hq]
    cases q with
    | tile pos => rfl
    | player p => rfl
    | container r =>
        have : r ≠ c := fun e => hq (by rw [e])
        simp [things, w.itemlist_setItemlist hc, this]

theorem indexIn_ne {l : List ItemRef} {i : ItemRef} : indexIn l i ≠ -1 ↔ i ∈ l := by
  unfold indexIn
  split
  · next h => exact ⟨fun _ => h, fun _ => by omega⟩
  · next h => exact ⟨fun e => absurd rfl e, fun e => absurd e h⟩

theorem found_container {c i : ItemRef} : w.Found (.container c) i ↔ i ∈ w.itemlist c := by
  simp only [Found, getThingIndex, containerGetThingIndex, indexIn_ne]

/-- Where tiles and inventories stay, an item is still found unless its
container stops listing it. -/
theorem Found.congr {q : Cylinder} {o : ItemRef} (ho : w.Found q o) (hi : w'.items = w.items)
    (hid : (w'.item o).id = (w.item o).id) (ht : w'.tile = w.tile) (hp : w'.player = w.player)
    (hl : ∀ c, o ∈ w.itemlist c → o ∈ w'.itemlist c) : w'.Found q o := by
  cases q with
  | tile pos =>
      simp only [Found, getThingIndex, tileGetThingIndex, isAlwaysOnTop_of_id hi hid, ht] at ho ⊢
      exact ho
  | player p =>
      simp only [Found, getThingIndex, playerGetThingIndex, hp] at ho ⊢
      exact ho
  | container c =>
      rw [found_container] at ho ⊢
      exact hl c ho

theorem setItemlist_found (w : World) {c : ItemRef} {k : Container}
    (hc : w.getContainer c = some k) {l : List ItemRef} {q : Cylinder} {o : ItemRef}
    (hl : o ∈ w.itemlist c → o ∈ l) (ho : w.Found q o) : (w.setItemlist c l).Found q o := by
  refine ho.congr rfl (Item.id_of_stack (w.setItemlist_stack c l o)) rfl rfl fun r hr => ?_
  rw [w.itemlist_setItemlist hc]
  split
  · next h => exact hl (h ▸ hr)
  · exact hr

theorem setItemlist_added (w : World) {c i : ItemRef} {k : Container}
    (hc : w.getContainer c = some k) :
    Added w (w.setItemlist c (i :: w.itemlist c)) (.container c) i where
  items := rfl
  next := rfl
  stack := w.setItemlist_stack c _
  put := by
    rw [w.setItemlist_things hc]
    exact ⟨by simp [things], fun q hq => Function.update_of_ne hq _ _⟩
  found := w.setItemlist_found hc (List.mem_cons_of_mem _)
  inventory _ _ := rfl
  tiles _ := rfl

theorem setItemlist_taken (w : World) {c i : ItemRef} (hi : i ∈ w.itemlist c) :
    Taken w (w.setItemlist c ((w.itemlist c).erase i)) (.container c) i := by
  obtain ⟨k, hc⟩ := getContainer_of_mem hi
  refine ⟨rfl, rfl, w.setItemlist_stack c _, ?_, fun ho => w.setItemlist_found hc fun h => ?_,
    fun _ _ => .inl rfl, fun _ => rfl⟩
  · rw [w.setItemlist_things hc]
    exact ⟨hi, by simp [things], fun q hq => Function.update_of_ne hq _ _⟩
  · exact (List.mem_erase_of_ne ho).mpr h

theorem pushFront_added (w : World) {c i : ItemRef} {kind : ContainerKind}
    (hk : w.kindOf c = some kind) (hb : kind ≠ .browseField) :
    Added w (w.pushFront c i) (.container c) i := by
  have push : w.pushFront c i =
      let w' := (w.setItem i (·.setParent (some (.container c)))).setItemlist c
        (i :: w.itemlist c)
      w'.updateItemWeight c (w'.getWeight i) := by
    unfold pushFront
    rw [hk]
    cases kind with
    | browseField => exact absurd rfl hb
    | _ => rfl
  have linked := w.setParent_kept i (some (.container c))
  obtain ⟨k, hc, -⟩ := Option.map_eq_some_iff.mp hk
  have hc' : ∃ k, (w.setItem i (·.setParent (some (.container c)))).getContainer c = some k := by
    simp only [getContainer, setItem_item]
    split
    · next h => exact ⟨k, by rw [← h]; exact hc⟩
    · exact ⟨k, hc⟩
  obtain ⟨k', hc'⟩ := hc'
  have added := setItemlist_added _ (i := i) hc'
  rw [linked.itemlist] at added
  rw [push]
  exact (linked.added added).kept (updateItemWeight_kept _ _ _)

/-- The count of a listed stack is written; nothing else of it changes that matters. -/
theorem setItem_recounted (w : World) {i : ItemRef} {f : Item → Item} {n : Nat}
    (hid : (f (w.item i)).id = (w.item i).id) (hcls : (f (w.item i)).cls = (w.item i).cls)
    (hn : (f (w.item i)).getItemCount = n) : Recounted w (w.setItem i f) i n where
  items := rfl
  next := le_refl _
  stack o ho := by rw [setItem_item, if_neg ho]
  born := by rw [setItem_item, if_pos rfl, hcls]; exact .inl rfl
  id := by rw [setItem_item, if_pos rfl, hid]
  shell := by rw [setItem_item, if_pos rfl, hcls]
  count := by rw [getItemCount, setItem_item, if_pos rfl, hn]
  sameNext := rfl
  things := by
    funext q
    cases q with
    | container c =>
        simp only [things, itemlist, setItem_item]
        split
        · next h => rw [h, Item.itemlist_of_cls hcls]
        · rfl
    | _ => rfl
  found {q o} ho := by
    refine ho.congr rfl ?_ rfl rfl fun c hc => ?_
    · rw [setItem_item]
      split
      · next h => rw [hid, h]
      · rfl
    · simp only [itemlist, setItem_item] at hc ⊢
      split
      · next h => rwa [Item.itemlist_of_cls hcls, ← h]
      · exact hc
  inventory _ := rfl
  tile _ := rfl

/-- `setID` keeps everything but the attributes when the id stays. -/
theorem setID_id (w : World) (i : Item) (id : Nat) : (w.setID i id).id = id := by
  simp only [setID]
  split <;> split <;> split <;> rfl

theorem setID_count (w : World) (i : Item) (id : Nat) : (w.setID i id).count = i.count := by
  simp only [setID]
  split <;> split <;> split <;> rfl

theorem setID_cls (w : World) (i : Item) (id : Nat) : (w.setID i id).cls = i.cls := by
  simp only [setID]
  split <;> split <;> split <;> rfl

theorem setSubType_id (w : World) (i : Item) (n : Nat) : (w.setSubType i n).id = i.id := by
  simp only [setSubType]
  split
  · rfl
  · split
    · rfl
    · split <;> rfl

theorem setSubType_cls (w : World) (i : Item) (n : Nat) : (w.setSubType i n).cls = i.cls := by
  simp only [setSubType]
  split
  · rfl
  · split
    · rfl
    · split <;> rfl

theorem setID_unique (w : World) (i : Item) (id : Nat) :
    (w.setID i id).hasAttribute .uniqueId = i.hasAttribute .uniqueId := by
  simp only [setID]
  split <;> split <;> split <;>
    (try simp (disch := decide) only [Item.setIntAttr_hasAttribute,
      Item.removeAttribute_hasAttribute]) <;> rfl

theorem setSubType_unique (w : World) (i : Item) (n : Nat) :
    (w.setSubType i n).hasAttribute .uniqueId = i.hasAttribute .uniqueId := by
  simp only [setSubType]
  split
  · exact Item.setIntAttr_hasAttribute _ (by decide)
  · split
    · rfl
    · split
      · exact Item.setIntAttr_hasAttribute _ (by decide)
      · rfl

theorem setSubType_stackable (w : World) {i : Item} (n : Nat)
    (h : (w.items.type i.id).stackable = true) : w.setSubType i n = i.setItemCount n := by
  have fluid := w.items.stackable_not_fluid h
  have splash := w.items.stackable_not_splash h
  simp [setSubType, h, fluid, splash]

/-- The change of a stack that `updateThing` makes when the id stays. -/
theorem updateStack_recounted (w : World) {i : ItemRef} (count : Nat)
    (h : w.isStackable i = true) :
    Recounted w (w.setItem i fun x => w.setSubType (w.setID x (w.item i).id) count) i
      (count % 256) := by
  have stack : (w.items.type (w.setID (w.item i) (w.item i).id).id).stackable = true := by
    rw [setID_id]
    exact h
  refine w.setItem_recounted ?_ ?_ ?_
  · rw [setSubType_id, setID_id]
  · rw [setSubType_cls, setID_cls]
  · rw [w.setSubType_stackable count stack, Item.setItemCount_getItemCount]

/-! #### `addThing`, `updateThing`, `removeThing` of a container -/

theorem kindOf_of_getContainer {c : ItemRef} {k : Container} (hc : w.getContainer c = some k) :
    w.kindOf c = some k.kind := by rw [kindOf, hc, Option.map_some]

theorem containerAddThing_added (w : World) {c i : ItemRef} {index : Int} {k : Container}
    (hc : w.getContainer c = some k) (hb : k.kind ≠ .browseField) (hi : index < k.capacity) :
    Added w (w.containerAddThing c index i) (.container c) i := by
  have add : w.containerAddThing c index i = w.pushFront c i := by
    simp only [containerAddThing, hc, ge_iff_le, not_le.mpr hi, if_false]
  rw [add]
  exact w.pushFront_added (kindOf_of_getContainer hc) hb

theorem containerChange_recounted (w : World) {c i : ItemRef} {f : Item → Item} {n : Nat}
    (h : Recounted w (w.setItem i f) i n) : Recounted w (w.containerChange c i f) i n :=
  h.kept (updateItemWeight_kept _ _ _)

theorem containerRemoveThing_taken (w : World) {c i : ItemRef} {count : Nat}
    (hi : w.Found (.container c) i) (hn : ¬(w.isStackable i = true ∧ count ≠ w.getItemCount i)) :
    Taken w (w.containerRemoveThing c i count) (.container c) i := by
  have remove : w.containerRemoveThing c i count =
      (((w.updateItemWeight c (-w.getWeight i)).setItem i (·.setParent none)).setItemlist c
        ((w.itemlist c).erase i)) := by
    have found : w.containerGetThingIndex c i ≠ -1 := hi
    simp only [containerRemoveThing, found, if_false, hn]
    rw [((updateItemWeight_kept w c (-w.getWeight i)).trans (setParent_kept _ _ _)).itemlist]
  have kept := (updateItemWeight_kept w c (-w.getWeight i)).trans (setParent_kept _ i none)
  have mem : i ∈ ((w.updateItemWeight c (-w.getWeight i)).setItem i
      (·.setParent none)).itemlist c := by
    rw [kept.itemlist]
    exact found_container.mp hi
  have taken := setItemlist_taken _ mem
  rw [kept.itemlist] at taken
  rw [remove]
  exact kept.taken taken

theorem remaining_of_le {itemCount count : Nat} (h : count ≤ itemCount) (hc : itemCount < 256) :
    remaining itemCount count = itemCount - count := by
  have value : (BitVec.ofNat 32 itemCount - BitVec.ofNat 32 count).toInt =
      (itemCount - count : Nat) := by
    have small : (BitVec.ofNat 32 (itemCount - count)).toNat = itemCount - count := by
      rw [BitVec.toNat_ofNat, Nat.mod_eq_of_lt (by omega)]
    rw [BitVec.ofNat_sub_ofNat_of_le _ _ (by omega) h, BitVec.toInt_eq_toNat_of_lt (by omega),
      small]
  rw [remaining, value]
  omega

/-! ### Players -/

theorem mem_slots {s : Nat} : s ∈ slots ↔ 1 ≤ s ∧ s ≤ 11 := by
  simp only [slots, List.mem_range'_1]
  omega

theorem nodup_slots : slots.Nodup := List.nodup_range'

theorem setInventory_inventory (w : World) (p : PlayerId) (s : Nat) (i : Option ItemRef)
    (q : PlayerId) : ((w.setInventory p s i).player q).inventory =
      if q = p then Function.update (w.player p).inventory s i else (w.player q).inventory := by
  by_cases h : q = p
  · subst h
    simp [setInventory, setPlayer]
  · simp [setInventory, setPlayer, h]

@[simp] theorem setInventory_inventory_self (w : World) (p : PlayerId) (s : Nat)
    (i : Option ItemRef) : ((w.setInventory p s i).player p).inventory =
      Function.update (w.player p).inventory s i := by rw [setInventory_inventory, if_pos rfl]

theorem setInventory_things (w : World) (p : PlayerId) (s : Nat) (i : Option ItemRef)
    {q : Cylinder} (hq : q ≠ .player p) : (w.setInventory p s i).things q = w.things q := by
  cases q with
  | player r =>
      have : r ≠ p := fun e => hq (by rw [e])
      simp [things, setInventory, setPlayer, this]
  | _ => rfl

/-- The slot at which an item is found. -/
theorem playerGetThingIndex_found {p : PlayerId} {i : ItemRef}
    (h : w.playerGetThingIndex p i ≠ -1) :
    ∃ s : Nat, s ∈ slots ∧ (w.player p).inventory s = some i ∧ w.playerGetThingIndex p i = s := by
  unfold playerGetThingIndex at h ⊢
  cases hf : slots.find? fun s => (w.player p).inventory s = some i with
  | none => simp [hf] at h
  | some s =>
      exact ⟨s, List.mem_of_find?_eq_some hf, by simpa using List.find?_some hf, rfl⟩

theorem found_player {p : PlayerId} {i : ItemRef} :
    w.Found (.player p) i ↔ i ∈ w.things (.player p) := by
  constructor
  · intro h
    obtain ⟨s, hs, hi, -⟩ := playerGetThingIndex_found h
    exact List.mem_filterMap.mpr ⟨s, hs, hi⟩
  · intro h
    obtain ⟨s, hs, hi⟩ := List.mem_filterMap.mp h
    have found : (slots.find? fun s => (w.player p).inventory s = some i).isSome := by
      rw [List.find?_isSome]
      exact ⟨s, hs, by simpa using hi⟩
    obtain ⟨r, hr⟩ := Option.isSome_iff_exists.mp found
    simp only [Found, getThingIndex, playerGetThingIndex, hr]
    omega

/-- Where only one player's inventory changes, what is found elsewhere stays found. -/
theorem setInventory_found (w : World) {p : PlayerId} {s : Nat} {i : Option ItemRef}
    {q : Cylinder} {o : ItemRef}
    (ho : o ∈ w.things (.player p) → o ∈ (w.setInventory p s i).things (.player p))
    (h : w.Found q o) : (w.setInventory p s i).Found q o := by
  by_cases hq : q = .player p
  · subst hq
    rw [found_player] at h ⊢
    exact ho h
  · cases q with
    | player r =>
        rw [found_player] at h ⊢
        rwa [w.setInventory_things p s i hq]
    | tile pos => exact h
    | container c => exact h

theorem setInventory_taken (w : World) {p : PlayerId} {s : Nat} {i : ItemRef} (hs : s ∈ slots)
    (hi : (w.player p).inventory s = some i) :
    Taken w (w.setInventory p s none) (.player p) i := by
  have perm : (w.things (.player p)).Perm (i :: (w.setInventory p s none).things (.player p)) := by
    simp only [things, setInventory_inventory_self]
    exact Ledger.filterMap_update_none nodup_slots hs hi
  refine ⟨rfl, rfl, fun _ => rfl, .of_perm perm fun q => w.setInventory_things p s none, fun ho =>
    w.setInventory_found fun h => ?_, fun q r => ?_, fun _ => rfl⟩
  · exact (List.mem_cons.mp (perm.mem_iff.mp h)).resolve_left ho
  · rw [setInventory_inventory]
    split
    · next h =>
        by_cases e : r = s
        · exact .inr (by rw [e, Function.update_self])
        · exact .inl (by rw [h, Function.update_of_ne e])
    · exact .inl rfl

theorem setInventory_added (w : World) {p : PlayerId} {s : Nat} {i : ItemRef} (hs : s ∈ slots)
    (hi : (w.player p).inventory s = none) :
    Added w (w.setInventory p s (some i)) (.player p) i := by
  have perm : ((w.setInventory p s (some i)).things (.player p)).Perm
      (i :: w.things (.player p)) := by
    simp only [things, setInventory_inventory_self]
    exact Ledger.filterMap_update_some nodup_slots hs hi
  refine ⟨rfl, rfl, fun _ => rfl, ⟨perm, fun q => w.setInventory_things p s _⟩, w.setInventory_found
    fun h => ?_, fun q hq => ?_, fun _ => rfl⟩
  · exact perm.mem_iff.mpr (List.mem_cons_of_mem _ h)
  · rw [setInventory_inventory, if_neg fun e => hq (by rw [e])]

theorem playerAddThing_added (w : World) {p : PlayerId} {index : Int} {i : ItemRef}
    (hi : 1 ≤ index ∧ index ≤ 11) (hs : w.getInventoryItem p index = none) :
    Added w (w.playerAddThing p index i) (.player p) i := by
  have add : w.playerAddThing p index i =
      (w.setItem i (·.setParent (some (.player p)))).setInventory p index.toNat (some i) := by
    unfold playerAddThing
    rw [if_neg]
    simp only [CONST_SLOT_FIRST, CONST_SLOT_LAST]
    omega
  rw [getInventoryItem, if_pos hi] at hs
  rw [add]
  exact (setParent_kept _ _ _).added (setInventory_added _ (mem_slots.mpr (by omega)) hs)

theorem playerRemoveThing_taken (w : World) {p : PlayerId} {i : ItemRef} {count : Nat}
    (hi : w.Found (.player p) i) (hn : ¬(w.isStackable i = true ∧ count ≠ w.getItemCount i)) :
    Taken w (w.playerRemoveThing p i count) (.player p) i := by
  obtain ⟨s, hs, inv, index⟩ := playerGetThingIndex_found hi
  have remove : w.playerRemoveThing p i count =
      (w.setItem i (·.setParent none)).setInventory p s none := by
    unfold playerRemoveThing
    simp only [index, hn, if_false]
    rw [if_neg (by omega), Int.toNat_natCast]
  rw [remove]
  exact (setParent_kept _ _ _).taken (setInventory_taken _ hs inv)

end World

/-! ### Tiles -/

namespace Tile

theorem downItems_append_topItems (t : Tile) : t.downItems ++ t.topItems = t.itemList :=
  List.take_append_drop _ _

/-- Where an item is found: as the ground, or in the part of the vector its type belongs to. -/
theorem getThingIndex_ne {t : Tile} {top : Bool} {i : ItemRef} :
    t.getThingIndex top i ≠ -1 ↔
      t.ground = some i ∨ if top then i ∈ t.topItems else i ∈ t.downItems := by
  unfold getThingIndex
  by_cases hg : t.ground = some i
  · simp [hg]
  · cases top
    · simp only [hg, if_false, false_or, Bool.false_eq_true]
      split
      · next h => exact ⟨fun _ => h, fun _ => by split <;> omega⟩
      · next h => exact ⟨fun e => absurd rfl e, fun e => absurd e h⟩
    · simp only [hg, if_false, false_or, if_true]
      split
      · next h => exact ⟨fun _ => h, fun _ => by split <;> omega⟩
      · next h => exact ⟨fun e => absurd rfl e, fun e => absurd e h⟩

theorem erase_top {t : Tile} {i : ItemRef} (hi : i ∈ t.topItems) :
    (t.erase true i).downItems = t.downItems ∧ (t.erase true i).topItems = t.topItems.erase i := by
  have len : t.downItems.length = t.downItemCount := by
    have : t.downItemCount < t.itemList.length := by
      by_contra h
      rw [topItems, List.drop_of_length_le (by omega)] at hi
      simp at hi
    rw [downItems, List.length_take]
    omega
  simp only [erase, if_true]
  exact ⟨List.take_left' len, List.drop_left' len⟩

theorem erase_down {t : Tile} {i : ItemRef} (hi : i ∈ t.downItems) :
    (t.erase false i).downItems = t.downItems.erase i ∧
      (t.erase false i).topItems = t.topItems := by
  have pos : 0 < t.downItems.length := List.length_pos_of_mem hi
  have erased : (t.downItems.erase i).length = t.downItems.length - 1 :=
    List.length_erase_of_mem hi
  have len : t.downItems.length = min t.downItemCount t.itemList.length := List.length_take
  simp only [erase, Bool.false_eq_true, if_false]
  by_cases h : t.downItemCount ≤ t.itemList.length
  · have fit : (t.downItems.erase i).length = t.downItemCount - 1 := by omega
    exact ⟨List.take_left' fit, List.drop_left' fit⟩
  · -- no top items
    have none : t.topItems = [] := List.drop_of_length_le (by omega)
    simp only [none, List.append_nil]
    have all : (t.downItems.erase i).length ≤ t.downItemCount - 1 := by omega
    exact ⟨List.take_of_length_le all, List.drop_of_length_le all⟩

@[simp] theorem erase_ground (t : Tile) (top : Bool) (i : ItemRef) :
    (t.erase top i).ground = t.ground := by
  cases top <;> rfl

theorem erase_perm {t : Tile} (top : Bool) {i : ItemRef}
    (hi : if top then i ∈ t.topItems else i ∈ t.downItems) :
    t.itemList.Perm (i :: (t.erase top i).itemList) := by
  rw [← t.downItems_append_topItems]
  cases top
  · exact (List.perm_cons_erase hi).append_right _
  · exact ((List.perm_cons_erase hi).append_left _).trans List.perm_middle

/-- What else was found at an index is still found. -/
theorem erase_getThingIndex_ne {t : Tile} {top top' : Bool} {i o : ItemRef}
    (hi : if top then i ∈ t.topItems else i ∈ t.downItems) (ho : o ≠ i)
    (h : t.getThingIndex top' o ≠ -1) : (t.erase top i).getThingIndex top' o ≠ -1 := by
  rw [getThingIndex_ne] at h ⊢
  rw [erase_ground]
  refine h.imp id fun h => ?_
  cases top <;> cases top' <;> simp only [Bool.false_eq_true, if_false, if_true] at hi h ⊢
  · rw [(erase_down hi).1]
    exact (List.mem_erase_of_ne ho).mpr h
  · rw [(erase_down hi).2]
    exact h
  · rw [(erase_top hi).1]
    exact h
  · rw [(erase_top hi).2]
    exact (List.mem_erase_of_ne ho).mpr h

theorem downItems_length_le (t : Tile) : t.downItems.length ≤ t.downItemCount := by
  rw [downItems, List.length_take]
  exact Nat.min_le_left _ _

/-- With more top items, every item found at an index is still found. -/
theorem insert_top_getThingIndex_ne {t : Tile} {l : List ItemRef} {top : Bool} {o : ItemRef}
    (hl : t.topItems ⊆ l) (h : t.getThingIndex top o ≠ -1) :
    ({ t with itemList := t.downItems ++ l } : Tile).getThingIndex top o ≠ -1 := by
  rw [getThingIndex_ne] at h ⊢
  refine h.imp id fun h => ?_
  cases top <;> simp only [Bool.false_eq_true, if_false, if_true] at h ⊢
  · rw [downItems, List.take_append]
    refine List.mem_append_left _ ?_
    rwa [List.take_of_length_le t.downItems_length_le]
  · have len : t.downItems.length = t.downItemCount := by
      have : t.downItemCount < t.itemList.length := by
        by_contra short
        rw [topItems, List.drop_of_length_le (by omega)] at h
        simp at h
      rw [downItems, List.length_take]
      omega
    rw [topItems, List.drop_left' len]
    exact hl h

/-- With one more down item, every item found at an index is still found. -/
theorem insert_down_getThingIndex_ne {t : Tile} {i o : ItemRef} {top : Bool}
    (h : t.getThingIndex top o ≠ -1) :
    ({ t with itemList := i :: t.itemList, downItemCount := t.downItemCount + 1 } :
      Tile).getThingIndex top o ≠ -1 := by
  rw [getThingIndex_ne] at h ⊢
  refine h.imp id fun h => ?_
  cases top <;> simp only [Bool.false_eq_true, if_false, if_true] at h ⊢
  · exact List.mem_cons_of_mem _ h
  · exact h

end Tile

namespace World

variable {w w' w'' : World}

theorem found_tile {pos : Position} {i : ItemRef} :
    w.Found (.tile pos) i ↔ ∃ t, w.tile pos = some t ∧
      (t.ground = some i ∨ if w.isAlwaysOnTop i then i ∈ t.topItems else i ∈ t.downItems) := by
  simp only [Found, getThingIndex, tileGetThingIndex]
  cases h : w.tile pos with
  | none => simp
  | some t => simp only [Option.some.injEq, exists_eq_left', Tile.getThingIndex_ne]

theorem Found.mem {q : Cylinder} {i : ItemRef} (h : w.Found q i) : i ∈ w.things q := by
  cases q with
  | player p => exact found_player.mp h
  | container c => exact found_container.mp h
  | tile pos =>
      obtain ⟨t, ht, hi⟩ := found_tile.mp h
      simp only [things, ht, List.mem_append, Option.mem_toList]
      rcases hi with hi | hi
      · exact .inl hi
      · rw [← t.downItems_append_topItems, List.mem_append]
        split at hi
        · exact .inr (.inr hi)
        · exact .inr (.inl hi)

@[simp] theorem setTile_tile_self (w : World) (pos : Position) (t : Tile) :
    (w.setTile pos t).tile pos = some t := by simp [setTile]

theorem setTile_things (w : World) (pos : Position) (t : Tile) {q : Cylinder}
    (hq : q ≠ .tile pos) : (w.setTile pos t).things q = w.things q := by
  cases q with
  | tile r =>
      have : r ≠ pos := fun e => hq (by rw [e])
      simp [things, setTile, this]
  | _ => rfl

theorem setTile_isSome (w : World) {pos : Position} {t : Tile} (ht : w.tile pos = some t)
    (t' : Tile) (q : Position) : ((w.setTile pos t').tile q).isSome = (w.tile q).isSome := by
  by_cases h : q = pos
  · subst h
    simp [setTile, ht]
  · simp [setTile, h]

/-- Where only one tile changes, what is found elsewhere stays found. -/
theorem setTile_found (w : World) {pos : Position} {t : Tile} {q : Cylinder} {o : ItemRef}
    (ho : w.Found (.tile pos) o → (w.setTile pos t).Found (.tile pos) o) (h : w.Found q o) :
    (w.setTile pos t).Found q o := by
  by_cases hq : q = .tile pos
  · subst hq
    exact ho h
  · cases q with
    | tile r =>
        have hr : r ≠ pos := fun e => hq (by rw [e])
        have same : (w.setTile pos t).tile r = w.tile r := by simp [setTile, hr]
        obtain ⟨t', ht, hi⟩ := found_tile.mp h
        exact found_tile.mpr ⟨t', same.trans ht, hi⟩
    | player p => exact h
    | container c => exact h

theorem resetTileFlags_bare (w : World) (t : Tile) (i : ItemRef) :
    (w.resetTileFlags t i).bare = t.bare := rfl

theorem setTileFlags_bare (w : World) (t : Tile) (i : ItemRef) :
    (w.setTileFlags t i).bare = t.bare := rfl

/-- A tile is written whose lists are those of `t'`, one item fewer than before. -/
theorem setTile_taken (w : World) {pos : Position} {t t' t'' : Tile} {i : ItemRef}
    (ht : w.tile pos = some t) (hb : t''.bare = t'.bare)
    (hl : (t.ground.toList ++ t.itemList).Perm (i :: (t'.ground.toList ++ t'.itemList)))
    (hf : ∀ o top, o ≠ i → t.getThingIndex top o ≠ -1 → t'.getThingIndex top o ≠ -1) :
    Taken w (w.setTile pos t'') (.tile pos) i where
  items := rfl
  next := rfl
  stack _ := rfl
  took := by
    have lists : t''.ground.toList ++ t''.itemList = t'.ground.toList ++ t'.itemList :=
      (congrArg (fun t : Tile => t.ground.toList ++ t.itemList) hb :)
    refine .of_perm ?_ fun q => w.setTile_things pos t''
    simpa only [things, ht, setTile_tile_self, lists] using hl
  found {q o} ho := w.setTile_found fun h => by
    have index : t''.getThingIndex (w.isAlwaysOnTop o) o =
        t'.getThingIndex (w.isAlwaysOnTop o) o :=
      (congrArg (fun t : Tile => t.getThingIndex (w.isAlwaysOnTop o) o) hb :)
    simp only [Found, getThingIndex, tileGetThingIndex, ht, setTile_tile_self] at h ⊢
    exact index ▸ hf o _ ho h
  slot _ _ := .inl rfl
  tiles := w.setTile_isSome ht t''

/-- The same with one item more. -/
theorem setTile_added (w : World) {pos : Position} {t t' t'' : Tile} {i : ItemRef}
    (ht : w.tile pos = some t) (hb : t''.bare = t'.bare)
    (hl : (t'.ground.toList ++ t'.itemList).Perm (i :: (t.ground.toList ++ t.itemList)))
    (hf : ∀ o top, t.getThingIndex top o ≠ -1 → t'.getThingIndex top o ≠ -1) :
    Added w (w.setTile pos t'') (.tile pos) i where
  items := rfl
  next := rfl
  stack _ := rfl
  put := by
    have lists : t''.ground.toList ++ t''.itemList = t'.ground.toList ++ t'.itemList :=
      (congrArg (fun t : Tile => t.ground.toList ++ t.itemList) hb :)
    refine ⟨?_, fun q => w.setTile_things pos t''⟩
    simpa only [things, ht, setTile_tile_self, lists] using hl
  found {q o} := w.setTile_found fun h => by
    have index : t''.getThingIndex (w.isAlwaysOnTop o) o =
        t'.getThingIndex (w.isAlwaysOnTop o) o :=
      (congrArg (fun t : Tile => t.getThingIndex (w.isAlwaysOnTop o) o) hb :)
    simp only [Found, getThingIndex, tileGetThingIndex, ht, setTile_tile_self] at h ⊢
    exact index ▸ hf o _ h
  inventory _ _ := rfl
  tiles := w.setTile_isSome ht t''

theorem insertTop_perm (w : World) (i : ItemRef) (l : List ItemRef) :
    (w.insertTop i l).Perm (i :: l) := by
  induction l with
  | nil => rfl
  | cons o l ih =>
      simp only [insertTop]
      split
      · rfl
      · exact (ih.cons o).trans (List.Perm.swap _ _ _)

theorem tileErase_taken (w : World) {pos : Position} {t : Tile} {i : ItemRef}
    (ht : w.tile pos = some t) (hg : t.ground ≠ some i) (hi : w.Found (.tile pos) i) :
    Taken w (w.tileErase pos t i) (.tile pos) i := by
  obtain ⟨t₁, ht₁, mem⟩ := found_tile.mp hi
  obtain rfl : t = t₁ := Option.some.inj (ht.symm.trans ht₁)
  replace mem := mem.resolve_left hg
  have kept := setParent_kept w i none
  refine kept.taken (setTile_taken _ ht (resetTileFlags_bare _ _ _) ?_ ?_)
  · rw [Tile.erase_ground]
    exact ((Tile.erase_perm _ mem).append_left _).trans List.perm_middle
  · exact fun o top' => Tile.erase_getThingIndex_ne mem

theorem tileRemoveThing_taken (w : World) {pos : Position} {i : ItemRef} {count : Nat}
    (hi : w.Found (.tile pos) i) (hn : ¬(w.isStackable i = true ∧ count ≠ w.getItemCount i)) :
    Taken w (w.tileRemoveThing pos i count) (.tile pos) i := by
  obtain ⟨t, ht, -⟩ := found_tile.mp hi
  have found : w.tileGetThingIndex pos i ≠ -1 := hi
  have part : (!w.isAlwaysOnTop i && w.isStackable i && count != w.getItemCount i) = false := by
    simp only [Bool.and_eq_false_iff, bne_eq_false_iff_eq]
    by_cases hs : w.isStackable i = true
    · exact .inr (by_contra fun h => hn ⟨hs, h⟩)
    · exact .inl (.inr (Bool.eq_false_iff.mpr hs))
  unfold tileRemoveThing
  simp only [ht, found, part, if_false, Bool.false_eq_true]
  by_cases hg : t.ground = some i
  · rw [if_pos hg]
    refine (setParent_kept w i none).taken
      (setTile_taken _ ht (resetTileFlags_bare w { t with ground := none } i) ?_ ?_)
    · simp [hg]
    · intro o top ho h
      rw [Tile.getThingIndex_ne] at h ⊢
      refine h.imp (fun e => ?_) id
      exact absurd (Option.some.inj (e.symm.trans hg)) ho
  · rw [if_neg hg]
    exact w.tileErase_taken ht hg hi

theorem tileInsert_item (w : World) (pos : Position) (i : ItemRef) :
    (w.tileInsert pos i).item = w.item := by
  unfold tileInsert
  split <;> rfl

theorem tileInsert_items (w : World) (pos : Position) (i : ItemRef) :
    (w.tileInsert pos i).items = w.items := by
  unfold tileInsert
  split <;> rfl

theorem tileInsert_next (w : World) (pos : Position) (i : ItemRef) :
    (w.tileInsert pos i).next = w.next := by
  unfold tileInsert
  split <;> rfl

/-- A tile with room takes an item in, unless the item stands for one it replaces. -/
theorem tileInsert_added (w : World) {pos : Position} {t : Tile} {i : ItemRef}
    (ht : w.tile pos = some t) (hg : (w.typeOf i).isGroundTile = true → t.ground = none) :
    Added w (w.tileInsert pos i) (.tile pos) i := by
  unfold tileInsert
  simp only [ht]
  refine setTile_added _ ht (setTileFlags_bare _ _ _) ?_ ?_
  · split
    · next ground => simp [hg ground]
    · split
      · refine (List.Perm.append_left _ ?_).trans List.perm_middle
        refine ((w.insertTop_perm i t.topItems).append_left t.downItems).trans ?_
        refine List.perm_middle.trans (List.Perm.cons _ ?_)
        rw [t.downItems_append_topItems]
      · exact List.perm_middle
  · intro o top h
    split
    · next ground =>
        rw [Tile.getThingIndex_ne] at h ⊢
        exact h.imp (fun e => absurd ((hg ground).symm.trans e) (by simp)) id
    · split
      · refine Tile.insert_top_getThingIndex_ne (fun x hx => ?_) h
        exact (w.insertTop_perm i t.topItems).mem_iff.mpr (List.mem_cons_of_mem _ hx)
      · exact Tile.insert_down_getThingIndex_ne h

theorem tileAddThing_added (w : World) {pos : Position} {t : Tile} {i : ItemRef}
    (ht : w.tile pos = some t) (room : t.itemList.length < 0xFFFF)
    (hr : w.replacedItem t i = none) : Added w (w.tileAddThing pos i) (.tile pos) i := by
  have kept := setParent_kept w i (some (.tile pos))
  have type : (w.setItem i (·.setParent (some (.tile pos)))).typeOf i = w.typeOf i := kept.typeOf i
  have replaced : (w.setItem i (·.setParent (some (.tile pos)))).replacedItem t i = none := by
    have types : (w.setItem i (·.setParent (some (.tile pos)))).typeOf = w.typeOf :=
      funext kept.typeOf
    have cls : ∀ o, ((w.setItem i (·.setParent (some (.tile pos)))).item o).getMagicField =
        (w.item o).getMagicField := by
      intro o
      rw [setItem_item]
      split
      · next h => rw [h]; rfl
      · rfl
    simpa only [replacedItem, types, cls] using hr
  have add : w.tileAddThing pos i =
      (w.setItem i (·.setParent (some (.tile pos)))).tileInsert pos i := by
    unfold tileAddThing
    simp only [ht, not_le.mpr room, if_false, replaced]
  rw [add]
  refine kept.added (tileInsert_added _ ht fun ground => ?_)
  rw [type] at ground
  simpa only [replacedItem, ground, if_true] using hr

/-! ### The virtual operations -/

/-- A whole item is taken out. -/
theorem removeThing_taken (w : World) {c : Cylinder} {i : ItemRef} {count : Nat}
    (hi : w.Found c i) (hn : ¬(w.isStackable i = true ∧ count ≠ w.getItemCount i)) :
    Taken w (w.removeThing c i count) c i := by
  cases c with
  | tile pos => exact w.tileRemoveThing_taken hi hn
  | player p => exact w.playerRemoveThing_taken hi hn
  | container c => exact w.containerRemoveThing_taken hi hn

theorem isAlwaysOnTop_of_stackable {i : ItemRef} (h : w.isStackable i = true) :
    w.isAlwaysOnTop i = false := w.items.stackable_down _ h

/-- A part of a stack is taken out: what is left stays where it is. -/
theorem removeThing_recounted (w : World) {c : Cylinder} {i : ItemRef} {count : Nat}
    (hi : w.Found c i) (hs : w.isStackable i = true) (hc : count < w.getItemCount i)
    (hg : ∀ pos t, c = .tile pos → w.tile pos = some t → t.ground ≠ some i) :
    Recounted w (w.removeThing c i count) i (w.getItemCount i - count) ∧
      ((w.removeThing c i count).item i).attributes = (w.item i).attributes := by
  have fits : w.getItemCount i < 256 := Item.getItemCount_lt _
  have left : remaining (w.getItemCount i) count = w.getItemCount i - count :=
    remaining_of_le hc.le fits
  have ne : count ≠ w.getItemCount i := hc.ne
  have set : Recounted w
      (w.setItem i (·.setItemCount (remaining (w.getItemCount i) count))) i
      (w.getItemCount i - count) := by
    refine w.setItem_recounted rfl rfl ?_
    rw [Item.setItemCount_getItemCount, left, Nat.mod_eq_of_lt (by omega)]
  have attributes : ((w.setItem i (·.setItemCount (remaining (w.getItemCount i) count))).item
      i).attributes = (w.item i).attributes := by
    rw [setItem_item, if_pos rfl]
    rfl
  cases c with
  | tile pos =>
      obtain ⟨t, ht, -⟩ := found_tile.mp hi
      have found : w.tileGetThingIndex pos i ≠ -1 := hi
      have top := isAlwaysOnTop_of_stackable hs
      have remove : w.removeThing (.tile pos) i count =
          w.setItem i (·.setItemCount (remaining (w.getItemCount i) count)) := by
        simp [removeThing, tileRemoveThing, ht, found, hg pos t rfl ht, top, hs, ne]
      rw [remove]
      exact ⟨set, attributes⟩
  | player p =>
      have found : w.playerGetThingIndex p i ≠ -1 := hi
      have remove : w.removeThing (.player p) i count =
          w.setItem i (·.setItemCount (remaining (w.getItemCount i) count)) := by
        simp [removeThing, playerRemoveThing, found, hs, ne]
      rw [remove]
      exact ⟨set, attributes⟩
  | container c =>
      have found : w.containerGetThingIndex c i ≠ -1 := hi
      have remove : w.removeThing (.container c) i count =
          w.containerChange c i (·.setItemCount (remaining (w.getItemCount i) count)) := by
        simp [removeThing, containerRemoveThing, found, hs, ne]
      rw [remove]
      refine ⟨w.containerChange_recounted set, ?_⟩
      rw [← attributes]
      exact Item.attributes_of_stack ((updateItemWeight_kept _ _ _).stack i)

/-- A found stack gets another count. -/
theorem updateThing_recounted (w : World) {c : Cylinder} {i : ItemRef} (count : Nat)
    (hi : w.Found c i) (hs : w.isStackable i = true) :
    Recounted w (w.updateThing c i (w.item i).id count) i (count % 256) := by
  have set := w.updateStack_recounted count hs
  cases c with
  | tile pos =>
      obtain ⟨t, ht, -⟩ := found_tile.mp hi
      have found : w.tileGetThingIndex pos i ≠ -1 := hi
      simp only [updateThing, tileUpdateThing, ht, found, if_false]
      exact set.kept (setFlags_kept _ ht rfl)
  | player p =>
      have found : w.playerGetThingIndex p i ≠ -1 := hi
      simpa only [updateThing, playerUpdateThing, found, if_false] using set
  | container c =>
      have found : w.containerGetThingIndex c i ≠ -1 := hi
      simp only [updateThing, containerUpdateThing, found, if_false]
      exact w.containerChange_recounted set

/-- The place at which `addThing` takes an item in: a slot, a place below the
capacity of a container, a tile with room on which the item stands for no other. -/
def Takes (w : World) (c : Cylinder) (index : Int) (i : ItemRef) : Prop :=
  match c with
  | .tile pos => ∃ t, w.tile pos = some t ∧ t.itemList.length < 0xFFFF ∧ w.replacedItem t i = none
  | .player p => 1 ≤ index ∧ index ≤ 11 ∧ w.getInventoryItem p index = none
  | .container c => ∃ k, w.getContainer c = some k ∧ k.kind ≠ .browseField ∧ index < k.capacity

theorem addThing_added (w : World) {c : Cylinder} {index : Int} {i : ItemRef}
    (h : w.Takes c index i) : Added w (w.addThing c index i) c i := by
  cases c with
  | tile pos =>
      obtain ⟨t, ht, room, hr⟩ := h
      exact w.tileAddThing_added ht room hr
  | player p => exact w.playerAddThing_added ⟨h.1, h.2.1⟩ h.2.2
  | container c =>
      obtain ⟨k, hc, hb, hi⟩ := h
      exact w.containerAddThing_added hc hb hi

/-- A new item that holds nothing changes no list. -/
theorem allocate_touched {x : Item} (hwf : WellFormed w) (hx : x.itemlist = []) :
    Touched w (w.allocate x) w.next where
  items := rfl
  next := Nat.le_succ _
  stack o ho := by simp [allocate, ho]
  born := .inr ⟨le_refl _, Nat.lt_succ_self _⟩
  things := by
    funext c
    cases c with
    | container c =>
        by_cases h : c = w.next
        · subst h
          have hw := itemlist_of_getContainer_none (hwf.unused (le_refl _))
          simp only [things, hw]
          simpa [itemlist, allocate] using hx
        · simp [things, itemlist, allocate, h]
    | _ => rfl
  found {c o} ho := by
    have ne : o ≠ w.next := fun e => hwf.next_unlisted c (e ▸ ho.mem)
    refine Found.congr ho rfl ?_ rfl rfl fun r hr => ?_
    · simp [allocate, ne]
    · by_cases h : r = w.next
      · subst h
        rw [itemlist_of_getContainer_none (hwf.unused (le_refl _))] at hr
        simp at hr
      · simpa [itemlist, allocate, h] using hr
  inventory _ := rfl
  tile _ := rfl

end World

theorem Game.post_kept (g : Game) (c : Cylinder) (index : Int) :
    World.Kept g.world (g.post c index).world := by
  unfold Game.post
  split
  · exact g.world.postNotification_kept c
  · rfl

theorem Game.postItem_kept (g : Game) (c : Cylinder) (item : Option ItemRef) :
    World.Kept g.world (g.postItem c item).world := by
  cases item with
  | none => rfl
  | some x => exact g.post_kept c _

end TibServer
