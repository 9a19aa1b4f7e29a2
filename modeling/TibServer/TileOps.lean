import TibServer.Effects

/-!
The five operations of a tile on its items (`tile.cpp`): what each takes off the
tile, what it puts there, and the runs of such operations on one tile. The add
that loads a map, `internalAddThing`, is modelled here; the other four come from
the mutators.

A creature's coming and going leaves the items of the tile alone, so it is part
of what happens between the operations of a run.
-/

namespace TibServer

/-! ### Faces

What a tile asks an item it holds: its type, whether it is unique, its class. -/

structure Face where
  type : ItemType
  unique : Bool
  cls : ItemClass

namespace World

variable (w : World)

def face (i : ItemRef) : Face where
  type := w.typeOf i
  unique := (w.item i).hasAttribute .uniqueId
  cls := (w.item i).cls.shell

/-- The face of an item that becomes one of another type. -/
def faceAs (i : ItemRef) (it : ItemType) : Face := { w.face i with type := it }

theorem faceAs_typeOf (i : ItemRef) : w.faceAs i (w.typeOf i) = w.face i := rfl

/-! ### The operations -/

/-- Insertion into a list, before the first entry that `stop` accepts. -/
def insertBefore (stop : ItemRef → Bool) (i : ItemRef) : List ItemRef → List ItemRef
  | [] => [i]
  | o :: l => if stop o then i :: o :: l else o :: insertBefore stop i l

/-- The insertion of `Tile::internalAddThing`, before the first of a greater order. -/
def insertTopAbove (i : ItemRef) : List ItemRef → List ItemRef :=
  insertBefore (fun o => (w.typeOf o).alwaysOnTopOrder > (w.typeOf i).alwaysOnTopOrder) i

/-- `Tile::internalAddThing` of an item. -/
def tileInternalAddThing (pos : Position) (i : ItemRef) : World :=
  match w.tile pos with
  | none => w
  | some t =>
      let w := w.setItem i (·.setParent (some (.tile pos)))
      if (w.typeOf i).isGroundTile then
        if t.ground.isNone then
          w.setTile pos (w.setTileFlags { t with ground := some i } i)
        else w
      else if t.itemList.length ≥ 0xFFFF then w
      else if w.isAlwaysOnTop i then
        w.setTile pos
          (w.setTileFlags { t with itemList := t.downItems ++ w.insertTopAbove i t.topItems } i)
      else
        w.setTile pos
          (w.setTileFlags
            { t with itemList := i :: t.itemList, downItemCount := t.downItemCount + 1 } i)

end World

inductive TileOp
  | addThing (i : ItemRef)
  | internalAddThing (i : ItemRef)
  | updateThing (i : ItemRef) (itemId count : Nat)
  | replaceThing (index : Nat) (i : ItemRef)
  | removeThing (i : ItemRef) (count : Nat)
  deriving DecidableEq, Repr

def World.apply (w : World) (pos : Position) : TileOp → World
  | .addThing i => w.tileAddThing pos i
  | .internalAddThing i => w.tileInternalAddThing pos i
  | .updateThing i itemId count => w.tileUpdateThing pos i itemId count
  | .replaceThing index i => w.tileReplaceThing pos index i
  | .removeThing i count => w.tileRemoveThing pos i count

/-! ### What comes and what leaves -/

namespace Tile

/-- The ground and the items, which are the things of a tile but its creatures. -/
def things (t : Tile) : List ItemRef := t.ground.toList ++ t.itemList

end Tile

namespace TileOp

variable (w : World) (t : Tile)

/-- What `removeThing` takes off: nothing, where it is not found or only some
units of a stack go. -/
def removed (i : ItemRef) (count : Nat) : Option ItemRef :=
  if t.getThingIndex (w.isAlwaysOnTop i) i = -1 then none
  else if t.ground = some i then some i
  else if !w.isAlwaysOnTop i && w.isStackable i && count != w.getItemCount i then none
  else some i

/-- A magic field that an added one cannot replace. -/
def withstands (i o : ItemRef) : Bool :=
  !(w.typeOf i).isGroundTile && ((w.typeOf i).isMagicField && !(w.typeOf i).alwaysOnTop &&
    !(w.typeOf o).replaceable)

/-- The item an operation takes off the tile, if any. -/
def leaving : TileOp → Option ItemRef
  | addThing i =>
      if t.itemList.length ≥ 0xFFFF then none
      else
        match w.replacedItem t i with
        | none => none
        | some o =>
            if (w.typeOf i).isGroundTile then some o
            else if withstands w i o then none
            else removed w t o 1
  | internalAddThing _ => none
  | updateThing i _ _ => if t.getThingIndex (w.isAlwaysOnTop i) i = -1 then none else some i
  | replaceThing index i => (t.replaceAt index i).map Prod.fst
  | removeThing i count => removed w t i count

/-- The item an operation puts on the tile, if any, and the type it has there. -/
def coming : TileOp → Option (ItemRef × ItemType)
  | addThing i =>
      if t.itemList.length ≥ 0xFFFF ∨ (w.replacedItem t i).any (withstands w i) then none
      else some (i, w.typeOf i)
  | internalAddThing i =>
      if (w.typeOf i).isGroundTile then
        if t.ground.isNone then some (i, w.typeOf i) else none
      else if t.itemList.length ≥ 0xFFFF then none
      else some (i, w.typeOf i)
  | updateThing i itemId _ =>
      if t.getThingIndex (w.isAlwaysOnTop i) i = -1 then none
      else some (i, w.items.type itemId)
  | replaceThing index i => (t.replaceAt index i).map fun _ => (i, w.typeOf i)
  | removeThing _ _ => none

/-- The operations that write in the place of an item. -/
def InPlace : TileOp → Prop
  | updateThing _ _ _ | replaceThing _ _ => True
  | _ => False

/-- What is added is not on the tile yet. -/
def Fresh : TileOp → Prop
  | addThing i | internalAddThing i | replaceThing _ i => i ∉ t.things
  | _ => True

end TileOp

/-! ### Turns

What an operation makes of the tile: an item is placed, lifted, swapped, or
changed where it lies. -/

namespace World

/-- The order of two top items. -/
def Under (w : World) (i o : ItemRef) : Prop :=
  (w.typeOf i).alwaysOnTopOrder ≤ (w.typeOf o).alwaysOnTopOrder

/-- A tile with an item laid on it. -/
inductive Laid (w : World) (t : Tile) (i : ItemRef) : Tile → Prop
  | ground (bare : t.ground = none) : Laid w t i { t with ground := some i }
  | top {l : List ItemRef} (room : t.itemList.length < 0xFFFF) (onTop : w.isAlwaysOnTop i = true)
      (perm : l.Perm (i :: t.topItems))
      (sorted : t.topItems.Pairwise w.Under → l.Pairwise w.Under) :
      Laid w t i { t with itemList := t.downItems ++ l }
  | down (room : t.itemList.length < 0xFFFF) (below : w.isAlwaysOnTop i = false) :
      Laid w t i { t with itemList := i :: t.itemList, downItemCount := t.downItemCount + 1 }

end World

/-- A tile with an item taken off. -/
inductive Lifted (t : Tile) (o : ItemRef) : Tile → Prop
  | ground (here : t.ground = some o) : Lifted t o { t with ground := none }
  | top (mem : o ∈ t.topItems) : Lifted t o (t.erase true o)
  | down (mem : o ∈ t.downItems) : Lifted t o (t.erase false o)

theorem Lifted.room {t u : Tile} {o : ItemRef} (h : Lifted t o u) :
    u.itemList.length ≤ t.itemList.length := by
  have whole := congrArg List.length t.downItems_append_topItems
  rw [List.length_append] at whole
  cases h with
  | ground here => exact le_rfl
  | top mem =>
      have shorter := List.length_erase_le (l := t.topItems) (a := o)
      simp only [Tile.erase, if_true, List.length_append]
      omega
  | down mem =>
      have shorter := List.length_erase_le (l := t.downItems) (a := o)
      simp only [Tile.erase, Bool.false_eq_true, if_false, List.length_append]
      omega

/-- A tile with an item in another's place. -/
inductive Swapped (t : Tile) (o i : ItemRef) : Tile → Prop
  | ground (here : t.ground = some o) : Swapped t o i { t with ground := some i }
  | item {n : Nat} (here : t.itemList[n]? = some o) :
      Swapped t o i { t with itemList := t.itemList.set n i }

/-- How a tile turns, by the item that leaves and the item that comes. -/
inductive Turned (w : World) (t : Tile) (w' : World) (inPlace : Prop) :
    Option ItemRef → Option (ItemRef × ItemType) → Tile → Prop
  | kept : Turned w t w' inPlace none none t
  | put {i : ItemRef} {u : Tile} (placed : w'.Laid t i u) :
      Turned w t w' inPlace none (some (i, w.typeOf i)) (w'.setTileFlags u i)
  | take {o : ItemRef} {u : Tile} (lifted : Lifted t o u) :
      Turned w t w' inPlace (some o) none (w'.resetTileFlags u o)
  | swap {o i : ItemRef} {u : Tile} (place : t.ground = some o ∨ inPlace)
      (swapped : Swapped t o i u) :
      Turned w t w' inPlace (some o) (some (i, w.typeOf i))
        (w'.setTileFlags (w'.resetTileFlags u o) i)
  | exchange {o i : ItemRef} {u v : Tile} (lifted : Lifted t o u)
      (placed : w'.Laid (w'.resetTileFlags u o) i v) :
      Turned w t w' inPlace (some o) (some (i, w.typeOf i)) (w'.setTileFlags v i)
  | update {i : ItemRef} {it : ItemType} (place : inPlace) (mem : i ∈ t.things) :
      Turned w t w' inPlace (some i) (some (i, it)) (w'.setTileFlags (w.resetTileFlags t i) i)

/-- A turn of the tile, with the faces of the items after it. -/
structure Turn (w : World) (t : Tile) (w' : World) (t' : Tile) (inPlace : Prop)
    (leaving : Option ItemRef) (coming : Option (ItemRef × ItemType)) : Prop where
  turned : Turned w t w' inPlace leaving coming t'
  items : w'.items = w.items
  others : ∀ x, (∀ it, coming ≠ some (x, it)) → w'.face x = w.face x
  newcomer : ∀ i it, coming = some (i, it) → w'.face i = w.faceAs i it

namespace World

variable {w w' w'' : World} {t : Tile} {pos : Position} {i o : ItemRef}

/-! ### Faces are kept -/

theorem setItem_face {f : Item → Item} (id : (f (w.item i)).id = (w.item i).id)
    (unique : (f (w.item i)).hasAttribute .uniqueId = (w.item i).hasAttribute .uniqueId)
    (cls : (f (w.item i)).cls = (w.item i).cls) (x : ItemRef) :
    (w.setItem i f).face x = w.face x := by
  simp only [face, typeOf, setItem_items, setItem_item]
  split
  · next e => rw [e, id, unique, cls]
  · rfl

@[simp] theorem setParent_face (p : Option Cylinder) (x : ItemRef) :
    (w.setItem i (·.setParent p)).face x = w.face x :=
  setItem_face rfl rfl rfl x

@[simp] theorem setItemCount_face (n : Nat) (x : ItemRef) :
    (w.setItem i (·.setItemCount n)).face x = w.face x :=
  setItem_face rfl rfl rfl x

@[simp] theorem setTile_face (x : ItemRef) : (w.setTile pos t).face x = w.face x := rfl

theorem typeOf_of_face (h : w'.face i = w.face i) : w'.typeOf i = w.typeOf i :=
  (congrArg Face.type h :)

theorem isAlwaysOnTop_of_face (h : w'.face i = w.face i) :
    w'.isAlwaysOnTop i = w.isAlwaysOnTop i := by
  rw [isAlwaysOnTop, isAlwaysOnTop, typeOf_of_face h]

theorem hasProperty_of_face (h : w'.face i = w.face i) (prop : ItemProperty) :
    w'.hasProperty i prop = w.hasProperty i prop := by
  have unique : (w'.item i).hasAttribute .uniqueId = (w.item i).hasAttribute .uniqueId :=
    congrArg Face.unique h
  simp only [hasProperty, typeOf_of_face h, unique]

theorem shell_beq (cls : ItemClass) :
    (cls.shell == .teleport) = (cls == .teleport) ∧
      (cls.shell == .magicField) = (cls == .magicField) ∧
      (cls.shell == .mailbox) = (cls == .mailbox) ∧
      (cls.shell == .trashHolder) = (cls == .trashHolder) := by
  cases cls <;> exact ⟨rfl, rfl, rfl, rfl⟩

/-- The class of an object, as far as a tile asks for it. -/
theorem class_of_face (h : w'.face i = w.face i) :
    ((w'.item i).cls == .teleport) = ((w.item i).cls == .teleport) ∧
      ((w'.item i).cls == .magicField) = ((w.item i).cls == .magicField) ∧
      ((w'.item i).cls == .mailbox) = ((w.item i).cls == .mailbox) ∧
      ((w'.item i).cls == .trashHolder) = ((w.item i).cls == .trashHolder) ∧
      (w'.item i).getBed = (w.item i).getBed ∧ w'.kindOf i = w.kindOf i := by
  have cls : (w'.item i).cls.shell = (w.item i).cls.shell := congrArg Face.cls h
  obtain ⟨a, b, c, d⟩ := shell_beq (w.item i).cls
  obtain ⟨a', b', c', d'⟩ := shell_beq (w'.item i).cls
  rw [cls] at a' b' c' d'
  refine ⟨a'.symm.trans a, b'.symm.trans b, c'.symm.trans c, d'.symm.trans d, ?_, ?_⟩
  · simp only [Item.getBed]
    revert cls
    cases (w'.item i).cls <;> cases (w.item i).cls <;> simp [ItemClass.shell]
  · simp only [kindOf, getContainer, Item.getContainer]
    revert cls
    cases (w'.item i).cls <;> cases (w.item i).cls <;> simp [ItemClass.shell]
    exact fun kind _ _ _ => kind

theorem setTileFlags_of_face (h : w'.face i = w.face i) :
    w'.setTileFlags t i = w.setTileFlags t i := by
  obtain ⟨a, b, c, d, e, f⟩ := class_of_face h
  simp only [setTileFlags, typeOf_of_face h, hasProperty_of_face h, a, b, c, d, e, f]

theorem tileHasProperty_of_face (h : ∀ x ∈ t.things, w'.face x = w.face x)
    (prop : ItemProperty) : w'.tileHasProperty t o prop = w.tileHasProperty t o prop := by
  rw [Bool.eq_iff_iff]
  simp only [tileHasProperty, List.any_eq_true]
  refine exists_congr fun x => and_congr_right fun mem => ?_
  rw [hasProperty_of_face (h x mem)]

theorem resetTileFlags_of_face (ho : w'.face o = w.face o)
    (h : ∀ x ∈ t.things, w'.face x = w.face x) :
    w'.resetTileFlags t o = w.resetTileFlags t o := by
  obtain ⟨a, b, c, d, e, f⟩ := class_of_face ho
  simp only [resetTileFlags, typeOf_of_face ho, hasProperty_of_face ho,
    tileHasProperty_of_face h, a, b, c, d, e, f]

theorem Laid.of_face {u : Tile} (h : ∀ x, w'.face x = w.face x) (placed : w.Laid t i u) :
    w'.Laid t i u := by
  have under : w'.Under = w.Under := by
    funext x y
    rw [Under, Under, typeOf_of_face (h x), typeOf_of_face (h y)]
  cases placed with
  | ground bare => exact .ground bare
  | top room onTop perm sorted =>
      exact .top room ((isAlwaysOnTop_of_face (h i)).trans onTop) perm (under ▸ sorted)
  | down room below => exact .down room ((isAlwaysOnTop_of_face (h i)).trans below)

/-! ### Insertion by order -/

theorem insertBefore_perm (stop : ItemRef → Bool) (i : ItemRef) (l : List ItemRef) :
    (insertBefore stop i l).Perm (i :: l) := by
  induction l with
  | nil => rfl
  | cons o l ih =>
      simp only [insertBefore]
      split
      · rfl
      · exact (ih.cons o).trans (List.Perm.swap _ _ _)

theorem insertBefore_sorted {stop : ItemRef → Bool} {l : List ItemRef}
    (stops : ∀ o, stop o = true → w.Under i o) (passes : ∀ o, stop o = false → w.Under o i)
    (h : l.Pairwise w.Under) : (insertBefore stop i l).Pairwise w.Under := by
  induction l with
  | nil => exact List.pairwise_singleton _ _
  | cons o l ih =>
      obtain ⟨ho, hl⟩ := List.pairwise_cons.mp h
      simp only [insertBefore]
      split
      · next here =>
          refine List.pairwise_cons.mpr ⟨fun x mem => ?_, h⟩
          rcases List.mem_cons.mp mem with rfl | mem
          · exact stops _ here
          · exact (stops o here).trans (ho x mem)
      · next past =>
          refine List.pairwise_cons.mpr ⟨fun x mem => ?_, ih hl⟩
          rcases List.mem_cons.mp ((insertBefore_perm stop i l).mem_iff.mp mem) with rfl | mem
          · exact passes o (Bool.eq_false_iff.mpr past)
          · exact ho x mem

theorem insertTop_eq (w : World) (i : ItemRef) (l : List ItemRef) :
    w.insertTop i l =
      insertBefore (fun o => (w.typeOf i).alwaysOnTopOrder ≤ (w.typeOf o).alwaysOnTopOrder) i l := by
  induction l with
  | nil => rfl
  | cons o l ih => simp only [insertTop, insertBefore, ih, decide_eq_true_eq]

theorem insertTop_sorted {l : List ItemRef} (h : l.Pairwise w.Under) :
    (w.insertTop i l).Pairwise w.Under := by
  rw [insertTop_eq]
  refine insertBefore_sorted (fun o le => ?_) (fun o gt => ?_) h
  · simp only [decide_eq_true_eq] at le
    exact le
  · have gt := of_decide_eq_false gt
    simp only [Under]
    omega

theorem insertTopAbove_sorted {l : List ItemRef} (h : l.Pairwise w.Under) :
    (w.insertTopAbove i l).Pairwise w.Under := by
  refine insertBefore_sorted (fun o gt => ?_) (fun o le => ?_) h
  · exact le_of_lt (of_decide_eq_true gt)
  · have le := of_decide_eq_false le
    simp only [Under]
    omega

/-! ### The turn of each operation -/

theorem faces_turn {t' : Tile} {inPlace : Prop} {leaving : Option ItemRef} {coming : Option (ItemRef × ItemType)}
    (turned : Turned w t w' inPlace leaving coming t') (items : w'.items = w.items)
    (faces : ∀ x, w'.face x = w.face x)
    (own : ∀ i it, coming = some (i, it) → it = w.typeOf i) :
    Turn w t w' t' inPlace leaving coming where
  turned := turned
  items := items
  others x _ := faces x
  newcomer i it e := by rw [own i it e, faceAs_typeOf, faces i]

/-- What comes with its own type changes no face. -/
theorem turn_faces {t' : Tile} {inPlace : Prop} {leaving : Option ItemRef}
    {coming : Option (ItemRef × ItemType)} (turn : Turn w t w' t' inPlace leaving coming)
    (own : ∀ i it, coming = some (i, it) → it = w.typeOf i) (x : ItemRef) :
    w'.face x = w.face x := by
  by_cases arrives : ∃ it, coming = some (x, it)
  · obtain ⟨it, e⟩ := arrives
    rw [turn.newcomer x it e, own x it e, faceAs_typeOf]
  · exact turn.others x (not_exists.mp arrives)

theorem tileRemoveThing_faces (at_ : w.tile pos = some t) (count : Nat) :
    (w.tileRemoveThing pos i count).items = w.items ∧
      ∀ x, (w.tileRemoveThing pos i count).face x = w.face x := by
  simp only [tileRemoveThing, at_, tileErase]
  split
  · exact ⟨rfl, fun x => rfl⟩
  · split
    · exact ⟨rfl, fun x => by rw [setTile_face, setParent_face]⟩
    · split
      · exact ⟨rfl, fun x => setItemCount_face _ x⟩
      · exact ⟨rfl, fun x => by rw [setTile_face, setParent_face]⟩

theorem mem_of_index {alwaysOnTop : Bool} (found : t.getThingIndex alwaysOnTop i ≠ -1) :
    i ∈ t.things := by
  rw [Tile.things, List.mem_append, Option.mem_toList]
  rcases Tile.getThingIndex_ne.mp found with here | mem
  · exact .inl here
  · rw [← t.downItems_append_topItems, List.mem_append]
    split at mem
    · exact .inr (.inr mem)
    · exact .inr (.inl mem)

theorem tileRemoveThing_turned (at_ : w.tile pos = some t) (count : Nat) :
    (TileOp.removed w t i count = none ∧ (w.tileRemoveThing pos i count).tile pos = some t) ∨
      ∃ u, TileOp.removed w t i count = some i ∧ Lifted t i u ∧
        (w.tileRemoveThing pos i count).tile pos = some (w.resetTileFlags u i) := by
  have index : w.tileGetThingIndex pos i = t.getThingIndex (w.isAlwaysOnTop i) i := by
    simp only [tileGetThingIndex, at_]
  simp only [tileRemoveThing, TileOp.removed, at_, index, tileErase]
  split
  · exact .inl ⟨rfl, at_⟩
  · next found =>
      split
      · next here => exact .inr ⟨_, rfl, .ground here, by simp⟩
      · next off =>
          split
          · exact .inl ⟨rfl, at_⟩
          · have mem := (Tile.getThingIndex_ne.mp found).resolve_left off
            cases onTop : w.isAlwaysOnTop i with
            | false =>
                rw [onTop] at mem
                exact .inr ⟨_, rfl, .down mem, by simp⟩
            | true =>
                rw [onTop] at mem
                exact .inr ⟨_, rfl, .top mem, by simp⟩

theorem tileInsert_placed (at_ : w.tile pos = some t) (room : t.itemList.length < 0xFFFF)
    (bare : (w.typeOf i).isGroundTile = true → t.ground = none) :
    ∃ u, w.Laid t i u ∧ (w.tileInsert pos i).tile pos = some (w.setTileFlags u i) := by
  simp only [tileInsert, at_]
  split
  · next ground => exact ⟨_, .ground (bare ground), by simp⟩
  · split
    · next onTop =>
        exact ⟨_, .top room onTop (w.insertTop_perm i _) insertTop_sorted, by simp⟩
    · next below => exact ⟨_, .down room (Bool.eq_false_iff.mpr below), by simp⟩

theorem tileInsert_face (x : ItemRef) : (w.tileInsert pos i).face x = w.face x := by
  simp only [tileInsert]
  cases w.tile pos <;> rfl

theorem replacedItem_of_face (h : ∀ x, w'.face x = w.face x) :
    w'.replacedItem t i = w.replacedItem t i := by
  have types : w'.typeOf = w.typeOf := funext fun x => typeOf_of_face (h x)
  have field : ∀ x, (w'.item x).getMagicField = (w.item x).getMagicField :=
    fun x => (class_of_face (h x)).2.1
  simp only [replacedItem, types, field]

theorem removed_setParent (p : Option Cylinder) (count : Nat) :
    TileOp.removed (w.setItem i (·.setParent p)) t o count = TileOp.removed w t o count := by
  have face : (w.setItem i (·.setParent p)).face o = w.face o := setParent_face p o
  have amount : (w.setItem i (·.setParent p)).getItemCount o = w.getItemCount o := by
    simp only [getItemCount, setItem_item]
    split
    · next e => rw [e]; rfl
    · rfl
  unfold TileOp.removed
  rw [isAlwaysOnTop_of_face face, amount, isStackable, isStackable, typeOf_of_face face]

/-- An item placed on the tile, after what it stands for is gone. -/
theorem insert_turn {w₂ : World} {u : Tile} {inPlace : Prop} {leaving : Option ItemRef}
    (faces : ∀ x, w₂.face x = w.face x) (items : w₂.items = w.items)
    (at_ : w₂.tile pos = some u) (room : u.itemList.length < 0xFFFF)
    (bare : (w.typeOf i).isGroundTile = true → u.ground = none)
    (before : leaving = none ∧ u = t ∨
      ∃ o u₀, leaving = some o ∧ Lifted t o u₀ ∧ u = w.resetTileFlags u₀ o) :
    ∃ t', (w₂.tileInsert pos i).tile pos = some t' ∧
      Turn w t (w₂.tileInsert pos i) t' inPlace leaving (some (i, w.typeOf i)) := by
  rw [← typeOf_of_face (faces i)] at bare
  obtain ⟨v, placed, result⟩ := tileInsert_placed at_ room bare
  have faces' : ∀ x, (w₂.tileInsert pos i).face x = w.face x :=
    fun x => (tileInsert_face x).trans (faces x)
  have flags : w₂.setTileFlags v i = (w₂.tileInsert pos i).setTileFlags v i :=
    (setTileFlags_of_face (tileInsert_face i)).symm
  have placed' : (w₂.tileInsert pos i).Laid u i v := placed.of_face tileInsert_face
  refine ⟨_, result, faces_turn ?_ ?_ faces' ?_⟩
  · rw [flags]
    rcases before with ⟨rfl, rfl⟩ | ⟨o, u₀, rfl, lifted, rfl⟩
    · exact .put placed'
    · refine .exchange lifted ?_
      rwa [resetTileFlags_of_face (faces' o) fun x _ => faces' x]
  · exact (tileInsert_items _ _ _).trans items
  · rintro j it ⟨rfl, rfl⟩
    rfl

theorem kept_turn {w₂ : World} {inPlace : Prop} (faces : ∀ x, w₂.face x = w.face x)
    (items : w₂.items = w.items) (at_ : w₂.tile pos = some t) :
    ∃ t', w₂.tile pos = some t' ∧ Turn w t w₂ t' inPlace none none :=
  ⟨t, at_, faces_turn .kept items faces (by simp)⟩

/-- An item put in another's place. -/
theorem swap_turn {w₁ w₂ : World} {u : Tile} {inPlace : Prop} (faces₁ : ∀ x, w₁.face x = w.face x)
    (faces : ∀ x, w₂.face x = w.face x) (items : w₂.items = w.items)
    (at_ : w₂.tile pos = some (w₁.setTileFlags (w₁.resetTileFlags u o) i))
    (place : t.ground = some o ∨ inPlace) (swapped : Swapped t o i u) :
    ∃ t', w₂.tile pos = some t' ∧ Turn w t w₂ t' inPlace (some o) (some (i, w.typeOf i)) := by
  have same : ∀ x, w₁.face x = w₂.face x := fun x => (faces₁ x).trans (faces x).symm
  rw [setTileFlags_of_face (same i), resetTileFlags_of_face (same o) fun x _ => same x] at at_
  refine ⟨_, at_, faces_turn (.swap place swapped) items faces ?_⟩
  rintro j it ⟨rfl, rfl⟩
  rfl

theorem tileAddThing_turn (at_ : w.tile pos = some t) (i : ItemRef) :
    ∃ t', (w.tileAddThing pos i).tile pos = some t' ∧
      Turn w t (w.tileAddThing pos i) t' (TileOp.addThing i).InPlace ((TileOp.addThing i).leaving w t)
        ((TileOp.addThing i).coming w t) := by
  unfold tileAddThing
  rw [at_]
  simp only [TileOp.leaving, TileOp.coming]
  by_cases full : t.itemList.length ≥ 0xFFFF
  · simp only [full, if_true, true_or]
    exact kept_turn (fun x => rfl) rfl at_
  · generalize moved : w.setItem i (·.setParent (some (.tile pos))) = w₁
    have faces : ∀ x, w₁.face x = w.face x := fun x => moved ▸ setParent_face _ x
    have items : w₁.items = w.items := by rw [← moved]; rfl
    have at₁ : w₁.tile pos = some t := by rw [← moved]; exact at_
    have room : t.itemList.length < 0xFFFF := not_le.mp full
    have type : ∀ x, w₁.typeOf x = w.typeOf x := fun x => typeOf_of_face (faces x)
    simp only [full, if_false, false_or, replacedItem_of_face faces, type]
    cases replaced : w.replacedItem t i with
    | none =>
        simp only [Option.any_none, Bool.false_eq_true, if_false]
        refine insert_turn faces items at₁ room (fun ground => ?_) (.inl ⟨rfl, rfl⟩)
        simpa [replacedItem, ground] using replaced
    | some o =>
        simp only [Option.any_some]
        by_cases ground : (w.typeOf i).isGroundTile = true
        · have here : t.ground = some o := by simpa [replacedItem, ground] using replaced
          simp only [TileOp.withstands, ground, Bool.not_true, Bool.false_and,
            Bool.false_eq_true, if_false, if_true]
          refine swap_turn faces (fun x => ?_) items (setTile_tile_self _ _ _) (.inl here)
            (.ground here)
          rw [setTile_face, setParent_face, faces]
        · rw [Bool.not_eq_true] at ground
          simp only [TileOp.withstands, ground, Bool.not_false, Bool.true_and,
            Bool.false_eq_true, if_false]
          by_cases field : ((w.typeOf i).isMagicField && !(w.typeOf i).alwaysOnTop &&
              !(w.typeOf o).replaceable) = true
          · simp only [field, if_true]
            exact kept_turn (fun x => by rw [setParent_face, faces]) items at₁
          · simp only [field]
            obtain ⟨items₂, faces₂⟩ := tileRemoveThing_faces (i := o) at₁ 1
            have turned := tileRemoveThing_turned (i := o) at₁ 1
            generalize w₁.tileRemoveThing pos o 1 = w₂ at items₂ faces₂ turned
            have faces₃ : ∀ x, (w₂.setItem o (·.setParent none)).face x = w.face x :=
              fun x => by rw [setParent_face, faces₂, faces]
            have removed := removed_setParent (w := w) (t := t) (i := i) (o := o)
              (some (.tile pos)) 1
            rw [moved] at removed
            rw [removed] at turned
            rcases turned with ⟨none_, at₂⟩ | ⟨u, some_, lifted, at₂⟩
            · exact insert_turn faces₃ (items₂.trans items) at₂ room (by simp [ground])
                (.inl ⟨none_, rfl⟩)
            · refine insert_turn faces₃ (items₂.trans items) at₂ (lifted.room.trans_lt room)
                (by simp [ground]) (.inr ⟨o, u, some_, lifted, ?_⟩)
              exact resetTileFlags_of_face (faces o) fun x _ => faces x

theorem tileInternalAddThing_turn (at_ : w.tile pos = some t) (i : ItemRef) :
    ∃ t', (w.tileInternalAddThing pos i).tile pos = some t' ∧
      Turn w t (w.tileInternalAddThing pos i) t' (TileOp.internalAddThing i).InPlace ((TileOp.internalAddThing i).leaving w t)
        ((TileOp.internalAddThing i).coming w t) := by
  unfold tileInternalAddThing
  rw [at_]
  generalize moved : w.setItem i (·.setParent (some (.tile pos))) = w₁
  have faces : ∀ x, w₁.face x = w.face x := fun x => moved ▸ setParent_face _ x
  have items : w₁.items = w.items := by rw [← moved]; rfl
  have at₁ : w₁.tile pos = some t := by rw [← moved]; exact at_
  have placed {u : Tile} (h : w₁.Laid t i u) :
      ∃ t', (w₁.setTile pos (w₁.setTileFlags u i)).tile pos = some t' ∧
        Turn w t (w₁.setTile pos (w₁.setTileFlags u i)) t' False none
          (some (i, w.typeOf i)) := by
    refine ⟨_, setTile_tile_self _ _ _, faces_turn (.put (h.of_face fun x => ?_)) items faces ?_⟩
    · rfl
    · rintro j it ⟨rfl, rfl⟩
      rfl
  simp only [TileOp.leaving, TileOp.coming, typeOf_of_face (faces i)]
  by_cases ground : (w.typeOf i).isGroundTile = true
  · simp only [ground, if_true]
    cases bare : t.ground with
    | none => exact placed (.ground bare)
    | some g => exact kept_turn faces items at₁
  · simp only [ground]
    by_cases full : t.itemList.length ≥ 0xFFFF
    · simp only [full, if_true]
      exact kept_turn faces items at₁
    · have room : t.itemList.length < 0xFFFF := not_le.mp full
      simp only [full, if_false]
      by_cases onTop : w₁.isAlwaysOnTop i = true
      · simp only [onTop, if_true]
        exact placed (.top room onTop (insertBefore_perm _ i _) insertTopAbove_sorted)
      · simp only [onTop]
        exact placed (.down room (Bool.eq_false_iff.mpr onTop))

theorem tileUpdateThing_turn (at_ : w.tile pos = some t) (i : ItemRef) (itemId count : Nat) :
    ∃ t', (w.tileUpdateThing pos i itemId count).tile pos = some t' ∧
      Turn w t (w.tileUpdateThing pos i itemId count) t'
        (TileOp.updateThing i itemId count).InPlace ((TileOp.updateThing i itemId count).leaving w t)
        ((TileOp.updateThing i itemId count).coming w t) := by
  have index : w.tileGetThingIndex pos i = t.getThingIndex (w.isAlwaysOnTop i) i := by
    simp only [tileGetThingIndex, at_]
  unfold tileUpdateThing
  rw [at_]
  simp only [index, TileOp.leaving, TileOp.coming]
  by_cases found : t.getThingIndex (w.isAlwaysOnTop i) i = -1
  · simp only [found, if_true]
    exact kept_turn (fun x => rfl) rfl at_
  · simp only [found, if_false]
    refine ⟨_, setTile_tile_self _ _ _, ?_, rfl, ?_, ?_⟩
    · exact .update trivial (mem_of_index found)
    · intro x other
      have ne : x ≠ i := fun e => other (w.items.type itemId) (by rw [e])
      rw [setTile_face]
      simp only [face, typeOf, setItem_items, setItem_item, if_neg ne]
    · rintro j it e
      obtain ⟨rfl, rfl⟩ := Prod.mk.inj (Option.some.inj e)
      rw [setTile_face]
      simp only [face, faceAs, typeOf, setItem_items, setItem_item, if_true,
        setSubType_id, setSubType_cls, setSubType_unique, setID_id, setID_cls, setID_unique]

theorem replaceAt_swapped {u : Tile} {index : Nat} (h : t.replaceAt index i = some (o, u)) :
    Swapped t o i u := by
  have item {n : Nat} (h : t.itemList[n]?.map (fun o =>
      (o, { t with itemList := t.itemList.set n i })) = some (o, u)) : Swapped t o i u := by
    obtain ⟨o', here, e⟩ := Option.map_eq_some_iff.mp h
    obtain ⟨rfl, rfl⟩ := Prod.mk.inj e
    exact .item here
  simp only [Tile.replaceAt] at h
  split at h
  · next g here =>
      obtain ⟨rfl, rfl⟩ := Prod.mk.inj (Option.some.inj h)
      exact .ground here
  · split at h
    · exact item h
    · split at h
      · exact absurd h (by simp)
      · split at h
        · exact item h
        · exact absurd h (by simp)

theorem tileReplaceThing_turn (at_ : w.tile pos = some t) (index : Nat) (i : ItemRef) :
    ∃ t', (w.tileReplaceThing pos index i).tile pos = some t' ∧
      Turn w t (w.tileReplaceThing pos index i) t' (TileOp.replaceThing index i).InPlace ((TileOp.replaceThing index i).leaving w t)
        ((TileOp.replaceThing index i).coming w t) := by
  unfold tileReplaceThing
  rw [at_]
  simp only [TileOp.leaving, TileOp.coming]
  cases replaced : t.replaceAt index i with
  | none => exact kept_turn (fun x => rfl) rfl at_
  | some ou =>
      obtain ⟨o, u⟩ := ou
      refine swap_turn (fun x => setParent_face _ x) (fun x => ?_) rfl
        (setTile_tile_self _ _ _) (.inr trivial) (replaceAt_swapped replaced)
      rw [setParent_face, setTile_face, setParent_face]

theorem tileRemoveThing_turn (at_ : w.tile pos = some t) (i : ItemRef) (count : Nat) :
    ∃ t', (w.tileRemoveThing pos i count).tile pos = some t' ∧
      Turn w t (w.tileRemoveThing pos i count) t' (TileOp.removeThing i count).InPlace ((TileOp.removeThing i count).leaving w t)
        ((TileOp.removeThing i count).coming w t) := by
  obtain ⟨items, faces⟩ := tileRemoveThing_faces (i := i) at_ count
  simp only [TileOp.leaving, TileOp.coming]
  rcases tileRemoveThing_turned (i := i) at_ count with ⟨none_, at'⟩ | ⟨u, some_, lifted, at'⟩
  · rw [none_]
    exact kept_turn faces items at'
  · rw [some_]
    rw [← resetTileFlags_of_face (faces i) fun x _ => faces x] at at'
    exact ⟨_, at', faces_turn (.take lifted) items faces (by simp)⟩

/-- What an operation on a tile can do. -/
theorem apply_turn (at_ : w.tile pos = some t) (op : TileOp) :
    ∃ t', (w.apply pos op).tile pos = some t' ∧
      Turn w t (w.apply pos op) t' op.InPlace (op.leaving w t) (op.coming w t) := by
  cases op with
  | addThing i => exact tileAddThing_turn at_ i
  | internalAddThing i => exact tileInternalAddThing_turn at_ i
  | updateThing i itemId count => exact tileUpdateThing_turn at_ i itemId count
  | replaceThing index i => exact tileReplaceThing_turn at_ index i
  | removeThing i count => exact tileRemoveThing_turn at_ i count

end World

/-! ### Tile by tile -/

theorem World.Laid.perm {w : World} {t u : Tile} {i : ItemRef} (h : w.Laid t i u) :
    u.things.Perm (i :: t.things) := by
  cases h with
  | ground bare => simp [Tile.things, bare]
  | top room onTop perm sorted =>
      have items := (perm.append_left t.downItems).trans List.perm_middle
      rw [t.downItems_append_topItems] at items
      exact (items.append_left _).trans List.perm_middle
  | down room below => exact List.perm_middle

theorem Lifted.perm {t u : Tile} {o : ItemRef} (h : Lifted t o u) :
    t.things.Perm (o :: u.things) := by
  cases h with
  | ground here => simp [Tile.things, here]
  | top mem =>
      have items := t.erase_perm true (i := o) mem
      simp only [Tile.things, Tile.erase_ground]
      exact (items.append_left _).trans List.perm_middle
  | down mem =>
      have items := t.erase_perm false (i := o) mem
      simp only [Tile.things, Tile.erase_ground]
      exact (items.append_left _).trans List.perm_middle

/-- What stays on a tile when one item takes the place of another. -/
theorem Swapped.perm {t u : Tile} {o i : ItemRef} (h : Swapped t o i u) :
    ∃ rest, t.things.Perm (o :: rest) ∧ u.things.Perm (i :: rest) := by
  cases h with
  | ground here => exact ⟨t.itemList, by simp [Tile.things, here], by simp [Tile.things]⟩
  | item here =>
      rename_i n
      obtain ⟨lt, rfl⟩ := List.getElem?_eq_some_iff.mp here
      refine ⟨t.ground.toList ++ t.itemList.eraseIdx n, ?_, ?_⟩
      · exact ((List.getElem_cons_eraseIdx_perm lt).symm.append_left _).trans List.perm_middle
      · exact ((List.set_perm_cons_eraseIdx lt i).append_left _).trans List.perm_middle

/-! ### Runs

The tile starts without items. An item it is given comes from elsewhere: the
callers take it from where it lies, or make it. Between the operations the rest
of the world changes as it likes, and the tile's creatures and zones with it. -/

/-- The flags of a tile that depend on what lies on it. -/
def TILESTATE_CONTENT : BitVec 32 := 0xFFF87F

structure Tile.IsNew (t : Tile) : Prop where
  ground : t.ground = none
  itemList : t.itemList = []
  downItemCount : t.downItemCount = 0
  flags : t.flags &&& TILESTATE_CONTENT = 0

/-- What happens beside a tile leaves its items and the flags they give alone. -/
structure Beside (w : World) (t : Tile) (w' : World) (t' : Tile) : Prop where
  items : w'.items = w.items
  ground : t'.ground = t.ground
  itemList : t'.itemList = t.itemList
  downItemCount : t'.downItemCount = t.downItemCount
  flags : t'.flags &&& TILESTATE_CONTENT = t.flags &&& TILESTATE_CONTENT
  face : ∀ i ∈ t.things, w'.face i = w.face i

/-- The runs of operations on the tile at a position, each of which meets a condition. -/
inductive TileRun (pos : Position) (cond : World → Tile → TileOp → Prop) : World → Tile → Prop
  | start {w : World} {t : Tile} (here : w.tile pos = some t) (isNew : t.IsNew) :
      TileRun pos cond w t
  | step {w : World} {t t' : Tile} (op : TileOp) (before : TileRun pos cond w t)
      (fresh : op.Fresh t) (meets : cond w t op) (here : (w.apply pos op).tile pos = some t') :
      TileRun pos cond (w.apply pos op) t'
  | beside {w w' : World} {t t' : Tile} (before : TileRun pos cond w t)
      (here : w'.tile pos = some t') (beside : Beside w t w' t') : TileRun pos cond w' t'

/-- What lies on a tile after a turn, by what lay there. -/
theorem Turned.perm {w w' : World} {t t' : Tile} {inPlace : Prop} {leaving : Option ItemRef}
    {coming : Option (ItemRef × ItemType)} (h : Turned w t w' inPlace leaving coming t') :
    ∃ rest, t.things.Perm (leaving.toList ++ rest) ∧
      t'.things.Perm ((coming.map Prod.fst).toList ++ rest) := by
  cases h with
  | kept => exact ⟨t.things, .rfl, .rfl⟩
  | put placed => exact ⟨t.things, .rfl, placed.perm⟩
  | take lifted => exact ⟨_, lifted.perm, .rfl⟩
  | swap place swapped => exact swapped.perm
  | exchange lifted placed => exact ⟨_, lifted.perm, placed.perm⟩
  | update place mem => exact ⟨_, List.perm_cons_erase mem, List.perm_cons_erase mem⟩

/-- What comes either changes where it lies or is new to the tile. -/
theorem TileOp.Fresh.coming {op : TileOp} {w : World} {t : Tile} {i : ItemRef} {it : ItemType}
    (fresh : op.Fresh t) (h : op.coming w t = some (i, it)) :
    op.leaving w t = some i ∨ i ∉ t.things := by
  cases op with
  | addThing j =>
      simp only [TileOp.coming] at h
      split at h
      · simp at h
      · obtain ⟨rfl, -⟩ := Prod.mk.inj (Option.some.inj h)
        exact .inr fresh
  | internalAddThing j =>
      simp only [TileOp.coming] at h
      have same : j = i := by
        split at h <;> split at h <;> simp at h <;> exact h.1
      exact .inr (same ▸ fresh)
  | updateThing j itemId count =>
      simp only [TileOp.coming, TileOp.leaving] at h ⊢
      split at h
      · simp at h
      · next found =>
          obtain ⟨rfl, -⟩ := Prod.mk.inj (Option.some.inj h)
          exact .inl (if_neg found)
  | replaceThing index j =>
      simp only [TileOp.coming, Option.map_eq_some_iff] at h
      obtain ⟨-, -, e⟩ := h
      obtain ⟨rfl, -⟩ := Prod.mk.inj e
      exact .inr fresh
  | removeThing j count => simp [TileOp.coming] at h

/-- What stays on the tile is apart from what leaves and from what comes. -/
theorem Turned.rest {w w' : World} {t t' : Tile} {op : TileOp}
    (h : Turned w t w' op.InPlace (op.leaving w t) (op.coming w t) t') (fresh : op.Fresh t)
    (nodup : t.things.Nodup) :
    ∃ rest, t.things.Perm ((op.leaving w t).toList ++ rest) ∧
      t'.things.Perm (((op.coming w t).map Prod.fst).toList ++ rest) ∧ rest.Nodup ∧
      (∀ o ∈ op.leaving w t, o ∉ rest) ∧ ∀ i it, op.coming w t = some (i, it) → i ∉ rest := by
  obtain ⟨rest, before, after⟩ := h.perm
  have parts := List.nodup_append.mp (before.nodup_iff.mp nodup)
  have left : ∀ o ∈ op.leaving w t, o ∉ rest := fun o e mem =>
    parts.2.2 o (Option.mem_toList.mpr e) o mem rfl
  refine ⟨rest, before, after, parts.2.1, left, fun i it e mem => ?_⟩
  rcases fresh.coming e with same | absent
  · exact left i same mem
  · exact absent (before.mem_iff.mpr (List.mem_append_right _ mem))

/-- No item lies on a tile twice. -/
theorem Turned.nodup {w w' : World} {t t' : Tile} {op : TileOp}
    (h : Turned w t w' op.InPlace (op.leaving w t) (op.coming w t) t') (fresh : op.Fresh t)
    (nodup : t.things.Nodup) : t'.things.Nodup := by
  obtain ⟨rest, -, after, single, -, apart⟩ := h.rest fresh nodup
  rw [after.nodup_iff]
  cases e : op.coming w t with
  | none => exact single
  | some ii =>
      obtain ⟨i, it⟩ := ii
      exact List.nodup_cons.mpr ⟨apart i it e, single⟩

namespace TileRun

variable {pos : Position} {cond : World → Tile → TileOp → Prop} {w : World} {t : Tile}

theorem here (h : TileRun pos cond w t) : w.tile pos = some t := by
  cases h with
  | start here isNew => exact here
  | step op before fresh meets here => exact here
  | beside before here beside => exact here

/-- A step of a run turns its tile. -/
theorem turn {t' : Tile} {op : TileOp} (before : TileRun pos cond w t)
    (here : (w.apply pos op).tile pos = some t') :
    Turn w t (w.apply pos op) t' op.InPlace (op.leaving w t) (op.coming w t) := by
  obtain ⟨u, at_, turn⟩ := World.apply_turn before.here op
  obtain rfl := Option.some.inj (at_.symm.trans here)
  exact turn

theorem nodup (h : TileRun pos cond w t) : t.things.Nodup := by
  induction h with
  | start here isNew => simp [Tile.things, isNew.ground, isNew.itemList]
  | step op before fresh meets here ih => exact (before.turn here).turned.nodup fresh ih
  | beside before here beside ih =>
      rw [Tile.things, beside.ground, beside.itemList]
      exact ih

end TileRun

namespace Sample

def corner : Position := ⟨100, 100, 7⟩

/-- A world of one bare tile, in which every item is of the id of its reference. -/
def plot (items : Items) : World where
  items := items
  classicEquipmentSlots := false
  canEquip _ _ _ := true
  isInvited _ _ := true
  isInGhostMode _ := false
  players := []
  browseFields _ := none
  item r := { id := r }
  next := 10
  tile pos := if pos = corner then some {} else none
  player _ := {}

end Sample

end TibServer
