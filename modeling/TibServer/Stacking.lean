import TibServer.TileOps

/-!
The order of a tile's items: in every run of operations that put nothing in a
place it does not fit, the vector is the down items followed by the top items,
each kind where its type says, and the top items are in their order.
-/

namespace TibServer

/-- The order of a tile's items. -/
structure Tile.Stacked (w : World) (t : Tile) : Prop where
  downItems : t.downItems = t.itemList.filter fun i => !w.isAlwaysOnTop i
  topItems : t.topItems = t.itemList.filter w.isAlwaysOnTop
  sorted : t.topItems.Pairwise w.Under
  count : t.downItemCount = (t.itemList.filter fun i => !w.isAlwaysOnTop i).length
  apart : ∀ g, t.ground = some g → g ∉ t.itemList

/-- An item of type `it` fits where `o` lies: a down item may stand for a down
item, a top item for a top item whose neighbours' orders it keeps to. -/
def Tile.Fits (w : World) (t : Tile) (o : ItemRef) (it : ItemType) : Prop :=
  (o ∈ t.downItems → it.alwaysOnTop = false) ∧
    ∀ before after, t.topItems = before ++ o :: after → it.alwaysOnTop = true ∧
      (∀ x ∈ before, (w.typeOf x).alwaysOnTopOrder ≤ it.alwaysOnTopOrder) ∧
      ∀ x ∈ after, it.alwaysOnTopOrder ≤ (w.typeOf x).alwaysOnTopOrder

/-- The operations that write in an item's place put there what fits. -/
def FitsIn (w : World) (t : Tile) (op : TileOp) : Prop :=
  op.InPlace → ∀ o i it, op.leaving w t = some o → op.coming w t = some (i, it) → t.Fits w o it

/-! ### The invariant -/

/-- The two parts of the vector, by the number that divides them. -/
structure Layered (w : World) (t : Tile) : Prop where
  count_le : t.downItemCount ≤ t.itemList.length
  length_le : t.itemList.length ≤ 0xFFFF
  down : ∀ i ∈ t.downItems, w.isAlwaysOnTop i = false
  top : ∀ i ∈ t.topItems, w.isAlwaysOnTop i = true
  sorted : t.topItems.Pairwise w.Under

namespace Layered

variable {w w' : World} {t t' u : Tile} {i o : ItemRef}

theorem ordered (h : Layered w t) (nodup : t.things.Nodup) : t.Stacked w := by
  have down : t.itemList.filter (fun i => !w.isAlwaysOnTop i) = t.downItems := by
    rw [← t.downItems_append_topItems, List.filter_append,
      List.filter_eq_self.mpr fun x mem => by simp [h.down x mem],
      List.filter_eq_nil_iff.mpr fun x mem => by simp [h.top x mem], List.append_nil]
  have top : t.itemList.filter w.isAlwaysOnTop = t.topItems := by
    rw [← t.downItems_append_topItems, List.filter_append,
      List.filter_eq_nil_iff.mpr fun x mem => by simp [h.down x mem],
      List.filter_eq_self.mpr fun x mem => h.top x mem, List.nil_append]
  refine ⟨down.symm, top.symm, h.sorted, ?_, fun g here mem => ?_⟩
  · rw [down, Tile.downItems, List.length_take]
    exact (min_eq_left h.count_le).symm
  · rw [Tile.things, here] at nodup
    exact (List.nodup_cons.mp nodup).1 mem

theorem of_faces (h : Layered w t) (itemList : t'.itemList = t.itemList)
    (count : t'.downItemCount = t.downItemCount) (faces : ∀ x ∈ t.itemList, w'.face x = w.face x) :
    Layered w' t' := by
  have down : t'.downItems = t.downItems := by rw [Tile.downItems, itemList, count]; rfl
  have top : t'.topItems = t.topItems := by rw [Tile.topItems, itemList, count]; rfl
  constructor
  · rw [count, itemList]
    exact h.count_le
  · rw [itemList]
    exact h.length_le
  · intro x mem
    rw [down] at mem
    rw [World.isAlwaysOnTop_of_face (faces x (List.mem_of_mem_take mem))]
    exact h.down x mem
  · intro x mem
    rw [top] at mem
    rw [World.isAlwaysOnTop_of_face (faces x (List.mem_of_mem_drop mem))]
    exact h.top x mem
  · rw [top]
    refine h.sorted.imp_of_mem fun {x y} memx memy le => ?_
    simp only [World.Under]
    rw [World.typeOf_of_face (faces x (List.mem_of_mem_drop memx)),
      World.typeOf_of_face (faces y (List.mem_of_mem_drop memy))]
    exact le

theorem placed (h : Layered w t) (placed : w.Laid t i u) : Layered w u := by
  have len : t.downItems.length = t.downItemCount := by
    rw [Tile.downItems, List.length_take]
    exact min_eq_left h.count_le
  cases placed with
  | ground bare => exact h.of_faces rfl rfl fun x mem => rfl
  | top room onTop perm sorted =>
      rename_i l
      have down : ({ t with itemList := t.downItems ++ l } : Tile).downItems = t.downItems :=
        List.take_left' len
      have top : ({ t with itemList := t.downItems ++ l } : Tile).topItems = l :=
        List.drop_left' len
      have whole := congrArg List.length t.downItems_append_topItems
      have more := perm.length_eq
      rw [List.length_append] at whole
      rw [List.length_cons] at more
      constructor
      · simp only [List.length_append]
        omega
      · simp only [List.length_append]
        omega
      · rw [down]
        exact h.down
      · rw [top]
        intro x mem
        rcases List.mem_cons.mp (perm.mem_iff.mp mem) with rfl | mem
        · exact onTop
        · exact h.top x mem
      · rw [top]
        exact sorted h.sorted
  | down room below =>
      constructor
      · simp only [List.length_cons]
        exact Nat.succ_le_succ h.count_le
      · simp only [List.length_cons]
        omega
      · intro x mem
        simp only [Tile.downItems, List.take_succ_cons] at mem
        rcases List.mem_cons.mp mem with rfl | mem
        · exact below
        · exact h.down x mem
      · exact h.top
      · exact h.sorted

theorem lifted (h : Layered w t) (lifted : Lifted t o u) : Layered w u := by
  have whole := congrArg List.length t.downItems_append_topItems
  have len : t.downItems.length = t.downItemCount := by
    rw [Tile.downItems, List.length_take]
    exact min_eq_left h.count_le
  have fits := lifted.room.trans h.length_le
  rw [List.length_append] at whole
  cases lifted with
  | ground here => exact h.of_faces rfl rfl fun x mem => rfl
  | top mem =>
      obtain ⟨down, top⟩ := Tile.erase_top mem
      refine ⟨?_, fits, ?_, ?_, ?_⟩
      · simp only [Tile.erase, if_true, List.length_append]
        omega
      · rw [down]
        exact h.down
      · rw [top]
        exact fun x mem => h.top x (List.mem_of_mem_erase mem)
      · rw [top]
        exact h.sorted.sublist List.erase_sublist
  | down mem =>
      obtain ⟨down, top⟩ := Tile.erase_down mem
      have fewer := List.length_erase_of_mem mem
      refine ⟨?_, fits, ?_, ?_, ?_⟩
      · simp only [Tile.erase, Bool.false_eq_true, if_false, List.length_append]
        omega
      · rw [down]
        exact fun x mem => h.down x (List.mem_of_mem_erase mem)
      · rw [top]
        exact h.top
      · rw [top]
        exact h.sorted

/-- An item that fits in another's place, or in its own as another type. -/
theorem fitted (h : Layered w t) {a b : List ItemRef} {it : ItemType}
    (parts : t.itemList = a ++ o :: b) (fits : t.Fits w o it)
    (others : ∀ x ∈ a ++ b, w'.face x = w.face x) (type : w'.typeOf i = it) :
    Layered w' { t with itemList := a ++ i :: b } := by
  have onTop : ∀ x ∈ a ++ b, w'.isAlwaysOnTop x = w.isAlwaysOnTop x :=
    fun x mem => World.isAlwaysOnTop_of_face (others x mem)
  have typeOf : ∀ x ∈ a ++ b, w'.typeOf x = w.typeOf x :=
    fun x mem => World.typeOf_of_face (others x mem)
  have under : ∀ {x y}, x ∈ a ++ b → y ∈ a ++ b → w.Under x y → w'.Under x y := by
    intro x y memx memy le
    rw [World.Under, typeOf x memx, typeOf y memy]
    exact le
  have own : w'.isAlwaysOnTop i = it.alwaysOnTop := by rw [World.isAlwaysOnTop, type]
  have len : (a ++ i :: b).length = t.itemList.length := by simp [parts]
  have count : ({ t with itemList := a ++ i :: b } : Tile).downItemCount ≤ (a ++ i :: b).length :=
    len ▸ h.count_le
  rcases Nat.lt_or_ge a.length t.downItemCount with below | above
  · -- the place is a down item's
    obtain ⟨k, hk⟩ : ∃ k, t.downItemCount = a.length + (k + 1) :=
      ⟨t.downItemCount - a.length - 1, by omega⟩
    have down : t.downItems = a ++ o :: b.take k := by
      rw [Tile.downItems, parts, hk, List.take_length_add_append, List.take_succ_cons]
    have top : t.topItems = b.drop k := by
      rw [Tile.topItems, parts, hk, List.drop_length_add_append, List.drop_succ_cons]
    have down' : ({ t with itemList := a ++ i :: b } : Tile).downItems = a ++ i :: b.take k := by
      rw [Tile.downItems, hk, List.take_length_add_append, List.take_succ_cons]
    have top' : ({ t with itemList := a ++ i :: b } : Tile).topItems = b.drop k := by
      rw [Tile.topItems, hk, List.drop_length_add_append, List.drop_succ_cons]
    have inTop : ∀ x ∈ b.drop k, x ∈ a ++ b :=
      fun x mem => List.mem_append_right _ (List.mem_of_mem_drop mem)
    refine ⟨count, len ▸ h.length_le, ?_, ?_, ?_⟩
    · rw [down']
      intro x mem
      rcases List.mem_append.mp mem with mem | mem
      · rw [onTop x (List.mem_append_left _ mem)]
        exact h.down x (down ▸ List.mem_append_left _ mem)
      · rcases List.mem_cons.mp mem with rfl | mem
        · rw [own]
          exact fits.1 (down ▸ List.mem_append_right _ List.mem_cons_self)
        · rw [onTop x (List.mem_append_right _ (List.mem_of_mem_take mem))]
          exact h.down x (down ▸ List.mem_append_right _ (List.mem_cons_of_mem _ mem))
    · rw [top']
      intro x mem
      rw [onTop x (inTop x mem)]
      exact h.top x (top ▸ mem)
    · rw [top']
      exact (top ▸ h.sorted).imp_of_mem fun {x y} memx memy =>
        under (inTop x memx) (inTop y memy)
  · -- the place is a top item's
    obtain ⟨k, hk⟩ : ∃ k, a.length = t.downItemCount + k := Nat.exists_eq_add_of_le above
    have down : t.downItems = a.take t.downItemCount := by
      rw [Tile.downItems, parts, List.take_append_of_le_length above]
    have top : t.topItems = a.drop t.downItemCount ++ o :: b := by
      rw [Tile.topItems, parts, List.drop_append_of_le_length above]
    have down' : ({ t with itemList := a ++ i :: b } : Tile).downItems =
        a.take t.downItemCount := by
      rw [Tile.downItems, List.take_append_of_le_length above]
    have top' : ({ t with itemList := a ++ i :: b } : Tile).topItems =
        a.drop t.downItemCount ++ i :: b := by
      rw [Tile.topItems, List.drop_append_of_le_length above]
    obtain ⟨it_top, before, after⟩ := fits.2 _ _ top
    have inA : ∀ x ∈ a.drop t.downItemCount, x ∈ a ++ b :=
      fun x mem => List.mem_append_left _ (List.mem_of_mem_drop mem)
    have inB : ∀ x ∈ b, x ∈ a ++ b := fun x mem => List.mem_append_right _ mem
    refine ⟨count, len ▸ h.length_le, ?_, ?_, ?_⟩
    · rw [down']
      intro x mem
      rw [onTop x (List.mem_append_left _ (List.mem_of_mem_take mem))]
      exact h.down x (down ▸ mem)
    · rw [top']
      intro x mem
      rcases List.mem_append.mp mem with mem | mem
      · rw [onTop x (inA x mem)]
        exact h.top x (top ▸ List.mem_append_left _ mem)
      · rcases List.mem_cons.mp mem with rfl | mem
        · exact own.trans it_top
        · rw [onTop x (inB x mem)]
          exact h.top x (top ▸ List.mem_append_right _ (List.mem_cons_of_mem _ mem))
    · rw [top']
      obtain ⟨left, right, between⟩ := List.pairwise_append.mp (top ▸ h.sorted)
      obtain ⟨-, right⟩ := List.pairwise_cons.mp right
      refine List.pairwise_append.mpr ⟨?_, List.pairwise_cons.mpr ⟨fun y mem => ?_, ?_⟩, ?_⟩
      · exact left.imp_of_mem fun memx memy => under (inA _ memx) (inA _ memy)
      · rw [World.Under, type, typeOf y (inB y mem)]
        exact after y mem
      · exact right.imp_of_mem fun memx memy => under (inB _ memx) (inB _ memy)
      · intro x memx y memy
        rcases List.mem_cons.mp memy with rfl | memy
        · rw [World.Under, type, typeOf x (inA x memx)]
          exact before x memx
        · exact under (inA x memx) (inB y memy)
            (between x memx y (List.mem_cons_of_mem _ memy))

theorem swapped (h : Layered w t) {it : ItemType} (swapped : Swapped t o i u)
    (fits : t.Fits w o it) (faces : ∀ x, w'.face x = w.face x) (type : w'.typeOf i = it) :
    Layered w' u := by
  cases swapped with
  | ground here => exact h.of_faces rfl rfl fun x mem => faces x
  | item here =>
      obtain ⟨lt, rfl⟩ := List.getElem?_eq_some_iff.mp here
      obtain ⟨a, b, parts, -, set⟩ := List.exists_of_set lt
      rw [set]
      exact h.fitted parts fits (fun x mem => faces x) type

theorem updated (h : Layered w t) {it : ItemType} (nodup : t.things.Nodup)
    (mem : i ∈ t.things) (fits : t.Fits w i it) (others : ∀ x, x ≠ i → w'.face x = w.face x)
    (type : w'.typeOf i = it) : Layered w' t := by
  obtain ⟨-, single, apart⟩ := List.nodup_append.mp nodup
  rcases List.mem_append.mp mem with here | mem
  · refine h.of_faces rfl rfl fun x mem => others x fun e => ?_
    exact apart i here x mem e.symm
  · obtain ⟨a, b, parts⟩ := List.append_of_mem mem
    rw [parts] at single
    have off := List.nodup_middle.mp single
    have same := h.fitted parts fits (fun x mem => others x fun e => ?_) type
    · rw [← parts] at same
      exact same
    · exact (List.nodup_cons.mp off).1 (e ▸ mem)

end Layered

/-! ### Steps and runs -/

variable {pos : Position} {w w' : World} {t t' : Tile}

theorem Layered.step (h : Layered w t) {inPlace : Prop} {leaving : Option ItemRef}
    {coming : Option (ItemRef × ItemType)} (nodup : t.things.Nodup)
    (fits : inPlace → ∀ o i it, leaving = some o → coming = some (i, it) → t.Fits w o it)
    (turn : Turn w t w' t' inPlace leaving coming) : Layered w' t' := by
  have same {i : ItemRef} (e : coming = some (i, w.typeOf i)) (x : ItemRef) :
      w'.face x = w.face x :=
    World.turn_faces turn (fun j it e' => by simp_all) x
  obtain ⟨turned, -, others, newcomer⟩ := turn
  cases turned with
  | kept => exact h.of_faces rfl rfl fun x mem => others x (by simp)
  | put placed =>
      have here : Layered w' t := h.of_faces rfl rfl fun x mem => same rfl x
      exact (here.placed placed).of_faces rfl rfl fun x mem => rfl
  | take lifted =>
      have faces (x : ItemRef) : w'.face x = w.face x := others x (by simp)
      exact ((h.of_faces rfl rfl fun x mem => faces x).lifted lifted).of_faces rfl rfl
        fun x mem => rfl
  | swap place swapped =>
      rename_i o i u
      have fits : t.Fits w o (w.typeOf i) := by
        rcases place with ground | place
        · -- the ground stands for nothing in the vector
          have off : o ∉ t.itemList := by
            rw [Tile.things, ground] at nodup
            exact (List.nodup_cons.mp nodup).1
          refine ⟨fun mem => absurd (List.mem_of_mem_take mem) off, fun before after e => ?_⟩
          have mem : o ∈ t.topItems := e ▸ List.mem_append_right _ List.mem_cons_self
          exact absurd (List.mem_of_mem_drop mem) off
        · exact fits place o i _ rfl rfl
      exact (h.swapped swapped fits (same rfl) (World.typeOf_of_face (same rfl i))).of_faces rfl
        rfl fun x mem => rfl
  | exchange lifted placed =>
      rename_i o i u v
      have here : Layered w' t := h.of_faces rfl rfl fun x mem => same rfl x
      have without : Layered w' (w'.resetTileFlags u o) :=
        (here.lifted lifted).of_faces rfl rfl fun x mem => rfl
      exact (without.placed placed).of_faces rfl rfl fun x mem => rfl
  | update place mem =>
      rename_i i it
      refine (h.updated nodup mem (fits place i i it rfl rfl) (fun x ne => ?_) ?_).of_faces rfl
        rfl fun x mem => rfl
      · exact others x fun it' e => ne (Prod.mk.inj (Option.some.inj e)).1.symm
      · exact congrArg Face.type (newcomer i it rfl)

theorem TileRun.layered (h : TileRun pos FitsIn w t) : Layered w t := by
  induction h with
  | start here isNew =>
      constructor <;> simp [isNew.itemList, isNew.downItemCount, Tile.downItems, Tile.topItems]
  | step op before fresh meets here ih => exact ih.step before.nodup meets (before.turn here)
  | beside before here beside ih =>
      refine ih.of_faces beside.itemList beside.downItemCount fun x mem => ?_
      exact beside.face x (List.mem_append_right _ mem)

/-- In every run of operations on a tile that put in an item's place what fits there,
the items stand in their order. -/
theorem TileRun.stacked (h : TileRun pos FitsIn w t) : t.Stacked w :=
  h.layered.ordered h.nodup

namespace Sample

/-! ### Two borders -/

/-- Top items, each of the order of its id. -/
def borders : Items where
  type id := { id, alwaysOnTop := true, alwaysOnTopOrder := id }
  stackable_isPlain _ h := by simp at h
  stackable_down _ h := by simp at h
  stackable_createdId _ h := by simp at h

/-- A tile with two borders. -/
def edged : World :=
  ((plot borders).apply corner (.internalAddThing 1)).apply corner (.addThing 3)

theorem edged_run {cond : World → Tile → TileOp → Prop}
    (meets : ∀ w t op, ¬op.InPlace → cond w t op) :
    TileRun corner cond edged { itemList := [1, 3] } := by
  have bare : TileRun corner cond (plot borders) {} := .start rfl ⟨rfl, rfl, rfl, by decide⟩
  have one : TileRun corner cond ((plot borders).apply corner (.internalAddThing 1))
      { itemList := [1] } :=
    bare.step _ (List.not_mem_nil (a := 1)) (meets _ _ _ id) rfl
  have absent : 3 ∉ ({ itemList := [1] } : Tile).things := by decide
  exact one.step _ absent (meets _ _ _ id) rfl

/-- The lower border becomes one of a greater order than the upper one has. -/
theorem unsorted_borders :
    ∃ w t, TileRun corner (fun _ _ _ => True) w t ∧ ¬ t.Stacked w := by
  refine ⟨edged.apply corner (.updateThing 1 4 1), { itemList := [1, 3] },
    .step _ (edged_run fun _ _ _ _ => trivial) trivial trivial rfl, fun stacked => ?_⟩
  obtain ⟨le, -⟩ := List.pairwise_cons.mp stacked.sorted
  exact absurd (le 3 (List.mem_singleton_self 3)) (by decide : ¬(4 ≤ 3))

/-- The lower border becomes one that still lies below the upper one. -/
theorem sorted_borders :
    ({ itemList := [1, 3] } : Tile).Stacked (edged.apply corner (.updateThing 1 2 1)) := by
  refine (TileRun.step (.updateThing 1 2 1) (edged_run fun _ _ _ no place => absurd place no)
    trivial (fun _ o i it left came => ?_) rfl).stacked
  obtain rfl : 1 = o := Option.some.inj left
  obtain ⟨rfl, rfl⟩ := Prod.mk.inj (Option.some.inj came)
  refine ⟨fun mem => absurd mem List.not_mem_nil, fun before after parts => ?_⟩
  have parts : [1, 3] = before ++ 1 :: after := parts
  have nothing : before = [] := by
    rcases before with _ | ⟨b, _ | ⟨c, before⟩⟩
    · rfl
    · simp at parts
    · simp at parts
  subst nothing
  obtain ⟨-, rfl⟩ := List.cons.inj parts
  refine ⟨rfl, fun x mem => absurd mem List.not_mem_nil, fun x mem => ?_⟩
  obtain rfl := List.mem_singleton.mp mem
  decide

end Sample

end TibServer
