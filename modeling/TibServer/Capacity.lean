import TibServer.Sizes

/-!
Containers within their capacity. A full container lets nothing in at an
unnamed place; at a named place only the counts hold a stack back, and they do
where the destination mentions the item that lies there.
-/

namespace TibServer

namespace World

variable {w w' w₁ : World} {i : ItemRef} {r : ItemRef} {d : Dest} {x : Option ItemRef}

/-- Every container without pages holds at most what it has room for. -/
def Within (w : World) : Prop :=
  ∀ r k, w.getContainer r = some k → k.pagination = false → k.size ≤ k.capacity

/-- A container without pages that has no place left. -/
def full (w : World) (c : Cylinder) : Bool :=
  match c with
  | .container r =>
      match w.getContainer r with
      | some k => !k.pagination && decide (k.capacity ≤ k.size)
      | none => false
  | _ => false

theorem full_iff : w.full (.container r) = true ↔
    ∃ k, w.getContainer r = some k ∧ k.pagination = false ∧ k.capacity ≤ k.size := by
  simp only [full]
  cases w.getContainer r with
  | none => simp
  | some k => simp

theorem shellOf_container {k : Container} (hr : w'.getContainer r = some k)
    (shell : w'.shellOf r = w.shellOf r ∨ w'.getContainer r = none) :
    ∃ k', w.getContainer r = some k' ∧ k'.capacity = k.capacity ∧ k'.pagination = k.pagination := by
  have shell := shell.resolve_right (by simp [hr])
  simp only [shellOf, hr, Option.map_some] at shell
  obtain ⟨k', hk', same⟩ := Option.map_eq_some_iff.mp shell.symm
  exact ⟨k', hk', (congrArg Container.maxSize same :), (congrArg Container.pagination same :)⟩

/-- What goes into a container with a place left keeps the bound. -/
theorem Grown.within (h : Grown w w' x) (hw : w.Within)
    (room : ∀ r, x = some r → w.full (.container r) = false) : w'.Within := by
  intro r k hr page
  obtain ⟨k', hk', capacity, page'⟩ := shellOf_container hr (h.shell r)
  have size := h.size r
  rw [sizeOf_eq hr, sizeOf_eq hk'] at size
  have bound := hw r k' hk' (page'.trans page)
  by_cases e : x = some r
  · have free : ¬k'.capacity ≤ k'.size := by
      intro le
      have full_ := full_iff.mpr ⟨k', hk', page'.trans page, le⟩
      rw [room r e] at full_
      cases full_
    rw [if_pos e] at size
    omega
  · rw [if_neg e] at size
    omega

/-- One item out of the container and one into it, in this order. -/
theorem Grown.balance (h : Grown w w₁ none) (h' : Grown w₁ w' x)
    (out : ∀ r, x = some r → w₁.sizeOf r + 1 ≤ w.sizeOf r) : Grown w w' none where
  shell := (h.trans h').shell
  size r := by
    have before := h.size r
    have after := h'.size r
    simp only [reduceCtorEq, if_false, Nat.add_zero] at before ⊢
    split_ifs at after with e
    · have := out r e
      omega
    · omega

/-- One item into the container and one out of it, in this order. -/
theorem Grown.balance' (h : Grown w w₁ x) (h' : Grown w₁ w' none)
    (out : ∀ r, x = some r → w'.sizeOf r + 1 ≤ w₁.sizeOf r) : Grown w w' none where
  shell := (h.trans' h').shell
  size r := by
    have before := h.size r
    have after := h'.size r
    simp only [reduceCtorEq, if_false, Nat.add_zero] at after ⊢
    split_ifs at before with e
    · have := out r e
      omega
    · omega

/-- Where all of an item leaves a container, its list gets shorter. -/
theorem removeThing_shrinks {m : Nat} (hi : w.Found (.container r) i)
    (all : ¬(w.isStackable i = true ∧ m ≠ w.getItemCount i)) :
    (w.removeThing (.container r) i m).sizeOf r + 1 ≤ w.sizeOf r := by
  have took := (w.removeThing_taken hi all).took
  have here := took.here.length_eq
  have some := List.length_pos_of_mem took.mem
  rw [List.length_erase_of_mem took.mem] at here
  simp only [things] at here some
  simp only [sizeOf]
  omega

/-! ### What the questions say about a full container -/

section Asking

variable {k : Container} {index : Int} {count : Nat} {flags : Flags} {actor : Option PlayerId}

/-- A container without pages that lets an item in has asked its base class. -/
theorem queryAdd_base (hr : w.getContainer r = some k) (page : k.pagination = false)
    (limit : flags.noLimit = false)
    (add : w.queryAdd (.container r) index i count flags actor = .noError) :
    ∃ top, w.containerBaseQueryAdd top r index i flags = .noError := by
  simp only [queryAdd, containerQueryAdd, kindOf, hr, Option.map_some] at add
  have paged := k.rewards_paginated
  rw [page] at paged
  cases kind : k.kind with
  | plain => exact ⟨_, by simpa [kind] using add⟩
  | browseField => exact ⟨_, by simpa [kind] using add⟩
  | depotChest m =>
      simp only [kind] at add
      rcases w.depotChestQueryAdd_cases m _ r index i count flags with isFull | asked
      · rw [isFull] at add
        cases add
      · exact ⟨_, asked.symm.trans add⟩
  | depotLocker => simp [kind] at add
  | inbox => simp [kind, inboxQueryAdd, limit] at add
  | reward => simp [kind] at paged
  | rewardChest => simp [kind] at paged

/-- It is not locked. -/
theorem queryAdd_unlocked (hr : w.getContainer r = some k) (page : k.pagination = false)
    (limit : flags.noLimit = false) (child : flags.childIsOwner = false)
    (add : w.queryAdd (.container r) index i count flags actor = .noError) :
    k.unlocked = true := by
  obtain ⟨top, base⟩ := queryAdd_base hr page limit add
  simp only [containerBaseQueryAdd, child, hr, Bool.false_eq_true, if_false] at base
  by_contra locked
  rw [if_pos (by simpa using locked)] at base
  cases base

/-- At an unnamed place a full container takes nothing in. -/
theorem queryAdd_wherever (limit : flags.noLimit = false) (child : flags.childIsOwner = false)
    (add : w.queryAdd (.container r) INDEX_WHEREEVER i count flags actor = .noError) :
    w.full (.container r) = false := by
  by_contra full_
  obtain ⟨k, hr, page, full_⟩ := full_iff.mp (by simpa using full_)
  obtain ⟨top, base⟩ := queryAdd_base hr page limit add
  have refused : w.containerBaseQueryAdd top r INDEX_WHEREEVER i flags ≠ .noError := by
    simp only [containerBaseQueryAdd, child, hr, limit, Bool.false_eq_true, if_false]
    cases (w.ancestors r).find? (w.stopsWalk i) with
    | some q =>
        simp only
        (repeat' split) <;> simp
    | none =>
        simp only [full_, page, Container.hasPagination, Bool.not_false, and_self, if_true]
        (repeat' split) <;> simp
  exact refused base

end Asking

/-! ### What a destination names -/

/-- What the destination mentions is the item at its index, unless the container
is locked. -/
def At (w : World) (d : Dest) : Prop :=
  ∀ r k, d.cylinder = .container r → w.getContainer r = some k → k.unlocked = true →
    d.index ≠ INDEX_WHEREEVER → d.destItem = itemByIndex (w.itemlist r) d.index

theorem at_wherever (h : d.index = INDEX_WHEREEVER) : w.At d :=
  fun _ _ _ _ _ place => absurd h place

theorem itemByIndex_idxOf {l : List ItemRef} {o : ItemRef} (h : o ∈ l) :
    itemByIndex l (l.idxOf o : Int) = some o := by
  simp [itemByIndex, List.getElem?_idxOf h]

theorem itemByIndex_isSome {l : List ItemRef} {n : Nat} (h : n < l.length) :
    (itemByIndex l n).isSome = true := by
  simp [itemByIndex, h]

/-- A container is asked about a place whose item is mentioned only if there is one. -/
def Heard (w : World) (d : Dest) : Prop :=
  ∀ r, d.cylinder = .container r → d.destItem = none ∨
    (itemByIndex (w.itemlist r) d.index).isSome = true

/-- A container answers with itself and the item of the place, or sends on to an
unnamed place. -/
structure Sent (w : World) (c : ItemRef) (d : Dest) : Prop where
  container : ∃ r, d.cylinder = .container r
  at_ : d.cylinder = .container c → w.At d
  on : d.cylinder ≠ .container c → d.index = INDEX_WHEREEVER ∧ d.destItem = none

theorem descend_sent {c : ItemRef} (hc : d.cylinder = .container c) (heard : w.Heard d) :
    w.Sent c (w.descend c d) := by
  unfold descend
  split
  · next place => exact ⟨⟨c, hc⟩, fun _ => at_wherever place, fun ne => absurd hc ne⟩
  · have item : ((itemByIndex (w.itemlist c) d.index).orElse fun _ => d.destItem) =
        itemByIndex (w.itemlist c) d.index := by
      rcases heard c hc with none | some
      · rw [none]
        cases itemByIndex (w.itemlist c) d.index <;> rfl
      · obtain ⟨o, ho⟩ := Option.isSome_iff_exists.mp some
        rw [ho]
        rfl
    simp only [item]
    have same : ∀ x, itemByIndex (w.itemlist c) d.index = x →
        w.Sent c { d with destItem := x } := by
      intro x hx
      refine ⟨⟨c, hc⟩, ?_, fun ne => absurd hc ne⟩
      rintro - r k hr - - -
      obtain rfl : r = c := Cylinder.container.inj (hr.symm.trans hc)
      exact hx.symm
    cases ho : itemByIndex (w.itemlist c) d.index with
    | none => exact same none ho
    | some o =>
        simp only
        split
        · exact ⟨⟨o, rfl⟩, fun _ => at_wherever rfl, fun _ => ⟨rfl, rfl⟩⟩
        · exact same (some o) ho

theorem stackOrDescend_sent {c : ItemRef} (hc : d.cylinder = .container c) (heard : w.Heard d) :
    w.Sent c (w.stackOrDescend c i d) := by
  unfold stackOrDescend
  split
  · split
    · next o found =>
        have mem : o ∈ w.itemlist c := List.mem_of_find?_eq_some found
        refine ⟨⟨c, hc⟩, ?_, fun ne => absurd hc ne⟩
        rintro - r k hr - - -
        obtain rfl : r = c := Cylinder.container.inj (hr.symm.trans hc)
        exact (itemByIndex_idxOf mem).symm
    · exact descend_sent hc heard
  · exact descend_sent hc heard

theorem containerQueryDestination_sent {c : ItemRef} (hc : d.cylinder = .container c)
    (heard : w.Heard d) : w.Sent c (w.containerQueryDestination c i d) := by
  unfold containerQueryDestination
  cases hk : w.getContainer c with
  | none =>
      refine ⟨⟨c, hc⟩, ?_, fun ne => absurd hc ne⟩
      rintro - r k hr some
      obtain rfl : r = c := Cylinder.container.inj (hr.symm.trans hc)
      rw [hk] at some
      cases some
  | some k =>
      simp only
      split
      · next locked =>
          refine ⟨⟨c, hc⟩, ?_, fun ne => absurd hc ne⟩
          rintro - r k' hr some unlocked
          obtain rfl : r = c := Cylinder.container.inj (hr.symm.trans hc)
          obtain rfl := Option.some.inj (hk.symm.trans some)
          simp [unlocked] at locked
      · split
        · split
          · next r _ => exact ⟨⟨r, rfl⟩, fun _ => at_wherever rfl, fun _ => ⟨rfl, rfl⟩⟩
          · exact ⟨⟨c, hc⟩, fun _ => at_wherever rfl, fun ne => absurd hc ne⟩
        · split
          · exact stackOrDescend_sent hc fun _ _ => .inl rfl
          · exact stackOrDescend_sent hc heard

/-- At an unnamed place a container answers with itself. -/
theorem containerQueryDestination_wherever {c : ItemRef} (hc : d.cylinder = .container c)
    (place : d.index = INDEX_WHEREEVER) :
    (w.containerQueryDestination c i d).cylinder = .container c := by
  have below : ∀ d' : Dest, d'.cylinder = .container c → d'.index = INDEX_WHEREEVER →
      (w.stackOrDescend c i d').cylinder = .container c := by
    intro d' hc' place'
    simp only [stackOrDescend, descend, place', if_true]
    (repeat' split) <;> exact hc'
  unfold containerQueryDestination
  cases w.getContainer c with
  | none => exact hc
  | some k =>
      simp only
      split
      · exact hc
      · rw [if_neg (by rw [place]; decide)]
        split
        · exact below _ hc rfl
        · exact below _ hc place

end World

end TibServer
