import TibServer.Decay

/-!
The wheel of decaying items over all runs. An item is on the lists once or not at all, and it is
there just if it is decaying, as long as nothing resets the state of an item that is on them and an
item whose time is up does not stay as it is.

In the middle of a tick an item that was replaced or removed is still decaying and on no list: it is
referred to by nothing but the list of items to release, which the end of the tick clears.
-/

namespace TibServer.Decay

/-- What is left of the bucket that is looked through. -/
def tickItems : Option Tick → List Ref
  | none => []
  | some tick => tick.kept ++ tick.coming

namespace State

/-- All the lists of decaying items, one after the other. -/
def listed (s : State) : List Ref :=
  s.toDecayItems ++ (s.decayItems 0 ++ s.decayItems 1 ++ s.decayItems 2 ++ s.decayItems 3) ++
    tickItems s.ticking

/-- How often an item is on the lists. -/
def occurrences (s : State) (i : Ref) : Nat := s.listed.count i

end State

/-- The references in `hand` were taken off a list and are not released yet. -/
structure Kept (s : State) (hand : List Ref) : Prop where
  once : ∀ i, s.occurrences i ≤ 1
  decaying : ∀ i,
    0 < s.held i + s.occurrences i ∨ s.ticking = none ∧ 0 < (s.item i).referenceCounter →
      (s.occurrences i = 1 ↔ (s.item i).decaying = .true)
  counted : ∀ i, (s.item i).referenceCounter =
    s.held i + s.occurrences i + (s.toReleaseItems ++ hand).count i
  parent : ∀ i, (s.item i).hasParent = true → 0 < s.held i
  fresh : ∀ i, s.next ≤ i → (s.item i).referenceCounter = 0
  lastBucket : s.lastBucket < EVENT_DECAY_BUCKETS
  bucket : ∀ tick, s.ticking = some tick → tick.bucket < EVENT_DECAY_BUCKETS

section Lists

variable {s s' : State}

theorem occurrences_eq (s : State) (i : Ref) :
    s.occurrences i = s.toDecayItems.count i + ((s.decayItems 0).count i +
      (s.decayItems 1).count i + (s.decayItems 2).count i + (s.decayItems 3).count i) +
        (tickItems s.ticking).count i := by
  rw [State.occurrences, State.listed]
  simp only [List.count_append]

/-- The items of a bucket are on the lists whatever bucket it is. -/
theorem occurrences_update {bucket : Nat} (h : bucket < EVENT_DECAY_BUCKETS) (list : List Ref)
    (i : Ref) :
    ({ s with decayItems := Function.update s.decayItems bucket list } : State).occurrences i +
      (s.decayItems bucket).count i = s.occurrences i + list.count i := by
  rw [occurrences_eq, occurrences_eq]
  have hcases : bucket = 0 ∨ bucket = 1 ∨ bucket = 2 ∨ bucket = 3 := by
    rw [EVENT_DECAY_BUCKETS] at h
    omega
  rcases hcases with rfl | rfl | rfl | rfl
  all_goals
    simp only [Function.update_self, ne_eq, OfNat.ofNat_ne_zero, OfNat.zero_ne_ofNat, zero_ne_one,
      one_ne_zero, OfNat.ofNat_ne_one, OfNat.one_ne_ofNat, not_false_eq_true,
      Function.update_of_ne, Nat.reduceEqDiff]
    omega

theorem occurrences_pushBack {bucket : Nat} (h : bucket < EVENT_DECAY_BUCKETS) (i j : Ref) :
    (s.pushBack bucket i).occurrences j = s.occurrences j + [i].count j := by
  have hupdate := occurrences_update (s := s) h (s.decayItems bucket ++ [i]) j
  rw [List.count_append] at hupdate
  show ({ s with decayItems := _ } : State).occurrences j = _
  omega

end Lists

/-! ### What the operations are made of -/

section Steps

variable {s s' : State} {hand : List Ref} {i : Ref}

theorem Kept.unlisted (h : Kept s hand) (hdecaying : (s.item i).decaying ≠ .true) :
    s.occurrences i = 0 := by
  have honce := h.once i
  by_contra hne
  have hone : s.occurrences i = 1 := by omega
  exact hdecaying ((h.decaying i (Or.inl (by omega))).1 hone)

theorem Kept.lt_next (h : Kept s hand) (hlive : 0 < (s.item i).referenceCounter) : i < s.next := by
  by_contra hle
  have := h.fresh i (Nat.le_of_not_lt hle)
  omega

/-- A change of one item that keeps its counter, and its state unless it is on no list and does
not decay afterwards, or is not referred to at all. -/
theorem Kept.update (h : Kept s hand) {f : Item → Item}
    (hcounter : (f (s.item i)).referenceCounter = (s.item i).referenceCounter)
    (hparent : (f (s.item i)).hasParent = true → 0 < s.held i)
    (hdecaying : ((f (s.item i)).decaying = .true ↔ (s.item i).decaying = .true) ∨
      s.occurrences i = 0 ∧ ((f (s.item i)).decaying ≠ .true ∨
        s.held i = 0 ∧ s.ticking ≠ none)) :
    Kept (s.updateItem i f) hand := by
  have hself : (s.updateItem i f).item i = f (s.item i) := Function.update_self ..
  have hother {j : Ref} (hj : j ≠ i) : (s.updateItem i f).item j = s.item j :=
    Function.update_of_ne hj ..
  refine ⟨h.once, fun j hj => ?_, fun j => ?_, fun j hj => ?_, fun j hj => ?_, h.lastBucket,
    h.bucket⟩
  · show s.occurrences j = 1 ↔ _
    by_cases hji : j = i
    · subst hji
      rw [hself] at hj ⊢
      rw [hcounter] at hj
      rcases hdecaying with hsame | ⟨hzero, hnot | ⟨hheld, hticking⟩⟩
      · exact (h.decaying j hj).trans hsame.symm
      · rw [hzero]
        exact iff_of_false (by decide) hnot
      · rcases hj with hj | hj
        · change 0 < s.held j + s.occurrences j at hj
          omega
        · exact absurd hj.1 hticking
    · rw [hother hji] at hj ⊢
      exact h.decaying j hj
  · by_cases hji : j = i
    · rw [hji, hself, hcounter]
      exact h.counted i
    · rw [hother hji]
      exact h.counted j
  · by_cases hji : j = i
    · rw [hji, hself] at hj
      rw [hji]
      exact hparent hj
    · rw [hother hji] at hj
      exact h.parent j hj
  · by_cases hji : j = i
    · rw [hji] at hj
      rw [hji, hself, hcounter]
      exact h.fresh i hj
    · rw [hother hji]
      exact h.fresh j hj

/-- Items move from list to list. -/
theorem Kept.of_lists (h : Kept s hand) (hitem : s'.item = s.item) (hnext : s'.next = s.next)
    (hrelease : s'.toReleaseItems = s.toReleaseItems) (hheld : s'.held = s.held)
    (hlists : ∀ j, s'.occurrences j = s.occurrences j)
    (hticking : s'.ticking = none → s.ticking = none)
    (hlast : s'.lastBucket < EVENT_DECAY_BUCKETS)
    (hbucket : ∀ tick, s'.ticking = some tick → tick.bucket < EVENT_DECAY_BUCKETS) :
    Kept s' hand := by
  refine ⟨fun j => ?_, fun j hj => ?_, fun j => ?_, fun j hj => ?_, fun j hj => ?_, hlast, hbucket⟩
  · rw [hlists]
    exact h.once j
  · rw [hlists, hheld, hitem] at hj
    rw [hlists, hitem]
    exact h.decaying j (hj.imp_right (And.imp_left hticking))
  · rw [hitem, hheld, hlists, hrelease]
    exact h.counted j
  · rw [hitem] at hj
    rw [hheld]
    exact h.parent j hj
  · rw [hitem]
    exact h.fresh j (hnext ▸ hj)

/-- A reference that is not of the lists is given up, and it was not the parent's. -/
theorem Kept.releaseHeld (h : Kept s hand) (hheld : 0 < s.held i)
    (hparent : (s.item i).hasParent = true → 2 ≤ s.held i) : Kept (s.releaseHeld i) hand := by
  have hself : (s.releaseHeld i).held i = s.held i - 1 := Function.update_self ..
  have hother {j : Ref} (hj : j ≠ i) : (s.releaseHeld i).held j = s.held j :=
    Function.update_of_ne hj ..
  refine ⟨h.once, fun j hj => h.decaying j ?_, fun j => ?_, fun j hj => ?_, h.fresh, h.lastBucket,
    h.bucket⟩
  · refine hj.imp_left fun hpos => ?_
    change 0 < (s.releaseHeld i).held j + s.occurrences j at hpos
    by_cases hji : j = i
    · rw [hji] at hpos ⊢
      omega
    · rwa [hother hji] at hpos
  · have hcounted := h.counted j
    show (s.item j).referenceCounter = (s.releaseHeld i).held j + s.occurrences j +
      ((s.toReleaseItems ++ [i]) ++ hand).count j
    rw [List.count_append] at hcounted
    rw [List.count_append, List.count_append]
    by_cases hji : j = i
    · rw [hji, hself, List.count_singleton_self]
      rw [hji] at hcounted
      omega
    · rw [hother hji, List.count_singleton, if_neg (by simpa using Ne.symm hji)]
      omega
  · by_cases hji : j = i
    · rw [hji, hself]
      rw [hji] at hj
      have := hparent hj
      omega
    · rw [hother hji]
      exact h.parent j hj

/-- A reference that was in hand is released. -/
theorem Kept.releaseListed (h : Kept s [i]) : Kept (s.releaseListed i) [] := by
  refine ⟨h.once, h.decaying, fun j => ?_, h.parent, h.fresh, h.lastBucket, h.bucket⟩
  rw [List.append_nil]
  exact h.counted j

theorem Kept.allocate (h : Kept s hand) {new : Item} (hcounter : new.referenceCounter = 1)
    (hdecaying : new.decaying ≠ .true) : Kept (s.allocate new) hand := by
  have hfresh := h.fresh s.next le_rfl
  have hcounted := h.counted s.next
  have hself : (s.allocate new).item s.next = new := Function.update_self ..
  have hheld : (s.allocate new).held s.next = 1 := Function.update_self ..
  have hitem {j : Ref} (hj : j ≠ s.next) : (s.allocate new).item j = s.item j :=
    Function.update_of_ne hj ..
  have hother {j : Ref} (hj : j ≠ s.next) : (s.allocate new).held j = s.held j :=
    Function.update_of_ne hj ..
  refine ⟨h.once, fun j hj => ?_, fun j => ?_, fun j hj => ?_, fun j hj => ?_, h.lastBucket,
    h.bucket⟩
  · show s.occurrences j = 1 ↔ _
    by_cases hjn : j = s.next
    · rw [hjn, hself]
      exact iff_of_false (by omega) hdecaying
    · rw [hitem hjn, hother hjn] at hj
      rw [hitem hjn]
      exact h.decaying j hj
  · show _ = _ + s.occurrences j + (s.toReleaseItems ++ hand).count j
    by_cases hjn : j = s.next
    · rw [hjn, hself, hcounter, hheld]
      omega
    · rw [hitem hjn, hother hjn]
      exact h.counted j
  · by_cases hjn : j = s.next
    · rw [hjn, hheld]
      exact Nat.one_pos
    · rw [hitem hjn] at hj
      rw [hother hjn]
      exact h.parent j hj
  · rw [hitem (Nat.ne_of_gt (Nat.lt_of_succ_le hj))]
    exact h.fresh j (Nat.le_of_succ_le hj)

/-- An item that starts to decay. -/
theorem Kept.pushFront (h : Kept s hand) (hdecaying : (s.item i).decaying ≠ .true)
    (hlt : i < s.next) : Kept (pushFront s i) hand := by
  have hzero := h.unlisted hdecaying
  have hself : (Decay.pushFront s i).item i = { s.item i with
    decaying := .true, referenceCounter := (s.item i).referenceCounter + 1 } :=
    Function.update_self ..
  have hother {j : Ref} (hj : j ≠ i) : (Decay.pushFront s i).item j = s.item j :=
    Function.update_of_ne hj ..
  have hlists (j : Ref) :
      (Decay.pushFront s i).occurrences j = s.occurrences j + [i].count j := by
    rw [occurrences_eq, occurrences_eq]
    show (i :: s.toDecayItems).count j + ((s.decayItems 0).count j + (s.decayItems 1).count j +
      (s.decayItems 2).count j + (s.decayItems 3).count j) + (tickItems s.ticking).count j = _
    rw [List.count_cons, List.count_singleton]
    omega
  have hone : (Decay.pushFront s i).occurrences i = 1 := by
    rw [hlists, hzero, List.count_singleton_self]
  have hsame {j : Ref} (hj : j ≠ i) : (Decay.pushFront s i).occurrences j = s.occurrences j := by
    rw [hlists, List.count_singleton, if_neg (by simpa using Ne.symm hj), add_zero]
  refine ⟨fun j => ?_, fun j hj => ?_, fun j => ?_, fun j hj => ?_, fun j hj => ?_, h.lastBucket,
    h.bucket⟩
  · by_cases hji : j = i
    · rw [hji, hone]
    · rw [hsame hji]
      exact h.once j
  · by_cases hji : j = i
    · rw [hji, hone, hself]
      exact iff_of_true rfl rfl
    · rw [hsame hji, hother hji] at hj
      rw [hsame hji, hother hji]
      exact h.decaying j hj
  · show _ = s.held j + _ + (s.toReleaseItems ++ hand).count j
    by_cases hji : j = i
    · have hcounted := h.counted i
      rw [hji, hone, hself]
      show (s.item i).referenceCounter + 1 = _
      omega
    · rw [hsame hji, hother hji]
      exact h.counted j
  · show 0 < s.held j
    by_cases hji : j = i
    · rw [hji, hself] at hj
      rw [hji]
      exact h.parent i hj
    · rw [hother hji] at hj
      exact h.parent j hj
  · rw [hother (Nat.ne_of_gt (Nat.lt_of_lt_of_le hlt hj))]
    exact h.fresh j hj

/-- The item that comes next in a bucket is taken off it. Afterwards it does not decay, or nothing
but the reference in hand is left. -/
theorem Kept.take (h : Kept s []) {tick : Tick} {coming : List Ref}
    (hticking : s.ticking = some tick) (hcoming : tick.coming = i :: coming)
    (hother : ∀ j, j ≠ i → s'.item j = s.item j)
    (hcounter : (s'.item i).referenceCounter = (s.item i).referenceCounter)
    (hparent : (s'.item i).hasParent = (s.item i).hasParent)
    (hend : (s'.item i).decaying ≠ .true ∨ s.held i = 0) (hnext : s'.next = s.next)
    (hrelease : s'.toReleaseItems = s.toReleaseItems) (hheld : s'.held = s.held)
    (hfront : s'.toDecayItems = s.toDecayItems) (hitems : s'.decayItems = s.decayItems)
    (hlast : s'.lastBucket = s.lastBucket) (htick : s'.ticking = some { tick with coming }) :
    Kept s' [i] := by
  have hlists (j : Ref) : s'.occurrences j + [i].count j = s.occurrences j := by
    rw [occurrences_eq, occurrences_eq, hfront, hitems, htick, hticking]
    show _ + _ + (tick.kept ++ coming).count j + _ = _ + _ + (tick.kept ++ tick.coming).count j
    rw [hcoming, List.count_append, List.count_append, List.count_singleton,
      List.count_cons (l := coming)]
    omega
  have hzero : s'.occurrences i = 0 := by
    have hone := h.once i
    have hi := hlists i
    rw [List.count_singleton_self] at hi
    omega
  have hsame {j : Ref} (hj : j ≠ i) : s'.occurrences j = s.occurrences j := by
    have hi := hlists j
    rwa [List.count_singleton, if_neg (by simpa using Ne.symm hj), add_zero] at hi
  refine ⟨fun j => ?_, fun j hj => ?_, fun j => ?_, fun j hj => ?_, fun j hj => ?_, hlast ▸ h.lastBucket,
    fun tick' htick' => ?_⟩
  · have := hlists j
    have := h.once j
    omega
  · rw [hheld, htick] at hj
    have hj : 0 < s.held j + s'.occurrences j := hj.resolve_right fun hnone => by simp at hnone
    by_cases hji : j = i
    · rw [hji] at hj ⊢
      refine iff_of_false (by omega) (hend.resolve_right ?_)
      omega
    · rw [hsame hji] at hj
      rw [hsame hji, hother j hji]
      exact h.decaying j (Or.inl hj)
  · have hcounted := h.counted j
    have := hlists j
    rw [List.append_nil] at hcounted
    rw [hheld, hrelease, List.count_append]
    by_cases hji : j = i
    · rw [hji] at hcounted this ⊢
      omega
    · rw [hother j hji]
      omega
  · rw [hheld]
    by_cases hji : j = i
    · rw [hji] at hj ⊢
      exact h.parent i (hparent ▸ hj)
    · exact h.parent j (hother j hji ▸ hj)
  · rw [hnext] at hj
    by_cases hji : j = i
    · rw [hji] at hj ⊢
      rw [hcounter]
      exact h.fresh i hj
    · rw [hother j hji]
      exact h.fresh j hj
  · rw [htick] at htick'
    cases htick'
    exact h.bucket tick hticking

end Steps

/-! ### Transforming and decaying -/

section Transform

variable {items : Items}

/-- `setID` takes the state of an item back to what it is before any decay. -/
def Item.Resets (items : Items) (i : Item) (newid : Nat) : Prop :=
  let it := items.type newid
  newDuration it = 0 ∧ it.stopTime = false ∧ it.decayTo < 0 ∨
    newDuration it ≠ 0 ∧ ((items.type i.id).stopTime = false ∨ i.duration = none)

theorem Item.setID_eq (i : Item) (newid : Nat) :
    i.setID items newid =
      if newDuration (items.type newid) = 0 ∧ (items.type newid).stopTime = false ∧
          (items.type newid).decayTo < 0 then
        { i with id := newid, decaying := .false, duration := none }
      else if newDuration (items.type newid) ≠ 0 ∧
          ((items.type i.id).stopTime = false ∨ i.duration = none) then
        { i with
          id := newid, decaying := .false, duration := some (newDuration (items.type newid)) }
      else { i with id := newid } := by
  unfold setID
  by_cases hnone : newDuration (items.type newid) = 0 ∧ (items.type newid).stopTime = false ∧
      (items.type newid).decayTo < 0
  · simp only [if_pos hnone]
    exact if_neg fun h => h.1 hnone.1
  · simp only [if_neg hnone]

theorem Item.setID_counter (i : Item) (newid : Nat) :
    (i.setID items newid).referenceCounter = i.referenceCounter := by
  rw [setID_eq]
  split_ifs <;> rfl

theorem Item.setID_hasParent (i : Item) (newid : Nat) :
    (i.setID items newid).hasParent = i.hasParent := by
  rw [setID_eq]
  split_ifs <;> rfl

theorem Item.setID_decaying (i : Item) (newid : Nat) :
    (i.setID items newid).decaying = .true ↔ i.decaying = .true ∧ ¬ i.Resets items newid := by
  rw [setID_eq]
  unfold Resets
  split_ifs with hnone hsome
  · exact iff_of_false (by decide) fun h => h.2 (Or.inl hnone)
  · exact iff_of_false (by decide) fun h => h.2 (Or.inr hsome)
  · exact (and_iff_left (not_or.2 ⟨hnone, hsome⟩)).symm

theorem Item.setIDAndCount_counter (i : Item) (newId : Nat) (newCount : Option Nat) :
    (i.setIDAndCount items newId newCount).referenceCounter = i.referenceCounter := by
  cases newCount <;> exact setID_counter ..

theorem Item.setIDAndCount_hasParent (i : Item) (newId : Nat) (newCount : Option Nat) :
    (i.setIDAndCount items newId newCount).hasParent = i.hasParent := by
  cases newCount <;> exact setID_hasParent ..

theorem Item.setIDAndCount_decaying (i : Item) (newId : Nat) (newCount : Option Nat) :
    (i.setIDAndCount items newId newCount).decaying = (i.setID items newId).decaying := by
  cases newCount <;> rfl

/-- The default subtype has nothing to do with decay. -/
theorem Item.setDefaultSubtype_eq (i : Item) : ∃ count charges,
    i.setDefaultSubtype items = { i with subType := count, hasCharges := charges } := by
  unfold setDefaultSubtype
  dsimp only
  split_ifs <;> exact ⟨_, _, rfl⟩

theorem Item.setID_subType (i : Item) (newId count : Nat) (charges : Bool) :
    ({ i with subType := count, hasCharges := charges } : Item).setID items newId =
      { i.setID items newId with subType := count, hasCharges := charges } := by
  rw [setID_eq, setID_eq]
  split_ifs <;> rfl

theorem Item.updated_counter (i : Item) (itemId count : Nat) (defaultSubtype : Bool) :
    (i.updated items itemId count defaultSubtype).referenceCounter = i.referenceCounter := by
  obtain ⟨n, charges, heq⟩ := @Item.setDefaultSubtype_eq items i
  cases defaultSubtype with
  | false => exact setID_counter ..
  | true =>
      show ((i.setDefaultSubtype items).setID items itemId).referenceCounter = _
      rw [heq]
      exact setID_counter ..

theorem Item.updated_hasParent (i : Item) (itemId count : Nat) (defaultSubtype : Bool) :
    (i.updated items itemId count defaultSubtype).hasParent = i.hasParent := by
  obtain ⟨n, charges, heq⟩ := @Item.setDefaultSubtype_eq items i
  cases defaultSubtype with
  | false => exact setID_hasParent ..
  | true =>
      show ((i.setDefaultSubtype items).setID items itemId).hasParent = _
      rw [heq]
      exact setID_hasParent ..

theorem Item.updated_decaying (i : Item) (itemId count : Nat) (defaultSubtype : Bool) :
    (i.updated items itemId count defaultSubtype).decaying = (i.setID items itemId).decaying := by
  obtain ⟨n, charges, heq⟩ := @Item.setDefaultSubtype_eq items i
  cases defaultSubtype with
  | false => rfl
  | true =>
      show ((i.setDefaultSubtype items).setID items itemId).decaying = _
      rw [heq, setID_subType]

variable {s s' : State} {hand : List Ref} {i : Ref} {ans : Answers}

/-- The id that a change gives to the item itself. -/
def Change.newId : Change → Option Nat
  | .readded newId _ => some newId
  | .updated itemId _ _ => some itemId
  | _ => none

/-- The item leaves its place for good. -/
theorem Kept.leave (h : Kept s hand) (hheld : 0 < s.held i) :
    Kept ((s.updateItem i fun item => { item with hasParent := false }).releaseHeld i) hand := by
  have hupdate : Kept (s.updateItem i fun item => { item with hasParent := false }) hand :=
    h.update rfl (fun hfalse => absurd hfalse Bool.false_ne_true) (Or.inl Iff.rfl)
  refine hupdate.releaseHeld hheld fun htrue => ?_
  rw [show (s.updateItem i _).item i = _ from Function.update_self ..] at htrue
  exact absurd htrue Bool.false_ne_true

theorem Kept.internalRemoveItem (h : Kept s hand) :
    Kept (internalRemoveItem ans s i) hand := by
  unfold Decay.internalRemoveItem
  by_cases hparent : (s.item i).hasParent = false
  · rw [if_pos hparent]
    exact h
  rw [if_neg hparent]
  by_cases hmay : ans.mayRemove = false
  · rw [if_pos hmay]
    exact h
  rw [if_neg hmay]
  exact h.leave (h.parent i (Bool.eq_true_of_not_eq_false hparent))

/-- What stays in its place under another id, if the id does not reset the state of an item that is
on the lists. -/
theorem Kept.setItem (h : Kept s hand) (hheld : 0 < s.held i) {newId : Nat}
    (hresets : s.occurrences i = 0 ∨ ¬ (s.item i).Resets items newId) {f : Item → Item}
    (hcounter : (f (s.item i)).referenceCounter = (s.item i).referenceCounter)
    (hdecaying : (f (s.item i)).decaying = ((s.item i).setID items newId).decaying) :
    Kept (s.updateItem i f) hand := by
  refine h.update hcounter (fun _ => hheld) ?_
  rw [hdecaying]
  by_cases hreset : (s.item i).Resets items newId
  · exact Or.inr ⟨hresets.resolve_right (not_not.2 hreset),
      Or.inl fun htrue => ((Item.setID_decaying _ _).1 htrue).2 hreset⟩
  · exact Or.inl ((Item.setID_decaying _ _).trans (and_iff_left hreset))

theorem createItem_new {type count : Nat} {new : Item}
    (h : createItem items type count = some new) :
    new.referenceCounter = 1 ∧ new.decaying ≠ .true := by
  unfold createItem at h
  by_cases hnone : (items.type type).group = .deprecated ∨ (items.type type).id = 0
  · rw [if_pos hnone] at h
    cases h
  · rw [if_neg hnone] at h
    have hfalse : ItemDecayState.false ≠ .true := by decide
    exact Option.some.inj h ▸ ⟨rfl, hfalse⟩

/-- What a change does where the item is not on the lists or keeps its state. -/
theorem Kept.apply (h : Kept s hand) (hheld : 0 < s.held i) (c : Change)
    (hresets : ∀ newId, c.newId = some newId →
      s.occurrences i = 0 ∨ ¬ (s.item i).Resets items newId) :
    Kept (apply items ans s i c).1 hand := by
  cases c with
  | returned => exact h
  | null => exact h
  | removed => exact h.internalRemoveItem
  | readded newId newCount =>
      have hset : Kept (s.updateItem i fun item => item.setIDAndCount items newId newCount) hand :=
        h.setItem hheld (hresets newId rfl) (Item.setIDAndCount_counter ..)
          (Item.setIDAndCount_decaying ..)
      cases hback : ans.takenBack with
      | true =>
          simp only [Decay.apply, hback, if_true]
          exact hset
      | false =>
          simp only [Decay.apply, hback, Bool.false_eq_true, if_false]
          exact hset.leave hheld
  | updated itemId count defaultSubtype =>
      have hset : Kept (s.updateItem i fun item =>
          item.updated items itemId count defaultSubtype) hand :=
        h.setItem hheld (hresets itemId rfl) (Item.updated_counter ..) (Item.updated_decaying ..)
      exact hset
  | replaced newId newCount =>
      cases hnew : createItem items newId (newCount.getD 0) with
      | none =>
          simp only [Decay.apply, hnew]
          exact h
      | some new =>
          obtain ⟨hcounter, hdecaying⟩ := createItem_new hnew
          simp only [Decay.apply, hnew]
          exact (h.leave hheld).allocate hcounter hdecaying

/-- Without a parent an item stays as it is. -/
theorem change_of_no_parent (items : Items) (ans : Answers) {item : Item}
    (hparent : item.hasParent = false) (newId : Nat) (newCount : Option Nat) :
    change items ans item newId newCount = .returned ∨
      change items ans item newId newCount = .null := by
  unfold change changeWith
  by_cases hsame : item.id = newId ∧
      (newCount = none ∨ newCount = some item.subType ∧ newCount ≠ some 0)
  · exact Or.inl (if_pos hsame)
  · exact Or.inr ((if_neg hsame).trans (if_pos hparent))

theorem Kept.transformItem (h : Kept s hand) {newId : Nat} {newCount : Option Nat}
    (hresets : ∀ id, (change items ans (s.item i) newId newCount).newId = some id →
      s.occurrences i = 0 ∨ ¬ (s.item i).Resets items id) :
    Kept (transformItem items ans s i newId newCount).1 hand := by
  unfold Decay.transformItem
  cases hparent : (s.item i).hasParent with
  | true => exact h.apply (h.parent i hparent) _ hresets
  | false =>
      rcases change_of_no_parent items ans hparent newId newCount with
        heq | heq
      · rw [heq]
        exact h
      · rw [heq]
        exact h

theorem Item.hasParent_of_canDecay {item : Item} (h : item.canDecay items = true) :
    item.hasParent = true := by
  unfold Item.canDecay Item.isRemoved at h
  simp only [Bool.and_eq_true, Bool.not_eq_true', Bool.or_eq_false_iff, Bool.not_eq_false'] at h
  exact h.1.1.1

/-- An item that is on no list decays, whatever it turns into. -/
theorem Kept.internalDecayItem {start : State → Option Ref → Option State}
    (hstart : ∀ t j t', Kept t hand → start t j = some t' → Kept t' hand) (h : Kept s hand)
    (hunlisted : s.occurrences i = 0)
    (heq : internalDecayItem items start ans s i = some s') : Kept s' hand := by
  unfold Decay.internalDecayItem at heq
  by_cases hto : (items.type (s.item i).id).decayTo ≠ 0
  · simp only [if_pos hto] at heq
    exact hstart _ _ _ (h.transformItem fun _ _ => Or.inl hunlisted) heq
  · simp only [if_neg hto] at heq
    rw [← Option.some.inj heq]
    exact h.internalRemoveItem

/-- Starting to decay, by induction on the fuel: an item that is not decaying is on no list. -/
theorem Kept.startDecay {answers : Nat → Answers} {fuel : Nat} {j : Option Ref}
    (h : Kept s hand) (heq : startDecay items answers fuel s j = some s') : Kept s' hand := by
  induction fuel generalizing s s' j with
  | zero => cases heq
  | succ fuel ih =>
      cases j with
      | none => exact Option.some.inj heq ▸ h
      | some j =>
          unfold Decay.startDecay at heq
          cases hcan : (s.item j).canDecay items with
          | false =>
              rw [hcan, if_pos (by rfl)] at heq
              exact Option.some.inj heq ▸ h
          | true =>
              rw [hcan, if_neg (by decide)] at heq
              by_cases hdecaying : (s.item j).decaying = .true
              · rw [if_pos hdecaying] at heq
                exact Option.some.inj heq ▸ h
              rw [if_neg hdecaying] at heq
              by_cases hduration : (s.item j).getDuration ≠ 0
              · rw [if_pos hduration] at heq
                have hheld := h.parent j (Item.hasParent_of_canDecay hcan)
                have hcounted := h.counted j
                exact Option.some.inj heq ▸ h.pushFront hdecaying (h.lt_next (by omega))
              · rw [if_neg hduration] at heq
                exact h.internalDecayItem (fun _ _ _ ht hs => ih ht hs) (h.unlisted hdecaying) heq

end Transform

/-! ### A tick -/

section Ticks

variable {items : Items} {s s' : State} {i : Ref} {tick : Tick} {coming : List Ref}

/-- The item does not stay as it is when its time is up: it gets an id that starts another decay, or
it goes while nothing but its parent and the list refer to it. -/
def Ends (items : Items) (ans : Answers) (s : State) (i : Ref) : Prop :=
  let it := items.type (s.item i).id
  if it.decayTo ≠ 0 then
    match change items ans (s.item i) (it.decayTo % 65536).toNat none with
    | .readded newId _ =>
        (s.item i).Resets items newId ∨ ans.takenBack = false ∧ s.held i = 1
    | .updated itemId _ _ => (s.item i).Resets items itemId
    | .replaced newId newCount =>
        (createItem items newId (newCount.getD 0)).isSome = true ∧ s.held i = 1
    | .removed => ans.mayRemove = true ∧ s.held i = 1
    | .returned => False
    | .null => False
  else ans.mayRemove = true ∧ s.held i = 1

theorem takeNext_item : (takeNext s tick i coming).item i =
    { s.item i with duration := some ((s.item i).getDuration -
      BitVec.ofInt 32 (decreaseTime (s.item i).getDuration)) } :=
  Function.update_self ..

/-- Two changes of one item are one change. -/
theorem updateItem_updateItem (f g : Item → Item) :
    (s.updateItem i f).updateItem i g = s.updateItem i fun item => g (f item) := by
  unfold State.updateItem
  dsimp only
  rw [Function.update_self, Function.update_idem]

theorem takeNext_other {j : Ref} (hj : j ≠ i) :
    (takeNext s tick i coming).item j = s.item j :=
  Function.update_of_ne hj ..

/-- The item that comes next gets an id that starts another decay. -/
theorem Kept.takeSetting (h : Kept s []) (hticking : s.ticking = some tick)
    (hcoming : tick.coming = i :: coming) {f : Item → Item} {newId : Nat}
    (hcounter : ∀ item, (f item).referenceCounter = item.referenceCounter)
    (hparent : ∀ item, (f item).hasParent = item.hasParent)
    (hdecaying : ∀ item, (f item).decaying = (item.setID items newId).decaying)
    (hresets : ((takeNext s tick i coming).item i).Resets items newId) :
    Kept ((takeNext s tick i coming).updateItem i f) [i] := by
  have hself : ((takeNext s tick i coming).updateItem i f).item i =
      f ((takeNext s tick i coming).item i) := Function.update_self ..
  refine h.take hticking hcoming (fun j hj => ?_) ?_ ?_ (Or.inl fun htrue => ?_) rfl rfl rfl rfl rfl
    rfl rfl
  · exact (Function.update_of_ne hj ..).trans (takeNext_other hj)
  · rw [hself, hcounter, takeNext_item]
  · rw [hself, hparent, takeNext_item]
  · rw [hself, hdecaying] at htrue
    exact ((Item.setID_decaying _ _).1 htrue).2 hresets

/-- The item that comes next goes, and nothing but the reference in hand is left. -/
theorem Kept.takeLeaving (h : Kept s []) (hticking : s.ticking = some tick)
    (hcoming : tick.coming = i :: coming) (hheld : s.held i = 1) {f : Item → Item}
    (hcounter : ∀ item, (f item).referenceCounter = item.referenceCounter)
    (hparent : ∀ item, (f item).hasParent = false) :
    Kept (((takeNext s tick i coming).updateItem i f).releaseHeld i) [i] := by
  have hleft : Kept ((s.updateItem i fun item => { item with hasParent := false }).releaseHeld i)
      [] := h.leave (by omega)
  have hself : ((s.updateItem i fun item => { item with hasParent := false }).releaseHeld i).item i =
      { s.item i with hasParent := false } := Function.update_self ..
  have hnow : (((takeNext s tick i coming).updateItem i f).releaseHeld i).item i =
      f ((takeNext s tick i coming).item i) := Function.update_self ..
  refine hleft.take hticking hcoming (fun j hj => ?_) ?_ ?_ (Or.inr ?_) rfl rfl rfl rfl rfl rfl rfl
  · exact (Function.update_of_ne hj ..).trans
      ((takeNext_other hj).trans (Function.update_of_ne hj ..).symm)
  · rw [hnow, hself, hcounter, takeNext_item]
  · rw [hnow, hself, hparent]
  · show Function.update s.held i (s.held i - 1) i = 0
    rw [Function.update_self, hheld]

/-- An item whose time is up is transformed or removed before it may start again. -/
theorem Kept.takeEnding {start : State → Option Ref → Option State} {ans : Answers}
    (hstart : ∀ t j t', Kept t [i] → start t j = some t' → Kept t' [i]) (h : Kept s [])
    (hticking : s.ticking = some tick) (hcoming : tick.coming = i :: coming)
    (hparent : (s.item i).hasParent = true) (hends : Ends items ans (takeNext s tick i coming) i)
    (heq : Decay.internalDecayItem items start ans (takeNext s tick i coming) i = some s') :
    Kept s' [i] := by
  have htaken : ((takeNext s tick i coming).item i).hasParent = true := by
    rw [takeNext_item]
    exact hparent
  have hremoved (hmay : ans.mayRemove = true) (hheld : s.held i = 1) :
      Kept (Decay.internalRemoveItem ans (takeNext s tick i coming) i) [i] := by
    rw [Decay.internalRemoveItem, if_neg (by rw [htaken]; decide), if_neg (by rw [hmay]; decide)]
    exact h.takeLeaving hticking hcoming hheld (fun _ => rfl) fun _ => rfl
  unfold Decay.internalDecayItem at heq
  unfold Ends at hends
  by_cases hto : (items.type ((takeNext s tick i coming).item i).id).decayTo ≠ 0
  · simp only [if_pos hto] at heq hends
    refine hstart _ _ _ ?_ heq
    unfold Decay.transformItem
    generalize change items ans ((takeNext s tick i coming).item i) _ none = c at hends ⊢
    cases c with
    | returned => exact hends.elim
    | null => exact hends.elim
    | removed => exact hremoved hends.1 hends.2
    | readded newId newCount =>
        have hset (hresets : ((takeNext s tick i coming).item i).Resets items newId) :
            Kept ((takeNext s tick i coming).updateItem i fun item =>
              item.setIDAndCount items newId newCount) [i] :=
          h.takeSetting hticking hcoming (fun item => item.setIDAndCount_counter ..)
            (fun item => item.setIDAndCount_hasParent ..)
            (fun item => item.setIDAndCount_decaying ..) hresets
        cases hback : ans.takenBack with
        | true =>
            simp only [Decay.apply, hback, if_true]
            rcases hends with hresets | ⟨hfalse, _⟩
            · exact hset hresets
            · exact absurd (hback.symm.trans hfalse) (by decide)
        | false =>
            simp only [Decay.apply, hback, Bool.false_eq_true, if_false]
            rcases hends with hresets | ⟨_, hheld⟩
            · exact (hset hresets).leave (h.parent i hparent)
            · rw [updateItem_updateItem]
              exact h.takeLeaving hticking hcoming hheld
                (fun item => item.setIDAndCount_counter ..) fun _ => rfl
    | updated itemId count defaultSubtype =>
        exact h.takeSetting hticking hcoming (fun item => item.updated_counter ..)
          (fun item => item.updated_hasParent ..) (fun item => item.updated_decaying ..) hends
    | replaced newId newCount =>
        obtain ⟨new, hnew⟩ := Option.isSome_iff_exists.1 hends.1
        obtain ⟨hcounter, hdecaying⟩ := createItem_new hnew
        simp only [Decay.apply, hnew]
        refine Kept.allocate ?_ hcounter hdecaying
        exact h.takeLeaving hticking hcoming hends.2 (fun _ => rfl) fun _ => rfl
  · simp only [if_neg hto] at heq hends
    rw [← Option.some.inj heq]
    exact hremoved hends.1 hends.2

theorem turn_cases (items : Items) (item : Item) (bucket : Nat) :
    turn items item bucket = .drop ∨ turn items item bucket = .keep ∨
      (∃ b < EVENT_DECAY_BUCKETS, turn items item bucket = .move b) ∨
        item.canDecay items = true ∧ turn items item bucket = .decay := by
  unfold turn
  cases hcan : item.canDecay items with
  | false => exact Or.inl rfl
  | true =>
      simp only [Bool.not_true, Bool.false_eq_true, if_false]
      split_ifs with hover hlow hsame
      · exact Or.inr (Or.inr (Or.inr ⟨trivial, rfl⟩))
      · exact Or.inr (Or.inr (Or.inr ⟨trivial, rfl⟩))
      · exact Or.inr (Or.inr (Or.inl ⟨_, Nat.mod_lt _ (by decide), rfl⟩))
      · exact Or.inr (Or.inl rfl)

/-- An item that cannot decay any more is dropped. -/
theorem Kept.drop (h : Kept s []) (hticking : s.ticking = some tick)
    (hcoming : tick.coming = i :: coming) :
    Kept ((({ s with ticking := some { tick with coming } } : State).updateItem i fun item =>
      { item with decaying := .false }).releaseListed i) [] := by
  have hself : (({ s with ticking := some { tick with coming } } : State).updateItem i fun item =>
      { item with decaying := .false }).item i = { s.item i with decaying := .false } :=
    Function.update_self ..
  have hfalse : ItemDecayState.false ≠ .true := by decide
  have hdropped : Kept (({ s with ticking := some { tick with coming } } : State).updateItem i
      fun item => { item with decaying := .false }) [i] := by
    refine h.take hticking hcoming (fun j hj => Function.update_of_ne hj ..) ?_ ?_ (Or.inl ?_) rfl
      rfl rfl rfl rfl rfl rfl
    · rw [hself]
    · rw [hself]
    · rw [hself]
      exact hfalse
  exact hdropped.releaseListed

/-- The duration of an item does not count. -/
theorem Kept.tickDown (h : Kept s []) (hticking : s.ticking = some tick)
    (hitem : s'.item = (takeNext s tick i []).item) (hnext : s'.next = s.next)
    (hrelease : s'.toReleaseItems = s.toReleaseItems) (hheld : s'.held = s.held)
    (hlists : ∀ j, s'.occurrences j = s.occurrences j) (hlast : s'.lastBucket = s.lastBucket)
    {tick' : Tick} (htick : s'.ticking = some tick') (hbucket : tick'.bucket = tick.bucket) :
    Kept s' [] := by
  have hdown : Kept (s.updateItem i fun item => { item with
      duration := some (item.getDuration - BitVec.ofInt 32 (decreaseTime item.getDuration)) })
      [] := by
    refine h.update rfl (fun hparent => h.parent i hparent) (Or.inl Iff.rfl)
  refine hdown.of_lists hitem hnext hrelease hheld hlists (fun hnone => ?_)
    (hlast ▸ h.lastBucket) (fun t ht => ?_)
  · rw [htick] at hnone
    cases hnone
  · rw [htick] at ht
    rw [← Option.some.inj ht, hbucket]
    exact h.bucket tick hticking

/-- One round of the loop. -/
theorem Kept.checkItem {answers : Nat → Answers} {fuel : Nat} (h : Kept s [])
    (hticking : s.ticking = some tick) (hcoming : tick.coming = i :: coming)
    (hends : turn items (s.item i) tick.bucket = .decay →
      Ends items (answers fuel) (takeNext s tick i coming) i)
    (heq : checkItem items answers fuel s tick i coming = some s') : Kept s' [] := by
  unfold Decay.checkItem at heq
  rcases turn_cases items (s.item i) tick.bucket with
    hturn | hturn | ⟨b, hb, hturn⟩ | ⟨hcan, hturn⟩
  · rw [hturn] at heq
    exact Option.some.inj heq ▸ h.drop hticking hcoming
  · rw [hturn] at heq
    refine Option.some.inj heq ▸ h.tickDown (i := i) hticking rfl rfl rfl rfl
      (fun j => ?_) rfl rfl rfl
    -- the item stays in front of what is to come
    rw [occurrences_eq, occurrences_eq, hticking]
    show _ + (tick.kept ++ [i] ++ coming).count j = _ + (tick.kept ++ tick.coming).count j
    rw [hcoming, List.append_assoc]
    rfl
  · rw [hturn] at heq
    refine Option.some.inj heq ▸ h.tickDown (i := i) hticking rfl rfl rfl rfl
      (fun j => ?_) rfl rfl rfl
    rw [occurrences_pushBack hb, occurrences_eq, occurrences_eq, hticking]
    show _ + (tick.kept ++ coming).count j + _ = _ + (tick.kept ++ tick.coming).count j
    rw [hcoming, List.count_append, List.count_append, List.count_singleton, List.count_cons (l := coming)]
    show s.toDecayItems.count j + ((s.decayItems 0).count j + (s.decayItems 1).count j +
      (s.decayItems 2).count j + (s.decayItems 3).count j) + _ + _ = _
    omega
  · rw [hturn] at heq
    obtain ⟨t, ht, rfl⟩ := Option.map_eq_some_iff.1 heq
    exact (h.takeEnding (fun _ _ _ hkept hstart => hkept.startDecay hstart) hticking hcoming
      (Item.hasParent_of_canDecay hcan) (hends hturn) ht).releaseListed

/-! ### Between the ticks -/

theorem sortIn_eq (hlast : s.lastBucket < EVENT_DECAY_BUCKETS) :
    ∃ bucket < EVENT_DECAY_BUCKETS, sortIn s i = s.pushBack bucket i := by
  unfold sortIn
  dsimp only
  split_ifs
  · exact ⟨_, hlast, rfl⟩
  · exact ⟨_, Nat.mod_lt _ (by decide), rfl⟩

/-- The items that started to decay are sorted in one after the other. -/
theorem foldl_sortIn (hlast : s.lastBucket < EVENT_DECAY_BUCKETS) (list : List Ref) :
    ∃ buckets, list.foldl sortIn s = { s with decayItems := buckets } ∧
      ∀ j, ({ s with decayItems := buckets } : State).occurrences j =
        s.occurrences j + list.count j := by
  induction list generalizing s with
  | nil => exact ⟨s.decayItems, rfl, fun j => rfl⟩
  | cons i list ih =>
      obtain ⟨bucket, hbucket, hsorted⟩ := sortIn_eq (i := i) hlast
      have hstep : (sortIn s i).lastBucket < EVENT_DECAY_BUCKETS := by
        rw [hsorted]
        exact hlast
      obtain ⟨buckets, heq, hcount⟩ := ih hstep
      rw [hsorted] at heq hcount
      refine ⟨buckets, ?_, fun j => ?_⟩
      · rw [List.foldl_cons, hsorted]
        exact heq
      · rw [← List.singleton_append, List.count_append, ← add_assoc,
          ← occurrences_pushBack hbucket]
        exact hcount j

/-- `cleanup` leaves an item on the lists as often as before, and no reference to be released. -/
theorem Kept.cleanup (h : Kept s []) (hempty : tickItems s.ticking = []) :
    Kept (cleanup { s with ticking := none }) [] := by
  obtain ⟨buckets, heq, hcount⟩ :=
    foldl_sortIn (s := { s with ticking := none }) h.lastBucket s.toDecayItems
  have hlists (j : Ref) : (Decay.cleanup { s with ticking := none }).occurrences j =
      s.occurrences j := by
    have hj := hcount j
    unfold Decay.cleanup
    dsimp only
    rw [heq]
    rw [occurrences_eq, occurrences_eq] at hj
    rw [occurrences_eq, occurrences_eq, hempty]
    simp only [List.count_nil] at hj ⊢
    change _ + (tickItems none).count j = _ + (tickItems none).count j + _ at hj
    show 0 + _ + (tickItems none).count j = _
    simp only [tickItems, List.count_nil] at hj ⊢
    omega
  have hfields : (Decay.cleanup { s with ticking := none }).next = s.next ∧
      (Decay.cleanup { s with ticking := none }).held = s.held ∧
      (Decay.cleanup { s with ticking := none }).ticking = none ∧
      (Decay.cleanup { s with ticking := none }).lastBucket = s.lastBucket ∧
      (Decay.cleanup { s with ticking := none }).toReleaseItems = [] := by
    unfold Decay.cleanup
    dsimp only
    rw [heq]
    exact ⟨rfl, rfl, rfl, rfl, rfl⟩
  obtain ⟨hnext, hheld, hnone, hlast, hrelease⟩ := hfields
  have hcounter (j : Ref) : ((Decay.cleanup { s with ticking := none }).item j).referenceCounter =
      s.held j + s.occurrences j := by
    have hj := h.counted j
    rw [List.append_nil] at hj
    show (s.item j).referenceCounter - s.toReleaseItems.count j = _
    omega
  refine ⟨fun j => ?_, fun j hj => ?_, fun j => ?_, fun j hj => ?_, fun j hj => ?_,
    hlast.trans_lt h.lastBucket, fun tick ht => ?_⟩
  · rw [hlists]
    exact h.once j
  · rw [hheld, hlists, hcounter] at hj
    rw [hlists]
    exact h.decaying j (Or.inl (hj.elim id And.right))
  · rw [hcounter, hheld, hlists, hrelease]
    rfl
  · rw [hheld]
    exact h.parent j hj
  · have hfresh := h.fresh j (hnext ▸ hj)
    show (s.item j).referenceCounter - s.toReleaseItems.count j = 0
    rw [hfresh, Nat.zero_sub]
  · rw [hnone] at ht
    cases ht

theorem Kept.checkDecay (h : Kept s []) (hnone : s.ticking = none) : Kept (checkDecay s) [] := by
  have hbucket : (s.lastBucket + 1) % EVENT_DECAY_BUCKETS < EVENT_DECAY_BUCKETS :=
    Nat.mod_lt _ (by decide)
  refine h.of_lists rfl rfl rfl rfl (fun j => ?_) (fun _ => hnone) h.lastBucket (fun tick ht => ?_)
  · have hupdate := occurrences_update (s := s) hbucket [] j
    rw [occurrences_eq, occurrences_eq, hnone] at hupdate
    rw [occurrences_eq, occurrences_eq, hnone]
    change _ + (tickItems none).count j + _ = _ at hupdate
    show _ + (([] : List Ref) ++ s.decayItems _).count j = _
    simp only [tickItems, List.count_nil, List.nil_append] at hupdate ⊢
    exact hupdate
  · rw [← Option.some.inj ht]
    exact hbucket

theorem Kept.endCheck (h : Kept s []) (hticking : s.ticking = some tick)
    (hcoming : tick.coming = []) : Kept (endCheck s tick) [] := by
  have hbucket := h.bucket tick hticking
  have hback : Kept
      { s with
        ticking := some { tick with kept := [] }
        lastBucket := tick.bucket
        decayItems := Function.update s.decayItems tick.bucket
          (tick.kept ++ s.decayItems tick.bucket) } [] := by
    refine h.of_lists rfl rfl rfl rfl (fun j => ?_) (fun hnone => by cases hnone) hbucket
      (fun t ht => ?_)
    · have hupdate := occurrences_update (s := s) hbucket
        (tick.kept ++ s.decayItems tick.bucket) j
      rw [occurrences_eq, occurrences_eq, hticking] at hupdate
      rw [occurrences_eq, occurrences_eq, hticking]
      show _ + (([] : List Ref) ++ tick.coming).count j = _
      simp only [tickItems, hcoming, List.count_append, List.count_nil] at hupdate ⊢
      omega
    · rw [← Option.some.inj ht]
      exact hbucket
  refine hback.cleanup ?_
  show ([] : List Ref) ++ tick.coming = []
  rw [hcoming]
  rfl

end Ticks

end TibServer.Decay
