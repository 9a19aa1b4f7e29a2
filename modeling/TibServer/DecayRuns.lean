import TibServer.DecayWheel

/-!
All runs of the wheel of decaying items: what the game does with items between and during the ticks,
step after step from a game without items.

`hold` and `letGo` stand for whoever else refers to an item; `takeOff` and `place` for the moves of
an item from one parent to another, which leave its attributes alone.
-/

namespace TibServer.Decay

inductive Event
  | create (type count : Nat)
  /-- An item that was decaying when it was saved waits to be moved. -/
  | load (type count : Nat) (duration : BitVec 32)
  | edit (i : Ref) (duration : Option (BitVec 32)) (hasUniqueId hasCharges : Bool) (subType : Nat)
      (canTransform parentRemoved : Bool)
  | hold (i : Ref)
  | letGo (i : Ref)
  | takeOff (i : Ref)
  | place (i : Ref)
  | startDecay (answers : Nat → Answers) (fuel : Nat) (i : Ref)
  | cleanup
  | setID (i : Ref) (newid : Nat)
  | transform (ans : Answers) (i : Ref) (newId : Nat) (newCount : Option Nat)
  | remove (ans : Answers) (i : Ref)
  | checkDecay
  | checkItem (answers : Nat → Answers) (fuel : Nat)
  | endCheck

def State.empty : State where
  item _ := { id := 0, hasParent := false, referenceCounter := 0 }

def State.hold (s : State) (i : Ref) : State :=
  { s.updateItem i fun item => { item with referenceCounter := item.referenceCounter + 1 } with
    held := Function.update s.held i (s.held i + 1) }

section Runs

variable (items : Items)

/-- The next round of the loop of a tick. -/
def checkNext (answers : Nat → Answers) (fuel : Nat) (s : State) : Option State :=
  match s.ticking with
  | some ⟨bucket, kept, i :: coming⟩ =>
      checkItem items answers fuel s ⟨bucket, kept, i :: coming⟩ i coming
  | _ => none

/-- A tick ends when nothing is to come. -/
def endTick (s : State) : Option State :=
  match s.ticking with
  | some ⟨bucket, kept, []⟩ => some (endCheck s ⟨bucket, kept, []⟩)
  | _ => none

/-- Who takes a reference has one, and the parent keeps its own. -/
def perform (s : State) : Event → Option State
  | .create type count => (createItem items type count).map s.allocate
  | .load type count duration =>
      (createItem items type count).map fun new =>
        s.allocate { new with decaying := .pending, duration := some duration }
  | .edit i duration hasUniqueId hasCharges subType canTransform parentRemoved =>
      some (s.updateItem i fun item =>
        { item with duration, hasUniqueId, hasCharges, subType, canTransform, parentRemoved })
  | .hold i => if 0 < s.held i then some (s.hold i) else none
  | .letGo i =>
      if 2 ≤ s.held i ∨ 1 ≤ s.held i ∧ (s.item i).hasParent = false then some (s.releaseHeld i)
      else none
  | .takeOff i => some (s.updateItem i fun item => { item with hasParent := false })
  | .place i =>
      if 0 < s.held i then some (s.updateItem i fun item => { item with hasParent := true })
      else none
  | .startDecay answers fuel i => Decay.startDecay items answers fuel s (some i)
  | .cleanup => if s.ticking.isNone then some (Decay.cleanup s) else none
  | .setID i newid =>
      if 0 < s.held i then some (s.updateItem i fun item => item.setID items newid) else none
  | .transform ans i newId newCount => some (transformItem items ans s i newId newCount).1
  | .remove ans i => some (internalRemoveItem ans s i)
  | .checkDecay => if s.ticking.isNone then some (Decay.checkDecay s) else none
  | .checkItem answers fuel => checkNext items answers fuel s
  | .endCheck => endTick s

inductive Run (allowed : State → Event → Prop) : State → Prop
  | start : Run allowed .empty
  | step {s s' : State} (event : Event) (run : Run allowed s) (meets : allowed s event)
      (perform : perform items s event = some s') : Run allowed s'

/-- No id resets the state of an item that is on the lists, and an item whose time is up does not
stay as it is. -/
def Settles (s : State) : Event → Prop
  | .setID i newid => s.occurrences i = 0 ∨ ¬ (s.item i).Resets items newid
  | .transform ans i newId newCount =>
      ∀ id, (change items ans (s.item i) newId newCount).newId = some id →
        s.occurrences i = 0 ∨ ¬ (s.item i).Resets items id
  | .checkItem answers fuel =>
      ∀ tick i coming, s.ticking = some tick → tick.coming = i :: coming →
        turn items (s.item i) tick.bucket = .decay →
          Ends items (answers fuel) (takeNext s tick i coming) i
  | _ => True

end Runs

variable {items : Items} {s s' : State} {i : Ref}

theorem Kept.empty : Kept .empty [] := by
  refine ⟨fun j => Nat.zero_le _, fun j hj => ?_, fun j => rfl, fun j hj => ?_, fun j hj => rfl,
    by decide, fun tick htick => ?_⟩
  · exact absurd hj (by rintro (hpos | ⟨_, hpos⟩) <;> exact absurd hpos (Nat.lt_irrefl 0))
  · exact absurd hj Bool.false_ne_true
  · cases htick

/-- One more reference to an item that is referred to. -/
theorem Kept.hold (h : Kept s []) (hheld : 0 < s.held i) : Kept (s.hold i) [] := by
  have hself : (s.hold i).item i =
      { s.item i with referenceCounter := (s.item i).referenceCounter + 1 } :=
    Function.update_self ..
  have hone : (s.hold i).held i = s.held i + 1 := Function.update_self ..
  have hitem {j : Ref} (hj : j ≠ i) : (s.hold i).item j = s.item j := Function.update_of_ne hj ..
  have hother {j : Ref} (hj : j ≠ i) : (s.hold i).held j = s.held j := Function.update_of_ne hj ..
  refine ⟨h.once, fun j hj => ?_, fun j => ?_, fun j hj => ?_, fun j hj => ?_, h.lastBucket,
    h.bucket⟩
  · show s.occurrences j = 1 ↔ _
    by_cases hji : j = i
    · subst hji
      rw [hself]
      exact h.decaying j (Or.inl (by omega))
    · rw [hitem hji, hother hji] at hj
      rw [hitem hji]
      exact h.decaying j hj
  · have hcounted := h.counted j
    show _ = (s.hold i).held j + s.occurrences j + (s.toReleaseItems ++ []).count j
    by_cases hji : j = i
    · subst hji
      rw [hself, hone]
      show (s.item j).referenceCounter + 1 = _
      omega
    · rw [hitem hji, hother hji]
      exact hcounted
  · by_cases hji : j = i
    · rw [hji, hone]
      omega
    · rw [hitem hji] at hj
      rw [hother hji]
      exact h.parent j hj
  · have hcounted := h.counted i
    have hlt : i < s.next := h.lt_next (by omega)
    rw [hitem (Nat.ne_of_gt (Nat.lt_of_lt_of_le hlt hj))]
    exact h.fresh j hj

/-- One step of the game. -/
theorem Kept.perform {event : Event} (h : Kept s []) (hsettles : Settles items s event)
    (heq : perform items s event = some s') : Kept s' [] := by
  cases event with
  | create type count =>
      obtain ⟨new, hnew, rfl⟩ := Option.map_eq_some_iff.1 heq
      obtain ⟨hcounter, hdecaying⟩ := createItem_new hnew
      exact h.allocate hcounter hdecaying
  | load type count duration =>
      obtain ⟨new, hnew, rfl⟩ := Option.map_eq_some_iff.1 heq
      have hpending : ItemDecayState.pending ≠ .true := by decide
      exact h.allocate (createItem_new hnew).1 hpending
  | edit i duration hasUniqueId hasCharges subType canTransform parentRemoved =>
      rw [← Option.some.inj heq]
      exact h.update rfl (fun hparent => h.parent i hparent) (Or.inl Iff.rfl)
  | hold i =>
      obtain ⟨hheld, heq⟩ := Option.ite_none_right_eq_some.1 heq
      rw [← Option.some.inj heq]
      exact h.hold hheld
  | letGo i =>
      obtain ⟨hheld, heq⟩ := Option.ite_none_right_eq_some.1 heq
      rw [← Option.some.inj heq]
      refine h.releaseHeld (by omega) fun hparent => ?_
      rcases hheld with hheld | ⟨_, hfalse⟩
      · exact hheld
      · exact absurd (hparent.symm.trans hfalse) (by decide)
  | takeOff i =>
      rw [← Option.some.inj heq]
      exact h.update rfl (fun hfalse => absurd hfalse Bool.false_ne_true) (Or.inl Iff.rfl)
  | place i =>
      obtain ⟨hheld, heq⟩ := Option.ite_none_right_eq_some.1 heq
      rw [← Option.some.inj heq]
      exact h.update rfl (fun _ => hheld) (Or.inl Iff.rfl)
  | startDecay answers fuel i => exact h.startDecay heq
  | cleanup =>
      obtain ⟨hnone, heq⟩ := Option.ite_none_right_eq_some.1 heq
      have hticking := Option.isNone_iff_eq_none.1 hnone
      have hclean := h.cleanup (by rw [hticking]; rfl)
      rw [← hticking] at hclean
      exact Option.some.inj heq ▸ hclean
  | setID i newid =>
      obtain ⟨hheld, heq⟩ := Option.ite_none_right_eq_some.1 heq
      rw [← Option.some.inj heq]
      exact h.setItem hheld hsettles (Item.setID_counter ..) rfl
  | transform ans i newId newCount =>
      rw [← Option.some.inj heq]
      exact h.transformItem hsettles
  | remove ans i =>
      rw [← Option.some.inj heq]
      exact h.internalRemoveItem
  | checkDecay =>
      obtain ⟨hnone, heq⟩ := Option.ite_none_right_eq_some.1 heq
      rw [← Option.some.inj heq]
      exact h.checkDecay (Option.isNone_iff_eq_none.1 hnone)
  | checkItem answers fuel =>
      change checkNext items answers fuel s = some s' at heq
      unfold checkNext at heq
      split at heq
      · rename_i bucket kept i coming hticking
        exact h.checkItem hticking rfl (hsettles _ _ _ hticking rfl) heq
      · cases heq
  | endCheck =>
      change endTick s = some s' at heq
      unfold endTick at heq
      split at heq
      · rename_i bucket kept hticking
        rw [← Option.some.inj heq]
        exact h.endCheck hticking rfl
      · cases heq

theorem Run.kept (h : Run items (Settles items) s) : Kept s [] := by
  induction h with
  | start => exact Kept.empty
  | step event run meets perform ih => exact ih.perform meets perform

/-- In every run in which no id resets the state of an item that is on the lists and an item whose
time is up does not stay as it is, every item is on the lists at most once, the item is there just if
it is decaying, and it is referred to once for each time it is there. -/
theorem decay_wheel_kept (h : Run items (Settles items) s) (i : Ref) :
    s.occurrences i ≤ 1 ∧
      (0 < s.held i + s.occurrences i ∨ s.ticking = none ∧ 0 < (s.item i).referenceCounter →
        (s.occurrences i = 1 ↔ (s.item i).decaying = .true)) ∧
      (s.item i).referenceCounter =
        s.held i + s.occurrences i + s.toReleaseItems.count i := by
  refine ⟨h.kept.once i, h.kept.decaying i, ?_⟩
  have hcounted := h.kept.counted i
  rwa [List.append_nil] at hcounted

namespace Sample

/-- A torch that burns down. -/
def torches : Items where
  type id :=
    if id = 2055 then { id, decayTime := 300, decayTo := 2056 }
    else if id = 2056 then { id, decayTime := 300, decayTo := 0 }
    else {}
  stackable_isPlain id h := by split_ifs at h
  stackable_down id h := by split_ifs at h
  stackable_createdId id h := by split_ifs at h

def answers (_ : Nat) : Answers := {}

/-- A torch with half a second left turns into what burns next. -/
theorem torch_burns : ∃ s, Run torches (Settles torches) s ∧ (s.item 0).id = 2056 ∧
    (s.item 0).decaying = .true ∧ s.occurrences 0 = 1 ∧ (s.item 0).referenceCounter = 2 := by
  have hstarted : Run torches (Settles torches) _ :=
    (((Run.start.step (.create 2055 1) trivial rfl).step
      (.edit 0 (some 500) false false 1 true false) trivial rfl).step
        (.startDecay answers 1 0) trivial rfl).step .cleanup trivial rfl
  have hticking := hstarted.step .checkDecay trivial rfl
  have hchecked := hticking.step (.checkItem answers 1) (fun tick i coming htick hcoming _ => by
    rw [← Option.some.inj htick] at hcoming
    rw [← (List.cons.inj hcoming).1]
    show Item.Resets torches _ 2056
    exact Or.inr ⟨by decide, Or.inl rfl⟩) (Option.some_get (by decide)).symm
  have hburnt := hchecked.step .endCheck trivial (Option.some_get (by decide)).symm
  obtain ⟨_, hstate, hcounter⟩ := decay_wheel_kept hburnt 0
  have hdecaying := (hstate (Or.inl (by decide))).1 (by decide)
  exact ⟨_, hburnt, by decide, hdecaying, by decide, hcounter.trans (by decide)⟩

/-- A burning torch that is changed into the next one is put on the lists again. -/
theorem torch_listed_twice : ∃ s, Run torches (fun _ _ => True) s ∧ s.occurrences 0 = 2 := by
  have htwice : Run torches (fun _ _ => True) _ :=
    (((Run.start.step (.create 2055 1) trivial rfl).step
      (.startDecay answers 1 0) trivial rfl).step
        (.transform {} 0 2056 none) trivial rfl).step (.startDecay answers 1 0) trivial rfl
  exact ⟨_, htwice, by decide⟩

end Sample

end TibServer.Decay
