import TibServer.DecayRuns

/-!
The way of an item over the lists of decaying items (`Game::checkDecay`, `Game::cleanup`). An item
that is left alone is on one of them at a time, and every event takes it to a place that is known.
-/

namespace TibServer.Decay

/-! ### Where an item waits -/

def slot (n : Nat) : Fin EVENT_DECAY_BUCKETS := ⟨n % EVENT_DECAY_BUCKETS, Nat.mod_lt _ (by decide)⟩

theorem slot_cases (b : Fin EVENT_DECAY_BUCKETS) :
    b = slot 0 ∨ b = slot 1 ∨ b = slot 2 ∨ b = slot 3 := by
  obtain ⟨b, hb⟩ := b
  have hcases : b = 0 ∨ b = 1 ∨ b = 2 ∨ b = 3 := by
    rw [EVENT_DECAY_BUCKETS] at hb
    omega
  rcases hcases with rfl | rfl | rfl | rfl
  · exact .inl rfl
  · exact .inr (.inl rfl)
  · exact .inr (.inr (.inl rfl))
  · exact .inr (.inr (.inr rfl))

/-- The lists an item may be on: those that started, a bucket, and of the bucket that is looked
through what is to come and what stays. -/
inductive Place
  | started
  | bucket (b : Fin EVENT_DECAY_BUCKETS)
  | coming
  | kept
  deriving DecidableEq

def Place.list (s : State) : Place → List Ref
  | .started => s.toDecayItems
  | .bucket b => s.decayItems b
  | .coming => (s.ticking.map (·.coming)).getD []
  | .kept => (s.ticking.map (·.kept)).getD []

/-- The item decays in one place, once, with `d` left of its duration. -/
structure Waits (items : Items) (i : Ref) (p : Place) (d : BitVec 32) (s : State) : Prop where
  lives : i < s.next
  canDecay : (s.item i).canDecay items = true
  decaying : (s.item i).decaying = .true
  duration : (s.item i).getDuration = d
  count : ∀ q : Place, (q.list s).count i = if q = p then 1 else 0

/-- Nothing happens to the item but that it is referred to more or less often. -/
structure Spared (i : Ref) (s s' : State) : Prop where
  next : s.next ≤ s'.next
  item : ∃ n, s'.item i = { s.item i with referenceCounter := n }
  count : ∀ q : Place, (q.list s').count i = (q.list s).count i

section Spared

variable {items : Items} {i j : Ref} {p : Place} {d : BitVec 32} {s s' s'' : State}

theorem Spared.refl (i : Ref) (s : State) : Spared i s s :=
  ⟨Nat.le_refl _, ⟨_, rfl⟩, fun _ => rfl⟩

theorem Spared.trans (h : Spared i s s') (h' : Spared i s' s'') : Spared i s s'' where
  next := h.next.trans h'.next
  item := by
    obtain ⟨n, hn⟩ := h.item
    obtain ⟨n', hn'⟩ := h'.item
    exact ⟨n', by rw [hn', hn]⟩
  count q := (h'.count q).trans (h.count q)

/-- What waits goes on waiting while it is spared. -/
theorem Waits.spared (h : Waits items i p d s) (hspared : Spared i s s') :
    Waits items i p d s' := by
  obtain ⟨n, hn⟩ := hspared.item
  refine ⟨h.lives.trans_le hspared.next, ?_, ?_, ?_, fun q => (hspared.count q).trans (h.count q)⟩
  · rw [hn]
    exact h.canDecay
  · rw [hn]
    exact h.decaying
  · rw [hn]
    exact h.duration

theorem Spared.of_item (hitem : s'.item i = s.item i) (hnext : s.next ≤ s'.next)
    (hlists : ∀ q : Place, q.list s' = q.list s) : Spared i s s' :=
  ⟨hnext, ⟨(s.item i).referenceCounter, hitem⟩, fun q => by rw [hlists q]⟩

theorem Place.list_congr {s s' : State} (hstarted : s'.toDecayItems = s.toDecayItems)
    (hbuckets : s'.decayItems = s.decayItems) (hticking : s'.ticking = s.ticking) (q : Place) :
    q.list s' = q.list s := by
  cases q with
  | started => exact hstarted
  | bucket b => exact congrFun hbuckets b
  | coming => rw [Place.list, Place.list, hticking]
  | kept => rw [Place.list, Place.list, hticking]

theorem Spared.updateItem (hj : j ≠ i) (f : Item → Item) : Spared i s (s.updateItem j f) :=
  .of_item (Function.update_of_ne hj.symm ..) (Nat.le_refl _) (Place.list_congr rfl rfl rfl)

theorem Spared.releaseHeld (s : State) (j : Ref) : Spared i s (s.releaseHeld j) :=
  .of_item rfl (Nat.le_refl _) (Place.list_congr rfl rfl rfl)

theorem Spared.releaseListed (s : State) (j : Ref) : Spared i s (s.releaseListed j) :=
  .of_item rfl (Nat.le_refl _) (Place.list_congr rfl rfl rfl)

theorem Spared.allocate (hi : i < s.next) (new : Item) : Spared i s (s.allocate new) :=
  .of_item (Function.update_of_ne (Nat.ne_of_lt hi) ..) (Nat.le_succ _)
    (Place.list_congr rfl rfl rfl)

theorem Spared.pushFront (hj : j ≠ i) : Spared i s (pushFront s j) := by
  refine ⟨Nat.le_refl _, ⟨(s.item i).referenceCounter, Function.update_of_ne hj.symm ..⟩,
    fun q => ?_⟩
  cases q with
  | started => exact List.count_cons_of_ne hj
  | bucket b => rfl
  | coming => rfl
  | kept => rfl

theorem Spared.internalRemoveItem (hj : j ≠ i) (ans : Answers) :
    Spared i s (internalRemoveItem ans s j) := by
  unfold Decay.internalRemoveItem
  split_ifs
  · exact .refl i s
  · exact .refl i s
  · exact (Spared.updateItem hj _).trans (.releaseHeld _ j)

theorem Spared.apply (hi : i < s.next) (hj : j ≠ i) (ans : Answers) (c : Change) :
    Spared i s (apply items ans s j c).1 := by
  cases c with
  | returned => exact .refl i s
  | null => exact .refl i s
  | removed => exact .internalRemoveItem hj ans
  | readded newId newCount =>
      unfold Decay.apply
      dsimp only
      have hset := Spared.updateItem (s := s) hj (·.setIDAndCount items newId newCount)
      split_ifs
      · exact hset
      · exact (hset.trans (.updateItem hj _)).trans (.releaseHeld _ j)
  | updated itemId count defaultSubtype =>
      exact Spared.updateItem hj (·.updated items itemId count defaultSubtype)
  | replaced newId newCount =>
      unfold Decay.apply
      dsimp only
      split
      · exact .refl i s
      · exact ((Spared.updateItem hj _).trans (.releaseHeld _ j)).trans (.allocate (by exact hi) _)

theorem Spared.transformItem (hi : i < s.next) (hj : j ≠ i) (ans : Answers) (newId : Nat)
    (newCount : Option Nat) : Spared i s (transformItem items ans s j newId newCount).1 :=
  .apply hi hj ans _

/-- What an item turns into is itself or new. -/
theorem transformItem_ne (hi : i < s.next) (hj : j ≠ i) (ans : Answers) (newId : Nat)
    (newCount : Option Nat) : (transformItem items ans s j newId newCount).2 ≠ some i := by
  have hself : some j ≠ some i := fun h => hj (Option.some.inj h)
  have hnew : some s.next ≠ some i := fun h => Nat.ne_of_gt hi (Option.some.inj h)
  have hnone : none ≠ some i := (Option.some_ne_none i).symm
  unfold Decay.transformItem
  cases change items ans (s.item j) newId newCount with
  | returned => exact hself
  | null => exact hnone
  | removed => exact hnone
  | readded newId newCount =>
      unfold Decay.apply
      dsimp only
      split_ifs
      · exact hself
      · exact hnone
  | updated itemId count defaultSubtype => exact hself
  | replaced newId newCount =>
      unfold Decay.apply
      dsimp only
      split
      · exact hnone
      · exact hnew

theorem Spared.internalDecayItem {start : State → Option Ref → Option State} {ans : Answers}
    (hstart : ∀ t o t', i < t.next → o ≠ some i → start t o = some t' → Spared i t t')
    (hi : i < s.next) (hj : j ≠ i) (heq : internalDecayItem items start ans s j = some s') :
    Spared i s s' := by
  unfold Decay.internalDecayItem at heq
  by_cases hto : (items.type (s.item j).id).decayTo ≠ 0
  · simp only [if_pos hto] at heq
    have hturned : Spared i s (Decay.transformItem items ans s j
        ((items.type (s.item j).id).decayTo % 65536).toNat none).1 := .transformItem hi hj ans _ _
    refine hturned.trans (hstart _ _ _ (hi.trans_le hturned.next) ?_ heq)
    exact transformItem_ne hi hj ans _ _
  · simp only [if_neg hto] at heq
    exact Option.some.inj heq ▸ .internalRemoveItem hj ans

/-- An item that starts another one spares this one, whatever turns into what: by induction on the
fuel. -/
theorem Spared.startDecay {answers : Nat → Answers} {fuel : Nat} {o : Option Ref}
    (hi : i < s.next) (hj : o ≠ some i)
    (heq : startDecay items answers fuel s o = some s') : Spared i s s' := by
  induction fuel generalizing s s' o with
  | zero => cases heq
  | succ fuel ih =>
      cases o with
      | none => exact Option.some.inj heq ▸ .refl i s
      | some j =>
          have hji : j ≠ i := fun hji => hj (congrArg some hji)
          unfold Decay.startDecay at heq
          split_ifs at heq
          · exact Option.some.inj heq ▸ .refl i s
          · exact Option.some.inj heq ▸ .refl i s
          · exact Option.some.inj heq ▸ .pushFront hji
          · exact Spared.internalDecayItem (fun _ _ _ ht ho hs => ih ht ho hs) hi hji heq

theorem Spared.pushBack (hj : j ≠ i) (bucket : Nat) : Spared i s (s.pushBack bucket j) := by
  refine ⟨Nat.le_refl _, ⟨(s.item i).referenceCounter, rfl⟩, fun q => ?_⟩
  cases q with
  | started => rfl
  | bucket b =>
      change (Function.update s.decayItems bucket (s.decayItems bucket ++ [j]) b).count i = _
      by_cases hb : b = bucket
      · rw [hb, Function.update_self, List.count_append, List.count_singleton,
          if_neg (by simpa using hj)]
        simp [Place.list, hb]
      · rw [Function.update_of_ne hb]
        rfl
  | coming => rfl
  | kept => rfl

/-- The tick goes on among the other items. -/
theorem Spared.ofTick {tick tick' : Tick} (hticking : s.ticking = some tick)
    (hcoming : tick'.coming.count i = tick.coming.count i)
    (hkept : tick'.kept.count i = tick.kept.count i) :
    Spared i s { s with ticking := some tick' } := by
  refine ⟨Nat.le_refl _, ⟨(s.item i).referenceCounter, rfl⟩, fun q => ?_⟩
  cases q with
  | started => rfl
  | bucket b => rfl
  | coming =>
      rw [Place.list, Place.list, hticking]
      exact hcoming
  | kept =>
      rw [Place.list, Place.list, hticking]
      exact hkept

/-- A round of the loop for another item. -/
theorem Spared.checkItem {answers : Nat → Answers} {fuel : Nat} {tick : Tick} {coming : List Ref}
    (hi : i < s.next) (hj : j ≠ i) (hticking : s.ticking = some tick)
    (hcoming : tick.coming = j :: coming)
    (heq : checkItem items answers fuel s tick j coming = some s') : Spared i s s' := by
  have hcount : coming.count i = tick.coming.count i := by
    rw [hcoming, List.count_cons_of_ne hj]
  have hdropped : Spared i s { s with ticking := some { tick with coming } } :=
    .ofTick hticking hcount rfl
  have htaken : Spared i s (takeNext s tick j coming) := by
    unfold takeNext
    exact (Spared.updateItem hj _).trans (@Spared.ofTick _ _ tick _ hticking hcount rfl)
  unfold Decay.checkItem at heq
  split at heq
  · exact Option.some.inj heq ▸ (hdropped.trans (.updateItem hj _)).trans (.releaseListed _ j)
  · refine Option.some.inj heq ▸ htaken.trans (.ofTick rfl rfl ?_)
    simp [List.count_append, hj]
  · exact Option.some.inj heq ▸ htaken.trans (.pushBack hj _)
  · obtain ⟨t, ht, rfl⟩ := Option.map_eq_some_iff.1 heq
    have hdecayed := Spared.internalDecayItem
      (fun _ _ _ hlives ho hs => .startDecay hlives ho hs) (by exact hi) hj ht
    exact (htaken.trans hdecayed).trans (.releaseListed _ j)

end Spared

/-! ### All places -/

section All

variable {items : Items} {i : Ref} {p : Place} {d : BitVec 32} {s : State}

theorem occurrences_places (s : State) (i : Ref) : s.occurrences i =
    (Place.started.list s).count i + (((Place.bucket (slot 0)).list s).count i +
      ((Place.bucket (slot 1)).list s).count i + ((Place.bucket (slot 2)).list s).count i +
        ((Place.bucket (slot 3)).list s).count i) +
      ((Place.kept.list s).count i + (Place.coming.list s).count i) := by
  rw [occurrences_eq]
  simp only [Place.list]
  cases s.ticking with
  | none => rfl
  | some tick => exact congrArg (_ + ·) List.count_append

theorem count_of_unlisted (h : s.occurrences i = 0) (q : Place) : (q.list s).count i = 0 := by
  rw [occurrences_places] at h
  cases q with
  | started => omega
  | bucket b => rcases slot_cases b with rfl | rfl | rfl | rfl <;> omega
  | coming => omega
  | kept => omega

/-- What waits in one place is on the lists once. -/
theorem Waits.occurrences (h : Waits items i p d s) : s.occurrences i = 1 := by
  rw [occurrences_places]
  simp only [h.count]
  cases p with
  | started => rfl
  | bucket b => rcases slot_cases b with rfl | rfl | rfl | rfl <;> rfl
  | coming => rfl
  | kept => rfl

/-- What was on no list and starts is among those that started. -/
theorem Waits.pushFront (hlives : i < s.next) (hunlisted : s.occurrences i = 0)
    (hcan : (s.item i).canDecay items = true) :
    Waits items i .started (s.item i).getDuration (pushFront s i) := by
  have hitem : (Decay.pushFront s i).item i = { s.item i with
      decaying := .true, referenceCounter := (s.item i).referenceCounter + 1 } :=
    Function.update_self ..
  refine ⟨hlives, ?_, ?_, ?_, fun q => ?_⟩
  · rw [hitem]
    exact hcan
  · rw [hitem]
  · rw [hitem]
    rfl
  · have hzero := count_of_unlisted hunlisted q
    cases q with
    | started =>
        change (i :: s.toDecayItems).count i = 1
        rw [List.count_cons_self]
        exact congrArg (· + 1) hzero
    | bucket b => exact hzero
    | coming => exact hzero
    | kept => exact hzero

end All

/-! ### How it gets from place to place -/

/-- A tick takes its bucket. -/
def Place.looked (lastBucket : Nat) : Place → Place
  | .bucket b => if b = slot (lastBucket + 1) then .coming else .bucket b
  | p => p

/-- `cleanup` sorts in what started. -/
def Place.sorted (lastBucket dur : Nat) : Place → Place
  | .started => .bucket (slot (if 1000 ≤ dur then lastBucket else lastBucket + 1 + dur / 1000))
  | p => p

section Places

variable {items : Items} {i j : Ref} {p q : Place} {d : BitVec 32} {s s' : State} {tick : Tick}

theorem Waits.of_count (h : Waits items i p d s) (hnext : s'.next = s.next)
    (hitem : ∃ n, s'.item i = { s.item i with referenceCounter := n }) {p' : Place}
    (hcount : ∀ q : Place, (q.list s').count i = if q = p' then 1 else 0) :
    Waits items i p' d s' := by
  obtain ⟨n, hn⟩ := hitem
  refine ⟨hnext ▸ h.lives, ?_, ?_, ?_, hcount⟩
  · rw [hn]
    exact h.canDecay
  · rw [hn]
    exact h.decaying
  · rw [hn]
    exact h.duration

/-- Between the ticks an item is in a bucket or has just started. -/
theorem Waits.of_not_ticking (h : Waits items i p d s) (hnone : s.ticking = none) :
    p = .started ∨ ∃ b, p = .bucket b := by
  cases p with
  | started => exact .inl rfl
  | bucket b => exact .inr ⟨b, rfl⟩
  | coming =>
      have hcount := h.count .coming
      rw [Place.list, hnone] at hcount
      exact absurd hcount (by simp)
  | kept =>
      have hcount := h.count .kept
      rw [Place.list, hnone] at hcount
      exact absurd hcount (by simp)

theorem Waits.coming_ne_nil (h : Waits items i .coming d s) (hticking : s.ticking = some tick) :
    tick.coming ≠ [] := by
  have hcount := h.count .coming
  rw [Place.list, hticking, if_pos rfl] at hcount
  intro hnil
  change tick.coming.count i = 1 at hcount
  rw [hnil] at hcount
  exact absurd hcount (by simp)

theorem Waits.checkDecay (h : Waits items i p d s) (hnone : s.ticking = none) :
    Waits items i (p.looked s.lastBucket) d (checkDecay s) := by
  have hcoming : (Place.coming.list (Decay.checkDecay s)).count i =
      (s.decayItems (slot (s.lastBucket + 1))).count i := rfl
  have hbucket (b : Fin EVENT_DECAY_BUCKETS) : ((Place.bucket b).list (Decay.checkDecay s)).count i =
      if b = slot (s.lastBucket + 1) then 0 else (s.decayItems b).count i := by
    change (Function.update s.decayItems (slot (s.lastBucket + 1)).val [] b).count i = _
    by_cases hb : b = slot (s.lastBucket + 1)
    · rw [hb, Function.update_self, if_pos rfl]
      rfl
    · rw [Function.update_of_ne fun heq => hb (Fin.ext heq), if_neg hb]
  have hslot := h.count (.bucket (slot (s.lastBucket + 1)))
  apply h.of_count
  · rfl
  · exact ⟨_, rfl⟩
  intro q
  rcases h.of_not_ticking hnone with rfl | ⟨b, rfl⟩
  · change _ = if q = .started then 1 else 0
    cases q with
    | started => exact h.count .started
    | bucket b =>
        rw [hbucket]
        exact ite_eq_left_iff.mpr fun _ => h.count (.bucket b)
    | coming => exact hcoming.trans hslot
    | kept => rfl
  by_cases hb : b = slot (s.lastBucket + 1)
  · rw [Place.looked, if_pos hb]
    cases q with
    | started => exact h.count .started
    | bucket b' =>
        rw [hbucket]
        refine ite_eq_left_iff.mpr fun hb' => (h.count (.bucket b')).trans (if_neg fun heq => ?_)
        exact hb' ((Place.bucket.inj heq).trans hb)
    | coming => exact hcoming.trans (hslot.trans (if_pos (congrArg Place.bucket hb.symm)))
    | kept => rfl
  · rw [Place.looked, if_neg hb]
    cases q with
    | started => exact h.count .started
    | bucket b' =>
        rw [hbucket, ← h.count (.bucket b')]
        refine ite_eq_right_iff.mpr fun hb' => ?_
        have hne : Place.bucket b' ≠ .bucket b := fun heq => hb ((Place.bucket.inj heq).symm.trans hb')
        exact ((h.count (.bucket b')).trans (if_neg hne)).symm
    | coming =>
        exact hcoming.trans (hslot.trans (if_neg fun heq => hb (Place.bucket.inj heq).symm))
    | kept => rfl

theorem count_pushBack (s : State) (bucket : Fin EVENT_DECAY_BUCKETS) (j : Ref) (q : Place) :
    (q.list (s.pushBack bucket j)).count i =
      (q.list s).count i + if q = .bucket bucket then [j].count i else 0 := by
  cases q with
  | started => rfl
  | bucket b =>
      change (Function.update s.decayItems bucket.val (s.decayItems bucket ++ [j]) b).count i = _
      by_cases hb : b = bucket
      · rw [hb, Function.update_self, if_pos rfl, List.count_append]
        rfl
      · rw [Function.update_of_ne fun heq => hb (Fin.ext heq),
          if_neg fun heq => hb (Place.bucket.inj heq)]
        rfl
  | coming => rfl
  | kept => rfl

/-- The bucket an item that started is sorted into. -/
theorem sortIn_eq_pushBack (hlast : s.lastBucket < EVENT_DECAY_BUCKETS) (j : Ref) :
    ∃ b, Place.started.sorted s.lastBucket (s.item j).getDuration.toNat = .bucket b ∧
      sortIn s j = s.pushBack b j := by
  refine ⟨_, rfl, ?_⟩
  unfold sortIn slot
  dsimp only
  by_cases hdur : 1000 ≤ (s.item j).getDuration.toNat
  · rw [if_pos (by exact hdur), if_pos hdur, Nat.mod_eq_of_lt hlast]
  · rw [if_neg (by exact hdur), if_neg hdur]

theorem count_foldl_sortIn (hlast : s.lastBucket < EVENT_DECAY_BUCKETS) (list : List Ref)
    (q : Place) : (q.list (list.foldl sortIn s)).count i = (q.list s).count i +
      if q = Place.started.sorted s.lastBucket (s.item i).getDuration.toNat then list.count i
      else 0 := by
  induction list generalizing s with
  | nil => simp
  | cons j list ih =>
      obtain ⟨b, hb, hsorted⟩ := sortIn_eq_pushBack hlast j
      rw [List.foldl_cons, hsorted]
      refine (ih (s := s.pushBack b j) hlast).trans ?_
      rw [count_pushBack]
      change _ + (if q = Place.started.sorted s.lastBucket (s.item i).getDuration.toNat then _
        else _) = _
      by_cases hj : j = i
      · rw [← hj, hb]
        split_ifs
        · rw [List.count_cons_self, List.count_cons_self, List.count_nil]
          omega
        · rfl
      · rw [List.count_cons_of_ne hj (l := list), List.count_cons_of_ne hj, List.count_nil, ite_self,
          Nat.add_zero]

theorem Place.sorted_ne_started (lastBucket dur : Nat) (p : Place) :
    p.sorted lastBucket dur ≠ .started := by
  cases p <;> exact Place.noConfusion

theorem Place.sorted_of_ne {lastBucket dur : Nat} {p : Place} (h : p ≠ .started) :
    p.sorted lastBucket dur = p := by
  cases p with
  | started => exact absurd rfl h
  | bucket b => rfl
  | coming => rfl
  | kept => rfl

theorem Waits.cleanup (h : Waits items i p d s) (hlast : s.lastBucket < EVENT_DECAY_BUCKETS) :
    Waits items i (p.sorted s.lastBucket d.toNat) d (Decay.cleanup s) := by
  have hitem : (Decay.cleanup s).item i = { s.item i with
      referenceCounter := (s.item i).referenceCounter - s.toReleaseItems.count i } := rfl
  have hstarted : Place.started.list (Decay.cleanup s) = [] := rfl
  have hother {q : Place} (hq : q ≠ .started) : (q.list (Decay.cleanup s)).count i =
      (q.list s).count i + if q = Place.started.sorted s.lastBucket d.toNat then
        s.toDecayItems.count i else 0 := by
    rw [← h.duration, ← count_foldl_sortIn hlast]
    cases q with
    | started => exact absurd rfl hq
    | bucket b => rfl
    | coming => rfl
    | kept => rfl
  have hnext : (Decay.cleanup s).next = s.next := by
    unfold Decay.cleanup
    obtain ⟨buckets, heq, -⟩ := foldl_sortIn hlast s.toDecayItems
    dsimp only
    rw [heq]
  apply h.of_count hnext ⟨_, hitem⟩
  intro q
  by_cases hq : q = .started
  · rw [hq, hstarted, if_neg (Place.sorted_ne_started _ _ p).symm]
    rfl
  · have hcount := h.count .started
    change s.toDecayItems.count i = _ at hcount
    rw [hother hq, h.count, hcount]
    by_cases hp : p = .started
    · rw [hp, if_neg hq, if_pos rfl, Nat.zero_add]
    · rw [Place.sorted_of_ne hp, if_neg (Ne.symm hp), ite_self, Nat.add_zero]

/-- What stays in its bucket at the end of a tick. -/
def Place.returned (bucket : Nat) : Place → Place
  | .kept => .bucket (slot bucket)
  | p => p

theorem Waits.endCheck (h : Waits items i p d s) (hticking : s.ticking = some tick)
    (hcoming : tick.coming = []) (hbucket : tick.bucket < EVENT_DECAY_BUCKETS) :
    Waits items i ((p.returned tick.bucket).sorted tick.bucket d.toNat) d
      (Decay.endCheck s tick) := by
  have hslot : slot tick.bucket = ⟨tick.bucket, hbucket⟩ := Fin.ext (Nat.mod_eq_of_lt hbucket)
  have hnone : p ≠ .coming := by
    rintro rfl
    exact h.coming_ne_nil hticking hcoming
  have hkept := h.count .kept
  rw [Place.list, hticking] at hkept
  change tick.kept.count i = _ at hkept
  have hback : Waits items i (p.returned tick.bucket) d
      { s with
        ticking := none
        lastBucket := tick.bucket
        decayItems := Function.update s.decayItems tick.bucket
          (tick.kept ++ s.decayItems tick.bucket) } := by
    apply h.of_count
    · rfl
    · exact ⟨_, rfl⟩
    intro q
    cases q with
    | started =>
        refine (h.count .started).trans ?_
        cases p <;> simp [Place.returned]
    | bucket b =>
        have hb := h.count (.bucket b)
        change (s.decayItems b).count i = _ at hb
        change (Function.update s.decayItems tick.bucket _ b).count i = _
        by_cases hbt : b = slot tick.bucket
        · subst hbt
          rw [hslot] at hb ⊢
          rw [Function.update_self, List.count_append, hkept, hb]
          cases p <;> simp [Place.returned, hslot]
        · have hne : (b : Nat) ≠ tick.bucket := fun heq => hbt (by rw [hslot]; exact Fin.ext heq)
          rw [Function.update_of_ne hne, hb]
          cases p <;> simp [Place.returned, hbt]
    | coming => cases p <;> simp_all [Place.returned, Place.list]
    | kept => cases p <;> simp [Place.returned, Place.list]
  exact hback.cleanup hbucket

end Places

/-! ### A round of the loop -/

section Rounds

variable {items : Items} {i : Ref} {p : Place} {d : BitVec 32} {s s' : State} {item : Item}
  {tick : Tick} {coming : List Ref}

theorem toInt_of_lt (h : d.toNat < 2147483648) : d.toInt = d.toNat :=
  BitVec.toInt_eq_toNat_of_lt (by omega)

theorem toInt_neg (h : 2147483648 ≤ d.toNat) : d.toInt < 0 := by
  have hlt := d.isLt
  rw [BitVec.toInt_eq_toNat_cond, if_neg (by omega)]
  omega

theorem decreaseTime_of_lt (h : d.toNat < 2147483648) :
    decreaseTime d = (min 1000 d.toNat : Nat) := by
  rw [decreaseTime, toInt_of_lt h, EVENT_DECAYINTERVAL, EVENT_DECAY_BUCKETS]
  omega

/-- What is left of the duration when a round is over. -/
theorem toNat_decreased (hlow : 1000 ≤ d.toNat) (hhigh : d.toNat < 2147483648) :
    (d - BitVec.ofInt 32 (decreaseTime d)).toNat = d.toNat - 1000 := by
  have hdecrease : BitVec.ofInt 32 (decreaseTime d) = 1000#32 := by
    rw [decreaseTime_of_lt hhigh, Nat.min_eq_left hlow]
    rfl
  rw [hdecrease, BitVec.toNat_sub_of_le]
  · rfl
  · rw [BitVec.le_def]
    exact hlow

/-- A round by what is left of the duration. -/
def turnOf (bucket : Nat) (duration : Int) : Turn :=
  if duration ≤ 0 then .decay
  else if duration < 1000 then
    if (bucket + (duration.toNat + 125) / 1000) % 4 = bucket then .decay
    else .move ((bucket + (duration.toNat + 125) / 1000) % 4)
  else .keep

theorem turn_eq (hcan : item.canDecay items = true) (bucket : Nat) : turn items item bucket =
    turnOf bucket (item.getDuration.toInt - decreaseTime item.getDuration) := by
  rw [turn, hcan]
  rfl

theorem left_of_lt (h : d.toNat < 2147483648) :
    d.toInt - decreaseTime d = (d.toNat - 1000 : Nat) := by
  rw [decreaseTime_of_lt h, toInt_of_lt h]
  omega

theorem left_of_ge (h : 2147483648 ≤ d.toNat) : d.toInt - decreaseTime d = 0 := by
  have hneg := toInt_neg h
  rw [decreaseTime, EVENT_DECAYINTERVAL, EVENT_DECAY_BUCKETS]
  omega

/-- The time is up with less than 875 milliseconds after a turn of the wheel. -/
theorem turn_decay (hcan : item.canDecay items = true) (bucket : Nat) (hbucket : bucket < 4)
    (h : item.getDuration.toNat < 1875 ∨ 2147483648 ≤ item.getDuration.toNat) :
    turn items item bucket = .decay := by
  rw [turn_eq hcan, turnOf]
  by_cases hhigh : 2147483648 ≤ item.getDuration.toNat
  · rw [left_of_ge hhigh, if_pos (Int.le_refl 0)]
  · rw [left_of_lt (Nat.lt_of_not_ge hhigh)]
    by_cases hzero : ((item.getDuration.toNat - 1000 : Nat) : Int) ≤ 0
    · rw [if_pos hzero]
    · have hsame : (bucket + (((item.getDuration.toNat - 1000 : Nat) : Int).toNat + 125) / 1000) % 4 =
          bucket := by omega
      rw [if_neg hzero, if_pos (by omega), if_pos hsame]

theorem turn_move (hcan : item.canDecay items = true) (bucket : Nat)
    (hlow : 1875 ≤ item.getDuration.toNat) (hhigh : item.getDuration.toNat < 2000) :
    turn items item bucket = .move ((bucket + 1) % 4) := by
  have hone : (((item.getDuration.toNat - 1000 : Nat) : Int).toNat + 125) / 1000 = 1 := by omega
  rw [turn_eq hcan, turnOf, left_of_lt (by omega), if_neg (by omega), if_pos (by omega), hone,
    if_neg (by omega)]

theorem turn_keep (hcan : item.canDecay items = true) (bucket : Nat)
    (hlow : 2000 ≤ item.getDuration.toNat) (hhigh : item.getDuration.toNat < 2147483648) :
    turn items item bucket = .keep := by
  rw [turn_eq hcan, turnOf, left_of_lt hhigh, if_neg (by omega), if_neg (by omega)]

/-- The item that is looked at was to come, and is in no list any more. -/
theorem Waits.taken (h : Waits items i p d s) (hticking : s.ticking = some tick)
    (hcoming : tick.coming = i :: coming) :
    p = .coming ∧ ∀ q : Place, (q.list (takeNext s tick i coming)).count i = 0 := by
  have hcount := h.count .coming
  rw [Place.list, hticking] at hcount
  change tick.coming.count i = _ at hcount
  rw [hcoming, List.count_cons_self] at hcount
  have hp : p = .coming := by
    by_contra hne
    rw [if_neg (Ne.symm hne)] at hcount
    omega
  subst hp
  refine ⟨rfl, fun q => ?_⟩
  have hq := h.count q
  cases q with
  | started => exact hq
  | bucket b => exact hq
  | coming =>
      rw [if_pos rfl] at hcount
      exact Nat.succ.inj hcount
  | kept =>
      rw [Place.list, hticking] at hq
      exact hq

/-- Where the item is put after its duration was decreased. -/
theorem Waits.putBack (h : Waits items i p d s) (hnext : s'.next = s.next)
    (hitem : s'.item i = { s.item i with
      duration := some ((s.item i).getDuration -
        BitVec.ofInt 32 (decreaseTime (s.item i).getDuration)) }) {p' : Place}
    (hcount : ∀ q : Place, (q.list s').count i = if q = p' then 1 else 0) :
    Waits items i p' (d - BitVec.ofInt 32 (decreaseTime d)) s' := by
  refine ⟨hnext ▸ h.lives, ?_, ?_, ?_, hcount⟩
  · rw [hitem]
    exact h.canDecay
  · rw [hitem]
    exact h.decaying
  · rw [hitem, ← h.duration]
    rfl

/-- A round that leaves the item waiting: two seconds or more stay in the bucket, from 1875
milliseconds on the item moves to the next one. -/
theorem Waits.checkSelf {answers : Nat → Answers} {fuel : Nat} (h : Waits items i p d s)
    (hticking : s.ticking = some tick) (hcoming : tick.coming = i :: coming)
    (hbucket : tick.bucket < 4) (hturn : turn items (s.item i) tick.bucket ≠ .decay)
    (heq : Decay.checkItem items answers fuel s tick i coming = some s') :
    ∃ p' d', Waits items i p' d' s' ∧ d'.toNat = d.toNat - 1000 ∧ d.toNat < 2147483648 ∧
      (2000 ≤ d.toNat ∧ p' = .kept ∨
        1875 ≤ d.toNat ∧ d.toNat < 2000 ∧ p' = .bucket (slot (tick.bucket + 1))) := by
  obtain ⟨-, htaken⟩ := h.taken hticking hcoming
  have hdur := h.duration
  have hrange : 1875 ≤ d.toNat ∧ d.toNat < 2147483648 := by
    by_contra hout
    exact hturn (turn_decay h.canDecay _ hbucket (by rw [hdur]; omega))
  have hdecreased := toNat_decreased (by omega : 1000 ≤ d.toNat) hrange.2
  unfold Decay.checkItem at heq
  by_cases hfar : 2000 ≤ d.toNat
  · rw [turn_keep h.canDecay _ (by rw [hdur]; exact hfar) (by rw [hdur]; exact hrange.2)] at heq
    obtain rfl := Option.some.inj heq
    refine ⟨.kept, _, ?_, hdecreased, hrange.2, .inl ⟨hfar, rfl⟩⟩
    apply h.putBack
    · rfl
    · exact Function.update_self ..
    intro q
    have hq := htaken q
    cases q with
    | started => exact hq
    | bucket b => exact hq
    | coming => exact hq
    | kept =>
        change (tick.kept ++ [i]).count i = 1
        rw [List.count_append, List.count_singleton_self]
        exact Nat.succ.inj (congrArg Nat.succ (Nat.add_eq_right.mpr hq))
  · rw [turn_move h.canDecay _ (by rw [hdur]; exact hrange.1) (by rw [hdur]; omega)] at heq
    obtain rfl := Option.some.inj heq
    refine ⟨.bucket (slot (tick.bucket + 1)), _, ?_, hdecreased, hrange.2,
      .inr ⟨hrange.1, by omega, rfl⟩⟩
    apply h.putBack
    · rfl
    · exact Function.update_self ..
    intro q
    have hpushed := count_pushBack (i := i) (takeNext s tick i coming) (slot (tick.bucket + 1)) i q
    rw [htaken, List.count_singleton_self, Nat.zero_add] at hpushed
    exact hpushed

end Rounds

/-! ### Events -/

/-- The loop of a tick comes to the item, and its time is up. -/
def Decays (items : Items) (s : State) (i : Ref) : Prop :=
  ∃ tick coming, s.ticking = some tick ∧ tick.coming = i :: coming ∧
    turn items (s.item i) tick.bucket = .decay

/-- What happens to others, or comes with the ticks while the time of the item is not up. -/
def LeftAlone (items : Items) (s : State) (i : Ref) : Event → Prop
  | .edit j _ _ _ _ _ _ => j ≠ i
  | .takeOff j => j ≠ i
  | .place j => j ≠ i
  | .setID j _ => j ≠ i
  | .transform _ j _ _ => j ≠ i
  | .remove _ j => j ≠ i
  | .checkItem _ _ => ¬Decays items s i
  | _ => True

/-- How an event moves an item that is left alone. -/
inductive Passes (s : State) : Event → Place → BitVec 32 → Place → BitVec 32 → Prop
  | spared (event : Event) (p : Place) (d : BitVec 32) (hcheck : event ≠ .checkDecay)
      (hclean : event ≠ .cleanup) (hend : event ≠ .endCheck) : Passes s event p d p d
  | checkDecay (p : Place) (d : BitVec 32) (hnone : s.ticking = none) :
      Passes s .checkDecay p d (p.looked s.lastBucket) d
  | cleanup (p : Place) (d : BitVec 32) (hnone : s.ticking = none) :
      Passes s .cleanup p d (p.sorted s.lastBucket d.toNat) d
  | endCheck (p : Place) (d : BitVec 32) {tick : Tick} (hticking : s.ticking = some tick)
      (hcoming : tick.coming = []) :
      Passes s .endCheck p d ((p.returned tick.bucket).sorted tick.bucket d.toNat) d
  | checkItem (answers : Nat → Answers) (fuel : Nat) {d d' : BitVec 32} {p' : Place} {tick : Tick}
      (hticking : s.ticking = some tick) (hleft : d'.toNat = d.toNat - 1000)
      (hlt : d.toNat < 2147483648)
      (hround : 2000 ≤ d.toNat ∧ p' = .kept ∨
        1875 ≤ d.toNat ∧ d.toNat < 2000 ∧ p' = .bucket (slot (tick.bucket + 1))) :
      Passes s (.checkItem answers fuel) .coming d p' d'

section Events

variable {items : Items} {i : Ref} {p : Place} {d : BitVec 32} {s s' : State} {event : Event}

theorem Waits.passes_spared (h : Waits items i p d s) (hspared : Spared i s s')
    (hcheck : event ≠ .checkDecay) (hclean : event ≠ .cleanup) (hend : event ≠ .endCheck) :
    ∃ p' d', Waits items i p' d' s' ∧ Passes s event p d p' d' :=
  ⟨p, d, h.spared hspared, .spared event p d hcheck hclean hend⟩

theorem Spared.hold (s : State) (j : Ref) : Spared i s (s.hold j) := by
  by_cases hj : j = i
  · refine ⟨Nat.le_refl _, ⟨(s.item i).referenceCounter + 1, ?_⟩, fun q => ?_⟩
    · rw [← hj]
      exact Function.update_self ..
    · exact congrArg (List.count i) (Place.list_congr rfl rfl rfl q)
  · exact .of_item (Function.update_of_ne (Ne.symm hj) ..) (Nat.le_refl _)
      (Place.list_congr rfl rfl rfl)

/-- An item that decays does not start again. -/
theorem Waits.startDecay_self {answers : Nat → Answers} {fuel : Nat} (h : Waits items i p d s)
    (heq : startDecay items answers fuel s (some i) = some s') : s' = s := by
  cases fuel with
  | zero => cases heq
  | succ fuel =>
      rw [Decay.startDecay, h.canDecay, if_neg (by decide), if_pos h.decaying] at heq
      exact (Option.some.inj heq).symm

/-- An item that waits goes from place to place, and does nothing else. -/
theorem Waits.perform (h : Waits items i p d s) (halone : LeftAlone items s i event)
    (hlast : s.ticking = none → s.lastBucket < EVENT_DECAY_BUCKETS)
    (hbucket : ∀ tick, s.ticking = some tick → tick.bucket < EVENT_DECAY_BUCKETS)
    (heq : perform items s event = some s') :
    ∃ p' d', Waits items i p' d' s' ∧ Passes s event p d p' d' := by
  cases event with
  | create type count =>
      obtain ⟨new, -, rfl⟩ := Option.map_eq_some_iff.1 heq
      exact h.passes_spared (.allocate h.lives new) (by simp) (by simp) (by simp)
  | load type count duration =>
      obtain ⟨new, -, rfl⟩ := Option.map_eq_some_iff.1 heq
      exact h.passes_spared (.allocate h.lives _) (by simp) (by simp) (by simp)
  | edit j duration hasUniqueId hasCharges subType canTransform parentRemoved =>
      obtain rfl := Option.some.inj heq
      exact h.passes_spared (.updateItem halone _) (by simp) (by simp) (by simp)
  | hold j =>
      obtain ⟨-, heq⟩ := Option.ite_none_right_eq_some.1 heq
      obtain rfl := Option.some.inj heq
      exact h.passes_spared (.hold s j) (by simp) (by simp) (by simp)
  | letGo j =>
      obtain ⟨-, heq⟩ := Option.ite_none_right_eq_some.1 heq
      obtain rfl := Option.some.inj heq
      exact h.passes_spared (.releaseHeld s j) (by simp) (by simp) (by simp)
  | takeOff j =>
      obtain rfl := Option.some.inj heq
      exact h.passes_spared (.updateItem halone _) (by simp) (by simp) (by simp)
  | place j =>
      obtain ⟨-, heq⟩ := Option.ite_none_right_eq_some.1 heq
      obtain rfl := Option.some.inj heq
      exact h.passes_spared (.updateItem halone _) (by simp) (by simp) (by simp)
  | startDecay answers fuel j =>
      by_cases hj : j = i
      · subst hj
        obtain rfl := h.startDecay_self heq
        exact h.passes_spared (.refl j s') (by simp) (by simp) (by simp)
      · have hne : some j ≠ some i := fun hji => hj (Option.some.inj hji)
        exact h.passes_spared (.startDecay h.lives hne heq) (by simp) (by simp) (by simp)
  | cleanup =>
      obtain ⟨hnone, heq⟩ := Option.ite_none_right_eq_some.1 heq
      obtain rfl := Option.some.inj heq
      have hnone := Option.isNone_iff_eq_none.1 hnone
      exact ⟨_, _, h.cleanup (hlast hnone), .cleanup p d hnone⟩
  | setID j newid =>
      obtain ⟨-, heq⟩ := Option.ite_none_right_eq_some.1 heq
      obtain rfl := Option.some.inj heq
      exact h.passes_spared (.updateItem halone _) (by simp) (by simp) (by simp)
  | transform ans j newId newCount =>
      obtain rfl := Option.some.inj heq
      exact h.passes_spared (.transformItem h.lives halone ans newId newCount) (by simp) (by simp)
        (by simp)
  | remove ans j =>
      obtain rfl := Option.some.inj heq
      exact h.passes_spared (.internalRemoveItem halone ans) (by simp) (by simp) (by simp)
  | checkDecay =>
      obtain ⟨hnone, heq⟩ := Option.ite_none_right_eq_some.1 heq
      obtain rfl := Option.some.inj heq
      have hnone := Option.isNone_iff_eq_none.1 hnone
      exact ⟨_, _, h.checkDecay hnone, .checkDecay p d hnone⟩
  | checkItem answers fuel =>
      change checkNext items answers fuel s = some s' at heq
      unfold checkNext at heq
      split at heq
      · rename_i bucket kept j coming hticking
        by_cases hj : j = i
        · subst hj
          have hturn : turn items (s.item j) bucket ≠ .decay :=
            fun hturn => halone ⟨_, coming, hticking, rfl, hturn⟩
          obtain ⟨rfl, -⟩ := h.taken hticking rfl
          obtain ⟨p', d', hwaits, hleft, hlt, hround⟩ :=
            h.checkSelf hticking rfl (hbucket _ hticking) hturn heq
          exact ⟨p', d', hwaits, .checkItem answers fuel hticking hleft hlt hround⟩
        · exact h.passes_spared (.checkItem h.lives hj hticking rfl heq) (by simp) (by simp)
            (by simp)
      · cases heq
  | endCheck =>
      change endTick s = some s' at heq
      unfold endTick at heq
      split at heq
      · rename_i bucket kept hticking
        obtain rfl := Option.some.inj heq
        exact ⟨_, _, h.endCheck hticking rfl (hbucket _ hticking), .endCheck p d hticking rfl⟩
      · cases heq

end Events

/-! ### The wheel -/

/-- The bucket that is looked through, and the last one that was. -/
def State.wheel (s : State) : Option Nat × Nat := (s.ticking.map (·.bucket), s.lastBucket)

section Wheel

variable {items : Items} {i : Ref} {s s' : State} {event : Event}

theorem wheel_internalRemoveItem (ans : Answers) (s : State) (i : Ref) :
    (internalRemoveItem ans s i).wheel = s.wheel := by
  unfold Decay.internalRemoveItem
  split_ifs <;> rfl

theorem wheel_apply (ans : Answers) (s : State) (i : Ref) (c : Change) :
    (apply items ans s i c).1.wheel = s.wheel := by
  cases c with
  | returned => rfl
  | null => rfl
  | removed => exact wheel_internalRemoveItem ans s i
  | readded newId newCount =>
      unfold Decay.apply
      dsimp only
      split_ifs <;> rfl
  | updated itemId count defaultSubtype => rfl
  | replaced newId newCount =>
      unfold Decay.apply
      dsimp only
      split <;> rfl

theorem wheel_internalDecayItem {start : State → Option Ref → Option State} {ans : Answers}
    (hstart : ∀ t o t', start t o = some t' → t'.wheel = t.wheel)
    (heq : internalDecayItem items start ans s i = some s') : s'.wheel = s.wheel := by
  unfold Decay.internalDecayItem at heq
  by_cases hto : (items.type (s.item i).id).decayTo ≠ 0
  · simp only [if_pos hto] at heq
    exact (hstart _ _ _ heq).trans (wheel_apply ans s i _)
  · simp only [if_neg hto] at heq
    exact Option.some.inj heq ▸ wheel_internalRemoveItem ans s i

theorem wheel_startDecay {answers : Nat → Answers} {fuel : Nat} {o : Option Ref}
    (heq : startDecay items answers fuel s o = some s') : s'.wheel = s.wheel := by
  induction fuel generalizing s s' o with
  | zero => cases heq
  | succ fuel ih =>
      cases o with
      | none => exact Option.some.inj heq ▸ rfl
      | some j =>
          unfold Decay.startDecay at heq
          split_ifs at heq
          · exact Option.some.inj heq ▸ rfl
          · exact Option.some.inj heq ▸ rfl
          · exact Option.some.inj heq ▸ rfl
          · exact wheel_internalDecayItem (fun _ _ _ hs => ih hs) heq

theorem wheel_checkItem {answers : Nat → Answers} {fuel : Nat} {tick : Tick} {coming : List Ref}
    (hticking : s.ticking = some tick)
    (heq : checkItem items answers fuel s tick i coming = some s') : s'.wheel = s.wheel := by
  have htick (tick' : Tick) (hbucket : tick'.bucket = tick.bucket) :
      (some tick'.bucket, s.lastBucket) = s.wheel := by
    rw [State.wheel, hticking, hbucket]
    rfl
  unfold Decay.checkItem at heq
  split at heq
  · exact Option.some.inj heq ▸ htick { tick with coming } rfl
  · exact Option.some.inj heq ▸ htick { tick with kept := tick.kept ++ [i], coming } rfl
  · exact Option.some.inj heq ▸ htick { tick with coming } rfl
  · obtain ⟨t, ht, rfl⟩ := Option.map_eq_some_iff.1 heq
    have hdecayed : t.wheel = (takeNext s tick i coming).wheel :=
      wheel_internalDecayItem (fun _ _ _ hs => wheel_startDecay hs) ht
    exact hdecayed.trans (htick { tick with coming } rfl)

theorem wheel_foldl_sortIn (list : List Ref) : (list.foldl sortIn s).wheel = s.wheel := by
  induction list generalizing s with
  | nil => rfl
  | cons i list ih =>
      refine ih.trans ?_
      unfold sortIn
      dsimp only
      split_ifs <;> rfl

theorem wheel_cleanup (s : State) : (cleanup s).wheel = s.wheel := by
  refine Eq.trans ?_ (wheel_foldl_sortIn s.toDecayItems)
  rfl

/-- The wheel turns with the ticks, at the end of which the bucket that was looked through is the
last one. -/
theorem wheel_perform (heq : perform items s event = some s') :
    event = .checkDecay ∧ s.ticking = none ∧
        s'.wheel = (some ((s.lastBucket + 1) % EVENT_DECAY_BUCKETS), s.lastBucket) ∨
      event = .endCheck ∧ (∃ tick, s.ticking = some tick ∧ s'.wheel = (none, tick.bucket)) ∨
      event ≠ .checkDecay ∧ s'.wheel = s.wheel := by
  cases event with
  | create type count =>
      obtain ⟨new, -, rfl⟩ := Option.map_eq_some_iff.1 heq
      exact .inr (.inr ⟨by simp, rfl⟩)
  | load type count duration =>
      obtain ⟨new, -, rfl⟩ := Option.map_eq_some_iff.1 heq
      exact .inr (.inr ⟨by simp, rfl⟩)
  | edit j duration hasUniqueId hasCharges subType canTransform parentRemoved =>
      exact .inr (.inr ⟨by simp, Option.some.inj heq ▸ rfl⟩)
  | hold j =>
      obtain ⟨-, heq⟩ := Option.ite_none_right_eq_some.1 heq
      exact .inr (.inr ⟨by simp, Option.some.inj heq ▸ rfl⟩)
  | letGo j =>
      obtain ⟨-, heq⟩ := Option.ite_none_right_eq_some.1 heq
      exact .inr (.inr ⟨by simp, Option.some.inj heq ▸ rfl⟩)
  | takeOff j => exact .inr (.inr ⟨by simp, Option.some.inj heq ▸ rfl⟩)
  | place j =>
      obtain ⟨-, heq⟩ := Option.ite_none_right_eq_some.1 heq
      exact .inr (.inr ⟨by simp, Option.some.inj heq ▸ rfl⟩)
  | startDecay answers fuel j => exact .inr (.inr ⟨by simp, wheel_startDecay heq⟩)
  | cleanup =>
      obtain ⟨-, heq⟩ := Option.ite_none_right_eq_some.1 heq
      exact .inr (.inr ⟨by simp, Option.some.inj heq ▸ wheel_cleanup s⟩)
  | setID j newid =>
      obtain ⟨-, heq⟩ := Option.ite_none_right_eq_some.1 heq
      exact .inr (.inr ⟨by simp, Option.some.inj heq ▸ rfl⟩)
  | transform ans j newId newCount =>
      exact .inr (.inr ⟨by simp, Option.some.inj heq ▸ wheel_apply ans s j _⟩)
  | remove ans j =>
      exact .inr (.inr ⟨by simp, Option.some.inj heq ▸ wheel_internalRemoveItem ans s j⟩)
  | checkDecay =>
      obtain ⟨hnone, heq⟩ := Option.ite_none_right_eq_some.1 heq
      exact .inl ⟨rfl, Option.isNone_iff_eq_none.1 hnone, Option.some.inj heq ▸ rfl⟩
  | checkItem answers fuel =>
      change checkNext items answers fuel s = some s' at heq
      unfold checkNext at heq
      split at heq
      · rename_i bucket kept j coming hticking
        exact .inr (.inr ⟨by simp, wheel_checkItem hticking heq⟩)
      · cases heq
  | endCheck =>
      change endTick s = some s' at heq
      unfold endTick at heq
      split at heq
      · rename_i bucket kept hticking
        exact .inr (.inl ⟨rfl, _, hticking, Option.some.inj heq ▸ wheel_cleanup _⟩)
      · cases heq

end Wheel

end TibServer.Decay
