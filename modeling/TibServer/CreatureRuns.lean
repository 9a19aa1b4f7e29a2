import TibServer.CreatureLifetimes

/-!
The operations on creatures keep the counters right, and so does every run of them: whoever has a
pointer finds a creature in memory, and a creature that was placed stays there exactly as long as
something refers to it.
-/

namespace TibServer.CreatureReferences

open Game

variable {g g' g'' : Game} {jobs jobs' : List Job} {c d m s : CreatureId} {x y z : Creature}

/-! ### What an operation leaves alone -/

namespace Game

/-- What the heartbeat goes by. -/
def heart (g : Game) :
    (Fin EVENT_CREATURECOUNT → List CreatureId) × Option ℕ × ℕ × List (CreatureId × ℕ) :=
  (g.checkCreatureLists, g.iterator, g.passes, g.thoughts)

theorem checks_eq (h : g'.heart = g.heart) (d : CreatureId) : g'.checks d = g.checks d := by
  have lists := congrArg Prod.fst h
  exact congrArg (fun l : Fin EVENT_CREATURECOUNT → List CreatureId => ∑ i, (l i).count d) lists

end Game

/-- Creatures only go, summons only leave their masters, and what is removed stays so. -/
structure Wanes (g g' : Game) : Prop where
  allocated : g'.allocated = g.allocated
  heart : g'.heart = g.heart
  releases : g.ToReleaseCreatures ⊆ g'.ToReleaseCreatures
  older : ∀ c z, g'.creatures c = some z → ∃ x, g.creatures c = some x ∧ z.placed = x.placed ∧
    z.summons.length ≤ x.summons.length ∧
    (x.isInternalRemoved = true → z.isInternalRemoved = true)

theorem Wanes.trans (h : Wanes g g') (h' : Wanes g' g'') : Wanes g g'' := by
  refine ⟨h'.allocated.trans h.allocated, h'.heart.trans h.heart,
    fun c mem => h'.releases (h.releases mem), ?_⟩
  intro c z hz
  obtain ⟨y, hy, placed', summons', removed'⟩ := h'.older c z hz
  obtain ⟨x, hx, placed, summons, removed⟩ := h.older c y hy
  exact ⟨x, hx, placed'.trans placed, summons'.trans summons, fun rx => removed' (removed rx)⟩

/-- And what stands on the map stays there. -/
structure Yields (g g' : Game) : Prop extends Wanes g g' where
  stays : ∀ c x, g.creatures c = some x → x.onMap = true →
    ∃ z, g'.creatures c = some z ∧ z.onMap = true

namespace Yields

theorem refl (g : Game) : Yields g g :=
  ⟨⟨rfl, rfl, List.Subset.refl _, fun _ z hz => ⟨z, hz, rfl, le_rfl, id⟩⟩,
    fun _ x hx map => ⟨x, hx, map⟩⟩

theorem trans (h : Yields g g') (h' : Yields g' g'') : Yields g g'' := by
  refine ⟨h.toWanes.trans h'.toWanes, ?_⟩
  intro c x hx map
  obtain ⟨y, hy, map'⟩ := h.stays c x hx map
  exact h'.stays c y hy map'

theorem set (hx : g.creatures c = some x) (placed : z.placed = x.placed)
    (removed : z.isInternalRemoved = x.isInternalRemoved)
    (summons : z.summons.length ≤ x.summons.length) : Yields g (g.set c z) := by
  refine ⟨⟨rfl, rfl, List.Subset.refl _, ?_⟩, ?_⟩
  · intro d w hw
    by_cases eq : d = c
    · subst eq
      rw [creatures_set_self] at hw
      obtain rfl := Option.some.inj hw
      exact ⟨x, hx, placed, summons, fun rx => removed.trans rx⟩
    · rw [creatures_set_ne g z eq] at hw
      exact ⟨w, hw, rfl, le_rfl, id⟩
  · intro d w hw map
    by_cases eq : d = c
    · subst eq
      obtain rfl := Option.some.inj (hx.symm.trans hw)
      refine ⟨z, creatures_set_self .., ?_⟩
      rw [Creature.onMap, placed, removed]
      exact map
    · exact ⟨w, (creatures_set_ne g z eq).trans hw, map⟩

end Yields

namespace Settles

theorem yields (h : Settles g g') : Yields g g' := by
  have rest := h.rest
  refine ⟨⟨?_, ?_, ?_, ?_⟩, ?_⟩
  · rw [rest]
  · rw [rest]
    rfl
  · rw [rest]
    exact List.Subset.refl _
  · intro c z hz
    obtain ⟨x, hx, eq⟩ := h.kin c z hz
    refine ⟨x, hx, ?_⟩
    rw [eq]
    exact ⟨rfl, le_rfl, id⟩
  · intro c x hx map
    obtain ⟨z, hz⟩ := h.stays c x hx map
    obtain ⟨y, hy, eq⟩ := h.kin c z hz
    obtain rfl := Option.some.inj (hx.symm.trans hy)
    refine ⟨z, hz, ?_⟩
    rw [eq]
    exact map

end Settles

/-! ### Steps under way -/

namespace Orderly

theorem alive (h : Orderly g jobs) (known : g.Known c) : ∃ x, g.creatures c = some x := by
  cases hx : g.creatures c with
  | some x => exact ⟨x, rfl⟩
  | none =>
      exfalso
      rcases known with fresh | referred
      · rw [Fresh, hx] at fresh
        cases fresh
      · have gone := h.counted.gone c hx
        rw [Referred, owners, hx, Option.elim_none] at referred
        omega

/-- One creature changes, but not its summons or its master. -/
theorem rewrite (h : Orderly g jobs) (hx : g.creatures c = some x)
    (summons : z.summons = x.summons) (master : z.master = x.master)
    (placed : x.placed = true → z.placed = true)
    (removed : z.isInternalRemoved = x.isInternalRemoved)
    (counted : Counted (g.set c z) jobs')
    (masters : Mastered g.summonsOf g.masterOf jobs → Mastered g.summonsOf g.masterOf jobs') :
    Orderly (g.set c z) jobs' := by
  refine ⟨counted, ?_, ?_⟩
  · rw [summonsOf_set, masterOf_set, summons, master, ← summonsOf_eq hx, ← masterOf_eq hx,
      Function.update_eq_self, Function.update_eq_self]
    exact masters h.mastered
  · apply h.standing_set
    rw [master, removed]
    exact fun of => placed (h.standing c x hx of)

/-- A new reference is the caller's, to be kept somewhere. -/
theorem increment (h : Orderly g jobs) (hx : g.creatures c = some x) :
    incrementReferenceCounter c g =
        some (g.set c { x with referenceCounter := x.referenceCounter + 1 }) ∧
      Orderly (g.set c { x with referenceCounter := x.referenceCounter + 1 })
        (.decrement c :: jobs) := by
  refine ⟨?_, ?_⟩
  · simp only [incrementReferenceCounter, hx, Option.bind_eq_bind, Option.bind_some]
  · apply h.rewrite (z := { x with referenceCounter := x.referenceCounter + 1 }) hx rfl rfl id
      rfl
    · apply h.counted.set (z := { x with referenceCounter := x.referenceCounter + 1 }) hx rfl rfl
        rfl
      · have same : own { x with referenceCounter := x.referenceCounter + 1 } = own x := rfl
        rw [pending_decrement_self, same]
        dsimp only
        omega
      · exact fun _ => Nat.succ_pos _
      · exact fun d ne => pending_decrement_ne ne
    · exact fun masters => masters.decrement c

theorem transfer (h : Orderly g jobs) (creatures : g'.creatures = g.creatures)
    (allocated : g'.allocated = g.allocated) (checks : ∀ d, g'.checks d = g.checks d)
    (balance : ∀ d, g'.others d + pending jobs' d = g.others d + pending jobs d)
    (masters : Mastered g.summonsOf g.masterOf jobs → Mastered g.summonsOf g.masterOf jobs') :
    Orderly g' jobs' := by
  have summonsOf : g'.summonsOf = g.summonsOf := by
    ext1 m
    rw [Game.summonsOf, creatures]
    rfl
  have masterOf : g'.masterOf = g.masterOf := by
    ext1 m
    rw [Game.masterOf, creatures]
    rfl
  refine ⟨h.counted.transfer creatures allocated checks balance, ?_, ?_⟩
  · rw [summonsOf, masterOf]
    exact masters h.mastered
  · rw [creatures]
    exact h.standing

/-- The caller's reference goes to the vector. -/
theorem release (h : Orderly g (.decrement c :: jobs)) : Orderly (g.ReleaseCreature c) jobs := by
  refine h.transfer rfl rfl (fun _ => rfl) ?_ Mastered.of_decrement
  intro d
  have others : (g.ReleaseCreature c).others d = g.others d + [c].count d := by
    have releases : (g.ReleaseCreature c).ToReleaseCreatures = g.ToReleaseCreatures ++ [c] := rfl
    have linked : (g.ReleaseCreature c).linked d = g.linked d := rfl
    have checks : (g.ReleaseCreature c).checks d = g.checks d := rfl
    have holders : (g.ReleaseCreature c).holders = g.holders := rfl
    unfold Game.others
    rw [releases, linked, checks, holders, List.count_append]
    omega
  rw [others]
  by_cases eq : d = c
  · rw [eq, pending_decrement_self, List.count_singleton_self]
    omega
  · rw [pending_decrement_ne eq, List.count_singleton, if_neg (by simpa using Ne.symm eq)]
    omega

end Orderly

/-! ### The operations -/

/-- An operation has a result, and an orderly one, with the heartbeat as it was. -/
def Fine (g : Game) (result : Option Game) : Prop :=
  ∃ g', result = some g' ∧ Orderly g' [] ∧ g'.heart = g.heart

namespace Orderly

theorem create (h : Orderly g []) : Fine g (some g.create) := by
  have nobody : g.creatures g.allocated = none := by
    cases hx : g.creatures g.allocated with
    | none => rfl
    | some x => exact absurd (h.counted.bound _ x hx) (lt_irrefl _)
  have linked (d : CreatureId) : g.create.linked d = g.linked d := by
    have same : ∀ m ∈ Finset.range g.allocated,
        links d (Function.update g.creatures g.allocated (some {}) m) = links d (g.creatures m) := by
      intro m hm
      rw [Function.update_of_ne (Finset.mem_range.mp hm).ne]
    have sum := Finset.sum_range_succ
      (fun m => links d (Function.update g.creatures g.allocated (some {}) m)) g.allocated
    rw [Finset.sum_congr rfl same, Function.update_self] at sum
    exact sum
  have others (d : CreatureId) : g.create.others d = g.others d := by
    have rest : g.create.others d + g.linked d = g.create.linked d + g.others d := by
      have checks : g.create.checks d = g.checks d := rfl
      have releases : g.create.ToReleaseCreatures = g.ToReleaseCreatures := rfl
      have holders : g.create.holders = g.holders := rfl
      unfold Game.others
      rw [checks, releases, holders]
      omega
    rw [linked] at rest
    omega
  have gone := h.counted.gone _ nobody
  have checks_zero : g.checks g.allocated = 0 := by
    unfold Game.others at gone
    omega
  have older {d : CreatureId} {w : Creature} (hw : g.create.creatures d = some w) :
      d = g.allocated ∧ w = {} ∨ d ≠ g.allocated ∧ g.creatures d = some w := by
    by_cases eq : d = g.allocated
    · refine Or.inl ⟨eq, ?_⟩
      subst eq
      rw [Game.create, creatures_set, Function.update_self] at hw
      exact (Option.some.inj hw).symm
    · refine Or.inr ⟨eq, ?_⟩
      rwa [Game.create, creatures_set, Function.update_of_ne eq] at hw
  refine ⟨g.create, rfl, ⟨⟨?_, ?_, ?_, ?_, ?_⟩, ?_, ?_⟩, rfl⟩
  · intro d w hw
    rcases older hw with ⟨rfl, -⟩ | ⟨-, hw⟩
    · exact Nat.lt_succ_self _
    · exact (h.counted.bound d w hw).trans (Nat.lt_succ_self _)
  · intro d w hw
    rw [others]
    rcases older hw with ⟨rfl, rfl⟩ | ⟨-, hw⟩
    · have unowned : own {} = 0 := rfl
      rw [unowned, Nat.zero_add]
      exact gone.symm
    · exact h.counted.counter d w hw
  · intro d hd
    rw [others]
    by_cases eq : d = g.allocated
    · rw [eq]
      exact gone
    · rw [Game.create, creatures_set, Function.update_of_ne eq] at hd
      exact h.counted.gone d hd
  · intro d w hw placed
    rcases older hw with ⟨rfl, rfl⟩ | ⟨-, hw⟩
    · cases placed
    · exact h.counted.kept d w hw placed
  · intro d w hw
    have checks : g.create.checks d = g.checks d := rfl
    rw [checks]
    rcases older hw with ⟨rfl, rfl⟩ | ⟨-, hw⟩
    · exact checks_zero
    · exact h.counted.listed d w hw
  · have summonsOf : g.create.summonsOf = Function.update g.summonsOf g.allocated [] :=
      summonsOf_set g g.allocated {}
    have masterOf : g.create.masterOf = Function.update g.masterOf g.allocated none :=
      masterOf_set g g.allocated {}
    have no_summons : g.summonsOf g.allocated = [] := by
      rw [Game.summonsOf, nobody, Option.elim_none]
    have no_master : g.masterOf g.allocated = none := by
      rw [Game.masterOf, nobody, Option.bind_none]
    rw [summonsOf, masterOf, ← no_summons, ← no_master, Function.update_eq_self,
      Function.update_eq_self]
    exact h.mastered
  · intro d w hw
    rcases older hw with ⟨rfl, rfl⟩ | ⟨-, hw⟩
    · rintro (of | of) <;> cases of
    · exact h.standing d w hw

theorem discard (h : Orderly g []) (fresh : g.Fresh c) (none : g.owners c = 0) :
    Fine g (g.discard c) := by
  obtain ⟨x, hx⟩ := h.alive (Or.inl fresh)
  rw [owners, hx, Option.elim_some] at none
  have alone : x.master = Option.none := by
    cases hm : x.master with
    | none => rfl
    | some m => simp [own, hm] at none
  have off : x.onMap = false := by
    by_contra on
    rw [Bool.not_eq_false] at on
    simp [own, on] at none
  have left : Orderly (g.free c) (destructor x) := by
    have counted : Counted (g.free c) (destructor x ++ []) := by
      apply h.counted.free hx
      · rw [pending_nil]
        omega
      · exact fun _ _ => rfl
    rw [List.append_nil] at counted
    refine ⟨counted, ?_, ?_⟩
    · have masters := h.mastered.release c
        (x.targetList.map .decrement ++ x.friendList.map .decrement) (by simp)
      rw [List.append_nil, summonsOf_eq hx] at masters
      rw [summonsOf_free, masterOf_free, ← alone, ← masterOf_eq hx, Function.update_eq_self]
      exact masters
    · intro d w hw
      have ne : d ≠ c := by
        rintro rfl
        rw [creatures_free_self] at hw
        cases hw
      rw [creatures_free_ne g ne] at hw
      exact h.standing d w hw
  obtain ⟨g', run, orderly, settles⟩ := left.perform
  refine ⟨g', ?_, orderly, settles.yields.heart⟩
  simp only [Game.discard, hx, Option.bind_eq_bind, Option.bind_some]
  exact run

theorem internalPlaceCreature (h : Orderly g []) (known : g.Known c) :
    Fine g (g.internalPlaceCreature c) := by
  obtain ⟨x, hx⟩ := h.alive known
  by_cases placed : x.placed = true
  · refine ⟨g, ?_, h, rfl⟩
    simp only [Game.internalPlaceCreature, hx, Option.bind_eq_bind, Option.bind_some, placed,
      if_true]
  · rw [Bool.not_eq_true] at placed
    have stood : x.isInternalRemoved = false := by
      by_contra removed
      rw [Bool.not_eq_false] at removed
      rw [h.standing c x hx (Or.inr removed)] at placed
      cases placed
    have more := own_placed x placed stood
    refine ⟨g.set c { x with placed := true, referenceCounter := x.referenceCounter + 1 }, ?_, ?_,
      rfl⟩
    · simp only [Game.internalPlaceCreature, hx, Option.bind_eq_bind, Option.bind_some, placed,
        incrementReferenceCounter, creatures_set, Function.update_self]
      simp only [Game.set, Function.update_idem, Bool.false_eq_true, if_false]
    · apply h.rewrite
        (z := { x with placed := true, referenceCounter := x.referenceCounter + 1 }) hx rfl rfl
        (fun _ => rfl) rfl
      · apply h.counted.set
          (z := { x with placed := true, referenceCounter := x.referenceCounter + 1 }) hx rfl rfl
          rfl
        · have same : own { x with placed := true, referenceCounter := x.referenceCounter + 1 } =
              own { x with placed := true } := rfl
          rw [same]
          dsimp only
          omega
        · exact fun _ => Nat.succ_pos _
        · exact fun _ _ => rfl
      · exact id

theorem postAddNotification (h : Orderly g []) (known : g.Known c) :
    Fine g (g.postAddNotification c) := by
  obtain ⟨x, hx⟩ := h.alive known
  obtain ⟨run, kept⟩ := h.increment hx
  refine ⟨_, ?_, kept.release, rfl⟩
  simp only [Game.postAddNotification, run, Option.bind_eq_bind, Option.bind_some]

theorem removeCreatureCheck (h : Orderly g []) (hx : g.creatures c = some x) :
    ∃ g', g.removeCreatureCheck c = some g' ∧ Orderly g' [] ∧ Yields g g' ∧
      ∃ z, g'.creatures c = some z ∧ z.isInternalRemoved = x.isInternalRemoved := by
  by_cases listed : x.inCheckCreaturesVector = true
  · refine ⟨g.set c { x with creatureCheck := false }, ?_, ?_, Yields.set hx rfl rfl le_rfl,
      _, creatures_set_self .., rfl⟩
    · simp only [Game.removeCreatureCheck, hx, Option.bind_eq_bind, Option.bind_some, listed,
        if_true]
    · apply h.rewrite (z := { x with creatureCheck := false }) hx rfl rfl id rfl
      · apply h.counted.set (z := { x with creatureCheck := false }) hx rfl rfl rfl
        · have same : own { x with creatureCheck := false } = own x := rfl
          rw [same]
        · exact h.counted.kept c x hx
        · exact fun _ _ => rfl
      · exact id
  · refine ⟨g, ?_, h, Yields.refl g, x, hx, rfl⟩
    simp only [Game.removeCreatureCheck, hx, Option.bind_eq_bind, Option.bind_some, listed]
    rfl

/-! ### What runs in a creature that stays -/

theorem stays (h : Orderly g jobs) (hm : g.Stays m) : ∃ y, g.creatures m = some y := by
  rcases hm with map | listed
  · obtain ⟨y, hy, -⟩ := (Option.any_eq_true _ _).mp map
    exact ⟨y, hy⟩
  · apply h.counted.alive
    unfold Game.others
    omega

/-- A monster changes, and gives up references. -/
theorem running (h : Orderly (g.set m z) jobs) (hm : g.Stays m) (hy : g.creatures m = some y)
    (placed : z.placed = y.placed) (removed : z.isInternalRemoved = y.isInternalRemoved)
    (summons : z.summons.length ≤ y.summons.length) :
    ∃ g' w, Game.perform jobs (g.set m z) = some g' ∧ g'.creatures m = some w ∧ Orderly g' [] ∧
      Yields g g' := by
  obtain ⟨g', run, orderly, settles⟩ := h.perform
  have yields := (Yields.set hy placed removed summons).trans settles.yields
  have remains : g'.Stays m := by
    rcases hm with map | listed
    · left
      obtain ⟨y', hy', map⟩ := (Option.any_eq_true _ _).mp map
      obtain ⟨w, hw, map'⟩ := yields.stays m y' hy' map
      rw [hw]
      exact map'
    · right
      rw [checks_eq yields.heart]
      exact listed
  obtain ⟨w, hw⟩ := orderly.stays remains
  exact ⟨g', w, run, hw, orderly, yields⟩

/-- An entry leaves a list of targets or friends. -/
theorem unlist (h : Orderly g []) (hy : g.creatures m = some y) (z : Creature)
    (fields : z = { y with targetList := z.targetList, friendList := z.friendList })
    (balance : ∀ d, links d (some z) + pending jobs d = links d (some y))
    (decrements : ∀ s, .removeMaster s ∉ jobs) : Orderly (g.set m z) jobs := by
  have owned : own z = own y := by
    rw [fields]
    rfl
  have counter : z.referenceCounter = y.referenceCounter := by
    rw [fields]
  apply h.rewrite hy
  · rw [fields]
  · rw [fields]
  · rw [fields]
    exact id
  · rw [fields]
  · apply h.counted.rewrite hy
    · rw [fields]
    · rw [fields]
      exact h.counted.kept m y hy
    · have := balance m
      rw [owned, counter, pending_nil]
      omega
    · intro d _
      rw [balance, pending_nil, Nat.add_zero]
  · exact fun masters => masters.of_nil decrements

/-- Loops of `decrementReferenceCounter`. -/
theorem decrements (l : List CreatureId) (s : CreatureId) :
    .removeMaster s ∉ l.map Job.decrement := by
  simp

theorem removeFriend (h : Orderly g []) (hm : g.Stays m) :
    ∃ g', g.removeFriend m c = some g' ∧ Orderly g' [] ∧ Yields g g' := by
  obtain ⟨y, hy⟩ := h.stays hm
  by_cases mem : c ∈ y.friendList
  · have left : Orderly (g.set m { y with friendList := y.friendList.erase c }) [.decrement c] := by
      apply h.unlist hy _ rfl
      · intro d
        simp only [links]
        by_cases eq : d = c
        · subst eq
          have := List.count_pos_iff.mpr mem
          rw [List.count_erase_self, pending_decrement_self, pending_nil]
          omega
        · rw [List.count_erase_of_ne eq, pending_decrement_ne eq, pending_nil]
          omega
      · exact decrements [c]
    obtain ⟨g', w, run, there, orderly, yields⟩ := left.running hm hy rfl rfl le_rfl
    refine ⟨g', ?_, orderly, yields⟩
    simp only [Game.removeFriend, hy, Option.bind_eq_bind, Option.bind_some, mem, if_true,
      decrementReferenceCounter, run, there]
  · refine ⟨g, ?_, h, Yields.refl g⟩
    simp only [Game.removeFriend, hy, Option.bind_eq_bind, Option.bind_some, mem, if_false]

theorem removeTarget (h : Orderly g []) (hm : g.Stays m) :
    ∃ g', g.removeTarget m c = some g' ∧ Orderly g' [] ∧ Yields g g' := by
  obtain ⟨y, hy⟩ := h.stays hm
  by_cases mem : c ∈ y.targetList
  · have left : Orderly (g.set m { y with targetList := y.targetList.erase c }) [.decrement c] := by
      apply h.unlist hy _ rfl
      · intro d
        simp only [links]
        by_cases eq : d = c
        · subst eq
          have := List.count_pos_iff.mpr mem
          rw [List.count_erase_self, pending_decrement_self, pending_nil]
          omega
        · rw [List.count_erase_of_ne eq, pending_decrement_ne eq, pending_nil]
          omega
      · exact decrements [c]
    obtain ⟨g', w, run, there, orderly, yields⟩ := left.running hm hy rfl rfl le_rfl
    refine ⟨g', ?_, orderly, yields⟩
    simp only [Game.removeTarget, hy, Option.bind_eq_bind, Option.bind_some, mem, if_true,
      decrementReferenceCounter, run, there]
  · refine ⟨g, ?_, h, Yields.refl g⟩
    simp only [Game.removeTarget, hy, Option.bind_eq_bind, Option.bind_some, mem, if_false]

theorem clearTargetList (h : Orderly g []) (hm : g.Stays m) : Fine g (g.clearTargetList m) := by
  obtain ⟨y, hy⟩ := h.stays hm
  have left : Orderly (g.set m { y with targetList := [] }) (y.targetList.map .decrement) := by
    apply h.unlist hy _ rfl
    · intro d
      simp only [links, List.count_nil, pending_map_decrement]
      omega
    · exact decrements y.targetList
  obtain ⟨g', w, run, there, orderly, yields⟩ := left.running hm hy rfl rfl le_rfl
  refine ⟨g', ?_, orderly, yields.heart⟩
  simp only [Game.clearTargetList, hy, Option.bind_eq_bind, Option.bind_some, run, there]

theorem clearFriendList (h : Orderly g []) (hm : g.Stays m) : Fine g (g.clearFriendList m) := by
  obtain ⟨y, hy⟩ := h.stays hm
  have left : Orderly (g.set m { y with friendList := [] }) (y.friendList.map .decrement) := by
    apply h.unlist hy _ rfl
    · intro d
      simp only [links, List.count_nil, pending_map_decrement]
      omega
    · exact decrements y.friendList
  obtain ⟨g', w, run, there, orderly, yields⟩ := left.running hm hy rfl rfl le_rfl
  refine ⟨g', ?_, orderly, yields.heart⟩
  simp only [Game.clearFriendList, hy, Option.bind_eq_bind, Option.bind_some, run, there]

theorem dropSummons (h : Orderly g []) (hm : g.Stays m) : Fine g (g.dropSummons m) := by
  obtain ⟨y, hy⟩ := h.stays hm
  have left : Orderly (g.set m { y with summons := [] }) (y.summons.map .removeMaster) := by
    refine ⟨?_, ?_, ?_⟩
    · apply h.counted.set (z := { y with summons := [] }) hy rfl rfl rfl
      · have same : own { y with summons := [] } = own y := rfl
        rw [same, pending_map_removeMaster, pending_nil]
      · exact h.counted.kept m y hy
      · intro d _
        rw [pending_map_removeMaster, pending_nil]
    · have masters := h.mastered.release m [] (by simp)
      rw [List.nil_append, List.append_nil, summonsOf_eq hy] at masters
      rw [summonsOf_set, masterOf_set]
      simp only
      rw [← masterOf_eq hy, Function.update_eq_self]
      exact masters
    · exact h.standing_set (h.standing m y hy)
  obtain ⟨g', w, run, there, orderly, yields⟩ := left.running hm hy rfl rfl (Nat.zero_le _)
  refine ⟨g', ?_, orderly, yields.heart⟩
  simp only [Game.dropSummons, hy, Option.bind_eq_bind, Option.bind_some, run, there]

/-- An entry comes into a list of targets or friends, with a reference. -/
theorem enlist (h : Orderly g []) (hm : g.Known m) (hc : g.Known c) (entry : Creature → Creature)
    (fields : ∀ y, entry y = { y with
      targetList := (entry y).targetList, friendList := (entry y).friendList })
    (balance : ∀ y d, links d (some (entry y)) = links d (some y) + [c].count d) :
    Fine g ((incrementReferenceCounter c g).bind fun g =>
      (g.creatures m).bind fun y => some (g.set m (entry y))) := by
  obtain ⟨x, hx⟩ := h.alive hc
  obtain ⟨y, hy⟩ := h.alive hm
  obtain ⟨run, kept⟩ := h.increment hx
  obtain ⟨w, hw⟩ : ∃ w,
      (g.set c { x with referenceCounter := x.referenceCounter + 1 }).creatures m = some w := by
    by_cases eq : m = c
    · subst eq
      exact ⟨_, creatures_set_self ..⟩
    · exact ⟨y, (creatures_set_ne g _ eq).trans hy⟩
  have counter : (entry w).referenceCounter = w.referenceCounter := by rw [fields]
  have owned : own (entry w) = own w := by
    rw [fields]
    rfl
  have placed : (entry w).placed = w.placed := by rw [fields]
  refine ⟨(g.set c { x with referenceCounter := x.referenceCounter + 1 }).set m (entry w), ?_, ?_,
    rfl⟩
  · rw [run, Option.bind_some, hw, Option.bind_some]
  · apply kept.rewrite hw
    · rw [fields]
    · rw [fields]
    · rw [placed]
      exact id
    · rw [fields]
    · apply kept.counted.rewrite hw
      · rw [fields]
      · rw [placed, counter]
        exact kept.counted.kept m w hw
      · have entries := balance w m
        rw [counter, owned, entries]
        by_cases eq : m = c
        · rw [eq, pending_decrement_self, pending_nil, List.count_singleton_self]
          omega
        · rw [pending_decrement_ne eq, pending_nil, List.count_singleton,
            if_neg (by simpa using Ne.symm eq)]
          omega
      · intro d _
        rw [balance]
        by_cases eq : d = c
        · rw [eq, pending_decrement_self, pending_nil, List.count_singleton_self]
        · rw [pending_decrement_ne eq, pending_nil, List.count_singleton,
            if_neg (by simpa using Ne.symm eq)]
    · exact Mastered.of_decrement

theorem addFriend (h : Orderly g []) (hm : g.Known m) (hc : g.Known c) :
    Fine g (g.addFriend m c) := by
  obtain ⟨y, hy⟩ := h.alive hm
  by_cases mem : c ∈ y.friendList
  · refine ⟨g, ?_, h, rfl⟩
    simp only [Game.addFriend, hy, Option.bind_eq_bind, Option.bind_some, mem, if_true]
  · simp only [Game.addFriend, hy, Option.bind_eq_bind, Option.bind_some, mem, if_false]
    apply h.enlist hm hc (fun y => { y with friendList := c :: y.friendList }) (fun _ => rfl)
    intro y d
    simp only [links, List.count_cons, List.count_nil]
    omega

theorem addTarget (h : Orderly g []) (hm : g.Known m) (hc : g.Known c) (pushFront : Bool) :
    Fine g (g.addTarget m c pushFront) := by
  obtain ⟨y, hy⟩ := h.alive hm
  by_cases mem : c ∈ y.targetList
  · refine ⟨g, ?_, h, rfl⟩
    simp only [Game.addTarget, hy, Option.bind_eq_bind, Option.bind_some, mem, if_true]
  · simp only [Game.addTarget, hy, Option.bind_eq_bind, Option.bind_some, mem, if_false]
    apply h.enlist hm hc (fun y => { y with
      targetList := if pushFront then c :: y.targetList else y.targetList ++ [c] }) (fun _ => rfl)
    intro y d
    cases pushFront with
    | false =>
        simp only [links, Bool.false_eq_true, if_false, List.count_append]
        omega
    | true =>
        simp only [links, if_true, List.count_cons, List.count_nil]
        omega

/-! ### A new master -/

/-- The creature has its new master and is among its summons, and still among those of the old
one, whose reference is to be given up. -/
structure Joined (g : Game) (c : CreatureId) (newMaster oldMaster : Option CreatureId)
    (g' : Game) : Prop where
  counted : Counted g' (oldMaster.toList.map fun _ => .decrement c)
  summonsOf : ∀ m, g'.summonsOf m =
    if newMaster = some m then g.summonsOf m ++ [c] else g.summonsOf m
  masterOf : g'.masterOf = Function.update g.masterOf c newMaster
  standing : ∀ d z, g'.creatures d = some z → z.master.isSome = true ∨ z.isInternalRemoved = true →
    z.placed = true
  heart : g'.heart = g.heart
  yields : newMaster = none → Yields g g'

/-- The old master loses the creature. -/
theorem Joined.leave {newMaster oldMaster : Option CreatureId} (h : Orderly g [])
    (joined : Joined g c newMaster oldMaster g') (old : g.masterOf c = oldMaster) :
    ∃ g'', leaveSummons c oldMaster g' = some g'' ∧ Orderly g'' [] ∧ g''.heart = g.heart ∧
      (newMaster = none → Yields g g'') := by
  cases oldMaster with
  | none =>
      refine ⟨g', rfl, ⟨joined.counted, ?_, joined.standing⟩, joined.heart, joined.yields⟩
      rw [joined.masterOf]
      apply h.mastered.setMaster c newMaster none old
      intro m
      rw [joined.summonsOf, if_neg (Option.some_ne_none m).symm]
  | some m =>
      have summon : c ∈ g.summonsOf m :=
        (h.mastered.master c m old).resolve_left List.not_mem_nil
      have listed : c ∈ g'.summonsOf m := by
        rw [joined.summonsOf]
        split_ifs
        · exact List.mem_append_left _ summon
        · exact summon
      obtain ⟨y, hy⟩ : ∃ y, g'.creatures m = some y := by
        cases hy : g'.creatures m with
        | none =>
            rw [Game.summonsOf, hy] at listed
            cases listed
        | some y => exact ⟨y, rfl⟩
      rw [summonsOf_eq hy] at listed
      have left : Orderly (g'.set m { y with summons := y.summons.erase c }) [.decrement c] := by
        refine ⟨?_, ?_, ?_⟩
        · apply joined.counted.set (z := { y with summons := y.summons.erase c }) hy rfl rfl rfl
          · rfl
          · exact joined.counted.kept m y hy
          · exact fun _ _ => rfl
        · apply Mastered.decrement
          have masters : (g'.set m { y with summons := y.summons.erase c }).masterOf =
              Function.update g.masterOf c newMaster := by
            rw [masterOf_set]
            simp only
            rw [← masterOf_eq hy, Function.update_eq_self, joined.masterOf]
          rw [masters]
          apply h.mastered.setMaster c newMaster (some m) old
          intro m'
          rw [summonsOf_set]
          by_cases eq : m = m'
          · subst eq
            rw [Function.update_self, if_pos rfl, ← joined.summonsOf, summonsOf_eq hy]
          · rw [Function.update_of_ne (Ne.symm eq), if_neg fun same => eq (Option.some.inj same),
              joined.summonsOf]
        · intro d w hw
          by_cases eq : d = m
          · subst eq
            rw [creatures_set_self] at hw
            obtain rfl := Option.some.inj hw
            exact joined.standing d y hy
          · rw [creatures_set_ne g' _ eq] at hw
            exact joined.standing d w hw
      obtain ⟨g'', run, orderly, settles⟩ := left.perform
      refine ⟨g'', ?_, orderly, settles.yields.heart.trans joined.heart, fun none => ?_⟩
      · simp only [leaveSummons, hy, Option.bind_eq_bind, Option.bind_some, listed, if_true]
        exact run
      · have fewer : Yields g' (g'.set m { y with summons := y.summons.erase c }) :=
          Yields.set hy rfl rfl List.length_erase_le
        exact ((joined.yields none).trans fewer).trans settles.yields

theorem setMaster (h : Orderly g []) (hx : g.creatures c = some x) (placed : x.placed = true)
    (newMaster : Option CreatureId) (known : ∀ m, newMaster = some m → g.Known m) :
    ∃ g', g.setMaster c newMaster = some g' ∧ Orderly g' [] ∧ g'.heart = g.heart ∧
      (newMaster = none → Yields g g') := by
  cases newMaster with
  | none =>
      cases hm : x.master with
      | none =>
          refine ⟨g, ?_, h, rfl, fun _ => Yields.refl g⟩
          simp only [Game.setMaster, hx, Option.bind_eq_bind, Option.bind_some, hm,
            Option.isNone_none, Bool.and_self, if_true]
      | some m =>
          have joined : Joined g c none x.master (g.set c { x with master := none }) := by
            refine ⟨?_, ?_, ?_, ?_, rfl, fun _ => Yields.set hx rfl rfl le_rfl⟩
            · rw [hm]
              apply h.counted.set (z := { x with master := none }) hx rfl rfl rfl
              · have less := own_master x none
                rw [hm] at less
                simp only [Option.isSome_some, Option.isSome_none, Bool.false_eq_true, if_true,
                  if_false] at less
                simp only [Option.toList_some, List.map_cons, List.map_nil,
                  pending_decrement_self, pending_nil]
                omega
              · exact h.counted.kept c x hx
              · exact fun d ne => pending_decrement_ne ne
            · intro m'
              rw [summonsOf_set, if_neg (Option.some_ne_none m').symm]
              simp only
              rw [← summonsOf_eq hx, Function.update_eq_self]
            · exact masterOf_set ..
            · exact h.standing_set fun _ => placed
          obtain ⟨g', run, result⟩ := joined.leave h (masterOf_eq hx)
          refine ⟨g', ?_, result⟩
          rw [← run]
          simp only [Game.setMaster, joinSummons, hx, Option.bind_eq_bind, Option.bind_some, hm,
            Option.isNone_some, Bool.and_false, Bool.false_eq_true, if_false]
  | some m =>
      obtain ⟨y, hy⟩ := h.alive (known m rfl)
      obtain ⟨run, kept⟩ := h.increment hx
      generalize hg₁ : g.set c { x with referenceCounter := x.referenceCounter + 1 } = g₁ at run kept
      obtain ⟨w, hw⟩ : ∃ w, g₁.creatures m = some w := by
        rw [← hg₁]
        by_cases eq : m = c
        · subst eq
          exact ⟨_, creatures_set_self ..⟩
        · exact ⟨y, (creatures_set_ne g _ eq).trans hy⟩
      have summons₁ : g₁.summonsOf = g.summonsOf := by
        rw [← hg₁, summonsOf_set]
        simp only
        rw [← summonsOf_eq hx, Function.update_eq_self]
      have masters₁ : g₁.masterOf = g.masterOf := by
        rw [← hg₁, masterOf_set]
        simp only
        rw [← masterOf_eq hx, Function.update_eq_self]
      have pushed : Counted (g₁.set m { w with summons := w.summons ++ [c] }) [.decrement c] := by
        apply kept.counted.set (z := { w with summons := w.summons ++ [c] }) hw rfl rfl rfl
        · rfl
        · exact kept.counted.kept m w hw
        · exact fun _ _ => rfl
      obtain ⟨v, hv, same⟩ : ∃ v,
          (g₁.set m { w with summons := w.summons ++ [c] }).creatures c = some v ∧
            v.master = x.master ∧ v.placed = true := by
        by_cases eq : c = m
        · subst eq
          rw [← hg₁, creatures_set_self] at hw
          obtain rfl := Option.some.inj hw
          exact ⟨_, creatures_set_self .., rfl, placed⟩
        · rw [creatures_set_ne g₁ _ eq, ← hg₁]
          exact ⟨_, creatures_set_self .., rfl, placed⟩
      have joined : Joined g c (some m) x.master
          ((g₁.set m { w with summons := w.summons ++ [c] }).set c
            { v with master := some m }) := by
        refine ⟨?_, ?_, ?_, ?_, ?_, fun none => absurd none (Option.some_ne_none m)⟩
        · apply pushed.set (z := { v with master := some m }) hv rfl rfl rfl
          · have worth := own_master v (some m)
            rw [same.1, Option.isSome_some, if_pos rfl] at worth
            rw [pending_decrement_self, pending_nil]
            cases hm : x.master with
            | none =>
                rw [hm, Option.isSome_none, if_neg Bool.false_ne_true] at worth
                rw [Option.toList_none, List.map_nil, pending_nil]
                dsimp only
                omega
            | some m' =>
                rw [hm, Option.isSome_some, if_pos rfl] at worth
                rw [Option.toList_some, List.map_singleton, pending_decrement_self, pending_nil]
                dsimp only
                omega
          · exact pushed.kept c v hv
          · intro d ne
            rw [pending_decrement_ne ne]
            cases x.master with
            | none => rfl
            | some m' => exact pending_decrement_ne ne
        · intro m'
          rw [summonsOf_set]
          simp only
          rw [← summonsOf_eq hv, Function.update_eq_self, summonsOf_set]
          by_cases eq : m = m'
          · subst eq
            rw [Function.update_self, if_pos rfl, ← summons₁, summonsOf_eq hw]
          · rw [Function.update_of_ne (Ne.symm eq), summons₁,
              if_neg fun same => eq (Option.some.inj same)]
        · rw [masterOf_set, masterOf_set]
          simp only
          rw [← masterOf_eq hw, Function.update_eq_self, masters₁]
        · intro d u hu
          by_cases eq : d = c
          · subst eq
            rw [creatures_set_self] at hu
            obtain rfl := Option.some.inj hu
            exact fun _ => same.2
          · rw [creatures_set_ne _ _ eq] at hu
            by_cases eq' : d = m
            · subst eq'
              rw [creatures_set_self] at hu
              obtain rfl := Option.some.inj hu
              exact kept.standing d w hw
            · rw [creatures_set_ne _ _ eq'] at hu
              exact kept.standing d u hu
        · rw [← hg₁]
          rfl
      obtain ⟨g', done, result⟩ := joined.leave h (masterOf_eq hx)
      refine ⟨g', ?_, result⟩
      rw [← done, ← same.1]
      simp only [Game.setMaster, joinSummons, hx, run, hw, hv, Option.bind_eq_bind,
        Option.bind_some, Option.isNone_some, Bool.false_and, Bool.false_eq_true, if_false]

/-! ### What the game keeps -/

theorem others_holders (l : List CreatureId) (d : CreatureId) :
    ({ g with holders := l } : Game).others d + g.holders.count d = g.others d + l.count d := by
  have linked : ({ g with holders := l } : Game).linked d = g.linked d := rfl
  have checks : ({ g with holders := l } : Game).checks d = g.checks d := rfl
  unfold Game.others
  rw [linked, checks]
  dsimp only
  omega

theorem hold (h : Orderly g []) (known : g.Known c) : Fine g (step g (.hold c)) := by
  obtain ⟨x, hx⟩ := h.alive known
  obtain ⟨run, kept⟩ := h.increment hx
  generalize hg₁ : g.set c { x with referenceCounter := x.referenceCounter + 1 } = g₁ at run kept
  refine ⟨{ g₁ with holders := c :: g₁.holders }, ?_, ?_, by rw [← hg₁]; rfl⟩
  · simp only [step, run, Option.bind_eq_bind, Option.bind_some]
  · refine kept.transfer rfl rfl (fun _ => rfl) ?_ Mastered.of_decrement
    intro d
    have others := @others_holders g₁ (c :: g₁.holders) d
    by_cases eq : d = c
    · subst eq
      rw [List.count_cons_self] at others
      rw [pending_decrement_self]
      omega
    · rw [List.count_cons_of_ne (Ne.symm eq)] at others
      rw [pending_decrement_ne eq]
      omega

theorem letGo (h : Orderly g []) (held : c ∈ g.holders) : Fine g (step g (.letGo c)) := by
  have left : Orderly { g with holders := g.holders.erase c } [.decrement c] := by
    refine h.transfer rfl rfl (fun _ => rfl) ?_ fun masters => masters.decrement c
    intro d
    have others := @others_holders g (g.holders.erase c) d
    by_cases eq : d = c
    · subst eq
      have := List.count_pos_iff.mpr held
      rw [List.count_erase_self] at others
      rw [pending_decrement_self, pending_nil]
      omega
    · rw [List.count_erase_of_ne eq] at others
      rw [pending_decrement_ne eq]
      omega
  obtain ⟨g', run, orderly, settles⟩ := left.perform
  exact ⟨g', run, orderly, settles.yields.heart⟩

theorem cleanup (h : Orderly g []) : Fine g g.cleanup := by
  have left : Orderly { g with ToReleaseCreatures := [] }
      (g.ToReleaseCreatures.map .decrement) := by
    refine h.transfer rfl rfl (fun _ => rfl) ?_ ?_
    · intro d
      have linked : ({ g with ToReleaseCreatures := [] } : Game).linked d = g.linked d := rfl
      have checks : ({ g with ToReleaseCreatures := [] } : Game).checks d = g.checks d := rfl
      rw [pending_map_decrement, pending_nil]
      unfold Game.others
      rw [linked, checks, List.count_nil]
      dsimp only
      omega
    · exact fun masters => masters.of_nil (decrements _)
  obtain ⟨g', run, orderly, settles⟩ := left.perform
  exact ⟨g', run, orderly, settles.yields.heart⟩

/-! ### The lists of the heartbeat -/

theorem checks_update (lists : Fin EVENT_CREATURECOUNT → List CreatureId)
    (i : Fin EVENT_CREATURECOUNT) (l : List CreatureId) (d : CreatureId) :
    (∑ j, (Function.update lists i l j).count d) + (lists i).count d =
      (∑ j, (lists j).count d) + l.count d := by
  have changed := Finset.add_sum_erase Finset.univ
    (fun j => (Function.update lists i l j).count d) (Finset.mem_univ i)
  have before := Finset.add_sum_erase Finset.univ (fun j => (lists j).count d) (Finset.mem_univ i)
  have same : (∑ j ∈ Finset.univ.erase i, (Function.update lists i l j).count d) =
      ∑ j ∈ Finset.univ.erase i, (lists j).count d := by
    apply Finset.sum_congr rfl
    intro j hj
    rw [Function.update_of_ne (Finset.ne_of_mem_erase hj)]
  simp only [Function.update_self, same] at changed before
  omega

/-- A creature's place in the lists changes, with its flag and its counter. -/
theorem relist (h : Orderly g jobs) (hx : g.creatures c = some x)
    {lists : Fin EVENT_CREATURECOUNT → List CreatureId}
    (fields : z = { x with
      creatureCheck := z.creatureCheck
      inCheckCreaturesVector := z.inCheckCreaturesVector
      referenceCounter := z.referenceCounter })
    (flag : (∑ i, (lists i).count c) = if z.inCheckCreaturesVector then 1 else 0)
    (other : ∀ d, d ≠ c → (∑ i, (lists i).count d) = g.checks d)
    (counter : z.referenceCounter + g.checks c + pending jobs c =
      x.referenceCounter + (∑ i, (lists i).count c) + pending jobs' c)
    (kept : z.placed = true → 0 < z.referenceCounter)
    (same : ∀ d, d ≠ c → pending jobs' d = pending jobs d)
    (masters : Mastered g.summonsOf g.masterOf jobs → Mastered g.summonsOf g.masterOf jobs') :
    Orderly { g.set c z with checkCreatureLists := lists } jobs' := by
  have hc := h.counted.bound c x hx
  have owned : own z = own x := by
    rw [fields]
    rfl
  have others (d : CreatureId) :
      ({ g.set c z with checkCreatureLists := lists } : Game).others d + g.checks d =
        g.others d + ∑ i, (lists i).count d := by
    have moved := others_set hc hx z d
    have same : links d (some z) = links d (some x) := by
      rw [fields]
      rfl
    have linked : ({ g.set c z with checkCreatureLists := lists } : Game).linked d =
        (g.set c z).linked d := rfl
    have checks : ({ g.set c z with checkCreatureLists := lists } : Game).checks d =
        ∑ i, (lists i).count d := rfl
    have before : (g.set c z).checks d = g.checks d := rfl
    unfold Game.others at moved ⊢
    rw [before] at moved
    rw [linked, checks]
    dsimp only
    omega
  refine ⟨⟨?_, ?_, ?_, ?_, ?_⟩, ?_, ?_⟩
  · intro d w hw
    by_cases eq : d = c
    · exact eq ▸ hc
    · exact h.counted.bound d w ((creatures_set_ne g z eq).symm.trans hw)
  · intro d w hw
    have others := others d
    by_cases eq : d = c
    · subst eq
      obtain rfl := Option.some.inj ((creatures_set_self g d z).symm.trans hw)
      have := h.counted.counter d x hx
      omega
    · have := h.counted.counter d w ((creatures_set_ne g z eq).symm.trans hw)
      rw [other d eq] at others
      rw [same d eq]
      omega
  · intro d hd
    have others := others d
    by_cases eq : d = c
    · subst eq
      cases (creatures_set_self g d z).symm.trans hd
    · have := h.counted.gone d ((creatures_set_ne g z eq).symm.trans hd)
      rw [other d eq] at others
      rw [same d eq]
      omega
  · intro d w hw placed
    by_cases eq : d = c
    · subst eq
      obtain rfl := Option.some.inj ((creatures_set_self g d z).symm.trans hw)
      exact kept placed
    · exact h.counted.kept d w ((creatures_set_ne g z eq).symm.trans hw) placed
  · intro d w hw
    by_cases eq : d = c
    · subst eq
      obtain rfl := Option.some.inj ((creatures_set_self g d z).symm.trans hw)
      exact flag
    · exact (other d eq).trans (h.counted.listed d w ((creatures_set_ne g z eq).symm.trans hw))
  · have summonsOf : ({ g.set c z with checkCreatureLists := lists } : Game).summonsOf =
        g.summonsOf := by
      refine (summonsOf_set g c z).trans ?_
      rw [fields]
      simp only
      rw [← summonsOf_eq hx, Function.update_eq_self]
    have masterOf : ({ g.set c z with checkCreatureLists := lists } : Game).masterOf =
        g.masterOf := by
      refine (masterOf_set g c z).trans ?_
      rw [fields]
      simp only
      rw [← masterOf_eq hx, Function.update_eq_self]
    rw [summonsOf, masterOf]
    exact masters h.mastered
  · refine h.standing_set ?_
    rw [fields]
    exact h.standing c x hx

theorem addCreatureCheck (h : Orderly g []) (known : g.Known c)
    (bucket : Fin EVENT_CREATURECOUNT) :
    ∃ g', g.addCreatureCheck c bucket = some g' ∧ Orderly g' [] ∧ (g'.heart = g.heart ∨
      g.checks c = 0 ∧ g'.heart = (Function.update g.checkCreatureLists bucket
        (g.checkCreatureLists bucket ++ [c]), g.iterator, g.passes, g.thoughts)) := by
  obtain ⟨x, hx⟩ := h.alive known
  have flag := h.counted.listed c x hx
  by_cases listed : x.inCheckCreaturesVector = true
  · refine ⟨g.set c { x with creatureCheck := true }, ?_, ?_, Or.inl rfl⟩
    · simp only [Game.addCreatureCheck, hx, Option.bind_eq_bind, Option.bind_some, listed,
        if_true]
    · apply h.rewrite (z := { x with creatureCheck := true }) hx rfl rfl id rfl
      · apply h.counted.set (z := { x with creatureCheck := true }) hx rfl rfl rfl
        · rfl
        · exact h.counted.kept c x hx
        · exact fun _ _ => rfl
      · exact id
  · rw [if_neg listed] at flag
    have lists := checks_update g.checkCreatureLists bucket (g.checkCreatureLists bucket ++ [c])
    have pushed : (∑ i, (Function.update g.checkCreatureLists bucket
        (g.checkCreatureLists bucket ++ [c]) i).count c) = 1 := by
      have lists := lists c
      have none : (∑ i, (g.checkCreatureLists i).count c) = 0 := flag
      rw [List.count_append, List.count_singleton_self] at lists
      omega
    refine ⟨{ g.set c { x with
        creatureCheck := true
        inCheckCreaturesVector := true
        referenceCounter := x.referenceCounter + 1 } with
      checkCreatureLists := Function.update g.checkCreatureLists bucket
        (g.checkCreatureLists bucket ++ [c]) }, ?_, ?_, Or.inr ⟨flag, rfl⟩⟩
    · simp only [Game.addCreatureCheck, hx, Option.bind_eq_bind, Option.bind_some, listed,
        incrementReferenceCounter, Game.set, Function.update_self, Function.update_idem]
      rfl
    · apply h.relist (z := { x with
        creatureCheck := true
        inCheckCreaturesVector := true
        referenceCounter := x.referenceCounter + 1 }) hx rfl
      · exact pushed
      · intro d ne
        have lists := lists d
        rw [List.count_append, List.count_singleton, if_neg (by simpa using Ne.symm ne)] at lists
        unfold Game.checks
        omega
      · rw [pushed, flag]
      · exact fun _ => Nat.succ_pos _
      · exact fun _ _ => rfl
      · exact id

/-- One round of the loop. -/
theorem visit (h : Orderly g []) (k : ℕ) :
    ∃ g', g.visit k = some g' ∧ Orderly g' [] ∧
      ((g.checkCreatureLists g.index)[k]? = none ∧
          g'.heart = (g.checkCreatureLists, none, g.passes + 1, g.thoughts) ∨
        ∃ c, (g.checkCreatureLists g.index)[k]? = some c ∧
          (g'.heart = (g.checkCreatureLists, some (k + 1), g.passes, (c, g.passes) :: g.thoughts) ∨
            g'.heart = (Function.update g.checkCreatureLists g.index
              ((g.checkCreatureLists g.index).eraseIdx k), g.iterator, g.passes, g.thoughts))) := by
  cases at_k : (g.checkCreatureLists g.index)[k]? with
  | none =>
      have ended : Orderly { g with iterator := none, passes := g.passes + 1 } [] :=
        h.transfer rfl rfl (fun _ => rfl) (fun _ => rfl) id
      obtain ⟨g', run, orderly, heart⟩ := ended.cleanup
      refine ⟨g', ?_, orderly, Or.inl ⟨rfl, heart⟩⟩
      simp only [Game.visit, at_k]
      exact run
  | some c =>
      have listed : 0 < g.checks c := by
        have mem := List.mem_of_getElem? at_k
        have one := List.count_pos_iff.mpr mem
        have sum := Finset.single_le_sum (s := Finset.univ)
          (fun i _ => Nat.zero_le ((g.checkCreatureLists i).count c)) (Finset.mem_univ g.index)
        unfold Game.checks
        omega
      obtain ⟨x, hx⟩ := h.stays (Or.inr listed)
      by_cases thinks : x.creatureCheck = true
      · refine ⟨{ g with iterator := some (k + 1), thoughts := (c, g.passes) :: g.thoughts }, ?_,
          h.transfer rfl rfl (fun _ => rfl) (fun _ => rfl) id, Or.inr ⟨c, rfl, Or.inl rfl⟩⟩
        simp only [Game.visit, at_k, hx, Option.bind_eq_bind, Option.bind_some, thinks, if_true]
      · have flag := h.counted.listed c x hx
        have mem := List.mem_of_getElem? at_k
        have inVector : x.inCheckCreaturesVector = true := by
          by_contra out
          rw [if_neg out] at flag
          omega
        rw [if_pos inVector] at flag
        obtain ⟨lt, get⟩ := List.getElem?_eq_some_iff.mp at_k
        have perm (d : CreatureId) : ((g.checkCreatureLists g.index).eraseIdx k).count d +
            [c].count d = (g.checkCreatureLists g.index).count d := by
          have counts := (List.getElem_cons_eraseIdx_perm lt).count_eq d
          rw [get, List.count_cons] at counts
          rw [List.count_singleton]
          omega
        have lists := checks_update g.checkCreatureLists g.index
          ((g.checkCreatureLists g.index).eraseIdx k)
        have left : (∑ i, (Function.update g.checkCreatureLists g.index
            ((g.checkCreatureLists g.index).eraseIdx k) i).count c) = 0 := by
          have lists := lists c
          have perm := perm c
          have one : (∑ i, (g.checkCreatureLists i).count c) = 1 := flag
          rw [List.count_singleton_self] at perm
          omega
        have off : Orderly { g.set c { x with inCheckCreaturesVector := false } with
            checkCreatureLists := Function.update g.checkCreatureLists g.index
              ((g.checkCreatureLists g.index).eraseIdx k) } [.decrement c] := by
          apply h.relist (z := { x with inCheckCreaturesVector := false }) hx rfl
          · exact left
          · intro d ne
            have lists := lists d
            have perm := perm d
            rw [List.count_singleton, if_neg (by simpa using Ne.symm ne)] at perm
            unfold Game.checks
            omega
          · rw [left, flag, pending_decrement_self, pending_nil]
          · exact h.counted.kept c x hx
          · exact fun d ne => pending_decrement_ne ne
          · exact fun masters => masters.decrement c
        refine ⟨_, ?_, off.release, Or.inr ⟨c, rfl, Or.inr rfl⟩⟩
        simp only [Game.visit, at_k, hx, Option.bind_eq_bind, Option.bind_some, thinks]
        rfl

/-! ### Removal -/

theorem drop (h : Orderly g []) (d : Drop) :
    ∃ g', Game.drop g d = some g' ∧ Orderly g' [] ∧ Yields g g' := by
  cases hy : g.creatures d.monster with
  | none =>
      refine ⟨g, ?_, h, Yields.refl g⟩
      simp only [Game.drop, hy]
  | some y =>
      by_cases map : y.onMap = true
      · have stays : g.Stays d.monster := by
          left
          rw [hy]
          exact map
        cases friend : d.friend with
        | false =>
            obtain ⟨g', run, result⟩ := h.removeTarget (c := d.creature) stays
            refine ⟨g', ?_, result⟩
            simp only [Game.drop, hy, map, friend, run, if_true, Bool.false_eq_true, if_false]
        | true =>
            obtain ⟨g', run, result⟩ := h.removeFriend (c := d.creature) stays
            refine ⟨g', ?_, result⟩
            simp only [Game.drop, hy, map, friend, run, if_true]
      · refine ⟨g, ?_, h, Yields.refl g⟩
        simp only [Game.drop, hy, map]
        rfl

theorem drops (h : Orderly g []) (ds : List Drop) :
    ∃ g', ds.foldlM Game.drop g = some g' ∧ Orderly g' [] ∧ Yields g g' := by
  induction ds generalizing g with
  | nil => exact ⟨g, rfl, h, Yields.refl g⟩
  | cons d ds ih =>
      obtain ⟨g₁, first, orderly₁, yields₁⟩ := h.drop d
      obtain ⟨g₂, rest, orderly₂, yields₂⟩ := ih orderly₁
      refine ⟨g₂, ?_, orderly₂, yields₁.trans yields₂⟩
      rw [List.foldlM_cons, first]
      exact rest

theorem leaveMaster (h : Orderly g []) (hx : g.creatures c = some x) (placed : x.placed = true) :
    ∃ g', g.leaveMaster c = some g' ∧ Orderly g' [] ∧ Yields g g' := by
  cases hm : x.master with
  | none =>
      refine ⟨g, ?_, h, Yields.refl g⟩
      simp only [Game.leaveMaster, hx, Option.bind_eq_bind, Option.bind_some, hm]
  | some m =>
      have master : g.masterOf c = some m := (masterOf_eq hx).trans hm
      have summon := (h.mastered.master c m master).resolve_left List.not_mem_nil
      obtain ⟨y, hy⟩ : ∃ y, g.creatures m = some y := by
        cases hy : g.creatures m with
        | none =>
            rw [Game.summonsOf, hy] at summon
            cases summon
        | some y => exact ⟨y, rfl⟩
      by_cases removed : y.isInternalRemoved = true
      · refine ⟨g, ?_, h, Yields.refl g⟩
        simp only [Game.leaveMaster, hx, hy, Option.bind_eq_bind, Option.bind_some, hm, removed,
          if_true]
      · obtain ⟨g', run, orderly, -, yields⟩ := h.setMaster hx placed none fun m none =>
          absurd none.symm (Option.some_ne_none m)
        refine ⟨g', ?_, orderly, yields rfl⟩
        simp only [Game.leaveMaster, hx, hy, Option.bind_eq_bind, Option.bind_some, hm, removed]
        exact run

theorem removeOne (h : Orderly g []) (hx : g.creatures c = some x) (placed : x.placed = true)
    (on : x.isInternalRemoved = false) (ds : List Drop) :
    ∃ g', g.removeOne ds c = some g' ∧ Orderly g' [] ∧ Wanes g g' ∧
      c ∈ g'.ToReleaseCreatures ∧ ∃ z, g'.creatures c = some z ∧ z.isInternalRemoved = true := by
  have map : x.onMap = true := by
    rw [Creature.onMap, placed, on]
    rfl
  obtain ⟨g₁, run₁, orderly₁, yields₁⟩ := h.drops ds
  obtain ⟨x₁, hx₁, map₁⟩ := yields₁.stays c x hx map
  have placed₁ : x₁.placed = true := by
    rw [Creature.onMap, Bool.and_eq_true] at map₁
    exact map₁.1
  obtain ⟨g₂, run₂, orderly₂, yields₂⟩ := orderly₁.leaveMaster hx₁ placed₁
  obtain ⟨x₂, hx₂, map₂⟩ := yields₂.stays c x₁ hx₁ map₁
  have off : Orderly (g₂.set c { x₂ with isInternalRemoved := true }) [.decrement c] := by
    have less := own_removed x₂ map₂
    refine ⟨?_, ?_, ?_⟩
    · apply orderly₂.counted.set (z := { x₂ with isInternalRemoved := true }) hx₂ rfl rfl rfl
      · rw [pending_decrement_self, pending_nil]
        dsimp only
        omega
      · exact orderly₂.counted.kept c x₂ hx₂
      · exact fun d ne => pending_decrement_ne ne
    · rw [summonsOf_set, masterOf_set]
      simp only
      rw [← summonsOf_eq hx₂, ← masterOf_eq hx₂, Function.update_eq_self, Function.update_eq_self]
      exact orderly₂.mastered.decrement c
    · apply orderly₂.standing_set
      rw [Creature.onMap, Bool.and_eq_true] at map₂
      exact fun _ => map₂.1
  have wanes : Wanes g₂ ((g₂.set c { x₂ with isInternalRemoved := true }).ReleaseCreature c) := by
    refine ⟨rfl, rfl, List.subset_append_left _ _, ?_⟩
    intro d w hw
    by_cases eq : d = c
    · subst eq
      obtain rfl := Option.some.inj ((creatures_set_self ..).symm.trans hw)
      exact ⟨x₂, hx₂, rfl, le_rfl, fun _ => rfl⟩
    · exact ⟨w, (creatures_set_ne g₂ _ eq).symm.trans hw, rfl, le_rfl, id⟩
  have listed : c ∈ ((g₂.set c { x₂ with isInternalRemoved := true }).ReleaseCreature
      c).ToReleaseCreatures := List.mem_append_right _ (List.mem_singleton_self c)
  have there : ((g₂.set c { x₂ with isInternalRemoved := true }).ReleaseCreature c).creatures c =
      some { x₂ with isInternalRemoved := true } := creatures_set_self ..
  obtain ⟨g₃, run₃, orderly₃, yields₃, z, hz, removed⟩ := off.release.removeCreatureCheck there
  refine ⟨g₃, ?_, orderly₃,
    ((yields₁.trans yields₂).toWanes.trans wanes).trans yields₃.toWanes,
    yields₃.releases listed, z, hz, removed⟩
  simp only [Game.removeOne, hx, placed, run₁, run₂, hx₂, Option.bind_eq_bind, Option.bind_some,
    if_true]
  exact run₃

end Orderly

/-! ### The loops over summons -/

theorem upcoming_le (h : Wanes g g') (d : CreatureId) :
    upcoming (g'.creatures d) ≤ upcoming (g.creatures d) := by
  cases hz : g'.creatures d with
  | none => exact Nat.zero_le _
  | some z =>
      obtain ⟨x, hx, -, summons, removed⟩ := h.older d z hz
      rw [hx]
      simp only [upcoming]
      by_cases rx : x.isInternalRemoved = true
      · rw [if_pos (removed rx)]
        exact Nat.zero_le _
      · rw [if_neg rx]
        split_ifs
        · exact Nat.zero_le _
        · omega

/-- A creature that is removed adds nothing any more. -/
theorem sum_upcoming_removed (h : Wanes g g') (hc : c < g.allocated)
    (hx : g.creatures c = some x) (on : x.isInternalRemoved = false)
    (hz : g'.creatures c = some z) (removed : z.isInternalRemoved = true) :
    ∑ d ∈ Finset.range g'.allocated, upcoming (g'.creatures d) + (x.summons.length + 2) ≤
      ∑ d ∈ Finset.range g.allocated, upcoming (g.creatures d) := by
  have mem : c ∈ Finset.range g.allocated := Finset.mem_range.mpr hc
  have before := Finset.add_sum_erase (Finset.range g.allocated)
    (fun d => upcoming (g.creatures d)) mem
  have now := Finset.add_sum_erase (Finset.range g.allocated)
    (fun d => upcoming (g'.creatures d)) mem
  have rest : ∑ d ∈ (Finset.range g.allocated).erase c, upcoming (g'.creatures d) ≤
      ∑ d ∈ (Finset.range g.allocated).erase c, upcoming (g.creatures d) :=
    Finset.sum_le_sum fun d _ => upcoming_le h d
  have was : upcoming (some x) = x.summons.length + 2 := by
    simp only [upcoming, on, Bool.false_eq_true, if_false]
  have is : upcoming (some z) = 0 := by
    simp only [upcoming, removed, if_true]
  rw [hx, was] at before
  rw [hz, is] at now
  rw [h.allocated]
  omega

theorem remaining_le (h : Wanes g g') (frame : CreatureId × ℕ) :
    g'.remaining frame ≤ g.remaining frame := by
  cases hz : g'.creatures frame.1 with
  | none =>
      simp only [remaining, hz]
      cases g.creatures frame.1 with
      | none => exact le_rfl
      | some x => exact Nat.le_add_left 1 _
  | some z =>
      obtain ⟨x, hx, -, summons, -⟩ := h.older frame.1 z hz
      simp only [remaining, hz, hx]
      omega

theorem sum_remaining_le (h : Wanes g g') (frames : List (CreatureId × ℕ)) :
    (frames.map g'.remaining).sum ≤ (frames.map g.remaining).sum := by
  induction frames with
  | nil => exact le_rfl
  | cons frame frames ih =>
      have first := remaining_le h frame
      rw [List.map_cons, List.map_cons, List.sum_cons, List.sum_cons]
      omega

/-- The loops end, and no iterator is used on a creature that is gone. -/
theorem Orderly.removeSummons (drops : CreatureId → List Drop) {n : ℕ}
    {l : List (CreatureId × ℕ)} (h : Orderly g [])
    (kept : ∀ frame ∈ l, frame.1 ∈ g.ToReleaseCreatures) (fuel : g.loops l ≤ n) :
    ∃ g', Game.removeSummons drops n l g = some g' ∧ Orderly g' [] ∧ Wanes g g' := by
  induction n generalizing g l with
  | zero =>
      cases l with
      | nil => exact ⟨g, rfl, h, (Yields.refl g).toWanes⟩
      | cons frame frames =>
          exfalso
          have one : 1 ≤ g.remaining frame := by
            unfold remaining
            cases g.creatures frame.1 with
            | none => exact le_rfl
            | some x => exact Nat.le_add_left 1 _
          rw [loops, List.map_cons, List.sum_cons] at fuel
          omega
  | succ n ih =>
      cases l with
      | nil => exact ⟨g, rfl, h, (Yields.refl g).toWanes⟩
      | cons frame frames =>
          obtain ⟨c, k⟩ := frame
          have mem : c ∈ g.ToReleaseCreatures := kept (c, k) List.mem_cons_self
          have later : ∀ frame ∈ frames, frame.1 ∈ g.ToReleaseCreatures :=
            fun frame of => kept frame (List.mem_cons_of_mem _ of)
          obtain ⟨x, hx⟩ := h.counted.alive (c := c) (by
            have := List.count_pos_iff.mpr mem
            unfold Game.others
            omega)
          have remains : g.remaining (c, k) = x.summons.length - k + 1 := by
            simp only [remaining, hx]
          rw [loops, List.map_cons, List.sum_cons, remains] at fuel
          cases at_k : x.summons[k]? with
          | none =>
              obtain ⟨g', run, result⟩ := ih h later (by
                rw [loops]
                omega)
              refine ⟨g', ?_, result⟩
              simp only [Game.removeSummons, hx, Option.bind_eq_bind, Option.bind_some, at_k]
              exact run
          | some s =>
              obtain ⟨lt, -⟩ := List.getElem?_eq_some_iff.mp at_k
              have summon : s ∈ g.summonsOf c := by
                rw [summonsOf_eq hx]
                exact List.mem_of_getElem? at_k
              have master := h.mastered.summons c s summon
              obtain ⟨y, hy⟩ := alive_of_masterOf master
              have placed : y.placed = true := by
                refine h.standing s y hy (Or.inl ?_)
                rw [← masterOf_eq hy, master, Option.isSome_some]
              have advanced : g.remaining (c, k + 1) = x.summons.length - (k + 1) + 1 := by
                simp only [remaining, hx]
              by_cases removed : y.isInternalRemoved = true
              · obtain ⟨g', run, result⟩ := ih (l := (c, k + 1) :: frames) h
                  (List.forall_mem_cons.mpr ⟨mem, later⟩) (by
                    rw [loops, List.map_cons, List.sum_cons, advanced]
                    omega)
                refine ⟨g', ?_, result⟩
                simp only [Game.removeSummons, hx, hy, Option.bind_eq_bind, Option.bind_some, at_k,
                  removed, if_true]
                exact run
              · rw [Bool.not_eq_true] at removed
                obtain ⟨g₁, run₁, orderly₁, wanes₁, listed, z, hz, gone⟩ :=
                  h.removeOne hy placed removed (drops s)
                have sum := sum_upcoming_removed wanes₁ (h.counted.bound s y hy) hy removed hz gone
                have frames₁ := sum_remaining_le wanes₁ ((c, k + 1) :: frames)
                rw [List.map_cons, List.map_cons, List.sum_cons, List.sum_cons, advanced] at frames₁
                have inner : g₁.remaining (s, 0) ≤ y.summons.length + 1 := by
                  refine (remaining_le wanes₁ (s, 0)).trans ?_
                  simp only [remaining, hy]
                  exact le_rfl
                obtain ⟨g', run, orderly, wanes⟩ :=
                  ih (l := (s, 0) :: (c, k + 1) :: frames) orderly₁
                    (List.forall_mem_cons.mpr ⟨listed, List.forall_mem_cons.mpr
                      ⟨wanes₁.releases mem, fun frame of => wanes₁.releases (later frame of)⟩⟩) (by
                    rw [loops, List.map_cons, List.map_cons, List.sum_cons, List.sum_cons]
                    omega)
                refine ⟨g', ?_, orderly, wanes₁.trans wanes⟩
                simp only [Game.removeSummons, hx, hy, Option.bind_eq_bind, Option.bind_some, at_k,
                  removed, run₁]
                exact run

theorem Orderly.removeCreature (h : Orderly g []) (hx : g.creatures c = some x)
    (placed : x.placed = true) (drops : CreatureId → List Drop) :
    Fine g (g.removeCreature drops c) := by
  by_cases removed : x.isInternalRemoved = true
  · refine ⟨g, ?_, h, rfl⟩
    simp only [Game.removeCreature, hx, Option.bind_eq_bind, Option.bind_some, removed, if_true]
  · rw [Bool.not_eq_true] at removed
    obtain ⟨g₁, run₁, orderly₁, wanes₁, listed, -⟩ := h.removeOne hx placed removed (drops c)
    obtain ⟨g', run, orderly, wanes⟩ := orderly₁.removeSummons drops (l := [(c, 0)])
      (List.forall_mem_singleton.mpr listed) le_rfl
    refine ⟨g', ?_, orderly, (wanes₁.trans wanes).heart⟩
    simp only [Game.removeCreature, hx, Option.bind_eq_bind, Option.bind_some, removed, run₁]
    exact run

/-! ### Every run -/

theorem placed_of_not_fresh (hx : g.creatures c = some x) (not_fresh : ¬g.Fresh c) :
    x.placed = true := by
  rw [Fresh, hx, Option.any_some] at not_fresh
  simpa using not_fresh

theorem orderly_started : Orderly started [] := by
  have linked (d : CreatureId) : started.linked d = 0 := rfl
  have checks (d : CreatureId) : started.checks d = 0 := Finset.sum_const_zero
  refine ⟨⟨?_, ?_, ?_, ?_, ?_⟩, ⟨?_, ?_, ?_, ?_, ?_⟩, ?_⟩
  · exact fun _ _ none => by cases none
  · exact fun _ _ none => by cases none
  · intro d _
    unfold Game.others
    rw [linked, checks, pending_nil]
    rfl
  · exact fun _ _ none => by cases none
  · exact fun _ _ none => by cases none
  · exact fun _ _ mem => by cases mem
  · exact fun _ => List.nodup_nil
  · exact fun _ _ none => by cases none
  · exact fun _ mem => by cases mem
  · exact fun _ => Nat.zero_le 1
  · exact fun _ _ none => by cases none

/-- What an event is to the heartbeat. -/
inductive Pulse (g g' : Game) : Prop where
  | rest (heart : g'.heart = g.heart)
  /-- A creature comes into a list that is in none. -/
  | join (c : CreatureId) (bucket : Fin EVENT_CREATURECOUNT) (unlisted : g.checks c = 0)
      (heart : g'.heart = (Function.update g.checkCreatureLists bucket
        (g.checkCreatureLists bucket ++ [c]), g.iterator, g.passes, g.thoughts))
  | start (idle : g.iterator = none)
      (heart : g'.heart = (g.checkCreatureLists, some 0, g.passes, g.thoughts))
  | think (k : ℕ) (c : CreatureId) (under_way : g.iterator = some k)
      (at_k : (g.checkCreatureLists g.index)[k]? = some c)
      (heart : g'.heart =
        (g.checkCreatureLists, some (k + 1), g.passes, (c, g.passes) :: g.thoughts))
  | leave (k : ℕ) (c : CreatureId) (under_way : g.iterator = some k)
      (at_k : (g.checkCreatureLists g.index)[k]? = some c)
      (heart : g'.heart = (Function.update g.checkCreatureLists g.index
        ((g.checkCreatureLists g.index).eraseIdx k), g.iterator, g.passes, g.thoughts))
  | finish (k : ℕ) (under_way : g.iterator = some k)
      (at_k : (g.checkCreatureLists g.index)[k]? = none)
      (heart : g'.heart = (g.checkCreatureLists, none, g.passes + 1, g.thoughts))

/-- What is possible uses no creature that is gone, and keeps the counters right. -/
theorem Orderly.step (h : Orderly g []) (event : Event) (possible : Possible g event) :
    ∃ g', CreatureReferences.step g event = some g' ∧ Orderly g' [] ∧ Pulse g g' := by
  have fine {result : Option Game} (of : Fine g result) :
      ∃ g', result = some g' ∧ Orderly g' [] ∧ Pulse g g' := by
    obtain ⟨g', run, orderly, heart⟩ := of
    exact ⟨g', run, orderly, .rest heart⟩
  cases event with
  | create => exact fine h.create
  | discard c => exact fine (h.discard possible.1 possible.2)
  | internalPlaceCreature c => exact fine (h.internalPlaceCreature possible)
  | postAddNotification c => exact fine (h.postAddNotification possible)
  | addCreatureCheck c bucket =>
      obtain ⟨g', run, orderly, heart | ⟨unlisted, heart⟩⟩ := h.addCreatureCheck possible bucket
      · exact ⟨g', run, orderly, .rest heart⟩
      · exact ⟨g', run, orderly, .join c bucket unlisted heart⟩
  | removeCreatureCheck c =>
      obtain ⟨x, hx⟩ := h.alive possible
      obtain ⟨g', run, orderly, yields, -⟩ := h.removeCreatureCheck hx
      exact ⟨g', run, orderly, .rest yields.heart⟩
  | removeCreature c drops =>
      obtain ⟨x, hx⟩ := h.alive (Or.inr possible.1)
      exact fine (h.removeCreature hx (placed_of_not_fresh hx possible.2) drops)
  | setMaster c newMaster =>
      obtain ⟨x, hx⟩ := h.alive (Or.inr possible.1)
      obtain ⟨g', run, orderly, heart, -⟩ :=
        h.setMaster hx (placed_of_not_fresh hx possible.2.1) newMaster possible.2.2
      exact ⟨g', run, orderly, .rest heart⟩
  | dropSummons m => exact fine (h.dropSummons possible)
  | addFriend m c => exact fine (h.addFriend possible.1 possible.2)
  | removeFriend m c =>
      obtain ⟨g', run, orderly, yields⟩ := h.removeFriend (c := c) possible
      exact ⟨g', run, orderly, .rest yields.heart⟩
  | addTarget m c pushFront => exact fine (h.addTarget possible.1 possible.2 pushFront)
  | removeTarget m c =>
      obtain ⟨g', run, orderly, yields⟩ := h.removeTarget (c := c) possible
      exact ⟨g', run, orderly, .rest yields.heart⟩
  | clearTargetList m => exact fine (h.clearTargetList possible)
  | clearFriendList m => exact fine (h.clearFriendList possible)
  | hold c => exact fine (h.hold possible)
  | letGo c => exact fine (h.letGo possible)
  | cleanup => exact fine h.cleanup
  | checkCreatures =>
      exact ⟨g.checkCreatures, rfl,
        h.transfer rfl rfl (fun _ => rfl) (fun _ => rfl) id, .start possible rfl⟩
  | visit =>
      obtain ⟨k, hk⟩ := Option.isSome_iff_exists.mp possible
      have visited : CreatureReferences.step g .visit = g.visit k := by
        rw [CreatureReferences.step, hk, Option.bind_some]
      rw [visited]
      obtain ⟨g', run, orderly, ⟨at_k, heart⟩ | ⟨c, at_k, heart | heart⟩⟩ := h.visit k
      · exact ⟨g', run, orderly, .finish k hk at_k heart⟩
      · exact ⟨g', run, orderly, .think k c hk at_k heart⟩
      · exact ⟨g', run, orderly, .leave k c hk at_k heart⟩

/-- What can be said of the creatures at any time. -/
structure Sound (g : Game) : Prop where
  /-- Where something refers to a creature, it is in memory. -/
  alive : ∀ c, g.Referred c → ∃ x, g.creatures c = some x
  /-- Its counter is the number of these references. -/
  counted : ∀ c x, g.creatures c = some x → x.referenceCounter = g.owners c
  /-- A creature that was placed is in memory only as long as something refers to it. -/
  kept : ∀ c x, g.creatures c = some x → x.placed = true → g.Referred c
  /-- Masters and summons belong to each other. -/
  mastered : ∀ m s, s ∈ g.summonsOf m ↔ g.masterOf s = some m
  /-- The heartbeat goes over a creature in one place at most, and the creature knows. -/
  listed : ∀ c, g.checks c =
    if (g.creatures c).any Creature.inCheckCreaturesVector then 1 else 0

theorem Orderly.sound (h : Orderly g []) : Sound g := by
  have counted (c : CreatureId) (x : Creature) (hx : g.creatures c = some x) :
      x.referenceCounter = g.owners c := by
    have counter := h.counted.counter c x hx
    rw [owners, hx, Option.elim_some]
    rwa [pending_nil, Nat.add_zero] at counter
  refine ⟨fun c of => h.alive (Or.inr of), counted, ?_, ?_, ?_⟩
  · intro c x hx placed
    rw [Referred, ← counted c x hx]
    exact h.counted.kept c x hx placed
  · intro m s
    exact ⟨h.mastered.summons m s, fun hs =>
      (h.mastered.master s m hs).resolve_left List.not_mem_nil⟩
  · intro c
    cases hx : g.creatures c with
    | none =>
        have gone := h.counted.gone c hx
        unfold Game.others at gone
        rw [Option.any_none, if_neg Bool.false_ne_true]
        omega
    | some x => exact h.counted.listed c x hx

/-- Nothing ever uses a creature that was deleted, and no creature stays in memory that nothing
refers to, whatever is placed, removed, summoned, targeted and let go in whatever order. -/
theorem creatures_counted {events : List Event}
    (possible : Runs.Allowed step Possible started events) :
    ∃ g, Runs.run step started events = some g ∧ Sound g := by
  obtain ⟨g, run, orderly⟩ := possible.completes (P := fun g => Orderly g []) orderly_started
    fun g event orderly possible => by
      obtain ⟨g', run, orderly', -⟩ := orderly.step event possible
      exact ⟨g', run, orderly'⟩
  exact ⟨g, run, orderly.sound⟩

namespace Sample

/-- A summoner is removed with its summon, and goes with it when its protocol lets go. -/
def summoner : List Event :=
  [.create, .internalPlaceCreature 0, .create, .internalPlaceCreature 1, .setMaster 1 (some 0),
    .hold 0, .addTarget 1 0 true, .removeCreature 0 fun _ => [⟨1, 0, false⟩], .cleanup, .letGo 0]

theorem summoner_gone : ∃ g, Runs.run step started summoner = some g ∧ Sound g :=
  creatures_counted (Runs.Allowed.of_check (by decide))

example : (Runs.run step started summoner).map (fun g => (g.creatures 0, g.creatures 1).map
    Option.isSome Option.isSome) = some (false, false) := by decide

end Sample

end TibServer.CreatureReferences
