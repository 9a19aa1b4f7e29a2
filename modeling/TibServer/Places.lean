import TibServer.Capacity

/-!
The places `queryDestination` names in containers. The loop of
`internalMoveItem` asks on until a container answers with itself, so what it
mentions is the item at the place; a single answer of a player need not be.
-/

namespace TibServer

namespace World

variable {w : World} {i : ItemRef} {d : Dest} {p : PlayerId}
  {tradeItem : PlayerId → Option ItemRef} {trade : Option ItemRef}

/-! ### The search of a player -/

/-- What the search through the containers of a player comes to. -/
inductive Spot (w : World) (i : ItemRef) (flags : Flags) : Dest → Prop
  | stack {c n : Nat} {k : Container} {o : ItemRef} (hk : w.getContainer c = some k)
      (lt : n < k.size) :
      Spot w i flags { cylinder := .container c, index := n, destItem := some o, flags }
  | place {c n : Nat} {k : Container} (hk : w.getContainer c = some k) (lt : n < k.capacity) :
      Spot w i flags { cylinder := .container c, index := n, flags }
  | free {c : Nat} {k : Container} {index : Int} (hk : w.getContainer c = some k)
      (found : w.searchFree c i flags k.capacity
        (BitVec.ofNat 32 k.capacity - BitVec.ofNat 32 k.size).toNat = some index) :
      Spot w i flags { cylinder := .container c, index, flags }

/-- The index counts no more items than the list has. -/
theorem searchStack_lt {l : List ItemRef} {n m : Nat} {found : List ItemRef} {o : ItemRef}
    (h : w.searchStack trade i l n found = .inl (m, o)) : m < n + l.length := by
  induction l generalizing n found with
  | nil => simp [searchStack] at h
  | cons a rest ih =>
      simp only [searchStack] at h
      rw [List.length_cons]
      split at h
      · have := ih h
        omega
      · split at h
        · obtain ⟨rfl, -⟩ := Prod.mk.inj (Sum.inl.inj h)
          omega
        · have := ih h
          omega

theorem searchContainers_spot {flags : Flags} {autoStack : Bool} {fuel : Nat}
    {queue : List ItemRef}
    (h : w.searchContainers trade i flags autoStack fuel queue = some d) : w.Spot i flags d := by
  induction fuel generalizing queue with
  | zero => simp [searchContainers] at h
  | succ fuel ih =>
      cases queue with
      | nil => simp [searchContainers] at h
      | cons c queue =>
          simp only [searchContainers] at h
          cases hk : w.getContainer c with
          | none => exact ih (by simpa [hk] using h)
          | some k =>
              simp only [hk] at h
              split at h
              · split at h
                · next found =>
                    obtain rfl := Option.some.inj h
                    exact .free hk found
                · exact ih h
              · split at h
                · next n o found =>
                    obtain rfl := Option.some.inj h
                    have lt := searchStack_lt found
                    exact .stack hk (by simpa [Container.size] using lt)
                · split at h
                  · next room =>
                      obtain rfl := Option.some.inj h
                      exact .place hk room.1
                  · exact ih h

/-- A player answers with himself, or sends on to a container: to an unnamed place
of it, or to where the search found room. -/
theorem playerQueryDestination_cases (w : World) (trade : Option ItemRef) (i : ItemRef)
    (hd : d.cylinder = .player p) :
    ((w.playerQueryDestination p trade i d).cylinder = .player p ∧
        (w.playerQueryDestination p trade i d).flags = d.flags) ∨
      (∃ o, w.playerQueryDestination p trade i d =
        { d with cylinder := .container o, index := INDEX_WHEREEVER, destItem := none }) ∨
      w.Spot i d.flags (w.playerQueryDestination p trade i d) := by
  unfold playerQueryDestination
  split
  · simp only
    split
    · exact .inl ⟨hd, rfl⟩
    · cases hs : w.searchContainers trade i d.flags (!d.flags.ignoreAutoStack) w.walkFuel _ with
      | none => exact .inl ⟨hd, rfl⟩
      | some d' => exact .inr (.inr (searchContainers_spot hs))
  · split
    · next o _ =>
        split
        · exact .inr (.inl ⟨o, rfl⟩)
        · exact .inl ⟨hd, rfl⟩
    · exact .inl ⟨hd, rfl⟩

theorem Spot.container {flags : Flags} (h : w.Spot i flags d) : ∃ r, d.cylinder = .container r := by
  cases h with
  | stack => exact ⟨_, rfl⟩
  | place => exact ⟨_, rfl⟩
  | free => exact ⟨_, rfl⟩

/-! ### The loop of redirections -/

theorem Spot.heard {flags : Flags} (h : w.Spot i flags d) : w.Heard d := by
  intro r hr
  cases h with
  | stack hk lt =>
      obtain rfl := Cylinder.container.inj hr
      have list : w.sizeOf _ = _ := sizeOf_eq hk
      exact .inr (itemByIndex_isSome (lt.trans_eq list.symm))
  | place => exact .inl rfl
  | free => exact .inl rfl

theorem queryDestination_tile (w : World) (tradeItem : PlayerId → Option ItemRef) (i : ItemRef)
    {pos : Position} (hd : d.cylinder = .tile pos) :
    ∃ q, (w.queryDestination tradeItem i d).cylinder = .tile q := by
  simp only [queryDestination, hd, tileQueryDestination]
  exact ⟨_, rfl⟩

theorem redirect_tile (w : World) (tradeItem : PlayerId → Option ItemRef) (i : ItemRef) (n : Nat)
    {d : Dest} {pos : Position} (hd : d.cylinder = .tile pos) :
    ∃ q, (w.redirect tradeItem i n d).cylinder = .tile q := by
  induction n generalizing d pos with
  | zero => exact ⟨pos, hd⟩
  | succ n ih =>
      obtain ⟨q, hq⟩ := w.queryDestination_tile tradeItem i hd
      simp only [redirect]
      split
      · exact ⟨q, hq⟩
      · exact ih (d := { w.queryDestination tradeItem i d with flags := {} }) hq

theorem redirect_wherever {c : ItemRef} (n : Nat) (hd : d.cylinder = .container c)
    (place : d.index = INDEX_WHEREEVER) (none_ : d.destItem = none) :
    w.At (w.redirect tradeItem i (n + 1) d) := by
  have answer : w.queryDestination tradeItem i d = w.containerQueryDestination c i d := by
    simp only [queryDestination, hd]
  have same := containerQueryDestination_wherever (w := w) (i := i) hd place
  have sent := containerQueryDestination_sent (w := w) (i := i) hd fun _ _ => .inl none_
  simp only [redirect, answer]
  rw [if_pos (same.trans hd.symm)]
  exact sent.at_ same

theorem redirect_container {c : ItemRef} (n : Nat) (hd : d.cylinder = .container c)
    (heard : w.Heard d) : w.At (w.redirect tradeItem i (n + 2) d) := by
  have answer : w.queryDestination tradeItem i d = w.containerQueryDestination c i d := by
    simp only [queryDestination, hd]
  have sent := containerQueryDestination_sent (w := w) (i := i) hd heard
  rw [redirect, answer]
  split
  · next same => exact sent.at_ (same.trans hd)
  · next other =>
      obtain ⟨r, hr⟩ := sent.container
      obtain ⟨place, none_⟩ := sent.on fun e => other (e.trans hd.symm)
      exact redirect_wherever (c := r) n hr place none_

theorem at_of_not_container (h : ∀ r, d.cylinder ≠ .container r) : w.At d :=
  fun r _ hr => absurd hr (h r)

/-- Three rounds are enough to come to rest in a container. -/
theorem destination_at (none_ : d.destItem = none) : w.At (w.destination tradeItem i d) := by
  unfold destination MAP_MAX_LAYERS
  cases hd : d.cylinder with
  | tile pos =>
      obtain ⟨q, hq⟩ := w.redirect_tile tradeItem i 16 hd
      exact at_of_not_container (by simp [hq])
  | container c => exact redirect_container 14 hd fun _ _ => .inl none_
  | player p =>
      have answer : w.queryDestination tradeItem i d =
          w.playerQueryDestination p (tradeItem p) i d := by simp only [queryDestination, hd]
      rw [redirect, answer]
      split
      · next same => exact at_of_not_container (by simp [same, hd])
      · next other =>
          rcases w.playerQueryDestination_cases (tradeItem p) i hd with
            ⟨same, -⟩ | ⟨o, there⟩ | spot
          · exact absurd (same.trans hd.symm) other
          · rw [there]
            exact redirect_container (c := o) 13 rfl fun _ _ => .inl rfl
          · obtain ⟨r, hr⟩ := spot.container
            exact redirect_container (c := r) 13 hr spot.heard

/-! ### Flags -/

/-- Asking does not change the flags, but for the floor change of a tile. -/
theorem queryDestination_flags (w : World) (tradeItem : PlayerId → Option ItemRef) (i : ItemRef)
    (hd : ∀ pos, d.cylinder ≠ .tile pos) :
    (w.queryDestination tradeItem i d).flags = d.flags := by
  unfold queryDestination
  cases hc : d.cylinder with
  | tile pos => exact absurd hc (hd pos)
  | container c =>
      simp only [containerQueryDestination, stackOrDescend, descend]
      (repeat' split) <;> rfl
  | player p =>
      simp only
      rcases w.playerQueryDestination_cases (tradeItem p) i hc with
        ⟨-, same⟩ | ⟨o, there⟩ | spot
      · exact same
      · rw [there]
      · generalize w.playerQueryDestination p (tradeItem p) i d = d' at spot
        cases spot <;> rfl

/-- The flags a container is asked with are the caller's, or none. -/
theorem redirect_flags {r : ItemRef} {n : Nat}
    (hr : (w.redirect tradeItem i n d).cylinder = .container r) :
    (w.redirect tradeItem i n d).flags = d.flags ∨ (w.redirect tradeItem i n d).flags = {} := by
  induction n generalizing d with
  | zero => exact .inl rfl
  | succ n ih =>
      simp only [redirect] at hr ⊢
      split at hr
      · next same =>
          rw [if_pos same]
          exact .inl (w.queryDestination_flags tradeItem i (by simp [← same, hr]))
      · next other =>
          rw [if_neg other]
          rcases ih hr with given | none
          · exact .inr given
          · exact .inr none

/-! ### The free places of a container -/

/-- The number of free places does not wrap in a container within its capacity. -/
theorem Within.free_toNat (hw : w.Within) {r : ItemRef} {k : Container}
    (hr : w.getContainer r = some k) (page : k.pagination = false) :
    (BitVec.ofNat 32 k.capacity - BitVec.ofNat 32 k.size).toNat = k.capacity - k.size := by
  have bound := hw r k hr page
  have small : k.capacity < 2 ^ 32 := k.maxSize_lt
  rw [BitVec.toNat_sub, BitVec.toNat_ofNat, BitVec.toNat_ofNat]
  omega

/-- The free places are tried from the capacity downwards, so none is beyond it. -/
theorem searchFree_lt {c : ItemRef} {flags : Flags} {capacity n : Nat} {index : Int}
    (small : capacity < 2 ^ 32) (le : n ≤ capacity)
    (h : w.searchFree c i flags capacity n = some index) : index < capacity := by
  induction n with
  | zero => simp [searchFree] at h
  | succ n ih =>
      simp only [searchFree] at h
      split at h
      · obtain rfl := Option.some.inj h
        have signed := BitVec.toInt_eq_toNat_cond
          (BitVec.ofNat 32 capacity - BitVec.ofNat 32 (n + 1))
        have free : (BitVec.ofNat 32 capacity - BitVec.ofNat 32 (n + 1)).toNat =
            capacity - (n + 1) := by
          rw [BitVec.toNat_sub, BitVec.toNat_ofNat, BitVec.toNat_ofNat]
          omega
        rw [free] at signed
        split_ifs at signed <;> omega
      · exact ih (Nat.le_of_succ_le le) h

/-- Every index a player names for a container is below its capacity. -/
theorem Within.index_lt (hw : w.Within) (hd : d.cylinder = .player p) {r : ItemRef}
    {k : Container} (hr : (w.playerQueryDestination p trade i d).cylinder = .container r)
    (hk : w.getContainer r = some k) (page : k.pagination = false) :
    (w.playerQueryDestination p trade i d).index < k.capacity := by
  rcases w.playerQueryDestination_cases trade i hd with
    ⟨same, -⟩ | ⟨o, there⟩ | spot
  · rw [hr] at same
    cases same
  · rw [there]
    exact lt_of_lt_of_le (by decide : INDEX_WHEREEVER < 0) (Int.natCast_nonneg _)
  · generalize w.playerQueryDestination p trade i d = d' at hr spot
    cases spot with
    | stack hk' lt =>
        obtain rfl := Cylinder.container.inj hr
        obtain rfl := Option.some.inj (hk.symm.trans hk')
        have bound := hw _ _ hk page
        simp only
        omega
    | place hk' lt =>
        obtain rfl := Cylinder.container.inj hr
        obtain rfl := Option.some.inj (hk.symm.trans hk')
        exact Int.ofNat_lt.mpr lt
    | free hk' found =>
        obtain rfl := Cylinder.container.inj hr
        obtain rfl := Option.some.inj (hk.symm.trans hk')
        rw [hw.free_toNat hk page] at found
        exact searchFree_lt k.maxSize_lt (Nat.sub_le _ _) found

end World

end TibServer
