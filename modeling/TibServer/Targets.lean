import TibServer.Effects

/-!
Where `queryDestination` leads: what it names as the destination item lies in
the cylinder it returns, at the index it returns.
-/

namespace TibServer

namespace World

variable {w : World}

/-- What the answer of `queryDestination` says is so: the destination item is
the top down item of a tile, the item in a player's slot, or lies in a container. -/
def DestOk (w : World) (d : Dest) : Prop :=
  match d.cylinder with
  | .tile pos => d.destItem = (w.tile pos).bind (·.getTopDownItem)
  | .player p => d.destItem = w.getInventoryItem p d.index
  | .container c => ∀ o, d.destItem = some o → o ∈ w.itemlist c

/-- What holds when a cylinder is asked: a player and a tile are asked without
a destination item, or do not mind it. -/
def Asked (w : World) (d : Dest) : Prop :=
  match d.cylinder with
  | .tile _ => True
  | .player _ => d.destItem = none
  | .container c => ∀ o, d.destItem = some o → o ∈ w.itemlist c

theorem getInventoryItem_slot {p : PlayerId} {s : Nat} (h : s ∈ slots) :
    w.getInventoryItem p s = (w.player p).inventory s := by
  rw [mem_slots] at h
  rw [getInventoryItem, if_pos (by omega), Int.toNat_natCast]

theorem getInventoryItem_outside {p : PlayerId} {index : Int}
    (h : index = 0 ∨ index = INDEX_WHEREEVER) : w.getInventoryItem p index = none := by
  rw [getInventoryItem, if_neg]
  simp only [INDEX_WHEREEVER] at h
  omega

/-- The loop over the slots stops at the slot of the item it names. -/
theorem searchSlots_found {p : PlayerId} {tradeItem : Option ItemRef} {i : ItemRef}
    {flags : Flags} {autoStack : Bool} {l : List Nat} {found : List ItemRef} {s : Nat}
    {o : Option ItemRef}
    (h : w.searchSlots p tradeItem i flags autoStack l found = .found s o) :
    s ∈ l ∧ (w.player p).inventory s = o := by
  induction l generalizing found with
  | nil => simp [searchSlots] at h
  | cons x l ih =>
      simp only [searchSlots] at h
      split at h
      · next o' inv =>
          split at h
          · exact (ih h).imp_left (List.mem_cons_of_mem _)
          · split at h
            · obtain ⟨rfl, rfl⟩ := SlotSearch.found.inj h
              exact ⟨List.mem_cons_self, inv⟩
            · exact (ih h).imp_left (List.mem_cons_of_mem _)
      · next inv =>
          split at h
          · obtain ⟨rfl, rfl⟩ := SlotSearch.found.inj h
            exact ⟨List.mem_cons_self, inv⟩
          · exact (ih h).imp_left (List.mem_cons_of_mem _)

theorem searchStack_mem {tradeItem : Option ItemRef} {i : ItemRef} {l : List ItemRef} {n : Nat}
    {found : List ItemRef} {m : Nat} {o : ItemRef}
    (h : w.searchStack tradeItem i l n found = .inl (m, o)) :
    o ∈ l ∧ w.equals o i = true ∧ w.getItemCount o < 100 := by
  induction l generalizing n found with
  | nil => simp [searchStack] at h
  | cons x l ih =>
      simp only [searchStack] at h
      split at h
      · exact (ih h).imp_left (List.mem_cons_of_mem _)
      · split at h
        · next fits =>
            obtain ⟨rfl, rfl⟩ := Prod.mk.inj (Sum.inl.inj h)
            exact ⟨List.mem_cons_self, fits⟩
        · exact (ih h).imp_left (List.mem_cons_of_mem _)

/-- The search of the containers ends in one of them. -/
theorem searchContainers_ok {tradeItem : Option ItemRef} {i : ItemRef} {flags : Flags}
    {autoStack : Bool} {fuel : Nat} {l : List ItemRef} {d : Dest}
    (h : w.searchContainers tradeItem i flags autoStack fuel l = some d) :
    ∃ c, d.cylinder = .container c ∧ ∀ o, d.destItem = some o → o ∈ w.itemlist c := by
  induction fuel generalizing l with
  | zero => simp [searchContainers] at h
  | succ fuel ih =>
      cases l with
      | nil => simp [searchContainers] at h
      | cons c l =>
          simp only [searchContainers] at h
          split at h
          · exact ih h
          · next k hc =>
              have list : w.itemlist c = k.itemlist := by
                have : (w.item c).getContainer = some k := hc
                simp only [itemlist, Item.itemlist, this]
                rfl
              split at h
              · split at h
                · obtain rfl := Option.some.inj h
                  exact ⟨c, rfl, by simp⟩
                · exact ih h
              · split at h
                · next n o stack =>
                    obtain rfl := Option.some.inj h
                    refine ⟨c, rfl, fun o' ho => ?_⟩
                    obtain rfl := Option.some.inj ho
                    rw [list]
                    exact (searchStack_mem stack).1
                · split at h
                  · obtain rfl := Option.some.inj h
                    exact ⟨c, rfl, by simp⟩
                  · exact ih h

theorem itemByIndex_mem {l : List ItemRef} {index : Int} {o : ItemRef}
    (h : itemByIndex l index = some o) : o ∈ l := by
  unfold itemByIndex at h
  split at h
  · exact List.mem_of_getElem? h
  · simp at h

theorem findStack_mem {i o : ItemRef} {l : List ItemRef} (h : w.findStack i l = some o) :
    o ∈ l := List.mem_of_find?_eq_some h

/-- The record after the index of a container was looked at. -/
theorem descend_ok {c : ItemRef} {d : Dest} (hc : d.cylinder = .container c)
    (hd : ∀ o, d.destItem = some o → o ∈ w.itemlist c) : w.DestOk (w.descend c d) := by
  unfold descend
  split
  · rwa [DestOk, hc]
  · have mem : ∀ o, (itemByIndex (w.itemlist c) d.index).orElse (fun _ => d.destItem) = some o →
        o ∈ w.itemlist c := by
      intro o ho
      cases hi : itemByIndex (w.itemlist c) d.index with
      | none => exact hd o (by simpa [hi] using ho)
      | some x =>
          obtain rfl : x = o := by simpa [hi] using ho
          exact itemByIndex_mem hi
    simp only
    split
    · next o ho =>
        split
        · simp [DestOk]
        · simp only [DestOk, hc]
          rintro o' ⟨⟩
          exact mem _ ho
    · simp [DestOk, hc]

theorem stackOrDescend_ok {c i : ItemRef} {d : Dest} (hc : d.cylinder = .container c)
    (hd : ∀ o, d.destItem = some o → o ∈ w.itemlist c) : w.DestOk (w.stackOrDescend c i d) := by
  unfold stackOrDescend
  split
  · split
    · next o ho =>
        simp only [DestOk, hc]
        rintro o' ⟨⟩
        exact findStack_mem ho
    · exact descend_ok hc hd
  · exact descend_ok hc hd

theorem containerQueryDestination_ok {c i : ItemRef} {d : Dest} (hc : d.cylinder = .container c)
    (hd : ∀ o, d.destItem = some o → o ∈ w.itemlist c) :
    w.DestOk (w.containerQueryDestination c i d) := by
  unfold containerQueryDestination
  split
  · rwa [DestOk, hc]
  · split
    · simp [DestOk, hc]
    · split
      · split
        · simp [DestOk]
        · simp [DestOk, hc]
      · split
        · exact stackOrDescend_ok hc (by simp)
        · exact stackOrDescend_ok hc hd

theorem playerQueryDestination_ok {p : PlayerId} {tradeItem : Option ItemRef} {i : ItemRef}
    {d : Dest} (hp : d.cylinder = .player p) (hd : d.destItem = none) :
    w.DestOk (w.playerQueryDestination p tradeItem i d) := by
  unfold playerQueryDestination
  split
  · next outside =>
      simp only
      split
      · next s o found =>
          obtain ⟨hs, inv⟩ := searchSlots_found found
          have slot : s ∈ slots := by
            rw [List.mem_range'_1] at hs
            exact mem_slots.mpr (by omega)
          simp only [DestOk, hp]
          rw [getInventoryItem_slot slot, inv]
      · next l found =>
          cases hs : w.searchContainers tradeItem i d.flags (!d.flags.ignoreAutoStack)
              w.walkFuel l with
          | none =>
              simp only [Option.getD_none, DestOk, hp]
              exact (getInventoryItem_outside outside).symm
          | some d' =>
              obtain ⟨c, hc, mem⟩ := searchContainers_ok hs
              simp only [Option.getD_some, DestOk, hc]
              exact mem
  · split
    · next o inv =>
        split
        · simp [DestOk]
        · simp [DestOk, hp, inv]
    · next inv => simp [DestOk, hp, inv, hd]

theorem queryDestination_ok (tradeItem : PlayerId → Option ItemRef) (i : ItemRef) {d : Dest}
    (h : w.Asked d) : w.DestOk (w.queryDestination tradeItem i d) := by
  unfold queryDestination
  unfold Asked at h
  split
  · simp [tileQueryDestination, DestOk]
  · next p hp =>
      rw [hp] at h
      exact playerQueryDestination_ok hp h
  · next c hc =>
      rw [hc] at h
      exact containerQueryDestination_ok hc h

/-! A container sends a thing to a container, a tile to a tile, and only a player to itself. -/

theorem descend_container {c : ItemRef} {d : Dest} (hc : d.cylinder = .container c) :
    ∃ r, (w.descend c d).cylinder = .container r := by
  unfold descend
  split
  · exact ⟨c, hc⟩
  · simp only
    split
    · split
      · exact ⟨_, rfl⟩
      · exact ⟨c, hc⟩
    · exact ⟨c, hc⟩

theorem stackOrDescend_container {c i : ItemRef} {d : Dest} (hc : d.cylinder = .container c) :
    ∃ r, (w.stackOrDescend c i d).cylinder = .container r := by
  unfold stackOrDescend
  split
  · split
    · exact ⟨c, hc⟩
    · exact descend_container hc
  · exact descend_container hc

theorem containerQueryDestination_container {c i : ItemRef} {d : Dest}
    (hc : d.cylinder = .container c) :
    ∃ r, (w.containerQueryDestination c i d).cylinder = .container r := by
  unfold containerQueryDestination
  split
  · exact ⟨c, hc⟩
  · split
    · exact ⟨c, hc⟩
    · split
      · split
        · exact ⟨_, rfl⟩
        · exact ⟨c, hc⟩
      · split
        · exact stackOrDescend_container hc
        · exact stackOrDescend_container hc

theorem queryDestination_player {tradeItem : PlayerId → Option ItemRef} {i : ItemRef} {d : Dest}
    {p : PlayerId} (h : (w.queryDestination tradeItem i d).cylinder = .player p) :
    d.cylinder = .player p := by
  unfold queryDestination at h
  split at h
  · simp [tileQueryDestination] at h
  · next q hq =>
      unfold playerQueryDestination at h
      split at h
      · simp only at h
        split at h
        · exact h
        · next l found =>
            cases hs : w.searchContainers (tradeItem q) i d.flags (!d.flags.ignoreAutoStack)
                w.walkFuel l with
            | none => simpa [hs] using h
            | some d' =>
                obtain ⟨c, hc, -⟩ := searchContainers_ok hs
                simp [hs, hc] at h
      · split at h
        · split at h
          · simp at h
          · exact h
        · exact h
  · next c hc =>
      obtain ⟨r, hr⟩ := containerQueryDestination_container (w := w) (i := i) hc
      rw [hr] at h
      cases h

/-- What a redirection leads to can be asked again. -/
theorem DestOk.asked {d : Dest} (h : w.DestOk d) (hp : ∀ p, d.cylinder ≠ .player p) :
    w.Asked d := by
  unfold DestOk at h
  unfold Asked
  split at h
  · simp only
  · next p hp' => exact absurd hp' (hp p)
  · next c hc => simpa [hc] using h

/-- The flags play no part. -/
theorem DestOk.setFlags {d : Dest} (h : w.DestOk d) (flags : Flags) :
    w.DestOk { d with flags } := h

theorem redirect_ok {tradeItem : PlayerId → Option ItemRef} {i : ItemRef} {d : Dest}
    (ha : w.Asked d) (n : Nat) : w.DestOk (w.redirect tradeItem i (n + 1) d) := by
  induction n generalizing d with
  | zero =>
      simp only [redirect]
      split
      · exact queryDestination_ok tradeItem i ha
      · exact (queryDestination_ok tradeItem i ha).setFlags {}
  | succ n ih =>
      rw [redirect]
      have ok := queryDestination_ok tradeItem i ha
      split
      · exact ok
      · next moved =>
          refine ih ((ok.setFlags {}).asked fun p hp => moved ?_)
          have : (w.queryDestination tradeItem i d).cylinder = .player p := hp
          rw [this, queryDestination_player this]

theorem destination_ok {tradeItem : PlayerId → Option ItemRef} {i : ItemRef} {d : Dest}
    (h : d.destItem = none) : w.DestOk (w.destination tradeItem i d) := by
  refine redirect_ok ?_ 15
  unfold Asked
  split
  · trivial
  · exact h
  · simp [h]

end World

end TibServer
