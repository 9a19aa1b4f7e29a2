import TibServer.Addition
import TibServer.Places

/-!
Runs of moves and additions against the capacity of the containers. A move
breaks it through an exchange with a full source that the moved stack does not
leave, an addition through a place in a full container that is given by its
index. Nothing else does.
-/

namespace TibServer

namespace World

variable {w w' : World} {i o : ItemRef} {d : Dest} {src dst : Cylinder} {count m : Nat}
  {actor : Option PlayerId} {tradeItem toItem : Option ItemRef} {ret : ReturnValue}

/-- Where a move is allowed into a full container, all its units go into a stack. -/
theorem Allowed.rest_zero {r : ItemRef} (h : w.Allowed src d i count tradeItem ret m)
    (hat : w.At d) (hc : d.cylinder = .container r) (limit : d.flags.noLimit = false)
    (child : d.flags.childIsOwner = false)
    (add : w.queryAdd d.cylinder d.index i count d.flags actor = .noError)
    (full_ : w.full d.cylinder = true) : w.restUnits i d.destItem m = 0 := by
  rw [hc] at add full_
  have place : d.index ≠ INDEX_WHEREEVER := by
    intro e
    rw [e] at add
    rw [queryAdd_wherever limit child add] at full_
    cases full_
  obtain ⟨k, hr, page, full_⟩ := full_iff.mp full_
  have item := hat r k hc hr (queryAdd_unlocked hr page limit child add) place
  have free : k.capacity - k.size = 0 := Nat.sub_eq_zero_of_le full_
  have list : k.itemlist = w.itemlist r := by
    have hr' : (w.item r).getContainer = some k := hr
    simp only [itemlist, Item.itemlist, hr']
    rfl
  have answer := h.allows
  have units := h.units
  have positive := h.granted.positive
  simp only [hc, queryMaxCount, containerQueryMaxCount, hr, limit, page, Container.hasPagination,
    Bool.or_self, Bool.false_eq_true, if_false, free, Nat.zero_mul, Nat.zero_add,
    if_neg place] at answer units
  by_cases stack : w.isStackable i = true
  · have same : (if 0 ≤ d.index then k.itemlist[d.index.toNat]? else none) = d.destItem := by
      rw [item, itemByIndex, list]
    simp only [stack, if_true, same] at answer units
    rw [restUnits, if_pos stack]
    cases dest : d.destItem with
    | none =>
        simp only [dest] at units
        split_ifs at units <;> simp at units <;> omega
    | some o =>
        simp only [dest] at units
        by_cases fits : w.equals i o = true ∧ w.getItemCount o < 100
        · have le : m ≤ 100 - w.getItemCount o := by
            rw [units, if_pos fits]
            split_ifs <;> simp
          have left : (BitVec.ofInt 32 (100 - (w.getItemCount o : Int))).toNat =
              100 - w.getItemCount o := by
            have small := fits.2
            rw [BitVec.toNat_ofInt]
            omega
          rw [mergedUnits, mergeTarget_equals stack fits.1]
          simp only [mergeCount, left]
          omega
        · simp only [if_neg fits] at units
          split_ifs at units <;> simp at units <;> omega
  · rw [if_neg stack] at answer
    simp at answer

/-! ### How long lists get in a transfer -/

/-- An update with an item's own id leaves all ids and types alone. -/
theorem updateThing_items (w : World) (c : Cylinder) (o : ItemRef) (id n : Nat) :
    (w.updateThing c o id n).items = w.items := by
  cases c with
  | tile pos =>
      simp only [updateThing, tileUpdateThing]
      (repeat' split) <;> rfl
  | player p =>
      simp only [updateThing, playerUpdateThing]
      split <;> rfl
  | container r =>
      simp only [updateThing, containerUpdateThing]
      split
      · rfl
      · exact (updateItemWeight_kept _ _ _).items

theorem updateThing_id (w : World) (c : Cylinder) (o : ItemRef) (n : Nat) (x : ItemRef) :
    ((w.updateThing c o (w.item o).id n).item x).id = (w.item x).id := by
  have update : ((w.setItem o fun y => w.setSubType (w.setID y (w.item o).id) n).item x).id =
      (w.item x).id := by
    rw [setItem_item]
    split_ifs with e
    · rw [setSubType_id, setID_id, e]
    · rfl
  cases c with
  | tile pos =>
      simp only [updateThing, tileUpdateThing]
      split
      · rfl
      · split
        · rfl
        · exact update
  | player p =>
      simp only [updateThing, playerUpdateThing]
      split
      · rfl
      · exact update
  | container r =>
      simp only [updateThing, containerUpdateThing]
      split
      · rfl
      · exact ((updateItemWeight_kept _ _ _).id x).trans update

theorem allocate_grown {x : Item} (plain : x.getContainer = none) :
    Grown w (w.allocate x) none where
  shell r := by
    by_cases e : r = w.next
    · subst e
      exact .inr (by simpa [World.getContainer, allocate] using plain)
    · exact .inl (by simp [shellOf, World.getContainer, allocate, e])
  size r := by
    by_cases e : r = w.next
    · subst e
      simp [sizeOf, itemlist, Item.itemlist, allocate, plain]
    · simp [sizeOf, itemlist, allocate, e]

theorem Loosened.mergedUnits (h : Loosened w w' i) (ne : toItem ≠ some i) (m : Nat) :
    w'.mergedUnits i toItem m = w.mergedUnits i toItem m := by
  simp only [World.mergedUnits, h.mergeTarget]
  cases target : w.mergeTarget i toItem with
  | none => rfl
  | some o =>
      have item := (mergeTarget_some target).1
      simp only [h.getItemCount (fun e : o = i => ne (e ▸ item))]

theorem Loosened.restUnits (h : Loosened w w' i) (ne : toItem ≠ some i) (m : Nat) :
    w'.restUnits i toItem m = w.restUnits i toItem m := by
  simp only [World.restUnits, h.isStackable, h.mergedUnits ne]

end World

namespace Game

open World

variable {g : Game} {i o : ItemRef} {d : Dest} {src dst : Cylinder} {index : Int} {count m n : Nat}
  {actor : Option PlayerId} {tradeItem toItem : Option ItemRef}

theorem cloneWith_grown (hs : g.world.isStackable i = true) (n : Nat) :
    Grown g.world (g.cloneWith i n).world none := by
  refine allocate_grown ?_
  have cls : ((g.world.cloneItem (g.world.item i)).setItemCount n).cls = .item := by
    rw [Item.setItemCount_cls, (cloneItem_stackable hs).2]
  rw [Item.getContainer, cls]

theorem addMerge_grown (d : Dest) (o : ItemRef) (n : Nat) :
    Grown g.world (g.addMerge d o n).world none := by
  rw [addMerge, updateThing_world]
  exact updateThing_grown _ _ _ _ _

theorem mergeInto_grown (c : Cylinder) (i : ItemRef) (toItem : Option ItemRef) (m : Nat) :
    Grown g.world (g.mergeInto c i toItem m).2.2.world none ∧
      (g.mergeInto c i toItem m).2.2.world.isStackable i = g.world.isStackable i := by
  unfold mergeInto
  cases g.world.mergeTarget i toItem with
  | none => exact ⟨.refl _, rfl⟩
  | some o =>
      simp only [updateThing_world]
      exact ⟨updateThing_grown _ _ _ _ _,
        isStackable_of_id (updateThing_items _ _ _ _ _) (updateThing_id _ _ _ _ _)⟩

/-- Until the item, or what is left of it, is added no list gets longer. -/
theorem takeUnits_grown (src dst : Cylinder) (i : ItemRef) (toItem : Option ItemRef) (m : Nat) :
    Grown (g.removeThing src i m).world (g.takeUnits src dst i toItem m).2.2.world none := by
  unfold takeUnits
  simp only
  generalize g.removeThing src i m = g₁
  split
  · next hs =>
      obtain ⟨grown, same⟩ := mergeInto_grown (g := g₁) dst i toItem m
      simp only [merge, cloneRest]
      split
      · exact grown.trans (cloneWith_grown (same.trans hs) _)
      · exact grown
  · exact .refl _

/-- Something is left to add exactly where a rest is. -/
theorem takeUnits_none (ne : toItem ≠ some i) :
    (g.takeUnits src dst i toItem m).1 = none ↔ g.world.restUnits i toItem m = 0 := by
  have removed : Loosened g.world (g.removeThing src i m).world i := by
    rw [removeThing_world]
    exact g.world.removeThing_loosened src i m
  rw [← removed.restUnits ne]
  unfold takeUnits
  simp only
  generalize g.removeThing src i m = g₁
  split
  · next hs =>
      simp only [merge, mergeInto_units, cloneRest, restUnits, hs, if_true]
      split
      · simp
        omega
      · simp
        omega
  · next hs =>
      simp [restUnits, hs]

/-- From the removal on, a transfer makes the list of the destination longer, and
only where a rest is left. -/
theorem transfer_grown (src dst : Cylinder) (index : Int) (i : ItemRef) (toItem : Option ItemRef)
    (m : Nat) :
    Grown (g.removeThing src i m).world (g.transfer src dst index i toItem m).2.world
      (Cylinder.ref dst) := by
  have taken := takeUnits_grown (g := g) src dst i toItem m
  unfold transfer
  simp only
  generalize g.takeUnits src dst i toItem m = taking at taken
  refine Grown.trans' ?_ (((post_kept _ _ _).trans (postItem_kept _ _ _)).trans
    (postItem_kept _ _ _)).grown
  cases taking.1 with
  | none => exact taken.weaken
  | some x =>
      simp only [addThing_world]
      exact taken.trans (addThing_grown _ _ _ _)

theorem transfer_grown_none (ne : toItem ≠ some i) (rest : g.world.restUnits i toItem m = 0)
    (src dst : Cylinder) (index : Int) :
    Grown (g.removeThing src i m).world (g.transfer src dst index i toItem m).2.world none := by
  have taken := takeUnits_grown (g := g) src dst i toItem m
  have nothing : (g.takeUnits src dst i toItem m).1 = none := (takeUnits_none ne).mpr rest
  unfold transfer
  simp only
  generalize g.takeUnits src dst i toItem m = taking at taken nothing
  refine Grown.trans' ?_ (((post_kept _ _ _).trans (postItem_kept _ _ _)).trans
    (postItem_kept _ _ _)).grown
  rw [nothing]
  exact taken

theorem removeThing_grown (src : Cylinder) (i : ItemRef) (m : Nat) :
    Grown g.world (g.removeThing src i m).world none := by
  rw [removeThing_world]
  exact (g.world.removeThing_loosened src i m).grown

theorem swap_grown (src dst : Cylinder) (o : ItemRef) :
    Grown g.world (g.swap src dst o).world (Cylinder.ref src) := by
  unfold swap
  simp only
  have out := removeThing_grown (g := g) dst o (g.world.getItemCount o)
  generalize g.removeThing dst o (g.world.getItemCount o) = g₁ at out
  refine (out.trans ?_).trans' ((post_kept _ _ _).trans (post_kept _ _ _)).grown
  cases src with
  | player p => exact .refl _
  | tile pos =>
      rw [addThingFront_world]
      exact addThing_grown _ (.tile pos) 0 o
  | container r =>
      rw [addThingFront_world]
      exact addThing_grown _ (.container r) 0 o

/-! ### Moves -/

/-- Nothing of the item stays behind. -/
def leavesWhole (w : World) (i : ItemRef) (m : Nat) : Bool :=
  !(w.isStackable i && m != w.getItemCount i)

/-- A move breaks the capacity of a container: after an exchange the source, which
was full, keeps a part of the moved item, or all of it; or a full destination is
passed over because the caller asks as the owner's child. -/
def moveOverfills (g : Game) (src : Cylinder) (d : Dest) (i : ItemRef) (count : Nat)
    (actor : Option PlayerId) (tradeItem : Option ItemRef) : Bool :=
  d.destItem != some i &&
    match g.world.admission src d i count actor with
    | .refused _ => false
    | .admitted =>
        d.flags.childIsOwner && g.world.full d.cylinder &&
          match g.world.moveCheck src d i count tradeItem with
          | .error _ => false
          | .ok (_, m) =>
              g.world.restUnits i d.destItem m != 0 &&
                !(src == d.cylinder && leavesWhole g.world i m)
    | .exchange o =>
        let w := (g.swap src d.cylinder o).world
        g.world.full src &&
          (w.queryAdd d.cylinder d.index i count d.flags != .noError ||
            match w.moveCheck src d i count tradeItem with
            | .error _ => true
            | .ok (_, m) => !leavesWhole w i m)

theorem leavesWhole_iff {w : World} :
    leavesWhole w i m = true ↔ ¬(w.isStackable i = true ∧ m ≠ w.getItemCount i) := by
  simp only [leavesWhole, Bool.not_eq_true', Bool.and_eq_false_iff, bne_eq_false_iff_eq,
    not_and, ne_eq, not_not]
  cases w.isStackable i <;> simp

theorem Cylinder.ref_eq {c : Cylinder} {r : ItemRef} :
    Cylinder.ref c = some r ↔ c = .container r := by
  cases c <;> simp [Cylinder.ref]

/-- A move into something other than a container makes no list longer. -/
theorem moveUnits_grown (src : Cylinder) (i : ItemRef) (toItem : Option ItemRef) (count : Nat)
    (tradeItem : Option ItemRef) (apart : ∀ r, d.cylinder ≠ .container r) :
    Grown g.world (g.moveUnits src d i toItem count tradeItem).game.world none := by
  unfold moveUnits
  cases g.world.moveCheck src d i count tradeItem with
  | error ret => exact .refl _
  | ok answer =>
      have grown := transfer_grown (g := g) src d.cylinder d.index i toItem answer.2
      have none_ : Cylinder.ref d.cylinder = none := by
        cases hc : d.cylinder with
        | container r => exact absurd hc (apart r)
        | tile pos => rfl
        | player p => rfl
      rw [none_] at grown
      exact (removeThing_grown src i answer.2).trans grown

/-- The source gets shorter where the item leaves it as a whole. -/
theorem moveUnits_shrinks {r : ItemRef} {ret : ReturnValue}
    (check : g.world.moveCheck (.container r) d i count tradeItem = .ok (ret, m))
    (whole : leavesWhole g.world i m = true) (apart : ∀ r, d.cylinder ≠ .container r) :
    (g.moveUnits (.container r) d i toItem count tradeItem).game.world.sizeOf r + 1 ≤
      g.world.sizeOf r := by
  have grown := transfer_grown (g := g) (.container r) d.cylinder d.index i toItem m
  have none_ : Cylinder.ref d.cylinder = none := by
    cases hc : d.cylinder with
    | container r => exact absurd hc (apart r)
    | tile pos => rfl
    | player p => rfl
  have out := removeThing_shrinks (moveCheck_ok check).granted.found (leavesWhole_iff.mp whole)
  have size := grown.size r
  rw [none_, removeThing_world] at size
  simp only [reduceCtorEq, if_false, Nat.add_zero] at size
  unfold moveUnits
  rw [check]
  simp only
  omega

/-- A move that is let in as it is. -/
theorem admitted_within (hw : g.world.Within) (hat : g.world.At d)
    (limit : ∀ r, d.cylinder = .container r → d.flags.noLimit = false)
    (ne : d.destItem ≠ some i)
    (add : g.world.admission src d i count actor = .admitted)
    (fits : g.moveOverfills src d i count actor tradeItem = false) :
    (g.moveUnits src d i d.destItem count tradeItem).game.world.Within := by
  unfold moveUnits
  cases check : g.world.moveCheck src d i count tradeItem with
  | error ret => exact hw
  | ok answer =>
      obtain ⟨ret, m⟩ := answer
      have out := removeThing_grown (g := g) src i m
      have into := transfer_grown (g := g) src d.cylinder d.index i d.destItem m
      simp only
      cases full_ : g.world.full d.cylinder with
      | false =>
          refine (out.trans into).within hw fun r e => ?_
          rw [← Cylinder.ref_eq.mp e]
          exact full_
      | true =>
          obtain ⟨r, hc⟩ : ∃ r, d.cylinder = .container r := by
            cases hc : d.cylinder with
            | container r => exact ⟨r, rfl⟩
            | tile pos => simp [full, hc] at full_
            | player p => simp [full, hc] at full_
          by_cases rest : g.world.restUnits i d.destItem m = 0
          · have none_ := transfer_grown_none ne rest src d.cylinder d.index
            exact (out.trans none_).within hw (by simp)
          · cases child : d.flags.childIsOwner with
            | false =>
                have asked : g.world.queryAdd d.cylinder d.index i count d.flags actor =
                    .noError := by
                  rcases admission_admitted add with asked | exchange
                  · exact asked
                  · rw [hc] at exchange
                    exact absurd exchange container_no_exchange
                exact absurd ((moveCheck_ok check).rest_zero hat hc (limit r hc) child asked
                  full_) rest
            | true =>
                have whole : src = d.cylinder ∧ leavesWhole g.world i m = true := by
                  simpa [moveOverfills, ne, add, child, full_, check, rest] using fits
                refine (out.balance into fun r' e => ?_).within hw (by simp)
                have same := whole.1.trans (Cylinder.ref_eq.mp e)
                have found := (moveCheck_ok check).granted.found
                rw [same] at found ⊢
                rw [removeThing_world]
                exact removeThing_shrinks found (leavesWhole_iff.mp whole.2)

/-- A move that is let in after an exchange. -/
theorem exchange_within (hw : g.world.Within) (ne : d.destItem ≠ some i)
    (h : g.world.admission src d i count actor = .exchange o)
    (fits : g.moveOverfills src d i count actor tradeItem = false) :
    ((g.swap src d.cylinder o).world.queryAdd d.cylinder d.index i count d.flags ≠ .noError →
        (g.swap src d.cylinder o).world.Within) ∧
      ((g.swap src d.cylinder o).world.queryAdd d.cylinder d.index i count d.flags = .noError →
        ((g.swap src d.cylinder o).moveUnits src d i none count tradeItem).game.world.Within) := by
  have into := swap_grown (g := g) src d.cylinder o
  have apart := (admission_exchange h).dst_not_container
  have out := moveUnits_grown (g := g.swap src d.cylinder o) src i none count tradeItem apart
  cases full_ : g.world.full src with
  | false =>
      have swapped : (g.swap src d.cylinder o).world.Within := by
        refine into.within hw fun r e => ?_
        rw [← Cylinder.ref_eq.mp e]
        exact full_
      exact ⟨fun _ => swapped, fun _ => out.within swapped (by simp)⟩
  | true =>
      have kept : (g.swap src d.cylinder o).world.queryAdd d.cylinder d.index i count d.flags =
            .noError ∧
          ∀ answer, (g.swap src d.cylinder o).world.moveCheck src d i count tradeItem = answer →
            ∃ ret m, answer = .ok (ret, m) ∧
              leavesWhole (g.swap src d.cylinder o).world i m = true := by
        simp only [moveOverfills, h, full_, Bool.true_and, Bool.and_eq_false_iff,
          Bool.or_eq_false_iff, bne_eq_false_iff_eq, ne, false_or] at fits
        refine ⟨fits.1, fun answer check => ?_⟩
        rw [check] at fits
        cases answer with
        | error ret => simp at fits
        | ok answer => exact ⟨answer.1, answer.2, rfl, by simpa using fits.2⟩
      obtain ⟨add, kept⟩ := kept
      refine ⟨fun refused => absurd add refused, fun _ => ?_⟩
      obtain ⟨ret, m, check, whole⟩ := kept _ rfl
      refine (into.balance' out fun r e => ?_).within hw (by simp)
      obtain rfl := Cylinder.ref_eq.mp e
      exact moveUnits_shrinks check whole apart

/-- A move keeps all containers within their capacity unless it breaks it in one
of the ways above. -/
theorem internalMoveItem_within (hw : g.world.Within) (fromCylinder toCylinder : Cylinder)
    (index : Int) {flags : Flags} (limit : flags.noLimit = false)
    (fits : g.moveOverfills (g.world.sourceCylinder fromCylinder)
      (g.moveDest i toCylinder index flags) i count actor tradeItem = false) :
    (g.internalMoveItem fromCylinder toCylinder index i count flags actor
      tradeItem).game.world.Within := by
  have hat : g.world.At (g.moveDest i toCylinder index flags) := destination_at rfl
  have limit' : ∀ r, (g.moveDest i toCylinder index flags).cylinder = .container r →
      (g.moveDest i toCylinder index flags).flags.noLimit = false := by
    intro r hr
    rcases redirect_flags hr with given | none
    · exact (congrArg Flags.noLimit given :).trans limit
    · exact congrArg Flags.noLimit none
  have ways := g.internalMoveItem_moves fromCylinder toCylinder index i count flags actor tradeItem
  revert ways fits hat limit'
  generalize g.moveDest i toCylinder index flags = d
  generalize g.world.sourceCylinder fromCylinder = src
  generalize g.internalMoveItem fromCylinder toCylinder index i count flags actor tradeItem = r
  intro fits hat limit' ways
  cases ways with
  | same h => exact hw
  | refused ne h => exact hw
  | admitted ne h => exact admitted_within hw hat limit' ne h fits
  | exchangeOnly ne h add => exact (exchange_within hw ne h fits).1 add
  | exchanged ne h add => exact (exchange_within hw ne h fits).2 add

/-! ### Additions -/

/-- A place in a full container that was given by its index, or asked for as the
owner's child. -/
def placeOverfills (g : Game) (d : Dest) : Bool :=
  (d.index != INDEX_WHEREEVER || d.flags.childIsOwner) && g.world.full d.cylinder

/-- An addition breaks the capacity of a container: the item, none of whose units a
stack takes, is put down at such a place, in the call or in one it makes for a rest. -/
def addOverfills : Nat → Game → Cylinder → ItemRef → Int → Flags → Bool
  | 0, _, _, _, _, _ => false
  | fuel + 1, g, destCylinder, item, index, flags =>
      let d := g.addDest destCylinder item index flags
      g.addCheck destCylinder item index flags == .noError &&
        match g.world.mergeTarget item d.destItem with
        | none => g.placeOverfills d
        | some toItem =>
            let itemCount := g.world.getItemCount item
            let m := min itemCount (g.addMaxCount destCylinder item d).2
            let n := mergeCount (g.world.getItemCount toItem) m
            let g := g.addMerge d toItem n
            decide (m - n > 0) &&
              if itemCount ≠ m - n then
                addOverfills fuel (g.cloneWith item (m - n)) destCylinder g.world.next
                  INDEX_WHEREEVER d.flags
              else g.placeOverfills d

theorem place_grown (d : Dest) (i : ItemRef) :
    Grown g.world (g.place d.cylinder d.index i).world (Cylinder.ref d.cylinder) := by
  unfold Game.place
  refine Grown.trans' ?_ (post_kept _ _ _).grown
  rw [addThing_world]
  exact addThing_grown _ _ _ _

/-- An item that was let in is put down where there is room. -/
theorem place_within (hw : g.world.Within)
    (room : g.world.full d.cylinder = true → d.index = INDEX_WHEREEVER →
      d.flags.childIsOwner = false → False)
    (fits : g.placeOverfills d = false) : (g.place d.cylinder d.index i).world.Within := by
  refine (place_grown d i).within hw fun r e => ?_
  by_contra full_
  have hc := Cylinder.ref_eq.mp e
  rw [← hc, Bool.not_eq_false] at full_
  simp only [placeOverfills, full_, Bool.and_true, Bool.or_eq_false_iff,
    bne_eq_false_iff_eq] at fits
  exact room full_ fits.1 fits.2

/-- A container that is full after a merge was full before it. -/
theorem full_of_grown {g' : Game} {c : Cylinder} (h : Grown g.world g'.world none)
    (hf : g'.world.full c = true) : g.world.full c = true := by
  cases c with
  | tile pos => simp [full] at hf
  | player p => simp [full] at hf
  | container r =>
      obtain ⟨k, hr, page, le⟩ := full_iff.mp hf
      obtain ⟨k', hk', capacity, page'⟩ := shellOf_container hr (h.shell r)
      have size := h.size r
      rw [sizeOf_eq hr, sizeOf_eq hk'] at size
      simp only [reduceCtorEq, if_false, Nat.add_zero] at size
      exact full_iff.mpr ⟨k', hk', page'.trans page, by omega⟩

theorem addCheck_add {c : Cylinder} {flags : Flags} (letIn : g.addCheck c i index flags = .noError) :
    g.world.queryAdd (g.addDest c i index flags).cylinder (g.addDest c i index flags).index i
      (g.world.getItemCount i) (g.addDest c i index flags).flags = .noError := by
  by_contra refused
  simp [addCheck, refused] at letIn

/-- The flags of the answer are the caller's, unless it is a tile's. -/
theorem addDest_limit (g : Game) (i : ItemRef) (index : Int) {c : Cylinder} {flags : Flags}
    (limit : (∀ pos, c ≠ .tile pos) → flags.noLimit = false) :
    (∀ pos, c ≠ .tile pos) → (g.addDest c i index flags).flags.noLimit = false := by
  intro hc
  have same := g.world.queryDestination_flags g.trade.tradeItem i
    (d := { cylinder := c, index, flags }) hc
  exact (congrArg Flags.noLimit same :).trans (limit hc)

/-- Where a full container let the item in, it did so at a named place. -/
theorem addDest_room {c : Cylinder} {flags : Flags}
    (limit : (∀ pos, c ≠ .tile pos) → flags.noLimit = false)
    (letIn : g.addCheck c i index flags = .noError)
    (full_ : g.world.full (g.addDest c i index flags).cylinder = true)
    (place : (g.addDest c i index flags).index = INDEX_WHEREEVER)
    (child : (g.addDest c i index flags).flags.childIsOwner = false) : False := by
  have add := addCheck_add letIn
  have apart : ∀ pos, c ≠ .tile pos := by
    rintro pos rfl
    obtain ⟨q, hq⟩ := g.world.queryDestination_tile g.trade.tradeItem i
      (d := { cylinder := .tile pos, index, flags }) rfl
    simp [addDest, hq, full] at full_
  have limit' := addDest_limit g i index limit apart
  generalize g.addDest c i index flags = d at add full_ place child limit'
  cases hc : d.cylinder with
  | tile pos => simp [hc, full] at full_
  | player p => simp [hc, full] at full_
  | container r =>
      rw [hc, place] at add
      rw [hc, queryAdd_wherever limit' child add] at full_
      cases full_

/-- An addition keeps all containers within their capacity unless it breaks it in
one of the ways above. -/
theorem addItemAux_within {fuel : Nat} {c : Cylinder} {flags : Flags} {test : Bool}
    (hw : g.world.Within) (limit : (∀ pos, c ≠ .tile pos) → flags.noLimit = false)
    (fits : test = true ∨ addOverfills fuel g c i index flags = false) :
    (addItemAux fuel g c i index flags test).game.world.Within := by
  induction fuel generalizing g i index flags test with
  | zero => exact hw
  | succ fuel ih =>
      by_cases letIn : g.addCheck c i index flags = .noError
      · cases test with
        | true => simpa [addItemAux, letIn] using hw
        | false =>
            replace fits := fits.resolve_left Bool.false_ne_true
            have room := addDest_room limit letIn
            have limit' := addDest_limit g i index limit
            rw [addOverfills] at fits
            rw [addItemAux]
            simp only [letIn, beq_self_eq_true, Bool.true_and, ne_eq, not_true_eq_false, if_false,
              Bool.false_eq_true] at fits ⊢
            generalize g.addDest c i index flags = d at room limit' fits ⊢
            cases target : g.world.mergeTarget i d.destItem with
            | none =>
                rw [target] at fits
                exact place_within hw room fits
            | some o =>
                simp only [target] at fits ⊢
                obtain ⟨-, hs, -⟩ := mergeTarget_some target
                generalize min (g.world.getItemCount i) (g.addMaxCount c i d).2 = m at fits ⊢
                generalize mergeCount (g.world.getItemCount o) m = n at fits ⊢
                have merged := addMerge_grown (g := g) d o n
                have stack : (g.addMerge d o n).world.isStackable i = true := by
                  rw [addMerge, updateThing_world]
                  exact (isStackable_of_id (updateThing_items _ _ _ _ _)
                    (updateThing_id _ _ _ _ _)).trans hs
                generalize g.addMerge d o n = g₁ at merged stack fits ⊢
                have within₁ : g₁.world.Within := merged.within hw (by simp)
                by_cases rest : m - n > 0
                · simp only [rest, decide_true, Bool.true_and, if_true] at fits ⊢
                  by_cases part : g.world.getItemCount i = m - n
                  · simp only [part, not_true_eq_false, if_false] at fits ⊢
                    refine place_within within₁ (fun full_ => ?_) fits
                    exact room (full_of_grown merged full_)
                  · simp only [part, not_false_eq_true, if_true] at fits ⊢
                    -- the rest is added by a call of its own
                    have cloned := (cloneWith_grown stack (m - n)).within within₁ (by simp)
                    have nested := ih cloned limit' (.inr fits : false = true ∨ _)
                    split <;> exact nested
                · simp only [rest, if_false] at fits ⊢
                  exact (post_kept _ _ _).grown.within within₁ (by simp)
      · rw [(addItemAux_refused (fuel + 1) test letIn).2]
        exact hw

/-! ### Runs -/

/-- The calls from which a run is made. -/
inductive Call
  | move (fromCylinder toCylinder : Cylinder) (index : Int) (item : ItemRef) (count : Nat)
      (flags : Flags) (actor : Option PlayerId) (tradeItem : Option ItemRef)
  | add (toCylinder : Cylinder) (item : ItemRef) (index : Int) (flags : Flags) (test : Bool)

def Call.flags : Call → Flags
  | .move _ _ _ _ _ flags _ _ => flags
  | .add _ _ _ flags _ => flags

def call (g : Game) : Call → Game
  | .move fromCylinder toCylinder index item count flags actor tradeItem =>
      (g.internalMoveItem fromCylinder toCylinder index item count flags actor tradeItem).game
  | .add toCylinder item index flags test =>
      (g.internalAddItem toCylinder item index flags test).game

/-- The call breaks the capacity of a container. -/
def overfills (g : Game) : Call → Bool
  | .move fromCylinder toCylinder index item count flags actor tradeItem =>
      g.moveOverfills (g.world.sourceCylinder fromCylinder)
        (g.moveDest item toCylinder index flags) item count actor tradeItem
  | .add toCylinder item index flags test =>
      !test && addOverfills (g.world.getItemCount item + 1) g toCylinder item index flags

/-- A run of calls without the flag that lifts all limits, none of which breaks the
capacity of a container. -/
inductive Calls : Game → Game → Prop
  | refl (g : Game) : Calls g g
  | step {g g' : Game} (run : Calls g g') (c : Call) (limit : c.flags.noLimit = false)
      (fits : g'.overfills c = false) : Calls g (g'.call c)

theorem call_within (hw : g.world.Within) (c : Call) (limit : c.flags.noLimit = false)
    (fits : g.overfills c = false) : (g.call c).world.Within := by
  cases c with
  | move fromCylinder toCylinder index item count flags actor tradeItem =>
      exact internalMoveItem_within hw _ _ _ limit fits
  | add toCylinder item index flags test =>
      refine addItemAux_within hw (fun _ => limit) ?_
      cases test with
      | true => exact .inl rfl
      | false => exact .inr (by simpa [overfills] using fits)

theorem Calls.within {g' : Game} (run : Calls g g') (hw : g.world.Within) : g'.world.Within := by
  induction run with
  | refl => exact hw
  | step run c limit fits ih => exact call_within ih c limit fits

/-- In every state of such a run all containers are within their capacity, the
number of free places a player computes does not wrap, and every index he names
for a container is below its capacity. -/
theorem Calls.capacity {g' : Game} (run : Calls g g') (hw : g.world.Within) :
    (∀ r k, g'.world.getContainer r = some k → k.pagination = false →
      k.size ≤ k.capacity ∧
        (BitVec.ofNat 32 k.capacity - BitVec.ofNat 32 k.size).toNat = k.capacity - k.size) ∧
    ∀ (p : PlayerId) (trade : Option ItemRef) (item : ItemRef) (d : Dest), d.cylinder = .player p →
      ∀ r k, (g'.world.playerQueryDestination p trade item d).cylinder = .container r →
        g'.world.getContainer r = some k → k.pagination = false →
          (g'.world.playerQueryDestination p trade item d).index < k.capacity := by
  have within := run.within hw
  exact ⟨fun r k hr page => ⟨within r k hr page, within.free_toNat hr page⟩,
    fun p trade item d hd r k hr hk page => within.index_lt hd hr hk page⟩

end Game

/-! ### A full bag

Fifty arrows and a thing fill a bag of two places. Thirty arrows that must not be
stacked are put in front of them, since the arrows that are there have room. -/

namespace Sample

theorem world_within {store : List Item} {onTile : Tile} {inventory : Nat → Option ItemRef}
    (h : ∀ i ∈ store, i.getContainer.all (fun k => k.pagination || k.size ≤ k.capacity) = true) :
    (world store onTile inventory).Within := by
  intro r k hr page
  simp only [World.getContainer, world] at hr
  cases hs : store[r]? with
  | none => simp [hs, Item.getContainer] at hr
  | some i =>
      have fits := h i (List.mem_of_getElem? hs)
      simp only [hs, Option.getD_some] at hr
      simpa [hr, page] using fits

def bag : Game :=
  game (world
    [{ id := 5, parent := some (.tile here) },
     { id := 3, parent := some (.player 0),
       cls := .container { maxSize := 2, itemlist := [2, 3], rewards_paginated := bag_paginated } },
     { id := 1, parent := some (.container 1) },
     { id := 2, count := 50, parent := some (.container 1) },
     { id := 2, count := 30 }]
    { ground := some 0 } fun slot => if slot = 3 then some 1 else none)

theorem bag_within : bag.world.Within := world_within (by decide)

def stackApart : Game.Call := .add (.container 1) 4 0 { ignoreAutoStack := true } false

/-- The bag holds three items in two places; the free places are counted as all but
one of the 32-bit numbers. -/
theorem bag_overfilled :
    bag.world.Within ∧ stackApart.flags.noLimit = false ∧
      ∃ k, (bag.call stackApart).world.getContainer 1 = some k ∧ k.pagination = false ∧
        k.capacity = 2 ∧ k.size = 3 ∧
        (BitVec.ofNat 32 k.capacity - BitVec.ofNat 32 k.size).toNat = 4294967295 :=
  ⟨bag_within, rfl, _, rfl, by decide⟩

/-- Stacked, the arrows go to those that are there. -/
def stackUp : Game.Call := .add (.container 1) 4 0 {} false

theorem bag_capacity :
    (∀ r k, (bag.call stackUp).world.getContainer r = some k → k.pagination = false →
      k.size ≤ k.capacity ∧
        (BitVec.ofNat 32 k.capacity - BitVec.ofNat 32 k.size).toNat = k.capacity - k.size) ∧
    ∀ (p : PlayerId) (trade : Option ItemRef) (item : ItemRef) (d : Dest), d.cylinder = .player p →
      ∀ r k, ((bag.call stackUp).world.playerQueryDestination p trade item d).cylinder =
          .container r →
        (bag.call stackUp).world.getContainer r = some k → k.pagination = false →
          ((bag.call stackUp).world.playerQueryDestination p trade item d).index < k.capacity :=
  Game.Calls.capacity (.step (.refl bag) stackUp rfl (by decide)) bag_within

end Sample

end TibServer
