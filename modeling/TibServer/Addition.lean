import TibServer.Atomicity

/-!
The accounts of `internalAddItem`. An item that is let in is merged into a stack
with a rest that is added in turn, or put down as it is. The units that are
neither there nor reported as the remainder are counted call by call.
-/

namespace TibServer

namespace World

variable {w w' : World}

/-! ### Worlds stay well formed -/

/-- The cylinders that list something are finitely many. -/
theorem WellFormed.exists_within (hw : WellFormed w) :
    ∃ S : Finset Cylinder, Ledger.Within S w.things := by
  let head (c : Cylinder) : ItemRef := (w.things c).headD 0
  have mem : ∀ {c}, w.things c ≠ [] → head c ∈ w.things c := by
    intro c hc
    obtain ⟨i, l, h⟩ := List.exists_cons_of_ne_nil hc
    simp [head, h]
  have finite : {c | w.things c ≠ []}.Finite := by
    refine Set.Finite.of_injOn (f := head) (t := Set.Iio w.next) ?_ ?_ (Set.finite_Iio _)
    · exact fun c hc => hw.fresh (mem hc)
    · intro p hp q hq e
      exact hw.once.place (mem hp) (e ▸ mem hq)
  refine ⟨finite.toFinset, fun c hc => ?_⟩
  by_contra lists
  exact hc (finite.mem_toFinset.mpr lists)

/-- A stack that is recounted is of its type still. -/
theorem Recounted.typed {i : ItemRef} {n : Nat} (h : Recounted w w' i n) (ht : Typed w) :
    Typed w' := by
  have id : ∀ o, (w'.item o).id = (w.item o).id := by
    intro o
    by_cases e : o = i
    · rw [e, h.id]
    · exact Item.id_of_stack (h.stack o e)
  have shell : ∀ o, (w'.item o).cls.shell = (w.item o).cls.shell := by
    intro o
    by_cases e : o = i
    · rw [e, h.shell]
    · exact Item.shell_of_stack (h.stack o e)
  exact ht.congr h.items id (fun o => getMagicField_of_shell (shell o)) h.tile

/-- So is every listed item when another comes into being. -/
theorem Typed.allocate {x : Item} (ht : Typed w) (hw : WellFormed w)
    (single : x.getMagicField = true → (w.items.type x.id).stackable = false) :
    Typed (w.allocate x) := by
  have same : ∀ {q o}, o ∈ w.things q → (w.allocate x).item o = w.item o := by
    intro q o ho
    have ne : o ≠ w.next := fun e => hw.next_unlisted q (e ▸ ho)
    simp [World.allocate, ne]
  have type : ∀ {q o}, o ∈ w.things q → (w.allocate x).typeOf o = w.typeOf o := by
    intro q o ho
    rw [typeOf, typeOf, same ho]
    rfl
  have listed : ∀ {pos t o}, w.tile pos = some t → (t.ground = some o ∨ o ∈ t.itemList) →
      o ∈ w.things (.tile pos) := by
    intro pos t o htile ho
    simpa [things, htile] using ho
  refine ⟨fun o ho => ?_, fun htile ho => ?_, fun htile ho => ?_, fun htile ho => ?_,
    fun htile ho => ?_⟩
  · by_cases e : o = w.next
    · subst e
      have object : (w.allocate x).item w.next = x := by simp [World.allocate]
      rw [object] at ho
      rw [isStackable, typeOf, object]
      exact single ho
    · have item : (w.allocate x).item o = w.item o := by simp [World.allocate, e]
      rw [item] at ho
      rw [isStackable, typeOf, item]
      exact ht.field o ho
  · rw [type (listed htile (.inl ho))]
    exact ht.ground htile ho
  · rw [isAlwaysOnTop, type (listed htile (.inr (List.mem_of_mem_drop ho)))]
    exact ht.top htile ho
  · rw [isAlwaysOnTop, type (listed htile (.inr (List.mem_of_mem_take ho)))]
    exact ht.down htile ho
  · rw [type (listed htile (.inr ho))]
    exact ht.notGround htile ho

/-- The units of its kind that go when an item is put down: its own where nothing
takes it in, or those it replaces. -/
def placeLoss (w : World) (c : Cylinder) (index : Int) (i : ItemRef) : Nat :=
  (w.displaced c index i).elim 0 (w.units (w.item i).id)

theorem units_self (w : World) (i : ItemRef) : w.units (w.item i).id i = w.unitsOf i := by
  rw [units, if_pos rfl]

end World

namespace Game

open World

variable {g : Game} {c : Cylinder} {i o : ItemRef} {index : Int} {flags : Flags} {n m : Nat}

/-! ### What a call loses -/

/-- The remainder a call reports: the rest of a merge that is refused in turn. -/
def addLeft (g : Game) (destCylinder : Cylinder) (item : ItemRef) (index : Int) (flags : Flags) :
    Nat :=
  let d := g.addDest destCylinder item index flags
  match g.world.mergeTarget item d.destItem with
  | none => 0
  | some toItem =>
      let m := min (g.world.getItemCount item) (g.addMaxCount destCylinder item d).2
      let n := mergeCount (g.world.getItemCount toItem) m
      let g' := g.addMerge d toItem n
      if m - n > 0 ∧ g.world.getItemCount item ≠ m - n ∧
          (g'.cloneWith item (m - n)).addCheck destCylinder g'.world.next INDEX_WHEREEVER
            d.flags ≠ .noError then m - n
      else 0

/-- The units of the item's kind that are lost in a call that is let in: those an
item put down costs, those a full stack cannot count, those beyond what
`queryMaxCount` counted, and what the call for the rest loses or reports. -/
def addLoss : Nat → Game → Cylinder → ItemRef → Int → Flags → Nat
  | 0, _, _, _, _, _ => 0
  | fuel + 1, g, destCylinder, item, index, flags =>
      let d := g.addDest destCylinder item index flags
      match g.world.mergeTarget item d.destItem with
      | none => g.world.placeLoss d.cylinder d.index item
      | some toItem =>
          let itemCount := g.world.getItemCount item
          let m := min itemCount (g.addMaxCount destCylinder item d).2
          let n := mergeCount (g.world.getItemCount toItem) m
          let g' := g.addMerge d toItem n
          let rest := g'.cloneWith item (m - n)
          g.world.overflow item d.destItem m + (itemCount - m) +
            if m - n > 0 then
              if itemCount ≠ m - n then
                if rest.addCheck destCylinder g'.world.next INDEX_WHEREEVER d.flags ≠ .noError
                then 0
                else
                  addLoss fuel rest destCylinder g'.world.next INDEX_WHEREEVER d.flags +
                    rest.addLeft destCylinder g'.world.next INDEX_WHEREEVER d.flags
              else g'.world.placeLoss d.cylinder d.index item
            else 0

/-! ### One call -/

/-- An item that is not in the world yet. -/
structure New (g : Game) (i : ItemRef) : Prop where
  wellFormed : WellFormed g.world
  typed : Typed g.world
  unlisted : ∀ q, i ∉ g.world.things q
  lt_next : i < g.world.next

theorem New.place (h : New g i) (c : Cylinder) (index : Int) :
    WellFormed (g.place c index i).world ∧
      ∀ S, Ledger.Within S (g.place c index i).world.things →
        (g.place c index i).world.total S (g.world.item i).id + g.world.placeLoss c index i =
          g.world.total S (g.world.item i).id + g.world.unitsOf i := by
  have placed : Placed g.world (g.place c index i).world c i (g.world.displaced c index i) := by
    refine Placed.kept ?_ (post_kept _ _ _)
    rw [addThing_world]
    exact addThing_placed index h.wellFormed h.typed h.unlisted h.lt_next
  refine ⟨placed.wellFormed, fun S hS => ?_⟩
  rw [← units_self]
  exact placed.total_within hS _

/-- The game after a merge: one stack counts more. -/
structure AddMerged (g g' : Game) (i : ItemRef) (toItem : Option ItemRef) (m : Nat) : Prop
    extends New g' i where
  items : g'.world.items = g.world.items
  stack : (g'.world.item i).stack = (g.world.item i).stack
  things : g'.world.things = g.world.things
  total : ∀ S, Ledger.Within S g.world.things →
    g'.world.total S (g.world.item i).id + g.world.overflow i toItem m =
      g.world.total S (g.world.item i).id + g.world.mergedUnits i toItem m

theorem New.addMerge (h : New g i) {d : Dest} (ok : g.world.DestOk d)
    (target : g.world.mergeTarget i d.destItem = some o) (m : Nat) :
    AddMerged g (g.addMerge d o (mergeCount (g.world.getItemCount o) m)) i d.destItem m := by
  obtain ⟨destItem, hs, he⟩ := mergeTarget_some target
  have found : g.world.Found d.cylinder o :=
    ok.target_found destItem ((equals_stackable he).trans hs)
  have ne : i ≠ o := fun e => h.unlisted d.cylinder (e ▸ found.mem)
  obtain ⟨recounted, account⟩ := updateThing_merged (m := m) h.wellFormed target found
  unfold Game.addMerge
  refine ⟨⟨?_, ?_, ?_, ?_⟩, ?_, ?_, ?_, ?_⟩ <;> rw [updateThing_world]
  · exact h.wellFormed.touched recounted.toTouched
  · exact recounted.typed h.typed
  · exact recounted.things ▸ h.unlisted
  · exact lt_of_lt_of_le h.lt_next recounted.next
  · exact recounted.items
  · exact recounted.stack i ne
  · exact recounted.things
  · intro S hS
    have mem : d.cylinder ∈ S := by
      by_contra out
      have lists := found.mem
      rw [hS _ out] at lists
      simp at lists
    simpa using account mem (g.world.item i).id

/-- The rest of a stack that was merged is new again. -/
theorem New.cloneWith (h : New g i) (hs : g.world.isStackable i = true) (hn : n < 256) :
    New (g.cloneWith i n) g.world.next := by
  have cloned := cloneWith_cloned h.wellFormed hs hn
  refine ⟨h.wellFormed.touched cloned.touched, ?_, ?_, cloned.lt_next⟩
  · refine h.typed.allocate h.wellFormed fun field => ?_
    have cls := cloned.cls
    simp only [Game.cloneWith, setWorld_world, World.allocate, Function.update_self] at cls
    rw [Item.getMagicField, cls] at field
    exact absurd field (by decide)
  · rw [cloned.touched.things]
    exact h.wellFormed.next_unlisted

/-- What a call that is let in comes to. -/
structure Adds (g : Game) (i : ItemRef) (r : AddResult) (left loss : Nat) : Prop where
  ret : r.ret = .noError
  wellFormed : WellFormed r.game.world
  remainder : r.remainderCount = left
  total : ∀ S, Ledger.Within S g.world.things → Ledger.Within S r.game.world.things →
    r.game.world.total S (g.world.item i).id + left + loss =
      g.world.total S (g.world.item i).id + g.world.unitsOf i

theorem addDest_ok (g : Game) (c : Cylinder) (i : ItemRef) (index : Int) (flags : Flags) :
    g.world.DestOk (g.addDest c i index flags) := by
  refine queryDestination_ok _ _ ?_
  unfold Asked
  split <;> simp

/-! ### All calls -/

theorem addItemAux_refused {c : Cylinder} (fuel : Nat) (test : Bool)
    (h : g.addCheck c i index flags ≠ .noError) :
    (addItemAux fuel g c i index flags test).ret ≠ .noError ∧
      (addItemAux fuel g c i index flags test).game = g := by
  cases fuel with
  | zero => simp [addItemAux]
  | succ fuel => simp [addItemAux, h]

/-- The account of `internalAddItem`, with the calls it makes for the rest. -/
theorem addItemAux_adds {fuel : Nat} {c : Cylinder} (h : New g i)
    (enough : g.world.getItemCount i < fuel) (letIn : g.addCheck c i index flags = .noError) :
    Adds g i (addItemAux fuel g c i index flags false) (g.addLeft c i index flags)
      (addLoss fuel g c i index flags) := by
  -- each rest counts fewer units than the stack it is left of
  induction fuel generalizing g i index flags with
  | zero => omega
  | succ fuel ih =>
      have ok := g.addDest_ok c i index flags
      rw [addItemAux, addLeft, addLoss]
      simp only [letIn, ne_eq, not_true_eq_false, if_false, Bool.false_eq_true]
      generalize hd : g.addDest c i index flags = d at ok ⊢
      cases target : g.world.mergeTarget i d.destItem with
      | none =>
          obtain ⟨wellFormed, account⟩ := h.place d.cylinder d.index
          exact ⟨rfl, wellFormed, rfl, fun S _ hS => account S hS⟩
      | some o =>
          obtain ⟨-, hs, -⟩ := mergeTarget_some target
          have units : g.world.unitsOf i = g.world.getItemCount i := by rw [unitsOf, if_pos hs]
          have fits : g.world.getItemCount i < 256 := Item.getItemCount_lt _
          have maxLe := Nat.min_le_left (g.world.getItemCount i) (g.addMaxCount c i d).2
          generalize min (g.world.getItemCount i) (g.addMaxCount c i d).2 = m at maxLe ⊢
          have merged := h.addMerge ok target m
          have le := g.world.mergedUnits_le i d.destItem m
          have account := merged.total
          have into : g.world.mergedUnits i d.destItem m =
              mergeCount (g.world.getItemCount o) m := by simp only [mergedUnits, target]
          rw [into] at account le
          simp only
          generalize mergeCount (g.world.getItemCount o) m = n at merged account le ⊢
          generalize g.addMerge d o n = g₁ at merged account ⊢
          have same : (g₁.world.item i).id = (g.world.item i).id := Item.id_of_stack merged.stack
          have hs₁ : g₁.world.isStackable i = true := by
            rw [isStackable_of_id merged.items same, hs]
          have units₁ : g₁.world.unitsOf i = g.world.getItemCount i := by
            rw [unitsOf, if_pos hs₁]
            exact Item.getItemCount_of_stack merged.stack
          by_cases rest : m - n > 0
          · by_cases part : g.world.getItemCount i = m - n
            · -- nothing was merged, the item itself is put down
              obtain ⟨wellFormed, put⟩ := merged.toNew.place d.cylinder d.index
              simp only [rest, part, not_true_eq_false, if_true, if_false, false_and, and_false]
              refine ⟨rfl, wellFormed, rfl, fun S before after => ?_⟩
              have account := account S before
              have put := put S after
              rw [same, units₁] at put
              rw [units]
              simp only
              omega
            · -- the rest is a new stack, added in turn
              have small : m - n < 256 := by omega
              have new := merged.toNew.cloneWith hs₁ small
              have cloned := cloneWith_cloned merged.wellFormed hs₁ small
              have unitsRest := cloned.unitsOf hs₁
              have idRest := cloned.id.trans same
              have things : (g₁.cloneWith i (m - n)).world.things = g.world.things :=
                cloned.touched.things.trans merged.things
              have born := fun S => cloned.touched.total (S := S)
                merged.wellFormed.next_unlisted (g.world.item i).id
              have fewer : (g₁.cloneWith i (m - n)).world.getItemCount g₁.world.next < fuel := by
                rw [cloned.count]
                omega
              generalize g₁.cloneWith i (m - n) = g₂ at new cloned unitsRest idRest things born fewer ⊢
              simp only [rest, part, not_false_eq_true, if_true, true_and]
              by_cases again : g₂.addCheck c g₁.world.next INDEX_WHEREEVER d.flags = .noError
              · have nested := ih new fewer again
                simp only [nested.ret, again, not_true_eq_false, if_false]
                refine ⟨rfl, nested.wellFormed, rfl, fun S before after => ?_⟩
                have account := account S before
                have put := nested.total S (things ▸ before) after
                rw [idRest, unitsRest, born] at put
                rw [units]
                dsimp only
                omega
              · obtain ⟨refused, unchanged⟩ := addItemAux_refused fuel false again
                simp only [refused, again, not_false_eq_true, if_true, unchanged]
                refine ⟨rfl, new.wellFormed, rfl, fun S before _ => ?_⟩
                have account := account S before
                rw [born, units]
                omega
          · simp only [rest, false_and, if_false]
            have kept := post_kept g₁ d.cylinder (g₁.world.getThingIndex d.cylinder o)
            refine ⟨rfl, merged.wellFormed.kept kept, rfl, fun S before _ => ?_⟩
            have account := account S before
            rw [kept.total, units]
            omega

theorem internalAddItem_test {c : Cylinder}
    (letIn : g.addCheck c i index flags = .noError) :
    g.internalAddItem c i index flags true = { ret := .noError, game := g } := by
  simp [internalAddItem, addItemAux, letIn]

end Game

/-! ### A quiver

The player's slot for ammunition has room for thirty of fifty arrows. -/

namespace Sample

def quiver : Game :=
  game (world
    [{ id := 5, parent := some (.tile here) },
     { id := 2, count := 70, parent := some (.player 0) },
     { id := 2, count := 50 },
     { id := 8, parent := some (.player 0) }]
    { ground := some 0 }
    fun slot => if slot = 10 then some 1 else if slot = 6 then some 3 else none)

theorem quiver_new : quiver.New 2 where
  wellFormed := world_wellFormed (by decide) (by decide)
  typed := world_typed (by decide) (by rintro o ⟨⟩; rfl) (by decide) (by decide) (by decide)
  unlisted := world_unlisted (by decide)
  lt_next := by decide

end Sample

end TibServer
