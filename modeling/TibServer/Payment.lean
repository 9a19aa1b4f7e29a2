import TibServer.Money
import TibServer.Addition

/-!
Where the coins of `addMoney` come to lie. A new stack is merged into another, put
down, or lost, call by call of `internalAddItem`; the units of its kind are counted
over a set of cylinders, and no other kind changes there. From this the worth in
these cylinders grows by the amount, exactly when the stacks are worth the amount and
each of them is taken in whole.
-/

namespace TibServer

namespace World

variable {w w' : World} {c : Cylinder} {i o : ItemRef} {S : Finset Cylinder}

/-! ### Cylinders apart -/

/-- A change that is accounted for wherever one cylinder is counted is not seen where
it is not. -/
theorem total_elsewhere {id a b : Nat} (hc : c ∉ S)
    (account : ∀ S : Finset Cylinder, c ∈ S → w'.total S id + a = w.total S id + b) :
    w'.total S id = w.total S id := by
  have alone := account {c} (Finset.mem_singleton_self c)
  have both := account (insert c S) (Finset.mem_insert_self c S)
  simp only [total, Ledger.total, Finset.sum_insert hc, Finset.sum_singleton] at alone both ⊢
  omega

/-! ### A stack takes nobody's place -/

theorem isMagicField_of_stackable (hs : w.isStackable i = true) :
    (w.typeOf i).isMagicField = false := by
  have plain := w.items.stackable_isPlain _ hs
  simp only [ItemType.isPlain, Bool.and_eq_true, Bool.or_eq_true, beq_iff_eq] at plain
  obtain ⟨-, ((type | type) | type) | type⟩ := plain <;>
    simp [ItemType.isMagicField, typeOf, type]

theorem replacedItem_stackable (hs : w.isStackable i = true) (t : Tile) :
    w.replacedItem t i = none := by
  have ground : (w.typeOf i).isGroundTile = false := w.items.stackable_not_ground hs
  have down : (w.typeOf i).alwaysOnTop = false := w.items.stackable_down _ hs
  simp only [replacedItem, ground, down, isMagicField_of_stackable hs, Bool.false_eq_true,
    if_false]

/-- On a tile or in a container. -/
theorem displaced_stackable (hs : w.isStackable i = true) (index : Int)
    (hc : ∀ p, c ≠ .player p) :
    w.displaced c index i = none ∨ w.displaced c index i = some i := by
  cases c with
  | player p => exact absurd rfl (hc p)
  | container r =>
      simp only [displaced]
      split
      · exact .inr rfl
      · exact .inl rfl
  | tile pos =>
      have ground : (w.typeOf i).isGroundTile = false := w.items.stackable_not_ground hs
      have down : (w.typeOf i).alwaysOnTop = false := w.items.stackable_down _ hs
      simp only [displaced]
      split
      · exact .inr rfl
      · cases w.tile pos with
        | none => exact .inl rfl
        | some t =>
            simp only [Option.bind_some, standsFor, ground, down, isMagicField_of_stackable hs,
              Bool.false_eq_true, if_false]
            split
            · exact .inr rfl
            · exact .inl rfl

/-! ### Tiles stay what they are -/

/-- A tile as it was, flags apart, or with the item on top of its down items. -/
def Heaped (t t' : Tile) (i : ItemRef) : Prop :=
  t'.bare = t.bare ∨ t'.bare = { t with itemList := i :: t.itemList,
                                        downItemCount := t.downItemCount + 1 }.bare

theorem tileAddThing_heaped (hs : w.isStackable i = true) {pos q : Position} {t' : Tile}
    (h : (w.tileAddThing pos i).tile q = some t') : ∃ t, w.tile q = some t ∧ Heaped t t' i := by
  have ground : (w.typeOf i).isGroundTile = false := w.items.stackable_not_ground hs
  have down : (w.typeOf i).alwaysOnTop = false := w.items.stackable_down _ hs
  unfold tileAddThing at h
  split at h
  · exact ⟨t', h, .inl rfl⟩
  · next t htile =>
      split at h
      · exact ⟨t', h, .inl rfl⟩
      · have kept := setParent_kept w i (some (.tile pos))
        have tile : (w.setItem i (·.setParent (some (.tile pos)))).tile = w.tile := rfl
        have free := (kept.replacedItem t i).trans (replacedItem_stackable hs t)
        simp only [free, tileInsert, tile, htile, kept.typeOf, isAlwaysOnTop, ground, down,
          Bool.false_eq_true, if_false] at h
        by_cases hq : q = pos
        · subst hq
          rw [setTile_tile_self, Option.some.injEq] at h
          subst h
          exact ⟨t, htile, .inr rfl⟩
        · have same : w.tile q = some t' := by simpa [setTile, hq] using h
          exact ⟨t', same, .inl rfl⟩

theorem addThing_heaped (hs : w.isStackable i = true) {index : Int} {q : Position} {t' : Tile}
    (h : (w.addThing c index i).tile q = some t') : ∃ t, w.tile q = some t ∧ Heaped t t' i := by
  cases c with
  | tile pos => exact tileAddThing_heaped hs h
  | player p =>
      have same : (w.addThing (.player p) index i).tile = w.tile := by
        simp only [addThing, playerAddThing]
        split <;> rfl
      exact ⟨t', same ▸ h, .inl rfl⟩
  | container r =>
      simp only [addThing, containerAddThing] at h
      split at h
      · exact ⟨t', h, .inl rfl⟩
      · split at h
        · exact ⟨t', h, .inl rfl⟩
        · unfold pushFront at h
          split at h
          · exact ⟨t', h, .inl rfl⟩
          · exact ⟨t', h, .inl rfl⟩
          · obtain ⟨t, ht, bare⟩ := Kept.bare (updateItemWeight_kept _ _ _) h
            exact ⟨t, ht, .inl bare⟩

theorem Typed.heaped (ht : Typed w) (hs : w.isStackable i = true) (items : w'.items = w.items)
    (stack : ∀ o, (w'.item o).stack = (w.item o).stack)
    (tile : ∀ {pos t'}, w'.tile pos = some t' → ∃ t, w.tile pos = some t ∧ Heaped t t' i) :
    Typed w' := by
  have same : ∀ o, (w'.item o).id = (w.item o).id := fun o => Item.id_of_stack (stack o)
  have lists : ∀ {pos t' o}, w'.tile pos = some t' → ∃ t, w.tile pos = some t ∧
      (t'.ground = some o → t.ground = some o) ∧ (o ∈ t'.topItems → o ∈ t.topItems) ∧
      (o ∈ t'.downItems → o = i ∨ o ∈ t.downItems) ∧
      (o ∈ t'.itemList → o = i ∨ o ∈ t.itemList) := by
    intro pos t' o h
    obtain ⟨t, ht', bare | bare⟩ := tile h
    · have ground : t'.ground = t.ground := (congrArg Tile.ground bare :)
      have top : t'.topItems = t.topItems := (congrArg Tile.topItems bare :)
      have down : t'.downItems = t.downItems := (congrArg Tile.downItems bare :)
      have list : t'.itemList = t.itemList := (congrArg Tile.itemList bare :)
      rw [ground, top, down, list]
      exact ⟨t, ht', id, id, .inr, .inr⟩
    · have ground : t'.ground = t.ground := (congrArg Tile.ground bare :)
      have top : t'.topItems = t.topItems := (congrArg Tile.topItems bare :)
      have down : t'.downItems = i :: t.downItems := (congrArg Tile.downItems bare :)
      have list : t'.itemList = i :: t.itemList := (congrArg Tile.itemList bare :)
      rw [ground, top, down, list]
      exact ⟨t, ht', id, id, List.mem_cons.mp, List.mem_cons.mp⟩
  have stackType : ∀ o, w'.typeOf o = w.typeOf o := fun o => typeOf_of_id items (same o)
  refine ⟨fun o ho => ?_, fun htile ho => ?_, fun htile ho => ?_, fun htile ho => ?_,
    fun htile ho => ?_⟩
  · rw [getMagicField_of_stack (stack o)] at ho
    rw [isStackable, stackType]
    exact ht.field o ho
  · obtain ⟨t, ht', ground, -⟩ := lists htile
    rw [stackType]
    exact ht.ground ht' (ground ho)
  · obtain ⟨t, ht', -, top, -⟩ := lists htile
    rw [isAlwaysOnTop, stackType]
    exact ht.top ht' (top ho)
  · obtain ⟨t, ht', -, -, down, -⟩ := lists htile
    rw [isAlwaysOnTop, stackType]
    rcases down ho with rfl | old
    · exact w.items.stackable_down _ hs
    · exact ht.down ht' old
  · obtain ⟨t, ht', -, -, -, list⟩ := lists htile
    rw [stackType]
    rcases list ho with rfl | old
    · exact w.items.stackable_not_ground hs
    · exact ht.notGround ht' old

/-- The units of a stack put down that are not in the cylinders of `S`: it is put down
elsewhere, or not taken in. -/
def outside (w : World) (S : Finset Cylinder) (c : Cylinder) (index : Int) (i : ItemRef) : Nat :=
  if c ∈ S ∧ w.displaced c index i = none then 0 else w.unitsOf i

end World

namespace Game

open World

variable {g : Game} {S : Finset Cylinder} {c : Cylinder} {i o : ItemRef} {index : Int}
  {flags : Flags} {d : Dest} {n m : Nat}

/-! ### One stack -/

/-- The units of a new stack that do not come to lie in the cylinders of `S`: those put
down elsewhere, merged elsewhere, uncounted by a full stack or by `queryMaxCount`, and
those of a rest that is refused. -/
def strayed (S : Finset Cylinder) : Nat → Game → Cylinder → ItemRef → Int → Flags → Nat
  | 0, _, _, _, _, _ => 0
  | fuel + 1, g, destCylinder, item, index, flags =>
      let d := g.addDest destCylinder item index flags
      match g.world.mergeTarget item d.destItem with
      | none => g.world.outside S d.cylinder d.index item
      | some toItem =>
          let itemCount := g.world.getItemCount item
          let m := min itemCount (g.addMaxCount destCylinder item d).2
          let n := mergeCount (g.world.getItemCount toItem) m
          let g' := g.addMerge d toItem n
          let rest := g'.cloneWith item (m - n)
          (if d.cylinder ∈ S then g.world.overflow item d.destItem m else n) + (itemCount - m) +
            if m - n > 0 then
              if itemCount ≠ m - n then
                if rest.addCheck destCylinder g'.world.next INDEX_WHEREEVER d.flags ≠ .noError
                then m - n
                else strayed S fuel rest destCylinder g'.world.next INDEX_WHEREEVER d.flags
              else g'.world.outside S d.cylinder d.index item
            else 0

/-- The game after a new stack was added, of which some units are lost to `S`. -/
structure Received (S : Finset Cylinder) (g g' : Game) (i : ItemRef) (lost : Nat) : Prop where
  wellFormed : WellFormed g'.world
  typed : Typed g'.world
  items : g'.world.items = g.world.items
  total : ∀ id, g'.world.total S id + (if (g.world.item i).id = id then lost else 0) =
    g.world.total S id + g.world.units id i

/-! ### Where it is sent -/

theorem searchSlots_stack {w : World} {p : PlayerId} {tradeItem : Option ItemRef} {autoStack : Bool}
    {l : List Nat} {found : List ItemRef} {s : Nat}
    (h : w.searchSlots p tradeItem i flags autoStack l found = .found s (some o)) :
    w.isStackable i = true ∧ w.equals i o = true ∧ w.getItemCount o < 100 := by
  induction l generalizing found with
  | nil => simp [searchSlots] at h
  | cons x l ih =>
      simp only [searchSlots] at h
      split at h
      · split at h
        · exact ih h
        · split at h
          · next good =>
              obtain ⟨-, e⟩ := SlotSearch.found.inj h
              obtain rfl := Option.some.inj e
              simp only [Bool.and_eq_true, decide_eq_true_eq] at good
              exact ⟨good.1.1.1.2, (Item.equals_comm _ _).trans good.1.2, good.2⟩
          · exact ih h
      · split at h
        · exact absurd (SlotSearch.found.inj h).2 (by simp)
        · exact ih h

/-- A slot that is not free holds a stack with room for one of its kind. -/
theorem addDest_player {p : PlayerId} (hd : g.addDest c i INDEX_WHEREEVER flags = d)
    (hp : d.cylinder = .player p) (ho : d.destItem = some o) :
    g.world.isStackable i = true ∧ g.world.equals i o = true ∧ g.world.getItemCount o < 100 := by
  subst hd
  unfold addDest queryDestination at hp ho
  cases c with
  | tile pos => simp [tileQueryDestination] at hp
  | container r =>
      obtain ⟨q, hq⟩ := containerQueryDestination_container (w := g.world) (c := r) (i := i)
        (d := { cylinder := .container r, index := INDEX_WHEREEVER, flags }) rfl
      rw [hq] at hp
      exact absurd hp (by simp)
  | player q =>
      simp only [playerQueryDestination, or_true, if_true] at hp ho
      split at ho
      · next s x found =>
          simp only at ho
          subst ho
          exact searchSlots_stack found
      · next l none =>
          rw [none] at hp
          cases search : g.world.searchContainers (g.trade.tradeItem q) i flags
              (!flags.ignoreAutoStack) g.world.walkFuel l with
          | none => simp [search] at ho
          | some d' =>
              obtain ⟨r, hr, -⟩ := searchContainers_ok search
              simp only [search, Option.getD_some, hr] at hp
              exact absurd hp (by simp)

theorem New.addThing_typed (h : New g i) (hs : g.world.isStackable i = true) (c : Cylinder)
    (index : Int) : Typed (g.world.addThing c index i) := by
  have placed := addThing_placed index h.wellFormed h.typed h.unlisted h.lt_next (c := c)
  exact h.typed.heaped hs placed.items placed.stack (addThing_heaped hs)

theorem New.received_place (h : New g i) (typed : Typed (g.world.addThing c index i))
    (vacant : g.world.displaced c index i = none ∨ g.world.displaced c index i = some i) :
    Received S g (g.place c index i) i (g.world.outside S c index i) := by
  have placed := addThing_placed index h.wellFormed h.typed h.unlisted h.lt_next (c := c)
  have kept : Kept (g.world.addThing c index i) (g.place c index i).world := by
    rw [← addThing_world]
    exact post_kept _ _ _
  refine ⟨placed.wellFormed.kept kept, kept.typed typed, kept.items.trans placed.items,
    fun id => ?_⟩
  rw [kept.total]
  rcases vacant with free | gone
  · rw [free] at placed
    simp only [outside, free, and_true]
    by_cases hc : c ∈ S
    · have account := placed.total (fun _ => hc) id
      simpa only [hc, if_true, ite_self, Option.elim_none] using account
    · have account := total_elsewhere hc fun T hT => placed.total (fun _ => hT) id
      simp only [hc, if_false, account, units]
  · rw [gone] at placed
    have account := placed.total (S := S) (absurd rfl) id
    rw [Option.elim_some] at account
    simp only [outside, gone, reduceCtorEq, and_false, if_false, units] at account ⊢
    omega

theorem addDest_vacant (hs : g.world.isStackable i = true)
    (hd : g.addDest c i INDEX_WHEREEVER flags = d)
    (target : g.world.mergeTarget i d.destItem = none) :
    g.world.displaced d.cylinder d.index i = none ∨
      g.world.displaced d.cylinder d.index i = some i := by
  have ok : g.world.DestOk d := hd ▸ g.addDest_ok c i INDEX_WHEREEVER flags
  cases hc : d.cylinder with
  | tile pos => exact displaced_stackable hs _ (by simp)
  | container r => exact displaced_stackable hs _ (by simp)
  | player p =>
      rw [DestOk, hc] at ok
      simp only [displaced]
      split
      · exact .inr rfl
      · rw [← ok]
        cases ho : d.destItem with
        | none => exact .inl rfl
        | some o =>
            obtain ⟨-, he, -⟩ := addDest_player hd hc ho
            rw [ho, mergeTarget_equals hs he] at target
            simp at target

/-- A stack none of which can be merged was not sent to a slot. -/
theorem addDest_unmerged (hd : g.addDest c i INDEX_WHEREEVER flags = d)
    (target : g.world.mergeTarget i d.destItem = some o) (pos : 0 < m)
    (none : mergeCount (g.world.getItemCount o) m = 0) (p : PlayerId) :
    d.cylinder ≠ .player p := by
  intro hp
  obtain ⟨-, -, room⟩ := addDest_player hd hp (mergeTarget_some target).1
  simp only [mergeCount, BitVec.toNat_ofInt] at none
  omega

/-! ### One merge -/

theorem New.addMerge_account (h : New g i) (ok : g.world.DestOk d)
    (target : g.world.mergeTarget i d.destItem = some o) (m id : Nat) :
    (g.addMerge d o (mergeCount (g.world.getItemCount o) m)).world.total S id +
        (if (g.world.item i).id = id then
          if d.cylinder ∈ S then g.world.overflow i d.destItem m
          else mergeCount (g.world.getItemCount o) m
        else 0) =
      g.world.total S id +
        if (g.world.item i).id = id then mergeCount (g.world.getItemCount o) m else 0 := by
  obtain ⟨destItem, hs, he⟩ := mergeTarget_some target
  have found : g.world.Found d.cylinder o :=
    ok.target_found destItem ((equals_stackable he).trans hs)
  obtain ⟨-, account⟩ := updateThing_merged (m := m) h.wellFormed target found
  simp only [mergedUnits, target] at account
  unfold Game.addMerge
  rw [updateThing_world]
  by_cases hc : d.cylinder ∈ S
  · simp only [hc, if_true]
    exact account hc id
  · simp only [hc, if_false]
    rw [total_elsewhere hc fun T hT => account hT id]

/-! ### All calls -/

/-- What `internalAddItem` does with a new stack that is let in. -/
theorem addItemAux_received {fuel : Nat} (h : New g i) (hs : g.world.isStackable i = true)
    (enough : g.world.getItemCount i < fuel)
    (letIn : g.addCheck c i INDEX_WHEREEVER flags = .noError) :
    Received S g (addItemAux fuel g c i INDEX_WHEREEVER flags false).game i
      (strayed S fuel g c i INDEX_WHEREEVER flags) := by
  -- each rest counts fewer units than the stack it is left of
  induction fuel generalizing g i flags with
  | zero => omega
  | succ fuel ih =>
      have ok := g.addDest_ok c i INDEX_WHEREEVER flags
      rw [addItemAux, strayed]
      simp only [letIn, ne_eq, not_true_eq_false, if_false, Bool.false_eq_true]
      generalize hd : g.addDest c i INDEX_WHEREEVER flags = d at ok ⊢
      cases target : g.world.mergeTarget i d.destItem with
      | none => exact h.received_place (h.addThing_typed hs _ _) (addDest_vacant hs hd target)
      | some o =>
          have units : g.world.unitsOf i = g.world.getItemCount i := by rw [unitsOf, if_pos hs]
          have fits : g.world.getItemCount i < 256 := Item.getItemCount_lt _
          have maxLe := Nat.min_le_left (g.world.getItemCount i) (g.addMaxCount c i d).2
          generalize min (g.world.getItemCount i) (g.addMaxCount c i d).2 = m at maxLe ⊢
          have merged := h.addMerge ok target m
          have account := h.addMerge_account (S := S) ok target m
          have le := g.world.mergedUnits_le i d.destItem m
          simp only [mergedUnits, target] at le
          have unmerged := addDest_unmerged (m := m) hd target
          simp only
          generalize mergeCount (g.world.getItemCount o) m = n at merged account le unmerged ⊢
          generalize (if d.cylinder ∈ S then g.world.overflow i d.destItem m else n) = waste
            at account ⊢
          generalize g.addMerge d o n = g₁ at merged account ⊢
          have same : (g₁.world.item i).id = (g.world.item i).id := Item.id_of_stack merged.stack
          have hs₁ : g₁.world.isStackable i = true := by
            rw [isStackable_of_id merged.items same, hs]
          have units₁ : g₁.world.unitsOf i = g.world.getItemCount i := by
            rw [unitsOf, if_pos hs₁]
            exact Item.getItemCount_of_stack merged.stack
          by_cases rest : m - n > 0
          · by_cases part : g.world.getItemCount i = m - n
            · -- nothing was merged, the item itself is put down
              have vacant := displaced_stackable hs₁ d.index (unmerged (by omega) (by omega))
              have put := merged.toNew.received_place (S := S)
                (merged.toNew.addThing_typed hs₁ _ _) vacant
              simp only [rest, part, not_true_eq_false, if_true, if_false]
              refine ⟨put.wellFormed, put.typed, put.items.trans merged.items, fun id => ?_⟩
              have account := account id
              have put := put.total id
              simp only [World.units, units₁, units, same] at put ⊢
              split_ifs at account put ⊢ <;> omega
            · -- the rest is a new stack, added in turn
              have small : m - n < 256 := by omega
              have new := merged.toNew.cloneWith hs₁ small
              have cloned := cloneWith_cloned merged.wellFormed hs₁ small
              have unitsRest := cloned.unitsOf hs₁
              have idRest := cloned.id.trans same
              have born := fun S => cloned.touched.total (S := S)
                merged.wellFormed.next_unlisted
              have stackRest : (g₁.cloneWith i (m - n)).world.isStackable g₁.world.next = true := by
                rw [isStackable, typeOf, cloned.id, cloned.touched.items]
                exact hs₁
              have fewer : (g₁.cloneWith i (m - n)).world.getItemCount g₁.world.next < fuel := by
                rw [cloned.count]
                omega
              have items := cloned.touched.items.trans merged.items
              generalize g₁.cloneWith i (m - n) = g₂ at new unitsRest idRest born stackRest fewer items ⊢
              simp only [rest, part, not_false_eq_true, if_true]
              by_cases again : g₂.addCheck c g₁.world.next INDEX_WHEREEVER d.flags = .noError
              · have nested := ih new stackRest fewer again
                simp only [again, not_true_eq_false, if_false, apply_ite AddResult.game, ite_self]
                refine ⟨nested.wellFormed, nested.typed, nested.items.trans items, fun id => ?_⟩
                have account := account id
                have put := nested.total id
                rw [World.units, idRest, unitsRest, born] at put
                rw [World.units, units]
                split_ifs at account put ⊢ <;> omega
              · obtain ⟨refused, unchanged⟩ := addItemAux_refused fuel false again
                simp only [refused, again, not_false_eq_true, if_true, unchanged]
                refine ⟨new.wellFormed, new.typed, items, fun id => ?_⟩
                have account := account id
                rw [born, World.units, units]
                split_ifs at account ⊢ <;> omega
          · simp only [rest, if_false]
            have kept := post_kept g₁ d.cylinder (g₁.world.getThingIndex d.cylinder o)
            refine ⟨merged.wellFormed.kept kept, kept.typed merged.typed,
              kept.items.trans merged.items, fun id => ?_⟩
            have account := account id
            rw [kept.total, World.units, units]
            split_ifs at account ⊢ <;> omega

/-! ### A new stack of coins -/

/-- A type of stacks that items can be made of. -/
structure Minted (items : Items) (type : Nat) : Prop where
  stackable : (items.type type).stackable = true
  id : (items.type type).id ≠ 0

theorem constructItem_stack {w : World} {type count : Nat} (cls : ItemClass)
    (hs : (w.items.type type).stackable = true) (some : count ≠ 0) :
    (w.constructItem type count cls).getItemCount = count % 256 := by
  have fluid := w.items.stackable_not_fluid hs
  have splash := w.items.stackable_not_splash hs
  have kept : ∀ (b : Prop) [Decidable b] (x : Item) (n : Int),
      (if b then x.setIntAttr .duration n else x).getItemCount = x.getItemCount := by
    intro b _ x n
    split_ifs <;> rfl
  simp only [constructItem, fluid, splash, hs, Bool.or_self, Bool.false_eq_true, if_false, if_true,
    if_pos some, kept, Item.setItemCount_getItemCount]

theorem createItem_minted {w : World} {s : Coins} (minted : Minted w.items s.type) :
    ∃ x, w.createItem s.type s.count = some x ∧ x.id = s.type ∧ x.cls = .item ∧
      x.getItemCount = s.created := by
  have group := w.items.stackable_group minted.stackable
  have plain := classOf_plain (w.items.stackable_isPlain _ minted.stackable)
  have same := w.items.stackable_createdId _ minted.stackable
  have some : (if s.count = 0 then 1 else s.count) ≠ 0 := by split_ifs <;> omega
  refine ⟨w.constructItem s.type (if s.count = 0 then 1 else s.count) .item, ?_,
    constructItem_id .., constructItem_cls .., constructItem_stack _ minted.stackable some⟩
  simp only [createItem, group, minted.stackable, minted.id, plain, same, reduceCtorEq, if_false,
    Bool.true_and, beq_iff_eq]

/-- The stack lies nowhere yet. -/
def mint (g : Game) (x : Item) : Game := g.setWorld (g.world.allocate x)

/-- The units of a stack of coins that do not come to lie in the cylinders of `S`: both
calls refuse it, or the one that does not loses some. -/
def coinsLost (S : Finset Cylinder) (g : Game) (cylinder : Cylinder) (flags : Flags)
    (s : Coins) : Nat :=
  match g.world.createItem s.type s.count with
  | none => s.created
  | some x =>
      let coins := g.world.next
      let g := g.mint x
      if g.addCheck cylinder coins INDEX_WHEREEVER flags = .noError then
        strayed S (g.world.getItemCount coins + 1) g cylinder coins INDEX_WHEREEVER flags
      else
        match g.world.tileOf cylinder with
        | none => s.created
        | some pos =>
            if g.addCheck (.tile pos) coins INDEX_WHEREEVER { noLimit := true } = .noError then
              strayed S (g.world.getItemCount coins + 1) g (.tile pos) coins INDEX_WHEREEVER
                { noLimit := true }
            else s.created

/-- Worlds in which lists and tiles are in order. -/
structure Sound (g : Game) : Prop where
  wellFormed : WellFormed g.world
  typed : Typed g.world

theorem Sound.mint (h : Sound g) {x : Item} (empty : x.itemlist = [])
    (single : x.getMagicField = true → (g.world.items.type x.id).stackable = false) :
    New (g.mint x) g.world.next ∧ Touched g.world (g.mint x).world g.world.next := by
  have touched : Touched g.world (g.mint x).world g.world.next :=
    allocate_touched h.wellFormed empty
  refine ⟨⟨h.wellFormed.touched touched, h.typed.allocate h.wellFormed single, ?_,
    Nat.lt_succ_self _⟩, touched⟩
  rw [touched.things]
  exact h.wellFormed.next_unlisted

/-- What a stack of coins comes to. -/
structure Gained (S : Finset Cylinder) (g g' : Game) (s : Coins) (lost : Nat) : Prop
    extends Sound g' where
  items : g'.world.items = g.world.items
  total : ∀ id, g'.world.total S id + (if s.type = id then lost else 0) =
    g.world.total S id + if s.type = id then s.created else 0

theorem Sound.addCoins {s : Coins} (h : Sound g) (minted : Minted g.world.items s.type)
    (S : Finset Cylinder) (c : Cylinder) (flags : Flags) :
    Gained S g (g.addCoins c flags s.type s.count) s (g.coinsLost S c flags s) := by
  obtain ⟨x, create, id, plain, count⟩ := createItem_minted minted
  have empty : x.itemlist = [] := by
    simp only [Item.itemlist, Item.getContainer, plain]
    rfl
  obtain ⟨new, touched⟩ := h.mint empty fun field => by
    rw [Item.getMagicField, plain] at field
    exact absurd field (by decide)
  have object : (g.mint x).world.item g.world.next = x := by simp [Game.mint, allocate]
  have stack : (g.mint x).world.isStackable g.world.next = true := by
    rw [isStackable, typeOf, object, id]
    exact minted.stackable
  have units : (g.mint x).world.unitsOf g.world.next = s.created := by
    rw [unitsOf, if_pos stack, World.getItemCount, object, count]
  have born : ∀ id, (g.mint x).world.total S id = g.world.total S id :=
    touched.total h.wellFormed.next_unlisted
  have received : ∀ {g' : Game} {lost : Nat}, Received S (g.mint x) g' g.world.next lost →
      Gained S g g' s lost := by
    intro g' lost received
    refine ⟨⟨received.wellFormed, received.typed⟩, received.items, fun kind => ?_⟩
    have account := received.total kind
    rw [World.units, units, object, id, born] at account
    exact account
  have kept : Gained S g (g.mint x) s s.created :=
    ⟨⟨new.wellFormed, new.typed⟩, rfl, fun kind => by rw [born]⟩
  have mint : g.setWorld (g.world.allocate x) = g.mint x := rfl
  have added : ∀ {c flags}, (g.mint x).addCheck c g.world.next INDEX_WHEREEVER flags = .noError →
      ((g.mint x).internalAddItem c g.world.next INDEX_WHEREEVER flags).ret = .noError ∧
        Gained S g ((g.mint x).internalAddItem c g.world.next INDEX_WHEREEVER flags).game s
          (strayed S ((g.mint x).world.getItemCount g.world.next + 1) (g.mint x) c g.world.next
            INDEX_WHEREEVER flags) := by
    intro c flags letIn
    exact ⟨(addItemAux_adds new (Nat.lt_add_one _) letIn).ret,
      received (addItemAux_received new stack (Nat.lt_add_one _) letIn)⟩
  simp only [Game.addCoins, coinsLost, create, mint]
  by_cases letIn : (g.mint x).addCheck c g.world.next INDEX_WHEREEVER flags = .noError
  · obtain ⟨ret, gained⟩ := added letIn
    simpa only [ret, letIn, ne_eq, not_true_eq_false, if_false, if_true] using gained
  · have refused : ((g.mint x).internalAddItem c g.world.next INDEX_WHEREEVER flags).ret ≠
          .noError ∧
        ((g.mint x).internalAddItem c g.world.next INDEX_WHEREEVER flags).game = g.mint x :=
      addItemAux_refused _ false letIn
    simp only [refused, letIn, ne_eq, not_false_eq_true, if_false, if_true]
    cases (g.mint x).world.tileOf c with
    | none => exact kept
    | some pos =>
        simp only
        by_cases fallback : (g.mint x).addCheck (.tile pos) g.world.next INDEX_WHEREEVER
            { noLimit := true } = .noError
        · simpa only [fallback, if_true] using (added fallback).2
        · have unchanged : ((g.mint x).internalAddItem (.tile pos) g.world.next INDEX_WHEREEVER
              { noLimit := true }).game = g.mint x := (addItemAux_refused _ false fallback).2
          simpa only [fallback, if_false, unchanged] using kept

/-! ### What cylinders hold -/

/-- The types of the three coins. -/
structure Coinage (items : Items) : Prop where
  gold : Minted items ITEM_GOLD_COIN
  platinum : Minted items ITEM_PLATINUM_COIN
  crystal : Minted items ITEM_CRYSTAL_COIN

end Game

namespace World

/-- What the items that lie in the cylinders of `S` are worth. -/
def worth (w : World) (S : Finset Cylinder) : Nat :=
  Ledger.total S w.things fun i => (w.item i).getWorth

theorem getWorth_eq {w : World} (coinage : Game.Coinage w.items) (i : ItemRef) :
    (w.item i).getWorth = w.units ITEM_GOLD_COIN i + w.units ITEM_PLATINUM_COIN i * 100 +
      w.units ITEM_CRYSTAL_COIN i * 10000 := by
  have stack : ∀ {id}, Game.Minted w.items id → (w.item i).id = id →
      w.unitsOf i = (w.item i).count.toNat := by
    intro id minted e
    have hs : w.isStackable i = true := by
      rw [isStackable, typeOf, e]
      exact minted.stackable
    rw [unitsOf, if_pos hs]
    rfl
  by_cases gold : (w.item i).id = ITEM_GOLD_COIN
  · simp [Item.getWorth, units, gold, stack coinage.gold gold, ITEM_GOLD_COIN,
      ITEM_PLATINUM_COIN, ITEM_CRYSTAL_COIN, coinWorth]
  · by_cases platinum : (w.item i).id = ITEM_PLATINUM_COIN
    · simp [Item.getWorth, units, platinum, stack coinage.platinum platinum, ITEM_GOLD_COIN,
        ITEM_PLATINUM_COIN, ITEM_CRYSTAL_COIN, coinWorth]
    · by_cases crystal : (w.item i).id = ITEM_CRYSTAL_COIN
      · simp [Item.getWorth, units, crystal, stack coinage.crystal crystal, ITEM_GOLD_COIN,
          ITEM_PLATINUM_COIN, ITEM_CRYSTAL_COIN, coinWorth]
      · simp only [Item.getWorth, units, coinWorth, gold, platinum, crystal, if_false,
          Nat.mul_zero, Nat.zero_mul, Nat.add_zero]

theorem worth_eq {w : World} (coinage : Game.Coinage w.items) (S : Finset Cylinder) :
    w.worth S = w.total S ITEM_GOLD_COIN + w.total S ITEM_PLATINUM_COIN * 100 +
      w.total S ITEM_CRYSTAL_COIN * 10000 := by
  simp only [worth, total, Ledger.total, getWorth_eq coinage, List.sum_map_add,
    List.sum_map_mul_right, Finset.sum_add_distrib, Finset.sum_mul]

/-- Units of one kind that come or go change the worth by what they are worth. -/
theorem worth_change {w w' : World} {S : Finset Cylinder} {id out into : Nat}
    (coinage : Game.Coinage w.items) (coinage' : Game.Coinage w'.items)
    (account : ∀ kind, w'.total S kind + (if id = kind then out else 0) =
      w.total S kind + if id = kind then into else 0) :
    w'.worth S + out * coinWorth id = w.worth S + into * coinWorth id := by
  have gold := account ITEM_GOLD_COIN
  have platinum := account ITEM_PLATINUM_COIN
  have crystal := account ITEM_CRYSTAL_COIN
  rw [worth_eq coinage, worth_eq coinage', coinWorth]
  simp only [ITEM_GOLD_COIN, ITEM_PLATINUM_COIN, ITEM_CRYSTAL_COIN] at gold platinum crystal ⊢
  by_cases isGold : id = 2148
  · simp only [isGold, if_true, Nat.reduceEqDiff, if_false] at gold platinum crystal ⊢
    omega
  · by_cases isPlatinum : id = 2152
    · simp only [isPlatinum, if_true, Nat.reduceEqDiff, if_false] at gold platinum crystal ⊢
      omega
    · by_cases isCrystal : id = 2160
      · simp only [isCrystal, if_true, Nat.reduceEqDiff, if_false] at gold platinum crystal ⊢
        omega
      · simp only [isGold, isPlatinum, isCrystal, if_false] at gold platinum crystal ⊢
        omega

end World

namespace Game

open World

variable {g : Game} {S : Finset Cylinder} {c : Cylinder} {flags : Flags} {money : BitVec 64}

theorem Coinage.minted {items : Items} (coinage : Coinage items) {type : Nat}
    (coin : coinWorth type ≠ 0) : Minted items type := by
  unfold coinWorth at coin
  split_ifs at coin with gold platinum crystal
  · exact gold ▸ coinage.gold
  · exact platinum ▸ coinage.platinum
  · exact crystal ▸ coinage.crystal
  · exact absurd rfl coin

/-- A stack of coins adds its worth, less what is lost of it. -/
theorem Gained.worth {g' : Game} {s : Coins} {lost : Nat} (h : Gained S g g' s lost)
    (coinage : Coinage g.world.items) :
    g'.world.worth S + lost * coinWorth s.type = g.world.worth S + s.worth :=
  worth_change coinage (h.items ▸ coinage) h.total

/-- Every stack is taken in whole, in the state it is added in. -/
def TakenIn (S : Finset Cylinder) (cylinder : Cylinder) (flags : Flags) : Game → List Coins → Prop
  | _, [] => True
  | g, s :: rest =>
      g.coinsLost S cylinder flags s = 0 ∧ TakenIn S cylinder flags (s.addTo cylinder flags g) rest

/-- The stacks add what they are worth, exactly when each is taken in whole. -/
theorem Sound.addStacks (h : Sound g) (coinage : Coinage g.world.items) {l : List Coins}
    (coins : ∀ s ∈ l, coinWorth s.type ≠ 0) (S : Finset Cylinder) (c : Cylinder)
    (flags : Flags) :
    Sound (l.foldl (Coins.addTo c flags) g) ∧
      (l.foldl (Coins.addTo c flags) g).world.items = g.world.items ∧
      (l.foldl (Coins.addTo c flags) g).world.worth S ≤
        g.world.worth S + (l.map Coins.worth).sum ∧
      ((l.foldl (Coins.addTo c flags) g).world.worth S =
          g.world.worth S + (l.map Coins.worth).sum ↔ TakenIn S c flags g l) := by
  induction l generalizing g with
  | nil => exact ⟨h, rfl, le_refl _, iff_of_true rfl trivial⟩
  | cons s l ih =>
      have coin := coins s List.mem_cons_self
      have gained := h.addCoins (coinage.minted coin) S c flags
      have account := gained.worth coinage
      have items := gained.items
      obtain ⟨sound, same, le, whole⟩ := ih gained.toSound (items ▸ coinage)
        (fun s hs => coins s (List.mem_cons_of_mem _ hs))
      refine ⟨sound, same.trans items, ?_, ?_⟩
      · simp only [List.foldl_cons, List.map_cons, List.sum_cons, Coins.addTo] at le ⊢
        omega
      · simp only [List.foldl_cons, List.map_cons, List.sum_cons, TakenIn, Coins.addTo] at le whole ⊢
        rw [← whole]
        constructor
        · intro all
          have none : g.coinsLost S c flags s * coinWorth s.type = 0 := by omega
          exact ⟨(Nat.mul_eq_zero.mp none).resolve_right coin, by omega⟩
        · rintro ⟨none, rest⟩
          rw [none, Nat.zero_mul] at account
          omega

theorem ofMoney_coins (money : BitVec 64) : ∀ s ∈ Coins.ofMoney money, coinWorth s.type ≠ 0 := by
  have crystals : ∀ n, ∀ s ∈ Coins.crystals n, s.type = ITEM_CRYSTAL_COIN := by
    intro n
    induction n using Nat.strong_induction_on with
    | _ n ih =>
        intro s hs
        rw [Coins.crystals] at hs
        split at hs
        · rcases List.mem_cons.mp hs with rfl | hs
          · rfl
          · refine ih _ ?_ s hs
            simp only [crystalStack]
            omega
        · simp at hs
  intro s hs
  unfold Coins.ofMoney at hs
  split at hs
  · simp at hs
  · rcases List.mem_append.mp hs with hs | hs
    · rw [crystals _ s hs]
      decide
    · unfold Coins.change at hs
      rcases List.mem_append.mp hs with hs | hs
      · split at hs
        · rw [List.mem_singleton.mp hs, coinWorth_platinum]
          decide
        · simp at hs
      · split at hs
        · rw [List.mem_singleton.mp hs, coinWorth_gold]
          decide
        · simp at hs

/-! ### Adding money -/

/-- `addMoney` comes to its end, the stacks it makes count 1 to 100 and are worth the
amount, and by the amount grows the worth in the cylinders of `S`: those of the
cylinder, of the containers in it, and of its tile. -/
structure Pays (S : Finset Cylinder) (g : Game) (cylinder : Cylinder) (money : BitVec 64)
    (flags : Flags) : Prop where
  ends : ∃ rounds, (fun n => n - crystalStack n)^[rounds] (crystalCoins money).toNat = 0
  exact : Coins.Exact money
  worth : (g.addMoney cylinder money flags).world.worth S = g.world.worth S + money.toNat

end Game

/-! ### A purse

A player with both hands full and seventy gold coins in the slot for ammunition. -/

namespace Sample

def coinType : Nat → ItemType
  | 2148 => { id := 2148, pickupable := true, moveable := true, stackable := true, weight := 10,
              slotPosition := 0x30 }
  | 2152 => { id := 2152, pickupable := true, moveable := true, stackable := true, weight := 10,
              slotPosition := 0x30 }
  | 2160 => { id := 2160, pickupable := true, moveable := true, stackable := true, weight := 10,
              slotPosition := 0x30 }
  | _ => {}

def coinItems : Items where
  type := coinType
  stackable_isPlain id _ := by
    unfold coinType
    split <;> rfl
  stackable_down id _ := by
    unfold coinType
    split <;> rfl
  stackable_createdId id h := by
    unfold coinType at h
    split at h <;> first | rfl | simp at h

theorem coinItems_coinage : Game.Coinage coinItems :=
  ⟨⟨rfl, by decide⟩, ⟨rfl, by decide⟩, ⟨rfl, by decide⟩⟩

def purseStore : List Item :=
  [{ id := 2148, count := 70, parent := some (.player 0) },
   { id := 2152, count := 1, parent := some (.player 0) },
   { id := 2160, count := 1, parent := some (.player 0) }]

def purseSlots (slot : Nat) : Option ItemRef :=
  if slot = 10 then some 0 else if slot = 5 then some 1 else if slot = 6 then some 2 else none

def purse : Game :=
  game { world purseStore {} purseSlots with items := coinItems, classicEquipmentSlots := true }

theorem purse_sound : purse.Sound := by
  have listed : (world purseStore {} purseSlots).WellFormed :=
    world_wellFormed (by decide) (by decide)
  have bare : ∀ {pos t}, purse.world.tile pos = some t → t = {} := by
    intro pos t ht
    change (if pos = here then some {} else none) = some t at ht
    split at ht
    · exact (Option.some.inj ht).symm
    · simp at ht
  refine ⟨⟨listed.once, listed.fresh, listed.unused⟩, fun o ho => ?_, fun ht ho => ?_,
    fun ht ho => ?_, fun ht ho => ?_, fun ht ho => ?_⟩
  · exfalso
    change ((purseStore[o]?).getD { id := 0 }).getMagicField = true at ho
    rcases hs : purseStore[o]? with _ | x
    · simp [hs, Item.getMagicField] at ho
    · have field : ∀ x ∈ purseStore, x.getMagicField = false := by decide
      simp [hs, field x (List.mem_of_getElem? hs)] at ho
  all_goals simp [bare ht, Tile.topItems, Tile.downItems] at ho

/-- The player and the tile. -/
def purseAround : Finset Cylinder := {.player 0, .tile here}

/-- Of fifty gold coins thirty fit on the stack that is worn, and the others are gone. -/
theorem purse_short : ¬Game.Pays purseAround purse (.player 0) 50 {} := by
  intro pays
  have made : Coins.ofMoney 50 = [⟨ITEM_GOLD_COIN, 50⟩] := by
    rw [Coins.ofMoney, Coins.crystals]
    decide
  have worth := pays.worth
  rw [Coins.addMoney_eq, made] at worth
  revert worth
  decide

end Sample

end TibServer
