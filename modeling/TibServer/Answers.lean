import TibServer.Accounts

/-!
What the answers of the queries promise: where `queryAdd` lets an item in there
is room for it, only a player or a tile asks for an exchange, and what
`queryRemove` grants is there.
-/

namespace TibServer

namespace World

variable {w : World}

/-! ### The top parent -/

/-- The walk up ends below the tile. -/
theorem topParentAux_not_tile {n : Nat} {q aux : Cylinder} (hq : ∀ pos, q ≠ .tile pos)
    {t : Cylinder} (h : w.topParentAux n (some q) aux = some t) (pos : Position) :
    t ≠ .tile pos := by
  induction n generalizing q aux with
  | zero =>
      obtain rfl : q = t := by simpa [topParentAux] using h
      exact hq pos
  | succ n ih =>
      simp only [topParentAux] at h
      split at h
      · obtain rfl : q = t := by simpa using h
        exact hq pos
      · next up parent =>
          refine ih (fun pos e => ?_) h
          subst e
          simp [parentOf, walkFuel, getParentAux] at parent

theorem getTopParent_not_tile {c : ItemRef} (hc : (w.getContainer c).isSome = true)
    {t : Cylinder} (h : w.getTopParent c = some t) (pos : Position) : t ≠ .tile pos := by
  have self : (.container c : Cylinder) ≠ .tile pos := by simp
  simp only [getTopParent, hc, if_true] at h
  split at h
  · obtain rfl := Option.some.inj h
    exact self
  · exact topParentAux_not_tile (by simp) h pos

/-! ### An exchange -/

theorem depotChestQueryAdd_cases (n : Nat) (top : Cylinder → ReturnValue) (c : ItemRef)
    (index : Int) (i : ItemRef) (count : Nat) (flags : Flags) :
    w.depotChestQueryAdd n top c index i count flags = .depotIsFull ∨
      w.depotChestQueryAdd n top c index i count flags =
        w.containerBaseQueryAdd top c index i flags := by
  simp only [depotChestQueryAdd]
  generalize (if w.getTopParent i ≠ some (.container c) then _ else _ : Nat) = addCount
  by_cases noLimit : flags.noLimit = true
  · exact .inr (if_pos noLimit)
  · rw [if_neg noLimit]
    exact (ite_eq_or_eq _ _ _)

theorem owner_no_exchange {t : Cylinder} (ht : ∀ pos, t ≠ .tile pos) (i : ItemRef) (count : Nat)
    (flags : Flags) (actor : Option PlayerId) :
    w.ownerQueryAdd t i count flags actor ≠ .needExchange := by
  cases t with
  | tile pos => exact absurd rfl (ht pos)
  | player p =>
      simp only [ownerQueryAdd, playerQueryAdd, if_true]
      split <;> simp
  | container c =>
      simp only [ownerQueryAdd, containerQueryAdd]
      split
      · simp [containerBaseQueryAdd]
      · simp [containerBaseQueryAdd]
      · simp [containerBaseQueryAdd]
      · next m _ =>
          rcases w.depotChestQueryAdd_cases m (fun _ => .noError) c INDEX_WHEREEVER i count
            { flags with childIsOwner := true } with full | base
          · rw [full]
            simp
          · rw [base]
            simp [containerBaseQueryAdd]
      · simp
      · simp only [inboxQueryAdd]
        (repeat' split) <;> simp
      · simp only [rewardQueryAdd]
        (repeat' split) <;> simp
      · simp only [rewardChestQueryAdd]
        split <;> simp

theorem askTopParent_no_exchange {c i : ItemRef} {n : Nat} {f : Flags}
    {a : Option PlayerId} (hc : (w.getContainer c).isSome = true) :
    w.askTopParent (fun t => w.ownerQueryAdd t i n f a) c ≠ .needExchange := by
  unfold askTopParent
  split
  · next t ht =>
      split
      · exact owner_no_exchange (getTopParent_not_tile hc ht) i n f a
      · simp
  · simp

theorem containerBase_no_exchange {c : ItemRef} {index : Int} {i : ItemRef} {count : Nat}
    {flags : Flags} {actor : Option PlayerId} :
    w.containerBaseQueryAdd (fun t => w.ownerQueryAdd t i count flags actor) c index i flags ≠
      .needExchange := by
  unfold containerBaseQueryAdd
  split
  · simp
  · split
    · simp
    · next k hc =>
        have top := askTopParent_no_exchange (w := w) (i := i) (n := count) (f := flags) (a := actor)
          (by rw [hc]; rfl : (w.getContainer c).isSome = true)
        (repeat' split) <;> first | exact top | simp

/-- A container never asks for an exchange. -/
theorem container_no_exchange {c : ItemRef} {index : Int} {i : ItemRef} {count : Nat}
    {flags : Flags} {actor : Option PlayerId} :
    w.queryAdd (.container c) index i count flags actor ≠ .needExchange := by
  simp only [queryAdd, containerQueryAdd]
  split
  · exact containerBase_no_exchange
  · exact containerBase_no_exchange
  · exact containerBase_no_exchange
  · next m _ =>
      rcases w.depotChestQueryAdd_cases m _ c index i count flags with full | base
      · rw [full]
        simp
      · rw [base]
        exact containerBase_no_exchange
  · simp
  · simp only [inboxQueryAdd]
    (repeat' split) <;> simp
  · simp only [rewardQueryAdd]
    (repeat' split) <;> simp
  · simp only [rewardChestQueryAdd]
    split <;> simp

/-! ### Players -/

theorem slotAnswer_noError {p : PlayerId} {index : Int} {i : ItemRef} {n : Nat}
    (h : w.slotAnswer p index i n = .noError) : 1 ≤ index ∧ index ≤ 10 := by
  unfold slotAnswer at h
  split at h <;> simp_all

/-- A player that lets an item in by its slot has that slot. -/
theorem playerQueryAdd_slot {p : PlayerId} {index : Int} {i : ItemRef} {count : Nat}
    {flags : Flags} (hf : flags.childIsOwner = false)
    (h : w.playerQueryAdd p index i count flags = .noError) : 1 ≤ index ∧ index ≤ 10 := by
  refine slotAnswer_noError (w := w) (p := p) (i := i) (n := count) ?_
  simp only [playerQueryAdd, hf] at h
  simp only [Bool.false_eq_true, if_false] at h
  split at h
  · simp at h
  · split at h
    · split at h <;> (repeat' split at h) <;> first | exact h | simp at h
    · next neither => exact absurd (.inl h) neither

theorem playerQueryAdd_exchange {p : PlayerId} {index : Int} {i : ItemRef} {count : Nat}
    {flags : Flags} (h : w.playerQueryAdd p index i count flags = .needExchange) :
    flags.childIsOwner = false := by
  by_contra owner
  simp only [Bool.not_eq_false] at owner
  simp only [playerQueryAdd, owner, if_true] at h
  split at h <;> simp at h

/-! ### Tiles -/

/-- A tile that does not refuse an item exists and has room. -/
theorem tileQueryAdd_room {pos : Position} {i : ItemRef} {flags : Flags}
    {actor : Option PlayerId}
    (h : w.tileQueryAdd pos i flags actor = .noError ∨
      w.tileQueryAdd pos i flags actor = .needExchange) :
    ∃ t, w.tile pos = some t ∧ t.itemList.length < 0x3E8 := by
  unfold tileQueryAdd at h
  split at h
  · simp at h
  · next t ht =>
      refine ⟨t, ht, ?_⟩
      by_contra full
      rw [not_lt] at full
      simp only [ge_iff_le, full, if_true] at h
      split_ifs at h <;> simp at h

/-! ### What may leave -/

structure Granted (w : World) (c : Cylinder) (i : ItemRef) (count : Nat) : Prop where
  found : w.Found c i
  positive : 0 < count
  units : w.isStackable i = true → count ≤ w.getItemCount i

theorem queryRemove_granted {c : Cylinder} {i : ItemRef} {count : Nat} {flags : Flags}
    (h : w.queryRemove c i count flags = .noError) : w.Granted c i count := by
  unfold queryRemove at h
  split at h
  · simp at h
  · next found =>
      split at h
      · simp at h
      · next enough =>
          simp only [not_or, not_and, not_lt] at enough
          exact ⟨found, Nat.pos_of_ne_zero enough.1, enough.2⟩

/-! ### What the answers before a move say -/

section Moving

variable {src : Cylinder} {d : Dest} {i : ItemRef} {count : Nat} {actor : Option PlayerId}
  {tradeItem : Option ItemRef}

/-- An item is let in where `queryAdd` does not refuse it. -/
theorem admission_admitted (h : w.admission src d i count actor = .admitted) :
    w.queryAdd d.cylinder d.index i count d.flags actor = .noError ∨
      w.queryAdd d.cylinder d.index i count d.flags actor = .needExchange := by
  unfold admission at h
  by_cases add : w.queryAdd d.cylinder d.index i count d.flags actor = .noError
  · exact .inl add
  · by_cases exchange : w.queryAdd d.cylinder d.index i count d.flags actor = .needExchange
    · exact .inr exchange
    · simp [add, exchange] at h

theorem admission_refused {ret : ReturnValue}
    (h : w.admission src d i count actor = .refused ret) : ret ≠ .noError := by
  unfold admission at h
  simp only at h
  split at h
  · simp at h
  · next refused =>
      split at h
      · obtain rfl := Admission.refused.inj h
        exact refused
      · split at h
        · obtain rfl := Admission.refused.inj h
          simp
        · split at h
          · next unwelcome =>
              obtain rfl := Admission.refused.inj h
              exact unwelcome
          · split at h
            · next full =>
                obtain rfl := Admission.refused.inj h
                exact full.1
            · split at h <;> simp at h

/-- What is exchanged lies in the destination and may leave it, and the source
would take it in. -/
structure Exchange (w : World) (src : Cylinder) (d : Dest) (i : ItemRef) (count : Nat)
    (actor : Option PlayerId) (o : ItemRef) : Prop where
  asked : w.queryAdd d.cylinder d.index i count d.flags actor = .needExchange
  destItem : d.destItem = some o
  welcome : w.queryAdd src (w.getThingIndex src i) o (w.getItemCount o) {} = .noError
  granted : w.Granted d.cylinder o (w.getItemCount o)

theorem admission_exchange {o : ItemRef} (h : w.admission src d i count actor = .exchange o) :
    w.Exchange src d i count actor o := by
  unfold admission at h
  simp only at h
  split at h
  · simp at h
  · split at h
    · simp at h
    · next asked =>
        split at h
        · simp at h
        · next o' destItem =>
            split at h
            · simp at h
            · next welcome =>
                split at h
                · simp at h
                · split at h
                  · simp at h
                  · next granted =>
                      obtain rfl := Admission.exchange.inj h
                      exact ⟨not_not.mp asked, destItem, not_not.mp welcome,
                        queryRemove_granted (not_not.mp granted)⟩

/-- A move of `m` units that all questions allow. -/
structure Allowed (w : World) (src : Cylinder) (d : Dest) (i : ItemRef) (count : Nat)
    (tradeItem : Option ItemRef) (ret : ReturnValue) (m : Nat) : Prop where
  allows : ¬((w.queryMaxCount d.cylinder d.index i count d.flags).1 ≠ .noError ∧
    (w.queryMaxCount d.cylinder d.index i count d.flags).2 = 0)
  units : m = if w.isStackable i
    then min count (w.queryMaxCount d.cylinder d.index i count d.flags).2
    else (w.queryMaxCount d.cylinder d.index i count d.flags).2
  granted : w.Granted src i m
  apart : w.insideTradeItem d.cylinder tradeItem = false
  answer : ret = if w.isStackable i ∧
      (w.queryMaxCount d.cylinder d.index i count d.flags).2 < count
    then (w.queryMaxCount d.cylinder d.index i count d.flags).1 else .noError

theorem moveCheck_ok {ret : ReturnValue} {m : Nat}
    (h : w.moveCheck src d i count tradeItem = .ok (ret, m)) :
    w.Allowed src d i count tradeItem ret m := by
  simp only [moveCheck] at h
  generalize units : (if w.isStackable i then min count _ else _ : Nat) = m' at h
  split at h
  · simp at h
  · next allows =>
      split at h
      · simp at h
      · next granted =>
          rw [not_not] at granted
          split at h
          · simp at h
          · next apart =>
              obtain ⟨rfl, rfl⟩ := Prod.mk.inj (Except.ok.inj h)
              exact ⟨allows, units.symm, queryRemove_granted granted, Bool.not_eq_true _ ▸ apart,
                by rw [granted]⟩

theorem moveCheck_error {ret : ReturnValue}
    (h : w.moveCheck src d i count tradeItem = .error ret) : ret ≠ .noError := by
  simp only [moveCheck] at h
  generalize (if w.isStackable i then min count _ else _ : Nat) = m at h
  split at h
  · next full =>
      obtain rfl := Except.error.inj h
      exact full.1
  · split at h
    · next refused =>
        obtain rfl := Except.error.inj h
        exact refused
    · split at h
      · obtain rfl := Except.error.inj h
        simp
      · simp at h

/-- No unit can be moved to a slot that holds another item, or a full stack. -/
theorem Allowed.slot {p : PlayerId} {o : ItemRef} {ret : ReturnValue} {m : Nat}
    (h : w.Allowed src d i count tradeItem ret m) (hp : d.cylinder = .player p)
    (ho : w.getInventoryItem p d.index = some o) :
    w.equals i o = true ∧ w.isStackable i = true ∧ m ≤ 100 - w.getItemCount o := by
  have index : d.index ≠ INDEX_WHEREEVER := by
    intro e
    rw [getInventoryItem_outside (.inr e)] at ho
    simp at ho
  have max := h.allows
  have positive := h.granted.positive
  rw [h.units] at positive ⊢
  simp only [hp, queryMaxCount, playerQueryMaxCount, if_neg index, ho] at max positive ⊢
  by_cases merge : (w.isStackable o && w.equals i o && decide (w.getItemCount o < 100)) = true
  · simp only [merge, if_true] at max positive ⊢
    simp only [Bool.and_eq_true, decide_eq_true_eq] at merge
    have stack : w.isStackable i = true := by rw [← equals_stackable merge.1.2, merge.1.1]
    refine ⟨merge.1.2, stack, ?_⟩
    rw [if_pos stack]
    split <;> exact min_le_right _ _
  · simp only [merge, if_false, Bool.false_eq_true] at max positive
    split at max
    · simp at max
    · next none =>
        have none : count = 0 := by omega
        simp [none] at positive

end Moving

end World

/-! ### The ways of a move -/

namespace Game

variable {g : Game} {src : Cylinder} {d : Dest} {i : ItemRef} {count : Nat}
  {actor : Option PlayerId} {tradeItem : Option ItemRef}

/-- The ways `internalMoveItem` can go, with the result of each. -/
inductive Moves (g : Game) (src : Cylinder) (d : Dest) (i : ItemRef) (count : Nat)
    (actor : Option PlayerId) (tradeItem : Option ItemRef) : MoveResult → Prop
  | same (h : d.destItem = some i) :
      Moves g src d i count actor tradeItem { ret := .noError, game := g }
  | refused {ret : ReturnValue} (ne : d.destItem ≠ some i)
      (h : g.world.admission src d i count actor = .refused ret) :
      Moves g src d i count actor tradeItem { ret, game := g }
  | admitted (ne : d.destItem ≠ some i)
      (h : g.world.admission src d i count actor = .admitted) :
      Moves g src d i count actor tradeItem (g.moveUnits src d i d.destItem count tradeItem)
  | exchangeOnly {o : ItemRef} (ne : d.destItem ≠ some i)
      (h : g.world.admission src d i count actor = .exchange o)
      (add : (g.swap src d.cylinder o).world.queryAdd d.cylinder d.index i count d.flags ≠
        .noError) :
      Moves g src d i count actor tradeItem
        { ret := (g.swap src d.cylinder o).world.queryAdd d.cylinder d.index i count d.flags
          game := g.swap src d.cylinder o }
  | exchanged {o : ItemRef} (ne : d.destItem ≠ some i)
      (h : g.world.admission src d i count actor = .exchange o)
      (add : (g.swap src d.cylinder o).world.queryAdd d.cylinder d.index i count d.flags =
        .noError) :
      Moves g src d i count actor tradeItem
        ((g.swap src d.cylinder o).moveUnits src d i none count tradeItem)

/-- Where `internalMoveItem` is sent. -/
def moveDest (g : Game) (i : ItemRef) (toCylinder : Cylinder) (index : Int) (flags : Flags) :
    Dest :=
  g.world.destination g.trade.tradeItem i { cylinder := toCylinder, index, flags }

theorem moveDest_ok (g : Game) (i : ItemRef) (toCylinder : Cylinder) (index : Int)
    (flags : Flags) : g.world.DestOk (g.moveDest i toCylinder index flags) :=
  World.destination_ok rfl

theorem internalMoveItem_moves (g : Game) (fromCylinder toCylinder : Cylinder) (index : Int)
    (i : ItemRef) (count : Nat) (flags : Flags) (actor : Option PlayerId)
    (tradeItem : Option ItemRef) :
    Moves g (g.world.sourceCylinder fromCylinder) (g.moveDest i toCylinder index flags) i count
      actor tradeItem
      (g.internalMoveItem fromCylinder toCylinder index i count flags actor tradeItem) := by
  unfold internalMoveItem moveDest
  generalize g.world.destination g.trade.tradeItem i { cylinder := toCylinder, index, flags } = d
  generalize g.world.sourceCylinder fromCylinder = src
  by_cases ne : d.destItem = some i
  · simp only [if_pos ne]
    exact .same ne
  · simp only [if_neg ne]
    cases h : g.world.admission src d i count actor with
    | refused ret =>
        simp only [queryAddOrSwap, h, ne_eq, World.admission_refused h, not_false_eq_true, if_true]
        exact .refused ne h
    | admitted =>
        simp only [queryAddOrSwap, h, ne_eq, not_true_eq_false, if_false]
        exact .admitted ne h
    | exchange o =>
        simp only [queryAddOrSwap, h]
        split
        · next add => exact .exchangeOnly ne h add
        · next add => exact .exchanged ne h (not_not.mp add)

end Game

end TibServer
