import TibServer.Conservation
import TibServer.Links

/-!
Runs of the server: the trade handlers in any order and by any players, with
any changes of the items and of the players between them. What the handlers
keep holds in every state of a run.
-/

namespace TibServer

/-- A call of one of the trade handlers. -/
inductive Action
  | request (s : Surroundings) (player : PlayerId) (pos : Position) (tradePlayerId : PlayerId)
      (spriteId : Nat)
  | accept (s : Surroundings) (player : PlayerId)
  | close (player : PlayerId)
  | logout (player : PlayerId)

def Game.step (g : Game) : Action → Game
  | .request s player pos tradePlayerId spriteId =>
      g.playerRequestTrade s player pos tradePlayerId spriteId
  | .accept s player => g.playerAcceptTrade s player
  | .close player => g.playerCloseTrade player
  | .logout player => g.logout player

/-- What happens in a run: a handler runs, or something else changes the items
and the players, and closes trades. -/
inductive Event
  | action (a : Action)
  | change

/-- The runs from a server on which nobody trades, with what happened and in
which game it did, the latest first. -/
inductive Run : List (Game × Event) → Game → Prop
  | start (w : World) : Run [] { world := w, trade := .idle }
  | action {past : List (Game × Event)} {g : Game} (run : Run past g) (a : Action) :
      Run ((g, .action a) :: past) (g.step a)
  | change {past : List (Game × Event)} {g : Game} (run : Run past g) (w : World) {t : Trade}
      (closes : Closes g.trade t) : Run ((g, .change) :: past) { world := w, trade := t }

namespace Trade

variable {t t' : Trade} {p q : PlayerId}

/-- What holds of the trades between handlers. -/
structure Settled (t : Trade) : Prop where
  partner : ∀ p, t.tradePartner p = none ↔ t.tradeState p = .none
  symm : ∀ p q, t.tradePartner p = some q → t.tradePartner q = some p
  quiet : ∀ p, t.tradeState p ≠ .transfer
  offered : ∀ p, t.tradeState p = .initiated → (t.tradeItem p).isSome
  listed : ∀ i p, t.tradeItems.lookup i = some p ↔ t.tradeItem p = some i

/-! ### Closing -/

/-- A close clears a player's fields or leaves them alone. -/
theorem close_player (t : Trade) (r p : PlayerId) :
    (t.internalCloseTrade r).player p = t.player p ∨ (t.internalCloseTrade r).player p = {} := by
  simp only [internalCloseTrade]
  split
  · exact .inl rfl
  · cases t.tradePartner r with
    | none =>
        by_cases hp : p = r
        · subst hp
          exact .inr (by simp [leave])
        · exact .inl (by simp [leave, setPlayer_of_ne _ _ hp])
    | some q =>
        by_cases hq : p = q
        · subst hq
          exact .inr (by simp [leave])
        · by_cases hp : p = r
          · subst hp
            exact .inr (by simp [leave, setPlayer_of_ne _ _ hq])
          · exact .inl (by simp [leave, setPlayer_of_ne _ _ hp, setPlayer_of_ne _ _ hq])

theorem closes_player (c : Closes t t') (p : PlayerId) :
    t'.player p = t.player p ∨ t'.player p = {} :=
  c.preserves (P := fun s => s.player p = t.player p ∨ s.player p = {})
    (fun s r hs => (s.close_player r p).elim (fun same => same ▸ hs) .inr) (.inl rfl)

theorem closes_quiet (c : Closes t t') (quiet : t.tradeState p ≠ .transfer) :
    t'.tradeState p ≠ .transfer := by
  rcases closes_player c p with same | none_
  · rwa [tradeState, same]
  · simp [tradeState, none_]

/-- A trade that is opened gives the two players other states than that of an exchange. -/
theorem start_quiet {item : ItemRef} (opened : t.internalStartTrade p q item = .ok t')
    (quiet : ∀ r, t.tradeState r ≠ .transfer) (r : PlayerId) : t'.tradeState r ≠ .transfer := by
  simp only [internalStartTrade] at opened
  split_ifs at opened
  · obtain rfl := Except.ok.inj opened
    by_cases hq : r = q
    · simp [tradeState, hq]
    · by_cases hp : r = p
      · subst hp
        simp [tradeState, setPlayer_of_ne _ _ hq, offer_player]
      · simpa [tradeState, setPlayer_of_ne _ _ hq, offer_player, hp] using quiet r
  · obtain rfl := Except.ok.inj opened
    by_cases hp : r = p
    · subst hp
      simp [tradeState, offer_player]
    · simpa [tradeState, offer_player, hp] using quiet r

theorem start_item {item x : ItemRef} {r : PlayerId} (opened : t.internalStartTrade p q item = .ok t')
    (hx : t'.tradeItem r = some x) : t.tradeItem r = some x ∨ (r = p ∧ x = item) := by
  simp only [internalStartTrade] at opened
  by_cases hp : r = p
  · subst hp
    refine .inr ⟨rfl, ?_⟩
    split_ifs at opened
    · obtain rfl := Except.ok.inj opened
      by_cases hq : r = q
      · subst hq
        simpa [tradeItem, offer_player, eq_comm] using hx
      · simpa [tradeItem, setPlayer_of_ne _ _ hq, offer_player, eq_comm] using hx
    · obtain rfl := Except.ok.inj opened
      simpa [tradeItem, offer_player, eq_comm] using hx
  · refine .inl ?_
    split_ifs at opened
    · obtain rfl := Except.ok.inj opened
      by_cases hq : r = q
      · subst hq
        simpa [tradeItem, offer_player, hp] using hx
      · simpa [tradeItem, setPlayer_of_ne _ _ hq, offer_player, hp] using hx
    · obtain rfl := Except.ok.inj opened
      simpa [tradeItem, offer_player, hp] using hx

theorem closes_item {x : ItemRef} (c : Closes t t') (hx : t'.tradeItem p = some x) :
    t.tradeItem p = some x := by
  rcases closes_player c p with same | none_
  · rwa [tradeItem, same] at hx
  · simp [tradeItem, none_] at hx

end Trade

namespace Game

variable {g : Game} {s : Surroundings} {p q : PlayerId} {item i : ItemRef}

/-! ### What the checks of a handler say -/

theorem tradeRequest_granted {pos : Position} {spriteId : Nat}
    (granted : g.tradeRequest s p pos q spriteId = .granted item) :
    p ≠ q ∧ g.isTraded item = false := by
  simp only [tradeRequest] at granted
  split_ifs at granted with _ online
  rw [not_or] at online
  refine ⟨fun e => online.2 e.symm, ?_⟩
  simp only [offeredItem] at granted
  split at granted
  · cases granted
  · split_ifs at granted with _ _ _ _ _ traded
    obtain rfl := TradeRequest.granted.inj granted
    simpa using traded

theorem isTraded_false (untraded : g.isTraded item = false) (hi : i ∈ g.trade.tradeItems.keys) :
    item ≠ i ∧ ((g.world.getContainer item).isSome → g.world.isHoldingItem item i = false) ∧
      ((g.world.getContainer i).isSome → g.world.isHoldingItem i item = false) := by
  simp only [isTraded, List.any_eq_false] at untraded
  have := untraded i hi
  simp only [Bool.or_eq_true, not_or, Bool.and_eq_true, beq_iff_eq, not_and,
    Bool.not_eq_true] at this
  exact ⟨this.1.1, this.1.2, this.2⟩

theorem lookup_of_untraded (untraded : g.isTraded item = false) :
    g.trade.tradeItems.lookup item = none := by
  rw [AList.lookup_eq_none]
  intro traded
  exact (isTraded_false untraded (AList.mem_keys.mp traded)).1 rfl

theorem acceptPartner_some (accepted : g.acceptPartner s p = some q) :
    g.isOnline p ∧ (g.trade.tradeState p = .acknowledge ∨ g.trade.tradeState p = .initiated) ∧
      g.trade.tradePartner p = some q ∧
      s.canThrowObjectTo (g.world.playerPosition q) (g.world.playerPosition p) := by
  simp only [acceptPartner] at accepted
  split_ifs at accepted with online state
  obtain ⟨partner, sight⟩ := Option.filter_eq_some_iff.mp accepted
  refine ⟨by simpa using online, ?_, partner, by simpa using sight⟩
  by_contra neither
  rw [not_or] at neither
  exact state neither

/-! ### The handlers -/

/-- The end of an accepted trade: a script forbids it and it is closed, or the
items are exchanged, if they can be, and both players are free. -/
theorem completeTrade_cases (g : Game) (s : Surroundings) (p q : PlayerId) :
    (g.completeTrade s p q).trade = g.trade.internalCloseTrade p ∨
      ∃ t, Closes (g.trade.exchanging p q) t ∧
        (g.completeTrade s p q).trade = (t.clear p).clear q := by
  simp only [completeTrade]
  split
  · exact .inl rfl
  · right
    refine ⟨_, ?_, rfl⟩
    split
    · split
      · exact (exchangeItems_closes _ _ _ _ _).from_eq rfl
      · exact .refl _
    · exact .refl _

/-- While two partners exchange their items they stay partners. -/
theorem exchanging_closes {t t' : Trade} (h : t.Linked) (hp : t.tradePartner p = some q)
    (quiet : ∀ r, t.tradeState r ≠ .transfer) (c : Closes (t.exchanging p q) t') :
    t'.Linked ∧ t'.tradePartner p = some q ∧ t'.tradeState p = .transfer ∧
      t'.tradeState q = .transfer := by
  have linked := h.linked_exchanging hp (quiet p) (quiet q)
  have ne : p ≠ q := fun e => h.other p (by rw [hp, e])
  have atP := Trade.Linked.exchanging_player (t := t) ne p
  have atQ := Trade.Linked.exchanging_player (t := t) ne q
  rw [if_pos (.inl rfl)] at atP
  rw [if_pos (.inr rfl)] at atQ
  have keptP := linked.closes_transfer (p := p) (by rw [Trade.tradeState, atP]) c
  have keptQ := linked.closes_transfer (p := q) (by rw [Trade.tradeState, atQ]) c
  refine ⟨linked.closes c, ?_, ?_, ?_⟩
  · rw [Trade.tradePartner, keptP, atP]
    exact hp
  · rw [Trade.tradeState, keptP, atP]
  · rw [Trade.tradeState, keptQ, atQ]

theorem setTradeState_quiet {t : Trade} (quiet : ∀ r, t.tradeState r ≠ .transfer) (p r : PlayerId) :
    (t.setTradeState p .accept).tradeState r ≠ .transfer := by
  by_cases e : r = p
  · simp [Trade.setTradeState, Trade.tradeState, e]
  · simpa [Trade.setTradeState, Trade.tradeState, Trade.setPlayer_of_ne _ _ e] using quiet r

theorem completeTrade_linked (h : g.trade.Linked) (quiet : ∀ r, g.trade.tradeState r ≠ .transfer)
    (hp : g.trade.tradePartner p = some q) :
    (g.completeTrade s p q).trade.Linked ∧
      ∀ r, (g.completeTrade s p q).trade.tradeState r ≠ .transfer := by
  rcases g.completeTrade_cases s p q with closed | ⟨t, c, cleared⟩
  · rw [closed]
    exact ⟨h.close p, fun r => Trade.closes_quiet (.close _ p) (quiet r)⟩
  · rw [cleared]
    obtain ⟨linked, partner, stateP, stateQ⟩ := exchanging_closes h hp quiet c
    refine ⟨linked.cleared partner stateP stateQ, fun r => ?_⟩
    have ne : p ≠ q := fun e => h.other p (by rw [hp, e])
    by_cases hq : r = q
    · simp [Trade.clear, Trade.tradeState, hq]
    · by_cases hr : r = p
      · subst hr
        simp [Trade.clear, Trade.tradeState, Trade.setPlayer_of_ne _ _ hq]
      · have before : (g.trade.exchanging p q).tradeState r ≠ .transfer := by
          rw [Trade.tradeState, Trade.Linked.exchanging_player ne, if_neg (not_or.mpr ⟨hr, hq⟩)]
          exact quiet r
        have after := Trade.closes_quiet c before
        simpa [Trade.clear, Trade.tradeState, Trade.setPlayer_of_ne _ _ hq,
          Trade.setPlayer_of_ne _ _ hr] using after

theorem step_linked (h : g.trade.Linked) (quiet : ∀ p, g.trade.tradeState p ≠ .transfer)
    (a : Action) :
    (g.step a).trade.Linked ∧ ∀ p, (g.step a).trade.tradeState p ≠ .transfer := by
  cases a with
  | request s p pos q spriteId =>
      simp only [step, playerRequestTrade]
      split
      · next item granted =>
          obtain ⟨ne, untraded⟩ := tradeRequest_granted granted
          split
          · next t opened =>
              exact ⟨h.start ne (lookup_of_untraded untraded) opened,
                Trade.start_quiet opened quiet⟩
          · exact ⟨h, quiet⟩
      · exact ⟨h, quiet⟩
  | accept s p =>
      simp only [step, playerAcceptTrade]
      split
      · exact ⟨h, quiet⟩
      · next q accepted =>
          obtain ⟨-, state, partner, -⟩ := acceptPartner_some accepted
          have trades : g.trade.tradeState p ≠ .none := by
            rcases state with e | e <;> simp [e]
          have linked := h.setTradeState_accept trades (quiet p)
          have quiet' := setTradeState_quiet quiet p
          have partner' : (g.trade.setTradeState p .accept).tradePartner p = some q := by
            simpa [Trade.setTradeState, Trade.tradePartner] using partner
          split
          · exact completeTrade_linked linked quiet' partner'
          · exact ⟨linked, quiet'⟩
  | close p =>
      simp only [step, playerCloseTrade]
      split
      · exact ⟨h, quiet⟩
      · exact ⟨h.close p, fun q => Trade.closes_quiet (.close _ p) (quiet q)⟩
  | logout p =>
      simp only [step, logout]
      split
      · exact ⟨h.close p, fun q => Trade.closes_quiet (.close _ p) (quiet q)⟩
      · exact ⟨h, quiet⟩

/-- Only a request that is granted puts an item on the table. -/
theorem step_item (h : g.trade.Linked) {a : Action} {x : ItemRef}
    (hx : (g.step a).trade.tradeItem p = some x) :
    g.trade.tradeItem p = some x ∨ ∃ s pos q spriteId,
      g.tradeRequest s p pos q spriteId = .granted x := by
  cases a with
  | request s r pos q spriteId =>
      simp only [step, playerRequestTrade] at hx
      split at hx
      · next item granted =>
          split at hx
          · next t opened =>
              rcases Trade.start_item opened hx with same | ⟨rfl, rfl⟩
              · exact .inl same
              · exact .inr ⟨s, pos, q, spriteId, granted⟩
          · exact .inl hx
      · exact .inl hx
  | accept s r =>
      left
      simp only [step, playerAcceptTrade] at hx
      have item (u : PlayerId) :
          (g.trade.setTradeState r .accept).tradeItem u = g.trade.tradeItem u := by
        by_cases e : u = r
        · simp [Trade.setTradeState, Trade.tradeItem, e]
        · simp [Trade.setTradeState, Trade.tradeItem, Trade.setPlayer_of_ne _ _ e]
      split at hx
      · exact hx
      · next q accepted =>
          obtain ⟨-, -, partner, -⟩ := acceptPartner_some accepted
          split at hx
          · rcases completeTrade_cases (g.setTrade (g.trade.setTradeState r .accept)) s r q with
              closed | ⟨t, c, cleared⟩
            · rw [closed] at hx
              exact item p ▸ Trade.closes_item (.close _ r) hx
            · rw [cleared] at hx
              have ne : r ≠ q := fun e => h.other r (by rw [partner, e])
              by_cases hq : p = q
              · simp [Trade.clear, Trade.tradeItem, hq] at hx
              · by_cases hr : p = r
                · subst hr
                  simp [Trade.clear, Trade.tradeItem, Trade.setPlayer_of_ne _ _ hq] at hx
                · have kept : t.tradeItem p = some x := by
                    simpa [Trade.clear, Trade.tradeItem, Trade.setPlayer_of_ne _ _ hq,
                      Trade.setPlayer_of_ne _ _ hr] using hx
                  have before := Trade.closes_item c kept
                  rw [Trade.tradeItem, Trade.Linked.exchanging_player ne,
                    if_neg (not_or.mpr ⟨hr, hq⟩)] at before
                  exact (item p).symm.trans before
          · exact item p ▸ hx
  | close r =>
      left
      simp only [step, playerCloseTrade] at hx
      split at hx
      · exact hx
      · exact Trade.closes_item (.close _ r) hx
  | logout r =>
      left
      simp only [step, logout] at hx
      split at hx
      · exact Trade.closes_item (.close _ r) hx
      · exact hx

theorem isHoldingItem_of_no_container {w : World} {c i : ItemRef}
    (hc : w.getContainer c = none) : w.isHoldingItem c i = false := by
  simp [World.isHoldingItem, World.iterator, World.subContainers, hc, World.walkFuel, World.iterate]

end Game

/-! ### Runs -/

namespace Run

variable {past : List (Game × Event)} {g : Game}

theorem linked (run : Run past g) :
    g.trade.Linked ∧ ∀ p, g.trade.tradeState p ≠ .transfer := by
  induction run with
  | start w => exact ⟨Trade.linked_idle, fun p => by simp [Trade.idle, Trade.tradeState]⟩
  | action _ a ih => exact Game.step_linked ih.1 ih.2 a
  | change _ w closes ih =>
      exact ⟨ih.1.closes closes, fun p => Trade.closes_quiet closes (ih.2 p)⟩

theorem settled (run : Run past g) : g.trade.Settled := by
  obtain ⟨linked, quiet⟩ := run.linked
  exact ⟨linked.partner, fun _ _ => linked.symm, quiet, fun _ => linked.offered,
    fun i p => by rw [linked.listed, and_iff_left (quiet p)]⟩

/-- In every state of a run the trade fields of the players and the map of the
items on the tables fit together, and an item that comes onto a table is not on
one, in one that is, and holds none that is. -/
theorem trades_linked (run : Run past g) :
    g.trade.Settled ∧ ∀ a p x,
      (g.step a).trade.tradeItem p = some x → g.trade.tradeItem p ≠ some x →
      ∀ q i, g.trade.tradeItem q = some i →
        i ≠ x ∧ g.world.isHoldingItem x i = false ∧ g.world.isHoldingItem i x = false := by
  obtain ⟨linked, quiet⟩ := run.linked
  refine ⟨run.settled, fun a p x after before q i hi => ?_⟩
  obtain ⟨s, pos, r, spriteId, granted⟩ := (Game.step_item linked after).resolve_left before
  have listed : i ∈ g.trade.tradeItems.keys := by
    rw [← AList.mem_keys, ← AList.lookup_isSome, (linked.listed i q).mpr ⟨hi, quiet q⟩]
    rfl
  obtain ⟨ne, holds, held⟩ := Game.isTraded_false (Game.tradeRequest_granted granted).2 listed
  refine ⟨ne.symm, ?_, ?_⟩
  · cases hc : g.world.getContainer x with
    | none => exact Game.isHoldingItem_of_no_container hc
    | some k => exact holds (by simp [hc])
  · cases hc : g.world.getContainer i with
    | none => exact Game.isHoldingItem_of_no_container hc
    | some k => exact held (by simp [hc])

end Run

/-! ### Two players side by side

One holds a sword, the other wears an armor. -/

namespace Sample

def barter : Game where
  world :=
    { world [{ id := 8, parent := some (.player 0) }, { id := 7, parent := some (.player 1) }]
        { } fun _ => none with
      players := [0, 1]
      player := fun p =>
        if p = 0 then
          { inventory := fun s => if s = 6 then some 0 else none, capacity := 1000
            tile := some here }
        else if p = 1 then
          { inventory := fun s => if s = 4 then some 1 else none, capacity := 1000
            tile := some here }
        else {} }
  trade := .idle

/-- Each of the two offers what he has to the other. -/
def offerSword : Action := .request {} 0 ⟨0xFFFF, 6, 0⟩ 1 0
def offerArmor : Action := .request {} 1 ⟨0xFFFF, 4, 0⟩ 0 0

theorem barter_run : Run [(barter, .action offerSword)] (barter.step offerSword) :=
  (Run.start barter.world).action offerSword

/-- The armor comes onto the table when the sword lies there. -/
theorem barter_linked :
    (barter.step offerSword).trade.Settled ∧ ∀ a p x,
      ((barter.step offerSword).step a).trade.tradeItem p = some x →
      (barter.step offerSword).trade.tradeItem p ≠ some x →
      ∀ q i, (barter.step offerSword).trade.tradeItem q = some i →
        i ≠ x ∧ (barter.step offerSword).world.isHoldingItem x i = false ∧
          (barter.step offerSword).world.isHoldingItem i x = false :=
  barter_run.trades_linked

example : ((barter.step offerSword).step offerArmor).trade.tradeItem 1 = some 1 := by decide

end Sample

end TibServer
