import TibServer.Sessions

/-!
Consent to a trade. An accept is kept as a state of the player who made it, and
is looked at again when the partner accepts. Made when both items are on the
table it stands for these two items; but the server also lets a player accept
who has offered an item and has not been shown one.
-/

namespace TibServer

namespace Game

variable {g : Game} {s : Surroundings} {p q r : PlayerId} {x y : ItemRef}

/-- Two partners, and what each of them has put on the table. -/
structure OnTable (g : Game) (p q : PlayerId) (x y : ItemRef) : Prop where
  partner : g.trade.tradePartner p = some q
  back : g.trade.tradePartner q = some p
  item : g.trade.tradeItem p = some x
  counterOffer : g.trade.tradeItem q = some y

/-- An accept that counts, of a player who has offered an item to one who has not. -/
def Premature (g : Game) : Event → Prop
  | .action (.accept s p) => g.trade.tradeState p = .initiated ∧
      ∃ q, g.acceptPartner s p = some q ∧ g.trade.tradeItem q = none
  | _ => False

/-- `p` has accepted the exchange of `x` for `y` with `q` when both were on the
table, and they have been there ever since. -/
def Consented (past : List (Game × Event)) (p q : PlayerId) (x y : ItemRef) : Prop :=
  ∃ recent s g older, past = recent ++ (g, .action (.accept s p)) :: older ∧
    g.acceptPartner s p = some q ∧ g.OnTable p q x y ∧ ∀ e ∈ recent, e.1.OnTable p q x y

theorem Consented.later {past : List (Game × Event)} (h : Consented past p q x y)
    (table : g.OnTable p q x y) (e : Event) : Consented ((g, e) :: past) p q x y := by
  obtain ⟨recent, s, g', older, rfl, accepted, table', since⟩ := h
  refine ⟨(g, e) :: recent, s, g', older, rfl, accepted, table', fun e' he' => ?_⟩
  rcases List.mem_cons.mp he' with rfl | he'
  · exact table
  · exact since e' he'

/-! ### What a step does to an accept -/

/-- The fields of a player who has accepted stay as they are through a close, or
the accept is gone. -/
theorem closes_accept {t t' : Trade} (c : Closes t t') (linked : t'.Linked)
    (hq : t'.tradeState q = .accept) (hp : t'.tradePartner q = some p) :
    t'.player q = t.player q ∧ t'.player p = t.player p := by
  have back := linked.symm hp
  refine ⟨(Trade.closes_player c q).resolve_right fun none_ => ?_,
    (Trade.closes_player c p).resolve_right fun none_ => ?_⟩
  · simp [Trade.tradeState, none_] at hq
  · simp [Trade.tradePartner, none_] at back

theorem closes_accept_item {t t' : Trade} (c : Closes t t') (linked : t'.Linked)
    (hq : t'.tradeState q = .accept) (hp : t'.tradePartner q = some p) :
    t'.player q = t.player q ∧ ∀ x, t.tradeItem p = some x → t'.tradeItem p = some x := by
  obtain ⟨sameQ, sameP⟩ := closes_accept c linked hq hp
  exact ⟨sameQ, fun x hx => by rwa [Trade.tradeItem, sameP]⟩

theorem start_accept {t t' : Trade} (h : t.Linked) {item : ItemRef} {u : PlayerId}
    (opened : t.internalStartTrade r u item = .ok t') (ne : r ≠ u)
    (hq : t'.tradeState q = .accept) :
    t'.player q = t.player q ∧ ∀ x, t.tradeItem p = some x → t'.tradeItem p = some x := by
  simp only [Trade.internalStartTrade] at opened
  split_ifs at opened with busy busy' alone
  · -- the partner was free: neither of the two has accepted
    obtain rfl := Except.ok.inj opened
    have hqu : q ≠ u := by
      rintro rfl
      simp [Trade.tradeState] at hq
    have hqr : q ≠ r := by
      rintro rfl
      simp [Trade.tradeState, Trade.setPlayer_of_ne _ _ hqu, Trade.offer_player] at hq
    refine ⟨by simp [Trade.setPlayer_of_ne _ _ hqu, Trade.offer_player, hqr], fun x hx => ?_⟩
    have stateU : t.tradeState u = .none := by
      simpa [Trade.tradeState, Trade.offer_player, Function.update_of_ne ne.symm] using alone
    have stateR : t.tradeState r = .none := by
      by_contra busyR
      refine busy ⟨busyR, fun answer => ?_⟩
      have none_ := (h.partner u).mpr stateU
      rw [h.symm answer.2] at none_
      cases none_
    by_cases hpu : p = u
    · rw [hpu, h.bare (.inl stateU)] at hx
      cases hx
    · by_cases hpr : p = r
      · rw [hpr, h.bare (.inl stateR)] at hx
        cases hx
      · simpa [Trade.tradeItem, Trade.setPlayer_of_ne _ _ hpu, Trade.offer_player, hpr] using hx
  · obtain rfl := Except.ok.inj opened
    have hqr : q ≠ r := by
      rintro rfl
      simp [Trade.tradeState, Trade.offer_player] at hq
    refine ⟨by simp [Trade.offer_player, hqr], fun x hx => ?_⟩
    by_cases hpr : p = r
    · -- the one who offers now had nothing on the table
      have stateR : t.tradeState r = .none ∨ t.tradeState r = .acknowledge := by
        by_contra neither
        rw [not_or] at neither
        exact busy ⟨neither.1, fun answer => neither.2 answer.1⟩
      rw [hpr, h.bare stateR] at hx
      cases hx
    · simpa [Trade.tradeItem, Trade.offer_player, hpr] using hx

/-- Who closes a trade is free. -/
theorem close_self {t : Trade} (quiet : ∀ r, t.tradeState r ≠ .transfer) (r : PlayerId) :
    (t.internalCloseTrade r).player r = {} := by
  have open_ : ¬((t.tradePartner r).map t.tradeState = some .transfer ∨
      t.tradeState r = .transfer) := by
    rintro (partner | self)
    · obtain ⟨u, -, state⟩ := Option.map_eq_some_iff.mp partner
      exact quiet u state
    · exact quiet r self
  simp only [Trade.internalCloseTrade, if_neg open_]
  cases t.tradePartner r with
  | none => simp [Trade.leave]
  | some u =>
      by_cases e : r = u
      · simp [Trade.leave, e]
      · simp [Trade.leave, Trade.setPlayer_of_ne _ _ e]

theorem setTradeState_player (t : Trade) (p r : PlayerId) :
    (t.setTradeState p .accept).player r =
      if r = p then { t.player p with tradeState := .accept } else t.player r := by
  by_cases e : r = p
  · simp [Trade.setTradeState, e]
  · simp [Trade.setTradeState, Trade.setPlayer_of_ne _ _ e, e]

/-- After a step, an accept is one from before the step, or the step made it. -/
theorem step_accept (h : g.trade.Linked) (quiet : ∀ p, g.trade.tradeState p ≠ .transfer)
    {a : Action} (hq : (g.step a).trade.tradeState q = .accept)
    (hp : (g.step a).trade.tradePartner q = some p) :
    ((g.step a).trade.player q = g.trade.player q ∧
      ∀ x, g.trade.tradeItem p = some x → (g.step a).trade.tradeItem p = some x) ∨
    ∃ s, a = .accept s q ∧ g.acceptPartner s q = some p ∧
      ∀ r, (g.step a).trade.tradeItem r = g.trade.tradeItem r := by
  have linked := (step_linked h quiet a).1
  cases a with
  | request s r pos u spriteId =>
      left
      simp only [step, playerRequestTrade] at hq ⊢
      split at hq
      · next item granted =>
          split at hq
          · next t opened => exact start_accept h opened (tradeRequest_granted granted).1 hq
          · exact ⟨rfl, fun x => id⟩
      · exact ⟨rfl, fun x => id⟩
  | accept s r =>
      simp only [step, playerAcceptTrade] at hq hp linked ⊢
      split at hq
      · exact .inl ⟨rfl, fun x => id⟩
      · next u accepted =>
          obtain ⟨-, state, partner, -⟩ := acceptPartner_some accepted
          have marked := setTradeState_player g.trade r
          have item (v : PlayerId) :
              (g.trade.setTradeState r .accept).tradeItem v = g.trade.tradeItem v := by
            rw [Trade.tradeItem, marked]
            split_ifs with e
            · rw [e]
              rfl
            · rfl
          simp only [accepted] at hp linked ⊢
          split at hq
          · next both =>
              -- the trade is over for the two of them
              left
              have ne : r ≠ u := fun e => h.other r (by rw [partner, e])
              rcases completeTrade_cases (g.setTrade (g.trade.setTradeState r .accept)) s r u with
                closed | ⟨t, c, cleared⟩
              · simp only [if_pos both] at hp linked ⊢
                rw [closed] at hq hp linked ⊢
                obtain ⟨keptQ, keptP⟩ := closes_accept (.close _ r) linked hq hp
                have free := close_self (setTradeState_quiet quiet r) r
                have hqr : q ≠ r := by
                  rintro rfl
                  simp [Trade.tradeState, free] at hq
                refine ⟨by rw [keptQ, setTrade_trade, marked, if_neg hqr], fun x hx => ?_⟩
                rw [Trade.tradeItem, keptP]
                exact (item p).trans hx
              · simp only [if_pos both] at hp linked ⊢
                have back := linked.symm hp
                rw [cleared] at hq hp back ⊢
                have kept (v : PlayerId) (hv : ((t.clear r).clear u).player v ≠ {}) :
                    ((t.clear r).clear u).player v = t.player v ∧ v ≠ r ∧ v ≠ u := by
                  by_cases hvu : v = u
                  · exact absurd (by simp [Trade.clear, hvu]) hv
                  · by_cases hvr : v = r
                    · subst hvr
                      exact absurd (by simp [Trade.clear, Trade.setPlayer_of_ne _ _ hvu]) hv
                    · exact ⟨by simp [Trade.clear, Trade.setPlayer_of_ne _ _ hvu,
                        Trade.setPlayer_of_ne _ _ hvr], hvr, hvu⟩
                obtain ⟨sameQ, hqr, hqu⟩ := kept q fun e => by simp [Trade.tradeState, e] at hq
                obtain ⟨sameP, hpr, hpu⟩ := kept p fun e => by simp [Trade.tradePartner, e] at back
                have busyQ : t.player q ≠ {} := fun e => by
                  simp [Trade.tradeState, sameQ, e] at hq
                have busyP : t.player p ≠ {} := fun e => by
                  simp [Trade.tradePartner, sameP, e] at back
                have before (v : PlayerId) (hvr : v ≠ r) (hvu : v ≠ u) :
                    ((g.trade.setTradeState r .accept).exchanging r u).player v =
                      g.trade.player v := by
                  rw [Trade.Linked.exchanging_player ne, if_neg (not_or.mpr ⟨hvr, hvu⟩), marked,
                    if_neg hvr]
                refine ⟨?_, fun x hx => ?_⟩
                · rw [sameQ, (Trade.closes_player c q).resolve_right busyQ, setTrade_trade,
                    before q hqr hqu]
                · rw [Trade.tradeItem, sameP, (Trade.closes_player c p).resolve_right busyP,
                    setTrade_trade, before p hpr hpu]
                  exact hx
          · next alone =>
              simp only [if_neg alone] at hp ⊢
              by_cases hqr : q = r
              · subst hqr
                right
                have same : u = p := by
                  rw [setTrade_trade, Trade.tradePartner, marked, if_pos rfl] at hp
                  exact Option.some.inj (partner.symm.trans hp)
                exact ⟨s, rfl, same ▸ accepted, item⟩
              · left
                refine ⟨by rw [setTrade_trade, marked, if_neg hqr], fun x hx => ?_⟩
                exact (item p).trans hx
  | close r =>
      left
      have c : Closes g.trade (g.step (.close r)).trade := by
        simp only [step, playerCloseTrade]
        split
        · exact .refl _
        · exact .close _ r
      exact closes_accept_item c linked hq hp
  | logout r =>
      left
      have c : Closes g.trade (g.step (.logout r)).trade := by
        simp only [step, logout]
        split
        · exact .close _ r
        · exact .refl _
      exact closes_accept_item c linked hq hp

/-! ### What moves items -/

/-- Of the trade handlers only an accept moves items, and only when the partner
has accepted and both have put an item on the table. -/
theorem step_moves (h : g.trade.Linked) {a : Action}
    (moved : (g.step a).world.things ≠ g.world.things) :
    ∃ s p q x y, a = .accept s p ∧ g.acceptPartner s p = some q ∧
      g.trade.tradeState q = .accept ∧ g.trade.tradeItem p = some x ∧
      g.trade.tradeItem q = some y := by
  cases a with
  | request s p pos q spriteId =>
      refine absurd ?_ moved
      simp only [step, playerRequestTrade]
      split
      · split <;> rfl
      · rfl
  | accept s p =>
      simp only [step, playerAcceptTrade] at moved
      cases accepted : g.acceptPartner s p with
      | none => simp [accepted] at moved
      | some q =>
          obtain ⟨-, -, partner, -⟩ := acceptPartner_some accepted
          have marked := setTradeState_player g.trade p
          have item (v : PlayerId) :
              (g.trade.setTradeState p .accept).tradeItem v = g.trade.tradeItem v := by
            rw [Trade.tradeItem, marked]
            split_ifs with e
            · rw [e]
              rfl
            · rfl
          simp only [accepted] at moved
          split at moved
          · next both =>
              simp only [completeTrade, setTrade_trade, item] at moved
              split at moved
              · exact absurd rfl moved
              · cases itemP : g.trade.tradeItem p with
                | none => simp [itemP] at moved
                | some x =>
                    cases itemQ : g.trade.tradeItem q with
                    | none => simp [itemP, itemQ] at moved
                    | some y =>
                        have ne : q ≠ p := fun e => h.other p (by rw [partner, e])
                        rw [setTrade_trade, Trade.tradeState, marked, if_neg ne] at both
                        exact ⟨s, p, q, x, y, rfl, accepted, both, itemP, itemQ⟩
          · exact absurd rfl moved
  | close p =>
      refine absurd ?_ moved
      simp only [step, playerCloseTrade]
      split <;> rfl
  | logout p =>
      refine absurd ?_ moved
      simp only [step, logout]
      split <;> (funext c; cases c <;> rfl)

end Game

/-! ### Runs -/

namespace Run

variable {past : List (Game × Event)} {g : Game}

/-- In a run without premature accepts, a player who has accepted, and has an
item on the table, has consented to the exchange. -/
theorem accepted (run : Run past g) (timely : ∀ e ∈ past, ¬e.1.Premature e.2)
    {p q : PlayerId} {x : ItemRef} (accept : g.trade.tradeState p = .accept)
    (partner : g.trade.tradePartner p = some q) (item : g.trade.tradeItem p = some x) :
    ∃ y, g.trade.tradeItem q = some y ∧ Game.Consented past p q x y := by
  induction run with
  | start w => simp [Trade.idle, Trade.tradeState] at accept
  | @action past g run a ih =>
      obtain ⟨linked, quiet⟩ := run.linked
      rcases Game.step_accept linked quiet accept partner with ⟨same, kept⟩ | ⟨s, rfl, made, items⟩
      · -- the accept is an older one
        have accept' : g.trade.tradeState p = .accept := by
          rwa [Trade.tradeState, ← same]
        have partner' : g.trade.tradePartner p = some q := by
          rwa [Trade.tradePartner, ← same]
        have item' : g.trade.tradeItem p = some x := by
          rwa [Trade.tradeItem, ← same]
        obtain ⟨y, counterOffer, consented⟩ :=
          ih (fun e he => timely e (List.mem_cons_of_mem _ he)) accept' partner' item'
        exact ⟨y, kept y counterOffer,
          consented.later ⟨partner', linked.symm partner', item', counterOffer⟩ _⟩
      · -- the accept is made here
        rw [items] at item
        obtain ⟨-, state, partner', -⟩ := Game.acceptPartner_some made
        have initiated : g.trade.tradeState p = .initiated := by
          refine state.resolve_left fun asked => ?_
          rw [linked.bare (.inr asked)] at item
          cases item
        have counter : g.trade.tradeItem q ≠ none := fun none_ =>
          timely _ List.mem_cons_self ⟨initiated, q, made, none_⟩
        obtain ⟨y, counterOffer⟩ := Option.ne_none_iff_exists'.mp counter
        refine ⟨y, (items q).trans counterOffer, [], s, g, past, rfl, made,
          ⟨partner', linked.symm partner', item, counterOffer⟩, by simp⟩
  | @change past g run w t closes ih =>
      obtain ⟨linked, quiet⟩ := run.linked
      obtain ⟨sameP, sameQ⟩ := Game.closes_accept closes (linked.closes closes) accept partner
      have accept' : g.trade.tradeState p = .accept := by
        rwa [Trade.tradeState, ← sameP]
      have partner' : g.trade.tradePartner p = some q := by
        rwa [Trade.tradePartner, ← sameP]
      have item' : g.trade.tradeItem p = some x := by
        rwa [Trade.tradeItem, ← sameP]
      obtain ⟨y, counterOffer, consented⟩ :=
        ih (fun e he => timely e (List.mem_cons_of_mem _ he)) accept' partner' item'
      refine ⟨y, ?_, consented.later ⟨partner', linked.symm partner', item', counterOffer⟩ _⟩
      rwa [Trade.tradeItem, sameQ]

/-- In a run without premature accepts, items only change hands between two
players who both accept the exchange with both items on the table: one of them
now, the other before, and the items have stayed there. -/
theorem exchange_consented (run : Run past g) (timely : ∀ e ∈ past, ¬e.1.Premature e.2)
    (a : Action) (moved : (g.step a).world.things ≠ g.world.things) :
    ∃ s p q x y, a = .accept s p ∧ g.acceptPartner s p = some q ∧ g.OnTable p q x y ∧
      Game.Consented past q p y x := by
  obtain ⟨s, p, q, x, y, rfl, made, accept, itemP, itemQ⟩ := Game.step_moves run.linked.1 moved
  obtain ⟨-, -, partner, -⟩ := Game.acceptPartner_some made
  have back := run.linked.1.symm partner
  obtain ⟨x', itemP', consented⟩ := run.accepted timely accept back itemQ
  obtain rfl : x = x' := Option.some.inj (itemP.symm.trans itemP')
  exact ⟨s, p, q, x, y, rfl, made, ⟨partner, back, itemP, itemQ⟩, consented⟩

end Run

/-! ### A hasty accept

The player with the sword offers it and accepts, before the other one has
offered anything; the other one offers his armor, and accepts. -/

namespace Sample

def hasty₁ : Game := barter.step offerSword
def hasty₂ : Game := hasty₁.step (.accept {} 0)
def hasty₃ : Game := hasty₂.step offerArmor

/-- The items are exchanged, and the first player has not accepted after both
were on the table. -/
theorem hasty_exchange :
    ∃ past, Run past hasty₃ ∧
      (hasty₃.step (.accept {} 1)).world.things (.player 0) = [1] ∧
      (hasty₃.step (.accept {} 1)).world.things (.player 1) = [0] ∧
      hasty₃.world.things (.player 0) = [0] ∧
      ∀ x y, ¬Game.Consented past 0 1 x y := by
  refine ⟨_, ((barter_run.action (.accept {} 0)).action offerArmor), by decide, by decide,
    by decide, ?_⟩
  rintro x y ⟨recent, s, g, older, past, -, table, -⟩
  have member : (g, Event.action (.accept s 0)) ∈
      recent ++ (g, Event.action (.accept s 0)) :: older := by simp
  rw [← past] at member
  -- the only accept was made when nothing had been offered for the sword
  obtain ⟨early, -⟩ : g = hasty₁ ∧ s = {} := by
    simpa [offerSword, offerArmor, hasty₁] using member
  have none_ : hasty₁.trade.tradeItem 1 = none := by decide
  rw [early] at table
  rw [table.counterOffer] at none_
  cases none_

def fair₁ : Game := hasty₁.step offerArmor
def fair₂ : Game := fair₁.step (.accept {} 0)

theorem fair_run : Run [(fair₁, .action (.accept {} 0)), (hasty₁, .action offerArmor),
    (barter, .action offerSword)] fair₂ :=
  (barter_run.action offerArmor).action (.accept {} 0)

/-- Accepted in due time, the exchange is one both consented to. -/
theorem fair_consented :
    ∃ s p q x y, Action.accept {} 1 = .accept s p ∧ fair₂.acceptPartner s p = some q ∧
      fair₂.OnTable p q x y ∧
      Game.Consented [(fair₁, .action (.accept {} 0)), (hasty₁, .action offerArmor),
        (barter, .action offerSword)] q p y x := by
  refine fair_run.exchange_consented ?_ (.accept {} 1) fun same => ?_
  · intro e he
    simp only [List.mem_cons, List.not_mem_nil, or_false] at he
    rcases he with rfl | rfl | rfl
    · rintro ⟨-, q, accepted, none_⟩
      obtain rfl : q = 1 := Option.some.inj (accepted.symm.trans (by decide))
      exact absurd none_ (by decide)
    · exact id
    · exact id
  · exact absurd (congrFun same (.player 0)) (by decide)

end Sample

end TibServer
