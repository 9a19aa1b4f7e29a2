import TibServer.Closing

/-!
Who trades with whom. The three trade fields of the players and the map of the
items on the tables are set and cleared in several places; what ties them
together is one invariant, kept by every handler and by every close.
-/

namespace TibServer

namespace Trade

variable {t t' : Trade} {p q r : PlayerId} {i : ItemRef}

/-- No player trades. -/
def idle : Trade := { player := fun _ => {}, tradeItems := ∅ }

/-! ### The map of the items -/

theorem lookup_eraseItem (o : Option ItemRef) (i : ItemRef) :
    (t.eraseItem o).tradeItems.lookup i = if o = some i then none else t.tradeItems.lookup i := by
  cases o with
  | none => simp [eraseItem]
  | some x =>
      by_cases hx : x = i
      · subst hx
        simp [eraseItem, AList.lookup_erase]
      · simp [eraseItem, hx, AList.lookup_erase_ne (Ne.symm hx)]

/-- The item at the head of a list of offers is found under its owner. -/
theorem lookup_offer (player partner : PlayerId) (item i : ItemRef) :
    (t.offer player partner item).tradeItems.lookup i =
      if i = item then some player else t.tradeItems.lookup i := by
  by_cases hi : i = item
  · subst hi
    simp [offer]
  · simp [offer, hi, AList.lookup_insert_ne]

theorem offer_player (player partner : PlayerId) (item : ItemRef) :
    (t.offer player partner item).player =
      Function.update t.player player
        { tradePartner := some partner, tradeItem := some item, tradeState := .initiated } := rfl

/-! ### The invariant -/

/-- What holds of the trades at any time, also while a handler runs. -/
structure Linked (t : Trade) : Prop where
  partner : ∀ p, t.tradePartner p = none ↔ t.tradeState p = .none
  symm : ∀ {p q}, t.tradePartner p = some q → t.tradePartner q = some p
  other : ∀ p, t.tradePartner p ≠ some p
  offered : ∀ {p}, t.tradeState p = .initiated → (t.tradeItem p).isSome
  bare : ∀ {p}, t.tradeState p = .none ∨ t.tradeState p = .acknowledge → t.tradeItem p = none
  listed : ∀ i p, t.tradeItems.lookup i = some p ↔
    t.tradeItem p = some i ∧ t.tradeState p ≠ .transfer

theorem linked_idle : Linked idle where
  partner p := by simp [idle, tradePartner, tradeState]
  symm h := by simp [idle, tradePartner] at h
  other p := by simp [idle, tradePartner]
  offered h := by simp [idle, tradeState] at h
  bare _ := rfl
  listed i p := by simp [idle, tradeItem]

namespace Linked

/-- A player without a partner has nothing set. -/
theorem player_of_none (h : Linked t) (hp : t.tradePartner p = none) : t.player p = {} := by
  have state := (h.partner p).mp hp
  have item := h.bare (.inl state)
  rcases hpl : t.player p with ⟨partner, ti, s⟩
  simp only [tradePartner, tradeState, tradeItem, hpl] at hp state item
  rw [hp, state, item]

/-- Two partners part: nothing of them is left, all others are as they were. -/
theorem parted (h : Linked t) (hp : t.tradePartner p = some q)
    (players : ∀ r, t'.player r = if r = p ∨ r = q then {} else t.player r)
    (items : ∀ i r, t'.tradeItems.lookup i = some r ↔
      t.tradeItems.lookup i = some r ∧ r ≠ p ∧ r ≠ q) : Linked t' := by
  have hq := h.symm hp
  -- nobody else has one of the two as a partner
  have apart {r s : PlayerId} (hs : t.tradePartner r = some s) : r = p ∨ r = q ↔ s = p ∨ s = q := by
    have hr := h.symm hs
    constructor
    · rintro (rfl | rfl)
      · exact .inr (Option.some.inj (hs.symm.trans hp))
      · exact .inl (Option.some.inj (hs.symm.trans hq))
    · rintro (rfl | rfl)
      · exact .inr (Option.some.inj (hr.symm.trans hp))
      · exact .inl (Option.some.inj (hr.symm.trans hq))
  have partner (r) : t'.tradePartner r = if r = p ∨ r = q then none else t.tradePartner r := by
    simp only [tradePartner, players r]
    split <;> rfl
  have state (r) : t'.tradeState r = if r = p ∨ r = q then .none else t.tradeState r := by
    simp only [tradeState, players r]
    split <;> rfl
  have item (r) : t'.tradeItem r = if r = p ∨ r = q then none else t.tradeItem r := by
    simp only [tradeItem, players r]
    split <;> rfl
  constructor
  case partner =>
    intro r
    rw [partner, state]
    split
    · simp
    · exact h.partner r
  case symm =>
    intro r s hs
    rw [partner] at hs
    split at hs
    · exact absurd hs (by simp)
    · next out =>
        rw [partner, if_neg ((apart hs).not.mp out)]
        exact h.symm hs
  case other =>
    intro r hr
    rw [partner] at hr
    split at hr
    · exact absurd hr (by simp)
    · exact h.other r hr
  case offered =>
    intro r hr
    rw [state] at hr
    split at hr
    · exact absurd hr (by simp)
    · next out =>
        rw [item, if_neg out]
        exact h.offered hr
  case bare =>
    intro r hr
    rw [item]
    split
    · rfl
    · next out =>
        rw [state, if_neg out] at hr
        exact h.bare hr
  case listed =>
    intro i r
    rw [items, h.listed, item, state]
    by_cases out : r = p ∨ r = q
    · simp only [if_pos out]
      constructor
      · rintro ⟨-, hp, hq⟩
        exact absurd out (by simp [hp, hq])
      · rintro ⟨⟨⟩, -⟩
    · simp only [if_neg out]
      rw [not_or] at out
      simp [out]

/-! ### Closing -/

theorem close (h : Linked t) (p : PlayerId) : Linked (t.internalCloseTrade p) := by
  unfold internalCloseTrade
  simp only
  split
  · exact h
  · next open_ =>
      rw [not_or] at open_
      obtain ⟨hq, hp⟩ := open_
      cases partner : t.tradePartner p with
      | none =>
          -- closing an idle player changes nothing
          have bare := h.player_of_none partner
          have same : t.leave p = t := by
            have item : t.tradeItem p = none := by simp [tradeItem, bare]
            simp only [leave, item, eraseItem, setPlayer]
            rw [← bare, Function.update_eq_self]
          simp only [same]
          exact h
      | some q =>
          simp only [partner, Option.map_some, Option.some.injEq] at hq
          have ne : q ≠ p := fun e => h.other p (e ▸ partner)
          have item : (t.leave p).tradeItem q = t.tradeItem q := by
            simp [leave, tradeItem, setPlayer_of_ne _ _ ne]
          refine h.parted partner (fun r => ?_) (fun i r => ?_)
          · simp only [leave, setPlayer, eraseItem_player, Function.update_apply]
            by_cases hrq : r = q <;> by_cases hrp : r = p <;> simp [hrq, hrp]
          · have lookup : ((t.leave p).leave q).tradeItems.lookup i =
                if t.tradeItem q = some i then none
                else if t.tradeItem p = some i then none else t.tradeItems.lookup i := by
              rw [leave, setPlayer_tradeItems, lookup_eraseItem, item, leave,
                setPlayer_tradeItems, lookup_eraseItem]
            have atP : t.tradeItem p = some i → t.tradeItems.lookup i = some p :=
              fun hi => (h.listed i p).mpr ⟨hi, hp⟩
            have atQ : t.tradeItem q = some i → t.tradeItems.lookup i = some q :=
              fun hi => (h.listed i q).mpr ⟨hi, hq⟩
            rw [lookup]
            constructor
            · intro found
              split_ifs at found with onQ onP
              refine ⟨found, ?_, ?_⟩
              · rintro rfl
                exact onP ((h.listed i r).mp found).1
              · rintro rfl
                exact onQ ((h.listed i r).mp found).1
            · rintro ⟨found, hrp, hrq⟩
              rw [if_neg fun hi => hrq (Option.some.inj (found.symm.trans (atQ hi))),
                if_neg fun hi => hrp (Option.some.inj (found.symm.trans (atP hi)))]
              exact found

theorem closes (h : Linked t) (c : Closes t t') : Linked t' :=
  c.preserves (fun _ p ht => ht.close p) h

/-- A close leaves those alone who are exchanging their items. -/
theorem close_transfer (hp : t.tradeState p = .transfer) (r : PlayerId) :
    (t.internalCloseTrade r).player p = t.player p := by
  unfold internalCloseTrade
  simp only
  split
  · rfl
  · next open_ =>
      rw [not_or] at open_
      have hrp : p ≠ r := fun e => open_.2 (e ▸ hp)
      cases partner : t.tradePartner r with
      | none => simp [leave, setPlayer_of_ne _ _ hrp]
      | some q =>
          have hpq : p ≠ q := by
            rintro rfl
            exact open_.1 (by simp [partner, hp])
          simp [leave, setPlayer_of_ne _ _ hrp, setPlayer_of_ne _ _ hpq]

theorem closes_transfer (h : Linked t) (hp : t.tradeState p = .transfer) (c : Closes t t') :
    t'.player p = t.player p := by
  have kept : Linked t' ∧ t'.player p = t.player p :=
    c.preserves (P := fun s => Linked s ∧ s.player p = t.player p)
      (fun s r hs => ⟨hs.1.close r,
        (close_transfer (by rw [tradeState, hs.2]; exact hp) r).trans hs.2⟩) ⟨h, rfl⟩
  exact kept.2

/-! ### Opening -/

/-- Two players join: one puts an item on the table, the other is told, or has
put an item there before. -/
theorem joined {s : TradeState} (h : Linked t) (ne : p ≠ q)
    (fresh : t.tradeItems.lookup i = none) (bare : t.tradeItem p = none)
    (free : (t.tradePartner p = none ∧ t.tradePartner q = none ∧ s = .acknowledge) ∨
      (t.tradePartner p = some q ∧ s = t.tradeState q))
    (players : ∀ r, t'.player r =
      if r = p then ⟨some q, some i, .initiated⟩
      else if r = q then ⟨some p, t.tradeItem q, s⟩ else t.player r)
    (items : ∀ j, t'.tradeItems.lookup j = if j = i then some p else t.tradeItems.lookup j) :
    Linked t' := by
  -- whoever had one of the two as a partner is the other one
  have apart {r u : PlayerId} (hu : t.tradePartner r = some u) (hr : r ≠ p ∧ r ≠ q) :
      u ≠ p ∧ u ≠ q := by
    have back := h.symm hu
    rcases free with ⟨noneP, noneQ, -⟩ | ⟨some_, -⟩
    · exact ⟨by rintro rfl; simp [noneP] at back, by rintro rfl; simp [noneQ] at back⟩
    · constructor
      · rintro rfl
        exact hr.2 (Option.some.inj (back.symm.trans some_))
      · rintro rfl
        exact hr.1 (Option.some.inj (back.symm.trans (h.symm some_)))
  have partner (r) : t'.tradePartner r =
      if r = p then some q else if r = q then some p else t.tradePartner r := by
    simp only [tradePartner, players r]
    split_ifs <;> rfl
  have state (r) : t'.tradeState r =
      if r = p then .initiated else if r = q then s else t.tradeState r := by
    simp only [tradeState, players r]
    split_ifs <;> rfl
  have item (r) : t'.tradeItem r = if r = p then some i else t.tradeItem r := by
    simp only [tradeItem, players r]
    split_ifs with hr hr'
    · rfl
    · subst hr'; rfl
    · rfl
  have stateQ : s ≠ .none := by
    rcases free with ⟨-, -, rfl⟩ | ⟨some_, rfl⟩
    · simp
    · intro none_
      rw [← h.partner, h.symm some_] at none_
      cases none_
  constructor
  case partner =>
    intro r
    rw [partner, state]
    split_ifs
    · simp
    · simp [stateQ]
    · exact h.partner r
  case symm =>
    intro r u hu
    rw [partner] at hu ⊢
    split_ifs at hu with hr hr'
    · obtain rfl := Option.some.inj hu
      simp [hr, ne.symm]
    · obtain rfl := Option.some.inj hu
      simp [hr']
    · obtain ⟨up, uq⟩ := apart hu ⟨hr, hr'⟩
      rw [if_neg up, if_neg uq]
      exact h.symm hu
  case other =>
    intro r hr
    rw [partner] at hr
    split_ifs at hr with e e'
    · exact ne (e.symm.trans (Option.some.inj hr).symm)
    · exact ne ((Option.some.inj hr).trans e')
    · exact h.other r hr
  case offered =>
    intro r hr
    rw [state] at hr
    rw [item]
    split_ifs at hr ⊢ with e e'
    · rfl
    · subst e'
      rcases free with ⟨-, -, rfl⟩ | ⟨-, rfl⟩
      · cases hr
      · exact h.offered hr
    · exact h.offered hr
  case bare =>
    intro r hr
    rw [state] at hr
    rw [item]
    split_ifs at hr ⊢ with e e'
    · simp at hr
    · subst e'
      rcases free with ⟨-, noneQ, -⟩ | ⟨-, rfl⟩
      · exact h.bare (.inl ((h.partner r).mp noneQ))
      · exact h.bare hr
    · exact h.bare hr
  case listed =>
    intro j r
    rw [items, item, state]
    by_cases hj : j = i
    · subst hj
      rw [if_pos rfl]
      constructor
      · intro hr
        obtain rfl := Option.some.inj hr
        simp
      · rintro ⟨hr, open_⟩
        split_ifs at hr open_ with e e'
        · rw [e]
        · subst e'
          rcases free with ⟨-, noneQ, -⟩ | ⟨-, rfl⟩
          · rw [h.bare (.inl ((h.partner r).mp noneQ))] at hr
            cases hr
          · simp [(h.listed j r).mpr ⟨hr, open_⟩] at fresh
        · simp [(h.listed j r).mpr ⟨hr, open_⟩] at fresh
    · rw [if_neg hj, h.listed]
      split_ifs with e e'
      · subst e
        simp [bare, Ne.symm hj]
      · subst e'
        rcases free with ⟨-, noneQ, -⟩ | ⟨-, rfl⟩
        · rw [h.bare (.inl ((h.partner r).mp noneQ))]
          simp
        · rfl
      · rfl

/-- A trade that is opened links two players who were free, or answers one. -/
theorem start (h : Linked t) (ne : p ≠ q) (fresh : t.tradeItems.lookup i = none)
    (opened : t.internalStartTrade p q i = .ok t') : Linked t' := by
  simp only [internalStartTrade] at opened
  split_ifs at opened with busy busy' alone
  · -- the partner is free, and so is the player
    obtain rfl := Except.ok.inj opened
    have stateQ : t.tradeState q = .none := by
      simpa [tradeState, offer_player, Function.update_of_ne ne.symm] using alone
    have noneQ := (h.partner q).mpr stateQ
    have stateP : t.tradeState p = .none := by
      by_contra busyP
      refine busy ⟨busyP, fun answer => ?_⟩
      rw [h.symm answer.2] at noneQ
      cases noneQ
    have noneP := (h.partner p).mpr stateP
    refine h.joined ne fresh (h.bare (.inl stateP)) (.inl ⟨noneP, noneQ, rfl⟩) (fun r => ?_)
      (fun j => ?_)
    · simp only [setPlayer, offer_player, Function.update_apply]
      split_ifs with e e' <;> simp_all [tradeItem]
    · rw [setPlayer_tradeItems, lookup_offer]
  · -- the partner waits for an answer
    obtain rfl := Except.ok.inj opened
    have stateQ : t.tradeState q ≠ .none := by
      simpa [tradeState, offer_player, Function.update_of_ne ne.symm] using alone
    have partnerQ : t.tradePartner q = some p := by
      by_contra other
      exact busy' ⟨stateQ, other⟩
    have partnerP := h.symm partnerQ
    have stateP : t.tradeState p = .acknowledge := by
      by_contra notAsked
      refine busy ⟨fun none_ => ?_, fun answer => notAsked answer.1⟩
      rw [(h.partner p).mpr none_] at partnerP
      cases partnerP
    refine h.joined ne fresh (h.bare (.inr stateP)) (.inr ⟨partnerP, rfl⟩) (fun r => ?_)
      (fun j => lookup_offer p q i j)
    simp only [offer_player, Function.update_apply]
    split_ifs with e e'
    · rfl
    · subst e'
      rw [← partnerQ]
      rfl
    · rfl

/-! ### Accepting and exchanging -/

/-- A state that says no more than that the player trades. -/
theorem setTradeState_accept (h : Linked t) (hp : t.tradeState p ≠ .none)
    (quiet : t.tradeState p ≠ .transfer) : Linked (t.setTradeState p .accept) := by
  have partner (r) : (t.setTradeState p .accept).tradePartner r = t.tradePartner r := by
    by_cases e : r = p
    · subst e; simp [setTradeState, tradePartner]
    · simp [setTradeState, tradePartner, setPlayer_of_ne _ _ e]
  have item (r) : (t.setTradeState p .accept).tradeItem r = t.tradeItem r := by
    by_cases e : r = p
    · subst e; simp [setTradeState, tradeItem]
    · simp [setTradeState, tradeItem, setPlayer_of_ne _ _ e]
  have state (r) : (t.setTradeState p .accept).tradeState r =
      if r = p then .accept else t.tradeState r := by
    by_cases e : r = p
    · subst e; simp [setTradeState, tradeState]
    · simp [setTradeState, tradeState, setPlayer_of_ne _ _ e, e]
  constructor
  case partner =>
    intro r
    rw [partner, state, h.partner]
    split_ifs with e
    · simp [e, hp]
    · rfl
  case symm =>
    intro r u hu
    rw [partner] at hu ⊢
    exact h.symm hu
  case other =>
    intro r
    rw [partner]
    exact h.other r
  case offered =>
    intro r hr
    rw [state] at hr
    rw [item]
    split_ifs at hr
    exact h.offered hr
  case bare =>
    intro r hr
    rw [state] at hr
    rw [item]
    split_ifs at hr
    · simp at hr
    · exact h.bare hr
  case listed =>
    intro i r
    have same : (t.setTradeState p .accept).tradeItems = t.tradeItems := rfl
    rw [same, h.listed, item, state]
    split_ifs with e
    · simp [e, quiet]
    · rfl

theorem exchanging_player (ne : p ≠ q) (r : PlayerId) :
    (exchanging t p q).player r =
      if r = p ∨ r = q then { t.player r with tradeState := .transfer } else t.player r := by
  simp only [exchanging, eraseItem_player, setTradeState, setPlayer, Function.update_apply]
  by_cases hq : r = q <;> by_cases hp : r = p <;> simp_all

theorem linked_exchanging (h : Linked t) (hp : t.tradePartner p = some q)
    (quietP : t.tradeState p ≠ .transfer) (quietQ : t.tradeState q ≠ .transfer) :
    Linked (exchanging t p q) := by
  have ne : p ≠ q := fun e => h.other p (by rw [hp, e])
  have hq := h.symm hp
  have players := exchanging_player (t := t) ne
  have partner (r) : (exchanging t p q).tradePartner r = t.tradePartner r := by
    simp only [tradePartner, players r]
    split <;> rfl
  have item (r) : (exchanging t p q).tradeItem r = t.tradeItem r := by
    simp only [tradeItem, players r]
    split <;> rfl
  have state (r) : (exchanging t p q).tradeState r =
      if r = p ∨ r = q then .transfer else t.tradeState r := by
    simp only [tradeState, players r]
    split <;> rfl
  constructor
  case partner =>
    intro r
    rw [partner, state]
    split_ifs with e
    · rcases e with rfl | rfl
      · simp [hp]
      · simp [hq]
    · exact h.partner r
  case symm =>
    intro r u hu
    rw [partner] at hu ⊢
    exact h.symm hu
  case other =>
    intro r
    rw [partner]
    exact h.other r
  case offered =>
    intro r hr
    rw [state] at hr
    rw [item]
    split_ifs at hr
    exact h.offered hr
  case bare =>
    intro r hr
    rw [state] at hr
    rw [item]
    split_ifs at hr
    · simp at hr
    · exact h.bare hr
  case listed =>
    intro i r
    have lookup : (exchanging t p q).tradeItems.lookup i =
        if t.tradeItem q = some i then none
        else if t.tradeItem p = some i then none else t.tradeItems.lookup i := by
      rw [exchanging, lookup_eraseItem, lookup_eraseItem]
      rfl
    have atP (hi : t.tradeItem p = some i) := (h.listed i p).mpr ⟨hi, quietP⟩
    have atQ (hi : t.tradeItem q = some i) := (h.listed i q).mpr ⟨hi, quietQ⟩
    rw [lookup, item, state]
    constructor
    · intro found
      split_ifs at found with onQ onP
      have here := (h.listed i r).mp found
      have out : ¬(r = p ∨ r = q) := by
        rintro (rfl | rfl)
        · exact onP here.1
        · exact onQ here.1
      rw [if_neg out]
      exact here
    · rintro ⟨hi, open_⟩
      split_ifs at open_ with out
      · exact absurd rfl open_
      rw [not_or] at out
      have found := (h.listed i r).mpr ⟨hi, open_⟩
      rw [if_neg fun hi => out.2 (Option.some.inj (found.symm.trans (atQ hi))),
        if_neg fun hi => out.1 (Option.some.inj (found.symm.trans (atP hi)))]
      exact found

/-- After the exchange both are free. -/
theorem cleared (h : Linked t) (hp : t.tradePartner p = some q)
    (busyP : t.tradeState p = .transfer) (busyQ : t.tradeState q = .transfer) :
    Linked ((t.clear p).clear q) := by
  refine h.parted hp (fun r => ?_) (fun i r => ?_)
  · simp only [clear, setPlayer, Function.update_apply]
    by_cases hrq : r = q <;> by_cases hrp : r = p <;> simp [hrq, hrp]
  · have same : ((t.clear p).clear q).tradeItems = t.tradeItems := rfl
    rw [same]
    refine ⟨fun found => ⟨found, ?_, ?_⟩, fun found => found.1⟩
    · rintro rfl
      exact ((h.listed i r).mp found).2 busyP
    · rintro rfl
      exact ((h.listed i r).mp found).2 busyQ

end Linked

end Trade

end TibServer
