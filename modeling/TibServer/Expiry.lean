import TibServer.Market

/-!
What the owner of an expired offer gets back. Between the query and the callback an offer may
only shrink or go, and the callback gives back what was fetched, so that it is right where the
row of the result set is still that of the table.
-/

namespace TibServer.Market

/-- What units of an offer are worth: units where it sells, gold where it buys. -/
def MarketOffer.value (offer : MarketOffer) (units : Nat) : Nat :=
  match offer.sale with
  | .sell => units
  | .buy => offer.price * units

theorem MarketOffer.value_add (offer : MarketOffer) (m n : Nat) :
    offer.value (m + n) = offer.value m + offer.value n := by
  rw [value, value, value]
  cases offer.sale with
  | buy => exact Nat.mul_add ..
  | sell => rfl

/-! ### What an inbox is given -/

theorem giveStacks_eq (takes : Bool) (amount : Nat) :
    giveStacks takes amount = if takes then amount else 0 := by
  induction amount using Nat.strong_induction_on with
  | _ amount ih =>
      rw [giveStacks]
      by_cases hpos : 0 < amount
      · rw [if_pos hpos]
        show (if takes = true then min 100 amount + giveStacks takes (amount - min 100 amount)
          else 0) = _
        rw [ih (amount - min 100 amount) (by omega)]
        cases takes with
        | false => rfl
        | true =>
            show min 100 amount + (amount - min 100 amount) = amount
            omega
      · obtain rfl : amount = 0 := by omega
        rw [if_neg hpos, ite_self]

theorem giveItems_eq (takes : Bool) (amount : Nat) :
    giveItems takes amount = if takes then amount else 0 := by
  induction amount with
  | zero => rw [giveItems, ite_self]
  | succ amount ih =>
      rw [giveItems, ih]
      cases takes with
      | false => rfl
      | true => exact Nat.add_comm 1 amount

/-- An inbox takes all the units or none. -/
theorem unitsGiven_eq (items : Items) (it : ItemType) (amount : Nat) :
    unitsGiven items it amount = if inboxTakes items it.id then amount else 0 := by
  rw [unitsGiven, giveStacks_eq, giveItems_eq, ite_self]

theorem unitsGiven_le (items : Items) (it : ItemType) (amount : Nat) :
    unitsGiven items it amount ≤ amount := by
  rw [unitsGiven_eq]
  split
  · exact le_rfl
  · exact Nat.zero_le _

/-! ### What a handler does to the table -/

/-- What `playerCreateMarketOffer` asks of an offer. -/
structure Admitted (offer : MarketOffer) : Prop where
  amount_pos : 0 < offer.amount
  amount_le : offer.amount ≤ 64000
  price_pos : 0 < offer.price
  price_le : offer.price ≤ 999999999

theorem Admitted.value_lt {offer : MarketOffer} (h : Admitted offer) {units : Nat}
    (hunits : units ≤ 64000) : offer.price * units < 2 ^ 64 := by
  calc offer.price * units ≤ 999999999 * 64000 := Nat.mul_le_mul h.price_le hunits
    _ < 2 ^ 64 := by norm_num

/-- What a handler may do to the table: nothing, or one of its statements, with one event. -/
inductive Outcome (s : State) : State × List Event → Prop
  | refused : Outcome s (s, [])
  | posted (players : Nat → Player) (guid : Nat) (type : MarketAction) (id amount price : Nat)
      (now : Int) (admitted : Admitted ⟨s.nextId, guid, type, id, amount, price, now⟩) :
      Outcome s (({ s with players } : State).createOffer guid type id amount price now)
  | accepted (players : Nat → Player) (offer : MarketOffer) (amount : Nat) (mem : offer ∈ s.offers)
      (pos : 0 < amount) (le : amount ≤ offer.amount) :
      Outcome s (storeAccepted { s with players } offer amount)
  | cancelled (players : Nat → Player) (offer : MarketOffer) (given : Nat) (mem : offer ∈ s.offers)
      (le : given ≤ offer.value offer.amount) :
      Outcome s (({ s with players } : State).deleteOffer offer.id, [.cancelled offer given])

/-- What a row of an expiry may do to the table. -/
inductive RowOutcome (s : State) : State × List Event → Prop
  | missing : RowOutcome s (s, [])
  | expired (players : Nat → Player) (offer : MarketOffer) (given : Nat) (mem : offer ∈ s.offers) :
      RowOutcome s (({ s with players } : State).deleteOffer offer.id, [.expired offer given])

section Handlers

variable (cfg : Config) (s : State)

theorem create_outcome (guid : Nat) (type : MarketAction) (spriteId amount price : Nat)
    (now : Int) :
    Outcome s (playerCreateMarketOffer cfg s guid type spriteId amount price now) := by
  unfold playerCreateMarketOffer
  refine iteInduction (fun _ => .refused) fun hamount => ?_
  refine iteInduction (fun _ => .refused) fun hprice => ?_
  have hadmitted (id : Nat) : Admitted ⟨s.nextId, guid, type, id, amount, price, now⟩ :=
    ⟨show 0 < amount by omega, show amount ≤ 64000 by omega, show 0 < price by omega,
      show price ≤ 999999999 by omega⟩
  refine iteInduction (fun _ => .refused) fun _ => ?_
  refine iteInduction (fun _ => .refused) fun _ => ?_
  refine iteInduction (fun _ => .refused) fun _ => ?_
  refine iteInduction (fun _ => .refused) fun _ => ?_
  refine iteInduction (fun _ => .refused) fun _ => ?_
  refine iteInduction (fun _ => .refused) fun _ => ?_
  cases type with
  | sell =>
      refine iteInduction (fun _ => .refused) fun _ => ?_
      refine iteInduction (fun _ => ?_) fun _ => ?_
      · exact iteInduction (fun _ => .refused) fun _ => .posted _ guid _ _ _ _ _ (hadmitted _)
      · exact iteInduction (fun _ => .refused) fun _ => .posted _ guid _ _ _ _ _ (hadmitted _)
  | buy => exact iteInduction (fun _ => .refused) fun _ => .posted _ guid _ _ _ _ _ (hadmitted _)

theorem cancel_outcome (guid : Nat) (timestamp : Int) (counter : Nat) :
    Outcome s (playerCancelMarketOffer cfg s guid timestamp counter) := by
  unfold playerCancelMarketOffer
  refine iteInduction (fun _ => .refused) fun _ => ?_
  cases hfind : s.getOfferByCounter cfg timestamp counter with
  | none => exact .refused
  | some offer =>
      have hmem : offer ∈ s.offers := List.mem_of_find?_eq_some hfind
      refine iteInduction (fun _ => .refused) fun _ => ?_
      cases hsale : offer.sale with
      | buy => exact .cancelled _ offer _ hmem (by rw [MarketOffer.value, hsale])
      | sell =>
          have hvalue (units : Nat) : offer.value units = units := by
            rw [MarketOffer.value, hsale]
          refine iteInduction (fun _ => .refused) fun _ => ?_
          refine iteInduction (fun _ => ?_) fun _ => ?_
          · exact .cancelled _ offer _ hmem (hvalue _).ge
          · exact .cancelled _ offer _ hmem ((unitsGiven_le ..).trans (hvalue _).ge)

theorem accept_outcome (guid : Nat) (timestamp : Int) (counter amount : Nat) :
    Outcome s (playerAcceptMarketOffer cfg s guid timestamp counter amount) := by
  unfold playerAcceptMarketOffer
  refine iteInduction (fun _ => .refused) fun hamount => ?_
  refine iteInduction (fun _ => .refused) fun _ => ?_
  cases hfind : s.getOfferByCounter cfg timestamp counter with
  | none => exact .refused
  | some offer =>
      have hmem : offer ∈ s.offers := List.mem_of_find?_eq_some hfind
      refine iteInduction (fun _ => .refused) fun hle => ?_
      refine iteInduction (fun _ => .refused) fun _ => ?_
      have hstore (players : Nat → Player) :
          Outcome s (storeAccepted { s with players } offer amount) :=
        .accepted players offer amount hmem (by omega) (by omega)
      cases offer.sale with
      | buy =>
          refine iteInduction (fun _ => .refused) fun _ => ?_
          refine iteInduction (fun _ => ?_) fun _ => ?_
          · exact iteInduction (fun _ => .refused) fun _ => hstore _
          · exact iteInduction (fun _ => .refused) fun _ => hstore _
      | sell =>
          refine iteInduction (fun _ => .refused) fun _ => ?_
          exact iteInduction (fun _ => hstore _) fun _ => hstore _

theorem process_outcome (row : MarketOffer) : RowOutcome s (processExpiredOffer cfg s row) := by
  unfold processExpiredOffer
  cases hfind : s.offers.find? (·.id = row.id) with
  | none => exact .missing
  | some offer =>
      have hmem : offer ∈ s.offers := List.mem_of_find?_eq_some hfind
      have hid : offer.id = row.id := by simpa using List.find?_some hfind
      rw [← hid]
      have hdelete (players : Nat → Player) (given : Nat) : RowOutcome s
          (({ s with players } : State).deleteOffer offer.id, [.expired offer given]) :=
        .expired players offer given hmem
      cases row.sale with
      | buy => exact hdelete (s.increaseBankBalance row.playerId (row.price * row.amount)).players _
      | sell =>
          refine iteInduction (fun _ => hdelete s.players 0) fun _ => ?_
          exact iteInduction (fun _ => hdelete s.players 0) fun _ => hdelete
            (s.giveUnits cfg.items row.playerId (cfg.items.type row.itemtype) row.amount).players _

end Handlers

/-! ### What was fetched and the table -/

def State.rows (s : State) : List MarketOffer := s.running ++ s.fetched.flatten

/-- The table is in order, and a row that was fetched is that of the table but for its amount,
which may have shrunk since. -/
structure Kept (s : State) : Prop where
  nodup : (s.offers.map (·.id)).Nodup
  lt_nextId : ∀ offer ∈ s.offers, offer.id < s.nextId
  admitted : ∀ offer ∈ s.offers, Admitted offer
  row_lt : ∀ row ∈ s.rows, row.id < s.nextId
  row_amount : ∀ row ∈ s.rows, row.amount ≤ 64000
  row_agrees : ∀ row ∈ s.rows, ∀ offer ∈ s.offers, offer.id = row.id →
    row = { offer with amount := row.amount }

namespace Kept

variable {s s' : State}

/-- An offer is the only one of its id. -/
theorem eq_of_id (h : Kept s) {offer offer' : MarketOffer} (hmem : offer ∈ s.offers)
    (hmem' : offer' ∈ s.offers) (hid : offer.id = offer'.id) : offer = offer' :=
  List.inj_on_of_nodup_map h.nodup hmem hmem' hid

/-- Rows may be dropped, moved and fetched from the table. -/
theorem of_rows (h : Kept s) (hoffers : s'.offers = s.offers) (hnext : s'.nextId = s.nextId)
    (hrows : ∀ row ∈ s'.rows, row ∈ s.rows ∨ row ∈ s.offers) : Kept s' := by
  refine ⟨hoffers ▸ h.nodup, ?_, ?_, fun row hrow => ?_, fun row hrow => ?_,
    fun row hrow offer hmem hid => ?_⟩
  · rw [hoffers, hnext]
    exact h.lt_nextId
  · rw [hoffers]
    exact h.admitted
  · rw [hnext]
    exact (hrows row hrow).elim (h.row_lt row) (h.lt_nextId row)
  · exact (hrows row hrow).elim (h.row_amount row) fun hmem => (h.admitted row hmem).amount_le
  · rw [hoffers] at hmem
    rcases hrows row hrow with hrow | hrow
    · exact h.row_agrees row hrow offer hmem hid
    · rw [h.eq_of_id hmem hrow hid]

theorem post (h : Kept s) {offer : MarketOffer} (hid : offer.id = s.nextId)
    (hadmitted : Admitted offer) (hoffers : s'.offers = s.offers ++ [offer])
    (hnext : s'.nextId = s.nextId + 1) (hrows : s'.rows = s.rows) : Kept s' := by
  have hmem {offer' : MarketOffer} (hmem : offer' ∈ s'.offers) :
      offer' ∈ s.offers ∨ offer' = offer := by
    rw [hoffers, List.mem_append, List.mem_singleton] at hmem
    exact hmem
  refine ⟨?_, fun offer' h' => ?_, fun offer' h' => ?_, fun row hrow => ?_, fun row hrow => ?_,
    fun row hrow offer' h' hrid => ?_⟩
  · rw [hoffers, List.map_append, List.nodup_append]
    refine ⟨h.nodup, List.nodup_singleton _, fun id hid' id' hid'' => ?_⟩
    obtain ⟨offer', hmem', rfl⟩ := List.mem_map.1 hid'
    rw [List.map_singleton, List.mem_singleton] at hid''
    have := h.lt_nextId offer' hmem'
    omega
  · rw [hnext]
    rcases hmem h' with h' | rfl
    · have := h.lt_nextId offer' h'
      omega
    · omega
  · rcases hmem h' with h' | rfl
    · exact h.admitted offer' h'
    · exact hadmitted
  · have := h.row_lt row (hrows ▸ hrow)
    omega
  · exact h.row_amount row (hrows ▸ hrow)
  · rcases hmem h' with h' | rfl
    · exact h.row_agrees row (hrows ▸ hrow) offer' h' hrid
    · have := h.row_lt row (hrows ▸ hrow)
      omega

theorem delete (h : Kept s) (id : Nat) : Kept (s.deleteOffer id) := by
  have hmem {offer : MarketOffer} (hmem : offer ∈ (s.deleteOffer id).offers) : offer ∈ s.offers :=
    List.mem_of_mem_filter hmem
  refine ⟨h.nodup.sublist (List.filter_sublist.map _), fun offer h' => h.lt_nextId offer (hmem h'),
    fun offer h' => h.admitted offer (hmem h'), h.row_lt, h.row_amount,
    fun row hrow offer h' => h.row_agrees row hrow offer (hmem h')⟩

/-- An offer that shrinks by less than it holds. -/
theorem accept (h : Kept s) {offer : MarketOffer} (hmem : offer ∈ s.offers) {amount : Nat}
    (hamount : amount < offer.amount) : Kept (s.acceptOffer offer.id amount) := by
  -- an offer of the new table is one of the old table, and the amount of the accepted one is less
  have hold {new : MarketOffer} (hnew : new ∈ (s.acceptOffer offer.id amount).offers) :
      ∃ old ∈ s.offers, new = { old with amount := new.amount } ∧ 0 < new.amount ∧
        new.amount ≤ old.amount := by
    obtain ⟨old, hmem', rfl⟩ := List.mem_map.1 hnew
    refine ⟨old, hmem', ?_⟩
    have hpos := (h.admitted old hmem').amount_pos
    by_cases hid : old.id = offer.id
    · obtain rfl := h.eq_of_id hmem' hmem hid
      rw [if_pos rfl]
      exact ⟨rfl, by show 0 < old.amount - amount; omega, Nat.sub_le ..⟩
    · rw [if_neg hid]
      exact ⟨rfl, hpos, le_rfl⟩
  have hids : (s.acceptOffer offer.id amount).offers.map (·.id) = s.offers.map (·.id) := by
    show (s.offers.map _).map _ = _
    rw [List.map_map]
    refine List.map_congr_left fun old _ => ?_
    show (if old.id = offer.id then _ else old : MarketOffer).id = old.id
    split <;> rfl
  refine ⟨hids ▸ h.nodup, fun new hnew => ?_, fun new hnew => ?_, h.row_lt, h.row_amount,
    fun row hrow new hnew hid => ?_⟩
  · obtain ⟨old, hmem', heq, -⟩ := hold hnew
    rw [heq]
    exact h.lt_nextId old hmem'
  · obtain ⟨old, hmem', heq, hpos, hle⟩ := hold hnew
    obtain ⟨-, hamount_le, hprice, hprice_le⟩ := h.admitted old hmem'
    rw [heq]
    exact ⟨hpos, hle.trans hamount_le, hprice, hprice_le⟩
  · obtain ⟨old, hmem', heq, -⟩ := hold hnew
    rw [heq] at hid ⊢
    exact h.row_agrees row hrow old hmem' hid

theorem outcome (h : Kept s) {result : State × List Event} (ho : Outcome s result) :
    Kept result.1 := by
  have hplayers (players : Nat → Player) : Kept { s with players } :=
    h.of_rows rfl rfl fun row => Or.inl
  cases ho with
  | refused => exact h
  | posted players guid type id amount price now hadmitted =>
      exact h.post rfl hadmitted rfl rfl rfl
  | accepted players offer amount hmem hpos hle =>
      unfold storeAccepted
      split_ifs with hleft
      · exact (hplayers players).delete offer.id
      · exact (hplayers players).accept hmem (by omega)
  | cancelled players offer given hmem hle => exact (hplayers players).delete offer.id

theorem rowOutcome (h : Kept s) {result : State × List Event} (ho : RowOutcome s result) :
    Kept result.1 := by
  have hplayers (players : Nat → Player) : Kept { s with players } :=
    h.of_rows rfl rfl fun row => Or.inl
  cases ho with
  | missing => exact h
  | expired players offer given hmem => exact (hplayers players).delete offer.id

theorem step {cfg : Config} {events : List Event} (h : Kept s) (hstep : Step cfg s events s') :
    Kept s' := by
  cases hstep with
  | create guid type spriteId amount price now => exact h.outcome (create_outcome ..)
  | cancel guid timestamp counter => exact h.outcome (cancel_outcome ..)
  | accept guid timestamp counter amount => exact h.outcome (accept_outcome ..)
  | check now => exact h.of_rows rfl rfl fun row => Or.inl
  | select date queries =>
      refine h.of_rows rfl rfl fun row hrow => ?_
      simp only [State.rows, List.flatten_append, List.flatten_singleton, List.mem_append] at hrow ⊢
      rcases hrow with hrow | hrow | hrow
      · exact Or.inl (Or.inl hrow)
      · exact Or.inl (Or.inr hrow)
      · exact Or.inr (List.mem_of_mem_filter hrow)
  | callback rows fetched idle first =>
      refine h.of_rows rfl rfl fun row hrow => Or.inl ?_
      rwa [State.rows, idle, first, List.nil_append, List.flatten_cons]
  | row row rows next =>
      have hrows : Kept { s with running := rows } := h.of_rows rfl rfl fun row' hrow => Or.inl (by
        rw [State.rows, next]
        exact List.mem_cons_of_mem _ hrow)
      exact hrows.rowOutcome (process_outcome ..)
  | other players => exact h.of_rows rfl rfl fun row => Or.inl

theorem run {cfg : Config} {condition : State → Prop} {events : List Event} (h : Kept s)
    (hrun : Run cfg condition s events s') : Kept s' := by
  induction hrun with
  | refl => exact h
  | tail run meets step ih => exact ih.step step

end Kept

/-! ### What an offer holds, what was sold and what came back -/

/-- What the offer of an id holds. -/
def State.held (s : State) (id : Nat) : Nat :=
  ((s.offers.filter (·.id = id)).map fun offer => offer.value offer.amount).sum

namespace Event

variable (id : Nat)

/-- What was posted as the offer of an id. -/
def put : Event → Nat
  | posted offer => if offer.id = id then offer.value offer.amount else 0
  | _ => 0

def sold : Event → Nat
  | accepted offer amount => if offer.id = id then offer.value amount else 0
  | _ => 0

/-- What its owner got back of it. -/
def returned : Event → Nat
  | cancelled offer given => if offer.id = id then given else 0
  | expired offer given => if offer.id = id then given else 0
  | _ => 0

/-- What was given at an expiry is what the offer held in the table. -/
def Settled : Event → Prop
  | expired offer given => given = offer.value offer.amount
  | _ => True

end Event

def tally (f : Event → Nat) (events : List Event) : Nat := (events.map f).sum

theorem tally_append (f : Event → Nat) (events events' : List Event) :
    tally f (events ++ events') = tally f events + tally f events' := by
  rw [tally, List.map_append, List.sum_append, tally, tally]

theorem tally_singleton (f : Event → Nat) (event : Event) : tally f [event] = f event :=
  Nat.add_zero _

section Held

variable {s : State}

theorem filter_id {offers : List MarketOffer} (h : (offers.map (·.id)).Nodup)
    {offer : MarketOffer} (hmem : offer ∈ offers) :
    offers.filter (·.id = offer.id) = [offer] := by
  induction offers with
  | nil => exact absurd hmem List.not_mem_nil
  | cons first offers ih =>
      rw [List.map_cons, List.nodup_cons] at h
      rcases List.mem_cons.1 hmem with rfl | hmem
      · rw [List.filter_cons_of_pos (by simp), List.filter_eq_nil_iff.2]
        intro other hother hid
        rw [decide_eq_true_iff] at hid
        exact h.1 (hid ▸ List.mem_map_of_mem hother)
      · rw [List.filter_cons_of_neg, ih h.2 hmem]
        rw [decide_eq_true_iff]
        intro hid
        exact h.1 (hid ▸ List.mem_map_of_mem hmem)

theorem Kept.held_eq (h : Kept s) {offer : MarketOffer} (hmem : offer ∈ s.offers) :
    s.held offer.id = offer.value offer.amount := by
  rw [State.held, filter_id h.nodup hmem, List.map_singleton, List.sum_singleton]

theorem held_delete (id id' : Nat) :
    (s.deleteOffer id).held id' = if id' = id then 0 else s.held id' := by
  rw [State.held, State.deleteOffer, List.filter_filter]
  split_ifs with hid
  · rw [List.filter_eq_nil_iff.2, List.map_nil, List.sum_nil]
    intro offer _
    simp [hid]
  · rw [State.held]
    congr 3
    ext offer
    rw [Bool.eq_iff_iff, Bool.and_eq_true, decide_eq_true_iff, decide_eq_true_iff]
    exact ⟨And.left, fun heq => ⟨heq, fun h => hid (heq.symm.trans h)⟩⟩

theorem held_other (s : State) (offerId amount : Nat) {id : Nat} (hid : id ≠ offerId) :
    (s.acceptOffer offerId amount).held id = s.held id := by
  unfold State.held State.acceptOffer
  show (((s.offers.map _).filter _).map _).sum = _
  induction s.offers with
  | nil => rfl
  | cons offer offers ih =>
      rw [List.map_cons]
      by_cases hoffer : offer.id = offerId
      · rw [if_pos hoffer, List.filter_cons_of_neg, List.filter_cons_of_neg, ih]
        · simp [hoffer, Ne.symm hid]
        · simp [hoffer, Ne.symm hid]
      · rw [if_neg hoffer]
        by_cases heq : offer.id = id
        · rw [List.filter_cons_of_pos (by simp [heq]), List.filter_cons_of_pos (by simp [heq]),
            List.map_cons, List.map_cons, List.sum_cons, List.sum_cons, ih]
        · rw [List.filter_cons_of_neg (by simp [heq]), List.filter_cons_of_neg (by simp [heq]), ih]

/-- What is sold of an offer is no longer held. -/
theorem Kept.held_accept (h : Kept s) {offer : MarketOffer} (hmem : offer ∈ s.offers)
    {amount : Nat} (hamount : amount < offer.amount) :
    (s.acceptOffer offer.id amount).held offer.id + offer.value amount = s.held offer.id := by
  have hnew : { offer with amount := offer.amount - amount } ∈
      (s.acceptOffer offer.id amount).offers :=
    List.mem_map.2 ⟨offer, hmem, if_pos rfl⟩
  have hheld := (h.accept hmem hamount).held_eq hnew
  rw [h.held_eq hmem]
  refine (congrArg (· + offer.value amount) hheld).trans ?_
  show offer.value (offer.amount - amount) + _ = _
  rw [← MarketOffer.value_add]
  congr 1
  omega

/-- What an offer that is deleted gives back was in it. -/
theorem Kept.balance_delete (h : Kept s) {offer : MarketOffer} (hmem : offer ∈ s.offers)
    {given : Nat} (hle : given ≤ offer.value offer.amount) (id : Nat) :
    (s.deleteOffer offer.id).held id + (if offer.id = id then given else 0) ≤ s.held id := by
  rw [held_delete]
  by_cases hid : offer.id = id
  · rw [if_pos hid.symm, if_pos hid, ← hid, h.held_eq hmem, zero_add]
    exact hle
  · rw [if_neg (Ne.symm hid), if_neg hid, add_zero]

/-- What a handler leaves in an offer, sells and gives back was in it or was posted. -/
theorem Outcome.balance {result : State × List Event} (ho : Outcome s result) (h : Kept s)
    (id : Nat) :
    result.1.held id + tally (Event.sold id) result.2 + tally (Event.returned id) result.2 ≤
      s.held id + tally (Event.put id) result.2 := by
  cases ho with
  | refused => exact le_rfl
  | posted players guid type item amount price now hadmitted =>
      rw [State.createOffer]
      simp only [tally_singleton, Event.sold, Event.returned, Event.put, add_zero]
      rw [State.held, List.filter_append, List.map_append, List.sum_append]
      refine Nat.add_le_add_left ?_ _
      by_cases hid : s.nextId = id
      · rw [if_pos hid, List.filter_cons_of_pos (by simp [hid])]
        exact le_rfl
      · rw [if_neg hid, List.filter_cons_of_neg (by simp [hid])]
        exact le_rfl
  | accepted players offer amount hmem hpos hle =>
      have hplayers : Kept { s with players } := h.of_rows rfl rfl fun row => Or.inl
      unfold storeAccepted
      split_ifs with hleft
      · obtain rfl : amount = offer.amount := by omega
        simp only [tally_singleton, Event.sold, Event.returned, Event.put, add_zero]
        exact hplayers.balance_delete hmem le_rfl id
      · simp only [tally_singleton, Event.sold, Event.returned, Event.put, add_zero]
        by_cases hid : offer.id = id
        · subst hid
          rw [if_pos rfl]
          exact (hplayers.held_accept hmem (by omega)).le
        · rw [if_neg hid, held_other _ _ _ (Ne.symm hid)]
          exact le_rfl
  | cancelled players offer given hmem hle =>
      simp only [tally_singleton, Event.sold, Event.returned, Event.put, add_zero]
      exact h.balance_delete hmem hle id

end Held

/-! ### When the owner gets back what the offer held -/

section Expiry

variable (cfg : Config)

/-- The players once the owner of an offer got back what it holds, and nothing else changed. -/
def settledPlayers (s : State) (offer : MarketOffer) : Nat → Player :=
  match offer.sale with
  | .sell =>
      (s.addToInbox offer.playerId (deliveredId cfg.items (cfg.items.type offer.itemtype).id)
        offer.amount).players
  | .buy =>
      (s.updatePlayer offer.playerId fun player =>
        { player with bankBalance := player.bankBalance + offer.price * offer.amount }).players

/-- What a row can give its owner: units of a type that the inbox takes, of an owner that can be
reached, or gold that fits into the balance. -/
def Payable (s : State) (row : MarketOffer) : Prop :=
  let itemType := cfg.items.type row.itemtype
  let player := s.players row.playerId
  match row.sale with
  | .sell =>
      itemType.id ≠ 0 ∧ (player.isOnline || player.loads) = true ∧
        inboxTakes cfg.items itemType.id = true
  | .buy => player.bankBalance + row.price * row.amount < 2 ^ 64

/-- The row is still that of the table, if the table has it, and can be paid. -/
def Returnable (s : State) (row : MarketOffer) : Prop :=
  ∀ offer ∈ s.offers, offer.id = row.id → row.amount = offer.amount ∧ Payable cfg s row

/-- Every row that is processed in a state is returnable there. -/
def RowReturnable (s : State) : Prop :=
  ∀ row rows, s.running = row :: rows → Returnable cfg s row

variable {cfg} {s : State}

theorem process_of_mem (h : Kept s) {row offer : MarketOffer} (hmem : offer ∈ s.offers)
    (hid : offer.id = row.id) : s.offers.find? (·.id = row.id) = some offer := by
  cases hfind : s.offers.find? (·.id = row.id) with
  | none => exact absurd (List.find?_eq_none.1 hfind offer hmem) (by simp [hid])
  | some found =>
      have hfound : found.id = row.id := by simpa using List.find?_some hfind
      rw [h.eq_of_id (List.mem_of_find?_eq_some hfind) hmem (hfound.trans hid.symm)]

theorem returnable_iff (h : Kept s) {row offer : MarketOffer} (hmem : offer ∈ s.offers)
    (hid : offer.id = row.id) :
    Returnable cfg s row ↔ row.amount = offer.amount ∧ Payable cfg s row := by
  refine ⟨fun hrow => hrow offer hmem hid, fun hrow offer' hmem' hid' => ?_⟩
  rwa [h.eq_of_id hmem' hmem (hid'.trans hid.symm)]

theorem players_eq_iff {guid : Nat} {f g : Player → Player} :
    (s.updatePlayer guid f).players = (s.updatePlayer guid g).players ↔
      f (s.players guid) = g (s.players guid) :=
  (Function.update_injective s.players guid).eq_iff

/-- Gold that is given arrives as a whole where the sum fits, online or not. -/
theorem increaseBankBalance_eq_iff {guid value value' : Nat} (hvalue : value < 2 ^ 64)
    (hpos : 0 < value') :
    (s.increaseBankBalance guid value).players =
        (s.updatePlayer guid fun player =>
          { player with bankBalance := player.bankBalance + value' }).players ↔
      value = value' ∧ (s.players guid).bankBalance + value < 2 ^ 64 := by
  refine players_eq_iff.trans ?_
  obtain ⟨isOnline, loads, isInMarket, isPremium, balance, coins, wares, inbox⟩ := s.players guid
  show _ ↔ value = value' ∧ balance + value < 2 ^ 64
  cases isOnline with
  | true =>
      show Player.mk _ _ _ _ ((balance + value) % 2 ^ 64) _ _ _ = Player.mk .. ↔ _
      refine ⟨fun heq => ?_, fun ⟨hv, hlt⟩ => ?_⟩
      · have hbalance : (balance + value) % 2 ^ 64 = balance + value' :=
          congrArg Player.bankBalance heq
        omega
      · rw [hv] at hlt ⊢
        rw [Nat.mod_eq_of_lt hlt]
  | false =>
      show (if balance + value < 2 ^ 64 then Player.mk _ _ _ _ (balance + value) _ _ _
        else Player.mk _ _ _ _ balance _ _ _) = Player.mk .. ↔ _
      split_ifs with hlt
      · refine ⟨fun heq => ?_, fun ⟨hv, _⟩ => by rw [hv]⟩
        have hbalance : balance + value = balance + value' := congrArg Player.bankBalance heq
        exact ⟨by omega, hlt⟩
      · refine ⟨fun heq => ?_, fun ⟨_, h⟩ => absurd h hlt⟩
        have hbalance : balance = balance + value' := congrArg Player.bankBalance heq
        omega

theorem addToInbox_eq_iff {guid id units units' : Nat} :
    (s.addToInbox guid id units).players = (s.addToInbox guid id units').players ↔
      units = units' := by
  refine players_eq_iff.trans ⟨fun heq => ?_, fun h => by rw [h]⟩
  have hinbox := congrFun (congrArg Player.inbox heq) id
  simp only [if_true] at hinbox
  omega

theorem addToInbox_zero (guid id : Nat) : (s.addToInbox guid id 0).players = s.players := by
  refine (congrArg (Function.update s.players guid) ?_).trans (Function.update_eq_self guid s.players)
  show ({ s.players guid with inbox := _ } : Player) = s.players guid
  simp only [add_zero, ite_self]

/-- A row that sells gives all its units where it can be paid, and none where not. -/
theorem process_sell {row offer : MarketOffer}
    (hfind : s.offers.find? (·.id = row.id) = some offer) (hsale : row.sale = .sell) :
    ∃ given, (processExpiredOffer cfg s row).2 = [.expired offer given] ∧
      (processExpiredOffer cfg s row).1.players = (s.addToInbox row.playerId
        (deliveredId cfg.items (cfg.items.type row.itemtype).id) given).players ∧
      (Payable cfg s row → given = row.amount) ∧ (¬ Payable cfg s row → given = 0) := by
  rw [processExpiredOffer, hfind, Payable, hsale]
  by_cases hid : (cfg.items.type row.itemtype).id = 0
  · refine ⟨0, ?_, ?_, fun hpay => absurd hid hpay.1, fun _ => rfl⟩
    · exact congrArg Prod.snd (if_pos hid)
    · rw [addToInbox_zero]
      exact congrArg (fun result : State × List Event => result.1.players) (if_pos hid)
  by_cases hplayer : ((s.players row.playerId).isOnline || (s.players row.playerId).loads) = false
  · refine ⟨0, ?_, ?_, fun hpay => absurd hpay.2.1 (by rw [hplayer]; decide), fun _ => rfl⟩
    · exact congrArg Prod.snd ((if_neg hid).trans (if_pos hplayer))
    · rw [addToInbox_zero]
      exact congrArg (fun result : State × List Event => result.1.players)
        ((if_neg hid).trans (if_pos hplayer))
  · refine ⟨unitsGiven cfg.items (cfg.items.type row.itemtype) row.amount, ?_, ?_,
      fun hpay => ?_, fun hpay => ?_⟩
    · exact congrArg Prod.snd ((if_neg hid).trans (if_neg hplayer))
    · exact congrArg (fun result : State × List Event => result.1.players)
        ((if_neg hid).trans (if_neg hplayer))
    · rw [unitsGiven_eq, if_pos hpay.2.2]
    · rw [unitsGiven_eq, if_neg]
      exact fun htakes => hpay ⟨hid, Bool.not_eq_false _ ▸ hplayer, htakes⟩

theorem process_buy {row offer : MarketOffer}
    (hfind : s.offers.find? (·.id = row.id) = some offer) (hsale : row.sale = .buy) :
    (processExpiredOffer cfg s row).2 = [.expired offer (row.price * row.amount)] ∧
      (processExpiredOffer cfg s row).1.players =
        (s.increaseBankBalance row.playerId (row.price * row.amount)).players := by
  rw [processExpiredOffer, hfind, hsale]
  exact ⟨rfl, rfl⟩

/-- The owner gets back what the offer held just where the row is returnable. -/
theorem process_settled_iff (h : Kept s) {row offer : MarketOffer} (hmem : offer ∈ s.offers)
    (hid : offer.id = row.id) (hagrees : row = { offer with amount := row.amount })
    (hrow : row.amount ≤ 64000) :
    (processExpiredOffer cfg s row).1.players = settledPlayers cfg s offer ↔
      Returnable cfg s row := by
  have hadmitted := h.admitted offer hmem
  have hheld : 0 < offer.amount := hadmitted.amount_pos
  have hfind := process_of_mem h hmem hid
  have hguid : row.playerId = offer.playerId := by rw [hagrees]
  have htype : row.itemtype = offer.itemtype := by rw [hagrees]
  have hprice : row.price = offer.price := by rw [hagrees]
  have hsale : row.sale = offer.sale := by rw [hagrees]
  rw [returnable_iff h hmem hid, settledPlayers]
  cases hoffer : offer.sale with
  | sell =>
      obtain ⟨given, -, hplayers, hpay, hunpaid⟩ := process_sell hfind (hsale.trans hoffer)
      rw [hplayers, hguid, htype]
      refine addToInbox_eq_iff.trans ?_
      by_cases hpayable : Payable cfg s row
      · rw [hpay hpayable]
        exact ⟨fun h => ⟨h, hpayable⟩, And.left⟩
      · rw [hunpaid hpayable]
        exact iff_of_false (by omega) fun h => hpayable h.2
  | buy =>
      rw [(process_buy hfind (hsale.trans hoffer)).2, hguid, hprice, Payable, hsale, hoffer]
      refine (increaseBankBalance_eq_iff (hadmitted.value_lt hrow)
        (Nat.mul_pos hadmitted.price_pos hheld)).trans ?_
      rw [hguid, hprice, Nat.mul_right_inj (Nat.pos_iff_ne_zero.1 hadmitted.price_pos)]

/-- A row that is returnable is settled. -/
theorem process_settled {row : MarketOffer} (hagrees : ∀ offer ∈ s.offers, offer.id = row.id →
    row = { offer with amount := row.amount }) (hreturnable : Returnable cfg s row) :
    ∀ event ∈ (processExpiredOffer cfg s row).2, event.Settled := by
  intro event hevent
  cases hfind : s.offers.find? (·.id = row.id) with
  | none =>
      rw [processExpiredOffer, hfind] at hevent
      exact absurd hevent List.not_mem_nil
  | some offer =>
      have hmem := List.mem_of_find?_eq_some hfind
      have hid : offer.id = row.id := by simpa using List.find?_some hfind
      obtain ⟨hamount, hpay⟩ := hreturnable offer hmem hid
      have hrow := hagrees offer hmem hid
      have hsale : row.sale = offer.sale := by rw [hrow]
      cases hoffer : offer.sale with
      | sell =>
          obtain ⟨given, hevents, -, hgiven, -⟩ :=
            process_sell hfind (hsale.trans hoffer)
          rw [hevents, List.mem_singleton] at hevent
          rw [hevent, Event.Settled, hgiven hpay, hamount, MarketOffer.value, hoffer]
      | buy =>
          have hprice : row.price = offer.price := by rw [hrow]
          rw [(process_buy hfind (hsale.trans hoffer)).1, List.mem_singleton] at hevent
          rw [hevent, Event.Settled, hamount, hprice, MarketOffer.value, hoffer]

/-! ### Runs -/

theorem Outcome.settled {result : State × List Event} (ho : Outcome s result) :
    ∀ event ∈ result.2, event.Settled := by
  intro event hevent
  cases ho with
  | refused => exact absurd hevent List.not_mem_nil
  | posted players guid type item amount price now hadmitted =>
      rw [List.mem_singleton.1 hevent]
      trivial
  | accepted players offer amount hmem hpos hle =>
      have hevents : (storeAccepted { s with players } offer amount).2 = [.accepted offer amount] := by
        unfold storeAccepted
        split_ifs <;> rfl
      rw [hevents, List.mem_singleton] at hevent
      rw [hevent]
      trivial
  | cancelled players offer given hmem hle =>
      rw [List.mem_singleton.1 hevent]
      trivial

theorem RowOutcome.balance {result : State × List Event} (ho : RowOutcome s result) (h : Kept s)
    (hsettled : ∀ event ∈ result.2, event.Settled) (id : Nat) :
    result.1.held id + tally (Event.sold id) result.2 + tally (Event.returned id) result.2 ≤
      s.held id + tally (Event.put id) result.2 := by
  cases ho with
  | missing => exact le_rfl
  | expired players offer given hmem =>
      have hgiven : given = offer.value offer.amount := hsettled _ (List.mem_singleton.2 rfl)
      simp only [tally_singleton, Event.sold, Event.returned, Event.put, add_zero]
      exact h.balance_delete hmem hgiven.le id

/-- A step that meets the condition settles what expires, and gives and sells no more than was
held or posted. -/
theorem Step.settled {events : List Event} {s' : State} (h : Kept s) (hrow : RowReturnable cfg s)
    (hstep : Step cfg s events s') :
    (∀ event ∈ events, event.Settled) ∧ ∀ id,
      s'.held id + tally (Event.sold id) events + tally (Event.returned id) events ≤
        s.held id + tally (Event.put id) events := by
  cases hstep with
  | create guid type spriteId amount price now =>
      have ho := create_outcome cfg s guid type spriteId amount price now
      exact ⟨ho.settled, ho.balance h⟩
  | cancel guid timestamp counter =>
      have ho := cancel_outcome cfg s guid timestamp counter
      exact ⟨ho.settled, ho.balance h⟩
  | accept guid timestamp counter amount =>
      have ho := accept_outcome cfg s guid timestamp counter amount
      exact ⟨ho.settled, ho.balance h⟩
  | check now => exact ⟨fun _ hevent => absurd hevent List.not_mem_nil, fun id => le_rfl⟩
  | select date queries => exact ⟨fun _ hevent => absurd hevent List.not_mem_nil, fun id => le_rfl⟩
  | callback rows fetched idle first =>
      exact ⟨fun _ hevent => absurd hevent List.not_mem_nil, fun id => le_rfl⟩
  | row row rows next =>
      have hmem : row ∈ s.rows := by
        rw [State.rows, next]
        exact List.mem_cons_self
      have hrows : Kept { s with running := rows } := h.of_rows rfl rfl fun row' hrow => Or.inl (by
        rw [State.rows, next]
        exact List.mem_cons_of_mem _ hrow)
      have hsettled : ∀ event ∈ (processExpiredOffer cfg { s with running := rows } row).2,
          event.Settled :=
        process_settled (h.row_agrees row hmem) (hrow row rows next)
      have ho := process_outcome cfg { s with running := rows } row
      exact ⟨hsettled, ho.balance hrows hsettled⟩
  | other players => exact ⟨fun _ hevent => absurd hevent List.not_mem_nil, fun id => le_rfl⟩

theorem Run.settled {first : State} {events : List Event} (h : Kept first)
    (hrun : Run cfg (RowReturnable cfg) first events s) :
    (∀ event ∈ events, event.Settled) ∧ ∀ id,
      s.held id + tally (Event.sold id) events + tally (Event.returned id) events ≤
        first.held id + tally (Event.put id) events := by
  induction hrun with
  | refl => exact ⟨fun _ hevent => absurd hevent List.not_mem_nil, fun id => le_rfl⟩
  | tail run meets step ih =>
      obtain ⟨hsettled, hbalance⟩ := step.settled (h.run run) meets
      refine ⟨fun event hevent => ?_, fun id => ?_⟩
      · exact (List.mem_append.1 hevent).elim (ih.1 event) (hsettled event)
      · have hbefore := ih.2 id
        have hafter := hbalance id
        rw [tally_append, tally_append, tally_append]
        omega

end Expiry

/-- Whenever the callback of an expiry comes to a row whose offer is in the table, its owner gets
back what the offer holds, and nothing else changes for the players, just where the row is still
that of the table and can be paid. In every run in which the rows are so when their turn comes,
what was given at every expiry is what the offer held, and of no offer more was sold and given
back than was held at first or posted. -/
theorem expiry_settled_iff (cfg : Config) {first : State} (h : Kept first) :
    (∀ events s, Run cfg (fun _ => True) first events s →
      ∀ row rows, s.running = row :: rows → ∀ offer ∈ s.offers, offer.id = row.id →
        ((processExpiredOffer cfg { s with running := rows } row).1.players =
            settledPlayers cfg s offer ↔ Returnable cfg s row)) ∧
    ∀ events s, Run cfg (RowReturnable cfg) first events s →
      (∀ offer given, .expired offer given ∈ events → given = offer.value offer.amount) ∧
      ∀ id, tally (Event.sold id) events + tally (Event.returned id) events ≤
        first.held id + tally (Event.put id) events := by
  refine ⟨fun events s hrun row rows hrunning offer hmem hid => ?_, fun events s hrun => ?_⟩
  · have hkept := h.run hrun
    have hrow : row ∈ s.rows := by
      rw [State.rows, hrunning]
      exact List.mem_cons_self
    have hrows : Kept { s with running := rows } := hkept.of_rows rfl rfl fun row' hrow' => Or.inl (by
      rw [State.rows, hrunning]
      exact List.mem_cons_of_mem _ hrow')
    exact process_settled_iff hrows hmem hid (hkept.row_agrees row hrow offer hmem hid)
      (hkept.row_amount row hrow)
  · obtain ⟨hsettled, hbalance⟩ := hrun.settled h
    refine ⟨fun offer given hevent => hsettled _ hevent, fun id => ?_⟩
    have := hbalance id
    omega

namespace Sample

def wares : Items where
  type id := if id = 5 then { id := 5, pickupable := true } else {}
  stackable_isPlain id h := by split at h <;> simp at h
  stackable_down id h := by split at h <;> simp at h
  stackable_createdId id h := by split at h <;> simp at h

def config : Config where
  items := wares
  getItemIdByClientId _ := {}
  fee _ _ := 0

def offer : MarketOffer := ⟨1, 7, .sell, 5, 10, 3, 0⟩

/-- An offer of ten units of a stored player, and a player in the market. -/
def first : State where
  offers := [offer]
  nextId := 2
  players guid := if guid = 8 then { isOnline := true, isInMarket := true, bankBalance := 100 } else {}

theorem kept : Kept first := by
  refine ⟨List.nodup_singleton _, ?_, ?_, ?_, ?_, ?_⟩
  · intro offer hmem
    rw [List.mem_singleton.1 hmem]
    decide
  · intro offer hmem
    rw [List.mem_singleton.1 hmem]
    exact ⟨by decide, by decide, by decide, by decide⟩
  all_goals exact fun row hrow => absurd hrow List.not_mem_nil

def due : Int := 2592000

/-- Where the callback comes before anything else, all is well. -/
theorem timely_settled : Kept first ∧ ∃ events s,
    Run config (RowReturnable config) first events s ∧ .expired offer 10 ∈ events ∧
      10 = offer.value offer.amount := by
  have hidle {s : State} (h : s.running = []) : RowReturnable config s := fun row rows hrunning =>
    absurd (h.symm.trans hrunning) (List.cons_ne_nil _ _).symm
  have hrow {s : State} (hrunning : s.running = [offer]) (hoffers : s.offers = [offer])
      (hplayers : s.players = first.players) : RowReturnable config s := by
    intro row rows hrows offer' hmem _
    rw [hrunning, List.cons.injEq] at hrows
    rw [hoffers, List.mem_singleton] at hmem
    rw [hmem, ← hrows.1]
    refine ⟨rfl, ?_⟩
    unfold Payable
    rw [hplayers]
    exact ⟨by decide, rfl, rfl⟩
  have hrun : Run config (RowReturnable config) first _ _ :=
    (((Run.refl.tail (hidle rfl) (.check first due rfl)).tail (hidle rfl)
      (.select _ 0 [] rfl)).tail (hidle rfl) (.callback _ [offer] [] rfl rfl)).tail
      (hrow rfl rfl rfl) (.row _ offer [] rfl)
  have hmem : Event.expired offer 10 ∈ [Event.expired offer 10] := List.mem_singleton.2 rfl
  exact ⟨kept, _, _, hrun, hmem, ((expiry_settled_iff config kept).2 _ _ hrun).1 _ _ hmem⟩

/-- Four units are sold between the query and the callback, and all ten come back. -/
theorem stale_returned : Kept first ∧ ∃ events s, Run config (fun _ => True) first events s ∧
    (∃ offer given, .expired offer given ∈ events ∧ given ≠ offer.value offer.amount) ∧
    first.held 1 + tally (Event.put 1) events <
      tally (Event.sold 1) events + tally (Event.returned 1) events := by
  refine ⟨kept, _, _, ((((Run.refl.tail trivial (.check first due rfl)).tail trivial
    (.select _ 0 [] rfl)).tail trivial (.accept _ 8 due 1 4 rfl)).tail trivial
    (.callback _ [offer] [] rfl rfl)).tail trivial (.row _ offer [] rfl), ?_, ?_⟩
  · exact ⟨{ offer with amount := 6 }, 10, by decide, by decide⟩
  · decide

end Sample

end TibServer.Market
