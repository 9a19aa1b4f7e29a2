import TibServer.Database

/-!
The transfer of coins to another account (`playerCoinTransfer` of `game.cpp`, `account.cpp`): two
updates in a transaction whose results are not looked at, and then a record for each account. A
statement that fails, be it for a balance that the column cannot hold, changes nothing.
-/

namespace TibServer.CoinTransfer

open Sql

/-- A row of `store_history`. -/
structure Record where
  account_id : BitVec 32
  coin_amount : Int
  description : String
  deriving DecidableEq, Repr

/-- The name and the account of a player by the name that is asked for, the column `coins` of
`accounts`, where every account of a player has a row, and `store_history`. -/
@[ext]
structure Tables where
  players : String → Option (String × BitVec 32)
  coins : BitVec 32 → Int
  store_history : List Record

structure Player where
  name : String
  account : BitVec 32
  isOffline : Bool

/-- What is sent to the player's client. -/
inductive Reply
  | storeError (message : String)
  | storePurchaseSuccessful (message : String) (balance : BitVec 32)
  deriving DecidableEq, Repr

section

variable (outcome : Nat → Bool)

/-! ### Accounts -/

/-- Zero is returned as well when the query finds nothing. -/
def getCoinBalance (s : Database Tables) (accountId : BitVec 32) :
    BitVec 32 × Database Tables :=
  let (result, s) := s.storeQuery outcome fun tables => some (tables.coins accountId)
  match result with
  | none => (0, s)
  | some coins => (BitVec.ofInt 32 coins, s)

/-- The number of coins is an `int32_t` here. -/
def registerTransaction (s : Database Tables) (accountId coins : BitVec 32)
    (description : String) : Database Tables :=
  (s.executeQuery outcome fun tables =>
    { tables with
      store_history := tables.store_history ++ [⟨accountId, coins.toInt, description⟩] }).2

def addToCoins (accountId : BitVec 32) (amount : Int) (tables : Tables) : Tables :=
  { tables with
    coins := Function.update tables.coins accountId (tables.coins accountId + amount) }

/-! ### The transfer -/

/-- The transaction, up to `transaction.commit`; where it does not begin, its destructor rolls
back. -/
def moveCoins (s : Database Tables) (sender receiver amount : BitVec 32) :
    Bool × Database Tables :=
  let (begun, s) := s.beginTransaction outcome
  if !begun then (false, (s.rollback outcome).2)
  else
    let (_, s) := s.executeQuery outcome (addToCoins sender (-amount.toNat))
    let (_, s) := s.executeQuery outcome (addToCoins receiver amount.toNat)
    let (_, s) := s.commit outcome
    (true, s)

/-- What follows the checks. -/
def transferCoins (s : Database Tables) (sender : Player) (receiver : Option Player)
    (capitalizedReceiverName : String) (receiverAccountId amount : BitVec 32) :
    Reply × Database Tables :=
  let (begun, s) := moveCoins outcome s sender.account receiverAccountId amount
  if !begun then (.storeError "Internal error, try again later.", s)
  else
    let s := registerTransaction outcome s sender.account (-1 * amount)
      ("Transfered to " ++ capitalizedReceiverName)
    let s := registerTransaction outcome s receiverAccountId amount
      ("Received from" ++ sender.name)
    let (balance, s) := getCoinBalance outcome s sender.account
    -- a receiver that is online is sent the balance
    let s := match receiver with
      | some receiver =>
          if receiver.isOffline then s else (getCoinBalance outcome s receiver.account).2
      | none => s
    (.storePurchaseSuccessful ("You have successfully transfered " ++ toString amount.toNat ++
      " coins to " ++ capitalizedReceiverName ++ ".") balance, s)

def playerCoinTransfer (s : Database Tables) (sender receiver : Option Player)
    (receiverName : String) (amount : BitVec 32) : Option Reply × Database Tables :=
  match sender with
  | none => (none, s)
  | some sender =>
      let (result, s) := s.storeQuery outcome fun tables => tables.players receiverName
      match result with
      | none => (some (.storeError ("Player \"" ++ receiverName ++ "\" doesn't exist.")), s)
      | some (capitalizedReceiverName, receiverAccountId) =>
          if receiverAccountId = 0 then
            (some (.storeError ("Player \"" ++ receiverName ++ "\" doesn't exist.")), s)
          else if sender.account = receiverAccountId then
            (some (.storeError "You cannot send coins to your own account."), s)
          else
            let (balance, s) := getCoinBalance outcome s sender.account
            if balance < amount then
              (some (.storeError "You don't have enough funds to transfer these coins."), s)
            else
              let (reply, s) := transferCoins outcome s sender receiver capitalizedReceiverName
                receiverAccountId amount
              (some reply, s)

end

/-! ### What a transfer is to do -/

/-- The amount moves from the account of the sender to another, the receiver's, with a record for
each of them. -/
def Moved (sender : Player) (receiverName : String) (amount : BitVec 32) (old new : Tables) :
    Prop :=
  ∃ name account, old.players receiverName = some (name, account) ∧ account ≠ sender.account ∧
    new = { addToCoins account amount.toNat (addToCoins sender.account (-amount.toNat) old) with
      store_history := old.store_history ++
        [⟨sender.account, -amount.toNat, "Transfered to " ++ name⟩,
          ⟨account, amount.toNat, "Received from" ++ sender.name⟩] }

/-- The transfer is made or nothing is changed, no balance falls below zero, no transaction is left
open, and the lock is released as often as it is taken. -/
structure Atomic (sender : Player) (receiverName : String) (amount : BitVec 32)
    (s s' : Database Tables) : Prop where
  stored : Moved sender receiverName amount s.stored s'.stored ∨ s'.stored = s.stored
  coins : ∀ account, 0 ≤ s'.stored.coins account
  transaction : s'.transaction = none
  lock : s'.released + s.acquired = s'.acquired + s.released

/-- The transaction is reached: the receiver is found and has another account, and the balance that
the query finds is enough. -/
def Reaches (outcome : Nat → Bool) (s : Database Tables) (sender : Player)
    (receiverName : String) (amount : BitVec 32) : Prop :=
  outcome s.issued = true ∧
    (∃ name account, s.stored.players receiverName = some (name, account) ∧ account ≠ 0 ∧
      account ≠ sender.account) ∧
    (amount = 0 ∨ outcome (s.issued + 1) = true ∧ amount.toNat ≤ s.stored.coins sender.account)

/-- Of the statements from `BEGIN` on: `BEGIN` succeeds, and the updates with their `COMMIT` and the
records succeed together or fail together. An amount of zero needs no update. -/
def Together (outcome : Nat → Bool) (amount : BitVec 32) (first : Nat) : Prop :=
  outcome first = true ∧
    ((amount = 0 ∨ outcome (first + 1) ∧ outcome (first + 2) ∧ outcome (first + 3)) ∧
        outcome (first + 4) ∧ outcome (first + 5) ∨
      (amount = 0 ∨ ¬ outcome (first + 3) ∨ ¬ outcome (first + 1) ∧ ¬ outcome (first + 2)) ∧
        ¬ outcome (first + 4) ∧ ¬ outcome (first + 5))

/-! ### The statements -/

variable {outcome : Nat → Bool} {s : Database Tables}

theorem getCoinBalance_eq (accountId : BitVec 32) : getCoinBalance outcome s accountId =
    (if outcome s.issued then BitVec.ofInt 32 (s.tables.coins accountId) else 0,
      { s with
        acquired := s.acquired + 1
        released := s.released + 1
        issued := s.issued + 1 }) := by
  rw [getCoinBalance, storeQuery_eq]
  cases outcome s.issued with
  | true => rfl
  | false => rfl

/-- A record in the table, if its statement succeeds. -/
def record (success : Bool) (r : Record) (tables : Tables) : Tables :=
  if success then { tables with store_history := tables.store_history ++ [r] } else tables

theorem registerTransaction_eq (h : s.transaction = none) (accountId coins : BitVec 32)
    (description : String) : registerTransaction outcome s accountId coins description =
      { s with
        stored := record (outcome s.issued) ⟨accountId, coins.toInt, description⟩ s.stored
        acquired := s.acquired + 1
        released := s.released + 1
        issued := s.issued + 1 } := by
  rw [registerTransaction, executeQuery_plain h]
  rfl

/-- The balances after the transaction that begins with this statement: those of the updates that
succeed, if it is committed. -/
def balances (outcome : Nat → Bool) (first : Nat) (sender receiver amount : BitVec 32)
    (tables : Tables) : Tables :=
  if outcome (first + 3) then
    (if outcome (first + 2) then addToCoins receiver amount.toNat else id)
      ((if outcome (first + 1) then addToCoins sender (-amount.toNat) else id) tables)
  else tables

theorem moveCoins_eq (h : s.transaction = none) (sender receiver amount : BitVec 32) :
    moveCoins outcome s sender receiver amount =
      if outcome s.issued then
        (true, { s with
          stored := balances outcome s.issued sender receiver amount s.stored
          acquired := s.acquired + 4
          released := s.released + 4
          issued := s.issued + 4 })
      else
        (false, { s with
          acquired := s.acquired + 1
          released := s.released + 2
          issued := s.issued + 2 }) := by
  rw [moveCoins, beginTransaction_eq h]
  cases hbegin : outcome s.issued with
  | false => simp [rollback_eq, h]
  | true =>
      have hwithdraw (t : Database Tables) (ht : t.transaction = some s.stored) :
          t.executeQuery outcome (addToCoins sender (-amount.toNat)) = (outcome t.issued, _) :=
        executeQuery_transaction ht (addToCoins sender (-amount.toNat))
      simp only [if_true, Bool.not_true, Bool.false_eq_true, if_false, hwithdraw]
      rw [executeQuery_transaction rfl, commit_eq]
      simp only [Database.tables, Option.getD_some, balances, Nat.add_assoc, Nat.reduceAdd, h]
      cases outcome (s.issued + 1) with
      | false =>
          cases outcome (s.issued + 2) with
          | false => rfl
          | true => rfl
      | true =>
          cases outcome (s.issued + 2) with
          | false => rfl
          | true => rfl

/-! ### The outcome of a transfer -/

/-- The comparison of the balance that is found with the amount. -/
theorem enough_iff (success : Bool) {coins : Int} (hcoins : 0 ≤ coins ∧ coins < 2 ^ 31)
    (amount : BitVec 32) :
    ¬ (if success then BitVec.ofInt 32 coins else 0) < amount ↔
      amount = 0 ∨ success = true ∧ amount.toNat ≤ coins := by
  have hzero : amount = 0 ↔ amount.toNat = 0 := BitVec.toNat_inj (y := 0).symm
  rw [BitVec.lt_def, hzero]
  cases success with
  | false => simp
  | true =>
      simp only [if_true, BitVec.toNat_ofInt, true_and]
      omega

section

variable {sender : Player} {receiverName : String} {amount : BitVec 32}

/-- A transfer that does not come to the transaction changes nothing. -/
theorem transfer_refused (receiver : Option Player) (h : s.transaction = none)
    (hcoins : ∀ account, 0 ≤ s.stored.coins account ∧ s.stored.coins account < 2 ^ 31)
    (hreaches : ¬ Reaches outcome s sender receiverName amount) :
    ∃ n, (playerCoinTransfer outcome s (some sender) receiver receiverName amount).2 =
      { s with
        acquired := s.acquired + n
        released := s.released + n
        issued := s.issued + n } := by
  have htables : s.tables = s.stored := by rw [Database.tables, h]; rfl
  simp only [playerCoinTransfer, storeQuery_eq, htables]
  cases hquery : outcome s.issued with
  | false => exact ⟨1, rfl⟩
  | true =>
      cases hfound : s.stored.players receiverName with
      | none => exact ⟨1, rfl⟩
      | some found =>
          obtain ⟨name, account⟩ := found
          by_cases hzero : account = 0
          · exact ⟨1, by simp only [if_true, hzero]⟩
          by_cases hown : sender.account = account
          · exact ⟨1, by simp only [if_true, hzero, hown, if_false]⟩
          have hless : (if outcome (s.issued + 1) then
              BitVec.ofInt 32 (s.stored.coins sender.account) else 0) < amount := by
            by_contra henough
            exact hreaches ⟨hquery, ⟨name, account, hfound, hzero, Ne.symm hown⟩,
              (enough_iff _ (hcoins sender.account) amount).1 henough⟩
          refine ⟨2, ?_⟩
          simp only [if_true, hzero, hown, if_false, getCoinBalance_eq, Database.tables, h,
            Option.getD_none, hless]

theorem transfer_reaches (receiver : Option Player) (h : s.transaction = none)
    (hcoins : ∀ account, 0 ≤ s.stored.coins account ∧ s.stored.coins account < 2 ^ 31)
    (hreaches : Reaches outcome s sender receiverName amount) {name : String}
    {account : BitVec 32} (hfound : s.stored.players receiverName = some (name, account)) :
    (playerCoinTransfer outcome s (some sender) receiver receiverName amount).2 =
      (transferCoins outcome { s with
        acquired := s.acquired + 2
        released := s.released + 2
        issued := s.issued + 2 } sender receiver name account amount).2 := by
  obtain ⟨hquery, ⟨name', account', hfound', hzero, hown⟩, hamount⟩ := hreaches
  obtain ⟨rfl, rfl⟩ : name' = name ∧ account' = account := by simpa [hfound] using hfound'.symm
  have henough := (enough_iff _ (hcoins sender.account) amount).2 hamount
  simp only [playerCoinTransfer, storeQuery_eq, hquery, if_true, hfound, hzero,
    hown.symm, if_false, getCoinBalance_eq, Database.tables, h, Option.getD_none, henough]

/-- The transaction cannot begin: the lock is released once more. -/
theorem transferCoins_unbegun (s : Database Tables) (sender : Player) (receiver : Option Player)
    (amount : BitVec 32) (h : s.transaction = none) (name : String) (account : BitVec 32)
    (hbegin : outcome s.issued = false) :
    (transferCoins outcome s sender receiver name account amount).2 =
      { s with
        acquired := s.acquired + 1
        released := s.released + 2
        issued := s.issued + 2 } := by
  rw [transferCoins, moveCoins_eq h, hbegin]
  rfl

theorem transferCoins_begun (s : Database Tables) (sender : Player) (receiver : Option Player)
    (amount : BitVec 32) (h : s.transaction = none) (name : String) (account : BitVec 32)
    (hbegin : outcome s.issued = true) :
    ∃ n, (transferCoins outcome s sender receiver name account amount).2 =
      { s with
        stored :=
          record (outcome (s.issued + 5)) ⟨account, amount.toInt, "Received from" ++ sender.name⟩
            (record (outcome (s.issued + 4))
              ⟨sender.account, (-1 * amount).toInt, "Transfered to " ++ name⟩
              (balances outcome s.issued sender.account account amount s.stored))
        acquired := s.acquired + n
        released := s.released + n
        issued := s.issued + n } := by
  simp only [transferCoins, moveCoins_eq h, hbegin, if_true, Bool.not_true, Bool.false_eq_true,
    if_false, registerTransaction_eq, h]
  have hofReceiver (t : Database Tables) : ∃ n, (match receiver with
      | some receiver =>
          if receiver.isOffline then t else (getCoinBalance outcome t receiver.account).2
      | none => t) = { t with
        acquired := t.acquired + n
        released := t.released + n
        issued := t.issued + n } := by
    cases receiver with
    | none => exact ⟨0, rfl⟩
    | some receiver =>
        cases hoffline : receiver.isOffline with
        | true => exact ⟨0, by simp only [hoffline, if_true, Nat.add_zero]⟩
        | false =>
            exact ⟨1, by simp only [hoffline, Bool.false_eq_true, if_false, getCoinBalance_eq]⟩
  obtain ⟨n, hn⟩ := hofReceiver _
  refine ⟨7 + n, hn.trans ?_⟩
  simp only [getCoinBalance_eq, Nat.add_assoc, Nat.reduceAdd]

/-- The amount and its negation, which is computed without a sign, as they are recorded. -/
theorem recorded_amount (hamount : amount.toNat < 2 ^ 31) :
    amount.toInt = amount.toNat ∧ (-1 * amount).toInt = -amount.toNat := by
  have hpos : amount.toInt = amount.toNat := BitVec.toInt_eq_toNat_of_lt (by omega)
  refine ⟨hpos, ?_⟩
  have hneg : -1 * amount = -amount := by
    rw [BitVec.neg_mul]
    exact congrArg _ (BitVec.one_mul amount)
  rw [hneg, BitVec.toInt_neg_eq_of_msb ?_, hpos]
  exact BitVec.msb_eq_false_iff_two_mul_lt.2 (by omega)

end

/-! ### What is moved -/

section

variable (outcome : Nat → Bool) (first : Nat) {sender account : BitVec 32} (amount : BitVec 32)
  (tables : Tables)

@[simp] theorem addToCoins_players (a : BitVec 32) (n : Int) :
    (addToCoins a n tables).players = tables.players := rfl

@[simp] theorem addToCoins_history (a : BitVec 32) (n : Int) :
    (addToCoins a n tables).store_history = tables.store_history := rfl

@[simp] theorem balances_players :
    (balances outcome first sender account amount tables).players = tables.players := by
  unfold balances
  split_ifs <;> rfl

@[simp] theorem balances_history :
    (balances outcome first sender account amount tables).store_history =
      tables.store_history := by
  unfold balances
  split_ifs <;> rfl

theorem addToCoins_coins (a b : BitVec 32) (n : Int) :
    (addToCoins b n tables).coins a = tables.coins a + if a = b then n else 0 := by
  by_cases h : a = b
  · subst h
    simp [addToCoins]
  · simp [addToCoins, h]

/-- What the two accounts gain. -/
def gained (coins : BitVec 32 → Int) (sender account : BitVec 32) (m n : Int) :
    BitVec 32 → Int :=
  fun a => coins a + if a = sender then m else if a = account then n else 0

theorem gained_inj (hne : account ≠ sender) (coins : BitVec 32 → Int) {m n m' n' : Int} :
    gained coins sender account m n = gained coins sender account m' n' ↔ m = m' ∧ n = n' := by
  constructor
  · intro h
    have hsender := congrFun h sender
    have haccount := congrFun h account
    simp only [gained, if_true, hne, if_false] at hsender haccount
    omega
  · rintro ⟨rfl, rfl⟩
    rfl

theorem gained_zero (coins : BitVec 32 → Int) : gained coins sender account 0 0 = coins := by
  funext a
  simp [gained]

theorem moved_coins (hne : account ≠ sender) (m n : Int) :
    (addToCoins account n (addToCoins sender m tables)).coins =
      gained tables.coins sender account m n := by
  funext a
  simp only [addToCoins_coins, gained]
  by_cases hsender : a = sender
  · simp [hsender, hne.symm]
  · simp [hsender]

theorem addToCoins_zero (a : BitVec 32) : addToCoins a 0 tables = tables := by
  ext
  · rfl
  · simp [addToCoins_coins]
  · rfl

theorem balances_coins (hne : account ≠ sender) :
    (balances outcome first sender account amount tables).coins =
      gained tables.coins sender account
        (if outcome (first + 3) ∧ outcome (first + 1) then -(amount.toNat : Int) else 0)
        (if outcome (first + 3) ∧ outcome (first + 2) then (amount.toNat : Int) else 0) := by
  have hif (success : Bool) (a : BitVec 32) (n : Int) (t : Tables) :
      (if success then addToCoins a n else id) t = addToCoins a (if success then n else 0) t := by
    cases success with
    | false => exact (addToCoins_zero t a).symm
    | true => rfl
  unfold balances
  cases outcome (first + 3) with
  | false => simp [gained_zero]
  | true => simp only [if_true, hif, moved_coins tables hne, true_and]

theorem balances_nonneg (hne : account ≠ sender) (hcoins : ∀ a, 0 ≤ tables.coins a)
    (hpaid : amount.toNat ≤ tables.coins sender) (a : BitVec 32) :
    0 ≤ (balances outcome first sender account amount tables).coins a := by
  rw [balances_coins outcome first amount tables hne, gained]
  have := hcoins a
  by_cases hsender : a = sender
  · subst hsender
    rw [if_pos rfl]
    split_ifs <;> omega
  · rw [if_neg hsender]
    split_ifs <;> omega

/-- The balances are moved, or kept, as a whole. -/
theorem balances_moved_iff (hne : account ≠ sender) :
    (balances outcome first sender account amount tables).coins =
        (addToCoins account amount.toNat (addToCoins sender (-amount.toNat) tables)).coins ↔
      amount = 0 ∨ outcome (first + 1) ∧ outcome (first + 2) ∧ outcome (first + 3) := by
  have hzero : amount = 0 ↔ amount.toNat = 0 := BitVec.toNat_inj (y := 0).symm
  rw [balances_coins outcome first amount tables hne, moved_coins tables hne, gained_inj hne,
    hzero]
  split_ifs with hwithdraw hdeposit hdeposit
  · exact iff_of_true ⟨rfl, rfl⟩ (.inr ⟨hwithdraw.2, hdeposit.2, hdeposit.1⟩)
  · have hnot : ¬ (outcome (first + 1) ∧ outcome (first + 2) ∧ outcome (first + 3)) :=
      fun h => hdeposit ⟨h.2.2, h.2.1⟩
    rw [or_iff_left hnot]
    omega
  · have hnot : ¬ (outcome (first + 1) ∧ outcome (first + 2) ∧ outcome (first + 3)) :=
      fun h => hwithdraw ⟨h.2.2, h.1⟩
    rw [or_iff_left hnot]
    omega
  · have hnot : ¬ (outcome (first + 1) ∧ outcome (first + 2) ∧ outcome (first + 3)) :=
      fun h => hwithdraw ⟨h.2.2, h.1⟩
    rw [or_iff_left hnot]
    omega

theorem balances_kept_iff (hne : account ≠ sender) :
    (balances outcome first sender account amount tables).coins = tables.coins ↔
      amount = 0 ∨ ¬ outcome (first + 3) ∨ ¬ outcome (first + 1) ∧ ¬ outcome (first + 2) := by
  have hzero : amount = 0 ↔ amount.toNat = 0 := BitVec.toNat_inj (y := 0).symm
  have hkept : tables.coins = gained tables.coins sender account 0 0 :=
    (gained_zero tables.coins).symm
  conv_lhs => rhs; rw [hkept]
  rw [balances_coins outcome first amount tables hne, gained_inj hne, hzero]
  split_ifs with hwithdraw hdeposit hdeposit
  · have hnot : ¬ (¬ outcome (first + 3) ∨ ¬ outcome (first + 1) ∧ ¬ outcome (first + 2)) :=
      fun h => h.elim (fun h => h hwithdraw.1) fun h => h.1 hwithdraw.2
    rw [or_iff_left hnot]
    omega
  · have hnot : ¬ (¬ outcome (first + 3) ∨ ¬ outcome (first + 1) ∧ ¬ outcome (first + 2)) :=
      fun h => h.elim (fun h => h hwithdraw.1) fun h => h.1 hwithdraw.2
    rw [or_iff_left hnot]
    omega
  · have hnot : ¬ (¬ outcome (first + 3) ∨ ¬ outcome (first + 1) ∧ ¬ outcome (first + 2)) :=
      fun h => h.elim (fun h => h hdeposit.1) fun h => h.2 hdeposit.2
    rw [or_iff_left hnot]
    omega
  · refine iff_of_true ⟨rfl, rfl⟩ (.inr ?_)
    by_cases hcommit : outcome (first + 3)
    · exact .inr ⟨fun h => hwithdraw ⟨hcommit, h⟩, fun h => hdeposit ⟨hcommit, h⟩⟩
    · exact .inl hcommit

end

/-! ### The whole transfer -/

section

variable {sender : Player} {receiverName name : String} {account amount : BitVec 32}

theorem record_coins (success : Bool) (r : Record) (tables : Tables) :
    (record success r tables).coins = tables.coins := by
  cases success with
  | false => rfl
  | true => rfl

theorem record_players (success : Bool) (r : Record) (tables : Tables) :
    (record success r tables).players = tables.players := by
  cases success with
  | false => rfl
  | true => rfl

theorem record_history (success : Bool) (r : Record) (tables : Tables) :
    (record success r tables).store_history =
      tables.store_history ++ if success then [r] else [] := by
  cases success with
  | false => exact (List.append_nil _).symm
  | true => rfl

/-- What the statements after `BEGIN` leave is a transfer or nothing just when they succeed or fail
together. -/
theorem moved_or_kept_iff {old : Tables} (first : Nat)
    (hfound : old.players receiverName = some (name, account)) (hne : account ≠ sender.account)
    (hbegin : outcome first = true) (hamount : amount.toNat < 2 ^ 31) :
    (Moved sender receiverName amount old
        (record (outcome (first + 5)) ⟨account, amount.toInt, "Received from" ++ sender.name⟩
          (record (outcome (first + 4))
            ⟨sender.account, (-1 * amount).toInt, "Transfered to " ++ name⟩
            (balances outcome first sender.account account amount old))) ∨
      record (outcome (first + 5)) ⟨account, amount.toInt, "Received from" ++ sender.name⟩
          (record (outcome (first + 4))
            ⟨sender.account, (-1 * amount).toInt, "Transfered to " ++ name⟩
            (balances outcome first sender.account account amount old)) = old) ↔
      Together outcome amount first := by
  obtain ⟨hpositive, hnegative⟩ := recorded_amount hamount
  have hmoved (new : Tables) : Moved sender receiverName amount old new ↔
      new = { addToCoins account amount.toNat (addToCoins sender.account (-amount.toNat) old) with
        store_history := old.store_history ++
          [⟨sender.account, -amount.toNat, "Transfered to " ++ name⟩,
            ⟨account, amount.toNat, "Received from" ++ sender.name⟩] } := by
    constructor
    · rintro ⟨name', account', hfound', -, hnew⟩
      obtain ⟨rfl, rfl⟩ : name = name' ∧ account = account' := by simpa [hfound] using hfound'
      exact hnew
    · exact fun hnew => ⟨name, account, hfound, hne, hnew⟩
  rw [hmoved, Tables.ext_iff, Tables.ext_iff, Together, hbegin]
  simp only [record_players, record_coins, record_history, balances_players, balances_history,
    addToCoins_players, balances_moved_iff outcome first amount old hne,
    balances_kept_iff outcome first amount old hne, hpositive, hnegative, true_and,
    List.append_assoc]
  cases outcome (first + 4) with
  | false =>
      cases outcome (first + 5) with
      | false => simp
      | true => simp
  | true =>
      cases outcome (first + 5) with
      | false => simp
      | true => simp

end

namespace Sample

def sender : Player := ⟨"Eloise", 1, false⟩

/-- Two accounts with a hundred coins each. -/
def tables : Tables where
  players name := if name = "Baxter" then some ("Baxter", 2) else none
  coins _ := 100
  store_history := []

end Sample

end TibServer.CoinTransfer
