import Mathlib.Data.List.Basic
import Mathlib.Tactic

/-!
The rent of houses (`house.cpp`). Whenever rents are collected, an owner whose bank has too little
gets a letter, and after seven letters he loses the house. Owners earn and spend in between, and one
owner may have to pay for many houses.
-/

namespace TibServer.HouseRent

abbrev HouseId := ℕ

abbrev Guid := ℕ

inductive RentPeriod
  | RENTPERIOD_DAILY
  | RENTPERIOD_WEEKLY
  | RENTPERIOD_MONTHLY
  | RENTPERIOD_YEARLY
  | RENTPERIOD_NEVER
  deriving DecidableEq, Repr

/-- What a payment adds to the time. -/
def RentPeriod.seconds : RentPeriod → ℕ
  | RENTPERIOD_DAILY => 24 * 60 * 60
  | RENTPERIOD_WEEKLY => 24 * 60 * 60 * 7
  | RENTPERIOD_MONTHLY => 24 * 60 * 60 * 30
  | RENTPERIOD_YEARLY => 24 * 60 * 60 * 365
  | RENTPERIOD_NEVER => 0

structure House where
  owner : Guid := 0
  rent : ℕ
  paidUntil : ℕ := 0
  rentWarnings : ℕ := 0
  /-- `towns.getTown(house->getTownId())` -/
  townExists : Bool := true

/-- What a warning says. -/
structure Letter where
  house : HouseId
  rentPeriod : RentPeriod
  rent : ℕ
  daysLeft : ℕ
  deriving DecidableEq, Repr

structure World where
  houses : HouseId → House
  /-- The balance in the table of players, for those that are there. -/
  bankBalance : Guid → Option ℕ
  inbox : Guid → List Letter

namespace World

def setHouse (w : World) (h : HouseId) (house : House) : World :=
  { w with houses := Function.update w.houses h house }

/-- What `House::setOwner` does to the owner and the rent of a house that is loaded. -/
def setOwner (w : World) (h : HouseId) (guid : Guid) : World :=
  let house := w.houses h
  if house.owner = guid then w
  else
    let house :=
      if house.owner ≠ 0 then { house with owner := 0, paidUntil := 0, rentWarnings := 0 }
      else house
    w.setHouse h
      (if guid ≠ 0 ∧ (w.bankBalance guid).isSome then { house with owner := guid } else house)

/-- One turn of the loop of `Houses::payHouses`. -/
def payHouse (rentPeriod : RentPeriod) (currentTime : ℕ) (w : World) (h : HouseId) : World :=
  let house := w.houses h
  if house.owner = 0 then w
  else if house.rent = 0 ∨ currentTime < house.paidUntil then w
  else if !house.townExists then w
  else
    match w.bankBalance house.owner with
    | none => w.setOwner h 0
    | some balance =>
        if house.rent ≤ balance then
          { w.setHouse h { house with paidUntil := currentTime + rentPeriod.seconds } with
            bankBalance := Function.update w.bankBalance house.owner (some (balance - house.rent)) }
        else if house.rentWarnings < 7 then
          let letter := ⟨h, rentPeriod, house.rent, 7 - house.rentWarnings⟩
          { w.setHouse h { house with rentWarnings := house.rentWarnings + 1 } with
            inbox := Function.update w.inbox house.owner (w.inbox house.owner ++ [letter]) }
        else w.setOwner h 0

/-- `Houses::payHouses`, over the keys of `houseMap`. -/
def payHouses (houseMap : List HouseId) (rentPeriod : RentPeriod) (currentTime : ℕ)
    (w : World) : World :=
  if rentPeriod = .RENTPERIOD_NEVER then w
  else houseMap.foldl (payHouse rentPeriod currentTime) w

end World

inductive Event
  /-- One turn of a collection of rents. -/
  | payHouse (rentPeriod : RentPeriod) (currentTime : ℕ) (h : HouseId)
  /-- A house is bought, sold or taken by a script. -/
  | setOwner (h : HouseId) (guid : Guid)
  /-- A player earns or spends, is made or deleted. -/
  | setBalance (guid : Guid) (balance : Option ℕ)

/-- When the turn takes place, and what it adds to the time. -/
def Event.period : Event → ℕ × ℕ
  | .payHouse rentPeriod currentTime _ => (currentTime, rentPeriod.seconds)
  | _ => (0, 0)

namespace World

def step (w : World) : Event → World
  | .payHouse rentPeriod currentTime h => w.payHouse rentPeriod currentTime h
  | .setOwner h guid => w.setOwner h guid
  | .setBalance guid balance =>
      { w with bankBalance := Function.update w.bankBalance guid balance }

def run (w : World) (events : List Event) : World := events.foldl step w

theorem run_cons (w : World) (t : Event) (events : List Event) :
    w.run (t :: events) = (w.step t).run events := rfl

/-- The events of `Houses::payHouses`. -/
def collection (houseMap : List HouseId) (rentPeriod : RentPeriod) (currentTime : ℕ) :
    List Event :=
  if rentPeriod = .RENTPERIOD_NEVER then []
  else houseMap.map (Event.payHouse rentPeriod currentTime)

theorem payHouses_eq_run (houseMap : List HouseId) (rentPeriod : RentPeriod) (currentTime : ℕ)
    (w : World) : w.payHouses houseMap rentPeriod currentTime =
      w.run (collection houseMap rentPeriod currentTime) := by
  rw [payHouses, collection]
  split_ifs with never
  · rfl
  · rw [run, List.foldl_map]
    rfl

/-- The rent of the house is due. -/
def Due (w : World) (h : HouseId) (currentTime : ℕ) : Prop :=
  (w.houses h).owner ≠ 0 ∧ (w.houses h).rent ≠ 0 ∧ (w.houses h).paidUntil ≤ currentTime ∧
    (w.houses h).townExists = true

instance decidableDue (w : World) (h : HouseId) (currentTime : ℕ) :
    Decidable (w.Due h currentTime) := inferInstanceAs (Decidable (_ ∧ _ ∧ _ ∧ _))

/-- What the owner of the house has in the bank. -/
def funds (w : World) (h : HouseId) : ℕ := (w.bankBalance (w.houses h).owner).getD 0

/-- The turn collects the rent of this house, and the bank has too little. -/
def Short (h : HouseId) (w : World) : Event → Prop
  | .payHouse _ currentTime h' => h' = h ∧ w.Due h currentTime ∧ w.funds h < (w.houses h).rent
  | _ => False

/-- The turn collects the rent of this house, and it is paid. -/
def Paid (h : HouseId) (w : World) : Event → Prop
  | .payHouse _ currentTime h' => h' = h ∧ w.Due h currentTime ∧ (w.houses h).rent ≤ w.funds h
  | _ => False

instance decidableShort (h : HouseId) (w : World) : (turn : Event) → Decidable (Short h w turn)
  | .payHouse _ _ _ => inferInstanceAs (Decidable (_ ∧ _ ∧ _))
  | .setOwner _ _ => inferInstanceAs (Decidable False)
  | .setBalance _ _ => inferInstanceAs (Decidable False)

instance decidablePaid (h : HouseId) (w : World) : (turn : Event) → Decidable (Paid h w turn)
  | .payHouse _ _ _ => inferInstanceAs (Decidable (_ ∧ _ ∧ _))
  | .setOwner _ _ => inferInstanceAs (Decidable False)
  | .setBalance _ _ => inferInstanceAs (Decidable False)

/-- How often the bank had too little for the rent of this house. -/
def shortfalls (h : HouseId) : World → List Event → ℕ
  | _, [] => 0
  | w, t :: events => (if Short h w t then 1 else 0) + shortfalls h (w.step t) events

/-- When a rent was paid, and for how long. -/
def payments (h : HouseId) : World → List Event → List (ℕ × ℕ)
  | _, [] => []
  | w, t :: events =>
      if Paid h w t then t.period :: payments h (w.step t) events else payments h (w.step t) events

/-- The days left in the letters about this house that a player got. -/
def warnings (h : HouseId) (g : Guid) (w : World) : List ℕ :=
  ((w.inbox g).filter fun letter => letter.house = h).map Letter.daysLeft

/-! ### One turn -/

variable {w : World} {h h' : HouseId} {g : Guid} {rentPeriod : RentPeriod} {now : ℕ}
  {t : Event} {events : List Event}

theorem setOwner_cases (guid : Guid) :
    w.setOwner h guid = w ∨ ∃ house, w.setOwner h guid = w.setHouse h house := by
  by_cases same : (w.houses h).owner = guid
  · exact Or.inl (by simp only [setOwner, same, if_true])
  · refine Or.inr ?_
    rw [setOwner, if_neg same]
    exact ⟨_, rfl⟩

theorem setOwner_other (other : h ≠ h') (guid : Guid) :
    (w.setOwner h' guid).houses h = w.houses h := by
  rcases setOwner_cases (w := w) (h := h') guid with same | ⟨house, set⟩
  · rw [same]
  · rw [set]
    simp [setHouse, other]

theorem setOwner_bankBalance (guid : Guid) : (w.setOwner h guid).bankBalance = w.bankBalance := by
  rcases setOwner_cases (w := w) (h := h) guid with same | ⟨house, set⟩
  · rw [same]
  · rw [set]
    rfl

theorem setOwner_inbox (guid : Guid) : (w.setOwner h guid).inbox = w.inbox := by
  rcases setOwner_cases (w := w) (h := h) guid with same | ⟨house, set⟩
  · rw [same]
  · rw [set]
    rfl

theorem setOwner_zero (owned : (w.houses h).owner ≠ 0) : ((w.setOwner h 0).houses h).owner = 0 := by
  rw [setOwner, if_neg owned]
  simp [setHouse, owned]

theorem payHouse_of_not_due (early : ¬w.Due h now) : w.payHouse rentPeriod now h = w := by
  by_cases owned : (w.houses h).owner = 0
  · rw [payHouse, if_pos owned]
  · by_cases free : (w.houses h).rent = 0 ∨ now < (w.houses h).paidUntil
    · rw [payHouse, if_neg owned, if_pos free]
    · have homeless : (!(w.houses h).townExists) = true := by
        by_contra town
        refine early ⟨owned, fun zero => free (Or.inl zero), ?_, by simpa using town⟩
        exact not_lt.1 fun later => free (Or.inr later)
      rw [payHouse, if_neg owned, if_neg free, if_pos homeless]

theorem Due.late (due : w.Due h now) :
    ¬((w.houses h).rent = 0 ∨ now < (w.houses h).paidUntil) := by
  rintro (zero | later)
  · exact due.2.1 zero
  · exact absurd due.2.2.1 (not_le.2 later)

/-- An owner who was deleted loses the house. -/
theorem payHouse_of_none (due : w.Due h now) (gone : w.bankBalance (w.houses h).owner = none) :
    w.payHouse rentPeriod now h = w.setOwner h 0 := by
  simp only [payHouse, due.1, due.late, due.2.2.2, gone, if_false, Bool.not_true,
    Bool.false_eq_true]

/-- What a turn comes to where the rent is due and the owner exists. -/
theorem payHouse_of_due (due : w.Due h now) {balance : ℕ}
    (account : w.bankBalance (w.houses h).owner = some balance) :
    w.payHouse rentPeriod now h =
      if (w.houses h).rent ≤ balance then
        { w.setHouse h { w.houses h with paidUntil := now + rentPeriod.seconds } with
          bankBalance := Function.update w.bankBalance (w.houses h).owner
            (some (balance - (w.houses h).rent)) }
      else if (w.houses h).rentWarnings < 7 then
        { w.setHouse h { w.houses h with rentWarnings := (w.houses h).rentWarnings + 1 } with
          inbox := Function.update w.inbox (w.houses h).owner (w.inbox (w.houses h).owner ++
            [⟨h, rentPeriod, (w.houses h).rent, 7 - (w.houses h).rentWarnings⟩]) }
      else w.setOwner h 0 := by
  simp only [payHouse, due.1, due.late, due.2.2.2, account, if_false, Bool.not_true,
    Bool.false_eq_true]

/-- The other houses are not touched. -/
theorem payHouse_other (other : h ≠ h') :
    (w.payHouse rentPeriod now h').houses h = w.houses h ∧
      warnings h g (w.payHouse rentPeriod now h') = warnings h g w := by
  by_cases due : w.Due h' now
  · cases account : w.bankBalance (w.houses h').owner with
    | none =>
        rw [payHouse_of_none due account, setOwner_other other, warnings, setOwner_inbox, warnings]
        exact ⟨rfl, rfl⟩
    | some balance =>
        rw [payHouse_of_due due account]
        split_ifs with enough patient
        · exact ⟨by simp [setHouse, other], rfl⟩
        · refine ⟨by simp [setHouse, other], ?_⟩
          by_cases self : g = (w.houses h').owner
          · simp [warnings, self, Ne.symm other]
          · simp [warnings, self]
        · rw [setOwner_other other, warnings, setOwner_inbox, warnings]
          exact ⟨rfl, rfl⟩
  · rw [payHouse_of_not_due due]
    exact ⟨rfl, rfl⟩

/-- No player is deleted. -/
theorem payHouse_account (account : w.bankBalance g ≠ none) :
    (w.payHouse rentPeriod now h').bankBalance g ≠ none := by
  by_cases due : w.Due h' now
  · cases owner : w.bankBalance (w.houses h').owner with
    | none => rwa [payHouse_of_none due owner, setOwner_bankBalance]
    | some balance =>
        rw [payHouse_of_due due owner]
        split_ifs with enough patient
        · by_cases self : g = (w.houses h').owner
          · simp [self]
          · simpa [self] using account
        · exact account
        · rwa [setOwner_bankBalance]
  · rwa [payHouse_of_not_due due]

/-- What neither gives the house to somebody nor deletes its owner. -/
def Undisturbed (h : HouseId) (g : Guid) : Event → Prop
  | .payHouse _ _ _ => True
  | .setOwner h' _ => h' ≠ h
  | .setBalance g' balance => g' = g → balance ≠ none

theorem step_account (quiet : Undisturbed h g t) (account : w.bankBalance g ≠ none) :
    (w.step t).bankBalance g ≠ none := by
  cases t with
  | payHouse rentPeriod now h' => exact payHouse_account account
  | setOwner h' guid =>
      rw [step, setOwner_bankBalance]
      exact account
  | setBalance guid balance =>
      by_cases self : guid = g
      · subst self
        simpa [step] using quiet rfl
      · simpa [step, Ne.symm self] using account

/-- A turn that does not collect the rent of this house leaves it as it is. -/
theorem step_other (quiet : Undisturbed h g t) (other : ∀ p now, t ≠ .payHouse p now h) :
    (w.step t).houses h = w.houses h ∧ warnings h g (w.step t) = warnings h g w := by
  cases t with
  | payHouse rentPeriod now h' =>
      apply payHouse_other
      rintro rfl
      exact other rentPeriod now rfl
  | setOwner h' guid =>
      rw [step, setOwner_other (Ne.symm quiet), warnings, setOwner_inbox, warnings]
      exact ⟨rfl, rfl⟩
  | setBalance guid balance => exact ⟨rfl, rfl⟩

theorem not_collected (other : ∀ p now, t ≠ .payHouse p now h) : ¬Short h w t ∧ ¬Paid h w t := by
  cases t with
  | payHouse rentPeriod now h' =>
      have apart : h' ≠ h := by
        rintro rfl
        exact other rentPeriod now rfl
      exact ⟨fun short => apart short.1, fun paid => apart paid.1⟩
  | setOwner h' guid => exact ⟨id, id⟩
  | setBalance guid balance => exact ⟨id, id⟩

/-- What a turn does to the house and its letters: nothing, a payment, a warning, or the loss. -/
inductive Outcome (h : HouseId) (g : Guid) (w : World) (t : Event) : Prop
  | idle (short : ¬Short h w t) (paid : ¬Paid h w t)
      (house : (w.step t).houses h = w.houses h)
      (letters : warnings h g (w.step t) = warnings h g w)
  | pays (short : ¬Short h w t) (paid : Paid h w t) (due : (w.houses h).paidUntil ≤ t.period.1)
      (house : (w.step t).houses h =
        { w.houses h with paidUntil := t.period.1 + t.period.2 })
      (letters : warnings h g (w.step t) = warnings h g w)
  | warned (short : Short h w t) (paid : ¬Paid h w t) (patient : (w.houses h).rentWarnings < 7)
      (house : (w.step t).houses h =
        { w.houses h with rentWarnings := (w.houses h).rentWarnings + 1 })
      (letters : warnings h g (w.step t) =
        warnings h g w ++ [7 - (w.houses h).rentWarnings])
  | lost (short : Short h w t) (paid : ¬Paid h w t) (patient : 7 ≤ (w.houses h).rentWarnings)
      (owner : ((w.step t).houses h).owner = 0)
      (letters : warnings h g (w.step t) = warnings h g w)

theorem outcome (quiet : Undisturbed h g t) (tenant : (w.houses h).owner = g)
    (account : w.bankBalance g ≠ none) : Outcome h g w t := by
  by_cases other : ∀ p now, t ≠ .payHouse p now h
  · obtain ⟨house, letters⟩ := step_other quiet other
    exact .idle (not_collected other).1 (not_collected other).2 house letters
  · push Not at other
    obtain ⟨p, now, rfl⟩ := other
    obtain ⟨balance, hb⟩ := Option.ne_none_iff_exists'.1 account
    have funded : w.funds h = balance := by rw [funds, tenant, hb, Option.getD_some]
    by_cases due : w.Due h now
    · have owned : w.bankBalance (w.houses h).owner = some balance := by rw [tenant, hb]
      have done : w.payHouse p now h = _ := payHouse_of_due due owned
      by_cases enough : (w.houses h).rent ≤ balance
      · rw [if_pos enough] at done
        refine .pays ?_ ⟨rfl, due, funded ▸ enough⟩ due.2.2.1 ?_ ?_
        · rintro ⟨-, -, poor⟩
          rw [funded] at poor
          exact absurd enough (not_le.2 poor)
        · rw [step, done]
          simp [setHouse, Event.period]
        · rw [step, done]
          rfl
      · have short : Short h w (.payHouse p now h) := ⟨rfl, due, by rw [funded]; omega⟩
        have unpaid : ¬Paid h w (.payHouse p now h) := by
          rintro ⟨-, -, rich⟩
          exact enough (funded ▸ rich)
        rw [if_neg enough] at done
        by_cases patient : (w.houses h).rentWarnings < 7
        · rw [if_pos patient] at done
          refine .warned short unpaid patient ?_ ?_
          · rw [step, done]
            simp [setHouse]
          · rw [step, done]
            simp [warnings, tenant]
        · rw [if_neg patient] at done
          refine .lost short unpaid (not_lt.1 patient) ?_ ?_
          · rw [step, done]
            exact setOwner_zero due.1
          · rw [step, done, warnings, setOwner_inbox, warnings]
    · refine .idle ?_ ?_ ?_ ?_
      · exact fun short => due short.2.1
      · exact fun paid => due paid.2.1
      · rw [step, payHouse_of_not_due due]
      · rw [step, payHouse_of_not_due due]

/-- A house without an owner is not collected for. -/
theorem step_unowned (quiet : Undisturbed h g t) (unowned : (w.houses h).owner = 0) :
    ¬Short h w t ∧ ¬Paid h w t ∧ ((w.step t).houses h).owner = 0 ∧
      warnings h g (w.step t) = warnings h g w := by
  by_cases other : ∀ p now, t ≠ .payHouse p now h
  · obtain ⟨house, letters⟩ := step_other quiet other
    exact ⟨(not_collected other).1, (not_collected other).2, by rw [house, unowned], letters⟩
  · push Not at other
    obtain ⟨p, now, rfl⟩ := other
    have early : ¬w.Due h now := fun due => due.1 unowned
    have same : w.step (.payHouse p now h) = w := payHouse_of_not_due early
    rw [same]
    exact ⟨fun short => early short.2.1, fun paid => early paid.2.1, unowned, rfl⟩

theorem run_unowned (quiet : ∀ t ∈ events, Undisturbed h g t)
    (unowned : (w.houses h).owner = 0) :
    shortfalls h w events = 0 ∧ payments h w events = [] ∧
      ((w.run events).houses h).owner = 0 ∧
      warnings h g (w.run events) = warnings h g w := by
  induction events generalizing w with
  | nil => exact ⟨rfl, rfl, unowned, rfl⟩
  | cons t events ih =>
      obtain ⟨short, paid, owner, letters⟩ := step_unowned (quiet t List.mem_cons_self) unowned
      obtain ⟨none, nothing, owner', letters'⟩ :=
        ih (fun t here => quiet t (List.mem_cons_of_mem _ here)) owner
      rw [shortfalls, payments, if_neg short, if_neg paid, none]
      exact ⟨rfl, nothing, owner', letters'.trans letters⟩

/-- The days left in the letters from a number of warnings on. -/
def countdown (warned n : ℕ) : List ℕ := (List.range' warned (min n (7 - warned))).map (7 - ·)

theorem countdown_zero (warned : ℕ) : countdown warned 0 = [] := by
  simp [countdown]

theorem countdown_seven {warned : ℕ} (all : 7 ≤ warned) (n : ℕ) : countdown warned n = [] := by
  simp [countdown, Nat.sub_eq_zero_of_le all]

theorem countdown_succ {warned : ℕ} (patient : warned < 7) (n : ℕ) :
    countdown warned (n + 1) = (7 - warned) :: countdown (warned + 1) n := by
  have more : min (n + 1) (7 - warned) = min n (7 - (warned + 1)) + 1 := by omega
  rw [countdown, more, List.range'_succ, List.map_cons, countdown]

/-- The tenant stays as long as there were no more than seven warnings. -/
theorem run_tenant (positive : g ≠ 0) (quiet : ∀ t ∈ events, Undisturbed h g t)
    (tenant : (w.houses h).owner = g) (account : w.bankBalance g ≠ none)
    (patient : (w.houses h).rentWarnings ≤ 7) :
    (((w.run events).houses h).owner = g ↔
        (w.houses h).rentWarnings + shortfalls h w events ≤ 7) ∧
      warnings h g (w.run events) =
        warnings h g w ++ countdown (w.houses h).rentWarnings (shortfalls h w events) := by
  induction events generalizing w with
  | nil =>
      rw [shortfalls, countdown_zero, List.append_nil]
      exact ⟨⟨fun _ => patient, fun _ => tenant⟩, rfl⟩
  | cons t events ih =>
      have first := quiet t List.mem_cons_self
      have later : ∀ t ∈ events, Undisturbed h g t :=
        fun t here => quiet t (List.mem_cons_of_mem _ here)
      have account' := step_account first account
      rw [run_cons, shortfalls]
      cases outcome first tenant account with
      | idle short paid house letters =>
          have rest := ih later (by rw [house, tenant]) account' (by rw [house]; exact patient)
          rw [if_neg short, Nat.zero_add]
          rwa [house, letters] at rest
      | pays short paid due house letters =>
          have rest := ih later (by rw [house]; exact tenant) account'
            (by rw [house]; exact patient)
          rw [if_neg short, Nat.zero_add]
          rwa [house, letters] at rest
      | warned short paid patient' house letters =>
          have rest := ih later (by rw [house]; exact tenant) account'
            (by rw [house]; exact patient')
          rw [house, letters] at rest
          rw [if_pos short, Nat.add_comm 1, countdown_succ patient']
          refine ⟨rest.1.trans ?_, ?_⟩
          · simp only []
            omega
          · rw [rest.2, List.append_assoc, List.singleton_append]
      | lost short paid spent owner letters =>
          obtain ⟨none, -, owner', letters'⟩ := run_unowned later owner
          rw [if_pos short, none, owner', letters', letters, countdown_seven spent, List.append_nil]
          exact ⟨⟨fun same => absurd same.symm positive, fun few => by omega⟩, rfl⟩

/-- No rent is collected for a time that was paid for. -/
theorem payments_spaced (quiet : ∀ t ∈ events, Undisturbed h g t)
    (tenant : (w.houses h).owner = g) (account : w.bankBalance g ≠ none) :
    (∀ p ∈ payments h w events, (w.houses h).paidUntil ≤ p.1) ∧
      (payments h w events).Pairwise fun p q => p.1 + p.2 ≤ q.1 := by
  induction events generalizing w with
  | nil => exact ⟨fun _ here => absurd here List.not_mem_nil, List.Pairwise.nil⟩
  | cons t events ih =>
      have first := quiet t List.mem_cons_self
      have later : ∀ t ∈ events, Undisturbed h g t :=
        fun t here => quiet t (List.mem_cons_of_mem _ here)
      have account' := step_account first account
      rw [payments]
      cases outcome first tenant account with
      | idle short paid house letters =>
          rw [if_neg paid]
          have rest := ih later (by rw [house, tenant]) account'
          rwa [house] at rest
      | pays short paid due house letters =>
          rw [if_pos paid]
          obtain ⟨bound, spaced⟩ := ih later (by rw [house]; exact tenant) account'
          rw [house] at bound
          refine ⟨?_, List.Pairwise.cons bound spaced⟩
          intro p here
          rcases List.mem_cons.1 here with rfl | here
          · exact due
          · exact (due.trans (Nat.le_add_right _ _)).trans (bound p here)
      | warned short paid patient house letters =>
          rw [if_neg paid]
          have rest := ih later (by rw [house]; exact tenant) account'
          rwa [house] at rest
      | lost short paid spent owner letters =>
          rw [if_neg paid, (run_unowned later owner).2.1]
          exact ⟨fun _ here => absurd here List.not_mem_nil, List.Pairwise.nil⟩

/-- An owner keeps his house until the bank had too little for its rent once more than the seven
letters he gets, which count the days down, whatever he paid in between; and what he paid was never
for the same time twice. -/
theorem rent_collected (positive : g ≠ 0) (quiet : ∀ t ∈ events, Undisturbed h g t)
    (tenant : (w.houses h).owner = g) (account : w.bankBalance g ≠ none)
    (patient : (w.houses h).rentWarnings ≤ 7) :
    (((w.run events).houses h).owner = g ↔
        (w.houses h).rentWarnings + shortfalls h w events ≤ 7) ∧
      warnings h g (w.run events) =
        warnings h g w ++ countdown (w.houses h).rentWarnings (shortfalls h w events) ∧
      (payments h w events).Pairwise fun p q => p.1 + p.2 ≤ q.1 := by
  obtain ⟨stays, letters⟩ := run_tenant positive quiet tenant account patient
  exact ⟨stays, letters, (payments_spaced quiet tenant account).2⟩

end World

namespace Sample

/-- Two houses of one owner, who can pay for one of them. -/
def estate : World where
  houses h := { owner := 7, rent := if h = 0 then 100 else 50 }
  bankBalance _ := some 120
  inbox _ := []

/-- The rents of eight weeks. -/
def weeks : List Event :=
  (List.range 8).flatMap fun week => World.collection [0, 1] .RENTPERIOD_WEEKLY (week * 604800)

theorem second_house_lost :
    ((estate.run weeks).houses 1).owner = 0 ∧
      World.warnings 1 7 (estate.run weeks) = [7, 6, 5, 4, 3, 2, 1] := by
  have quiet : ∀ t ∈ weeks, World.Undisturbed 1 7 t := by
    intro t here
    obtain ⟨week, -, here⟩ := List.mem_flatMap.1 here
    obtain ⟨h, -, rfl⟩ := List.mem_map.1 here
    trivial
  have run := World.rent_collected (w := estate) (by decide) quiet rfl (by simp [estate])
    (Nat.zero_le 7)
  refine ⟨by decide, ?_⟩
  rw [run.2.1]
  decide

end Sample

end TibServer.HouseRent
