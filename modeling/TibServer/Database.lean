import Mathlib.Tactic

/-!
The connection to the database (`database.h`, `database.cpp`), over tables of any kind: statements
that succeed or fail, a lock that is taken and released, and transactions, which are rolled back by a
destructor. What an open transaction writes is not stored before it is committed.
-/

namespace TibServer.Sql

variable {T : Type}

/-- The tables as they are stored and as the open transaction sees them, how often the lock was
taken and released, and how many statements were issued. -/
structure Database (T : Type) where
  stored : T
  transaction : Option T := none
  acquired : Nat := 0
  released : Nat := 0
  issued : Nat := 0

namespace Database

variable (outcome : Nat → Bool) (s : Database T)

def tables : T := s.transaction.getD s.stored

def lock : Database T := { s with acquired := s.acquired + 1 }

def unlock : Database T := { s with released := s.released + 1 }

/-- The next statement succeeds, with its effect, or fails. -/
def issue (effect : Database T → Database T) : Bool × Database T :=
  (outcome s.issued,
    { (if outcome s.issued then effect s else s) with issued := s.issued + 1 })

/-- A change of the tables, in the transaction if there is one. -/
def write (change : T → T) : Database T :=
  match s.transaction with
  | some tables => { s with transaction := some (change tables) }
  | none => { s with stored := change s.stored }

def execute (effect : Database T → Database T) : Bool × Database T :=
  let (success, s) := s.lock.issue outcome effect
  (success, s.unlock)

def executeQuery (change : T → T) : Bool × Database T :=
  s.execute outcome fun s => s.write change

/-- What the statement finds, if it succeeds. -/
def storeQuery {α : Type} (find : T → Option α) : Option α × Database T :=
  let result := if outcome s.issued then find s.tables else none
  (result, (s.execute outcome id).2)

/-- The statements of a list, up to the first that fails. -/
def executeAll (s : Database T) : List (T → T) → Bool × Database T
  | [] => (true, s)
  | change :: changes =>
      let (success, s) := s.executeQuery outcome change
      if success then s.executeAll changes else (false, s)

/-! ### Transactions -/

/-- `BEGIN`; it commits a transaction that is open. -/
def beginTransaction : Bool × Database T :=
  let (success, s) := s.execute outcome fun s =>
    { s with stored := s.tables, transaction := some s.tables }
  if success then (true, s.lock) else (false, s)

/-- The transaction is over where `ROLLBACK` or `COMMIT` fails, too: the server drops it with the
connection. -/
def rollback : Bool × Database T :=
  let (success, s) := s.issue outcome id
  (success, { s with transaction := none }.unlock)

def commit : Bool × Database T :=
  let (success, s) := s.issue outcome fun s => { s with stored := s.tables }
  (success, { s with transaction := none }.unlock)

/-- A `DBTransaction` around statements: its state is `STATE_START` before `BEGIN` is executed, and
its destructor rolls back what is not committed. -/
def transact (changes : List (T → T)) : Bool × Database T :=
  let (begun, s) := s.beginTransaction outcome
  if begun then
    let (done, s) := s.executeAll outcome changes
    if done then s.commit outcome else (false, (s.rollback outcome).2)
  else (false, (s.rollback outcome).2)

end Database

/-! ### `DBInsert` -/

/-- The rows of one insertion in the batches in which they are executed: `values` are those that
wait, and `length` is the length of the text. -/
def batches {Row : Type} (rowLength : Row → Nat) (queryLength maxPacketSize : Nat) :
    List Row → Nat → List Row → List (List Row)
  | values, _, [] => if values.isEmpty then [] else [values]
  | values, length, row :: rows =>
      if length + rowLength row > maxPacketSize then
        if values.isEmpty then
          batches rowLength queryLength maxPacketSize [row] (length + rowLength row) rows
        else values :: batches rowLength queryLength maxPacketSize [row] queryLength rows
      else batches rowLength queryLength maxPacketSize (values ++ [row])
        (length + rowLength row) rows

/-- Nothing is lost or doubled between the batches. -/
theorem batches_flatten {Row : Type} (rowLength : Row → Nat) (queryLength maxPacketSize : Nat)
    (values : List Row) (length : Nat) (rows : List Row) :
    (batches rowLength queryLength maxPacketSize values length rows).flatten = values ++ rows := by
  induction rows generalizing values length with
  | nil =>
      rw [batches]
      split
      · next hempty => rw [List.isEmpty_iff.1 hempty]; rfl
      · simp
  | cons row rows ih =>
      rw [batches]
      split
      · split
        · next hempty => rw [ih, List.isEmpty_iff.1 hempty]; rfl
        · rw [List.flatten_cons, ih]; rfl
      · rw [ih, List.append_assoc]; rfl

/-! ### What a transaction does -/

variable {outcome : Nat → Bool} {s : Database T} {tables : T}

theorem execute_eq (effect : Database T → Database T) : s.execute outcome effect =
    (outcome s.issued,
      { (if outcome s.issued then effect s.lock else s.lock) with
        issued := s.issued + 1
        released := (if outcome s.issued then effect s.lock else s.lock).released + 1 }) := rfl

theorem executeQuery_transaction (h : s.transaction = some tables) (change : T → T) :
    s.executeQuery outcome change = (outcome s.issued,
      { s with
        transaction := some (if outcome s.issued then change tables else tables)
        acquired := s.acquired + 1
        released := s.released + 1
        issued := s.issued + 1 }) := by
  rw [Database.executeQuery, execute_eq]
  cases outcome s.issued with
  | true => simp [Database.write, Database.lock, h]
  | false => simp [Database.lock, ← h]

/-- Without a transaction a statement is stored at once. -/
theorem executeQuery_plain (h : s.transaction = none) (change : T → T) :
    s.executeQuery outcome change = (outcome s.issued,
      { s with
        stored := if outcome s.issued then change s.stored else s.stored
        acquired := s.acquired + 1
        released := s.released + 1
        issued := s.issued + 1 }) := by
  rw [Database.executeQuery, execute_eq]
  cases outcome s.issued with
  | true => simp [Database.write, Database.lock, h]
  | false => simp [Database.lock]

theorem storeQuery_eq {α : Type} (find : T → Option α) : s.storeQuery outcome find =
    (if outcome s.issued then find s.tables else none,
      { s with
        acquired := s.acquired + 1
        released := s.released + 1
        issued := s.issued + 1 }) := by
  rw [Database.storeQuery, execute_eq]
  simp [Database.lock]

theorem beginTransaction_eq (h : s.transaction = none) : s.beginTransaction outcome =
    (outcome s.issued, { s with
      transaction := if outcome s.issued then some s.stored else none
      acquired := s.acquired + if outcome s.issued then 2 else 1
      released := s.released + 1
      issued := s.issued + 1 }) := by
  rw [Database.beginTransaction, execute_eq]
  cases outcome s.issued with
  | true => simp [Database.lock, Database.tables, h]
  | false => simp [Database.lock, h]

theorem rollback_eq : s.rollback outcome =
    (outcome s.issued, { s with
      transaction := none
      released := s.released + 1
      issued := s.issued + 1 }) := by
  rw [Database.rollback, Database.issue]
  cases outcome s.issued with
  | true => rfl
  | false => rfl

theorem commit_eq : s.commit outcome =
    (outcome s.issued, { s with
      stored := if outcome s.issued then s.tables else s.stored
      transaction := none
      released := s.released + 1
      issued := s.issued + 1 }) := by
  rw [Database.commit, Database.issue]
  cases outcome s.issued with
  | true => rfl
  | false => rfl

/-- In a transaction the statements change nothing that is stored, and all are executed if none
fails. -/
theorem executeAll_transaction (outcome : Nat → Bool) (tables : T) (changes : List (T → T))
    (h : s.transaction = some tables) :
    ((∀ j < changes.length, outcome (s.issued + j) = true) →
      s.executeAll outcome changes = (true,
        { s with
          transaction := some (changes.foldl (fun tables change => change tables) tables)
          acquired := s.acquired + changes.length
          released := s.released + changes.length
          issued := s.issued + changes.length })) ∧
    (¬ (∀ j < changes.length, outcome (s.issued + j) = true) →
      ∃ n tables', s.executeAll outcome changes = (false,
        { s with
          transaction := some tables'
          acquired := s.acquired + n
          released := s.released + n
          issued := s.issued + n })) := by
  induction changes generalizing s tables with
  | nil =>
      refine ⟨fun _ => ?_, fun hnot => absurd (fun j hj => absurd hj (Nat.not_lt_zero j)) hnot⟩
      rw [Database.executeAll, List.foldl_nil, ← h]
      rfl
  | cons change changes ih =>
      have hall : (∀ j < changes.length + 1, outcome (s.issued + j) = true) ↔
          outcome s.issued = true ∧ ∀ j < changes.length, outcome (s.issued + 1 + j) = true := by
        constructor
        · intro hall
          refine ⟨hall 0 (Nat.succ_pos _), fun j hj => ?_⟩
          rw [Nat.add_assoc, Nat.add_comm 1 j]
          exact hall (j + 1) (Nat.succ_lt_succ hj)
        · rintro ⟨hfirst, hlater⟩ j hj
          cases j with
          | zero => exact hfirst
          | succ j =>
              have hnext := hlater j (Nat.lt_of_succ_lt_succ hj)
              rwa [Nat.add_assoc, Nat.add_comm 1 j] at hnext
      rw [List.length_cons, hall, Database.executeAll, executeQuery_transaction h]
      cases hfirst : outcome s.issued with
      | false =>
          refine ⟨fun hboth => (by cases hboth.1), fun _ => ⟨1, tables, ?_⟩⟩
          simp
      | true =>
          simp only [if_true, true_and]
          obtain ⟨hdone, hfailed⟩ := ih (change tables)
            (s := { s with
              transaction := some (change tables)
              acquired := s.acquired + 1
              released := s.released + 1
              issued := s.issued + 1 }) rfl
          refine ⟨fun hlater => ?_, fun hnot => ?_⟩
          · rw [hdone hlater]
            simp only [List.foldl_cons, Nat.add_assoc, Nat.add_comm 1]
          · obtain ⟨n, tables', heq⟩ := hfailed hnot
            refine ⟨n + 1, tables', ?_⟩
            rw [heq]
            simp only [Nat.add_assoc, Nat.add_comm 1]

/-- All statements of the transaction succeed, with `BEGIN` and `COMMIT`. -/
def Commits (outcome : Nat → Bool) (first : Nat) (changes : List (T → T)) : Prop :=
  ∀ j ≤ changes.length + 1, outcome (first + j) = true

theorem commits_iff (outcome : Nat → Bool) (first : Nat) (changes : List (T → T)) :
    Commits outcome first changes ↔ outcome first = true ∧
      (∀ j < changes.length, outcome (first + 1 + j) = true) ∧
      outcome (first + 1 + changes.length) = true := by
  constructor
  · intro hall
    refine ⟨hall 0 (Nat.zero_le _), fun j hj => ?_, ?_⟩
    · rw [Nat.add_assoc]
      exact hall (1 + j) (by omega)
    · rw [Nat.add_assoc]
      exact hall (1 + changes.length) (by omega)
  · rintro ⟨hbegin, hlater, hcommit⟩ j hj
    rcases Nat.eq_zero_or_pos j with rfl | hpos
    · exact hbegin
    · obtain ⟨i, rfl⟩ := Nat.exists_eq_add_of_le hpos
      rw [← Nat.add_assoc]
      rcases Nat.lt_or_ge i changes.length with hi | hi
      · exact hlater i hi
      · obtain rfl : i = changes.length := by omega
        exact hcommit

/-- A transaction stores all of its statements or none. Its lock is released once more than it is
taken when `BEGIN` fails. -/
theorem transact_spec (outcome : Nat → Bool) (h : s.transaction = none)
    (changes : List (T → T)) :
    (Commits outcome s.issued changes → (s.transact outcome changes).1 = true ∧
      (s.transact outcome changes).2.stored =
        changes.foldl (fun tables change => change tables) s.stored) ∧
    (¬ Commits outcome s.issued changes → (s.transact outcome changes).1 = false ∧
      (s.transact outcome changes).2.stored = s.stored) ∧
    (s.transact outcome changes).2.released + s.acquired =
      (s.transact outcome changes).2.acquired + s.released +
        if outcome s.issued then 0 else 1 := by
  rw [commits_iff]
  cases hbegin : outcome s.issued with
  | false =>
      simp only [Database.transact, beginTransaction_eq h, hbegin, Bool.false_eq_true, if_false,
        rollback_eq]
      refine ⟨fun hcommits => (by cases hcommits.1), fun _ => ⟨trivial, trivial⟩, ?_⟩
      omega
  | true =>
      let begun : Database T :=
        { s with
          transaction := some s.stored
          acquired := s.acquired + 2
          released := s.released + 1
          issued := s.issued + 1 }
      have hbegun : s.beginTransaction outcome = (true, begun) := by
        rw [beginTransaction_eq h, hbegin]
        rfl
      obtain ⟨hdone, hfailed⟩ := executeAll_transaction (s := begun) outcome s.stored changes rfl
      by_cases hall : ∀ j < changes.length, outcome (s.issued + 1 + j) = true
      · simp only [Database.transact, hbegun, hdone hall, if_true, commit_eq, true_and, begun]
        cases hcommit : outcome (s.issued + 1 + changes.length) with
        | true =>
            refine ⟨fun _ => ⟨rfl, rfl⟩, fun hnot => absurd ⟨hall, rfl⟩ hnot, ?_⟩
            omega
        | false =>
            refine ⟨fun hboth => (by cases hboth.2), fun _ => ⟨rfl, rfl⟩, ?_⟩
            omega
      · obtain ⟨n, tables', heq⟩ := hfailed hall
        simp only [Database.transact, hbegun, heq, if_true, Bool.false_eq_true, if_false,
          rollback_eq, begun]
        refine ⟨fun hcommits => absurd hcommits.2.1 hall, fun _ => ⟨trivial, trivial⟩, ?_⟩
        omega

end TibServer.Sql
