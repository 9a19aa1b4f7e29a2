import TibServer.Database

/-!
The text of an insertion of many rows (`DBInsert` of `database.h`, `database.cpp`) and the statements
in which it is sent. The statements hold every row once and in order, and the database's answers only
cut them short; how long they are depends on what the running length leaves out. Sizes are those of
texts in memory, which do not wrap.
-/

namespace TibServer.RowBatches

open Sql

/-- The bytes of a text. -/
abbrev Text := List UInt8

structure DBInsert where
  query : Text
  values : Text := []
  length : ℕ

def DBInsert.new (query : Text) : DBInsert := { query, length := query.length }

def openParen : UInt8 := 40
def closeParen : UInt8 := 41
def comma : UInt8 := 44

section Sending

/- The answer of the database to each statement, and the longest it takes. -/
variable (outcome : ℕ → Bool) (maxPacketSize : ℕ)

/-- `Database::executeQuery`, with what was sent so far. -/
def executeQuery (sent : List Text) (query : Text) : Bool × List Text :=
  (outcome sent.length, sent ++ [query])

namespace DBInsert

def execute (insert : DBInsert) (sent : List Text) : Bool × DBInsert × List Text :=
  if insert.values.isEmpty then (true, insert, sent)
  else
    let (res, sent) := executeQuery outcome sent (insert.query ++ insert.values)
    (res, { insert with values := [], length := insert.query.length }, sent)

/-- The row as it is appended to the buffer. -/
def appendRow (values row : Text) : Text :=
  if values.isEmpty then values ++ [openParen] ++ row ++ [closeParen]
  else values ++ [comma] ++ [openParen] ++ row ++ [closeParen]

def addRow (insert : DBInsert) (sent : List Text) (row : Text) : Bool × DBInsert × List Text :=
  let insert := { insert with length := insert.length + row.length }
  let (executed, insert, sent) :=
    if maxPacketSize < insert.length then insert.execute outcome sent else (true, insert, sent)
  if !executed then (false, insert, sent)
  else (true, { insert with values := appendRow insert.values row }, sent)

/-- As the callers add rows: the first that fails ends it, and the last call is `execute`. -/
def addRows (insert : DBInsert) (sent : List Text) : List Text → Bool × DBInsert × List Text
  | [] => insert.execute outcome sent
  | row :: rows =>
      match insert.addRow outcome maxPacketSize sent row with
      | (false, insert, sent) => (false, insert, sent)
      | (true, insert, sent) => insert.addRows sent rows

/-- Whether the insertion succeeds, and the statements that it sends. -/
def send (query : Text) (rows : List Text) : Bool × List Text :=
  let (success, _, sent) := (DBInsert.new query).addRows outcome maxPacketSize [] rows
  (success, sent)

end DBInsert

end Sending

/-! ### What the statements are to be -/

/-- The rows in parentheses, with commas between them. -/
def rowsText (rows : List Text) : Text :=
  [comma].intercalate (rows.map fun row => [openParen] ++ row ++ [closeParen])

/-- A statement with these rows. -/
def statement (query : Text) (rows : List Text) : Text := query ++ rowsText rows

/-- The statements hold rows in groups, in order and each once: all of them if the insertion
succeeds, as it does when no statement fails, and otherwise those up to one. -/
def Sends (outcome : ℕ → Bool) (query : Text) (rows : List Text) (success : Bool)
    (sent : List Text) : Prop :=
  ((∀ n, outcome n) → success) ∧
    ∃ groups : List (List Text), sent = groups.map (statement query) ∧ [] ∉ groups ∧
      groups.flatten <+: rows ∧ (success → groups.flatten = rows)

/-- The length of a statement with rows of these lengths: two parentheses each, commas between. -/
def statementLength (head : ℕ) (lengths : List ℕ) : ℕ :=
  head + (lengths.map (· + 2)).sum + (lengths.length - 1)

/-- The groups of rows into which the lengths are cut where the head with the rows alone would pass
the maximum, the first row of each later group left out, make no statement over the maximum. -/
def GroupsFit (head maxPacketSize : ℕ) : List ℕ → ℕ → List ℕ → Prop
  | group, _, [] => group = [] ∨ statementLength head group ≤ maxPacketSize
  | group, counted, length :: lengths =>
      if maxPacketSize < counted + length then
        statementLength head group ≤ maxPacketSize ∧
          GroupsFit head maxPacketSize [length] head lengths
      else GroupsFit head maxPacketSize (group ++ [length]) (counted + length) lengths

/-! ### The buffer -/

@[simp] theorem rowsText_nil : rowsText [] = [] := rfl

theorem rowsText_cons (row : Text) {rows : List Text} (h : rows ≠ []) :
    rowsText (row :: rows) =
      [openParen] ++ row ++ [closeParen] ++ [comma] ++ rowsText rows := by
  rw [rowsText, List.map_cons, List.intercalate_cons_of_ne_nil (by simpa using h)]
  simp [rowsText]

theorem rowsText_ne_nil {rows : List Text} (h : rows ≠ []) : rowsText rows ≠ [] := by
  cases rows with
  | nil => exact absurd rfl h
  | cons row rows =>
      cases rows with
      | nil => simp [rowsText]
      | cons next rows => rw [rowsText_cons row (by simp)]; simp

theorem rowsText_concat {rows : List Text} (h : rows ≠ []) (row : Text) :
    rowsText (rows ++ [row]) =
      rowsText rows ++ [comma] ++ ([openParen] ++ row ++ [closeParen]) := by
  induction rows with
  | nil => exact absurd rfl h
  | cons first rows ih =>
      rw [List.cons_append, rowsText_cons first (by simp)]
      cases rows with
      | nil => simp [rowsText]
      | cons next rows =>
          rw [ih (by simp), rowsText_cons first (by simp)]
          simp only [List.append_assoc]

/-- A row is appended to the text as it is to the rows. -/
theorem appendRow_rowsText (rows : List Text) (row : Text) :
    DBInsert.appendRow (rowsText rows) row = rowsText (rows ++ [row]) := by
  rcases eq_or_ne rows [] with rfl | h
  · simp [DBInsert.appendRow, rowsText]
  · have hfull : (rowsText rows).isEmpty = false := by simpa using rowsText_ne_nil h
    rw [DBInsert.appendRow, hfull, rowsText_concat h]
    simp

theorem rowsText_length (rows : List Text) : (rowsText rows).length =
    ((rows.map List.length).map (· + 2)).sum + (rows.length - 1) := by
  induction rows with
  | nil => rfl
  | cons first rows ih =>
      rcases eq_or_ne rows [] with rfl | h
      · simp [rowsText]
      · have hlength := List.length_pos_of_ne_nil h
        rw [rowsText_cons first h]
        simp only [List.length_append, List.length_cons, List.length_nil, ih, List.map_cons,
          List.sum_cons]
        omega

theorem statement_length (query : Text) (rows : List Text) : (statement query rows).length =
    statementLength query.length (rows.map List.length) := by
  rw [statement, List.length_append, rowsText_length, statementLength, List.length_map,
    Nat.add_assoc]

/-! ### The statements are the batches -/

variable {outcome : ℕ → Bool} {maxPacketSize : ℕ} {query : Text}

theorem execute_rows (group : List Text) (counted : ℕ) (sent : List Text) :
    DBInsert.execute outcome ⟨query, rowsText group, counted⟩ sent =
      if group = [] then (true, ⟨query, [], counted⟩, sent)
      else (outcome sent.length, ⟨query, [], query.length⟩, sent ++ [statement query group]) := by
  rcases eq_or_ne group [] with rfl | h
  · rfl
  · have hfull : (rowsText group).isEmpty = false := by simpa using rowsText_ne_nil h
    rw [DBInsert.execute, if_neg h]
    simp [hfull, executeQuery, statement]

/-- One call: the row joins the group, or the group is sent and the row begins the next. -/
theorem addRow_rows (group : List Text) (counted : ℕ) (sent : List Text) (row : Text) :
    DBInsert.addRow outcome maxPacketSize ⟨query, rowsText group, counted⟩ sent row =
      if maxPacketSize < counted + row.length ∧ group ≠ [] then
        (outcome sent.length,
          ⟨query, if outcome sent.length then rowsText [row] else [], query.length⟩,
          sent ++ [statement query group])
      else (true, ⟨query, rowsText (group ++ [row]), counted + row.length⟩, sent) := by
  rw [DBInsert.addRow]
  by_cases hlong : maxPacketSize < counted + row.length
  · rcases eq_or_ne group [] with rfl | h
    · simp [hlong, DBInsert.execute, DBInsert.appendRow, rowsText]
    · cases houtcome : outcome sent.length with
      | false => simp [hlong, execute_rows, h, houtcome]
      | true =>
          simp only [hlong, ↓reduceIte, execute_rows, h, houtcome, Bool.not_true,
            Bool.false_eq_true, ne_eq, not_false_eq_true, and_self]
          rw [← rowsText_nil, appendRow_rowsText]
          rfl
  · simp [hlong, appendRow_rowsText]

/-- What is sent are the batches, all of them or those up to one whose statement failed. -/
theorem addRows_rows (group : List Text) (counted : ℕ) (sent rows : List Text) :
    let result := DBInsert.addRows outcome maxPacketSize ⟨query, rowsText group, counted⟩ sent rows
    let all := batches List.length query.length maxPacketSize group counted rows
    ((∀ n, outcome n) → result.1) ∧
      ∃ groups, groups <+: all ∧ result.2.2 = sent ++ groups.map (statement query) ∧
        (result.1 → groups = all) := by
  induction rows generalizing group counted sent with
  | nil =>
      rw [DBInsert.addRows, execute_rows, batches]
      rcases eq_or_ne group [] with rfl | h
      · exact ⟨fun _ => rfl, [], List.prefix_rfl, (List.append_nil sent).symm, fun _ => rfl⟩
      · simp only [h, List.isEmpty_iff, if_false]
        exact ⟨fun hall => hall _, [group], List.prefix_rfl, rfl, fun _ => rfl⟩
  | cons row rows ih =>
      rw [DBInsert.addRows, addRow_rows, batches]
      by_cases hlong : maxPacketSize < counted + row.length
      · rcases eq_or_ne group [] with rfl | h
        · simp only [hlong, ne_eq, not_true_eq_false, and_false, if_false, List.isEmpty_nil,
            if_true]
          exact ih [row] (counted + row.length) sent
        · simp only [hlong, ne_eq, h, not_false_eq_true, and_self, if_true,
            List.isEmpty_iff, if_false]
          cases houtcome : outcome sent.length with
          | false =>
              refine ⟨fun hall => absurd (hall sent.length) (by simp [houtcome]), [group], ?_, rfl,
                fun hfalse => absurd hfalse (by simp)⟩
              exact List.prefix_append [group] _
          | true =>
              obtain ⟨hsuccess, groups, hprefix, hsent, hall⟩ :=
                ih [row] query.length (sent ++ [statement query group])
              refine ⟨hsuccess, group :: groups, ?_, ?_, fun h => by rw [hall h]⟩
              · exact (List.prefix_append_right_inj [group]).2 hprefix
              · exact hsent.trans (by simp)
      · simp only [hlong, false_and, if_false]
        exact (ih (group ++ [row]) (counted + row.length) sent)

/-- No batch is empty. -/
theorem nil_notMem_batches {Row : Type} (rowLength : Row → ℕ) (queryLength maxPacketSize : ℕ)
    (values : List Row) (length : ℕ) (rows : List Row) :
    [] ∉ batches rowLength queryLength maxPacketSize values length rows := by
  induction rows generalizing values length with
  | nil =>
      rw [batches]
      split
      · exact List.not_mem_nil
      · next h => exact fun hnil => h (by rw [← List.mem_singleton.1 hnil]; rfl)
  | cons row rows ih =>
      rw [batches]
      split
      · split
        · exact ih _ _
        · next h =>
            refine fun hnil => (List.mem_cons.1 hnil).elim (fun hnil => h ?_) (ih _ _)
            rw [← hnil]
            rfl
      · exact ih _ _

/-- The batches fit as the groups of lengths do. -/
theorem groupsFit_iff {rows : List Text} (group : List Text) (counted : ℕ)
    (hgroup : group = [] → counted = query.length)
    (hfits : ∀ row ∈ rows, query.length + row.length + 2 ≤ maxPacketSize) :
    GroupsFit query.length maxPacketSize (group.map List.length) counted
        (rows.map List.length) ↔
      ∀ batch ∈ batches List.length query.length maxPacketSize group counted rows,
        (statement query batch).length ≤ maxPacketSize := by
  induction rows generalizing group counted with
  | nil =>
      rw [List.map_nil, GroupsFit, batches, ← statement_length, List.map_eq_nil_iff]
      rcases eq_or_ne group [] with rfl | h
      · simp
      · simp [h]
  | cons row rows ih =>
      have hrow := hfits row List.mem_cons_self
      have hrows := fun row h => hfits row (List.mem_cons_of_mem _ h)
      rw [List.map_cons, GroupsFit, batches, ← statement_length]
      by_cases hlong : maxPacketSize < counted + row.length
      · have h : group ≠ [] := fun h => by
          have := hgroup h
          omega
        have ih := ih [row] query.length (by simp) hrows
        simp only [hlong, if_true, List.isEmpty_iff, h, if_false, List.forall_mem_cons]
        exact and_congr_right fun _ => ih
      · have ih := ih (group ++ [row]) (counted + row.length) (by simp) hrows
        simp only [hlong, if_false]
        rw [← ih, List.map_append]
        rfl

/-! ### The insertion -/

theorem send_rows (outcome : ℕ → Bool) (maxPacketSize : ℕ) (query : Text) (rows : List Text) :
    let result := DBInsert.send outcome maxPacketSize query rows
    let all := batches List.length query.length maxPacketSize [] query.length rows
    ((∀ n, outcome n) → result.1) ∧
      ∃ groups, groups <+: all ∧ result.2 = groups.map (statement query) ∧
        (result.1 → groups = all) :=
  addRows_rows [] query.length [] rows

theorem send_sends (outcome : ℕ → Bool) (maxPacketSize : ℕ) (query : Text) (rows : List Text) :
    Sends outcome query rows (DBInsert.send outcome maxPacketSize query rows).1
      (DBInsert.send outcome maxPacketSize query rows).2 := by
  obtain ⟨hsuccess, groups, ⟨later, hgroups⟩, hsent, hall⟩ :=
    send_rows outcome maxPacketSize query rows
  have hrows := batches_flatten List.length query.length maxPacketSize [] query.length rows
  rw [List.nil_append] at hrows
  refine ⟨hsuccess, groups, hsent, fun hnil => ?_, ⟨later.flatten, ?_⟩, fun h => ?_⟩
  · refine nil_notMem_batches List.length query.length maxPacketSize [] query.length rows ?_
    rw [← hgroups]
    exact List.mem_append_left later hnil
  · rw [← List.flatten_append, hgroups, hrows]
  · rw [hall h, hrows]

/-- Rows of which each fits by itself are sent once and in order, whatever the database answers, but
no statement passes the maximum just when none of the groups does into which the running length cuts
them. -/
theorem insertion_iff (query : Text) (rows : List Text) (maxPacketSize : ℕ)
    (hfits : ∀ row ∈ rows, query.length + row.length + 2 ≤ maxPacketSize) :
    (∀ outcome, Sends outcome query rows (DBInsert.send outcome maxPacketSize query rows).1
        (DBInsert.send outcome maxPacketSize query rows).2 ∧
      ∀ s ∈ (DBInsert.send outcome maxPacketSize query rows).2, s.length ≤ maxPacketSize) ↔
      GroupsFit query.length maxPacketSize [] query.length (rows.map List.length) := by
  refine Iff.trans ?_ (groupsFit_iff [] query.length (fun _ => rfl) hfits).symm
  constructor
  · intro h batch hbatch
    -- with no failure all batches are sent
    obtain ⟨hsuccess, groups, -, hsent, hall⟩ :=
      send_rows (fun _ => true) maxPacketSize query rows
    refine (h fun _ => true).2 _ ?_
    rw [hsent, hall (hsuccess fun _ => rfl)]
    exact List.mem_map_of_mem hbatch
  · intro h outcome
    refine ⟨send_sends outcome maxPacketSize query rows, fun s hs => ?_⟩
    obtain ⟨-, groups, hgroups, hsent, -⟩ := send_rows outcome maxPacketSize query rows
    rw [hsent] at hs
    obtain ⟨batch, hbatch, rfl⟩ := List.mem_map.1 hs
    exact h batch (hgroups.subset hbatch)

namespace Sample

def bytes (s : String) : Text := s.toList.map fun c => UInt8.ofNat c.toNat

def spellsQuery : Text := bytes "INSERT INTO `player_spells` (`player_id`, `name` ) VALUES "

def spell : Text := bytes "1,'Berserk'"

/-- Two rows of spells, and packets of 1024 bytes. -/
theorem two_spells :
    (∀ row ∈ [spell, spell], spellsQuery.length + row.length + 2 ≤ 1024) ∧
      ∀ outcome, Sends outcome spellsQuery [spell, spell]
          (DBInsert.send outcome 1024 spellsQuery [spell, spell]).1
          (DBInsert.send outcome 1024 spellsQuery [spell, spell]).2 ∧
        ∀ s ∈ (DBInsert.send outcome 1024 spellsQuery [spell, spell]).2, s.length ≤ 1024 := by
  have hfits : ∀ row ∈ [spell, spell], spellsQuery.length + row.length + 2 ≤ 1024 := by
    decide +kernel
  have hrows : [spell, spell].map List.length = [11, 11] := by decide +kernel
  have hquery : spellsQuery.length = 58 := by decide +kernel
  refine ⟨hfits, (insertion_iff spellsQuery [spell, spell] 1024 hfits).2 ?_⟩
  rw [hrows, hquery]
  simp [GroupsFit, statementLength]

/-- Eighty rows of spells: 938 bytes are counted, but the statement has 1177. -/
theorem eighty_spells : (∀ row ∈ List.replicate 80 spell,
      spellsQuery.length + row.length + 2 ≤ 1024) ∧
    ∃ s ∈ (DBInsert.send (fun _ => true) 1024 spellsQuery (List.replicate 80 spell)).2,
      1024 < s.length := by
  decide +kernel

end Sample

end TibServer.RowBatches
