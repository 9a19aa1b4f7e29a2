import TibServer.Database
import TibServer.ItemRows
import TibServer.Storage
import TibServer.Conservation

/-!
The save of a player (`IOLoginData::savePlayer` in `iologindata.cpp`): the data of the preys first,
with a statement of its own whose result is not looked at, and then a transaction with everything
else. The tables are those of the rows of the player.
-/

namespace TibServer.PlayerSave

open TibServer.Sql

variable {Columns : Type}

/-! ### The tables -/

inductive Table
  | player_spells | player_kills | player_items | player_depotitems | player_rewards
  | player_inboxitems | player_storage
  deriving DecidableEq

/-- The beginning of an insertion. -/
def Table.insert : Table → String
  | .player_spells => "INSERT INTO `player_spells` (`player_id`, `name` ) VALUES "
  | .player_kills =>
      "INSERT INTO `player_kills` (`player_id`, `target`, `time`, `unavenged`) VALUES"
  | .player_items => "INSERT INTO `player_items` " ++ itemColumns
  | .player_depotitems => "INSERT INTO `player_depotitems` " ++ itemColumns
  | .player_rewards => "INSERT INTO `player_rewards` " ++ itemColumns
  | .player_inboxitems => "INSERT INTO `player_inboxitems` " ++ itemColumns
  | .player_storage => "INSERT INTO `player_storage` (`player_id`, `key`, `value`) VALUES "
where
  itemColumns : String := "(`player_id`, `pid`, `sid`, `itemtype`, `count`, `attributes`) VALUES "

inductive Row
  | spell (name : String)
  | kill (target : BitVec 32) (time : Int) (unavenged : Bool)
  | item (row : ItemRow)
  | storage (key : Nat) (value : BitVec 32)

/-- The row of `players`: `columns` are those that only the transaction writes. -/
structure PlayerRow (Columns : Type) where
  save : Nat
  lastlogin : Int
  lastip : Nat
  columns : Columns

/-- Of each of the three preys the type and the value of its bonus and its name. -/
abbrev PreyRow := Fin 3 → BitVec 16 × BitVec 16 × String

structure Tables (Columns : Type) where
  players : Option (PlayerRow Columns)
  player_preytimes : List PreyRow
  rows : Table → List Row

/-! ### The player -/

structure Kill where
  target : BitVec 32
  time : Int
  unavenged : Bool

/-- What is saved of a player; `columns` is what the update of `players` makes of the columns, with
the values of the player at this time. -/
structure Player (Columns : Type) where
  lastLoginSaved : Int
  lastIP : Nat
  columns : Columns → Columns
  preyBonus : PreyRow
  learnedInstantSpellList : List String
  unjustifiedKills : List Kill
  items : PlayerItems
  lastDepotId : Int
  storage : Storage.Player

section Saving

-- `rowLength` is the length of the text of a row
variable (w : World) (rowLength : Row → Nat) (maxPacketSize now : Nat) (outcome : Nat → Bool)
  (p : Player Columns)

/-- A `DELETE` and the insertion of new rows. -/
def replace (table : Table) (rows : List Row) : List (Tables Columns → Tables Columns) :=
  (fun tables => { tables with rows := Function.update tables.rows table [] }) ::
    (batches rowLength table.insert.length maxPacketSize [] table.insert.length rows).map
      fun values tables =>
        { tables with rows := Function.update tables.rows table (tables.rows table ++ values) }

def itemRows (itemList : List (Int × ItemTree)) : List Row :=
  (w.saveItems itemList).map Row.item

/-- The row that the update of `players` leaves. -/
def Player.update (row : PlayerRow Columns) : PlayerRow Columns :=
  { row with
    columns := p.columns row.columns
    lastlogin := if p.lastLoginSaved ≠ 0 then p.lastLoginSaved else row.lastlogin
    lastip := if p.lastIP ≠ 0 then p.lastIP else row.lastip }

/-- The statements between `BEGIN` and `COMMIT`. -/
def statements : List (Tables Columns → Tables Columns) :=
  (fun tables => { tables with players := tables.players.map p.update }) ::
  (replace rowLength maxPacketSize .player_spells (p.learnedInstantSpellList.map Row.spell) ++
    replace rowLength maxPacketSize .player_kills
      (p.unjustifiedKills.map fun kill => Row.kill kill.target kill.time kill.unavenged) ++
    replace rowLength maxPacketSize .player_items (itemRows w p.items.inventoryList) ++
    (if p.lastDepotId ≠ -1 then
      replace rowLength maxPacketSize .player_depotitems (itemRows w p.items.depotList)
    else []) ++
    replace rowLength maxPacketSize .player_rewards
      (if p.items.rewardMap.isEmpty then [] else itemRows w (p.items.rewardList now)) ++
    replace rowLength maxPacketSize .player_inboxitems (itemRows w p.items.inboxList) ++
    replace rowLength maxPacketSize .player_storage
      (p.storage.genReservedStorageRange.rows.map fun row => Row.storage row.1 row.2))

/-- `savePlayerPreyById`: a row that is found is updated, and otherwise one is inserted. -/
def savePlayerPreyById (s : Database (Tables Columns)) : Bool × Database (Tables Columns) :=
  let (returnQuery, s) := s.storeQuery outcome fun tables => tables.player_preytimes.head?
  match returnQuery with
  | none => s.executeQuery outcome fun tables =>
      { tables with player_preytimes := tables.player_preytimes ++ [p.preyBonus] }
  | some _ => s.executeQuery outcome fun tables =>
      { tables with player_preytimes := tables.player_preytimes.map fun _ => p.preyBonus }

/-- The row of a player who is not saved. -/
def Player.updateLogin (row : PlayerRow Columns) : PlayerRow Columns :=
  { row with lastlogin := p.lastLoginSaved, lastip := p.lastIP }

def savePlayer (s : Database (Tables Columns)) : Bool × Database (Tables Columns) :=
  let (_, s) := savePlayerPreyById outcome p s
  let (result, s) := s.storeQuery outcome fun tables => tables.players.map PlayerRow.save
  match result with
  | none => (false, s)
  | some 0 => s.executeQuery outcome fun tables =>
      { tables with players := tables.players.map p.updateLogin }
  | some _ => s.transact outcome (statements w rowLength maxPacketSize now p)

/-! ### What is required -/

/-- The rows of a table after the save. -/
def newRows (old : Table → List Row) : Table → List Row
  | .player_spells => p.learnedInstantSpellList.map Row.spell
  | .player_kills =>
      p.unjustifiedKills.map fun kill => Row.kill kill.target kill.time kill.unavenged
  | .player_items => itemRows w p.items.inventoryList
  | .player_depotitems =>
      if p.lastDepotId ≠ -1 then itemRows w p.items.depotList else old .player_depotitems
  | .player_rewards => itemRows w (p.items.rewardList now)
  | .player_inboxitems => itemRows w p.items.inboxList
  | .player_storage => p.storage.genReservedStorageRange.rows.map fun row => Row.storage row.1 row.2

/-- The single row of the preys, or all that there are. -/
def newPreys (old : List PreyRow) : List PreyRow :=
  match old with
  | [] => [p.preyBonus]
  | _ => old.map fun _ => p.preyBonus

/-- The tables after the save; of a player whose `save` is zero only the login and the preys are
written. -/
def saved (old : Tables Columns) : Tables Columns :=
  match old.players with
  | none => old
  | some row =>
      if row.save = 0 then
        { old with
          players := some (p.updateLogin row)
          player_preytimes := newPreys p old.player_preytimes }
      else
        { players := some (p.update row)
          player_preytimes := newPreys p old.player_preytimes
          rows := newRows w now p old.rows }

/-- Everything is stored and the result is true, or nothing and it is false; and the lock has been
released as often as it was taken. -/
structure Atomic (old : Tables Columns) (r : Bool × Database (Tables Columns)) : Prop where
  stored : r.1 = true ∧ r.2.stored = saved w now p old ∨ r.1 = false ∧ r.2.stored = old
  lock : r.2.released = r.2.acquired

/-! ### The condition -/

/-- The statements behind those for the preys succeed: the selection of `save`, and the update of the
login or the transaction. -/
def Succeeds (old : Tables Columns) : Prop :=
  outcome 2 = true ∧ ∃ row, old.players = some row ∧
    if row.save = 0 then outcome 3 = true
    else Commits outcome 3 (statements w rowLength maxPacketSize now p)

/-- The statements for the preys leave what the rest of the save leaves: new data if it succeeds, and
the old if it does not. -/
def PreyFollows (old : Tables Columns) : Prop :=
  (Succeeds w rowLength maxPacketSize now outcome p old →
    if outcome 1 then outcome 0 = true ∨ old.player_preytimes = []
    else old.player_preytimes ≠ [] ∧ ∀ row ∈ old.player_preytimes, row = p.preyBonus) ∧
  (¬ Succeeds w rowLength maxPacketSize now outcome p old → outcome 1 = true →
    outcome 0 = true ∧ old.player_preytimes ≠ [] ∧
      ∀ row ∈ old.player_preytimes, row = p.preyBonus)

/-- `BEGIN` succeeds, if the save comes to it. -/
def Begins (old : Tables Columns) : Prop :=
  ∀ row, old.players = some row → row.save ≠ 0 → outcome 2 = true → outcome 3 = true

end Saving

/-! ### The statements of the transaction -/

variable {w : World} {rowLength : Row → Nat} {maxPacketSize now : Nat} {outcome : Nat → Bool}
  {p : Player Columns} {old : Tables Columns} {s : Database (Tables Columns)}

theorem foldl_insert (table : Table) (values : List (List Row)) (tables : Tables Columns) :
    (values.map fun values (tables : Tables Columns) =>
      { tables with rows := Function.update tables.rows table (tables.rows table ++ values) }).foldl
      (fun tables change => change tables) tables =
    { tables with
      rows := Function.update tables.rows table (tables.rows table ++ values.flatten) } := by
  induction values generalizing tables with
  | nil => simp
  | cons rows values ih =>
      rw [List.map_cons, List.foldl_cons, ih]
      simp

theorem foldl_replace (table : Table) (rows : List Row) (tables : Tables Columns) :
    (replace rowLength maxPacketSize table rows).foldl (fun tables change => change tables) tables =
      { tables with rows := Function.update tables.rows table rows } := by
  rw [replace, List.foldl_cons, foldl_insert, batches_flatten]
  simp

theorem itemRows_nil : itemRows w [] = [] := by
  simp [itemRows, World.saveItems, numberItems, Saving.run]

theorem rewardRows : (if p.items.rewardMap.isEmpty then [] else
    itemRows w (p.items.rewardList now)) = itemRows w (p.items.rewardList now) := by
  split
  · next hempty =>
      have hnone : p.items.rewardList now = [] := by
        simp [PlayerItems.rewardList, PlayerItems.storedRewards, List.isEmpty_iff.1 hempty]
      rw [hnone, itemRows_nil]
  · rfl

/-- The transaction leaves the new rows, and the preys as they are. -/
theorem foldl_statements (tables : Tables Columns) :
    (statements w rowLength maxPacketSize now p).foldl (fun tables change => change tables) tables =
      { players := tables.players.map p.update
        player_preytimes := tables.player_preytimes
        rows := newRows w now p tables.rows } := by
  rw [statements, rewardRows]
  simp only [List.foldl_cons, List.foldl_append, foldl_replace]
  split
  · next hdepot =>
      simp only [foldl_replace]
      congr 1
      funext table
      cases table <;> simp [newRows, hdepot]
  · next hdepot =>
      simp only [List.foldl_nil]
      congr 1
      funext table
      cases table <;> simp [newRows, hdepot]

/-! ### The save step by step -/

/-- The rows of the preys after their statements. -/
def preysAfter (outcome : Nat → Bool) (p : Player Columns) (preys : List PreyRow) : List PreyRow :=
  if outcome 1 then
    if outcome 0 = true ∧ preys ≠ [] then preys.map fun _ => p.preyBonus
    else preys ++ [p.preyBonus]
  else preys

theorem savePlayerPreyById_eq (outcome : Nat → Bool) (p : Player Columns) (old : Tables Columns) :
    (savePlayerPreyById outcome p { stored := old }).2 =
    { stored := { old with player_preytimes := preysAfter outcome p old.player_preytimes }
      acquired := 2
      released := 2
      issued := 2 } := by
  have hfind : (if outcome 0 = true then old.player_preytimes.head? else none) = none ↔
      ¬ (outcome 0 = true ∧ old.player_preytimes ≠ []) := by
    split
    · next hselect => simp [hselect, List.head?_eq_none_iff]
    · next hselect => simp [hselect]
  rw [savePlayerPreyById, storeQuery_eq]
  simp only [Database.tables, Option.getD_none]
  split
  · next hnone =>
      have hnot := hfind.1 hnone
      rw [executeQuery_plain rfl]
      simp only [preysAfter, if_neg hnot]
      split
      · rfl
      · rfl
  · next row hsome =>
      have hfound : outcome 0 = true ∧ old.player_preytimes ≠ [] := by
        by_contra hnot
        rw [hfind.2 hnot] at hsome
        cases hsome
      rw [executeQuery_plain rfl]
      simp only [preysAfter, if_pos hfound]
      split
      · rfl
      · rfl

/-- The state after the selection of `save`. -/
def selected (preys : List PreyRow) (old : Tables Columns) : Database (Tables Columns) :=
  { stored := { old with player_preytimes := preys }, acquired := 3, released := 3, issued := 3 }

theorem savePlayer_eq :
    savePlayer w rowLength maxPacketSize now outcome p { stored := old } =
      let s := selected (preysAfter outcome p old.player_preytimes) old
      match (if outcome 2 then old.players.map PlayerRow.save else none) with
      | none => (false, s)
      | some 0 => s.executeQuery outcome fun tables =>
          { tables with players := tables.players.map p.updateLogin }
      | some _ => s.transact outcome (statements w rowLength maxPacketSize now p) := by
  have hpreys := savePlayerPreyById_eq outcome p old
  rw [savePlayer]
  rcases hpair : savePlayerPreyById outcome p { stored := old } with ⟨result, s⟩
  rw [hpair] at hpreys
  have hs : s = _ := hpreys
  subst hs
  simp only [storeQuery_eq]
  rfl

/-- The result, what is stored, and the lock. -/
theorem savePlayer_spec (w : World) (rowLength : Row → Nat) (maxPacketSize now : Nat)
    (outcome : Nat → Bool) (p : Player Columns) (old : Tables Columns) :
    let r := savePlayer w rowLength maxPacketSize now outcome p { stored := old }
    let preys := preysAfter outcome p old.player_preytimes
    (Succeeds w rowLength maxPacketSize now outcome p old →
      r.1 = true ∧ r.2.stored = { saved w now p old with player_preytimes := preys }) ∧
    (¬ Succeeds w rowLength maxPacketSize now outcome p old →
      r.1 = false ∧ r.2.stored = { old with player_preytimes := preys }) ∧
    (r.2.released = r.2.acquired ↔ Begins outcome old) := by
  dsimp only
  rw [savePlayer_eq]
  generalize preysAfter outcome p old.player_preytimes = preys
  dsimp only
  cases hselect : outcome 2 with
  | false =>
      have hfails : ¬ Succeeds w rowLength maxPacketSize now outcome p old := by
        intro hsucceeds
        have htrue := hsucceeds.1
        rw [hselect] at htrue
        cases htrue
      refine ⟨fun hsucceeds => absurd hsucceeds hfails, fun _ => ⟨rfl, rfl⟩,
        iff_of_true rfl fun row _ _ htrue => ?_⟩
      rw [hselect] at htrue
      cases htrue
  | true =>
      rw [if_pos rfl]
      cases hplayers : old.players with
      | none =>
          have hfails : ¬ Succeeds w rowLength maxPacketSize now outcome p old := by
            rintro ⟨-, row, hrow, -⟩
            rw [hplayers] at hrow
            cases hrow
          refine ⟨fun hsucceeds => absurd hsucceeds hfails,
            fun _ => ⟨rfl, by simp only [Option.map_none, selected, hplayers]⟩,
            iff_of_true rfl fun row hrow => ?_⟩
          rw [hplayers] at hrow
          cases hrow
      | some row =>
          have hsucceeds : Succeeds w rowLength maxPacketSize now outcome p old ↔
              if row.save = 0 then outcome 3 = true
              else Commits outcome 3 (statements w rowLength maxPacketSize now p) := by
            constructor
            · rintro ⟨-, row', hrow, hrest⟩
              rw [hplayers] at hrow
              cases hrow
              exact hrest
            · exact fun hrest => ⟨hselect, row, hplayers, hrest⟩
          have hbegins : Begins outcome old ↔ (row.save ≠ 0 → outcome 3 = true) := by
            constructor
            · exact fun hall hsave => hall row hplayers hsave hselect
            · intro hbegin row' hrow hsave _
              rw [hplayers] at hrow
              cases hrow
              exact hbegin hsave
          rw [hsucceeds, hbegins]
          by_cases hsave : row.save = 0
          · rw [if_pos hsave]
            simp only [Option.map_some, hsave]
            rw [executeQuery_plain rfl]
            simp only [selected, saved, hplayers, if_pos hsave, Option.map_some]
            cases houtcome : outcome 3 with
            | true => exact ⟨fun _ => ⟨rfl, rfl⟩, fun hnot => absurd rfl hnot, by simp⟩
            | false => exact ⟨fun hfalse => (by cases hfalse), fun _ => ⟨rfl, rfl⟩, by simp⟩
          · rw [if_neg hsave]
            obtain ⟨n, hn⟩ := Nat.exists_eq_succ_of_ne_zero hsave
            simp only [Option.map_some, hn]
            obtain ⟨hcommits, hfails, hlock⟩ := transact_spec (s := selected preys old) outcome rfl
              (statements w rowLength maxPacketSize now p)
            refine ⟨fun hall => ?_, fun hnot => ⟨(hfails hnot).1, (hfails hnot).2.trans ?_⟩, ?_⟩
            · obtain ⟨hresult, hstored⟩ := hcommits hall
              refine ⟨hresult, hstored.trans ?_⟩
              rw [foldl_statements]
              simp only [selected, saved, hplayers, if_neg hsave, Option.map_some]
            · rw [selected, hplayers]
            · have hissued : (selected preys old).issued = 3 := rfl
              have hacquired : (selected preys old).acquired = 3 := rfl
              have hreleased : (selected preys old).released = 3 := rfl
              rw [hacquired, hreleased] at hlock
              cases houtcome : outcome 3 with
              | true =>
                  simp only [hissued, houtcome, if_true] at hlock
                  exact iff_of_true (by omega) fun _ => rfl
              | false =>
                  simp only [hissued, houtcome, Bool.false_eq_true, if_false] at hlock
                  exact iff_of_false (by omega) fun hall => by cases hall (Nat.succ_ne_zero n)

/-! ### The save as a whole -/

theorem map_eq_self_iff (preys : List PreyRow) (row : PreyRow) :
    (preys.map fun _ => row) = preys ↔ ∀ other ∈ preys, other = row := by
  induction preys with
  | nil => exact iff_of_true rfl (List.forall_mem_nil _)
  | cons other preys ih =>
      rw [List.map_cons, List.cons.injEq, ih, List.forall_mem_cons]
      exact and_congr_left fun _ => eq_comm

theorem concat_ne_map (preys : List PreyRow) (row : PreyRow) :
    preys ++ [row] ≠ preys.map fun _ => row := by
  intro heq
  have hlength := congrArg List.length heq
  simp at hlength

theorem preysAfter_old : preysAfter outcome p old.player_preytimes = old.player_preytimes ↔
    (outcome 1 = true → outcome 0 = true ∧ old.player_preytimes ≠ [] ∧
      ∀ row ∈ old.player_preytimes, row = p.preyBonus) := by
  rw [preysAfter]
  split
  · next hwritten =>
      split
      · next hfound =>
          rw [map_eq_self_iff]
          exact ⟨fun hall _ => ⟨hfound.1, hfound.2, hall⟩, fun hall => (hall hwritten).2.2⟩
      · next hnot =>
          refine iff_of_false (fun heq => ?_) fun hall =>
            hnot ⟨(hall hwritten).1, (hall hwritten).2.1⟩
          exact absurd heq (by simp)
  · next hfailed => exact iff_of_true rfl fun hwritten => absurd hwritten hfailed

theorem preysAfter_new : preysAfter outcome p old.player_preytimes =
      newPreys p old.player_preytimes ↔
    if outcome 1 then outcome 0 = true ∨ old.player_preytimes = []
    else old.player_preytimes ≠ [] ∧ ∀ row ∈ old.player_preytimes, row = p.preyBonus := by
  rw [preysAfter]
  cases hpreys : old.player_preytimes with
  | nil =>
      cases outcome 1 with
      | true => simp [newPreys]
      | false => simp [newPreys]
  | cons row preys =>
      have hsome : row :: preys ≠ [] := List.cons_ne_nil row preys
      have hnew : newPreys p (row :: preys) = (row :: preys).map fun _ => p.preyBonus := rfl
      rw [hnew]
      cases outcome 1 with
      | true =>
          rw [if_pos rfl, if_pos rfl]
          cases outcome 0 with
          | true =>
              rw [if_pos ⟨rfl, hsome⟩]
              exact iff_of_true rfl (.inl rfl)
          | false =>
              rw [if_neg fun hboth => Bool.false_ne_true hboth.1]
              refine iff_of_false (concat_ne_map _ _) ?_
              exact fun hor => hor.elim Bool.false_ne_true hsome
      | false =>
          rw [if_neg Bool.false_ne_true, if_neg Bool.false_ne_true, eq_comm, map_eq_self_iff]
          exact (and_iff_right hsome).symm

theorem saved_preys {row : PlayerRow Columns} (hplayers : old.players = some row) :
    (saved w now p old).player_preytimes = newPreys p old.player_preytimes := by
  simp only [saved, hplayers]
  split
  · rfl
  · rfl

theorem with_preys_iff (tables : Tables Columns) (preys : List PreyRow) :
    { tables with player_preytimes := preys } = tables ↔ preys = tables.player_preytimes := by
  constructor
  · exact fun heq => congrArg Tables.player_preytimes heq
  · rintro rfl
    rfl

namespace Sample

/-- A player with nothing. -/
def nobody : Player Unit where
  lastLoginSaved := 1
  lastIP := 1
  columns := id
  preyBonus _ := (0, 0, "")
  learnedInstantSpellList := []
  unjustifiedKills := []
  items := { inventory := fun _ => none, depotChests := [], inbox := [], rewardMap := [] }
  lastDepotId := -1
  storage := {}

def oldTables : Tables Unit where
  players := some { save := 1, lastlogin := 0, lastip := 0, columns := () }
  player_preytimes := []
  rows _ := []

end Sample

end TibServer.PlayerSave
