import Mathlib.Tactic
import TibServer.Spawn

/-!
The runs of a spawn. A check serves the vacant ids whose time is up, as many as the rate allows:
monsters that can be blocked are put back at once, the others by a chain of three delayed steps.
While a chain is under way its id is still vacant, so that a check that comes in between serves it
again; this cannot happen where the least interval is longer than the chain and no task is late. A
check is followed by another one if there are fewer monsters than ids, where the ones that left the
zone count as monsters though their ids are vacant.
-/

namespace TibServer.Spawn

def Task.scheduled : Task → Option Nat
  | .checkSpawn => none
  | .scheduleSpawn spawnId _ => some spawnId

namespace State

/-- The ids of the monsters there are. -/
def keys (s : State) : List Nat := s.spawnedMap.map Prod.fst

/-- The ids for which a delayed step is pending. -/
def chains (s : State) : List Nat := s.pending.filterMap fun e => e.task.scheduled

/-- How many checks are pending. -/
def checks (s : State) : Nat := s.pending.countP fun e => e.task = .checkSpawn

variable (table : Table) (ans : Answers) (s : State)

/-- The id is vacant, its time is up, and no player blocks it. -/
def isDue (spawnId : Nat) : Bool :=
  !s.isSpawned spawnId && decide (s.lastSpawn spawnId + (table.block spawnId).interval ≤ s.now) &&
    !((table.block spawnId).isBlockable && ans.findPlayer spawnId)

/-- The ids that are served out of some, after a number of others. -/
def served (spawnIds : List Nat) (spawnCount : Nat) : List Nat :=
  (spawnIds.filter (s.isDue table ans)).take (max 1 (table.rateSpawn - spawnCount))

/-- Served at once. -/
def spawnsAtOnce (spawnId : Nat) : Bool :=
  (table.block spawnId).isBlockable && ans.placed spawnId

end State

variable {table : Table} {ans : Answers} {s s' : State}

theorem isSpawned_iff {spawnId : Nat} : s.isSpawned spawnId = true ↔ spawnId ∈ s.keys := by
  unfold State.isSpawned State.keys
  rw [List.any_eq_true, List.mem_map]
  exact exists_congr fun entry => and_congr_right fun _ => beq_iff_eq

/-! ### What a check does -/

theorem spawnMonster_keys (spawnId : Nat) : (s.spawnMonster ans spawnId).keys =
    s.keys ++ [spawnId].filter ans.placed := by
  unfold State.spawnMonster
  cases hplaced : ans.placed spawnId with
  | true =>
      rw [if_pos rfl, List.filter_cons_of_pos hplaced]
      unfold State.keys
      rw [List.map_append]
      rfl
  | false =>
      rw [if_neg (by decide), List.filter_cons_of_neg (by rw [hplaced]; decide), List.filter_nil,
        List.append_nil]

theorem spawnMonster_pending (spawnId : Nat) :
    (s.spawnMonster ans spawnId).pending = s.pending := by
  unfold State.spawnMonster
  split_ifs <;> rfl

theorem spawnMonster_now (spawnId : Nat) : (s.spawnMonster ans spawnId).now = s.now := by
  unfold State.spawnMonster
  split_ifs <;> rfl

theorem spawnMonster_checkSpawnEvent (spawnId : Nat) :
    (s.spawnMonster ans spawnId).checkSpawnEvent = s.checkSpawnEvent := by
  unfold State.spawnMonster
  split_ifs <;> rfl

theorem spawnMonster_lastSpawn {spawnId other : Nat} (h : other ≠ spawnId) :
    (s.spawnMonster ans spawnId).lastSpawn other = s.lastSpawn other := by
  unfold State.spawnMonster
  split_ifs
  · exact Function.update_of_ne h ..
  · rfl

theorem scheduleSpawn_eq (spawnId : Nat) :
    s.scheduleSpawn ans spawnId (3 * NONBLOCKABLE_SPAWN_INTERVAL) =
      s.addEvent 1400 (.scheduleSpawn spawnId 2800) :=
  rfl

theorem addEvent_chains (delay : Nat) (task : Task) :
    (s.addEvent delay task).chains = s.chains ++ task.scheduled.toList := by
  unfold State.addEvent State.chains
  rw [List.filterMap_append]
  cases task <;> rfl

theorem addEvent_checks (delay : Nat) (task : Task) : (s.addEvent delay task).checks =
    s.checks + if task = .checkSpawn then 1 else 0 := by
  unfold State.addEvent State.checks
  rw [List.countP_append]
  cases task <;> rfl

/-- The loop serves one id at most once, and what it does to one id is nothing to the others. -/
theorem isDue_of_ne (s s' : State) {spawnId : Nat} (hnow : s'.now = s.now)
    (hkeys : ∀ other, other ≠ spawnId → (other ∈ s'.keys ↔ other ∈ s.keys))
    (hlast : ∀ other, other ≠ spawnId → s'.lastSpawn other = s.lastSpawn other) {other : Nat}
    (hother : other ≠ spawnId) : s'.isDue table ans other = s.isDue table ans other := by
  have hspawned : s'.isSpawned other = s.isSpawned other := by
    rw [Bool.eq_iff_iff, isSpawned_iff, isSpawned_iff]
    exact hkeys other hother
  unfold State.isDue
  rw [hspawned, hlast other hother, hnow]

theorem served_of_ne {spawnIds : List Nat} {spawnCount : Nat}
    (hdue : ∀ other ∈ spawnIds, s'.isDue table ans other = s.isDue table ans other) :
    s'.served table ans spawnIds spawnCount = s.served table ans spawnIds spawnCount := by
  unfold State.served
  rw [List.filter_congr hdue]

/-- What the loop adds to the monsters and to the pending steps. -/
structure Served (table : Table) (ans : Answers) (s s' : State) (list : List Nat) : Prop where
  keys : s'.keys = s.keys ++ list.filter (State.spawnsAtOnce table ans)
  chains : s'.chains = s.chains ++ list.filter fun spawnId => !(table.block spawnId).isBlockable
  checks : s'.checks = s.checks
  now : s'.now = s.now
  checkSpawnEvent : s'.checkSpawnEvent = s.checkSpawnEvent

theorem Served.nil (s : State) : Served table ans s s [] := by
  refine ⟨?_, ?_, rfl, rfl, rfl⟩
  · rw [List.filter_nil, List.append_nil]
  · rw [List.filter_nil, List.append_nil]

theorem Served.trans {s'' : State} {list list' : List Nat} (h : Served table ans s s' list)
    (h' : Served table ans s' s'' list') : Served table ans s s'' (list ++ list') := by
  refine ⟨?_, ?_, h'.checks.trans h.checks, h'.now.trans h.now,
    h'.checkSpawnEvent.trans h.checkSpawnEvent⟩
  · rw [h'.keys, h.keys, List.filter_append, List.append_assoc]
  · rw [h'.chains, h.chains, List.filter_append, List.append_assoc]

/-- One id is served. -/
theorem served_one (spawnId : Nat) : Served table ans s
    (if (table.block spawnId).isBlockable then s.spawnMonster ans spawnId
      else s.scheduleSpawn ans spawnId (3 * NONBLOCKABLE_SPAWN_INTERVAL)) [spawnId] := by
  cases hblock : (table.block spawnId).isBlockable with
  | true =>
      rw [if_pos rfl]
      refine ⟨?_, ?_, ?_, spawnMonster_now spawnId, spawnMonster_checkSpawnEvent spawnId⟩
      · have hsame : State.spawnsAtOnce table ans spawnId = ans.placed spawnId := by
          unfold State.spawnsAtOnce
          rw [hblock, Bool.true_and]
        rw [spawnMonster_keys, List.filter_cons, List.filter_cons, hsame]
        rfl
      · rw [List.filter_cons_of_neg (by rw [hblock]; decide), List.filter_nil, List.append_nil]
        unfold State.chains
        rw [spawnMonster_pending]
      · unfold State.checks
        rw [spawnMonster_pending]
  | false =>
      rw [if_neg (by decide), scheduleSpawn_eq]
      refine ⟨?_, ?_, ?_, rfl, rfl⟩
      · have hnot : State.spawnsAtOnce table ans spawnId = false := by
          unfold State.spawnsAtOnce
          rw [hblock, Bool.false_and]
        rw [List.filter_cons_of_neg (by rw [hnot]; decide), List.filter_nil, List.append_nil]
        rfl
      · rw [addEvent_chains, List.filter_cons_of_pos (by rw [hblock]; rfl), List.filter_nil]
        rfl
      · rw [addEvent_checks, if_neg (by simp), add_zero]

theorem isDue_iff {spawnId : Nat} : s.isDue table ans spawnId = true ↔
    s.isSpawned spawnId = false ∧
      s.lastSpawn spawnId + (table.block spawnId).interval ≤ s.now ∧
        ((table.block spawnId).isBlockable && ans.findPlayer spawnId) = false := by
  unfold State.isDue
  rw [Bool.and_eq_true, Bool.and_eq_true, Bool.not_eq_true', Bool.not_eq_true', decide_eq_true_eq,
    and_assoc]

theorem served_cons_of_not_due {spawnId : Nat} {spawnIds : List Nat} {spawnCount : Nat}
    (h : ¬ s.isDue table ans spawnId = true) : s.served table ans (spawnId :: spawnIds) spawnCount =
      s.served table ans spawnIds spawnCount := by
  unfold State.served
  rw [List.filter_cons_of_neg h]

/-- An id is served: nothing changes for the others. -/
theorem isDue_of_served {spawnId other : Nat} (hother : other ≠ spawnId) :
    (if (table.block spawnId).isBlockable then s.spawnMonster ans spawnId
      else s.scheduleSpawn ans spawnId (3 * NONBLOCKABLE_SPAWN_INTERVAL)).isDue table ans other =
      s.isDue table ans other := by
  split_ifs
  · refine isDue_of_ne s (s.spawnMonster ans spawnId) (spawnMonster_now spawnId) (fun other hne => ?_)
      (fun other hne => spawnMonster_lastSpawn hne) hother
    rw [spawnMonster_keys, List.mem_append]
    refine or_iff_left fun hmem => hne ?_
    exact List.mem_singleton.1 (List.mem_filter.1 hmem).1
  · rfl

/-- The loop serves the due ids in their order, as many as the rate allows and one at least. -/
theorem checkLoop_served (spawnIds : List Nat) (hnodup : spawnIds.Nodup) (spawnCount : Nat)
    (s : State) : Served table ans s (s.checkLoop table ans spawnIds spawnCount)
      (s.served table ans spawnIds spawnCount) := by
  induction spawnIds generalizing spawnCount s with
  | nil =>
      unfold State.served
      rw [List.filter_nil, List.take_nil]
      exact Served.nil s
  | cons spawnId spawnIds ih =>
      obtain ⟨hnotin, hrest⟩ := List.nodup_cons.1 hnodup
      have hne {other : Nat} (hmem : other ∈ spawnIds) : other ≠ spawnId :=
        fun heq => hnotin (heq ▸ hmem)
      unfold State.checkLoop
      dsimp only
      by_cases hspawned : s.isSpawned spawnId = true
      · rw [if_pos hspawned, served_cons_of_not_due fun hdue => by
          rw [(isDue_iff.1 hdue).1] at hspawned
          exact Bool.false_ne_true hspawned]
        exact ih hrest spawnCount s
      rw [if_neg hspawned]
      by_cases htime : s.lastSpawn spawnId + (table.block spawnId).interval ≤ s.now
      · rw [if_pos htime]
        by_cases hplayer : ((table.block spawnId).isBlockable && ans.findPlayer spawnId) = true
        · -- a player is near: only the time starts again
          rw [if_pos hplayer, served_cons_of_not_due fun hdue => by
            rw [(isDue_iff.1 hdue).2.2] at hplayer
            exact Bool.false_ne_true hplayer]
          have hlater (other : Nat) (hmem : other ∈ spawnIds) :
              ({ s with lastSpawn := Function.update s.lastSpawn spawnId s.now } : State).isDue
                table ans other = s.isDue table ans other := by
            refine isDue_of_ne s { s with lastSpawn := Function.update s.lastSpawn spawnId s.now }
              rfl ?_ ?_ (hne hmem)
            · exact fun _ _ => Iff.rfl
            · exact fun _ hother => Function.update_of_ne hother ..
          have hblocked := ih hrest spawnCount
            { s with lastSpawn := Function.update s.lastSpawn spawnId s.now }
          rw [served_of_ne hlater] at hblocked
          exact ⟨hblocked.keys, hblocked.chains, hblocked.checks, hblocked.now,
            hblocked.checkSpawnEvent⟩
        · rw [if_neg hplayer]
          have hdue : s.isDue table ans spawnId = true :=
            isDue_iff.2 ⟨Bool.eq_false_iff.2 hspawned, htime, Bool.eq_false_iff.2 hplayer⟩
          have hone := @served_one table ans s spawnId
          by_cases hrate : table.rateSpawn ≤ spawnCount + 1
          · rw [if_pos hrate]
            unfold State.served
            rw [List.filter_cons_of_pos hdue, show max 1 (table.rateSpawn - spawnCount) = 1 by omega,
              List.take_succ_cons, List.take_zero]
            exact hone
          · rw [if_neg hrate]
            have hmore := ih hrest (spawnCount + 1)
              (if (table.block spawnId).isBlockable then s.spawnMonster ans spawnId
                else s.scheduleSpawn ans spawnId (3 * NONBLOCKABLE_SPAWN_INTERVAL))
            rw [served_of_ne fun other hmem => isDue_of_served (hne hmem)] at hmore
            have hlist : s.served table ans (spawnId :: spawnIds) spawnCount =
                [spawnId] ++ s.served table ans spawnIds (spawnCount + 1) := by
              unfold State.served
              rw [List.filter_cons_of_pos hdue,
                show max 1 (table.rateSpawn - spawnCount) =
                  max 1 (table.rateSpawn - (spawnCount + 1)) + 1 by omega, List.take_succ_cons]
              rfl
            rw [hlist]
            exact hone.trans hmore
      · rw [if_neg htime, served_cons_of_not_due fun hdue => htime (isDue_iff.1 hdue).2.1]
        exact ih hrest spawnCount s

/-! ### The cleanup before it -/

namespace State

variable (table : Table) (ans : Answers) (s : State)

/-- A living monster in the zone has the id. -/
def held (spawnId : Nat) : Bool :=
  s.spawnedMap.any fun entry =>
    entry.1 == spawnId && (!s.isRemoved entry.2 && s.isInSpawnZone entry.2)

/-- A monster with the id has died, and no check has seen it. -/
def hasDied (spawnId : Nat) : Bool :=
  s.spawnedMap.any fun entry => entry.1 == spawnId && s.isRemoved entry.2

/-- The monsters that live, in the zone or not. -/
def living : List (Nat × Nat) := s.spawnedMap.filter fun entry => !s.isRemoved entry.2

/-- The ids that a check would serve now. -/
def toServe : List Nat :=
  (table.spawnIds.filter fun spawnId =>
    !s.held spawnId &&
      decide ((if s.hasDied spawnId then s.now else s.lastSpawn spawnId) +
        (table.block spawnId).interval ≤ s.now) &&
      !((table.block spawnId).isBlockable && ans.findPlayer spawnId)).take (max 1 table.rateSpawn)

/-- Those of them that get their monster at once. -/
def putBack : List Nat := (s.toServe table ans).filter (spawnsAtOnce table ans)

end State

theorem mem_spawnIds {spawnId : Nat} :
    spawnId ∈ table.spawnIds ↔ 1 ≤ spawnId ∧ spawnId < 1 + table.blocks.length :=
  List.mem_range'_1

theorem ne_zero_of_mem_spawnIds {spawnId : Nat} (h : spawnId ∈ table.spawnIds) : spawnId ≠ 0 :=
  Nat.one_le_iff_ne_zero.1 (mem_spawnIds.1 h).1

theorem spawnIds_nodup : table.spawnIds.Nodup := List.nodup_range'

theorem toServe_subset {spawnId : Nat} (h : spawnId ∈ s.toServe table ans) :
    spawnId ∈ table.spawnIds ∧ s.held spawnId = false := by
  obtain ⟨hmem, hdue⟩ := List.mem_filter.1 (List.mem_of_mem_take h)
  rw [Bool.and_eq_true, Bool.and_eq_true, Bool.not_eq_true'] at hdue
  exact ⟨hmem, hdue.1.1⟩

theorem toServe_nodup : (s.toServe table ans).Nodup :=
  (spawnIds_nodup.filter _).sublist (List.take_sublist ..)

/-- The pairs that keep their id are those of the living monsters in the zone. -/
theorem cleaned_eq_some {spawnId m : Nat} (hid : spawnId ≠ 0) {entry : Nat × Nat} :
    s.cleaned entry = some (spawnId, m) ↔
      entry = (spawnId, m) ∧ s.isRemoved m = false ∧ s.isInSpawnZone m = true := by
  obtain ⟨other, m'⟩ := entry
  unfold State.cleaned
  cases hremoved : s.isRemoved m' <;> cases hzone : s.isInSpawnZone m' <;> grind

theorem cleanup_isSpawned {spawnId : Nat} (hid : spawnId ≠ 0) :
    s.cleanup.isSpawned spawnId = s.held spawnId := by
  rw [Bool.eq_iff_iff, isSpawned_iff]
  unfold State.keys State.cleanup State.held
  rw [List.mem_map, List.any_eq_true]
  constructor
  · rintro ⟨⟨_, m⟩, hmem, rfl⟩
    obtain ⟨entry, hentry, hcleaned⟩ := List.mem_filterMap.1 hmem
    obtain ⟨rfl, hremoved, hzone⟩ := (cleaned_eq_some hid).1 hcleaned
    exact ⟨_, hentry, by simp [hremoved, hzone]⟩
  · rintro ⟨⟨other, m⟩, hmem, hheld⟩
    simp only [Bool.and_eq_true, beq_iff_eq, Bool.not_eq_true'] at hheld
    obtain ⟨rfl, hremoved, hzone⟩ := hheld
    exact ⟨(other, m), List.mem_filterMap.2 ⟨(other, m), hmem,
      (cleaned_eq_some hid).2 ⟨rfl, hremoved, hzone⟩⟩, rfl⟩

theorem cleanup_lastSpawn {spawnId : Nat} (hid : spawnId ≠ 0) : s.cleanup.lastSpawn spawnId =
    if s.hasDied spawnId then s.now else s.lastSpawn spawnId := by
  have hkept : (spawnId != 0) = true := bne_iff_ne.2 hid
  unfold State.cleanup State.hasDied
  simp only [hkept, Bool.and_true]

theorem cleanup_served : s.cleanup.served table ans table.spawnIds 0 = s.toServe table ans := by
  unfold State.served State.toServe
  rw [Nat.sub_zero]
  congr 1
  refine List.filter_congr fun spawnId hmem => ?_
  have hid := ne_zero_of_mem_spawnIds hmem
  unfold State.isDue
  rw [cleanup_isSpawned hid, cleanup_lastSpawn hid]
  rfl

/-- Who left the zone is still counted. -/
theorem cleanup_length : s.cleanup.spawnedMap.length = s.living.length := by
  unfold State.cleanup State.living
  rw [List.length_filterMap_eq_countP, ← List.countP_eq_length_filter]
  refine List.countP_congr fun entry _ => ?_
  unfold State.cleaned
  split_ifs <;> simp_all

theorem cleanup_count {spawnId : Nat} (hid : spawnId ≠ 0) :
    s.cleanup.keys.count spawnId ≤ s.keys.count spawnId := by
  unfold State.keys State.cleanup
  dsimp only
  induction s.spawnedMap with
  | nil => exact le_rfl
  | cons entry list ih =>
      rw [List.filterMap_cons, List.map_cons, List.count_cons]
      cases hcleaned : s.cleaned entry with
      | none => exact Nat.le_add_right_of_le ih
      | some left =>
          rw [List.map_cons, List.count_cons]
          refine Nat.add_le_add ih ?_
          obtain ⟨other, m⟩ := left
          by_cases heq : other = spawnId
          · subst heq
            obtain ⟨rfl, -⟩ := (cleaned_eq_some hid).1 hcleaned
            exact le_rfl
          · rw [if_neg (by simpa using heq)]
            exact Nat.zero_le _

/-! ### A whole check -/

/-- What a check does to the monsters, to the delayed steps and to the checks to come. -/
structure Checked (table : Table) (ans : Answers) (s s' : State) : Prop where
  keys : s'.keys = s.cleanup.keys ++ s.putBack table ans
  chains : s'.chains = s.chains ++
    (s.toServe table ans).filter fun spawnId => !(table.block spawnId).isBlockable
  checks : s'.checks = s.checks +
    if s.living.length + (s.putBack table ans).length < table.blocks.length then 1 else 0
  armed : s'.checkSpawnEvent ≠ 0 ↔
    s.living.length + (s.putBack table ans).length < table.blocks.length

theorem checkSpawn_checked : Checked table ans s (s.checkSpawn table ans) := by
  obtain ⟨s₁, hs₁⟩ : ∃ s₁, State.checkLoop table ans table.spawnIds 0
    ({ s with checkSpawnEvent := 0 } : State).cleanup = s₁ := ⟨_, rfl⟩
  have hserved := @checkLoop_served table ans table.spawnIds spawnIds_nodup 0
    ({ s with checkSpawnEvent := 0 } : State).cleanup
  rw [cleanup_served, hs₁] at hserved
  have hkeys : s₁.keys = s.cleanup.keys ++ s.putBack table ans := hserved.keys
  have hlength : s₁.spawnedMap.length = s.living.length + (s.putBack table ans).length := by
    have hcount := congrArg List.length hkeys
    rwa [List.length_append, State.keys, State.keys, List.length_map, List.length_map,
      cleanup_length] at hcount
  have hcheck : s.checkSpawn table ans =
      if s.living.length + (s.putBack table ans).length < table.blocks.length then
        { s₁.addEvent table.interval .checkSpawn with checkSpawnEvent := s₁.lastEventId + 1 }
      else s₁ := by
    rw [← hlength, ← hs₁]
    rfl
  rw [hcheck]
  split_ifs with hfew
  · refine ⟨hkeys, ?_, ?_, iff_of_true (Nat.succ_ne_zero _) hfew⟩
    · exact (addEvent_chains table.interval .checkSpawn).trans
        (by rw [hserved.chains]; exact List.append_nil _)
    · rw [if_pos hfew]
      exact (addEvent_checks table.interval .checkSpawn).trans
        (by rw [hserved.checks, if_pos rfl]; rfl)
  · refine ⟨hkeys, hserved.chains, ?_, iff_of_false (fun hne => hne hserved.checkSpawnEvent) hfew⟩
    rw [if_neg hfew]
    exact hserved.checks

/-! ### Tasks that are run -/

/-- The state in which the work of a task begins. -/
def State.without (s : State) (e : SchedulerTask) : State :=
  { s with pending := s.pending.erase e }

theorem without_chains {e : SchedulerTask} (h : e ∈ s.pending) (spawnId : Nat) :
    s.chains.count spawnId =
      (s.without e).chains.count spawnId + e.task.scheduled.toList.count spawnId := by
  have hperm : s.chains.Perm ((e :: s.pending.erase e).filterMap fun e => e.task.scheduled) :=
    (List.perm_cons_erase h).filterMap _
  rw [hperm.count_eq, List.filterMap_cons]
  unfold State.without State.chains
  cases e.task.scheduled with
  | none => rfl
  | some other =>
      dsimp only
      rw [← List.singleton_append, List.count_append, Nat.add_comm]
      rfl

theorem without_checks {e : SchedulerTask} (h : e ∈ s.pending) :
    s.checks = (s.without e).checks + if e.task = .checkSpawn then 1 else 0 := by
  unfold State.checks
  rw [(List.perm_cons_erase h).countP_eq, List.countP_cons]
  simp only [decide_eq_true_eq]
  rfl

theorem fire_checkSpawn {e : SchedulerTask} (h : e.task = .checkSpawn) :
    s.fire table ans e = (s.without e).checkSpawn table ans := by
  unfold State.fire
  rw [h]
  rfl

theorem fire_scheduleSpawn {e : SchedulerTask} {spawnId interval : Nat}
    (h : e.task = .scheduleSpawn spawnId interval) :
    s.fire table ans e = (s.without e).scheduleSpawn ans spawnId interval := by
  unfold State.fire
  rw [h]
  rfl

/-- A delayed step spawns the monster or is followed by another one. -/
theorem scheduleSpawn_count (spawnId interval other : Nat) :
    (s.scheduleSpawn ans spawnId interval).keys.count other +
        (s.scheduleSpawn ans spawnId interval).chains.count other ≤
      s.keys.count other + s.chains.count other + [spawnId].count other := by
  unfold State.scheduleSpawn
  split_ifs
  · have hsame : (s.spawnMonster ans spawnId).chains = s.chains := by
      unfold State.chains
      rw [spawnMonster_pending]
    have hsub : ([spawnId].filter ans.placed).count other ≤ [spawnId].count other :=
      List.filter_sublist.count_le other
    rw [spawnMonster_keys, hsame, List.count_append]
    omega
  · have hsame : (s.addEvent 1400
        (.scheduleSpawn spawnId (interval - NONBLOCKABLE_SPAWN_INTERVAL))).keys = s.keys := rfl
    have hstep : (Task.scheduleSpawn spawnId
        (interval - NONBLOCKABLE_SPAWN_INTERVAL)).scheduled.toList = [spawnId] := rfl
    rw [hsame, addEvent_chains, List.count_append, hstep]
    omega

theorem scheduleSpawn_checks (spawnId interval : Nat) :
    (s.scheduleSpawn ans spawnId interval).checks = s.checks := by
  unfold State.scheduleSpawn
  split_ifs
  · unfold State.checks
    rw [spawnMonster_pending]
  · rw [addEvent_checks, if_neg (by simp), add_zero]

theorem scheduleSpawn_checkSpawnEvent (spawnId interval : Nat) :
    (s.scheduleSpawn ans spawnId interval).checkSpawnEvent = s.checkSpawnEvent := by
  unfold State.scheduleSpawn
  split_ifs
  · exact spawnMonster_checkSpawnEvent spawnId
  · rfl

/-! ### One monster an id -/

/-- The monsters of the id and the steps on their way to one. -/
def Single (s : State) : Prop :=
  ∀ spawnId, spawnId ≠ 0 → s.keys.count spawnId + s.chains.count spawnId ≤ 1

/-- No check serves an id for which a delayed step is pending. -/
def Unscheduled (table : Table) (s : State) : Event → Prop
  | .fire e ans => e.task = .checkSpawn → ∀ spawnId ∈ s.toServe table ans, spawnId ∉ s.chains
  | _ => True

theorem startup_fold (spawnIds : List Nat) (s : State) :
    (spawnIds.foldl (fun s spawnId => s.spawnMonster ans spawnId) s).keys =
        s.keys ++ spawnIds.filter ans.placed ∧
      (spawnIds.foldl (fun s spawnId => s.spawnMonster ans spawnId) s).pending = s.pending ∧
        (spawnIds.foldl (fun s spawnId => s.spawnMonster ans spawnId) s).checkSpawnEvent =
          s.checkSpawnEvent := by
  induction spawnIds generalizing s with
  | nil => exact ⟨(List.append_nil _).symm, rfl, rfl⟩
  | cons spawnId spawnIds ih =>
      obtain ⟨hkeys, hpending, hcheck⟩ := ih (s.spawnMonster ans spawnId)
      refine ⟨?_, hpending.trans (spawnMonster_pending spawnId),
        hcheck.trans (spawnMonster_checkSpawnEvent spawnId)⟩
      rw [List.foldl_cons, hkeys, spawnMonster_keys, List.append_assoc, ← List.filter_append]
      rfl

theorem startup_single (now : Nat) : Single (({ now := now } : State).startup table ans) := by
  intro spawnId _
  obtain ⟨hkeys, hpending, -⟩ := @startup_fold ans table.spawnIds ({ now := now } : State)
  have hchains : (({ now := now } : State).startup table ans).chains = [] := by
    unfold State.chains State.startup
    rw [hpending]
    rfl
  have hone : (table.spawnIds.filter ans.placed).count spawnId ≤ 1 :=
    List.nodup_iff_count_le_one.1 (spawnIds_nodup.filter _) spawnId
  rw [hchains]
  unfold State.startup
  rw [hkeys, List.count_append]
  exact (Nat.le_of_eq (Nat.zero_add _)).trans hone

/-- An id that is served gets a monster or a step, but not both. -/
theorem putBack_count (spawnId : Nat) : (s.putBack table ans).count spawnId +
    ((s.toServe table ans).filter fun spawnId =>
      !(table.block spawnId).isBlockable).count spawnId ≤ (s.toServe table ans).count spawnId := by
  unfold State.putBack
  have hatOnce : ((s.toServe table ans).filter (State.spawnsAtOnce table ans)).count spawnId ≤
    (s.toServe table ans).count spawnId := List.filter_sublist.count_le spawnId
  have hdelayed : ((s.toServe table ans).filter fun spawnId =>
      !(table.block spawnId).isBlockable).count spawnId ≤ (s.toServe table ans).count spawnId :=
    List.filter_sublist.count_le spawnId
  cases hblock : (table.block spawnId).isBlockable with
  | true =>
      have hnone : ((s.toServe table ans).filter fun spawnId =>
          !(table.block spawnId).isBlockable).count spawnId = 0 := by
        refine List.count_eq_zero_of_not_mem fun hmem => ?_
        have hnot := (List.mem_filter.1 hmem).2
        rw [hblock] at hnot
        exact Bool.false_ne_true hnot
      omega
  | false =>
      have hnone :
          ((s.toServe table ans).filter (State.spawnsAtOnce table ans)).count spawnId = 0 := by
        refine List.count_eq_zero_of_not_mem fun hmem => ?_
        have hnot := (List.mem_filter.1 hmem).2
        rw [State.spawnsAtOnce, hblock] at hnot
        exact Bool.false_ne_true hnot
      omega

theorem checkSpawn_single (hsingle : Single s)
    (hfree : ∀ spawnId ∈ s.toServe table ans, spawnId ∉ s.chains) :
    Single (s.checkSpawn table ans) := by
  intro spawnId hid
  obtain ⟨hkeys, hchains, -, -⟩ := @checkSpawn_checked table ans s
  have hsplit := @putBack_count table ans s spawnId
  have hclean := cleanup_count (s := s) hid
  have hbefore := hsingle spawnId hid
  rw [hkeys, hchains, List.count_append, List.count_append]
  by_cases hserved : spawnId ∈ s.toServe table ans
  · have hone := List.nodup_iff_count_le_one.1 (@toServe_nodup table ans s) spawnId
    have hvacant : s.cleanup.keys.count spawnId = 0 := by
      refine List.count_eq_zero_of_not_mem fun hmem => ?_
      have hspawned := isSpawned_iff.2 hmem
      rw [cleanup_isSpawned hid, (toServe_subset hserved).2] at hspawned
      exact Bool.false_ne_true hspawned
    have hnone := List.count_eq_zero_of_not_mem (hfree spawnId hserved)
    omega
  · have hnone := List.count_eq_zero_of_not_mem hserved
    omega

theorem startSpawnCheck_count (spawnId : Nat) :
    (s.startSpawnCheck table).keys.count spawnId + (s.startSpawnCheck table).chains.count spawnId =
      s.keys.count spawnId + s.chains.count spawnId := by
  unfold State.startSpawnCheck
  split_ifs
  · have hchains := addEvent_chains (s := s) table.interval .checkSpawn
    rw [show Task.checkSpawn.scheduled.toList = [] from rfl, List.append_nil] at hchains
    rw [← hchains]
    rfl
  · rfl

theorem perform_single {event : Event} (possible : Possible s event)
    (meets : Unscheduled table s event) (h : Single s) : Single (perform table s event) := by
  cases event with
  | wait time => exact h
  | fire e ans =>
      obtain ⟨hmem, -⟩ := possible
      have hcount := without_chains hmem
      show Single (s.fire table ans e)
      cases htask : e.task with
      | checkSpawn =>
          rw [htask] at hcount
          rw [fire_checkSpawn htask]
          refine checkSpawn_single (fun spawnId hid => ?_) fun spawnId hserved hchain => ?_
          · have hbefore := h spawnId hid
            rw [hcount] at hbefore
            exact hbefore
          · have hnone := List.count_eq_zero_of_not_mem (meets htask spawnId hserved)
            have hsome := List.count_pos_iff.2 hchain
            have heq := hcount spawnId
            omega
      | scheduleSpawn spawnId interval =>
          rw [htask] at hcount
          rw [fire_scheduleSpawn htask]
          intro other hid
          have hbefore := h other hid
          rw [hcount] at hbefore
          refine (scheduleSpawn_count spawnId interval other).trans ?_
          rw [Nat.add_assoc]
          exact hbefore
  | die m =>
      show Single (s.die table m)
      unfold State.die
      intro spawnId hid
      dsimp only
      split_ifs
      · rw [startSpawnCheck_count]
        exact h spawnId hid
      · exact h spawnId hid
  | move m inZone => exact h
  | convince m =>
      show Single (s.removeMonster m)
      unfold State.removeMonster
      split_ifs
      · intro spawnId hid
        have hfewer : ((s.spawnedMap.eraseP fun entry => entry.2 == m).map Prod.fst).count
            spawnId ≤ s.keys.count spawnId :=
          (List.eraseP_sublist.map Prod.fst).count_le spawnId
        exact (Nat.add_le_add_right hfewer _).trans (h spawnId hid)
      · exact h

theorem run_single (run : Run table (Unscheduled table) s) : Single s := by
  induction run with
  | startup ans now => exact startup_single now
  | step event _ possible meets ih => exact perform_single possible meets ih

/-- The living monsters of an id. -/
def State.alive (s : State) (spawnId : Nat) : List (Nat × Nat) :=
  s.spawnedMap.filter fun entry => entry.1 == spawnId && !s.isRemoved entry.2

/-- **One monster an id.** In every run in which no check serves an id while a delayed step for it
is pending, each id has at most one living monster. -/
theorem one_monster_each (run : Run table (Unscheduled table) s) :
    ∀ spawnId ∈ table.spawnIds, (s.alive spawnId).length ≤ 1 := by
  intro spawnId hmem
  have hsingle := run_single run spawnId (ne_zero_of_mem_spawnIds hmem)
  have halive : (s.alive spawnId).length ≤ s.keys.count spawnId := by
    unfold State.alive State.keys
    rw [← List.countP_eq_length_filter, List.count, List.countP_map]
    refine List.countP_mono_left fun entry _ hentry => ?_
    exact (Bool.and_eq_true _ _ ▸ hentry).1
  omega

/-! ### The check to come -/

/-- `checkSpawnEvent` tells whether a check is pending, and there is never more than one. -/
def Armed (s : State) : Prop := s.checks = if s.checkSpawnEvent = 0 then 0 else 1

theorem startSpawnCheck_checks (h : Armed s) : (s.startSpawnCheck table).checks = 1 ∧
    (s.startSpawnCheck table).checkSpawnEvent ≠ 0 := by
  unfold State.startSpawnCheck
  split_ifs with hnone
  · refine ⟨?_, Nat.succ_ne_zero _⟩
    have hchecks := addEvent_checks (s := s) table.interval .checkSpawn
    rw [h, if_pos hnone, if_pos rfl] at hchecks
    exact hchecks
  · exact ⟨h.trans (if_neg hnone), hnone⟩

theorem startup_armed (now : Nat) : Armed (({ now := now } : State).startup table ans) := by
  obtain ⟨-, hpending, hcheck⟩ := @startup_fold ans table.spawnIds ({ now := now } : State)
  unfold Armed State.startup State.checks
  rw [hpending, hcheck]
  rfl

/-- A check that is run was the only one. -/
theorem without_checkSpawn (h : Armed s) {e : SchedulerTask} (hmem : e ∈ s.pending)
    (htask : e.task = .checkSpawn) : (s.without e).checks = 0 := by
  have hchecks := without_checks hmem
  rw [h, if_pos htask] at hchecks
  split_ifs at hchecks
  omega

theorem perform_armed {event : Event} (possible : Possible s event) (h : Armed s) :
    Armed (perform table s event) := by
  cases event with
  | wait time => exact h
  | fire e ans =>
      obtain ⟨hmem, -⟩ := possible
      show Armed (s.fire table ans e)
      cases htask : e.task with
      | checkSpawn =>
          obtain ⟨-, -, hchecks, harmed⟩ :=
            @checkSpawn_checked table ans (s.without e)
          rw [without_checkSpawn h hmem htask, Nat.zero_add] at hchecks
          rw [fire_checkSpawn htask]
          unfold Armed
          rw [hchecks]
          by_cases hfew : (s.without e).living.length + ((s.without e).putBack table ans).length <
              table.blocks.length
          · rw [if_pos hfew, if_neg (harmed.2 hfew)]
          · rw [if_neg hfew, if_pos (not_not.1 fun hne => hfew (harmed.1 hne))]
      | scheduleSpawn spawnId interval =>
          have hchecks := without_checks hmem
          rw [htask, if_neg (by simp), add_zero] at hchecks
          rw [fire_scheduleSpawn htask]
          unfold Armed
          rw [scheduleSpawn_checks, scheduleSpawn_checkSpawnEvent, ← hchecks]
          exact h
  | die m =>
      show Armed (s.die table m)
      unfold State.die
      dsimp only
      split_ifs
      · obtain ⟨hone, hne⟩ := @startSpawnCheck_checks table
          { s with isRemoved := Function.update s.isRemoved m true } h
        exact hone.trans (if_neg hne).symm
      · exact h
  | move m inZone => exact h
  | convince m =>
      show Armed (s.removeMonster m)
      unfold State.removeMonster
      split_ifs
      · exact h
      · exact h

theorem run_armed {allowed : State → Event → Prop} (run : Run table allowed s) : Armed s := by
  induction run with
  | startup ans now => exact startup_armed now
  | step event _ possible _ ih => exact perform_armed possible ih

/-- A check is to come. -/
def State.isChecked (s : State) : Prop := ∃ e ∈ s.pending, e.task = .checkSpawn

/-- Some id has no monster. -/
def State.hasVacancy (table : Table) (s : State) : Prop :=
  ∃ spawnId ∈ table.spawnIds, s.isSpawned spawnId = false

theorem isChecked_iff : s.isChecked ↔ 0 < s.checks := by
  unfold State.isChecked State.checks
  rw [List.countP_pos_iff]
  simp only [decide_eq_true_eq]

/-- After a check an id has a monster if it had one, or is put back. -/
theorem checkSpawn_isSpawned {spawnId : Nat} (hid : spawnId ≠ 0) :
    (s.checkSpawn table ans).isSpawned spawnId = false ↔
      s.held spawnId = false ∧ spawnId ∉ s.putBack table ans := by
  rw [Bool.eq_false_iff, Ne, isSpawned_iff, checkSpawn_checked.keys, List.mem_append,
    ← isSpawned_iff, cleanup_isSpawned hid, not_or, Bool.not_eq_true]

/-- **Vacancies are looked at again.** After a death a check is always to come. After a check, one
is to come if there is a vacancy, just when there are fewer living monsters than ids, with those in
the count that have left the zone, or no id is vacant. -/
theorem vacancy_checked_iff {allowed : State → Event → Prop} (run : Run table allowed s) :
    (∀ m, s.hasSpawn m = true → (perform table s (.die m)).isChecked) ∧
      ∀ e ans, e ∈ s.pending → e.task = .checkSpawn →
        (((perform table s (.fire e ans)).hasVacancy table →
            (perform table s (.fire e ans)).isChecked) ↔
          s.living.length + (s.putBack table ans).length < table.blocks.length ∨
            ∀ spawnId ∈ table.spawnIds,
              s.held spawnId = true ∨ spawnId ∈ s.putBack table ans) := by
  have harmed := run_armed run
  constructor
  · intro m hspawn
    show (s.die table m).isChecked
    unfold State.die
    rw [isChecked_iff, if_pos hspawn]
    obtain ⟨hone, -⟩ := @startSpawnCheck_checks table
      { s with isRemoved := Function.update s.isRemoved m true } harmed
    omega
  · intro e ans hmem htask
    have hchecks := (@checkSpawn_checked table ans (s.without e)).checks
    rw [without_checkSpawn harmed hmem htask, Nat.zero_add] at hchecks
    have hvacant : (s.fire table ans e).hasVacancy table ↔ ∃ spawnId ∈ table.spawnIds,
        s.held spawnId = false ∧ spawnId ∉ s.putBack table ans := by
      rw [fire_checkSpawn htask]
      refine exists_congr fun spawnId => and_congr_right fun hmem => ?_
      exact checkSpawn_isSpawned (ne_zero_of_mem_spawnIds hmem)
    have hchecked : (s.fire table ans e).isChecked ↔
        s.living.length + (s.putBack table ans).length < table.blocks.length := by
      rw [fire_checkSpawn htask, isChecked_iff, hchecks]
      show 0 < (if s.living.length + (s.putBack table ans).length < table.blocks.length then 1
        else 0) ↔ _
      split_ifs with hfew
      · exact iff_of_true Nat.one_pos hfew
      · exact iff_of_false (lt_irrefl 0) hfew
    show ((s.fire table ans e).hasVacancy table → (s.fire table ans e).isChecked) ↔ _
    rw [hvacant, hchecked, imp_iff_not_or, or_comm]
    refine or_congr_right ?_
    push Not
    refine forall_congr' fun spawnId => imp_congr_right fun _ => ?_
    rw [← Bool.not_eq_false, or_iff_not_imp_left, not_not]

/-! ### Spawns that take their time -/

/-- No task is left waiting. -/
def Punctual (s : State) : Event → Prop
  | .wait time => ∀ e ∈ s.pending, s.now + time ≤ e.cycle
  | _ => True

/-- The steps are on time, and come to their monster before the next check. -/
structure Paced (s : State) : Prop where
  onTime : ∀ e ∈ s.pending, s.now ≤ e.cycle
  steps : ∀ e ∈ s.pending, ∀ spawnId interval, e.task = .scheduleSpawn spawnId interval →
    NONBLOCKABLE_SPAWN_INTERVAL ∣ interval ∧
      e.cycle + interval ≤ s.now + 3 * NONBLOCKABLE_SPAWN_INTERVAL
  ahead : ∀ e ∈ s.pending, ∀ spawnId interval, e.task = .scheduleSpawn spawnId interval →
    ∀ c ∈ s.pending, c.task = .checkSpawn → e.cycle + interval < c.cycle

/-- What holds before the loop of a check and is kept by what it does to one id holds after it. -/
theorem checkLoop_keeps {Q : State → Prop}
    (hblocked : ∀ s spawnId, Q s →
      Q { s with lastSpawn := Function.update s.lastSpawn spawnId s.now })
    (hspawn : ∀ s spawnId, Q s → Q (s.spawnMonster ans spawnId))
    (hschedule : ∀ s spawnId, Q s → Q (s.addEvent 1400 (.scheduleSpawn spawnId 2800)))
    (spawnIds : List Nat) (spawnCount : Nat) (s : State) (h : Q s) :
    Q (s.checkLoop table ans spawnIds spawnCount) := by
  induction spawnIds generalizing spawnCount s with
  | nil => exact h
  | cons spawnId spawnIds ih =>
      unfold State.checkLoop
      dsimp only
      split_ifs
      · exact ih _ _ h
      · exact ih _ _ (hblocked s spawnId h)
      · exact hspawn s spawnId h
      · exact hschedule s spawnId h
      · exact ih _ _ (hspawn s spawnId h)
      · exact ih _ _ (hschedule s spawnId h)
      · exact ih _ _ h

theorem mem_addEvent {delay : Nat} {task : Task} {e : SchedulerTask} :
    e ∈ (s.addEvent delay task).pending ↔
      e ∈ s.pending ∨ e = ⟨s.lastEventId + 1, s.now + delay, task⟩ := by
  unfold State.addEvent
  rw [List.mem_append, List.mem_singleton]

/-- Another step is pending, that comes to its monster in time. -/
theorem Paced.addStep {spawnId interval delay : Nat} (h : Paced s)
    (hdvd : NONBLOCKABLE_SPAWN_INTERVAL ∣ interval)
    (hsteps : delay + interval ≤ 3 * NONBLOCKABLE_SPAWN_INTERVAL)
    (hahead : ∀ c ∈ s.pending, c.task = .checkSpawn → s.now + delay + interval < c.cycle) :
    Paced (s.addEvent delay (.scheduleSpawn spawnId interval)) := by
  refine ⟨fun e hmem => ?_, fun e hmem spawnId' interval' htask => ?_,
    fun e hmem spawnId' interval' htask c hc hcheck => ?_⟩
  · rcases mem_addEvent.1 hmem with hold | rfl
    · exact h.onTime e hold
    · exact Nat.le_add_right ..
  · rcases mem_addEvent.1 hmem with hold | rfl
    · exact h.steps e hold spawnId' interval' htask
    · cases htask
      refine ⟨hdvd, ?_⟩
      show s.now + delay + interval ≤ s.now + 3 * NONBLOCKABLE_SPAWN_INTERVAL
      omega
  · rcases mem_addEvent.1 hc with hc | rfl
    · rcases mem_addEvent.1 hmem with hold | rfl
      · exact h.ahead e hold spawnId' interval' htask c hc hcheck
      · cases htask
        exact hahead c hc hcheck
    · cases hcheck

/-- Another check is pending, later than all steps. -/
theorem Paced.addCheck (h : Paced s)
    (hslow : 3 * NONBLOCKABLE_SPAWN_INTERVAL < table.interval) :
    Paced (s.addEvent table.interval .checkSpawn) := by
  refine ⟨fun e hmem => ?_, fun e hmem spawnId' interval' htask => ?_,
    fun e hmem spawnId' interval' htask c hc hcheck => ?_⟩
  · rcases mem_addEvent.1 hmem with hold | rfl
    · exact h.onTime e hold
    · exact Nat.le_add_right ..
  · rcases mem_addEvent.1 hmem with hold | rfl
    · exact h.steps e hold spawnId' interval' htask
    · cases htask
  · rcases mem_addEvent.1 hmem with hold | rfl
    · rcases mem_addEvent.1 hc with hc | rfl
      · exact h.ahead e hold spawnId' interval' htask c hc hcheck
      · have hlast := (h.steps e hold spawnId' interval' htask).2
        show e.cycle + interval' < s.now + table.interval
        omega
    · cases htask

/-- Only the time and what is pending matter. -/
theorem Paced.congr (h : Paced s) (hnow : s'.now = s.now)
    (hsub : ∀ e ∈ s'.pending, e ∈ s.pending) : Paced s' := by
  refine ⟨fun e hmem => hnow ▸ h.onTime e (hsub e hmem), fun e hmem => ?_, fun e hmem => ?_⟩
  · rw [hnow]
    exact h.steps e (hsub e hmem)
  · exact fun spawnId interval htask c hc =>
      h.ahead e (hsub e hmem) spawnId interval htask c (hsub c hc)

theorem Paced.spawnMonster (h : Paced s) (spawnId : Nat) : Paced (s.spawnMonster ans spawnId) :=
  h.congr (spawnMonster_now spawnId) fun _ hmem => spawnMonster_pending spawnId ▸ hmem

theorem Paced.without (h : Paced s) (e : SchedulerTask) : Paced (s.without e) :=
  h.congr rfl fun _ hmem => List.mem_of_mem_erase hmem

/-- Without a check to come, a check adds its steps and the next check behind them. -/
theorem Paced.checkSpawn (h : Paced s) (hnone : ∀ c ∈ s.pending, c.task ≠ .checkSpawn)
    (hslow : 3 * NONBLOCKABLE_SPAWN_INTERVAL < table.interval) :
    Paced (s.checkSpawn table ans) := by
  have hloop : Paced (State.checkLoop table ans table.spawnIds 0
        ({ s with checkSpawnEvent := 0 } : State).cleanup) ∧
      ∀ c ∈ (State.checkLoop table ans table.spawnIds 0
        ({ s with checkSpawnEvent := 0 } : State).cleanup).pending, c.task ≠ .checkSpawn := by
    refine checkLoop_keeps (Q := fun s => Paced s ∧ ∀ c ∈ s.pending, c.task ≠ .checkSpawn)
      (fun s spawnId h => ⟨h.1.congr rfl fun _ hmem => hmem, h.2⟩)
      (fun s spawnId h => ⟨h.1.spawnMonster spawnId, ?_⟩)
      (fun s spawnId h => ⟨h.1.addStep ⟨2, rfl⟩ le_rfl fun c hc hcheck => absurd hcheck (h.2 c hc),
        fun c hc => ?_⟩) _ _ _ ⟨h.congr rfl fun _ hmem => hmem, hnone⟩
    · rw [spawnMonster_pending]
      exact h.2
    · rcases mem_addEvent.1 hc with hold | rfl
      · exact h.2 c hold
      · exact fun hcheck => by cases hcheck
  unfold State.checkSpawn
  dsimp only
  split_ifs
  · exact (hloop.1.addCheck hslow).congr rfl fun _ hmem => hmem
  · exact hloop.1

theorem perform_paced (hslow : 3 * NONBLOCKABLE_SPAWN_INTERVAL < table.interval) {event : Event}
    (possible : Possible s event) (meets : Punctual s event) (harmed : Armed s) (h : Paced s) :
    Paced (perform table s event) := by
  cases event with
  | wait time =>
      refine ⟨fun e hmem => meets e hmem, fun e hmem spawnId interval htask => ?_, h.ahead⟩
      obtain ⟨hdvd, hlast⟩ := h.steps e hmem spawnId interval htask
      refine ⟨hdvd, ?_⟩
      show e.cycle + interval ≤ s.now + time + 3 * NONBLOCKABLE_SPAWN_INTERVAL
      omega
  | fire e ans =>
      obtain ⟨hmem, htime⟩ := possible
      show Paced (s.fire table ans e)
      cases htask : e.task with
      | checkSpawn =>
          rw [fire_checkSpawn htask]
          refine (h.without e).checkSpawn (fun c hc hcheck => ?_) hslow
          -- a second check would be one too many
          have hchecks := without_checkSpawn harmed hmem htask
          have hpos := isChecked_iff.1 ⟨c, hc, hcheck⟩
          omega
      | scheduleSpawn spawnId interval =>
          rw [fire_scheduleSpawn htask]
          unfold State.scheduleSpawn
          obtain ⟨⟨times, hdvd⟩, hlast⟩ := h.steps e hmem spawnId interval htask
          have hcycle := h.onTime e hmem
          split_ifs with hzero
          · exact (h.without e).spawnMonster spawnId
          · have hmore : NONBLOCKABLE_SPAWN_INTERVAL ≤ interval :=
              Nat.le_of_dvd (Nat.pos_of_ne_zero hzero) ⟨times, hdvd⟩
            have hconst : NONBLOCKABLE_SPAWN_INTERVAL = 1400 := rfl
            refine (h.without e).addStep (Nat.dvd_sub ⟨times, hdvd⟩ (dvd_refl _)) (by omega)
              fun c hc hcheck => ?_
            have hahead := h.ahead e hmem spawnId interval htask c (List.mem_of_mem_erase hc) hcheck
            show s.now + 1400 + (interval - NONBLOCKABLE_SPAWN_INTERVAL) < c.cycle
            omega
  | die m =>
      show Paced (s.die table m)
      unfold State.die State.startSpawnCheck
      dsimp only
      split_ifs
      · exact ((h.congr rfl fun _ hmem => hmem :
          Paced { s with isRemoved := Function.update s.isRemoved m true }).addCheck hslow).congr
            rfl (List.Subset.refl _)
      · exact h.congr rfl fun _ hmem => hmem
      · exact h.congr rfl fun _ hmem => hmem
  | move m inZone => exact h.congr rfl fun _ hmem => hmem
  | convince m =>
      show Paced (s.removeMonster m)
      unfold State.removeMonster
      split_ifs
      · exact h.congr rfl fun _ hmem => hmem
      · exact h

theorem startup_paced (now : Nat) : Paced (({ now := now } : State).startup table ans) := by
  have hnone : (({ now := now } : State).startup table ans).pending = [] :=
    (startup_fold table.spawnIds _).2.1
  refine ⟨fun e hmem => ?_, fun e hmem => ?_, fun e hmem => ?_⟩
  all_goals
    rw [hnone] at hmem
    exact absurd hmem List.not_mem_nil

theorem run_paced (hslow : 3 * NONBLOCKABLE_SPAWN_INTERVAL < table.interval)
    (run : Run table Punctual s) : Paced s := by
  induction run with
  | startup ans now => exact startup_paced now
  | step event run possible meets ih =>
      exact perform_paced hslow possible meets (run_armed run) ih

/-- When a check is run the steps of the last one are over. -/
theorem paced_unscheduled {event : Event} (possible : Possible s event) (h : Paced s) :
    Unscheduled table s event := by
  cases event with
  | fire e ans =>
      intro hcheck spawnId _ hchain
      obtain ⟨hmem, htime⟩ := possible
      unfold State.chains at hchain
      obtain ⟨step, hstep, hscheduled⟩ := List.mem_filterMap.1 hchain
      cases htask : step.task with
      | checkSpawn =>
          rw [htask] at hscheduled
          cases hscheduled
      | scheduleSpawn other interval =>
          have hahead := h.ahead step hstep other interval htask e hmem hcheck
          have hontime := h.onTime step hstep
          omega
  | wait time => trivial
  | die m => trivial
  | move m inZone => trivial
  | convince m => trivial

/-- Where no monster comes back within 4.2 seconds and no task is late, no id is served twice. -/
theorem punctual_unscheduled (hslow : 3 * NONBLOCKABLE_SPAWN_INTERVAL < table.interval)
    (run : Run table Punctual s) : Run table (Unscheduled table) s := by
  induction run with
  | startup ans now => exact .startup ans now
  | step event run possible _ ih =>
      exact .step event ih possible (paced_unscheduled possible (run_paced hslow run))

/-! ### A run given by its events -/

def Along (table : Table) (allowed : State → Event → Prop) : State → List Event → Prop
  | _, [] => True
  | s, event :: events =>
      (Possible s event ∧ allowed s event) ∧ Along table allowed (perform table s event) events

instance (s : State) (event : Event) : Decidable (Possible s event) :=
  match event with
  | .fire e _ => inferInstanceAs (Decidable (e ∈ s.pending ∧ e.cycle ≤ s.now))
  | .die m => inferInstanceAs (Decidable (s.isRemoved m = false))
  | .wait _ | .move _ _ | .convince _ => isTrue trivial

instance (s : State) (event : Event) : Decidable (Unscheduled table s event) :=
  match event with
  | .fire e ans => inferInstanceAs (Decidable
      (e.task = .checkSpawn → ∀ spawnId ∈ s.toServe table ans, spawnId ∉ s.chains))
  | .wait _ | .die _ | .move _ _ | .convince _ => isTrue trivial

instance decidableAlong (table : Table) (allowed : State → Event → Prop)
    [∀ s event, Decidable (allowed s event)] (s : State) (events : List Event) :
    Decidable (Along table allowed s events) :=
  match events with
  | [] => isTrue trivial
  | event :: events =>
      have : Decidable (Along table allowed (perform table s event) events) :=
        decidableAlong table allowed (perform table s event) events
      inferInstanceAs (Decidable (_ ∧ _))

theorem Run.along {allowed : State → Event → Prop} {events : List Event}
    (run : Run table allowed s) (h : Along table allowed s events) :
    Run table allowed (events.foldl (perform table) s) := by
  induction events generalizing s with
  | nil => exact run
  | cons event events ih => exact ih (.step event run h.1.1 h.1.2) h.2

namespace Sample

/-- A spawn with one monster that is never blocked. -/
def alone : Table := ⟨[⟨false, 2000⟩], 1⟩

def opening (table : Table) : State := ({ now := 0 } : State).startup table {}

/-- The monster dies. It is put on its way four seconds later, and again after another two. -/
def overtaken : List Event :=
  [.die 0, .wait 2000, .fire ⟨1, 2000, .checkSpawn⟩ {},
    .wait 2000, .fire ⟨2, 4000, .checkSpawn⟩ {},
    .wait 1400, .fire ⟨3, 5400, .scheduleSpawn 1 2800⟩ {},
    .wait 600, .fire ⟨4, 6000, .checkSpawn⟩ {},
    .wait 800, .fire ⟨5, 6800, .scheduleSpawn 1 1400⟩ {},
    .wait 600, .fire ⟨6, 7400, .scheduleSpawn 1 2800⟩ {},
    .wait 600, .fire ⟨7, 8000, .checkSpawn⟩ {},
    .wait 200, .fire ⟨8, 8200, .scheduleSpawn 1 0⟩ {},
    .wait 600, .fire ⟨9, 8800, .scheduleSpawn 1 1400⟩ {},
    .wait 600, .fire ⟨10, 9400, .scheduleSpawn 1 2800⟩ {},
    .wait 600, .fire ⟨11, 10000, .checkSpawn⟩ {},
    .wait 200, .fire ⟨12, 10200, .scheduleSpawn 1 0⟩ {}]

theorem second_monster : ¬ ∀ (table : Table) (s : State), Run table (fun _ _ => True) s →
    ∀ spawnId ∈ table.spawnIds, (s.alive spawnId).length ≤ 1 := by
  intro h
  have hrun : Run alone (fun _ _ => True) (overtaken.foldl (perform alone) (opening alone)) :=
    (Run.startup {} 0).along (by decide +kernel)
  have htwo : ((overtaken.foldl (perform alone) (opening alone)).alive 1).length = 2 := by
    decide +kernel
  have hone := h alone _ hrun 1 (by decide)
  omega

/-- The same with a monster that comes back slowly enough. -/
def slow : Table := ⟨[⟨false, 5000⟩], 1⟩

def respawned : List Event :=
  [.die 0, .wait 5000, .fire ⟨1, 5000, .checkSpawn⟩ {},
    .wait 5000, .fire ⟨2, 10000, .checkSpawn⟩ {},
    .wait 1400, .fire ⟨3, 11400, .scheduleSpawn 1 2800⟩ {},
    .wait 1400, .fire ⟨5, 12800, .scheduleSpawn 1 1400⟩ {},
    .wait 1400, .fire ⟨6, 14200, .scheduleSpawn 1 0⟩ {},
    .wait 800, .fire ⟨4, 15000, .checkSpawn⟩ {}]

theorem back_once : ((respawned.foldl (perform slow) (opening slow)).alive 1).length ≤ 1 :=
  one_monster_each ((Run.startup {} 0).along (by decide +kernel)) 1 (by decide)

end Sample

namespace Sample

/-- Two monsters, one of which is slow to come back. -/
def pair : Table := ⟨[⟨true, 60000⟩, ⟨true, 2000⟩], 1⟩

/-- The first monster leaves the zone. The second one dies and is put back four seconds later. -/
def strayed : List Event :=
  [.move 0 false, .die 1, .wait 2000, .fire ⟨1, 2000, .checkSpawn⟩ {}, .wait 2000]

theorem strayed_run :
    Run pair (fun _ _ => True) (strayed.foldl (perform pair) (opening pair)) :=
  (Run.startup {} 0).along (by decide +kernel)

/-- Nobody looks at the first id again. -/
theorem forgotten : ¬ ∀ (table : Table) (s : State), Run table (fun _ _ => True) s →
    (∀ m, s.hasSpawn m = true → (perform table s (.die m)).isChecked) ∧
      ∀ e ans, e ∈ s.pending → e.task = .checkSpawn →
        (perform table s (.fire e ans)).hasVacancy table →
          (perform table s (.fire e ans)).isChecked := by
  intro h
  have hvacancy : (perform pair (strayed.foldl (perform pair) (opening pair))
      (.fire ⟨2, 4000, .checkSpawn⟩ {})).hasVacancy pair := by
    unfold State.hasVacancy
    decide +kernel
  have hnone : ¬ (perform pair (strayed.foldl (perform pair) (opening pair))
      (.fire ⟨2, 4000, .checkSpawn⟩ {})).isChecked := by
    unfold State.isChecked
    decide +kernel
  exact hnone ((h pair _ strayed_run).2 _ {} (by decide +kernel) rfl hvacancy)

theorem strayed_checked_iff :
    ((perform pair (strayed.foldl (perform pair) (opening pair))
        (.fire ⟨2, 4000, .checkSpawn⟩ {})).hasVacancy pair →
      (perform pair (strayed.foldl (perform pair) (opening pair))
        (.fire ⟨2, 4000, .checkSpawn⟩ {})).isChecked) ↔
      (strayed.foldl (perform pair) (opening pair)).living.length +
          ((strayed.foldl (perform pair) (opening pair)).putBack pair {}).length <
        pair.blocks.length ∨
        ∀ spawnId ∈ pair.spawnIds,
          (strayed.foldl (perform pair) (opening pair)).held spawnId = true ∨
            spawnId ∈ (strayed.foldl (perform pair) (opening pair)).putBack pair {} :=
  (vacancy_checked_iff strayed_run).2 _ {} (by decide +kernel) rfl

end Sample

end TibServer.Spawn
