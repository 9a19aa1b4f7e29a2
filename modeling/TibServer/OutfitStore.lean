import Mathlib.Tactic
import Mathlib.Data.List.Sort
import TibServer.Storage

/-!
Outfits that are saved and loaded again. A save writes the list into the storage map, under keys that
count up from the first of the range, and takes nothing out, so that what an earlier save of a longer
list wrote remains there, is stored with the rest and comes back with the next load. The list comes
back as it was just when no earlier save had a longer one and the range is long enough.
-/

namespace TibServer.Storage

variable {p : Player}

/-- The keys in the reserved range that are not the mounts'. -/
def isEntryKey (key : Nat) : Bool := isReserved key && !isMountKey key

theorem isInKeyRange_iff {key start size : Nat} :
    isInKeyRange key start size = true ↔ start ≤ key ∧ key ≤ start + size := by
  unfold isInKeyRange
  rw [Bool.and_eq_true, decide_eq_true_eq, decide_eq_true_eq]
  omega

theorem isOutfitKey_iff {key : Nat} :
    isOutfitKey key = true ↔ 10001000 ≤ key ∧ key ≤ 10001500 :=
  isInKeyRange_iff

theorem isEntryKey_iff {key : Nat} : isEntryKey key = true ↔
    (10000000 ≤ key ∧ key ≤ 20000000) ∧ ¬ (10002001 ≤ key ∧ key ≤ 10002011) := by
  unfold isEntryKey
  rw [Bool.and_eq_true, Bool.not_eq_true', ← Bool.not_eq_true]
  exact and_congr isInKeyRange_iff (not_congr isInKeyRange_iff)

theorem isEntryKey_of_isOutfitKey {key : Nat} (h : isOutfitKey key = true) :
    isEntryKey key = true := by
  rw [isOutfitKey_iff] at h
  rw [isEntryKey_iff]
  omega

theorem isReserved_of_isOutfitKey {key : Nat} (h : isOutfitKey key = true) :
    isReserved key = true :=
  ((Bool.and_eq_true _ _).mp (isEntryKey_of_isOutfitKey h)).1

/-! ### Values one by one -/

theorem setValue_outfits (key : Nat) (value : BitVec 32) :
    (p.setValue key value).outfits = p.outfits := by
  unfold Player.setValue
  split_ifs <;> rfl

theorem setValue_of_ne {key other : Nat} (h : key ≠ other) (value : BitVec 32) :
    (p.setValue key value).storageMap[other]? = p.storageMap[other]? := by
  have hne : ¬ compare key other = .eq := fun heq => h (Nat.compare_eq_eq.1 heq)
  unfold Player.setValue
  split_ifs
  · exact Std.TreeMap.getElem?_insert.trans (if_neg hne)
  · exact Std.TreeMap.getElem?_erase.trans (if_neg hne)

theorem addStorageValue_outfits (key : Nat) (value : BitVec 32) :
    (p.addStorageValue key value).outfits =
      p.outfits ++ if isOutfitKey key then [OutfitEntry.ofValue value] else [] := by
  unfold Player.addStorageValue
  cases houtfit : isOutfitKey key with
  | true =>
      rw [if_pos (isReserved_of_isOutfitKey houtfit)]
      rfl
  | false =>
      simp only [Bool.false_eq_true, if_false, List.append_nil]
      split_ifs
      · exact setValue_outfits key value
      · rfl
      · exact setValue_outfits key value

/-- No value that is added gets under a key of an outfit. -/
theorem addStorageValue_entry {key other : Nat} (hother : isEntryKey other = true)
    (value : BitVec 32) :
    (p.addStorageValue key value).storageMap[other]? = p.storageMap[other]? := by
  obtain ⟨hreserved, hmount⟩ := (Bool.and_eq_true _ _).mp hother
  unfold Player.addStorageValue
  split_ifs with hkey houtfit hmountKey
  · rfl
  · refine setValue_of_ne (fun heq => ?_) value
    rw [← heq, hmountKey] at hmount
    exact Bool.false_ne_true hmount
  · rfl
  · refine setValue_of_ne (fun heq => hkey ?_) value
    rw [heq]
    exact hreserved

/-- The outfits of a player that is loaded. -/
theorem load_outfits (rows : List (Nat × BitVec 32)) : (Player.load rows).outfits =
    (rows.filter fun row => isOutfitKey row.1).map fun row => OutfitEntry.ofValue row.2 := by
  have hfold (p : Player) :
      (rows.foldl (fun p row => p.addStorageValue row.1 row.2) p).outfits = p.outfits ++
        (rows.filter fun row => isOutfitKey row.1).map fun row => OutfitEntry.ofValue row.2 := by
    induction rows generalizing p with
    | nil => exact (List.append_nil _).symm
    | cons row rows ih =>
        rw [List.foldl_cons, ih, addStorageValue_outfits, List.filter_cons]
        split_ifs
        · rw [List.map_cons, List.append_assoc, List.singleton_append]
        · rw [List.append_nil]
  exact hfold {}

theorem load_entry (rows : List (Nat × BitVec 32)) {key : Nat} (h : isEntryKey key = true) :
    (Player.load rows).storageMap[key]? = none := by
  have hfold (p : Player) :
      (rows.foldl (fun p row => p.addStorageValue row.1 row.2) p).storageMap[key]? =
        p.storageMap[key]? := by
    induction rows generalizing p with
    | nil => rfl
    | cons row rows ih => exact (ih _).trans (addStorageValue_entry h row.2)
  exact (hfold {}).trans Std.TreeMap.getElem?_emptyc

/-! ### A save -/

/-- What the loop of a save leaves under a key. -/
theorem writeOutfits_getElem? (base_key : Nat) (outfits : List OutfitEntry)
    (storageMap : Std.TreeMap Nat (BitVec 32)) (key : Nat) :
    (Player.writeOutfits base_key outfits storageMap)[key]? =
      ((if base_key < key then outfits[key - base_key - 1]?.map OutfitEntry.toValue else none).or
        storageMap[key]?) := by
  induction outfits generalizing base_key storageMap with
  | nil => simp [Player.writeOutfits]
  | cons entry outfits ih =>
      rw [Player.writeOutfits, ih, Std.TreeMap.getElem?_insert]
      rcases Nat.lt_trichotomy key (base_key + 1) with hlt | rfl | hgt
      · have hnot : ¬ base_key < key := by omega
        have hnext : ¬ base_key + 1 < key := by omega
        have hne : ¬ compare (base_key + 1) key = .eq :=
          fun heq => by rw [Nat.compare_eq_eq.1 heq] at hlt; exact lt_irrefl _ hlt
        rw [if_neg hnot, if_neg hnext, if_neg hne]
      · rw [if_neg (lt_irrefl _), if_pos (Nat.compare_eq_eq.2 rfl), if_pos (Nat.lt_succ_self _),
          show base_key + 1 - base_key - 1 = 0 by omega]
        rfl
      · have hnot : base_key < key := by omega
        have hne : ¬ compare (base_key + 1) key = .eq :=
          fun heq => by rw [Nat.compare_eq_eq.1 heq] at hgt; exact lt_irrefl _ hgt
        rw [if_pos hnot, if_pos hgt, if_neg hne,
          show key - base_key - 1 = key - (base_key + 1) - 1 + 1 by omega]
        rfl

theorem save_getElem? (key : Nat) : p.genReservedStorageRange.storageMap[key]? =
    ((if PSTRG_OUTFITS_RANGE_START < key then
        p.outfits[key - PSTRG_OUTFITS_RANGE_START - 1]?.map OutfitEntry.toValue
      else none).or p.storageMap[key]?) :=
  writeOutfits_getElem? ..

theorem rows_sorted : p.rows.Pairwise fun row row' => row.1 < row'.1 :=
  Std.TreeMap.ordered_keys_toList.imp Nat.compare_eq_lt.1

theorem mem_rows {key : Nat} {value : BitVec 32} :
    (key, value) ∈ p.rows ↔ p.storageMap[key]? = some value :=
  Std.TreeMap.mem_toList_iff_getElem?_eq_some

instance rowIrrefl : Std.Irrefl fun row row' : Nat × BitVec 32 => row.1 < row'.1 :=
  ⟨fun row => lt_irrefl row.1⟩

instance rowAntisymm : Std.Antisymm fun row row' : Nat × BitVec 32 => row.1 < row'.1 :=
  ⟨fun _ _ h h' => absurd h (lt_asymm h')⟩

/-- What earlier saves left under the keys of outfits beyond those of the list. -/
def Player.leftOver (p : Player) : List (Nat × BitVec 32) :=
  p.rows.filter fun row =>
    isOutfitKey row.1 && decide (PSTRG_OUTFITS_RANGE_START + p.outfits.length < row.1)

/-- What is under the keys of outfits after a save: as many of the outfits as there are keys, and
what is left over. -/
theorem save_rows (hfirst : p.storageMap[PSTRG_OUTFITS_RANGE_START]? = none) :
    (p.genReservedStorageRange.rows.filter fun row => isOutfitKey row.1) =
      ((p.outfits.take PSTRG_OUTFITS_RANGE_SIZE).mapIdx fun i entry =>
        (PSTRG_OUTFITS_RANGE_START + 1 + i, entry.toValue)) ++ p.leftOver := by
  have hstart : PSTRG_OUTFITS_RANGE_START = 10001000 := rfl
  have hsize : PSTRG_OUTFITS_RANGE_SIZE = 500 := rfl
  refine List.Pairwise.eq_of_mem_iff (rows_sorted.filter _) (List.pairwise_append.2 ⟨?_, ?_, ?_⟩)
    fun row => ?_
  · -- the written keys count up
    rw [List.pairwise_iff_getElem]
    intro i j _ _ hlt
    rw [List.getElem_mapIdx, List.getElem_mapIdx]
    exact Nat.add_lt_add_left hlt _
  · exact rows_sorted.filter _
  · intro row hrow row' hrow'
    obtain ⟨i, hi, rfl⟩ := List.mem_mapIdx.1 hrow
    obtain ⟨-, hkey⟩ := List.mem_filter.1 hrow'
    rw [Bool.and_eq_true, decide_eq_true_eq] at hkey
    rw [List.length_take] at hi
    show PSTRG_OUTFITS_RANGE_START + 1 + i < row'.1
    omega
  · obtain ⟨key, value⟩ := row
    rw [List.mem_filter, mem_rows, save_getElem?, List.mem_append, List.mem_mapIdx, Player.leftOver,
      List.mem_filter, mem_rows, Bool.and_eq_true, decide_eq_true_eq, isOutfitKey_iff]
    dsimp only
    by_cases hwritten : PSTRG_OUTFITS_RANGE_START < key ∧
        key - PSTRG_OUTFITS_RANGE_START - 1 < p.outfits.length
    · obtain ⟨hlt, hindex⟩ := hwritten
      rw [if_pos hlt, List.getElem?_eq_getElem hindex, Option.map_some, Option.some_or]
      constructor
      · rintro ⟨hvalue, -, hkey⟩
        refine Or.inl ⟨key - PSTRG_OUTFITS_RANGE_START - 1, by rw [List.length_take]; omega, ?_⟩
        rw [List.getElem_take, Prod.mk.injEq]
        exact ⟨by omega, Option.some.inj hvalue⟩
      · rintro (⟨i, hi, heq⟩ | ⟨-, -, hbeyond⟩)
        · rw [List.length_take] at hi
          rw [List.getElem_take, Prod.mk.injEq] at heq
          obtain ⟨rfl, rfl⟩ := heq
          have hback : PSTRG_OUTFITS_RANGE_START + 1 + i - PSTRG_OUTFITS_RANGE_START - 1 = i := by
            omega
          refine ⟨?_, by omega, by omega⟩
          simp only [hback]
        · omega
    · have hnone : (if PSTRG_OUTFITS_RANGE_START < key then
          p.outfits[key - PSTRG_OUTFITS_RANGE_START - 1]?.map OutfitEntry.toValue else none) =
          none := by
        split_ifs with hlt
        · rw [List.getElem?_eq_none (by omega), Option.map_none]
        · rfl
      rw [hnone, Option.none_or]
      constructor
      · rintro ⟨hvalue, hlow, hhigh⟩
        refine Or.inr ⟨hvalue, ⟨hlow, hhigh⟩, ?_⟩
        have hne : key ≠ PSTRG_OUTFITS_RANGE_START := by
          rintro rfl
          rw [hfirst] at hvalue
          cases hvalue
        omega
      · rintro (⟨i, hi, heq⟩ | ⟨hvalue, hkey, -⟩)
        · rw [List.length_take] at hi
          rw [Prod.mk.injEq] at heq
          omega
        · exact ⟨hvalue, hkey⟩

/-- A save, and a load of what it stored. -/
def Player.reload (p : Player) : Player := Player.load p.genReservedStorageRange.rows

theorem reload_outfits (hfirst : p.storageMap[PSTRG_OUTFITS_RANGE_START]? = none) :
    p.reload.outfits = p.outfits.take PSTRG_OUTFITS_RANGE_SIZE ++
      p.leftOver.map fun row => OutfitEntry.ofValue row.2 := by
  unfold Player.reload
  rw [load_outfits, save_rows hfirst, List.map_append]
  congr 1
  refine List.ext_getElem ((List.length_map _).trans List.length_mapIdx) fun i hi hi' => ?_
  rw [List.getElem_map, List.getElem_mapIdx]
  exact OutfitEntry.ofValue_toValue _

/-! ### Runs -/

/-- How long the list was at each save. -/
def savedLengths (p : Player) : List Event → List Nat
  | [] => []
  | .save :: events => p.outfits.length :: savedLengths (perform p .save) events
  | event :: events => savedLengths (perform p event) events

/-- The keys that saves of lists of these lengths have written, and no others. -/
def Written (p : Player) (lengths : List Nat) : Prop :=
  ∀ key, isEntryKey key = true →
    (p.storageMap[key]?.isSome = true ↔ PSTRG_OUTFITS_RANGE_START < key ∧
      ∃ length ∈ lengths, key ≤ PSTRG_OUTFITS_RANGE_START + length)

theorem load_written (rows : List (Nat × BitVec 32)) : Written (Player.load rows) [] := by
  intro key hkey
  rw [load_entry rows hkey]
  exact iff_of_false Bool.false_ne_true fun ⟨_, _, hmem, _⟩ => List.not_mem_nil hmem

theorem Written.save {lengths : List Nat} (h : Written p lengths) :
    Written p.genReservedStorageRange (lengths ++ [p.outfits.length]) := by
  intro key hkey
  have hbefore := h key hkey
  rw [save_getElem?, Option.isSome_or, Bool.or_eq_true, hbefore]
  have hnow : (if PSTRG_OUTFITS_RANGE_START < key then
      p.outfits[key - PSTRG_OUTFITS_RANGE_START - 1]?.map OutfitEntry.toValue else none).isSome =
        true ↔
      PSTRG_OUTFITS_RANGE_START < key ∧ key ≤ PSTRG_OUTFITS_RANGE_START + p.outfits.length := by
    split_ifs with hlt
    · rw [Option.isSome_map, Option.isSome_iff_ne_none, Ne, List.getElem?_eq_none_iff]
      omega
    · exact iff_of_false Bool.false_ne_true fun hand => hlt hand.1
  rw [hnow, ← and_or_left]
  refine and_congr_right fun _ => ⟨?_, ?_⟩
  · rintro (hlast | ⟨length, hmem, hle⟩)
    · exact ⟨_, List.mem_append_right _ (List.mem_singleton_self _), hlast⟩
    · exact ⟨length, List.mem_append_left _ hmem, hle⟩
  · rintro ⟨length, hmem, hle⟩
    rcases List.mem_append.1 hmem with hold | hlast
    · exact Or.inr ⟨length, hold, hle⟩
    · rw [List.mem_singleton] at hlast
      exact Or.inl (hlast ▸ hle)

/-- Whatever else happens leaves the keys of outfits alone. -/
theorem perform_entry {event : Event} (hsave : event ≠ .save) {key : Nat}
    (hkey : isEntryKey key = true) :
    (perform p event).storageMap[key]? = p.storageMap[key]? := by
  cases event with
  | addOutfit lookType addons => rfl
  | removeOutfit lookType => rfl
  | removeOutfitAddon lookType addons => rfl
  | setStorageValue other value =>
      unfold perform
      dsimp only
      split_ifs
      · rfl
      · exact addStorageValue_entry hkey value
  | setMountValue other value =>
      unfold perform
      dsimp only
      split_ifs
      · exact addStorageValue_entry hkey value
      · rfl
  | save => exact absurd rfl hsave

theorem run_written {lengths : List Nat} (events : List Event) (h : Written p lengths) :
    Written (events.foldl perform p) (lengths ++ savedLengths p events) := by
  induction events generalizing p lengths with
  | nil =>
      rw [savedLengths, List.append_nil]
      exact h
  | cons event events ih =>
      by_cases hsave : event = .save
      · subst hsave
        have hlater := ih h.save
        rw [List.append_assoc] at hlater
        exact hlater
      · have hlengths : savedLengths p (event :: events) = savedLengths (perform p event) events := by
          cases event with
          | save => exact absurd rfl hsave
          | _ => rfl
        rw [hlengths]
        refine ih fun key hkey => ?_
        rw [perform_entry hsave hkey]
        exact h key hkey

/-- What a save stores for the outfits: all that is reserved and not for the mounts. -/
def Player.outfitRows (p : Player) : List (Nat × BitVec 32) :=
  p.genReservedStorageRange.rows.filter fun row => isEntryKey row.1

/-- The stored entries have the keys from the first on, up to the greatest length of a save. -/
theorem outfitRows_keys {lengths : List Nat} (h : Written p lengths) {key : Nat}
    (hkey : isEntryKey key = true) :
    key ∈ p.outfitRows.map Prod.fst ↔ PSTRG_OUTFITS_RANGE_START < key ∧
      ∃ length ∈ lengths ++ [p.outfits.length], key ≤ PSTRG_OUTFITS_RANGE_START + length := by
  rw [← h.save key hkey, List.mem_map]
  constructor
  · rintro ⟨⟨_, value⟩, hrow, rfl⟩
    rw [mem_rows.1 (List.mem_filter.1 hrow).1]
    rfl
  · intro hsome
    obtain ⟨value, hvalue⟩ := Option.isSome_iff_exists.1 hsome
    exact ⟨(key, value), List.mem_filter.2 ⟨mem_rows.2 hvalue, hkey⟩, rfl⟩

theorem outfitRows_nodup : (p.outfitRows.map Prod.fst).Nodup := by
  refine (List.pairwise_map.2 ((rows_sorted.filter _).imp ?_))
  exact fun hlt => Nat.ne_of_lt hlt

/-- As many entries are stored as there are keys just when no list was longer. -/
theorem outfitRows_length {lengths : List Nat} (h : Written p lengths) :
    p.outfitRows.length ≤ PSTRG_OUTFITS_RANGE_SIZE ↔
      p.outfits.length ≤ PSTRG_OUTFITS_RANGE_SIZE ∧
        ∀ length ∈ lengths, length ≤ PSTRG_OUTFITS_RANGE_SIZE := by
  have hstart : PSTRG_OUTFITS_RANGE_START = 10001000 := rfl
  have hsize : PSTRG_OUTFITS_RANGE_SIZE = 500 := rfl
  have hboth : (p.outfits.length ≤ PSTRG_OUTFITS_RANGE_SIZE ∧
      ∀ length ∈ lengths, length ≤ PSTRG_OUTFITS_RANGE_SIZE) ↔
      ∀ length ∈ lengths ++ [p.outfits.length], length ≤ PSTRG_OUTFITS_RANGE_SIZE := by
    rw [List.forall_mem_append, List.forall_mem_singleton, and_comm]
  rw [hboth, ← List.length_map (f := Prod.fst)]
  constructor
  · -- the keys up to a length past the range would all be there
    intro hfew length hmem
    by_contra hlong
    have hsub : List.range' (PSTRG_OUTFITS_RANGE_START + 1) (PSTRG_OUTFITS_RANGE_SIZE + 1) ⊆
        p.outfitRows.map Prod.fst := by
      intro key hkey
      rw [List.mem_range'_1] at hkey
      have hentry : isEntryKey key = true := by
        rw [isEntryKey_iff]
        omega
      exact (outfitRows_keys h hentry).2 ⟨by omega, length, hmem, by omega⟩
    have hmany := (List.subperm_of_subset List.nodup_range' hsub).length_le
    rw [List.length_range'] at hmany
    omega
  · intro hshort
    have hsub : p.outfitRows.map Prod.fst ⊆
        List.range' (PSTRG_OUTFITS_RANGE_START + 1) PSTRG_OUTFITS_RANGE_SIZE := by
      intro key hkey
      have hentry : isEntryKey key = true := by
        obtain ⟨row, hrow, rfl⟩ := List.mem_map.1 hkey
        exact (List.mem_filter.1 hrow).2
      obtain ⟨hlow, length, hmem, hle⟩ := (outfitRows_keys h hentry).1 hkey
      have hlength := hshort length hmem
      rw [List.mem_range'_1]
      omega
    have hmany := (List.subperm_of_subset outfitRows_nodup hsub).length_le
    rwa [List.length_range'] at hmany

/-- **Outfits come back.** At any time after a player is loaded, a save and a load would give the
list as it is, out of no more entries than are reserved, just when the list fits into the range and
no save since the load had a longer one. -/
theorem outfits_reload_iff (rows : List (Nat × BitVec 32)) (events : List Event) :
    ((events.foldl perform (Player.load rows)).reload.outfits =
          (events.foldl perform (Player.load rows)).outfits ∧
        (events.foldl perform (Player.load rows)).outfitRows.length ≤ PSTRG_OUTFITS_RANGE_SIZE) ↔
      (events.foldl perform (Player.load rows)).outfits.length ≤ PSTRG_OUTFITS_RANGE_SIZE ∧
        ∀ length ∈ savedLengths (Player.load rows) events,
          length ≤ (events.foldl perform (Player.load rows)).outfits.length := by
  have hwritten := run_written events (load_written rows)
  rw [List.nil_append] at hwritten
  revert hwritten
  generalize savedLengths (Player.load rows) events = lengths
  generalize events.foldl perform (Player.load rows) = p
  intro hwritten
  have hstart : PSTRG_OUTFITS_RANGE_START = 10001000 := rfl
  have hsize : PSTRG_OUTFITS_RANGE_SIZE = 500 := rfl
  have hentry {key : Nat} (hkey : 10001000 ≤ key ∧ key ≤ 10001500) : isEntryKey key = true :=
    isEntryKey_of_isOutfitKey (isOutfitKey_iff.2 hkey)
  have hfirst : p.storageMap[PSTRG_OUTFITS_RANGE_START]? = none := by
    rw [← Option.not_isSome_iff_eq_none, hwritten _ (hentry (by omega))]
    exact fun hand => lt_irrefl _ hand.1
  rw [reload_outfits hfirst, outfitRows_length hwritten]
  constructor
  · rintro ⟨hsame, hfits, hshort⟩
    refine ⟨hfits, fun length hmem => ?_⟩
    rw [List.take_of_length_le hfits, List.append_right_eq_self, List.map_eq_nil_iff] at hsame
    by_contra hlong
    -- the last key of a longer list is left over
    have hkey : 10001000 ≤ PSTRG_OUTFITS_RANGE_START + length ∧
        PSTRG_OUTFITS_RANGE_START + length ≤ 10001500 := by
      have hle := hshort length hmem
      omega
    have hsome := (hwritten _ (hentry hkey)).2 ⟨by omega, length, hmem, le_rfl⟩
    obtain ⟨value, hvalue⟩ := Option.isSome_iff_exists.1 hsome
    have hleft : (PSTRG_OUTFITS_RANGE_START + length, value) ∈ p.leftOver := by
      refine List.mem_filter.2 ⟨mem_rows.2 hvalue, ?_⟩
      rw [Bool.and_eq_true, decide_eq_true_eq, isOutfitKey_iff]
      exact ⟨hkey, by omega⟩
    rw [hsame] at hleft
    exact List.not_mem_nil hleft
  · rintro ⟨hfits, hshort⟩
    have hnone : p.leftOver = [] := by
      refine List.filter_eq_nil_iff.2 fun row hrow hkey => ?_
      rw [Bool.and_eq_true, decide_eq_true_eq, isOutfitKey_iff] at hkey
      have hsome : p.storageMap[row.1]?.isSome = true := by
        rw [mem_rows.1 hrow]
        rfl
      obtain ⟨-, length, hmem, hle⟩ := (hwritten _ (hentry hkey.1)).1 hsome
      have hlength := hshort length hmem
      omega
    rw [hnone, List.take_of_length_le hfits]
    exact ⟨List.append_nil _, hfits, fun length hmem => (hshort length hmem).trans hfits⟩

namespace Sample

/-- A player with two outfits is saved, and one of them is taken away. -/
def takenAway : List Event :=
  [.addOutfit 128 0, .addOutfit 129 3, .save, .removeOutfit 129]

theorem outfit_returns : ¬ ∀ (rows : List (Nat × BitVec 32)) (events : List Event),
    (events.foldl perform (Player.load rows)).reload.outfits =
        (events.foldl perform (Player.load rows)).outfits ∧
      (events.foldl perform (Player.load rows)).outfitRows.length ≤
        PSTRG_OUTFITS_RANGE_SIZE := by
  intro h
  have hsame := (h [] takenAway).1
  have hreload : (takenAway.foldl perform (Player.load [])).reload.outfits =
      [⟨128, 0⟩, ⟨129, 3⟩] := by
    decide +kernel
  have houtfits : (takenAway.foldl perform (Player.load [])).outfits = [⟨128, 0⟩] := by
    decide +kernel
  rw [hreload, houtfits] at hsame
  exact absurd hsame (by decide)

end Sample

end TibServer.Storage
