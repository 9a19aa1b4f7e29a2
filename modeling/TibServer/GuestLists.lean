import TibServer.AccessRules

/-!
When `isInList` answers by the rules of the text. The lists that `parseList` fills answer by
the lines that were not passed over, and by `.` for a wildcard, which stops at the end of a
line; the answer is that of the rules unless a line that is passed over decides it.
-/

namespace TibServer

open Patterns StoreOffers

/-! ### Small letters -/

theorem toLower_toNat (c : Char) :
    c.toLower.toNat = if 65 ≤ c.toNat ∧ c.toNat ≤ 90 then c.toNat + 32 else c.toNat := by
  have bounds : (c.val ≥ 'A'.val ∧ c.val ≤ 'Z'.val) ↔ 65 ≤ c.toNat ∧ c.toNat ≤ 90 := by
    simp only [ge_iff_le, UInt32.le_iff_toNat_le]
    exact Iff.rfl
  unfold Char.toLower
  by_cases h : 65 ≤ c.toNat ∧ c.toNat ≤ 90
  · rw [dif_pos (bounds.mpr h), if_pos h]
    change (c.val + ('a'.val - 'A'.val)).toNat = c.toNat + 32
    rw [UInt32.toNat_add]
    change (c.toNat + 32) % 4294967296 = c.toNat + 32
    omega
  · rw [dif_neg (fun h' => h (bounds.mp h')), if_neg h]

theorem char_ext {a b : Char} (h : a.toNat = b.toNat) : a = b :=
  Char.ext (UInt32.toNat_inj.mp h)

@[simp] theorem toLower_toLower (c : Char) : c.toLower.toLower = c.toLower := by
  apply char_ext
  rw [toLower_toNat, toLower_toNat]
  split_ifs <;> omega

theorem toLower_eq_nul {c : Char} (h : c.toLower = '\x00') : c = '\x00' := by
  apply char_ext
  have val := toLower_toNat c
  rw [h] at val
  change 0 = _ at val
  change c.toNat = 0
  split_ifs at val
  omega

@[simp] theorem toLowerCaseString_twice (s : List Char) :
    toLowerCaseString (toLowerCaseString s) = toLowerCaseString s := by
  simp [toLowerCaseString]

theorem c_str_eq {s : List Char} (h : '\x00' ∉ s) : AccessList.c_str s = s := by
  unfold AccessList.c_str
  rw [List.takeWhile_eq_self_iff]
  intro c hc
  simp only [bne_iff_ne]
  rintro rfl
  exact h hc

/-! ### Names and ids -/

/-- A row is found by its name, whatever the case. -/
theorem Registry.idByName_iff (r : Registry) {id : Nat} {name : List Char}
    (mem : (id, name) ∈ r.rows) (s : List Char) :
    r.idByName s = id ↔ toLowerCaseString s = toLowerCaseString name := by
  unfold Registry.idByName
  cases found : r.rows.find? fun row => toLowerCaseString row.2 == toLowerCaseString s with
  | none =>
      have none := List.find?_eq_none.mp found (id, name) mem
      refine ⟨fun eq => absurd eq.symm (r.positive _ mem), fun eq => ?_⟩
      exact absurd (by simpa using eq.symm) none
  | some row =>
      have row_mem := List.mem_of_find?_eq_some found
      have row_name : toLowerCaseString row.2 = toLowerCaseString s := by
        simpa using List.find?_some found
      constructor
      · intro eq
        have same := List.inj_on_of_nodup_map r.ids row_mem mem eq
        rw [← row_name, same]
      · intro eq
        rw [List.inj_on_of_nodup_map r.names row_mem mem (row_name.trans eq)]

namespace AccessList

open Regex

variable {d : Directory} {player : Player}

/-- The name of a player resolves to the player, online or not. -/
theorem resolves_iff (mem : (player.guid, player.name) ∈ d.players.rows) {line : List Char}
    (ne : line ≠ []) :
    Resolves d line player.guid ↔ toLowerCaseString line = toLowerCaseString player.name := by
  unfold Resolves Directory.getPlayerByName
  rw [if_neg ne]
  cases found : d.online.find? fun row => toLowerCaseString row.2 == toLowerCaseString line with
  | none =>
      have pos : player.guid ≠ 0 := d.players.positive _ mem
      simp [d.players.idByName_iff mem, pos]
  | some row =>
      have row_mem := d.known row (List.mem_of_find?_eq_some found)
      have row_name : toLowerCaseString row.2 = toLowerCaseString line := by
        simpa using List.find?_some found
      simp only [Option.map_some, Option.some.injEq, reduceCtorEq, false_and, or_false]
      constructor
      · intro eq
        have same := List.inj_on_of_nodup_map d.players.ids row_mem mem eq
        rw [← row_name, same]
      · intro eq
        rw [List.inj_on_of_nodup_map d.players.names row_mem mem (row_name.trans eq)]

theorem mem_lines {text line : List Char} (h : line ∈ lines text) :
    line ≠ [] ∧ toLowerCaseString line = line := by
  obtain ⟨raw, mem, rfl⟩ := List.mem_map.mp h
  have read : Read raw := by simpa using (List.mem_filter.mp mem).2
  refine ⟨?_, by simp⟩
  intro none
  exact read (Or.inl (List.map_eq_nil_iff.mp none))

theorem nameOf_iff (mem : (player.guid, player.name) ∈ d.players.rows) {text line : List Char}
    (h : line ∈ lines text) : NameOf d line player.guid ↔ AdmitsName line player := by
  obtain ⟨ne, small⟩ := mem_lines h
  unfold NameOf AdmitsName
  rw [resolves_iff mem ne, small]

/-! ### What the list answers -/

theorem regex_match_name (player : Player) (re : List (Piece Atom)) :
    regex_match (c_str (toLowerCaseString player.name)) re = true ↔
      toLowerCaseString player.name ∈ language Regex.holds re := by
  have terminated : '\x00' ∉ toLowerCaseString player.name := by
    intro h
    obtain ⟨c, hc, eq⟩ := List.mem_map.mp h
    exact player.terminated (toLower_eq_nul eq ▸ hc)
  rw [c_str_eq terminated, regex_match, accepts_iff_mem_language]

/-- The answer of the list is that of the lines that came into it. -/
theorem isInList_eq (l : AccessList) (player : Player) : l.isInList player =
    ((l.regExList.find? fun it =>
        regex_match (c_str (toLowerCaseString player.name)) it.1).elim
      (l.playerList.contains player.guid || player.guild.any l.guildList.contains) Prod.snd) := by
  unfold AccessList.isInList
  simp only
  split
  · rename_i it found
    rw [found, Option.elim_some]
  · rename_i found
    rw [found, Option.elim_none]
    cases player.guild with
    | none => rfl
    | some guild => rfl

theorem Parsed.isInList {ls : List (List Char)} {l : AccessList} (h : Parsed d ls l)
    (names : ∀ line ∈ ls, NameOf d line player.guid ↔ AdmitsName line player) :
    l.isInList player = true ↔ Invited Regex.holds d ls player := by
  obtain ⟨denials, patterns, eq, hd, hp⟩ := h.ordered.split
  have denied : (∃ re ∈ denials, toLowerCaseString player.name ∈ language Regex.holds re) ↔
      DeniedBy Regex.holds ls player := by
    constructor
    · rintro ⟨re, mem, name⟩
      obtain ⟨line, hl, plain, pattern, ne, rfl, rfl⟩ := (hd re).mp mem
      exact ⟨_, hl, plain, pattern, ne, rfl, name⟩
    · rintro ⟨line, hl, plain, pattern, ne, rfl, name⟩
      exact ⟨pieces pattern, (hd _).mpr ⟨_, hl, plain, pattern, ne, rfl, rfl⟩, name⟩
  have matched : (∃ re ∈ patterns, toLowerCaseString player.name ∈ language Regex.holds re) ↔
      ∃ line ∈ ls, AdmitsPattern Regex.holds line player := by
    constructor
    · rintro ⟨re, mem, name⟩
      obtain ⟨line, hl, plain, expression, head, rfl⟩ := (hp re).mp mem
      exact ⟨line, hl, plain, expression, head, name⟩
    · rintro ⟨line, hl, plain, expression, head, name⟩
      exact ⟨pieces line, (hp _).mpr ⟨line, hl, plain, expression, head, rfl⟩, name⟩
  have named : l.playerList.contains player.guid = true ↔
      ∃ line ∈ ls, AdmitsName line player := by
    rw [List.contains_iff_mem, h.names]
    constructor
    · rintro ⟨line, hl, of⟩
      exact ⟨line, hl, (names line hl).mp of⟩
    · rintro ⟨line, hl, admits⟩
      exact ⟨line, hl, (names line hl).mpr admits⟩
  have member : player.guild.any l.guildList.contains = true ↔
      ∃ line ∈ ls, AdmitsGuild d line player := by
    cases guild : player.guild with
    | none => simp [AdmitsGuild, guild]
    | some g =>
        simp only [Option.any_some, List.contains_iff_mem, h.guilds]
        constructor
        · rintro ⟨line, hl, at_pos, ne, id⟩
          exact ⟨line, hl, at_pos, g, guild, ne, id⟩
        · rintro ⟨line, hl, at_pos, g', eq', ne, id⟩
          obtain rfl := Option.some.inj (guild.symm.trans eq')
          exact ⟨line, hl, at_pos, ne, id⟩
  have admitted : AdmittedBy Regex.holds d ls player ↔
      (∃ line ∈ ls, AdmitsGuild d line player) ∨ (∃ line ∈ ls, AdmitsName line player) ∨
        ∃ line ∈ ls, AdmitsPattern Regex.holds line player := by
    simp only [AdmittedBy, Admits, and_or_left, exists_or]
  rw [isInList_eq]
  unfold Invited
  rw [admitted, ← denied, ← matched, ← named, ← member, eq]
  cases found : ((denials.map fun re => (re, false)) ++ patterns.map fun re => (re, true)).find?
      fun it => regex_match (c_str (toLowerCaseString player.name)) it.1 with
  | none =>
      rw [Option.elim_none]
      have none := List.find?_eq_none.mp found
      have no_denial : ¬∃ re ∈ denials,
          toLowerCaseString player.name ∈ language Regex.holds re := by
        rintro ⟨re, mem, name⟩
        exact none (re, false) (List.mem_append_left _ (List.mem_map_of_mem mem))
          ((regex_match_name player re).mpr name)
      have no_pattern : ¬∃ re ∈ patterns,
          toLowerCaseString player.name ∈ language Regex.holds re := by
        rintro ⟨re, mem, name⟩
        exact none (re, true) (List.mem_append_right _ (List.mem_map_of_mem mem))
          ((regex_match_name player re).mpr name)
      simp only [no_denial, no_pattern, Bool.or_eq_true, not_false_eq_true, true_and, or_false]
      exact or_comm
  | some it =>
      rw [Option.elim_some]
      have matches_name : regex_match (c_str (toLowerCaseString player.name)) it.1 = true := by
        have test := List.find?_some found
        exact test
      have name := (regex_match_name player it.1).mp matches_name
      rw [List.find?_append, Option.or_eq_some_iff] at found
      rcases found with found | ⟨none, found⟩
      · obtain ⟨re, mem, rfl⟩ := List.mem_map.mp (List.mem_of_find?_eq_some found)
        simp only [Bool.false_eq_true, false_iff, not_and_or, not_not]
        exact Or.inl ⟨re, mem, name⟩
      · obtain ⟨re, mem, rfl⟩ := List.mem_map.mp (List.mem_of_find?_eq_some found)
        simp only [true_iff]
        refine ⟨?_, Or.inr (Or.inr ⟨re, mem, name⟩)⟩
        rintro ⟨re', mem', name'⟩
        exact List.find?_eq_none.mp none (re', false) (List.mem_map_of_mem mem')
          ((regex_match_name player re').mpr name')

/-! ### Where both agree -/

/-- A regular expression matches no more than its pattern. -/
theorem language_le (re : List (Piece Atom)) {name : List Char}
    (h : name ∈ language Regex.holds re) : name ∈ language globHolds re := by
  rw [← accepts_iff_mem_language] at h ⊢
  refine accepts_mono ?_ re h
  intro a c ha
  cases a with
  | lit b => exact ha
  | any => rfl

theorem DeniedBy.mono {ls ls' : List (List Char)} (sub : ls ⊆ ls')
    (h : DeniedBy Regex.holds ls player) : DeniedBy globHolds ls' player := by
  obtain ⟨line, mem, plain, pattern, ne, rfl, name⟩ := h
  exact ⟨_, sub mem, plain, pattern, ne, rfl, language_le _ name⟩

theorem AdmittedBy.mono {ls ls' : List (List Char)} (sub : ls ⊆ ls')
    (h : AdmittedBy Regex.holds d ls player) : AdmittedBy globHolds d ls' player := by
  obtain ⟨line, mem, guild | name | ⟨plain, expression, head, name⟩⟩ := h
  · exact ⟨line, sub mem, Or.inl guild⟩
  · exact ⟨line, sub mem, Or.inr (Or.inl name)⟩
  · exact ⟨line, sub mem, Or.inr (Or.inr ⟨plain, expression, head, language_le _ name⟩)⟩

/-- What is passed over decides nothing: a denial that matches stands beside one that came
into the list, unless nothing there admits the player, and what admits a player whom nothing
denies stands beside something in the list that does. -/
def Undecided (d : Directory) (text : List Char) (player : Player) : Prop :=
  (DeniedBy globHolds (lines text) player →
    DeniedBy Regex.holds (fresh [] (lines text)) player ∨
      ¬AdmittedBy Regex.holds d (fresh [] (lines text)) player) ∧
  (¬DeniedBy globHolds (lines text) player → AdmittedBy globHolds d (lines text) player →
    AdmittedBy Regex.holds d (fresh [] (lines text)) player)

theorem isInList_parseList (mem : (player.guid, player.name) ∈ d.players.rows)
    (text : List Char) (l : AccessList) :
    (parseList d text l).isInList player = true ↔
      Invited Regex.holds d (fresh [] (lines text)) player :=
  (parsed_parseList text l).isInList fun _ h => nameOf_iff mem (fresh_subset _ _ h)

theorem meets_iff (mem : (player.guid, player.name) ∈ d.players.rows) (text : List Char)
    (l : AccessList) :
    ((parseList d text l).isInList player = true ↔ Invited globHolds d (lines text) player) ↔
      Undecided d text player := by
  rw [isInList_parseList mem]
  have denied : _ → DeniedBy globHolds (lines text) player :=
    DeniedBy.mono (fresh_subset [] (lines text))
  have admitted : _ → AdmittedBy globHolds d (lines text) player :=
    AdmittedBy.mono (fresh_subset [] (lines text))
  unfold Invited Undecided
  tauto

/-! ### Texts that say the same -/

theorem getlines_eq_nil {a : List Char} (h : getlines a = []) : a = [] := by
  cases a with
  | nil => rfl
  | cons c a =>
      rw [getlines] at h
      split_ifs at h
      cases rest : getlines a with
      | nil =>
          rw [rest] at h
          exact absurd h (by simp)
      | cons line lines =>
          rw [rest] at h
          exact absurd h (by simp)

/-- At a line break a text falls apart, up to an empty line. -/
theorem getlines_append (a b : List Char) :
    ∃ tail, (tail = [] ∨ tail = [[]]) ∧
      getlines (a ++ '\n' :: b) = getlines a ++ tail ++ getlines b := by
  induction a with
  | nil => exact ⟨[[]], Or.inr rfl, by simp [getlines]⟩
  | cons c a ih =>
      obtain ⟨tail, form, eq⟩ := ih
      rw [List.cons_append, getlines, getlines, eq]
      by_cases newline : c = '\n'
      · rw [if_pos newline, if_pos newline]
        exact ⟨tail, form, rfl⟩
      · rw [if_neg newline, if_neg newline]
        cases rest : getlines a with
        | nil =>
            obtain rfl := getlines_eq_nil rest
            refine ⟨[], Or.inl rfl, ?_⟩
            rcases form with rfl | rfl
            · simp [getlines] at eq
            · rfl
        | cons line lines => exact ⟨tail, form, rfl⟩

theorem lines_append (a b : List Char) : lines (a ++ '\n' :: b) = lines a ++ lines b := by
  obtain ⟨tail, form, eq⟩ := getlines_append a b
  unfold lines
  rw [eq, List.map_append, List.map_append, List.filter_append, List.filter_append,
    List.map_append, List.map_append]
  rcases form with rfl | rfl
  · simp
  · have blank : trimLine [] = [] := rfl
    simp [blank, Read]

/-- A blank line or a comment. -/
theorem lines_skipped {row : List Char} (one : '\n' ∉ row) (skipped : ¬Read (trimLine row)) :
    lines row = [] := by
  have rows : getlines row = [] ∨ getlines row = [row] := by
    clear skipped
    induction row with
    | nil => exact Or.inl rfl
    | cons c row ih =>
        have hc : c ≠ '\n' := fun eq => one (eq ▸ List.mem_cons_self)
        rw [getlines, if_neg hc]
        rcases ih fun mem => one (List.mem_cons_of_mem c mem) with rest | rest
        · rw [rest, getlines_eq_nil rest]
          exact Or.inr rfl
        · rw [rest]
          exact Or.inr rfl
  unfold lines
  rcases rows with rows | rows
  · rw [rows]
    rfl
  · rw [rows]
    simp [skipped]

/-! ### Letter case -/

theorem toLower_eq_iff {c x : Char} (upper : ¬(65 ≤ x.toNat ∧ x.toNat ≤ 90))
    (lower : ¬(97 ≤ x.toNat ∧ x.toNat ≤ 122)) : c.toLower = x ↔ c = x := by
  constructor
  · intro h
    apply char_ext
    have val := toLower_toNat c
    rw [h] at val
    split_ifs at val with big
    · omega
    · exact val.symm
  · rintro rfl
    apply char_ext
    rw [toLower_toNat, if_neg upper]

theorem getlines_small (text : List Char) :
    getlines (toLowerCaseString text) = (getlines text).map toLowerCaseString := by
  induction text with
  | nil => rfl
  | cons c text ih =>
      change getlines (c.toLower :: toLowerCaseString text) = _
      rw [getlines, getlines, ih]
      have newline : c.toLower = '\n' ↔ c = '\n' := toLower_eq_iff (by decide) (by decide)
      by_cases h : c = '\n'
      · rw [if_pos (newline.mpr h), if_pos h]
        rfl
      · rw [if_neg (fun h' => h (newline.mp h')), if_neg h]
        cases getlines text with
        | nil => rfl
        | cons line rest => rfl

theorem dropWhile_small {t : Char} (upper : ¬(65 ≤ t.toNat ∧ t.toNat ≤ 90))
    (lower : ¬(97 ≤ t.toNat ∧ t.toNat ≤ 122)) (s : List Char) :
    (toLowerCaseString s).dropWhile (· == t) = toLowerCaseString (s.dropWhile (· == t)) := by
  induction s with
  | nil => rfl
  | cons c s ih =>
      change (c.toLower :: toLowerCaseString s).dropWhile (· == t) = _
      have same := toLower_eq_iff (c := c) upper lower
      by_cases h : c = t
      · rw [List.dropWhile_cons_of_pos (by simpa using same.mpr h), ih,
          List.dropWhile_cons_of_pos (by simpa using h)]
      · rw [List.dropWhile_cons_of_neg (by simpa using fun h' => h (same.mp h')),
          List.dropWhile_cons_of_neg (by simpa using h)]
        rfl

theorem rdropWhile_small {t : Char} (upper : ¬(65 ≤ t.toNat ∧ t.toNat ≤ 90))
    (lower : ¬(97 ≤ t.toNat ∧ t.toNat ≤ 122)) (s : List Char) :
    (toLowerCaseString s).rdropWhile (· == t) = toLowerCaseString (s.rdropWhile (· == t)) := by
  have reversed (s : List Char) :
      (toLowerCaseString s).reverse = toLowerCaseString s.reverse := List.map_reverse.symm
  unfold List.rdropWhile
  rw [reversed, dropWhile_small upper lower, reversed]

theorem trimLine_small (s : List Char) :
    trimLine (toLowerCaseString s) = toLowerCaseString (trimLine s) := by
  simp only [trimLine, trimString, trim_left, trim_right]
  rw [rdropWhile_small (by decide) (by decide), dropWhile_small (by decide) (by decide),
    dropWhile_small (by decide) (by decide), rdropWhile_small (by decide) (by decide),
    rdropWhile_small (by decide) (by decide), dropWhile_small (by decide) (by decide)]

theorem read_small (s : List Char) : Read (toLowerCaseString s) ↔ Read s := by
  cases s with
  | nil => rfl
  | cons c s =>
      have hash : c.toLower = '#' ↔ c = '#' := toLower_eq_iff (by decide) (by decide)
      simp [Read, toLowerCaseString, hash]

theorem lines_small (text : List Char) : lines (toLowerCaseString text) = lines text := by
  unfold lines
  rw [getlines_small, List.map_map]
  have rows (rows : List (List Char)) :
      ((rows.map (trimLine ∘ toLowerCaseString)).filter fun line => Read line).map
          toLowerCaseString =
        ((rows.map trimLine).filter fun line => Read line).map toLowerCaseString := by
    induction rows with
    | nil => rfl
    | cons row rows ih =>
        simp only [List.map_cons, Function.comp_apply, trimLine_small]
        by_cases read : Read (trimLine row)
        · rw [List.filter_cons_of_pos (by simpa [read_small] using read),
            List.filter_cons_of_pos (by simpa using read), List.map_cons, List.map_cons, ih,
            toLowerCaseString_twice]
        · rw [List.filter_cons_of_neg (by simpa [read_small] using read),
            List.filter_cons_of_neg (by simpa using read), ih]
  exact rows _

/-! ### The result -/

theorem isInList_congr (mem : (player.guid, player.name) ∈ d.players.rows)
    {text text' : List Char} (same : lines text = lines text') (l l' : AccessList) :
    (parseList d text l).isInList player = (parseList d text' l').isInList player := by
  rw [Bool.eq_iff_iff, isInList_parseList mem, isInList_parseList mem, same]

/-- The lists follow the rules of their text exactly where what is passed over decides
nothing. Letter case, blank lines, comments and a second parse make no difference, nor does
the order of the lines in texts where this is so. -/
theorem access_list_iff (d : Directory) (player : Player)
    (mem : (player.guid, player.name) ∈ d.players.rows) :
    (∀ text l, ((parseList d text l).isInList player = true ↔
        Invited globHolds d (lines text) player) ↔ Undecided d text player) ∧
      (∀ text text' l, toLowerCaseString text = toLowerCaseString text' →
        (parseList d text l).isInList player = (parseList d text' l).isInList player) ∧
      (∀ l player', player'.guid = player.guid → player'.guild = player.guild →
        toLowerCaseString player'.name = toLowerCaseString player.name →
        isInList l player' = isInList l player) ∧
      (∀ before row after l, '\n' ∉ row → ¬Read (trimLine row) →
        (parseList d (before ++ '\n' :: (row ++ '\n' :: after)) l).isInList player =
          (parseList d (before ++ '\n' :: after) l).isInList player) ∧
      (∀ text text' l, (lines text).Perm (lines text') → Undecided d text player →
        Undecided d text' player →
        (parseList d text l).isInList player = (parseList d text' l).isInList player) ∧
      ∀ text l, parseList d text (parseList d text l) = parseList d text l := by
  refine ⟨fun text l => meets_iff mem text l, ?_, ?_, ?_, ?_, fun _ _ => rfl⟩
  · intro text text' l small
    apply isInList_congr mem
    rw [← lines_small text, small, lines_small]
  · intro l player' guid guild name
    unfold AccessList.isInList
    rw [guid, guild, name]
  · intro before row after l one skipped
    apply isInList_congr mem
    rw [lines_append, lines_append, lines_append, lines_skipped one skipped, List.nil_append]
  · intro text text' l perm undecided undecided'
    rw [Bool.eq_iff_iff, (meets_iff mem text l).mpr undecided,
      (meets_iff mem text' l).mpr undecided']
    exact Invited.perm perm

/-! ### A list with a repetition that is none -/

namespace Sample

def members : Registry where
  rows := [(7, "A.b".toList), (8, "Gm Carl".toList)]
  positive := by decide
  ids := by decide
  names := by decide

def noGuilds : Registry := ⟨[], by decide, by decide, by decide⟩

def directory : Directory := ⟨members, noGuilds, [], by decide⟩

def dotted : Player := ⟨7, "A.b".toList, none, by decide⟩

/-- `a.?` is what `a?` is turned into, so it is taken for the same line. -/
def twoPatterns : List Char := "a?\na.?".toList

theorem pattern_passed_over :
    (dotted.guid, dotted.name) ∈ directory.players.rows ∧
      (parseList directory twoPatterns {}).isInList dotted = false ∧
      Invited globHolds directory (lines twoPatterns) dotted := by
  have rows : lines twoPatterns = ["a?".toList, "a.?".toList] := by decide
  refine ⟨by decide, by decide, ?_, ?_⟩
  · rw [rows]
    rintro ⟨line, mem, -, pattern, -, rfl, -⟩
    simp at mem
  · rw [rows]
    refine ⟨"a.?".toList, by simp, Or.inr (Or.inr ⟨by decide, by decide, by decide, ?_⟩)⟩
    rw [← accepts_iff_mem_language]
    decide

theorem dotted_rules :
    ((parseList directory "a*\n!b*".toList {}).isInList dotted = true ↔
        Invited globHolds directory (lines "a*\n!b*".toList) dotted) ↔
      Undecided directory "a*\n!b*".toList dotted :=
  (access_list_iff directory dotted (by decide)).1 "a*\n!b*".toList {}

end Sample

end AccessList

end TibServer
