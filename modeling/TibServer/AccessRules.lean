import TibServer.AccessList

/-!
Who an access list lets in. The rules are those of the text: no denial may match the name,
and some pattern, name or guild has to. `parseList` keeps to them as far as the lines it
passes over as repetitions do not matter; it looks for an expression among the converted
forms of the earlier ones.
-/

namespace TibServer.AccessList

open Patterns Regex StoreOffers

/-! ### The rules -/

/-- The lines of a text that count, in small letters. -/
def lines (text : List Char) : List (List Char) :=
  (((getlines text).map trimLine).filter fun line => Read line).map toLowerCaseString

/-- What a character of an expression stands for. -/
def pieceOf (c : Char) : Piece Atom :=
  if c = '*' then ⟨.any, .many⟩ else if c = '?' then ⟨.any, .optional⟩ else ⟨.lit c, .once⟩

/-- `*` is any run of characters, `?` at most one. -/
def pieces (expression : List Char) : List (Piece Atom) := expression.map pieceOf

/-- A wildcard stands for every character. -/
def globHolds : Atom → Char → Bool
  | .lit a, c => a == c
  | .any, _ => true

variable (reading : Atom → Char → Bool)

/-- The line denies: it is a `!` before a pattern that matches the name. -/
def Denies (line : List Char) (player : Player) : Prop :=
  '@' ∉ line ∧ ∃ pattern, pattern ≠ [] ∧ line = '!' :: pattern ∧
    toLowerCaseString player.name ∈ language reading (pieces pattern)

/-- The line names the guild of the player. -/
def AdmitsGuild (d : Directory) (line : List Char) (player : Player) : Prop :=
  '@' ∈ line ∧ ∃ guild, player.guild = some guild ∧ guild ≠ 0 ∧
    d.guilds.idByName (guildName line) = guild

/-- The line is the name of the player. -/
def AdmitsName (line : List Char) (player : Player) : Prop :=
  '@' ∉ line ∧ ¬IsExpression line ∧ line = toLowerCaseString player.name

/-- The line is a pattern that matches the name. -/
def AdmitsPattern (line : List Char) (player : Player) : Prop :=
  '@' ∉ line ∧ IsExpression line ∧ line.head? ≠ some '!' ∧
    toLowerCaseString player.name ∈ language reading (pieces line)

def Admits (d : Directory) (line : List Char) (player : Player) : Prop :=
  AdmitsGuild d line player ∨ AdmitsName line player ∨ AdmitsPattern reading line player

def DeniedBy (ls : List (List Char)) (player : Player) : Prop :=
  ∃ line ∈ ls, Denies reading line player

def AdmittedBy (d : Directory) (ls : List (List Char)) (player : Player) : Prop :=
  ∃ line ∈ ls, Admits reading d line player

/-- The lines let the player in: none denies and one admits. -/
def Invited (d : Directory) (ls : List (List Char)) (player : Player) : Prop :=
  ¬DeniedBy reading ls player ∧ AdmittedBy reading d ls player

variable {reading}

theorem Invited.perm {d : Directory} {ls ls' : List (List Char)} {player : Player}
    (perm : ls.Perm ls') : Invited reading d ls player ↔ Invited reading d ls' player := by
  simp only [Invited, DeniedBy, AdmittedBy, perm.mem_iff]

/-! ### Conversion and parsing agree -/

theorem replaceString_singleton (str : List Char) (a : Char) (replacement : List Char) :
    replaceString str [a] replacement =
      str.flatMap fun c => if c = a then replacement else [c] := by
  unfold replaceString
  induction str with
  | nil => rfl
  | cons c str ih =>
      rw [replaceFrom, List.flatMap_cons, ← ih]
      by_cases h : c = a
      · simp [h, List.isPrefixOf]
      · simp [h, Ne.symm h, List.isPrefixOf]

/-- What becomes of one character. -/
def convertChar (c : Char) : List Char :=
  if c = '*' then ['.', '*']
  else if c = '?' then ['.', '?']
  else if c ∈ metachars then ['\\', c]
  else [c]

theorem convert_eq (e : List Char) : convert e = e.flatMap convertChar := by
  rw [convert, replaceString_singleton, replaceString_singleton, escape]
  induction e with
  | nil => rfl
  | cons c e ih =>
      rw [List.flatMap_cons, List.flatMap_append, List.flatMap_append, ih, List.flatMap_cons]
      congr 1
      rw [convertChar]
      by_cases star : c = '*'
      · subst star
        decide
      by_cases mark : c = '?'
      · subst mark
        decide
      rw [if_neg star, if_neg mark]
      by_cases special : c ∈ metachars
      · simp [special, star, mark]
      · simp [special, star, mark]

@[simp] theorem convert_nil : convert [] = [] := rfl

@[simp] theorem convert_cons (c : Char) (e : List Char) :
    convert (c :: e) = convertChar c ++ convert e := by
  rw [convert_eq, convert_eq, List.flatMap_cons]

/-- A converted expression does not begin with a quantifier. -/
theorem head_convert (e : List Char) : parseQuantifier (convert e) = (.once, convert e) := by
  cases e with
  | nil => rfl
  | cons c e =>
      rw [convert_cons, convertChar]
      by_cases star : c = '*'
      · rw [if_pos star]
        rfl
      by_cases mark : c = '?'
      · rw [if_neg star, if_pos mark]
        rfl
      rw [if_neg star, if_neg mark]
      by_cases special : c ∈ metachars
      · rw [if_pos special]
        rfl
      · rw [if_neg special]
        simp only [List.cons_append, List.nil_append]
        unfold parseQuantifier
        split
        · rename_i h
          exact absurd (List.cons_eq_cons.mp h).1 star
        · rename_i h
          exact absurd (List.cons_eq_cons.mp h).1 mark
        · rfl

theorem parsePieces_convert (e : List Char) (n : Nat) (enough : e.length ≤ n) :
    parsePieces n (convert e) = some (pieces e) := by
  induction e generalizing n with
  | nil =>
      cases n with
      | zero => rfl
      | succ n => rfl
  | cons c e ih =>
      obtain ⟨n, rfl⟩ : ∃ m, n = m + 1 := ⟨n - 1, by simp at enough; omega⟩
      have ih := ih n (by simpa using enough)
      rw [convert_cons, convertChar]
      by_cases star : c = '*'
      · subst star
        simp [parsePieces, parseAtom, parseQuantifier, ih, pieces, pieceOf]
      by_cases mark : c = '?'
      · subst mark
        simp [parsePieces, parseAtom, parseQuantifier, ih, pieces, pieceOf]
      rw [if_neg star, if_neg mark]
      have piece : pieces (c :: e) = ⟨.lit c, .once⟩ :: pieces e := by
        simp [pieces, pieceOf, star, mark]
      rw [piece]
      by_cases special : c ∈ metachars
      · rw [if_pos special]
        simp [parsePieces, parseAtom, special, head_convert, ih]
      · rw [if_neg special]
        have atom : parseAtom (c :: convert e) = some (.lit c, convert e) := by
          have dot : c ≠ '.' := by
            rintro rfl
            exact special (by decide)
          have slash : c ≠ '\\' := by
            rintro rfl
            exact special (by decide)
          unfold parseAtom
          split
          · rename_i h
            exact absurd h (by simp)
          · rename_i h
            exact absurd (List.cons_eq_cons.mp h).1 dot
          · rename_i h
            exact absurd (List.cons_eq_cons.mp h).1 slash
          · rename_i h
            obtain ⟨rfl, rfl⟩ := List.cons_eq_cons.mp h
            rw [if_neg (by simp [star, mark, special])]
        simp [parsePieces, atom, head_convert, ih]

theorem length_le_convert (e : List Char) : e.length ≤ (convert e).length := by
  induction e with
  | nil => simp
  | cons c e ih =>
      have one : 1 ≤ (convertChar c).length := by
        unfold convertChar
        split_ifs <;> simp
      simp only [convert_cons, List.length_cons, List.length_append]
      omega

/-- The regular expression of a converted expression is there, and has its pieces. -/
theorem regex_convert (e : List Char) : regex (convert e) = some (pieces e) :=
  parsePieces_convert e _ (length_le_convert e)

theorem convert_ne_nil {e : List Char} (h : e ≠ []) : convert e ≠ [] := by
  intro none
  have len := length_le_convert e
  rw [none, List.length_nil] at len
  exact h (List.length_eq_zero_iff.mp (Nat.le_zero.mp len))

theorem convert_bang (e : List Char) : convert ('!' :: e) = '!' :: convert e := by
  rw [convert_cons]
  rfl

/-- Conversion keeps what an expression begins with apart from a denial. -/
theorem head_convert_ne {e : List Char} (h : e.head? ≠ some '!') :
    (convert e).head? ≠ some '!' := by
  cases e with
  | nil => simp
  | cons c e =>
      have hc : c ≠ '!' := fun eq => h (by rw [eq]; rfl)
      rw [convert_cons, convertChar]
      split_ifs
      · simp
      · simp
      · simp
      · simpa using hc

/-! ### What the list holds after parsing -/

/-- The lines that come into the list; `done` is what an expression is looked up in. -/
def fresh : List (List Char) → List (List Char) → List (List Char)
  | _, [] => []
  | done, line :: ls =>
      if '@' ∉ line ∧ IsExpression line then
        if line ∈ done then fresh done ls
        else line :: fresh (done ++ [convert line]) ls
      else line :: fresh done ls

theorem fresh_subset (done ls : List (List Char)) : fresh done ls ⊆ ls := by
  induction ls generalizing done with
  | nil => exact List.Subset.refl _
  | cons line ls ih =>
      rw [fresh]
      split_ifs
      · exact List.subset_cons_of_subset _ (ih done)
      · exact List.cons_subset_cons _ (ih _)
      · exact List.cons_subset_cons _ (ih done)

/-- The player a name is put into the list for. -/
def Resolves (d : Directory) (name : List Char) (guid : Nat) : Prop :=
  d.getPlayerByName name = some guid ∨
    d.getPlayerByName name = none ∧ guid ≠ 0 ∧ d.players.idByName name = guid

/-- The line brings in a name of this player. -/
def NameOf (d : Directory) (line : List Char) (guid : Nat) : Prop :=
  '@' ∉ line ∧ ¬IsExpression line ∧ Resolves d line guid

/-- The line brings in this guild. -/
def GuildOf (d : Directory) (line : List Char) (guild : Nat) : Prop :=
  '@' ∈ line ∧ guild ≠ 0 ∧ d.guilds.idByName (guildName line) = guild

/-- The line brings in this denial. -/
def DenialOf (line : List Char) (re : List (Piece Atom)) : Prop :=
  '@' ∉ line ∧ ∃ pattern, pattern ≠ [] ∧ line = '!' :: pattern ∧ re = pieces pattern

/-- The line brings in this pattern. -/
def PatternOf (line : List Char) (re : List (Piece Atom)) : Prop :=
  '@' ∉ line ∧ IsExpression line ∧ line.head? ≠ some '!' ∧ re = pieces line

/-- The regular expressions are those of the lines, the denials first. -/
structure Ordered (ls : List (List Char)) (res : List (List (Piece Atom) × Bool)) : Prop where
  split : ∃ denials patterns : List (List (Piece Atom)),
    res = denials.map (fun re => (re, false)) ++ patterns.map (fun re => (re, true)) ∧
    (∀ re, re ∈ denials ↔ ∃ line ∈ ls, DenialOf line re) ∧
    ∀ re, re ∈ patterns ↔ ∃ line ∈ ls, PatternOf line re

/-- The list holds what the lines bring in. -/
structure Parsed (d : Directory) (ls : List (List Char)) (l : AccessList) : Prop where
  names : ∀ guid, guid ∈ l.playerList ↔ ∃ line ∈ ls, NameOf d line guid
  guilds : ∀ guild, guild ∈ l.guildList ↔ ∃ line ∈ ls, GuildOf d line guild
  ordered : Ordered ls l.regExList

variable {d : Directory} {ls : List (List Char)} {l : AccessList} {line : List Char}

theorem parsed_nil (list : List Char) : Parsed d [] { list := list } where
  names := by simp
  guilds := by simp
  ordered := ⟨[], [], rfl, by simp, by simp⟩

/-- A line that is no expression brings in no regular expression. -/
theorem Ordered.other {res : List (List (Piece Atom) × Bool)} (h : Ordered ls res)
    (other : ¬('@' ∉ line ∧ IsExpression line)) : Ordered (ls ++ [line]) res := by
  obtain ⟨denials, patterns, eq, hd, hp⟩ := h.split
  refine ⟨denials, patterns, eq, fun re => ?_, fun re => ?_⟩
  · rw [hd]
    constructor
    · rintro ⟨line', mem, of⟩
      exact ⟨line', List.mem_append_left _ mem, of⟩
    · rintro ⟨line', mem, of⟩
      rcases List.mem_append.mp mem with mem | mem
      · exact ⟨line', mem, of⟩
      · obtain rfl := List.mem_singleton.mp mem
        obtain ⟨plain, pattern, -, rfl, -⟩ := of
        exact absurd ⟨plain, Or.inl List.mem_cons_self⟩ other
  · rw [hp]
    constructor
    · rintro ⟨line', mem, of⟩
      exact ⟨line', List.mem_append_left _ mem, of⟩
    · rintro ⟨line', mem, of⟩
      rcases List.mem_append.mp mem with mem | mem
      · exact ⟨line', mem, of⟩
      · obtain rfl := List.mem_singleton.mp mem
        exact absurd ⟨of.1, of.2.1⟩ other

theorem exists_mem_append_singleton {P : List Char → Prop} :
    (∃ line' ∈ ls ++ [line], P line') ↔ (∃ line' ∈ ls, P line') ∨ P line := by
  simp only [List.mem_append, List.mem_singleton, or_and_right, exists_or, exists_eq_left]

theorem mem_insert_iff {xs : List Nat} {a b : Nat} : b ∈ xs.insert a ↔ b ∈ xs ∨ b = a := by
  rw [List.mem_insert_iff, or_comm]

/-- A guild line. -/
theorem Parsed.addGuild (h : Parsed d ls l) (at_pos : '@' ∈ line) :
    Parsed d (ls ++ [line]) (AccessList.addGuild d (guildName line) l) := by
  have ordered := @Ordered.other ls line _ h.ordered fun other => other.1 at_pos
  have names (guid : Nat) : (∃ line' ∈ ls ++ [line], NameOf d line' guid) ↔
      ∃ line' ∈ ls, NameOf d line' guid := by
    rw [exists_mem_append_singleton]
    exact or_iff_left fun of => of.1 at_pos
  unfold AccessList.addGuild
  by_cases some : d.guilds.idByName (guildName line) ≠ 0
  · simp only [if_pos some]
    refine ⟨fun guid => (h.names guid).trans (names guid).symm, fun guild => ?_, ordered⟩
    rw [exists_mem_append_singleton, mem_insert_iff, h.guilds]
    constructor
    · rintro (of | rfl)
      · exact Or.inl of
      · exact Or.inr ⟨at_pos, some, rfl⟩
    · rintro (of | of)
      · exact Or.inl of
      · exact Or.inr of.2.2.symm
  · simp only [if_neg some]
    refine ⟨fun guid => (h.names guid).trans (names guid).symm, fun guild => ?_, ordered⟩
    rw [exists_mem_append_singleton, h.guilds]
    refine (or_iff_left fun of => ?_).symm
    rw [of.2.2] at some
    exact some of.2.1

/-- A name. -/
theorem Parsed.addPlayer (h : Parsed d ls l) (plain : '@' ∉ line) (name : ¬IsExpression line) :
    Parsed d (ls ++ [line]) (AccessList.addPlayer d line l) := by
  have ordered := @Ordered.other ls line _ h.ordered fun other => name other.2
  have guilds (guild : Nat) : guild ∈ l.guildList ↔
      ∃ line' ∈ ls ++ [line], GuildOf d line' guild := by
    rw [exists_mem_append_singleton, h.guilds]
    exact (or_iff_left fun of => plain of.1).symm
  have names (guid : Nat) : (∃ line' ∈ ls ++ [line], NameOf d line' guid) ↔
      guid ∈ l.playerList ∨ Resolves d line guid := by
    rw [exists_mem_append_singleton, h.names]
    exact or_congr Iff.rfl ⟨fun of => of.2.2, fun of => ⟨plain, name, of⟩⟩
  unfold AccessList.addPlayer
  cases found : d.getPlayerByName line with
  | some guid' =>
      refine ⟨fun guid => ?_, guilds, ordered⟩
      rw [names, mem_insert_iff, Resolves, found]
      refine or_congr Iff.rfl ⟨fun eq => Or.inl (by rw [eq]), ?_⟩
      rintro (eq | ⟨eq, -⟩)
      · exact (Option.some.inj eq).symm
      · exact absurd eq (by simp)
  | none =>
      by_cases some : d.players.idByName line ≠ 0
      · simp only [if_pos some]
        refine ⟨fun guid => ?_, guilds, ordered⟩
        rw [names, mem_insert_iff, Resolves, found]
        refine or_congr Iff.rfl ⟨fun eq => Or.inr ⟨rfl, by rw [eq]; exact some, eq.symm⟩, ?_⟩
        rintro (eq | ⟨-, -, eq⟩)
        · exact absurd eq (by simp)
        · exact eq.symm
      · simp only [if_neg some]
        refine ⟨fun guid => ?_, guilds, ordered⟩
        rw [names, Resolves, found]
        refine (or_iff_left ?_).symm
        rintro (eq | ⟨-, ne, eq⟩)
        · exact absurd eq (by simp)
        · rw [eq] at some
          exact some ne

/-- A pattern goes to the end. -/
theorem Ordered.pattern {res : List (List (Piece Atom) × Bool)} (h : Ordered ls res)
    (plain : '@' ∉ line) (expression : IsExpression line) (head : line.head? ≠ some '!') :
    Ordered (ls ++ [line]) (res ++ [(pieces line, true)]) := by
  obtain ⟨denials, patterns, rfl, hd, hp⟩ := h.split
  refine ⟨denials, patterns ++ [pieces line], by simp, fun re => ?_, fun re => ?_⟩
  · rw [exists_mem_append_singleton, hd]
    refine (or_iff_left ?_).symm
    rintro ⟨-, pattern, -, rfl, -⟩
    exact head rfl
  · rw [exists_mem_append_singleton, List.mem_append, List.mem_singleton, hp]
    exact or_congr Iff.rfl ⟨fun eq => ⟨plain, expression, head, eq⟩, fun of => of.2.2.2⟩

/-- A denial goes to the front. -/
theorem Ordered.denial {res : List (List (Piece Atom) × Bool)} (h : Ordered ls res)
    {pattern : List Char} (plain : '@' ∉ '!' :: pattern) (ne : pattern ≠ []) :
    Ordered (ls ++ ['!' :: pattern]) ((pieces pattern, false) :: res) := by
  obtain ⟨denials, patterns, rfl, hd, hp⟩ := h.split
  refine ⟨pieces pattern :: denials, patterns, by simp, fun re => ?_, fun re => ?_⟩
  · rw [exists_mem_append_singleton, List.mem_cons, hd, or_comm]
    refine or_congr Iff.rfl ⟨fun eq => ⟨plain, pattern, ne, rfl, eq⟩, ?_⟩
    rintro ⟨-, pattern', -, eq, rfl⟩
    rw [(List.cons_eq_cons.mp eq).2]
  · rw [exists_mem_append_singleton, hp]
    exact (or_iff_left fun of => of.2.2.1 rfl).symm

/-- A lone `!` brings in nothing. -/
theorem Ordered.lone {res : List (List (Piece Atom) × Bool)} (h : Ordered ls res) :
    Ordered (ls ++ [['!']]) res := by
  obtain ⟨denials, patterns, rfl, hd, hp⟩ := h.split
  refine ⟨denials, patterns, rfl, fun re => ?_, fun re => ?_⟩
  · rw [exists_mem_append_singleton, hd]
    refine (or_iff_left ?_).symm
    rintro ⟨-, pattern, ne, eq, -⟩
    exact ne (List.cons_eq_cons.mp eq).2.symm
  · rw [exists_mem_append_singleton, hp]
    exact (or_iff_left fun of => of.2.2.1 rfl).symm

theorem addRegEx_ordered (h : Ordered ls l.regExList) (plain : '@' ∉ line)
    (expression : IsExpression line) :
    Ordered (ls ++ [line]) (addRegEx (convert line) l).regExList := by
  by_cases head : line.head? = some '!'
  · obtain ⟨pattern, rfl⟩ : ∃ pattern, line = '!' :: pattern := by
      cases line with
      | nil => simp at head
      | cons c pattern => exact ⟨pattern, by rw [Option.some.inj head]⟩
    rw [convert_bang]
    by_cases ne : pattern = []
    · subst ne
      exact h.lone
    · simp only [addRegEx, if_pos (convert_ne_nil ne), regex_convert]
      exact h.denial plain ne
  · unfold addRegEx
    split
    · rename_i rest eq
      exact absurd (by rw [eq]; rfl) (head_convert_ne head)
    · rw [regex_convert]
      exact h.pattern plain expression head

theorem addRegEx_lists (outExp : List Char) (l : AccessList) :
    (addRegEx outExp l).playerList = l.playerList ∧
      (addRegEx outExp l).guildList = l.guildList ∧
      (addRegEx outExp l).expressionList = l.expressionList ∧
      (addRegEx outExp l).list = l.list := by
  unfold addRegEx
  split
  · split_ifs
    · split <;> exact ⟨rfl, rfl, rfl, rfl⟩
    · exact ⟨rfl, rfl, rfl, rfl⟩
  · split <;> exact ⟨rfl, rfl, rfl, rfl⟩

theorem addExpression_fresh (new : line ∉ l.expressionList) (ne : line ≠ []) :
    addExpression line l =
      addRegEx (convert line) { l with expressionList := l.expressionList ++ [convert line] } := by
  rw [addExpression, if_neg new]
  exact if_neg (convert_ne_nil ne)

/-- An expression that is not passed over. -/
theorem Parsed.addExpression (h : Parsed d ls l) (new : line ∉ l.expressionList)
    (plain : '@' ∉ line) (expression : IsExpression line) :
    Parsed d (ls ++ [line]) (AccessList.addExpression line l) := by
  have ne : line ≠ [] := by
    rintro rfl
    simp [IsExpression] at expression
  rw [addExpression_fresh new ne]
  obtain ⟨players, guilds, -⟩ := addRegEx_lists (convert line)
    { l with expressionList := l.expressionList ++ [convert line] }
  refine ⟨fun guid => ?_, fun guild => ?_, addRegEx_ordered h.ordered plain expression⟩
  · rw [players, exists_mem_append_singleton]
    exact (h.names guid).trans (or_iff_left fun of => of.2.1 expression).symm
  · rw [guilds, exists_mem_append_singleton]
    exact (h.guilds guild).trans (or_iff_left fun of => plain of.1).symm

/-! ### What expressions are compared with -/

theorem addGuild_expressionList (name : List Char) :
    (AccessList.addGuild d name l).expressionList = l.expressionList := by
  unfold AccessList.addGuild
  simp only
  split_ifs
  · rfl
  · rfl

theorem addPlayer_expressionList (name : List Char) :
    (AccessList.addPlayer d name l).expressionList = l.expressionList := by
  unfold AccessList.addPlayer
  split
  · rfl
  · simp only
    split_ifs
    · rfl
    · rfl

/-- Every line that is not passed over comes into the list. -/
theorem Parsed.foldl (h : Parsed d ls l) (new : List (List Char)) :
    Parsed d (ls ++ fresh l.expressionList new) (new.foldl (addLine d) l) := by
  induction new generalizing ls l with
  | nil => simpa [fresh] using h
  | cons line new ih =>
      rw [List.foldl_cons, fresh, addLine]
      by_cases at_pos : '@' ∈ line
      · rw [if_pos at_pos, if_neg (fun other => other.1 at_pos)]
        have rest := ih (h.addGuild at_pos)
        rwa [addGuild_expressionList, List.append_assoc] at rest
      by_cases expression : IsExpression line
      · rw [if_neg at_pos, if_pos expression, if_pos ⟨at_pos, expression⟩]
        by_cases again : line ∈ l.expressionList
        · rw [if_pos again]
          have same : AccessList.addExpression line l = l := if_pos again
          rw [same]
          exact ih h
        · rw [if_neg again]
          have ne : line ≠ [] := by
            rintro rfl
            simp [IsExpression] at expression
          have rest := ih (h.addExpression again at_pos expression)
          rw [List.append_assoc] at rest
          rw [addExpression_fresh again ne] at rest ⊢
          obtain ⟨-, -, expressions, -⟩ := addRegEx_lists (convert line)
            { l with expressionList := l.expressionList ++ [convert line] }
          rwa [expressions] at rest
      · rw [if_neg at_pos, if_neg expression, if_neg (fun other => expression other.2)]
        have rest := ih (h.addPlayer at_pos expression)
        rwa [addPlayer_expressionList, List.append_assoc] at rest

/-! ### The loop over the text -/

theorem parseLines_eq (l : AccessList) (rows : List (List Char)) :
    parseLines d l rows =
      (((rows.map trimLine).filter fun line => Read line).map toLowerCaseString).foldl
        (addLine d) l := by
  induction rows generalizing l with
  | nil => rfl
  | cons row rows ih =>
      rw [parseLines, List.map_cons]
      by_cases read : Read (trimLine row)
      · rw [if_pos read, List.filter_cons_of_pos (by simpa using read), ih]
        rfl
      · rw [if_neg read, List.filter_cons_of_neg (by simpa using read), ih]

theorem parseList_eq (text : List Char) (l : AccessList) :
    parseList d text l = (lines text).foldl (addLine d) { list := text } := by
  unfold parseList
  by_cases empty : text = []
  · subst empty
    rfl
  · simp only [if_neg empty]
    exact parseLines_eq _ _

theorem parsed_parseList (text : List Char) (l : AccessList) :
    Parsed d (fresh [] (lines text)) (parseList d text l) := by
  rw [parseList_eq]
  simpa using (parsed_nil (d := d) text).foldl (lines text)

end TibServer.AccessList
