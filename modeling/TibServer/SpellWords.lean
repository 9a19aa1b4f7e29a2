import Mathlib.Tactic

/-!
The spell that a text invokes (`Spells::getInstantSpell` of `spells.cpp`). The search keeps the
longest registered words that begin the text and looks at the parameter afterwards, so that a spell
whose words go on where another's parameter begins hides the other.
-/

namespace TibServer.SpellWords

/-! ### Texts -/

/-- Bytes of a text, and what they are in lower case in the locale of C. -/
abbrev Text := List UInt8

def tolower (c : UInt8) : UInt8 := if 65 ≤ c ∧ c ≤ 90 then c + 32 else c

def space : UInt8 := 32

/-- Of two texts that a zero byte ends. -/
def strncasecmp : Text → Text → ℕ → ℤ
  | _, _, 0 => 0
  | s, t, n + 1 =>
      let c := s.headD 0
      let d := t.headD 0
      if tolower c ≠ tolower d then (tolower c).toNat - (tolower d).toNat
      else if c = 0 then 0
      else strncasecmp s.tail t.tail n

/-! ### The registered spells -/

/-- The words are an attribute of an XML node, in which there is no zero byte. -/
structure InstantSpell where
  words : Text
  hasParam : Bool
  words_ne : 0 ∉ words

/-- The spells in the order of their words, which are the keys of a map. -/
structure Spells where
  instants : List InstantSpell
  sorted : instants.Pairwise fun a b => a.words < b.words

/-- The loop over the spells, which ends early with words as long as the text. -/
def search (words : Text) (result : Option InstantSpell) : List InstantSpell → Option InstantSpell
  | [] => result
  | instantSpell :: instants =>
      let spellLen := instantSpell.words.length
      if strncasecmp instantSpell.words words spellLen = 0 then
        if result.all fun result => result.words.length < spellLen then
          if words.length = spellLen then some instantSpell
          else search words (some instantSpell) instants
        else search words result instants
      else search words result instants

def Spells.getInstantSpell (spells : Spells) (words : Text) : Option InstantSpell :=
  match search words none spells.instants with
  | none => none
  | some result =>
      if result.words.length < words.length then
        if !result.hasParam then none
        else
          let spellLen := result.words.length
          let paramLen := words.length - spellLen
          if paramLen < 2 ∨ words[spellLen]? ≠ some space then none else some result
      else some result

/-! ### What is to be found -/

def SameIgnoringCase (s t : Text) : Prop := s.map tolower = t.map tolower

/-- The text is the words, or the words with a parameter after a space. -/
def Invokes (text : Text) (spell : InstantSpell) : Prop :=
  SameIgnoringCase text spell.words ∨
    spell.hasParam ∧ ∃ param ≠ [], SameIgnoringCase text (spell.words ++ [space] ++ param)

/-- A spell with the longest words of those that the text invokes, if there is one. -/
def Selects (spells : Spells) (text : Text) : Option InstantSpell → Prop
  | some spell => spell ∈ spells.instants ∧ Invokes text spell ∧
      ∀ other ∈ spells.instants, Invokes text other → other.words.length ≤ spell.words.length
  | none => ∀ spell ∈ spells.instants, ¬ Invokes text spell

def Begins (text : Text) (spell : InstantSpell) : Prop :=
  spell.words.map tolower <+: text.map tolower

/-- The first spell of the list with the longest words that begin the text. -/
def Longest (text : Text) (instants : List InstantSpell) (spell : InstantSpell) : Prop :=
  ∃ before after, instants = before ++ spell :: after ∧ Begins text spell ∧
    (∀ other ∈ before, Begins text other → other.words.length < spell.words.length) ∧
    ∀ other ∈ after, Begins text other → other.words.length ≤ spell.words.length

/-! ### The comparison -/

/-- Only letters are changed, and not to these. -/
theorem tolower_eq_iff {c d : UInt8} (hd : d < 65) : tolower c = d ↔ c = d := by
  unfold tolower
  split
  · next h =>
      rw [UInt8.le_iff_toNat_le, UInt8.le_iff_toNat_le] at h
      rw [UInt8.lt_iff_toNat_lt] at hd
      simp only [← UInt8.toNat_inj, UInt8.toNat_add, UInt8.reduceToNat] at h hd ⊢
      omega
  · exact Iff.rfl

theorem strncasecmp_eq_zero {words : Text} (hwords : 0 ∉ words) (text : Text) :
    strncasecmp words text words.length = 0 ↔ words.map tolower <+: text.map tolower := by
  induction words generalizing text with
  | nil => simp [strncasecmp]
  | cons c words ih =>
      obtain ⟨hc, hwords⟩ : ¬ c = 0 ∧ 0 ∉ words := by simpa [eq_comm, not_or] using hwords
      have hdiffer (d : UInt8) (h : tolower c ≠ tolower d) :
          ((tolower c).toNat : ℤ) - (tolower d).toNat ≠ 0 := fun hsame => by
        refine h (UInt8.toNat_inj.1 ?_)
        omega
      rw [List.length_cons, strncasecmp]
      cases text with
      | nil =>
          have hzero : tolower c ≠ tolower 0 := fun h => hc ((tolower_eq_iff (by decide)).1 h)
          simp [hzero, hdiffer]
      | cons d text =>
          by_cases hsame : tolower c = tolower d
          · simp [hsame, hc, ih hwords, List.cons_prefix_cons]
          · simp [hsame, hdiffer d hsame, List.cons_prefix_cons]

theorem Begins.length_le {text : Text} {spell : InstantSpell} (h : Begins text spell) :
    spell.words.length ≤ text.length := by
  have hlength := List.IsPrefix.length_le h
  simpa using hlength

/-- The words of an invoked spell begin the text. -/
theorem Invokes.begins {text : Text} {spell : InstantSpell} (h : Invokes text spell) :
    Begins text spell := by
  rcases h with h | ⟨-, param, -, h⟩
  · rw [Begins, h]
  · rw [Begins, h]
    simp only [List.map_append, List.append_assoc]
    exact List.prefix_append _ _

theorem Longest.cons {text : Text} {instants : List InstantSpell} {s spell : InstantSpell}
    (h : Longest text instants spell)
    (hs : Begins text s → s.words.length < spell.words.length) :
    Longest text (s :: instants) spell := by
  obtain ⟨before, after, rfl, hbegins, hbefore, hafter⟩ := h
  refine ⟨s :: before, after, rfl, hbegins, fun t ht => ?_, hafter⟩
  rcases List.mem_cons.1 ht with rfl | ht
  · exact hs
  · exact hbefore t ht

/-! ### The search -/

/-- The loop goes on to the longest words unless those it has are as long. -/
theorem search_spec (text : Text) (result : Option InstantSpell) (instants : List InstantSpell) :
    search text result instants = result ∧
        (∀ s ∈ instants, Begins text s → ∃ r ∈ result, s.words.length ≤ r.words.length) ∨
      ∃ spell, search text result instants = some spell ∧ Longest text instants spell ∧
        ∀ r ∈ result, r.words.length < spell.words.length := by
  induction instants generalizing result with
  | nil => exact .inl ⟨rfl, fun s hs => absurd hs List.not_mem_nil⟩
  | cons s instants ih =>
      rw [search]
      simp only [strncasecmp_eq_zero s.words_ne]
      by_cases hbegins : Begins text s
      · by_cases hlonger : result.all (fun r => r.words.length < s.words.length)
        · have hresult (r : InstantSpell) (hr : r ∈ result) :
              r.words.length < s.words.length := by
            rw [Option.mem_def.1 hr] at hlonger
            simpa using hlonger
          simp only [show s.words.map tolower <+: text.map tolower from hbegins, hlonger, if_true]
          by_cases hexact : text.length = s.words.length
          · rw [if_pos hexact]
            -- no words that begin the text are longer
            refine .inr ⟨s, rfl, ⟨[], instants, rfl, hbegins,
              fun t ht => absurd ht List.not_mem_nil, fun t _ ht => ?_⟩, hresult⟩
            rw [← hexact]
            exact ht.length_le
          · rw [if_neg hexact]
            rcases ih (some s) with ⟨hsearch, hall⟩ | ⟨spell, hsearch, hlongest, hless⟩
            · refine .inr ⟨s, hsearch, ⟨[], instants, rfl, hbegins,
                fun t ht => absurd ht List.not_mem_nil, fun t hmem ht => ?_⟩, hresult⟩
              obtain ⟨r, hr, hle⟩ := hall t hmem ht
              rwa [← Option.some.inj hr] at hle
            · have hs := hless s rfl
              refine .inr ⟨spell, hsearch, hlongest.cons fun _ => hs, fun r hr => ?_⟩
              exact (hresult r hr).trans hs
        · obtain ⟨r, hr, hle⟩ : ∃ r ∈ result, s.words.length ≤ r.words.length := by
            cases result with
            | none => exact absurd rfl hlonger
            | some r => exact ⟨r, rfl, by simpa using hlonger⟩
          simp only [show s.words.map tolower <+: text.map tolower from hbegins, hlonger, if_true]
          rcases ih result with ⟨hsearch, hall⟩ | ⟨spell, hsearch, hlongest, hless⟩
          · refine .inl ⟨hsearch, fun t ht => ?_⟩
            rcases List.mem_cons.1 ht with rfl | ht
            · exact fun _ => ⟨r, hr, hle⟩
            · exact hall t ht
          · exact .inr ⟨spell, hsearch, hlongest.cons fun _ => hle.trans_lt (hless r hr), hless⟩
      · simp only [show ¬ s.words.map tolower <+: text.map tolower from hbegins, if_false]
        rcases ih result with ⟨hsearch, hall⟩ | ⟨spell, hsearch, hlongest, hless⟩
        · refine .inl ⟨hsearch, fun t ht => ?_⟩
          rcases List.mem_cons.1 ht with rfl | ht
          · exact fun h => absurd h hbegins
          · exact hall t ht
        · exact .inr ⟨spell, hsearch, hlongest.cons fun h => absurd h hbegins, hless⟩

/-- Of two longest words the first are found. -/
theorem Longest.unique {text : Text} {instants : List InstantSpell} {s t : InstantSpell}
    (hs : Longest text instants s) (ht : Longest text instants t) : s = t := by
  obtain ⟨before, after, rfl, hbegins, hbefore, hafter⟩ := hs
  obtain ⟨before', after', heq, hbegins', hbefore', hafter'⟩ := ht
  rcases List.append_eq_append_iff.1 heq with ⟨between, rfl, htail⟩ | ⟨between, rfl, htail⟩
  · cases between with
    | nil => exact (List.cons.inj htail).1
    | cons u between =>
        obtain ⟨rfl, rfl⟩ := List.cons.inj htail
        have hlt := hbefore' s (by simp) hbegins
        have hle := hafter t (by simp) hbegins'
        omega
  · cases between with
    | nil => exact (List.cons.inj htail).1.symm
    | cons u between =>
        obtain ⟨rfl, rfl⟩ := List.cons.inj htail
        have hlt := hbefore t (by simp) hbegins'
        have hle := hafter' s (by simp) hbegins
        omega

/-! ### The spell that is selected -/

/-- What is looked at for words that begin the text. -/
theorem invokes_iff {text : Text} {spell : InstantSpell} (h : Begins text spell) :
    Invokes text spell ↔ text.length = spell.words.length ∨
      spell.hasParam ∧ spell.words.length + 2 ≤ text.length ∧
        text[spell.words.length]? = some space := by
  have hspace : tolower space = space := (tolower_eq_iff (by decide)).2 rfl
  constructor
  · rintro (hsame | ⟨hparam, param, hne, hsame⟩)
    · exact .inl (by simpa using congrArg List.length hsame)
    · have hlength := congrArg List.length hsame
      have hpos := List.length_pos_of_ne_nil hne
      simp only [List.length_map, List.length_append, List.length_singleton] at hlength
      refine .inr ⟨hparam, by omega, ?_⟩
      have hat := congrArg (·[spell.words.length]?) hsame
      simp only [List.getElem?_map, List.append_assoc] at hat
      rw [List.getElem?_append_right (Nat.le_refl _), Nat.sub_self] at hat
      obtain ⟨c, hc, hlower⟩ := Option.map_eq_some_iff.1 hat
      rw [hc, (tolower_eq_iff (by decide)).1 (hlower.trans hspace)]
  · rintro (hlength | ⟨hparam, hlength, hat⟩)
    · exact .inl (h.eq_of_length (by simpa using hlength.symm)).symm
    · obtain ⟨hn, hat⟩ := List.getElem?_eq_some_iff.1 hat
      refine .inr ⟨hparam, text.drop (spell.words.length + 1), ?_, ?_⟩
      · exact List.ne_nil_of_length_pos (by rw [List.length_drop]; omega)
      · have htake : (text.take spell.words.length).map tolower = spell.words.map tolower := by
          have hprefix := (List.prefix_iff_eq_take.1 h).symm
          rwa [List.length_map, ← List.map_take] at hprefix
        have htext : text = text.take spell.words.length ++
            ([space] ++ text.drop (spell.words.length + 1)) := by
          rw [← hat, List.singleton_append, ← List.drop_eq_getElem_cons hn, List.take_append_drop]
        rw [SameIgnoringCase]
        conv_lhs => rw [htext]
        simp only [List.map_append, List.append_assoc, htake]

theorem getInstantSpell_eq (spells : Spells) (text : Text) :
    (∃ spell, Longest text spells.instants spell ∧ Invokes text spell ∧
        spells.getInstantSpell text = some spell) ∨
      spells.getInstantSpell text = none ∧
        ((∀ s ∈ spells.instants, ¬ Begins text s) ∨
          ∃ spell, Longest text spells.instants spell ∧ ¬ Invokes text spell) := by
  rw [Spells.getInstantSpell]
  rcases search_spec text none spells.instants with ⟨hsearch, hall⟩ | ⟨spell, hsearch, hlongest, -⟩
  · rw [hsearch]
    refine .inr ⟨rfl, .inl fun s hs hbegins => ?_⟩
    obtain ⟨r, hr, -⟩ := hall s hs hbegins
    exact Option.not_mem_none r hr
  · obtain ⟨-, -, -, hbegins, -, -⟩ := id hlongest
    have hle := hbegins.length_le
    have hiff := invokes_iff hbegins
    rw [hsearch]
    dsimp only
    by_cases hlonger : spell.words.length < text.length
    · have hne : text.length ≠ spell.words.length := by omega
      simp only [hne, false_or] at hiff
      rw [if_pos hlonger]
      cases hparam : spell.hasParam with
      | false =>
          refine .inr ⟨rfl, .inr ⟨spell, hlongest, fun hinvokes => ?_⟩⟩
          exact absurd (hparam.symm.trans (hiff.1 hinvokes).1) Bool.false_ne_true
      | true =>
          simp only [hparam, true_and] at hiff
          rw [if_neg (by simp)]
          by_cases hshort : text.length - spell.words.length < 2 ∨
              text[spell.words.length]? ≠ some space
          · rw [if_pos hshort]
            refine .inr ⟨rfl, .inr ⟨spell, hlongest, fun hinvokes => ?_⟩⟩
            obtain ⟨hlength, hspace⟩ := hiff.1 hinvokes
            exact hshort.elim (by omega) fun h => h hspace
          · rw [if_neg hshort]
            rw [not_or, not_not] at hshort
            exact .inl ⟨spell, hlongest, hiff.2 ⟨by omega, hshort.2⟩, rfl⟩
    · rw [if_neg hlonger]
      exact .inl ⟨spell, hlongest, hiff.2 (.inl (by omega)), rfl⟩

/-- The search selects the spell just when the first of the longest words that begin the text are
those of a spell that is invoked, unless none is. -/
theorem selection_iff (spells : Spells) (text : Text) :
    Selects spells text (spells.getInstantSpell text) ↔
      ((∃ s ∈ spells.instants, Invokes text s) →
        ∃ s, Longest text spells.instants s ∧ Invokes text s) := by
  rcases getInstantSpell_eq spells text with ⟨spell, hlongest, hinvokes, hget⟩ | ⟨hget, hnone⟩
  · rw [hget]
    refine iff_of_true ?_ fun _ => ⟨spell, hlongest, hinvokes⟩
    obtain ⟨before, after, hsplit, -, hbefore, hafter⟩ := hlongest
    refine ⟨by simp [hsplit], hinvokes, fun other hother hinvoked => ?_⟩
    rw [hsplit, List.mem_append, List.mem_cons] at hother
    rcases hother with hother | rfl | hother
    · exact (hbefore other hother hinvoked.begins).le
    · exact Nat.le_refl _
    · exact hafter other hother hinvoked.begins
  · rw [hget]
    constructor
    · rintro hselects ⟨s, hs, hinvoked⟩
      exact absurd hinvoked (hselects s hs)
    · rintro h s hs hinvoked
      rcases hnone with hbegins | ⟨spell, hlongest, hnot⟩
      · exact hbegins s hs hinvoked.begins
      · obtain ⟨t, ht, htinvoked⟩ := h ⟨s, hs, hinvoked⟩
        exact hnot (hlongest.unique ht ▸ htinvoked)

namespace Sample

def bytes (s : String) : Text := s.toList.map fun c => UInt8.ofNat c.toNat

def summonMonster : InstantSpell := ⟨bytes "utevo res", true, by decide +kernel⟩

def creatureIllusion : InstantSpell := ⟨bytes "utevo res ina", true, by decide +kernel⟩

def spells : Spells := ⟨[summonMonster, creatureIllusion], by decide +kernel⟩

/-- The creature's name begins as the longer words do, and no spell is found. -/
theorem name_hidden : spells.getInstantSpell (bytes "utevo res inazuma") = none ∧
    Invokes (bytes "utevo res inazuma") summonMonster ∧
    ¬ Selects spells (bytes "utevo res inazuma")
      (spells.getInstantSpell (bytes "utevo res inazuma")) := by
  have hnone : spells.getInstantSpell (bytes "utevo res inazuma") = none := by decide +kernel
  have hinvokes : Invokes (bytes "utevo res inazuma") summonMonster :=
    .inr ⟨rfl, bytes "inazuma", by decide +kernel, by unfold SameIgnoringCase; decide +kernel⟩
  refine ⟨hnone, hinvokes, ?_⟩
  rw [hnone]
  exact fun hselects => hselects summonMonster (by simp [spells]) hinvokes

end Sample

end TibServer.SpellWords
