import Mathlib.Computability.Language
import Mathlib.Tactic

/-!
Patterns that are rows of pieces, a piece being an atom and how often it may be repeated.
A pattern stands for the product of the languages of its pieces; a word is matched by
going through both from the front.
-/

namespace Patterns

inductive Quantifier
  | once | optional | many
  deriving DecidableEq, Repr

structure Piece (A : Type) where
  atom : A
  quantifier : Quantifier
  deriving DecidableEq, Repr

variable {α A : Type} {holds holds' : A → α → Bool}

/-! ### What a pattern stands for -/

/-- The words of one letter that an atom stands for. -/
def letters (holds : A → α → Bool) (a : A) : Language α :=
  {w | ∃ c, holds a c = true ∧ w = [c]}

def Piece.language (holds : A → α → Bool) (piece : Piece A) : Language α :=
  match piece.quantifier with
  | .once => letters holds piece.atom
  | .optional => 1 + letters holds piece.atom
  | .many => KStar.kstar (letters holds piece.atom)

def language (holds : A → α → Bool) (pieces : List (Piece A)) : Language α :=
  (pieces.map (Piece.language holds)).prod

@[simp] theorem language_nil : language holds [] = 1 := rfl

@[simp] theorem language_cons (piece : Piece A) (pieces : List (Piece A)) :
    language holds (piece :: pieces) = piece.language holds * language holds pieces :=
  List.prod_cons

/-! ### Matching a word -/

/-- Some prefix of letters that pass the test is taken away, and the rest is accepted. -/
def skipWhile (test : α → Bool) (rest : List α → Bool) : List α → Bool
  | [] => rest []
  | c :: w => rest (c :: w) || test c && skipWhile test rest w

/-- The first letter passes the test, and the rest is accepted. -/
def skipOne (test : α → Bool) (rest : List α → Bool) : List α → Bool
  | [] => false
  | c :: w => test c && rest w

def accepts (holds : A → α → Bool) : List (Piece A) → List α → Bool
  | [], w => w.isEmpty
  | ⟨a, .once⟩ :: pieces, w => skipOne (holds a) (accepts holds pieces) w
  | ⟨a, .optional⟩ :: pieces, w =>
      accepts holds pieces w || skipOne (holds a) (accepts holds pieces) w
  | ⟨a, .many⟩ :: pieces, w => skipWhile (holds a) (accepts holds pieces) w

theorem skipOne_iff {test : α → Bool} {rest : List α → Bool} {w : List α} :
    skipOne test rest w = true ↔ ∃ c v, test c = true ∧ rest v = true ∧ w = c :: v := by
  cases w with
  | nil => simp [skipOne]
  | cons c w => simp [skipOne]

theorem skipWhile_iff {test : α → Bool} {rest : List α → Bool} {w : List α} :
    skipWhile test rest w = true ↔
      ∃ u v, (∀ c ∈ u, test c = true) ∧ rest v = true ∧ w = u ++ v := by
  induction w with
  | nil =>
      rw [skipWhile]
      constructor
      · intro h
        exact ⟨[], [], by simp, h, rfl⟩
      · rintro ⟨u, v, -, h, eq⟩
        obtain ⟨-, rfl⟩ := List.append_eq_nil_iff.mp eq.symm
        exact h
  | cons c w ih =>
      rw [skipWhile, Bool.or_eq_true, Bool.and_eq_true, ih]
      constructor
      · rintro (h | ⟨hc, u, v, hu, h, rfl⟩)
        · exact ⟨[], c :: w, by simp, h, rfl⟩
        · refine ⟨c :: u, v, ?_, h, rfl⟩
          intro b hb
          rcases List.mem_cons.mp hb with rfl | hb
          · exact hc
          · exact hu b hb
      · rintro ⟨u, v, hu, h, eq⟩
        cases u with
        | nil =>
            left
            rw [eq]
            exact h
        | cons b u =>
            obtain ⟨rfl, rfl⟩ := List.cons_eq_cons.mp eq
            exact Or.inr ⟨hu _ List.mem_cons_self, u, v,
              fun b hb => hu b (List.mem_cons_of_mem _ hb), h, rfl⟩

/-- A row of letters that all pass is a word of the repeated atom. -/
theorem mem_kstar_letters {a : A} {w : List α} :
    w ∈ KStar.kstar (letters holds a) ↔ ∀ c ∈ w, holds a c = true := by
  rw [Language.mem_kstar]
  constructor
  · rintro ⟨parts, rfl, each⟩ c hc
    obtain ⟨part, hpart, hc⟩ := List.mem_flatten.mp hc
    obtain ⟨b, hb, rfl⟩ := each part hpart
    rw [List.mem_singleton.mp hc]
    exact hb
  · intro each
    refine ⟨w.map fun c => [c], ?_, ?_⟩
    · induction w with
      | nil => rfl
      | cons c w ih => simp [← ih fun b hb => each b (List.mem_cons_of_mem _ hb)]
    · intro part hpart
      obtain ⟨c, hc, rfl⟩ := List.mem_map.mp hpart
      exact ⟨c, each c hc, rfl⟩

/-- Going through pattern and word from the front finds the words of the language. -/
theorem accepts_iff_mem_language (pieces : List (Piece A)) (w : List α) :
    accepts holds pieces w = true ↔ w ∈ language holds pieces := by
  induction pieces generalizing w with
  | nil => simp [accepts, Language.mem_one]
  | cons piece pieces ih =>
      obtain ⟨a, quantifier⟩ := piece
      rw [language_cons, Language.mem_mul]
      cases quantifier with
      | once =>
          rw [accepts, skipOne_iff]
          constructor
          · rintro ⟨c, v, hc, hv, rfl⟩
            exact ⟨[c], ⟨c, hc, rfl⟩, v, (ih v).mp hv, rfl⟩
          · rintro ⟨u, ⟨c, hc, rfl⟩, v, hv, rfl⟩
            exact ⟨c, v, hc, (ih v).mpr hv, rfl⟩
      | optional =>
          rw [accepts, Bool.or_eq_true, skipOne_iff]
          constructor
          · rintro (hw | ⟨c, v, hc, hv, rfl⟩)
            · exact ⟨[], Or.inl rfl, w, (ih w).mp hw, rfl⟩
            · exact ⟨[c], Or.inr ⟨c, hc, rfl⟩, v, (ih v).mp hv, rfl⟩
          · rintro ⟨u, hu | ⟨c, hc, hu⟩, v, hv, rfl⟩
            · left
              rw [(Language.mem_one u).mp hu]
              exact (ih v).mpr hv
            · right
              exact ⟨c, v, hc, (ih v).mpr hv, by rw [hu]; rfl⟩
      | many =>
          rw [accepts, skipWhile_iff]
          constructor
          · rintro ⟨u, v, hu, hv, rfl⟩
            exact ⟨u, mem_kstar_letters.mpr hu, v, (ih v).mp hv, rfl⟩
          · rintro ⟨u, hu, v, hv, rfl⟩
            exact ⟨u, v, mem_kstar_letters.mp hu, (ih v).mpr hv, rfl⟩

/-! ### Other readings of the atoms -/

/-- More letters for the atoms, more words for the pattern. -/
theorem accepts_mono (le : ∀ a c, holds a c = true → holds' a c = true)
    (pieces : List (Piece A)) {w : List α} (h : accepts holds pieces w = true) :
    accepts holds' pieces w = true := by
  induction pieces generalizing w with
  | nil => exact h
  | cons piece pieces ih =>
      obtain ⟨a, quantifier⟩ := piece
      cases quantifier with
      | once =>
          rw [accepts, skipOne_iff] at h ⊢
          obtain ⟨c, v, hc, hv, rfl⟩ := h
          exact ⟨c, v, le a c hc, ih hv, rfl⟩
      | optional =>
          rw [accepts, Bool.or_eq_true, skipOne_iff] at h ⊢
          rcases h with hw | ⟨c, v, hc, hv, rfl⟩
          · exact Or.inl (ih hw)
          · exact Or.inr ⟨c, v, le a c hc, ih hv, rfl⟩
      | many =>
          rw [accepts, skipWhile_iff] at h ⊢
          obtain ⟨u, v, hu, hv, rfl⟩ := h
          exact ⟨u, v, fun c hc => le a c (hu c hc), ih hv, rfl⟩

end Patterns
