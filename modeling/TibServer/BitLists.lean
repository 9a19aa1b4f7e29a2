import Mathlib.Data.List.Flatten
import Mathlib.Data.List.Induction
import Mathlib.Data.Nat.Bitwise

/-!
Numbers as lists of bits, the highest bit first. The bits of a number are those of its upper part
and those of its lower part, and numbers of one width are told apart by their bits.
-/

namespace BitLists

/-- The lowest `w` bits of `n`. -/
def toBits : Nat → Nat → List Bool
  | 0, _ => []
  | w + 1, n => n.testBit w :: toBits w n

/-- The number of which the list holds the bits. -/
def ofBits (l : List Bool) : Nat := l.foldl (fun n b => 2 * n + b.toNat) 0

variable {a b m n w : Nat} {l l' : List Bool}

@[simp] theorem length_toBits (w n : Nat) : (toBits w n).length = w := by
  induction w with
  | zero => rfl
  | succ w ih => rw [toBits, List.length_cons, ih]

theorem toBits_congr (h : ∀ i < w, m.testBit i = n.testBit i) : toBits w m = toBits w n := by
  induction w with
  | zero => rfl
  | succ w ih =>
      rw [toBits, toBits, h w (Nat.lt_succ_self w), ih fun i hi => h i (Nat.lt_succ_of_lt hi)]

theorem testBit_of_toBits (h : toBits w m = toBits w n) {i : Nat} (hi : i < w) :
    m.testBit i = n.testBit i := by
  induction w with
  | zero => exact absurd hi (Nat.not_lt_zero i)
  | succ w ih =>
      rw [toBits, toBits, List.cons.injEq] at h
      rcases Nat.lt_succ_iff_lt_or_eq.mp hi with hlt | rfl
      · exact ih h.2 hlt
      · exact h.1

/-- The bits of the upper part, then those of the lower. -/
theorem toBits_add (a b n : Nat) : toBits (a + b) n = toBits a (n >>> b) ++ toBits b n := by
  induction a with
  | zero => rw [Nat.zero_add]; rfl
  | succ a ih =>
      rw [Nat.add_right_comm, toBits, toBits, ih, Nat.testBit_shiftRight, Nat.add_comm b a]
      rfl

theorem toBits_inj (hm : m < 2 ^ w) (hn : n < 2 ^ w) (h : toBits w m = toBits w n) : m = n := by
  refine Nat.eq_of_testBit_eq fun i => ?_
  rcases Nat.lt_or_ge i w with hi | hi
  · exact testBit_of_toBits h hi
  · have hpow := Nat.pow_le_pow_right Nat.two_pos hi
    rw [Nat.testBit_lt_two_pow (hm.trans_le hpow), Nat.testBit_lt_two_pow (hn.trans_le hpow)]

theorem ofBits_append_singleton (l : List Bool) (b : Bool) :
    ofBits (l ++ [b]) = 2 * ofBits l + b.toNat := by
  unfold ofBits
  rw [List.foldl_append]
  rfl

theorem ofBits_lt (l : List Bool) : ofBits l < 2 ^ l.length := by
  induction l using List.reverseRecOn with
  | nil => exact Nat.one_pos
  | append_singleton l b ih =>
      rw [ofBits_append_singleton, List.length_append, List.length_singleton, Nat.pow_succ]
      have hb := b.toNat_lt
      omega

theorem toBits_ofBits (l : List Bool) : toBits l.length (ofBits l) = l := by
  induction l using List.reverseRecOn with
  | nil => rfl
  | append_singleton l b ih =>
      rw [ofBits_append_singleton, List.length_append, List.length_singleton, toBits_add]
      have hshift : (2 * ofBits l + b.toNat) >>> 1 = ofBits l := by
        rw [Nat.shiftRight_one]
        have hb := b.toNat_lt
        omega
      have hlast : toBits 1 (2 * ofBits l + b.toNat) = [b] := by
        cases b <;> simp [toBits, Nat.testBit_zero]
      rw [hshift, ih, hlast]

/-- Lists of numbers of one width are told apart by all their bits. -/
theorem flatMap_toBits_inj {k k' : List Nat} (hw : 0 < w) (hk : ∀ n ∈ k, n < 2 ^ w)
    (hk' : ∀ n ∈ k', n < 2 ^ w) (h : k.flatMap (toBits w) = k'.flatMap (toBits w)) : k = k' := by
  induction k generalizing k' with
  | nil =>
      cases k' with
      | nil => rfl
      | cons n k' =>
          have hlength := congrArg List.length h
          simp at hlength
          omega
  | cons m k ih =>
      cases k' with
      | nil =>
          have hlength := congrArg List.length h
          simp at hlength
          omega
      | cons n k' =>
          rw [List.flatMap_cons, List.flatMap_cons] at h
          obtain ⟨hfirst, hrest⟩ := List.append_inj h (by simp)
          rw [toBits_inj (hk m List.mem_cons_self) (hk' n List.mem_cons_self) hfirst,
            ih (fun i hi => hk i (List.mem_cons_of_mem _ hi))
              (fun i hi => hk' i (List.mem_cons_of_mem _ hi)) hrest]

end BitLists
