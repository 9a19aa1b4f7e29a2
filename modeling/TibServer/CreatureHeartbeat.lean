import TibServer.CreatureRuns

/-!
The heartbeat. The creatures are spread over lists, and the passes go over one list after the
other. A creature may come and go between the visits, also while its own list is gone over; it
still never thinks twice within one round of all lists, and no pass ends before everyone in its
list has thought.
-/

namespace TibServer.CreatureReferences

open Game

variable {g g' : Game} {c d : CreatureId} {i j : Fin EVENT_CREATURECOUNT} {k n : ℕ}
  {lists : Fin EVENT_CREATURECOUNT → List CreatureId} {iterator : Option ℕ}
  {thoughts : List (CreatureId × ℕ)}

/-! ### The order of the passes -/

/-- The first pass over a list from the `n`-th pass on. -/
def next (n : ℕ) (i : Fin EVENT_CREATURECOUNT) : ℕ :=
  n + (i + EVENT_CREATURECOUNT - n % EVENT_CREATURECOUNT) % EVENT_CREATURECOUNT

theorem le_next (n : ℕ) (i : Fin EVENT_CREATURECOUNT) : n ≤ next n i := Nat.le_add_right _ _

theorem next_listOf (n : ℕ) : next n (listOf n) = n := by
  have size : EVENT_CREATURECOUNT = 10 := rfl
  simp only [next, listOf, size]
  omega

/-- When a pass is over, its own list comes last. -/
theorem next_succ_self (n : ℕ) : next (n + 1) (listOf n) = n + EVENT_CREATURECOUNT := by
  have size : EVENT_CREATURECOUNT = 10 := rfl
  simp only [next, listOf, size]
  omega

theorem next_succ (ne : i ≠ listOf n) : next (n + 1) i = next n i := by
  have size : EVENT_CREATURECOUNT = 10 := rfl
  have lt := i.isLt
  have different : (i : ℕ) ≠ n % EVENT_CREATURECOUNT := fun eq => ne (Fin.ext eq)
  simp only [next, size] at lt different ⊢
  omega

/-! ### One place at most -/

/-- The lists name every creature once at most. -/
def Once (lists : Fin EVENT_CREATURECOUNT → List CreatureId) : Prop :=
  ∀ c, ∑ i, (lists i).count c ≤ 1

theorem Sound.once (h : Sound g) : Once g.checkCreatureLists := by
  intro c
  have listed := h.listed c
  unfold checks at listed
  rw [listed]
  split_ifs
  · exact le_rfl
  · exact Nat.zero_le 1

namespace Once

theorem nodup (h : Once lists) (i : Fin EVENT_CREATURECOUNT) : (lists i).Nodup := by
  rw [List.nodup_iff_count_le_one]
  intro c
  have sum := Finset.single_le_sum (s := Finset.univ)
    (fun j _ => Nat.zero_le ((lists j).count c)) (Finset.mem_univ i)
  exact sum.trans (h c)

theorem eq_of_mem (h : Once lists) (hi : c ∈ lists i) (hj : c ∈ lists j) : i = j := by
  by_contra ne
  have pair := Finset.add_sum_erase Finset.univ (fun j => (lists j).count c) (Finset.mem_univ i)
  have rest := Finset.single_le_sum (s := Finset.univ.erase i)
    (fun j _ => Nat.zero_le ((lists j).count c))
    (Finset.mem_erase.mpr ⟨Ne.symm ne, Finset.mem_univ j⟩)
  have one := h c
  have here := List.count_pos_iff.mpr hi
  have there := List.count_pos_iff.mpr hj
  omega

theorem not_mem_take (h : Once lists) (at_k : (lists i)[k]? = some c) :
    c ∉ (lists i).take k := by
  obtain ⟨lt, get⟩ := List.getElem?_eq_some_iff.mp at_k
  intro mem
  obtain ⟨k', lt', get'⟩ := List.mem_take_iff_getElem.mp mem
  have same := (h.nodup i).getElem_inj_iff.mp (get'.trans get.symm)
  omega

end Once

/-! ### The rhythm -/

/-- The pass under way has been over the creature. -/
def Seen (lists : Fin EVENT_CREATURECOUNT → List CreatureId) (iterator : Option ℕ) (n : ℕ)
    (c : CreatureId) : Prop :=
  ∃ k, iterator = some k ∧ c ∈ (lists (listOf n)).take k

/-- Who thought, and in which pass, against who is still to be visited. -/
structure Paced (lists : Fin EVENT_CREATURECOUNT → List CreatureId) (iterator : Option ℕ) (n : ℕ)
    (thoughts : List (CreatureId × ℕ)) : Prop where
  /-- The iterator stands in its list or behind it. -/
  inside : ∀ k, iterator = some k → k ≤ (lists (listOf n)).length
  /-- Nobody has thought in a pass to come. -/
  past : ∀ c p, (c, p) ∈ thoughts → p ≤ n
  /-- Who is in no list may be visited as soon as it comes back. -/
  away : ∀ c p, (c, p) ∈ thoughts → (∀ i, c ∉ lists i) → p + EVENT_CREATURECOUNT ≤ n
  /-- Who is in a list is visited again with that list. -/
  rested : ∀ c p, (c, p) ∈ thoughts → ∀ i, c ∈ lists i → ¬Seen lists iterator n c →
    p + EVENT_CREATURECOUNT ≤ next n i
  seen : ∀ c, Seen lists iterator n c → (c, n) ∈ thoughts
  apart : thoughts.Pairwise fun later earlier =>
    later.1 = earlier.1 → earlier.2 + EVENT_CREATURECOUNT ≤ later.2

namespace Paced

variable (h : Paced lists iterator n thoughts)

include h

/-- A creature comes into a list that was in none. -/
theorem join {bucket : Fin EVENT_CREATURECOUNT} (unlisted : ∀ i, c ∉ lists i) :
    Paced (Function.update lists bucket (lists bucket ++ [c])) iterator n thoughts := by
  have grows (i : Fin EVENT_CREATURECOUNT) :
      ∃ l, Function.update lists bucket (lists bucket ++ [c]) i = lists i ++ l ∧ l ⊆ [c] := by
    by_cases eq : i = bucket
    · subst eq
      exact ⟨[c], Function.update_self .., List.Subset.refl _⟩
    · refine ⟨[], ?_, List.nil_subset _⟩
      rw [Function.update_of_ne eq, List.append_nil]
  have seen_iff (d : CreatureId) :
      Seen (Function.update lists bucket (lists bucket ++ [c])) iterator n d ↔
        Seen lists iterator n d := by
    obtain ⟨l, more, -⟩ := grows (listOf n)
    refine exists_congr fun k => and_congr_right fun under_way => ?_
    rw [more, List.take_append_of_le_length (h.inside k under_way)]
  refine ⟨?_, h.past, ?_, ?_, ?_, h.apart⟩
  · intro k under_way
    obtain ⟨l, more, -⟩ := grows (listOf n)
    rw [more, List.length_append]
    exact (h.inside k under_way).trans (Nat.le_add_right _ _)
  · intro d p thought out
    refine h.away d p thought fun i mem => out i ?_
    obtain ⟨l, more, -⟩ := grows i
    rw [more]
    exact List.mem_append_left _ mem
  · intro d p thought i mem unseen
    rw [seen_iff] at unseen
    obtain ⟨l, more, new⟩ := grows i
    rw [more] at mem
    rcases List.mem_append.mp mem with old | fresh
    · exact h.rested d p thought i old unseen
    · -- the newcomer was away for a whole round
      rw [List.mem_singleton.mp (new fresh)] at thought
      exact (h.away c p thought unlisted).trans (le_next n i)
  · intro d seen
    exact h.seen d ((seen_iff d).mp seen)

theorem start (idle : iterator = none) : Paced lists (some 0) n thoughts := by
  have unseen (c : CreatureId) : ¬Seen lists (some 0) n c := by
    rintro ⟨k, under_way, mem⟩
    obtain rfl := Option.some.inj under_way
    cases mem
  have unseen' (c : CreatureId) : ¬Seen lists iterator n c := by
    rintro ⟨k, under_way, -⟩
    rw [idle] at under_way
    cases under_way
  refine ⟨?_, h.past, h.away, ?_, ?_, h.apart⟩
  · intro k under_way
    obtain rfl := Option.some.inj under_way
    exact Nat.zero_le _
  · exact fun c p thought i mem _ => h.rested c p thought i mem (unseen' c)
  · exact fun c seen => absurd seen (unseen c)

/-- The next creature thinks. -/
theorem think (once : Once lists) (under_way : iterator = some k)
    (at_k : (lists (listOf n))[k]? = some c) :
    Paced lists (some (k + 1)) n ((c, n) :: thoughts) := by
  obtain ⟨lt, get⟩ := List.getElem?_eq_some_iff.mp at_k
  have mem : c ∈ lists (listOf n) := List.mem_of_getElem? at_k
  have fresh : ¬Seen lists iterator n c := by
    rintro ⟨k', under_way', seen⟩
    obtain rfl := Option.some.inj (under_way.symm.trans under_way')
    exact once.not_mem_take at_k seen
  have rest (p : ℕ) (thought : (c, p) ∈ thoughts) : p + EVENT_CREATURECOUNT ≤ n := by
    have rested := h.rested c p thought (listOf n) mem fresh
    rwa [next_listOf] at rested
  have seen_iff (d : CreatureId) : Seen lists (some (k + 1)) n d ↔
      d = c ∨ Seen lists iterator n d := by
    have take : (lists (listOf n)).take (k + 1) = (lists (listOf n)).take k ++ [c] := by
      rw [List.take_add_one, at_k]
      rfl
    constructor
    · rintro ⟨k', eq, mem'⟩
      obtain rfl := Option.some.inj eq
      rw [take] at mem'
      rcases List.mem_append.mp mem' with old | new
      · exact Or.inr ⟨k, under_way, old⟩
      · exact Or.inl (List.mem_singleton.mp new)
    · rintro (rfl | ⟨k', under_way', old⟩)
      · refine ⟨k + 1, rfl, ?_⟩
        rw [take]
        exact List.mem_append_right _ (List.mem_singleton_self _)
      · obtain rfl := Option.some.inj (under_way.symm.trans under_way')
        refine ⟨k + 1, rfl, ?_⟩
        rw [take]
        exact List.mem_append_left _ old
  refine ⟨?_, ?_, ?_, ?_, ?_, ?_⟩
  · intro k' eq
    obtain rfl := Option.some.inj eq
    exact lt
  · intro d p thought
    rcases List.mem_cons.mp thought with eq | thought
    · exact (Prod.mk.inj eq).2.le
    · exact h.past d p thought
  · intro d p thought out
    rcases List.mem_cons.mp thought with eq | thought
    · exact absurd mem ((Prod.mk.inj eq).1 ▸ out (listOf n))
    · exact h.away d p thought out
  · intro d p thought i mem' unseen
    rw [seen_iff, not_or] at unseen
    rcases List.mem_cons.mp thought with eq | thought
    · exact absurd (Prod.mk.inj eq).1 unseen.1
    · exact h.rested d p thought i mem' unseen.2
  · intro d seen
    rcases (seen_iff d).mp seen with rfl | seen
    · exact List.mem_cons_self
    · exact List.mem_cons_of_mem _ (h.seen d seen)
  · rw [List.pairwise_cons]
    refine ⟨?_, h.apart⟩
    rintro ⟨d, p⟩ thought eq
    dsimp only at eq ⊢
    subst eq
    exact rest p thought

/-- The next creature is not checked any more, and leaves its list. -/
theorem leave (once : Once lists) (under_way : iterator = some k)
    (at_k : (lists (listOf n))[k]? = some c) :
    Paced (Function.update lists (listOf n) ((lists (listOf n)).eraseIdx k)) iterator n
      thoughts := by
  obtain ⟨lt, get⟩ := List.getElem?_eq_some_iff.mp at_k
  have mem : c ∈ lists (listOf n) := List.mem_of_getElem? at_k
  have unseen : ¬Seen lists iterator n c := by
    rintro ⟨k', under_way', seen⟩
    obtain rfl := Option.some.inj (under_way.symm.trans under_way')
    exact once.not_mem_take at_k seen
  have mem_iff (i : Fin EVENT_CREATURECOUNT) (d : CreatureId) (ne : d ≠ c) :
      d ∈ Function.update lists (listOf n) ((lists (listOf n)).eraseIdx k) i ↔ d ∈ lists i := by
    by_cases eq : i = listOf n
    · subst eq
      have perm := (List.getElem_cons_eraseIdx_perm lt).mem_iff (a := d)
      rw [get, List.mem_cons, or_iff_right ne] at perm
      rw [Function.update_self]
      exact perm
    · rw [Function.update_of_ne eq]
  have seen_iff (d : CreatureId) :
      Seen (Function.update lists (listOf n) ((lists (listOf n)).eraseIdx k)) iterator n d ↔
        Seen lists iterator n d := by
    refine exists_congr fun k' => and_congr_right fun under_way' => ?_
    obtain rfl := Option.some.inj (under_way.symm.trans under_way')
    rw [Function.update_self, List.eraseIdx_eq_take_drop_succ, List.take_append_of_le_length]
    · rw [List.take_take, min_self]
    · rw [List.length_take]
      omega
  have rest (p : ℕ) (thought : (c, p) ∈ thoughts) : p + EVENT_CREATURECOUNT ≤ n := by
    have rested := h.rested c p thought (listOf n) mem unseen
    rwa [next_listOf] at rested
  refine ⟨?_, h.past, ?_, ?_, ?_, h.apart⟩
  · intro k' under_way'
    obtain rfl := Option.some.inj (under_way.symm.trans under_way')
    rw [Function.update_self, List.length_eraseIdx, if_pos lt]
    omega
  · intro d p thought out
    by_cases eq : d = c
    · exact rest p (eq ▸ thought)
    · exact h.away d p thought fun i mem' => out i ((mem_iff i d eq).mpr mem')
  · intro d p thought i mem' unseen'
    by_cases eq : d = c
    · exact (rest p (eq ▸ thought)).trans (le_next n i)
    · rw [seen_iff] at unseen'
      exact h.rested d p thought i ((mem_iff i d eq).mp mem') unseen'
  · intro d seen
    exact h.seen d ((seen_iff d).mp seen)

/-- The pass is over. -/
theorem finish (once : Once lists) (under_way : iterator = some k)
    (at_k : (lists (listOf n))[k]? = none) : Paced lists none (n + 1) thoughts := by
  have all : ∀ c ∈ lists (listOf n), Seen lists iterator n c := by
    intro c mem
    refine ⟨k, under_way, ?_⟩
    rw [List.take_of_length_le (List.getElem?_eq_none_iff.mp at_k)]
    exact mem
  have idle (m : ℕ) (c : CreatureId) : ¬Seen lists none m c := by
    rintro ⟨k', none, -⟩
    cases none
  refine ⟨?_, ?_, ?_, ?_, ?_, h.apart⟩
  · intro k' none
    cases none
  · exact fun c p thought => (h.past c p thought).trans (Nat.le_succ n)
  · exact fun c p thought out => (h.away c p thought out).trans (Nat.le_succ n)
  · intro c p thought i mem _
    by_cases own : i = listOf n
    · rw [own, next_succ_self]
      exact Nat.add_le_add_right (h.past c p thought) _
    · rw [next_succ own]
      refine h.rested c p thought i mem ?_
      rintro ⟨k', -, seen⟩
      exact own (once.eq_of_mem mem (List.mem_of_mem_take seen))
  · exact fun c seen => absurd seen (idle _ c)

end Paced

/-- The rhythm of the game. -/
def Game.Rhythm (g : Game) : Prop :=
  Paced g.checkCreatureLists g.iterator g.passes g.thoughts

theorem Game.Rhythm.pulse (h : g.Rhythm) (once : Once g.checkCreatureLists) (pulse : Pulse g g') :
    g'.Rhythm := by
  have of_heart {lists : Fin EVENT_CREATURECOUNT → List CreatureId} {iterator : Option ℕ} {n : ℕ}
      {thoughts : List (CreatureId × ℕ)} (heart : g'.heart = (lists, iterator, n, thoughts))
      (paced : Paced lists iterator n thoughts) : g'.Rhythm := by
    simp only [Game.heart, Prod.mk.injEq] at heart
    obtain ⟨rfl, rfl, rfl, rfl⟩ := heart
    exact paced
  cases pulse with
  | rest heart => exact of_heart heart h
  | join c bucket unlisted heart =>
      refine of_heart heart (h.join fun i mem => ?_)
      have sum := Finset.single_le_sum (s := Finset.univ)
        (fun j _ => Nat.zero_le ((g.checkCreatureLists j).count c)) (Finset.mem_univ i)
      have here := List.count_pos_iff.mpr mem
      unfold checks at unlisted
      omega
  | start idle heart => exact of_heart heart (h.start idle)
  | think k c under_way at_k heart => exact of_heart heart (h.think once under_way at_k)
  | leave k c under_way at_k heart => exact of_heart heart (h.leave once under_way at_k)
  | finish k under_way at_k heart => exact of_heart heart (h.finish once under_way at_k)

/-- However creatures come and go, none thinks twice within ten passes, and when the iterator
comes to the end of its list everyone there has thought once in this pass. -/
theorem heartbeat_paced {events : List Event}
    (possible : Runs.Allowed step Possible started events) :
    ∃ g, Runs.run step started events = some g ∧
      (g.thoughts.Pairwise fun later earlier =>
        later.1 = earlier.1 → earlier.2 + EVENT_CREATURECOUNT ≤ later.2) ∧
      ∀ k, g.iterator = some k → (g.checkCreatureLists g.index)[k]? = none →
        ∀ c ∈ g.checkCreatureLists g.index, g.thoughts.count (c, g.passes) = 1 := by
  have idle : started.Rhythm := by
    refine ⟨?_, ?_, ?_, ?_, ?_, List.Pairwise.nil⟩
    · exact fun _ none => by cases none
    · exact fun _ _ mem => by cases mem
    · exact fun _ _ mem => by cases mem
    · exact fun _ _ mem => by cases mem
    · rintro _ ⟨k, none, -⟩
      cases none
  obtain ⟨g, run, -, rhythm⟩ := possible.completes (P := fun g => Orderly g [] ∧ g.Rhythm)
    ⟨orderly_started, idle⟩ fun g event holds possible => by
      obtain ⟨g', run, orderly, pulse⟩ := holds.1.step event possible
      exact ⟨g', run, orderly, holds.2.pulse holds.1.sound.once pulse⟩
  refine ⟨g, run, rhythm.apart, ?_⟩
  intro k under_way at_k c mem
  have thought : (c, g.passes) ∈ g.thoughts := by
    refine rhythm.seen c ⟨k, under_way, ?_⟩
    rw [index] at at_k mem
    rw [List.take_of_length_le (List.getElem?_eq_none_iff.mp at_k)]
    exact mem
  have nodup : g.thoughts.Nodup := by
    apply rhythm.apart.imp
    intro later earlier apart eq
    have gap := apart (congrArg Prod.fst eq)
    rw [eq] at gap
    have := eventCreatureCount_pos
    omega
  apply le_antisymm
  · exact List.nodup_iff_count_le_one.mp nodup _
  · exact List.count_pos_iff.mpr thought

namespace Sample

/-- A monster thinks in the first pass, and another that came into its list meanwhile. -/
def monsters : List Event :=
  [.create, .internalPlaceCreature 0, .addCreatureCheck 0 (listOf 0), .create, .internalPlaceCreature 1,
    .checkCreatures, .visit, .addCreatureCheck 1 (listOf 0), .visit]

theorem monsters_paced : ∃ g, Runs.run step started monsters = some g ∧
    (g.thoughts.Pairwise fun later earlier =>
      later.1 = earlier.1 → earlier.2 + EVENT_CREATURECOUNT ≤ later.2) ∧
    ∀ k, g.iterator = some k → (g.checkCreatureLists g.index)[k]? = none →
      ∀ c ∈ g.checkCreatureLists g.index, g.thoughts.count (c, g.passes) = 1 :=
  heartbeat_paced (Runs.Allowed.of_check (by decide))

example : (Runs.run step started monsters).map Game.thoughts = some [(1, 0), (0, 0)] := by decide

end Sample

end TibServer.CreatureReferences
