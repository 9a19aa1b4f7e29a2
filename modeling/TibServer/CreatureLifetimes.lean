import TibServer.CreatureReferences

/-!
What the counters of the creatures count. A call that still has to give up a reference stands in
the list of pending jobs, so that the counters are right after every single call and not only
between the events.
-/

namespace TibServer.CreatureReferences

open Game

variable {g g' : Game} {jobs jobs' : List Job} {c d m s : CreatureId} {x y z : Creature}

/-! ### Writing one creature -/

namespace Game

@[simp] theorem creatures_set (g : Game) (c : CreatureId) (x : Creature) :
    (g.set c x).creatures = Function.update g.creatures c (some x) := rfl

@[simp] theorem creatures_free (g : Game) (c : CreatureId) :
    (g.free c).creatures = Function.update g.creatures c none := rfl

theorem creatures_set_self (g : Game) (c : CreatureId) (x : Creature) :
    (g.set c x).creatures c = some x := Function.update_self ..

theorem creatures_set_ne (g : Game) (x : Creature) (h : d ≠ c) :
    (g.set c x).creatures d = g.creatures d := Function.update_of_ne h ..

theorem creatures_free_self (g : Game) (c : CreatureId) : (g.free c).creatures c = none :=
  Function.update_self ..

theorem creatures_free_ne (g : Game) (h : d ≠ c) : (g.free c).creatures d = g.creatures d :=
  Function.update_of_ne h ..

/-- A sum over the creatures, when one of them changes. -/
theorem sum_update (f : Option Creature → ℕ) {n : ℕ} (hc : c < n)
    (creatures : CreatureId → Option Creature) (v : Option Creature) :
    (∑ m ∈ Finset.range n, f (Function.update creatures c v m)) + f (creatures c) =
      (∑ m ∈ Finset.range n, f (creatures m)) + f v := by
  have mem : c ∈ Finset.range n := Finset.mem_range.mpr hc
  have same : (∑ m ∈ (Finset.range n).erase c, f (Function.update creatures c v m)) =
      ∑ m ∈ (Finset.range n).erase c, f (creatures m) := by
    apply Finset.sum_congr rfl
    intro m hm
    rw [Function.update_of_ne (Finset.ne_of_mem_erase hm)]
  have changed := Finset.add_sum_erase (Finset.range n)
    (fun m => f (Function.update creatures c v m)) mem
  have before := Finset.add_sum_erase (Finset.range n) (fun m => f (creatures m)) mem
  simp only [Function.update_self, same] at changed before
  omega

theorem linked_set (hc : c < g.allocated) (x : Creature) (d : CreatureId) :
    (g.set c x).linked d + links d (g.creatures c) = g.linked d + links d (some x) :=
  sum_update (links d) hc g.creatures (some x)

theorem linked_free (hc : c < g.allocated) (d : CreatureId) :
    (g.free c).linked d + links d (g.creatures c) = g.linked d :=
  sum_update (links d) hc g.creatures none

/-- Only the lists of targets and friends count for other creatures. -/
theorem others_set (hc : c < g.allocated) (hx : g.creatures c = some x) (z : Creature)
    (d : CreatureId) :
    (g.set c z).others d + links d (some x) = g.others d + links d (some z) := by
  have linked := linked_set hc z d
  rw [hx] at linked
  have checks : (g.set c z).checks d = g.checks d := rfl
  have releases : (g.set c z).ToReleaseCreatures = g.ToReleaseCreatures := rfl
  have holders : (g.set c z).holders = g.holders := rfl
  unfold others
  rw [checks, releases, holders]
  omega

end Game

/-! ### The counters -/

theorem own_placed (x : Creature) (h : x.placed = false) (new : x.isInternalRemoved = false) :
    own { x with placed := true } = own x + 1 := by
  simp only [own, Creature.onMap, h, new]
  simp
  omega

theorem own_removed (x : Creature) (h : x.onMap = true) :
    own x = own { x with isInternalRemoved := true } + 1 := by
  have map : ({ x with isInternalRemoved := true } : Creature).onMap = false := by
    simp [Creature.onMap]
  simp only [own, h, map]
  simp
  omega

/-- A master is worth a reference. -/
theorem own_master (x : Creature) (master : Option CreatureId) :
    own { x with master := master } + (if x.master.isSome then 1 else 0) =
      own x + (if master.isSome then 1 else 0) := by
  simp only [own]
  have same : ({ x with master := master } : Creature).onMap = x.onMap := rfl
  rw [same]
  omega

/-- The references that calls under way still give up. -/
def pending (jobs : List Job) (d : CreatureId) : ℕ := jobs.count (.decrement d)

@[simp] theorem pending_nil : pending [] d = 0 := rfl

@[simp] theorem pending_decrement_self : pending (.decrement d :: jobs) d = pending jobs d + 1 :=
  List.count_cons_self

theorem pending_decrement_ne (h : d ≠ c) :
    pending (.decrement c :: jobs) d = pending jobs d := by
  apply List.count_cons_of_ne
  intro eq
  exact h (Job.decrement.inj eq).symm

@[simp] theorem pending_removeMaster : pending (.removeMaster s :: jobs) d = pending jobs d := by
  apply List.count_cons_of_ne
  intro eq
  cases eq

theorem pending_append : pending (jobs ++ jobs') d = pending jobs d + pending jobs' d :=
  List.count_append

@[simp] theorem pending_map_decrement (l : List CreatureId) :
    pending (l.map .decrement) d = l.count d :=
  List.count_map_of_injective l _ (fun _ _ eq => Job.decrement.inj eq) d

@[simp] theorem pending_map_removeMaster (l : List CreatureId) :
    pending (l.map .removeMaster) d = 0 := by
  apply List.count_eq_zero_of_not_mem
  intro mem
  obtain ⟨s, -, eq⟩ := List.mem_map.mp mem
  cases eq

theorem pending_destructor (x : Creature) :
    pending (destructor x) d = links d (some x) := by
  simp only [destructor, pending_append, pending_map_decrement, pending_map_removeMaster, links,
    Nat.add_zero]

/-- The counters count the references, those included that calls under way give up. -/
structure Counted (g : Game) (jobs : List Job) : Prop where
  bound : ∀ c x, g.creatures c = some x → c < g.allocated
  counter : ∀ c x, g.creatures c = some x →
    x.referenceCounter = own x + g.others c + pending jobs c
  gone : ∀ c, g.creatures c = none → g.others c + pending jobs c = 0
  kept : ∀ c x, g.creatures c = some x → x.placed = true → 0 < x.referenceCounter
  listed : ∀ c x, g.creatures c = some x →
    g.checks c = if x.inCheckCreaturesVector then 1 else 0

namespace Counted

theorem alive (h : Counted g jobs) (referred : 0 < g.others c + pending jobs c) :
    ∃ x, g.creatures c = some x := by
  cases hx : g.creatures c with
  | none => exact absurd (h.gone c hx) (by omega)
  | some x => exact ⟨x, rfl⟩

/-- One creature changes, and with it what it refers to. -/
theorem rewrite (h : Counted g jobs) (hx : g.creatures c = some x)
    (flag : z.inCheckCreaturesVector = x.inCheckCreaturesVector)
    (kept : z.placed = true → 0 < z.referenceCounter)
    (counter : z.referenceCounter + own x + links c (some x) + pending jobs c =
      x.referenceCounter + own z + links c (some z) + pending jobs' c)
    (balance : ∀ d, d ≠ c → links d (some z) + pending jobs' d =
      links d (some x) + pending jobs d) : Counted (g.set c z) jobs' := by
  have hc := h.bound c x hx
  have others := others_set hc hx z
  refine ⟨?_, ?_, ?_, ?_, ?_⟩
  · intro d w hw
    by_cases eq : d = c
    · exact eq ▸ hc
    · rw [creatures_set_ne g z eq] at hw
      exact h.bound d w hw
  · intro d w hw
    have others := others d
    by_cases eq : d = c
    · subst eq
      rw [creatures_set_self] at hw
      obtain rfl := Option.some.inj hw
      have := h.counter d x hx
      omega
    · rw [creatures_set_ne g z eq] at hw
      have := h.counter d w hw
      have := balance d eq
      omega
  · intro d hd
    have ne : d ≠ c := by
      rintro rfl
      rw [creatures_set_self] at hd
      cases hd
    rw [creatures_set_ne g z ne] at hd
    have := h.gone d hd
    have := balance d ne
    have := others d
    omega
  · intro d w hw placed
    by_cases eq : d = c
    · subst eq
      rw [creatures_set_self] at hw
      obtain rfl := Option.some.inj hw
      exact kept placed
    · rw [creatures_set_ne g z eq] at hw
      exact h.kept d w hw placed
  · intro d w hw
    by_cases eq : d = c
    · subst eq
      rw [creatures_set_self] at hw
      obtain rfl := Option.some.inj hw
      rw [flag]
      exact h.listed d x hx
    · rw [creatures_set_ne g z eq] at hw
      exact h.listed d w hw

/-- Its counter changes with what refers to it. -/
theorem set (h : Counted g jobs) (hx : g.creatures c = some x)
    (targets : z.targetList = x.targetList) (friends : z.friendList = x.friendList)
    (flag : z.inCheckCreaturesVector = x.inCheckCreaturesVector)
    (counter : z.referenceCounter + own x + pending jobs c =
      x.referenceCounter + own z + pending jobs' c)
    (kept : z.placed = true → 0 < z.referenceCounter)
    (same : ∀ d, d ≠ c → pending jobs' d = pending jobs d) : Counted (g.set c z) jobs' := by
  have links (d : CreatureId) : links d (some z) = links d (some x) := by
    simp only [Game.links, targets, friends]
  refine h.rewrite hx flag kept ?_ ?_
  · rw [links]
    omega
  · intro d ne
    rw [links, same d ne]

/-- References change hands. -/
theorem transfer (h : Counted g jobs) (creatures : g'.creatures = g.creatures)
    (allocated : g'.allocated = g.allocated) (checks : ∀ d, g'.checks d = g.checks d)
    (balance : ∀ d, g'.others d + pending jobs' d = g.others d + pending jobs d) :
    Counted g' jobs' := by
  refine ⟨?_, ?_, ?_, ?_, ?_⟩
  · rw [creatures, allocated]
    exact h.bound
  · intro d w hw
    rw [creatures] at hw
    have := h.counter d w hw
    have := balance d
    omega
  · intro d hd
    rw [creatures] at hd
    rw [balance]
    exact h.gone d hd
  · rw [creatures]
    exact h.kept
  · intro d w hw
    rw [creatures] at hw
    rw [checks]
    exact h.listed d w hw

/-- Nothing refers to the creature any more: what it referred to is to be given up. -/
theorem free (h : Counted g jobs) (hx : g.creatures c = some x)
    (unreferred : g.others c + pending jobs' c = 0)
    (same : ∀ d, d ≠ c → pending jobs' d = pending jobs d) :
    Counted (g.free c) (destructor x ++ jobs') := by
  have hc := h.bound c x hx
  have balance (d : CreatureId) :
      (g.free c).others d + pending (destructor x ++ jobs') d = g.others d + pending jobs' d := by
    have linked := linked_free hc d
    rw [hx] at linked
    rw [pending_append, pending_destructor]
    have checks : (g.free c).checks d = g.checks d := rfl
    have releases : (g.free c).ToReleaseCreatures = g.ToReleaseCreatures := rfl
    have holders : (g.free c).holders = g.holders := rfl
    unfold others
    rw [checks, releases, holders]
    omega
  have older {d : CreatureId} {z : Creature} (hz : (g.free c).creatures d = some z) :
      d ≠ c ∧ g.creatures d = some z := by
    have ne : d ≠ c := by
      rintro rfl
      rw [creatures_free_self] at hz
      cases hz
    rw [creatures_free_ne g ne] at hz
    exact ⟨ne, hz⟩
  refine ⟨?_, ?_, ?_, ?_, ?_⟩
  · intro d z hz
    exact h.bound d z (older hz).2
  · intro d z hz
    have counter := h.counter d z (older hz).2
    have := balance d
    rw [same d (older hz).1] at this
    omega
  · intro d hd
    rw [balance]
    by_cases eq : d = c
    · rw [eq]
      exact unreferred
    · rw [creatures_free_ne g eq] at hd
      rw [same d eq]
      exact h.gone d hd
  · intro d z hz
    exact h.kept d z (older hz).2
  · intro d z hz
    exact h.listed d z (older hz).2

end Counted

/-! ### Masters and summons -/

namespace Game

def summonsOf (g : Game) (m : CreatureId) : List CreatureId :=
  (g.creatures m).elim [] Creature.summons

def masterOf (g : Game) (s : CreatureId) : Option CreatureId :=
  (g.creatures s).bind Creature.master

theorem summonsOf_eq (hx : g.creatures c = some x) : g.summonsOf c = x.summons := by
  rw [summonsOf, hx, Option.elim_some]

theorem masterOf_eq (hx : g.creatures c = some x) : g.masterOf c = x.master := by
  rw [masterOf, hx, Option.bind_some]

theorem alive_of_masterOf (h : g.masterOf s = some m) : ∃ x, g.creatures s = some x := by
  obtain ⟨x, hx, -⟩ := Option.bind_eq_some_iff.mp h
  exact ⟨x, hx⟩

theorem summonsOf_set (g : Game) (c : CreatureId) (x : Creature) :
    (g.set c x).summonsOf = Function.update g.summonsOf c x.summons := by
  ext1 m
  by_cases eq : m = c
  · subst eq
    rw [Function.update_self, summonsOf_eq (creatures_set_self ..)]
  · rw [Function.update_of_ne eq, summonsOf, creatures_set_ne g x eq]
    rfl

theorem masterOf_set (g : Game) (c : CreatureId) (x : Creature) :
    (g.set c x).masterOf = Function.update g.masterOf c x.master := by
  ext1 m
  by_cases eq : m = c
  · subst eq
    rw [Function.update_self, masterOf_eq (creatures_set_self ..)]
  · rw [Function.update_of_ne eq, masterOf, creatures_set_ne g x eq]
    rfl

theorem summonsOf_free (g : Game) (c : CreatureId) :
    (g.free c).summonsOf = Function.update g.summonsOf c [] := by
  ext1 m
  by_cases eq : m = c
  · subst eq
    rw [Function.update_self, summonsOf, creatures_free_self, Option.elim_none]
  · rw [Function.update_of_ne eq, summonsOf, creatures_free_ne g eq]
    rfl

theorem masterOf_free (g : Game) (c : CreatureId) :
    (g.free c).masterOf = Function.update g.masterOf c none := by
  ext1 m
  by_cases eq : m = c
  · subst eq
    rw [Function.update_self, masterOf, creatures_free_self, Option.bind_none]
  · rw [Function.update_of_ne eq, masterOf, creatures_free_ne g eq]
    rfl

end Game

/-- A creature is among the summons of its master, until the call is made that takes its master
away. -/
structure Mastered (summonsOf : CreatureId → List CreatureId)
    (masterOf : CreatureId → Option CreatureId) (jobs : List Job) : Prop where
  summons : ∀ m, ∀ s ∈ summonsOf m, masterOf s = some m
  nodup : ∀ m, (summonsOf m).Nodup
  master : ∀ s m, masterOf s = some m → .removeMaster s ∈ jobs ∨ s ∈ summonsOf m
  orphan : ∀ s, .removeMaster s ∈ jobs → ∃ m, masterOf s = some m ∧ s ∉ summonsOf m
  once : ∀ s, jobs.count (.removeMaster s) ≤ 1

namespace Mastered

variable {S : CreatureId → List CreatureId} {M : CreatureId → Option CreatureId}

theorem of_decrement (h : Mastered S M (.decrement c :: jobs)) : Mastered S M jobs := by
  refine ⟨h.summons, h.nodup, ?_, ?_, ?_⟩
  · intro s m hs
    rcases h.master s m hs with job | summon
    · rcases List.mem_cons.mp job with eq | job
      · cases eq
      · exact Or.inl job
    · exact Or.inr summon
  · intro s job
    exact h.orphan s (List.mem_cons_of_mem _ job)
  · intro s
    exact (List.count_le_count_cons ..).trans (h.once s)

theorem decrement (h : Mastered S M jobs) (c : CreatureId) :
    Mastered S M (.decrement c :: jobs) := by
  refine ⟨h.summons, h.nodup, ?_, ?_, ?_⟩
  · intro s m hs
    exact (h.master s m hs).imp_left (List.mem_cons_of_mem _)
  · intro s job
    rcases List.mem_cons.mp job with eq | job
    · cases eq
    · exact h.orphan s job
  · intro s
    rw [List.count_cons_of_ne (by simp)]
    exact h.once s

/-- References to be given up are no matter. -/
theorem of_nil (h : Mastered S M []) (decrements : ∀ s, .removeMaster s ∉ jobs) :
    Mastered S M jobs := by
  refine ⟨h.summons, h.nodup, ?_, ?_, ?_⟩
  · exact fun s m hs => Or.inr ((h.master s m hs).resolve_left List.not_mem_nil)
  · exact fun s job => absurd job (decrements s)
  · intro s
    rw [List.count_eq_zero_of_not_mem (decrements s)]
    exact Nat.zero_le 1

/-- `removeMaster` of a summon. -/
theorem of_removeMaster (h : Mastered S M (.removeMaster s :: jobs)) :
    Mastered S (Function.update M s none) jobs := by
  obtain ⟨m, hm, unlisted⟩ := h.orphan s List.mem_cons_self
  have once := h.once s
  rw [List.count_cons_self] at once
  have last : .removeMaster s ∉ jobs := by
    intro job
    have := List.count_pos_iff.mpr job
    omega
  refine ⟨?_, h.nodup, ?_, ?_, ?_⟩
  · intro m' s' mem
    have master := h.summons m' s' mem
    have ne : s' ≠ s := by
      rintro rfl
      rw [hm] at master
      exact unlisted (Option.some.inj master ▸ mem)
    rw [Function.update_of_ne ne]
    exact master
  · intro s' m' hs
    by_cases eq : s' = s
    · subst eq
      rw [Function.update_self] at hs
      cases hs
    · rw [Function.update_of_ne eq] at hs
      rcases h.master s' m' hs with job | summon
      · rcases List.mem_cons.mp job with same | job
        · exact absurd (Job.removeMaster.inj same) eq
        · exact Or.inl job
      · exact Or.inr summon
  · intro s' job
    have ne : s' ≠ s := by
      rintro rfl
      exact last job
    rw [Function.update_of_ne ne]
    exact h.orphan s' (List.mem_cons_of_mem _ job)
  · intro s'
    exact (List.count_le_count_cons ..).trans (h.once s')

/-- A creature goes, or lets its summons go; their masters are to be taken away. -/
theorem release (h : Mastered S M jobs) (c : CreatureId) (rest : List Job)
    (decrements : ∀ s, .removeMaster s ∉ rest) :
    Mastered (Function.update S c []) M (rest ++ (S c).map .removeMaster ++ jobs) := by
  have jobs_iff (s : CreatureId) : .removeMaster s ∈ rest ++ (S c).map .removeMaster ++ jobs ↔
      s ∈ S c ∨ .removeMaster s ∈ jobs := by
    simp [decrements]
  refine ⟨?_, ?_, ?_, ?_, ?_⟩
  · intro m s mem
    by_cases eq : m = c
    · subst eq
      rw [Function.update_self] at mem
      cases mem
    · rw [Function.update_of_ne eq] at mem
      exact h.summons m s mem
  · intro m
    by_cases eq : m = c
    · subst eq
      rw [Function.update_self]
      exact List.nodup_nil
    · rw [Function.update_of_ne eq]
      exact h.nodup m
  · intro s m hs
    rw [jobs_iff]
    rcases h.master s m hs with job | summon
    · exact Or.inl (Or.inr job)
    · by_cases eq : m = c
      · exact Or.inl (Or.inl (eq ▸ summon))
      · rw [Function.update_of_ne eq]
        exact Or.inr summon
  · intro s job
    rcases (jobs_iff s).mp job with summon | job
    · refine ⟨c, h.summons c s summon, ?_⟩
      rw [Function.update_self]
      exact List.not_mem_nil
    · obtain ⟨m, hm, unlisted⟩ := h.orphan s job
      refine ⟨m, hm, ?_⟩
      by_cases eq : m = c
      · subst eq
        rw [Function.update_self]
        exact List.not_mem_nil
      · rw [Function.update_of_ne eq]
        exact unlisted
  · intro s
    have none : rest.count (.removeMaster s) = 0 := List.count_eq_zero_of_not_mem (decrements s)
    rw [List.count_append, List.count_append, none,
      List.count_map_of_injective (S c) _ (fun _ _ eq => Job.removeMaster.inj eq) s]
    have first := List.nodup_iff_count_le_one.mp (h.nodup c) s
    have later := h.once s
    by_cases mem : s ∈ S c
    · have not_job : .removeMaster s ∉ jobs := by
        intro job
        obtain ⟨m, hm, unlisted⟩ := h.orphan s job
        rw [h.summons c s mem] at hm
        exact unlisted (Option.some.inj hm ▸ mem)
      have := List.count_eq_zero_of_not_mem not_job
      omega
    · have := List.count_eq_zero_of_not_mem mem
      omega

/-- A new master gets the summon, and the old one loses it. -/
theorem setMaster (h : Mastered S M []) (c : CreatureId) (newMaster oldMaster : Option CreatureId)
    (old : M c = oldMaster) {S' : CreatureId → List CreatureId}
    (added : ∀ m, S' m = if oldMaster = some m then
        (if newMaster = some m then S m ++ [c] else S m).erase c
      else if newMaster = some m then S m ++ [c] else S m) :
    Mastered S' (Function.update M c newMaster) [] := by
  have mem_iff (m s : CreatureId) : s ∈ S' m ↔ if s = c then newMaster = some m else s ∈ S m := by
    have listed : c ∈ S m ↔ oldMaster = some m := by
      rw [← old]
      exact ⟨h.summons m c, fun hm => (h.master c m hm).resolve_left List.not_mem_nil⟩
    have nodup := h.nodup m
    rw [added]
    by_cases was : oldMaster = some m <;> by_cases becomes : newMaster = some m <;>
      by_cases eq : s = c <;>
      simp [was, becomes, eq, listed, List.erase_append, nodup.mem_erase_iff]
  refine ⟨?_, ?_, ?_, ?_, ?_⟩
  · intro m s mem
    have := (mem_iff m s).mp mem
    split_ifs at this with eq
    · rw [eq, Function.update_self]
      exact this
    · rw [Function.update_of_ne eq]
      exact h.summons m s this
  · intro m
    have listed : c ∈ S m ↔ oldMaster = some m := by
      rw [← old]
      exact ⟨h.summons m c, fun hm => (h.master c m hm).resolve_left List.not_mem_nil⟩
    have nodup := h.nodup m
    rw [added]
    split_ifs with was becomes becomes
    · rw [List.erase_append, if_pos (listed.mpr was), List.nodup_append]
      refine ⟨nodup.erase c, List.nodup_singleton c, ?_⟩
      intro a ha b hb
      rw [List.mem_singleton.mp hb]
      rintro rfl
      exact (nodup.mem_erase_iff.mp ha).1 rfl
    · exact nodup.erase c
    · rw [List.nodup_append]
      refine ⟨nodup, List.nodup_singleton c, ?_⟩
      intro a ha b hb
      rw [List.mem_singleton.mp hb]
      rintro rfl
      exact was (listed.mp ha)
    · exact nodup
  · intro s m hs
    right
    rw [mem_iff]
    split_ifs with eq
    · rw [eq, Function.update_self] at hs
      exact hs
    · rw [Function.update_of_ne eq] at hs
      exact (h.master s m hs).resolve_left List.not_mem_nil
  · intro s job
    cases job
  · intro s
    exact Nat.zero_le 1

end Mastered

/-! ### The calls under way -/

/-- The counters are right, and the summons have their masters; what has a master or was removed
has been placed. -/
structure Orderly (g : Game) (jobs : List Job) : Prop where
  counted : Counted g jobs
  mastered : Mastered g.summonsOf g.masterOf jobs
  standing : ∀ c x, g.creatures c = some x → x.master.isSome = true ∨ x.isInternalRemoved = true →
    x.placed = true

/-- What giving up references changes: counters and masters, and what goes stood on no tile. -/
structure Settles (g g' : Game) : Prop where
  rest : g' = { g with creatures := g'.creatures }
  kin : ∀ c x', g'.creatures c = some x' → ∃ x, g.creatures c = some x ∧
    x' = { x with referenceCounter := x'.referenceCounter, master := x'.master }
  stays : ∀ c x, g.creatures c = some x → x.onMap = true → ∃ x', g'.creatures c = some x'

namespace Settles

theorem refl (g : Game) : Settles g g :=
  ⟨rfl, fun _ x' hx => ⟨x', hx, rfl⟩, fun _ x hx _ => ⟨x, hx⟩⟩

theorem trans {g'' : Game} (h : Settles g g') (h' : Settles g' g'') : Settles g g'' := by
  refine ⟨?_, ?_, ?_⟩
  · refine h'.rest.trans ?_
    rw [h.rest]
  · intro c x'' hx''
    obtain ⟨x', hx', eq'⟩ := h'.kin c x'' hx''
    obtain ⟨x, hx, eq⟩ := h.kin c x' hx'
    refine ⟨x, hx, ?_⟩
    rw [eq', eq]
  · intro c x hx map
    obtain ⟨x', hx'⟩ := h.stays c x hx map
    obtain ⟨y, hy, eq⟩ := h.kin c x' hx'
    obtain rfl := Option.some.inj (hx.symm.trans hy)
    refine h'.stays c x' hx' ?_
    rw [eq]
    exact map

theorem set (hx : g.creatures c = some x)
    (eq : z = { x with referenceCounter := z.referenceCounter, master := z.master }) :
    Settles g (g.set c z) := by
  refine ⟨rfl, ?_, ?_⟩
  · intro d w hw
    by_cases same : d = c
    · subst same
      rw [creatures_set_self] at hw
      obtain rfl := Option.some.inj hw
      exact ⟨x, hx, eq⟩
    · rw [creatures_set_ne g z same] at hw
      exact ⟨w, hw, rfl⟩
  · intro d w hw _
    by_cases same : d = c
    · exact ⟨z, same ▸ creatures_set_self ..⟩
    · exact ⟨w, (creatures_set_ne g z same).trans hw⟩

theorem free (hx : g.creatures c = some x) (off : x.onMap = false) : Settles g (g.free c) := by
  refine ⟨rfl, ?_, ?_⟩
  · intro d z hz
    have ne : d ≠ c := by
      rintro rfl
      rw [creatures_free_self] at hz
      cases hz
    rw [creatures_free_ne g ne] at hz
    exact ⟨z, hz, rfl⟩
  · intro d z hz map
    have ne : d ≠ c := by
      rintro rfl
      obtain rfl := Option.some.inj (hx.symm.trans hz)
      rw [off] at map
      cases map
    exact ⟨z, (creatures_free_ne g ne).trans hz⟩

end Settles

theorem weight_cons (g : Game) (job : Job) (jobs : List Job) :
    g.weight (job :: jobs) = g.weight jobs + job.weight := by
  simp only [weight, List.map_cons, List.sum_cons]
  omega

theorem weight_destructor (g : Game) (x : Creature) (jobs : List Job) :
    g.weight (destructor x ++ jobs) = g.weight jobs + load (some x) := by
  have decrements (l : List CreatureId) :
      ((l.map Job.decrement).map Job.weight).sum = l.length := by
    rw [List.map_map]
    induction l with
    | nil => rfl
    | cons c l ih => simp only [List.map_cons, List.sum_cons, ih, Function.comp_apply, Job.weight,
        List.length_cons, Nat.add_comm]
  have masters (l : List CreatureId) :
      ((l.map Job.removeMaster).map Job.weight).sum = 2 * l.length := by
    rw [List.map_map]
    induction l with
    | nil => rfl
    | cons c l ih =>
        simp only [List.map_cons, List.sum_cons, ih, Function.comp_apply, Job.weight,
          List.length_cons]
        omega
  simp only [weight, destructor, List.map_append, List.sum_append, decrements, masters, load]
  omega

theorem weight_set (hc : c < g.allocated) (hx : g.creatures c = some x)
    (targets : z.targetList = x.targetList) (friends : z.friendList = x.friendList)
    (summons : z.summons = x.summons) : (g.set c z).weight jobs = g.weight jobs := by
  have sum := sum_update load hc g.creatures (some z)
  rw [hx] at sum
  simp only [load, targets, friends, summons] at sum
  have same : (∑ d ∈ Finset.range g.allocated, load ((g.set c z).creatures d)) =
      ∑ d ∈ Finset.range g.allocated, load (g.creatures d) := by
    rw [creatures_set]
    simp only [load] at sum ⊢
    omega
  exact congrArg (· + (jobs.map Job.weight).sum) same

theorem weight_free (hc : c < g.allocated) (hx : g.creatures c = some x) (jobs : List Job) :
    (g.free c).weight jobs + load (some x) = g.weight jobs := by
  have sum := sum_update load hc g.creatures none
  rw [hx] at sum
  have none : load none = 0 := rfl
  have same : (g.free c).allocated = g.allocated := rfl
  unfold weight
  rw [creatures_free, same]
  omega

namespace Orderly

theorem standing_set (h : Orderly g jobs)
    (placed : z.master.isSome = true ∨ z.isInternalRemoved = true → z.placed = true)
    (d : CreatureId) (w : Creature) (hw : (g.set c z).creatures d = some w) :
    w.master.isSome = true ∨ w.isInternalRemoved = true → w.placed = true := by
  by_cases eq : d = c
  · subst eq
    rw [creatures_set_self] at hw
    obtain rfl := Option.some.inj hw
    exact placed
  · rw [creatures_set_ne g z eq] at hw
    exact h.standing d w hw

/-- A reference goes that is not the last one. -/
theorem decrement (h : Orderly g (.decrement c :: jobs)) (hx : g.creatures c = some x) {n : ℕ}
    (hn : x.referenceCounter = n + 2) :
    Orderly (g.set c { x with referenceCounter := n + 1 }) jobs := by
  refine ⟨?_, ?_, h.standing_set (h.standing c x hx)⟩
  · apply h.counted.set (z := { x with referenceCounter := n + 1 }) hx rfl rfl rfl
    · have same : own { x with referenceCounter := n + 1 } = own x := rfl
      rw [pending_decrement_self, hn, same]
      dsimp only
      omega
    · exact fun _ => Nat.succ_pos n
    · exact fun d ne => (pending_decrement_ne ne).symm
  · rw [summonsOf_set, masterOf_set]
    simp only
    rw [← summonsOf_eq hx, ← masterOf_eq hx, Function.update_eq_self, Function.update_eq_self]
    exact h.mastered.of_decrement

/-- The last reference goes, and the creature with it. -/
theorem delete (h : Orderly g (.decrement c :: jobs)) (hx : g.creatures c = some x)
    (last : x.referenceCounter = 1) :
    x.onMap = false ∧ Orderly (g.free c) (destructor x ++ jobs) := by
  have counter := h.counted.counter c x hx
  rw [last, pending_decrement_self] at counter
  have nothing : own x = 0 := by omega
  have off : x.onMap = false := by
    by_contra on
    rw [Bool.not_eq_false] at on
    simp [own, on] at nothing
  have alone : x.master = none := by
    cases hm : x.master with
    | none => rfl
    | some m => simp [own, hm] at nothing
  refine ⟨off, ?_, ?_, ?_⟩
  · exact h.counted.free hx (by omega) fun d ne => (pending_decrement_ne ne).symm
  · rw [summonsOf_free, masterOf_free, ← alone, ← masterOf_eq hx, Function.update_eq_self,
      destructor, ← summonsOf_eq hx]
    apply h.mastered.of_decrement.release
    simp
  · intro d w hw
    have ne : d ≠ c := by
      rintro rfl
      rw [creatures_free_self] at hw
      cases hw
    rw [creatures_free_ne g ne] at hw
    exact h.standing d w hw

/-- A summon loses its master. -/
theorem removeMaster (h : Orderly g (.removeMaster s :: jobs)) :
    ∃ x, g.creatures s = some x ∧ x.master.isSome = true ∧
      Orderly (g.set s { x with master := none }) (.decrement s :: jobs) := by
  obtain ⟨m, hm, -⟩ := h.mastered.orphan s List.mem_cons_self
  obtain ⟨x, hx⟩ := alive_of_masterOf hm
  rw [masterOf_eq hx] at hm
  refine ⟨x, hx, by rw [hm, Option.isSome_some], ?_, ?_, h.standing_set ?_⟩
  · apply h.counted.set (z := { x with master := none }) hx rfl rfl rfl
    · have less := own_master x none
      rw [hm] at less
      simp only [Option.isSome_some, Option.isSome_none, Bool.false_eq_true, if_true,
        if_false] at less
      rw [pending_decrement_self, pending_removeMaster]
      dsimp only
      omega
    · exact h.counted.kept s x hx
    · intro d ne
      rw [pending_decrement_ne ne, pending_removeMaster]
  · rw [summonsOf_set, masterOf_set]
    simp only
    rw [← summonsOf_eq hx, Function.update_eq_self]
    exact h.mastered.of_removeMaster.decrement s
  · exact fun _ => h.standing s x hx (Or.inl (by rw [hm, Option.isSome_some]))

/-- No call under way meets a creature that is gone, and all of them come to an end. -/
theorem settle {n : ℕ} (h : Orderly g jobs) (fuel : g.weight jobs ≤ n) :
    ∃ g', Game.settle n jobs g = some g' ∧ Orderly g' [] ∧ Settles g g' := by
  induction n generalizing g jobs with
  | zero =>
      cases jobs with
      | nil => exact ⟨g, rfl, h, Settles.refl g⟩
      | cons job jobs =>
          rw [weight_cons] at fuel
          cases job with
          | decrement c => exact absurd fuel (by simp [Job.weight])
          | removeMaster s => exact absurd fuel (by simp [Job.weight])
  | succ n ih =>
      cases jobs with
      | nil => exact ⟨g, rfl, h, Settles.refl g⟩
      | cons job jobs =>
          rw [weight_cons] at fuel
          cases job with
          | decrement c =>
              simp only [Job.weight] at fuel
              obtain ⟨x, hx⟩ := h.counted.alive (c := c) (by
                rw [pending_decrement_self]
                omega)
              have hc := h.counted.bound c x hx
              have counter := h.counted.counter c x hx
              rw [pending_decrement_self] at counter
              obtain last | ⟨k, more⟩ :
                  x.referenceCounter = 1 ∨ ∃ k, x.referenceCounter = k + 2 := by
                rcases hn : x.referenceCounter with _ | _ | k
                · omega
                · exact Or.inl rfl
                · exact Or.inr ⟨k, rfl⟩
              · obtain ⟨off, left⟩ := h.delete hx last
                have weight := weight_free hc hx jobs
                obtain ⟨g', run, orderly, settles⟩ := ih left (by
                  rw [weight_destructor]
                  omega)
                refine ⟨g', ?_, orderly, (Settles.free hx off).trans settles⟩
                simp only [Game.settle, hx, Option.bind_eq_bind, Option.bind_some, last]
                exact run
              · have left := h.decrement hx more
                obtain ⟨g', run, orderly, settles⟩ := ih left (by
                  rw [weight_set (z := { x with referenceCounter := k + 1 }) hc hx rfl rfl rfl]
                  omega)
                refine ⟨g', ?_, orderly, (Settles.set hx rfl).trans settles⟩
                simp only [Game.settle, hx, Option.bind_eq_bind, Option.bind_some, more]
                exact run
          | removeMaster s =>
              simp only [Job.weight] at fuel
              obtain ⟨x, hx, master, left⟩ := h.removeMaster
              obtain ⟨g', run, orderly, settles⟩ := ih left (by
                rw [weight_set (z := { x with master := none }) (h.counted.bound s x hx) hx rfl rfl
                  rfl, weight_cons]
                simp only [Job.weight]
                omega)
              refine ⟨g', ?_, orderly, (Settles.set hx rfl).trans settles⟩
              simp only [Game.settle, hx, Option.bind_eq_bind, Option.bind_some, master, if_true]
              exact run

theorem perform (h : Orderly g jobs) :
    ∃ g', Game.perform jobs g = some g' ∧ Orderly g' [] ∧ Settles g g' :=
  h.settle le_rfl

end Orderly

end TibServer.CreatureReferences
