import Mathlib.Algebra.BigOperators.Pi
import Mathlib.Algebra.BigOperators.Fin
import Mathlib.Algebra.Group.Prod
import Mathlib.Tactic.Abel
import TibServer.Condition

/-!
The account of the conditions: what a player has of skills, stats and speed beyond
his own is the sum of what his active conditions have added, and no two conditions
have the same type, id and sub id.
-/

namespace TibServer

/-- What a condition adds to skills, stats and speed: a group, so that it can be taken
back. -/
abbrev Deltas := (Skill → BitVec 32) × (Stat → BitVec 32) × BitVec 32

namespace Condition

def deltas (c : Condition) : Deltas :=
  if c.conditionType = .attributes then (c.skills, c.stats, 0)
  else if c.conditionType.isSpeed then (0, 0, c.speedDelta)
  else 0

variable {c : Condition}

theorem deltas_of_attributes (h : c.conditionType = .attributes) :
    c.deltas = (c.skills, c.stats, 0) := if_pos h

theorem deltas_of_speed (h : c.conditionType.isSpeed = true) :
    c.deltas = (0, 0, c.speedDelta) := by
  have other : c.conditionType ≠ .attributes := by
    intro e
    rw [e] at h
    cases h
  rw [deltas, if_neg other, if_pos h]

theorem deltas_of_other (attributes : c.conditionType ≠ .attributes)
    (speed : c.conditionType.isSpeed = false) : c.deltas = 0 := by
  rw [deltas, if_neg attributes, if_neg (by simp [speed])]

end Condition

namespace Bearer

variable {b b' : Bearer} {c : Condition} {env : ConditionEnv}

/-- What has been added to a player. -/
def applied (b : Bearer) : Deltas := (b.varSkills, b.varStats, b.varSpeed)

/-! ### Single numbers -/

/-- Only health and mana differ. -/
structure Drained (b b' : Bearer) : Prop where
  applied : b'.applied = b.applied
  conditions : b'.conditions = b.conditions

theorem Drained.refl (b : Bearer) : Drained b b := ⟨rfl, rfl⟩

theorem changeHealth_drained (b : Bearer) (n : BitVec 32) : Drained b (b.changeHealth n) :=
  ⟨rfl, rfl⟩

theorem changeMana_drained (b : Bearer) (n : BitVec 32) : Drained b (b.changeMana n) :=
  ⟨rfl, rfl⟩

theorem setVarStats_drained (b : Bearer) (stat : Stat) (modifier : BitVec 32) :
    Drained (b.addVarStat stat modifier) (b.setVarStats stat modifier) := by
  unfold setVarStats
  simp only
  split_ifs
  · exact changeHealth_drained _ _
  · exact .refl _
  · exact changeMana_drained _ _
  · exact .refl _
  · exact .refl _

@[simp] theorem changeSpeed_applied (b : Bearer) (delta : BitVec 32) :
    (b.changeSpeed delta).applied = b.applied + (0, 0, delta) := by
  simp [applied, changeSpeed, getSpeed]

/-! ### Loops over skills and stats -/

/-- What a loop adds is the sum of what its rounds add. -/
theorem foldl_applied {α : Type} {f : Bearer → α → Bearer} {d : α → Deltas}
    (h : ∀ b a, (f b a).applied = b.applied + d a ∧ (f b a).conditions = b.conditions)
    (l : List α) (b : Bearer) :
    (l.foldl f b).applied = b.applied + (l.map d).sum ∧
      (l.foldl f b).conditions = b.conditions := by
  induction l generalizing b with
  | nil => simp
  | cons a l ih =>
      obtain ⟨applied, conditions⟩ := h b a
      obtain ⟨rest, same⟩ := ih (f b a)
      refine ⟨?_, same.trans conditions⟩
      rw [List.foldl_cons, rest, applied, List.map_cons, List.sum_cons, add_assoc]

theorem sum_single {n : Nat} (d : Fin n → BitVec 32) :
    ((List.finRange n).map fun i => Pi.single i (d i)).sum = d := by
  have sum := Finset.univ_sum_single d
  rwa [Fin.sum_univ_def] at sum

theorem setVarSkill_applied (b : Bearer) (i : Skill) (m : BitVec 32) :
    (b.setVarSkill i m).applied = b.applied + (Pi.single i m, 0, 0) := by
  have skills : (b.setVarSkill i m).varSkills = b.varSkills + Pi.single i m := by
    ext j : 1
    by_cases here : j = i
    · subst here
      simp [setVarSkill]
    · simp [setVarSkill, here]
  simp [applied, skills]
  exact ⟨rfl, rfl⟩

theorem setVarStats_applied (b : Bearer) (i : Stat) (m : BitVec 32) :
    (b.setVarStats i m).applied = b.applied + (0, Pi.single i m, 0) := by
  rw [(setVarStats_drained b i m).applied]
  have stats : (b.addVarStat i m).varStats = b.varStats + Pi.single i m := by
    ext j : 1
    by_cases here : j = i
    · subst here
      simp [addVarStat]
    · simp [addVarStat, here]
  simp [applied, stats]
  exact ⟨rfl, rfl⟩

/-- The loops leave out entries that are 0, and add all others. -/
theorem skills_loop (b : Bearer) (d : Skill → BitVec 32) (P : Skill → Prop) [DecidablePred P]
    (none_ : ∀ i, ¬ P i → d i = 0) :
    ((List.finRange 13).foldl (fun b i => if P i then b.setVarSkill i (d i) else b) b).applied =
        b.applied + (d, 0, 0) ∧
      ((List.finRange 13).foldl
        (fun b i => if P i then b.setVarSkill i (d i) else b) b).conditions = b.conditions := by
  have loop := foldl_applied (f := fun b i => if P i then b.setVarSkill i (d i) else b)
    (d := fun i => (Pi.single i (d i), 0, 0)) (fun b i => by
      split_ifs with hi
      · exact ⟨setVarSkill_applied b i (d i), rfl⟩
      · simp [none_ i hi]) (List.finRange 13) b
  have sum (l : List Skill) : (l.map fun i => ((Pi.single i (d i), 0, 0) : Deltas)).sum =
      ((l.map fun i => Pi.single i (d i)).sum, 0, 0) := by
    induction l with
    | nil => rfl
    | cons i l ih =>
        rw [List.map_cons, List.sum_cons, ih, List.map_cons, List.sum_cons]
        simp
  rwa [sum, sum_single] at loop

theorem stats_loop (b : Bearer) (d : Stat → BitVec 32) (P : Stat → Prop) [DecidablePred P]
    (none_ : ∀ i, ¬ P i → d i = 0) :
    ((List.finRange 4).foldl (fun b i => if P i then b.setVarStats i (d i) else b) b).applied =
        b.applied + (0, d, 0) ∧
      ((List.finRange 4).foldl
        (fun b i => if P i then b.setVarStats i (d i) else b) b).conditions = b.conditions := by
  have loop := foldl_applied (f := fun b i => if P i then b.setVarStats i (d i) else b)
    (d := fun i => (0, Pi.single i (d i), 0)) (fun b i => by
      split_ifs with hi
      · exact ⟨setVarStats_applied b i (d i), (setVarStats_drained b i (d i)).conditions⟩
      · simp [none_ i hi]) (List.finRange 4) b
  have sum (l : List Stat) : (l.map fun i => ((0, Pi.single i (d i), 0) : Deltas)).sum =
      (0, (l.map fun i => Pi.single i (d i)).sum, 0) := by
    induction l with
    | nil => rfl
    | cons i l ih =>
        rw [List.map_cons, List.sum_cons, ih, List.map_cons, List.sum_cons]
        simp
  rwa [sum, sum_single] at loop

/-! ### Start, merge and end -/

/-- A condition keeps its place among the others. -/
theorem applyAttributes_spec (b : Bearer) (c : Condition) (env : ConditionEnv) :
    (b.applyAttributes c env).2.applied = b.applied +
        ((b.applyAttributes c env).1.skills, (b.applyAttributes c env).1.stats, 0) ∧
      (b.applyAttributes c env).2.conditions = b.conditions ∧
      (b.applyAttributes c env).1.key = c.key ∧
      (b.applyAttributes c env).1.conditionType = c.conditionType := by
  unfold applyAttributes
  simp only
  generalize hc : b.updatePercentSkills c env = c₁
  have skills := skills_loop b c₁.skills (fun i => c₁.skills i ≠ 0) (fun i hi => not_not.mp hi)
  change (b.updateSkills c₁).applied = _ ∧ (b.updateSkills c₁).conditions = _ at skills
  generalize b.updateSkills c₁ = b₁ at skills ⊢
  generalize hc' : b₁.updatePercentStats c₁ env = c₂
  have stats := stats_loop b₁ c₂.stats (fun i => c₂.stats i ≠ 0) (fun i hi => not_not.mp hi)
  change (b₁.updateStats c₂).applied = _ ∧ (b₁.updateStats c₂).conditions = _ at stats
  have same : c₂.skills = c₁.skills := by rw [← hc']; rfl
  have key : c₂.key = c.key := by rw [← hc', ← hc]; rfl
  refine ⟨?_, stats.2.trans skills.2, key, congrArg Prod.fst key⟩
  rw [stats.1, skills.1, same, add_assoc]
  simp

theorem endAttributes_spec (b : Bearer) (c : Condition) :
    (b.endAttributes c).applied = b.applied - (c.skills, c.stats, 0) ∧
      (b.endAttributes c).conditions = b.conditions := by
  have skills := skills_loop b (-c.skills) (fun i => c.skills i ≠ 0 ∨ c.skillsPercent i ≠ 0)
    (fun i hi => by simp only [not_or, not_not] at hi; simp [hi.1])
  unfold endAttributes
  simp only [Pi.neg_apply] at skills ⊢
  generalize List.foldl _ b (List.finRange 13) = b₁ at skills ⊢
  have stats := stats_loop b₁ (-c.stats) (fun i => c.stats i ≠ 0)
    (fun i hi => by simp [not_not.mp hi])
  simp only [Pi.neg_apply] at stats
  refine ⟨?_, stats.2.trans skills.2⟩
  rw [stats.1, skills.1, add_assoc, sub_eq_add_neg]
  simp

theorem endCondition_spec (b : Bearer) (c : Condition) :
    (b.endCondition c).applied = b.applied - c.deltas ∧
      (b.endCondition c).conditions = b.conditions := by
  unfold endCondition
  split
  · next attributes =>
      rw [Condition.deltas_of_attributes attributes]
      exact endAttributes_spec b c
  · next other =>
      split
      · next speed =>
          rw [Condition.deltas_of_speed speed]
          refine ⟨?_, rfl⟩
          rw [changeSpeed_applied, sub_eq_add_neg]
          simp
      · next speed =>
          rw [Condition.deltas_of_other other (by simpa using speed)]
          simp

theorem startCondition_spec {started : Condition × Bearer}
    (h : b.startCondition c env = some started) :
    started.2.applied = b.applied + started.1.deltas ∧
      started.2.conditions = b.conditions ∧ started.1.key = c.key := by
  unfold startCondition at h
  simp only at h
  split at h
  · next attributes =>
      obtain rfl := Option.some.inj h
      obtain ⟨applied, conditions, key, type⟩ := applyAttributes_spec b
        { c with endTime := if c.ticks > 0 then c.ticks + env.now else c.endTime } env
      rw [Condition.deltas_of_attributes (type.trans attributes)]
      exact ⟨applied, conditions, key⟩
  · next other =>
      split at h
      · next speed =>
          obtain rfl := Option.some.inj h
          refine ⟨?_, rfl, rfl⟩
          have delta (endTime : Int) (speedDelta : BitVec 32) :
              ({ c with endTime, speedDelta } : Condition).deltas = (0, 0, speedDelta) :=
            Condition.deltas_of_speed speed
          rw [changeSpeed_applied, delta]
      · next speed =>
          have none_ : ∀ endTime, ({ c with endTime } : Condition).deltas = 0 := fun endTime =>
            Condition.deltas_of_other other (by simpa using speed)
          split at h
          · split at h
            · obtain rfl := Option.some.inj h
              simp only [none_, add_zero, true_and]
              rfl
            · cases h
          · obtain rfl := Option.some.inj h
            simp only [none_, add_zero, true_and]
            rfl

theorem mergeCondition_spec (b : Bearer) (c add : Condition) (env : ConditionEnv) :
    (b.mergeCondition c add env).2.applied =
        b.applied - c.deltas + (b.mergeCondition c add env).1.deltas ∧
      (b.mergeCondition c add env).2.conditions = b.conditions ∧
      (b.mergeCondition c add env).1.key = c.key := by
  have unchanged : b.applied = b.applied - c.deltas + c.deltas := (sub_add_cancel _ _).symm
  unfold mergeCondition
  split
  · next attributes =>
      split
      · obtain ⟨ended, left⟩ := endCondition_spec b c
        obtain ⟨applied, conditions, key, type⟩ := applyAttributes_spec (b.endCondition c)
          { c.setTicks add.ticks env.now with
            skills := add.skills
            skillsPercent := add.skillsPercent
            stats := add.stats
            statsPercent := add.statsPercent } env
        rw [Condition.deltas_of_attributes (type.trans attributes), applied, ended]
        exact ⟨rfl, conditions.trans left, key⟩
      · exact ⟨unchanged, rfl, rfl⟩
  · next other =>
      split
      · next speed =>
          split
          · exact ⟨unchanged, rfl, rfl⟩
          · split
            · exact ⟨unchanged, rfl, rfl⟩
            · simp only
              generalize (if add.speedDelta = 0 then env.rolled else add.speedDelta) = delta
              have after : ({ c.setTicks add.ticks env.now with speedDelta := delta } :
                  Condition).deltas = (0, 0, delta) := Condition.deltas_of_speed speed
              rw [after, Condition.deltas_of_speed speed]
              split
              · refine ⟨?_, rfl, rfl⟩
                have split_ : ((0, 0, delta - c.speedDelta) : Deltas) =
                    (0, 0, delta) - (0, 0, c.speedDelta) := by simp
                rw [changeSpeed_applied, split_]
                abel
              · next same =>
                  refine ⟨?_, rfl, rfl⟩
                  rw [sub_eq_zero.mp (not_not.mp same), sub_add_cancel]
      · next speed =>
          split
          · exact ⟨unchanged, rfl, rfl⟩
          · split
            · exact ⟨unchanged, rfl, rfl⟩
            · exact ⟨unchanged, rfl, rfl⟩

theorem executeCondition_spec (c : Condition) (interval : Int) (env : ConditionEnv) :
    (executeCondition c interval env).1.deltas = c.deltas ∧
      (executeCondition c interval env).1.key = c.key := by
  unfold executeCondition Condition.executeCondition
  split_ifs <;> exact ⟨rfl, rfl⟩

/-! ### The list of conditions -/

/-- The account, and that no two conditions have one key. -/
structure Balanced (b : Bearer) : Prop where
  account : b.applied = (b.conditions.map Condition.deltas).sum
  once : (b.conditions.map Condition.key).Nodup

/-- The loops leave the list alone until they are through; what they take off the
player is what the conditions they take out had added. -/
theorem removeLoop_spec (goes : Condition → Bool) (stops : Bool) (l : List Condition)
    (b : Bearer) :
    (removeLoop goes stops l b).2.applied = b.applied - (l.map Condition.deltas).sum +
        ((removeLoop goes stops l b).1.map Condition.deltas).sum ∧
      (removeLoop goes stops l b).1.Sublist l := by
  induction l generalizing b with
  | nil => exact ⟨by simp [removeLoop], .refl _⟩
  | cons c l ih =>
      rw [removeLoop]
      split
      · split
        · exact ⟨(sub_add_cancel _ _).symm, .refl _⟩
        · obtain ⟨applied, kept⟩ := ih (b.endCondition c)
          refine ⟨?_, kept.cons c⟩
          rw [applied, (endCondition_spec b c).1, List.map_cons, List.sum_cons]
          abel
      · obtain ⟨applied, kept⟩ := ih b
        refine ⟨?_, kept.cons_cons c⟩
        simp only [applied, List.map_cons, List.sum_cons]
        abel

theorem executeLoop_spec (interval : Int) (env : ConditionEnv) (l : List Condition)
    (b : Bearer) :
    (executeLoop interval env l b).2.applied = b.applied - (l.map Condition.deltas).sum +
        ((executeLoop interval env l b).1.map Condition.deltas).sum ∧
      ((executeLoop interval env l b).1.map Condition.key).Sublist (l.map Condition.key) := by
  induction l generalizing b with
  | nil => exact ⟨by simp [executeLoop], .refl _⟩
  | cons c l ih =>
      obtain ⟨deltas, key⟩ := executeCondition_spec c interval env
      rw [executeLoop]
      split
      · obtain ⟨applied, kept⟩ := ih b
        refine ⟨?_, ?_⟩
        · simp only [applied, List.map_cons, List.sum_cons, deltas]
          abel
        · simp only [List.map_cons, key]
          exact kept.cons_cons _
      · obtain ⟨applied, kept⟩ := ih (b.endCondition (executeCondition c interval env).1)
        refine ⟨?_, kept.cons _⟩
        rw [applied, (endCondition_spec b _).1, deltas, List.map_cons, List.sum_cons]
        abel

theorem Balanced.removeWhere (h : b.Balanced) (goes : Condition → Bool) (stops : Bool) :
    (b.removeWhere goes stops).Balanced := by
  obtain ⟨applied, kept⟩ := removeLoop_spec goes stops b.conditions b
  refine ⟨?_, (kept.map _).nodup h.once⟩
  rw [h.account, sub_self, zero_add] at applied
  exact applied

theorem Balanced.executeConditions (h : b.Balanced) (interval : Int) (env : ConditionEnv) :
    (b.executeConditions interval env).Balanced := by
  obtain ⟨applied, kept⟩ := executeLoop_spec interval env b.conditions b
  refine ⟨?_, kept.nodup h.once⟩
  rw [h.account, sub_self, zero_add] at applied
  exact applied

theorem Balanced.removeAt (h : b.Balanced) (n : Nat) (force : Bool) (env : ConditionEnv) :
    (b.removeAt n force env).Balanced := by
  unfold Bearer.removeAt
  split
  · exact h
  · next c hc =>
      split
      · exact h
      · obtain ⟨applied, same⟩ := endCondition_spec
          { b with conditions := b.conditions.eraseIdx n } c
        obtain ⟨hn, rfl⟩ := List.getElem?_eq_some_iff.mp hc
        constructor
        · have whole : (b.conditions.map Condition.deltas).sum =
              b.conditions[n].deltas + ((b.conditions.eraseIdx n).map Condition.deltas).sum := by
            have inside : n < (b.conditions.map Condition.deltas).length := by
              simpa using hn
            have sum := List.CommMonoid.add_sum_eraseIdx inside
            rw [List.getElem_map, List.eraseIdx_map] at sum
            exact sum.symm
          rw [applied, same]
          change b.applied - _ = _
          rw [h.account, whole]
          abel
        · rw [same]
          exact ((b.conditions.eraseIdx_sublist n).map _).nodup h.once

/-- One condition of the list is replaced by one with the same key. -/
theorem Balanced.replaced (h : b.Balanced) {n : Nat} {prev new : Condition}
    (hn : b.conditions[n]? = some prev) (applied : b'.applied = b.applied - prev.deltas + new.deltas)
    (conditions : b'.conditions = b.conditions.set n new) (key : new.key = prev.key) :
    b'.Balanced := by
  obtain ⟨inside, rfl⟩ := List.getElem?_eq_some_iff.mp hn
  constructor
  · have sum := List.sum_set' (b.conditions.map Condition.deltas) n new.deltas
    simp only [List.length_map, inside, dif_pos, List.getElem_map, ← List.map_set] at sum
    rw [applied, conditions, sum, h.account]
    abel
  · have same : (b.conditions.map Condition.key).set n new.key = b.conditions.map Condition.key := by
      rw [key, ← List.getElem_map Condition.key (h := by simpa using inside)]
      exact List.set_getElem_self _
    rw [conditions, List.map_set, same]
    exact h.once

theorem Balanced.onAddCondition (h : b.Balanced) (type : ConditionType) (env : ConditionEnv) :
    (b.onAddCondition type env).Balanced := by
  unfold Bearer.onAddCondition
  split_ifs
  · exact h.removeWhere _ _
  · exact h.removeWhere _ _
  · exact h

theorem Balanced.addCondition (h : b.Balanced) (c : Condition) (force : Bool)
    (env : ConditionEnv) : (b.addCondition c force env).Balanced := by
  unfold Bearer.addCondition
  split
  · exact h
  · split
    · next n found =>
        split
        · exact h
        · next prevCond hn =>
            obtain ⟨applied, -, key⟩ := mergeCondition_spec b prevCond c env
            exact h.replaced hn applied rfl key
    · next new =>
        split
        · exact h
        · next started hs =>
            obtain ⟨applied, same, key⟩ := startCondition_spec hs
            refine Balanced.onAddCondition ⟨?_, ?_⟩ _ _
            · change started.2.applied = _
              rw [applied, h.account]
              simp
            · simp only [List.map_append, List.map_cons, List.map_nil]
              refine List.nodup_append.mpr ⟨h.once, List.nodup_singleton _, ?_⟩
              rintro k mem k' mem' rfl
              obtain ⟨prev, listed, hk⟩ := List.mem_map.mp mem
              have other := List.findIdx?_eq_none_iff.mp new prev listed
              rw [List.mem_singleton.mp mem', key] at hk
              simp [hk] at other

/-! ### Runs -/

theorem Balanced.step (h : b.Balanced) (e : Event) : (b.step e).Balanced := by
  cases e with
  | add c force env => exact h.addCondition c force env
  | removeType type force env => exact h.removeWhere _ _
  | removeTypeId type id force env => exact h.removeWhere _ _
  | removeAt n force env => exact h.removeAt n force env
  | execute interval env => exact h.executeConditions interval env
  | death => exact h.removeWhere _ _
  | setTicks n newTicks now =>
      simp only [Bearer.step, List.modify_eq_set_getElem?]
      cases hn : b.conditions[n]? with
      | none => exact h
      | some c =>
          refine h.replaced hn ?_ (rfl : _ = b.conditions.set n (c.setTicks newTicks now)) rfl
          exact (sub_add_cancel _ _).symm
  | advance skills healthMax manaMax magLevel baseSpeed => exact ⟨h.account, h.once⟩
  | drain healthChange manaChange => exact ⟨h.account, h.once⟩
  | suppress isSuppress => exact ⟨h.account, h.once⟩

/-- The runs of a player who starts without conditions. -/
inductive Run : Bearer → Prop
  | start {b : Bearer} (conditions : b.conditions = []) (skills : b.varSkills = 0)
      (stats : b.varStats = 0) (speed : b.varSpeed = 0) : Run b
  | step {b : Bearer} (e : Event) (before : Run b) : Run (b.step e)

theorem Run.balanced (h : Run b) : b.Balanced := by
  induction h with
  | start conditions skills stats speed =>
      refine ⟨?_, by simp [conditions]⟩
      rw [conditions, applied, skills, stats, speed]
      rfl
  | step e before ih => exact ih.step e

/-- The sum of all deltas, seen one number at a time. -/
theorem sum_deltas (l : List Condition) :
    (l.map Condition.deltas).sum =
      ((fun i => ((l.filter (·.conditionType = .attributes)).map (·.skills i)).sum),
        (fun i => ((l.filter (·.conditionType = .attributes)).map (·.stats i)).sum),
        ((l.filter (·.conditionType.isSpeed)).map (·.speedDelta)).sum) := by
  induction l with
  | nil => rfl
  | cons c l ih =>
      rw [List.map_cons, List.sum_cons, ih]
      by_cases attributes : c.conditionType = .attributes
      · rw [Condition.deltas_of_attributes attributes]
        simp only [List.filter_cons, attributes, decide_true, if_true, List.map_cons,
          List.sum_cons, Prod.mk_add_mk, zero_add]
        rfl
      · cases speed : c.conditionType.isSpeed with
        | true =>
            rw [Condition.deltas_of_speed speed]
            simp only [List.filter_cons, attributes, speed, decide_false, if_true,
              Bool.false_eq_true, if_false, List.map_cons, List.sum_cons, Prod.mk_add_mk, zero_add]
        | false =>
            rw [Condition.deltas_of_other attributes speed]
            simp only [List.filter_cons, attributes, speed, decide_false, Bool.false_eq_true,
              if_false, zero_add]

/-- In every run the numbers of a player are the sums over his active conditions: the
skills and stats of those that change attributes, and the speeds of those that change
speed; and no two active conditions have the same type, id and sub id. -/
theorem Run.bookkeeping (h : Run b) :
    (∀ i, b.varSkills i =
      ((b.conditions.filter (·.conditionType = .attributes)).map (·.skills i)).sum) ∧
    (∀ i, b.varStats i =
      ((b.conditions.filter (·.conditionType = .attributes)).map (·.stats i)).sum) ∧
    b.varSpeed =
      ((b.conditions.filter (·.conditionType.isSpeed)).map (·.speedDelta)).sum ∧
    (b.conditions.map Condition.key).Nodup := by
  obtain ⟨account, once⟩ := h.balanced
  rw [sum_deltas, applied, Prod.mk.injEq, Prod.mk.injEq] at account
  obtain ⟨skills, stats, speed⟩ := account
  exact ⟨congrFun skills, congrFun stats, speed, once⟩

end Bearer

namespace Sample

/-! ### A strengthened player -/

def calm : ConditionEnv where
  now := 1000
  walkDelay := 0
  percentOf value percent := BitVec.ofInt 32 (value * (percent.toInt - 100) / 100)
  rolled := 40
  damageStarts := true
  damageMerged c _ := (c.ticks, c.endTime)
  damageExecuted c := (c.ticks, c.endTime, true)

def knight : Bearer where
  baseSpeed := 220
  skills _ := 50
  healthMax := 150
  manaMax := 35
  magLevel := 2
  health := 150
  mana := 35
  isSuppress _ := false

/-- Half as much again in every skill. -/
def bloodRage : Condition :=
  { conditionType := .attributes, id := -1, subId := 0, ticks := 10000, skillsPercent := fun _ => 150 }

def raging : Bearer := (knight.step (.add bloodRage false calm)).step (.add bloodRage false calm)

theorem raging_run : raging.Run := .step _ (.step _ (.start rfl rfl rfl rfl))

theorem raging_bookkeeping : raging.varSkills 0 = 25 ∧
    raging.varSkills 0 =
      ((raging.conditions.filter (·.conditionType = .attributes)).map (·.skills 0)).sum :=
  ⟨by decide, raging_run.bookkeeping.1 0⟩

end Sample

end TibServer
