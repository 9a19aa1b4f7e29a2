import Mathlib.Tactic
import TibServer.Equipment

/-!
The bonuses of equipment. Every slot gives a bonus, that of the item whose ability is enabled there,
and the player carries their totals. Adding an item's abilities adds its bonus to the totals and
removing them subtracts what the bonus is by then; suppressions are bits, so that those of an item
can be taken back only if no other item gives one of them.
-/

namespace TibServer.Equipment

/-! ### Totals -/

theorem sum_update {ι β M : Type} [Fintype ι] [DecidableEq ι] [AddCommGroup M] (g : β → M)
    (b : ι → β) (i : ι) (v : β) :
    ∑ k, g (Function.update b i v k) = ∑ k, g (b k) + (g v - g (b i)) := by
  have hout : ∑ k ∈ Finset.univ.erase i, g (Function.update b i v k) =
      ∑ k ∈ Finset.univ.erase i, g (b k) :=
    Finset.sum_congr rfl fun k hk => by
      rw [Function.update_of_ne (Finset.ne_of_mem_erase hk)]
  rw [← Finset.add_sum_erase _ _ (Finset.mem_univ i), hout,
    ← Finset.add_sum_erase _ (fun k => g (b k)) (Finset.mem_univ i), Function.update_self]
  abel

/-- A loop that adds at one index after the other adds everywhere. -/
theorem foldl_update_add {ι : Type} [DecidableEq ι] (add : ι → Int) (list : List ι)
    (h : list.Nodup) (f : ι → Int) :
    list.foldl (fun f i => Function.update f i (f i + add i)) f =
      fun i => f i + if i ∈ list then add i else 0 := by
  induction list generalizing f with
  | nil => simp
  | cons i list ih =>
      obtain ⟨hfresh, hlist⟩ := List.nodup_cons.1 h
      ext j
      rw [List.foldl_cons, ih hlist]
      rcases eq_or_ne j i with rfl | hne
      · simp [hfresh]
      · simp [hne]

/-! ### The bonus of an item -/

/-- What an item gives the player who wears it. -/
structure Bonus where
  skills : skills_t → Int := 0
  stats : stats_t → Int := 0
  speed : Int := 0
  suppressions : BitVec 32 := 0#32
  conditions : SlotConditions := {}

variable {table : Table} {p p' : Player}

/-- What the abilities are worth to a player with these stats. -/
def Abilities.bonus (table : Table) (base : Base) (abilities : Abilities) : Bonus where
  skills := abilities.skills
  stats := fun stat => abilities.stats stat +
    if abilities.statsPercent stat ≠ 0 then
      table.percentOf (base.getDefaultStats stat) (abilities.statsPercent stat)
    else 0
  speed := abilities.speed
  suppressions := abilities.conditionSuppressions
  conditions :=
    { invisible := abilities.invisible
      manaShield := abilities.manaShield
      regeneration := if abilities.regeneration then some abilities.regenerationCondition
        else none }

def Table.bonus (table : Table) (base : Base) (id : Nat) : Bonus :=
  match (table.items id).abilities with
  | none => {}
  | some abilities => abilities.bonus table base

/-- What the slot gives: nothing, unless its ability is enabled. -/
def Player.worn (table : Table) (p : Player) (slot : slots_t) : Bonus :=
  if p.inventoryAbilities slot then
    match p.inventory slot with
    | none => {}
    | some id => table.bonus p.toBase id
  else {}

theorem worn_of_not_enabled {slot : slots_t} (h : p.inventoryAbilities slot = false) :
    p.worn table slot = {} := by
  simp [Player.worn, h]

theorem worn_of_enabled {slot : slots_t} {id : Nat} (h : p.inventoryAbilities slot = true)
    (hid : p.inventory slot = some id) : p.worn table slot = table.bonus p.toBase id := by
  simp [Player.worn, h, hid]

/-! ### Adding and removing abilities -/

theorem setVarStats_eq (stat : stats_t) (modifier : Int) :
    ∃ health mana, p.setVarStats stat modifier =
      { p with
        varStats := Function.update p.varStats stat (p.varStats stat + modifier)
        health := health
        mana := mana } := by
  cases stat with
  | MAXHITPOINTS =>
      simp only [Player.setVarStats]
      split
      · exact ⟨_, _, rfl⟩
      · exact ⟨_, _, rfl⟩
  | MAXMANAPOINTS =>
      simp only [Player.setVarStats]
      split
      · exact ⟨_, _, rfl⟩
      · exact ⟨_, _, rfl⟩
  | SOULPOINTS => exact ⟨_, _, rfl⟩
  | MAGICPOINTS => exact ⟨_, _, rfl⟩

theorem modifySkills_eq (sign : Int) (abilities : Abilities) :
    p.modifySkills sign abilities =
      { p with varSkills := fun skill => p.varSkills skill + sign * abilities.skills skill } := by
  have step : ∀ (p : Player) (skill : skills_t), (if abilities.skills skill ≠ 0 then
      p.setVarSkill skill (sign * abilities.skills skill) else p) =
      { p with
        varSkills := Function.update p.varSkills skill
          (p.varSkills skill + sign * abilities.skills skill) } := by
    intro p skill
    split
    · rfl
    · next hzero =>
        rw [not_not.1 hzero, mul_zero, add_zero, Function.update_eq_self]
  have loop : ∀ (list : List skills_t) (p : Player), list.foldl (fun p skill =>
      if abilities.skills skill ≠ 0 then p.setVarSkill skill (sign * abilities.skills skill)
      else p) p =
      { p with
        varSkills := list.foldl (fun f skill =>
          Function.update f skill (f skill + sign * abilities.skills skill)) p.varSkills } := by
    intro list
    induction list with
    | nil => exact fun p => rfl
    | cons skill list ih =>
        intro p
        rw [List.foldl_cons, step, ih]
        rfl
  rw [Player.modifySkills, loop, foldl_update_add _ _ (by decide)]
  congr 1
  ext skill
  rw [if_pos (by cases skill <;> decide)]

/-- The two modifiers of one stat in one step. -/
theorem modifyStat_eq (table : Table) (p : Player) (sign : Int) (abilities : Abilities) (stat : stats_t) :
    ∃ health mana,
      (let q := if abilities.stats stat ≠ 0 then
          p.setVarStats stat (sign * abilities.stats stat) else p
       if abilities.statsPercent stat ≠ 0 then
         q.setVarStats stat
           (sign * table.percentOf (q.getDefaultStats stat) (abilities.statsPercent stat))
       else q) =
      { p with
        varStats := Function.update p.varStats stat
          (p.varStats stat + sign * (abilities.bonus table p.toBase).stats stat)
        health := health
        mana := mana } := by
  have first : ∃ health mana, (if abilities.stats stat ≠ 0 then
      p.setVarStats stat (sign * abilities.stats stat) else p) =
      { p with
        varStats := Function.update p.varStats stat
          (p.varStats stat + sign * abilities.stats stat)
        health := health
        mana := mana } := by
    split
    · exact setVarStats_eq stat _
    · next hzero =>
        refine ⟨p.health, p.mana, ?_⟩
        rw [not_not.1 hzero, mul_zero, add_zero, Function.update_eq_self]
  obtain ⟨health, mana, hfirst⟩ := first
  dsimp only
  rw [hfirst]
  split
  · next hpercent =>
      obtain ⟨health', mana', hsecond⟩ := setVarStats_eq (p := { p with
        varStats := Function.update p.varStats stat
          (p.varStats stat + sign * abilities.stats stat)
        health := health
        mana := mana }) stat (sign * table.percentOf (p.getDefaultStats stat)
          (abilities.statsPercent stat))
      refine ⟨health', mana', hsecond.trans ?_⟩
      simp only [Function.update_self, Function.update_idem, Abilities.bonus, if_pos hpercent,
        mul_add, add_assoc]
  · next hpercent =>
      refine ⟨health, mana, ?_⟩
      simp only [Abilities.bonus, if_neg hpercent, add_zero]

theorem modifyStats_eq (table : Table) (p : Player) (sign : Int) (abilities : Abilities) :
    ∃ health mana, p.modifyStats table sign abilities =
      { p with
        varStats := fun stat =>
          p.varStats stat + sign * (abilities.bonus table p.toBase).stats stat
        health := health
        mana := mana } := by
  have loop : ∀ (list : List stats_t) (p : Player), ∃ health mana, list.foldl (fun p stat =>
      let p := if abilities.stats stat ≠ 0 then
        p.setVarStats stat (sign * abilities.stats stat) else p
      if abilities.statsPercent stat ≠ 0 then
        p.setVarStats stat
          (sign * table.percentOf (p.getDefaultStats stat) (abilities.statsPercent stat))
      else p) p =
      { p with
        varStats := list.foldl (fun f stat => Function.update f stat
          (f stat + sign * (abilities.bonus table p.toBase).stats stat)) p.varStats
        health := health
        mana := mana } := by
    intro list
    induction list with
    | nil => exact fun p => ⟨p.health, p.mana, rfl⟩
    | cons stat list ih =>
        intro p
        obtain ⟨health, mana, hstat⟩ := modifyStat_eq table p sign abilities stat
        obtain ⟨health', mana', hlist⟩ := ih { p with
          varStats := Function.update p.varStats stat
            (p.varStats stat + sign * (abilities.bonus table p.toBase).stats stat)
          health := health
          mana := mana }
        refine ⟨health', mana', ?_⟩
        rw [List.foldl_cons, hstat, hlist]
        rfl
  obtain ⟨health, mana, hloop⟩ := loop stats_t.loop p
  refine ⟨health, mana, hloop.trans ?_⟩
  rw [foldl_update_add _ _ (by decide)]
  congr 1
  ext stat
  rw [if_pos (by cases stat <;> decide)]

/-- The conditions with those of an item that is put on. -/
def SlotConditions.add (c new : SlotConditions) : SlotConditions where
  invisible := c.invisible || new.invisible
  manaShield := c.manaShield || new.manaShield
  regeneration := new.regeneration.or c.regeneration

/-- The conditions without those of an item that is taken off. -/
def SlotConditions.remove (c old : SlotConditions) : SlotConditions where
  invisible := c.invisible && !old.invisible
  manaShield := c.manaShield && !old.manaShield
  regeneration := if old.regeneration.isSome then none else c.regeneration

namespace SlotConditions

variable (c : SlotConditions)

@[simp] theorem add_none : c.add {} = c := by simp [add]

@[simp] theorem none_add : add {} c = c := by simp [add]

@[simp] theorem remove_none : c.remove {} = c := by simp [remove]

@[simp] theorem remove_self : c.remove c = {} := by
  cases hregeneration : c.regeneration with
  | none => simp [remove, hregeneration]
  | some regeneration => simp [remove, hregeneration]

theorem add_invisible (flag : Bool) :
    (if flag then { c with invisible := true } else c) = c.add { invisible := flag } := by
  cases flag <;> simp [add]

theorem add_manaShield (flag : Bool) :
    (if flag then { c with manaShield := true } else c) = c.add { manaShield := flag } := by
  cases flag <;> simp [add]

theorem add_regeneration (flag : Bool) (regeneration : Regeneration) :
    (if flag then { c with regeneration := some regeneration } else c) =
      c.add { regeneration := if flag then some regeneration else none } := by
  cases flag <;> simp [add]

theorem remove_invisible (flag : Bool) :
    (if flag then { c with invisible := false } else c) = c.remove { invisible := flag } := by
  cases flag <;> simp [remove]

theorem remove_manaShield (flag : Bool) :
    (if flag then { c with manaShield := false } else c) = c.remove { manaShield := flag } := by
  cases flag <;> simp [remove]

theorem remove_regeneration (flag : Bool) (regeneration : Regeneration) :
    (if flag then { c with regeneration := none } else c) =
      c.remove { regeneration := if flag then some regeneration else none } := by
  cases flag <;> simp [remove]

end SlotConditions

/-- The totals with a bonus on top. -/
def Player.gain (p : Player) (slot : slots_t) (bonus : Bonus) (health mana : Int) : Player :=
  { p with
    varSkills := fun skill => p.varSkills skill + bonus.skills skill
    varStats := fun stat => p.varStats stat + bonus.stats stat
    varSpeed := p.varSpeed + bonus.speed
    conditionSuppressions := p.conditionSuppressions ||| bonus.suppressions
    conditions := Function.update p.conditions slot ((p.conditions slot).add bonus.conditions)
    health := health
    mana := mana }

/-- The totals after a bonus is taken back. -/
def Player.lose (p : Player) (slot : slots_t) (bonus : Bonus) (health mana : Int) : Player :=
  { p with
    varSkills := fun skill => p.varSkills skill - bonus.skills skill
    varStats := fun stat => p.varStats stat - bonus.stats stat
    varSpeed := p.varSpeed - bonus.speed
    conditionSuppressions := p.conditionSuppressions &&& ~~~bonus.suppressions
    conditions := Function.update p.conditions slot ((p.conditions slot).remove bonus.conditions)
    health := health
    mana := mana }

theorem ite_setConditions (c : Bool) (slot : slots_t) (f : SlotConditions → SlotConditions) :
    (if c then p.setConditions slot f else p) =
      p.setConditions slot fun conditions => if c then f conditions else conditions := by
  cases c with
  | true => rfl
  | false => simp [Player.setConditions]

theorem ite_changeSpeed (speed delta : Int) (h : speed = 0 → delta = 0) :
    (if speed ≠ 0 then p.changeSpeed delta else p) = p.changeSpeed delta := by
  split
  · rfl
  · next hzero => rw [h (not_not.1 hzero), Player.changeSpeed, add_zero]

theorem ite_addConditionSuppressions (conditions : BitVec 32) :
    (if conditions ≠ 0 then p.addConditionSuppressions conditions else p) =
      p.addConditionSuppressions conditions := by
  split
  · rfl
  · next hzero => rw [not_not.1 hzero, Player.addConditionSuppressions]; simp

theorem and_not_zero (conditions : BitVec 32) : conditions &&& ~~~0#32 = conditions := by
  have hall : ~~~(0#32) = BitVec.allOnes 32 := by decide
  rw [hall, BitVec.and_allOnes]

theorem ite_removeConditionSuppressions (conditions : BitVec 32) :
    (if conditions ≠ 0 then p.removeConditionSuppressions conditions else p) =
      p.removeConditionSuppressions conditions := by
  split
  · rfl
  · next hzero =>
      rw [not_not.1 hzero]
      show p = { p with conditionSuppressions := p.conditionSuppressions &&& ~~~0#32 }
      rw [and_not_zero]

theorem addAbilities_eq (table : Table) (p : Player) (slot : slots_t) (abilities : Abilities) :
    ∃ health mana, p.addAbilities table slot abilities =
      p.gain slot (abilities.bonus table p.toBase) health mana := by
  simp only [Player.addAbilities, ite_setConditions, ite_changeSpeed _ _ id,
    ite_addConditionSuppressions, modifySkills_eq, SlotConditions.add_invisible,
    SlotConditions.add_manaShield, SlotConditions.add_regeneration]
  obtain ⟨health, mana, hstats⟩ := modifyStats_eq table _ 1 abilities
  refine ⟨health, mana, hstats.trans ?_⟩
  simp only [Player.gain, Player.setConditions, Player.changeSpeed,
    Player.addConditionSuppressions, Abilities.bonus, one_mul, Function.update_self,
    Function.update_idem, SlotConditions.add]
  simp

theorem removeAbilities_eq (table : Table) (p : Player) (slot : slots_t) (abilities : Abilities) :
    ∃ health mana, p.removeAbilities table slot abilities =
      p.lose slot (abilities.bonus table p.toBase) health mana := by
  simp only [Player.removeAbilities, ite_setConditions,
    ite_changeSpeed _ _ fun h => neg_eq_zero.2 h, ite_removeConditionSuppressions, modifySkills_eq,
    SlotConditions.remove_invisible, SlotConditions.remove_manaShield,
    SlotConditions.remove_regeneration _ _ abilities.regenerationCondition]
  obtain ⟨health, mana, hstats⟩ := modifyStats_eq table _ (-1) abilities
  refine ⟨health, mana, hstats.trans ?_⟩
  simp only [Player.lose, Player.setConditions, Player.changeSpeed,
    Player.removeConditionSuppressions, Abilities.bonus, neg_one_mul, ← sub_eq_add_neg,
    Function.update_self, Function.update_idem, SlotConditions.remove]
  simp

/-! ### The totals of the slots -/

/-- The player carries the totals of these bonuses. -/
structure Tally (b : slots_t → Bonus) (p : Player) : Prop where
  varSkills : p.varSkills = ∑ slot, (b slot).skills
  varStats : p.varStats = ∑ slot, (b slot).stats
  varSpeed : p.varSpeed = ∑ slot, (b slot).speed
  conditionSuppressions : ∀ i, p.conditionSuppressions.getLsbD i = true ↔
    ∃ slot, (b slot).suppressions.getLsbD i = true
  conditions : ∀ slot, p.conditions slot = (b slot).conditions

variable {b : slots_t → Bonus} {slot : slots_t} {bonus : Bonus} {health mana : Int} {id newId : Nat}

theorem gain_none : p.gain slot {} p.health p.mana = p := by
  simp only [Player.gain, SlotConditions.add_none, Function.update_eq_self, Pi.zero_apply,
    add_zero, BitVec.or_zero]

theorem lose_none : p.lose slot {} p.health p.mana = p := by
  simp only [Player.lose, SlotConditions.remove_none, Function.update_eq_self, Pi.zero_apply,
    sub_zero, and_not_zero]

theorem Tally.gain (h : Tally b p) (hb : b slot = {}) :
    Tally (Function.update b slot bonus) (p.gain slot bonus health mana) where
  varSkills := by
    rw [sum_update Bonus.skills, hb, ← h.varSkills]
    ext skill
    simp [Player.gain]
  varStats := by
    rw [sum_update Bonus.stats, hb, ← h.varStats]
    ext stat
    simp [Player.gain]
  varSpeed := by
    rw [sum_update Bonus.speed, hb, ← h.varSpeed]
    simp [Player.gain]
  conditionSuppressions i := by
    simp only [Player.gain, BitVec.getLsbD_or, Bool.or_eq_true, h.conditionSuppressions i]
    constructor
    · rintro (⟨other, hother⟩ | hnew)
      · refine ⟨other, ?_⟩
        rcases eq_or_ne other slot with rfl | hne
        · rw [hb] at hother
          simp at hother
        · rwa [Function.update_of_ne hne]
      · exact ⟨slot, by rwa [Function.update_self]⟩
    · rintro ⟨other, hother⟩
      rcases eq_or_ne other slot with rfl | hne
      · rw [Function.update_self] at hother
        exact Or.inr hother
      · rw [Function.update_of_ne hne] at hother
        exact Or.inl ⟨other, hother⟩
  conditions other := by
    rcases eq_or_ne other slot with rfl | hne
    · simp [Player.gain, h.conditions, hb]
    · simp [Player.gain, Function.update_of_ne hne, h.conditions]

/-- Suppressions are taken back rightly only if no other slot gives one of them. -/
theorem Tally.lose (h : Tally b p) (hb : b slot = bonus)
    (apart : ∀ other, other ≠ slot → (b other).suppressions &&& bonus.suppressions = 0#32) :
    Tally (Function.update b slot {}) (p.lose slot bonus health mana) where
  varSkills := by
    rw [sum_update Bonus.skills, hb, ← h.varSkills]
    ext skill
    simp [Player.lose, sub_eq_add_neg]
  varStats := by
    rw [sum_update Bonus.stats, hb, ← h.varStats]
    ext stat
    simp [Player.lose, sub_eq_add_neg]
  varSpeed := by
    rw [sum_update Bonus.speed, hb, ← h.varSpeed]
    simp [Player.lose, sub_eq_add_neg]
  conditionSuppressions i := by
    simp only [Player.lose, BitVec.getLsbD_and, BitVec.getLsbD_not, Bool.and_eq_true,
      Bool.not_eq_true', decide_eq_true_eq, h.conditionSuppressions i]
    constructor
    · rintro ⟨⟨other, hother⟩, -, hkeeps⟩
      have hne : other ≠ slot := by
        rintro rfl
        rw [hb, hkeeps] at hother
        cases hother
      exact ⟨other, by rwa [Function.update_of_ne hne]⟩
    · rintro ⟨other, hother⟩
      rcases eq_or_ne other slot with rfl | hne
      · rw [Function.update_self] at hother
        simp at hother
      · rw [Function.update_of_ne hne] at hother
        refine ⟨⟨other, hother⟩, BitVec.lt_of_getLsbD hother, ?_⟩
        have hboth : ((b other).suppressions &&& bonus.suppressions).getLsbD i = false := by
          rw [apart other hne]
          simp
        rwa [BitVec.getLsbD_and, hother, Bool.true_and] at hboth
  conditions other := by
    rcases eq_or_ne other slot with rfl | hne
    · simp [Player.lose, h.conditions, hb]
    · simp [Player.lose, Function.update_of_ne hne, h.conditions]

end TibServer.Equipment
