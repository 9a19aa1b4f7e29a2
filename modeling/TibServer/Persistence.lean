import TibServer.ConditionStore

/-!
What a save and a load leave of a player's conditions: the conditions come back in the
reverse order, with what their classes write; the ticks of damage are counted anew from
its intervals.
-/

namespace TibServer

/-! ### Classes -/

inductive ConditionClass
  | generic | invisible | spellCooldown | spellGroupCooldown | attributes | regeneration
  | soul | damage | speed | outfit | light
  deriving DecidableEq, Repr

namespace ConditionData

def cls : ConditionData → ConditionClass
  | .generic => .generic
  | .invisible => .invisible
  | .spellCooldown => .spellCooldown
  | .spellGroupCooldown => .spellGroupCooldown
  | .attributes _ => .attributes
  | .regeneration _ => .regeneration
  | .soul _ => .soul
  | .damage _ => .damage
  | .speed _ => .speed
  | .outfit _ => .outfit
  | .light _ => .light

end ConditionData

/-- A new object of a class. -/
def ConditionClass.blank : ConditionClass → ConditionData
  | .generic => .generic
  | .invisible => .invisible
  | .spellCooldown => .spellCooldown
  | .spellGroupCooldown => .spellGroupCooldown
  | .attributes => .attributes {}
  | .regeneration => .regeneration {}
  | .soul => .soul {}
  | .damage => .damage {}
  | .speed => .speed { speedDelta := 0 }
  | .outfit => .outfit {}
  | .light => .light { level := 0, color := 0 }

namespace StoredCondition

open PropStream

variable {c c' : StoredCondition} {s s' : PropStream}

/-- A condition as `createCondition` makes one: its type decides on its class. -/
def Made (c : StoredCondition) : Prop :=
  ∃ t : ConditionType, c.conditionType = t.value ∧ c.data.cls = (newData t 0).cls

theorem newData_blank (t : ConditionType) : newData t 0 = (newData t 0).cls.blank := by
  cases t <;> rfl

theorem isDamage_iff (t : ConditionType) : t.isDamage = decide ((newData t 0).cls = .damage) := by
  cases t <;> rfl

/-! ### One attribute after the other -/

theorem unserialize_end (c : StoredCondition) (s : PropStream) :
    c.unserialize (write CONDITIONATTR_END ++ s) = (some c, s) := by
  have first := read_write_8 CONDITIONATTR_END s
  rw [unserialize]
  split
  · next none_ => exact absurd (first.symm.trans none_) (by simp)
  · next attr rest some_ =>
      obtain ⟨rfl, rfl⟩ := Prod.mk.inj (Option.some.inj (first.symm.trans some_))
      rw [if_pos rfl]

theorem unserialize_attr {number : BitVec 8} (more : number ≠ CONDITIONATTR_END)
    (c : StoredCondition) (value : List UInt8) (s : PropStream) :
    c.unserialize (attr number value ++ s) =
      match c.unserializeProp number (value ++ s) with
      | none => (none, value ++ s)
      | some (c', rest) => c'.unserialize rest := by
  have first := read_write_8 number (value ++ s)
  rw [attr, List.append_assoc, unserialize]
  split
  · next none_ => exact absurd (first.symm.trans none_) (by simp)
  · next attr rest some_ =>
      obtain ⟨rfl, rfl⟩ := Prod.mk.inj (Option.some.inj (first.symm.trans some_))
      rw [if_neg more]
      split <;> simp [*]

theorem field_read {w : Nat} (whole : 8 * (w / 8) = w) (f : BitVec w → StoredCondition)
    (v : BitVec w) (s : PropStream) : field (read w) f (write v ++ s) = some (f v, s) := by
  rw [field, read_write whole]
  rfl

theorem flag_ne_zero (b : Bool) : (flag b != 0) = b := by
  cases b <;> rfl

theorem setWidth_signExtend (x : BitVec 8) : (x.signExtend 32).setWidth 8 = x := by
  ext k lt
  have wide : k < 32 := by omega
  simp only [BitVec.getElem_setWidth, BitVec.getLsbD_signExtend, wide, lt, decide_true,
    Bool.true_and, if_true]
  exact BitVec.getLsbD_eq_getElem lt

theorem setWidth_setWidth_32 (x : BitVec 8) : (x.setWidth 32).setWidth 8 = x := by
  ext k lt
  simp

/-- What a class writes of its fields and reads back into a new object. -/
def restored (c : StoredCondition) : StoredCondition :=
  match c.data with
  | .attributes d =>
      { c with data := .attributes { skills := d.skills, stats := d.stats, currentSkill := 13
                                     currentStat := 4 } }
  | .regeneration d =>
      { c with data := .regeneration { healthTicks := d.healthTicks, healthGain := d.healthGain
                                       manaTicks := d.manaTicks, manaGain := d.manaGain } }
  | .soul d => { c with data := .soul { soulTicks := d.soulTicks, soulGain := d.soulGain } }
  | .damage d =>
      { c with
        ticks := d.damageList.foldl addInterval 0
        data := .damage { delayed := d.delayed, periodDamage := d.periodDamage
                          damageList := d.damageList } }
  | _ => c

/-- An array after values were read into it, one after the other. -/
def readInto {n : Nat} (a : Fin n → BitVec 32) (current : Nat) :
    List (BitVec 32) → Fin n → BitVec 32
  | [] => a
  | v :: l => readInto (setNext a current v) (current + 1) l

theorem readInto_eq {n : Nat} (a : Fin n → BitVec 32) (current : Nat) (l : List (BitVec 32))
    (k : Fin n) : readInto a current l k =
      if k.val < current then a k else (l[k.val - current]?).getD (a k) := by
  induction l generalizing a current with
  | nil => simp [readInto]
  | cons v l ih =>
      rw [readInto, ih]
      rcases Nat.lt_trichotomy k.val current with before | here | after
      · rw [if_pos (by omega), if_pos before, setNext, if_neg (by omega)]
      · rw [if_pos (by omega), if_neg (by omega), setNext, if_pos here, here]
        simp
      · obtain ⟨m, hm⟩ : ∃ m, k.val - current = m + 1 := ⟨k.val - current - 1, by omega⟩
        have next : k.val - (current + 1) = m := by omega
        rw [if_neg (by omega), if_neg (by omega), setNext, if_neg (by omega), next, hm,
          List.getElem?_cons_succ]

/-- A whole array is read into an array of its length. -/
theorem readInto_ofFn {n : Nat} (a f : Fin n → BitVec 32) : readInto a 0 (List.ofFn f) = f := by
  funext k
  rw [readInto_eq, if_neg (Nat.not_lt_zero _), Nat.sub_zero]
  simp

theorem unserialize_skills (vals : List (BitVec 32)) (c : StoredCondition)
    (d : ConditionAttributes) (s : PropStream) :
    ({ c with data := .attributes d } : StoredCondition).unserialize
        ((vals.flatMap fun v => attr CONDITIONATTR_SKILLS (write v)) ++ s) =
      ({ c with data := .attributes { d with
          skills := readInto d.skills d.currentSkill vals
          currentSkill := d.currentSkill + vals.length } } : StoredCondition).unserialize s := by
  induction vals generalizing d with
  | nil => rfl
  | cons v vals ih =>
      simp (disch := decide) only [List.flatMap_cons, List.append_assoc, unserialize_attr,
        unserializeProp, field_read, if_pos]
      rw [ih]
      simp only [readInto, List.length_cons, Nat.add_assoc, Nat.add_comm 1]

theorem unserialize_stats (vals : List (BitVec 32)) (c : StoredCondition)
    (d : ConditionAttributes) (s : PropStream) :
    ({ c with data := .attributes d } : StoredCondition).unserialize
        ((vals.flatMap fun v => attr CONDITIONATTR_STATS (write v)) ++ s) =
      ({ c with data := .attributes { d with
          stats := readInto d.stats d.currentStat vals
          currentStat := d.currentStat + vals.length } } : StoredCondition).unserialize s := by
  induction vals generalizing d with
  | nil => rfl
  | cons v vals ih =>
      simp (disch := decide) only [List.flatMap_cons, List.append_assoc, unserialize_attr,
        unserializeProp, field_read, if_pos, if_neg]
      rw [ih]
      simp only [readInto, List.length_cons, Nat.add_assoc, Nat.add_comm 1]

theorem readInterval_write (i : IntervalInfo) (s : PropStream) :
    readInterval (writeInterval i ++ s) = some (i, s) := by
  simp only [readInterval, writeInterval, List.append_assoc, read_write_32, Option.bind_eq_bind,
    Option.bind_some]
  rfl

theorem readOutfit_write (o : Outfit) (s : PropStream) :
    readOutfit (writeOutfit o ++ s) = some (o, s) := by
  simp only [readOutfit, writeOutfit, List.append_assoc, read_write_16, read_write_8,
    Option.bind_eq_bind, Option.bind_some]
  rfl

/-- The intervals of damage, each of which counts towards the ticks. -/
theorem unserialize_intervals (l : List IntervalInfo) (c : StoredCondition) (d : ConditionDamage)
    (s : PropStream) :
    ({ c with data := .damage d } : StoredCondition).unserialize
        ((l.flatMap fun i => attr CONDITIONATTR_INTERVALDATA (writeInterval i)) ++ s) =
      ({ c with
          ticks := l.foldl addInterval c.ticks
          data := .damage { d with damageList := d.damageList ++ l } } :
        StoredCondition).unserialize s := by
  induction l generalizing c d with
  | nil => simp
  | cons i l ih =>
      simp (disch := decide) only [List.flatMap_cons, List.append_assoc, unserialize_attr,
        unserializeProp, field, readInterval_write, if_pos, if_neg, Option.map_some]
      rw [ih { c with ticks := addInterval c.ticks i }]
      simp

theorem unserialize_data (c : StoredCondition) (s : PropStream) :
    ({ c with
        ticks := if c.data.cls = .damage then 0 else c.ticks
        data := c.data.cls.blank } : StoredCondition).unserialize
      (serializeData c.data ++ (write CONDITIONATTR_END ++ s)) = (some c.restored, s) := by
  rcases c with ⟨conditionType, id, ticks, subId, isBuff, data⟩
  cases data with
  | generic => exact unserialize_end _ _
  | invisible => exact unserialize_end _ _
  | spellCooldown => exact unserialize_end _ _
  | spellGroupCooldown => exact unserialize_end _ _
  | attributes d =>
      simp only [serializeData, ConditionData.cls, ConditionClass.blank, List.append_assoc]
      rw [unserialize_skills _ ⟨_, _, _, _, _, _⟩, unserialize_stats _ ⟨_, _, _, _, _, _⟩,
        unserialize_end, readInto_ofFn, readInto_ofFn, List.length_ofFn, List.length_ofFn]
      rfl
  | regeneration d =>
      simp (disch := decide) only [serializeData, ConditionData.cls, ConditionClass.blank,
        List.append_assoc, unserialize_attr, unserializeProp, field_read, if_neg, if_pos,
        unserialize_end]
      rfl
  | soul d =>
      simp (disch := decide) only [serializeData, ConditionData.cls, ConditionClass.blank,
        List.append_assoc, unserialize_attr, unserializeProp, field_read, if_neg, if_pos,
        unserialize_end]
      rfl
  | damage d =>
      simp (disch := decide) only [serializeData, ConditionData.cls, ConditionClass.blank,
        List.append_assoc, unserialize_attr, unserializeProp, field_read, if_neg, if_pos]
      rw [unserialize_intervals _ ⟨conditionType, id, 0, subId, isBuff, .generic⟩,
        unserialize_end, flag_ne_zero]
      rfl
  | speed d =>
      simp (disch := decide) only [serializeData, ConditionData.cls, ConditionClass.blank,
        List.append_assoc, unserialize_attr, unserializeProp, field_read, if_neg, if_pos,
        unserialize_end]
      rfl
  | outfit o =>
      simp (disch := decide) only [serializeData, ConditionData.cls, ConditionClass.blank,
        unserialize_attr, unserializeProp, field, readOutfit_write, if_pos, Option.map_some,
        unserialize_end]
      rfl
  | light d =>
      simp (disch := decide) only [serializeData, ConditionData.cls, ConditionClass.blank,
        List.append_assoc, unserialize_attr, unserializeProp, field_read, if_neg, if_pos,
        unserialize_end, setWidth_setWidth_32]
      rfl

/-! ### A condition and a list of them -/

theorem createFrom_serialize (c : StoredCondition) (s : PropStream) :
    createFrom (c.serializeBase ++ s) =
      (createCondition c.id c.conditionType c.ticks 0 c.isBuff c.subId).map fun c' => (c', s) := by
  simp only [createFrom, serializeBase, expect, attr, List.append_assoc, read_write_8,
    read_write_32, Option.bind_eq_bind, Option.bind_some, if_true, setWidth_signExtend,
    flag_ne_zero]
  rw [Option.map_eq_bind]
  rfl

/-- The object that is made for a saved condition, before its own fields are read. -/
theorem createCondition_made (made : c.Made) :
    createCondition c.id c.conditionType c.ticks 0 c.isBuff c.subId =
      some { c with
        ticks := if c.data.cls = .damage then 0 else c.ticks
        data := c.data.cls.blank } := by
  obtain ⟨t, type, same⟩ := made
  rw [createCondition, type, ConditionType.ofValue_value, Option.map_some, newData_blank,
    isDamage_iff, ← same]
  simp only [decide_eq_true_eq]

/-- One turn of the loop reads one condition. -/
theorem loadAux_serialize (made : c.Made) (s : PropStream) (stored : List StoredCondition) :
    loadAux (c.serialize ++ (write CONDITIONATTR_END ++ s)) stored =
      loadAux s (c.restored :: stored) := by
  have created : createFrom (c.serialize ++ (write CONDITIONATTR_END ++ s)) = some
      ({ c with ticks := if c.data.cls = .damage then 0 else c.ticks
                data := c.data.cls.blank }, serializeData c.data ++ (write CONDITIONATTR_END ++ s)) := by
    rw [serialize, List.append_assoc, createFrom_serialize, createCondition_made made,
      Option.map_some]
  rw [loadAux]
  split
  · next none_ => exact absurd (created.symm.trans none_) (by simp)
  · next c' rest some_ =>
      obtain ⟨rfl, rfl⟩ := Prod.mk.inj (Option.some.inj (created.symm.trans some_))
      rw [unserialize_data]
      rfl

theorem loadAux_nil (stored : List StoredCondition) : loadAux [] stored = stored := by
  rw [loadAux]
  split
  · rfl
  · next here => exact absurd here (by simp [createFrom, expect, PropStream.read])

theorem loadAux_flatMap {l : List StoredCondition} (made : ∀ c ∈ l, c.Made)
    (stored : List StoredCondition) :
    loadAux (l.flatMap fun c => c.serialize ++ write CONDITIONATTR_END) stored =
      (l.map restored).reverse ++ stored := by
  induction l generalizing stored with
  | nil => exact loadAux_nil stored
  | cons c l ih =>
      rw [List.flatMap_cons, List.append_assoc, loadAux_serialize (made c (by simp)),
        ih (fun c' h => made c' (by simp [h])), List.map_cons, List.reverse_cons,
        List.append_assoc, List.singleton_append]

/-- The conditions come back in the reverse order. -/
theorem loadConditions_saveConditions {l : List StoredCondition} (made : ∀ c ∈ l, c.Made) :
    loadConditions (saveConditions l) = ((l.filter isPersistent).map restored).reverse := by
  rw [loadConditions, saveConditions,
    loadAux_flatMap fun c h => made c (List.mem_filter.mp h).1, List.append_nil]

/-! ### The same condition -/

/-- The sum of the intervals of damage, as it is counted when they are read. -/
def counted (l : List IntervalInfo) : BitVec 32 := l.foldl addInterval 0

/-- The ticks a condition is loaded with. -/
def loadedTicks (c : StoredCondition) : BitVec 32 :=
  match c.data with
  | .damage d => counted d.damageList
  | _ => c.ticks

end StoredCondition

/-- The same class, with the same values in all the fields it writes. -/
def ConditionData.Same : ConditionData → ConditionData → Prop
  | .generic, .generic => True
  | .invisible, .invisible => True
  | .spellCooldown, .spellCooldown => True
  | .spellGroupCooldown, .spellGroupCooldown => True
  | .attributes d, .attributes d' => d'.skills = d.skills ∧ d'.stats = d.stats
  | .regeneration d, .regeneration d' =>
      d'.healthTicks = d.healthTicks ∧ d'.healthGain = d.healthGain ∧
        d'.manaTicks = d.manaTicks ∧ d'.manaGain = d.manaGain
  | .soul d, .soul d' => d'.soulTicks = d.soulTicks ∧ d'.soulGain = d.soulGain
  | .damage d, .damage d' =>
      d'.delayed = d.delayed ∧ d'.periodDamage = d.periodDamage ∧ d'.damageList = d.damageList
  | .speed d, .speed d' => d' = d
  | .outfit o, .outfit o' => o' = o
  | .light d, .light d' => d' = d
  | _, _ => False

namespace StoredCondition

open PropStream

variable {c c' : StoredCondition}

/-- A condition and what it is loaded as. -/
structure Restored (c c' : StoredCondition) : Prop where
  conditionType : c'.conditionType = c.conditionType
  id : c'.id = c.id
  subId : c'.subId = c.subId
  isBuff : c'.isBuff = c.isBuff
  ticks : c'.ticks = c.loadedTicks
  data : c.data.Same c'.data

theorem restored_restored (c : StoredCondition) : Restored c c.restored := by
  rcases c with ⟨conditionType, id, ticks, subId, isBuff, data⟩
  cases data <;> exact ⟨rfl, rfl, rfl, rfl, rfl, by simp [restored, ConditionData.Same]⟩

theorem serializeData_same {d d' : ConditionData} (h : d.Same d') :
    serializeData d' = serializeData d := by
  cases d <;> cases d' <;> simp_all [ConditionData.Same, serializeData]

/-- The bytes of a condition that kept its ticks are the same. -/
theorem Restored.serialize (h : Restored c c') (kept : c.loadedTicks = c.ticks) :
    c'.serialize = c.serialize := by
  simp only [StoredCondition.serialize, serializeBase, h.conditionType, h.id, h.subId, h.isBuff,
    h.ticks, kept, serializeData_same h.data]

theorem Restored.isPersistent (h : Restored c c') (kept : c.loadedTicks = c.ticks) :
    c'.isPersistent = c.isPersistent := by
  simp only [StoredCondition.isPersistent, h.id, h.ticks, kept]

theorem saveConditions_restored {l l' : List StoredCondition} (h : List.Forall₂ Restored l l')
    (kept : ∀ c ∈ l, c.loadedTicks = c.ticks) : saveConditions l' = saveConditions l := by
  induction h with
  | nil => rfl
  | @cons c c' l l' first rest ih =>
      have here := kept c (by simp)
      have tail := ih fun x hx => kept x (by simp [hx])
      simp only [saveConditions] at tail
      simp only [saveConditions, List.filter_cons, first.isPersistent here]
      split
      · rw [List.flatMap_cons, List.flatMap_cons, first.serialize here, tail]
      · exact tail

/-- A save and a load give every persistent condition back, the last one first, with its
type, numbers and written fields and, unless it is damage, its ticks; and conditions whose
ticks were kept are saved to the same bytes when they are put back in order. -/
theorem restored_in_reverse {l : List StoredCondition} (made : ∀ c ∈ l, c.Made) :
    List.Forall₂ Restored (l.filter isPersistent) (loadConditions (saveConditions l)).reverse ∧
      ((∀ c ∈ l.filter isPersistent, c.loadedTicks = c.ticks) →
        saveConditions (loadConditions (saveConditions l)).reverse = saveConditions l) := by
  have loaded : (loadConditions (saveConditions l)).reverse =
      (l.filter isPersistent).map restored := by
    rw [loadConditions_saveConditions made, List.reverse_reverse]
  have each : List.Forall₂ Restored (l.filter isPersistent)
      (loadConditions (saveConditions l)).reverse := by
    rw [loaded, List.forall₂_map_right_iff]
    exact List.forall₂_same.mpr fun c _ => restored_restored c
  refine ⟨each, fun kept => ?_⟩
  have twice : saveConditions (l.filter isPersistent) = saveConditions l := by
    simp only [saveConditions, List.filter_filter, Bool.and_self]
  exact (saveConditions_restored each kept).trans twice

namespace Sample

/-- A mana shield and a light. -/
def shield : StoredCondition :=
  { conditionType := ConditionType.manashield.value, id := 0, ticks := 200000, subId := 0
    isBuff := false, data := .generic }

def lantern : StoredCondition :=
  { conditionType := ConditionType.light.value, id := 0, ticks := 60000, subId := 0
    isBuff := false, data := .light { level := 6, color := 215 } }

theorem both_made : ∀ c ∈ [shield, lantern], c.Made := by
  intro c h
  rcases List.mem_cons.mp h with rfl | h
  · exact ⟨.manashield, rfl, rfl⟩
  · obtain rfl := List.mem_singleton.mp h
    exact ⟨.light, rfl, rfl⟩

theorem shield_and_lantern :
    List.Forall₂ Restored ([shield, lantern].filter isPersistent)
        (loadConditions (saveConditions [shield, lantern])).reverse ∧
      ((∀ c ∈ [shield, lantern].filter isPersistent, c.loadedTicks = c.ticks) →
        saveConditions (loadConditions (saveConditions [shield, lantern])).reverse =
          saveConditions [shield, lantern]) :=
  restored_in_reverse both_made

/-- The light is loaded before the mana shield. -/
theorem lantern_before_shield :
    ¬ ∀ l : List StoredCondition, (∀ c ∈ l, c.Made ∧ c.isPersistent) →
      List.Forall₂ (fun c c' => c'.conditionType = c.conditionType) l
        (loadConditions (saveConditions l)) := by
  intro inOrder
  have both : ∀ c ∈ [shield, lantern], c.Made ∧ c.isPersistent := by
    intro c h
    refine ⟨both_made c h, ?_⟩
    rcases List.mem_cons.mp h with rfl | h
    · rfl
    · obtain rfl := List.mem_singleton.mp h
      rfl
  have wrong := inOrder _ both
  rw [loadConditions_saveConditions both_made] at wrong
  have types := List.forall₂_cons.mp wrong |>.1
  exact absurd types (by decide)

end Sample

end StoredCondition

end TibServer
