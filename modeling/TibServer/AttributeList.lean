import TibServer.ItemType

/-!
The list of attributes as it is kept (`item.h`, `item.cpp`): a forward list of entries, each with a
union that is zero at first, and the bits of their types. Every history of operations leads where
the same operations lead a finite map, except those that write a type which neither mask has.
-/

namespace TibServer.AttributeList

/-- The union; of a null string nothing can be read. -/
inductive Value
  | zero
  | integer (n : Int)
  | string (s : List UInt8)
  deriving DecidableEq, Repr

/-- `value.integer += value`; a union of zeros is the integer zero. -/
def Value.add (value : Int) : Value → Value
  | integer n => integer (n + value)
  | _ => integer value

structure Attribute where
  type : BitVec 32
  value : Value := .zero
  deriving DecidableEq, Repr

structure Attributes where
  attributes : List Attribute := []
  attributeBits : BitVec 32 := 0
  deriving DecidableEq, Repr

def isIntAttrType (type : BitVec 32) : Bool := (type &&& 0x7FFE13#32) != 0

def isStrAttrType (type : BitVec 32) : Bool := (type &&& 0x8001EC#32) != 0

namespace Attributes

def hasAttribute (a : Attributes) (type : BitVec 32) : Bool := (type &&& a.attributeBits) != 0

def getExistingAttr (a : Attributes) (type : BitVec 32) : Option Attribute :=
  if a.hasAttribute type then a.attributes.find? (·.type == type) else none

/-- The first entry of the type, written through the reference to it. -/
def writeFirst (type : BitVec 32) (f : Value → Value) : List Attribute → Option (List Attribute)
  | [] => none
  | e :: l =>
      if e.type == type then some ({ e with value := f e.value } :: l)
      else (writeFirst type f l).map (e :: ·)

/-- `getAttr`, and what is written through the reference that it returns. -/
def getAttr (a : Attributes) (type : BitVec 32) (f : Value → Value) : Attributes :=
  match if a.hasAttribute type then writeFirst type f a.attributes else none with
  | some attributes => { a with attributes }
  | none =>
      { attributes := ⟨type, f .zero⟩ :: a.attributes
        attributeBits := a.attributeBits ||| type }

def getIntAttr (a : Attributes) (type : BitVec 32) : Option Int :=
  if !isIntAttrType type then some 0
  else
    match a.getExistingAttr type with
    | none => some 0
    | some ⟨_, .zero⟩ => some 0
    | some ⟨_, .integer n⟩ => some n
    | some ⟨_, .string _⟩ => none

def getStrAttr (a : Attributes) (type : BitVec 32) : Option (List UInt8) :=
  if !isStrAttrType type then some []
  else
    match a.getExistingAttr type with
    | none => some []
    | some ⟨_, .string s⟩ => some s
    | some _ => none

def setIntAttr (a : Attributes) (type : BitVec 32) (value : Int) : Attributes :=
  if !isIntAttrType type then a else a.getAttr type fun _ => .integer value

def increaseIntAttr (a : Attributes) (type : BitVec 32) (value : Int) : Attributes :=
  if !isIntAttrType type then a else a.getAttr type (Value.add value)

def setStrAttr (a : Attributes) (type : BitVec 32) (value : List UInt8) : Attributes :=
  if !isStrAttrType type then a
  else if value.isEmpty then a
  else a.getAttr type fun _ => .string value

/-- The loop with the trailing iterator, from the entry after it. -/
def eraseAfter (type : BitVec 32) : List Attribute → List Attribute
  | [] => []
  | e :: l => if e.type == type then l else e :: eraseAfter type l

/-- The first entry is looked at whether there is one or not. -/
def removeAttribute (a : Attributes) (type : BitVec 32) : Option Attributes :=
  if !a.hasAttribute type then some a
  else
    match a.attributes with
    | [] => none
    | e :: l =>
        let attributes := if e.type == type then l else e :: eraseAfter type l
        some { attributes, attributeBits := a.attributeBits &&& ~~~type }

end Attributes

/-! ### Histories -/

inductive Op
  | setInt (type : AttrType) (value : Int)
  | increaseInt (type : AttrType) (value : Int)
  | setStr (type : AttrType) (value : List UInt8)
  | remove (type : AttrType)

def Attributes.step (a : Attributes) : Op → Option Attributes
  | .setInt type value => some (a.setIntAttr type.bit value)
  | .increaseInt type value => some (a.increaseIntAttr type.bit value)
  | .setStr type value => some (a.setStrAttr type.bit value)
  | .remove type => a.removeAttribute type.bit

def Attributes.run (ops : List Op) : Option Attributes := ops.foldlM Attributes.step {}

/-! ### The finite map -/

/-- The types that are used for strings; all others are used for integers. -/
def isString : AttrType → Bool
  | .description | .text | .writer | .name | .article | .pluralName | .special => true
  | _ => false

abbrev AttrMap := AttrType → Option AttrValue

def AttrMap.int (m : AttrMap) (t : AttrType) : Int :=
  match m t with
  | some (.integer n) => n
  | _ => 0

def AttrMap.str (m : AttrMap) (t : AttrType) : List UInt8 :=
  match m t with
  | some (.string s) => s
  | _ => []

def AttrMap.step (m : AttrMap) : Op → AttrMap
  | .setInt t n => if isString t then m else Function.update m t (some (.integer n))
  | .increaseInt t n =>
      if isString t then m else Function.update m t (some (.integer (m.int t + n)))
  | .setStr t s =>
      if isString t ∧ s ≠ [] then Function.update m t (some (.string s)) else m
  | .remove t => Function.update m t none

def AttrMap.run (ops : List Op) : AttrMap := ops.foldl AttrMap.step fun _ => none

/-- The list, the bits and the values are those of the map. -/
structure Agrees (a : Attributes) (m : AttrMap) : Prop where
  entries : ∀ t : AttrType,
    (a.attributes.filter (·.type == t.bit)).length = if (m t).isSome then 1 else 0
  declared : ∀ e ∈ a.attributes, ∃ t : AttrType, e.type = t.bit
  bits : ∀ i, a.attributeBits.getLsbD i = true ↔ ∃ e ∈ a.attributes, e.type.getLsbD i = true
  int : ∀ t : AttrType, a.getIntAttr t.bit = some (m.int t)
  str : ∀ t : AttrType, a.getStrAttr t.bit = some (m.str t)

/-- An operation that does not write the type that is in neither mask. -/
def Op.Masked : Op → Prop
  | .setInt t _ => t ≠ .imbuingSlots
  | .increaseInt t _ => t ≠ .imbuingSlots
  | _ => True

/-! ### The list simulates the attributes without duplicates -/

def ofValue : AttrValue → Value
  | .integer n => .integer n
  | .string s => .string s

def ofAttribute (e : TibServer.Attribute) : Attribute := ⟨e.type.bit, ofValue e.value⟩

structure Sim (a : Attributes) (b : ItemAttributes) : Prop where
  list : a.attributes = b.attributes.map ofAttribute
  bits : a.attributeBits = b.attributeBits

/-- Integers are under the types of one mask, strings under those of the other. -/
def Typed (b : ItemAttributes) : Prop :=
  ∀ e ∈ b.attributes, (e.type.isIntAttrType = true ∧ ∃ n, e.value = .integer n) ∨
    (e.type.isStrAttrType = true ∧ ∃ s, e.value = .string s)

def increaseIntAttr (b : ItemAttributes) (t : AttrType) (n : Int) : ItemAttributes :=
  if t.isIntAttrType then b.setAttr t (.integer (b.getIntAttr t + n)) else b

def stepAttributes (b : ItemAttributes) : Op → ItemAttributes
  | .setInt t n => b.setIntAttr t n
  | .increaseInt t n => increaseIntAttr b t n
  | .setStr t s => b.setStrAttr t s
  | .remove t => b.removeAttribute t

section

variable {a : Attributes} {b : ItemAttributes} {t u : AttrType}

theorem bit_inj : t.bit = u.bit ↔ t = u := by
  constructor
  · intro h
    have hbit := u.getLsbD_bit u
    rw [← h, t.getLsbD_bit] at hbit
    simpa using hbit
  · rintro rfl
    rfl

theorem bit_and_ne_zero (t : AttrType) (bits : BitVec 32) :
    ((t.bit &&& bits) != 0) = bits.getLsbD t.index := by
  unfold AttrType.bit
  rw [BitVec.twoPow_and]
  cases bits.getLsbD t.index
  · rfl
  · have hne : BitVec.twoPow 32 t.index ≠ 0 := by
      intro hzero
      have hbit := congrArg (fun x => x.getLsbD t.index) hzero
      simp [t.index_lt] at hbit
    simpa using hne

theorem isIntAttrType_bit (t : AttrType) : isIntAttrType t.bit = t.isIntAttrType := rfl

theorem isStrAttrType_bit (t : AttrType) : isStrAttrType t.bit = t.isStrAttrType := rfl

theorem Sim.hasAttribute (h : Sim a b) (t : AttrType) :
    a.hasAttribute t.bit = b.hasAttribute t := by
  unfold Attributes.hasAttribute
  rw [bit_and_ne_zero, h.bits]
  rfl

theorem find_ofAttribute (l : List TibServer.Attribute) (t : AttrType) :
    (l.map ofAttribute).find? (·.type == t.bit) = (l.find? (·.type = t)).map ofAttribute := by
  rw [List.find?_map]
  congr 2
  funext e
  change (e.type.bit == t.bit) = decide (e.type = t)
  rw [Bool.eq_iff_iff, beq_iff_eq, decide_eq_true_eq, bit_inj]

theorem Sim.getExistingAttr (h : Sim a b) (t : AttrType) :
    (a.getExistingAttr t.bit).map (·.value) = (b.getExistingAttr t).map ofValue := by
  unfold Attributes.getExistingAttr ItemAttributes.getExistingAttr
  rw [h.hasAttribute, h.list]
  split
  · rw [find_ofAttribute, Option.map_map, Option.map_map]
    rfl
  · rfl

/-- The entry that the reference points to is the only one of its type. -/
theorem writeFirst_ofAttribute {l : List TibServer.Attribute} {f : Value → Value} {v : AttrValue}
    (hmem : t ∈ l.map TibServer.Attribute.type)
    (hnodup : (l.map TibServer.Attribute.type).Nodup)
    (hf : ∀ e ∈ l, e.type = t → f (ofValue e.value) = ofValue v) :
    Attributes.writeFirst t.bit f (l.map ofAttribute) =
      some ((l.map fun e => if e.type = t then ⟨t, v⟩ else e).map ofAttribute) := by
  induction l with
  | nil => exact absurd hmem List.not_mem_nil
  | cons e l ih =>
      rw [List.map_cons, List.nodup_cons] at hnodup
      rw [List.map_cons, Attributes.writeFirst]
      by_cases htype : e.type = t
      · have hrest :
            (l.map fun e => if e.type = t then (⟨t, v⟩ : TibServer.Attribute) else e) = l := by
          conv_rhs => rw [← List.map_id l]
          refine List.map_congr_left fun e' he' => if_neg fun htype' => hnodup.1 ?_
          rw [htype, ← htype']
          exact List.mem_map_of_mem he'
        have hfound : ((ofAttribute e).type == t.bit) = true := beq_iff_eq.mpr (bit_inj.mpr htype)
        have hwritten : ({ ofAttribute e with value := f (ofAttribute e).value } : Attribute) =
            ofAttribute ⟨t, v⟩ := by
          unfold ofAttribute
          dsimp only
          rw [hf e List.mem_cons_self htype, htype]
        rw [if_pos hfound, List.map_cons, if_pos htype, hrest, List.map_cons, hwritten]
      · have hother : ¬((ofAttribute e).type == t.bit) = true := fun hfound =>
          htype (bit_inj.mp (beq_iff_eq.mp hfound))
        have hmem' := (List.mem_cons.mp hmem).resolve_left (Ne.symm htype)
        rw [if_neg hother, ih hmem' hnodup.2 fun e' he' => hf e' (List.mem_cons_of_mem _ he'),
          List.map_cons, if_neg htype]
        rfl

/-- Writing through the reference is writing the attribute. -/
theorem Sim.getAttr (h : Sim a b) {f : Value → Value} {v : AttrValue}
    (hf : ∀ e ∈ b.attributes, e.type = t → f (ofValue e.value) = ofValue v)
    (hzero : b.hasAttribute t = false → f .zero = ofValue v) :
    Sim (a.getAttr t.bit f) (b.setAttr t v) := by
  unfold Attributes.getAttr ItemAttributes.setAttr
  rw [h.hasAttribute, h.list, h.bits]
  split_ifs with hhas
  · rw [writeFirst_ofAttribute ((b.hasAttribute_iff t).mp hhas) b.nodup hf]
    exact ⟨rfl, rfl⟩
  · refine ⟨?_, rfl⟩
    change (⟨t.bit, f .zero⟩ : Attribute) :: _ = _
    rw [hzero (by simpa using hhas)]
    rfl

theorem Typed.integer (h : Typed b) (ht : t.isIntAttrType = true) {e : TibServer.Attribute}
    (he : e ∈ b.attributes) (htype : e.type = t) : ∃ n, e.value = .integer n := by
  rcases h e he with ⟨-, hn⟩ | ⟨hstr, -⟩
  · exact hn
  · exfalso
    rw [htype] at hstr
    cases t <;> revert ht hstr <;> decide

/-- An attribute that is there is the one that is found. -/
theorem getExistingAttr_of_mem {e : TibServer.Attribute} (he : e ∈ b.attributes) :
    b.getExistingAttr e.type = some e.value := by
  have hhas := (b.hasAttribute_iff e.type).mpr (List.mem_map_of_mem he)
  have hnodup := b.nodup
  unfold ItemAttributes.getExistingAttr
  rw [if_pos hhas]
  generalize b.attributes = l at he hnodup
  induction l with
  | nil => exact absurd he List.not_mem_nil
  | cons e' l ih =>
      rw [List.map_cons, List.nodup_cons] at hnodup
      rcases List.mem_cons.mp he with rfl | hrest
      · rw [List.find?_cons_of_pos (by simp)]
        rfl
      · have hne : e'.type ≠ e.type := fun hsame =>
          hnodup.1 (hsame ▸ List.mem_map_of_mem hrest)
        rw [List.find?_cons_of_neg (by simpa using hne)]
        exact ih hrest hnodup.2

theorem eraseAfter_ofAttribute {l : List TibServer.Attribute}
    (hnodup : (l.map TibServer.Attribute.type).Nodup) :
    Attributes.eraseAfter t.bit (l.map ofAttribute) =
      (l.filter (·.type ≠ t)).map ofAttribute := by
  induction l with
  | nil => rfl
  | cons e l ih =>
      rw [List.map_cons, List.nodup_cons] at hnodup
      rw [List.map_cons, Attributes.eraseAfter]
      by_cases htype : e.type = t
      · have hrest : l.filter (·.type ≠ t) = l := by
          refine List.filter_eq_self.mpr fun e' he' => ?_
          have hne : e'.type ≠ t := by
            rintro rfl
            exact hnodup.1 (htype ▸ List.mem_map_of_mem he')
          simpa using hne
        have hfound : ((ofAttribute e).type == t.bit) = true := beq_iff_eq.mpr (bit_inj.mpr htype)
        rw [if_pos hfound, List.filter_cons_of_neg (by simpa using htype), hrest]
      · have hother : ¬((ofAttribute e).type == t.bit) = true := fun hfound =>
          htype (bit_inj.mp (beq_iff_eq.mp hfound))
        rw [if_neg hother, List.filter_cons_of_pos (by simpa using htype), ih hnodup.2]
        rfl

/-- The first entry is erased as the ones after it are. -/
theorem Sim.removeAttribute (h : Sim a b) (t : AttrType) :
    ∃ a', a.removeAttribute t.bit = some a' ∧ Sim a' (b.removeAttribute t) := by
  unfold Attributes.removeAttribute ItemAttributes.removeAttribute
  rw [h.hasAttribute]
  cases hhas : b.hasAttribute t with
  | false => exact ⟨a, rfl, h⟩
  | true =>
      have hmem := (b.hasAttribute_iff t).mp hhas
      have herase := eraseAfter_ofAttribute (t := t) b.nodup
      rw [← h.list] at herase
      cases hlist : a.attributes with
      | nil =>
          rw [h.list, List.map_eq_nil_iff] at hlist
          rw [hlist] at hmem
          exact absurd hmem List.not_mem_nil
      | cons e l =>
          rw [hlist] at herase
          refine ⟨_, rfl, herase, ?_⟩
          change a.attributeBits &&& _ = _
          rw [h.bits]
          rfl

/-! ### One operation -/

theorem Typed.setAttr (h : Typed b) {v : AttrValue}
    (hv : (t.isIntAttrType = true ∧ ∃ n, v = .integer n) ∨
      (t.isStrAttrType = true ∧ ∃ s, v = .string s)) : Typed (b.setAttr t v) := by
  intro e he
  unfold ItemAttributes.setAttr at he
  split at he
  · obtain ⟨e', he', rfl⟩ := List.mem_map.mp he
    split
    · exact hv
    · exact h e' he'
  · rcases List.mem_cons.mp he with rfl | hrest
    · exact hv
    · exact h e hrest

theorem Typed.step (h : Typed b) (op : Op) : Typed (stepAttributes b op) := by
  cases op with
  | setInt t n =>
      change Typed (b.setIntAttr t n)
      unfold ItemAttributes.setIntAttr
      split
      · exact h.setAttr (.inl ⟨‹_›, n, rfl⟩)
      · exact h
  | increaseInt t n =>
      change Typed (AttributeList.increaseIntAttr b t n)
      unfold AttributeList.increaseIntAttr
      split
      · exact h.setAttr (.inl ⟨‹_›, _, rfl⟩)
      · exact h
  | setStr t s =>
      change Typed (b.setStrAttr t s)
      unfold ItemAttributes.setStrAttr
      split
      · split
        · exact h
        · exact h.setAttr (.inr ⟨‹_›, s, rfl⟩)
      · exact h
  | remove t =>
      change Typed (b.removeAttribute t)
      unfold ItemAttributes.removeAttribute
      split
      · exact fun e he => h e (List.mem_of_mem_filter he)
      · exact h

theorem Sim.setIntAttr (h : Sim a b) (t : AttrType) (n : Int) :
    Sim (a.setIntAttr t.bit n) (b.setIntAttr t n) := by
  unfold Attributes.setIntAttr ItemAttributes.setIntAttr
  rw [isIntAttrType_bit]
  cases t.isIntAttrType with
  | false => exact h
  | true => exact h.getAttr (v := .integer n) (fun _ _ _ => rfl) fun _ => rfl

theorem Sim.setStrAttr (h : Sim a b) (t : AttrType) (s : List UInt8) :
    Sim (a.setStrAttr t.bit s) (b.setStrAttr t s) := by
  unfold Attributes.setStrAttr ItemAttributes.setStrAttr
  rw [isStrAttrType_bit]
  cases t.isStrAttrType with
  | false => exact h
  | true =>
      cases s with
      | nil => exact h
      | cons c s => exact h.getAttr (v := .string (c :: s)) (fun _ _ _ => rfl) fun _ => rfl

/-- The integer that is increased is the one of the type, or a new one. -/
theorem Sim.increaseIntAttr (h : Sim a b) (hb : Typed b) (t : AttrType) (n : Int) :
    Sim (a.increaseIntAttr t.bit n) (AttributeList.increaseIntAttr b t n) := by
  unfold Attributes.increaseIntAttr AttributeList.increaseIntAttr
  rw [isIntAttrType_bit]
  cases ht : t.isIntAttrType with
  | false => exact h
  | true =>
      refine h.getAttr (v := .integer (b.getIntAttr t + n)) (fun e he htype => ?_) fun habsent => ?_
      · obtain ⟨k, hk⟩ := hb.integer ht he htype
        have hfound := getExistingAttr_of_mem he
        unfold ItemAttributes.getIntAttr
        rw [if_pos ht, ← htype, hfound, hk]
        rfl
      · unfold ItemAttributes.getIntAttr ItemAttributes.getExistingAttr
        rw [if_pos ht, habsent]
        exact congrArg Value.integer (Int.zero_add n).symm

theorem Sim.step (h : Sim a b) (hb : Typed b) (op : Op) :
    ∃ a', a.step op = some a' ∧ Sim a' (stepAttributes b op) := by
  cases op with
  | setInt t n => exact ⟨_, rfl, h.setIntAttr t n⟩
  | increaseInt t n => exact ⟨_, rfl, h.increaseIntAttr hb t n⟩
  | setStr t s => exact ⟨_, rfl, h.setStrAttr t s⟩
  | remove t => exact h.removeAttribute t

/-- No bit beyond those of the types is set. -/
def Low (b : ItemAttributes) : Prop :=
  ∀ i, b.attributeBits.getLsbD i = true → ∃ t : AttrType, t.index = i

theorem Low.setAttr (h : Low b) (t : AttrType) (v : AttrValue) : Low (b.setAttr t v) := by
  intro i hi
  unfold ItemAttributes.setAttr at hi
  split at hi
  · exact h i hi
  · rcases Bool.or_eq_true_iff.mp (BitVec.getLsbD_or ▸ hi) with hold | hnew
    · exact h i hold
    · unfold AttrType.bit at hnew
      rw [BitVec.getLsbD_twoPow, Bool.and_eq_true, decide_eq_true_eq, decide_eq_true_eq] at hnew
      exact ⟨t, hnew.2⟩

theorem Low.step (h : Low b) (op : Op) : Low (stepAttributes b op) := by
  cases op with
  | setInt t n =>
      change Low (b.setIntAttr t n)
      unfold ItemAttributes.setIntAttr
      split
      · exact h.setAttr t _
      · exact h
  | increaseInt t n =>
      change Low (AttributeList.increaseIntAttr b t n)
      unfold AttributeList.increaseIntAttr
      split
      · exact h.setAttr t _
      · exact h
  | setStr t s =>
      change Low (b.setStrAttr t s)
      unfold ItemAttributes.setStrAttr
      split
      · split
        · exact h
        · exact h.setAttr t _
      · exact h
  | remove t =>
      change Low (b.removeAttribute t)
      unfold ItemAttributes.removeAttribute
      split
      · intro i hi
        rw [BitVec.getLsbD_and, Bool.and_eq_true] at hi
        exact h i hi.1
      · exact h

/-! ### Whole histories -/

def runAttributes (ops : List Op) : ItemAttributes := ops.foldl stepAttributes .empty

theorem runAttributes_concat (ops : List Op) (op : Op) :
    runAttributes (ops ++ [op]) = stepAttributes (runAttributes ops) op := by
  unfold runAttributes
  rw [List.foldl_append]
  rfl

theorem typed_run (ops : List Op) : Typed (runAttributes ops) := by
  induction ops using List.reverseRecOn with
  | nil => exact fun e he => absurd he List.not_mem_nil
  | append_singleton ops op ih =>
      rw [runAttributes_concat]
      exact ih.step op

theorem low_run (ops : List Op) : Low (runAttributes ops) := by
  induction ops using List.reverseRecOn with
  | nil =>
      intro i hi
      change (0 : BitVec 32).getLsbD i = true at hi
      simp at hi
  | append_singleton ops op ih =>
      rw [runAttributes_concat]
      exact ih.step op

theorem sim_run (ops : List Op) :
    ∃ a, Attributes.run ops = some a ∧ Sim a (runAttributes ops) := by
  induction ops using List.reverseRecOn with
  | nil => exact ⟨{}, rfl, rfl, rfl⟩
  | append_singleton ops op ih =>
      obtain ⟨a, hrun, hsim⟩ := ih
      obtain ⟨a', hstep, hsim'⟩ := hsim.step (typed_run ops) op
      refine ⟨a', ?_, ?_⟩
      · unfold Attributes.run at hrun ⊢
        rw [List.foldlM_append, hrun]
        change Attributes.step a op >>= _ = _
        rw [hstep]
        rfl
      · rw [runAttributes_concat]
        exact hsim'

/-! ### The attributes are the map -/

def Matches (b : ItemAttributes) (m : AttrMap) : Prop := ∀ t, b.getExistingAttr t = m t

theorem isIntAttrType_eq (h : t ≠ .imbuingSlots) : t.isIntAttrType = !isString t := by
  cases t <;> first | rfl | exact absurd rfl h

theorem isStrAttrType_eq (t : AttrType) : t.isStrAttrType = isString t := by
  cases t <;> rfl

theorem getExistingAttr_removeAttribute (b : ItemAttributes) (t u : AttrType) :
    (b.removeAttribute t).getExistingAttr u = if u = t then none else b.getExistingAttr u := by
  have habsent : ∀ b : ItemAttributes, b.hasAttribute t = false → b.getExistingAttr t = none := by
    intro b hb
    unfold ItemAttributes.getExistingAttr
    rw [if_neg (by simpa using hb)]
  rcases eq_or_ne u t with rfl | hne
  · rw [if_pos rfl]
    refine habsent _ ?_
    rw [← Bool.not_eq_true, ItemAttributes.hasAttribute_iff]
    unfold ItemAttributes.removeAttribute
    split
    · simp
    · rename_i hhas
      rwa [ItemAttributes.hasAttribute_iff] at hhas
  · rw [if_neg hne]
    unfold ItemAttributes.getExistingAttr
    rw [ItemAttributes.hasAttribute_removeAttribute b (Ne.symm hne)]
    unfold ItemAttributes.removeAttribute
    have hfind : (b.attributes.filter (·.type ≠ t)).find? (·.type = u) =
        b.attributes.find? (·.type = u) := by
      rw [List.find?_filter]
      congr 1
      funext e
      by_cases he : e.type = u
      · simp [he, hne]
      · simp [he]
    split_ifs
    · rw [hfind]
    · rfl
    · rfl

theorem Matches.setAttr {m : AttrMap} (h : Matches b m) (t : AttrType) (v : AttrValue) :
    Matches (b.setAttr t v) (Function.update m t (some v)) := by
  intro u
  rw [ItemAttributes.getExistingAttr_setAttr, Function.update_apply, h u]

theorem Matches.int {m : AttrMap} (h : Matches b m) (ht : t.isIntAttrType = true) :
    b.getIntAttr t = m.int t := by
  have hvalue := h t
  unfold ItemAttributes.getIntAttr AttrMap.int
  rw [if_pos ht]
  generalize b.getExistingAttr t = e at hvalue
  subst hvalue
  rcases m t with _ | (n | s) <;> rfl

theorem Matches.step {m : AttrMap} (h : Matches b m) {op : Op} (hop : op.Masked) :
    Matches (stepAttributes b op) (m.step op) := by
  cases op with
  | setInt t n =>
      change Matches (b.setIntAttr t n) (if isString t then m else _)
      unfold ItemAttributes.setIntAttr
      rw [isIntAttrType_eq hop]
      cases isString t with
      | true => exact h
      | false => exact h.setAttr t _
  | increaseInt t n =>
      have hmask := isIntAttrType_eq hop
      change Matches (AttributeList.increaseIntAttr b t n) (if isString t then m else _)
      unfold AttributeList.increaseIntAttr
      cases hstr : isString t with
      | true =>
          rw [hmask, hstr]
          exact h
      | false =>
          rw [h.int (by rw [hmask, hstr]; rfl), hmask, hstr]
          exact h.setAttr t _
  | setStr t s =>
      change Matches (b.setStrAttr t s) (if isString t ∧ s ≠ [] then _ else m)
      unfold ItemAttributes.setStrAttr
      rw [isStrAttrType_eq]
      cases hstr : isString t with
      | false => exact h
      | true =>
          by_cases hs : s = []
          · rw [if_pos rfl, if_pos hs, if_neg (by simp [hs])]
            exact h
          · rw [if_pos rfl, if_neg hs, if_pos ⟨rfl, hs⟩]
            exact h.setAttr t _
  | remove t =>
      intro u
      change (b.removeAttribute t).getExistingAttr u = Function.update m t none u
      rw [getExistingAttr_removeAttribute, Function.update_apply, h u]

theorem mem_of_getExistingAttr {v : AttrValue} (h : b.getExistingAttr t = some v) :
    ∃ e ∈ b.attributes, e.type = t ∧ e.value = v := by
  unfold ItemAttributes.getExistingAttr at h
  split at h
  · obtain ⟨e, he, hv⟩ := Option.map_eq_some_iff.mp h
    exact ⟨e, List.mem_of_find?_eq_some he, by simpa using List.find?_some he, hv⟩
  · exact absurd h.symm (Option.some_ne_none _)

theorem Typed.found (h : Typed b) {v : AttrValue} (hv : b.getExistingAttr t = some v) :
    (t.isIntAttrType = true ∧ ∃ n, v = .integer n) ∨
      (t.isStrAttrType = true ∧ ∃ s, v = .string s) := by
  obtain ⟨e, he, rfl, rfl⟩ := mem_of_getExistingAttr hv
  exact h e he

theorem masks_disjoint (h : t.isIntAttrType = true) : t.isStrAttrType = false := by
  cases t <;> revert h <;> decide

theorem Sim.entries (h : Sim a b) (t : AttrType) :
    (a.attributes.filter (·.type == t.bit)).length = if b.hasAttribute t then 1 else 0 := by
  have hcount := b.nodup.count (a := t)
  have hfilter : (a.attributes.filter (·.type == t.bit)).length =
      (b.attributes.map TibServer.Attribute.type).count t := by
    rw [h.list, ← List.countP_eq_length_filter, List.countP_map, List.count, List.countP_map]
    congr 1
    funext e
    change (e.type.bit == t.bit) = (e.type == t)
    rw [Bool.eq_iff_iff, beq_iff_eq, beq_iff_eq, bit_inj]
  rw [hfilter, hcount]
  simp only [b.hasAttribute_iff]

theorem Sim.typeBits (h : Sim a b) (hb : Low b) (i : Nat) :
    a.attributeBits.getLsbD i = true ↔ ∃ e ∈ a.attributes, e.type.getLsbD i = true := by
  rw [h.bits, h.list]
  constructor
  · intro hi
    obtain ⟨t, rfl⟩ := hb i hi
    obtain ⟨e, he, htype⟩ := List.mem_map.mp ((b.bits t).mp hi)
    refine ⟨ofAttribute e, List.mem_map_of_mem he, ?_⟩
    change e.type.bit.getLsbD t.index = true
    rw [htype, AttrType.getLsbD_bit, decide_eq_true_eq]
  · rintro ⟨e', he', hi⟩
    obtain ⟨e, he, rfl⟩ := List.mem_map.mp he'
    change e.type.bit.getLsbD i = true at hi
    unfold AttrType.bit at hi
    rw [BitVec.getLsbD_twoPow, Bool.and_eq_true, decide_eq_true_eq, decide_eq_true_eq] at hi
    rw [← hi.2]
    exact (b.bits e.type).mpr (List.mem_map_of_mem he)

theorem Sim.int {m : AttrMap} (h : Sim a b) (hb : Typed b) (hm : Matches b m) (t : AttrType) :
    a.getIntAttr t.bit = some (m.int t) := by
  have hfound := h.getExistingAttr t
  unfold Attributes.getIntAttr AttrMap.int
  rw [isIntAttrType_bit, ← hm t]
  cases hvalue : b.getExistingAttr t with
  | none =>
      rw [hvalue, Option.map_none, Option.map_eq_none_iff] at hfound
      rw [hfound]
      exact ite_self _
  | some v =>
      rw [hvalue, Option.map_some] at hfound
      obtain ⟨⟨type, value⟩, hattr, rfl⟩ := Option.map_eq_some_iff.mp hfound
      rw [hattr]
      rcases hb.found hvalue with ⟨ht, n, rfl⟩ | ⟨ht, s, rfl⟩
      · rw [ht]
        rfl
      · have hint : t.isIntAttrType = false := by
          by_contra hint
          rw [masks_disjoint (by simpa using hint)] at ht
          exact absurd ht Bool.false_ne_true
        rw [hint]
        rfl

theorem Sim.str {m : AttrMap} (h : Sim a b) (hb : Typed b) (hm : Matches b m) (t : AttrType) :
    a.getStrAttr t.bit = some (m.str t) := by
  have hfound := h.getExistingAttr t
  unfold Attributes.getStrAttr AttrMap.str
  rw [isStrAttrType_bit, ← hm t]
  cases hvalue : b.getExistingAttr t with
  | none =>
      rw [hvalue, Option.map_none, Option.map_eq_none_iff] at hfound
      rw [hfound]
      exact ite_self _
  | some v =>
      rw [hvalue, Option.map_some] at hfound
      obtain ⟨⟨type, value⟩, hattr, rfl⟩ := Option.map_eq_some_iff.mp hfound
      rw [hattr]
      rcases hb.found hvalue with ⟨ht, n, rfl⟩ | ⟨ht, s, rfl⟩
      · rw [masks_disjoint ht]
        rfl
      · rw [ht]
        rfl

theorem Sim.agrees {m : AttrMap} (h : Sim a b) (hb : Typed b) (hlow : Low b) (hm : Matches b m) :
    Agrees a m := by
  refine ⟨fun t => ?_, fun e he => ?_, h.typeBits hlow, h.int hb hm, h.str hb hm⟩
  · rw [h.entries, b.hasAttribute_eq, hm t]
  · rw [h.list] at he
    obtain ⟨e, -, rfl⟩ := List.mem_map.mp he
    exact ⟨e.type, rfl⟩

end

theorem matches_run {ops : List Op} (h : ∀ op ∈ ops, op.Masked) :
    Matches (runAttributes ops) (AttrMap.run ops) := by
  induction ops using List.reverseRecOn with
  | nil =>
      intro t
      change ItemAttributes.empty.getExistingAttr t = none
      unfold ItemAttributes.getExistingAttr
      rw [ItemAttributes.hasAttribute_empty]
      rfl
  | append_singleton ops op ih =>
      have hstep := (ih fun op' hop' => h op' (List.mem_append_left _ hop')).step
        (h op (List.mem_append_right _ (List.mem_singleton_self op)))
      rw [runAttributes_concat]
      unfold AttrMap.run at hstep ⊢
      rw [List.foldl_append]
      exact hstep

/-- What is written under the type that is in neither mask is in the map only. -/
theorem not_agrees {ops : List Op} {op : Op} (h : ¬op.Masked) {a : Attributes}
    (hrun : Attributes.run (ops ++ [op]) = some a) : ¬Agrees a (AttrMap.run (ops ++ [op])) := by
  intro hagrees
  obtain ⟨a', hrun', hsim⟩ := sim_run (ops ++ [op])
  obtain rfl : a' = a := Option.some.inj (hrun'.symm.trans hrun)
  have habsent : (runAttributes (ops ++ [op])).hasAttribute .imbuingSlots = false := by
    by_contra hhas
    rw [Bool.not_eq_false, ItemAttributes.hasAttribute_iff] at hhas
    obtain ⟨e, he, htype⟩ := List.mem_map.mp hhas
    have htyped := typed_run _ e he
    rw [htype] at htyped
    rcases htyped with ⟨hmask, -⟩ | ⟨hmask, -⟩
    · exact absurd hmask (by decide)
    · exact absurd hmask (by decide)
  have hpresent : (AttrMap.run (ops ++ [op]) .imbuingSlots).isSome = true := by
    unfold AttrMap.run
    rw [List.foldl_append]
    cases op with
    | setInt t n =>
        obtain rfl : t = .imbuingSlots := not_not.mp h
        rfl
    | increaseInt t n =>
        obtain rfl : t = .imbuingSlots := not_not.mp h
        rfl
    | setStr t s => exact absurd trivial h
    | remove t => exact absurd trivial h
  have hentries := hagrees.entries .imbuingSlots
  rw [hsim.entries, habsent, hpresent] at hentries
  exact absurd hentries (by decide)

theorem attributes_iff (ops : List Op) :
    (∀ n, ∃ a, Attributes.run (ops.take n) = some a ∧ Agrees a (AttrMap.run (ops.take n))) ↔
      ∀ op ∈ ops, op.Masked := by
  constructor
  · intro h op hop
    by_contra hmask
    obtain ⟨before, after, rfl⟩ := List.append_of_mem hop
    obtain ⟨a, hrun, hagrees⟩ := h (before.length + 1)
    have htake : (before ++ op :: after).take (before.length + 1) = before ++ [op] := by
      rw [List.take_length_add_append]
      rfl
    rw [htake] at hrun hagrees
    exact not_agrees hmask hrun hagrees
  · intro h n
    obtain ⟨a, hrun, hsim⟩ := sim_run (ops.take n)
    exact ⟨a, hrun, hsim.agrees (typed_run _) (low_run _)
      (matches_run fun op hop => h op (List.mem_of_mem_take hop))⟩

namespace Sample

/-- The imbuing slots of an item that was saved with two of them are not kept. -/
theorem imbuing_lost :
    Attributes.run [.setInt .imbuingSlots 2] = some {} ∧
      ¬∃ a, Attributes.run [.setInt .imbuingSlots 2] = some a ∧
        Agrees a (AttrMap.run [.setInt .imbuingSlots 2]) := by
  have hrun : Attributes.run [.setInt .imbuingSlots 2] = some {} := by decide
  refine ⟨hrun, ?_⟩
  rintro ⟨a, ha, hagrees⟩
  rw [hrun] at ha
  obtain rfl : ({} : Attributes) = a := Option.some.inj ha
  have hint := hagrees.int .imbuingSlots
  exact absurd hint (by decide)

end Sample

end TibServer.AttributeList
