import TibServer.AttributeList

/-!
`Item::equals` (`item.cpp`), which compares ids, the bits of the attributes and the two lists in
nested loops. It is an equivalence, and it tells the maps of attributes apart, but also an item that
has lost its attributes from one that never had any.
-/

namespace TibServer.AttributeList

/-! ### The comparison -/

/-- `*value.string` -/
def Value.readString : Value → Option (List UInt8)
  | string s => some s
  | _ => none

/-- `value.integer` -/
def Value.readInteger : Value → Option Int
  | zero => some 0
  | integer n => some n
  | string _ => none

/-- Whether the values of two attributes of one type differ. -/
def differ (attr otherAttribute : Attribute) : Option Bool :=
  if isStrAttrType attr.type then
    attr.value.readString.bind fun s =>
      otherAttribute.value.readString.map fun other => s != other
  else
    attr.value.readInteger.bind fun n =>
      otherAttribute.value.readInteger.map fun other => n != other

/-- The inner loop. -/
def equalsAttribute (attr : Attribute) : List Attribute → Option Bool
  | [] => some true
  | otherAttribute :: l =>
      if attr.type = otherAttribute.type then
        (differ attr otherAttribute).bind fun differs =>
          if differs then some false else equalsAttribute attr l
      else equalsAttribute attr l

/-- The outer loop. -/
def equalsAttributes : List Attribute → List Attribute → Option Bool
  | [], _ => some true
  | attr :: l, otherAttributeList =>
      (equalsAttribute attr otherAttributeList).bind fun same =>
        if same then equalsAttributes l otherAttributeList else some false

/-- An item with the object of its attributes, which a history of operations has led to. -/
structure Item where
  id : BitVec 16
  attributes : Option Attributes := none
  built : ∀ a ∈ attributes, ∃ ops, Attributes.run ops = some a

namespace Item

/-- `Item::equals` -/
def equals (item : Item) (otherItem : Option Item) : Option Bool :=
  match otherItem with
  | none => some false
  | some otherItem =>
      if item.id ≠ otherItem.id then some false
      else
        match item.attributes, otherItem.attributes with
        | none, otherAttributes => some otherAttributes.isNone
        | some _, none => some false
        | some attributes, some otherAttributes =>
            if attributes.attributeBits ≠ otherAttributes.attributeBits then some false
            else equalsAttributes attributes.attributes otherAttributes.attributes

/-- The finite map from attribute to value. -/
def map (item : Item) (t : AttrType) : Option Value :=
  item.attributes.bind fun a => (a.getExistingAttr t.bit).map (·.value)

/-- The ids and the maps are the same. -/
def Same (a b : Item) : Prop := a.id = b.id ∧ a.map = b.map

/-- There is an object, and no attribute is in it. -/
def Hollow (item : Item) : Prop := ∃ x, item.attributes = some x ∧ x.attributes = []

end Item

/-! ### The loops -/

section Loops

variable {l l' : List Attribute} {e : Attribute}

/-- Two attributes of one type have values of one kind. -/
def Comparable (e e' : Attribute) : Prop :=
  differ e e' = some (e.value != e'.value)

theorem equalsAttribute_eq (h : ∀ e' ∈ l, e.type = e'.type → Comparable e e') :
    equalsAttribute e l = some (l.all fun e' => e.type != e'.type || e.value == e'.value) := by
  induction l with
  | nil => rfl
  | cons e' l ih =>
      have hrest := ih fun e'' he'' => h e'' (List.mem_cons_of_mem _ he'')
      rw [equalsAttribute, List.all_cons]
      split_ifs with htype
      · rw [h e' List.mem_cons_self htype, Option.bind_some, hrest]
        cases hvalue : e.value == e'.value with
        | true => simp [htype, bne, hvalue]
        | false => simp [htype, bne, hvalue]
      · rw [hrest]
        simp [htype]

theorem equalsAttributes_eq (h : ∀ e ∈ l, ∀ e' ∈ l', e.type = e'.type → Comparable e e') :
    equalsAttributes l l' =
      some (l.all fun e => l'.all fun e' => e.type != e'.type || e.value == e'.value) := by
  induction l with
  | nil => rfl
  | cons e l ih =>
      have hrest := ih fun e' he' => h e' (List.mem_cons_of_mem _ he')
      rw [equalsAttributes, equalsAttribute_eq (h e List.mem_cons_self), Option.bind_some, hrest,
        List.all_cons]
      cases l'.all fun e' => e.type != e'.type || e.value == e'.value <;> rfl

end Loops

/-! ### Attributes of histories -/

section Histories

variable {b b' : ItemAttributes}

theorem ofValue_inj {v v' : AttrValue} (h : ofValue v = ofValue v') : v = v' := by
  cases v <;> cases v' <;> simp_all [ofValue]

theorem Typed.comparable (h : Typed b) (h' : Typed b') {e e' : TibServer.Attribute}
    (he : e ∈ b.attributes) (he' : e' ∈ b'.attributes) (htype : e.type = e'.type) :
    Comparable (ofAttribute e) (ofAttribute e') := by
  obtain ⟨t, v⟩ := e
  obtain ⟨t', v'⟩ := e'
  obtain rfl : t = t' := htype
  unfold Comparable differ
  rcases h _ he with ⟨hint, n, hn⟩ | ⟨hstr, s, hs⟩
  · rcases h' _ he' with ⟨-, n', hn'⟩ | ⟨hstr', -⟩
    · obtain rfl : v = .integer n := hn
      obtain rfl : v' = .integer n' := hn'
      have hnot : isStrAttrType (ofAttribute ⟨t, .integer n⟩).type = false := masks_disjoint hint
      rw [hnot]
      change some (n != n') = some (Value.integer n != Value.integer n')
      congr 1
      rw [Bool.eq_iff_iff, bne_iff_ne, bne_iff_ne, ne_eq, ne_eq, Value.integer.injEq]
    · exact absurd hstr' (Bool.eq_false_iff.mp (masks_disjoint hint))
  · rcases h' _ he' with ⟨hint', -⟩ | ⟨-, s', hs'⟩
    · exact absurd hstr (Bool.eq_false_iff.mp (masks_disjoint hint'))
    · obtain rfl : v = .string s := hs
      obtain rfl : v' = .string s' := hs'
      have hmask : isStrAttrType (ofAttribute ⟨t, .string s⟩).type = true := hstr
      rw [hmask]
      change some (s != s') = some (Value.string s != Value.string s')
      congr 1
      rw [Bool.eq_iff_iff, bne_iff_ne, bne_iff_ne, ne_eq, ne_eq, Value.string.injEq]

/-- Only the bits of types are set, so the types tell the bits. -/
theorem bits_iff (h : Low b) (h' : Low b') : b.attributeBits = b'.attributeBits ↔
    ∀ t, b.hasAttribute t = b'.hasAttribute t := by
  constructor
  · intro hbits t
    unfold ItemAttributes.hasAttribute
    rw [hbits]
  · intro htypes
    refine BitVec.eq_of_getLsbD_eq fun i _ => ?_
    by_cases hi : ∃ t : AttrType, t.index = i
    · obtain ⟨t, rfl⟩ := hi
      exact htypes t
    · have hleft : b.attributeBits.getLsbD i = false := Bool.eq_false_iff.mpr fun hb => hi (h i hb)
      have hright : b'.attributeBits.getLsbD i = false :=
        Bool.eq_false_iff.mpr fun hb => hi (h' i hb)
      rw [hleft, hright]

theorem hasAttribute_eq_isSome (t : AttrType) :
    b.hasAttribute t = (b.getExistingAttr t).isSome := by
  cases hhas : b.hasAttribute t with
  | true =>
      obtain ⟨e, he, rfl⟩ := List.mem_map.mp ((b.hasAttribute_iff t).mp hhas)
      rw [getExistingAttr_of_mem he]
      rfl
  | false =>
      unfold ItemAttributes.getExistingAttr
      rw [hhas]
      rfl

/-- The bits and the values agree just when the maps do. -/
theorem same_iff (h : Low b) (h' : Low b') :
    (b.attributeBits = b'.attributeBits ∧ ∀ e ∈ b.attributes, ∀ e' ∈ b'.attributes,
      e.type = e'.type → e.value = e'.value) ↔
      ∀ t, b.getExistingAttr t = b'.getExistingAttr t := by
  rw [bits_iff h h']
  constructor
  · rintro ⟨htypes, hvalues⟩ t
    have hsome : (b.getExistingAttr t).isSome = (b'.getExistingAttr t).isSome := by
      rw [← hasAttribute_eq_isSome, ← hasAttribute_eq_isSome, htypes t]
    cases hv : b.getExistingAttr t with
    | none =>
        rw [hv] at hsome
        exact (Option.isNone_iff_eq_none.mp (by simpa using hsome.symm)).symm
    | some v =>
        rw [hv] at hsome
        obtain ⟨v', hv'⟩ := Option.isSome_iff_exists.mp hsome.symm
        obtain ⟨e, he, htype, rfl⟩ := mem_of_getExistingAttr hv
        obtain ⟨e', he', htype', rfl⟩ := mem_of_getExistingAttr hv'
        rw [hv', hvalues e he e' he' (htype.trans htype'.symm)]
  · intro hmaps
    refine ⟨fun t => ?_, fun e he e' he' htype => ?_⟩
    · rw [hasAttribute_eq_isSome, hasAttribute_eq_isSome, hmaps t]
    · have hfound := hmaps e.type
      rw [getExistingAttr_of_mem he, htype, getExistingAttr_of_mem he', Option.some.injEq] at hfound
      exact hfound

/-- The nested loops compare the values of each type. -/
theorem equalsAttributes_run (h : Typed b) (h' : Typed b') :
    equalsAttributes (b.attributes.map ofAttribute) (b'.attributes.map ofAttribute) =
      some (decide (∀ e ∈ b.attributes, ∀ e' ∈ b'.attributes,
        e.type = e'.type → e.value = e'.value)) := by
  rw [equalsAttributes_eq]
  · congr 1
    rw [Bool.eq_iff_iff, decide_eq_true_eq, List.all_eq_true]
    constructor
    · intro hall e he e' he' htype
      have hpair := List.all_eq_true.mp (hall _ (List.mem_map_of_mem he)) _ (List.mem_map_of_mem he')
      rw [Bool.or_eq_true, bne_iff_ne, beq_iff_eq] at hpair
      exact ofValue_inj (hpair.resolve_left fun hne => hne (bit_inj.mpr htype))
    · intro hvalues x hx
      obtain ⟨e, he, rfl⟩ := List.mem_map.mp hx
      refine List.all_eq_true.mpr fun y hy => ?_
      obtain ⟨e', he', rfl⟩ := List.mem_map.mp hy
      rw [Bool.or_eq_true, bne_iff_ne, beq_iff_eq]
      by_cases htype : e.type = e'.type
      · exact .inr (congrArg ofValue (hvalues e he e' he' htype))
      · exact .inl fun hbit => htype (bit_inj.mp hbit)
  · intro x hx y hy htype
    obtain ⟨e, he, rfl⟩ := List.mem_map.mp hx
    obtain ⟨e', he', rfl⟩ := List.mem_map.mp hy
    exact h.comparable h' he he' (bit_inj.mp htype)

end Histories

/-! ### Items -/

namespace Item

variable {a b : Item} {x y : Attributes} {s : ItemAttributes}

theorem simulated (h : a.attributes = some x) : ∃ s, Sim x s ∧ Typed s ∧ Low s := by
  obtain ⟨ops, hrun⟩ := a.built x h
  obtain ⟨x', hrun', hsim⟩ := sim_run ops
  obtain rfl : x = x' := Option.some.inj (hrun.symm.trans hrun')
  exact ⟨_, hsim, typed_run ops, low_run ops⟩

theorem map_bare (h : a.attributes = none) : a.map = fun _ => none := by
  unfold map
  rw [h]
  rfl

theorem map_eq (h : a.attributes = some x) (hsim : Sim x s) (t : AttrType) :
    a.map t = (s.getExistingAttr t).map ofValue := by
  unfold map
  rw [h]
  exact hsim.getExistingAttr t

theorem map_eq_none_iff (h : a.attributes = some x) :
    (a.map = fun _ => none) ↔ x.attributes = [] := by
  obtain ⟨s, hsim, -, -⟩ := simulated h
  rw [hsim.list, List.map_eq_nil_iff]
  constructor
  · intro hnone
    refine List.eq_nil_iff_forall_not_mem.mpr fun e he => ?_
    have hfound := congrFun hnone e.type
    rw [map_eq h hsim, getExistingAttr_of_mem he] at hfound
    exact Option.some_ne_none _ hfound
  · intro hempty
    funext t
    rw [map_eq h hsim]
    unfold ItemAttributes.getExistingAttr
    rw [hempty, List.find?_nil]
    split <;> rfl

theorem map_inj (ha : a.attributes = some x) (hb : b.attributes = some y) {s' : ItemAttributes}
    (hs : Sim x s) (hs' : Sim y s') :
    a.map = b.map ↔ ∀ t, s.getExistingAttr t = s'.getExistingAttr t := by
  rw [funext_iff]
  refine forall_congr' fun t => ?_
  rw [map_eq ha hs, map_eq hb hs']
  exact (Option.map_injective fun _ _ => ofValue_inj).eq_iff

/-- Two objects are compared by their maps. -/
theorem equals_objects (ha : a.attributes = some x) (hb : b.attributes = some y) :
    ∃ r, (if x.attributeBits ≠ y.attributeBits then some false
      else equalsAttributes x.attributes y.attributes) = some r ∧
      (r = true ↔ a.map = b.map) := by
  obtain ⟨s, hs, htyped, hlow⟩ := simulated ha
  obtain ⟨s', hs', htyped', hlow'⟩ := simulated hb
  rw [hs.list, hs'.list, hs.bits, hs'.bits, equalsAttributes_run htyped htyped',
    map_inj ha hb hs hs', ← same_iff hlow hlow']
  split_ifs with hbits
  · exact ⟨false, rfl, fun hfalse => absurd hfalse Bool.false_ne_true, fun h => absurd h.1 hbits⟩
  · exact ⟨_, rfl, by rw [decide_eq_true_eq, and_iff_right (not_not.mp hbits)]⟩

theorem equals_iff (a b : Item) : ∃ r, a.equals (some b) = some r ∧
    (r = true ↔ a.Same b ∧ a.attributes.isSome = b.attributes.isSome) := by
  unfold equals Same
  dsimp only
  by_cases hid : a.id = b.id
  · rw [if_neg (not_not.mpr hid)]
    cases ha : a.attributes with
    | none =>
        refine ⟨_, rfl, ?_⟩
        cases hb : b.attributes with
        | none => simp [hid, map_bare ha, map_bare hb]
        | some y => simp
    | some x =>
        cases hb : b.attributes with
        | none => exact ⟨false, rfl, by simp⟩
        | some y =>
            obtain ⟨r, hr, htrue⟩ := equals_objects ha hb
            exact ⟨r, hr, by simp [hid, htrue]⟩
  · exact ⟨false, if_pos hid, by simp [hid]⟩

/-- The maps agree without the objects only where an object is empty. -/
theorem same_unequal_iff (a b : Item) : (a.Same b ∧ a.attributes.isSome ≠ b.attributes.isSome) ↔
    a.id = b.id ∧ (a.attributes = none ∧ b.Hollow ∨ a.Hollow ∧ b.attributes = none) := by
  unfold Same Hollow
  cases ha : a.attributes with
  | none =>
      cases hb : b.attributes with
      | none => simp
      | some y =>
          have hnone := map_eq_none_iff hb
          rw [← map_bare ha] at hnone
          simp [← hnone, eq_comm]
  | some x =>
      cases hb : b.attributes with
      | none =>
          have hnone := map_eq_none_iff ha
          rw [← map_bare hb] at hnone
          simp [← hnone]
      | some y => simp

/-- Equality is that of the ids and the maps, but for an item without attributes and one whose
object of attributes is empty; it is an equivalence all the same. -/
theorem equality_iff (a b : Item) :
    ((a.equals (some b) = some true ↔ a.Same b) ↔
      ¬(a.id = b.id ∧ (a.attributes = none ∧ b.Hollow ∨ a.Hollow ∧ b.attributes = none))) ∧
    a.equals (some a) = some true ∧ a.equals (some b) = b.equals (some a) ∧
    ∀ c : Item, a.equals (some b) = some true → b.equals (some c) = some true →
      a.equals (some c) = some true := by
  have hiff : ∀ a b : Item, a.equals (some b) = some true ↔
      a.Same b ∧ a.attributes.isSome = b.attributes.isSome := by
    intro a b
    obtain ⟨r, hr, htrue⟩ := equals_iff a b
    rw [hr, Option.some.injEq, htrue]
  refine ⟨?_, (hiff a a).mpr ⟨⟨rfl, rfl⟩, rfl⟩, ?_, fun c hab hbc => ?_⟩
  · rw [hiff a b, ← same_unequal_iff]
    tauto
  · obtain ⟨r, hr, htrue⟩ := equals_iff a b
    obtain ⟨r', hr', htrue'⟩ := equals_iff b a
    rw [hr, hr', Option.some.injEq, Bool.eq_iff_iff, htrue, htrue']
    exact ⟨fun h => ⟨⟨h.1.1.symm, h.1.2.symm⟩, h.2.symm⟩,
      fun h => ⟨⟨h.1.1.symm, h.1.2.symm⟩, h.2.symm⟩⟩
  · obtain ⟨⟨hid, hmap⟩, hsome⟩ := (hiff a b).mp hab
    obtain ⟨⟨hid', hmap'⟩, hsome'⟩ := (hiff b c).mp hbc
    exact (hiff a c).mpr ⟨⟨hid.trans hid', hmap.trans hmap'⟩, hsome.trans hsome'⟩

namespace Sample

/-- A worn rope, of which nothing was ever said. -/
def bare : Item := { id := 2120, built := by intro a ha; exact absurd ha (Option.not_mem_none a) }

/-- The same after a charge count was set on it and taken away. -/
def stripped : Item where
  id := 2120
  attributes := Attributes.run [.setInt .charges 5, .remove .charges]
  built := fun _ ha => ⟨_, ha⟩

/-- They have the same map and are not equal. -/
theorem stripped_unequal :
    ¬∀ a b : Item, a.equals (some b) = some true ↔ a.Same b := by
  intro h
  have hmap : bare.map = stripped.map :=
    (map_bare rfl).trans ((map_eq_none_iff (a := stripped) rfl).mpr rfl).symm
  have hequals := (h bare stripped).mpr ⟨rfl, hmap⟩
  have hcode : bare.equals (some stripped) = some false := rfl
  rw [hcode] at hequals
  exact Bool.false_ne_true (Option.some.inj hequals)

end Sample

end Item

end TibServer.AttributeList
