import Mathlib.Data.BitVec
import Mathlib.Tactic

/-!
The static item table (`items.h`, `itemloader.h`) and the item attributes
(`item.h`): what an item's behaviour depends on besides its own fields.
-/

namespace TibServer

/-- `itemgroup_t`: the group an item type has in `items.otb`. -/
inductive ItemGroup
  | none | ground | container | weapon | ammunition | armor | charges | teleport
  | magicField | writeable | key | splash | fluid | door | deprecated
  deriving DecidableEq, Repr

/-- `ItemTypes_t`: the type an item type is given by its group or by `items.xml`. -/
inductive ItemTypes
  | none | depot | mailbox | trashHolder | container | door | magicField | teleport
  | bed | key | rune | rewardChest | carpet
  deriving DecidableEq, Repr

inductive WeaponType
  | none | sword | club | axe | shield | distance | wand | ammo
  deriving DecidableEq, Repr

/-- The fields of `ItemType` that the modelled functions read, with the
defaults the class gives them. -/
structure ItemType where
  group : ItemGroup := .none
  type : ItemTypes := .none
  id : Nat := 0
  clientId : Nat := 0
  stackable : Bool := false
  weight : BitVec 32 := 0
  decayTime : Nat := 0
  charges : Nat := 0
  decayTo : Int := -1
  maxItems : UInt16 := 8
  slotPosition : Nat := 0x30
  wareId : Nat := 0
  weaponType : WeaponType := .none
  floorChange : BitVec 32 := 0
  alwaysOnTopOrder : Nat := 0
  hasHeight : Bool := false
  blockSolid : Bool := false
  blockPathFind : Bool := false
  allowPickupable : Bool := false
  replaceable : Bool := true
  pickupable : Bool := false
  moveable : Bool := false
  alwaysOnTop : Bool := false
  isVertical : Bool := false
  isHorizontal : Bool := false
  isHangable : Bool := false
  isAnimation : Bool := false
  stopTime : Bool := false

namespace ItemType

def isGroundTile (it : ItemType) : Bool := it.group == .ground
def isContainer (it : ItemType) : Bool := it.group == .container
def isSplash (it : ItemType) : Bool := it.group == .splash
def isFluidContainer (it : ItemType) : Bool := it.group == .fluid
def isDoor (it : ItemType) : Bool := it.type == .door
def isMagicField (it : ItemType) : Bool := it.type == .magicField
def isTeleport (it : ItemType) : Bool := it.type == .teleport
def isDepot (it : ItemType) : Bool := it.type == .depot
def isRewardChest (it : ItemType) : Bool := it.type == .rewardChest
def isMailbox (it : ItemType) : Bool := it.type == .mailbox
def isTrashHolder (it : ItemType) : Bool := it.type == .trashHolder
def isBed (it : ItemType) : Bool := it.type == .bed

def hasSubType (it : ItemType) : Bool :=
  it.isFluidContainer || it.isSplash || it.stackable || it.charges != 0

/-- The types that only make a plain `Item` object in `Item::CreateItem`. -/
def isPlain (it : ItemType) : Bool :=
  it.group == .none && (it.type == .none || it.type == .key || it.type == .rune ||
    it.type == .carpet)

end ItemType

/-- The ids that `Item::CreateItem` replaces by the id of another item (worn
rings and boots become the unworn ones). -/
def createdId (id : Nat) : Nat :=
  if 2210 ≤ id ∧ id ≤ 2212 then id - 3
  else if id = 2215 ∨ id = 2216 then id - 2
  else if 2202 ≤ id ∧ id ≤ 2206 then id - 37
  else if id = 2640 then 6132
  else if id = 6301 then 6300
  else if id = 18528 then 18408
  else id

/-- Whether `Item::CreateItem` makes an object of a class of its own, which keeps the id. -/
def ItemType.hasClass (it : ItemType) : Bool :=
  it.isDepot || it.isRewardChest || it.isContainer || it.isTeleport || it.isMagicField ||
    it.isDoor || it.isTrashHolder || it.isMailbox || it.isBed

/-- The table `Item::items`. The proof fields are facts of the item data the
server ships (`data/items/items.otb`): every stackable type is of group none
and of a type with no class of its own, lies among the down items of a tile,
and is not one of the ids `CreateItem` replaces. -/
structure Items where
  type : Nat → ItemType
  stackable_isPlain : ∀ id, (type id).stackable = true → (type id).isPlain = true
  stackable_down : ∀ id, (type id).stackable = true → (type id).alwaysOnTop = false
  stackable_createdId : ∀ id, (type id).stackable = true → createdId id = id

namespace Items

variable (items : Items) {id : Nat}

theorem stackable_group (h : (items.type id).stackable = true) :
    (items.type id).group = .none := by
  have := items.stackable_isPlain id h
  simp only [ItemType.isPlain, Bool.and_eq_true, beq_iff_eq] at this
  exact this.1

@[simp] theorem stackable_not_ground (h : (items.type id).stackable = true) :
    (items.type id).isGroundTile = false := by
  simp [ItemType.isGroundTile, items.stackable_group h]

@[simp] theorem stackable_not_splash (h : (items.type id).stackable = true) :
    (items.type id).isSplash = false := by
  simp [ItemType.isSplash, items.stackable_group h]

@[simp] theorem stackable_not_fluid (h : (items.type id).stackable = true) :
    (items.type id).isFluidContainer = false := by
  simp [ItemType.isFluidContainer, items.stackable_group h]

end Items

/-! ### Item attributes

`ItemAttributes` is a singly linked list of typed values together with a bit
mask of the types present. The structure carries what every operation keeps:
no type twice in the list, and exactly the listed types in the mask. -/

/-- `itemAttrTypes`, in the order of their bits. -/
inductive AttrType
  | actionId | uniqueId | description | text | date | writer | name | article
  | pluralName | weight | attack | defense | extraDefense | armor | hitChance
  | shootRange | owner | duration | decayState | corpseOwner | charges | fluidType
  | doorId | special | imbuingSlots
  deriving DecidableEq, Repr

namespace AttrType

def index : AttrType → Nat
  | actionId => 0 | uniqueId => 1 | description => 2 | text => 3 | date => 4
  | writer => 5 | name => 6 | article => 7 | pluralName => 8 | weight => 9
  | attack => 10 | defense => 11 | extraDefense => 12 | armor => 13 | hitChance => 14
  | shootRange => 15 | owner => 16 | duration => 17 | decayState => 18
  | corpseOwner => 19 | charges => 20 | fluidType => 21 | doorId => 22 | special => 23
  | imbuingSlots => 24

theorem index_lt (t : AttrType) : t.index < 32 := by cases t <;> decide

theorem index_inj {t u : AttrType} (h : t.index = u.index) : t = u := by
  cases t <;> cases u <;> first | rfl | exact absurd h (by decide)

/-- The value of the enumerator: one bit. -/
def bit (t : AttrType) : BitVec 32 := BitVec.twoPow 32 t.index

theorem getLsbD_bit (t u : AttrType) : t.bit.getLsbD u.index = decide (t = u) := by
  rw [bit, BitVec.getLsbD_twoPow]
  by_cases h : t = u
  · simp [h, u.index_lt]
  · have : t.index ≠ u.index := fun e => h (index_inj e)
    simp [h, this]

def isIntAttrType (t : AttrType) : Bool := (t.bit &&& 0x7FFE13#32) != 0
def isStrAttrType (t : AttrType) : Bool := (t.bit &&& 0x8001EC#32) != 0

end AttrType

/-- The union in `ItemAttributes::Attribute`; a string is the bytes of a `std::string`. -/
inductive AttrValue
  | integer (n : Int)
  | string (s : List UInt8)
  deriving DecidableEq, Repr

structure Attribute where
  type : AttrType
  value : AttrValue
  deriving DecidableEq, Repr

structure ItemAttributes where
  attributes : List Attribute
  attributeBits : BitVec 32
  nodup : (attributes.map Attribute.type).Nodup
  bits : ∀ t : AttrType,
    attributeBits.getLsbD t.index = true ↔ t ∈ attributes.map Attribute.type
  deriving DecidableEq

namespace ItemAttributes

def empty : ItemAttributes where
  attributes := []
  attributeBits := 0
  nodup := by simp
  bits := by simp

/-- `(type & attributeBits) != 0`. -/
def hasAttribute (a : ItemAttributes) (t : AttrType) : Bool := a.attributeBits.getLsbD t.index

theorem hasAttribute_iff (a : ItemAttributes) (t : AttrType) :
    a.hasAttribute t = true ↔ t ∈ a.attributes.map Attribute.type := a.bits t

def getExistingAttr (a : ItemAttributes) (t : AttrType) : Option AttrValue :=
  if a.hasAttribute t then (a.attributes.find? (·.type = t)).map (·.value) else none

def getIntAttr (a : ItemAttributes) (t : AttrType) : Int :=
  if t.isIntAttrType then
    match a.getExistingAttr t with
    | some (.integer n) => n
    | _ => 0
  else 0

def getStrAttr (a : ItemAttributes) (t : AttrType) : List UInt8 :=
  if t.isStrAttrType then
    match a.getExistingAttr t with
    | some (.string s) => s
    | _ => []
  else []

/-- Writing through the reference `getAttr` returns: the entry of that type is
overwritten, or a new one is put at the front and its bit is set. -/
def setAttr (a : ItemAttributes) (t : AttrType) (v : AttrValue) : ItemAttributes :=
  if h : a.hasAttribute t then
    { attributes := a.attributes.map fun e => if e.type = t then ⟨t, v⟩ else e
      attributeBits := a.attributeBits
      nodup := by
        have e : ((fun e : Attribute => e.type) ∘ fun e : Attribute =>
            if e.type = t then (⟨t, v⟩ : Attribute) else e) = Attribute.type := by
          funext e; by_cases he : e.type = t <;> simp [he]
        simpa [List.map_map, e] using a.nodup
      bits := by
        intro u
        have e : ((fun e : Attribute => e.type) ∘ fun e : Attribute =>
            if e.type = t then (⟨t, v⟩ : Attribute) else e) = Attribute.type := by
          funext e; by_cases he : e.type = t <;> simp [he]
        simpa only [List.map_map, e] using a.bits u }
  else
    { attributes := ⟨t, v⟩ :: a.attributes
      attributeBits := a.attributeBits ||| t.bit
      nodup := by
        simp only [List.map_cons, List.nodup_cons]
        exact ⟨fun hm => h ((a.bits t).mpr hm), a.nodup⟩
      bits := by
        intro u
        rw [BitVec.getLsbD_or, Bool.or_eq_true, a.bits u, AttrType.getLsbD_bit,
          decide_eq_true_iff, List.map_cons, List.mem_cons]
        exact ⟨fun h => h.elim Or.inr fun h => Or.inl h.symm,
          fun h => h.elim (fun h => Or.inr h.symm) Or.inl⟩ }

def setIntAttr (a : ItemAttributes) (t : AttrType) (n : Int) : ItemAttributes :=
  if t.isIntAttrType then a.setAttr t (.integer n) else a

/-- The neutral element of the string attributes is not stored. -/
def setStrAttr (a : ItemAttributes) (t : AttrType) (s : List UInt8) : ItemAttributes :=
  if t.isStrAttrType then
    if s = [] then a else a.setAttr t (.string s)
  else a

def removeAttribute (a : ItemAttributes) (t : AttrType) : ItemAttributes :=
  if a.hasAttribute t then
    { attributes := a.attributes.filter (·.type ≠ t)
      attributeBits := a.attributeBits &&& ~~~ t.bit
      nodup := (a.nodup.sublist (List.filter_sublist.map _))
      bits := by
        intro u
        rw [BitVec.getLsbD_and, BitVec.getLsbD_not, AttrType.getLsbD_bit, Bool.and_eq_true,
          a.bits u]
        simp only [List.mem_map, List.mem_filter, u.index_lt, decide_true, Bool.true_and,
          Bool.not_eq_true', decide_eq_false_iff_not, decide_eq_true_eq]
        constructor
        · rintro ⟨⟨e, he, rfl⟩, hne⟩
          exact ⟨e, ⟨he, fun h => hne h.symm⟩, rfl⟩
        · rintro ⟨e, ⟨he, hne⟩, rfl⟩
          exact ⟨⟨e, he, rfl⟩, fun h => hne h.symm⟩ }
  else a

theorem hasAttribute_empty (t : AttrType) : empty.hasAttribute t = false := by
  simp [empty, hasAttribute]

/-- Writing one attribute leaves the presence of the others alone. -/
theorem hasAttribute_setAttr (a : ItemAttributes) {t u : AttrType} (v : AttrValue) (h : t ≠ u) :
    (a.setAttr t v).hasAttribute u = a.hasAttribute u := by
  unfold setAttr
  split
  · rfl
  · simp only [hasAttribute, BitVec.getLsbD_or, AttrType.getLsbD_bit, h, decide_false,
      Bool.or_false]

theorem hasAttribute_removeAttribute (a : ItemAttributes) {t u : AttrType} (h : t ≠ u) :
    (a.removeAttribute t).hasAttribute u = a.hasAttribute u := by
  unfold removeAttribute
  split
  · simp only [hasAttribute, BitVec.getLsbD_and, BitVec.getLsbD_not, AttrType.getLsbD_bit,
      u.index_lt, decide_true, h, decide_false, Bool.not_false, Bool.and_true]
  · rfl

theorem hasAttribute_eq (a : ItemAttributes) (t : AttrType) :
    a.hasAttribute t = (a.getExistingAttr t).isSome := by
  rw [Bool.eq_iff_iff, getExistingAttr]
  split
  · next there =>
      simp only [there, Option.isSome_map, List.find?_isSome, true_iff, decide_eq_true_eq]
      obtain ⟨e, mem, rfl⟩ := List.mem_map.mp ((a.hasAttribute_iff t).mp there)
      exact ⟨e, mem, rfl⟩
  · next absent => simp [absent]

/-- The value that was written is the one that is found. -/
theorem getExistingAttr_setAttr (a : ItemAttributes) (t u : AttrType) (v : AttrValue) :
    (a.setAttr t v).getExistingAttr u = if u = t then some v else a.getExistingAttr u := by
  have other : ∀ l : List Attribute, u ≠ t →
      ((l.map fun e => if e.type = t then (⟨t, v⟩ : Attribute) else e).find? (·.type = u)) =
        l.find? (·.type = u) := by
    intro l ne
    induction l with
    | nil => rfl
    | cons e l ih =>
        rw [List.map_cons, List.find?_cons, List.find?_cons, ih]
        by_cases here : e.type = t
        · simp [here, Ne.symm ne]
        · simp only [if_neg here]
  have same : ∀ l : List Attribute, t ∈ l.map Attribute.type →
      ((l.map fun e => if e.type = t then (⟨t, v⟩ : Attribute) else e).find? (·.type = t)) =
        some ⟨t, v⟩ := by
    intro l mem
    induction l with
    | nil => exact absurd mem (by simp)
    | cons e l ih =>
        rw [List.map_cons, List.find?_cons]
        by_cases here : e.type = t
        · simp [here]
        · rw [if_neg here]
          simp only [here, decide_false]
          exact ih ((List.mem_cons.mp mem).resolve_left (Ne.symm here))
  by_cases e : u = t
  · subst e
    have there : (a.setAttr u v).hasAttribute u = true := by
      rw [hasAttribute_iff, setAttr]
      split
      · next there =>
          obtain ⟨x, mem, type⟩ := List.mem_map.mp ((a.hasAttribute_iff u).mp there)
          exact List.mem_map.mpr ⟨⟨u, v⟩, List.mem_map.mpr ⟨x, mem, by simp [type]⟩, rfl⟩
      · simp
    rw [getExistingAttr, if_pos there, if_pos rfl, setAttr]
    split
    · next there =>
        simp only [same _ ((a.hasAttribute_iff u).mp there), Option.map_some]
    · simp
  · rw [getExistingAttr, getExistingAttr, hasAttribute_setAttr a v (Ne.symm e), if_neg e]
    congr 1
    rw [setAttr]
    split
    · simp only [other _ e]
    · simp [Ne.symm e]

/-- The loop of `Item::equals` over two attribute lists: every pair of entries
of one type holds the same value. -/
def sameValues (a b : ItemAttributes) : Bool :=
  a.attributes.all fun x => b.attributes.all fun y =>
    if x.type = y.type then decide (x.value = y.value) else true

theorem sameValues_symm {a b : ItemAttributes} (h : a.sameValues b = true) :
    b.sameValues a = true := by
  simp only [sameValues, List.all_eq_true] at h ⊢
  intro y hy x hx
  have := h x hx y hy
  by_cases e : x.type = y.type
  · simp only [e, if_true, decide_eq_true_eq] at this
    simp [e, this]
  · simp [Ne.symm e]

end ItemAttributes

end TibServer
