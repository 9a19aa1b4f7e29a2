import TibServer.Accounts
import TibServer.ItemStore

/-!
What an item keeps when its attributes are written and read into a new object: every
attribute that is written comes back, texts that are too long are lost, and a decaying
item waits to decay. The sub type comes back if the item has the one its type calls for.
-/

namespace TibServer

/-! ### Attributes of an item -/

namespace Item

variable (i : Item) {t u : AttrType}

/-- The value of an attribute, if it is there. -/
def existing (t : AttrType) : Option AttrValue := i.attributes.bind (·.getExistingAttr t)

theorem hasAttribute_eq (t : AttrType) : i.hasAttribute t = (i.existing t).isSome := by
  rw [hasAttribute, existing]
  cases i.attributes with
  | none => rfl
  | some a => exact a.hasAttribute_eq t

theorem intAttr_integer (number : t.isIntAttrType = true) {n : Int}
    (h : i.existing t = some (.integer n)) : i.intAttr t = BitVec.ofInt 32 n := by
  rcases i with ⟨id, count, _ | a, parent, cls⟩
  · exact absurd h (by simp [existing])
  · have here : a.getExistingAttr t = some (.integer n) := h
    simp only [intAttr, getIntAttr, ItemAttributes.getIntAttr, if_pos number, here]

theorem intAttr_none (h : i.existing t = none) : i.intAttr t = 0 := by
  rcases i with ⟨id, count, _ | a, parent, cls⟩
  · rfl
  · have absent : a.getExistingAttr t = none := h
    simp only [intAttr, getIntAttr, ItemAttributes.getIntAttr, absent, ite_self]
    rfl

theorem intAttr_congr {j : Item} (h : i.existing t = j.existing t) : i.intAttr t = j.intAttr t := by
  rcases i with ⟨id, count, _ | a, parent, cls⟩
  · exact (j.intAttr_none h.symm).symm
  · rcases j with ⟨id', count', _ | a', parent', cls'⟩
    · exact intAttr_none _ h
    · have same : a.getExistingAttr t = a'.getExistingAttr t := h
      simp only [intAttr, getIntAttr, ItemAttributes.getIntAttr, same]

theorem getStrAttr_string (text : t.isStrAttrType = true) {s : List UInt8}
    (h : i.existing t = some (.string s)) : i.getStrAttr t = s := by
  rcases i with ⟨id, count, _ | a, parent, cls⟩
  · exact absurd h (by simp [existing])
  · have here : a.getExistingAttr t = some (.string s) := h
    simp only [getStrAttr, ItemAttributes.getStrAttr, if_pos text, here]

theorem getStrAttr_none (h : i.existing t = none) : i.getStrAttr t = [] := by
  rcases i with ⟨id, count, _ | a, parent, cls⟩
  · rfl
  · have absent : a.getExistingAttr t = none := h
    simp only [getStrAttr, ItemAttributes.getStrAttr, absent, ite_self]

theorem getExistingAttr_getD : (i.attributes.getD .empty).getExistingAttr u = i.existing u := by
  rw [existing]
  cases i.attributes with
  | none =>
      show ItemAttributes.empty.getExistingAttr u = none
      rw [ItemAttributes.getExistingAttr, ItemAttributes.hasAttribute_empty]
      rfl
  | some a => rfl

theorem existing_setIntAttr (number : t.isIntAttrType = true) (n : Int) :
    (i.setIntAttr t n).existing u = if u = t then some (.integer n) else i.existing u := by
  show ((i.attributes.getD .empty).setIntAttr t n).getExistingAttr u = _
  rw [ItemAttributes.setIntAttr, if_pos number, ItemAttributes.getExistingAttr_setAttr,
    getExistingAttr_getD]

theorem existing_setIntAttr_ne (n : Int) (ne : u ≠ t) :
    (i.setIntAttr t n).existing u = i.existing u := by
  show ((i.attributes.getD .empty).setIntAttr t n).getExistingAttr u = _
  rw [ItemAttributes.setIntAttr]
  split
  · rw [ItemAttributes.getExistingAttr_setAttr, if_neg ne, getExistingAttr_getD]
  · exact i.getExistingAttr_getD

theorem existing_setStrAttr (text : t.isStrAttrType = true) (s : List UInt8) :
    (i.setStrAttr t s).existing u =
      if u = t ∧ s ≠ [] then some (.string s) else i.existing u := by
  show ((i.attributes.getD .empty).setStrAttr t s).getExistingAttr u = _
  rw [ItemAttributes.setStrAttr, if_pos text]
  by_cases none_ : s = []
  · rw [if_pos none_, if_neg fun h => h.2 none_, getExistingAttr_getD]
  · rw [if_neg none_, ItemAttributes.getExistingAttr_setAttr, getExistingAttr_getD]
    simp only [none_, ne_eq, not_false_eq_true, and_true]

@[simp] theorem setStrAttr_id (s : List UInt8) : (i.setStrAttr t s).id = i.id := rfl
@[simp] theorem setStrAttr_count (s : List UInt8) : (i.setStrAttr t s).count = i.count := rfl
@[simp] theorem setStrAttr_cls (s : List UInt8) : (i.setStrAttr t s).cls = i.cls := rfl

@[simp] theorem existing_setItemCount (n : Nat) :
    (i.setItemCount n).existing u = i.existing u := rfl

/-! ### What reading makes of what was written -/

/-- A text that was written, read back: one that is too long is empty. -/
def restoreText (t : AttrType) (there : Bool) (str : List UInt8) : Item :=
  if there then i.setStrAttr t (if str.length > 0xFFFF then [] else str) else i

def restoreInt (t : AttrType) (there : Bool) (n : Int) : Item :=
  if there then i.setIntAttr t n else i

theorem existing_restoreText (text : t.isStrAttrType = true) (there : Bool) (str : List UInt8) :
    (i.restoreText t there str).existing u =
      if u = t ∧ there = true ∧ str ≠ [] ∧ str.length ≤ 0xFFFF then some (.string str)
      else i.existing u := by
  unfold restoreText
  by_cases written : there = true
  · rw [if_pos written, existing_setStrAttr i text]
    by_cases long : str.length > 0xFFFF
    · simp [long, not_le.mpr long]
    · simp [long, not_lt.mp long, written]
  · simp [written]

theorem existing_restoreInt (number : t.isIntAttrType = true) (there : Bool) (n : Int) :
    (i.restoreInt t there n).existing u =
      if u = t ∧ there = true then some (.integer n) else i.existing u := by
  unfold restoreInt
  by_cases written : there = true
  · rw [if_pos written, existing_setIntAttr i number]
    simp [written]
  · simp [written]

theorem existing_restoreInt_ne (ne : u ≠ t) (there : Bool) (n : Int) :
    (i.restoreInt t there n).existing u = i.existing u := by
  unfold restoreInt
  split
  · exact i.existing_setIntAttr_ne n ne
  · rfl

@[simp] theorem restoreText_id (there : Bool) (s : List UInt8) :
    (i.restoreText t there s).id = i.id := by
  cases there <;> rfl

@[simp] theorem restoreInt_id (there : Bool) (n : Int) : (i.restoreInt t there n).id = i.id := by
  cases there <;> rfl

@[simp] theorem restoreText_count (there : Bool) (s : List UInt8) :
    (i.restoreText t there s).count = i.count := by
  cases there <;> rfl

@[simp] theorem restoreInt_count (there : Bool) (n : Int) :
    (i.restoreInt t there n).count = i.count := by
  cases there <;> rfl

@[simp] theorem restoreText_cls (there : Bool) (s : List UInt8) :
    (i.restoreText t there s).cls = i.cls := by
  cases there <;> rfl

@[simp] theorem restoreInt_cls (there : Bool) (n : Int) :
    (i.restoreInt t there n).cls = i.cls := by
  cases there <;> rfl

end Item

namespace World

open PropStream

variable (w : World) (lookups : Lookups)

/-- The sub type that was written of an item, read into another one. -/
def restoreSubType (i j : Item) : Item :=
  let it := w.items.type i.id
  let j :=
    if it.stackable || it.isFluidContainer || it.isSplash then
      w.setSubType j ((w.subTypeOf i).setWidth 8).toNat
    else j
  if i.getCharges != 0 then w.setSubType j i.getCharges.toNat else j

/-- The attributes that were written of an item, read into another one. -/
def restoreAttributes (i j : Item) : Item :=
  (((((((((((((((((((j.restoreInt .actionId
      ((w.items.type i.id).moveable && i.getActionId != 0) (max 100 i.getActionId.toNat : Nat))
    ).restoreText .text (i.getStrAttr .text != []) (i.getStrAttr .text)
    ).restoreInt .date (i.getDate != 0) i.getDate.toInt
    ).restoreText .writer (i.getStrAttr .writer != []) (i.getStrAttr .writer)
    ).restoreText .description (i.getStrAttr .description != []) (i.getStrAttr .description)
    ).restoreInt .duration (i.hasAttribute .duration) (max 0 (i.intAttr .duration).toInt)
    ).restoreInt .decayState
      (i.getDecaying == DECAYING_TRUE || i.getDecaying == DECAYING_PENDING) 2
    ).restoreText .name (i.hasAttribute .name) (i.getStrAttr .name)
    ).restoreText .article (i.hasAttribute .article) (i.getStrAttr .article)
    ).restoreText .pluralName (i.hasAttribute .pluralName) (i.getStrAttr .pluralName)
    ).restoreInt .weight (i.hasAttribute .weight) (i.intAttr .weight).toInt
    ).restoreInt .attack (i.hasAttribute .attack) (i.intAttr .attack).toInt
    ).restoreInt .defense (i.hasAttribute .defense) (i.intAttr .defense).toInt
    ).restoreInt .extraDefense (i.hasAttribute .extraDefense) (i.intAttr .extraDefense).toInt
    ).restoreInt .imbuingSlots (i.hasAttribute .imbuingSlots) (i.intAttr .imbuingSlots).toInt
    ).restoreInt .armor (i.hasAttribute .armor) (i.intAttr .armor).toInt
    ).restoreInt .hitChance (i.hasAttribute .hitChance)
      ((i.intAttr .hitChance).setWidth 8).toInt
    ).restoreInt .shootRange (i.hasAttribute .shootRange)
      ((i.intAttr .shootRange).setWidth 8).toNat
    ).restoreText .special (i.hasAttribute .special) (i.getStrAttr .special)

/-! ### One attribute after the other -/

theorem reading_write {α : Type} {wd : Nat} (whole : 8 * (wd / 8) = wd) (o : α)
    (f : BitVec wd → α) (v : BitVec wd) (s : PropStream) :
    reading (read wd) o f (write v ++ s) = (.attrReadContinue, f v, s) := by
  rw [reading, read_write whole]

theorem reading_writeString {α : Type} (o : α) (f : List UInt8 → α) (str : List UInt8)
    (s : PropStream) : reading readString o f (writeString str ++ s) =
      (.attrReadContinue, f (if str.length > 0xFFFF then [] else str), s) := by
  rw [reading, readString_written]

theorem unserializeAttr_attr {number : BitVec 8} (more : number ≠ 0) {o o' : ItemObject}
    {value : List UInt8} {s : PropStream}
    (here : w.readAttr lookups o number (value ++ s) = (.attrReadContinue, o', s)) :
    w.unserializeAttr lookups o (attr number value ++ s) = w.unserializeAttr lookups o' s := by
  have first := read_write_8 number (value ++ s)
  rw [attr, List.append_assoc, unserializeAttr]
  split
  · next none_ => exact absurd (first.symm.trans none_) (by simp)
  · next number' rest some_ =>
      obtain ⟨rfl, rfl⟩ := Prod.mk.inj (Option.some.inj (first.symm.trans some_))
      rw [if_neg more]
      split <;> simp_all

/-- The numbers that no class reads in a way of its own. -/
def Plain (number : BitVec 8) : Prop :=
  number ∉ [ATTR_DEPOT_ID, ATTR_CONTAINER_ITEMS, ATTR_TELE_DEST, ATTR_HOUSEDOORID,
    ATTR_SLEEPERGUID, ATTR_SLEEPSTART, 0]

instance (number : BitVec 8) : Decidable (Plain number) := inferInstanceAs (Decidable (_ ∉ _))

theorem readAttr_plain {number : BitVec 8} (plain : Plain number) (o : ItemObject)
    (s : PropStream) : w.readAttr lookups o number s = w.readObjectAttr lookups o number s := by
  simp only [Plain, List.mem_cons, List.not_mem_nil, or_false, not_or] at plain
  obtain ⟨notDepot, notItems, notDest, notDoor, notGuid, notStart, -⟩ := plain
  simp only [readAttr, if_neg notDepot, if_neg notItems, if_neg notDest, if_neg notDoor,
    if_neg notGuid, if_neg notStart, ite_self]
  cases o.cls <;> rfl

/-- An attribute that may have been written is read back into the item. -/
theorem unserializeAttr_given {number : BitVec 8} (plain : Plain number) (there : Bool)
    {o : ItemObject} {i' : Item} {value : List UInt8} {s : PropStream}
    (here : w.readItemAttr lookups o.toItem number (value ++ s) = (.attrReadContinue, i', s)) :
    w.unserializeAttr lookups o (given there number value ++ s) =
      w.unserializeAttr lookups { o with toItem := if there then i' else o.toItem } s := by
  cases there with
  | false => rfl
  | true =>
      have more : number ≠ 0 := fun zero => plain (by simp [zero])
      refine w.unserializeAttr_attr lookups more ?_
      rw [readAttr_plain w lookups plain, readObjectAttr, here]
      rfl

theorem unserializeAttr_text (number : BitVec 8) (t : AttrType) (plain : Plain number)
    (reads : ∀ (j : Item) (s : PropStream), w.readItemAttr lookups j number s =
      reading readString j (j.setStrAttr t) s)
    (there : Bool) (str : List UInt8) (o : ItemObject) (s : PropStream) :
    w.unserializeAttr lookups o (given there number (writeString str) ++ s) =
      w.unserializeAttr lookups { o with toItem := o.toItem.restoreText t there str } s := by
  refine w.unserializeAttr_given lookups plain there ?_
  rw [reads, reading_writeString]

theorem unserializeAttr_int (number : BitVec 8) (t : AttrType) (plain : Plain number)
    {wd : Nat} (whole : 8 * (wd / 8) = wd) {f : Item → BitVec wd → Item}
    (reads : ∀ (j : Item) (s : PropStream), w.readItemAttr lookups j number s =
      reading (read wd) j (f j) s)
    {v : BitVec wd} {n : Int} (there : Bool) (o : ItemObject) (s : PropStream)
    (value : there = true → f o.toItem v = o.toItem.setIntAttr t n) :
    w.unserializeAttr lookups o (given there number (write v) ++ s) =
      w.unserializeAttr lookups { o with toItem := o.toItem.restoreInt t there n } s := by
  rw [w.unserializeAttr_given lookups plain there
    ((reads _ _).trans (reading_write whole o.toItem (f o.toItem) v s)), Item.restoreInt]
  cases there with
  | false => rfl
  | true => rw [if_pos rfl, if_pos rfl, value rfl]

theorem unserializeAttr_subType (number : BitVec 8) (plain : Plain number) (wd : Nat)
    (whole : 8 * (wd / 8) = wd)
    (reads : ∀ (j : Item) (s : PropStream), w.readItemAttr lookups j number s =
      reading (read wd) j (fun n => w.setSubType j n.toNat) s)
    (there : Bool) (v : BitVec wd) (o : ItemObject) (s : PropStream) :
    w.unserializeAttr lookups o (given there number (write v) ++ s) =
      w.unserializeAttr lookups
        { o with toItem := if there then w.setSubType o.toItem v.toNat else o.toItem } s :=
  w.unserializeAttr_given lookups plain there
    ((reads _ _).trans (reading_write whole o.toItem (fun n => w.setSubType o.toItem n.toNat) v s))

theorem signed_max (x : BitVec 32) :
    (if x.toInt < 0 then (0 : BitVec 32) else x).toInt = max 0 x.toInt := by
  split
  · next neg =>
      show (0 : Int) = _
      omega
  · omega

theorem toInt_setWidth_byte (x : BitVec 8) : (x.setWidth 32).toInt = x.toNat := by
  have lt : x.toNat < 256 := x.isLt
  rw [BitVec.toInt_setWidth, Int.bmod_eq_of_le (by omega) (by omega)]

/-! The readers of single attributes. -/

theorem unserializeAttr_number (number : BitVec 8) (t : AttrType) (plain : Plain number)
    (reads : ∀ (j : Item) (s : PropStream), w.readItemAttr lookups j number s =
      reading (read 32) j (j.setInt t) s)
    (there : Bool) (v : BitVec 32) (o : ItemObject) (s : PropStream) :
    w.unserializeAttr lookups o (given there number (write v) ++ s) =
      w.unserializeAttr lookups { o with toItem := o.toItem.restoreInt t there v.toInt } s :=
  w.unserializeAttr_int lookups number t plain rfl reads there o s fun _ => rfl

theorem unserializeAttr_actionId (there : Bool) (v : BitVec 16) (o : ItemObject)
    (s : PropStream) :
    w.unserializeAttr lookups o (given there ATTR_ACTION_ID (write v) ++ s) =
      w.unserializeAttr lookups
        { o with toItem := o.toItem.restoreInt .actionId there (max 100 v.toNat : Nat) } s :=
  w.unserializeAttr_int lookups ATTR_ACTION_ID .actionId (by decide) rfl
    (f := Item.setActionId) (fun _ _ => rfl) there o s fun _ => rfl

theorem unserializeAttr_duration (there : Bool) (v : BitVec 32) (o : ItemObject)
    (s : PropStream) :
    w.unserializeAttr lookups o (given there ATTR_DURATION (write v) ++ s) =
      w.unserializeAttr lookups
        { o with toItem := o.toItem.restoreInt .duration there (max 0 v.toInt) } s :=
  w.unserializeAttr_int lookups ATTR_DURATION .duration (by decide) rfl
    (f := fun j time => j.setDuration (if time.toInt < 0 then 0 else time)) (fun _ _ => rfl)
    there o s fun _ => congrArg (o.toItem.setIntAttr .duration) (signed_max v)

theorem unserializeAttr_decaying (v : BitVec 8) (o : ItemObject) (s : PropStream) :
    w.unserializeAttr lookups o
        (given (v == DECAYING_TRUE || v == DECAYING_PENDING) ATTR_DECAYING_STATE (write v) ++ s) =
      w.unserializeAttr lookups
        { o with toItem :=
          o.toItem.restoreInt .decayState (v == DECAYING_TRUE || v == DECAYING_PENDING) 2 } s :=
  w.unserializeAttr_int lookups ATTR_DECAYING_STATE .decayState (by decide) rfl
    (f := fun j state => if state ≠ DECAYING_FALSE then j.setDecaying DECAYING_PENDING else j)
    (fun _ _ => rfl) _ o s fun there => if_pos (by rintro rfl; exact absurd there (by decide))

theorem unserializeAttr_hitChance (there : Bool) (v : BitVec 8) (o : ItemObject)
    (s : PropStream) :
    w.unserializeAttr lookups o (given there ATTR_HITCHANCE (write v) ++ s) =
      w.unserializeAttr lookups
        { o with toItem := o.toItem.restoreInt .hitChance there v.toInt } s :=
  w.unserializeAttr_int lookups ATTR_HITCHANCE .hitChance (by decide) rfl
    (f := fun j v => j.setInt .hitChance (v.signExtend 32)) (fun _ _ => rfl) there o s
    fun _ => congrArg (o.toItem.setIntAttr .hitChance)
      (BitVec.toInt_signExtend_of_le (by decide))

theorem unserializeAttr_shootRange (there : Bool) (v : BitVec 8) (o : ItemObject)
    (s : PropStream) :
    w.unserializeAttr lookups o (given there ATTR_SHOOTRANGE (write v) ++ s) =
      w.unserializeAttr lookups
        { o with toItem := o.toItem.restoreInt .shootRange there v.toNat } s :=
  w.unserializeAttr_int lookups ATTR_SHOOTRANGE .shootRange (by decide) rfl
    (f := fun j v => j.setInt .shootRange (v.setWidth 32)) (fun _ _ => rfl) there o s
    fun _ => congrArg (o.toItem.setIntAttr .shootRange) (toInt_setWidth_byte v)

theorem unserializeAttr_item (i : Item) (o : ItemObject) (s : PropStream) :
    w.unserializeAttr lookups o (w.serializeItemAttr i ++ s) =
      w.unserializeAttr lookups
        { o with toItem := w.restoreAttributes i (w.restoreSubType i o.toItem) } s := by
  unfold serializeItemAttr
  simp only [List.append_assoc]
  rw [w.unserializeAttr_subType lookups ATTR_COUNT (by decide) 8 rfl fun _ _ => rfl,
    w.unserializeAttr_subType lookups ATTR_CHARGES (by decide) 16 rfl fun _ _ => rfl,
    unserializeAttr_actionId,
    w.unserializeAttr_text lookups ATTR_TEXT .text (by decide) fun _ _ => rfl,
    w.unserializeAttr_number lookups ATTR_WRITTENDATE .date (by decide) fun _ _ => rfl,
    w.unserializeAttr_text lookups ATTR_WRITTENBY .writer (by decide) fun _ _ => rfl,
    w.unserializeAttr_text lookups ATTR_DESC .description (by decide) fun _ _ => rfl,
    unserializeAttr_duration, unserializeAttr_decaying,
    w.unserializeAttr_text lookups ATTR_NAME .name (by decide) fun _ _ => rfl,
    w.unserializeAttr_text lookups ATTR_ARTICLE .article (by decide) fun _ _ => rfl,
    w.unserializeAttr_text lookups ATTR_PLURALNAME .pluralName (by decide) fun _ _ => rfl,
    w.unserializeAttr_number lookups ATTR_WEIGHT .weight (by decide) fun _ _ => rfl,
    w.unserializeAttr_number lookups ATTR_ATTACK .attack (by decide) fun _ _ => rfl,
    w.unserializeAttr_number lookups ATTR_DEFENSE .defense (by decide) fun _ _ => rfl,
    w.unserializeAttr_number lookups ATTR_EXTRADEFENSE .extraDefense (by decide) fun _ _ => rfl,
    w.unserializeAttr_number lookups ATTR_IMBUINGSLOTS .imbuingSlots (by decide) fun _ _ => rfl,
    w.unserializeAttr_number lookups ATTR_ARMOR .armor (by decide) fun _ _ => rfl,
    unserializeAttr_hitChance, unserializeAttr_shootRange,
    w.unserializeAttr_text lookups ATTR_SPECIAL .special (by decide) fun _ _ => rfl]
  rfl

/-! ### The attributes of the new object -/

variable {i j : Item} {t u : AttrType}

theorem setSubType_existing (i : Item) (n : Nat) (notFluid : u ≠ .fluidType)
    (notCharges : u ≠ .charges) : (w.setSubType i n).existing u = i.existing u := by
  unfold setSubType
  simp only
  split
  · exact i.existing_setIntAttr_ne _ notFluid
  · split
    · rfl
    · split
      · exact i.existing_setIntAttr_ne _ notCharges
      · rfl

theorem restoreSubType_existing (notFluid : u ≠ .fluidType) (notCharges : u ≠ .charges) :
    (w.restoreSubType i j).existing u = j.existing u := by
  unfold restoreSubType
  simp only
  split_ifs <;> simp only [w.setSubType_existing _ _ notFluid notCharges]

theorem constructItem_existing (type count : Nat) (cls : ItemClass) (notFluid : u ≠ .fluidType)
    (notCharges : u ≠ .charges) (notDuration : u ≠ .duration) :
    (w.constructItem type count cls).existing u = none := by
  unfold constructItem
  simp only
  have blank : ({ id := type, cls } : Item).existing u = none := rfl
  split_ifs <;> simp only [Item.existing_setIntAttr_ne _ _ notFluid,
    Item.existing_setIntAttr_ne _ _ notCharges, Item.existing_setIntAttr_ne _ _ notDuration,
    Item.existing_setItemCount, blank]

theorem getStrAttr_there (i : Item) (h : i.getStrAttr t ≠ []) : i.hasAttribute t = true := by
  rw [Item.hasAttribute_eq]
  by_contra absent
  exact h (i.getStrAttr_none (by simpa using absent))

theorem restoreAttributes_text (text : t.isStrAttrType = true) :
    (w.restoreAttributes i j).existing t =
      if i.getStrAttr t ≠ [] ∧ (i.getStrAttr t).length ≤ 0xFFFF then some (.string (i.getStrAttr t))
      else j.existing t := by
  have there : (i.hasAttribute t = true ∧ i.getStrAttr t ≠ [] ∧
      (i.getStrAttr t).length ≤ 0xFFFF) =
      (i.getStrAttr t ≠ [] ∧ (i.getStrAttr t).length ≤ 0xFFFF) :=
    propext ⟨fun h => h.2, fun h => ⟨getStrAttr_there i h.1, h⟩⟩
  cases t <;> first
    | exact absurd text (by decide)
    | simp (disch := decide) only [restoreAttributes, Item.existing_restoreText,
        Item.existing_restoreInt_ne, reduceCtorEq, false_and, true_and, if_false, there,
        bne_iff_ne, and_self_left]

theorem restoreAttributes_number (number : t ∈ [AttrType.weight, .attack, .defense, .extraDefense,
    .armor]) : (w.restoreAttributes i j).existing t =
      if i.hasAttribute t = true then some (.integer (i.intAttr t).toInt) else j.existing t := by
  simp only [List.mem_cons, List.not_mem_nil, or_false] at number
  rcases number with rfl | rfl | rfl | rfl | rfl <;>
    simp (disch := decide) only [restoreAttributes, Item.existing_restoreText,
      Item.existing_restoreInt, Item.existing_restoreInt_ne, reduceCtorEq, false_and, true_and,
      if_false]

theorem restoreAttributes_actionId : (w.restoreAttributes i j).existing .actionId =
    if (w.items.type i.id).moveable = true ∧ i.getActionId ≠ 0 then
      some (.integer (max 100 i.getActionId.toNat : Nat))
    else j.existing .actionId := by
  simp (disch := decide) only [restoreAttributes, Item.existing_restoreText,
    Item.existing_restoreInt, Item.existing_restoreInt_ne, reduceCtorEq, false_and, true_and,
    if_false, Bool.and_eq_true, bne_iff_ne]

theorem restoreAttributes_date : (w.restoreAttributes i j).existing .date =
    if i.getDate ≠ 0 then some (.integer i.getDate.toInt) else j.existing .date := by
  simp (disch := decide) only [restoreAttributes, Item.existing_restoreText,
    Item.existing_restoreInt, Item.existing_restoreInt_ne, reduceCtorEq, false_and, true_and,
    if_false, bne_iff_ne]

theorem restoreAttributes_duration : (w.restoreAttributes i j).existing .duration =
    if i.hasAttribute .duration = true then some (.integer (max 0 (i.intAttr .duration).toInt))
    else j.existing .duration := by
  simp (disch := decide) only [restoreAttributes, Item.existing_restoreText,
    Item.existing_restoreInt, Item.existing_restoreInt_ne, reduceCtorEq, false_and, true_and,
    if_false]

theorem restoreAttributes_decayState : (w.restoreAttributes i j).existing .decayState =
    if i.getDecaying = DECAYING_TRUE ∨ i.getDecaying = DECAYING_PENDING then some (.integer 2)
    else j.existing .decayState := by
  simp (disch := decide) only [restoreAttributes, Item.existing_restoreText,
    Item.existing_restoreInt, Item.existing_restoreInt_ne, reduceCtorEq, false_and, true_and,
    if_false, Bool.or_eq_true, beq_iff_eq]

theorem restoreAttributes_hitChance : (w.restoreAttributes i j).existing .hitChance =
    if i.hasAttribute .hitChance = true then
      some (.integer ((i.intAttr .hitChance).setWidth 8).toInt)
    else j.existing .hitChance := by
  simp (disch := decide) only [restoreAttributes, Item.existing_restoreText,
    Item.existing_restoreInt, Item.existing_restoreInt_ne, reduceCtorEq, false_and, true_and,
    if_false]

theorem restoreAttributes_shootRange : (w.restoreAttributes i j).existing .shootRange =
    if i.hasAttribute .shootRange = true then
      some (.integer ((i.intAttr .shootRange).setWidth 8).toNat)
    else j.existing .shootRange := by
  simp (disch := decide) only [restoreAttributes, Item.existing_restoreText,
    Item.existing_restoreInt, Item.existing_restoreInt_ne, reduceCtorEq, false_and, true_and,
    if_false]

/-- The sub type is left alone by what follows it. -/
theorem restoreAttributes_subType : (w.restoreAttributes i j).count = j.count ∧
    (w.restoreAttributes i j).getCharges = j.getCharges ∧
    (w.restoreAttributes i j).getFluidType = j.getFluidType := by
  refine ⟨?_, ?_, ?_⟩
  · simp only [restoreAttributes, Item.restoreText_count, Item.restoreInt_count]
  · refine congrArg (BitVec.setWidth 16) (Item.intAttr_congr _ ?_)
    simp (disch := decide) only [restoreAttributes, Item.existing_restoreText,
      Item.existing_restoreInt_ne, reduceCtorEq, false_and, if_false]
  · refine congrArg (BitVec.setWidth 16) (Item.intAttr_congr _ ?_)
    simp (disch := decide) only [restoreAttributes, Item.existing_restoreText,
      Item.existing_restoreInt_ne, reduceCtorEq, false_and, if_false]

/-! ### The sub type of the new object -/

end World

namespace ItemType

variable (it : ItemType)

/-- The types whose sub type is a fluid. -/
def hasFluid : Bool := it.isFluidContainer || it.isSplash

/-- The types whose sub type is a number of charges. -/
def hasCharges : Bool := !it.hasFluid && !it.stackable && it.charges != 0

/-- Two types with the same sort of sub type. -/
structure SameKind (it it' : ItemType) : Prop where
  fluid : it.hasFluid = it'.hasFluid
  stackable : it.stackable = it'.stackable
  charges : it.hasCharges = it'.hasCharges

end ItemType

/-- An item with nothing but the sub type that a type calls for. -/
structure Item.Regular (it : ItemType) (i : Item) : Prop where
  count : it.stackable = false → i.count = 1
  charges : it.hasCharges = false → i.getCharges = 0
  charged : it.hasCharges = true → i.getCharges = 0 → BitVec.ofNat 16 it.charges = 0
  fluid : it.hasFluid = true → i.getFluidType.toNat < 256
  dry : it.hasFluid = false → i.getFluidType = 0

namespace World

open PropStream

variable (w : World) (lookups : Lookups) {i j : Item} {type count : Nat} {cls : ItemClass}

theorem constructItem_count (single : (w.items.type type).stackable = false) :
    (w.constructItem type count cls).count = 1 := by
  unfold constructItem
  simp only [single, Bool.false_eq_true, if_false]
  split_ifs <;> rfl

theorem constructItem_fluidType (dry : (w.items.type type).hasFluid = false) :
    (w.constructItem type count cls).existing .fluidType = none := by
  have dry' : ((w.items.type type).isFluidContainer || (w.items.type type).isSplash) = false := dry
  have blank : ({ id := type, cls } : Item).existing .fluidType = none := rfl
  unfold constructItem
  simp only [dry', Bool.false_eq_true, if_false]
  split_ifs <;> simp (disch := decide) only [Item.existing_setIntAttr_ne,
    Item.existing_setItemCount, blank]

theorem constructItem_charges (uncharged : (w.items.type type).hasCharges = false) :
    (w.constructItem type count cls).existing .charges = none := by
  have blank : ({ id := type, cls } : Item).existing .charges = none := rfl
  unfold constructItem
  simp only
  split_ifs <;> first
    | (simp (disch := decide) only [Item.existing_setIntAttr_ne, Item.existing_setItemCount,
        blank]; done)
    | simp_all [ItemType.hasCharges, ItemType.hasFluid]

theorem constructItem_defaultCharges (charged : (w.items.type type).hasCharges = true) :
    (w.constructItem type 0 cls).existing .charges =
      some (.integer (w.items.type type).charges) := by
  simp only [ItemType.hasCharges, ItemType.hasFluid, Bool.and_eq_true, Bool.not_eq_true',
    bne_iff_ne] at charged
  obtain ⟨⟨dry, single⟩, some_⟩ := charged
  unfold constructItem
  simp only [dry, single, some_, Bool.false_eq_true, if_false, ne_eq, not_true_eq_false,
    not_false_eq_true, if_true]
  split_ifs <;> simp (disch := decide) only [Item.existing_setIntAttr_ne,
    Item.existing_setIntAttr, if_true]

/-- The object `CreateItem` makes; only a plain item is given the count. -/
theorem createItem_constructed {fresh : Item} (h : w.createItem type count = some fresh) :
    ∃ count', fresh = w.constructItem fresh.id count' fresh.cls ∧
      ((w.items.type type).stackable = false → count' ≤ count) := by
  simp only [createItem] at h
  rcases em ((w.items.type type).group = .deprecated) with deprecated | current
  · exact absurd (h.symm.trans (if_pos deprecated)) (by simp)
  rw [if_neg current] at h
  rcases em ((w.items.type type).id = 0) with missing | known
  · exact absurd (h.symm.trans (if_pos missing)) (by simp)
  rw [if_neg known] at h
  have made : ∀ type' count' cls, some (w.constructItem type' count' cls) = some fresh →
      fresh = w.constructItem fresh.id count' fresh.cls := by
    rintro type' count' cls ⟨⟩
    rw [constructItem_id, constructItem_cls]
  split at h
  · refine ⟨_, made _ _ _ h, fun single => ?_⟩
    rw [single, Bool.false_and, if_neg Bool.false_ne_true]
  · exact ⟨0, made _ _ _ h, fun _ => Nat.zero_le _⟩

theorem ofInt_setWidth (n : Nat) :
    (BitVec.ofInt 32 (n % 65536 : Nat)).setWidth 16 = BitVec.ofNat 16 n := by
  apply BitVec.eq_of_toNat_eq
  simp only [BitVec.toNat_setWidth, BitVec.toNat_ofInt, BitVec.toNat_ofNat]
  omega

theorem getCharges_congr (h : i.existing .charges = j.existing .charges) :
    i.getCharges = j.getCharges := congrArg (BitVec.setWidth 16) (i.intAttr_congr h)

theorem getFluidType_congr (h : i.existing .fluidType = j.existing .fluidType) :
    i.getFluidType = j.getFluidType := congrArg (BitVec.setWidth 16) (i.intAttr_congr h)

theorem getCharges_none (h : i.existing .charges = none) : i.getCharges = 0 := by
  rw [Item.getCharges, i.intAttr_none h]
  rfl

theorem getFluidType_none (h : i.existing .fluidType = none) : i.getFluidType = 0 := by
  rw [Item.getFluidType, i.intAttr_none h]
  rfl

/-! What `setSubType` does to the sub types, by the kind of the type. -/

theorem setSubType_fluid (fluid : (w.items.type i.id).hasFluid = true) (n : Nat) :
    (w.setSubType i n).count = i.count ∧ (w.setSubType i n).getCharges = i.getCharges ∧
      (w.setSubType i n).getFluidType = BitVec.ofNat 16 n := by
  have set : w.setSubType i n = i.setIntAttr .fluidType (n % 65536 : Nat) := if_pos fluid
  have written : (w.setSubType i n).existing .fluidType = some (.integer (n % 65536 : Nat)) := by
    rw [set, Item.existing_setIntAttr i (by decide), if_pos rfl]
  refine ⟨?_, ?_, ?_⟩
  · rw [set, Item.setIntAttr_count]
  · rw [set]
    exact getCharges_congr (i.existing_setIntAttr_ne _ (by decide))
  · rw [Item.getFluidType, Item.intAttr_integer _ (by decide) written, ofInt_setWidth]

theorem setSubType_charges (charged : (w.items.type i.id).hasCharges = true) (n : Nat) :
    (w.setSubType i n).count = i.count ∧ (w.setSubType i n).getCharges = BitVec.ofNat 16 n ∧
      (w.setSubType i n).getFluidType = i.getFluidType := by
  simp only [ItemType.hasCharges, ItemType.hasFluid, Bool.and_eq_true, Bool.not_eq_true'] at charged
  obtain ⟨⟨dry, single⟩, some_⟩ := charged
  have set : w.setSubType i n = i.setIntAttr .charges (n % 65536 : Nat) := by
    simp only [setSubType, dry, single, some_, Bool.false_eq_true, if_false, if_true]
  have written : (w.setSubType i n).existing .charges = some (.integer (n % 65536 : Nat)) := by
    rw [set, Item.existing_setIntAttr i (by decide), if_pos rfl]
  refine ⟨?_, ?_, ?_⟩
  · rw [set, Item.setIntAttr_count]
  · rw [Item.getCharges, Item.intAttr_integer _ (by decide) written, ofInt_setWidth]
  · rw [set]
    exact getFluidType_congr (i.existing_setIntAttr_ne _ (by decide))

theorem setSubType_count (dry : (w.items.type i.id).hasFluid = false)
    (uncharged : (w.items.type i.id).hasCharges = false) (n : Nat) :
    (w.setSubType i n).count = UInt8.ofNat n ∧ (w.setSubType i n).getCharges = i.getCharges ∧
      (w.setSubType i n).getFluidType = i.getFluidType := by
  have set : w.setSubType i n = i.setItemCount n := by
    simp only [ItemType.hasCharges, dry, Bool.not_false, Bool.true_and] at uncharged
    simp only [ItemType.hasFluid] at dry
    simp only [setSubType, dry, Bool.false_eq_true, if_false]
    cases single : (w.items.type i.id).stackable with
    | true => rfl
    | false =>
        simp only [single, Bool.not_false, Bool.true_and] at uncharged
        simp only [uncharged, Bool.false_eq_true, if_false]
  refine ⟨?_, ?_, ?_⟩
  · rw [set]
    rfl
  · rw [set]
    exact getCharges_congr (i.existing_setItemCount n)
  · rw [set]
    exact getFluidType_congr (i.existing_setItemCount n)

theorem stackable_dry {id : Nat} (stack : (w.items.type id).stackable = true) :
    (w.items.type id).hasFluid = false := by
  rw [ItemType.hasFluid, w.items.stackable_not_splash stack, w.items.stackable_not_fluid stack]
  rfl

section SubType

variable {fresh : Item}

/-- Of a fluid, a byte is kept, unless charges are read into it. -/
theorem restoreSubType_fluid (made : w.createItem i.id (w.subTypeOf i).toNat = some fresh)
    (same : (w.items.type i.id).SameKind (w.items.type fresh.id))
    (fluid : (w.items.type fresh.id).hasFluid = true) :
    (w.restoreSubType i fresh).count = 1 ∧ (w.restoreSubType i fresh).getCharges = 0 ∧
      (w.restoreSubType i fresh).getFluidType =
        if i.getCharges = 0 then (i.getFluidType.setWidth 8).setWidth 16 else i.getCharges := by
  obtain ⟨count', new, -⟩ := w.createItem_constructed made
  have single : (w.items.type fresh.id).stackable = false := by
    by_contra stack
    rw [Bool.not_eq_false] at stack
    exact absurd (w.stackable_dry stack) (by rw [fluid]; exact Bool.noConfusion)
  have uncharged : (w.items.type fresh.id).hasCharges = false := by simp [ItemType.hasCharges, fluid]
  have one : fresh.count = 1 := by
    rw [new]
    exact w.constructItem_count single
  have none_ : fresh.getCharges = 0 := by
    refine getCharges_none ?_
    rw [new]
    exact w.constructItem_charges uncharged
  have own := same.fluid.trans fluid
  have written : ((w.items.type i.id).stackable || (w.items.type i.id).isFluidContainer ||
      (w.items.type i.id).isSplash) = true := by
    rw [Bool.or_assoc]
    exact (Bool.or_eq_true _ _).mpr (Or.inr own)
  have subType : w.subTypeOf i = i.getFluidType := if_pos own
  have result : w.restoreSubType i fresh =
      if i.getCharges != 0 then
        w.setSubType (w.setSubType fresh (i.getFluidType.setWidth 8).toNat) i.getCharges.toNat
      else w.setSubType fresh (i.getFluidType.setWidth 8).toNat := by
    rw [restoreSubType, if_pos written, subType]
  obtain ⟨count, charges, kept⟩ := w.setSubType_fluid fluid (i.getFluidType.setWidth 8).toNat
  rw [result]
  by_cases empty : i.getCharges = 0
  · rw [if_neg (by simp [empty]), if_pos empty]
    exact ⟨count.trans one, charges.trans none_, kept.trans (BitVec.ofNat_toNat 16 _)⟩
  · rw [if_pos (by simpa using empty), if_neg empty]
    have fluid' : (w.items.type (w.setSubType fresh (i.getFluidType.setWidth 8).toNat).id).hasFluid =
        true := by
      rw [setSubType_id]
      exact fluid
    obtain ⟨count', charges', kept'⟩ := w.setSubType_fluid fluid' i.getCharges.toNat
    refine ⟨(count'.trans count).trans one, (charges'.trans charges).trans none_, ?_⟩
    rw [kept', BitVec.ofNat_toNat, BitVec.setWidth_eq]

/-- Of a stack, the count is kept, unless charges are read into it. -/
theorem restoreSubType_stack (made : w.createItem i.id (w.subTypeOf i).toNat = some fresh)
    (same : (w.items.type i.id).SameKind (w.items.type fresh.id))
    (stack : (w.items.type fresh.id).stackable = true) :
    (w.restoreSubType i fresh).count =
        (if i.getCharges = 0 then i.count else UInt8.ofNat i.getCharges.toNat) ∧
      (w.restoreSubType i fresh).getCharges = 0 ∧ (w.restoreSubType i fresh).getFluidType = 0 := by
  obtain ⟨count', new, -⟩ := w.createItem_constructed made
  have dry := w.stackable_dry stack
  have uncharged : (w.items.type fresh.id).hasCharges = false := by
    simp [ItemType.hasCharges, stack]
  have none_ : fresh.getCharges = 0 := by
    refine getCharges_none ?_
    rw [new]
    exact w.constructItem_charges uncharged
  have noFluid : fresh.getFluidType = 0 := by
    refine getFluidType_none ?_
    rw [new]
    exact w.constructItem_fluidType dry
  have own := same.stackable.trans stack
  have subType : ((w.subTypeOf i).setWidth 8).toNat = i.getItemCount := by
    have lt := i.getItemCount_lt
    have notFluid : ¬ ((w.items.type i.id).isFluidContainer || (w.items.type i.id).isSplash) =
        true := Bool.eq_false_iff.mp (w.stackable_dry own)
    rw [subTypeOf, if_neg notFluid, if_pos own, BitVec.toNat_setWidth, BitVec.toNat_ofNat]
    omega
  have result : w.restoreSubType i fresh =
      if i.getCharges != 0 then
        w.setSubType (w.setSubType fresh i.getItemCount) i.getCharges.toNat
      else w.setSubType fresh i.getItemCount := by
    rw [restoreSubType, own, Bool.true_or, Bool.true_or, if_pos rfl, subType]
  obtain ⟨count, charges, fluid⟩ := w.setSubType_count dry uncharged i.getItemCount
  rw [result]
  by_cases empty : i.getCharges = 0
  · rw [if_neg (by simp [empty]), if_pos empty]
    exact ⟨count.trans (UInt8.ofNat_toNat), charges.trans none_, fluid.trans noFluid⟩
  · rw [if_pos (by simpa using empty), if_neg empty]
    have id : (w.setSubType fresh i.getItemCount).id = fresh.id := w.setSubType_id _ _
    obtain ⟨count', charges', fluid'⟩ := w.setSubType_count (id ▸ dry) (id ▸ uncharged)
      i.getCharges.toNat
    exact ⟨count', (charges'.trans charges).trans none_, (fluid'.trans fluid).trans noFluid⟩

/-- Of charges, all are kept, but none are the charges of a new object. -/
theorem restoreSubType_charges (made : w.createItem i.id (w.subTypeOf i).toNat = some fresh)
    (same : (w.items.type i.id).SameKind (w.items.type fresh.id))
    (charged : (w.items.type fresh.id).hasCharges = true) :
    (w.restoreSubType i fresh).count = 1 ∧
      (w.restoreSubType i fresh).getCharges =
        (if i.getCharges = 0 then BitVec.ofNat 16 (w.items.type fresh.id).charges
          else i.getCharges) ∧
      (w.restoreSubType i fresh).getFluidType = 0 := by
  obtain ⟨count', new, few⟩ := w.createItem_constructed made
  have own := same.charges.trans charged
  have parts := charged
  simp only [ItemType.hasCharges, Bool.and_eq_true, Bool.not_eq_true'] at parts own
  obtain ⟨⟨dry, single⟩, some_⟩ := parts
  obtain ⟨⟨ownDry, ownSingle⟩, ownSome⟩ := own
  have one : fresh.count = 1 := by
    rw [new]
    exact w.constructItem_count single
  have noFluid : fresh.getFluidType = 0 := by
    refine getFluidType_none ?_
    rw [new]
    exact w.constructItem_fluidType dry
  simp only [ItemType.hasFluid] at ownDry
  have subType : w.subTypeOf i = i.getCharges := by
    simp only [subTypeOf, ownDry, ownSingle, ownSome, Bool.false_eq_true, if_false, if_true]
  have result : w.restoreSubType i fresh =
      if i.getCharges != 0 then w.setSubType fresh i.getCharges.toNat else fresh := by
    rw [restoreSubType, ownSingle, Bool.false_or, ownDry]
    rfl
  obtain ⟨count, charges, fluid⟩ := w.setSubType_charges charged i.getCharges.toNat
  rw [result]
  by_cases empty : i.getCharges = 0
  · rw [if_neg (by simp [empty]), if_pos empty]
    refine ⟨one, ?_, noFluid⟩
    have zero : count' = 0 := by
      have le := few ownSingle
      rw [subType, empty] at le
      exact Nat.le_zero.mp le
    have default : fresh.existing .charges = some (.integer (w.items.type fresh.id).charges) := by
      rw [new, zero, w.constructItem_defaultCharges charged, constructItem_id]
    rw [Item.getCharges, Item.intAttr_integer _ (by decide) default]
    apply BitVec.eq_of_toNat_eq
    simp only [BitVec.toNat_setWidth, BitVec.toNat_ofInt, BitVec.toNat_ofNat]
    omega
  · rw [if_pos (by simpa using empty), if_neg empty]
    refine ⟨count.trans one, charges.trans ?_, fluid.trans noFluid⟩
    rw [BitVec.ofNat_toNat, BitVec.setWidth_eq]

/-- Any other item is one, unless charges are read into its count. -/
theorem restoreSubType_other (made : w.createItem i.id (w.subTypeOf i).toNat = some fresh)
    (same : (w.items.type i.id).SameKind (w.items.type fresh.id))
    (dry : (w.items.type fresh.id).hasFluid = false)
    (single : (w.items.type fresh.id).stackable = false)
    (uncharged : (w.items.type fresh.id).hasCharges = false) :
    (w.restoreSubType i fresh).count =
        (if i.getCharges = 0 then 1 else UInt8.ofNat i.getCharges.toNat) ∧
      (w.restoreSubType i fresh).getCharges = 0 ∧ (w.restoreSubType i fresh).getFluidType = 0 := by
  obtain ⟨count', new, -⟩ := w.createItem_constructed made
  have one : fresh.count = 1 := by
    rw [new]
    exact w.constructItem_count single
  have none_ : fresh.getCharges = 0 := by
    refine getCharges_none ?_
    rw [new]
    exact w.constructItem_charges uncharged
  have noFluid : fresh.getFluidType = 0 := by
    refine getFluidType_none ?_
    rw [new]
    exact w.constructItem_fluidType dry
  have ownDry := same.fluid.trans dry
  simp only [ItemType.hasFluid] at ownDry
  have result : w.restoreSubType i fresh =
      if i.getCharges != 0 then w.setSubType fresh i.getCharges.toNat else fresh := by
    rw [restoreSubType, same.stackable.trans single, Bool.false_or, ownDry]
    rfl
  obtain ⟨count, charges, fluid⟩ := w.setSubType_count dry uncharged i.getCharges.toNat
  rw [result]
  by_cases empty : i.getCharges = 0
  · rw [if_neg (by simp [empty]), if_pos empty]
    exact ⟨one, none_, noFluid⟩
  · rw [if_pos (by simpa using empty), if_neg empty]
    exact ⟨count, charges.trans none_, fluid.trans noFluid⟩

/-- The sub types come back exactly if the item has the one its type calls for. -/
theorem restoreSubType_iff (made : w.createItem i.id (w.subTypeOf i).toNat = some fresh)
    (same : (w.items.type i.id).SameKind (w.items.type fresh.id)) :
    ((w.restoreSubType i fresh).count = i.count ∧
        (w.restoreSubType i fresh).getCharges = i.getCharges ∧
        (w.restoreSubType i fresh).getFluidType = i.getFluidType) ↔
      i.Regular (w.items.type fresh.id) := by
  cases fluid : (w.items.type fresh.id).hasFluid with
  | true =>
      obtain ⟨count, charges, kept⟩ := w.restoreSubType_fluid made same fluid
      have uncharged : (w.items.type fresh.id).hasCharges = false := by
        simp [ItemType.hasCharges, fluid]
      have single : (w.items.type fresh.id).stackable = false := by
        by_contra stack
        rw [Bool.not_eq_false] at stack
        exact absurd (w.stackable_dry stack) (by rw [fluid]; exact Bool.noConfusion)
      have byte : (i.getFluidType.setWidth 8).setWidth 16 = i.getFluidType ↔
          i.getFluidType.toNat < 256 := by
        rw [← BitVec.toNat_inj]
        simp only [BitVec.toNat_setWidth]
        omega
      rw [count, charges, kept]
      constructor
      · rintro ⟨one, none_, same_⟩
        rw [if_pos none_.symm, byte] at same_
        exact ⟨fun _ => one.symm, fun _ => none_.symm, by simp [uncharged], fun _ => same_,
          by simp [fluid]⟩
      · intro regular
        have none_ := regular.charges uncharged
        rw [if_pos none_, byte]
        exact ⟨(regular.count single).symm, none_.symm, regular.fluid fluid⟩
  | false =>
      cases stack : (w.items.type fresh.id).stackable with
      | true =>
          obtain ⟨count, charges, kept⟩ := w.restoreSubType_stack made same stack
          have uncharged : (w.items.type fresh.id).hasCharges = false := by
            simp [ItemType.hasCharges, stack]
          rw [count, charges, kept]
          constructor
          · rintro ⟨-, none_, noFluid⟩
            exact ⟨by simp [stack], fun _ => none_.symm, by simp [uncharged], by simp [fluid],
              fun _ => noFluid.symm⟩
          · intro regular
            have none_ := regular.charges uncharged
            exact ⟨if_pos none_, none_.symm, (regular.dry fluid).symm⟩
      | false =>
          cases charged : (w.items.type fresh.id).hasCharges with
          | true =>
              obtain ⟨count, charges, kept⟩ := w.restoreSubType_charges made same charged
              rw [count, charges, kept]
              constructor
              · rintro ⟨one, same_, noFluid⟩
                refine ⟨fun _ => one.symm, by simp [charged], fun _ none_ => ?_, by simp [fluid],
                  fun _ => noFluid.symm⟩
                rw [if_pos none_] at same_
                exact same_.trans none_
              · intro regular
                refine ⟨(regular.count stack).symm, ?_, (regular.dry fluid).symm⟩
                by_cases none_ : i.getCharges = 0
                · rw [if_pos none_, regular.charged charged none_, none_]
                · rw [if_neg none_]
          | false =>
              obtain ⟨count, charges, kept⟩ :=
                w.restoreSubType_other made same fluid stack charged
              rw [count, charges, kept]
              constructor
              · rintro ⟨one, none_, noFluid⟩
                rw [if_pos none_.symm] at one
                exact ⟨fun _ => one.symm, fun _ => none_.symm, by simp [charged], by simp [fluid],
                  fun _ => noFluid.symm⟩
              · intro regular
                have none_ := regular.charges charged
                exact ⟨(if_pos none_).trans (regular.count stack).symm, none_.symm,
                  (regular.dry fluid).symm⟩

end SubType

/-! ### Written and read back -/

/-- What an item keeps of its attributes when they are written and read back. -/
structure Persisted (i i' : Item) : Prop where
  actionId : i'.getActionId.toNat =
    if (w.items.type i.id).moveable = true ∧ i.getActionId ≠ 0 then max 100 i.getActionId.toNat
    else 0
  date : i'.getDate = i.getDate
  decaying : i'.getDecaying =
    if i.getDecaying = DECAYING_TRUE ∨ i.getDecaying = DECAYING_PENDING then DECAYING_PENDING
    else DECAYING_FALSE
  duration : i.hasAttribute .duration = true → i'.hasAttribute .duration = true ∧
    (i'.intAttr .duration).toInt = max 0 (i.intAttr .duration).toInt
  text : ∀ t : AttrType, t.isStrAttrType = true → i'.getStrAttr t =
    if (i.getStrAttr t).length ≤ 0xFFFF then i.getStrAttr t else []
  named : ∀ t : AttrType, t.isStrAttrType = true →
    (i'.hasAttribute t = true ↔ i'.getStrAttr t ≠ [])
  number : ∀ t ∈ [AttrType.weight, .attack, .defense, .extraDefense, .armor],
    i'.hasAttribute t = i.hasAttribute t ∧ i'.intAttr t = i.intAttr t
  byte : ∀ t ∈ [AttrType.hitChance, .shootRange],
    i'.hasAttribute t = i.hasAttribute t ∧ (i'.intAttr t).setWidth 8 = (i.intAttr t).setWidth 8

theorem createItem_existing {fresh : Item} (made : w.createItem type count = some fresh)
    {u : AttrType} (notFluid : u ≠ .fluidType) (notCharges : u ≠ .charges)
    (notDuration : u ≠ .duration) : (w.restoreSubType i fresh).existing u = none := by
  obtain ⟨count', new, -⟩ := w.createItem_constructed made
  rw [w.restoreSubType_existing notFluid notCharges, new]
  exact w.constructItem_existing _ _ _ notFluid notCharges notDuration

theorem hasAttribute_of_ite {t : AttrType} {v : AttrValue} {p : Prop} [Decidable p]
    (h : i.existing t = if p then some v else none) : i.hasAttribute t = decide p := by
  rw [Item.hasAttribute_eq, h]
  by_cases there : p <;> simp [there]

theorem intAttr_of_ite {t : AttrType} (number : t.isIntAttrType = true) {n : Int} {p : Prop}
    [Decidable p] (h : i.existing t = if p then some (.integer n) else none) :
    i.intAttr t = if p then BitVec.ofInt 32 n else 0 := by
  by_cases there : p
  · rw [if_pos there] at h ⊢
    exact i.intAttr_integer number h
  · rw [if_neg there] at h ⊢
    exact i.intAttr_none h

theorem getStrAttr_of_ite {t : AttrType} (text : t.isStrAttrType = true) {s : List UInt8}
    {p : Prop} [Decidable p] (h : i.existing t = if p then some (.string s) else none) :
    i.getStrAttr t = if p then s else [] := by
  by_cases there : p
  · rw [if_pos there] at h ⊢
    exact i.getStrAttr_string text h
  · rw [if_neg there] at h ⊢
    exact i.getStrAttr_none h

/-- An attribute that is not there is 0. -/
theorem intAttr_absent {t : AttrType} (h : ¬ i.hasAttribute t = true) : i.intAttr t = 0 := by
  rw [Item.hasAttribute_eq] at h
  exact i.intAttr_none (by simpa using h)

theorem setWidth_ofInt_toInt (x : BitVec 8) : (BitVec.ofInt 32 x.toInt).setWidth 8 = x := by
  apply BitVec.eq_of_toNat_eq
  have lt := x.isLt
  simp only [BitVec.toNat_setWidth, BitVec.toNat_ofInt, BitVec.toInt_eq_toNat_cond]
  split <;> omega

theorem setWidth_ofInt_toNat (x : BitVec 8) : (BitVec.ofInt 32 x.toNat).setWidth 8 = x := by
  apply BitVec.eq_of_toNat_eq
  have lt := x.isLt
  simp only [BitVec.toNat_setWidth, BitVec.toNat_ofInt]
  omega

theorem persisted {fresh : Item} (made : w.createItem type count = some fresh) :
    w.Persisted i (w.restoreAttributes i (w.restoreSubType i fresh)) := by
  have action := w.restoreAttributes_actionId (i := i) (j := w.restoreSubType i fresh)
  have date := w.restoreAttributes_date (i := i) (j := w.restoreSubType i fresh)
  have decay := w.restoreAttributes_decayState (i := i) (j := w.restoreSubType i fresh)
  have duration := w.restoreAttributes_duration (i := i) (j := w.restoreSubType i fresh)
  have text (t : AttrType) (str : t.isStrAttrType = true) :=
    w.restoreAttributes_text (i := i) (j := w.restoreSubType i fresh) str
  have chance := w.restoreAttributes_hitChance (i := i) (j := w.restoreSubType i fresh)
  have range := w.restoreAttributes_shootRange (i := i) (j := w.restoreSubType i fresh)
  have numbers (t : AttrType) (number : t ∈ [AttrType.weight, .attack, .defense, .extraDefense,
      .armor]) := w.restoreAttributes_number (i := i) (j := w.restoreSubType i fresh) number
  have blank (t : AttrType) := w.createItem_existing (i := i) (u := t) made
  rw [blank _ (by decide) (by decide) (by decide)] at action date decay chance range
  generalize w.restoreAttributes i (w.restoreSubType i fresh) = i' at *
  refine ⟨?_, ?_, ?_, ?_, ?_, ?_, ?_, ?_⟩
  · rw [Item.getActionId, intAttr_of_ite (by decide) action]
    split
    · have lt := i.getActionId.isLt
      simp only [BitVec.toNat_setWidth, BitVec.toNat_ofInt]
      omega
    · rfl
  · rw [Item.getDate, intAttr_of_ite (by decide) date, BitVec.ofInt_toInt]
    split
    · rfl
    · next zero => exact (not_not.mp zero).symm
  · rw [Item.getDecaying, intAttr_of_ite (by decide) decay]
    split <;> rfl
  · intro there
    rw [if_pos there] at duration
    refine ⟨by rw [Item.hasAttribute_eq, duration]; rfl, ?_⟩
    rw [i'.intAttr_integer (by decide) duration, BitVec.toInt_ofInt]
    have lt := (i.intAttr .duration).toInt_lt
    have ge := (i.intAttr .duration).le_toInt
    rw [Int.bmod_eq_of_le (by omega) (by omega)]
  · intro t str
    have here := text t str
    rw [blank t (by rintro rfl; exact absurd str (by decide))
      (by rintro rfl; exact absurd str (by decide))
      (by rintro rfl; exact absurd str (by decide))] at here
    rw [getStrAttr_of_ite str here]
    by_cases empty : i.getStrAttr t = []
    · simp [empty]
    · simp [empty]
  · intro t str
    have here := text t str
    rw [blank t (by rintro rfl; exact absurd str (by decide))
      (by rintro rfl; exact absurd str (by decide))
      (by rintro rfl; exact absurd str (by decide))] at here
    rw [getStrAttr_of_ite str here, hasAttribute_of_ite here, decide_eq_true_iff]
    constructor
    · intro there
      rw [if_pos there]
      exact there.1
    · intro there
      by_contra absent
      exact there (if_neg absent)
  · intro t number
    have here := numbers t number
    have type : t.isIntAttrType = true ∧ t ≠ .fluidType ∧ t ≠ .charges ∧ t ≠ .duration := by
      simp only [List.mem_cons, List.not_mem_nil, or_false] at number
      rcases number with rfl | rfl | rfl | rfl | rfl <;> decide
    obtain ⟨int, notFluid, notCharges, notDuration⟩ := type
    rw [blank t notFluid notCharges notDuration] at here
    rw [hasAttribute_of_ite here, intAttr_of_ite int here, BitVec.ofInt_toInt]
    by_cases there : i.hasAttribute t = true
    · simp [there]
    · simp [there, intAttr_absent there]
  · intro t byte
    simp only [List.mem_cons, List.not_mem_nil, or_false] at byte
    rcases byte with rfl | rfl
    · rw [hasAttribute_of_ite chance, intAttr_of_ite (by decide) chance]
      by_cases there : i.hasAttribute .hitChance = true
      · refine ⟨by simp [there], ?_⟩
        rw [if_pos there, setWidth_ofInt_toInt]
      · simp [there, intAttr_absent there]
    · rw [hasAttribute_of_ite range, intAttr_of_ite (by decide) range]
      by_cases there : i.hasAttribute .shootRange = true
      · refine ⟨by simp [there], ?_⟩
        rw [if_pos there, setWidth_ofInt_toNat]
      · simp [there, intAttr_absent there]

/-- The end mark of a stream, or its end. -/
theorem unserializeAttr_nil (o : ItemObject) : w.unserializeAttr lookups o [] = (true, o, []) := by
  rw [unserializeAttr]
  split
  · rfl
  · next here => exact absurd here (by simp [PropStream.read])

theorem unserializeAttr_zero (o : ItemObject) (s : PropStream) :
    w.unserializeAttr lookups o (write (0 : BitVec 8) ++ s) = (true, o, s) := by
  have first := read_write_8 0 s
  rw [unserializeAttr]
  split
  · next none_ => exact absurd (first.symm.trans none_) (by simp)
  · next attr rest some_ =>
      obtain ⟨rfl, rfl⟩ := Prod.mk.inj (Option.some.inj (first.symm.trans some_))
      rw [if_pos rfl]

/-- The destination of a teleport is skipped by an object of another class. -/
theorem unserializeAttr_destination (x y : BitVec 16) (z : BitVec 8) (o : ItemObject)
    (s : PropStream) :
    w.unserializeAttr lookups o (attr ATTR_TELE_DEST (write x ++ write y ++ write z) ++ s) =
      w.unserializeAttr lookups
        (if o.cls = .teleport then { o with destX := x, destY := y, destZ := z } else o) s := by
  refine w.unserializeAttr_attr lookups (by decide) ?_
  by_cases teleport : o.cls = .teleport
  · simp only [readAttr, teleport, if_true, readDestination, List.append_assoc, read_write_16,
      reading, read_write_8]
  · rw [if_neg teleport]
    have skipped : skip 5 ((write x ++ write y ++ write z) ++ s) = some s := by
      have len : (write x ++ write y ++ write z).length = 5 := by
        simp only [List.length_append, write_length]
      rw [skip, if_neg (by rw [List.length_append]; omega), List.drop_left' len]
    have base : w.readObjectAttr lookups o ATTR_TELE_DEST
        ((write x ++ write y ++ write z) ++ s) = (.attrReadContinue, o, s) := by
      have item : w.readItemAttr lookups o.toItem ATTR_TELE_DEST
          ((write x ++ write y ++ write z) ++ s) =
            skipping 5 o.toItem ((write x ++ write y ++ write z) ++ s) := rfl
      rw [readObjectAttr, item, skipping, skipped]
    unfold readAttr
    split
    · rw [if_neg (show ATTR_TELE_DEST ≠ ATTR_DEPOT_ID by decide),
        if_neg (show ATTR_TELE_DEST ≠ ATTR_CONTAINER_ITEMS by decide), ite_self]
      exact base
    · next here => exact absurd here teleport
    · rw [if_neg (by decide)]
      exact base
    · rw [if_neg (by decide), if_neg (by decide)]
      exact base
    · exact base

/-- The classes that write the attributes of an item: not doors and beds. -/
def WritesAttributes (cls : ItemClass) : Prop := cls ≠ .door ∧ ∀ house, cls ≠ .bed house

theorem unserializeAttr_serializeAttr {o : ItemObject} (writes : WritesAttributes o.cls)
    (fresh : Item) : ∃ o' : ItemObject,
      o'.toItem = w.restoreAttributes o.toItem (w.restoreSubType o.toItem fresh) ∧
      (o.cls = .teleport → fresh.cls = .teleport →
        o'.destX = o.destX ∧ o'.destY = o.destY ∧ o'.destZ = o.destZ) ∧
      ∀ s, w.unserializeAttr lookups { toItem := fresh } (w.serializeAttr o ++ s) =
        w.unserializeAttr lookups o' s := by
  have cls : (w.restoreAttributes o.toItem (w.restoreSubType o.toItem fresh)).cls = fresh.cls := by
    simp only [restoreAttributes, Item.restoreText_cls, Item.restoreInt_cls, restoreSubType]
    split_ifs <;> simp only [setSubType_cls]
  by_cases teleport : o.cls = .teleport
  · refine ⟨if fresh.cls = .teleport then
        { toItem := w.restoreAttributes o.toItem (w.restoreSubType o.toItem fresh)
          destX := o.destX, destY := o.destY, destZ := o.destZ }
      else { toItem := w.restoreAttributes o.toItem (w.restoreSubType o.toItem fresh) }, ?_, ?_, ?_⟩
    · split <;> rfl
    · intro _ new
      rw [if_pos new]
      exact ⟨rfl, rfl, rfl⟩
    · intro s
      have written : w.serializeAttr o = w.serializeItemAttr o.toItem ++
          attr ATTR_TELE_DEST (write o.destX ++ write o.destY ++ write o.destZ) := by
        simp only [serializeAttr, teleport]
      rw [written, List.append_assoc, unserializeAttr_item, unserializeAttr_destination]
      simp only [cls]
  · refine ⟨{ toItem := w.restoreAttributes o.toItem (w.restoreSubType o.toItem fresh) }, rfl,
      fun h => absurd h teleport, fun s => ?_⟩
    have written : w.serializeAttr o = w.serializeItemAttr o.toItem := by
      unfold serializeAttr
      split
      · next door => exact absurd door writes.1
      · next house bed => exact absurd bed (writes.2 house)
      · next here => exact absurd here teleport
      · rfl
    rw [written, unserializeAttr_item]

/-- What is written of an item is read back into a new object to the last byte, up to the end
of the stream or an end mark, and the object has the attributes of the item; it has its count,
charges and fluid exactly if the item has no others than those its type calls for. -/
theorem attributes_read_back {o : ItemObject} {fresh : Item} (writes : WritesAttributes o.cls)
    (made : w.createItem o.id (w.subTypeOf o.toItem).toNat = some fresh) :
    ∃ o' : ItemObject,
      w.unserializeAttr lookups { toItem := fresh } (w.serializeAttr o) = (true, o', []) ∧
      (∀ s, w.unserializeAttr lookups { toItem := fresh }
        (w.serializeAttr o ++ (write (0 : BitVec 8) ++ s)) = (true, o', s)) ∧
      o'.id = fresh.id ∧ w.Persisted o.toItem o'.toItem ∧
      ((w.items.type o.id).SameKind (w.items.type fresh.id) →
        (o'.count = o.count ∧ o'.getCharges = o.getCharges ∧ o'.getFluidType = o.getFluidType ↔
          o.Regular (w.items.type fresh.id))) ∧
      (o.cls = .teleport → fresh.cls = .teleport →
        o'.destX = o.destX ∧ o'.destY = o.destY ∧ o'.destZ = o.destZ) := by
  obtain ⟨o', item, destination, read⟩ := w.unserializeAttr_serializeAttr lookups writes fresh
  refine ⟨o', ?_, ?_, ?_, ?_, ?_, destination⟩
  · rw [← List.append_nil (w.serializeAttr o), read, unserializeAttr_nil]
  · intro s
    rw [read, unserializeAttr_zero]
  · rw [item]
    simp only [restoreAttributes, Item.restoreText_id, Item.restoreInt_id, restoreSubType]
    split_ifs <;> simp only [setSubType_id]
  · rw [item]
    exact w.persisted made
  · intro same
    obtain ⟨count, charges, fluid⟩ := w.restoreAttributes_subType
      (i := o.toItem) (j := w.restoreSubType o.toItem fresh)
    rw [item, count, charges, fluid]
    exact w.restoreSubType_iff made same

namespace Sample

/-- An amulet with charges. -/
def amuletType : Nat → ItemType
  | 1 => { id := 1, moveable := true, pickupable := true, charges := 200 }
  | _ => {}

def amulets : World where
  items :=
    { type := amuletType
      stackable_isPlain := fun id h => by
        unfold amuletType at h
        split at h <;> simp at h
      stackable_down := fun id h => by
        unfold amuletType at h
        split at h <;> simp at h
      stackable_createdId := fun id h => by
        unfold amuletType at h
        split at h <;> simp at h }
  classicEquipmentSlots := false
  canEquip _ _ _ := true
  isInvited _ _ := true
  isInGhostMode _ := false
  players := []
  browseFields _ := none
  item _ := { id := 0 }
  next := 0
  tile _ := none
  player _ := {}

def noLookups : Lookups where
  addUniqueItem _ := true
  getNameByGuid _ := []

/-- An amulet that has lost charges, with a text on it, and that decays. -/
def amulet : ItemObject :=
  { toItem := ((({ id := 1 } : Item).setIntAttr .charges 42).setStrAttr .text [65, 66]).setIntAttr
      .decayState 1 }

theorem amulet_made : amulets.createItem amulet.id (amulets.subTypeOf amulet.toItem).toNat =
    some (amulets.constructItem 1 42 .item) := rfl

theorem amulet_read_back : ∃ o' : ItemObject,
    amulets.unserializeAttr noLookups { toItem := amulets.constructItem 1 42 .item }
        (amulets.serializeAttr amulet) = (true, o', []) ∧
      (∀ s, amulets.unserializeAttr noLookups { toItem := amulets.constructItem 1 42 .item }
        (amulets.serializeAttr amulet ++ (write (0 : BitVec 8) ++ s)) = (true, o', s)) ∧
      o'.id = (amulets.constructItem 1 42 .item).id ∧ amulets.Persisted amulet.toItem o'.toItem ∧
      ((amulets.items.type amulet.id).SameKind
          (amulets.items.type (amulets.constructItem 1 42 .item).id) →
        (o'.count = amulet.count ∧ o'.getCharges = amulet.getCharges ∧
            o'.getFluidType = amulet.getFluidType ↔
          amulet.Regular (amulets.items.type (amulets.constructItem 1 42 .item).id))) ∧
      (amulet.cls = .teleport → (amulets.constructItem 1 42 .item).cls = .teleport →
        o'.destX = amulet.destX ∧ o'.destY = amulet.destY ∧ o'.destZ = amulet.destZ) :=
  amulets.attributes_read_back noLookups ⟨by decide, fun _ => nofun⟩ amulet_made

/-- An item that decays comes back waiting to decay. -/
theorem amulet_waits :
    ¬ ∀ (w : World) (lookups : Lookups) (o : ItemObject) (fresh : Item),
      w.createItem o.id (w.subTypeOf o.toItem).toNat = some fresh → ∃ o' : ItemObject,
        w.unserializeAttr lookups { toItem := fresh } (w.serializeAttr o) = (true, o', []) ∧
          o'.getDecaying = o.getDecaying := by
  intro decays
  obtain ⟨o', read, same⟩ := decays amulets noLookups amulet _ amulet_made
  obtain ⟨o'', item, -, read'⟩ := amulets.unserializeAttr_serializeAttr noLookups
    (o := amulet) ⟨by decide, fun _ => nofun⟩ (amulets.constructItem 1 42 .item)
  have whole := read' []
  rw [List.append_nil, read, unserializeAttr_nil] at whole
  obtain rfl : o' = o'' := (Prod.mk.inj (Prod.mk.inj whole).2).1
  have waits := (amulets.persisted amulet_made).decaying (i := amulet.toItem)
  rw [← item, same] at waits
  exact absurd waits (by decide)

end Sample

end World

end TibServer
