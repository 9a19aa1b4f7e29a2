import TibServer.Mutators
import TibServer.PropStream

/-!
Item attributes as they are saved with a player or a house and loaded again
(`Item::serializeAttr`, `Item::readAttr` and `Item::unserializeAttr` in `item.cpp`, with the
classes that override them: `container.cpp`, `depotlocker.cpp`, `teleport.cpp`, `house.cpp`,
`bed.cpp`).
-/

namespace TibServer

/-! ### Getters and setters

`Item::getIntAttr` gives 32 bits of the number that is kept, and the getters of one
attribute give what their type has room for. -/

namespace Item

variable (i : Item)

def getStrAttr (t : AttrType) : List UInt8 :=
  match i.attributes with
  | none => []
  | some a => a.getStrAttr t

def setStrAttr (t : AttrType) (s : List UInt8) : Item :=
  { i with attributes := some ((i.attributes.getD .empty).setStrAttr t s) }

/-- `Item::getIntAttr`, an `int32_t`. -/
def intAttr (t : AttrType) : BitVec 32 := BitVec.ofInt 32 (i.getIntAttr t)

def getActionId : BitVec 16 := (i.intAttr .actionId).setWidth 16
def getCharges : BitVec 16 := (i.intAttr .charges).setWidth 16
def getFluidType : BitVec 16 := (i.intAttr .fluidType).setWidth 16
def getDate : BitVec 32 := i.intAttr .date
def getDecaying : BitVec 8 := (i.intAttr .decayState).setWidth 8

def setActionId (n : BitVec 16) : Item := i.setIntAttr .actionId (max 100 n.toNat : Nat)

/-- `setIntAttr` with an `int32_t`. -/
def setInt (t : AttrType) (v : BitVec 32) : Item := i.setIntAttr t v.toInt

def setDuration (time : BitVec 32) : Item := i.setInt .duration time
def setDecaying (decayState : BitVec 8) : Item := i.setIntAttr .decayState decayState.toNat

end Item

def DECAYING_FALSE : BitVec 8 := 0
def DECAYING_TRUE : BitVec 8 := 1
def DECAYING_PENDING : BitVec 8 := 2

def ATTR_ACTION_ID : BitVec 8 := 4
def ATTR_UNIQUE_ID : BitVec 8 := 5
def ATTR_TEXT : BitVec 8 := 6
def ATTR_DESC : BitVec 8 := 7
def ATTR_TELE_DEST : BitVec 8 := 8
def ATTR_DEPOT_ID : BitVec 8 := 10
def ATTR_RUNE_CHARGES : BitVec 8 := 12
def ATTR_HOUSEDOORID : BitVec 8 := 14
def ATTR_COUNT : BitVec 8 := 15
def ATTR_DURATION : BitVec 8 := 16
def ATTR_DECAYING_STATE : BitVec 8 := 17
def ATTR_WRITTENDATE : BitVec 8 := 18
def ATTR_WRITTENBY : BitVec 8 := 19
def ATTR_SLEEPERGUID : BitVec 8 := 20
def ATTR_SLEEPSTART : BitVec 8 := 21
def ATTR_CHARGES : BitVec 8 := 22
def ATTR_CONTAINER_ITEMS : BitVec 8 := 23
def ATTR_NAME : BitVec 8 := 24
def ATTR_ARTICLE : BitVec 8 := 25
def ATTR_PLURALNAME : BitVec 8 := 26
def ATTR_WEIGHT : BitVec 8 := 27
def ATTR_ATTACK : BitVec 8 := 28
def ATTR_DEFENSE : BitVec 8 := 29
def ATTR_EXTRADEFENSE : BitVec 8 := 30
def ATTR_ARMOR : BitVec 8 := 31
def ATTR_HITCHANCE : BitVec 8 := 32
def ATTR_SHOOTRANGE : BitVec 8 := 33
def ATTR_SPECIAL : BitVec 8 := 34
def ATTR_IMBUINGSLOTS : BitVec 8 := 35

/-- `Attr_ReadValue`. -/
inductive AttrReadValue
  | attrReadContinue | attrReadError | attrReadEnd
  deriving DecidableEq, Repr

/-- An item with the data of its own that its class reads or writes. -/
structure ItemObject extends Item where
  depotId : BitVec 16 := 0
  destX : BitVec 16 := 0
  destY : BitVec 16 := 0
  destZ : BitVec 8 := 0
  serializationCount : BitVec 32 := 0
  sleeperGUID : BitVec 32 := 0
  sleepStart : BitVec 64 := 0

/-- What reading asks the rest of the server: whether a unique id is still free
(`Game::addUniqueItem`), and a player's name (`IOLoginData::getNameByGuid`). -/
structure Lookups where
  addUniqueItem : BitVec 16 → Bool
  getNameByGuid : BitVec 32 → List UInt8

namespace World

open PropStream

variable (w : World) (lookups : Lookups)

/-- `Item::getSubType` of an object. -/
def subTypeOf (i : Item) : BitVec 16 :=
  let it := w.items.type i.id
  if it.isFluidContainer || it.isSplash then i.getFluidType
  else if it.stackable then BitVec.ofNat 16 i.getItemCount
  else if it.charges != 0 then i.getCharges
  else BitVec.ofNat 16 i.getItemCount

theorem getSubType_eq (i : ItemRef) : w.getSubType i = (w.subTypeOf (w.item i)).toNat := by
  have count : (BitVec.ofNat 16 (w.item i).getItemCount).toNat = (w.item i).getItemCount := by
    have lt := (w.item i).getItemCount_lt
    rw [BitVec.toNat_ofNat]
    omega
  have number (t : AttrType) : ((w.item i).intAttr t).setWidth 16 =
      BitVec.ofInt 16 ((w.item i).getIntAttr t) := by
    apply BitVec.eq_of_toNat_eq
    simp only [Item.intAttr, BitVec.toNat_setWidth, BitVec.toNat_ofInt]
    omega
  simp only [getSubType, subTypeOf, Item.getFluidType, Item.getCharges, number, getItemCount,
    typeOf, apply_ite BitVec.toNat, count]
  rfl

/-- `Item::setUniqueId`. -/
def setUniqueId (i : Item) (n : BitVec 16) : Item :=
  if i.hasAttribute .uniqueId then i
  else if lookups.addUniqueItem n then i.setIntAttr .uniqueId n.toNat
  else i

/-! ### Writing -/

/-- An attribute that is only written if it is there. -/
def given (there : Bool) (number : BitVec 8) (value : List UInt8) : List UInt8 :=
  if there then attr number value else []

/-- `Item::serializeAttr`. -/
def serializeItemAttr (i : Item) : List UInt8 :=
  let it := w.items.type i.id
  let charges := i.getCharges
  let decayState := i.getDecaying
  given (it.stackable || it.isFluidContainer || it.isSplash) ATTR_COUNT
      (write ((w.subTypeOf i).setWidth 8)) ++
    given (charges != 0) ATTR_CHARGES (write charges) ++
    given (it.moveable && i.getActionId != 0) ATTR_ACTION_ID (write i.getActionId) ++
    given (i.getStrAttr .text != []) ATTR_TEXT (writeString (i.getStrAttr .text)) ++
    given (i.getDate != 0) ATTR_WRITTENDATE (write i.getDate) ++
    given (i.getStrAttr .writer != []) ATTR_WRITTENBY (writeString (i.getStrAttr .writer)) ++
    given (i.getStrAttr .description != []) ATTR_DESC
      (writeString (i.getStrAttr .description)) ++
    given (i.hasAttribute .duration) ATTR_DURATION (write (i.intAttr .duration)) ++
    given (decayState == DECAYING_TRUE || decayState == DECAYING_PENDING) ATTR_DECAYING_STATE
      (write decayState) ++
    given (i.hasAttribute .name) ATTR_NAME (writeString (i.getStrAttr .name)) ++
    given (i.hasAttribute .article) ATTR_ARTICLE (writeString (i.getStrAttr .article)) ++
    given (i.hasAttribute .pluralName) ATTR_PLURALNAME
      (writeString (i.getStrAttr .pluralName)) ++
    given (i.hasAttribute .weight) ATTR_WEIGHT (write (i.intAttr .weight)) ++
    given (i.hasAttribute .attack) ATTR_ATTACK (write (i.intAttr .attack)) ++
    given (i.hasAttribute .defense) ATTR_DEFENSE (write (i.intAttr .defense)) ++
    given (i.hasAttribute .extraDefense) ATTR_EXTRADEFENSE (write (i.intAttr .extraDefense)) ++
    given (i.hasAttribute .imbuingSlots) ATTR_IMBUINGSLOTS (write (i.intAttr .imbuingSlots)) ++
    given (i.hasAttribute .armor) ATTR_ARMOR (write (i.intAttr .armor)) ++
    given (i.hasAttribute .hitChance) ATTR_HITCHANCE
      (write ((i.intAttr .hitChance).setWidth 8)) ++
    given (i.hasAttribute .shootRange) ATTR_SHOOTRANGE
      (write ((i.intAttr .shootRange).setWidth 8)) ++
    given (i.hasAttribute .special) ATTR_SPECIAL (writeString (i.getStrAttr .special))

/-- The virtual `serializeAttr`: doors write nothing, beds only who sleeps in them. -/
def serializeAttr (o : ItemObject) : List UInt8 :=
  match o.cls with
  | .door => []
  | .bed _ =>
      given (o.sleeperGUID != 0) ATTR_SLEEPERGUID (write o.sleeperGUID) ++
        given (o.sleepStart != 0) ATTR_SLEEPSTART (write (o.sleepStart.setWidth 32))
  | .teleport =>
      w.serializeItemAttr o.toItem ++
        attr ATTR_TELE_DEST (write o.destX ++ write o.destY ++ write o.destZ)
  | _ => w.serializeItemAttr o.toItem

/-! ### Reading -/

/-- A value is read and something is done with it, or it is not there. -/
def reading {α β : Type} (reads : PropStream → Option (α × PropStream)) (o : β) (f : α → β)
    (s : PropStream) : AttrReadValue × β × PropStream :=
  match reads s with
  | none => (.attrReadError, o, s)
  | some (v, s) => (.attrReadContinue, f v, s)

/-- The data of another class is skipped. -/
def skipping {β : Type} (n : Nat) (o : β) (s : PropStream) : AttrReadValue × β × PropStream :=
  match skip n s with
  | none => (.attrReadError, o, s)
  | some s => (.attrReadContinue, o, s)

/-- `Item::readAttr`. -/
def readItemAttr (i : Item) (attr : BitVec 8) (s : PropStream) :
    AttrReadValue × Item × PropStream :=
  if attr = ATTR_COUNT ∨ attr = ATTR_RUNE_CHARGES then
    reading (read 8) i (fun count => w.setSubType i count.toNat) s
  else if attr = ATTR_ACTION_ID then reading (read 16) i i.setActionId s
  else if attr = ATTR_UNIQUE_ID then reading (read 16) i (setUniqueId lookups i) s
  else if attr = ATTR_TEXT then reading readString i (i.setStrAttr .text) s
  else if attr = ATTR_WRITTENDATE then reading (read 32) i (i.setInt .date) s
  else if attr = ATTR_WRITTENBY then reading readString i (i.setStrAttr .writer) s
  else if attr = ATTR_DESC then reading readString i (i.setStrAttr .description) s
  else if attr = ATTR_CHARGES then
    reading (read 16) i (fun charges => w.setSubType i charges.toNat) s
  else if attr = ATTR_DURATION then
    reading (read 32) i (fun duration => i.setDuration (if duration.toInt < 0 then 0 else duration)) s
  else if attr = ATTR_DECAYING_STATE then
    reading (read 8) i
      (fun state => if state ≠ DECAYING_FALSE then i.setDecaying DECAYING_PENDING else i) s
  else if attr = ATTR_NAME then reading readString i (i.setStrAttr .name) s
  else if attr = ATTR_ARTICLE then reading readString i (i.setStrAttr .article) s
  else if attr = ATTR_PLURALNAME then reading readString i (i.setStrAttr .pluralName) s
  else if attr = ATTR_WEIGHT then reading (read 32) i (i.setInt .weight) s
  else if attr = ATTR_ATTACK then reading (read 32) i (i.setInt .attack) s
  else if attr = ATTR_DEFENSE then reading (read 32) i (i.setInt .defense) s
  else if attr = ATTR_EXTRADEFENSE then reading (read 32) i (i.setInt .extraDefense) s
  else if attr = ATTR_IMBUINGSLOTS then reading (read 32) i (i.setInt .imbuingSlots) s
  else if attr = ATTR_ARMOR then reading (read 32) i (i.setInt .armor) s
  else if attr = ATTR_HITCHANCE then
    reading (read 8) i (fun hitChance => i.setInt .hitChance (hitChance.signExtend 32)) s
  else if attr = ATTR_SHOOTRANGE then
    reading (read 8) i (fun shootRange => i.setInt .shootRange (shootRange.setWidth 32)) s
  else if attr = ATTR_SPECIAL then reading readString i (i.setStrAttr .special) s
  else if attr = ATTR_DEPOT_ID then skipping 2 i s
  else if attr = ATTR_HOUSEDOORID then skipping 1 i s
  else if attr = ATTR_SLEEPERGUID then skipping 4 i s
  else if attr = ATTR_SLEEPSTART then skipping 4 i s
  else if attr = ATTR_TELE_DEST then skipping 5 i s
  else (.attrReadError, i, s)

/-- `Item::readAttr` of an object. -/
def readObjectAttr (o : ItemObject) (attr : BitVec 8) (s : PropStream) :
    AttrReadValue × ItemObject × PropStream :=
  let (value, i, s) := w.readItemAttr lookups o.toItem attr s
  (value, { o with toItem := i }, s)

/-- `Teleport::readAttr` of the destination, one coordinate after the other. -/
def readDestination (o : ItemObject) (s : PropStream) :
    AttrReadValue × ItemObject × PropStream :=
  match read 16 s with
  | none => (.attrReadError, o, s)
  | some (x, s) =>
      let o := { o with destX := x }
      match read 16 s with
      | none => (.attrReadError, o, s)
      | some (y, s) =>
          let o := { o with destY := y }
          reading (read 8) o (fun z => { o with destZ := z }) s

/-- What `BedItem::readAttr` does with a sleeper; the map of beds by their sleepers is not
kept here. -/
def setSleeper (o : ItemObject) (guid : BitVec 32) : ItemObject :=
  if guid ≠ 0 ∧ lookups.getNameByGuid guid ≠ [] then
    { o with
      toItem := o.toItem.setStrAttr .description
        (lookups.getNameByGuid guid ++ " is sleeping there.".toUTF8.toList)
      sleeperGUID := guid }
  else o

/-- The virtual `readAttr`. -/
def readAttr (o : ItemObject) (attr : BitVec 8) (s : PropStream) :
    AttrReadValue × ItemObject × PropStream :=
  match o.cls with
  | .container c =>
      if c.kind = .depotLocker then
        if attr = ATTR_DEPOT_ID then reading (read 16) o (fun id => { o with depotId := id }) s
        else w.readObjectAttr lookups o attr s
      else if attr = ATTR_CONTAINER_ITEMS then
        match read 32 s with
        | none => (.attrReadError, o, s)
        | some (n, s) => (.attrReadEnd, { o with serializationCount := n }, s)
      else w.readObjectAttr lookups o attr s
  | .teleport =>
      if attr = ATTR_TELE_DEST then readDestination o s
      else w.readObjectAttr lookups o attr s
  | .door =>
      if attr = ATTR_HOUSEDOORID then
        reading (read 8) o
          (fun id => { o with toItem := o.toItem.setIntAttr .doorId id.toNat }) s
      else w.readObjectAttr lookups o attr s
  | .bed _ =>
      if attr = ATTR_SLEEPERGUID then reading (read 32) o (setSleeper lookups o) s
      else if attr = ATTR_SLEEPSTART then
        reading (read 32) o (fun start => { o with sleepStart := start.setWidth 64 }) s
      else w.readObjectAttr lookups o attr s
  | _ => w.readObjectAttr lookups o attr s

/-! An attribute is taken from the front of the stream. -/

theorem reading_length {α β : Type} {reads : PropStream → Option (α × PropStream)}
    (h : Consumes reads) (o : β) (f : α → β) (s : PropStream) :
    (reading reads o f s).2.2.length ≤ s.length := by
  unfold reading
  split
  · exact le_rfl
  · next v rest here => exact h _ _ _ here

theorem skipping_length {β : Type} (n : Nat) (o : β) (s : PropStream) :
    (skipping n o s).2.2.length ≤ s.length := by
  unfold skipping
  split
  · exact le_rfl
  · next rest here =>
      have len := skip_length here
      show rest.length ≤ s.length
      omega

theorem ite_length {β : Type} {p : Prop} [Decidable p] {r r' : AttrReadValue × β × PropStream}
    {n : Nat} (h : r.2.2.length ≤ n) (h' : r'.2.2.length ≤ n) :
    (if p then r else r').2.2.length ≤ n := by
  split
  · exact h
  · exact h'

theorem readItemAttr_length (i : Item) (attr : BitVec 8) (s : PropStream) :
    (w.readItemAttr lookups i attr s).2.2.length ≤ s.length := by
  have number (n : Nat) (f : BitVec n → Item) := reading_length (read_consumes n) i f s
  have text (f : List UInt8 → Item) := reading_length readString_consumes i f s
  have other (n : Nat) := skipping_length n i s
  unfold readItemAttr
  repeat' apply ite_length
  all_goals first | exact number _ _ | exact text _ | exact other _ | exact le_rfl

theorem readDestination_length (o : ItemObject) (s : PropStream) :
    (readDestination o s).2.2.length ≤ s.length := by
  unfold readDestination
  split
  · exact le_rfl
  · next x s₁ first =>
      have len := read_length first
      simp only
      split
      · show s₁.length ≤ s.length
        omega
      · next y s₂ second =>
          have len' := read_length second
          have last := reading_length (read_consumes 8) { o with destX := x, destY := y }
            (fun z => { o with destX := x, destY := y, destZ := z }) s₂
          omega

theorem readAttr_length (o : ItemObject) (attr : BitVec 8) (s : PropStream) :
    (w.readAttr lookups o attr s).2.2.length ≤ s.length := by
  have base : (w.readObjectAttr lookups o attr s).2.2.length ≤ s.length :=
    w.readItemAttr_length lookups o.toItem attr s
  have number (n : Nat) (f : BitVec n → ItemObject) := reading_length (read_consumes n) o f s
  unfold readAttr
  split
  · split_ifs
    · exact number _ _
    · exact base
    · split
      · exact le_rfl
      · next n rest here =>
          have len := read_length here
          show rest.length ≤ s.length
          omega
    · exact base
  · split_ifs
    · exact readDestination_length o s
    · exact base
  · split_ifs
    · exact number _ _
    · exact base
  · split_ifs
    · exact number _ _
    · exact number _ _
    · exact base
  · exact base

/-- `Item::unserializeAttr`. -/
def unserializeAttr (o : ItemObject) (s : PropStream) : Bool × ItemObject × PropStream :=
  match _first : read 8 s with
  | none => (true, o, s)
  | some (attr, rest) =>
      if attr = 0 then (true, o, rest)
      else
        match _second : w.readAttr lookups o attr rest with
        | (.attrReadError, o', rest') => (false, o', rest')
        | (.attrReadEnd, o', rest') => (true, o', rest')
        | (.attrReadContinue, o', rest') => unserializeAttr o' rest'
termination_by s.length
decreasing_by
  have shorter := read_length _first
  have taken := w.readAttr_length lookups o attr rest
  rw [_second] at taken
  simp only at taken
  omega

end World

end TibServer
