import TibServer.StackPositions
import TibServer.SkipCoding

/-!
A client reads back the map description that the server writes: which tiles exist in the
window, and the bytes of each of them.

The client has its own table of items, from which it knows how many bytes an item takes; it
must look at the items of the map as the server does.
-/

namespace TibServer

open Bytes

namespace NetworkMessage

/-! ### What is appended to a message -/

/-- The function appends the bytes to every message with room for them. -/
def Appends (f : NetworkMessage → NetworkMessage) (bytes : List UInt8) : Prop :=
  ∀ m : NetworkMessage, m.position + bytes.length < MAX_BODY_LENGTH → f m = m.put bytes

theorem store_store (b : Buffer) (pos : Nat) (l l' : List UInt8) :
    store (store b pos l) (pos + l.length) l' = store b pos (l ++ l') := by
  funext i
  rcases Nat.lt_or_ge i (pos + l.length) with hbefore | hafter
  · rw [store_outside _ l' (.inl hbefore), store, store]
    by_cases hpos : pos ≤ i
    · rw [if_pos hpos, if_pos hpos, List.getElem?_append_left (by omega)]
    · rw [if_neg hpos, if_neg hpos]
  · have hold : store b pos l i = b i := store_outside b l (.inr hafter)
    have hindex : i - pos - l.length = i - (pos + l.length) := by omega
    rw [store, if_pos hafter, hold, store, if_pos (by omega),
      List.getElem?_append_right (by omega), hindex]

theorem put_put (m : NetworkMessage) (l l' : List UInt8) :
    (m.put l).put l' = m.put (l ++ l') := by
  simp only [put, store_store, List.length_append, Nat.add_assoc]

theorem put_nil (m : NetworkMessage) : m.put [] = m := by
  have hstore : store m.buffer m.position [] = m.buffer :=
    funext fun i => store_outside _ _ (by simp; omega)
  rw [put, hstore]
  rfl

variable {f g : NetworkMessage → NetworkMessage} {l l' : List UInt8}

theorem Appends.nil : Appends (fun m => m) [] := fun m _ => (put_nil m).symm

theorem Appends.next (hf : Appends f l) (hg : Appends g l') :
    Appends (fun m => g (f m)) (l ++ l') := by
  intro m hm
  rw [List.length_append] at hm
  show g (f m) = _
  rw [hf m (by omega), hg (m.put l) (by show m.position + l.length + l'.length < _; omega), put_put]

theorem Appends.ite (c : Prop) [Decidable c] (hf : Appends f l) (hg : Appends g l') :
    Appends (fun m => if c then f m else g m) (if c then l else l') := by
  by_cases h : c
  · simpa only [if_pos h] using hf
  · simpa only [if_neg h] using hg

theorem addByte_appends (value : UInt8) : Appends (fun m => m.addByte value) [value] := by
  intro m hm
  have hroom : m.canAdd 1 = true := decide_eq_true (by simp at hm; omega)
  show m.addByte value = _
  rw [addByte, if_pos hroom]

theorem add_appends (size value : Nat) : Appends (fun m => m.add size value) (toLE size value) := by
  intro m hm
  rw [toLE_length] at hm
  have hroom : m.canAdd size = true := decide_eq_true (by omega)
  show m.add size value = _
  rw [add, if_pos hroom]

theorem addString_appends {value : List UInt8} (h : value.length ≤ 8192) :
    Appends (fun m => m.addString value) (toLE 2 value.length ++ value) := by
  intro m hm
  rw [List.length_append, toLE_length] at hm
  have hroom : m.canAdd (value.length + 2) = true := decide_eq_true (by omega)
  have hshort : ¬(value.length > 8192) := by omega
  have hlength := add_appends 2 value.length m (by rw [toLE_length]; omega)
  show m.addString value = _
  rw [addString, show m.add 2 value.length = _ from hlength, put_put]
  simp [hroom, hshort]

theorem Appends.byte (hf : Appends f l) (value : UInt8) :
    Appends (fun m => (f m).addByte value) (l ++ [value]) := hf.next (addByte_appends value)

theorem Appends.number (hf : Appends f l) (size value : Nat) :
    Appends (fun m => (f m).add size value) (l ++ toLE size value) :=
  hf.next (add_appends size value)

/-- What is appended only where a condition holds. -/
theorem Appends.when (hf : Appends f l) (c : Prop) [Decidable c] (hg : Appends g l') :
    Appends (fun m => if c then g (f m) else f m) (l ++ if c then l' else []) := by
  by_cases h : c
  · simpa only [if_pos h] using hf.next hg
  · simpa only [if_neg h, List.append_nil] using hf

end NetworkMessage

/-! ### The bytes of a thing -/

open NetworkMessage

def itemBytes (w : World) (i : ItemRef) : List UInt8 :=
  toLE 2 (w.typeOf i).clientId ++ [0xFF] ++
    (if (w.typeOf i).stackable = true then [UInt8.ofNat (min 0xFF (w.getItemCount i))]
     else if ((w.typeOf i).isSplash || (w.typeOf i).isFluidContainer) = true then
       [fluidMap.getD (BitVec.ofInt 16 ((w.item i).getIntAttr .fluidType) &&& 7).toNat 0]
     else []) ++
    if (w.typeOf i).isAnimation = true then [0xFE] else []

theorem addItem_appends (w : World) (i : ItemRef) :
    Appends (fun m => m.addItem w i) (itemBytes w i) := by
  have hcount := ((add_appends 2 (w.typeOf i).clientId).byte 0xFF).next (Appends.ite
    ((w.typeOf i).stackable = true)
    (addByte_appends (UInt8.ofNat (min 0xFF (w.getItemCount i))))
    (Appends.nil.when (((w.typeOf i).isSplash || (w.typeOf i).isFluidContainer) = true)
      (addByte_appends (fluidMap.getD
        (BitVec.ofInt 16 ((w.item i).getIntAttr .fluidType) &&& 7).toNat 0))))
  exact hcount.when ((w.typeOf i).isAnimation = true) (addByte_appends 0xFE)

def outfitBytes (w : World) (outfit : Outfit) : List UInt8 :=
  toLE 2 outfit.lookType.toNat ++
    (if outfit.lookType ≠ 0 then
      [⟨outfit.lookHead⟩] ++ [⟨outfit.lookBody⟩] ++ [⟨outfit.lookLegs⟩] ++ [⟨outfit.lookFeet⟩] ++
        [⟨outfit.lookAddons⟩]
     else toLE 2 (w.items.type outfit.lookTypeEx.toNat).clientId) ++
    toLE 2 outfit.lookMount.toNat

theorem AddOutfit_appends (w : World) (outfit : Outfit) :
    Appends (fun m => AddOutfit w m outfit) (outfitBytes w outfit) := by
  have hlook := (add_appends 2 outfit.lookType.toNat).next (Appends.ite (outfit.lookType ≠ 0)
    (((((addByte_appends ⟨outfit.lookHead⟩).byte ⟨outfit.lookBody⟩).byte ⟨outfit.lookLegs⟩).byte
      ⟨outfit.lookFeet⟩).byte ⟨outfit.lookAddons⟩)
    (add_appends 2 (w.items.type outfit.lookTypeEx.toNat).clientId))
  exact hlook.number 2 outfit.lookMount.toNat

namespace ClientView

variable (view : ClientView)

def masterBytes (look : CreatureLook) (creatureType : UInt8) : List UInt8 :=
  if creatureType = CREATURETYPE_SUMMONPLAYER then
    (look.master.map fun master => toLE 4 master.1.toNat).getD []
  else []

theorem addMaster_appends (look : CreatureLook) (creatureType : UInt8) :
    Appends (fun m => addMaster look creatureType m) (masterBytes look creatureType) := by
  rw [masterBytes]
  simp only [addMaster]
  by_cases hsummon : creatureType = CREATURETYPE_SUMMONPLAYER
  · simp only [if_pos hsummon]
    cases look.master with
    | none => exact Appends.nil
    | some master => exact add_appends 4 master.1.toNat
  · simp only [if_neg hsummon]
    exact Appends.nil

/-- The type with which a summon is told from other monsters. -/
def summonType (look : CreatureLook) : UInt8 :=
  if look.type = .monster ∧ (look.master.map Prod.snd).getD false = true then
    CREATURETYPE_SUMMONPLAYER
  else look.type.toByte

def creatureBytes (w : World) (c : CreatureId) (known : Bool) (remove : BitVec 32) :
    List UInt8 :=
  let look := view.look c
  (if known = true then toLE 2 0x62 ++ toLE 4 look.id.toNat
   else toLE 2 0x61 ++ toLE 4 remove.toNat ++ toLE 4 look.id.toNat ++ [look.type.toByte] ++
     masterBytes look look.type.toByte ++ (toLE 2 look.name.length ++ look.name)) ++
    [if look.isHealthHidden then 0 else look.health] ++ [look.direction] ++
    outfitBytes w (if !look.isInGhostMode && !look.isInvisible then look.currentOutfit else {}) ++
    [if view.isAccessPlayer then 0xFF else look.lightLevel] ++ [look.lightColor] ++
    toLE 2 (look.stepSpeed / 2) ++ [look.skullClient] ++ [look.partyShield] ++
    (if (!known) = true then [look.guildEmblem] else []) ++ [summonType look] ++
    masterBytes look (summonType look) ++ [look.speechBubble] ++ [0xFF] ++
    (if view.version ≥ 1110 then [0] else []) ++
    toLE 2 (if look.type = .player then look.helpers else 0) ++
    [if look.canWalkthroughEx then 0 else 1]

theorem AddCreature_appends (w : World) (c : CreatureId) (known : Bool) (remove : BitVec 32)
    (hname : (view.look c).name.length ≤ 8192) :
    Appends (fun m => view.AddCreature w m c known remove)
      (view.creatureBytes w c known remove) := by
  have hhead := Appends.ite (known = true)
    ((add_appends 2 0x62).number 4 (view.look c).id.toNat)
    ((((((add_appends 2 0x61).number 4 remove.toNat).number 4 (view.look c).id.toNat).byte
      (view.look c).type.toByte).next
        (addMaster_appends (view.look c) (view.look c).type.toByte)).next
          (addString_appends hname))
  have hlook := (((((((((hhead.byte (if (view.look c).isHealthHidden then 0
    else (view.look c).health)).byte (view.look c).direction).next
      (AddOutfit_appends w (if !(view.look c).isInGhostMode && !(view.look c).isInvisible then
        (view.look c).currentOutfit else {}))).byte
          (if view.isAccessPlayer then 0xFF else (view.look c).lightLevel)).byte
            (view.look c).lightColor).number 2 ((view.look c).stepSpeed / 2)).byte
              (view.look c).skullClient).byte (view.look c).partyShield).when ((!known) = true)
                (addByte_appends (view.look c).guildEmblem))
  have htype := ((hlook.byte (summonType (view.look c))).next
    (addMaster_appends (view.look c) (summonType (view.look c)))).byte (view.look c).speechBubble
  exact (((htype.byte 0xFF).when (view.version ≥ 1110) (addByte_appends 0)).number 2
    (if (view.look c).type = .player then (view.look c).helpers else 0)).byte
      (if (view.look c).canWalkthroughEx then 0 else 1)

end ClientView

/-! ### The client -/

/-- What a client knows of an item: whether a count or a fluid follows, and whether a phase
does. -/
structure ClientItem where
  counted : Bool
  animated : Bool
  deriving DecidableEq, Repr

structure Client where
  items : Nat → ClientItem
  version : Nat

namespace Client

variable (client : Client)

def readBytes (n : Nat) (bytes : List UInt8) : Option (List UInt8) :=
  if n ≤ bytes.length then some (bytes.drop n) else none

def peekWord (bytes : List UInt8) : Option Nat :=
  if 2 ≤ bytes.length then some (ofLE (bytes.take 2)) else none

def readString (bytes : List UInt8) : Option (List UInt8) := do
  let length ← peekWord bytes
  let bytes ← readBytes 2 bytes
  readBytes length bytes

/-- The type of a creature, with its master behind it if it is a summon. -/
def readType : List UInt8 → Option (List UInt8)
  | [] => none
  | creatureType :: bytes =>
      if creatureType = CREATURETYPE_SUMMONPLAYER then readBytes 4 bytes else some bytes

def readOutfit (bytes : List UInt8) : Option (List UInt8) := do
  let lookType ← peekWord bytes
  let bytes ← readBytes 2 bytes
  let bytes ← readBytes (if lookType ≠ 0 then 5 else 2) bytes
  readBytes 2 bytes

def readItem (bytes : List UInt8) : Option (List UInt8) := do
  let id ← peekWord bytes
  let bytes ← readBytes 3 bytes
  let bytes ← readBytes (if (client.items id).counted then 1 else 0) bytes
  readBytes (if (client.items id).animated then 1 else 0) bytes

def readCreature (known : Bool) (bytes : List UInt8) : Option (List UInt8) := do
  let bytes ← readBytes 2 bytes
  let bytes ←
    if known then readBytes 4 bytes
    else do
      let bytes ← readBytes 8 bytes
      let bytes ← readType bytes
      readString bytes
  let bytes ← readBytes 2 bytes
  let bytes ← readOutfit bytes
  let bytes ← readBytes 6 bytes
  let bytes ← readBytes (if known then 0 else 1) bytes
  let bytes ← readType bytes
  let bytes ← readBytes (if client.version ≥ 1110 then 3 else 2) bytes
  readBytes 3 bytes

def readThing (bytes : List UInt8) : Option (List UInt8) := do
  let word ← peekWord bytes
  if word = 0x61 then client.readCreature false bytes
  else if word = 0x62 then client.readCreature true bytes
  else client.readItem bytes

/-- The things of a tile, up to a word that is none. -/
def readThings : Nat → List UInt8 → Option (List UInt8)
  | 0, _ => none
  | n + 1, bytes => do
      let word ← peekWord bytes
      if word ≥ 0xFF00 then some bytes
      else do
        let bytes ← client.readThing bytes
        readThings n bytes

/-- A tile with the word behind it, or the word alone. -/
def readTile : SkipCoding.BlockReader := fun bytes => do
  let word ← peekWord bytes
  if word ≥ 0xFF00 then some (none, word - 0xFF00, bytes.drop 2)
  else do
    let rest ← readBytes 2 bytes
    let rest ← client.readThings bytes.length rest
    let word ← peekWord rest
    some (some (bytes.take (bytes.length - rest.length)), word - 0xFF00, rest.drop 2)

/-- The cells of a map description. -/
def readMap (cells : Nat) (bytes : List UInt8) :
    Option (List SkipCoding.Cell × List UInt8) := SkipCoding.decode client.readTile cells 0 bytes

/-- The client looks at the items of the map as the server does. Their ids are no marks, and
not those of creatures. -/
structure Knows (client : Client) (w : World) (view : ClientView) : Prop where
  version : client.version = view.version
  items : ∀ pos t, w.tile pos = some t → ∀ i ∈ t.ground.toList ++ t.itemList,
    client.items (w.typeOf i).clientId =
      { counted := (w.typeOf i).stackable || ((w.typeOf i).isSplash ||
          (w.typeOf i).isFluidContainer)
        animated := (w.typeOf i).isAnimation }
  ids : ∀ pos t, w.tile pos = some t → ∀ i ∈ t.ground.toList ++ t.itemList,
    (w.typeOf i).clientId < 0xFF00 ∧ (w.typeOf i).clientId ≠ 0x61 ∧
      (w.typeOf i).clientId ≠ 0x62

/-! ### Reading what was written -/

theorem readBytes_append {n : Nat} {l : List UInt8} (h : l.length = n) (rest : List UInt8) :
    readBytes n (l ++ rest) = some rest := by
  rw [readBytes, if_pos (by rw [List.length_append]; omega), List.drop_left' h]

@[simp] theorem readBytes_zero (bytes : List UInt8) : readBytes 0 bytes = some bytes := rfl

@[simp] theorem readBytes_succ (n : Nat) (byte : UInt8) (bytes : List UInt8) :
    readBytes (n + 1) (byte :: bytes) = readBytes n bytes := by
  simp [readBytes]

theorem peekWord_append (n : Nat) (rest : List UInt8) :
    peekWord (toLE 2 n ++ rest) = some (n % 65536) := by
  rw [peekWord, if_pos (by simp), List.take_left' (toLE_length 2 n), ofLE_toLE]
  norm_num

theorem peekWord_mark (count : UInt8) (rest : List UInt8) :
    peekWord (count :: 0xFF :: rest) = some (0xFF00 + count.toNat) := by
  rw [peekWord, if_pos (by simp)]
  simp [ofLE]
  omega

theorem readString_append {value : List UInt8} (h : value.length ≤ 8192) (rest : List UInt8) :
    readString (toLE 2 value.length ++ value ++ rest) = some rest := by
  rw [readString, List.append_assoc, peekWord_append, Nat.mod_eq_of_lt (by omega)]
  simp only [bind, Option.bind_some]
  rw [readBytes_append (toLE_length 2 _)]
  exact readBytes_append rfl rest

theorem readType_append {look : CreatureLook} {creatureType : UInt8}
    (h : creatureType = CREATURETYPE_SUMMONPLAYER → look.master.isSome = true)
    (rest : List UInt8) :
    readType ([creatureType] ++ ClientView.masterBytes look creatureType ++ rest) = some rest := by
  rw [ClientView.masterBytes, List.append_assoc, List.singleton_append, readType]
  by_cases hsummon : creatureType = CREATURETYPE_SUMMONPLAYER
  · obtain ⟨master, hmaster⟩ := Option.isSome_iff_exists.mp (h hsummon)
    rw [if_pos hsummon, if_pos hsummon, hmaster]
    exact readBytes_append (toLE_length 4 _) rest
  · rw [if_neg hsummon, if_neg hsummon]
    rfl

theorem readOutfit_append (w : World) (outfit : Outfit) (rest : List UInt8) :
    readOutfit (outfitBytes w outfit ++ rest) = some rest := by
  have hlook : outfit.lookType.toNat % 65536 = outfit.lookType.toNat :=
    Nat.mod_eq_of_lt outfit.lookType.isLt
  have hzero : outfit.lookType.toNat ≠ 0 ↔ outfit.lookType ≠ 0 := by
    rw [ne_eq, ne_eq, ← BitVec.toNat_inj]
    rfl
  rw [readOutfit, outfitBytes]
  simp only [List.append_assoc, peekWord_append, hlook, hzero, bind, Option.bind_some]
  rw [readBytes_append (toLE_length 2 _)]
  by_cases htype : outfit.lookType ≠ 0
  · have hparts := readBytes_append (n := 5) (l := [⟨outfit.lookHead⟩] ++ [⟨outfit.lookBody⟩] ++
      [⟨outfit.lookLegs⟩] ++ [⟨outfit.lookFeet⟩] ++ [⟨outfit.lookAddons⟩]) rfl
      (toLE 2 outfit.lookMount.toNat ++ rest)
    simp only [List.append_assoc] at hparts
    simp only [if_pos htype, List.append_assoc, hparts, Option.bind_some]
    exact readBytes_append (toLE_length 2 _) rest
  · simp only [if_neg htype, Option.bind_some]
    rw [readBytes_append (toLE_length 2 _)]
    exact readBytes_append (toLE_length 2 _) rest

/-- An item in its place is read, and what it begins with is no mark. -/
theorem readThing_item {w : World} {view : ClientView} (hclient : client.Knows w view)
    {pos : Position} {t : Tile} (ht : w.tile pos = some t) {i : ItemRef}
    (hi : i ∈ t.ground.toList ++ t.itemList) (rest : List UInt8) :
    client.readThing (itemBytes w i ++ rest) = some rest ∧
      ∃ word < 0xFF00, peekWord (itemBytes w i ++ rest) = some word := by
  obtain ⟨hmark, hunknown, hknown⟩ := hclient.ids pos t ht i hi
  have hid : (w.typeOf i).clientId % 65536 = (w.typeOf i).clientId :=
    Nat.mod_eq_of_lt (by omega)
  have hword : ∀ l, peekWord (toLE 2 (w.typeOf i).clientId ++ l) = some (w.typeOf i).clientId :=
    fun l => by rw [peekWord_append, hid]
  refine ⟨?_, (w.typeOf i).clientId, hmark, by simp only [itemBytes, List.append_assoc, hword]⟩
  have hhead : ∀ l, readBytes 3 (toLE 2 (w.typeOf i).clientId ++ ([0xFF] ++ l)) = some l := by
    intro l
    rw [← List.append_assoc]
    exact readBytes_append (by rw [List.length_append, toLE_length]; rfl) l
  simp only [readThing, readItem, itemBytes, List.append_assoc, hword, hhead, bind,
    Option.bind_some, if_neg hunknown, if_neg hknown, hclient.items pos t ht i hi]
  have hcount : ∀ (a b : UInt8) (l : List UInt8),
      readBytes (if ((w.typeOf i).stackable ||
          ((w.typeOf i).isSplash || (w.typeOf i).isFluidContainer)) = true then 1 else 0)
        ((if (w.typeOf i).stackable = true then [a]
          else if ((w.typeOf i).isSplash || (w.typeOf i).isFluidContainer) = true then [b]
          else []) ++ l) = some l := by
    intro a b l
    cases (w.typeOf i).stackable <;>
      cases ((w.typeOf i).isSplash || (w.typeOf i).isFluidContainer) <;> simp
  rw [hcount, Option.bind_some]
  cases (w.typeOf i).isAnimation <;> simp

theorem summonType_master (look : CreatureLook)
    (h : ClientView.summonType look = CREATURETYPE_SUMMONPLAYER) : look.master.isSome = true := by
  rw [ClientView.summonType] at h
  split at h
  case isTrue hmaster =>
    cases hlook : look.master with
    | none => exact absurd hmaster.2 (by simp [hlook])
    | some master => rfl
  case isFalse => cases htype : look.type <;> rw [htype] at h <;> exact absurd h (by decide)

theorem type_not_summon (type : CreatureType) : type.toByte ≠ CREATURETYPE_SUMMONPLAYER := by
  cases type <;> decide

/-- A creature is read. -/
theorem readThing_creature {w : World} {view : ClientView} (hclient : client.Knows w view)
    {c : CreatureId} (hname : (view.look c).name.length ≤ 8192) (known : Bool)
    (remove : BitVec 32) (rest : List UInt8) :
    client.readThing (view.creatureBytes w c known remove ++ rest) = some rest ∧
      ∃ word < 0xFF00, peekWord (view.creatureBytes w c known remove ++ rest) = some word := by
  have hfirst : ∀ l, readType ([(view.look c).type.toByte] ++
      (ClientView.masterBytes (view.look c) (view.look c).type.toByte ++ l)) = some l := by
    intro l
    rw [← List.append_assoc]
    exact readType_append (fun h => absurd h (type_not_summon _)) l
  have hsecond : ∀ l, readType ([ClientView.summonType (view.look c)] ++
      (ClientView.masterBytes (view.look c) (ClientView.summonType (view.look c)) ++ l)) =
        some l := by
    intro l
    rw [← List.append_assoc]
    exact readType_append (summonType_master _) l
  have hname : ∀ l, readString (toLE 2 (view.look c).name.length ++ ((view.look c).name ++ l)) =
      some l := by
    intro l
    rw [← List.append_assoc]
    exact readString_append hname l
  have htail : ∀ l, readBytes (if view.version ≥ 1110 then 3 else 2)
      ([(view.look c).speechBubble] ++ ([0xFF] ++
        ((if view.version ≥ 1110 then [0] else []) ++ l))) = some l := by
    intro l
    by_cases h : view.version ≥ 1110
    · simp [h]
    · simp [h]
  have hlight : ∀ (a b d e : UInt8) (n : Nat) (l : List UInt8),
      readBytes 6 ([a] ++ ([b] ++ (toLE 2 n ++ ([d] ++ ([e] ++ l))))) = some l := by
    intro a b d e n l
    simp [toLE]
  have hlast : ∀ (n : Nat) (a : UInt8) (l : List UInt8),
      readBytes 3 (toLE 2 n ++ ([a] ++ l)) = some l := by
    intro n a l
    simp [toLE]
  have hids : ∀ (a b : Nat) (l : List UInt8), readBytes 8 (toLE 4 a ++ (toLE 4 b ++ l)) = some l := by
    intro a b l
    simp [toLE]
  have hone : ∀ (a : UInt8) (l : List UInt8), readBytes 1 ([a] ++ l) = some l := by
    intro a l
    simp
  have hpair : ∀ (a b : UInt8) (l : List UInt8), readBytes 2 ([a] ++ ([b] ++ l)) = some l := by
    intro a b l
    simp
  have hword : ∀ (n : Nat) (l : List UInt8), readBytes 2 (toLE 2 n ++ l) = some l :=
    fun n l => readBytes_append (toLE_length 2 n) l
  have hid : ∀ (n : Nat) (l : List UInt8), readBytes 4 (toLE 4 n ++ l) = some l :=
    fun n l => readBytes_append (toLE_length 4 n) l
  cases known with
  | true =>
      refine ⟨?_, 0x62, by decide, ?_⟩
      · simp only [readThing, readCreature, ClientView.creatureBytes, if_true, List.append_assoc,
          peekWord_append, bind, Option.bind_some, hword, hid, hpair, readOutfit_append, hlight,
          hclient.version, Nat.reduceMod, Nat.reduceEqDiff, if_false, Bool.not_true,
          Bool.false_eq_true, List.nil_append, readBytes_zero, hsecond, htail, hlast]
      · simp only [ClientView.creatureBytes, if_true, List.append_assoc, peekWord_append]
  | false =>
      refine ⟨?_, 0x61, by decide, ?_⟩
      · simp only [readThing, readCreature, ClientView.creatureBytes, Bool.false_eq_true, if_false,
          List.append_assoc, peekWord_append, bind, Option.bind_some, hword, hids, hpair, hfirst,
          hname, readOutfit_append, hlight, hclient.version, Nat.reduceMod, if_true,
          Bool.not_false, hone, hsecond, htail, hlast]
      · simp only [ClientView.creatureBytes, Bool.false_eq_true, if_false, List.append_assoc,
          peekWord_append]

end Client

/-! ### The bytes of a tile -/

namespace ClientView

variable (view : ClientView)

def thingBytes (w : World) : WrittenThing → List UInt8
  | .item i => itemBytes w i
  | .creature c known remove => view.creatureBytes w c known remove

/-- What `GetTileDescription` writes. -/
def tileBytes (w : World) (st : KnownState) (pos : Position) (t : Tile) : List UInt8 :=
  toLE 2 0 ++ (view.describe st pos t).1.flatMap (view.thingBytes w)

variable {view}

theorem addThing_appends (w : World) (hnames : ∀ c, (view.look c).name.length ≤ 8192)
    (thing : WrittenThing) :
    Appends (fun m => view.addThing w m thing) (view.thingBytes w thing) := by
  cases thing with
  | item i => exact addItem_appends w i
  | creature c known remove => exact view.AddCreature_appends w c known remove (hnames c)

theorem addThings_appends (w : World) (hnames : ∀ c, (view.look c).name.length ≤ 8192)
    (things : List WrittenThing) :
    Appends (fun m => things.foldl (view.addThing w) m) (things.flatMap (view.thingBytes w)) := by
  induction things with
  | nil => exact Appends.nil
  | cons thing things ih => exact (addThing_appends w hnames thing).next ih

theorem GetTileDescription_appends (w : World)
    (hnames : ∀ c, (view.look c).name.length ≤ 8192) (st : KnownState) (pos : Position)
    (t : Tile) :
    Appends (fun m => (view.GetTileDescription w st pos t m).1) (view.tileBytes w st pos t) :=
  (add_appends 2 0).next (addThings_appends w hnames (view.describe st pos t).1)

/-! The items that are described lie on the tile. -/

theorem mem_writeItems {i : ItemRef} {count : Nat} {l : List ItemRef}
    (h : WrittenThing.item i ∈ (writeItems count l).1) : i ∈ l := by
  induction l generalizing count with
  | nil => exact absurd h List.not_mem_nil
  | cons o rest ih =>
      rw [writeItems] at h
      split at h
      case isTrue =>
        rw [List.mem_singleton] at h
        exact WrittenThing.item.inj h ▸ List.mem_cons_self
      case isFalse =>
        rcases List.mem_cons.mp h with h | h
        · exact WrittenThing.item.inj h ▸ List.mem_cons_self
        · exact List.mem_cons_of_mem _ (ih h)

theorem item_notMem_writeCreatures (i : ItemRef) (spawning : Bool) (st : KnownState)
    (playerSpawned : Bool) (count : Nat) (l : List CreatureId) :
    WrittenThing.item i ∉ (view.writeCreatures spawning st playerSpawned count l).1 := by
  induction l generalizing st playerSpawned count with
  | nil => exact List.not_mem_nil
  | cons c rest ih =>
      rw [writeCreatures]
      have hthing : ∀ (st : KnownState) (c : CreatureId),
          WrittenThing.item i ≠ (view.introduce st c).1 := fun _ _ => WrittenThing.noConfusion
      split
      case isTrue => exact ih st playerSpawned count
      case isFalse =>
        dsimp only
        by_cases hspawn : spawning = true ∧ count = 8 ∧ (playerSpawned || c == view.player) = false
        · simp only [if_pos hspawn]
          split
          case isTrue => simp [hthing]
          case isFalse => simp [hthing, ih]
        · simp only [if_neg hspawn]
          split
          case isTrue => simp [hthing]
          case isFalse => simp [hthing, ih]

theorem mem_describe {i : ItemRef} {st : KnownState} {pos : Position} {t : Tile}
    (h : WrittenThing.item i ∈ (view.describe st pos t).1) :
    i ∈ t.ground.toList ++ t.itemList := by
  have hground : WrittenThing.item i ∈ t.ground.toList.map WrittenThing.item →
      i ∈ t.ground.toList ++ t.itemList := by
    intro hmem
    obtain ⟨o, ho, hsame⟩ := List.mem_map.mp hmem
    exact List.mem_append_left _ (WrittenThing.item.inj hsame ▸ ho)
  have htop : WrittenThing.item i ∈ (writeItems (t.ground.toList.map WrittenThing.item).length
      t.topItems).1 → i ∈ t.ground.toList ++ t.itemList :=
    fun hmem => List.mem_append_right _ (List.mem_of_mem_drop (mem_writeItems hmem))
  rw [describe] at h
  generalize writeItems (t.ground.toList.map WrittenThing.item).length t.topItems = top at h htop
  obtain ⟨top, _ | count⟩ := top
  · exact (List.mem_append.mp h).elim hground htop
  · have hcreatures := @item_notMem_writeCreatures view i
      (!view.loggedIn && pos == view.position) st false count t.creatures.reverse
    simp only at h
    generalize view.writeCreatures (!view.loggedIn && pos == view.position) st false count
      t.creatures.reverse = creatures at h hcreatures
    obtain ⟨creatures, _ | count', st'⟩ := creatures
    · rcases List.mem_append.mp h with h | h
      · exact (List.mem_append.mp h).elim hground htop
      · exact absurd h hcreatures
    · rcases List.mem_append.mp h with h | h
      · rcases List.mem_append.mp h with h | h
        · exact (List.mem_append.mp h).elim hground htop
        · exact absurd h hcreatures
      · exact List.mem_append_right _ (List.mem_of_mem_take (mem_writeItems h))

end ClientView

/-! ### Reading a tile -/

namespace Client

variable {client : Client} {w : World} {view : ClientView}

/-- A client reads the things of a tile up to the mark. -/
theorem readThings_append (hclient : client.Knows w view)
    (hnames : ∀ c, (view.look c).name.length ≤ 8192) {pos : Position} {t : Tile}
    (ht : w.tile pos = some t) {things : List WrittenThing}
    (hthings : ∀ i, WrittenThing.item i ∈ things → i ∈ t.ground.toList ++ t.itemList)
    (count : UInt8) (rest : List UInt8) {fuel : Nat} (hfuel : things.length < fuel) :
    client.readThings fuel (things.flatMap (view.thingBytes w) ++ count :: 0xFF :: rest) =
      some (count :: 0xFF :: rest) := by
  induction things generalizing fuel with
  | nil =>
      obtain ⟨fuel, rfl⟩ := Nat.exists_eq_add_of_lt hfuel
      rw [List.flatMap_nil, List.nil_append, readThings]
      simp only [peekWord_mark, bind, Option.bind_some]
      rw [if_pos (by omega)]
  | cons thing things ih =>
      obtain ⟨fuel, rfl⟩ : ∃ n, fuel = n + 1 := ⟨fuel - 1, by omega⟩
      have hread : client.readThing (view.thingBytes w thing ++
          (things.flatMap (view.thingBytes w) ++ count :: 0xFF :: rest)) =
            some (things.flatMap (view.thingBytes w) ++ count :: 0xFF :: rest) ∧
          ∃ word < 0xFF00, peekWord (view.thingBytes w thing ++
            (things.flatMap (view.thingBytes w) ++ count :: 0xFF :: rest)) = some word := by
        cases thing with
        | item i => exact client.readThing_item hclient ht (hthings i List.mem_cons_self) _
        | creature c known remove => exact client.readThing_creature hclient (hnames c) known remove _
      obtain ⟨hthing, word, hword, hpeek⟩ := hread
      rw [List.flatMap_cons, List.append_assoc, readThings]
      simp only [hpeek, hthing, bind, Option.bind_some]
      rw [if_neg (by omega)]
      exact ih (fun i hi => hthings i (List.mem_cons_of_mem _ hi)) (by
        rw [List.length_cons] at hfuel
        omega)

theorem length_things (things : List WrittenThing) :
    things.length ≤ (things.flatMap (view.thingBytes w)).length := by
  induction things with
  | nil => exact Nat.le_refl _
  | cons thing things ih =>
      have hthing : 0 < (view.thingBytes w thing).length := by
        cases thing with
        | item i => simp [ClientView.thingBytes, itemBytes]
        | creature c known remove => simp [ClientView.thingBytes, ClientView.creatureBytes]
      rw [List.flatMap_cons, List.length_append, List.length_cons]
      omega

/-- A client reads a tile with the mark behind it. -/
theorem readTile_append (hclient : client.Knows w view)
    (hnames : ∀ c, (view.look c).name.length ≤ 8192) (st : KnownState) {pos : Position}
    {t : Tile} (ht : w.tile pos = some t) (count : UInt8) (rest : List UInt8) :
    client.readTile (view.tileBytes w st pos t ++ count :: 0xFF :: rest) =
      some (some (view.tileBytes w st pos t), count.toNat, rest) := by
  have hthings := fun fuel => @readThings_append client w view hclient hnames pos t ht
    (view.describe st pos t).1 (fun _ => ClientView.mem_describe) count rest fuel
  have hlength : (view.describe st pos t).1.length ≤ _ :=
    @length_things w view (view.describe st pos t).1
  rw [readTile, ClientView.tileBytes, List.append_assoc, peekWord_append]
  simp only [bind, Option.bind_some]
  rw [if_neg (by decide), readBytes_append (toLE_length 2 0)]
  simp only [Option.bind_some]
  rw [hthings _ (by simp only [List.length_append, toLE_length, List.length_cons]; omega)]
  simp only [Option.bind_some, peekWord_mark]
  have htake : ∀ l : List UInt8, ((toLE 2 0 ++ (l ++ count :: 0xFF :: rest)).take
      ((toLE 2 0 ++ (l ++ count :: 0xFF :: rest)).length - (count :: 0xFF :: rest).length)) =
        toLE 2 0 ++ l := by
    intro l
    rw [← List.append_assoc, List.length_append, Nat.add_sub_cancel, List.take_left']
    rfl
  rw [htake, Nat.add_sub_cancel_left]
  rfl

end Client

/-! ### The whole description -/

namespace MapWriter

variable (w : World) (view : ClientView)

/-- The places of a window in the order of the description, the floors shifted against that of
the player. -/
def window (x y z width height : Int) : List (Int × Int × Int) :=
  (floors z).flatMap fun nz => (List.range width.toNat).flatMap fun nx =>
    (List.range height.toNat).map fun ny =>
      (x + (nx : Int) + (z - nz), y + (ny : Int) + (z - nz), nz)

/-- Which tiles exist at some places, with what `GetTileDescription` writes for each. -/
def describeCells : KnownState → List (Int × Int × Int) → List SkipCoding.Cell × KnownState
  | st, [] => ([], st)
  | st, (x, y, z) :: places =>
      match w.getMapTile x y z with
      | none => (none :: (describeCells st places).1, (describeCells st places).2)
      | some (pos, t) =>
          (some (view.tileBytes w st pos t) ::
              (describeCells (view.describe st pos t).2 places).1,
            (describeCells (view.describe st pos t).2 places).2)

variable {w view}

theorem addMark (m : NetworkMessage) (count : Int)
    (hfit : m.position + 2 < NetworkMessage.MAX_BODY_LENGTH) :
    (m.addByte (UInt8.ofNat count.toNat)).addByte 0xFF = m.put (SkipCoding.mark count) :=
  ((addByte_appends (UInt8.ofNat count.toNat)).byte 0xFF) m hfit

theorem put_position (m : NetworkMessage) (l : List UInt8) :
    (m.put l).position = m.position + l.length := rfl

/-- One place writes its cell. -/
theorem visit_eq (hnames : ∀ c, (view.look c).name.length ≤ 8192) (s : MapWriter)
    (x y z : Int) {cell : SkipCoding.Cell} {st : KnownState}
    (hcell : describeCells w view s.known [(x, y, z)] = ([cell], st))
    (hfit : s.msg.position + (SkipCoding.write s.skip cell).1.length <
      NetworkMessage.MAX_BODY_LENGTH) :
    visit w view s x y z =
      { msg := s.msg.put (SkipCoding.write s.skip cell).1
        known := st
        skip := (SkipCoding.write s.skip cell).2 } := by
  rw [describeCells] at hcell
  rw [visit]
  cases htile : w.getMapTile x y z with
  | none =>
      simp only [htile, describeCells, Prod.mk.injEq, List.cons.injEq, and_true] at hcell
      obtain ⟨rfl, rfl⟩ := hcell
      rw [SkipCoding.write] at hfit ⊢
      by_cases hfull : s.skip = 0xFE
      · rw [if_pos hfull] at hfit
        simp only [if_pos hfull]
        rw [← addMark s.msg 0xFF hfit]
        rfl
      · simp only [if_neg hfull, put_nil]
  | some placed =>
      obtain ⟨pos, t⟩ := placed
      simp only [htile, describeCells, Prod.mk.injEq, List.cons.injEq, and_true] at hcell
      obtain ⟨rfl, rfl⟩ := hcell
      rw [SkipCoding.write, List.length_append] at hfit
      have hdescription := ClientView.GetTileDescription_appends w hnames s.known pos t
      have hflush : (if s.skip ≥ 0 then (s.msg.addByte (UInt8.ofNat s.skip.toNat)).addByte 0xFF
          else s.msg) = s.msg.put (SkipCoding.flush s.skip) := by
        rw [SkipCoding.flush] at hfit ⊢
        by_cases hskip : s.skip ≥ 0
        · rw [if_pos hskip] at hfit
          rw [if_pos hskip, if_pos hskip]
          exact addMark s.msg s.skip (by
            have : (SkipCoding.mark s.skip).length = 2 := rfl
            omega)
        · rw [if_neg hskip, if_neg hskip, put_nil]
      have hput := hdescription (s.msg.put (SkipCoding.flush s.skip)) (by
        rw [put_position]
        omega)
      show MapWriter.mk (view.GetTileDescription w s.known pos t (ite _ _ _)).1 _ _ = _
      rw [hflush, show (view.GetTileDescription w s.known pos t _).1 = _ from hput, put_put]
      rfl

/-- A run over some places writes the row of their cells. -/
theorem visits_eq (hnames : ∀ c, (view.look c).name.length ≤ 8192)
    (places : List (Int × Int × Int)) (s : MapWriter)
    (hfit : s.msg.position +
      (SkipCoding.writeRow s.skip (describeCells w view s.known places).1).1.length <
        NetworkMessage.MAX_BODY_LENGTH) :
    places.foldl (fun s place => visit w view s place.1 place.2.1 place.2.2) s =
      { msg := s.msg.put
          (SkipCoding.writeRow s.skip (describeCells w view s.known places).1).1
        known := (describeCells w view s.known places).2
        skip := (SkipCoding.writeRow s.skip (describeCells w view s.known places).1).2 } := by
  induction places generalizing s with
  | nil =>
      show s = { msg := s.msg.put [], known := s.known, skip := s.skip }
      rw [put_nil]
  | cons place places ih =>
      obtain ⟨x, y, z⟩ := place
      obtain ⟨cell, st, hone, hall⟩ : ∃ cell st,
          describeCells w view s.known [(x, y, z)] = ([cell], st) ∧
          describeCells w view s.known ((x, y, z) :: places) =
            (cell :: (describeCells w view st places).1, (describeCells w view st places).2) := by
        cases htile : w.getMapTile x y z with
        | none => exact ⟨none, s.known, by simp [describeCells, htile]⟩
        | some placed =>
            exact ⟨some (view.tileBytes w s.known placed.1 placed.2),
              (view.describe s.known placed.1 placed.2).2, by simp [describeCells, htile]⟩
      rw [hall, SkipCoding.writeRow] at hfit
      rw [List.length_append] at hfit
      have hvisit := visit_eq hnames s x y z hone (by omega)
      rw [List.foldl_cons]
      simp only
      rw [hvisit, ih _ (by rw [put_position]; simp only; omega), hall, SkipCoding.writeRow, put_put]

theorem GetMapDescription_eq (hnames : ∀ c, (view.look c).name.length ≤ 8192)
    (msg : NetworkMessage) (st : KnownState) (x y z width height : Int)
    (hfit : msg.position + (SkipCoding.encode (-1)
      (describeCells w view st (window x y z width height)).1).length <
        NetworkMessage.MAX_BODY_LENGTH) :
    (GetMapDescription w view msg st x y z width height).1 =
      msg.put (SkipCoding.encode (-1)
        (describeCells w view st (window x y z width height)).1) := by
  rw [SkipCoding.encode, List.length_append] at hfit
  have hrun := visits_eq (w := w) hnames (window x y z width height) ⟨msg, st, -1⟩ (by
    simp only
    omega)
  have hfold : (floors z).foldl
      (fun s nz => GetFloorDescription w view s x y nz width height (z - nz)) ⟨msg, st, -1⟩ =
        (window x y z width height).foldl
          (fun s place => visit w view s place.1 place.2.1 place.2.2) ⟨msg, st, -1⟩ := by
    simp only [window, List.foldl_flatMap, List.foldl_map, GetFloorDescription]
  rw [GetMapDescription]
  simp only [hfold, hrun]
  rw [SkipCoding.encode]
  generalize SkipCoding.writeRow (-1) (describeCells w view st (window x y z width height)).1 = row
    at hfit ⊢
  rw [SkipCoding.flush] at hfit ⊢
  by_cases hskip : row.2 ≥ 0
  · rw [if_pos hskip] at hfit
    have hmark : (SkipCoding.mark row.2).length = 2 := rfl
    simp only [if_pos hskip]
    rw [addMark _ _ (by rw [put_position]; omega), put_put]
  · simp only [if_neg hskip, List.append_nil]

theorem describeCells_length (st : KnownState) (places : List (Int × Int × Int)) :
    (describeCells w view st places).1.length = places.length := by
  induction places generalizing st with
  | nil => rfl
  | cons place places ih =>
      rw [describeCells]
      cases w.getMapTile place.1 place.2.1 place.2.2 with
      | none => exact congrArg (· + 1) (ih st)
      | some placed => exact congrArg (· + 1) (ih _)

/-- The blocks of a description are those of tiles of the map. -/
theorem mem_describeCells {block : List UInt8} {st : KnownState}
    {places : List (Int × Int × Int)} (h : some block ∈ (describeCells w view st places).1) :
    ∃ st pos t, w.tile pos = some t ∧ block = view.tileBytes w st pos t := by
  induction places generalizing st with
  | nil => exact absurd h List.not_mem_nil
  | cons place places ih =>
      rw [describeCells] at h
      cases htile : w.getMapTile place.1 place.2.1 place.2.2 with
      | none =>
          rw [htile] at h
          exact ih ((List.mem_cons.mp h).resolve_left (by simp))
      | some placed =>
          rw [htile] at h
          rcases List.mem_cons.mp h with h | h
          · obtain ⟨pos, t⟩ := placed
            rw [World.getMapTile] at htile
            split at htile
            case isTrue => exact absurd htile (by simp)
            case isFalse =>
              obtain ⟨t', ht', hsame⟩ := Option.map_eq_some_iff.mp htile
              obtain ⟨rfl, rfl⟩ := Prod.mk.inj hsame
              exact ⟨st, _, t', ht', Option.some.inj h⟩
          · exact ih h

/-- A client reads back what `GetMapDescription` wrote: all of it, and which tiles of the window
exist with the description of each. -/
theorem map_description_read {client : Client} (hclient : client.Knows w view)
    (hnames : ∀ c, (view.look c).name.length ≤ 8192) (msg : NetworkMessage) (st : KnownState)
    (x y z width height : Int)
    (hfit : msg.position + (SkipCoding.encode (-1)
      (describeCells w view st (window x y z width height)).1).length <
        NetworkMessage.MAX_BODY_LENGTH) :
    client.readMap (window x y z width height).length
        (slice (GetMapDescription w view msg st x y z width height).1.buffer msg.position
          ((GetMapDescription w view msg st x y z width height).1.position - msg.position)) =
      some ((describeCells w view st (window x y z width height)).1, []) := by
  have hput := GetMapDescription_eq hnames msg st x y z width height hfit
  generalize (GetMapDescription w view msg st x y z width height).1 = written at hput ⊢
  subst hput
  rw [put_position, Nat.add_sub_cancel_left]
  show client.readMap _ (slice (store msg.buffer msg.position _) _ _) = _
  rw [slice_store, Client.readMap, ← @describeCells_length w view st]
  refine SkipCoding.decode_encode ⟨fun count rest => ?_, fun block hblock count rest => ?_⟩
  · rw [Client.readTile, Client.peekWord_mark]
    simp
  · obtain ⟨st', pos, t, ht, rfl⟩ := mem_describeCells hblock
    exact Client.readTile_append hclient hnames st' ht count rest

/-! ### Samples -/

namespace Sample

open TibServer.Sample (corner plot)
open TibServer.Tile.Sample (nobodyKnown onlooker pebbles)

/-- A client to which all items are plain ones. -/
def plainClient : Client where
  items _ := { counted := false, animated := false }
  version := 1100

theorem knows_plot : plainClient.Knows (plot pebbles) onlooker where
  version := rfl
  items pos t ht i hi := by
    rw [plot] at ht
    by_cases hpos : pos = corner
    · obtain rfl := Option.some.inj ((if_pos hpos).symm.trans ht)
      exact absurd hi List.not_mem_nil
    · exact absurd ((if_neg hpos).symm.trans ht) (by simp)
  ids pos t ht i hi := by
    rw [plot] at ht
    by_cases hpos : pos = corner
    · obtain rfl := Option.some.inj ((if_pos hpos).symm.trans ht)
      exact absurd hi List.not_mem_nil
    · exact absurd ((if_neg hpos).symm.trans ht) (by simp)

/-- The bare tile of the plot, with no tiles above it. -/
theorem plot_read :
    plainClient.readMap (window 100 100 7 1 1).length
        (slice (GetMapDescription (plot pebbles) onlooker { buffer := fun _ => 0 } nobodyKnown
            100 100 7 1 1).1.buffer 8
          ((GetMapDescription (plot pebbles) onlooker { buffer := fun _ => 0 } nobodyKnown
            100 100 7 1 1).1.position - 8)) =
      some ([some [0, 0], none, none, none, none, none, none, none], []) := by
  have hcells : (describeCells (plot pebbles) onlooker nobodyKnown (window 100 100 7 1 1)).1 =
      [some [0, 0], none, none, none, none, none, none, none] := by decide
  have hread := map_description_read knows_plot (fun _ => Nat.zero_le _) { buffer := fun _ => 0 }
    nobodyKnown 100 100 7 1 1 (by rw [hcells]; decide)
  rw [hcells] at hread
  exact hread

end Sample

end MapWriter

end TibServer
