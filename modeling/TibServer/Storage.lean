import Mathlib.Tactic

/-!
Storage values (`player.cpp`): numbers under numbered keys, that scripts use too. A range of the keys
is reserved. The outfits of a player have a part of it, into which they are written for a save only,
and the mounts another one.
-/

namespace TibServer.Storage

def PSTRG_RESERVED_RANGE_START : Nat := 10000000
def PSTRG_RESERVED_RANGE_SIZE : Nat := 10000000
def PSTRG_OUTFITS_RANGE_START : Nat := PSTRG_RESERVED_RANGE_START + 1000
def PSTRG_OUTFITS_RANGE_SIZE : Nat := 500
def PSTRG_MOUNTS_RANGE_START : Nat := PSTRG_RESERVED_RANGE_START + 2001
def PSTRG_MOUNTS_RANGE_SIZE : Nat := 10
def PSTRG_MOUNTS_CURRENTMOUNT : Nat := PSTRG_MOUNTS_RANGE_START + 10

/-- `IS_IN_KEYRANGE` -/
def isInKeyRange (key start size : Nat) : Bool := decide (start ≤ key) && decide (key - start ≤ size)

def isReserved (key : Nat) : Bool :=
  isInKeyRange key PSTRG_RESERVED_RANGE_START PSTRG_RESERVED_RANGE_SIZE

def isOutfitKey (key : Nat) : Bool :=
  isInKeyRange key PSTRG_OUTFITS_RANGE_START PSTRG_OUTFITS_RANGE_SIZE

def isMountKey (key : Nat) : Bool :=
  isInKeyRange key PSTRG_MOUNTS_RANGE_START PSTRG_MOUNTS_RANGE_SIZE

structure OutfitEntry where
  lookType : BitVec 16
  addons : BitVec 8
  deriving DecidableEq

namespace OutfitEntry

/-- `(entry.lookType << 16) | entry.addons` -/
def toValue (entry : OutfitEntry) : BitVec 32 :=
  entry.lookType.setWidth 32 <<< 16 ||| entry.addons.setWidth 32

/-- `value >> 16` and `value & 0xFF`, as the entry takes them. -/
def ofValue (value : BitVec 32) : OutfitEntry :=
  ⟨(value.sshiftRight 16).setWidth 16, (value &&& 0xFF#32).setWidth 8⟩

theorem ofValue_toValue (entry : OutfitEntry) : ofValue entry.toValue = entry := by
  obtain ⟨lookType, addons⟩ := entry
  have hlook : ((lookType.setWidth 32 <<< 16 ||| addons.setWidth 32).sshiftRight 16).setWidth 16 =
      lookType := by
    ext i hi
    simp
    grind
  have haddons : ((lookType.setWidth 32 <<< 16 ||| addons.setWidth 32) &&& 0xFF#32).setWidth 8 =
      addons := by
    ext i hi
    have hmask : (0xFF#32).getLsbD i = true := by
      interval_cases i <;> decide
    simp only [BitVec.getElem_setWidth, BitVec.getLsbD_and, BitVec.getLsbD_or,
      BitVec.getLsbD_shiftLeft, BitVec.getLsbD_setWidth]
    grind
  unfold ofValue toValue
  rw [hlook, haddons]

end OutfitEntry

structure Player where
  storageMap : Std.TreeMap Nat (BitVec 32) := ∅
  outfits : List OutfitEntry := []

namespace Player

variable (p : Player)

/-- The second half of `Player::addStorageValue`, but for the quest log. -/
def setValue (key : Nat) (value : BitVec 32) : Player :=
  if value ≠ -1 then { p with storageMap := p.storageMap.insert key value }
  else { p with storageMap := p.storageMap.erase key }

/-- `Player::addStorageValue`. -/
def addStorageValue (key : Nat) (value : BitVec 32) : Player :=
  if isReserved key then
    if isOutfitKey key then { p with outfits := p.outfits ++ [OutfitEntry.ofValue value] }
    else if isMountKey key then p.setValue key value
    else p
  else p.setValue key value

/-- `Player::getStorageValue`. -/
def getStorageValue (key : Nat) : Option (BitVec 32) := p.storageMap[key]?

/-- The loop of `Player::genReservedStorageRange`. -/
def writeOutfits : Nat → List OutfitEntry → Std.TreeMap Nat (BitVec 32) →
    Std.TreeMap Nat (BitVec 32)
  | _, [], storageMap => storageMap
  | base_key, entry :: outfits, storageMap =>
      writeOutfits (base_key + 1) outfits (storageMap.insert (base_key + 1) entry.toValue)

/-- `Player::genReservedStorageRange`. -/
def genReservedStorageRange : Player :=
  { p with storageMap := writeOutfits PSTRG_OUTFITS_RANGE_START p.outfits p.storageMap }

/-- `Player::addOutfit`. -/
def addOutfit (lookType : BitVec 16) (addons : BitVec 8) : Player :=
  { p with outfits := go p.outfits }
where
  go : List OutfitEntry → List OutfitEntry
    | [] => [⟨lookType, addons⟩]
    | entry :: outfits =>
        if entry.lookType = lookType then { entry with addons := entry.addons ||| addons } :: outfits
        else entry :: go outfits

/-- `Player::removeOutfit`. -/
def removeOutfit (lookType : BitVec 16) : Player :=
  { p with outfits := p.outfits.eraseP fun entry => entry.lookType == lookType }

/-- `Player::removeOutfitAddon`. -/
def removeOutfitAddon (lookType : BitVec 16) (addons : BitVec 8) : Player :=
  { p with outfits := go p.outfits }
where
  go : List OutfitEntry → List OutfitEntry
    | [] => []
    | entry :: outfits =>
        if entry.lookType = lookType then
          { entry with addons := entry.addons &&& ~~~addons } :: outfits
        else entry :: go outfits

/-- The rows of `player_storage` that `IOLoginData::savePlayer` inserts. -/
def rows : List (Nat × BitVec 32) := p.storageMap.toList

/-- `IOLoginData::loadPlayer`: the rows come in the order of their primary key. -/
def load (rows : List (Nat × BitVec 32)) : Player :=
  rows.foldl (fun p row => p.addStorageValue row.1 row.2) {}

end Player

/-! ### Runs -/

inductive Event
  | addOutfit (lookType : BitVec 16) (addons : BitVec 8)
  | removeOutfit (lookType : BitVec 16)
  | removeOutfitAddon (lookType : BitVec 16) (addons : BitVec 8)
  | setStorageValue (key : Nat) (value : BitVec 32)
  | setMountValue (key : Nat) (value : BitVec 32)
  | save

/-- Scripts keep off the reserved range, and only the mounts' functions use that of the mounts. -/
def perform (p : Player) : Event → Player
  | .addOutfit lookType addons => p.addOutfit lookType addons
  | .removeOutfit lookType => p.removeOutfit lookType
  | .removeOutfitAddon lookType addons => p.removeOutfitAddon lookType addons
  | .setStorageValue key value => if isReserved key then p else p.addStorageValue key value
  | .setMountValue key value => if isMountKey key then p.addStorageValue key value else p
  | .save => p.genReservedStorageRange

end TibServer.Storage
