import TibServer.World

/-!
The questions a move asks before it changes anything: `queryAdd`,
`queryMaxCount`, `queryRemove` and `getThingIndex` of containers, players and
tiles (`container.cpp`, `depotchest.cpp`, `inbox.cpp`, `reward.cpp`,
`rewardchest.cpp`, `depotlocker.cpp`, `player.cpp`, `tile.cpp`, `housetile.cpp`).
-/

namespace TibServer

namespace World

variable (w : World)

/-! ### Positions in a cylinder -/

/-- The position of a reference in a list, as the searching loops of the source
count it; −1 when it is not there. -/
def indexIn (l : List ItemRef) (i : ItemRef) : Int :=
  if i ∈ l then (l.idxOf i : Int) else -1

def containerGetThingIndex (c i : ItemRef) : Int := indexIn (w.itemlist c) i

def playerGetThingIndex (p : PlayerId) (i : ItemRef) : Int :=
  match slots.find? fun s => (w.player p).inventory s = some i with
  | some s => s
  | none => -1

def tileGetThingIndex (pos : Position) (i : ItemRef) : Int :=
  match w.tile pos with
  | none => -1
  | some t => t.getThingIndex (w.isAlwaysOnTop i) i

def getThingIndex : Cylinder → ItemRef → Int
  | .tile pos, i => w.tileGetThingIndex pos i
  | .player p, i => w.playerGetThingIndex p i
  | .container c, i => w.containerGetThingIndex c i

/-! ### `Player::queryAdd` -/

def SLOTP_HEAD : Nat := 0x1
def SLOTP_NECKLACE : Nat := 0x2
def SLOTP_BACKPACK : Nat := 0x4
def SLOTP_ARMOR : Nat := 0x8
def SLOTP_RIGHT : Nat := 0x10
def SLOTP_LEFT : Nat := 0x20
def SLOTP_LEGS : Nat := 0x40
def SLOTP_FEET : Nat := 0x80
def SLOTP_RING : Nat := 0x100
def SLOTP_AMMO : Nat := 0x200
def SLOTP_TWO_HAND : Nat := 0x800

def fits (slotPosition slotp : Nat) : Bool := (slotPosition &&& slotp) != 0

def getFreeCapacity (p : PlayerId) : BitVec 32 :=
  let pl := w.player p
  if pl.cannotPickupItem then 0
  else if pl.hasInfiniteCapacity then BitVec.allOnes 32
  else
    let d := pl.capacity - pl.inventoryWeight
    if d.toNat < 2 ^ 31 then d else 0

def hasCapacity (p : PlayerId) (i : ItemRef) (count : Nat) : Bool :=
  let pl := w.player p
  if pl.cannotPickupItem then false
  else if pl.hasInfiniteCapacity || w.getTopParent i == some (.player p) then true
  else
    let itemWeight := if (w.getContainer i).isSome then w.getWeight i else w.getBaseWeight i
    let itemWeight :=
      if w.isStackable i then itemWeight * BitVec.ofNat 32 count else itemWeight
    decide (itemWeight ≤ w.getFreeCapacity p)

/-- The answer before the slot is looked at: what kind of place the item needs. -/
def slotNeeded (sp : Nat) : ReturnValue :=
  if fits sp SLOTP_HEAD || fits sp SLOTP_NECKLACE || fits sp SLOTP_BACKPACK ||
      fits sp SLOTP_ARMOR || fits sp SLOTP_LEGS || fits sp SLOTP_FEET || fits sp SLOTP_RING then
    .cannotBeDressed
  else if fits sp SLOTP_TWO_HAND then .putThisObjectInBothHands
  else if fits sp SLOTP_RIGHT || fits sp SLOTP_LEFT then
    if w.classicEquipmentSlots then .putThisObjectInYourHand else .cannotBeDressed
  else .noError

/-- The classic rules for a hand slot, given what the other hand holds. -/
def classicHand (i : ItemRef) (count : Nat) (other : Option ItemRef) : ReturnValue :=
  let sp := (w.typeOf i).slotPosition
  if fits sp SLOTP_TWO_HAND then
    match other with
    | some o => if o ≠ i then .bothHandsNeedToBeFree else .noError
    | none => .noError
  else
    match other with
    | none => .noError
    | some o =>
        let type := (w.typeOf i).weaponType
        let otherType := (w.typeOf o).weaponType
        if fits (w.typeOf o).slotPosition SLOTP_TWO_HAND then .dropTwoHandedItem
        else if i = o ∧ count = w.getItemCount i then .noError
        else if otherType = .shield ∧ type = .shield then .canOnlyUseOneShield
        else if otherType = .none ∨ type = .none ∨ otherType = .shield ∨ otherType = .ammo ∨
            type = .shield ∨ type = .ammo then .noError
        else .canOnlyUseOneWeapon

def rightHand (p : PlayerId) (i : ItemRef) (count : Nat) : ReturnValue :=
  let sp := (w.typeOf i).slotPosition
  let left := (w.player p).inventory 6
  if w.classicEquipmentSlots then w.classicHand i count left
  else if (w.typeOf i).weaponType ≠ .shield then .cannotBeDressed
  else
    match left with
    | some l =>
        if fits ((w.typeOf l).slotPosition ||| sp) SLOTP_TWO_HAND then .bothHandsNeedToBeFree
        else .noError
    | none => .noError

def leftHand (p : PlayerId) (i : ItemRef) (count : Nat) : ReturnValue :=
  let sp := (w.typeOf i).slotPosition
  let right := (w.player p).inventory 5
  if w.classicEquipmentSlots then w.classicHand i count right
  else if (w.typeOf i).weaponType = .none ∨ (w.typeOf i).weaponType = .shield then
    .cannotBeDressed
  else if right.isSome && fits sp SLOTP_TWO_HAND then .bothHandsNeedToBeFree
  else .noError

/-- The `switch (index)` of `Player::queryAdd`. -/
def slotAnswer (p : PlayerId) (index : Int) (i : ItemRef) (count : Nat) : ReturnValue :=
  let sp := (w.typeOf i).slotPosition
  let ret := w.slotNeeded sp
  let simple (slotp : Nat) := if fits sp slotp then ReturnValue.noError else ret
  match index with
  | 1 => simple SLOTP_HEAD
  | 2 => simple SLOTP_NECKLACE
  | 3 => simple SLOTP_BACKPACK
  | 4 => simple SLOTP_ARMOR
  | 5 => if fits sp SLOTP_RIGHT then w.rightHand p i count else ret
  | 6 => if fits sp SLOTP_LEFT then w.leftHand p i count else ret
  | 7 => simple SLOTP_LEGS
  | 8 => simple SLOTP_FEET
  | 9 => simple SLOTP_RING
  | 10 => if fits sp SLOTP_AMMO || w.classicEquipmentSlots then .noError else ret
  | 0 => .notEnoughRoom
  | -1 => .notEnoughRoom
  | _ => .notPossible

def playerQueryAdd (p : PlayerId) (index : Int) (i : ItemRef) (count : Nat)
    (flags : Flags) : ReturnValue :=
  if flags.childIsOwner then
    -- a container the player carries is asking: only the weight counts
    if flags.noLimit || w.hasCapacity p i count then .noError else .notEnoughCapacity
  else if !w.isPickupable i then .cannotPickup
  else
    let ret := w.slotAnswer p index i count
    if ret = .noError ∨ ret = .notEnoughRoom then
      match w.getInventoryItem p index with
      | some o =>
          if !w.isStackable o || (w.item o).id != (w.item i).id then .needExchange
          else if !w.hasCapacity p i count then .notEnoughCapacity
          else if !w.canEquip p i index then .cannotBeDressed
          else ret
      | none =>
          if !w.hasCapacity p i count then .notEnoughCapacity
          else if !w.canEquip p i index then .cannotBeDressed
          else ret
    else ret

/-! ### `Tile::queryAdd` for an item -/

def TILESTATE_FLOORCHANGE_DOWN : BitVec 32 := 1 <<< 0
def TILESTATE_FLOORCHANGE_NORTH : BitVec 32 := 1 <<< 1
def TILESTATE_FLOORCHANGE_SOUTH : BitVec 32 := 1 <<< 2
def TILESTATE_FLOORCHANGE_EAST : BitVec 32 := 1 <<< 3
def TILESTATE_FLOORCHANGE_WEST : BitVec 32 := 1 <<< 4
def TILESTATE_FLOORCHANGE_SOUTH_ALT : BitVec 32 := 1 <<< 5
def TILESTATE_FLOORCHANGE_EAST_ALT : BitVec 32 := 1 <<< 6
def TILESTATE_TELEPORT : BitVec 32 := 1 <<< 11
def TILESTATE_MAGICFIELD : BitVec 32 := 1 <<< 12
def TILESTATE_MAILBOX : BitVec 32 := 1 <<< 13
def TILESTATE_TRASHHOLDER : BitVec 32 := 1 <<< 14
def TILESTATE_BED : BitVec 32 := 1 <<< 15
def TILESTATE_DEPOT : BitVec 32 := 1 <<< 16
def TILESTATE_BLOCKSOLID : BitVec 32 := 1 <<< 17
def TILESTATE_BLOCKPATH : BitVec 32 := 1 <<< 18
def TILESTATE_IMMOVABLEBLOCKSOLID : BitVec 32 := 1 <<< 19
def TILESTATE_IMMOVABLEBLOCKPATH : BitVec 32 := 1 <<< 20
def TILESTATE_IMMOVABLENOFIELDBLOCKPATH : BitVec 32 := 1 <<< 21
def TILESTATE_NOFIELDBLOCKPATH : BitVec 32 := 1 <<< 22
def TILESTATE_SUPPORTS_HANGABLE : BitVec 32 := 1 <<< 23
def TILESTATE_FLOORCHANGE : BitVec 32 := 0x7F

/-- A blocking thing of type `iiType` leaves no room for the item. -/
def blocksItem (iiType : ItemType) (i : ItemRef) : Bool :=
  let it := w.typeOf i
  iiType.blockSolid && (!iiType.allowPickupable || it.isMagicField || it.blockSolid) &&
    (!it.pickupable || (!iiType.hasHeight || iiType.pickupable || iiType.isBed))

def tileQueryAdd (pos : Position) (i : ItemRef) (flags : Flags)
    (actor : Option PlayerId) : ReturnValue :=
  match w.tile pos with
  | none => .notPossible
  | some t =>
      let notInvited := match t.house, actor with
        | some h, some a => !w.isInvited h a
        | _, _ => false
      if notInvited then .cannotThrow
      else if t.itemList.length ≥ 0x3E8 then .notPossible
      else if flags.noLimit then .noError
      else
        let itemIsHangable := (w.typeOf i).isHangable
        if t.ground.isNone && !itemIsHangable then .notPossible
        else if (w.typeOf i).blockSolid && !flags.ignoreBlockCreature &&
            t.creatures.any (fun c => !w.isInGhostMode c) then .notEnoughRoom
        else if itemIsHangable && t.hasFlag TILESTATE_SUPPORTS_HANGABLE then
          if t.itemList.any (fun o => (w.typeOf o).isHangable) then .needExchange else .noError
        else
          let onGround := match t.ground with
            | some g => w.blocksItem (w.typeOf g) i
            | none => false
          if onGround || t.itemList.any (fun o => w.blocksItem (w.typeOf o) i) then
            .notEnoughRoom
          else .noError

/-! ### `queryAdd` of the container classes

`Container::queryAdd` ends in a question to the top parent, put as the child of
an owner; `top` stands for that question. -/

/-- The walk up from a container stops at whichever comes first, the item or an inbox. -/
def stopsWalk (i : ItemRef) : Cylinder → Bool
  | .container r => r == i || w.kindOf r == some .inbox
  | _ => false

def askTopParent (top : Cylinder → ReturnValue) (c : ItemRef) : ReturnValue :=
  match w.getTopParent c with
  | some t => if t ≠ .container c then top t else .noError
  | none => .noError

def containerBaseQueryAdd (top : Cylinder → ReturnValue) (c : ItemRef) (index : Int)
    (i : ItemRef) (flags : Flags) : ReturnValue :=
  if flags.childIsOwner then .noError
  else
    match w.getContainer c with
    | none => .notPossible
    | some k =>
        if !k.unlocked then .notPossible
        else if !w.isPickupable i then .cannotPickup
        else if i = c then .thisIsImpossible
        else if flags.noLimit then
          if .container i ∈ w.ancestors c then .thisIsImpossible
          else w.askTopParent top c
        else
          match (w.ancestors c).find? (w.stopsWalk i) with
          | some q => if q = .container i then .thisIsImpossible else .containerNotEnoughRoom
          | none =>
              if index = INDEX_WHEREEVER ∧ k.size ≥ k.capacity ∧ !k.hasPagination then
                .containerNotEnoughRoom
              else w.askTopParent top c

def depotChestQueryAdd (maxDepotItems : Nat) (top : Cylinder → ReturnValue) (c : ItemRef)
    (index : Int) (i : ItemRef) (count : Nat) (flags : Flags) : ReturnValue :=
  if flags.noLimit then w.containerBaseQueryAdd top c index i flags
  else
    let addCount := if w.isStackable i && w.getItemCount i != count then 1 else 0
    let addCount :=
      if w.getTopParent i ≠ some (.container c) then
        if (w.getContainer i).isSome then w.getItemHoldingCount i + 1 else 1
      else addCount
    let holding := match (w.item c).parent with
      | some (.container r) => w.getItemHoldingCount r
      | _ => w.getItemHoldingCount c
    if holding + addCount > maxDepotItems then .depotIsFull
    else w.containerBaseQueryAdd top c index i flags

def inboxQueryAdd (c i : ItemRef) (flags : Flags) : ReturnValue :=
  if !flags.noLimit then .containerNotEnoughRoom
  else if i = c then .thisIsImpossible
  else if !w.isPickupable i then .cannotPickup
  else .noError

def rewardQueryAdd (c i : ItemRef) (actor : Option PlayerId) : ReturnValue :=
  if actor.isSome then .notPossible
  else if i = c then .thisIsImpossible
  else if !w.isPickupable i then .cannotPickup
  else .noError

def rewardChestQueryAdd (actor : Option PlayerId) : ReturnValue :=
  if actor.isSome then .notPossible else .noError

/-- The virtual `queryAdd` of a container. -/
def containerQueryAdd (top : Cylinder → ReturnValue) (c : ItemRef) (index : Int) (i : ItemRef)
    (count : Nat) (flags : Flags) (actor : Option PlayerId) : ReturnValue :=
  match w.kindOf c with
  | none | some .plain | some .browseField => w.containerBaseQueryAdd top c index i flags
  | some (.depotChest m) => w.depotChestQueryAdd m top c index i count flags
  | some .depotLocker => .notEnoughRoom
  | some .inbox => w.inboxQueryAdd c i flags
  | some .reward => w.rewardQueryAdd c i actor
  | some .rewardChest => rewardChestQueryAdd actor

/-- `topParent->queryAdd(INDEX_WHEREEVER, item, count, flags | FLAG_CHILDISOWNER, actor)`. -/
def ownerQueryAdd (t : Cylinder) (i : ItemRef) (count : Nat) (flags : Flags)
    (actor : Option PlayerId) : ReturnValue :=
  let flags := { flags with childIsOwner := true }
  match t with
  | .tile pos => w.tileQueryAdd pos i flags actor
  | .player p => w.playerQueryAdd p INDEX_WHEREEVER i count flags
  | .container c =>
      w.containerQueryAdd (fun _ => .noError) c INDEX_WHEREEVER i count flags actor

/-- `Cylinder::queryAdd`, virtual. -/
def queryAdd (c : Cylinder) (index : Int) (i : ItemRef) (count : Nat) (flags : Flags)
    (actor : Option PlayerId := none) : ReturnValue :=
  match c with
  | .tile pos => w.tileQueryAdd pos i flags actor
  | .player p => w.playerQueryAdd p index i count flags
  | .container c =>
      w.containerQueryAdd (fun t => w.ownerQueryAdd t i count flags actor) c index i count
        flags actor

/-! ### `queryMaxCount`

The count is the second component; 0 where the source leaves the caller's
initial value. -/

/-- The loop over the stacks of a container: the room left in those that merge
with the item, each asked for with `queryAdd`. -/
def stackRoom (c i : ItemRef) (flags : Flags) : List ItemRef → Nat → Nat
  | [], _ => 0
  | o :: l, slotIndex =>
      if o ≠ i ∧ w.equals o i ∧ w.getItemCount o < 100 then
        let remainder := 100 - w.getItemCount o
        (if w.queryAdd (.container c) slotIndex i remainder flags = .noError then remainder
          else 0) + stackRoom c i flags l (slotIndex + 1)
      else stackRoom c i flags l slotIndex

def containerQueryMaxCount (c : ItemRef) (index : Int) (i : ItemRef) (count : Nat)
    (flags : Flags) : ReturnValue × Nat :=
  match w.getContainer c with
  | none => (.notPossible, 0)
  | some k =>
      if flags.noLimit || k.hasPagination then (.noError, max 1 count)
      else
        let freeSlots := k.capacity - k.size
        if w.isStackable i then
          let n :=
            if index = INDEX_WHEREEVER then w.stackRoom c i flags k.itemlist 0
            else
              match (if 0 ≤ index then k.itemlist[index.toNat]? else none) with
              | some o =>
                  if w.equals i o ∧ w.getItemCount o < 100 then
                    let remainder := 100 - w.getItemCount o
                    if w.queryAdd (.container c) index i remainder flags = .noError then
                      remainder
                    else 0
                  else 0
              | none => 0
          let max := freeSlots * 100 + n
          if max < count then (.containerNotEnoughRoom, max) else (.noError, max)
        else if freeSlots = 0 then (.containerNotEnoughRoom, 0)
        else (.noError, freeSlots)

/-- What one inventory slot adds to `Player::queryMaxCount(INDEX_WHEREEVER, ...)`. -/
def slotRoom (p : PlayerId) (i : ItemRef) (flags : Flags) (slot : Nat) : Nat :=
  match (w.player p).inventory slot with
  | some o =>
      if (w.getContainer o).isSome then
        let room (c : ItemRef) :=
          (w.containerQueryMaxCount c INDEX_WHEREEVER i (w.getItemCount i) flags).2
        room o + (((w.iterator o).filter fun r => (w.getContainer r).isSome).map room).sum
      else if w.isStackable o && w.equals i o && w.getItemCount o < 100 then
        let remainder := 100 - w.getItemCount o
        if w.playerQueryAdd p slot i remainder flags = .noError then remainder else 0
      else 0
  | none =>
      if w.playerQueryAdd p slot i (w.getItemCount i) flags = .noError then
        if w.isStackable i then 100 else 1
      else 0

def playerQueryMaxCount (p : PlayerId) (index : Int) (i : ItemRef) (count : Nat)
    (flags : Flags) : ReturnValue × Nat :=
  let answer (max : Nat) : ReturnValue × Nat :=
    if max < count then (.notEnoughRoom, max) else (.noError, max)
  if index = INDEX_WHEREEVER then answer ((slots.map (w.slotRoom p i flags)).sum)
  else
    match w.getInventoryItem p index with
    | some o =>
        if w.isStackable o && w.equals i o && w.getItemCount o < 100 then
          answer (100 - w.getItemCount o)
        else answer 0
    | none =>
        if w.playerQueryAdd p index i count flags = .noError then
          (.noError, if w.isStackable i then 100 else 1)
        else answer 0

def queryMaxCount (c : Cylinder) (index : Int) (i : ItemRef) (count : Nat)
    (flags : Flags) : ReturnValue × Nat :=
  match c with
  | .tile _ => (.noError, max 1 count)
  | .player p => w.playerQueryMaxCount p index i count flags
  | .container c => w.containerQueryMaxCount c index i count flags

/-! ### `queryRemove`, the same in the three classes -/

def queryRemove (c : Cylinder) (i : ItemRef) (count : Nat) (flags : Flags) : ReturnValue :=
  if w.getThingIndex c i = -1 then .notPossible
  else if count = 0 ∨ (w.isStackable i ∧ count > w.getItemCount i) then .notPossible
  else if !w.isMoveable i && !flags.ignoreNotMoveable then .notMoveable
  else .noError

end World

end TibServer
