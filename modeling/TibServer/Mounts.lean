import Mathlib.Tactic
import TibServer.Storage

/-!
Mounts (`player.cpp`, `game.cpp`, `mounts.cpp`): which of them a player has, the one that is kept as
the current one, the one in the outfit, and the speed that they give. Messages to clients and the
outfit that is shown are left out.
-/

namespace TibServer.Mounts

open TibServer.Storage

structure Mount where
  id : BitVec 8
  clientId : BitVec 16
  speed : Int
  premium : Bool
  deriving DecidableEq

inductive PlayerSex_t
  | female
  | male
  deriving DecidableEq

structure Outfit where
  lookType : BitVec 16
  premium : Bool
  unlocked : Bool

/-- `mounts.xml`, `outfits.xml` and the configuration. -/
structure Tables where
  mounts : List Mount
  outfits : PlayerSex_t → List Outfit
  allowChangeOutfit : Bool

namespace Tables

variable (tables : Tables)

/-- `Mounts::getMountByID`. -/
def getMountByID (id : BitVec 8) : Option Mount := tables.mounts.find? fun mount => mount.id == id

/-- `Mounts::getMountByClientID`. -/
def getMountByClientID (clientId : BitVec 16) : Option Mount :=
  tables.mounts.find? fun mount => mount.clientId == clientId

/-- `Outfits::getOutfitByLookType`. -/
def getOutfitByLookType (sex : PlayerSex_t) (lookType : BitVec 16) : Option Outfit :=
  (tables.outfits sex).find? fun outfit => outfit.lookType == lookType

end Tables

structure Outfit_t where
  lookType : BitVec 16 := 0
  lookAddons : BitVec 8 := 0
  lookMount : BitVec 16 := 0
  deriving DecidableEq

inductive ZoneType_t
  | protection
  | noPvp
  | pvp
  | noLogout
  | normal
  deriving DecidableEq

structure Player extends Storage.Player where
  sex : PlayerSex_t := .male
  access : Bool := false
  isPremium : Bool := true
  defaultOutfit : Outfit_t := {}
  wasMounted : Bool := false
  lastToggleMount : Int := 0
  varSpeed : Int := 0
  zone : ZoneType_t := .normal
  hasOutfitCondition : Bool := false
  now : Int := 0
  /-- What others than the mounts have given. -/
  otherSpeed : Int := 0

namespace Player

variable (tables : Tables) (p : Player)

def addStorageValue (key : Nat) (value : BitVec 32) : Player :=
  { p with toPlayer := p.toPlayer.addStorageValue key value }

/-- `Player::isMounted`. -/
def isMounted : Bool := p.defaultOutfit.lookMount != 0

/-- `Player::getCurrentMount`. -/
def getCurrentMount : BitVec 8 :=
  match p.getStorageValue PSTRG_MOUNTS_CURRENTMOUNT with
  | some value => value.setWidth 8
  | none => 0

/-- `Player::setCurrentMount`. -/
def setCurrentMount (mount : BitVec 8) : Player :=
  p.addStorageValue PSTRG_MOUNTS_CURRENTMOUNT (mount.setWidth 32)

def mountKey (mountId : BitVec 8) : Nat := PSTRG_MOUNTS_RANGE_START + (mountId - 1).toNat / 31

def mountBit (mountId : BitVec 8) : BitVec 32 := 1#32 <<< ((mountId - 1).toNat % 31)

/-- `Player::hasMount`. -/
def hasMount (mount : Mount) : Bool :=
  if p.access then true
  else if mount.premium && !p.isPremium then false
  else
    match p.getStorageValue (mountKey mount.id) with
    | none => false
    | some value => mountBit mount.id &&& value != 0

/-- `Player::canWear`. -/
def canWear (lookType : BitVec 16) (addons : BitVec 8) : Bool :=
  if p.access then true
  else
    match tables.getOutfitByLookType p.sex lookType with
    | none => false
    | some outfit =>
        if outfit.premium && !p.isPremium then false
        else if outfit.unlocked && addons == 0 then true
        else
          match p.outfits.find? fun outfitEntry => outfitEntry.lookType == lookType with
          | none => false
          | some outfitEntry => outfitEntry.addons &&& addons == addons

/-- `Game::changeSpeed`. -/
def changeSpeed (varSpeedDelta : Int) : Player := { p with varSpeed := p.varSpeed + varSpeedDelta }

def setLookMount (lookMount : BitVec 16) : Player :=
  { p with defaultOutfit := { p.defaultOutfit with lookMount := lookMount } }

/-- `Player::dismount`. -/
def dismount : Player :=
  (match tables.getMountByID p.getCurrentMount with
    | some mount => if mount.speed > 0 then p.changeSpeed (-mount.speed) else p
    | none => p).setLookMount 0

/-- What `Player::toggleMount` does from the look for the current mount on. -/
def getOn : Player :=
  match tables.getMountByID p.getCurrentMount with
  | none => p
  | some currentMount =>
      if !p.hasMount currentMount then p.setCurrentMount 0
      else if currentMount.premium && !p.isPremium then p
      else if p.hasOutfitCondition then p
      else
        let p := p.setLookMount currentMount.clientId
        let p := if currentMount.speed ≠ 0 then p.changeSpeed currentMount.speed else p
        { p with lastToggleMount := p.now }

/-- `Player::toggleMount`. -/
def toggleMount (mount : Bool) : Player :=
  if p.now - p.lastToggleMount < 3000 && !p.wasMounted then p
  else if mount then
    if p.isMounted then p
    else if !p.access && p.zone == .protection then p
    else if (tables.getOutfitByLookType p.sex p.defaultOutfit.lookType).isNone then p
    else if p.getCurrentMount == 0 then p
    else p.getOn tables
  else if !p.isMounted then p
  else
    let p := p.dismount tables
    { p with lastToggleMount := p.now }

/-- The end of `Game::playerChangeOutfit`. -/
def wear (outfit : Outfit_t) : Player :=
  if p.canWear tables outfit.lookType outfit.lookAddons then { p with defaultOutfit := outfit }
  else p

/-- `Game::playerChangeOutfit`. -/
def playerChangeOutfit (outfit : Outfit_t) : Player :=
  if !tables.allowChangeOutfit then p
  else
    let outfit :=
      if (tables.getOutfitByLookType p.sex outfit.lookType).isNone then
        { outfit with lookMount := 0 }
      else outfit
    if outfit.lookMount != 0 then
      match tables.getMountByClientID outfit.lookMount with
      | none => p
      | some mount =>
          if !p.hasMount mount then p
          else if p.isMounted then
            let p :=
              match tables.getMountByID p.getCurrentMount with
              | some prevMount => p.changeSpeed (mount.speed - prevMount.speed)
              | none => p
            (p.setCurrentMount mount.id).wear tables outfit
          else (p.setCurrentMount mount.id).wear tables { outfit with lookMount := 0 }
    else if p.isMounted then (p.dismount tables).wear tables outfit
    else p.wear tables outfit

/-- `Player::tameMount`. -/
def tameMount (mountId : BitVec 8) : Player :=
  if (tables.getMountByID mountId).isNone then p
  else
    match p.getStorageValue (mountKey mountId) with
    | some value => p.addStorageValue (mountKey mountId) (value ||| mountBit mountId)
    | none => p.addStorageValue (mountKey mountId) (mountBit mountId)

/-- `Player::untameMount`. -/
def untameMount (mountId : BitVec 8) : Player :=
  if (tables.getMountByID mountId).isNone then p
  else
    match p.getStorageValue (mountKey mountId) with
    | none => p
    | some value =>
        let p := p.addStorageValue (mountKey mountId) (value &&& ~~~mountBit mountId)
        if p.getCurrentMount == mountId then
          (if p.isMounted then p.dismount tables else p).setCurrentMount 0
        else p

/-- `Player::onChangeZone`, for the mount. -/
def onChangeZone (zone : ZoneType_t) : Player :=
  if zone = .protection then
    if !p.access && p.isMounted then { p.dismount tables with wasMounted := true } else p
  else if p.wasMounted then { p.toggleMount tables true with wasMounted := false }
  else p

/-- `Player::onAddCondition`, for `CONDITION_OUTFIT`. -/
def onAddCondition : Player := if p.isMounted then p.dismount tables else p

end Player

/-! ### Runs -/

inductive Event
  | toggleMount (mount : Bool)
  | changeOutfit (outfit : Outfit_t)
  | tameMount (mountId : BitVec 8)
  | untameMount (mountId : BitVec 8)
  | changeZone (zone : ZoneType_t)
  | addOutfitCondition
  | endOutfitCondition
  /-- Speed from elsewhere. -/
  | changeSpeed (varSpeedDelta : Int)
  /-- Time passes, and the player gets or loses outfits, the premium status or access. -/
  | other (now : Int) (outfits : List OutfitEntry) (isPremium access : Bool)

def perform (tables : Tables) (p : Player) : Event → Player
  | .toggleMount mount => p.toggleMount tables mount
  | .changeOutfit outfit => p.playerChangeOutfit tables outfit
  | .tameMount mountId => p.tameMount tables mountId
  | .untameMount mountId => p.untameMount tables mountId
  | .changeZone zone => ({ p with zone := zone } : Player).onChangeZone tables zone
  | .addOutfitCondition => ({ p with hasOutfitCondition := true } : Player).onAddCondition tables
  | .endOutfitCondition => { p with hasOutfitCondition := false }
  | .changeSpeed varSpeedDelta =>
      { p.changeSpeed varSpeedDelta with otherSpeed := p.otherSpeed + varSpeedDelta }
  | .other now outfits isPremium access =>
      { p with now := now, outfits := outfits, isPremium := isPremium, access := access }

/-- A player logs in on foot. -/
inductive Run (tables : Tables) (allowed : Player → Event → Prop) : Player → Prop
  | login (stored : Storage.Player) (sex : PlayerSex_t) (outfit : Outfit_t)
      (onFoot : outfit.lookMount = 0) :
      Run tables allowed { toPlayer := stored, sex := sex, defaultOutfit := outfit }
  | step {p : Player} (event : Event) (run : Run tables allowed p) (meets : allowed p event) :
      Run tables allowed (perform tables p event)

end TibServer.Mounts
