import Mathlib.Data.List.DropRight
import TibServer.Store
import TibServer.Mounts

/-!
Buying what is no item in the store (`game.cpp`: `playerBuyStoreOffer`): outfits, mounts, a new
name, the other sex, a promotion, premium time, a teleport, blessings. Each kind of offer has its
own order of check, charge, grant and record. Magic effects, and the outfit that is shown, are left
out, and so is what happens to a player on the tile that he is teleported to.

Where the C++ code runs into undefined behaviour there is no result.
-/

namespace TibServer.StoreOffers

open Mounts Storage
open Store (Account)

def STORAGEVALUE_PROMOTION : Nat := 30018

def VOCATION_NONE : BitVec 16 := 0

/-- What an offer is of, with the fields of its class. -/
inductive Product
  | disabled
  | outfit (maleLookType femaleLookType : BitVec 16) (addonNumber : BitVec 8)
  | outfitAddon (maleLookType femaleLookType : BitVec 16) (addonNumber : BitVec 8)
  | mount (mountId : BitVec 8)
  | nameChange
  | sexChange
  | promotion
  | premiumTime (days : BitVec 16)
  | teleport (position : Position)
  | blessing (blessings : List (BitVec 8))
  | boostXp
  | boostStamina

/-- An offer without a name or a price is not loaded, and none of no blessings. -/
structure Offer where
  name : String
  price : BitVec 32
  product : Product
  price_ne : price ≠ 0
  blessings_ne : product ≠ .blessing []

inductive GameStoreError
  | purchase | network | history | transfer | information
  deriving DecidableEq, Repr

/-- What is sent to the player's client. -/
inductive Reply
  | storeError (error : GameStoreError) (message : String)
  | requestAdditionalInfo
  | storePurchaseSuccessful (message : String) (balance : BitVec 32)
  deriving DecidableEq, Repr

/-- The player with what offers look at and change. The name and `premdays` are those in the tables
`players` and `accounts`; `blessings` is a vector of eight counts. -/
structure Player where
  self : Mounts.Player
  currentOutfit : Outfit_t := {}
  blessings : Fin 8 → BitVec 8 := fun _ => 0
  vocation : BitVec 16 := VOCATION_NONE
  premiumDays : Int := 0
  alwaysPremium : Bool := false
  premdays : Int := 0
  name : List Char := []
  position : Position
  templePosition : Position
  isConnecting : Bool := false
  noLogout : Bool := false
  protectionZone : Bool := false
  pzLocked : Bool := false
  inFight : Bool := false

/-- What else the server knows: `mounts.xml` and `outfits.xml`, the vocations by their ids with
those that they are promoted from, the monsters and the NPCs by their names, the answers of the
database to the question for a name and to a new one, and those of the tiles to the player. -/
structure Server where
  tables : Tables
  mountName : BitVec 8 → String
  vocationsMap : List (BitVec 16 × BitVec 32)
  getMonsterType : List Char → Bool
  getNpcByName : List Char → Bool
  nameInUse : List Char → Bool
  rename : List Char → Bool
  tile : Position → Option ReturnValue

/-! ### Names -/

/-- `trimString` -/
def trimString (str : List Char) : List Char :=
  (str.rdropWhile (· == ' ')).dropWhile (· == ' ')

/-- `toLowerCaseString` -/
def toLowerCaseString (source : List Char) : List Char := source.map Char.toLower

/-- The loop of `capitalizeWords`, after the character `prev`. -/
def capitalizeAfter : Option Char → List Char → List Char
  | _, [] => []
  | none, c :: rest => c.toUpper :: capitalizeAfter (some c.toUpper) rest
  | some prev, c :: rest =>
      let c := if prev == ' ' || prev == '\'' then c.toUpper else c
      c :: capitalizeAfter (some c) rest

/-- `capitalizeWords`; its counter is a `uint8_t`. -/
def capitalizeWords (source : List Char) : List Char :=
  let source := toLowerCaseString source
  let size := source.length % 256
  capitalizeAfter none (source.take size) ++ source.drop size

inductive NameEval_t
  | valid | invalid | invalidLength | invalidTokenLength | invalidForbidden | invalidCharacter
  deriving DecidableEq, Repr

def prohibitedWords : List (List Char) :=
  ["owner", "gamemaster", "hoster", "admin", "staff", "tibia", "account", "god", "anal", "ass",
    "fuck", "sex", "hitler", "pussy", "dick", "rape", "cm", "gm", "tutor", "counsellor",
    "god"].map String.toList

/-- The loop of `validateName` over the words. -/
def validateTokens : List (List Char) → NameEval_t
  | [] => .valid
  | str :: toks =>
      if str.length < 2 then .invalidTokenLength
      else if str ∈ prohibitedWords then .invalidForbidden
      else validateTokens toks

/-- `validateName` -/
def validateName (name : List Char) : NameEval_t :=
  if name.length < 3 || name.length > 14 then .invalidLength
  else if !name.all fun c => c.isAlpha || c == '\'' || c == ' ' then .invalidCharacter
  else validateTokens (name.splitOnP fun c => c == ' ' || c == '\'')

/-- The message for a name that is not valid. -/
def NameEval_t.responseMessage : NameEval_t → String
  | .invalidLength => "Your new name must be more than 3 and less than 14 characters long."
  | .invalidTokenLength => "Every words of your new name must be at least 2 characters long."
  | .invalidForbidden => "You're using forbidden words in your new name."
  | .invalidCharacter => "Your new name contains invalid characters."
  | .invalid => "Your new name is invalid."
  | .valid => "You have successfully changed you name, you must relog to see changes."

/-! ### The player -/

/-- `Outfits::getOpositeSexOutfitByLookType` -/
def getOpositeSexOutfitByLookType (tables : Tables) (sex : PlayerSex_t) (lookType : BitVec 16) :
    Option Mounts.Outfit :=
  let searchSex := if sex = .male then PlayerSex_t.female else .male
  ((tables.outfits sex).findIdx? fun outfit => outfit.lookType == lookType).bind fun i =>
    (tables.outfits searchSex)[i]?

namespace Player

variable (p : Player)

/-- `Player::addOutfit` -/
def addOutfit (lookType : BitVec 16) (addons : BitVec 8) : Player :=
  { p with self := { p.self with toPlayer := p.self.toPlayer.addOutfit lookType addons } }

/-- `Player::hasBlessing`, with an index into the vector. -/
def hasBlessing (index : BitVec 8) : Option Bool :=
  if h : 1 ≤ index.toNat ∧ index.toNat ≤ 8 then
    some (p.blessings ⟨index.toNat - 1, by omega⟩ != 0)
  else none

/-- `Player::addBlessing`, with an index into the vector. -/
def addBlessing (index count : BitVec 8) : Option Player :=
  if h : 1 ≤ index.toNat ∧ index.toNat ≤ 8 then
    if p.blessings ⟨index.toNat - 1, by omega⟩ = 255 then some p
    else
      some { p with
        blessings := Function.update p.blessings ⟨index.toNat - 1, by omega⟩
          (p.blessings ⟨index.toNat - 1, by omega⟩ + count) }
  else none

/-- `Player::setPremiumDays` -/
def setPremiumDays (v : Int) : Player :=
  { p with
    premiumDays := v
    self := { p.self with isPremium := p.alwaysPremium || decide (0 < v) } }

/-- `Player::canLogout` -/
def canLogout : Bool :=
  if p.isConnecting then false
  else if p.noLogout then false
  else if p.protectionZone then true
  else !p.pzLocked && !p.inFight

/-- `Player::setVocation`, without the condition that heals. -/
def setVocation (env : Server) (vocId : BitVec 16) : Player :=
  if env.vocationsMap.any fun voc => voc.1 == vocId then { p with vocation := vocId } else p

end Player

/-- `Vocations::getPromotedVocation` -/
def getPromotedVocation (env : Server) (vocationId : BitVec 16) : BitVec 16 :=
  match env.vocationsMap.find? fun voc =>
    voc.2 == vocationId.setWidth 32 && voc.1 != vocationId with
  | some voc => voc.1
  | none => VOCATION_NONE

/-- `Player::isPromoted` -/
def isPromoted (env : Server) (p : Player) : Bool :=
  getPromotedVocation env p.vocation == VOCATION_NONE &&
    p.vocation != getPromotedVocation env p.vocation

/-- `Game::internalTeleport` of a player. -/
def internalTeleport (env : Server) (p : Player) (newPos : Position) :
    ReturnValue × Player :=
  if newPos = p.position then (.noError, p)
  else
    match env.tile newPos with
    | none => (.notPossible, p)
    | some ret => if ret ≠ .noError then (ret, p) else (.noError, { p with position := newPos })

/-! ### The offers -/

/-- What a purchase comes to, if it does not run into undefined behaviour. -/
abbrev Outcome := Option (Player × Account × Reply)

section

variable (env : Server) (p : Player) (a : Account) (offer : Offer)

/-- `IOAccount::removeCoins` and `IOAccount::registerTransaction`. -/
def charge : Account := (a.removeCoins offer.price).registerTransaction (-1 * offer.price)

def bought (p : Player) (message : String) : Outcome :=
  some (p, charge a offer, .storePurchaseSuccessful message (charge a offer).getCoinBalance)

def refused (error : GameStoreError) (message : String) : Outcome :=
  some (p, a, .storeError error message)

def buyOutfit (maleLookType femaleLookType : BitVec 16) (addonNumber : BitVec 8) : Outcome :=
  let looktype := if p.self.sex = .male then maleLookType else femaleLookType
  if !p.self.canWear env.tables looktype addonNumber then
    bought a offer (p.addOutfit looktype addonNumber)
      ("You've successfully bought the " ++ offer.name ++ ".")
  else refused p a .network "This outfit seems not to suit you well, we are sorry for that!"

/-- `hasMount` and what follows read the mount, a null pointer where there is none. -/
def buyMount (mountId : BitVec 8) : Outcome :=
  match env.tables.getMountByID mountId with
  | none =>
      if p.self.access then refused p a .purchase "You arealdy own this mount." else none
  | some mount =>
      if p.self.hasMount mount then refused p a .purchase "You arealdy own this mount."
      else if (env.tables.getMountByID mount.id).isNone then
        some (p, (a.removeCoins offer.price).addCoins offer.price, .storeError .purchase
          "An error ocurred processing your purchase. Try again later.")
      else
        bought a offer { p with self := p.self.tameMount env.tables mount.id }
          ("You've successfully bought the " ++ env.mountName mount.id ++ " Mount.")

/-- `additionalInfo` comes with the request when the client has been asked for it. -/
def buyNameChange (additionalInfo : Option (List Char)) : Outcome :=
  match additionalInfo with
  | none => some (p, a, .requestAdditionalInfo)
  | some additionalInfo =>
      let newName := trimString additionalInfo
      if env.nameInUse newName then refused p a .purchase "This name is already in use."
      else
        let newName := toLowerCaseString newName
        if validateName newName ≠ .valid then
          refused p a .purchase (validateName newName).responseMessage
        else if env.getMonsterType newName then
          refused p a .purchase "Your new name cannot be a monster's name."
        else if env.getNpcByName newName then
          refused p a .purchase "Your new name cannot be an NPC's name."
        else
          let newName := capitalizeWords newName
          if env.rename newName then
            bought a offer { p with name := newName }
              "You have successfully changed you name, you must relog to see the changes."
          else
            refused p a .purchase "An error ocurred processing your request, no changes were made."

/-- The loop over the outfits of the player, of which these are to come. An outfit that is put into
the vector makes the iterators of the loop invalid. -/
def addOpositeOutfits (playerSex : PlayerSex_t) : List OutfitEntry → Player → Option Player
  | [], p => some p
  | outfit :: outfits, p =>
      match getOpositeSexOutfitByLookType env.tables playerSex outfit.lookType with
      | none => addOpositeOutfits playerSex outfits p
      | some opositeSexOutfit =>
          if p.self.outfits.any fun entry => entry.lookType == opositeSexOutfit.lookType then
            addOpositeOutfits playerSex outfits (p.addOutfit opositeSexOutfit.lookType 0)
          else none

def buySexChange : Outcome :=
  let playerSex := p.self.sex
  (addOpositeOutfits env playerSex p.self.outfits p).bind fun p =>
    let sex := if playerSex = .female then PlayerSex_t.male else .female
    let playerOutfit := { p.currentOutfit with
      lookType := if playerSex = .female then 128 else 136
      lookAddons := 0 }
    let self := ({ p.self with sex := sex } : Mounts.Player).playerChangeOutfit env.tables
      playerOutfit
    bought a offer { p with self := self }
      ("Your character is now " ++ if playerSex = .female then "male." else "female.")

def buyPromotion : Outcome :=
  if p.self.isPremium && !isPromoted env p then
    let promotedId := getPromotedVocation env p.vocation
    if promotedId = VOCATION_NONE || promotedId = p.vocation then
      refused p a .purchase "Your character cannot be promoted."
    else
      let p := p.setVocation env promotedId
      bought a offer { p with self := p.self.addStorageValue STORAGEVALUE_PROMOTION 1 }
        "You've been promoted! Relog to see the changes."
  else refused p a .purchase "Your character cannot be promoted."

/-- The sum of the days is an `int32_t`. -/
def buyPremiumTime (days : BitVec 16) : Outcome :=
  if p.premiumDays + days.toNat < 2 ^ 31 then
    let p := p.setPremiumDays (p.premiumDays + days.toNat)
    bought a offer { p with premdays := p.premdays + days.toNat }
      ("You've successfully bought " ++ toString days.toNat ++ " days of premium time.")
  else none

def buyTeleport (position : Position) : Outcome :=
  if p.canLogout then
    let toPosition :=
      if position.x = 0 || position.y = 0 || position.z = 0 then p.templePosition else position
    let (returnValue, p') := internalTeleport env p toPosition
    if returnValue ≠ .noError then
      refused p a .purchase "Your character cannot be teleported there at the moment."
    else bought a offer p' "You've successfully been teleported."
  else
    refused p a .purchase
      "Your character has some teleportation block at the moment and cannot be teleported."

/-- The loop over the blessings: what is to be added, unless there is one of them already. -/
def checkBlessings (blessingsToAdd : BitVec 8) :
    List (BitVec 8) → Option (Option (BitVec 8))
  | [] => some (some blessingsToAdd)
  | bless :: blessings =>
      match p.hasBlessing bless with
      | none => none
      | some true => some none
      | some false => checkBlessings bless blessings

def buyBlessing (blessings : List (BitVec 8)) : Outcome :=
  (checkBlessings p 0 blessings).bind fun blessingsToAdd =>
    match blessingsToAdd with
    | none =>
        refused p a .purchase ("Your character already has " ++
          if blessings.length > 1 then "one or more of these blessings." else "this bless.")
    | some blessingsToAdd =>
        (p.addBlessing blessingsToAdd 1).bind fun p =>
          bought a offer p ("You've successfully bought the " ++ offer.name ++ ".")

/-- `Game::playerBuyStoreOffer`, for an offer that is not of items. -/
def playerBuyStoreOffer (offer : Option Offer) (additionalInfo : Option (List Char)) : Outcome :=
  match offer with
  | none => refused p a .network "The offer is either fake or corrupt."
  | some offer =>
      match offer.product with
      | .disabled => refused p a .network "The offer is either fake or corrupt."
      | product =>
          if a.getCoinBalance < offer.price then
            refused p a .purchase "You don't have enough coins"
          else
            match product with
            | .outfit male female addon => buyOutfit env p a offer male female addon
            | .outfitAddon male female addon => buyOutfit env p a offer male female addon
            | .mount mountId => buyMount env p a offer mountId
            | .nameChange => buyNameChange env p a offer additionalInfo
            | .sexChange => buySexChange env p a offer
            | .promotion => buyPromotion env p a offer
            | .premiumTime days => buyPremiumTime p a offer days
            | .teleport position => buyTeleport env p a offer position
            | .blessing blessings => buyBlessing p a offer blessings
            | _ => refused p a .information "JLCVP: NOT YET IMPLEMENTED!"

end

end TibServer.StoreOffers
