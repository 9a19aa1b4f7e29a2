import TibServer.StoreOffers
import TibServer.StorePurchase
import TibServer.OutfitStore

/-!
What the offers of the store give for their coins. An offer grants all that it lists, takes its
price and records it, or does nothing, just when it is not one of several blessings, of which only
the last is given; when its price is no more than a signed number holds; when a mount that is to be
bought exists; and when the other sex has no outfit left that is to be added in the loop over the
outfits.
-/

namespace TibServer.StoreOffers

open Mounts Storage
open Store (Account toInt_price toInt_neg_price)

variable {env : Server} {p p' : Player} {a : Account} {offer : Offer}
  {additionalInfo : Option (List Char)}

/-! ### What an offer is to do -/

/-- Where a teleport leads. -/
def destination (p : Player) (position : Position) : Position :=
  if position.x = 0 || position.y = 0 || position.z = 0 then p.templePosition else position

def lookTypeFor (p : Player) (maleLookType femaleLookType : BitVec 16) : BitVec 16 :=
  if p.self.sex = .male then maleLookType else femaleLookType

/-- Whether there is an outfit entry of the look, the first of which has the addons. -/
def Wears (p : Player) (looktype : BitVec 16) (addons : BitVec 8) : Prop :=
  ∃ entry, p.self.outfits.find? (fun entry => entry.lookType == looktype) = some entry ∧
    entry.addons &&& addons = addons

/-- The outfits of the other sex that stand for those of the player are there. -/
def Counterparts (env : Server) (sex : PlayerSex_t) (outfits held : List OutfitEntry) : Prop :=
  ∀ entry ∈ outfits, ∀ o, getOpositeSexOutfitByLookType env.tables sex entry.lookType = some o →
    ∃ e ∈ held, e.lookType = o.lookType

/-- All that an offer lists has been given. -/
def Product.Granted (env : Server) (additionalInfo : Option (List Char)) (old new : Player) :
    Product → Prop
  | .outfit male female addons => Wears new (lookTypeFor old male female) addons
  | .outfitAddon male female addons => Wears new (lookTypeFor old male female) addons
  | .mount mountId => ∃ value, new.self.getStorageValue (Mounts.Player.mountKey mountId) =
      some value ∧ Mounts.Player.mountBit mountId &&& value ≠ 0
  | .nameChange => ∃ info, additionalInfo = some info ∧
      new.name = capitalizeWords (toLowerCaseString (trimString info))
  | .sexChange => new.self.sex ≠ old.self.sex ∧
      Counterparts env old.self.sex old.self.outfits new.self.outfits
  | .promotion => new.vocation = getPromotedVocation env old.vocation ∧
      new.vocation ≠ VOCATION_NONE ∧ new.self.getStorageValue STORAGEVALUE_PROMOTION = some 1
  | .premiumTime days => new.premiumDays = old.premiumDays + days.toNat ∧
      new.premdays = old.premdays + days.toNat
  | .teleport position => new.position = destination old position
  | .blessing blessings => ∀ bless ∈ blessings, new.hasBlessing bless = some true
  | _ => False

/-- All is granted, the price taken and recorded, or nothing is done. -/
def AllOrNothing (env : Server) (p : Player) (a : Account) (offer : Offer)
    (additionalInfo : Option (List Char)) : Outcome → Prop
  | none => False
  | some (p', a', _) =>
      offer.product.Granted env additionalInfo p p' ∧
          a'.balance = a.balance - offer.price.toNat ∧
          a'.history = a.history ++ [-(offer.price.toNat : Int)] ∨
        p' = p ∧ a'.balance = a.balance ∧ a'.history = a.history

/-! ### When it does -/

/-- Why a new name is not taken. -/
def NameRefused (env : Server) (info : List Char) : Prop :=
  env.nameInUse (trimString info) = true ∨
    validateName (toLowerCaseString (trimString info)) ≠ .valid ∨
    env.getMonsterType (toLowerCaseString (trimString info)) = true ∨
    env.getNpcByName (toLowerCaseString (trimString info)) = true ∨
    env.rename (capitalizeWords (toLowerCaseString (trimString info))) = false

/-- What has to hold for the offer to be an honest one, where there are coins enough for it. -/
def Product.Honest (env : Server) (p : Player) (price : BitVec 32)
    (additionalInfo : Option (List Char)) : Product → Prop
  | .outfit male female addons =>
      p.self.canWear env.tables (lookTypeFor p male female) addons = true ∨ price.toNat < 2 ^ 31
  | .outfitAddon male female addons =>
      p.self.canWear env.tables (lookTypeFor p male female) addons = true ∨ price.toNat < 2 ^ 31
  | .mount mountId => p.self.access = true ∨
      ∃ mount, env.tables.getMountByID mountId = some mount ∧
        (p.self.hasMount mount = true ∨ price.toNat < 2 ^ 31 ∧
          ∀ value, p.self.getStorageValue (Mounts.Player.mountKey mountId) = some value →
            value ||| Mounts.Player.mountBit mountId ≠ -1)
  | .nameChange => ∀ info, additionalInfo = some info →
      NameRefused env info ∨ price.toNat < 2 ^ 31
  | .sexChange => price.toNat < 2 ^ 31 ∧
      Counterparts env p.self.sex p.self.outfits p.self.outfits
  | .promotion => p.self.isPremium = false ∨ isPromoted env p = true ∨
      getPromotedVocation env p.vocation = VOCATION_NONE ∨ price.toNat < 2 ^ 31
  | .premiumTime days => price.toNat < 2 ^ 31 ∧ p.premiumDays + days.toNat < 2 ^ 31
  | .teleport position => p.canLogout = false ∨
      destination p position ≠ p.position ∧ env.tile (destination p position) ≠ some .noError ∨
      price.toNat < 2 ^ 31
  | .blessing blessings =>
      (∃ bless, blessings.find? (fun b => p.hasBlessing b != some false) = some bless ∧
        p.hasBlessing bless = some true) ∨
      price.toNat < 2 ^ 31 ∧
        ∃ bless, (∀ b ∈ blessings, b = bless) ∧ p.hasBlessing bless = some false
  | _ => True

/-! ### Charging -/

section Charge

/-- The price is taken and recorded as it is where a signed number holds it. -/
theorem charge_iff : (charge a offer).balance = a.balance - offer.price.toNat ∧
    (charge a offer).history = a.history ++ [-(offer.price.toNat : Int)] ↔
      offer.price.toNat < 2 ^ 31 := by
  have hbalance : (charge a offer).balance = a.balance - offer.price.toInt := by
    simp only [charge, Account.removeCoins, Account.registerTransaction, Account.balance,
      List.sum_append, List.sum_singleton]
    omega
  have hhistory : (charge a offer).history = a.history ++ [(-1 * offer.price).toInt] := rfl
  rw [hbalance, hhistory]
  constructor
  · rintro ⟨htaken, -⟩
    exact (toInt_price _).1 (by omega)
  · intro hsmall
    exact ⟨by rw [(toInt_price _).2 hsmall], by rw [toInt_neg_price hsmall]⟩

theorem charge_history : (charge a offer).history ≠ a.history := by
  unfold charge Account.removeCoins Account.registerTransaction
  simp

theorem bought_iff {message : String} :
    AllOrNothing env p a offer additionalInfo (bought a offer p' message) ↔
      offer.product.Granted env additionalInfo p p' ∧ offer.price.toNat < 2 ^ 31 := by
  have hcases : AllOrNothing env p a offer additionalInfo (bought a offer p' message) ↔
      offer.product.Granted env additionalInfo p p' ∧
          (charge a offer).balance = a.balance - offer.price.toNat ∧
          (charge a offer).history = a.history ++ [-(offer.price.toNat : Int)] ∨
        p' = p ∧ (charge a offer).balance = a.balance ∧
          (charge a offer).history = a.history := Iff.rfl
  rw [hcases, or_iff_left fun h => charge_history h.2.2, charge_iff]

theorem refused_iff {error : GameStoreError} {message : String} :
    AllOrNothing env p a offer additionalInfo (refused p a error message) ↔ True :=
  iff_of_true (.inr ⟨rfl, rfl, rfl⟩) trivial

end Charge

/-! ### Outfits and mounts -/

theorem addOutfit_wears (looktype : BitVec 16) (addons : BitVec 8) :
    Wears (p.addOutfit looktype addons) looktype addons := by
  change ∃ entry, (Storage.Player.addOutfit.go looktype addons p.self.outfits).find? _ = _ ∧ _
  induction p.self.outfits with
  | nil => exact ⟨⟨looktype, addons⟩, by simp [Storage.Player.addOutfit.go], by simp⟩
  | cons entry outfits ih =>
      rw [Storage.Player.addOutfit.go]
      split_ifs with hlook
      · refine ⟨{ entry with addons := entry.addons ||| addons }, ?_, ?_⟩
        · rw [List.find?_cons_of_pos (by simpa using hlook)]
        · ext i
          simp
          grind
      · rwa [List.find?_cons_of_neg (by simpa using hlook)]

section Kinds

theorem outfit_iff {male female : BitVec 16} {addons : BitVec 8}
    (hproduct : ∀ new, offer.product.Granted env additionalInfo p new ↔
      Wears new (lookTypeFor p male female) addons) :
    AllOrNothing env p a offer additionalInfo (buyOutfit env p a offer male female addons) ↔
      p.self.canWear env.tables (lookTypeFor p male female) addons = true ∨
        offer.price.toNat < 2 ^ 31 := by
  unfold buyOutfit
  rw [← lookTypeFor]
  cases hwear : p.self.canWear env.tables (lookTypeFor p male female) addons with
  | true => simp [hwear, refused_iff]
  | false =>
      simp only [hwear, Bool.not_false, if_true, bought_iff, hproduct]
      simp [addOutfit_wears]

/-! ### Storage values -/

theorem getStorageValue_setValue (q : Storage.Player) (key : Nat) (value : BitVec 32) :
    (q.setValue key value).getStorageValue key = if value ≠ -1 then some value else none := by
  unfold Storage.Player.setValue
  split_ifs
  · exact Std.TreeMap.getElem?_insert_self
  · exact Std.TreeMap.getElem?_erase_self

/-- The keys of the mounts lie in their part of the reserved range. -/
theorem getStorageValue_addMount (q : Mounts.Player) (mountId : BitVec 8) (value : BitVec 32) :
    (q.addStorageValue (Mounts.Player.mountKey mountId) value).getStorageValue
      (Mounts.Player.mountKey mountId) = if value ≠ -1 then some value else none := by
  have hid := (mountId - 1).isLt
  have hreserved : isReserved (Mounts.Player.mountKey mountId) = true := by
    refine isInKeyRange_iff.2 ?_
    unfold Mounts.Player.mountKey PSTRG_MOUNTS_RANGE_START PSTRG_RESERVED_RANGE_START
      PSTRG_RESERVED_RANGE_SIZE
    omega
  have houtfit : isOutfitKey (Mounts.Player.mountKey mountId) = false := by
    rw [← Bool.not_eq_true, isOutfitKey_iff]
    unfold Mounts.Player.mountKey PSTRG_MOUNTS_RANGE_START PSTRG_RESERVED_RANGE_START
    omega
  have hmount : isMountKey (Mounts.Player.mountKey mountId) = true := by
    refine isInKeyRange_iff.2 ?_
    unfold Mounts.Player.mountKey PSTRG_MOUNTS_RANGE_START PSTRG_RESERVED_RANGE_START
      PSTRG_MOUNTS_RANGE_SIZE
    omega
  have hadded : (q.addStorageValue (Mounts.Player.mountKey mountId) value).toPlayer =
      q.toPlayer.setValue (Mounts.Player.mountKey mountId) value := by
    change q.toPlayer.addStorageValue (Mounts.Player.mountKey mountId) value = _
    unfold Storage.Player.addStorageValue
    rw [if_pos hreserved, houtfit, if_neg Bool.false_ne_true, if_pos hmount]
  rw [hadded]
  exact getStorageValue_setValue q.toPlayer _ value

theorem mountBit_ne (mountId : BitVec 8) :
    Mounts.Player.mountBit mountId ≠ 0 ∧ Mounts.Player.mountBit mountId ≠ -1 := by
  unfold Mounts.Player.mountBit
  have hlt : (mountId - 1).toNat % 31 < 31 := Nat.mod_lt _ (by omega)
  generalize (mountId - 1).toNat % 31 = n at hlt
  interval_cases n <;> decide

theorem tameMount_granted {q : Mounts.Player} {mountId : BitVec 8} {mount : Mount}
    (hmount : env.tables.getMountByID mountId = some mount) :
    (∃ value, (q.tameMount env.tables mountId).getStorageValue (Mounts.Player.mountKey mountId) =
      some value ∧ Mounts.Player.mountBit mountId &&& value ≠ 0) ↔
    ∀ value, q.getStorageValue (Mounts.Player.mountKey mountId) = some value →
      value ||| Mounts.Player.mountBit mountId ≠ -1 := by
  obtain ⟨hzero, hall⟩ := mountBit_ne mountId
  unfold Mounts.Player.tameMount
  rw [hmount, if_neg (by simp)]
  cases hold : q.getStorageValue (Mounts.Player.mountKey mountId) with
  | none =>
      dsimp only
      rw [getStorageValue_addMount, if_pos hall]
      refine iff_of_true ⟨_, rfl, ?_⟩ (by simp)
      rwa [BitVec.and_self]
  | some value =>
      dsimp only
      rw [getStorageValue_addMount]
      constructor
      · rintro ⟨new, hnew, -⟩ old hsame hones
        obtain rfl := Option.some.inj hsame
        rw [if_neg (not_not.2 hones)] at hnew
        exact Option.some_ne_none _ hnew.symm
      · intro hfits
        refine ⟨value ||| Mounts.Player.mountBit mountId, if_pos (hfits value rfl), ?_⟩
        have habsorb : Mounts.Player.mountBit mountId &&&
            (value ||| Mounts.Player.mountBit mountId) = Mounts.Player.mountBit mountId := by
          ext i
          simp
          grind
        rwa [habsorb]

theorem mount_iff {mountId : BitVec 8}
    (hproduct : offer.product = .mount mountId) :
    AllOrNothing env p a offer additionalInfo (buyMount env p a offer mountId) ↔
      (Product.mount mountId).Honest env p offer.price additionalInfo := by
  unfold buyMount
  cases hmount : env.tables.getMountByID mountId with
  | none =>
      cases haccess : p.self.access with
      | true => simp [refused_iff, Product.Honest, haccess]
      | false => simp [AllOrNothing, Product.Honest, haccess, hmount]
  | some mount =>
      have hid : mount.id = mountId := by
        simpa using List.find?_some hmount
      dsimp only
      cases hhas : p.self.hasMount mount with
      | true =>
          rw [if_pos rfl, refused_iff]
          exact iff_of_true trivial (.inr ⟨mount, hmount, .inl hhas⟩)
      | false =>
          have haccess : p.self.access = false := by
            by_contra haccess
            rw [Mounts.Player.hasMount, if_pos (by simpa using haccess)] at hhas
            exact Bool.noConfusion hhas
          rw [if_neg Bool.false_ne_true, hid, hmount, if_neg (by simp), bought_iff, hproduct]
          simp only [Product.Granted, Product.Honest, tameMount_granted hmount, haccess, hmount,
            Bool.false_eq_true, false_or, Option.some.injEq, exists_eq_left', hhas]
          exact and_comm

/-! ### Names, sexes and vocations -/

theorem nameChange_iff (hproduct : offer.product = .nameChange) :
    AllOrNothing env p a offer additionalInfo (buyNameChange env p a offer additionalInfo) ↔
      Product.nameChange.Honest env p offer.price additionalInfo := by
  unfold buyNameChange
  cases additionalInfo with
  | none =>
      refine iff_of_true (.inr ⟨rfl, rfl, rfl⟩) fun info h => ?_
      exact absurd h.symm (Option.some_ne_none info)
  | some info =>
      have hhonest : Product.nameChange.Honest env p offer.price (some info) ↔
          NameRefused env info ∨ offer.price.toNat < 2 ^ 31 :=
        ⟨fun h => h info rfl, fun h i hi => Option.some.inj hi ▸ h⟩
      rw [hhonest]
      dsimp only
      split
      · next huse => exact iff_of_true (refused_iff.2 trivial) (.inl (.inl huse))
      next huse =>
      split
      · next hvalid => exact iff_of_true (refused_iff.2 trivial) (.inl (.inr (.inl hvalid)))
      next hvalid =>
      split
      · next hmonster =>
          exact iff_of_true (refused_iff.2 trivial) (.inl (.inr (.inr (.inl hmonster))))
      next hmonster =>
      split
      · next hnpc =>
          exact iff_of_true (refused_iff.2 trivial) (.inl (.inr (.inr (.inr (.inl hnpc)))))
      next hnpc =>
      split
      · next hrename =>
          have hfree : ¬ NameRefused env info := by
            rintro (h | h | h | h | h)
            · exact huse h
            · exact hvalid h
            · exact hmonster h
            · exact hnpc h
            · rw [hrename] at h
              exact Bool.noConfusion h
          rw [bought_iff, hproduct, or_iff_right hfree]
          exact and_iff_right ⟨info, rfl, rfl⟩
      · next hrename =>
          refine iff_of_true (refused_iff.2 trivial) (.inl (.inr (.inr (.inr (.inr ?_)))))
          exact Bool.eq_false_of_not_eq_true hrename

/-- The sex and the outfits of a player are the same. -/
structure SameLooks (q q' : Mounts.Player) : Prop where
  sex : q'.sex = q.sex
  outfits : q'.outfits = q.outfits

theorem SameLooks.trans {q q' q'' : Mounts.Player} (h : SameLooks q q') (h' : SameLooks q' q'') :
    SameLooks q q'' := ⟨h'.sex.trans h.sex, h'.outfits.trans h.outfits⟩

theorem wear_looks (q : Mounts.Player) (outfit : Outfit_t) :
    SameLooks q (q.wear env.tables outfit) := by
  unfold Mounts.Player.wear
  split_ifs
  · exact ⟨rfl, rfl⟩
  · exact ⟨rfl, rfl⟩

theorem dismount_looks (q : Mounts.Player) : SameLooks q (q.dismount env.tables) := by
  unfold Mounts.Player.dismount
  cases env.tables.getMountByID q.getCurrentMount with
  | none => exact ⟨rfl, rfl⟩
  | some mount =>
      dsimp only
      split_ifs
      · exact ⟨rfl, rfl⟩
      · exact ⟨rfl, rfl⟩

theorem setCurrentMount_looks (q : Mounts.Player) (mountId : BitVec 8) :
    SameLooks q (q.setCurrentMount mountId) := by
  refine ⟨rfl, ?_⟩
  change (q.toPlayer.addStorageValue PSTRG_MOUNTS_CURRENTMOUNT _).outfits = _
  rw [addStorageValue_outfits, if_neg (by decide), List.append_nil]

theorem playerChangeOutfit_looks (q : Mounts.Player) (outfit : Outfit_t) :
    SameLooks q (q.playerChangeOutfit env.tables outfit) := by
  have hself : SameLooks q q := ⟨rfl, rfl⟩
  unfold Mounts.Player.playerChangeOutfit
  split
  · exact hself
  generalize (if (env.tables.getOutfitByLookType q.sex outfit.lookType).isNone then
    { outfit with lookMount := 0 } else outfit : Outfit_t) = worn
  dsimp only
  split
  · cases env.tables.getMountByClientID worn.lookMount with
    | none => exact hself
    | some mount =>
        dsimp only
        split
        · exact hself
        · split
          · cases env.tables.getMountByID q.getCurrentMount with
            | none => exact (setCurrentMount_looks q mount.id).trans (wear_looks _ worn)
            | some prevMount =>
                have hspeed : SameLooks q (q.changeSpeed (mount.speed - prevMount.speed)) :=
                  ⟨rfl, rfl⟩
                exact (hspeed.trans (setCurrentMount_looks _ mount.id)).trans (wear_looks _ worn)
          · exact (setCurrentMount_looks q mount.id).trans (wear_looks _ _)
  · split
    · exact (dismount_looks q).trans (wear_looks _ worn)
    · exact wear_looks q worn

theorem addOutfit_present {lookType : BitVec 16} {outfits : List OutfitEntry}
    (h : ∃ e ∈ outfits, e.lookType = lookType) :
    Storage.Player.addOutfit.go lookType 0 outfits = outfits := by
  induction outfits with
  | nil => simp at h
  | cons entry outfits ih =>
      rw [Storage.Player.addOutfit.go]
      split_ifs with hlook
      · rw [show entry.addons ||| 0 = entry.addons from BitVec.or_zero]
      · obtain ⟨e, he, hsame⟩ := h
        rcases List.mem_cons.1 he with rfl | he
        · exact absurd hsame hlook
        · rw [ih ⟨e, he, hsame⟩]

/-- As long as every counterpart is there the loop changes nothing; otherwise it breaks off. -/
theorem addOpositeOutfits_cases (sex : PlayerSex_t) (outfits : List OutfitEntry) :
    Counterparts env sex outfits p.self.outfits ∧
        addOpositeOutfits env sex outfits p = some p ∨
      ¬ Counterparts env sex outfits p.self.outfits ∧
        addOpositeOutfits env sex outfits p = none := by
  induction outfits with
  | nil => exact .inl ⟨fun entry h => absurd h List.not_mem_nil, rfl⟩
  | cons entry outfits ih =>
      have hcons : Counterparts env sex (entry :: outfits) p.self.outfits ↔
          (∀ o, getOpositeSexOutfitByLookType env.tables sex entry.lookType = some o →
            ∃ e ∈ p.self.outfits, e.lookType = o.lookType) ∧
          Counterparts env sex outfits p.self.outfits := List.forall_mem_cons
      rw [hcons, addOpositeOutfits]
      cases hoposite : getOpositeSexOutfitByLookType env.tables sex entry.lookType with
      | none =>
          rw [and_iff_right fun o h => absurd h.symm (Option.some_ne_none o)]
          exact ih
      | some o =>
          dsimp only
          split
          · next hheld =>
              have hthere : ∃ e ∈ p.self.outfits, e.lookType = o.lookType := by
                simpa [List.any_eq_true] using hheld
              have hsame : p.addOutfit o.lookType 0 = p := by
                unfold Player.addOutfit Storage.Player.addOutfit
                rw [addOutfit_present hthere]
              rw [hsame, and_iff_right fun o' h => Option.some.inj h ▸ hthere]
              exact ih
          · next hheld =>
              refine .inr ⟨fun h => hheld ?_, rfl⟩
              obtain ⟨e, he, hlook⟩ := h.1 o rfl
              exact List.any_eq_true.2 ⟨e, he, beq_iff_eq.2 hlook⟩

theorem sexChange_iff (hproduct : offer.product = .sexChange) :
    AllOrNothing env p a offer additionalInfo (buySexChange env p a offer) ↔
      Product.sexChange.Honest env p offer.price additionalInfo := by
  unfold buySexChange
  dsimp only
  rcases @addOpositeOutfits_cases env p p.self.sex p.self.outfits with
    ⟨hthere, hloop⟩ | ⟨hlack, hloop⟩
  · rw [hloop, Option.bind_some, bought_iff, hproduct]
    have hlooks := @playerChangeOutfit_looks env
      { p.self with sex := if p.self.sex = .female then .male else .female }
      { p.currentOutfit with
        lookType := if p.self.sex = .female then 128 else 136
        lookAddons := 0 }
    refine ⟨fun h => ⟨h.2, hthere⟩, fun h => ⟨⟨?_, ?_⟩, h.1⟩⟩
    · rw [hlooks.sex]
      dsimp only
      cases p.self.sex
      · decide
      · decide
    · rw [hlooks.outfits]
      exact hthere
  · rw [hloop, Option.bind_none]
    exact iff_of_false (fun h => h) fun h => hlack h.2

/-- A vocation that others are promoted to is there. -/
theorem setVocation_promoted {q : Player}
    (h : getPromotedVocation env p.vocation ≠ VOCATION_NONE) :
    (q.setVocation env (getPromotedVocation env p.vocation)).vocation =
      getPromotedVocation env p.vocation := by
  have hmem : (env.vocationsMap.any fun voc =>
      voc.1 == getPromotedVocation env p.vocation) = true := by
    unfold getPromotedVocation at h ⊢
    split at h
    · next voc hvoc =>
        exact List.any_eq_true.2 ⟨voc, List.mem_of_find?_eq_some hvoc, beq_self_eq_true _⟩
    · exact absurd rfl h
  rw [Player.setVocation, if_pos hmem]

theorem getPromotedVocation_ne (h : getPromotedVocation env p.vocation ≠ VOCATION_NONE) :
    getPromotedVocation env p.vocation ≠ p.vocation := by
  unfold getPromotedVocation at h ⊢
  split at h
  · next voc hvoc =>
      have hfound := List.find?_some hvoc
      simp only [Bool.and_eq_true, bne_iff_ne] at hfound
      exact hfound.2
  · exact absurd rfl h

theorem getStorageValue_promotion (q : Mounts.Player) :
    (q.addStorageValue STORAGEVALUE_PROMOTION 1).getStorageValue STORAGEVALUE_PROMOTION =
      some 1 := by
  have hadded : (q.addStorageValue STORAGEVALUE_PROMOTION 1).toPlayer =
      q.toPlayer.setValue STORAGEVALUE_PROMOTION 1 := by
    change q.toPlayer.addStorageValue STORAGEVALUE_PROMOTION 1 = _
    unfold Storage.Player.addStorageValue
    rw [if_neg (by decide)]
  rw [hadded]
  exact getStorageValue_setValue q.toPlayer _ 1

theorem promotion_iff (hproduct : offer.product = .promotion) :
    AllOrNothing env p a offer additionalInfo (buyPromotion env p a offer) ↔
      Product.promotion.Honest env p offer.price additionalInfo := by
  unfold buyPromotion
  split
  · next hready =>
      rw [Bool.and_eq_true, Bool.not_eq_true'] at hready
      dsimp only
      split
      · next hno =>
          refine iff_of_true (refused_iff.2 trivial) (.inr (.inr (.inl ?_)))
          by_contra hsome
          rw [Bool.or_eq_true, decide_eq_true_eq, decide_eq_true_eq] at hno
          exact hno.elim hsome (getPromotedVocation_ne hsome)
      · next hno =>
          rw [Bool.or_eq_true, decide_eq_true_eq, decide_eq_true_eq, not_or] at hno
          rw [bought_iff, hproduct]
          have hstored := getStorageValue_promotion
            (p.setVocation env (getPromotedVocation env p.vocation)).self
          constructor
          · exact fun h => .inr (.inr (.inr h.2))
          · rintro (h | h | h | h)
            · rw [hready.1] at h
              exact Bool.noConfusion h
            · rw [hready.2] at h
              exact Bool.noConfusion h
            · exact absurd h hno.1
            · have hvocation := setVocation_promoted (q := p) hno.1
              exact ⟨⟨hvocation, fun hnone => hno.1 (hvocation.symm.trans hnone), hstored⟩, h⟩
  · next hready =>
      refine iff_of_true (refused_iff.2 trivial) ?_
      rw [Bool.and_eq_true, Bool.not_eq_true', not_and_or] at hready
      rcases hready with h | h
      · exact .inl (Bool.eq_false_of_not_eq_true h)
      · exact .inr (.inl (Bool.eq_true_of_not_eq_false h))

/-! ### Time and place -/

theorem premiumTime_iff {days : BitVec 16} (hproduct : offer.product = .premiumTime days) :
    AllOrNothing env p a offer additionalInfo (buyPremiumTime p a offer days) ↔
      (Product.premiumTime days).Honest env p offer.price additionalInfo := by
  unfold buyPremiumTime
  split
  · next hfits =>
      rw [bought_iff, hproduct]
      exact ⟨fun h => ⟨h.2, hfits⟩, fun h => ⟨⟨rfl, rfl⟩, h.1⟩⟩
  · next hfits => exact iff_of_false (fun h => h) fun h => hfits h.2

theorem internalTeleport_cases (pos : Position) :
    internalTeleport env p pos = (.noError, { p with position := pos }) ∧
        (pos = p.position ∨ env.tile pos = some .noError) ∨
      ∃ ret, ret ≠ .noError ∧ internalTeleport env p pos = (ret, p) ∧
        pos ≠ p.position ∧ env.tile pos ≠ some .noError := by
  unfold internalTeleport
  split_ifs with hhere
  · exact .inl ⟨by rw [hhere], .inl hhere⟩
  · cases htile : env.tile pos with
    | none => exact .inr ⟨_, by decide, rfl, hhere, (Option.some_ne_none _).symm⟩
    | some ret =>
        dsimp only
        split_ifs with hret
        · exact .inr ⟨ret, hret, rfl, hhere, fun h => hret (Option.some.inj h)⟩
        · exact .inl ⟨rfl, .inr (by rw [not_not.1 hret])⟩

theorem teleport_iff {position : Position} (hproduct : offer.product = .teleport position) :
    AllOrNothing env p a offer additionalInfo (buyTeleport env p a offer position) ↔
      (Product.teleport position).Honest env p offer.price additionalInfo := by
  unfold buyTeleport
  split
  · next hout =>
      dsimp only
      rw [← destination]
      rcases @internalTeleport_cases env p (destination p position) with
        ⟨hmoved, hopen⟩ | ⟨ret, hret, hstays, hclosed⟩
      · rw [hmoved]
        dsimp only
        rw [if_neg (by simp), bought_iff, hproduct]
        refine ⟨fun h => .inr (.inr h.2), ?_⟩
        rintro (h | h | h)
        · rw [hout] at h
          exact Bool.noConfusion h
        · exact absurd hopen (not_or.2 h)
        · exact ⟨rfl, h⟩
      · rw [hstays]
        dsimp only
        rw [if_pos hret]
        exact iff_of_true (refused_iff.2 trivial) (.inr (.inl hclosed))
  · next hout =>
      exact iff_of_true (refused_iff.2 trivial) (.inl (Bool.eq_false_of_not_eq_true hout))

/-! ### Blessings -/

theorem hasBlessing_addBlessing {bless : BitVec 8} (h : p.hasBlessing bless = some false) :
    ∃ p', p.addBlessing bless 1 = some p' ∧ ∀ other,
      p'.hasBlessing other = some true ↔ other = bless ∨ p.hasBlessing other = some true := by
  unfold Player.hasBlessing at h
  split at h
  · next hbless =>
      have hzero : p.blessings ⟨bless.toNat - 1, by omega⟩ = 0 := by simpa using h
      unfold Player.addBlessing
      rw [dif_pos hbless, hzero, if_neg (by decide)]
      refine ⟨_, rfl, fun other => ?_⟩
      unfold Player.hasBlessing
      split
      · next hother =>
          by_cases hsame : other = bless
          · subst hsame
            dsimp only
            rw [Function.update_self]
            exact iff_of_true rfl (.inl rfl)
          · have hindex : (⟨other.toNat - 1, by omega⟩ : Fin 8) ≠ ⟨bless.toNat - 1, by omega⟩ := by
              intro heq
              have hval := Fin.mk.inj_iff.1 heq
              exact hsame (BitVec.eq_of_toNat_eq (by omega))
            dsimp only
            rw [Function.update_of_ne hindex, or_iff_right hsame]
      · next hother =>
          refine iff_of_false (fun h => Option.some_ne_none _ h.symm) ?_
          rintro (rfl | h)
          · exact hother hbless
          · exact Option.some_ne_none _ h.symm
  · exact absurd h.symm (Option.some_ne_none _)

/-- The loop stops at the first number that is none of a blessing, or of one that is there, or comes
to the last. -/
theorem checkBlessings_eq (blessings : List (BitVec 8)) (add : BitVec 8) :
    checkBlessings p add blessings =
      match blessings.find? fun b => p.hasBlessing b != some false with
      | some bless => (p.hasBlessing bless).map fun _ => none
      | none => some (some (blessings.getLast?.getD add)) := by
  induction blessings generalizing add with
  | nil => rfl
  | cons bless blessings ih =>
      rw [checkBlessings]
      cases hhas : p.hasBlessing bless with
      | none =>
          rw [List.find?_cons_of_pos (by simp [hhas])]
          dsimp only
          rw [hhas, Option.map_none]
      | some has =>
          cases has with
          | true =>
              rw [List.find?_cons_of_pos (by simp [hhas])]
              dsimp only
              rw [hhas, Option.map_some]
          | false =>
              dsimp only
              rw [ih, List.find?_cons_of_neg (by simp [hhas]), List.getLast?_cons,
                Option.getD_some]

theorem blessing_iff {blessings : List (BitVec 8)}
    (hproduct : offer.product = .blessing blessings) :
    AllOrNothing env p a offer additionalInfo (buyBlessing p a offer blessings) ↔
      (Product.blessing blessings).Honest env p offer.price additionalInfo := by
  have hsome : blessings ≠ [] := fun hnil => offer.blessings_ne (hnil ▸ hproduct)
  unfold buyBlessing
  rw [checkBlessings_eq]
  simp only [Product.Honest]
  cases hfound : blessings.find? fun b => p.hasBlessing b != some false with
  | some bless =>
      have hmem := List.mem_of_find?_eq_some hfound
      have hbless := List.find?_some hfound
      rw [bne_iff_ne] at hbless
      have hnot : ¬ (offer.price.toNat < 2 ^ 31 ∧
          ∃ bless, (∀ b ∈ blessings, b = bless) ∧ p.hasBlessing bless = some false) := by
        rintro ⟨-, b, hsame, hb⟩
        rw [← hsame bless hmem] at hb
        exact hbless hb
      rw [or_iff_left hnot]
      dsimp only
      cases hhas : p.hasBlessing bless with
      | none =>
          rw [Option.map_none, Option.bind_none]
          refine iff_of_false (fun h => h) ?_
          rintro ⟨b, hb, htrue⟩
          rw [← Option.some.inj hb, hhas] at htrue
          exact Option.some_ne_none _ htrue.symm
      | some has =>
          cases has with
          | false => exact absurd hhas hbless
          | true =>
              rw [Option.map_some, Option.bind_some]
              exact iff_of_true (refused_iff.2 trivial) ⟨bless, rfl, hhas⟩
  | none =>
      have hfree : ∀ b ∈ blessings, p.hasBlessing b = some false := by
        simpa using List.find?_eq_none.1 hfound
      obtain ⟨last, hlast⟩ := Option.ne_none_iff_exists'.1
        (mt List.getLast?_eq_none_iff.1 hsome)
      have hmem := List.mem_of_getLast? hlast
      obtain ⟨p', hadd, hadded⟩ := hasBlessing_addBlessing (hfree last hmem)
      rw [hlast]
      dsimp only [Option.bind_some, Option.getD_some]
      rw [hadd, Option.bind_some, bought_iff, hproduct, or_iff_right (by simp)]
      rw [and_comm]
      refine and_congr_right fun _ => ⟨fun hgranted => ⟨last, fun b hb => ?_, hfree last hmem⟩, ?_⟩
      · rcases (hadded b).1 (hgranted b hb) with hsame | hhas
        · exact hsame
        · rw [hfree b hb] at hhas
          exact absurd (Option.some.inj hhas) (by decide)
      · rintro ⟨bless, hsame, -⟩ b hb
        exact (hadded b).2 (.inl ((hsame b hb).trans (hsame last hmem).symm))

end Kinds

/-! ### All of them -/

/-- An offer grants all, takes its price and records it, or does nothing, just when there are not
coins enough or it is an honest one. -/
theorem offer_all_or_nothing (env : Server) (p : Player) (a : Account) (offer : Offer)
    (additionalInfo : Option (List Char)) :
    AllOrNothing env p a offer additionalInfo
        (playerBuyStoreOffer env p a (some offer) additionalInfo) ↔
      a.coins < offer.price ∨ offer.product.Honest env p offer.price additionalInfo := by
  unfold playerBuyStoreOffer
  dsimp only
  have hpoor : ∀ {o : Outcome} {product : Product},
      (AllOrNothing env p a offer additionalInfo o ↔
        product.Honest env p offer.price additionalInfo) →
      (AllOrNothing env p a offer additionalInfo
        (if a.getCoinBalance < offer.price then refused p a .purchase "You don't have enough coins"
          else o) ↔
        a.coins < offer.price ∨ product.Honest env p offer.price additionalInfo) := by
    intro o product h
    rw [Account.getCoinBalance]
    by_cases hcoins : a.coins < offer.price
    · rw [if_pos hcoins]
      exact iff_of_true (refused_iff.2 trivial) (.inl hcoins)
    · rw [if_neg hcoins, or_iff_right hcoins]
      exact h
  cases hproduct : offer.product with
  | disabled => exact iff_of_true (refused_iff.2 trivial) (.inr trivial)
  | outfit male female addons => exact hpoor (outfit_iff fun new => by rw [hproduct]; rfl)
  | outfitAddon male female addons => exact hpoor (outfit_iff fun new => by rw [hproduct]; rfl)
  | mount mountId => exact hpoor (mount_iff hproduct)
  | nameChange => exact hpoor (nameChange_iff hproduct)
  | sexChange => exact hpoor (sexChange_iff hproduct)
  | promotion => exact hpoor (promotion_iff hproduct)
  | premiumTime days => exact hpoor (premiumTime_iff hproduct)
  | teleport position => exact hpoor (teleport_iff hproduct)
  | blessing blessings => exact hpoor (blessing_iff hproduct)
  | boostXp => exact hpoor refused_iff
  | boostStamina => exact hpoor refused_iff

/-! ### Two blessings -/

namespace Sample

def store : Server where
  tables := { mounts := [], outfits := fun _ => [], allowChangeOutfit := true }
  mountName _ := ""
  vocationsMap := []
  getMonsterType _ := false
  getNpcByName _ := false
  nameInUse _ := false
  rename _ := true
  tile _ := none

def pilgrim : Player where
  self := {}
  position := ⟨100, 100, 7⟩
  templePosition := ⟨100, 100, 7⟩

def twoBlessings : Offer where
  name := "Blessings"
  price := 25
  product := .blessing [1, 2]
  price_ne := by decide
  blessings_ne h := by injection h with h; simp at h

/-- The first of two blessings is paid for, but not given. -/
theorem first_blessing_lost :
    ¬ AllOrNothing store pilgrim { coins := 100 } twoBlessings none
      (playerBuyStoreOffer store pilgrim { coins := 100 } (some twoBlessings) none) := by
  intro h
  rcases h with ⟨hgranted, -⟩ | ⟨-, -, hhistory⟩
  · have hfirst := hgranted 1 (by decide)
    exact absurd hfirst (by decide)
  · exact absurd hhistory (by decide)

end Sample

end TibServer.StoreOffers
