import Mathlib.Tactic
import TibServer.Mounts
import TibServer.OutfitStore

/-!
The speed that mounts give. A mounted player has the speed of the mount in the outfit, and the one
that is kept as the current mount has the same, so that it can be taken back from there. One step
breaks this: a mounted player who asks for another mount together with an outfit that cannot be worn
gets the other mount's speed and keeps the look of the first.
-/

namespace TibServer.Mounts

open TibServer.Storage

variable {tables : Tables} {p p' : Player}

/-- Mounts can be told apart by each of their ids, and none of them slows a player down. -/
structure Regular (mounts : List Mount) : Prop where
  ids : (mounts.map Mount.id).Nodup
  clientIds : (mounts.map Mount.clientId).Nodup
  clientId_ne_zero : ∀ mount ∈ mounts, mount.clientId ≠ 0
  speed_nonneg : ∀ mount ∈ mounts, 0 ≤ mount.speed

theorem find?_of_nodup {α β : Type} [DecidableEq β] {f : α → β} {list : List α}
    (h : (list.map f).Nodup) {a : α} (hmem : a ∈ list) :
    (list.find? fun b => f b == f a) = some a := by
  induction list with
  | nil => exact absurd hmem List.not_mem_nil
  | cons b list ih =>
      rw [List.map_cons, List.nodup_cons] at h
      rcases List.mem_cons.1 hmem with rfl | hlater
      · exact List.find?_cons_of_pos (beq_self_eq_true _)
      · have hne : f b ≠ f a := fun heq => h.1 (heq ▸ List.mem_map_of_mem hlater)
        rw [List.find?_cons_of_neg (by rw [beq_iff_eq]; exact hne)]
        exact ih h.2 hlater

theorem getMountByID_id {mount : Mount} (regular : Regular tables.mounts)
    (hmem : mount ∈ tables.mounts) : tables.getMountByID mount.id = some mount :=
  find?_of_nodup regular.ids hmem

theorem getMountByClientID_clientId {mount : Mount} (regular : Regular tables.mounts)
    (hmem : mount ∈ tables.mounts) : tables.getMountByClientID mount.clientId = some mount :=
  find?_of_nodup regular.clientIds hmem

theorem mem_of_getMountByID {mount : Mount} {id : BitVec 8}
    (h : tables.getMountByID id = some mount) : mount ∈ tables.mounts :=
  List.mem_of_find?_eq_some h

theorem mem_of_getMountByClientID {mount : Mount} {clientId : BitVec 16}
    (h : tables.getMountByClientID clientId = some mount) : mount ∈ tables.mounts :=
  List.mem_of_find?_eq_some h

/-! ### The current mount -/

theorem getCurrentMount_setCurrentMount (mount : BitVec 8) :
    (p.setCurrentMount mount).getCurrentMount = mount := by
  have hadd : (p.setCurrentMount mount).toPlayer =
      p.toPlayer.setValue PSTRG_MOUNTS_CURRENTMOUNT (mount.setWidth 32) := by
    show p.toPlayer.addStorageValue PSTRG_MOUNTS_CURRENTMOUNT (mount.setWidth 32) = _
    unfold Storage.Player.addStorageValue
    rw [if_pos (by decide), if_neg (by decide), if_pos (by decide)]
  have hvalue : mount.setWidth 32 ≠ (-1 : BitVec 32) := by
    intro heq
    have hbit := congrArg (fun value => value.getLsbD 31) heq
    simp at hbit
  have hget : (p.setCurrentMount mount).getStorageValue PSTRG_MOUNTS_CURRENTMOUNT =
      some (mount.setWidth 32) := by
    rw [hadd]
    unfold Storage.Player.setValue
    rw [if_pos hvalue]
    exact Std.TreeMap.getElem?_insert_self
  unfold Player.getCurrentMount
  rw [hget]
  dsimp only
  rw [BitVec.setWidth_setWidth_of_le _ (by decide), BitVec.setWidth_eq]

/-- The bits of the mounts are not where the current mount is. -/
theorem getCurrentMount_addStorageValue (mountId : BitVec 8) (value : BitVec 32) :
    (p.addStorageValue (Player.mountKey mountId) value).getCurrentMount = p.getCurrentMount := by
  have hle := (mountId - 1).isLt
  have hkey : Player.mountKey mountId ≠ PSTRG_MOUNTS_CURRENTMOUNT := by
    unfold Player.mountKey PSTRG_MOUNTS_CURRENTMOUNT
    omega
  have hget : (p.addStorageValue (Player.mountKey mountId) value).getStorageValue
      PSTRG_MOUNTS_CURRENTMOUNT = p.getStorageValue PSTRG_MOUNTS_CURRENTMOUNT := by
    show (p.toPlayer.addStorageValue (Player.mountKey mountId) value).storageMap[
      PSTRG_MOUNTS_CURRENTMOUNT]? = p.storageMap[PSTRG_MOUNTS_CURRENTMOUNT]?
    unfold Storage.Player.addStorageValue
    split_ifs
    · rfl
    · exact setValue_of_ne hkey value
    · rfl
    · exact setValue_of_ne hkey value
  unfold Player.getCurrentMount
  rw [hget]

/-! ### The speed -/

/-- The speed that the mounts have given is that of the mount in the outfit. -/
structure Balanced (tables : Tables) (p : Player) : Prop where
  onFoot : p.defaultOutfit.lookMount = 0 → p.varSpeed - p.otherSpeed = 0
  mounted : p.defaultOutfit.lookMount ≠ 0 →
    ∃ mount, tables.getMountByClientID p.defaultOutfit.lookMount = some mount ∧
      p.varSpeed - p.otherSpeed = mount.speed

/-- It can also be taken back. -/
structure Riding (tables : Tables) (p : Player) : Prop extends Balanced tables p where
  current : p.defaultOutfit.lookMount ≠ 0 →
    ∃ mount, tables.getMountByID p.getCurrentMount = some mount ∧
      p.varSpeed - p.otherSpeed = mount.speed

theorem Riding.congr (h : Riding tables p) (hspeed : p'.varSpeed = p.varSpeed)
    (hother : p'.otherSpeed = p.otherSpeed) (houtfit : p'.defaultOutfit = p.defaultOutfit)
    (hcurrent : p'.getCurrentMount = p.getCurrentMount) : Riding tables p' := by
  refine ⟨⟨fun hzero => ?_, fun hne => ?_⟩, fun hne => ?_⟩
  · rw [hspeed, hother]
    exact h.onFoot (houtfit ▸ hzero)
  · rw [hspeed, hother, houtfit]
    exact h.mounted (houtfit ▸ hne)
  · rw [hspeed, hother, hcurrent]
    exact h.current (houtfit ▸ hne)

/-- On foot, the current mount does not matter. -/
theorem Riding.of_onFoot (hzero : p.defaultOutfit.lookMount = 0)
    (hspeed : p.varSpeed - p.otherSpeed = 0) : Riding tables p :=
  ⟨⟨fun _ => hspeed, fun hne => absurd hzero hne⟩, fun hne => absurd hzero hne⟩

theorem isMounted_iff : p.isMounted = true ↔ p.defaultOutfit.lookMount ≠ 0 := bne_iff_ne

theorem dismount_lookMount : (p.dismount tables).defaultOutfit.lookMount = 0 := rfl

/-- What was given is taken back. -/
theorem dismount_speed (regular : Regular tables.mounts) (h : Riding tables p)
    (hmounted : p.isMounted = true) :
    (p.dismount tables).varSpeed - (p.dismount tables).otherSpeed = 0 := by
  obtain ⟨mount, hmount, hspeed⟩ := h.current (isMounted_iff.1 hmounted)
  have hnonneg := regular.speed_nonneg mount (mem_of_getMountByID hmount)
  unfold Player.dismount
  rw [hmount]
  dsimp only
  split_ifs with hpos
  · show p.varSpeed + -mount.speed - p.otherSpeed = 0
    omega
  · show p.varSpeed - p.otherSpeed = 0
    omega

theorem Riding.dismount (regular : Regular tables.mounts) (h : Riding tables p)
    (hmounted : p.isMounted = true) : Riding tables (p.dismount tables) :=
  .of_onFoot dismount_lookMount (dismount_speed regular h hmounted)

theorem Riding.setCurrentMount_of_onFoot (h : Riding tables p) (hmounted : ¬ p.isMounted = true)
    (mount : BitVec 8) : Riding tables (p.setCurrentMount mount) := by
  have hzero : p.defaultOutfit.lookMount = 0 := not_not.1 fun hne => hmounted (isMounted_iff.2 hne)
  exact .of_onFoot hzero (h.onFoot hzero)

/-- From on foot to the current mount. -/
theorem Riding.getOn (regular : Regular tables.mounts) (h : Riding tables p)
    (hmounted : ¬ p.isMounted = true) : Riding tables (p.getOn tables) := by
  have hzero : p.defaultOutfit.lookMount = 0 := not_not.1 fun hne => hmounted (isMounted_iff.2 hne)
  have hbefore := h.onFoot hzero
  unfold Player.getOn
  cases hcurrent : tables.getMountByID p.getCurrentMount with
  | none => exact h
  | some currentMount =>
      have hmem := mem_of_getMountByID hcurrent
      have hriding {p' : Player} (hspeed : p'.varSpeed - p'.otherSpeed = currentMount.speed)
          (hlook : p'.defaultOutfit.lookMount = currentMount.clientId)
          (hsame : p'.getCurrentMount = p.getCurrentMount) : Riding tables p' := by
        refine ⟨⟨fun hno => ?_, fun _ => ⟨currentMount, ?_, hspeed⟩⟩, fun _ =>
          ⟨currentMount, hsame ▸ hcurrent, hspeed⟩⟩
        · exact absurd (hlook.symm.trans hno) (regular.clientId_ne_zero _ hmem)
        · rw [hlook]
          exact getMountByClientID_clientId regular hmem
      dsimp only
      split_ifs with _ _ _ hslow
      · exact h.setCurrentMount_of_onFoot hmounted 0
      · exact h
      · exact h
      · refine hriding ?_ rfl rfl
        show p.varSpeed + currentMount.speed - p.otherSpeed = currentMount.speed
        omega
      · refine hriding ?_ rfl rfl
        show p.varSpeed - p.otherSpeed = currentMount.speed
        omega

theorem Riding.toggleMount (regular : Regular tables.mounts) (h : Riding tables p) (mount : Bool) :
    Riding tables (p.toggleMount tables mount) := by
  unfold Player.toggleMount
  split_ifs with _ _ hfoot _ _ _ hmounted
  · exact h
  · exact h
  · exact h
  · exact h
  · exact h
  · exact h.getOn regular hfoot
  · exact h
  · exact (h.dismount regular (by simpa using hmounted)).congr rfl rfl rfl rfl

/-! ### Another outfit -/

/-- On foot, any outfit without a mount keeps the balance. -/
theorem Riding.wear (hzero : p.defaultOutfit.lookMount = 0)
    (hspeed : p.varSpeed - p.otherSpeed = 0) {outfit : Outfit_t} (houtfit : outfit.lookMount = 0) :
    Riding tables (p.wear tables outfit) := by
  unfold Player.wear
  split_ifs
  · exact .of_onFoot houtfit hspeed
  · exact .of_onFoot hzero hspeed

/-- When a mounted player asks for another mount, the outfit can be worn or the mounts are equally
fast. -/
def Fits (tables : Tables) (p : Player) : Event → Prop
  | .changeOutfit outfit =>
      tables.allowChangeOutfit = true → p.isMounted = true → outfit.lookMount ≠ 0 →
        (tables.getOutfitByLookType p.sex outfit.lookType).isSome = true →
          ∀ mount ∈ tables.getMountByClientID outfit.lookMount, p.hasMount mount = true →
            ∀ prevMount ∈ tables.getMountByID p.getCurrentMount,
              p.canWear tables outfit.lookType outfit.lookAddons = true ∨
                mount.speed = prevMount.speed
  | _ => True

theorem setCurrentMount_canWear (mount : BitVec 8) (lookType : BitVec 16) (addons : BitVec 8) :
    (p.setCurrentMount mount).canWear tables lookType addons = p.canWear tables lookType addons := by
  have houtfits : (p.setCurrentMount mount).outfits = p.outfits := by
    show (p.toPlayer.addStorageValue PSTRG_MOUNTS_CURRENTMOUNT (mount.setWidth 32)).outfits = _
    rw [addStorageValue_outfits, if_neg (by decide), List.append_nil]
  unfold Player.canWear
  rw [houtfits]
  rfl

/-- From one mount to another. -/
theorem Riding.changeMount (regular : Regular tables.mounts) (h : Riding tables p)
    {outfit : Outfit_t} {mount prevMount : Mount} (hmounted : p.isMounted = true)
    (hlook : outfit.lookMount ≠ 0)
    (hmount : tables.getMountByClientID outfit.lookMount = some mount)
    (hprev : tables.getMountByID p.getCurrentMount = some prevMount)
    (hfits : p.canWear tables outfit.lookType outfit.lookAddons = true ∨
      mount.speed = prevMount.speed) :
    Riding tables (((p.changeSpeed (mount.speed - prevMount.speed)).setCurrentMount
      mount.id).wear tables outfit) := by
  obtain ⟨current, hcurrent, hspeed⟩ := h.current (isMounted_iff.1 hmounted)
  rw [hprev, Option.some.injEq] at hcurrent
  subst hcurrent
  have hgiven : p.varSpeed + (mount.speed - prevMount.speed) - p.otherSpeed = mount.speed := by
    omega
  have hback : tables.getMountByID (((p.changeSpeed (mount.speed - prevMount.speed)).setCurrentMount
      mount.id).getCurrentMount) = some mount := by
    rw [getCurrentMount_setCurrentMount]
    exact getMountByID_id regular (mem_of_getMountByClientID hmount)
  unfold Player.wear
  rw [setCurrentMount_canWear]
  split_ifs with hwear
  · exact ⟨⟨fun hno => absurd hno hlook, fun _ => ⟨mount, hmount, hgiven⟩⟩,
      fun _ => ⟨mount, hback, hgiven⟩⟩
  · -- the look of the first mount stays
    have hequal := hfits.resolve_left hwear
    refine ⟨⟨fun hno => absurd hno (isMounted_iff.1 hmounted), fun hne => ?_⟩,
      fun _ => ⟨mount, hback, hgiven⟩⟩
    obtain ⟨named, hnamed, hsame⟩ := h.mounted hne
    refine ⟨named, hnamed, ?_⟩
    show p.varSpeed + (mount.speed - prevMount.speed) - p.otherSpeed = named.speed
    omega

theorem Riding.playerChangeOutfit (regular : Regular tables.mounts) (h : Riding tables p)
    {outfit : Outfit_t} (hfits : Fits tables p (.changeOutfit outfit)) :
    Riding tables (p.playerChangeOutfit tables outfit) := by
  have hfoot (hmounted : ¬ p.isMounted = true) : p.defaultOutfit.lookMount = 0 :=
    not_not.1 fun hne => hmounted (isMounted_iff.2 hne)
  have hplain {outfit : Outfit_t} (hzero : outfit.lookMount = 0) :
      Riding tables (if p.isMounted then (p.dismount tables).wear tables outfit
        else p.wear tables outfit) := by
    split_ifs with hmounted
    · exact .wear dismount_lookMount (dismount_speed regular h hmounted) hzero
    · exact .wear (hfoot hmounted) (h.onFoot (hfoot hmounted)) hzero
  unfold Player.playerChangeOutfit
  by_cases hallow : (!tables.allowChangeOutfit) = true
  · rw [if_pos hallow]
    exact h
  rw [if_neg hallow]
  by_cases hknown : (tables.getOutfitByLookType p.sex outfit.lookType).isNone = true
  · simp only [hknown, if_true, bne_self_eq_false, Bool.false_eq_true, if_false]
    exact hplain rfl
  simp only [hknown, Bool.false_eq_true, if_false]
  by_cases hzero : outfit.lookMount = 0
  · simp only [hzero, bne_self_eq_false, Bool.false_eq_true, if_false]
    exact hplain hzero
  rw [if_pos (bne_iff_ne.2 hzero)]
  cases hmount : tables.getMountByClientID outfit.lookMount with
  | none => exact h
  | some mount =>
      dsimp only
      by_cases hhas : (!p.hasMount mount) = true
      · rw [if_pos hhas]
        exact h
      rw [if_neg hhas]
      by_cases hmounted : p.isMounted = true
      · rw [if_pos hmounted]
        obtain ⟨prevMount, hprev, -⟩ := h.current (isMounted_iff.1 hmounted)
        rw [hprev]
        refine h.changeMount regular hmounted hzero hmount hprev ?_
        exact hfits (by simpa using hallow) hmounted hzero
          (Option.isSome_iff_ne_none.2 fun hnone => hknown (Option.isNone_iff_eq_none.2 hnone))
          mount hmount (by simpa using hhas) prevMount hprev
      · rw [if_neg hmounted]
        exact .wear (p := p.setCurrentMount mount.id) (hfoot hmounted) (h.onFoot (hfoot hmounted)) rfl

/-! ### Runs -/

theorem Riding.untameMount (regular : Regular tables.mounts) (h : Riding tables p)
    (mountId : BitVec 8) : Riding tables (p.untameMount tables mountId) := by
  unfold Player.untameMount
  split_ifs
  · exact h
  · cases p.getStorageValue (Player.mountKey mountId) with
    | none => exact h
    | some value =>
        have hbits : Riding tables (p.addStorageValue (Player.mountKey mountId)
            (value &&& ~~~Player.mountBit mountId)) :=
          h.congr rfl rfl rfl (getCurrentMount_addStorageValue mountId _)
        dsimp only
        split_ifs with _ hmounted
        · exact (hbits.dismount regular hmounted).setCurrentMount_of_onFoot
            (fun hno => isMounted_iff.1 hno dismount_lookMount) 0
        · exact hbits.setCurrentMount_of_onFoot hmounted 0
        · exact hbits

theorem Riding.tameMount (h : Riding tables p) (mountId : BitVec 8) :
    Riding tables (p.tameMount tables mountId) := by
  unfold Player.tameMount
  split_ifs
  · exact h
  · cases p.getStorageValue (Player.mountKey mountId) with
    | none => exact h.congr rfl rfl rfl (getCurrentMount_addStorageValue mountId _)
    | some value => exact h.congr rfl rfl rfl (getCurrentMount_addStorageValue mountId _)

theorem Riding.perform (regular : Regular tables.mounts) (h : Riding tables p) {event : Event}
    (hfits : Fits tables p event) : Riding tables (perform tables p event) := by
  cases event with
  | toggleMount mount => exact h.toggleMount regular mount
  | changeOutfit outfit => exact h.playerChangeOutfit regular hfits
  | tameMount mountId => exact h.tameMount mountId
  | untameMount mountId => exact h.untameMount regular mountId
  | changeZone zone =>
      have hzone : Riding tables { p with zone := zone } := h.congr rfl rfl rfl rfl
      show Riding tables (({ p with zone := zone } : Player).onChangeZone tables zone)
      unfold Player.onChangeZone
      split_ifs with _ hmounted
      · exact (hzone.dismount regular (Bool.and_eq_true_iff.1 hmounted).2).congr rfl rfl rfl rfl
      · exact hzone
      · exact (hzone.toggleMount regular true).congr rfl rfl rfl rfl
      · exact hzone
  | addOutfitCondition =>
      have hcondition : Riding tables { p with hasOutfitCondition := true } :=
        h.congr rfl rfl rfl rfl
      show Riding tables (({ p with hasOutfitCondition := true } : Player).onAddCondition tables)
      unfold Player.onAddCondition
      split_ifs with hmounted
      · exact hcondition.dismount regular hmounted
      · exact hcondition
  | endOutfitCondition => exact h.congr rfl rfl rfl rfl
  | changeSpeed varSpeedDelta =>
      have hsame : p.varSpeed + varSpeedDelta - (p.otherSpeed + varSpeedDelta) =
          p.varSpeed - p.otherSpeed := by
        omega
      refine ⟨⟨fun hzero => hsame.trans (h.onFoot hzero), fun hne => ?_⟩, fun hne => ?_⟩
      · obtain ⟨mount, hmount, hspeed⟩ := h.mounted hne
        exact ⟨mount, hmount, hsame.trans hspeed⟩
      · obtain ⟨mount, hmount, hspeed⟩ := h.current hne
        exact ⟨mount, hmount, hsame.trans hspeed⟩
  | other now outfits isPremium access => exact h.congr rfl rfl rfl rfl

/-- Nothing else breaks the balance, and this always does. -/
theorem not_balanced_of_not_fits (h : Riding tables p) {event : Event}
    (hfits : ¬ Fits tables p event) : ¬ Balanced tables (perform tables p event) := by
  cases event with
  | changeOutfit outfit =>
      unfold Fits at hfits
      push Not at hfits
      obtain ⟨hallow, hmounted, hlook, hknown, mount, hmount, hhas, prevMount, hprev, hwear, hne⟩ :=
        hfits
      obtain ⟨current, hcurrent, hspeed⟩ := h.current (isMounted_iff.1 hmounted)
      obtain ⟨named, hnamed, hsame⟩ := h.mounted (isMounted_iff.1 hmounted)
      rw [Option.mem_def] at hmount hprev
      rw [hprev, Option.some.injEq] at hcurrent
      subst hcurrent
      have hisNone : (tables.getOutfitByLookType p.sex outfit.lookType).isNone = false := by
        rw [← Option.not_isSome, hknown]
        rfl
      have hstep : p.playerChangeOutfit tables outfit =
          (p.changeSpeed (mount.speed - prevMount.speed)).setCurrentMount mount.id := by
        unfold Player.playerChangeOutfit
        rw [hallow, hisNone]
        simp only [Bool.not_true, Bool.false_eq_true, if_false, bne_iff_ne, ne_eq, hlook,
          not_false_eq_true, if_true, hmount, hhas, hmounted, hprev]
        unfold Player.wear
        rw [setCurrentMount_canWear]
        exact if_neg hwear
      show ¬ Balanced tables (p.playerChangeOutfit tables outfit)
      rw [hstep]
      intro hbalanced
      obtain ⟨named', hnamed', hgiven⟩ := hbalanced.mounted (isMounted_iff.1 hmounted)
      have heq : named' = named := Option.some.inj (hnamed'.symm.trans hnamed)
      subst heq
      have hsum : p.varSpeed + (mount.speed - prevMount.speed) - p.otherSpeed = named'.speed :=
        hgiven
      omega
  | _ => exact absurd trivial hfits

/-- **Mounts give and take the same.** As long as nobody who is mounted asks for a mount of another
speed together with an outfit that cannot be worn, the speed from mounts is that of the mount in the
outfit. -/
theorem mount_speed_balanced (regular : Regular tables.mounts)
    (run : Run tables (Fits tables) p) : Balanced tables p := by
  have hriding : Riding tables p := by
    induction run with
    | login stored sex outfit onFoot => exact .of_onFoot onFoot rfl
    | step event _ meets ih => exact ih.perform regular meets
  exact hriding.toBalanced

namespace Sample

def widowQueen : Mount := ⟨1, 368, 20, true⟩
def racingBird : Mount := ⟨2, 369, 10, true⟩

def stable : Tables where
  mounts := [widowQueen, racingBird]
  outfits _ := [⟨128, false, true⟩]
  allowChangeOutfit := true

theorem stable_regular : Regular stable.mounts := by
  refine ⟨by decide, by decide, ?_, ?_⟩
  all_goals
    show ∀ mount ∈ [widowQueen, racingBird], _
    decide

/-- A player gets two mounts and rides on the first. -/
def ridden : List Event :=
  [.tameMount 1, .tameMount 2, .other 5000 [] true false,
    .changeOutfit { lookType := 128, lookMount := 368 }, .toggleMount true]

def rider : Player :=
  ridden.foldl (perform stable) { toPlayer := {}, sex := .male, defaultOutfit := {} }

theorem rider_run : Run stable (Fits stable) rider :=
  (Run.login {} .male {} rfl) |>.step (.tameMount 1) trivial |>.step (.tameMount 2) trivial
    |>.step (.other 5000 [] true false) trivial
    |>.step (.changeOutfit { lookType := 128, lookMount := 368 })
      (fun _ hmounted => absurd hmounted (by decide +kernel))
    |>.step (.toggleMount true) trivial

theorem racing_bird_balanced : Balanced stable
    (perform stable rider (.changeOutfit { lookType := 128, lookMount := 369 })) :=
  mount_speed_balanced stable_regular (rider_run.step _ fun _ _ _ _ _ _ _ _ _ =>
    Or.inl (by decide +kernel))

theorem unworn_mount : ¬ ∀ (tables : Tables) (p : Player), Regular tables.mounts →
    Run tables (fun _ _ => True) p → Balanced tables p := by
  intro h
  have hrun {p : Player} (run : Run stable (Fits stable) p) : Run stable (fun _ _ => True) p := by
    induction run with
    | login stored sex outfit onFoot => exact .login stored sex outfit onFoot
    | step event _ _ ih => exact .step event ih trivial
  -- an addon that the player does not have
  have hbalanced := h stable _ stable_regular ((hrun rider_run).step
    (.changeOutfit { lookType := 128, lookAddons := 1, lookMount := 369 }) trivial)
  obtain ⟨mount, hmount, hspeed⟩ := hbalanced.mounted (by decide +kernel)
  have hnamed : some mount = some widowQueen := hmount.symm.trans (by decide +kernel)
  rw [Option.some.inj hnamed] at hspeed
  exact absurd hspeed (by decide +kernel)

end Sample

end TibServer.Mounts
