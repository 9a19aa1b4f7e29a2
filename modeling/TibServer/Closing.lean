import TibServer.Trading
import Mathlib.Logic.Relation

/-!
What the item operations do to the trades: they close some of them, and never
do anything else. Whatever holds of a closed trade holds after them.
-/

namespace TibServer

/-- Some trades are closed, one after the other. -/
def Closes : Trade → Trade → Prop :=
  Relation.ReflTransGen fun t t' => ∃ p, t' = t.internalCloseTrade p

namespace Closes

variable {t t' t'' : Trade}

theorem refl (t : Trade) : Closes t t := Relation.ReflTransGen.refl

theorem of_eq (h : t' = t) : Closes t t' := h ▸ refl t

theorem trans (h : Closes t t') (h' : Closes t' t'') : Closes t t'' :=
  Relation.ReflTransGen.trans h h'

/-- The same trades may be written in another way. -/
theorem from_eq (h : Closes t t') (e : t'' = t) : Closes t'' t' := e ▸ h

theorem close (t : Trade) (p : PlayerId) : Closes t (t.internalCloseTrade p) :=
  Relation.ReflTransGen.single ⟨p, rfl⟩

/-- What every close keeps is kept. -/
theorem preserves {P : Trade → Prop} (h : Closes t t')
    (step : ∀ t p, P t → P (t.internalCloseTrade p)) (start : P t) : P t' := by
  induction h with
  | refl => exact start
  | tail _ last ih =>
      obtain ⟨p, rfl⟩ := last
      exact step _ p ih

end Closes

namespace World

variable (w : World)

/-! ### The hooks -/

theorem checkTradeState_closes (p : PlayerId) (i : ItemRef) (t : Trade) :
    Closes t (w.checkTradeState p i t) := by
  unfold checkTradeState
  cases t.tradeItem p with
  | none => exact .refl t
  | some ti =>
      simp only
      split
      · exact .refl t
      · split
        · exact .close t p
        · exact .refl t

theorem checkHolding_closes (p : PlayerId) (c : ItemRef) (t : Trade) :
    Closes t (w.checkHolding p c t) := by
  unfold checkHolding
  cases t.tradeItem p with
  | none => exact .refl t
  | some ti =>
      simp only
      split
      · exact .close t p
      · exact .refl t

theorem onRemoveContainerItem_closes (p : PlayerId) (c i : ItemRef) (t : Trade) :
    Closes t (w.onRemoveContainerItem p c i t) := by
  unfold onRemoveContainerItem
  split
  · exact .refl t
  · have checked := w.checkTradeState_closes p i t
    generalize w.checkTradeState p i t = t' at checked ⊢
    dsimp only
    cases t'.tradeItem p with
    | none => exact checked
    | some ti =>
        simp only
        split
        · exact checked.trans (w.checkHolding_closes p c t')
        · exact checked

theorem onRemoveInventoryItem_closes (p : PlayerId) (i : ItemRef) (t : Trade) :
    Closes t (w.onRemoveInventoryItem p i t) := by
  unfold onRemoveInventoryItem
  split
  · exact .refl t
  · have checked := w.checkTradeState_closes p i t
    generalize w.checkTradeState p i t = t' at checked ⊢
    simp only
    split
    · exact checked.trans (w.checkHolding_closes p i t')
    · exact checked

theorem onUpdateContainerItem_closes (p : PlayerId) (c old new : ItemRef) (t : Trade) :
    Closes t (w.onUpdateContainerItem p c old new t) := by
  have removed : Closes t (if old ≠ new then w.onRemoveContainerItem p c old t else t) := by
    split
    · exact w.onRemoveContainerItem_closes p c old t
    · exact .refl t
  simp only [onUpdateContainerItem]
  generalize (if old ≠ new then w.onRemoveContainerItem p c old t else t) = t' at removed ⊢
  split
  · exact removed
  · exact removed.trans (w.checkTradeState_closes p old t')

theorem onUpdateInventoryItem_closes (p : PlayerId) (old new : ItemRef) (t : Trade) :
    Closes t (w.onUpdateInventoryItem p old new t) := by
  have removed : Closes t (if old ≠ new then w.onRemoveInventoryItem p old t else t) := by
    split
    · exact w.onRemoveInventoryItem_closes p old t
    · exact .refl t
  simp only [onUpdateInventoryItem]
  generalize (if old ≠ new then w.onRemoveInventoryItem p old t else t) = t' at removed ⊢
  split
  · exact removed
  · exact removed.trans (w.checkTradeState_closes p old t')

theorem onUpdateTileItem_closes (p : PlayerId) (old new : ItemRef) (t : Trade) :
    Closes t (w.onUpdateTileItem p old new t) := by
  have removed : Closes t (if old ≠ new then w.onRemoveTileItem p old t else t) := by
    split
    · exact w.onRemoveInventoryItem_closes p old t
    · exact .refl t
  simp only [onUpdateTileItem]
  generalize (if old ≠ new then w.onRemoveTileItem p old t else t) = t' at removed ⊢
  split
  · exact removed
  · split
    · exact removed.trans (.close t' p)
    · exact removed

theorem notifyAll_closes {hook : PlayerId → Trade → Trade} (h : ∀ p t, Closes t (hook p t))
    (players : List PlayerId) (t : Trade) : Closes t (notifyAll players hook t) := by
  unfold notifyAll
  induction players generalizing t with
  | nil => exact .refl t
  | cons p players ih => exact (h p t).trans (ih (hook p t))

theorem containerOnAdd_closes (c i : ItemRef) (t : Trade) : Closes t (w.containerOnAdd c i t) := by
  unfold containerOnAdd
  split
  · exact notifyAll_closes (fun p => w.checkTradeState_closes p i) _ t
  · exact .refl t

theorem containerOnUpdate_closes (c old new : ItemRef) (t : Trade) :
    Closes t (w.containerOnUpdate c old new t) := by
  unfold containerOnUpdate
  split
  · exact notifyAll_closes (fun p => w.onUpdateContainerItem_closes p c old new) _ t
  · exact .refl t

theorem containerOnRemove_closes (c i : ItemRef) (t : Trade) :
    Closes t (w.containerOnRemove c i t) := by
  unfold containerOnRemove
  split
  · exact notifyAll_closes (fun p => w.onRemoveContainerItem_closes p c i) _ t
  · exact .refl t

theorem tileOnUpdate_closes (pos : Position) (old new : ItemRef) (t : Trade) :
    Closes t (w.tileOnUpdate pos old new t) :=
  notifyAll_closes (fun p => w.onUpdateTileItem_closes p old new) _ t

theorem tileOnRemove_closes (pos : Position) (i : ItemRef) (t : Trade) :
    Closes t (w.tileOnRemove pos i t) :=
  notifyAll_closes (fun p => w.onRemoveInventoryItem_closes p i) _ t

end World

namespace Game

variable (g : Game)

/-! ### The operations of a cylinder -/

theorem addThing_closes (c : Cylinder) (index : Int) (i : ItemRef) :
    Closes g.trade (g.addThing c index i).trade := by
  cases c with
  | tile pos =>
      simp only [addThing, tileAddThing]
      cases g.world.tile pos with
      | none => exact .refl _
      | some t =>
          simp only
          split
          · exact .refl _
          · split
            · exact .refl _
            · split
              · exact World.tileOnUpdate_closes _ _ _ _ _
              · split
                · exact .refl _
                · exact World.tileOnRemove_closes _ _ _ _
  | player p => exact .refl _
  | container c =>
      simp only [addThing, containerAddThing]
      cases g.world.getContainer c with
      | none => exact .refl _
      | some k =>
          simp only
          split
          · exact .refl _
          · exact World.containerOnAdd_closes _ _ _ _

theorem addThingFront_closes (c : Cylinder) (i : ItemRef) :
    Closes g.trade (g.addThingFront c i).trade := by
  cases c with
  | tile pos => exact g.addThing_closes _ _ _
  | player p => exact .refl _
  | container c => exact g.addThing_closes _ _ _

theorem updateThing_closes (c : Cylinder) (i : ItemRef) (itemId count : Nat) :
    Closes g.trade (g.updateThing c i itemId count).trade := by
  simp only [updateThing]
  split
  · exact .refl _
  · cases c with
    | tile pos => exact World.tileOnUpdate_closes _ _ _ _ _
    | player p => exact World.onUpdateInventoryItem_closes _ _ _ _ _
    | container c => exact World.containerOnUpdate_closes _ _ _ _ _

theorem replaceThing_closes (c : Cylinder) (index : Nat) (i : ItemRef) :
    Closes g.trade (g.replaceThing c index i).trade := by
  cases c with
  | tile pos =>
      simp only [replaceThing]
      split
      · exact .refl _
      · exact World.tileOnUpdate_closes _ _ _ _ _
  | player p =>
      simp only [replaceThing]
      split
      · exact .refl _
      · exact World.onUpdateInventoryItem_closes _ _ _ _ _
  | container c =>
      simp only [replaceThing, containerReplaceThing]
      split
      · exact .refl _
      · exact World.containerOnUpdate_closes _ _ _ _ _

theorem removeThing_closes (c : Cylinder) (i : ItemRef) (count : Nat) :
    Closes g.trade (g.removeThing c i count).trade := by
  simp only [removeThing]
  split
  · exact .refl _
  · split
    · cases c with
      | tile pos => exact World.tileOnUpdate_closes _ _ _ _ _
      | player p => exact World.onUpdateInventoryItem_closes _ _ _ _ _
      | container c => exact World.containerOnUpdate_closes _ _ _ _ _
    · cases c with
      | tile pos => exact World.tileOnRemove_closes _ _ _ _
      | player p => exact World.onRemoveInventoryItem_closes _ _ _ _
      | container c => exact World.containerOnRemove_closes _ _ _ _

/-! ### The operations of the game -/

@[simp] theorem postItem_trade (c : Cylinder) (item : Option ItemRef) :
    (g.postItem c item).trade = g.trade := by
  cases item with
  | none => rfl
  | some x => exact g.post_trade _ _

theorem swap_closes (src dst : Cylinder) (toItem : ItemRef) :
    Closes g.trade (g.swap src dst toItem).trade := by
  simp only [swap, post_trade]
  exact (g.removeThing_closes _ _ _).trans (addThingFront_closes _ _ _)

theorem merge_closes (dst : Cylinder) (item : ItemRef) (toItem : Option ItemRef) (m : Nat) :
    Closes g.trade (g.merge dst item toItem m).2.2.trade := by
  have merged : Closes g.trade (g.mergeInto dst item toItem m).2.2.trade := by
    unfold mergeInto
    cases g.world.mergeTarget item toItem with
    | none => exact .refl _
    | some o => exact g.updateThing_closes _ _ _ _
  simp only [merge, cloneRest]
  split
  · exact merged
  · exact merged

theorem takeUnits_closes (src dst : Cylinder) (item : ItemRef) (toItem : Option ItemRef)
    (m : Nat) : Closes g.trade (g.takeUnits src dst item toItem m).2.2.trade := by
  have taken := g.removeThing_closes src item m
  simp only [takeUnits]
  split
  · exact taken.trans (merge_closes _ _ _ _ _)
  · exact taken

theorem transfer_closes (src dst : Cylinder) (index : Int) (item : ItemRef)
    (toItem : Option ItemRef) (m : Nat) :
    Closes g.trade (g.transfer src dst index item toItem m).2.trade := by
  have taken := g.takeUnits_closes src dst item toItem m
  simp only [transfer, postItem_trade, post_trade]
  split
  · exact taken.trans (addThing_closes _ _ _ _)
  · exact taken

theorem moveUnits_closes (src : Cylinder) (d : Dest) (item : ItemRef) (toItem : Option ItemRef)
    (count : Nat) (tradeItem : Option ItemRef) :
    Closes g.trade (g.moveUnits src d item toItem count tradeItem).game.trade := by
  simp only [moveUnits]
  split
  · exact .refl _
  · exact g.transfer_closes _ _ _ _ _ _

theorem queryAddOrSwap_closes (src : Cylinder) (d : Dest) (item : ItemRef) (count : Nat)
    (actor : Option PlayerId) :
    Closes g.trade (g.queryAddOrSwap src d item count actor).2.2.trade := by
  simp only [queryAddOrSwap]
  split
  · exact .refl _
  · exact .refl _
  · exact g.swap_closes _ _ _

theorem internalMoveItem_closes (src dst : Cylinder) (index : Int) (item : ItemRef) (count : Nat)
    (flags : Flags) (actor : Option PlayerId) (tradeItem : Option ItemRef) :
    Closes g.trade
      (g.internalMoveItem src dst index item count flags actor tradeItem).game.trade := by
  simp only [internalMoveItem]
  split
  · exact .refl _
  · split
    · exact g.queryAddOrSwap_closes _ _ _ _ _
    · exact (g.queryAddOrSwap_closes _ _ _ _ _).trans (moveUnits_closes _ _ _ _ _ _ _)

theorem place_closes (c : Cylinder) (index : Int) (item : ItemRef) :
    Closes g.trade (g.place c index item).trade := by
  simp only [place, post_trade]
  exact g.addThing_closes _ _ _

theorem addItemAux_closes (fuel : Nat) (c : Cylinder) (item : ItemRef) (index : Int)
    (flags : Flags) (test : Bool) :
    Closes g.trade (addItemAux fuel g c item index flags test).game.trade := by
  induction fuel generalizing g item index flags test with
  | zero => exact .refl _
  | succ fuel ih =>
      simp only [addItemAux]
      split
      · exact .refl _
      · split
        · exact .refl _
        · split
          · exact g.place_closes _ _ _
          · next toItem _ =>
              have merged (n : Nat) := g.updateThing_closes (g.addDest c item index flags).cylinder
                toItem (g.world.item toItem).id (g.world.getItemCount toItem + n)
              split
              · split
                · split
                  · exact (merged _).trans (ih (cloneWith _ _ _) _ _ _ _)
                  · exact (merged _).trans (ih (cloneWith _ _ _) _ _ _ _)
                · exact (merged _).trans (place_closes _ _ _ _)
              · simp only [post_trade]
                exact merged _

theorem internalAddItem_closes (c : Cylinder) (item : ItemRef) (index : Int) (flags : Flags)
    (test : Bool) : Closes g.trade (g.internalAddItem c item index flags test).game.trade :=
  g.addItemAux_closes _ _ _ _ _ _

theorem internalRemoveItem_closes (item : ItemRef) (count : Option Nat) (test : Bool)
    (flags : Flags) : Closes g.trade (g.internalRemoveItem item count test flags).2.trade := by
  simp only [internalRemoveItem]
  split
  · exact .refl _
  · split
    · exact .refl _
    · split
      · exact .refl _
      · split
        · exact .refl _
        · simp only [post_trade]
          exact g.removeThing_closes _ _ _

theorem updateType_closes (c : Cylinder) (itemIndex : Int) (item : ItemRef) (newId : Nat)
    (newCount : Int) : Closes g.trade (g.updateType c itemIndex item newId newCount).trade := by
  simp only [updateType, post_trade]
  split
  · exact (updateThing_closes _ _ _ _ _).from_eq rfl
  · exact (updateThing_closes _ _ _ _ _).from_eq rfl

theorem createAndReplace_closes (c : Cylinder) (itemIndex : Int) (item : ItemRef)
    (newId count : Nat) :
    Closes g.trade (g.createAndReplace c itemIndex item newId count).2.trade := by
  simp only [createAndReplace]
  split
  · exact .refl _
  · exact (replaceThing_closes _ _ _ _).from_eq rfl

theorem reinsert_closes (c : Cylinder) (item : ItemRef) (newId : Nat) (newCount : Int) :
    Closes g.trade (g.reinsert c item newId newCount).trade :=
  (g.removeThing_closes c item (g.world.getItemCount item)).trans
    ((addThingFront_closes _ _ _).from_eq rfl)

theorem postReinserted_trade (item : ItemRef) : (g.postReinserted item).2.trade = g.trade := by
  unfold postReinserted
  split <;> rfl

theorem transformItem_closes (item : ItemRef) (newId : Nat) (newCount : Int) :
    Closes g.trade (g.transformItem item newId newCount).2.trade := by
  unfold transformItem
  simp only
  repeat' split
  all_goals first
    | exact .refl _
    | exact g.internalRemoveItem_closes _ _ _ _
    | exact g.createAndReplace_closes _ _ _ _ _
    | exact g.updateType_closes _ _ _ _ _
    | exact (postReinserted_trade _ _).symm ▸ g.reinsert_closes _ _ _ _

theorem exchangeItems_closes (player partner : PlayerId) (item₁ item₂ : ItemRef) :
    Closes g.trade (g.exchangeItems player partner item₁ item₂).trade := by
  unfold exchangeItems
  split
  · simp only
    split
    · exact (g.internalMoveItem_closes _ _ _ _ _ _ _ _).trans
        (internalMoveItem_closes _ _ _ _ _ _ _ _ _)
    · exact g.internalMoveItem_closes _ _ _ _ _ _ _ _
  · exact .refl _

end Game

end TibServer
