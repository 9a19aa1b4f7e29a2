import TibServer.Conservation

/-!
Errors of `internalMoveItem`. Every way out with an error leaves the world as it
was, but for the one after an exchange: there the item of the destination has
changed places when the destination is asked again and refuses.
-/

namespace TibServer

namespace World

variable {w : World} {src : Cylinder} {d : Dest} {i o : ItemRef} {count : Nat}
  {actor : Option PlayerId} {tradeItem : Option ItemRef}

/-- A tile whose top down item is put back is as it was. -/
theorem erase_bare {t t₁ : Tile} (head : t.getTopDownItem = some o)
    (h : t₁.bare = (t.erase false o).bare) :
    ({ t₁ with itemList := o :: t₁.itemList, downItemCount := t₁.downItemCount + 1 } : Tile).bare =
      t.bare := by
  obtain ⟨rest, down⟩ : ∃ rest, t.downItems = o :: rest := List.head?_eq_some_iff.mp head
  have positive : t.downItemCount ≠ 0 := by
    intro zero
    simp [Tile.downItems, zero] at down
  have list : o :: t₁.itemList = t.itemList := by
    have erased : t₁.itemList = (t.erase false o).itemList := (congrArg Tile.itemList h :)
    rw [erased, ← t.downItems_append_topItems]
    simp [Tile.erase, down]
  have count : t₁.downItemCount + 1 = t.downItemCount := by
    have erased : t₁.downItemCount = (t.erase false o).downItemCount :=
      (congrArg Tile.downItemCount h :)
    simp only [Tile.erase, Bool.false_eq_true, if_false] at erased
    omega
  have ground : t₁.ground = t.ground := (congrArg Tile.ground h :)
  have creatures : t₁.creatures = t.creatures := (congrArg Tile.creatures h :)
  have house : t₁.house = t.house := (congrArg Tile.house h :)
  simp only [Tile.bare, list, count, ground, creatures, house]

theorem putBack_kept {pos : Position} {t t₁ : Tile} (htile : w.tile pos = some t)
    (head : t.getTopDownItem = some o) (top : w.isAlwaysOnTop o = false)
    (ground : (w.typeOf o).isGroundTile = false) (h₁ : t₁.bare = (t.erase false o).bare)
    (room : ¬t₁.itemList.length ≥ 0xFFFF) (alone : w.replacedItem t₁ o = none) :
    Kept w (((w.setItem o (·.setParent none)).setTile pos t₁).tileAddThing pos o) := by
  have kept := (setParent_kept w o none).trans (setParent_kept _ o (some (.tile pos)))
  generalize hw₂ : (w.setItem o (·.setParent none)).setItem o
    (·.setParent (some (.tile pos))) = w₂ at kept
  have parted : ((w.setItem o (·.setParent none)).setTile pos t₁).setItem o
      (·.setParent (some (.tile pos))) = w₂.setTile pos t₁ := by
    rw [← hw₂]
    rfl
  have alone₂ : (w₂.setTile pos t₁).replacedItem t₁ o = none :=
    (kept.replacedItem t₁ o).trans alone
  have tile₂ : w₂.tile pos = some t := by
    rw [← hw₂]
    exact htile
  have ground₂ : ((w₂.setTile pos t₁).typeOf o).isGroundTile = false :=
    (kept.typeOf o).symm ▸ ground
  have top₂ : (w₂.setTile pos t₁).isAlwaysOnTop o = false :=
    (isAlwaysOnTop_of_id kept.items (kept.id o)).trans top
  have twice : ∀ t', (w₂.setTile pos t₁).setTile pos t' = w₂.setTile pos t' := by
    intro t'
    simp [setTile]
  refine kept.trans ?_
  simp only [tileAddThing, setTile_tile_self, if_neg room, parted, alone₂, tileInsert, ground₂,
    top₂, Bool.false_eq_true, if_false, twice]
  exact setFlags_kept _ tile₂ ((setTileFlags_bare _ _ _).trans (erase_bare head h₁))

/-- An exchange within one tile in which nothing goes leaves the tile as it was. -/
theorem Exchange.back_kept (h : w.Exchange src d i count actor o) (ok : w.DestOk d)
    (hw : WellFormed w) (ht : Typed w) (same : src = d.cylinder)
    (stays : w.displacedFront src o = none) :
    Kept w ((w.takenOut d o).addThingFront src o) := by
  cases hc : d.cylinder with
  | container c => exact absurd hc (h.dst_not_container c)
  | player p => simp [same, hc, displacedFront] at stays
  | tile pos =>
      have dest := ok
      simp only [DestOk, hc, h.destItem] at dest
      obtain ⟨t, htile, head⟩ := Option.bind_eq_some_iff.mp dest.symm
      obtain ⟨mem, notGround, top⟩ := h.topDown ok hw ht hc htile
      have index : w.tileGetThingIndex pos o ≠ -1 := by
        have found := h.granted.found
        rwa [hc] at found
      have out : w.takenOut d o =
          (w.setItem o (·.setParent none)).setTile pos (w.resetTileFlags (t.erase false o) o) := by
        simp [takenOut, hc, removeThing, tileRemoveThing, htile, index, notGround, top, tileErase]
      have shorter := (t.erase_perm false mem).length_eq
      have welcome := h.welcome
      simp only [same, hc, queryAdd] at welcome
      obtain ⟨t', htile', room⟩ := tileQueryAdd_room (.inl welcome)
      obtain rfl : t = t' := Option.some.inj (htile.symm.trans htile')
      simp only [List.length_cons] at shorter
      have room₁ : ¬(w.resetTileFlags (t.erase false o) o).itemList.length ≥ 0xFFFF := by
        have : (w.resetTileFlags (t.erase false o) o).itemList = (t.erase false o).itemList := rfl
        rw [this]
        omega
      have tile₁ : (w.takenOut d o).tile pos = some (w.resetTileFlags (t.erase false o) o) :=
        out ▸ setTile_tile_self _ pos _
      have gone : o ∉ (w.resetTileFlags (t.erase false o) o).itemList := by
        have unlisted := h.taken.took.unlisted hw.once (q := .tile pos)
        simp only [things, tile₁, List.mem_append, not_or] at unlisted
        exact unlisted.2
      have alone : w.replacedItem (w.resetTileFlags (t.erase false o) o) o = none := by
        have stays₁ : (w.takenOut d o).displaced (.tile pos) 0 o = none := by
          have back := (h.displacedFront_eq ok hw ht).trans stays
          rwa [same, hc] at back
        rw [displaced_tile 0 tile₁ room₁ gone, Option.map_eq_none_iff, out] at stays₁
        exact ((setParent_kept w o none).replacedItem _ o).symm.trans stays₁
      rw [same, hc, out]
      exact putBack_kept htile head top (ht.notGround htile (List.mem_of_mem_take mem))
        (resetTileFlags_bare _ _ _) room₁ alone

/-- Any other exchange leaves things elsewhere than they were. -/
theorem Exchanged.not_kept {w' : World} (h' : Exchanged w w' src d.cylinder o (w.displacedFront src o))
    (h : w.Exchange src d i count actor o) (hw : WellFormed w)
    (ht : Typed w)
    (moved : ¬(src = d.cylinder ∧ w.displacedFront src o = none)) : ¬Kept w w' := by
  intro kept
  have mem := h.granted.found.mem
  cases hx : w.displacedFront src o with
  | none =>
      have arrived := h'.arrived hx
      rw [kept.things] at arrived
      exact moved ⟨hw.once.place arrived mem, hx⟩
  | some x =>
      have gone := h'.gone hx
      rw [kept.things] at gone
      rcases displacedFront_cases ht hx with rfl | ⟨-, lay⟩
      · exact gone _ mem
      · exact gone _ lay

end World

namespace Game

open World

variable {g : Game} {src : Cylinder} {d : Dest} {i o : ItemRef} {count : Nat}
  {actor : Option PlayerId} {tradeItem : Option ItemRef}

/-- After an exchange the destination, the source or the trade refuses the move. -/
def refusesAfter (g : Game) (src : Cylinder) (d : Dest) (i : ItemRef) (count : Nat)
    (tradeItem : Option ItemRef) (o : ItemRef) : Bool :=
  let g := g.swap src d.cylinder o
  g.world.queryAdd d.cylinder d.index i count d.flags != .noError ||
    !(g.world.moveCheck src d i count tradeItem).isOk

/-- A move that is refused after it exchanged two items, unless the exchange put
the item back where it lay. -/
def upsets (g : Game) (src : Cylinder) (d : Dest) (i : ItemRef) (count : Nat)
    (actor : Option PlayerId) (tradeItem : Option ItemRef) : Bool :=
  d.destItem != some i &&
    match g.world.admission src d i count actor with
    | .exchange o =>
        g.refusesAfter src d i count tradeItem o &&
          !(src == d.cylinder && (g.world.displacedFront src o).isNone)
    | _ => false

theorem swap_kept_iff (h : g.world.Exchange src d i count actor o) (ok : g.world.DestOk d)
    (hw : WellFormed g.world) (ht : Typed g.world) :
    Kept g.world (g.swap src d.cylinder o).world ↔
      src = d.cylinder ∧ g.world.displacedFront src o = none := by
  constructor
  · intro kept
    by_contra moved
    exact (swap_exchanged h ok hw ht).not_kept h hw ht moved kept
  · rintro ⟨same, stays⟩
    have back := h.back_kept ok hw ht same stays
    unfold swap
    refine back.trans (Kept.trans ?_ (post_kept _ _ _))
    refine Kept.trans ?_ (post_kept _ _ _)
    rw [addThingFront_world, removeThing_world]
    rfl

/-- What is left to do after the questions either ends in an error and changes
nothing, or moves at least one unit. -/
theorem moveUnits_cases (g : Game) (src : Cylinder) (d : Dest) (i : ItemRef)
    (toItem : Option ItemRef) (count : Nat) (tradeItem : Option ItemRef) :
    ((g.world.moveCheck src d i count tradeItem).isOk = false ∧
      (g.moveUnits src d i toItem count tradeItem).ret ≠ .noError ∧
      (g.moveUnits src d i toItem count tradeItem).moved = 0 ∧
      (g.moveUnits src d i toItem count tradeItem).game = g) ∨
    ((g.world.moveCheck src d i count tradeItem).isOk = true ∧
      0 < (g.moveUnits src d i toItem count tradeItem).moved) := by
  unfold moveUnits
  cases check : g.world.moveCheck src d i count tradeItem with
  | error ret => exact .inl ⟨rfl, moveCheck_error check, rfl, rfl⟩
  | ok answer =>
      obtain ⟨ret, m⟩ := answer
      exact .inr ⟨rfl, (moveCheck_ok check).granted.positive⟩

end Game

/-! ### A heavy armor

A player without the capacity for it puts an armor into the slot of another. -/

namespace Sample

def armor : Game :=
  game (world
    [{ id := 5, parent := some (.tile here) },
     { id := 6, parent := some (.tile here) },
     { id := 7, parent := some (.player 0) }]
    { ground := some 0, itemList := [1], downItemCount := 1 }
    fun slot => if slot = 4 then some 2 else none)

theorem armor_wellFormed : armor.world.WellFormed := world_wellFormed (by decide) (by decide)

theorem armor_typed : armor.world.Typed :=
  world_typed (by decide) (by rintro o ⟨⟩; rfl) (by decide) (by decide) (by decide)

end Sample

end TibServer
