import TibServer.Exchange

/-!
The accounts of `internalMoveItem`. A move keeps every unit of every kind but
those that go out of the world in an exchange, those the destination does not
take in, and those the count of a stack cannot hold; when that happens can be
told from the questions asked before the move.
-/

namespace TibServer

namespace World

variable {w : World} {src : Cylinder} {d : Dest} {i o : ItemRef} {count m : Nat}
  {actor : Option PlayerId} {tradeItem : Option ItemRef} {ret : ReturnValue}

/-- An item that takes the place of no other on a tile. -/
structure Solid (w : World) (i : ItemRef) : Prop where
  ground : (w.typeOf i).isGroundTile = false
  splash : (w.typeOf i).isSplash = false
  field : (w.typeOf i).isMagicField = false

/-- A move destroys units: those of the item displaced by an exchange or, without
one, those of the moved item that a transfer loses. -/
def loses (w : World) (src : Cylinder) (d : Dest) (i : ItemRef) (count : Nat)
    (actor : Option PlayerId) (tradeItem : Option ItemRef) : Bool :=
  d.destItem != some i &&
    match w.admission src d i count actor with
    | .refused _ => false
    | .exchange o => (w.displacedFront src o).isSome
    | .admitted =>
        match w.moveCheck src d i count tradeItem with
        | .error _ => false
        | .ok (_, m) => w.transferLoss d.cylinder d.index i d.destItem m != 0

/-- The units of a kind that a move destroys. -/
def moveLoss (w : World) (src : Cylinder) (d : Dest) (i : ItemRef) (count : Nat)
    (actor : Option PlayerId) (tradeItem : Option ItemRef) (id : Nat) : Nat :=
  if d.destItem = some i then 0
  else
    match w.admission src d i count actor with
    | .refused _ => 0
    | .exchange o => (w.displacedFront src o).elim 0 (w.units id)
    | .admitted =>
        match w.moveCheck src d i count tradeItem with
        | .error _ => 0
        | .ok (_, m) =>
            if (w.item i).id = id then w.transferLoss d.cylinder d.index i d.destItem m else 0

/-! ### Moves that all questions allow -/

theorem Allowed.dst_exists (h : w.Allowed src d i count tradeItem ret m) (hw : WellFormed w) :
    w.Exists d.cylinder := by
  intro r hr
  by_contra beyond
  have none : w.getContainer r = none := hw.unused (not_lt.mp beyond)
  refine h.allows ?_
  simp [hr, queryMaxCount, containerQueryMaxCount, none]

/-- The stack the item would go into is found in the destination. -/
theorem DestOk.target_found (ok : w.DestOk d) (ho : d.destItem = some o)
    (hs : w.isStackable o = true) : w.Found d.cylinder o := by
  unfold DestOk at ok
  cases hc : d.cylinder with
  | container c =>
      rw [hc] at ok
      exact found_container.mpr (ok o ho)
  | player p =>
      rw [hc] at ok
      have slot : w.getInventoryItem p d.index = some o := ok.symm.trans ho
      unfold getInventoryItem at slot
      split at slot
      · next inside =>
          exact found_player.mpr
            (List.mem_filterMap.mpr ⟨_, mem_slots.mpr (by omega), slot⟩)
      · simp at slot
  | tile pos =>
      rw [hc] at ok
      obtain ⟨t, ht, top⟩ := Option.bind_eq_some_iff.mp (ok.symm.trans ho)
      refine found_tile.mpr ⟨t, ht, .inr ?_⟩
      rw [isAlwaysOnTop_of_stackable hs, if_neg Bool.false_ne_true]
      exact List.mem_of_mem_head? top

theorem Allowed.transferable (h : w.Allowed src d i count tradeItem ret m) (hw : WellFormed w)
    (ht : Typed w) (hi : w.Solid i) (ok : w.DestOk d) (ne : d.destItem ≠ some i) :
    Transferable w src d.cylinder i d.destItem m where
  wellFormed := hw
  found := h.granted.found
  units := h.granted.units
  notGround pos t _ htile hg := by
    have ground := ht.ground htile hg
    rw [hi.ground] at ground
    exact absurd ground Bool.false_ne_true
  dst_exists := h.dst_exists hw
  target o ho := by
    obtain ⟨destItem, hs, merges⟩ := mergeTarget_some ho
    refine ⟨fun e => ne (e ▸ destItem), ok.target_found destItem ?_⟩
    rw [equals_stackable merges, hs]

/-- A tile that takes a solid item in has room for it. -/
theorem Solid.room_tile {pos : Position} {index : Int} {flags : Flags} (hi : w.Solid i)
    (h : w.tileQueryAdd pos i flags actor = .noError ∨
      w.tileQueryAdd pos i flags actor = .needExchange) : w.Room (.tile pos) index i := by
  obtain ⟨t, ht, room⟩ := tileQueryAdd_room h
  refine ⟨?_, hi.ground, hi.splash, hi.field⟩
  simp only [things, ht, List.length_append]
  have : t.ground.toList.length ≤ 1 := by cases t.ground <;> simp
  omega

theorem mergeCount_of_le {n : Nat} (h : m ≤ 100 - n) (hm : 0 < m) : mergeCount n m = m := by
  have small : (BitVec.ofInt 32 (100 - (n : Int))).toNat = 100 - n := by
    rw [BitVec.toNat_ofInt]
    omega
  rw [mergeCount, small, min_eq_right h]

/-- What is left to be added finds nothing in its way. -/
theorem Allowed.room (h : w.Allowed src d i count tradeItem ret m) (hi : w.Solid i)
    (ok : w.DestOk d) (admitted : w.admission src d i count actor = .admitted)
    (rest : 0 < w.restUnits i d.destItem m) : w.Room d.cylinder d.index i := by
  have add := admission_admitted admitted
  cases hc : d.cylinder with
  | container c => trivial
  | tile pos =>
      simp only [hc, queryAdd] at add
      exact hi.room_tile add
  | player p =>
      cases inv : w.getInventoryItem p d.index with
      | none => exact inv
      | some o =>
          -- only a stack that takes all units is in the way
          obtain ⟨merges, stack, fits⟩ := h.slot hc inv
          simp only [DestOk, hc, inv] at ok
          simp only [restUnits, stack, if_true, mergedUnits, ok, mergeTarget_equals stack merges,
            mergeCount_of_le fits h.granted.positive] at rest
          omega

/-! ### Exchanges -/

/-- What goes in an exchange counts at least one unit. -/
theorem Exchange.displaced_units (h : w.Exchange src d i count actor o) (ht : Typed w)
    {x : ItemRef} (hx : w.displacedFront src o = some x) : 0 < w.unitsOf x := by
  rcases displacedFront_cases ht hx with rfl | ⟨single, -⟩
  · unfold unitsOf
    split
    · exact h.granted.positive
    · exact one_pos
  · simp [unitsOf, single]

theorem Exchange.dst_not_container (h : w.Exchange src d i count actor o) (c : ItemRef) :
    d.cylinder ≠ .container c := fun e => container_no_exchange (e ▸ h.asked)

/-- After an exchange, a player that lets the item in has its slot free for it. -/
theorem Exchanged.room {w' : World} {x : Option ItemRef}
    (h' : Exchanged w w' src d.cylinder o x) (h : w.Exchange src d i count actor o)
    (ok : w.DestOk d) (hi : w'.Solid i)
    (add : w'.queryAdd d.cylinder d.index i count d.flags = .noError) :
    w'.refuses d.cylinder d.index = false ∧ w'.Room d.cylinder d.index i := by
  cases hc : d.cylinder with
  | container c => exact absurd hc (h.dst_not_container c)
  | tile pos =>
      simp only [hc, queryAdd] at add
      obtain ⟨t, ht, -⟩ := tileQueryAdd_room (.inl add)
      exact ⟨by simp [refuses, ht], hi.room_tile (.inl add)⟩
  | player p =>
      have asked := h.asked
      simp only [hc, queryAdd] at add asked
      obtain ⟨first, last⟩ := playerQueryAdd_slot (playerQueryAdd_exchange asked) add
      have slot : w.getInventoryItem p d.index = some o := by
        have ok := ok
        simp only [DestOk, hc] at ok
        exact ok.symm.trans h.destItem
      have inside : 1 ≤ d.index ∧ d.index ≤ 11 := by omega
      refine ⟨by simp [refuses, inside], ?_⟩
      simp only [Room, getInventoryItem, if_pos inside] at slot ⊢
      exact h'.emptied (mem_slots.mpr (by omega)) slot

theorem Exchanged.transferable {w' : World} {x : Option ItemRef}
    (h' : Exchanged w w' src d.cylinder o x) (ht : Typed w) (hi : w.Solid i)
    (h : w'.Allowed src d i count tradeItem ret m) :
    Transferable w' src d.cylinder i none m where
  wellFormed := h'.wellFormed
  found := h.granted.found
  units := h.granted.units
  notGround pos t' _ htile hg := by
    obtain ⟨t, htile', ground⟩ := h'.ground htile
    rcases ground with same | ⟨new, type⟩
    · have ground := ht.ground htile' (same ▸ hg)
      rw [hi.ground] at ground
      exact absurd ground Bool.false_ne_true
    · obtain rfl : o = i := Option.some.inj (new.symm.trans hg)
      rw [hi.ground] at type
      exact absurd type Bool.false_ne_true
  dst_exists := h.dst_exists h'.wellFormed
  target o ho := by simp [mergeTarget] at ho

theorem Solid.of_stack {w' : World} (hi : w.Solid i) (items : w'.items = w.items)
    (h : (w'.item i).stack = (w.item i).stack) : w'.Solid i := by
  have type : w'.typeOf i = w.typeOf i := typeOf_of_id items (Item.id_of_stack h)
  exact ⟨type ▸ hi.ground, type ▸ hi.splash, type ▸ hi.field⟩

end World

namespace Game

open World

variable {g : Game} {src dst : Cylinder} {d : Dest} {i : ItemRef} {count : Nat}
  {actor : Option PlayerId} {tradeItem : Option ItemRef} {S : Finset Cylinder}

/-! ### The account of a move -/

/-- Units moved without an exchange. -/
theorem moveUnits_total (hw : WellFormed g.world) (ht : Typed g.world) (hi : g.world.Solid i)
    (ok : g.world.DestOk d) (ne : d.destItem ≠ some i)
    (admitted : g.world.admission src d i count actor = .admitted)
    (hsrc : src ∈ S) (hdst : d.cylinder ∈ S) (id : Nat) :
    (g.moveUnits src d i d.destItem count tradeItem).game.world.total S id +
        g.world.moveLoss src d i count actor tradeItem id =
      g.world.total S id := by
  simp only [moveUnits, moveLoss, if_neg ne, admitted]
  cases check : g.world.moveCheck src d i count tradeItem with
  | error ret => rfl
  | ok answer =>
      obtain ⟨ret, m⟩ := answer
      have allowed := moveCheck_ok check
      exact transfer_total (allowed.transferable hw ht hi ok ne)
        (fun rest _ => allowed.room hi ok admitted rest) hsrc hdst id

/-- Nothing is lost by what follows an exchange. -/
theorem moveUnits_exchanged_total {w : World} {o : ItemRef} {x : Option ItemRef}
    (h : w.Exchange src d i count actor o)
    (h' : Exchanged w g.world src d.cylinder o x) (ht : Typed w) (hi : w.Solid i)
    (ok : w.DestOk d)
    (add : g.world.queryAdd d.cylinder d.index i count d.flags = .noError)
    (hsrc : src ∈ S) (hdst : d.cylinder ∈ S) (id : Nat) :
    (g.moveUnits src d i none count tradeItem).game.world.total S id = g.world.total S id := by
  obtain ⟨taken, room⟩ := h'.room h ok (hi.of_stack h'.items (h'.stack i)) add
  simp only [moveUnits]
  cases check : g.world.moveCheck src d i count tradeItem with
  | error ret => rfl
  | ok answer =>
      obtain ⟨ret, m⟩ := answer
      have account := transfer_total (h'.transferable ht hi (moveCheck_ok check))
        (fun _ _ => room) hsrc hdst id
      simpa [transferLoss, taken, overflow, mergeTarget] using account

/-- Every unit is there after a move, or is one that the move destroys. -/
theorem internalMoveItem_total (count : Nat) (actor : Option PlayerId)
    (tradeItem : Option ItemRef) (hw : WellFormed g.world) (ht : Typed g.world)
    (hi : g.world.Solid i) (toCylinder : Cylinder) (index : Int) (flags : Flags)
    (hsrc : g.world.sourceCylinder src ∈ S)
    (hdst : (g.moveDest i toCylinder index flags).cylinder ∈ S) (id : Nat) :
    (g.internalMoveItem src toCylinder index i count flags actor tradeItem).game.world.total S id +
        g.world.moveLoss (g.world.sourceCylinder src) (g.moveDest i toCylinder index flags)
          i count actor tradeItem id =
      g.world.total S id := by
  have ok := g.moveDest_ok i toCylinder index flags
  have moves := g.internalMoveItem_moves src toCylinder index i count flags actor tradeItem
  generalize g.internalMoveItem src toCylinder index i count flags actor tradeItem = r at moves ⊢
  generalize g.moveDest i toCylinder index flags = d at ok hdst moves ⊢
  generalize g.world.sourceCylinder src = src at hsrc moves ⊢
  cases moves with
  | same same => simp [moveLoss, same]
  | refused ne admission => simp [moveLoss, ne, admission]
  | admitted ne admission => exact moveUnits_total hw ht hi ok ne admission hsrc hdst id
  | exchangeOnly ne admission add =>
      have account := (swap_exchanged (admission_exchange admission) ok hw ht).total hsrc hdst id
      simpa only [moveLoss, if_neg ne, admission] using account
  | exchanged ne admission add =>
      have exchange := admission_exchange admission
      have exchanged := swap_exchanged exchange ok hw ht
      have account := exchanged.total hsrc hdst id
      rw [moveUnits_exchanged_total exchange exchanged ht hi ok add hsrc hdst]
      simpa only [moveLoss, if_neg ne, admission] using account

/-- A move destroys units of some kind exactly when it loses. -/
theorem loses_iff (ht : Typed g.world) :
    g.world.loses src d i count actor tradeItem = true ↔
      ∃ id, g.world.moveLoss src d i count actor tradeItem id ≠ 0 := by
  unfold loses moveLoss
  by_cases ne : d.destItem = some i
  · simp [ne]
  · simp only [if_neg ne, bne_iff_ne.mpr ne, Bool.true_and]
    cases admission : g.world.admission src d i count actor with
    | refused ret => simp
    | admitted =>
        cases g.world.moveCheck src d i count tradeItem with
        | error ret => simp
        | ok answer => simp
    | exchange o =>
        dsimp only
        cases hx : g.world.displacedFront src o with
        | none => simp
        | some x =>
            have counts := (admission_exchange admission).displaced_units ht hx
            simp only [Option.isSome_some, Option.elim_some, true_iff]
            exact ⟨(g.world.item x).id, by rw [World.units, if_pos rfl]; omega⟩

/-- A move keeps the number of units of every kind, in any cylinders that
include its source and its destination, exactly when it does not lose. -/
theorem internalMoveItem_conserves_iff {fromCylinder : Cylinder} (hw : WellFormed g.world)
    (ht : Typed g.world) (hi : g.world.Solid i) (toCylinder : Cylinder) (index : Int)
    (flags : Flags) :
    (∀ S : Finset Cylinder, g.world.sourceCylinder fromCylinder ∈ S →
      (g.moveDest i toCylinder index flags).cylinder ∈ S → ∀ id,
        (g.internalMoveItem fromCylinder toCylinder index i count flags actor
          tradeItem).game.world.total S id = g.world.total S id) ↔
      g.world.loses (g.world.sourceCylinder fromCylinder) (g.moveDest i toCylinder index flags)
        i count actor tradeItem = false := by
  rw [← Bool.not_eq_true, loses_iff ht]
  constructor
  · rintro same ⟨id, loss⟩
    have src : g.world.sourceCylinder fromCylinder ∈
        ({g.world.sourceCylinder fromCylinder, (g.moveDest i toCylinder index flags).cylinder} :
          Finset Cylinder) := by simp
    have dst : (g.moveDest i toCylinder index flags).cylinder ∈
        ({g.world.sourceCylinder fromCylinder, (g.moveDest i toCylinder index flags).cylinder} :
          Finset Cylinder) := by simp
    have account := internalMoveItem_total count actor tradeItem hw ht hi toCylinder index flags
      src dst id
    rw [same _ src dst id] at account
    omega
  · intro none S src dst id
    have account := internalMoveItem_total count actor tradeItem hw ht hi toCylinder index flags
      src dst id
    have loss : g.world.moveLoss _ _ i count actor tradeItem id = 0 :=
      by_contra fun h => none ⟨id, h⟩
    rwa [loss] at account

end Game

/-! ### A depot box

A box of 32 places takes a thing in at any index below 254, but its `addThing`
leaves an index from 32 on alone. -/

namespace Sample

def itemType : Nat → ItemType
  | 1 => { id := 1, pickupable := true, moveable := true, weight := 100 }
  | 2 => { id := 2, pickupable := true, moveable := true, stackable := true, weight := 10,
           slotPosition := 0x230, weaponType := .ammo }
  | 3 => { id := 3, group := .container, maxItems := 8, pickupable := true, moveable := true,
           slotPosition := 0x4 }
  | 4 => { id := 4, group := .container, maxItems := 32, moveable := true, pickupable := true }
  | 5 => { id := 5, group := .ground }
  | 6 => { id := 6, pickupable := true, moveable := true, weight := 100000, slotPosition := 0x8 }
  | 7 => { id := 7, pickupable := true, moveable := true, weight := 100, slotPosition := 0x8 }
  | 8 => { id := 8, pickupable := true, moveable := true, weight := 100, slotPosition := 0x30,
           weaponType := .sword }
  | _ => {}

def items : Items where
  type := itemType
  stackable_isPlain id h := by
    unfold itemType at h ⊢
    split at h <;> first | rfl | simp at h
  stackable_down id _ := by
    unfold itemType
    split <;> rfl
  stackable_createdId id h := by
    unfold itemType at h
    split at h <;> first | rfl | simp at h

def here : Position := ⟨100, 100, 7⟩

/-- A world of the items of a list, with one tile and one player on it. -/
def world (store : List Item) (onTile : Tile) (inventory : Nat → Option ItemRef) : World where
  items := items
  classicEquipmentSlots := false
  canEquip _ _ _ := true
  isInvited _ _ := true
  isInGhostMode _ := false
  players := [0]
  browseFields _ := none
  item r := (store[r]?).getD { id := 0 }
  next := store.length
  tile pos := if pos = here then some onTile else none
  player p := if p = 0 then { inventory, capacity := 1000, tile := some here } else {}

def game (w : World) : Game := { world := w, trade := { player := fun _ => {}, tradeItems := ∅ } }

section Checking

variable {store : List Item} {onTile : Tile} {inventory : Nat → Option ItemRef}

/-- The cylinders of such a world that can list something. -/
def listed (store : List Item) : List Cylinder :=
  .tile here :: .player 0 :: (List.range store.length).map .container

theorem world_unused {c : ItemRef} (hc : store.length ≤ c) :
    (world store onTile inventory).getContainer c = none := by
  simp [World.getContainer, world, List.getElem?_eq_none hc, Item.getContainer]

theorem world_empty {c : Cylinder} (hc : c ∉ listed store) :
    (world store onTile inventory).things c = [] := by
  simp only [listed, List.mem_cons, List.mem_map, List.mem_range, not_or, not_exists,
    not_and] at hc
  cases c with
  | tile pos =>
      have other : pos ≠ here := fun e => hc.1 (by rw [e])
      simp [World.things, world, other]
  | player p =>
      have other : p ≠ 0 := fun e => hc.2.1 (by rw [e])
      simp [World.things, world, other]
  | container c =>
      refine World.itemlist_of_getContainer_none (world_unused ?_)
      by_contra inside
      exact hc.2.2 c (not_le.mp inside) rfl

theorem world_wellFormed
    (once : ((listed store).flatMap (world store onTile inventory).things).Nodup)
    (fresh : ∀ i ∈ (listed store).flatMap (world store onTile inventory).things,
      i < store.length) : (world store onTile inventory).WellFormed :=
  .of_listed (listed store) (fun _ => world_empty) once fresh fun _ => world_unused

theorem world_unlisted {i : ItemRef}
    (hi : i ∉ (listed store).flatMap (world store onTile inventory).things) (c : Cylinder) :
    i ∉ (world store onTile inventory).things c := by
  intro h
  refine hi (List.mem_flatMap.mpr ⟨c, ?_, h⟩)
  by_contra out
  rw [world_empty out] at h
  simp at h

theorem world_typed (field : ∀ i ∈ store, i.getMagicField = false)
    (ground : ∀ o, onTile.ground = some o →
      ((world store onTile inventory).typeOf o).isGroundTile = true)
    (top : ∀ o ∈ onTile.topItems, (world store onTile inventory).isAlwaysOnTop o = true)
    (down : ∀ o ∈ onTile.downItems, (world store onTile inventory).isAlwaysOnTop o = false)
    (notGround : ∀ o ∈ onTile.itemList,
      ((world store onTile inventory).typeOf o).isGroundTile = false) :
    (world store onTile inventory).Typed := by
  have here_tile : ∀ {pos t}, (world store onTile inventory).tile pos = some t → t = onTile := by
    intro pos t ht
    simp only [world] at ht
    split at ht
    · exact (Option.some.inj ht).symm
    · simp at ht
  refine ⟨fun o ho => ?_, fun ht => ?_, fun ht => ?_, fun ht => ?_, fun ht => ?_⟩
  · exfalso
    simp only [world] at ho
    cases hs : store[o]? with
    | none => simp [hs, Item.getMagicField] at ho
    | some x =>
        have none := field x (List.mem_of_getElem? hs)
        simp [hs, none] at ho
  · rw [here_tile ht]
    exact ground _
  · rw [here_tile ht]
    exact top _
  · rw [here_tile ht]
    exact down _
  · rw [here_tile ht]
    exact notGround _

end Checking

theorem box_lt : 32 < 2 ^ 32 := by decide

theorem bag_paginated :
    ContainerKind.plain = .reward ∨ ContainerKind.plain = .rewardChest → false = true := by decide

/-- A thing lies on the ground beside an empty depot box. -/
def depot : Game :=
  game (world
    [{ id := 5, parent := some (.tile here) },
     { id := 1, parent := some (.tile here) },
     { id := 4, parent := some (.container 3),
       cls := .container { kind := .depotChest 2000, maxSize := 32, pagination := true
                           maxSize_lt := box_lt } },
     { id := 4, cls := .container { maxSize := 18, itemlist := [2]
                                    rewards_paginated := bag_paginated } }]
    { ground := some 0, itemList := [1], downItemCount := 1 } fun _ => none)

theorem depot_wellFormed : depot.world.WellFormed := world_wellFormed (by decide) (by decide)

theorem depot_typed : depot.world.Typed :=
  world_typed (by decide) (by rintro o ⟨⟩; rfl) (by decide) (by decide) (by decide)

theorem depot_solid : depot.world.Solid 1 := ⟨rfl, rfl, rfl⟩

/-- The thing is put at index 40 of the box: the answer is that it was moved, and
it is in neither place. -/
theorem depot_loses :
    depot.world.WellFormed ∧ depot.world.Typed ∧ depot.world.Solid 1 ∧
      (depot.internalMoveItem (.tile here) (.container 2) 40 1 1).ret = .noError ∧
      depot.world.total {.tile here, .container 2} 1 = 1 ∧
      (depot.internalMoveItem (.tile here) (.container 2) 40 1 1).game.world.total
        {.tile here, .container 2} 1 = 0 :=
  ⟨depot_wellFormed, depot_typed, depot_solid, by decide⟩

/-- What decides on it there: index 40 is not below the capacity. -/
theorem depot_conserves_iff :
    (∀ S : Finset Cylinder, depot.world.sourceCylinder (.tile here) ∈ S →
      (depot.moveDest 1 (.container 2) 40 {}).cylinder ∈ S → ∀ id,
        (depot.internalMoveItem (.tile here) (.container 2) 40 1 1).game.world.total S id =
          depot.world.total S id) ↔
      depot.world.loses (depot.world.sourceCylinder (.tile here))
        (depot.moveDest 1 (.container 2) 40 {}) 1 1 none none = false :=
  Game.internalMoveItem_conserves_iff depot_wellFormed depot_typed depot_solid (.container 2) 40 {}

end Sample

end TibServer
