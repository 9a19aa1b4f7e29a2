import TibServer.World

/-!
The things of a tile by index (`tile.h`, `tile.cpp`). The items are kept in one vector, the down
items before the top items; by index come the ground, the top items, the creatures and the down
items. Both traversals are those of this order, on every tile that the operations of tiles lead to.
-/

namespace TibServer.TileIndex

/-! ### Lists -/

section Lists

variable {α : Type*} [DecidableEq α] {x : α} {l l' : List α} {n : Int} {i : Nat}

/-- A loop that counts from `n` up to the place of `x`, where it returns; else the count goes on. -/
def scan (n : Int) (x : α) : List α → Except Int Int
  | [] => .ok n
  | y :: l => if y = x then .error (n + 1) else scan (n + 1) x l

theorem scan_append (n : Int) (x : α) (l l' : List α) :
    scan n x (l ++ l') = (scan n x l).bind fun n => scan n x l' := by
  induction l generalizing n with
  | nil => rfl
  | cons y l ih =>
      rw [List.cons_append, scan, scan]
      split
      · rfl
      · exact ih (n + 1)

theorem scan_of_not_mem (h : x ∉ l) : scan n x l = .ok (n + l.length) := by
  induction l generalizing n with
  | nil => simp [scan]
  | cons y l ih =>
      rw [List.mem_cons, not_or] at h
      rw [scan, if_neg (Ne.symm h.1), ih h.2, List.length_cons]
      congr 1
      omega

theorem scan_of_mem (h : x ∈ l) : scan n x l = .error (n + 1 + l.idxOf x) := by
  induction l generalizing n with
  | nil => exact absurd h List.not_mem_nil
  | cons y l ih =>
      rw [scan]
      split_ifs with hy
      · rw [hy, List.idxOf_cons_self]
        simp
      · rw [ih ((List.mem_cons.mp h).resolve_left (Ne.symm hy)), List.idxOf_cons_ne l hy]
        congr 1
        push_cast
        omega

/-- Where nothing is twice, the place of a thing is the one it is found at. -/
theorem getElem?_iff_idxOf (h : l.Nodup) : l[i]? = some x ↔ x ∈ l ∧ l.idxOf x = i := by
  constructor
  · intro hx
    obtain ⟨hi, rfl⟩ := List.getElem?_eq_some_iff.mp hx
    exact ⟨List.getElem_mem hi, h.idxOf_getElem i hi⟩
  · rintro ⟨hx, rfl⟩
    exact List.getElem?_idxOf hx

theorem scan_map {β : Type*} [DecidableEq β] {f : α → β} (hf : Function.Injective f) (n : Int)
    (x : α) (l : List α) : scan n (f x) (l.map f) = scan n x l := by
  induction l generalizing n with
  | nil => rfl
  | cons y l ih => simp only [List.map_cons, scan, ih, hf.eq_iff]

omit [DecidableEq α]

/-- In front of the first entry that passes the test, or at the end. -/
def insertBefore (p : α → Bool) (x : α) : List α → List α
  | [] => [x]
  | y :: l => if p y then x :: y :: l else y :: insertBefore p x l

theorem insertBefore_perm (p : α → Bool) (x : α) (l : List α) :
    (insertBefore p x l).Perm (x :: l) := by
  induction l with
  | nil => exact .refl _
  | cons y l ih =>
      rw [insertBefore]
      split
      · exact .refl _
      · exact (ih.cons y).trans (.swap x y l)

end Lists

/-! ### The tile -/

inductive Thing
  | item (i : ItemRef)
  | creature (c : CreatureId)
  deriving DecidableEq

structure TileItemVector where
  items : List ItemRef := []
  downItemCount : BitVec 16 := 0

namespace TileItemVector

def getDownItemCount (v : TileItemVector) : Nat := v.downItemCount.toNat

/-- The size is never below the count of the down items. -/
def getTopItemCount (v : TileItemVector) : Nat := v.items.length - v.getDownItemCount

def downItems (v : TileItemVector) : List ItemRef := v.items.take v.getDownItemCount

def topItems (v : TileItemVector) : List ItemRef := v.items.drop v.getDownItemCount

end TileItemVector

/-- The vectors of a static tile are made when something is first put into them. -/
structure Tile where
  ground : Option ItemRef := none
  items : Option TileItemVector := none
  creatures : Option (List CreatureId) := none

namespace Tile

def topItems (t : Tile) : List ItemRef := (t.items.map (·.topItems)).getD []

def downItems (t : Tile) : List ItemRef := (t.items.map (·.downItems)).getD []

def creatureList (t : Tile) : List CreatureId := t.creatures.getD []

def getThingCount (t : Tile) : Nat :=
  t.creatureList.length + (t.items.map (·.items.length)).getD 0 + if t.ground.isSome then 1 else 0

/-- The order that clients know: ground, top items, creatures, down items. -/
def arrange (ground : Option ItemRef) (top : List ItemRef) (creatures : List CreatureId)
    (down : List ItemRef) : List Thing :=
  ground.toList.map .item ++ (top.map .item ++ (creatures.map .creature ++ down.map .item))

def order (t : Tile) : List Thing := arrange t.ground t.topItems t.creatureList t.downItems

/-! ### The thing at an index -/

/-- `getThing`, past the creatures. -/
def getDownThing (t : Tile) (index : Nat) : Option Thing :=
  t.items.bind fun items =>
    if index < items.getDownItemCount then items.items[index]?.map .item else none

/-- `getThing`, past the top items. -/
def getCreatureThing (t : Tile) (index : Nat) : Option Thing :=
  match t.creatures with
  | none => t.getDownThing index
  | some creatures =>
      if index < creatures.length then creatures[index]?.map .creature
      else t.getDownThing (index - creatures.length)

/-- `getThing`, past the ground. -/
def getTopThing (t : Tile) (index : Nat) : Option Thing :=
  match t.items with
  | none => t.getCreatureThing index
  | some items =>
      let topItemSize := items.getTopItemCount
      if index < topItemSize then items.items[items.getDownItemCount + index]?.map .item
      else t.getCreatureThing (index - topItemSize)

/-- `Tile::getThing` -/
def getThing (t : Tile) (index : Nat) : Option Thing :=
  match t.ground with
  | none => t.getTopThing index
  | some ground => if index = 0 then some (.item ground) else t.getTopThing (index - 1)

/-! ### The index of a thing -/

section

variable (alwaysOnTop : ItemRef → Bool)

def scanGround (t : Tile) (thing : Thing) (n : Int) : Except Int Int :=
  match t.ground with
  | none => .ok n
  | some ground => if thing = .item ground then .error 0 else .ok (n + 1)

def scanTop (t : Tile) (thing : Thing) (n : Int) : Except Int Int :=
  match t.items, thing with
  | none, _ => .ok n
  | some items, .item item =>
      if alwaysOnTop item then scan n item items.topItems else .ok (n + items.getTopItemCount)
  | some items, .creature _ => .ok (n + items.getTopItemCount)

def scanCreatures (t : Tile) (thing : Thing) (n : Int) : Except Int Int :=
  match t.creatures, thing with
  | none, _ => .ok n
  | some creatures, .creature creature => scan n creature creatures
  | some creatures, .item _ => .ok (n + creatures.length)

def scanDown (t : Tile) (thing : Thing) (n : Int) : Except Int Int :=
  match t.items, thing with
  | some items, .item item =>
      if alwaysOnTop item then .ok n else scan n item items.downItems
  | _, _ => .ok n

/-- `Tile::getThingIndex`; what is returned in the middle is the index. -/
def getThingIndex (t : Tile) (thing : Thing) : Int :=
  let returned := (t.scanGround thing (-1)).bind fun n =>
    (t.scanTop alwaysOnTop thing n).bind fun n =>
      (t.scanCreatures thing n).bind fun n => t.scanDown alwaysOnTop thing n
  match returned with
  | .error n => n
  | .ok _ => -1

end

end Tile

/-! ### The order -/

namespace TileItemVector

variable {v : TileItemVector}

/-- The vector holds as many down items as it counts. -/
def Counted (v : TileItemVector) : Prop := v.getDownItemCount ≤ v.items.length

theorem Counted.length_downItems (h : v.Counted) : v.downItems.length = v.getDownItemCount :=
  List.length_take.trans (Nat.min_eq_left h)

theorem length_topItems (v : TileItemVector) : v.topItems.length = v.getTopItemCount :=
  List.length_drop

end TileItemVector

namespace Tile

/-- What the operations of tiles keep: the vector is split by `alwaysOnTop`, and nothing is on the
tile twice. -/
structure Formed (alwaysOnTop : ItemRef → Bool) (t : Tile) : Prop where
  counted : ∀ v ∈ t.items, v.Counted
  top : ∀ i ∈ t.topItems, alwaysOnTop i = true
  down : ∀ i ∈ t.downItems, alwaysOnTop i = false
  distinct : t.order.Nodup

section Order

variable {alwaysOnTop : ItemRef → Bool} {t : Tile}

theorem getThingCount_eq (h : ∀ v ∈ t.items, v.Counted) : t.getThingCount = t.order.length := by
  obtain ⟨ground, items, creatures⟩ := t
  have hground : ground.toList.length = if ground.isSome then 1 else 0 := by cases ground <;> rfl
  unfold getThingCount order arrange topItems downItems
  simp only [List.length_append, List.length_map]
  rw [hground]
  cases items with
  | none => simp only [Option.map_none, Option.getD_none, List.length_nil]; omega
  | some v =>
      have hcounted : v.getDownItemCount ≤ v.items.length := h v rfl
      simp only [Option.map_some, Option.getD_some]
      rw [v.length_topItems, (h v rfl).length_downItems]
      unfold TileItemVector.getTopItemCount
      omega

theorem getDownThing_eq (t : Tile) (i : Nat) : t.getDownThing i = (t.downItems.map .item)[i]? := by
  unfold getDownThing downItems
  cases t.items with
  | none => rfl
  | some v =>
      rw [List.getElem?_map]
      change (if _ then _ else _) = (v.items.take _)[i]?.map _
      rw [List.getElem?_take]
      split <;> rfl

theorem getCreatureThing_eq (t : Tile) (i : Nat) : t.getCreatureThing i =
    (t.creatureList.map .creature ++ t.downItems.map .item)[i]? := by
  unfold getCreatureThing creatureList
  simp only [getDownThing_eq]
  cases t.creatures with
  | none => rfl
  | some creatures =>
      dsimp only [Option.getD_some]
      rw [List.getElem?_append, List.length_map, List.getElem?_map (l := creatures)]

theorem getTopThing_eq (t : Tile) (i : Nat) : t.getTopThing i =
    (t.topItems.map .item ++ (t.creatureList.map .creature ++ t.downItems.map .item))[i]? := by
  unfold getTopThing
  simp only [getCreatureThing_eq]
  unfold topItems
  cases t.items with
  | none => rfl
  | some v =>
      dsimp only [Option.map_some, Option.getD_some]
      conv_rhs =>
        rw [List.getElem?_append, List.length_map, List.getElem?_map, v.length_topItems,
          TileItemVector.topItems, List.getElem?_drop]

/-- The thing at an index is the one the order has there. -/
theorem getThing_eq (t : Tile) (i : Nat) : t.getThing i = t.order[i]? := by
  unfold getThing order arrange
  simp only [getTopThing_eq]
  cases t.ground with
  | none => rfl
  | some ground =>
      cases i with
      | zero => rfl
      | succ i => rfl

theorem scanGround_eq (t : Tile) (thing : Thing) :
    t.scanGround thing (-1) = scan (-1) thing (t.ground.toList.map .item) := by
  unfold scanGround
  cases t.ground with
  | none => rfl
  | some ground =>
      change (if thing = .item ground then _ else _) = if .item ground = thing then _ else _
      simp only [eq_comm (a := thing)]
      rfl

theorem scan_items_of_creature (n : Int) (c : CreatureId) (l : List ItemRef) :
    scan n (.creature c) (l.map Thing.item) = .ok (n + l.length) := by
  rw [scan_of_not_mem (by simp), List.length_map]

theorem scan_creatures_of_item (n : Int) (i : ItemRef) (l : List CreatureId) :
    scan n (.item i) (l.map Thing.creature) = .ok (n + l.length) := by
  rw [scan_of_not_mem (by simp), List.length_map]

theorem scan_items_of_item (n : Int) (i : ItemRef) (l : List ItemRef) :
    scan n (.item i) (l.map Thing.item) = scan n i l :=
  scan_map (fun _ _ h => Thing.item.inj h) n i l

/-- An item that is not always on top is not looked for among the top items; it is not there. -/
theorem scanTop_eq (h : t.Formed alwaysOnTop) (thing : Thing) (n : Int) :
    t.scanTop alwaysOnTop thing n = scan n thing (t.topItems.map .item) := by
  have htop := h.top
  unfold scanTop
  unfold topItems at htop ⊢
  cases hitems : t.items with
  | none => rfl
  | some v =>
      rw [hitems] at htop
      dsimp only [Option.map_some, Option.getD_some] at htop ⊢
      cases thing with
      | creature c => rw [scan_items_of_creature, v.length_topItems]
      | item i =>
          rw [scan_items_of_item]
          dsimp only
          rw [← v.length_topItems]
          split_ifs with hi
          · rfl
          · exact (scan_of_not_mem fun hmem => hi (htop i hmem)).symm

theorem scanCreatures_eq (t : Tile) (thing : Thing) (n : Int) :
    t.scanCreatures thing n = scan n thing (t.creatureList.map .creature) := by
  unfold scanCreatures creatureList
  cases t.creatures with
  | none => rfl
  | some creatures =>
      cases thing with
      | item i => exact (scan_creatures_of_item n i creatures).symm
      | creature c => exact (scan_map (fun _ _ h => Thing.creature.inj h) n c creatures).symm

/-- Past the down items nothing is looked for, so whether the count went on does not matter. -/
theorem scanDown_eq (h : t.Formed alwaysOnTop) (thing : Thing) (n m : Int) :
    t.scanDown alwaysOnTop thing n = .error m ↔
      scan n thing (t.downItems.map .item) = .error m := by
  have hdown := h.down
  unfold scanDown
  unfold downItems at hdown ⊢
  cases hitems : t.items with
  | none => rfl
  | some v =>
      rw [hitems] at hdown
      dsimp only [Option.map_some, Option.getD_some] at hdown ⊢
      cases thing with
      | creature c => simp [scan_items_of_creature]
      | item i =>
          rw [scan_items_of_item]
          dsimp only
          split_ifs with hi
          · rw [scan_of_not_mem fun hmem => by simp [hdown i hmem] at hi]
            simp
          · rfl

theorem getThingIndex_eq (h : t.Formed alwaysOnTop) (thing : Thing) :
    t.getThingIndex alwaysOnTop thing =
      if thing ∈ t.order then (t.order.idxOf thing : Int) else -1 := by
  have hscan : ∀ m, (t.scanGround thing (-1)).bind (fun n =>
      (t.scanTop alwaysOnTop thing n).bind fun n =>
        (t.scanCreatures thing n).bind fun n => t.scanDown alwaysOnTop thing n) = .error m ↔
      scan (-1) thing t.order = .error m := by
    intro m
    unfold order arrange
    simp only [scan_append, scanGround_eq, scanTop_eq h, scanCreatures_eq]
    cases scan (-1) thing (t.ground.toList.map .item) with
    | error k => rfl
    | ok n =>
        dsimp only [Except.bind]
        cases scan n thing (t.topItems.map .item) with
        | error k => rfl
        | ok n =>
            dsimp only
            cases scan n thing (t.creatureList.map .creature) with
            | error k => rfl
            | ok n => exact scanDown_eq h thing n m
  unfold getThingIndex
  dsimp only
  split_ifs with hmem
  · rw [(hscan _).mpr (scan_of_mem hmem)]
    change (-1 + 1 + _ : Int) = _
    omega
  · rw [scan_of_not_mem hmem] at hscan
    split
    · rename_i m hm
      exact absurd ((hscan m).mp hm) (by simp)
    · rfl

end Order

/-! ### The operations -/

end Tile

/-- What the operations read of an item: its type and count, and whether it is a magic field. -/
structure Kind where
  stackable : Bool := false
  itemCount : Nat := 1
  isGroundTile : Bool := false
  alwaysOnTop : Bool := false
  alwaysOnTopOrder : Nat := 0
  isSplash : Bool := false
  isMagicField : Bool := false
  getMagicField : Bool := false
  replaceable : Bool := true

namespace TileItemVector

/-- Into the part of the top items, by the order of the tops. -/
def insertTop (v : TileItemVector) (p : ItemRef → Bool) (i : ItemRef) : TileItemVector :=
  { v with items := v.downItems ++ insertBefore p i v.topItems }

/-- In front of the down items. -/
def insertDown (v : TileItemVector) (i : ItemRef) : TileItemVector :=
  { items := i :: v.items, downItemCount := v.downItemCount + 1 }

def eraseTop (v : TileItemVector) (i : ItemRef) : TileItemVector :=
  { v with items := v.downItems ++ v.topItems.erase i }

def eraseDown (v : TileItemVector) (i : ItemRef) : TileItemVector :=
  if i ∈ v.downItems then
    { items := v.downItems.erase i ++ v.topItems, downItemCount := v.downItemCount - 1 }
  else v

end TileItemVector

namespace Tile

section Operations

variable (kind : ItemRef → Kind)

/-- `Tile::removeThing`; of a pile of items only the count may be lowered. -/
def removeThing (t : Tile) (count : Nat) : Thing → Tile
  | .creature c => { t with creatures := t.creatures.map (·.erase c) }
  | .item i =>
      if t.getThingIndex (fun o => (kind o).alwaysOnTop) (.item i) = -1 then t
      else if t.ground = some i then { t with ground := none }
      else if (kind i).alwaysOnTop then { t with items := t.items.map (·.eraseTop i) }
      else if (kind i).stackable ∧ count ≠ (kind i).itemCount then t
      else { t with items := t.items.map (·.eraseDown i) }

def makeItemList (t : Tile) : TileItemVector := t.items.getD {}

def addTop (t : Tile) (p : ItemRef → Bool) (i : ItemRef) : Tile :=
  { t with items := some (t.makeItemList.insertTop p i) }

def addDown (t : Tile) (i : ItemRef) : Tile :=
  { t with items := some (t.makeItemList.insertDown i) }

/-- Whether the vector has no room for another item. -/
def full (t : Tile) : Bool := (t.items.map (·.items.length)).getD 0 ≥ 0xFFFF

/-- `Tile::addThing`: a splash takes the place of the first one, a magic field that of the first one
if this may be replaced. -/
def addThing (t : Tile) : Thing → Tile
  | .creature c => { t with creatures := some (c :: t.creatureList) }
  | .item i =>
      if t.full then t
      else if (kind i).isGroundTile then { t with ground := some i }
      else if (kind i).alwaysOnTop then
        let oldSplash :=
          if (kind i).isSplash then t.topItems.find? fun o => (kind o).isSplash else none
        let t := (oldSplash.map fun o => t.removeThing kind 1 (.item o)).getD t
        t.addTop (fun o => (kind i).alwaysOnTopOrder ≤ (kind o).alwaysOnTopOrder) i
      else
        let oldField :=
          if (kind i).isMagicField then t.downItems.find? fun o => (kind o).getMagicField else none
        match oldField with
        | none => t.addDown i
        | some o => if (kind o).replaceable then (t.removeThing kind 1 (.item o)).addDown i else t

/-- `Tile::internalAddThing` -/
def internalAddThing (t : Tile) : Thing → Tile
  | .creature c => { t with creatures := some (c :: t.creatureList) }
  | .item i =>
      if (kind i).isGroundTile then
        if t.ground.isNone then { t with ground := some i } else t
      else if t.full then { t with items := some t.makeItemList }
      else if (kind i).alwaysOnTop then
        t.addTop (fun o => (kind i).alwaysOnTopOrder < (kind o).alwaysOnTopOrder) i
      else t.addDown i

end Operations

/-- `replaceThing`, past the creatures. -/
def replaceDownThing (t : Tile) (pos : Nat) (i : ItemRef) : Tile :=
  match t.items with
  | none => t
  | some v =>
      if pos < v.getDownItemCount then { t with items := some { v with items := v.items.set pos i } }
      else t

/-- `replaceThing`, past the top items. -/
def replaceCreatureThing (t : Tile) (pos : Nat) (i : ItemRef) : Tile :=
  match t.creatures with
  | none => t.replaceDownThing pos i
  | some creatures =>
      if pos < creatures.length then t else t.replaceDownThing (pos - creatures.length) i

/-- `replaceThing`, past the ground. -/
def replaceTopThing (t : Tile) (pos : Nat) (i : ItemRef) : Tile :=
  match t.items with
  | none => t.replaceCreatureThing pos i
  | some v =>
      if pos < v.getTopItemCount then
        { t with items := some { v with items := v.items.set (v.getDownItemCount + pos) i } }
      else t.replaceCreatureThing (pos - v.getTopItemCount) i

/-- `Tile::replaceThing` -/
def replaceThing (t : Tile) (index : Nat) (i : ItemRef) : Tile :=
  match t.ground with
  | none => t.replaceTopThing index i
  | some _ => if index = 0 then { t with ground := some i } else t.replaceTopThing (index - 1) i

/-- What the operations lead to. A thing that is added is not yet on the tile; an item that gets
another type or count there, or another item in its place, stays on its side of the vector:
`Game::transformItem` takes it off the tile first where the types differ in this. -/
inductive Reached : (ItemRef → Kind) → Tile → Prop
  | dynamicTile (kind : ItemRef → Kind) : Reached kind { items := some {}, creatures := some [] }
  | staticTile (kind : ItemRef → Kind) : Reached kind {}
  | addThing {kind : ItemRef → Kind} {t : Tile} {x : Thing} (h : Reached kind t)
      (hx : x ∉ t.order) : Reached kind (t.addThing kind x)
  | internalAddThing {kind : ItemRef → Kind} {t : Tile} {x : Thing} (h : Reached kind t)
      (hx : x ∉ t.order) : Reached kind (t.internalAddThing kind x)
  | removeThing {kind : ItemRef → Kind} {t : Tile} (count : Nat) (x : Thing)
      (h : Reached kind t) : Reached kind (t.removeThing kind count x)
  | updateThing {kind : ItemRef → Kind} {t : Tile} {i : ItemRef} {type : Kind} (h : Reached kind t)
      (hi : .item i ∈ t.order → type.alwaysOnTop = (kind i).alwaysOnTop) :
      Reached (Function.update kind i type) t
  | replaceThing {kind : ItemRef → Kind} {t : Tile} {i : ItemRef} {index : Nat}
      (h : Reached kind t) (hi : .item i ∉ t.order)
      (ho : ∀ o, t.getThing index = some (.item o) → (kind o).alwaysOnTop = (kind i).alwaysOnTop) :
      Reached kind (t.replaceThing index i)

/-! ### What they keep -/

section Kept

variable {kind : ItemRef → Kind} {t : Tile} {i : ItemRef} {c : CreatureId} {l : List CreatureId}

abbrev WellFormed (kind : ItemRef → Kind) (t : Tile) : Prop :=
  t.Formed fun i => (kind i).alwaysOnTop

/-- The items stay as they are; the ground and the creatures may change. -/
theorem Formed.of_items {alwaysOnTop : ItemRef → Bool} {t t' : Tile} (h : t.Formed alwaysOnTop)
    (hitems : t'.items = t.items) (hdistinct : t'.order.Nodup) : t'.Formed alwaysOnTop where
  counted := by
    rw [hitems]
    exact h.counted
  top := by
    unfold topItems
    rw [hitems]
    exact h.top
  down := by
    unfold downItems
    rw [hitems]
    exact h.down
  distinct := hdistinct

theorem mem_order_item : .item i ∈ t.order ↔
    t.ground = some i ∨ i ∈ t.topItems ∨ i ∈ t.downItems := by
  unfold order arrange
  simp

theorem Formed.addCreature (h : t.WellFormed kind) (hc : .creature c ∉ t.order) :
    WellFormed kind { t with creatures := some (c :: t.creatureList) } := by
  refine h.of_items rfl ?_
  have hperm : (order { t with creatures := some (c :: t.creatureList) }).Perm
      (.creature c :: t.order) := by
    exact (List.perm_middle.append_left _).trans List.perm_middle
  exact hperm.nodup_iff.mpr (List.nodup_cons.mpr ⟨hc, h.distinct⟩)

theorem Formed.setGround (h : t.WellFormed kind) (hi : .item i ∉ t.order) :
    WellFormed kind { t with ground := some i } := by
  refine h.of_items rfl ?_
  have hrest := (List.nodup_append.mp h.distinct).2.1
  refine List.nodup_cons.mpr ⟨fun hmem => hi ?_, hrest⟩
  exact List.mem_append_right _ hmem

/-! #### The vector -/

theorem split_of {v : TileItemVector} {D T : List ItemRef} (hitems : v.items = D ++ T)
    (hcount : v.getDownItemCount = D.length) : v.Counted ∧ v.downItems = D ∧ v.topItems = T := by
  unfold TileItemVector.Counted TileItemVector.downItems TileItemVector.topItems
  rw [hcount, hitems]
  exact ⟨by simp, by simp, by simp⟩

theorem insertTop_split {v : TileItemVector} (h : v.Counted) (p : ItemRef → Bool) (i : ItemRef) :
    (v.insertTop p i).Counted ∧ (v.insertTop p i).downItems = v.downItems ∧
      (v.insertTop p i).topItems = insertBefore p i v.topItems :=
  split_of rfl h.length_downItems.symm

theorem insertDown_split {v : TileItemVector} (h : v.Counted) (hroom : v.items.length < 0xFFFF)
    (i : ItemRef) : (v.insertDown i).Counted ∧ (v.insertDown i).downItems = i :: v.downItems ∧
      (v.insertDown i).topItems = v.topItems := by
  refine split_of ?_ ?_
  · exact congrArg (i :: ·) (List.take_append_drop v.getDownItemCount v.items).symm
  · have hcount : v.downItemCount.toNat ≤ v.items.length := h
    rw [List.length_cons, h.length_downItems]
    change (v.downItemCount + 1).toNat = v.downItemCount.toNat + 1
    rw [BitVec.toNat_add]
    exact Nat.mod_eq_of_lt (show v.downItemCount.toNat + 1 < 2 ^ 16 by omega)

theorem eraseTop_split {v : TileItemVector} (h : v.Counted) (i : ItemRef) :
    (v.eraseTop i).Counted ∧ (v.eraseTop i).downItems = v.downItems ∧
      (v.eraseTop i).topItems = v.topItems.erase i :=
  split_of rfl h.length_downItems.symm

theorem eraseDown_split {v : TileItemVector} (h : v.Counted) (i : ItemRef) :
    (v.eraseDown i).Counted ∧ (v.eraseDown i).downItems = v.downItems.erase i ∧
      (v.eraseDown i).topItems = v.topItems := by
  unfold TileItemVector.eraseDown
  split_ifs with hi
  · refine split_of rfl ?_
    have hpos := List.length_pos_of_mem hi
    rw [h.length_downItems] at hpos
    rw [List.length_erase_of_mem hi, h.length_downItems]
    change (v.downItemCount - 1).toNat = v.downItemCount.toNat - 1
    have hpos' : 0 < v.downItemCount.toNat := hpos
    bv_omega
  · rw [List.erase_of_not_mem hi]
    exact ⟨h, rfl, rfl⟩

theorem length_eraseTop_le {v : TileItemVector} (i : ItemRef) :
    (v.eraseTop i).items.length ≤ v.items.length := by
  have hsplit := congrArg List.length (List.take_append_drop v.getDownItemCount v.items)
  have herase := List.length_erase_le (a := i) (l := v.topItems)
  unfold TileItemVector.topItems at herase
  unfold TileItemVector.eraseTop TileItemVector.downItems TileItemVector.topItems
  simp only [List.length_append] at hsplit ⊢
  omega

theorem length_eraseDown_le {v : TileItemVector} (i : ItemRef) :
    (v.eraseDown i).items.length ≤ v.items.length := by
  unfold TileItemVector.eraseDown
  split_ifs
  · have hsplit := congrArg List.length (List.take_append_drop v.getDownItemCount v.items)
    have herase := List.length_erase_le (a := i) (l := v.downItems)
    unfold TileItemVector.downItems at herase
    simp only [List.length_append] at hsplit ⊢
    unfold TileItemVector.downItems TileItemVector.topItems
    omega
  · exact Nat.le_refl _

theorem makeItemList_split (h : ∀ v ∈ t.items, v.Counted) : t.makeItemList.Counted ∧
    t.makeItemList.downItems = t.downItems ∧ t.makeItemList.topItems = t.topItems := by
  unfold makeItemList downItems topItems
  cases hitems : t.items with
  | none => exact ⟨Nat.le_refl 0, rfl, rfl⟩
  | some v => exact ⟨h v hitems, rfl, rfl⟩

theorem makeItemList_room (h : t.full = false) : t.makeItemList.items.length < 0xFFFF := by
  unfold full at h
  unfold makeItemList
  cases hitems : t.items with
  | none => exact Nat.zero_lt_succ _
  | some v =>
      rw [hitems] at h
      simpa using h

/-- Another vector, by its two parts. -/
theorem formed_of_split {v : TileItemVector} {D T : List ItemRef}
    (hv : v.Counted ∧ v.downItems = D ∧ v.topItems = T)
    (htop : ∀ o ∈ T, (kind o).alwaysOnTop = true) (hdown : ∀ o ∈ D, (kind o).alwaysOnTop = false)
    (hdistinct : (arrange t.ground T t.creatureList D).Nodup) :
    WellFormed kind { t with items := some v } := by
  obtain ⟨hcounted, rfl, rfl⟩ := hv
  refine ⟨fun w hw => ?_, htop, hdown, hdistinct⟩
  obtain rfl : v = w := Option.some.inj hw
  exact hcounted

theorem Formed.addTop (h : t.WellFormed kind) (hi : .item i ∉ t.order)
    (hkind : (kind i).alwaysOnTop = true) (p : ItemRef → Bool) : WellFormed kind (t.addTop p i) := by
  obtain ⟨hcounted, hdown, htop⟩ := makeItemList_split h.counted
  have hsplit := insertTop_split hcounted p i
  rw [hdown, htop] at hsplit
  have hperm := insertBefore_perm p i t.topItems
  refine formed_of_split hsplit (fun o ho => ?_) h.down ?_
  · rcases List.mem_cons.mp (hperm.mem_iff.mp ho) with rfl | hrest
    · exact hkind
    · exact h.top o hrest
  · have horder := ((hperm.map Thing.item).append_right
      (t.creatureList.map .creature ++ t.downItems.map .item)).append_left
      (t.ground.toList.map Thing.item)
    exact (horder.trans List.perm_middle).nodup_iff.mpr (List.nodup_cons.mpr ⟨hi, h.distinct⟩)

theorem Formed.addDown (h : t.WellFormed kind) (hi : .item i ∉ t.order)
    (hkind : (kind i).alwaysOnTop = false) (hroom : t.makeItemList.items.length < 0xFFFF) :
    WellFormed kind (t.addDown i) := by
  obtain ⟨hcounted, hdown, htop⟩ := makeItemList_split h.counted
  have hsplit := insertDown_split hcounted hroom i
  rw [hdown, htop] at hsplit
  refine formed_of_split hsplit h.top (fun o ho => ?_) ?_
  · rcases List.mem_cons.mp ho with rfl | hrest
    · exact hkind
    · exact h.down o hrest
  · have horder : (arrange t.ground t.topItems t.creatureList (i :: t.downItems)).Perm
        (.item i :: t.order) :=
      (((List.perm_middle.append_left _).trans List.perm_middle).append_left _).trans
        List.perm_middle
    exact horder.nodup_iff.mpr (List.nodup_cons.mpr ⟨hi, h.distinct⟩)

/-- What is taken off the tile leaves the others in their order. -/
theorem Formed.of_sublist {t' : Tile} (h : t.WellFormed kind) (hcounted : ∀ v ∈ t'.items, v.Counted)
    (htop : t'.topItems.Sublist t.topItems) (hdown : t'.downItems.Sublist t.downItems)
    (horder : t'.order.Sublist t.order) : WellFormed kind t' where
  counted := hcounted
  top o ho := h.top o (htop.subset ho)
  down o ho := h.down o (hdown.subset ho)
  distinct := h.distinct.sublist horder

theorem arrange_sublist {g g' : Option ItemRef} {T T' D D' : List ItemRef}
    {C C' : List CreatureId} (hg : g'.toList.Sublist g.toList) (hT : T'.Sublist T)
    (hC : C'.Sublist C) (hD : D'.Sublist D) : (arrange g' T' C' D').Sublist (arrange g T C D) :=
  (hg.map _).append ((hT.map _).append ((hC.map _).append (hD.map _)))

/-- The parts of the vector are those of `t` with some items taken out. -/
theorem removeThing_parts (h : ∀ v ∈ t.items, v.Counted) (count : Nat) (x : Thing) :
    (∀ v ∈ (t.removeThing kind count x).items, v.Counted) ∧
      (t.removeThing kind count x).topItems.Sublist t.topItems ∧
      (t.removeThing kind count x).downItems.Sublist t.downItems ∧
      (t.removeThing kind count x).order.Sublist t.order := by
  have hrefl : ∀ l : List ItemRef, l.Sublist l := List.Sublist.refl
  cases x with
  | creature c =>
      refine ⟨h, hrefl _, hrefl _, arrange_sublist (hrefl _) (hrefl _) ?_ (hrefl _)⟩
      unfold Tile.removeThing creatureList
      cases t.creatures with
      | none => exact hrefl _
      | some creatures => exact List.erase_sublist
  | item i =>
      have hparts : ∀ f : TileItemVector → TileItemVector,
          (∀ v ∈ t.items, (f v).Counted ∧ (f v).topItems.Sublist v.topItems ∧
            (f v).downItems.Sublist v.downItems) →
          (∀ v ∈ t.items.map f, v.Counted) ∧
            (topItems { t with items := t.items.map f }).Sublist t.topItems ∧
            (downItems { t with items := t.items.map f }).Sublist t.downItems := by
        intro f hf
        unfold topItems downItems
        cases hitems : t.items with
        | none => exact ⟨fun _ hv => absurd hv (Option.not_mem_none _), hrefl _, hrefl _⟩
        | some v =>
            obtain ⟨hcounted, htop, hdown⟩ := hf v hitems
            refine ⟨fun w hw => ?_, htop, hdown⟩
            obtain rfl : f v = w := Option.some.inj hw
            exact hcounted
      have hcreatures : t.creatureList.Sublist t.creatureList := List.Sublist.refl _
      unfold Tile.removeThing
      dsimp only
      split_ifs
      · exact ⟨h, hrefl _, hrefl _, List.Sublist.refl _⟩
      · exact ⟨h, hrefl _, hrefl _,
          arrange_sublist (List.nil_sublist _) (hrefl _) hcreatures (hrefl _)⟩
      · obtain ⟨hcounted, htop, hdown⟩ := hparts (·.eraseTop i) fun v hv => by
          obtain ⟨hc, hd, ht⟩ := eraseTop_split (h v hv) i
          exact ⟨hc, ht ▸ List.erase_sublist, hd ▸ hrefl _⟩
        exact ⟨hcounted, htop, hdown, arrange_sublist (hrefl _) htop hcreatures hdown⟩
      · exact ⟨h, hrefl _, hrefl _, List.Sublist.refl _⟩
      · obtain ⟨hcounted, htop, hdown⟩ := hparts (·.eraseDown i) fun v hv => by
          obtain ⟨hc, hd, ht⟩ := eraseDown_split (h v hv) i
          exact ⟨hc, ht ▸ hrefl _, hd ▸ List.erase_sublist⟩
        exact ⟨hcounted, htop, hdown, arrange_sublist (hrefl _) htop hcreatures hdown⟩

theorem Formed.removeThing (h : t.WellFormed kind) (count : Nat) (x : Thing) :
    WellFormed kind (t.removeThing kind count x) := by
  obtain ⟨hcounted, htop, hdown, horder⟩ := @removeThing_parts kind t h.counted count x
  exact h.of_sublist hcounted htop hdown horder

theorem length_removeThing_le (t : Tile) (count : Nat) (o : ItemRef) :
    (t.removeThing kind count (.item o)).makeItemList.items.length ≤
      t.makeItemList.items.length := by
  unfold Tile.removeThing makeItemList
  dsimp only
  split_ifs
  · exact Nat.le_refl _
  · exact Nat.le_refl _
  · cases t.items with
    | none => exact Nat.le_refl _
    | some v => exact length_eraseTop_le o
  · exact Nat.le_refl _
  · cases t.items with
    | none => exact Nat.le_refl _
    | some v => exact length_eraseDown_le o

theorem Formed.addThing (h : t.WellFormed kind) {x : Thing} (hx : x ∉ t.order) :
    WellFormed kind (t.addThing kind x) := by
  have hremoved : ∀ o, t.WellFormed kind → x ∉ t.order →
      WellFormed kind (t.removeThing kind 1 (.item o)) ∧
        x ∉ (t.removeThing kind 1 (.item o)).order := fun o h hx =>
    ⟨h.removeThing 1 _, fun hmem =>
      hx ((@removeThing_parts kind t h.counted 1 (.item o)).2.2.2.subset hmem)⟩
  cases x with
  | creature c => exact h.addCreature hx
  | item i =>
      unfold Tile.addThing
      dsimp only
      split_ifs with hfull hground htop hsplash hfield
      · exact h
      · exact h.setGround hx
      · cases t.topItems.find? fun o => (kind o).isSplash with
        | none => exact h.addTop hx htop _
        | some o => exact (hremoved o h hx).1.addTop (hremoved o h hx).2 htop _
      · exact h.addTop hx htop _
      · have hroom := makeItemList_room (Bool.eq_false_iff.mpr hfull)
        cases t.downItems.find? fun o => (kind o).getMagicField with
        | none => exact h.addDown hx (Bool.eq_false_iff.mpr htop) hroom
        | some o =>
            dsimp only
            split_ifs
            · exact (hremoved o h hx).1.addDown (hremoved o h hx).2 (Bool.eq_false_iff.mpr htop)
                ((length_removeThing_le t 1 o).trans_lt hroom)
            · exact h
      · exact h.addDown hx (Bool.eq_false_iff.mpr htop)
          (makeItemList_room (Bool.eq_false_iff.mpr hfull))

theorem Formed.internalAddThing (h : t.WellFormed kind) {x : Thing} (hx : x ∉ t.order) :
    WellFormed kind (t.internalAddThing kind x) := by
  cases x with
  | creature c => exact h.addCreature hx
  | item i =>
      unfold Tile.internalAddThing
      dsimp only
      split_ifs with hground _ hfull htop
      · exact h.setGround hx
      · exact h
      · exact formed_of_split (makeItemList_split h.counted) h.top h.down h.distinct
      · exact h.addTop hx htop _
      · exact h.addDown hx (Bool.eq_false_iff.mpr htop)
          (makeItemList_room (Bool.eq_false_iff.mpr hfull))

/-! #### Replacing -/

theorem arrange_set_top {g : Option ItemRef} {T D : List ItemRef} {n : Nat} (hn : n < T.length)
    (i : ItemRef) :
    arrange g (T.set n i) l D = (arrange g T l D).set (g.toList.length + n) (.item i) := by
  unfold arrange
  rw [List.set_append_right _ _ (by simp), List.set_append_left _ _ (by simpa using hn),
    List.map_set]
  simp

theorem arrange_set_down {g : Option ItemRef} {T D : List ItemRef} {n : Nat} (i : ItemRef) :
    arrange g T l (D.set n i) =
      (arrange g T l D).set (g.toList.length + (T.length + (l.length + n))) (.item i) := by
  unfold arrange
  rw [List.set_append_right _ _ (by simp), List.set_append_right _ _ (by simp),
    List.set_append_right _ _ (by simp), List.map_set]
  simp

/-- An item in the place of another one that is on the same side of the vector. -/
theorem formed_set {v : TileItemVector} (h : t.WellFormed kind) (hitems : t.items = some v)
    (hi : .item i ∉ t.order) {n : Nat} (hn : n < v.items.length)
    (hkind : ∀ o, v.items[n]? = some o → (kind o).alwaysOnTop = (kind i).alwaysOnTop) :
    WellFormed kind { t with items := some { v with items := v.items.set n i } } := by
  have hold := hkind _ (List.getElem?_eq_getElem hn)
  have htop : t.topItems = v.topItems := by
    unfold topItems
    rw [hitems]
    rfl
  have hdown : t.downItems = v.downItems := by
    unfold downItems
    rw [hitems]
    rfl
  have hcounted : v.getDownItemCount ≤ v.items.length := h.counted v hitems
  have hcounted' : v.getDownItemCount ≤ (v.items.set n i).length := by rwa [List.length_set]
  by_cases hside : n < v.getDownItemCount
  · have hmem : v.items[n] ∈ t.downItems := by
      rw [hdown]
      exact List.mem_take_iff_getElem.mpr ⟨n, by omega, rfl⟩
    refine formed_of_split ⟨hcounted', List.take_set, List.drop_set_of_lt hside⟩
      (fun o ho => h.top o (htop ▸ ho)) (fun o ho => ?_) ?_
    · rcases List.mem_or_eq_of_mem_set ho with hrest | rfl
      · exact h.down o (hdown ▸ hrest)
      · exact hold ▸ h.down _ hmem
    · change (arrange t.ground v.topItems t.creatureList (v.downItems.set n i)).Nodup
      rw [← htop, ← hdown, arrange_set_down]
      exact h.distinct.set hi
  · have hmem : v.items[n] ∈ t.topItems := by
      rw [htop]
      refine List.mem_drop_iff_getElem.mpr ⟨n - v.getDownItemCount, by omega, ?_⟩
      congr 1
      omega
    have htake : (v.items.set n i).take v.getDownItemCount = v.downItems :=
      List.take_set_of_le (Nat.le_of_not_lt hside)
    have hdrop : (v.items.set n i).drop v.getDownItemCount =
        v.topItems.set (n - v.getDownItemCount) i := List.drop_set.trans (if_neg hside)
    refine formed_of_split ⟨hcounted', htake, hdrop⟩
      (fun o ho => ?_) (fun o ho => h.down o (hdown ▸ ho)) ?_
    · rcases List.mem_or_eq_of_mem_set ho with hrest | rfl
      · exact h.top o (htop ▸ hrest)
      · exact hold ▸ h.top _ hmem
    · have hlen : n - v.getDownItemCount < v.topItems.length := by
        rw [v.length_topItems]
        unfold TileItemVector.getTopItemCount
        omega
      rw [arrange_set_top hlen, ← htop, ← hdown]
      exact h.distinct.set hi

theorem Formed.replaceDownThing (h : t.WellFormed kind) {pos : Nat} (hi : .item i ∉ t.order)
    (ho : ∀ o, t.getDownThing pos = some (.item o) → (kind o).alwaysOnTop = (kind i).alwaysOnTop) :
    WellFormed kind (t.replaceDownThing pos i) := by
  unfold getDownThing at ho
  unfold Tile.replaceDownThing
  cases hitems : t.items with
  | none => exact h
  | some v =>
      rw [hitems] at ho
      dsimp only [Option.bind_some] at ho ⊢
      split_ifs at ho ⊢ with hpos
      · have hcounted : v.getDownItemCount ≤ v.items.length := h.counted v hitems
        exact formed_set h hitems hi (by omega) fun o hv => ho o (by rw [hv]; rfl)
      · exact h

theorem Formed.replaceCreatureThing (h : t.WellFormed kind) {pos : Nat} (hi : .item i ∉ t.order)
    (ho : ∀ o, t.getCreatureThing pos = some (.item o) →
      (kind o).alwaysOnTop = (kind i).alwaysOnTop) :
    WellFormed kind (t.replaceCreatureThing pos i) := by
  unfold getCreatureThing at ho
  unfold Tile.replaceCreatureThing
  cases hcreatures : t.creatures with
  | none =>
      rw [hcreatures] at ho
      exact h.replaceDownThing hi ho
  | some creatures =>
      rw [hcreatures] at ho
      dsimp only at ho ⊢
      split_ifs at ho ⊢
      · exact h
      · exact h.replaceDownThing hi ho

theorem Formed.replaceTopThing (h : t.WellFormed kind) {pos : Nat} (hi : .item i ∉ t.order)
    (ho : ∀ o, t.getTopThing pos = some (.item o) → (kind o).alwaysOnTop = (kind i).alwaysOnTop) :
    WellFormed kind (t.replaceTopThing pos i) := by
  unfold getTopThing at ho
  unfold Tile.replaceTopThing
  cases hitems : t.items with
  | none =>
      rw [hitems] at ho
      exact h.replaceCreatureThing hi ho
  | some v =>
      rw [hitems] at ho
      dsimp only at ho ⊢
      split_ifs at ho ⊢ with hpos
      · have hcounted : v.getDownItemCount ≤ v.items.length := h.counted v hitems
        unfold TileItemVector.getTopItemCount at hpos
        exact formed_set h hitems hi (by omega) fun o hv => ho o (by rw [hv]; rfl)
      · exact h.replaceCreatureThing hi ho

theorem Formed.replaceThing (h : t.WellFormed kind) {index : Nat} (hi : .item i ∉ t.order)
    (ho : ∀ o, t.getThing index = some (.item o) → (kind o).alwaysOnTop = (kind i).alwaysOnTop) :
    WellFormed kind (t.replaceThing index i) := by
  unfold getThing at ho
  unfold Tile.replaceThing
  cases hground : t.ground with
  | none =>
      rw [hground] at ho
      exact h.replaceTopThing hi ho
  | some ground =>
      rw [hground] at ho
      dsimp only at ho ⊢
      split_ifs at ho ⊢
      · exact h.setGround hi
      · exact h.replaceTopThing hi ho

theorem Formed.updateThing {type : Kind} (h : t.WellFormed kind)
    (hi : .item i ∈ t.order → type.alwaysOnTop = (kind i).alwaysOnTop) :
    WellFormed (Function.update kind i type) t := by
  have hkind : ∀ o, .item o ∈ t.order →
      (Function.update kind i type o).alwaysOnTop = (kind o).alwaysOnTop := by
    intro o ho
    by_cases hoi : o = i
    · subst hoi
      rw [Function.update_self]
      exact hi ho
    · rw [Function.update_of_ne hoi]
  exact {
    counted := h.counted
    top := fun o ho => (hkind o (mem_order_item.mpr (.inr (.inl ho)))).trans (h.top o ho)
    down := fun o ho => (hkind o (mem_order_item.mpr (.inr (.inr ho)))).trans (h.down o ho)
    distinct := h.distinct }

/-- Whatever the operations do, the vector stays split, and nothing is on the tile twice. -/
theorem Reached.formed (h : Reached kind t) : t.WellFormed kind := by
  induction h with
  | dynamicTile kind =>
      refine ⟨fun v hv => ?_, fun o ho => absurd ho List.not_mem_nil,
        fun o ho => absurd ho List.not_mem_nil, List.nodup_nil⟩
      obtain rfl : ({} : TileItemVector) = v := Option.some.inj hv
      exact Nat.le_refl 0
  | staticTile kind =>
      exact ⟨fun v hv => absurd hv (Option.not_mem_none v), fun o ho => absurd ho List.not_mem_nil,
        fun o ho => absurd ho List.not_mem_nil, List.nodup_nil⟩
  | addThing _ hx ih => exact ih.addThing hx
  | internalAddThing _ hx ih => exact ih.internalAddThing hx
  | removeThing count x _ ih => exact ih.removeThing count x
  | updateThing _ hi ih => exact ih.updateThing hi
  | replaceThing _ hi ho ih => exact ih.replaceThing hi ho

end Kept

/-! ### The correspondence -/

/-- On every tile that the operations lead to, what is at an index and the index of a thing are
inverse to each other, in the order ground, top items, creatures, down items. -/
theorem thing_index {kind : ItemRef → Kind} {t : Tile} (h : Reached kind t) :
    t.getThingCount = t.order.length ∧ (∀ index, t.getThing index = t.order[index]?) ∧
      ∀ (index : Nat) (thing : Thing), t.getThing index = some thing ↔
        t.getThingIndex (fun i => (kind i).alwaysOnTop) thing = index := by
  have hformed := h.formed
  refine ⟨getThingCount_eq hformed.counted, getThing_eq t, fun index thing => ?_⟩
  rw [getThing_eq, getElem?_iff_idxOf hformed.distinct, getThingIndex_eq hformed]
  split_ifs with hmem
  · rw [and_iff_right hmem, Nat.cast_inj]
  · constructor
    · rintro ⟨hthing, -⟩
      exact absurd hthing hmem
    · intro hneg
      exact hneg.elim

end Tile

namespace Sample

/-- Grass under everything, a splash on top, gold and a bag. -/
def kind : ItemRef → Kind
  | 0 => { isGroundTile := true }
  | 1 => { alwaysOnTop := true, isSplash := true }
  | 2 => { stackable := true, itemCount := 40 }
  | _ => {}

/-- A tile onto which they came, with a creature, one after another. -/
def cluttered : Tile :=
  (((((({ items := some {}, creatures := some [] } : Tile).addThing kind (.item 0)).addThing kind
    (.item 3)).addThing kind (.creature 7)).addThing kind (.item 2)).addThing kind (.item 1))

/-- The creature is behind the ground and the splash, and in front of what lies there. -/
theorem cluttered_index : cluttered.getThing 2 = some (.creature 7) ↔
    cluttered.getThingIndex (fun i => (kind i).alwaysOnTop) (.creature 7) = 2 := by
  have h0 := Tile.Reached.dynamicTile kind
  have h1 := h0.addThing (x := .item 0) (by decide)
  have h2 := h1.addThing (x := .item 3) (by decide)
  have h3 := h2.addThing (x := .creature 7) (by decide)
  have h4 := h3.addThing (x := .item 2) (by decide)
  have h5 := h4.addThing (x := .item 1) (by decide)
  exact (Tile.thing_index h5).2.2 2 (.creature 7)

end Sample

end TibServer.TileIndex
