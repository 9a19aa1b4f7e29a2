import TibServer.Query

/-!
`queryDestination`: where a cylinder sends a thing that is put into it
(`container.cpp`, `player.cpp`, `tile.cpp`, `housetile.cpp`).

The source writes the answer through references; here it is one record, which
starts with the values the references have before the call.
-/

namespace TibServer

/-- The returned cylinder and what `index`, `destItem` and `flags` refer to. -/
structure Dest where
  cylinder : Cylinder
  index : Int
  destItem : Option ItemRef := none
  flags : Flags := {}
  deriving DecidableEq

namespace World

variable (w : World)

/-! ### Containers -/

/-- The first stack of a list the item can merge into. -/
def findStack (i : ItemRef) (l : List ItemRef) : Option ItemRef :=
  l.find? fun o => o != i && w.equals o i && decide (w.getItemCount o < 100)

/-- `getItemByIndex`, with a signed index. -/
def itemByIndex (l : List ItemRef) (index : Int) : Option ItemRef :=
  if 0 ≤ index then l[index.toNat]? else none

/-- The last part of `Container::queryDestination`: the item at the index, or
the container it is. -/
def descend (c : ItemRef) (d : Dest) : Dest :=
  if d.index = INDEX_WHEREEVER then d
  else
    let destItem := (itemByIndex (w.itemlist c) d.index).orElse fun _ => d.destItem
    match destItem with
    | some o =>
        if (w.getContainer o).isSome then
          { d with cylinder := .container o, index := INDEX_WHEREEVER, destItem := none }
        else { d with destItem := some o }
    | none => { d with destItem := none }

/-- A stack the item can merge into comes before the index. -/
def stackOrDescend (c i : ItemRef) (d : Dest) : Dest :=
  if !d.flags.ignoreAutoStack && w.isStackable i && w.getParent i != some (.container c) then
    match w.findStack i (w.itemlist c) with
    | some o => { d with index := ((w.itemlist c).idxOf o : Int), destItem := some o }
    | none => w.descend c d
  else w.descend c d

def containerQueryDestination (c i : ItemRef) (d : Dest) : Dest :=
  match w.getContainer c with
  | none => d
  | some k =>
      if !k.unlocked then { d with destItem := none }
      else if d.index = 254 then
        -- move up
        match w.getParent c with
        | some (.container r) =>
            { d with cylinder := .container r, index := INDEX_WHEREEVER, destItem := none }
        | _ => { d with index := INDEX_WHEREEVER, destItem := none }
      else if d.index = 255 ∨ (d.index ≥ k.capacity ∧ !k.hasPagination) then
        w.stackOrDescend c i { d with index := INDEX_WHEREEVER, destItem := none }
      else w.stackOrDescend c i d

/-! ### Players -/

/-- What the loop over the slots finds: a place, or the containers to search. -/
inductive SlotSearch
  | found (slot : Nat) (destItem : Option ItemRef)
  | containers (l : List ItemRef)

/-- The loop over the slots `CONST_SLOT_FIRST` to `CONST_SLOT_AMMO`. -/
def searchSlots (p : PlayerId) (tradeItem : Option ItemRef) (i : ItemRef) (flags : Flags)
    (autoStack : Bool) : List Nat → List ItemRef → SlotSearch
  | [], found => .containers found
  | s :: rest, found =>
      match (w.player p).inventory s with
      | some o =>
          if some o = tradeItem ∨ o = i then
            searchSlots p tradeItem i flags autoStack rest found
          else if autoStack && w.isStackable i &&
              decide (w.playerQueryAdd p s i (w.getItemCount i) {} = .noError) &&
              w.equals o i && decide (w.getItemCount o < 100) then
            .found s (some o)
          else
            searchSlots p tradeItem i flags autoStack rest
              (if (w.getContainer o).isSome then found ++ [o] else found)
      | none =>
          if w.playerQueryAdd p s i (w.getItemCount i) flags = .noError then .found s none
          else searchSlots p tradeItem i flags autoStack rest found

/-- The free places of a container, tried in order: `n` of them are left. -/
def searchFree (c i : ItemRef) (flags : Flags) (capacity : Nat) : Nat → Option Int
  | 0 => none
  | n + 1 =>
      let index : Int := (BitVec.ofNat 32 capacity - BitVec.ofNat 32 (n + 1)).toInt
      if w.queryAdd (.container c) index i (w.getItemCount i) flags = .noError then
        some index
      else searchFree c i flags capacity n

/-- The loop over a container's items that looks for a stack: what it stops at,
or the number of items looked at and the containers among them. -/
def searchStack (tradeItem : Option ItemRef) (i : ItemRef) :
    List ItemRef → Nat → List ItemRef → (Nat × ItemRef) ⊕ (Nat × List ItemRef)
  | [], n, found => .inr (n, found)
  | o :: rest, n, found =>
      if some o = tradeItem ∨ o = i then searchStack tradeItem i rest n found
      else if w.equals o i ∧ w.getItemCount o < 100 then .inl (n, o)
      else
        searchStack tradeItem i rest (n + 1)
          (if (w.getContainer o).isSome then found ++ [o] else found)

/-- The loop over the containers found, which grows as they are searched. -/
def searchContainers (tradeItem : Option ItemRef) (i : ItemRef) (flags : Flags)
    (autoStack : Bool) : Nat → List ItemRef → Option Dest
  | 0, _ => none
  | _, [] => none
  | fuel + 1, c :: queue =>
      match w.getContainer c with
      | none => searchContainers tradeItem i flags autoStack fuel queue
      | some k =>
          if !autoStack || !w.isStackable i then
            -- `uint32_t n = capacity() - size()`
            match w.searchFree c i flags k.capacity
                (BitVec.ofNat 32 k.capacity - BitVec.ofNat 32 k.size).toNat with
            | some index => some { cylinder := .container c, index, flags }
            | none =>
                searchContainers tradeItem i flags autoStack fuel
                  (queue ++ k.itemlist.filter fun o => (w.getContainer o).isSome)
          else
            match w.searchStack tradeItem i k.itemlist 0 [] with
            | .inl (n, o) =>
                some { cylinder := .container c, index := n, destItem := some o, flags }
            | .inr (n, found) =>
                if n < k.capacity ∧
                    w.queryAdd (.container c) n i (w.getItemCount i) flags = .noError then
                  some { cylinder := .container c, index := n, flags }
                else searchContainers tradeItem i flags autoStack fuel (queue ++ found)

def playerQueryDestination (p : PlayerId) (tradeItem : Option ItemRef) (i : ItemRef)
    (d : Dest) : Dest :=
  if d.index = 0 ∨ d.index = INDEX_WHEREEVER then
    let autoStack := !d.flags.ignoreAutoStack
    match w.searchSlots p tradeItem i d.flags autoStack (List.range' 1 10) [] with
    | .found slot destItem => { d with index := slot, destItem }
    | .containers l =>
        (w.searchContainers tradeItem i d.flags autoStack w.walkFuel l).getD
          { d with destItem := none }
  else
    match w.getInventoryItem p d.index with
    | some o =>
        if (w.getContainer o).isSome then
          { d with cylinder := .container o, index := INDEX_WHEREEVER, destItem := none }
        else { d with destItem := some o }
    | none => d

/-! ### Tiles -/

/-- `Map::getTile(x, y, z)`, with coordinates that wrap as `uint16_t` and `uint8_t` do. -/
def tileAt (x y z : Int) : Option Position :=
  let pos : Position := ⟨(x % 65536).toNat, (y % 65536).toNat, (z % 256).toNat⟩
  if pos.z < 16 ∧ (w.tile pos).isSome then some pos else none

def flagAt (f : BitVec 32) (pos : Option Position) : Bool :=
  match pos.bind w.tile with
  | some t => t.hasFlag f
  | none => false

/-- `if (tile->hasFlag(f)) n` as a summand. -/
def step (b : Bool) (n : Int) : Int := if b then n else 0

/-- The tile a floor change leads to. -/
def floorChange (pos : Position) : Option Position :=
  let has (f : BitVec 32) := w.flagAt f (some pos)
  let x : Int := pos.x
  let y : Int := pos.y
  if has TILESTATE_FLOORCHANGE_DOWN then
    let z : Int := pos.z + 1
    if w.flagAt TILESTATE_FLOORCHANGE_SOUTH_ALT (w.tileAt x (y - 1) z) then
      w.tileAt x (y - 2) z
    else if w.flagAt TILESTATE_FLOORCHANGE_EAST_ALT (w.tileAt (x - 1) y z) then
      w.tileAt (x - 2) y z
    else
      match w.tileAt x y z with
      | none => none
      | some down =>
          let down (f : BitVec 32) := w.flagAt f (some down)
          w.tileAt
            (x - step (down TILESTATE_FLOORCHANGE_EAST) 1
              - step (down TILESTATE_FLOORCHANGE_EAST_ALT) 2
              + step (down TILESTATE_FLOORCHANGE_WEST) 1)
            (y + step (down TILESTATE_FLOORCHANGE_NORTH) 1
              - step (down TILESTATE_FLOORCHANGE_SOUTH) 1
              - step (down TILESTATE_FLOORCHANGE_SOUTH_ALT) 2) z
  else if has TILESTATE_FLOORCHANGE then
    w.tileAt
      (x + step (has TILESTATE_FLOORCHANGE_EAST) 1 - step (has TILESTATE_FLOORCHANGE_WEST) 1
        + step (has TILESTATE_FLOORCHANGE_EAST_ALT) 2)
      (y - step (has TILESTATE_FLOORCHANGE_NORTH) 1 + step (has TILESTATE_FLOORCHANGE_SOUTH) 1
        + step (has TILESTATE_FLOORCHANGE_SOUTH_ALT) 2) (pos.z - 1)
  else none

def tileQueryDestination (pos : Position) (d : Dest) : Dest :=
  let (dest, flags) :=
    match w.floorChange pos with
    | some q => (q, { d.flags with noLimit := true })
    | none => (pos, d.flags)
  { d with
    cylinder := .tile dest
    destItem := (w.tile dest).bind (·.getTopDownItem)
    flags }

/-- `Cylinder::queryDestination`, virtual; the cylinder asked is the record's. -/
def queryDestination (tradeItem : PlayerId → Option ItemRef) (i : ItemRef) (d : Dest) : Dest :=
  match d.cylinder with
  | .tile pos => w.tileQueryDestination pos d
  | .player p => w.playerQueryDestination p (tradeItem p) i d
  | .container c => w.containerQueryDestination c i d

/-- The loop in `internalMoveItem`: after each redirection the flags are dropped. -/
def redirect (tradeItem : PlayerId → Option ItemRef) (i : ItemRef) : Nat → Dest → Dest
  | 0, d => d
  | n + 1, d =>
      let d' := w.queryDestination tradeItem i d
      if d'.cylinder = d.cylinder then d'
      else redirect tradeItem i n { d' with flags := {} }

def MAP_MAX_LAYERS : Nat := 16

def destination (tradeItem : PlayerId → Option ItemRef) (i : ItemRef) (d : Dest) : Dest :=
  w.redirect tradeItem i MAP_MAX_LAYERS d

end World

end TibServer
