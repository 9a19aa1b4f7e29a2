import TibServer.Trade

/-!
The game: the world of items together with the trades. Each operation of a
cylinder changes the world as its model in `World` does and tells the change to
the players, in the order of the source.
-/

namespace TibServer

structure Game where
  world : World
  trade : Trade

namespace Game

variable (g : Game)

/-- Telling the players about a change, in the world `w` the hooks read. -/
def tell (w : World) (hook : Trade → Trade) : Game := { world := w, trade := hook g.trade }

@[simp] theorem tell_world (w : World) (hook : Trade → Trade) : (g.tell w hook).world = w := rfl

/-- A change of the world that no player is told. -/
def setWorld (w : World) : Game := { g with world := w }

@[simp] theorem setWorld_world (w : World) : (g.setWorld w).world = w := rfl
@[simp] theorem setWorld_trade (w : World) : (g.setWorld w).trade = g.trade := rfl

/-! ### `addThing` -/

def containerAddThing (c : ItemRef) (index : Int) (i : ItemRef) : Game :=
  match g.world.getContainer c with
  | none => g
  | some k =>
      if index ≥ k.capacity then g
      else
        let w := g.world.pushFront c i
        g.tell w (w.containerOnAdd c i)

def tileAddThing (pos : Position) (i : ItemRef) : Game :=
  let w := g.world.tileAddThing pos i
  match g.world.tile pos with
  | none => g
  | some t =>
      if t.itemList.length ≥ 0xFFFF then g
      else
        match g.world.replacedItem t i with
        | none => g.setWorld w
        | some o =>
            if (g.world.typeOf i).isGroundTile then g.tell w (w.tileOnUpdate pos o i)
            else if (g.world.typeOf i).isMagicField && !(g.world.typeOf i).alwaysOnTop &&
                !(g.world.typeOf o).replaceable then g.setWorld w
            else g.tell w (w.tileOnRemove pos o)

def addThing (c : Cylinder) (index : Int) (i : ItemRef) : Game :=
  match c with
  | .tile pos => g.tileAddThing pos i
  | .player p => g.setWorld (g.world.playerAddThing p index i)
  | .container c => g.containerAddThing c index i

def addThingFront (c : Cylinder) (i : ItemRef) : Game :=
  match c with
  | .player _ => g
  | _ => g.addThing c 0 i

/-! ### `updateThing` -/

def updateThing (c : Cylinder) (i : ItemRef) (itemId count : Nat) : Game :=
  let w := g.world.updateThing c i itemId count
  if g.world.getThingIndex c i = -1 then g
  else
    match c with
    | .tile pos => g.tell w (w.tileOnUpdate pos i i)
    | .player p => g.tell w (w.onUpdateInventoryItem p i i)
    | .container c => g.tell w (w.containerOnUpdate c i i)

/-! ### `replaceThing` -/

/-- `Container::replaceThing` tells the change when the new item is in the list
and the old one still has the container as its parent. -/
def containerReplaceThing (c : ItemRef) (index : Nat) (i : ItemRef) : Game :=
  let w := g.world.containerReplaceThing c index i
  match (g.world.itemlist c)[index]? with
  | none => g
  | some old =>
      g.tell w ((w.setItem old (·.setParent (g.world.item old).parent)).containerOnUpdate c old i)

def replaceThing (c : Cylinder) (index : Nat) (i : ItemRef) : Game :=
  let w := g.world.replaceThing c index i
  match c with
  | .tile pos =>
      match (g.world.tile pos).bind (·.replaceAt index i) with
      | none => g
      | some (old, _) => g.tell w (w.tileOnUpdate pos old i)
  | .player p =>
      -- the owner is told first
      match g.world.getInventoryItem p index with
      | none => g
      | some old => g.tell w (g.world.onUpdateInventoryItem p old i)
  | .container c => g.containerReplaceThing c index i

/-! ### `removeThing` -/

/-- Whether `removeThing` leaves a part of the stack. -/
def leavesPart (w : World) (c : Cylinder) (i : ItemRef) (count : Nat) : Bool :=
  w.isStackable i && count != w.getItemCount i &&
    match c with
    | .tile pos => !(w.isAlwaysOnTop i) && (w.tile pos).bind (·.ground) != some i
    | _ => true

def removeThing (c : Cylinder) (i : ItemRef) (count : Nat) : Game :=
  let w := g.world.removeThing c i count
  if g.world.getThingIndex c i = -1 then g
  else if leavesPart g.world c i count then
    match c with
    | .tile pos => g.tell w (w.tileOnUpdate pos i i)
    | .player p => g.tell w (w.onUpdateInventoryItem p i i)
    | .container c => g.tell w (w.containerOnUpdate c i i)
  else
    match c with
    | .tile pos => g.tell w (w.tileOnRemove pos i)
    -- players and containers tell it before the item leaves
    | .player p => g.tell w (g.world.onRemoveInventoryItem p i)
    | .container c => g.tell w (g.world.containerOnRemove c i)

/-! ### The world under the operations -/

@[simp] theorem removeThing_world (c : Cylinder) (i : ItemRef) (count : Nat) :
    (g.removeThing c i count).world = g.world.removeThing c i count := by
  simp only [removeThing]
  split
  · next h => rw [World.removeThing_not_found _ _ h]
  · split <;> cases c <;> rfl

@[simp] theorem updateThing_world (c : Cylinder) (i : ItemRef) (itemId count : Nat) :
    (g.updateThing c i itemId count).world = g.world.updateThing c i itemId count := by
  simp only [updateThing]
  split
  · next h => rw [World.updateThing_not_found _ _ _ h]
  · cases c <;> rfl

@[simp] theorem addThing_world (c : Cylinder) (index : Int) (i : ItemRef) :
    (g.addThing c index i).world = g.world.addThing c index i := by
  cases c with
  | tile pos =>
      simp only [addThing, tileAddThing, World.addThing]
      cases h : g.world.tile pos with
      | none => simp [World.tileAddThing, h]
      | some t =>
          simp only
          split
          · next full => simp [World.tileAddThing, h, full]
          · split
            · rfl
            · split
              · rfl
              · split <;> rfl
  | player p => rfl
  | container c =>
      simp only [addThing, containerAddThing, World.addThing, World.containerAddThing]
      cases g.world.getContainer c with
      | none => rfl
      | some k =>
          simp only
          split <;> rfl

@[simp] theorem addThingFront_world (c : Cylinder) (i : ItemRef) :
    (g.addThingFront c i).world = g.world.addThingFront c i := by
  cases c with
  | player p => rfl
  | tile pos => exact g.addThing_world _ _ _
  | container c => exact g.addThing_world _ _ _

@[simp] theorem replaceThing_world (c : Cylinder) (index : Nat) (i : ItemRef) :
    (g.replaceThing c index i).world = g.world.replaceThing c index i := by
  cases c with
  | tile pos =>
      simp only [replaceThing, World.replaceThing, World.tileReplaceThing]
      cases g.world.tile pos with
      | none => rfl
      | some t =>
          simp only [Option.bind_some]
          cases t.replaceAt index i with
          | none => rfl
          | some r => rfl
  | player p =>
      simp only [replaceThing, World.replaceThing, World.playerReplaceThing]
      cases g.world.getInventoryItem p index <;> rfl
  | container c =>
      simp only [replaceThing, containerReplaceThing, World.replaceThing,
        World.containerReplaceThing]
      cases (g.world.itemlist c)[index]? <;> rfl
end Game

end TibServer
