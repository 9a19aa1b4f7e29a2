import TibServer.ItemStore

/-!
The items of a player in the database (`IOLoginData::saveItems`, `IOLoginData::loadItems`
and the item parts of `IOLoginData::savePlayer` and `IOLoginData::loadPlayer` in
`iologindata.cpp`): containers are written breadth first as rows with the number of their
parent, and put together again from the rows.

The rows are those of one player. The numbers of items are not limited to 32 bits, and the
weights of containers are left out.
-/

namespace TibServer

/-- An item with what lies in it; the references of its own list are not looked at. -/
inductive ItemTree
  | node (object : ItemObject) (itemlist : List ItemTree)

namespace ItemTree

def object : ItemTree → ItemObject
  | node o _ => o

/-- `Container::getItemList`. -/
def itemlist : ItemTree → List ItemTree
  | node _ items => items

def isContainer (t : ItemTree) : Bool := t.object.isContainer

/-- The number of items in a tree. -/
def count : ItemTree → Nat
  | node _ items => 1 + (items.attach.map fun t => count t.1).sum
termination_by t => sizeOf t
decreasing_by
  have smaller := List.sizeOf_lt_of_mem t.2
  simp only [node.sizeOf_spec]
  omega

/-- The number of items in a list of trees. -/
def total (items : List ItemTree) : Nat := (items.map count).sum

theorem count_eq (t : ItemTree) : t.count = 1 + total t.itemlist := by
  cases t with
  | node o items => rw [count, itemlist, total, List.attach_map_val]

end ItemTree

/-- A row of `player_items`, `player_depotitems`, `player_rewards` or `player_inboxitems`. -/
structure ItemRow where
  pid : Int
  sid : Nat
  itemtype : Nat
  count : BitVec 16
  attributes : List UInt8

/-! ### Saving -/

/-- An item with its number and the number of its parent, from which its row is made. -/
structure Numbered where
  pid : Int
  sid : Nat
  item : ItemTree

/-- `IOLoginData::saveItems` on its way: the last number, the items that are numbered, and the
containers whose items are not. -/
structure Saving where
  runningId : Nat
  numbered : List Numbered
  queue : List (List ItemTree × Nat)

namespace Saving

/-- An item gets the next number, and a container is queued. -/
def add (s : Saving) (pid : Int) (item : ItemTree) : Saving where
  runningId := s.runningId + 1
  numbered := s.numbered ++ [⟨pid, s.runningId + 1, item⟩]
  queue := if item.isContainer then s.queue ++ [(item.itemlist, s.runningId + 1)] else s.queue

/-- The items of one container. -/
def addAll (s : Saving) (parentId : Nat) (items : List ItemTree) : Saving :=
  items.foldl (fun s item => s.add parentId item) s

/-- What is still to be numbered, and one for every container of the queue. -/
def rest (s : Saving) : Nat := (s.queue.map fun b => 1 + ItemTree.total b.1).sum

theorem rest_add (s : Saving) (pid : Int) (item : ItemTree) :
    (s.add pid item).rest ≤ s.rest + item.count := by
  have count := item.count_eq
  unfold rest add
  simp only
  split
  · rw [List.map_append, List.sum_append]
    simp only [List.map_cons, List.map_nil, List.sum_cons, List.sum_nil]
    omega
  · omega

theorem rest_addAll (s : Saving) (parentId : Nat) (items : List ItemTree) :
    (s.addAll parentId items).rest ≤ s.rest + ItemTree.total items := by
  induction items generalizing s with
  | nil => simp [addAll]
  | cons item items ih =>
      have first := s.rest_add parentId item
      have others := ih (s.add parentId item)
      simp only [addAll, List.foldl_cons, ItemTree.total, List.map_cons, List.sum_cons] at others ⊢
      omega

/-- The loop over the queue. -/
def run (s : Saving) : Saving :=
  match _here : s.queue with
  | [] => s
  | (items, parentId) :: queue =>
      run (addAll { s with queue := queue } parentId items)
termination_by s.rest
decreasing_by
  have less := rest_addAll { s with queue := queue } parentId items
  have whole : s.rest = 1 + ItemTree.total items + rest { s with queue := queue } := by
    simp only [rest, _here, List.map_cons, List.sum_cons]
  omega

end Saving

/-- The items of a list of (slot, item), numbered breadth first from 101 on. -/
def numberItems (itemList : List (Int × ItemTree)) : List Numbered :=
  (itemList.foldl (fun s it => s.add it.1 it.2)
    { runningId := 100, numbered := [], queue := [] } : Saving).run.numbered

namespace World

open PropStream

variable (w : World) (lookups : Lookups)

def rowOf (n : Numbered) : ItemRow where
  pid := n.pid
  sid := n.sid
  itemtype := n.item.object.id
  count := w.subTypeOf n.item.object.toItem
  attributes := w.serializeAttr n.item.object

/-- `IOLoginData::saveItems`. -/
def saveItems (itemList : List (Int × ItemTree)) : List ItemRow :=
  (numberItems itemList).map w.rowOf

end World

/-- The item lists of a player: what lies in the slots 1 to 11, in the depot chests by
their ids, in the inbox, and the rewards by their ids. The maps are in the order of their keys. -/
structure PlayerItems where
  inventory : Nat → Option ItemTree
  depotChests : List (Nat × List ItemTree)
  inbox : List ItemTree
  rewardMap : List (BitVec 32 × ItemTree)

namespace PlayerItems

def inventoryList (p : PlayerItems) : List (Int × ItemTree) :=
  (List.range' 1 11).filterMap fun slot => (p.inventory slot).map fun item => (slot, item)

def depotList (p : PlayerItems) : List (Int × ItemTree) :=
  p.depotChests.flatMap fun chest => chest.2.map fun item => (chest.1, item)

def inboxList (p : PlayerItems) : List (Int × ItemTree) := p.inbox.map fun item => (0, item)

/-- The rewards that are stored: those with something in them and not older than a week. -/
def storedRewards (p : PlayerItems) (now : Nat) : List (BitVec 32 × ItemTree) :=
  p.rewardMap.filter fun r => !r.2.itemlist.isEmpty &&
    decide ((now : Int) - r.1.toNat ≤ 60 * 60 * 24 * 7)

def rewardList (p : PlayerItems) (now : Nat) : List (Int × ItemTree) :=
  ((p.storedRewards now).zipIdx 1).map fun r => (r.2, r.1.2)

end PlayerItems

/-! ### Loading -/

/-- An object in memory: the one of a row, the reward of an id, or a new store inbox. -/
inductive ObjectRef
  | row (sid : Nat)
  | reward (rewardId : BitVec 32)
  | storeInbox
  deriving DecidableEq

/-- What is in memory: the objects, and the item lists of containers. -/
structure Memory where
  object : ObjectRef → Option ItemObject := fun _ => none
  itemlist : ObjectRef → List ObjectRef := fun _ => []

/-- `std::map<uint32_t, std::pair<Item*, uint32_t>>`, in the order of its keys. -/
abbrev ItemMap := List (Nat × ObjectRef × Int)

namespace ItemMap

/-- `itemMap[sid] = pair`. -/
def insert (sid : Nat) (pair : ObjectRef × Int) : ItemMap → ItemMap
  | [] => [(sid, pair)]
  | (key, old) :: m =>
      if sid < key then (sid, pair) :: (key, old) :: m
      else if sid = key then (sid, pair) :: m
      else (key, old) :: insert sid pair m

/-- `itemMap.find(pid)`, with an `int32_t` for a key. -/
def find (m : ItemMap) (pid : Int) : Option (ObjectRef × Int) :=
  (List.find? (fun e => e.1 = (BitVec.ofInt 32 pid).toNat) m).map fun e => e.2

end ItemMap

namespace Memory

/-- `Container::internalAddThing` for the container with a number, if there is one. -/
def addInside (mem : Memory) (m : ItemMap) (pid : Int) (item : ObjectRef) : Memory :=
  match m.find pid with
  | none => mem
  | some (parent, _) =>
      match mem.object parent with
      | none => mem
      | some o =>
          if o.isContainer then
            { mem with
              itemlist := Function.update mem.itemlist parent (item :: mem.itemlist parent) }
          else mem

end Memory

/-- A list that is put together: what is in memory, and the items at its top by their slots. -/
structure Loaded where
  memory : Memory
  top : Nat → List ObjectRef := fun _ => []

/-- The item of a row is put into its slot or into its container. -/
def Loaded.attach (m : ItemMap) (slotOf : Int → Option Nat)
    (add : List ObjectRef → ObjectRef → List ObjectRef) (l : Loaded) (pair : ObjectRef × Int) :
    Loaded :=
  match slotOf pair.2 with
  | some slot => { l with top := Function.update l.top slot (add (l.top slot) pair.1) }
  | none => { l with memory := l.memory.addInside m pair.2 pair.1 }

/-- `ORDER BY sid DESC`, with or without a `LIMIT`. -/
def selectRows (limit : Option Nat) (rows : List ItemRow) : List ItemRow :=
  let sorted := rows.mergeSort fun a b => b.sid ≤ a.sid
  match limit with
  | none => sorted
  | some n => sorted.take n

namespace World

variable (w : World) (lookups : Lookups)

/-- The object `loadItems` makes of a row. -/
def objectOf (row : ItemRow) : Option ItemObject :=
  (w.createItem row.itemtype row.count.toNat).map fun item =>
    (w.unserializeAttr lookups { toItem := item } row.attributes).2.1

/-- One row of `IOLoginData::loadItems`. -/
def loadItem (s : ItemMap × Memory) (row : ItemRow) : ItemMap × Memory :=
  match w.objectOf lookups row with
  | none => s
  | some o =>
      (ItemMap.insert row.sid (.row row.sid, row.pid) s.1,
        { s.2 with object := Function.update s.2.object (.row row.sid) (some o) })

/-- `IOLoginData::loadItems`. -/
def loadItems (rows : List ItemRow) : ItemMap × Memory :=
  rows.foldl (w.loadItem lookups) ([], {})

/-- The loop over the map in reverse order. -/
def attachItems (slotOf : Int → Option Nat)
    (add : List ObjectRef → ObjectRef → List ObjectRef) (rows : List ItemRow) : Loaded :=
  let (m, mem) := w.loadItems lookups rows
  (m.reverse.map fun e => e.2).foldl (Loaded.attach m slotOf add) { memory := mem }

/-- `Player::internalAddThing`: a slot with an item keeps it. -/
def addToSlot (slot : List ObjectRef) (item : ObjectRef) : List ObjectRef :=
  if slot = [] then [item] else slot

def pushItem (items : List ObjectRef) (item : ObjectRef) : List ObjectRef := item :: items

def ITEM_STORE_INBOX : Nat := 26052
def CONST_SLOT_STORE_INBOX : Nat := 11

/-- The inventory: slots 1 to 11, and a new store inbox if there is none. -/
def loadInventory (rows : List ItemRow) : Loaded :=
  let l := w.attachItems lookups (fun pid => if 1 ≤ pid ∧ pid ≤ 11 then some pid.toNat else none)
    addToSlot (selectRows none rows)
  if l.top CONST_SLOT_STORE_INBOX = [] then
    { memory := { l.memory with
        object := Function.update l.memory.object .storeInbox
          ((w.createItem ITEM_STORE_INBOX 0).map fun item => { toItem := item }) }
      top := Function.update l.top CONST_SLOT_STORE_INBOX [.storeInbox] }
  else l

/-- The depot chests by their ids. -/
def loadDepots (rows : List ItemRow) : Loaded :=
  w.attachItems lookups (fun pid => if 0 ≤ pid ∧ pid < 100 then some pid.toNat else none)
    pushItem (selectRows none rows)

/-- The inbox, a single list. -/
def loadInbox (rows : List ItemRow) : Loaded :=
  w.attachItems lookups (fun pid => if 0 ≤ pid ∧ pid < 100 then some 0 else none)
    pushItem (selectRows (some 5000) rows)

def ITEM_REWARD_CONTAINER : Nat := 21518

/-- A new `Reward`, with its date; that it is put into the reward chest is left out. -/
def newReward (rewardId : BitVec 32) : ItemObject :=
  { toItem := (w.constructItem ITEM_REWARD_CONTAINER 0
      (.container
        { kind := .reward
          maxSize := 32
          unlocked := false
          pagination := true
          maxSize_lt := by norm_num
          rewards_paginated := fun _ => rfl })).setInt .date rewardId }

/-- The rewards in memory: their objects and item lists, and `rewardMap`. -/
structure LoadedRewards where
  memory : Memory
  rewardMap : List (BitVec 32)

/-- The first loop over the rewards: a row at the top becomes the reward of its date. -/
def nameRewards (l : LoadedRewards) : ItemMap → LoadedRewards × ItemMap
  | [] => (l, [])
  | (sid, item, pid) :: m =>
      if 0 ≤ pid ∧ pid < 100 then
        let rewardId := ((l.memory.object item).map fun o => o.intAttr .date).getD 0
        let l :=
          if rewardId ∈ l.rewardMap then l
          else
            { memory := { l.memory with
                object := Function.update l.memory.object (.reward rewardId)
                  (some (w.newReward rewardId)) }
              rewardMap := l.rewardMap ++ [rewardId] }
        let (l, m) := nameRewards l m
        (l, (sid, .reward rewardId, pid) :: m)
      else (l, (sid, item, pid) :: m)

/-- The second loop, up to the first row at the top. -/
def fillRewards (m : ItemMap) (mem : Memory) : List (ObjectRef × Int) → Memory
  | [] => mem
  | (item, pid) :: rest =>
      if 0 ≤ pid ∧ pid < 100 then mem
      else fillRewards m (mem.addInside m pid item) rest

def loadRewards (rows : List ItemRow) : LoadedRewards :=
  let (m, mem) := w.loadItems lookups (selectRows none rows)
  let (l, m) := w.nameRewards { memory := mem, rewardMap := [] } m
  { l with memory := fillRewards m l.memory (m.reverse.map fun e => e.2) }

end World

end TibServer
