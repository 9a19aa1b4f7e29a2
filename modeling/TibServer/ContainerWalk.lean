import TibServer.BreadthFirst
import TibServer.World

/-!
`ContainerIterator` (`container.cpp`): a queue of containers that are not empty and a cursor into the
first of them. The loop over it is the breadth-first walk over all that is nested in the container,
and at no step is an end iterator dereferenced.
-/

namespace TibServer.ContainerWalk

open BreadthFirst

/-! ### Items and containers -/

inductive Item
  | item (ref : ItemRef)
  | container (ref : ItemRef) (itemlist : List Item)

structure Container where
  ref : ItemRef
  itemlist : List Item

namespace Item

def ref : Item → ItemRef
  | item ref => ref
  | container ref _ => ref

def getContainer : Item → Option Container
  | item _ => none
  | container ref itemlist => some ⟨ref, itemlist⟩

/-- The items that lie in an item. -/
def contents : Item → List Item
  | item _ => []
  | container _ itemlist => itemlist

end Item

def Container.empty (c : Container) : Bool := c.itemlist.isEmpty

/-! ### The iterator -/

/-- A `const_iterator` of a deque. -/
structure Cursor where
  container : Container
  index : Nat

/-- The queue is `over`; at first the cursor belongs to no deque. -/
structure ContainerIterator where
  queue : List Container := []
  cur : Option Cursor := none

def Container.iterator (c : Container) : ContainerIterator :=
  if c.itemlist.isEmpty then {} else { queue := [c], cur := some ⟨c, 0⟩ }

namespace ContainerIterator

def hasNext (it : ContainerIterator) : Bool := !it.queue.isEmpty

/-- `*cur`; there is nothing at an end iterator. -/
def deref (it : ContainerIterator) : Option Item := do
  let cur ← it.cur
  cur.container.itemlist[cur.index]?

/-- What is undefined is `none`: to dereference an end iterator, to take the front of an empty list
and to compare iterators of two deques. -/
def advance (it : ContainerIterator) : Option ContainerIterator := do
  let cur ← it.cur
  let i ← it.deref
  let queue :=
    match i.getContainer with
    | some c => if !c.empty then it.queue ++ [c] else it.queue
    | none => it.queue
  let cur := { cur with index := cur.index + 1 }
  match queue with
  | [] => none
  | front :: rest =>
      if cur.container.ref ≠ front.ref then none
      else if cur.index = front.itemlist.length then
        match rest with
        | [] => some { queue := [], cur }
        | next :: _ => some { queue := rest, cur := some ⟨next, 0⟩ }
      else some { queue, cur }

/-- `for (; it.hasNext(); it.advance())`, `n` rounds at most: the items that it comes to, and the
iterator that is left. -/
def loop : Nat → ContainerIterator → Option (List Item × ContainerIterator)
  | 0, it => some ([], it)
  | n + 1, it =>
      if it.hasNext then do
        let i ← it.deref
        let next ← it.advance
        let rest ← loop n next
        some (i :: rest.1, rest.2)
      else some ([], it)

end ContainerIterator

/-! ### What is nested -/

mutual

def Item.nested : Item → List Item
  | .item _ => []
  | .container _ itemlist => nestedList itemlist

def nestedList : List Item → List Item
  | [] => []
  | i :: l => i :: (i.nested ++ nestedList l)

end

/-- An item is nested in a container at any depth. -/
inductive Container.Holds (c : Container) : Item → Prop
  | direct {i : Item} (hi : i ∈ c.itemlist) : Holds c i
  | deeper {i j : Item} (hi : Holds c i) (hj : j ∈ i.contents) : Holds c j

/-- A container and what is nested in it; every item has one place. -/
structure Tree where
  root : Container
  distinct : ((nestedList root.itemlist).map Item.ref).Nodup

def Tree.items (tree : Tree) : List Item := nestedList tree.root.itemlist

theorem nestedList_eq (l : List Item) : nestedList l = nodes Item.nested l := by
  induction l with
  | nil => rfl
  | cons i l ih => rw [nestedList, ih, nodes_cons]

theorem lists_nested : Lists Item.contents Item.nested := by
  intro i
  cases i with
  | item ref => rfl
  | container ref itemlist => exact nestedList_eq itemlist

/-! ### The walk -/

namespace ContainerIterator

/-- The items that are yet to be visited, those apart that will be put behind them: the rest of the
first container and all in the others. -/
inductive Awaits : ContainerIterator → List Item → Prop
  | finished (cur : Option Cursor) : Awaits { queue := [], cur } []
  | within {front : Container} {rest : List Container} {index : Nat}
      (hindex : index < front.itemlist.length) (hrest : ∀ c ∈ rest, c.itemlist ≠ []) :
      Awaits { queue := front :: rest, cur := some ⟨front, index⟩ }
        (front.itemlist.drop index ++ rest.flatMap (·.itemlist))

variable {it : ContainerIterator} {i : Item} {pending : List Item}

/-- Only containers with something in them go to the queue; the items behind it are the same. -/
theorem enqueue {rest : List Container} (hrest : ∀ c ∈ rest, c.itemlist ≠ []) (front : Container)
    (i : Item) : ∃ rest' : List Container,
      (match i.getContainer with
        | some c => if !c.empty then (front :: rest) ++ [c] else front :: rest
        | none => front :: rest) = front :: rest' ∧
      (∀ c ∈ rest', c.itemlist ≠ []) ∧
      rest'.flatMap (·.itemlist) = rest.flatMap (·.itemlist) ++ i.contents := by
  cases i with
  | item ref => exact ⟨rest, rfl, hrest, (List.append_nil _).symm⟩
  | container ref itemlist =>
      cases itemlist with
      | nil => exact ⟨rest, rfl, hrest, (List.append_nil _).symm⟩
      | cons j itemlist =>
          refine ⟨rest ++ [⟨ref, j :: itemlist⟩], rfl, fun c hc => ?_, ?_⟩
          · rcases List.mem_append.mp hc with hold | hnew
            · exact hrest c hold
            · rw [List.mem_singleton.mp hnew]
              exact List.cons_ne_nil j itemlist
          · rw [List.flatMap_append]
            simp [Item.contents]

theorem awaits_iterator (c : Container) : Awaits c.iterator c.itemlist := by
  unfold Container.iterator
  cases hlist : c.itemlist with
  | nil => exact .finished none
  | cons i l =>
      have hpos : 0 < c.itemlist.length := by
        rw [hlist]
        exact Nat.zero_lt_succ _
      have hawaits := @Awaits.within c [] 0 hpos fun c hc => absurd hc List.not_mem_nil
      rw [List.drop_zero, List.flatMap_nil, List.append_nil] at hawaits
      rw [← hlist, if_neg (by simp [hlist])]
      exact hawaits

theorem Awaits.hasNext_eq (h : Awaits it pending) : it.hasNext = !pending.isEmpty := by
  cases h with
  | finished cur => rfl
  | @within front rest index hindex hrest =>
      have hne : front.itemlist.drop index ≠ [] := by
        rw [ne_eq, List.drop_eq_nil_iff]
        omega
      cases hdrop : front.itemlist.drop index with
      | nil => exact absurd hdrop hne
      | cons i l => rfl

/-- A step dereferences the first item that is awaited, and puts what lies in it behind the rest. -/
theorem Awaits.step (h : Awaits it (i :: pending)) : it.deref = some i ∧
    ∃ next, it.advance = some next ∧ Awaits next (pending ++ i.contents) := by
  generalize hpending : i :: pending = l at h
  cases h with
  | finished cur => exact absurd hpending (List.cons_ne_nil i pending)
  | @within front rest index hindex hrest =>
      rw [List.drop_eq_getElem_cons hindex, List.cons_append, List.cons.injEq] at hpending
      obtain ⟨rfl, rfl⟩ := hpending
      have hderef : deref { queue := front :: rest, cur := some ⟨front, index⟩ } =
          some front.itemlist[index] := List.getElem?_eq_getElem hindex
      refine ⟨hderef, ?_⟩
      obtain ⟨rest', hqueue, hrest', hflat⟩ := enqueue hrest front front.itemlist[index]
      unfold advance
      rw [hderef]
      dsimp only [Option.bind_eq_bind, Option.bind_some]
      rw [hqueue, List.append_assoc, ← hflat]
      dsimp only
      rw [if_neg (not_not.mpr rfl)]
      split_ifs with hend
      · -- the front is exhausted; what is awaited next is the first item of the next container
        rw [List.drop_eq_nil_of_le (Nat.le_of_eq hend.symm), List.nil_append]
        cases rest' with
        | nil => exact ⟨_, rfl, .finished _⟩
        | cons next more =>
            refine ⟨_, rfl, ?_⟩
            have hpos := List.length_pos_iff.mpr (hrest' next List.mem_cons_self)
            exact .within hpos fun c hc => hrest' c (List.mem_cons_of_mem _ hc)
      · exact ⟨_, rfl, .within (by omega) hrest'⟩

/-- The loop is the walk over the items that are awaited. -/
theorem Awaits.loop (h : Awaits it pending) (n : Nat) : ∃ it',
    loop n it = some ((search Item.contents n pending).1, it') ∧
      Awaits it' (search Item.contents n pending).2 := by
  induction n generalizing it pending with
  | zero => exact ⟨it, rfl, h⟩
  | succ n ih =>
      rw [ContainerIterator.loop, h.hasNext_eq]
      cases pending with
      | nil => exact ⟨it, rfl, h⟩
      | cons i pending =>
          obtain ⟨hderef, next, hadvance, hnext⟩ := h.step
          obtain ⟨it', hloop, hawaits⟩ := ih hnext
          refine ⟨it', ?_, hawaits⟩
          change (do
            let i ← it.deref
            let next ← it.advance
            let rest ← ContainerIterator.loop n next
            some (i :: rest.1, rest.2)) = _
          rw [hderef, hadvance]
          dsimp only [Option.bind_eq_bind, Option.bind_some]
          rw [hloop]
          rfl

/-- Where there is no next item, further rounds change nothing. -/
theorem loop_add {n : Nat} {it it' : ContainerIterator} {visited : List Item}
    (h : ContainerIterator.loop n it = some (visited, it')) (hend : it'.hasNext = false) (k : Nat) :
    ContainerIterator.loop (n + k) it = some (visited, it') := by
  induction n generalizing it visited with
  | zero =>
      obtain ⟨rfl, rfl⟩ := Prod.mk.inj (Option.some.inj h)
      cases k with
      | zero => exact h
      | succ k =>
          rw [Nat.zero_add, ContainerIterator.loop, hend]
          rfl
  | succ n ih =>
      rw [Nat.add_right_comm, ContainerIterator.loop]
      rw [ContainerIterator.loop] at h
      split_ifs at h ⊢
      · obtain ⟨i, hi, h⟩ := Option.bind_eq_some_iff.mp h
        obtain ⟨next, hnext, h⟩ := Option.bind_eq_some_iff.mp h
        obtain ⟨rest, hrest, h⟩ := Option.bind_eq_some_iff.mp h
        obtain ⟨rfl, rfl⟩ := Prod.mk.inj (Option.some.inj h)
        rw [hi, hnext]
        dsimp only [Option.bind_eq_bind, Option.bind_some]
        rw [ih hrest]
        rfl
      · exact h

end ContainerIterator

/-- The loop over a container comes to every item that is nested in it exactly once, to each before
what lies in it, in as many rounds as there are such items, and always has an item there. -/
theorem nested_visited (tree : Tree) : ∃ visited it,
    (∀ k, ContainerIterator.loop (tree.items.length + k) tree.root.iterator = some (visited, it)) ∧
    it.hasNext = false ∧ visited.length = tree.items.length ∧ (visited.map Item.ref).Nodup ∧
    (∀ i, i ∈ visited ↔ tree.root.Holds i) ∧
    ∀ i ∈ visited, ∀ j ∈ i.contents, [i, j].Sublist visited := by
  have hitems : tree.items = nodes Item.nested tree.root.itemlist := nestedList_eq _
  obtain ⟨hperm, hempty⟩ := lists_nested.search (congrArg List.length hitems)
  rw [← hitems] at hperm
  obtain ⟨it, hloop, hleft⟩ :=
    (ContainerIterator.awaits_iterator tree.root).loop tree.items.length
  have hend : it.hasNext = false := by
    rw [hleft.hasNext_eq, hempty]
    rfl
  have hbefore : ∀ i ∈ (search Item.contents tree.items.length tree.root.itemlist).1,
      ∀ j ∈ i.contents, [i, j].Sublist (search Item.contents tree.items.length _).1 :=
    fun i hi j hj => search_before hempty hi hj
  refine ⟨_, it, ContainerIterator.loop_add hloop hend, hend, hperm.length_eq,
    (hperm.map Item.ref).nodup_iff.mpr tree.distinct, fun i => ⟨fun hi => ?_, fun hi => ?_⟩, hbefore⟩
  · exact search_induction (fun j hj => .direct hj) (fun j hj l hl => .deeper hj hl) hi
  · induction hi with
    | direct hi => exact mem_search_of_queue hempty hi
    | deeper _ hj ih => exact (hbefore _ ih _ hj).subset (by simp)

end TibServer.ContainerWalk
