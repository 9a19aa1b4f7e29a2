import TibServer.Worklist
import TibServer.Parents

/-!
`Game::removeMoney` (`game.cpp`). The coins in a cylinder and in the containers it
holds are searched and ordered by what a stack is worth; whole stacks are taken until
one is worth more than is left to pay. From that one as many coins are taken as cover
the rest, and the change is added before.
-/

namespace TibServer

namespace World

variable (w : World)

/-! ### The search -/

/-- What `getThing` gives from the first to the last index, creatures apart. -/
def thingsInOrder : Cylinder → List ItemRef
  | .tile pos =>
      match w.tile pos with
      | some t => t.ground.toList ++ (t.topItems ++ t.downItems)
      | none => []
  | .player p => slots.filterMap (w.player p).inventory
  | .container r => w.itemlist r

/-- What is put into `containers`. -/
def containersOf (l : List ItemRef) : List ItemRef := l.filter fun i => (w.getContainer i).isSome

/-- What is put into `moneyMap`. -/
def coinsOf (l : List ItemRef) : List ItemRef :=
  l.filter fun i => (w.getContainer i).isNone && (w.item i).getWorth != 0

/-- The loop over `containers`, with a bound on its rounds. -/
def searchMoney : Nat → List ItemRef → List ItemRef
  | 0, _ => []
  | _, [] => []
  | n + 1, container :: containers =>
      w.coinsOf (w.itemlist container) ++
        searchMoney n (containers ++ w.containersOf (w.itemlist container))

/-- The coins in the order in which they are found. No more containers are met than
there are items. -/
def findMoney (cylinder : Cylinder) : List ItemRef :=
  w.coinsOf (w.thingsInOrder cylinder) ++
    w.searchMoney (w.next + 1) (w.containersOf (w.thingsInOrder cylinder))

/-- `moneyCount`; the stacks that fit in a memory do not exceed its 64 bits. -/
def moneyCount (cylinder : Cylinder) : Nat :=
  ((w.findMoney cylinder).map fun i => (w.item i).getWorth).sum

/-- An entry of the `std::multimap<uint32_t, Item*>`. -/
structure MoneyEntry where
  worth : Nat
  item : ItemRef
  deriving DecidableEq, Repr

/-- `moneyMap.emplace`: behind the entries that are worth the same. -/
def emplace (moneyMap : List MoneyEntry) (entry : MoneyEntry) : List MoneyEntry :=
  moneyMap.orderedInsert (fun a b => a.worth < b.worth) entry

def moneyMap (cylinder : Cylinder) : List MoneyEntry :=
  ((w.findMoney cylinder).map fun i => ⟨(w.item i).getWorth, i⟩).foldl emplace []

end World

namespace Game

open World

/-! ### `removeMoney` -/

/-- `std::ceil(money / static_cast<double>(worth))`. The quotient is below 256 and no
closer than `1 / 10000` to a number it is not, so that it is not rounded past one. -/
def removeCount (money worth : Nat) : Nat := (money + worth - 1) / worth

/-- What one coin of the stack is worth. -/
def coinOf (g : Game) (entry : MoneyEntry) : Nat := entry.worth / g.world.getItemCount entry.item

/-- `(worth * removeCount) - money`. -/
def changeOf (g : Game) (entry : MoneyEntry) (money : Nat) : BitVec 64 :=
  BitVec.ofNat 64 (g.coinOf entry * removeCount money (g.coinOf entry) - money)

/-- The loop over `moneyMap`. -/
def takeMoney (cylinder : Cylinder) (flags : Flags) : Game → List MoneyEntry → Nat → Game
  | g, [], _ => g
  | g, entry :: rest, money =>
      if entry.worth < money then
        takeMoney cylinder flags (g.internalRemoveItem entry.item).2 rest (money - entry.worth)
      else if entry.worth > money then
        let count := removeCount money (g.coinOf entry)
        let g := g.addMoney cylinder (g.changeOf entry money) flags
        (g.internalRemoveItem entry.item (some count)).2
      else (g.internalRemoveItem entry.item).2

def removeMoney (g : Game) (cylinder : Option Cylinder) (money : BitVec 64) (flags : Flags := {}) :
    Bool × Game :=
  match cylinder with
  | none => (false, g)
  | some cylinder =>
      if money = 0 then (true, g)
      else if g.world.moneyCount cylinder < money.toNat then (false, g)
      else (true, takeMoney cylinder flags g (g.world.moneyMap cylinder) money.toNat)

end Game

namespace World

variable {w w' : World} {c q : Cylinder} {i o : ItemRef} {S : Finset Cylinder}

/-! ### What lies inside -/

/-- The cylinder, and the containers that lie in it at any depth. -/
inductive Inside (w : World) (c : Cylinder) : Cylinder → Prop
  | self : Inside w c c
  | deeper {q : Cylinder} {i : ItemRef} (hq : Inside w c q) (hi : i ∈ w.things q)
      (container : (w.getContainer i).isSome = true) : Inside w c (.container i)

/-- The cylinder does not lie in itself. -/
def Outermost (w : World) (c : Cylinder) : Prop :=
  ∀ {q i}, Inside w c q → i ∈ w.things q → c ≠ .container i

theorem thingsInOrder_perm (w : World) (c : Cylinder) :
    (w.thingsInOrder c).Perm (w.things c) := by
  cases c with
  | player p => exact List.Perm.refl _
  | container r => exact List.Perm.refl _
  | tile pos =>
      cases ht : w.tile pos with
      | none => simp [thingsInOrder, things, ht]
      | some t =>
          have swap : (t.topItems ++ t.downItems).Perm t.itemList :=
            List.perm_append_comm.trans (.of_eq t.downItems_append_topItems)
          simpa only [thingsInOrder, things, ht] using swap.append_left _

/-- The containers the search goes through. -/
def searched (w : World) (c : Cylinder) : List ItemRef :=
  Worklist.visit (fun r => w.containersOf (w.itemlist r)) (w.next + 1)
    (w.containersOf (w.thingsInOrder c))

theorem searchMoney_eq (w : World) (n : Nat) (l : List ItemRef) :
    w.searchMoney n l = (Worklist.visit (fun r => w.containersOf (w.itemlist r)) n l).flatMap
      fun r => w.coinsOf (w.itemlist r) := by
  induction n generalizing l with
  | zero => rfl
  | succ n ih =>
      cases l with
      | nil => rfl
      | cons r l =>
          rw [searchMoney, ih]
          rfl

theorem findMoney_eq (w : World) (c : Cylinder) :
    w.findMoney c = w.coinsOf (w.thingsInOrder c) ++
      (w.searched c).flatMap fun r => w.coinsOf (w.itemlist r) := by
  rw [findMoney, searchMoney_eq, searched]

theorem reached_inside {a : ItemRef}
    (h : Worklist.Reached (fun r => w.containersOf (w.itemlist r))
      (w.containersOf (w.thingsInOrder c)) a) :
    ∃ q, Inside w c q ∧ a ∈ w.things q ∧ (w.getContainer a).isSome = true := by
  induction h with
  | root ha =>
      obtain ⟨mem, container⟩ := List.mem_filter.mp ha
      exact ⟨c, .self, (w.thingsInOrder_perm c).mem_iff.mp mem, container⟩
  | child _ hb known =>
      obtain ⟨q, inside, mem, container⟩ := known
      obtain ⟨mem', container'⟩ := List.mem_filter.mp hb
      exact ⟨_, .deeper inside mem container, mem', container'⟩

/-- The search goes through every container inside, and through each once. -/
theorem searched_spec (hw : WellFormed w) (outer : Outermost w c) :
    (w.searched c).Nodup ∧ (∀ r ∈ w.searched c, c ≠ .container r) ∧
      ∀ q, Inside w c q ↔ q = c ∨ ∃ r ∈ w.searched c, q = .container r := by
  have forest : Worklist.Forest (fun r => w.containersOf (w.itemlist r))
      (w.containersOf (w.thingsInOrder c)) := by
    refine ⟨?_, fun r => (hw.once.nodup (.container r)).filter _, fun {a b x} ha hb => ?_,
      fun {a b} ha hb child => ?_⟩
    · exact ((w.thingsInOrder_perm c).nodup_iff.mpr (hw.once.nodup c)).filter _
    · exact Cylinder.container.inj (hw.once.place (p := .container a) (q := .container b)
        (List.mem_filter.mp ha).1 (List.mem_filter.mp hb).1)
    · have mem := (w.thingsInOrder_perm c).mem_iff.mp (List.mem_filter.mp ha).1
      have same := hw.once.place (q := .container b) mem (List.mem_filter.mp child).1
      obtain ⟨q, inside, mem', -⟩ := reached_inside hb
      exact outer inside mem' same
  obtain ⟨nodup, all⟩ := Worklist.visit_spec (w.next + 1) (Finset.range w.next) forest
    (fun a ha => by
      obtain ⟨q, -, mem, -⟩ := reached_inside ha
      exact Finset.mem_range.mpr (hw.fresh mem))
    (by simp)
  refine ⟨nodup, fun r hr => ?_, fun q => ⟨fun inside => ?_, ?_⟩⟩
  · obtain ⟨q, inside, mem, -⟩ := reached_inside ((all r).mp hr)
    exact outer inside mem
  · induction inside with
    | self => exact .inl rfl
    | @deeper q i _ hi container known =>
        refine .inr ⟨i, (all i).mpr ?_, rfl⟩
        rcases known with rfl | ⟨r, hr, rfl⟩
        · refine .root (List.mem_filter.mpr ⟨?_, container⟩)
          exact (w.thingsInOrder_perm _).mem_iff.mpr hi
        · exact .child ((all r).mp hr) (List.mem_filter.mpr ⟨hi, container⟩)
  · rintro (rfl | ⟨r, hr, rfl⟩)
    · exact .self
    · obtain ⟨q, inside, mem, container⟩ := reached_inside ((all r).mp hr)
      exact .deeper inside mem container

/-! ### What is found -/

/-- What is worth something is a plain item. -/
def CoinsPlain (w : World) : Prop := ∀ i, (w.item i).getWorth ≠ 0 → (w.item i).cls = .item

theorem getContainer_of_plain (h : (w.item i).cls = .item) : w.getContainer i = none := by
  rw [getContainer, Item.getContainer, h]

theorem sum_coinsOf (plain : CoinsPlain w) (l : List ItemRef) :
    ((w.coinsOf l).map fun i => (w.item i).getWorth).sum =
      (l.map fun i => (w.item i).getWorth).sum := by
  induction l with
  | nil => rfl
  | cons i l ih =>
      rw [coinsOf, List.filter_cons]
      split
      · simpa [coinsOf] using ih
      · next out =>
          have nothing : (w.item i).getWorth = 0 := by
            by_contra some
            simp [getContainer_of_plain (plain i some), some] at out
          simpa [nothing, coinsOf] using ih

theorem mem_findMoney (hw : WellFormed w) (outer : Outermost w c) :
    i ∈ w.findMoney c ↔ (w.getContainer i = none ∧ (w.item i).getWorth ≠ 0) ∧
      ∃ q, Inside w c q ∧ i ∈ w.things q := by
  obtain ⟨-, -, all⟩ := searched_spec hw outer
  have coin : ∀ l, i ∈ w.coinsOf l ↔
      (w.getContainer i = none ∧ (w.item i).getWorth ≠ 0) ∧ i ∈ l := by
    intro l
    simp [coinsOf, and_comm]
  simp only [findMoney_eq, List.mem_append, List.mem_flatMap, coin,
    (w.thingsInOrder_perm c).mem_iff, all]
  constructor
  · rintro (⟨coin, mem⟩ | ⟨r, hr, coin, mem⟩)
    · exact ⟨coin, c, .inl rfl, mem⟩
    · exact ⟨coin, .container r, .inr ⟨r, hr, rfl⟩, mem⟩
  · rintro ⟨coin, q, rfl | ⟨r, hr, rfl⟩, mem⟩
    · exact .inl ⟨coin, mem⟩
    · exact .inr ⟨r, hr, coin, mem⟩

theorem findMoney_nodup (hw : WellFormed w) (outer : Outermost w c) : (w.findMoney c).Nodup := by
  obtain ⟨nodup, apart, -⟩ := searched_spec hw outer
  have coins : ∀ {q l}, l.Perm (w.things q) → (w.coinsOf l).Nodup := fun {q l} perm =>
    (perm.nodup_iff.mpr (hw.once.nodup q)).filter _
  have place : ∀ {q q' l l'}, q ≠ q' → l.Perm (w.things q) → l'.Perm (w.things q') →
      (w.coinsOf l).Disjoint (w.coinsOf l') := by
    intro q q' l l' ne perm perm' x hx hx'
    exact ne (hw.once.place (perm.mem_iff.mp (List.mem_filter.mp hx).1)
      (perm'.mem_iff.mp (List.mem_filter.mp hx').1))
  have list : ∀ r, (w.itemlist r).Perm (w.things (.container r)) := fun _ => List.Perm.refl _
  rw [findMoney_eq, List.nodup_append', List.nodup_flatMap]
  refine ⟨coins (w.thingsInOrder_perm c), ⟨fun r _ => coins (list r), ?_⟩, fun x hx hx' => ?_⟩
  · exact nodup.imp fun {r r'} ne =>
      place (fun e => ne (Cylinder.container.inj e)) (list r) (list r')
  · obtain ⟨r, hr, mem⟩ := List.mem_flatMap.mp hx'
    exact place (apart r hr) (w.thingsInOrder_perm c) (list r) hx mem

/-- The money counted is what the cylinder and the containers in it hold. -/
theorem moneyCount_eq (hw : WellFormed w) (outer : Outermost w c) (plain : CoinsPlain w)
    (inside : ∀ q, q ∈ S ↔ Inside w c q) : w.moneyCount c = w.worth S := by
  obtain ⟨nodup, apart, all⟩ := searched_spec hw outer
  have cylinders : S = insert c ((w.searched c).map Cylinder.container).toFinset := by
    ext q
    simp only [inside, all, Finset.mem_insert, List.mem_toFinset, List.mem_map, eq_comm]
  have fresh : c ∉ ((w.searched c).map Cylinder.container).toFinset := by
    simp only [List.mem_toFinset, List.mem_map, not_exists, not_and]
    exact fun r hr e => apart r hr e.symm
  have distinct : ((w.searched c).map Cylinder.container).Nodup :=
    nodup.map fun _ _ e => Cylinder.container.inj e
  rw [moneyCount, findMoney_eq, List.map_append, List.sum_append, sum_coinsOf plain,
    ((w.thingsInOrder_perm c).map _).sum_eq, worth, Ledger.total, cylinders,
    Finset.sum_insert fresh, List.sum_toFinset _ distinct, List.map_flatMap, List.flatMap_def,
    List.sum_flatten, List.map_map, List.map_map]
  congr 2
  exact List.map_congr_left fun r _ => sum_coinsOf plain (w.itemlist r)

theorem foldl_emplace_perm (l entries : List MoneyEntry) :
    (entries.foldl emplace l).Perm (l ++ entries) := by
  induction entries generalizing l with
  | nil => simp
  | cons e entries ih =>
      refine (ih (emplace l e)).trans ?_
      have inserted : (emplace l e).Perm (e :: l) := List.perm_orderedInsert _ _ _
      exact (inserted.append_right entries).trans List.perm_middle.symm

theorem moneyMap_perm (w : World) (c : Cylinder) :
    (w.moneyMap c).Perm ((w.findMoney c).map fun i => ⟨(w.item i).getWorth, i⟩) :=
  foldl_emplace_perm _ _

end World

namespace Game

open World

variable {g g' : Game} {c q : Cylinder} {i : ItemRef} {S : Finset Cylinder} {flags : Flags}
  {entry : MoneyEntry} {entries : List MoneyEntry} {money m : Nat}

/-! ### One stack -/

/-- A stack of coins in one of the cylinders of `S`. -/
structure Held (S : Finset Cylinder) (g : Game) (entry : MoneyEntry) : Prop where
  place : ∃ q ∈ S, entry.item ∈ g.world.things q
  plain : (g.world.item entry.item).cls = .item
  worth : entry.worth = (g.world.item entry.item).getWorth
  worth_ne : entry.worth ≠ 0

theorem cls_of_stack {w w' : World} (h : (w'.item i).stack = (w.item i).stack)
    (plain : (w.item i).cls = .item) : (w'.item i).cls = .item := by
  have shell := Item.shell_of_stack h
  rw [plain] at shell
  cases hc : (w'.item i).cls <;> simp only [hc, ItemClass.shell, reduceCtorEq] at shell
  rfl

theorem getWorth_of_stack {w w' : World} (h : (w'.item i).stack = (w.item i).stack) :
    (w'.item i).getWorth = (w.item i).getWorth := by
  have count : (w'.item i).count = (w.item i).count := (congrArg Item.count h :)
  rw [Item.getWorth, Item.getWorth, Item.id_of_stack h, count]

theorem Held.stays (h : Held S g entry)
    (listed : ∀ {q}, entry.item ∈ g.world.things q → entry.item ∈ g'.world.things q)
    (stack : (g'.world.item entry.item).stack = (g.world.item entry.item).stack) :
    Held S g' entry := by
  obtain ⟨q, hq, mem⟩ := h.place
  exact ⟨⟨q, hq, listed mem⟩, cls_of_stack stack h.plain,
    h.worth.trans (getWorth_of_stack stack).symm, h.worth_ne⟩

theorem Held.coin (h : Held S g entry) : coinWorth (g.world.item entry.item).id ≠ 0 := by
  intro none
  have worth := h.worth
  rw [Item.getWorth, none, Nat.mul_zero] at worth
  exact h.worth_ne worth

theorem Held.count_pos (h : Held S g entry) : 0 < g.world.getItemCount entry.item := by
  refine Nat.pos_of_ne_zero fun none => h.worth_ne ?_
  have count : (g.world.item entry.item).count.toNat = 0 := none
  rw [h.worth, Item.getWorth, count, Nat.zero_mul]

theorem Held.worth_eq (h : Held S g entry) : entry.worth =
    g.world.getItemCount entry.item * coinWorth (g.world.item entry.item).id := h.worth

theorem Held.coinOf (h : Held S g entry) :
    g.coinOf entry = coinWorth (g.world.item entry.item).id := by
  rw [Game.coinOf, h.worth_eq, Nat.mul_div_cancel_left _ h.count_pos]

/-- The coins that are taken cover what is left to pay, and no coin too many is taken. -/
theorem removeCount_spec {worth : Nat} (coin : 0 < worth) (pos : 0 < money) :
    0 < removeCount money worth ∧ money ≤ worth * removeCount money worth ∧
      worth * removeCount money worth < money + worth := by
  have digits := Nat.div_add_mod (money + worth - 1) worth
  have small := Nat.mod_lt (money + worth - 1) coin
  unfold removeCount
  refine ⟨Nat.div_pos (by omega) coin, ?_, ?_⟩ <;> omega

theorem unstacked_worth {w w' : World} (h : Unstacked w w' q i m) (coinage : Coinage w.items)
    (hq : q ∈ S) : w'.worth S + m * coinWorth (w.item i).id = w.worth S := by
  have account : ∀ kind, w'.total S kind + (if (w.item i).id = kind then m else 0) =
      w.total S kind + if (w.item i).id = kind then 0 else 0 := fun kind => by
    simpa using h.total hq kind
  have change := worth_change coinage (h.items ▸ coinage) account
  simpa using change

/-- A stack, or a part of it, is taken. -/
theorem Held.remove (h : Held S g entry) (sound : Sound g) (hp : Parented g.world)
    (coinage : Coinage g.world.items) (pos : 0 < m) (le : m ≤ g.world.getItemCount entry.item)
    {count : Option Nat} (hc : count.getD (g.world.getItemCount entry.item) = m) :
    ∃ q ∈ S, Unstacked g.world (g.internalRemoveItem entry.item count).2.world q entry.item m ∧
      (g.internalRemoveItem entry.item count).2.world.worth S +
        m * coinWorth (g.world.item entry.item).id = g.world.worth S := by
  obtain ⟨q, hq, mem⟩ := h.place
  have stackable : g.world.isStackable entry.item = true := (coinage.minted h.coin).stackable
  have unstacked := sound.internalRemoveItem hp mem stackable h.plain pos le hc
  exact ⟨q, hq, unstacked, unstacked_worth unstacked coinage hq⟩

/-! ### The change -/

/-- The change that is due in the loop, and the game it is added in. -/
def due : Game → List MoneyEntry → Nat → Option (Game × BitVec 64)
  | _, [], _ => none
  | g, entry :: rest, money =>
      if entry.worth < money then due (g.internalRemoveItem entry.item).2 rest (money - entry.worth)
      else if entry.worth > money then some (g, g.changeOf entry money)
      else none

/-- Every coin of the change is worth less than the coins of the stack that is broken. -/
theorem ofMoney_type {change : BitVec 64} (exact : Coins.Exact change) :
    ∀ s ∈ Coins.ofMoney change, coinWorth s.type ≤ change.toNat := by
  intro s hs
  have part : s.worth ≤ change.toNat := by
    rw [← exact.sum]
    exact List.single_le_sum (by simp) _ (List.mem_map_of_mem hs)
  have some := (exact.each s hs).1
  calc coinWorth s.type ≤ s.created * coinWorth s.type := Nat.le_mul_of_pos_left _ some
    _ ≤ change.toNat := part

theorem splits_of_small {change : BitVec 64} (small : change.toNat < 10000) :
    Coins.Splits change := by
  have none : change.toNat / 10000 = 0 := Nat.div_eq_of_lt small
  simp [Coins.Splits, none]

theorem coinWorth_le (id : Nat) : coinWorth id ≤ 10000 := by
  unfold coinWorth
  split_ifs <;> omega

/-- A stack worth more than is left to pay is broken: that is exact when the change is
taken in. -/
theorem Held.broken (h : Held S g entry) (sound : Sound g) (hp : Parented g.world)
    (coinage : Coinage g.world.items) (pos : 0 < money) (more : money < entry.worth) :
    ((g.addMoney c (g.changeOf entry money) flags).internalRemoveItem entry.item
        (some (removeCount money (g.coinOf entry)))).2.world.worth S + money = g.world.worth S ↔
      TakenIn S c flags g (Coins.ofMoney (g.changeOf entry money)) := by
  have coin : 0 < coinWorth (g.world.item entry.item).id := Nat.pos_of_ne_zero h.coin
  obtain ⟨some, covers, least⟩ := removeCount_spec coin pos
  have bound := coinWorth_le (g.world.item entry.item).id
  have change : (g.changeOf entry money).toNat = coinWorth (g.world.item entry.item).id *
      removeCount money (coinWorth (g.world.item entry.item).id) - money := by
    rw [changeOf, h.coinOf, BitVec.toNat_ofNat]
    omega
  have exact := (Coins.exact_iff_splits (g.changeOf entry money)).mpr (splits_of_small (by omega))
  have other : ∀ s ∈ Coins.ofMoney (g.changeOf entry money),
      (g.world.item entry.item).id ≠ s.type := by
    intro s hs e
    have le := ofMoney_type exact s hs
    rw [← e] at le
    omega
  have coins := ofMoney_coins (g.changeOf entry money)
  obtain ⟨sound', items, -, whole⟩ := sound.addStacks coinage coins S c flags
  obtain ⟨parented, others⟩ := sound.addStacks_spares coinage coins c flags hp
  rw [← Coins.addMoney_eq] at sound' items whole parented others
  rw [← whole, exact.sum, change, h.coinOf]
  generalize g.addMoney c (g.changeOf entry money) flags = g₁ at *
  have stack : (g₁.world.item entry.item).stack = (g.world.item entry.item).stack := by
    obtain ⟨q, -, mem⟩ := h.place
    exact (others q entry.item mem other).2
  have held : Held S g₁ entry :=
    h.stays (fun {q} mem => (others q entry.item mem other).1) stack
  generalize hn : removeCount money (coinWorth (g.world.item entry.item).id) = n at *
  have enough : n ≤ g₁.world.getItemCount entry.item := by
    have count : g₁.world.getItemCount entry.item = g.world.getItemCount entry.item :=
      Item.getItemCount_of_stack stack
    have product : coinWorth (g.world.item entry.item).id * n <
        coinWorth (g.world.item entry.item).id * (g.world.getItemCount entry.item + 1) := by
      have worth := h.worth_eq
      rw [Nat.mul_comm] at worth
      rw [Nat.mul_add, Nat.mul_one]
      omega
    have less := Nat.lt_of_mul_lt_mul_left product
    omega
  obtain ⟨q, -, -, worth⟩ := held.remove sound' parented (items ▸ coinage) some enough
    (Option.getD_some (a := n))
  rw [Item.id_of_stack stack, Nat.mul_comm] at worth
  omega

/-! ### The loop -/

/-- What is due is paid exactly when the change, if there is any, is taken in. -/
theorem takeMoney_paid (sound : Sound g) (hp : Parented g.world) (coinage : Coinage g.world.items)
    (held : ∀ e ∈ entries, Held S g e) (distinct : (entries.map MoneyEntry.item).Nodup)
    (pos : 0 < money) (enough : money ≤ (entries.map MoneyEntry.worth).sum) (c : Cylinder)
    (flags : Flags) :
    (takeMoney c flags g entries money).world.worth S + money = g.world.worth S ↔
      ∀ g' change, due g entries money = some (g', change) →
        TakenIn S c flags g' (Coins.ofMoney change) := by
  induction entries generalizing g money with
  | nil => simp at enough; omega
  | cons entry rest ih =>
      have here := held entry List.mem_cons_self
      have whole : (Option.none : Option Nat).getD (g.world.getItemCount entry.item) =
        g.world.getItemCount entry.item := rfl
      obtain ⟨q, -, taken, worth⟩ := here.remove sound hp coinage here.count_pos le_rfl whole
      rw [← here.worth_eq] at worth
      rw [List.map_cons, List.nodup_cons] at distinct
      rw [List.map_cons, List.sum_cons] at enough
      rw [takeMoney, due]
      by_cases less : entry.worth < money
      · simp only [if_pos less]
        have others : ∀ e ∈ rest, Held S (g.internalRemoveItem entry.item).2 e := by
          intro e he
          have ne : e.item ≠ entry.item := by
            intro same
            exact distinct.1 (same ▸ List.mem_map_of_mem he)
          exact (held e (List.mem_cons_of_mem _ he)).stays (taken.listed ne) (taken.stack _ ne)
        rw [← ih ⟨taken.wellFormed, taken.typed⟩ taken.parented (taken.items ▸ coinage) others
          distinct.2 (by omega) (by omega)]
        omega
      · by_cases more : entry.worth > money
        · simp only [if_neg less, if_pos more, Option.some.injEq, Prod.mk.injEq, and_imp]
          rw [here.broken sound hp coinage pos more]
          exact ⟨fun h g' change e e' => e ▸ e' ▸ h, fun h => h g _ rfl rfl⟩
        · simp only [if_neg less, if_neg more, reduceCtorEq, false_implies, implies_true, iff_true]
          omega

/-! ### Removing money -/

/-- The cylinders, and the tile of one of them. -/
def withTile (w : World) (c : Cylinder) (inside : Finset Cylinder) : Finset Cylinder :=
  match w.tileOf c with
  | some pos => insert (.tile pos) inside
  | none => inside

theorem subset_withTile (w : World) (c : Cylinder) (inside : Finset Cylinder) :
    inside ⊆ withTile w c inside := by
  unfold withTile
  split
  · exact Finset.subset_insert _ _
  · exact Finset.Subset.refl _

/-- The answer says whether there is enough in the cylinder, nothing happens where it is
not, and where it is the amount is gone from the cylinder and its tile. -/
structure Charges (inside : Finset Cylinder) (g : Game) (cylinder : Cylinder)
    (money : BitVec 64) (flags : Flags) : Prop where
  answer : (g.removeMoney (some cylinder) money flags).1 = true ↔
    money.toNat ≤ g.world.worth inside
  refused : (g.removeMoney (some cylinder) money flags).1 = false →
    (g.removeMoney (some cylinder) money flags).2 = g
  paid : (g.removeMoney (some cylinder) money flags).1 = true →
    (g.removeMoney (some cylinder) money flags).2.world.worth
        (withTile g.world cylinder inside) + money.toNat =
      g.world.worth (withTile g.world cylinder inside)

theorem due_zero {change : BitVec 64} (held : ∀ e ∈ entries, Held S g e)
    (h : due g entries 0 = some (g', change)) : Coins.ofMoney change = [] := by
  cases entries with
  | nil => simp [due] at h
  | cons entry rest =>
      have here := held entry List.mem_cons_self
      have coin := Nat.pos_of_ne_zero here.coin
      have none : removeCount 0 (g.coinOf entry) = 0 := by
        rw [here.coinOf, removeCount]
        exact Nat.div_eq_of_lt (by omega)
      simp only [due, Nat.not_lt_zero, if_false, Nat.pos_of_ne_zero here.worth_ne,
        if_true, Option.some.injEq, Prod.mk.injEq, changeOf, none, Nat.mul_zero,
        Nat.sub_self] at h
      rw [← h.2]
      rfl

end Game

/-! ### Above a pit

A player with three crystal coins, one in each hand and one for ammunition, on a tile
from which things fall to the floor below. -/

namespace Sample

open World

def pitStore : List Item :=
  [{ id := 2160, count := 1, parent := some (.player 0) },
   { id := 2160, count := 1, parent := some (.player 0) },
   { id := 2160, count := 1, parent := some (.player 0) }]

def below : Position := ⟨100, 100, 8⟩

def pit : Game :=
  game { world pitStore {} purseSlots with
    items := coinItems
    classicEquipmentSlots := true
    tile := fun pos =>
      if pos = here then some { flags := TILESTATE_FLOORCHANGE_DOWN }
      else if pos = below then some {}
      else none }

theorem pit_tile {pos : Position} {t : Tile} (ht : pit.world.tile pos = some t) :
    t.ground = none ∧ t.itemList = [] := by
  change (if pos = here then some { flags := TILESTATE_FLOORCHANGE_DOWN }
    else if pos = below then some {} else none) = some t at ht
  split_ifs at ht
  all_goals
    cases ht
    exact ⟨rfl, rfl⟩

theorem pit_item (o : ItemRef) : (pit.world.item o).cls = .item := by
  change ((pitStore[o]?).getD { id := 0 }).cls = .item
  rcases hs : pitStore[o]? with _ | x
  · rfl
  · have all : ∀ x ∈ pitStore, x.cls = .item := by decide
    exact all x (List.mem_of_getElem? hs)

theorem pit_things : pit.world.things = (world pitStore {} purseSlots).things := by
  funext c
  cases c with
  | player p => rfl
  | container r => rfl
  | tile pos =>
      have bare : pit.world.things (.tile pos) = [] := by
        rw [things]
        cases ht : pit.world.tile pos with
        | none => rfl
        | some t =>
            obtain ⟨ground, list⟩ := pit_tile ht
            simp [ground, list]
      rw [bare, things]
      by_cases hp : pos = here <;> simp [world, hp]

theorem pit_sound : pit.Sound := by
  have listed : (world pitStore {} purseSlots).WellFormed :=
    world_wellFormed (by decide) (by decide)
  refine ⟨⟨pit_things ▸ listed.once, fun {c i} hi => ?_, listed.unused⟩, fun o ho => ?_,
    fun ht ho => ?_, fun ht ho => ?_, fun ht ho => ?_, fun ht ho => ?_⟩
  · rw [pit_things] at hi
    exact listed.fresh hi
  · rw [Item.getMagicField, pit_item] at ho
    exact absurd ho (by decide)
  all_goals simp [pit_tile ht, Tile.topItems, Tile.downItems] at ho

theorem pit_carried : pit.world.things (.player 0) = [1, 2, 0] := rfl

theorem pit_lies {c : Cylinder} {i : ItemRef} (hi : i ∈ pit.world.things c) : c = .player 0 := by
  cases c with
  | player p =>
      by_cases hp : p = 0
      · rw [hp]
      · exfalso
        rw [pit_things] at hi
        simp [things, world, hp] at hi
  | container r =>
      have empty : pit.world.itemlist r = [] := by
        rw [itemlist, Item.itemlist, Item.getContainer, pit_item]
        rfl
      rw [things, empty] at hi
      simp at hi
  | tile pos =>
      rw [things] at hi
      cases ht : pit.world.tile pos with
      | none => simp [ht] at hi
      | some t =>
          obtain ⟨ground, list⟩ := pit_tile ht
          simp [ht, ground, list] at hi

theorem pit_parented : Parented pit.world where
  parent {c i} hi := by
    obtain rfl := pit_lies hi
    rw [pit_carried] at hi
    left
    fin_cases hi <;> rfl
  browsed {pos r} browse := by
    have closed : pit.world.browseFields pos = none := rfl
    rw [closed] at browse
    simp at browse

theorem pit_inside (q : Cylinder) : q ∈ ({.player 0} : Finset Cylinder) ↔
    Inside pit.world (.player 0) q := by
  rw [Finset.mem_singleton]
  constructor
  · rintro rfl
    exact .self
  · intro inside
    cases inside with
    | self => rfl
    | deeper _ _ container =>
        rw [getContainer_of_plain (pit_item _)] at container
        simp at container

end Sample

end TibServer
