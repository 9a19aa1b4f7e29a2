import TibServer.Store

/-!
What a purchase charges. The units of the product in the store inbox are counted before
and after, pack by pack; they grow by the count of the offer exactly when each pack is
made, counts what it stands for, and is taken in whole. Where a pack is refused the
history and the coins disagree.
-/

namespace TibServer.Store

open Game World

variable {g : Game} {a : Account} {offer : ItemOffer} {name : String} {inbox : ItemRef}
  {pending : Nat}

/-! ### The item that is made -/

/-- The id of the items `CreateItem` makes for a type. -/
def madeId (items : Items) (type : Nat) : Nat :=
  if classOf (items.type type) = .item then createdId type else type

theorem classOf_empty {it : ItemType} {k : Container} (h : classOf it = .container k) :
    k.itemlist = [] := by
  unfold classOf at h
  split_ifs at h <;> exact ItemClass.container.inj h ▸ rfl

/-- What is made is empty, of one id, and no field that could be stacked. -/
theorem createItem_spec {w : World} {type count : Nat} {x : Item}
    (h : w.createItem type count = some x) :
    x.id = madeId w.items type ∧ x.itemlist = [] ∧
      (x.getMagicField = true → (w.items.type x.id).stackable = false) := by
  unfold createItem at h
  simp only at h
  split at h
  · simp at h
  · split at h
    · simp at h
    · split at h
      · next plain =>
          obtain rfl := Option.some.inj h
          have cls := w.constructItem_cls (createdId type)
            (if (w.items.type type).stackable && count == 0 then 1 else count) .item
          rw [madeId, if_pos plain]
          refine ⟨constructItem_id .., ?_, fun field => ?_⟩
          · rw [Item.itemlist, Item.getContainer, cls]
            rfl
          · rw [Item.getMagicField, cls] at field
            exact absurd field (by decide)
      · next cls class_eq other =>
          obtain rfl := Option.some.inj h
          have made := w.constructItem_cls type 0 (classOf (w.items.type type))
          rw [madeId, if_neg fun plain => other (by rw [← plain])]
          refine ⟨constructItem_id .., ?_, fun field => ?_⟩
          · rw [Item.itemlist, Item.getContainer, made]
            cases hk : classOf (w.items.type type) with
            | container k => exact classOf_empty hk
            | _ => rfl
          · rw [Item.getMagicField, made, beq_iff_eq] at field
            rw [constructItem_id, Bool.eq_false_iff]
            intro hs
            have plain := classOf_plain (w.items.stackable_isPlain _ hs)
            rw [plain] at field
            exact absurd field (by decide)

/-- A stack that is made has the count that was asked for. -/
theorem createItem_count {w : World} {type count : Nat} {x : Item}
    (h : w.createItem type count = some x) (pos : count ≠ 0)
    (hs : (w.items.type x.id).stackable = true) : x.getItemCount = count % 256 := by
  obtain ⟨id, -, -⟩ := createItem_spec h
  have none : ((w.items.type type).stackable && count == 0) = false := by simp [pos]
  unfold createItem at h
  simp only [none, Bool.false_eq_true, if_false] at h
  split at h
  · simp at h
  · split at h
    · simp at h
    · split at h
      · next plain =>
          obtain rfl := Option.some.inj h
          rw [constructItem_id] at hs
          exact constructItem_stack _ hs pos
      · next cls class_eq other =>
          rw [madeId, if_neg fun plain => other (by rw [← plain])] at id
          have plain := classOf_plain (w.items.stackable_isPlain _ (id ▸ hs))
          exact absurd plain other

theorem wrap_keeps (offer : ItemOffer) (name : String) (x : Item) :
    (wrap offer name x).id = x.id ∧ (wrap offer name x).cls = x.cls ∧
      (wrap offer name x).count = x.count := by
  unfold wrap
  split <;> exact ⟨rfl, rfl, rfl⟩

/-- The units of a pack: its coins if it is a stack, and one otherwise. -/
def packUnits (items : Items) (offer : ItemOffer) (count : Nat) : Nat :=
  if (items.type (madeId items (madeType offer))).stackable then count % 256 else 1

/-- The pack before it is added. -/
structure Made (g : Game) (offer : ItemOffer) (count : Nat) (x : Item) : Prop where
  new : New (g.mint x) g.world.next
  touched : Touched g.world (g.mint x).world g.world.next
  id : ((g.mint x).world.item g.world.next).id = madeId g.world.items (madeType offer)
  units : (g.mint x).world.unitsOf g.world.next = packUnits g.world.items offer count

theorem makePack_made (h : Sound g) {count : Nat} {x : Item} (pos : count ≠ 0)
    (make : makePack g.world offer name count = some x) : Made g offer count x := by
  unfold makePack at make
  obtain ⟨y, create, e⟩ := Option.map_eq_some_iff.mp make
  obtain ⟨id, empty, single⟩ := createItem_spec create
  obtain ⟨sameId, sameCls, sameCount⟩ := wrap_keeps offer name y
  rw [e] at sameId sameCls sameCount
  obtain ⟨new, touched⟩ := h.mint ((Item.itemlist_of_cls sameCls).trans empty) fun field => by
    rw [Item.getMagicField, sameCls] at field
    rw [sameId]
    exact single field
  have object : (g.mint x).world.item g.world.next = x := by simp [Game.mint, allocate]
  have stack : (g.mint x).world.isStackable g.world.next =
      (g.world.items.type (madeId g.world.items (madeType offer))).stackable := by
    rw [isStackable, typeOf, object, sameId, id]
    rfl
  refine ⟨new, touched, by rw [object, sameId, id], ?_⟩
  rw [unitsOf, packUnits, stack]
  split
  · next hs =>
      rw [World.getItemCount, object, Item.getItemCount, sameCount]
      exact createItem_count create pos (id ▸ hs)
  · rfl

/-! ### Adding it to a container -/

theorem containerAddThing_bare (w : World) (c i : ItemRef) (index : Int) (pos : Position) :
    ((World.containerAddThing w c index i).tile pos).map Tile.bare =
      (w.tile pos).map Tile.bare := by
  unfold World.containerAddThing
  split
  · rfl
  · split
    · rfl
    · unfold pushFront
      split
      · rfl
      · rfl
      · exact (updateItemWeight_kept _ _ _).tile pos

/-- A container takes in anything, stack or not, without another going. -/
theorem addItemAux_boxed {S : Finset Cylinder} {i : ItemRef} {fuel : Nat} {flags : Flags}
    (h : New g i) (enough : g.world.getItemCount i < fuel)
    (letIn : g.addCheck (.container inbox) i INDEX_WHEREEVER flags = .noError) :
    Received S g (addItemAux fuel g (.container inbox) i INDEX_WHEREEVER flags false).game i
      (strayed S fuel g (.container inbox) i INDEX_WHEREEVER flags) := by
  by_cases hs : g.world.isStackable i = true
  · exact addItemAux_received h hs enough letIn
  · obtain ⟨fuel, rfl⟩ := Nat.exists_eq_add_one_of_ne_zero (by omega : fuel ≠ 0)
    have single : g.world.mergeTarget i
        (g.addDest (.container inbox) i INDEX_WHEREEVER flags).destItem = none :=
      mergeTarget_single (Bool.eq_false_iff.mpr hs)
    rw [addItemAux, strayed]
    simp only [letIn, ne_eq, not_true_eq_false, if_false, Bool.false_eq_true, single]
    obtain ⟨r, hr⟩ : ∃ r, (g.addDest (.container inbox) i INDEX_WHEREEVER flags).cylinder =
        .container r := containerQueryDestination_container rfl
    refine h.received_place ?_ ?_
    · rw [hr]
      have placed := addThing_placed (c := .container r)
        (g.addDest (.container inbox) i INDEX_WHEREEVER flags).index h.wellFormed h.typed
        h.unlisted h.lt_next
      exact h.typed.congr placed.items (fun o => Item.id_of_stack (placed.stack o))
        (fun o => getMagicField_of_stack (placed.stack o)) (containerAddThing_bare _ _ _ _)
    · rw [hr]
      simp only [displaced]
      split
      · exact .inr rfl
      · exact .inl rfl

/-! ### All packs -/

/-- From here on each pack is made, counts as many units as it stands for, and is let in
and taken in whole, in the state it is added in. -/
def Taken (g : Game) (inbox : ItemRef) (offer : ItemOffer) (name : String)
    (pendingCount : Nat) : Prop :=
  if pendingCount > 0 then
    match makePack g.world offer name (pack offer pendingCount) with
    | none => False
    | some x =>
        let item := g.world.next
        let g := g.mint x
        packUnits g.world.items offer (pack offer pendingCount) = pack offer pendingCount ∧
          g.addCheck (.container inbox) item INDEX_WHEREEVER { noLimit := true } = .noError ∧
          strayed {.container inbox} (g.world.getItemCount item + 1) g (.container inbox) item
            INDEX_WHEREEVER { noLimit := true } = 0 ∧
          Taken (g.internalAddItem (.container inbox) item INDEX_WHEREEVER
            { noLimit := true }).game inbox offer name (pendingCount - pack offer pendingCount)
  else True
termination_by pendingCount
decreasing_by
  have := pack_pos offer ‹pendingCount > 0›
  omega

/-- The game after a pack was let in. -/
def addPack (g : Game) (inbox : ItemRef) (x : Item) : Game :=
  ((g.mint x).internalAddItem (.container inbox) g.world.next INDEX_WHEREEVER
    { noLimit := true }).game

/-- A pack is let in. -/
def LetIn (g : Game) (inbox : ItemRef) (x : Item) : Prop :=
  (g.mint x).addCheck (.container inbox) g.world.next INDEX_WHEREEVER { noLimit := true } =
    .noError

/-- The units of a pack that are not in the inbox then. -/
def packLost (g : Game) (inbox : ItemRef) (x : Item) : Nat :=
  strayed {.container inbox} ((g.mint x).world.getItemCount g.world.next + 1) (g.mint x)
    (.container inbox) g.world.next INDEX_WHEREEVER { noLimit := true }

section Step

variable {x : Item} (a) (inbox) (left : pending > 0)
include left

theorem deliver_none (make : makePack g.world offer name (pack offer pending) = none) :
    deliver g a inbox offer name pending = (g, a.refuse offer pending) ∧
      ¬Taken g inbox offer name pending := by
  rw [deliver, Taken]
  simp only [if_pos left, make, not_false_eq_true, and_true]

variable (make : makePack g.world offer name (pack offer pending) = some x)
include make

theorem deliver_refused (refused : ¬LetIn g inbox x) :
    (deliver g a inbox offer name pending).2 = a.refuse offer pending ∧
      ¬Taken g inbox offer name pending := by
  have ret : ((g.mint x).internalAddItem (.container inbox) g.world.next
      INDEX_WHEREEVER { noLimit := true }).ret ≠ .noError := (addItemAux_refused _ false refused).1
  constructor
  · rw [deliver]
    simp only [if_pos left, make, if_pos ret]
  · rw [Taken]
    simp only [if_pos left, make]
    exact fun taken => refused taken.2.1

theorem deliver_letIn (new : New (g.mint x) g.world.next) (letIn : LetIn g inbox x) :
    deliver g a inbox offer name pending =
        deliver (addPack g inbox x) a inbox offer name (pending - pack offer pending) ∧
      (Taken g inbox offer name pending ↔
        packUnits g.world.items offer (pack offer pending) = pack offer pending ∧
          packLost g inbox x = 0 ∧
          Taken (addPack g inbox x) inbox offer name (pending - pack offer pending)) := by
  have ret : ¬((g.mint x).internalAddItem (.container inbox) g.world.next
      INDEX_WHEREEVER { noLimit := true }).ret ≠ .noError :=
    not_not.mpr (addItemAux_adds new (Nat.lt_add_one _) letIn).ret
  constructor
  · rw [deliver]
    simp only [if_pos left, make, if_neg ret]
    rfl
  · rw [Taken]
    simp only [if_pos left, make]
    exact ⟨fun taken => ⟨taken.1, taken.2.2.1, taken.2.2.2⟩,
      fun taken => ⟨taken.1, letIn, taken.2.1, taken.2.2⟩⟩

end Step

/-- The units of the product in the inbox. -/
def productUnits (w : World) (inbox : ItemRef) (offer : ItemOffer) : Nat :=
  w.total {.container inbox} (madeId w.items (madeType offer))

theorem packUnits_le (items : Items) (offer : ItemOffer) {count : Nat} (pos : 0 < count) :
    packUnits items offer count ≤ count := by
  unfold packUnits
  split <;> omega

/-- A pack that is let in adds its units, less those that are lost of it. -/
theorem addPack_units (h : Sound g) {x : Item} {count : Nat} (made : Made g offer count x)
    (letIn : LetIn g inbox x) :
    Sound (addPack g inbox x) ∧ (addPack g inbox x).world.items = g.world.items ∧
      productUnits (addPack g inbox x).world inbox offer + packLost g inbox x =
        productUnits g.world inbox offer + packUnits g.world.items offer count := by
  have received : Received {.container inbox} (g.mint x) (addPack g inbox x) g.world.next
      (packLost g inbox x) := addItemAux_boxed made.new (Nat.lt_add_one _) letIn
  have items : (addPack g inbox x).world.items = g.world.items := received.items
  refine ⟨⟨received.wellFormed, received.typed⟩, items, ?_⟩
  have account := received.total (madeId g.world.items (madeType offer))
  rw [if_pos made.id, World.units, if_pos made.id, made.units,
    made.touched.total h.wellFormed.next_unlisted] at account
  rw [productUnits, productUnits, items, account]

/-- What the loop comes to where all packs are let in. -/
structure Delivered (g : Game) (a : Account) (inbox : ItemRef) (offer : ItemOffer)
    (name : String) (pending : Nat) (r : Game × Account) : Prop where
  account : r.2 = a
  le : productUnits r.1.world inbox offer ≤ productUnits g.world inbox offer + pending
  whole : productUnits r.1.world inbox offer = productUnits g.world inbox offer + pending ↔
    Taken g inbox offer name pending

/-- All packs are let in, or one is refused. -/
theorem deliver_cases (h : Sound g) (a : Account) (inbox : ItemRef) (offer : ItemOffer)
    (name : String) (pending : Nat) :
    Delivered g a inbox offer name pending (deliver g a inbox offer name pending) ∨
      ∃ q, q ≤ pending ∧ (deliver g a inbox offer name pending).2 = a.refuse offer q ∧
        ¬Taken g inbox offer name pending := by
  induction pending using Nat.strong_induction_on generalizing g with
  | _ pending ih =>
      by_cases left : pending > 0
      · have pos := pack_pos offer left
        have packLe : pack offer pending ≤ pending := Nat.min_le_right _ _
        cases make : makePack g.world offer name (pack offer pending) with
        | none =>
            obtain ⟨run, untaken⟩ := deliver_none a inbox left make
            exact .inr ⟨pending, le_refl _, by rw [run], untaken⟩
        | some x =>
            have made := makePack_made h pos.ne' make
            by_cases letIn : LetIn g inbox x
            · obtain ⟨run, taken⟩ := deliver_letIn a inbox left make made.new letIn
              obtain ⟨sound, items, account⟩ := addPack_units h made letIn
              have units := packUnits_le g.world.items offer pos
              have fewer : pending - pack offer pending < pending := by omega
              rcases ih _ fewer sound with rest | ⟨q, le, refused, untaken⟩
              · refine .inl ⟨by rw [run, rest.account], ?_, ?_⟩
                · have le := rest.le
                  rw [run]
                  omega
                · have le := rest.le
                  rw [run, taken, ← rest.whole]
                  constructor
                  · intro all
                    exact ⟨by omega, by omega, by omega⟩
                  · rintro ⟨whole, none, all⟩
                    omega
              · exact .inr ⟨q, le.trans (Nat.sub_le _ _), by rw [run, refused],
                  fun all => untaken (taken.mp all).2.2⟩
            · obtain ⟨run, untaken⟩ := deliver_refused a inbox left make letIn
              exact .inr ⟨pending, le_refl _, run, untaken⟩
      · have none : pending = 0 := by omega
        subst none
        have run : deliver g a inbox offer name 0 = (g, a) := by
          rw [deliver, if_neg left]
        have taken : Taken g inbox offer name 0 := by
          rw [Taken, if_neg left]
          trivial
        rw [run]
        exact .inl ⟨rfl, le_refl _, iff_of_true rfl taken⟩

/-! ### Purchases -/

/-- The units of the product in the store inbox, if there is one. -/
def stored (w : World) (box : Option (ItemRef × Container)) (offer : ItemOffer) : Nat :=
  box.elim 0 fun b => productUnits w b.1 offer

/-- The numbers a purchase computes are those of unbounded arithmetic: the free slots,
the capacity that is needed, and what is taken, given back and registered. -/
structure Unwrapped (g : Game) (p : PlayerId) (a a' : Account) (offer : ItemOffer) : Prop where
  slots : ∀ inbox k, offer.price ≤ a.getCoinBalance → storeInbox g.world p = some (inbox, k) →
    ((freeSlots k).toNat : Int) = k.capacity - k.size
  cap : ∀ b, offer.price ≤ a.getCoinBalance → storeInbox g.world p = some b →
    offer.type ≠ .wrapItem → (capNeeded g.world offer).toNat =
      (g.world.items.type offer.productId.toNat).weight.toNat * offer.count.toNat
  amounts : a' = a ∨
    (a'.tasks = a.tasks ++ [-(offer.price.toNat : Int)] ∧
      a'.history = a.history ++ [-(offer.price.toNat : Int)]) ∨
    ∃ q, a'.tasks = a.tasks ++ [-(offer.price.toNat : Int),
        (offer.price.toNat * (offer.count.toNat - q) / offer.count.toNat : Nat)] ∧
      a'.history = a.history ++ [-(offer.price.toNat : Int),
        -(offer.price.toNat : Int) +
          (offer.price.toNat * (offer.count.toNat - q) / offer.count.toNat : Nat)]

/-- The coins deducted are the price times the fraction of the count that is in the
inbox then, nothing is if the player had too few coins, and what is registered is what is
deducted. -/
structure Fair (g : Game) (p : PlayerId) (a : Account) (offer : ItemOffer)
    (r : Game × Account) : Prop where
  charged : (a.balance - r.2.balance) * offer.count.toNat = offer.price.toNat *
    ((stored r.1.world (storeInbox g.world p) offer : Int) -
      stored g.world (storeInbox g.world p) offer)
  enough : a.balance < offer.price.toNat →
    stored r.1.world (storeInbox g.world p) offer = stored g.world (storeInbox g.world p) offer
  registered : r.2.history.sum - a.history.sum = r.2.balance - a.balance
  unwrapped : Unwrapped g p a r.2 offer

/-- What a purchase asks before it charges does not wrap; if it then charges, the price
is a positive number of 32 bits with a sign, the coins are there still, and every pack
is taken. -/
def Honest (g : Game) (p : PlayerId) (a : Account) (offer : ItemOffer) (name : String)
    (inbox : ItemRef) (k : Container) : Prop :=
  k.size ≤ k.capacity ∧
    (offer.type ≠ .wrapItem → (g.world.items.type offer.productId.toNat).weight.toNat *
      offer.count.toNat < 2 ^ 32) ∧
    (room g.world p offer k = true →
      offer.price.toNat < 2 ^ 31 ∧ (offer.price.toNat : Int) ≤ a.balance ∧
        Taken g inbox offer name offer.count.toNat)

theorem freeSlots_iff (k : Container) :
    ((freeSlots k).toNat : Int) = k.capacity - k.size ↔ k.size ≤ k.capacity := by
  have lt : k.capacity < 2 ^ 32 := k.maxSize_lt
  rw [freeSlots, BitVec.toNat_sub, BitVec.toNat_ofNat, BitVec.toNat_ofNat]
  omega

theorem capNeeded_iff (w : World) (offer : ItemOffer) (unwrapped : offer.type ≠ .wrapItem) :
    (capNeeded w offer).toNat =
        (w.items.type offer.productId.toNat).weight.toNat * offer.count.toNat ↔
      (w.items.type offer.productId.toNat).weight.toNat * offer.count.toNat < 2 ^ 32 := by
  have count : (offer.count.setWidth 32).toNat = offer.count.toNat := by
    rw [BitVec.toNat_setWidth]
    omega
  rw [capNeeded, if_neg unwrapped, BitVec.toNat_mul, count]
  exact ⟨fun same => same ▸ Nat.mod_lt _ (by decide), Nat.mod_eq_of_lt⟩

theorem toInt_price (n : BitVec 32) : n.toInt = n.toNat ↔ n.toNat < 2 ^ 31 := by
  rw [BitVec.toInt_eq_toNat_cond]
  split <;> omega

theorem toInt_neg_price {n : BitVec 32} (small : n.toNat < 2 ^ 31) :
    (-1 * n).toInt = -(n.toNat : Int) := by
  have neg : -1 * n = -n := by
    rw [BitVec.neg_mul]
    exact congrArg _ (BitVec.one_mul n)
  rw [neg, BitVec.toInt_neg, (toInt_price n).mpr small, Int.bmod_def]
  split <;> omega

section Buying

variable {p : PlayerId} {k : Container}

/-- The account after the price was taken. -/
def Account.charge (a : Account) (offer : ItemOffer) : Account :=
  (a.removeCoins offer.price).registerTransaction (-1 * offer.price)

theorem charge_balance (a : Account) (offer : ItemOffer) :
    (a.charge offer).balance = a.balance - offer.price.toInt := by
  simp only [Account.charge, Account.balance, Account.removeCoins, Account.registerTransaction,
    List.sum_append, List.sum_cons, List.sum_nil]
  omega

/-- A purchase that asks in vain changes nothing, and is fair unless a number wrapped. -/
theorem fair_refused (game : Game) (hg : game = g) :
    Fair g p a offer (game, a) ↔
      (offer.price ≤ a.getCoinBalance → ∀ inbox k, storeInbox g.world p = some (inbox, k) →
        k.size ≤ k.capacity ∧
          (offer.type ≠ .wrapItem → (g.world.items.type offer.productId.toNat).weight.toNat *
            offer.count.toNat < 2 ^ 32)) := by
  subst hg
  constructor
  · intro fair paid inbox k box
    exact ⟨(freeSlots_iff k).mp (fair.unwrapped.slots inbox k paid box),
      fun unwrapped => (capNeeded_iff _ offer unwrapped).mp
        (fair.unwrapped.cap _ paid box unwrapped)⟩
  · intro fits
    refine ⟨by simp, fun _ => rfl, by simp, ?_, ?_, .inl rfl⟩
    · exact fun inbox k paid box => (freeSlots_iff k).mpr (fits paid inbox k box).1
    · exact fun b paid box unwrapped =>
        (capNeeded_iff _ offer unwrapped).mpr ((fits paid b.1 b.2 box).2 unwrapped)

/-- Where a pack is refused what is registered is the price more than what is deducted. -/
theorem unfair_refuse (q : Nat) (r : Game × Account)
    (account : r.2 = (a.charge offer).refuse offer q) : ¬Fair g p a offer r := by
  intro fair
  have pos := Coins.toNat_ne_zero.mpr offer.price_ne
  have tasks : r.2.tasks =
      a.tasks ++ [-offer.price.toInt, (refund offer q).toInt] := by
    rw [account]
    simp [Account.refuse, Account.charge, Account.addCoins, Account.removeCoins,
      Account.registerTransaction]
  have coins : r.2.coins = a.coins := by rw [account]; rfl
  have registered := fair.registered
  rcases fair.unwrapped.amounts with same | ⟨short, -⟩ | ⟨q', full, history⟩
  · have lengths := congrArg (List.length ∘ Account.tasks) same
    simp [tasks] at lengths
  · rw [tasks] at short
    have lengths := congrArg List.length short
    simp at lengths
  · rw [Account.balance, Account.balance, coins, full, history] at registered
    simp only [List.sum_append, List.sum_cons, List.sum_nil] at registered
    omega

/-- Where all packs are let in, it is fair if the price has a sign, the coins are there and
all packs are in the inbox. -/
theorem fair_delivered {inbox : ItemRef} {r : Game × Account}
    (paid : offer.price ≤ a.getCoinBalance) (box : storeInbox g.world p = some (inbox, k))
    (run : Delivered g (a.charge offer) inbox offer name offer.count.toNat r) :
    Fair g p a offer r ↔ k.size ≤ k.capacity ∧
      (offer.type ≠ .wrapItem → (g.world.items.type offer.productId.toNat).weight.toNat *
        offer.count.toNat < 2 ^ 32) ∧
      offer.price.toNat < 2 ^ 31 ∧ (offer.price.toNat : Int) ≤ a.balance ∧
        Taken g inbox offer name offer.count.toNat := by
  have pos := Coins.toNat_ne_zero.mpr offer.price_ne
  have count := Coins.toNat_ne_zero.mpr offer.count_ne
  have account := run.account
  have balance : r.2.balance = a.balance - offer.price.toInt := by rw [account, charge_balance]
  have after : stored r.1.world (storeInbox g.world p) offer =
      productUnits r.1.world inbox offer := by rw [box]; rfl
  have before : stored g.world (storeInbox g.world p) offer =
      productUnits g.world inbox offer := by rw [box]; rfl
  have tasks : r.2.tasks = a.tasks ++ [-offer.price.toInt] := by rw [account]; rfl
  have history : r.2.history = a.history ++ [(-1 * offer.price).toInt] := by rw [account]; rfl
  rw [← run.whole]
  constructor
  · intro fair
    have price : offer.price.toInt = offer.price.toNat := by
      rcases fair.unwrapped.amounts with same | ⟨one, -⟩ | ⟨q, two, -⟩
      · have lengths := congrArg (List.length ∘ Account.tasks) same
        simp [tasks] at lengths
      · rw [tasks, List.append_cancel_left_eq, List.cons.injEq] at one
        omega
      · rw [tasks] at two
        have lengths := congrArg List.length two
        simp at lengths
    have charged := fair.charged
    have enough := fair.enough
    rw [balance, price, after, before, sub_sub_cancel] at charged
    rw [after, before] at enough
    have whole := Int.eq_of_mul_eq_mul_left (by omega) charged
    obtain ⟨slots, cap⟩ := fair.unwrapped
    refine ⟨(freeSlots_iff k).mp (slots inbox k paid box), fun unwrapped =>
      (capNeeded_iff _ offer unwrapped).mp (cap _ paid box unwrapped),
      (toInt_price _).mp price, ?_, by omega⟩
    by_contra short
    have none := enough (by omega)
    omega
  · rintro ⟨slots, cap, small, there, whole⟩
    have price := (toInt_price offer.price).mpr small
    refine ⟨?_, ?_, ?_, ?_, ?_, .inr (.inl ⟨by rw [tasks, price], ?_⟩)⟩
    · rw [balance, price, after, before, whole]
      push_cast
      ring
    · omega
    · rw [balance, price, history, toInt_neg_price small, List.sum_append, List.sum_singleton]
      omega
    · intro inbox' k' _ box'
      rw [box] at box'
      obtain ⟨-, rfl⟩ := Prod.mk.inj (Option.some.inj box')
      exact (freeSlots_iff _).mpr slots
    · exact fun b _ _ unwrapped => (capNeeded_iff _ offer unwrapped).mpr (cap unwrapped)
    · rw [history, toInt_neg_price small]

end Buying

namespace Sample

open TibServer.Sample

theorem inbox_lt : 8 < 2 ^ 32 := by decide

def shop : Game :=
  game (world
    [{ id := 3, parent := some (.player 0),
       cls := .container { maxSize := 8, maxSize_lt := inbox_lt,
                           rewards_paginated := bag_paginated } }]
    {} fun slot => if slot = 11 then some 0 else none)

theorem shop_sound : shop.Sound where
  wellFormed := world_wellFormed (by decide) (by decide)
  typed := world_typed (by decide) (by simp) (by simp [Tile.topItems]) (by simp [Tile.downItems])
    (by simp)

def hundred : Account := { coins := 100 }

def statue : ItemOffer where
  type := .item
  price := 10
  productId := 5
  count := 1
  price_ne := by decide
  count_ne := by decide

end Sample

end TibServer.Store
