import TibServer.Move

/-!
Money (`item.cpp`, `game.cpp`): what coins are worth, and `addMoney`, which
makes stacks of crystal, platinum and gold coins of an amount and adds them one
after the other. The amount has 64 bits, the crystal coins are counted in 32 and
the platinum coins in 16, and a stack counts eight.
-/

namespace TibServer

def ITEM_GOLD_COIN : Nat := 2148
def ITEM_PLATINUM_COIN : Nat := 2152
def ITEM_CRYSTAL_COIN : Nat := 2160

/-- What one coin of a type is worth. -/
def coinWorth (id : Nat) : Nat :=
  if id = ITEM_GOLD_COIN then 1
  else if id = ITEM_PLATINUM_COIN then 100
  else if id = ITEM_CRYSTAL_COIN then 10000
  else 0

@[simp] theorem coinWorth_gold : coinWorth ITEM_GOLD_COIN = 1 := rfl
@[simp] theorem coinWorth_platinum : coinWorth ITEM_PLATINUM_COIN = 100 := rfl
@[simp] theorem coinWorth_crystal : coinWorth ITEM_CRYSTAL_COIN = 10000 := rfl

/-- `Item::getWorth`. -/
def Item.getWorth (i : Item) : Nat := i.count.toNat * coinWorth i.id

namespace Game

/-! ### `addMoney` -/

/-- A new stack of coins is added to the cylinder or, where that fails, to its
tile. Nobody asks what the second call returns. -/
def addCoins (g : Game) (cylinder : Cylinder) (flags : Flags) (type count : Nat) : Game :=
  match g.world.createItem type count with
  | none => g
  | some coins =>
      let remaindItem := g.world.next
      let g := g.setWorld (g.world.allocate coins)
      let r := g.internalAddItem cylinder remaindItem INDEX_WHEREEVER flags
      if r.ret ≠ .noError then
        match r.game.world.tileOf cylinder with
        | none => r.game
        | some pos =>
            (r.game.internalAddItem (.tile pos) remaindItem INDEX_WHEREEVER
              { noLimit := true }).game
      else r.game

/-- The crystal coins of one round of the loop. -/
def crystalStack (crystalCoins : Nat) : Nat := min 100 crystalCoins

/-- `while (crystalCoins > 0)`. -/
def addCrystals (g : Game) (cylinder : Cylinder) (flags : Flags) (crystalCoins : Nat) : Game :=
  if crystalCoins > 0 then
    let count := crystalStack crystalCoins
    addCrystals (g.addCoins cylinder flags ITEM_CRYSTAL_COIN count) cylinder flags
      (crystalCoins - count)
  else g
termination_by crystalCoins
decreasing_by
  simp only [crystalStack]
  omega

/-! ### Splitting the amount -/

/-- `uint32_t crystalCoins = money / 10000`. -/
def crystalCoins (money : BitVec 64) : BitVec 32 := (money / 10000).setWidth 32

/-- `money -= crystalCoins * 10000`; the product has 32 bits. -/
def afterCrystals (money : BitVec 64) : BitVec 64 :=
  money - (crystalCoins money * 10000).setWidth 64

/-- `uint16_t platinumCoins = money / 100`. -/
def platinumCoins (money : BitVec 64) : BitVec 16 := (afterCrystals money / 100).setWidth 16

/-- `money -= platinumCoins * 100`. -/
def afterPlatinum (money : BitVec 64) : BitVec 64 :=
  afterCrystals money - (platinumCoins money).setWidth 64 * 100

/-- What `CreateItem` takes for the gold coins, a `uint16_t`. -/
def goldCoins (money : BitVec 64) : BitVec 16 := (afterPlatinum money).setWidth 16

/-- `Game::addMoney`. -/
def addMoney (g : Game) (cylinder : Cylinder) (money : BitVec 64) (flags : Flags := {}) : Game :=
  if money = 0 then g
  else
    let g := g.addCrystals cylinder flags (crystalCoins money).toNat
    let g :=
      if platinumCoins money ≠ 0 then
        g.addCoins cylinder flags ITEM_PLATINUM_COIN (platinumCoins money).toNat
      else g
    if afterPlatinum money ≠ 0 then
      g.addCoins cylinder flags ITEM_GOLD_COIN (goldCoins money).toNat
    else g

end Game

/-! ### The stacks that are made -/

/-- A stack that is asked for: the type of its coins and how many. -/
structure Coins where
  type : Nat
  count : Nat
  deriving DecidableEq, Repr

namespace Coins

open Game

/-- The count of the item `CreateItem` makes, in eight bits; none asked for is one. -/
def created (s : Coins) : Nat := (if s.count = 0 then 1 else s.count) % 256

def worth (s : Coins) : Nat := s.created * coinWorth s.type

/-- The rounds of the loop over the crystal coins. -/
def crystals (crystalCoins : Nat) : List Coins :=
  if crystalCoins > 0 then
    let count := crystalStack crystalCoins
    ⟨ITEM_CRYSTAL_COIN, count⟩ :: crystals (crystalCoins - count)
  else []
termination_by crystalCoins
decreasing_by
  simp only [crystalStack]
  omega

/-- The loop over the crystal coins comes to its end. -/
theorem crystals_end (n : Nat) : ∃ rounds, (fun n => n - crystalStack n)^[rounds] n = 0 := by
  induction n using Nat.strong_induction_on with
  | _ n ih =>
      by_cases left : n > 0
      · obtain ⟨rounds, rest⟩ := ih (n - crystalStack n) (by simp only [crystalStack]; omega)
        exact ⟨rounds + 1, rest⟩
      · exact ⟨0, Nat.eq_zero_of_not_pos left⟩

/-- The platinum and gold coins that are asked for. -/
def change (money : BitVec 64) : List Coins :=
  (if platinumCoins money ≠ 0 then [⟨ITEM_PLATINUM_COIN, (platinumCoins money).toNat⟩] else []) ++
    if afterPlatinum money ≠ 0 then [⟨ITEM_GOLD_COIN, (goldCoins money).toNat⟩] else []

/-- All stacks of an amount, in the order they are made. -/
def ofMoney (money : BitVec 64) : List Coins :=
  if money = 0 then [] else crystals (crystalCoins money).toNat ++ change money

/-- A stack is made and added. -/
def addTo (cylinder : Cylinder) (flags : Flags) (g : Game) (s : Coins) : Game :=
  g.addCoins cylinder flags s.type s.count

theorem addCrystals_eq (g : Game) (cylinder : Cylinder) (flags : Flags) (n : Nat) :
    g.addCrystals cylinder flags n = (crystals n).foldl (addTo cylinder flags) g := by
  induction n using Nat.strong_induction_on generalizing g with
  | _ n ih =>
      rw [addCrystals, crystals]
      by_cases left : n > 0
      · have fewer : n - crystalStack n < n := by
          simp only [crystalStack]
          omega
        simp only [if_pos left, List.foldl_cons]
        exact ih _ fewer _
      · simp only [if_neg left, List.foldl_nil]

/-- `addMoney` adds the stacks of the amount, one after the other. -/
theorem addMoney_eq (g : Game) (cylinder : Cylinder) (money : BitVec 64) (flags : Flags) :
    g.addMoney cylinder money flags = (ofMoney money).foldl (addTo cylinder flags) g := by
  unfold addMoney ofMoney
  split
  · rfl
  · simp only [change, List.foldl_append, ← addCrystals_eq]
    split <;> split <;> rfl

/-! ### What they are worth -/

/-- The crystal coins are all there, in stacks of at most a hundred. -/
theorem crystals_spec (n : Nat) :
    (∀ s ∈ crystals n, 1 ≤ s.created ∧ s.created ≤ 100) ∧
      ((crystals n).map worth).sum = n * 10000 := by
  induction n using Nat.strong_induction_on with
  | _ n ih =>
      rw [crystals]
      by_cases left : n > 0
      · have count : (⟨ITEM_CRYSTAL_COIN, min 100 n⟩ : Coins).created = min 100 n := by
          simp only [created]
          split_ifs <;> omega
        obtain ⟨each, sum⟩ := ih (n - min 100 n) (by omega)
        simp only [if_pos left, crystalStack, List.mem_cons, forall_eq_or_imp, List.map_cons,
          List.sum_cons, sum, worth, count, coinWorth_crystal]
        exact ⟨⟨by omega, each⟩, by omega⟩
      · have none : n = 0 := by omega
        simp [none]

/-- The numbers `addMoney` computes from an amount `M`: the crystal coins `c`, how
often their worth `c * 10000` runs over 32 bits, what is left for the other coins,
the platinum coins, what is left of that, and its lowest 16 bits. -/
structure Split (M c k A P B G : Nat) : Prop where
  crystal : c = M / 10000
  carry : k = c * 10000 / 2 ^ 32
  afterCrystals : A = M - c * 10000 % 2 ^ 32
  platinum : P = A / 100 % 65536
  afterPlatinum : B = A - P * 100
  gold : G = B % 65536

theorem ofMoney_split (money : BitVec 64) :
    Split money.toNat (money.toNat / 10000) (money.toNat / 10000 * 10000 / 2 ^ 32)
        (afterCrystals money).toNat (platinumCoins money).toNat (afterPlatinum money).toNat
        (goldCoins money).toNat ∧
      (crystalCoins money).toNat = money.toNat / 10000 % 2 ^ 32 := by
  have crystal : (crystalCoins money).toNat = money.toNat / 10000 % 2 ^ 32 := by
    simp [crystalCoins]
  have product : (crystalCoins money * 10000).toNat = money.toNat / 10000 * 10000 % 2 ^ 32 := by
    rw [BitVec.toNat_mul, crystal]
    simp
  have crystals_le : (BitVec.setWidth 64 (crystalCoins money * 10000)).toNat ≤ money.toNat := by
    have small := Nat.mod_le (money.toNat / 10000 * 10000) (2 ^ 32)
    rw [BitVec.toNat_setWidth, product]
    exact (Nat.mod_le _ _).trans (by omega)
  have left : (afterCrystals money).toNat =
      money.toNat - money.toNat / 10000 * 10000 % 2 ^ 32 := by
    rw [afterCrystals, BitVec.toNat_sub_of_le (BitVec.le_def.mpr crystals_le),
      BitVec.toNat_setWidth, product]
    omega
  have platinum : (platinumCoins money).toNat = (afterCrystals money).toNat / 100 % 65536 := by
    simp [platinumCoins]
  have worth : ((platinumCoins money).setWidth 64 * 100).toNat = (platinumCoins money).toNat * 100 := by
    have hundred : (100 : BitVec 64).toNat = 100 := rfl
    rw [BitVec.toNat_mul, BitVec.toNat_setWidth, platinum, hundred]
    omega
  have rest : (afterPlatinum money).toNat =
      (afterCrystals money).toNat - (platinumCoins money).toNat * 100 := by
    rw [afterPlatinum, BitVec.toNat_sub_of_le ?_, worth]
    rw [BitVec.le_def, worth]
    omega
  exact ⟨⟨rfl, rfl, left, platinum, rest, by simp [goldCoins]⟩, crystal⟩

/-- The stacks count 1 to 100 each, and the amount is what they are worth. -/
structure Exact (money : BitVec 64) : Prop where
  each : ∀ s ∈ ofMoney money, 1 ≤ s.created ∧ s.created ≤ 100
  sum : ((ofMoney money).map worth).sum = money.toNat

/-- The same of the numbers. -/
def Right (M c P B G : Nat) : Prop :=
  (P ≠ 0 → 1 ≤ P % 256 ∧ P % 256 ≤ 100) ∧
    (B ≠ 0 → 1 ≤ (if G = 0 then 1 else G) % 256 ∧ (if G = 0 then 1 else G) % 256 ≤ 100) ∧
    c % 2 ^ 32 * 10000 + ((if P ≠ 0 then P % 256 * 100 else 0) +
      if B ≠ 0 then (if G = 0 then 1 else G) % 256 else 0) = M

theorem toNat_ne_zero {n : Nat} {x : BitVec n} : x.toNat ≠ 0 ↔ x ≠ 0 := by
  rw [ne_eq, ne_eq, ← BitVec.toNat_inj]
  rfl

/-- The platinum and the gold coins, each at most one stack. -/
theorem change_spec (money : BitVec 64) :
    ((∀ s ∈ change money, 1 ≤ s.created ∧ s.created ≤ 100) ↔
      ((platinumCoins money).toNat ≠ 0 → 1 ≤ (platinumCoins money).toNat % 256 ∧
          (platinumCoins money).toNat % 256 ≤ 100) ∧
        ((afterPlatinum money).toNat ≠ 0 →
          1 ≤ (if (goldCoins money).toNat = 0 then 1 else (goldCoins money).toNat) % 256 ∧
          (if (goldCoins money).toNat = 0 then 1 else (goldCoins money).toNat) % 256 ≤ 100)) ∧
    ((change money).map worth).sum =
      (if (platinumCoins money).toNat ≠ 0 then (platinumCoins money).toNat % 256 * 100 else 0) +
        if (afterPlatinum money).toNat ≠ 0 then
          (if (goldCoins money).toNat = 0 then 1 else (goldCoins money).toNat) % 256
        else 0 := by
  have created_platinum (h : (platinumCoins money).toNat ≠ 0) :
      (⟨ITEM_PLATINUM_COIN, (platinumCoins money).toNat⟩ : Coins).created =
        (platinumCoins money).toNat % 256 := by
    rw [created, if_neg h]
  have created_gold : (⟨ITEM_GOLD_COIN, (goldCoins money).toNat⟩ : Coins).created =
      (if (goldCoins money).toNat = 0 then 1 else (goldCoins money).toNat) % 256 := rfl
  simp only [change, toNat_ne_zero.symm]
  by_cases platinum : (platinumCoins money).toNat = 0
  · by_cases gold : (afterPlatinum money).toNat = 0
    · simp [platinum, gold]
    · simp [platinum, gold, worth, created_gold]
  · by_cases gold : (afterPlatinum money).toNat = 0
    · simp [platinum, gold, worth, created_platinum platinum]
    · simp [platinum, gold, worth, created_platinum platinum, created_gold]

theorem exact_iff_right (money : BitVec 64) :
    Exact money ↔ Right money.toNat (money.toNat / 10000) (platinumCoins money).toNat
      (afterPlatinum money).toNat (goldCoins money).toNat := by
  have crystal := (ofMoney_split money).2
  obtain ⟨each, sum⟩ := crystals_spec (crystalCoins money).toNat
  obtain ⟨changeEach, changeSum⟩ := change_spec money
  have all : ofMoney money = crystals (crystalCoins money).toNat ++ change money := by
    by_cases none : money = 0
    · subst none
      simp [ofMoney, change, crystalCoins, platinumCoins, afterPlatinum, afterCrystals, crystals]
    · rw [ofMoney, if_neg none]
  constructor
  · rintro ⟨every, total⟩
    rw [all] at every total
    rw [List.map_append, List.sum_append, sum, changeSum, crystal] at total
    obtain ⟨platinum, gold⟩ := changeEach.mp fun s hs => every s (List.mem_append_right _ hs)
    exact ⟨platinum, gold, total⟩
  · rintro ⟨platinum, gold, total⟩
    have rest := changeEach.mpr ⟨platinum, gold⟩
    refine ⟨fun s hs => ?_, ?_⟩
    · rw [all, List.mem_append] at hs
      exact hs.elim (each s) (rest s)
    · rw [all, List.map_append, List.sum_append, sum, changeSum, crystal]
      exact total

section Numbers

variable {M c k A P B G : Nat}

/-- Where the product of 32 bits does not run over, the numbers are the digits. -/
theorem Split.right_plain (h : Split M c k A P B G) (zero : k = 0) : Right M c P B G := by
  obtain ⟨crystal, carry, afterCrystals, platinum, afterPlatinum, gold⟩ := h
  have A_eq : A = M % 10000 := by omega
  have P_eq : P = M % 10000 / 100 := by omega
  have B_eq : B = M % 100 := by omega
  have G_eq : G = M % 100 := by omega
  have c_lt : c % 2 ^ 32 = c := by omega
  have sum : c * 10000 + (P * 100 + B) = M := by omega
  clear crystal carry afterCrystals platinum afterPlatinum gold A_eq
  rw [Right, c_lt]
  split_ifs <;> omega

/-- A multiple of `25 * 2 ^ 32` is not seen in the platinum coins, nor in the gold
coins unless there are none. -/
theorem Split.right_whole (h : Split M c k A P B G) (small : c < 2 ^ 32) (pos : k ≠ 0)
    (whole : k % 25 = 0) : Right M c P B G ↔ M % 100 ≠ 0 := by
  obtain ⟨crystal, carry, afterCrystals, platinum, afterPlatinum, gold⟩ := h
  have A_eq : A = k / 25 * (25 * 2 ^ 32) + M % 10000 := by omega
  clear afterCrystals
  have P_eq : P = M % 10000 / 100 := by omega
  clear platinum
  have B_eq : B = k / 25 * (25 * 2 ^ 32) + M % 100 := by omega
  have B_pos : B ≠ 0 := by omega
  have G_eq : G = M % 100 := by omega
  clear afterPlatinum gold A_eq B_eq
  have c_lt : c % 2 ^ 32 = c := by omega
  have P_lt : P % 256 = P := by omega
  have sum : c * 10000 + (P * 100 + G) = M := by omega
  rw [Right, c_lt, P_lt]
  clear small c_lt carry
  split_ifs <;> omega

/-- Any other multiple of `2 ^ 32` gives a wrong number of platinum coins, too many or
too few for the gold coins to make up for it. -/
theorem platinum_off {a b r : Nat} (pos : 0 < b) (small : b < 25) (_ : r < 10000)
    (A_eq : A = a * (25 * 2 ^ 32) + b * 2 ^ 32 + r) (P_eq : P = A / 100 % 256) (gold : 0 < G)
    (hundred : G ≤ 100) : P * 100 + G ≠ r := by
  have quotient : A / 100 = a * 1073741824 + (b * 4294967296 + r) / 100 := by omega
  clear A_eq
  interval_cases b <;> omega

theorem Split.right_carry (h : Split M c k A P B G) (small : c < 2 ^ 32) (part : k % 25 ≠ 0) :
    ¬Right M c P B G := by
  rintro ⟨-, gold, sum⟩
  have A_eq : A = k / 25 * (25 * 2 ^ 32) + k % 25 * 2 ^ 32 + M % 10000 := by
    have := h.afterCrystals
    have := h.carry
    have := h.crystal
    omega
  have B_pos : B ≠ 0 := by
    have := h.afterPlatinum
    have := h.platinum
    omega
  have stack := gold B_pos
  rw [if_pos B_pos] at sum
  generalize (if G = 0 then 1 else G) % 256 = gold at stack sum
  have platinum : (if P ≠ 0 then P % 256 * 100 else 0) = P % 256 * 100 := by
    split_ifs <;> omega
  rw [platinum, Nat.mod_eq_of_lt small] at sum
  have remainder := h.platinum
  refine platinum_off (Nat.pos_of_ne_zero part) (Nat.mod_lt _ (by decide))
    (Nat.mod_lt M (by decide)) A_eq (P := P % 256) (by omega) stack.1 stack.2 ?_
  have crystal := h.crystal
  omega

/-- More crystal coins than 32 bits count are gone. -/
theorem Split.right_large (h : Split M c k A P B G) (large : 2 ^ 32 ≤ c) : ¬Right M c P B G := by
  rintro ⟨platinum, gold, sum⟩
  have crystal := h.crystal
  clear h
  split_ifs at sum <;> omega

theorem Split.right_iff (h : Split M c k A P B G) :
    Right M c P B G ↔ c < 2 ^ 32 ∧ (k = 0 ∨ k % 25 = 0 ∧ M % 100 ≠ 0) := by
  by_cases small : c < 2 ^ 32
  · by_cases zero : k = 0
    · exact iff_of_true (h.right_plain zero) ⟨small, .inl zero⟩
    · by_cases whole : k % 25 = 0
      · rw [h.right_whole small zero whole]
        exact ⟨fun odd => ⟨small, .inr ⟨whole, odd⟩⟩, fun fits => (fits.2.resolve_left zero).2⟩
      · exact iff_of_false (h.right_carry small whole) (by simp [zero, whole])
  · exact iff_of_false (h.right_large (not_lt.mp small)) fun fits => small fits.1

end Numbers

/-- The crystal coins fit in 32 bits, and so does what they are worth or it makes no
difference. -/
def Splits (money : BitVec 64) : Prop :=
  money.toNat / 10000 < 2 ^ 32 ∧
    (money.toNat / 10000 * 10000 / 2 ^ 32 = 0 ∨
      money.toNat / 10000 * 10000 / 2 ^ 32 % 25 = 0 ∧ money.toNat % 100 ≠ 0)

theorem exact_iff_splits (money : BitVec 64) : Exact money ↔ Splits money :=
  (exact_iff_right money).trans (ofMoney_split money).1.right_iff

end Coins

end TibServer
