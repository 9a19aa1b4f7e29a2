import Mathlib.Tactic
import TibServer.Bonuses

/-!
The handlers of equipment events. An item that is put on may turn into another, whose own event
puts it on; an item that is taken off may turn back, wherever it lies by then. What such a chain of
events does to a slot that gave nothing is that the slot gives what it gives by now.
-/

namespace TibServer.Equipment

open Relation

variable {table : Table} {p p' : Player} {b : slots_t → Bonus} {slot : slots_t} {bonus : Bonus}
  {health mana : Int} {id newId : Nat}

/-! ### Item types that turn into others -/

/-- What a transformation makes of an item in a slot. -/
inductive Turned
  | same
  | lost
  | into (id : Nat)

def Table.turned (table : Table) (recount : Bool) (id newId : Nat) : Turned :=
  if id = newId ∧ recount = false then .same
  else if !table.canTransform id then .same
  else if (table.items newId).id = 0 then .same
  else if (table.items id).alwaysOnTop != (table.items newId).alwaysOnTop then .lost
  else if (table.items id).type = (table.items newId).type then .into newId
  else
    match table.CreateItem newId with
    | none => .same
    | some created => .into created

/-- Items of this id are put on in the slot by those who meet an event that `allows` accepts. -/
def Table.PutsOn (table : Table) (allows : MoveEvent → Prop) (slot : slots_t) (id : Nat) : Prop :=
  ∃ moveEvent, table.getEvent id .EQUIP slot = some moveEvent ∧
    moveEvent.equipFunction = .EquipItem ∧ allows moveEvent

def Table.TakesOff (table : Table) (slot : slots_t) (id : Nat) : Prop :=
  ∃ moveEvent, table.getEvent id .DEEQUIP slot = some moveEvent ∧
    moveEvent.equipFunction = .DeEquipItem

/-- The types that an item runs through while it is put on. -/
def Table.Reach (table : Table) (allows : MoveEvent → Prop) (slot : slots_t) : Nat → Nat → Prop :=
  ReflTransGen fun id id' => table.PutsOn allows slot id ∧ (table.items id).transformEquipTo ≠ 0 ∧
    table.turned false id (table.items id).transformEquipTo = .into id'

/-- Where the transformation puts another object into the slot, the old one, whose event comes
last, does not take off what the new one has put on. -/
def Table.WellTurned (table : Table) (allows : MoveEvent → Prop) (slot : slots_t)
    (id newId : Nat) : Prop :=
  (table.items id).type ≠ (table.items newId).type → table.TakesOff slot id →
    ∀ created, table.CreateItem newId = some created → ¬ table.PutsOn allows slot created

/-- A type that turns into another when it is put on has no bonus of its own. -/
def Table.WellMade (table : Table) (allows : MoveEvent → Prop) (base : Base) (slot : slots_t)
    (id : Nat) : Prop :=
  ∀ id', table.Reach allows slot id id' → table.PutsOn allows slot id' →
    (table.items id').transformEquipTo ≠ 0 →
      table.bonus base id' = {} ∧
        table.WellTurned allows slot id' (table.items id').transformEquipTo

/-- The two functions are registered for the events that they are made for. -/
structure Matched (table : Table) : Prop where
  equip : ∀ id slot moveEvent, table.getEvent id .EQUIP slot = some moveEvent →
    moveEvent.equipFunction ≠ .DeEquipItem
  deEquip : ∀ id slot moveEvent, table.getEvent id .DEEQUIP slot = some moveEvent →
    moveEvent.equipFunction ≠ .EquipItem

/-! ### Events that change nothing -/

variable {allows : MoveEvent → Prop} {item item' : Thing} {calls : Nat} {fired : Fired}
  {recount : Bool}

theorem fireEquip_deEquip_off (matched : Matched table)
    (hoff : p.inventoryAbilities slot = false)
    (h : fireEquip table false calls .DEEQUIP item slot p = some fired) : fired = ⟨1, item, p⟩ := by
  cases calls with
  | zero => cases h
  | succ calls =>
      simp only [fireEquip] at h
      split at h
      · exact (Option.some.inj h).symm
      · next moveEvent hevent =>
          split at h
          · exact (Option.some.inj h).symm
          · next hfunction => exact absurd hfunction (matched.deEquip _ _ _ hevent)
          · rw [DeEquipItem, hoff] at h
            exact (Option.some.inj h).symm

theorem fireEquip_deEquip_idle (matched : Matched table)
    (hidle : ¬ table.TakesOff slot (p.getID item))
    (h : fireEquip table false calls .DEEQUIP item slot p = some fired) : fired = ⟨1, item, p⟩ := by
  cases calls with
  | zero => cases h
  | succ calls =>
      simp only [fireEquip] at h
      split at h
      · exact (Option.some.inj h).symm
      · next moveEvent hevent =>
          split at h
          · exact (Option.some.inj h).symm
          · next hfunction => exact absurd hfunction (matched.deEquip _ _ _ hevent)
          · next hfunction => exact absurd ⟨moveEvent, hevent, hfunction⟩ hidle

theorem fireEquip_equip_on (matched : Matched table) {isCheck : Bool}
    (hon : p.inventoryAbilities slot = true)
    (h : fireEquip table isCheck calls .EQUIP item slot p = some fired) :
    fired = ⟨1, item, p⟩ := by
  cases calls with
  | zero => cases h
  | succ calls =>
      simp only [fireEquip] at h
      split at h
      · exact (Option.some.inj h).symm
      · next moveEvent hevent =>
          split at h
          · exact (Option.some.inj h).symm
          · rw [EquipItem, if_pos hon] at h
            exact (Option.some.inj h).symm
          · next hfunction => exact absurd hfunction (matched.equip _ _ _ hevent)

theorem fireEquip_equip_idle (matched : Matched table)
    (hallows : ∀ moveEvent : MoveEvent, moveEvent.isMetBy p = true → allows moveEvent)
    (hidle : ¬ table.PutsOn allows slot (p.getID item))
    (h : fireEquip table false calls .EQUIP item slot p = some fired) :
    fired.item = item ∧ fired.player = p := by
  cases calls with
  | zero => cases h
  | succ calls =>
      simp only [fireEquip] at h
      split at h
      · cases h
        exact ⟨rfl, rfl⟩
      · next moveEvent hevent =>
          split at h
          · cases h
            exact ⟨rfl, rfl⟩
          · next hfunction =>
              have hunmet : ¬ moveEvent.isMetBy p = true := fun hmet =>
                hidle ⟨moveEvent, hevent, hfunction, hallows moveEvent hmet⟩
              simp only [EquipItem, hunmet] at h
              split at h
              · cases h
                exact ⟨rfl, rfl⟩
              · cases h
                exact ⟨rfl, rfl⟩
          · next hfunction => exact absurd hfunction (matched.equip _ _ _ hevent)

/-- `queryAdd` only asks. -/
theorem fireEquip_check (matched : Matched table)
    (h : fireEquip table true calls .EQUIP item slot p = some fired) : fired.player = p := by
  cases calls with
  | zero => cases h
  | succ calls =>
      simp only [fireEquip] at h
      split at h
      · cases h
        rfl
      · next moveEvent hevent =>
          split at h
          · cases h
            rfl
          · simp only [EquipItem, if_true] at h
            split at h
            · cases h
              rfl
            · split at h
              · cases h
                rfl
              · cases h
                rfl
          · next hfunction => exact absurd hfunction (matched.equip _ _ _ hevent)

/-! ### Putting on -/

/-- What `transformItem` does with an item in a slot, as far as the handlers go. -/
theorem transformItem_cases {fire : Handler} (hid : p.inventory slot = some id)
    (h : transformItem table fire (.inSlot slot) newId recount p = some (item, p')) :
    (table.turned recount id newId = .same ∧ item = .inSlot slot ∧ p' = p) ∨
    (table.turned recount id newId = .lost ∧ item = .elsewhere newId ∧
      ∃ fired, fire .DEEQUIP (.elsewhere id) slot (p.setInventory slot none) = some fired ∧
        p' = fired.player) ∨
    (table.turned recount id newId = .into newId ∧
      (table.items id).type = (table.items newId).type ∧
      ∃ first second, fire .DEEQUIP (.inSlot slot) slot p = some first ∧
        fire .EQUIP first.item slot (match first.item with
          | .inSlot slot =>
              if id ≠ newId then first.player.setInventory slot (some newId) else first.player
          | .elsewhere _ => first.player) = some second ∧
        item = second.item ∧ p' = second.player) ∨
    (∃ created, table.turned recount id newId = .into created ∧
      (table.items id).type ≠ (table.items newId).type ∧ table.CreateItem newId = some created ∧
      item = .elsewhere id ∧
      ∃ first second,
        fire .EQUIP (.inSlot slot) slot (p.setInventory slot (some created)) = some first ∧
        fire .DEEQUIP (.elsewhere id) slot first.player = some second ∧ p' = second.player) := by
  have hgetID : p.getID (.inSlot slot) = id := by simp [Player.getID, hid]
  simp only [transformItem, hgetID, Table.turned] at h ⊢
  split at h
  · next hsame =>
      cases h
      exact Or.inl ⟨if_pos hsame, rfl, rfl⟩
  next hother =>
  rw [if_neg hother]
  split at h
  · next hdoor =>
      cases h
      exact Or.inl ⟨if_pos hdoor, rfl, rfl⟩
  next hdoor =>
  rw [if_neg hdoor]
  split at h
  · next hunknown =>
      cases h
      exact Or.inl ⟨if_pos hunknown, rfl, rfl⟩
  next hknown =>
  rw [if_neg hknown]
  split at h
  · next htop =>
      obtain ⟨fired, hfired, hr⟩ := Option.bind_eq_some_iff.1 h
      cases hr
      exact Or.inr (Or.inl ⟨if_pos htop, rfl, fired, hfired, rfl⟩)
  next htop =>
  rw [if_neg htop]
  split at h
  · next htype =>
      obtain ⟨first, hfirst, hrest⟩ := Option.bind_eq_some_iff.1 h
      obtain ⟨second, hsecond, hr⟩ := Option.bind_eq_some_iff.1 hrest
      cases hr
      exact Or.inr (Or.inr (Or.inl
        ⟨if_pos htype, htype, first, second, hfirst, hsecond, rfl, rfl⟩))
  next htype =>
  rw [if_neg htype]
  split at h
  · next hnone =>
      cases h
      exact Or.inl ⟨by simp only [hnone], rfl, rfl⟩
  · next created hcreated =>
      obtain ⟨first, hfirst, hrest⟩ := Option.bind_eq_some_iff.1 h
      obtain ⟨second, hsecond, hr⟩ := Option.bind_eq_some_iff.1 hrest
      cases hr
      exact Or.inr (Or.inr (Or.inr
        ⟨created, by simp only [hcreated], htype, hcreated, rfl, first, second, hfirst, hsecond, rfl⟩))


/-- The end of `EquipItem`, in terms of the bonus. -/
theorem addAbilities_some (table : Table) (p : Player) (slot : slots_t) (item : Thing) (id : Nat) :
    ∃ health mana, (match (table.items id).abilities with
      | none => some (⟨1, item, p⟩ : Fired)
      | some abilities => some ⟨1, item, p.addAbilities table slot abilities⟩) =
        some ⟨1, item, p.gain slot (table.bonus p.toBase id) health mana⟩ := by
  cases habilities : (table.items id).abilities with
  | none =>
      refine ⟨p.health, p.mana, ?_⟩
      simp only [Table.bonus, habilities, gain_none]
  | some abilities =>
      obtain ⟨health, mana, hgain⟩ := addAbilities_eq table p slot abilities
      exact ⟨health, mana, by simp only [Table.bonus, habilities, hgain]⟩

/-- The end of `DeEquipItem`, in terms of the bonus. -/
theorem removeAbilities_some (table : Table) (p : Player) (slot : slots_t) (item : Thing) (id : Nat) :
    ∃ health mana, (match (table.items id).abilities with
      | none => some (⟨1, item, p⟩ : Fired)
      | some abilities => some ⟨1, item, p.removeAbilities table slot abilities⟩) =
        some ⟨1, item, p.lose slot (table.bonus p.toBase id) health mana⟩ := by
  cases habilities : (table.items id).abilities with
  | none =>
      refine ⟨p.health, p.mana, ?_⟩
      simp only [Table.bonus, habilities, lose_none]
  | some abilities =>
      obtain ⟨health, mana, hlose⟩ := removeAbilities_eq table p slot abilities
      exact ⟨health, mana, by simp only [Table.bonus, habilities, hlose]⟩

/-- What `EquipItem` does with an item in a slot that gives nothing. -/
theorem equipItem_cases {fire : Handler} {moveEvent : MoveEvent} (hid : p.getID item = id)
    (hoff : p.inventoryAbilities slot = false)
    (h : EquipItem table fire moveEvent item slot false p = some fired) :
    (¬ moveEvent.isMetBy p = true ∧ fired = ⟨0, item, p⟩) ∨
    (moveEvent.isMetBy p = true ∧ (table.items id).transformEquipTo = 0 ∧ ∃ health mana,
      fired = ⟨1, item,
        (p.setItemAbility slot true).gain slot (table.bonus p.toBase id) health mana⟩) ∨
    (moveEvent.isMetBy p = true ∧ (table.items id).transformEquipTo ≠ 0 ∧
      ∃ item' p' health mana, transformItem table fire item (table.items id).transformEquipTo false
          p = some (item', p') ∧
        fired = ⟨1, item', p'.gain slot (table.bonus p'.toBase id) health mana⟩) := by
  simp only [EquipItem, hoff, hid] at h
  rw [if_neg Bool.false_ne_true] at h
  split at h
  · next hunmet =>
      rw [Bool.not_eq_true'] at hunmet
      cases h
      exact Or.inl ⟨by rw [hunmet]; exact Bool.false_ne_true, rfl⟩
  next hmet =>
  rw [Bool.not_eq_true', Bool.not_eq_false] at hmet
  rw [if_neg Bool.false_ne_true] at h
  split at h
  · next hinto =>
      obtain ⟨⟨item', p'⟩, htransform, hrest⟩ := Option.bind_eq_some_iff.1 h
      obtain ⟨health, mana, hadd⟩ := addAbilities_some table p' slot item' id
      exact Or.inr (Or.inr ⟨hmet, hinto, item', p', health, mana, htransform,
        Option.some.inj (hrest.symm.trans hadd)⟩)
  · next hstays =>
      obtain ⟨health, mana, hadd⟩ := addAbilities_some table (p.setItemAbility slot true) slot
        item id
      exact Or.inr (Or.inl ⟨hmet, not_not.1 hstays, health, mana,
        Option.some.inj (Eq.trans (Eq.symm h) hadd)⟩)

/-- What `DeEquipItem` does with the item of a slot that is enabled. -/
theorem deEquipItem_cases {fire : Handler} (hid : p.getID item = id)
    (hon : p.inventoryAbilities slot = true)
    (h : DeEquipItem table fire item slot p = some fired) :
    ((table.items id).transformDeEquipTo = 0 ∧ ∃ health mana,
      fired = ⟨1, item,
        (p.setItemAbility slot false).lose slot (table.bonus p.toBase id) health mana⟩) ∨
    ((table.items id).transformDeEquipTo ≠ 0 ∧
      ∃ item' p' health mana, transformItem table fire item (table.items id).transformDeEquipTo
          false (p.setItemAbility slot false) = some (item', p') ∧
        fired = ⟨1, item', p'.lose slot (table.bonus p'.toBase id) health mana⟩) := by
  simp only [DeEquipItem, hon, hid] at h
  rw [if_neg (by decide)] at h
  split at h
  · next hinto =>
      obtain ⟨⟨item', p'⟩, htransform, hrest⟩ := Option.bind_eq_some_iff.1 h
      obtain ⟨health, mana, hremove⟩ := removeAbilities_some table p' slot item' id
      exact Or.inr ⟨hinto, item', p', health, mana, htransform,
        Option.some.inj (hrest.symm.trans hremove)⟩
  · next hstays =>
      obtain ⟨health, mana, hremove⟩ := removeAbilities_some table (p.setItemAbility slot false)
        slot item id
      exact Or.inl ⟨not_not.1 hstays, health, mana,
        Option.some.inj (Eq.trans (Eq.symm h) hremove)⟩

/-- An event in a slot that gave nothing: the slot gives what it gives by now, and nothing else
has changed. -/
structure Put (table : Table) (slot : slots_t) (may : Nat → Prop) (b : slots_t → Bonus)
    (p p' : Player) : Prop where
  base : p'.toBase = p.toBase
  inventory : ∀ other, other ≠ slot → p'.inventory other = p.inventory other
  abilities : ∀ other, other ≠ slot → p'.inventoryAbilities other = p.inventoryAbilities other
  tally : Tally (Function.update b slot (p'.worn table slot)) p'
  filled : p'.inventoryAbilities slot = true → p'.inventory slot ≠ none
  may : ∀ id, p'.inventory slot = some id → may id

variable {may may' : Nat → Prop}

theorem Put.mono (h : Put table slot may b p p') (himp : ∀ id, may id → may' id) :
    Put table slot may' b p p' :=
  { h with may := fun id hid => himp id (h.may id hid) }

theorem Put.of_off (h : Tally b p) (hb : b slot = {}) (hoff : p.inventoryAbilities slot = false)
    (hmay : ∀ id, p.inventory slot = some id → may id) : Put table slot may b p p where
  base := rfl
  inventory _ _ := rfl
  abilities _ _ := rfl
  tally := by rw [worn_of_not_enabled hoff, ← hb, Function.update_eq_self]; exact h
  filled hon := by rw [hoff] at hon; cases hon
  may := hmay

/-- Another item in the slot makes no difference while the slot gives nothing. -/
theorem Tally.setInventory (h : Tally b p) (new : Option Nat) :
    Tally b (p.setInventory slot new) :=
  ⟨h.varSkills, h.varStats, h.varSpeed, h.conditionSuppressions, h.conditions⟩

theorem Tally.setItemAbility (h : Tally b p) (enabled : Bool) :
    Tally b (p.setItemAbility slot enabled) :=
  ⟨h.varSkills, h.varStats, h.varSpeed, h.conditionSuppressions, h.conditions⟩

theorem Put.of_setInventory {new : Option Nat}
    (h : Put table slot may b (p.setInventory slot new) p') : Put table slot may b p p' where
  base := h.base
  inventory other hne := (h.inventory other hne).trans (Function.update_of_ne hne _ _)
  abilities := h.abilities
  tally := h.tally
  filled := h.filled
  may := h.may

/-- What the `EQUIP` event of an item that lies in a slot does, with this many calls. -/
def Handles (table : Table) (allows : MoveEvent → Prop) (calls : Nat) : Prop :=
  ∀ (b : slots_t → Bonus) (p : Player) (slot : slots_t) (id : Nat) (fired : Fired), Tally b p →
    b slot = {} → p.inventoryAbilities slot = false → p.inventory slot = some id →
    (∀ moveEvent : MoveEvent, moveEvent.isMetBy p = true → allows moveEvent) →
    table.WellMade allows p.toBase slot id →
    fireEquip table false calls .EQUIP (.inSlot slot) slot p = some fired →
    Put table slot (table.Reach allows slot id) b p fired.player

theorem setInventory_inventory (new : Option Nat) : (p.setInventory slot new).inventory slot = new :=
  Function.update_self ..

/-- A transformation in a slot that gave nothing. -/
theorem Put.transformItem (matched : Matched table) (hfire : Handles table allows calls)
    (h : Tally b p) (hb : b slot = {}) (hoff : p.inventoryAbilities slot = false)
    (hid : p.inventory slot = some id)
    (hallows : ∀ moveEvent : MoveEvent, moveEvent.isMetBy p = true → allows moveEvent)
    (hmade : ∀ new, table.turned recount id newId = .into new →
      table.WellMade allows p.toBase slot new ∧ table.WellTurned allows slot id newId)
    (hr : transformItem table (fireEquip table false calls) (.inSlot slot) newId recount p =
      some (item, p')) :
    Put table slot (fun id' => (table.turned recount id newId = .same ∧ id' = id) ∨
      ∃ new, table.turned recount id newId = .into new ∧ table.Reach allows slot new id') b p p' := by
  rcases transformItem_cases hid hr with ⟨hsame, -, rfl⟩ | ⟨hlost, -, fired, hfired, rfl⟩ |
    ⟨hinto, htype, first, second, hfirst, hsecond, -, rfl⟩ |
    ⟨created, hinto, htype, hcreated, -, first, second, hfirst, hsecond, rfl⟩
  · refine Put.of_off h hb hoff fun id' hid' => Or.inl ⟨hsame, ?_⟩
    rw [hid] at hid'
    exact (Option.some.inj hid').symm
  · rw [fireEquip_deEquip_off (p := p.setInventory slot none) matched hoff hfired]
    refine Put.of_setInventory (Put.of_off (h.setInventory none) hb hoff fun id' hid' => ?_)
    rw [setInventory_inventory] at hid'
    cases hid'
  · rw [fireEquip_deEquip_off matched hoff hfirst] at hsecond
    dsimp only at hsecond
    have hnew : (if id ≠ newId then p.setInventory slot (some newId) else p) =
        p.setInventory slot (some newId) := by
      split
      · rfl
      · next heq =>
          rw [← not_not.1 heq, ← hid, Player.setInventory, Function.update_eq_self]
    rw [hnew] at hsecond
    have hput := hfire b _ slot newId second (h.setInventory _) hb hoff (setInventory_inventory _)
      hallows (hmade newId hinto).1 hsecond
    exact hput.of_setInventory.mono fun id' hreach => Or.inr ⟨newId, hinto, hreach⟩
  · have hput := hfire b _ slot created first (h.setInventory _) hb hoff (setInventory_inventory _)
      hallows (hmade created hinto).1 hfirst
    -- the event of the old item comes last, and finds nothing to take off
    have hlast : second.player = first.player := by
      by_cases htakes : table.TakesOff slot id
      · have hidle := (hmade created hinto).2 htype htakes created hcreated
        obtain ⟨-, hfirst⟩ := fireEquip_equip_idle
          (p := p.setInventory slot (some created)) matched hallows (by
          rw [Player.getID, setInventory_inventory]
          exact hidle) hfirst
        rw [hfirst] at hsecond ⊢
        rw [fireEquip_deEquip_off (p := p.setInventory slot (some created)) matched hoff hsecond]
      · rw [fireEquip_deEquip_idle matched htakes hsecond]
    rw [hlast]
    exact hput.of_setInventory.mono fun id' hreach => Or.inr ⟨created, hinto, hreach⟩

/-- A bonus of nothing on top. -/
theorem Put.gain_none (h : Put table slot may b p p') :
    Put table slot may b p (p'.gain slot {} health mana) := by
  have htotals : p'.gain slot {} health mana = { p' with health := health, mana := mana } := by
    simp only [Player.gain, SlotConditions.add_none, Function.update_eq_self, Pi.zero_apply,
      add_zero, BitVec.or_zero]
  rw [htotals]
  exact ⟨h.base, h.inventory, h.abilities,
    ⟨h.tally.varSkills, h.tally.varStats, h.tally.varSpeed, h.tally.conditionSuppressions,
      h.tally.conditions⟩, h.filled, h.may⟩

/-- The item that is in the slot is put on as it is. -/
theorem Put.enable (h : Tally b p) (hb : b slot = {}) (hid : p.inventory slot = some id)
    (hmay : may id) :
    Put table slot may b p
      ((p.setItemAbility slot true).gain slot (table.bonus p.toBase id) health mana) where
  base := rfl
  inventory _ _ := rfl
  abilities other hne := Function.update_of_ne hne _ _
  tally := by
    have hworn : ((p.setItemAbility slot true).gain slot (table.bonus p.toBase id) health
        mana).worn table slot = table.bonus p.toBase id :=
      worn_of_enabled (Function.update_self ..) hid
    rw [hworn]
    exact (h.setItemAbility true).gain hb
  filled _ := by
    show p.inventory slot ≠ none
    rw [hid]
    exact Option.some_ne_none id
  may id' hid' := by
    have : p.inventory slot = some id' := hid'
    rw [hid] at this
    exact Option.some.inj this ▸ hmay

theorem fireEquip_puts (matched : Matched table) : ∀ calls, Handles table allows calls := by
  intro calls
  induction calls with
  | zero =>
      intro b p slot id fired _ _ _ _ _ _ hfired
      cases hfired
  | succ calls ih =>
      intro b p slot id fired h hb hoff hid hallows hmade hfired
      have hrefl : Put table slot (table.Reach allows slot id) b p p :=
        Put.of_off h hb hoff fun id' hid' => by
          rw [hid] at hid'
          rw [← Option.some.inj hid']
          exact ReflTransGen.refl
      have hgetID : p.getID (.inSlot slot) = id := by simp [Player.getID, hid]
      simp only [fireEquip, hgetID] at hfired
      split at hfired
      · cases hfired
        exact hrefl
      next moveEvent hevent =>
      split at hfired
      · cases hfired
        exact hrefl
      · next hfunction =>
          rcases equipItem_cases hgetID hoff hfired with ⟨-, rfl⟩ |
            ⟨-, hstays, health, mana, rfl⟩ |
            ⟨hmet, hinto, item', p', health, mana, htransform, rfl⟩
          · exact hrefl
          · exact Put.enable h hb hid ReflTransGen.refl
          · have hputs : table.PutsOn allows slot id :=
              ⟨moveEvent, hevent, hfunction, hallows moveEvent hmet⟩
            obtain ⟨hidle, hturned⟩ := hmade id ReflTransGen.refl hputs hinto
            have hstep : ∀ new, table.turned false id (table.items id).transformEquipTo =
                .into new → ∀ id', table.Reach allows slot new id' →
                  table.Reach allows slot id id' :=
              fun new hnew id' hreach => ReflTransGen.head ⟨hputs, hinto, hnew⟩ hreach
            have hput := Put.transformItem matched ih h hb hoff hid hallows (fun new hnew =>
              ⟨fun id' hreach => hmade id' (hstep new hnew id' hreach), hturned⟩) htransform
            rw [hput.base, hidle]
            refine (hput.mono ?_).gain_none
            rintro id' (⟨-, rfl⟩ | ⟨new, hnew, hreach⟩)
            · exact ReflTransGen.refl
            · exact hstep new hnew id' hreach
      · next hfunction => exact absurd hfunction (matched.equip _ _ _ hevent)

/-! ### Taking off -/

theorem fireEquip_deEquip_on (item : Thing) (htakes : table.TakesOff slot (p.getID item))
    (h : fireEquip table false calls .DEEQUIP item slot p = some fired) :
    ∃ fewer, DeEquipItem table (fireEquip table false fewer) item slot p = some fired := by
  obtain ⟨moveEvent, hevent, hfunction⟩ := htakes
  cases calls with
  | zero => cases h
  | succ calls =>
      simp only [fireEquip, hevent, hfunction] at h
      exact ⟨calls, h⟩

/-- The item has left the slot. -/
theorem deEquip_elsewhere (hon : p.inventoryAbilities slot = true)
    (htakes : table.TakesOff slot id)
    (h : fireEquip table false calls .DEEQUIP (.elsewhere id) slot p = some fired) :
    ∃ health mana, fired.player =
      (p.setItemAbility slot false).lose slot (table.bonus p.toBase id) health mana := by
  obtain ⟨fewer, hfired⟩ := fireEquip_deEquip_on (.elsewhere id) htakes h
  have hgetID : p.getID (.elsewhere id) = id := rfl
  rcases deEquipItem_cases hgetID hon hfired with ⟨-, health, mana, rfl⟩ |
    ⟨-, item', p', health, mana, htransform, rfl⟩
  · exact ⟨health, mana, rfl⟩
  · cases htransform
    exact ⟨health, mana, rfl⟩

/-- A transformation in a slot that is not enabled, into something that is not put on there. -/
theorem transformItem_idle (matched : Matched table) (hid : p.inventory slot = some id)
    (hoff : p.inventoryAbilities slot = false)
    (hidle : ∀ new, table.turned false id newId = .into new →
      ¬ table.PutsOn (fun _ => True) slot new)
    (h : transformItem table (fireEquip table false calls) (.inSlot slot) newId false p =
      some (item, p')) :
    (∃ new, p' = p.setInventory slot new) ∧
      ((table.items id).type = (table.items newId).type →
        (item = .inSlot slot ∧
          (p'.inventory slot = some id ∨ p'.inventory slot = some newId)) ∨
        item = .elsewhere newId) := by
  rcases transformItem_cases hid h with ⟨-, rfl, rfl⟩ | ⟨-, rfl, fired, hfired, rfl⟩ |
    ⟨hinto, htype, first, second, hfirst, hsecond, rfl, rfl⟩ |
    ⟨created, hinto, htype, hcreated, rfl, first, second, hfirst, hsecond, rfl⟩
  · refine ⟨⟨p'.inventory slot, ?_⟩, fun _ => Or.inl ⟨rfl, Or.inl hid⟩⟩
    rw [Player.setInventory, Function.update_eq_self]
  · rw [fireEquip_deEquip_off (p := p.setInventory slot none) matched hoff hfired]
    exact ⟨⟨none, rfl⟩, fun _ => Or.inr rfl⟩
  · rw [fireEquip_deEquip_off matched hoff hfirst] at hsecond
    dsimp only at hsecond
    have hnew : (if id ≠ newId then p.setInventory slot (some newId) else p) =
        p.setInventory slot (some newId) := by
      split
      · rfl
      · next heq =>
          rw [← not_not.1 heq, ← hid, Player.setInventory, Function.update_eq_self]
    rw [hnew] at hsecond
    obtain ⟨hitem, hplayer⟩ := fireEquip_equip_idle (p := p.setInventory slot (some newId)) matched
      (fun _ _ => trivial) (by
        rw [Player.getID, setInventory_inventory]
        exact hidle newId hinto) hsecond
    rw [hitem, hplayer]
    exact ⟨⟨some newId, rfl⟩, fun _ => Or.inl ⟨rfl, Or.inr (setInventory_inventory _)⟩⟩
  · obtain ⟨-, hplayer⟩ := fireEquip_equip_idle (p := p.setInventory slot (some created)) matched
      (fun _ _ => trivial) (by
        rw [Player.getID, setInventory_inventory]
        exact hidle created hinto) hfirst
    rw [hplayer] at hsecond
    rw [fireEquip_deEquip_off (p := p.setInventory slot (some created)) matched hoff hsecond]
    exact ⟨⟨some created, rfl⟩, fun hsame => absurd hsame htype⟩

end TibServer.Equipment
