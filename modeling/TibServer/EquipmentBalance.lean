import Mathlib.Tactic
import TibServer.Equipping

/-!
The balance of a player's equipment over whole runs: the totals are those of the slots whose ability
is enabled, as long as no step takes back a bonus that is another by now, or a suppression that
another item still gives.
-/

namespace TibServer.Equipment

open Relation

variable {table : Table} {p p' : Player} {slot : slots_t} {health mana : Int} {id newId : Nat}
  {may : Nat → Prop} {calls : Nat}

/-! ### The balance -/

/-- The totals are those of the slots, and a slot whose ability is enabled holds an item. -/
structure Balanced (table : Table) (p : Player) : Prop where
  tally : Tally (p.worn table) p
  filled : ∀ slot, p.inventoryAbilities slot = true → p.inventory slot ≠ none

theorem worn_eq_update (p p' : Player) (hbase : p'.toBase = p.toBase)
    (hinventory : ∀ other, other ≠ slot → p'.inventory other = p.inventory other)
    (habilities : ∀ other, other ≠ slot →
      p'.inventoryAbilities other = p.inventoryAbilities other) :
    p'.worn table = Function.update (p.worn table) slot (p'.worn table slot) := by
  ext1 other
  rcases eq_or_ne other slot with rfl | hne
  · rw [Function.update_self]
  · rw [Function.update_of_ne hne]
    simp only [Player.worn, hbase, hinventory other hne, habilities other hne]

theorem Balanced.put (h : Balanced table p) (hput : Put table slot may (p.worn table) p p') :
    Balanced table p' where
  tally := by
    rw [worn_eq_update p p' hput.base hput.inventory hput.abilities]
    exact hput.tally
  filled other hon := by
    rcases eq_or_ne other slot with rfl | hne
    · exact hput.filled hon
    · rw [hput.abilities other hne] at hon
      rw [hput.inventory other hne]
      exact h.filled other hon

theorem Balanced.off (h : Balanced table p) (hempty : p.inventory slot = none) :
    p.inventoryAbilities slot = false := by
  rw [← Bool.not_eq_true]
  exact fun hon => h.filled slot hon hempty

/-- What lies in a slot that is not enabled does not matter. -/
theorem Balanced.setInventory (h : Balanced table p) (hoff : p.inventoryAbilities slot = false)
    (new : Option Nat) : Balanced table (p.setInventory slot new) where
  tally := by
    have hempty : p.worn table slot = {} := worn_of_not_enabled hoff
    have hworn : (p.setInventory slot new).worn table = p.worn table := by
      rw [worn_eq_update p (p.setInventory slot new) rfl
        (fun other hne => Function.update_of_ne hne _ _) (fun _ _ => rfl), worn_of_not_enabled (p := p.setInventory slot new) hoff,
        ← hempty, Function.update_eq_self]
    rw [hworn]
    exact h.tally.setInventory new
  filled other hon := by
    have hne : other ≠ slot := by
      rintro rfl
      have hon : p.inventoryAbilities other = true := hon
      rw [hoff] at hon
      cases hon
    show Function.update p.inventory slot new other ≠ none
    rw [Function.update_of_ne hne]
    exact h.filled other hon

/-- The ability is disabled and the bonus taken back, whatever is in the slot by then. -/
theorem Balanced.lose (h : Balanced table p) (hon : p.inventoryAbilities slot = true)
    (hid : p.inventory slot = some id)
    (apart : ∀ other, other ≠ slot →
      (p.worn table other).suppressions &&& (p.worn table slot).suppressions = 0#32)
    (new : Option Nat) :
    Balanced table (((p.setInventory slot new).setItemAbility slot false).lose slot
      (table.bonus p.toBase id) health mana) where
  tally := by
    have hbonus : p.worn table slot = table.bonus p.toBase id := worn_of_enabled hon hid
    rw [worn_eq_update p (((p.setInventory slot new).setItemAbility slot false).lose slot
      (table.bonus p.toBase id) health mana) rfl (fun other hne => Function.update_of_ne hne _ _)
      (fun other hne => Function.update_of_ne hne _ _),
      worn_of_not_enabled (Function.update_self slot false p.inventoryAbilities)]
    rw [hbonus] at apart
    exact ((h.tally.setInventory new).setItemAbility false).lose hbonus apart
  filled other hother := by
    have hne : other ≠ slot := by
      rintro rfl
      have hoff : Function.update p.inventoryAbilities other false other = true := hother
      rw [Function.update_self] at hoff
      cases hoff
    have hother : Function.update p.inventoryAbilities slot false other = true := hother
    rw [Function.update_of_ne hne] at hother
    show Function.update p.inventory slot new other ≠ none
    rw [Function.update_of_ne hne]
    exact h.filled other hother

theorem setInventory_self : p.setInventory slot (p.inventory slot) = p := by
  rw [Player.setInventory, Function.update_eq_self]

theorem Tally.change (h : Tally (p.worn table) p) (base : Base)
    (hworn : ({ p with toBase := base } : Player).worn table = p.worn table) :
    Tally (({ p with toBase := base, health := health, mana := mana } : Player).worn table)
      { p with toBase := base, health := health, mana := mana } := by
  have hworn : ({ p with toBase := base, health := health, mana := mana } : Player).worn table =
      p.worn table := hworn
  rw [hworn]
  exact ⟨h.varSkills, h.varStats, h.varSpeed, h.conditionSuppressions, h.conditions⟩

/-! ### Where the item lies -/

/-- The item lies elsewhere, or in this slot. -/
def Lies (item : Thing) (p : Player) (slot : slots_t) : Prop :=
  (∃ id, item = .elsewhere id) ∨ (item = .inSlot slot ∧ p.inventory slot ≠ none)

variable {item item' : Thing} {fired : Fired} {recount : Bool}

theorem Lies.transformItem {fire : Handler} (h : Lies item p slot)
    (hfire : ∀ eventType (item : Thing) (p : Player) (fired : Fired), Lies item p slot →
      fire eventType item slot p = some fired → Lies fired.item fired.player slot)
    (hr : transformItem table fire item newId recount p = some (item', p')) :
    Lies item' p' slot := by
  rcases h with ⟨id, rfl⟩ | ⟨rfl, hfilled⟩
  · cases hr
    exact Or.inl ⟨id, rfl⟩
  · obtain ⟨id, hid⟩ := Option.ne_none_iff_exists'.1 hfilled
    rcases transformItem_cases hid hr with ⟨-, rfl, rfl⟩ | ⟨-, rfl, -⟩ |
      ⟨-, -, first, second, hfirst, hsecond, rfl, rfl⟩ | ⟨created, -, -, -, rfl, -⟩
    · exact Or.inr ⟨rfl, hfilled⟩
    · exact Or.inl ⟨newId, rfl⟩
    · refine hfire _ _ _ _ ?_ hsecond
      rcases hfire _ _ _ _ (Or.inr ⟨rfl, hfilled⟩) hfirst with ⟨id', hitem⟩ | ⟨hitem, hstill⟩
      · exact Or.inl ⟨id', hitem⟩
      · refine Or.inr ⟨hitem, ?_⟩
        rw [hitem]
        dsimp only
        split
        · rw [setInventory_inventory]
          exact Option.some_ne_none newId
        · exact hstill
    · exact Or.inl ⟨id, rfl⟩

theorem Lies.fireEquip {eventType : MoveEvent_t} {other : slots_t}
    (h : Lies item p slot)
    (hfired : fireEquip table false calls eventType item other p = some fired) :
    Lies fired.item fired.player slot := by
  induction calls generalizing eventType item other p fired with
  | zero => cases hfired
  | succ calls ih =>
      simp only [Equipment.fireEquip] at hfired
      split at hfired
      · cases hfired
        exact h
      next moveEvent hevent =>
      split at hfired
      · cases hfired
        exact h
      · rcases hon : p.inventoryAbilities other with _ | _
        · rcases equipItem_cases rfl hon hfired with ⟨-, rfl⟩ | ⟨-, -, health, mana, rfl⟩ |
            ⟨-, -, item', p', health, mana, htransform, rfl⟩
          · exact h
          · exact h
          · have hlies := h.transformItem (fun _ _ _ _ hlies hfire => ih hlies hfire) htransform
            exact hlies
        · rw [EquipItem, if_pos hon] at hfired
          cases hfired
          exact h
      · rcases hon : p.inventoryAbilities other with _ | _
        · rw [DeEquipItem, hon] at hfired
          cases hfired
          exact h
        · rcases deEquipItem_cases rfl hon hfired with ⟨-, health, mana, rfl⟩ |
            ⟨-, item', p', health, mana, htransform, rfl⟩
          · exact h
          · have h : Lies item (p.setItemAbility other false) slot := h
            have hlies := h.transformItem (fun _ _ _ _ hlies hfire => ih hlies hfire) htransform
            exact hlies

/-! ### Steps that keep the balance -/

/-- The player without the stats that the slot gives. -/
def Player.without (table : Table) (slot : slots_t) (p : Player) : Player :=
  { p with varStats := fun stat => p.varStats stat - (p.worn table slot).stats stat }

/-- The events whose demands the player meets without the stats that the slot gives. -/
def Player.Meets (table : Table) (slot : slots_t) (p : Player) (moveEvent : MoveEvent) : Prop :=
  moveEvent.isMetBy (p.without table slot) = true

/-- An item whose ability is enabled can be taken off: there is an event for it, and no other item
gives one of its suppressions. -/
def Undoes (table : Table) (p : Player) (slot : slots_t) : Prop :=
  p.inventoryAbilities slot = true → ∀ id, p.inventory slot = some id → table.TakesOff slot id ∧
    ∀ other, other ≠ slot →
      (p.worn table other).suppressions &&& (p.worn table slot).suppressions = 0#32

/-- What an item turns into when it is taken off in its slot is not put on there. -/
def Table.TurnsBack (table : Table) (slot : slots_t) (id : Nat) : Prop :=
  (table.items id).transformDeEquipTo ≠ 0 →
    ∀ new, table.turned false id (table.items id).transformDeEquipTo = .into new →
      ¬ table.PutsOn (fun _ => True) slot new

/-- The same for an item that is to be another at once: it stays the same object, too. -/
def Table.StaysOff (table : Table) (slot : slots_t) (id : Nat) : Prop :=
  (table.items id).transformDeEquipTo ≠ 0 →
    (table.items id).type = (table.items (table.items id).transformDeEquipTo).type ∧
      ¬ table.PutsOn (fun _ => True) slot (table.items id).transformDeEquipTo

/-- What an item turns into when it is taken off in one slot may be put on in the other, as long as
none of its types there gives one of the suppressions that are taken back after it. -/
def Table.TurnsOver (table : Table) (base : Base) (toSlot : slots_t) (id : Nat) : Prop :=
  table.WellTurned (fun _ => True) toSlot id (table.items id).transformDeEquipTo ∧
  match table.turned false id (table.items id).transformDeEquipTo with
  | .same => table.WellMade (fun _ => True) base toSlot id
  | .lost => True
  | .into new =>
      table.WellMade (fun _ => True) base toSlot new ∧
        ∀ id', table.Reach (fun _ => True) toSlot new id' →
          (table.bonus base id').suppressions &&& (table.bonus base id).suppressions = 0#32

/-- The step does not come upon the ways in which the balance is lost. -/
def Keeps (table : Table) (p : Player) : Event → Prop
  | .check _ _ => True
  | .addThing slot id => table.WellMade (p.Meets table slot) p.toBase slot id
  | .removeThing slot => Undoes table p slot
  | .split slot => Undoes table p slot ∧
      (p.inventoryAbilities slot = true → ∀ id, p.inventory slot = some id →
        table.TurnsBack slot id)
  | .merge slot => p.inventoryAbilities slot = false → ∀ id, p.inventory slot = some id →
      table.WellMade (p.Meets table slot) p.toBase slot id
  | .moveThing fromSlot toSlot => Undoes table p fromSlot ∧
      ∀ id, p.inventory fromSlot = some id →
        if p.inventoryAbilities fromSlot = true ∧ (table.items id).transformDeEquipTo ≠ 0 then
          table.TurnsOver p.toBase toSlot id
        else table.WellMade (p.Meets table fromSlot) p.toBase toSlot id
  | .transform slot newId recount => ∀ id, p.inventory slot = some id →
      match table.turned recount id newId with
      | .same => True
      | .lost => Undoes table p slot
      | .into new =>
          if p.inventoryAbilities slot = true then
            Undoes table p slot ∧ ((table.items id).type = (table.items newId).type →
              table.WellMade (p.Meets table slot) p.toBase slot new ∧ table.StaysOff slot id)
          else
            table.WellMade (p.Meets table slot) p.toBase slot new ∧
              table.WellTurned (p.Meets table slot) slot id newId
  | .change base _ _ => ({ p with toBase := base } : Player).worn table = p.worn table

theorem turned_into (htype : (table.items id).type = (table.items newId).type) {new : Nat}
    (h : table.turned recount id newId = .into new) : new = newId := by
  simp only [Table.turned, htype, if_true] at h
  split at h
  · cases h
  · split at h
    · cases h
    · split at h
      · cases h
      · split at h
        · cases h
        · exact (Turned.into.inj h).symm

theorem Table.StaysOff.turnsBack (h : table.StaysOff slot id) : table.TurnsBack slot id := by
  intro hturns new hnew
  obtain ⟨htype, hidle⟩ := h hturns
  rwa [turned_into htype hnew]

theorem without_of_off (hoff : p.inventoryAbilities slot = false) :
    p.without table slot = p := by
  rw [Player.without, worn_of_not_enabled hoff]
  simp

/-- The demands are on the base and the stats alone. -/
theorem meets_of_lose {moveEvent : MoveEvent} (hmet : moveEvent.isMetBy p' = true)
    (hbase : p'.toBase = p.toBase) (hstats : p'.varStats = (p.without table slot).varStats) :
    p.Meets table slot moveEvent := by
  have hsame : moveEvent.isMetBy (p.without table slot) = moveEvent.isMetBy p' := by
    simp only [MoveEvent.isMetBy, Player.getMagicLevel, hbase, hstats]
    rfl
  rw [Player.Meets, hsame]
  exact hmet

/-- The event of an item that lies in a slot that gives nothing. -/
theorem Balanced.equip (matched : Matched table) {allows : MoveEvent → Prop}
    (h : Balanced table p) (hoff : p.inventoryAbilities slot = false)
    (hid : p.inventory slot = some id)
    (hallows : ∀ moveEvent : MoveEvent, moveEvent.isMetBy p = true → allows moveEvent)
    (hmade : table.WellMade allows p.toBase slot id)
    (hfired : fireEquip table false calls .EQUIP (.inSlot slot) slot p = some fired) :
    Balanced table fired.player :=
  h.put (fireEquip_puts matched calls _ p slot id fired h.tally (worn_of_not_enabled hoff) hoff hid
    hallows hmade hfired)

/-- The event of an item in its slot that is not to stay enabled there. -/
theorem Balanced.deEquip (matched : Matched table) (h : Balanced table p)
    (hon : p.inventoryAbilities slot = true) (hid : p.inventory slot = some id)
    (hundoes : Undoes table p slot) (hback : table.TurnsBack slot id)
    (hfired : fireEquip table false calls .DEEQUIP (.inSlot slot) slot p = some fired) :
    Balanced table fired.player ∧ fired.player.inventoryAbilities slot = false ∧
      fired.player.toBase = p.toBase ∧
      (∀ moveEvent : MoveEvent, moveEvent.isMetBy fired.player = true →
        p.Meets table slot moveEvent) ∧
      (table.StaysOff slot id →
        (fired.item = .inSlot slot ∧ ∃ id', fired.player.inventory slot = some id' ∧
          (id' = id ∨ ¬ table.PutsOn (fun _ => True) slot id')) ∨
        ∃ new, fired.item = .elsewhere new ∧ ¬ table.PutsOn (fun _ => True) slot new) := by
  have hgetID : p.getID (.inSlot slot) = id := by simp [Player.getID, hid]
  have hbonus : p.worn table slot = table.bonus p.toBase id := worn_of_enabled hon hid
  obtain ⟨htakes, apart⟩ := hundoes hon id hid
  obtain ⟨fewer, hfired⟩ := fireEquip_deEquip_on (.inSlot slot) (by rwa [hgetID]) hfired
  rcases deEquipItem_cases hgetID hon hfired with ⟨hstays, health, mana, rfl⟩ |
    ⟨hinto, item', p', health, mana, htransform, rfl⟩
  · have hlose : Balanced table (((p.setInventory slot (p.inventory slot)).setItemAbility slot
        false).lose slot (table.bonus p.toBase id) health mana) := h.lose hon hid apart _
    rw [setInventory_self] at hlose
    refine ⟨hlose, Function.update_self .., rfl, fun moveEvent hmet => ?_, ?_⟩
    · exact meets_of_lose hmet rfl (by rw [Player.without, hbonus]; rfl)
    · exact fun _ => Or.inl ⟨rfl, id, hid, Or.inl rfl⟩
  · have hoff : (p.setItemAbility slot false).inventoryAbilities slot = false :=
      Function.update_self ..
    obtain ⟨⟨new, rfl⟩, hitem⟩ := transformItem_idle (p := p.setItemAbility slot false) matched hid
      hoff (hback hinto) htransform
    refine ⟨h.lose hon hid apart new, Function.update_self .., rfl, fun moveEvent hmet => ?_, ?_⟩
    · exact meets_of_lose hmet rfl (by rw [Player.without, hbonus]; rfl)
    · intro hstaysOff
      obtain ⟨htype, hidle⟩ := hstaysOff hinto
      rcases hitem htype with ⟨hitem, hsame | hnew⟩ | hitem
      · exact Or.inl ⟨hitem, id, hsame, Or.inl rfl⟩
      · exact Or.inl ⟨hitem, _, hnew, Or.inr hidle⟩
      · exact Or.inr ⟨_, hitem, hidle⟩

/-- The item has left the slot, and takes its bonus with it. -/
theorem Balanced.leave (h : Balanced table p)
    (hid : p.inventory slot = some id) (hundoes : Undoes table p slot) (new : Option Nat)
    (hon : p.inventoryAbilities slot = true)
    (hfired : fireEquip table false calls .DEEQUIP (.elsewhere id) slot (p.setInventory slot new) =
      some fired) : Balanced table fired.player := by
  obtain ⟨htakes, apart⟩ := hundoes hon id hid
  obtain ⟨health, mana, hplayer⟩ := deEquip_elsewhere (p := p.setInventory slot new) hon htakes
    hfired
  rw [hplayer]
  exact h.lose hon hid apart new

theorem Balanced.transform (matched : Matched table) (h : Balanced table p)
    (hid : p.inventory slot = some id) (hkeeps : Keeps table p (.transform slot newId recount))
    (hr : transformItem table (fireEquip table false calls) (.inSlot slot) newId recount p =
      some (item, p')) : Balanced table p' := by
  have hkeeps := hkeeps id hid
  rcases hon : p.inventoryAbilities slot with _ | _
  · have hallows : ∀ moveEvent : MoveEvent, moveEvent.isMetBy p = true →
        p.Meets table slot moveEvent := fun moveEvent hmet => by
      rw [Player.Meets, without_of_off hon]
      exact hmet
    refine h.put (Put.transformItem matched (fireEquip_puts matched calls) h.tally
      (worn_of_not_enabled hon) hon hid hallows (fun new hnew => ?_) hr)
    simpa only [hnew, hon, if_neg Bool.false_ne_true] using hkeeps
  rcases transformItem_cases hid hr with ⟨-, -, rfl⟩ | ⟨hlost, -, fired, hfired, rfl⟩ |
    ⟨hinto, htype, first, second, hfirst, hsecond, -, rfl⟩ |
    ⟨created, hinto, htype, hcreated, -, first, second, hfirst, hsecond, rfl⟩
  · exact h
  · rw [hlost] at hkeeps
    exact h.leave hid hkeeps none hon hfired
  · rw [hinto] at hkeeps
    dsimp only at hkeeps
    rw [if_pos hon] at hkeeps
    obtain ⟨hundoes, hsame⟩ := hkeeps
    obtain ⟨hmade, hstaysOff⟩ := hsame htype
    obtain ⟨hbalanced, hoff, hbase, hallows, hitem⟩ :=
      h.deEquip matched hon hid hundoes hstaysOff.turnsBack hfirst
    rcases hitem hstaysOff with ⟨hitem, id', hid', hsame⟩ | ⟨other, hitem, hidle⟩
    · rw [hitem] at hsecond
      dsimp only at hsecond
      by_cases hnew : id = newId
      · rw [if_neg (not_not.2 hnew)] at hsecond
        rcases hsame with rfl | hidle
        · rw [← hnew, ← hbase] at hmade
          exact hbalanced.equip matched hoff hid' hallows hmade hsecond
        · obtain ⟨-, hplayer⟩ := fireEquip_equip_idle matched (fun _ _ => trivial)
            (by rwa [Player.getID, hid']) hsecond
          rw [hplayer]
          exact hbalanced
      · rw [if_pos hnew] at hsecond
        rw [← hbase] at hmade
        exact (hbalanced.setInventory hoff (some newId)).equip matched hoff
          (setInventory_inventory _) hallows hmade hsecond
    · rw [hitem] at hsecond
      obtain ⟨-, hplayer⟩ := fireEquip_equip_idle matched (fun _ _ => trivial) hidle hsecond
      rw [hplayer]
      exact hbalanced
  · rw [hinto] at hkeeps
    dsimp only at hkeeps
    rw [if_pos hon] at hkeeps
    rw [fireEquip_equip_on (p := p.setInventory slot (some created)) matched hon hfirst] at hsecond
    exact h.leave hid hkeeps.1 (some created) hon hsecond

/-! ### Moves from slot to slot -/

theorem transformItem_same (hid : p.inventory slot = some id)
    (hsame : table.turned recount id newId = .same) {fire : Handler}
    (h : transformItem table fire (.inSlot slot) newId recount p = some (item, p')) : p' = p := by
  rcases transformItem_cases hid h with ⟨-, -, rfl⟩ | ⟨hlost, -⟩ | ⟨hinto, -⟩ |
    ⟨created, hinto, -⟩
  · rfl
  · rw [hsame] at hlost
    cases hlost
  · rw [hsame] at hinto
    cases hinto
  · rw [hsame] at hinto
    cases hinto

theorem wellMade_reach {allows : MoveEvent → Prop} {base : Base}
    (h : table.WellMade allows base slot id) (hreach : table.Reach allows slot id newId) :
    table.WellMade allows base slot newId :=
  fun id' hreach' => h id' (hreach.trans hreach')

/-- The item has been moved on and turned into another there, with its bonus still on. -/
theorem Balanced.turnOver (matched : Matched table) (h : Balanced table p) {fromSlot toSlot : slots_t}
    (hon : p.inventoryAbilities fromSlot = true) (hid : p.inventory fromSlot = some id)
    (hempty : p.inventory toSlot = none) (hundoes : Undoes table p fromSlot)
    (hover : table.TurnsOver p.toBase toSlot id) (health mana : Int)
    (hr : transformItem table (fireEquip table false calls) (.inSlot toSlot)
      (table.items id).transformDeEquipTo false
      (((p.setInventory fromSlot none).setInventory toSlot (some id)).setItemAbility fromSlot
        false) = some (item, p')) :
    Balanced table (p'.lose fromSlot (table.bonus p'.toBase id) health mana) ∧
      ∀ id', p'.inventory toSlot = some id' →
        table.WellMade (fun _ => True) p'.toBase toSlot id' := by
  obtain ⟨hturned, hover⟩ := hover
  obtain ⟨-, apart⟩ := hundoes hon id hid
  have hne : toSlot ≠ fromSlot := by
    rintro rfl
    rw [hid] at hempty
    cases hempty
  have hbonus : p.worn table fromSlot = table.bonus p.toBase id := worn_of_enabled hon hid
  have hoff : (((p.setInventory fromSlot none).setInventory toSlot (some id)).setItemAbility
      fromSlot false).inventoryAbilities toSlot = false :=
    (Function.update_of_ne hne _ _).trans (h.off hempty)
  have hthere : (((p.setInventory fromSlot none).setInventory toSlot (some id)).setItemAbility
      fromSlot false).inventory toSlot = some id := setInventory_inventory _
  have hput := Put.transformItem (b := p.worn table) matched
    (fireEquip_puts matched calls)
    (((h.tally.setInventory none).setInventory (some id)).setItemAbility false)
    (worn_of_not_enabled (h.off hempty)) hoff hthere (fun _ _ => trivial) (fun new hnew => by
      rw [hnew] at hover
      exact ⟨hover.1, hturned⟩) hr
  have hbase : p'.toBase = p.toBase := hput.base
  have hfrom : p'.inventoryAbilities fromSlot = false :=
    (hput.abilities fromSlot hne.symm).trans (Function.update_self ..)
  -- what the other slot gives by now has none of the suppressions
  have hother : (p'.worn table toSlot).suppressions &&& (table.bonus p.toBase id).suppressions =
      0#32 := by
    rcases henabled : p'.inventoryAbilities toSlot with _ | _
    · rw [worn_of_not_enabled henabled, BitVec.zero_and]
    · obtain ⟨id', hid'⟩ := Option.ne_none_iff_exists'.1 (hput.filled henabled)
      rcases hput.may id' hid' with ⟨hsame, -⟩ | ⟨new, hnew, hreach⟩
      · rw [transformItem_same hthere hsame hr, hoff] at henabled
        cases henabled
      · rw [hnew] at hover
        rw [worn_of_enabled henabled hid', hbase]
        exact hover.2 id' hreach
  have hworn : p'.worn table =
      Function.update (Function.update (p.worn table) toSlot (p'.worn table toSlot)) fromSlot
        {} := by
    ext1 other
    by_cases hisFrom : other = fromSlot
    · rw [hisFrom, Function.update_self, worn_of_not_enabled hfrom]
    rw [Function.update_of_ne hisFrom]
    by_cases hisTo : other = toSlot
    · rw [hisTo, Function.update_self]
    · rw [Function.update_of_ne hisTo]
      simp only [Player.worn, hbase, hput.inventory other hisTo, hput.abilities other hisTo]
      simp only [Player.setItemAbility, Player.setInventory, Function.update_of_ne hisFrom,
        Function.update_of_ne hisTo]
  refine ⟨⟨?_, fun other henabled => ?_⟩, fun id' hid' => ?_⟩
  · show Tally (p'.worn table) _
    rw [hworn, hbase]
    refine hput.tally.lose ?_ fun other hisFrom => ?_
    · rw [Function.update_of_ne hne.symm, hbonus]
    · by_cases hisTo : other = toSlot
      · rw [hisTo, Function.update_self]
        exact hother
      · rw [Function.update_of_ne hisTo, ← hbonus]
        exact apart other hisFrom
  · have hthere : p'.inventoryAbilities other = true := henabled
    show p'.inventory other ≠ none
    by_cases hisTo : other = toSlot
    · rw [hisTo] at hthere ⊢
      exact hput.filled hthere
    · have hisFrom : other ≠ fromSlot := by
        intro heq
        rw [heq, hfrom] at hthere
        cases hthere
      rw [hput.abilities other hisTo] at hthere
      rw [hput.inventory other hisTo]
      simp only [Player.setItemAbility, Player.setInventory, Function.update_of_ne hisFrom,
        Function.update_of_ne hisTo] at hthere ⊢
      exact h.filled other hthere
  · rw [hbase]
    rcases hput.may id' hid' with ⟨hsame, rfl⟩ | ⟨new, hnew, hreach⟩
    · rw [hsame] at hover
      exact hover
    · rw [hnew] at hover
      exact wellMade_reach hover.1 hreach

theorem Balanced.moveThing (matched : Matched table) (h : Balanced table p)
    {fromSlot toSlot : slots_t} (hkeeps : Keeps table p (.moveThing fromSlot toSlot))
    (hr : perform table calls p (.moveThing fromSlot toSlot) = some p') : Balanced table p' := by
  simp only [perform] at hr
  split at hr
  swap
  · cases hr
  next id hid hempty =>
  obtain ⟨hundoes, hmade⟩ := hkeeps
  have hmade := hmade id hid
  obtain ⟨fired, hfired, hr⟩ := Option.bind_eq_some_iff.1 hr
  have hthere : ((p.setInventory fromSlot none).setInventory toSlot (some id)).inventory toSlot =
      some id := setInventory_inventory _
  have hlies : Lies fired.item fired.player toSlot :=
    Lies.fireEquip (Or.inr ⟨rfl, by rw [hthere]; exact Option.some_ne_none id⟩) hfired
  rcases hon : p.inventoryAbilities fromSlot with _ | _
  · rw [if_neg (by rw [hon]; exact fun hboth => Bool.false_ne_true hboth.1)] at hmade
    rw [fireEquip_deEquip_off (p := (p.setInventory fromSlot none).setInventory toSlot (some id))
      matched hon hfired] at hr
    obtain ⟨fired', hfired', rfl⟩ := Option.map_eq_some_iff.1 hr
    have hallows : ∀ moveEvent : MoveEvent, moveEvent.isMetBy ((p.setInventory fromSlot
        none).setInventory toSlot (some id)) = true → p.Meets table fromSlot moveEvent := by
      intro moveEvent hmet
      rw [Player.Meets, without_of_off hon]
      exact hmet
    exact ((h.setInventory hon none).setInventory (h.off hempty) (some id)).equip matched
      (h.off hempty) hthere hallows hmade hfired'
  have hne : toSlot ≠ fromSlot := by
    rintro rfl
    rw [hid] at hempty
    cases hempty
  have hgetID : ((p.setInventory fromSlot none).setInventory toSlot (some id)).getID
      (.inSlot toSlot) = id := by rw [Player.getID, hthere]; rfl
  obtain ⟨htakes, apart⟩ := hundoes hon id hid
  obtain ⟨fewer, hdeEquip⟩ := fireEquip_deEquip_on (.inSlot toSlot)
    (p := (p.setInventory fromSlot none).setInventory toSlot (some id))
    (by rw [hgetID]; exact htakes) hfired
  rcases deEquipItem_cases hgetID hon hdeEquip with ⟨hstays, health, mana, rfl⟩ |
    ⟨hinto, item', p', health, mana, htransform, rfl⟩
  · rw [if_neg (by rw [hstays]; exact fun hboth => hboth.2 rfl)] at hmade
    obtain ⟨fired', hfired', rfl⟩ := Option.map_eq_some_iff.1 hr
    have hoff : (((p.setInventory fromSlot none).setItemAbility fromSlot false).lose fromSlot
        (table.bonus p.toBase id) health mana).inventoryAbilities toSlot = false :=
      (Function.update_of_ne hne _ _).trans (h.off hempty)
    have hallows : ∀ moveEvent : MoveEvent, moveEvent.isMetBy ((((p.setInventory fromSlot
        none).setItemAbility fromSlot false).lose fromSlot (table.bonus p.toBase id) health
          mana).setInventory toSlot (some id)) = true → p.Meets table fromSlot moveEvent := by
      intro moveEvent hmet
      rw [Player.Meets, Player.without, worn_of_enabled hon hid]
      exact hmet
    exact ((h.lose hon hid apart none).setInventory hoff (some id)).equip matched hoff
      (setInventory_inventory _) hallows hmade hfired'
  · rw [if_pos ⟨hon, hinto⟩] at hmade
    obtain ⟨hbalanced, hthere⟩ := h.turnOver matched hon hid hempty hundoes hmade health mana
      htransform
    rcases hlies with ⟨id', rfl⟩ | ⟨rfl, hfilled⟩
    · cases hr
      exact hbalanced
    · obtain ⟨id', hid'⟩ := Option.ne_none_iff_exists'.1 hfilled
      obtain ⟨fired', hfired', rfl⟩ := Option.map_eq_some_iff.1 hr
      rcases henabled : p'.inventoryAbilities toSlot with _ | _
      · exact hbalanced.equip matched henabled hid' (fun _ _ => trivial) (hthere id' hid') hfired'
      · rw [fireEquip_equip_on (p := p'.lose fromSlot (table.bonus p'.toBase id) health mana)
          matched henabled hfired']
        exact hbalanced

/-! ### Runs -/

theorem Balanced.perform (matched : Matched table) (h : Balanced table p) {event : Event}
    (hkeeps : Keeps table p event) (hr : perform table calls p event = some p') :
    Balanced table p' := by
  cases event with
  | check slot id =>
      obtain ⟨fired, hfired, rfl⟩ := Option.map_eq_some_iff.1 hr
      rw [fireEquip_check matched hfired]
      exact h
  | addThing slot id =>
      simp only [Equipment.perform] at hr
      split at hr
      · cases hr
      · next hempty =>
          obtain ⟨fired, hfired, rfl⟩ := Option.map_eq_some_iff.1 hr
          have hoff := h.off hempty
          have hallows : ∀ moveEvent : MoveEvent,
              moveEvent.isMetBy (p.setInventory slot (some id)) = true →
                p.Meets table slot moveEvent := by
            intro moveEvent hmet
            rw [Player.Meets, without_of_off hoff]
            exact hmet
          exact (h.setInventory hoff (some id)).equip matched hoff (setInventory_inventory _)
            hallows hkeeps hfired
  | removeThing slot =>
      simp only [Equipment.perform] at hr
      split at hr
      · cases hr
      · next id hid =>
          obtain ⟨fired, hfired, rfl⟩ := Option.map_eq_some_iff.1 hr
          rcases hon : p.inventoryAbilities slot with _ | _
          · rw [fireEquip_deEquip_off (p := p.setInventory slot none) matched hon hfired]
            exact h.setInventory hon none
          · exact h.leave hid hkeeps none hon hfired
  | split slot =>
      simp only [Equipment.perform] at hr
      split at hr
      · cases hr
      · next hfilled =>
          obtain ⟨id, hid⟩ := Option.ne_none_iff_exists'.1 hfilled
          obtain ⟨fired, hfired, rfl⟩ := Option.map_eq_some_iff.1 hr
          rcases hon : p.inventoryAbilities slot with _ | _
          · rw [fireEquip_deEquip_off matched hon hfired]
            exact h
          · exact (h.deEquip matched hon hid hkeeps.1 (hkeeps.2 hon id hid) hfired).1
  | merge slot =>
      simp only [Equipment.perform] at hr
      split at hr
      · cases hr
      · next hfilled =>
          obtain ⟨id, hid⟩ := Option.ne_none_iff_exists'.1 hfilled
          obtain ⟨fired, hfired, rfl⟩ := Option.map_eq_some_iff.1 hr
          rcases hon : p.inventoryAbilities slot with _ | _
          · have hallows : ∀ moveEvent : MoveEvent, moveEvent.isMetBy p = true →
                p.Meets table slot moveEvent := by
              intro moveEvent hmet
              rw [Player.Meets, without_of_off hon]
              exact hmet
            exact h.equip matched hon hid hallows (hkeeps hon id hid) hfired
          · rw [fireEquip_equip_on matched hon hfired]
            exact h
  | moveThing fromSlot toSlot => exact h.moveThing matched hkeeps hr
  | transform slot newId recount =>
      simp only [Equipment.perform] at hr
      split at hr
      · cases hr
      · next hfilled =>
          obtain ⟨id, hid⟩ := Option.ne_none_iff_exists'.1 hfilled
          obtain ⟨⟨item, p'⟩, htransform, rfl⟩ := Option.map_eq_some_iff.1 hr
          exact h.transform matched hid hkeeps htransform
  | change base health mana =>
      cases hr
      exact ⟨h.tally.change base hkeeps, h.filled⟩

/-- A run of a player, each of whose events is allowed in the state it meets. -/
inductive Run (table : Table) (allowed : Player → Event → Prop) (p : Player) : Player → Prop
  | refl : Run table allowed p p
  | step {p' p'' : Player} (calls : Nat) (event : Event) :
      Run table allowed p p' → allowed p' event → perform table calls p' event = some p'' →
        Run table allowed p p''

/-- A player as he is loaded: items may lie in his slots, and none of them has given him
anything. -/
structure Fresh (p : Player) : Prop where
  inventoryAbilities : ∀ slot, p.inventoryAbilities slot = false
  varSkills : p.varSkills = 0
  varStats : p.varStats = 0
  varSpeed : p.varSpeed = 0
  conditionSuppressions : p.conditionSuppressions = 0#32
  conditions : ∀ slot, p.conditions slot = {}

/-- The totals that an item that is put on and taken off again leaves as they were. -/
structure Restored (p p' : Player) : Prop where
  varSkills : p'.varSkills = p.varSkills
  varStats : p'.varStats = p.varStats
  varSpeed : p'.varSpeed = p.varSpeed
  conditionSuppressions : p'.conditionSuppressions = p.conditionSuppressions
  conditions : p'.conditions = p.conditions

theorem Balanced.of_fresh (h : Fresh p) : Balanced table p where
  tally := by
    have hworn : p.worn table = fun _ => {} := by
      ext1 slot
      exact worn_of_not_enabled (h.inventoryAbilities slot)
    rw [hworn]
    refine ⟨?_, ?_, ?_, fun i => ?_, h.conditions⟩
    · rw [h.varSkills, Finset.sum_const_zero]
    · rw [h.varStats, Finset.sum_const_zero]
    · rw [h.varSpeed, Finset.sum_const_zero]
    · rw [h.conditionSuppressions]
      simp
  filled slot hon := by
    rw [h.inventoryAbilities slot] at hon
    cases hon

/-- The totals depend on nothing but what the slots give. -/
theorem Balanced.restored (h : Balanced table p) (h' : Balanced table p')
    (hworn : p'.worn table = p.worn table) : Restored p p' where
  varSkills := by rw [h'.tally.varSkills, hworn, ← h.tally.varSkills]
  varStats := by rw [h'.tally.varStats, hworn, ← h.tally.varStats]
  varSpeed := by rw [h'.tally.varSpeed, hworn, ← h.tally.varSpeed]
  conditionSuppressions := by
    refine BitVec.eq_of_getLsbD_eq fun i _ => ?_
    rw [Bool.eq_iff_iff, h'.tally.conditionSuppressions i, hworn, h.tally.conditionSuppressions i]
  conditions := by
    ext1 slot
    rw [h'.tally.conditions, hworn, ← h.tally.conditions]

theorem Balanced.run (matched : Matched table) (h : Balanced table p)
    (hrun : Run table (Keeps table) p p') : Balanced table p' := by
  induction hrun with
  | refl => exact h
  | step calls event _ hkeeps hr ih => exact ih.perform matched hkeeps hr

namespace Sample

/-- A life ring becomes another item when it is worn; a helmet and a necklace keep one sober. -/
def itemType : Nat → ItemType
  | 2168 => { id := 2168, transformEquipTo := 2205 }
  | 2205 =>
      { id := 2205, transformDeEquipTo := 2168
        abilities := some { regeneration := true, healthGain := 2, manaGain := 8 } }
  | 2461 => { id := 2461, abilities := some { conditionSuppressions := 1 } }
  | 2173 => { id := 2173, abilities := some { conditionSuppressions := 1 } }
  | _ => {}

def jewels : Table where
  items := itemType
  getEvent _ eventType _ :=
    match eventType with
    | .EQUIP => some { equipFunction := .EquipItem }
    | .DEEQUIP => some { equipFunction := .DeEquipItem }
  percentOf base percent := (base * (percent - 100)).tdiv 100

theorem jewels_matched : Matched jewels where
  equip _ _ _ h := by cases h; decide
  deEquip _ _ _ h := by cases h; decide

theorem jewels_wellMade (allows : MoveEvent → Prop) (base : Base) (slot : slots_t) (id : Nat) :
    jewels.WellMade allows base slot id := by
  intro id' _ _ hinto
  have hid : id' = 2168 := by
    by_contra hne
    refine hinto ?_
    show (itemType id').transformEquipTo = 0
    unfold itemType
    split
    · contradiction
    · rfl
    · rfl
    · rfl
    · rfl
  rw [hid]
  exact ⟨rfl, fun htype => absurd rfl htype⟩

/-- The life ring is put on, and has become the other item. -/
def ringOn : Player := ((perform jewels 3 {} (.addThing .RING 2168)).getD {})

def ringOff : Player := ((perform jewels 3 ringOn (.removeThing .RING)).getD {})

theorem ringOn_run : Run jewels (Keeps jewels) {} ringOn :=
  .step 3 (.addThing .RING 2168) .refl (jewels_wellMade _ _ _ _) rfl

theorem ringOff_run : Run jewels (Keeps jewels) {} ringOff := by
  refine .step 3 (.removeThing .RING) ringOn_run ?_ rfl
  intro _ id hid
  refine ⟨⟨_, rfl, rfl⟩, fun other hne => ?_⟩
  have hworn : (ringOn.worn jewels other).suppressions = 0#32 := by cases other <;> rfl
  rw [hworn, BitVec.zero_and]

end Sample

end TibServer.Equipment
