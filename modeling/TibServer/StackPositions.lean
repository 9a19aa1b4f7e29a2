import TibServer.TileDescription
import TibServer.TileOps

/-!
The description of a tile and the positions in its stack agree: a description is the first
ten of the things that a player sees on the tile, in the order of the client, and
`getStackposOfItem` and `getStackposOfCreature` find their index there, or -1 past the tenth.
`getClientIndexOfCreature` counts on past the tenth; its callers ask whether it is below 10.
-/

namespace TibServer

/-- A thing on a tile, however it is written. -/
inductive TileThing
  | item (i : ItemRef)
  | creature (c : CreatureId)
  deriving DecidableEq, Repr

def WrittenThing.thing : WrittenThing → TileThing
  | .item i => .item i
  | .creature c _ _ => .creature c

/-- The index at which a thing is written, -1 for one that is not. -/
def writtenAt (written : List TileThing) (thing : TileThing) : Int :=
  if thing ∈ written then written.idxOf thing else -1

namespace Tile

variable (w : World) (t : Tile) (view : ClientView)

/-- What a player sees on a tile, from the ground up as the client stacks it. -/
def shown : List TileThing :=
  (t.ground.toList ++ t.topItems).map .item ++
    (t.creatures.reverse.filter view.canSeeCreature).map .creature ++ t.downItems.map .item

/-- The item lies in the part of the vector that its type belongs to. -/
structure Placed (i : ItemRef) : Prop where
  top : i ∈ t.topItems → w.isAlwaysOnTop i = true
  down : i ∈ t.downItems → w.isAlwaysOnTop i = false

end Tile

/-! ### What is written -/

namespace ClientView

variable {view : ClientView}

/-- A loop over items writes them up to the tenth thing. -/
theorem writeItems_eq {count : Nat} (h : count < 10) (l : List ItemRef) :
    writeItems count l = ((l.take (10 - count)).map .item,
      if count + l.length < 10 then some (count + l.length) else none) := by
  induction l generalizing count with
  | nil =>
      rw [writeItems, List.length_nil, Nat.add_zero, if_pos h, List.take_nil, List.map_nil]
  | cons i rest ih =>
      rw [writeItems]
      by_cases hten : count + 1 = 10
      · have hlength : ¬count + (i :: rest).length < 10 := by
          rw [List.length_cons]
          omega
        rw [if_pos hten, if_neg hlength, show 10 - count = 0 + 1 by omega, List.take_succ_cons,
          List.take_zero, List.map_cons, List.map_nil]
      · rw [if_neg hten, ih (by omega), show 10 - count = (10 - (count + 1)) + 1 by omega,
          List.take_succ_cons, List.map_cons, List.length_cons,
          show count + 1 + rest.length = count + (rest.length + 1) by omega]

@[simp] theorem introduce_thing (st : KnownState) (c : CreatureId) :
    (view.introduce st c).1.thing = .creature c := rfl

/-- The loop over the creatures writes those that are seen up to the tenth thing. -/
theorem writeCreatures_eq {count : Nat} (h : count < 10) (st : KnownState) (spawned : Bool)
    (l : List CreatureId) :
    (view.writeCreatures false st spawned count l).1.map WrittenThing.thing =
        ((l.filter view.canSeeCreature).take (10 - count)).map .creature ∧
      (view.writeCreatures false st spawned count l).2.1 =
        if count + (l.filter view.canSeeCreature).length < 10 then
          some (count + (l.filter view.canSeeCreature).length)
        else none := by
  induction l generalizing count st spawned with
  | nil =>
      rw [writeCreatures]
      simpa using h
  | cons c rest ih =>
      rw [writeCreatures]
      by_cases hsee : view.canSeeCreature c = true
      · rw [List.filter_cons_of_pos hsee, List.length_cons]
        by_cases hten : count + 1 = 10
        · have hcount : 10 - count = 0 + 1 := by omega
          simp [hsee, hten, hcount]
          omega
        · obtain ⟨hthings, hcount⟩ := @ih (count + 1) (by omega) (view.introduce st c).2
            (spawned || c == view.player)
          have hleft : 10 - count = 10 - (count + 1) + 1 := by omega
          have hsum : count + 1 + (rest.filter view.canSeeCreature).length =
              count + ((rest.filter view.canSeeCreature).length + 1) := by omega
          rw [hsum] at hcount
          rw [hleft, List.take_succ_cons, List.map_cons]
          simp [hsee, hten, hthings, hcount]
      · rw [List.filter_cons_of_neg hsee]
        simpa [hsee] using ih h st spawned

theorem take_ten {α : Type} {l l' : List α} (h : l.length ≤ 10) :
    (l ++ l').take 10 = l ++ l'.take (10 - l.length) := by
  rw [List.take_append, List.take_of_length_le h]

/-- A description is the first ten of the things that are seen. -/
theorem describe_eq (hlogged : view.loggedIn = true) (st : KnownState) (pos : Position)
    (t : Tile) :
    (view.describe st pos t).1.map WrittenThing.thing = (t.shown view).take 10 := by
  have hground : t.ground.toList.length < 10 := by
    cases t.ground <;> simp
  have hmap : ∀ l : List ItemRef, (l.map WrittenThing.item).map WrittenThing.thing =
      l.map TileThing.item := fun l => by rw [List.map_map]; rfl
  have hspawn : (!view.loggedIn && pos == view.position) = false := by rw [hlogged]; rfl
  rw [describe, Tile.shown]
  by_cases htop : t.ground.toList.length + t.topItems.length < 10
  · simp only [hspawn, List.length_map, writeItems_eq hground, if_pos htop]
    rw [List.take_of_length_le (show t.topItems.length ≤ _ by omega)]
    have hcreatures := @writeCreatures_eq view _ htop st false t.creatures.reverse
    generalize view.writeCreatures false st false _ t.creatures.reverse = result at hcreatures
    obtain ⟨creatures, count, st'⟩ := result
    generalize t.creatures.reverse.filter view.canSeeCreature = seen at hcreatures ⊢
    simp only at hcreatures
    obtain ⟨hthings, rfl⟩ := hcreatures
    have hbelow : ((t.ground.toList ++ t.topItems).map TileThing.item).length < 10 := by
      rw [List.length_map, List.length_append]
      exact htop
    rw [List.append_assoc, take_ten (Nat.le_of_lt hbelow), List.length_map, List.length_append]
    by_cases hseen : t.ground.toList.length + t.topItems.length + seen.length < 10
    · rw [List.take_of_length_le (by omega)] at hthings
      have hrest : (seen.map TileThing.creature ++ t.downItems.map TileThing.item).take
          (10 - (t.ground.toList.length + t.topItems.length)) =
          seen.map TileThing.creature ++ (t.downItems.take
            (10 - (t.ground.toList.length + t.topItems.length + seen.length))).map
              TileThing.item := by
        rw [List.take_append, List.take_of_length_le (by rw [List.length_map]; omega),
          List.length_map, List.map_take, Nat.sub_sub]
      simp only [if_pos hseen, writeItems_eq hseen, List.map_append, hmap, hthings, hrest,
        List.append_assoc]
    · simp only [if_neg hseen, List.map_append, hmap, hthings]
      rw [List.take_append_of_le_length (by rw [List.length_map]; omega), List.map_take]
  · simp only [List.length_map, writeItems_eq hground, if_neg htop, List.map_append, hmap]
    rw [List.append_assoc, List.append_assoc, take_ten (by rw [List.length_map]; omega),
      List.length_map, List.take_append_of_le_length (by rw [List.length_map]; omega),
      List.map_take]

end ClientView

/-! ### What the positions say -/

/-- The index of a thing among those on the tile, -1 past the tenth. -/
def upToTen (n : Nat) : Int := if n < 10 then n else -1

theorem idxOf_map {α β : Type} [DecidableEq α] [DecidableEq β] {f : α → β}
    (hf : Function.Injective f) (l : List α) (a : α) : (l.map f).idxOf (f a) = l.idxOf a := by
  induction l with
  | nil => rfl
  | cons b l ih =>
      rw [List.map_cons]
      by_cases hab : b = a
      · rw [hab, List.idxOf_cons_self, List.idxOf_cons_self]
      · rw [List.idxOf_cons_ne _ (hf.ne hab), List.idxOf_cons_ne _ hab, ih]

theorem TileThing.item_injective : Function.Injective TileThing.item :=
  fun _ _ h => TileThing.item.inj h

theorem TileThing.creature_injective : Function.Injective TileThing.creature :=
  fun _ _ h => TileThing.creature.inj h

/-- Where the first ten things are written, a thing has its index. -/
theorem writtenAt_take {things : List TileThing} {thing : TileThing} (h : thing ∈ things) :
    writtenAt (things.take 10) thing = upToTen (things.idxOf thing) := by
  rw [writtenAt, upToTen]
  by_cases hten : things.idxOf thing < 10
  · have hmem := (List.mem_take_iff_idxOf_lt h).mpr hten
    have hsame : (things.take 10 ++ things.drop 10).idxOf thing = (things.take 10).idxOf thing :=
      List.idxOf_append_of_mem hmem
    rw [List.take_append_drop] at hsame
    rw [if_pos hmem, if_pos hten, hsame]
  · rw [if_neg fun hmem => hten ((List.mem_take_iff_idxOf_lt h).mp hmem), if_neg hten]

namespace Tile

variable {w : World} {t : Tile} {view : ClientView}

theorem stackposAmong_of_mem {i : ItemRef} {n : Nat} (h : n < 10) {l : List ItemRef}
    (hi : i ∈ l) :
    stackposAmong i n l =
      if n + l.idxOf i < 10 then some (.inl ((n + l.idxOf i : Nat) : Int)) else none := by
  induction l generalizing n with
  | nil => exact absurd hi List.not_mem_nil
  | cons o rest ih =>
      rw [stackposAmong]
      by_cases hoi : o = i
      · subst hoi
        rw [if_pos rfl, List.idxOf_cons_self, Nat.add_zero, if_pos h]
      · have hrest : i ∈ rest := (List.mem_cons.mp hi).resolve_left (Ne.symm hoi)
        rw [if_neg hoi, List.idxOf_cons_ne _ hoi]
        by_cases hten : n + 1 ≥ 10
        · rw [if_pos hten, if_neg (by omega)]
        · rw [if_neg hten, ih (by omega) hrest, Nat.add_right_comm, Nat.add_assoc]

theorem countSeen_eq {n : Nat} (h : n < 10) (l : List CreatureId) :
    countSeen view n l =
      if n + (l.filter view.canSeeCreature).length < 10 then
        some (n + (l.filter view.canSeeCreature).length)
      else none := by
  induction l generalizing n with
  | nil => rw [countSeen, List.filter_nil, List.length_nil, Nat.add_zero, if_pos h]
  | cons c rest ih =>
      rw [countSeen]
      by_cases hsee : view.canSeeCreature c = true
      · rw [if_pos hsee, List.filter_cons_of_pos hsee, List.length_cons]
        by_cases hten : n + 1 ≥ 10
        · rw [if_pos hten, if_neg (by omega)]
        · rw [if_neg hten, ih (by omega), Nat.add_right_comm, Nat.add_assoc]
      · rw [if_neg hsee, List.filter_cons_of_neg hsee, ih h]

theorem stackposOfSeen_eq {c : CreatureId} (hsee : view.canSeeCreature c = true) {n : Nat}
    (h : n < 10) {l : List CreatureId} (hc : c ∈ l) :
    stackposOfSeen view c n l = upToTen (n + (l.filter view.canSeeCreature).idxOf c) := by
  induction l generalizing n with
  | nil => exact absurd hc List.not_mem_nil
  | cons o rest ih =>
      rw [stackposOfSeen]
      by_cases hoc : o = c
      · subst hoc
        rw [if_pos rfl, List.filter_cons_of_pos hsee, List.idxOf_cons_self, Nat.add_zero, upToTen,
          if_pos h]
      · have hrest : c ∈ rest := (List.mem_cons.mp hc).resolve_left (Ne.symm hoc)
        rw [if_neg hoc]
        by_cases ho : view.canSeeCreature o = true
        · rw [if_pos ho, List.filter_cons_of_pos ho, List.idxOf_cons_ne _ hoc]
          by_cases hten : n + 1 ≥ 10
          · rw [if_pos hten, upToTen, if_neg (by omega)]
          · rw [if_neg hten, ih (by omega) hrest, Nat.add_right_comm, Nat.add_assoc]
        · rw [if_neg ho, List.filter_cons_of_neg ho, ih h hrest]

theorem clientIndexOfSeen_eq {c : CreatureId} (hsee : view.canSeeCreature c = true) {n : Nat}
    {l : List CreatureId} (hc : c ∈ l) :
    clientIndexOfSeen view c n l = ((n + (l.filter view.canSeeCreature).idxOf c : Nat) : Int) := by
  induction l generalizing n with
  | nil => exact absurd hc List.not_mem_nil
  | cons o rest ih =>
      rw [clientIndexOfSeen]
      by_cases hoc : o = c
      · subst hoc
        rw [if_pos rfl, List.filter_cons_of_pos hsee, List.idxOf_cons_self, Nat.add_zero]
      · have hrest : c ∈ rest := (List.mem_cons.mp hc).resolve_left (Ne.symm hoc)
        rw [if_neg hoc]
        by_cases ho : view.canSeeCreature o = true
        · rw [if_pos ho, List.filter_cons_of_pos ho, List.idxOf_cons_ne _ hoc, ih hrest,
            Nat.add_right_comm, Nat.add_assoc]
        · rw [if_neg ho, List.filter_cons_of_neg ho, ih hrest]

/-- The things below the creatures. -/
theorem shown_below (t : Tile) (view : ClientView) {i : ItemRef}
    (hi : i ∈ t.ground.toList ++ t.topItems) :
    .item i ∈ t.shown view ∧
      (t.shown view).idxOf (.item i) = (t.ground.toList ++ t.topItems).idxOf i := by
  have hmem : TileThing.item i ∈ (t.ground.toList ++ t.topItems).map TileThing.item :=
    List.mem_map_of_mem hi
  refine ⟨List.mem_append_left _ (List.mem_append_left _ hmem), ?_⟩
  rw [shown, List.append_assoc, List.idxOf_append_of_mem hmem, idxOf_map TileThing.item_injective]

theorem shown_creature (t : Tile) {c : CreatureId} (hc : c ∈ t.creatures)
    (hsee : view.canSeeCreature c = true) :
    .creature c ∈ t.shown view ∧ (t.shown view).idxOf (.creature c) =
      t.ground.toList.length + t.topItems.length +
        (t.creatures.reverse.filter view.canSeeCreature).idxOf c := by
  have hmem : TileThing.creature c ∈
      (t.creatures.reverse.filter view.canSeeCreature).map TileThing.creature :=
    List.mem_map_of_mem (List.mem_filter.mpr ⟨List.mem_reverse.mpr hc, hsee⟩)
  have hbelow : TileThing.creature c ∉ (t.ground.toList ++ t.topItems).map TileThing.item := by
    simp
  refine ⟨List.mem_append_left _ (List.mem_append_right _ hmem), ?_⟩
  rw [shown, List.append_assoc, List.idxOf_append_of_notMem hbelow, List.idxOf_append_of_mem hmem,
    idxOf_map TileThing.creature_injective, List.length_map, List.length_append]

theorem shown_down (t : Tile) (view : ClientView) {i : ItemRef} (hi : i ∈ t.downItems)
    (hbelow : i ∉ t.ground.toList ++ t.topItems) :
    .item i ∈ t.shown view ∧ (t.shown view).idxOf (.item i) =
      t.ground.toList.length + t.topItems.length +
        (t.creatures.filter view.canSeeCreature).length + t.downItems.idxOf i := by
  have hnot : TileThing.item i ∉ (t.ground.toList ++ t.topItems).map TileThing.item ++
      (t.creatures.reverse.filter view.canSeeCreature).map TileThing.creature := by
    simpa [List.mem_append] using hbelow
  refine ⟨List.mem_append_right _ (List.mem_map_of_mem hi), ?_⟩
  rw [shown, List.idxOf_append_of_notMem hnot, idxOf_map TileThing.item_injective,
    List.length_append, List.length_map, List.length_map, List.length_append, List.filter_reverse,
    List.length_reverse]

theorem getTopItemCount_eq (t : Tile) : t.getTopItemCount = t.topItems.length := by
  rw [getTopItemCount, topItems, List.length_drop]

/-- `getStackposOfItem` is the index of an item in its place, up to the tenth thing. -/
theorem getStackposOfItem_eq {i : ItemRef} (hi : i ∈ t.ground.toList ++ t.itemList)
    (hplaced : t.Placed w i) :
    .item i ∈ t.shown view ∧
      t.getStackposOfItem w view i = upToTen ((t.shown view).idxOf (.item i)) := by
  have hground : t.ground.toList.length < 10 := by
    cases t.ground <;> simp
  rw [getStackposOfItem, getTopItemCount_eq]
  by_cases hi₀ : t.ground = some i
  · have hmem : i ∈ t.ground.toList ++ t.topItems := by simp [hi₀]
    obtain ⟨hshown, hidx⟩ := t.shown_below view hmem
    refine ⟨hshown, ?_⟩
    rw [if_pos hi₀, hidx, hi₀]
    simp [upToTen]
  have hnotGround : i ∉ t.ground.toList := by simpa [eq_comm] using hi₀
  rw [if_neg hi₀]
  have hlist : i ∈ t.downItems ∨ i ∈ t.topItems := by
    have hitem := (List.mem_append.mp hi).resolve_left hnotGround
    rw [← List.take_append_drop t.downItemCount t.itemList] at hitem
    exact List.mem_append.mp hitem
  rcases hlist with hdown | htop
  · have hside := hplaced.down hdown
    have hnotTop : i ∉ t.topItems := fun h => by
      rw [hplaced.top h] at hside
      exact absurd hside (by simp)
    have hnot : i ∉ t.ground.toList ++ t.topItems := fun h =>
      (List.mem_append.mp h).elim hnotGround hnotTop
    obtain ⟨hshown, hidx⟩ := t.shown_down view hdown hnot
    refine ⟨hshown, ?_⟩
    rw [hidx]
    simp only [hside, Bool.false_eq_true, if_false]
    by_cases hten : t.ground.toList.length + t.topItems.length ≥ 10
    · rw [if_pos hten, upToTen, if_neg (by omega)]
    · simp only [if_neg hten, countSeen_eq (Nat.lt_of_not_le hten)]
      by_cases hseen : t.ground.toList.length + t.topItems.length +
          (t.creatures.filter view.canSeeCreature).length < 10
      · simp only [if_pos hseen, stackposAmong_of_mem hseen hdown, upToTen]
        split_ifs <;> rfl
      · simp only [if_neg hseen]
        rw [upToTen, if_neg (by omega)]
  · have hmem : i ∈ t.ground.toList ++ t.topItems := List.mem_append_right _ htop
    obtain ⟨hshown, hidx⟩ := t.shown_below view hmem
    refine ⟨hshown, ?_⟩
    rw [hidx, List.idxOf_append_of_notMem hnotGround]
    simp only [hplaced.top htop, if_true, stackposAmong_of_mem hground htop, upToTen]
    split_ifs <;> rfl

theorem getStackposOfCreature_eq {c : CreatureId} (hc : c ∈ t.creatures)
    (hsee : view.canSeeCreature c = true) :
    t.getStackposOfCreature view c = upToTen ((t.shown view).idxOf (.creature c)) := by
  rw [getStackposOfCreature, getTopItemCount_eq, (t.shown_creature hc hsee).2]
  by_cases hten : t.ground.toList.length + t.topItems.length ≥ 10
  · simp only [if_pos hten]
    rw [upToTen, if_neg (by omega)]
  · simp only [if_neg hten]
    exact stackposOfSeen_eq hsee (Nat.lt_of_not_le hten) (List.mem_reverse.mpr hc)

theorem getClientIndexOfCreature_eq {c : CreatureId} (hc : c ∈ t.creatures)
    (hsee : view.canSeeCreature c = true) :
    t.getClientIndexOfCreature view c = (t.shown view).idxOf (.creature c) := by
  rw [getClientIndexOfCreature, getTopItemCount_eq, (t.shown_creature hc hsee).2]
  exact clientIndexOfSeen_eq hsee (List.mem_reverse.mpr hc)

/-- The positions of an item in its place and of a creature that is seen are those at which the
description writes them, or -1 if it does not; the client index of a creature is the position
where it is written, and otherwise at least 10. -/
theorem stack_positions (w : World) (t : Tile) (view : ClientView) (st : KnownState)
    (pos : Position) (hlogged : view.loggedIn = true) :
    (∀ i ∈ t.ground.toList ++ t.itemList, t.Placed w i →
      t.getStackposOfItem w view i =
        writtenAt ((view.describe st pos t).1.map WrittenThing.thing) (.item i)) ∧
    ∀ c ∈ t.creatures, view.canSeeCreature c = true →
      t.getStackposOfCreature view c =
          writtenAt ((view.describe st pos t).1.map WrittenThing.thing) (.creature c) ∧
        (TileThing.creature c ∈ (view.describe st pos t).1.map WrittenThing.thing →
          t.getClientIndexOfCreature view c =
            writtenAt ((view.describe st pos t).1.map WrittenThing.thing) (.creature c)) ∧
        (TileThing.creature c ∉ (view.describe st pos t).1.map WrittenThing.thing →
          10 ≤ t.getClientIndexOfCreature view c) := by
  rw [ClientView.describe_eq hlogged]
  refine ⟨fun i hi hplaced => ?_, fun c hc hsee => ?_⟩
  · obtain ⟨hshown, hpos⟩ := getStackposOfItem_eq hi hplaced
    rw [hpos, writtenAt_take hshown]
  · have hshown := (t.shown_creature hc hsee).1
    rw [getStackposOfCreature_eq hc hsee, getClientIndexOfCreature_eq hc hsee,
      writtenAt_take hshown, List.mem_take_iff_idxOf_lt hshown, upToTen]
    refine ⟨rfl, fun hten => ?_, fun hten => ?_⟩
    · rw [if_pos hten]
    · omega

/-! ### Samples -/

namespace Sample

open TibServer.Sample (corner plot)

/-- A player among creatures that all look the same and are all seen. -/
def onlooker : ClientView where
  player := 0
  position := corner
  look _ := { id := 1, id_ne := by decide }
  canSeeCreature _ := true
  canSee _ := true
  sees_itself := rfl

/-- Eleven creatures on a bare tile. -/
def crowded : Tile where
  creatures := [0, 1, 2, 3, 4, 5, 6, 7, 8, 9, 10]

def nobodyKnown : KnownState where
  arrangements _ := KnownCall.Sample.newest

/-- Items of which none is special. -/
def pebbles : Items where
  type id := { id }
  stackable_isPlain _ h := by simp at h
  stackable_down _ h := by simp at h
  stackable_createdId _ h := by simp at h

/-- A pebble on a bare tile is written first. -/
theorem pebble_first :
    ({ itemList := [1], downItemCount := 1 } : Tile).getStackposOfItem (plot pebbles) onlooker 1 =
      writtenAt ((onlooker.describe nobodyKnown corner
        { itemList := [1], downItemCount := 1 }).1.map WrittenThing.thing) (.item 1) :=
  (stack_positions (plot pebbles) { itemList := [1], downItemCount := 1 } onlooker nobodyKnown
    corner rfl).1 1 (by decide) ⟨fun h => absurd h List.not_mem_nil, fun _ => rfl⟩

/-- The first of eleven creatures has a client index, but is not written. -/
theorem first_creature_unwritten : ¬∀ (t : Tile) (view : ClientView) (st : KnownState)
    (pos : Position), view.loggedIn = true → ∀ c ∈ t.creatures, view.canSeeCreature c = true →
      t.getClientIndexOfCreature view c =
        writtenAt ((view.describe st pos t).1.map WrittenThing.thing) (.creature c) := by
  intro h
  have hindex := h crowded onlooker nobodyKnown corner rfl 0 (by decide) rfl
  rw [ClientView.describe_eq rfl, writtenAt_take (by decide)] at hindex
  exact absurd hindex (by decide)

end Sample

end Tile

end TibServer
