import Mathlib.Tactic
import TibServer.Runs

/-!
Beds (`bed.cpp`, with the dialog in `game.cpp` and the change of the owner in `house.cpp`): who sleeps
in the two halves of a bed, and the map from sleepers to beds. The dialog is opened for the bed that
is used, and the bed is taken when it is answered. A player who falls asleep stays in the world until
he is kicked, and is free to use another bed. The clock, the appearance of the beds and what a sleeper
regenerates are left out.
-/

namespace TibServer.Beds

open TibServer.Runs

abbrev Bed := Nat

abbrev House := Nat

abbrev Guid := Nat

/-- The beds of a map; the two halves of each are neighbours of each other. -/
structure BedMap where
  getNextBedItem : Bed → Option Bed
  house : Bed → Option House
  bedsList : House → List Bed
  /-- `transformToFree` of the item is not zero. -/
  transformToFree : Bed → Bool
  halves : ∀ bed, ∃ next, getNextBedItem bed = some next ∧ next ≠ bed ∧
    getNextBedItem next = some bed

/-- A player in the world, with the bed he has used and whether the dialog is open. -/
structure Player where
  bedItem : Option Bed := none
  window : Bool := false

/-- A bed without a sleeper has `none` where the source has zero, and so has a house without an
owner. `slept` and `regenerated` count how often a player fell asleep, and was regenerated. -/
structure State where
  sleeperGUID : Bed → Option Guid
  bedSleepersMap : Guid → Option Bed
  player : Guid → Option Player := fun _ => none
  owner : House → Option Guid := fun _ => none
  isLoaded : House → Bool := fun _ => true
  slept : Guid → Nat := fun _ => 0
  regenerated : Guid → Nat := fun _ => 0

namespace State

variable (m : BedMap) (s : State)

/-- `internalSetSleeper` or `internalRemoveSleeper` for the bed and the next one. -/
def setSleeper (bed : Bed) (guid : Option Guid) : State :=
  let sleeperGUID := Function.update s.sleeperGUID bed guid
  { s with
    sleeperGUID := match m.getNextBedItem bed with
      | some next => Function.update sleeperGUID next guid
      | none => sleeperGUID }

def setBedSleeper (bed : Bed) (guid : Guid) : State :=
  { s with bedSleepersMap := Function.update s.bedSleepersMap guid (some bed) }

def removeBedSleeper (guid : Guid) : State :=
  { s with bedSleepersMap := Function.update s.bedSleepersMap guid none }

def sleep (bed : Bed) (guid : Guid) : Bool × State :=
  if (m.house bed).isNone then (false, s)
  else if (s.sleeperGUID bed).isSome then (false, s)
  else
    let s := (s.setSleeper m bed (some guid)).setBedSleeper bed guid
    (true, { s with slept := Function.update s.slept guid (s.slept guid + 1) })

def wakeUp (bed : Bed) : State :=
  if (m.house bed).isNone then s
  else
    match s.sleeperGUID bed with
    | some guid =>
        let s := { s with
          regenerated := Function.update s.regenerated guid (s.regenerated guid + 1) }
        (s.removeBedSleeper guid).setSleeper m bed none
    | none => s.setSleeper m bed none

/-! ### The use of a bed -/

/-- What is looked up when a bed is used. -/
structure Access where
  isPremium : Bool
  getHouseAccessLevel : Guid → Nat
  /-- The sleeper can be loaded. -/
  found : Bool

def HOUSE_OWNER : Nat := 3

def canUse (access : Access) (bed : Bed) (guid : Guid) : Bool :=
  if (m.house bed).isNone || !access.isPremium then false
  else
    match s.sleeperGUID bed with
    | none => true
    | some sleeper =>
        access.getHouseAccessLevel guid == HOUSE_OWNER ||
          access.found &&
            !decide (access.getHouseAccessLevel sleeper > access.getHouseAccessLevel guid)

/-- `trySleep`, for a player in the world. -/
def trySleep (bed : Bed) (guid : Guid) : Bool × State :=
  match m.house bed with
  | none => (false, s)
  | some house =>
      match s.sleeperGUID bed with
      | none => (true, s)
      | some _ =>
          (false, if m.transformToFree bed && s.owner house == some guid then s.wakeUp m bed else s)

def setPlayer (guid : Guid) (player : Option Player) : State :=
  { s with player := Function.update s.player guid player }

/-- The part of `internalUseItem` about beds. -/
def useBed (access : Access) (bed : Bed) (guid : Guid) : State :=
  if s.canUse m access bed guid then
    let (free, s) := s.trySleep m bed guid
    -- the dialog is sent if it is not open
    if free then s.setPlayer guid (some { bedItem := some bed, window := true }) else s
  else s

/-- The skills that can be trained. -/
def skills : List Nat := [2, 3, 1, 4, 13]

/-- `playerAnswerModalWindow` for the dialog. -/
def answer (guid : Guid) (player : Player) (button choice : Nat) : State :=
  let closed := s.setPlayer guid (some { bedItem := none, window := false })
  if player.window then
    if button = 1 ∧ choice ∈ skills then
      match player.bedItem with
      | some bed =>
          let (slept, t) := s.sleep m bed guid
          if slept then t.setPlayer guid (some { player with window := false }) else closed
      | none => closed
    else closed
  else s

/-! ### Log-in, log-out and the owner of a house -/

def login (guid : Guid) : State :=
  let s := s.setPlayer guid (some {})
  match s.bedSleepersMap guid with
  | some bed => s.wakeUp m bed
  | none => s

/-- The loop over `bedsList`. -/
def wakeAll (beds : List Bed) : State :=
  beds.foldl (fun s bed => if (s.sleeperGUID bed).isSome then s.wakeUp m bed else s) s

/-- `House::setOwner`; `found` says that the new owner has a name. -/
def setOwner (house : House) (guid : Option Guid) (found : Bool) : State :=
  if s.isLoaded house && s.owner house == guid then s
  else
    let s := { s with isLoaded := Function.update s.isLoaded house true }
    let s := if (s.owner house).isSome then
        { s.wakeAll m (m.bedsList house) with owner := Function.update s.owner house none }
      else s
    if guid.isSome && found then { s with owner := Function.update s.owner house guid } else s

end State

inductive Event
  | login (guid : Guid)
  /-- A player leaves the world, kicked or not. -/
  | logout (guid : Guid)
  | useBed (access : State.Access) (bed : Bed) (guid : Guid)
  | answer (guid : Guid) (button choice : Nat)
  | setOwner (house : House) (guid : Option Guid) (found : Bool)

def State.perform (m : BedMap) (s : State) :
    Event → Option (State)
  | .login guid => if (s.player guid).isSome then none else some (s.login m guid)
  | .logout guid => some (s.setPlayer guid none)
  | .useBed access bed guid =>
      if (s.player guid).isSome then some (s.useBed m access bed guid) else none
  | .answer guid button choice =>
      (s.player guid).map fun player => s.answer m guid player button choice
  | .setOwner house guid found => some (s.setOwner m house guid found)

/-! ### What is required -/

/-- The sleepers of the halves, the beds of a sleeper and the map fit together. -/
structure State.Occupied (m : BedMap) (s : State) : Prop where
  halves : ∀ bed next, m.getNextBedItem bed = some next → s.sleeperGUID next = s.sleeperGUID bed
  /-- Each player sleeps in at most one bed. -/
  single : ∀ guid bed bed', s.sleeperGUID bed = some guid → s.sleeperGUID bed' = some guid →
    bed' = bed ∨ m.getNextBedItem bed = some bed'
  /-- The map has a half of the bed for each sleeper, and nobody else. -/
  mapped : ∀ guid bed, s.bedSleepersMap guid = some bed → s.sleeperGUID bed = some guid
  sleeps : ∀ guid bed, s.sleeperGUID bed = some guid → s.bedSleepersMap guid ≠ none
  /-- Each sleeper is regenerated once. -/
  once : ∀ guid, s.slept guid = s.regenerated guid + (s.bedSleepersMap guid).isSome.toNat

/-- A player who takes a bed does not sleep yet. -/
def State.Keeps (m : BedMap) (s : State) : Event → Prop
  | .answer guid button choice => ∀ bed, s.player guid = some ⟨some bed, true⟩ → button = 1 →
      choice ∈ State.skills → m.house bed ≠ none → s.sleeperGUID bed = none →
      ∀ bed', s.sleeperGUID bed' ≠ some guid
  | _ => True

variable {m : BedMap} {s s' : State} {event : Event}
  {bed bed' next : Bed} {guid guid' : Guid}

/-! ### The sleepers -/

theorem setSleeper_sleeper (hnext : m.getNextBedItem bed = some next) (guid : Option Guid)
    (bed' : Bed) : (s.setSleeper m bed guid).sleeperGUID bed' =
      if bed' = bed ∨ bed' = next then guid else s.sleeperGUID bed' := by
  simp only [State.setSleeper, hnext, Function.update_apply]
  by_cases hother : bed' = next
  · simp [hother]
  · simp [hother]

/-- A bed and its other half, from either side. -/
theorem BedMap.next_iff (m : BedMap) : m.getNextBedItem bed = some bed' ↔
    m.getNextBedItem bed' = some bed := by
  obtain ⟨next, hnext, -, hback⟩ := m.halves bed
  obtain ⟨next', hnext', -, hback'⟩ := m.halves bed'
  constructor
  · intro hbed
    rw [hnext] at hbed
    cases hbed
    exact hback
  · intro hbed
    rw [hnext'] at hbed
    cases hbed
    exact hback'

/-- Nobody who sleeps in another bed is touched. -/
theorem State.Occupied.clear (h : s.Occupied m) (hsleeper : s.sleeperGUID bed = some guid) :
    ∀ bed' guid', (s.setSleeper m bed none).sleeperGUID bed' = some guid' ↔
      s.sleeperGUID bed' = some guid' ∧ guid' ≠ guid := by
  obtain ⟨next, hnext, -, -⟩ := m.halves bed
  intro bed' guid'
  rw [setSleeper_sleeper hnext]
  split
  · next hor =>
      have hsame : s.sleeperGUID bed' = some guid := by
        rcases hor with rfl | rfl
        · exact hsleeper
        · exact (h.halves bed bed' hnext).trans hsleeper
      refine iff_of_false (fun hnone => by cases hnone) ?_
      rintro ⟨hother, hne⟩
      exact hne (Option.some.inj (hother.symm.trans hsame))
  · next hnot =>
      refine (and_iff_left_of_imp fun hother heq => hnot ?_).symm
      rw [heq] at hother
      rcases h.single guid bed bed' hsleeper hother with rfl | hbed
      · exact .inl rfl
      · rw [hnext] at hbed
        exact .inr (Option.some.inj hbed).symm

theorem wakeUp_eq (hhouse : (m.house bed).isNone = false)
    (hsleeper : s.sleeperGUID bed = some guid) : s.wakeUp m bed =
      { s with
        sleeperGUID := (s.setSleeper m bed none).sleeperGUID
        bedSleepersMap := Function.update s.bedSleepersMap guid none
        regenerated := Function.update s.regenerated guid (s.regenerated guid + 1) } := by
  simp only [State.wakeUp, hhouse, hsleeper]
  rfl

theorem sleep_eq (hhouse : (m.house bed).isNone = false) (hsleeper : s.sleeperGUID bed = none) :
    s.sleep m bed guid = (true,
      { s with
        sleeperGUID := (s.setSleeper m bed (some guid)).sleeperGUID
        bedSleepersMap := Function.update s.bedSleepersMap guid (some bed)
        slept := Function.update s.slept guid (s.slept guid + 1) }) := by
  simp only [State.sleep, hhouse, hsleeper]
  rfl

/-- The sleeper of a bed wakes up, in both halves and in the map. -/
theorem State.Occupied.wakeUp (h : s.Occupied m) (bed : Bed) : (s.wakeUp m bed).Occupied m := by
  cases hhouse : (m.house bed).isNone with
  | true =>
      rw [State.wakeUp, hhouse]
      exact h
  | false =>
      obtain ⟨next, hnext, -, -⟩ := m.halves bed
      cases hsleeper : s.sleeperGUID bed with
      | some guid =>
          have hclear := h.clear hsleeper
          rw [wakeUp_eq hhouse hsleeper]
          refine ⟨fun bed₁ bed₂ hbed => ?_, fun guid' bed₁ bed₂ h₁ h₂ => ?_,
            fun guid' bed₁ hmap => ?_, fun guid' bed₁ h₁ => ?_, fun guid' => ?_⟩
          · apply Option.ext
            intro guid'
            refine (hclear bed₂ guid').trans (Iff.trans ?_ (hclear bed₁ guid').symm)
            rw [h.halves bed₁ bed₂ hbed]
          · exact h.single guid' bed₁ bed₂ ((hclear bed₁ guid').1 h₁).1
              ((hclear bed₂ guid').1 h₂).1
          · change Function.update s.bedSleepersMap guid none guid' = some bed₁ at hmap
            rw [Function.update_apply] at hmap
            split at hmap
            · cases hmap
            · next hne => exact (hclear bed₁ guid').2 ⟨h.mapped guid' bed₁ hmap, hne⟩
          · obtain ⟨hold, hne⟩ := (hclear bed₁ guid').1 h₁
            change Function.update s.bedSleepersMap guid none guid' ≠ none
            rw [Function.update_of_ne hne]
            exact h.sleeps guid' bed₁ hold
          · dsimp only
            have honce := h.once guid'
            by_cases heq : guid' = guid
            · subst heq
              rw [Option.isSome_iff_ne_none.2 (h.sleeps guid' bed hsleeper)] at honce
              rw [Function.update_self, Function.update_self]
              exact honce
            · rw [Function.update_of_ne heq, Function.update_of_ne heq]
              exact honce
      | none =>
          -- nobody is there to wake up
          have hsame : (s.setSleeper m bed none).sleeperGUID = s.sleeperGUID := by
            funext bed'
            rw [setSleeper_sleeper hnext]
            split
            · next hor =>
                rcases hor with rfl | rfl
                · exact hsleeper.symm
                · exact ((h.halves bed bed' hnext).trans hsleeper).symm
            · rfl
          have hwake : s.wakeUp m bed =
              { s with sleeperGUID := (s.setSleeper m bed none).sleeperGUID } := by
            simp only [State.wakeUp, hhouse, hsleeper]
            rfl
          rw [hwake, hsame]
          exact h

/-- A player who does not sleep takes a free bed. -/
theorem State.Occupied.sleep (h : s.Occupied m) (hhouse : (m.house bed).isNone = false)
    (hsleeper : s.sleeperGUID bed = none) (hawake : ∀ bed', s.sleeperGUID bed' ≠ some guid) :
    (s.sleep m bed guid).2.Occupied m := by
  obtain ⟨next, hnext, -, hback⟩ := m.halves bed
  have hset : ∀ bed' guid', (s.setSleeper m bed (some guid)).sleeperGUID bed' = some guid' ↔
      ((bed' = bed ∨ bed' = next) ∧ guid' = guid) ∨
        s.sleeperGUID bed' = some guid' ∧ guid' ≠ guid := by
    intro bed' guid'
    rw [setSleeper_sleeper hnext]
    split
    · next hor =>
        have hfree : s.sleeperGUID bed' = none := by
          rcases hor with rfl | rfl
          · exact hsleeper
          · exact (h.halves bed bed' hnext).trans hsleeper
        rw [hfree]
        constructor
        · exact fun heq => .inl ⟨hor, (Option.some.inj heq).symm⟩
        · rintro (⟨-, rfl⟩ | ⟨hnone, -⟩)
          · rfl
          · cases hnone
    · next hnot =>
        constructor
        · intro hother
          refine .inr ⟨hother, ?_⟩
          rintro rfl
          exact hawake bed' hother
        · rintro (⟨hor, -⟩ | ⟨hother, -⟩)
          · exact absurd hor hnot
          · exact hother
  have hnobody : s.bedSleepersMap guid = none := by
    by_contra hsome
    obtain ⟨bed', hbed'⟩ := Option.ne_none_iff_exists'.1 hsome
    exact hawake bed' (h.mapped guid bed' hbed')
  rw [sleep_eq hhouse hsleeper]
  refine ⟨fun bed₁ bed₂ hbed => ?_, fun guid' bed₁ bed₂ h₁ h₂ => ?_,
    fun guid' bed₁ hmap => ?_, fun guid' bed₁ h₁ => ?_, fun guid' => ?_⟩
  · have hhalf : (bed₂ = bed ∨ bed₂ = next) ↔ bed₁ = bed ∨ bed₁ = next := by
      constructor
      · rintro (rfl | rfl)
        · rw [m.next_iff, hnext] at hbed
          exact .inr (Option.some.inj hbed).symm
        · rw [m.next_iff, hback] at hbed
          exact .inl (Option.some.inj hbed).symm
      · rintro (rfl | rfl)
        · rw [hnext] at hbed
          exact .inr (Option.some.inj hbed).symm
        · rw [hback] at hbed
          exact .inl (Option.some.inj hbed).symm
    apply Option.ext
    intro guid'
    refine (hset bed₂ guid').trans (Iff.trans ?_ (hset bed₁ guid').symm)
    rw [hhalf, h.halves bed₁ bed₂ hbed]
  · rcases (hset bed₁ guid').1 h₁ with ⟨hor₁, heq⟩ | ⟨hold₁, hne⟩
    · rcases (hset bed₂ guid').1 h₂ with ⟨hor₂, -⟩ | ⟨-, hne⟩
      · rcases hor₁ with rfl | rfl
        · rcases hor₂ with rfl | rfl
          · exact .inl rfl
          · exact .inr hnext
        · rcases hor₂ with rfl | rfl
          · exact .inr hback
          · exact .inl rfl
      · exact absurd heq hne
    · rcases (hset bed₂ guid').1 h₂ with ⟨-, heq⟩ | ⟨hold₂, -⟩
      · exact absurd heq hne
      · exact h.single guid' bed₁ bed₂ hold₁ hold₂
  · change Function.update s.bedSleepersMap guid (some bed) guid' = some bed₁ at hmap
    rw [Function.update_apply] at hmap
    refine (hset bed₁ guid').2 ?_
    split at hmap
    · next heq =>
        cases hmap
        exact .inl ⟨.inl rfl, heq⟩
    · next hne => exact .inr ⟨h.mapped guid' bed₁ hmap, hne⟩
  · change Function.update s.bedSleepersMap guid (some bed) guid' ≠ none
    rcases (hset bed₁ guid').1 h₁ with ⟨-, rfl⟩ | ⟨hold, hne⟩
    · rw [Function.update_self]
      exact Option.some_ne_none bed
    · rw [Function.update_of_ne hne]
      exact h.sleeps guid' bed₁ hold
  · dsimp only
    have honce := h.once guid'
    by_cases heq : guid' = guid
    · subst heq
      rw [hnobody] at honce
      rw [Function.update_self, Function.update_self, honce]
      rfl
    · rw [Function.update_of_ne heq, Function.update_of_ne heq]
      exact honce

/-- The players, the houses and the dialogs are of no account. -/
theorem State.Occupied.of_eq (h : s.Occupied m) (hsleeper : s'.sleeperGUID = s.sleeperGUID)
    (hmap : s'.bedSleepersMap = s.bedSleepersMap) (hslept : s'.slept = s.slept)
    (hregenerated : s'.regenerated = s.regenerated) : s'.Occupied m := by
  refine ⟨?_, ?_, ?_, ?_, ?_⟩
  · rw [hsleeper]
    exact h.halves
  · rw [hsleeper]
    exact h.single
  · rw [hsleeper, hmap]
    exact h.mapped
  · rw [hsleeper, hmap]
    exact h.sleeps
  · rw [hmap, hslept, hregenerated]
    exact h.once

theorem State.Occupied.wakeAll (h : s.Occupied m) (beds : List Bed) :
    (s.wakeAll m beds).Occupied m := by
  induction beds generalizing s with
  | nil => exact h
  | cons bed beds ih =>
      rw [State.wakeAll, List.foldl_cons]
      split
      · exact ih (h.wakeUp bed)
      · exact ih h

theorem State.Occupied.useBed (h : s.Occupied m) (access : State.Access) (bed : Bed) (guid : Guid) :
    (s.useBed m access bed guid).Occupied m := by
  have htry : (s.trySleep m bed guid).2.Occupied m := by
    rw [State.trySleep]
    split
    · exact h
    · split
      · exact h
      · dsimp only
        split
        · exact h.wakeUp bed
        · exact h
  rw [State.useBed]
  split
  · dsimp only
    split
    · exact htry.of_eq rfl rfl rfl rfl
    · exact htry
  · exact h

theorem State.Occupied.setOwner (h : s.Occupied m) (house : House) (guid : Option Guid)
    (found : Bool) : (s.setOwner m house guid found).Occupied m := by
  rw [State.setOwner]
  split
  · exact h
  · have hloaded : ({ s with isLoaded := Function.update s.isLoaded house true } : State).Occupied m :=
      h.of_eq rfl rfl rfl rfl
    dsimp only
    split
    · split
      · exact (hloaded.wakeAll (m.bedsList house)).of_eq rfl rfl rfl rfl
      · exact h.of_eq rfl rfl rfl rfl
    · split
      · exact (hloaded.wakeAll (m.bedsList house)).of_eq rfl rfl rfl rfl
      · exact hloaded

/-! ### Runs -/

theorem answer_cases (m : BedMap) (s : State) (guid : Guid) (player : Player)
    (button choice : Nat) :
    (∃ bed, player = ⟨some bed, true⟩ ∧ button = 1 ∧ choice ∈ State.skills ∧
      (m.house bed).isNone = false ∧ s.sleeperGUID bed = none ∧
      s.answer m guid player button choice =
        (s.sleep m bed guid).2.setPlayer guid (some { player with window := false })) ∨
    s.answer m guid player button choice = s ∨
    s.answer m guid player button choice =
      s.setPlayer guid (some { bedItem := none, window := false }) := by
  obtain ⟨bedItem, window⟩ := player
  rw [State.answer]
  cases window with
  | false => exact .inr (.inl rfl)
  | true =>
      simp only [if_true]
      split
      · next hbutton =>
          cases bedItem with
          | none => exact .inr (.inr rfl)
          | some bed =>
              dsimp only
              cases hhouse : (m.house bed).isNone with
              | true =>
                  right
                  right
                  simp only [State.sleep, hhouse]
                  rfl
              | false =>
                  cases hsleeper : s.sleeperGUID bed with
                  | some other =>
                      right
                      right
                      simp only [State.sleep, hhouse, hsleeper]
                      rfl
                  | none =>
                      refine .inl ⟨bed, rfl, hbutton.1, hbutton.2, hhouse, hsleeper, ?_⟩
                      rw [sleep_eq hhouse hsleeper]
                      rfl
      · exact .inr (.inr rfl)

theorem State.Occupied.perform (h : s.Occupied m) (hkeeps : s.Keeps m event)
    (hr : s.perform m event = some s') : s'.Occupied m := by
  cases event with
  | login guid =>
      simp only [State.perform] at hr
      split at hr
      · cases hr
      · cases hr
        have hplayer : (s.setPlayer guid (some {})).Occupied m := h.of_eq rfl rfl rfl rfl
        rw [State.login]
        split
        · exact hplayer.wakeUp _
        · exact hplayer
  | logout guid =>
      cases hr
      exact h.of_eq rfl rfl rfl rfl
  | useBed access bed guid =>
      simp only [State.perform] at hr
      split at hr
      · cases hr
        exact h.useBed access bed guid
      · cases hr
  | answer guid button choice =>
      obtain ⟨player, hplayer, rfl⟩ := Option.map_eq_some_iff.1 hr
      rcases answer_cases m s guid player button choice with
        ⟨bed, rfl, hbutton, hchoice, hhouse, hsleeper, heq⟩ | heq | heq
      · rw [heq]
        have hawake := hkeeps bed hplayer hbutton hchoice
          (fun hnone => by rw [hnone] at hhouse; cases hhouse) hsleeper
        exact (h.sleep hhouse hsleeper hawake).of_eq rfl rfl rfl rfl
      · rw [heq]
        exact h
      · rw [heq]
        exact h.of_eq rfl rfl rfl rfl
  | setOwner house guid found =>
      cases hr
      exact h.setOwner house guid found

/-- A player who sleeps and takes another bed sleeps in both. -/
theorem State.Occupied.not_of_not_keeps (h : s.Occupied m) (hkeeps : ¬ s.Keeps m event)
    (hr : s.perform m event = some s') : ¬ s'.Occupied m := by
  cases event with
  | answer guid button choice =>
      simp only [State.Keeps, not_forall, not_not] at hkeeps
      obtain ⟨bed, hplayer, hbutton, hchoice, hhouse, hsleeper, bed', hsleeps⟩ := hkeeps
      obtain ⟨player, hplayer', rfl⟩ := Option.map_eq_some_iff.1 hr
      rw [hplayer] at hplayer'
      cases hplayer'
      have hhouse' : (m.house bed).isNone = false := by
        rw [← Option.not_isSome, Option.isSome_iff_ne_none.2 hhouse]
        rfl
      obtain ⟨next, hnext, -, -⟩ := m.halves bed
      have hnew : ∀ bed', (s.answer m guid ⟨some bed, true⟩ button choice).sleeperGUID bed' =
          (s.setSleeper m bed (some guid)).sleeperGUID bed' := by
        intro bed'
        simp only [State.answer, if_true, if_pos (And.intro hbutton hchoice),
          sleep_eq hhouse' hsleeper]
        rfl
      intro hoccupied
      have hfar : ¬ (bed' = bed ∨ bed' = next) := by
        rintro (rfl | rfl)
        · rw [hsleeper] at hsleeps
          cases hsleeps
        · rw [h.halves bed bed' hnext, hsleeper] at hsleeps
          cases hsleeps
      have hfirst := (hnew bed).trans (setSleeper_sleeper hnext (some guid) bed)
      rw [if_pos (.inl rfl)] at hfirst
      have hsecond := (hnew bed').trans (setSleeper_sleeper hnext (some guid) bed')
      rw [if_neg hfar, hsleeps] at hsecond
      rcases hoccupied.single guid bed bed' hfirst hsecond with rfl | hbed
      · exact hfar (.inl rfl)
      · rw [hnext] at hbed
        exact hfar (.inr (Option.some.inj hbed).symm)
  | _ => exact absurd trivial hkeeps

/-- In a run, the beds are occupied rightly in every state if and only if no player takes a bed while
he sleeps in one. -/
theorem beds_occupied_iff (events : List Event) (h : s.Occupied m)
    (hr : run (State.perform m) s events = some s') :
    Throughout (State.perform m) (State.Occupied m) s events ↔
      Allowed (State.perform m) (State.Keeps m) s events :=
  throughout_iff h (fun _ => id) (fun _ _ _ h hkeeps hs => h.perform hkeeps hs)
    (fun _ _ _ h hkeeps hs => h.not_of_not_keeps hkeeps hs) hr

namespace Sample

/-- The halves of a bed are an even number and the next one. -/
def otherHalf (n : Nat) : Nat := if n % 2 = 0 then n + 1 else n - 1

theorem otherHalf_spec (n : Nat) : otherHalf n ≠ n ∧ otherHalf (otherHalf n) = n := by
  rw [otherHalf, otherHalf]
  split
  · rw [if_neg (by omega)]
    omega
  · rw [if_pos (by omega)]
    omega

/-- Two beds in one house. -/
def rooms : BedMap where
  getNextBedItem bed := some (otherHalf bed)
  house _ := some 1
  bedsList _ := [0, 1, 2, 3]
  transformToFree _ := true
  halves bed := ⟨otherHalf bed, rfl, (otherHalf_spec bed).1, congrArg some (otherHalf_spec bed).2⟩

def allowed : State.Access := { isPremium := true, getHouseAccessLevel := fun _ => 3, found := true }

/-- Nobody sleeps yet. -/
def evening : State := { sleeperGUID := fun _ => none, bedSleepersMap := fun _ => none }

/-- A player takes one bed, and another one before he is kicked. -/
def twice : List Event :=
  [.login 7, .useBed allowed 0 7, .answer 7 1 2, .useBed allowed 2 7, .answer 7 1 2]

theorem evening_occupied : evening.Occupied rooms := by
  refine ⟨fun _ _ _ => rfl, ?_, ?_, ?_, fun _ => rfl⟩
  · exact fun guid bed bed' hbed => (by cases hbed)
  · exact fun guid bed hbed => (by cases hbed)
  · exact fun guid bed hbed => (by cases hbed)

theorem twice_occupied_iff : Throughout (State.perform rooms) (State.Occupied rooms) evening twice ↔
    Allowed (State.perform rooms) (State.Keeps rooms) evening twice :=
  beds_occupied_iff twice evening_occupied rfl

/-- He sleeps in both beds then, and the map has the second one only. -/
theorem two_beds : ¬ ∀ events : List Event,
    Throughout (State.perform rooms) (State.Occupied rooms) evening events := by
  intro hclaim
  have hsingle := (hclaim twice twice [] rfl _ rfl).single 7 0 2 rfl rfl
  exact absurd hsingle (by decide)

end Sample

end TibServer.Beds
