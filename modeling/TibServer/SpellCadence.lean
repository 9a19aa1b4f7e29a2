import TibServer.SharedCounter

/-!
When the spells of a monster come up (`monster.cpp`). All spells share one counter of ticks; a spell
is admitted when its speed divides the ticks, and the ticks are reset when no spell has yet to reach
its speed. How far apart the admissions of a spell are depends on where the counter is reset.
-/

namespace TibServer.SpellCadence

/-! ### Spells and calls -/

/-- What the loader makes of a speed: an `int32_t` that is at least one. -/
abbrev Speed := {n : Nat // 0 < n ∧ n < 2 ^ 31}

structure SpellBlock where
  chance : Nat := 100
  speed : Speed
  range : Nat := 0
  isMelee : Bool := false

structure SummonBlock where
  name : String
  chance : Nat
  speed : Speed
  max : Nat

structure Monster where
  attackTicks : Nat := 0
  extraMeleeAttack : Bool := false
  lastMeleeAttack : Int := 0

/-- What a call of `doAttacking` finds: the monster's health, the distance to its target, and for
each spell the time and the number that is drawn. -/
structure Call where
  fleeing : Bool := false
  distance : Nat := 1
  now : Nat → Int := fun _ => 0
  roll : Nat → Nat := fun _ => 1

/-! ### The attack -/

/-- What `canUseSpell` returns and sets; `admitted` says that the tick test was passed. -/
structure Use where
  result : Bool
  inRange : Bool
  resetTicks : Bool
  lastMeleeAttack : Int
  admitted : Bool

def canUseSpell (m : Monster) (call : Call) (now : Int) (sb : SpellBlock) (interval : Nat)
    (resetTicks : Bool) : Use :=
  if sb.isMelee && call.fleeing then ⟨false, true, resetTicks, m.lastMeleeAttack, false⟩
  else
    let lastMeleeAttack := if m.extraMeleeAttack then now else m.lastMeleeAttack
    if !m.extraMeleeAttack && sb.isMelee && decide (now - m.lastMeleeAttack < 1500) then
      ⟨false, true, resetTicks, lastMeleeAttack, false⟩
    else if (!sb.isMelee || !m.extraMeleeAttack) && decide (sb.speed.val > m.attackTicks) then
      ⟨false, true, false, lastMeleeAttack, false⟩
    else if (!sb.isMelee || !m.extraMeleeAttack) &&
        decide (m.attackTicks % sb.speed.val ≥ interval) then
      -- already used this spell for this round
      ⟨false, true, resetTicks, lastMeleeAttack, false⟩
    else if sb.range != 0 && decide (call.distance > sb.range) then
      ⟨false, false, resetTicks, lastMeleeAttack, true⟩
    else ⟨true, true, resetTicks, lastMeleeAttack, true⟩

/-- The loop over the spells, from the one with index `k` on. -/
def attackLoop (call : Call) (interval : Nat) :
    Nat → List SpellBlock → Monster → Bool → Monster × Bool × List Bool
  | _, [], m, resetTicks => (m, resetTicks, [])
  | k, sb :: l, m, resetTicks =>
      let use := canUseSpell m call (call.now k) sb interval resetTicks
      let m := { m with lastMeleeAttack := use.lastMeleeAttack }
      let m :=
        if use.result && decide (sb.chance ≥ call.roll k) && sb.isMelee then
          { m with extraMeleeAttack := false }
        else m
      -- a melee swing that is out of reach
      let m := if !use.inRange && sb.isMelee then { m with extraMeleeAttack := true } else m
      let rest := attackLoop call interval (k + 1) l m use.resetTicks
      (rest.1, rest.2.1, use.admitted :: rest.2.2)

/-- `Monster::doAttacking`, with which spells passed the tick test. -/
def doAttacking (attackSpells : List SpellBlock) (m : Monster) (call : Call) (interval : Nat) :
    Monster × List Bool :=
  let m := { m with attackTicks := (m.attackTicks + interval) % 2 ^ 32 }
  let done := attackLoop call interval 0 attackSpells m (interval != 0)
  ((if done.2.1 then { done.1 with attackTicks := 0 } else done.1), done.2.2)

/-! ### The defense -/

/-- What a call of `onThinkDefense` finds: the monster's summons, and for each block the number that
is drawn and whether a summon could be created and placed. -/
structure Think where
  hasFollowPath : Bool := true
  summons : List String := []
  roll : Nat → Nat := fun _ => 1
  placed : Nat → Bool := fun _ => true

/-- The loop over the defense spells: whether the ticks may still be reset, and which spells passed
the tick test. -/
def defenseLoop (interval defenseTicks : Nat) : List SpellBlock → Bool → Bool × List Bool
  | [], resetTicks => (resetTicks, [])
  | sb :: l, resetTicks =>
      if sb.speed.val > defenseTicks then
        let rest := defenseLoop interval defenseTicks l false
        (rest.1, false :: rest.2)
      else
        let rest := defenseLoop interval defenseTicks l resetTicks
        (rest.1, decide (defenseTicks % sb.speed.val < interval) :: rest.2)

/-- The loop over the summons: whether the ticks may still be reset, and the monster's summons. -/
def summonLoop (maxSummons : Nat) (think : Think) (interval defenseTicks : Nat) :
    Nat → List SummonBlock → List String → Bool → Bool × List String
  | _, [], summons, resetTicks => (resetTicks, summons)
  | k, sb :: l, summons, resetTicks =>
      if sb.speed.val > defenseTicks then
        summonLoop maxSummons think interval defenseTicks (k + 1) l summons false
      else if summons.length ≥ maxSummons ∨ defenseTicks % sb.speed.val ≥ interval ∨
          summons.count sb.name ≥ sb.max ∨ sb.chance < think.roll k ∨ think.placed k = false then
        summonLoop maxSummons think interval defenseTicks (k + 1) l summons resetTicks
      else
        summonLoop maxSummons think interval defenseTicks (k + 1) l (summons ++ [sb.name]) resetTicks

/-- The monster's type, as far as its defense goes, and whether it is itself a summon. -/
structure Defense where
  defenseSpells : List SpellBlock
  summons : List SummonBlock := []
  maxSummons : Nat := 0
  isSummon : Bool := false

/-- `Monster::onThinkDefense`: the ticks that are left, and which spells passed the tick test. -/
def onThinkDefense (d : Defense) (think : Think) (defenseTicks interval : Nat) :
    Nat × List Bool :=
  let defenseTicks := (defenseTicks + interval) % 2 ^ 32
  let done := defenseLoop interval defenseTicks d.defenseSpells true
  let resetTicks :=
    if !d.isSummon && decide (think.summons.length < d.maxSummons) && think.hasFollowPath then
      (summonLoop d.maxSummons think interval defenseTicks 0 d.summons think.summons done.1).1
    else done.1
  (if resetTicks then 0 else defenseTicks, done.2)

/-! ### Runs -/

/-- A regular call, and the calls with no interval that come before it. -/
structure Round where
  extra : List Call := []
  regular : Call := {}

section Runs

variable (attackSpells : List SpellBlock) (interval : Nat)

def afterExtra (m : Monster) (extra : List Call) : Monster :=
  extra.foldl (fun m call => (doAttacking attackSpells m call 0).1) m

/-- The monster as the regular call of the round finds it. -/
def beforeRegular (m : Monster) (round : Round) : Monster :=
  afterExtra attackSpells m round.extra

def attackRun (m : Monster) (rounds : Nat → Round) : Nat → Monster
  | 0 => m
  | n + 1 =>
      (doAttacking attackSpells (beforeRegular attackSpells (attackRun m rounds n) (rounds n))
        (rounds n).regular interval).1

/-- Whether the regular call of round `n` admits the spell with index `k`. -/
def attackAdmits (m : Monster) (rounds : Nat → Round) (k n : Nat) : Prop :=
  (doAttacking attackSpells
    (beforeRegular attackSpells (attackRun attackSpells interval m rounds n) (rounds n))
    (rounds n).regular interval).2[k]? = some true

def defenseRun (d : Defense) (thinks : Nat → Think) : Nat → Nat
  | 0 => 0
  | n + 1 => (onThinkDefense d (thinks n) (defenseRun d thinks n) interval).1

def defenseAdmits (d : Defense) (thinks : Nat → Think) (k n : Nat) : Prop :=
  (onThinkDefense d (thinks n) (defenseRun interval d thinks n) interval).2[k]? = some true

end Runs

/-- After every call that admits the spell there is a next one, at least the speed and less than
twice the speed later: at the speed, or, with a reset in between, later by what the ticks were past a
multiple of it. -/
def Cadence (interval speed : Nat) (ticks : Nat → Nat) (reset admits : Nat → Prop) : Prop :=
  ∀ i, admits i → ∃ gap, speed ≤ gap * interval ∧ gap * interval < 2 * speed ∧
    admits (i + gap) ∧ (∀ j, 0 < j → j < gap → ¬admits (i + j)) ∧
    ((∀ j < gap, ¬reset (i + j)) ∧ gap * interval = speed ∨
      ∃ j < gap, reset (i + j) ∧ gap * interval = speed + ticks (i + j) % speed)

/-! ### The clock -/

/-- The ticks in the calls that follow each other, and after which calls they are reset. -/
structure Clock (interval : Nat) where
  ticks : Nat → Nat
  reset : Nat → Bool
  first : ticks 0 = interval
  next : ∀ n, ticks (n + 1) = if reset n then interval else ticks n + interval

namespace Clock

variable {interval speed : Nat}

/-- The tick test. -/
def Admits (c : Clock interval) (speed n : Nat) : Prop :=
  speed ≤ c.ticks n ∧ c.ticks n % speed < interval

theorem dvd_ticks (c : Clock interval) (n : Nat) : interval ∣ c.ticks n := by
  induction n with
  | zero =>
      rw [c.first]
  | succ n ih =>
      rw [c.next]
      split_ifs
      · exact dvd_rfl
      · exact Nat.dvd_add ih dvd_rfl

theorem ticks_pos (c : Clock interval) (h : 0 < interval) (n : Nat) : 0 < c.ticks n := by
  cases n with
  | zero =>
      rw [c.first]
      exact h
  | succ n =>
      rw [c.next]
      split_ifs <;> omega

/-- The clock in units of the interval. -/
def counter (c : Clock interval) (h : 0 < interval) : SharedCounter.Run where
  value n := c.ticks n / interval
  reset := c.reset
  next n := by
    rw [c.next]
    split_ifs
    · exact Nat.div_self h
    · exact Nat.add_div_right _ h

theorem ticks_eq (c : Clock interval) (h : 0 < interval) (n : Nat) :
    c.ticks n = (c.counter h).value n * interval := (Nat.div_mul_cancel (c.dvd_ticks n)).symm

theorem admits_iff (c : Clock interval) (h : 0 < interval) (m n : Nat) :
    c.Admits (m * interval) n ↔ m ∣ (c.counter h).value n := by
  unfold Admits
  have hpos := c.ticks_pos h n
  rw [c.ticks_eq h] at hpos ⊢
  rw [Nat.mul_mod_mul_right, Nat.mul_le_mul_right_iff h]
  constructor
  · rintro ⟨-, hlt⟩
    refine Nat.dvd_of_mod_eq_zero (Nat.eq_zero_of_not_pos fun hmod => ?_)
    exact absurd hlt (Nat.not_lt.mpr (Nat.le_mul_of_pos_left interval hmod))
  · intro hdvd
    refine ⟨Nat.le_of_dvd (Nat.pos_of_mul_pos_right hpos) hdvd, ?_⟩
    rw [Nat.mod_eq_zero_of_dvd hdvd, Nat.zero_mul]
    exact h

theorem cadence (c : Clock interval) (h : 0 < interval) (hspeed : 0 < speed)
    (hdvd : interval ∣ speed) (hreset : ∀ n, c.reset n = true → speed ≤ c.ticks n) :
    Cadence interval speed c.ticks (fun n => c.reset n = true) (c.Admits speed) := by
  obtain ⟨m, rfl⟩ := hdvd
  rw [Nat.mul_comm interval m] at *
  have hm : 0 < m := Nat.pos_of_mul_pos_right hspeed
  have hreaches : (c.counter h).Reaches m := fun n hn => by
    have hle := hreset n hn
    rw [c.ticks_eq h] at hle
    exact Nat.le_of_mul_le_mul_right hle h
  intro i hi
  rw [c.admits_iff h _] at hi
  obtain ⟨gap, hle, hlt, hnext, hbetween, hexact⟩ := SharedCounter.next_multiple hreaches hm hi
  refine ⟨gap, Nat.mul_le_mul_right _ hle, ?_, (c.admits_iff h _ _).mpr hnext,
    fun j hj hj' hadmits => hbetween j hj hj' ((c.admits_iff h _ _).mp hadmits), ?_⟩
  · rw [← Nat.mul_assoc]
    exact Nat.mul_lt_mul_of_pos_right hlt h
  · rcases hexact with ⟨hrunning, rfl⟩ | ⟨j, hj, hj', rfl⟩
    · exact .inl ⟨fun j hj => Bool.eq_false_iff.mp (hrunning j hj), rfl⟩
    · refine .inr ⟨j, hj, hj', ?_⟩
      rw [c.ticks_eq h, Nat.mul_mod_mul_right, Nat.add_mul]

end Clock

/-! ### The loops -/

section Loops

variable {m : Monster} {call : Call} {interval : Nat} {resetTicks : Bool} {now : Int}
  {sb : SpellBlock}

/-- What lets the ticks be reset after a spell was looked at, or not. -/
theorem canUseSpell_reset :
    ((canUseSpell m call now sb interval resetTicks).resetTicks = true → resetTicks = true) ∧
      ((canUseSpell m call now sb interval resetTicks).resetTicks = false →
        resetTicks = false ∨ m.attackTicks < sb.speed.val) := by
  unfold canUseSpell
  dsimp only
  split_ifs with _ _ hslow <;> simp_all

/-- A spell that is not a melee attack takes the tick test whatever else is the case. -/
theorem canUseSpell_admitted (hmelee : sb.isMelee = false) :
    ((canUseSpell m call now sb interval resetTicks).resetTicks = true →
      sb.speed.val ≤ m.attackTicks) ∧
    (canUseSpell m call now sb interval resetTicks).admitted =
      decide (sb.speed.val ≤ m.attackTicks ∧ m.attackTicks % sb.speed.val < interval) := by
  unfold canUseSpell
  dsimp only
  rw [hmelee]
  split_ifs <;> simp_all

/-- The loop keeps the ticks; it lets them be reset unless it looks at a spell with a greater speed,
and looks at every spell that is not a melee attack. -/
theorem attackLoop_spec (call : Call) (interval k : Nat) (l : List SpellBlock) (m : Monster)
    (resetTicks : Bool) :
    (attackLoop call interval k l m resetTicks).1.attackTicks = m.attackTicks ∧
    ((attackLoop call interval k l m resetTicks).2.1 = true →
      resetTicks = true ∧ ∀ sb ∈ l, sb.isMelee = false → sb.speed.val ≤ m.attackTicks) ∧
    ((attackLoop call interval k l m resetTicks).2.1 = false →
      resetTicks = false ∨ ∃ sb ∈ l, m.attackTicks < sb.speed.val) ∧
    ∀ (j : Nat) (sb : SpellBlock), l[j]? = some sb → sb.isMelee = false →
      (attackLoop call interval k l m resetTicks).2.2[j]? =
        some (decide (sb.speed.val ≤ m.attackTicks ∧ m.attackTicks % sb.speed.val < interval)) := by
  induction l generalizing k m resetTicks with
  | nil => exact ⟨rfl, fun h => ⟨h, by simp⟩, fun h => .inl h, by simp⟩
  | cons sb l ih =>
      rw [attackLoop]
      dsimp only
      generalize huse : canUseSpell m call (call.now k) sb interval resetTicks = use
      generalize hnext : (if (!use.inRange && sb.isMelee) = true then _ else _) = next
      have hticks : next.attackTicks = m.attackTicks := by
        rw [← hnext]
        split_ifs <;> rfl
      obtain ⟨hloop, hreset, hkept, hadmitted⟩ := ih (k + 1) next use.resetTicks
      rw [hticks] at hloop hreset hkept hadmitted
      have huseReset := @canUseSpell_reset m call interval resetTicks (call.now k) sb
      rw [huse] at huseReset
      refine ⟨hloop, fun h => ?_, fun h => ?_, fun j sb' hj hmelee => ?_⟩
      · obtain ⟨hused, hrest⟩ := hreset h
        refine ⟨huseReset.1 hused, fun sb' hsb' hmelee => ?_⟩
        rcases List.mem_cons.mp hsb' with rfl | hmem
        · have htest := @canUseSpell_admitted m call interval resetTicks (call.now k) sb' hmelee
          rw [huse] at htest
          exact htest.1 hused
        · exact hrest sb' hmem hmelee
      · rcases hkept h with hused | ⟨sb', hsb', hslow⟩
        · rcases huseReset.2 hused with hfalse | hslow
          · exact .inl hfalse
          · exact .inr ⟨sb, List.mem_cons_self, hslow⟩
        · exact .inr ⟨sb', List.mem_cons_of_mem _ hsb', hslow⟩
      · cases j with
        | zero =>
            obtain rfl : sb = sb' := Option.some.inj hj
            have htest := @canUseSpell_admitted m call interval resetTicks (call.now k) sb hmelee
            rw [huse] at htest
            exact congrArg some htest.2
        | succ j => exact hadmitted j sb' hj hmelee

/-- The ticks are raised by the interval, and reset unless a spell has yet to reach its speed. -/
theorem doAttacking_spec (attackSpells : List SpellBlock) (m : Monster) (call : Call)
    (interval : Nat) {ticks : Nat} (hticks : (m.attackTicks + interval) % 2 ^ 32 = ticks) :
    ((doAttacking attackSpells m call interval).1.attackTicks = ticks ∧
        (interval = 0 ∨ ∃ sb ∈ attackSpells, ticks < sb.speed.val) ∨
      (doAttacking attackSpells m call interval).1.attackTicks = 0 ∧ interval ≠ 0 ∧
        ∀ sb ∈ attackSpells, sb.isMelee = false → sb.speed.val ≤ ticks) ∧
    ∀ (j : Nat) (sb : SpellBlock), attackSpells[j]? = some sb → sb.isMelee = false →
      (doAttacking attackSpells m call interval).2[j]? =
        some (decide (sb.speed.val ≤ ticks ∧ ticks % sb.speed.val < interval)) := by
  obtain ⟨hloop, hreset, hkept, hadmitted⟩ := attackLoop_spec call interval 0 attackSpells
    { m with attackTicks := (m.attackTicks + interval) % 2 ^ 32 } (interval != 0)
  dsimp only at hloop hreset hkept hadmitted
  rw [hticks] at hloop hreset hkept hadmitted
  unfold doAttacking
  dsimp only
  rw [hticks]
  refine ⟨?_, hadmitted⟩
  split_ifs with hdone
  · obtain ⟨hne, hall⟩ := hreset hdone
    exact .inr ⟨rfl, bne_iff_ne.mp hne, hall⟩
  · refine .inl ⟨hloop, ?_⟩
    rcases hkept (Bool.eq_false_iff.mpr hdone) with hzero | hslow
    · exact .inl (by simpa using hzero)
    · exact .inr hslow

/-- The calls with no interval leave the ticks alone. -/
theorem afterExtra_ticks (attackSpells : List SpellBlock) {m : Monster}
    (hm : m.attackTicks < 2 ^ 32) (extra : List Call) :
    (afterExtra attackSpells m extra).attackTicks = m.attackTicks := by
  unfold afterExtra
  induction extra generalizing m with
  | nil => rfl
  | cons call extra ih =>
      have hsame : (doAttacking attackSpells m call 0).1.attackTicks = m.attackTicks := by
        rcases (doAttacking_spec attackSpells m call 0 (Nat.mod_eq_of_lt hm)).1 with
          ⟨hticks, -⟩ | ⟨-, hzero, -⟩
        · exact hticks
        · exact absurd rfl hzero
      rw [List.foldl_cons, ih (hsame ▸ hm), hsame]

end Loops

/-! ### The attack spells -/

section Attack

variable {attackSpells : List SpellBlock} {interval : Nat} {m : Monster} {rounds : Nat → Round}

/-- A round, by the ticks that its regular call works with. -/
theorem attackRun_round (h : 0 < interval ∧ interval < 2 ^ 31) {n ticks : Nat}
    (hlt : (attackRun attackSpells interval m rounds n).attackTicks < 2 ^ 31)
    (hticks : (attackRun attackSpells interval m rounds n).attackTicks + interval = ticks) :
    ((attackRun attackSpells interval m rounds (n + 1)).attackTicks = ticks ∧ ticks < 2 ^ 31 ∨
      (attackRun attackSpells interval m rounds (n + 1)).attackTicks = 0 ∧
        ∀ sb ∈ attackSpells, sb.isMelee = false → sb.speed.val ≤ ticks) ∧
    ∀ (k : Nat) (sb : SpellBlock), attackSpells[k]? = some sb → sb.isMelee = false →
      (attackAdmits attackSpells interval m rounds k n ↔
        sb.speed.val ≤ ticks ∧ ticks % sb.speed.val < interval) := by
  have hextra := afterExtra_ticks attackSpells (hlt.trans (by omega)) (rounds n).extra
  have hmod : ((beforeRegular attackSpells (attackRun attackSpells interval m rounds n)
      (rounds n)).attackTicks + interval) % 2 ^ 32 = ticks := by
    unfold beforeRegular
    rw [hextra, hticks]
    exact Nat.mod_eq_of_lt (by omega)
  obtain ⟨hafter, hadmitted⟩ := doAttacking_spec attackSpells _ (rounds n).regular interval hmod
  refine ⟨?_, fun k sb hk hmelee => ?_⟩
  · rcases hafter with ⟨hkept, hzero | ⟨sb, -, hslow⟩⟩ | ⟨hreset, -, hall⟩
    · exact absurd hzero h.1.ne'
    · exact .inl ⟨hkept, hslow.trans sb.speed.property.2⟩
    · exact .inr ⟨hreset, hall⟩
  · unfold attackAdmits
    rw [hadmitted k sb hk hmelee, Option.some.injEq, decide_eq_true_eq]

theorem attackRun_lt (h : 0 < interval ∧ interval < 2 ^ 31) (hm : m.attackTicks = 0) (n : Nat) :
    (attackRun attackSpells interval m rounds n).attackTicks < 2 ^ 31 := by
  induction n with
  | zero =>
      rw [attackRun, hm]
      omega
  | succ n ih =>
      rcases (attackRun_round h ih rfl).1 with ⟨hkept, hlt⟩ | ⟨hreset, -⟩
      · rw [hkept]
        exact hlt
      · rw [hreset]
        omega

/-- The clock of a run of attacks. -/
def attackClock (attackSpells : List SpellBlock) (rounds : Nat → Round)
    (h : 0 < interval ∧ interval < 2 ^ 31) (hm : m.attackTicks = 0) : Clock interval where
  ticks n := (attackRun attackSpells interval m rounds n).attackTicks + interval
  reset n := (attackRun attackSpells interval m rounds (n + 1)).attackTicks == 0
  first := by
    rw [attackRun, hm, Nat.zero_add]
  next n := by
    rcases (attackRun_round h (attackRun_lt h hm n) rfl).1 with ⟨hkept, -⟩ | ⟨hreset, -⟩
    · rw [hkept, if_neg]
      have hpos := h.1
      simp only [beq_iff_eq]
      omega
    · rw [hreset, if_pos (by rfl), Nat.zero_add]

theorem attack_cadence (h : 0 < interval ∧ interval < 2 ^ 31) (hm : m.attackTicks = 0) {k : Nat}
    {sb : SpellBlock} (hk : attackSpells[k]? = some sb) (hmelee : sb.isMelee = false)
    (hdvd : interval ∣ sb.speed.val) :
    Cadence interval sb.speed.val
      (fun n => (attackRun attackSpells interval m rounds n).attackTicks + interval)
      (fun n => (attackRun attackSpells interval m rounds (n + 1)).attackTicks = 0)
      (attackAdmits attackSpells interval m rounds k) := by
  have hreached : ∀ n, (attackRun attackSpells interval m rounds (n + 1)).attackTicks = 0 →
      sb.speed.val ≤ (attackRun attackSpells interval m rounds n).attackTicks + interval := by
    intro n hzero
    have hround := @attackRun_round attackSpells interval m rounds h n _ (attackRun_lt h hm n) rfl
    rcases hround.1 with ⟨hkept, -⟩ | ⟨-, hall⟩
    · have hpos := h.1
      omega
    · exact hall sb (List.mem_of_getElem? hk) hmelee
  have hcadence := (attackClock attackSpells rounds h hm).cadence h.1 sb.speed.property.1 hdvd
    fun n hn => hreached n (beq_iff_eq.mp hn)
  have hadmits : (attackClock attackSpells rounds h hm).Admits sb.speed.val =
      attackAdmits attackSpells interval m rounds k := by
    funext n
    exact propext ((attackRun_round h (attackRun_lt h hm n) rfl).2 k sb hk hmelee).symm
  have hreset : (fun n => (attackClock attackSpells rounds h hm).reset n = true) =
      fun n => (attackRun attackSpells interval m rounds (n + 1)).attackTicks = 0 := by
    funext n
    exact propext beq_iff_eq
  rw [hadmits, hreset] at hcadence
  exact hcadence

end Attack

/-! ### The defense spells -/

section Defending

variable {d : Defense} {interval : Nat} {thinks : Nat → Think}

theorem defenseLoop_spec (interval ticks : Nat) (l : List SpellBlock) (resetTicks : Bool) :
    ((defenseLoop interval ticks l resetTicks).1 = true →
      resetTicks = true ∧ ∀ sb ∈ l, sb.speed.val ≤ ticks) ∧
    ((defenseLoop interval ticks l resetTicks).1 = false →
      resetTicks = false ∨ ∃ sb ∈ l, ticks < sb.speed.val) ∧
    ∀ (j : Nat) (sb : SpellBlock), l[j]? = some sb →
      (defenseLoop interval ticks l resetTicks).2[j]? =
        some (decide (sb.speed.val ≤ ticks ∧ ticks % sb.speed.val < interval)) := by
  induction l generalizing resetTicks with
  | nil => exact ⟨fun h => ⟨h, by simp⟩, fun h => .inl h, by simp⟩
  | cons sb l ih =>
      rw [defenseLoop]
      split_ifs with hslow
      · obtain ⟨hreset, -, hadmitted⟩ := ih false
        refine ⟨fun h => absurd (hreset h).1 Bool.false_ne_true,
          fun _ => .inr ⟨sb, List.mem_cons_self, hslow⟩, fun j sb' hj => ?_⟩
        cases j with
        | zero =>
            obtain rfl : sb = sb' := Option.some.inj hj
            exact congrArg some (decide_eq_false fun h => absurd hslow (Nat.not_lt.mpr h.1)).symm
        | succ j => exact hadmitted j sb' hj
      · obtain ⟨hreset, hkept, hadmitted⟩ := ih resetTicks
        refine ⟨fun h => ⟨(hreset h).1, fun sb' hsb' => ?_⟩, fun h => ?_, fun j sb' hj => ?_⟩
        · rcases List.mem_cons.mp hsb' with rfl | hmem
          · exact Nat.not_lt.mp hslow
          · exact (hreset h).2 sb' hmem
        · rcases hkept h with hfalse | ⟨sb', hsb', hlt⟩
          · exact .inl hfalse
          · exact .inr ⟨sb', List.mem_cons_of_mem _ hsb', hlt⟩
        · cases j with
          | zero =>
              obtain rfl : sb = sb' := Option.some.inj hj
              exact congrArg some (decide_eq_decide.mpr (and_iff_right (Nat.not_lt.mp hslow)).symm)
          | succ j => exact hadmitted j sb' hj

theorem summonLoop_reset (maxSummons : Nat) (think : Think) (interval ticks k : Nat)
    (l : List SummonBlock) (summons : List String) (resetTicks : Bool) :
    ((summonLoop maxSummons think interval ticks k l summons resetTicks).1 = true →
      resetTicks = true) ∧
    ((summonLoop maxSummons think interval ticks k l summons resetTicks).1 = false →
      resetTicks = false ∨ ∃ sb ∈ l, ticks < sb.speed.val) := by
  induction l generalizing k summons resetTicks with
  | nil => exact ⟨id, .inl⟩
  | cons sb l ih =>
      rw [summonLoop]
      have hrest : ∀ {summons resetTicks},
          (summonLoop maxSummons think interval ticks (k + 1) l summons resetTicks).1 = false →
          resetTicks = false ∨ ∃ sb' ∈ sb :: l, ticks < sb'.speed.val := by
        intro summons resetTicks h
        rcases (ih (k + 1) summons resetTicks).2 h with hfalse | ⟨sb', hsb', hlt⟩
        · exact .inl hfalse
        · exact .inr ⟨sb', List.mem_cons_of_mem _ hsb', hlt⟩
      split_ifs with hslow
      · exact ⟨fun h => absurd ((ih (k + 1) summons false).1 h) Bool.false_ne_true,
          fun _ => .inr ⟨sb, List.mem_cons_self, hslow⟩⟩
      · exact ⟨(ih (k + 1) summons resetTicks).1, hrest⟩
      · exact ⟨(ih (k + 1) _ resetTicks).1, hrest⟩

/-- The ticks are raised by the interval, and reset unless a spell or a summon that is looked at has
yet to reach its speed. -/
theorem onThinkDefense_spec (d : Defense) (think : Think) {before interval ticks : Nat}
    (hticks : (before + interval) % 2 ^ 32 = ticks) :
    ((onThinkDefense d think before interval).1 = ticks ∧
        ((∃ sb ∈ d.defenseSpells, ticks < sb.speed.val) ∨ ∃ sb ∈ d.summons, ticks < sb.speed.val) ∨
      (onThinkDefense d think before interval).1 = 0 ∧
        ∀ sb ∈ d.defenseSpells, sb.speed.val ≤ ticks) ∧
    ∀ (j : Nat) (sb : SpellBlock), d.defenseSpells[j]? = some sb →
      (onThinkDefense d think before interval).2[j]? =
        some (decide (sb.speed.val ≤ ticks ∧ ticks % sb.speed.val < interval)) := by
  obtain ⟨hreset, hkept, hadmitted⟩ := defenseLoop_spec interval ticks d.defenseSpells true
  obtain ⟨hsummons, hsummons'⟩ := summonLoop_reset d.maxSummons think interval ticks 0 d.summons
    think.summons (defenseLoop interval ticks d.defenseSpells true).1
  have hslow : (defenseLoop interval ticks d.defenseSpells true).1 = false →
      ∃ sb ∈ d.defenseSpells, ticks < sb.speed.val := fun h =>
    (hkept h).resolve_left (Bool.noConfusion ·)
  unfold onThinkDefense
  dsimp only
  rw [hticks]
  refine ⟨?_, hadmitted⟩
  split_ifs with hlooked hdone hdone
  · exact .inr ⟨rfl, (hreset (hsummons hdone)).2⟩
  · refine .inl ⟨rfl, ?_⟩
    rcases hsummons' (Bool.eq_false_iff.mpr hdone) with hfalse | hlt
    · exact .inl (hslow hfalse)
    · exact .inr hlt
  · exact .inr ⟨rfl, (hreset hdone).2⟩
  · exact .inl ⟨rfl, .inl (hslow (Bool.eq_false_iff.mpr hdone))⟩

theorem defenseRun_round (h : 0 < interval ∧ interval < 2 ^ 31) {n ticks : Nat}
    (hlt : defenseRun interval d thinks n < 2 ^ 31)
    (hticks : defenseRun interval d thinks n + interval = ticks) :
    (defenseRun interval d thinks (n + 1) = ticks ∧ ticks < 2 ^ 31 ∨
      defenseRun interval d thinks (n + 1) = 0 ∧ ∀ sb ∈ d.defenseSpells, sb.speed.val ≤ ticks) ∧
    ∀ (k : Nat) (sb : SpellBlock), d.defenseSpells[k]? = some sb →
      (defenseAdmits interval d thinks k n ↔
        sb.speed.val ≤ ticks ∧ ticks % sb.speed.val < interval) := by
  have hmod : (defenseRun interval d thinks n + interval) % 2 ^ 32 = ticks := by
    rw [hticks]
    exact Nat.mod_eq_of_lt (by omega)
  obtain ⟨hafter, hadmitted⟩ := onThinkDefense_spec d (thinks n) hmod
  refine ⟨?_, fun k sb hk => ?_⟩
  · rcases hafter with ⟨hkept, ⟨sb, -, hslow⟩ | ⟨sb, -, hslow⟩⟩ | ⟨hreset, hall⟩
    · exact .inl ⟨hkept, hslow.trans sb.speed.property.2⟩
    · exact .inl ⟨hkept, hslow.trans sb.speed.property.2⟩
    · exact .inr ⟨hreset, hall⟩
  · unfold defenseAdmits
    rw [hadmitted k sb hk, Option.some.injEq, decide_eq_true_eq]

theorem defenseRun_lt (h : 0 < interval ∧ interval < 2 ^ 31) (n : Nat) :
    defenseRun interval d thinks n < 2 ^ 31 := by
  induction n with
  | zero => exact Nat.two_pow_pos 31
  | succ n ih =>
      rcases (defenseRun_round h ih rfl).1 with ⟨hkept, hlt⟩ | ⟨hreset, -⟩
      · rw [hkept]
        exact hlt
      · rw [hreset]
        omega

/-- The clock of a run of defenses. -/
def defenseClock (d : Defense) (thinks : Nat → Think) (h : 0 < interval ∧ interval < 2 ^ 31) :
    Clock interval where
  ticks n := defenseRun interval d thinks n + interval
  reset n := defenseRun interval d thinks (n + 1) == 0
  first := Nat.zero_add interval
  next n := by
    rcases (defenseRun_round h (defenseRun_lt h n) rfl).1 with ⟨hkept, -⟩ | ⟨hreset, -⟩
    · rw [hkept, if_neg]
      have hpos := h.1
      simp only [beq_iff_eq]
      omega
    · rw [hreset, if_pos (by rfl), Nat.zero_add]

theorem defense_cadence (h : 0 < interval ∧ interval < 2 ^ 31) {k : Nat} {sb : SpellBlock}
    (hk : d.defenseSpells[k]? = some sb) (hdvd : interval ∣ sb.speed.val) :
    Cadence interval sb.speed.val (fun n => defenseRun interval d thinks n + interval)
      (fun n => defenseRun interval d thinks (n + 1) = 0) (defenseAdmits interval d thinks k) := by
  have hreached : ∀ n, defenseRun interval d thinks (n + 1) = 0 →
      sb.speed.val ≤ defenseRun interval d thinks n + interval := by
    intro n hzero
    have hround := @defenseRun_round d interval thinks h n _ (defenseRun_lt h n) rfl
    rcases hround.1 with ⟨hkept, -⟩ | ⟨-, hall⟩
    · have hpos := h.1
      omega
    · exact hall sb (List.mem_of_getElem? hk)
  have hcadence := (defenseClock d thinks h).cadence h.1 sb.speed.property.1 hdvd
    fun n hn => hreached n (beq_iff_eq.mp hn)
  have hadmits : (defenseClock d thinks h).Admits sb.speed.val = defenseAdmits interval d thinks k := by
    funext n
    exact propext ((defenseRun_round h (defenseRun_lt h n) rfl).2 k sb hk).symm
  have hreset : (fun n => (defenseClock d thinks h).reset n = true) =
      fun n => defenseRun interval d thinks (n + 1) = 0 := by
    funext n
    exact propext beq_iff_eq
  rw [hadmits, hreset] at hcadence
  exact hcadence

end Defending

/-! ### The cadence -/

/-- In every run of attacks, and in every run of defenses, the calls that admit a spell are at least
its speed and less than twice its speed apart; they are its speed apart unless the ticks are reset in
between. -/
theorem spells_cadence (interval : Nat) (h : 0 < interval ∧ interval < 2 ^ 31) :
    (∀ (attackSpells : List SpellBlock) (m : Monster) (rounds : Nat → Round) (k : Nat)
      (sb : SpellBlock), m.attackTicks = 0 → attackSpells[k]? = some sb → sb.isMelee = false →
      interval ∣ sb.speed.val → Cadence interval sb.speed.val
        (fun n => (attackRun attackSpells interval m rounds n).attackTicks + interval)
        (fun n => (attackRun attackSpells interval m rounds (n + 1)).attackTicks = 0)
        (attackAdmits attackSpells interval m rounds k)) ∧
    ∀ (d : Defense) (thinks : Nat → Think) (k : Nat) (sb : SpellBlock),
      d.defenseSpells[k]? = some sb → interval ∣ sb.speed.val →
      Cadence interval sb.speed.val (fun n => defenseRun interval d thinks n + interval)
        (fun n => defenseRun interval d thinks (n + 1) = 0)
        (defenseAdmits interval d thinks k) :=
  ⟨fun _ _ _ _ _ hm hk hmelee hdvd => attack_cadence h hm hk hmelee hdvd,
    fun _ _ _ _ hk hdvd => defense_cadence h hk hdvd⟩

namespace Sample

/-- A fireball every three seconds and a wave every five. -/
def spells : List SpellBlock := [{ speed := ⟨3000, by decide⟩ }, { speed := ⟨5000, by decide⟩ }]

/-- The third and the eighth call admit the fireball, and none between them. -/
theorem fireball_late : ¬∀ (interval : Nat) (attackSpells : List SpellBlock) (rounds : Nat → Round)
    (k : Nat) (sb : SpellBlock), attackSpells[k]? = some sb → sb.isMelee = false →
    (∀ other ∈ attackSpells, interval ∣ other.speed.val) → ∀ i j, i < j →
    attackAdmits attackSpells interval {} rounds k i →
    attackAdmits attackSpells interval {} rounds k j →
    (∀ l, i < l → l < j → ¬attackAdmits attackSpells interval {} rounds k l) →
    (j - i) * interval ≤ sb.speed.val + interval := by
  intro h
  have hspeeds : ∀ other ∈ spells, 1000 ∣ other.speed.val := by decide
  have hbetween : ∀ l, 2 < l → l < 7 → ¬attackAdmits spells 1000 {} (fun _ => {}) 0 l := by
    intro l hl hl'
    obtain rfl | rfl | rfl | rfl : l = 3 ∨ l = 4 ∨ l = 5 ∨ l = 6 := by omega
    all_goals
      unfold attackAdmits
      decide
  have hgap := h 1000 spells (fun _ => {}) 0 _ rfl rfl hspeeds 2 7 (by decide)
    (by unfold attackAdmits; decide) (by unfold attackAdmits; decide) hbetween
  exact absurd hgap (by decide)

/-- The fireball comes up again and again, after three to five seconds. -/
theorem fireball_cadence : Cadence 1000 3000
    (fun n => (attackRun spells 1000 {} (fun _ => {}) n).attackTicks + 1000)
    (fun n => (attackRun spells 1000 {} (fun _ => {}) (n + 1)).attackTicks = 0)
    (attackAdmits spells 1000 {} (fun _ => {}) 0) :=
  (spells_cadence 1000 (by decide)).1 spells {} (fun _ => {}) 0 { speed := ⟨3000, by decide⟩ } rfl
    rfl rfl (by decide)

end Sample

end TibServer.SpellCadence
