import TibServer.Condition
import TibServer.Experience
import TibServer.Thresholds

/-!
The training of skills and of the magic level (`player.cpp`): tries and mana spent, online and
offline.

The three functions are written three times in the source, with one loop. What a level asks for is
computed in floating point and kept, once for each level: it is a parameter here, and so is what
scripts make of the tries. What the player is told, and the scripts of an advance, are left out.
-/

namespace TibServer.Training

open Experience (getPercentLevel)

/-- A skill, or the magic level with the mana spent. -/
structure Counter (w : Nat) where
  level : BitVec w
  tries : BitVec 64 := 0
  percent : BitVec 8 := 0
  deriving DecidableEq, Repr

/-- What a loop over the levels leaves, and whether it went over one. -/
structure Run (w : Nat) where
  counter : Counter w
  count : BitVec 64
  curr : BitVec 64
  next : BitVec 64
  levelled : Bool

variable {w : Nat}

/-- The loop over the levels; the percentage is reset at a new level of a skill only. -/
def loop (req : BitVec w → BitVec 64) (resets : Bool) (s : Counter w)
    (count curr next : BitVec 64) : Run w :=
  if next ≤ s.tries + count then
    let raised : Counter w :=
      { level := s.level + 1, tries := 0, percent := if resets then 0 else s.percent }
    let next' := req (raised.level + 1)
    -- the last level is reached, and the rest is lost
    if next' ≤ next then ⟨raised, 0, next, next', true⟩
    else { loop req resets raised (count - (next - s.tries)) next next' with levelled := true }
  else ⟨s, count, curr, next, false⟩
  termination_by 2 ^ 64 - next.toNat
  decreasing_by
    rename_i hnext
    have hlt : next.toNat < (req (s.level + 1 + 1)).toNat := Nat.lt_of_not_le hnext
    have := (req (s.level + 1 + 1)).isLt
    omega

/-- What is left is added to the tries. -/
def Run.finish (run : Run w) : Counter w :=
  let tries := run.counter.tries + run.count
  { run.counter with
    tries
    percent := if run.curr < run.next then getPercentLevel tries run.next else 0 }

namespace Counter

variable (req : BitVec w → BitVec 64) (event : BitVec 64 → BitVec 64)

def addSkillAdvance (s : Counter w) (count : BitVec 64) : Counter w :=
  let currReqTries := req s.level
  let nextReqTries := req (s.level + 1)
  if nextReqTries ≤ currReqTries then s
  else
    let count := event count
    if count = 0 then s else (loop req true s count currReqTries nextReqTries).finish

/-- Where the loop reaches the last level, the function returns from it. -/
def addManaSpent (notGainMana : Bool) (s : Counter w) (amount : BitVec 64) : Counter w :=
  if notGainMana then s
  else
    let currReqMana := req s.level
    let nextReqMana := req (s.level + 1)
    if nextReqMana ≤ currReqMana then s
    else
      let amount := event amount
      if amount = 0 then s
      else
        let run := loop req false s amount currReqMana nextReqMana
        if run.next ≤ run.curr then run.counter else run.finish

/-- The two branches of `addOfflineTrainingTries`, and whether there is something to tell. -/
def addOfflineTries (resets : Bool) (s : Counter w) (tries : BitVec 64) : Counter w × Bool :=
  let currReq := req s.level
  let nextReq := req (s.level + 1)
  if nextReq ≤ currReq then (s, false)
  else
    let run := loop req resets s (event tries) currReq nextReq
    (run.finish, run.levelled || run.counter.percent != run.finish.percent)

end Counter

/-! ### The player -/

structure Vocation where
  getReqSkillTries : Skill → BitVec 16 → BitVec 64
  getReqMana : BitVec 32 → BitVec 64

structure Player where
  skills : Skill → Counter 16
  /-- `magLevel`, `manaSpent` and `magLevelPercent`. -/
  magic : Counter 32
  /-- `PlayerFlag_NotGainMana`. -/
  notGainMana : Bool := false

/-- What can be trained; `level` is only asked for. -/
inductive Trained
  | skill (skill : Skill)
  | magLevel
  | level
  deriving DecidableEq

/-- The script of the event `onGainSkillTries`. -/
structure Events where
  onGainSkillTries : Trained → BitVec 64 → BitVec 64 := fun _ tries => tries

namespace Player

variable (events : Events) (v : Vocation) (p : Player)

def addSkillAdvance (skill : Skill) (count : BitVec 64) : Player :=
  let trained := (p.skills skill).addSkillAdvance (v.getReqSkillTries skill)
    (events.onGainSkillTries (.skill skill)) count
  { p with skills := Function.update p.skills skill trained }

def addManaSpent (amount : BitVec 64) : Player :=
  let magic := p.magic.addManaSpent v.getReqMana (events.onGainSkillTries .magLevel)
    p.notGainMana amount
  { p with magic }

def addOfflineTrainingTries (trained : Trained) (tries : BitVec 64) : Player × Bool :=
  if tries = 0 then (p, false)
  else
    match trained with
    | .level => (p, false)
    | .magLevel =>
        let (magic, sendUpdate) := p.magic.addOfflineTries v.getReqMana
          (events.onGainSkillTries .magLevel) false tries
        ({ p with magic }, sendUpdate)
    | .skill skill =>
        let (trained, sendUpdate) := (p.skills skill).addOfflineTries (v.getReqSkillTries skill)
          (events.onGainSkillTries (.skill skill)) true tries
        ({ p with skills := Function.update p.skills skill trained }, sendUpdate)

end Player

end TibServer.Training
