import Mathlib.Data.List.Chain
import Mathlib.Logic.Function.Basic
import Mathlib.Tactic

/-!
How often an address may connect (`ban.h`, `ban.cpp`). The attempts of each address are
counted by themselves: bursts are cut off after six attempts and cost three seconds, a quarter
of a second more for every attempt before they are over, and who takes more than half a second
between two attempts is never refused.
-/

namespace TibServer.Ban

structure ConnectBlock where
  lastAttempt : Nat
  blockTime : Nat
  count : Nat
  deriving DecidableEq, Repr

/-- `acceptConnection`, on what is known of the address. -/
def attempt : Option ConnectBlock → Nat → Bool × ConnectBlock
  | none, currentTime => (true, ⟨currentTime, 0, 1⟩)
  | some connectBlock, currentTime =>
      if connectBlock.blockTime > currentTime then
        (false, { connectBlock with blockTime := connectBlock.blockTime + 250 })
      else
        let timeDiff : Int := currentTime - connectBlock.lastAttempt
        let connectBlock := { connectBlock with lastAttempt := currentTime }
        if timeDiff ≤ 5000 then
          if connectBlock.count + 1 > 5 then
            if timeDiff ≤ 500 then
              (false, { connectBlock with count := 0, blockTime := currentTime + 3000 })
            else (true, { connectBlock with count := 0 })
          else (true, { connectBlock with count := connectBlock.count + 1 })
        else (true, { connectBlock with count := 1 })

abbrev IpConnectMap := UInt32 → Option ConnectBlock

/-- `Ban::acceptConnection` -/
def acceptConnection (ipConnectMap : IpConnectMap) (clientip : UInt32) (currentTime : Nat) :
    Bool × IpConnectMap :=
  let answer := attempt (ipConnectMap clientip) currentTime
  (answer.1, Function.update ipConnectMap clientip (some answer.2))

/-! ### Runs -/

/-- The answers to attempts of several addresses. -/
def connect : IpConnectMap → List (UInt32 × Nat) → List (UInt32 × Bool)
  | _, [] => []
  | ipConnectMap, (ip, time) :: rest =>
      (ip, (acceptConnection ipConnectMap ip time).1) ::
        connect (acceptConnection ipConnectMap ip time).2 rest

/-- The answers to the attempts of one address. -/
def answers : Option ConnectBlock → List Nat → List Bool
  | _, [] => []
  | known, time :: rest => (attempt known time).1 :: answers (attempt known time).2 rest

/-- What is known of an address after its attempts. -/
def after (known : Option ConnectBlock) (times : List Nat) : Option ConnectBlock :=
  times.foldl (fun known time => some (attempt known time).2) known

/-- What belongs to one address. -/
def ofIp {β : Type} (ip : UInt32) (events : List (UInt32 × β)) : List β :=
  (events.filter fun e => e.1 == ip).map Prod.snd

/-- The attempts of other addresses make no difference. -/
theorem ofIp_connect (ip : UInt32) (ipConnectMap : IpConnectMap) (events : List (UInt32 × Nat)) :
    ofIp ip (connect ipConnectMap events) = answers (ipConnectMap ip) (ofIp ip events) := by
  induction events generalizing ipConnectMap with
  | nil => rfl
  | cons e events ih =>
      obtain ⟨ip', time⟩ := e
      rw [connect]
      by_cases same : ip' = ip
      · subst same
        have head {β : Type} (b : β) (l : List (UInt32 × β)) :
            ofIp ip' ((ip', b) :: l) = b :: ofIp ip' l := by simp [ofIp]
        rw [head, head, answers, ih]
        simp [acceptConnection]
      · have tail {β : Type} (b : β) (l : List (UInt32 × β)) :
            ofIp ip ((ip', b) :: l) = ofIp ip l := by simp [ofIp, same]
        rw [tail, tail, ih]
        simp [acceptConnection, Function.update_of_ne (Ne.symm same)]

/-! ### What one attempt does -/

variable {b : ConnectBlock} {t : Nat}

/-- The count stays at five or below. -/
def Counted (known : Option ConnectBlock) : Prop := ∀ b ∈ known, b.count ≤ 5

theorem Counted.attempt {known : Option ConnectBlock} (h : Counted known) (t : Nat) :
    Counted (some (Ban.attempt known t).2) := by
  intro b hb
  obtain rfl := Option.some.inj hb
  cases known with
  | none => exact (by decide : 1 ≤ 5)
  | some b =>
      have count := h b rfl
      unfold Ban.attempt
      simp only
      split_ifs
      all_goals
        simp only
        omega

theorem Counted.after {known : Option ConnectBlock} (h : Counted known) (times : List Nat) :
    Counted (Ban.after known times) := by
  induction times generalizing known with
  | nil => exact h
  | cons t times ih => exact ih (h.attempt t)

/-- An attempt that is let through is the last one, and is counted when it comes soon. -/
theorem attempt_accepted (h : (attempt (some b) t).1 = true) :
    (attempt (some b) t).2.lastAttempt = t ∧
      (t ≤ b.lastAttempt + 500 → (attempt (some b) t).2.count = b.count + 1) := by
  unfold attempt at h ⊢
  simp only at h ⊢
  split_ifs at h ⊢ with blocked soon many fast
  · exact ⟨rfl, fun quick => absurd quick (by omega)⟩
  · exact ⟨rfl, fun _ => rfl⟩
  · exact ⟨rfl, fun quick => absurd quick (by omega)⟩

/-- An attempt that is refused while nothing is blocked begins a block of three seconds. -/
theorem attempt_refused (unblocked : b.blockTime ≤ t) (h : (attempt (some b) t).1 = false) :
    (attempt (some b) t).2 = ⟨t, t + 3000, 0⟩ := by
  unfold attempt at h ⊢
  simp only at h ⊢
  split_ifs at h ⊢ with blocked soon many fast
  · omega
  · rfl

/-- An attempt before the end of a block puts it off. -/
theorem attempt_blocked (blocked : t < b.blockTime) :
    attempt (some b) t = (false, { b with blockTime := b.blockTime + 250 }) := if_pos blocked

/-! ### Bursts -/

/-- Every attempt comes within half a second of the one before it. -/
abbrev Burst (times : List Nat) : Prop := times.IsChain fun t t' => t' ≤ t + 500

/-- Every attempt comes more than half a second after the one before it. -/
abbrev Patient (times : List Nat) : Prop := times.IsChain fun t t' => t + 500 < t'

theorem burst_count {times : List Nat} (burst : (b.lastAttempt :: times).IsChain
      fun t t' => t' ≤ t + 500) (count : b.count ≤ 5)
    (h : false ∉ answers (some b) times) : b.count + times.length ≤ 5 := by
  induction times generalizing b with
  | nil => simpa using count
  | cons t times ih =>
      rw [answers, List.mem_cons, not_or] at h
      obtain ⟨first, rest⟩ := h
      have accepted : (attempt (some b) t).1 = true := by simpa using first
      obtain ⟨last, counted⟩ := attempt_accepted accepted
      obtain ⟨quick, burst⟩ := List.isChain_cons_cons.mp burst
      have known : Counted (some b) := by
        intro b' hb'
        obtain rfl := Option.some.inj hb'
        exact count
      have bound := known.attempt t _ rfl
      have more := ih (by rw [last]; exact burst) bound rest
      rw [counted quick] at more
      rw [List.length_cons]
      omega

/-- Of seven attempts in a burst one is refused. -/
theorem burst_refused {known : Option ConnectBlock} (counted : Counted known) {times : List Nat}
    (burst : Burst times) (seven : 7 ≤ times.length) : false ∈ answers known times := by
  by_contra h
  cases times with
  | nil => exact absurd seven (by decide)
  | cons t times =>
      rw [answers, List.mem_cons, not_or] at h
      obtain ⟨first, rest⟩ := h
      have accepted : (attempt known t).1 = true := by simpa using first
      have last : (attempt known t).2.lastAttempt = t := by
        cases known with
        | none => rfl
        | some b => exact (attempt_accepted accepted).1
      have bound := burst_count (b := (attempt known t).2) (by rw [last]; exact burst)
        (counted.attempt t _ rfl) rest
      rw [List.length_cons] at seven
      omega

/-! ### Blocks -/

/-- With nothing counted an attempt is refused only by a block. -/
theorem blocked_of_refused (none : b.count = 0) (h : (attempt (some b) t).1 = false) :
    t < b.blockTime := by
  unfold attempt at h
  simp only at h
  split_ifs at h with blocked soon many fast
  · exact blocked
  · omega

/-- While only refusals come back, each puts off the end of the block by a quarter second. -/
theorem block_end {times : List Nat} (none : b.count = 0)
    (refused : ∀ answer ∈ answers (some b) times, answer = false) {t' : Nat}
    (accepted : (attempt (after (some b) times) t').1 = true) :
    b.blockTime + 250 * times.length ≤ t' := by
  induction times generalizing b with
  | nil =>
      have unblocked : ¬t' < b.blockTime := by
        intro blocked
        rw [after, List.foldl_nil, attempt_blocked blocked] at accepted
        exact absurd accepted Bool.false_ne_true
      rw [List.length_nil]
      omega
  | cons t times ih =>
      rw [answers, List.forall_mem_cons] at refused
      have blocked := blocked_of_refused none refused.1
      have rest := refused.2
      rw [attempt_blocked blocked] at rest
      have next : after (some b) (t :: times) =
          after (some { b with blockTime := b.blockTime + 250 }) times := by
        rw [after, List.foldl_cons, attempt_blocked blocked]
        rfl
      rw [next] at accepted
      have later := ih (b := { b with blockTime := b.blockTime + 250 }) none rest accepted
      simp only at later
      rw [List.length_cons]
      omega

/-! ### Patience -/

theorem patient_accepted {times : List Nat} (unblocked : b.blockTime = 0)
    (patient : (b.lastAttempt :: times).IsChain fun t t' => t + 500 < t') :
    ∀ answer ∈ answers (some b) times, answer = true := by
  induction times generalizing b with
  | nil =>
      intro answer h
      exact absurd h List.not_mem_nil
  | cons t times ih =>
      obtain ⟨slow, patient⟩ := List.isChain_cons_cons.mp patient
      have through : (attempt (some b) t).1 = true ∧ (attempt (some b) t).2.blockTime = 0 := by
        unfold attempt
        simp only
        split_ifs with blocked soon many fast
        · omega
        · omega
        · exact ⟨rfl, unblocked⟩
        · exact ⟨rfl, unblocked⟩
        · exact ⟨rfl, unblocked⟩
      have last := (attempt_accepted through.1).1
      rw [answers, List.forall_mem_cons]
      exact ⟨through.1, ih through.2 (by rw [last]; exact patient)⟩

/-! ### The answers of a run -/

/-- In every run of attempts of any addresses each address is answered by its own attempts
alone; of seven in a burst one is refused; after a refusal that begins a block nothing is let
through for three seconds and a quarter for every attempt before; and who is patient is never
refused. -/
theorem connections_throttled (events : List (UInt32 × Nat)) (ip : UInt32) :
    ofIp ip (connect (fun _ => none) events) = answers none (ofIp ip events) ∧
      (∀ before burst, 7 ≤ burst.length → Burst burst →
        false ∈ answers (after none before) burst) ∧
      (∀ b t refused t', b.blockTime ≤ t →
        (attempt (some b) t).1 = false →
        (∀ answer ∈ answers (some (attempt (some b) t).2) refused, answer = false) →
        (attempt (after (some (attempt (some b) t).2) refused) t').1 = true →
        t + 3000 + 250 * refused.length ≤ t') ∧
      ∀ times, Patient times → ∀ answer ∈ answers none times, answer = true := by
  refine ⟨ofIp_connect ip _ events, ?_, ?_, ?_⟩
  · intro before burst seven chain
    have start : Counted none := fun b hb => absurd hb (by simp)
    exact burst_refused (start.after before) chain seven
  · intro b t refused t' unblocked first rest accepted
    rw [attempt_refused unblocked first] at rest accepted
    exact block_end rfl rest accepted
  · intro times patient
    cases times with
    | nil =>
        intro answer h
        exact absurd h List.not_mem_nil
    | cons t times =>
        rw [answers, List.forall_mem_cons]
        exact ⟨rfl, patient_accepted (b := ⟨t, 0, 1⟩) rfl patient⟩

end TibServer.Ban
