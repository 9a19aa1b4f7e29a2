import Mathlib.Tactic
import TibServer.Runs

/-!
The autosend timer (`outputmessage.cpp`): the protocols whose buffers are sent every ten
milliseconds, and the events of the scheduler that do it. Nothing records that an event is pending:
one is added when a protocol comes into the empty list, and by every event that finds the list not
empty. A list that is emptied and filled between two firings gets a second event.
-/

namespace TibServer.OutputMessagePool

open TibServer.Runs

variable {Protocol Message : Type} [DecidableEq Protocol]

/-- The pool, with the buffers of the protocols, what has been sent, and the number of `sendAll`
events in the scheduler. -/
structure Pool (Protocol Message : Type) where
  bufferedProtocols : List Protocol := []
  currentBuffer : Protocol → Option Message := fun _ => none
  sent : List (Protocol × Message) := []
  pending : Nat := 0

namespace Pool

variable (s : Pool Protocol Message)

def scheduleSendAll : Pool Protocol Message := { s with pending := s.pending + 1 }

/-- One turn of the loop of `sendAll`. -/
def sendBuffer (protocol : Protocol) : Pool Protocol Message :=
  match s.currentBuffer protocol with
  | none => s
  | some msg =>
      { s with
        currentBuffer := Function.update s.currentBuffer protocol none
        sent := s.sent ++ [(protocol, msg)] }

def sendAll : Pool Protocol Message :=
  let s := s.bufferedProtocols.foldl sendBuffer s
  if s.bufferedProtocols.isEmpty then s else s.scheduleSendAll

def addProtocolToAutosend (protocol : Protocol) : Pool Protocol Message :=
  let s := if s.bufferedProtocols.isEmpty then s.scheduleSendAll else s
  { s with bufferedProtocols := s.bufferedProtocols ++ [protocol] }

/-- The last protocol takes the place of the one that is removed. -/
def removeProtocolFromAutosend (protocol : Protocol) : Pool Protocol Message :=
  match s.bufferedProtocols.idxOf? protocol, s.bufferedProtocols.getLast? with
  | some i, some back =>
      { s with bufferedProtocols := (s.bufferedProtocols.set i back).dropLast }
  | _, _ => s

end Pool

/-! ### Runs -/

inductive Event (Protocol Message : Type)
  | add (protocol : Protocol)
  | remove (protocol : Protocol)
  /-- A protocol has something to send. -/
  | write (protocol : Protocol) (msg : Message)
  /-- An event of the scheduler fires. -/
  | fire

def Pool.perform (s : Pool Protocol Message) :
    Event Protocol Message → Option (Pool Protocol Message)
  | .add protocol => some (s.addProtocolToAutosend protocol)
  | .remove protocol => some (s.removeProtocolFromAutosend protocol)
  | .write protocol msg =>
      some { s with currentBuffer := Function.update s.currentBuffer protocol (some msg) }
  | .fire => if s.pending = 0 then none else some { s with pending := s.pending - 1 }.sendAll

/-! ### The timer -/

/-- At most one event is pending, and one is if a protocol is buffered. -/
structure Pool.Timed (s : Pool Protocol Message) : Prop where
  atMostOne : s.pending ≤ 1
  buffered : s.bufferedProtocols ≠ [] → s.pending = 1

/-- A protocol comes into the empty list only when no event is pending. -/
def Pool.Keeps (s : Pool Protocol Message) : Event Protocol Message → Prop
  | .add _ => s.bufferedProtocols = [] → s.pending = 0
  | _ => True

variable {s s' : Pool Protocol Message} {event : Event Protocol Message}

theorem sendBuffer_pending (protocol : Protocol) :
    (s.sendBuffer protocol).pending = s.pending ∧
      (s.sendBuffer protocol).bufferedProtocols = s.bufferedProtocols := by
  rw [Pool.sendBuffer]
  split
  · exact ⟨rfl, rfl⟩
  · exact ⟨rfl, rfl⟩

theorem foldl_sendBuffer (list : List Protocol) (s : Pool Protocol Message) :
    (list.foldl Pool.sendBuffer s).pending = s.pending ∧
      (list.foldl Pool.sendBuffer s).bufferedProtocols = s.bufferedProtocols := by
  induction list generalizing s with
  | nil => exact ⟨rfl, rfl⟩
  | cons protocol list ih =>
      obtain ⟨hpending, hbuffered⟩ := sendBuffer_pending (s := s) protocol
      obtain ⟨hpending', hbuffered'⟩ := ih (s.sendBuffer protocol)
      exact ⟨hpending'.trans hpending, hbuffered'.trans hbuffered⟩

/-- What is sent makes no difference: the event comes back if the list is not empty. -/
theorem sendAll_pending (s : Pool Protocol Message) :
    s.sendAll.bufferedProtocols = s.bufferedProtocols ∧
      s.sendAll.pending = s.pending + if s.bufferedProtocols = [] then 0 else 1 := by
  obtain ⟨hpending, hbuffered⟩ := foldl_sendBuffer s.bufferedProtocols s
  rw [Pool.sendAll, hbuffered]
  cases hlist : s.bufferedProtocols with
  | nil =>
      rw [List.isEmpty_nil, if_pos rfl, if_pos rfl]
      rw [hlist] at hpending hbuffered
      exact ⟨hbuffered, hpending⟩
  | cons protocol list =>
      rw [List.isEmpty_cons, if_neg Bool.false_ne_true, if_neg (List.cons_ne_nil protocol list)]
      rw [hlist] at hpending hbuffered
      exact ⟨hbuffered, congrArg (· + 1) hpending⟩

/-- A protocol that is removed leaves the events alone, and nothing behind in an empty list. -/
theorem removeProtocol_pending (protocol : Protocol) :
    (s.removeProtocolFromAutosend protocol).pending = s.pending ∧
      (s.bufferedProtocols = [] →
        (s.removeProtocolFromAutosend protocol).bufferedProtocols = []) := by
  rw [Pool.removeProtocolFromAutosend]
  split
  · next i back hfind hback =>
      refine ⟨rfl, fun hempty => ?_⟩
      rw [hempty] at hback
      cases hback
  · exact ⟨rfl, id⟩

theorem Pool.Timed.perform (h : s.Timed) (hkeeps : s.Keeps event)
    (hr : s.perform event = some s') : s'.Timed := by
  cases event with
  | add protocol =>
      cases hr
      rw [Pool.addProtocolToAutosend]
      cases hlist : s.bufferedProtocols with
      | nil =>
          have hpending : s.pending = 0 := hkeeps hlist
          exact ⟨by simp [Pool.scheduleSendAll, hpending],
            fun _ => by simp [Pool.scheduleSendAll, hpending]⟩
      | cons first list =>
          have hpending := h.buffered (by rw [hlist]; exact List.cons_ne_nil first list)
          exact ⟨le_of_eq hpending, fun _ => hpending⟩
  | remove protocol =>
      cases hr
      obtain ⟨hpending, hempty⟩ := removeProtocol_pending (s := s) protocol
      refine ⟨hpending ▸ h.atMostOne, fun hbuffered => ?_⟩
      rw [hpending]
      exact h.buffered fun hnone => hbuffered (hempty hnone)
  | write protocol msg =>
      cases hr
      exact ⟨h.atMostOne, h.buffered⟩
  | fire =>
      simp only [Pool.perform] at hr
      split at hr
      · cases hr
      · next hfires =>
          cases hr
          have hatMostOne := h.atMostOne
          obtain ⟨hbuffered, hpending⟩ :=
            sendAll_pending ({ s with pending := s.pending - 1 } : Pool Protocol Message)
          have hone : s.pending - 1 = 0 := by omega
          rw [hone, zero_add] at hpending
          refine ⟨?_, fun hsome => ?_⟩
          · rw [hone, hpending]
            split
            · exact Nat.zero_le 1
            · exact le_rfl
          · rw [hone] at hbuffered hsome ⊢
            rw [hpending, if_neg fun hnone => hsome (hbuffered.trans hnone)]

/-- The step that fails the condition makes a second event. -/
theorem not_timed_of_not_keeps (hkeeps : ¬ s.Keeps event)
    (hr : s.perform event = some s') : ¬ s'.Timed := by
  cases event with
  | add protocol =>
      obtain ⟨hempty, hpending⟩ := Classical.not_imp.1 hkeeps
      cases hr
      intro htimed
      have hatMostOne := htimed.atMostOne
      simp only [Pool.addProtocolToAutosend, hempty, List.isEmpty_nil, if_true,
        Pool.scheduleSendAll] at hatMostOne
      omega
  | remove protocol => exact absurd trivial hkeeps
  | write protocol msg => exact absurd trivial hkeeps
  | fire => exact absurd trivial hkeeps

/-- In a run, the timer is right in every state if and only if every step meets the condition. -/
theorem autosend_timed_iff (events : List (Event Protocol Message)) (h : s.Timed)
    (hr : run Pool.perform s events = some s') :
    Throughout Pool.perform Pool.Timed s events ↔ Allowed Pool.perform Pool.Keeps s events :=
  throughout_iff h (fun _ => id) (fun _ _ _ htimed => htimed.perform)
    (fun _ _ _ _ => not_timed_of_not_keeps) hr

namespace Sample

/-- One player logs out and another one in between two firings. -/
def relogin : List (Event Nat Nat) := [.add 1, .write 1 7, .fire, .remove 1, .fire, .add 2]

theorem relogin_timed_iff : Throughout Pool.perform Pool.Timed ({} : Pool Nat Nat) relogin ↔
    Allowed Pool.perform Pool.Keeps {} relogin :=
  autosend_timed_iff relogin ⟨Nat.zero_le 1, fun h => absurd rfl h⟩ rfl

/-- Without a firing between the two there are two events, and each of them goes on for ever. -/
theorem two_timers : ¬ ∀ events : List (Event Nat Nat),
    Throughout Pool.perform Pool.Timed ({} : Pool Nat Nat) events := by
  intro hclaim
  have hone := (hclaim [.add 1, .remove 1, .add 2] [.add 1, .remove 1, .add 2] [] rfl _ rfl).atMostOne
  exact absurd hone (by decide)

end Sample

end TibServer.OutputMessagePool
