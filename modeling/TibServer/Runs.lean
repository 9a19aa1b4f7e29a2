import Mathlib.Tactic

/-!
Runs of a system that takes one step for each event. A property that the allowed steps keep and all
other steps break holds in every state of a run if and only if every step of it is allowed.
-/

namespace TibServer.Runs

variable {σ ε : Type} (step : σ → ε → Option σ)

/-- The state after these events, if they can happen. -/
def run (s : σ) : List ε → Option σ
  | [] => some s
  | event :: events => (step s event).bind fun s => run s events

/-- The property holds in every state of the run. -/
def Throughout (P : σ → Prop) (s : σ) (events : List ε) : Prop :=
  ∀ done rest, events = done ++ rest → ∀ t, run step s done = some t → P t

/-- Every step of the run is allowed. -/
def Allowed (A : σ → ε → Prop) (s : σ) (events : List ε) : Prop :=
  ∀ done event rest, events = done ++ event :: rest → ∀ t, run step s done = some t → A t event

variable {step} {P : σ → Prop} {A : σ → ε → Prop} {s s' : σ} {event : ε} {events : List ε}

theorem Allowed.tail (h : Allowed step A s (event :: events)) (hs : step s event = some s') :
    Allowed step A s' events := by
  intro done next rest hevents t ht
  refine h (event :: done) next rest (by rw [hevents]; rfl) t ?_
  rw [run, hs]
  exact ht

theorem Allowed.head (h : Allowed step A s (event :: events)) : A s event :=
  h [] event events rfl s rfl

/-- What the allowed steps keep holds after them. -/
theorem Allowed.run (h : Allowed step A s events) (hP : P s)
    (keeps : ∀ s event s', P s → A s event → step s event = some s' → P s')
    (hr : run step s events = some s') : P s' := by
  induction events generalizing s with
  | nil =>
      cases hr
      exact hP
  | cons event events ih =>
      obtain ⟨t, ht, hrest⟩ := Option.bind_eq_some_iff.1 hr
      exact ih (h.tail ht) (keeps s event t hP h.head ht) hrest

/-- Where the allowed steps always have a result, so has a run of them. -/
theorem Allowed.completes (h : Allowed step A s events) (hP : P s)
    (keeps : ∀ s event, P s → A s event → ∃ s', step s event = some s' ∧ P s') :
    ∃ s', Runs.run step s events = some s' ∧ P s' := by
  induction events generalizing s with
  | nil => exact ⟨s, rfl, hP⟩
  | cons event events ih =>
      obtain ⟨t, ht, hPt⟩ := keeps s event hP h.head
      obtain ⟨s', hs', hPs'⟩ := ih (h.tail ht) hPt
      refine ⟨s', ?_, hPs'⟩
      rw [Runs.run, ht]
      exact hs'

theorem Allowed.nil : Allowed step A s [] := by
  intro done event rest hevents
  exact absurd hevents.symm (by simp)

theorem Allowed.cons (first : A s event) (later : ∀ t, step s event = some t →
    Allowed step A t events) : Allowed step A s (event :: events) := by
  intro done next rest hevents u hu
  cases done with
  | nil =>
      obtain ⟨rfl, -⟩ := List.cons.inj hevents
      cases hu
      exact first
  | cons event' done =>
      obtain ⟨rfl, hrest⟩ := List.cons.inj hevents
      obtain ⟨t, ht, hu⟩ := Option.bind_eq_some_iff.1 hu
      exact later t ht done next rest hrest u hu

/-- Whether every step of the run is allowed. -/
def check (step : σ → ε → Option σ) (A : σ → ε → Prop) [∀ s event, Decidable (A s event)] (s : σ) :
    List ε → Bool
  | [] => true
  | event :: events => decide (A s event) && (step s event).all fun t => check step A t events

theorem Allowed.of_check [∀ s event, Decidable (A s event)] (h : check step A s events = true) :
    Allowed step A s events := by
  induction events generalizing s with
  | nil => exact Allowed.nil
  | cons event events ih =>
      rw [check, Bool.and_eq_true, decide_eq_true_eq] at h
      refine Allowed.cons h.1 fun t ht => ih ?_
      have later := h.2
      rwa [ht] at later

theorem Allowed.throughout (h : Allowed step A s events) (hP : P s)
    (keeps : ∀ s event s', P s → A s event → step s event = some s' → P s') :
    Throughout step P s events := by
  intro done rest hevents t ht
  refine Allowed.run (fun before event after hdone u hu => ?_) hP keeps ht
  exact h before event (after ++ rest) (by rw [hevents, hdone]; simp) u hu

/-- Where the first step that is not allowed breaks a property, all steps are allowed in a run that
keeps it. -/
theorem Throughout.steps {I : σ → Prop} (h : Throughout step P s events) (hI : I s)
    (keeps : ∀ s event s', I s → A s event → step s event = some s' → I s')
    (breaks : ∀ s event s', I s → ¬ A s event → step s event = some s' → ¬ P s')
    (hr : run step s events = some s') : Allowed step A s events := by
  induction events generalizing s with
  | nil =>
      intro done event rest hevents
      exact absurd hevents.symm (by simp)
  | cons event events ih =>
      obtain ⟨t, ht, hrest⟩ := Option.bind_eq_some_iff.1 hr
      have hlater : Throughout step P t events := by
        intro done rest hevents u hu
        refine h (event :: done) rest (by rw [hevents]; rfl) u ?_
        rw [run, ht]
        exact hu
      have hallowed : A s event := by
        by_contra hnot
        exact breaks s event t hI hnot ht (hlater [] events rfl t rfl)
      intro done next rest hevents u hu
      cases done with
      | nil =>
          obtain ⟨rfl, -⟩ := List.cons.inj hevents
          cases hu
          exact hallowed
      | cons first done =>
          obtain ⟨rfl, hrest'⟩ := List.cons.inj hevents
          rw [run, ht] at hu
          exact ih hlater (keeps s event t hI hallowed ht) hrest done next rest hrest' u hu

/-- The allowed steps keep an invariant that has the property, and the others break the property. -/
theorem throughout_iff {I : σ → Prop} (hI : I s) (himp : ∀ s, I s → P s)
    (keeps : ∀ s event s', I s → A s event → step s event = some s' → I s')
    (breaks : ∀ s event s', I s → ¬ A s event → step s event = some s' → ¬ P s')
    (hr : run step s events = some s') :
    Throughout step P s events ↔ Allowed step A s events := by
  refine ⟨fun h => h.steps hI keeps breaks hr, fun h => ?_⟩
  intro done rest hevents t ht
  exact himp t (h.throughout hI keeps done rest hevents t ht)

end TibServer.Runs
