import Mathlib

/-! Runs of a deterministic system.
A run folds a step function over a list of events. A condition may be asked of every event
in the state that meets it; an invariant that survives such events survives the run.
-/

namespace PerpDex

section Run

variable {σ ε : Type} (step : σ → ε → σ)

/-- A condition on every event of a run, in the state that meets it. -/
def Along (condition : σ → ε → Prop) : σ → List ε → Prop
  | _, [] => True
  | state, event :: rest => condition state event ∧ Along condition (step state event) rest

instance Along.decidable (condition : σ → ε → Prop)
    [∀ state event, Decidable (condition state event)] :
    ∀ state events, Decidable (Along step condition state events)
  | _, [] => inferInstanceAs (Decidable True)
  | state, event :: rest =>
      @instDecidableAnd _ _ _ (Along.decidable condition (step state event) rest)

/-- What every step preserves, every run preserves. -/
theorem run_invariant {step : σ → ε → σ} (invariant : σ → Prop)
    (preserves : ∀ state event, invariant state → invariant (step state event)) {state : σ}
    (initial : invariant state) (events : List ε)
    : invariant (events.foldl step state) := by
  induction events generalizing state with
  | nil => exact initial
  | cons event rest ih => exact ih (preserves state event initial)

/-- What one step preserves under a condition, a run under that condition preserves. -/
theorem Along.invariant {step : σ → ε → σ} {condition : σ → ε → Prop} {invariant : σ → Prop}
    (preserves
      : ∀ state event, invariant state → condition state event → invariant (step state event))
    {state : σ} {events : List ε} (along : Along step condition state events)
    (initial : invariant state)
    : invariant (events.foldl step state) := by
  induction events generalizing state with
  | nil => exact initial
  | cons event rest ih => exact ih along.2 (preserves state event initial along.1)

/-- A condition that keeps an invariant, and with it gives a second one, gives the second one
along the run.
-/
theorem Along.imp_of_invariant {step : σ → ε → σ} {first second : σ → ε → Prop}
    {invariant : σ → Prop}
    (preserves
      : ∀ state event, invariant state → first state event → invariant (step state event))
    (gives : ∀ state event, invariant state → first state event → second state event)
    {state : σ} {events : List ε} (along : Along step first state events)
    (initial : invariant state)
    : Along step second state events := by
  induction events generalizing state with
  | nil => trivial
  | cons event rest ih =>
      exact ⟨gives state event initial along.1,
        ih along.2 (preserves state event initial along.1)⟩

/-- A condition along a run holds along the front of the run. -/
theorem Along.front {step : σ → ε → σ} {condition : σ → ε → Prop} {state : σ}
    {front events : List ε} (along : Along step condition state events)
    (isFront : front <+: events)
    : Along step condition state front := by
  induction front generalizing state events with
  | nil => trivial
  | cons event rest ih =>
      obtain ⟨others, rfl⟩ := isFront
      exact ⟨along.1, ih along.2 (List.prefix_append rest others)⟩

/-- A condition along a run in two parts. -/
theorem Along.append_iff {step : σ → ε → σ} {condition : σ → ε → Prop} {state : σ}
    {front back : List ε}
    : Along step condition state (front ++ back)
      ↔ Along step condition state front ∧ Along step condition (front.foldl step state) back := by
  induction front generalizing state with
  | nil => exact ⟨fun along => ⟨trivial, along⟩, fun both => both.2⟩
  | cons event rest ih =>
      constructor
      · intro along
        obtain ⟨first, last⟩ := ih.mp along.2
        exact ⟨⟨along.1, first⟩, last⟩
      · intro both
        exact ⟨both.1.1, ih.mpr ⟨both.1.2, both.2⟩⟩

/-- Two conditions along the same run. -/
theorem Along.and {step : σ → ε → σ} {first second : σ → ε → Prop} {state : σ}
    {events : List ε} (left : Along step first state events)
    (right : Along step second state events)
    : Along step (fun state event => first state event ∧ second state event) state events := by
  induction events generalizing state with
  | nil => trivial
  | cons event rest ih => exact ⟨⟨left.1, right.1⟩, ih left.2 right.2⟩

/-- What a measure of single steps adds up to along a run. -/
def sumAlong (measure : σ → ε → Int) : σ → List ε → Int
  | _, [] => 0
  | state, event :: rest => measure state event + sumAlong measure (step state event) rest

/-- The potential method: where every step costs at most what the potential drops by and what
is credited for it, a run costs at most the potential it starts with and its credits.
-/
theorem sumAlong_le {step : σ → ε → σ} {condition : σ → ε → Prop} {invariant : σ → Prop}
    {cost credit : σ → ε → Int} {potential : σ → Int}
    (preserves : ∀ state event, invariant state → invariant (step state event))
    (nonneg : ∀ state, invariant state → 0 ≤ potential state)
    (pays
      : ∀ state event, invariant state → condition state event
        → cost state event + potential (step state event) ≤ potential state + credit state event)
    {state : σ} {events : List ε} (along : Along step condition state events)
    (initial : invariant state)
    : sumAlong step cost state events ≤ potential state + sumAlong step credit state events := by
  induction events generalizing state with
  | nil => simpa [sumAlong] using nonneg state initial
  | cons event rest ih =>
      have first := pays state event initial along.1
      have later := ih along.2 (preserves state event initial)
      simp only [sumAlong]
      omega

/-- Two conditions that agree in every state of an invariant agree along every run from one. -/
theorem Along.congr {step : σ → ε → σ} {first second : σ → ε → Prop} {invariant : σ → Prop}
    (preserves : ∀ state event, invariant state → invariant (step state event))
    (same : ∀ state event, invariant state → (first state event ↔ second state event))
    {state : σ} (initial : invariant state) (events : List ε)
    : Along step first state events ↔ Along step second state events := by
  induction events generalizing state with
  | nil => exact Iff.rfl
  | cons event rest ih =>
      exact and_congr (same state event initial) (ih (preserves state event initial))

/-- Where a condition is exactly what an invariant needs to survive a step that meets a
premise, it holds along a run that meets the premise exactly if the invariant holds in every
state of the run.
-/
theorem Along.states_iff_under {step : σ → ε → σ} {premise condition : σ → ε → Prop}
    {invariant : σ → Prop}
    (exact_step
      : ∀ state event, premise state event → invariant state
        → (invariant (step state event) ↔ condition state event))
    {state : σ} (initial : invariant state) {events : List ε}
    (under : Along step premise state events)
    : (∀ front, front <+: events → invariant (front.foldl step state))
      ↔ Along step condition state events := by
  induction events generalizing state with
  | nil =>
      refine ⟨fun _ => trivial, fun _ front isFront => ?_⟩
      rw [List.prefix_nil.mp isFront]
      exact initial
  | cons event rest ih =>
      have survives := exact_step state event under.1 initial
      constructor
      · intro holds
        have next : invariant (step state event) :=
          holds [event] (List.cons_prefix_cons.mpr ⟨rfl, List.nil_prefix⟩)
        refine ⟨survives.mp next, (ih next under.2).mp (fun front isFront => ?_)⟩
        exact holds (event :: front) (List.cons_prefix_cons.mpr ⟨rfl, isFront⟩)
      · intro along front isFront
        have next : invariant (step state event) := survives.mpr along.1
        cases front with
        | nil => exact initial
        | cons first others =>
            obtain ⟨rfl, isRest⟩ := List.cons_prefix_cons.mp isFront
            exact (ih next under.2).mpr along.2 others isRest

/-- Where a condition is exactly what a step needs to keep an invariant and to do as it
should, it holds along a run exactly if the invariant holds in every state and every step does
as it should.
-/
theorem Along.states_and_iff {step : σ → ε → σ} {duty condition : σ → ε → Prop}
    {invariant : σ → Prop}
    (exact_step
      : ∀ state event, invariant state
        → ((invariant (step state event) ∧ duty state event) ↔ condition state event))
    {state : σ} (initial : invariant state) (events : List ε)
    : ((∀ front, front <+: events → invariant (front.foldl step state))
        ∧ Along step duty state events)
      ↔ Along step condition state events := by
  induction events generalizing state with
  | nil =>
      refine ⟨fun _ => trivial, fun _ => ⟨fun front isFront => ?_, trivial⟩⟩
      rw [List.prefix_nil.mp isFront]
      exact initial
  | cons event rest ih =>
      have survives := exact_step state event initial
      constructor
      · rintro ⟨holds, done, later⟩
        have next : invariant (step state event) :=
          holds [event] (List.cons_prefix_cons.mpr ⟨rfl, List.nil_prefix⟩)
        refine ⟨survives.mp ⟨next, done⟩, (ih next).mp ⟨fun front isFront => ?_, later⟩⟩
        exact holds (event :: front) (List.cons_prefix_cons.mpr ⟨rfl, isFront⟩)
      · rintro ⟨here, later⟩
        obtain ⟨next, done⟩ := survives.mpr here
        obtain ⟨holds, alongRest⟩ := (ih next).mpr later
        refine ⟨fun front isFront => ?_, done, alongRest⟩
        cases front with
        | nil => exact initial
        | cons first others =>
            obtain ⟨rfl, isRest⟩ := List.cons_prefix_cons.mp isFront
            exact holds others isRest

/-- The same without a premise. -/
theorem Along.states_iff {step : σ → ε → σ} {condition : σ → ε → Prop} {invariant : σ → Prop}
    (exact_step
      : ∀ state event, invariant state → (invariant (step state event) ↔ condition state event))
    {state : σ} (initial : invariant state) (events : List ε)
    : (∀ front, front <+: events → invariant (front.foldl step state))
      ↔ Along step condition state events := by
  have free : ∀ (events : List ε) (state : σ), Along step (fun _ _ => True) state events := by
    intro events
    induction events with
    | nil => exact fun _ => trivial
    | cons event rest ih => exact fun state => ⟨trivial, ih (step state event)⟩
  exact Along.states_iff_under (fun state event _ => exact_step state event) initial
    (free events state)

end Run

end PerpDex
