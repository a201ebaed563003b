import Mathlib.Data.List.Basic

namespace StakeCubeCoin.Library

/-!
# Every step of a run

A component takes events one after another and every event has an effect.  A fact about a
step speaks of the state in which the step is taken and of the event.  `EveryStep` says that
all steps of a run have a fact, so both a promise of the environment and a guarantee of the
component are written with it.
-/

variable {State Event : Type} {step : State -> Event -> State}

/-- A fact holds of every step of a run. -/
def EveryStep (step : State -> Event -> State) (fact : State -> Event -> Prop) :
    State -> List Event -> Prop
  | _, [] => True
  | state, event :: rest => fact state event /\ EveryStep step fact (step state event) rest

instance EveryStep.decidable (step : State -> Event -> State) (fact : State -> Event -> Prop)
    [∀ state event, Decidable (fact state event)] :
    ∀ (state : State) (events : List Event), Decidable (EveryStep step fact state events)
  | _, [] => .isTrue trivial
  | state, event :: rest =>
    have := EveryStep.decidable step fact (step state event) rest
    inferInstanceAs (Decidable (fact state event /\ EveryStep step fact (step state event) rest))

variable {invariant : State -> Prop} {promise fact : State -> Event -> Prop}

theorem EveryStep.mono (gives : ∀ state event, promise state event -> fact state event)
    {state : State} {events : List Event} (every : EveryStep step promise state events) :
    EveryStep step fact state events := by
  induction events generalizing state with
  | nil => trivial
  | cons event _ ih =>
    exact ⟨gives state event every.1, ih every.2⟩

variable (kept : ∀ state event, invariant state -> promise state event ->
  invariant (step state event))
  {state : State} {events : List Event}

include kept

/-- An invariant that is kept under a promise is there at the end of a run. -/
theorem EveryStep.last (begins : invariant state) (every : EveryStep step promise state events) :
    invariant (events.foldl step state) := by
  induction events generalizing state with
  | nil => exact begins
  | cons event _ ih =>
    exact ih (kept state event begins every.1) every.2

/-- What a step guarantees under an invariant, all steps of a run guarantee. -/
theorem EveryStep.of_invariant
    (gives : ∀ state event, invariant state -> promise state event -> fact state event)
    (begins : invariant state) (every : EveryStep step promise state events) :
    EveryStep step fact state events := by
  induction events generalizing state with
  | nil => trivial
  | cons event _ ih =>
    exact ⟨gives state event begins every.1, ih (kept state event begins every.1) every.2⟩

end StakeCubeCoin.Library
