import Mathlib.Data.List.Basic

namespace StakeCubeCoin.Library

open List

/-!
# Runs of a component against an abstract one

A component takes a list of inputs one after another; a step may abort.  It is
compared with an abstract component whose steps are total.  The comparison is
made under a contract, which may look at both current states: a caller promises
it for each input at the moment the input is given, not in advance.

The induction over runs is done here once.  A user proves one step.
-/

section

variable {State Abstract Input Error : Type}

/-- Feed the inputs one after another, stopping at the first abort. -/
def runSteps (step : State -> Input -> Except Error State) :
    State -> List Input -> Except Error State
  | state, [] => .ok state
  | state, input :: rest =>
    match step state input with
    | .error error => .error error
    | .ok next => runSteps step next rest

theorem runSteps_append (step : State -> Input -> Except Error State) (first second : List Input) :
    ∀ state middle, runSteps step state first = .ok middle ->
      runSteps step state (first ++ second) = runSteps step middle second := by
  induction first with
  | nil =>
    intro state middle finished
    cases finished
    rfl
  | cons input _ ih =>
    intro state middle finished
    simp only [cons_append, runSteps] at finished ⊢
    cases stepped : step state input with
    | error error =>
      rw [stepped] at finished
      cases finished
    | ok next =>
      rw [stepped] at finished
      exact ih next middle finished

/-- Every input meets the contract when its turn comes. -/
def Promised (step : State -> Input -> Except Error State)
    (abstractStep : Abstract -> Input -> Abstract) (contract : State -> Abstract -> Input -> Prop) :
    State -> Abstract -> List Input -> Prop
  | _, _, [] => True
  | state, spec, input :: rest =>
    contract state spec input /\
      ∀ next, step state input = .ok next ->
        Promised step abstractStep contract next (abstractStep spec input) rest

/-- If one step under the contract succeeds and keeps the relation between the
two components, so does a whole run. -/
theorem runSteps_refines {step : State -> Input -> Except Error State}
    {abstractStep : Abstract -> Input -> Abstract}
    {contract : State -> Abstract -> Input -> Prop} {related : State -> Abstract -> Prop}
    (stepRefines : ∀ state spec input, related state spec -> contract state spec input ->
      ∃ next, step state input = .ok next /\ related next (abstractStep spec input)) :
    ∀ (inputs : List Input) (state : State) (spec : Abstract), related state spec ->
      Promised step abstractStep contract state spec inputs ->
      ∃ last, runSteps step state inputs = .ok last /\ related last (inputs.foldl abstractStep spec) := by
  intro inputs
  induction inputs with
  | nil =>
    intro state spec holds _
    exact ⟨state, rfl, holds⟩
  | cons input _ ih =>
    intro state spec holds promised
    rcases promised with ⟨now, later⟩
    rcases stepRefines state spec input holds now with ⟨next, stepped, nextHolds⟩
    rcases ih next (abstractStep spec input) nextHolds (later next stepped) with
      ⟨last, finished, lastHolds⟩
    refine ⟨last, ?_, lastHolds⟩
    simp only [runSteps, stepped]
    exact finished

end

theorem bind_eq_ok_iff {Error α β : Type} {first : Except Error α} {next : α -> Except Error β}
    {result : β} : (first >>= next) = .ok result <->
      ∃ value, first = .ok value /\ next value = .ok result := by
  cases first <;> simp [bind, Except.bind]

variable {State Item Error : Type} {body : State -> Item -> Except Error State}

variable {invariant : List Item -> State -> Prop}

/-- The rule for a loop that may abort.  The invariant speaks of the items that are still to
come. -/
theorem foldlM_rule
    (kept : ∀ item rest state next, invariant (item :: rest) state -> body state item = .ok next ->
      invariant rest next) : ∀ (items : List Item) (state last : State), invariant items state ->
      items.foldlM body state = .ok last -> invariant [] last := by
  intro items
  induction items with
  | nil =>
    intro state last begins finished
    cases finished
    exact begins
  | cons item rest ih =>
    intro state last begins finished
    rcases bind_eq_ok_iff.mp finished with ⟨next, stepped, finished⟩
    exact ih next last (kept item rest state next begins stepped) finished

/-- The same rule with an invariant that speaks of the items that are done. -/
theorem foldlM_done
    (kept : ∀ done item state next, invariant done state -> body state item = .ok next ->
      invariant (done ++ [item]) next) {items : List Item} {state last : State}
    (begins : invariant [] state) (finished : items.foldlM body state = .ok last) :
    invariant items last := by
  have whole := @foldlM_rule State Item Error body
    (fun rest state => ∃ done, done ++ rest = items /\ invariant done state) ?_
    items state last ⟨[], rfl, begins⟩ finished
  · obtain ⟨done, all, holds⟩ := whole
    rw [append_nil] at all
    exact all ▸ holds
  · rintro item rest state next ⟨done, all, holds⟩ stepped
    exact ⟨done ++ [item], by rw [append_assoc, singleton_append, all], kept done item state next holds stepped⟩

end StakeCubeCoin.Library
