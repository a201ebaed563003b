import Mathlib.Data.BitVec

namespace StakeCubeCoin.Library

open List

/-!
# Stateful computations that may fail

An action reads and changes a state and either returns a value or fails.  A
failure keeps the changes made before it, as an early return or an exception does
in an imperative program.

Three kinds of statement are proved about actions.  `Keeps` says that a property of the
state survives the action whatever its outcome, and `KeepsFailing` that it survives a
failure.  `Alike` says that two actions on related states return the same and leave
related states.  Each has rules for the ways of building actions.
-/

/-- A computation over a state that returns a value or fails. -/
def Action (State Error α : Type) : Type :=
  State -> Except Error α × State

namespace Action

variable {State Error α β : Type}

def run (action : Action State Error α) (state : State) : Except Error α × State :=
  action state

instance : Monad (Action State Error) where
  pure value := fun state => (.ok value, state)
  bind action next := fun state =>
    match action state with
    | (.error error, after) => (.error error, after)
    | (.ok value, after) => next value after

def fail (error : Error) : Action State Error α :=
  fun state => (.error error, state)

def require (condition : Bool) (error : Error) : Action State Error Unit :=
  if condition then pure () else fail error

def read (view : State -> α) : Action State Error α :=
  fun state => (.ok (view state), state)

def change (update : State -> State) : Action State Error Unit :=
  fun state => (.ok (), update state)

/-- Change the state and return a value computed from it. -/
def exchange (update : State -> α × State) : Action State Error α :=
  fun state => (.ok (update state).1, (update state).2)

def forEach {ι : Type} (body : ι -> Action State Error Unit) : List ι -> Action State Error Unit
  | [] => pure ()
  | item :: rest => do
    body item
    forEach body rest

/-- Act on every item of a list in order, passing on a value. -/
def foldEach {ι : Type} (body : α -> ι -> Action State Error α) :
    List ι -> α -> Action State Error α
  | [], value => pure value
  | item :: rest, value => do
    let next <- body value item
    foldEach body rest next

/-- Turn the failures that a handler answers into values. -/
def recover (handler : Error -> Option α) (action : Action State Error α) : Action State Error α :=
  fun state =>
    match action state with
    | (.ok value, after) => (.ok value, after)
    | (.error error, after) =>
      match handler error with
      | some value => (.ok value, after)
      | none => (.error error, after)

/-- Run an action to whatever end, within an action that fails in other ways. -/
def attempt {Other : Type} (action : Action State Error α) : Action State Other (Except Error α) :=
  fun state => (.ok (action state).1, (action state).2)

theorem run_pure_eq (value : α) (state : State) :
    (pure value : Action State Error α).run state = (.ok value, state) :=
  rfl

theorem run_read (view : State -> α) (state : State) :
    (read view : Action State Error α).run state = (.ok (view state), state) :=
  rfl

variable {action : Action State Error α} {last state : State} {next : α -> Action State Error β}

theorem run_bind : (action >>= next).run state = match action.run state with
    | (.error error, after) => (.error error, after)
    | (.ok value, after) => (next value).run after :=
  rfl

variable {value : α}

theorem run_bind_of_ok {middle : State} (first : action.run state = (.ok value, middle)) :
    (action >>= next).run state = (next value).run middle := by
  rw [run_bind, first]

theorem run_bind_ok_iff {result : β} : (action >>= next).run state = (.ok result, last) <->
    ∃ value middle, action.run state = (.ok value, middle) /\
      (next value).run middle = (.ok result, last) := by
  constructor
  · intro finished
    rw [run_bind] at finished
    split at finished
    · cases finished
    · next value middle first => exact ⟨value, middle, first, finished⟩
  · rintro ⟨value, middle, first, rest⟩
    rw [run_bind_of_ok first, rest]

variable {error : Error}

theorem run_require_ok_iff {condition : Bool} {result : Unit} :
    (require condition error : Action State Error Unit).run state = (.ok result, last) <->
      condition = true /\ state = last := by
  cases condition <;> simp [require, run, fail, pure]

theorem run_require_of_true {condition : Bool} (holds : condition = true) (error : Error)
    (state : State) :
    (require condition error : Action State Error Unit).run state = (.ok (), state) :=
  run_require_ok_iff.mpr ⟨holds, rfl⟩

variable {handler : Error -> Option α}

theorem run_recover : (recover handler action).run state = match action.run state with
      | (.ok value, after) => (.ok value, after)
      | (.error error, after) =>
        match handler error with
        | some value => (.ok value, after)
        | none => (.error error, after) :=
  rfl

theorem run_recover_of_ok (finished : action.run state = (.ok value, last)) :
    (recover handler action).run state = (.ok value, last) := by
  rw [run_recover, finished]

theorem run_recover_of_error
    (failed : action.run state = (.error error, last)) (answered : handler error = some value) :
    (recover handler action).run state = (.ok value, last) := by
  rw [run_recover, failed]
  simp only [answered]

theorem run_bind_of_error (failed : action.run state = (.error error, last)) :
    (action >>= next).run state = (.error error, last) := by
  rw [run_bind, failed]

/-- The property survives, whether the action returns or fails.  It is the rule for invariants: an
action keeps what all its parts keep. -/
def Keeps (property : State -> Prop) (action : Action State Error α) : Prop :=
  ∀ state, property state -> property (action.run state).2

section

variable {property : State -> Prop}

theorem keeps_pure (value : α) : Keeps property (pure value : Action State Error α) :=
  fun _ holds => holds

theorem keeps_fail (error : Error) : Keeps property (fail error : Action State Error α) :=
  fun _ holds => holds

theorem keeps_read (view : State -> α) : Keeps property (read view : Action State Error α) :=
  fun _ holds => holds

theorem keeps_require (condition : Bool) (error : Error) :
    Keeps property (require condition error : Action State Error Unit) := by
  unfold require
  split
  · exact keeps_pure ()
  · exact keeps_fail error

theorem keeps_change {update : State -> State}
    (kept : ∀ state, property state -> property (update state)) :
    Keeps property (change update : Action State Error Unit) :=
  kept

theorem keeps_exchange {update : State -> α × State}
    (kept : ∀ state, property state -> property (update state).2) :
    Keeps property (exchange update : Action State Error α) :=
  kept

variable {action : Action State Error α}

theorem Keeps.bind {next : α -> Action State Error β}
    (first : Keeps property action) (second : ∀ value, Keeps property (next value)) :
    Keeps property (action >>= next) := by
  intro state holds
  have firstHolds := first state holds
  rw [run_bind]
  split
  · next result => rw [result] at firstHolds; exact firstHolds
  · next value middle result =>
    rw [result] at firstHolds
    exact second value middle firstHolds

variable {ι : Type}

theorem keeps_forEach {body : ι -> Action State Error Unit} (items : List ι)
    (round : ∀ item ∈ items, Keeps property (body item)) : Keeps property (forEach body items) := by
  induction items with
  | nil => exact keeps_pure ()
  | cons item _ ih =>
    exact (round item (.head _)).bind fun _ =>
      ih (forall_mem_cons.mp round).2

variable {body : α -> ι -> Action State Error α}

theorem keeps_foldEach (items : List ι)
    (round : ∀ value item, item ∈ items -> Keeps property (body value item)) :
    ∀ value, Keeps property (foldEach body items value) := by
  induction items with
  | nil =>
    intro value
    exact keeps_pure value
  | cons item _ ih =>
    intro value
    exact (round value item (.head _)).bind fun next =>
      ih (fun value other member =>
        round value other (.tail _ member)) next

theorem Keeps.of_run (kept : Keeps property action)
    {state last : State} {result : α} (finished : action.run state = (.ok result, last))
    (holds : property state) : property last := by
  have after := kept state holds
  rw [finished] at after
  exact after

/-- What every round of a loop finds out, in states with a property that the rounds
keep, is true of every item after the loop. -/
theorem forEach_collect {body : ι -> Action State Error Unit} {found : ι -> Prop}
    {items : List ι} (kept : ∀ item ∈ items, Keeps property (body item))
    (sound : ∀ item ∈ items, ∀ state last result, property state ->
      (body item).run state = (.ok result, last) -> found item) :
    ∀ {state last : State} {result : Unit}, property state ->
      (forEach body items).run state = (.ok result, last) -> ∀ item ∈ items, found item := by
  induction items with
  | nil =>
    intro _ _ _ _ _ item member
    cases member
  | cons first _ ih =>
    intro state last result holds finished item member
    rcases run_bind_ok_iff.mp finished with ⟨_, middle, firstRun, restRun⟩
    rcases mem_cons.mp member with now | later
    · rw [now]
      exact sound first (.head _) state middle _ holds firstRun
    · exact ih (forall_mem_cons.mp kept).2 (forall_mem_cons.mp sound).2
        ((kept first (.head _)).of_run firstRun holds) restRun item later

/-- A loop whose rounds compute a function, in states with a property that they keep, folds that
function over the items. -/
theorem foldEach_value {update : α -> ι -> α} {items : List ι}
    (kept : ∀ value item, item ∈ items -> Keeps property (body value item))
    (computed : ∀ item ∈ items, ∀ value state last result, property state ->
      (body value item).run state = (.ok result, last) -> result = update value item) :
    ∀ {state last : State} {value result : α}, property state ->
      (foldEach body items value).run state = (.ok result, last) ->
      result = items.foldl update value := by
  induction items with
  | nil =>
    intro state last value result _ finished
    cases finished
    rfl
  | cons first _ ih =>
    intro state last value result holds finished
    rcases run_bind_ok_iff.mp finished with ⟨next, middle, firstRun, restRun⟩
    rw [foldl_cons, <- computed first (.head _) value state middle next holds firstRun]
    exact ih (fun value other member => kept value other (.tail _ member))
      (forall_mem_cons.mp computed).2
      ((kept value first (.head _)).of_run firstRun holds) restRun

/-- The rule for loops, with an invariant of the value and the items that are left. -/
theorem foldEach_invariant {invariant : List ι -> α -> Prop}
    (round : ∀ {item rest value state last next}, invariant (item :: rest) value ->
      (body value item).run state = (.ok next, last) -> invariant rest next) (items : List ι) :
    ∀ {state last : State} {value result : α}, invariant items value ->
      (foldEach body items value).run state = (.ok result, last) -> invariant [] result := by
  induction items with
  | nil =>
    intro state last value result holds finished
    cases finished
    exact holds
  | cons _ _ ih =>
    intro state last value result holds finished
    rcases run_bind_ok_iff.mp finished with ⟨_, _, firstRun, restRun⟩
    exact ih (round holds firstRun) restRun

end

theorem foldEach_append {ι : Type} (body : α -> ι -> Action State Error α) (first second : List ι)
    (value : α) : foldEach body (first ++ second) value =
      foldEach body first value >>= fun next => foldEach body second next := by
  induction first generalizing value with
  | nil => rfl
  | cons item rest ih =>
    funext state
    change (body value item >>= fun next => foldEach body (rest ++ second) next).run state =
      ((body value item >>= foldEach body rest) >>= foldEach body second).run state
    simp only [ih, run_bind]
    cases (body value item).run state with
    | mk result after =>
      cases result <;> rfl

/-! ## Actions that behave alike -/

variable {Other : Type} {relation : State -> Other -> Prop}

/-- On related states, both actions return the same and leave related states. -/
def Alike (relation : State -> Other -> Prop) (first : Action State Error α)
    (second : Action Other Error α) : Prop :=
  ∀ state other, relation state other ->
    (first.run state).1 = (second.run other).1 /\ relation (first.run state).2 (second.run other).2

theorem Alike.bind {first : Action State Error α} {second : Action Other Error α}
    {next : α -> Action State Error β} {otherNext : α -> Action Other Error β}
    (start : Alike relation first second)
    (rest : ∀ value, Alike relation (next value) (otherNext value)) :
    Alike relation (first >>= next) (second >>= otherNext) := by
  intro state other related
  rcases start state other related with ⟨same, kept⟩
  cases finished : first.run state with
  | mk result after =>
    cases otherFinished : second.run other with
    | mk _ otherAfter =>
      rw [finished, otherFinished] at same kept
      cases same
      cases result with
      | error error =>
        rw [run_bind_of_error finished, run_bind_of_error otherFinished]
        exact ⟨rfl, kept⟩
      | ok value =>
        rw [run_bind_of_ok finished, run_bind_of_ok otherFinished]
        exact rest value after otherAfter kept

end Action
end StakeCubeCoin.Library
