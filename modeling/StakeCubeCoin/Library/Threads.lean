import Mathlib.Data.List.Basic

namespace StakeCubeCoin.Library

/-!
# Programs that are interrupted between their sections

A program works on a state that it shares with other threads.  It is cut into sections; what
the others do happens between sections and never within one.

`Meets` is a rule of pre- and postconditions for such programs: whatever the others do within
the bounds of a `rely` relation, the program ends with its postcondition.  A program that is
not interrupted is the special case in which the others do nothing.
-/

/-- A program: finished, or at the beginning of a section.  What comes after the section
depends on the state in which the section began. -/
inductive Program (State α : Type) where
  | done (value : α)
  | step (effect : State -> State) (next : State -> Program State α)

namespace Program

variable {State α β : Type}

def run : Program State α -> State -> α × State
  | .done value, state => (value, state)
  | .step effect next, state => (next state).run (effect state)

def bind : Program State α -> (α -> Program State β) -> Program State β
  | .done value, next => next value
  | .step effect rest, next => .step effect fun state => (rest state).bind next

instance : Monad (Program State) where
  pure := .done
  bind := bind

def atomically (body : State -> α × State) : Program State α :=
  .step (fun state => (body state).2) fun state => .done (body state).1

/-- Run a program for every item of a list, until one of them returns an error. -/
def tryEach {ι ε : Type} (body : ι -> Program State (Except ε Unit)) :
    List ι -> Program State (Except ε Unit)
  | [] => .done (.ok ())
  | item :: rest =>
    (body item).bind fun
      | .error error => .done (.error error)
      | .ok () => tryEach body rest

/-! ## What a program ends with -/

section

variable (rely : State -> State -> Prop)

/-- Started in a state, and interrupted within the bounds, the program ends with the
postcondition. -/
def Meets (post : α -> State -> Prop) : Program State α -> State -> Prop
  | .done value, state => ∀ now, rely state now -> post value now
  | .step effect next, state => ∀ now, rely state now -> Meets post (next now) (effect now)

variable {rely} {post : α -> State -> Prop} {program : Program State α} {state : State}

/-- An interruption leads to another state from which the program meets its postcondition. -/
theorem Meets.interrupted (trans : ∀ first second third : State, rely first second ->
    rely second third -> rely first third) {now : State} (meets : Meets rely post program state)
    (moved : rely state now) : Meets rely post program now := by
  cases program with
  | done | step =>
    intro later further
    exact meets later (trans state now later moved further)

theorem Meets.mono {weaker : α -> State -> Prop}
    (gives : ∀ value state, post value state -> weaker value state)
    (meets : Meets rely post program state) :
    Meets rely weaker program state := by
  induction program generalizing state with
  | done value =>
    intro now moved
    exact gives value now (meets now moved)
  | step _ _ ih =>
    intro now moved
    exact ih now (meets now moved)

theorem Meets.bind {after : β -> State -> Prop}
    {next : α -> Program State β} (refl : ∀ state : State, rely state state)
    (first : Meets rely (fun value now => Meets rely after (next value) now) program state) :
    Meets rely after (program.bind next) state := by
  induction program generalizing state with
  | done value => exact first state (refl state)
  | step _ _ ih =>
    intro now moved
    exact ih now (first now moved)

theorem meets_atomically {body : State -> α × State}
    (ends : ∀ now, rely state now -> ∀ later, rely (body now).2 later -> post (body now).1 later) :
    Meets rely post (atomically body) state :=
  fun now moved later further => ends now moved later further

/-- A program that is not interrupted ends with its postcondition. -/
theorem Meets.run (refl : ∀ state : State, rely state state)
    (meets : Meets rely post program state) :
    post (program.run state).1 (program.run state).2 := by
  induction program generalizing state with
  | done _ => exact meets state (refl state)
  | step _ _ ih => exact ih state (meets state (refl state))

/-- A loop keeps an invariant of the items that are done. -/
theorem meets_tryEach {ι ε : Type} {body : ι -> Program State (Except ε Unit)} {items : List ι}
    {post : Except ε Unit -> State -> Prop} (invariant : List ι -> State -> Prop)
    (refl : ∀ state : State, rely state state)
    (stable : ∀ done {state now : State}, invariant done state -> rely state now -> invariant done now)
    (each : ∀ done item rest state, items = done ++ item :: rest -> invariant done state ->
      Meets rely (fun result now =>
        match result with
        | .error error => ∀ later, rely now later -> post (.error error) later
        | .ok () => invariant (done ++ [item]) now) (body item) state)
    (ends : ∀ now, invariant items now -> post (.ok ()) now) (begins : invariant [] state) :
    Meets rely post (tryEach body items) state := by
  have loop : ∀ left done state, items = done ++ left -> invariant done state ->
    Meets rely post (tryEach body left) state := by
    intro left
    induction left with
    | nil =>
      intro done state whole holds now moved
      rw [List.append_nil] at whole
      exact ends now (whole ▸ stable done holds moved)
    | cons item rest ih =>
      intro done state whole holds
      apply Meets.bind refl
      refine (each done item rest state whole holds).mono ?_
      intro result now further
      cases result with
      | error error => exact further
      | ok _ => exact ih (done ++ [item]) now (by simp [whole]) further
  exact loop items [] state rfl begins

end

/-! ## What every section keeps -/

/-- Every section of a program keeps a view of the state. -/
def Keeps {β : Type} (view : State -> β) : Program State α -> Prop
  | .done _ => True
  | .step effect next => ∀ state, view (effect state) = view state /\ Keeps view (next state)

variable {γ : Type} {view : State -> γ}

theorem keeps_atomically {body : State -> α × State}
    (kept : ∀ state, view (body state).2 = view state) : Keeps view (atomically body) :=
  fun state => ⟨kept state, trivial⟩

theorem Keeps.bind {program : Program State α} {next : α -> Program State β}
    (first : Keeps view program) (then_ : ∀ value, Keeps view (next value)) :
    Keeps view (program.bind next) := by
  induction program with
  | done value => exact then_ value
  | step _ _ ih =>
    intro state
    exact ⟨(first state).1, ih state (first state).2⟩

theorem keeps_tryEach {ι ε : Type} {body : ι -> Program State (Except ε Unit)}
    (each : ∀ item, Keeps view (body item)) (items : List ι) : Keeps view (tryEach body items) := by
  induction items with
  | nil => trivial
  | cons item _ ih =>
    apply Keeps.bind (each item)
    intro result
    cases result with
    | error error => trivial
    | ok _ => exact ih

end Program
end StakeCubeCoin.Library
