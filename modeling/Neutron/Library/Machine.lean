import Mathlib.Logic.Basic

namespace Library

universe u v w

/-! Runs of a deterministic machine and the invariants they keep. -/

namespace Machine

variable {State : Type u} {Action : Type v} (step : State → Action → State)

def run (state : State) (actions : List Action) : State :=
  actions.foldl step state

def Allowed (allowed : State → Action → Prop) : State → List Action → Prop
  | _, [] => True
  | state, action :: rest =>
      allowed state action ∧ Allowed allowed (step state action) rest

instance decidableAllowed {allowed : State → Action → Prop}
    [∀ state action, Decidable (allowed state action)] :
    ∀ state actions, Decidable (Allowed step allowed state actions)
  | _, [] => .isTrue trivial
  | state, action :: rest =>
      @instDecidableAnd _ _ _ (decidableAllowed (step state action) rest)

def collect {Event : Type w} (events : State → Action → List Event) :
    State → List Action → List Event
  | _, [] => []
  | state, action :: rest =>
      events state action ++ collect events (step state action) rest

variable {step}

@[simp] theorem run_nil (state : State) : run step state [] = state := rfl

@[simp] theorem run_cons (state : State) (action : Action) (rest : List Action) :
    run step state (action :: rest) = run step (step state action) rest := rfl

theorem run_append (state : State) (first second : List Action) :
    run step state (first ++ second) = run step (run step state first) second :=
  List.foldl_append

theorem Allowed.invariant {allowed : State → Action → Prop}
    {invariant : State → Prop}
    (kept : ∀ state action, invariant state → allowed state action →
      invariant (step state action))
    {state : State} {actions : List Action} (start : invariant state)
    (permitted : Allowed step allowed state actions) :
    invariant (run step state actions) := by
  induction actions generalizing state with
  | nil => exact start
  | cons action rest ih =>
      exact ih (kept state action start permitted.1) permitted.2

theorem allowed_append {allowed : State → Action → Prop} {state : State}
    {first second : List Action} (before : Allowed step allowed state first)
    (after : Allowed step allowed (run step state first) second) :
    Allowed step allowed state (first ++ second) := by
  induction first generalizing state with
  | nil => exact after
  | cons action rest ih => exact ⟨before.1, ih before.2 after⟩

theorem allowed_of_forall {condition : Action → Prop} {actions : List Action}
    (all : ∀ action ∈ actions, condition action) {state : State} :
    Allowed step (fun _ action => condition action) state actions := by
  induction actions generalizing state with
  | nil => trivial
  | cons action rest ih =>
      exact ⟨all action (by simp), ih fun other member => all other (by simp [member])⟩

theorem run_invariant {invariant : State → Prop}
    (kept : ∀ state action, invariant state → invariant (step state action))
    {state : State} (start : invariant state) (actions : List Action) :
    invariant (run step state actions) := by
  induction actions generalizing state with
  | nil => exact start
  | cons action rest ih => exact ih (kept state action start)

theorem run_simulates {View : Type w} {viewStep : View → Action → View} {view : State → View}
    (simulates : ∀ state action, view (step state action) = viewStep (view state) action)
    (state : State) (actions : List Action) :
    view (run step state actions) = run viewStep (view state) actions := by
  induction actions generalizing state with
  | nil => rfl
  | cons action rest ih => rw [run_cons, run_cons, ih, simulates]

end Machine

end Library
