import Mathlib

/-! Deterministic machines that answer each input with an output, and
nondeterministic step relations.

`run` feeds a list of inputs through a machine; `run_outputs_eq` is forward
simulation: a relation that every concrete step keeps, with equal outputs,
makes the two output streams equal on every input list. `Reachable` closes an
initial predicate under a step relation, and `Reachable.invariant` is the rule
that an inductive invariant holds in every reachable state.
-/

set_option autoImplicit false

namespace Transition

variable {σ τ ι κ ω : Type}

/-- Feed inputs in order; each step returns an output and the next state. -/
def run (step : σ → ι → ω × σ) : σ → List ι → List ω × σ
  | state, [] => ([], state)
  | state, input :: rest =>
      let next := step state input
      let tail := run step next.2 rest
      (next.1 :: tail.1, tail.2)

@[simp] theorem run_nil (step : σ → ι → ω × σ) (state : σ) : run step state [] = ([], state) := rfl

@[simp] theorem run_cons (step : σ → ι → ω × σ) (state : σ) (input : ι) (rest : List ι) :
    run step state (input :: rest) =
      ((step state input).1 :: (run step (step state input).2 rest).1,
        (run step (step state input).2 rest).2) := rfl

/-- A relation kept by every step with equal outputs is a simulation: the two
machines answer every list of inputs with the same outputs. -/
theorem run_outputs_eq (concrete : σ → ι → ω × σ) (abstract : τ → κ → ω × τ) (view : ι → κ)
    (related : σ → τ → Prop)
    (step : ∀ state spec input, related state spec →
      (concrete state input).1 = (abstract spec (view input)).1 ∧
        related (concrete state input).2 (abstract spec (view input)).2) :
    ∀ (inputs : List ι) (state : σ) (spec : τ), related state spec →
      (run concrete state inputs).1 = (run abstract spec (inputs.map view)).1 := by
  intro inputs
  induction inputs with
  | nil => intro state spec _; rfl
  | cons input rest ih =>
    intro state spec holds
    obtain ⟨same, next⟩ := step state spec input holds
    simp only [run_cons, List.map_cons, same, ih _ _ next]

/-- States reachable from `init` through any number of `step`s. -/
inductive Reachable (init : σ → Prop) (step : σ → σ → Prop) : σ → Prop where
  | init {state : σ} : init state → Reachable init step state
  | step {state next : σ} : Reachable init step state → step state next → Reachable init step next

/-- An inductive invariant holds in every reachable state. -/
theorem Reachable.invariant {init : σ → Prop} {step : σ → σ → Prop} (inv : σ → Prop)
    (initial : ∀ state, init state → inv state)
    (preserved : ∀ state next, inv state → step state next → inv next)
    {state : σ} (reachable : Reachable init step state) : inv state := by
  induction reachable with
  | init start => exact initial _ start
  | step _ moved ih => exact preserved _ _ ih moved

end Transition
