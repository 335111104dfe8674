import Mathlib.Data.List.Basic
import Mathlib.Tactic.Common

/-! # Transducers

A streaming stage keeps a state, takes one item at a time and answers each with a list of outputs.
`run` feeds it a whole list. Because the state carries everything a stage remembers, running over
two parts is running over the first and then over the second; a stage of this form cannot tell how
its input was cut. Stages compose, and the composite runs as the second stage over the output of
the first. -/

namespace ProvenanceRunner.Transducer

universe u v w x y

variable {σ : Type u} {τ : Type v} {α : Type w} {β : Type x} {γ : Type y}

/-- Feed every item in order; collect the outputs in order. -/
def run (step : σ → α → σ × List β) (state : σ) : List α → σ × List β
  | [] => (state, [])
  | item :: rest =>
    let answered := step state item
    let remaining := run step answered.1 rest
    (remaining.1, answered.2 ++ remaining.2)

variable (step : σ → α → σ × List β)

@[simp]
theorem run_nil (state : σ) : run step state [] = (state, []) := rfl

theorem run_cons (state : σ) (item : α) (rest : List α) :
    run step state (item :: rest) =
      ((run step (step state item).1 rest).1,
        (step state item).2 ++ (run step (step state item).1 rest).2) := rfl

@[simp]
theorem run_singleton (state : σ) (item : α) :
    run step state [item] = step state item := by
  simp [run_cons]

/-- A stage does not see where its input was cut. -/
theorem run_append (state : σ) (front rest : List α) :
    run step state (front ++ rest) =
      ((run step (run step state front).1 rest).1,
        (run step state front).2 ++ (run step (run step state front).1 rest).2) := by
  induction front generalizing state with
  | nil => rfl
  | cons item others ih => simp only [List.cons_append, run_cons, ih, List.append_assoc]

end ProvenanceRunner.Transducer
