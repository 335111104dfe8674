import Mathlib.Logic.Relation
import Mathlib.Tactic.Common

/-! # Programs that keep their state when they fail

A handler reads and writes a state and may stop with a failure. What it has written by then stays
written. `Ends program state post` says what holds of the answer and of the state a program ends
in, whichever way it ends; `Ends.bind` is the rule of sequencing. -/

namespace ProvenanceRunner.Programs

universe u

variable {ε σ : Type u} {α β : Type u}

/-- What holds of the answer and of the last state of a program. -/
def Ends (program : EStateM ε σ α) (state : σ) (post : Except ε α → σ → Prop) : Prop :=
  match program state with
  | .ok answer last => post (.ok answer) last
  | .error failure last => post (.error failure) last

/-- The state a program ends in. -/
def last (program : EStateM ε σ α) (state : σ) : σ :=
  match program state with
  | .ok _ last => last
  | .error _ last => last

/-- The answer of a program. -/
def answer (program : EStateM ε σ α) (state : σ) : Except ε α :=
  match program state with
  | .ok answer _ => .ok answer
  | .error failure _ => .error failure

theorem ends_iff (program : EStateM ε σ α) (state : σ) (post : Except ε α → σ → Prop) :
    Ends program state post ↔ post (answer program state) (last program state) := by
  unfold Ends answer last
  cases program state <;> rfl

variable {program : EStateM ε σ α}

theorem Ends.mono {state : σ} {post weaker : Except ε α → σ → Prop} (ends : Ends program state post)
    (implied : ∀ result final, post result final → weaker result final) :
    Ends program state weaker := by
  rw [ends_iff] at ends ⊢
  exact implied _ _ ends

theorem Ends.and {state : σ} {left right : Except ε α → σ → Prop} (first : Ends program state left)
    (second : Ends program state right) :
    Ends program state (fun result final => left result final ∧ right result final) := by
  rw [ends_iff] at first second ⊢
  exact ⟨first, second⟩

theorem ends_throw (failure : ε) (state : σ) (post : Except ε α → σ → Prop) :
    Ends (throw failure : EStateM ε σ α) state post ↔ post (.error failure) state := Iff.rfl

/-- The rule of sequencing: the second program starts where the first one answered. -/
theorem ends_bind (program : EStateM ε σ α) (next : α → EStateM ε σ β) (state : σ)
    (post : Except ε β → σ → Prop) :
    Ends (program >>= next) state post ↔
      Ends program state (fun result middle =>
        match result with
        | .ok answer => Ends (next answer) middle post
        | .error failure => post (.error failure) middle) := by
  change Ends (EStateM.bind program next) state post ↔ _
  unfold Ends EStateM.bind
  cases program state <;> rfl

theorem Ends.bind {next : α → EStateM ε σ β} {state : σ} {middle : Except ε α → σ → Prop}
    {post : Except ε β → σ → Prop} (first : Ends program state middle)
    (second : ∀ answer between, middle (.ok answer) between → Ends (next answer) between post)
    (stopped : ∀ failure final, middle (.error failure) final → post (.error failure) final) :
    Ends (program >>= next) state post := by
  rw [ends_bind]
  refine first.mono fun result between holds => ?_
  cases result with
  | ok answer => exact second answer between holds
  | error failure => exact stopped failure between holds

/-- The rule for a program that always answers. -/
theorem Ends.bind_ok {next : α → EStateM ε σ β} {state : σ} {middle : α → σ → Prop}
    {post : Except ε β → σ → Prop}
    (first : Ends program state fun result final => ∃ answer, result = .ok answer ∧
      middle answer final)
    (second : ∀ answer between, middle answer between → Ends (next answer) between post) :
    Ends (program >>= next) state post := by
  refine first.bind ?_ ?_
  · rintro answer between ⟨_, same, holds⟩
    obtain rfl := Except.ok.inj same
    exact second answer between holds
  · rintro failure final ⟨_, same, _⟩
    simp at same

end ProvenanceRunner.Programs
