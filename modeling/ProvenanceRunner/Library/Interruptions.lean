import Mathlib.Tactic.Common

/-! # Programs that may stop between two operations

A program is a tree of operations. The world answers each of them, and the answer says how it goes
on; what an operation does to the world is given by `perform`, which refuses answers that the world
cannot give. A program may be stopped before any operation and leaves the world as it is then.

`Keeps` is the rule of reasoning: an invariant holds wherever the program can be stopped, and the
two postconditions hold where it ends, with a value or with a failure. Programs are finite, so a
world that can always answer brings every program to an end. -/

namespace ProvenanceRunner.Interruptions

/-- A program over operations `Op`, which ends with a value or with a failure. -/
inductive Program (Op : Type) (Answer : Op → Type) (Failure α : Type) where
  | pure (value : α)
  | fail (failure : Failure)
  | call (op : Op) (next : Answer op → Program Op Answer Failure α)

variable {Op : Type} {Answer : Op → Type} {Failure α β State : Type}

namespace Program

def bind (program : Program Op Answer Failure α) (next : α → Program Op Answer Failure β) :
    Program Op Answer Failure β :=
  match program with
  | .pure value => next value
  | .fail failure => .fail failure
  | .call op rest => .call op fun answer => (rest answer).bind next

instance : Monad (Program Op Answer Failure) where
  pure := .pure
  bind := .bind

/-- A program with something to do after a failure. -/
def rescue (program : Program Op Answer Failure α)
    (handler : Failure → Program Op Answer Failure α) : Program Op Answer Failure α :=
  match program with
  | .pure value => .pure value
  | .fail failure => handler failure
  | .call op rest => .call op fun answer => (rest answer).rescue handler

end Program

variable (perform : (op : Op) → Answer op → State → Option State)

/-- The states in which a program can be stopped. -/
inductive Stops : Program Op Answer Failure α → State → State → Prop where
  | here (program : Program Op Answer Failure α) (state : State) : Stops program state state
  | later (op : Op) (rest : Answer op → Program Op Answer Failure α) (answer : Answer op)
    (state next last : State) (performed : perform op answer state = some next)
    (stops : Stops (rest answer) next last) : Stops (.call op rest) state last

/-- How a program can end. -/
inductive Ends : Program Op Answer Failure α → State → Except Failure α → State → Prop where
  | pure (value : α) (state : State) : Ends (.pure value) state (.ok value) state
  | fail (failure : Failure) (state : State) : Ends (.fail failure) state (.error failure) state
  | call (op : Op) (rest : Answer op → Program Op Answer Failure α) (answer : Answer op)
    (state next last : State) (result : Except Failure α)
    (performed : perform op answer state = some next) (ends : Ends (rest answer) next result last) :
    Ends (.call op rest) state result last

/-- An invariant of a program, with what holds when it ends. -/
def Keeps (invariant : State → Prop) (post : α → State → Prop) (failed : Failure → State → Prop) :
    Program Op Answer Failure α → State → Prop
  | .pure value, state => invariant state ∧ post value state
  | .fail failure, state => invariant state ∧ failed failure state
  | .call op rest, state => invariant state ∧
    ∀ answer next, perform op answer state = some next →
      Keeps invariant post failed (rest answer) next

/-- What the two postconditions say of one end. -/
def Holds (post : α → State → Prop) (failed : Failure → State → Prop) :
    Except Failure α → State → Prop
  | .ok value, state => post value state
  | .error failure, state => failed failure state

variable {perform} {invariant : State → Prop} {post : α → State → Prop}
  {failed : Failure → State → Prop}

variable {program : Program Op Answer Failure α} {handler : Failure → Program Op Answer Failure α}

variable {next : α → Program Op Answer Failure β} {state : State}

theorem Keeps.start (keeps : Keeps perform invariant post failed program state) :
    invariant state := by
  cases program with
  | pure | fail | call => exact keeps.1

theorem Keeps.stops {last : State} (keeps : Keeps perform invariant post failed program state)
    (stops : Stops perform program state last) : invariant last := by
  induction stops with
  | here => exact keeps.start
  | later op rest answer state next last performed _ later =>
    exact later (keeps.2 answer next performed)

theorem Keeps.ends {last : State} {result : Except Failure α}
    (keeps : Keeps perform invariant post failed program state)
    (ends : Ends perform program state result last) : Holds post failed result last := by
  induction ends with
  | pure | fail => exact keeps.2
  | call op rest answer state next last result performed _ later =>
    exact later (keeps.2 answer next performed)

theorem Keeps.mono {post' : α → State → Prop} {failed' : Failure → State → Prop}
    (keeps : Keeps perform invariant post failed program state)
    (posts : ∀ value state, post value state → post' value state)
    (failures : ∀ failure state, failed failure state → failed' failure state) :
    Keeps perform invariant post' failed' program state := by
  induction program generalizing state with
  | pure value => exact ⟨keeps.1, posts value state keeps.2⟩
  | fail failure => exact ⟨keeps.1, failures failure state keeps.2⟩
  | call op rest later =>
    exact ⟨keeps.1, fun answer next performed => later answer (keeps.2 answer next performed)⟩

/-- The invariant holds at the end as well. -/
theorem Keeps.ending (keeps : Keeps perform invariant post failed program state) :
    Keeps perform invariant (fun value state => invariant state ∧ post value state)
      (fun failure state => invariant state ∧ failed failure state) program state := by
  induction program generalizing state with
  | pure | fail => exact ⟨keeps.1, keeps⟩
  | call op rest later =>
    exact ⟨keeps.1, fun answer next performed => later answer (keeps.2 answer next performed)⟩

theorem Keeps.bind {post : β → State → Prop}
    (keeps : Keeps perform invariant (fun value state => Keeps perform invariant post failed
      (next value) state) failed program state) :
    Keeps perform invariant post failed (program >>= next) state := by
  induction program generalizing state with
  | pure => exact keeps.2
  | fail => exact keeps
  | call op rest later =>
    exact ⟨keeps.1, fun answer after performed => later answer (keeps.2 answer after performed)⟩

/-- What follows a program may rely on what holds at its end. -/
theorem Keeps.seq {between : α → State → Prop} {post : β → State → Prop}
    (first : Keeps perform invariant between failed program state)
    (rest : ∀ value state, between value state →
      Keeps perform invariant post failed (next value) state) :
    Keeps perform invariant post failed (program >>= next) state :=
  (first.mono rest fun _ _ => id).bind

theorem Keeps.rescue
    (keeps : Keeps perform invariant post (fun failure state => Keeps perform invariant post failed
      (handler failure) state) program state) :
    Keeps perform invariant post failed (program.rescue handler) state := by
  induction program generalizing state with
  | pure => exact keeps
  | fail => exact keeps.2
  | call op rest later =>
    exact ⟨keeps.1, fun answer after performed => later answer (keeps.2 answer after performed)⟩

/-- The program keeps the invariant wherever it may be started. -/
def Runs (perform : (op : Op) → Answer op → State → Option State) (invariant pre : State → Prop)
    (program : Program Op Answer Failure α) (post : α → State → Prop) (failed : State → Prop) :
    Prop :=
  ∀ state, invariant state → pre state →
    Keeps perform invariant post (fun _ => failed) program state

variable {pre stopped : State → Prop}

theorem Runs.mono {pre' : State → Prop} {post' : α → State → Prop} {stopped' : State → Prop}
    (runs : Runs perform invariant pre program post stopped)
    (starts : ∀ state, pre' state → pre state)
    (posts : ∀ value state, post value state → post' value state)
    (failures : ∀ state, stopped state → stopped' state) :
    Runs perform invariant pre' program post' stopped' := fun state holds begins =>
  (runs state holds (starts state begins)).mono posts fun _ => failures

theorem Runs.bind {between : α → State → Prop} {post : β → State → Prop}
    (first : Runs perform invariant pre program between stopped)
    (rest : ∀ value, Runs perform invariant (between value) (next value) post stopped) :
    Runs perform invariant pre (program >>= next) post stopped := by
  intro state holds begins
  refine Keeps.bind ((first state holds begins).ending.mono ?_ ?_)
  · exact fun value state ends => rest value state ends.1 ends.2
  · exact fun _ _ ends => ends.2

theorem Runs.rescue (middle : State → Prop) (first : Runs perform invariant pre program post middle)
    (second : ∀ failure, Runs perform invariant middle (handler failure) post stopped) :
    Runs perform invariant pre (program.rescue handler) post stopped := by
  intro state holds begins
  refine Keeps.rescue ((first state holds begins).ending.mono ?_ ?_)
  · exact fun _ _ ends => ends.2
  · exact fun failure state ends => second failure state ends.1 ends.2

/-- A program ends in a world that can always answer. -/
theorem exists_ends (answers : ∀ op state, ∃ answer next, perform op answer state = some next)
    (program : Program Op Answer Failure α) (state : State) :
    ∃ result last, Ends perform program state result last := by
  induction program generalizing state with
  | pure value => exact ⟨_, _, .pure value state⟩
  | fail failure => exact ⟨_, _, .fail failure state⟩
  | call op rest later =>
    obtain ⟨answer, next, performed⟩ := answers op state
    obtain ⟨result, last, ends⟩ := later answer next
    exact ⟨result, last, .call op rest answer state next last result performed ends⟩

/-! ## Execution -/

/-- The state after a number of operations, with answers that depend on the state. -/
def stopAfter (perform : (op : Op) → Answer op → State → Option State)
    (answers : (op : Op) → State → Answer op) :
    Nat → Program Op Answer Failure α → State → State
  | 0, _, state => state
  | _ + 1, .pure _, state => state
  | _ + 1, .fail _, state => state
  | count + 1, .call op rest, state =>
    match perform op (answers op state) state with
    | none => state
    | some next => stopAfter perform answers count (rest (answers op state)) next

theorem stops_stopAfter (answers : (op : Op) → State → Answer op) (count : Nat)
    (program : Program Op Answer Failure α) (state : State) :
    Stops perform program state (stopAfter perform answers count program state) := by
  induction count generalizing program state with
  | zero => exact .here program state
  | succ count later =>
    cases program with
    | pure | fail => exact .here _ state
    | call op rest =>
      unfold stopAfter
      cases performed : perform op (answers op state) state with
      | none => exact .here _ state
      | some next => exact .later op rest _ state next _ performed (later _ next)

/-- The end of a program, or `none` where the answers are not those of the world. -/
def execute (perform : (op : Op) → Answer op → State → Option State)
    (answers : (op : Op) → State → Answer op) :
    Program Op Answer Failure α → State → Option (Except Failure α × State)
  | .pure value, state => some (.ok value, state)
  | .fail failure, state => some (.error failure, state)
  | .call op rest, state =>
    match perform op (answers op state) state with
    | none => none
    | some next => execute perform answers (rest (answers op state)) next

theorem ends_execute (answers : (op : Op) → State → Answer op)
    (program : Program Op Answer Failure α) (state last : State) (result : Except Failure α)
    (executed : execute perform answers program state = some (result, last)) :
    Ends perform program state result last := by
  induction program generalizing state with
  | pure value =>
    cases executed
    exact .pure value _
  | fail failure =>
    cases executed
    exact .fail failure _
  | call op rest later =>
    unfold execute at executed
    split at executed
    · cases executed
    · next after performed =>
      exact .call op rest _ state after last result performed (later _ after executed)

end ProvenanceRunner.Interruptions
