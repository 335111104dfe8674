import Mathlib.Data.List.Basic

/-! # Writers that take only a part

A call of a writer answers how much it took and whether it failed. A sequence of writes stops at
the first failure; what was taken until then is a start of what was to be written, and the number
reported is its length. -/

namespace ProvenanceRunner.Writers

variable {α : Type}

/-- The answer of one call: how many values it takes at most, and its failure. -/
structure Answer where
  count : Nat
  failure : Option String := none
deriving DecidableEq, Repr

/-- What is left by a sequence of calls: the text of the writer, the number of values it was
reported to take, and the failure that ended the sequence. -/
structure Outcome (α : Type) where
  text : List α
  count : Nat := 0
  failure : Option String := none
deriving DecidableEq, Repr

/-- A call that writes nothing and may fail. -/
def Outcome.check (failure : Option String) (text : List α) : Outcome α := { text, failure }

/-- Go on with the text left by the first calls, unless they failed. -/
def Outcome.andThen (first : Outcome α) (next : List α → Outcome α) : Outcome α :=
  match first.failure with
  | some _ => first
  | none => { next first.text with count := first.count + (next first.text).count }

/-- A start of the content was written behind the text, all of it unless there is a failure. -/
def Wrote (text content : List α) (outcome : Outcome α) : Prop :=
  ∃ taken, taken <+: content ∧ outcome.text = text ++ taken ∧ outcome.count = taken.length ∧
    (outcome.failure = none → taken = content)

variable {text content more : List α} {outcome : Outcome α}

theorem Wrote.check (text : List α) (failure : Option String) :
    Wrote text [] (.check failure text) :=
  ⟨[], List.prefix_refl _, (List.append_nil _).symm, rfl, fun _ => rfl⟩

theorem Wrote.andThen {next : List α → Outcome α} (first : Wrote text content outcome)
    (later : ∀ text, Wrote text more (next text)) :
    Wrote text (content ++ more) (outcome.andThen next) := by
  obtain ⟨taken, start, texts, count, all⟩ := first
  unfold Outcome.andThen
  split
  case h_1 failure failed =>
    refine ⟨taken, start.trans (List.prefix_append _ _), texts, count, ?_⟩
    intro success
    rw [failed] at success
    exact absurd success (Option.some_ne_none failure)
  case h_2 success =>
    obtain ⟨behind, behindStart, behindTexts, behindCount, behindAll⟩ := later outcome.text
    refine ⟨taken ++ behind, ?_, ?_, ?_, ?_⟩
    · rw [all success]
      exact (List.prefix_append_right_inj content).mpr behindStart
    · rw [behindTexts, texts, List.append_assoc]
    · rw [count, behindCount, List.length_append]
    · intro nothing
      rw [all success, behindAll nothing]

/-- One round of a copy: what was read, how the reading ended, and the answer to writing it. -/
structure Round where
  read : Answer
  write : Answer
deriving DecidableEq, Repr

/-- Write what the round reads. A write that takes less than was read ends the copy. -/
def Round.taken (round : Round) (source text : List α) : Outcome α :=
  let piece := source.take round.read.count
  let written := piece.take round.write.count
  let refused := if piece.isEmpty then none
    else round.write.failure.or
      (if written.length = piece.length then none else some "short write")
  ⟨text ++ written, written.length, refused.or round.read.failure⟩

/-- Copy a source to the writer round by round; once there are no more rounds the rest is copied
at once. -/
def copy : List Round → List α → List α → Outcome α
  | [], source, text => ⟨text ++ source, source.length, none⟩
  | round :: later, source, text =>
    if source.isEmpty then { text }
    else (round.taken source text).andThen (copy later (source.drop round.read.count))

/-- Copy so many values. Less than that is a failure, and nothing else is. -/
def copyN (rounds : List Round) (source : List α) (count : Nat) (text : List α) : Outcome α :=
  let copied := copy rounds (source.take count) text
  { copied with
    failure := if copied.count = count then none else copied.failure.or (some "EOF") }

theorem Round.wrote (round : Round) (source text : List α) :
    Wrote text (source.take round.read.count) (round.taken source text) := by
  refine ⟨_, List.take_prefix _ _, rfl, rfl, ?_⟩
  intro success
  have accepted := (Option.or_eq_none_iff.mp success).1
  split at accepted
  case isTrue empty => rw [List.isEmpty_iff.mp empty, List.take_nil]
  case isFalse =>
    have whole := (Option.or_eq_none_iff.mp accepted).2
    split at whole
    case isTrue same => exact (List.take_prefix _ _).eq_of_length same
    case isFalse => exact absurd whole (Option.some_ne_none _)

theorem copy_wrote (rounds : List Round) (source text : List α) :
    Wrote text source (copy rounds source text) := by
  induction rounds generalizing source text with
  | nil => exact ⟨source, List.prefix_refl _, rfl, rfl, fun _ => rfl⟩
  | cons round later ih =>
    rw [copy]
    split
    case isTrue empty =>
      rw [List.isEmpty_iff.mp empty]
      exact Wrote.check text none
    case isFalse =>
      have both := (round.wrote source text).andThen (ih (source.drop round.read.count))
      rwa [List.take_append_drop] at both

theorem copyN_wrote (rounds : List Round) (source : List α) (count : Nat) (text : List α) :
    Wrote text (source.take count) (copyN rounds source count text) := by
  obtain ⟨taken, start, texts, counted, -⟩ := copy_wrote rounds (source.take count) text
  refine ⟨taken, start, texts, counted, ?_⟩
  intro success
  dsimp only [copyN] at success
  split at success
  case isTrue all =>
    refine start.eq_of_length_le ?_
    rw [← counted, all]
    exact List.length_take_le count source
  case isFalse => exact absurd (Option.or_eq_none_iff.mp success).2 (Option.some_ne_none _)

end ProvenanceRunner.Writers
