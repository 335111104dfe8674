import ProvenanceRunner.Library.Utf8

/-! # Recognisers

A recogniser takes a part off the front of its input and answers with what is left. It stops where
it refuses the input, and where it looks outside. `Recognises` gives the parts that it takes off as
a set of lists: `skip`, `andThen` and `times` have one rule each, and a recogniser that is built
from them is described by the rules alone. -/

namespace ProvenanceRunner.Recognisers

/-- Why a recogniser stops. -/
inductive Stop where
  | refused
  | outside
deriving DecidableEq, Repr

variable {Item : Type}

/-- What is left of the input behind a part. -/
abbrev Recogniser (Item : Type) := List Item → Except Stop (List Item)

/-- The recogniser never looks outside, and takes off exactly the parts of the given shape. -/
structure Recognises (scan : Recogniser Item) (shape : List Item → Prop) : Prop where
  inside : ∀ data, scan data ≠ .error .outside
  exact : ∀ data rest, scan data = .ok rest ↔ ∃ part, shape part ∧ data = part ++ rest

/-- Takes off a number of items. -/
def skip (count : Nat) : Recogniser Item := fun data =>
  if data.length < count then .error .refused else .ok (data.drop count)

/-- One recogniser behind another. -/
def andThen (first second : Recogniser Item) : Recogniser Item := fun data =>
  match first data with
  | .error stop => .error stop
  | .ok rest => second rest

/-- So many of one recogniser, each behind the one before. -/
def times (scan : Recogniser Item) : Nat → Recogniser Item
  | 0 => .ok
  | count + 1 => andThen scan (times scan count)

variable {scan first second : Recogniser Item} {shape shape' : List Item → Prop}

theorem recognises_skip (count : Nat) :
    Recognises (skip count) fun part : List Item => part.length = count := by
  constructor
  · intro data
    unfold skip
    split <;> simp
  intro data rest
  unfold skip
  constructor
  · intro taken
    split at taken
    · cases taken
    next enough =>
      cases taken
      exact ⟨data.take count, List.length_take_of_le (by omega), (List.take_append_drop _ _).symm⟩
  · rintro ⟨part, rfl, rfl⟩
    rw [if_neg (by simp), List.drop_left]

/-- One part behind another is the concatenation of two parts. -/
theorem Recognises.andThen (reads : Recognises first shape) (reads' : Recognises second shape') :
    Recognises (andThen first second) fun whole =>
      ∃ part part', shape part ∧ shape' part' ∧ whole = part ++ part' := by
  constructor
  · intro data
    unfold Recognisers.andThen
    split
    next taken => exact fun outside => reads.inside data (taken.trans outside)
    next rest _ => exact reads'.inside rest
  intro data rest
  unfold Recognisers.andThen
  constructor
  · intro taken
    split at taken
    · cases taken
    next before =>
      obtain ⟨part, is, rfl⟩ := (reads.exact _ _).1 before
      obtain ⟨part', is', rfl⟩ := (reads'.exact _ _).1 taken
      exact ⟨part ++ part', ⟨part, part', is, is', rfl⟩, (List.append_assoc _ _ _).symm⟩
  · rintro ⟨_, ⟨part, part', is, is', rfl⟩, rfl⟩
    rw [List.append_assoc, (reads.exact _ _).2 ⟨part, is, rfl⟩]
    exact (reads'.exact _ _).2 ⟨part', is', rfl⟩

theorem Recognises.congr (reads : Recognises scan shape) (same : ∀ part, shape part ↔ shape' part) :
    Recognises scan shape' :=
  (funext fun part => propext (same part) : shape = shape') ▸ reads

/-- So many parts in a row. -/
def Repeated (shape : List Item → Prop) (count : Nat) (whole : List Item) : Prop :=
  ∃ parts : List (List Item), parts.length = count ∧ (∀ part ∈ parts, shape part) ∧
    whole = parts.flatten

/-- Induction on the number: one part, and the rest behind it. -/
theorem Recognises.times (reads : Recognises scan shape) (count : Nat) :
    Recognises (times scan count) (Repeated shape count) := by
  induction count with
  | zero =>
    refine ⟨fun data => by simp [Recognisers.times], fun data rest => ?_⟩
    simp [Recognisers.times, Repeated]
  | succ count induction =>
    refine (reads.andThen induction).congr fun whole => ?_
    constructor
    · rintro ⟨part, _, is, ⟨parts, rfl, all, rfl⟩, rfl⟩
      exact ⟨part :: parts, rfl, List.forall_mem_cons.2 ⟨is, all⟩, rfl⟩
    · rintro ⟨parts, length, all, rfl⟩
      obtain ⟨part, parts, rfl⟩ := List.exists_cons_of_length_eq_add_one length
      obtain ⟨is, all⟩ := List.forall_mem_cons.1 all
      exact ⟨part, _, is, ⟨parts, by simpa using length, all, rfl⟩, rfl⟩

end ProvenanceRunner.Recognisers
