import ProvenanceRunner.Library.Transducer
import ProvenanceRunner.Evidence.Normalizer

/-! # The escape sequence stripper

The second stage removes terminal escape sequences byte by byte. A line break ends every unfinished
control sequence and is kept; a control or operating system command that grows to 256 bytes is
given up. -/

namespace ProvenanceRunner.Evidence

open Utf8

inductive AnsiState where
  | text
  | escape
  | csi
  | osc
  | oscEscape
deriving DecidableEq, Repr

structure AnsiStripper where
  state : AnsiState := .text
  sequenceLength : Nat := 0
deriving DecidableEq, Repr

/-- A byte that ends a line on some terminal: line feed or carriage return. -/
def isLineBreak (value : UInt8) : Bool := value == 0x0A || value == 0x0D

/-- The length at which an unfinished sequence is given up. -/
def maximumSequence : Nat := 256

/-- One byte: the next state and the byte itself where it is kept. -/
def AnsiStripper.step (stripper : AnsiStripper) (value : UInt8) : AnsiStripper × Bytes :=
  match stripper.state with
  | .text =>
    if value = 0x1B then (⟨.escape, 0⟩, []) else (stripper, [value])
  | .escape =>
    if value = 0x5B then ({ stripper with state := .csi }, [])
    else if value = 0x5D then ({ stripper with state := .osc }, [])
    else if value = 0x37 ∨ value = 0x38 ∨ value = 0x3D ∨ value = 0x3E then
      ({ stripper with state := .text }, [])
    else ({ stripper with state := .text }, if isLineBreak value then [value] else [])
  | .csi =>
    let length := stripper.sequenceLength + 1
    if isLineBreak value then (⟨.text, length⟩, [value])
    else if 0x40 ≤ value ∧ value ≤ 0x7E then (⟨.text, length⟩, [])
    else if maximumSequence ≤ length then (⟨.text, length⟩, [])
    else (⟨.csi, length⟩, [])
  | .osc =>
    let length := stripper.sequenceLength + 1
    if value = 0x07 then (⟨.text, length⟩, [])
    else if value = 0x1B then (⟨.oscEscape, length⟩, [])
    else if isLineBreak value then (⟨.text, length⟩, [value])
    else if maximumSequence ≤ length then (⟨.text, length⟩, [])
    else (⟨.osc, length⟩, [])
  | .oscEscape =>
    if value = 0x5C then ({ stripper with state := .text }, [])
    else ({ stripper with state := .osc }, [])

def AnsiStripper.write (stripper : AnsiStripper) (content : Bytes) : AnsiStripper × Bytes :=
  Transducer.run AnsiStripper.step stripper content

/-- An unfinished sequence at the end of the stream is dropped. -/
def AnsiStripper.finish (stripper : AnsiStripper) : AnsiStripper :=
  { stripper with state := .text }

namespace AnsiStripper

variable (stripper : AnsiStripper)

theorem write_append (front rest : Bytes) :
    stripper.write (front ++ rest) =
      (((stripper.write front).1.write rest).1,
        (stripper.write front).2 ++ ((stripper.write front).1.write rest).2) :=
  Transducer.run_append _ _ _ _

/-- Outside escape sequences every byte but the escape itself is kept. -/
theorem write_plain (content : Bytes) (text : stripper.state = .text)
    (ordinary : ∀ value ∈ content, value ≠ 0x1B) :
    stripper.write content = (stripper, content) := by
  induction content with
  | nil => rfl
  | cons value rest ih =>
    have kept : stripper.step value = (stripper, [value]) := by
      simp [step, text, ordinary value (by simp)]
    have later := ih (fun item inside => ordinary item (List.mem_cons_of_mem _ inside))
    rw [write] at later ⊢
    rw [Transducer.run_cons, kept, later]
    rfl

/-- A byte is kept or dropped, never changed. -/
theorem step_output (value : UInt8) :
    (stripper.step value).2 = [] ∨ (stripper.step value).2 = [value] := by
  obtain ⟨state, _⟩ := stripper
  cases state <;> simp only [step] <;> repeat' split
  all_goals simp

/-- A byte outside the ASCII range breaks no line and is dropped inside an escape sequence. -/
theorem step_high (value : UInt8) (high : 0x80 ≤ value) (inside : stripper.state ≠ .text) :
    (stripper.step value).2 = [] := by
  have noBreak : isLineBreak value = false := by
    cases breaks : isLineBreak value with
    | false => rfl
    | true =>
      simp only [isLineBreak, Bool.or_eq_true, beq_iff_eq] at breaks
      rcases breaks with rfl | rfl
      · exact absurd high (by decide)
      · exact absurd high (by decide)
  obtain ⟨state, _⟩ := stripper
  cases state with
  | text => exact absurd rfl inside
  | escape | csi | osc =>
    simp only [step, noBreak, Bool.false_eq_true, if_false]
    repeat' split
    all_goals rfl
  | oscEscape =>
    simp only [step]
    split <;> rfl

/-- Bytes outside the ASCII range are dropped until the sequence ends, and then all kept. -/
theorem write_high (content : Bytes) (high : ∀ value ∈ content, 0x80 ≤ value) :
    ∃ dropped kept, content = dropped ++ kept ∧ (stripper.write content).2 = kept ∧
      (stripper.state = .text → dropped = []) ∧
      (kept ≠ [] → (stripper.write dropped).1.state = .text) ∧
      ∀ front rest, content = front ++ rest → (stripper.write front).1.state = .text →
        dropped.length ≤ front.length := by
  induction content generalizing stripper with
  | nil => exact ⟨[], [], rfl, rfl, fun _ => rfl, fun kept => absurd rfl kept, by simp⟩
  | cons value others ih =>
    by_cases text : stripper.state = .text
    · have plain := write_plain stripper (value :: others) text (by
        intro item member isEscape
        have large := high item member
        rw [isEscape] at large
        exact absurd large (by decide))
      refine ⟨[], value :: others, rfl, by rw [plain], fun _ => rfl, fun _ => text, ?_⟩
      intro front rest _ _
      simp
    · have silent := step_high stripper value (high value (by simp)) text
      obtain ⟨dropped, kept, split, output, -, ended, least⟩ :=
        ih (stripper.step value).1 (fun item inside => high item (List.mem_cons_of_mem _ inside))
      have next : ∀ rest, stripper.write (value :: rest) =
          ((stripper.step value).1.write rest) := by
        intro rest
        rw [write, Transducer.run_cons, silent, List.nil_append]
        rfl
      refine ⟨value :: dropped, kept, by rw [split, List.cons_append], ?_, ?_, ?_, ?_⟩
      · rw [next, output]
      · intro isText
        exact absurd isText text
      · intro nonempty
        rw [next]
        exact ended nonempty
      · intro front rest whole isText
        cases front with
        | nil => exact absurd isText text
        | cons head front =>
          rw [List.cons_append] at whole
          obtain ⟨rfl, remaining⟩ := List.cons.inj whole
          rw [next] at isText
          have bound := least front rest remaining isText
          simp only [List.length_cons]
          omega

/-- An escape sequence ends inside the rune, which loses its first bytes and keeps its last. -/
def Breaks (stripper : AnsiStripper) (rune : Bytes) : Prop :=
  ∃ front rest, rune = front ++ rest ∧ front ≠ [] ∧ rest ≠ [] ∧ stripper.state ≠ .text ∧
    (stripper.write front).1.state = .text

/-- No escape sequence of the text ends inside a rune. -/
def EndsAtRunes (stripper : AnsiStripper) (text : Bytes) : Prop :=
  ∀ before rune after, text = before ++ rune ++ after → valid before = true → IsRune rune →
    ¬ (stripper.write before).1.Breaks rune

/-- A rune in which no escape sequence ends is kept or dropped whole. -/
theorem write_rune_valid (rune : Bytes) (isRune : IsRune rune) (whole : ¬ stripper.Breaks rune) :
    valid (stripper.write rune).2 = true := by
  cases rune with
  | nil => exact isRune.elim
  | cons lead tail =>
    cases tail with
    | nil =>
      rw [write, Transducer.run_singleton]
      rcases step_output stripper lead with output | output
      · rw [output, valid_nil]
      · rw [output]
        exact isRune.valid
    | cons second more =>
      obtain ⟨dropped, kept, split, output, atText, ended, -⟩ :=
        write_high stripper (lead :: second :: more) isRune.bytes_high
      rw [output]
      by_cases text : stripper.state = .text
      · rw [atText text, List.nil_append] at split
        rw [← split]
        exact isRune.valid
      · cases kept with
        | nil => rfl
        | cons head others =>
          refine absurd ⟨dropped, head :: others, split, ?_, by simp, text, ended (by simp)⟩ whole
          rintro rfl
          exact text (ended (by simp))

/-- A rune in which an escape sequence ends leaves continuation bytes behind. -/
theorem write_rune_broken (rune : Bytes) (isRune : IsRune rune) (broken : stripper.Breaks rune) :
    ∃ head others, (stripper.write rune).2 = head :: others ∧ isContinuation head = true := by
  obtain ⟨front, rest, whole, frontNonempty, restNonempty, inside, reached⟩ := broken
  cases rune with
  | nil => exact isRune.elim
  | cons lead tail =>
    cases tail with
    | nil =>
      have total := congrArg List.length whole
      have frontPositive := List.length_pos_of_ne_nil frontNonempty
      have restPositive := List.length_pos_of_ne_nil restNonempty
      simp only [List.length_append, List.length_singleton] at total
      omega
    | cons second more =>
      obtain ⟨dropped, kept, split, output, -, ended, least⟩ :=
        write_high stripper (lead :: second :: more) isRune.bytes_high
      have bound := least front rest whole reached
      have total := congrArg List.length (whole.symm.trans split)
      have restPositive := List.length_pos_of_ne_nil restNonempty
      simp only [List.length_append] at total
      cases kept with
      | nil =>
        rw [List.length_nil] at total
        omega
      | cons head others =>
        refine ⟨head, others, output, ?_⟩
        cases dropped with
        | nil => exact absurd (ended (by simp)) inside
        | cons =>
          rw [List.cons_append] at split
          obtain ⟨rfl, remaining⟩ := List.cons.inj split
          have continues := isRune.tail_continues
          rw [remaining, List.all_append, List.all_cons, Bool.and_eq_true, Bool.and_eq_true]
            at continues
          exact continues.2.1

/-- The condition on a text is one on its first rune and one on the rest. -/
theorem endsAtRunes_rune_iff (rune rest : Bytes) (isRune : IsRune rune) :
    stripper.EndsAtRunes (rune ++ rest) ↔
      ¬ stripper.Breaks rune ∧ (stripper.write rune).1.EndsAtRunes rest := by
  constructor
  · intro ends
    refine ⟨ends [] rune rest (by simp) rfl isRune, ?_⟩
    intro before other after whole accepted otherRune
    have later := ends (rune ++ before) other after (by simp [whole])
      (by rw [valid_rune_append rune before isRune, accepted]) otherRune
    rwa [write_append] at later
  · rintro ⟨unbroken, ends⟩ before other after whole accepted otherRune
    cases before with
    | nil =>
      rw [List.nil_append] at whole
      obtain ⟨rfl, -⟩ := isRune.unique otherRune whole
      exact unbroken
    | cons head tail =>
      obtain ⟨_, others, split, firstRune, othersValid⟩ :=
        valid_starts (head :: tail) accepted (by simp)
      rw [split, List.append_assoc, List.append_assoc] at whole
      obtain ⟨rfl, remaining⟩ := isRune.unique firstRune whole
      have later := ends others other after (by rw [remaining, List.append_assoc]) othersValid
        otherRune
      rwa [split, write_append]

/-- The stripper keeps valid text valid exactly when no escape sequence ends inside a rune. The
first rune in which one ends leaves a continuation byte where a rune should start. -/
theorem write_valid_iff (text : Bytes) (accepted : valid text = true) :
    valid (stripper.write text).2 = true ↔ stripper.EndsAtRunes text := by
  refine valid_induction (motive := fun text => ∀ stripper : AnsiStripper,
    valid (stripper.write text).2 = true ↔ stripper.EndsAtRunes text) ?_ ?_ text accepted stripper
  · intro stripper
    refine ⟨fun _ => ?_, fun _ => rfl⟩
    intro before rune after whole _ isRune
    have positive := isRune.length_pos
    have total := congrArg List.length whole
    simp only [List.length_nil, List.length_append] at total
    omega
  · intro rune rest isRune _ ih stripper
    rw [endsAtRunes_rune_iff stripper rune rest isRune, write_append]
    by_cases broken : stripper.Breaks rune
    · obtain ⟨head, _, output, continues⟩ := write_rune_broken stripper rune isRune broken
      rw [output, List.cons_append, valid_continuation head _ continues]
      simp [broken]
    · rw [valid_append _ _ (write_rune_valid stripper rune isRune broken), ih]
      simp [broken]

end AnsiStripper

end ProvenanceRunner.Evidence
