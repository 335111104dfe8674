import ProvenanceRunner.Library.Lines
import ProvenanceRunner.Library.Transducer
import ProvenanceRunner.Library.Utf8

/-! # The line limiter

A line limiter collects bytes up to a line feed. Past its maximum it discards the rest of the line
and marks the line as truncated. A line is shortened to valid UTF-8 when it is flushed.

What a limiter hands over for a whole text is `limitLine` of each of its lines. Whether a line was
redacted is a flag the limiter only carries along; `shown` is everything else. -/

namespace ProvenanceRunner.Evidence

open Utf8

/-- The text put where a line was cut. -/
def lineTruncationMarker : Bytes := encode "[... line truncated ...]"

/-- A flushed line with the flags its receiver is told. -/
structure Line where
  data : Bytes
  truncated : Bool
  isPartial : Bool
  redacted : Bool
deriving DecidableEq, Repr

structure LineLimiter where
  maximum : Nat
  line : Bytes := []
  discarding : Bool := false
  redacted : Bool := false
deriving DecidableEq, Repr

/-- Hand over the collected line and start the next one. -/
def LineLimiter.flush (limiter : LineLimiter) (newline : Bool) : LineLimiter × List Line :=
  let output := trimInvalid limiter.line ++
    (if limiter.discarding then lineTruncationMarker else []) ++
    (if newline then [0x0A] else [])
  ({ limiter with line := [], discarding := false, redacted := false },
    [⟨output, limiter.discarding, !newline, limiter.redacted⟩])

def LineLimiter.step (limiter : LineLimiter) (value : UInt8) : LineLimiter × List Line :=
  if value = 0x0A then limiter.flush true
  else if limiter.discarding then (limiter, [])
  else if limiter.maximum ≤ limiter.line.length then ({ limiter with discarding := true }, [])
  else ({ limiter with line := limiter.line ++ [value] }, [])

def LineLimiter.write (limiter : LineLimiter) (content : Bytes) (redacted : Bool) :
    LineLimiter × List Line :=
  Transducer.run LineLimiter.step
    (if redacted then { limiter with redacted := true } else limiter) content

def LineLimiter.finish (limiter : LineLimiter) : LineLimiter × List Line :=
  if limiter.line.length > 0 ∨ limiter.discarding = true then limiter.flush false
  else (limiter, [])

def isNewline (value : UInt8) : Bool := value == 0x0A

theorem getLast?_ne_newline {content : Bytes}
    (quiet : ∀ value ∈ content, isNewline value = false) : content.getLast? ≠ some 0x0A := by
  intro last
  have silent := quiet 0x0A (List.mem_of_getLast? last)
  cases silent

/-- What is handed over of a line besides the redaction flag: its bytes, whether it was truncated
and whether it is unfinished. -/
def Line.shown (line : Line) : Bytes × Bool × Bool := (line.data, line.truncated, line.isPartial)

/-- The bytes of a line as far as a limiter keeps them, and whether it has to cut. -/
def limitContent (maximum : Nat) (content : Bytes) : Bytes × Bool :=
  if content.length ≤ maximum then (trimInvalid content, false)
  else (trimInvalid (content.take maximum) ++ lineTruncationMarker, true)

/-- A line of a text as a limiter hands it over. -/
def limitLine (maximum : Nat) (line : Bytes) : Bytes × Bool × Bool :=
  if line.getLast? = some 0x0A then
    ((limitContent maximum line.dropLast).1 ++
      [0x0A], (limitContent maximum line.dropLast).2, false)
  else ((limitContent maximum line).1, (limitContent maximum line).2, true)

/-- The limiter has taken the content since its last line feed. -/
structure LineLimiter.Holds (limiter : LineLimiter) (content : Bytes) : Prop where
  line : limiter.line = content.take limiter.maximum
  discarding : limiter.discarding = decide (limiter.maximum < content.length)

namespace LineLimiter

variable (limiter : LineLimiter) (left right : LineLimiter) (content : Bytes)

theorem holds_nil (line : limiter.line = []) (kept : limiter.discarding = false) :
    limiter.Holds [] :=
  ⟨by simp [line], by simp [kept]⟩

/-- A byte that ends no line is taken without handing anything over. -/
theorem step_holds (value : UInt8) (holds : limiter.Holds content)
    (ordinary : isNewline value = false) :
    (limiter.step value).2 = [] ∧ (limiter.step value).1.maximum = limiter.maximum ∧
      (limiter.step value).1.redacted = limiter.redacted ∧
      (limiter.step value).1.Holds (content ++ [value]) := by
  obtain ⟨line, discarding⟩ := holds
  have inside : value ≠ 0x0A := by simpa [isNewline] using ordinary
  unfold step
  rw [if_neg inside]
  by_cases beyond : limiter.maximum < content.length
  · have skipping : limiter.discarding = true := by rw [discarding, decide_eq_true beyond]
    rw [if_pos skipping]
    refine ⟨rfl, rfl, rfl, ?_, ?_⟩
    · change limiter.line = (content ++ [value]).take limiter.maximum
      rw [line, List.take_append_of_le_length (by omega)]
    · change limiter.discarding = decide (limiter.maximum < (content ++ [value]).length)
      rw [skipping, decide_eq_true (by simp only [List.length_append]; omega)]
  · have keeping : ¬ limiter.discarding = true := by simp [discarding, beyond]
    rw [if_neg keeping]
    have length : limiter.line.length = content.length := by
      rw [line, List.length_take]
      omega
    by_cases full : limiter.maximum ≤ limiter.line.length
    · rw [if_pos full]
      refine ⟨rfl, rfl, rfl, ?_, ?_⟩
      · simp only [line]
        rw [List.take_append_of_le_length (by omega)]
      · simp only [List.length_append, List.length_singleton]
        exact (decide_eq_true (by omega)).symm
    · rw [if_neg full]
      refine ⟨rfl, rfl, rfl, ?_, ?_⟩
      · simp only [line]
        rw [List.take_of_length_le (by omega), List.take_of_length_le]
        simp only [List.length_append, List.length_singleton]
        omega
      · simp only [List.length_append, List.length_singleton]
        rw [discarding, decide_eq_false beyond, decide_eq_false (by omega)]

/-- What a flush hands over. -/
theorem flush_holds (newline : Bool) (holds : limiter.Holds content) :
    limiter.flush newline =
      ({ limiter with line := [], discarding := false, redacted := false },
        [⟨(limitContent limiter.maximum content).1 ++ (if newline then [0x0A] else []),
          (limitContent limiter.maximum content).2, !newline, limiter.redacted⟩]) := by
  obtain ⟨line, discarding⟩ := holds
  unfold flush limitContent
  rw [line, discarding]
  by_cases fits : content.length ≤ limiter.maximum
  · have below : ¬ limiter.maximum < content.length := by omega
    simp [fits, below, List.take_of_length_le fits]
  · have above : limiter.maximum < content.length := by omega
    simp [fits, above]

/-- Bytes that end no line are all taken. -/
theorem run_holds (content more : Bytes) (holds : limiter.Holds content)
    (quiet : ∀ value ∈ more, isNewline value = false) :
    (Transducer.run step limiter more).2 = [] ∧
      (Transducer.run step limiter more).1.maximum = limiter.maximum ∧
      (Transducer.run step limiter more).1.redacted = limiter.redacted ∧
      (Transducer.run step limiter more).1.Holds (content ++ more) := by
  induction more generalizing limiter content with
  | nil => exact ⟨rfl, rfl, rfl, by simpa using holds⟩
  | cons value rest ih =>
    obtain ⟨silent, maximum, redacted, taken⟩ :=
      step_holds limiter content value holds (quiet value (by simp))
    obtain ⟨later, laterMaximum, laterRedacted, all⟩ :=
      ih _ _ taken (fun item inside => quiet item (List.mem_cons_of_mem _ inside))
    rw [Transducer.run_cons]
    refine ⟨by rw [silent, later, List.nil_append], laterMaximum.trans maximum,
      laterRedacted.trans redacted, ?_⟩
    simpa using all

/-- A finished line hands over exactly that line and leaves the limiter empty. -/
theorem run_line (content front : Bytes) (holds : limiter.Holds content)
    (quiet : ∀ value ∈ front, isNewline value = false) :
    Transducer.run step limiter (front ++ [0x0A]) =
      ({ limiter with line := [], discarding := false, redacted := false },
        [⟨(limitContent limiter.maximum (content ++ front)).1 ++ [0x0A],
          (limitContent limiter.maximum (content ++ front)).2, false, limiter.redacted⟩]) := by
  obtain ⟨silent, maximum, redacted, taken⟩ := run_holds limiter content front holds quiet
  have newline : ∀ limiter : LineLimiter, limiter.step 0x0A = limiter.flush true := fun _ => rfl
  rw [Transducer.run_append, Transducer.run_singleton, silent, newline,
    flush_holds _ (content ++ front) true taken, maximum, redacted]
  generalize (Transducer.run step limiter front).1 = reached at maximum
  cases reached
  cases maximum
  rfl

/-- An empty limiter has nothing to hand over. -/
theorem finish_empty (empty : limiter = { maximum := limiter.maximum }) :
    limiter.finish = (limiter, []) := by
  have line : limiter.line = [] := by rw [empty]
  have discarding : limiter.discarding = false := by rw [empty]
  simp [finish, line, discarding]

/-- An unfinished line is handed over at the end of the stream. -/
theorem finish_holds (holds : limiter.Holds content) (nonempty : content ≠ [])
    (quiet : ∀ value ∈ content, isNewline value = false) :
    limiter.finish.2 =
      [⟨(limitLine limiter.maximum content).1, (limitLine limiter.maximum content).2.1,
        (limitLine limiter.maximum content).2.2, limiter.redacted⟩] := by
  have positive : 0 < content.length := List.length_pos_of_ne_nil nonempty
  have pending : limiter.line.length > 0 ∨ limiter.discarding = true := by
    by_cases room : 0 < limiter.maximum
    · left
      rw [holds.line, List.length_take]
      omega
    · right
      rw [holds.discarding, decide_eq_true (by omega)]
  rw [finish, if_pos pending, flush_holds _ content false holds]
  simp [limitLine, getLast?_ne_newline quiet]

/-- For a whole text a limiter hands over each of its lines, and nothing else. -/
theorem run_finish_shown (text : Bytes) (line : limiter.line = [])
    (kept : limiter.discarding = false) :
    ((Transducer.run step limiter text).2 ++
        (Transducer.run step limiter text).1.finish.2).map Line.shown =
      (Lines.lines isNewline text).map (limitLine limiter.maximum) := by
  induction text using Lines.lines_induction isNewline generalizing limiter with
  | unfinished text quiet =>
    obtain ⟨silent, maximum, -, holds⟩ :=
      run_holds limiter [] text (holds_nil limiter line kept) quiet
    rw [silent, List.nil_append]
    cases text with
    | nil => simp [finish, line, kept, Lines.lines]
    | cons value rest =>
      rw [finish_holds _ (value :: rest) holds (by simp) quiet, maximum,
        Lines.lines_open isNewline (value :: rest) (by simp) quiet]
      rfl
  | line front last rest quiet ended ih =>
    have newline : last = 0x0A := by simpa [isNewline] using ended
    subst newline
    have whole : front ++ 0x0A :: rest = (front ++ [0x0A]) ++ rest := by simp
    rw [Lines.lines_append_end isNewline front 0x0A rest quiet ended, whole, Transducer.run_append,
      run_line limiter [] front (holds_nil limiter line kept) quiet, List.append_assoc,
      List.map_append, ih _ rfl rfl]
    simp [Line.shown, limitLine]

/-- Two limiters that differ at most in the redaction flag. -/
structure Agrees (left right : LineLimiter) : Prop where
  maximum : left.maximum = right.maximum
  line : left.line = right.line
  discarding : left.discarding = right.discarding

theorem flush_agrees (newline : Bool) (agrees : left.Agrees right) :
    (left.flush newline).1.Agrees (right.flush newline).1 ∧
      (left.flush newline).2.map Line.shown = (right.flush newline).2.map Line.shown := by
  obtain ⟨maximum, line, discarding⟩ := agrees
  exact ⟨⟨maximum, rfl, rfl⟩, by simp [flush, Line.shown, line, discarding]⟩

/-- The redaction flag decides nothing but itself. -/
theorem step_agrees (value : UInt8) (agrees : left.Agrees right) :
    (left.step value).1.Agrees (right.step value).1 ∧
      (left.step value).2.map Line.shown = (right.step value).2.map Line.shown := by
  have flushed := flush_agrees left right true agrees
  obtain ⟨maximum, line, discarding⟩ := agrees
  unfold step
  rw [maximum, line, discarding]
  split
  · exact flushed
  split
  · exact ⟨⟨maximum, line, discarding⟩, rfl⟩
  · split
    · exact ⟨⟨rfl, rfl, rfl⟩, rfl⟩
    · exact ⟨⟨rfl, rfl, rfl⟩, rfl⟩

theorem run_agrees (agrees : left.Agrees right) :
    (Transducer.run step left content).1.Agrees (Transducer.run step right content).1 ∧
      (Transducer.run step left content).2.map Line.shown =
        (Transducer.run step right content).2.map Line.shown := by
  induction content generalizing left right with
  | nil => exact ⟨agrees, rfl⟩
  | cons value rest ih =>
    obtain ⟨next, shown⟩ := step_agrees left right value agrees
    obtain ⟨final, later⟩ := ih _ _ next
    refine ⟨final, ?_⟩
    simp only [Transducer.run_cons, List.map_append, shown, later]

theorem write_agrees (redacted : Bool) (agrees : left.Agrees right) :
    (left.write content redacted).1.Agrees (Transducer.run step right content).1 ∧
      (left.write content redacted).2.map Line.shown =
        (Transducer.run step right content).2.map Line.shown := by
  refine run_agrees _ right content ?_
  cases redacted
  · exact agrees
  · exact ⟨agrees.maximum, agrees.line, agrees.discarding⟩

theorem finish_agrees (agrees : left.Agrees right) :
    left.finish.2.map Line.shown = right.finish.2.map Line.shown := by
  have flushed := flush_agrees left right false agrees
  unfold finish
  rw [agrees.line, agrees.discarding]
  split
  · exact flushed.2
  · rfl

end LineLimiter

end ProvenanceRunner.Evidence
