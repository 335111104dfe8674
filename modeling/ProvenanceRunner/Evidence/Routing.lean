import Mathlib.Data.List.Induction
import ProvenanceRunner.Evidence.Processor

/-! # Routing line by line

The router decides byte by byte; what it does is decided line by line. A line that starts with the
configured text goes to the structured sink as a whole, every other line to the raw sink as a
whole. `routeLine` says this for one line, and `routeMatched_lines` that the router does exactly
this to every line of a finished stream. -/

namespace ProvenanceRunner.Evidence

open Utf8

def isLineEnd (cell : Cell) : Bool := isNewline cell.value

/-- A line that starts with the configured text, where one is configured. -/
def isStructuredLine (linePrefix : Bytes) (line : List Cell) : Bool :=
  !linePrefix.isEmpty && linePrefix.isPrefixOf (line.map Cell.value)

/-- The verdict on the masked bytes of a structured line: none may be in its configured start or
outside the string bodies of its JSON text. -/
def verdict (linePrefix : Bytes) (line : List Cell) : Bool × JsonCursor :=
  (line.drop linePrefix.length).foldl unsafeStep
    ((line.take linePrefix.length).any Cell.masked, {})

theorem LineLimiter.write_plain (limiter : LineLimiter) (content : Bytes) :
    limiter.write content false = Transducer.run LineLimiter.step limiter content := rfl

namespace Router

/-- The router is at the start of a line. -/
structure AtStart (router : Router) : Prop where
  route : router.route = .undecided
  probe : router.probe = []
  empty : router.structured.line = { maximum := router.structured.line.maximum }

theorem AtStart.holds {router : Router} (start : router.AtStart) :
    router.structured.line.Holds [] :=
  LineLimiter.holds_nil _ (by rw [start.empty]) (by rw [start.empty])

/-- One whole line. -/
def routeLine (router : Router) (line : List Cell) : Router × List Emission :=
  if isStructuredLine router.linePrefix line then
    let seen := verdict router.linePrefix line
    let shown := limitLine router.structured.line.maximum (line.map Cell.value)
    ({ router with
        raw := line.foldl RawSink.pass router.raw
        structured := { router.structured with structuredUnsafe := seen.1, cursor := seen.2 } },
      [structuredEmission seen.1 ⟨shown.1, shown.2.1, shown.2.2, false⟩])
  else router.emitMatchedRaw line

/-- All lines of a stream, and what is left in the raw sink at its end. -/
def routeLines (router : Router) (cells : List Cell) : List Emission :=
  let routed := Transducer.run routeLine router (Lines.lines isLineEnd cells)
  routed.2 ++ routed.1.raw.line.finish.2.map .raw

/-- The state inside a line whose bytes so far are the given ones. -/
def inside (router : Router) (cells : List Cell) : Router × List Emission :=
  if (cells.map Cell.value) <+: router.linePrefix ∧ cells.length < router.linePrefix.length then
    ({ router with probe := cells }, [])
  else if router.linePrefix <+: cells.map Cell.value then
    let seen := verdict router.linePrefix cells
    ({ router with
        route := .structured
        raw := cells.foldl RawSink.pass router.raw
        structured :=
          { line := (Transducer.run LineLimiter.step router.structured.line
              (cells.map Cell.value)).1
            structuredUnsafe := seen.1
            cursor := seen.2 } }, [])
  else
    let emitted := router.emitMatchedRaw cells
    ({ emitted.1 with route := .raw }, emitted.2)

variable (router : Router) (cells : List Cell)

theorem emitMatchedRaw_append (front rest : List Cell) :
    router.emitMatchedRaw (front ++ rest) =
      (((router.emitMatchedRaw front).1.emitMatchedRaw rest).1,
        (router.emitMatchedRaw front).2 ++
          ((router.emitMatchedRaw front).1.emitMatchedRaw rest).2) := by
  simp only [emitMatchedRaw, Transducer.run_append, List.map_append]

theorem verdict_append (linePrefix : Bytes) (cells : List Cell) (cell : Cell)
    (started : linePrefix.length ≤ cells.length) :
    verdict linePrefix (cells ++ [cell]) = unsafeStep (verdict linePrefix cells) cell := by
  unfold verdict
  rw [List.drop_append_of_le_length started, List.take_append_of_le_length started,
    List.foldl_append]
  rfl

/-- A byte that ends no line takes one step on the current route. -/
theorem routeMatched_quiet (cell : Cell) (route : Route) (configured : router.linePrefix ≠ [])
    (current : router.route = route) (quiet : isLineEnd cell = false) :
    router.routeMatched cell = router.routeStep cell route := by
  have length : router.linePrefix.length ≠ 0 := by simpa using configured
  have ordinary : cell.value ≠ 0x0A := by simpa [isLineEnd, isNewline] using quiet
  simp only [routeMatched, length, if_false, ordinary, current]

/-- While the bytes of a line agree with the configured text they are probed. -/
theorem inside_probing (agrees : (cells.map Cell.value) <+: router.linePrefix)
    (short : cells.length < router.linePrefix.length) :
    router.inside cells = ({ router with probe := cells }, []) := by
  simp only [inside, agrees, short, and_self, if_true]

/-- A line that starts with the configured text is collected by the structured sink. -/
theorem inside_structured (starts : router.linePrefix <+: cells.map Cell.value) :
    router.inside cells =
      ({ router with
          route := .structured
          raw := cells.foldl RawSink.pass router.raw
          structured :=
            { line := (Transducer.run LineLimiter.step router.structured.line
                (cells.map Cell.value)).1
              structuredUnsafe := (verdict router.linePrefix cells).1
              cursor := (verdict router.linePrefix cells).2 } }, []) := by
  have long := starts.length_le
  rw [List.length_map] at long
  have full : ¬ ((cells.map Cell.value) <+: router.linePrefix ∧
      cells.length < router.linePrefix.length) := by
    omega
  simp only [inside, full, starts, if_false, if_true]

/-- Every other line is raw. -/
theorem inside_raw (differs : ¬ (cells.map Cell.value) <+: router.linePrefix)
    (other : ¬ router.linePrefix <+: cells.map Cell.value) :
    router.inside cells =
      ({ (router.emitMatchedRaw cells).1 with route := .raw },
        (router.emitMatchedRaw cells).2) := by
  simp only [inside, differs, other, false_and, if_false]

/-- The three ways in which the bytes of a line compare with the configured text. -/
theorem compare_cases :
    (cells.map Cell.value <+: router.linePrefix ∧ cells.length < router.linePrefix.length) ∨
      router.linePrefix <+: cells.map Cell.value ∨
      (¬ cells.map Cell.value <+: router.linePrefix ∧
        ¬ router.linePrefix <+: cells.map Cell.value) := by
  by_cases agrees : cells.map Cell.value <+: router.linePrefix
  · by_cases short : cells.length < router.linePrefix.length
    · exact .inl ⟨agrees, short⟩
    have bound := agrees.length_le
    rw [List.length_map] at bound
    have same := agrees.eq_of_length (by rw [List.length_map]; omega)
    exact .inr (.inl (same ▸ List.prefix_rfl))
  · by_cases starts : router.linePrefix <+: cells.map Cell.value
    · exact .inr (.inl starts)
    · exact .inr (.inr ⟨agrees, starts⟩)

/-- The byte after which the bytes of a line no longer agree with the configured text, or are all
of it. -/
theorem probeStep_inside (cell : Cell) (start : router.AtStart)
    (short : cells.length < router.linePrefix.length)
    (quiet : ∀ item ∈ cells ++ [cell], isLineEnd item = false) :
    { router with probe := cells }.probeStep cell = router.inside (cells ++ [cell]) := by
  have probe := start.probe
  by_cases further : ((cells ++ [cell]).map Cell.value) <+: router.linePrefix
  · have accepted : ((cells ++ [cell]).map Cell.value).isPrefixOf router.linePrefix = true :=
      List.isPrefixOf_iff_prefix.mpr further
    by_cases full : (cells ++ [cell]).length = router.linePrefix.length
    · have whole : (cells ++ [cell]).map Cell.value = router.linePrefix :=
        further.eq_of_length (by rw [List.length_map, full])
      have holding := LineLimiter.run_holds router.structured.line []
        ((cells ++ [cell]).map Cell.value)
        start.holds (List.forall_mem_map.mpr quiet)
      have judged : verdict router.linePrefix (cells ++ [cell]) =
          ((cells ++ [cell]).any Cell.masked, {}) := by
        rw [verdict, ← full, List.take_length, List.drop_length, List.foldl_nil]
      rw [inside_structured router _ (by simp only [whole, List.prefix_rfl]), judged]
      simp only [probeStep, accepted, not_true_eq_false, if_false, full, if_true,
        StructuredSink.start, StructuredSink.write, LineLimiter.write_plain, holding.1,
          List.map_nil,
        probe]
    · have less : (cells ++ [cell]).length < router.linePrefix.length := by
        have bound := further.length_le
        rw [List.length_map] at bound
        omega
      rw [inside_probing router _ further less]
      simp only [probeStep, accepted, not_true_eq_false, if_false, full]
  · have refused : ((cells ++ [cell]).map Cell.value).isPrefixOf router.linePrefix = false := by
      rw [← Bool.not_eq_true, List.isPrefixOf_iff_prefix]
      exact further
    have other : ¬ router.linePrefix <+: (cells ++ [cell]).map Cell.value := by
      intro starts
      have bound := starts.length_le
      simp only [List.length_map, List.length_append, List.length_singleton] at bound
      have same := starts.eq_of_length (by
        simp only [List.length_map, List.length_append, List.length_singleton]
        omega)
      exact further (by simp only [same, List.prefix_rfl])
    rw [inside_raw router _ further other]
    simp only [probeStep, refused, Bool.false_eq_true, not_false_eq_true, if_true]
    simp only [emitMatchedRaw, probe]

/-- One more byte of a line that has not ended. Split on how the bytes so far compare with the
configured text; each case is one route of the router. -/
theorem routeMatched_inside (cell : Cell) (configured : router.linePrefix ≠ [])
    (start : router.AtStart) (quiet : ∀ item ∈ cells ++ [cell], isLineEnd item = false) :
    router.inside (cells ++ [cell]) =
      (((router.inside cells).1.routeMatched cell).1,
        (router.inside cells).2 ++ ((router.inside cells).1.routeMatched cell).2) := by
  have silent : isLineEnd cell = false := quiet cell (by simp)
  rcases router.compare_cases cells with ⟨agrees, short⟩ | starts | ⟨differs, other⟩
  · have reached := inside_probing router cells agrees short
    rw [← probeStep_inside router cells cell start short quiet, reached,
      routeMatched_quiet { router with probe := cells } cell .undecided configured start.route
        silent]
    rfl
  · have later : router.linePrefix <+: (cells ++ [cell]).map Cell.value := by
      rw [List.map_append]
      exact starts.trans (List.prefix_append _ _)
    have long := starts.length_le
    rw [List.length_map] at long
    have outputs := (LineLimiter.run_holds router.structured.line []
      ((cells ++ [cell]).map Cell.value) start.holds (List.forall_mem_map.mpr quiet)).1
    rw [List.map_append, Transducer.run_append, List.map_singleton] at outputs
    have lastOutput := (List.append_eq_nil_iff.mp outputs).2
    have reached := inside_structured router cells starts
    have step := routeMatched_quiet (router.inside cells).1 cell .structured
      (by rw [reached]; exact configured) (by rw [reached]) silent
    rw [step, reached, inside_structured router _ later]
    simp only [routeStep, structuredStep, StructuredSink.take, StructuredSink.write,
      LineLimiter.write_plain, lastOutput, List.map_nil, List.append_nil, List.foldl_append,
      List.foldl_cons, List.foldl_nil, verdict_append _ _ _ long, List.map_append,
      List.map_cons, Transducer.run_append]
  · have differsLater : ¬ ((cells ++ [cell]).map Cell.value) <+: router.linePrefix := by
      intro prefixed
      rw [List.map_append] at prefixed
      exact differs ((List.prefix_append _ _).trans prefixed)
    have otherLater : ¬ router.linePrefix <+: (cells ++ [cell]).map Cell.value := by
      intro prefixed
      rw [List.map_append, List.map_singleton] at prefixed
      rcases List.prefix_concat_iff.mp prefixed with same | before
      · exact differs (by rw [same]; exact List.prefix_append _ _)
      · exact other before
    have reached := inside_raw router cells differs other
    have step := routeMatched_quiet (router.inside cells).1 cell .raw
      (by rw [reached]; exact configured) (by rw [reached]) silent
    rw [step, reached, inside_raw router _ differsLater otherLater, emitMatchedRaw_append]
    rfl

/-- The state inside a line is what the router reaches. -/
theorem run_inside (configured : router.linePrefix ≠ []) (start : router.AtStart)
    (quiet : ∀ item ∈ cells, isLineEnd item = false) :
    Transducer.run routeMatched router cells = router.inside cells := by
  induction cells using List.reverseRecOn with
  | nil =>
    have positive : 0 < router.linePrefix.length := List.length_pos_of_ne_nil configured
    have same : { router with probe := [] } = router := by
      rw [← start.probe]
    rw [inside_probing router [] (by simp) positive, same, Transducer.run_nil]
  | append_singleton cells cell ih =>
    rw [Transducer.run_append, Transducer.run_singleton,
      ih (fun item member => quiet item (List.mem_append_left _ member)),
      ← routeMatched_inside router cells cell configured start quiet]

/-- Without a configured text everything is raw. -/
theorem run_unconfigured (unconfigured : router.linePrefix = []) :
    Transducer.run routeMatched router cells = router.emitMatchedRaw cells := by
  induction cells generalizing router with
  | nil => rfl
  | cons cell rest ih =>
    have step : router.routeMatched cell = router.emitMatchedRaw [cell] := by
      simp [routeMatched, unconfigured]
    have split := emitMatchedRaw_append router [cell] rest
    rw [Transducer.run_cons, step, ih (router.emitMatchedRaw [cell]).1 unconfigured]
    exact split.symm

theorem isStructuredLine_iff (linePrefix : Bytes) (line : List Cell) :
    isStructuredLine linePrefix line = true ↔
      linePrefix ≠ [] ∧ linePrefix <+: line.map Cell.value := by
  simp [isStructuredLine, List.isPrefixOf_iff_prefix]

/-- What the structured sink hands over for a finished line. -/
theorem structured_line (limiter : LineLimiter) (empty : limiter = { maximum := limiter.maximum })
    (values : Bytes) (quiet : ∀ value ∈ values, isNewline value = false) :
    Transducer.run LineLimiter.step limiter (values ++ [0x0A]) =
      (limiter,
        [⟨(limitLine limiter.maximum (values ++ [0x0A])).1,
          (limitLine limiter.maximum (values ++ [0x0A])).2.1,
          (limitLine limiter.maximum (values ++ [0x0A])).2.2, false⟩]) := by
  have holds : limiter.Holds [] := LineLimiter.holds_nil _ (by rw [empty]) (by rw [empty])
  have redacted : limiter.redacted = false := by rw [empty]
  rw [LineLimiter.run_line limiter [] values holds quiet, redacted]
  simp only [limitLine, List.getLast?_append, List.getLast?_singleton, Option.some_or, if_true,
    List.dropLast_concat, List.nil_append, Prod.mk.injEq, and_true]
  exact empty.symm

/-- A finished line is routed as a whole, and the router is at the start of a line again. -/
theorem run_line (front : List Cell) (last : Cell) (start : router.AtStart)
    (single : ∀ value ∈ router.linePrefix, isNewline value = false)
    (quiet : ∀ item ∈ front, isLineEnd item = false) (ended : isLineEnd last = true) :
    Transducer.run routeMatched router (front ++ [last]) = router.routeLine (front ++ [last]) ∧
      (router.routeLine (front ++ [last])).1.AtStart := by
  have newline : last.value = 0x0A := by simpa [isLineEnd, isNewline] using ended
  by_cases configured : router.linePrefix = []
  · have raw : isStructuredLine router.linePrefix (front ++ [last]) = false := by
      simp [isStructuredLine, configured]
    rw [run_unconfigured router _ configured]
    simp only [routeLine, raw, Bool.false_eq_true, if_false, true_and]
    exact ⟨start.route, start.probe, start.empty⟩
  · have length : router.linePrefix.length ≠ 0 := by simpa using configured
    have notPrefix : ¬ ((front ++ [last]).map Cell.value) <+: router.linePrefix := by
      intro prefixed
      have member : last.value ∈ router.linePrefix :=
        prefixed.subset (List.mem_map_of_mem (by simp))
      have silent := single last.value member
      rw [newline] at silent
      cases silent
    rw [Transducer.run_append, Transducer.run_singleton, run_inside router front configured
      start quiet]
    by_cases starts : router.linePrefix <+: front.map Cell.value
    · have later : router.linePrefix <+: (front ++ [last]).map Cell.value := by
        rw [List.map_append]
        exact starts.trans (List.prefix_append _ _)
      have structured : isStructuredLine router.linePrefix (front ++ [last]) = true :=
        (isStructuredLine_iff _ _).mpr ⟨configured, later⟩
      have long := starts.length_le
      rw [List.length_map] at long
      have flushed := structured_line router.structured.line start.empty (front.map Cell.value)
        (List.forall_mem_map.mpr quiet)
      have holding := LineLimiter.run_holds router.structured.line [] (front.map Cell.value)
        start.holds
        (List.forall_mem_map.mpr quiet)
      rw [Transducer.run_append, holding.1, List.nil_append] at flushed
      obtain ⟨emptied, handed⟩ := Prod.mk.inj flushed
      rw [inside_structured router front starts]
      simp only [routeLine, structured, if_true, routeMatched, length, if_false, routeStep,
        structuredStep, StructuredSink.take, StructuredSink.write, LineLimiter.write_plain, newline,
        emptied, handed, verdict_append _ _ _ long, List.foldl_append, List.foldl_cons,
        List.foldl_nil, List.map_append, List.map_cons, List.map_nil, List.nil_append, start.route]
      exact ⟨trivial, rfl, start.probe, start.empty⟩
    · have other : ¬ router.linePrefix <+: (front ++ [last]).map Cell.value := by
        intro prefixed
        rw [List.map_append, List.map_singleton] at prefixed
        rcases List.prefix_concat_iff.mp prefixed with same | before
        · exact notPrefix
            (by simp only [List.map_append, List.map_singleton, same, List.prefix_rfl])
        · exact starts before
      have raw : isStructuredLine router.linePrefix (front ++ [last]) = false := by
        rw [← Bool.not_eq_true, isStructuredLine_iff]
        exact fun structured => other structured.2
      have split := emitMatchedRaw_append router front [last]
      simp only [routeLine, raw, Bool.false_eq_true, if_false]
      refine ⟨?_, start.route, start.probe, start.empty⟩
      rw [split]
      rcases router.compare_cases front with ⟨agrees, short⟩ | impossible | ⟨differs, _⟩
      · have refused : ((front ++ [last]).map Cell.value).isPrefixOf router.linePrefix = false := by
          rw [← Bool.not_eq_true, List.isPrefixOf_iff_prefix]
          exact notPrefix
        rw [inside_probing router front agrees short]
        simp only [routeMatched, length, if_false, routeStep, start.route, probeStep, refused,
          Bool.false_eq_true, not_false_eq_true, if_true, newline, List.nil_append]
        rw [emitMatchedRaw_append]
        simp only [emitMatchedRaw, start.probe, start.route]
      · exact absurd impossible starts
      · rw [inside_raw router front differs starts]
        simp only [routeMatched, emitMatchedRaw, length, if_false, routeStep, newline, if_true,
          start.route]

/-- What the structured sink hands over for an unfinished line. -/
theorem structured_unfinished (limiter : LineLimiter)
    (empty : limiter = { maximum := limiter.maximum }) (values : Bytes) (nonempty : values ≠ [])
    (quiet : ∀ value ∈ values, isNewline value = false) :
    (Transducer.run LineLimiter.step limiter values).1.finish.2 =
      [⟨(limitLine limiter.maximum values).1, (limitLine limiter.maximum values).2.1,
        (limitLine limiter.maximum values).2.2, false⟩] := by
  have redacted : limiter.redacted = false := by rw [empty]
  obtain ⟨-, sameMaximum, sameRedacted, holds⟩ := LineLimiter.run_holds limiter [] values
    (LineLimiter.holds_nil _ (by rw [empty]) (by rw [empty])) quiet
  rw [LineLimiter.finish_holds _ values holds nonempty quiet, sameMaximum, sameRedacted, redacted]

/-- An unfinished line at the end of the stream is routed as a whole too. -/
theorem finish_unfinished (start : router.AtStart)
    (quiet : ∀ item ∈ cells, isLineEnd item = false) :
    (Transducer.run routeMatched router cells).2 ++
        (Transducer.run routeMatched router cells).1.finish.2 =
      (router.routeLine cells).2 ++ (router.routeLine cells).1.raw.line.finish.2.map .raw := by
  have nothing := LineLimiter.finish_empty router.structured.line start.empty
  by_cases configured : router.linePrefix = []
  · have raw : isStructuredLine router.linePrefix cells = false := by
      simp [isStructuredLine, configured]
    rw [run_unconfigured router _ configured]
    simp [routeLine, raw, finish, emitMatchedRaw, start.probe, nothing]
  · rw [run_inside router cells configured start quiet]
    by_cases starts : router.linePrefix <+: cells.map Cell.value
    · have structured : isStructuredLine router.linePrefix cells = true :=
        (isStructuredLine_iff _ _).mpr ⟨configured, starts⟩
      have nonempty : cells.map Cell.value ≠ [] := by
        intro empty
        rw [empty] at starts
        exact configured (List.prefix_nil.mp starts)
      have handed := structured_unfinished router.structured.line start.empty
        (cells.map Cell.value) nonempty
        (List.forall_mem_map.mpr quiet)
      rw [inside_structured router cells starts]
      simp [routeLine, structured, finish, emitMatchedRaw, start.probe, handed]
    · have raw : isStructuredLine router.linePrefix cells = false := by
        rw [← Bool.not_eq_true, isStructuredLine_iff]
        exact fun structured => starts structured.2
      rcases router.compare_cases cells with ⟨agrees, short⟩ | impossible | ⟨differs, _⟩
      · rw [inside_probing router cells agrees short]
        simp [routeLine, raw, finish, emitMatchedRaw, nothing]
      · exact absurd impossible starts
      · rw [inside_raw router cells differs starts]
        simp [routeLine, raw, finish, emitMatchedRaw, start.probe, nothing]

theorem routeLine_linePrefix (line : List Cell) :
    (router.routeLine line).1.linePrefix = router.linePrefix := by
  unfold routeLine
  split <;> rfl

/-- The router treats a finished stream line by line. -/
theorem routeMatched_lines (start : router.AtStart)
    (single : ∀ value ∈ router.linePrefix, isNewline value = false) :
    (Transducer.run routeMatched router cells).2 ++
        (Transducer.run routeMatched router cells).1.finish.2 =
      router.routeLines cells := by
  induction cells using Lines.lines_induction isLineEnd generalizing router with
  | unfinished cells quiet =>
    rw [finish_unfinished router cells start quiet, routeLines]
    cases cells with
    | nil =>
      have raw : isStructuredLine router.linePrefix [] = false := by
        cases h : router.linePrefix <;> simp [isStructuredLine]
      simp [Lines.lines, routeLine, raw, emitMatchedRaw]
    | cons cell rest => simp [Lines.lines_open isLineEnd (cell :: rest) (by simp) quiet]
  | line front last rest quiet ended ih =>
    obtain ⟨routed, again⟩ := run_line router front last start single quiet ended
    have whole : front ++ last :: rest = (front ++ [last]) ++ rest := by simp
    have later := ih (router.routeLine (front ++ [last])).1 again
      (by rw [routeLine_linePrefix]; exact single)
    rw [routeLines, Lines.lines_append_end isLineEnd front last rest quiet ended, whole,
      Transducer.run_append, routed, Transducer.run_cons]
    simp only [List.append_assoc]
    rw [later, routeLines]

end Router

/-- The text the raw sink receives for the lines of a stream: structured lines are left out, and
every run of masked bytes is one marker. The flag says whether the last byte was masked. -/
def rawText (linePrefix : Bytes) : Bool → List (List Cell) → Bytes
  | _, [] => []
  | masked, line :: rest =>
    if isStructuredLine linePrefix line then
      rawText linePrefix (masked && line.all Cell.masked) rest
    else
      let marked := Transducer.run markRun masked line
      marked.2 ++ rawText linePrefix marked.1 rest

theorem RawSink.foldl_pass (sink : RawSink) (cells : List Cell) :
    cells.foldl RawSink.pass sink =
      { sink with rawMasked := sink.rawMasked && cells.all Cell.masked } := by
  induction cells generalizing sink with
  | nil => simp
  | cons cell rest ih => simp [ih, RawSink.pass, Bool.and_assoc]

/-- The raw sink is its limiter fed with the marked text. -/
theorem RawSink.run_shown (sink : RawSink) (limiter : LineLimiter) (cells : List Cell)
    (agrees : sink.line.Agrees limiter) :
    let marked := Transducer.run markRun sink.rawMasked cells
    let out := Transducer.run RawSink.emitMatchedRaw sink cells
    out.1.rawMasked = marked.1 ∧
      out.1.line.Agrees (Transducer.run LineLimiter.step limiter marked.2).1 ∧
      out.2.map Line.shown = (Transducer.run LineLimiter.step limiter marked.2).2.map
        Line.shown := by
  induction cells generalizing sink limiter with
  | nil => exact ⟨rfl, agrees, rfl⟩
  | cons cell rest ih =>
    have step : ∃ text, markRun sink.rawMasked cell = (cell.masked, text) ∧
        (sink.emitMatchedRaw cell).1.rawMasked = cell.masked ∧
        (sink.emitMatchedRaw cell).1.line.Agrees (Transducer.run LineLimiter.step limiter text).1 ∧
        (sink.emitMatchedRaw cell).2.map Line.shown =
          (Transducer.run LineLimiter.step limiter text).2.map Line.shown := by
      by_cases masked : cell.masked = true
      · by_cases already : sink.rawMasked = true
        · refine ⟨[], ?_, ?_, ?_, ?_⟩ <;>
            simp [markRun, emitMatchedRaw, masked, already, agrees]
        · have written := LineLimiter.write_agrees sink.line limiter redactionMarker true agrees
          refine ⟨redactionMarker, ?_, ?_, ?_, ?_⟩ <;>
            simp [markRun, emitMatchedRaw, masked, already, written.1, written.2]
      · have written := LineLimiter.write_agrees sink.line limiter [cell.value] false agrees
        rw [Transducer.run_singleton] at written
        refine ⟨[cell.value], ?_, ?_, ?_, ?_⟩ <;>
          simp [markRun, emitMatchedRaw, masked, written.1, written.2]
    obtain ⟨_, marks, flag, nextAgrees, shown⟩ := step
    obtain ⟨finalFlag, finalAgrees, later⟩ := ih _ _ nextAgrees
    rw [flag] at finalFlag finalAgrees later
    simp only [Transducer.run_cons, marks, Transducer.run_append, List.map_append, shown, later]
    exact ⟨finalFlag, finalAgrees, trivial⟩

/-- The raw line of an emission, without its redaction flag. -/
def Emission.rawShown : Emission → Option (Bytes × Bool × Bool)
  | .raw line => some line.shown
  | .structured _ => none
  | .unsafeStructured => none

theorem filterMap_rawShown_raw (handed : List Line) :
    (handed.map Emission.raw).filterMap Emission.rawShown = handed.map Line.shown := by
  induction handed with
  | nil => rfl
  | cons line rest ih => simp [Emission.rawShown, ih]

theorem rawShown_structuredEmission (structuredUnsafe : Bool) (line : Line) :
    (structuredEmission structuredUnsafe line).rawShown = none := by
  cases structuredUnsafe <;> rfl

/-- The raw lines of a finished stream are the lines of its raw text, each limited. -/
theorem Router.routeLines_rawShown (router : Router) (limiter : LineLimiter) (cells : List Cell)
    (agrees : router.raw.line.Agrees limiter) :
    (router.routeLines cells).filterMap Emission.rawShown =
      ((Transducer.run LineLimiter.step limiter
          (rawText router.linePrefix router.raw.rawMasked (Lines.lines isLineEnd cells))).2 ++
        (Transducer.run LineLimiter.step limiter
          (rawText router.linePrefix router.raw.rawMasked
            (Lines.lines isLineEnd cells))).1.finish.2).map Line.shown := by
  unfold routeLines
  generalize Lines.lines isLineEnd cells = parts
  induction parts generalizing router limiter with
  | nil =>
    simp only [Transducer.run_nil, rawText, List.nil_append, filterMap_rawShown_raw]
    exact LineLimiter.finish_agrees _ _ agrees
  | cons line rest ih =>
    by_cases structured : isStructuredLine router.linePrefix line = true
    · have later := ih (router.routeLine line).1 limiter
        (by simpa only [routeLine, structured, if_true, RawSink.foldl_pass] using agrees)
      rw [routeLine_linePrefix] at later
      simp only [Transducer.run_cons, rawText, structured, if_true, List.append_assoc,
        List.filterMap_append]
      rw [← List.filterMap_append, later]
      simp [routeLine, structured, rawShown_structuredEmission, RawSink.foldl_pass]
    · obtain ⟨flag, nextAgrees, shown⟩ := RawSink.run_shown router.raw limiter line agrees
      have later := ih (router.routeLine line).1
        (Transducer.run LineLimiter.step limiter
          (Transducer.run markRun router.raw.rawMasked line).2).1
        (by simpa only [routeLine, structured, Bool.false_eq_true, if_false, emitMatchedRaw]
          using nextAgrees)
      rw [routeLine_linePrefix] at later
      simp only [Transducer.run_cons, rawText, structured, Bool.false_eq_true, if_false,
        List.append_assoc, List.filterMap_append, Transducer.run_append, List.map_append]
      rw [← List.filterMap_append, later]
      simp only [routeLine, structured, Bool.false_eq_true, if_false, emitMatchedRaw,
        filterMap_rawShown_raw, shown, flag, List.map_append]

end ProvenanceRunner.Evidence
