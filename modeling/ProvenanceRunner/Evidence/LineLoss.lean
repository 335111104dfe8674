import ProvenanceRunner.Evidence.StreamRun

/-! # Lines lost without a report

A line is cut for two reasons: it is too long, or its end is not valid UTF-8. Only the first is
reported. `keepLine` is what becomes of one line of a stream's redacted text; a line is lost
silently exactly when it is invalid, the processor's limit did not cut it, and what trimming leaves
of it is short enough for the collector.

Such lines exist because the escape stripper drops single bytes. It turns valid text into invalid
text exactly when an escape sequence ends inside a rune. -/

namespace ProvenanceRunner.Evidence

open Utf8

/-- A line without the line feed that ends it. -/
def lineBody (line : Bytes) : Bytes :=
  if line.getLast? = some 0x0A then line.dropLast else line

/-- The line is kept as it is if it is within the limit, and is counted as truncated if fewer
bytes are kept than it has. -/
def Settings.Reported (settings : Settings) (stream : Stream) (line : Bytes) : Prop :=
  ((lineBody line).length ≤ settings.maxLineBytes → (settings.keepLine stream line).1 = line) ∧
    ((settings.keepLine stream line).1.length < line.length →
      (settings.keepLine stream line).2 = true)

/-- The line is valid UTF-8, unless the processor's limit or, after trimming, the collector's limit
cuts it. -/
def Settings.ValidUnlessCut (settings : Settings) (stream : Stream) (line : Bytes) : Prop :=
  (lineBody line).length ≤ settings.lineLimit stream →
    (Collector.trimSuffix (trimInvalid (lineBody line)) 0x0D).length ≤ settings.maxLineBytes →
      valid (lineBody line) = true

instance (settings : Settings) (stream : Stream) (line : Bytes) :
    Decidable (settings.Reported stream line) :=
  inferInstanceAs (Decidable (_ ∧ _))

instance (settings : Settings) (stream : Stream) (line : Bytes) :
    Decidable (settings.ValidUnlessCut stream line) :=
  inferInstanceAs (Decidable (_ → _ → _))

variable (settings : Settings) (stream : Stream)

theorem Settings.maxLineBytes_le_lineLimit :
    settings.maxLineBytes ≤ settings.lineLimit stream := by
  unfold lineLimit
  split <;> omega

theorem trimSuffix_length_le (data : Bytes) (last : UInt8) :
    (Collector.trimSuffix data last).length ≤ data.length := by
  unfold Collector.trimSuffix
  split
  · rw [List.length_dropLast]
    omega
  · exact Nat.le_refl _

/-- The content of a line that was put together from a body and an optional line feed. -/
theorem lineContent_append (body ending : Bytes) (open_ : body.getLast? ≠ some 0x0A)
    (isEnding : ending = [] ∨ ending = [0x0A]) :
    Collector.lineContent (body ++ ending) = Collector.trimSuffix body 0x0D := by
  rcases isEnding with rfl | rfl
  · rw [List.append_nil, Collector.lineContent]
    congr 1
    simp [Collector.trimSuffix, open_]
  · simp [Collector.lineContent, Collector.trimSuffix]

/-- The bytes a limiter keeps of a body do not end with a line feed. -/
theorem limitContent_open (maximum : Nat) (body : Bytes)
    (quiet : ∀ value ∈ body, isNewline value = false) :
    (limitContent maximum body).1.getLast? ≠ some 0x0A := by
  unfold limitContent
  split
  · exact getLast?_ne_newline fun value inside =>
      quiet value ((trimInvalid_front body).subset inside)
  · have marker : lineTruncationMarker.getLast? = some 0x5D := by decide
    rw [List.getLast?_append, marker, Option.some_or]
    decide

/-- What becomes of a line, in terms of its body. -/
theorem Settings.keepLine_body (body ending : Bytes)
    (quiet : ∀ value ∈ body, isNewline value = false)
    (isEnding : (ending = [] ∧ body ≠ []) ∨ ending = [0x0A]) :
    lineBody (body ++ ending) = body ∧
      let kept := limitContent (settings.lineLimit stream) body
      settings.keepLine stream (body ++ ending) =
        if (Collector.trimSuffix kept.1 0x0D).length > settings.maxLineBytes then
          (Collector.truncateRawLine (kept.1 ++ ending) settings.maxLineBytes, true)
        else (kept.1 ++ ending, kept.2) := by
  have open_ := getLast?_ne_newline quiet
  have eitherEnding : ending = [] ∨ ending = [0x0A] := isEnding.imp And.left id
  have content := lineContent_append _ ending
    (limitContent_open (settings.lineLimit stream) body quiet) eitherEnding
  constructor
  · rcases eitherEnding with rfl | rfl
    · simp [lineBody, open_]
    · simp [lineBody]
  · intro kept
    have shown : limitLine (settings.lineLimit stream) (body ++ ending) =
        (kept.1 ++ ending, kept.2, decide (ending = [])) := by
      rcases eitherEnding with rfl | rfl
      · simp [limitLine, open_, kept]
      · simp [limitLine, kept]
    simp only [keepLine, shown, Collector.fitRawLine, Collector.rawContentLength, content, kept]

/-- A line is reported exactly when it is valid or cut by a limit. -/
theorem Settings.reported_iff (text line : Bytes) (isLine : line ∈ Lines.lines isNewline text) :
    settings.Reported stream line ↔ settings.ValidUnlessCut stream line := by
  obtain ⟨body, quiet, shape⟩ := Lines.line_shape isNewline text line isLine
  have parts : ∃ ending, line = body ++ ending ∧ ((ending = [] ∧ body ≠ []) ∨ ending = [0x0A]) := by
    rcases shape with ⟨rfl, nonempty⟩ | ⟨last, final, rfl⟩
    · exact ⟨[], by simp, .inl ⟨rfl, nonempty⟩⟩
    · have newline : last = 0x0A := by simpa [isNewline] using final
      exact ⟨[last], rfl, .inr (by rw [newline])⟩
  obtain ⟨ending, rfl, isEnding⟩ := parts
  obtain ⟨isBody, kept⟩ := settings.keepLine_body stream body ending quiet isEnding
  have limit := settings.maxLineBytes_le_lineLimit stream
  unfold Reported ValidUnlessCut
  rw [isBody, kept]
  by_cases fits : body.length ≤ settings.lineLimit stream
  · have front := trimInvalid_front body
    have shorter := front.length_le
    have trimmed := trimSuffix_length_le (trimInvalid body) 0x0D
    simp only [limitContent, fits, if_true]
    by_cases long : (Collector.trimSuffix (trimInvalid body) 0x0D).length > settings.maxLineBytes
    · simp only [long, if_true]
      constructor
      · intro _ _ short
        omega
      · intro _
        exact ⟨fun within => by omega, fun _ => trivial⟩
    · simp only [long, if_false]
      constructor
      · rintro ⟨-, counted⟩ - -
        rw [← trimInvalid_eq_iff]
        by_contra changed
        have fewer : (trimInvalid body ++ ending).length < (body ++ ending).length := by
          have strict := mt front.eq_of_length changed
          simp only [List.length_append]
          omega
        exact absurd (counted fewer) (by decide)
      · intro isValid
        have whole := (trimInvalid_eq_iff body).mpr (isValid trivial (by omega))
        rw [whole]
        exact ⟨fun _ => rfl, fun fewer => absurd fewer (lt_irrefl _)⟩
  · simp only [limitContent, fits, if_false]
    constructor
    · intro _ impossible
      exact impossible.elim
    · intro _
      refine ⟨fun within => by omega, fun _ => ?_⟩
      split <;> rfl

/-- A text is valid exactly when the body of each of its lines is. -/
theorem valid_lines_iff (text : Bytes) :
    valid text = true ↔ ∀ line ∈ Lines.lines isNewline text, valid (lineBody line) = true := by
  induction text using Lines.lines_induction isNewline with
  | unfinished text quiet =>
    cases text with
    | nil => simp [Lines.lines]
    | cons =>
      have unended := getLast?_ne_newline quiet
      rw [Lines.lines_open isNewline _ (by simp) quiet]
      simp only [List.mem_singleton, forall_eq, lineBody, unended, if_false]
  | line front last rest quiet ended ih =>
    have newline : last = 0x0A := by simpa [isNewline] using ended
    subst newline
    have body : lineBody (front ++ [0x0A]) = front := by simp [lineBody]
    rw [Lines.lines_append_end isNewline front _ rest quiet ended,
      valid_append_ascii front rest 0x0A (by decide), ih]
    simp only [List.mem_cons, forall_eq_or_imp, body]

theorem streamText_eq (chunks : List Bytes) :
    streamText chunks = (AnsiStripper.write {} (normalizedText chunks)).2 := rfl

/-- Without structured lines the raw text is the marked text of all cells. -/
theorem rawText_unconfigured (masked : Bool) (parts : List (List Cell)) :
    rawText [] masked parts = (Transducer.run markRun masked parts.flatten).2 := by
  induction parts generalizing masked with
  | nil => rfl
  | cons line rest ih =>
    have raw : isStructuredLine [] line = false := rfl
    simp only [rawText, raw, Bool.false_eq_true, if_false, ih, List.flatten_cons,
      Transducer.run_append]

/-- Unmasked cells are their own marked text. -/
theorem markRun_unmasked (text : Bytes) :
    Transducer.run markRun false (text.map (fun value => ⟨value, false⟩)) = (false, text) := by
  induction text with
  | nil => rfl
  | cons value rest ih =>
    rw [List.map_cons, Transducer.run_cons]
    change ((Transducer.run markRun false _).1, [value] ++ (Transducer.run markRun false _).2) = _
    rw [ih]
    rfl

/-- Without patterns and structured lines the raw text of a stream is its stripped text. -/
theorem Settings.rawText_plain (chunks : List Bytes) (unpatterned : settings.patterns.maximum = 0)
    (unconfigured : settings.linePrefix stream = []) :
    settings.rawText stream chunks = streamText chunks := by
  rw [Settings.rawText, redactCells_unpatterned _ _ unpatterned, unconfigured,
    rawText_unconfigured, Lines.lines_flatten, markRun_unmasked]

/-- For lines within the limit, being valid unless cut is being valid. -/
theorem Settings.validUnlessCut_of_short (line : Bytes)
    (short : (lineBody line).length ≤ settings.maxLineBytes) :
    settings.ValidUnlessCut stream line ↔ valid (lineBody line) = true := by
  constructor
  · intro isValid
    refine isValid (short.trans (settings.maxLineBytes_le_lineLimit stream)) ?_
    have trimmed := trimSuffix_length_le (trimInvalid (lineBody line)) 0x0D
    have front := (trimInvalid_front (lineBody line)).length_le
    omega
  · intro isValid _ _
    exact isValid

/-- No log text is lost without a report exactly when every line of the redacted text is valid
UTF-8 or cut by a limit. The live sink receives the kept lines in order, the counter counts the
reported ones, and a reported line sets the truncation flag of the snapshot. The stripped text is
valid exactly when no escape sequence ends inside a rune; where nothing is redacted or structured
and every line is within the limit, that is also exactly when nothing is lost.

Proof: `Collector.close_entries` says what every line becomes, `reported_iff` when it is
reported. -/
theorem no_silent_loss_iff (config : Config) (settings : Settings)
    (accepted : config.withDefaults = .ok settings) (writes : List (Stream × Bytes))
    (stream : Stream) :
    let closed := ((Collector.ofSettings settings).run writes).close
    let parts := fun stream =>
      Lines.lines isNewline (settings.rawText stream (chunksOf stream writes))
    (closed.entries.filter (fun entry => entry.stream = stream)).map LiveEntry.data =
        (parts stream).map (fun line => (settings.keepLine stream line).1) ∧
      closed.truncatedLines =
        (parts .stdout).countP (fun line => (settings.keepLine .stdout line).2) +
          (parts .stderr).countP (fun line => (settings.keepLine .stderr line).2) ∧
      ((∃ line ∈ parts stream, (settings.keepLine stream line).2 = true) →
        closed.bundle.usage.outputTruncated = true) ∧
      ((∀ line ∈ parts stream, settings.Reported stream line) ↔
        ∀ line ∈ parts stream, settings.ValidUnlessCut stream line) ∧
      (valid (streamText (chunksOf stream writes)) = true ↔
        AnsiStripper.EndsAtRunes {} (normalizedText (chunksOf stream writes))) ∧
      (settings.patterns.maximum = 0 → settings.linePrefix stream = [] →
        (∀ line ∈ parts stream, (lineBody line).length ≤ settings.maxLineBytes) →
          ((∀ line ∈ parts stream, settings.Reported stream line) ↔
            AnsiStripper.EndsAtRunes {} (normalizedText (chunksOf stream writes)))) := by
  intro closed parts
  obtain ⟨entries, counted⟩ :=
    Collector.close_entries settings (config.withDefaults_sound settings accepted) writes
  have lossFree := forall₂_congr fun line (isLine : line ∈ parts stream) =>
    settings.reported_iff stream _ line isLine
  have stripped := AnsiStripper.write_valid_iff {} _
    (normalizedText_valid (chunksOf stream writes))
  rw [← streamText_eq] at stripped
  have count : closed.truncatedLines =
      (parts .stdout).countP (fun line => (settings.keepLine .stdout line).2) +
        (parts .stderr).countP (fun line => (settings.keepLine .stderr line).2) := by
    refine counted.trans ?_
    rw [List.countP_map, List.countP_map]
    rfl
  refine ⟨?_, count, ?_, lossFree, stripped, ?_⟩
  · refine (entries stream).trans ?_
    rw [List.map_map]
    rfl
  · rintro ⟨line, isLine, reported⟩
    have positive : 0 < closed.truncatedLines := by
      rw [count]
      have some_ : 0 < (parts stream).countP (fun line => (settings.keepLine stream line).2) :=
        List.countP_pos_iff.mpr ⟨line, isLine, reported⟩
      cases stream <;> omega
    simp [Collector.bundle, positive]
  · intro unpatterned unconfigured short
    rw [lossFree, ← stripped, ← settings.rawText_plain stream _ unpatterned unconfigured,
      valid_lines_iff]
    exact forall₂_congr fun line isLine =>
      settings.validUnlessCut_of_short stream line (short line isLine)

/-- A line with a coloured word and an accented letter is kept whole. -/
theorem no_silent_loss_colour :
    ({} : Config).withDefaults = .ok defaultSettings ∧
      ∀ line ∈ Lines.lines isNewline
          (defaultSettings.rawText .stdout [encode "caf\u00e9 \x1b[31mred\x1b[0m\n"]),
        defaultSettings.Reported .stdout line :=
  ⟨rfl, (no_silent_loss_iff {} defaultSettings rfl
    [(.stdout, encode "caf\u00e9 \x1b[31mred\x1b[0m\n")] .stdout).2.2.2.1.mpr (by decide +kernel)⟩

/-- An escape byte in front of an accented letter drops the letter's first byte; the line is cut
there and neither kept whole nor counted. -/
theorem silent_loss_accent :
    ¬ ∀ (config : Config) (settings : Settings), config.withDefaults = .ok settings →
      ∀ (writes : List (Stream × Bytes)) (stream : Stream),
        ∀ line ∈ Lines.lines isNewline (settings.rawText stream (chunksOf stream writes)),
          settings.Reported stream line := by
  intro claimed
  have kept := claimed {} defaultSettings rfl [(.stdout, encode "hello\x1b\u00e9world\n")] .stdout
  revert kept
  decide +kernel

end ProvenanceRunner.Evidence
