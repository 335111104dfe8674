import ProvenanceRunner.Evidence.LiveOutput

/-! # The bound of the live output

The live output counts its bytes and keeps to its maximum. As long as every line fits it holds the
lines; the first line that does not fit is the last to change it, and puts one marker at the end of
its stream. `LiveBounded` says this of an output that lines were appended to.

Lines must be valid UTF-8: a cut in a stream goes back to its first invalid byte, which can leave
too few tracked bytes for the rest of the removal (`invalid_lines_outlast_record`). The collector
appends no other lines, because the line limiter hands over valid text only (`close_live`). -/

namespace ProvenanceRunner.Evidence

open Utf8

variable (log : List (Stream × Bytes)) (stream : Stream) (maximum : Nat)

/-- What holds of the live output after some lines: it counts its bytes, is not longer than its
maximum and holds valid text, and it is marked once, at the end of one stream, if and only if a line
did not fit. Further lines then change nothing. -/
structure LiveBounded (output : BoundedOutput) : Prop where
  running : output.panicked = false
  counted : output.captured = output.text.stdout.length + output.text.stderr.length
  within : output.captured ≤ maximum
  accepted : ∀ stream, valid (output.text.get stream) = true
  marked : match firstOverflow maximum log with
    | none => output.truncated = false ∧ ∀ stream, output.text.get stream = joined log stream
    | some (fit, stream, content) =>
      (∀ more, output.appendAll more = output) ∧
        ∃ (kept : Stream → Bytes) (start : Bytes), (∀ other, kept other <+: joined fit other) ∧
          start <+: content ∧ ∀ other, output.text.get other = kept other ++
            if other = stream then start ++ totalTruncationMarker.take maximum else []

/-! ## Any valid lines -/

theorem size_joined : size log = (joined log .stdout).length + (joined log .stderr).length := by
  induction log with
  | nil => rfl
  | cons line rest ih =>
    obtain ⟨stream, content⟩ := line
    rw [size_cons, joined_cons, joined_cons, ih]
    cases stream <;> simp <;> omega

theorem keepWithin_valid (room : Nat) (accepted : ∀ line ∈ log, valid line.2 = true) :
    ∀ line ∈ keepWithin room log, valid line.2 = true := by
  induction log generalizing room with
  | nil => exact accepted
  | cons line rest ih =>
    rw [List.forall_mem_cons] at accepted
    rw [keepWithin]
    split
    · exact List.forall_mem_singleton.mpr (trimInvalid_valid _)
    · exact List.forall_mem_cons.mpr ⟨accepted.1, ih _ accepted.2⟩

/-- Every front of the marker is valid: its bytes are ASCII. -/
theorem marker_valid : valid (totalTruncationMarker.take maximum) = true := by
  have short : ∀ count ≤ totalTruncationMarker.length,
      valid (totalTruncationMarker.take count) = true := by decide +kernel
  rcases Nat.le_total maximum totalTruncationMarker.length with inside | beyond
  · exact short maximum inside
  · rw [List.take_of_length_le beyond, ← List.take_length (l := totalTruncationMarker)]
    exact short _ (Nat.le_refl _)

/-- Any valid lines leave the output within its bound.

Proof: by `appendAll_spec` the output holds the lines as they are, or it is cut by the first that
does not fit, and then it holds a front of the lines, of that line and of the marker. -/
theorem appendAll_bounded (accepted : ∀ line ∈ log, valid line.2 = true) :
    LiveBounded log maximum (BoundedOutput.appendAll log { maximum }) := by
  have acceptedFit : ∀ fit overflow, firstOverflow maximum log = some (fit, overflow) →
      ∀ line ∈ fit, valid line.2 = true := by
    intro fit overflow found line listed
    have split := firstOverflow_cases log maximum
    rw [found] at split
    obtain ⟨-, -, rest, behind⟩ := split
    exact accepted line (behind ▸ List.mem_append_left _ listed)
  obtain ⟨panicked, appended⟩ := BoundedOutput.appendAll_spec log maximum acceptedFit
  cases found : firstOverflow maximum log with
  | none =>
    rw [found] at appended
    obtain ⟨held, limit, untruncated⟩ := appended
    refine ⟨panicked, ?_, held.within.trans (Nat.le_of_eq limit), fun stream => ?_, ?_⟩
    · rw [held.captured, size_joined, ← held.text, ← held.text]
      rfl
    · rw [held.text]
      exact joined_valid log stream accepted
    · rw [found]
      exact ⟨untruncated, held.text⟩
  | some overflow =>
    obtain ⟨fit, last, content⟩ := overflow
    rw [found] at appended
    obtain ⟨stays, captured, text, -⟩ := appended
    have cut := size_keepWithin_le fit (maximum - totalTruncationMarker.length)
    have refilled : (BoundedOutput.refill maximum fit content).length ≤
        maximum - totalTruncationMarker.length -
          size (keepWithin (maximum - totalTruncationMarker.length) fit) :=
      (trimInvalid_front _).length_le.trans (List.length_take_le _ _)
    have marker : (totalTruncationMarker.take maximum).length =
        min maximum totalTruncationMarker.length := List.length_take
    refine ⟨panicked, ?_, ?_, fun other => ?_, ?_⟩
    · have both (other : Stream) := congrArg List.length (text other)
      have out := both .stdout
      have err := both .stderr
      rw [captured, size_joined]
      cases last <;>
        simp only [PerStream.get, reduceCtorEq, if_true, if_false, List.length_append,
          List.length_nil] at out err ⊢ <;>
        omega
    · rw [captured, List.length_append]
      omega
    · rw [text, valid_append _ _ (joined_valid _ other (keepWithin_valid fit _ (acceptedFit fit _ found)))]
      split
      · rw [BoundedOutput.refill, valid_append _ _ (trimInvalid_valid _)]
        exact marker_valid maximum
      · rfl
    · rw [found]
      exact ⟨fun more => BoundedOutput.appendAll_truncated more _ stays, _, _,
        fun other => keepWithin_start fit other _, trimmed_take_start content _, text⟩

/-! ## The lines of a collector -/

theorem limitLine_valid (line : Bytes) : valid (limitLine maximum line).1 = true := by
  have content (text : Bytes) : valid (limitContent maximum text).1 = true := by
    unfold limitContent
    split
    · exact trimInvalid_valid _
    · rw [valid_append _ _ (trimInvalid_valid _)]
      decide +kernel
  unfold limitLine
  split
  · rw [valid_append _ _ (content _)]
    decide
  · exact content _

theorem fitRawLine_valid (line : Line) (accepted : valid line.data = true) :
    valid (Collector.fitRawLine maximum line).1 = true := by
  unfold Collector.fitRawLine
  split
  · unfold Collector.truncateRawLine
    rw [List.append_assoc, valid_append _ _ (trimInvalid_valid _)]
    split <;> decide +kernel
  · exact accepted

namespace Collector

/-- The lines that were appended to the live output, as the live sink received them. -/
def appended (collector : Collector) : List (Stream × Bytes) :=
  collector.entries.map fun entry => (entry.stream, entry.data)

/-- The live output and the live sink receive the same lines. -/
theorem apply_live (collector : Collector) (handed : List (Stream × Emission))
    (same : collector.live = BoundedOutput.appendAll collector.appended { maximum }) :
    (collector.apply handed).live =
      BoundedOutput.appendAll (collector.apply handed).appended { maximum } := by
  induction handed generalizing collector with
  | nil => exact same
  | cons first rest ih =>
    obtain ⟨stream, emission⟩ := first
    apply ih (emit stream collector emission)
    cases emission with
    | raw line =>
      simp only [emit, emitRaw, appended, List.map_append, List.map_singleton, same,
        BoundedOutput.appendAll, List.foldl_append, List.foldl_cons, List.foldl_nil]
    | structured | unsafeStructured =>
      rw [emit_structured _ _ _ rfl]
      exact same

/-- The live output of a closed collector is that of the lines of its live sink, which are valid. -/
theorem close_live (settings : Settings) (sound : settings.Sound)
    (writes : List (Stream × Bytes)) :
    let closed := ((ofSettings settings).run writes).close
    closed.live = BoundedOutput.appendAll closed.appended { maximum := settings.maxTotalBytes } ∧
      ∀ line ∈ closed.appended, valid line.2 = true := by
  intro closed
  constructor
  · obtain ⟨handed, _, _, reached, _⟩ :=
      close_log (ofSettings settings) writes (by intro stream; cases stream <;> rfl)
    change ((ofSettings settings).run writes).close.live =
      BoundedOutput.appendAll ((ofSettings settings).run writes).close.appended _
    rw [reached]
    exact apply_live settings.maxTotalBytes (ofSettings settings) handed rfl
  · intro line listed
    obtain ⟨entry, received, rfl⟩ := List.mem_map.mp listed
    have kept : entry.data ∈ (closed.entries.filter
        (fun other => other.stream = entry.stream)).map LiveEntry.data :=
      List.mem_map_of_mem (List.mem_filter.mpr ⟨received, by simp⟩)
    rw [(close_entries settings sound writes).1 entry.stream, List.map_map] at kept
    obtain ⟨text, -, same⟩ := List.mem_map.mp kept
    rw [← same]
    exact fitRawLine_valid _ _ (limitLine_valid _ text)

end Collector

/-- The live output is bounded after any valid lines, whatever the maximum; and the live output of a
collector with any accepted configuration, after any writes, is one that valid lines were appended
to.

Proof: `appendAll_bounded` for the lines, `close_live` for the collector. -/
theorem live_output_bounded :
    (∀ maximum log, (∀ line ∈ log, valid line.2 = true) →
      LiveBounded log maximum (BoundedOutput.appendAll log { maximum })) ∧
    ∀ (config : Config) (settings : Settings), config.withDefaults = .ok settings →
      ∀ writes : List (Stream × Bytes),
        let closed := ((Collector.ofSettings settings).run writes).close
        LiveBounded closed.appended settings.maxTotalBytes closed.live := by
  refine ⟨fun maximum log accepted => appendAll_bounded log maximum accepted, ?_⟩
  intro config settings accepted writes closed
  obtain ⟨same, fine⟩ := Collector.close_live settings
    (config.withDefaults_sound settings accepted) writes
  rw [same]
  exact appendAll_bounded _ _ fine

/-- A line that is not valid text and lost more than it was asked for leaves too short a record for
the line before it, and the program cuts at a negative length. -/
theorem invalid_lines_outlast_record :
    (BoundedOutput.appendAll [(.stdout, List.replicate 14 0xFF), (.stderr, List.replicate 5 0x62),
      (.stdout, [0xFF]), (.stdout, List.replicate 30 0x61)] { maximum := 30 }).panicked = true := by
  decide +kernel

end ProvenanceRunner.Evidence
