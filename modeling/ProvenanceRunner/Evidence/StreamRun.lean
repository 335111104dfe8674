import ProvenanceRunner.Evidence.Collector
import ProvenanceRunner.Evidence.Routing

/-! # Whole streams

A collector is driven by writes on its two streams in any order. This module says what a whole run
amounts to: each stream's processor sees only its own writes, and what it hands over in the end is
the line by line routing of the redacted, stripped and normalised text. -/

namespace ProvenanceRunner.Evidence

open Utf8

/-- The normalised and stripped text of a finished stream. -/
def streamText (chunks : List Bytes) : Bytes :=
  let normalized := Utf8Normalizer.writes {} chunks
  (AnsiStripper.write {} (normalized.2 ++ normalized.1.finish.2)).2

namespace RawProcessor

/-- A sequence of writes on one stream. -/
def writes (processor : RawProcessor) : List Bytes → RawProcessor × List Emission
  | [] => (processor, [])
  | content :: rest =>
    let now := processor.write content
    let later := now.1.writes rest
    (later.1, now.2 ++ later.2)

/-- Everything a stream hands over. -/
def emissions (processor : RawProcessor) (chunks : List Bytes) : List Emission :=
  (processor.writes chunks).2 ++ (processor.writes chunks).1.finish.2

variable (processor : RawProcessor) (chunks : List Bytes)

theorem pass_append (front rest : Bytes) :
    processor.pass (front ++ rest) =
      (((processor.pass front).1.pass rest).1,
        (processor.pass front).2 ++ ((processor.pass front).1.pass rest).2) := by
  simp only [pass, passText, AnsiStripper.write, SecretRedactor.write, Transducer.run_append]

/-- Only the normaliser sees the cuts between writes; the later stages see its text. -/
theorem writes_pass :
    processor.writes chunks =
      ({ (processor.pass (processor.normalizer.writes chunks).2).1 with
          normalizer := (processor.normalizer.writes chunks).1 },
        (processor.pass (processor.normalizer.writes chunks).2).2) := by
  induction chunks generalizing processor with
  | nil => rfl
  | cons content rest ih =>
    rw [writes, ih]
    simp only [Utf8Normalizer.writes, pass_append]
    rfl

/-- The stages behind the normaliser on a finished stream. -/
theorem finish_pass (text : Bytes) (rest : Utf8Normalizer) :
    let passed := processor.pass text
    let finished := { passed.1 with normalizer := rest }.finish
    let all := processor.pass (text ++ rest.finish.2)
    passed.2 ++ finished.2 =
      all.2 ++ (Transducer.run Router.routeMatched all.1.router all.1.redactor.finish.2).2 ++
        (Transducer.run Router.routeMatched all.1.router
          all.1.redactor.finish.2).1.finish.2 := by
  simp only [finish, pass_append, List.append_assoc]
  rfl

/-- What a finished stream hands over is the routing of its redacted text. -/
theorem emissions_eq (normalizer : processor.normalizer = {}) (ansi : processor.ansi = {})
    (redactor : processor.redactor = .new processor.redactor.patterns)
    (start : processor.router.AtStart)
    (single : ∀ value ∈ processor.router.linePrefix, isNewline value = false) :
    processor.emissions chunks =
      processor.router.routeLines
        (redactCells processor.redactor.patterns (streamText chunks)) := by
  rw [← Router.routeMatched_lines _ _ start single, emissions, writes_pass,
    finish_pass processor _ _, normalizer]
  simp only [pass, passText, ansi, streamText, redactCells, Transducer.run_append,
    List.append_assoc]
  rw [← redactor]

theorem writes_append (chunks more : List Bytes) :
    processor.writes (chunks ++ more) =
      (((processor.writes chunks).1.writes more).1,
        (processor.writes chunks).2 ++ ((processor.writes chunks).1.writes more).2) := by
  induction chunks generalizing processor with
  | nil => simp [writes]
  | cons content rest ih => simp [writes, ih]

theorem writes_snoc (chunk : Bytes) :
    processor.writes (chunks ++ [chunk]) =
      (((processor.writes chunks).1.write chunk).1,
        (processor.writes chunks).2 ++ ((processor.writes chunks).1.write chunk).2) := by
  rw [writes_append]
  simp only [writes, List.append_nil]

theorem write_finished (content : Bytes) :
    (processor.write content).1.finished = processor.finished := rfl

theorem writes_finished :
    (processor.writes chunks).1.finished = processor.finished := by
  induction chunks generalizing processor with
  | nil => rfl
  | cons content rest ih => exact (ih _).trans (write_finished processor content)

end RawProcessor

/-- The writes on one stream among the writes on both. -/
def chunksOf (stream : Stream) (writes : List (Stream × Bytes)) : List Bytes :=
  (writes.filter (fun write => write.1 = stream)).map Prod.snd

theorem chunksOf_snoc (stream : Stream) (writes : List (Stream × Bytes)) (write : Stream × Bytes) :
    chunksOf stream (writes ++ [write]) =
      chunksOf stream writes ++ if write.1 = stream then [write.2] else [] := by
  unfold chunksOf
  by_cases same : write.1 = stream <;> simp [same]

theorem chunksOf_append (stream : Stream) (writes more : List (Stream × Bytes)) :
    chunksOf stream (writes ++ more) = chunksOf stream writes ++ chunksOf stream more := by
  unfold chunksOf
  rw [List.filter_append, List.map_append]

theorem PerStream.get_set {α : Type} (pair : PerStream α) (stream other : Stream) (value : α) :
    (pair.set stream value).get other = if other = stream then value else pair.get other := by
  cases stream <;> cases other <;> rfl

theorem PerStream.get_append (pair : PerStream Bytes) (stream other : Stream) (content : Bytes) :
    (pair.set stream (pair.get stream ++ content)).get other =
      pair.get other ++ if other = stream then content else [] := by
  rw [get_set]
  by_cases same : other = stream
  · rw [if_pos same, if_pos same, same]
  · rw [if_neg same, if_neg same, List.append_nil]

def Emission.isRaw : Emission → Bool
  | .raw _ => true
  | .structured _ => false
  | .unsafeStructured => false

theorem Emission.raw_cases (emission : Emission) :
    emission.isRaw = false ∨ ∃ line, emission = .raw line := by
  cases emission with
  | raw line => exact Or.inr ⟨line, rfl⟩
  | structured | unsafeStructured => exact Or.inl rfl

namespace Collector

/-- Writes on both streams, one after another. -/
def run (collector : Collector) (writes : List (Stream × Bytes)) : Collector :=
  writes.foldl (fun collector write => collector.write write.1 write.2) collector

/-- Hand-overs of both streams, one after another. -/
def apply (collector : Collector) (log : List (Stream × Emission)) : Collector :=
  log.foldl (fun collector handed => emit handed.1 collector handed.2) collector

/-- The fields that only reading input changes. -/
def withInput (collector : Collector) (processors : PerStream RawProcessor) (rawObserved : Nat)
    (closed : Bool) : Collector :=
  { collector with processors := processors, rawObserved := rawObserved, closed := closed }

/-- What structured lines make. -/
structure EventSide where
  events : List StructuredEvent
  eventBytes : Nat
  eventsTruncated : Bool
  structuredEventError : Option String

def eventSide (collector : Collector) : EventSide :=
  ⟨collector.events, collector.eventBytes, collector.eventsTruncated,
    collector.structuredEventError⟩

/-- The collector with another event side. -/
def withEvents (collector : Collector) (side : EventSide) : Collector :=
  { collector with
    events := side.events
    eventBytes := side.eventBytes
    eventsTruncated := side.eventsTruncated
    structuredEventError := side.structuredEventError }

/-- What a structured line makes of the event side. -/
def eventStep (settings : Settings) (side : EventSide) (emission : Emission) : EventSide :=
  (emit .stdout ((ofSettings settings).withEvents side) emission).eventSide

variable (collector : Collector) (log : List (Stream × Emission))
  (processors : PerStream RawProcessor) (stream : Stream)

theorem withInput_self :
    collector.withInput collector.processors collector.rawObserved collector.closed =
      collector := rfl

/-- A structured line reads the settings and the event side, and changes nothing but that side. -/
theorem emit_structured (collector : Collector) (emission : Emission)
    (structured : emission.isRaw = false) :
    emit stream collector emission =
      collector.withEvents (eventStep collector.settings collector.eventSide emission) := by
  have error : ∀ message, collector.setStructuredEventError message = collector.withEvents
      (((ofSettings collector.settings).withEvents collector.eventSide).setStructuredEventError
        message).eventSide := by
    intro message
    dsimp only [setStructuredEventError, withEvents, eventSide]
    split <;> rfl
  cases emission with
  | raw => cases structured
  | unsafeStructured => exact error _
  | structured =>
    have settings : ((ofSettings collector.settings).withEvents collector.eventSide).settings =
      collector.settings := rfl
    have events : ((ofSettings collector.settings).withEvents collector.eventSide).events =
      collector.events := rfl
    simp only [eventStep, emit, emitStructured, recordEventLocked, settings, events]
    split
    · exact error _
    split
    · exact error _
    split
    · exact error _
    split <;> rfl

/-- Handing over does not look at the input side of the collector. -/
theorem emit_withInput (collector : Collector) (emission : Emission)
    (processors : PerStream RawProcessor) (rawObserved : Nat) (closed : Bool) :
    emit stream (collector.withInput processors rawObserved closed) emission =
      (emit stream collector emission).withInput processors rawObserved closed := by
  rcases emission.raw_cases with structured | ⟨_, rfl⟩
  · rw [emit_structured _ _ _ structured, emit_structured _ _ _ structured]
    rfl
  · rfl

variable (front rest : List (Stream × Emission)) (rawObserved : Nat)
  (writes : List (Stream × Bytes)) (closed : Bool)

theorem apply_withInput :
    (collector.withInput processors rawObserved closed).apply log =
      (collector.apply log).withInput processors rawObserved closed := by
  induction log generalizing collector with
  | nil => rfl
  | cons handed rest ih =>
    simp only [apply, List.foldl_cons]
    rw [emit_withInput]
    exact ih _

theorem apply_append :
    collector.apply (front ++ rest) = (collector.apply front).apply rest :=
  List.foldl_append

/-- Taking a step of one stream is applying what it hands over. -/
theorem advance_apply (step : RawProcessor × List Emission) :
    collector.advance stream step =
      (collector.apply (step.2.map (Prod.mk stream))).withInput
        (collector.processors.set stream step.1) collector.rawObserved collector.closed := by
  rw [← apply_withInput, apply, List.foldl_map]
  rfl

/-- The hand-overs of one stream in a log. -/
def handedBy (stream : Stream) (log : List (Stream × Emission)) : List Emission :=
  (log.filter (fun handed => handed.1 = stream)).map Prod.snd

theorem handedBy_cons (stream other : Stream) (emission : Emission)
    (rest : List (Stream × Emission)) :
    handedBy stream ((other, emission) :: rest) =
      if other = stream then emission :: handedBy stream rest else handedBy stream rest := by
  unfold handedBy
  by_cases same : other = stream <;> simp [same]

theorem handedBy_append :
    handedBy stream (front ++ rest) = handedBy stream front ++ handedBy stream rest := by
  simp [handedBy]

theorem handedBy_tagged (stream other : Stream) (handed : List Emission) :
    handedBy stream (handed.map (Prod.mk other)) = if other = stream then handed else [] := by
  unfold handedBy
  by_cases same : other = stream
  · simp [same, List.filter_map, Function.comp_def]
  · simp [same, List.filter_map, Function.comp_def]

/-- A run hands over, for each stream, what that stream's processor hands over on its own writes;
nothing else of the collector depends on the order of the writes. -/
theorem run_log (unfinished : ∀ stream, (collector.processors.get stream).finished = false) :
    ∃ log processors rawObserved,
      collector.run writes =
        (collector.apply log).withInput processors rawObserved collector.closed ∧
      ∀ stream,
        processors.get stream =
          ((collector.processors.get stream).writes (chunksOf stream writes)).1 ∧
        handedBy stream log =
          ((collector.processors.get stream).writes (chunksOf stream writes)).2 := by
  induction writes using List.reverseRecOn with
  | nil =>
    refine ⟨[], collector.processors, collector.rawObserved, rfl, ?_⟩
    intro stream
    exact ⟨rfl, rfl⟩
  | append_singleton writes write ih =>
    obtain ⟨log, processors, rawObserved, reached, streams⟩ := ih
    have open_ : (processors.get write.1).finished = false := by
      rw [(streams write.1).1, RawProcessor.writes_finished, unfinished]
    refine ⟨log ++ ((processors.get write.1).write write.2).2.map (Prod.mk write.1),
      processors.set write.1 ((processors.get write.1).write write.2).1,
      rawObserved + write.2.length, ?_, ?_⟩
    · rw [run, List.foldl_append]
      change (collector.run writes).write write.1 write.2 = _
      rw [reached, Collector.write]
      have same : ((collector.apply log).withInput processors rawObserved
          collector.closed).processors = processors := rfl
      simp only [same, open_, Bool.false_eq_true, if_false]
      rw [advance_apply, apply_append]
      change ((((collector.apply log).withInput processors (rawObserved + write.2.length)
        collector.closed).apply _).withInput _ _ _) = _
      rw [apply_withInput]
      rfl
    · intro stream
      obtain ⟨sameProcessor, sameHanded⟩ := streams stream
      rw [chunksOf_snoc, PerStream.get_set, handedBy_append, handedBy_tagged, sameHanded]
      by_cases same : write.1 = stream
      · subst same
        simp only [if_true]
        rw [RawProcessor.writes_snoc, sameProcessor]
        exact ⟨rfl, rfl⟩
      · have other : ¬ stream = write.1 := fun equal => same equal.symm
        simp only [same, other, if_false, List.append_nil]
        exact ⟨sameProcessor, trivial⟩

theorem withInput_withInput (processors others : PerStream RawProcessor)
    (rawObserved otherObserved : Nat) (closed otherClosed : Bool) :
    (collector.withInput processors rawObserved closed).withInput others otherObserved otherClosed =
      collector.withInput others otherObserved otherClosed := rfl

/-- Finishing a stream is applying what its processor hands over at the end. -/
theorem finishStream_log (stream : Stream) (unfinished : (processors.get stream).finished = false) :
    ((collector.apply log).withInput processors rawObserved closed).finishStream stream =
      (collector.apply (log ++ (processors.get stream).finish.2.map (Prod.mk stream))).withInput
        (processors.set stream (processors.get stream).finish.1) rawObserved closed := by
  have same : ((collector.apply log).withInput processors rawObserved closed).processors =
    processors := rfl
  rw [finishStream, same, if_neg (by rw [unfinished]; decide), advance_apply, apply_withInput,
    withInput_withInput, apply_append]
  rfl

/-- Closing is applying what both processors hand over at the end, standard output first. -/
theorem close_apply (unfinished : ∀ stream, (processors.get stream).finished = false) :
    ∃ finished,
      ((collector.apply log).withInput processors rawObserved closed).close =
        (collector.apply (log ++ (processors.get .stdout).finish.2.map (Prod.mk .stdout) ++
          (processors.get .stderr).finish.2.map (Prod.mk .stderr))).withInput finished
            rawObserved true := by
  refine ⟨(processors.set .stdout (processors.get .stdout).finish.1).set .stderr
    (processors.get .stderr).finish.1, ?_⟩
  have closing : ((collector.apply log).withInput processors rawObserved closed).close =
      (((collector.apply log).withInput processors rawObserved true).finishStream
        .stdout).finishStream .stderr := rfl
  have other : (processors.set .stdout (processors.get .stdout).finish.1).get .stderr =
    processors.get .stderr := rfl
  rw [closing, finishStream_log _ _ _ _ _ .stdout (unfinished .stdout),
    finishStream_log _ _ _ _ _ .stderr (by rw [other]; exact unfinished .stderr), other]

/-- A closed run hands over, for each stream, everything that stream's processor hands over on its
own writes. -/
theorem close_log (unfinished : ∀ stream, (collector.processors.get stream).finished = false) :
    ∃ log processors rawObserved,
      (collector.run writes).close =
        (collector.apply log).withInput processors rawObserved true ∧
      ∀ stream, handedBy stream log =
        (collector.processors.get stream).emissions (chunksOf stream writes) := by
  obtain ⟨log, processors, rawObserved, reached, streams⟩ := run_log collector writes unfinished
  obtain ⟨finished, closing⟩ :=
    close_apply collector log processors rawObserved collector.closed (by
    intro stream
    rw [(streams stream).1, RawProcessor.writes_finished, unfinished])
  refine ⟨_, finished, rawObserved, by rw [reached, closing], ?_⟩
  intro stream
  obtain ⟨sameProcessor, sameHanded⟩ := streams stream
  rw [handedBy_append, handedBy_append, handedBy_tagged, handedBy_tagged, sameHanded,
    RawProcessor.emissions, ← sameProcessor]
  cases stream <;> simp

theorem emit_settings (collector : Collector) (emission : Emission) :
    (emit stream collector emission).settings = collector.settings := by
  rcases emission.raw_cases with structured | ⟨_, rfl⟩
  · rw [emit_structured _ _ _ structured]
    rfl
  · rfl

/-- The entry of a raw line for the live sink. -/
def entryOf (maximum : Nat) (stream : Stream) : Emission → Option LiveEntry
  | .raw line => some ⟨stream, (fitRawLine maximum line).1, line.isPartial, line.redacted⟩
  | .structured _ => none
  | .unsafeStructured => none

/-- Whether a hand-over counts as a truncated line. -/
def counts (maximum : Nat) : Emission → Bool
  | .raw line => (fitRawLine maximum line).2
  | .structured _ => false
  | .unsafeStructured => false

theorem emit_entries (collector : Collector) (emission : Emission) :
    (emit stream collector emission).entries =
        collector.entries ++ (entryOf collector.settings.maxLineBytes stream emission).toList ∧
      (emit stream collector emission).truncatedLines =
        collector.truncatedLines +
          (if counts collector.settings.maxLineBytes emission then 1 else 0) := by
  cases emission with
  | raw => exact ⟨rfl, rfl⟩
  | structured | unsafeStructured =>
    rw [emit_structured _ _ _ rfl]
    exact ⟨(List.append_nil _).symm, rfl⟩

/-- The live sink and the counter of truncated lines follow from the hand-overs alone. -/
theorem apply_entries :
    (collector.apply log).entries =
        collector.entries ++
          log.filterMap (fun handed => entryOf collector.settings.maxLineBytes handed.1 handed.2) ∧
      (collector.apply log).truncatedLines =
        collector.truncatedLines +
          log.countP (fun handed => counts collector.settings.maxLineBytes handed.2) := by
  induction log generalizing collector with
  | nil => simp [apply]
  | cons handed rest ih =>
    obtain ⟨entries, counted⟩ := emit_entries handed.1 collector handed.2
    obtain ⟨later, laterCounted⟩ := ih (emit handed.1 collector handed.2)
    rw [emit_settings] at later laterCounted
    constructor
    · change ((emit handed.1 collector handed.2).apply rest).entries = _
      rw [later, entries, List.filterMap_cons]
      cases entryOf collector.settings.maxLineBytes handed.1 handed.2 <;> simp
    · change ((emit handed.1 collector handed.2).apply rest).truncatedLines = _
      rw [laterCounted, counted, List.countP_cons]
      omega

end Collector

/-- The redacted text of the raw lines of a finished stream. -/
def Settings.rawText (settings : Settings) (stream : Stream) (chunks : List Bytes) : Bytes :=
  Evidence.rawText (settings.linePrefix stream) false
    (Lines.lines isLineEnd (redactCells settings.patterns (streamText chunks)))

/-- What the processor and the collector make of one line of that text: the bytes kept of it and
whether it is counted as truncated. -/
def Settings.keepLine (settings : Settings) (stream : Stream) (line : Bytes) : Bytes × Bool :=
  let shown := limitLine (settings.lineLimit stream) line
  Collector.fitRawLine settings.maxLineBytes ⟨shown.1, shown.2.1, shown.2.2, false⟩

variable (settings : Settings)

theorem Settings.linePrefix_single (sound : settings.Sound) (stream : Stream) :
    ∀ value ∈ settings.linePrefix stream, isNewline value = false := by
  cases stream with
  | stdout => exact sound.single
  | stderr => simp [linePrefix]

/-- Everything a new processor hands over on a stream. -/
theorem RawProcessor.new_emissions (sound : settings.Sound) (stream : Stream)
    (chunks : List Bytes) :
    (RawProcessor.new stream settings).emissions chunks =
      (RawProcessor.new stream settings).router.routeLines
        (redactCells settings.patterns (streamText chunks)) :=
  emissions_eq _ chunks rfl rfl rfl ⟨rfl, rfl, rfl⟩ (settings.linePrefix_single sound stream)

/-- The raw lines a new processor hands over are those of the raw text, each limited. -/
theorem RawProcessor.new_rawShown (sound : settings.Sound) (stream : Stream) (chunks : List Bytes) :
    ((RawProcessor.new stream settings).emissions chunks).filterMap Emission.rawShown =
      (Lines.lines isNewline (settings.rawText stream chunks)).map
        (limitLine (settings.lineLimit stream)) := by
  rw [new_emissions settings sound,
    Router.routeLines_rawShown _ (RawProcessor.new stream settings).router.raw.line _
      ⟨rfl, rfl, rfl⟩]
  exact LineLimiter.run_finish_shown _ _ rfl rfl

namespace Collector

/-- A raw line is kept according to what is shown of it. -/
theorem entryOf_data (settings : Settings) (stream : Stream) (handed : List Emission)
    (parts : List Bytes)
    (shown : handed.filterMap Emission.rawShown =
      parts.map (limitLine (settings.lineLimit stream))) :
    (handed.filterMap (entryOf settings.maxLineBytes stream)).map LiveEntry.data =
        parts.map (fun line => (settings.keepLine stream line).1) ∧
      handed.countP (counts settings.maxLineBytes) =
        parts.countP (fun line => (settings.keepLine stream line).2) := by
  induction handed generalizing parts with
  | nil =>
    have empty : parts = [] := by simpa using shown.symm
    simp [empty]
  | cons emission rest ih =>
    cases emission with
    | raw line =>
      cases parts with
      | nil => simp [Emission.rawShown] at shown
      | cons part others =>
        simp only [List.filterMap_cons, Emission.rawShown, List.map_cons, List.cons.injEq] at shown
        obtain ⟨entries, counted⟩ := ih others shown.2
        have kept : fitRawLine settings.maxLineBytes line = settings.keepLine stream part := by
          rw [Settings.keepLine, ← shown.1]
          rfl
        constructor
        · simp only [List.filterMap_cons, entryOf, List.map_cons, entries, kept]
        · simp only [List.countP_cons, counts, counted, kept]
    | structured | unsafeStructured => exact ih parts shown

/-- The entries of one stream in a log. -/
theorem filter_entries (maximum : Nat) (stream : Stream) (log : List (Stream × Emission)) :
    (log.filterMap (fun handed => entryOf maximum handed.1 handed.2)).filter
        (fun entry => entry.stream = stream) =
      (handedBy stream log).filterMap (entryOf maximum stream) := by
  rw [List.filter_filterMap, handedBy, List.filterMap_map, List.filterMap_filter]
  refine List.filterMap_congr ?_
  rintro ⟨other, emission⟩ _
  by_cases same : other = stream <;> cases emission <;> simp [entryOf, same]

/-- Counting over both streams. -/
theorem countP_handedBy (counted : Emission → Bool) (log : List (Stream × Emission)) :
    log.countP (fun handed => counted handed.2) =
      (handedBy .stdout log).countP counted + (handedBy .stderr log).countP counted := by
  induction log with
  | nil => rfl
  | cons handed rest ih =>
    obtain ⟨stream, emission⟩ := handed
    rw [handedBy_cons, handedBy_cons, List.countP_cons, ih]
    cases stream <;> simp only [reduceCtorEq, if_true, if_false, List.countP_cons] <;> omega

/-- The live sink receives, for each stream, the kept lines of its raw text in order, and the
counter counts those that are reported as truncated. -/
theorem close_entries (settings : Settings) (sound : settings.Sound)
    (writes : List (Stream × Bytes)) :
    let closed := ((ofSettings settings).run writes).close
    let kept := fun stream => (Lines.lines isNewline
      (settings.rawText stream (chunksOf stream writes))).map (settings.keepLine stream)
    (∀ stream, (closed.entries.filter (fun entry => entry.stream = stream)).map LiveEntry.data =
        (kept stream).map Prod.fst) ∧
      closed.truncatedLines = (kept .stdout).countP Prod.snd + (kept .stderr).countP Prod.snd := by
  intro closed kept
  obtain ⟨log, _, _, reached, streams⟩ :=
    close_log (ofSettings settings) writes (by intro stream; cases stream <;> rfl)
  have perStream : ∀ stream, handedBy stream log =
      (RawProcessor.new stream settings).emissions (chunksOf stream writes) := by
    intro stream
    rw [streams]
    cases stream <;> rfl
  have shown : ∀ stream, (handedBy stream log).filterMap Emission.rawShown =
      (Lines.lines isNewline (settings.rawText stream (chunksOf stream writes))).map
        (limitLine (settings.lineLimit stream)) := by
    intro stream
    rw [perStream, RawProcessor.new_rawShown settings sound]
  obtain ⟨entries, counted⟩ := apply_entries (ofSettings settings) log
  have closedEntries : closed.entries =
      log.filterMap (fun handed => entryOf settings.maxLineBytes handed.1 handed.2) := by
    change ((ofSettings settings).run writes).close.entries = _
    rw [reached]
    exact entries
  have closedCount : closed.truncatedLines =
      log.countP (fun handed => counts settings.maxLineBytes handed.2) := by
    change ((ofSettings settings).run writes).close.truncatedLines = _
    rw [reached]
    exact counted.trans (Nat.zero_add _)
  constructor
  · intro stream
    rw [closedEntries, filter_entries,
      (entryOf_data settings stream _ _ (shown stream)).1, List.map_map]
    rfl
  · rw [closedCount, countP_handedBy, (entryOf_data settings .stdout _ _ (shown .stdout)).2,
      (entryOf_data settings .stderr _ _ (shown .stderr)).2, List.countP_map, List.countP_map]
    rfl

end Collector

end ProvenanceRunner.Evidence
