import Mathlib.Data.List.ReduceOption
import ProvenanceRunner.Evidence.LiveOutput
import ProvenanceRunner.Library.Writers

/-! # The complete log on disk

Every line is spooled to a file of its stream. At the end the two files are written to one
compressed archive. Each of these writes can fail, or take only a part of what it is given. The
archive is modelled by the text it decompresses to.

The collector's own spool leaves the files out: it is this one where no write fails, and
`collector_summary` says that it stays so along every run of the collector. -/

namespace ProvenanceRunner.Evidence.Spooling

open Utf8 Writers

/-- The state of a complete log; it is unset while lines are spooled. -/
inductive State where
  | unset
  | complete
  | truncated
  | failed
deriving DecidableEq, Repr

/-- The spool with the files behind it. Once a state is set the files are closed and are not
looked at again. -/
structure ArchiveSpool where
  files : PerStream Bytes := ⟨[], []⟩
  maximum : Nat
  spooled : Nat := 0
  bytes : PerStream Nat := ⟨0, 0⟩
  state : State := .unset
  redacted : Bool := false
  failure : String := ""
deriving DecidableEq, Repr

structure CompleteLog where
  state : State
  redacted : Bool := false
  truncated : Bool := false
  error : String := ""
  uncompressedBytes : Nat := 0
  archive : Option Bytes := none
deriving DecidableEq, Repr

def writeArchive : List Answer → Bytes → Bytes → Outcome UInt8
  | [], content, text => ⟨text ++ content, content.length, none⟩
  | answer :: later, content, text =>
    if content.isEmpty then { text }
    else
      let written := content.take answer.count
      Outcome.andThen ⟨text ++ written, written.length, answer.failure.or
          (if written.isEmpty then some "short write" else none)⟩
        (writeArchive later (content.drop answer.count))

theorem writeArchive_wrote (answers : List Answer) (content text : Bytes) :
    Wrote text content (writeArchive answers content text) := by
  induction answers generalizing content text with
  | nil => exact ⟨content, List.prefix_refl _, rfl, rfl, fun _ => rfl⟩
  | cons answer later ih =>
    rw [writeArchive]
    split
    case isTrue empty =>
      rw [List.isEmpty_iff.mp empty]
      exact Wrote.check text none
    case isFalse =>
      have first : Wrote text (content.take answer.count) ⟨text ++ content.take answer.count,
          (content.take answer.count).length, answer.failure.or
            (if (content.take answer.count).isEmpty then some "short write" else none)⟩ :=
        ⟨_, List.prefix_refl _, rfl, rfl, fun _ => rfl⟩
      have both := first.andThen (ih (content.drop answer.count))
      rwa [List.take_append_drop] at both

namespace ArchiveSpool

def append (spool : ArchiveSpool) (stream : Stream) (content : Bytes) (answers : List Answer) :
    ArchiveSpool :=
  if spool.state ≠ .unset ∨ content.length = 0 then spool
  else if (content.length : Int) > spool.maximum - completeLogOverhead - spool.spooled then
    { spool with
      state := .truncated
      failure := "complete log exceeded the " ++ toString spool.maximum ++
        "-byte operational retention boundary" }
  else
    let outcome := writeArchive answers content (spool.files.get stream)
    let next := { spool with
      files := spool.files.set stream outcome.text
      spooled := spool.spooled + outcome.count
      bytes := spool.bytes.set stream (spool.bytes.get stream + outcome.count) }
    match outcome.failure with
    | none => next
    | some failure => { next with state := .failed, failure := "spool complete log: " ++ failure }

/-- What the collector does to the spool with one line, and the answers to its writes. -/
def emitRawLine (spool : ArchiveSpool) (line : LiveEntry × List Answer) : ArchiveSpool :=
  let next := spool.append line.1.stream line.1.data line.2
  if next.state = .unset ∧ line.1.redacted then { next with redacted := true } else next

/-- How the calls for one section of the archive end. -/
structure SectionCalls where
  sync : Option String := none
  seek : Option String := none
  header : List Answer := []
  copied : List Round := []
  readAt : Option String := none
  newline : List Answer := []
deriving DecidableEq, Repr

/-- The section of one stream. A stream without bytes has none. -/
def writeSection (spool : ArchiveSpool) (stream : Stream) (calls : SectionCalls) (text : Bytes) :
    Outcome UInt8 :=
  let file := spool.files.get stream
  let bytes := spool.bytes.get stream
  if bytes = 0 then { text }
  else
    ((((Outcome.check calls.sync text).andThen (Outcome.check calls.seek)).andThen
      (writeArchive calls.header (sectionHeader stream))).andThen
      (copyN calls.copied file bytes)).andThen fun text =>
        match file[bytes - 1]? with
        | none => { text, failure := "EOF" }
        | some last =>
          (Outcome.check calls.readAt text).andThen
            (if last = 0x0A then Outcome.check none else writeArchive calls.newline [0x0A])

def writeCompleteLog (spool : ArchiveSpool) (calls : PerStream SectionCalls) : Outcome UInt8 :=
  (spool.writeSection .stdout calls.stdout []).andThen (spool.writeSection .stderr calls.stderr)

def fail (spool : ArchiveSpool) (failure : String) : ArchiveSpool :=
  { spool with state := .failed, failure }

def unavailable (spool : ArchiveSpool) : CompleteLog :=
  let state := if spool.state = .unset then .failed else spool.state
  { state, truncated := state = .truncated, error := spool.failure }

/-- How the calls for the archive end. -/
structure FinalCalls where
  create : Option String := none
  sections : PerStream SectionCalls := ⟨{}, {}⟩
  close : Option String := none
  sync : Option String := none
  seek : Option String := none
deriving DecidableEq, Repr

def finalize (spool : ArchiveSpool) (calls : FinalCalls) : CompleteLog × Option String :=
  let refuse (spool : ArchiveSpool) := (spool.unavailable, some spool.failure)
  if spool.state ≠ .unset then refuse spool
  else match calls.create with
  | some failure => refuse (spool.fail ("create compressed complete-log spool: " ++ failure))
  | none =>
    let written := spool.writeCompleteLog calls.sections
    match [written.failure, calls.close, calls.sync].reduceOption with
    | [] =>
      match calls.seek with
      | some failure => refuse (spool.fail ("rewind compressed complete log: " ++ failure))
      | none =>
        ({ state := .complete
           redacted := spool.redacted
           uncompressedBytes := written.count
           archive := some written.text }, none)
    | failures => refuse (spool.fail ("compress complete log: " ++ "\n".intercalate failures))

end ArchiveSpool

/-! ## What the files hold -/

/-- The section of a stream with this text in the complete log. -/
def sectionOf (stream : Stream) (text : Bytes) : Bytes :=
  if text.isEmpty then []
  else sectionHeader stream ++ text ++ if text.getLast? = some 0x0A then [] else [0x0A]

/-- The complete log of these lines. -/
def completeText (log : List (Stream × Bytes)) : Bytes :=
  sectionOf .stdout (joined log .stdout) ++ sectionOf .stderr (joined log .stderr)

/-- The files hold all lines, the counters count them, and there is room for what the archive
adds. -/
structure Holds (spool : ArchiveSpool) (log : List (Stream × Bytes)) : Prop where
  files : ∀ stream, spool.files.get stream = joined log stream
  bytes : ∀ stream, spool.bytes.get stream = (joined log stream).length
  spooled : spool.spooled = (joined log .stdout).length + (joined log .stderr).length
  room : spool.spooled = 0 ∨ spool.spooled + completeLogOverhead ≤ spool.maximum

def State.IsLost (state : State) : Prop := state = .truncated ∨ state = .failed

/-- Either all lines are held or the log is lost. -/
def Sound (maximum : Nat) (spool : ArchiveSpool) (log : List (Stream × Bytes)) : Prop :=
  spool.state.IsLost ∨ (spool.state = .unset ∧ spool.maximum = maximum ∧ Holds spool log)

variable {spool : ArchiveSpool} {log : List (Stream × Bytes)} {maximum : Nat}

theorem State.IsLost.ne_unset {state : State} (lost : state.IsLost) : state ≠ .unset := by
  rcases lost with rfl | rfl <;> decide

theorem Holds.append (held : Holds spool log) (stream : Stream) (content : Bytes)
    {outcome : Outcome UInt8} (text : outcome.text = spool.files.get stream ++ content)
    (count : outcome.count = content.length)
    (fits : spool.spooled + content.length + completeLogOverhead ≤ spool.maximum) :
    Holds { spool with
      files := spool.files.set stream outcome.text
      spooled := spool.spooled + outcome.count
      bytes := spool.bytes.set stream (spool.bytes.get stream + outcome.count) }
      (log ++ [(stream, content)]) where
  files other := by
    rw [joined_snoc, text, PerStream.get_append, held.files]
  bytes other := by
    rw [joined_snoc, PerStream.get_set, count, held.bytes, held.bytes, List.length_append]
    by_cases same : other = stream
    · simp only [same, if_true]
    · simp only [same, if_false, List.length_nil, Nat.add_zero]
  spooled := by
    rw [joined_snoc, joined_snoc]
    cases stream <;> simp [held.spooled, count] <;> omega
  room := Or.inr (count ▸ fits)

/-- A line leaves the spool sound. -/
theorem Sound.append (sound : Sound maximum spool log) (stream : Stream) (content : Bytes)
    (answers : List Answer) :
    Sound maximum (spool.append stream content answers) (log ++ [(stream, content)]) := by
  unfold ArchiveSpool.append
  split
  case isTrue skipped =>
    rcases sound with lost | ⟨unset, limit, held⟩
    · exact Or.inl lost
    have empty := List.length_eq_zero_iff.mp (skipped.resolve_left (not_not_intro unset))
    have same : ∀ other, joined (log ++ [(stream, content)]) other = joined log other := by
      intro other
      rw [joined_snoc, empty, ite_self, List.append_nil]
    refine Or.inr ⟨unset, limit, ?_, ?_, ?_, held.room⟩
    · simpa only [same] using held.files
    · simpa only [same] using held.bytes
    · simpa only [same] using held.spooled
  case isFalse proceeds =>
    have unset := not_not.mp (not_or.mp proceeds).1
    obtain ⟨-, limit, held⟩ := sound.resolve_left fun lost => lost.ne_unset unset
    split
    · exact Or.inl (Or.inl rfl)
    case isFalse fits =>
      obtain ⟨taken, -, text, count, all⟩ :=
        writeArchive_wrote answers content (spool.files.get stream)
      dsimp only
      split
      case h_2 => exact Or.inl (Or.inr rfl)
      case h_1 success =>
        rw [all success] at text count
        exact Or.inr ⟨unset, limit, held.append stream content text count (by omega)⟩

/-- Any sequence of lines leaves the spool sound. -/
theorem Sound.run (sound : Sound maximum spool log) (lines : List (LiveEntry × List Answer)) :
    Sound maximum (lines.foldl ArchiveSpool.emitRawLine spool)
      (log ++ lines.map fun line => (line.1.stream, line.1.data)) := by
  induction lines generalizing spool log with
  | nil => simpa using sound
  | cons line rest ih =>
    have appended := sound.append line.1.stream line.1.data line.2
    have emitted :
        Sound maximum (spool.emitRawLine line) (log ++ [(line.1.stream, line.1.data)]) := by
      unfold ArchiveSpool.emitRawLine
      dsimp only
      split
      case isTrue marked =>
        obtain ⟨unset, limit, held⟩ := appended.resolve_left fun lost => lost.ne_unset marked.1
        exact Or.inr ⟨unset, limit, held.files, held.bytes, held.spooled, held.room⟩
      · exact appended
    simpa using ih emitted

/-! ## What the archive holds -/

theorem Holds.writeSection (held : Holds spool log) (stream : Stream)
    (calls : ArchiveSpool.SectionCalls) (text : Bytes) :
    Wrote text (sectionOf stream (joined log stream)) (spool.writeSection stream calls text) := by
  unfold ArchiveSpool.writeSection sectionOf
  rw [held.files, held.bytes]
  generalize joined log stream = file
  cases shape : file.getLast? with
  | none =>
    rw [List.getLast?_eq_none_iff.mp shape]
    exact Wrote.check text none
  | some last =>
    have filled : file ≠ [] := by
      rintro rfl
      exact Option.some_ne_none last shape.symm
    have final : file[file.length - 1]? = some last := by
      rw [← List.getLast?_eq_getElem?, shape]
    simp only [List.length_eq_zero_iff, List.isEmpty_iff, filled, if_false, final]
    have ended : ∀ text, Wrote text (if some last = some 0x0A then [] else [0x0A])
        ((if last = 0x0A then Outcome.check none else writeArchive calls.newline [0x0A]) text) := by
      intro text
      by_cases newline : last = 0x0A
      · simpa [newline] using Wrote.check text none
      · simpa [newline] using writeArchive_wrote calls.newline [0x0A] text
    have copied := (((Wrote.check text calls.sync).andThen fun text =>
      Wrote.check text calls.seek).andThen
      (writeArchive_wrote calls.header (sectionHeader stream))).andThen
      (copyN_wrote calls.copied file file.length)
    rw [List.take_length] at copied
    exact copied.andThen fun text => (Wrote.check text calls.readAt).andThen ended

theorem sectionOf_length (stream : Stream) (text : Bytes) :
    (sectionOf stream text).length ≤ text.length + (sectionHeader stream).length + 1 := by
  unfold sectionOf
  split
  · exact Nat.zero_le _
  · rw [List.length_append, List.length_append]
    split <;> simp <;> omega

theorem Holds.bound (held : Holds spool log) : (completeText log).length ≤ spool.maximum := by
  rcases held.room with none | room
  · have counted := held.spooled
    have empty : ∀ stream, joined log stream = [] := by
      intro stream
      apply List.length_eq_zero_iff.mp
      cases stream <;> omega
    simp [completeText, empty, sectionOf]
  · have counted := held.spooled
    have first := sectionOf_length .stdout (joined log .stdout)
    have second := sectionOf_length .stderr (joined log .stderr)
    rw [completeText, List.length_append]
    unfold completeLogOverhead at room
    omega

/-- A spool without a state fails, or its log is what was written without a failure. -/
theorem finalize_cases (calls : ArchiveSpool.FinalCalls) (unset : spool.state = .unset) :
    let log := (spool.finalize calls).1
    let written := spool.writeCompleteLog calls.sections
    (∃ failure, log = (spool.fail failure).unavailable) ∨
      (written.failure = none ∧ log.state = .complete ∧ log.archive = some written.text ∧
        log.uncompressedBytes = written.count) := by
  dsimp only [ArchiveSpool.finalize]
  rw [if_neg (not_not_intro unset)]
  split
  · exact Or.inl ⟨_, rfl⟩
  split
  case h_1 silent =>
    split
    · exact Or.inl ⟨_, rfl⟩
    refine Or.inr ⟨?_, rfl, rfl, rfl⟩
    cases failed : (spool.writeCompleteLog calls.sections).failure with
    | none => rfl
    | some => simp [List.reduceOption, failed] at silent
  · exact Or.inl ⟨_, rfl⟩

/-- A log reported as complete is that of all lines, with its length, and within the limit. A log
in any other state is truncated or failed and comes without an archive.

Proof: every line keeps `Sound`; the two sections then write all that is held. -/
theorem complete_log_integrity (maximum : Nat) (lines : List (LiveEntry × List Answer))
    (calls : ArchiveSpool.FinalCalls) :
    let spool := lines.foldl ArchiveSpool.emitRawLine { maximum }
    let log := (spool.finalize calls).1
    let text := completeText (lines.map fun line => (line.1.stream, line.1.data))
    (log.state = .complete ∧ log.archive = some text ∧ log.uncompressedBytes = text.length ∧
        text.length ≤ maximum) ∨
      ((log.state = .truncated ∨ log.state = .failed) ∧ log.archive = none) := by
  intro spool log text
  have refused : ∀ spool : ArchiveSpool, spool.state.IsLost →
      spool.unavailable.state.IsLost ∧ spool.unavailable.archive = none := by
    intro spool lost
    simpa [ArchiveSpool.unavailable, lost.ne_unset] using lost
  have sound : Sound maximum spool ([] ++ _) := Sound.run (.inr ⟨rfl, rfl, by
    intro stream
    cases stream <;> rfl, by
    intro stream
    cases stream <;> rfl, rfl, Or.inl rfl⟩) lines
  rcases sound with lost | ⟨unset, limit, held⟩
  · have refusal : log = spool.unavailable :=
      congrArg Prod.fst (if_pos lost.ne_unset : spool.finalize calls = _)
    rw [refusal]
    exact Or.inr (refused spool lost)
  · obtain ⟨_, -, written, count, all⟩ :=
      (held.writeSection .stdout calls.sections.stdout []).andThen
        (held.writeSection .stderr calls.sections.stderr)
    rcases finalize_cases calls unset with ⟨_, refusal⟩ | ⟨success, complete, archive, bytes⟩
    · change log = _ at refusal
      rw [refusal]
      exact Or.inr (refused _ (Or.inr rfl))
    · rw [all success] at written count
      exact Or.inl ⟨complete, archive.trans (congrArg some written), bytes.trans count,
        limit ▸ held.bound⟩

/-! ## The spool of the collector -/

namespace ArchiveSpool

/-- The spool without its files. A log that is lost has no text. -/
def summary (spool : ArchiveSpool) : Evidence.ArchiveSpool where
  text := if spool.state = .unset then spool.files else ⟨[], []⟩
  maximum := spool.maximum
  spooled := spool.spooled
  state := if spool.state = .unset then .spooling else .truncated
  redacted := spool.redacted

/-- A line that is written whole is a line of the spool without files. -/
theorem append_summary (spool : ArchiveSpool) (stream : Stream) (content : Bytes) :
    (spool.append stream content []).summary = spool.summary.append stream content := by
  by_cases unset : spool.state = .unset
  · simp only [append, Evidence.ArchiveSpool.append, summary, writeArchive, unset, if_true, ne_eq,
      not_true_eq_false, false_or]
    split
    · simp
    split
    · rfl
    · simp
  · simp [append, Evidence.ArchiveSpool.append, summary, unset]

/-- One hand-over: a raw line is spooled as the live sink receives it. -/
theorem emit_summary (collector : Collector) (stream : Stream) (emission : Emission)
    (same : collector.complete = spool.summary) :
    (Collector.emit stream collector emission).complete =
      (((Collector.entryOf collector.settings.maxLineBytes stream emission).toList.map
        (·, [])).foldl emitRawLine spool).summary := by
  cases emission with
  | structured | unsafeStructured =>
    rw [Collector.emit_structured _ _ _ rfl]
    exact same
  | raw line =>
    simp only [Collector.emit, Collector.emitRaw, Collector.entryOf, Option.toList_some,
      List.map_singleton, List.foldl_cons, List.foldl_nil, emitRawLine, same, ← append_summary]
    generalize spool.append stream _ [] = next
    by_cases unset : next.state = .unset <;> cases line.redacted <;> simp [summary, unset]

/-- The collector spools the lines that its live sink receives. -/
theorem collector_summary (collector : Collector) (handed : List (Stream × Emission))
    (same : collector.complete = spool.summary) :
    (collector.apply handed).complete = (((handed.filterMap fun emission =>
      Collector.entryOf collector.settings.maxLineBytes emission.1 emission.2).map
        (·, [])).foldl emitRawLine spool).summary := by
  induction handed generalizing collector spool with
  | nil => exact same
  | cons first rest ih =>
    have later := ih (Collector.emit first.1 collector first.2)
      (emit_summary collector first.1 first.2 same)
    rw [Collector.emit_settings, ← List.foldl_append, ← List.map_append] at later
    rw [List.filterMap_cons]
    change ((Collector.emit first.1 collector first.2).apply rest).complete = _
    rw [later]
    cases Collector.entryOf collector.settings.maxLineBytes first.1 first.2 <;> rfl

end ArchiveSpool

end ProvenanceRunner.Evidence.Spooling
