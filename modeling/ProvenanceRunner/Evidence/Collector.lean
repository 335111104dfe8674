import ProvenanceRunner.Evidence.Config

/-! # The collector

The collector owns one processor for each output stream. Every raw line goes to the archive spool
and to the bounded live output; a structured line becomes an event. The spool's files are byte
strings here: reading and writing them always succeeds. Compression of the finished log is left
out, its text is not. -/

namespace ProvenanceRunner.Evidence

open Utf8

/-- The text put where the live output was cut. -/
def totalTruncationMarker : Bytes := encode "[... output truncated ...]"

/-- A pair of values, one for each stream. -/
structure PerStream (α : Type) where
  stdout : α
  stderr : α
deriving DecidableEq, Repr

def PerStream.get {α : Type} (pair : PerStream α) : Stream → α
  | .stdout => pair.stdout
  | .stderr => pair.stderr

def PerStream.set {α : Type} (pair : PerStream α) (stream : Stream) (value : α) : PerStream α :=
  match stream with
  | .stdout => { pair with stdout := value }
  | .stderr => { pair with stderr := value }

/-- How many bytes at the end of the live output came from which stream. -/
structure RawTail where
  stream : Stream
  bytes : Nat
deriving DecidableEq, Repr

/-- The live output. Its last field says that the program has cut a line at a negative length. -/
structure BoundedOutput where
  text : PerStream Bytes := ⟨[], []⟩
  tail : List RawTail := []
  tailBytes : Nat := 0
  captured : Nat := 0
  maximum : Nat
  truncated : Bool := false
  panicked : Bool := false
deriving DecidableEq, Repr

namespace BoundedOutput

/-- Cut a number of bytes, and then what is not valid, from one stream; the number cut. -/
def truncateStream (output : BoundedOutput) (stream : Stream) (count : Nat) :
    BoundedOutput × Nat :=
  let original := output.text.get stream
  let content := trimInvalid (original.take (original.length - count))
  ({ output with text := output.text.set stream content }, original.length - content.length)

/-- Forget the origin of the last bytes. The list of tails is written last first. -/
def consumeTails : Nat → List RawTail → List RawTail
  | _, [] => []
  | count, last :: earlier =>
    if count = 0 then last :: earlier
    else if last.bytes ≤ count then consumeTails (count - last.bytes) earlier
    else { last with bytes := last.bytes - count } :: earlier

def consumeTailMetadata (output : BoundedOutput) (count : Nat) : BoundedOutput :=
  let tail := (consumeTails count output.tail.reverse).reverse
  { output with tail := tail, tailBytes := output.tailBytes - min count output.tailBytes }

/-- Remove bytes from the end of the live output, whichever stream they came from. Every round but
the last removes a byte. -/
def removeTailWithin : Nat → BoundedOutput → Nat → BoundedOutput
  | 0, output, _ => output
  | fuel + 1, output, count =>
    if count = 0 then output
    else match output.tail.getLast? with
      | none => output
      | some last =>
        let cut := output.truncateStream last.stream (min count last.bytes)
        let next := { cut.1 with captured := cut.1.captured - cut.2 }.consumeTailMetadata cut.2
        if cut.2 = 0 then next else removeTailWithin fuel next (count - cut.2)

def removeTail (output : BoundedOutput) (count : Nat) : BoundedOutput :=
  removeTailWithin (count + 1) output count

/-- Make room for the marker; what is left of the content with the marker after it. -/
def truncateTotal (output : BoundedOutput) (content : Bytes) : BoundedOutput × Bytes :=
  let marker := totalTruncationMarker.take output.maximum
  let target := output.maximum - marker.length
  let shortened :=
    if output.captured > target then output.removeTail (output.captured - target) else output
  ({ shortened with panicked := decide (shortened.captured > target) },
    trimInvalid (content.take (target - shortened.captured)) ++ marker)

/-- Forget the oldest origins while more than a marker's length is tracked. -/
def dropTails : Nat → List RawTail → List RawTail
  | _, [] => []
  | excess, first :: later =>
    if excess = 0 then first :: later
    else if first.bytes ≤ excess then dropTails (excess - first.bytes) later
    else { first with bytes := first.bytes - excess } :: later

def trackTail (output : BoundedOutput) (stream : Stream) (count : Nat) : BoundedOutput :=
  if count = 0 then output
  else
    let tracked := output.tailBytes + count
    let excess := tracked - totalTruncationMarker.length
    { output with
      tail := dropTails excess (output.tail ++ [⟨stream, count⟩])
      tailBytes := tracked - excess }

def append (output : BoundedOutput) (stream : Stream) (content : Bytes) : BoundedOutput :=
  if output.truncated then output
  else
    let fitted :=
      if content.length > output.maximum - output.captured then
        let cut := output.truncateTotal content
        ({ cut.1 with truncated := true }, cut.2)
      else (output, content)
    if fitted.2.length = 0 then fitted.1
    else
      { fitted.1 with
        captured := fitted.1.captured + fitted.2.length
        text := fitted.1.text.set stream (fitted.1.text.get stream ++ fitted.2) }.trackTail
          stream fitted.2.length

end BoundedOutput

inductive CompleteLogState where
  | spooling
  | truncated
deriving DecidableEq, Repr

structure ArchiveSpool where
  text : PerStream Bytes := ⟨[], []⟩
  maximum : Nat
  spooled : Nat := 0
  state : CompleteLogState := .spooling
  redacted : Bool := false
deriving DecidableEq, Repr

def Stream.name : Stream → Bytes
  | .stdout => encode "stdout"
  | .stderr => encode "stderr"

/-- The header line of one section of the complete log. -/
def sectionHeader (stream : Stream) : Bytes := [0x5B] ++ stream.name ++ [0x5D, 0x0A]

def completeLogOverhead : Nat :=
  (sectionHeader .stdout).length + (sectionHeader .stderr).length + 2

/-- A log that outgrows its limit is discarded as a whole. -/
def ArchiveSpool.append (spool : ArchiveSpool) (stream : Stream) (content : Bytes) :
    ArchiveSpool :=
  if spool.state ≠ .spooling ∨ content.length = 0 then spool
  else if (content.length : Int) > spool.maximum - completeLogOverhead - spool.spooled then
    { spool with state := .truncated, text := ⟨[], []⟩ }
  else
    { spool with
      spooled := spool.spooled + content.length
      text := spool.text.set stream (spool.text.get stream ++ content) }

/-- The text of one stream in the complete log, after its header: a final line feed is added
where it is missing. -/
def ArchiveSpool.sectionText (spool : ArchiveSpool) (stream : Stream) : Bytes :=
  let text := spool.text.get stream
  if text.isEmpty then []
  else if text.getLast? = some 0x0A then text
  else text ++ [0x0A]

/-- The complete log, where it was not discarded. -/
def ArchiveSpool.writeCompleteLog (spool : ArchiveSpool) : Option Bytes :=
  if spool.state = .spooling then
    some ([Stream.stdout, Stream.stderr].flatMap fun stream =>
      if (spool.text.get stream).isEmpty then []
      else sectionHeader stream ++ spool.sectionText stream)
  else none

/-- One stream's processor: the first three stages and the router. -/
structure RawProcessor where
  normalizer : Utf8Normalizer := {}
  ansi : AnsiStripper := {}
  redactor : SecretRedactor
  router : Router
  finished : Bool := false
deriving DecidableEq, Repr

/-- The configured start of structured lines; only standard output has them. -/
def Settings.linePrefix (settings : Settings) : Stream → Bytes
  | .stdout => settings.structuredLinePrefix
  | .stderr => []

/-- The line limit of a processor: a structured line may be as long as an event. -/
def Settings.lineLimit (settings : Settings) (stream : Stream) : Nat :=
  if (settings.linePrefix stream).isEmpty then settings.maxLineBytes
  else max settings.maxLineBytes ((settings.linePrefix stream).length + settings.maxEventBytes)

def RawProcessor.new (stream : Stream) (settings : Settings) : RawProcessor :=
  { redactor := .new settings.patterns
    router :=
      { linePrefix := settings.linePrefix stream
        raw := { line := { maximum := settings.lineLimit stream } }
        structured := { line := { maximum := settings.lineLimit stream } } } }

/-- Stripped text through the last two stages. -/
def RawProcessor.passText (processor : RawProcessor) (text : Bytes) :
    RawProcessor × List Emission :=
  let redacted := processor.redactor.write text
  let routed := Transducer.run Router.routeMatched processor.router redacted.2
  ({ processor with redactor := redacted.1, router := routed.1 }, routed.2)

/-- Normalised text through the last three stages. -/
def RawProcessor.pass (processor : RawProcessor) (text : Bytes) : RawProcessor × List Emission :=
  let stripped := processor.ansi.write text
  { processor with ansi := stripped.1 }.passText stripped.2

def RawProcessor.write (processor : RawProcessor) (content : Bytes) :
    RawProcessor × List Emission :=
  let normalized := processor.normalizer.write content
  { processor with normalizer := normalized.1 }.pass normalized.2

def RawProcessor.finish (processor : RawProcessor) : RawProcessor × List Emission :=
  let normalized := processor.normalizer.finish
  let passed := { processor with normalizer := normalized.1 }.pass normalized.2
  let released := passed.1.redactor.finish
  let routed := Transducer.run Router.routeMatched passed.1.router released.2
  let flushed := routed.1.finish
  ({ passed.1 with
      ansi := passed.1.ansi.finish
      redactor := released.1
      router := flushed.1
      finished := true },
    passed.2 ++ routed.2 ++ flushed.2)

structure LiveEntry where
  stream : Stream
  data : Bytes
  isPartial : Bool
  redacted : Bool
deriving DecidableEq, Repr

/-- The state of a collector. The entries given to the live sink are kept in order. -/
structure Collector where
  settings : Settings
  processors : PerStream RawProcessor
  live : BoundedOutput
  complete : ArchiveSpool
  events : List StructuredEvent := []
  eventBytes : Nat := 0
  rawObserved : Nat := 0
  truncatedLines : Nat := 0
  eventsTruncated : Bool := false
  structuredEventError : Option String := none
  closed : Bool := false
  entries : List LiveEntry := []
deriving DecidableEq, Repr

namespace Collector

def ofSettings (settings : Settings) : Collector :=
  { settings := settings
    processors := ⟨.new .stdout settings, .new .stderr settings⟩
    live := { maximum := settings.maxTotalBytes }
    complete := { maximum := settings.maxCompleteLogBytes } }

/-- A new collector for a configuration. -/
def new (config : Config) : Except String Collector :=
  (config.withDefaults.mapError ("create evidence collector: " ++ ·)).map ofSettings

/-- Only the first error is kept. -/
def setStructuredEventError (collector : Collector) (message : String) : Collector :=
  if collector.structuredEventError = none then
    { collector with structuredEventError := some message }
  else collector

def recordEventLocked (collector : Collector) (input : EventInput) : Collector :=
  match sanitizeEvent input collector.settings.patterns collector.settings.maxEventBytes with
  | none => collector.setStructuredEventError "structured event cannot be safely sanitized"
  | some clean =>
    if collector.events.length ≥ collector.settings.maxEvents then
      { collector with eventsTruncated := true }
    else
      { collector with
        events := collector.events ++ [⟨collector.events.length + 1, clean.kind, clean.payload⟩]
        eventBytes := collector.eventBytes + clean.payload.length }

/-- Remove one byte from the end where it is the given one. -/
def trimSuffix (data : Bytes) (last : UInt8) : Bytes :=
  if data.getLast? = some last then data.dropLast else data

/-- A line without its line feed and a carriage return before it. -/
def lineContent (line : Bytes) : Bytes := trimSuffix (trimSuffix line 0x0A) 0x0D

def rawContentLength (line : Bytes) : Nat := (lineContent line).length

def truncateRawLine (line : Bytes) (maximum : Nat) : Bytes :=
  trimInvalid ((lineContent line).take maximum) ++ lineTruncationMarker ++
    (if line.getLast? = some 0x0A then [0x0A] else [])

/-- A line as it is kept, and whether it counts as truncated. -/
def fitRawLine (maximum : Nat) (line : Line) : Bytes × Bool :=
  if rawContentLength line.data > maximum then (truncateRawLine line.data maximum, true)
  else (line.data, line.truncated)

def emitRaw (collector : Collector) (stream : Stream) (line : Line) : Collector :=
  let fitted := fitRawLine collector.settings.maxLineBytes line
  let spooled := collector.complete.append stream fitted.1
  { collector with
    truncatedLines := collector.truncatedLines + (if fitted.2 then 1 else 0)
    complete :=
      if spooled.state = .spooling ∧ line.redacted then { spooled with redacted := true }
      else spooled
    live := collector.live.append stream fitted.1
    entries := collector.entries ++ [⟨stream, fitted.1, line.isPartial, line.redacted⟩] }

def emitStructured (collector : Collector) (line : Line) : Collector :=
  if line.truncated then
    collector.setStructuredEventError "structured event line exceeded the configured line limit"
  else
    let payload := lineContent (line.data.drop collector.settings.structuredLinePrefix.length)
    let input : EventInput := ⟨collector.settings.structuredLineKind, payload⟩
    match validateEvent input collector.settings.maxEventBytes with
    | .error message => collector.setStructuredEventError message
    | .ok () => collector.recordEventLocked input

/-- One hand-over of a stream's processor. -/
def emit (stream : Stream) (collector : Collector) : Emission → Collector
  | .raw line => collector.emitRaw stream line
  | .structured line => collector.emitStructured line
  | .unsafeStructured =>
    collector.setStructuredEventError "structured event cannot be safely sanitized"

/-- Take a step of one stream's processor and apply what it hands over. -/
def advance (collector : Collector) (stream : Stream) (step : RawProcessor × List Emission) :
    Collector :=
  step.2.foldl (emit stream)
    { collector with processors := collector.processors.set stream step.1 }

/-- One write on a stream. After the stream is finished it is ignored. -/
def write (collector : Collector) (stream : Stream) (content : Bytes) : Collector :=
  let processor := collector.processors.get stream
  if processor.finished then collector
  else
    { collector with rawObserved := collector.rawObserved + content.length }.advance stream
      (processor.write content)

def finishStream (collector : Collector) (stream : Stream) : Collector :=
  let processor := collector.processors.get stream
  if processor.finished then collector else collector.advance stream processor.finish

/-- Close the collector and finish both streams. -/
def close (collector : Collector) : Collector :=
  ({ collector with closed := true }.finishStream .stdout).finishStream .stderr

structure Usage where
  rawBytesObserved : Nat
  capturedBytes : Nat
  structuredEventCount : Nat
  structuredEventBytes : Nat
  truncatedLineCount : Nat
  outputTruncated : Bool
  eventsTruncated : Bool
  completeLogBytes : Nat
deriving DecidableEq, Repr

structure Bundle where
  stdout : Bytes
  stderr : Bytes
  events : List StructuredEvent
  completeLog : Option Bytes
  completeLogRedacted : Bool
  usage : Usage
  structuredEventError : Option String
deriving DecidableEq, Repr

/-- What the closed collector shows. -/
def bundle (collector : Collector) : Bundle :=
  let log := collector.complete.writeCompleteLog
  { stdout := collector.live.text.stdout
    stderr := collector.live.text.stderr
    events := collector.events
    completeLog := log
    completeLogRedacted := log.isSome && collector.complete.redacted
    usage :=
      { rawBytesObserved := collector.rawObserved
        capturedBytes := collector.live.captured
        structuredEventCount := collector.events.length
        structuredEventBytes := collector.eventBytes
        truncatedLineCount := collector.truncatedLines
        outputTruncated := collector.live.truncated || decide (collector.truncatedLines > 0)
        eventsTruncated := collector.eventsTruncated
        completeLogBytes := (log.getD []).length }
    structuredEventError := collector.structuredEventError }

def snapshot (collector : Collector) : Bundle := collector.close.bundle

end Collector

end ProvenanceRunner.Evidence
