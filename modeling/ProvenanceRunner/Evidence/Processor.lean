import ProvenanceRunner.Evidence.LineLimiter
import ProvenanceRunner.Evidence.Redactor

/-! # The raw processor

The router takes the cells of the redactor. A line that starts with the configured text is a
structured line, every other line is raw. While the start of a line still agrees with the
configured text its bytes are probed. Structured bytes keep their original values, but a masked
byte outside the body of a JSON string makes the line unsafe.

The fields of the router and of its two sinks are those of the source's processor after its first
three stages. -/

namespace ProvenanceRunner.Evidence

open Utf8

inductive Stream where
  | stdout
  | stderr
deriving DecidableEq, Repr

inductive Route where
  | undecided
  | raw
  | structured
deriving DecidableEq, Repr

/-- Whether a reader of JSON text is inside a string, and right after a backslash there. -/
structure JsonCursor where
  inString : Bool := false
  escaped : Bool := false
deriving DecidableEq, Repr

/-- A byte of a string's body, which the closing quote is not. -/
def JsonCursor.inBody (cursor : JsonCursor) (value : UInt8) : Bool :=
  cursor.inString && (cursor.escaped || value != 0x22)

def JsonCursor.advance (cursor : JsonCursor) (value : UInt8) : JsonCursor :=
  if cursor.inString then
    if cursor.escaped then { cursor with escaped := false }
    else if value = 0x5C then { cursor with escaped := true }
    else if value = 0x22 then { cursor with inString := false }
    else cursor
  else if value = 0x22 then { cursor with inString := true }
  else cursor

/-- What the processor hands to the collector. -/
inductive Emission where
  | raw (line : Line)
  | structured (line : Line)
  | unsafeStructured
deriving DecidableEq, Repr

/-- Where raw bytes go. The flag says whether the last byte was masked. -/
structure RawSink where
  line : LineLimiter
  rawMasked : Bool := false
deriving DecidableEq, Repr

/-- One byte of a raw line; a run of masked bytes becomes one marker. -/
def RawSink.emitMatchedRaw (sink : RawSink) (cell : Cell) : RawSink × List Line :=
  if cell.masked then
    if sink.rawMasked then (sink, [])
    else
      let written := sink.line.write redactionMarker true
      (⟨written.1, true⟩, written.2)
  else
    let written := sink.line.write [cell.value] false
    (⟨written.1, false⟩, written.2)

/-- A byte that went to a structured line; an unmasked one ends a run of masked bytes. -/
def RawSink.pass (sink : RawSink) (cell : Cell) : RawSink :=
  { sink with rawMasked := sink.rawMasked && cell.masked }

/-- Where the bytes of structured lines go, with the verdict on their masked bytes and the position
in their JSON text. -/
structure StructuredSink where
  line : LineLimiter
  structuredUnsafe : Bool := false
  cursor : JsonCursor := {}
deriving DecidableEq, Repr

/-- One cell of JSON text: the verdict so far and the position. A masked byte is safe only inside
the body of a string. -/
def unsafeStep (state : Bool × JsonCursor) (cell : Cell) : Bool × JsonCursor :=
  (state.1 || (cell.masked && !state.2.inBody cell.value), state.2.advance cell.value)

/-- A flushed structured line under the verdict on its masked bytes. -/
def structuredEmission (structuredUnsafe : Bool) (line : Line) : Emission :=
  if structuredUnsafe then .unsafeStructured else .structured line

def StructuredSink.write (sink : StructuredSink) (content : Bytes) :
    StructuredSink × List Emission :=
  let written := sink.line.write content false
  ({ sink with line := written.1 }, written.2.map (structuredEmission sink.structuredUnsafe))

/-- The probed bytes of a line that turned out to be structured. -/
def StructuredSink.start (sink : StructuredSink) (probe : List Cell) :
    StructuredSink × List Emission :=
  { sink with structuredUnsafe := probe.any Cell.masked, cursor := {} }.write (probe.map Cell.value)

/-- One byte of a structured line after its configured start. -/
def StructuredSink.take (sink : StructuredSink) (cell : Cell) : StructuredSink × List Emission :=
  let seen := unsafeStep (sink.structuredUnsafe, sink.cursor) cell
  { sink with structuredUnsafe := seen.1, cursor := seen.2 }.write [cell.value]

structure Router where
  linePrefix : Bytes
  raw : RawSink
  structured : StructuredSink
  probe : List Cell := []
  route : Route := .undecided
deriving DecidableEq, Repr

namespace Router

def emitMatchedRaw (router : Router) (cells : List Cell) : Router × List Emission :=
  let emitted := Transducer.run RawSink.emitMatchedRaw router.raw cells
  ({ router with raw := emitted.1 }, emitted.2.map .raw)

/-- One byte of a line start that may still be a structured line. -/
def probeStep (router : Router) (cell : Cell) : Router × List Emission :=
  let probe := router.probe ++ [cell]
  if ¬ (probe.map Cell.value).isPrefixOf router.linePrefix then
    { router with route := .raw, probe := [] }.emitMatchedRaw probe
  else if probe.length = router.linePrefix.length then
    let started := router.structured.start probe
    ({ router with
        route := .structured
        probe := []
        raw := probe.foldl RawSink.pass router.raw
        structured := started.1 }, started.2)
  else ({ router with probe := probe }, [])

def structuredStep (router : Router) (cell : Cell) : Router × List Emission :=
  let taken := router.structured.take cell
  ({ router with raw := router.raw.pass cell, structured := taken.1 }, taken.2)

/-- One byte on a route. -/
def routeStep (router : Router) (cell : Cell) : Route → Router × List Emission
  | .undecided => router.probeStep cell
  | .raw => router.emitMatchedRaw [cell]
  | .structured => router.structuredStep cell

/-- One byte of the stream. A line feed starts the decision over. -/
def routeMatched (router : Router) (cell : Cell) : Router × List Emission :=
  if router.linePrefix.length = 0 then router.emitMatchedRaw [cell]
  else
    let routed := router.routeStep cell router.route
    if cell.value = 0x0A then ({ routed.1 with route := .undecided }, routed.2) else routed

/-- At the end of the stream probed bytes are raw and unfinished lines are handed over. -/
def finish (router : Router) : Router × List Emission :=
  let flushed := { router with probe := [] }.emitMatchedRaw router.probe
  let structured := flushed.1.structured.line.finish
  let raw := flushed.1.raw.line.finish
  ({ flushed.1 with
      structured := { flushed.1.structured with line := structured.1 }
      raw := { flushed.1.raw with line := raw.1 } },
    flushed.2 ++ structured.2.map (structuredEmission flushed.1.structured.structuredUnsafe) ++
      raw.2.map .raw)

end Router

end ProvenanceRunner.Evidence
