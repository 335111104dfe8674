import ProvenanceRunner.Evidence.Patterns

/-! # The secret redactor

The third stage reads the stream through the automaton and decides for every byte whether it lies
inside an occurrence of a pattern. A byte is held back in a ring buffer as long as the longest
pattern, so that every occurrence over it has been seen when it leaves. Matched stretches are kept
as a queue of intervals of stream positions. -/

namespace ProvenanceRunner.Evidence

open Utf8

/-- The text put where matched bytes were removed. -/
def redactionMarker : Bytes := encode "[REDACTED]"

/-- A byte of the stream with its masking status. -/
structure Cell where
  value : UInt8
  masked : Bool
deriving DecidableEq, Repr

structure MatchInterval where
  start : Nat
  stop : Nat
deriving DecidableEq, Repr

structure SecretRedactor where
  patterns : SecretPatterns
  pending : Bytes
  intervals : List MatchInterval := []
  state : Nat := 0
  read : Nat := 0
  written : Nat := 0
deriving DecidableEq, Repr

def SecretRedactor.new (patterns : SecretPatterns) : SecretRedactor :=
  { patterns := patterns, pending := List.replicate patterns.maximum 0 }

/-- Merge a new interval with the last ones it touches. The queue is written last first. -/
def mergeInterval (interval : MatchInterval) : List MatchInterval → List MatchInterval
  | [] => [interval]
  | last :: earlier =>
    if last.stop ≥ interval.start then
      mergeInterval ⟨min interval.start last.start, interval.stop⟩ earlier
    else interval :: last :: earlier

/-- Release the oldest byte held back. -/
def SecretRedactor.emitNext (redactor : SecretRedactor) : SecretRedactor × List Cell :=
  let intervals := redactor.intervals.dropWhile (fun interval => interval.stop ≤ redactor.written)
  let masked := match intervals with
    | [] => false
    | interval :: _ => interval.start ≤ redactor.written
  ({ redactor with intervals := intervals, written := redactor.written + 1 },
    [⟨redactor.pending.getD (redactor.written % redactor.pending.length) 0, masked⟩])

/-- Read one byte into the ring and record the longest pattern that ends with it. -/
def SecretRedactor.accept (redactor : SecretRedactor) (value : UInt8) : SecretRedactor :=
  let state := redactor.patterns.advance redactor.state value
  let read := redactor.read + 1
  let length := (redactor.patterns.node state).longest
  { redactor with
    state := state
    pending := redactor.pending.set (redactor.read % redactor.pending.length) value
    read := read
    intervals :=
      if length ≠ 0 then
        (mergeInterval ⟨read - length, read⟩ redactor.intervals.reverse).reverse
      else redactor.intervals }

def SecretRedactor.step (redactor : SecretRedactor) (value : UInt8) :
    SecretRedactor × List Cell :=
  if redactor.pending.length = 0 then (redactor, [⟨value, false⟩])
  else
    let accepted := redactor.accept value
    if accepted.read - accepted.written ≥ accepted.pending.length then accepted.emitNext
    else (accepted, [])

def SecretRedactor.write (redactor : SecretRedactor) (content : Bytes) :
    SecretRedactor × List Cell :=
  Transducer.run SecretRedactor.step redactor content

/-- Release a number of bytes. -/
def SecretRedactor.drain : Nat → SecretRedactor → SecretRedactor × List Cell
  | 0, redactor => (redactor, [])
  | count + 1, redactor =>
    let released := redactor.emitNext
    let later := drain count released.1
    (later.1, released.2 ++ later.2)

/-- At the end of the stream everything held back is released. -/
def SecretRedactor.finish (redactor : SecretRedactor) : SecretRedactor × List Cell :=
  SecretRedactor.drain (redactor.read - redactor.written) redactor

/-- Replace each run of masked bytes by one marker; the state says whether the last byte was
masked. -/
def markRun (masked : Bool) (cell : Cell) : Bool × Bytes :=
  (cell.masked, if cell.masked then (if masked then [] else redactionMarker) else [cell.value])

/-- All cells of a whole text. -/
def redactCells (patterns : SecretPatterns) (text : Bytes) : List Cell :=
  let written := (SecretRedactor.new patterns).write text
  written.2 ++ written.1.finish.2

/-- Without patterns no byte is masked. -/
theorem redactCells_unpatterned (patterns : SecretPatterns) (text : Bytes)
    (unpatterned : patterns.maximum = 0) :
    redactCells patterns text = text.map (fun value => ⟨value, false⟩) := by
  have empty : (SecretRedactor.new patterns).pending.length = 0 := by
    simp [SecretRedactor.new, unpatterned]
  have run : (SecretRedactor.new patterns).write text =
      (SecretRedactor.new patterns, text.map (fun value => ⟨value, false⟩)) := by
    induction text with
    | nil => rfl
    | cons value rest ih =>
      have step : (SecretRedactor.new patterns).step value =
          (SecretRedactor.new patterns, [⟨value, false⟩]) := by
        rw [SecretRedactor.step, if_pos empty]
      rw [SecretRedactor.write] at ih ⊢
      rw [Transducer.run_cons, step, ih]
      rfl
  have nothing : (SecretRedactor.new patterns).finish.2 = [] := rfl
  rw [redactCells, run, nothing, List.append_nil]

end ProvenanceRunner.Evidence
