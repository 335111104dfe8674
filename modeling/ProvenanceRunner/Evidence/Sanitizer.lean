import ProvenanceRunner.Library.Json
import ProvenanceRunner.Evidence.Processor

/-! # Structured events and their sanitiser

A structured event is a kind and a JSON payload. Before it is recorded every string of the payload
is redacted. Keys, numbers and the JSON syntax carry meaning, so a secret there refuses the whole
event instead of changing it. -/

namespace ProvenanceRunner.Evidence

open Utf8

structure EventInput where
  kind : Bytes
  payload : Bytes
deriving DecidableEq, Repr

structure StructuredEvent where
  sequence : Nat
  kind : Bytes
  payload : Bytes
deriving DecidableEq, Repr

def validateEvent (input : EventInput) (maximumBytes : Nat) : Except String Unit :=
  if input.kind.isEmpty then .error "record structured event: kind is empty"
  else if input.kind.length > 128 then .error "record structured event: kind exceeds 128 bytes"
  else if ¬ valid input.kind then .error "record structured event: kind must be valid UTF-8"
  else if ¬ Json.isValid input.payload then
    .error "record structured event: payload is not valid JSON"
  else if input.payload.length > maximumBytes then
    .error ("record structured event: payload exceeds " ++ toString maximumBytes ++ " bytes")
  else .ok ()

/-- A text after all three stages, and whether it changed. -/
def sanitizeString (value : Bytes) (patterns : SecretPatterns) : Bytes × Bool :=
  let cells := redactCells patterns (cleanText value)
  let output := (Transducer.run markRun false cells).2
  (output, cells.any Cell.masked || output != value)

/-- The containers an event may nest. -/
def maximumEventDepth : Nat := 128

mutual

/-- No object of the value repeats a key, and the nesting stays within the limit. -/
def uniqueJsonKeys (depth : Nat) : Json.Value → Bool
  | .array elements => depth ≤ maximumEventDepth && uniqueElements (depth + 1) elements
  | .object members =>
    depth ≤ maximumEventDepth && (members.map Prod.fst).Nodup && uniqueMembers (depth + 1) members
  | _ => depth ≤ maximumEventDepth

def uniqueElements (depth : Nat) : List Json.Value → Bool
  | [] => true
  | element :: rest => uniqueJsonKeys depth element && uniqueElements depth rest

def uniqueMembers (depth : Nat) : List (Bytes × Json.Value) → Bool
  | [] => true
  | (_, value) :: rest => uniqueJsonKeys depth value && uniqueMembers depth rest

end

mutual

/-- Redact the strings of a value; `none` where a number or a key would change. -/
def visit (patterns : SecretPatterns) (depth : Nat) : Json.Value → Option Json.Value
  | .null => if depth > maximumEventDepth then none else some .null
  | .bool value => if depth > maximumEventDepth then none else some (.bool value)
  | .number literal =>
    if depth > maximumEventDepth ∨ (sanitizeString literal patterns).2 then none
    else some (.number literal)
  | .string text =>
    if depth > maximumEventDepth then none else some (.string (sanitizeString text patterns).1)
  | .array elements =>
    if depth > maximumEventDepth then none
    else (visitElements patterns (depth + 1) elements).map .array
  | .object members =>
    if depth > maximumEventDepth then none
    else (visitMembers patterns (depth + 1) members).map .object

def visitElements (patterns : SecretPatterns) (depth : Nat) :
    List Json.Value → Option (List Json.Value)
  | [] => some []
  | element :: rest =>
    match visit patterns depth element, visitElements patterns depth rest with
    | some element, some rest => some (element :: rest)
    | _, _ => none

def visitMembers (patterns : SecretPatterns) (depth : Nat) :
    List (Bytes × Json.Value) → Option (List (Bytes × Json.Value))
  | [] => some []
  | (key, value) :: rest =>
    if (sanitizeString key patterns).2 then none
    else match visit patterns depth value, visitMembers patterns depth rest with
      | some value, some rest => some ((key, value) :: rest)
      | _, _ => none

end

/-- Whether a pattern touches the payload outside the bodies of its strings. -/
def unsafeSerializedJson (payload : Bytes) (patterns : SecretPatterns) : Bool :=
  ((redactCells patterns payload).foldl unsafeStep (false, {})).1

/-- The event with its strings redacted, and `none` where that is not safe. -/
def sanitizeEvent (input : EventInput) (patterns : SecretPatterns) (maximum : Nat) :
    Option EventInput :=
  if patterns.count = 0 then some input
  else if (sanitizeString input.kind patterns).2 then none
  else match Json.parse input.payload with
    | none => none
    | some value =>
      if ¬ uniqueJsonKeys 0 value then none
      else match visit patterns 0 value with
        | none => none
        | some clean =>
          let payload := Json.write clean
          if payload.length > maximum ∨ unsafeSerializedJson input.payload patterns ∨
              unsafeSerializedJson payload patterns then none
          else some { input with payload := payload }

end ProvenanceRunner.Evidence
