import Mathlib.Data.List.Sort
import ProvenanceRunner.Library.Numerals

/-! # JSON text

A reader and a writer of JSON as the host language's library has them. The reader accepts the
grammar with at most ten thousand open containers; it does not ask for valid UTF-8 inside strings
but replaces what is malformed there, as it replaces unpaired surrogates. Numbers stay literals.
Members of an object are kept in the order of the text, with repeated keys.

The writer sorts members by key and escapes the characters that are special in HTML. -/

namespace ProvenanceRunner.Json

open Utf8 Numerals

/-- A JSON value; strings and keys are the bytes of the decoded text. -/
inductive Value where
  | null
  | bool (value : Bool)
  | number (literal : Bytes)
  | string (text : Bytes)
  | array (elements : List Value)
  | object (members : List (Bytes × Value))
deriving Repr

/-- The greatest number of containers open at once. -/
def maximumDepth : Nat := 10000

def isSpace (byte : UInt8) : Bool :=
  byte == 0x20 || byte == 0x09 || byte == 0x0D || byte == 0x0A

def skipSpace (data : Bytes) : Bytes := data.dropWhile isSpace

/-- The code unit of four hexadecimal digits. -/
def codeUnit : Bytes → Option (Nat × Bytes)
  | a :: b :: c :: d :: rest =>
    match hexValue a, hexValue b, hexValue c, hexValue d with
    | some a, some b, some c, some d => some (a * 4096 + b * 256 + c * 16 + d, rest)
    | _, _, _, _ => none
  | _ => none

/-- The bytes of a code point below U+110000. -/
def encodeRune (code : Nat) : Bytes :=
  if code < 0x80 then [UInt8.ofNat code]
  else if code < 0x800 then [UInt8.ofNat (0xC0 + code / 64), UInt8.ofNat (0x80 + code % 64)]
  else if code < 0x10000 then
    [UInt8.ofNat (0xE0 + code / 4096), UInt8.ofNat (0x80 + code / 64 % 64),
      UInt8.ofNat (0x80 + code % 64)]
  else
    [UInt8.ofNat (0xF0 + code / 262144), UInt8.ofNat (0x80 + code / 4096 % 64),
      UInt8.ofNat (0x80 + code / 64 % 64), UInt8.ofNat (0x80 + code % 64)]

def replacementRune : Bytes := [0xEF, 0xBF, 0xBD]

/-- The text of a unicode escape and what follows it. A high surrogate takes a following low
surrogate with it; any other surrogate is replaced. -/
def unicodeEscape (unit : Nat) (rest : Bytes) : Bytes × Bytes :=
  if 0xD800 ≤ unit ∧ unit ≤ 0xDFFF then
    match rest with
    | 0x5C :: 0x75 :: digits =>
      match codeUnit digits with
      | some (low, others) =>
        if unit ≤ 0xDBFF ∧ 0xDC00 ≤ low ∧ low ≤ 0xDFFF then
          (encodeRune ((unit - 0xD800) * 1024 + (low - 0xDC00) + 0x10000), others)
        else (replacementRune, rest)
      | none => (replacementRune, rest)
    | _ => (replacementRune, rest)
  else (encodeRune unit, rest)

/-- The character of a one-letter escape. -/
def simpleEscape (byte : UInt8) : Option UInt8 :=
  if byte = 0x22 ∨ byte = 0x5C ∨ byte = 0x2F then some byte
  else if byte = 0x62 then some 0x08
  else if byte = 0x66 then some 0x0C
  else if byte = 0x6E then some 0x0A
  else if byte = 0x72 then some 0x0D
  else if byte = 0x74 then some 0x09
  else none

/-- The rest of a string after its opening quote: the decoded text and what follows the closing
quote. -/
def readString : Nat → Bytes → Option (Bytes × Bytes)
  | 0, _ => none
  | _ + 1, [] => none
  | fuel + 1, byte :: rest =>
    if byte = 0x22 then some ([], rest)
    else if byte = 0x5C then
      match rest with
      | [] => none
      | kind :: others =>
        if kind = 0x75 then
          match codeUnit others with
          | none => none
          | some (unit, after) =>
            let escape := unicodeEscape unit after
            (readString fuel escape.2).map (fun later => (escape.1 ++ later.1, later.2))
        else match simpleEscape kind with
          | none => none
          | some character =>
            (readString fuel others).map (fun later => (character :: later.1, later.2))
    else if byte < 0x20 then none
    else match runeSize (byte :: rest) with
      | none => (readString fuel rest).map (fun later => (replacementRune ++ later.1, later.2))
      | some size =>
        (readString fuel ((byte :: rest).drop size)).map
          (fun later => ((byte :: rest).take size ++ later.1, later.2))

/-- An optional part of a number: a mark, then at least one digit. -/
def readDigits (mark digits : Bytes) : Option (Bytes × Bytes) :=
  let run := digits.takeWhile isDigit
  if run.isEmpty then none else some (mark ++ run, digits.drop run.length)

def readFraction (data : Bytes) : Option (Bytes × Bytes) :=
  match data with
  | 0x2E :: digits => readDigits [0x2E] digits
  | _ => some ([], data)

def readExponent (data : Bytes) : Option (Bytes × Bytes) :=
  match data with
  | mark :: rest =>
    if mark = 0x65 ∨ mark = 0x45 then
      match rest with
      | sign :: digits =>
        if sign = 0x2B ∨ sign = 0x2D then readDigits [mark, sign] digits
        else readDigits [mark] rest
      | [] => none
    else some ([], data)
  | [] => some ([], data)

/-- The literal of a number and what follows it. -/
def readNumber (data : Bytes) : Option (Bytes × Bytes) :=
  let sign : Bytes := if data.head? = some 0x2D then [0x2D] else []
  let unsigned := data.drop sign.length
  let whole : Bytes :=
    if unsigned.head? = some 0x30 then [0x30] else unsigned.takeWhile isDigit
  if whole.isEmpty then none
  else
    (readFraction (unsigned.drop whole.length)).bind fun fraction =>
      (readExponent fraction.2).map fun exponent =>
        (sign ++ whole ++ fraction.1 ++ exponent.1, exponent.2)

/-- Drop a fixed word from the front. -/
def expect (word : Bytes) (data : Bytes) : Option Bytes :=
  if word.isPrefixOf data then some (data.drop word.length) else none

mutual

/-- One value and what follows it. The first bound is the number of calls, the second the number
of containers that may still be opened. -/
def readValue : Nat → Nat → Bytes → Option (Value × Bytes)
  | 0, _, _ => none
  | fuel + 1, depth, data =>
    match data with
    | [] => none
    | byte :: rest =>
      if byte = 0x22 then (readString data.length rest).map (fun read => (.string read.1, read.2))
      else if byte = 0x5B then
        if depth = 0 then none
        else if (skipSpace rest).head? = some 0x5D then some (.array [], (skipSpace rest).tail)
        else (readElements fuel (depth - 1) rest).map (fun read => (.array read.1, read.2))
      else if byte = 0x7B then
        if depth = 0 then none
        else if (skipSpace rest).head? = some 0x7D then some (.object [], (skipSpace rest).tail)
        else (readMembers fuel (depth - 1) rest).map (fun read => (.object read.1, read.2))
      else if byte = 0x74 then (expect (encode "true") data).map (fun rest => (.bool true, rest))
      else if byte = 0x66 then (expect (encode "false") data).map (fun rest => (.bool false, rest))
      else if byte = 0x6E then (expect (encode "null") data).map (fun rest => (.null, rest))
      else (readNumber data).map (fun read => (.number read.1, read.2))

/-- The elements of a nonempty array up to its closing bracket. -/
def readElements : Nat → Nat → Bytes → Option (List Value × Bytes)
  | 0, _, _ => none
  | fuel + 1, depth, data =>
    match readValue fuel depth (skipSpace data) with
    | none => none
    | some (element, after) =>
      match skipSpace after with
      | [] => none
      | byte :: rest =>
        if byte = 0x5D then some ([element], rest)
        else if byte = 0x2C then
          (readElements fuel depth rest).map (fun read => (element :: read.1, read.2))
        else none

/-- The members of a nonempty object up to its closing brace. -/
def readMembers : Nat → Nat → Bytes → Option (List (Bytes × Value) × Bytes)
  | 0, _, _ => none
  | fuel + 1, depth, data =>
    match skipSpace data with
    | [] => none
    | quote :: body =>
      if quote ≠ 0x22 then none
      else match readString (body.length + 1) body with
        | none => none
        | some (key, afterKey) =>
          match skipSpace afterKey with
          | [] => none
          | colon :: valueText =>
            if colon ≠ 0x3A then none
            else match readValue fuel depth (skipSpace valueText) with
              | none => none
              | some (value, after) =>
                match skipSpace after with
                | [] => none
                | byte :: rest =>
                  if byte = 0x7D then some ([(key, value)], rest)
                  else if byte = 0x2C then
                    (readMembers fuel depth rest).map
                      (fun read => ((key, value) :: read.1, read.2))
                  else none

end

/-- A text that is one value between spaces. Every call but the first takes a byte of the text or
hands it to one that does, so twice the length bounds the calls. -/
def parse (data : Bytes) : Option Value :=
  match readValue (2 * data.length + 2) maximumDepth (skipSpace data) with
  | none => none
  | some (value, rest) => if (skipSpace rest).isEmpty then some value else none

/-- The source's check of JSON syntax. -/
def isValid (data : Bytes) : Bool := (parse data).isSome

/-- The escape of an ASCII character that is not written as it is. -/
def escapeCharacter (byte : UInt8) : Bytes :=
  if byte = 0x5C ∨ byte = 0x22 then [0x5C, byte]
  else if byte = 0x08 then encode "\\b"
  else if byte = 0x0C then encode "\\f"
  else if byte = 0x0A then encode "\\n"
  else if byte = 0x0D then encode "\\r"
  else if byte = 0x09 then encode "\\t"
  else encode "\\u00" ++ hexadecimal 0x61 [byte]

/-- The ASCII characters the writer escapes: controls, the quote, the backslash and the characters
special in HTML. -/
def isEscaped (byte : UInt8) : Bool :=
  byte < 0x20 || byte == 0x22 || byte == 0x5C || byte == 0x3C || byte == 0x3E || byte == 0x26

/-- The body of a written string. The line separators U+2028 and U+2029 are escaped too. -/
def writeBody : Nat → Bytes → Bytes
  | 0, _ => []
  | _ + 1, [] => []
  | fuel + 1, byte :: rest =>
    if byte < 0x80 then
      (if isEscaped byte then escapeCharacter byte else [byte]) ++ writeBody fuel rest
    else match runeSize (byte :: rest) with
      | none => encode "\\ufffd" ++ writeBody fuel rest
      | some size =>
        let rune := (byte :: rest).take size
        let written :=
          if rune = [0xE2, 0x80, 0xA8] then encode "\\u2028"
          else if rune = [0xE2, 0x80, 0xA9] then encode "\\u2029"
          else rune
        written ++ writeBody fuel ((byte :: rest).drop size)

def writeString (text : Bytes) : Bytes := [0x22] ++ writeBody text.length text ++ [0x22]

/-- Put a comma between the parts. -/
def commaSeparated (parts : List Bytes) : Bytes := List.intercalate [0x2C] parts

mutual

/-- The text of a value. -/
def write : Value → Bytes
  | .null => encode "null"
  | .bool true => encode "true"
  | .bool false => encode "false"
  | .number literal => literal
  | .string text => writeString text
  | .array elements => [0x5B] ++ commaSeparated (writeElements elements) ++ [0x5D]
  | .object members =>
    let sorted := (writeMembers members).insertionSort (fun left right => left.1 ≤ right.1)
    [0x7B] ++ commaSeparated (sorted.map (fun member => writeString member.1 ++ [0x3A] ++ member.2))
      ++ [0x7D]

def writeElements : List Value → List Bytes
  | [] => []
  | element :: rest => write element :: writeElements rest

/-- The members with their values written, still in their order. -/
def writeMembers : List (Bytes × Value) → List (Bytes × Bytes)
  | [] => []
  | (key, value) :: rest => (key, write value) :: writeMembers rest

end

end ProvenanceRunner.Json
