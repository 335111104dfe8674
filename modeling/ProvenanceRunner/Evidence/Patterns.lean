import Mathlib.Data.List.Sort
import Mathlib.Data.List.Dedup
import ProvenanceRunner.Evidence.Ansi
import ProvenanceRunner.Library.Numerals

/-! # Compiled secret patterns

Every secret is searched for in eight spellings: as it is, as the first two stages of the pipeline
would leave it, in four base64 alphabets and in two cases of hexadecimal. The spellings are
compiled to an Aho-Corasick automaton whose edges form one linked list for each node. Node and edge
numbers are indices; the absent edge of the source, -1, is `none`. -/

namespace ProvenanceRunner.Evidence

open Utf8 Numerals

structure MatchNode where
  edge : Option Nat := none
  failure : Nat := 0
  longest : Nat := 0
deriving DecidableEq, Repr

structure MatchEdge where
  value : UInt8
  target : Nat
  next : Option Nat
deriving DecidableEq, Repr

/-- The automaton with the greatest length, the number and the total length of its patterns. -/
structure SecretPatterns where
  nodes : List MatchNode := [⟨none, 0, 0⟩]
  edges : List MatchEdge := []
  maximum : Nat := 0
  count : Nat := 0
  size : Nat := 0
deriving DecidableEq, Repr

namespace SecretPatterns

def node (patterns : SecretPatterns) (state : Nat) : MatchNode :=
  patterns.nodes.getD state ⟨none, 0, 0⟩

/-- The edges of one linked list, from a cursor on. Later edges point to earlier ones, so the
number of edges bounds the walk. -/
def edgesFrom (edges : List MatchEdge) : Nat → Option Nat → List MatchEdge
  | 0, _ => []
  | _ + 1, none => []
  | fuel + 1, some index =>
    match edges[index]? with
    | none => []
    | some edge => edge :: edgesFrom edges fuel edge.next

def edgesOf (patterns : SecretPatterns) (state : Nat) : List MatchEdge :=
  edgesFrom patterns.edges patterns.edges.length (patterns.node state).edge

/-- The target of the first edge with the value, and the root where there is none. -/
def transition (patterns : SecretPatterns) (state : Nat) (value : UInt8) : Nat :=
  match (patterns.edgesOf state).find? (fun edge => edge.value == value) with
  | none => 0
  | some edge => edge.target

/-- Give a node a new child. -/
def extend (patterns : SecretPatterns) (state : Nat) (value : UInt8) : SecretPatterns :=
  let edge : MatchEdge := ⟨value, patterns.nodes.length, (patterns.node state).edge⟩
  { patterns with
    nodes := (patterns.nodes ++ [({} : MatchNode)]).modify state
      (fun node => { node with edge := some patterns.edges.length })
    edges := patterns.edges ++ [edge] }

/-- Walk a key from a node, adding the nodes that are missing; also the node reached. -/
def insertFrom (patterns : SecretPatterns) (state : Nat) : Bytes → SecretPatterns × Nat
  | [] => (patterns, state)
  | value :: rest =>
    if patterns.transition state value = 0 then
      insertFrom (patterns.extend state value) patterns.nodes.length rest
    else insertFrom patterns (patterns.transition state value) rest

def insertKey (patterns : SecretPatterns) (key : Bytes) : SecretPatterns :=
  let inserted := patterns.insertFrom 0 key
  { inserted.1 with
    nodes := inserted.1.nodes.modify inserted.2 (fun node => { node with longest := key.length }) }

/-- Follow failure links until the value can be read or the root is reached. -/
def fallBack (patterns : SecretPatterns) (value : UInt8) : Nat → Nat → Nat
  | 0, state => state
  | fuel + 1, state =>
    if state ≠ 0 ∧ patterns.transition state value = 0 then
      fallBack patterns value fuel (patterns.node state).failure
    else state

/-- Read one byte. A failure link leads to a shorter word, so the number of nodes bounds the
number of links followed. -/
def advance (patterns : SecretPatterns) (state : Nat) (value : UInt8) : Nat :=
  patterns.transition (patterns.fallBack value patterns.nodes.length state) value

/-- Set the failure link of the child an edge leads to. -/
def link (state : Nat) (patterns : SecretPatterns) (edge : MatchEdge) : SecretPatterns :=
  let failure := patterns.advance (patterns.node state).failure edge.value
  { patterns with
    nodes := patterns.nodes.modify edge.target (fun node =>
      { node with
        failure := failure
        longest := max node.longest (patterns.node failure).longest }) }

/-- Breadth first over the nodes still in the queue. Every node enters the queue once. -/
def linkAll : Nat → SecretPatterns → List Nat → SecretPatterns
  | 0, patterns, _ => patterns
  | _ + 1, patterns, [] => patterns
  | fuel + 1, patterns, state :: queue =>
    let edges := patterns.edgesOf state
    linkAll fuel (edges.foldl (link state) patterns) (queue ++ edges.map MatchEdge.target)

/-- The automaton of a list of keys. -/
def ofKeys (keys : List Bytes) : SecretPatterns :=
  let trie := keys.foldl insertKey
    { count := keys.length
      size := (keys.map List.length).sum
      maximum := (keys.map List.length).foldl max 0 }
  linkAll trie.nodes.length trie ((trie.edgesOf 0).map MatchEdge.target)

end SecretPatterns

/-- One character of a base64 alphabet whose last two characters are given. -/
def base64Character (last : UInt8 × UInt8) (index : UInt8) : UInt8 :=
  if index < 26 then 0x41 + index
  else if index < 52 then 0x61 + (index - 26)
  else if index < 62 then 0x30 + (index - 52)
  else if index = 62 then last.1
  else last.2

/-- Base64 in groups of three bytes. -/
def base64 (last : UInt8 × UInt8) (padding : Bytes) : Bytes → Bytes
  | [] => []
  | [a] =>
    [base64Character last (a >>> 2), base64Character last ((a &&& 0x03) <<< 4)] ++
      padding ++ padding
  | [a, b] =>
    [base64Character last (a >>> 2), base64Character last ((a &&& 0x03) <<< 4 ||| b >>> 4),
      base64Character last ((b &&& 0x0F) <<< 2)] ++ padding
  | a :: b :: c :: rest =>
    [base64Character last (a >>> 2), base64Character last ((a &&& 0x03) <<< 4 ||| b >>> 4),
      base64Character last ((b &&& 0x0F) <<< 2 ||| c >>> 6), base64Character last (c &&& 0x3F)] ++
      base64 last padding rest

def base64Standard : UInt8 × UInt8 := (0x2B, 0x2F)

def base64Url : UInt8 × UInt8 := (0x2D, 0x5F)

/-- The padding character `=`. -/
def base64Padding : Bytes := [0x3D]

/-- A text as the normaliser and the stripper leave it when it is all of a stream. -/
def cleanText (text : Bytes) : Bytes :=
  let written := Utf8Normalizer.write {} text
  let finished := written.1.finish
  (AnsiStripper.write {} (written.2 ++ finished.2)).2

def secretVariants (secret : Bytes) : List Bytes :=
  [secret, cleanText secret,
    base64 base64Standard base64Padding secret, base64 base64Standard [] secret,
    base64 base64Url base64Padding secret, base64 base64Url [] secret,
    hexadecimal 0x61 secret, hexadecimal 0x41 secret]

/-- The patterns of a list of secrets, each once and in byte order. -/
def secretKeys (secrets : List Bytes) : List Bytes :=
  ((secrets.dedup.flatMap secretVariants).filter (fun variant => !variant.isEmpty)).dedup
    |>.insertionSort (fun left right => left ≤ right)

def maximumPatterns : Nat := 512

def maximumPatternBytes : Nat := 768 * 2 ^ 10

def maximumHoldback : Nat := 128 * 2 ^ 10

def compileSecrets (secrets : List Bytes) : Except String SecretPatterns :=
  let keys := secretKeys secrets
  if keys.length > maximumPatterns ∨ (keys.map List.length).sum > maximumPatternBytes ∨
      (keys.map List.length).foldl max 0 > maximumHoldback then
    .error "redaction expansion exceeds supported limits"
  else .ok (SecretPatterns.ofKeys keys)

end ProvenanceRunner.Evidence
