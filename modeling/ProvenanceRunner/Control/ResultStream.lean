import ProvenanceRunner.Library.Numerals
import Mathlib.Logic.Relation

/-! # The result stream

After the observation of the root, the worker reads the output of the guest from the control channel
as packets and hands it on as a stream of bytes. The stream ends well only with the completion of
the root. Everything else that arrives, and everything that does not arrive in time, makes it fail
for good.

A reception is what one call of `receive` meets on the socket. A run of a reader is a sequence of
calls with their answers. It is compared with the packets that stand in the receptions, which are
read off the wire here without the channel. -/

namespace ProvenanceRunner.Control

open Utf8 Numerals

/-! ## The channel -/

inductive Kind where
  | start | reconcile | release | cancel | result | observation | completion | preparing
  | idleCheck | idleConfirmed | secretDelivery | secretCheck | secretConfirmed | maximumCheck
  | maximumConfirmed
deriving DecidableEq, Repr

/-- The kinds in the order of their numbers, from one on. -/
def kinds : List Kind :=
  [.start, .reconcile, .release, .cancel, .result, .observation, .completion, .preparing,
    .idleCheck, .idleConfirmed, .secretDelivery, .secretCheck, .secretConfirmed, .maximumCheck,
    .maximumConfirmed]

def Kind.ofByte (byte : UInt8) : Option Kind := if byte = 0 then none else kinds[byte.toNat - 1]?

/-- A packet with the number of its files. -/
structure Packet where
  kind : Kind
  sequence : UInt64
  payload : Bytes
  files : Nat
deriving DecidableEq, Repr

def maximumPayload : Nat := 64 * 1024
def maximumFiles : Nat := 16
def headerSize : Nat := 24

/-- A control message beside a packet: too short, without a readable header, of another kind, of a
length that holds no descriptors, unreadable, or descriptors, each with whether it is a regular file
that is open for reading only. -/
inductive Ancillary where
  | short
  | malformed
  | foreign
  | uneven
  | unreadable
  | rights (readonlyRegular : List Bool)
deriving DecidableEq, Repr

/-- What a call of `receive` meets. -/
structure Reception where
  validDeadline : Bool := true
  validPeer : Bool := true
  deadlineSet : Bool := true
  readFails : Bool := false
  data : Bytes
  ancillary : List Ancillary := []
  controlTruncated : Bool := false
deriving DecidableEq, Repr

structure Channel where
  peer : UInt32
  readSequence : UInt64
  closed : Bool
deriving DecidableEq, Repr

/-- Whether all control messages are valid, their number, and the descriptors received. -/
def scan : List Ancillary → Bool × Nat × List Bool
  | [] => (true, 0, [])
  | .short :: _ | .malformed :: _ => (false, 0, [])
  | .uneven :: _ => (false, 1, [])
  | .foreign :: rest | .unreadable :: rest =>
    let (_, count, received) := scan rest
    (false, count + 1, received)
  | .rights files :: rest =>
    let (valid, count, received) := scan rest
    (valid, count + 1, files ++ received)

/-- The packet of a reception, unless it is refused. -/
def receive (channel : Channel) (reception : Reception) : Option Packet :=
  let data := reception.data
  let (ancillaryValid, messageCount, received) := scan reception.ancillary
  let sequence := UInt64.ofNat (readBigEndian ((data.drop 8).take 8))
  if channel.closed || !reception.validDeadline || !reception.validPeer ||
      !reception.deadlineSet then none
  else if reception.readFails || !ancillaryValid || decide (1 < messageCount) ||
      decide (maximumFiles < received.length) ||
      decide (headerSize + maximumPayload < data.length) || reception.controlTruncated ||
      decide (data.length < headerSize) then none
  else match Kind.ofByte (data.getD 5 0) with
    | none => none
    | some kind =>
      if data.take 5 ≠ encode "PVC1" ++ [1] ∨ (data.drop 6).take 2 ≠ [0, 0] ∨
          (data.drop 22).take 2 ≠ [0, 0] ∨ sequence = 0 ∨
          readBigEndian ((data.drop 16).take 4) ≠ data.length - headerSize ∨
          readBigEndian ((data.drop 20).take 2) ≠ received.length then none
      else if !received.all id then none
      else if sequence ≠ channel.readSequence + 1 then none
      else some ⟨kind, sequence, data.drop headerSize, received.length⟩

/-! ## The stream -/

def maximumResultBytes : Nat := 21 * 2 ^ 20
def maximumResultPackets : Nat := 32768

structure RootCompletion where
  exit : UInt8
  infra : Bool
deriving DecidableEq, Repr

structure ResultStream where
  channel : Channel
  pending : Bytes
  bytes : Nat
  packets : Nat
  receipt : Option RootCompletion
  failed : Bool
deriving DecidableEq, Repr

def ResultStream.close (stream : ResultStream) : ResultStream :=
  { stream with channel := { stream.channel with closed := true } }

def ResultStream.fail (stream : ResultStream) : ResultStream :=
  { stream with pending := [], receipt := none, failed := true }.close

def completionOf (payload : Bytes) : Option RootCompletion :=
  match payload with
  | [0x50, 0x56, 0x43, 0x52, 1, exit, infra, 0] =>
    if 1 < infra then none else some ⟨exit, infra == 1⟩
  | _ => none

/-- The stream after a packet, unless it fails on it. -/
def ResultStream.take (stream : ResultStream) (packet : Packet) : Option ResultStream :=
  let channel := { stream.channel with readSequence := packet.sequence }
  let packets := stream.packets + 1
  if packet.files ≠ 0 then none
  else if maximumResultPackets < packets then none
  else match packet.kind with
    | .result =>
      if maximumResultBytes - stream.bytes < packet.payload.length then none
      else some { stream with
        channel := channel
        packets := packets
        bytes := stream.bytes + packet.payload.length
        pending := packet.payload }
    | .completion =>
      match completionOf packet.payload with
      | none => none
      | some completion =>
        some { stream with
          channel := channel, packets := packets, receipt := some completion }.close
    | _ => none

inductive ReadResult where
  | bytes (data : Bytes)
  | eof
  | failed
deriving DecidableEq, Repr

/-- A stream and what is going to arrive. -/
structure Session where
  stream : ResultStream
  arrivals : List Reception
deriving DecidableEq, Repr

/-- Receives until bytes are pending, or ends the call. When nothing arrives the deadline passes. -/
def fill (arrivals : List Reception) (stream : ResultStream) : Option ReadResult × Session :=
  if stream.pending ≠ [] then (none, ⟨stream, arrivals⟩)
  else if stream.receipt.isSome then (some .eof, ⟨stream, arrivals⟩)
  else match arrivals with
    | [] => (some .failed, ⟨stream.fail, []⟩)
    | reception :: rest =>
      match (receive stream.channel reception).bind stream.take with
      | none => (some .failed, ⟨stream.fail, rest⟩)
      | some next => fill rest next

/-- A call of `Read` with a buffer of the given size. -/
def Session.read (cancelled : Bool) (size : Nat) (session : Session) : ReadResult × Session :=
  if session.stream.failed then (.failed, session)
  else if cancelled then (.failed, { session with stream := session.stream.fail })
  else if size = 0 then (.bytes [], session)
  else match fill session.arrivals session.stream with
    | (some result, filled) => (result, filled)
    | (none, filled) =>
      (.bytes (filled.stream.pending.take size), { filled with
        stream := { filled.stream with pending := filled.stream.pending.drop size } })

def Session.receipt (cancelled : Bool) (session : Session) : Option RootCompletion :=
  if session.stream.failed || cancelled then none else session.stream.receipt

def Session.close (session : Session) : Session := { session with stream := session.stream.close }

/-- A run of a reader, with the answers of its calls. The stream may be closed from elsewhere at any
time. -/
inductive Runs (begun : Session) : List ReadResult → Session → Prop where
  | begin : Runs begun [] begun
  | read {results : List ReadResult} {session : Session} (past : Runs begun results session)
    (cancelled : Bool) (size : Nat) :
    Runs begun (results ++ [(session.read cancelled size).1]) (session.read cancelled size).2
  | close {results : List ReadResult} {session : Session} (past : Runs begun results session) :
    Runs begun results session.close

/-! ## What stands on the wire -/

def ReadResult.data : ReadResult → Bytes
  | .bytes data => data
  | .eof | .failed => []

/-- The bytes that the calls have returned. -/
def returned (results : List ReadResult) : Bytes := results.flatMap ReadResult.data

/-- The payloads of the results among packets, in their order. -/
def payloads (packets : List Packet) : Bytes :=
  packets.flatMap fun packet => if packet.kind = .result then packet.payload else []

def Ancillary.files : Ancillary → List Bool
  | .rights files => files
  | _ => []

/-- The packet that stands in a reception, with all the descriptors beside it. -/
structure Arrives (reception : Reception) (packet : Packet) : Prop where
  kind : Kind.ofByte (reception.data.getD 5 0) = some packet.kind
  payload : packet.payload = reception.data.drop headerSize
  files : packet.files = (reception.ancillary.flatMap Ancillary.files).length

/-- The packets of receptions, numbered without a gap from the one after `start`. -/
inductive Heard (start : UInt64) : List Reception → List Packet → UInt64 → Prop where
  | silence : Heard start [] [] start
  | next {met : List Reception} {packets : List Packet} {last : UInt64} {reception : Reception}
    {packet : Packet} (past : Heard start met packets last) (arrives : Arrives reception packet)
    (numbered : packet.sequence = last + 1) :
    Heard start (met ++ [reception]) (packets ++ [packet]) packet.sequence

/-- Only results without files, within both limits. -/
structure Flowing (packets : List Packet) : Prop where
  results : ∀ packet ∈ packets, packet.kind = .result ∧ packet.files = 0
  bytes : (payloads packets).length ≤ maximumResultBytes
  packets : packets.length ≤ maximumResultPackets

/-- The receptions are results and then a well-formed completion without files, within both limits,
and the bytes sent on are all those of the results. -/
def Completed (start : UInt64) (met : List Reception) (sent : Bytes)
    (completion : RootCompletion) : Prop :=
  ∃ before last final, Heard start met (before ++ [last]) final ∧ Flowing before ∧
    last.kind = .completion ∧ last.files = 0 ∧ completionOf last.payload = some completion ∧
    before.length < maximumResultPackets ∧ sent = payloads before

theorem payloads_concat (packets : List Packet) (packet : Packet) :
    payloads (packets ++ [packet]) =
      payloads packets ++ if packet.kind = .result then packet.payload else [] := by
  simp [payloads]

/-- A session flows, is completed, or has failed; `met` are the receptions taken from the arrivals,
and `sent` are the bytes returned. -/
inductive Standing (start : UInt64) (arrivals : List Reception) (sent : Bytes)
    (session : Session) : Prop where
  | flowing (met : List Reception) (packets : List Packet)
    (parted : arrivals = met ++ session.arrivals)
    (heard : Heard start met packets session.stream.channel.readSequence)
    (going : session.stream.failed = false) (unfinished : session.stream.receipt = none)
    (flows : Flowing packets) (bytes : session.stream.bytes = (payloads packets).length)
    (count : session.stream.packets = packets.length)
    (whole : sent ++ session.stream.pending = payloads packets)
  | completed (met : List Reception) (completion : RootCompletion)
    (parted : arrivals = met ++ session.arrivals) (going : session.stream.failed = false)
    (finished : session.stream.receipt = some completion) (empty : session.stream.pending = [])
    (done : Completed start met sent completion)
  | failed (failed : session.stream.failed = true)
    (initial : ∃ met packets last, met <+: arrivals ∧ Heard start met packets last ∧
      sent <+: payloads packets)

section

variable {start : UInt64} {arrivals : List Reception} {sent : Bytes} {session : Session}

/-- In every standing the bytes returned are an initial part of the results that have arrived. -/
theorem Standing.initial (standing : Standing start arrivals sent session) :
    ∃ met packets last, met <+: arrivals ∧ Heard start met packets last ∧
      sent <+: payloads packets := by
  cases standing with
  | flowing met packets parted heard _ _ _ _ _ whole =>
    exact ⟨met, packets, _, ⟨_, parted.symm⟩, heard, _, whole⟩
  | completed met completion parted _ _ _ done =>
    obtain ⟨before, last, final, heard, _, _, _, _, _, whole⟩ := done
    refine ⟨met, _, final, ⟨_, parted.symm⟩, heard, ?_⟩
    rw [payloads_concat, whole]
    exact List.prefix_append _ _
  | failed _ initial => exact initial

theorem Standing.done (standing : Standing start arrivals sent session)
    (going : session.stream.failed = false) {completion : RootCompletion}
    (receipt : session.stream.receipt = some completion) :
    ∃ met, arrivals = met ++ session.arrivals ∧ Completed start met sent completion := by
  cases standing with
  | flowing _ _ _ _ _ unfinished => simp [unfinished] at receipt
  | completed met other parted _ finished _ done =>
    obtain rfl := Option.some.inj (finished.symm.trans receipt)
    exact ⟨met, parted, done⟩
  | failed failed => simp [going] at failed

/-- What a call answers: the end of the stream only when the session is completed, and a failure
only when it has failed. -/
structure Answered (start : UInt64) (arrivals : List Reception) (sent : Bytes)
    (answer : ReadResult × Session) : Prop where
  standing : Standing start arrivals (sent ++ answer.1.data) answer.2
  eof : answer.1 = .eof → answer.2.stream.failed = false ∧ answer.2.stream.receipt.isSome = true
  failed : answer.1 = .failed → answer.2.stream.failed = true

end

end ProvenanceRunner.Control
