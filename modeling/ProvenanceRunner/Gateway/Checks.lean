import Mathlib.Data.List.TakeDrop
import ProvenanceRunner.Gateway.Messages
import ProvenanceRunner.Library.Numerals

/-! # Checks of identifiers, timestamps and reconciliations

Every check answers nothing when the value is accepted and the text of the error otherwise. A check
that looks at several things in order is a list of alternatives joined by `<|>`; it accepts when
all of them do (`orElse_eq_none`). -/

namespace ProvenanceRunner.Gateway

open Utf8 Numerals

def maximumMessageBytes : Nat := 64 * 1024
def maximumIdentifierBytes : Nat := 128
def maximumReasonBytes : Nat := 1024
def maximumAttemptNumber : Nat := 1000000
def maximumClockSkew : Int := 10 * minute

/-- The error of a failed check. -/
def refuse (bad : Bool) (text : String) : Option String := if bad then some text else none

@[simp] theorem refuse_eq_none (bad : Bool) (text : String) :
    refuse bad text = none ↔ bad = false := by
  cases bad <;> simp [refuse]

@[simp] theorem orElse_eq_none {α : Type} (first second : Option α) :
    (first <|> second) = none ↔ first = none ∧ second = none := by
  cases first <;> simp

/-! ## Identifiers -/

def asciiAlphanumeric (byte : UInt8) : Bool := isUpper byte || isLower byte || isDigit byte

def isHex (byte : UInt8) : Bool := isLowerHex byte || (0x41 ≤ byte && byte ≤ 0x46)

/-- The lower case of a text whose letters are ASCII. -/
def toLower (value : Bytes) : Bytes :=
  value.map fun byte => if isUpper byte then byte + 0x20 else byte

/-- The places of the four hyphens of a UUID. -/
def uuidHyphens : List Nat := [8, 13, 18, 23]

def isUUID (value : Bytes) : Bool :=
  value.length == 36 &&
    value.zipIdx.all fun (byte, place) =>
      if uuidHyphens.contains place then byte == 0x2D else isHex byte

def validateUUID (field : String) (value : Bytes) : Option String :=
  refuse (!isUUID value) (field ++ " must be a UUID")

/-- A UUID in lower case. -/
def isCanonicalUUID (value : Bytes) : Bool := isUUID value && value == toLower value

/-- Letters and digits, then also `.`, `_`, `:`, `/` and `-`. -/
def matchesIdentifier : Bytes → Bool
  | [] => false
  | first :: rest => asciiAlphanumeric first &&
      rest.all fun byte => asciiAlphanumeric byte || (encode "._:/-").contains byte

def validateIdentifier (field : String) (value : Bytes) (maximum : Nat) : Option String :=
  refuse value.isEmpty (field ++ " is required") <|>
  refuse (decide (maximum < value.length)) (field ++ " is too long") <|>
  refuse (!matchesIdentifier value) (field ++ " contains unsupported characters")

/-- Names that the server reserves. -/
def reservedPluginNames : List Bytes :=
  [encode "bukkit", encode "minecraft", encode "mojang", encode "spigot", encode "paper"]

def validPaper : Bytes → Bool
  | [] => false
  | first :: rest =>
    decide (rest.length < 64) && asciiAlphanumeric first &&
      (rest.all fun byte => asciiAlphanumeric byte || (encode "_.-").contains byte) &&
      !reservedPluginNames.contains (toLower (first :: rest))

/-! ## Times -/

def validateTimestamp (field : String) (value : Option Timestamp) : Option String :=
  match value with
  | none => some (field ++ " is required")
  | some value => refuse (!value.checkValid) (field ++ " is invalid")

/-- The instant of an optional timestamp; a missing one reads as the start of the Unix era. -/
def asTime (value : Option Timestamp) : Int := (value.getD ⟨0, 0⟩).asTime

def validateTimestampNear (field : String) (value : Option Timestamp) (now : Int) :
    Option String :=
  validateTimestamp field value <|>
  refuse (decide (asTime value - now < -maximumClockSkew ∨ maximumClockSkew < asTime value - now))
    (field ++ " must be near local time")

/-! ## Message identities

A message of the journal is numbered: its identifier is the digest of the instance and, after the
last hyphen, the sequence number in sixteen hexadecimal digits. -/

/-- The last `width` hexadecimal digits of a number. -/
def hexDigits : Nat → Nat → Bytes
  | 0, _ => []
  | width + 1, value => hexDigits width (value / 16) ++ [digitByte (value % 16)]

def parseHex (digits : Bytes) : Option Nat :=
  digits.foldlM (fun total byte => (hexValue byte).map (total * 16 + ·)) 0

/-- What stands after the last hyphen, if there is a hyphen. -/
def afterHyphen (value : Bytes) : Option Bytes :=
  if value.contains 0x2D then some (value.reverse.takeWhile (· != 0x2D)).reverse else none

/-- The sequence number that a message identifier ends in. -/
def sequenceSuffix (messageId : Bytes) : Option Nat :=
  match afterHyphen messageId with
  | some digits => if digits.length = 16 then parseHex digits else none
  | none => none

def numberedId (instanceDigest : Bytes) (sequence : UInt64) : Bytes :=
  hexadecimal 0x61 (instanceDigest.take 12) ++ 0x2D :: hexDigits 16 sequence.toNat

@[simp] theorem hexDigits_length (width value : Nat) : (hexDigits width value).length = width := by
  induction width generalizing value with
  | zero => rfl
  | succ width induction => simp [hexDigits, induction]

theorem digitByte_facts :
    ∀ nibble < 16, digitByte nibble ≠ 0x2D ∧ hexValue (digitByte nibble) = some nibble := by
  decide

theorem hyphen_not_mem_hexDigits (width value : Nat) : (0x2D : UInt8) ∉ hexDigits width value := by
  induction width generalizing value with
  | zero => simp [hexDigits]
  | succ width induction =>
    have small : value % 16 < 16 := Nat.mod_lt _ (by decide)
    simp only [hexDigits, List.mem_append, List.mem_singleton, not_or]
    exact ⟨induction _, fun same => (digitByte_facts _ small).1 same.symm⟩

theorem parseHex_hexDigits (width value : Nat) :
    parseHex (hexDigits width value) = some (value % 16 ^ width) := by
  induction width generalizing value with
  | zero => simp [hexDigits, parseHex, Nat.mod_one]
  | succ width induction =>
    have small : value % 16 < 16 := Nat.mod_lt _ (by decide)
    have head := induction (value / 16)
    unfold parseHex at head ⊢
    simp only [hexDigits, List.foldlM_append, List.foldlM_cons, List.foldlM_nil, head,
      (digitByte_facts _ small).2, Option.map_some, Option.pure_def, Option.bind_eq_bind,
      Option.bind_some]
    rw [Nat.pow_succ', Nat.mod_mul, Nat.mul_comm 16, Nat.add_comm]

/-- What stands after the last hyphen is the part without hyphens. -/
theorem afterHyphen_append (before digits : Bytes) (clean : (0x2D : UInt8) ∉ digits) :
    afterHyphen (before ++ 0x2D :: digits) = some digits := by
  have all : ∀ byte ∈ digits.reverse, (byte != 0x2D) = true := by
    intro byte member
    refine bne_iff_ne.2 fun same => clean ?_
    exact same ▸ List.mem_reverse.1 member
  have contained : (before ++ 0x2D :: digits).contains 0x2D = true := by simp
  simp only [afterHyphen, contained, if_true, List.reverse_append, List.reverse_cons,
    List.append_assoc, List.takeWhile_append_of_pos all]
  simp

/-- The sequence number of a numbered message can be read off its identifier. -/
theorem sequenceSuffix_numberedId (instanceDigest : Bytes) (sequence : UInt64) :
    sequenceSuffix (numberedId instanceDigest sequence) = some sequence.toNat := by
  have bounded : sequence.toNat % 16 ^ 16 = sequence.toNat :=
    Nat.mod_eq_of_lt (by simpa using sequence.toNat_lt)
  simp only [sequenceSuffix, numberedId,
    afterHyphen_append _ _ (hyphen_not_mem_hexDigits 16 sequence.toNat), hexDigits_length,
    if_true, parseHex_hexDigits, bounded]

/-! ## Job correlation -/

def zeroUUID : Bytes := encode "00000000-0000-0000-0000-000000000000"

def validCanonicalNonzeroUUID (value : Bytes) : Bool := value != zeroUUID && isCanonicalUUID value

def allZeroHex (value : Bytes) : Bool := value.all (· == 0x30)

/-- The bytes of a text from one place up to another. -/
def slice (value : Bytes) (low high : Nat) : Bytes := (value.take high).drop low

def validTraceparent (value : Bytes) : Bool :=
  value.length == 55 && slice value 0 3 == encode "00-" && slice value 35 36 == encode "-" &&
    slice value 52 53 == encode "-" &&
    (slice value 3 35).all isLowerHex && (slice value 36 52).all isLowerHex &&
    (slice value 53 55).all isLowerHex &&
    !allZeroHex (slice value 3 35) && !allZeroHex (slice value 36 52) &&
    (slice value 53 55 == encode "00" || slice value 53 55 == encode "01")

def jobCorrelationWorkflowBytes : Nat := 44
def jobCorrelationWorkflowLead : Bytes := encode "release/"

/-- The candidate that a workflow identifier names; empty when it has another form. -/
def workflowCandidate (workflowId : Bytes) : Bytes :=
  if workflowId.length = jobCorrelationWorkflowBytes ∧
      workflowId.take jobCorrelationWorkflowLead.length = jobCorrelationWorkflowLead then
    workflowId.drop jobCorrelationWorkflowLead.length
  else []

inductive ExpectedScope where
  | unspecified
  | platform
  | organization (id : Bytes)
deriving DecidableEq, Repr

structure OfferRejection where
  reason : RejectionReason
  code : String
  message : String
deriving DecidableEq, Repr

def rejectUnsupported (code message : String) : OfferRejection := ⟨.unsupported, code, message⟩
def rejectPolicy (code message : String) : OfferRejection := ⟨.policy, code, message⟩

def releaseCandidate (job : JobSpecification) : Bytes :=
  (job.attempt.map (·.releaseCandidateId)).getD []

def validateOfferJobCorrelation (job : JobSpecification) (expected : ExpectedScope)
    (negotiated : Bool) : Option OfferRejection :=
  match negotiated, job.jobCorrelation with
  | false, some _ =>
    some (rejectUnsupported "unexpected_job_correlation" "job correlation was not negotiated")
  | false, none => none
  | true, none =>
    some (rejectUnsupported "missing_job_correlation" "negotiated job correlation is required")
  | true, some correlation =>
    let candidate := workflowCandidate correlation.workflowId
    if !correlation.unknownFields.isEmpty || !validTraceparent correlation.traceparent ||
        !validCanonicalNonzeroUUID correlation.organizationId ||
        !validCanonicalNonzeroUUID correlation.projectId ||
        !validCanonicalNonzeroUUID candidate || candidate != releaseCandidate job then
      some (rejectUnsupported "invalid_job_correlation"
        "job correlation is malformed or conflicts with attempt identity")
    else match expected with
      | .organization id =>
        if correlation.organizationId ≠ id then
          some (rejectPolicy "job_correlation_scope_mismatch"
            "job correlation organization conflicts with runner scope")
        else none
      | _ => none

/-! ## Reconciliations -/

/-- The six identifiers of a lease and an attempt are UUIDs. -/
def identifiersValid (lease : LeaseIdentity) (attempt : AttemptIdentity) : Bool :=
  isUUID lease.leaseId && isUUID lease.jobId && isUUID lease.executionId &&
    isUUID attempt.attemptId && isUUID attempt.releaseCandidateId && isUUID attempt.matrixEntryId

def attemptNumberValid (attempt : AttemptIdentity) : Bool :=
  attempt.attemptNumber != 0 && decide (attempt.attemptNumber ≤ maximumAttemptNumber)

def knownDisposition (disposition : Disposition) : Bool :=
  match disposition with
  | .applied | .alreadyApplied | .stale => true
  | _ => false

def knownStatus (status : LeaseStatus) : Bool :=
  match status with
  | .unspecified | .other _ => false
  | _ => true

def knownPhase (phase : JobPhase) : Bool :=
  match phase with
  | .other _ => false
  | _ => true

def validateReconciliation (reconciliation : Option LeaseReconciliation) : Option String :=
  match reconciliation with
  | none => some "reconciliation identity is required"
  | some value =>
    match value.lease, value.attempt with
    | some lease, some attempt =>
      refuse (!knownDisposition value.disposition) "reconciliation disposition is invalid" <|>
      refuse (!knownStatus value.status) "reconciliation lease status is invalid" <|>
      refuse (!knownPhase value.phase) "reconciliation job phase is invalid" <|>
      refuse (validateTimestamp "reconciliation.lease.expiresAt" lease.expiresAt).isSome
        "reconciliation lease status or expiry is invalid" <|>
      refuse (!identifiersValid lease attempt) "reconciliation identifiers must be UUIDs" <|>
      refuse (!attemptNumberValid attempt) "reconciliation attempt number is invalid" <|>
      refuse ((!value.terminalMessageId.isEmpty && (validateIdentifier "terminalMessageId"
          value.terminalMessageId maximumIdentifierBytes).isSome) ||
        (!value.cancellationId.isEmpty && (validateIdentifier "cancellationId"
          value.cancellationId maximumIdentifierBytes).isSome))
        "reconciliation identifier is invalid" <|>
      refuse (!value.cancellationId.isEmpty && value.phase != .cancelling)
        "cancellation reconciliation must be in the cancelling phase" <|>
      refuse (value.phase == .cancelling && value.cancellationId.isEmpty &&
          !terminalLeaseStatus value.status)
        "nonterminal cancelling reconciliation requires a cancellation ID" <|>
      refuse (value.completeLogUpload.isSome && (value.status != .active ||
          value.phase == .cancelling || !value.cancellationId.isEmpty ||
          !value.terminalMessageId.isEmpty))
        "complete log upload requires a non-cancelling active reconciliation"
    | _, _ => some "reconciliation identity is required"

/-- The events whose acknowledgement must carry one status and one phase. -/
def validatePendingReconciliation (pending : RunnerMessage) (reconciliation : LeaseReconciliation)
    (activePhase : Option JobPhase) : Option String :=
  if reconciliation.disposition = .stale ∨ terminalLeaseStatus reconciliation.status then none
  else
    let status := reconciliation.status
    let phase := reconciliation.phase
    match pending.payload with
    | some (.leaseAccepted _) =>
      refuse (status != .accepted || phase != .accepted)
        "lease acceptance requires authoritative accepted status and phase"
    | some (.leaseRejected _) =>
      some "lease rejection acknowledgement must be stale or terminal"
    | some (.jobPreparing _) =>
      refuse (status != .active || phase != .preparing)
        "job preparing requires authoritative active/preparing state"
    | some (.jobStarted _) =>
      refuse (status != .active || phase != .running)
        "job started requires authoritative active/running state"
    | some (.leaseRenewal _) =>
      refuse (activePhase.isNone || status != .active || some phase != activePhase ||
          (phase != .preparing && phase != .running))
        "lease renewal requires the current authoritative active phase"
    | some (.completed _) | some (.failed _) | some (.cancelled _) =>
      some "terminal runner event acknowledgement must be stale or terminal"
    | _ => some "pending runner event is unsupported"

/-- An event that was acknowledged before, with the phase of the job at that time. -/
structure SettledRunnerEvent where
  message : RunnerMessage
  phase : JobPhase
deriving DecidableEq, Repr

def validateSettledEventAcknowledgement (settled : SettledRunnerEvent)
    (reconciliation : Option LeaseReconciliation) : Option String :=
  validateReconciliation reconciliation <|>
  match reconciliation with
  | none => none
  | some value =>
    let (lease, attempt) := runnerMessageIdentity settled.message
    if !sameLeaseAttempt lease attempt value.lease value.attempt then
      some "reconciliation identity does not match the settled event"
    else if value.disposition = .stale ∨ terminalLeaseStatus value.status then none
    else
      let status := value.status
      let behind (minimum : JobPhase) : Option String :=
        refuse (decide (jobPhaseRank value.phase < jobPhaseRank minimum))
          "reconciliation regressed behind the settled event"
      match settled.message.payload with
      | some (.leaseRejected _) | some (.completed _) | some (.failed _) | some (.cancelled _) =>
        some "terminal or rejected event reconciliation must be stale or terminal"
      | some (.leaseAccepted _) =>
        refuse (status != .accepted && status != .active)
          "accepted event reconciliation status is invalid" <|> behind .accepted
      | some (.jobPreparing _) =>
        refuse (status != .active) "preparing event reconciliation status is invalid" <|>
          behind .preparing
      | some (.jobStarted _) =>
        refuse (status != .active) "started event reconciliation status is invalid" <|>
          behind .running
      | some (.leaseRenewal _) =>
        refuse (status != .active) "renewal event reconciliation status is invalid" <|>
          behind settled.phase
      | _ => some "settled runner event is unsupported"

/-! ## Summaries -/

/-- The encodings of the white space characters. -/
def spaces : List Bytes :=
  [[0x09], [0x0A], [0x0B], [0x0C], [0x0D], [0x20], [0xC2, 0x85], [0xC2, 0xA0], [0xE1, 0x9A, 0x80],
    [0xE2, 0x80, 0x80], [0xE2, 0x80, 0x81], [0xE2, 0x80, 0x82], [0xE2, 0x80, 0x83],
    [0xE2, 0x80, 0x84], [0xE2, 0x80, 0x85], [0xE2, 0x80, 0x86], [0xE2, 0x80, 0x87],
    [0xE2, 0x80, 0x88], [0xE2, 0x80, 0x89], [0xE2, 0x80, 0x8A], [0xE2, 0x80, 0xA8],
    [0xE2, 0x80, 0xA9], [0xE2, 0x80, 0xAF], [0xE2, 0x81, 0x9F], [0xE3, 0x80, 0x80]]

/-- Removes listed words from the front, for at most the given number of times. -/
def trimFront (words : List Bytes) : Nat → Bytes → Bytes
  | 0, value => value
  | rounds + 1, value =>
    match words.find? fun word => word.isPrefixOf value with
    | some word => trimFront words rounds (value.drop word.length)
    | none => value

def trimSpace (value : Bytes) : Bytes :=
  let front := trimFront spaces value.length value
  (trimFront (spaces.map List.reverse) front.length front.reverse).reverse

def boundedSummary (value : Bytes) : Bytes :=
  let trimmed := trimSpace value
  if trimmed.isEmpty then encode "runner event failed"
  else if maximumReasonBytes < trimmed.length then
    trimInvalid (trimmed.take maximumReasonBytes)
  else trimmed

end ProvenanceRunner.Gateway
