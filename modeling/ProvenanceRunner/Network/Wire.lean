import ProvenanceRunner.Gateway.Checks

/-! # Wire records of the network policy

The messages that carry a network policy and the authority to use it, with the fields that the
package reads. A pointer that may be nil is an option, and every message keeps its unknown fields,
since a closed message may have none. Instants are counted in nanoseconds from the zero time of the
host language. -/

namespace ProvenanceRunner.Network

open Utf8
open Gateway (nanosecondsPerSecond unixEra second minute toLower isCanonicalUUID zeroUUID
  LeaseStatus JobPhase Disposition knownStatus knownPhase knownDisposition)

/-! ## Instants -/

structure Timestamp where
  seconds : Int
  nanos : Int
  unknown : Bytes
deriving DecidableEq, Repr

/-- The wire library accepts the years 1 to 9999. -/
def Timestamp.checkValid (value : Timestamp) : Bool :=
  decide (-62135596800 ≤ value.seconds) && decide (value.seconds ≤ 253402300799) &&
    decide (0 ≤ value.nanos) && decide (value.nanos < nanosecondsPerSecond)

def Timestamp.asTime (value : Timestamp) : Int :=
  (value.seconds + unixEra) * nanosecondsPerSecond + value.nanos

/-- The timestamp of an instant. -/
def Timestamp.ofTime (time : Int) : Timestamp where
  seconds := time / nanosecondsPerSecond - unixEra
  nanos := time % nanosecondsPerSecond
  unknown := []

theorem Timestamp.asTime_ofTime (time : Int) : (Timestamp.ofTime time).asTime = time := by
  simp only [Timestamp.ofTime, Timestamp.asTime, nanosecondsPerSecond]
  omega

/-- The instant of the Unix era, which is also what a missing timestamp is read as. -/
def unixEpoch : Int := unixEra * nanosecondsPerSecond

def asTime (value : Option Timestamp) : Int :=
  match value with
  | none => unixEpoch
  | some timestamp => timestamp.asTime

/-- The seconds of the Unix era, rounded down. -/
def unixSeconds (time : Int) : Int := time / nanosecondsPerSecond - unixEra

/-- The instant of a second of the Unix era. -/
def ofUnixSeconds (seconds : Int) : Int := (seconds + unixEra) * nanosecondsPerSecond

theorem unixSeconds_ofUnixSeconds (seconds : Int) :
    unixSeconds (ofUnixSeconds seconds) = seconds := by
  simp only [unixSeconds, ofUnixSeconds, nanosecondsPerSecond]
  omega

theorem ofUnixSeconds_unixSeconds_le (time : Int) : ofUnixSeconds (unixSeconds time) ≤ time := by
  simp only [unixSeconds, ofUnixSeconds, nanosecondsPerSecond]
  omega

/-- An instant that a timestamp of the wire can hold. -/
def validInstant (time : Int) : Bool := (Timestamp.ofTime time).checkValid

def validAuthorityTime (value : Option Timestamp) : Bool :=
  match value with
  | none => false
  | some timestamp => timestamp.checkValid && timestamp.unknown.isEmpty

/-! ## Leases, attempts and reconciliations -/

structure LeaseIdentity where
  leaseId : Bytes
  jobId : Bytes
  executionId : Bytes
  expiresAt : Option Timestamp
  unknown : Bytes
deriving DecidableEq, Repr

structure AttemptIdentity where
  attemptId : Bytes
  attemptNumber : Nat
  releaseCandidateId : Bytes
  matrixEntryId : Bytes
  unknown : Bytes
deriving DecidableEq, Repr

inductive DigestAlgorithm where
  | unspecified
  | sha256
  | other (code : Int)
deriving DecidableEq, Repr

structure Digest where
  algorithm : DigestAlgorithm
  value : Bytes
  unknown : Bytes
deriving DecidableEq, Repr

inductive AuthorityState where
  | unspecified
  | current
  | withdrawn
  | other (code : Int)
deriving DecidableEq, Repr

/-- One check of the gateway whether the job may still use the network. -/
structure NetworkAuthority where
  policy : Option Digest
  state : AuthorityState
  checkedAt : Option Timestamp
  expiresAt : Option Timestamp
  unknown : Bytes
deriving DecidableEq, Repr

structure CompleteLogUpload where
  uri : Bytes
  objectKey : Bytes
  expiresAt : Option Timestamp
  unknown : Bytes
deriving DecidableEq, Repr

structure LeaseReconciliation where
  disposition : Disposition
  status : LeaseStatus
  phase : JobPhase
  lease : Option LeaseIdentity
  attempt : Option AttemptIdentity
  terminalMessageId : Bytes
  cancellationId : Bytes
  completeLogUpload : Option CompleteLogUpload
  networkAuthorityV2 : Option NetworkAuthority
  unknown : Bytes
deriving DecidableEq, Repr

/-! ## Closed messages

A closed message has no unknown field and no enumeration code without a name, at any depth. -/

def Timestamp.closed (value : Timestamp) : Bool := value.unknown.isEmpty

def LeaseIdentity.closed (value : LeaseIdentity) : Bool :=
  value.unknown.isEmpty && value.expiresAt.all (·.closed)

def AttemptIdentity.closed (value : AttemptIdentity) : Bool := value.unknown.isEmpty

def Digest.closed (value : Digest) : Bool :=
  value.unknown.isEmpty && !(value.algorithm matches .other _)

def NetworkAuthority.closed (value : NetworkAuthority) : Bool :=
  value.unknown.isEmpty && !(value.state matches .other _) && value.policy.all (·.closed) &&
    value.checkedAt.all (·.closed) && value.expiresAt.all (·.closed)

def CompleteLogUpload.closed (value : CompleteLogUpload) : Bool :=
  value.unknown.isEmpty && value.expiresAt.all (·.closed)

/-- A code that has a name; zero is the unspecified one. -/
def named (status : LeaseStatus) (phase : JobPhase) (disposition : Disposition) : Bool :=
  (status == .unspecified || knownStatus status) && (phase == .unspecified || knownPhase phase) &&
    (disposition == .unspecified || knownDisposition disposition)

def LeaseReconciliation.closed (value : LeaseReconciliation) : Bool :=
  value.unknown.isEmpty && named value.status value.phase value.disposition &&
    value.lease.all (·.closed) && value.attempt.all (·.closed) &&
    value.completeLogUpload.all (·.closed) && value.networkAuthorityV2.all (·.closed)

/-! ## Identities -/

def validAuthorityID (id : Bytes) : Bool := isCanonicalUUID id && id != zeroUUID

def validAuthorityLease (lease : LeaseIdentity) : Bool :=
  lease.closed && validAuthorityID lease.leaseId && validAuthorityID lease.jobId &&
    validAuthorityID lease.executionId && validAuthorityTime lease.expiresAt

def validAuthorityAttempt (attempt : AttemptIdentity) : Bool :=
  attempt.closed && validAuthorityID attempt.attemptId &&
    validAuthorityID attempt.releaseCandidateId && validAuthorityID attempt.matrixEntryId &&
    decide (1 ≤ attempt.attemptNumber) && decide (attempt.attemptNumber ≤ 3)

/-! ## Hosts and ports -/

/-- The text of a decimal number below 256, without leading zeros. -/
def isDecimalByte (field : Bytes) : Bool :=
  !field.isEmpty && field.all isDigit && (field.length == 1 || field.head? != some 0x30) &&
    decide (field.foldl (fun value digit => 10 * value + (digit - 0x30).toNat) 0 < 256)

/-- The text of an IPv4 address. Every other text that is read as an address has a colon or a
percent sign, which no label of a host name admits. -/
def isIPv4 (host : Bytes) : Bool :=
  (host.splitOn 0x2E).length == 4 && (host.splitOn 0x2E).all isDecimalByte

/-- Decimal digits, or hexadecimal ones after `0x`. -/
def numericAddressLabel (label : Bytes) : Bool :=
  (!label.isEmpty && label.all isDigit) ||
    (label.take 2 == [0x30, 0x78] && !(label.drop 2).isEmpty && (label.drop 2).all isLowerHex)

def validLabel (label : Bytes) : Bool :=
  !label.isEmpty && decide (label.length ≤ 63) && label.head? != some 0x2D &&
    label.getLast? != some 0x2D &&
    label.all fun byte => isLower byte || byte == 0x2D || isDigit byte

def hostname (host : Bytes) : Bool :=
  !host.isEmpty && decide (host.length ≤ 253) && host == toLower host && host.contains 0x2E &&
    !isIPv4 host && (host.splitOn 0x2E).all validLabel &&
    (host.splitOn 0x2E).any (·.any isLower) && !(host.splitOn 0x2E).all numericAddressLabel

/-- Mail and name service ports are never granted. -/
def blockedPort (port : Nat) : Bool := [0, 25, 465, 587, 53, 853].contains port

/-! ## Policies -/

inductive NetworkMode where
  | unspecified
  | none
  | restricted
  | allowlist
  | other (code : Int)
deriving DecidableEq, Repr

inductive NetworkTransport where
  | unspecified
  | tcp
  | udp
  | other (code : Int)
deriving DecidableEq, Repr

/-- The order in which permissions are written. -/
def NetworkTransport.code : NetworkTransport → Int
  | .unspecified => 0
  | .tcp => 1
  | .udp => 2
  | .other code => code

structure NetworkPermission where
  hostname : Bytes
  port : Nat
  transport : NetworkTransport
  unknown : Bytes
deriving DecidableEq, Repr

structure NetworkPolicy where
  mode : NetworkMode
  permissions : List (Option NetworkPermission)
  maximumConnections : Nat
  maximumBytesPerSecond : Nat
  unknown : Bytes
deriving DecidableEq, Repr

inductive SandboxKind where
  | unspecified
  | gvisor
  | other (code : Int) (named : Bool)
deriving DecidableEq, Repr

inductive EnvironmentRequirement where
  | unspecified
  | other (code : Int) (named : Bool)
deriving DecidableEq, Repr

structure Resources where
  cpuMillis : Nat
  memoryBytes : Nat
  diskBytes : Nat
  processCount : Nat
  unknown : Bytes
deriving DecidableEq, Repr

structure Duration where
  seconds : Int
  nanos : Int
  unknown : Bytes
deriving DecidableEq, Repr

/-- A policy with the first version of its network part, of which only the presence matters, or with
the second. -/
structure EffectivePolicy where
  network : Option Bytes
  networkV2 : Option NetworkPolicy
  sandbox : SandboxKind
  requirement : EnvironmentRequirement
  resources : Option Resources
  preparationTimeout : Option Duration
  executionTimeout : Option Duration
  gracefulShutdownTimeout : Option Duration
  unknown : Bytes
deriving DecidableEq, Repr

def NetworkPermission.closed (value : NetworkPermission) : Bool :=
  value.unknown.isEmpty && !(value.transport matches .other _)

def NetworkPolicy.closed (value : NetworkPolicy) : Bool :=
  value.unknown.isEmpty && !(value.mode matches .other _) &&
    value.permissions.all fun permission => permission.any (·.closed)

def Resources.closed (value : Resources) : Bool := value.unknown.isEmpty

def Duration.closed (value : Duration) : Bool := value.unknown.isEmpty

def EffectivePolicy.closed (value : EffectivePolicy) : Bool :=
  value.unknown.isEmpty && value.networkV2.all (·.closed) &&
    !(value.sandbox matches .other _ false) && !(value.requirement matches .other _ false) &&
    value.resources.all (·.closed) && value.preparationTimeout.all (·.closed) &&
    value.executionTimeout.all (·.closed) && value.gracefulShutdownTimeout.all (·.closed)

/-- Host names in byte order, then ports, then transports. -/
def compareWirePermission (first second : NetworkPermission) : Ordering :=
  (compareOfLessAndEq first.hostname second.hostname).then
    ((compare first.port second.port).then (compare first.transport.code second.transport.code))

def validPermission (permission : NetworkPermission) : Bool :=
  permission.unknown.isEmpty && hostname permission.hostname && decide (permission.port ≤ 65535) &&
    !blockedPort permission.port &&
    (permission.transport == .tcp || permission.transport == .udp)

/-- Permissions in strictly increasing order, each of them valid. -/
def validPermissions : List (Option NetworkPermission) → Bool
  | [] => true
  | none :: _ => false
  | some permission :: rest => validPermission permission &&
      (match rest with
        | some next :: _ => compareWirePermission permission next == .lt
        | _ => true) &&
      validPermissions rest

def validateWire (policy : Option NetworkPolicy) : Bool :=
  match policy with
  | none => false
  | some policy => policy.unknown.isEmpty && decide (policy.permissions.length ≤ 128) &&
    match policy.mode with
    | .none => policy.permissions.isEmpty && policy.maximumConnections == 0 &&
        policy.maximumBytesPerSecond == 0
    | .restricted | .allowlist => !policy.permissions.isEmpty && policy.maximumConnections != 0 &&
        policy.maximumBytesPerSecond != 0 && validPermissions policy.permissions
    | _ => false

/-- Durations of about 10000 years at most, without mixed signs. -/
def Duration.checkValid (value : Duration) : Bool :=
  decide (-315576000000 ≤ value.seconds) && decide (value.seconds ≤ 315576000000) &&
    decide (-nanosecondsPerSecond < value.nanos) && decide (value.nanos < nanosecondsPerSecond) &&
    !(decide (value.seconds < 0) && decide (0 < value.nanos)) &&
    !(decide (0 < value.seconds) && decide (value.nanos < 0))

def validTimeout (value : Option Duration) : Bool :=
  value.any fun duration => duration.checkValid && decide (0 ≤ duration.seconds) &&
    decide (0 ≤ duration.nanos) && !(duration.seconds == 0 && duration.nanos == 0)

/-- The wire library and the digest. -/
structure WireLibrary where
  policySize : EffectivePolicy → Nat
  marshalPolicy : EffectivePolicy → Option Bytes
  sha256 : Bytes → Bytes

def validResources (resources : Option Resources) : Bool :=
  resources.any fun limits => limits.cpuMillis != 0 && limits.memoryBytes != 0 &&
    limits.diskBytes != 0 && limits.processCount != 0

/-- The identity of a complete policy of the second version. -/
def effectivePolicySHA256 (wire : WireLibrary) (effective : Option EffectivePolicy) :
    Option Bytes :=
  match effective with
  | none => none
  | some policy =>
    if decide (65536 < wire.policySize policy) || !policy.closed || policy.network.isSome ||
        !validateWire policy.networkV2 then none
    else if policy.sandbox == .unspecified || policy.requirement == .unspecified ||
        !validResources policy.resources then none
    else if !List.all [policy.preparationTimeout, policy.executionTimeout,
        policy.gracefulShutdownTimeout] validTimeout then none
    else (wire.marshalPolicy policy).map wire.sha256

/-- A job as far as its network is concerned. `policyHash` is the claimed hash of its policy. -/
structure JobSpecification where
  lease : Option LeaseIdentity
  attempt : Option AttemptIdentity
  effectivePolicy : Option EffectivePolicy
  policyHash : Option Digest
deriving DecidableEq, Repr

/-! ## Samples -/

/-- An identity that repeats one digit. -/
def sampleID (digit : UInt8) : Bytes :=
  List.replicate 8 digit ++ [0x2D] ++ List.replicate 4 digit ++ [0x2D] ++ List.replicate 4 digit ++
    [0x2D] ++ List.replicate 4 digit ++ [0x2D] ++ List.replicate 12 digit

example : validAuthorityID (sampleID 0x31) = true := by decide +kernel

/-- A digest of 32 bytes that keeps the beginning of a text. -/
def sampleDigest (text : Bytes) : Bytes := (text ++ List.replicate 32 0).take 32

end ProvenanceRunner.Network
