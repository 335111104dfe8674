import ProvenanceRunner.Library.Utf8

/-! # Messages of the runner protocol

The records that the gateway client reads and writes, with the fields it looks at. A pointer that
may be nil is an option. An enumeration of the wire is open, so each one ends in a constructor for
codes that have no name. Instants are counted in nanoseconds from the zero time of the host
language; a wire timestamp has seconds and nanoseconds of the Unix era. -/

namespace ProvenanceRunner.Gateway

open Utf8

def nanosecondsPerSecond : Int := 1000000000

/-- Seconds between the zero time and the Unix era. -/
def unixEra : Int := 62135596800

def second : Int := nanosecondsPerSecond
def minute : Int := 60 * second
def hour : Int := 60 * minute

structure Timestamp where
  seconds : Int
  nanos : Int
deriving DecidableEq, Repr

/-- The wire library accepts the years 1 to 9999. -/
def Timestamp.checkValid (value : Timestamp) : Bool :=
  decide (-62135596800 ≤ value.seconds) && decide (value.seconds ≤ 253402300799) &&
    decide (0 ≤ value.nanos) && decide (value.nanos < nanosecondsPerSecond)

def Timestamp.asTime (value : Timestamp) : Int :=
  (value.seconds + unixEra) * nanosecondsPerSecond + value.nanos

/-- The timestamp of an instant. -/
def Timestamp.ofTime (time : Int) : Timestamp where
  seconds := time / nanosecondsPerSecond - unixEra
  nanos := time % nanosecondsPerSecond

structure LeaseIdentity where
  leaseId : Bytes
  jobId : Bytes
  executionId : Bytes
  expiresAt : Option Timestamp
deriving DecidableEq, Repr

structure AttemptIdentity where
  attemptId : Bytes
  attemptNumber : Nat
  releaseCandidateId : Bytes
  matrixEntryId : Bytes
deriving DecidableEq, Repr

structure JobCorrelation where
  traceparent : Bytes
  organizationId : Bytes
  projectId : Bytes
  workflowId : Bytes
  unknownFields : Bytes
deriving DecidableEq, Repr

inductive NetworkMode where
  | none
  | other (code : Int)
deriving DecidableEq, Repr

/-- The timeouts of a policy, which an offer under the second network policy may not exceed. -/
structure EffectivePolicy where
  networkV2 : Option NetworkMode
  preparationTimeout : Int
  executionTimeout : Int
  gracefulShutdownTimeout : Int
deriving DecidableEq, Repr

structure CompleteLogUpload where
  uri : Bytes
  objectKey : Bytes
  expiresAt : Option Timestamp
deriving DecidableEq, Repr

/-- A job as offered. `payload` stands for the fields that the client hands on unread. -/
structure JobSpecification where
  lease : Option LeaseIdentity
  attempt : Option AttemptIdentity
  targetPluginName : Bytes
  dependencies : List (Option Bytes)
  jobCorrelation : Option JobCorrelation
  testSecrets : List Bytes
  effectivePolicy : Option EffectivePolicy
  completeLogUpload : Option CompleteLogUpload
  payload : Bytes
deriving DecidableEq, Repr

inductive JobPhase where
  | unspecified
  | accepted
  | preparing
  | running
  | cancelling
  | other (code : Int)
deriving DecidableEq, Repr

inductive LeaseStatus where
  | unspecified
  | offered
  | accepted
  | active
  | completed
  | cancelled
  | expired
  | released
  | other (code : Int)
deriving DecidableEq, Repr

inductive Disposition where
  | unspecified
  | applied
  | alreadyApplied
  | stale
  | other (code : Int)
deriving DecidableEq, Repr

structure LeaseReconciliation where
  disposition : Disposition
  status : LeaseStatus
  phase : JobPhase
  lease : Option LeaseIdentity
  attempt : Option AttemptIdentity
  terminalMessageId : Bytes
  cancellationId : Bytes
  completeLogUpload : Option CompleteLogUpload
  networkAuthorityV2 : Option Bytes
deriving DecidableEq, Repr

/-! ## What the runner sends -/

inductive RejectionReason where
  | atCapacity
  | draining
  | unsupported
  | policy
  | other (code : Int)
deriving DecidableEq, Repr

inductive FailureCategory where
  | infrastructure
  | policy
  | plugin
deriving DecidableEq, Repr

inductive FailureStage where
  | lease
  | preparation
  | startup
  | execution
  | cleanup
  | resultUpload
deriving DecidableEq, Repr

structure FailureDetail where
  category : FailureCategory
  stage : FailureStage
  code : Bytes
  summary : Bytes
  retryable : Bool
deriving DecidableEq, Repr

/-- Frozen evidence: a canonical document and its digest. -/
structure ExecutionEvidence where
  canonicalJson : Bytes
  digest : Bytes
deriving DecidableEq, Repr

structure LogObject where
  objectKey : Bytes
  digest : Bytes
  compressedSizeBytes : Nat
deriving DecidableEq, Repr

structure ResourceUsage where
  cpuTime : Int
  peakMemoryBytes : Nat
  diskReadBytes : Nat
  diskWriteBytes : Nat
  networkReceiveBytes : Nat
  networkTransmitBytes : Nat
deriving DecidableEq, Repr

structure LeaseAccepted where
  lease : Option LeaseIdentity
  attempt : Option AttemptIdentity
  acceptedAt : Timestamp
deriving DecidableEq, Repr

structure LeaseRejected where
  lease : Option LeaseIdentity
  attempt : Option AttemptIdentity
  reason : RejectionReason
  summary : Bytes
deriving DecidableEq, Repr

structure LeaseRenewal where
  lease : Option LeaseIdentity
  attempt : Option AttemptIdentity
  requestedExtension : Int
  observedAt : Timestamp
deriving DecidableEq, Repr

structure JobPreparing where
  lease : Option LeaseIdentity
  attempt : Option AttemptIdentity
  startedAt : Timestamp
deriving DecidableEq, Repr

structure JobStarted where
  lease : Option LeaseIdentity
  attempt : Option AttemptIdentity
  startedAt : Timestamp
deriving DecidableEq, Repr

structure StructuredResult where
  passed : Bool
  usage : Option ResourceUsage
  completeLog : Option LogObject
  startedAt : Timestamp
  completedAt : Timestamp
  processExitCode : Option Int
deriving DecidableEq, Repr

structure JobCompleted where
  lease : Option LeaseIdentity
  attempt : Option AttemptIdentity
  result : StructuredResult
  executionEvidence : Option ExecutionEvidence
deriving DecidableEq, Repr

structure JobFailed where
  lease : Option LeaseIdentity
  attempt : Option AttemptIdentity
  failure : FailureDetail
  usage : Option ResourceUsage
  completeLog : Option LogObject
  failedAt : Timestamp
  executionEvidence : Option ExecutionEvidence
deriving DecidableEq, Repr

structure JobCancelled where
  lease : Option LeaseIdentity
  attempt : Option AttemptIdentity
  cancellationId : Bytes
  cancelledAt : Timestamp
  cleanupCompleted : Bool
  cleanupFailure : Option FailureDetail
deriving DecidableEq, Repr

structure HeartbeatLease where
  lease : Option LeaseIdentity
  attempt : Option AttemptIdentity
  phase : JobPhase
deriving DecidableEq, Repr

structure Capacity where
  availableJobs : Nat
deriving DecidableEq, Repr

structure Heartbeat where
  sequence : Nat
  capacity : Option Capacity
  activeLeases : List HeartbeatLease
  observedAt : Option Timestamp
deriving DecidableEq, Repr

structure LogEntry where
  sequence : Nat
  observedAt : Timestamp
  stderr : Bool
  data : Bytes
  isPartial : Bool
  redacted : Bool
deriving DecidableEq, Repr

structure LogBatch where
  lease : Option LeaseIdentity
  attempt : Option AttemptIdentity
  entries : List LogEntry
  droppedEntryCount : Nat
deriving DecidableEq, Repr

structure UsageReport where
  lease : Option LeaseIdentity
  attempt : Option AttemptIdentity
  sequence : Nat
  observedAt : Timestamp
  cumulative : ResourceUsage
deriving DecidableEq, Repr

/-- Parts of the protocol that a runner can announce. -/
inductive ProtocolFeature where
  | durableLeaseAcknowledgements
  | credentialRotation
  | jobCorrelationV1
  | restartUploadRecovery
  | objectUploadIdentity
  | terminalEvidenceV1
  | terminalEvidenceV2
  | testSecretsV1
  | networkPolicyV2
  | networkAuthorityV2
deriving DecidableEq, Repr

inductive RunnerPayload where
  | leaseAccepted (accepted : LeaseAccepted)
  | leaseRejected (rejected : LeaseRejected)
  | leaseRenewal (renewal : LeaseRenewal)
  | jobPreparing (preparing : JobPreparing)
  | jobStarted (started : JobStarted)
  | completed (completed : JobCompleted)
  | failed (failed : JobFailed)
  | cancelled (cancelled : JobCancelled)
  | heartbeat (heartbeat : Heartbeat)
  | authenticate (runnerId instanceId credential : Bytes)
  | capabilities (features : List ProtocolFeature)
  | credentialRotationAcknowledgement (rotationId fingerprint : Bytes) (persistedAt : Timestamp)
  | logBatch (batch : LogBatch)
  | usage (report : UsageReport)
  | testSecretsRequest (lease : Option LeaseIdentity) (attempt : Option AttemptIdentity)
deriving DecidableEq, Repr

structure RunnerMessage where
  messageId : Bytes
  sentAt : Option Timestamp
  payload : Option RunnerPayload
deriving DecidableEq, Repr

/-! ## What the gateway sends -/

structure LeaseOffer where
  job : Option JobSpecification
  offerExpiresAt : Option Timestamp
  payload : Bytes
deriving DecidableEq, Repr

structure CancelJob where
  lease : Option LeaseIdentity
  attempt : Option AttemptIdentity
  cancellationId : Bytes
  reason : Bytes
  deadline : Option Timestamp
deriving DecidableEq, Repr

structure RunnerEventAcknowledgement where
  runnerMessageId : Bytes
  committedAt : Option Timestamp
  reconciliation : Option LeaseReconciliation
deriving DecidableEq, Repr

structure HeartbeatAcknowledgement where
  runnerMessageId : Bytes
  sequence : Nat
  committedAt : Option Timestamp
  reconciliations : List (Option LeaseReconciliation)
deriving DecidableEq, Repr

/-- A drain or shutdown notice. -/
structure Notice where
  id : Bytes
  reason : Bytes
  deadline : Option Timestamp
deriving DecidableEq, Repr

structure RotateCredential where
  rotationId : Bytes
  connectionCredential : Bytes
  credentialFingerprint : Bytes
  issuedAt : Option Timestamp
  expiresAt : Option Timestamp
  reconnectBefore : Option Timestamp
deriving DecidableEq, Repr

inductive OrganizationScope where
  | platform
  | organization (id : Bytes)
deriving DecidableEq, Repr

/-- The parameters of a stream. A duration that is missing or malformed is `none`. -/
structure Authenticated where
  runnerId : Bytes
  connectionId : Bytes
  protocolVersion : Bytes
  organizationScope : Option OrganizationScope
  credentialExpiresAt : Option Timestamp
  heartbeatInterval : Option Int
  leaseDuration : Option Int
  serverTime : Option Timestamp
deriving DecidableEq, Repr

inductive GatewayPayload where
  | authenticated (authenticated : Authenticated)
  | offer (offer : LeaseOffer)
  | cancel (cancel : CancelJob)
  | eventAcknowledgement (acknowledgement : RunnerEventAcknowledgement)
  | heartbeatAcknowledgement (acknowledgement : HeartbeatAcknowledgement)
  | drain (drain : Notice)
  | shutdown (shutdown : Notice)
  | policyUpdate
  | credentialRotation (rotation : RotateCredential)
  | testSecretsDelivery (delivery : Bytes)
deriving DecidableEq, Repr

structure GatewayMessage where
  messageId : Bytes
  sentAt : Option Timestamp
  payload : Option GatewayPayload
deriving DecidableEq, Repr

/-! ## Readings of a message -/

/-- The lease and attempt that a durable runner event speaks about. -/
def runnerMessageIdentity (message : RunnerMessage) :
    Option LeaseIdentity × Option AttemptIdentity :=
  match message.payload with
  | some (.leaseAccepted event) => (event.lease, event.attempt)
  | some (.leaseRejected event) => (event.lease, event.attempt)
  | some (.leaseRenewal event) => (event.lease, event.attempt)
  | some (.jobPreparing event) => (event.lease, event.attempt)
  | some (.jobStarted event) => (event.lease, event.attempt)
  | some (.completed event) => (event.lease, event.attempt)
  | some (.failed event) => (event.lease, event.attempt)
  | some (.cancelled event) => (event.lease, event.attempt)
  | _ => (none, none)

def durableRunnerMessage (message : RunnerMessage) : Bool :=
  match message.payload with
  | some (.leaseAccepted _) | some (.leaseRejected _) | some (.leaseRenewal _)
  | some (.jobPreparing _) | some (.jobStarted _) | some (.completed _) | some (.failed _)
  | some (.cancelled _) => true
  | _ => false

def RunnerMessage.isRejection (message : RunnerMessage) : Bool :=
  match message.payload with
  | some (.leaseRejected _) => true
  | _ => false

/-- The three events that end a job. -/
def RunnerMessage.endsJob (message : RunnerMessage) : Bool :=
  match message.payload with
  | some (.completed _) | some (.failed _) | some (.cancelled _) => true
  | _ => false

def RunnerMessage.heartbeat? (message : RunnerMessage) : Option Heartbeat :=
  match message.payload with
  | some (.heartbeat heartbeat) => some heartbeat
  | _ => none

/-- The evidence attached to a completed or failed event. -/
def terminalProof (message : RunnerMessage) : Option ExecutionEvidence :=
  match message.payload with
  | some (.completed event) => event.executionEvidence
  | some (.failed event) => event.executionEvidence
  | _ => none

/-- Two identities name the same attempt: all identifiers agree. The expiry is not compared. -/
def sameLeaseAttempt (leftLease : Option LeaseIdentity) (leftAttempt : Option AttemptIdentity)
    (rightLease : Option LeaseIdentity) (rightAttempt : Option AttemptIdentity) : Bool :=
  match leftLease, leftAttempt, rightLease, rightAttempt with
  | some leftLease, some leftAttempt, some rightLease, some rightAttempt =>
    leftLease.leaseId == rightLease.leaseId && leftLease.jobId == rightLease.jobId &&
      leftLease.executionId == rightLease.executionId &&
      leftAttempt.attemptId == rightAttempt.attemptId &&
      leftAttempt.attemptNumber == rightAttempt.attemptNumber &&
      leftAttempt.releaseCandidateId == rightAttempt.releaseCandidateId &&
      leftAttempt.matrixEntryId == rightAttempt.matrixEntryId
  | _, _, _, _ => false

def terminalLeaseStatus (status : LeaseStatus) : Bool :=
  match status with
  | .completed | .cancelled | .expired | .released => true
  | _ => false

def jobPhaseRank (phase : JobPhase) : Nat :=
  match phase with
  | .accepted => 1
  | .preparing => 2
  | .running => 3
  | .cancelling => 4
  | _ => 0

/-- The identifiers of a lease and an attempt, without the expiry. -/
structure Identity where
  leaseId : Bytes
  jobId : Bytes
  executionId : Bytes
  attempt : AttemptIdentity
deriving DecidableEq, Repr

/-- The identity that a pair of optional records names. -/
def identityOf (lease : Option LeaseIdentity) (attempt : Option AttemptIdentity) :
    Option Identity :=
  match lease, attempt with
  | some lease, some attempt => some ⟨lease.leaseId, lease.jobId, lease.executionId, attempt⟩
  | _, _ => none

/-- Agreement of two pairs is equality of the identities they name. -/
theorem sameLeaseAttempt_iff (leftLease rightLease : Option LeaseIdentity)
    (leftAttempt rightAttempt : Option AttemptIdentity) :
    sameLeaseAttempt leftLease leftAttempt rightLease rightAttempt = true ↔
      ∃ identity, identityOf leftLease leftAttempt = some identity ∧
        identityOf rightLease rightAttempt = some identity := by
  rcases leftLease with _ | ⟨_, _, _, _⟩ <;> rcases leftAttempt with _ | ⟨_, _, _, _⟩ <;>
    rcases rightLease with _ | ⟨_, _, _, _⟩ <;> rcases rightAttempt with _ | ⟨_, _, _, _⟩ <;>
    simp [sameLeaseAttempt, identityOf]
  grind

end ProvenanceRunner.Gateway
