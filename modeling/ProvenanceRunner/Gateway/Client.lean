import ProvenanceRunner.Gateway.Journal
import ProvenanceRunner.Library.Programs

/-! # The client, its sessions and the world around them

A `World` is everything a handler can touch: the memory of the process (`Client`), the memory of
the current stream (`Session`), the files, the worker with its channel of events, and the answers
that the operating system and the network are going to give. Handlers are programs over it that
keep the state when they fail.

Every operation with an outside answer takes the next `Response`. The trace records, newest first,
what the outside could observe and the points at which the journal file was replaced; a crash can
therefore be placed at any point of it. -/

namespace ProvenanceRunner.Gateway

open Utf8

/-! ## The worker -/

structure Cleanup where
  succeeded : Bool
  error : Bytes
deriving DecidableEq, Repr

inductive Classification where
  | passed
  | invalidJob
  | workloadFailure
  | infrastructureFailure
  | timedOut
  | cancelled
  | other
deriving DecidableEq, Repr

inductive ExecutionPhase where
  | validation
  | resolution
  | preparation
  | execution
  | collection
  | cleanup
  | completed
  | other
deriving DecidableEq, Repr

structure ExecutionFailure where
  stage : Option FailureStage
  code : Bytes
  message : Bytes
deriving DecidableEq, Repr

structure CompleteLog where
  digest : Bytes
  size : Nat
deriving DecidableEq, Repr

/-- What a worker ends with. `execution` holds the exit code once a process has run;
`terminalContext` is the identity that the evidence of the run is bound to, and `observations`
stands for what the evidence package makes the document of. -/
structure WorkerResult where
  failed : Bool
  classification : Classification
  phase : ExecutionPhase
  execution : Option (Option Int)
  completeLog : Option CompleteLog
  cleanup : Option Cleanup
  measuredResources : Option ResourceUsage
  failure : Option ExecutionFailure
  terminalContext : Option Identity
  measuredNetwork : Bool
  observations : Bytes
  startedAt : Int
  completedAt : Int
deriving DecidableEq, Repr

def WorkerResult.passed (result : WorkerResult) : Bool := result.classification == .passed

structure WorkerEvidence where
  generation : Nat
  lease : Option LeaseIdentity
  attempt : Option AttemptIdentity
  logBatch : Option LogBatch
  usage : Option UsageReport
  terminal : Bool
deriving DecidableEq, Repr

structure SecretRequest where
  number : Nat
  generation : Nat
deriving DecidableEq, Repr

/-- What a worker puts on the channel. A start request names the channel of its answer. -/
inductive WorkerEvent where
  | secretRequest (request : SecretRequest)
  | start (channel : Nat)
  | evidence (evidence : WorkerEvidence)
  | result (result : WorkerResult) (finalEvidence finalUsage : Option WorkerEvidence)
deriving DecidableEq, Repr

/-! ## Memory -/

structure CompleteLogTarget where
  uri : Bytes
  objectKey : Bytes
  expiresAt : Int
deriving DecidableEq, Repr

structure ActiveCompleteLogUpload where
  leaseID : Bytes
  attemptID : Bytes
  target : CompleteLogTarget
  recovery : Bool
deriving DecidableEq, Repr

/-- The network route of a job: whether it has been withdrawn, and the session that last fed it. -/
structure NetworkGuard where
  job : JobSpecification
  generation : Nat
  done : Bool
deriving DecidableEq, Repr

structure Client where
  journal : JournalState
  credential : Bytes
  draining : Bool
  workerRunning : Bool
  startResponse : Option Nat
  recovering : Bool
  sessionGeneration : Nat
  ephemeralSequence : Nat
  activeUpload : Option ActiveCompleteLogUpload
  restartEvidence : Bool
  deferredWorkerEvents : List WorkerEvent
  workerNetworkAuthority : Option NetworkGuard
deriving DecidableEq, Repr

structure PendingSecretRequest where
  request : SecretRequest
  requestID : Bytes
  job : JobSpecification
deriving DecidableEq, Repr

structure Session where
  features : List ProtocolFeature
  authenticated : Authenticated
  seen : List (Bytes × Bytes)
  pendingHeartbeat : Option RunnerMessage
  reconciled : Bool
  settledEvents : List (Bytes × SettledRunnerEvent)
  acknowledgedHeartbeats : List (Bytes × RunnerMessage)
  heartbeatDeferred : Bool
  generation : Nat
  cancellationFinalUsageLease : Option LeaseIdentity
  cancellationFinalUsageAttempt : Option AttemptIdentity
  pendingSecret : Option PendingSecretRequest
deriving DecidableEq, Repr

/-! ## The outside -/

inductive AuthorityAnswer where
  | granted
  | withdrawn
  | rejected
deriving DecidableEq, Repr

/-- Evidence of an execution that a restart found, and whether its identity is the expected one. -/
structure RecoveredEvidence where
  identityMatches : Bool
  usage : Option ResourceUsage
  completeLog : CompleteLog
deriving DecidableEq, Repr

/-- The outside answer to one operation. Each operation reads the fields that concern it. -/
structure Response where
  now : Int := 0
  persisted : Persisted := .done
  sendFailure : Option Bool := none
  storeFails : Bool := false
  evidenceFails : Bool := false
  upload : Option LogObject := none
  uploadMatches : Bool := true
  recovered : Option RecoveredEvidence := none
  authority : AuthorityAnswer := .granted
  authorityDone : Bool := false
  closeFails : Bool := false
  requestDone : Bool := false
  nonce : Bytes := []
  sealedUntil : Option Int := none
  deadlineExpired : Bool := false
deriving DecidableEq, Repr

inductive Effect where
  | booted (journal : JournalState) (credential : Bytes)
  | committed (change : JournalChange) (state : JournalState)
  | replaced (credential : Bytes)
  | sent (message : RunnerMessage)
  | opened
  | ticked (time : Int)
  | received (message : GatewayMessage)
  | took (event : WorkerEvent)
  | settled (message : RunnerMessage)
  | awaited (channel : Nat)
  | answered (channel : Nat) (granted : Bool) (journal : JournalState) (recovering : Bool)
  | launched (job : JobSpecification)
  | finished (job : JobSpecification) (result : WorkerResult)
  | evidence (event : WorkerEvidence)
deriving DecidableEq, Repr

/-- Settings of the client and functions of other packages. Whether an offer is admissible is left
open: nothing here depends on it. -/
structure Environment extends JournalEnvironment where
  instanceID : Bytes
  expectedScope : ExpectedScope
  credentialStore : Bool
  identityKeyFile : Bool
  workerPresent : Bool
  workerV2 : Bool
  testSecretsUsable : Bool
  disableObjectUploadIdentity : Bool
  disableTerminalEvidence : Bool
  enableTerminalEvidenceV2 : Bool
  enableNetworkPolicyV2 : Bool
  networkMaximum : Option EffectivePolicy
  encodeGateway : GatewayMessage → Bytes
  encodeCancel : CancelJob → Bytes
  validateOffer : LeaseOffer → Int → Int → List ProtocolFeature → Option OfferRejection
  validateNetworkV2Offer : LeaseOffer → Int → Int → List ProtocolFeature → EffectivePolicy →
    Option OfferRejection
  validateCompleteLogUpload : Option CompleteLogUpload → Int → Int → Int → Bool →
    Except OfferRejection (Option CompleteLogTarget)
  freezeTerminalEvidence : WorkerResult → Bytes → Option ExecutionEvidence

/-- Whether the process has a stream, waits to open one, or has given up. -/
inductive Stage where
  | idle
  | streaming
  | ended
deriving DecidableEq, Repr

structure World where
  stage : Stage
  client : Client
  session : Session
  file : JournalState
  credentialFile : Bytes
  worker : Option JobSpecification
  workerEvents : List WorkerEvent
  responses : Nat → Response
  consumed : Nat
  trace : List Effect

abbrev Handler := EStateM Failure World

/-! ## Small programs -/

def permanent {α : Type} (text : String) : Handler α := throw (.permanent text)
def plain {α : Type} (text : String) : Handler α := throw (.plain text)

/-- Stops with a permanent failure when a check has an error. -/
def check (context : String) (error : Option String) : Handler Unit :=
  match error with
  | some text => permanent (context ++ text)
  | none => pure ()

def ask : Handler Response := fun world =>
  .ok (world.responses world.consumed) { world with consumed := world.consumed + 1 }

def readClock : Handler Int := do return (← ask).now

def record (effect : Effect) : Handler Unit := modify fun world =>
  { world with trace := effect :: world.trace }

def modifyClient (change : Client → Client) : Handler Unit := modify fun world =>
  { world with client := change world.client }

def modifySession (change : Session → Session) : Handler Unit := modify fun world =>
  { world with session := change world.session }

/-- A copy of the journal in memory. -/
def snapshot : Handler JournalState := do return (← get).client.journal

/-- Goes on with the failure of a program as a value. A panic is not a failure of this kind. -/
def attempt {α : Type} (program : Handler α) : Handler (Except Failure α) := fun world =>
  match program world with
  | .ok answer next => .ok (.ok answer) next
  | .error .nilDereference next => .error .nilDereference next
  | .error .unfinished next => .error .unfinished next
  | .error failure next => .ok (.error failure) next

/-- Goes on with a failure that was taken as a value. -/
def rethrow (ended : Except Failure Unit) : Handler Unit :=
  match ended with
  | .ok _ => pure ()
  | .error failure => throw failure

section

variable (env : Environment)

def update (change : JournalChange) : Handler Unit := fun world =>
  let updated := (Journal.mk world.client.journal world.file).update env.toJournalEnvironment
    change (world.responses world.consumed).persisted
  let next : World := { world with
    client := { world.client with journal := updated.journal.memory }
    file := updated.journal.file
    consumed := world.consumed + 1
    trace := if updated.committed then .committed change updated.journal.file :: world.trace
      else world.trace }
  match updated.failure with
  | none => .ok () next
  | some failure => .error failure next

/-- Hands a message to the stream. It counts as sent even when the stream reports an error. -/
def send (message : RunnerMessage) : Handler Unit := do
  record (.sent message)
  match (← ask).sendFailure with
  | none => pure ()
  | some transient => throw (.io transient)

def nextMessageSequence : Handler UInt64 := do
  update env .nextMessageSequence
  return (← snapshot).messageSequence

def nextHeartbeatSequence : Handler UInt64 := do
  update env .nextHeartbeatSequence
  return (← snapshot).heartbeatSequence

/-- An empty message under the next identity. -/
def runnerMessage : Handler RunnerMessage := do
  let now ← readClock
  let sequence ← nextMessageSequence env
  return ⟨numberedId (env.sha256 env.instanceID) sequence, some (Timestamp.ofTime now), none⟩

/-! ## The worker's answers, the upload target and restart evidence -/

/-- Gives an answer to a start request. -/
def answerStart (channel : Nat) (granted : Bool) : Handler Unit := do
  let world ← get
  record (.answered channel granted world.client.journal world.client.recovering)

def setStartResponse (channel : Nat) : Handler Unit := do
  record (.awaited channel)
  modifyClient fun client => { client with startResponse := some channel }

def completeStartResponse (granted : Bool) : Handler Unit := do
  let response := (← get).client.startResponse
  modifyClient fun client => { client with startResponse := none }
  match response with
  | some channel => answerStart channel granted
  | none => pure ()

def failStartResponse : Handler Unit := completeStartResponse false

/-- Withdraws the network route; generation 0 stands for any session. -/
def stopNetworkAuthority (generation : Nat) : Handler Unit :=
  modifyClient fun client => { client with
    workerNetworkAuthority := client.workerNetworkAuthority.map fun guard =>
      if generation ≠ 0 ∧ generation ≠ guard.generation then guard else
        { guard with done := true } }

/-- Cancels the worker's context and withdraws its route. The cancellation is the worker's affair:
it shows in the events that the worker sends later. -/
def stopWorker : Handler Unit := stopNetworkAuthority 0

def markWorkerStopped : Handler Unit := modifyClient fun client =>
  { client with workerRunning := false }

def drain : Handler Unit := modifyClient fun client => { client with draining := true }

def setCompleteLogTargetKind (job : JobSpecification) (target : Option CompleteLogTarget)
    (recovery : Bool) : Handler Unit :=
  modifyClient fun client => { client with
    activeUpload := match target, job.lease, job.attempt with
      | some target, some lease, some attempt =>
        some ⟨lease.leaseId, attempt.attemptId, target, recovery⟩
      | _, _, _ => none }

def setCompleteLogTarget (job : JobSpecification) (target : Option CompleteLogTarget) :
    Handler Unit := setCompleteLogTargetKind job target false

def setRecoveryCompleteLogTarget (job : JobSpecification) (target : Option CompleteLogTarget) :
    Handler Unit := setCompleteLogTargetKind job target true

/-- The upload target of this attempt. -/
def completeLogTarget (upload : Option ActiveCompleteLogUpload) (lease : Option LeaseIdentity)
    (attempt : Option AttemptIdentity) : Option CompleteLogTarget :=
  match upload, lease, attempt with
  | some upload, some lease, some attempt =>
    if upload.leaseID ≠ lease.leaseId ∨ upload.attemptID ≠ attempt.attemptId then none
    else some upload.target
  | _, _, _ => none

def clearCompleteLogTarget : Handler Unit := modifyClient fun client =>
  { client with activeUpload := none }

def clearRecoveryCompleteLogTarget : Handler Unit := modifyClient fun client =>
  { client with activeUpload := client.activeUpload.filter fun upload => !upload.recovery }

def beginRestartEvidence : Handler Unit := do
  if (← get).client.restartEvidence then plain "restart evidence already exists"
  else if (← ask).evidenceFails then plain "create restart evidence"
  else modifyClient fun client => { client with restartEvidence := true }

def clearRestartEvidence : Handler Unit := modifyClient fun client =>
  { client with restartEvidence := false }

/-! ## Deferred worker events -/

def deferWorkerEvent (event : WorkerEvent) : Handler Unit := modifyClient fun client =>
  { client with deferredWorkerEvents := client.deferredWorkerEvents ++ [event] }

def popDeferredWorkerEvent : Handler (Option WorkerEvent) := do
  match (← get).client.deferredWorkerEvents with
  | [] => return none
  | event :: rest =>
    modifyClient fun client => { client with deferredWorkerEvents := rest }
    return some event

/-- Answers a discarded event: a waiting start request is refused. -/
def discard : WorkerEvent → Handler Unit
  | .start channel => answerStart channel false
  | _ => pure ()

def discardAll : List WorkerEvent → Handler Unit
  | [] => pure ()
  | event :: rest => do discard event; discardAll rest

def discardDeferred : Handler Unit := do
  let events := (← get).client.deferredWorkerEvents
  modifyClient fun client => { client with deferredWorkerEvents := [] }
  discardAll events

/-! ## What the session remembers -/

def maximumRemembered : Nat := 4096

/-- Puts an entry under its identifier, at the end when it is new, and drops the oldest entry
beyond the bound. -/
def remember {α : Type} (entries : List (Bytes × α)) (id : Bytes) (value : α) :
    List (Bytes × α) :=
  let entries := if entries.any (·.1 == id) then
      entries.map fun entry => if entry.1 == id then (id, value) else entry
    else entries ++ [(id, value)]
  if maximumRemembered < entries.length then entries.tail else entries

def rememberSettledMessage (message : RunnerMessage) (phase : JobPhase) : Handler Unit :=
  if message.messageId.isEmpty then pure ()
  else modifySession fun session => { session with
    settledEvents := remember session.settledEvents message.messageId ⟨message, phase⟩ }

def rememberAcknowledgedHeartbeat (message : RunnerMessage) : Handler Unit :=
  modifySession fun session => { session with
    acknowledgedHeartbeats :=
      remember session.acknowledgedHeartbeats message.messageId message }

end

end ProvenanceRunner.Gateway
