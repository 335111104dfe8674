import ProvenanceRunner.Gateway.Client

/-! # Handlers of a session

The handlers of the session loop, in the order in which they call each other: first the programs
that store and send a durable event, then the worker's events, then `advance`, and last the
messages of the gateway. A handler reads the journal through `snapshot` exactly where the client
does, because between two readings the journal may have been updated. -/

namespace ProvenanceRunner.Gateway

open Utf8

variable (env : Environment)

/-! ## Sending -/

/-- The event carries evidence of a version that the stream has not announced. -/
def unannounced (features : List ProtocolFeature) (message : RunnerMessage) : Bool :=
  match terminalProof message with
  | none => false
  | some proof =>
    match env.frozenVersion proof with
    | none => true
    | some .v1 => !features.contains .terminalEvidenceV1
    | some .v2 => !features.contains .terminalEvidenceV2

/-- Sends a stored event, after checking the evidence it carries against the stream and the job. -/
def sendRetained (message : RunnerMessage) : Handler Unit := do
  if unannounced env (← get).session.features message then
    permanent "queued terminal evidence requires current stream advertisement"
  else do
    let state ← snapshot
    if (validateTerminalProof env.toJournalEnvironment message state env.runnerID).isSome then
      permanent "queued terminal evidence identity is invalid"
    else send message

def replayPending : Handler Unit := do
  match (← snapshot).pendingMessage with
  | none => pure ()
  | some message => sendRetained env message

def terminalMessageBound (message : RunnerMessage) : Option String :=
  refuse ((terminalProof message).isSome &&
      decide (maximumMessageBytes < env.messageSize message))
    "terminal evidence message exceeds supported bounds"

/-- Stores an event under the next identity and sends it. -/
def queueDurable (payload : RunnerPayload) (mutation : Mutation) : Handler Unit := do
  let empty ← runnerMessage env
  let message : RunnerMessage := { empty with payload := some payload }
  match terminalMessageBound env message with
  | some text => plain text
  | none => do
    update env (.queueDurable message mutation)
    sendRetained env message

/-- The identity of the active job. -/
def activeIdentity (state : JournalState) :
    Handler (Option LeaseIdentity × Option AttemptIdentity) :=
  match state.active with
  | none => plain "active lease is missing"
  | some job => pure (job.specification.lease, job.specification.attempt)

/-! ## Events about the active job -/

def normalizedTerminalTime (time : Int) : Int := time - time % 1000

def infrastructureFailure (stage : FailureStage) (code summary : Bytes) : FailureDetail :=
  ⟨.infrastructure, stage, code, summary, true⟩

/-- A failed event without evidence, usage and log. -/
def bareFailure (lease : Option LeaseIdentity) (attempt : Option AttemptIdentity) (now : Int)
    (detail : FailureDetail) : JobFailed :=
  ⟨lease, attempt, detail, none, none, Timestamp.ofTime (normalizedTerminalTime now), none⟩

def queuePreparing (now : Int) : Handler Unit := do
  let (lease, attempt) ← activeIdentity (← snapshot)
  queueDurable env (.jobPreparing ⟨lease, attempt, Timestamp.ofTime now⟩) (.phase .preparing)

def leaseDuration (session : Session) : Int := session.authenticated.leaseDuration.getD 0

def queueRenewal (now : Int) : Handler Unit := do
  let (lease, attempt) ← activeIdentity (← snapshot)
  let session := (← get).session
  queueDurable env
    (.leaseRenewal ⟨lease, attempt, leaseDuration session, Timestamp.ofTime now⟩) .keep

/-- Reports a cancelled job. Without a result there was nothing to clean up. -/
def queueCancellation (now : Int) (result : Option WorkerResult) : Handler Unit := do
  let state ← snapshot
  let (lease, attempt) ← activeIdentity state
  match state.active with
  | none => throw .nilDereference
  | some job =>
    let cleanup := result.bind (·.cleanup)
    let cleanupCompleted := result.isNone || cleanup.any (·.succeeded)
    let cleanupFailure := (cleanup.filter (!·.succeeded)).map fun cleanup =>
      infrastructureFailure .cleanup (encode "cleanup_failed") (boundedSummary cleanup.error)
    queueDurable env (.cancelled ⟨lease, attempt, job.cancellationID,
      Timestamp.ofTime (normalizedTerminalTime now), cleanupCompleted, cleanupFailure⟩) .keep

def queueLeaseExpired (now : Int) : Handler Unit := do
  let (lease, attempt) ← activeIdentity (← snapshot)
  queueDurable env (.failed (bareFailure lease attempt now (infrastructureFailure .lease
    (encode "lease_expired") (encode "authoritative runner lease expired")))) .keep

def restartFailureDetail : FailureDetail :=
  infrastructureFailure .execution (encode "runner_restarted")
    (encode "runner restarted with an authoritative lease whose execution outcome is uncertain")

def queueRestartFailureWithoutEvidence (now : Int) (lease : Option LeaseIdentity)
    (attempt : Option AttemptIdentity) : Handler Unit := do
  clearCompleteLogTarget
  clearRestartEvidence
  queueDurable env (.failed (bareFailure lease attempt now restartFailureDetail)) .keep

/-- Reports that the outcome of a recovered job is unknown. While evidence of the execution exists
but the gateway has not yet said where to upload it, nothing is reported. -/
def queueRestartFailure (now : Int) : Handler Unit := do
  let (lease, attempt) ← activeIdentity (← snapshot)
  let client := (← get).client
  if !client.restartEvidence then
    queueDurable env (.failed (bareFailure lease attempt now restartFailureDetail)) .keep
  else match completeLogTarget client.activeUpload lease attempt with
    | none => pure ()
    | some _ =>
      match (← ask).recovered with
      | none => queueRestartFailureWithoutEvidence env now lease attempt
      | some recovered =>
        if !recovered.identityMatches then
          queueRestartFailureWithoutEvidence env now lease attempt
        else do
          let response ← ask
          match response.upload with
          | none => clearCompleteLogTarget; plain "restart complete log upload failed"
          | some log =>
            if !response.uploadMatches then do
              clearCompleteLogTarget
              permanent "restart complete log upload result is invalid"
            else do
              clearCompleteLogTarget
              queueDurable env (.failed ⟨lease, attempt, restartFailureDetail, recovered.usage,
                some log, Timestamp.ofTime (normalizedTerminalTime now), none⟩) .keep

def failureStage (phase : ExecutionPhase) : FailureStage :=
  match phase with
  | .validation | .resolution => .lease
  | .preparation => .preparation
  | .cleanup | .collection => .cleanup
  | _ => .execution

def resultFailure (result : WorkerResult) : FailureDetail :=
  let detail : FailureDetail := match result.failure with
    | none => infrastructureFailure (failureStage result.phase) (encode "runner_execution_failed")
        (encode "remote execution failed")
    | some failure => infrastructureFailure (failure.stage.getD (failureStage result.phase))
        failure.code (boundedSummary failure.message)
  match result.classification with
  | .invalidJob => { detail with category := .policy, retryable := false }
  | .workloadFailure => { detail with category := .plugin, retryable := false }
  | .cancelled => { detail with code := encode "job_cancelled", retryable := true }
  | .timedOut => { detail with code := encode "job_timed_out", retryable := false }
  | _ => detail

/-- A failure before anything ran has no archive to upload. -/
def beforeExecutionFailure (result : WorkerResult) : Bool :=
  result.failed && !result.passed && result.failure.isSome && result.execution.isNone &&
    result.completeLog.isNone &&
    (result.phase == .validation || result.phase == .resolution || result.phase == .preparation)

def resultTimesError (result : WorkerResult) : Option String :=
  refuse (result.startedAt == 0 || result.completedAt == 0)
    "terminal result timestamps are required" <|>
  refuse (decide (result.completedAt < result.startedAt))
    "terminal result completedAt precedes startedAt"

/-- The event that a result is reported with, once its log is uploaded or needs no upload. -/
def resultEvent (result : WorkerResult) (lease : Option LeaseIdentity)
    (attempt : Option AttemptIdentity) (proof : Option ExecutionEvidence)
    (completeLog : Option LogObject) : RunnerPayload :=
  let completedAt := Timestamp.ofTime (normalizedTerminalTime result.completedAt)
  if result.passed then
    .completed ⟨lease, attempt, ⟨true, result.measuredResources, completeLog,
      Timestamp.ofTime (normalizedTerminalTime result.startedAt), completedAt,
      result.execution.bind id⟩, proof⟩
  else
    .failed ⟨lease, attempt, resultFailure result, result.measuredResources, completeLog,
      completedAt, proof⟩

/-- The event that a result is reported with when its log could not be uploaded. -/
def uploadFailureEvent (result : WorkerResult) (lease : Option LeaseIdentity)
    (attempt : Option AttemptIdentity) (proof : Option ExecutionEvidence) : RunnerPayload :=
  .failed ⟨lease, attempt, infrastructureFailure .resultUpload
    (encode "complete_log_upload_failed") (encode "complete log evidence could not be uploaded"),
    result.measuredResources, none,
    Timestamp.ofTime (normalizedTerminalTime result.completedAt), proof⟩

/-- Freezes the evidence of a result for the authenticated runner. -/
def freezeProof (result : WorkerResult) (lease : Option LeaseIdentity)
    (attempt : Option AttemptIdentity) : Handler (Option ExecutionEvidence) := do
  let session := (← get).session
  if result.measuredNetwork && (result.terminalContext.isNone ||
      !session.features.contains .terminalEvidenceV2 ||
      !session.features.contains .networkPolicyV2 ||
      !session.features.contains .networkAuthorityV2) then
    permanent "measured network evidence was not negotiated"
  else match result.terminalContext with
    | none => pure none
    | some context =>
      if identityOf lease attempt ≠ some context ∨
          session.authenticated.runnerId ≠ env.runnerID then
        permanent "terminal evidence executed identity mismatch"
      else match env.freezeTerminalEvidence result session.authenticated.runnerId with
        | none => permanent "terminal evidence could not be frozen"
        | some proof => pure (some proof)

def queueResult (result : WorkerResult) : Handler Unit := do
  let (lease, attempt) ← activeIdentity (← snapshot)
  let proof ← freezeProof env result lease attempt
  match resultTimesError result with
  | some text => plain text
  | none => do
    let client := (← get).client
    match completeLogTarget client.activeUpload lease attempt, beforeExecutionFailure result with
    | some _, false =>
      match (← ask).upload with
      | none => queueDurable env (uploadFailureEvent result lease attempt proof) .keep
      | some log => queueDurable env (resultEvent result lease attempt proof (some log)) .keep
    | _, _ => queueDurable env (resultEvent result lease attempt proof none) .keep

/-! ## Live evidence and secrets -/

def maximumEphemeralSequence : Nat := 2 ^ 63 - 1

/-- The next number for a message that is not journaled. The counter has 64 bits. -/
def nextEphemeral : Handler Nat := do
  modifyClient fun client =>
    { client with ephemeralSequence := (client.ephemeralSequence + 1) % 2 ^ 64 }
  return (← get).client.ephemeralSequence

def ephemeralUsable (sequence : Nat) : Bool :=
  sequence != 0 && decide (sequence ≤ maximumEphemeralSequence)

def liveId (sequence : Nat) : Bytes := encode "live-" ++ hexDigits 16 sequence

/-- What a piece of live evidence is sent as. -/
def livePayload (event : WorkerEvidence) : Option RunnerPayload :=
  match event.logBatch, event.usage with
  | some batch, _ => some (.logBatch batch)
  | none, some report => some (.usage report)
  | none, none => none

/-- Sends live evidence under the next live identity. -/
def sendLive (event : WorkerEvidence) : Handler Unit := do
  let sentAt ← readClock
  let sequence ← nextEphemeral
  if !ephemeralUsable sequence then pure ()
  else match livePayload event with
    | none => pure ()
    | some payload =>
      let message : RunnerMessage :=
        ⟨liveId sequence, some (Timestamp.ofTime sentAt), some payload⟩
      if maximumMessageBytes < env.messageSize message then pure () else send message

/-- Sends live evidence of this session's worker. After a cancellation only one last usage report
may still go out. -/
def sendWorkerEvidence (event : WorkerEvidence) : Handler Unit := do
  record (.evidence event)
  let session := (← get).session
  if event.generation ≠ session.generation then pure ()
  else match (← snapshot).active with
    | none => pure ()
    | some job => do
      if job.expiresAt ≤ (← readClock) ∨
          !activeMatchesIdentity (some job) event.lease event.attempt then pure ()
      else if job.cancellationID.isEmpty then sendLive env event
      else if !event.terminal || event.usage.isNone ||
          sameLeaseAttempt session.cancellationFinalUsageLease
            session.cancellationFinalUsageAttempt event.lease event.attempt then pure ()
      else do
        modifySession fun session => { session with
          cancellationFinalUsageLease := event.lease
          cancellationFinalUsageAttempt := event.attempt }
        sendLive env event

def secretId (nonce : Bytes) (generation sequence : Nat) : Bytes :=
  encode "secret-" ++ nonce ++ 0x2D :: hexDigits 16 generation ++ 0x2D :: hexDigits 16 sequence

/-- Takes up a request for test secrets. A refusal is answered to the worker and changes
nothing. -/
def beginSecretRequest (request : SecretRequest) : Handler Unit := do
  let session := (← get).session
  let response ← ask
  if !session.features.contains .testSecretsV1 || !session.features.contains .jobCorrelationV1 ||
      !session.reconciled || response.requestDone || request.generation ≠ session.generation ||
      session.pendingSecret.isSome then pure ()
  else do
    let state ← snapshot
    match state.active with
    | none => pure ()
    | some job =>
      if job.phase ≠ .preparing ∨ !job.cancellationID.isEmpty ∨ job.expiresAt ≤ response.now then
        pure ()
      else if state.pendingMessage.isSome then deferWorkerEvent (.secretRequest request)
      else
        let specification := job.specification
        if specification.testSecrets.isEmpty || specification.attempt.isNone ||
            (specification.lease.bind (·.expiresAt)).isNone ||
            asTime (specification.lease.bind (·.expiresAt)) ≠ job.expiresAt ||
            (validateOfferJobCorrelation specification env.expectedScope true).isSome ||
            !env.validateSelection specification then pure ()
        else do
          let sequence ← nextEphemeral
          if !ephemeralUsable sequence then pure ()
          else
            let id := secretId response.nonce session.generation sequence
            let message : RunnerMessage := ⟨id, some (Timestamp.ofTime response.now),
              some (.testSecretsRequest specification.lease specification.attempt)⟩
            if maximumMessageBytes < env.messageSize message then pure ()
            else do
              modifySession fun session => { session with
                pendingSecret := some ⟨request, id, specification⟩ }
              match ← attempt (send message) with
              | .ok _ => pure ()
              | .error failure =>
                modifySession fun session => { session with pendingSecret := none }
                throw failure

/-! ## Worker events -/

/-- After the attempt to report a result: unless a report is stored, the result is kept for
later. -/
def keepUnreported (event : WorkerEvent) (ended : Except Failure Unit) : Handler Unit := do
  match (← snapshot).pendingMessage, ended with
  | some _, .ok _ => clearCompleteLogTarget
  | some _, .error failure => do
    clearCompleteLogTarget
    throw failure
  | none, .ok _ => pure ()
  | none, .error failure => do
    deferWorkerEvent event
    throw failure

/-- Reports a result under the state of the active job. -/
def handleResult (event : WorkerEvent) (result : WorkerResult) : Handler Unit := do
  match (← snapshot).active with
  | none => clearCompleteLogTarget
  | some job =>
    if !job.cancellationID.isEmpty && job.cancellationDigest.isEmpty then deferWorkerEvent event
    else do
      let ended ← attempt <|
        if !job.cancellationID.isEmpty then do
          queueCancellation env (← readClock) (some result)
        else do
          if job.expiresAt ≤ (← readClock) then queueLeaseExpired env (← readClock)
          else queueResult env result
      keepUnreported event ended

def handleStart (state : JournalState) (channel : Nat) : Handler Unit := do
  match state.active with
  | none => answerStart channel false
  | some job =>
    if !job.cancellationID.isEmpty then answerStart channel false
    else do
      setStartResponse channel
      let now ← readClock
      queueDurable env
        (.jobStarted ⟨job.specification.lease, job.specification.attempt, Timestamp.ofTime now⟩)
        (.phase .running)

/-- Sends the last evidence of a worker. Its failure is ignored. -/
def sendFinal (evidence : Option WorkerEvidence) : Handler Unit := do
  match evidence with
  | none => pure ()
  | some evidence =>
    let _ ← attempt (sendWorkerEvidence env evidence)

/-- The bookkeeping of a stopped worker, before its result is reported. -/
def noteResult (result : WorkerResult) (finalEvidence finalUsage : Option WorkerEvidence) :
    Handler Unit := do
  if result.cleanup.any (!·.succeeded) then drain
  markWorkerStopped
  sendFinal env finalEvidence
  sendFinal env finalUsage

def handleWorkerEvent (event : WorkerEvent) : Handler Unit := do
  record (.took event)
  match event with
  | .secretRequest request => beginSecretRequest env request
  | .evidence evidence => sendWorkerEvidence env evidence
  | .start channel => do
    let state ← snapshot
    if state.active.isNone then answerStart channel false
    else if state.pendingMessage.isSome then deferWorkerEvent event
    else handleStart env state channel
  | .result result finalEvidence finalUsage => do
    noteResult env result finalEvidence finalUsage
    let state ← snapshot
    if state.active.isNone then clearCompleteLogTarget
    else if state.pendingMessage.isSome then deferWorkerEvent event
    else handleResult env event result

/-- The loop over deferred events: it ends when an event awaits its acknowledgement or nothing is
deferred. The first argument bounds the number of rounds. -/
def drainDeferred : Nat → Handler Unit
  | 0 => throw .unfinished
  | rounds + 1 => do
    if (← snapshot).pendingMessage.isSome then pure ()
    else match ← popDeferredWorkerEvent with
      | none => pure ()
      | some event =>
        handleWorkerEvent env event
        drainDeferred rounds

end ProvenanceRunner.Gateway
