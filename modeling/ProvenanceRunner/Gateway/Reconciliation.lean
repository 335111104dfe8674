import ProvenanceRunner.Gateway.Session

/-! # Acknowledgements, cancellations and heartbeats

The gateway answers an event or a heartbeat with the state that it holds of the lease. These
handlers bring the journal in line with it and decide what comes next. `advance` is called after
most of them and on every tick. -/

namespace ProvenanceRunner.Gateway

open Utf8

variable (env : Environment)

/-! ## Network authority -/

def enabledNetworkJob (job : JobSpecification) : Bool :=
  match job.effectivePolicy.bind (·.networkV2) with
  | some mode => mode != .none
  | none => false

/-- Feeds the route of the active job, which is made when there is none yet. -/
def reconcileGuard (job : JobSpecification) : Handler Unit := do
  let world ← get
  let guard := world.client.workerNetworkAuthority
  let foreign := guard.any fun guard =>
    !sameLeaseAttempt guard.job.lease guard.job.attempt job.lease job.attempt
  if foreign && world.client.workerRunning then
    plain "prior network attempt cleanup is still running"
  else do
    if foreign && (← ask).closeFails then do
      drain
      plain "prior network attempt cleanup is unproven"
    else do
      let route : NetworkGuard := match guard, foreign with
        | some guard, false => guard
        | _, _ => ⟨job, 0, false⟩
      modifyClient fun client => { client with
        workerNetworkAuthority := some { route with generation := world.session.generation } }
      match (← ask).authority with
      | .granted => pure ()
      | .withdrawn =>
        modifyClient fun client => { client with
          workerNetworkAuthority :=
            client.workerNetworkAuthority.map fun guard => { guard with done := true } }
      | .rejected => plain "network authority reconciliation rejected"

def consumeNetworkAuthority (value : LeaseReconciliation) : Handler Unit := do
  match (← snapshot).active with
  | none =>
    if value.networkAuthorityV2.isSome then
      permanent "network authority has no matching active attempt"
  | some job =>
    if !activeMatchesIdentity (some job) value.lease value.attempt then
      if value.networkAuthorityV2.isSome then
        permanent "network authority has no matching active attempt"
      else pure ()
    else if !enabledNetworkJob job.specification then
      if value.networkAuthorityV2.isSome then
        permanent "unexpected network authority for legacy or none job"
      else pure ()
    else if terminalLeaseStatus value.status || !value.cancellationId.isEmpty ||
        value.phase == .cancelling || value.status == .offered then do
      stopNetworkAuthority 0
      if value.networkAuthorityV2.isSome then
        permanent "unexpected network authority during cleanup"
    else if !(← get).session.features.contains .networkAuthorityV2 then do
      stopNetworkAuthority 0
      plain "enabled job requires current stream network authority"
    else if (← get).client.recovering then do
      match (← ask).authority with
      | .granted => pure ()
      | _ => plain "recovered network authority is invalid"
    else reconcileGuard job.specification

/-- Whether the route of the active job is gone. A route that has been found done stays so. -/
def networkAuthorityStopped : Handler Bool := do
  let client := (← get).client
  match client.workerNetworkAuthority with
  | none => return false
  | some guard =>
    if !activeMatchesIdentity client.journal.active guard.job.lease guard.job.attempt then
      return false
    else do
      let done := guard.done || (← ask).authorityDone
      modifyClient fun client => { client with
        workerNetworkAuthority := some { guard with done := done } }
      return done

def queueNetworkAuthorityFailure (now : Int) : Handler Unit := do
  let client := (← get).client
  if client.workerNetworkAuthority.isNone || client.workerRunning then pure ()
  else do
    let unproven := (← ask).closeFails
    if unproven then drain
    let (lease, attempt) ← activeIdentity (← snapshot)
    let detail := if unproven then
        infrastructureFailure .cleanup (encode "network_cleanup_failed")
          (encode "owned network teardown could not be proven")
      else infrastructureFailure .preparation (encode "network_authority_lost")
        (encode "network authority unavailable before execution")
    queueDurable env (.failed (bareFailure lease attempt now detail)) .keep

/-! ## Advance -/

/-- Takes the next step that time or a recorded decision calls for. -/
def advance (rounds : Nat) (now : Int) : Handler Unit := do
  let state ← snapshot
  let world ← get
  match state.active with
  | none => pure ()
  | some job =>
    if world.client.recovering && world.session.reconciled && state.pendingMessage.isNone then
      queueRestartFailure env now
    else if !job.cancellationID.isEmpty then do
      stopWorker
      failStartResponse
      if job.cancellationDigest.isEmpty || state.pendingMessage.isSome ||
          world.client.workerRunning then pure ()
      else if !world.client.deferredWorkerEvents.isEmpty then drainDeferred env rounds
      else queueCancellation env now none
    else if job.expiresAt ≤ now then do
      stopWorker
      failStartResponse
      if state.pendingMessage.isSome || world.client.workerRunning then pure ()
      else queueLeaseExpired env now
    else if state.pendingMessage.isSome then pure ()
    else if ← networkAuthorityStopped then
      if world.client.workerRunning then pure ()
      else if !world.client.deferredWorkerEvents.isEmpty then drainDeferred env rounds
      else queueNetworkAuthorityFailure env now
    else if (job.phase == .preparing || job.phase == .running) &&
        decide (job.expiresAt - now ≤ leaseDuration world.session / 2) then
      queueRenewal env now
    else drainDeferred env rounds

/-! ## Acknowledgements of events -/

def applyAuthoritativeReconciliation (reconciliation : LeaseReconciliation) : Handler Unit :=
  update env (.reconcile reconciliation)

def clearPending : Handler Unit := update env .clearPending

def clearPendingAcknowledged (pending : RunnerMessage) (active : Option JournalJob) :
    Handler Unit := do
  clearPending env
  record (.settled pending)
  rememberSettledMessage pending ((active.map (·.phase)).getD .unspecified)

/-- The event again, for the current identity of the lease and at the current time. -/
def reissued (payload : RunnerPayload) (lease : Option LeaseIdentity)
    (attempt : Option AttemptIdentity) (now : Int) : Option RunnerPayload :=
  match payload with
  | .leaseAccepted event => some (.leaseAccepted
      { event with lease := lease, attempt := attempt, acceptedAt := Timestamp.ofTime now })
  | .leaseRejected event => some (.leaseRejected { event with lease := lease, attempt := attempt })
  | .leaseRenewal event => some (.leaseRenewal
      { event with lease := lease, attempt := attempt, observedAt := Timestamp.ofTime now })
  | .jobPreparing event => some (.jobPreparing
      { event with lease := lease, attempt := attempt, startedAt := Timestamp.ofTime now })
  | .jobStarted event => some (.jobStarted
      { event with lease := lease, attempt := attempt, startedAt := Timestamp.ofTime now })
  | .completed event => some (.completed { event with lease := lease, attempt := attempt })
  | .failed event => some (.failed { event with lease := lease, attempt := attempt })
  | .cancelled event => some (.cancelled { event with lease := lease, attempt := attempt })
  | _ => none

def reissueStaleEvent (message : RunnerMessage) (now : Int) : Handler Unit := do
  let (lease, attempt) := runnerMessageIdentity message
  let state ← snapshot
  let (lease, attempt) ←
    if activeMatchesIdentity state.active lease attempt then activeIdentity state
    else pure (lease, attempt)
  match message.payload.bind fun payload => reissued payload lease attempt now with
  | none => plain "stale runner event cannot be reissued"
  | some payload => queueDurable env payload .keep

/-- Forgets the job in memory after the journal has forgotten it. -/
def forgetJob (pending : Option RunnerMessage) (phase : JobPhase) : Handler Unit := do
  clearCompleteLogTarget
  match pending with
  | some message => rememberSettledMessage message phase
  | none => pure ()
  discardDeferred
  clearRestartEvidence

def startWorker : Handler Unit := do
  let world ← get
  if world.client.workerRunning then plain "remote worker is already running"
  else match world.client.journal.active with
    | none => plain "remote worker cannot start without an active job"
    | some job =>
      if !env.workerPresent then plain "remote worker cannot start without an active job"
      else if job.terminalEvidenceV2 && !env.workerV2 then
        plain "active v2 evidence job requires a v2 worker"
      else if !job.specification.testSecrets.isEmpty && !env.testSecretsUsable then
        plain "test-secret delivery unavailable"
      else do
        record (.launched job.specification)
        modify fun world => { world with
          client := { world.client with workerRunning := true }
          worker := some job.specification }

/-- What follows an event that was acknowledged as applied. -/
def afterAcknowledged (rounds : Nat) (pending : RunnerMessage) (active : Option JournalJob)
    (now : Int) : Handler Unit := do
  match pending.payload with
  | some (.leaseAccepted _) => do
    clearPendingAcknowledged env pending active
    if (← get).client.recovering then queueRestartFailure env now
    else match (← snapshot).active with
      | none => throw .nilDereference
      | some job =>
        if !job.cancellationID.isEmpty then advance env rounds now else queuePreparing env now
  | some (.jobPreparing _) => do
    clearPendingAcknowledged env pending active
    if (← get).client.recovering then queueRestartFailure env now
    else match (← snapshot).active with
      | none => throw .nilDereference
      | some job =>
        if !job.cancellationID.isEmpty then advance env rounds now else startWorker env
  | some (.jobStarted _) => do
    clearPendingAcknowledged env pending active
    if (← get).client.recovering then queueRestartFailure env now
    else do
      completeStartResponse true
      drainDeferred env rounds
  | some (.leaseRenewal _) => do
    clearPendingAcknowledged env pending active
    if (← get).client.recovering then queueRestartFailure env now
    else drainDeferred env rounds
  | some (.completed _) | some (.failed _) | some (.cancelled _) => do
    modifyClient fun client => { client with recovering := false }
    stopWorker
    failStartResponse
    update env .finish
    match active with
    | none => throw .nilDereference
    | some job => forgetJob (some pending) job.phase
  | _ => permanent "pending runner event is unsupported"

/-- Settles the pending event by a reconciliation that has passed all checks. -/
def settlePending (rounds : Nat) (pending : RunnerMessage) (reconciliation : LeaseReconciliation)
    (active : Option JournalJob) (now : Int) : Handler Unit := do
  let activeMatches := activeMatchesIdentity active reconciliation.lease reconciliation.attempt
  let terminal := terminalLeaseStatus reconciliation.status
  if !terminal && !reconciliation.cancellationId.isEmpty then do
    if activeMatches then do
      applyAuthoritativeReconciliation env reconciliation
      stopWorker
      failStartResponse
    clearPendingAcknowledged env pending active
    if activeMatches then advance env rounds now
  else if terminal && activeMatches then do
    stopWorker
    failStartResponse
    update env .finish
    modifyClient fun client => { client with recovering := false }
    match active with
    | none => throw .nilDereference
    | some job => forgetJob (some pending) job.phase
  else do
    if activeMatches then applyAuthoritativeReconciliation env reconciliation
    let stopped ← if activeMatches then networkAuthorityStopped else pure false
    if stopped && !pending.endsJob then do
      clearPendingAcknowledged env pending active
      advance env rounds now
    else if reconciliation.disposition = .stale then do
      clearPendingAcknowledged env pending active
      reissueStaleEvent env pending now
    else if pending.isRejection || terminal then clearPendingAcknowledged env pending active
    else afterAcknowledged env rounds pending active now

/-! ## Late reconciliations -/

def acceptRestartCompleteLogUpload (reconciliation : LeaseReconciliation) (now : Int) :
    Handler Unit := do
  match reconciliation.completeLogUpload with
  | none => pure ()
  | some upload =>
    let world ← get
    if !world.session.features.contains .restartUploadRecovery || !world.client.restartEvidence ||
        world.session.authenticated.runnerId != env.runnerID then
      permanent "reconciliation complete log upload is not valid for this runner stream"
    else match world.client.journal.active with
      | none => permanent "reconciliation complete log upload does not match the active attempt"
      | some job =>
        let expiresAt := asTime (reconciliation.lease.bind (·.expiresAt))
        if !activeMatchesIdentity (some job) reconciliation.lease reconciliation.attempt then
          permanent "reconciliation complete log upload does not match the active attempt"
        else if job.specification.lease ≠ reconciliation.lease ∨
            job.specification.attempt ≠ reconciliation.attempt then
          permanent
            "reconciliation complete log upload identity does not exactly match the active job"
        else if expiresAt ≤ now then
          permanent "reconciliation complete log upload lease is expired"
        else
          let identity := world.session.features.contains .objectUploadIdentity
          match env.validateCompleteLogUpload (some upload) now expiresAt expiresAt identity with
          | .ok (some target) => setRecoveryCompleteLogTarget job.specification (some target)
          | _ => permanent "reconciliation complete log upload is malformed or expired"

def applyLateReconciliation (reconciliation : LeaseReconciliation) (now : Int) :
    Handler Unit := do
  consumeNetworkAuthority reconciliation
  let state ← snapshot
  match state.active with
  | none =>
    if reconciliation.completeLogUpload.isSome then
      permanent "reconciliation complete log upload does not match the active attempt"
  | some job =>
    if !activeMatchesIdentity (some job) reconciliation.lease reconciliation.attempt then
      if reconciliation.completeLogUpload.isSome then
        permanent "reconciliation complete log upload does not match the active attempt"
      else pure ()
    else do
      acceptRestartCompleteLogUpload env reconciliation now
      if terminalLeaseStatus reconciliation.status then do
        stopWorker
        failStartResponse
        update env .finish
        modifyClient fun client => { client with recovering := false }
        forgetJob state.pendingMessage job.phase
      else do
        applyAuthoritativeReconciliation env reconciliation
        if !reconciliation.cancellationId.isEmpty then do
          stopWorker
          failStartResponse

def handleSettledEventAcknowledgement (rounds : Nat) (settled : SettledRunnerEvent)
    (reconciliation : Option LeaseReconciliation) (now : Int) : Handler Unit := do
  check "event acknowledgement conflicts with authoritative reconciliation: "
    (validateSettledEventAcknowledgement settled reconciliation)
  match reconciliation with
  | none => pure ()
  | some reconciliation =>
    applyLateReconciliation env reconciliation now
    advance env rounds now

def handleEventAcknowledgement (rounds : Nat) (acknowledgement : RunnerEventAcknowledgement)
    (now : Int) : Handler Unit := do
  if (validateTimestamp "eventAcknowledgement.committedAt" acknowledgement.committedAt).isSome then
    permanent "event acknowledgement is invalid"
  else if (acknowledgement.reconciliation.bind (·.completeLogUpload)).isSome then
    permanent "event acknowledgement must not contain a complete log upload"
  else match (← get).session.settledEvents.lookup acknowledgement.runnerMessageId with
    | some settled =>
      handleSettledEventAcknowledgement env rounds settled acknowledgement.reconciliation now
    | none => do
      let state ← snapshot
      match state.pendingMessage with
      | none => permanent "event acknowledgement has no pending runner event"
      | some pending =>
        if acknowledgement.runnerMessageId ≠ pending.messageId then
          permanent "event acknowledgement does not match the pending runner message"
        else do
          check "event acknowledgement: " (validateReconciliation acknowledgement.reconciliation)
          match acknowledgement.reconciliation with
          | none => pure ()
          | some reconciliation =>
            let (lease, attempt) := runnerMessageIdentity pending
            if !sameLeaseAttempt lease attempt reconciliation.lease reconciliation.attempt then
              permanent
                "event acknowledgement reconciliation identity does not match the pending event"
            else do
              check "event acknowledgement: " (validatePendingReconciliation pending reconciliation
                (state.active.map (·.phase)))
              consumeNetworkAuthority reconciliation
              settlePending env rounds pending reconciliation state.active now

/-! ## Heartbeats -/

def capacity (client : Client) : Capacity where
  availableJobs := if client.draining || client.journal.active.isSome || client.workerRunning
    then 0 else 1

def heartbeatMessage (observedAt : Int) (leases : List HeartbeatLease) :
    Handler RunnerMessage := do
  let sequence ← nextHeartbeatSequence env
  let available := capacity (← get).client
  let empty ← runnerMessage env
  return { empty with payload := some (.heartbeat
    ⟨sequence.toNat, some available, leases, some (Timestamp.ofTime observedAt)⟩) }

/-- The lease that a fresh heartbeat reports: the active one, unless an event is unacknowledged. -/
def heartbeatLeases (state : JournalState) : List HeartbeatLease :=
  match state.active, state.pendingMessage with
  | some job, none => [⟨job.specification.lease, job.specification.attempt, job.phase⟩]
  | _, _ => []

def sendHeartbeat (observedAt : Int) : Handler Unit := do
  let state ← snapshot
  if (← get).session.pendingHeartbeat.isNone then
    modifySession fun session => { session with pendingHeartbeat := state.pendingHeartbeat }
  match (← get).session.pendingHeartbeat with
  | some message =>
    let leases := (message.heartbeat?.map (·.activeLeases)).getD []
    if state.pendingMessage.isSome && !leases.isEmpty then
      modifySession fun session => { session with heartbeatDeferred := true }
    else do
      modifySession fun session => { session with heartbeatDeferred := false }
      send message
  | none =>
    let message ← heartbeatMessage env observedAt (heartbeatLeases state)
    update env (.storeHeartbeat message)
    modifySession fun session =>
      { session with pendingHeartbeat := some message, heartbeatDeferred := false }
    send message

/-- Applies the reconciliations of a heartbeat to the leases it reported, in order. -/
def applyReconciliations (now : Int) :
    List (Option LeaseReconciliation) → List HeartbeatLease → Handler Unit
  | [], _ => pure ()
  | _ :: _, [] => pure ()
  | reconciliation :: reconciliations, expected :: leases => do
    check "heartbeat acknowledgement: " (validateReconciliation reconciliation)
    match reconciliation with
    | none => pure ()
    | some reconciliation =>
      if !sameLeaseAttempt expected.lease expected.attempt reconciliation.lease
          reconciliation.attempt then
        permanent "heartbeat acknowledgement reconciliation identity does not match active lease"
      else do
        applyLateReconciliation env reconciliation now
        applyReconciliations now reconciliations leases

/-- The heartbeat that an acknowledgement is about: the pending one or one acknowledged before. -/
def knownHeartbeat (session : Session) (pending : Option RunnerMessage) (id : Bytes) :
    Option RunnerMessage :=
  match pending with
  | some message => some message
  | none => session.acknowledgedHeartbeats.lookup id

def handleHeartbeatAcknowledgement (rounds : Nat) (acknowledgement : HeartbeatAcknowledgement)
    (now : Int) : Handler Unit := do
  if (validateTimestamp "heartbeatAcknowledgement.committedAt"
      acknowledgement.committedAt).isSome then
    permanent "heartbeat acknowledgement is invalid"
  else do
    let session := (← get).session
    let pending := session.pendingHeartbeat.filter
      fun message => acknowledgement.runnerMessageId == message.messageId
    match knownHeartbeat session pending acknowledgement.runnerMessageId with
    | none => permanent "heartbeat acknowledgement has no matching pending or applied heartbeat"
    | some message =>
      let sequence := (message.heartbeat?.map (·.sequence)).getD 0
      let leases := (message.heartbeat?.map (·.activeLeases)).getD []
      if acknowledgement.sequence ≠ sequence then
        permanent "heartbeat acknowledgement does not match the pending heartbeat"
      else if acknowledgement.reconciliations.length ≠ leases.length then
        permanent
          "heartbeat acknowledgement reconciliation cardinality does not match active leases"
      else do
        applyReconciliations env now acknowledgement.reconciliations leases
        if pending.isSome then do
          update env .clearHeartbeat
          modifySession fun session =>
            { session with pendingHeartbeat := none, heartbeatDeferred := false }
          rememberAcknowledgedHeartbeat message
        modifySession fun session => { session with reconciled := true }
        advance env rounds now

/-! ## Cancellation commands -/

def handleCancellation (rounds : Nat) (cancellation : CancelJob) (now : Int) :
    Handler Unit := do
  if cancellation.lease.isNone || cancellation.attempt.isNone then
    permanent "cancellation identity is required"
  else do
    check "" (validateIdentifier "cancel.cancellationId" cancellation.cancellationId
      maximumIdentifierBytes)
    if decide (maximumReasonBytes < cancellation.reason.length) ||
        (validateTimestamp "cancel.deadline" cancellation.deadline).isSome then
      permanent "cancellation is invalid"
    else match (← snapshot).active with
      | none => permanent "cancellation does not match the active lease"
      | some job =>
        let digest := env.sha256 (env.encodeCancel cancellation)
        if !activeMatchesIdentity (some job) cancellation.lease cancellation.attempt then
          permanent "cancellation does not match the active lease"
        -- A heartbeat may have announced the cancellation before its command.
        else if job.cancellationID.isEmpty ||
            (job.cancellationID == cancellation.cancellationId &&
              job.cancellationDigest.isEmpty) then do
          update env (.recordCancellation cancellation digest)
          stopWorker
          failStartResponse
          advance env rounds now
        else if job.cancellationID == cancellation.cancellationId &&
            job.cancellationDigest == digest then do
          stopWorker
          failStartResponse
          advance env rounds now
        else
          permanent
            "active lease cancellation identity or payload conflicts with the committed cancellation"

end ProvenanceRunner.Gateway
