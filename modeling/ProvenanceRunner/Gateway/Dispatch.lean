import ProvenanceRunner.Gateway.Reconciliation

/-! # Offers, credentials, messages and sessions

The remaining messages of the gateway, and what happens around a session: opening a stream, the
steps of its loop, and the start of the process from what the files hold. -/

namespace ProvenanceRunner.Gateway

open Utf8

variable (env : Environment)

/-! ## Offers -/

def rejectOffer (offer : LeaseOffer) (reason : RejectionReason) (summary : Bytes) :
    Handler Unit :=
  match offer.job with
  | none => permanent "cannot durably reject a lease offer without lease and attempt identity"
  | some job =>
    if job.lease.isNone || job.attempt.isNone then
      permanent "cannot durably reject a lease offer without lease and attempt identity"
    else queueDurable env
      (.leaseRejected ⟨job.lease, job.attempt, reason, boundedSummary summary⟩) .keep

def exceeds (policy maximum : EffectivePolicy) : Bool :=
  decide (maximum.preparationTimeout < policy.preparationTimeout ∨
    maximum.executionTimeout < policy.executionTimeout ∨
    maximum.gracefulShutdownTimeout < policy.gracefulShutdownTimeout)

/-- Whether this stream admits an offer. -/
def offerRejection (session : Session) (offer : LeaseOffer) (now : Int) : Option OfferRejection :=
  match offer.job.bind (·.effectivePolicy) with
  | some policy =>
    if policy.networkV2.isNone then
      env.validateOffer offer now (leaseDuration session) session.features
    else match env.networkMaximum, session.features.contains .terminalEvidenceV2 with
      | some maximum, true =>
        env.validateNetworkV2Offer offer now (leaseDuration session) session.features maximum <|>
        (if exceeds policy maximum then
          some (rejectPolicy "timeout_exceeds_capacity"
            "effective timeouts exceed the measured root maximum")
        else none)
      | _, _ => some (rejectUnsupported "network_v2_unavailable"
          "root-confirmed network maximum is unavailable")
  | none => env.validateOffer offer now (leaseDuration session) session.features

def rejectionSummary (rejection : OfferRejection) : Bytes :=
  encode (rejection.code ++ ": " ++ rejection.message)

/-- The job that an accepted offer puts into the journal. Its upload capability is not stored. -/
def acceptedJob (session : Session) (messageId digest : Bytes) (job : JobSpecification) :
    JournalJob where
  specification := { job with completeLogUpload := none }
  offerMessageID := messageId
  offerDigest := digest
  jobCorrelationV1 := session.features.contains .jobCorrelationV1
  terminalEvidenceV2 := session.features.contains .terminalEvidenceV2
  phase := .accepted
  expiresAt := asTime (job.lease.bind (·.expiresAt))
  cancellationID := []
  cancellationDeadline := 0
  cancellationDigest := []

/-- Accepts an admissible offer. -/
def acceptOffer (messageId digest : Bytes) (job : JobSpecification)
    (target : Option CompleteLogTarget) (now : Int) : Handler Unit := do
  match ← attempt beginRestartEvidence with
  | .error _ => permanent "initialize restart evidence"
  | .ok _ =>
    let session := (← get).session
    let ended ← attempt (queueDurable env
      (.leaseAccepted ⟨job.lease, job.attempt, Timestamp.ofTime now⟩)
      (.accept (acceptedJob session messageId digest job)))
    let active := (← snapshot).active
    match ended, active with
    | .error failure, none => do
      clearRestartEvidence
      throw failure
    | _, _ => do
      if activeMatchesIdentity active job.lease job.attempt then setCompleteLogTarget job target
      else clearCompleteLogTarget
      rethrow ended

def handleOffer (envelope : GatewayMessage) (offer : LeaseOffer) (now : Int) : Handler Unit := do
  let digest := env.sha256 (env.encodeGateway envelope)
  let state ← snapshot
  let world ← get
  let lease := offer.job.bind (·.lease)
  let offered := offer.job.bind (·.attempt)
  match state.active with
  | some job =>
    if activeMatchesIdentity (some job) lease offered &&
        job.specification.jobCorrelation != offer.job.bind (·.jobCorrelation) then
      permanent "job correlation changed for an active durable job identity"
    else if job.offerMessageID == envelope.messageId && job.offerDigest == digest then
      replayPending env
    else
      rejectOffer env offer .atCapacity (encode "at_capacity: runner already has an active lease")
  | none =>
    if world.client.workerRunning then
      rejectOffer env offer .atCapacity
        (encode "at_capacity: prior lease cleanup is still running")
    else if state.pendingMessage.isSome then
      permanent "runner has an unacknowledged lease rejection"
    else if world.client.draining then
      rejectOffer env offer .draining (encode "draining: runner is draining")
    else if !env.workerPresent then
      rejectOffer env offer .unsupported
        (encode "worker_unavailable: remote execution is unavailable")
    else match offer.job, offerRejection env world.session offer now with
      | none, _ =>
        let rejection := rejectUnsupported "invalid_offer" "lease offer job is required"
        rejectOffer env offer rejection.reason (rejectionSummary rejection)
      | _, some rejection => rejectOffer env offer rejection.reason (rejectionSummary rejection)
      | some job, none =>
        let identity := world.session.features.contains .objectUploadIdentity
        match env.validateCompleteLogUpload job.completeLogUpload now
            (asTime offer.offerExpiresAt) (asTime (lease.bind (·.expiresAt))) identity with
        | .error rejection => rejectOffer env offer rejection.reason (rejectionSummary rejection)
        | .ok target => acceptOffer env envelope.messageId digest job target now

/-! ## Credential rotation -/

/-- Characters of the credential's text. -/
def isCredentialByte (byte : UInt8) : Bool :=
  asciiAlphanumeric byte || byte == 0x5F || byte == 0x2D

def credentialLead : Bytes := encode "prc_v1_"

/-- The form of a connection credential. Its last character can only carry four bits, so that the
text after the lead always is the one encoding of 32 bytes; the client checks that once more. -/
def isConnectionCredential (credential : Bytes) : Bool :=
  credential.length == 50 && credential.take 7 == credentialLead &&
    ((credential.drop 7).take 42).all isCredentialByte &&
    (credential.drop 49).all (encode "AEIMQUYcgkosw048").contains

/-- The journal entry of a well-formed rotation. -/
def validateCredentialRotation (rotation : RotateCredential) (now : Int) :
    Option JournalCredentialRotation :=
  let fingerprint := env.sha256 rotation.connectionCredential
  let issuedAt := asTime rotation.issuedAt
  let expiresAt := asTime rotation.expiresAt
  let reconnectBefore := asTime rotation.reconnectBefore
  if !isCanonicalUUID rotation.rotationId ||
      !isConnectionCredential rotation.connectionCredential ||
      rotation.credentialFingerprint != fingerprint ||
      (validateTimestamp "credential rotation timestamp" rotation.issuedAt).isSome ||
      (validateTimestamp "credential rotation timestamp" rotation.expiresAt).isSome ||
      (validateTimestamp "credential rotation timestamp" rotation.reconnectBefore).isSome ||
      decide (now + maximumClockSkew < issuedAt ∨ expiresAt ≤ issuedAt ∨
        hour < expiresAt - issuedAt ∨ reconnectBefore ≤ issuedAt ∨ expiresAt ≤ reconnectBefore ∨
        5 * minute < reconnectBefore - issuedAt ∨ reconnectBefore ≤ now) then none
  else some ⟨[], rotation.rotationId, fingerprint, issuedAt, expiresAt, reconnectBefore, 0⟩

/-- Writes the credential file. -/
def replaceCredential (credential : Bytes) : Handler Unit := do
  if (← ask).storeFails then permanent "durable credential replacement failed"
  else modify fun world => { world with
    credentialFile := credential
    trace := .replaced credential :: world.trace }

/-- Confirms a persisted rotation to the gateway, and reconnects in any case. -/
def acknowledgeRotation : Handler Unit := do
  match (← snapshot).credentialRotation with
  | none => throw .nilDereference
  | some rotation =>
    let empty ← runnerMessage env
    let message : RunnerMessage := { empty with
      payload := some (.credentialRotationAcknowledgement rotation.rotationID
        rotation.fingerprint (Timestamp.ofTime rotation.persistedAt)) }
    match ← attempt (send message) with
    | .ok _ => throw .rotationReconnect
    | .error failure =>
      if (← ask).deadlineExpired then throw .rotationReconnect else throw failure

def handleCredentialRotation (rotation : RotateCredential) (now : Int) : Handler Unit := do
  if !env.credentialStore then permanent "credential rotation was not negotiated"
  else match validateCredentialRotation env rotation now with
    | none => permanent "credential rotation is invalid"
    | some metadata =>
      let metadata := { metadata with runnerID := env.runnerID }
      match ← attempt (update env (.beginRotation metadata)) with
      | .error _ => permanent "credential rotation conflicts with durable state"
      | .ok _ => do
        replaceCredential rotation.connectionCredential
        modifyClient fun client => { client with credential := rotation.connectionCredential }
        match ← attempt (update env (.commitRotation metadata now)) with
        | .error _ => throw .rotationReconnect
        | .ok _ => acknowledgeRotation env

def reconcileCredentialRotationAfterAuthentication : Handler Unit := do
  let world ← get
  match world.client.journal.credentialRotation with
  | none => pure ()
  | some rotation =>
    if env.sha256 world.client.credential ≠ rotation.fingerprint then pure ()
    else do
      let now ← readClock
      update env (.reconcileRotation rotation env.identityKeyFile now)

/-- Whether a credential found at the start is one that the journal accounts for. -/
def credentialMatchesCommittedRotation (state : JournalState) (runnerID credential : Bytes)
    (now : Int) : Bool :=
  !credential.isEmpty &&
  match state.credentialRotation with
  | some rotation =>
    if rotation.persistedAt = 0 then
      rotation.runnerID == runnerID && decide (now < rotation.expiresAt) &&
      match state.committedCredential with
      | none => env.sha256 credential == rotation.fingerprint
      | some committed =>
        validCredentialPredecessor committed rotation &&
          (env.sha256 credential == rotation.fingerprint ||
            (decide (now < committed.expiresAt) &&
              env.sha256 credential == committed.fingerprint))
    else
      match state.committedCredential with
      | none => false
      | some committed =>
        committed.runnerID == runnerID && decide (now < committed.expiresAt) &&
          rotation.runnerID == runnerID && rotation.rotationID == committed.rotationID &&
          rotation.fingerprint == committed.fingerprint &&
          env.sha256 credential == committed.fingerprint
  | none =>
    match state.committedCredential with
    | none => false
    | some committed =>
      committed.runnerID == runnerID && decide (now < committed.expiresAt) &&
        env.sha256 credential == committed.fingerprint

/-! ## Messages -/

def validateGatewayEnvelope (message : GatewayMessage) (now : Int) : Option String :=
  validateIdentifier "gateway messageId" message.messageId maximumIdentifierBytes <|>
  validateTimestampNear "gateway sentAt" message.sentAt now <|>
  refuse message.payload.isNone "gateway message payload is required"

def isSecretDelivery (message : GatewayMessage) : Bool :=
  match message.payload with
  | some (.testSecretsDelivery _) => true
  | _ => false

/-- Recognises a repeated message and remembers a new one. -/
def gatewayMessageDuplicate (message : GatewayMessage) : Handler Bool := do
  if isSecretDelivery message then permanent "unsolicited test-secret delivery"
  else do
    check "" (validateGatewayEnvelope message (← readClock))
    let digest := env.sha256 (env.encodeGateway message)
    match (← get).session.seen.lookup message.messageId with
    | some previous =>
      if previous ≠ digest then permanent "gateway messageId was reused with another payload"
      else return true
    | none =>
      modifySession fun session => { session with
        seen := remember session.seen message.messageId digest }
      return false

def noticeError (kind : String) (notice : Notice) : Option String :=
  validateIdentifier (kind ++ ".id") notice.id maximumIdentifierBytes <|>
  refuse (decide (maximumReasonBytes < notice.reason.length) ||
    (validateTimestamp (kind ++ ".deadline") notice.deadline).isSome) (kind ++ " is invalid")

def handleGatewayMessage (rounds : Nat) (message : GatewayMessage) (now : Int) :
    Handler Unit :=
  match message.payload with
  | some (.offer offer) => handleOffer env message offer now
  | some (.cancel cancellation) => handleCancellation env rounds cancellation now
  | some (.eventAcknowledgement acknowledgement) =>
    handleEventAcknowledgement env rounds acknowledgement now
  | some (.heartbeatAcknowledgement acknowledgement) =>
    handleHeartbeatAcknowledgement env rounds acknowledgement now
  | some (.drain notice) => do
    check "" (noticeError "drain" notice)
    drain
    sendHeartbeat env now
  | some (.shutdown notice) => do
    check "" (noticeError "shutdown" notice)
    permanent "gateway requested runner shutdown"
  | some (.authenticated _) =>
    permanent "authenticated may only be sent as the first gateway message"
  | some .policyUpdate => permanent "policy updates are not supported by this runner alpha"
  | some (.credentialRotation rotation) => handleCredentialRotation env rotation now
  | some (.testSecretsDelivery _) => permanent "unsolicited test-secret delivery"
  | none => permanent "gateway message payload is missing or unsupported"

/-- Takes delivered secrets to the worker that asked for them. The delivery itself is sealed by
another package, which answers until when it is valid. -/
def receiveSecretDelivery (message : GatewayMessage) : Handler Unit := do
  let world ← get
  modifySession fun session => { session with pendingSecret := none }
  match world.session.pendingSecret with
  | none => permanent "unsolicited test-secret delivery"
  | some pending =>
    let response ← ask
    match world.client.journal.active with
    | none => permanent "test-secret delivery refused"
    | some job =>
      let current := job.specification.lease.bind (·.expiresAt)
      let expected : JobSpecification := { pending.job with
        lease := pending.job.lease.map fun lease => { lease with expiresAt := current } }
      if response.requestDone || pending.request.generation ≠ world.session.generation ||
          !world.session.reconciled || !job.cancellationID.isEmpty || job.phase != .preparing ||
          !activeMatchesIdentity (some job) pending.job.lease pending.job.attempt ||
          decide (job.expiresAt ≤ response.now) ||
          (validateGatewayEnvelope message response.now).isSome || current.isNone ||
          asTime current ≠ job.expiresAt || job.specification ≠ expected then
        permanent "test-secret delivery refused"
      else match response.sealedUntil with
        | none => permanent "test-secret delivery refused"
        | some expiry =>
          if job.expiresAt < expiry then permanent "test-secret delivery refused" else pure ()

/-! ## Sessions -/

def protocolVersion : Bytes := encode "1"

def scopeError (scope : Option OrganizationScope) : Option String :=
  match scope, env.expectedScope with
  | none, _ => some "authenticated.organizationScope is required"
  | some scope, .platform =>
    refuse (scope != .platform)
      "authenticated organization scope does not match expected platform scope"
  | some scope, .organization id =>
    refuse (scope != .organization id)
      "authenticated organization scope does not match expected organization"
  | some _, .unspecified => some "configured expected scope is invalid"

/-- A duration within bounds. -/
def validateDuration (field : String) (value : Option Int) (minimum maximum : Int) :
    Option String :=
  match value with
  | none => some (field ++ " is required")
  | some value => refuse (decide (value < minimum ∨ maximum < value)) (field ++ " is out of range")

def maximumCredentialLifetime : Int := 366 * 24 * hour

def authenticatedError (authenticated : Authenticated) (now : Int) : Option String :=
  refuse (authenticated.runnerId != env.runnerID)
    "authenticated runner scope does not match configured runnerId" <|>
  validateUUID "authenticated.connectionId" authenticated.connectionId <|>
  refuse (authenticated.protocolVersion != protocolVersion)
    "authenticated protocolVersion is not supported" <|>
  scopeError env authenticated.organizationScope <|>
  validateTimestamp "authenticated.credentialExpiresAt" authenticated.credentialExpiresAt <|>
  refuse (decide (asTime authenticated.credentialExpiresAt ≤ now ∨
      now + maximumCredentialLifetime < asTime authenticated.credentialExpiresAt))
    "authenticated.credentialExpiresAt must be in the future" <|>
  validateDuration "authenticated.heartbeatInterval" authenticated.heartbeatInterval
    second (5 * minute) <|>
  validateDuration "authenticated.leaseDuration" authenticated.leaseDuration second (24 * hour) <|>
  validateTimestampNear "authenticated.serverTime" authenticated.serverTime now

def validateAuthenticated (message : GatewayMessage) (now : Int) : Except String Authenticated :=
  match validateGatewayEnvelope message now, message.payload with
  | some text, _ => .error text
  | none, some (.authenticated authenticated) =>
    match authenticatedError env authenticated now with
    | some text => .error text
    | none => .ok authenticated
  | none, _ => .error "first gateway message must be authenticated"

/-- What the client announces. Without trusted evidence of an active job it does not offer to
upload any. -/
def capabilities (client : Client) : List ProtocolFeature :=
  [.durableLeaseAcknowledgements] ++
  (if env.credentialStore then [.credentialRotation] else []) ++
  [.jobCorrelationV1] ++
  (if env.disableObjectUploadIdentity then [] else [.objectUploadIdentity]) ++
  (if client.journal.active.isNone || client.restartEvidence then [.restartUploadRecovery]
    else []) ++
  (if env.disableTerminalEvidence then []
    else .terminalEvidenceV1 ::
      (if env.enableTerminalEvidenceV2 && env.workerV2 then [.terminalEvidenceV2] else [])) ++
  (if env.testSecretsUsable then [.testSecretsV1] else []) ++
  (if env.networkMaximum.isSome && env.enableNetworkPolicyV2 && env.enableTerminalEvidenceV2 &&
      !env.disableTerminalEvidence then [.networkPolicyV2, .networkAuthorityV2] else [])

/-- Features that the second network policy needs. -/
def networkRequirements : List ProtocolFeature :=
  [.durableLeaseAcknowledgements, .jobCorrelationV1, .terminalEvidenceV2, .networkPolicyV2,
    .networkAuthorityV2]

def validateAdvertisedFeatures (features : List ProtocolFeature) : Option String :=
  refuse (!decide features.Nodup) "runner capabilities contain a duplicate protocol feature" <|>
  refuse ((features.contains .networkPolicyV2 || features.contains .networkAuthorityV2) &&
      !networkRequirements.all features.contains)
    "runner network-v2 capabilities lack a required feature"

/-- The memory of a fresh stream. -/
def newSession (features : List ProtocolFeature) (authenticated : Authenticated)
    (generation : Nat) : Session where
  features := features
  authenticated := authenticated
  seen := []
  pendingHeartbeat := none
  reconciled := false
  settledEvents := []
  acknowledgedHeartbeats := []
  heartbeatDeferred := false
  generation := generation
  cancellationFinalUsageLease := none
  cancellationFinalUsageAttempt := none
  pendingSecret := none

def authenticateMessage : Handler RunnerMessage := do
  let empty ← runnerMessage env
  let credential := (← get).client.credential
  return { empty with payload := some (.authenticate env.runnerID env.instanceID credential) }

def capabilitiesMessage : Handler RunnerMessage := do
  let features := capabilities env (← get).client
  match validateAdvertisedFeatures features with
  | some text => plain text
  | none => do
    let empty ← runnerMessage env
    return { empty with payload := some (.capabilities features) }

/-- Opens a stream, up to the first turn of its loop. -/
def openSession (first : GatewayMessage) : Handler Unit := do
  record .opened
  send (← authenticateMessage env)
  if isSecretDelivery first then permanent "unsolicited test-secret delivery"
  else do
    let now ← readClock
    match validateAuthenticated env first now with
    | .error text => permanent text
    | .ok authenticated => do
      clearRecoveryCompleteLogTarget
      match ← attempt (reconcileCredentialRotationAfterAuthentication env) with
      | .error _ => permanent "credential rotation reconnect state failed"
      | .ok _ => do
        modifyClient fun client =>
          { client with sessionGeneration := client.sessionGeneration + 1 }
        let features := capabilities env (← get).client
        send (← capabilitiesMessage env)
        let generation := (← get).client.sessionGeneration
        modify fun world =>
          { world with session := newSession features authenticated generation }
        modifySession fun session => { session with
          seen := [(first.messageId, env.sha256 (env.encodeGateway first))] }
        replayPending env
        sendHeartbeat env now

/-- One message of the stream. -/
def deliver (rounds : Nat) (message : GatewayMessage) : Handler Unit := do
  record (.received message)
  if isSecretDelivery message && (← get).session.features.contains .testSecretsV1 then
    receiveSecretDelivery message
  else if ← gatewayMessageDuplicate env message then pure ()
  else do
    handleGatewayMessage env rounds message (← readClock)
    let world ← get
    if world.session.heartbeatDeferred && world.client.journal.pendingMessage.isNone then
      sendHeartbeat env (← readClock)

/-- The turn of the heartbeat ticker. -/
def tick (rounds : Nat) (time : Int) : Handler Unit := do
  record (.ticked time)
  sendHeartbeat env time
  advance env rounds time

/-- The turn of the maintenance ticker. -/
def maintain (rounds : Nat) : Handler Unit := do
  let now ← readClock
  record (.ticked now)
  advance env rounds now

/-- What a turn of the loop, the worker or the end of a stream does. -/
inductive Action where
  | openStream (first : GatewayMessage)
  | tick (time : Int)
  | maintain
  | takeWorkerEvent
  | deliver (message : GatewayMessage)
  | closeStream (transient : Bool)
  | work (event : WorkerEvent)
deriving DecidableEq, Repr

/-- The end of a stream withdraws the route that it fed. -/
def closed (world : World) : World :=
  { world with
    stage := .idle
    client := { world.client with
      workerNetworkAuthority := world.client.workerNetworkAuthority.map fun guard =>
        if guard.generation = world.session.generation then { guard with done := true }
        else guard }
    session := { world.session with pendingSecret := none } }

/-- After a handler the loop goes on, opens another stream, or gives up. -/
def conclude (ended : EStateM.Result Failure World Unit) : World :=
  match ended with
  | .ok _ world => { world with stage := .streaming }
  | .error failure world =>
    if failure.transient then closed world else { closed world with stage := .ended }

/-- The number of events that the worker's channel holds. -/
def workerChannelSize : Nat := 64

/-- The worker puts an event on its channel. With its result it is done. -/
def work (event : WorkerEvent) (job : JobSpecification) (world : World) : World :=
  match event with
  | .result result _ _ => { world with
      worker := none
      workerEvents := world.workerEvents ++ [event]
      trace := .finished job result :: world.trace }
  | _ => { world with workerEvents := world.workerEvents ++ [event] }

/-- How a turn of the process ends, if the turn is possible. -/
def turn (rounds : Nat) (action : Action) (world : World) :
    Option (EStateM.Result Failure World Unit) :=
  match action, world.stage with
  | .openStream first, .idle => some (openSession env first world)
  | .tick time, .streaming => some (tick env rounds time world)
  | .maintain, .streaming => some (maintain env rounds world)
  | .takeWorkerEvent, .streaming =>
    match world.workerEvents with
    | [] => none
    | event :: rest => some (handleWorkerEvent env event { world with workerEvents := rest })
  | .deliver message, .streaming => some (deliver env rounds message world)
  | .closeStream transient, .streaming => some (.error (.io transient) world)
  | _, _ => none

/-- The world after an action, if the action is possible. The worker acts beside the process. -/
def perform (rounds : Nat) (action : Action) (world : World) : Option World :=
  match action with
  | .work event =>
    match world.worker with
    | none => none
    | some job =>
      if world.stage = .ended ∨ workerChannelSize ≤ world.workerEvents.length then none
      else some (work event job world)
  | _ => (turn env rounds action world).map conclude

/-! ## The process -/

/-- The client that a process starts with. -/
def newClient (journal : JournalState) (credential : Bytes) (restartEvidence : Bool) : Client where
  journal := journal
  credential := credential
  draining := false
  workerRunning := false
  startResponse := none
  recovering := journal.active.isSome
  sessionGeneration := 0
  ephemeralSequence := 0
  activeUpload := none
  restartEvidence := journal.active.isSome && restartEvidence
  deferredWorkerEvents := []
  workerNetworkAuthority := none

/-- A process started on the given files, with the past in its trace. -/
def boot (journal : JournalState) (credential : Bytes) (restartEvidence : Bool)
    (responses : Nat → Response) (past : List Effect) : World where
  stage := .idle
  client := newClient journal credential restartEvidence
  session := newSession [] ⟨[], [], [], none, none, none, none, none⟩ 0
  file := journal
  credentialFile := credential
  worker := none
  workerEvents := []
  responses := responses
  consumed := 0
  trace := .booted journal credential :: past

/-- The journal file as a trace leaves it. -/
def fileAfter : List Effect → Option JournalState
  | [] => none
  | .booted journal _ :: _ => some journal
  | .committed _ journal :: _ => some journal
  | _ :: past => fileAfter past

/-- The credential file as a trace leaves it. -/
def credentialAfter : List Effect → Option Bytes
  | [] => none
  | .booted _ credential :: _ => some credential
  | .replaced credential :: _ => some credential
  | _ :: past => credentialAfter past

end ProvenanceRunner.Gateway
