import ProvenanceRunner.Gateway.Checks

/-! # The runner journal

The journal holds what the runner must not forget: the active job, one unacknowledged event, one
unacknowledged heartbeat, the counters of message identities and the state of a credential
rotation. It is kept in memory and in one file that is replaced as a whole.

Every caller of `update` passes a function that changes the state in place and may fail. The
functions that the client passes are the constructors of `JournalChange`; `JournalChange.apply`
answers the state as the function leaves it, together with its error. Stored messages are kept
decoded: what is stored decodes to what was encoded. -/

namespace ProvenanceRunner.Gateway

open Utf8

/-- How a handler stops. -/
inductive Failure where
  | permanent (text : String)
  | plain (text : String)
  | io (transient : Bool)
  | rotationReconnect
  | hostedRenewal
  | nilDereference
  | unfinished
deriving DecidableEq, Repr

/-- Whether the client opens another session after a failure. -/
def Failure.transient : Failure → Bool
  | .io transient => transient
  | .rotationReconnect | .hostedRenewal => true
  | _ => false

/-! ## State -/

structure JournalJob where
  specification : JobSpecification
  offerMessageID : Bytes
  offerDigest : Bytes
  jobCorrelationV1 : Bool
  terminalEvidenceV2 : Bool
  phase : JobPhase
  expiresAt : Int
  cancellationID : Bytes
  cancellationDeadline : Int
  cancellationDigest : Bytes
deriving DecidableEq, Repr

structure JournalCredentialRotation where
  runnerID : Bytes
  rotationID : Bytes
  fingerprint : Bytes
  issuedAt : Int
  expiresAt : Int
  reconnectBefore : Int
  persistedAt : Int
deriving DecidableEq, Repr

structure JournalCommittedCredential where
  runnerID : Bytes
  rotationID : Bytes
  fingerprint : Bytes
  issuedAt : Int
  expiresAt : Int
  persistedAt : Int
deriving DecidableEq, Repr

structure JournalState where
  schemaVersion : Bytes
  messageSequence : UInt64
  heartbeatSequence : UInt64
  active : Option JournalJob
  pendingMessage : Option RunnerMessage
  pendingHeartbeat : Option RunnerMessage
  credentialRotation : Option JournalCredentialRotation
  committedCredential : Option JournalCommittedCredential
deriving DecidableEq, Repr

def journalSchemaVersion : Bytes := encode "provenance.runner-journal/v1alpha1"

/-- The journal of a runner that has done nothing yet. -/
def emptyJournal : JournalState where
  schemaVersion := journalSchemaVersion
  messageSequence := 0
  heartbeatSequence := 0
  active := none
  pendingMessage := none
  pendingHeartbeat := none
  credentialRotation := none
  committedCredential := none

/-- The identity of the job that the journal holds. -/
def JournalJob.identity (job : JournalJob) : Option Identity :=
  identityOf job.specification.lease job.specification.attempt

def activeMatchesIdentity (active : Option JournalJob) (lease : Option LeaseIdentity)
    (attempt : Option AttemptIdentity) : Bool :=
  match active with
  | none => false
  | some job => sameLeaseAttempt job.specification.lease job.specification.attempt lease attempt

/-! ## Validity -/

inductive EvidenceVersion where
  | v1
  | v2
deriving DecidableEq, Repr

/-- Settings of the client, and the functions of other packages that the journal is checked with.
The runner identifier is a UUID that the configuration has put into lower case. -/
structure JournalEnvironment where
  runnerID : Bytes
  runnerID_canonical : isCanonicalUUID runnerID = true
  sha256 : Bytes → Bytes
  sha256_length : ∀ data, (sha256 data).length = 32
  specificationSize : JobSpecification → Nat
  messageSize : RunnerMessage → Nat
  validateSelection : JobSpecification → Bool
  frozenVersion : ExecutionEvidence → Option EvidenceVersion
  validateFrozen : EvidenceVersion → ExecutionEvidence → JobSpecification → Bytes → Bool

section

variable (env : JournalEnvironment)

def validateTerminalProof (message : RunnerMessage) (state : JournalState) (runnerID : Bytes) :
    Option String :=
  match terminalProof message, state.active with
  | none, _ => none
  | some _, none => some "terminal evidence requires active identity"
  | some proof, some job =>
    match env.frozenVersion proof with
    | none => some "terminal evidence is invalid"
    | some version =>
      refuse ((version == .v2) != job.terminalEvidenceV2)
        "terminal evidence version differs from executed job" <|>
      refuse (!env.validateFrozen version proof job.specification runnerID)
        "terminal evidence is invalid"

def validateJournalRunnerEnvelope (message : RunnerMessage) (messageSequence : UInt64) :
    Option String :=
  refuse ((validateIdentifier "runner messageId" message.messageId maximumIdentifierBytes).isSome ||
      (validateTimestamp "runner sentAt" message.sentAt).isSome ||
      decide (maximumMessageBytes < env.messageSize message))
    "runner message envelope is invalid" <|>
  match sequenceSuffix message.messageId with
  | none => some "runner message sequence suffix is invalid"
  | some sequence =>
    refuse (decide (sequence = 0 ∨ messageSequence.toNat < sequence))
      "runner message sequence exceeds the journal counter"

end

def rotationError (rotation : JournalCredentialRotation) : Option String :=
  refuse ((!rotation.runnerID.isEmpty && !isCanonicalUUID rotation.runnerID) ||
      !isCanonicalUUID rotation.rotationID || rotation.fingerprint.length != 32 ||
      decide (rotation.issuedAt = 0 ∨ rotation.expiresAt ≤ rotation.issuedAt ∨
        hour < rotation.expiresAt - rotation.issuedAt ∨
        rotation.reconnectBefore ≤ rotation.issuedAt ∨
        rotation.expiresAt ≤ rotation.reconnectBefore ∨
        5 * minute < rotation.reconnectBefore - rotation.issuedAt ∨
        (rotation.persistedAt ≠ 0 ∧
          rotation.persistedAt < rotation.issuedAt - maximumClockSkew)))
    "credential rotation state is invalid"

def committedError (committed : JournalCommittedCredential) : Option String :=
  refuse (!isCanonicalUUID committed.runnerID || !isCanonicalUUID committed.rotationID ||
      committed.fingerprint.length != 32 ||
      decide (committed.issuedAt = 0 ∨ committed.expiresAt = 0 ∨ committed.persistedAt = 0 ∨
        committed.expiresAt ≤ committed.issuedAt ∨
        hour < committed.expiresAt - committed.issuedAt ∨
        committed.persistedAt < committed.issuedAt - maximumClockSkew ∨
        committed.expiresAt ≤ committed.persistedAt))
    "committed credential state is invalid"

/-- A persisted rotation and the committed credential describe the same credential. -/
def sameCommitted (committed : JournalCommittedCredential)
    (rotation : JournalCredentialRotation) : Bool :=
  committed.runnerID == rotation.runnerID && committed.rotationID == rotation.rotationID &&
    committed.fingerprint == rotation.fingerprint && committed.issuedAt == rotation.issuedAt &&
    committed.expiresAt == rotation.expiresAt && committed.persistedAt == rotation.persistedAt

def credentialsError (state : JournalState) : Option String :=
  (state.credentialRotation.bind rotationError) <|>
  (state.committedCredential.bind committedError) <|>
  match state.committedCredential, state.credentialRotation with
  | some committed, some rotation =>
    refuse (rotation.persistedAt != 0 && !sameCommitted committed rotation)
      "committed credential conflicts with active rotation"
  | _, _ => none

def storedPhase (phase : JobPhase) : Bool :=
  match phase with
  | .accepted | .preparing | .running | .cancelling => true
  | _ => false

def cancellationError (job : JournalJob) : Option String :=
  (if job.cancellationID.isEmpty then
    refuse (!job.cancellationDigest.isEmpty || job.cancellationDeadline != 0)
      "cancellation journal fields require a cancellation ID"
  else if job.cancellationDigest.isEmpty then
    refuse (job.cancellationDeadline != 0)
      "authoritative cancellation without a command cannot have command payload fields"
  else
    refuse (job.cancellationDigest.length != 32 || job.cancellationDeadline == 0)
      "cancellation command digest and deadline are required") <|>
  refuse (!job.cancellationID.isEmpty && (validateIdentifier "cancellationId" job.cancellationID
    maximumIdentifierBytes).isSome) "active cancellation ID is invalid"

section

variable (env : JournalEnvironment)

def heartbeatError (state : JournalState) (message : RunnerMessage) : Option String :=
  refuse ((validateJournalRunnerEnvelope env message state.messageSequence).isSome ||
      match message.heartbeat? with
      | none => true
      | some heartbeat =>
        decide (heartbeat.sequence = 0 ∨ state.heartbeatSequence.toNat < heartbeat.sequence ∨
          1 < heartbeat.activeLeases.length) || heartbeat.capacity.isNone ||
          (validateTimestamp "heartbeat.observedAt" heartbeat.observedAt).isSome)
    "pending heartbeat is invalid"

def jobError (job : JournalJob) : Option String :=
  let specification := job.specification
  refuse (env.specificationSize specification == 0 ||
      decide (maximumMessageBytes < env.specificationSize specification))
    "active specification is missing or oversized" <|>
  match specification.lease, specification.attempt with
  | some lease, some attempt =>
    refuse ((validateTimestamp "active lease expiry" lease.expiresAt).isSome ||
        job.expiresAt != asTime lease.expiresAt || !identifiersValid lease attempt)
      "active specification identity or expiry is invalid" <|>
    refuse (!attemptNumberValid attempt || !validPaper specification.targetPluginName)
      "active specification attempt or target plugin identity is invalid" <|>
    refuse (validateOfferJobCorrelation specification .unspecified job.jobCorrelationV1).isSome
      "active specification job correlation negotiation is invalid" <|>
    refuse (!specification.testSecrets.isEmpty &&
        (!job.jobCorrelationV1 || !env.validateSelection specification))
      "active test-secret selection is invalid" <|>
    refuse (specification.dependencies.any fun name => !(name.any validPaper))
      "active specification dependency plugin identity is invalid" <|>
    refuse ((validateIdentifier "offer messageId" job.offerMessageID maximumIdentifierBytes).isSome
        || job.offerDigest.length != 32)
      "active offer identity or digest is invalid" <|>
    refuse (!storedPhase job.phase) "active phase is invalid" <|>
    cancellationError job
  | _, _ => some "active specification identity or expiry is invalid"

/-- The checks of an unacknowledged event. Without an active job it can only be a rejection. -/
def pendingError (state : JournalState) (message : RunnerMessage) : Option String :=
  match state.active with
  | none =>
    refuse ((validateJournalRunnerEnvelope env message state.messageSequence).isSome ||
        !message.isRejection)
      "a pending message without an active job must reject a lease"
  | some _ =>
    refuse ((validateJournalRunnerEnvelope env message state.messageSequence).isSome ||
        !durableRunnerMessage message)
      "pending runner message is not a durable lease event" <|>
    refuse (validateTerminalProof env message state []).isSome
      "pending terminal evidence is invalid" <|>
    refuse (!message.isRejection && !activeMatchesIdentity state.active
        (runnerMessageIdentity message).1 (runnerMessageIdentity message).2)
      "pending runner event does not match the active lease"

def validateJournalState (state : JournalState) : Option String :=
  refuse (state.schemaVersion != journalSchemaVersion) "schemaVersion is not supported" <|>
  credentialsError state <|>
  (state.pendingHeartbeat.bind (heartbeatError env state)) <|>
  (state.active.bind (jobError env)) <|>
  (state.pendingMessage.bind (pendingError env state))

/-- A state that passes every check. -/
def JournalState.Valid (state : JournalState) : Prop := validateJournalState env state = none

instance (state : JournalState) : Decidable (state.Valid env) :=
  inferInstanceAs (Decidable (_ = _))

end

theorem empty_valid (env : JournalEnvironment) : emptyJournal.Valid env := by
  rfl

/-! ## Changes -/

/-- What `queueDurable` does to the active job besides storing the event. -/
inductive Mutation where
  | keep
  | accept (job : JournalJob)
  | phase (phase : JobPhase)
deriving DecidableEq, Repr

inductive JournalChange where
  | nextMessageSequence
  | nextHeartbeatSequence
  | queueDurable (message : RunnerMessage) (mutation : Mutation)
  | clearPending
  | finish
  | reconcile (reconciliation : LeaseReconciliation)
  | recordCancellation (cancellation : CancelJob) (digest : Bytes)
  | storeHeartbeat (heartbeat : RunnerMessage)
  | clearHeartbeat
  | beginRotation (metadata : JournalCredentialRotation)
  | commitRotation (metadata : JournalCredentialRotation) (now : Int)
  | reconcileRotation (rotation : JournalCredentialRotation) (identityKey : Bool) (now : Int)
deriving DecidableEq, Repr

def sameCredentialRotation (left right : JournalCredentialRotation) : Bool :=
  (left.runnerID == right.runnerID || left.runnerID.isEmpty || right.runnerID.isEmpty) &&
    left.rotationID == right.rotationID && left.fingerprint == right.fingerprint &&
    left.issuedAt == right.issuedAt && left.expiresAt == right.expiresAt &&
    left.reconnectBefore == right.reconnectBefore

def validCredentialPredecessor (committed : JournalCommittedCredential)
    (pending : JournalCredentialRotation) : Bool :=
  committed.runnerID == pending.runnerID && committed.rotationID != pending.rotationID &&
    committed.fingerprint != pending.fingerprint &&
    decide (committed.issuedAt - maximumClockSkew ≤ pending.issuedAt) &&
    decide (committed.persistedAt - maximumClockSkew ≤ pending.issuedAt)

/-- The credential that a rotation binds once it is persisted. -/
def committedOf (runnerID : Bytes) (rotation : JournalCredentialRotation) (persistedAt : Int) :
    JournalCommittedCredential where
  runnerID := runnerID
  rotationID := rotation.rotationID
  fingerprint := rotation.fingerprint
  issuedAt := rotation.issuedAt
  expiresAt := rotation.expiresAt
  persistedAt := persistedAt

/-- A lease whose expiry is not earlier than the one already recorded. -/
def authoritativeLease (lease : LeaseIdentity) (recorded : Int) : LeaseIdentity :=
  if asTime lease.expiresAt < recorded then
    { lease with expiresAt := some (Timestamp.ofTime recorded) }
  else lease

/-- The job under the expiry and phase of a reconciliation. The phase is never lowered. -/
def reconciledJob (job : JournalJob) (lease : LeaseIdentity) (phase : JobPhase) : JournalJob :=
  { job with
    specification :=
      { job.specification with lease := some (authoritativeLease lease job.expiresAt) }
    expiresAt := max (asTime lease.expiresAt) job.expiresAt
    phase := if phase ≠ .unspecified ∧ jobPhaseRank job.phase ≤ jobPhaseRank phase then phase
      else job.phase }

/-- The job with an announced cancellation. -/
def cancellingJob (job : JournalJob) (cancellationID : Bytes) : JournalJob :=
  { job with cancellationID := cancellationID, phase := .cancelling }

section

variable (env : JournalEnvironment)

/-- What a change makes of the state, and the error it stops with. -/
def JournalChange.apply (change : JournalChange) (state : JournalState) :
    JournalState × Option Failure :=
  match change with
  | .nextMessageSequence =>
    if state.messageSequence = 0xFFFFFFFFFFFFFFFF then
      (state, some (.plain "runner message sequence is exhausted"))
    else ({ state with messageSequence := state.messageSequence + 1 }, none)
  | .nextHeartbeatSequence =>
    if state.heartbeatSequence = 0xFFFFFFFFFFFFFFFF then
      (state, some (.plain "heartbeat sequence is exhausted"))
    else ({ state with heartbeatSequence := state.heartbeatSequence + 1 }, none)
  | .queueDurable message mutation =>
    if state.pendingMessage.isSome then
      (state, some (.plain "runner already has an unacknowledged durable event"))
    else if (validateTerminalProof env message state env.runnerID).isSome then
      (state, some (.plain "terminal evidence does not match active job"))
    else match mutation, state.active with
      | .keep, _ => ({ state with pendingMessage := some message }, none)
      | .accept job, none =>
        ({ state with active := some job, pendingMessage := some message }, none)
      | .accept _, some _ =>
        (state, some (.plain "runner became busy while accepting the lease"))
      | .phase phase, some job =>
        ({ state with
            active := some { job with phase := phase }, pendingMessage := some message }, none)
      | .phase _, none => (state, some .nilDereference)
  | .clearPending => ({ state with pendingMessage := none }, none)
  | .finish => ({ state with active := none, pendingMessage := none }, none)
  | .reconcile reconciliation =>
    match state.active, reconciliation.lease with
    | some job, some lease =>
      if !activeMatchesIdentity state.active reconciliation.lease reconciliation.attempt then
        (state, some (.plain "active lease changed during reconciliation"))
      else
        let job := reconciledJob job lease reconciliation.phase
        if reconciliation.cancellationId.isEmpty then ({ state with active := some job }, none)
        -- The conflict is noticed after lease and phase have been replaced.
        else if !job.cancellationID.isEmpty && job.cancellationID != reconciliation.cancellationId
        then ({ state with active := some job },
          some (.plain "authoritative reconciliation changed the cancellation ID"))
        else ({ state with active := some (cancellingJob job reconciliation.cancellationId) }, none)
    | _, _ => (state, some (.plain "active lease changed during reconciliation"))
  | .recordCancellation cancellation digest =>
    match state.active with
    | none => (state, some .nilDereference)
    | some job =>
      ({ state with active := some { cancellingJob job cancellation.cancellationId with
          cancellationDeadline := asTime cancellation.deadline, cancellationDigest := digest } },
        none)
  | .storeHeartbeat heartbeat =>
    if state.pendingHeartbeat.isSome then
      (state, some (.plain "runner already has an unacknowledged heartbeat"))
    else ({ state with pendingHeartbeat := some heartbeat }, none)
  | .clearHeartbeat => ({ state with pendingHeartbeat := none }, none)
  | .beginRotation metadata =>
    match state.credentialRotation with
    | none => ({ state with credentialRotation := some metadata }, none)
    | some rotation =>
      if !sameCredentialRotation rotation metadata then
        (state, some (.plain "credential rotation identity conflicts with durable state"))
      else if rotation.runnerID.isEmpty then
        ({ state with
            credentialRotation := some { rotation with runnerID := metadata.runnerID } }, none)
      else (state, none)
  | .commitRotation metadata now =>
    match state.credentialRotation with
    | none => (state, some (.plain "credential rotation identity changed during persistence"))
    | some rotation =>
      if !sameCredentialRotation rotation metadata then
        (state, some (.plain "credential rotation identity changed during persistence"))
      else
        let persistedAt := if rotation.persistedAt = 0 then now else rotation.persistedAt
        ({ state with
            credentialRotation := some { rotation with persistedAt := persistedAt }
            committedCredential := some (committedOf env.runnerID metadata persistedAt) }, none)
  | .reconcileRotation rotation identityKey now =>
    match state.credentialRotation with
    | none => (state, none)
    | some current =>
      if !sameCredentialRotation current rotation then (state, none)
      else if !identityKey then ({ state with credentialRotation := none }, none)
      else if rotation.runnerID ≠ env.runnerID ∨ rotation.expiresAt ≤ now then
        (state, some (.plain "credential rotation is not bound to this runner"))
      else if rotation.persistedAt = 0 then
        if state.committedCredential.any (!validCredentialPredecessor · rotation) then
          (state, some (.plain "pending credential rotation conflicts with committed binding"))
        else
          ({ state with
              committedCredential := some (committedOf rotation.runnerID rotation now)
              credentialRotation := none }, none)
      else if state.committedCredential.isNone then
        (state, some (.plain "persisted credential rotation lacks a committed binding"))
      else ({ state with credentialRotation := none }, none)

/-! ## Updates -/

/-- What writing the file can end in: the file is replaced, it is left alone, or it is replaced and
an error is reported all the same because its directory could not be synced. -/
inductive Persisted where
  | done
  | refused (transient : Bool)
  | unsynced (transient : Bool)
deriving DecidableEq, Repr

/-- The two copies of the journal. -/
structure Journal where
  memory : JournalState
  file : JournalState
deriving DecidableEq, Repr

/-- The end of an update: both copies, whether the file was replaced, and the error. -/
structure Updated where
  journal : Journal
  committed : Bool
  failure : Option Failure
deriving DecidableEq, Repr

def Journal.update (journal : Journal) (change : JournalChange) (persisted : Persisted) :
    Updated :=
  match change.apply env journal.memory with
  | (state, some failure) => ⟨⟨state, journal.file⟩, false, some failure⟩
  | (state, none) =>
    match validateJournalState env state with
    | some text => ⟨journal, false, some (.plain text)⟩
    | none =>
      match persisted with
      | .done => ⟨⟨state, state⟩, true, none⟩
      | .refused transient => ⟨journal, false, some (.io transient)⟩
      | .unsynced transient => ⟨⟨state, state⟩, true, some (.io transient)⟩

/-- The error that a committed update reports. -/
def Persisted.report : Persisted → Option Failure
  | .unsynced transient => some (.io transient)
  | _ => none

/-- The three ends of an update: the change fails, it is taken back, or it is committed. -/
theorem Journal.update_cases (journal : Journal) (change : JournalChange) (persisted : Persisted) :
    (∃ state failure, change.apply env journal.memory = (state, some failure) ∧
      journal.update env change persisted = ⟨⟨state, journal.file⟩, false, some failure⟩) ∨
    (∃ failure, (failure.transient = true → persisted = .refused true) ∧
      failure ≠ .nilDereference ∧ failure ≠ .unfinished ∧
      journal.update env change persisted = ⟨journal, false, some failure⟩) ∨
    (∃ state, change.apply env journal.memory = (state, none) ∧ state.Valid env ∧
      (∀ transient, persisted ≠ .refused transient) ∧
      journal.update env change persisted = ⟨⟨state, state⟩, true, persisted.report⟩) := by
  rcases applied : change.apply env journal.memory with ⟨state, _ | failure⟩
  · cases checked : validateJournalState env state with
    | some text =>
      exact Or.inr (Or.inl ⟨.plain text, by
        simp [Journal.update, applied, checked, Failure.transient]⟩)
    | none =>
      cases persisted with
      | refused transient =>
        exact Or.inr (Or.inl ⟨.io transient, by
          simp [Journal.update, applied, checked, Failure.transient]⟩)
      | _ =>
        exact Or.inr (Or.inr ⟨state, rfl, checked, by simp, by
          simp [Journal.update, applied, checked, Persisted.report]⟩)
  · exact Or.inl ⟨state, failure, rfl, by simp [Journal.update, applied]⟩

end

/-! ## A sample

A small job and an environment in which the checks of other packages accept everything. -/

/-- The UUID that repeats one digit. -/
def sampleUUID (digit : UInt8) : Bytes :=
  let group (size : Nat) : Bytes := List.replicate size digit
  group 8 ++ 0x2D :: group 4 ++ 0x2D :: group 4 ++ 0x2D :: group 4 ++ 0x2D :: group 12

def sampleEnvironment : JournalEnvironment where
  runnerID := sampleUUID 0x31
  runnerID_canonical := by decide +kernel
  sha256 data := (data ++ List.replicate 32 0).take 32
  sha256_length data := by simp
  specificationSize _ := 1
  messageSize _ := 1
  validateSelection _ := true
  frozenVersion _ := some .v1
  validateFrozen _ _ _ _ := true

/-- A lease that runs until the given second of the Unix era. -/
def sampleLease (seconds : Int) : LeaseIdentity where
  leaseId := sampleUUID 0x32
  jobId := sampleUUID 0x33
  executionId := sampleUUID 0x34
  expiresAt := some ⟨seconds, 0⟩

def sampleAttempt : AttemptIdentity where
  attemptId := sampleUUID 0x35
  attemptNumber := 1
  releaseCandidateId := sampleUUID 0x36
  matrixEntryId := sampleUUID 0x37

def sampleSpecification (seconds : Int) : JobSpecification where
  lease := some (sampleLease seconds)
  attempt := some sampleAttempt
  targetPluginName := [0x61]
  dependencies := []
  jobCorrelation := none
  testSecrets := []
  effectivePolicy := none
  completeLogUpload := none
  payload := []

/-- A job in the given phase, under the given announced cancellation. -/
def sampleJob (seconds : Int) (phase : JobPhase) (cancellationID : Bytes) : JournalJob where
  specification := sampleSpecification seconds
  offerMessageID := [0x6F]
  offerDigest := List.replicate 32 0
  jobCorrelationV1 := false
  terminalEvidenceV2 := false
  phase := phase
  expiresAt := (Timestamp.mk seconds 0).asTime
  cancellationID := cancellationID
  cancellationDeadline := 0
  cancellationDigest := []

/-- A journal that holds a job and no unacknowledged event. -/
def sampleJournal (job : JournalJob) : JournalState := { emptyJournal with active := some job }

example : (sampleJournal (sampleJob 100 .running [0x63])).Valid sampleEnvironment := by
  decide +kernel

end ProvenanceRunner.Gateway
