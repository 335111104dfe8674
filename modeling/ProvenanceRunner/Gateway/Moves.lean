import ProvenanceRunner.Gateway.Dispatch

/-! # Moves of the client

An abstract account of what the handlers do to the durable state, to the answers of start requests
and to the worker's events. A `Core` is the part of the world that matters for that. A `Move` is one
change of it together with the reason for which the client makes it: a commit of the journal names
the change, and an event that is queued names where it comes from.

Some things the client does only in unusual circumstances. A `Licence` says which of them are
allowed; the invariants of later modules hold under the licences that they do not need. -/

namespace ProvenanceRunner.Gateway

open Utf8

/-! ## The core of a world -/

/-- The journal, what the process remembers about the job, and the history. -/
structure Books where
  journal : JournalState
  file : JournalState
  credential : Bytes
  recovering : Bool
  startResponse : Option Nat
  pendingHeartbeat : Option RunnerMessage
  trace : List Effect
deriving DecidableEq

/-- The worker, its events, and the answers that the outside has in store. -/
structure Hands where
  worker : Option JobSpecification
  workerRunning : Bool
  workerEvents : List WorkerEvent
  deferred : List WorkerEvent
  outside : Nat → Response

structure Core where
  books : Books
  hands : Hands

def booksOf (world : World) : Books where
  journal := world.client.journal
  file := world.file
  credential := world.client.credential
  recovering := world.client.recovering
  startResponse := world.client.startResponse
  pendingHeartbeat := world.session.pendingHeartbeat
  trace := world.trace

def handsOf (world : World) : Hands where
  worker := world.worker
  workerRunning := world.client.workerRunning
  workerEvents := world.workerEvents
  deferred := world.client.deferredWorkerEvents
  outside := world.responses

def coreOf (world : World) : Core := ⟨booksOf world, handsOf world⟩

def Books.log (books : Books) (effect : Effect) : Books :=
  { books with trace := effect :: books.trace }

/-- Both copies of the journal are replaced. -/
def Books.commit (books : Books) (change : JournalChange) (state : JournalState) : Books :=
  { books with
    journal := state
    file := state
    trace := .committed change state :: books.trace }

/-- A waiting start request is refused. -/
def Books.failStart (books : Books) : Books :=
  match books.startResponse with
  | none => books
  | some channel => { books with
      startResponse := none
      trace := .answered channel false books.journal books.recovering :: books.trace }

/-! ## Reading the history -/

/-- What the process was last woken by. -/
def wokenBy : List Effect → Option Effect
  | [] => none
  | .opened :: _ => some .opened
  | .ticked time :: _ => some (.ticked time)
  | .received message :: _ => some (.received message)
  | .took event :: _ => some (.took event)
  | .booted journal credential :: _ => some (.booted journal credential)
  | _ :: past => wokenBy past

/-- The process is handling an acknowledgement of the event. -/
def Acknowledging (trace : List Effect) (message : RunnerMessage)
    (reconciliation : LeaseReconciliation) : Prop :=
  ∃ envelope acknowledgement, wokenBy trace = some (.received envelope) ∧
    envelope.payload = some (.eventAcknowledgement acknowledgement) ∧
    acknowledgement.runnerMessageId = message.messageId ∧
    acknowledgement.reconciliation = some reconciliation

def RunnerMessage.isAcceptance (message : RunnerMessage) : Prop :=
  ∃ event, message.payload = some (.leaseAccepted event)

def RunnerMessage.isPreparing (message : RunnerMessage) : Prop :=
  ∃ event, message.payload = some (.jobPreparing event)

def RunnerMessage.isStarted (message : RunnerMessage) : Prop :=
  ∃ event, message.payload = some (.jobStarted event)

/-- A message outside of the journal's numbering. -/
def RunnerMessage.isLive (message : RunnerMessage) : Prop :=
  (∃ batch, message.payload = some (.logBatch batch)) ∨
  (∃ report, message.payload = some (.usage report)) ∨
  (∃ lease attempt, message.payload = some (.testSecretsRequest lease attempt))

/-- The messages that the journal keeps until they are acknowledged: events and heartbeats. -/
def RunnerMessage.isRetained (message : RunnerMessage) : Bool :=
  durableRunnerMessage message || message.heartbeat?.isSome

section

variable (env : Environment)

/-- The identity that the journal's counter stands at. -/
def currentId (state : JournalState) : Bytes :=
  numberedId (env.sha256 env.instanceID) state.messageSequence

/-- The last thing that happened was that the counter moved on. -/
def JustNumbered (books : Books) (past : List Effect) : Prop :=
  books.trace = .committed .nextMessageSequence books.journal :: past

/-- The message has the identity that was taken from the counter just before. -/
def Fresh (books : Books) (message : RunnerMessage) : Prop :=
  (∃ past, JustNumbered books past) ∧ message.messageId = currentId env books.journal

/-- A message that may be handed to the stream. -/
def Sendable (books : Books) (message : RunnerMessage) : Prop :=
  books.journal.pendingMessage = some message ∨ books.pendingHeartbeat = some message ∨
    (Fresh env books message ∧ message.isRetained = false) ∨ message.isLive

/-- The pending event has just been cleared. -/
def JustCleared (books : Books) (message : RunnerMessage) : Prop :=
  ∃ past before, books.trace = .committed .clearPending books.journal :: past ∧
    fileAfter past = some before ∧ before.pendingMessage = some message

/-- The same event under a new identity of its lease and at another time. -/
def Reissues (older newer : RunnerMessage) : Prop :=
  ∃ payload lease attempt now, older.payload = some payload ∧
    newer.payload = reissued payload lease attempt now ∧ newer.payload ≠ none ∧
    identityOf lease attempt = identityOf (runnerMessageIdentity older).1
      (runnerMessageIdentity older).2

/-! ## Licences -/

/-- What is allowed besides the regular course: to lower the phase of a job, to leave a start
request waiting beside a recorded cancellation, to clear an event that ends the job without putting
another in its place, and to begin a rotation that is no proper successor. -/
structure Licence where
  phaseDrop : Prop
  lateAnswer : Prop
  lostEnd : Prop
  odd : Prop

def Licence.all : Licence := ⟨True, True, True, True⟩

/-- A rotation that may follow the committed credential: it is issued later, for the same runner,
with a different credential, and it does not expire earlier. -/
def Succeeds (committed : Option JournalCommittedCredential)
    (rotation : JournalCredentialRotation) : Prop :=
  ∀ current, committed = some current →
    validCredentialPredecessor current rotation = true ∧ current.expiresAt ≤ rotation.expiresAt

variable (licence : Licence)

/-- Where an event comes from that is queued without a worker's result. -/
def Origin (core : Core) (message : RunnerMessage) (mutation : Mutation) : Prop :=
  match mutation with
  | .accept job => message.isAcceptance ∧ core.hands.workerRunning = false ∧
      job.phase = .accepted ∧ job.cancellationID = [] ∧
      job.identity = identityOf (runnerMessageIdentity message).1 (runnerMessageIdentity message).2
  | .phase phase =>
    (phase = .preparing ∧ message.isPreparing ∧ core.books.recovering = false ∧
      (∃ settled past, settled.isAcceptance ∧
        JustNumbered core.books (.settled settled :: past)) ∧
      ∀ job, core.books.journal.active = some job →
        job.cancellationID = [] ∧ (licence.phaseDrop ∨ jobPhaseRank job.phase ≤ 2)) ∨
    (phase = .running ∧ message.isStarted ∧
      (∃ channel past, JustNumbered core.books (.awaited channel :: past)) ∧
      ∀ job, core.books.journal.active = some job → job.cancellationID = [])
  | .keep =>
    (∃ event, message.payload = some (.leaseRejected event)) ∨
    (∃ event, message.payload = some (.leaseRenewal event)) ∨
    (∃ event, message.payload = some (.failed event)) ∨
    (∃ event, message.payload = some (.cancelled event) ∧ core.hands.workerRunning = false ∧
      core.hands.deferred = [] ∧
      ∃ job, core.books.journal.active = some job ∧ job.cancellationID ≠ []) ∨
    (∃ settled past, settled.endsJob = false ∧ Reissues settled message ∧
      JustNumbered core.books (.settled settled :: past))

/-- The changes that are committed one at a time. -/
def Permitted (core : Core) (change : JournalChange) : Prop :=
  match change with
  | .nextMessageSequence | .nextHeartbeatSequence | .clearHeartbeat | .finish => True
  | .storeHeartbeat message =>
    Fresh env core.books message ∧ message.heartbeat?.isSome
  | .clearPending =>
    ∀ message, core.books.journal.pendingMessage = some message → message.endsJob = true →
      licence.lostEnd
  | .reconcile reconciliation => reconciliation.cancellationId = [] ∧
      reconciliation.phase ≠ .cancelling
  | .recordCancellation _ _ => False
  | .queueDurable message mutation =>
    Fresh env core.books message ∧ Origin licence core message mutation
  | .beginRotation metadata => metadata.runnerID = env.runnerID ∧ metadata.persistedAt = 0 ∧
      (licence.odd ∨ core.books.journal.credentialRotation ≠ none ∨
        Succeeds core.books.journal.committedCredential metadata)
  | .commitRotation metadata _ => metadata.runnerID = env.runnerID ∧
      ∃ credential past, env.sha256 credential = metadata.fingerprint ∧
        core.books.trace = .replaced credential :: past
  | .reconcileRotation rotation identityKey _ => identityKey = env.identityKeyFile ∧
      core.books.journal.credentialRotation = some rotation ∧
      env.sha256 core.books.credential = rotation.fingerprint

/-- A change that records a cancellation of the active job. -/
def Cancels (state : JournalState) (change : JournalChange) : Prop :=
  match change with
  | .reconcile reconciliation => reconciliation.cancellationId ≠ []
  | .recordCancellation cancellation _ => cancellation.cancellationId ≠ [] ∧
      ∀ job, state.active = some job →
        job.cancellationID = [] ∨ job.cancellationID = cancellation.cancellationId
  | _ => False

/-- An entry of the history that goes with no other change. -/
def Quiet (books : Books) (effect : Effect) : Prop :=
  match effect with
  | .opened | .ticked _ | .received _ | .took _ | .evidence _ => True
  | .sent message => Sendable env books message
  | .settled message => JustCleared books message
  | .answered _ granted journal recovering =>
    granted = false ∧ journal = books.journal ∧ recovering = books.recovering
  | _ => False

end

/-! ## The worker's events -/

/-- An event is taken from the channel or from the deferred ones. With the result of a worker the
worker counts as stopped. -/
inductive Consumes (event : WorkerEvent) : Hands → Hands → Prop where
  | channel (hands : Hands) (rest : List WorkerEvent) (next : hands.workerEvents = event :: rest) :
    Consumes event hands { hands with
      workerEvents := rest
      workerRunning := if event matches .result .. then false else hands.workerRunning }
  | deferred (hands : Hands) (rest : List WorkerEvent) (next : hands.deferred = event :: rest) :
    Consumes event hands { hands with
      deferred := rest
      workerRunning := if event matches .result .. then false else hands.workerRunning }

/-- The event that reports a result is its outcome, the expiry of the lease or the cancellation,
which then tells whether the cleanup succeeded. -/
def Reports (result : WorkerResult) (message : RunnerMessage) : Prop :=
  message.endsJob = true ∧ ∀ event, message.payload = some (.cancelled event) →
    event.cleanupCompleted = result.cleanup.any (·.succeeded)

/-! ## Moves -/

section

variable (env : Environment) (licence : Licence)

/-- The change turns the books into these. -/
def Commits (books : Books) (change : JournalChange) (state : JournalState) : Prop :=
  change.apply env.toJournalEnvironment books.journal = (state, none) ∧
    state.Valid env.toJournalEnvironment

inductive Move : Core → Core → Prop where
  /-- Something is noted in the history. -/
  | note (books : Books) (hands : Hands) (effect : Effect) (quiet : Quiet env books effect) :
    Move ⟨books, hands⟩ ⟨books.log effect, hands⟩
  /-- The journal is changed. -/
  | commit (books : Books) (hands : Hands) (change : JournalChange) (state : JournalState)
    (commits : Commits env books change state)
    (permitted : Permitted env licence ⟨books, hands⟩ change) :
    Move ⟨books, hands⟩ ⟨books.commit change state, hands⟩
  /-- A cancellation is recorded and a waiting start request is refused. -/
  | cancel (books : Books) (hands : Hands) (change : JournalChange) (state : JournalState)
    (commits : Commits env books change state) (cancels : Cancels books.journal change) :
    Move ⟨books, hands⟩ ⟨(books.commit change state).failStart, hands⟩
  /-- A cancellation is recorded, but the write reports an error. -/
  | cancelLate (books : Books) (hands : Hands) (change : JournalChange) (state : JournalState)
    (commits : Commits env books change state) (cancels : Cancels books.journal change)
    (allowed : licence.lateAnswer) :
    Move ⟨books, hands⟩ ⟨books.commit change state, hands⟩
  /-- An event that ends the job is cleared and queued again. -/
  | reissue (books : Books) (hands : Hands) (older newer : RunnerMessage)
    (cleared numbered queued : JournalState)
    (pending : books.journal.pendingMessage = some older) (ends : older.endsJob = true)
    (clears : Commits env books .clearPending cleared)
    (numbers : Commits env (books.commit .clearPending cleared) .nextMessageSequence numbered)
    (queues : Commits env (((books.commit .clearPending cleared).log (.settled older)).commit
      .nextMessageSequence numbered) (.queueDurable newer .keep) queued)
    (identity : newer.messageId = currentId env numbered) (again : Reissues older newer) :
    Move ⟨books, hands⟩ ⟨(((books.commit .clearPending cleared).log (.settled older)).commit
      .nextMessageSequence numbered).commit (.queueDurable newer .keep) queued, hands⟩
  /-- A start request is going to be reported. -/
  | await (books : Books) (before after : Hands) (channel : Nat)
    (consumes : Consumes (.start channel) before after)
    (free : books.journal.pendingMessage = none)
    (running : ∃ job, books.journal.active = some job ∧ job.cancellationID = []) :
    Move ⟨books, before⟩
      ⟨{ books.log (.awaited channel) with startResponse := some channel }, after⟩
  /-- A waiting start request is refused. -/
  | fail (books : Books) (hands : Hands) : Move ⟨books, hands⟩ ⟨books.failStart, hands⟩
  /-- A waiting start request is granted. -/
  | grant (books : Books) (hands : Hands) (channel : Nat) (settled : RunnerMessage)
    (reconciliation : LeaseReconciliation) (job : JournalJob) (past : List Effect)
    (waiting : books.startResponse = some channel)
    (cleared : books.trace = .settled settled :: past) (started : settled.isStarted)
    (acknowledging : Acknowledging past settled reconciliation)
    (applied : reconciliation.disposition ≠ .stale ∧ reconciliation.status = .active ∧
      reconciliation.phase = .running)
    (active : books.journal.active = some job)
    (matching : activeMatchesIdentity (some job) reconciliation.lease
      reconciliation.attempt = true)
    (fresh : books.recovering = false) :
    Move ⟨books, hands⟩ ⟨{ books.log (.answered channel true books.journal books.recovering) with
      startResponse := none }, hands⟩
  /-- The worker is started. -/
  | launch (books : Books) (hands : Hands) (settled : RunnerMessage) (job : JournalJob)
    (past : List Effect) (cleared : books.trace = .settled settled :: past)
    (prepared : settled.isPreparing) (fresh : books.recovering = false)
    (active : books.journal.active = some job) (idle : hands.workerRunning = false) :
    Move ⟨books, hands⟩ ⟨books.log (.launched job.specification),
      { hands with worker := some job.specification, workerRunning := true }⟩
  /-- An event of the worker needs nothing more. -/
  | dismiss (books : Books) (before after : Hands) (event : WorkerEvent)
    (consumes : Consumes event before after)
    (settled : (∃ result evidence usage, event = .result result evidence usage) →
      books.journal.active = none) :
    Move ⟨books, before⟩ ⟨books, after⟩
  /-- An event of the worker has to wait. -/
  | postpone (books : Books) (before after : Hands) (event : WorkerEvent)
    (consumes : Consumes event before after) :
    Move ⟨books, before⟩ ⟨books, { after with deferred := after.deferred ++ [event] }⟩
  /-- A result is reported. -/
  | report (books : Books) (before after : Hands) (result : WorkerResult)
    (evidence usage : Option WorkerEvidence) (message : RunnerMessage) (state : JournalState)
    (consumes : Consumes (.result result evidence usage) before after)
    (commits : Commits env books (.queueDurable message .keep) state)
    (fresh : Fresh env books message) (reports : Reports result message) :
    Move ⟨books, before⟩ ⟨books.commit (.queueDurable message .keep) state, after⟩
  /-- Events that waited are discarded with their job. -/
  | discard (books : Books) (hands : Hands) (gone : books.journal.active = none) :
    Move ⟨books, hands⟩ ⟨books, { hands with deferred := [] }⟩
  /-- The process no longer counts as recovering. -/
  | recover (books : Books) (hands : Hands)
    (settled : books.journal.active = none ∨
      ∃ message, books.journal.pendingMessage = some message ∧ message.endsJob = true) :
    Move ⟨books, hands⟩ ⟨{ books with recovering := false }, hands⟩
  /-- The session takes up the stored heartbeat, or has none. -/
  | heartbeat (books : Books) (hands : Hands) (message : Option RunnerMessage)
    (known : message = none ∨ message = books.journal.pendingHeartbeat) :
    Move ⟨books, hands⟩ ⟨{ books with pendingHeartbeat := message }, hands⟩
  /-- The credential file is replaced. -/
  | replace (books : Books) (hands : Hands) (credential : Bytes)
    (metadata : JournalCredentialRotation) (past : List Effect)
    (begun : books.trace = .committed (.beginRotation metadata) books.journal :: past)
    (named : env.sha256 credential = metadata.fingerprint) (nonempty : credential ≠ []) :
    Move ⟨books, hands⟩
      ⟨{ books.log (.replaced credential) with credential := credential }, hands⟩
  /-- The worker puts an event on its channel. -/
  | emit (books : Books) (hands : Hands) (event : WorkerEvent) (job : JobSpecification)
    (alive : hands.worker = some job)
    (going : ∀ result evidence usage, event ≠ .result result evidence usage) :
    Move ⟨books, hands⟩
      ⟨books, { hands with workerEvents := hands.workerEvents ++ [event] }⟩
  /-- The worker ends. -/
  | finish (books : Books) (hands : Hands) (result : WorkerResult)
    (evidence usage : Option WorkerEvidence) (job : JobSpecification)
    (alive : hands.worker = some job) :
    Move ⟨books, hands⟩ ⟨books.log (.finished job result), { hands with
      worker := none, workerEvents := hands.workerEvents ++ [.result result evidence usage] }⟩

/-- The core of a process that has just been started. -/
def bootedCore (journal : JournalState) (credential : Bytes) (outside : Nat → Response)
    (past : List Effect) : Core where
  books :=
    { journal := journal
      file := journal
      credential := credential
      recovering := journal.active.isSome
      startResponse := none
      pendingHeartbeat := none
      trace := .booted journal credential :: past }
  hands :=
    { worker := none
      workerRunning := false
      workerEvents := []
      deferred := []
      outside := outside }

/-- The cores that can be reached from an initial journal, with crashes at any point of the
history. -/
inductive Reach (initial : JournalState → Bytes → Prop) : Core → Prop where
  | boot (journal : JournalState) (credential : Bytes) (outside : Nat → Response)
    (begins : initial journal credential) (valid : journal.Valid env.toJournalEnvironment) :
    Reach initial (bootedCore journal credential outside [])
  | move (core next : Core) (reached : Reach initial core) (moves : Move env licence core next) :
    Reach initial next
  | answers (books : Books) (hands : Hands) (outside : Nat → Response)
    (reached : Reach initial ⟨books, hands⟩) :
    Reach initial ⟨books, { hands with outside := outside }⟩
  | reboot (core : Core) (past : List Effect) (journal : JournalState) (credential : Bytes)
    (outside : Nat → Response) (reached : Reach initial core)
    (crashed : past <:+ core.books.trace) (file : fileAfter past = some journal)
    (stored : credentialAfter past = some credential)
    (valid : journal.Valid env.toJournalEnvironment) :
    Reach initial (bootedCore journal credential outside past)

abbrev Moves : Core → Core → Prop := Relation.ReflTransGen (Move env licence)

variable {env licence}

theorem Consumes.outside {event : WorkerEvent} {before after : Hands}
    (consumes : Consumes event before after) : after.outside = before.outside := by
  cases consumes <;> rfl

theorem Move.outside {core next : Core} (moves : Move env licence core next) :
    next.hands.outside = core.hands.outside := by
  cases moves with
  | await books before after channel consumes | dismiss books before after event consumes
  | postpone books before after event consumes => exact consumes.outside
  | report books before after result evidence usage message state consumes =>
    exact consumes.outside
  | _ => rfl

/-- The answers of the outside are used, not changed. -/
theorem Moves.outside {core next : Core} (moves : Moves env licence core next) :
    next.hands.outside = core.hands.outside := by
  induction moves with
  | refl => rfl
  | tail _ last induction => exact last.outside.trans induction

end

end ProvenanceRunner.Gateway
