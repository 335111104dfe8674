import ProvenanceRunner.Gateway.TurnMoves

/-! # Runs

A run starts a process on some files and then performs actions. Every action comes with the answers
that the outside gives during it. At any point of its history the process can crash; the next one
starts on the files as that part of the history leaves them. A restart refuses a journal that is not
valid.

The main result is that a run is a history of moves: the world that a run reaches has the core that
the moves reach, as long as the process has not given up. -/

namespace ProvenanceRunner.Gateway

open Utf8 Programs

variable (env : Environment)

/-- The world with fresh answers of the outside. -/
def World.before (world : World) (outside : Nat → Response) : World :=
  { world with responses := outside, consumed := 0 }

/-- The worlds that a run reaches from an initial journal and credential file when each of its
actions is allowed in the world in which it is performed. -/
inductive Run (initial : JournalState → Bytes → Prop) (allowed : World → Action → Prop) :
    World → Prop where
  | start (journal : JournalState) (credential : Bytes) (restartEvidence : Bool)
    (outside : Nat → Response) (begins : initial journal credential)
    (valid : journal.Valid env.toJournalEnvironment) :
    Run initial allowed (boot journal credential restartEvidence outside [])
  | act (world next : World) (rounds : Nat) (outside : Nat → Response) (action : Action)
    (reached : Run initial allowed world) (regular : allowed (world.before outside) action)
    (performed : perform env rounds action (world.before outside) = some next) :
    Run initial allowed next
  | crash (world : World) (past : List Effect) (journal : JournalState) (credential : Bytes)
    (restartEvidence : Bool) (outside : Nat → Response) (reached : Run initial allowed world)
    (crashed : past <:+ world.trace) (file : fileAfter past = some journal)
    (stored : credentialAfter past = some credential)
    (valid : journal.Valid env.toJournalEnvironment) :
    Run initial allowed (boot journal credential restartEvidence outside past)

variable {env} {licence : Licence} {world : World}

/-! ## One action -/

/-- What an action may not bring about without a licence. -/
structure Disciplined (env : Environment) (licence : Licence) (world : World) (action : Action) :
    Prop where
  delivery : ∀ message, action = .deliver message →
    Orderly env licence world.client.journal world.responses message

theorem acts_takeWorkerEvent (event : WorkerEvent) (rest : List WorkerEvent)
    (next : world.workerEvents = event :: rest) :
    Acts env licence coreOf (coreOf world) (handleWorkerEvent env event)
      { world with workerEvents := rest } fun _ _ => True := by
  refine acts_handleWorkerEvent event (.channel (handsOf world) rest next) .refl ?_
  cases event <;> rfl

/-- Every turn is a sequence of moves. -/
theorem acts_turn (rounds : Nat) (action : Action) (ended : EStateM.Result Failure World Unit)
    (sound : (coreOf world).books.Sound env) (disciplined : Disciplined env licence world action)
    (turned : turn env rounds action world = some ended) :
    Acts env licence coreOf (coreOf world) (fun _ => ended) world fun _ _ => True := by
  have of_acts {program : Handler Unit} {begun : World}
      (acts : Acts env licence coreOf (coreOf world) program begun fun _ _ => True)
      (same : program begun = ended) :
      Acts env licence coreOf (coreOf world) (fun _ => ended) world fun _ _ => True := by
    unfold Acts Ends at acts ⊢
    rw [same] at acts
    exact acts
  unfold turn at turned
  split at turned
  · exact of_acts (acts_openSession _) (Option.some.inj turned)
  · exact of_acts (acts_tick rounds _) (Option.some.inj turned)
  · exact of_acts (acts_maintain rounds) (Option.some.inj turned)
  · split at turned
    · simp at turned
    · rename_i event rest next
      exact of_acts (acts_takeWorkerEvent event rest next) (Option.some.inj turned)
  · exact of_acts (acts_deliver rounds _ sound (disciplined.delivery _ rfl))
      (Option.some.inj turned)
  · obtain rfl := Option.some.inj turned
    exact ⟨by simp, _, .refl, Or.inl List.suffix_rfl, fun _ => rfl⟩
  · simp at turned

/-- An action takes the core to the core of the next world, or the process gives up and its history
is covered. -/
theorem perform_moves (rounds : Nat) (action : Action) (next : World)
    (sound : (coreOf world).books.Sound env) (disciplined : Disciplined env licence world action)
    (performed : perform env rounds action world = some next) :
    ∃ core, Moves env licence (coreOf world) core ∧ Covers licence core next.trace ∧
      (next.stage ≠ .ended → core = coreOf next) := by
  have turns (turned : (turn env rounds action world).map conclude = some next) :
      ∃ core, Moves env licence (coreOf world) core ∧ Covers licence core next.trace ∧
        (next.stage ≠ .ended → core = coreOf next) := by
    obtain ⟨ended, turn, rfl⟩ := Option.map_eq_some_iff.1 turned
    have reached := acts_turn rounds action ended sound disciplined turn
    cases ended with
    | ok _ final => exact ⟨coreOf final, reached.1, Or.inl List.suffix_rfl, fun _ => rfl⟩
    | error =>
      obtain ⟨_, core, moves, covers, transient⟩ := reached
      unfold conclude
      dsimp only
      split
      · rename_i survived
        exact ⟨core, moves, covers, fun _ => transient survived⟩
      · exact ⟨core, moves, covers, fun going => absurd rfl going⟩
  unfold perform at performed
  split at performed
  · rename_i event
    split at performed
    · simp at performed
    rename_i job alive
    split at performed
    · simp at performed
    obtain rfl := Option.some.inj performed
    refine ⟨_, ?_, Or.inl List.suffix_rfl, fun _ => rfl⟩
    cases event with
    | result result evidence usage =>
      exact .single (.finish (booksOf world) (handsOf world) result evidence usage job alive)
    | _ => exact .single (.emit (booksOf world) (handsOf world) _ job alive (by simp))
  · exact turns performed

/-! ## Whole runs -/

variable {initial : JournalState → Bytes → Prop} {allowed : World → Action → Prop}

theorem Reach.moves {core next : Core} (reached : Reach env licence initial core)
    (moves : Moves env licence core next) :
    Reach env licence initial next := by
  induction moves with
  | refl => exact reached
  | tail _ last induction => exact .move _ _ induction last

theorem perform_going (world : World) (rounds : Nat) (action : Action) (next : World)
    (performed : perform env rounds action world = some next) : world.stage ≠ .ended := by
  intro ended
  unfold perform at performed
  split at performed
  · split at performed
    · simp at performed
    · simp [ended] at performed
  · simp [turn, ended] at performed

/-- A run reaches what the moves reach, as far as its actions are disciplined. -/
theorem Run.reach (licence : Licence) (free : licence.lostEnd)
    (disciplined : ∀ world action, allowed world action → Disciplined env licence world action)
    (reached : Run env initial allowed world) :
    ∃ core, Reach env licence initial core ∧ world.trace <:+ core.books.trace ∧
      (world.stage ≠ .ended → core = coreOf world) := by
  induction reached with
  | start journal credential restartEvidence outside begins valid =>
    exact ⟨_, .boot journal credential outside begins valid, List.suffix_rfl, fun _ => rfl⟩
  | act world next rounds outside action reached regular performed induction =>
    obtain ⟨core, reaches, _, same⟩ := induction
    have going : world.stage ≠ .ended :=
      perform_going (world.before outside) rounds action next performed
    obtain rfl := same going
    have begun : Reach env licence initial (coreOf (world.before outside)) :=
      .answers (booksOf world) (handsOf world) outside reaches
    obtain ⟨last, moves, covers, ends⟩ := perform_moves rounds action next begun.sound
      (disciplined _ action regular) performed
    refine ⟨last, begun.moves moves, ?_, ends⟩
    exact covers.resolve_right fun lost => lost.1 free
  | crash world past journal credential restartEvidence outside reached crashed file stored valid
      induction =>
    obtain ⟨core, reaches, covered, _⟩ := induction
    exact ⟨_, .reboot core past journal credential outside reaches (crashed.trans covered) file
      stored valid, List.suffix_rfl, fun _ => rfl⟩

/-- Performs actions in order, each with its own answers of the outside. -/
def performAll (env : Environment) (rounds : Nat) :
    List (Action × (Nat → Response)) → World → Option World
  | [], world => some world
  | (action, outside) :: rest, world =>
    (perform env rounds action (world.before outside)).bind (performAll env rounds rest)

/-- Actions that are all possible make a run when each of them is allowed. -/
theorem Run.performAll {rounds : Nat} {actions : List (Action × (Nat → Response))} {next : World}
    (reached : Run env initial allowed world)
    (regular : ∀ first ∈ actions, ∀ world : World, allowed (world.before first.2) first.1)
    (performed : performAll env rounds actions world = some next) :
    Run env initial allowed next := by
  induction actions generalizing world with
  | nil => exact Option.some.inj performed ▸ reached
  | cons first rest induction =>
    obtain ⟨middle, begun, remaining⟩ := Option.bind_eq_some_iff.1 performed
    exact induction (.act world middle rounds first.2 first.1 reached
      (regular first List.mem_cons_self world) begun)
      (fun later member => regular later (List.mem_cons_of_mem first member)) remaining

/-- Starts a process anew on the files that the history of a world leaves. -/
def restart (env : Environment) (world : World) : Option World := do
  let journal ← fileAfter world.trace
  let credential ← credentialAfter world.trace
  if journal.Valid env.toJournalEnvironment then
    some (boot journal credential false (fun _ => {}) world.trace)
  else none

theorem Run.restart {next : World} (reached : Run env initial allowed world)
    (restarted : restart env world = some next) : Run env initial allowed next := by
  obtain ⟨journal, file, rest⟩ := Option.bind_eq_some_iff.1 restarted
  obtain ⟨credential, stored, rest⟩ := Option.bind_eq_some_iff.1 rest
  by_cases valid : journal.Valid env.toJournalEnvironment
  · rw [if_pos valid, Option.some.injEq] at rest
    subst rest
    exact .crash world world.trace journal credential false _ reached List.suffix_rfl file stored
      valid
  · simp [valid] at rest

/-- Performs actions, starts a process anew on the files that they leave, and performs others. -/
def performAround (env : Environment) (rounds : Nat)
    (earlier later : List (Action × (Nat → Response))) (world : World) : Option World :=
  ((performAll env rounds earlier world).bind (restart env)).bind (performAll env rounds later)

theorem Run.performAround {rounds : Nat} {earlier later : List (Action × (Nat → Response))}
    {next : World} (reached : Run env initial (fun _ _ => True) world)
    (performed : performAround env rounds earlier later world = some next) :
    Run env initial (fun _ _ => True) next := by
  obtain ⟨_, restarted, finished⟩ := Option.bind_eq_some_iff.1 performed
  obtain ⟨_, begun, restarted⟩ := Option.bind_eq_some_iff.1 restarted
  have stopped := reached.performAll (fun _ _ _ => trivial) begun
  exact (stopped.restart restarted).performAll (fun _ _ _ => trivial) finished

/-- With every licence there is no discipline to keep. -/
theorem disciplined_all (env : Environment) (world : World) (action : Action) :
    Disciplined env .all world action where
  delivery _ _ :=
    { answers := fun _ => Or.inl trivial
      acknowledgement := fun _ _ => ⟨fun _ _ _ => Or.inl trivial, fun _ _ _ _ _ => Or.inl trivial⟩
      rotation := fun _ _ => Or.inl trivial }

/-! ## A sample

An environment in which other packages accept everything, and the messages of a small run. -/

def sampleClient : Environment where
  toJournalEnvironment := sampleEnvironment
  instanceID := encode "runner"
  expectedScope := .organization (sampleUUID 0x39)
  credentialStore := true
  identityKeyFile := true
  workerPresent := true
  workerV2 := false
  testSecretsUsable := false
  disableObjectUploadIdentity := false
  disableTerminalEvidence := false
  enableTerminalEvidenceV2 := false
  enableNetworkPolicyV2 := false
  networkMaximum := none
  encodeGateway message := message.messageId
  encodeCancel cancellation := cancellation.cancellationId
  validateOffer _ _ _ _ := none
  validateNetworkV2Offer _ _ _ _ _ := none
  validateCompleteLogUpload _ _ _ _ _ := .ok none
  freezeTerminalEvidence _ _ := none

/-- The instant of a second of the Unix era. -/
def sampleTime (seconds : Int) : Int := (Timestamp.mk seconds 0).asTime

/-- Everything succeeds, at the given second. -/
def sampleAnswers (seconds : Int) : Nat → Response := fun _ => { now := sampleTime seconds }

/-- A message of the gateway that was sent at the given second. -/
def sampleMessage (id : String) (seconds : Int) (payload : GatewayPayload) : GatewayMessage where
  messageId := encode id
  sentAt := some ⟨seconds, 0⟩
  payload := some payload

/-- The first message of a stream that is opened at the given second. -/
def sampleOpening (seconds : Int) : GatewayMessage :=
  sampleMessage "open" seconds (.authenticated
    { runnerId := sampleUUID 0x31
      connectionId := sampleUUID 0x38
      protocolVersion := protocolVersion
      organizationScope := some (.organization (sampleUUID 0x39))
      credentialExpiresAt := some ⟨seconds + 3600, 0⟩
      heartbeatInterval := some (10 * second)
      leaseDuration := some (60 * second)
      serverTime := some ⟨seconds, 0⟩ })

/-- The sample job as it is offered on a stream with job correlation. -/
def sampleOffered (seconds : Int) : JobSpecification :=
  { sampleSpecification seconds with
    jobCorrelation := some
      { traceparent := encode "00-" ++ List.replicate 32 0x61 ++ encode "-" ++
          List.replicate 16 0x62 ++ encode "-01"
        organizationId := sampleUUID 0x39
        projectId := sampleUUID 0x61
        workflowId := jobCorrelationWorkflowLead ++ sampleUUID 0x36
        unknownFields := [] } }

/-- An offer of the sample job with a lease until the given second. -/
def sampleOffer (seconds expiry : Int) : GatewayMessage :=
  sampleMessage "offer" seconds (.offer ⟨some (sampleOffered expiry), some ⟨seconds + 30, 0⟩, []⟩)

def sampleReconciliation (expiry : Int) (disposition : Disposition) (status : LeaseStatus)
    (phase : JobPhase) : LeaseReconciliation where
  disposition := disposition
  status := status
  phase := phase
  lease := some (sampleLease expiry)
  attempt := some sampleAttempt
  terminalMessageId := []
  cancellationId := []
  completeLogUpload := none
  networkAuthorityV2 := none

/-- An acknowledgement of the event with the given number. -/
def sampleAcknowledgement (id : String) (seconds : Int) (number : UInt64)
    (reconciliation : LeaseReconciliation) : GatewayMessage :=
  sampleMessage id seconds (.eventAcknowledgement
    ⟨numberedId (sampleClient.sha256 sampleClient.instanceID) number, some ⟨seconds, 0⟩,
      some reconciliation⟩)

/-- A delivery at the given second at which everything succeeds. -/
def sampleDelivery (seconds : Int) (message : GatewayMessage) : Action × (Nat → Response) :=
  (.deliver message, sampleAnswers seconds)

/-- A stream is opened, and the sample job is offered and accepted. -/
def acceptedOffer (seconds : Int) : List (Action × (Nat → Response)) :=
  [(.openStream (sampleOpening seconds), sampleAnswers seconds),
    sampleDelivery (seconds + 1) (sampleOffer (seconds + 1) 2000)]

/-- The acceptance, which has the given number, is acknowledged as applied. -/
def acceptanceApplied (seconds : Int) (number : UInt64) : Action × (Nat → Response) :=
  sampleDelivery seconds (sampleAcknowledgement "accepted" seconds number
    (sampleReconciliation 2000 .applied .accepted .accepted))

/-- The job is offered, accepted and prepared. -/
def preparedJob (seconds : Int) (number : UInt64) : List (Action × (Nat → Response)) :=
  acceptedOffer seconds ++ [acceptanceApplied (seconds + 2) number,
    sampleDelivery (seconds + 3) (sampleAcknowledgement "preparing" (seconds + 3) (number + 1)
      (sampleReconciliation 2000 .applied .active .preparing))]

/-- A process on the given journal, with a credential file of one byte. -/
def sampleBoot (journal : JournalState) : World :=
  boot journal [0x63] false (sampleAnswers 0) []

end ProvenanceRunner.Gateway
