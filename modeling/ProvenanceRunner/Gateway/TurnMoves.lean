import ProvenanceRunner.Gateway.SessionMoves

/-! # Turns of the process as moves

Credential rotations, the opening of a stream and the turns of its loop. -/

namespace ProvenanceRunner.Gateway

open Programs

variable {env : Environment} {licence : Licence} {start : Core} {world : World}

/-! ## Credential rotation -/

/-- A rotation that begins while none is pending follows the committed credential properly, unless
anything else is licensed. -/
def KeepsOrder (env : Environment) (licence : Licence) (state : JournalState)
    (rotation : RotateCredential) : Prop :=
  licence.odd ∨ ∀ now metadata, validateCredentialRotation env rotation now = some metadata →
    state.credentialRotation ≠ none ∨
      Succeeds state.committedCredential { metadata with runnerID := env.runnerID }

theorem validateCredentialRotation_facts {rotation : RotateCredential} {now : Int}
    {metadata : JournalCredentialRotation}
    (accepted : validateCredentialRotation env rotation now = some metadata) :
    metadata.persistedAt = 0 ∧ env.sha256 rotation.connectionCredential = metadata.fingerprint ∧
      rotation.connectionCredential ≠ [] := by
  unfold validateCredentialRotation at accepted
  dsimp only at accepted
  split at accepted
  · simp at accepted
  case isFalse fine =>
    obtain rfl := Option.some.inj accepted
    refine ⟨rfl, rfl, fun empty => fine ?_⟩
    simp [empty, isConnectionCredential]

theorem commits_commitRotation {books : Books} {metadata : JournalCredentialRotation} {now : Int}
    {state : JournalState} (commits : Commits env books (.commitRotation metadata now) state) :
    ∃ rotation, state.credentialRotation = some rotation := by
  have applied := commits.1
  simp only [JournalChange.apply] at applied
  split at applied
  · simp at applied
  split at applied
  · simp at applied
  · exact ⟨_, congrArg JournalState.credentialRotation (Prod.mk.inj applied).1.symm⟩

section

variable (reached : Moves env licence start (coreOf world))
include reached

/-- A change of the journal whose failure is looked at. -/
theorem acts_attempt_update {α : Type} {post : α → World → Prop} (change : JournalChange)
    (next : Except Failure Unit → Handler α)
    (permitted : Permitted env licence (coreOf world) change)
    (other : ∀ reconciliation, change ≠ .reconcile reconciliation)
    (calm : ¬ Panics change world.client.journal)
    (rest : ∀ ended between, Moves env licence start (coreOf between) →
      (ended = .ok () → ∃ state, Commits env (booksOf world) change state ∧ between =
      world.committed change state) → Acts env licence coreOf start (next ended) between post) :
    Acts env licence coreOf start (attempt (update env change) >>= next) world post := by
  refine (ends_attempt _ world _ (ends_update_exact env change world other calm)).bind_ok ?_
  rintro ended between ⟨_, hands, committed⟩
  rcases committed with ⟨state, commits, rfl, _⟩ | ⟨books, _, rfl⟩
  · exact rest _ _ (reached.tail (.commit _ _ change state commits permitted))
      fun _ => ⟨state, commits, rfl⟩
  · refine rest _ _ ?_ (by simp)
    rw [coreOf_eq, books, hands]
    exact reached

theorem acts_acknowledgeRotation {rotation : JournalCredentialRotation}
    (pending : world.client.journal.credentialRotation = some rotation) :
    Acts env licence coreOf start (acknowledgeRotation env) world fun _ _ => True := by
  unfold acknowledgeRotation
  rw [acts_snapshot_bind, pending]
  dsimp only
  refine Acts.bind (acts_runnerMessage reached) fun empty between moves numbered => ?_
  refine (ends_attempt _ between _ (ends_send _ between)).bind_ok ?_
  rintro ended final ⟨sane, hands, books⟩
  have sent : Moves env licence start (coreOf final) := by
    rw [coreOf_eq, books, hands]
    exact moves.tail (.note _ _ _ (Or.inr (Or.inr (Or.inl ⟨numbered.fresh _, rfl⟩))))
  change Acts env licence coreOf start _ final _
  split
  · exact Acts.throw _ sent rfl (by simp)
  rw [acts_ask_bind]
  split
  · exact Acts.throw _ sent rfl (by simp)
  · exact Acts.throw _ sent rfl (sane _ rfl).1

theorem acts_handleCredentialRotation (rotation : RotateCredential) (now : Int)
    (order : KeepsOrder env licence world.client.journal rotation) :
    Acts env licence coreOf start (handleCredentialRotation env rotation now) world
      fun _ _ => True := by
  unfold handleCredentialRotation
  split
  · exact Acts.permanent reached _
  split
  · exact Acts.permanent reached _
  case h_2 metadata accepted =>
    obtain ⟨unpersisted, named, nonempty⟩ := validateCredentialRotation_facts accepted
    dsimp only
    refine acts_attempt_update reached _ _
      ⟨rfl, unpersisted, order.imp_right fun follows => follows now metadata accepted⟩ (by simp)
      (not_panics_other (by simp) (by simp)) fun ended begun moves committed => ?_
    cases ended with
    | error _ => exact Acts.permanent moves _
    | ok _ =>
      obtain ⟨_, _, rfl⟩ := committed rfl
      unfold replaceCredential
      dsimp only
      rw [bind_assoc, acts_ask_bind]
      split
      · exact Acts.permanent (by exact moves) _
      have replaced := moves.tail (.replace _ _ rotation.connectionCredential _ world.trace rfl
        named nonempty)
      rw [acts_modify_bind, acts_modifyClient_bind]
      refine acts_attempt_update replaced _ _
        ⟨rfl, rotation.connectionCredential, _, named, rfl⟩ (by simp)
        (not_panics_other (by simp) (by simp)) fun ended final moves committed => ?_
      cases ended with
      | error _ => exact Acts.throw _ moves rfl (by simp)
      | ok =>
        obtain ⟨_, commits, rfl⟩ := committed rfl
        obtain ⟨_, pending⟩ := commits_commitRotation commits
        exact acts_acknowledgeRotation moves pending

end

/-! ## Messages -/

/-- The message is the command of a cancellation, or it announces one. -/
def GatewayMessage.Cancels (message : GatewayMessage) : Prop :=
  match message.payload with
  | some (.cancel _) => True
  | some (.eventAcknowledgement acknowledgement) => Announces acknowledgement.reconciliation
  | some (.heartbeatAcknowledgement acknowledgement) =>
    ∃ reconciliation ∈ acknowledgement.reconciliations, Announces reconciliation
  | _ => False

/-- What a message may not bring about without a licence. -/
structure Orderly (env : Environment) (licence : Licence) (state : JournalState)
    (outside : Nat → Response) (message : GatewayMessage) : Prop where
  answers : message.Cancels → KeepsAnswers licence outside
  acknowledgement :
    ∀ acknowledgement, message.payload = some (.eventAcknowledgement acknowledgement) →
    Regular licence state outside acknowledgement
  rotation : ∀ rotation, message.payload = some (.credentialRotation rotation) →
    KeepsOrder env licence state rotation

theorem acts_handleGatewayMessage (world : World) (rounds : Nat)
    (message : GatewayMessage) (now : Int)
    (reached : Moves env licence start (coreOf world)) (sound : start.books.Sound env)
    (received : wokenBy world.trace = some (.received message))
    (orderly : Orderly env licence world.client.journal start.hands.outside message) :
    Acts env licence coreOf start (handleGatewayMessage env rounds message now) world
      fun _ _ => True := by
  unfold handleGatewayMessage
  split
  case h_1 => exact acts_handleOffer reached _ _ now
  case h_2 cancellation carries =>
    refine acts_handleCancellation reached rounds _ now (orderly.answers ?_)
    simp [GatewayMessage.Cancels, carries]
  case h_3 acknowledgement carries =>
    exact acts_handleEventAcknowledgement reached rounds _ now message sound received carries
      (fun announces =>
        orderly.answers (by simpa [GatewayMessage.Cancels, carries] using announces))
      (orderly.acknowledgement acknowledgement carries)
  case h_4 acknowledgement carries =>
    exact acts_handleHeartbeatAcknowledgement reached rounds _ now fun announces =>
      orderly.answers (by simpa [GatewayMessage.Cancels, carries] using announces)
  case h_5 =>
    refine acts_check_bind reached _ _ _ fun _ => ?_
    unfold drain
    rw [acts_modifyClient_bind]
    exact acts_sendHeartbeat (by exact reached) now
  case h_6 => exact acts_check_bind reached _ _ _ fun _ => Acts.permanent reached _
  case h_9 rotation carries =>
    exact acts_handleCredentialRotation reached rotation now (orderly.rotation rotation carries)
  all_goals exact Acts.permanent reached _

theorem unchanged_receiveSecretDelivery (message : GatewayMessage) :
    Ends (receiveSecretDelivery message) world (Unchanged world) := by
  unfold receiveSecretDelivery
  rw [ends_get_bind, ends_modifySession_bind]
  split
  · exact unchanged_error _ (sane_permanent _) rfl
  rw [ends_ask_bind]
  split
  · exact unchanged_error _ (sane_permanent _) rfl
  dsimp only
  split
  · exact unchanged_error _ (sane_permanent _) rfl
  split
  · exact unchanged_error _ (sane_permanent _) rfl
  split
  · exact unchanged_error _ (sane_permanent _) rfl
  · exact unchanged_ok _ rfl

theorem unchanged_gatewayMessageDuplicate (message : GatewayMessage) :
    Ends (gatewayMessageDuplicate env message) world (Unchanged world) := by
  unfold gatewayMessageDuplicate
  split
  · exact unchanged_error _ (sane_permanent _) rfl
  rw [ends_readClock_bind]
  unfold check
  split
  · exact unchanged_error _ (sane_permanent _) rfl
  rw [pure_bind, ends_get_bind]
  split
  · split
    · exact unchanged_error _ (sane_permanent _) rfl
    · exact unchanged_ok _ rfl
  · exact unchanged_ok _ rfl

theorem acts_deliver (rounds : Nat) (message : GatewayMessage)
    (sound : (coreOf world).books.Sound env)
    (orderly : Orderly env licence world.client.journal world.responses message) :
    Acts env licence coreOf (coreOf world) (deliver env rounds message) world fun _ _ => True := by
  have received : Moves env licence (coreOf world) (coreOf (world.noted (.received message))) :=
    .single (.note _ _ _ trivial)
  unfold deliver
  rw [acts_record_bind, acts_get_bind]
  split
  · exact (Acts.unchanged received (unchanged_receiveSecretDelivery message)).mono
      fun _ _ _ => trivial
  refine Acts.bind (Acts.unchanged received (unchanged_gatewayMessageDuplicate message))
    fun known between moves same => ?_
  split
  · exact Acts.pure () moves trivial
  rw [acts_readClock_bind]
  have journal : between.client.journal = world.client.journal :=
    congrArg (fun core => core.books.journal) same
  have trace : between.trace = .received message :: world.trace :=
    congrArg (fun core => core.books.trace) same
  refine Acts.bind (acts_handleGatewayMessage between.asked rounds message _ moves sound ?_ ?_)
    fun _ handled moves _ => ?_
  · rw [show between.asked.trace = between.trace from rfl, trace]
    rfl
  · rw [show between.asked.client.journal = between.client.journal from rfl, journal]
    exact orderly
  rw [acts_get_bind]
  split
  · rw [acts_readClock_bind]
    exact acts_sendHeartbeat (by exact moves) _
  · exact Acts.pure () moves trivial

/-! ## The other turns -/

theorem acts_tick (rounds : Nat) (time : Int) :
    Acts env licence coreOf (coreOf world) (tick env rounds time) world fun _ _ => True := by
  unfold tick
  rw [acts_record_bind]
  exact Acts.bind (acts_sendHeartbeat (by exact .single (.note _ _ _ trivial)) time)
    fun _ _ moves _ => acts_advance moves rounds time

theorem acts_maintain (rounds : Nat) :
    Acts env licence coreOf (coreOf world) (maintain env rounds) world fun _ _ => True := by
  unfold maintain
  rw [acts_readClock_bind, acts_record_bind]
  exact acts_advance (by exact .single (.note _ _ _ trivial)) rounds _

theorem acts_sendMade {program : Handler RunnerMessage} {next : Unit → Handler Unit}
    (made : Acts env licence coreOf start program world
      fun message final => Fresh env (booksOf final) message ∧ message.isRetained = false)
    (rest : ∀ between, Moves env licence start (coreOf between) →
      Acts env licence coreOf start (next ()) between fun _ _ => True) :
    Acts env licence coreOf start (program >>= fun message => send message >>= next) world
      fun _ _ => True := by
  refine Acts.bind made fun message _ moves fresh => ?_
  exact Acts.bind (acts_send moves message (Or.inr (Or.inr (Or.inl fresh))))
    fun _ between moves _ => rest between moves

section

variable (reached : Moves env licence start (coreOf world))
include reached

theorem acts_authenticateMessage :
    Acts env licence coreOf start (authenticateMessage env) world
      fun message final => Fresh env (booksOf final) message ∧ message.isRetained = false := by
  unfold authenticateMessage
  refine Acts.bind (acts_runnerMessage reached) fun empty between moves numbered => ?_
  rw [acts_get_bind]
  exact Acts.pure _ moves ⟨numbered.fresh _, rfl⟩

theorem acts_capabilitiesMessage :
    Acts env licence coreOf start (capabilitiesMessage env) world
      fun message final => Fresh env (booksOf final) message ∧ message.isRetained = false := by
  unfold capabilitiesMessage
  rw [acts_get_bind]
  dsimp only
  split
  · exact Acts.plain reached _
  · refine Acts.bind (acts_runnerMessage reached) fun empty between moves numbered => ?_
    exact Acts.pure _ moves ⟨numbered.fresh _, rfl⟩

theorem acts_reconcileCredentialRotation {post : Unit → World → Prop}
    (next : Except Failure Unit → Handler Unit)
    (rest : ∀ ended between, Moves env licence start (coreOf between) →
      Acts env licence coreOf start (next ended) between post) :
    Acts env licence coreOf start
      (attempt (reconcileCredentialRotationAfterAuthentication env) >>= next) world post := by
  have inner : Ends (reconcileCredentialRotationAfterAuthentication env) world
      fun result final => Sane result ∧
        Moves env licence start (coreOf final) := by
    unfold reconcileCredentialRotationAfterAuthentication
    rw [ends_get_bind]
    split
    · exact ⟨by simp, reached⟩
    case h_2 rotation pending =>
      split
      · exact ⟨by simp, reached⟩
      case isFalse named =>
        rw [ends_readClock_bind]
        refine (ends_update_exact env _ world.asked (by simp)
          (not_panics_other (by simp) (by simp))).mono fun result final ends => ⟨ends.1, ?_⟩
        rcases ends.2.2 with ⟨state, commits, rfl, _⟩ | ⟨books, _⟩
        · exact reached.tail (.commit _ _ _ state commits ⟨rfl, pending, not_not.1 named⟩)
        · rw [coreOf_eq, books, ends.2.1]
          exact reached
  refine (ends_attempt _ world _ inner).bind_ok ?_
  exact fun ended between ⟨_, moves⟩ => rest ended between moves

end

theorem acts_openSession (first : GatewayMessage) :
    Acts env licence coreOf (coreOf world) (openSession env first) world fun _ _ => True := by
  unfold openSession
  rw [acts_record_bind]
  refine acts_sendMade (acts_authenticateMessage (.single (.note _ _ _ trivial)))
    fun authenticated moves => ?_
  split
  · exact Acts.permanent moves _
  rw [acts_readClock_bind]
  split
  · exact Acts.permanent (by exact moves) _
  unfold clearRecoveryCompleteLogTarget
  rw [acts_modifyClient_bind]
  refine acts_reconcileCredentialRotation (by exact moves) _ fun ended reconciled moves => ?_
  split
  · exact Acts.permanent moves _
  rw [acts_modifyClient_bind, acts_get_bind]
  dsimp only
  refine acts_sendMade (acts_capabilitiesMessage moves) fun announced moves => ?_
  rw [acts_get_bind, acts_modify_bind, acts_modifySession_bind]
  refine Acts.bind (acts_replayPending (moves.tail (.heartbeat _ _ none (Or.inl rfl))))
    fun _ _ moves _ => acts_sendHeartbeat moves _

end ProvenanceRunner.Gateway
