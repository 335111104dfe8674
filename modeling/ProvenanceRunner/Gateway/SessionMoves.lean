import ProvenanceRunner.Gateway.MessageMoves

/-! # Sessions as moves

Heartbeats, cancellation commands, offers and credential rotations, and then the turns of the
session loop. With them every turn of the process is a sequence of moves. -/

namespace ProvenanceRunner.Gateway

open Utf8 Programs

variable {env : Environment} {licence : Licence} {start : Core} {world : World}

/-! ## Fresh messages -/

/-- A message has the next identity, and nothing else has changed. -/
def Numbered (env : Environment) (world : World) (message : RunnerMessage) (between : World) :
    Prop :=
  ∃ state, Commits env (booksOf world) .nextMessageSequence state ∧
    booksOf between = (booksOf world).commit .nextMessageSequence state ∧
    handsOf between = handsOf world ∧ message.messageId = currentId env state

theorem acts_runnerMessage (reached : Moves env licence start (coreOf world)) :
    Acts env licence coreOf start (runnerMessage env) world (Numbered env world) := by
  refine Acts.of_ends ?_ (sees_coreOf world)
  refine (ends_runnerMessage env world).mono fun result final ends => ?_
  obtain ⟨hands, ⟨state, numbers, books, _, ended⟩ | ⟨books, failure, rfl, sane⟩⟩ := ends
  · rw [books]
    refine ⟨hands, fun failure same => ?_, number_moves reached numbers, fun answer same => ?_⟩
    · subst same
      exact ended.1
    · subst same
      exact ⟨state, numbers, books, hands, ended.1⟩
  · rw [books]
    exact ⟨hands, fun other same => Except.error.inj same ▸ sane.1, reached, by simp⟩

theorem Numbered.fresh {message : RunnerMessage} {between : World}
    (numbered : Numbered env world message between) (payload : Option RunnerPayload) :
    Fresh env (booksOf between) { message with payload := payload } := by
  obtain ⟨_, _, books, _, identity⟩ := numbered
  rw [books]
  exact ⟨⟨_, rfl⟩, identity⟩

section

variable (reached : Moves env licence start (coreOf world))
include reached

theorem acts_send (message : RunnerMessage) (sendable : Sendable env (booksOf world) message) :
    Acts env licence coreOf start (send message) world fun _ _ => True := by
  refine Acts.of_ends ?_ (sees_coreOf world)
  refine (ends_send message world).mono fun result final ends => ?_
  refine ⟨ends.2.1, fun failure same => (ends.1 failure same).1, ?_, fun _ _ => trivial⟩
  rw [ends.2.2]
  exact reached.tail (.note _ _ _ sendable)

theorem acts_replayPending :
    Acts env licence coreOf start (replayPending env) world fun _ _ => True := by
  unfold replayPending
  rw [acts_snapshot_bind]
  split
  · exact Acts.pure () reached trivial
  case h_2 message pending =>
    refine Acts.of_ends ?_ (sees_coreOf world)
    refine (ends_sendRetained env message world).mono fun result final ends => ?_
    exact ⟨ends.2.1, fun failure same => (ends.1 failure same).1,
      sent_moves reached pending ends.2.2, fun _ _ => trivial⟩

/-! ## Heartbeats -/

theorem acts_heartbeatMessage (observedAt : Int) (leases : List HeartbeatLease) :
    Acts env licence coreOf start (heartbeatMessage env observedAt leases) world
      fun message final => Fresh env (booksOf final) message ∧
        message.heartbeat?.isSome = true := by
  unfold heartbeatMessage nextHeartbeatSequence
  rw [bind_assoc]
  refine Acts.bind (acts_update reached .nextHeartbeatSequence trivial
    (not_panics_other (by simp) (by simp))) fun _ counted moves _ => ?_
  rw [bind_assoc, acts_snapshot_bind, acts_pure_bind, acts_get_bind]
  refine Acts.bind (acts_runnerMessage moves) fun empty between moves numbered => ?_
  exact Acts.pure _ moves ⟨numbered.fresh _, rfl⟩

theorem acts_sendHeartbeat (observedAt : Int) :
    Acts env licence coreOf start (sendHeartbeat env observedAt) world fun _ _ => True := by
  unfold sendHeartbeat
  rw [acts_snapshot_bind, acts_get_bind]
  lift_lets
  extract_lets sending
  have rest (next : World) (moves : Moves env licence start (coreOf next)) :
      Acts env licence coreOf start (sending ()) next fun _ _ => True := by
    unfold sending
    rw [acts_get_bind]
    split
    case h_1 message pending =>
      dsimp only
      split
      · exact ⟨moves, trivial⟩
      · rw [acts_modifySession_bind]
        exact acts_send (by exact moves) message (Or.inr (Or.inl pending))
    case h_2 =>
      refine Acts.bind (acts_heartbeatMessage moves observedAt _) fun message between moves made =>
        ?_
      refine Acts.bind (acts_update moves (.storeHeartbeat message) made
        (not_panics_other (by simp) (by simp))) fun _ stored moves committed => ?_
      obtain ⟨state, commits, rfl⟩ := committed
      have held : state.pendingHeartbeat = some message :=
        congrArg JournalState.pendingHeartbeat (commits_storeHeartbeat commits).2
      rw [acts_modifySession_bind]
      refine acts_send ?_ message (Or.inr (Or.inl rfl))
      exact moves.tail (.heartbeat _ _ (some message) (Or.inr held.symm))
  split
  case isTrue =>
    rw [acts_modifySession_bind]
    exact rest _ (reached.tail
      (.heartbeat _ _ world.client.journal.pendingHeartbeat (Or.inr rfl)))
  case isFalse => exact rest world reached

theorem acts_applyReconciliations (now : Int) (reconciliations : List (Option LeaseReconciliation))
    (leases : List HeartbeatLease)
    (late : (∃ reconciliation ∈ reconciliations, Announces reconciliation) →
      KeepsAnswers licence start.hands.outside) :
    Acts env licence coreOf start (applyReconciliations env now reconciliations leases) world
      fun _ _ => True := by
  induction reconciliations generalizing world leases with
  | nil => exact Acts.pure () reached trivial
  | cons reconciliation rest induction =>
    cases leases with
    | nil => exact Acts.pure () reached trivial
    | cons expected leases =>
      unfold applyReconciliations
      refine acts_check_bind reached _ _ _ fun wellFormed => ?_
      split
      · exact Acts.pure () reached trivial
      split
      · exact Acts.permanent reached _
      refine Acts.bind (acts_applyLateReconciliation _ reached now wellFormed
        fun announces => late ⟨_, List.mem_cons_self, announces⟩)
        fun _ _ moves _ => induction moves leases ?_
      rintro ⟨other, member, announces⟩
      exact late ⟨other, List.mem_cons_of_mem _ member, announces⟩

theorem acts_handleHeartbeatAcknowledgement (rounds : Nat)
    (acknowledgement : HeartbeatAcknowledgement) (now : Int)
    (late : (∃ reconciliation ∈ acknowledgement.reconciliations, Announces reconciliation) →
      KeepsAnswers licence start.hands.outside) :
    Acts env licence coreOf start (handleHeartbeatAcknowledgement env rounds acknowledgement now)
      world fun _ _ => True := by
  have rest (next : World) (moves : Moves env licence start (coreOf next)) :
      Acts env licence coreOf start (do
        modifySession fun session => { session with reconciled := true }
        advance env rounds now : Handler Unit) next fun _ _ => True := by
    rw [acts_modifySession_bind]
    exact acts_advance (by exact moves) rounds now
  unfold handleHeartbeatAcknowledgement
  split
  · exact Acts.permanent reached _
  rw [acts_get_bind]
  dsimp only
  split
  · exact Acts.permanent reached _
  case h_2 message _ =>
    split
    · exact Acts.permanent reached _
    split
    · exact Acts.permanent reached _
    refine Acts.bind (acts_applyReconciliations reached now _ _ late) fun _ between moves _ => ?_
    split
    case isFalse => exact rest between moves
    case isTrue =>
      refine Acts.bind (acts_update moves .clearHeartbeat trivial
        (not_panics_other (by simp) (by simp))) fun _ cleared moves _ => ?_
      unfold rememberAcknowledgedHeartbeat
      rw [acts_modifySession_bind, acts_modifySession_bind]
      exact rest _ (moves.tail (.heartbeat _ _ none (Or.inl rfl)))

/-! ## Cancellation commands -/

theorem acts_handleCancellation (rounds : Nat) (cancellation : CancelJob) (now : Int)
    (late : KeepsAnswers licence start.hands.outside) :
    Acts env licence coreOf start (handleCancellation env rounds cancellation now) world
      fun _ _ => True := by
  unfold handleCancellation
  split
  · exact Acts.permanent reached _
  refine acts_check_bind reached _ _ _ fun identifier => ?_
  split
  · exact Acts.permanent reached _
  rw [acts_snapshot_bind]
  split
  · exact Acts.permanent reached _
  case h_2 job active =>
    dsimp only
    split
    · exact Acts.permanent reached _
    split
    case isTrue open' =>
      have named : cancellation.cancellationId ≠ [] := by
        intro empty
        simp [validateIdentifier, empty] at identifier
      have agrees : job.cancellationID = [] ∨
          job.cancellationID = cancellation.cancellationId := by
        simp only [Bool.or_eq_true, Bool.and_eq_true, List.isEmpty_iff, beq_iff_eq] at open'
        exact open'.imp_right fun both => both.1
      refine acts_cancel reached _ _ ⟨named, ?_⟩ (by simp [active]) late
        fun _ moves _ => acts_advance moves rounds now
      intro other same
      exact Option.some.inj (active.symm.trans same) ▸ agrees
    split
    · rw [acts_stopWorker_bind, acts_failStartResponse_bind]
      exact acts_advance (stop_moves reached) rounds now
    · exact Acts.permanent reached _

/-! ## Offers -/

theorem acts_rejectOffer (offer : LeaseOffer) (reason : RejectionReason) (summary : Bytes) :
    Acts env licence coreOf start (rejectOffer env offer reason summary) world
      fun _ _ => True := by
  unfold rejectOffer
  split
  · exact Acts.permanent reached _
  split
  · exact Acts.permanent reached _
  · exact acts_queueRejected reached _

end

theorem unchanged_beginRestartEvidence :
    Ends beginRestartEvidence world (Unchanged world) := by
  unfold beginRestartEvidence
  rw [ends_get_bind]
  split
  · exact unchanged_error _ (sane_plain _) rfl
  rw [ends_ask_bind]
  split
  · exact unchanged_error _ (sane_plain _) rfl
  · exact unchanged_ok _ rfl

theorem acts_acceptOffer (reached : Moves env licence start (coreOf world))
    (messageId digest : Bytes) (job : JobSpecification) (target : Option CompleteLogTarget)
    (now : Int) (idle : world.client.workerRunning = false) :
    Acts env licence coreOf start (acceptOffer env messageId digest job target now) world
      fun _ _ => True := by
  unfold acceptOffer
  refine (ends_attempt _ world (fun _ final => coreOf final = coreOf world)
    unchanged_beginRestartEvidence).bind_ok ?_
  rintro answer begun ⟨_, same⟩
  have moves : Moves env licence start (coreOf begun) := same ▸ reached
  change Acts env licence coreOf start _ begun _
  cases answer with
  | error _ => exact Acts.permanent moves _
  | ok _ =>
    have idle' : (handsOf begun).workerRunning = false :=
      (congrArg (fun core => core.hands.workerRunning) same).trans idle
    rw [acts_get_bind]
    dsimp only
    refine (ends_attempt _ begun (fun _ final => Moves env licence start (coreOf final))
      ((ends_queueDurable env _ _ begun (by simp)).mono fun result final ends =>
        ⟨ends.1, ?_⟩)).bind_ok ?_
    · rw [coreOf_eq, ends.2.1]
      refine ends.2.2.moves moves fun numbered message _ carries => ?_
      refine ⟨⟨_, carries⟩, idle', rfl, rfl, ?_⟩
      simp [runnerMessageIdentity, carries, JournalJob.identity, acceptedJob]
    · rintro ended queued ⟨sane, moves⟩
      change Acts env licence coreOf start _ queued _
      rw [acts_snapshot_bind]
      have rest (next : World) (moves : Moves env licence start (coreOf next)) :
          Acts env licence coreOf start (rethrow ended) next fun _ _ => True := by
        cases ended with
        | ok => exact Acts.pure () moves trivial
        | error failure => exact Acts.throw failure moves rfl (sane failure rfl).1
      split
      · rename_i failure _
        unfold clearRestartEvidence
        rw [acts_modifyClient_bind]
        exact Acts.throw failure moves rfl (sane failure rfl).1
      · split
        · unfold setCompleteLogTarget setCompleteLogTargetKind
          rw [acts_modifyClient_bind]
          exact rest _ moves
        · unfold clearCompleteLogTarget
          rw [acts_modifyClient_bind]
          exact rest _ moves

theorem acts_handleOffer (reached : Moves env licence start (coreOf world))
    (envelope : GatewayMessage) (offer : LeaseOffer) (now : Int) :
    Acts env licence coreOf start (handleOffer env envelope offer now) world fun _ _ => True := by
  unfold handleOffer
  dsimp only
  rw [acts_snapshot_bind, acts_get_bind]
  split
  · split
    · exact Acts.permanent reached _
    split
    · exact acts_replayPending reached
    · exact acts_rejectOffer reached _ _ _
  · split
    · exact acts_rejectOffer reached _ _ _
    case isFalse idle =>
      split
      · exact Acts.permanent reached _
      split
      · exact acts_rejectOffer reached _ _ _
      split
      · exact acts_rejectOffer reached _ _ _
      split
      · exact acts_rejectOffer reached _ _ _
      · exact acts_rejectOffer reached _ _ _
      · split
        · exact acts_rejectOffer reached _ _ _
        · exact acts_acceptOffer reached _ _ _ _ now (by simpa using idle)

end ProvenanceRunner.Gateway
