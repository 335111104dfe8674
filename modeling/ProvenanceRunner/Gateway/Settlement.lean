import ProvenanceRunner.Gateway.Rotation

/-! # Terminal acknowledgements

An acknowledgement that reports the lease as ended settles the pending event: nothing about the
lease stays pending and nothing more is sent for it. The exception is a stale rejection of a lease
that is not the active one, which is sent again. -/

namespace ProvenanceRunner.Gateway

open Utf8 Programs

variable {α : Type} {between : World} {state : JournalState} {books : Books}

variable {env : Environment} {world : World}

/-! ## Programs that only note -/

/-- A program that leaves the journal and the answers of the outside alone and sends nothing. -/
def Notes {α : Type} (program : Handler α) (world : World) : Prop :=
  Ends program world fun _ final => final.client.journal = world.client.journal ∧
    final.responses = world.responses ∧
    ∀ message, .sent message ∈ final.trace → .sent message ∈ world.trace

theorem Notes.bind {β : Type} {program : Handler α} {next : α → Handler β}
    (first : Notes program world) (second : ∀ answer between, Notes (next answer) between) :
    Notes (program >>= next) world := by
  refine Ends.bind first ?_ fun _ _ kept => kept
  rintro answer between ⟨journal, responses, sent⟩
  refine (second answer between).mono fun result final ends => ?_
  exact ⟨ends.1.trans journal, ends.2.1.trans responses,
    fun message found => sent message (ends.2.2 message found)⟩

theorem notes_pure (value : α) : Notes (pure value) world := ⟨rfl, rfl, fun _ => id⟩

theorem notes_get : Notes get world := ⟨rfl, rfl, fun _ => id⟩

theorem notes_record (effect : Effect) (unsent : ∀ message, effect ≠ .sent message) :
    Notes (record effect) world := by
  refine ⟨rfl, rfl, fun message found => ?_⟩
  rcases List.mem_cons.1 found with same | older
  · exact absurd same.symm (unsent message)
  · exact older

theorem notes_modifyClient (change : Client → Client)
    (kept : (change world.client).journal = world.client.journal) :
    Notes (modifyClient change) world := ⟨kept, rfl, fun _ => id⟩

theorem notes_modifySession (change : Session → Session) : Notes (modifySession change) world :=
  ⟨rfl, rfl, fun _ => id⟩

theorem notes_answerStart (channel : Nat) (granted : Bool) :
    Notes (answerStart channel granted) world :=
  notes_get.bind fun _ _ => notes_record _ (by simp)

theorem notes_discardAll (events : List WorkerEvent) : Notes (discardAll events) world := by
  induction events generalizing world with
  | nil => exact notes_pure ()
  | cons event rest induction =>
    refine Notes.bind ?_ fun _ _ => induction
    cases event with
    | start channel => exact notes_answerStart channel false
    | _ => exact notes_pure ()

theorem notes_rememberSettledMessage (message : RunnerMessage) (phase : JobPhase) :
    Notes (rememberSettledMessage message phase) world := by
  unfold rememberSettledMessage
  split
  · exact notes_pure ()
  · exact notes_modifySession _

theorem notes_forgetJob (pending : Option RunnerMessage) (phase : JobPhase) :
    Notes (forgetJob pending phase) world := by
  have rest (world : World) : Notes (do discardDeferred; clearRestartEvidence) world :=
    (notes_get.bind fun _ _ => (notes_modifyClient _ rfl).bind fun _ _ =>
      notes_discardAll _).bind fun _ _ => notes_modifyClient _ rfl
  refine (notes_modifyClient _ rfl).bind fun _ _ => ?_
  cases pending with
  | none => exact rest _
  | some message => exact (notes_rememberSettledMessage message phase).bind fun _ _ => rest _

/-! ## What an acknowledgement settles -/

/-- No event of the lease is pending, and none has been sent. -/
def SettledFor (world : World) (reconciliation : LeaseReconciliation) (final : World) : Prop :=
  (∀ message, final.client.journal.pendingMessage = some message →
    sameLeaseAttempt (runnerMessageIdentity message).1 (runnerMessageIdentity message).2
      reconciliation.lease reconciliation.attempt = false) ∧
  ∀ message, .sent message ∈ final.trace → .sent message ∈ world.trace ∨
    sameLeaseAttempt (runnerMessageIdentity message).1 (runnerMessageIdentity message).2
      reconciliation.lease reconciliation.attempt = false

/-- Nothing is pending at all and nothing has been sent. -/
def Cleared (world final : World) : Prop :=
  final.client.journal.pendingMessage = none ∧
    ∀ message, .sent message ∈ final.trace → .sent message ∈ world.trace

theorem Cleared.settledFor {final : World} (cleared : Cleared world final)
    (reconciliation : LeaseReconciliation) : SettledFor world reconciliation final :=
  ⟨fun _ pending => by simp [cleared.1] at pending,
    fun message found => Or.inl (cleared.2 message found)⟩

theorem Cleared.trans {final : World} (first : Cleared world between)
    (second : Cleared between final) : Cleared world final :=
  ⟨second.1, fun message found => first.2 message (second.2 message found)⟩

/-- A program that notes keeps what has been cleared. -/
theorem Notes.cleared {program : Handler α}
    (notes : Notes program between) (cleared : Cleared world between) :
    Ends program between fun _ final => Cleared world final :=
  Ends.mono notes fun _ _ ends => ⟨congrArg JournalState.pendingMessage ends.1 ▸ cleared.1,
    fun message found => cleared.2 message (ends.2.2 message found)⟩

theorem valid_without (valid : state.Valid env.toJournalEnvironment)
    (active : Option JournalJob) (kept : active = state.active ∨ active = none) :
    { state with active := active, pendingMessage := none }.Valid env.toJournalEnvironment := by
  unfold JournalState.Valid validateJournalState at valid ⊢
  simp only [orElse_eq_none] at valid ⊢
  refine ⟨valid.1, valid.2.1, valid.2.2.1, ?_, rfl⟩
  rcases kept with rfl | rfl
  · exact valid.2.2.2.1
  · rfl

theorem commits_finish (valid : books.journal.Valid env.toJournalEnvironment) :
    Commits env books .finish { books.journal with active := none, pendingMessage := none } :=
  ⟨rfl, valid_without valid none (Or.inr rfl)⟩

theorem commits_clearPending
    (valid : books.journal.Valid env.toJournalEnvironment) :
    Commits env books .clearPending { books.journal with pendingMessage := none } :=
  ⟨rfl, valid_without valid books.journal.active (Or.inl rfl)⟩

theorem cleared_committed {change : JournalChange}
    (empty : state.pendingMessage = none)
    (sent : ∀ message, .sent message ∈ between.trace → .sent message ∈ world.trace) :
    Cleared world (between.committed change state) := by
  refine ⟨empty, fun message found => ?_⟩
  rcases List.mem_cons.1 found with same | older
  · simp at same
  · exact sent message older

theorem startFailed_responses (world : World) :
    world.startFailed.responses = world.responses := by
  unfold World.startFailed
  split <;> rfl

theorem startFailed_sent (world : World) {message : RunnerMessage}
    (found : .sent message ∈ world.startFailed.trace) : .sent message ∈ world.trace := by
  unfold World.startFailed at found
  split at found
  · exact found
  · rcases List.mem_cons.1 found with same | older
    · simp at same
    · exact older

theorem settled_responses (world : World) (pending : RunnerMessage)
    (active : Option JournalJob) : (world.settled pending active).responses = world.responses := by
  unfold World.settled World.remembering
  split <;> rfl

theorem settled_consumed (world : World) (pending : RunnerMessage) (active : Option JournalJob) :
    (world.settled pending active).consumed = world.consumed + 1 := by
  unfold World.settled World.remembering
  split <;> rfl

theorem settled_trace (world : World) (pending : RunnerMessage) (active : Option JournalJob) :
    (world.settled pending active).trace = .settled pending ::
      .committed .clearPending { world.client.journal with pendingMessage := none } ::
        world.trace :=
  congrArg Books.trace (booksOf_settled world pending active)

section

variable (valid : world.client.journal.Valid env.toJournalEnvironment)
  (done : ∀ n, (world.responses n).persisted = .done)

include valid done

/-- A terminal reconciliation of the active job finishes it. -/
theorem ends_finish_cleared (job : JournalJob) (pending : RunnerMessage) :
    Ends (do
      stopWorker
      failStartResponse
      update env .finish
      modifyClient fun client => { client with recovering := false }
      forgetJob (some pending) job.phase : Handler Unit) world
      fun _ final => Cleared world final := by
  rw [ends_stopWorker_bind, ends_failStartResponse_bind]
  have valid' : (booksOf world.workerStopped.startFailed).journal.Valid
      env.toJournalEnvironment := by
    rw [booksOf_startFailed, failStart_journal]
    exact valid
  have finishes : Commits env (booksOf world.workerStopped.startFailed) .finish _ :=
    commits_finish valid'
  refine Ends.bind (ends_update_done _ finishes ?_) ?_ (by simp)
  · rw [startFailed_responses]
    exact done _
  rintro _ between ⟨_, rfl⟩
  refine Notes.cleared ((notes_modifyClient _ rfl).bind fun _ _ => notes_forgetJob _ _)
    (cleared_committed rfl fun message found => ?_)
  exact startFailed_sent world.workerStopped found

/-- Clearing the pending event leaves nothing pending. -/
theorem ends_clear (pending : RunnerMessage) (active : Option JournalJob) :
    Ends (clearPendingAcknowledged env pending active) world fun result final =>
      result = .ok () ∧ final = world.settled pending active := by
  unfold clearPendingAcknowledged clearPending
  refine Ends.bind (ends_update_done world (commits_clearPending valid) (done _)) ?_ (by simp)
  rintro _ between ⟨_, rfl⟩
  rw [ends_record_bind]
  exact (ends_remember pending _ _).2 ⟨rfl, rfl⟩

end

/-! ## Queueing once more -/

/-- The journal with the next number taken. -/
def JournalState.numbered (state : JournalState) : JournalState :=
  { state with messageSequence := state.messageSequence + 1 }

/-- The rejection under the next number. -/
def numberedRejection (env : Environment) (state : JournalState) (clock : Int)
    (event : LeaseRejected) : RunnerMessage :=
  ⟨currentId env state.numbered, some (Timestamp.ofTime clock), some (.leaseRejected event)⟩

/-- A rejection can be stored once more: there is a next number, and the journal with the event
under that number is valid. -/
def Requeues (env : Environment) (state : JournalState) (clock : Int) (event : LeaseRejected) :
    Prop :=
  state.messageSequence ≠ 0xFFFFFFFFFFFFFFFF ∧
    { state.numbered with pendingMessage := some (numberedRejection env state clock event) }.Valid
      env.toJournalEnvironment

theorem commits_next_iff :
    Commits env books .nextMessageSequence state ↔
      books.journal.messageSequence ≠ 0xFFFFFFFFFFFFFFFF ∧ state = books.journal.numbered ∧
        books.journal.numbered.Valid env.toJournalEnvironment := by
  constructor
  · intro numbers
    obtain ⟨room, rfl⟩ := commits_next env numbers
    exact ⟨room, rfl, numbers.2⟩
  · rintro ⟨room, rfl, valid⟩
    exact ⟨if_neg room, valid⟩

theorem commits_queueRejected_iff (books : Books) {event : LeaseRejected}
    (message : RunnerMessage) (carries : message.payload = some (.leaseRejected event))
    (free : books.journal.pendingMessage = none) :
    Commits env books (.queueDurable message .keep) state ↔
      state = { books.journal with pendingMessage := some message } ∧
        { books.journal with pendingMessage := some message }.Valid env.toJournalEnvironment := by
  have applied : (JournalChange.queueDurable message .keep).apply env.toJournalEnvironment
      books.journal = ({ books.journal with pendingMessage := some message }, none) := by
    simp [JournalChange.apply, free, validateTerminalProof, terminalProof, carries]
  unfold Commits
  rw [applied]
  constructor
  · rintro ⟨same, valid⟩
    obtain ⟨rfl, _⟩ := Prod.mk.inj same
    exact ⟨rfl, valid⟩
  · rintro ⟨rfl, valid⟩
    exact ⟨rfl, valid⟩

section

variable {event : LeaseRejected} (done : ∀ n, (world.responses n).persisted = .done)

include done

/-- What is left of queueing a rejection once its number is taken. -/
theorem ends_queueRejected {post : Except Failure Unit → World → Prop}
    (numbers : Commits env (booksOf world) .nextMessageSequence world.client.journal.numbered)
    (rest : Ends (do
      update env (.queueDurable (numberedRejection env world.client.journal
        (world.responses world.consumed).now event) .keep)
      sendRetained env (numberedRejection env world.client.journal
        (world.responses world.consumed).now event) : Handler Unit)
      (world.asked.committed .nextMessageSequence world.client.journal.numbered) post) :
    Ends (queueDurable env (.leaseRejected event) .keep) world post := by
  unfold queueDurable runnerMessage nextMessageSequence
  rw [bind_assoc, ends_readClock_bind, bind_assoc, bind_assoc]
  refine Ends.bind (ends_update_done world.asked numbers (done _)) ?_ (by simp)
  rintro _ numbered ⟨_, rfl⟩
  rw [bind_assoc, ends_snapshot_bind, pure_bind, pure_bind]
  exact rest

variable (free : world.client.journal.pendingMessage = none)

include free

/-- A rejection that can be stored once more is pending again. -/
theorem ends_queueRejected_stored
    (requeues : Requeues env world.client.journal (world.responses world.consumed).now event) :
    Ends (queueDurable env (.leaseRejected event) .keep) world fun _ final =>
      final.client.journal.pendingMessage = some (numberedRejection env world.client.journal
        (world.responses world.consumed).now event) := by
  have numbers : Commits env (booksOf world) .nextMessageSequence
      world.client.journal.numbered := by
    refine commits_next_iff.2 ⟨requeues.1, rfl, ?_⟩
    have valid := valid_without requeues.2 _ (Or.inl rfl)
    rw [← free] at valid
    exact valid
  refine ends_queueRejected done numbers ?_
  have queues := (commits_queueRejected_iff (booksOf
    (world.asked.committed .nextMessageSequence world.client.journal.numbered)) _ rfl free).2
    ⟨rfl, requeues.2⟩
  refine Ends.bind (ends_update_done _ queues (done _)) ?_ (by simp)
  rintro _ queued ⟨_, rfl⟩
  refine (ends_sendRetained env _ _).mono fun result final ends => ?_
  rcases ends.2.2 with same | same
  · exact congrArg (fun books => books.journal.pendingMessage) same
  · exact congrArg (fun books => books.journal.pendingMessage) same

/-- A rejection that cannot be stored is not sent either. -/
theorem ends_queueRejected_refused
    (refused : ¬ Requeues env world.client.journal (world.responses world.consumed).now event) :
    Ends (queueDurable env (.leaseRejected event) .keep) world fun _ final =>
      Cleared world final := by
  have kept {between final : World} (same : booksOf final = booksOf between)
      (cleared : Cleared world between) : Cleared world final :=
    ⟨(congrArg (fun books => books.journal.pendingMessage) same).trans cleared.1,
      by rw [show final.trace = between.trace from congrArg Books.trace same]; exact cleared.2⟩
  by_cases numbers : ∃ state, Commits env (booksOf world) .nextMessageSequence state
  · obtain ⟨state, numbers⟩ := numbers
    obtain ⟨number, rfl, _⟩ := commits_next_iff.1 numbers
    refine ends_queueRejected done numbers ?_
    refine Ends.bind (ends_update_uncommitted ?_ (by simp) ?_) ?_ ?_
    · intro state queues
      exact refused ⟨number, ((commits_queueRejected_iff _ _ rfl free).1 queues).2⟩
    · rintro ⟨_, ⟨_, _, same⟩ | ⟨_, _, same⟩⟩ <;> simp at same
    · rintro _ _ ⟨_, ⟨_, same⟩, _⟩
      simp at same
    · exact fun _ final ends => kept ends.2.2 (cleared_committed free fun _ => id)
  · unfold queueDurable runnerMessage nextMessageSequence
    rw [bind_assoc, ends_readClock_bind, bind_assoc, bind_assoc]
    refine Ends.bind (ends_update_uncommitted (not_exists.1 numbers) (by simp)
      (not_panics_next _)) ?_ ?_
    · rintro _ _ ⟨_, ⟨_, same⟩, _⟩
      simp at same
    · exact fun _ final ends => kept ends.2.2 ⟨free, fun _ => id⟩

end

/-! ## The acknowledgement -/

/-- An acknowledgement of the pending event that passes every check and reports the lease as
ended. -/
structure EndsLease (world : World) (acknowledgement : RunnerEventAcknowledgement)
    (pending : RunnerMessage) (reconciliation : LeaseReconciliation) : Prop where
  stands : world.client.journal.pendingMessage = some pending
  named : acknowledgement.runnerMessageId = pending.messageId
  unsettled : world.session.settledEvents.lookup acknowledgement.runnerMessageId = none
  timed : (validateTimestamp "eventAcknowledgement.committedAt"
    acknowledgement.committedAt).isSome = false
  carries : acknowledgement.reconciliation = some reconciliation
  bare : reconciliation.completeLogUpload = none
  formed : validateReconciliation (some reconciliation) = none
  identity : sameLeaseAttempt (runnerMessageIdentity pending).1 (runnerMessageIdentity pending).2
    reconciliation.lease reconciliation.attempt = true
  unauthorised : reconciliation.networkAuthorityV2 = none
  terminal : terminalLeaseStatus reconciliation.status = true

/-- With nothing to authorise, a terminal reconciliation at most withdraws the route. -/
theorem ends_consume_terminal (world : World) {reconciliation : LeaseReconciliation}
    (unauthorised : reconciliation.networkAuthorityV2 = none)
    (terminal : terminalLeaseStatus reconciliation.status = true) :
    Ends (consumeNetworkAuthority reconciliation) world fun result final =>
      result = .ok () ∧ (final = world ∨ final = world.workerStopped) := by
  unfold consumeNetworkAuthority
  rw [ends_snapshot_bind]
  simp only [unauthorised, Option.isSome_none, Bool.false_eq_true, if_false, terminal,
    Bool.true_or, if_true]
  split
  · exact ⟨rfl, Or.inl rfl⟩
  split
  · exact ⟨rfl, Or.inl rfl⟩
  split
  · exact ⟨rfl, Or.inl rfl⟩
  · exact (ends_stopWorker_bind _ _).2 ⟨rfl, Or.inr rfl⟩

/-- The pending event is a rejection of another lease than that of the active job, it is stale, and
it can be stored once more. -/
def Repeats (env : Environment) (world : World) (pending : RunnerMessage)
    (reconciliation : LeaseReconciliation) : Prop :=
  activeMatchesIdentity world.client.journal.active reconciliation.lease
      reconciliation.attempt = false ∧
    reconciliation.disposition = .stale ∧
    ∃ event, pending.payload = some (.leaseRejected event) ∧
      Requeues env { world.client.journal with pendingMessage := none }
        (world.responses (world.consumed + 1)).now event

theorem rejection_payload {message : RunnerMessage} (rejection : message.isRejection = true) :
    ∃ event, message.payload = some (.leaseRejected event) := by
  unfold RunnerMessage.isRejection at rejection
  split at rejection
  case h_1 event carries => exact ⟨event, carries⟩
  case h_2 => simp at rejection

theorem ends_reissue_rejected {pending : RunnerMessage} {event : LeaseRejected}
    (carries : pending.payload = some (.leaseRejected event))
    (foreign : activeMatchesIdentity world.client.journal.active
      (runnerMessageIdentity pending).1 (runnerMessageIdentity pending).2 = false) (now : Int)
    (post : Except Failure Unit → World → Prop) :
    Ends (reissueStaleEvent env pending now) world post ↔
      Ends (queueDurable env (.leaseRejected event) .keep) world post := by
  have identity : runnerMessageIdentity pending = (event.lease, event.attempt) := by
    simp [runnerMessageIdentity, carries]
  rw [identity] at foreign
  unfold reissueStaleEvent
  rw [identity]
  dsimp only
  rw [ends_snapshot_bind, foreign]
  simp only [Bool.false_eq_true, if_false, pure_bind, carries, Option.bind_some, reissued]

section

variable (valid : world.client.journal.Valid env.toJournalEnvironment)
  (done : ∀ n, (world.responses n).persisted = .done) {pending : RunnerMessage}
  {reconciliation : LeaseReconciliation}
  (stands : world.client.journal.pendingMessage = some pending)
  (identity : sameLeaseAttempt (runnerMessageIdentity pending).1 (runnerMessageIdentity pending).2
    reconciliation.lease reconciliation.attempt = true)
  (terminal : terminalLeaseStatus reconciliation.status = true)

include valid done terminal

theorem ends_settle_active (rounds : Nat) (now : Int)
    (matching : activeMatchesIdentity world.client.journal.active reconciliation.lease
      reconciliation.attempt = true) :
    Ends (settlePending env rounds pending reconciliation world.client.journal.active now) world
      fun _ final => Cleared world final := by
  obtain ⟨job, active, _⟩ := matches_active matching
  unfold settlePending
  simp only [terminal, matching, Bool.not_true, Bool.false_and, Bool.false_eq_true, if_false,
    Bool.and_self, if_true]
  rw [active]
  exact ends_finish_cleared valid done job pending

include stands identity

/-- What is left for a lease that is not the active one. -/
theorem ends_settle_foreign (rounds : Nat) (now : Int)
    (foreign : activeMatchesIdentity world.client.journal.active reconciliation.lease
      reconciliation.attempt = false) {post : Except Failure Unit → World → Prop}
    (rest : ∀ event, pending.payload = some (.leaseRejected event) →
      Ends (if reconciliation.disposition = .stale then
        queueDurable env (.leaseRejected event) .keep else pure () : Handler Unit)
        (world.settled pending world.client.journal.active) post) :
    Ends (settlePending env rounds pending reconciliation world.client.journal.active now) world
      post := by
  have rejection := foreign_rejection valid stands identity foreign
  obtain ⟨event, carries⟩ := rejection_payload rejection
  unfold settlePending
  simp only [terminal, foreign, Bool.not_true, Bool.false_and, Bool.false_eq_true, if_false,
    Bool.and_false, pure_bind, rejection, Bool.true_or, if_true]
  have last := rest event carries
  split
  case isTrue stale =>
    rw [if_pos stale] at last
    refine Ends.bind (ends_clear valid done pending world.client.journal.active) ?_ (by simp)
    rintro _ between ⟨_, rfl⟩
    refine (ends_reissue_rejected carries ?_ _ _).2 last
    rw [settled_journal]
    -- The event's own identity is that of the reconciliation.
    by_contra matching
    obtain ⟨_, active, same⟩ := matches_active (Bool.not_eq_false _ ▸ matching)
    have both := sameLeaseAttempt_trans same identity
    rw [active] at foreign
    exact Bool.false_ne_true (foreign.symm.trans both)
  case isFalse current =>
    rw [if_neg current] at last
    refine (ends_clear valid done pending world.client.journal.active).mono ?_
    rintro result final ⟨rfl, rfl⟩
    exact last

/-- A terminal reconciliation settles the pending event exactly when the event is not one that
repeats. -/
theorem settlePending_settles_iff (rounds : Nat) (now : Int) :
    Ends (settlePending env rounds pending reconciliation world.client.journal.active now) world
        (fun _ final => SettledFor world reconciliation final) ↔
      ¬ Repeats env world pending reconciliation := by
  have free : (world.settled pending world.client.journal.active).client.journal.pendingMessage =
      none := by rw [settled_journal]
  have cleared : Cleared world (world.settled pending world.client.journal.active) := by
    refine ⟨free, fun message found => ?_⟩
    rw [settled_trace] at found
    simpa using found
  have done' (n : Nat) : ((world.settled pending world.client.journal.active).responses
      n).persisted = .done := by
    rw [settled_responses]
    exact done n
  constructor
  · rintro settles ⟨foreign, stale, event, carries, requeues⟩
    have repeated : Ends (settlePending env rounds pending reconciliation
        world.client.journal.active now) world fun _ final =>
          ∃ message, final.client.journal.pendingMessage = some message ∧
            runnerMessageIdentity message = runnerMessageIdentity pending := by
      refine ends_settle_foreign valid done stands identity terminal rounds now foreign
        fun event' carries' => ?_
      obtain rfl : event = event' := by
        rw [carries, Option.some.injEq, RunnerPayload.leaseRejected.injEq] at carries'
        exact carries'
      rw [if_pos stale]
      refine (ends_queueRejected_stored done' free ?_).mono fun _ final stored =>
        ⟨_, stored, by simp [runnerMessageIdentity, numberedRejection, carries]⟩
      rw [settled_journal, settled_responses, settled_consumed]
      exact requeues
    have both := settles.and repeated
    rw [ends_iff] at both
    obtain ⟨settled, message, stored, same⟩ := both
    have foreign := settled.1 message stored
    rw [same] at foreign
    exact Bool.false_ne_true (foreign.symm.trans identity)
  · intro unrepeated
    cases matching : activeMatchesIdentity world.client.journal.active reconciliation.lease
        reconciliation.attempt with
    | true =>
      exact (ends_settle_active valid done terminal rounds now matching).mono
        fun _ _ cleared => cleared.settledFor _
    | false =>
      refine ends_settle_foreign valid done stands identity terminal rounds now matching
        fun event carries => ?_
      split
      case isFalse => exact cleared.settledFor _
      case isTrue stale =>
        have refused : ¬ Requeues env
            (world.settled pending world.client.journal.active).client.journal
            ((world.settled pending world.client.journal.active).responses
              (world.settled pending world.client.journal.active).consumed).now event := by
          rw [settled_journal, settled_responses, settled_consumed]
          exact fun requeues => unrepeated ⟨matching, stale, event, carries, requeues⟩
        exact (ends_queueRejected_refused done' free refused).mono
          fun _ _ last => (cleared.trans last).settledFor _

end

/-- The handler gets to the settling of the event. -/
theorem ends_handle_settle (env : Environment) {acknowledgement : RunnerEventAcknowledgement}
    {pending : RunnerMessage} {reconciliation : LeaseReconciliation}
    (ends : EndsLease world acknowledgement pending reconciliation) (rounds : Nat) (now : Int)
    (post : Except Failure Unit → World → Prop) :
    ∃ between, (between = world ∨ between = world.workerStopped) ∧
      (Ends (handleEventAcknowledgement env rounds acknowledgement now) world post ↔
        Ends (settlePending env rounds pending reconciliation between.client.journal.active now)
          between post) := by
  have consumed := ends_consume_terminal world ends.unauthorised ends.terminal
  have fits : validatePendingReconciliation pending reconciliation
      (world.client.journal.active.map (·.phase)) = none := by
    simp [validatePendingReconciliation, ends.terminal]
  have same : Ends (handleEventAcknowledgement env rounds acknowledgement now) world post ↔
      Ends (consumeNetworkAuthority reconciliation >>= fun _ => settlePending env rounds pending
        reconciliation world.client.journal.active now) world post := by
    unfold handleEventAcknowledgement
    simp only [ends.timed, ends.carries, Option.bind_some, ends.bare, Option.isSome_none,
      Bool.false_eq_true, if_false]
    rw [ends_get_bind]
    simp only [ends.unsettled]
    rw [ends_snapshot_bind]
    simp only [ends.stands, ends.named, ne_eq, not_true_eq_false, if_false, ends.formed, check,
      pure_bind, ends.identity, Bool.not_true, Bool.false_eq_true, fits]
  rw [same, ends_bind]
  rw [ends_iff] at consumed
  obtain ⟨answered, last⟩ := consumed
  refine ⟨_, last, ?_⟩
  have active : (Programs.last (consumeNetworkAuthority reconciliation) world).client.journal.active
      = world.client.journal.active := by
    rcases last with same | same <;> rw [same]
    rfl
  rw [ends_iff, answered, active]

/-- An acknowledgement that ends the lease of the pending event settles it exactly when the event is
not a stale rejection for another lease than the active one that can be stored once more.

Proof: behind the checks the handler is the one of `ends_handle_settle`, whose branches
`settlePending_settles_iff` goes through. -/
theorem terminal_acknowledgement_settles_iff (env : Environment) (world : World) (rounds : Nat)
    (acknowledgement : RunnerEventAcknowledgement) (now : Int) (pending : RunnerMessage)
    (reconciliation : LeaseReconciliation)
    (valid : world.client.journal.Valid env.toJournalEnvironment)
    (done : ∀ n, (world.responses n).persisted = .done)
    (ends : EndsLease world acknowledgement pending reconciliation) :
    Ends (handleEventAcknowledgement env rounds acknowledgement now) world
        (fun _ final => SettledFor world reconciliation final) ↔
      ¬ Repeats env world pending reconciliation := by
  obtain ⟨_, withdrawn, same⟩ := ends_handle_settle env ends rounds now
    (fun _ final => SettledFor world reconciliation final)
  rw [same]
  rcases withdrawn with rfl | rfl
  · exact settlePending_settles_iff valid done ends.stands ends.identity ends.terminal rounds now
  · have valid' : world.workerStopped.client.journal.Valid env.toJournalEnvironment := valid
    exact settlePending_settles_iff valid' done ends.stands ends.identity ends.terminal rounds now

/-! ## Samples -/

/-- A draining runner rejects an offer. -/
def rejecting : List (Action × (Nat → Response)) :=
  [(.openStream (sampleOpening 1000), sampleAnswers 1000),
    sampleDelivery 1001 (sampleMessage "drain" 1001
      (.drain ⟨encode "drain", encode "maintenance", some ⟨2000, 0⟩⟩)),
    sampleDelivery 1002 (sampleOffer 1002 2000)]

/-- The acknowledgement of the rejection, which is the fourth message of the runner. -/
def rejectionAcknowledged (disposition : Disposition) : RunnerEventAcknowledgement where
  runnerMessageId := numberedId (sampleClient.sha256 sampleClient.instanceID) 4
  committedAt := some ⟨1003, 0⟩
  reconciliation := some (sampleReconciliation 2000 disposition .expired .accepted)

/-- The identity of the pending event. -/
def pendingIdentity (world : World) : Option (Option LeaseIdentity × Option AttemptIdentity) :=
  world.client.journal.pendingMessage.map runnerMessageIdentity

/-- The rejection is pending on an open stream, and something with the same identity is pending
after its stale acknowledgement. -/
def rejectingFacts (world : World) : Bool :=
  world.stage == .streaming && world.session.settledEvents.isEmpty &&
    world.client.journal.pendingMessage.map (·.messageId) ==
      some (numberedId (sampleClient.sha256 sampleClient.instanceID) 4) &&
    pendingIdentity world == some (some (sampleLease 2000), some sampleAttempt) &&
    pendingIdentity (last (handleEventAcknowledgement sampleClient 1
      (rejectionAcknowledged .stale) (sampleTime 1003)) (world.before (sampleAnswers 1003))) ==
        some (some (sampleLease 2000), some sampleAttempt)

theorem rejecting_computed :
    (performAll sampleClient 1 rejecting (sampleBoot emptyJournal)).map rejectingFacts =
      some true := by
  decide +kernel

/-- The runner that has rejected the offer. -/
theorem rejecting_reached :
    ∃ world pending, Run sampleClient (fun journal _ => journal = emptyJournal) (fun _ _ => True)
      world ∧ world.client.journal.Valid sampleClient.toJournalEnvironment ∧
      (∀ disposition, disposition = .stale ∨ disposition = .applied →
        EndsLease (world.before (sampleAnswers 1003)) (rejectionAcknowledged disposition) pending
          (sampleReconciliation 2000 disposition .expired .accepted)) ∧
      pendingIdentity (last (handleEventAcknowledgement sampleClient 1
        (rejectionAcknowledged .stale) (sampleTime 1003)) (world.before (sampleAnswers 1003))) =
          some (some (sampleLease 2000), some sampleAttempt) := by
  obtain ⟨world, performed, facts⟩ := Option.map_eq_some_iff.1 rejecting_computed
  simp only [rejectingFacts, Bool.and_eq_true, beq_iff_eq, List.isEmpty_iff] at facts
  obtain ⟨⟨⟨⟨streaming, empty⟩, numbered⟩, identified⟩, again⟩ := facts
  obtain ⟨pending, stands, named⟩ := Option.map_eq_some_iff.1 numbered
  have identity :
      runnerMessageIdentity pending = (some (sampleLease 2000), some sampleAttempt) := by
    simpa [pendingIdentity, stands] using identified
  have begun : Run sampleClient (fun journal _ => journal = emptyJournal) (fun _ _ => True)
      (sampleBoot emptyJournal) := .start _ _ _ _ rfl (empty_valid _)
  have run := begun.performAll (fun _ _ _ => trivial) performed
  obtain ⟨_, reaches, _, going⟩ := run.free
  obtain rfl := going (by simp [streaming])
  refine ⟨world, pending, run, reaches.sound.valid, fun disposition either => ?_, again⟩
  exact
    { stands := stands
      named := named.symm
      unsettled := by simp [World.before, empty]
      timed := rfl
      carries := rfl
      bare := rfl
      formed := by rcases either with rfl | rfl <;> decide +kernel
      identity := by
        rw [identity]
        rcases either with rfl | rfl <;> decide +kernel
      unauthorised := rfl
      terminal := rfl }

/-- Acknowledged as applied, the rejection is settled. -/
theorem terminal_acknowledgement_settles_rejection :
    ∃ (world : World) (pending : RunnerMessage), EndsLease (world.before (sampleAnswers 1003))
      (rejectionAcknowledged .applied)
        pending (sampleReconciliation 2000 .applied .expired .accepted) ∧
      Ends (handleEventAcknowledgement sampleClient 1 (rejectionAcknowledged .applied)
        (sampleTime 1003)) (world.before (sampleAnswers 1003)) (fun _ final =>
          SettledFor (world.before (sampleAnswers 1003))
            (sampleReconciliation 2000 .applied .expired .accepted) final) := by
  obtain ⟨world, pending, _, valid, ends, _⟩ := rejecting_reached
  refine ⟨world, pending, ends .applied (Or.inr rfl), ?_⟩
  refine (terminal_acknowledgement_settles_iff sampleClient (world.before (sampleAnswers 1003)) 1 _
    _ pending _ valid (fun _ => rfl) (ends .applied (Or.inr rfl))).2 ?_
  rintro ⟨_, stale, _⟩
  exact absurd stale (by decide)

/-- Acknowledged as stale, the rejection is pending again. -/
theorem stale_rejection_repeats :
    ∃ world pending, Run sampleClient (fun journal _ => journal = emptyJournal) (fun _ _ => True)
      world ∧ EndsLease (world.before (sampleAnswers 1003)) (rejectionAcknowledged .stale) pending
        (sampleReconciliation 2000 .stale .expired .accepted) ∧
      ¬ Ends (handleEventAcknowledgement sampleClient 1 (rejectionAcknowledged .stale)
        (sampleTime 1003)) (world.before (sampleAnswers 1003)) (fun _ final =>
          SettledFor (world.before (sampleAnswers 1003))
            (sampleReconciliation 2000 .stale .expired .accepted) final) := by
  obtain ⟨world, pending, run, _, ends, again⟩ := rejecting_reached
  refine ⟨world, pending, run, ends .stale (Or.inl rfl), fun settles => ?_⟩
  rw [ends_iff] at settles
  obtain ⟨message, stored, identity⟩ := Option.map_eq_some_iff.1 again
  have foreign := settles.1 message stored
  rw [identity] at foreign
  exact absurd foreign (by decide +kernel)

end ProvenanceRunner.Gateway
