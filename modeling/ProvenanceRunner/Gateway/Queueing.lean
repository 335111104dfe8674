import ProvenanceRunner.Gateway.Atomicity
import ProvenanceRunner.Gateway.Logic

/-! # Queueing an event

What `queueDurable` can leave behind: nothing, a counter that has moved on, or a stored event that
may have been sent. `Queues` turns this into moves, given the reason for the event. -/

namespace ProvenanceRunner.Gateway

open Programs

variable {state : JournalState}

variable (env : Environment) (licence : Licence)

/-- The view shows the books beside the given hands, as long as the hands of the world stay. -/
def Sees (view : World → Core) (world : World) (hands : Hands) : Prop :=
  ∀ final, handsOf final = handsOf world → view final = ⟨booksOf final, hands⟩

theorem sees_coreOf (world : World) : Sees coreOf world (handsOf world) := by
  intro final same
  rw [coreOf_eq, same]

/-- The failures that a caller can go on after. -/
def Failure.sane (failure : Failure) : Prop := failure ≠ .nilDereference ∧ failure ≠ .unfinished

/-- An answer that a caller can go on after. -/
def Sane {α : Type} (result : Except Failure α) : Prop :=
  ∀ failure, result = .error failure → failure.sane

@[simp]
theorem sane_ok {α : Type} (answer : α) : Sane (.ok answer) := nofun

theorem sane_error {α : Type} {failure : Failure} (sane : failure.sane) :
    Sane (.error failure : Except Failure α) := fun _ same => Except.error.inj same ▸ sane

theorem sane_permanent (text : String) : (Failure.permanent text).sane := by simp [Failure.sane]
theorem sane_plain (text : String) : (Failure.plain text).sane := by simp [Failure.sane]
theorem sane_io (transient : Bool) : (Failure.io transient).sane := by simp [Failure.sane]

/-! ## Sending -/

/-- Sending leaves one entry in the history. -/
theorem ends_send (message : RunnerMessage) (world : World) :
    Ends (send message) world fun result final =>
      Sane result ∧ handsOf final = handsOf world ∧
        booksOf final = (booksOf world).log (.sent message) := by
  unfold send
  rw [ends_record_bind, ends_ask_bind]
  split
  · exact ⟨by simp, rfl, rfl⟩
  · exact ⟨sane_error (sane_io _), rfl, rfl⟩

/-- The books with the message sent, or as they were. -/
def MaybeSent (books : Books) (message : RunnerMessage) (final : Books) : Prop :=
  final = books ∨ final = books.log (.sent message)

theorem ends_sendRetained (message : RunnerMessage) (world : World) :
    Ends (sendRetained env message) world fun result final =>
      Sane result ∧ handsOf final = handsOf world ∧
        MaybeSent (booksOf world) message (booksOf final) := by
  have refused (text : String) : Ends (permanent text : Handler Unit) world
      fun result final => Sane result ∧
        handsOf final = handsOf world ∧ MaybeSent (booksOf world) message (booksOf final) :=
    ⟨sane_error (sane_permanent text), rfl, Or.inl rfl⟩
  have sends := ends_send message world
  unfold sendRetained
  rw [ends_get_bind]
  split
  · exact refused _
  rw [ends_snapshot_bind]
  split
  · exact refused _
  · exact sends.mono fun result final ends => ⟨ends.1, ends.2.1, Or.inr ends.2.2⟩

/-! ## Numbering -/

variable (change : JournalChange)

/-- A failed change leaves the books alone, unless it is a reconciliation. -/
theorem booksOf_spoiled (world : World) (state : JournalState) (failure : Failure)
    (applied : change.apply env.toJournalEnvironment world.client.journal = (state, some failure))
    (other : ∀ reconciliation, change ≠ .reconcile reconciliation) :
    booksOf (world.spoiled state) = booksOf world := by
  have kept : state = world.client.journal := by
    rcases apply_failed_cases env.toJournalEnvironment change world.client.journal state failure
      applied with same | ⟨reconciliation, _, _, chosen, _⟩
    · exact same
    · exact absurd chosen (other reconciliation)
  subst kept
  rfl

/-- The failures of a change are never transient, and never without an end. -/
theorem apply_failure (state result : JournalState) (failure : Failure)
    (applied : change.apply env.toJournalEnvironment state = (result, some failure)) :
    failure.transient = false ∧ failure ≠ .unfinished := by
  cases change <;> simp only [JournalChange.apply] at applied <;>
    (repeat' split at applied) <;>
    first
    | (obtain ⟨_, rfl⟩ := applied; exact ⟨rfl, by simp⟩)
    | simp at applied

/-- The changes that find no active job where they need one. -/
def Panics (change : JournalChange) (state : JournalState) : Prop :=
  state.active = none ∧ ((∃ cancellation digest, change = .recordCancellation cancellation digest) ∨
    ∃ message phase, change = .queueDurable message (.phase phase))

theorem apply_panics (state result : JournalState)
    (applied : change.apply env.toJournalEnvironment state = (result, some .nilDereference)) :
    Panics change state := by
  cases change with
  | recordCancellation cancellation digest =>
    refine ⟨?_, Or.inl ⟨cancellation, digest, rfl⟩⟩
    simp only [JournalChange.apply] at applied
    split at applied
    · assumption
    · simp at applied
  | queueDurable message =>
    simp only [JournalChange.apply] at applied
    (repeat' split at applied) <;> first
      | exact ⟨by assumption, Or.inr ⟨message, _, rfl⟩⟩
      | simp at applied
  | _ =>
    simp only [JournalChange.apply] at applied
    (repeat' split at applied) <;> simp at applied

/-- The end of an update of the journal that is not a reconciliation. -/
theorem ends_update_exact (world : World)
    (other : ∀ reconciliation, change ≠ .reconcile reconciliation)
    (calm : ¬ Panics change world.client.journal) :
    Ends (update env change) world fun result final =>
      Sane result ∧ handsOf final = handsOf world ∧
        ((∃ state, Commits env (booksOf world) change state ∧
            final = world.committed change state ∧ (∀ failure, result = .error failure →
              ∃ transient, (world.responses world.consumed).persisted = .unsynced transient)) ∨
          (booksOf final = booksOf world ∧ ∃ failure, result = .error failure)) := by
  refine ends_update env change world _ ?_ ?_ ?_ ?_
  · intro state commits
    exact ⟨by simp, rfl, Or.inl ⟨state, commits, rfl, by simp⟩⟩
  · intro state transient commits persisted
    exact ⟨sane_error (sane_io transient), rfl,
      Or.inl ⟨state, commits, rfl, fun _ _ => ⟨transient, persisted⟩⟩⟩
  · intro failure nil endless _
    exact ⟨sane_error ⟨nil, endless⟩, rfl, Or.inr ⟨rfl, failure, rfl⟩⟩
  intro state failure applied
  refine ⟨sane_error ⟨fun nil => calm ?_, (apply_failure env change _ _ _ applied).2⟩, rfl,
    Or.inr ⟨booksOf_spoiled env change world state failure applied other, failure, rfl⟩⟩
  exact apply_panics env change _ state (nil ▸ applied)

theorem not_panics_next (state : JournalState) : ¬ Panics .nextMessageSequence state := by
  rintro ⟨_, ⟨_, _, same⟩ | ⟨_, _, same⟩⟩ <;> simp at same

/-- Taking the next identity moves the counter on, or changes nothing. -/
theorem ends_runnerMessage (world : World) :
    Ends (runnerMessage env) world fun result final =>
      handsOf final = handsOf world ∧
        ((∃ state, Commits env (booksOf world) .nextMessageSequence state ∧
            booksOf final = (booksOf world).commit .nextMessageSequence state ∧
            final.session = world.session ∧
            match result with
            | .ok message => message.messageId = currentId env state ∧ message.payload = none
            | .error failure => failure.sane) ∨
          (booksOf final = booksOf world ∧ ∃ failure, result = .error failure ∧ failure.sane)) := by
  unfold runnerMessage nextMessageSequence
  rw [ends_readClock_bind, ends_bind, ends_bind]
  refine (ends_update_exact env .nextMessageSequence world.asked (by simp)
    (not_panics_next _)).mono fun result final ends => ?_
  obtain ⟨sane, hands, ⟨state, commits, rfl, _⟩ | ⟨same, failure, rfl⟩⟩ := ends
  · cases result with
    | ok => exact ⟨rfl, Or.inl ⟨state, commits, rfl, rfl, rfl, rfl⟩⟩
    | error failure => exact ⟨rfl, Or.inl ⟨state, commits, rfl, rfl, sane failure rfl⟩⟩
  · exact ⟨hands, Or.inr ⟨same, failure, rfl, sane failure rfl⟩⟩

/-! ## Queueing -/

/-- What queueing an event leaves behind. -/
inductive QueueEnd (books : Books) (payload : RunnerPayload) (mutation : Mutation) :
    Except Failure Unit → Books → Prop where
  | nothing (failure : Failure) : QueueEnd books payload mutation (.error failure) books
  | numbered (failure : Failure) (state : JournalState)
    (numbers : Commits env books .nextMessageSequence state) :
    QueueEnd books payload mutation (.error failure) (books.commit .nextMessageSequence state)
  | queued (result : Except Failure Unit) (numbered queued : JournalState)
    (message : RunnerMessage) (final : Books)
    (numbers : Commits env books .nextMessageSequence numbered)
    (identity : message.messageId = currentId env numbered)
    (carries : message.payload = some payload)
    (queues : Commits env (books.commit .nextMessageSequence numbered)
      (.queueDurable message mutation) queued)
    (sent : MaybeSent ((books.commit .nextMessageSequence numbered).commit
      (.queueDurable message mutation) queued) message final) :
    QueueEnd books payload mutation result final

theorem commits_next {books : Books} (numbers : Commits env books .nextMessageSequence state) :
    books.journal.messageSequence ≠ 0xFFFFFFFFFFFFFFFF ∧
      state = { books.journal with messageSequence := books.journal.messageSequence + 1 } := by
  have applied := numbers.1
  simp only [JournalChange.apply] at applied
  split at applied
  · simp at applied
  case isFalse room => exact ⟨room, (Prod.mk.inj applied).1.symm⟩

/-- An event is numbered and then stored, and each of the two writes can fail. -/
theorem ends_queueDurable (payload : RunnerPayload) (mutation : Mutation) (world : World)
    (present : ∀ phase, mutation = .phase phase → world.client.journal.active ≠ none) :
    Ends (queueDurable env payload mutation) world fun result final =>
      Sane result ∧ handsOf final = handsOf world ∧
        QueueEnd env (booksOf world) payload mutation result (booksOf final) := by
  unfold queueDurable
  refine Ends.bind (ends_runnerMessage env world) ?_ ?_
  case refine_2 =>
    rintro failure final ⟨hands, ⟨state, commits, books, _, sane⟩ | ⟨books, _, same, sane⟩⟩
    · rw [books]
      exact ⟨sane_error sane, hands, .numbered failure state commits⟩
    · obtain rfl := Except.error.inj same
      rw [books]
      exact ⟨sane_error sane, hands, .nothing failure⟩
  case refine_1 =>
    rintro empty numbered ⟨hands, ⟨state, commits, books, _, identity, _⟩ |
      ⟨_, failure, same, _⟩⟩
    case inr => simp at same
    dsimp only
    split
    case h_1 text _ =>
      refine ⟨sane_error (sane_plain text), hands, ?_⟩
      rw [books]
      exact .numbered _ state commits
    case h_2 =>
      let message : RunnerMessage := { empty with payload := some payload }
      have journal : numbered.client.journal = state := congrArg Books.journal books
      have calm : ¬ Panics (.queueDurable message mutation) numbered.client.journal := by
        rintro ⟨none, ⟨_, _, same⟩ | ⟨_, phase, same⟩⟩
        · simp at same
        · rw [journal, (commits_next env commits).2] at none
          exact present phase (JournalChange.queueDurable.inj same).2 none
      refine Ends.bind (ends_update_exact env (.queueDurable message mutation) numbered (by simp)
        calm) ?_ ?_
      · rintro _ queued ⟨_, hands', ⟨after, queues, rfl, _⟩ | ⟨_, failure, same⟩⟩
        case inr => simp at same
        refine (ends_sendRetained env message _).mono fun result final ends => ?_
        obtain ⟨sane, hands'', sent⟩ := ends
        rw [books] at queues
        rw [booksOf_committed, books] at sent
        exact ⟨sane, hands''.trans (hands'.trans hands),
          .queued result state after message _ commits identity rfl queues sent⟩
      · rintro failure final ⟨sane, hands', ⟨after, queues, rfl, _⟩ | ⟨same, _⟩⟩
        · refine ⟨sane, hands'.trans hands, ?_⟩
          rw [books] at queues
          rw [booksOf_committed, books]
          exact .queued _ state after message _ commits identity rfl queues (Or.inl rfl)
        · rw [same, books]
          exact ⟨sane, hands'.trans hands, .numbered failure state commits⟩

/-! ## Queueing as moves -/

section

variable {env licence} {start : Core} {books final : Books} {hands : Hands}

theorem number_moves (reached : Moves env licence start ⟨books, hands⟩)
    (numbers : Commits env books .nextMessageSequence state) :
    Moves env licence start ⟨books.commit .nextMessageSequence state, hands⟩ :=
  reached.tail (.commit books hands _ state numbers trivial)

/-- The journal with an event queued, by what becomes of the active job. -/
inductive Queued (journal : JournalState) (message : RunnerMessage) :
    Mutation → JournalState → Prop where
  | keep : Queued journal message .keep { journal with pendingMessage := some message }
  | accept (job : JournalJob) (idle : journal.active = none) :
    Queued journal message (.accept job)
      { journal with active := some job, pendingMessage := some message }
  | phase (phase : JobPhase) (job : JournalJob) (active : journal.active = some job) :
    Queued journal message (.phase phase)
      { journal with
        active := some { job with phase := phase }, pendingMessage := some message }

theorem commits_queueDurable {message : RunnerMessage} {mutation : Mutation}
    (queues : Commits env books (.queueDurable message mutation) state) :
    books.journal.pendingMessage = none ∧ Queued books.journal message mutation state := by
  have applied := queues.1
  simp only [JournalChange.apply] at applied
  split at applied
  · simp at applied
  case isFalse free =>
    refine ⟨by simpa using free, ?_⟩
    cases active : books.journal.active <;> cases mutation <;> rw [active] at applied <;>
      (split at applied) <;> simp only [Prod.mk.injEq, reduceCtorEq, and_false, and_true] at applied
    all_goals subst applied
    · exact active ▸ .keep
    · exact .accept _ active
    · exact active ▸ .keep
    · exact .phase _ _ active

theorem queued_pending {message : RunnerMessage} {mutation : Mutation}
    (queues : Commits env books (.queueDurable message mutation) state) :
    state.pendingMessage = some message := by
  cases (commits_queueDurable queues).2 <;> rfl

theorem commits_storeHeartbeat {message : RunnerMessage}
    (stores : Commits env books (.storeHeartbeat message) state) :
    books.journal.pendingHeartbeat = none ∧
      state = { books.journal with pendingHeartbeat := some message } := by
  have applied := stores.1
  simp only [JournalChange.apply] at applied
  split at applied
  · simp at applied
  case isFalse free => exact ⟨by simpa using free, (Prod.mk.inj applied).1.symm⟩

theorem sent_moves {message : RunnerMessage} (reached : Moves env licence start ⟨books, hands⟩)
    (pending : books.journal.pendingMessage = some message)
    (sent : MaybeSent books message final) : Moves env licence start ⟨final, hands⟩ := by
  rcases sent with rfl | rfl
  · exact reached
  · exact reached.tail (.note books hands (.sent message) (Or.inl pending))

/-- Queueing an event for a good reason is a sequence of moves. -/
theorem QueueEnd.moves {payload : RunnerPayload} {mutation : Mutation}
    {result : Except Failure Unit} (ends : QueueEnd env books payload mutation result final)
    (reached : Moves env licence start ⟨books, hands⟩)
    (origin : ∀ numbered message, Commits env books .nextMessageSequence numbered →
      message.payload = some payload →
      Origin licence ⟨books.commit .nextMessageSequence numbered, hands⟩ message mutation) :
    Moves env licence start ⟨final, hands⟩ := by
  cases ends with
  | nothing => exact reached
  | numbered failure state numbers => exact number_moves reached numbers
  | queued _ numbered queued message _ numbers identity carries queues sent =>
    have fresh : Fresh env (books.commit .nextMessageSequence numbered) message :=
      ⟨⟨books.trace, rfl⟩, identity⟩
    have stored := (number_moves reached numbers).tail (.commit _ hands _ queued queues
      ⟨fresh, origin numbered message numbers carries⟩)
    exact sent_moves stored (queued_pending queues) sent

/-- Reporting a result takes it out of the worker's events when the report is stored. -/
theorem QueueEnd.report {payload : RunnerPayload} {result : Except Failure Unit} {after : Hands}
    {outcome : WorkerResult} {evidence usage : Option WorkerEvidence}
    (ends : QueueEnd env books payload .keep result final)
    (reached : Moves env licence start ⟨books, hands⟩)
    (consumes : Consumes (.result outcome evidence usage) hands after)
    (reports : ∀ message, message.payload = some payload → Reports outcome message) :
    (Moves env licence start ⟨final, after⟩ ∧ final.journal.pendingMessage.isSome = true) ∨
    (Moves env licence start ⟨final, hands⟩ ∧
      final.journal.pendingMessage = books.journal.pendingMessage ∧
      ∃ failure, result = .error failure) := by
  cases ends with
  | nothing failure => exact Or.inr ⟨reached, rfl, failure, rfl⟩
  | numbered failure state numbers =>
    refine Or.inr ⟨number_moves reached numbers, ?_, failure, rfl⟩
    change state.pendingMessage = _
    rw [(commits_next env numbers).2]
  | queued _ numbered queued message _ numbers identity carries queues sent =>
    have fresh : Fresh env (books.commit .nextMessageSequence numbered) message :=
      ⟨⟨books.trace, rfl⟩, identity⟩
    have stored := (number_moves reached numbers).tail (.report _ hands after outcome evidence usage
      message queued consumes queues fresh (reports message carries))
    refine Or.inl ⟨sent_moves stored (queued_pending queues) sent, ?_⟩
    rcases sent with rfl | rfl <;>
      (change queued.pendingMessage.isSome = true; rw [queued_pending queues]; rfl)

variable {view : World → Core} {world : World} {α : Type} {post : α → World → Prop}

/-- A program has failed in a world that the core has followed. -/
theorem Reached.failed {failure : Failure} (sane : failure ≠ .nilDereference)
    (moves : Moves env licence start (coreOf world)) :
    Reached env licence coreOf start post (.error failure) world :=
  ⟨sane, _, moves, Or.inl List.suffix_rfl, fun _ => rfl⟩

theorem Reached.of_sane {result : Except Failure α} (sane : Sane result)
    (moves : Moves env licence start (coreOf world))
    (holds : ∀ answer, result = .ok answer → post answer world) :
    Reached env licence coreOf start post result world := by
  cases result with
  | ok answer => exact ⟨moves, holds answer rfl⟩
  | error failure => exact .failed (sane failure rfl).1 moves

/-- A change has failed halfway. -/
theorem Reached.spoiled {change : JournalChange} {failure : Failure}
    (moves : Moves env licence start (coreOf world)) (sane : failure ≠ .nilDereference)
    (applied : change.apply env.toJournalEnvironment world.client.journal = (state, some failure)) :
    Reached env licence coreOf start post (.error failure) (world.spoiled state) := by
  refine ⟨sane, _, moves, Or.inl List.suffix_rfl, fun transient => ?_⟩
  rw [(apply_failure env change _ _ _ applied).1] at transient
  simp at transient

theorem Acts.of_ends {program : Handler α}
    (ends : Ends program world fun result final => handsOf final = handsOf world ∧
      (∀ failure, result = .error failure → failure ≠ .nilDereference) ∧
      Moves env licence start ⟨booksOf final, hands⟩ ∧
      ∀ answer, result = .ok answer → post answer final)
    (sees : Sees view world hands) : Acts env licence view start program world post := by
  refine Ends.mono ends fun result final reached => ?_
  obtain ⟨same, sane, moves, holds⟩ := reached
  rw [← sees final same] at moves
  cases result with
  | ok answer => exact ⟨moves, holds answer rfl⟩
  | error failure =>
    refine ⟨sane failure rfl, view final, moves, Or.inl ?_, fun _ => rfl⟩
    rw [sees final same]
    exact List.suffix_rfl

theorem acts_queueDurable (payload : RunnerPayload) (mutation : Mutation)
    (sees : Sees view world hands) (reached : Moves env licence start ⟨booksOf world, hands⟩)
    (present : ∀ phase, mutation = .phase phase → world.client.journal.active ≠ none)
    (origin : ∀ numbered message, Commits env (booksOf world) .nextMessageSequence numbered →
      message.payload = some payload →
      Origin licence ⟨(booksOf world).commit .nextMessageSequence numbered, hands⟩ message
        mutation) :
    Acts env licence view start (queueDurable env payload mutation) world
      fun _ final => handsOf final = handsOf world := by
  refine Acts.of_ends ?_ sees
  refine (ends_queueDurable env payload mutation world present).mono fun result final ends => ?_
  exact ⟨ends.2.1, fun failure same => (ends.1 failure same).1, ends.2.2.moves reached origin,
    fun _ _ => ends.2.1⟩

end

end ProvenanceRunner.Gateway
