import ProvenanceRunner.Gateway.Queueing

/-! # Worker events as moves

An event stays with the worker's events, as far as the core is concerned, until the client has
decided what becomes of it: it is dismissed, postponed, awaited or reported. In this way a result
is never out of sight between the moment it is taken up and the moment its report is stored. -/

namespace ProvenanceRunner.Gateway

open Utf8 Programs

variable {books final : Books} {α : Type}

variable (env : Environment) {licence : Licence}

/-! ## Live evidence -/

/-- Entries of the history about live messages. -/
def LiveNote : Effect → Prop
  | .evidence _ => True
  | .sent message => message.isLive
  | _ => False

/-- The books with some live entries added. -/
def Noted (books final : Books) : Prop :=
  ∃ notes : List Effect, (∀ effect ∈ notes, LiveNote effect) ∧
    final = { books with trace := notes ++ books.trace }

theorem Noted.refl (books : Books) : Noted books books := ⟨[], by simp, rfl⟩

theorem Noted.log (noted : Noted books final) (effect : Effect)
    (live : LiveNote effect) : Noted books (final.log effect) := by
  obtain ⟨notes, all, rfl⟩ := noted
  exact ⟨effect :: notes, by simpa [live] using all, rfl⟩

theorem Noted.trans {middle : Books} (first : Noted books middle)
    (second : Noted middle final) : Noted books final := by
  obtain ⟨older, olderLive, rfl⟩ := first
  obtain ⟨newer, newerLive, rfl⟩ := second
  refine ⟨newer ++ older, fun effect member => ?_, by simp⟩
  rcases List.mem_append.1 member with member | member
  · exact newerLive effect member
  · exact olderLive effect member

theorem Noted.moves {start : Core} {hands : Hands}
    (noted : Noted books final) (reached : Moves env licence start ⟨books, hands⟩) :
    Moves env licence start ⟨final, hands⟩ := by
  obtain ⟨notes, live, rfl⟩ := noted
  induction notes with
  | nil => exact reached
  | cons effect notes induction =>
    have rest := induction fun other member => live other (List.mem_cons_of_mem effect member)
    have quiet : Quiet env { books with trace := notes ++ books.trace } effect := by
      have isLive := live effect List.mem_cons_self
      cases effect with
      | evidence => trivial
      | sent => exact Or.inr (Or.inr (Or.inr isLive))
      | _ => exact absurd isLive id
    exact rest.tail (.note _ hands effect quiet)

/-- The counter of unjournaled messages has moved on. -/
def World.counted (world : World) : World :=
  { world with client := { world.client with
      ephemeralSequence := (world.client.ephemeralSequence + 1) % 2 ^ 64 } }

theorem ends_nextEphemeral_bind (next : Nat → Handler α) (world : World)
    (post : Except Failure α → World → Prop) :
    Ends (nextEphemeral >>= next) world post ↔
      Ends (next world.counted.client.ephemeralSequence) world.counted post := Iff.rfl

variable (outcome : WorkerResult) (event : WorkerEvidence)

theorem livePayload_isLive (payload : RunnerPayload) (carried : livePayload event = some payload)
    (id : Bytes) (sentAt : Option Timestamp) :
    RunnerMessage.isLive ⟨id, sentAt, some payload⟩ := by
  unfold livePayload at carried
  split at carried
  · exact Or.inl ⟨_, carried.symm⟩
  · exact Or.inr (Or.inl ⟨_, carried.symm⟩)
  · simp at carried

theorem ends_sendLive (world : World) :
    Ends (sendLive env event) world fun result final =>
      Sane result ∧ handsOf final = handsOf world ∧
        Noted (booksOf world) (booksOf final) := by
  unfold sendLive
  rw [ends_readClock_bind, ends_nextEphemeral_bind]
  split
  · exact ⟨by simp, rfl, Noted.refl _⟩
  split
  · exact ⟨by simp, rfl, Noted.refl _⟩
  rename_i payload carried
  dsimp only
  split
  · exact ⟨by simp, rfl, Noted.refl _⟩
  · refine (ends_send _ _).mono fun result final ends => ⟨ends.1, ends.2.1, ?_⟩
    rw [ends.2.2]
    exact (Noted.refl _).log _ (livePayload_isLive event payload carried _ _)

/-- Sending live evidence only adds live entries to the history. -/
theorem ends_sendWorkerEvidence (world : World) :
    Ends (sendWorkerEvidence env event) world fun result final =>
      Sane result ∧ handsOf final = handsOf world ∧
        Noted (booksOf world) (booksOf final) := by
  have begun : Noted (booksOf world) ((booksOf world).log (.evidence event)) :=
    (Noted.refl _).log _ trivial
  unfold sendWorkerEvidence
  rw [ends_record_bind, ends_get_bind]
  dsimp only
  split
  · exact ⟨by simp, rfl, begun⟩
  rw [ends_snapshot_bind]
  split
  · exact ⟨by simp, rfl, begun⟩
  rw [ends_readClock_bind]
  split
  · exact ⟨by simp, rfl, begun⟩
  split
  · exact (ends_sendLive env event _).mono fun _ _ ends =>
      ⟨ends.1, ends.2.1, begun.trans ends.2.2⟩
  split
  · exact ⟨by simp, rfl, begun⟩
  · rw [ends_modifySession_bind]
    exact (ends_sendLive env event _).mono fun _ _ ends =>
      ⟨ends.1, ends.2.1, begun.trans ends.2.2⟩

theorem ends_attempt (program : Handler α) (world : World)
    (post : Except Failure α → World → Prop)
    (ends : Ends program world fun result final =>
      Sane result ∧ post result final) :
    Ends (attempt program) world fun result final =>
      ∃ answer, result = .ok answer ∧ Sane answer ∧
        post answer final := by
  unfold Ends at ends ⊢
  unfold attempt
  revert ends
  cases program world with
  | ok answer => exact fun ends => ⟨.ok answer, rfl, by simp, ends.2⟩
  | error failure =>
    intro ends
    have sane := ends.1 failure rfl
    cases failure with
    | nilDereference => exact absurd rfl sane.1
    | unfinished => exact absurd rfl sane.2
    | _ => exact ⟨_, rfl, sane_error sane, ends.2⟩

/-- The last evidence of a worker only adds live entries, and never fails. -/
theorem ends_sendFinal (evidence : Option WorkerEvidence) (world : World) :
    Ends (sendFinal env evidence) world fun result final =>
      result = .ok () ∧ handsOf final = handsOf world ∧
        Noted (booksOf world) (booksOf final) := by
  unfold sendFinal
  split
  · exact ⟨rfl, rfl, Noted.refl _⟩
  rename_i evidence
  refine (ends_attempt _ world _ (ends_sendWorkerEvidence env evidence world)).bind_ok ?_
  rintro answer final ⟨_, hands, noted⟩
  exact ⟨rfl, hands, noted⟩

/-- After the bookkeeping of a result the worker counts as stopped. -/
theorem ends_noteResult (result : WorkerResult) (evidence usage : Option WorkerEvidence)
    (world : World) :
    Ends (noteResult env result evidence usage) world fun ended final =>
      ended = .ok () ∧ handsOf final = { handsOf world with workerRunning := false } ∧
        Noted (booksOf world) (booksOf final) := by
  unfold noteResult
  lift_lets
  extract_lets closing
  have rest (next : World) (hands : handsOf next = handsOf world)
      (books : booksOf next = booksOf world) :
      Ends (closing ()) next fun ended final =>
      ended = .ok () ∧ handsOf final = { handsOf world with workerRunning := false } ∧
        Noted (booksOf world) (booksOf final) := by
    unfold closing
    unfold markWorkerStopped
    rw [ends_modifyClient_bind]
    have stopped : handsOf { next with client := { next.client with workerRunning := false } } =
        { handsOf world with workerRunning := false } := by
      rw [← hands]
      rfl
    refine Ends.bind (ends_sendFinal env evidence _) ?_ ?_
    · rintro _ middle ⟨_, first, noted⟩
      refine (ends_sendFinal env usage middle).mono fun ended final ends => ?_
      obtain ⟨done, second, later⟩ := ends
      exact ⟨done, second.trans (first.trans stopped), books ▸ noted.trans later⟩
    · rintro failure final ⟨same, _⟩
      simp at same
  split
  · unfold drain
    rw [ends_modifyClient_bind]
    exact rest _ rfl rfl
  · exact rest world rfl rfl

/-- The events with one of them put off. -/
def Hands.postponed (hands : Hands) (event : WorkerEvent) : Hands :=
  { hands with deferred := hands.deferred ++ [event] }

/-! ## Secrets -/

/-- A request for secrets adds live entries, and is at most put off. -/
def RequestEnd (request : SecretRequest) (world : World) (result : Except Failure Unit)
    (final : World) : Prop :=
  Sane result ∧ Noted (booksOf world) (booksOf final) ∧
    (handsOf final = handsOf world ∨ (world.client.journal.pendingMessage.isSome = true ∧
      handsOf final = (handsOf world).postponed (.secretRequest request)))

theorem ends_beginSecretRequest (request : SecretRequest) (world : World) :
    Ends (beginSecretRequest env request) world (RequestEnd request world) := by
  have quiet (next : World) (books : booksOf next = booksOf world)
      (hands : handsOf next = handsOf world) :
      Ends (pure () : Handler Unit) next (RequestEnd request world) :=
    ⟨by simp, books ▸ Noted.refl _, Or.inl hands⟩
  unfold beginSecretRequest
  rw [ends_get_bind, ends_ask_bind]
  dsimp only
  split
  · exact quiet _ rfl rfl
  rw [ends_snapshot_bind]
  split
  · exact quiet _ rfl rfl
  split
  · exact quiet _ rfl rfl
  split
  case isTrue stands => exact ⟨by simp, Noted.refl _, Or.inr ⟨stands, rfl⟩⟩
  split
  · exact quiet _ rfl rfl
  rw [ends_nextEphemeral_bind]
  split
  · exact quiet _ rfl rfl
  split
  · exact quiet _ rfl rfl
  rw [ends_modifySession_bind]
  refine (ends_attempt _ _ _ (ends_send _ _)).bind_ok ?_
  rintro answer final ⟨sane, hands, books⟩
  have noted : Noted (booksOf world) (booksOf final) := by
    rw [books]
    exact (Noted.refl _).log _ (Or.inr (Or.inr ⟨_, _, rfl⟩))
  cases answer with
  | ok => exact ⟨by simp, noted, Or.inl hands⟩
  | error failure => exact ⟨sane_error (sane failure rfl), noted, Or.inl hands⟩

/-! ## Results -/

theorem ends_activeIdentity_bind (state : JournalState) (world : World)
    (next : Option LeaseIdentity × Option AttemptIdentity → Handler α)
    (post : Except Failure α → World → Prop)
    (missing : post (.error (.plain "active lease is missing")) world)
    (present : ∀ job, state.active = some job →
      Ends (next (job.specification.lease, job.specification.attempt)) world post) :
    Ends (activeIdentity state >>= next) world post := by
  unfold activeIdentity
  split
  · exact missing
  · rename_i job active
    exact present job active

theorem ends_freezeProof_bind (result : WorkerResult) (lease : Option LeaseIdentity)
    (attempt : Option AttemptIdentity) (world : World)
    (next : Option ExecutionEvidence → Handler α) (post : Except Failure α → World → Prop)
    (refused : ∀ text, post (.error (.permanent text)) world)
    (frozen : ∀ proof, Ends (next proof) world post) :
    Ends (freezeProof env result lease attempt >>= next) world post := by
  rw [ends_bind]
  unfold freezeProof
  rw [ends_get_bind]
  dsimp only
  split
  · exact refused _
  split
  · exact frozen none
  split
  · exact refused _
  split
  · exact refused _
  · exact frozen _

/-- What an attempt to report a result leaves behind. -/
def ReportEnd (books : Books) (outcome : WorkerResult) (result : Except Failure Unit)
    (final : Books) : Prop :=
  (final = books ∧ ∃ failure, result = .error failure) ∨
    ∃ payload, (∀ message, message.payload = some payload → Reports outcome message) ∧
      QueueEnd env books payload .keep result final

/-- The end of a report, with the hands of the world unchanged. -/
def Reported (world : World) (outcome : WorkerResult) (result : Except Failure Unit)
    (final : World) : Prop :=
  Sane result ∧ handsOf final = handsOf world ∧
    ReportEnd env (booksOf world) outcome result (booksOf final)

theorem reported_failure (world : World) (outcome : WorkerResult) (failure : Failure)
    (sane : failure.sane) : Reported env world outcome (.error failure) world :=
  ⟨sane_error sane, rfl, Or.inl ⟨rfl, failure, rfl⟩⟩

theorem ends_report (payload : RunnerPayload) (outcome : WorkerResult) (world : World)
    (reports : ∀ message : RunnerMessage, message.payload = some payload →
      Reports outcome message) :
    Ends (queueDurable env payload .keep) world (Reported env world outcome) :=
  (ends_queueDurable env payload .keep world (by simp)).mono fun _ _ ends =>
    ⟨ends.1, ends.2.1, Or.inr ⟨payload, reports, ends.2.2⟩⟩

theorem reports_cancelled (event : JobCancelled) (message : RunnerMessage)
    (carries : message.payload = some (.cancelled event))
    (truthful : event.cleanupCompleted = outcome.cleanup.any (·.succeeded)) :
    Reports outcome message := by
  refine ⟨by simp [RunnerMessage.endsJob, carries], fun other same => ?_⟩
  rw [carries, Option.some.injEq, RunnerPayload.cancelled.injEq] at same
  exact same ▸ truthful

theorem reports_failed (event : JobFailed) (message : RunnerMessage)
    (carries : message.payload = some (.failed event)) : Reports outcome message :=
  ⟨by simp [RunnerMessage.endsJob, carries], by simp [carries]⟩

theorem reports_completed (event : JobCompleted) (message : RunnerMessage)
    (carries : message.payload = some (.completed event)) : Reports outcome message :=
  ⟨by simp [RunnerMessage.endsJob, carries], by simp [carries]⟩

theorem reports_resultEvent (lease : Option LeaseIdentity) (attempt : Option AttemptIdentity)
    (proof : Option ExecutionEvidence) (log : Option LogObject) (message : RunnerMessage)
    (carries : message.payload = some (resultEvent outcome lease attempt proof log)) :
    Reports outcome message := by
  unfold resultEvent at carries
  dsimp only at carries
  split at carries
  · exact reports_completed outcome _ message carries
  · exact reports_failed outcome _ message carries

theorem ends_queueCancellation (now : Int) (outcome : WorkerResult) (world : World) :
    Ends (queueCancellation env now (some outcome)) world (Reported env world outcome) := by
  unfold queueCancellation
  rw [ends_snapshot_bind]
  refine ends_activeIdentity_bind _ _ _ _ (reported_failure env world outcome _ (sane_plain _)) ?_
  intro job active
  rw [active]
  exact ends_report env _ outcome world fun message carries =>
    reports_cancelled outcome _ message carries (by simp)

theorem ends_queueLeaseExpired (now : Int) (outcome : WorkerResult) (world : World) :
    Ends (queueLeaseExpired env now) world (Reported env world outcome) := by
  unfold queueLeaseExpired
  rw [ends_snapshot_bind]
  refine ends_activeIdentity_bind _ _ _ _ (reported_failure env world outcome _ (sane_plain _)) ?_
  intro job _
  exact ends_report env _ outcome world fun message carries =>
    reports_failed outcome _ message carries

theorem ends_queueResult (world : World) :
    Ends (queueResult env outcome) world (Reported env world outcome) := by
  unfold queueResult
  rw [ends_snapshot_bind]
  refine ends_activeIdentity_bind _ _ _ _ (reported_failure env world outcome _ (sane_plain _)) ?_
  intro job _
  refine ends_freezeProof_bind env _ _ _ _ _ _
    (fun text => reported_failure env world outcome _ (sane_permanent text)) fun proof => ?_
  split
  · exact reported_failure env world outcome _ (sane_plain _)
  rw [ends_get_bind]
  dsimp only
  split
  · rw [ends_ask_bind]
    split
    · exact ends_report env _ outcome world.asked fun message carries =>
        reports_failed outcome _ message carries
    · exact ends_report env _ outcome world.asked fun message carries =>
        reports_resultEvent outcome _ _ _ _ message carries
  · exact ends_report env _ outcome world fun message carries =>
      reports_resultEvent outcome _ _ _ _ message carries

theorem QueueEnd.pending {payload : RunnerPayload} {mutation : Mutation}
    {result : Except Failure Unit} (ends : QueueEnd env books payload mutation result final)
    (done : result = .ok ()) : final.journal.pendingMessage ≠ none := by
  cases ends with
  | nothing | numbered => simp at done
  | queued _ numbered queued message _ numbers identity carries queues sent =>
    have stored := queued_pending queues
    rcases sent with rfl | rfl <;>
      exact fun free => by simp [Books.commit, Books.log, stored] at free

/-- The cancellation of the job is announced, and its command has not arrived. -/
def JournalJob.announced (job : JournalJob) : Bool :=
  !job.cancellationID.isEmpty && job.cancellationDigest.isEmpty

/-- What handling a result leaves behind while nothing is pending. -/
inductive ResultEnd (event : WorkerEvent) (outcome : WorkerResult) (world final : World) :
    Except Failure Unit → Prop where
  | dropped (gone : world.client.journal.active = none) (books : booksOf final = booksOf world)
    (hands : handsOf final = handsOf world) : ResultEnd event outcome world final (.ok ())
  | announced (job : JournalJob) (active : world.client.journal.active = some job)
    (announced : job.announced = true) (books : booksOf final = booksOf world)
    (hands : handsOf final = (handsOf world).postponed event) :
    ResultEnd event outcome world final (.ok ())
  | stored (result : Except Failure Unit) (sane : Sane result)
    (hands : handsOf final = handsOf world) (payload : RunnerPayload)
    (reports : ∀ message, message.payload = some payload → Reports outcome message)
    (queueEnd : QueueEnd env (booksOf world) payload .keep result (booksOf final))
    (pending : final.client.journal.pendingMessage ≠ none) :
    ResultEnd event outcome world final result
  | unstored (failure : Failure) (sane : failure.sane)
    (hands : handsOf final = (handsOf world).postponed event)
    (reportEnd : ReportEnd env (booksOf world) outcome (.error failure) (booksOf final))
    (pending : final.client.journal.pendingMessage = none) :
    ResultEnd event outcome world final (.error failure)

/-- How the handling of a result ends, with nothing pending. -/
theorem ends_handleResult (event : WorkerEvent) (outcome : WorkerResult) (world : World)
    (free : world.client.journal.pendingMessage = none) :
    Ends (handleResult env event outcome) world fun result final =>
      ResultEnd env event outcome world final result := by
  unfold handleResult
  rw [ends_snapshot_bind]
  split
  case h_1 gone => exact .dropped gone rfl rfl
  case h_2 job active =>
    split
    case isTrue announced => exact .announced job active announced rfl rfl
    case isFalse =>
      refine (ends_attempt _ world (fun result final => handsOf final = handsOf world ∧
        ReportEnd env (booksOf world) outcome result (booksOf final)) ?_).bind_ok ?_
      · split
        · rw [ends_readClock_bind]
          exact ends_queueCancellation env _ outcome world.asked
        rw [ends_readClock_bind]
        split
        · rw [ends_readClock_bind]
          exact ends_queueLeaseExpired env _ outcome _
        · exact ends_queueResult env outcome _
      · rintro ended between ⟨sane, hands, reportEnd⟩
        unfold keepUnreported
        rw [ends_snapshot_bind]
        cases pending : between.client.journal.pendingMessage with
        | none =>
          cases ended with
          | ok _ =>
            rcases reportEnd with ⟨_, _, same⟩ | ⟨_, _, queueEnd⟩
            · simp at same
            · exact absurd pending (queueEnd.pending env rfl)
          | error failure =>
            exact .unstored failure (sane failure rfl)
              (congrArg (Hands.postponed · event) hands) reportEnd pending
        | some =>
          rcases reportEnd with ⟨books, _⟩ | ⟨payload, reports, queueEnd⟩
          · have same := congrArg (fun books => books.journal.pendingMessage) books
            exact absurd (pending.symm.trans (same.trans free)) (by simp)
          have stored : between.client.journal.pendingMessage ≠ none := by simp [pending]
          cases ended with
          | ok _ => exact .stored _ sane hands payload reports queueEnd stored
          | error => exact .stored _ sane hands payload reports queueEnd stored

/-! ## Taking up an event -/

section

variable {env} {start : Core} {world : World} {before after : Hands}

theorem dismiss_acts {event : WorkerEvent}
    (reached : Moves env licence start ⟨books, before⟩) (consumes : Consumes event before after)
    (settled : (∃ result evidence usage, event = .result result evidence usage) →
      books.journal.active = none) :
    Moves env licence start ⟨books, after⟩ :=
  reached.tail (.dismiss books before after event consumes settled)

/-- A result is reported, or goes back to the deferred events. -/
theorem acts_handleResult (outcome : WorkerResult) (evidence usage : Option WorkerEvidence)
    (consumes : Consumes (.result outcome evidence usage) before after)
    (reached : Moves env licence start ⟨booksOf world, before⟩) (hands : handsOf world = after)
    (free : world.client.journal.pendingMessage = none) :
    Acts env licence coreOf start
      (handleResult env (.result outcome evidence usage) outcome) world fun _ _ => True := by
  have postponed {final : World} (books : Moves env licence start ⟨booksOf final, before⟩)
      (kept : handsOf final = (handsOf world).postponed (.result outcome evidence usage)) :
      Moves env licence start (coreOf final) := by
    rw [coreOf_eq, kept, hands]
    exact books.tail (.postpone _ before after _ consumes)
  refine Ends.mono (ends_handleResult env _ outcome world free) fun result final ends => ?_
  cases ends with
  | dropped gone books kept =>
    refine ⟨?_, trivial⟩
    rw [coreOf_eq, books, kept, hands]
    exact dismiss_acts reached consumes fun _ => gone
  | announced _ _ _ books kept => exact ⟨postponed (books ▸ reached) kept, trivial⟩
  | stored result sane kept payload reports queueEnd pending =>
    have moves : Moves env licence start (coreOf final) := by
      rcases queueEnd.report reached consumes reports with ⟨moves, _⟩ | ⟨_, same, _⟩
      · rw [coreOf_eq, kept, hands]
        exact moves
      · exact absurd (same.trans free) pending
    exact .of_sane sane moves fun _ _ => trivial
  | unstored failure sane kept reportEnd pending =>
    refine .failed sane.1 (postponed ?_ kept)
    rcases reportEnd with ⟨books, _⟩ | ⟨_, reports, queueEnd⟩
    · exact books ▸ reached
    rcases queueEnd.report reached consumes reports with ⟨_, stored⟩ | ⟨moves, _⟩
    · have empty : (booksOf final).journal.pendingMessage = none := pending
      simp [empty] at stored
    · exact moves

/-- A start request is refused, put off, or reported. -/
theorem acts_start (channel : Nat) (consumes : Consumes (.start channel) before after)
    (reached : Moves env licence start ⟨booksOf world, before⟩) (hands : handsOf world = after) :
    Acts env licence coreOf start (do
      let state ← snapshot
      if state.active.isNone then answerStart channel false
      else if state.pendingMessage.isSome then deferWorkerEvent (.start channel)
      else handleStart env state channel : Handler Unit) world fun _ _ => True := by
  have refused : Acts env licence coreOf start (answerStart channel false) world
      fun _ _ => True := by
    refine ⟨?_, trivial⟩
    change Moves env licence start ⟨(booksOf world).log (.answered channel false
      world.client.journal world.client.recovering), handsOf world⟩
    rw [hands]
    exact (dismiss_acts reached consumes (by simp)).tail
      (.note _ after _ ⟨rfl, rfl, rfl⟩)
  rw [acts_snapshot_bind]
  split
  · exact refused
  split
  · refine ⟨?_, trivial⟩
    subst hands
    exact reached.tail (.postpone _ before (handsOf world) _ consumes)
  case isFalse free =>
    unfold handleStart
    split
    case h_1 => exact refused
    case h_2 job active =>
      split
      case isTrue => exact refused
      case isFalse running =>
        have uncancelled : job.cancellationID = [] := by simpa using running
        have awaited := reached.tail (.await _ before after channel consumes
          (Option.not_isSome_iff_eq_none.1 free) ⟨job, active, uncancelled⟩)
        unfold setStartResponse
        rw [bind_assoc, acts_record_bind, acts_modifyClient_bind, acts_readClock_bind]
        subst hands
        refine (acts_queueDurable _ _ (sees_coreOf _) awaited ?_ ?_).mono fun _ _ _ => trivial
        · intro _ _ none
          exact absurd (active.symm.trans none) (by simp)
        intro numbered message numbers carries
        refine Or.inr ⟨rfl, ⟨_, carries⟩, ⟨channel, world.trace, rfl⟩, fun other same => ?_⟩
        change numbered.active = some other at same
        rw [(commits_next env numbers).2] at same
        exact Option.some.inj (active.symm.trans same) ▸ uncancelled

theorem moves_took {hands : Hands}
    (reached : Moves env licence start ⟨books, hands⟩) (event : WorkerEvent) :
    Moves env licence start ⟨books.log (.took event), hands⟩ :=
  reached.tail (.note books hands (.took event) trivial)

/-- The world holds the hands that are left when the event is taken. While the result of a worker
is taken up, the worker may still count as running. -/
def Holding (event : WorkerEvent) (world : World) (after : Hands) : Prop :=
  match event with
  | .result _ _ _ => { handsOf world with workerRunning := false } = after
  | _ => handsOf world = after

/-- Handling an event of the worker is a sequence of moves. -/
theorem acts_handleWorkerEvent (event : WorkerEvent) (consumes : Consumes event before after)
    (reached : Moves env licence start ⟨booksOf world, before⟩)
    (holding : Holding event world after) :
    Acts env licence coreOf start (handleWorkerEvent env event) world fun _ _ => True := by
  have begun := moves_took reached event
  unfold handleWorkerEvent
  rw [acts_record_bind]
  cases event with
  | secretRequest request =>
    have hands : handsOf world = after := holding
    refine Ends.mono (ends_beginSecretRequest env request _) fun result final ends => ?_
    obtain ⟨sane, noted, kept⟩ := ends
    have moves : Moves env licence start ⟨booksOf final, before⟩ := noted.moves env begun
    refine .of_sane sane ?_ fun _ _ => trivial
    rw [coreOf_eq]
    rcases kept with kept | ⟨_, kept⟩
    · rw [kept, handsOf_noted, hands]
      exact dismiss_acts moves consumes (by simp)
    · rw [kept, handsOf_noted, hands]
      exact moves.tail (.postpone _ before after _ consumes)
  | evidence evidence =>
    have hands : handsOf world = after := holding
    refine Ends.mono (ends_sendWorkerEvidence env evidence _) fun result final ends => ?_
    obtain ⟨sane, kept, noted⟩ := ends
    refine .of_sane sane ?_ fun _ _ => trivial
    rw [coreOf_eq, kept, handsOf_noted, hands]
    exact dismiss_acts (noted.moves env begun) consumes (by simp)
  | start channel => exact acts_start channel consumes begun holding
  | result outcome evidence usage =>
    dsimp only
    refine Ends.bind (ends_noteResult env outcome evidence usage _) ?_ ?_
    case refine_2 =>
      rintro failure final ⟨same, _⟩
      simp at same
    rintro _ noted ⟨_, kept, notes⟩
    have hands : handsOf noted = after := kept.trans holding
    have moves : Moves env licence start ⟨booksOf noted, before⟩ := notes.moves env begun
    change Acts env licence coreOf start _ noted _
    rw [acts_snapshot_bind]
    split
    case isTrue gone =>
      refine ⟨?_, trivial⟩
      change Moves env licence start ⟨booksOf noted, handsOf noted⟩
      rw [hands]
      exact dismiss_acts moves consumes fun _ => Option.isNone_iff_eq_none.1 gone
    case isFalse =>
      split
      case isTrue =>
        refine ⟨?_, trivial⟩
        subst hands
        exact moves.tail (.postpone _ before (handsOf noted) _ consumes)
      case isFalse free =>
        exact acts_handleResult outcome evidence usage consumes moves hands (by simpa using free)

/-- The loop over deferred events is a sequence of moves, however many rounds it takes. -/
theorem acts_drainDeferred (reached : Moves env licence start (coreOf world)) (rounds : Nat) :
    Acts env licence coreOf start (drainDeferred env rounds) world fun _ _ => True := by
  induction rounds generalizing world with
  | zero => exact Acts.throw .unfinished reached rfl (by simp)
  | succ rounds induction =>
    unfold drainDeferred
    rw [acts_snapshot_bind]
    split
    case isTrue => exact Acts.pure () reached trivial
    case isFalse =>
      unfold popDeferredWorkerEvent
      rw [bind_assoc, acts_get_bind]
      cases deferred : world.client.deferredWorkerEvents with
      | nil => exact Acts.pure () reached trivial
      | cons event rest =>
        dsimp only
        rw [bind_assoc, acts_modifyClient_bind, acts_pure_bind]
        refine Acts.bind (acts_handleWorkerEvent event (.deferred (handsOf world) rest deferred)
          reached ?_) fun _ between moves _ => induction moves
        cases event <;> rfl

end

end ProvenanceRunner.Gateway
