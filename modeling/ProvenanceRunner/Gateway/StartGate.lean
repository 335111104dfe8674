import ProvenanceRunner.Gateway.Identities

/-! # The start gate

A worker may start its sandbox only after the gateway has acknowledged the event that was queued for
this very start, and only while the job is not cancelled. A waiting start request is refused with
every cancellation, so that an acknowledgement which arrives later finds nobody waiting. -/

namespace ProvenanceRunner.Gateway

open Utf8

variable {channel : Nat} {trace past : List Effect} {message : RunnerMessage} {effect : Effect}

variable {env : Environment} {licence : Licence}

/-! ## The event of a start request -/

/-- The event was queued for the start request of the channel, directly or in place of a stale event
that was. -/
inductive QueuedFor (channel : Nat) (trace : List Effect) : RunnerMessage → Prop where
  | direct (message : RunnerMessage) (queued numbered : JournalState) (past : List Effect)
    (found : .committed (.queueDurable message (.phase .running)) queued ::
      .committed .nextMessageSequence numbered :: .awaited channel :: past <:+ trace) :
    QueuedFor channel trace message
  | again (older newer : RunnerMessage) (queued numbered : JournalState) (past : List Effect)
    (earlier : QueuedFor channel trace older) (reissues : Reissues older newer)
    (found : .committed (.queueDurable newer .keep) queued ::
      .committed .nextMessageSequence numbered :: .settled older :: past <:+ trace) :
    QueuedFor channel trace newer

theorem QueuedFor.mono {longer : List Effect}
    (queued : QueuedFor channel trace message) (suffix : trace <:+ longer) :
    QueuedFor channel longer message := by
  induction queued with
  | direct message queued numbered past found =>
    exact .direct message queued numbered past (found.trans suffix)
  | again older newer queued numbered past earlier reissues found induction =>
    exact .again older newer queued numbered past induction reissues (found.trans suffix)

/-- What a granted start request rests on. -/
def Granted (channel : Nat) (journal : JournalState) (recovering : Bool) (past : List Effect) :
    Prop :=
  ∃ message reconciliation job older, past = .settled message :: older ∧ message.isStarted ∧
    QueuedFor channel past message ∧ Acknowledging older message reconciliation ∧
    reconciliation.disposition ≠ .stale ∧ reconciliation.status = .active ∧
    reconciliation.phase = .running ∧ journal.active = some job ∧
    activeMatchesIdentity (some job) reconciliation.lease reconciliation.attempt = true ∧
    job.cancellationID = [] ∧ recovering = false

/-- Every granted start request of a history rests on that. -/
def Gated (trace : List Effect) : Prop :=
  ∀ channel journal recovering past, .answered channel true journal recovering :: past <:+ trace →
    Granted channel journal recovering past

theorem Gated.cons (gated : Gated trace)
    (other : ∀ channel journal recovering, effect = .answered channel true journal recovering →
      Granted channel journal recovering trace) : Gated (effect :: trace) := by
  intro channel journal recovering past suffix
  rcases List.suffix_cons_iff.1 suffix with same | inner
  · obtain ⟨rfl, rfl⟩ := List.cons.inj same
    exact other channel journal recovering rfl
  · exact gated channel journal recovering past inner

theorem Gated.suffix (gated : Gated trace) (suffix : past <:+ trace) :
    Gated past :=
  fun channel journal recovering older inner =>
    gated channel journal recovering older (inner.trans suffix)

/-! ## The invariant -/

/-- The event is pending, or it has just been cleared, settled, or followed by the next number. -/
def InHand (books : Books) (message : RunnerMessage) : Prop :=
  books.journal.pendingMessage = some message ∨ JustCleared books message ∨
    (∃ past, books.trace = .settled message :: past) ∨
    ∃ state past, books.trace = .committed .nextMessageSequence state :: .settled message :: past

/-- The last start request of a history, as long as its event is not queued. -/
def JustAwaited (trace : List Effect) (channel : Nat) : Prop :=
  (∃ past, trace = .awaited channel :: past) ∨
    ∃ state past, trace = .committed .nextMessageSequence state :: .awaited channel :: past

structure Gate (books : Books) : Prop where
  promised : ∀ channel, books.startResponse = some channel → ∀ message : RunnerMessage,
    message.isStarted → InHand books message → QueuedFor channel books.trace message
  latest : ∀ channel, JustAwaited books.trace channel → books.startResponse = some channel
  uncancelled : books.startResponse ≠ none → ∀ job, books.journal.active = some job →
    job.cancellationID = []
  gated : Gated books.trace

theorem not_justAwaited
    (quiet : effect.file? = none) (other : ∀ channel, effect ≠ .awaited channel) :
    ¬ JustAwaited (effect :: trace) channel := by
  rintro (⟨_, begins⟩ | ⟨_, _, begins⟩)
  · exact other channel (List.cons.inj begins).1
  · rw [(List.cons.inj begins).1] at quiet
    simp [Effect.file?] at quiet

variable {books : Books}

/-- An entry that leaves the file alone takes nothing up, unless it settles an event. -/
theorem InHand.of_log
    (inHand : InHand (books.log effect) message) (quiet : effect.file? = none) :
    books.journal.pendingMessage = some message ∨ effect = .settled message := by
  rcases inHand with pending | ⟨_, _, begins, _⟩ | ⟨_, begins⟩ | ⟨_, _, begins⟩
  · exact Or.inl pending
  · rw [(List.cons.inj begins).1] at quiet
    simp [Effect.file?] at quiet
  · exact Or.inr (List.cons.inj begins).1
  · rw [(List.cons.inj begins).1] at quiet
    simp [Effect.file?] at quiet

/-- A note that answers no start request with success. -/
theorem Gate.log (gate : Gate books) (quiet : effect.file? = none)
    (other : ∀ channel, effect ≠ .awaited channel)
    (settles : ∀ message, effect = .settled message → JustCleared books message)
    (refuses : ∀ channel journal recovering, effect ≠ .answered channel true journal recovering) :
    Gate (books.log effect) where
  promised channel waiting message started inHand := by
    refine (gate.promised channel waiting message started ?_).mono (List.suffix_cons effect _)
    rcases inHand.of_log quiet with pending | settled
    · exact Or.inl pending
    · exact Or.inr (Or.inl (settles message settled))
  latest channel awaited := absurd awaited (not_justAwaited quiet other)
  uncancelled := gate.uncancelled
  gated := gate.gated.cons fun channel journal recovering same =>
    absurd same (refuses channel journal recovering)

theorem Gate.failStart (gate : Gate books) : Gate books.failStart := by
  unfold Books.failStart
  split
  · exact gate
  exact
    { promised := fun channel waiting => by simp at waiting
      latest := fun channel awaited => absurd awaited (not_justAwaited rfl (by simp))
      uncancelled := fun waiting => by simp at waiting
      gated := gate.gated.cons (by simp) }

theorem Reissues.started {older newer : RunnerMessage} (reissues : Reissues older newer)
    (started : newer.isStarted) : older.isStarted := by
  obtain ⟨payload, _, _, _, carries, newer', _, _⟩ := reissues
  obtain ⟨_, carries'⟩ := started
  rw [carries'] at newer'
  cases payload <;> simp [reissued] at newer'
  exact ⟨_, carries⟩

theorem ends_not_started (ends : message.endsJob = true) :
    ¬ message.isStarted := by
  rintro ⟨_, carries⟩
  simp [RunnerMessage.endsJob, carries] at ends

section

variable {change : JournalChange} {state : JournalState}

/-- A committed change takes nothing up but the event that it writes. -/
theorem InHand.of_commit (sound : books.Sound env) (commits : Commits env books change state)
    (inHand : InHand (books.commit change state) message) :
    InHand books message ∨ ∃ mutation, change = .queueDurable message mutation := by
  rcases inHand with pending | ⟨past, _, begins, file, pending⟩ | ⟨past, begins⟩ |
    ⟨numbered, past, begins⟩
  · rcases (commits_pending commits).1 message pending with older | found
    · exact Or.inl (Or.inl older)
    cases change with
    | queueDurable queued mutation =>
      obtain rfl : queued = message := Option.some.inj found
      exact Or.inr ⟨mutation, rfl⟩
    | storeHeartbeat =>
      obtain ⟨_, rfl⟩ := commits_storeHeartbeat commits
      exact Or.inl (Or.inl pending)
    | _ => simp [Effect.written?] at found
  · obtain ⟨_, rfl⟩ := List.cons.inj begins
    rw [sound.recorded, Option.some.injEq] at file
    exact Or.inl (Or.inl (file ▸ pending))
  · simp [Books.commit] at begins
  · obtain ⟨_, rest⟩ := List.cons.inj begins
    exact Or.inl (Or.inr (Or.inr (Or.inl ⟨past, rest⟩)))

theorem JustAwaited.of_commit
    (awaited : JustAwaited (books.commit change state).trace channel) :
    JustAwaited books.trace channel := by
  rcases awaited with ⟨past, begins⟩ | ⟨_, past, begins⟩
  · simp [Books.commit] at begins
  · exact Or.inl ⟨past, (List.cons.inj begins).2⟩

/-- A commit keeps the gate if the event that it writes keeps the promise and the job it leaves is
not cancelled while a start request waits. -/
theorem Gate.commit (gate : Gate books) (sound : books.Sound env)
    (commits : Commits env books change state)
    (written : ∀ channel message mutation, books.startResponse = some channel →
      change = .queueDurable message mutation → message.isStarted →
      QueuedFor channel (books.commit change state).trace message)
    (uncancelled : books.startResponse ≠ none → ∀ job, state.active = some job →
      job.cancellationID = []) : Gate (books.commit change state) where
  promised channel waiting message started inHand := by
    rcases inHand.of_commit sound commits with older | ⟨mutation, same⟩
    · exact (gate.promised channel waiting message started older).mono (List.suffix_cons _ _)
    · exact written channel message mutation waiting same started
  latest channel awaited := gate.latest channel awaited.of_commit
  uncancelled := uncancelled
  gated := gate.gated.cons (by simp)

end

/-! ## Permitted changes -/

/-- An event about a start that is queued belongs to the waiting request. -/
theorem permitted_written (core : Core) (gate : Gate core.books)
    {mutation : Mutation} (origin : Origin licence core message mutation) (state : JournalState)
    (waiting : core.books.startResponse = some channel) (started : message.isStarted) :
    QueuedFor channel (core.books.commit (.queueDurable message mutation) state).trace message := by
  obtain ⟨_, carries⟩ := id started
  cases mutation with
  | accept =>
    obtain ⟨other, carries'⟩ := origin.1
    simp [carries] at carries'
  | phase =>
    rcases origin with ⟨_, ⟨other, carries'⟩, _⟩ | ⟨rfl, _, ⟨asked, past, numbered⟩, _⟩
    · simp [carries] at carries'
    have same : asked = channel := Option.some.inj
      ((gate.latest asked (Or.inr ⟨_, past, numbered⟩)).symm.trans waiting)
    subst same
    refine .direct message state core.books.journal past ?_
    rw [← numbered]
    exact List.suffix_rfl
  | keep =>
    rcases origin with ⟨other, carries'⟩ | ⟨other, carries'⟩ | ⟨other, carries'⟩ |
      ⟨other, carries', _⟩ | ⟨settled, past, _, reissues, numbered⟩
    · simp [carries] at carries'
    · simp [carries] at carries'
    · simp [carries] at carries'
    · simp [carries] at carries'
    have earlier := gate.promised channel waiting settled (reissues.started started)
      (Or.inr (Or.inr (Or.inr ⟨_, past, numbered⟩)))
    refine .again settled message state core.books.journal past
      (earlier.mono (List.suffix_cons _ _)) reissues ?_
    rw [← numbered]
    exact List.suffix_rfl

/-- A permitted change records no cancellation. -/
theorem permitted_uncancelled (core : Core) {change : JournalChange} {state : JournalState}
    (commits : Commits env core.books change state)
    (permitted : Permitted env licence core change)
    (before : ∀ job, core.books.journal.active = some job → job.cancellationID = [])
    {job : JournalJob} (active : state.active = some job) : job.cancellationID = [] := by
  have spared (spares : change.spares = true) : job.cancellationID = [] :=
    before job ((spares_active commits spares).symm.trans active)
  cases change with
  | finish =>
    obtain ⟨rfl, _⟩ := Prod.mk.inj commits.1
    simp at active
  | reconcile =>
    obtain ⟨held, _, found, _, _, _, rfl⟩ := commits_reconcile commits
    obtain rfl := Option.some.inj active
    rw [applied_cancellation, if_pos permitted.1]
    exact before held found
  | recordCancellation => exact absurd permitted id
  | queueDurable message mutation =>
    cases (commits_queueDurable commits).2 with
    | keep => exact spared rfl
    | accept =>
      obtain rfl := Option.some.inj active
      exact permitted.2.2.2.2.1
    | phase _ held found =>
      obtain rfl := Option.some.inj active
      exact before held found
  | _ => exact spared rfl

/-! ## Moves -/

theorem Gate.of_same {next : Books} (gate : Gate books)
    (journal : next.journal = books.journal) (start : next.startResponse = books.startResponse)
    (trace : next.trace = books.trace) : Gate next := by
  refine ⟨?_, ?_, ?_, ?_⟩
  · rw [start, trace]
    intro channel waiting message started inHand
    refine gate.promised channel waiting message started ?_
    unfold InHand JustCleared at inHand ⊢
    rw [journal, trace] at inHand
    exact inHand
  · rw [start, trace]
    exact gate.latest
  · rw [start, journal]
    exact gate.uncancelled
  · rw [trace]
    exact gate.gated

/-- Without the licence to leave a start request waiting beside a cancellation, every move keeps the
gate. -/
theorem Move.gate {core next : Core} (strict : ¬ licence.lateAnswer)
    (sound : core.books.Sound env) (gate : Gate core.books)
    (moves : Move env licence core next) : Gate next.books := by
  cases moves with
  | note books hands effect quiet =>
    refine gate.log quiet.file ?_ ?_ ?_
    · rintro channel rfl
      exact quiet
    · rintro message rfl
      exact quiet
    · rintro channel journal recovering rfl
      exact Bool.noConfusion quiet.1
  | commit books hands change state commits permitted =>
    refine gate.commit sound commits ?_ ?_
    · rintro channel message mutation waiting rfl started
      exact permitted_written ⟨books, hands⟩ gate permitted.2 state waiting started
    · exact fun waiting job => permitted_uncancelled ⟨books, hands⟩ commits permitted
        (gate.uncancelled waiting)
  | cancel books hands change state commits =>
    -- Whoever was waiting is refused, so that nothing is left to be kept.
    unfold Books.failStart
    split
    · rename_i nobody
      have free : books.startResponse = none := nobody
      refine gate.commit sound commits ?_ ?_
      · rintro channel message mutation waiting
        simp [free] at waiting
      · exact fun waiting => absurd free waiting
    · refine
        { promised := fun channel waiting => by simp at waiting
          latest := fun channel awaited => absurd awaited (not_justAwaited rfl (by simp))
          uncancelled := fun waiting => by simp at waiting
          gated := (gate.gated.cons (by simp)).cons (by simp) }
  | cancelLate books hands change state commits cancels allowed => exact absurd allowed strict
  | reissue books hands older newer cleared numbered queued pending ends clears numbers queues
      identity again =>
    have first : Gate (books.commit .clearPending cleared) := by
      refine gate.commit sound clears (by simp) fun waiting job active => ?_
      exact gate.uncancelled waiting job ((spares_active clears rfl).symm.trans active)
    have second : Gate ((books.commit .clearPending cleared).log (.settled older)) := by
      refine first.log rfl (by simp) ?_ (by simp)
      rintro message same
      obtain rfl := Effect.settled.inj same
      exact ⟨books.trace, books.journal, rfl, sound.recorded, pending⟩
    have soundly := (sound.commit clears).log (.settled older) rfl
    have third : Gate (((books.commit .clearPending cleared).log (.settled older)).commit
        .nextMessageSequence numbered) := by
      refine second.commit soundly numbers (by simp) fun waiting job active => ?_
      exact second.uncancelled waiting job ((spares_active numbers rfl).symm.trans active)
    refine third.commit (soundly.commit numbers) queues ?_ fun waiting job active => ?_
    · rintro channel message mutation waiting same started
      obtain ⟨rfl, _⟩ := JournalChange.queueDurable.inj same
      exact absurd (again.started started) (ends_not_started ends)
    · exact third.uncancelled waiting job ((spares_active queues rfl).symm.trans active)
  | await books before after channel consumes free running =>
    refine ⟨?_, ?_, ?_, gate.gated.cons (by simp)⟩
    · intro other waiting message started inHand
      have inHand' : InHand (books.log (.awaited channel)) message := inHand
      rcases inHand'.of_log rfl with pending | settled
      · simp [free] at pending
      · simp at settled
    · rintro other (⟨past, begins⟩ | ⟨state, past, begins⟩)
      · exact congrArg some (Effect.awaited.inj (List.cons.inj begins).1)
      · simp [Books.log] at begins
    · intro _ job active
      obtain ⟨_, found, uncancelled⟩ := running
      exact Option.some.inj (found.symm.trans active) ▸ uncancelled
  | fail => exact gate.failStart
  | grant books hands channel settled reconciliation job past waiting cleared started
      acknowledging applied active matching fresh =>
    have queued := gate.promised channel waiting settled started
      (Or.inr (Or.inr (Or.inl ⟨past, cleared⟩)))
    refine
      { promised := fun channel waiting => by simp at waiting
        latest := fun channel awaited => absurd awaited (not_justAwaited rfl (by simp))
        uncancelled := fun waiting => by simp at waiting
        gated := gate.gated.cons ?_ }
    rintro other journal recovering same
    obtain ⟨rfl, _, rfl, rfl⟩ := Effect.answered.inj same
    exact ⟨settled, reconciliation, job, past, cleared, started, queued, acknowledging, applied.1,
      applied.2.1, applied.2.2, active, matching,
      gate.uncancelled (by simp [show books.startResponse = some channel from waiting]) job active,
      fresh⟩
  | launch =>
    exact gate.log rfl (by simp) (by simp) (by simp)
  | dismiss | postpone => exact gate
  | report books before after result evidence usage message state consumes commits fresh reports =>
    refine gate.commit sound commits ?_ fun waiting job active => ?_
    · rintro channel other mutation waiting same started
      obtain ⟨rfl, _⟩ := JournalChange.queueDurable.inj same
      exact absurd started (ends_not_started reports.1)
    · exact gate.uncancelled waiting job ((spares_active commits rfl).symm.trans active)
  | discard => exact gate
  | recover | heartbeat => exact gate.of_same rfl rfl rfl
  | replace books hands credential =>
    have logged : Gate (books.log (.replaced credential)) :=
      gate.log rfl (by simp) (by simp) (by simp)
    exact logged.of_same rfl rfl rfl
  | emit => exact gate
  | finish =>
    exact gate.log rfl (by simp) (by simp) (by simp)

theorem gate_booted (journal : JournalState) (credential : Bytes) (outside : Nat → Response)
    (gated : Gated past) :
    Gate (bootedCore journal credential outside past).books where
  promised channel waiting := by simp [bootedCore] at waiting
  latest channel awaited := by
    rcases awaited with ⟨_, begins⟩ | ⟨_, _, begins⟩ <;> simp [bootedCore] at begins
  uncancelled waiting := by simp [bootedCore] at waiting
  gated := gated.cons (by simp)

theorem Reach.gate {initial : JournalState → Bytes → Prop} (strict : ¬ licence.lateAnswer)
    {core : Core} (reached : Reach env licence initial core) : Gate core.books := by
  refine reached.by_moves (fun core => Gate core.books) ?_ ?_ ?_ ?_
  · intro journal credential outside _ _
    exact gate_booted journal credential outside fun _ _ _ _ suffix => by simp at suffix
  · exact fun core next sound gate moves => moves.gate strict sound gate
  · exact fun books hands outside gate => gate
  · intro core past journal credential outside _ gate suffix _ _ _
    exact gate_booted journal credential outside (gate.gated.suffix suffix)

/-! ## Whole runs -/

/-- While a message that brings a cancellation is handled, no write of the journal that has replaced
the file reports an error after which the process goes on. -/
def Definite (world : World) (action : Action) : Prop :=
  ∀ message, action = .deliver message → message.Cancels →
    ∀ n, (world.responses n).persisted ≠ .unsynced true

/-- Everything is allowed but to leave a start request waiting beside a cancellation. -/
def answerLicence : Licence := { Licence.all with lateAnswer := False }

theorem Definite.disciplined {world : World} {action : Action} (definite : Definite world action) :
    Disciplined env answerLicence world action where
  delivery message delivered :=
    { answers := fun cancels => Or.inr (definite message delivered cancels)
      acknowledgement := fun _ _ =>
        ⟨fun _ _ _ => Or.inl trivial, fun _ _ _ _ _ => Or.inl trivial⟩
      rotation := fun _ _ => Or.inl trivial }

/-- In every run of which the steps are definite, a start request is granted only at an
acknowledgement of the event queued for it, for a job that runs and is not cancelled.

Proof: `Gate` is kept by every move. -/
theorem start_gated (env : Environment) (world : World)
    (reached : Run env (fun _ _ => True) Definite world) : Gated world.trace := by
  obtain ⟨_, reaches, covered, _⟩ :=
    reached.reach answerLicence trivial fun _ _ definite => definite.disciplined
  exact (reaches.gate fun allowed => allowed).gated.suffix covered

/-! ## Samples -/

/-- A job is offered, accepted and prepared, and its worker asks to start. -/
def asking : List (Action × (Nat → Response)) :=
  preparedJob 1000 4 ++ [(.work (.start 7), sampleAnswers 1004),
    (.takeWorkerEvent, sampleAnswers 1004)]

/-- The acknowledgement of the event about the start, on the stream that is open. -/
def started (seconds : Int) : Action × (Nat → Response) :=
  sampleDelivery seconds (sampleAcknowledgement "started" seconds 6
    (sampleReconciliation 2000 .applied .active .running))

/-- The answers to start requests in a history, the newest first. -/
def answersOf (trace : List Effect) : List (Nat × Bool) :=
  trace.filterMap fun effect => match effect with
    | .answered channel granted _ _ => some (channel, granted)
    | _ => none

theorem Definite.of_done (world : World) (action : Action) (seconds : Int) :
    Definite (world.before (sampleAnswers seconds)) action :=
  fun _ _ _ _ => by simp [World.before, sampleAnswers]

/-- The start request is granted at the acknowledgement of its event. -/
theorem start_gated_granted :
    ∃ world, Run sampleClient (fun _ _ => True) Definite world ∧
      answersOf world.trace = [(7, true)] ∧ Gated world.trace := by
  have begun : Run sampleClient (fun _ _ => True) Definite (sampleBoot emptyJournal) :=
    .start _ _ _ _ trivial (empty_valid _)
  have computed : (performAll sampleClient 1 (asking ++ [started 1005])
      (sampleBoot emptyJournal)).map (fun world => answersOf world.trace) = some [(7, true)] := by
    decide +kernel
  obtain ⟨world, performed, granted⟩ := Option.map_eq_some_iff.1 computed
  have regular : ∀ first ∈ asking ++ [started 1005], ∀ world : World,
      Definite (world.before first.2) first.1 := by
    intro first member world
    simp only [asking, preparedJob, acceptedOffer, List.cons_append,
      List.nil_append, List.mem_cons, List.not_mem_nil, or_false] at member
    rcases member with rfl | rfl | rfl | rfl | rfl | rfl | rfl <;> exact .of_done world _ _
  have reached := begun.performAll regular performed
  exact ⟨world, reached, granted, start_gated sampleClient world reached⟩

/-! ## A start beside a cancellation -/

/-- A cancellation of the sample job. -/
def sampleCancellation (seconds expiry : Int) : GatewayMessage :=
  sampleMessage "cancel" seconds (.cancel
    { lease := some (sampleLease expiry)
      attempt := some sampleAttempt
      cancellationId := encode "stop"
      reason := encode "stop"
      deadline := some ⟨seconds + 30, 0⟩ })

/-- While the worker waits, the write that records a cancellation reports a transient error, though
the new journal stands in the file. The stream ends before the waiting request is refused. On the
next stream the event about the start is acknowledged. -/
def startedBeside : List (Action × (Nat → Response)) :=
  asking ++
    [(.deliver (sampleCancellation 1005 2000),
        fun _ => { now := sampleTime 1005, persisted := .unsynced true }),
      (.openStream (sampleOpening 1006), sampleAnswers 1006), started 1007]

/-- Whether a start request is granted while a cancellation is recorded. -/
def Effect.grantsCancelled : Effect → Bool
  | .answered _ true journal _ => journal.active.any fun job => !job.cancellationID.isEmpty
  | _ => false

theorem Gated.not_grantsCancelled (gated : Gated trace) (suffix : effect :: past <:+ trace) :
    effect.grantsCancelled = false := by
  cases effect with
  | answered channel granted journal recovering =>
    cases granted with
    | false => rfl
    | true =>
      obtain ⟨_, _, _, _, _, _, _, _, _, _, _, active, _, uncancelled, _⟩ :=
        gated channel journal recovering past suffix
      simp [Effect.grantsCancelled, active, uncancelled]
  | _ => rfl

/-- A worker is told to start while a cancellation is recorded for its job. -/
theorem start_beside_cancellation :
    ∃ world, Run sampleClient (fun _ _ => True) (fun _ _ => True) world ∧ ¬ Gated world.trace := by
  have begun : Run sampleClient (fun _ _ => True) (fun _ _ => True) (sampleBoot emptyJournal) :=
    .start _ _ _ _ trivial (empty_valid _)
  have computed : (performAll sampleClient 1 startedBeside (sampleBoot emptyJournal)).map
      (fun world => world.trace.any Effect.grantsCancelled) = some true := by
    decide +kernel
  obtain ⟨world, performed, granted⟩ := Option.map_eq_some_iff.1 computed
  refine ⟨world, begun.performAll (fun _ _ _ => trivial) performed, fun gated => ?_⟩
  obtain ⟨effect, member, grants⟩ := List.any_eq_true.1 granted
  obtain ⟨later, past, split⟩ := List.append_of_mem member
  have suffix : effect :: past <:+ world.trace := ⟨later, by simp [split]⟩
  have refused := gated.not_grantsCancelled suffix
  simp [refused] at grants

end ProvenanceRunner.Gateway
