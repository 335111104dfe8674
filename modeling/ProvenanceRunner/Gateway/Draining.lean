import ProvenanceRunner.Gateway.StartGate

/-! # The loop over deferred events

While nothing is pending, the loop takes up one deferred event after the other. An event that is
taken up is gone, or a report of it is pending and the loop ends, with one exception: a result is
put off again while the cancellation of its job is announced and the command has not arrived.
Nothing that the loop does brings the command, so that it goes on for ever.

The model gives the loop a number of rounds, and `Failure.unfinished` says that they were not
enough. A loop of the source that returns is one for which some number is enough; one that never
returns ends with this failure for every number. -/

namespace ProvenanceRunner.Gateway

open Utf8 Programs

variable {env : Environment} {world : World}

/-- The events that a history has taken up, the last one first. -/
def taken (trace : List Effect) : List WorkerEvent :=
  trace.filterMap fun effect => match effect with
    | .took event => some event
    | _ => none

/-- A result is deferred, nothing is pending, and the cancellation of the active job is only
announced. -/
def Spins (world : World) : Prop :=
  world.client.journal.pendingMessage = none ∧
    (∃ job, world.client.journal.active = some job ∧ job.announced = true) ∧
    ∃ outcome evidence usage,
      .result outcome evidence usage ∈ world.client.deferredWorkerEvents

/-- The loop has come to an end and has taken up each of the deferred events at most once, in their
order. -/
def Drained (world : World) (result : Except Failure Unit) (final : World) : Prop :=
  result ≠ .error .unfinished ∧
    ∃ handled, handled <+: world.client.deferredWorkerEvents ∧
      taken final.trace = handled.reverse ++ taken world.trace

/-! ## One event -/

theorem Noted.taken {books final : Books} (noted : Noted books final) :
    taken final.trace = taken books.trace := by
  obtain ⟨notes, live, rfl⟩ := noted
  have untaken : Gateway.taken notes = [] := by
    refine List.filterMap_eq_nil_iff.2 fun effect member => ?_
    have isLive := live effect member
    cases effect with
    | took event => exact absurd isLive id
    | _ => rfl
  unfold Gateway.taken at untaken ⊢
  rw [List.filterMap_append, untaken, List.nil_append]

theorem QueueEnd.taken {books final : Books} {payload : RunnerPayload} {mutation : Mutation}
    {result : Except Failure Unit} (ends : QueueEnd env books payload mutation result final) :
    taken final.trace = taken books.trace := by
  cases ends with
  | nothing failure => rfl
  | numbered failure state numbers => rfl
  | queued _ numbered queued message _ numbers identity carries queues sent =>
    rcases sent with rfl | rfl <;> rfl

theorem ReportEnd.taken {books final : Books} {outcome : WorkerResult}
    {result : Except Failure Unit} (ends : ReportEnd env books outcome result final) :
    taken final.trace = taken books.trace := by
  rcases ends with ⟨rfl, _⟩ | ⟨_, _, queueEnd⟩
  · rfl
  · exact queueEnd.taken

/-- How an event ends that is taken up while nothing is pending. -/
structure Handled (event : WorkerEvent) (world : World) (result : Except Failure Unit)
    (final : World) : Prop where
  finished : result ≠ .error .unfinished
  taken : taken final.trace = event :: taken world.trace
  deferred : result = .ok () →
    final.client.deferredWorkerEvents = world.client.deferredWorkerEvents
  active : result = .ok () → final.client.journal.pendingMessage = none →
    final.client.journal.active = world.client.journal.active

theorem Sane.finished {result : Except Failure Unit} (sane : Sane result) :
    result ≠ .error .unfinished := fun same => (sane _ same).2 rfl

theorem handled_noted {event : WorkerEvent} {result : Except Failure Unit} {final : World}
    (sane : Sane result) (kept : (handsOf final).deferred = (handsOf world).deferred)
    (noted : Noted (booksOf (world.noted (.took event))) (booksOf final)) :
    Handled event world result final where
  finished := sane.finished
  taken := noted.taken
  deferred _ := kept
  active _ _ := by
    obtain ⟨_, _, same⟩ := noted
    exact congrArg (fun books => books.journal.active) same

/-- A start request is refused, or a report of it is pending. -/
theorem ends_handleStart (channel : Nat) (present : world.client.journal.active ≠ none) :
    Ends (handleStart env world.client.journal channel) (world.noted (.took (.start channel)))
      (Handled (.start channel) world) := by
  have refused : Ends (answerStart channel false) (world.noted (.took (.start channel)))
      (Handled (.start channel) world) := ⟨by simp, rfl, fun _ => rfl, fun _ _ => rfl⟩
  unfold handleStart
  split
  · exact refused
  split
  · exact refused
  unfold setStartResponse
  rw [bind_assoc, ends_record_bind, ends_modifyClient_bind, ends_readClock_bind]
  refine Ends.mono (ends_queueDurable env _ _ _ ?_) ?_
  · exact fun _ _ => present
  rintro result final ⟨sane, hands, queueEnd⟩
  exact
    { finished := sane.finished
      taken := queueEnd.taken
      deferred := fun _ => congrArg Hands.deferred hands
      active := fun done free => absurd free (queueEnd.pending env done) }

/-- An event that is taken up while nothing is pending is not put off, a result apart whose
cancellation is only announced. -/
theorem ends_handleWorkerEvent (event : WorkerEvent)
    (free : world.client.journal.pendingMessage = none)
    (due : ∀ outcome evidence usage job, event = .result outcome evidence usage →
      world.client.journal.active = some job → job.announced = false) :
    Ends (handleWorkerEvent env event) world (Handled event world) := by
  unfold handleWorkerEvent
  rw [ends_record_bind]
  cases event with
  | secretRequest request =>
    refine (ends_beginSecretRequest env request _).mono fun result final ends => ?_
    obtain ⟨sane, noted, hands | ⟨stands, _⟩⟩ := ends
    · exact handled_noted sane (congrArg Hands.deferred hands) noted
    · change world.client.journal.pendingMessage.isSome = true at stands
      simp [free] at stands
  | evidence evidence =>
    refine (ends_sendWorkerEvidence env evidence _).mono fun result final ends => ?_
    exact handled_noted ends.1 (congrArg Hands.deferred ends.2.1) ends.2.2
  | start channel =>
    dsimp only
    rw [ends_snapshot_bind]
    change Ends (if world.client.journal.active.isNone then _ else _) _ _
    split
    · exact ⟨by simp, rfl, fun _ => rfl, fun _ _ => rfl⟩
    case isFalse present =>
      rw [if_neg (by simp [World.noted, free])]
      exact ends_handleStart channel (by simpa using present)
  | result outcome evidence usage =>
    dsimp only
    refine Ends.bind (ends_noteResult env outcome evidence usage _) ?_ ?_
    case refine_2 =>
      rintro failure final ⟨same, _⟩
      simp at same
    rintro _ between ⟨_, hands, noted⟩
    have journal : between.client.journal = world.client.journal := by
      obtain ⟨_, _, same⟩ := noted
      exact congrArg Books.journal same
    have kept := congrArg Hands.deferred hands
    rw [ends_snapshot_bind]
    split
    case isTrue => exact handled_noted (sane_ok ()) kept noted
    case isFalse =>
      rw [if_neg (by simp [journal, free])]
      refine (ends_handleResult env _ outcome between (by rw [journal, free])).mono
        fun result final ends => ?_
      cases ends with
      | dropped gone books same =>
        exact handled_noted (sane_ok ()) (same ▸ kept) (books ▸ noted)
      | announced job active announced =>
        rw [journal] at active
        simp [due outcome evidence usage job rfl active] at announced
      | stored result sane same payload reports queueEnd pending =>
        exact
          { finished := sane.finished
            taken := queueEnd.taken.trans noted.taken
            deferred := fun _ => (congrArg Hands.deferred same).trans kept
            active := fun _ free => absurd free pending }
      | unstored failure sane same reportEnd pending =>
        exact
          { finished := by simp [sane.2]
            taken := reportEnd.taken.trans noted.taken
            deferred := by simp
            active := by simp }

/-- The loop comes to its end within one round more than there are deferred events. -/
theorem ends_drainDeferred (rounds : Nat) (calm : ¬ Spins world)
    (enough : world.client.deferredWorkerEvents.length < rounds) :
    Ends (drainDeferred env rounds) world (Drained world) := by
  have resting : Ends (pure () : Handler Unit) world (Drained world) :=
    ⟨by simp, [], List.nil_prefix, rfl⟩
  induction rounds generalizing world with
  | zero => simp at enough
  | succ rounds induction =>
    unfold drainDeferred
    rw [ends_snapshot_bind]
    split
    case isTrue => exact resting
    case isFalse stands =>
      have free : world.client.journal.pendingMessage = none := by simpa using stands
      unfold popDeferredWorkerEvent
      rw [bind_assoc, ends_get_bind]
      cases deferred : world.client.deferredWorkerEvents with
      | nil => exact resting
      | cons event rest =>
        rw [deferred, List.length_cons] at enough
        dsimp only
        rw [bind_assoc, ends_modifyClient_bind, pure_bind]
        refine Ends.bind (ends_handleWorkerEvent event free fun outcome evidence usage job same
          active => ?_) ?_ ?_
        · refine Bool.eq_false_iff.2 fun announced => calm ⟨free, ⟨job, active, announced⟩,
            outcome, evidence, usage, ?_⟩
          simp [deferred, same]
        · intro _ between handled
          have remaining : between.client.deferredWorkerEvents = rest := handled.deferred rfl
          have calm' : ¬ Spins between := by
            rintro ⟨free', ⟨job, active, announced⟩, outcome, evidence, usage, member⟩
            rw [handled.active rfl free'] at active
            rw [remaining] at member
            refine calm ⟨free, ⟨job, active, announced⟩, outcome, evidence, usage, ?_⟩
            rw [deferred]
            exact List.mem_cons_of_mem event member
          refine (induction calm' (by rw [remaining]; omega)
            ⟨by simp, [], List.nil_prefix, rfl⟩).mono fun result final drained => ?_
          obtain ⟨finished, later, initial, same⟩ := drained
          refine ⟨finished, event :: later, ?_, ?_⟩
          · rw [deferred]
            exact List.cons_prefix_cons.2 ⟨rfl, remaining ▸ initial⟩
          · rw [same, handled.taken]
            simp
        · intro failure final handled
          refine ⟨handled.finished, [event], ?_, handled.taken⟩
          rw [deferred]
          exact List.cons_prefix_cons.2 ⟨rfl, List.nil_prefix⟩

/-! ## A loop without end -/

section

variable {event : WorkerEvent} {rest : List WorkerEvent}

/-- The loop still spins when a result has gone back to the end, and any other event is gone. -/
theorem Spins.of_kept (spins : Spins world)
    (deferred : world.client.deferredWorkerEvents = event :: rest) {final : World}
    (journal : final.client.journal = world.client.journal)
    (kept : final.client.deferredWorkerEvents = rest ++ [event] ∨
      (final.client.deferredWorkerEvents = rest ∧
        ∀ outcome evidence usage, event ≠ .result outcome evidence usage)) :
    Spins final := by
  obtain ⟨free, active, outcome, evidence, usage, member⟩ := spins
  refine ⟨journal ▸ free, journal ▸ active, outcome, evidence, usage, ?_⟩
  rw [deferred, List.mem_cons] at member
  rcases kept with same | ⟨same, other⟩
  · rw [same, List.mem_append, List.mem_singleton]
    exact member.symm
  · rw [same]
    exact member.resolve_left fun taken => other outcome evidence usage taken.symm

/-- How an event ends that is taken up while the loop spins: it goes on, unless evidence could not
be sent. The deferred events are the same ones, without an event that is no result. -/
structure Spun (event : WorkerEvent) (rest : List WorkerEvent) (result : Except Failure Unit)
    (final : World) : Prop where
  goes : result = .ok () ∨
    (∃ evidence, event = .evidence evidence) ∧ ∃ failure, result = .error failure
  spins : result = .ok () → Spins final
  deferred : result = .ok () → ∀ other ∈ final.client.deferredWorkerEvents, other ∈ event :: rest

/-- An event other than a result is gone, and the journal is the same. -/
theorem Spins.gone (spins : Spins world)
    (deferred : world.client.deferredWorkerEvents = event :: rest) {final : World}
    (journal : final.client.journal = world.client.journal)
    (kept : final.client.deferredWorkerEvents = rest)
    (other : ∀ outcome evidence usage, event ≠ .result outcome evidence usage) :
    Spun event rest (.ok ()) final where
  goes := Or.inl rfl
  spins _ := spins.of_kept deferred journal (Or.inr ⟨kept, other⟩)
  deferred _ _ member := List.mem_cons_of_mem event (kept ▸ member)

/-- Whatever event the loop takes up, it goes on spinning. A start is refused because the job is to
be cancelled, and a result waits for the command. -/
theorem Spins.handles (spins : Spins world)
    (deferred : world.client.deferredWorkerEvents = event :: rest) :
    Ends (handleWorkerEvent env event)
      { world with client := { world.client with deferredWorkerEvents := rest } }
      (Spun event rest) := by
  have free := spins.1
  obtain ⟨job, active, announced⟩ := spins.2.1
  have announced : (!job.cancellationID.isEmpty && job.cancellationDigest.isEmpty) = true :=
    announced
  have cancelled : job.cancellationID.isEmpty = false := by
    simp only [Bool.and_eq_true, Bool.not_eq_true'] at announced
    exact announced.1
  unfold handleWorkerEvent
  rw [ends_record_bind]
  cases event with
  | secretRequest request =>
    unfold beginSecretRequest
    rw [ends_get_bind, ends_ask_bind]
    dsimp only
    split
    · exact spins.gone deferred rfl rfl (by simp)
    rw [ends_snapshot_bind]
    simp only [World.noted, World.asked, active, cancelled]
    rw [if_pos (by simp)]
    exact spins.gone deferred rfl rfl (by simp)
  | evidence evidence =>
    refine (ends_sendWorkerEvidence env evidence _).mono fun result final ends => ?_
    obtain ⟨_, hands, _, _, same⟩ := ends
    cases result with
    | ok =>
      have journal : final.client.journal = world.client.journal := congrArg Books.journal same
      exact spins.gone deferred journal (congrArg Hands.deferred hands) (by simp)
    | error failure => exact ⟨Or.inr ⟨⟨evidence, rfl⟩, failure, rfl⟩, by simp, by simp⟩
  | start channel =>
    dsimp only
    rw [ends_snapshot_bind]
    simp only [World.noted, active, free, handleStart, cancelled]
    exact spins.gone deferred rfl rfl (by simp)
  | result outcome evidence usage =>
    dsimp only
    refine Ends.bind (ends_noteResult env outcome evidence usage _) ?_ (by simp)
    rintro _ between ⟨_, hands, notes, _, same⟩
    have journal : between.client.journal = world.client.journal := congrArg Books.journal same
    rw [ends_snapshot_bind]
    simp only [journal, active, free, Option.isNone_some, Option.isSome_none,
      Bool.false_eq_true, if_false]
    unfold handleResult
    rw [ends_snapshot_bind]
    simp only [journal, active]
    rw [if_pos announced]
    have kept : between.client.deferredWorkerEvents ++ [.result outcome evidence usage] =
        rest ++ [.result outcome evidence usage] :=
      congrArg (fun hands => hands.deferred ++ [_]) hands
    refine ⟨Or.inl rfl, fun _ => spins.of_kept deferred journal (Or.inl kept), ?_⟩
    intro _ other member
    rw [List.mem_cons, ← List.mem_singleton, or_comm, ← List.mem_append, ← kept]
    exact member

/-- No number of rounds lets the loop return, unless a deferred piece of evidence cannot be sent.

Proof: by induction on the rounds, each of which leaves a world in which the loop spins. -/
theorem Spins.unfinished (spins : Spins world) (rounds : Nat) :
    Ends (drainDeferred env rounds) world fun result _ => result = .error .unfinished ∨
      (∃ evidence, .evidence evidence ∈ world.client.deferredWorkerEvents) ∧
        ∃ failure, result = .error failure := by
  induction rounds generalizing world with
  | zero => exact Or.inl rfl
  | succ rounds induction =>
    unfold drainDeferred
    rw [ends_snapshot_bind, if_neg (by simp [spins.1])]
    unfold popDeferredWorkerEvent
    rw [bind_assoc, ends_get_bind]
    cases deferred : world.client.deferredWorkerEvents with
    | nil =>
      obtain ⟨_, _, _, _, _, member⟩ := spins
      simp [deferred] at member
    | cons event rest =>
      dsimp only
      rw [bind_assoc, ends_modifyClient_bind, pure_bind]
      refine Ends.bind (spins.handles deferred) ?_ ?_
      · intro _ between spun
        refine (induction (spun.spins rfl)).mono fun result final ends => ?_
        rcases ends with never | ⟨⟨evidence, member⟩, failed⟩
        · exact Or.inl never
        · exact Or.inr ⟨⟨evidence, spun.deferred rfl _ member⟩, failed⟩
      · intro failure final spun
        obtain ⟨⟨evidence, rfl⟩, failed⟩ := spun.goes.resolve_left (by simp)
        exact Or.inr ⟨⟨evidence, List.mem_cons_self⟩, failed⟩

end

/-- The loop returns within one round more than there are deferred events, and takes up each of them
at most once, unless a result waits for the command of a cancellation that is only announced. Then
no number of rounds is enough, and only evidence that cannot be sent stops the loop.

Proof: the first part is `ends_drainDeferred`, an induction over the deferred events; the second is
`Spins.unfinished`. -/
theorem drainDeferred_returns (env : Environment) (world : World) (rounds : Nat) :
    (¬ Spins world → world.client.deferredWorkerEvents.length < rounds →
      Ends (drainDeferred env rounds) world (Drained world)) ∧
    (Spins world → Ends (drainDeferred env rounds) world fun result _ =>
      result = .error .unfinished ∨
        (∃ evidence, .evidence evidence ∈ world.client.deferredWorkerEvents) ∧
          ∃ failure, result = .error failure) :=
  ⟨ends_drainDeferred rounds, fun spins => spins.unfinished rounds⟩

/-! ## A sample -/

/-- The result of a worker that is told to stop before its start. -/
def stoppedResult : WorkerResult where
  failed := true
  classification := .cancelled
  phase := .preparation
  execution := none
  completeLog := none
  cleanup := none
  measuredResources := none
  failure := none
  terminalContext := none
  measuredNetwork := false
  observations := []
  startedAt := sampleTime 1004
  completedAt := sampleTime 1006

/-- While a worker waits for its start, an acknowledgement that comes once more announces the
cancellation of the job. The result of the worker then finds the event about the start pending. -/
def announcing : List (Action × (Nat → Response)) :=
  asking ++
    [sampleDelivery 1005 (sampleAcknowledgement "again" 1005 5
        { sampleReconciliation 2000 .applied .active .cancelling with
          cancellationId := encode "stop" }),
      (.work (.result stoppedResult none none), sampleAnswers 1006),
      (.takeWorkerEvent, sampleAnswers 1006)]

/-- The event about the start is acknowledged. -/
def startAcknowledged : RunnerEventAcknowledgement where
  runnerMessageId := numberedId (sampleClient.sha256 sampleClient.instanceID) 6
  committedAt := some ⟨1007, 0⟩
  reconciliation := some (sampleReconciliation 2000 .applied .active .running)

/-- Without a single round the handler of the acknowledgement stops where its loop begins, and the
result is deferred there. -/
def drainingFacts (world : World) : Bool :=
  match handleEventAcknowledgement sampleClient 0 startAcknowledged (sampleTime 1007)
      (world.before (sampleAnswers 1007)) with
  | .error .unfinished between =>
    between.client.journal.pendingMessage.isNone &&
      between.client.journal.active.any (·.announced) &&
      between.client.deferredWorkerEvents == [.result stoppedResult none none]
  | _ => false

/-- The loop that the acknowledgement of the start begins never ends. -/
theorem start_acknowledgement_spins :
    ∃ world between, Run sampleClient (fun journal _ => journal = emptyJournal) (fun _ _ => True)
      world ∧
      handleEventAcknowledgement sampleClient 0 startAcknowledged (sampleTime 1007)
        (world.before (sampleAnswers 1007)) = .error .unfinished between ∧
      ∀ rounds, Ends (drainDeferred sampleClient rounds) between fun result _ =>
        result = .error .unfinished := by
  have computed : (performAll sampleClient 1 announcing (sampleBoot emptyJournal)).map
      drainingFacts = some true := by
    decide +kernel
  obtain ⟨world, performed, facts⟩ := Option.map_eq_some_iff.1 computed
  have begun : Run sampleClient (fun journal _ => journal = emptyJournal) (fun _ _ => True)
      (sampleBoot emptyJournal) := .start _ _ _ _ rfl (empty_valid _)
  unfold drainingFacts at facts
  split at facts
  case h_2 => simp at facts
  case h_1 between handled =>
    simp only [Bool.and_eq_true, Option.isNone_iff_eq_none, Option.any_eq_true, beq_iff_eq] at facts
    obtain ⟨⟨free, job, active, announced⟩, deferred⟩ := facts
    have spins : Spins between :=
      ⟨free, ⟨job, active, announced⟩, stoppedResult, none, none, by simp [deferred]⟩
    refine ⟨world, between, begun.performAll (fun _ _ _ => trivial) performed, handled,
      fun rounds => (spins.unfinished rounds).mono fun result final ends => ?_⟩
    refine ends.resolve_right ?_
    rintro ⟨⟨evidence, member⟩, _⟩
    simp [deferred] at member

end ProvenanceRunner.Gateway
