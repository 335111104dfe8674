import ProvenanceRunner.Gateway.Soundness

/-! # Advancing as moves

The programs that `advance` is made of, each as a sequence of moves, and the small programs around
an acknowledgement that later handlers share. -/

namespace ProvenanceRunner.Gateway

open Programs

variable {env : Environment} {licence : Licence} {start : Core} {world : World}

/-! ## Programs that leave the core alone -/

/-- The network route has been withdrawn. -/
def World.workerStopped (world : World) : World :=
  { world with client := { world.client with
      workerNetworkAuthority := world.client.workerNetworkAuthority.map fun guard =>
        { guard with done := true } } }

/-- The core is as before, and the program has not panicked. -/
def Unchanged {α : Type} (world : World) (result : Except Failure α) (final : World) : Prop :=
  Sane result ∧ coreOf final = coreOf world

variable {α : Type} {post : α → World → Prop}

theorem unchanged_ok {final : World} (answer : α) (same : coreOf final = coreOf world) :
    Unchanged world (.ok answer) final := ⟨by simp, same⟩

theorem unchanged_error {final : World} (failure : Failure) (sane : failure.sane)
    (same : coreOf final = coreOf world) :
    Unchanged world (.error failure : Except Failure α) final :=
  ⟨fun _ error => Except.error.inj error ▸ sane, same⟩

section

variable (reached : Moves env licence start (coreOf world))
include reached

theorem Acts.unchanged {program : Handler α} (ends : Ends program world (Unchanged world)) :
    Acts env licence coreOf start program world fun _ final => coreOf final = coreOf world := by
  refine ends.mono fun result final unchanged => ?_
  obtain ⟨sane, same⟩ := unchanged
  exact .of_sane sane (same ▸ reached) fun _ _ => same

theorem Acts.permanent (text : String) :
    Acts env licence coreOf start (permanent text) world post :=
  Acts.throw (.permanent text) reached rfl (by simp)

theorem Acts.plain (text : String) : Acts env licence coreOf start (plain text) world post :=
  Acts.throw (.plain text) reached rfl (by simp)

end

theorem unchanged_reconcileGuard (job : JobSpecification) :
    Ends (reconcileGuard job) world (Unchanged world) := by
  unfold reconcileGuard
  rw [ends_get_bind]
  dsimp only
  split
  · exact unchanged_error _ (sane_plain _) rfl
  rw [ends_ask_bind]
  split
  · exact unchanged_error _ (sane_plain _) rfl
  rw [ends_modifyClient_bind, ends_ask_bind]
  split
  · exact unchanged_ok _ rfl
  · exact unchanged_ok _ rfl
  · exact unchanged_error _ (sane_plain _) rfl

theorem unchanged_consumeNetworkAuthority (value : LeaseReconciliation) :
    Ends (consumeNetworkAuthority value) world (Unchanged world) := by
  have refused (next : World) (same : coreOf next = coreOf world) (bad : Bool) (text : String) :
      Ends (if bad then permanent text else pure () : Handler Unit) next (Unchanged world) := by
    split
    · exact unchanged_error _ (sane_permanent _) same
    · exact unchanged_ok _ same
  unfold consumeNetworkAuthority
  rw [ends_snapshot_bind]
  split
  · exact refused world rfl _ _
  split
  · exact refused world rfl _ _
  split
  · exact refused world rfl _ _
  split
  · exact refused world.workerStopped rfl _ _
  rw [ends_get_bind]
  split
  · exact unchanged_error _ (sane_plain _) rfl
  rw [ends_get_bind]
  split
  · rw [ends_ask_bind]
    split
    · exact unchanged_ok _ rfl
    · exact unchanged_error _ (sane_plain _) rfl
  · exact unchanged_reconcileGuard _

theorem unchanged_networkAuthorityStopped :
    Ends networkAuthorityStopped world (Unchanged world) := by
  unfold networkAuthorityStopped
  rw [ends_get_bind]
  dsimp only
  split
  · exact unchanged_ok _ rfl
  split
  · exact unchanged_ok _ rfl
  · exact unchanged_ok _ rfl

/-! ## Stopping -/

/-- A waiting start request has been refused. -/
def World.startFailed (world : World) : World :=
  match world.client.startResponse with
  | none => { world with client := { world.client with startResponse := none } }
  | some channel => { world with
      client := { world.client with startResponse := none }
      trace := .answered channel false world.client.journal world.client.recovering ::
        world.trace }

@[simp] theorem booksOf_startFailed (world : World) :
    booksOf world.startFailed = (booksOf world).failStart := by
  unfold World.startFailed Books.failStart
  cases waiting : world.client.startResponse with
  | none | some => simp [booksOf, waiting]

theorem failStart_journal (books : Books) : books.failStart.journal = books.journal := by
  unfold Books.failStart
  split <;> rfl

theorem startFailed_journal (world : World) :
    world.startFailed.client.journal = world.client.journal := by
  unfold World.startFailed
  split <;> rfl

@[simp] theorem handsOf_startFailed (world : World) :
    handsOf world.startFailed = handsOf world := by
  unfold World.startFailed
  split <;> rfl

theorem ends_stopWorker_bind (post : Except Failure α → World → Prop) (next : Unit → Handler α) :
    Ends (stopWorker >>= next) world post ↔ Ends (next ()) world.workerStopped post := by
  unfold stopWorker stopNetworkAuthority
  simp only [ne_eq, not_true_eq_false, false_and, if_false]
  exact Iff.rfl

theorem ends_failStartResponse_bind (post : Except Failure α → World → Prop)
    (next : Unit → Handler α) :
    Ends (failStartResponse >>= next) world post ↔ Ends (next ()) world.startFailed post := by
  unfold failStartResponse completeStartResponse World.startFailed
  rw [bind_assoc, ends_get_bind]
  dsimp only
  cases waiting : world.client.startResponse with
  | none | some => exact Iff.rfl

theorem acts_stopWorker_bind (next : Unit → Handler α) :
    Acts env licence coreOf start (stopWorker >>= next) world post ↔
      Acts env licence coreOf start (next ()) world.workerStopped post :=
  ends_stopWorker_bind _ next

theorem acts_failStartResponse_bind (next : Unit → Handler α) :
    Acts env licence coreOf start (failStartResponse >>= next) world post ↔
      Acts env licence coreOf start (next ()) world.startFailed post :=
  ends_failStartResponse_bind _ next

theorem stop_moves (reached : Moves env licence start (coreOf world)) :
    Moves env licence start (coreOf world.workerStopped.startFailed) := by
  rw [coreOf_eq, booksOf_startFailed, handsOf_startFailed]
  exact reached.tail (.fail _ _)

/-! ## Updates -/

/-- A permitted change of the journal is a move. -/
theorem acts_update (reached : Moves env licence start (coreOf world)) (change : JournalChange)
    (permitted : Permitted env licence (coreOf world) change)
    (calm : ¬ Panics change world.client.journal) :
    Acts env licence coreOf start (update env change) world fun _ final =>
      ∃ state, Commits env (booksOf world) change state ∧ final = world.committed change state := by
  have moves (state : JournalState) (commits : Commits env (booksOf world) change state) :
      Moves env licence start (coreOf (world.committed change state)) :=
    reached.tail (.commit _ _ change state commits permitted)
  refine ends_update env change world _ ?_ ?_ ?_ ?_
  · intro state commits
    exact ⟨moves state commits, state, commits, rfl⟩
  · exact fun state _ commits _ => .failed (by simp) (moves state commits)
  · exact fun _ nil _ _ => .failed nil reached
  · intro state failure applied
    exact .spoiled reached (fun nil => calm (apply_panics env change _ state (nil ▸ applied)))
      applied

theorem not_panics_other {change : JournalChange} {state : JournalState}
    (cancel : ∀ cancellation digest, change ≠ .recordCancellation cancellation digest)
    (queue : ∀ message mutation, change ≠ .queueDurable message mutation) :
    ¬ Panics change state := by
  rintro ⟨_, ⟨cancellation, digest, same⟩ | ⟨message, _, same⟩⟩
  · exact cancel cancellation digest same
  · exact queue message _ same

section

variable (reached : Moves env licence start (coreOf world))
include reached

/-- A recorded cancellation and the refusal of a waiting start request are one move, unless the
write reports an error that the process survives. -/
theorem acts_cancel (change : JournalChange) (next : Handler Unit)
    (cancels : Cancels world.client.journal change) (present : world.client.journal.active ≠ none)
    (late : licence.lateAnswer ∨ ∀ n, (start.hands.outside n).persisted ≠ .unsynced true)
    (rest : ∀ between, Moves env licence start (coreOf between) →
      Commits env (booksOf world) change between.client.journal →
      Acts env licence coreOf start next between fun _ _ => True) :
    Acts env licence coreOf start (do
      update env change
      stopWorker
      failStartResponse
      next) world fun _ _ => True := by
  have moves (state : JournalState) (commits : Commits env (booksOf world) change state) :
      Moves env licence start
        ⟨((booksOf world).commit change state).failStart, handsOf world⟩ :=
    reached.tail (.cancel _ _ change state commits cancels)
  rw [Acts, ends_bind]
  refine ends_update env change world _ ?_ ?_ ?_ ?_
  · intro state commits
    change Acts env licence coreOf start _ (world.committed change state) _
    rw [acts_stopWorker_bind, acts_failStartResponse_bind]
    refine rest _ ?_ ?_
    · rw [coreOf_eq, booksOf_startFailed, handsOf_startFailed]
      exact moves state commits
    · rw [startFailed_journal]
      exact commits
  · intro state transient commits persisted
    cases transient with
    | false =>
      refine ⟨by simp, _, moves state commits, Or.inl ?_, by simp [Failure.transient]⟩
      unfold Books.failStart
      split
      · exact List.suffix_rfl
      · exact List.suffix_cons _ _
    | true =>
      rcases late with allowed | calm
      · exact .failed (by simp)
          (reached.tail (.cancelLate _ _ change state commits cancels allowed))
      · have same : world.responses = start.hands.outside := reached.outside
        rw [same] at persisted
        exact absurd persisted (calm _)
  · exact fun _ nil _ _ => .failed nil reached
  · intro state failure applied
    exact .spoiled reached
      (fun nil => present (apply_panics env change _ state (nil ▸ applied)).1) applied

/-! ## Events about the active job -/

theorem acts_activeIdentity_bind (state : JournalState)
    (next : Option LeaseIdentity × Option AttemptIdentity → Handler α)
    (present : ∀ job, state.active = some job →
      Acts env licence coreOf start (next (job.specification.lease, job.specification.attempt))
      world post) :
    Acts env licence coreOf start (activeIdentity state >>= next) world post :=
  ends_activeIdentity_bind state world next _
    (.failed (by simp) reached) present

/-- Queueing an event that changes nothing else. -/
theorem acts_queueKeep (payload : RunnerPayload)
    (origin : ∀ numbered message, Commits env (booksOf world) .nextMessageSequence numbered →
      message.payload = some payload →
      Origin licence ⟨(booksOf world).commit .nextMessageSequence numbered, handsOf world⟩
      message .keep) :
    Acts env licence coreOf start (queueDurable env payload .keep) world fun _ _ => True :=
  (acts_queueDurable payload .keep (sees_coreOf world) reached (by simp) origin).mono
    fun _ _ _ => trivial

theorem acts_queueFailed (event : JobFailed) :
    Acts env licence coreOf start (queueDurable env (.failed event) .keep) world fun _ _ => True :=
  acts_queueKeep reached _ fun _ _ _ carries => Or.inr (Or.inr (Or.inl ⟨event, carries⟩))

theorem acts_queueRejected (event : LeaseRejected) :
    Acts env licence coreOf start (queueDurable env (.leaseRejected event) .keep) world
      fun _ _ => True :=
  acts_queueKeep reached _ fun _ _ _ carries => Or.inl ⟨event, carries⟩

theorem acts_queueRenewal (now : Int) :
    Acts env licence coreOf start (queueRenewal env now) world fun _ _ => True := by
  unfold queueRenewal
  rw [acts_snapshot_bind]
  refine acts_activeIdentity_bind reached _ _ fun job _ => ?_
  rw [acts_get_bind]
  exact acts_queueKeep reached _ fun _ _ _ carries => Or.inr (Or.inl ⟨_, carries⟩)

theorem acts_queueLeaseExpired (now : Int) :
    Acts env licence coreOf start (queueLeaseExpired env now) world fun _ _ => True := by
  unfold queueLeaseExpired
  rw [acts_snapshot_bind]
  exact acts_activeIdentity_bind reached _ _ fun job _ => acts_queueFailed reached _

/-- Without a result a cancellation is only reported when no worker runs and none has ended with a
result that is still to be reported. -/
theorem acts_queueCancellation (job : JournalJob) (now : Int)
    (idle : (handsOf world).workerRunning = false) (reported : (handsOf world).deferred = [])
    (active : world.client.journal.active = some job) (cancelled : job.cancellationID ≠ []) :
    Acts env licence coreOf start (queueCancellation env now none) world fun _ _ => True := by
  unfold queueCancellation
  rw [acts_snapshot_bind]
  refine acts_activeIdentity_bind reached _ _ fun _ _ => ?_
  rw [active]
  refine acts_queueKeep reached _ fun numbered message numbers carries => ?_
  refine Or.inr (Or.inr (Or.inr (Or.inl ⟨_, carries, idle, reported, job, ?_, cancelled⟩)))
  change numbered.active = some job
  rw [(commits_next env numbers).2]
  exact active

theorem acts_queueRestartFailure (now : Int) :
    Acts env licence coreOf start (queueRestartFailure env now) world fun _ _ => True := by
  unfold queueRestartFailure
  rw [acts_snapshot_bind]
  refine acts_activeIdentity_bind reached _ _ fun job _ => ?_
  rw [acts_get_bind]
  dsimp only
  have bare (next : World) (same : Moves env licence start (coreOf next)) :
      Acts env licence coreOf start (queueRestartFailureWithoutEvidence env now
        job.specification.lease job.specification.attempt) next fun _ _ => True := by
    unfold queueRestartFailureWithoutEvidence clearCompleteLogTarget clearRestartEvidence
    rw [acts_modifyClient_bind, acts_modifyClient_bind]
    exact acts_queueFailed (by exact same) _
  split
  · exact acts_queueFailed reached _
  split
  · exact Acts.pure () reached trivial
  rw [acts_ask_bind]
  split
  · exact bare _ reached
  split
  · exact bare _ reached
  rw [acts_ask_bind]
  split
  · exact Acts.plain (by exact reached) _
  split
  · exact Acts.permanent (by exact reached) _
  · unfold clearCompleteLogTarget
    rw [acts_modifyClient_bind]
    exact acts_queueFailed (by exact reached) _

theorem acts_queueNetworkAuthorityFailure (now : Int) :
    Acts env licence coreOf start (queueNetworkAuthorityFailure env now) world fun _ _ => True := by
  unfold queueNetworkAuthorityFailure
  rw [acts_get_bind]
  dsimp only
  split
  · exact Acts.pure () reached trivial
  rw [acts_ask_bind]
  split
  · unfold drain
    rw [acts_modifyClient_bind, acts_snapshot_bind]
    exact acts_activeIdentity_bind (by exact reached) _ _ fun job _ =>
      acts_queueFailed (by exact reached) _
  · rw [acts_snapshot_bind]
    exact acts_activeIdentity_bind (by exact reached) _ _ fun job _ =>
      acts_queueFailed (by exact reached) _

/-! ## Advance -/

/-- Going on with the active job is a sequence of moves, whatever state it is in. -/
theorem acts_advance (rounds : Nat) (now : Int) :
    Acts env licence coreOf start (advance env rounds now) world fun _ _ => True := by
  unfold advance
  rw [acts_snapshot_bind, acts_get_bind]
  split
  case h_1 => exact Acts.pure () reached trivial
  case h_2 job active =>
    have stopped := stop_moves reached
    split
    · exact acts_queueRestartFailure reached now
    split
    case isTrue cancelled =>
      rw [acts_stopWorker_bind, acts_failStartResponse_bind]
      split
      · exact Acts.pure () stopped trivial
      case isFalse quiet =>
        simp only [Bool.or_eq_true, not_or, Bool.not_eq_true] at quiet
        split
        · exact acts_drainDeferred stopped rounds
        case isFalse nothing =>
          refine acts_queueCancellation stopped job now ?_ ?_ ?_ (by simpa using cancelled)
          · rw [handsOf_startFailed]
            exact quiet.2
          · rw [handsOf_startFailed]
            have empty : world.client.deferredWorkerEvents = [] := by simpa using nothing
            exact empty
          · rw [startFailed_journal]
            exact active
    case isFalse =>
      split
      · rw [acts_stopWorker_bind, acts_failStartResponse_bind]
        split
        · exact Acts.pure () stopped trivial
        · exact acts_queueLeaseExpired stopped now
      split
      · exact Acts.pure () reached trivial
      refine Acts.bind (Acts.unchanged reached unchanged_networkAuthorityStopped)
        fun done between moves _ => ?_
      split
      · split
        · exact Acts.pure () moves trivial
        split
        · exact acts_drainDeferred moves rounds
        · exact acts_queueNetworkAuthorityFailure moves now
      split
      · exact acts_queueRenewal moves now
      · exact acts_drainDeferred moves rounds

end

end ProvenanceRunner.Gateway
