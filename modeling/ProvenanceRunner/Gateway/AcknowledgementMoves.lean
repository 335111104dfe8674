import ProvenanceRunner.Gateway.SettlingMoves

/-! # Acknowledgements as moves

What follows the acknowledgement of an event, and what a late reconciliation brings. -/

namespace ProvenanceRunner.Gateway

open Programs

variable {job : JournalJob}

variable {env : Environment} {licence : Licence} {start : Core} {world : World}

/-! ## Forgetting a job -/

section

variable (reached : Moves env licence start (coreOf world))
include reached

theorem acts_discardAll (events : List WorkerEvent) :
    Acts env licence coreOf start (discardAll events) world fun _ _ => True := by
  induction events generalizing world with
  | nil => exact Acts.pure () reached trivial
  | cons event rest induction =>
    unfold discardAll
    cases event with
    | start =>
      unfold discard answerStart
      rw [bind_assoc, acts_get_bind, acts_record_bind]
      exact induction (reached.tail (.note _ _ _ ⟨rfl, rfl, rfl⟩))
    | _ =>
      unfold discard
      rw [acts_pure_bind]
      exact induction reached

theorem acts_forgetJob (pending : Option RunnerMessage) (phase : JobPhase)
    (gone : world.client.journal.active = none) :
    Acts env licence coreOf start (forgetJob pending phase) world fun _ _ => True := by
  have rest (next : World) (moves : Moves env licence start (coreOf next))
      (gone : next.client.journal.active = none) :
      Acts env licence coreOf start (do
        discardDeferred
        clearRestartEvidence : Handler Unit) next fun _ _ => True := by
    unfold discardDeferred
    rw [bind_assoc, acts_get_bind]
    dsimp only
    rw [bind_assoc, acts_modifyClient_bind]
    refine Acts.bind (acts_discardAll ?_ _) fun _ _ moves _ => Acts.pure () moves trivial
    exact moves.tail (.discard (booksOf next) (handsOf next) gone)
  unfold forgetJob clearCompleteLogTarget
  rw [acts_modifyClient_bind]
  cases pending with
  | none => exact rest _ reached gone
  | some message =>
    refine (ends_bind _ _ _ _).2 ((ends_remember message phase _).2 ?_)
    refine rest _ ?_ ?_
    · rw [coreOf_remembering]
      exact reached
    · unfold World.remembering
      split <;> exact gone

/-- A waiting start is refused and the journal forgets the job. -/
theorem acts_finish_bind (next : Handler Unit)
    (rest : ∀ between, Moves env licence start (coreOf between) →
      between.client.journal.active = none →
      Acts env licence coreOf start next between fun _ _ => True) :
    Acts env licence coreOf start (do
      stopWorker
      failStartResponse
      update env .finish
      next) world fun _ _ => True := by
  rw [acts_stopWorker_bind, acts_failStartResponse_bind]
  refine Acts.bind (acts_update (stop_moves reached) .finish trivial
    (not_panics_other (by simp) (by simp))) fun _ between moves committed => ?_
  obtain ⟨state, finishes, rfl⟩ := committed
  exact rest _ moves (congrArg JournalState.active (Prod.mk.inj finishes.1).1.symm)

/-- The end of a job: after the journal the memory forgets it. -/
theorem acts_finish (pending : Option RunnerMessage) (phase : JobPhase) :
    Acts env licence coreOf start (do
      stopWorker
      failStartResponse
      update env .finish
      modifyClient fun client => { client with recovering := false }
      forgetJob pending phase : Handler Unit) world fun _ _ => True := by
  refine acts_finish_bind reached _ fun between moves gone => ?_
  rw [acts_modifyClient_bind]
  exact acts_forgetJob (moves.tail (.recover _ _ (Or.inl gone))) pending phase gone

end

/-! ## After an acknowledgement -/

/-- The pending event has just been settled, and nothing else has changed. -/
def JustSettled (world : World) (pending : RunnerMessage) (past : List Effect) : Prop :=
  world.trace = .settled pending :: past

variable (pending : RunnerMessage) (reconciliation : LeaseReconciliation) (past : List Effect)

theorem acts_startWorker (reached : Moves env licence start (coreOf world))
    (settled : JustSettled world pending past) (prepared : pending.isPreparing)
    (fresh : world.client.recovering = false) :
    Acts env licence coreOf start (startWorker env) world fun _ _ => True := by
  unfold startWorker
  rw [acts_get_bind]
  split
  · exact Acts.plain reached _
  case isFalse idle =>
    split
    · exact Acts.plain reached _
    rename_i job active
    split
    · exact Acts.plain reached _
    split
    · exact Acts.plain reached _
    split
    · exact Acts.plain reached _
    · refine ⟨?_, trivial⟩
      exact reached.tail (.launch (booksOf world) (handsOf world) pending job past settled
        prepared fresh active (Bool.eq_false_iff.2 idle))

theorem acts_queuePreparing (reached : Moves env licence start (coreOf world)) (now : Int)
    (settled : JustSettled world pending past) (accepted : pending.isAcceptance)
    (fresh : world.client.recovering = false)
    (active : world.client.journal.active = some job) (running : job.cancellationID = [])
    (drop : licence.phaseDrop ∨ jobPhaseRank job.phase ≤ 2) :
    Acts env licence coreOf start (queuePreparing env now) world fun _ _ => True := by
  unfold queuePreparing
  rw [acts_snapshot_bind]
  refine acts_activeIdentity_bind reached _ _ fun _ _ => ?_
  refine (acts_queueDurable _ _ (sees_coreOf world) reached ?_ ?_).mono fun _ _ _ => trivial
  · intro _ _ none
    exact absurd (active.symm.trans none) (by simp)
  intro numbered message numbers carries
  refine Or.inl ⟨rfl, ⟨_, carries⟩, fresh, ⟨pending, past, accepted, ?_⟩, fun other same => ?_⟩
  · exact congrArg (List.cons _) settled
  change numbered.active = some other at same
  rw [(commits_next env numbers).2] at same
  have same' : other = job := Option.some.inj (same.symm.trans active)
  exact same' ▸ ⟨running, drop⟩

/-- What an acknowledgement has been checked for when it is applied. -/
structure Applies (world : World) (pending : RunnerMessage) (reconciliation : LeaseReconciliation) :
    Prop where
  stands : world.client.journal.pendingMessage = some pending
  woken : Acknowledging world.trace pending reconciliation
  matching : activeMatchesIdentity world.client.journal.active reconciliation.lease
    reconciliation.attempt = true
  current : reconciliation.disposition ≠ .stale
  running : pending.isStarted → reconciliation.status = .active ∧ reconciliation.phase = .running

/-- A lower phase than the recorded one is only set with a licence. -/
def KeepsPhase (licence : Licence) (state : JournalState) (pending : RunnerMessage) : Prop :=
  licence.phaseDrop ∨ (pending.isAcceptance → ∀ job, state.active = some job →
    job.cancellationID = [] → jobPhaseRank job.phase ≤ 2)

theorem acts_grant {α : Type} {post : α → World → Prop}
    (reached : Moves env licence start (coreOf world)) (next : Unit → Handler α)
    (settled : JustSettled world pending past) (started : pending.isStarted)
    (woken : Acknowledging past pending reconciliation)
    (applied : reconciliation.disposition ≠ .stale ∧ reconciliation.status = .active ∧
      reconciliation.phase = .running)
    (matching : activeMatchesIdentity world.client.journal.active reconciliation.lease
      reconciliation.attempt = true)
    (fresh : world.client.recovering = false)
    (rest : ∀ between, Moves env licence start (coreOf between) →
      Acts env licence coreOf start (next ()) between post) :
    Acts env licence coreOf start (completeStartResponse true >>= next) world post := by
  obtain ⟨job, active, same⟩ := matches_active matching
  unfold completeStartResponse
  rw [bind_assoc, acts_get_bind]
  dsimp only
  rw [bind_assoc, acts_modifyClient_bind]
  cases waiting : world.client.startResponse with
  | none =>
    refine rest _ ?_
    have unchanged : coreOf { world with client := { world.client with startResponse := none } } =
        coreOf world := by
      simp only [coreOf, booksOf, handsOf, waiting]
    rw [unchanged]
    exact reached
  | some channel =>
    refine rest _ ?_
    exact reached.tail (.grant (booksOf world) (handsOf world) channel pending reconciliation job
      past waiting settled started woken applied active same fresh)

/-- The events that an applied acknowledgement leads to. -/
theorem acts_afterAcknowledged (reached : Moves env licence start (coreOf world)) (rounds : Nat)
    (pending : RunnerMessage) (reconciliation : LeaseReconciliation) (active : Option JournalJob)
    (now : Int) (sound : start.books.Sound env) (applies : Applies world pending reconciliation)
    (present : active ≠ none) (drop : KeepsPhase licence world.client.journal pending) :
    Acts env licence coreOf start (afterAcknowledged env rounds pending active now) world
      fun _ _ => True := by
  obtain ⟨job, here, _⟩ := matches_active applies.matching
  -- Once the event is cleared the journal still holds the job.
  have cleared (kept : pending.endsJob = false) (next : Handler Unit)
      (rest : ∀ between, Moves env licence start (coreOf between) →
        JustSettled between pending (.committed .clearPending
          { world.client.journal with pendingMessage := none } :: world.trace) →
        between.client.journal.active = world.client.journal.active →
        between.client.recovering = false →
        Acts env licence coreOf start next between fun _ _ => True) :
      Acts env licence coreOf start (do
        clearPendingAcknowledged env pending active
        if (← get).client.recovering then queueRestartFailure env now else next) world
        fun _ _ => True := by
    refine Acts.bind (acts_clear pending reached active sound applies.stands (by simp [kept]))
      fun _ between moves same => ?_
    rw [acts_get_bind]
    split
    · exact acts_queueRestartFailure moves now
    case isFalse fresh =>
      refine rest between moves ?_ ?_ (by simpa using fresh)
      · exact congrArg (fun core => core.books.trace) same
      · exact congrArg (fun core => core.books.journal.active) same
  unfold afterAcknowledged
  split
  case h_1 event carries =>
    refine cleared (by simp [RunnerMessage.endsJob, carries]) _ fun _ moves settled same fresh => ?_
    rw [acts_snapshot_bind, same, here]
    dsimp only
    split
    · exact acts_advance moves rounds now
    case isFalse running =>
      have uncancelled : job.cancellationID = [] := by simpa using running
      refine acts_queuePreparing pending _ moves now settled ⟨_, carries⟩ fresh (same.trans here)
        uncancelled ?_
      exact drop.imp_right fun low => low ⟨_, carries⟩ job here uncancelled
  case h_2 event carries =>
    refine cleared (by simp [RunnerMessage.endsJob, carries]) _ fun _ moves settled same fresh => ?_
    rw [acts_snapshot_bind, same, here]
    dsimp only
    split
    · exact acts_advance moves rounds now
    · exact acts_startWorker pending _ moves settled ⟨_, carries⟩ fresh
  case h_3 event carries =>
    refine cleared (by simp [RunnerMessage.endsJob, carries]) _ fun _ moves settled same fresh => ?_
    refine acts_grant pending reconciliation _ moves _ settled ⟨_, carries⟩ ?_
      ⟨applies.current, applies.running ⟨_, carries⟩⟩ ?_ fresh
      fun _ moves => acts_drainDeferred moves rounds
    · exact applies.woken
    · rw [same]
      exact applies.matching
  case h_4 event carries =>
    exact cleared (by simp [RunnerMessage.endsJob, carries]) _ fun _ moves _ _ _ =>
      acts_drainDeferred moves rounds
  case h_8 => exact Acts.permanent reached _
  all_goals
    rename_i event carries
    have ends : pending.endsJob = true := by simp [RunnerMessage.endsJob, carries]
    obtain ⟨_, rfl⟩ := Option.ne_none_iff_exists'.1 present
    have recovered := reached.tail (.recover _ _ (Or.inr ⟨pending, applies.stands, ends⟩))
    rw [acts_modifyClient_bind]
    exact acts_finish_bind recovered _ fun _ moves gone => acts_forgetJob moves _ _ gone

/-! ## Reconciliations -/

/-- The job that a reconciliation leaves in the journal. -/
def LeaseReconciliation.applied (reconciliation : LeaseReconciliation) (lease : LeaseIdentity)
    (job : JournalJob) : JournalJob :=
  if reconciliation.cancellationId = [] then reconciledJob job lease reconciliation.phase
  else cancellingJob (reconciledJob job lease reconciliation.phase) reconciliation.cancellationId

/-- What a reconciliation that is committed says about the active job, and what it makes of it. -/
theorem commits_reconcile {books : Books} {reconciliation : LeaseReconciliation}
    {state : JournalState} (commits : Commits env books (.reconcile reconciliation) state) :
    ∃ job lease, books.journal.active = some job ∧ reconciliation.lease = some lease ∧
      activeMatchesIdentity books.journal.active reconciliation.lease
        reconciliation.attempt = true ∧
      (reconciliation.cancellationId ≠ [] →
        job.cancellationID = [] ∨ job.cancellationID = reconciliation.cancellationId) ∧
      state = { books.journal with active := some (reconciliation.applied lease job) } := by
  have applied := commits.1
  cases active : books.journal.active with
  | none => simp [JournalChange.apply, active] at applied
  | some job =>
    cases given : reconciliation.lease with
    | none => simp [JournalChange.apply, active, given] at applied
    | some lease =>
      simp only [JournalChange.apply, active, given] at applied
      split at applied
      · simp at applied
      case isFalse matching =>
        refine ⟨job, lease, rfl, rfl, by simpa using matching, ?_⟩
        split at applied
        case isTrue empty =>
          have empty' : reconciliation.cancellationId = [] := List.isEmpty_iff.1 empty
          refine ⟨fun named => absurd empty' named, ?_⟩
          rw [LeaseReconciliation.applied, if_pos empty']
          exact (Prod.mk.inj applied).1.symm
        case isFalse named =>
          split at applied
          · simp at applied
          case isFalse agree =>
            have named' : reconciliation.cancellationId ≠ [] := by simpa using named
            refine ⟨fun _ => ?_, ?_⟩
            · by_cases empty : job.cancellationID = []
              · exact Or.inl empty
              · refine Or.inr ?_
                simpa [reconciledJob, empty] using agree
            · rw [LeaseReconciliation.applied, if_neg named']
              exact (Prod.mk.inj applied).1.symm

/-- A reconciliation keeps the identity of the job. -/
theorem applied_identity {lease : LeaseIdentity}
    {attempt : Option AttemptIdentity}
    (matching : sameLeaseAttempt job.specification.lease job.specification.attempt (some lease)
      attempt = true) :
    (reconciliation.applied lease job).identity = job.identity := by
  obtain ⟨_, left, right⟩ := (sameLeaseAttempt_iff _ _ _ _).1 matching
  have kept : (reconciledJob job lease reconciliation.phase).identity = job.identity := by
    rw [JournalJob.identity, JournalJob.identity, left]
    cases attempt with
    | none => simp [identityOf] at right
    | some attempt =>
      cases jobLease : job.specification.lease with
      | none => simp [identityOf, jobLease] at left
      | some =>
        cases jobAttempt : job.specification.attempt with
        | none => simp [identityOf, jobLease, jobAttempt] at left
        | some jobAttempt =>
          rw [jobLease, jobAttempt, ← right] at left
          simp only [identityOf, Option.some.injEq, Identity.mk.injEq] at left right
          simp only [reconciledJob, identityOf, jobAttempt, ← right, authoritativeLease]
          split <;> simp [left.2.2.2]
  unfold LeaseReconciliation.applied
  split
  · exact kept
  · exact kept

theorem applied_matches {reconciliation : LeaseReconciliation} {lease : LeaseIdentity}
    (given : reconciliation.lease = some lease)
    (matching : activeMatchesIdentity (some job) reconciliation.lease reconciliation.attempt =
      true) :
    activeMatchesIdentity (some (reconciliation.applied lease job)) reconciliation.lease
      reconciliation.attempt = true := by
  have same := applied_identity reconciliation (given ▸ matching)
  obtain ⟨identity, left, right⟩ := (sameLeaseAttempt_iff _ _ _ _).1 matching
  exact (sameLeaseAttempt_iff _ _ _ _).2 ⟨identity, same.trans left, right⟩

/-- A well-formed reconciliation of a live lease without a cancellation is not cancelling. -/
theorem not_cancelling {reconciliation : LeaseReconciliation}
    (wellFormed : validateReconciliation (some reconciliation) = none)
    (live : terminalLeaseStatus reconciliation.status = false)
    (unnamed : reconciliation.cancellationId = []) : reconciliation.phase ≠ .cancelling := by
  intro phase
  unfold validateReconciliation at wellFormed
  dsimp only at wellFormed
  split at wellFormed
  · simp [unnamed, phase, live] at wellFormed
  · simp at wellFormed

/-! ## Settling -/

theorem sameLeaseAttempt_trans {leftLease middleLease rightLease : Option LeaseIdentity}
    {leftAttempt middleAttempt rightAttempt : Option AttemptIdentity}
    (first : sameLeaseAttempt leftLease leftAttempt middleLease middleAttempt = true)
    (second : sameLeaseAttempt middleLease middleAttempt rightLease rightAttempt = true) :
    sameLeaseAttempt leftLease leftAttempt rightLease rightAttempt = true := by
  obtain ⟨identity, left, middle⟩ := (sameLeaseAttempt_iff _ _ _ _).1 first
  obtain ⟨other, middle', right⟩ := (sameLeaseAttempt_iff _ _ _ _).1 second
  have same : identity = other := Option.some.inj (middle.symm.trans middle')
  exact (sameLeaseAttempt_iff _ _ _ _).2 ⟨identity, left, same ▸ right⟩

/-- An acknowledgement of the pending event that has passed the checks. -/
structure Accepted (world : World) (pending : RunnerMessage)
    (reconciliation : LeaseReconciliation) : Prop where
  stands : world.client.journal.pendingMessage = some pending
  woken : Acknowledging world.trace pending reconciliation
  wellFormed : validateReconciliation (some reconciliation) = none
  identity : sameLeaseAttempt (runnerMessageIdentity pending).1 (runnerMessageIdentity pending).2
    reconciliation.lease reconciliation.attempt = true
  fits : validatePendingReconciliation pending reconciliation
    (world.client.journal.active.map (·.phase)) = none

/-- Only a rejection can be pending for another lease than that of the active job. -/
theorem foreign_rejection {state : JournalState} (valid : state.Valid env.toJournalEnvironment)
    {pending : RunnerMessage} (stands : state.pendingMessage = some pending)
    {lease : Option LeaseIdentity} {attempt : Option AttemptIdentity}
    (identity : sameLeaseAttempt (runnerMessageIdentity pending).1
      (runnerMessageIdentity pending).2 lease attempt = true)
    (foreign : activeMatchesIdentity state.active lease attempt = false) :
    pending.isRejection = true := by
  by_contra kept
  obtain ⟨_, active, same⟩ :=
    matches_active (pending_belongs valid stands (Bool.eq_false_iff.2 kept))
  have matching := sameLeaseAttempt_trans same identity
  rw [active] at foreign
  exact Bool.false_ne_true (foreign.symm.trans matching)

theorem Accepted.rejection {pending : RunnerMessage} {reconciliation : LeaseReconciliation}
    (accepted : Accepted world pending reconciliation)
    (valid : world.client.journal.Valid env.toJournalEnvironment)
    (foreign : activeMatchesIdentity world.client.journal.active reconciliation.lease
      reconciliation.attempt = false) : pending.isRejection = true :=
  foreign_rejection valid accepted.stands accepted.identity foreign

theorem rejection_not_ending {pending : RunnerMessage} (rejection : pending.isRejection = true) :
    pending.endsJob = false := by
  unfold RunnerMessage.isRejection at rejection
  split at rejection
  · rename_i carries
    simp [RunnerMessage.endsJob, carries]
  · simp at rejection

/-- What the journal must be spared, unless it is licensed: an acknowledgement that does not end the
lease clears an event that ends the job. -/
def KeepsEnd (licence : Licence) (outside : Nat → Response) (pending : RunnerMessage)
    (reconciliation : LeaseReconciliation) : Prop :=
  licence.lostEnd ∨ (pending.endsJob = true → terminalLeaseStatus reconciliation.status = false →
    reconciliation.cancellationId = [] ∧ ∀ n, (outside n).persisted.Steady)

/-- The reconciliation announces a cancellation. -/
def Announces (reconciliation : Option LeaseReconciliation) : Prop :=
  ∃ value, reconciliation = some value ∧ value.cancellationId ≠ []

/-- Writes that report an error after a cancellation has been recorded need a licence when the
process survives them. -/
def KeepsAnswers (licence : Licence) (outside : Nat → Response) : Prop :=
  licence.lateAnswer ∨ ∀ n, (outside n).persisted ≠ .unsynced true

end ProvenanceRunner.Gateway
