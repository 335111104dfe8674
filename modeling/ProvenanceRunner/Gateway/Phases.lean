import ProvenanceRunner.Gateway.DurableState

/-! # Phases of a job

While a job is in the journal its phase and its expiry do not go back, and a cancellation is not
taken back or replaced. The one exception is the acknowledgement of an acceptance: a late
acknowledgement of an earlier event can raise the phase to running while a reissued acceptance is
still pending, and when that is acknowledged, the job is prepared as if it had just been accepted.
-/

namespace ProvenanceRunner.Gateway

open Utf8

variable {phase : JobPhase}

variable {env : Environment} {licence : Licence}

/-- What a later state of the same job may look like. -/
structure Advances (job later : JournalJob) : Prop where
  identity : later.identity = job.identity
  phase : jobPhaseRank job.phase ≤ jobPhaseRank later.phase
  expiry : job.expiresAt ≤ later.expiresAt
  cancelling : job.phase = .cancelling →
    later.phase = .cancelling ∧ later.cancellationID = job.cancellationID

variable (reconciliation : LeaseReconciliation) {trace : List Effect} {books : Books}
  (lease : LeaseIdentity) (job : JournalJob)

theorem Advances.refl : Advances job job :=
  ⟨rfl, Nat.le_refl _, Int.le_refl _, fun phase => ⟨phase, rfl⟩⟩

theorem Advances.trans {job middle later : JournalJob} (first : Advances job middle)
    (second : Advances middle later) : Advances job later where
  identity := second.identity.trans first.identity
  phase := Nat.le_trans first.phase second.phase
  expiry := Int.le_trans first.expiry second.expiry
  cancelling phase :=
    have middle := first.cancelling phase
    have later := second.cancelling middle.1
    ⟨later.1, later.2.trans middle.2⟩

/-- From one journal to the next the job advances, if both hold one. -/
def Progress (state next : JournalState) : Prop :=
  ∀ job later, state.active = some job → next.active = some later → Advances job later

/-- A job that is being cancelled has a recorded cancellation. -/
def JournalState.Named (state : JournalState) : Prop :=
  ∀ job, state.active = some job → job.phase = .cancelling → job.cancellationID ≠ []

theorem progress_same {state next : JournalState} (same : next.active = state.active) :
    Progress state next := by
  intro job later active active'
  rw [same, active, Option.some.injEq] at active'
  exact active' ▸ .refl job

theorem named_same {state next : JournalState} (named : state.Named)
    (same : next.active = state.active) : next.Named := by
  intro job active
  exact named job (same ▸ active)

theorem jobPhaseRank_le_four (phase : JobPhase) : jobPhaseRank phase ≤ 4 := by
  cases phase <;> simp [jobPhaseRank]

theorem jobPhaseRank_eq_four (high : 4 ≤ jobPhaseRank phase) :
    phase = .cancelling := by
  cases phase <;> simp [jobPhaseRank] at high ⊢

/-! ## Changes of the active job -/

theorem applied_phase : (reconciliation.cancellationId ≠ [] ∧
      (reconciliation.applied lease job).phase = .cancelling) ∨
    (reconciliation.cancellationId = [] ∧ (reconciliation.applied lease job).phase =
      (reconciledJob job lease reconciliation.phase).phase) := by
  by_cases unnamed : reconciliation.cancellationId = []
  · exact Or.inr ⟨unnamed, by rw [LeaseReconciliation.applied, if_pos unnamed]⟩
  · exact Or.inl ⟨unnamed, by rw [LeaseReconciliation.applied, if_neg unnamed]; rfl⟩

theorem reconciledJob_rank (lease : LeaseIdentity) (phase : JobPhase) :
    jobPhaseRank job.phase ≤ jobPhaseRank (reconciledJob job lease phase).phase := by
  simp only [reconciledJob]
  split
  case isTrue ahead => exact ahead.2
  case isFalse => exact Nat.le_refl _

theorem applied_cancellation : (reconciliation.applied lease job).cancellationID =
      if reconciliation.cancellationId = [] then job.cancellationID
      else reconciliation.cancellationId := by
  unfold LeaseReconciliation.applied
  split <;> rfl

theorem applied_expiry : job.expiresAt ≤ (reconciliation.applied lease job).expiresAt := by
  have later : job.expiresAt ≤ (reconciledJob job lease reconciliation.phase).expiresAt := by
    simp only [reconciledJob]
    omega
  unfold LeaseReconciliation.applied
  split <;> exact later

/-- A reconciliation that does not contradict the recorded cancellation advances the job. -/
theorem advances_applied {reconciliation : LeaseReconciliation} {lease : LeaseIdentity}
    {job : JournalJob} {attempt : Option AttemptIdentity}
    (matching : sameLeaseAttempt job.specification.lease job.specification.attempt (some lease)
      attempt = true)
    (agrees : reconciliation.cancellationId ≠ [] →
      job.cancellationID = [] ∨ job.cancellationID = reconciliation.cancellationId)
    (named : job.phase = .cancelling → job.cancellationID ≠ []) :
    Advances job (reconciliation.applied lease job) where
  identity := applied_identity _ matching
  phase := by
    rcases applied_phase reconciliation lease job with ⟨_, phase⟩ | ⟨_, phase⟩
    · rw [phase]
      exact jobPhaseRank_le_four job.phase
    · rw [phase]
      exact reconciledJob_rank job lease _
  expiry := applied_expiry reconciliation lease job
  cancelling cancelling := by
    rw [applied_cancellation]
    rcases applied_phase reconciliation lease job with ⟨given, phase⟩ | ⟨unnamed, phase⟩
    · refine ⟨phase, ?_⟩
      rw [if_neg given]
      exact ((agrees given).resolve_left (named cancelling)).symm
    · rw [if_pos unnamed, phase]
      refine ⟨jobPhaseRank_eq_four ?_, rfl⟩
      have rank := reconciledJob_rank job lease reconciliation.phase
      rw [cancelling] at rank
      exact rank

/-- A new phase advances a job that is not being cancelled and not further already. -/
theorem advances_phase {job : JournalJob}
    (rank : jobPhaseRank job.phase ≤ jobPhaseRank phase) (live : job.phase ≠ .cancelling) :
    Advances job { job with phase := phase } :=
  ⟨rfl, rank, Int.le_refl _, fun cancelling => absurd cancelling live⟩

/-- Recording the command of a cancellation advances the job. -/
theorem advances_cancelling {job : JournalJob} {id : Bytes} (deadline : Int) (digest : Bytes)
    (agrees : job.cancellationID = [] ∨ job.cancellationID = id)
    (named : job.phase = .cancelling → job.cancellationID ≠ []) :
    Advances job { cancellingJob job id with
      cancellationDeadline := deadline, cancellationDigest := digest } where
  identity := rfl
  phase := by
    exact jobPhaseRank_le_four job.phase
  expiry := Int.le_refl _
  cancelling cancelling := ⟨rfl, (agrees.resolve_left (named cancelling)).symm⟩

/-! ## One change -/

/-- A change that does not touch the active job. -/
def JournalChange.spares : JournalChange → Bool
  | .nextMessageSequence | .nextHeartbeatSequence | .queueDurable _ .keep | .clearPending
  | .storeHeartbeat _ | .clearHeartbeat | .beginRotation _ | .commitRotation _ _
  | .reconcileRotation _ _ _ => true
  | _ => false

section

variable {state : JournalState}

theorem spares_active {change : JournalChange} (commits : Commits env books change state)
    (spares : change.spares = true) : state.active = books.journal.active := by
  have applied := commits.1
  cases change with
  | queueDurable message mutation =>
    cases mutation with
    | keep =>
      cases (commits_queueDurable commits).2
      rfl
    | _ => simp [JournalChange.spares] at spares
  | finish | reconcile | recordCancellation => simp [JournalChange.spares] at spares
  | _ =>
    simp only [JournalChange.apply] at applied
    repeat' split at applied
    all_goals
      obtain ⟨rfl, _⟩ := Prod.mk.inj applied
      rfl

theorem commits_recordCancellation {cancellation : CancelJob} {digest : Bytes}
    (commits : Commits env books (.recordCancellation cancellation digest) state) :
    ∃ job, books.journal.active = some job ∧
      state =
        { books.journal with active := some { cancellingJob job cancellation.cancellationId with
        cancellationDeadline := asTime cancellation.deadline, cancellationDigest := digest } } := by
  have applied := commits.1
  cases active : books.journal.active with
  | none => simp [JournalChange.apply, active] at applied
  | some job =>
    simp only [JournalChange.apply, active] at applied
    exact ⟨job, rfl, (Prod.mk.inj applied).1.symm⟩

/-- Reconciliations for either reason. -/
theorem progress_reconcile {reconciliation : LeaseReconciliation}
    (commits : Commits env books (.reconcile reconciliation) state) (named : books.journal.Named)
    (calm : reconciliation.cancellationId = [] → reconciliation.phase ≠ .cancelling) :
    Progress books.journal state ∧ state.Named := by
  obtain ⟨job, lease, active, given, matching, agrees, rfl⟩ := commits_reconcile commits
  rw [active, given] at matching
  have advances : Advances job (reconciliation.applied lease job) :=
    advances_applied matching agrees (named job active)
  refine ⟨fun before later found found' => ?_, fun later found cancelling => ?_⟩
  · obtain rfl := Option.some.inj (active.symm.trans found)
    obtain rfl := Option.some.inj found'
    exact advances
  · obtain rfl := Option.some.inj found
    rw [applied_cancellation]
    rcases applied_phase reconciliation lease job with ⟨given, _⟩ | ⟨unnamed, phase⟩
    · rw [if_neg given]
      exact given
    rw [if_pos unnamed]
    refine named job active ?_
    rw [phase] at cancelling
    simp only [reconciledJob] at cancelling
    split at cancelling
    · exact absurd cancelling (calm unnamed)
    · exact cancelling

/-- Without the licence to lower the phase, every change lets the job advance. -/
theorem progress_commit {core : Core} {change : JournalChange} (strict : ¬ licence.phaseDrop)
    (named : core.books.journal.Named) (commits : Commits env core.books change state)
    (reason : Reason env licence core change) :
    Progress core.books.journal state ∧ state.Named := by
  have spared (spares : change.spares = true) : Progress core.books.journal state ∧ state.Named :=
    have same := spares_active commits spares
    ⟨progress_same same, named_same named same⟩
  cases reason with
  | ends => exact spared rfl
  | cancels change cancels =>
    cases change with
    | reconcile =>
      exact progress_reconcile commits named fun unnamed => absurd unnamed cancels
    | recordCancellation =>
      obtain ⟨job, active, rfl⟩ := commits_recordCancellation commits
      refine ⟨fun before later found found' => ?_, fun later found _ => ?_⟩
      · obtain rfl := Option.some.inj (active.symm.trans found)
        obtain rfl := Option.some.inj found'
        exact advances_cancelling _ _ (cancels.2 job active) (named job active)
      · obtain rfl := Option.some.inj found
        exact cancels.1
    | _ => exact absurd cancels id
  | permitted change permitted =>
    cases change with
    | finish =>
      have gone : state.active = none := by
        obtain ⟨rfl, _⟩ := Prod.mk.inj commits.1
        rfl
      refine ⟨fun _ _ _ found => ?_, fun _ found => ?_⟩
      · simp [gone] at found
      · simp [gone] at found
    | reconcile =>
      exact progress_reconcile commits named fun _ => permitted.2
    | recordCancellation => exact absurd permitted id
    | queueDurable message mutation =>
      cases (commits_queueDurable commits).2 with
      | keep => exact spared rfl
      | accept job free =>
        refine ⟨fun _ _ found => ?_, fun later found cancelling => ?_⟩
        · simp [free] at found
        · obtain rfl := Option.some.inj found
          have accepted : job.phase = .accepted := permitted.2.2.2.1
          simp [accepted] at cancelling
      | phase phase job active =>
        -- The job is only ever sent to a phase that it has not passed.
        have ahead : jobPhaseRank job.phase ≤ jobPhaseRank phase ∧ job.phase ≠ .cancelling ∧
            phase ≠ .cancelling := by
          rcases permitted.2 with ⟨rfl, _, _, _, low⟩ | ⟨rfl, _, _, running⟩
          · have low := (low job active).2.resolve_left strict
            refine ⟨low, fun cancelling => ?_, by simp⟩
            rw [cancelling] at low
            exact absurd low (by decide)
          · have live : job.phase ≠ .cancelling :=
              fun cancelling => named job active cancelling (running job active)
            refine ⟨?_, live, by simp⟩
            cases phase : job.phase <;> simp [jobPhaseRank, phase] at live ⊢
        refine ⟨fun before later found found' => ?_, fun later found cancelling => ?_⟩
        · obtain rfl := Option.some.inj (active.symm.trans found)
          obtain rfl := Option.some.inj found'
          exact advances_phase ahead.1 ahead.2.1
        · obtain rfl := Option.some.inj found
          exact absurd cancelling ahead.2.2
    | _ => exact spared rfl

end

/-! ## Whole runs -/

/-- The job is in the journal at every point between two points of a history. -/
def Unbroken (older newer : List Effect) : Prop :=
  ∀ middle state, older <:+ middle → middle <:+ newer → fileAfter middle = some state →
    state.active ≠ none

/-- Between any two points of a history, as long as it stays in the journal, the job advances. -/
def Monotone (trace : List Effect) : Prop :=
  ∀ older newer state next, newer <:+ trace → older <:+ newer → Unbroken older newer →
    fileAfter older = some state → fileAfter newer = some next → Progress state next

/-- Single steps add up while the job stays in the journal.

Proof: by induction on the newer history. An entry without a file adds nothing, and one with a file
is a step behind the history before it. -/
theorem EveryStep.monotone (stepwise : EveryStep Progress trace) : Monotone trace := by
  intro older newer state next suffix inner unbroken file file'
  induction newer generalizing next with
  | nil =>
    rw [List.suffix_nil.1 inner] at file
    simp [fileAfter] at file
  | cons effect past induction =>
    rcases List.suffix_cons_iff.1 inner with rfl | deeper
    · rw [file, Option.some.injEq] at file'
      exact file' ▸ progress_same rfl
    have shorter : Unbroken older past := fun middle state from' to' =>
      unbroken middle state from' (to'.trans (List.suffix_cons effect past))
    have earlier := fun middle => induction middle ((List.suffix_cons effect past).trans suffix)
      deeper shorter
    cases written : effect.file? with
    | none =>
      rw [fileAfter_quiet written] at file'
      exact earlier next file'
    | some last =>
      rw [fileAfter_file written, Option.some.injEq] at file'
      subst file'
      obtain ⟨middle, found⟩ : ∃ middle, fileAfter past = some middle := by
        obtain ⟨notes, rfl⟩ := deeper
        clear earlier shorter suffix unbroken inner induction
        induction notes with
        | nil => exact ⟨state, file⟩
        | cons note notes induction =>
          rw [List.cons_append, fileAfter_cons]
          cases note.file? with
          | none => exact induction
          | some journal => exact ⟨journal, rfl⟩
      obtain ⟨between, active⟩ := Option.ne_none_iff_exists'.1
        (shorter past middle deeper List.suffix_rfl found)
      intro job later active' later'
      exact (earlier middle found job between active' active).trans
        (stepwise effect past middle last suffix found written between later active later')

/-- Every history of licensed moves is monotone. -/
theorem Reach.monotone {initial : JournalState → Bytes → Prop} (strict : ¬ licence.phaseDrop)
    (begins : ∀ journal credential, initial journal credential → journal.Named)
    {core : Core} (reached : Reach env licence initial core) : Monotone core.books.trace := by
  have steps : EveryStep Progress core.books.trace :=
    (reached.every_step Progress (fun _ => progress_same rfl) (fun journal credential begun _ =>
      begins journal credential begun) fun _ _ _ => progress_commit strict).1
  exact steps.monotone

/-- No acceptance is acknowledged while its job is already further than being prepared, unless a
cancellation is recorded. -/
def Timely (world : World) (action : Action) : Prop :=
  ∀ message acknowledgement pending job, action = .deliver message →
    message.payload = some (.eventAcknowledgement acknowledgement) →
    world.client.journal.pendingMessage = some pending →
    acknowledgement.runnerMessageId = pending.messageId → pending.isAcceptance →
    world.client.journal.active = some job → job.cancellationID = [] →
    jobPhaseRank job.phase ≤ 2

/-- Everything is allowed but to lower the phase. -/
def phaseLicence : Licence := { Licence.all with phaseDrop := False }

theorem Timely.disciplined {world : World} {action : Action} (timely : Timely world action) :
    Disciplined env phaseLicence world action where
  delivery message delivered :=
    { answers := fun _ => Or.inl trivial
      acknowledgement := fun acknowledgement carries =>
        { phase := fun pending stands named => Or.inr fun acceptance job active running =>
            timely message acknowledgement pending job delivered carries stands named acceptance
              active running
          finish := fun _ _ _ _ _ => Or.inl trivial }
      rotation := fun _ _ => Or.inl trivial }

/-- In every run without such an acknowledgement the phase, the expiry and the cancellation of a job
advance, for as long as the job is in the journal.

Proof: every commit of a timely run is `Progress`, which composes along the history. -/
theorem phases_monotone (env : Environment) (world : World)
    (reached : Run env (fun journal _ => journal.Named) Timely world) :
    Monotone world.trace ∧
      (world.stage ≠ .ended → fileAfter world.trace = some world.client.journal) := by
  obtain ⟨_, reaches, covered, same⟩ :=
    reached.reach phaseLicence trivial fun _ _ timely => timely.disciplined
  have monotone := reaches.monotone (fun dropped => dropped) fun _ _ begins => begins
  refine ⟨fun older newer state next suffix => monotone older newer state next
    (suffix.trans covered), fun going => ?_⟩
  obtain rfl := same going
  exact reaches.sound.recorded

/-- The phase of the job at a point of a history. -/
def phaseAfter (trace : List Effect) : Option JobPhase :=
  ((fileAfter trace).bind (·.active)).map (·.phase)

/-- A job that is accepted and then prepared. -/
theorem phases_monotone_prepared :
    ∃ world, Run sampleClient (fun journal _ => journal.Named) Timely world ∧
      phaseAfter (world.trace.drop 2) = some .accepted ∧ phaseAfter world.trace = some .preparing ∧
      Monotone world.trace := by
  have begun : Run sampleClient (fun journal _ => journal.Named) Timely
      (sampleBoot emptyJournal) :=
    .start _ _ _ _ (fun job active => by simp [emptyJournal] at active) (empty_valid _)
  have computed : ((performAll sampleClient 1 (acceptedOffer 1000) (sampleBoot emptyJournal)).bind
      fun world => (perform sampleClient 1 (acceptanceApplied 1002 4).1
        (world.before (acceptanceApplied 1002 4).2)).map fun last =>
          (world.client.journal.active.map (·.phase), phaseAfter (last.trace.drop 2),
            phaseAfter last.trace)) =
      some (some .accepted, some .accepted, some .preparing) := by
    decide +kernel
  obtain ⟨offered, performed, answered⟩ := Option.bind_eq_some_iff.1 computed
  obtain ⟨world, acknowledged, facts⟩ := Option.map_eq_some_iff.1 answered
  simp only [Prod.mk.injEq] at facts
  obtain ⟨accepted, before, after⟩ := facts
  -- Neither the opening nor the offer is an acknowledgement.
  have regular : ∀ first ∈ acceptedOffer 1000, ∀ world : World,
      Timely (world.before first.2) first.1 := by
    intro first member world message acknowledgement _ _ delivered carries
    simp only [acceptedOffer, List.mem_cons, List.not_mem_nil, or_false] at member
    rcases member with rfl | rfl
    · simp at delivered
    · cases delivered
      simp [sampleOffer, sampleMessage] at carries
  have timely : Timely (offered.before (acceptanceApplied 1002 4).2)
      (acceptanceApplied 1002 4).1 := by
    intro message acknowledgement pending job _ _ _ _ _ active _
    have phase : some job.phase = some .accepted := (congrArg _ active.symm).trans accepted
    rw [Option.some.inj phase]
    decide
  have reached := (begun.performAll regular performed).act _ world 1 _ _ timely acknowledged
  exact ⟨world, reached, before, after, (phases_monotone sampleClient world reached).1⟩

/-! ## A phase that falls back -/

theorem phaseAfter_eq_some (found : phaseAfter trace = some phase) :
    ∃ state job, fileAfter trace = some state ∧ state.active = some job ∧ job.phase = phase := by
  obtain ⟨job, bound, same⟩ := Option.map_eq_some_iff.1 found
  obtain ⟨state, file, active⟩ := Option.bind_eq_some_iff.1 bound
  exact ⟨state, job, file, active, same⟩

/-- In a monotone history the phase does not fall from one entry to the next. -/
theorem Monotone.adjacent (monotone : Monotone trace) (place : Nat) {later : JobPhase}
    (before : phaseAfter (trace.drop (place + 1)) = some phase)
    (after : phaseAfter (trace.drop place) = some later) :
    jobPhaseRank phase ≤ jobPhaseRank later := by
  obtain ⟨state, job, file, active, rfl⟩ := phaseAfter_eq_some before
  obtain ⟨next, job', file', active', rfl⟩ := phaseAfter_eq_some after
  have inner : trace.drop (place + 1) <:+ trace.drop place := by
    rw [← List.drop_drop]
    exact List.drop_suffix 1 _
  refine (monotone _ _ state next (List.drop_suffix place trace) inner ?_ file file' job job'
    active active').phase
  intro middle between from' to' found
  cases whole : trace.drop place with
  | nil =>
    rw [whole] at file'
    simp [fileAfter] at file'
  | cons effect past =>
    have rest : trace.drop (place + 1) = past := by
      rw [← List.drop_drop, whole]
      rfl
    rw [whole] at to' file'
    rw [rest] at from' file
    rcases List.suffix_cons_iff.1 to' with rfl | deeper
    · rw [found, Option.some.injEq] at file'
      simp [file', active']
    · rw [deeper.eq_of_length_le from'.length_le, file, Option.some.injEq] at found
      simp [← found, active]

/-- An offer is accepted. A stale acknowledgement of the acceptance brings the phase to running and
has the acceptance sent again; then this one is acknowledged as applied. -/
def fallingBack : List (Action × (Nat → Response)) :=
  acceptedOffer 1000 ++ [sampleDelivery 1002 (sampleAcknowledgement "stale" 1002 4
      (sampleReconciliation 2000 .stale .active .running)),
    sampleDelivery 1003 (sampleAcknowledgement "applied" 1003 5
      (sampleReconciliation 2000 .applied .accepted .accepted))]

/-- The phase of the job falls from running to preparing. -/
theorem phase_falls_back :
    ∃ world, Run sampleClient (fun journal _ => journal.Named) (fun _ _ => True) world ∧
      ¬ Monotone world.trace := by
  have begun : Run sampleClient (fun journal _ => journal.Named) (fun _ _ => True)
      (sampleBoot emptyJournal) :=
    .start _ _ _ _ (fun job active => by simp [emptyJournal] at active) (empty_valid _)
  have computed : (performAll sampleClient 1 fallingBack (sampleBoot emptyJournal)).map
      (fun world => (phaseAfter (world.trace.drop 2), phaseAfter (world.trace.drop 1))) =
        some (some .running, some .preparing) := by
    decide +kernel
  obtain ⟨world, performed, phases⟩ := Option.map_eq_some_iff.1 computed
  rw [Prod.mk.injEq] at phases
  refine ⟨world, begun.performAll (fun _ _ _ => trivial) performed, fun monotone => ?_⟩
  exact absurd (monotone.adjacent 1 phases.1 phases.2) (by decide)

end ProvenanceRunner.Gateway
