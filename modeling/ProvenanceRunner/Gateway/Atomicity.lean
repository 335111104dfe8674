import ProvenanceRunner.Gateway.Journal

/-! # When an update is atomic

`update` keeps a copy of the state and puts it back when the new state is invalid or cannot be
written. It does not put it back when the change itself fails. Of all changes only a reconciliation
fails after it has begun to write: it replaces lease, expiry and phase and then finds that the
gateway names another cancellation than the recorded one. -/

namespace ProvenanceRunner.Gateway

open Utf8

variable (env : JournalEnvironment)

/-- The error leaves the memory as it was, and the two copies agree if they agreed before. -/
def Journal.Atomic (journal : Journal) (change : JournalChange) (persisted : Persisted) : Prop :=
  let updated := journal.update env change persisted
  (updated.failure ≠ none → updated.committed = false →
    updated.journal.memory = journal.memory) ∧
  (journal.memory = journal.file → updated.journal.memory = updated.journal.file)

/-- A reconciliation of this job that names another cancellation than the recorded one. -/
def Contradicts (reconciliation : LeaseReconciliation) (job : JournalJob) : Prop :=
  activeMatchesIdentity (some job) reconciliation.lease reconciliation.attempt = true ∧
    reconciliation.cancellationId ≠ [] ∧ job.cancellationID ≠ [] ∧
    job.cancellationID ≠ reconciliation.cancellationId

/-- The reconciliation brings another lease, a later expiry or another phase that is not behind. -/
def Replaces (reconciliation : LeaseReconciliation) (job : JournalJob) : Prop :=
  ∃ lease, reconciliation.lease = some lease ∧
    (job.specification.lease ≠ some (authoritativeLease lease job.expiresAt) ∨
      job.expiresAt < asTime lease.expiresAt ∨
      (reconciliation.phase ≠ .unspecified ∧ reconciliation.phase ≠ job.phase ∧
        jobPhaseRank job.phase ≤ jobPhaseRank reconciliation.phase))

theorem reconciledJob_eq_self_iff (job : JournalJob) (lease : LeaseIdentity) (phase : JobPhase) :
    reconciledJob job lease phase = job ↔
      job.specification.lease = some (authoritativeLease lease job.expiresAt) ∧
        asTime lease.expiresAt ≤ job.expiresAt ∧
        (phase ≠ .unspecified → jobPhaseRank job.phase ≤ jobPhaseRank phase →
          phase = job.phase) := by
  obtain ⟨specification, offer, digest, correlation, evidence, recorded, expiry, id, deadline,
    command⟩ := job
  obtain ⟨jobLease, attempt, name, dependencies, jobCorrelation, secrets, policy, upload,
    payload⟩ := specification
  simp only [reconciledJob, JournalJob.mk.injEq, JobSpecification.mk.injEq, and_true, true_and]
  constructor
  · rintro ⟨sameLease, samePhase, sameExpiry⟩
    refine ⟨sameLease.symm, by omega, fun named ahead => ?_⟩
    simpa only [named, ahead, ne_eq, not_false_eq_true, and_self, if_true] using samePhase
  · rintro ⟨sameLease, early, samePhase⟩
    refine ⟨sameLease.symm, ?_, by omega⟩
    split
    case isTrue ahead => exact samePhase ahead.1 ahead.2
    case isFalse => rfl

theorem not_replaces_iff (reconciliation : LeaseReconciliation) (job : JournalJob)
    (lease : LeaseIdentity) (given : reconciliation.lease = some lease) :
    ¬ Replaces reconciliation job ↔ reconciledJob job lease reconciliation.phase = job := by
  rw [reconciledJob_eq_self_iff]
  simp only [Replaces, given, Option.some.injEq, exists_eq_left', not_or, not_not, Int.not_lt,
    not_and]
  refine and_congr_right fun _ => and_congr_right fun _ => ⟨fun behind named ahead => ?_,
    fun same named differs ahead => differs (same named ahead)⟩
  by_contra differs
  exact behind named differs ahead

/-- A change that fails has left the state alone, unless it is a contradicting reconciliation. -/
theorem apply_failed_cases (change : JournalChange) (state result : JournalState)
    (failure : Failure) (applied : change.apply env state = (result, some failure)) :
    result = state ∨ ∃ reconciliation job lease, change = .reconcile reconciliation ∧
      state.active = some job ∧ reconciliation.lease = some lease ∧
      Contradicts reconciliation job ∧
      result = { state with active := some (reconciledJob job lease reconciliation.phase) } := by
  cases change with
  | reconcile reconciliation =>
    cases active : state.active with
    | none =>
      simp only [JournalChange.apply, active] at applied
      exact Or.inl (Prod.mk.inj applied).1.symm
    | some job =>
      cases given : reconciliation.lease with
      | none =>
        simp only [JournalChange.apply, active, given] at applied
        exact Or.inl (Prod.mk.inj applied).1.symm
      | some lease =>
        simp only [JournalChange.apply, active, given] at applied
        split at applied
        case isTrue => exact Or.inl (Prod.mk.inj applied).1.symm
        case isFalse matching =>
          split at applied
          case isTrue => simp at applied
          case isFalse named =>
            split at applied
            case isTrue conflict =>
              refine Or.inr ⟨reconciliation, job, lease, rfl, rfl, given, ⟨?_, ?_, ?_, ?_⟩,
                (Prod.mk.inj applied).1.symm⟩
              · simpa [given] using matching
              · simpa using named
              · simpa [reconciledJob] using (Bool.and_eq_true_iff.1 conflict).1
              · simpa [reconciledJob] using (Bool.and_eq_true_iff.1 conflict).2
            case isFalse => simp at applied
  | _ =>
    left
    simp only [JournalChange.apply] at applied
    repeat' split at applied
    all_goals first
      | exact (Prod.mk.inj applied).1.symm
      | simp at applied

theorem apply_contradiction (state : JournalState) (reconciliation : LeaseReconciliation)
    (job : JournalJob) (lease : LeaseIdentity) (active : state.active = some job)
    (given : reconciliation.lease = some lease) (conflict : Contradicts reconciliation job) :
    (JournalChange.reconcile reconciliation).apply env state =
      ({ state with active := some (reconciledJob job lease reconciliation.phase) },
        some (.plain "authoritative reconciliation changed the cancellation ID")) := by
  obtain ⟨matching, named, recorded, differs⟩ := conflict
  have named' : reconciliation.cancellationId.isEmpty = false := by simpa using named
  have recorded' :
      (reconciledJob job lease reconciliation.phase).cancellationID.isEmpty = false := by
    simpa [reconciledJob] using recorded
  have differs' : ((reconciledJob job lease reconciliation.phase).cancellationID !=
      reconciliation.cancellationId) = true := by
    simpa [reconciledJob] using differs
  rw [given] at matching
  simp [JournalChange.apply, active, given, matching, named', recorded', differs']

/-- An update is atomic exactly when it is not a reconciliation that contradicts the recorded
cancellation and brings something new besides.

Proof: by `apply_failed_cases` only a contradiction fails after it has changed something. -/
theorem update_atomic_iff (journal : Journal) (change : JournalChange) (persisted : Persisted) :
    journal.Atomic env change persisted ↔
      ∀ reconciliation job, change = .reconcile reconciliation → journal.memory.active = some job →
        Contradicts reconciliation job → ¬ Replaces reconciliation job := by
  constructor
  · rintro ⟨restored, _⟩ reconciliation job rfl active conflict replaces
    obtain ⟨lease, given, _⟩ := id replaces
    have applied := apply_contradiction env journal.memory reconciliation job lease active given
      conflict
    have kept := restored (by simp [Journal.update, applied]) (by simp [Journal.update, applied])
    simp only [Journal.update, applied] at kept
    have same : some (reconciledJob job lease reconciliation.phase) = journal.memory.active :=
      congrArg JournalState.active kept
    rw [active, Option.some.injEq] at same
    exact (not_replaces_iff reconciliation job lease given).2 same replaces
  · intro quiet
    rcases journal.update_cases env change persisted with
      ⟨state, failure, applied, ended⟩ | ⟨failure, _, _, _, ended⟩ | ⟨state, _, _, _, ended⟩
    · have kept : state = journal.memory := by
        rcases apply_failed_cases env change journal.memory state failure applied with
          same | ⟨reconciliation, job, lease, chosen, active, given, conflict, result⟩
        · exact same
        · have unchanged := (not_replaces_iff reconciliation job lease given).1
            (quiet reconciliation job chosen active conflict)
          rw [result, unchanged, ← active]
      simp only [Journal.Atomic, ended]
      exact ⟨fun _ _ => kept, fun same => kept.trans same⟩
    · simp [Journal.Atomic, ended]
    · simp [Journal.Atomic, ended]

/-- The cancellation of the sample reconciliations. -/
def sampleCancelling (seconds : Int) (cancellationId : Bytes) : LeaseReconciliation where
  disposition := .applied
  status := .active
  phase := .cancelling
  lease := some (sampleLease seconds)
  attempt := some sampleAttempt
  terminalMessageId := []
  cancellationId := cancellationId
  completeLogUpload := none
  networkAuthorityV2 := none

/-- A well-formed reconciliation that names a second cancellation and a later expiry is refused,
yet the later expiry stays in memory while the file keeps the earlier one. -/
theorem update_keeps_refused_expiry :
    let journal : Journal := ⟨sampleJournal (sampleJob 100 .cancelling [0x63]),
      sampleJournal (sampleJob 100 .cancelling [0x63])⟩
    let change := JournalChange.reconcile (sampleCancelling 200 [0x64])
    journal.memory.Valid sampleEnvironment ∧
      validateReconciliation (some (sampleCancelling 200 [0x64])) = none ∧
      ¬ journal.Atomic sampleEnvironment change .done := by
  refine ⟨by decide +kernel, by decide +kernel, fun atomic => ?_⟩
  have same := atomic.2 rfl
  revert same
  decide +kernel

end ProvenanceRunner.Gateway
