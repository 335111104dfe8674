import ProvenanceRunner.Gateway.WorkerMoves

/-! # Sound books

The two copies of the journal agree, they are valid, and they are what the history leaves behind;
the same holds of the credential. Every move keeps this. It is what the handlers rely on when they
take it for granted that an event belongs to the active job. -/

namespace ProvenanceRunner.Gateway

open Utf8

variable (env : Environment) {licence : Licence}

structure Books.Sound (books : Books) : Prop where
  same : books.file = books.journal
  valid : books.journal.Valid env.toJournalEnvironment
  recorded : fileAfter books.trace = some books.journal
  stored : credentialAfter books.trace = some books.credential

/-! ## What the history leaves behind -/

/-- An entry that says nothing about the files. -/
def Effect.idle : Effect → Bool
  | .booted _ _ | .committed _ _ | .replaced _ => false
  | _ => true

theorem fileAfter_idle (effect : Effect) (past : List Effect) (idle : effect.idle = true) :
    fileAfter (effect :: past) = fileAfter past := by
  cases effect <;> simp [fileAfter, Effect.idle] at idle ⊢

theorem credentialAfter_idle (effect : Effect) (past : List Effect) (idle : effect.idle = true) :
    credentialAfter (effect :: past) = credentialAfter past := by
  cases effect <;> simp [credentialAfter, Effect.idle] at idle ⊢

variable {books : Books} {state : JournalState}

theorem Quiet.idle {effect : Effect} (quiet : Quiet env books effect) :
    effect.idle = true := by
  cases effect <;> first | rfl | exact absurd quiet id

variable {env}

theorem Books.Sound.log (sound : books.Sound env) (effect : Effect) (idle : effect.idle = true) :
    (books.log effect).Sound env where
  same := sound.same
  valid := sound.valid
  recorded := (fileAfter_idle effect books.trace idle).trans sound.recorded
  stored := (credentialAfter_idle effect books.trace idle).trans sound.stored

theorem Books.Sound.commit (sound : books.Sound env) {change : JournalChange}
    (commits : Commits env books change state) :
    (books.commit change state).Sound env where
  same := rfl
  valid := commits.2
  recorded := rfl
  stored := sound.stored

theorem Books.Sound.failStart (sound : books.Sound env) :
    books.failStart.Sound env := by
  unfold Books.failStart
  split
  · exact sound
  · exact ⟨sound.same, sound.valid, sound.recorded, sound.stored⟩

/-- Every move keeps the books sound. -/
theorem Move.sound {core next : Core} (moves : Move env licence core next)
    (sound : core.books.Sound env) : next.books.Sound env := by
  cases moves with
  | note books hands effect quiet => exact sound.log effect quiet.idle
  | commit books hands change state commits => exact sound.commit commits
  | cancel books hands change state commits => exact (sound.commit commits).failStart
  | cancelLate books hands change state commits => exact sound.commit commits
  | reissue books hands older newer cleared numbered queued pending ends clears numbers queues =>
    exact (((sound.commit clears).log (.settled older) rfl).commit numbers).commit queues
  | await =>
    exact ⟨sound.same, sound.valid, sound.recorded, sound.stored⟩
  | fail => exact sound.failStart
  | grant =>
    exact ⟨sound.same, sound.valid, sound.recorded, sound.stored⟩
  | launch =>
    exact sound.log _ rfl
  | dismiss | postpone => exact sound
  | report books before after result evidence usage message state consumes commits =>
    exact sound.commit commits
  | discard => exact sound
  | recover => exact ⟨sound.same, sound.valid, sound.recorded, sound.stored⟩
  | heartbeat =>
    exact ⟨sound.same, sound.valid, sound.recorded, sound.stored⟩
  | replace =>
    exact ⟨sound.same, sound.valid, sound.recorded, rfl⟩
  | emit => exact sound
  | finish => exact sound.log _ rfl

theorem Moves.sound {core next : Core} (moves : Moves env licence core next)
    (sound : core.books.Sound env) : next.books.Sound env := by
  induction moves with
  | refl => exact sound
  | tail _ last induction => exact last.sound induction

theorem bootedCore_sound (journal : JournalState) (credential : Bytes) (outside : Nat → Response)
    (past : List Effect) (valid : journal.Valid env.toJournalEnvironment) :
    (bootedCore journal credential outside past).books.Sound env :=
  ⟨rfl, valid, rfl, rfl⟩

/-- Reached books are sound, whatever the journal the first process started with. -/
theorem Reach.sound {initial : JournalState → Bytes → Prop} {core : Core}
    (reached : Reach env licence initial core) : core.books.Sound env := by
  induction reached with
  | boot journal credential outside begins valid =>
    exact bootedCore_sound journal credential outside [] valid
  | move core next reached moves induction => exact moves.sound induction
  | answers books hands outside reached induction => exact induction
  | reboot core past journal credential outside reached crashed file stored valid =>
    exact bootedCore_sound journal credential outside past valid

/-! ## What validity says about the pending event -/

/-- The last two checks of a valid journal. -/
theorem valid_parts (valid : state.Valid env.toJournalEnvironment) :
    credentialsError state = none ∧
      state.active.bind (jobError env.toJournalEnvironment) = none ∧
      state.pendingMessage.bind (pendingError env.toJournalEnvironment state) = none := by
  unfold JournalState.Valid validateJournalState at valid
  simp only [orElse_eq_none] at valid
  exact ⟨valid.2.1, valid.2.2.2.1, valid.2.2.2.2⟩

section

variable (valid : state.Valid env.toJournalEnvironment) {message : RunnerMessage}
  (pending : state.pendingMessage = some message)
include valid pending

/-- A pending event that is not a rejection belongs to the active job. -/
theorem pending_belongs (kept : message.isRejection = false) :
    activeMatchesIdentity state.active (runnerMessageIdentity message).1
      (runnerMessageIdentity message).2 = true := by
  have checked := (valid_parts valid).2.2
  rw [pending, Option.bind_some] at checked
  unfold pendingError at checked
  split at checked
  · simp [kept] at checked
  · simp only [orElse_eq_none, refuse_eq_none, kept, Bool.not_false, Bool.true_and] at checked
    simpa using checked.2.2

/-- A pending event is one of the eight durable ones. -/
theorem pending_durable : durableRunnerMessage message = true := by
  have checked := (valid_parts valid).2.2
  rw [pending, Option.bind_some] at checked
  unfold pendingError at checked
  split at checked
  · simp only [refuse_eq_none, Bool.or_eq_false_iff, Bool.not_eq_false'] at checked
    have rejection := checked.2
    unfold RunnerMessage.isRejection at rejection
    split at rejection
    · rename_i carries
      simp [durableRunnerMessage, carries]
    · simp at rejection
  · simp only [orElse_eq_none, refuse_eq_none, Bool.or_eq_false_iff, Bool.not_eq_false'] at checked
    exact checked.1.2

end

theorem matches_active {active : Option JournalJob} {lease : Option LeaseIdentity}
    {attempt : Option AttemptIdentity}
    (matching : activeMatchesIdentity active lease attempt = true) :
    ∃ job, active = some job ∧ sameLeaseAttempt job.specification.lease job.specification.attempt
      lease attempt = true := by
  cases active with
  | none => simp [activeMatchesIdentity] at matching
  | some job => exact ⟨job, rfl, matching⟩

end ProvenanceRunner.Gateway
