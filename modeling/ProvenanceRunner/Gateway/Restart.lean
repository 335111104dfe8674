import ProvenanceRunner.Gateway.StartGate

/-! # Restarts with an active job

A process that finds an active job in its journal does not run it again. Until the job is cleared no
worker is started, and what the process reports is limited to what the journal retains, renewals,
the end of the job and rejections of further offers. -/

namespace ProvenanceRunner.Gateway

open Utf8

variable {past : List Effect} {state : JournalState} {older newer : RunnerMessage}
  {change : JournalChange} {after : Hands}

variable {env : Environment} {licence : Licence}

/-! ## The history of one process -/

/-- The entries since the process started. -/
def recentOf : List Effect → List Effect
  | [] => []
  | .booted _ _ :: _ => []
  | effect :: past => effect :: recentOf past

/-- The journal that the process started with. -/
def bootOf : List Effect → Option JournalState
  | [] => none
  | .booted journal _ :: _ => some journal
  | _ :: past => bootOf past

/-- The process started with an active job, and the journal has had one ever since. -/
structure Resuming (trace : List Effect) (journal : JournalState) : Prop where
  boot : bootOf trace = some journal
  active : journal.active ≠ none
  since : ∀ change state, .committed change state ∈ recentOf trace → state.active ≠ none

/-- Whether an entry starts a process. -/
def Effect.boots : Effect → Bool
  | .booted _ _ => true
  | _ => false

variable {books : Books} {journal : JournalState} {trace : List Effect} {hands : Hands}
  {message : RunnerMessage} {effect : Effect}

theorem recentOf_cons (trace : List Effect) (going : effect.boots = false) :
    recentOf (effect :: trace) = effect :: recentOf trace := by
  cases effect <;> first | rfl | simp [Effect.boots] at going

theorem bootOf_cons (trace : List Effect) (going : effect.boots = false) :
    bootOf (effect :: trace) = bootOf trace := by
  cases effect <;> first | rfl | simp [Effect.boots] at going

theorem Resuming.tail
    (resuming : Resuming (effect :: trace) journal) (going : effect.boots = false) :
    Resuming trace journal where
  boot := (bootOf_cons trace going).symm.trans resuming.boot
  active := resuming.active
  since change state member := resuming.since change state (by
    rw [recentOf_cons trace going]
    exact List.mem_cons_of_mem effect member)

/-! ## What may be reported -/

/-- The pending event of the first journal, or an event put in its place. -/
inductive Retained (journal : JournalState) (trace : List Effect) : RunnerMessage → Prop where
  | first (message : RunnerMessage) (pending : journal.pendingMessage = some message) :
    Retained journal trace message
  | again (older newer : RunnerMessage) (queued numbered : JournalState) (past : List Effect)
    (earlier : Retained journal trace older) (reissues : Reissues older newer)
    (found : .committed (.queueDurable newer .keep) queued ::
      .committed .nextMessageSequence numbered :: .settled older :: past <:+ trace) :
    Retained journal trace newer

/-- Rejections, renewals, failures and cancellations. -/
def RunnerMessage.afterRestart (message : RunnerMessage) : Bool :=
  match message.payload with
  | some (.leaseRejected _) | some (.leaseRenewal _) | some (.failed _) | some (.cancelled _) =>
    true
  | _ => false

/-- What a process may report about a job that it found in its journal. -/
def Rightful (journal : JournalState) (trace : List Effect) (message : RunnerMessage) : Prop :=
  message.afterRestart = true ∨ Retained journal trace message

theorem Retained.mono {longer : List Effect}
    (retained : Retained journal trace message) (suffix : trace <:+ longer) :
    Retained journal longer message := by
  induction retained with
  | first message pending => exact .first message pending
  | again older newer queued numbered past earlier reissues found induction =>
    exact .again older newer queued numbered past induction reissues (found.trans suffix)

theorem Rightful.mono {longer : List Effect}
    (rightful : Rightful journal trace message) (suffix : trace <:+ longer) :
    Rightful journal longer message :=
  rightful.imp_right fun retained => retained.mono suffix

theorem Reissues.afterRestart (reissues : Reissues older newer)
    (tame : older.afterRestart = true) : newer.afterRestart = true := by
  obtain ⟨payload, _, _, _, carries, newer', _, _⟩ := reissues
  unfold RunnerMessage.afterRestart at tame ⊢
  rw [carries] at tame
  rw [newer']
  cases payload <;> simp [reissued] at tame ⊢

/-- At every point of the history: while the process has the job it started with, no worker has been
started and every event that was queued is rightful. -/
def RestartSafe (trace : List Effect) : Prop :=
  ∀ past journal, past <:+ trace → Resuming past journal →
    (∀ job, .launched job ∉ recentOf past) ∧
      ∀ message mutation state, .committed (.queueDurable message mutation) state ∈ recentOf past →
        Rightful journal past message

theorem RestartSafe.suffix (safe : RestartSafe trace)
    (suffix : past <:+ trace) : RestartSafe past :=
  fun older journal inner => safe older journal (inner.trans suffix)

theorem restartSafe_booted (safe : RestartSafe trace) (journal : JournalState)
    (credential : Bytes) :
    RestartSafe (.booted journal credential :: trace) := by
  intro past state suffix resuming
  rcases List.suffix_cons_iff.1 suffix with rfl | inner
  · simp [recentOf]
  · exact safe past state inner resuming

theorem RestartSafe.cons (safe : RestartSafe trace) (going : effect.boots = false)
    (idle : ∀ journal, Resuming (effect :: trace) journal → ∀ job, effect ≠ .launched job)
    (queues : ∀ journal, Resuming (effect :: trace) journal →
      ∀ message mutation state, effect = .committed (.queueDurable message mutation) state →
      Rightful journal (effect :: trace) message) : RestartSafe (effect :: trace) := by
  intro past journal suffix resuming
  rcases List.suffix_cons_iff.1 suffix with rfl | inner
  · obtain ⟨idle', queues'⟩ := safe trace journal List.suffix_rfl (resuming.tail going)
    rw [recentOf_cons trace going]
    refine ⟨fun job member => ?_, fun message mutation state member => ?_⟩
    · rcases List.mem_cons.1 member with same | older
      · exact idle journal resuming job same.symm
      · exact idle' job older
    · rcases List.mem_cons.1 member with same | older
      · exact queues journal resuming message mutation state same.symm
      · exact (queues' message mutation state older).mono (List.suffix_cons effect trace)
  · exact safe past journal inner resuming

/-! ## The invariant -/

/-- The event has just been cleared, settled, or followed by the next number. -/
def Released (books : Books) (message : RunnerMessage) : Prop :=
  JustCleared books message ∨ (∃ past, books.trace = .settled message :: past) ∨
    ∃ state past, books.trace = .committed .nextMessageSequence state :: .settled message :: past

theorem inHand_iff (books : Books) (message : RunnerMessage) :
    InHand books message ↔
      books.journal.pendingMessage = some message ∨ Released books message := Iff.rfl

/-- What is true of a process that still has the job it started with. -/
structure Held (core : Core) (journal : JournalState) : Prop where
  active : core.books.journal.active ≠ none
  worker : core.hands.worker = none
  events : core.hands.workerEvents = [] ∧ core.hands.deferred = []
  unasked : ∀ channel, .awaited channel ∉ recentOf core.books.trace
  rightful : ∀ message, InHand core.books message →
    Rightful journal core.books.trace message
  recovering : ∀ message : RunnerMessage, InHand core.books message →
    message.isAcceptance ∨ message.isPreparing → core.books.recovering = true

structure Resumed (core : Core) : Prop where
  safe : RestartSafe core.books.trace
  released : ∀ message, Released core.books message → core.books.journal.pendingMessage = none
  held : ∀ journal, Resuming core.books.trace journal → Held core journal

theorem not_released
    (begins : books.trace = effect :: past) (quiet : effect.file? = none)
    (unsettled : effect ≠ .settled message) :
    ¬ Released books message := by
  rintro (⟨_, _, begins', _⟩ | ⟨_, begins'⟩ | ⟨_, _, begins'⟩)
  · rw [begins] at begins'
    rw [(List.cons.inj begins').1] at quiet
    simp [Effect.file?] at quiet
  · rw [begins] at begins'
    exact unsettled (List.cons.inj begins').1
  · rw [begins] at begins'
    rw [(List.cons.inj begins').1] at quiet
    simp [Effect.file?] at quiet

/-- An event that has just been cleared is no longer pending. -/
theorem Released.of_commit
    (commits : Commits env books change state)
    (before : ∀ message, Released books message → books.journal.pendingMessage = none)
    (released : Released (books.commit change state) message) :
    state.pendingMessage = none := by
  rcases released with ⟨_, _, begins, _⟩ | ⟨_, begins⟩ | ⟨_, past, begins⟩
  · obtain ⟨rfl, _⟩ := Effect.committed.inj (List.cons.inj begins).1
    rw [commits_clear commits]
  · simp [Books.commit] at begins
  · obtain ⟨rfl, _⟩ := Effect.committed.inj (List.cons.inj begins).1
    rw [(commits_next env commits).2]
    exact before message (Or.inr (Or.inl ⟨past, (List.cons.inj begins).2⟩))

theorem quiet_goes (quiet : effect.file? = none) : effect.boots = false := by
  cases effect <;> simp [Effect.file?, Effect.boots] at quiet ⊢

theorem Resumed.log (resumed : Resumed ⟨books, hands⟩)
    (quiet : effect.file? = none) (idle : ∀ job, effect ≠ .launched job)
    (other : ∀ channel, effect ≠ .awaited channel)
    (settles : ∀ message, effect = .settled message → JustCleared books message) :
    Resumed ⟨books.log effect, hands⟩ where
  safe := resumed.safe.cons (quiet_goes quiet) (fun _ _ => idle) (by
    rintro journal resuming message mutation state rfl
    simp [Effect.file?] at quiet)
  released message released := by
    by_cases same : effect = .settled message
    · exact resumed.released message (Or.inl (settles message same))
    · exact absurd released (not_released rfl quiet same)
  held journal resuming := by
    have held := resumed.held journal (resuming.tail (quiet_goes quiet))
    have before {message : RunnerMessage} (inHand : InHand (books.log effect) message) :
        InHand books message := by
      rcases inHand.of_log quiet with pending | settled
      · exact Or.inl pending
      · exact Or.inr (Or.inl (settles message settled))
    refine ⟨held.active, held.worker, held.events, fun channel member => ?_,
      fun message inHand => ?_, fun message inHand => held.recovering message (before inHand)⟩
    · rw [show (books.log effect).trace = effect :: books.trace from rfl,
        recentOf_cons _ (quiet_goes quiet)] at member
      rcases List.mem_cons.1 member with same | older
      · exact other channel same.symm
      · exact held.unasked channel older
    · exact (held.rightful message (before inHand)).mono (List.suffix_cons effect books.trace)

theorem Resumed.of_same {next : Books}
    (resumed : Resumed ⟨books, hands⟩) (journal : next.journal = books.journal)
    (recovering : next.recovering = books.recovering) (trace : next.trace = books.trace)
    (worker : after.worker = hands.worker) (events : after.workerEvents = hands.workerEvents)
    (deferred : after.deferred = hands.deferred) : Resumed ⟨next, after⟩ := by
  have released (message : RunnerMessage) : Released next message ↔ Released books message := by
    unfold Released JustCleared
    rw [journal, trace]
  have inHand (message : RunnerMessage) : InHand next message ↔ InHand books message := by
    rw [inHand_iff, inHand_iff, released, journal]
  refine ⟨?_, fun message found => ?_, fun state resuming => ?_⟩
  · rw [trace]
    exact resumed.safe
  · rw [journal]
    exact resumed.released message ((released message).1 found)
  rw [show (Core.mk next after).books.trace = books.trace from trace] at resuming
  have held := resumed.held state resuming
  refine ⟨?_, worker.trans held.worker, ⟨events.trans held.events.1, deferred.trans
    held.events.2⟩, ?_, fun message found => ?_, fun message found => ?_⟩
  · rw [journal]
    exact held.active
  · rw [trace]
    exact held.unasked
  · rw [trace]
    exact held.rightful message ((inHand message).1 found)
  · rw [recovering]
    exact held.recovering message ((inHand message).1 found)

theorem Resumed.failStart (resumed : Resumed ⟨books, hands⟩) :
    Resumed ⟨books.failStart, hands⟩ := by
  unfold Books.failStart
  split
  · exact resumed
  case h_2 channel _ =>
    have logged : Resumed ⟨books.log (.answered channel false books.journal books.recovering),
        hands⟩ := resumed.log rfl (by simp) (by simp) (by simp)
    exact logged.of_same rfl rfl rfl rfl rfl rfl

/-- What an event must be that is queued while the process still has its first job. -/
def Queueable (books : Books) (journal : JournalState) (trace : List Effect)
    (message : RunnerMessage) : Prop :=
  Rightful journal trace message ∧
    (message.isAcceptance ∨ message.isPreparing → books.recovering = true)

theorem Resumed.commit (resumed : Resumed ⟨books, hands⟩) (sound : books.Sound env)
    (commits : Commits env books change state)
    (queues : ∀ journal, Held ⟨books, hands⟩ journal →
      ∀ message mutation, change = .queueDurable message mutation →
      Queueable books journal (books.commit change state).trace message) :
    Resumed ⟨books.commit change state, hands⟩ where
  safe := by
    refine resumed.safe.cons rfl (by simp) ?_
    rintro journal resuming message mutation after same
    obtain ⟨rfl, rfl⟩ := Effect.committed.inj same
    exact (queues journal (resumed.held journal (resuming.tail rfl)) message mutation rfl).1
  released message released := released.of_commit commits resumed.released
  held journal resuming := by
    have held := resumed.held journal (resuming.tail rfl)
    have active : state.active ≠ none :=
      resuming.since change state (by simp [Books.commit, recentOf])
    refine ⟨active, held.worker, held.events, fun channel member => ?_, fun message inHand => ?_,
      fun message inHand kind => ?_⟩
    · rcases List.mem_cons.1 member with same | older
      · simp at same
      · exact held.unasked channel older
    · rcases inHand.of_commit sound commits with older | ⟨mutation, same⟩
      · exact (held.rightful message older).mono (List.suffix_cons _ _)
      · exact (queues journal held message mutation same).1
    · rcases inHand.of_commit sound commits with older | ⟨mutation, same⟩
      · exact held.recovering message older kind
      · exact (queues journal held message mutation same).2 kind

theorem afterRestart_kind (tame : message.afterRestart = true) :
    ¬ (message.isAcceptance ∨ message.isPreparing) := by
  rintro (⟨_, carries⟩ | ⟨_, carries⟩) <;>
    simp [RunnerMessage.afterRestart, carries] at tame

theorem queueable_tame (tame : message.afterRestart = true) :
    Queueable books journal trace message :=
  ⟨Or.inl tame, fun kind => absurd kind (afterRestart_kind tame)⟩

theorem Reissues.kind (reissues : Reissues older newer)
    (kind : newer.isAcceptance ∨ newer.isPreparing) : older.isAcceptance ∨ older.isPreparing := by
  obtain ⟨payload, _, _, _, carries, newer', _, _⟩ := reissues
  rcases kind with ⟨_, carries'⟩ | ⟨_, carries'⟩
  · rw [carries'] at newer'
    cases payload <;> simp [reissued] at newer'
    exact Or.inl ⟨_, carries⟩
  · rw [carries'] at newer'
    cases payload <;> simp [reissued] at newer'
    exact Or.inr ⟨_, carries⟩

/-- An event that is put in place of one in hand. -/
theorem queueable_again (held : Held ⟨books, hands⟩ journal) (reissues : Reissues older newer)
    (numbered : JustNumbered books (.settled older :: past)) (state : JournalState) :
    Queueable books journal (books.commit (.queueDurable newer .keep) state).trace newer := by
  have inHand : InHand books older := Or.inr (Or.inr (Or.inr ⟨_, past, numbered⟩))
  refine ⟨?_, fun kind => held.recovering older inHand (reissues.kind kind)⟩
  rcases held.rightful older inHand with tame | retained
  · exact Or.inl (reissues.afterRestart tame)
  refine Or.inr (.again older newer state books.journal past (retained.mono (List.suffix_cons _ _))
    reissues ?_)
  rw [← numbered]
  exact List.suffix_rfl

/-- Everything that may be queued is what a restarted process may report. -/
theorem queueable_origin (held : Held ⟨books, hands⟩ journal) {mutation : Mutation}
    (commits : Commits env books (.queueDurable message mutation) state)
    (origin : Origin licence ⟨books, hands⟩ message mutation) :
    Queueable books journal (books.commit (.queueDurable message mutation) state).trace
      message := by
  cases mutation with
  | accept =>
    cases (commits_queueDurable commits).2 with
    | accept _ idle => exact absurd idle held.active
  | phase =>
    rcases origin with ⟨_, _, fresh, ⟨settled, past, accepted, numbered⟩, _⟩ |
      ⟨_, _, ⟨channel, past, numbered⟩, _⟩
    · have recovering := held.recovering settled (Or.inr (Or.inr (Or.inr ⟨_, past, numbered⟩)))
        (Or.inl accepted)
      exact absurd (fresh.symm.trans recovering) (by simp)
    · refine absurd ?_ (held.unasked channel)
      rw [show books.trace = _ from numbered]
      simp [recentOf]
  | keep =>
    rcases origin with ⟨event, carries⟩ | ⟨event, carries⟩ | ⟨event, carries⟩ |
      ⟨event, carries, _⟩ | ⟨settled, past, _, reissues, numbered⟩
    · exact queueable_tame (by simp [RunnerMessage.afterRestart, carries])
    · exact queueable_tame (by simp [RunnerMessage.afterRestart, carries])
    · exact queueable_tame (by simp [RunnerMessage.afterRestart, carries])
    · exact queueable_tame (by simp [RunnerMessage.afterRestart, carries])
    · exact queueable_again held reissues numbered state

/-! ## Moves -/

/-- A step that a process with its first job cannot make. -/
theorem Resumed.impossible {next : Books}
    (resumed : Resumed ⟨books, hands⟩) (never : ∀ journal, ¬ Held ⟨books, hands⟩ journal)
    (entries : next.trace = books.trace ∨
      ∃ effect, effect.boots = false ∧ next.trace = effect :: books.trace)
    (released : ∀ message, Released next message → next.journal.pendingMessage = none) :
    Resumed ⟨next, after⟩ := by
  have gone (journal : JournalState) : ¬ Resuming next.trace journal := by
    intro resuming
    rcases entries with same | ⟨_, going, longer⟩
    · exact never journal (resumed.held journal (same ▸ resuming))
    · rw [longer] at resuming
      exact never journal (resumed.held journal (resuming.tail going))
  refine ⟨?_, released, fun journal resuming => absurd resuming (gone journal)⟩
  rcases entries with same | ⟨_, going, longer⟩
  · exact show RestartSafe next.trace from same ▸ resumed.safe
  show RestartSafe next.trace
  rw [longer] at gone ⊢
  exact resumed.safe.cons going (fun journal resuming => absurd resuming (gone journal))
    fun journal resuming => absurd resuming (gone journal)

theorem Held.not_consumes {event : WorkerEvent}
    (consumes : Consumes event hands after) :
    ¬ Held ⟨books, hands⟩ journal := by
  intro held
  cases consumes with
  | channel rest next => simp [show hands.workerEvents = [] from held.events.1] at next
  | deferred rest next => simp [show hands.deferred = [] from held.events.2] at next

theorem Held.not_alive {job : JobSpecification}
    (alive : hands.worker = some job) : ¬ Held ⟨books, hands⟩ journal :=
  fun held => by simp [show hands.worker = none from held.worker] at alive

theorem ends_kind (ends : message.endsJob = true) :
    ¬ (message.isAcceptance ∨ message.isPreparing) := by
  rintro (⟨_, carries⟩ | ⟨_, carries⟩) <;>
    simp [RunnerMessage.endsJob, carries] at ends

/-- The process stops recovering only without a job or when its end is about to be reported. -/
theorem Resumed.recover (resumed : Resumed ⟨books, hands⟩)
    (settled : books.journal.active = none ∨ ∃ message, books.journal.pendingMessage =
      some message ∧ message.endsJob = true) :
    Resumed ⟨{ books with recovering := false }, hands⟩ where
  safe := resumed.safe
  released := resumed.released
  held journal resuming := by
    have held := resumed.held journal resuming
    refine ⟨held.active, held.worker, held.events, held.unasked, held.rightful,
      fun message inHand kind => ?_⟩
    rcases settled with gone | ⟨pending, found, ends⟩
    · exact absurd gone held.active
    rcases (inHand_iff books message).1 inHand with same | released
    · obtain rfl := Option.some.inj (found.symm.trans same)
      exact absurd kind (ends_kind ends)
    · have none := resumed.released message released
      simp [show books.journal.pendingMessage = some pending from found] at none

theorem cancels_not_queue
    (cancels : Cancels state change) (message : RunnerMessage) (mutation : Mutation) :
    change ≠ .queueDurable message mutation := by
  rintro rfl
  exact cancels

/-- Every move keeps `Resumed`: one case for each kind of move. -/
theorem Move.resumed {core next : Core} (sound : core.books.Sound env) (resumed : Resumed core)
    (moves : Move env licence core next) : Resumed next := by
  cases moves with
  | note books hands effect quiet =>
    refine resumed.log quiet.file ?_ ?_ ?_
    · rintro job rfl
      exact quiet
    · rintro channel rfl
      exact quiet
    · rintro message rfl
      exact quiet
  | commit books hands change state commits permitted =>
    refine resumed.commit sound commits ?_
    rintro journal held message mutation rfl
    exact queueable_origin held commits permitted.2
  | cancel books hands change state commits cancels =>
    refine (resumed.commit sound commits ?_).failStart
    exact fun _ _ message mutation same => absurd same (cancels_not_queue cancels message mutation)
  | cancelLate books hands change state commits cancels =>
    refine resumed.commit sound commits ?_
    exact fun _ _ message mutation same => absurd same (cancels_not_queue cancels message mutation)
  | reissue books hands older newer cleared numbered queued pending ends clears numbers queues
      identity again =>
    have first : Resumed ⟨books.commit .clearPending cleared, hands⟩ :=
      resumed.commit sound clears (by simp)
    have second : Resumed ⟨(books.commit .clearPending cleared).log (.settled older), hands⟩ := by
      refine first.log rfl (by simp) (by simp) ?_
      rintro message same
      obtain rfl := Effect.settled.inj same
      exact ⟨books.trace, books.journal, rfl, sound.recorded, pending⟩
    have soundly := (sound.commit clears).log (.settled older) rfl
    have third : Resumed ⟨((books.commit .clearPending cleared).log (.settled older)).commit
        .nextMessageSequence numbered, hands⟩ := second.commit soundly numbers (by simp)
    refine third.commit (soundly.commit numbers) queues ?_
    rintro journal held message mutation same
    obtain ⟨rfl, rfl⟩ := JournalChange.queueDurable.inj same
    exact queueable_again held again rfl queued
  | await books before after channel consumes =>
    refine resumed.impossible (fun _ => Held.not_consumes consumes) (Or.inr ⟨_, rfl, rfl⟩) ?_
    exact fun message found => absurd found (not_released rfl rfl (by simp))
  | fail => exact resumed.failStart
  | grant books hands channel =>
    have logged : Resumed ⟨books.log (.answered channel true books.journal books.recovering),
        hands⟩ := resumed.log rfl (by simp) (by simp) (by simp)
    exact logged.of_same rfl rfl rfl rfl rfl rfl
  | launch books hands settled job past cleared prepared fresh =>
    refine resumed.impossible (fun journal held => ?_) (Or.inr ⟨_, rfl, rfl⟩) ?_
    · have recovering := held.recovering settled (Or.inr (Or.inr (Or.inl ⟨past, cleared⟩)))
        (Or.inr prepared)
      exact absurd (fresh.symm.trans recovering) (by simp)
    · exact fun message found => absurd found (not_released rfl rfl (by simp))
  | dismiss books before after event consumes | postpone books before after event consumes =>
    exact resumed.impossible (fun _ => Held.not_consumes consumes) (Or.inl rfl) resumed.released
  | report books before after result evidence usage message state consumes commits =>
    refine resumed.impossible (fun _ => Held.not_consumes consumes) (Or.inr ⟨_, rfl, rfl⟩) ?_
    exact fun message found => found.of_commit commits resumed.released
  | discard books hands gone =>
    exact resumed.impossible (fun _ held => held.active gone) (Or.inl rfl) resumed.released
  | recover books hands settled => exact resumed.recover settled
  | heartbeat => exact resumed.of_same rfl rfl rfl rfl rfl rfl
  | replace books hands credential =>
    have logged : Resumed ⟨books.log (.replaced credential), hands⟩ :=
      resumed.log rfl (by simp) (by simp) (by simp)
    exact logged.of_same rfl rfl rfl rfl rfl rfl
  | emit books hands event job alive =>
    exact resumed.impossible (fun _ => Held.not_alive alive) (Or.inl rfl) resumed.released
  | finish books hands result evidence usage job alive =>
    refine resumed.impossible (fun _ => Held.not_alive alive) (Or.inr ⟨_, rfl, rfl⟩) ?_
    exact fun message found => absurd found (not_released rfl rfl (by simp))

theorem resumed_booted (journal : JournalState) (credential : Bytes) (outside : Nat → Response)
    (safe : RestartSafe past) :
    Resumed (bootedCore journal credential outside past) := by
  have idle (message : RunnerMessage) :
      ¬ Released (bootedCore journal credential outside past).books message := by
    rintro (⟨_, _, begins, _⟩ | ⟨_, begins⟩ | ⟨_, _, begins⟩) <;> simp [bootedCore] at begins
  refine ⟨restartSafe_booted safe journal credential, fun message found => absurd found
    (idle message), fun state resuming => ?_⟩
  obtain rfl : journal = state := Option.some.inj resuming.boot
  refine ⟨resuming.active, rfl, ⟨rfl, rfl⟩, by simp [bootedCore, recentOf],
    fun message inHand => ?_,
    fun message inHand _ => Option.isSome_iff_ne_none.2 resuming.active⟩
  rcases (inHand_iff _ message).1 inHand with pending | released
  · exact Or.inr (.first message pending)
  · exact absurd released (idle message)

theorem Reach.resumed {initial : JournalState → Bytes → Prop} {core : Core}
    (reached : Reach env licence initial core) : Resumed core := by
  refine reached.by_moves Resumed ?_ ?_ ?_ ?_
  · intro journal credential outside _ _
    refine resumed_booted journal credential outside fun past state suffix resuming => ?_
    obtain rfl := List.suffix_nil.1 suffix
    simp [recentOf]
  · exact fun core next sound resumed moves => moves.resumed sound resumed
  · exact fun books hands outside resumed => resumed.of_same rfl rfl rfl rfl rfl rfl
  · intro core past journal credential outside _ resumed suffix _ _ _
    exact resumed_booted journal credential outside (resumed.safe.suffix suffix)

/-! ## Whole runs -/

/-- Until the job that a process found in its journal is cleared, no worker is started, and the
events that are queued are rejections, renewals, failures, cancellations, the retained event or one
put in its place.

Proof: `Resumed` is kept by every move. -/
theorem restart_safe (env : Environment) (world : World)
    (reached : Run env (fun _ _ => True) (fun _ _ => True) world) : RestartSafe world.trace := by
  obtain ⟨_, reaches, covered, _⟩ := reached.free
  exact reaches.resumed.safe.suffix covered

/-! ## Samples -/

/-- The sample job is prepared and its worker runs when the process stops. -/
def interrupted : List (Action × (Nat → Response)) := asking.take 4

/-- On the next stream the same lease is offered in another message. -/
def offeredAgain : List (Action × (Nat → Response)) :=
  [(.openStream (sampleOpening 1010), sampleAnswers 1010),
    sampleDelivery 1011 { sampleOffer 1011 2000 with messageId := encode "again" }]

/-- The run through the restart. -/
def interruptedRun : Option World :=
  performAround sampleClient 1 interrupted offeredAgain (sampleBoot emptyJournal)

theorem Run.interrupted {world : World} (ran : interruptedRun = some world) :
    Run sampleClient (fun _ _ => True) (fun _ _ => True) world := by
  have begun : Run sampleClient (fun _ _ => True) (fun _ _ => True) (sampleBoot emptyJournal) :=
    .start _ _ _ _ trivial (empty_valid _)
  exact begun.performAround ran

/-- Whether the process has the job it started with, retained no event, and has queued a rejection
of the lease of that job. -/
def rejectsItsOwn (trace : List Effect) : Bool :=
  match bootOf trace with
  | none => false
  | some journal => journal.active.isSome && journal.pendingMessage.isNone &&
      (recentOf trace).all (fun effect => match effect with
        | .committed _ state => state.active.isSome
        | _ => true) &&
      (recentOf trace).any (fun effect => match effect with
        | .committed (.queueDurable message _) _ => message.isRejection &&
            activeMatchesIdentity journal.active (runnerMessageIdentity message).1
              (runnerMessageIdentity message).2
        | _ => false)

theorem interrupted_rejects : interruptedRun.map (fun world => rejectsItsOwn world.trace) =
    some true := by
  decide +kernel

theorem resuming_of_all (boot : bootOf trace = some journal)
    (active : journal.active.isSome = true)
    (since : (recentOf trace).all (fun effect => match effect with
      | .committed _ state => state.active.isSome
      | _ => true) = true) : Resuming trace journal where
  boot := boot
  active := Option.isSome_iff_ne_none.1 active
  since _ _ member :=
    Option.isSome_iff_ne_none.1 (List.all_eq_true.1 since _ member)

/-- What the process of the sample run has done, spelt out. -/
theorem rejectsItsOwn_spec (rejects : rejectsItsOwn trace = true) :
    ∃ journal message mutation state, Resuming trace journal ∧ journal.pendingMessage = none ∧
      .committed (.queueDurable message mutation) state ∈ recentOf trace ∧
      message.isRejection = true ∧ activeMatchesIdentity journal.active
        (runnerMessageIdentity message).1 (runnerMessageIdentity message).2 = true := by
  unfold rejectsItsOwn at rejects
  split at rejects
  · simp at rejects
  rename_i journal boot
  simp only [Bool.and_eq_true, Option.isNone_iff_eq_none] at rejects
  obtain ⟨⟨⟨active, free⟩, since⟩, queued⟩ := rejects
  obtain ⟨_, member, found⟩ := List.any_eq_true.1 queued
  split at found
  · rename_i message mutation state
    simp only [Bool.and_eq_true] at found
    exact ⟨journal, message, mutation, state, resuming_of_all boot active since, free, member,
      found.1, found.2⟩
  · simp at found

/-- The process of the sample run does not start the worker again. -/
theorem restart_safe_interrupted :
    ∃ world journal, Run sampleClient (fun _ _ => True) (fun _ _ => True) world ∧
      Resuming world.trace journal ∧ RestartSafe world.trace := by
  obtain ⟨world, ran, rejects⟩ := Option.map_eq_some_iff.1 interrupted_rejects
  obtain ⟨journal, _, _, _, resuming, _⟩ := rejectsItsOwn_spec rejects
  exact ⟨world, journal, .interrupted ran, resuming,
    restart_safe sampleClient world (.interrupted ran)⟩

/-! ## A rejection for the job itself -/

/-- Every event that is queued for the job itself is a renewal, a failure, a cancellation, the
retained event or one put in its place. -/
def RejectsNothing (trace : List Effect) : Prop :=
  ∀ journal, Resuming trace journal →
    ∀ message mutation state, .committed (.queueDurable message mutation) state ∈ recentOf trace →
      activeMatchesIdentity journal.active (runnerMessageIdentity message).1
        (runnerMessageIdentity message).2 = true →
      (message.afterRestart = true ∧ message.isRejection = false) ∨ Retained journal trace message

theorem not_retained (free : journal.pendingMessage = none) : ¬ Retained journal trace message := by
  intro retained
  induction retained with
  | first message pending => simp [free] at pending
  | again older newer queued numbered past earlier reissues found induction => exact induction

/-- A further offer of the lease is answered with a rejection that names the lease of the job. -/
theorem own_lease_rejected :
    ∃ world, Run sampleClient (fun _ _ => True) (fun _ _ => True) world ∧
      ¬ RejectsNothing world.trace := by
  obtain ⟨world, ran, rejects⟩ := Option.map_eq_some_iff.1 interrupted_rejects
  obtain ⟨journal, message, mutation, state, resuming, free, member, rejection, own⟩ :=
    rejectsItsOwn_spec rejects
  refine ⟨world, .interrupted ran, fun nothing => ?_⟩
  rcases nothing journal resuming message mutation state member own with ⟨_, other⟩ | retained
  · simp [rejection] at other
  · exact not_retained free retained

end ProvenanceRunner.Gateway
