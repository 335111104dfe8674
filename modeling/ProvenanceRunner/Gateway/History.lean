import ProvenanceRunner.Gateway.Runs

/-! # The history of the journal

Seen from the journal, a move is a sequence of strides: either the journal stays as it is and at
most one entry is added to the history, or one change is committed for one of a few reasons. Facts
about all journals of a run are proved stride by stride. -/

namespace ProvenanceRunner.Gateway

open Utf8

variable {effect : Effect} {past trace : List Effect}

variable (env : Environment) (licence : Licence)

/-- The journal file that an entry of the history leaves behind. -/
def Effect.file? : Effect → Option JournalState
  | .booted journal _ => some journal
  | .committed _ journal => some journal
  | _ => none

theorem fileAfter_cons (effect : Effect) (past : List Effect) :
    fileAfter (effect :: past) = effect.file?.or (fileAfter past) := by
  cases effect <;> rfl

theorem fileAfter_file {journal : JournalState}
    (file : effect.file? = some journal) : fileAfter (effect :: past) = some journal := by
  rw [fileAfter_cons, file]
  rfl

theorem fileAfter_quiet (quiet : effect.file? = none) :
    fileAfter (effect :: past) = fileAfter past := by
  rw [fileAfter_cons, quiet]
  rfl

/-! ## Strides -/

/-- Why a change is committed. In this view it does not matter whether an event that ends the job
may be cleared, and such an event may be queued once more. -/
inductive Reason (core : Core) : JournalChange → Prop where
  | permitted (change : JournalChange)
    (permitted : Permitted env { licence with lostEnd := True } core change) : Reason core change
  | cancels (change : JournalChange) (cancels : Cancels core.books.journal change) :
    Reason core change
  | ends (message : RunnerMessage) (fresh : Fresh env core.books message)
    (ending : message.endsJob = true) : Reason core (.queueDurable message .keep)

/-- The journal stays, and at most one entry is added to the history. -/
structure Paused (core next : Core) : Prop where
  journal : next.books.journal = core.books.journal
  trace : next.books.trace = core.books.trace ∨
    ∃ effect, effect.file? = none ∧ next.books.trace = effect :: core.books.trace ∧
      ∀ message, effect = .sent message → Sendable env core.books message
  held : next.books.pendingHeartbeat = core.books.pendingHeartbeat ∨
    next.books.pendingHeartbeat = none ∨
    next.books.pendingHeartbeat = core.books.journal.pendingHeartbeat

/-- One change is committed. -/
structure Changed (change : JournalChange) (state : JournalState) (core next : Core) : Prop where
  commits : Commits env core.books change state
  reason : Reason env licence core change
  journal : next.books.journal = state
  trace : next.books.trace = .committed change state :: core.books.trace
  held : next.books.pendingHeartbeat = core.books.pendingHeartbeat

inductive Stride (core next : Core) : Prop where
  | paused (paused : Paused env core next)
  | changed (change : JournalChange) (state : JournalState)
    (changed : Changed env licence change state core next)

variable {env licence}

variable {initial : JournalState → Bytes → Prop} {holds : JournalState → Prop} {core next : Core}

/-- A stride that changes nothing the journal could see. -/
theorem Stride.still (journal : next.books.journal = core.books.journal)
    (trace : next.books.trace = core.books.trace)
    (held : next.books.pendingHeartbeat = core.books.pendingHeartbeat) :
    Stride env licence core next :=
  .paused ⟨journal, Or.inl trace, Or.inl held⟩

/-- A stride that notes an entry without a message. -/
theorem Stride.noted (effect : Effect) (quiet : effect.file? = none)
    (unsent : ∀ message, effect ≠ .sent message) (journal : next.books.journal = core.books.journal)
    (trace : next.books.trace = effect :: core.books.trace)
    (held : next.books.pendingHeartbeat = core.books.pendingHeartbeat) :
    Stride env licence core next :=
  .paused ⟨journal, Or.inr ⟨effect, quiet, trace, fun message same => absurd same (unsent message)⟩,
    Or.inl held⟩

theorem Stride.commit {books : Books} {hands : Hands} {change : JournalChange}
    {state : JournalState} (after : Hands) (commits : Commits env books change state)
    (reason : Reason env licence ⟨books, hands⟩ change) :
    Stride env licence ⟨books, hands⟩ ⟨books.commit change state, after⟩ :=
  .changed change state ⟨commits, reason, rfl, rfl, rfl⟩

theorem Stride.fail (books : Books) (hands : Hands) :
    Stride env licence ⟨books, hands⟩ ⟨books.failStart, hands⟩ := by
  unfold Books.failStart
  split
  · exact .still rfl rfl rfl
  · exact .noted _ rfl (by simp) rfl rfl rfl

theorem Quiet.file {books : Books} (quiet : Quiet env books effect) :
    effect.file? = none := by
  cases effect <;> first | rfl | exact absurd quiet id

theorem Permitted.lenient {change : JournalChange}
    (permitted : Permitted env licence core change) :
    Permitted env { licence with lostEnd := True } core change := by
  cases change with
  | clearPending => exact fun _ _ _ => trivial
  | queueDurable message mutation => cases mutation <;> exact permitted
  | _ => exact permitted

/-- A move is a sequence of strides. -/
theorem Move.strides (moves : Move env licence core next) :
    Relation.ReflTransGen (Stride env licence) core next := by
  cases moves with
  | note books hands effect quiet =>
    refine .single (.paused ⟨rfl, Or.inr ⟨effect, quiet.file, rfl, ?_⟩, Or.inl rfl⟩)
    rintro message rfl
    exact quiet
  | commit books hands change state commits permitted =>
    exact .single (.commit _ commits (.permitted _ permitted.lenient))
  | cancel books hands change state commits cancels =>
    exact (Relation.ReflTransGen.single (.commit hands commits (.cancels _ cancels))).tail
      (.fail _ _)
  | cancelLate books hands change state commits cancels =>
    exact .single (.commit _ commits (.cancels _ cancels))
  | reissue books hands older newer cleared numbered queued pending ends clears numbers queues
      identity again =>
    have ending : newer.endsJob = true := by
      obtain ⟨payload, _, _, _, carries, newer', _, _⟩ := again
      unfold RunnerMessage.endsJob at ends ⊢
      rw [carries] at ends
      rw [newer']
      cases payload <;> simp [reissued] at ends ⊢
    have fresh : Fresh env (((books.commit .clearPending cleared).log (.settled older)).commit
        .nextMessageSequence numbered) newer := ⟨⟨_, rfl⟩, identity⟩
    have settling (cleared : JournalState) : Stride env licence
        ⟨books.commit .clearPending cleared, hands⟩
        ⟨(books.commit .clearPending cleared).log (.settled older), hands⟩ :=
      .noted (.settled older) rfl (by simp) rfl rfl rfl
    exact (((Relation.ReflTransGen.single
      (.commit hands clears (.permitted _ fun _ _ _ => trivial))).tail
      (settling cleared)).tail
      (.commit hands numbers (.permitted .nextMessageSequence trivial))).tail
      (.commit hands queues (.ends newer fresh ending))
  | await books before after channel =>
    exact .single (.noted (.awaited channel) rfl (by simp) rfl rfl rfl)
  | fail books hands => exact .single (.fail books hands)
  | grant books hands channel =>
    exact .single (.noted (.answered channel true books.journal books.recovering) rfl (by simp)
      rfl rfl rfl)
  | launch books hands settled job =>
    exact .single (.noted (.launched job.specification) rfl (by simp) rfl rfl rfl)
  | dismiss | postpone => exact .single (.still rfl rfl rfl)
  | report books before after result evidence usage message state consumes commits fresh reports =>
    exact .single (.commit _ commits (.ends message fresh reports.1))
  | discard | recover => exact .single (.still rfl rfl rfl)
  | heartbeat books hands message known =>
    exact .single (.paused ⟨rfl, Or.inl rfl, Or.inr known⟩)
  | replace books hands credential =>
    exact .single (.noted (.replaced credential) rfl (by simp) rfl rfl rfl)
  | emit => exact .single (.still rfl rfl rfl)
  | finish books hands result evidence usage job =>
    exact .single (.noted (.finished job result) rfl (by simp) rfl rfl rfl)

/-- The journal is what the history leaves behind. -/
def Recorded (core : Core) : Prop := fileAfter core.books.trace = some core.books.journal

theorem Stride.recorded (stride : Stride env licence core next) (recorded : Recorded core) :
    Recorded next := by
  unfold Recorded at recorded ⊢
  cases stride with
  | paused paused =>
    rw [paused.journal]
    rcases paused.trace with same | ⟨_, quiet, grown, _⟩
    · rw [same]
      exact recorded
    · rw [grown, fileAfter_quiet quiet]
      exact recorded
  | changed change state changed =>
    rw [changed.journal, changed.trace]
    rfl

section

variable (invariant : Core → Prop)
  (boot : ∀ journal credential outside, initial journal credential →
    journal.Valid env.toJournalEnvironment → invariant (bootedCore journal credential outside []))
include boot

/-- What holds at the start, is kept by every move and survives a restart holds in every core that
is reached. -/
theorem Reach.by_moves
    (move : ∀ core next, core.books.Sound env → invariant core → Move env licence core next →
      invariant next)
    (answers : ∀ books hands outside, invariant ⟨books, hands⟩ →
      invariant ⟨books, { hands with outside := outside }⟩)
    (reboot : ∀ core past journal credential outside, core.books.Sound env → invariant core →
      past <:+ core.books.trace → fileAfter past = some journal →
      credentialAfter past = some credential → journal.Valid env.toJournalEnvironment →
      invariant (bootedCore journal credential outside past))
    (reached : Reach env licence initial core) : invariant core := by
  induction reached with
  | boot journal credential outside begins valid =>
    exact boot journal credential outside begins valid
  | move core next reached moves induction => exact move core next reached.sound induction moves
  | answers books hands outside reached induction => exact answers books hands outside induction
  | reboot core past journal credential outside reached crashed file stored valid induction =>
    exact reboot core past journal credential outside reached.sound induction crashed file stored
      valid

/-- The same rule with strides, for facts that concern only the journal. -/
theorem Reach.by_strides
    (stride : ∀ core next, Recorded core → invariant core → Stride env licence core next →
      invariant next)
    (answers : ∀ books hands outside, invariant ⟨books, hands⟩ →
      invariant ⟨books, { hands with outside := outside }⟩)
    (reboot : ∀ core past journal credential outside, invariant core → past <:+ core.books.trace →
      fileAfter past = some journal → journal.Valid env.toJournalEnvironment →
      invariant (bootedCore journal credential outside past))
    (reached : Reach env licence initial core) : invariant core := by
  refine Reach.by_moves invariant boot ?_ answers ?_ reached
  · intro core next sound holds moves
    have strides := moves.strides
    have both : Recorded next ∧ invariant next := by
      have here : Recorded core := sound.recorded
      clear moves
      induction strides with
      | refl => exact ⟨here, holds⟩
      | tail _ last both => exact ⟨last.recorded both.1, stride _ _ both.1 both.2 last⟩
    exact both.2
  · intro core past journal credential outside _ holds crashed file _ valid
    exact reboot core past journal credential outside holds crashed file valid

end

/-! ## Journals of a history -/

/-- Every journal of a history satisfies the predicate. -/
def EveryJournal (holds : JournalState → Prop) (trace : List Effect) : Prop :=
  ∀ past journal, past <:+ trace → fileAfter past = some journal → holds journal

theorem EveryJournal.suffix (every : EveryJournal holds trace)
    (suffix : past <:+ trace) : EveryJournal holds past :=
  fun older journal inner file => every older journal (inner.trans suffix) file

theorem EveryJournal.quiet (every : EveryJournal holds trace) (quiet : effect.file? = none) :
    EveryJournal holds (effect :: trace) := by
  intro past journal suffix file
  rcases List.suffix_cons_iff.1 suffix with rfl | inner
  · rw [fileAfter_quiet quiet] at file
    exact every trace journal List.suffix_rfl file
  · exact every past journal inner file

theorem EveryJournal.file (every : EveryJournal holds trace) (effect : Effect)
    {state : JournalState} (file : effect.file? = some state) (held : holds state) :
    EveryJournal holds (effect :: trace) := by
  intro past journal suffix found
  rcases List.suffix_cons_iff.1 suffix with rfl | inner
  · rw [fileAfter_file file, Option.some.injEq] at found
    exact found ▸ held
  · exact every past journal inner found

theorem everyJournal_nil (holds : JournalState → Prop) : EveryJournal holds [] := by
  intro past journal suffix file
  rw [List.suffix_nil] at suffix
  subst suffix
  simp [fileAfter] at file

/-- Every journal file of a history is related to the one before it. -/
def EveryStep (relates : JournalState → JournalState → Prop) (trace : List Effect) : Prop :=
  ∀ effect past state next, effect :: past <:+ trace → fileAfter past = some state →
    effect.file? = some next → relates state next

section

variable {relates : JournalState → JournalState → Prop}

theorem EveryStep.suffix (every : EveryStep relates trace) (suffix : past <:+ trace) :
    EveryStep relates past :=
  fun effect older state next inner => every effect older state next (inner.trans suffix)

theorem EveryStep.cons (every : EveryStep relates trace)
    (step : ∀ state next, fileAfter trace = some state → effect.file? = some next →
      relates state next) : EveryStep relates (effect :: trace) := by
  intro other past state next suffix file written
  rcases List.suffix_cons_iff.1 suffix with same | inner
  · obtain ⟨rfl, rfl⟩ := List.cons.inj same
    exact step state next file written
  · exact every other past state next inner file written

/-- A relation that every change keeps to, given a property that every change keeps, holds of the
steps of every run. A restart writes the file that it has found. -/
theorem Reach.every_step (relates : JournalState → JournalState → Prop)
    (same : ∀ state, relates state state)
    (boot : ∀ journal credential, initial journal credential →
      journal.Valid env.toJournalEnvironment → holds journal)
    (keeps : ∀ core change state, holds core.books.journal → Commits env core.books change state →
      Reason env licence core change → relates core.books.journal state ∧ holds state)
    (reached : Reach env licence initial core) :
    EveryStep relates core.books.trace ∧ EveryJournal holds core.books.trace := by
  refine reached.by_strides (fun core => EveryStep relates core.books.trace ∧
    EveryJournal holds core.books.trace) ?_ ?_ ?_ ?_
  · intro journal credential outside begins valid
    have empty : EveryStep relates [] := fun effect past state next suffix => by simp at suffix
    exact ⟨empty.cons fun state next file => by simp [fileAfter] at file,
      (everyJournal_nil holds).file (.booted journal credential) rfl
        (boot journal credential begins valid)⟩
  · rintro core next recorded ⟨steps, every⟩ stride
    cases stride with
    | paused paused =>
      rcases paused.trace with same | ⟨_, quiet, grown, _⟩
      · exact same ▸ ⟨steps, every⟩
      · exact grown ▸ ⟨steps.cons (by simp [quiet]), every.quiet quiet⟩
    | changed change state changed =>
      obtain ⟨related, held⟩ := keeps core change state (every _ _ List.suffix_rfl recorded)
        changed.commits changed.reason
      rw [changed.trace]
      refine ⟨steps.cons fun before after file written => ?_, every.file _ rfl held⟩
      obtain rfl := Option.some.inj (recorded.symm.trans file)
      obtain rfl := Option.some.inj written
      exact related
  · exact fun books hands outside holds => holds
  · rintro core past journal credential outside ⟨steps, every⟩ suffix file _
    refine ⟨(steps.suffix suffix).cons fun before after found written => ?_,
      (every.suffix suffix).file (.booted journal credential) rfl
        (every past journal suffix file)⟩
    obtain rfl := Option.some.inj (file.symm.trans found)
    obtain rfl := Option.some.inj written
    exact same journal

end

/-- A property of single journals that every change keeps holds of every journal of a run. -/
theorem Reach.every_journal
    (boot : ∀ journal credential, initial journal credential →
      journal.Valid env.toJournalEnvironment → holds journal)
    (keeps : ∀ core change state, holds core.books.journal → Commits env core.books change state →
      Reason env licence core change → holds state) (reached : Reach env licence initial core) :
    EveryJournal holds core.books.trace :=
  (reached.every_step (fun _ _ => True) (fun _ => trivial) boot
    fun core change state held commits reason =>
      ⟨trivial, keeps core change state held commits reason⟩).2

end ProvenanceRunner.Gateway
