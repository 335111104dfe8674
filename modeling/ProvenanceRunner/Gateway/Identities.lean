import ProvenanceRunner.Gateway.Phases

/-! # Identities of messages

An event or heartbeat is written to the journal under the number that the journal's counter has
just reached. Later numbers are greater, so that an identity never stands for two messages, and what
is sent again is what was written. Messages about live evidence and secrets are outside of this
numbering. -/

namespace ProvenanceRunner.Gateway

open Utf8

variable {message : RunnerMessage}

variable {env : Environment} {licence : Licence}

/-! ## Messages of a history -/

/-- The message that an entry writes to the journal. -/
def Effect.written? : Effect → Option RunnerMessage
  | .committed (.queueDurable message _) _ => some message
  | .committed (.storeHeartbeat message) _ => some message
  | _ => none

/-- The events and heartbeats written to the journal, newest first. -/
def written (trace : List Effect) : List RunnerMessage := trace.filterMap Effect.written?

/-- The message is written to the journal or sent, and it is not a live one. -/
def Spoken (trace : List Effect) (message : RunnerMessage) : Prop :=
  message ∈ written trace ∨ (.sent message ∈ trace ∧ ¬ message.isLive)

/-- The number in the identity of a message is at most the given one. -/
def NumberedUpTo (bound : Nat) (message : RunnerMessage) : Prop :=
  ∃ number, sequenceSuffix message.messageId = some number ∧ number ≤ bound

/-- The first identity has the greater number. -/
def LaterNumber (newer older : RunnerMessage) : Prop :=
  ∃ high low, sequenceSuffix newer.messageId = some high ∧
    sequenceSuffix older.messageId = some low ∧ low < high

theorem written_cons (effect : Effect) (trace : List Effect) :
    written (effect :: trace) =
      match effect.written? with
      | some message => message :: written trace
      | none => written trace := by
  unfold written
  cases found : effect.written? <;> simp [found]

variable {core : Core} {trace : List Effect} {effect : Effect}

theorem written_mono
    (member : message ∈ written trace) : message ∈ written (effect :: trace) := by
  rw [written_cons]
  split
  · exact List.mem_cons_of_mem _ member
  · exact member

/-- A new entry that neither writes nor sends a numbered message adds nothing. -/
theorem Spoken.of_cons
    (spoken : Spoken (effect :: trace) message) :
    Spoken trace message ∨ effect.written? = some message ∨
      (effect = .sent message ∧ ¬ message.isLive) := by
  rcases spoken with member | ⟨member, numbered⟩
  · rw [written_cons] at member
    split at member
    · rename_i other found
      rcases List.mem_cons.1 member with rfl | older
      · exact Or.inr (Or.inl found)
      · exact Or.inl (Or.inl older)
    · exact Or.inl (Or.inl member)
  · rcases List.mem_cons.1 member with same | older
    · exact Or.inr (Or.inr ⟨same.symm, numbered⟩)
    · exact Or.inl (Or.inr ⟨older, numbered⟩)

/-! ## The invariant -/

/-- What holds at a point of a history. -/
structure Told (trace : List Effect) : Prop where
  counted : ∀ state, fileAfter trace = some state → ∀ message, Spoken trace message →
    NumberedUpTo state.messageSequence.toNat message
  ahead : ∀ state past, trace = .committed .nextMessageSequence state :: past →
    ∀ message, Spoken trace message → ∃ number, sequenceSuffix message.messageId = some number ∧
      number < state.messageSequence.toNat
  event : ∀ state message, fileAfter trace = some state → state.pendingMessage = some message →
    message ∈ written trace
  heartbeat : ∀ state message, fileAfter trace = some state →
    state.pendingHeartbeat = some message → message ∈ written trace
  ordered : (written trace).Pairwise LaterNumber
  unique : ∀ first second, Spoken trace first → Spoken trace second →
    first.messageId = second.messageId → first = second
  retained : ∀ message, .sent message ∈ trace → message.isRetained = true →
    message ∈ written trace

theorem not_same_of_later {newer older : RunnerMessage} (later : LaterNumber newer older) :
    newer.messageId ≠ older.messageId := by
  obtain ⟨high, low, suffix, suffix', below⟩ := later
  intro same
  rw [same, suffix', Option.some.injEq] at suffix
  omega

/-- One message joins the spoken ones, under a later number than all of them. -/
theorem Told.unique_cons (told : Told trace) (newest : Option RunnerMessage)
    (later : ∀ message ∈ newest, ∀ older, Spoken trace older → LaterNumber message older)
    (known : ∀ message, Spoken (effect :: trace) message →
      Spoken trace message ∨ newest = some message) (first second : RunnerMessage)
    (spoken : Spoken (effect :: trace) first) (spoken' : Spoken (effect :: trace) second)
    (identity : first.messageId = second.messageId) : first = second := by
  rcases known first spoken with older | found
  · rcases known second spoken' with older' | found'
    · exact told.unique first second older older' identity
    · exact absurd identity.symm (not_same_of_later (later second found' first older))
  · rcases known second spoken' with older' | found'
    · exact absurd identity (not_same_of_later (later first found second older'))
    · exact Option.some.inj (found.symm.trans found')

/-- The numbered message that an entry sends, if it is the first to speak of it. -/
def SendsFirst (trace : List Effect) (message : RunnerMessage) : Prop :=
  message.isRetained = false ∧
    (∀ state, fileAfter trace = some state →
      NumberedUpTo state.messageSequence.toNat message) ∧
    ∀ older, Spoken trace older → LaterNumber message older

/-- What an entry sends that writes nothing. -/
def Sends (trace : List Effect) (message : RunnerMessage) : Prop :=
  message ∈ written trace ∨ message.isLive ∨ SendsFirst trace message

theorem not_retained_of_live (live : message.isLive) :
    message.isRetained = false := by
  rcases live with ⟨_, carries⟩ | ⟨_, carries⟩ | ⟨_, _, carries⟩ <;>
    simp [RunnerMessage.isRetained, durableRunnerMessage, RunnerMessage.heartbeat?, carries]

/-- An entry that leaves the journal as it was. -/
theorem Told.unwritten (told : Told trace) (file : fileAfter (effect :: trace) = fileAfter trace)
    (unwritten : effect.written? = none)
    (uncounted : ∀ state, effect ≠ .committed .nextMessageSequence state)
    (sends : ∀ message, effect = .sent message → Sends trace message) :
    Told (effect :: trace) := by
  have same : written (effect :: trace) = written trace := by
    rw [written_cons, unwritten]
  have split (message : RunnerMessage) (spoken : Spoken (effect :: trace) message) :
      Spoken trace message ∨ (effect = .sent message ∧ SendsFirst trace message) := by
    rcases spoken.of_cons with older | found | ⟨sent, numbered⟩
    · exact Or.inl older
    · simp [unwritten] at found
    · rcases sends message sent with known | live | first
      · exact Or.inl (Or.inl known)
      · exact absurd live numbered
      · exact Or.inr ⟨sent, first⟩
  refine ⟨?_, ?_, ?_, ?_, ?_, ?_, ?_⟩
  · intro state found message spoken
    rw [file] at found
    rcases split message spoken with older | ⟨_, first⟩
    · exact told.counted state found message older
    · exact first.2.1 state found
  · intro state past begins
    exact absurd (List.cons.inj begins).1 (uncounted state)
  · rw [file, same]
    exact told.event
  · rw [file, same]
    exact told.heartbeat
  · exact same ▸ told.ordered
  · by_cases first : ∃ message, effect = .sent message ∧ SendsFirst trace message
    · obtain ⟨newest, rfl, first⟩ := first
      refine told.unique_cons (some newest) ?_ ?_
      · rintro _ ⟨⟩
        exact first.2.2
      · exact fun message spoken => (split message spoken).imp_right fun found =>
          congrArg some (Effect.sent.inj found.1)
    · exact told.unique_cons none (by simp) fun message spoken => (split message spoken).imp_right
        fun found => absurd ⟨message, found⟩ first
  · intro message sent retained
    rw [same]
    rcases List.mem_cons.1 sent with found | older
    · rcases sends message found.symm with known | live | first
      · exact known
      · simp [not_retained_of_live live] at retained
      · simp [first.1] at retained
    · exact told.retained message older retained

/-- A message that is fresh is behind nothing that was spoken. -/
theorem Told.fresh (told : Told core.books.trace)
    (fresh : Fresh env core.books message) :
    sequenceSuffix message.messageId = some core.books.journal.messageSequence.toNat ∧
      ∀ older, Spoken core.books.trace older → LaterNumber message older := by
  obtain ⟨⟨past, begins⟩, identity⟩ := fresh
  have number : sequenceSuffix message.messageId =
      some core.books.journal.messageSequence.toNat := by
    rw [identity]
    exact sequenceSuffix_numberedId _ _
  refine ⟨number, fun older spoken => ?_⟩
  obtain ⟨low, suffix, below⟩ := told.ahead _ past begins older spoken
  exact ⟨_, low, number, suffix, below⟩

/-! ## Commits -/

section

variable {change : JournalChange} {state : JournalState}

/-- A change that writes no message keeps the counter or moves it on. -/
theorem commits_sequence {books : Books} (commits : Commits env books change state) :
    (change = .nextMessageSequence ∧
      state.messageSequence.toNat = books.journal.messageSequence.toNat + 1) ∨
    (change ≠ .nextMessageSequence ∧ state.messageSequence = books.journal.messageSequence) := by
  have applied := commits.1
  cases change with
  | nextMessageSequence =>
    left
    obtain ⟨room, rfl⟩ := commits_next env commits
    refine ⟨rfl, ?_⟩
    have bounded : books.journal.messageSequence.toNat + 1 < 2 ^ 64 := by
      have less := books.journal.messageSequence.toNat_lt
      have differs : books.journal.messageSequence.toNat ≠ 2 ^ 64 - 1 :=
        fun same => room (UInt64.toNat_inj.1 same)
      omega
    rw [UInt64.toNat_add, UInt64.toNat_one, Nat.mod_eq_of_lt bounded]
  | _ =>
    right
    refine ⟨by simp, ?_⟩
    simp only [JournalChange.apply] at applied
    repeat' split at applied
    all_goals
      obtain ⟨rfl, _⟩ := Prod.mk.inj applied
      rfl

/-- The pending messages after a change are old ones or the written one. -/
theorem commits_pending {books : Books} (commits : Commits env books change state) :
    (∀ message, state.pendingMessage = some message →
      books.journal.pendingMessage = some message ∨
        (Effect.committed change state).written? = some message) ∧
    (∀ message, state.pendingHeartbeat = some message →
      books.journal.pendingHeartbeat = some message ∨
        (Effect.committed change state).written? = some message) := by
  have applied := commits.1
  cases change with
  | queueDurable =>
    refine ⟨fun message pending => ?_, fun message pending => ?_⟩
    · rw [queued_pending commits] at pending
      exact Or.inr pending
    cases (commits_queueDurable commits).2 <;> exact Or.inl pending
  | storeHeartbeat =>
    obtain ⟨_, rfl⟩ := commits_storeHeartbeat commits
    exact ⟨fun _ => Or.inl, fun _ => Or.inr⟩
  | _ =>
    simp only [JournalChange.apply] at applied
    repeat' split at applied
    all_goals
      obtain ⟨rfl, _⟩ := Prod.mk.inj applied
      refine ⟨fun message pending => ?_, fun message pending => ?_⟩ <;>
        first | exact Or.inl pending | simp at pending

theorem written_fresh (reason : Reason env licence core change)
    (found : (Effect.committed change state).written? = some message) :
    Fresh env core.books message := by
  cases reason with
  | ends queued fresh =>
    obtain rfl : queued = message := Option.some.inj found
    exact fresh
  | cancels change cancels =>
    cases change <;> first
      | exact absurd cancels id
      | simp [Effect.written?] at found
  | permitted change permitted =>
    cases change with
    | queueDurable queued =>
      obtain rfl : queued = message := Option.some.inj found
      exact permitted.1
    | storeHeartbeat stored =>
      obtain rfl : stored = message := Option.some.inj found
      exact permitted.1
    | _ => simp [Effect.written?] at found

/-- A commit keeps `Told`, because what it writes has a number above all numbers before it. -/
theorem Told.commit (told : Told core.books.trace) (recorded : Recorded core)
    (commits : Commits env core.books change state) (reason : Reason env licence core change) :
    Told (.committed change state :: core.books.trace) := by
  have file : fileAfter (.committed change state :: core.books.trace) = some state := rfl
  have counted := told.counted _ recorded
  -- What is spoken now was spoken before, or is the message that is written.
  have split {message : RunnerMessage}
      (spoken : Spoken (.committed change state :: core.books.trace) message) :
      Spoken core.books.trace message ∨
        (Effect.committed change state).written? = some message := by
    rcases spoken.of_cons with older | found | ⟨sent, _⟩
    · exact Or.inl older
    · exact Or.inr found
    · simp at sent
  have fresh {message : RunnerMessage}
      (found : (Effect.committed change state).written? = some message) :=
    told.fresh (written_fresh reason found)
  have pending := commits_pending commits
  refine ⟨?_, ?_, ?_, ?_, ?_, ?_, ?_⟩
  · intro state' file' message spoken
    obtain rfl := Option.some.inj (file.symm.trans file')
    rcases split spoken with older | found
    · obtain ⟨number, suffix, below⟩ := counted message older
      refine ⟨number, suffix, Nat.le_trans below ?_⟩
      rcases commits_sequence commits with ⟨_, grown⟩ | ⟨_, kept⟩
      · omega
      · exact Nat.le_of_eq (congrArg UInt64.toNat kept.symm)
    · refine ⟨_, (fresh found).1, ?_⟩
      rcases commits_sequence commits with ⟨rfl, _⟩ | ⟨_, kept⟩
      · simp [Effect.written?] at found
      · exact Nat.le_of_eq (congrArg UInt64.toNat kept.symm)
  · intro state' past begins message spoken
    obtain ⟨same, rfl⟩ := List.cons.inj begins
    obtain ⟨rfl, rfl⟩ := Effect.committed.inj same
    rcases split spoken with older | found
    · obtain ⟨number, suffix, below⟩ := counted message older
      rcases commits_sequence commits with ⟨_, grown⟩ | ⟨other, _⟩
      · exact ⟨number, suffix, by omega⟩
      · exact absurd rfl other
    · simp [Effect.written?] at found
  · intro state' message file' stands
    obtain rfl := Option.some.inj (file.symm.trans file')
    rcases pending.1 message stands with older | found
    · exact written_mono (told.event _ message recorded older)
    · rw [written_cons, found]
      exact List.mem_cons_self
  · intro state' message file' stands
    obtain rfl := Option.some.inj (file.symm.trans file')
    rcases pending.2 message stands with older | found
    · exact written_mono (told.heartbeat _ message recorded older)
    · rw [written_cons, found]
      exact List.mem_cons_self
  · rw [written_cons]
    split
    · rename_i message found
      exact List.pairwise_cons.2
        ⟨fun older member => (fresh found).2 older (Or.inl member), told.ordered⟩
    · exact told.ordered
  · exact told.unique_cons _ (fun _ found => (fresh found).2) fun _ => split
  · intro message sent retained
    rcases List.mem_cons.1 sent with found | older
    · simp at found
    · exact written_mono (told.retained message older retained)

end

/-! ## Whole runs -/

/-- A journal without an unacknowledged event or heartbeat, such as an empty one. -/
def JournalState.Settled (state : JournalState) : Prop :=
  state.pendingMessage = none ∧ state.pendingHeartbeat = none

theorem told_booted {journal : JournalState} (settled : journal.Settled) (credential : Bytes) :
    Told [.booted journal credential] := by
  have silent {message : RunnerMessage} : ¬ Spoken [.booted journal credential] message := by
    rintro (member | ⟨member, _⟩)
    · simp [written, Effect.written?] at member
    · simp at member
  have file {state : JournalState} (found : fileAfter [.booted journal credential] = some state) :
      journal = state := Option.some.inj found
  refine ⟨?_, ?_, ?_, ?_, ?_, ?_, ?_⟩
  · exact fun _ _ _ spoken => absurd spoken silent
  · exact fun _ _ _ _ spoken => absurd spoken silent
  · intro state message found pending
    rw [← file found, settled.1] at pending
    simp at pending
  · intro state message found pending
    rw [← file found, settled.2] at pending
    simp at pending
  · exact List.Pairwise.nil
  · exact fun _ _ spoken => absurd spoken silent
  · exact fun message sent => by simp at sent

/-- Starting again on what a history has left behind. -/
theorem Told.reboot {past : List Effect} (told : Told past) {journal : JournalState}
    (file : fileAfter past = some journal) (credential : Bytes) :
    Told (.booted journal credential :: past) := by
  refine told.unwritten (file ▸ rfl) rfl (by simp) (by simp)

/-- Every point of a history, and the heartbeat that the session holds. -/
structure Remembered (core : Core) : Prop where
  told : ∀ past, past <:+ core.books.trace → past ≠ [] → Told past
  held : ∀ message, core.books.pendingHeartbeat = some message → message ∈ written core.books.trace

theorem fileAfter_nonempty {state : JournalState} (file : fileAfter trace = some state) :
    trace ≠ [] := by
  rintro rfl
  simp [fileAfter] at file

theorem told_cons (told : ∀ past, past <:+ trace → past ≠ [] → Told past)
    (newest : Told (effect :: trace)) :
    ∀ past, past <:+ effect :: trace → past ≠ [] → Told past := by
  intro past suffix nonempty
  rcases List.suffix_cons_iff.1 suffix with rfl | inner
  · exact newest
  · exact told past inner nonempty

/-- A message that may be sent is a known one, a fresh one that is not kept, or a live one. -/
theorem Remembered.sendable (remembered : Remembered core) (recorded : Recorded core)
    (sendable : Sendable env core.books message) :
    Told (.sent message :: core.books.trace) := by
  have told := remembered.told _ List.suffix_rfl (fileAfter_nonempty recorded)
  refine told.unwritten (fileAfter_quiet rfl) rfl (by simp) fun other same => ?_
  obtain rfl := Effect.sent.inj same
  rcases sendable with pending | held | ⟨fresh, passing⟩ | live
  · exact Or.inl (told.event _ message recorded pending)
  · exact Or.inl (remembered.held message held)
  · obtain ⟨number, later⟩ := told.fresh fresh
    refine Or.inr (Or.inr ⟨passing, fun state file => ?_, later⟩)
    rw [show fileAfter core.books.trace = some core.books.journal from recorded,
      Option.some.injEq] at file
    exact ⟨_, number, file ▸ Nat.le_refl _⟩
  · exact Or.inr (Or.inl live)

/-- What is written in a history is remembered in all of it, by induction on its strides. -/
theorem Reach.remembered {initial : JournalState → Bytes → Prop}
    (begins : ∀ journal credential, initial journal credential → journal.Settled)
    (reached : Reach env licence initial core) : Remembered core := by
  refine reached.by_strides _ ?_ ?_ ?_ ?_
  · intro journal credential outside begun _
    refine ⟨told_cons (fun past suffix nonempty => absurd (List.suffix_nil.1 suffix) nonempty)
      (told_booted (begins journal credential begun) credential), ?_⟩
    exact fun message held => by simp [bootedCore] at held
  · intro core next recorded remembered stride
    have told := remembered.told _ List.suffix_rfl (fileAfter_nonempty recorded)
    cases stride with
    | paused paused =>
      have held (message : RunnerMessage)
          (found : next.books.pendingHeartbeat = some message) :
          message ∈ written core.books.trace := by
        rcases paused.held with same | gone | taken
        · exact remembered.held message (same ▸ found)
        · simp [gone] at found
        · exact told.heartbeat _ message recorded (taken ▸ found)
      rcases paused.trace with same | ⟨effect, quiet, grown, sendable⟩
      · refine ⟨?_, ?_⟩
        · rw [same]
          exact remembered.told
        · rw [same]
          exact held
      · have newest : Told (effect :: core.books.trace) := by
          by_cases sends : ∃ message, effect = .sent message
          · obtain ⟨message, rfl⟩ := sends
            exact remembered.sendable recorded (sendable message rfl)
          refine told.unwritten (fileAfter_quiet quiet) ?_ ?_ fun message same =>
            absurd ⟨message, same⟩ sends
          · cases effect <;> first | rfl | simp [Effect.file?] at quiet
          · rintro state rfl
            simp [Effect.file?] at quiet
        rw [show next = ⟨next.books, next.hands⟩ from rfl]
        refine ⟨?_, fun message found => ?_⟩
        · change ∀ past, past <:+ next.books.trace → past ≠ [] → Told past
          rw [grown]
          exact told_cons remembered.told newest
        · change message ∈ written next.books.trace
          rw [grown]
          exact written_mono (held message found)
    | changed change state changed =>
      refine ⟨?_, fun message found => ?_⟩
      · rw [changed.trace]
        exact told_cons remembered.told (told.commit recorded changed.commits changed.reason)
      · rw [changed.trace]
        rw [changed.held] at found
        exact written_mono (remembered.held message found)
  · exact fun books hands outside remembered => ⟨remembered.told, remembered.held⟩
  intro core past journal credential outside remembered suffix file _
  have told := remembered.told past suffix (fileAfter_nonempty file)
  refine ⟨told_cons (fun older inner => remembered.told older (inner.trans suffix))
    (told.reboot file credential), ?_⟩
  exact fun message held => by simp [bootedCore] at held

/-- In every run: the events and heartbeats that are written have strictly growing numbers, the
newest first; two messages under one identity are the same, live ones apart; and an event or
heartbeat is only ever sent as it was written before.

Proof: `Remembered` is kept by every move: it says what has been written, in order of numbers. -/
theorem message_identities (env : Environment) (world : World)
    (reached : Run env (fun journal _ => journal.Settled) (fun _ _ => True) world) :
    (written world.trace).Pairwise LaterNumber ∧
    (∀ first second, Spoken world.trace first → Spoken world.trace second →
      first.messageId = second.messageId → first = second) ∧
    ∀ message past, .sent message :: past <:+ world.trace → message.isRetained = true →
      message ∈ written past := by
  obtain ⟨_, reaches, covered, _⟩ := reached.free
  have remembered := reaches.remembered fun _ _ begins => begins
  by_cases empty : world.trace = []
  · rw [empty]
    refine ⟨by simp [written], ?_, ?_⟩
    · rintro first second (member | ⟨member, _⟩)
      · simp [written] at member
      · simp at member
    · intro message past suffix
      simp at suffix
  · have told := remembered.told _ covered empty
    refine ⟨told.ordered, told.unique, fun message past suffix retained => ?_⟩
    have here := remembered.told _ (suffix.trans covered) (by simp)
    exact here.retained message List.mem_cons_self retained

/-- An offer is accepted and its acceptance acknowledged: a heartbeat and two events are written. -/
theorem message_identities_preparing :
    ∃ world, Run sampleClient (fun journal _ => journal.Settled) (fun _ _ => True) world ∧
      (written world.trace).length = 3 ∧ (written world.trace).Pairwise LaterNumber := by
  have begun : Run sampleClient (fun journal _ => journal.Settled) (fun _ _ => True)
      (sampleBoot emptyJournal) := .start _ _ _ _ ⟨rfl, rfl⟩ (empty_valid _)
  have computed : (performAll sampleClient 1
      (acceptedOffer 1000 ++ [acceptanceApplied 1002 4]) (sampleBoot emptyJournal)).map
      (fun world => (written world.trace).length) = some 3 := by
    decide +kernel
  obtain ⟨world, performed, three⟩ := Option.map_eq_some_iff.1 computed
  have reached := begun.performAll (fun _ _ _ => trivial) performed
  exact ⟨world, reached, three, (message_identities sampleClient world reached).1⟩

/-! ## Live evidence in two processes -/

/-- A batch of log entries of which some were dropped. -/
def sampleBatch (dropped : Nat) : LogBatch :=
  ⟨some (sampleLease 2000), some sampleAttempt, [], dropped⟩

/-- A job that sends one batch and whose lease then ends; its acceptance has the given number. -/
def batchJob (seconds : Int) (number : UInt64) (dropped : Nat) :
    List (Action × (Nat → Response)) :=
  preparedJob seconds number ++
    [(.work (.evidence ⟨1, some (sampleLease 2000), some sampleAttempt, some (sampleBatch dropped),
        none, false⟩), sampleAnswers (seconds + 4)),
      (.takeWorkerEvent, sampleAnswers (seconds + 4)),
      (.work (.start 7), sampleAnswers (seconds + 5)),
      (.takeWorkerEvent, sampleAnswers (seconds + 5)),
      sampleDelivery (seconds + 6) (sampleAcknowledgement "started" (seconds + 6) (number + 2)
        (sampleReconciliation 2000 .applied .expired .running))]

/-- The message as which a batch is sent. -/
def batchMessage (seconds : Int) (dropped : Nat) : RunnerMessage :=
  ⟨liveId 1, some (Timestamp.ofTime (sampleTime seconds)), some (.logBatch (sampleBatch dropped))⟩

/-- The counter of live messages starts anew with each process: two processes on one journal send
different batches under one identity. -/
theorem live_identity_repeated :
    ∃ world, Run sampleClient (fun journal _ => journal.Settled) (fun _ _ => True) world ∧
      .sent (batchMessage 1004 1) ∈ world.trace ∧ .sent (batchMessage 1014 2) ∈ world.trace ∧
      (batchMessage 1004 1).messageId = (batchMessage 1014 2).messageId ∧
      (batchMessage 1004 1).payload ≠ (batchMessage 1014 2).payload := by
  have begun : Run sampleClient (fun journal _ => journal.Settled) (fun _ _ => True)
      (sampleBoot emptyJournal) := .start _ _ _ _ ⟨rfl, rfl⟩ (empty_valid _)
  have computed : (performAround sampleClient 1 (batchJob 1000 4 1) (batchJob 1010 9 2)
      (sampleBoot emptyJournal)).map (fun last =>
        decide (.sent (batchMessage 1004 1) ∈ last.trace) &&
          decide (.sent (batchMessage 1014 2) ∈ last.trace)) = some true := by
    decide +kernel
  obtain ⟨world, performed, sent⟩ := Option.map_eq_some_iff.1 computed
  simp only [Bool.and_eq_true, decide_eq_true_eq] at sent
  have reached := begun.performAround performed
  exact ⟨world, reached, sent.1, sent.2, rfl, by decide⟩

end ProvenanceRunner.Gateway
