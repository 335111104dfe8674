import ProvenanceRunner.Gateway.History

/-! # The durable state

Every journal that is ever written is valid, the journal in memory agrees with the file as long as
the process goes on, and no turn of the process dereferences a missing job. -/

namespace ProvenanceRunner.Gateway

open Utf8

variable {env : Environment}

/-- A pending event that is not a rejection belongs to the active job. -/
def JournalState.Owned (state : JournalState) : Prop :=
  ∀ message, state.pendingMessage = some message → message.isRejection = false →
    activeMatchesIdentity state.active (runnerMessageIdentity message).1
      (runnerMessageIdentity message).2 = true

theorem valid_owned {state : JournalState} (valid : state.Valid env.toJournalEnvironment) :
    state.Owned :=
  fun _ pending kept => pending_belongs valid pending kept

/-- The core of a run in which anything may happen. -/
theorem Run.free {initial : JournalState → Bytes → Prop} {allowed : World → Action → Prop}
    {world : World} (reached : Run env initial allowed world) :
    ∃ core, Reach env .all initial core ∧ world.trace <:+ core.books.trace ∧
      (world.stage ≠ .ended → core = coreOf world) :=
  reached.reach .all trivial fun world action _ => disciplined_all env world action

theorem Reach.journals_valid {licence : Licence} {initial : JournalState → Bytes → Prop}
    {core : Core} (reached : Reach env licence initial core) :
    EveryJournal (fun journal => journal.Valid env.toJournalEnvironment) core.books.trace :=
  reached.every_journal (fun _ _ _ valid => valid) fun _ _ _ _ commits _ => commits.2

theorem turn_calm {world : World} (sound : (coreOf world).books.Sound env) (rounds : Nat)
    (action : Action) (final : World) :
    turn env rounds action world ≠ some (.error .nilDereference final) := by
  intro turned
  have acts := acts_turn rounds action _ sound (disciplined_all env world action) turned
  exact acts.1 rfl

/-- In every run, from any valid journal: every journal file of the history is valid and holds a
pending event only for the active job or as a rejection; the journal in memory is the file while
the process goes on; and no turn panics.

Proof: the journal of every reachable core is sound, and a turn from a sound one is calm. -/
theorem durable_state_invariant (env : Environment) (world : World)
    (reached : Run env (fun _ _ => True) (fun _ _ => True) world) :
    EveryJournal (fun journal => journal.Valid env.toJournalEnvironment ∧ journal.Owned)
      world.trace ∧
    (world.stage ≠ .ended → world.file = world.client.journal ∧
      world.client.journal.Valid env.toJournalEnvironment ∧ world.client.journal.Owned) ∧
    ∀ rounds outside action final,
      turn env rounds action (world.before outside) ≠ some (.error .nilDereference final) := by
  obtain ⟨_, reaches, covered, same⟩ := reached.free
  refine ⟨?_, fun going => ?_, fun rounds outside action final turned => ?_⟩
  · intro past journal suffix file
    have valid := reaches.journals_valid past journal (suffix.trans covered) file
    exact ⟨valid, valid_owned valid⟩
  · obtain rfl := same going
    exact ⟨reaches.sound.same, reaches.sound.valid, valid_owned reaches.sound.valid⟩
  have going : world.stage ≠ .ended := by
    intro ended
    have ended' : (world.before outside).stage = .ended := ended
    simp [turn, ended'] at turned
  obtain rfl := same going
  have begun : (coreOf (world.before outside)).books.Sound env := reaches.sound
  exact turn_calm begun rounds action final turned

/-- The write that records the applied acceptance of the sample job reports an error, though the new
journal stands in the file. The process stops, starts again on that file and opens a stream. -/
def stoppedAtWrite : Option World :=
  performAround sampleClient 1
    (acceptedOffer 1000 ++ [((acceptanceApplied 1002 4).1,
      fun _ => { now := sampleTime 1002, persisted := .unsynced false })])
    [(.openStream (sampleOpening 1010), sampleAnswers 1010)] (sampleBoot emptyJournal)

/-- After the failed write and the restart the process goes on with the journal in the file. -/
theorem durable_state_restarted :
    ∃ world, Run sampleClient (fun _ _ => True) (fun _ _ => True) world ∧
      world.stage = .streaming ∧ world.client.journal.active.map (·.phase) = some .accepted ∧
      world.file = world.client.journal ∧
      world.client.journal.Valid sampleClient.toJournalEnvironment := by
  have computed : stoppedAtWrite.map (fun world => (world.stage,
      world.client.journal.active.map (·.phase))) = some (.streaming, some .accepted) := by
    decide +kernel
  obtain ⟨world, performed, facts⟩ := Option.map_eq_some_iff.1 computed
  simp only [Prod.mk.injEq] at facts
  have begun : Run sampleClient (fun _ _ => True) (fun _ _ => True) (sampleBoot emptyJournal) :=
    .start _ _ _ _ trivial (empty_valid _)
  have reached := begun.performAround performed
  have going := (durable_state_invariant sampleClient world reached).2.1 (by simp [facts.1])
  exact ⟨world, reached, facts.1, facts.2, going.1, going.2.1⟩

end ProvenanceRunner.Gateway
