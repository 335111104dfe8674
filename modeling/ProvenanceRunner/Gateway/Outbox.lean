import ProvenanceRunner.Gateway.Restart

/-! # The journal as an outbox

Seen from the gateway the journal has three places: one for the lease of the active job, one for an
event and one for a heartbeat. What may happen to them is a small machine of its own. Every journal
file follows from the one before it by a step of that machine, also over crashes and restarts. -/

namespace ProvenanceRunner.Gateway

open Utf8

structure Outbox where
  lease : Option (Option Identity)
  event : Option RunnerMessage
  heartbeat : Option RunnerMessage

def JournalState.outbox (state : JournalState) : Outbox where
  lease := state.active.map JournalJob.identity
  event := state.pendingMessage
  heartbeat := state.pendingHeartbeat

/-- Nothing is put into a place that is taken. A lease comes with the event that accepts it, is not
exchanged for another, and takes a pending event with it when it goes. -/
inductive Outbox.Step (box : Outbox) : Outbox → Prop where
  | rest : Step box box
  | queue (message : RunnerMessage) (free : box.event = none) :
    Step box { box with event := some message }
  | accept (message : RunnerMessage) (free : box.event = none) (idle : box.lease = none)
    (acceptance : message.isAcceptance) :
    Step box { box with
      lease := some (identityOf (runnerMessageIdentity message).1 (runnerMessageIdentity message).2)
      event := some message }
  | settle : Step box { box with event := none }
  | finish : Step box { box with lease := none, event := none }
  | beat (message : RunnerMessage) (free : box.heartbeat = none) :
    Step box { box with heartbeat := some message }
  | answered : Step box { box with heartbeat := none }

variable {env : Environment} {licence : Licence} {core : Core} {change : JournalChange}
  {state : JournalState}

/-! ## One change -/

/-- A committed change is a step of the outbox. -/
theorem Commits.outbox (commits : Commits env core.books change state)
    (reason : Reason env licence core change) :
    Outbox.Step core.books.journal.outbox state.outbox := by
  have applied := commits.1
  cases change with
  | reconcile reconciliation =>
    obtain ⟨job, lease, active, given, matching, _, rfl⟩ := commits_reconcile commits
    rw [active, given] at matching
    simp only [JournalState.outbox, active, Option.map_some, applied_identity _ matching]
    exact .rest
  | recordCancellation =>
    obtain ⟨job, active, rfl⟩ := commits_recordCancellation commits
    simp only [JournalState.outbox, active]
    exact .rest
  | queueDurable message mutation =>
    obtain ⟨free, queued⟩ := commits_queueDurable commits
    cases queued with
    | keep => exact .queue message free
    | phase phase job active =>
      simp only [JournalState.outbox, active, Option.map_some]
      exact .queue message free
    | accept job idle =>
      have origin : message.isAcceptance ∧ job.identity =
          identityOf (runnerMessageIdentity message).1 (runnerMessageIdentity message).2 := by
        cases reason with
        | permitted _ permitted => exact ⟨permitted.2.1, permitted.2.2.2.2.2⟩
        | cancels _ cancels => exact absurd cancels id
      simp only [JournalState.outbox, idle, Option.map_some, origin.2]
      exact .accept message free rfl origin.1
  | storeHeartbeat message =>
    obtain ⟨free, rfl⟩ := commits_storeHeartbeat commits
    exact .beat message free
  | clearPending =>
    obtain ⟨rfl, _⟩ := Prod.mk.inj applied
    exact .settle
  | finish =>
    obtain ⟨rfl, _⟩ := Prod.mk.inj applied
    exact .finish
  | clearHeartbeat =>
    obtain ⟨rfl, _⟩ := Prod.mk.inj applied
    exact .answered
  | _ =>
    simp only [JournalChange.apply] at applied
    repeat' split at applied
    all_goals
      obtain ⟨rfl, _⟩ := Prod.mk.inj applied
      exact .rest

/-! ## Whole runs -/

/-- The second journal file is a step of the outbox away from the first. -/
def FollowsOutbox (before after : JournalState) : Prop := Outbox.Step before.outbox after.outbox

/-- Every run of the client, from any valid journal and with crashes anywhere, drives the journal as
an outbox: no event or heartbeat is overwritten, and no lease is exchanged for another.

Proof: each commit is a step of the outbox (`Commits.outbox`). -/
theorem journal_refines_outbox (env : Environment) (world : World)
    (reached : Run env (fun _ _ => True) (fun _ _ => True) world) :
    EveryStep FollowsOutbox world.trace := by
  obtain ⟨_, reaches, covered, _⟩ := reached.free
  have steps := reaches.every_step FollowsOutbox (fun _ => .rest) (fun _ _ _ _ => trivial)
    fun _ _ _ _ commits reason => ⟨commits.outbox reason, trivial⟩
  exact steps.1.suffix covered

/-- An accepted offer, a restart, and the same offer again. -/
theorem journal_refines_outbox_interrupted :
    ∃ world, Run sampleClient (fun _ _ => True) (fun _ _ => True) world ∧
      EveryStep FollowsOutbox world.trace := by
  obtain ⟨world, ran, _⟩ := Option.map_eq_some_iff.1 interrupted_rejects
  exact ⟨world, .interrupted ran, journal_refines_outbox sampleClient world (.interrupted ran)⟩

end ProvenanceRunner.Gateway
