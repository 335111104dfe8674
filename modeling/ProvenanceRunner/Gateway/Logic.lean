import ProvenanceRunner.Gateway.Moves

/-! # Reasoning about handlers

`Acts view start program world post` says that a program, run in a world, leads by moves of the core
from `start` to the core of the world it ends in, and that an answer satisfies `post`. When the
program fails, the process may go on in that world if the failure is transient; otherwise only the
history counts, because the memory of the process is never read again. A panic is excluded.

`view` reads the core of a world. It is `coreOf`, or the books of the world beside a fixed state of
the worker's events, while one of these events is being handled. -/

namespace ProvenanceRunner.Gateway

open Programs

/-! ## Worlds after the elementary operations -/

/-- One outside answer has been used up. -/
def World.asked (world : World) : World := { world with consumed := world.consumed + 1 }

/-- A change has been committed. -/
def World.committed (world : World) (change : JournalChange) (state : JournalState) : World :=
  { world with
    client := { world.client with journal := state }
    file := state
    consumed := world.consumed + 1
    trace := .committed change state :: world.trace }

/-- A change has failed halfway, in memory only. -/
def World.spoiled (world : World) (state : JournalState) : World :=
  { world with
    client := { world.client with journal := state }
    consumed := world.consumed + 1 }

/-- An effect has been noted. -/
def World.noted (world : World) (effect : Effect) : World :=
  { world with trace := effect :: world.trace }

@[simp] theorem booksOf_committed (world : World) (change : JournalChange) (state : JournalState) :
    booksOf (world.committed change state) = (booksOf world).commit change state := rfl
@[simp] theorem handsOf_noted (world : World) (effect : Effect) :
    handsOf (world.noted effect) = handsOf world := rfl

theorem coreOf_eq (world : World) : coreOf world = ⟨booksOf world, handsOf world⟩ := rfl

/-! ## Elementary programs in front of others -/

section

variable {α : Type} (world : World) (post : Except Failure α → World → Prop)

theorem ends_get_bind (next : World → Handler α) :
    Ends (get >>= next) world post ↔ Ends (next world) world post := Iff.rfl

theorem ends_snapshot_bind (next : JournalState → Handler α) :
    Ends (snapshot >>= next) world post ↔ Ends (next world.client.journal) world post := Iff.rfl

theorem ends_ask_bind (next : Response → Handler α) :
    Ends (ask >>= next) world post ↔
      Ends (next (world.responses world.consumed)) world.asked post := Iff.rfl

theorem ends_readClock_bind (next : Int → Handler α) :
    Ends (readClock >>= next) world post ↔
      Ends (next (world.responses world.consumed).now) world.asked post := Iff.rfl

theorem ends_record_bind (effect : Effect) (next : Unit → Handler α) :
    Ends (record effect >>= next) world post ↔ Ends (next ()) (world.noted effect) post := Iff.rfl

theorem ends_modifyClient_bind (change : Client → Client) (next : Unit → Handler α) :
    Ends (modifyClient change >>= next) world post ↔
      Ends (next ()) { world with client := change world.client } post := Iff.rfl

theorem ends_modifySession_bind (change : Session → Session) (next : Unit → Handler α) :
    Ends (modifySession change >>= next) world post ↔
      Ends (next ()) { world with session := change world.session } post := Iff.rfl

end

section

variable (env : Environment)

/-- An update of the journal ends in one of four ways. -/
theorem ends_update (change : JournalChange) (world : World) (post : Except Failure Unit →
    World → Prop)
    (done : ∀ state, Commits env (booksOf world) change state →
      post (.ok ()) (world.committed change state))
    (unsynced : ∀ state transient, Commits env (booksOf world) change state →
      (world.responses world.consumed).persisted = .unsynced transient →
      post (.error (.io transient)) (world.committed change state))
    (refused : ∀ failure, failure ≠ .nilDereference → failure ≠ .unfinished →
      (failure.transient = true → (world.responses world.consumed).persisted = .refused true) →
      post (.error failure) world.asked)
    (failed : ∀ state failure,
      change.apply env.toJournalEnvironment world.client.journal = (state, some failure) →
      post (.error failure) (world.spoiled state)) :
    Ends (update env change) world post := by
  have cases := (Journal.mk world.client.journal world.file).update_cases env.toJournalEnvironment
    change (world.responses world.consumed).persisted
  unfold Ends update
  rcases cases with ⟨state, failure, applied, ended⟩ | ⟨failure, io, nil, endless, ended⟩ |
    ⟨state, applied, valid, written, ended⟩
  · simp only [ended]
    exact failed state failure applied
  · simp only [ended]
    exact refused failure nil endless io
  simp only [ended, if_true]
  cases persisted : (world.responses world.consumed).persisted with
  | done => exact done state ⟨applied, valid⟩
  | refused transient => exact absurd persisted (written transient)
  | unsynced transient => exact unsynced state transient ⟨applied, valid⟩ persisted

/-! ## The judgement -/

variable (licence : Licence)

/-- Entries about an event that was cleared to be queued again. -/
def ClearingNote : Effect → Prop
  | .committed .clearPending _ | .committed .nextMessageSequence _ | .settled _ => True
  | _ => False

/-- The history of a process that has given up is part of the history of the core. Where an event
that ends the job may not be lost, the process may give up while it puts another in its place. -/
def Covers (core : Core) (trace : List Effect) : Prop :=
  trace <:+ core.books.trace ∨ (¬ licence.lostEnd ∧ ∃ notes : List Effect,
    (∀ effect ∈ notes, ClearingNote effect) ∧ trace = notes ++ core.books.trace)

/-- The end of a program, seen from the core it started at. -/
def Reached {α : Type} (view : World → Core) (start : Core) (post : α → World → Prop) :
    Except Failure α → World → Prop
  | .ok answer, world => Moves env licence start (view world) ∧ post answer world
  | .error failure, world => failure ≠ .nilDereference ∧
      ∃ core, Moves env licence start core ∧ Covers licence core world.trace ∧
        (failure.transient = true → core = view world)

def Acts {α : Type} (view : World → Core) (start : Core) (program : Handler α) (world : World)
    (post : α → World → Prop) : Prop :=
  Ends program world (Reached env licence view start post)

variable {env licence} {α β : Type} {view : World → Core} {start : Core} {world : World}
  {post : α → World → Prop}

theorem Acts.bind {program : Handler β} {next : β → Handler α} {middle : β → World → Prop}
    (first : Acts env licence view start program world middle)
    (second : ∀ answer between, Moves env licence start (view between) → middle answer between →
      Acts env licence view start (next answer) between post) :
    Acts env licence view start (program >>= next) world post :=
  Ends.bind first (fun answer between reached => second answer between reached.1 reached.2)
    (fun _ _ stopped => stopped)

theorem Acts.mono {weaker : α → World → Prop} {program : Handler α}
    (acts : Acts env licence view start program world post)
    (implied : ∀ answer final, post answer final → weaker answer final) :
    Acts env licence view start program world weaker := by
  refine Ends.mono acts fun result final reached => ?_
  cases result with
  | ok answer => exact ⟨reached.1, implied answer final reached.2⟩
  | error => exact reached

theorem Acts.pure (answer : α) (reached : Moves env licence start (view world))
    (holds : post answer world) :
    Acts env licence view start (Pure.pure answer) world post := ⟨reached, holds⟩

/-- A failure other than a panic, in a world that the core has followed. -/
theorem Acts.throw (failure : Failure) (reached : Moves env licence start (view world))
    (traces : (view world).books.trace = world.trace) (sane : failure ≠ .nilDereference) :
    Acts env licence view start (throw failure : Handler α) world post :=
  ⟨sane, view world, reached, Or.inl (traces ▸ List.suffix_rfl), fun _ => rfl⟩

theorem acts_get_bind (next : World → Handler α) :
    Acts env licence view start (get >>= next) world post ↔
      Acts env licence view start (next world) world post := Iff.rfl

theorem acts_snapshot_bind (next : JournalState → Handler α) :
    Acts env licence view start (snapshot >>= next) world post ↔
      Acts env licence view start (next world.client.journal) world post := Iff.rfl

theorem acts_ask_bind (next : Response → Handler α) :
    Acts env licence view start (ask >>= next) world post ↔
      Acts env licence view start (next (world.responses world.consumed)) world.asked post :=
  Iff.rfl

theorem acts_readClock_bind (next : Int → Handler α) :
    Acts env licence view start (readClock >>= next) world post ↔
      Acts env licence view start (next (world.responses world.consumed).now) world.asked post :=
  Iff.rfl

theorem acts_record_bind (effect : Effect) (next : Unit → Handler α) :
    Acts env licence view start (record effect >>= next) world post ↔
      Acts env licence view start (next ()) (world.noted effect) post := Iff.rfl

theorem acts_modifyClient_bind (change : Client → Client) (next : Unit → Handler α) :
    Acts env licence view start (modifyClient change >>= next) world post ↔
      Acts env licence view start (next ()) { world with client := change world.client } post :=
  Iff.rfl

theorem acts_modifySession_bind (change : Session → Session) (next : Unit → Handler α) :
    Acts env licence view start (modifySession change >>= next) world post ↔
      Acts env licence view start (next ()) { world with session := change world.session } post :=
  Iff.rfl

theorem acts_modify_bind (change : World → World) (next : PUnit → Handler α) :
    Acts env licence view start (modify change >>= next) world post ↔
      Acts env licence view start (next ⟨⟩) (change world) post := Iff.rfl

theorem acts_pure_bind (answer : β) (next : β → Handler α) :
    Acts env licence view start (Pure.pure answer >>= next) world post ↔
      Acts env licence view start (next answer) world post := Iff.rfl

end

end ProvenanceRunner.Gateway
