import ProvenanceRunner.Gateway.Rotation
import Mathlib.Data.List.Infix

/-! # Restarts and the credential

A process that starts with an identity key refuses a credential file that neither the identity nor
the journal accounts for. The file and the journal are two stores, and the process can stop between
any two of their writes. As long as every rotation is a proper successor of the bound credential,
whatever the two stores hold after a crash passes the check until the stored credential expires. -/

namespace ProvenanceRunner.Gateway

open Utf8

variable {change : JournalChange}

variable {env : Environment} {licence : Licence}

/-! ## The check -/

/-- The credential that the runner was enrolled with. -/
def matchesCredential (env : Environment) (enrolled credential : Bytes) : Bool :=
  !credential.isEmpty && env.sha256 credential == enrolled

/-- The check of the credential file at the start of a process. -/
def credentialBound (env : Environment) (enrolled : Bytes) (journal : JournalState)
    (credential : Bytes) (now : Int) : Bool :=
  !env.identityKeyFile || matchesCredential env enrolled credential ||
    credentialMatchesCommittedRotation env journal env.runnerID credential now

/-- The expiry of the credential in the file, once a rotation has installed it. -/
def expiryAfter : List Effect → Option Int
  | .replaced _ :: .committed (.beginRotation metadata) _ :: _ => some metadata.expiresAt
  | .replaced _ :: _ => none
  | _ :: past => expiryAfter past
  | [] => none

theorem expiryAfter_cons {effect : Effect} {past : List Effect}
    (other : ∀ credential, effect ≠ .replaced credential) :
    expiryAfter (effect :: past) = expiryAfter past := by
  cases effect with
  | replaced credential => exact absurd rfl (other credential)
  | _ => rfl

/-! ## Journals that account for the credential -/

/-- The entries of the journal are bound to the runner, a pending rotation is a proper successor of
the bound credential, and a persisted one has a bound credential beside it. -/
structure JournalState.Bound (env : Environment) (state : JournalState) : Prop where
  committed : ∀ committed, state.committedCredential = some committed →
    committed.runnerID = env.runnerID
  rotation : ∀ rotation, state.credentialRotation = some rotation →
    rotation.runnerID = env.runnerID ∧
    (rotation.persistedAt = 0 → Succeeds state.committedCredential rotation) ∧
    (rotation.persistedAt ≠ 0 → ∃ committed, state.committedCredential = some committed ∧
      sameCommitted committed rotation = true)

/-- One of the two entries has this fingerprint and does not expire earlier. -/
def JournalState.Holds (state : JournalState) (fingerprint : Bytes) (expiry : Int) : Prop :=
  (∃ committed, state.committedCredential = some committed ∧
    committed.fingerprint = fingerprint ∧ expiry ≤ committed.expiresAt) ∨
  ∃ rotation, state.credentialRotation = some rotation ∧
    rotation.fingerprint = fingerprint ∧ expiry ≤ rotation.expiresAt

/-- The journal accounts for the credential in the file. -/
structure Accounts (env : Environment) (enrolled : Bytes) (state : JournalState)
    (credential : Bytes) (expiry : Option Int) : Prop where
  bound : state.Bound env
  holds : matchesCredential env enrolled credential = true ∨
    credential ≠ [] ∧ ∃ time, expiry = some time ∧ state.Holds (env.sha256 credential) time

theorem sameCommitted_facts {committed : JournalCommittedCredential}
    {rotation : JournalCredentialRotation} (same : sameCommitted committed rotation = true) :
    committed.rotationID = rotation.rotationID ∧ committed.fingerprint = rotation.fingerprint ∧
      committed.expiresAt = rotation.expiresAt := by
  simp only [sameCommitted, Bool.and_eq_true, beq_iff_eq] at same
  exact ⟨same.1.1.1.1.2, same.1.1.1.2, same.1.2⟩

/-- A credential that the journal accounts for passes the check until it expires. -/
theorem Accounts.accepted {enrolled credential : Bytes} {state : JournalState}
    {expiry : Option Int} (accounts : Accounts env enrolled state credential expiry) (now : Int)
    (early : ∀ time, expiry = some time → now < time) :
    credentialBound env enrolled state credential now = true := by
  unfold credentialBound
  rcases accounts.holds with enrolls | ⟨nonempty, time, expires, holds⟩
  · simp [enrolls]
  suffices found : credentialMatchesCommittedRotation env state env.runnerID credential
      now = true by
    simp [found]
  have before := early time expires
  have present : credential.isEmpty = false := by simpa using nonempty
  unfold credentialMatchesCommittedRotation
  rw [present, Bool.not_false, Bool.true_and]
  cases pending : state.credentialRotation with
  | none =>
    rcases holds with ⟨committed, binds, named, later⟩ | ⟨rotation, other, _⟩
    · have current : now < committed.expiresAt := by omega
      simp [binds, accounts.bound.committed committed binds, named, current]
    · simp [pending] at other
  | some rotation =>
    obtain ⟨runner, succeeds, persisted⟩ := accounts.bound.rotation rotation pending
    dsimp only
    by_cases fresh : rotation.persistedAt = 0
    · rw [if_pos fresh]
      rcases holds with ⟨committed, binds, named, later⟩ | ⟨other, stands, named, later⟩
      · obtain ⟨precedes, outlives⟩ := succeeds fresh committed binds
        have current : now < committed.expiresAt := by omega
        have going : now < rotation.expiresAt := by omega
        simp [binds, runner, precedes, named, current, going]
      · obtain rfl := Option.some.inj (pending.symm.trans stands)
        have going : now < rotation.expiresAt := by omega
        cases binds : state.committedCredential with
        | none => simp [runner, named, going]
        | some committed => simp [runner, (succeeds fresh committed binds).1, named, going]
    · rw [if_neg fresh]
      obtain ⟨committed, binds, same⟩ := persisted fresh
      obtain ⟨identity, fingerprint, expiry⟩ := sameCommitted_facts same
      have both : committed.fingerprint = env.sha256 credential ∧ now < committed.expiresAt := by
        rcases holds with ⟨other, binds', named, later⟩ | ⟨other, stands, named, later⟩
        · obtain rfl := Option.some.inj (binds.symm.trans binds')
          exact ⟨named, by omega⟩
        · obtain rfl := Option.some.inj (pending.symm.trans stands)
          exact ⟨fingerprint.trans named, by omega⟩
      simp [binds, accounts.bound.committed committed binds, runner, ← identity, ← fingerprint,
        both.1, both.2]

/-! ## Changes of the journal -/

/-- A change that is not part of a rotation leaves both entries alone. -/
def JournalChange.rotates : JournalChange → Bool
  | .beginRotation _ | .commitRotation _ _ | .reconcileRotation _ _ _ => true
  | _ => false

theorem commits_credentials {books : Books} {state : JournalState}
    (commits : Commits env books change state) (other : change.rotates = false) :
    state.credentialRotation = books.journal.credentialRotation ∧
      state.committedCredential = books.journal.committedCredential := by
  have applied := commits.1
  cases change with
  | beginRotation | commitRotation | reconcileRotation => simp [JournalChange.rotates] at other
  | _ =>
    simp only [JournalChange.apply] at applied
    repeat' split at applied
    all_goals first
      | simp at applied; done
      | (obtain ⟨rfl, _⟩ := Prod.mk.inj applied; exact ⟨rfl, rfl⟩)

theorem Accounts.of_same {enrolled credential : Bytes} {state next : JournalState}
    {expiry : Option Int} (accounts : Accounts env enrolled state credential expiry)
    (rotation : next.credentialRotation = state.credentialRotation)
    (committed : next.committedCredential = state.committedCredential) :
    Accounts env enrolled next credential expiry := by
  obtain ⟨⟨bound, pending⟩, holds⟩ := accounts
  refine ⟨⟨?_, ?_⟩, ?_⟩
  · rw [committed]
    exact bound
  · rw [rotation, committed]
    exact pending
  · unfold JournalState.Holds at holds ⊢
    rw [rotation, committed]
    exact holds

theorem sameCredentialRotation_facts {left right : JournalCredentialRotation}
    (same : sameCredentialRotation left right = true) :
    left.rotationID = right.rotationID ∧ left.fingerprint = right.fingerprint ∧
      left.issuedAt = right.issuedAt ∧ left.expiresAt = right.expiresAt := by
  simp only [sameCredentialRotation, Bool.and_eq_true, beq_iff_eq] at same
  exact ⟨same.1.1.1.1.2, same.1.1.1.2, same.1.1.2, same.1.2⟩

theorem runnerID_nonempty (env : Environment) : env.runnerID.isEmpty = false := by
  have canonical := env.runnerID_canonical
  cases empty : env.runnerID with
  | nil =>
    rw [empty] at canonical
    revert canonical
    decide +kernel
  | cons => rfl

section

variable {books : Books} {state : JournalState} {enrolled credential : Bytes} {expiry : Option Int}
  {metadata rotation : JournalCredentialRotation} {now : Int}

/-- A rotation is entered beside the bound credential, or it is already there. -/
theorem Accounts.begin (accounts : Accounts env enrolled books.journal credential expiry)
    (commits : Commits env books (.beginRotation metadata) state)
    (runner : metadata.runnerID = env.runnerID) (unpersisted : metadata.persistedAt = 0)
    (order : books.journal.credentialRotation ≠ none ∨
      Succeeds books.journal.committedCredential metadata) :
    Accounts env enrolled state credential expiry ∧ ∃ rotation,
      state.credentialRotation = some rotation ∧ rotation.fingerprint = metadata.fingerprint ∧
        rotation.expiresAt = metadata.expiresAt := by
  have applied := commits.1
  simp only [JournalChange.apply] at applied
  cases pending : books.journal.credentialRotation with
  | none =>
    simp only [pending, Prod.mk.injEq, and_true] at applied
    subst applied
    have succeeds := order.resolve_left (by simp [pending])
    refine ⟨⟨⟨accounts.bound.committed, fun rotation entered => ?_⟩, ?_⟩, metadata, rfl, rfl, rfl⟩
    · obtain rfl := Option.some.inj entered
      exact ⟨runner, fun _ => succeeds, fun persisted => absurd unpersisted persisted⟩
    refine accounts.holds.imp_right ?_
    rintro ⟨nonempty, time, expires, holds⟩
    refine ⟨nonempty, time, expires, holds.imp_right ?_⟩
    rintro ⟨rotation, stands, _⟩
    simp [pending] at stands
  | some rotation =>
    have kept : rotation.runnerID.isEmpty = false :=
      (accounts.bound.rotation rotation pending).1 ▸ runnerID_nonempty env
    simp only [pending, kept] at applied
    split at applied
    · simp at applied
    case isFalse same =>
      simp only [Bool.false_eq_true, if_false, Prod.mk.injEq, and_true] at applied
      subst applied
      have same : sameCredentialRotation rotation metadata = true := by simpa using same
      obtain ⟨_, fingerprint, _, expires⟩ := sameCredentialRotation_facts same
      exact ⟨accounts, rotation, pending, fingerprint, expires⟩

/-- A journal that has both entries only under different fingerprints holds the pending one under
its own. -/
theorem JournalState.Bound.holds_rotation {journal : JournalState} (bound : journal.Bound env)
    {time : Int} (pending : journal.credentialRotation = some rotation)
    (holds : journal.Holds rotation.fingerprint time) : time ≤ rotation.expiresAt := by
  obtain ⟨_, succeeds, persisted⟩ := bound.rotation rotation pending
  rcases holds with ⟨committed, binds, named, later⟩ | ⟨_, stands, named, later⟩
  · by_cases fresh : rotation.persistedAt = 0
    · have precedes := (succeeds fresh committed binds).1
      simp only [validCredentialPredecessor, Bool.and_eq_true, bne_iff_ne] at precedes
      exact absurd named precedes.1.1.2
    · obtain ⟨_, binds', same⟩ := persisted fresh
      obtain rfl := Option.some.inj (binds.symm.trans binds')
      exact (sameCommitted_facts same).2.2 ▸ later
  · obtain rfl := Option.some.inj (pending.symm.trans stands)
    exact later

/-- The credential of a rotation is bound after it has been installed. -/
theorem Accounts.commit (accounts : Accounts env enrolled books.journal credential expiry)
    (commits : Commits env books (.commitRotation metadata now) state)
    (named : env.sha256 credential = metadata.fingerprint) :
    Accounts env enrolled state credential expiry := by
  obtain ⟨applied, valid⟩ := commits
  simp only [JournalChange.apply] at applied
  cases pending : books.journal.credentialRotation with
  | none => simp [pending] at applied
  | some rotation =>
    simp only [pending] at applied
    split at applied
    · simp at applied
    case isFalse same =>
      have same : sameCredentialRotation rotation metadata = true := by simpa using same
      obtain ⟨identity, fingerprint, issued, expires⟩ := sameCredentialRotation_facts same
      obtain ⟨rfl, _⟩ := Prod.mk.inj applied
      have runner := (accounts.bound.rotation rotation pending).1
      have checked := (valid_parts valid).1
      simp only [credentialsError, orElse_eq_none, Option.bind_some, refuse_eq_none] at checked
      have persisted := ((committedError_eq_none_iff _).1 checked.2.1).2.2.2.2.2.1
      refine ⟨⟨?_, ?_⟩, ?_⟩
      · rintro committed binds
        obtain rfl := Option.some.inj binds
        rfl
      · rintro other entered
        obtain rfl := Option.some.inj entered
        refine ⟨runner, fun zero => absurd zero persisted, fun _ => ⟨_, rfl, ?_⟩⟩
        simp [sameCommitted, committedOf, runner, identity, fingerprint, issued, expires]
      · refine accounts.holds.imp_right ?_
        rintro ⟨nonempty, time, before, holds⟩
        refine ⟨nonempty, time, before, Or.inl ⟨_, rfl, named.symm, ?_⟩⟩
        rw [named, ← fingerprint] at holds
        exact Int.le_trans (accounts.bound.holds_rotation pending holds) (Int.le_of_eq expires)

/-- After an authentication with the new credential the rotation is over. -/
theorem Accounts.reconcile (accounts : Accounts env enrolled books.journal credential expiry)
    (commits : Commits env books (.reconcileRotation rotation true now) state)
    (pending : books.journal.credentialRotation = some rotation)
    (named : env.sha256 credential = rotation.fingerprint) :
    Accounts env enrolled state credential expiry := by
  obtain ⟨runner, _, persisted⟩ := accounts.bound.rotation rotation pending
  have applied := commits.1
  have same : sameCredentialRotation rotation rotation = true := by simp [sameCredentialRotation]
  simp only [JournalChange.apply, pending, same, Bool.not_true, Bool.false_eq_true, if_false]
    at applied
  split at applied
  · simp at applied
  split at applied
  · split at applied
    · simp at applied
    obtain ⟨rfl, _⟩ := Prod.mk.inj applied
    refine ⟨⟨?_, by simp⟩, ?_⟩
    · rintro committed binds
      obtain rfl := Option.some.inj binds
      exact runner
    · refine accounts.holds.imp_right ?_
      rintro ⟨nonempty, time, before, holds⟩
      refine ⟨nonempty, time, before, Or.inl ⟨_, rfl, named.symm, ?_⟩⟩
      exact accounts.bound.holds_rotation pending (named ▸ holds)
  case isFalse kept =>
    split at applied
    · simp at applied
    obtain ⟨rfl, _⟩ := Prod.mk.inj applied
    obtain ⟨committed, binds, same⟩ := persisted kept
    obtain ⟨_, fingerprint, expires⟩ := sameCommitted_facts same
    refine ⟨⟨accounts.bound.committed, by simp⟩, ?_⟩
    refine accounts.holds.imp_right ?_
    rintro ⟨nonempty, time, before, holds⟩
    refine ⟨nonempty, time, before, Or.inl ⟨committed, binds, fingerprint.trans named.symm, ?_⟩⟩
    exact expires ▸ accounts.bound.holds_rotation pending (named ▸ holds)

end

/-! ## Moves -/

/-- At every point of its history the journal accounts for the credential, and a rotation that has
just been entered is the pending one. -/
structure Ledger (env : Environment) (enrolled : Bytes) (books : Books) : Prop where
  history : ∀ past journal credential, past <:+ books.trace → fileAfter past = some journal →
    credentialAfter past = some credential →
    Accounts env enrolled journal credential (expiryAfter past)
  entered : ∀ metadata state past, books.trace = .committed (.beginRotation metadata)
    state :: past → ∃ rotation, books.journal.credentialRotation = some rotation ∧
      rotation.fingerprint = metadata.fingerprint ∧ rotation.expiresAt = metadata.expiresAt

variable {enrolled : Bytes}

theorem Ledger.here {books : Books} (ledger : Ledger env enrolled books)
    (sound : books.Sound env) :
    Accounts env enrolled books.journal books.credential (expiryAfter books.trace) :=
  ledger.history _ _ _ List.suffix_rfl sound.recorded sound.stored

/-- What is true of every part of a history is so after one more entry. -/
theorem history_cons {books : Books} (ledger : Ledger env enrolled books) {effect : Effect}
    (latest : ∀ journal credential, fileAfter (effect :: books.trace) = some journal →
      credentialAfter (effect :: books.trace) = some credential →
      Accounts env enrolled journal credential (expiryAfter (effect :: books.trace))) :
    ∀ past journal credential, past <:+ effect :: books.trace → fileAfter past = some journal →
      credentialAfter past = some credential →
      Accounts env enrolled journal credential (expiryAfter past) := by
  intro past journal credential suffix file stored
  rcases List.suffix_cons_iff.1 suffix with rfl | inner
  · exact latest journal credential file stored
  · exact ledger.history past journal credential inner file stored

theorem Ledger.log {books : Books} (ledger : Ledger env enrolled books) (effect : Effect)
    (idle : effect.idle = true) : Ledger env enrolled (books.log effect) where
  history := by
    refine history_cons ledger fun journal credential file stored => ?_
    have other : ∀ credential, effect ≠ .replaced credential := by
      rintro credential rfl
      simp [Effect.idle] at idle
    rw [fileAfter_idle effect _ idle] at file
    rw [credentialAfter_idle effect _ idle] at stored
    rw [expiryAfter_cons other]
    exact ledger.history _ _ _ List.suffix_rfl file stored
  entered metadata state past begins := by
    rw [(List.cons.inj begins).1] at idle
    simp [Effect.idle] at idle

theorem Ledger.failStart {books : Books} (ledger : Ledger env enrolled books) :
    Ledger env enrolled books.failStart := by
  unfold Books.failStart
  split
  · exact ledger
  case h_2 channel _ =>
    have logged := ledger.log (.answered channel false books.journal books.recovering) rfl
    exact ⟨logged.history, logged.entered⟩

/-- A commit that leaves a journal which accounts for the credential. -/
theorem Ledger.commit {books : Books} (ledger : Ledger env enrolled books)
    (sound : books.Sound env) {state : JournalState}
    (accounts : Accounts env enrolled state books.credential (expiryAfter books.trace))
    (entered : ∀ metadata, change = .beginRotation metadata → ∃ rotation,
      state.credentialRotation = some rotation ∧ rotation.fingerprint = metadata.fingerprint ∧
        rotation.expiresAt = metadata.expiresAt) :
    Ledger env enrolled (books.commit change state) where
  history := by
    refine history_cons ledger fun journal credential file stored => ?_
    obtain rfl := Option.some.inj file
    obtain rfl := Option.some.inj (stored.symm.trans sound.stored)
    exact accounts
  entered metadata next past begins := by
    obtain ⟨rfl, _⟩ := Effect.committed.inj (List.cons.inj begins).1
    exact entered metadata rfl

/-- A commit that has nothing to do with rotations. -/
theorem Ledger.spare {books : Books} (ledger : Ledger env enrolled books)
    (sound : books.Sound env) {state : JournalState}
    (commits : Commits env books change state) (other : change.rotates = false) :
    Ledger env enrolled (books.commit change state) := by
  obtain ⟨rotation, committed⟩ := commits_credentials commits other
  refine ledger.commit sound ((ledger.here sound).of_same rotation committed) ?_
  rintro metadata rfl
  simp [JournalChange.rotates] at other

theorem Cancels.not_rotates {state : JournalState}
    (cancels : Cancels state change) : change.rotates = false := by
  cases change <;> first | rfl | exact absurd cancels id

/-- Without the licence for odd rotations a permitted change keeps the ledger. -/
theorem Ledger.permitted {books : Books} {hands : Hands} (keyed : env.identityKeyFile = true)
    (strict : ¬ licence.odd) (ledger : Ledger env enrolled books) (sound : books.Sound env)
    {state : JournalState} (commits : Commits env books change state)
    (permitted : Permitted env licence ⟨books, hands⟩ change) :
    Ledger env enrolled (books.commit change state) := by
  have here := ledger.here sound
  cases change with
  | beginRotation =>
    obtain ⟨runner, unpersisted, order⟩ := permitted
    have begun := here.begin commits runner unpersisted (order.resolve_left strict)
    refine ledger.commit sound begun.1 ?_
    rintro other same
    obtain rfl := JournalChange.beginRotation.inj same
    exact begun.2
  | commitRotation =>
    obtain ⟨_, credential, _, named, replaced⟩ := permitted
    have stored := sound.stored
    rw [show books.trace = _ from replaced] at stored
    obtain rfl : credential = books.credential := Option.some.inj stored
    exact ledger.commit sound (here.commit commits named) (by simp)
  | reconcileRotation =>
    obtain ⟨same, pending, named⟩ := permitted
    rw [same, keyed] at commits
    exact ledger.commit sound (here.reconcile commits pending named) (by simp)
  | _ => exact ledger.spare sound commits rfl

theorem Ledger.of_same {books next : Books} (ledger : Ledger env enrolled books)
    (journal : next.journal = books.journal) (trace : next.trace = books.trace) :
    Ledger env enrolled next := by
  refine ⟨?_, ?_⟩
  · rw [trace]
    exact ledger.history
  · rw [trace, journal]
    exact ledger.entered

/-- The credential file is replaced by the credential of the rotation that has been entered. -/
theorem Ledger.replace {books : Books} (ledger : Ledger env enrolled books)
    (sound : books.Sound env) {credential : Bytes} {metadata : JournalCredentialRotation}
    {past : List Effect}
    (begun : books.trace = .committed (.beginRotation metadata) books.journal :: past)
    (named : env.sha256 credential = metadata.fingerprint) (nonempty : credential ≠ []) :
    Ledger env enrolled (books.log (.replaced credential)) where
  history := by
    refine history_cons ledger fun journal stored file found => ?_
    obtain ⟨rotation, pending, fingerprint, expires⟩ := ledger.entered metadata _ past begun
    obtain rfl : credential = stored := Option.some.inj found
    have same : fileAfter (.replaced credential :: books.trace) = fileAfter books.trace := rfl
    rw [same, sound.recorded, Option.some.injEq] at file
    subst file
    refine ⟨(ledger.here sound).bound, Or.inr ⟨nonempty, metadata.expiresAt, ?_, Or.inr
      ⟨rotation, pending, fingerprint.trans named.symm, Int.le_of_eq expires.symm⟩⟩⟩
    rw [begun]
    rfl
  entered metadata state past begins := by simp [Books.log] at begins

/-- Every move of a run with proper successors keeps the ledger. -/
theorem Move.ledger {core next : Core} (keyed : env.identityKeyFile = true)
    (strict : ¬ licence.odd) (sound : core.books.Sound env)
    (ledger : Ledger env enrolled core.books) (moves : Move env licence core next) :
    Ledger env enrolled next.books := by
  cases moves with
  | note books hands effect quiet => exact ledger.log effect quiet.idle
  | commit books hands change state commits permitted =>
    exact ledger.permitted keyed strict sound commits permitted
  | cancel books hands change state commits cancels =>
    exact (ledger.spare sound commits cancels.not_rotates).failStart
  | cancelLate books hands change state commits cancels =>
    exact ledger.spare sound commits cancels.not_rotates
  | reissue books hands older newer cleared numbered queued pending ends clears numbers queues =>
    have first := (ledger.spare sound clears rfl).log (.settled older) rfl
    have soundly := (sound.commit clears).log (.settled older) rfl
    exact (first.spare soundly numbers rfl).spare (soundly.commit numbers) queues rfl
  | await books before after channel =>
    exact (ledger.log (.awaited channel) rfl).of_same rfl rfl
  | fail => exact ledger.failStart
  | grant books hands channel =>
    exact (ledger.log (.answered channel true books.journal books.recovering) rfl).of_same rfl rfl
  | launch =>
    exact ledger.log _ rfl
  | dismiss | postpone => exact ledger
  | report books before after result evidence usage message state consumes commits =>
    exact ledger.spare sound commits rfl
  | discard => exact ledger
  | recover | heartbeat => exact ledger.of_same rfl rfl
  | replace books hands credential metadata past begun named nonempty =>
    exact (ledger.replace sound begun named nonempty).of_same rfl rfl
  | emit => exact ledger
  | finish => exact ledger.log _ rfl

/-- The files of an enrolled runner that has not rotated its credential. -/
def Enrolled (env : Environment) (enrolled : Bytes) (journal : JournalState)
    (credential : Bytes) : Prop :=
  journal.credentialRotation = none ∧ journal.committedCredential = none ∧
    matchesCredential env enrolled credential = true

theorem Enrolled.accounts {journal : JournalState} {credential : Bytes}
    (begins : Enrolled env enrolled journal credential) (expiry : Option Int) :
    Accounts env enrolled journal credential expiry :=
  ⟨⟨by simp [begins.2.1], by simp [begins.1]⟩, Or.inl begins.2.2⟩

theorem Reach.ledger (keyed : env.identityKeyFile = true) (strict : ¬ licence.odd) {core : Core}
    (reached : Reach env licence (Enrolled env enrolled) core) :
    Ledger env enrolled core.books := by
  have booted (journal : JournalState) (credential : Bytes) (outside : Nat → Response)
      (past : List Effect)
      (accounts : Accounts env enrolled journal credential (expiryAfter past))
      (history : ∀ older state stored, older <:+ past → fileAfter older = some state →
        credentialAfter older = some stored →
        Accounts env enrolled state stored (expiryAfter older)) :
      Ledger env enrolled (bootedCore journal credential outside past).books := by
    refine ⟨fun older state stored suffix file found => ?_, fun _ _ _ begins => by
      simp [bootedCore] at begins⟩
    rcases List.suffix_cons_iff.1 suffix with rfl | inner
    · obtain rfl := Option.some.inj file
      obtain rfl := Option.some.inj found
      exact accounts
    · exact history older state stored inner file found
  refine reached.by_moves (fun core => Ledger env enrolled core.books) ?_ ?_ ?_ ?_
  · intro journal credential outside begins _
    refine booted journal credential outside [] (begins.accounts _) fun older _ _ inner file => ?_
    rw [List.suffix_nil] at inner
    simp [inner, fileAfter] at file
  · exact fun core next sound ledger moves => moves.ledger keyed strict sound ledger
  · exact fun books hands outside ledger => ledger
  intro core past journal credential outside _ ledger suffix file stored _
  exact booted journal credential outside past
    (ledger.history past journal credential suffix file stored)
    fun older state found inner => ledger.history older state found (inner.trans suffix)

/-! ## Whole runs -/

/-- A rotation that arrives while none is pending is a proper successor of the bound credential. -/
def Successive (env : Environment) (world : World) (action : Action) : Prop :=
  ∀ message rotation now metadata, action = .deliver message →
    message.payload = some (.credentialRotation rotation) →
    validateCredentialRotation env rotation now = some metadata →
    world.client.journal.credentialRotation = none →
    Succeeds world.client.journal.committedCredential (boundRotation env metadata)

/-- Everything is allowed but an odd rotation. -/
def rotationLicence : Licence := { Licence.all with odd := False }

theorem Successive.disciplined {world : World} {action : Action}
    (successive : Successive env world action) : Disciplined env rotationLicence world action where
  delivery message delivered :=
    { answers := fun _ => Or.inl trivial
      acknowledgement := fun _ _ =>
        ⟨fun _ _ _ => Or.inl trivial, fun _ _ _ _ _ => Or.inl trivial⟩
      rotation := fun rotation carries => Or.inr fun now metadata accepted => by
        by_cases pending : world.client.journal.credentialRotation = none
        · exact Or.inr (successive message rotation now metadata delivered carries accepted pending)
        · exact Or.inl pending }

/-- In every run of an enrolled runner whose rotations are proper successors: whatever the two files
hold after a crash at any point of the history, the check accepts the stored credential at every
time before its expiry.

Proof: `Ledger` is kept by every move, and the check accepts all that it allows in the files. -/
theorem restart_accepted (env : Environment) (enrolled : Bytes) (world : World)
    (reached : Run env (Enrolled env enrolled) (Successive env) world) :
    ∀ past journal credential now, past <:+ world.trace → fileAfter past = some journal →
      credentialAfter past = some credential →
      (∀ expiry, expiryAfter past = some expiry → now < expiry) →
      credentialBound env enrolled journal credential now = true := by
  intro past journal credential now suffix file stored early
  cases keyed : env.identityKeyFile with
  | false => simp [credentialBound, keyed]
  | true =>
    obtain ⟨_, reaches, covered, _⟩ :=
      reached.reach rotationLicence trivial fun _ _ successive => successive.disciplined
    have ledger := reaches.ledger keyed fun allowed => allowed
    exact (ledger.history past journal credential (suffix.trans covered) file stored).accepted now
      early

/-! ## Samples -/

/-- A rotation is applied and reconciled on the next stream. -/
def rotating : List (Action × (Nat → Response)) :=
  [(.openStream (sampleOpening 1000), sampleAnswers 1000),
    sampleDelivery 1001
      (sampleMessage "rotate" 1001 (.credentialRotation (sampleRotation 0x61 0x61 1001))),
    (.openStream (sampleOpening 1002), sampleAnswers 1002)]

/-- Whether the check refuses what a crash somewhere in the history leaves, before the credential
expires. -/
def refusesSome (env : Environment) (enrolled : Bytes) (now : Int) (trace : List Effect) : Bool :=
  trace.tails.any fun past =>
    match fileAfter past, credentialAfter past with
    | some journal, some credential =>
      (expiryAfter past).all (fun expiry => decide (now < expiry)) &&
        !credentialBound env enrolled journal credential now
    | _, _ => false

theorem refusesSome_spec {trace : List Effect} {now : Int}
    (refuses : refusesSome env enrolled now trace = true) :
    ∃ past journal credential, past <:+ trace ∧ fileAfter past = some journal ∧
      credentialAfter past = some credential ∧
      (∀ expiry, expiryAfter past = some expiry → now < expiry) ∧
      credentialBound env enrolled journal credential now = false := by
  obtain ⟨past, member, found⟩ := List.any_eq_true.1 refuses
  rw [List.mem_tails] at member
  cases file : fileAfter past with
  | none => simp [file] at found
  | some journal =>
    cases stored : credentialAfter past with
    | none => simp [file, stored] at found
    | some credential =>
      simp only [file, stored, Bool.and_eq_true, Bool.not_eq_true'] at found
      refine ⟨past, journal, credential, member, file, stored, fun expiry expires => ?_, found.2⟩
      simpa [expires] using found.1

/-- The credential of the sample process. -/
def sampleEnrolled : Bytes := sampleClient.sha256 [0x63]

theorem sample_begins {allowed : World → Action → Prop} :
    Run sampleClient (Enrolled sampleClient sampleEnrolled) allowed (sampleBoot emptyJournal) :=
  .start _ _ _ _ ⟨rfl, rfl, by decide +kernel⟩ (empty_valid _)

/-- A process installs the credential of its first rotation. -/
theorem restart_accepted_rotated :
    ∃ world, Run sampleClient (Enrolled sampleClient sampleEnrolled) (Successive sampleClient)
        world ∧ world.credentialFile = sampleCredential 0x61 ∧
      ∀ past journal credential now, past <:+ world.trace → fileAfter past = some journal →
        credentialAfter past = some credential →
        (∀ expiry, expiryAfter past = some expiry → now < expiry) →
        credentialBound sampleClient sampleEnrolled journal credential now = true := by
  have computed : ((performAll sampleClient 1 (rotating.take 1) (sampleBoot emptyJournal)).bind
      fun opened => (performAll sampleClient 1 ((rotating.drop 1).take 1) opened).map
        fun world => (opened.client.journal.committedCredential, world.credentialFile)) =
      some (none, sampleCredential 0x61) := by
    decide +kernel
  obtain ⟨_, first, rest⟩ := Option.bind_eq_some_iff.1 computed
  obtain ⟨_, second, facts⟩ := Option.map_eq_some_iff.1 rest
  obtain ⟨unbound, stored⟩ := Prod.mk.inj facts
  obtain ⟨opened', performed, same⟩ := Option.bind_eq_some_iff.1 first
  obtain rfl := Option.some.inj same
  obtain ⟨world', performed', same⟩ := Option.bind_eq_some_iff.1 second
  obtain rfl := Option.some.inj same
  have begun : Run sampleClient (Enrolled sampleClient sampleEnrolled) (Successive sampleClient)
      opened' := .act _ _ 1 _ _ sample_begins (fun _ _ _ _ delivered => by simp at delivered)
    performed
  have reached : Run sampleClient (Enrolled sampleClient sampleEnrolled) (Successive sampleClient)
      world' := by
    refine .act _ _ 1 _ _ begun (fun _ _ _ _ _ _ _ _ current binds => ?_) performed'
    exact absurd (unbound.symm.trans binds) (by simp)
  exact ⟨world', reached, stored, restart_accepted sampleClient sampleEnrolled world' reached⟩

/-- After the rotation has been reconciled the gateway sends it again. -/
def replaying : List (Action × (Nat → Response)) :=
  rotating ++ [sampleDelivery 1010
    (sampleMessage "again" 1010 (.credentialRotation (sampleRotation 0x61 0x61 1001)))]

/-- When the process stops after the first commit of the repeated rotation, the check refuses the
credential although it has not expired. -/
theorem replayed_rotation_refused :
    ∃ world, Run sampleClient (Enrolled sampleClient sampleEnrolled) (fun _ _ => True) world ∧
      ∃ past journal credential, past <:+ world.trace ∧ fileAfter past = some journal ∧
        credentialAfter past = some credential ∧
        (∀ expiry, expiryAfter past = some expiry → sampleTime 1010 < expiry) ∧
        credentialBound sampleClient sampleEnrolled journal credential (sampleTime 1010) =
          false := by
  have computed : (performAll sampleClient 1 replaying (sampleBoot emptyJournal)).map
      (fun world => refusesSome sampleClient sampleEnrolled (sampleTime 1010) world.trace) =
        some true := by
    decide +kernel
  obtain ⟨world, performed, refuses⟩ := Option.map_eq_some_iff.1 computed
  exact ⟨world, sample_begins.performAll (fun _ _ _ => trivial) performed, refusesSome_spec refuses⟩

end ProvenanceRunner.Gateway
