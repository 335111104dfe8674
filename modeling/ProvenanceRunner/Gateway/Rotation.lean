import ProvenanceRunner.Gateway.DurableState

/-! # Abandoned rotations

A rotation is entered in the journal before the credential file is replaced, and the entry is
removed only after an authentication with the new credential. When the process stops in between,
the entry stays, and it stands in the way of every later rotation: what decides whether a fresh
rotation is applied is that no older one is pending. -/

namespace ProvenanceRunner.Gateway

open Utf8 Programs

variable {env : Environment} {world : World} {state : JournalState}

/-! ## Updates that are written at once -/

theorem ends_update_done (world : World) {change : JournalChange}
    (commits : Commits env (booksOf world) change state)
    (done : (world.responses world.consumed).persisted = .done) :
    Ends (update env change) world fun result final =>
      result = .ok () ∧ final = world.committed change state := by
  have applied : change.apply env.toJournalEnvironment world.client.journal = (state, none) :=
    commits.1
  have checked : validateJournalState env.toJournalEnvironment state = none := commits.2
  simp [Ends, update, Journal.update, applied, checked, done, World.committed]

variable {α : Type} {post : Except Failure α → World → Prop} {change : JournalChange}

/-- A change that cannot be committed is answered by an error and leaves the journal alone. -/
theorem ends_update_uncommitted (never : ∀ state, ¬ Commits env (booksOf world) change state)
    (other : ∀ reconciliation, change ≠ .reconcile reconciliation)
    (calm : ¬ Panics change world.client.journal) :
    Ends (update env change) world fun result final =>
      Sane result ∧
        ((∃ failure, result = .error failure) ∧ booksOf final = booksOf world) := by
  refine (ends_update_exact env change world other calm).mono ?_
  rintro result final ⟨sane, _, ⟨state, commits, _⟩ | ⟨same, failed⟩⟩
  · exact absurd commits (never state)
  · exact ⟨sane, failed, same⟩

/-! ## The two commits of a rotation -/

/-- What is entered for a rotation: it is bound to the runner. -/
def boundRotation (env : Environment) (metadata : JournalCredentialRotation) :
    JournalCredentialRotation :=
  { metadata with runnerID := env.runnerID }

/-- The journal after both commits of a rotation. -/
def rotated (env : Environment) (metadata : JournalCredentialRotation) (now : Int)
    (state : JournalState) : JournalState :=
  { state with
    credentialRotation := some { boundRotation env metadata with persistedAt := now }
    committedCredential := some (committedOf env.runnerID (boundRotation env metadata) now) }

theorem asTime_nonneg {field : String} {value : Option Timestamp}
    (checked : (validateTimestamp field value).isSome = false) : 0 ≤ asTime value := by
  cases value with
  | none => simp [validateTimestamp] at checked
  | some value =>
    simp only [validateTimestamp, refuse, Bool.not_eq_eq_eq_not, Bool.not_true] at checked
    have fine : value.checkValid = true := by
      cases valid : value.checkValid <;> simp_all
    simp only [Timestamp.checkValid, Bool.and_eq_true, decide_eq_true_eq] at fine
    simp only [asTime, Timestamp.asTime, Option.getD_some, unixEra, nanosecondsPerSecond]
    omega

theorem valid_credentials (rotation : Option JournalCredentialRotation)
    (committed : Option JournalCommittedCredential)
    (valid : state.Valid env.toJournalEnvironment) :
    { state with credentialRotation := rotation, committedCredential := committed }.Valid
        env.toJournalEnvironment ↔
      credentialsError { state with
        credentialRotation := rotation, committedCredential := committed } = none := by
  unfold JournalState.Valid validateJournalState at valid ⊢
  simp only [orElse_eq_none] at valid ⊢
  refine ⟨fun checked => checked.2.1, fun checked => ⟨valid.1, checked, valid.2.2⟩⟩

theorem rotationError_eq_none_iff (rotation : JournalCredentialRotation) :
    rotationError rotation = none ↔
      (rotation.runnerID.isEmpty = false → isCanonicalUUID rotation.runnerID = true) ∧
      isCanonicalUUID rotation.rotationID = true ∧ rotation.fingerprint.length = 32 ∧
      rotation.issuedAt ≠ 0 ∧ rotation.issuedAt < rotation.expiresAt ∧
      rotation.expiresAt - rotation.issuedAt ≤ hour ∧
      rotation.issuedAt < rotation.reconnectBefore ∧
      rotation.reconnectBefore < rotation.expiresAt ∧
      rotation.reconnectBefore - rotation.issuedAt ≤ 5 * minute ∧
      (rotation.persistedAt ≠ 0 → rotation.issuedAt - maximumClockSkew ≤ rotation.persistedAt) := by
  simp only [rotationError, refuse_eq_none, Bool.or_eq_false_iff, Bool.and_eq_false_iff,
    decide_eq_false_iff_not, bne_eq_false_iff_eq, Bool.not_eq_false', not_or, not_and, Int.not_lt,
    Int.not_le, and_assoc]
  refine and_congr_left fun _ => ?_
  cases rotation.runnerID.isEmpty <;> simp

theorem committedError_eq_none_iff (committed : JournalCommittedCredential) :
    committedError committed = none ↔
      isCanonicalUUID committed.runnerID = true ∧ isCanonicalUUID committed.rotationID = true ∧
      committed.fingerprint.length = 32 ∧ committed.issuedAt ≠ 0 ∧ committed.expiresAt ≠ 0 ∧
      committed.persistedAt ≠ 0 ∧ committed.issuedAt < committed.expiresAt ∧
      committed.expiresAt - committed.issuedAt ≤ hour ∧
      committed.issuedAt - maximumClockSkew ≤ committed.persistedAt ∧
      committed.persistedAt < committed.expiresAt := by
  simp only [committedError, refuse_eq_none, Bool.or_eq_false_iff, decide_eq_false_iff_not,
    bne_eq_false_iff_eq, Bool.not_eq_false', not_or, Int.not_lt, Int.not_le, and_assoc, ne_eq]

section

variable {rotation : RotateCredential} {now : Int} {metadata : JournalCredentialRotation}
  (accepted : validateCredentialRotation env rotation now = some metadata)

include accepted

/-- The facts that a rotation is accepted with. -/
theorem accepted_bounds :
    isCanonicalUUID metadata.rotationID = true ∧ metadata.fingerprint.length = 32 ∧
      metadata.persistedAt = 0 ∧ 0 ≤ metadata.issuedAt ∧
      metadata.issuedAt ≤ now + maximumClockSkew ∧
      metadata.issuedAt < metadata.expiresAt ∧ metadata.expiresAt - metadata.issuedAt ≤ hour ∧
      metadata.issuedAt < metadata.reconnectBefore ∧
      metadata.reconnectBefore < metadata.expiresAt ∧
      metadata.reconnectBefore - metadata.issuedAt ≤ 5 * minute ∧
        now < metadata.reconnectBefore := by
  unfold validateCredentialRotation at accepted
  dsimp only at accepted
  split at accepted
  · simp at accepted
  case isFalse fine =>
    obtain rfl := Option.some.inj accepted
    simp only [Bool.or_eq_true, decide_eq_true_eq, not_or, Bool.not_eq_true', Bool.not_eq_false,
      Int.not_lt, Int.not_le] at fine
    obtain ⟨⟨⟨⟨⟨⟨canonical, _⟩, _⟩, timed⟩, _⟩, _⟩, issued, expires, lasts, reconnects, before,
      soon, now'⟩ := fine
    exact ⟨canonical, env.sha256_length _, rfl, asTime_nonneg (Bool.eq_false_iff.2 timed), issued,
      expires, lasts, reconnects, before, soon, now'⟩

theorem rotationError_bound (persistedAt : Int)
    (persisted : persistedAt = 0 ∨ persistedAt = now) :
    rotationError { boundRotation env metadata with persistedAt := persistedAt } = none ↔
      metadata.issuedAt ≠ 0 := by
  obtain ⟨canonical, length, _, _, issued, expires, lasts, reconnects, before, soon, _⟩ :=
    accepted_bounds accepted
  rw [rotationError_eq_none_iff]
  refine ⟨fun checked => checked.2.2.2.1, fun nonzero => ⟨fun _ => env.runnerID_canonical,
    canonical, length, nonzero, expires, lasts, reconnects, before, soon, ?_⟩⟩
  simp only [boundRotation]
  omega

theorem committedError_bound :
    committedError (committedOf env.runnerID (boundRotation env metadata) now) = none ↔
      metadata.issuedAt ≠ 0 ∧ now ≠ 0 := by
  obtain ⟨canonical, length, _, _, issued, expires, lasts, reconnects, before, soon, _⟩ :=
    accepted_bounds accepted
  rw [committedError_eq_none_iff]
  refine ⟨fun checked => ⟨checked.2.2.2.1, checked.2.2.2.2.2.1⟩, fun nonzero =>
    ⟨env.runnerID_canonical, canonical, length, nonzero.1, ?_, nonzero.2, expires, lasts, ?_, ?_⟩⟩
  all_goals
    simp only [committedOf, boundRotation]
    omega

/-- A fresh rotation can be entered when none is pending, the zero time apart. -/
theorem begun_valid_iff (valid : state.Valid env.toJournalEnvironment)
    (free : state.credentialRotation = none) :
    { state with credentialRotation := some (boundRotation env metadata) }.Valid
      env.toJournalEnvironment ↔ metadata.issuedAt ≠ 0 := by
  have unpersisted := (accepted_bounds accepted).2.2.1
  have earlier := (valid_parts valid).1
  have bound : { boundRotation env metadata with persistedAt := 0 } =
      boundRotation env metadata := by
    simp [boundRotation, unpersisted]
  rw [valid_credentials (some (boundRotation env metadata)) state.committedCredential valid,
    ← rotationError_bound accepted 0 (Or.inl rfl), bound]
  simp only [credentialsError, orElse_eq_none, free] at earlier ⊢
  refine ⟨fun checked => by simpa using checked.1, fun checked => ⟨by simpa using checked,
    by simpa using earlier.2.1, ?_⟩⟩
  cases state.committedCredential <;> simp [boundRotation, unpersisted]

theorem rotated_valid_iff (valid : state.Valid env.toJournalEnvironment) :
    (rotated env metadata now state).Valid env.toJournalEnvironment ↔
      metadata.issuedAt ≠ 0 ∧ now ≠ 0 := by
  unfold rotated
  rw [valid_credentials _ _ valid, ← committedError_bound accepted]
  simp only [credentialsError, orElse_eq_none, Option.bind_some]
  refine ⟨fun checked => checked.2.1, fun checked => ⟨?_, checked, ?_⟩⟩
  · rw [rotationError_bound accepted now (Or.inr rfl)]
    exact ((committedError_bound accepted).1 checked).1
  · simp [sameCommitted, committedOf, boundRotation]

theorem apply_commitRotation :
    (JournalChange.commitRotation (boundRotation env metadata) now).apply env.toJournalEnvironment
      { state with credentialRotation := some (boundRotation env metadata) } =
        (rotated env metadata now state, none) := by
  have unpersisted : (boundRotation env metadata).persistedAt = 0 :=
    (accepted_bounds accepted).2.2.1
  simp [JournalChange.apply, sameCredentialRotation, unpersisted, rotated]

/-- An expired rotation differs from every rotation that is accepted now. -/
theorem expired_differs {pending : JournalCredentialRotation} (expired : pending.expiresAt ≤ now) :
    sameCredentialRotation pending (boundRotation env metadata) = false := by
  obtain ⟨_, _, _, _, _, _, _, _, before, _, current⟩ := accepted_bounds accepted
  have differs : pending.expiresAt ≠ metadata.expiresAt := by omega
  simp [sameCredentialRotation, boundRotation, differs]

end

/-! ## The handler -/

/-- A rotation is applied: it meets no conflict, its credential is in the file and the journal binds
it. -/
def RotationApplied (env : Environment) (rotation : RotateCredential)
    (metadata : JournalCredentialRotation) (now : Int) (result : Except Failure Unit)
    (final : World) : Prop :=
  result ≠ .error (.permanent "credential rotation conflicts with durable state") ∧
    final.credentialFile = rotation.connectionCredential ∧
    final.client.journal.committedCredential =
      some (committedOf env.runnerID (boundRotation env metadata) now)

/-- A handler that ends in no permanent error and keeps the credential file and what the journal
binds. -/
def Retains {α : Type} (program : Handler α) (world : World) : Prop :=
  Ends program world fun result final => (∀ text, result ≠ .error (.permanent text)) ∧
    final.credentialFile = world.credentialFile ∧
    final.client.journal.committedCredential = world.client.journal.committedCredential

theorem Retains.bind {β : Type} {program : Handler α} {next : α → Handler β}
    (first : Retains program world)
    (second : ∀ answer between, Retains (next answer) between) :
    Retains (program >>= next) world := by
  refine Ends.bind first ?_ ?_
  · rintro answer between ⟨_, file, committed⟩
    refine (second answer between).mono fun result final ends => ?_
    exact ⟨ends.1, ends.2.1.trans file, ends.2.2.trans committed⟩
  · rintro failure final ⟨lasting, kept⟩
    exact ⟨fun text same => lasting text (congrArg Except.error (Except.error.inj same)), kept⟩

theorem retains_pure (value : α) : Retains (pure value) world := ⟨by simp, rfl, rfl⟩

theorem retains_throw {failure : Failure} (other : ∀ text, failure ≠ .permanent text) :
    Retains (throw failure : Handler α) world :=
  ⟨fun text same => other text (Except.error.inj same), rfl, rfl⟩

theorem retains_ask : Retains ask world := ⟨by simp, rfl, rfl⟩

theorem retains_snapshot : Retains snapshot world := ⟨by simp, rfl, rfl⟩

theorem retains_record (effect : Effect) : Retains (record effect) world := ⟨by simp, rfl, rfl⟩

theorem retains_nextMessageSequence : Retains (update env .nextMessageSequence) world := by
  by_cases exhausted : world.client.journal.messageSequence = 0xFFFFFFFFFFFFFFFF
  · simp [Retains, Ends, update, Journal.update, JournalChange.apply, exhausted]
  cases checked : validateJournalState env.toJournalEnvironment
      { world.client.journal with
        messageSequence := world.client.journal.messageSequence + 1 } with
  | some =>
    simp [Retains, Ends, update, Journal.update, JournalChange.apply, exhausted, checked]
  | none =>
    cases persisted : (world.responses world.consumed).persisted <;>
      simp [Retains, Ends, update, Journal.update, JournalChange.apply, exhausted, checked,
        persisted]

/-- A failure that is looked at is still no permanent one. -/
theorem retains_attempt_bind {β : Type} {program : Handler α}
    {next : Except Failure α → Handler β} (first : Retains program world)
    (second : ∀ ended between, (∀ text, ended ≠ .error (.permanent text)) →
      Retains (next ended) between) : Retains (attempt program >>= next) world := by
  have attempted : Ends (attempt program) world fun result final =>
      (∀ text, result ≠ .error (.permanent text)) ∧
      (∀ ended, result = .ok ended → ∀ text, ended ≠ .error (.permanent text)) ∧
      final.credentialFile = world.credentialFile ∧
      final.client.journal.committedCredential = world.client.journal.committedCredential := by
    unfold Retains Ends at first
    unfold Ends attempt
    revert first
    cases program world with
    | ok => exact fun retains => ⟨by simp, by simp, retains.2⟩
    | error failure =>
      intro retains
      cases failure with
      | permanent text => exact absurd rfl (retains.1 text)
      | _ => exact ⟨by simp, by simp, retains.2⟩
  refine Ends.bind attempted ?_ ?_
  · rintro ended between ⟨_, lasting, file, committed⟩
    refine (second ended between (lasting ended rfl)).mono fun result final ends => ?_
    exact ⟨ends.1, ends.2.1.trans file, ends.2.2.trans committed⟩
  · rintro failure final ⟨lasting, _, kept⟩
    exact ⟨fun text same => lasting text (congrArg Except.error (Except.error.inj same)), kept⟩

theorem retains_send (message : RunnerMessage) : Retains (send message) world := by
  refine (retains_record _).bind fun _ _ => retains_ask.bind fun response _ => ?_
  cases response.sendFailure with
  | none => exact retains_pure ()
  | some => exact retains_throw (by simp)

theorem retains_runnerMessage : Retains (runnerMessage env) world :=
  (retains_ask.bind fun _ _ => retains_pure _).bind fun _ _ =>
    (retains_nextMessageSequence.bind fun _ _ => retains_snapshot.bind fun _ _ =>
      retains_pure _).bind fun _ _ => retains_pure _

theorem retains_acknowledgeRotation : Retains (acknowledgeRotation env) world := by
  refine retains_snapshot.bind fun state between => ?_
  cases state.credentialRotation with
  | none => exact retains_throw (by simp)
  | some =>
    refine retains_runnerMessage.bind fun empty _ => ?_
    refine retains_attempt_bind (retains_send _) fun ended _ lasting => ?_
    cases ended with
    | ok => exact retains_throw (by simp)
    | error =>
      refine retains_ask.bind fun response _ => ?_
      cases response.deadlineExpired with
      | true => exact retains_throw (by simp)
      | false => exact retains_throw fun text same => lasting text (congrArg Except.error same)

/-- An attempt to commit a change that can be committed and is written at once. -/
theorem ends_attempt_done {next : Except Failure Unit → Handler α}
    (commits : Commits env (booksOf world) change state)
    (done : (world.responses world.consumed).persisted = .done)
    (rest : Ends (next (.ok ())) (world.committed change state) post) :
    Ends (attempt (update env change) >>= next) world post := by
  have updated : Ends (update env change) world fun result final =>
      Sane result ∧
        (result = .ok () ∧ final = world.committed change state) :=
    (ends_update_done world commits done).mono fun result final ends => ⟨by simp [ends.1], ends⟩
  refine (ends_attempt _ world _ updated).bind_ok ?_
  rintro ended between ⟨_, rfl, rfl⟩
  exact rest

/-- An attempt to commit a change that cannot be committed. -/
theorem ends_attempt_uncommitted {next : Except Failure Unit → Handler α}
    (never : ∀ state, ¬ Commits env (booksOf world) change state)
    (other : ∀ reconciliation, change ≠ .reconcile reconciliation)
    (calm : ¬ Panics change world.client.journal)
    (rest : ∀ failure between, booksOf between = booksOf world →
      Ends (next (.error failure)) between post) :
    Ends (attempt (update env change) >>= next) world post := by
  refine (ends_attempt _ world _ (ends_update_uncommitted never other calm)).bind_ok ?_
  rintro ended between ⟨_, ⟨failure, rfl⟩, books⟩
  exact rest failure between books

theorem ends_replaceCredential_bind {credential : Bytes}
    (stores : (world.responses world.consumed).storeFails = false) (next : Unit → Handler α)
    (post : Except Failure α → World → Prop) :
    Ends (replaceCredential credential >>= next) world post ↔
      Ends (next ()) { world.asked with
        credentialFile := credential, trace := .replaced credential :: world.trace } post := by
  unfold replaceCredential
  rw [bind_assoc, ends_ask_bind, if_neg (by simp [stores])]
  exact Iff.rfl

section

variable {rotation : RotateCredential} {now : Int} {metadata : JournalCredentialRotation}
  (store : env.credentialStore = true)
  (valid : world.client.journal.Valid env.toJournalEnvironment)
  (accepted : validateCredentialRotation env rotation now = some metadata)

include store valid accepted

/-- While an expired rotation is pending, every fresh one ends in the conflict. -/
theorem ends_rotation_conflict
    (stands : (∃ pending, world.client.journal.credentialRotation = some pending ∧
      pending.expiresAt ≤ now) ∨
      (world.client.journal.credentialRotation = none ∧ metadata.issuedAt = 0)) :
    Ends (handleCredentialRotation env rotation now) world fun result _ =>
      result = .error (.permanent "credential rotation conflicts with durable state") := by
  unfold handleCredentialRotation
  simp only [store, Bool.not_true, Bool.false_eq_true, if_false, accepted]
  refine ends_attempt_uncommitted ?_ (by simp) (not_panics_other (by simp) (by simp))
    fun failure between _ => rfl
  rintro state ⟨applied, checked⟩
  rcases stands with ⟨pending, stands, expired⟩ | ⟨free, zero⟩
  · have differs := expired_differs accepted expired
    have stands' : (booksOf world).journal.credentialRotation = some pending := stands
    simp [JournalChange.apply, stands', show sameCredentialRotation pending
      { metadata with runnerID := env.runnerID } = false from differs] at applied
  · have free' : (booksOf world).journal.credentialRotation = none := free
    simp only [JournalChange.apply, free', Prod.mk.injEq, and_true] at applied
    subst applied
    exact (begun_valid_iff accepted valid free).1 checked zero

section

variable (free : world.client.journal.credentialRotation = none) (nonzero : metadata.issuedAt ≠ 0)
  (done : ∀ n, (world.responses n).persisted = .done ∧ (world.responses n).storeFails = false)

include free nonzero done

/-- With nothing pending, the credential is replaced and only the second commit is left. -/
theorem ends_rotation_begun {post : Except Failure Unit → World → Prop}
    (rest : ∀ between : World, between.credentialFile = rotation.connectionCredential →
      between.client.journal = { world.client.journal with
        credentialRotation := some (boundRotation env metadata) } →
      between.responses = world.responses →
      Ends (attempt (update env (.commitRotation (boundRotation env metadata) now)) >>= fun ended =>
        match ended with
        | .error _ => throw .rotationReconnect
        | .ok _ => acknowledgeRotation env) between post) :
    Ends (handleCredentialRotation env rotation now) world post := by
  unfold handleCredentialRotation
  simp only [store, Bool.not_true, Bool.false_eq_true, if_false, accepted]
  have begins : Commits env (booksOf world) (.beginRotation (boundRotation env metadata))
      { world.client.journal with credentialRotation := some (boundRotation env metadata) } := by
    refine ⟨?_, (begun_valid_iff accepted valid free).2 nonzero⟩
    have free' : (booksOf world).journal.credentialRotation = none := free
    simp only [JournalChange.apply, free']
    rfl
  refine ends_attempt_done begins (done _).1 ?_
  refine (ends_replaceCredential_bind ?_ _ _).2 ?_
  · exact (done (world.consumed + 1)).2
  rw [ends_modifyClient_bind]
  exact rest _ rfl rfl rfl

/-- Nothing else pending, a fresh rotation is applied, the zero time apart. -/
theorem ends_rotation_applied (clock : now ≠ 0) :
    Ends (handleCredentialRotation env rotation now) world
      (RotationApplied env rotation metadata now) := by
  refine ends_rotation_begun store valid accepted free nonzero done
    fun between stored journal responses => ?_
  have commits : Commits env (booksOf between)
      (.commitRotation (boundRotation env metadata) now)
      (rotated env metadata now world.client.journal) := by
    refine ⟨?_, (rotated_valid_iff accepted valid).2 ⟨nonzero, clock⟩⟩
    rw [show (booksOf between).journal = between.client.journal from rfl, journal]
    exact apply_commitRotation accepted
  refine ends_attempt_done commits (by rw [responses]; exact (done _).1) ?_
  refine (retains_acknowledgeRotation).mono fun result final ends => ?_
  exact ⟨ends.1 _, ends.2.1.trans stored, ends.2.2⟩

/-- At the zero time the second commit is refused and nothing is bound. -/
theorem ends_rotation_unbound (clock : now = 0) :
    Ends (handleCredentialRotation env rotation now) world fun _ final =>
      final.client.journal.committedCredential =
        world.client.journal.committedCredential := by
  refine ends_rotation_begun store valid accepted free nonzero done
    fun between stored journal responses => ?_
  refine ends_attempt_uncommitted ?_ (by simp) (not_panics_other (by simp) (by simp))
    fun failure after books => ?_
  · rintro state ⟨applied, checked⟩
    rw [show (booksOf between).journal = between.client.journal from rfl, journal,
      apply_commitRotation accepted] at applied
    obtain ⟨rfl, _⟩ := Prod.mk.inj applied
    exact ((rotated_valid_iff accepted valid).1 checked).2 clock
  · have same : after.client.journal = between.client.journal := congrArg Books.journal books
    rw [ends_throw, same, journal]

end

end

/-- A fresh rotation meets nothing but expired ones. It is applied exactly when none is pending at
all, the zero time apart.

Proof: with nothing pending both commits succeed; a pending rotation or a zero time stops one. -/
theorem rotation_applied_iff (env : Environment) (world : World) (rotation : RotateCredential)
    (now : Int) (metadata : JournalCredentialRotation) (store : env.credentialStore = true)
    (valid : world.client.journal.Valid env.toJournalEnvironment)
    (accepted : validateCredentialRotation env rotation now = some metadata)
    (expired : ∀ pending, world.client.journal.credentialRotation = some pending →
      pending.expiresAt ≤ now)
    (done : ∀ n, (world.responses n).persisted = .done ∧ (world.responses n).storeFails = false) :
    Ends (handleCredentialRotation env rotation now) world
        (RotationApplied env rotation metadata now) ↔
      world.client.journal.credentialRotation = none ∧ metadata.issuedAt ≠ 0 ∧ now ≠ 0 := by
  constructor
  · intro applied
    have refuted {other : Except Failure Unit → World → Prop}
        (ends : Ends (handleCredentialRotation env rotation now) world other)
        (differs : ∀ result final, other result final →
          ¬ RotationApplied env rotation metadata now result final) : False := by
      have both := applied.and ends
      rw [ends_iff] at both
      exact differs _ _ both.2 both.1
    have free : world.client.journal.credentialRotation = none := by
      by_contra stands
      obtain ⟨pending, stands⟩ := Option.ne_none_iff_exists'.1 stands
      exact refuted (ends_rotation_conflict store valid accepted
        (Or.inl ⟨pending, stands, expired pending stands⟩)) fun _ _ conflict found =>
          found.1 conflict
    have nonzero : metadata.issuedAt ≠ 0 := fun zero =>
      refuted (ends_rotation_conflict store valid accepted (Or.inr ⟨free, zero⟩))
        fun _ _ conflict found => found.1 conflict
    refine ⟨free, nonzero, fun clock => ?_⟩
    refine refuted (ends_rotation_unbound store valid accepted free nonzero done clock)
      fun _ final kept found => ?_
    -- A valid journal binds no credential that was persisted at the zero time.
    have earlier := (valid_parts valid).1
    have bound := kept.symm.trans found.2.2
    simp only [credentialsError, orElse_eq_none, bound, Option.bind_some] at earlier
    exact ((committedError_bound accepted).1 earlier.2.1).2 clock
  · rintro ⟨free, nonzero, clock⟩
    exact ends_rotation_applied store valid accepted free nonzero done clock

/-! ## An abandoned rotation -/

/-- A credential that repeats one character. -/
def sampleCredential (character : UInt8) : Bytes :=
  credentialLead ++ List.replicate 42 character ++ encode "A"

/-- A rotation that is issued at the given second for a quarter of an hour. -/
def sampleRotation (digit character : UInt8) (seconds : Int) : RotateCredential where
  rotationId := sampleUUID digit
  connectionCredential := sampleCredential character
  credentialFingerprint := sampleClient.sha256 (sampleCredential character)
  issuedAt := some ⟨seconds, 0⟩
  expiresAt := some ⟨seconds + 900, 0⟩
  reconnectBefore := some ⟨seconds + 120, 0⟩

/-- The journal's entry of the sample rotation. -/
def sampleEntry (digit character : UInt8) (seconds : Int) : JournalCredentialRotation where
  runnerID := []
  rotationID := sampleUUID digit
  fingerprint := sampleClient.sha256 (sampleCredential character)
  issuedAt := sampleTime seconds
  expiresAt := sampleTime (seconds + 900)
  reconnectBefore := sampleTime (seconds + 120)
  persistedAt := 0

theorem sampleRotation_accepted :
    validateCredentialRotation sampleClient (sampleRotation 0x62 0x62 3000) (sampleTime 3000) =
      some (sampleEntry 0x62 0x62 3000) := by
  decide +kernel

/-- A rotation is entered, but the credential file cannot be replaced and the process stops. -/
def abandoning : List (Action × (Nat → Response)) :=
  [(.openStream (sampleOpening 1000), sampleAnswers 1000),
    (.deliver (sampleMessage "rotate" 1001 (.credentialRotation (sampleRotation 0x61 0x61 1001))),
      fun _ => { now := sampleTime 1001, storeFails := true })]

/-- The process starts again and opens a stream with the old credential, long after the rotation has
expired. -/
def abandoned : Option World :=
  performAround sampleClient 1 abandoning
    [(.openStream (sampleOpening 3000), sampleAnswers 3000)] (sampleBoot emptyJournal)

/-- A streaming process with an expired rotation that was never installed. -/
structure Abandoned (world : World) (pending : JournalCredentialRotation) : Prop where
  reached : Run sampleClient (fun journal _ => journal = emptyJournal) (fun _ _ => True) world
  streaming : world.stage = .streaming
  stands : world.client.journal.credentialRotation = some pending
  expired : pending.expiresAt ≤ sampleTime 3000
  uninstalled : sampleClient.sha256 world.credentialFile ≠ pending.fingerprint
  unbound : world.client.journal.committedCredential = none

theorem Abandoned.valid {world : World} {pending : JournalCredentialRotation}
    (abandoned : Abandoned world pending) :
    world.client.journal.Valid sampleClient.toJournalEnvironment := by
  obtain ⟨_, reaches, _, same⟩ := abandoned.reached.free
  obtain rfl := same (by simp [abandoned.streaming])
  exact reaches.sound.valid

theorem abandoned_reached : ∃ world pending, Abandoned world pending := by
  have computed : abandoned.map (fun world => (world.stage,
      world.client.journal.credentialRotation, world.credentialFile,
      world.client.journal.committedCredential)) = some (.streaming,
        some (boundRotation sampleClient (sampleEntry 0x61 0x61 1001)), [0x63], none) := by
    decide +kernel
  obtain ⟨world, performed, facts⟩ := Option.map_eq_some_iff.1 computed
  simp only [Prod.mk.injEq] at facts
  obtain ⟨streaming, stands, stored, unbound⟩ := facts
  have begun : Run sampleClient (fun journal _ => journal = emptyJournal) (fun _ _ => True)
      (sampleBoot emptyJournal) := .start _ _ _ _ rfl (empty_valid _)
  exact ⟨world, _, begun.performAround performed, streaming, stands, by decide,
    by rw [stored]; decide +kernel, unbound⟩

/-- The sample rotation is applied on the empty journal, and not beside the abandoned one. -/
theorem rotation_applied_unless_abandoned :
    Ends (handleCredentialRotation sampleClient (sampleRotation 0x62 0x62 3000) (sampleTime 3000))
        ((sampleBoot emptyJournal).before (sampleAnswers 3000))
        (RotationApplied sampleClient (sampleRotation 0x62 0x62 3000) (sampleEntry 0x62 0x62 3000)
          (sampleTime 3000)) ∧
      ∃ world pending, Abandoned world pending ∧
        ¬ Ends (handleCredentialRotation sampleClient (sampleRotation 0x62 0x62 3000)
            (sampleTime 3000)) (world.before (sampleAnswers 3000))
          (RotationApplied sampleClient (sampleRotation 0x62 0x62 3000)
            (sampleEntry 0x62 0x62 3000) (sampleTime 3000)) := by
  constructor
  · refine (rotation_applied_iff sampleClient _ _ _ _ rfl (empty_valid _)
      sampleRotation_accepted ?_ ?_).2 ⟨rfl, by decide, by decide⟩
    · intro pending stands
      have none : (none : Option JournalCredentialRotation) = some pending := stands
      simp at none
    · exact fun n => ⟨rfl, rfl⟩
  · obtain ⟨world, pending, abandoned⟩ := abandoned_reached
    refine ⟨world, pending, abandoned, fun applied => ?_⟩
    have free := ((rotation_applied_iff sampleClient (world.before (sampleAnswers 3000)) _ _ _ rfl
      abandoned.valid sampleRotation_accepted ?_ ?_).1 applied).1
    · have stands : (world.before (sampleAnswers 3000)).client.journal.credentialRotation =
        some pending := abandoned.stands
      simp [stands] at free
    · intro other stands
      obtain rfl := Option.some.inj (abandoned.stands.symm.trans stands)
      exact abandoned.expired
    · exact fun n => ⟨rfl, rfl⟩

/-- From the empty journal a run leads to an expired rotation that was never installed, beside which
a fresh rotation is not applied. -/
theorem abandoned_rotation_wedges :
    ∃ world pending, Run sampleClient (fun journal _ => journal = emptyJournal) (fun _ _ => True)
      world ∧ world.stage = .streaming ∧
      world.client.journal.credentialRotation = some pending ∧
      pending.expiresAt ≤ sampleTime 3000 ∧
      sampleClient.sha256 world.credentialFile ≠ pending.fingerprint ∧
      world.client.journal.committedCredential = none ∧
      ¬ Ends (handleCredentialRotation sampleClient (sampleRotation 0x62 0x62 3000)
          (sampleTime 3000)) (world.before (sampleAnswers 3000))
        (RotationApplied sampleClient (sampleRotation 0x62 0x62 3000) (sampleEntry 0x62 0x62 3000)
          (sampleTime 3000)) := by
  obtain ⟨world, pending, abandoned⟩ := abandoned_reached
  refine ⟨world, pending, abandoned.reached, abandoned.streaming, abandoned.stands,
    abandoned.expired, abandoned.uninstalled, abandoned.unbound, fun applied => ?_⟩
  have valid : (world.before (sampleAnswers 3000)).client.journal.Valid
      sampleClient.toJournalEnvironment := abandoned.valid
  have both := applied.and (ends_rotation_conflict rfl valid sampleRotation_accepted
    (Or.inl ⟨_, abandoned.stands, abandoned.expired⟩))
  rw [ends_iff] at both
  exact both.1.1 both.2

end ProvenanceRunner.Gateway
