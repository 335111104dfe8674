import ProvenanceRunner.Enrollment.StoreRules

/-! # The situations of an enrollment

An enrollment that is stopped anywhere leaves the store in one of five situations. Here is what the
parts of a run make of them. -/

namespace ProvenanceRunner.Enrollment

open Utf8 Interruptions

section

variable (crypto : Crypto) (authority : Authority crypto) (config : Config) (token : Bytes)

/-! ## Situations -/

/-- The prepared document of an attempt with the token. -/
structure Attempt (document : Document) : Prop where
  phase : document.phase = .prepared
  valid : document.validate crypto = true
  tokenSHA256 : document.tokenSHA256 = crypto.sha256 token
  runnerID : document.runnerID = config.runnerID
  organizationID : document.organizationID = config.organizationID

/-- The one result that the authority has issued. -/
structure Issued (result : RedeemResponse) (machine : Machine) : Prop where
  issued : result ∈ machine.issued
  only : ∀ other ∈ machine.issued, other = result

/-- At the place of the token is the token, or something that is no token any more. -/
def Left (machine : Machine) : Prop :=
  ∀ content, machine.target .token = some content → content = .raw token ∨ content.Spoiled

/-- Nothing has been written for this token. -/
structure IsFresh (machine : Machine) : Prop where
  isToken : machine.target .token = some (.raw token)
  credential : machine.target .credential = none
  issued : machine.issued = []
  identity : machine.target .identity = none ∨ ∃ document : Document,
    machine.target .identity = some (.document document) ∧ document.validate crypto = true ∧
      document.phase = .terminal ∧ document.tokenSHA256 ≠ crypto.sha256 token

structure IsPrepared (document : Document) (machine : Machine) : Prop where
  isToken : machine.target .token = some (.raw token)
  credential : machine.target .credential = none
  identity : machine.target .identity = some (.document document)
  attempt : Attempt crypto config token document
  issued : ∀ result ∈ machine.issued, authority.reply document = .created result

structure IsReceived (document : Document) (result : RedeemResponse) (machine : Machine) :
    Prop where
  isToken : machine.target .token = some (.raw token)
  credential : machine.target .credential = none ∨
    machine.target .credential = some (.raw result.credential)
  identity : machine.target .identity =
    some (.document (document.withResponse (result.response crypto)))
  valid : (document.withResponse (result.response crypto)).validate crypto = true
  tokenSHA256 : document.tokenSHA256 = crypto.sha256 token
  issued : Issued result machine

structure IsActive (document : Document) (result : RedeemResponse) (machine : Machine) :
    Prop where
  credential : machine.target .credential = some (.raw result.credential)
  identity : machine.target .identity = some (.document document)
  valid : document.validate crypto = true
  phase : document.phase = .active
  matches' : document.matchesCredential crypto result.credential = true
  issued : Issued result machine

structure IsTerminal (document : Document) (machine : Machine) : Prop where
  credential : machine.target .credential = none
  identity : machine.target .identity = some (.document document)
  valid : document.validate crypto = true
  phase : document.phase = .terminal
  tokenSHA256 : document.tokenSHA256 = crypto.sha256 token
  issued : machine.issued = []

/-- The situations that an enrollment with one token and one configuration can leave. -/
inductive Recoverable (machine : Machine) : Prop where
  | fresh (fresh : IsFresh crypto token machine)
  | prepared (document : Document)
    (prepared : IsPrepared crypto authority config token document machine)
  | received (document : Document) (result : RedeemResponse)
    (received : IsReceived crypto token document result machine)
  | active (document : Document) (result : RedeemResponse)
    (active : IsActive crypto document result machine) (left : Left token machine)
  | terminal (document : Document) (terminal : IsTerminal crypto token document machine)
    (left : Left token machine)

/-- The identity is active or terminal. -/
def Finished (machine : Machine) : Prop :=
  (∃ document result, IsActive crypto document result machine) ∨
    ∃ document, IsTerminal crypto token document machine

/-- The identity is active and the credential is the issued one, or the identity is terminal and
there is no credential; the token is gone. -/
def Converged (machine : Machine) : Prop :=
  ((∃ document result, IsActive crypto document result machine) ∨
    ∃ document, IsTerminal crypto token document machine) ∧
  machine.target .token = none ∧ (machine.temporaries .token).names = []

/-- A final identity beside a token file that no rerun removes. -/
def Stranded (machine : Machine) : Prop :=
  machine.target .token ≠ none ∧ ∃ document : Document,
    machine.target .identity = some (.document document) ∧
    (document.phase = .active ∨
      document.phase = .terminal ∧ document.tokenSHA256 = crypto.sha256 token)

end

variable {crypto : Crypto} {authority : Authority crypto} {config : Config} {token : Bytes}
  {machine other : Machine} {steady : Bool}

/-- A program that leaves a recoverable machine wherever it stops. -/
abbrev Recovers {α : Type} (authority : Authority crypto) (config : Config) (token : Bytes)
    (steady : Bool) (post : α → Machine → Prop) (failed : Failure → Machine → Prop)
    (program : Enroll crypto α) (machine : Machine) : Prop :=
  Enrolls authority steady (Recoverable crypto authority config token) post failed program machine

/-! ## Situations depend on the files at their places -/

variable {document : Document} {result : RedeemResponse}

theorem Issued.congr (issued : Issued result machine) (same : other.issued = machine.issued) :
    Issued result other :=
  ⟨same ▸ issued.issued, same ▸ issued.only⟩

theorem Left.of_token (isToken : machine.target .token = some (.raw token)) :
    Left token machine := by
  intro content isContent
  rw [isToken] at isContent
  exact .inl (Option.some.inj isContent).symm

section

variable (target : ∀ place ≠ .token, other.target place = machine.target place)
  (issued : other.issued = machine.issued)
include target issued

theorem IsActive.congr (active : IsActive crypto document result machine) :
    IsActive crypto document result other :=
  ⟨(target _ (by decide)).trans active.credential, (target _ (by decide)).trans active.identity,
    active.valid, active.phase, active.matches', active.issued.congr issued⟩

theorem IsTerminal.congr (terminal : IsTerminal crypto token document machine) :
    IsTerminal crypto token document other :=
  ⟨(target _ (by decide)).trans terminal.credential, (target _ (by decide)).trans terminal.identity,
    terminal.valid, terminal.phase, terminal.tokenSHA256, issued.trans terminal.issued⟩

theorem Finished.congr (finished : Finished crypto token machine) :
    Finished crypto token other := by
  rcases finished with ⟨document, result, active⟩ | ⟨document, terminal⟩
  · exact .inl ⟨document, result, active.congr target issued⟩
  · exact .inr ⟨document, terminal.congr target issued⟩

end

theorem Finished.recoverable (finished : Finished crypto token machine)
    (left : Left token machine) :
    Recoverable crypto authority config token machine := by
  rcases finished with ⟨document, result, active⟩ | ⟨document, terminal⟩
  · exact .active document result active left
  · exact .terminal document terminal left

section

variable (alike : Alike machine other)
include alike

theorem Finished.beside (finished : Finished crypto token machine) : Finished crypto token other :=
  finished.congr (fun place _ => congrFun alike.target place) alike.issued

theorem IsFresh.congr (fresh : IsFresh crypto token machine) : IsFresh crypto token other :=
  ⟨alike.target ▸ fresh.isToken, alike.target ▸ fresh.credential, alike.issued ▸ fresh.issued,
    alike.target ▸ fresh.identity⟩

theorem IsPrepared.congr (prepared : IsPrepared crypto authority config token document machine) :
    IsPrepared crypto authority config token document other :=
  ⟨alike.target ▸ prepared.isToken, alike.target ▸ prepared.credential,
    alike.target ▸ prepared.identity, prepared.attempt, alike.issued ▸ prepared.issued⟩

theorem IsReceived.congr (received : IsReceived crypto token document result machine) :
    IsReceived crypto token document result other :=
  ⟨alike.target ▸ received.isToken, alike.target ▸ received.credential,
    alike.target ▸ received.identity, received.valid, received.tokenSHA256,
    received.issued.congr alike.issued⟩

theorem Recoverable.congr (recoverable : Recoverable crypto authority config token machine) :
    Recoverable crypto authority config token other := by
  have same (left : Left token machine) : Left token other := by
    unfold Left
    rw [alike.target]
    exact left
  cases recoverable with
  | fresh fresh => exact .fresh (fresh.congr alike)
  | prepared document prepared => exact .prepared document (prepared.congr alike)
  | received document result received => exact .received document result (received.congr alike)
  | active document result active left =>
    exact (Finished.beside alike (.inl ⟨document, result, active⟩)).recoverable (same left)
  | terminal document terminal left =>
    exact (Finished.beside alike (.inr ⟨document, terminal⟩)).recoverable (same left)

end

/-! ## Documents -/

theorem newPrepared_attempt (crypto : Crypto) (config : Config) (token random : Bytes)
    (length : random.length = 24) (key : Key crypto) :
    Attempt crypto config token (newPrepared crypto config.organizationID config.runnerID
      (crypto.sha256 token) (newIdempotencyKey random) config.credentialTTLSeconds key) := by
  refine ⟨rfl, ?_, rfl, rfl, rfl⟩
  simp [newPrepared, Document.validate, Document.hasKeyMaterial, Document.validAttempt,
    config.organization_canonical, config.runner_canonical, config.ttl_bounds.1,
    config.ttl_bounds.2, key.belongs, crypto.sha256_text, newIdempotencyKey_valid random length]

/-- What the validation of a received document says. -/
theorem withResponse_valid {response : Response}
    (valid : (document.withResponse response).validate crypto = true) :
    canonicalUUID document.organizationID = true ∧ canonicalUUID document.runnerID = true ∧
      document.hasKeyMaterial crypto = true ∧ document.terminal = none ∧
      validResponse crypto response document.credentialTTLSeconds = true := by
  simp only [Document.validate, Document.withResponse, Document.validAttempt, Bool.and_eq_true,
    Option.isNone_iff_eq_none] at valid
  exact ⟨valid.1.1, valid.1.2, valid.2.1.1, valid.2.1.2.2, valid.2.2⟩

theorem validSecret_length {mark value : Bytes} (valid : validSecret crypto mark value = true) :
    value.length = 50 := by
  simp only [validSecret, Bool.and_eq_true, beq_iff_eq] at valid
  exact valid.1.1

/-- A received document can become active. -/
theorem activated_of_received (document : Document) (result : RedeemResponse)
    (valid : (document.withResponse (result.response crypto)).validate crypto = true) :
    ∃ active, (document.withResponse (result.response crypto)).activated crypto = some active ∧
      active.validate crypto = true ∧ active.phase = .active ∧
      active.matchesCredential crypto result.credential = true := by
  obtain ⟨organization, runner, key, terminal, response⟩ := withResponse_valid valid
  simp only [validResponse, Bool.and_eq_true] at response
  have length : result.credential.length = 50 := validSecret_length response.1.1.2
  have nonempty : result.credential.isEmpty = false := by
    cases credential : result.credential with
    | nil => simp [credential] at length
    | cons => rfl
  have active : ((document.withResponse (result.response crypto)).withoutAttempt
      (result.response crypto)).validate crypto = true := by
    have still : validActiveResponse { result.response crypto with credential := [] } = true :=
      response.1.1.1
    simp only [Document.validate, Document.withoutAttempt, Document.withResponse, organization,
      runner, terminal, still, Bool.and_true, Bool.true_and, List.isEmpty_nil, Option.isNone_none,
      BEq.rfl]
    exact key
  refine ⟨_, ?_, active, rfl, ?_⟩
  · exact if_pos active
  · simp only [Document.matchesCredential, Document.withoutAttempt, nonempty, Bool.not_false,
      Bool.true_and]
    exact BEq.rfl

theorem terminalCodes_valid : terminalCodes.all validCode = true := by decide +kernel

theorem terminated_of_prepared (crypto : Crypto) (document : Document) (code : Bytes)
    (prepared : document.phase = .prepared) (valid : document.validate crypto = true)
    (terminal : isTerminal code = true) :
    document.terminated crypto code = some (document.ended code) ∧
      (document.ended code).validate crypto = true := by
  have isCode : validCode code = true :=
    List.all_eq_true.1 terminalCodes_valid code (by simpa [isTerminal] using terminal)
  simp only [Document.validate, prepared, Document.validAttempt, Bool.and_eq_true] at valid
  have ended : (document.ended code).validate crypto = true := by
    simp [Document.validate, Document.ended, valid, isCode]
  exact ⟨if_pos ended, ended⟩

/-! ## The parts of the enrollment -/

/-- No tombstone of the token is left. -/
abbrev Clean (machine : Machine) : Prop := (machine.temporaries .token).names = []

theorem Beside.clean (beside : Beside machine other) (clean : Clean machine) : Clean other :=
  (congrArg Directory.names beside.tombstones).trans clean

/-- A document is written between two situations that are recoverable. -/
theorem writeIdentity_keeps (document : Document) (valid : document.validate crypto = true)
    (before : Recoverable crypto authority config token machine)
    (after : Recoverable crypto authority config token
      (machine.setTarget .identity (some (.document document)))) :
    Recovers authority config token steady
      (fun _ other => Beside (machine.setTarget .identity (some (.document document))) other)
      (fun _ _ => steady = false) (writeIdentity document) machine := by
  unfold writeIdentity
  rw [if_pos valid]
  exact replaceAt_keeps (by decide) _ (fun other beside => before.congr beside.toAlike)
    (fun other beside => after.congr beside.toAlike)

/-- A failure with another text. -/
theorem named_keeps {program : Enroll crypto Unit} {invariant : Machine → Prop}
    {post : Unit → Machine → Prop} (text : String)
    (keeps : Enrolls authority steady invariant post (fun _ _ => steady = false)
      program machine) :
    Enrolls authority steady invariant post (fun _ _ => steady = false)
      (named program text) machine :=
  Keeps.rescue (keeps.ending.mono (fun _ _ ends => ends.2)
    (fun _ _ stopped => stopped))

theorem installCredential_keeps (credential : Bytes) (length : credential.length = 50)
    (free : machine.target .credential = none ∨
      machine.target .credential = some (.raw credential))
    (before : Recoverable crypto authority config token machine)
    (after : Recoverable crypto authority config token
      (machine.setTarget .credential (some (.raw credential)))) :
    Recovers authority config token steady
      (fun _ other => Beside (machine.setTarget .credential (some (.raw credential))) other)
      (fun _ _ => steady = false) (installCredential credential) machine := by
  have accepted : (credential.isEmpty || decide (4096 < credential.length)) = false := by
    cases credential with
    | nil => simp at length
    | cons =>
      rw [length]
      rfl
  unfold installCredential
  rw [if_neg (by rw [accepted]; exact Bool.false_ne_true)]
  refine Keeps.bind (read_keeps .credential _ before id ?_)
  rcases free with absent | present
  · rw [absent]
    exact createAt_keeps (by decide) _ (fun other beside => before.congr beside.toAlike)
      (fun other beside => after.congr beside.toAlike) absent
  · rw [present]
    show Keeps _ _ _ _ (if Content.raw credential = .raw credential then _ else _) _
    rw [if_pos rfl]
    refine ⟨before, ⟨?_, rfl⟩, rfl⟩
    rw [← present]
    exact (Function.update_eq_self _ _).symm

/-- A final identity is written while the token is at its place. -/
theorem writeFinal_keeps (document : Document) (valid : document.validate crypto = true)
    (text : String) (recoverable : Recoverable crypto authority config token machine)
    (isToken : machine.target .token = some (.raw token))
    (clean : Clean machine)
    (finished : Finished crypto token (machine.setTarget .identity (some (.document document)))) :
    Recovers authority config token steady
      (fun _ other => Finished crypto token other ∧ other.target .token = some (.raw token) ∧
        Clean other)
      (fun _ _ => steady = false) (named (writeIdentity document) text) machine := by
  refine named_keeps _ ((writeIdentity_keeps document valid recoverable
    (finished.recoverable (.of_token isToken))).mono ?_ fun _ _ => id)
  intro _ other beside
  refine ⟨finished.beside beside.toAlike, ?_, ?_⟩
  · rw [beside.target]
    exact isToken
  · exact beside.clean clean

/-- The last step: the token goes. -/
theorem removeToken_converges (text : String) (finished : Finished crypto token machine)
    (isToken : machine.target .token = some (.raw token))
    (clean : Clean machine) :
    Recovers authority config token steady (fun _ other => Converged crypto token other)
      (fun _ _ => steady = false) (named (removeToken (crypto.sha256 token)) text) machine := by
  refine named_keeps _ ((removeToken_keeps token isToken fun other spent =>
    (finished.congr spent.target spent.issued).recoverable spent.left).mono ?_ fun _ _ => id)
  intro _ last ends
  exact ⟨finished.congr ends.1.target ends.1.issued, ends.2.1, ends.2.2.trans clean⟩

/-- The received credential is installed, the identity activated and the token removed. -/
theorem finish_keeps (document : Document) (result : RedeemResponse)
    (received : IsReceived crypto token document result machine)
    (clean : Clean machine) :
    Recovers authority config token steady
      (fun _ other => Converged crypto token other) (fun _ _ => steady = false)
      (finish (document.withResponse (result.response crypto)) (crypto.sha256 token)) machine := by
  obtain ⟨_, _, _, _, response⟩ := withResponse_valid received.valid
  simp only [validResponse, Bool.and_eq_true] at response
  have length : result.credential.length = 50 := validSecret_length response.1.1.2
  obtain ⟨active, isActive, valid, phase, matched⟩ := activated_of_received document result
    received.valid
  -- The credential is there; the document is still the received one.
  have installed : IsReceived crypto token document result
      (machine.setTarget .credential (some (.raw result.credential))) :=
    ⟨received.isToken, .inr (machine.target_setTarget _ _), received.identity, received.valid,
      received.tokenSHA256, received.issued.congr rfl⟩
  refine Keeps.seq (installCredential_keeps result.credential length received.credential
    (.received document result received) (.received document result installed)) ?_
  intro _ first one
  rw [isActive]
  have here := installed.congr one.toAlike
  have credential : first.target .credential = some (.raw result.credential) := by
    rw [one.target]
    exact machine.target_setTarget _ _
  refine Keeps.seq (writeFinal_keeps active valid _ (.received document result here) here.isToken
    ?_ (.inl ⟨active, result, credential, first.target_setTarget _ _, valid, phase, matched,
      here.issued.congr rfl⟩)) ?_
  · exact one.clean clean
  · exact fun _ second two => removeToken_converges _ two.1 two.2.1 two.2.2

/-- The codes of the runner's own failures settle nothing. -/
theorem own_codes_not_terminal :
    isTerminal (encode "request_cancelled") = false ∧
    isTerminal (encode "transport_ambiguous") = false ∧
    isTerminal (encode "response_unavailable") = false ∧
    isTerminal (encode "response_invalid") = false ∧
    isTerminal (encode "registration_failed") = false := by decide +kernel

/-- A response comes with a created runner, and only a problem of the authority has a terminal
code. -/
theorem redeemResult_cases (document : Document) (reply : Reply) :
    (∃ created, reply = .created created ∧
      redeemResult crypto document reply = .ok (created.response crypto)) ∨
    ∃ failure, redeemResult crypto document reply = .error failure ∧
      (isTerminal failure.code = true → ∃ status, reply = .problem status failure.code) := by
  obtain ⟨cancelled, lost, unreadable, invalid, failed⟩ := own_codes_not_terminal
  have own {code : Bytes} {retryable : Bool} {answer : Except RedeemError Response}
      (not : isTerminal code = false) (same : answer = .error ⟨code, retryable⟩) :
      ∃ failure, answer = .error failure ∧
        (isTerminal failure.code = true → ∃ status, reply = .problem status failure.code) :=
    ⟨_, same, fun terminal => by simp [not] at terminal⟩
  cases reply with
  | cancelled => exact .inr (own cancelled rfl)
  | lost => exact .inr (own lost rfl)
  | unreadable => exact .inr (own unreadable rfl)
  | notReleased => exact .inr (own invalid rfl)
  | failure => exact .inr (own failed rfl)
  | created created =>
    simp only [redeemResult]
    split
    · exact .inr (own invalid rfl)
    · exact .inl ⟨created, rfl, rfl⟩
  | problem status =>
    simp only [redeemResult]
    split
    · exact .inr ⟨_, rfl, fun _ => ⟨status, rfl⟩⟩
    · exact .inr (own failed rfl)

/-- A terminal code of the authority ends the attempt. -/
theorem conclude_keeps (document : Document) (failure : RedeemError)
    (prepared : IsPrepared crypto authority config token document machine)
    (clean : Clean machine) (terminal : isTerminal failure.code = true)
    (issued : machine.issued = []) :
    Recovers authority config token steady
      (fun _ _ => False) (fun _ other => steady = true → Converged crypto token other)
      (conclude document failure (crypto.sha256 token)) machine := by
  obtain ⟨terminated, valid⟩ := terminated_of_prepared crypto document failure.code
    prepared.attempt.phase prepared.attempt.valid terminal
  unfold conclude
  rw [if_pos terminal, terminated]
  have ended : IsTerminal crypto token (document.ended failure.code)
      (machine.setTarget .identity (some (.document (document.ended failure.code)))) :=
    ⟨prepared.credential, machine.target_setTarget _ _, valid, rfl, prepared.attempt.tokenSHA256,
      issued⟩
  refine Keeps.bind
    ((writeFinal_keeps _ valid _ (.prepared document prepared) prepared.isToken clean
    (.inr ⟨_, ended⟩)).mono ?_ fun _ _ => unsteady)
  intro _ first one
  refine Keeps.bind ((removeToken_converges _ one.1 one.2.1 one.2.2).ending.mono ?_
    fun _ _ stopped => unsteady stopped.2)
  exact fun _ last ends => ⟨ends.1, fun _ => ends.2⟩

/-- A failure that settles nothing. -/
theorem conclude_unsettled (document : Document) (failure : RedeemError)
    (recoverable : Recoverable crypto authority config token machine)
    (unsettled : isTerminal failure.code = false) (mode : steady = false) :
    Recovers authority config token steady
      (fun _ _ => False) (fun _ other => steady = true → Converged crypto token other)
      (conclude document failure (crypto.sha256 token)) machine := by
  unfold conclude
  rw [if_neg (by rw [unsettled]; exact Bool.false_ne_true)]
  exact ⟨recoverable, fun steadily => by simp [mode] at steadily⟩

theorem redeemAttempt_keeps (document : Document)
    (prepared : IsPrepared crypto authority config token document machine)
    (clean : Clean machine) :
    Recovers authority config token steady
      (fun _ other => Converged crypto token other)
      (fun _ other => steady = true → Converged crypto token other)
      (redeemAttempt document (crypto.sha256 token)) machine := by
  have settles := authority.settles document prepared.attempt.phase prepared.attempt.valid
  have valid := prepared.attempt.valid
  simp only [Document.validate, prepared.attempt.phase, Bool.and_eq_true] at valid
  have signs : (document.hasKeyMaterial crypto && document.phase != .terminal) = true := by
    rw [valid.2.1.1, prepared.attempt.phase]
    rfl
  unfold redeemAttempt redeem
  rw [if_pos signs]
  refine Keeps.bind (Keeps.bind (attempt_keeps _ _ (.prepared document prepared) rfl unsteady ?_))
  intro (reply : Reply) next effect settled
  obtain ⟨possible, ⟨⟩⟩ := Option.ite_none_right_eq_some.1 effect
  replace settled : steady = true → authority.reply document = reply := by
    intro mode
    simpa [Op.settled] using settled mode
  rcases redeemResult_cases document reply with ⟨created, rfl, result⟩ | ⟨failure, result, problem⟩
  swap
  · rw [result]
    -- The authority settles the attempt of a created runner, so this one was not created.
    have notCreated : ∀ created, reply ≠ .created created := by
      rintro created rfl
      rw [show authority.reply document = .created created by simpa [Reply.possible] using possible,
        Enrollment.settles, result] at settles
      obtain ⟨status, isProblem⟩ := problem settles
      cases isProblem
    have same : machine.note reply = machine := by
      cases reply with
      | created created => exact absurd rfl (notCreated created)
      | _ => rfl
    rw [same]
    have recoverable : Recoverable crypto authority config token machine :=
      .prepared document prepared
    refine ⟨recoverable, recoverable, ?_⟩
    by_cases terminal : isTerminal failure.code = true
    · obtain ⟨status, rfl⟩ := problem terminal
      have given : authority.reply document = .problem status failure.code := by
        simpa [Reply.possible, terminal] using possible
      have issued : machine.issued = [] := by
        apply List.eq_nil_iff_forall_not_mem.2
        intro created inside
        cases given.symm.trans (prepared.issued created inside)
      exact (conclude_keeps document failure prepared clean terminal issued).mono
        (fun _ _ => False.elim) (fun _ _ => id)
    · have mode : steady = false := by
        by_contra steadily
        rw [settled (by simpa using steadily), Enrollment.settles, result] at settles
        exact terminal settles
      exact (conclude_unsettled document failure recoverable (by simpa using terminal) mode).mono
        (fun _ _ => False.elim) (fun _ _ => id)
  · rw [result]
    have given : authority.reply document = .created created := by
      simpa [Reply.possible] using possible
    have issued : ∀ other ∈ machine.issued ++ [created], authority.reply document =
        .created other := by
      intro other inside
      rcases List.mem_append.1 inside with old | new
      · exact prepared.issued other old
      · rw [List.mem_singleton.1 new]
        exact given
    have still : IsPrepared crypto authority config token document
        { machine with issued := machine.issued ++ [created] } :=
      ⟨prepared.isToken, prepared.credential, prepared.identity, prepared.attempt, issued⟩
    refine ⟨.prepared document still, .prepared document still, ?_⟩
    have accepted : document.received crypto (created.response crypto) =
        some (document.withResponse (created.response crypto)) ∧
        (document.withResponse (created.response crypto)).validate crypto = true := by
      rw [given, Enrollment.settles, result] at settles
      simp only [Document.received] at settles ⊢
      split at settles
      · next valid => exact ⟨if_pos valid, valid⟩
      · cases settles
    have arrived : IsReceived crypto token document created
        ({ machine with issued := machine.issued ++ [created] }.setTarget .identity
          (some (.document (document.withResponse (created.response crypto))))) :=
      ⟨prepared.isToken, .inl prepared.credential, Machine.target_setTarget _ _ _, accepted.2,
        prepared.attempt.tokenSHA256, List.mem_append_right _ List.mem_cons_self,
        fun result inside => Reply.created.inj ((issued result inside).symm.trans given)⟩
    dsimp only
    rw [accepted.1]
    refine Keeps.bind ((named_keeps _ (writeIdentity_keeps _ accepted.2 (.prepared document still)
      (.received document created arrived))).mono ?_ (fun _ _ => unsteady))
    intro _ first one
    refine (finish_keeps document created (arrived.congr one.toAlike) ?_).mono (fun _ _ => id)
      (fun _ _ => unsteady)
    exact one.clean clean

theorem prepare_keeps (fresh : IsFresh crypto token machine)
    (clean : Clean machine) :
    Recovers authority config token steady
      (fun document other => IsPrepared crypto authority config token document other ∧ Clean other)
      (fun _ _ => steady = false) (prepare config (crypto.sha256 token)) machine := by
  refine Keeps.bind (quiet_keeps .random _ (fun _ => rfl) rfl (.fresh fresh) id fun random => ?_)
  refine Keeps.bind (quiet_keeps .generateKey _ (fun _ => rfl) rfl (.fresh fresh) id
    fun (key : Key crypto) => ?_)
  have attempt := newPrepared_attempt crypto config token random.val random.property key
  rw [if_pos attempt.valid]
  generalize newPrepared _ _ _ _ _ _ _ = document at attempt
  have written : IsPrepared crypto authority config token document
      (machine.setTarget .identity (some (.document document))) :=
    ⟨fresh.isToken, fresh.credential, machine.target_setTarget _ _, attempt, by
      intro result inside
      replace inside : result ∈ machine.issued := inside
      rw [fresh.issued] at inside
      exact nomatch inside⟩
  refine Keeps.seq (writeIdentity_keeps document attempt.valid (.fresh fresh)
    (.prepared document written)) ?_
  intro _ first one
  have here := written.congr one.toAlike
  refine ⟨.prepared document here, here, ?_⟩
  exact one.clean clean

/-- The credential is looked for where none is allowed. -/
theorem credentialExists_keeps {invariant : Machine → Prop} (start : invariant machine)
    (absent : machine.target .credential = none) :
    Enrolls authority steady invariant
      (fun exists' other => exists' = false ∧ other = machine) (fun _ _ => steady = false)
      credentialExists machine := by
  refine Keeps.bind (read_keeps .credential _ start id ?_)
  rw [absent]
  exact ⟨start, rfl, rfl⟩

end ProvenanceRunner.Enrollment
