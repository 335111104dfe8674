import ProvenanceRunner.Enrollment.Situations
import Mathlib.Data.Fintype.EquivFin

/-! # Convergence of the enrollment

A rerun that is not interrupted brings three of the five situations to the end. In the other two
the identity is already active or terminal; a rerun then returns before it comes to the token, so a
token that is still at its place stays there. -/

namespace ProvenanceRunner.Enrollment

open Utf8 Numerals Interruptions

variable {crypto : Crypto} {authority : Authority crypto} {config : Config} {token : Bytes}
  {machine other : Machine} {steady : Bool}

/-! ## One run -/

section Outcomes

variable (authority : Authority crypto) (config : Config) (token : Bytes) (steady : Bool)
  (program : Enroll crypto Unit) (machine : Machine)

/-- A program ends the enrollment. -/
abbrev Converges : Prop :=
  Recovers authority config token steady (fun _ other => Converged crypto token other)
    (fun _ other => steady = true → Converged crypto token other) program machine

/-- A program fails and changes nothing. -/
abbrev Refuses : Prop :=
  Recovers authority config token steady (fun _ _ => False)
    (fun _ other => steady = true → other = machine) program machine

/-- A program ends the enrollment exactly if it was not stranded. -/
abbrev Settles : Prop :=
  Recovers authority config token steady
    (fun _ other => Converged crypto token other ∧ ¬ Stranded crypto token machine)
    (fun _ other => steady = true →
      (Converged crypto token other ↔ ¬ Stranded crypto token machine)) program machine

end Outcomes

theorem spoiled_invalid {content : Content} (spoiled : content.Spoiled) :
    validRegistrationToken crypto content.bytes = false := by
  by_contra valid
  simp only [validRegistrationToken, validSecret, Bool.not_eq_false, Bool.and_eq_true] at valid
  obtain ⟨_, isRest⟩ := List.isPrefixOf_iff_prefix.1 valid.1.2
  apply spoiled
  rw [← isRest, show encode "prr_v1_" = 0x70 :: encode "rr_v1_" by decide +kernel]
  rfl

variable (document : Document) (identity : Option Document)

/-- An identity that is neither active nor received goes to a redemption. -/
theorem continue_keeps (absent : machine.target .credential = none)
    (recoverable : Recoverable crypto authority config token machine)
    (other : ∀ document ∈ identity, document.phase ≠ .received)
    (resumes : Recovers authority config token steady
      (fun document other => IsPrepared crypto authority config token document other ∧ Clean other)
      (fun _ _ => steady = false) (resume config (crypto.sha256 token) identity) machine) :
    Converges authority config token steady
      (do
        refuseCredential identity
        proceed config (crypto.sha256 token) identity) machine := by
  have goes : Converges authority config token steady
      (proceed config (crypto.sha256 token) identity) machine := by
    have redeems : Converges authority config token steady
        (do
          let document ← resume config (crypto.sha256 token) identity
          redeemAttempt document (crypto.sha256 token)) machine :=
      Keeps.bind (resumes.mono
        (fun document other holds => redeemAttempt_keeps document holds.1 holds.2)
        (fun _ _ => unsteady))
    cases identity with
    | none => exact redeems
    | some document =>
      dsimp only [proceed]
      rw [if_neg (other document rfl)]
      exact redeems
  have refuses : Recovers authority config token steady (fun _ next => next = machine)
      (fun _ _ => steady = false) refusePresentCredential machine := by
    refine Keeps.bind ((credentialExists_keeps recoverable absent).ending.mono ?_
      (fun _ _ stopped => stopped.2))
    rintro exists' next ⟨_, rfl, rfl⟩
    exact ⟨recoverable, rfl⟩
  have refused : (refuseCredential identity : Enroll crypto Unit) = refusePresentCredential := by
    cases identity with
    | none => rfl
    | some document => exact if_neg (other document rfl)
  rw [refused]
  refine Keeps.bind (refuses.mono ?_
    (fun _ _ => unsteady))
  rintro _ next rfl
  exact goes

/-- The identity of the store, absent or valid. -/
theorem readIdentity_keeps {invariant : Machine → Prop} {post : Option Document → Machine → Prop}
    {failed : Failure → Machine → Prop} (identity : Option Document)
    (isIdentity : machine.target .identity = identity.map .document)
    (valid : ∀ document ∈ identity, document.validate crypto = true) (start : invariant machine)
    (stopped : steady = false → ∀ failure, failed failure machine) (then' : post identity machine) :
    Enrolls authority steady invariant post failed readIdentity machine := by
  refine Keeps.bind (read_keeps .identity _ start (fun mode => stopped mode _) ?_)
  rw [isIdentity]
  cases identity with
  | none => exact ⟨start, then'⟩
  | some document =>
    show Keeps _ _ _ _ (if document.validate crypto then _ else _) _
    rw [if_pos (valid document rfl)]
    exact ⟨start, then'⟩

theorem enroll_of_phase (config : Config) (tokenSHA256 : Bytes) (document : Document)
    (phase : document.phase ≠ .active) :
    (enroll config tokenSHA256 (some document) : Enroll crypto Unit) = (do
      refuseCredential (some document)
      proceed config tokenSHA256 (some document)) :=
  if_neg (by simpa [isActive] using phase)

/-- A run that starts a new attempt. -/
theorem enroll_fresh (fresh : IsFresh crypto token machine)
    (isIdentity : machine.target .identity = identity.map .document)
    (clean : Clean machine) :
    Converges authority config token steady
      (enroll config (crypto.sha256 token) identity) machine := by
  cases identity with
  | none =>
    exact continue_keeps none fresh.credential (.fresh fresh) nofun (prepare_keeps fresh clean)
  | some document =>
    rcases fresh.identity with absent | ⟨_, present, _, phase, different⟩
    · rw [absent] at isIdentity
      cases isIdentity
    rw [present] at isIdentity
    cases isIdentity
    rw [enroll_of_phase config _ document (by rw [phase]; decide)]
    refine continue_keeps (some document) fresh.credential (.fresh fresh) ?_ ?_
    · rintro _ ⟨⟩
      rw [phase]
      decide
    · dsimp only [resume]
      rw [if_pos ⟨phase, different⟩]
      exact prepare_keeps fresh clean

/-- A run that redeems again. -/
theorem enroll_prepared (prepared : IsPrepared crypto authority config token document machine)
    (clean : Clean machine) :
    Converges authority config token steady
      (enroll config (crypto.sha256 token) (some document)) machine := by
  have phase := prepared.attempt.phase
  rw [enroll_of_phase config _ document (by rw [phase]; decide)]
  refine continue_keeps (some document) prepared.credential (.prepared document prepared) ?_ ?_
  · rintro _ ⟨⟩
    rw [phase]
    decide
  · have resumed : (resume config (crypto.sha256 token) (some document) :
        Enroll crypto Document) = pure document := by
      simp [resume, phase, prepared.attempt.tokenSHA256, prepared.attempt.runnerID,
        prepared.attempt.organizationID]
    rw [resumed]
    exact ⟨.prepared document prepared, prepared, clean⟩

/-- A run that finds the response. -/
theorem enroll_received (result : RedeemResponse)
    (received : IsReceived crypto token document result machine)
    (clean : Clean machine) :
    Converges authority config token steady
      (enroll config (crypto.sha256 token)
        (some (document.withResponse (result.response crypto)))) machine := by
  have same : (document.withResponse (result.response crypto)).tokenSHA256 = crypto.sha256 token :=
    received.tokenSHA256
  have goes : (enroll config (crypto.sha256 token)
      (some (document.withResponse (result.response crypto))) : Enroll crypto Unit) =
        finish (document.withResponse (result.response crypto)) (crypto.sha256 token) := by
    rw [enroll_of_phase config _ _ (show Phase.received ≠ .active by decide)]
    exact if_pos same
  rw [goes]
  exact (finish_keeps document result received clean).mono (fun _ _ => id)
    (fun _ _ => unsteady)

/-- A document that no run goes on with. -/
def Final (crypto : Crypto) (token : Bytes) (document : Document) : Prop :=
  document.phase = .active ∨
    document.phase = .terminal ∧ document.tokenSHA256 = crypto.sha256 token

/-- With a final identity nothing is changed. -/
theorem enroll_final (credential : document.phase = .terminal → machine.target .credential = none)
    (final : Final crypto token document)
    (recoverable : Recoverable crypto authority config token machine) :
    Refuses authority config token steady
      (enroll config (crypto.sha256 token) (some document)) machine := by
  rcases final with active | ⟨terminal, same⟩
  · have stops : (enroll config (crypto.sha256 token) (some document) : Enroll crypto Unit) =
        .fail (.message
        "runner identity is already active; the supplied registration token was left untouched") :=
      if_pos (by simp [isActive, active])
    rw [stops]
    exact ⟨recoverable, fun _ => rfl⟩
  · rw [enroll_of_phase config _ document (by rw [terminal]; decide)]
    have refused : (refuseCredential (some document) : Enroll crypto Unit) =
        refusePresentCredential := if_neg (by rw [terminal]; decide)
    rw [refused]
    refine Keeps.bind (Keeps.bind ((credentialExists_keeps recoverable
      (credential terminal)).ending.mono ?_
      (fun _ _ stopped => unsteady stopped.2)))
    rintro exists' next ⟨_, rfl, rfl⟩
    refine ⟨recoverable, ?_⟩
    have stops : (proceed config (crypto.sha256 token) (some document) : Enroll crypto Unit) =
        .fail (.registration (document.terminal.getD []) false) := by
      simp only [proceed, resume, terminal, same, reduceCtorEq, if_false, ne_eq, not_true_eq_false,
        and_false, if_true]
      rfl
    rw [stops]
    exact ⟨recoverable, fun _ => rfl⟩

/-- A run that does not find a token changes nothing. -/
theorem runOpened_without (recoverable : Recoverable crypto authority config token machine)
    (without : ∀ content, machine.target .token = some content → content.Spoiled) :
    Refuses authority config token steady
      (runOpened config) machine := by
  refine Keeps.bind (Keeps.bind (read_keeps .token _ recoverable (fun _ _ => rfl) ?_))
  cases present : machine.target .token with
  | none => exact ⟨recoverable, fun _ => rfl⟩
  | some content =>
    refine ⟨recoverable, ?_⟩
    show Keeps _ _ _ _ (if validRegistrationToken crypto content.bytes then _ else _) _
    rw [if_neg (by rw [spoiled_invalid (without content present)]; exact Bool.false_ne_true)]
    exact ⟨recoverable, fun _ => rfl⟩

/-- An unfinished attempt is not stranded. -/
theorem not_stranded (isIdentity : machine.target .identity = identity.map .document)
    (unfinished : ∀ document ∈ identity, ¬ Final crypto token document) :
    ¬ Stranded crypto token machine := by
  rintro ⟨_, document, present, final⟩
  rw [isIdentity] at present
  obtain ⟨_, isOther, same⟩ := Option.map_eq_some_iff.1 present
  cases same
  exact unfinished document isOther final

theorem Finished.final (finished : Finished crypto token machine) :
    ∃ document, machine.target .identity = some (.document document) ∧
      document.validate crypto = true ∧ Final crypto token document ∧
      (document.phase = .terminal → machine.target .credential = none) := by
  rcases finished with ⟨document, _, active⟩ | ⟨document, terminal⟩
  · exact ⟨document, active.identity, active.valid, .inl active.phase, by simp [active.phase]⟩
  · exact ⟨document, terminal.identity, terminal.valid, .inr ⟨terminal.phase, terminal.tokenSHA256⟩,
      fun _ => terminal.credential⟩

theorem Stranded.congr (crypto : Crypto) (token : Bytes) (target : other.target = machine.target) :
    Stranded crypto token other ↔ Stranded crypto token machine := by
  unfold Stranded
  rw [target]

section

variable (config : Config) (valid : validRegistrationToken crypto token = true)

include valid

/-- A run that finds the token goes on with the identity. -/
theorem runOpened_present {post : Unit → Machine → Prop} {failed : Failure → Machine → Prop}
    (isToken : machine.target .token = some (.raw token)) (identity : Option Document)
    (isIdentity : machine.target .identity = identity.map .document)
    (validIdentity : ∀ document ∈ identity, document.validate crypto = true)
    (recoverable : Recoverable crypto authority config token machine)
    (stopped : steady = false → ∀ failure, failed failure machine)
    (goes : Recovers authority config token steady
      post failed (enroll config (crypto.sha256 token) identity) machine) :
    Recovers authority config token steady post failed
      (runOpened config) machine := by
  refine Keeps.bind (Keeps.bind (read_keeps .token _ recoverable (fun mode => stopped mode _) ?_))
  rw [isToken]
  refine ⟨recoverable, ?_⟩
  show Keeps _ _ _ _ (if validRegistrationToken crypto token then _ else _) _
  rw [if_pos valid]
  exact Keeps.bind (readIdentity_keeps identity isIdentity validIdentity recoverable stopped goes)

/-- A run over an unfinished attempt. -/
theorem runOpened_unfinished (isToken : machine.target .token = some (.raw token))
    (isIdentity : machine.target .identity = identity.map .document)
    (recoverable : Recoverable crypto authority config token machine)
    (documents : ∀ document ∈ identity, document.validate crypto = true ∧
      ¬ Final crypto token document)
    (goes : Converges authority config token steady (enroll config (crypto.sha256 token) identity)
      machine) :
    Settles authority config token steady (runOpened config) machine := by
  have kept := not_stranded identity isIdentity fun document inside => (documents document inside).2
  have keeps : Converges authority config token steady (runOpened config) machine :=
    runOpened_present config valid isToken identity isIdentity
      (fun document inside => (documents document inside).1) recoverable
      (fun mode _ => unsteady mode) goes
  exact keeps.mono (fun _ _ converged => ⟨converged, kept⟩)
    (fun _ _ converges steadily => ⟨fun _ => kept, fun _ => converges steadily⟩)

/-- A run over a final identity changes nothing: the enrollment has ended, unless the token is still
there. -/
theorem runOpened_finished (finished : Finished crypto token machine) (left : Left token machine)
    (clean : Clean machine) :
    Settles authority config token steady (runOpened config) machine := by
  obtain ⟨document, identity, validDocument, final, credential⟩ := finished.final
  have recoverable : Recoverable crypto authority config token machine := finished.recoverable left
  have refuses : Refuses authority config token steady (runOpened config) machine := by
    by_cases isToken : machine.target .token = some (.raw token)
    · refine runOpened_present config valid isToken (some document) identity ?_ recoverable
        (fun mode _ => unsteady mode) (enroll_final document credential final recoverable)
      rintro _ ⟨⟩
      exact validDocument
    · refine runOpened_without recoverable ?_
      intro content present
      rcases left content present with rfl | spoiled
      · exact absurd present isToken
      · exact spoiled
  refine refuses.mono (fun _ _ => False.elim) ?_
  intro _ other unchanged steadily
  rw [unchanged steadily]
  constructor
  · intro converged stranded
    exact stranded.1 converged.2.1
  intro kept
  refine ⟨finished, ?_, clean⟩
  by_contra present
  exact kept ⟨present, document, identity, final⟩

/-- A run on the open store, from every situation. -/
theorem runOpened_keeps (recoverable : Recoverable crypto authority config token machine)
    (clean : Clean machine) :
    Settles authority config token steady (runOpened config) machine := by
  cases recoverable with
  | fresh fresh =>
    rcases fresh.identity with absent | ⟨document, present, validDocument, phase, different⟩
    · exact runOpened_unfinished none config valid fresh.isToken absent (.fresh fresh) nofun
        (enroll_fresh none fresh absent clean)
    refine runOpened_unfinished (some document) config valid fresh.isToken present (.fresh fresh) ?_
      (enroll_fresh (some document) fresh present clean)
    rintro _ ⟨⟩
    exact ⟨validDocument, by simp [Final, phase, different]⟩
  | prepared document prepared =>
    refine runOpened_unfinished (some document) config valid prepared.isToken prepared.identity
      (.prepared document prepared) ?_ (enroll_prepared document prepared clean)
    rintro _ ⟨⟩
    exact ⟨prepared.attempt.valid, by simp [Final, prepared.attempt.phase]⟩
  | received document result received =>
    refine runOpened_unfinished (some _) config valid received.isToken received.identity
      (.received document result received) ?_ (enroll_received document result received clean)
    rintro _ ⟨⟩
    exact ⟨received.valid, by simp [Final, Document.withResponse]⟩
  | active document result active left =>
    exact runOpened_finished config valid (.inl ⟨document, result, active⟩) left clean
  | terminal document terminal left =>
    exact runOpened_finished config valid (.inr ⟨document, terminal⟩) left clean

/-- One run: wherever it is stopped its situation is recoverable, and without an interruption it
converges exactly if it was not stranded. -/
theorem run_keeps (recoverable : Recoverable crypto authority config token machine) :
    Settles authority config token steady
      (run config) machine := by
  refine Keeps.bind ((openStore_keeps fun other alike => recoverable.congr alike).mono ?_
    (fun _ _ => unsteady))
  rintro _ opened ⟨alike, clean⟩
  simp only [← Stranded.congr crypto token alike.target]
  exact runOpened_keeps config valid (recoverable.congr alike) clean

end

/-! ## Runs and reruns -/

/-- The machines that any number of runs leave, each stopped anywhere. -/
inductive Reached (crypto : Crypto) (authority : Authority crypto) (config : Config)
    (token : Bytes) : Machine → Prop where
  | start (machine : Machine) (fresh : IsFresh crypto token machine) :
    Reached crypto authority config token machine
  | stopped (machine next : Machine) (past : Reached crypto authority config token machine)
    (stops : Stops (perform crypto authority false) (run config) machine next) :
    Reached crypto authority config token next

theorem Reached.recoverable (valid : validRegistrationToken crypto token = true)
    (reached : Reached crypto authority config token machine) :
    Recoverable crypto authority config token machine := by
  induction reached with
  | start machine fresh => exact .fresh fresh
  | stopped machine next _ stops recoverable =>
    exact (run_keeps config valid recoverable).stops stops

/-- While nothing interrupts, every call has an answer. -/
theorem perform_total (crypto : Crypto) (authority : Authority crypto) (op : Op)
    (machine : Machine) :
    ∃ answer next, perform crypto authority true op answer machine = some next := by
  by_cases possible : op.possible machine = true
  swap
  · exact ⟨none, machine, by simp [perform, possible]⟩
  have works : ∀ payload next, op.effect crypto authority machine payload = some next →
      op.settled crypto authority payload = true →
      ∃ answer next, perform crypto authority true op answer machine = some next := by
    intro payload next effect settled
    exact ⟨some payload, next, by simp [perform, possible, settled, effect]⟩
  have fresh : ∀ place, ∃ suffix, machine.temporary place suffix = none := by
    intro place
    obtain ⟨suffix, unused⟩ :=
      Infinite.exists_notMem_finset (machine.temporaries place).names.toFinset
    refine ⟨suffix, ?_⟩
    by_contra present
    exact unused (List.mem_toFinset.2
      ((Directory.content_isSome _ _).1 (Option.isSome_iff_ne_none.2 present)))
  cases op with
  | lock => exact works () machine rfl rfl
  | list place => exact works (machine.temporaries place).names machine (if_pos rfl) rfl
  | writeSome => exact works ([] : Bytes) _ rfl rfl
  | write => exact works () _ rfl rfl
  | zeroSome => exact works (0 : Nat) _ rfl rfl
  | zero | unlink => exact works () _ rfl rfl
  | syncDirectory => exact works () machine rfl rfl
  | read place => exact works (machine.target place) machine (if_pos rfl) rfl
  | check => exact works () machine rfl rfl
  | createTemporary place =>
    obtain ⟨suffix, free⟩ := fresh place
    exact works suffix _ (if_pos (by rw [free]; rfl)) rfl
  | install => exact works () _ rfl rfl
  | exchange =>
    simp only [Op.possible, Bool.and_eq_true, Option.isSome_iff_exists] at possible
    obtain ⟨⟨_, isOld⟩, _⟩ := possible
    exact works () _ (by simp only [Op.effect, isOld]; rfl) rfl
  | isolate place =>
    simp only [Op.possible, Option.isSome_iff_exists] at possible
    obtain ⟨_, isContent⟩ := possible
    obtain ⟨suffix, free⟩ := fresh place
    exact works suffix _ (by simp only [Op.effect, isContent, free]; rfl) rfl
  | restore => exact works () _ rfl rfl
  | random => exact works ⟨List.replicate 24 0, rfl⟩ machine rfl rfl
  | generateKey =>
    obtain ⟨seed, publicKey, fingerprint, belongs⟩ := crypto.generates
    exact works ⟨seed, publicKey, fingerprint, belongs⟩ machine rfl rfl
  | redeem document =>
    have answered :
        Reply.possible (authority.reply document) (authority.reply document) = true := by
      cases authority.reply document <;> simp [Reply.possible]
    exact works (authority.reply document) _ (if_pos answered) (by simp [Op.settled])

/-- A rerun after any number of interrupted runs: it ends, and it converges exactly if it did not
start with a final identity beside the token.

Proof: `run_keeps` goes through the five situations a run can start in; `exists_ends` ends it. -/
theorem enrollment_converges (crypto : Crypto) (authority : Authority crypto) (config : Config)
    (token : Bytes) (valid : validRegistrationToken crypto token = true) (machine : Machine)
    (reached : Reached crypto authority config token machine) :
    (∀ result last, Ends (perform crypto authority true) (run config) machine result last →
      (Converged crypto token last ↔ ¬ Stranded crypto token machine)) ∧
    ∃ result last, Ends (perform crypto authority true) (run config) machine result last := by
  constructor
  · intro result last ends
    have holds := (run_keeps config valid (reached.recoverable valid)).ends ends
    cases result with
    | ok => exact ⟨fun _ => holds.2, fun _ => holds.1⟩
    | error => exact holds rfl
  · exact exists_ends (perform_total crypto authority) (run config) machine

/-! ## A token that stays -/

/-- A digest that repeats one digit, which depends on the data. -/
def sampleDigest (data : Bytes) : Bytes :=
  List.replicate 64 (digitByte (data.foldl (fun total byte => total + byte.toNat) 0 % 16))

theorem sampleDigest_text (data : Bytes) : sha256Text (sampleDigest data) = true := by
  have digit := isLowerHex_digitByte _
    (Nat.mod_lt (data.foldl (fun total byte => total + byte.toNat) 0) (by decide : 0 < 16))
  simp [sha256Text, sampleDigest, digit]

/-- A public key is the seed of 32 bytes itself, and its fingerprint is its digest. -/
def sampleCrypto : Crypto where
  sha256 := sampleDigest
  decodeString text := if text = List.replicate 43 0x41 then some (List.replicate 32 0) else none
  keyMaterial seed publicKey fingerprint :=
    seed.length == 32 && publicKey == seed && fingerprint == sampleDigest publicKey
  sha256_text := sampleDigest_text
  generates := ⟨List.replicate 32 0x61, List.replicate 32 0x61,
    sampleDigest (List.replicate 32 0x61), by decide +kernel⟩

def sampleKey : Key sampleCrypto where
  privateKeySeed := List.replicate 32 0x61
  publicKey := List.replicate 32 0x61
  publicKeyFingerprint := sampleDigest (List.replicate 32 0x61)
  belongs := by decide +kernel

def sampleToken : Bytes := encode "prr_v1_" ++ List.replicate 43 0x41

def sampleUUID : Bytes := encode "00000000-0000-0000-0000-000000000011"

def sampleConfig : Config where
  organizationID := sampleUUID
  runnerID := sampleUUID
  credentialTTLSeconds := 900
  organization_canonical := by decide +kernel
  runner_canonical := by decide +kernel
  ttl_bounds := by decide

/-- A created runner for every document. -/
def sampleResult (document : Document) : RedeemResponse where
  runnerID := document.runnerID
  organizationID := document.organizationID
  credentialID := sampleUUID
  credential := encode "prc_v1_" ++ List.replicate 43 0x41
  issuedAt := 1
  expiresAt := 1 + 300 * second
  publicKeyFingerprint := document.publicKeyFingerprint

theorem sampleResult_settles (phase : document.phase = .prepared)
    (valid : document.validate sampleCrypto = true) :
    settles sampleCrypto document (.created (sampleResult document)) = true := by
  have result : redeemResult sampleCrypto document (.created (sampleResult document)) =
      .ok ((sampleResult document).response sampleCrypto) := by
    simp [redeemResult, sampleResult]
  have active : validActiveResponse ((sampleResult document).response sampleCrypto) = true := by
    have fixed : validActiveResponse ⟨sampleUUID, [],
        sampleDigest (encode "prc_v1_" ++ List.replicate 43 0x41), 1, 1 + 300 * second⟩ =
          true := by decide +kernel
    exact fixed
  have credential : validCredential sampleCrypto
      (encode "prc_v1_" ++ List.replicate 43 0x41) = true := by decide +kernel
  simp only [Document.validate, phase, Document.validAttempt, Bool.and_eq_true] at valid
  have ttl : 300 ≤ document.credentialTTLSeconds := by simpa using valid.2.1.2.1.1.2
  have response : validResponse sampleCrypto ((sampleResult document).response sampleCrypto)
      document.credentialTTLSeconds = true := by
    simp only [validResponse, active, Bool.true_and, Bool.and_eq_true, decide_eq_true_eq]
    refine ⟨⟨credential, ?_⟩, BEq.rfl⟩
    show 1 + 300 * second - 1 ≤ document.credentialTTLSeconds * second
    simp only [second]
    omega
  have received : (document.withResponse
      ((sampleResult document).response sampleCrypto)).validate sampleCrypto = true := by
    simp only [Document.validate, Document.withResponse, Document.validAttempt, response,
      Bool.and_eq_true]
    exact ⟨valid.1, ⟨valid.2.1.1, valid.2.1.2⟩, trivial⟩
  simp only [settles, result, Document.received, received, if_true, Option.isSome_some]

def sampleAuthority : Authority sampleCrypto where
  reply document := .created (sampleResult document)
  settles := sampleResult_settles

def sampleMachine : Machine where
  target place := if place = .token then some (.raw sampleToken) else none
  temporaries _ := ⟨[], List.nodup_nil⟩
  issued := []

/-- The answers of a system that works. -/
def sampleAnswers : (op : Op) → Machine → op.Answer sampleCrypto
  | .lock, _ => some ()
  | .list place, machine => some (machine.temporaries place).names
  | .writeSome _ _, _ => some ([] : Bytes)
  | .write _ _ _, _ => some ()
  | .zeroSome _ _, _ => some (0 : Nat)
  | .zero _ _, _ => some ()
  | .unlink _ _, _ => some ()
  | .syncDirectory _, _ => some ()
  | .read place, machine => some (machine.target place)
  | .check _, _ => some ()
  | .createTemporary _, _ => some (0 : Nat)
  | .install _ _, _ => some ()
  | .exchange _ _, _ => some ()
  | .isolate _, _ => some (0 : Nat)
  | .restore _ _, _ => some ()
  | .random, _ => some ⟨List.replicate 24 0, rfl⟩
  | .generateKey, _ => some sampleKey
  | .redeem document, _ => some (.created (sampleResult document))

/-- The machine when the process stops after the given number of calls. -/
def stoppedMachine (count : Nat) : Machine :=
  stopAfter (perform sampleCrypto sampleAuthority false) sampleAnswers count (run sampleConfig)
    sampleMachine

/-- The machine when the process stops after the identity became active. -/
def strandedMachine : Machine := stoppedMachine 42

theorem sampleMachine_fresh : IsFresh sampleCrypto sampleToken sampleMachine :=
  ⟨rfl, rfl, rfl, .inl rfl⟩

theorem stoppedMachine_reached (count : Nat) :
    Reached sampleCrypto sampleAuthority sampleConfig sampleToken (stoppedMachine count) :=
  .stopped sampleMachine _ (.start _ sampleMachine_fresh) (stops_stopAfter sampleAnswers count _ _)

/-- The process stops between the write of the active identity and the removal of the token. The
rerun is not interrupted and leaves the token. -/
theorem active_identity_keeps_token :
    Reached sampleCrypto sampleAuthority sampleConfig sampleToken strandedMachine ∧
    ∃ result last, Ends (perform sampleCrypto sampleAuthority true) (run sampleConfig)
      strandedMachine result last ∧ last.target .token = some (.raw sampleToken) ∧
      ¬ Converged sampleCrypto sampleToken last := by
  refine ⟨stoppedMachine_reached 42, ?_⟩
  have executed : (execute (perform sampleCrypto sampleAuthority true) sampleAnswers
      (run sampleConfig) strandedMachine).map (fun ended => ended.2.target .token) =
        some (some (.raw sampleToken)) := by decide +kernel
  obtain ⟨⟨result, last⟩, ended, present⟩ := Option.map_eq_some_iff.1 executed
  refine ⟨result, last, ends_execute sampleAnswers _ _ _ _ ended, present, ?_⟩
  rintro ⟨_, absent, _⟩
  exact nomatch absent.symm.trans present

/-- The process stops when the token has been redeemed and the answer is not yet in the identity. -/
theorem stoppedMachine_prepared : (stoppedMachine 18).target .identity = some (.document
    (newPrepared sampleCrypto sampleUUID sampleUUID (sampleDigest sampleToken)
      (encode "enroll:" ++ List.replicate 32 0x41) 900 sampleKey)) := by
  decide +kernel

/-- After a stop with a redeemed token, a rerun that is not interrupted converges. -/
theorem enrollment_converges_stopped :
    (stoppedMachine 18).issued.length = 1 ∧
      ∃ result last, Ends (perform sampleCrypto sampleAuthority true) (run sampleConfig)
        (stoppedMachine 18) result last ∧ Converged sampleCrypto sampleToken last := by
  have valid : validRegistrationToken sampleCrypto sampleToken = true := by decide +kernel
  obtain ⟨converges, result, last, ends⟩ := enrollment_converges sampleCrypto sampleAuthority
    sampleConfig sampleToken valid (stoppedMachine 18) (stoppedMachine_reached 18)
  refine ⟨by decide +kernel, result, last, ends, (converges result last ends).2 ?_⟩
  refine not_stranded (some _) stoppedMachine_prepared fun document inside final => ?_
  obtain rfl := Option.some.inj inside
  simp [Final, newPrepared] at final

/-- What is in the store wherever an enrollment was stopped: a whole identity or none, and no
credential but the one that was issued, which an active identity always has beside it. -/
structure Consistent (crypto : Crypto) (machine : Machine) : Prop where
  whole : ∀ content, machine.target .identity = some content →
    ∃ document, content = .document document ∧ document.validate crypto = true
  once : ∀ one ∈ machine.issued, ∀ other ∈ machine.issued, one = other
  credential : ∀ content, machine.target .credential = some content →
    ∃ result ∈ machine.issued, content = .raw result.credential
  active : ∀ document, machine.target .identity = some (.document document) →
    document.phase = .active → ∃ result ∈ machine.issued,
      machine.target .credential = some (.raw result.credential) ∧
      document.matchesCredential crypto result.credential = true

/-- However often an enrollment was stopped, and wherever, the store is consistent.

Proof: each of the five situations is consistent. -/
theorem enrollment_crash_consistent (crypto : Crypto) (authority : Authority crypto)
    (config : Config) (token : Bytes) (valid : validRegistrationToken crypto token = true)
    (machine : Machine) (reached : Reached crypto authority config token machine) :
    Consistent crypto machine := by
  cases reached.recoverable valid with
  | fresh fresh =>
    obtain ⟨_, credential, issued, identity | ⟨document, identity, valid, phase, _⟩⟩ := fresh
    · constructor <;> simp [identity, credential, issued]
    · constructor <;> simp [identity, credential, issued, valid, phase]
  | prepared document prepared =>
    obtain ⟨_, credential, identity, ⟨phase, valid⟩, issued⟩ := prepared
    refine ⟨?_, fun one isOne other isOther => ?_, ?_, ?_⟩
    · simp [identity, valid]
    · exact Reply.created.inj ((issued one isOne).symm.trans (issued other isOther))
    · simp [credential]
    · simp [identity, phase]
  | received document result received =>
    obtain ⟨_, credential | credential, identity, valid, _, issued, only⟩ := received <;>
      constructor <;> simp_all [Document.withResponse]
    exact ⟨result, issued, rfl⟩
  | active document result active =>
    obtain ⟨credential, identity, valid, phase, agrees, issued, only⟩ := active
    constructor <;> simp_all
    · exact ⟨result, issued, rfl⟩
    · exact ⟨result, issued, rfl, agrees⟩
  | terminal document terminal =>
    obtain ⟨credential, identity, valid, phase, _, issued⟩ := terminal
    constructor <;> simp [identity, credential, issued, valid, phase]

/-- The enrollment that is stopped before the token is removed. -/
theorem enrollment_crash_consistent_stranded :
    strandedMachine.issued.length = 1 ∧ Consistent sampleCrypto strandedMachine :=
  ⟨by decide +kernel, enrollment_crash_consistent sampleCrypto sampleAuthority sampleConfig
    sampleToken (by decide +kernel) strandedMachine (stoppedMachine_reached 42)⟩

end ProvenanceRunner.Enrollment
