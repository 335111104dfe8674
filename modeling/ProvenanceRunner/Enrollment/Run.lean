import ProvenanceRunner.Enrollment.Store

/-! # The enrollment

`run` is one execution of the enrollment command on the store. -/

namespace ProvenanceRunner.Enrollment

open Utf8

/-- What the configuration files say. Loading them puts the identifiers in lower case. -/
structure Config where
  organizationID : Bytes
  runnerID : Bytes
  credentialTTLSeconds : Int
  organization_canonical : canonicalUUID organizationID = true
  runner_canonical : canonicalUUID runnerID = true
  ttl_bounds : 300 ≤ credentialTTLSeconds ∧ credentialTTLSeconds ≤ 3600

variable {crypto : Crypto}

def registration (failure : RedeemError) : Failure := .registration failure.code failure.retryable

def redeem (document : Document) : Enroll crypto (Except RedeemError Response) :=
  if document.hasKeyMaterial crypto && document.phase != .terminal then do
    let reply ← attempt (.redeem document) "construct registration request failed"
    pure (redeemResult crypto document reply)
  else pure (.error ⟨encode "local_identity_invalid", false⟩)

def finish (document : Document) (tokenSHA256 : Bytes) : Enroll crypto Unit := do
  match document.response with
  | none => .fail (.message "runner identity has no durable enrollment response")
  | some response =>
    installCredential response.credential
    match document.activated crypto with
    | none => .fail (.message "active runner identity state is invalid")
    | some active =>
      named (writeIdentity active) "persist active runner identity failed"
      named (removeToken tokenSHA256) "clear consumed registration token failed"

/-- A new attempt, durable before it is used. -/
def prepare (config : Config) (tokenSHA256 : Bytes) : Enroll crypto Document := do
  let random ← attempt .random "generate enrollment attempt identity failed"
  let key ← attempt .generateKey "generate runner identity failed"
  let document := newPrepared crypto config.organizationID config.runnerID tokenSHA256
    (newIdempotencyKey random.val) config.credentialTTLSeconds key
  if document.validate crypto then
    writeIdentity document
    pure document
  else .fail (.message "runner identity metadata is invalid")

/-- The attempt that a document asks to be continued, or a new one. -/
def resume (config : Config) (tokenSHA256 : Bytes) : Option Document → Enroll crypto Document
  | none => prepare config tokenSHA256
  | some document =>
    if document.phase = .terminal ∧ document.tokenSHA256 ≠ tokenSHA256 then
      prepare config tokenSHA256
    else if document.phase = .terminal then
      .fail (.registration (document.terminal.getD []) false)
    else if document.phase ≠ .prepared ∨ document.tokenSHA256 ≠ tokenSHA256 ∨
        document.runnerID ≠ config.runnerID ∨ document.organizationID ≠ config.organizationID then
      .fail (.message
        "recoverable enrollment does not match the connect configuration or registration token")
    else pure document

/-- A code that ends the attempt is kept, and the token goes. -/
def conclude (document : Document) (failure : RedeemError) (tokenSHA256 : Bytes) :
    Enroll crypto Unit := do
  if isTerminal failure.code then
    match document.terminated crypto failure.code with
    | none => .fail (.message "terminal runner identity state is invalid")
    | some terminal =>
      named (writeIdentity terminal) "persist terminal enrollment state failed"
      named (removeToken tokenSHA256) "clear terminal registration token failed"
      .fail (registration failure)
  else .fail (registration failure)

def redeemAttempt (document : Document) (tokenSHA256 : Bytes) : Enroll crypto Unit := do
  match ← redeem document with
  | .error failure => conclude document failure tokenSHA256
  | .ok response =>
    match document.received crypto response with
    | none => .fail (.message "registration response is invalid")
    | some received =>
      named (writeIdentity received) "persist registration response failed"
      finish received tokenSHA256

def refusePresentCredential : Enroll crypto Unit := do
  if ← credentialExists then
    .fail (.message
      "credential file already exists; enrollment will not replace a usable credential")
  else pure ()

/-- A document that is not received must not meet a credential. -/
def refuseCredential : Option Document → Enroll crypto Unit
  | none => refusePresentCredential
  | some document => if document.phase = .received then pure () else refusePresentCredential

def proceed (config : Config) (tokenSHA256 : Bytes) (identity : Option Document) :
    Enroll crypto Unit :=
  match identity with
  | some document =>
    if document.phase = .received then
      if document.tokenSHA256 = tokenSHA256 then finish document tokenSHA256
      else .fail (.message "registration token does not match the recoverable enrollment")
    else do
      let document ← resume config tokenSHA256 (some document)
      redeemAttempt document tokenSHA256
  | none => do
    let document ← resume config tokenSHA256 none
    redeemAttempt document tokenSHA256

def isActive : Option Document → Bool
  | some document => document.phase == .active
  | none => false

/-- The bytes of a file, if it is not a document. -/
def Content.bytes : Content → Bytes
  | .raw bytes => bytes
  | .document _ => []

/-- What a run does with the identity that it finds. -/
def enroll (config : Config) (tokenSHA256 : Bytes) (identity : Option Document) :
    Enroll crypto Unit := do
  if isActive identity then
    .fail (.message
      "runner identity is already active; the supplied registration token was left untouched")
  else
    refuseCredential identity
    proceed config tokenSHA256 identity

/-- A run on the open store. -/
def runOpened (config : Config) : Enroll crypto Unit := do
  let token ← readToken
  if validRegistrationToken crypto token.bytes then
    let identity ← readIdentity
    enroll config (crypto.sha256 token.bytes) identity
  else .fail (.message "registration token is invalid")

def run (config : Config) : Enroll crypto Unit := do
  openStore
  runOpened config

end ProvenanceRunner.Enrollment
