import ProvenanceRunner.Enrollment.Identity

/-! # Redemptions

What becomes of one request to the registration authority, and what the enrollment makes of it. -/

namespace ProvenanceRunner.Enrollment

open Utf8

structure RedeemResponse where
  runnerID : Bytes
  organizationID : Bytes
  credentialID : Bytes
  credential : Bytes
  issuedAt : Int
  expiresAt : Int
  publicKeyFingerprint : Bytes
deriving DecidableEq, Repr

/-- How a request ends: its context is cancelled, no response arrives, the body cannot be read, a
created runner, a success that does not use the released representation, a problem document, or any
other failure. -/
inductive Reply where
  | cancelled
  | lost
  | unreadable
  | created (response : RedeemResponse)
  | notReleased
  | problem (status : Nat) (code : Bytes)
  | failure (status : Nat)
deriving DecidableEq, Repr

/-- The code of a failed redemption, and whether it may be tried again. -/
structure RedeemError where
  code : Bytes
  retryable : Bool
deriving DecidableEq, Repr

def problemStatusMatches (status : Nat) (code : Bytes) : Bool :=
  match status with
  | 401 => code == encode "registration_token_invalid"
  | 409 =>
    code == encode "idempotency_key_conflict" || code == encode "credential_not_replayable" ||
    code == encode "registration_token_consumed" || code == encode "runner_key_conflict"
  | 410 => code == encode "registration_token_expired"
  | 422 => code == encode "registration_proof_invalid"
  | _ => decide (500 ≤ status) || status == 429

def validProblemCode (code : Bytes) : Bool :=
  !code.isEmpty && decide (code.length ≤ 64) && code.all isCodeByte

def terminalCodes : List Bytes :=
  [encode "credential_not_replayable", encode "registration_token_consumed",
    encode "registration_token_expired", encode "registration_token_invalid",
    encode "registration_proof_invalid", encode "runner_key_conflict",
    encode "idempotency_key_conflict"]

def isTerminal (code : Bytes) : Bool := terminalCodes.contains code

/-- The response that a created runner leaves in the document. -/
def RedeemResponse.response (crypto : Crypto) (result : RedeemResponse) : Response :=
  { credentialID := result.credentialID, credential := result.credential
    credentialSHA256 := crypto.sha256 result.credential
    issuedAt := result.issuedAt, expiresAt := result.expiresAt }

def redeemResult (crypto : Crypto) (document : Document) : Reply → Except RedeemError Response
  | .cancelled => .error ⟨encode "request_cancelled", false⟩
  | .lost => .error ⟨encode "transport_ambiguous", true⟩
  | .unreadable => .error ⟨encode "response_unavailable", true⟩
  | .notReleased => .error ⟨encode "response_invalid", false⟩
  | .created result =>
    if result.runnerID ≠ document.runnerID ∨ result.organizationID ≠ document.organizationID ∨
        result.publicKeyFingerprint ≠ document.publicKeyFingerprint then
      .error ⟨encode "response_invalid", false⟩
    else .ok (result.response crypto)
  | .problem status code =>
    if validProblemCode code && problemStatusMatches status code then
      .error ⟨code, decide (500 ≤ status) || status == 429⟩
    else .error ⟨encode "registration_failed", decide (500 ≤ status)⟩
  | .failure status => .error ⟨encode "registration_failed", decide (500 ≤ status)⟩

/-- A reply that settles the attempt of a document: a response that the document takes, or a code
that ends it. -/
def settles (crypto : Crypto) (document : Document) (reply : Reply) : Bool :=
  match redeemResult crypto document reply with
  | .ok response => (document.received crypto response).isSome
  | .error failure => isTerminal failure.code

/-- A registration authority answers each attempt with one result. -/
structure Authority (crypto : Crypto) where
  reply : Document → Reply
  settles : ∀ document, document.phase = .prepared → document.validate crypto = true →
    settles crypto document (reply document) = true

/-- The replies that a redemption can have when the authority's is given: that one, or none that
settles anything. -/
def Reply.possible (given : Reply) : Reply → Bool
  | .created response => given = .created response
  | .problem status code => !isTerminal code || given = .problem status code
  | _ => true

end ProvenanceRunner.Enrollment
