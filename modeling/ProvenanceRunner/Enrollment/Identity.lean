import Mathlib.Algebra.Group.Int.Defs
import ProvenanceRunner.Evidence.Patterns

/-! # The identity document of a runner

The document goes from prepared to received and active, or from prepared to terminal. It is
validated whenever it is written and whenever it is read. -/

namespace ProvenanceRunner.Enrollment

open Utf8

/-! ## Texts -/

/-- Eight, four, four, four and twelve digits with hyphens between them. -/
def canonicalUUID (text : Bytes) : Bool :=
  text.length == 36 && text.zipIdx.all fun (byte, index) =>
    if index ∈ [8, 13, 18, 23] then byte == 0x2D else isLowerHex byte

/-- Letters, digits and the characters `.`, `_`, `:` and `-`. -/
def isKeyByte (byte : UInt8) : Bool :=
  isUpper byte || isLower byte || isDigit byte ||
    byte == 0x2E || byte == 0x5F || byte == 0x3A || byte == 0x2D

def idempotencyKey (text : Bytes) : Bool :=
  8 ≤ text.length && text.length ≤ 128 && text.all isKeyByte

def sha256Text (text : Bytes) : Bool := text.length == 64 && text.all isLowerHex

def isCodeByte (byte : UInt8) : Bool := isLower byte || isDigit byte || byte == 0x5F

def validCode (value : Bytes) : Bool :=
  match value with
  | [] => false
  | first :: _ => value.length ≤ 64 && isLower first && value.all isCodeByte

/-- The cryptography and the text encoding that documents rely on. `sha256` is written in
hexadecimal; `keyMaterial` says whether a seed, a public key and a fingerprint belong together. -/
structure Crypto where
  sha256 : Bytes → Bytes
  decodeString : Bytes → Option Bytes
  keyMaterial : Bytes → Bytes → Bytes → Bool
  sha256_text : ∀ data, sha256Text (sha256 data) = true
  generates : ∃ seed publicKey fingerprint, keyMaterial seed publicKey fingerprint = true

/-- A secret of 32 bytes in canonical base64 behind a mark of seven bytes. -/
def validSecret (crypto : Crypto) (mark value : Bytes) : Bool :=
  value.length == 50 && mark.isPrefixOf value &&
    match crypto.decodeString (value.drop 7) with
    | none => false
    | some decoded => decoded.length == 32 &&
      Evidence.base64 Evidence.base64Url [] decoded == value.drop 7

def validCredential (crypto : Crypto) : Bytes → Bool := validSecret crypto (encode "prc_v1_")

def validRegistrationToken (crypto : Crypto) : Bytes → Bool :=
  validSecret crypto (encode "prr_v1_")

/-! ## Documents -/

inductive Phase where
  | prepared
  | received
  | active
  | terminal
deriving DecidableEq, Repr

/-- A registration response. Times are in nanoseconds; zero is the zero time. -/
structure Response where
  credentialID : Bytes
  credential : Bytes
  credentialSHA256 : Bytes
  issuedAt : Int
  expiresAt : Int
deriving DecidableEq, Repr

structure Document where
  phase : Phase
  organizationID : Bytes
  runnerID : Bytes
  privateKeySeed : Bytes
  publicKey : Bytes
  publicKeyFingerprint : Bytes
  tokenSHA256 : Bytes
  idempotencyKey : Bytes
  credentialTTLSeconds : Int
  response : Option Response
  terminal : Option Bytes
deriving DecidableEq, Repr

def second : Int := 10 ^ 9

def validActiveResponse (response : Response) : Bool :=
  canonicalUUID response.credentialID && sha256Text response.credentialSHA256 &&
    response.issuedAt != 0 && decide (response.issuedAt < response.expiresAt) &&
    decide (300 * second ≤ response.expiresAt - response.issuedAt) &&
    decide (response.expiresAt - response.issuedAt ≤ 3600 * second)

def validResponse (crypto : Crypto) (response : Response) (requestedTTL : Int) : Bool :=
  validActiveResponse response && validCredential crypto response.credential &&
    decide (response.expiresAt - response.issuedAt ≤ requestedTTL * second) &&
    crypto.sha256 response.credential == response.credentialSHA256

namespace Document

def hasKeyMaterial (crypto : Crypto) (document : Document) : Bool :=
  crypto.keyMaterial document.privateKeySeed document.publicKey document.publicKeyFingerprint

/-- The attempt of a prepared or received document. -/
def validAttempt (document : Document) : Bool :=
  sha256Text document.tokenSHA256 && Enrollment.idempotencyKey document.idempotencyKey &&
    decide (300 ≤ document.credentialTTLSeconds) && decide (document.credentialTTLSeconds ≤ 3600) &&
    document.terminal.isNone

def validate (crypto : Crypto) (document : Document) : Bool :=
  canonicalUUID document.organizationID && canonicalUUID document.runnerID &&
    match document.phase with
    | .prepared => document.hasKeyMaterial crypto && document.validAttempt &&
      document.response.isNone
    | .received => document.hasKeyMaterial crypto && document.validAttempt &&
      match document.response with
      | none => false
      | some response => validResponse crypto response document.credentialTTLSeconds
    | .active => document.hasKeyMaterial crypto && document.tokenSHA256.isEmpty &&
      document.idempotencyKey.isEmpty && document.credentialTTLSeconds == 0 &&
      document.terminal.isNone &&
      match document.response with
      | none => false
      | some response => response.credential.isEmpty && validActiveResponse response
    | .terminal => document.privateKeySeed.isEmpty && document.publicKey.isEmpty &&
      document.publicKeyFingerprint.isEmpty && document.response.isNone &&
      (match document.terminal with
      | none => false
      | some code => validCode code) &&
      sha256Text document.tokenSHA256 && Enrollment.idempotencyKey document.idempotencyKey &&
      document.credentialTTLSeconds == 0

/-- The document that a response makes of a prepared one, not yet validated. -/
def withResponse (document : Document) (response : Response) : Document :=
  { document with phase := .received, response := some response }

def received (crypto : Crypto) (document : Document) (response : Response) : Option Document :=
  let received := document.withResponse response
  if received.validate crypto then some received else none

/-- The active document forgets the attempt and the credential. -/
def withoutAttempt (document : Document) (response : Response) : Document :=
  { document with
    phase := .active, tokenSHA256 := [], idempotencyKey := [], credentialTTLSeconds := 0
    response := some { response with credential := [] } }

def activated (crypto : Crypto) (document : Document) : Option Document :=
  match document.phase, document.response with
  | .received, some response =>
    let active := document.withoutAttempt response
    if active.validate crypto then some active else none
  | _, _ => none

def ended (document : Document) (code : Bytes) : Document :=
  { phase := .terminal, organizationID := document.organizationID, runnerID := document.runnerID
    privateKeySeed := [], publicKey := [], publicKeyFingerprint := []
    tokenSHA256 := document.tokenSHA256, idempotencyKey := document.idempotencyKey
    credentialTTLSeconds := 0, response := none, terminal := some code }

def terminated (crypto : Crypto) (document : Document) (code : Bytes) : Option Document :=
  let terminal := document.ended code
  if terminal.validate crypto then some terminal else none

/-- Whether a credential is the one of an active document. -/
def matchesCredential (crypto : Crypto) (document : Document) (credential : Bytes) : Bool :=
  match document.phase, document.response with
  | .active, some response =>
    !credential.isEmpty && crypto.sha256 credential == response.credentialSHA256
  | _, _ => false

end Document

/-- A seed with its public key and fingerprint. -/
structure Key (crypto : Crypto) where
  privateKeySeed : Bytes
  publicKey : Bytes
  publicKeyFingerprint : Bytes
  belongs : crypto.keyMaterial privateKeySeed publicKey publicKeyFingerprint = true

def newPrepared (crypto : Crypto) (organizationID runnerID tokenSHA256 attempt : Bytes) (ttl : Int)
    (key : Key crypto) : Document :=
  { phase := .prepared, organizationID := organizationID, runnerID := runnerID
    privateKeySeed := key.privateKeySeed, publicKey := key.publicKey
    publicKeyFingerprint := key.publicKeyFingerprint, tokenSHA256 := tokenSHA256
    idempotencyKey := attempt, credentialTTLSeconds := ttl, response := none, terminal := none }

/-! ## What stays valid -/

/-- The characters of the idempotency key of an attempt. -/
theorem base64Url_isKeyByte (index : UInt8) :
    isKeyByte (Evidence.base64Character Evidence.base64Url index) = true := by
  revert index
  apply forall_byte
  decide +kernel

theorem base64Url_all_isKeyByte (data : Bytes) :
    (Evidence.base64 Evidence.base64Url [] data).all isKeyByte = true := by
  fun_induction Evidence.base64 Evidence.base64Url [] data with
  | case1 => rfl
  | case2 | case3 => simp [base64Url_isKeyByte]
  | case4 a b c rest later => simp [base64Url_isKeyByte, later]

theorem base64Url_length (data : Bytes) :
    3 * (Evidence.base64 Evidence.base64Url [] data).length ≤ 4 * data.length + 4 ∧
      4 * data.length ≤ 3 * (Evidence.base64 Evidence.base64Url [] data).length := by
  fun_induction Evidence.base64 Evidence.base64Url [] data with
  | case1 | case2 | case3 => simp
  | case4 =>
    simp only [List.length_append, List.length_cons, List.length_nil]
    omega

/-- The key of a new attempt, from its random bytes. -/
def newIdempotencyKey (random : Bytes) : Bytes :=
  encode "enroll:" ++ Evidence.base64 Evidence.base64Url [] random

theorem newIdempotencyKey_valid (random : Bytes) (length : random.length = 24) :
    idempotencyKey (newIdempotencyKey random) = true := by
  obtain ⟨most, least⟩ := base64Url_length random
  have mark : (encode "enroll:").length = 7 := by decide +kernel
  have bytes : (encode "enroll:").all isKeyByte = true := by decide +kernel
  simp only [idempotencyKey, newIdempotencyKey, List.length_append, List.all_append, mark, bytes,
    base64Url_all_isKeyByte, Bool.and_self, Bool.and_true, Bool.and_eq_true, decide_eq_true_eq]
  omega

end ProvenanceRunner.Enrollment
