import ProvenanceRunner.Evidence.Sanitizer

/-! # Configuration of a collector

A configuration comes with signed limits, zero for a default. `withDefaults` checks it once and
yields the settings every later stage reads. -/

namespace ProvenanceRunner.Evidence

open Utf8

structure Config where
  maxLineBytes : Int := 0
  maxTotalBytes : Int := 0
  maxCompleteLogBytes : Int := 0
  maxEvents : Int := 0
  maxEventBytes : Int := 0
  secrets : List Bytes := []
  structuredLinePrefix : Bytes := []
  structuredLineKind : Bytes := []
deriving DecidableEq, Repr

/-- A checked configuration. -/
structure Settings where
  patterns : SecretPatterns
  maxLineBytes : Nat
  maxTotalBytes : Nat
  maxCompleteLogBytes : Nat
  maxEvents : Nat
  maxEventBytes : Nat
  structuredLinePrefix : Bytes
  structuredLineKind : Bytes
deriving DecidableEq, Repr

def defaultMaxLineBytes : Nat := 16 * 2 ^ 10
def defaultMaxTotalBytes : Nat := 2 ^ 20
def defaultMaxCompleteLogBytes : Nat := 256 * 2 ^ 20
def defaultMaxEvents : Nat := 1024
def defaultMaxEventBytes : Nat := 64 * 2 ^ 10
def maximumLineBytes : Nat := 2 ^ 20
def maximumTotalBytes : Nat := 64 * 2 ^ 20
def maximumCompleteLogBytes : Nat := 256 * 2 ^ 20
def maximumEvents : Nat := 1024
def maximumEventBytes : Nat := 64 * 2 ^ 10
def maximumPrefixBytes : Nat := 128
def maximumSecrets : Nat := 64
def maximumSecretBytes : Nat := 64 * 2 ^ 10

/-- A limit with zero standing for its default. -/
def limitOrDefault (limit : Int) (default : Nat) : Nat := if limit = 0 then default else limit.toNat

/-- The checks on the secrets in their order; `seen` holds the distinct ones so far. -/
def checkSecrets (seen : List Bytes) : List Bytes → Except String Unit
  | [] => .ok ()
  | secret :: rest =>
    if secret.isEmpty then .error "redaction secrets cannot be empty"
    else if ¬ valid secret then .error "redaction secrets must be valid UTF-8"
    else if secret ∈ seen then checkSecrets seen rest
    else if (secret :: seen).length > maximumSecrets ∨
        ((secret :: seen).map List.length).sum > maximumSecretBytes then
      .error "redaction secret configuration exceeds its limit"
    else checkSecrets (secret :: seen) rest

/-- The kind is checked with an empty object as payload, where a kind is configured. -/
def Config.checkKind (config : Config) (eventBytes : Nat) : Except String Unit :=
  if config.structuredLineKind.isEmpty then .ok ()
  else
    (validateEvent ⟨config.structuredLineKind, encode "\x7b\x7d"⟩ eventBytes).mapError
      ("structured line kind: " ++ ·)

def Config.withDefaults (config : Config) : Except String Settings :=
  if config.maxLineBytes < 0 ∨ config.maxTotalBytes < 0 ∨ config.maxCompleteLogBytes < 0 ∨
      config.maxEvents < 0 ∨ config.maxEventBytes < 0 then
    .error "evidence limits cannot be negative"
  else
    let lineBytes := limitOrDefault config.maxLineBytes defaultMaxLineBytes
    let totalBytes := limitOrDefault config.maxTotalBytes defaultMaxTotalBytes
    let completeLogBytes := limitOrDefault config.maxCompleteLogBytes defaultMaxCompleteLogBytes
    let events := limitOrDefault config.maxEvents defaultMaxEvents
    let eventBytes := limitOrDefault config.maxEventBytes defaultMaxEventBytes
    if lineBytes > maximumLineBytes ∨ totalBytes > maximumTotalBytes ∨
        completeLogBytes > maximumCompleteLogBytes ∨ events > maximumEvents ∨
        eventBytes > maximumEventBytes then
      .error "evidence configuration exceeds supported limits"
    else if config.structuredLinePrefix.isEmpty ≠ config.structuredLineKind.isEmpty then
      .error "structured line prefix and kind must be configured together"
    else if config.structuredLinePrefix.length > maximumPrefixBytes ∨
        config.structuredLinePrefix.any isLineBreak ∨ ¬ valid config.structuredLinePrefix then
      .error "structured line prefix is invalid"
    else match config.checkKind eventBytes, checkSecrets [] config.secrets,
        compileSecrets config.secrets with
      | .error message, _, _ => .error message
      | _, .error message, _ => .error message
      | _, _, .error message => .error message
      | .ok (), .ok (), .ok patterns =>
        .ok
          { patterns := patterns
            maxLineBytes :=
              if config.structuredLinePrefix.isEmpty ∧ lineBytes > totalBytes then totalBytes
              else lineBytes
            maxTotalBytes := totalBytes
            maxCompleteLogBytes := completeLogBytes
            maxEvents := events
            maxEventBytes := eventBytes
            structuredLinePrefix := config.structuredLinePrefix
            structuredLineKind := config.structuredLineKind }

/-- The settings of the empty configuration. -/
def defaultSettings : Settings :=
  { patterns := {}
    maxLineBytes := defaultMaxLineBytes
    maxTotalBytes := defaultMaxTotalBytes
    maxCompleteLogBytes := defaultMaxCompleteLogBytes
    maxEvents := defaultMaxEvents
    maxEventBytes := defaultMaxEventBytes
    structuredLinePrefix := []
    structuredLineKind := [] }

/-- What every checked configuration guarantees. -/
structure Settings.Sound (settings : Settings) : Prop where
  maxLineBytes : 0 < settings.maxLineBytes
  single : ∀ value ∈ settings.structuredLinePrefix, isNewline value = false
  validPrefix : valid settings.structuredLinePrefix = true
  secrets : ∃ secrets, (∀ secret ∈ secrets, secret ≠ [] ∧ valid secret = true) ∧
    compileSecrets secrets = .ok settings.patterns

theorem limitOrDefault_pos (limit : Int) (default : Nat) (nonnegative : ¬ limit < 0)
    (positive : 0 < default) : 0 < limitOrDefault limit default := by
  unfold limitOrDefault
  split <;> omega

/-- Accepted secrets are nonempty valid texts. -/
theorem checkSecrets_ok (seen secrets : List Bytes) (accepted : checkSecrets seen secrets = .ok ())
    (sound : ∀ secret ∈ seen, secret ≠ [] ∧ valid secret = true) :
    ∀ secret ∈ secrets, secret ≠ [] ∧ valid secret = true := by
  induction secrets generalizing seen with
  | nil => simp
  | cons head rest ih =>
    simp only [checkSecrets] at accepted
    split at accepted
    · cases accepted
    next nonempty =>
    split at accepted
    · cases accepted
    next isValid =>
    have headSound : head ≠ [] ∧ valid head = true := by
      constructor
      · simpa using nonempty
      · simpa using isValid
    have restSound : ∀ secret ∈ rest, secret ≠ [] ∧ valid secret = true := by
      split at accepted
      · exact ih seen accepted sound
      split at accepted
      · cases accepted
      · exact ih (head :: seen) accepted (List.forall_mem_cons.mpr ⟨headSound, sound⟩)
    exact List.forall_mem_cons.mpr ⟨headSound, restSound⟩

theorem Config.withDefaults_sound (config : Config) (settings : Settings)
    (accepted : config.withDefaults = .ok settings) : settings.Sound := by
  simp only [withDefaults] at accepted
  split at accepted
  · cases accepted
  next nonnegative =>
  split at accepted
  · cases accepted
  split at accepted
  · cases accepted
  split at accepted
  · cases accepted
  next goodPrefix =>
  split at accepted
  · cases accepted
  · cases accepted
  · cases accepted
  next secretsOk compiled =>
  cases accepted
  simp only [not_or, not_lt, Bool.not_eq_true, Bool.not_eq_false] at nonnegative goodPrefix
  have lines := limitOrDefault_pos config.maxLineBytes defaultMaxLineBytes (by omega) (by decide)
  have total := limitOrDefault_pos config.maxTotalBytes defaultMaxTotalBytes (by omega) (by decide)
  refine ⟨?_, ?_, goodPrefix.2.2, config.secrets, ?_, compiled⟩
  · dsimp only
    split
    · exact total
    · exact lines
  · intro value member
    have quiet := List.any_eq_false.mp goodPrefix.2.1 value member
    simp only [isLineBreak, Bool.or_eq_true, not_or] at quiet
    simpa [isNewline] using quiet.1
  · exact checkSecrets_ok [] config.secrets secretsOk (by simp)

/-- Secrets that compile are compiled to the patterns of their spellings. -/
theorem compileSecrets_ok {secrets : List Bytes} {patterns : SecretPatterns}
    (compiled : compileSecrets secrets = .ok patterns) :
    patterns = SecretPatterns.ofKeys (secretKeys secrets) := by
  simp only [compileSecrets] at compiled
  split at compiled
  · cases compiled
  · exact (Except.ok.inj compiled).symm

/-- The patterns of an accepted configuration are compiled from its secrets. -/
theorem Config.withDefaults_compiled (config : Config) (settings : Settings)
    (accepted : config.withDefaults = .ok settings) :
    settings.patterns = SecretPatterns.ofKeys (secretKeys config.secrets) ∧
      settings.structuredLinePrefix = config.structuredLinePrefix := by
  simp only [withDefaults] at accepted
  split at accepted
  · cases accepted
  split at accepted
  · cases accepted
  split at accepted
  · cases accepted
  split at accepted
  · cases accepted
  split at accepted
  · cases accepted
  · cases accepted
  · cases accepted
  next compiled =>
  cases accepted
  exact ⟨compileSecrets_ok compiled, rfl⟩

/-- Patterns are never empty. -/
theorem secretKeys_nonempty (secrets : List Bytes) : ∀ key ∈ secretKeys secrets, key ≠ [] := by
  intro key isKey
  simp only [secretKeys, List.mem_insertionSort, List.mem_dedup, List.mem_filter] at isKey
  simpa using isKey.2

end ProvenanceRunner.Evidence
