import ProvenanceRunner.Network.Bindings

/-! # Network authority

The state of one admitted job's permission to use the network. An authority starts without a
deadline. Reconciliations of the gateway bring observations that set it; anything invalid, terminal
or expired withdraws the authority for good. -/

namespace ProvenanceRunner.Network

open Utf8
open Gateway (second minute LeaseStatus JobPhase)

/-- An authority always belongs to a job, so its owner is not optional. -/
structure Authority where
  lease : LeaseIdentity
  attempt : AttemptIdentity
  policy : NetworkPolicy
  digest : Bytes
  checked : Int
  expires : Int
  seen : Bool
  withdrawn : Bool
deriving DecidableEq, Repr

/-- The claimed hash of the policy names its identity. -/
def claimedDigest (claimed : Option Digest) (digest : Bytes) : Bool :=
  claimed.any fun hash => hash.closed && hash.algorithm == .sha256 && hash.value == digest

def newAuthority (wire : WireLibrary) (job : Option JobSpecification) : Except Failure Authority :=
  match job with
  | none => .error .authority
  | some job =>
    match job.lease, job.attempt, job.effectivePolicy with
    | some lease, some attempt, some policy =>
      if !validAuthorityLease lease || !validAuthorityAttempt attempt then .error .authority
      else match effectivePolicySHA256 wire (some policy), policy.networkV2 with
        | some digest, some network =>
          if !claimedDigest job.policyHash digest then .error .authority
          else .ok
            { lease := lease
              attempt := attempt
              policy := network
              digest := digest
              checked := 0
              expires := 0
              seen := false
              withdrawn := false }
        | _, _ => .error .authority
    | _, _, _ => .error .authority

/-- A new authority has no deadline and is not withdrawn. -/
theorem newAuthority_unseen (wire : WireLibrary) (job : Option JobSpecification)
    (authority : Authority) (made : newAuthority wire job = .ok authority) :
    authority.seen = false ∧ authority.withdrawn = false := by
  unfold newAuthority at made
  split at made
  · simp at made
  split at made
  swap
  · simp at made
  split at made
  · simp at made
  split at made
  swap
  · simp at made
  split at made
  · simp at made
  · simp only [Except.ok.injEq] at made
    subst made
    exact ⟨rfl, rfl⟩

/-! ## Reconciliation -/

/-- Whether the network authority was negotiated; `none` for an invalid set of features. Features
are known by their codes. -/
def authorityFeatures (features : List Int) : Option Bool :=
  if !features.all (fun feature => decide (1 ≤ feature) && decide (feature ≤ 10)) ||
      !decide features.Nodup then none
  else if features.contains 10 &&
      !(features.contains 1 && features.contains 3 && features.contains 9) then none
  else some (features.contains 10)

/-- The statuses from the first to the last that is defined, in the order of their codes. -/
def statusCode : LeaseStatus → Int
  | .unspecified => 0
  | .offered => 1
  | .accepted => 2
  | .active => 3
  | .completed => 4
  | .cancelled => 5
  | .expired => 6
  | .released => 7
  | .other code => code

namespace Authority

def reject (authority : Authority) : Authority × Option Failure :=
  ({ authority with withdrawn := true }, some .authority)

def withdraw (authority : Authority) : Authority := { authority with withdrawn := true }

/-- Whether an observation can be looked at: it was negotiated and names the policy of the job. -/
def recognises (authority : Authority) (negotiated : Bool) (observation : NetworkAuthority) :
    Bool :=
  negotiated && observation.closed &&
    observation.policy.any (fun digest => digest.algorithm == .sha256 &&
      digest.value == authority.digest) &&
    validAuthorityTime observation.checkedAt

/-- The later of the lease expiry that is known and the one of the message. -/
def leaseExpiry (authority : Authority) (lease : LeaseIdentity) : Int :=
  if asTime authority.lease.expiresAt < asTime lease.expiresAt then asTime lease.expiresAt
  else asTime authority.lease.expiresAt

/-- A current observation whose bounds are in order. -/
def observe (authority : Authority) (checked expires credentialExpiry now : Int) :
    Authority × Option Failure :=
  if authority.withdrawn then (authority, none)
  else if authority.seen then
    if authority.expires ≤ now then (authority.withdraw, none)
    else if checked = authority.checked ∧ expires ≠ authority.expires then authority.reject
    else if checked ≤ authority.checked then
      if credentialExpiry < authority.expires then authority.reject else (authority, none)
    else ({ authority with checked := checked, expires := expires, seen := true }, none)
  else ({ authority with checked := checked, expires := expires, seen := true }, none)

/-- The lease is known until the given instant. -/
def extendLease (authority : Authority) (bound : Int) : Authority :=
  { authority with lease := { authority.lease with expiresAt := some (.ofTime bound) } }

/-- An observation that a running job needs. -/
def reconcileObservation (authority : Authority) (lease : LeaseIdentity)
    (observation : NetworkAuthority) (credentialExpiry now : Int) : Authority × Option Failure :=
  let checked := asTime observation.checkedAt
  if now + 5 * second < checked then authority.reject
  else match observation.state with
    | .withdrawn =>
      if observation.expiresAt.isSome then authority.reject else (authority.withdraw, none)
    | .current =>
      if !validAuthorityTime observation.expiresAt then authority.reject
      else
        let expires := asTime observation.expiresAt
        let limit := authority.leaseExpiry lease
        if expires ≤ now ∨ expires ≤ checked ∨ checked + minute < expires ∨ limit < expires ∨
            credentialExpiry < expires then authority.reject
        else (authority.extendLease limit).observe checked expires credentialExpiry now
    | _ => authority.reject

def cancelling (message : LeaseReconciliation) : Bool :=
  !message.cancellationId.isEmpty || message.phase == .cancelling

/-- A job that may use the network needs authority while it is accepted or active. -/
def needs (authority : Authority) (message : LeaseReconciliation) : Bool :=
  authority.policy.mode != .none && (message.status == .accepted || message.status == .active) &&
    !cancelling message

/-- The message is about the job, and everything in it is well formed. -/
def addressed (authority : Authority) (message : LeaseReconciliation) (credentialExpiry now : Int) :
    Bool :=
  now != 0 && validInstant now && validInstant credentialExpiry && message.closed &&
    message.lease.any (fun lease => validAuthorityLease lease &&
      lease.leaseId == authority.lease.leaseId && lease.jobId == authority.lease.jobId &&
      lease.executionId == authority.lease.executionId) &&
    message.attempt.any (fun attempt => validAuthorityAttempt attempt &&
      attempt == authority.attempt) &&
    decide (1 ≤ statusCode message.status) && decide (statusCode message.status ≤ 7)

def reconcile (authority : Authority) (reconciliation : Option LeaseReconciliation)
    (features : List Int) (credentialExpiry now : Int) : Authority × Option Failure :=
  match authorityFeatures features, reconciliation with
  | some negotiated, some message =>
    if !authority.addressed message credentialExpiry now then authority.reject
    else if !authority.needs message then
      if message.networkAuthorityV2.isSome then authority.reject
      else if cancelling message || decide (4 ≤ statusCode message.status) then
        (authority.withdraw, none)
      else (authority, none)
    else match message.networkAuthorityV2, message.lease with
      | some observation, some lease =>
        if !authority.recognises negotiated observation then authority.reject
        else authority.reconcileObservation lease observation credentialExpiry now
      | _, _ => authority.reject
  | _, _ => authority.reject

/-! ## Deadlines and bindings -/

def deadline (authority : Authority) (now : Int) : Authority × Except Failure Int :=
  if now = 0 ∨ authority.withdrawn ∨ !authority.seen then (authority, .error .authority)
  else if authority.expires ≤ now then (authority.withdraw, .error .expired)
  else (authority, .ok authority.expires)

/-- An authority that has a deadline. -/
theorem deadline_ok (authority : Authority) (now : Int) (next : Authority) (time : Int)
    (answer : authority.deadline now = (next, .ok time)) :
    next = authority ∧ authority.withdrawn = false ∧ authority.seen = true ∧
      now < authority.expires ∧ authority.expires = time := by
  unfold deadline at answer
  by_cases none : now = 0 ∨ authority.withdrawn ∨ !authority.seen
  · rw [if_pos none] at answer
    simp at answer
  rw [if_neg none] at answer
  by_cases expired : authority.expires ≤ now
  · rw [if_pos expired] at answer
    simp at answer
  rw [if_neg expired] at answer
  simp only [Prod.mk.injEq, Except.ok.injEq] at answer
  simp only [not_or, Bool.not_eq_true, Bool.not_eq_false'] at none
  exact ⟨answer.1.symm, none.2.1, none.2.2, Int.not_le.1 expired, answer.2⟩

def grantOf (permission : NetworkPermission) : Permission where
  hostname := permission.hostname
  port := permission.port % 65536
  protocol := if permission.transport == .udp then .udp else .tcp

/-- The grants of a policy, in its order. A policy that passed its checks has no nil permission. -/
def grants (policy : NetworkPolicy) : List Permission :=
  (policy.permissions.filterMap id).map grantOf

def grantsFor (policy : NetworkPolicy) (host : Bytes) : List Permission :=
  (grants policy).filter (·.hostname == host)

/-- The host names of a policy. -/
def hosts (policy : NetworkPolicy) : List Bytes := ((grants policy).map (·.hostname)).dedup

def limitsOf (policy : NetworkPolicy) : Limits :=
  ⟨policy.maximumConnections, policy.maximumBytesPerSecond⟩

/-- Whether a binding is the one that the policy expects for its host. -/
def expects (authority : Authority) (remaining : List Bytes) (binding : Binding) (now : Int) :
    Bool :=
  remaining.contains binding.hostname && binding.job == authority.lease.jobId &&
    binding.validAt now && binding.limits == limitsOf authority.policy &&
    grantsFor authority.policy binding.hostname == binding.permissions

/-- The bindings in order, each bounded by the deadline. -/
def constrain (authority : Authority) (bound now : Int) :
    List Bytes → List Binding → Option (List Binding)
  | _, [] => some []
  | remaining, binding :: rest =>
    if authority.expects remaining binding now then
      (constrain authority bound now (remaining.erase binding.hostname) rest).map
        ({ binding with expires := min bound binding.expires } :: ·)
    else none

def constrainBindings (authority : Authority) (bindings : List Binding) (now : Int) :
    Authority × Except Failure (List Binding) :=
  match authority.deadline now with
  | (next, .error failure) => (next, .error failure)
  | (next, .ok bound) =>
    if bindings.length ≠ (hosts authority.policy).length then (next.withdraw, .error .authority)
    else match constrain authority bound now (hosts authority.policy) bindings with
      | none => (next.withdraw, .error .authority)
      | some bounded => (next, .ok bounded)

end Authority

/-! ## Samples -/

/-- A wire library that writes nothing; a single policy is told apart from no other. -/
def sampleWire : WireLibrary where
  policySize _ := 0
  marshalPolicy _ := some []
  sha256 := sampleDigest

def sampleTime (seconds : Int) : Timestamp := ⟨seconds, 0, []⟩

def sampleLease (expires : Int) : LeaseIdentity where
  leaseId := sampleID 0x31
  jobId := sampleID 0x32
  executionId := sampleID 0x33
  expiresAt := some (sampleTime expires)
  unknown := []

def sampleAttempt : AttemptIdentity where
  attemptId := sampleID 0x34
  attemptNumber := 1
  releaseCandidateId := sampleID 0x35
  matrixEntryId := sampleID 0x36
  unknown := []

def samplePolicy : NetworkPolicy where
  mode := .restricted
  permissions := [some ⟨encode "host.example", 443, .tcp, []⟩]
  maximumConnections := 8
  maximumBytesPerSecond := 4096
  unknown := []

def sampleEffectivePolicy : EffectivePolicy where
  network := none
  networkV2 := some samplePolicy
  sandbox := .gvisor
  requirement := .other 1 true
  resources := some ⟨1, 1, 1, 1, []⟩
  preparationTimeout := some ⟨1, 0, []⟩
  executionTimeout := some ⟨1, 0, []⟩
  gracefulShutdownTimeout := some ⟨1, 0, []⟩
  unknown := []

def sampleJob : JobSpecification where
  lease := some (sampleLease 10000)
  attempt := some sampleAttempt
  effectivePolicy := some sampleEffectivePolicy
  policyHash := some ⟨.sha256, sampleDigest [], []⟩

def sampleAuthority : Authority where
  lease := sampleLease 10000
  attempt := sampleAttempt
  policy := samplePolicy
  digest := sampleDigest []
  checked := 0
  expires := 0
  seen := false
  withdrawn := false

theorem sample_admitted : newAuthority sampleWire (some sampleJob) = .ok sampleAuthority := by
  decide +kernel

/-- An active job whose authority was checked and is current until the given second. -/
def sampleReconciliation (checked expires : Int) : LeaseReconciliation where
  disposition := .unspecified
  status := .active
  phase := .unspecified
  lease := some (sampleLease 10000)
  attempt := some sampleAttempt
  terminalMessageId := []
  cancellationId := []
  completeLogUpload := none
  networkAuthorityV2 :=
    some ⟨some ⟨.sha256, sampleDigest [], []⟩, .current, some (sampleTime checked),
      some (sampleTime expires), []⟩
  unknown := []

/-- The features that carry a network authority. -/
def sampleFeatures : List Int := [1, 3, 9, 10]

example : (sampleAuthority.reconcile (some (sampleReconciliation 1000 1030)) sampleFeatures
    (ofUnixSeconds 2000) (ofUnixSeconds 1001)).2 = none := by decide +kernel

end ProvenanceRunner.Network
