import ProvenanceRunner.Network.Authority

/-! # Deadlines of a network authority

What holds over any sequence of calls of one authority. A withdrawn authority never answers with a
deadline or with bindings again. A deadline is the expiry of the newest observation that was
accepted, and it is bounded by the check, by the lease and by the credential of the stream that
brought the last acceptance. -/

namespace ProvenanceRunner.Network

open Gateway (second minute)

/-! ## One reconciliation -/

/-- A current observation that the job needs, within its bounds. -/
structure Brought (authority : Authority) (reconciliation : Option LeaseReconciliation)
    (credentialExpiry : Int) (message : LeaseReconciliation) (observation : NetworkAuthority)
    (lease : LeaseIdentity) : Prop where
  present : reconciliation = some message
  needed : authority.needs message = true
  observed : message.networkAuthorityV2 = some observation
  state : observation.state = .current
  leased : message.lease = some lease
  timed : validAuthorityTime observation.checkedAt = true
  bounded : asTime observation.expiresAt ≤ asTime observation.checkedAt + minute
  within : asTime observation.expiresAt ≤ authority.leaseExpiry lease
  covered : asTime observation.expiresAt ≤ credentialExpiry

/-- What a reconciliation can do. -/
inductive Reconciled (authority : Authority) (reconciliation : Option LeaseReconciliation)
    (credentialExpiry : Int) : Authority × Option Failure → Prop where
  | ended (next : Authority) (failure : Option Failure) (same : next.policy = authority.policy)
    (gone : next.withdrawn = true) :
    Reconciled authority reconciliation credentialExpiry (next, failure)
  | unneeded (message : LeaseReconciliation) (present : reconciliation = some message)
    (idle : authority.needs message = false) (silent : message.networkAuthorityV2 = none) :
    Reconciled authority reconciliation credentialExpiry (authority, none)
  | older (message : LeaseReconciliation) (observation : NetworkAuthority) (lease : LeaseIdentity)
    (brought : Brought authority reconciliation credentialExpiry message observation lease)
    (live : authority.withdrawn = false) (seen : authority.seen = true)
    (behind : asTime observation.checkedAt ≤ authority.checked)
    (agrees : asTime observation.checkedAt = authority.checked →
      asTime observation.expiresAt = authority.expires)
    (short : authority.expires ≤ credentialExpiry) :
    Reconciled authority reconciliation credentialExpiry
      (authority.extendLease (authority.leaseExpiry lease), none)
  | newer (message : LeaseReconciliation) (observation : NetworkAuthority) (lease : LeaseIdentity)
    (brought : Brought authority reconciliation credentialExpiry message observation lease)
    (live : authority.withdrawn = false)
    (ahead : authority.seen = true → authority.checked < asTime observation.checkedAt) :
    Reconciled authority reconciliation credentialExpiry
      ({ authority.extendLease (authority.leaseExpiry lease) with
        checked := asTime observation.checkedAt
        expires := asTime observation.expiresAt
        seen := true }, none)

namespace Authority

variable {authority : Authority} {reconciliation : Option LeaseReconciliation}
  {credentialExpiry : Int}

theorem observe_spec {message : LeaseReconciliation} {observation : NetworkAuthority}
    {lease : LeaseIdentity} (now : Int)
    (brought : Brought authority reconciliation credentialExpiry message observation lease) :
    Reconciled authority reconciliation credentialExpiry
      ((authority.extendLease (authority.leaseExpiry lease)).observe
        (asTime observation.checkedAt) (asTime observation.expiresAt) credentialExpiry now) := by
  unfold observe
  split
  · next gone => exact .ended _ _ rfl gone
  next kept =>
  have live : authority.withdrawn = false := Bool.eq_false_iff.2 kept
  split
  swap
  · next unseen =>
      exact .newer message observation lease brought live fun known => absurd known unseen
  next seen =>
  split
  · exact .ended _ _ rfl rfl
  split
  · exact .ended _ _ rfl rfl
  next agrees =>
  split
  · next behind =>
    split
    · exact .ended _ _ rfl rfl
    · next covered =>
      exact .older message observation lease brought live seen behind
        (fun same => not_not.1 fun differs => agrees ⟨same, differs⟩) (Int.not_lt.1 covered)
  · next ahead => exact .newer message observation lease brought live fun _ => Int.not_le.1 ahead

theorem reconcile_spec (authority : Authority) (reconciliation : Option LeaseReconciliation)
    (features : List Int) (credentialExpiry now : Int) :
    Reconciled authority reconciliation credentialExpiry
      (authority.reconcile reconciliation features credentialExpiry now) := by
  have refused : Reconciled authority reconciliation credentialExpiry authority.reject :=
    .ended _ _ rfl rfl
  unfold reconcile
  cases authorityFeatures features with
  | none => exact refused
  | some negotiated =>
    cases reconciliation with
    | none => exact refused
    | some message =>
      dsimp only
      by_cases addressed : authority.addressed message credentialExpiry now = true
      swap
      · rw [if_pos (by simpa using addressed)]
        exact refused
      rw [if_neg (by simp [addressed])]
      by_cases needed : authority.needs message = true
      swap
      · simp only [Bool.not_eq_true] at needed
        rw [if_pos (by simp [needed])]
        by_cases observed : message.networkAuthorityV2.isSome = true
        · rw [if_pos observed]
          exact refused
        rw [if_neg observed]
        split
        · exact .ended _ _ rfl rfl
        · exact .unneeded message rfl needed (by simpa using observed)
      rw [if_neg (by simp [needed])]
      cases observed : message.networkAuthorityV2 with
      | none => exact refused
      | some observation =>
        cases leased : message.lease with
        | none => exact refused
        | some =>
          dsimp only
          by_cases recognised : authority.recognises negotiated observation = true
          swap
          · rw [if_pos (by simpa using recognised)]
            exact refused
          rw [if_neg (by simp [recognised])]
          have known : validAuthorityTime observation.checkedAt = true := by
            simp only [recognises, Bool.and_eq_true] at recognised
            exact recognised.2
          unfold reconcileObservation
          dsimp only
          by_cases early : now + 5 * second < asTime observation.checkedAt
          · rw [if_pos early]
            exact refused
          rw [if_neg early]
          cases state : observation.state with
          | withdrawn =>
            dsimp only
            split
            · exact refused
            · exact .ended _ _ rfl rfl
          | current =>
            dsimp only
            split
            · exact refused
            split
            · exact refused
            next bad =>
            simp only [not_or, Int.not_le, Int.not_lt] at bad
            obtain ⟨_, _, bounded, within, covered⟩ := bad
            exact observe_spec now
              ⟨rfl, needed, observed, state, leased, known, bounded, within, covered⟩
          | unspecified | other => exact refused

end Authority

/-! ## What stays -/

/-- The authority, or what its withdrawal leaves of it. -/
def Remains (authority next : Authority) : Prop := next = authority ∨ next = authority.withdraw

/-- Every call keeps the policy, and a withdrawn authority stays withdrawn. -/
structure Unwidened (authority next : Authority) : Prop where
  policy : next.policy = authority.policy
  ended : authority.withdrawn = true → next.withdrawn = true

theorem Unwidened.refl (authority : Authority) : Unwidened authority authority := ⟨rfl, id⟩

theorem Remains.kept {authority next : Authority} (remains : Remains authority next) :
    Unwidened authority next := by
  rcases remains with rfl | rfl
  · exact .refl next
  · exact ⟨rfl, fun _ => rfl⟩

theorem Authority.deadline_remains (authority : Authority) (now : Int) :
    Remains authority (authority.deadline now).1 := by
  unfold Authority.deadline
  split
  · exact Or.inl rfl
  split
  · exact Or.inr rfl
  · exact Or.inl rfl

theorem Authority.constrainBindings_remains (authority : Authority) (bindings : List Binding)
    (now : Int) : Remains authority (authority.constrainBindings bindings now).1 := by
  have remains := authority.deadline_remains now
  unfold Authority.constrainBindings
  split
  · next other failure given =>
    rw [given] at remains
    exact remains
  · next other bound given =>
    obtain ⟨rfl, _⟩ := authority.deadline_ok now other bound given
    split
    · exact Or.inr rfl
    split
    · exact Or.inr rfl
    · exact Or.inl rfl

theorem Authority.reconcile_kept (authority : Authority)
    (reconciliation : Option LeaseReconciliation) (features : List Int)
    (credentialExpiry now : Int) :
    Unwidened authority (authority.reconcile reconciliation features credentialExpiry now).1 := by
  have outcome := authority.reconcile_spec reconciliation features credentialExpiry now
  generalize authority.reconcile reconciliation features credentialExpiry now = answer at outcome ⊢
  cases outcome with
  | ended next failure same gone => exact ⟨same, fun _ => gone⟩
  | unneeded | older | newer => exact ⟨rfl, id⟩

/-! ## Sequences of calls -/

inductive AuthorityCall where
  | reconcile (reconciliation : Option LeaseReconciliation) (features : List Int)
    (credentialExpiry now : Int)
  | deadline (now : Int)
  | constrainBindings (bindings : List Binding) (now : Int)
  | withdraw
deriving DecidableEq, Repr

inductive AuthorityAnswer where
  | accepted
  | deadline (time : Int)
  | bindings (bounded : List Binding)
  | failed (failure : Failure)
deriving DecidableEq, Repr

def AuthorityCall.perform (authority : Authority) : AuthorityCall → Authority × AuthorityAnswer
  | .reconcile reconciliation features credentialExpiry now =>
    match authority.reconcile reconciliation features credentialExpiry now with
    | (next, none) => (next, .accepted)
    | (next, some failure) => (next, .failed failure)
  | .deadline now =>
    match authority.deadline now with
    | (next, .ok time) => (next, .deadline time)
    | (next, .error failure) => (next, .failed failure)
  | .constrainBindings bindings now =>
    match authority.constrainBindings bindings now with
    | (next, .ok bounded) => (next, .bindings bounded)
    | (next, .error failure) => (next, .failed failure)
  | .withdraw => (authority.withdraw, .accepted)

structure AuthorityEntry where
  call : AuthorityCall
  answer : AuthorityAnswer
deriving DecidableEq, Repr

/-- The calls of an authority with their answers, the newest first. -/
inductive AuthorityRun (begun : Authority) : List AuthorityEntry → Authority → Prop where
  | nil : AuthorityRun begun [] begun
  | call (call : AuthorityCall) (entries : List AuthorityEntry) (authority : Authority)
    (past : AuthorityRun begun entries authority) :
    AuthorityRun begun (⟨call, (call.perform authority).2⟩ :: entries) (call.perform authority).1

/-- A current observation with the expiry of the lease it came with. -/
structure Observation where
  checked : Int
  expires : Int
  leaseExpiry : Int
deriving DecidableEq, Repr

/-- The observation of a reconciliation that needed one. -/
def AuthorityCall.observation? (begun : Authority) : AuthorityCall → Option Observation
  | .reconcile (some message) _ _ _ =>
    if begun.needs message then
      message.networkAuthorityV2.bind fun observation =>
        if observation.state = .current then
          some ⟨asTime observation.checkedAt, asTime observation.expiresAt,
            asTime (message.lease.bind (·.expiresAt))⟩
        else none
    else none
  | _ => none

/-- The credential of a reconciliation that required authority. -/
def AuthorityCall.credential? (begun : Authority) : AuthorityCall → Option Int
  | .reconcile (some message) _ credentialExpiry _ =>
    if begun.needs message then some credentialExpiry else none
  | _ => none

/-- The observations that were accepted, the newest first. -/
def accepted (begun : Authority) (entries : List AuthorityEntry) : List Observation :=
  entries.filterMap fun entry =>
    if entry.answer = .accepted then entry.call.observation? begun else none

/-- The credential of the latest reconciliation that required authority and was accepted. -/
def latestCredential (begun : Authority) (entries : List AuthorityEntry) : Option Int :=
  (entries.filterMap fun entry =>
    if entry.answer = .accepted then entry.call.credential? begun else none).head?

/-- The lease expiries that were accepted, that of the job included. -/
def leaseExpiries (begun : Authority) (entries : List AuthorityEntry) : List Int :=
  (accepted begun entries).map (·.leaseExpiry) ++ [asTime begun.lease.expiresAt]

/-- An answer that permits something. -/
def AuthorityAnswer.permits : AuthorityAnswer → Bool
  | .deadline _ | .bindings _ => true
  | _ => false

/-- Authority is bounded and cannot be restored. -/
structure AuthorityBounded (begun : Authority) (entries : List AuthorityEntry) : Prop where
  irrevocable : ∀ later earlier, entries = later ++ earlier →
    ∀ authority, AuthorityRun begun earlier authority → authority.withdrawn = true →
      ∀ entry ∈ later, entry.answer.permits = false
  newest : ∀ later now time earlier, entries = later ++ ⟨.deadline now, .deadline time⟩ :: earlier →
    now < time ∧ ∃ observation ∈ accepted begun earlier, observation.expires = time ∧
      time ≤ observation.checked + minute ∧
      ∀ other ∈ accepted begun earlier, other.checked ≤ observation.checked ∧
        (other.checked = observation.checked → other.expires = time)
  leased : ∀ later now time earlier, entries = later ++ ⟨.deadline now, .deadline time⟩ :: earlier →
    ∃ expiry ∈ leaseExpiries begun earlier, time ≤ expiry
  covered : ∀ later now time earlier,
    entries = later ++ ⟨.deadline now, .deadline time⟩ :: earlier →
    ∃ credentialExpiry, latestCredential begun earlier = some credentialExpiry ∧
      time ≤ credentialExpiry

/-! ## The invariant -/

/-- What the fields of an authority stand for. -/
structure Stands (begun : Authority) (entries : List AuthorityEntry) (authority : Authority) :
    Prop where
  policy : authority.policy = begun.policy
  leased : authority.withdrawn = false →
    asTime authority.lease.expiresAt ∈ leaseExpiries begun entries
  unseen : authority.withdrawn = false → authority.seen = false → accepted begun entries = []
  newest : authority.withdrawn = false → authority.seen = true →
    (∃ observation ∈ accepted begun entries, observation.checked = authority.checked ∧
      observation.expires = authority.expires) ∧
    ∀ other ∈ accepted begun entries, other.checked ≤ authority.checked ∧
      (other.checked = authority.checked → other.expires = authority.expires)
  bounded : authority.withdrawn = false → authority.seen = true →
    authority.expires ≤ authority.checked + minute ∧
      authority.expires ≤ asTime authority.lease.expiresAt ∧
      ∃ credentialExpiry, latestCredential begun entries = some credentialExpiry ∧
        authority.expires ≤ credentialExpiry

theorem needs_congr {authority other : Authority} (same : authority.policy = other.policy)
    (message : LeaseReconciliation) : authority.needs message = other.needs message := by
  simp only [Authority.needs, same]

section

variable {begun authority : Authority} {entries : List AuthorityEntry}

/-- A withdrawn authority has nothing left to stand for. -/
theorem Stands.of_withdrawn (next : Authority) (policy : next.policy = begun.policy)
    (withdrawn : next.withdrawn = true) (all : List AuthorityEntry) : Stands begun all next where
  policy := policy
  leased live := by simp [withdrawn] at live
  unseen live := by simp [withdrawn] at live
  newest live := by simp [withdrawn] at live
  bounded live := by simp [withdrawn] at live

section

variable (stands : Stands begun entries authority)
include stands

/-- An entry that brings no observation and needs no credential. -/
theorem Stands.plain {entry : AuthorityEntry}
    (silent : entry.answer = .accepted → entry.call.observation? begun = none)
    (free : entry.answer = .accepted → entry.call.credential? begun = none) :
    Stands begun (entry :: entries) authority := by
  have unread {α : Type} {found : Option α} (none : entry.answer = .accepted → found = .none) :
      (if entry.answer = .accepted then found else .none) = .none := by
    simpa using none
  have same : accepted begun (entry :: entries) = accepted begun entries :=
    List.filterMap_cons_none (unread silent)
  have latest : latestCredential begun (entry :: entries) = latestCredential begun entries :=
    congrArg List.head? (List.filterMap_cons_none (unread free))
  have leases : leaseExpiries begun (entry :: entries) = leaseExpiries begun entries := by
    unfold leaseExpiries
    rw [same]
  exact ⟨stands.policy, leases ▸ stands.leased, same ▸ stands.unseen, same ▸ stands.newest,
    latest ▸ stands.bounded⟩

/-- A current observation is entered; `next` differs from the authority in its lease and, for a
newer observation, in what it was told. -/
theorem Stands.entered {message : LeaseReconciliation} (features : List Int)
    {observation : NetworkAuthority} {lease : LeaseIdentity} {credentialExpiry : Int} (now : Int)
    (brought : Brought authority (some message) credentialExpiry message observation lease) :
    let all : List AuthorityEntry :=
      ⟨.reconcile (some message) features credentialExpiry now, .accepted⟩ :: entries
    accepted begun all =
      ⟨asTime observation.checkedAt, asTime observation.expiresAt, asTime lease.expiresAt⟩ ::
        accepted begun entries ∧
    latestCredential begun all = some credentialExpiry ∧
    (authority.withdrawn = false →
      authority.leaseExpiry lease ∈ leaseExpiries begun all) := by
  intro all
  have needed : begun.needs message = true := needs_congr stands.policy message ▸ brought.needed
  have now' : accepted begun all =
      ⟨asTime observation.checkedAt, asTime observation.expiresAt, asTime lease.expiresAt⟩ ::
        accepted begun entries := by
    simp [all, accepted, AuthorityCall.observation?, needed, brought.observed, brought.state,
      brought.leased]
  refine ⟨now', by simp [all, latestCredential, AuthorityCall.credential?, needed], fun live => ?_⟩
  -- The later of both lease expiries is among those accepted.
  have known := stands.leased live
  unfold leaseExpiries at known ⊢
  rw [now']
  unfold Authority.leaseExpiry
  by_cases later : asTime authority.lease.expiresAt < asTime lease.expiresAt
  · rw [if_pos later]
    simp
  · rw [if_neg later]
    exact List.mem_cons_of_mem _ known

theorem Stands.remains {next : Authority} (remains : Remains authority next) :
    Stands begun entries next := by
  rcases remains with rfl | rfl
  · exact stands
  · exact .of_withdrawn authority.withdraw stands.policy rfl _

/-- A reconciliation keeps what the fields stand for. -/
theorem Stands.reconcile (reconciliation : Option LeaseReconciliation) (features : List Int)
    (credentialExpiry now : Int) :
    Stands begun
      (⟨.reconcile reconciliation features credentialExpiry now,
        ((AuthorityCall.reconcile reconciliation features credentialExpiry now).perform
          authority).2⟩ :: entries)
      ((AuthorityCall.reconcile reconciliation features credentialExpiry now).perform
        authority).1 := by
  have outcome := authority.reconcile_spec reconciliation features credentialExpiry now
  have extended (limit : Int) : asTime (authority.extendLease limit).lease.expiresAt = limit :=
    Timestamp.asTime_ofTime limit
  unfold AuthorityCall.perform
  dsimp only
  generalize authority.reconcile reconciliation features credentialExpiry now = answer at outcome ⊢
  cases outcome with
  | ended next failure same gone =>
    cases failure <;> exact .of_withdrawn _ (same.trans stands.policy) gone _
  | unneeded message present idle =>
    have idle' : begun.needs message = false := needs_congr stands.policy message ▸ idle
    apply stands.plain
    · intro _
      simp [present, AuthorityCall.observation?, idle']
    · intro _
      simp [present, AuthorityCall.credential?, idle']
  | older message observation lease brought live seen behind agrees short =>
    obtain rfl := brought.present
    obtain ⟨now', latest, leases⟩ := stands.entered features now brought
    -- An older observation only bounds the deadline by its credential.
    obtain ⟨⟨first, member, checked, expires⟩, rest⟩ := stands.newest live seen
    obtain ⟨limit, leaseLimit, _⟩ := stands.bounded live seen
    have wider : asTime authority.lease.expiresAt ≤ authority.leaseExpiry lease := by
      unfold Authority.leaseExpiry
      split <;> omega
    refine ⟨stands.policy, fun _ => ?_, fun _ unseen => ?_, fun _ _ => ?_, fun _ _ => ?_⟩
    · rw [extended]
      exact leases live
    · exact absurd (unseen.symm.trans seen) nofun
    · rw [now']
      exact ⟨⟨first, List.mem_cons_of_mem _ member, checked, expires⟩,
        List.forall_mem_cons.2 ⟨⟨behind, agrees⟩, rest⟩⟩
    · refine ⟨limit, ?_, credentialExpiry, latest, short⟩
      rw [extended]
      exact Int.le_trans leaseLimit wider
  | newer message observation lease brought live ahead =>
    obtain rfl := brought.present
    obtain ⟨now', latest, leases⟩ := stands.entered features now brought
    -- The first observation, or a newer one, sets the deadline.
    refine ⟨stands.policy, fun _ => ?_, fun _ unseen => by simp at unseen, fun _ _ => ?_,
      fun _ _ => ⟨brought.bounded, ?_, credentialExpiry, latest, brought.covered⟩⟩
    · show asTime (authority.extendLease _).lease.expiresAt ∈ _
      rw [extended]
      exact leases live
    · rw [now']
      refine ⟨⟨_, List.mem_cons_self, rfl, rfl⟩, fun other found => ?_⟩
      rcases List.mem_cons.1 found with rfl | known
      · exact ⟨Int.le_refl _, fun _ => rfl⟩
      have seen : authority.seen = true := by
        by_contra unseen
        rw [stands.unseen live (by simpa using unseen)] at known
        exact nomatch known
      have before := ((stands.newest live seen).2 other known).1
      have less : other.checked < asTime observation.checkedAt :=
        Int.lt_of_le_of_lt before (ahead seen)
      exact ⟨Int.le_of_lt less, fun same => absurd same (Int.ne_of_lt less)⟩
    · show _ ≤ asTime (authority.extendLease _).lease.expiresAt
      rw [extended]
      exact brought.within

/-- Every call keeps what the fields stand for. -/
theorem Stands.step (call : AuthorityCall) :
    Stands begun (⟨call, (call.perform authority).2⟩ :: entries) (call.perform authority).1 := by
  cases call with
  | reconcile reconciliation features credentialExpiry now =>
    exact stands.reconcile reconciliation features credentialExpiry now
  | deadline now =>
    have kept := stands.remains (authority.deadline_remains now)
    have next : ((AuthorityCall.deadline now).perform authority).1 =
        (authority.deadline now).1 := by
      unfold AuthorityCall.perform
      dsimp only
      split <;> simp [*]
    rw [next]
    exact kept.plain (fun _ => rfl) (fun _ => rfl)
  | constrainBindings bindings now =>
    have kept := stands.remains (authority.constrainBindings_remains bindings now)
    have next : ((AuthorityCall.constrainBindings bindings now).perform authority).1 =
        (authority.constrainBindings bindings now).1 := by
      unfold AuthorityCall.perform
      dsimp only
      split <;> simp [*]
    rw [next]
    exact kept.plain (fun _ => rfl) (fun _ => rfl)
  | withdraw => exact .of_withdrawn authority.withdraw stands.policy rfl _

end

/-- Throughout a run the fields stand for what was accepted. -/
theorem AuthorityRun.stands (unseen : begun.seen = false)
    (run : AuthorityRun begun entries authority) : Stands begun entries authority := by
  induction run with
  | nil =>
    exact ⟨rfl, fun _ => by simp [leaseExpiries], fun _ _ => rfl,
      fun _ seen => by simp [unseen] at seen, fun _ seen => by simp [unseen] at seen⟩
  | call call entries authority past stands => exact stands.step call

/-! ## Withdrawal -/

/-- A withdrawn authority stays withdrawn, and no call gets anything from it. -/
theorem AuthorityCall.perform_withdrawn (call : AuthorityCall)
    (withdrawn : authority.withdrawn = true) :
    (call.perform authority).1.withdrawn = true ∧
      (call.perform authority).2.permits = false := by
  have refused (now : Int) : authority.deadline now = (authority, .error .authority) := by
    unfold Authority.deadline
    rw [if_pos (Or.inr (Or.inl withdrawn))]
  cases call with
  | reconcile reconciliation features credentialExpiry now =>
    have stays := (authority.reconcile_kept reconciliation features credentialExpiry now).ended
      withdrawn
    simp only [AuthorityCall.perform]
    split
    · next same => exact ⟨by simpa [same] using stays, rfl⟩
    · next same => exact ⟨by simpa [same] using stays, rfl⟩
  | deadline =>
    simp only [AuthorityCall.perform, refused]
    exact ⟨withdrawn, rfl⟩
  | constrainBindings =>
    simp only [AuthorityCall.perform, Authority.constrainBindings, refused]
    exact ⟨withdrawn, rfl⟩
  | withdraw => exact ⟨rfl, rfl⟩

/-- The last call of a run. -/
theorem AuthorityRun.last {entry : AuthorityEntry}
    (run : AuthorityRun begun (entry :: entries) authority) :
    ∃ before, AuthorityRun begun entries before ∧
      entry.answer = (entry.call.perform before).2 ∧
      authority = (entry.call.perform before).1 := by
  cases run with
  | call call _ before past => exact ⟨before, past, rfl, rfl⟩

/-- The calls of a run fix where it ends. -/
theorem AuthorityRun.unique {other : Authority} (run : AuthorityRun begun entries authority)
    (again : AuthorityRun begun entries other) : authority = other := by
  induction run generalizing other with
  | nil =>
    cases again
    rfl
  | call call entries authority past same =>
    obtain ⟨_, past', _, rfl⟩ := again.last
    rw [same past']

/-- The part of a run before some entry. -/
theorem AuthorityRun.earlier {later earlier : List AuthorityEntry}
    (run : AuthorityRun begun (later ++ earlier) authority) :
    ∃ before, AuthorityRun begun earlier before ∧ (before.withdrawn = true →
      authority.withdrawn = true ∧ ∀ entry ∈ later, entry.answer.permits = false) := by
  induction later generalizing authority with
  | nil => exact ⟨authority, run, fun withdrawn => ⟨withdrawn, by simp⟩⟩
  | cons entry later earlierOf =>
    cases run with
    | call call _ middle past =>
      obtain ⟨before, run, stays⟩ := earlierOf past
      refine ⟨before, run, fun withdrawn => ?_⟩
      obtain ⟨gone, silent⟩ := stays withdrawn
      obtain ⟨stillGone, refused⟩ := call.perform_withdrawn gone
      exact ⟨stillGone, List.forall_mem_cons.2 ⟨refused, silent⟩⟩

/-- A deadline is given by an authority that stands. -/
theorem AuthorityRun.deadline {later earlier : List AuthorityEntry} {now time : Int}
    (run : AuthorityRun begun (later ++ ⟨.deadline now, .deadline time⟩ :: earlier) authority) :
    ∃ before, AuthorityRun begun earlier before ∧ before.withdrawn = false ∧
      before.seen = true ∧ now < before.expires ∧ before.expires = time := by
  obtain ⟨_, run, _⟩ := run.earlier
  obtain ⟨before, past, answer, _⟩ := run.last
  simp only [AuthorityCall.perform] at answer
  split at answer
  case h_1 next given gives =>
    simp only [AuthorityAnswer.deadline.injEq] at answer
    subst answer
    exact ⟨before, past, (before.deadline_ok now next _ gives).2⟩
  case h_2 => simp at answer

end

/-- Authority is bounded and cannot be restored: over every sequence of calls, whatever the
messages, features, credentials and times.

Proof: an induction over the calls says what stands after each of them (`AuthorityRun.stands`). -/
theorem authority_bounded (wire : WireLibrary) (job : Option JobSpecification)
    (begun authority : Authority) (entries : List AuthorityEntry)
    (admitted : newAuthority wire job = .ok begun)
    (run : AuthorityRun begun entries authority) : AuthorityBounded begun entries := by
  have unseen : begun.seen = false := (newAuthority_unseen wire job begun admitted).1
  constructor
  · intro later earlier split before past withdrawn
    rw [split] at run
    obtain ⟨_, past', stays⟩ := run.earlier
    rw [← past'.unique past] at withdrawn
    exact (stays withdrawn).2
  · intro later now time earlier split
    rw [split] at run
    obtain ⟨_, past, live, seen, ahead, rfl⟩ := run.deadline
    have stands := past.stands unseen
    obtain ⟨⟨observation, member, checked, expires⟩, rest⟩ := stands.newest live seen
    obtain ⟨bound, _⟩ := stands.bounded live seen
    refine ⟨ahead, observation, member, expires, ?_, ?_⟩
    · rw [checked]
      exact bound
    · rw [checked]
      exact rest
  · intro later now time earlier split
    rw [split] at run
    obtain ⟨_, past, live, seen, _, rfl⟩ := run.deadline
    have stands := past.stands unseen
    exact ⟨_, stands.leased live, (stands.bounded live seen).2.1⟩
  · intro later now time earlier split
    rw [split] at run
    obtain ⟨_, past, live, seen, _, rfl⟩ := run.deadline
    exact (past.stands unseen |>.bounded live seen).2.2

/-- An observation that is accepted and the deadline that it gives. -/
def sampleCalls : List AuthorityEntry :=
  [⟨.deadline (ofUnixSeconds 1002), .deadline (ofUnixSeconds 1030)⟩,
    ⟨.reconcile (some (sampleReconciliation 1000 1030)) sampleFeatures (ofUnixSeconds 2000)
      (ofUnixSeconds 1001), .accepted⟩]

theorem authority_bounded_accepted :
    (∃ authority, AuthorityRun sampleAuthority sampleCalls authority) ∧
      AuthorityBounded sampleAuthority sampleCalls := by
  have first : AuthorityRun sampleAuthority [] sampleAuthority := .nil
  have second := AuthorityRun.call (.reconcile (some (sampleReconciliation 1000 1030))
    sampleFeatures (ofUnixSeconds 2000) (ofUnixSeconds 1001)) _ _ first
  have third := AuthorityRun.call (.deadline (ofUnixSeconds 1002)) _ _ second
  have same : AuthorityRun sampleAuthority sampleCalls _ := third
  exact ⟨⟨_, same⟩, authority_bounded sampleWire (some sampleJob) _ _ _ sample_admitted same⟩

end ProvenanceRunner.Network
