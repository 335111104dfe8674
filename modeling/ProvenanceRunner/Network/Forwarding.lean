import ProvenanceRunner.Library.Threads
import ProvenanceRunner.Network.Supervision

/-! # Forwarded authority

The worker keeps the reconciliations that it has accepted, newest last, for a consumer that keeps an
authority of its own for the same job. The consumer starts with the newest update and then asks for
each one after the last that it got. -/

namespace ProvenanceRunner.Network

open Utf8
open Gateway (minute)

variable {forwarding : Forwarding}

/-! ## The feed -/

inductive NextAnswer where
  | update (sequence : Nat) (payload : Bytes)
  | waiting
  | failed (failures : List Failure)
  | outOfRange
deriving DecidableEq, Repr

/-- The update after a cursor, under the lock. Nothing to deliver means to wait and look again. -/
def AuthorityRoute.nextControlUpdate (route : AuthorityRoute) (after : Nat) (cancelled : Bool)
    (now : Int) (weather : EndWeather) : AuthorityRoute × NextAnswer :=
  if cancelled || route.withdrawn || route.controlUnavailable then (route, .failed [.authority])
  else match route.authority.deadline now with
    | (authority, .error failure) =>
      let (route, failures) :=
        { route with authority := authority }.withdrawLocked [failure] weather
      (route, .failed failures)
    | (authority, .ok _) =>
      let route := { route with authority := authority }
      match route.controlUpdates with
      | [] =>
        let (route, failures) := route.withdrawLocked [.authority] weather
        (route, .failed failures)
      | first :: _ =>
        if route.controlSequence < after then
          let (route, failures) := route.withdrawLocked [.authority] weather
          (route, .failed failures)
        else if after = 0 then
          match route.controlUpdates.getLast? with
          | some update => (route, .update update.sequence update.payload)
          | none => (route, .outOfRange)
        else if after < route.controlSequence then
          if after + 1 < first.sequence then
            let (route, failures) := route.withdrawLocked [.authority] weather
            (route, .failed failures)
          else match route.controlUpdates[after + 1 - first.sequence]? with
            | some update => (route, .update update.sequence update.payload)
            | none => (route, .outOfRange)
        else (route, .waiting)

/-- The consumer reconciles what an update carries. -/
def Authority.feed (library : UpdateLibrary) (consumer : Authority) (payload : Bytes) (now : Int) :
    Authority :=
  match decodeAuthorityUpdate library payload with
  | none => consumer
  | some update =>
    (consumer.reconcile (some update.reconciliation) update.features update.credentialExpiry now).1

/-- A worker with its consumer. `recorded` remembers for every update the check and the deadline
that the authority of the worker had when the update was recorded. -/
structure Forwarding where
  worker : AuthorityRoute
  consumer : Authority
  cursor : Nat
  recorded : Nat → Int × Int

/-- What is remembered about the updates after a step of the worker. -/
def remember (recorded : Nat → Int × Int) (worker next : AuthorityRoute) : Nat → Int × Int :=
  if next.controlSequence = worker.controlSequence then recorded
  else fun sequence => if sequence = next.controlSequence then
      (next.authority.checked, next.authority.expires)
    else recorded sequence

inductive ForwardStep where
  | work (step : RouteStep)
  | deliver (cancelled : Bool) (now : Int) (weather : EndWeather) (time : Int)
deriving DecidableEq, Repr

def ForwardStep.perform (library : UpdateLibrary) (forwarding : Forwarding) :
    ForwardStep → Forwarding
  | .work step =>
    let worker := (step.perform library forwarding.worker).1
    { forwarding with
      worker := worker
      recorded := remember forwarding.recorded forwarding.worker worker }
  | .deliver cancelled now weather time =>
    match forwarding.worker.nextControlUpdate forwarding.cursor cancelled now weather with
    | (worker, .update sequence payload) =>
      { forwarding with
        worker := worker
        consumer := forwarding.consumer.feed library payload time
        cursor := sequence }
    | (worker, _) => { forwarding with worker := worker }

/-- The states that a worker and a fresh consumer of the same job reach by steps of some kind. -/
inductive ForwardReached (library : UpdateLibrary) (admissible : ForwardStep → Prop)
    (begun : AuthorityRoute) : Forwarding → Prop where
  | begin : ForwardReached library admissible begun ⟨begun, begun.authority, 0, fun _ => (0, 0)⟩
  | step (forwarding : Forwarding) (step : ForwardStep) (allowed : admissible step)
    (past : ForwardReached library admissible begun forwarding) :
    ForwardReached library admissible begun (step.perform library forwarding)

/-- The wall-clock assumption: the worker reads a time at least a minute into the Unix era. The feed
reads the check of a message that has no observation as the start of that era. -/
def Timely : ForwardStep → Prop
  | .work (.reconcile _ _ _ weather) => unixEpoch + minute ≤ weather.now
  | _ => True

/-- The consumer never has more than the worker had. -/
structure NeverWider (library : UpdateLibrary) (forwarding : Forwarding) : Prop where
  delivered : ∀ cancelled now weather sequence payload,
    (forwarding.worker.nextControlUpdate forwarding.cursor cancelled now weather).2 =
      .update sequence payload →
    (if forwarding.cursor = 0 then sequence = forwarding.worker.controlSequence
      else sequence = forwarding.cursor + 1) ∧
    ∀ time, (forwarding.consumer.feed library payload time).withdrawn = true ∨
      ((forwarding.consumer.feed library payload time).seen = true ∧
        (forwarding.consumer.feed library payload time).expires =
          (forwarding.recorded sequence).2)
  inRange : ∀ cancelled now weather,
    (forwarding.worker.nextControlUpdate forwarding.cursor cancelled now weather).2 ≠ .outOfRange
  behind : forwarding.cursor ≠ 0 → forwarding.cursor + 64 < forwarding.worker.controlSequence →
    ∀ cancelled now weather, ∃ failures,
      (forwarding.worker.nextControlUpdate forwarding.cursor cancelled now weather).2 =
        .failed failures

/-! ## Steps that do not record -/

/-- A step that records nothing. -/
structure Steady (route next : AuthorityRoute) : Prop where
  sequence : next.controlSequence = route.controlSequence
  policy : next.authority.policy = route.authority.policy
  live : next.withdrawn = false → route.withdrawn = false ∧ next.authority = route.authority ∧
    next.controlUpdates = route.controlUpdates ∧ next.controlChecked = route.controlChecked ∧
    next.controlUnavailable = route.controlUnavailable

theorem Steady.refl (route : AuthorityRoute) : Steady route route :=
  ⟨rfl, rfl, fun live => ⟨live, rfl, rfl, rfl, rfl⟩⟩

/-- A withdrawal after any change of what is not recorded. -/
theorem withdrawLocked_steady {route middle : AuthorityRoute}
    (sequence : middle.controlSequence = route.controlSequence)
    (policy : middle.authority.policy = route.authority.policy) {reason : List Failure}
    {weather : EndWeather} : Steady route (middle.withdrawLocked reason weather).1 := by
  unfold AuthorityRoute.withdrawLocked
  by_cases withdrawn : middle.withdrawn = true
  · rw [if_pos withdrawn]
    dsimp only
    split
    · exact ⟨sequence, policy, fun live => by simp [withdrawn] at live⟩
    · exact ⟨sequence, policy, fun live => by simp [withdrawn] at live⟩
  · rw [if_neg withdrawn]
    dsimp only
    split
    · exact ⟨sequence, policy, nofun⟩
    · exact ⟨sequence, policy, nofun⟩

variable (authority : Authority)

section

variable {route : AuthorityRoute}

theorem Concludes.steady {result : AuthorityRoute × List Failure}
    (concluded : Concludes route result) : Steady route result.1 := by
  cases concluded with
  | failed authority session reason weather given kept =>
    exact withdrawLocked_steady (by rfl) kept.policy
  | renewed | idle => exact ⟨rfl, rfl, fun live => ⟨live, rfl, rfl, rfl, rfl⟩⟩

theorem Watched.steady {next : AuthorityRoute} (watched : Watched route next) :
    Steady route next := by
  rcases watched with rfl | ⟨_, _, _, kept, rfl⟩
  · exact .refl next
  · exact withdrawLocked_steady (by rfl) kept.policy

theorem close_steady (weather : EndWeather) (before : List OutsideStep) (teardown : Teardown)
    (remove : CallOutcome) : Steady route (route.close weather before teardown remove).1 := by
  have ended : Steady route (route.withdrawLocked [] weather).1 :=
    withdrawLocked_steady (by rfl) (by rfl)
  unfold AuthorityRoute.close
  dsimp only
  split
  · exact ended
  · exact ⟨ended.sequence, ended.policy, ended.live⟩

/-- Every step but a reconciliation records nothing. -/
theorem step_steady (library : UpdateLibrary) (step : RouteStep)
    (other : ∀ value features credentialExpiry weather,
      step ≠ .reconcile value features credentialExpiry weather) :
    Steady route (step.perform library route).1 := by
  cases step with
  | reconcile => exact absurd rfl (other _ _ _ _)
  | start bindings weather => exact (start_concludes bindings weather).steady
  | refreshDNS bindings weather =>
    show Steady route (route.refreshDNS bindings weather).1
    unfold AuthorityRoute.refreshDNS
    split
    · exact withdrawLocked_steady (by rfl) (by rfl)
    · exact (refreshLocked_concludes bindings true nofun weather).steady
  | withdraw => exact withdrawLocked_steady (by rfl) (by rfl)
  | close weather before teardown remove => exact close_steady weather before teardown remove
  | watch now weather => exact (watch_watched now weather).steady
  | watchWoken now cancelled ended weather =>
    exact (watchWoken_watched now cancelled ended weather).steady
  | outside => exact ⟨rfl, rfl, fun live => ⟨live, rfl, rfl, rfl, rfl⟩⟩

end

/-! ## Reconciliations of a live authority -/

/-- The instants of valid timestamps start with the zero time. -/
theorem asTime_nonneg {value : Option Timestamp} (valid : validAuthorityTime value = true) :
    0 ≤ asTime value := by
  cases value with
  | none => simp [validAuthorityTime] at valid
  | some =>
    simp only [validAuthorityTime, Timestamp.checkValid, Bool.and_eq_true,
      decide_eq_true_eq] at valid
    simp only [asTime, Timestamp.asTime, Gateway.unixEra, Gateway.nanosecondsPerSecond]
    omega

/-- What an accepted reconciliation does to an authority that stays live. -/
inductive Accepted (authority : Authority) (value : Option LeaseReconciliation) :
    Authority → Prop where
  | silent (message : LeaseReconciliation) (present : value = some message)
    (unobserved : message.networkAuthorityV2 = none) : Accepted authority value authority
  | older (next : Authority) (message : LeaseReconciliation) (observation : NetworkAuthority)
    (lease : LeaseIdentity) (credentialExpiry : Int)
    (brought : Brought authority value credentialExpiry message observation lease)
    (seen : authority.seen = true) (seen' : next.seen = true)
    (checked : next.checked = authority.checked)
    (expires : next.expires = authority.expires)
    (behind : asTime observation.checkedAt ≤ authority.checked)
    (agrees : asTime observation.checkedAt = authority.checked →
      asTime observation.expiresAt = authority.expires) : Accepted authority value next
  | newer (next : Authority) (message : LeaseReconciliation) (observation : NetworkAuthority)
    (lease : LeaseIdentity) (credentialExpiry : Int)
    (brought : Brought authority value credentialExpiry message observation lease)
    (seen' : next.seen = true)
    (ahead : authority.seen = true → authority.checked < asTime observation.checkedAt)
    (checked : next.checked = asTime observation.checkedAt)
    (expires : next.expires = asTime observation.expiresAt) : Accepted authority value next

theorem reconcile_live (value : Option LeaseReconciliation) (features : List Int)
    (credentialExpiry now : Int)
    (live : (authority.reconcile value features credentialExpiry now).1.withdrawn = false) :
    Accepted authority value (authority.reconcile value features credentialExpiry now).1 := by
  have outcome := authority.reconcile_spec value features credentialExpiry now
  generalize authority.reconcile value features credentialExpiry now = answer at outcome live ⊢
  cases outcome with
  | ended next failure same gone => exact nomatch (show false = true from live.symm.trans gone)
  | unneeded message present idle silent => exact .silent message present silent
  | older message observation lease brought _ seen behind agrees =>
    exact .older _ message observation lease _ brought seen seen rfl rfl behind agrees
  | newer message observation lease brought _ ahead =>
    exact .newer _ message observation lease _ brought rfl ahead rfl rfl

/-! ## Steps that record -/

/-- What a recorded update carries: an observation that needs authority. -/
structure Carries (library : UpdateLibrary) (policy : NetworkPolicy) (note : Int × Int)
    (payload : Bytes) : Prop where
  message : ∃ value features credentialExpiry observation,
    encodeAuthorityUpdate library (some value) features credentialExpiry = some payload ∧
      (∀ authority : Authority, authority.policy = policy → authority.needs value = true) ∧
      value.networkAuthorityV2 = some observation ∧ observation.state = .current ∧
      asTime observation.checkedAt = note.1 ∧ asTime observation.expiresAt = note.2

/-- What the worker's part of a forwarding stands for. -/
structure Feeds (library : UpdateLibrary) (policy : NetworkPolicy) (worker : AuthorityRoute)
    (recorded : Nat → Int × Int) : Prop where
  same : worker.authority.policy = policy
  ascending : ∀ first second, 1 ≤ first → first ≤ second → second ≤ worker.controlSequence →
    (recorded first).1 ≤ (recorded second).1 ∧
      ((recorded first).1 = (recorded second).1 → (recorded first).2 = (recorded second).2)
  window : worker.withdrawn = false → worker.controlUnavailable = false →
    worker.controlUpdates.length = min worker.controlSequence 64 ∧
    ∀ index update, worker.controlUpdates[index]? = some update →
      update.sequence + worker.controlUpdates.length = worker.controlSequence + index + 1
  carries : worker.withdrawn = false → worker.controlUnavailable = false →
    ∀ update ∈ worker.controlUpdates,
      Carries library policy (recorded update.sequence) update.payload
  fresh : worker.withdrawn = false → worker.controlUnavailable = false →
    worker.authority.seen = false → worker.controlSequence = 0 ∧ worker.controlChecked = 0
  newest : worker.withdrawn = false → worker.controlUnavailable = false →
    worker.authority.seen = true → 1 ≤ worker.controlSequence ∧
      worker.controlChecked = worker.authority.checked ∧
      recorded worker.controlSequence = (worker.authority.checked, worker.authority.expires)
  bounded : worker.withdrawn = false → worker.authority.seen = true →
    worker.authority.expires ≤ worker.authority.checked + minute

theorem Feeds.steady {library : UpdateLibrary} {policy : NetworkPolicy}
    {worker next : AuthorityRoute} {recorded : Nat → Int × Int}
    (feeds : Feeds library policy worker recorded) (steady : Steady worker next) :
    Feeds library policy next recorded := by
  constructor
  · rw [steady.policy]
    exact feeds.same
  · rw [steady.sequence]
    exact feeds.ascending
  all_goals
    intro live
    obtain ⟨before, authority, updates, checked, unavailable⟩ := steady.live live
    simp only [authority, updates, checked, unavailable, steady.sequence]
  · exact feeds.window before
  · exact feeds.carries before
  · exact feeds.fresh before
  · exact feeds.newest before
  · exact feeds.bounded before

section

variable {library : UpdateLibrary} {policy : NetworkPolicy} {worker : AuthorityRoute}
  {recorded : Nat → Int × Int}

/-- The worker's authority after an accepted reconciliation, before anything is recorded. -/
structure Renewed (worker next : AuthorityRoute) (value : Option LeaseReconciliation) (now : Int) :
    Prop where
  before : worker.withdrawn = false
  live : next.withdrawn = false
  sequence : next.controlSequence = worker.controlSequence
  updates : next.controlUpdates = worker.controlUpdates
  checked : next.controlChecked = worker.controlChecked
  unavailable : next.controlUnavailable = worker.controlUnavailable
  policy : next.authority.policy = worker.authority.policy
  accepted : Accepted worker.authority value next.authority
  seen : next.authority.seen = true
  ahead : now < next.authority.expires
  timely : unixEpoch + minute ≤ now

variable {next : AuthorityRoute} {value : Option LeaseReconciliation} {updates : List ControlUpdate}

/-- The check that a message is read to have. -/
def readCheck (value : Option LeaseReconciliation) : Int :=
  asTime ((value.bind (·.networkAuthorityV2)).bind (·.checkedAt))

theorem Brought.readCheck {credentialExpiry : Int} {message : LeaseReconciliation}
    {observation : NetworkAuthority} {lease : LeaseIdentity} {authority : Authority}
    (brought : Brought authority value credentialExpiry message observation lease) :
    readCheck value = asTime observation.checkedAt := by
  simp [Network.readCheck, brought.present, brought.observed]

/-- The updates of a window are numbered up to the sequence. -/
def Numbered (updates : List ControlUpdate) (sequence : Nat) : Prop :=
  ∀ index update, updates[index]? = some update →
    update.sequence + updates.length = sequence + index + 1

section

variable {sequence : Nat} (numbered : Numbered updates sequence)
include numbered

theorem Numbered.snoc (payload : Bytes) :
    Numbered (updates ++ [⟨sequence + 1, payload⟩]) (sequence + 1) := by
  intro index update found
  rw [List.length_append, List.length_singleton]
  rcases Threads.getElem?_snoc.mp found with before | ⟨rfl, rfl⟩
  · have place := numbered index update before
    omega
  · show sequence + 1 + _ = _
    omega

theorem Numbered.drop (nonempty : updates ≠ []) : Numbered (updates.drop 1) sequence := by
  intro index update found
  rw [List.getElem?_drop] at found
  have place := numbered (1 + index) update found
  have positive := List.length_pos_iff.2 nonempty
  rw [List.length_drop]
  omega

theorem Numbered.le : ∀ update ∈ updates, update.sequence ≤ sequence := by
  intro update member
  obtain ⟨index, inside, rfl⟩ := List.mem_iff_getElem.1 member
  have place := numbered index updates[index] (by simp)
  omega

end

theorem remember_same (sequence : next.controlSequence = worker.controlSequence) :
    remember recorded worker next = recorded := by
  unfold remember
  rw [if_pos sequence]

theorem remember_old (grows : worker.controlSequence ≤ next.controlSequence) {sequence : Nat}
    (old : sequence ≤ worker.controlSequence) :
    remember recorded worker next sequence = recorded sequence := by
  unfold remember
  by_cases same : next.controlSequence = worker.controlSequence
  · rw [if_pos same]
  · rw [if_neg same, if_neg (by omega)]

/-- A step of the worker keeps what the updates stand for. -/
structure Extends (library : UpdateLibrary) (policy : NetworkPolicy) (recorded : Nat → Int × Int)
    (worker next : AuthorityRoute) : Prop where
  grows : worker.controlSequence ≤ next.controlSequence
  feeds : Feeds library policy next (remember recorded worker next)

theorem Extends.unrecorded (sequence : next.controlSequence = worker.controlSequence)
    (feeds : Feeds library policy next recorded) : Extends library policy recorded worker next := by
  constructor
  · exact Nat.le_of_eq sequence.symm
  · rw [remember_same sequence]
    exact feeds

theorem Feeds.unrecorded (feeds : Feeds library policy worker recorded)
    (steady : Steady worker next) : Extends library policy recorded worker next :=
  .unrecorded steady.sequence (feeds.steady steady)

section

variable {now : Int} (renewed : Renewed worker next value now)
  (feeds : Feeds library policy worker recorded)
include renewed feeds

theorem Renewed.bounded : next.authority.expires ≤ next.authority.checked + minute := by
  have seen := renewed.seen
  have accepted := renewed.accepted
  generalize next.authority = authority at *
  cases accepted with
  | silent => exact feeds.bounded renewed.before seen
  | older _ message observation lease _ brought known _ checked expires =>
    rw [checked, expires]
    exact feeds.bounded renewed.before known
  | newer _ message observation lease _ brought _ ahead checked expires =>
    rw [checked, expires]
    exact brought.bounded

/-- A worker that records nothing because it cannot. -/
theorem Renewed.unable {final : AuthorityRoute} (authority : final.authority = next.authority)
    (sequence : final.controlSequence = next.controlSequence)
    (unavailable : final.controlUnavailable = true) : Feeds library policy final recorded where
  same := by rw [authority, renewed.policy, feeds.same]
  ascending := by rw [sequence, renewed.sequence]; exact feeds.ascending
  window _ available := by simp [unavailable] at available
  carries _ available := by simp [unavailable] at available
  fresh _ available := by simp [unavailable] at available
  newest _ available := by simp [unavailable] at available
  bounded _ _ := by rw [authority]; exact renewed.bounded feeds

section

variable (available : worker.controlUnavailable = false)
include available

/-- A message that is older than the newest one changes nothing that is recorded. -/
theorem Renewed.skipped (older : readCheck value < worker.controlChecked) :
    Feeds library policy next recorded := by
  have known : worker.authority.seen = true ∧
      next.authority.checked = worker.authority.checked ∧
      next.authority.expires = worker.authority.expires := by
    have seen := renewed.seen
    have accepted := renewed.accepted
    generalize next.authority = authority at *
    cases accepted with
    | silent => exact ⟨seen, rfl, rfl⟩
    | older _ message observation lease _ brought known _ checked expires =>
      exact ⟨known, checked, expires⟩
    | newer _ message observation lease _ brought _ ahead =>
      have check := brought.readCheck
      by_cases known : worker.authority.seen = true
      · have newest := feeds.newest renewed.before available known
        have later := ahead known
        omega
      · have nonneg := asTime_nonneg brought.timed
        have fresh := feeds.fresh renewed.before available (by simpa using known)
        omega
  have newest := feeds.newest renewed.before available known.1
  constructor
  · rw [renewed.policy, feeds.same]
  · rw [renewed.sequence]
    exact feeds.ascending
  · rw [renewed.updates, renewed.sequence]
    intro _ _
    exact feeds.window renewed.before available
  · rw [renewed.updates]
    intro _ _
    exact feeds.carries renewed.before available
  · intro _ _ unseen
    simp [renewed.seen] at unseen
  · intro _ _ _
    rw [renewed.sequence, renewed.checked, known.2.1, known.2.2]
    exact newest
  · intro _ _
    exact renewed.bounded feeds

/-- A message that is not older carries the check and the deadline of the authority. -/
theorem Renewed.carries (current : ¬ readCheck value < worker.controlChecked) (features : List Int)
    (credentialExpiry : Int) (raw : Bytes)
    (encoded : encodeAuthorityUpdate library value features credentialExpiry = some raw) :
    Carries library policy (next.authority.checked, next.authority.expires) raw ∧
      readCheck value = next.authority.checked ∧
      (worker.authority.seen = true → worker.authority.checked ≤ next.authority.checked ∧
        (worker.authority.checked = next.authority.checked →
          worker.authority.expires = next.authority.expires)) := by
  have seen := renewed.seen
  have ahead := renewed.ahead
  have bounded := renewed.bounded feeds
  have timely := renewed.timely
  have accepted := renewed.accepted
  generalize next.authority = authority at *
  cases accepted with
  | silent message present unobserved =>
    -- Such a message is read as one that was checked at the start of the Unix era.
    have check : readCheck value = unixEpoch := by simp [readCheck, present, unobserved, asTime]
    have newest := feeds.newest renewed.before available seen
    omega
  | older _ message observation lease _ brought known _ checked expires behind agrees =>
    have check := brought.readCheck
    have newest := feeds.newest renewed.before available known
    have equal : asTime observation.checkedAt = worker.authority.checked := by omega
    refine ⟨⟨message, features, credentialExpiry, observation, brought.present ▸ encoded, ?_,
      brought.observed, brought.state, ?_, ?_⟩, ?_, fun _ => ⟨by omega, fun _ => expires.symm⟩⟩
    · intro other same
      rw [needs_congr (same.trans feeds.same.symm) message]
      exact brought.needed
    · rw [equal, checked]
    · rw [agrees equal, expires]
    · rw [check, equal, checked]
  | newer _ message observation lease _ brought _ ahead checked expires =>
    have check := brought.readCheck
    refine ⟨⟨message, features, credentialExpiry, observation, brought.present ▸ encoded, ?_,
      brought.observed, brought.state, checked.symm, expires.symm⟩, check.trans checked.symm,
      fun known => ?_⟩
    · intro other same
      rw [needs_congr (same.trans feeds.same.symm) message]
      exact brought.needed
    · have later := ahead known
      exact ⟨by omega, fun equal => by omega⟩

/-- The newest update is remembered in front of the older ones. -/
theorem Renewed.appended {final : AuthorityRoute}
    (current : ¬ readCheck value < worker.controlChecked) (features : List Int)
    (credentialExpiry : Int) (raw : Bytes)
    (encoded : encodeAuthorityUpdate library value features credentialExpiry = some raw)
    (authority : final.authority = next.authority)
    (sequence : final.controlSequence = worker.controlSequence + 1)
    (checked : final.controlChecked = readCheck value)
    (updates : final.controlUpdates =
      if 64 < (worker.controlUpdates ++
          [(⟨worker.controlSequence + 1, raw⟩ : ControlUpdate)]).length then
        (worker.controlUpdates ++ [(⟨worker.controlSequence + 1, raw⟩ : ControlUpdate)]).drop 1
      else worker.controlUpdates ++ [⟨worker.controlSequence + 1, raw⟩]) :
    Feeds library policy final (remember recorded worker final) := by
  obtain ⟨carries, check, grows⟩ := renewed.carries feeds available current features
    credentialExpiry raw encoded
  obtain ⟨length, numbered⟩ := feeds.window renewed.before available
  have whole : remember recorded worker final = fun number =>
      if number = worker.controlSequence + 1 then (next.authority.checked, next.authority.expires)
      else recorded number := by
    unfold remember
    rw [if_neg (by omega), sequence, authority]
  have snoc : Numbered (worker.controlUpdates ++ [⟨worker.controlSequence + 1, raw⟩])
      (worker.controlSequence + 1) := Numbered.snoc numbered raw
  have inside : ∀ update ∈ final.controlUpdates, update ∈ worker.controlUpdates ∨
      update = ⟨worker.controlSequence + 1, raw⟩ := by
    intro update member
    have found : update ∈ worker.controlUpdates ++ [⟨worker.controlSequence + 1, raw⟩] := by
      rw [updates] at member
      split at member
      · exact List.mem_of_mem_drop member
      · exact member
    simpa using found
  rw [whole]
  constructor
  · rw [authority, renewed.policy, feeds.same]
  · intro first second positive ordered bound
    rw [sequence] at bound
    by_cases last : second = worker.controlSequence + 1
    · rw [if_pos last]
      by_cases both : first = worker.controlSequence + 1
      · rw [if_pos both]
        exact ⟨Int.le_refl _, fun _ => rfl⟩
      rw [if_neg both]
      -- Older updates are behind the newest one, which is behind this one.
      have known : worker.authority.seen = true := by
        by_contra unseen
        have fresh := (feeds.fresh renewed.before available (by simpa using unseen)).1
        omega
      obtain ⟨_, _, newest⟩ := feeds.newest renewed.before available known
      obtain ⟨behind, equal⟩ := feeds.ascending first worker.controlSequence positive (by omega)
        (Nat.le_refl _)
      rw [newest] at behind equal
      obtain ⟨later, agrees⟩ := grows known
      dsimp only at behind equal ⊢
      refine ⟨by omega, fun same => ?_⟩
      rw [equal (by omega), agrees (by omega)]
    · rw [if_neg last, if_neg (by omega)]
      exact feeds.ascending first second positive ordered (by omega)
  · intro _ _
    rw [updates, sequence]
    split
    · next full =>
      refine ⟨?_, Numbered.drop snoc (by simp)⟩
      rw [List.length_drop]
      simp only [List.length_append, List.length_singleton] at full ⊢
      omega
    · next room =>
      refine ⟨?_, snoc⟩
      simp only [List.length_append, List.length_singleton] at room ⊢
      omega
  · intro _ _ update member
    rcases inside update member with known | rfl
    · have bound := Numbered.le numbered update known
      rw [if_neg (by omega)]
      exact feeds.carries renewed.before available update known
    · rw [if_pos rfl]
      exact carries
  · intro _ _ unseen
    rw [authority, renewed.seen] at unseen
    simp at unseen
  · intro _ _ _
    rw [sequence, if_pos rfl, authority, checked, check]
    exact ⟨by omega, rfl, rfl⟩
  · intro _ _
    rw [authority]
    exact renewed.bounded feeds

end

theorem Renewed.record (features : List Int) (credentialExpiry : Int) :
    Extends library policy recorded worker
      (next.recordControlUpdate library value features credentialExpiry) := by
  unfold AuthorityRoute.recordControlUpdate
  by_cases unavailable : next.controlUnavailable = true
  · rw [if_pos unavailable]
    exact .unrecorded renewed.sequence (renewed.unable feeds rfl rfl unavailable)
  have available : worker.controlUnavailable = false := by
    rw [← renewed.unavailable]
    simpa using unavailable
  rw [if_neg unavailable]
  dsimp only
  by_cases older : readCheck value < next.controlChecked
  · rw [if_pos (show asTime _ < _ from older)]
    exact .unrecorded renewed.sequence (renewed.skipped feeds available (renewed.checked ▸ older))
  rw [if_neg (show ¬ asTime _ < _ from older)]
  cases encoded : encodeAuthorityUpdate library value features credentialExpiry with
  | none => exact .unrecorded renewed.sequence (renewed.unable feeds rfl rfl rfl)
  | some raw =>
    dsimp only
    by_cases last : next.controlSequence = 2 ^ 64 - 1
    · rw [if_pos last]
      exact .unrecorded renewed.sequence (renewed.unable feeds rfl rfl rfl)
    rw [if_neg last]
    constructor
    · show worker.controlSequence ≤ next.controlSequence + 1
      rw [renewed.sequence]
      omega
    · exact renewed.appended feeds available (renewed.checked ▸ older) features credentialExpiry
        raw encoded rfl (by rw [← renewed.sequence]) rfl
        (by rw [← renewed.updates, ← renewed.sequence]; rfl)

end

/-- A reconciliation either records nothing or keeps what the updates stand for. -/
theorem Feeds.reconcile (feeds : Feeds library policy worker recorded)
    (value : Option LeaseReconciliation) (features : List Int) (credentialExpiry : Int)
    (weather : ReconcileWeather) (timely : unixEpoch + minute ≤ weather.now) :
    Extends library policy recorded worker
      (worker.reconcile library value features credentialExpiry weather).1 := by
  have accepted := reconcile_live worker.authority value features credentialExpiry weather.now
  have kept := worker.authority.reconcile_kept value features credentialExpiry weather.now
  have settled := @reconcile_settled worker library value features credentialExpiry weather
  generalize worker.reconcile library value features credentialExpiry weather = result at settled ⊢
  cases settled with
  | gone authority failures kept withdrawn =>
    exact feeds.unrecorded ⟨rfl, kept.policy, fun live => by simp [withdrawn] at live⟩
  | ended _ concluded => exact feeds.unrecorded concluded.steady
  | recorded authority result live reconciled granted seen ahead concluded fine =>
    rw [reconciled] at accepted kept
    have steady := concluded.steady
    have lasting : result.1.withdrawn = false := (concluded.live fine).trans live
    obtain ⟨_, same, updates, checked, unavailable⟩ := steady.live lasting
    have renewed : Renewed worker result.1 value weather.now :=
      ⟨live, lasting, steady.sequence, updates, checked, unavailable,
        steady.policy.trans kept.policy, same ▸ accepted granted, same ▸ seen, same ▸ ahead, timely⟩
    exact renewed.record feeds features credentialExpiry

/-- One step of the worker. -/
theorem Feeds.work (feeds : Feeds library policy worker recorded) (step : RouteStep)
    (timely : Timely (.work step)) :
    Extends library policy recorded worker (step.perform library worker).1 := by
  by_cases other : ∀ value features credentialExpiry weather,
      step ≠ .reconcile value features credentialExpiry weather
  · exact feeds.unrecorded (step_steady library step other)
  · push Not at other
    obtain ⟨value, features, credentialExpiry, weather, rfl⟩ := other
    exact feeds.reconcile value features credentialExpiry weather timely

/-! ## Delivery -/

/-- The update that a consumer gets. -/
structure Delivered (library : UpdateLibrary) (policy : NetworkPolicy) (worker : AuthorityRoute)
    (recorded : Nat → Int × Int) (after sequence : Nat) (payload : Bytes) : Prop where
  consecutive : if after = 0 then sequence = worker.controlSequence else sequence = after + 1
  positive : 1 ≤ sequence
  newest : sequence ≤ worker.controlSequence
  carries : Carries library policy (recorded sequence) payload

theorem Delivered.later {after sequence : Nat} {payload : Bytes}
    (delivered : Delivered library policy worker recorded after sequence payload) :
    after ≤ sequence := by
  have consecutive := delivered.consecutive
  split at consecutive
  · omega
  · omega

theorem nextControlUpdate_steady (worker : AuthorityRoute) (after : Nat) (cancelled : Bool)
    (now : Int) (weather : EndWeather) :
    Steady worker (worker.nextControlUpdate after cancelled now weather).1 := by
  have policy := (worker.authority.deadline_remains now).kept.policy
  unfold AuthorityRoute.nextControlUpdate
  split
  · exact .refl worker
  split
  · next authority failure dated =>
    rw [dated] at policy
    exact withdrawLocked_steady (by rfl) (by exact policy)
  · next authority time dated =>
    obtain ⟨rfl, _⟩ := worker.authority.deadline_ok now authority time dated
    have ended (reason : List Failure) : Steady worker (worker.withdrawLocked reason weather).1 :=
      withdrawLocked_steady (by rfl) (by rfl)
    dsimp only
    split
    · exact ended _
    split
    · exact ended _
    split
    · split <;> exact .refl worker
    split
    · split
      · exact ended _
      split <;> exact .refl worker
    · exact .refl worker

/-- Every answer is an update in order, an error or to wait; the window never misses the index. -/
def Responds (library : UpdateLibrary) (policy : NetworkPolicy) (worker : AuthorityRoute)
    (recorded : Nat → Int × Int) (after : Nat) : NextAnswer → Prop
  | .update sequence payload =>
    Delivered library policy worker recorded after sequence payload ∧
      (after = 0 ∨ worker.controlSequence ≤ after + 64)
  | .waiting => after = worker.controlSequence
  | .failed _ => True
  | .outOfRange => False

theorem Feeds.responds (feeds : Feeds library policy worker recorded) (after : Nat)
    (cancelled : Bool) (now : Int) (weather : EndWeather) :
    Responds library policy worker recorded after
      (worker.nextControlUpdate after cancelled now weather).2 := by
  unfold AuthorityRoute.nextControlUpdate
  split
  · trivial
  next usable =>
  simp only [Bool.or_eq_true, not_or, Bool.not_eq_true] at usable
  obtain ⟨⟨_, live⟩, available⟩ := usable
  split
  · trivial
  next authority time dated =>
  obtain ⟨rfl, _⟩ := worker.authority.deadline_ok now authority time dated
  dsimp only
  obtain ⟨length, numbered⟩ := feeds.window live available
  have carries := feeds.carries live available
  generalize worker.controlUpdates = updates at *
  cases updates with
  | nil => trivial
  | cons first rest =>
    dsimp only
    split
    · trivial
    next known =>
    have start := numbered 0 first rfl
    by_cases fresh : after = 0
    · rw [if_pos fresh]
      cases last : (first :: rest).getLast? with
      | none => simp at last
      | some update =>
        have place := numbered rest.length update (by
          rw [List.getLast?_eq_getElem?] at last
          exact last)
        simp only [List.length_cons] at place length
        have newest : update.sequence = worker.controlSequence := by omega
        refine ⟨⟨?_, by omega, by omega, carries update (List.mem_of_getLast? last)⟩, .inl fresh⟩
        rw [if_pos fresh]
        exact newest
    rw [if_neg fresh]
    by_cases behind : after < worker.controlSequence
    · rw [if_pos behind]
      split
      · trivial
      next near =>
      have inside : after + 1 - first.sequence < (first :: rest).length := by omega
      rw [List.getElem?_eq_getElem inside]
      have place := numbered _ _ (List.getElem?_eq_getElem inside)
      refine ⟨⟨?_, by omega, by omega, carries _ (List.getElem_mem inside)⟩, .inr (by omega)⟩
      rw [if_neg fresh]
      omega
    · rw [if_neg behind]
      show after = _
      omega

/-! ## The consumer -/

/-- An authority that an update may be fed to: it knows nothing newer. -/
def Before (consumer : Authority) (note : Int × Int) : Prop :=
  consumer.withdrawn = true ∨ consumer.seen = false ∨
    (consumer.checked ≤ note.1 ∧ (consumer.checked = note.1 → consumer.expires = note.2))

/-- An authority that has what an update was recorded with. -/
def Mirrors (consumer : Authority) (note : Int × Int) : Prop :=
  consumer.withdrawn = true ∨
    (consumer.seen = true ∧ consumer.checked = note.1 ∧ consumer.expires = note.2)

/-- The consumer has the check and the deadline of an update, or is withdrawn. -/
theorem Carries.feed (lawful : library.Lawful) {note : Int × Int} {payload : Bytes}
    (carries : Carries library policy note payload) {consumer : Authority}
    (before : Before consumer note) (now : Int) :
    Mirrors (consumer.feed library payload now) note := by
  obtain ⟨value, features, credentialExpiry, observation, encoded, _, observed, _, checked,
    expires⟩ := carries.message
  have stripped : value.stripped.networkAuthorityV2 = some observation := observed
  unfold Authority.feed
  rw [decode_encode library lawful value features credentialExpiry payload encoded]
  dsimp only
  have keeps : consumer.withdrawn = true → _ := fun withdrawn =>
    (consumer.reconcile_kept (some value.stripped) (bitFeatures (featureBits features))
      credentialExpiry now).ended withdrawn
  have live := reconcile_live consumer (some value.stripped) (bitFeatures (featureBits features))
    credentialExpiry now
  generalize (consumer.reconcile (some value.stripped) (bitFeatures (featureBits features))
    credentialExpiry now).1 = next at *
  by_cases withdrawn : next.withdrawn = true
  · exact .inl withdrawn
  right
  cases live (by simpa using withdrawn) with
  | silent message present unobserved =>
    obtain rfl : value.stripped = message := by simpa using present
    simp [stripped] at unobserved
  | older _ message other lease _ brought seen seen' kept keptExpiry =>
    obtain rfl : value.stripped = message := by simpa using brought.present
    obtain rfl : observation = other := by simpa [stripped] using brought.observed
    rcases before with gone | unseen | ⟨earlier, equal⟩
    · exact absurd (keeps gone) withdrawn
    · simp [seen] at unseen
    · have both : consumer.checked = note.1 := by omega
      exact ⟨seen', kept.trans both, keptExpiry.trans (equal both)⟩
  | newer _ message other lease _ brought seen' ahead kept keptExpiry =>
    obtain rfl : value.stripped = message := by simpa using brought.present
    obtain rfl : observation = other := by simpa [stripped] using brought.observed
    exact ⟨seen', kept.trans checked, keptExpiry.trans expires⟩

/-- What the whole forwarding keeps. -/
structure Follows (library : UpdateLibrary) (policy : NetworkPolicy) (forwarding : Forwarding) :
    Prop where
  feeds : Feeds library policy forwarding.worker forwarding.recorded
  known : forwarding.cursor ≤ forwarding.worker.controlSequence
  unfed : forwarding.cursor = 0 →
    forwarding.consumer.withdrawn = true ∨ forwarding.consumer.seen = false
  fed : forwarding.cursor ≠ 0 →
    Mirrors forwarding.consumer (forwarding.recorded forwarding.cursor)

/-- The consumer knows nothing newer than the next update. -/
theorem Follows.before (follows : Follows library policy forwarding)
    {sequence : Nat} (later : forwarding.cursor ≤ sequence)
    (newest : sequence ≤ forwarding.worker.controlSequence) :
    Before forwarding.consumer (forwarding.recorded sequence) := by
  by_cases fresh : forwarding.cursor = 0
  · rcases follows.unfed fresh with gone | unseen
    · exact .inl gone
    · exact .inr (.inl unseen)
  · rcases follows.fed fresh with gone | ⟨_, checked, expires⟩
    · exact .inl gone
    · obtain ⟨behind, agrees⟩ := follows.feeds.ascending forwarding.cursor sequence (by omega) later
        newest
      exact .inr (.inr ⟨by omega, fun same => expires.trans (agrees (checked.symm.trans same))⟩)

theorem Follows.step (lawful : library.Lawful)
    (follows : Follows library policy forwarding) (step : ForwardStep) (timely : Timely step) :
    Follows library policy (step.perform library forwarding) := by
  cases step with
  | work step =>
    obtain ⟨grows, feeds⟩ := follows.feeds.work step timely
    refine ⟨feeds, Nat.le_trans follows.known grows, follows.unfed, fun fed => ?_⟩
    have old :
        remember forwarding.recorded forwarding.worker (step.perform library forwarding.worker).1
        forwarding.cursor = forwarding.recorded forwarding.cursor :=
      remember_old grows follows.known
    show Mirrors forwarding.consumer (remember _ _ _ forwarding.cursor)
    rw [old]
    exact follows.fed fed
  | deliver cancelled now weather time =>
    have steady :=
      nextControlUpdate_steady forwarding.worker forwarding.cursor cancelled now weather
    have answered := follows.feeds.responds forwarding.cursor cancelled now weather
    simp only [ForwardStep.perform]
    generalize forwarding.worker.nextControlUpdate forwarding.cursor cancelled now weather = answer
      at *
    obtain ⟨worker, answer⟩ := answer
    have feeds := follows.feeds.steady steady
    have same : worker.controlSequence = forwarding.worker.controlSequence := steady.sequence
    cases answer with
    | update sequence =>
      have before := follows.before answered.1.later answered.1.newest
      obtain ⟨⟨_, positive, newest, carries⟩, _⟩ := answered
      exact ⟨feeds, by show sequence ≤ worker.controlSequence; omega,
        fun fresh => absurd fresh (by show sequence ≠ 0; omega),
        fun _ => carries.feed lawful before time⟩
    | waiting | failed failures =>
      exact ⟨feeds, by show _ ≤ worker.controlSequence; rw [same]; exact follows.known,
        follows.unfed, follows.fed⟩
    | outOfRange => exact nomatch answered

theorem Follows.neverWider (lawful : library.Lawful)
    (follows : Follows library policy forwarding) : NeverWider library forwarding := by
  constructor
  · intro cancelled now weather sequence payload given
    have answered := follows.feeds.responds forwarding.cursor cancelled now weather
    rw [given] at answered
    have before := follows.before answered.1.later answered.1.newest
    refine ⟨answered.1.consecutive, fun time => ?_⟩
    rcases answered.1.carries.feed lawful before time with gone | ⟨seen, _, expires⟩
    · exact .inl gone
    · exact .inr ⟨seen, expires⟩
  · intro cancelled now weather given
    have answered := follows.feeds.responds forwarding.cursor cancelled now weather
    rw [given] at answered
    exact answered
  · intro fed behind cancelled now weather
    have answered := follows.feeds.responds forwarding.cursor cancelled now weather
    generalize (forwarding.worker.nextControlUpdate forwarding.cursor cancelled now weather).2 =
      answer at answered ⊢
    cases answer with
    | failed failures => exact ⟨failures, rfl⟩
    | update =>
      obtain ⟨_, fresh | near⟩ := answered
      · exact absurd fresh fed
      · omega
    | waiting =>
      have same : forwarding.cursor = forwarding.worker.controlSequence := answered
      omega
    | outOfRange => exact nomatch answered

end

theorem ForwardReached.follows {library : UpdateLibrary} (lawful : library.Lawful)
    {begun : AuthorityRoute}
    (fresh : Follows library begun.authority.policy ⟨begun, begun.authority, 0, fun _ => (0, 0)⟩)
    (reached : ForwardReached library Timely begun forwarding) :
    Follows library begun.authority.policy forwarding := by
  induction reached with
  | begin => exact fresh
  | step forwarding step allowed past follows => exact follows.step lawful step allowed

theorem newAuthorityRoute_follows (library : UpdateLibrary) (wire : WireLibrary)
    (job : Option JobSpecification) (usable : Bool) (begun : AuthorityRoute)
    (made : newAuthorityRoute wire job usable = .ok begun) :
    Follows library begun.authority.policy ⟨begun, begun.authority, 0, fun _ => (0, 0)⟩ := by
  unfold newAuthorityRoute at made
  split at made
  · simp at made
  split at made
  · simp at made
  next authority admitted =>
  split at made
  · simp at made
  obtain ⟨unseen, _⟩ := newAuthority_unseen wire job authority admitted
  simp only [Except.ok.injEq] at made
  subst made
  constructor
  · constructor
    · rfl
    · intro first second positive ordered bound
      simp only [Nat.le_zero_eq] at bound
      omega
    · exact fun _ _ => ⟨rfl, fun index update found => by simp at found⟩
    · exact fun _ _ update member => by simp at member
    · exact fun _ _ _ => ⟨rfl, rfl⟩
    · exact fun _ _ seen => by simp [unseen] at seen
    · exact fun _ seen => by simp [unseen] at seen
  · exact Nat.le_refl 0
  · exact fun _ => .inr unseen
  · exact fun fed => absurd rfl fed

/-- After every update that a consumer gets it is withdrawn or has the deadline that the worker had
when it recorded the update; updates come in order, and a consumer that is too far behind gets an
error.

Proof: worker and consumer stay in the relation `Follows`. -/
theorem forwarded_never_wider (library : UpdateLibrary) (lawful : library.Lawful)
    (wire : WireLibrary) (job : Option JobSpecification) (usable : Bool) (begun : AuthorityRoute)
    (made : newAuthorityRoute wire job usable = .ok begun) (forwarding : Forwarding)
    (reached : ForwardReached library Timely begun forwarding) : NeverWider library forwarding :=
  (reached.follows lawful
    (newAuthorityRoute_follows library wire job usable begun made)).neverWider lawful

/-! ## Samples -/

/-- An observation that is recorded and delivered. -/
theorem forwarded_never_wider_delivered :
    ∃ forwarding, ForwardReached sampleLibrary Timely sampleSupervisor forwarding ∧
      forwarding.cursor = 1 ∧ forwarding.consumer.withdrawn = false ∧
      forwarding.consumer.expires = ofUnixSeconds 1030 ∧
      NeverWider sampleLibrary forwarding := by
  have reached : ForwardReached sampleLibrary Timely sampleSupervisor _ :=
    (ForwardReached.begin.step _ (.work sampleObserve)
      (show unixEpoch + minute ≤ ofUnixSeconds 1001 by decide)).step _
      (.deliver false (ofUnixSeconds 1002) sampleEnd (ofUnixSeconds 1002)) trivial
  exact ⟨_, reached, by decide +kernel, by decide +kernel, by decide +kernel,
    forwarded_never_wider sampleLibrary (onlyLibrary_lawful _) sampleWire (some sampleJob) true _
      sample_supervised _ reached⟩

end ProvenanceRunner.Network
