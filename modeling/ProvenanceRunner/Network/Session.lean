import ProvenanceRunner.Network.Snapshot

/-! # Route sessions

A route session drives the actuator of one routing namespace: it installs the firewall of a job,
refreshes it, and withdraws it for good. All calls of the actuator are made under the lock of the
session, so an operation is one step; the watcher of the session takes the lock for each of its
steps. What the actuator answers, whether a context has been cancelled and what the clock shows are
inputs of each step. -/

namespace ProvenanceRunner.Network

open Utf8

/-! ## The actuator -/

inductive RouteChange where
  | install
  | refresh
  | withdraw
  | remove
deriving DecidableEq, Repr

inductive ActuatorCall where
  | apply (kind : RouteChange) (program : Program)
  | disconnect
deriving DecidableEq, Repr

/-- A call that is over its time has failed, whatever the actuator returned. -/
inductive CallOutcome where
  | succeeded
  | failed
  | timedOut
deriving DecidableEq, Repr

structure CallRecord where
  call : ActuatorCall
  outcome : CallOutcome
deriving DecidableEq, Repr

/-! ## Sessions -/

/-- The answers of the workload's name service. Host names of accepted bindings differ, so a list
stands for the map. -/
structure WorkloadDNS where
  bindings : List Binding
  issued : Int
  expires : Int
  withdrawn : Bool
deriving DecidableEq, Repr

def newWorkloadDNS (job : Bytes) (bindings : List Binding) (now : Int) :
    Except Failure WorkloadDNS :=
  match compileFirewall job bindings now false with
  | .error failure => .error failure
  | .ok firewall =>
    .ok ⟨bindings, now, ofUnixSeconds (unixSeconds firewall.expires), false⟩

def WorkloadDNS.withdraw (view : WorkloadDNS) : WorkloadDNS :=
  { view with withdrawn := true, bindings := [] }

/-- `calls` are the calls of the actuator so far, the first one first. -/
structure RouteSession where
  job : Bytes
  rules : Firewall
  view : WorkloadDNS
  withdrawn : Bool
  disconnected : Bool
  removed : Bool
  calls : List CallRecord
deriving DecidableEq, Repr

/-- What the actuator answers to a withdrawal. -/
structure Teardown where
  apply : CallOutcome
  disconnect : CallOutcome
deriving DecidableEq, Repr

namespace RouteSession

/-- One batch. -/
def apply (session : RouteSession) (kind : RouteChange) (program : Program)
    (outcome : CallOutcome) : RouteSession × List Failure :=
  ({ session with calls := session.calls ++ [⟨.apply kind program, outcome⟩] },
    if outcome = .succeeded then [] else [.actuation])

/-- The route is severed, unless it is known to be. -/
def disconnect (session : RouteSession) (outcome : CallOutcome) : RouteSession × List Failure :=
  if session.disconnected then (session, [])
  else
    let session := { session with calls := session.calls ++ [⟨.disconnect, outcome⟩] }
    if outcome = .succeeded then ({ session with disconnected := true }, [])
    else (session, [.actuation])

def withdrawLocked (session : RouteSession) (teardown : Teardown) : RouteSession × List Failure :=
  let session := { session with withdrawn := true, view := session.view.withdraw }
  match session.rules.withdraw with
  | .error failure =>
    let (session, errors) := session.disconnect teardown.disconnect
    (session, failure :: errors)
  | .ok program =>
    let (session, first) := session.apply .withdraw program teardown.apply
    let (session, second) := session.disconnect teardown.disconnect
    (session, first ++ second)

/-- A failure withdraws. -/
def fail (session : RouteSession) (failures : List Failure) (teardown : Teardown) :
    RouteSession × List Failure :=
  let (session, errors) := session.withdrawLocked teardown
  (session, failures ++ errors)

end RouteSession

/-- What a start sees: whether the context is usable and the route belongs to the job, the clock,
the answer of the actuator, and context and clock after it. -/
structure StartWeather where
  usable : Bool
  now : Int
  install : CallOutcome
  cancelled : Bool
  finish : Int
  teardown : Teardown
deriving DecidableEq, Repr

def startRoute (job : Bytes) (bindings : List Binding) (weather : StartWeather) :
    Option RouteSession × List Failure :=
  if !weather.usable then (none, [.policy])
  else match compileFirewall job bindings weather.now true with
    | .error failure => (none, [failure])
    | .ok rules =>
      match newWorkloadDNS job bindings weather.now with
      | .error failure => (none, [failure])
      | .ok view =>
        let session : RouteSession := ⟨job, rules, view, false, false, false, []⟩
        let (session, errors) := session.apply .install rules.install weather.install
        let errors :=
          if errors.isEmpty && (weather.cancelled || decide (rules.expires ≤ weather.finish)) then
            [Failure.expired]
          else errors
        if errors.isEmpty then (some session, [])
        else
          let (session, errors) := session.fail errors weather.teardown
          (some session, errors)

/-- What a refresh sees. -/
structure RefreshWeather where
  cancelled : Bool
  now : Int
  refresh : CallOutcome
  cancelledAfter : Bool
  finish : Int
  teardown : Teardown
deriving DecidableEq, Repr

namespace RouteSession

def dns (session : RouteSession) (cancelled : Bool) (now : Int) : Except Failure WorkloadDNS :=
  if session.withdrawn || cancelled || decide (session.rules.expires ≤ now) then .error .expired
  else .ok session.view

/-- The next firewall with its view and the program that leads to it. -/
def prepare (session : RouteSession) (bindings : List Binding) (extension : Bool) (now : Int) :
    Except Failure (Firewall × WorkloadDNS × Program) :=
  match compileFirewall session.job bindings now true with
  | .error failure => .error failure
  | .ok next =>
    match newWorkloadDNS session.job bindings now with
    | .error failure => .error failure
    | .ok view =>
      match session.rules.refresh next now extension with
      | .error failure => .error failure
      | .ok program => .ok (next, view, program)

def refresh (session : RouteSession) (bindings : List Binding) (extension : Bool)
    (weather : RefreshWeather) : RouteSession × List Failure :=
  if session.withdrawn then (session, [.expired])
  else if weather.cancelled then session.fail [.policy] weather.teardown
  else match session.prepare bindings extension weather.now with
    | .error failure => session.fail [failure] weather.teardown
    | .ok (next, view, program) =>
      let session := { session with view := session.view.withdraw }
      let (session, errors) := session.apply .refresh program weather.refresh
      if !errors.isEmpty then session.fail errors weather.teardown
      else if weather.cancelledAfter || decide (next.expires ≤ weather.finish) then
        session.fail [.expired] weather.teardown
      else ({ session with rules := next, view := view }, [])

def withdraw (session : RouteSession) (teardown : Teardown) : RouteSession × List Failure :=
  if session.removed then (session, []) else session.withdrawLocked teardown

def close (session : RouteSession) (teardown : Teardown) (remove : CallOutcome) :
    RouteSession × List Failure :=
  if session.removed then (session, [])
  else
    let (session, errors) := session.withdrawLocked teardown
    if session.disconnected then
      let (session, failed) := session.apply .remove session.rules.remove remove
      ({ session with removed := failed.isEmpty }, errors ++ failed)
    else (session, errors)

/-- The watcher has seen the end of its context. -/
def watchCancelled (session : RouteSession) (teardown : Teardown) : RouteSession :=
  if session.withdrawn then session else (session.withdrawLocked teardown).1

/-- The timer of the watcher has fired. -/
def watchTimer (session : RouteSession) (now : Int) (teardown : Teardown) : RouteSession :=
  if !session.withdrawn && decide (session.rules.expires ≤ now) then
    (session.withdrawLocked teardown).1
  else session

end RouteSession

/-! ## Executions -/

inductive SessionStep where
  | refresh (bindings : List Binding) (extension : Bool) (weather : RefreshWeather)
  | withdraw (teardown : Teardown)
  | close (teardown : Teardown) (remove : CallOutcome)
  | watchCancelled (teardown : Teardown)
  | watchTimer (now : Int) (teardown : Teardown)
deriving DecidableEq, Repr

def SessionStep.perform (session : RouteSession) : SessionStep → RouteSession
  | .refresh bindings extension weather => (session.refresh bindings extension weather).1
  | .withdraw teardown => (session.withdraw teardown).1
  | .close teardown remove => (session.close teardown remove).1
  | .watchCancelled teardown => session.watchCancelled teardown
  | .watchTimer now teardown => session.watchTimer now teardown

/-- The sessions that a start and any steps after it lead to. -/
inductive SessionReached (job : Bytes) : RouteSession → Prop where
  | start (bindings : List Binding) (weather : StartWeather) (session : RouteSession)
    (started : (startRoute job bindings weather).1 = some session) : SessionReached job session
  | step (session : RouteSession) (step : SessionStep) (past : SessionReached job session) :
    SessionReached job (step.perform session)

/-! ## Order -/

def CallRecord.isKind (record : CallRecord) (kind : RouteChange) : Bool :=
  match record.call with
  | .apply other _ => other == kind
  | .disconnect => false

/-- A call for a withdrawal has been made. -/
def CallRecord.ends (record : CallRecord) : Bool :=
  record.isKind .withdraw || record.call == .disconnect

/-- The place of one call among the calls before and after it. -/
structure InOrder (before : List CallRecord) (record : CallRecord) (after : List CallRecord) :
    Prop where
  first : before = [] ↔ record.isKind .install = true
  live : record.isKind .install = true ∨ record.isKind .refresh = true →
    ∀ earlier ∈ before, earlier.ends = false
  severed : record.isKind .remove = true → ∃ earlier ∈ before,
    earlier.call = .disconnect ∧ earlier.outcome = .succeeded
  last : record.isKind .remove = true → record.outcome = .succeeded → after = []

/-- Every call is in its place. -/
def CallsOrdered (calls : List CallRecord) : Prop :=
  ∀ before record after, calls = before ++ record :: after → InOrder before record after

/-- The firewall and the view of a session come from the same bindings, and its program has been
applied last. -/
structure Published (session : RouteSession) (view : WorkloadDNS) : Prop where
  compiled : ∃ bindings now, compileFirewall session.job bindings now true = .ok session.rules ∧
    newWorkloadDNS session.job bindings now = .ok view
  applied : ∃ record, session.calls.getLast? = some record ∧ record.outcome = .succeeded ∧
    (record.call = .apply .install session.rules.install ∨
      ∃ before now extension program, record.call = .apply .refresh program ∧
        Firewall.refresh before session.rules now extension = .ok program)
  live : ∀ record ∈ session.calls, record.ends = false

/-- The calls of a session are in order, and its flags say what has been called. -/
structure SessionSound (session : RouteSession) : Prop where
  ordered : CallsOrdered session.calls
  begun : session.calls ≠ []
  severed : session.disconnected = true → ∃ record ∈ session.calls,
    record.call = .disconnect ∧ record.outcome = .succeeded
  gone : session.removed = true → session.withdrawn = true
  remains : session.removed = false → ∀ record ∈ session.calls,
    record.isKind .remove = true → record.outcome ≠ .succeeded

/-- What holds after every step. -/
structure SessionOrdered (session : RouteSession) : Prop where
  sound : SessionSound session
  published : session.withdrawn = false → Published session session.view

/-- One more call that is in its place. -/
theorem CallsOrdered.snoc {calls : List CallRecord} (ordered : CallsOrdered calls)
    (record : CallRecord)
    (remains : ∀ earlier ∈ calls, earlier.isKind .remove = true → earlier.outcome ≠ .succeeded)
    (first : calls = [] ↔ record.isKind .install = true)
    (live : record.isKind .install = true ∨ record.isKind .refresh = true →
      ∀ earlier ∈ calls, earlier.ends = false)
    (severed : record.isKind .remove = true → ∃ earlier ∈ calls,
      earlier.call = .disconnect ∧ earlier.outcome = .succeeded) :
    CallsOrdered (calls ++ [record]) := by
  intro before other after split
  rcases List.eq_nil_or_concat after with rfl | ⟨more, final, rfl⟩
  · obtain ⟨rfl, same⟩ := List.append_inj' split (by simp)
    obtain rfl : record = other := by simpa using same
    exact ⟨first, live, severed, fun _ _ => rfl⟩
  · have assoc : calls ++ [record] = (before ++ other :: more) ++ [final] := by
      rw [split]
      simp
    obtain ⟨whole, same⟩ := List.append_inj' assoc (by simp)
    obtain rfl : record = final := by simpa using same
    have place := ordered before other more whole
    refine ⟨place.first, place.live, place.severed, fun removes succeeded => ?_⟩
    exact absurd succeeded (remains other (by simp [whole]) removes)

/-! ## Steps -/

section

variable {session : RouteSession}

section

variable (sound : SessionSound session) (present : session.removed = false)
include sound present

/-- One more call, which is neither an installation nor a successful removal. -/
theorem SessionSound.called (record : CallRecord) (install : record.isKind .install = false)
    (live : record.isKind .refresh = true → ∀ earlier ∈ session.calls, earlier.ends = false)
    (severed : record.isKind .remove = true → ∃ earlier ∈ session.calls,
      earlier.call = .disconnect ∧ earlier.outcome = .succeeded)
    (failed : record.isKind .remove = true → record.outcome ≠ .succeeded) :
    SessionSound { session with calls := session.calls ++ [record] } where
  ordered := sound.ordered.snoc record (sound.remains present)
    (by simp [sound.begun, install]) (by simpa [install] using live) severed
  begun := by simp
  severed cut := by
    obtain ⟨earlier, member, done⟩ := sound.severed cut
    exact ⟨earlier, by simp [member], done⟩
  gone := sound.gone
  remains _ other member removes := by
    rcases List.mem_append.1 member with known | new
    · exact sound.remains present other known removes
    · rw [List.mem_singleton.1 new] at removes ⊢
      exact failed removes

theorem SessionSound.disconnect (outcome : CallOutcome) :
    SessionSound (session.disconnect outcome).1 ∧
      (session.disconnect outcome).1.withdrawn = session.withdrawn ∧
      (session.disconnect outcome).1.removed = false := by
  unfold RouteSession.disconnect
  by_cases cut : session.disconnected = true
  · rw [if_pos cut]
    exact ⟨sound, rfl, present⟩
  rw [if_neg cut]
  have called := sound.called present ⟨.disconnect, outcome⟩ rfl nofun nofun nofun
  dsimp only
  by_cases succeeded : outcome = .succeeded
  · rw [if_pos succeeded]
    refine ⟨⟨called.ordered, called.begun, fun _ => ?_, called.gone, called.remains⟩, rfl, present⟩
    exact ⟨⟨.disconnect, outcome⟩, by simp, rfl, succeeded⟩
  · rw [if_neg succeeded]
    exact ⟨called, rfl, present⟩

/-- A withdrawal keeps the order. -/
theorem SessionSound.withdrawLocked (teardown : Teardown) :
    SessionSound (session.withdrawLocked teardown).1 ∧
      (session.withdrawLocked teardown).1.withdrawn = true ∧
      (session.withdrawLocked teardown).1.removed = false := by
  have marked : SessionSound { session with withdrawn := true, view := session.view.withdraw } :=
    ⟨sound.ordered, sound.begun, sound.severed, fun _ => rfl, sound.remains⟩
  unfold RouteSession.withdrawLocked
  dsimp only
  cases session.rules.withdraw with
  | error => exact marked.disconnect present teardown.disconnect
  | ok program =>
    have applied := marked.called present ⟨.apply .withdraw program, teardown.apply⟩ rfl
      nofun nofun nofun
    exact applied.disconnect present teardown.disconnect

end

/-- A withdrawn session promises nothing about its view. -/
theorem SessionSound.withdrawn (sound : SessionSound session)
    (withdrawn : session.withdrawn = true) : SessionOrdered session :=
  ⟨sound, fun live => by simp [withdrawn] at live⟩

theorem SessionSound.fail (sound : SessionSound session) (present : session.removed = false)
    (failures : List Failure) (teardown : Teardown) :
    SessionOrdered (session.fail failures teardown).1 :=
  have ⟨next, gone, _⟩ := sound.withdrawLocked present teardown
  next.withdrawn gone

/-- A live session has not been removed. -/
theorem SessionOrdered.present (ordered : SessionOrdered session)
    (live : session.withdrawn = false) : session.removed = false := by
  by_contra removed
  have gone := ordered.sound.gone (by simpa using removed)
  simp [live] at gone

theorem prepare_ok (bindings : List Binding) (extension : Bool) (now : Int) (next : Firewall)
    (view : WorkloadDNS) (program : Program)
    (prepared : session.prepare bindings extension now = .ok (next, view, program)) :
    compileFirewall session.job bindings now true = .ok next ∧
      newWorkloadDNS session.job bindings now = .ok view ∧
      session.rules.refresh next now extension = .ok program := by
  unfold RouteSession.prepare at prepared
  split at prepared
  · simp at prepared
  split at prepared
  · simp at prepared
  split at prepared
  · simp at prepared
  next compiled _ _ made _ _ refreshed =>
  simp only [Except.ok.injEq, Prod.mk.injEq] at prepared
  obtain ⟨rfl, rfl, rfl⟩ := prepared
  exact ⟨compiled, made, refreshed⟩

section

variable (ordered : SessionOrdered session)
include ordered

/-- A refresh withdraws or publishes a new firewall. -/
theorem SessionOrdered.refresh (bindings : List Binding) (extension : Bool)
    (weather : RefreshWeather) : SessionOrdered (session.refresh bindings extension weather).1 := by
  unfold RouteSession.refresh
  by_cases withdrawn : session.withdrawn = true
  · rw [if_pos withdrawn]
    exact ordered
  have live : session.withdrawn = false := by simpa using withdrawn
  have present := ordered.present live
  have published := ordered.published live
  rw [if_neg withdrawn]
  by_cases cancelled : weather.cancelled = true
  · rw [if_pos cancelled]
    exact ordered.sound.fail present _ _
  rw [if_neg cancelled]
  cases prepared : session.prepare bindings extension weather.now with
  | error => exact ordered.sound.fail present _ _
  | ok result =>
    obtain ⟨next, view, program⟩ := result
    obtain ⟨compiled, made, refreshed⟩ :=
      prepare_ok bindings extension weather.now next view program prepared
    have called := ordered.sound.called present ⟨.apply .refresh program, weather.refresh⟩ rfl
      (fun _ => published.live) nofun nofun
    -- The call has been made; nothing has been decided about it.
    have alike (rules : Firewall) (view : WorkloadDNS) : SessionSound
        { session with
          rules := rules
          view := view
          calls := session.calls ++ [⟨.apply .refresh program, weather.refresh⟩] } :=
      ⟨called.ordered, called.begun, called.severed, called.gone, called.remains⟩
    by_cases succeeded : weather.refresh = .succeeded
    swap
    · simp only [RouteSession.apply, succeeded, if_false, List.isEmpty_cons,
        Bool.not_false, if_true]
      exact (alike session.rules session.view.withdraw).fail present _ _
    simp only [RouteSession.apply, if_pos succeeded, List.isEmpty_nil, Bool.not_true,
      Bool.false_eq_true, if_false]
    split
    · exact (alike session.rules session.view.withdraw).fail present _ _
    refine ⟨alike next view, fun _ => ⟨⟨bindings, weather.now, compiled, made⟩, ?_, ?_⟩⟩
    · refine ⟨⟨.apply .refresh program, weather.refresh⟩, by simp, succeeded, Or.inr ?_⟩
      exact ⟨session.rules, weather.now, extension, program, rfl, refreshed⟩
    intro record member
    rcases List.mem_append.1 member with known | new
    · exact published.live record known
    · rw [List.mem_singleton.1 new]
      rfl

theorem SessionOrdered.withdraw (teardown : Teardown) :
    SessionOrdered (session.withdraw teardown).1 := by
  unfold RouteSession.withdraw
  by_cases removed : session.removed = true
  · rw [if_pos removed]
    exact ordered
  · rw [if_neg removed]
    obtain ⟨sound, gone, _⟩ := ordered.sound.withdrawLocked (by simpa using removed) teardown
    exact sound.withdrawn gone

theorem SessionOrdered.close (teardown : Teardown) (remove : CallOutcome) :
    SessionOrdered (session.close teardown remove).1 := by
  unfold RouteSession.close
  by_cases removed : session.removed = true
  · rw [if_pos removed]
    exact ordered
  rw [if_neg removed]
  obtain ⟨sound, gone, present⟩ := ordered.sound.withdrawLocked (by simpa using removed) teardown
  dsimp only
  by_cases cut : (session.withdrawLocked teardown).1.disconnected = true
  swap
  · rw [if_neg cut]
    exact sound.withdrawn gone
  rw [if_pos cut]
  have severed := sound.severed cut
  generalize (session.withdrawLocked teardown).1 = withdrawn at *
  by_cases succeeded : remove = .succeeded
  swap
  · have called := sound.called present ⟨.apply .remove withdrawn.rules.remove, remove⟩ rfl nofun
      (fun _ => severed) (fun _ => succeeded)
    simp only [RouteSession.apply, succeeded, if_false, List.isEmpty_cons]
    exact SessionSound.withdrawn ⟨called.ordered, called.begun, called.severed, fun _ => gone,
      fun _ => called.remains present⟩ gone
  · have calls := sound.ordered.snoc ⟨.apply .remove withdrawn.rules.remove, remove⟩
      (sound.remains present) (iff_of_false sound.begun nofun)
      (by simp [CallRecord.isKind])
      (fun _ => severed)
    simp only [RouteSession.apply, if_pos succeeded, List.isEmpty_nil]
    refine SessionSound.withdrawn ⟨calls, by simp, fun _ => ?_, fun _ => gone,
      nofun⟩ gone
    obtain ⟨earlier, member, done⟩ := severed
    exact ⟨earlier, by simp [member], done⟩

/-- Every step keeps the order. -/
theorem SessionOrdered.step (step : SessionStep) : SessionOrdered (step.perform session) := by
  cases step with
  | refresh bindings extension weather => exact ordered.refresh bindings extension weather
  | withdraw teardown => exact ordered.withdraw teardown
  | close teardown remove => exact ordered.close teardown remove
  | watchCancelled teardown =>
    show SessionOrdered (session.watchCancelled teardown)
    unfold RouteSession.watchCancelled
    by_cases withdrawn : session.withdrawn = true
    · rw [if_pos withdrawn]
      exact ordered
    · rw [if_neg withdrawn]
      have live : session.withdrawn = false := by simpa using withdrawn
      exact ordered.sound.fail (ordered.present live) [] teardown
  | watchTimer now teardown =>
    show SessionOrdered (session.watchTimer now teardown)
    unfold RouteSession.watchTimer
    split
    · next late =>
      have live : session.withdrawn = false := by
        simp only [Bool.and_eq_true, Bool.not_eq_true'] at late
        exact late.1
      exact ordered.sound.fail (ordered.present live) [] teardown
    · exact ordered

end

end

/-- A start installs, and withdraws when that fails. -/
theorem startRoute_ordered (job : Bytes) (bindings : List Binding) (weather : StartWeather)
    (session : RouteSession) (started : (startRoute job bindings weather).1 = some session) :
    SessionOrdered session := by
  unfold startRoute at started
  split at started
  · simp at started
  split at started
  · simp at started
  next rules compiled =>
  split at started
  · simp at started
  next view made =>
  have sound : SessionSound ⟨job, rules, view, false, false, false,
      [⟨.apply .install rules.install, weather.install⟩]⟩ := by
    have calls : CallsOrdered ([] ++ [⟨.apply .install rules.install, weather.install⟩]) :=
      CallsOrdered.snoc (fun before record after split => by simp at split) _ (by simp)
        (iff_of_true rfl rfl) (by simp) nofun
    refine ⟨calls, by simp, nofun, nofun, ?_⟩
    intro _ record member removes
    rw [List.mem_singleton.1 member] at removes
    exact nomatch removes
  by_cases succeeded : weather.install = .succeeded
  swap
  · simp only [RouteSession.apply, List.nil_append, succeeded, if_false, List.isEmpty_cons,
      Bool.false_and, Bool.false_eq_true, Option.some.injEq] at started
    rw [← started]
    exact sound.fail rfl _ _
  simp only [RouteSession.apply, List.nil_append, if_pos succeeded, List.isEmpty_nil,
    Bool.true_and] at started
  by_cases late : (weather.cancelled || decide (rules.expires ≤ weather.finish)) = true
  · simp only [if_pos late, List.isEmpty_cons, Bool.false_eq_true, if_false,
      Option.some.injEq] at started
    rw [← started]
    exact sound.fail rfl _ _
  · simp only [if_neg late, List.isEmpty_nil, if_true, Option.some.injEq] at started
    subst started
    refine ⟨sound, fun _ => ⟨⟨bindings, weather.now, compiled, made⟩, ?_, ?_⟩⟩
    · exact ⟨⟨.apply .install rules.install, weather.install⟩, rfl, succeeded, Or.inl rfl⟩
    · intro record member
      rw [List.mem_singleton.1 member]
      rfl

/-- Throughout every execution the calls are in order. -/
theorem SessionReached.ordered {job : Bytes} {session : RouteSession}
    (reached : SessionReached job session) : SessionOrdered session := by
  induction reached with
  | start bindings weather session started =>
    exact startRoute_ordered job bindings weather session started
  | step session step past ordered => exact ordered.step step

/-- Calls of the actuator are in order in every execution of a session, and a view is given out only
when its firewall has been applied, has not expired, and no withdrawal has begun.

Proof: `SessionOrdered` holds at the start and after every step. -/
theorem route_session_ordered (job : Bytes) (session : RouteSession)
    (reached : SessionReached job session) :
    session.calls ≠ [] ∧ CallsOrdered session.calls ∧
      ∀ cancelled now view, session.dns cancelled now = .ok view →
        now < session.rules.expires ∧ Published session view := by
  have ordered := reached.ordered
  refine ⟨ordered.sound.begun, ordered.sound.ordered, fun cancelled now view answered => ?_⟩
  unfold RouteSession.dns at answered
  split at answered
  · simp at answered
  next current =>
  simp only [Bool.or_eq_true, decide_eq_true_eq, not_or, Bool.not_eq_true, Int.not_le] at current
  simp only [Except.ok.injEq] at answered
  subst answered
  exact ⟨current.2, ordered.published current.1.1⟩

/-- A start that succeeds. -/
def sampleStart : StartWeather where
  usable := true
  now := ofUnixSeconds 1001
  install := .succeeded
  cancelled := false
  finish := ofUnixSeconds 1002
  teardown := ⟨.succeeded, .succeeded⟩

/-- A session is refreshed with the bindings it was started with. -/
def sampleRefreshed (session : RouteSession) : RouteSession :=
  (SessionStep.refresh [sampleBinding] false
    { cancelled := false
      now := ofUnixSeconds 1003
      refresh := .succeeded
      cancelledAfter := false
      finish := ofUnixSeconds 1004
      teardown := ⟨.succeeded, .succeeded⟩ }).perform session

/-- A session is withdrawn, where the actuator fails to apply the batch, and closed. -/
def sampleClosed (session : RouteSession) : RouteSession :=
  (SessionStep.close ⟨.succeeded, .succeeded⟩ .succeeded).perform
    ((SessionStep.withdraw ⟨.failed, .succeeded⟩).perform session)

/-- A session that is started and refreshed gives out its view. Once it is withdrawn and closed, its
firewall is gone after six calls. -/
theorem route_session_ordered_closed :
    ∃ session view, (startRoute (sampleID 0x32) [sampleBinding] sampleStart).1 = some session ∧
      (sampleRefreshed session).dns false (ofUnixSeconds 1005) = .ok view ∧
      Published (sampleRefreshed session) view ∧
      (sampleClosed (sampleRefreshed session)).removed = true ∧
      (sampleClosed (sampleRefreshed session)).calls.length = 6 ∧
      CallsOrdered (sampleClosed (sampleRefreshed session)).calls := by
  have computed : (startRoute (sampleID 0x32) [sampleBinding] sampleStart).1.map (fun session =>
      (((sampleRefreshed session).dns false (ofUnixSeconds 1005)).toOption.isSome,
        (sampleClosed (sampleRefreshed session)).removed,
        (sampleClosed (sampleRefreshed session)).calls.length)) = some (true, true, 6) := by
    decide +kernel
  obtain ⟨session, started, facts⟩ := Option.map_eq_some_iff.1 computed
  simp only [Prod.mk.injEq] at facts
  obtain ⟨answers, removed, six⟩ := facts
  have refreshed : SessionReached (sampleID 0x32) (sampleRefreshed session) :=
    .step _ _ (.start [sampleBinding] sampleStart session started)
  have closed : SessionReached (sampleID 0x32) (sampleClosed (sampleRefreshed session)) :=
    .step _ _ (.step _ _ refreshed)
  cases answered : (sampleRefreshed session).dns false (ofUnixSeconds 1005) with
  | error => simp [answered, Except.toOption] at answers
  | ok view =>
    have published := (route_session_ordered _ _ refreshed).2.2 _ _ _ answered
    exact ⟨session, view, started, answered, published.2, removed, six,
      (route_session_ordered _ _ closed).2.1⟩

end ProvenanceRunner.Network
