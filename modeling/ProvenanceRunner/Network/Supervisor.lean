import ProvenanceRunner.Network.Session
import ProvenanceRunner.Network.Updates

/-! # The supervisor of an authority and its route

One attempt's authority and route belong together. Every operation holds the lock of the supervisor.
The session has a lock of its own: its watcher and the name service that runs on it may take steps
between any two calls of the session that an operation makes. -/

namespace ProvenanceRunner.Network

open Utf8

/-- What happens to a session without the supervisor. -/
inductive OutsideStep where
  | withdraw (teardown : Teardown)
  | watchCancelled (teardown : Teardown)
  | watchTimer (now : Int) (teardown : Teardown)
deriving DecidableEq, Repr

def OutsideStep.perform (session : RouteSession) : OutsideStep → RouteSession
  | .withdraw teardown => (session.withdraw teardown).1
  | .watchCancelled teardown => session.watchCancelled teardown
  | .watchTimer now teardown => session.watchTimer now teardown

/-- Some such steps in a row. -/
def elapse (session : RouteSession) (steps : List OutsideStep) : RouteSession :=
  steps.foldl (fun session step => step.perform session) session

structure ControlUpdate where
  sequence : Nat
  payload : Bytes
deriving DecidableEq, Repr

/-- `closed` counts how often the channel that signals withdrawal has been closed. -/
structure AuthorityRoute where
  authority : Authority
  route : Option RouteSession
  bindings : List Binding
  installed : Int
  withdrawn : Bool
  closed : Nat
  cleanup : List Failure
  controlUpdates : List ControlUpdate
  controlSequence : Nat
  controlChecked : Int
  controlUnavailable : Bool
deriving DecidableEq, Repr

def newAuthorityRoute (wire : WireLibrary) (job : Option JobSpecification) (usable : Bool) :
    Except Failure AuthorityRoute :=
  if !usable then .error .authority
  else match newAuthority wire job with
    | .error failure => .error failure
    | .ok authority =>
      if authority.policy.mode == .none then .error .authority
      else .ok
        { authority := authority
          route := none
          bindings := []
          installed := 0
          withdrawn := false
          closed := 0
          cleanup := []
          controlUpdates := []
          controlSequence := 0
          controlChecked := 0
          controlUnavailable := false }

/-- What a withdrawal meets: steps of the session before it, and the answers of the actuator. -/
structure EndWeather where
  outside : List OutsideStep
  teardown : Teardown
deriving DecidableEq, Repr

/-- What a refresh under the lock meets, in the order in which it looks. -/
structure RenewWeather where
  cancelled : Bool
  constrain : Int
  beforeDNS : List OutsideStep
  dnsCancelled : Bool
  dnsNow : Int
  beforeRefresh : List OutsideStep
  refresh : RefreshWeather
  ending : EndWeather
deriving DecidableEq, Repr

structure ReconcileWeather where
  cancelled : Bool
  now : Int
  renew : RenewWeather
  ending : EndWeather
deriving DecidableEq, Repr

structure InstallWeather where
  cancelled : Bool
  constrain : Int
  start : StartWeather
  cancelledAfter : Bool
  ending : EndWeather
deriving DecidableEq, Repr

def maximumControlUpdates : Nat := 64

/-- The earliest of an expiry and those of the bindings. -/
def earliestExpiry (expires : Int) : List Binding → Int
  | [] => expires
  | binding :: rest =>
    earliestExpiry (if binding.expires < expires then binding.expires else expires) rest

/-- The earliest expiry of the bindings, rounded down to a second. -/
def bindingDeadline : List Binding → Int
  | [] => 0
  | first :: rest => ofUnixSeconds (unixSeconds (earliestExpiry first.expires (first :: rest)))

namespace AuthorityRoute

def withdrawLocked (route : AuthorityRoute) (reason : List Failure) (weather : EndWeather) :
    AuthorityRoute × List Failure :=
  let route := if route.withdrawn then route else
    { route with
      withdrawn := true
      controlUpdates := []
      authority := route.authority.withdraw
      closed := route.closed + 1 }
  match route.route with
  | none => (route, reason ++ route.cleanup)
  | some session =>
    let (session, errors) := (elapse session weather.outside).withdraw weather.teardown
    let route := { route with route := some session, cleanup := route.cleanup ++ errors }
    (route, reason ++ route.cleanup)

/-- The bounded bindings are installed when their deadline is another one than that of the installed
ones, or when the bindings are new. -/
def renewSession (route : AuthorityRoute) (session : RouteSession) (bindings bounded : List Binding)
    (dnsRefresh : Bool) (weather : RenewWeather) : AuthorityRoute × List Failure :=
  let deadline := bindingDeadline bounded
  let kept := if dnsRefresh then bindings else route.bindings
  if dnsRefresh || deadline != route.installed then
    let (session, errors) :=
      (elapse session weather.beforeRefresh).refresh bounded false weather.refresh
    let route := { route with route := some session }
    if !errors.isEmpty then route.withdrawLocked errors weather.ending
    else ({ route with installed := deadline, bindings := kept }, [])
  else ({ route with bindings := kept }, [])

def refreshLocked (route : AuthorityRoute) (bindings : List Binding) (dnsRefresh : Bool)
    (weather : RenewWeather) : AuthorityRoute × List Failure :=
  if weather.cancelled then route.withdrawLocked [.authority] weather.ending
  else match route.authority.constrainBindings bindings weather.constrain with
    | (authority, .error failure) =>
      { route with authority := authority }.withdrawLocked [failure] weather.ending
    | (authority, .ok bounded) =>
      let route := { route with authority := authority }
      match route.route with
      | none => route.withdrawLocked [.policy] weather.ending
      | some session =>
        let session := elapse session weather.beforeDNS
        let route := { route with route := some session }
        match session.dns weather.dnsCancelled weather.dnsNow with
        | .error failure => route.withdrawLocked [failure] weather.ending
        | .ok _ => route.renewSession session bindings bounded dnsRefresh weather

/-- A reconciliation that was accepted is kept for the root supervisor, unless it is older than the
newest one that is kept. -/
def recordControlUpdate (library : UpdateLibrary) (route : AuthorityRoute)
    (value : Option LeaseReconciliation) (features : List Int) (credentialExpiry : Int) :
    AuthorityRoute :=
  if route.controlUnavailable then route
  else
    let checked := asTime ((value.bind (·.networkAuthorityV2)).bind (·.checkedAt))
    if checked < route.controlChecked then route
    else match encodeAuthorityUpdate library value features credentialExpiry with
      | none => { route with controlUnavailable := true, controlUpdates := [] }
      | some raw =>
        if route.controlSequence = 2 ^ 64 - 1 then
          { route with controlUnavailable := true, controlUpdates := [] }
        else
          let updates := route.controlUpdates ++ [⟨route.controlSequence + 1, raw⟩]
          { route with
            controlSequence := route.controlSequence + 1
            controlChecked := checked
            controlUpdates := if maximumControlUpdates < updates.length then updates.drop 1
              else updates }

def reconcile (library : UpdateLibrary) (route : AuthorityRoute)
    (value : Option LeaseReconciliation) (features : List Int) (credentialExpiry : Int)
    (weather : ReconcileWeather) : AuthorityRoute × List Failure :=
  if route.withdrawn then
    match route.authority.reconcile value features credentialExpiry weather.now with
    | (authority, some failure) => ({ route with authority := authority }, failure :: route.cleanup)
    | (authority, none) =>
      ({ route with authority := authority }, .authorityWithdrawn :: route.cleanup)
  else if weather.cancelled then route.withdrawLocked [.authority] weather.ending
  else match route.authority.reconcile value features credentialExpiry weather.now with
    | (authority, some failure) =>
      { route with authority := authority }.withdrawLocked [failure] weather.ending
    | (authority, none) =>
      match authority.deadline weather.now with
      | (authority, .error _) =>
        { route with authority := authority }.withdrawLocked [.authorityWithdrawn] weather.ending
      | (authority, .ok _) =>
        let route := { route with authority := authority }
        let (route, errors) :=
          if route.route.isSome then route.refreshLocked route.bindings false weather.renew
          else (route, [])
        if !errors.isEmpty then (route, errors)
        else (route.recordControlUpdate library value features credentialExpiry, [])

def start (route : AuthorityRoute) (bindings : List Binding) (weather : InstallWeather) :
    AuthorityRoute × List Failure :=
  if route.withdrawn || route.route.isSome || weather.cancelled then
    route.withdrawLocked [.authority] weather.ending
  else match route.authority.constrainBindings bindings weather.constrain with
    | (authority, .error failure) =>
      { route with authority := authority }.withdrawLocked [failure] weather.ending
    | (authority, .ok bounded) =>
      let (session, errors) := startRoute authority.lease.jobId bounded weather.start
      let route := { route with authority := authority, route := session }
      let errors := if errors.isEmpty && weather.cancelledAfter then [.authority] else errors
      if !errors.isEmpty then route.withdrawLocked errors weather.ending
      else ({ route with bindings := bindings, installed := bindingDeadline bounded }, [])

def refreshDNS (route : AuthorityRoute) (bindings : List Binding) (weather : RenewWeather) :
    AuthorityRoute × List Failure :=
  if route.withdrawn || route.route.isNone then route.withdrawLocked [.authority] weather.ending
  else route.refreshLocked bindings true weather

def withdraw (route : AuthorityRoute) (weather : EndWeather) : AuthorityRoute × List Failure :=
  route.withdrawLocked [] weather

def close (route : AuthorityRoute) (weather : EndWeather) (outside : List OutsideStep)
    (teardown : Teardown) (remove : CallOutcome) : AuthorityRoute × List Failure :=
  let route := (route.withdrawLocked [] weather).1
  match route.route with
  | none => (route, route.cleanup)
  | some session =>
    let (session, errors) := (elapse session outside).close teardown remove
    let cleanup := if errors.isEmpty then [] else route.cleanup ++ errors
    ({ route with route := some session, cleanup := cleanup }, cleanup)

/-- The watcher looks for the deadline to wait for. -/
def watch (route : AuthorityRoute) (now : Int) (weather : EndWeather) : AuthorityRoute :=
  if route.withdrawn || !route.authority.seen then route
  else match route.authority.deadline now with
    | (authority, .ok _) => { route with authority := authority }
    | (authority, .error failure) =>
      ({ route with authority := authority }.withdrawLocked [failure] weather).1

/-- The watcher has been woken by a timer, by its context or by the end of the session. -/
def watchWoken (route : AuthorityRoute) (now : Int) (cancelled ended : Bool)
    (weather : EndWeather) : AuthorityRoute :=
  match route.authority.deadline now with
  | (authority, .error _) =>
    ({ route with authority := authority }.withdrawLocked [.authority] weather).1
  | (authority, .ok _) =>
    let route := { route with authority := authority }
    if cancelled || ended then (route.withdrawLocked [.authority] weather).1 else route

end AuthorityRoute

/-! ## Executions -/

inductive RouteStep where
  | reconcile (value : Option LeaseReconciliation) (features : List Int) (credentialExpiry : Int)
    (weather : ReconcileWeather)
  | start (bindings : List Binding) (weather : InstallWeather)
  | refreshDNS (bindings : List Binding) (weather : RenewWeather)
  | withdraw (weather : EndWeather)
  | close (weather : EndWeather) (before : List OutsideStep) (teardown : Teardown)
    (remove : CallOutcome)
  | watch (now : Int) (weather : EndWeather)
  | watchWoken (now : Int) (cancelled ended : Bool) (weather : EndWeather)
  | outside (step : OutsideStep)
deriving DecidableEq, Repr

/-- The state after a step and the errors that it returns; a watcher returns none. -/
def RouteStep.perform (library : UpdateLibrary) (route : AuthorityRoute) :
    RouteStep → AuthorityRoute × List Failure
  | .reconcile value features credentialExpiry weather =>
    route.reconcile library value features credentialExpiry weather
  | .start bindings weather => route.start bindings weather
  | .refreshDNS bindings weather => route.refreshDNS bindings weather
  | .withdraw weather => route.withdraw weather
  | .close weather before teardown remove => route.close weather before teardown remove
  | .watch now weather => (route.watch now weather, [])
  | .watchWoken now cancelled ended weather => (route.watchWoken now cancelled ended weather, [])
  | .outside step =>
    ({ route with route := route.route.map fun session => step.perform session }, [])

inductive RouteReached (library : UpdateLibrary) (begun : AuthorityRoute) :
    AuthorityRoute → Prop where
  | begin : RouteReached library begun begun
  | step (route : AuthorityRoute) (step : RouteStep) (past : RouteReached library begun route) :
    RouteReached library begun (step.perform library route).1

end ProvenanceRunner.Network
