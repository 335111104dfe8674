import ProvenanceRunner.Network.Deadlines
import ProvenanceRunner.Network.Supervisor

/-! # Installed routes and their authority

While a supervisor is live, the deadline that the last applied program has written is not later than
the deadline of the authority, nor than the expiry of any binding. Every error of a live supervisor
withdraws the authority and the route, once. -/

namespace ProvenanceRunner.Network

open Utf8
open PacketFilter (Command Rule)

variable {now : Int} {authority : Authority} {result : AuthorityRoute × List Failure}

/-! ## The deadline that is written -/

/-- The last program that was installed or refreshed with success. -/
def lastApplied (calls : List CallRecord) : Option Program :=
  (calls.filterMap fun record =>
    match record.call, record.outcome with
    | .apply .install program, .succeeded => some program
    | .apply .refresh program, .succeeded => some program
    | _, _ => none).getLast?

theorem lastApplied_snoc (calls : List CallRecord) (record : CallRecord) (program : Program)
    (applied : record.call = .apply .install program ∨ record.call = .apply .refresh program)
    (succeeded : record.outcome = .succeeded) :
    lastApplied (calls ++ [record]) = some program := by
  obtain ⟨_, _⟩ := record
  rcases applied with rfl | rfl <;> cases succeeded <;> simp [lastApplied]

theorem lastApplied_ended (calls : List CallRecord) (record : CallRecord)
    (install : record.isKind .install = false) (refresh : record.isKind .refresh = false) :
    lastApplied (calls ++ [record]) = lastApplied calls := by
  obtain ⟨call, _⟩ := record
  cases call with
  | disconnect => simp [lastApplied]
  | apply kind =>
    cases kind with
    | install => exact nomatch install
    | refresh => exact nomatch refresh
    | withdraw | remove => simp [lastApplied]

/-! ## Sessions -/

/-- The last applied program is that of the firewall of the session. -/
def Applied (session : RouteSession) : Prop :=
  ∃ program, lastApplied session.calls = some program ∧
    writtenDeadline program = some (unixSeconds session.rules.expires).toNat ∧
    0 < unixSeconds session.rules.expires

/-- What a step from outside leaves alone. -/
structure OnlyEnds (session next : RouteSession) : Prop where
  rules : next.rules = session.rules
  applied : lastApplied next.calls = lastApplied session.calls
  withdrawn : session.withdrawn = true → next.withdrawn = true

variable (session : RouteSession) (bindings : List Binding)

theorem OnlyEnds.refl : OnlyEnds session session := ⟨rfl, rfl, id⟩

theorem OnlyEnds.trans {first second third : RouteSession} (one : OnlyEnds first second)
    (two : OnlyEnds second third) : OnlyEnds first third :=
  ⟨two.rules.trans one.rules, two.applied.trans one.applied, two.withdrawn ∘ one.withdrawn⟩

theorem OnlyEnds.keeps {session next : RouteSession} (ends : OnlyEnds session next)
    (applied : Applied session) : Applied next := by
  obtain ⟨program, last, written, positive⟩ := applied
  exact ⟨program, ends.applied.trans last, by rw [ends.rules]; exact written,
    by rw [ends.rules]; exact positive⟩

theorem disconnect_ends (outcome : CallOutcome) :
    OnlyEnds session (session.disconnect outcome).1 := by
  unfold RouteSession.disconnect
  by_cases cut : session.disconnected = true
  · rw [if_pos cut]
    exact .refl session
  rw [if_neg cut]
  have last := lastApplied_ended session.calls ⟨.disconnect, outcome⟩ rfl rfl
  dsimp only
  by_cases succeeded : outcome = .succeeded
  · rw [if_pos succeeded]
    exact ⟨rfl, last, id⟩
  · rw [if_neg succeeded]
    exact ⟨rfl, last, id⟩

theorem withdrawLocked_ends (teardown : Teardown) :
    OnlyEnds session (session.withdrawLocked teardown).1 ∧
      (session.withdrawLocked teardown).1.withdrawn = true := by
  unfold RouteSession.withdrawLocked
  dsimp only
  cases session.rules.withdraw with
  | error =>
    refine ⟨.trans ?_ (disconnect_ends _ _), (disconnect_ends _ _).withdrawn rfl⟩
    exact ⟨rfl, rfl, fun _ => rfl⟩
  | ok =>
    refine ⟨.trans ?_ (disconnect_ends _ _), (disconnect_ends _ _).withdrawn rfl⟩
    exact ⟨rfl, lastApplied_ended session.calls _ rfl rfl, fun _ => rfl⟩

theorem OutsideStep.ends (step : OutsideStep) :
    OnlyEnds session (step.perform session) := by
  cases step with
  | withdraw teardown =>
    show OnlyEnds session (session.withdraw teardown).1
    unfold RouteSession.withdraw
    split
    · exact .refl session
    · exact (withdrawLocked_ends session teardown).1
  | watchCancelled teardown =>
    show OnlyEnds session (session.watchCancelled teardown)
    unfold RouteSession.watchCancelled
    split
    · exact .refl session
    · exact (withdrawLocked_ends session teardown).1
  | watchTimer now teardown =>
    show OnlyEnds session (session.watchTimer now teardown)
    unfold RouteSession.watchTimer
    split
    · exact (withdrawLocked_ends session teardown).1
    · exact .refl session

variable {job : Bytes}

theorem OutsideStep.reached {session : RouteSession} (step : OutsideStep)
    (reached : SessionReached job session) : SessionReached job (step.perform session) := by
  cases step with
  | withdraw teardown => exact reached.step session (.withdraw teardown)
  | watchCancelled teardown => exact reached.step session (.watchCancelled teardown)
  | watchTimer now teardown => exact reached.step session (.watchTimer now teardown)

theorem elapse_ends (steps : List OutsideStep) :
    OnlyEnds session (elapse session steps) := by
  induction steps generalizing session with
  | nil => exact .refl session
  | cons step rest ends => exact (step.ends session).trans (ends (step.perform session))

theorem elapse_reached {session : RouteSession} (steps : List OutsideStep)
    (reached : SessionReached job session) : SessionReached job (elapse session steps) := by
  induction steps generalizing session with
  | nil => exact reached
  | cons step rest induction => exact induction (step.reached reached)

/-- A session that is withdrawn by its owner is withdrawn. -/
theorem withdraw_withdrawn {session : RouteSession} (reached : SessionReached job session)
    (teardown : Teardown) :
    (session.withdraw teardown).1.withdrawn = true := by
  unfold RouteSession.withdraw
  split
  · next removed => exact reached.ordered.sound.gone removed
  · exact (withdrawLocked_ends session teardown).2

theorem close_withdrawn {session : RouteSession} (withdrawn : session.withdrawn = true)
    (teardown : Teardown) (remove : CallOutcome) :
    (session.close teardown remove).1.withdrawn = true := by
  have gone := (withdrawLocked_ends session teardown).2
  unfold RouteSession.close
  split
  · exact withdrawn
  dsimp only
  split
  · exact gone
  · exact gone

theorem earliestExpiry_min? (expires : Int) (bindings : List Binding) :
    (expires :: bindings.map Binding.expires).min? = some (earliestExpiry expires bindings) := by
  rw [List.min?_cons']
  induction bindings generalizing expires with
  | nil => rfl
  | cons binding rest step =>
    rw [List.map_cons, List.foldl_cons, step, earliestExpiry]
    split
    · rw [Int.min_eq_right (by omega)]
    · rw [Int.min_eq_left (by omega)]

theorem bindingDeadline_eq (earliest : Int)
    (bounds : ∀ binding ∈ bindings, earliest ≤ binding.expires)
    (reached : ∃ binding ∈ bindings, binding.expires = earliest) :
    bindingDeadline bindings = ofUnixSeconds (unixSeconds earliest) := by
  cases bindings with
  | nil => simp at reached
  | cons first rest =>
    have least : (first.expires :: (first :: rest).map Binding.expires).min? = some earliest := by
      refine List.min?_eq_some_iff.2 ⟨.tail _ (List.mem_map.2 reached), ?_⟩
      exact List.forall_mem_cons.2 ⟨bounds first (by simp), List.forall_mem_map.2 bounds⟩
    rw [earliestExpiry_min?] at least
    simp only [bindingDeadline, Option.some.inj least]

/-- A deadline of bindings is not later than any of them. -/
theorem bindingDeadline_le :
    ∀ binding ∈ bindings, bindingDeadline bindings ≤ binding.expires := by
  intro binding member
  cases bindings with
  | nil => simp at member
  | cons first rest =>
    have least := (List.min?_eq_some_iff.1 (earliestExpiry_min? first.expires (first :: rest))).2
    exact Int.le_trans (ofUnixSeconds_unixSeconds_le _)
      (least _ (.tail _ (List.mem_map_of_mem member)))

/-- A firewall that was compiled closes at the deadline of its bindings. -/
theorem compiled_expires {bindings : List Binding} {rules : Firewall}
    (compiled : compileFirewall job bindings now true = .ok rules) :
    bindings ≠ [] ∧ rules.expires = bindingDeadline bindings ∧ 0 < unixSeconds rules.expires ∧
      writtenDeadline rules.install = some (unixSeconds rules.expires).toNat ∧
      ∀ firewall : Firewall, writtenDeadline (refreshProgram firewall rules) =
        some (unixSeconds rules.expires).toNat := by
  obtain ⟨made, rfl, _, _, _, bounds, reached, deadline, _, positive⟩ :=
    compileFirewall_ok job bindings now true rules compiled
  have seconds : unixSeconds made.firewall.expires = made.deadline := unixSeconds_ofUnixSeconds _
  rw [seconds]
  refine ⟨?_, ?_, positive, writtenDeadline_install made, writtenDeadline_refresh made⟩
  · rintro rfl
    simp at reached
  · rw [bindingDeadline_eq bindings made.gathered.expires bounds reached, ← deadline]
    rfl

/-- A refresh without errors. -/
theorem refresh_applied (extension : Bool) (weather : RefreshWeather)
    (fine : (session.refresh bindings extension weather).2 = []) :
    Applied (session.refresh bindings extension weather).1 ∧ bindings ≠ [] ∧
      (session.refresh bindings extension weather).1.rules.expires = bindingDeadline bindings := by
  unfold RouteSession.refresh at fine ⊢
  by_cases withdrawn : session.withdrawn = true
  · simp [withdrawn] at fine
  rw [if_neg withdrawn] at fine ⊢
  by_cases cancelled : weather.cancelled = true
  · simp [cancelled, RouteSession.fail] at fine
  rw [if_neg cancelled] at fine ⊢
  cases prepared : session.prepare bindings extension weather.now with
  | error => simp [prepared, RouteSession.fail] at fine
  | ok result =>
    obtain ⟨next, view, program⟩ := result
    obtain ⟨compiled, _, refreshed⟩ := prepare_ok bindings extension weather.now next view
      program prepared
    obtain ⟨nonempty, expires, positive, _, written⟩ := compiled_expires compiled
    obtain ⟨_, _, _, _, _, _, _, same⟩ := refresh_ok _ _ _ _ _ refreshed
    by_cases succeeded : weather.refresh = .succeeded
    swap
    · simp [prepared, RouteSession.apply, succeeded, RouteSession.fail] at fine
    simp only [prepared, RouteSession.apply, if_pos succeeded, List.isEmpty_nil, Bool.not_true,
      Bool.false_eq_true, if_false] at fine ⊢
    by_cases late : (weather.cancelledAfter || decide (next.expires ≤ weather.finish)) = true
    · rw [if_pos late] at fine
      simp [RouteSession.fail] at fine
    rw [if_neg late]
    refine ⟨⟨program, lastApplied_snoc _ _ program (Or.inr rfl) succeeded, ?_, positive⟩, nonempty,
      expires⟩
    rw [same]
    exact written session.rules

/-- A start without errors. -/
theorem start_applied (job : Bytes) (bindings : List Binding) (weather : StartWeather)
    (fine : (startRoute job bindings weather).2 = []) :
    ∃ session, (startRoute job bindings weather).1 = some session ∧ Applied session ∧
      bindings ≠ [] ∧ session.rules.expires = bindingDeadline bindings := by
  unfold startRoute at fine ⊢
  by_cases usable : weather.usable = true
  swap
  · simp [usable] at fine
  rw [if_neg (by simp [usable])] at fine ⊢
  cases compiled : compileFirewall job bindings weather.now true with
  | error => simp [compiled] at fine
  | ok rules =>
    cases made : newWorkloadDNS job bindings weather.now with
    | error => simp [compiled, made] at fine
    | ok =>
      obtain ⟨nonempty, expires, positive, written, _⟩ := compiled_expires compiled
      by_cases succeeded : weather.install = .succeeded
      swap
      · simp [compiled, made, RouteSession.apply, succeeded, RouteSession.fail] at fine
      simp only [compiled, made, RouteSession.apply, if_pos succeeded, List.isEmpty_nil,
        Bool.true_and] at fine ⊢
      by_cases late : (weather.cancelled || decide (rules.expires ≤ weather.finish)) = true
      · simp only [if_pos late] at fine
        simp [RouteSession.fail] at fine
      simp only [if_neg late, List.isEmpty_nil, if_true]
      exact ⟨_, rfl, ⟨rules.install, lastApplied_snoc [] _ rules.install (Or.inl rfl) succeeded,
        written, positive⟩, nonempty, expires⟩

/-! ## Bounded bindings -/

/-- Bindings that expire at a bound or earlier. -/
def boundedBy (bound : Int) (bindings : List Binding) : List Binding :=
  bindings.map fun binding => { binding with expires := min bound binding.expires }

/-- Bindings are bounded one by one. -/
theorem constrain_some {bound : Int} {remaining : List Bytes}
    {bindings bounded : List Binding}
    (constrained : authority.constrain bound now remaining bindings = some bounded) :
    bounded = boundedBy bound bindings := by
  induction bindings generalizing remaining bounded with
  | nil => simpa [Authority.constrain, boundedBy] using constrained.symm
  | cons binding rest step =>
    unfold Authority.constrain at constrained
    split at constrained
    · obtain ⟨_, found, rfl⟩ := Option.map_eq_some_iff.1 constrained
      rw [step found]
      rfl
    · simp at constrained

/-- Bindings that an authority has bounded. -/
theorem constrainBindings_ok {next : Authority} {bindings bounded : List Binding}
    (answer : authority.constrainBindings bindings now = (next, .ok bounded)) :
    next = authority ∧ authority.withdrawn = false ∧ authority.seen = true ∧
      bounded = boundedBy authority.expires bindings := by
  unfold Authority.constrainBindings at answer
  split at answer
  · simp at answer
  next other bound given =>
  obtain ⟨rfl, live, seen, _, rfl⟩ := authority.deadline_ok now other bound given
  split at answer
  · simp at answer
  split at answer
  · simp at answer
  next limited constrained =>
  simp only [Prod.mk.injEq, Except.ok.injEq] at answer
  obtain ⟨rfl, rfl⟩ := answer
  exact ⟨rfl, live, seen, constrain_some constrained⟩

/-- The deadline of bounded bindings is within the authority and within every binding. -/
theorem bounded_deadline (bound : Int) (bindings : List Binding) (nonempty : bindings ≠ []) :
    bindingDeadline (boundedBy bound bindings) ≤ bound ∧
      ∀ binding ∈ bindings, bindingDeadline (boundedBy bound bindings) ≤ binding.expires := by
  have each (binding : Binding) (member : binding ∈ bindings) :
      bindingDeadline (boundedBy bound bindings) ≤ min bound binding.expires :=
    bindingDeadline_le _ { binding with expires := min bound binding.expires }
      (List.mem_map_of_mem member)
  obtain ⟨first, member⟩ := List.exists_mem_of_ne_nil bindings nonempty
  constructor
  · have least := each first member
    omega
  · intro binding inside
    have least := each binding inside
    omega

/-! ## The supervisor -/

/-- The session of a supervisor has the firewall that was installed last. -/
structure Held (route : AuthorityRoute) (session : RouteSession) : Prop where
  applied : Applied session
  installed : session.rules.expires = route.installed
  nonempty : route.bindings ≠ []

/-- What a withdrawal needs. -/
structure Owned (route : AuthorityRoute) : Prop where
  reached : ∀ session, route.route = some session → ∃ job, SessionReached job session
  closed : route.closed = if route.withdrawn then 1 else 0
  ended : route.withdrawn = true → route.authority.withdrawn = true

/-- What holds between the steps. -/
structure Guarded (route : AuthorityRoute) : Prop where
  owned : Owned route
  granted : route.withdrawn = false → route.authority.withdrawn = false
  held : route.withdrawn = false → ∀ session, route.route = some session →
    Held route session ∧ route.authority.seen = true ∧
      route.installed ≤ route.authority.expires ∧
      ∀ binding ∈ route.bindings, route.installed ≤ binding.expires
  ended : route.withdrawn = true → ∀ session, route.route = some session →
    session.withdrawn = true

/-- A supervisor that was withdrawn together with its authority and its session. -/
theorem Guarded.of_withdrawn {route : AuthorityRoute} (withdrawn : route.withdrawn = true)
    (closed : route.closed = 1) (gone : route.authority.withdrawn = true)
    (ended : ∀ session, route.route = some session →
      (∃ job, SessionReached job session) ∧ session.withdrawn = true) : Guarded route where
  owned := ⟨fun session found => (ended session found).1, by rw [closed, if_pos withdrawn],
    fun _ => gone⟩
  granted live := by simp [withdrawn] at live
  held live := by simp [withdrawn] at live
  ended _ session found := (ended session found).2

/-- A live supervisor whose session closes at the deadline of the bounded bindings. -/
theorem Guarded.of_live {route : AuthorityRoute} (owned : Owned route)
    (live : route.withdrawn = false) (granted : route.authority.withdrawn = false)
    (seen : route.authority.seen = true) (nonempty : route.bindings ≠ [])
    (installed : route.installed =
      bindingDeadline (boundedBy route.authority.expires route.bindings))
    (applied : ∀ session, route.route = some session →
      Applied session ∧ session.rules.expires = route.installed) : Guarded route where
  owned := owned
  granted _ := granted
  held _ session found := by
    obtain ⟨applied, expires⟩ := applied session found
    have limits := bounded_deadline route.authority.expires route.bindings nonempty
    rw [← installed] at limits
    exact ⟨⟨applied, expires, nonempty⟩, seen, limits⟩
  ended withdrawn := by simp [live] at withdrawn

/-- A withdrawal ends everything. -/
theorem Owned.withdrawLocked {route : AuthorityRoute} (owned : Owned route) (reason : List Failure)
    (weather : EndWeather) : Guarded (route.withdrawLocked reason weather).1 ∧
      (route.withdrawLocked reason weather).1.withdrawn = true := by
  obtain ⟨marked, same, withdrawn, closed, gone⟩ : ∃ marked : AuthorityRoute,
      marked = (if route.withdrawn then route else
        { route with
          withdrawn := true
          controlUpdates := []
          authority := route.authority.withdraw
          closed := route.closed + 1 }) ∧ marked.withdrawn = true ∧ marked.closed = 1 ∧
      marked.authority.withdrawn = true := by
    by_cases withdrawn : route.withdrawn = true
    · refine ⟨route, by rw [if_pos withdrawn], withdrawn, ?_, owned.ended withdrawn⟩
      rw [owned.closed, if_pos withdrawn]
    · refine ⟨_, by rw [if_neg withdrawn], rfl, ?_, rfl⟩
      show route.closed + 1 = 1
      rw [owned.closed, if_neg withdrawn]
  have session : marked.route = route.route := by
    rw [same]
    split <;> rfl
  unfold AuthorityRoute.withdrawLocked
  rw [← same]
  dsimp only
  cases present : marked.route with
  | none => exact ⟨.of_withdrawn withdrawn closed gone (by simp [present]), withdrawn⟩
  | some known =>
    obtain ⟨job, reached⟩ := owned.reached known (by rw [← session, present])
    have later := elapse_reached weather.outside reached
    refine ⟨.of_withdrawn withdrawn closed gone fun session found => ?_, withdrawn⟩
    obtain rfl := Option.some.inj found
    exact ⟨⟨job, later.step _ (.withdraw weather.teardown)⟩, withdraw_withdrawn later
      weather.teardown⟩

/-- An outcome that keeps the supervisor guarded, withdrawn after an error. -/
def Sound (result : AuthorityRoute × List Failure) : Prop :=
  Guarded result.1 ∧ (result.2 ≠ [] → result.1.withdrawn = true)

theorem Owned.failed {route : AuthorityRoute} (owned : Owned route) (reason : List Failure)
    (weather : EndWeather) : Sound (route.withdrawLocked reason weather) :=
  have ⟨guarded, withdrawn⟩ := owned.withdrawLocked reason weather
  ⟨guarded, fun _ => withdrawn⟩

/-- A session, if there is one, that some run leads to. -/
def Reachable (session : Option RouteSession) : Prop :=
  ∀ known, session = some known → ∃ job, SessionReached job known

theorem SessionReached.reachable {session : RouteSession} (reached : SessionReached job session) :
    Reachable (some session) := by
  rintro known ⟨⟩
  exact ⟨job, reached⟩

/-- A supervisor whose authority or session is replaced is still one that can be withdrawn. -/
theorem Owned.replace {route : AuthorityRoute} (owned : Owned route)
    (kept : Unwidened route.authority authority) {session : Option RouteSession}
    (reached : Reachable session) :
    Owned { route with authority := authority, route := session } :=
  ⟨reached, owned.closed, fun withdrawn => kept.ended (owned.ended withdrawn)⟩

/-! ## What the operations do -/

/-- How an operation on the session ends: there is a reason to withdraw, or there is a session that
closes at the deadline of the bounded bindings, or there has been none. -/
inductive Concludes (route : AuthorityRoute) : AuthorityRoute × List Failure → Prop where
  | failed (authority : Authority) (session : Option RouteSession) (reason : List Failure)
    (weather : EndWeather) (given : reason ≠ []) (kept : Unwidened route.authority authority)
    (reached : Reachable route.route → Reachable session) :
    Concludes route
      ({ route with authority := authority, route := session }.withdrawLocked reason weather)
  | renewed (session : RouteSession) (bindings : List Binding) (installed : Int)
    (granted : route.authority.withdrawn = false) (seen : route.authority.seen = true)
    (reached : Reachable route.route → Reachable (some session))
    (applied : (∀ known, route.route = some known → Held route known) → bindings ≠ [] ∧
      installed = bindingDeadline (boundedBy route.authority.expires bindings) ∧
      Applied session ∧ session.rules.expires = installed) :
    Concludes route
      ({ route with route := some session, bindings := bindings, installed := installed }, [])
  | idle (alone : route.route = none) (granted : route.authority.withdrawn = false) :
    Concludes route (route, [])

section

variable {route : AuthorityRoute}

theorem renewSession_concludes {before session : RouteSession} (present : route.route = some before)
    (ends : OnlyEnds before session)
    (reaches : ∀ job, SessionReached job before → SessionReached job session)
    (granted : route.authority.withdrawn = false) (seen : route.authority.seen = true)
    (bindings : List Binding) (dnsRefresh : Bool)
    (same : dnsRefresh = false → bindings = route.bindings) (weather : RenewWeather) :
    Concludes route ({ route with route := some session }.renewSession session bindings
      (boundedBy route.authority.expires bindings) dnsRefresh weather) := by
  have kept : (if dnsRefresh then bindings else route.bindings) = bindings := by
    by_cases fresh : dnsRefresh = true
    · rw [if_pos fresh]
    · rw [if_neg fresh, same (by simpa using fresh)]
  have later {next : RouteSession}
      (moves : ∀ job, SessionReached job session → SessionReached job next)
      (reachable : Reachable route.route) : Reachable (some next) := by
    obtain ⟨job, reached⟩ := reachable before present
    exact (moves job (reaches job reached)).reachable
  unfold AuthorityRoute.renewSession
  simp only [kept]
  generalize limits : boundedBy route.authority.expires bindings = bounded
  by_cases renew : (dnsRefresh || bindingDeadline bounded != route.installed) = true
  · rw [if_pos renew]
    have reached := later fun job past => (elapse_reached weather.beforeRefresh past).step _
      (.refresh bounded false weather.refresh)
    by_cases fine :
        ((elapse session weather.beforeRefresh).refresh bounded false weather.refresh).2 = []
    swap
    · rw [if_pos (by simpa using fine)]
      exact .failed route.authority _ _ weather.ending fine (.refl _) reached
    rw [if_neg (by simp [fine])]
    obtain ⟨applied, nonempty, expires⟩ := refresh_applied _ bounded false weather.refresh fine
    subst limits
    exact .renewed _ bindings _ granted seen reached fun _ =>
      ⟨mt List.map_eq_nil_iff.2 nonempty, rfl, applied, expires⟩
  · rw [if_neg renew]
    simp only [Bool.or_eq_true, bne_iff_ne, ne_eq, not_or, not_not, Bool.not_eq_true] at renew
    subst limits
    refine .renewed session bindings route.installed granted seen (later fun _ => id)
      fun known => ?_
    have held := known before present
    refine ⟨?_, renew.2.symm, ends.keeps held.applied, ?_⟩
    · rw [same renew.1]
      exact held.nonempty
    · rw [ends.rules]
      exact held.installed

theorem refreshLocked_concludes (bindings : List Binding) (dnsRefresh : Bool)
    (same : dnsRefresh = false → bindings = route.bindings) (weather : RenewWeather) :
    Concludes route (route.refreshLocked bindings dnsRefresh weather) := by
  have kept := (route.authority.constrainBindings_remains bindings weather.constrain).kept
  unfold AuthorityRoute.refreshLocked
  by_cases cancelled : weather.cancelled = true
  · rw [if_pos cancelled]
    exact .failed route.authority route.route _ _ (by simp) (.refl _) id
  rw [if_neg cancelled]
  cases answer : route.authority.constrainBindings bindings weather.constrain with
  | mk authority result =>
    rw [answer] at kept
    cases result with
    | error => exact .failed authority route.route _ _ (by simp) kept id
    | ok =>
      obtain ⟨rfl, granted, seen, rfl⟩ := constrainBindings_ok answer
      dsimp only
      cases present : route.route with
      | none => exact .failed route.authority none _ _ (by simp) kept fun _ => nofun
      | some session =>
        have reaches (job : Bytes) := @elapse_reached job session weather.beforeDNS
        dsimp only
        cases (elapse session weather.beforeDNS).dns weather.dnsCancelled weather.dnsNow with
        | error =>
          refine .failed route.authority _ _ _ (by simp) kept fun reachable => ?_
          obtain ⟨job, reached⟩ := reachable session present
          exact (reaches job reached).reachable
        | ok =>
          exact renewSession_concludes present (elapse_ends session weather.beforeDNS) reaches
            granted seen bindings dnsRefresh same weather

theorem start_concludes (bindings : List Binding) (weather : InstallWeather) :
    Concludes route (route.start bindings weather) := by
  have kept := (route.authority.constrainBindings_remains bindings weather.constrain).kept
  unfold AuthorityRoute.start
  split
  · exact .failed route.authority route.route _ _ (by simp) (.refl _) id
  cases answer : route.authority.constrainBindings bindings weather.constrain with
  | mk authority result =>
    rw [answer] at kept
    cases result with
    | error => exact .failed authority route.route _ _ (by simp) kept id
    | ok bounded =>
      obtain ⟨rfl, granted, seen, rfl⟩ := constrainBindings_ok answer
      dsimp only
      generalize limits : boundedBy route.authority.expires bindings = bounded
      have reached : Reachable (startRoute route.authority.lease.jobId bounded weather.start).1 :=
        fun known found => ⟨_, .start bounded weather.start known found⟩
      by_cases fine : (startRoute route.authority.lease.jobId bounded weather.start).2 = []
      swap
      · have failed : (startRoute route.authority.lease.jobId bounded weather.start).2.isEmpty =
            false := by simpa using fine
        simp only [failed, Bool.false_and, Bool.false_eq_true, if_false, Bool.not_false, if_true]
        exact .failed route.authority _ _ _ fine kept fun _ => reached
      simp only [fine, List.isEmpty_nil, Bool.true_and]
      by_cases late : weather.cancelledAfter = true
      · simp only [late, if_true, List.isEmpty_cons, Bool.not_false]
        exact .failed route.authority _ _ _ (by simp) kept fun _ => reached
      simp only [late, Bool.false_eq_true, if_false, List.isEmpty_nil, Bool.not_true]
      obtain ⟨session, started, applied, nonempty, expires⟩ := start_applied _ bounded weather.start
        fine
      rw [started] at reached ⊢
      subst limits
      exact .renewed session bindings _ granted seen (fun _ => reached) fun _ =>
        ⟨mt List.map_eq_nil_iff.2 nonempty, rfl, applied, expires⟩

theorem withdrawLocked_fails {reason : List Failure} (given : reason ≠ []) (weather : EndWeather) :
    (route.withdrawLocked reason weather).2 ≠ [] := by
  unfold AuthorityRoute.withdrawLocked
  dsimp only
  generalize (if route.withdrawn then route else _ : AuthorityRoute) = marked
  cases marked.route with
  | none | some => simp [given]

/-- An operation without errors withdraws nothing. -/
theorem Concludes.live (concluded : Concludes route result)
    (fine : result.2 = []) : result.1.withdrawn = route.withdrawn := by
  cases concluded with
  | failed authority session reason weather given =>
    exact absurd fine (withdrawLocked_fails given weather)
  | renewed | idle => rfl

/-- The operation keeps the supervisor guarded. -/
theorem Concludes.sound (concluded : Concludes route result)
    (owned : Owned route)
    (held : route.withdrawn = false → ∀ session, route.route = some session → Held route session) :
    Sound result := by
  have live (granted : route.authority.withdrawn = false) : route.withdrawn = false := by
    by_contra withdrawn
    simp [owned.ended (by simpa using withdrawn)] at granted
  cases concluded with
  | failed authority session reason weather given kept reached =>
    exact (owned.replace kept (reached owned.reached)).failed reason weather
  | renewed session bindings installed granted seen reached applied =>
    obtain ⟨nonempty, deadline, applied, expires⟩ := applied (held (live granted))
    have owned' := owned.replace (.refl route.authority) (reached owned.reached)
    refine ⟨.of_live ⟨owned'.reached, owned.closed, owned.ended⟩ (live granted) granted
      seen nonempty deadline fun known found => ?_, fun failed => absurd rfl failed⟩
    obtain rfl := Option.some.inj found
    exact ⟨applied, expires⟩
  | idle alone granted =>
    exact ⟨⟨owned, fun _ => granted, fun _ session found => by simp [alone] at found,
      fun withdrawn => by simp [live granted] at withdrawn⟩, fun failed => absurd rfl failed⟩

theorem Guarded.sound (guarded : Guarded route)
    (concluded : Concludes route result) : Sound result :=
  concluded.sound guarded.owned fun live session found => (guarded.held live session found).1

/-- How a reconciliation ends: the supervisor has been withdrawn before, or it is now, or the
reconciliation is recorded. -/
inductive Settled (library : UpdateLibrary) (route : AuthorityRoute)
    (value : Option LeaseReconciliation) (features : List Int) (credentialExpiry now : Int) :
    AuthorityRoute × List Failure → Prop where
  | gone (authority : Authority) (failures : List Failure)
    (kept : Unwidened route.authority authority)
    (withdrawn : route.withdrawn = true) :
    Settled library route value features credentialExpiry now
      ({ route with authority := authority }, failures)
  | ended (result : AuthorityRoute × List Failure) (concluded : Concludes route result) :
    Settled library route value features credentialExpiry now result
  | recorded (authority : Authority) (result : AuthorityRoute × List Failure)
    (live : route.withdrawn = false)
    (reconciled : (route.authority.reconcile value features credentialExpiry now).1 = authority)
    (granted : authority.withdrawn = false) (seen : authority.seen = true)
    (ahead : now < authority.expires)
    (concluded : Concludes { route with authority := authority } result) (fine : result.2 = []) :
    Settled library route value features credentialExpiry now
      (result.1.recordControlUpdate library value features credentialExpiry, [])

theorem reconcile_settled (library : UpdateLibrary) (value : Option LeaseReconciliation)
    (features : List Int) (credentialExpiry : Int) (weather : ReconcileWeather) :
    Settled library route value features credentialExpiry weather.now
      (route.reconcile library value features credentialExpiry weather) := by
  have kept := route.authority.reconcile_kept value features credentialExpiry weather.now
  unfold AuthorityRoute.reconcile
  cases answer : route.authority.reconcile value features credentialExpiry weather.now with
  | mk authority failure =>
    rw [answer] at kept
    by_cases withdrawn : route.withdrawn = true
    · rw [if_pos withdrawn]
      cases failure <;> exact .gone authority _ kept withdrawn
    rw [if_neg withdrawn]
    by_cases cancelled : weather.cancelled = true
    · rw [if_pos cancelled]
      exact .ended _ (.failed route.authority route.route _ _ (by simp) (.refl _) id)
    rw [if_neg cancelled]
    cases failure with
    | some => exact .ended _ (.failed authority route.route _ _ (by simp) kept id)
    | none =>
      have dated := (authority.deadline_remains weather.now).kept
      dsimp only
      cases given : authority.deadline weather.now with
      | mk current result =>
        rw [given] at dated
        cases result with
        | error =>
          exact .ended _ (.failed current route.route _ _ (by simp)
            ⟨dated.policy.trans kept.policy, dated.ended ∘ kept.ended⟩ id)
        | ok time =>
          obtain ⟨rfl, granted, seen, ahead, _⟩ :=
            authority.deadline_ok weather.now current time given
          have concluded : Concludes { route with authority := current }
              (if route.route.isSome then { route with authority := current }.refreshLocked
                route.bindings false weather.renew else
                  ({ route with authority := current }, [])) := by
            split
            · exact @refreshLocked_concludes { route with authority := current }
                route.bindings false
                (fun _ => rfl) weather.renew
            · next alone => exact .idle (by simpa using alone) granted
          dsimp only
          generalize (if route.route.isSome then _ else _ : AuthorityRoute × List Failure) = result
            at concluded ⊢
          by_cases fine : result.2 = []
          · rw [if_neg (by simp [fine])]
            exact .recorded current result (by simpa using withdrawn) (by rw [answer]) granted seen
              ahead concluded fine
          · rw [if_pos (by simpa using fine)]
            cases concluded with
            | failed other session reason weather reasoned lasting reached =>
              exact .ended _ (.failed other session reason weather reasoned
                ⟨lasting.policy.trans kept.policy, lasting.ended ∘ kept.ended⟩ reached)
            | renewed | idle => exact absurd rfl fine

/-- A watcher withdraws everything or nothing. -/
def Watched (route next : AuthorityRoute) : Prop :=
  next = route ∨ ∃ authority reason weather, Unwidened route.authority authority ∧
    next = ({ route with authority := authority }.withdrawLocked reason weather).1

theorem watch_watched (now : Int) (weather : EndWeather) :
    Watched route (route.watch now weather) := by
  have kept := (route.authority.deadline_remains now).kept
  unfold AuthorityRoute.watch
  split
  · exact Or.inl rfl
  split
  · next authority time given =>
    obtain ⟨rfl, _⟩ := route.authority.deadline_ok now authority time given
    exact Or.inl rfl
  · next authority failure given =>
    rw [given] at kept
    exact Or.inr ⟨authority, _, _, kept, rfl⟩

theorem watchWoken_watched (now : Int) (cancelled ended : Bool) (weather : EndWeather) :
    Watched route (route.watchWoken now cancelled ended weather) := by
  have kept := (route.authority.deadline_remains now).kept
  unfold AuthorityRoute.watchWoken
  split
  · next authority failure given =>
    rw [given] at kept
    exact Or.inr ⟨authority, _, _, kept, rfl⟩
  · next authority time given =>
    obtain ⟨rfl, _⟩ := route.authority.deadline_ok now authority time given
    dsimp only
    split
    · exact Or.inr ⟨route.authority, _, _, .refl _, rfl⟩
    · exact Or.inl rfl

section

variable (guarded : Guarded route) (library : UpdateLibrary) (value : Option LeaseReconciliation)
  (features : List Int) (credentialExpiry : Int)
include guarded

/-- What is kept for the root supervisor says nothing about the route. -/
theorem Guarded.record :
    Guarded (route.recordControlUpdate library value features credentialExpiry) := by
  have keep (updates : List ControlUpdate) (sequence : Nat) (checked : Int) (unavailable : Bool) :
      Guarded { route with
        controlUpdates := updates
        controlSequence := sequence
        controlChecked := checked
        controlUnavailable := unavailable } :=
    ⟨⟨guarded.owned.reached, guarded.owned.closed, guarded.owned.ended⟩, guarded.granted,
      fun live session found =>
        have ⟨held, rest⟩ := guarded.held live session found
        ⟨⟨held.applied, held.installed, held.nonempty⟩, rest⟩, guarded.ended⟩
  unfold AuthorityRoute.recordControlUpdate
  dsimp only
  split
  · exact guarded
  split
  · exact guarded
  split
  · exact keep _ _ _ _
  split
  · exact keep _ _ _ _
  · exact keep _ _ _ _

theorem Guarded.reconcile (weather : ReconcileWeather) :
    Sound (route.reconcile library value features credentialExpiry weather) := by
  have settled := @reconcile_settled route library value features credentialExpiry weather
  generalize route.reconcile library value features credentialExpiry weather = result at settled ⊢
  cases settled with
  | gone authority failures kept withdrawn =>
    -- A withdrawn authority stays withdrawn.
    have closed : route.closed = 1 := by rw [guarded.owned.closed, if_pos withdrawn]
    refine ⟨.of_withdrawn withdrawn closed (kept.ended (guarded.owned.ended withdrawn)) ?_,
      fun _ => withdrawn⟩
    exact fun session found =>
      ⟨guarded.owned.reached session found, guarded.ended withdrawn session found⟩
  | ended _ concluded => exact guarded.sound concluded
  | recorded authority result live reconciled granted seen ahead concluded =>
    have kept := route.authority.reconcile_kept value features credentialExpiry weather.now
    rw [reconciled] at kept
    have sound := concluded.sound (guarded.owned.replace kept guarded.owned.reached)
      fun live session found =>
        have held := (guarded.held live session found).1
        ⟨held.applied, held.installed, held.nonempty⟩
    exact ⟨sound.1.record library value features credentialExpiry, fun failed => absurd rfl failed⟩

end

section

variable (guarded : Guarded route)
include guarded

theorem Guarded.refreshDNS (bindings : List Binding) (weather : RenewWeather) :
    Sound (route.refreshDNS bindings weather) := by
  unfold AuthorityRoute.refreshDNS
  split
  · exact guarded.owned.failed _ _
  · exact guarded.sound (refreshLocked_concludes bindings true nofun weather)

theorem Guarded.close (weather : EndWeather) (before : List OutsideStep) (teardown : Teardown)
    (remove : CallOutcome) : Sound (route.close weather before teardown remove) := by
  obtain ⟨next, withdrawn⟩ := guarded.owned.withdrawLocked [] weather
  unfold AuthorityRoute.close
  generalize (route.withdrawLocked [] weather).1 = ended at *
  dsimp only
  cases present : ended.route with
  | none => exact ⟨next, fun _ => withdrawn⟩
  | some session =>
    obtain ⟨job, reached⟩ := next.owned.reached session present
    have closed : ended.closed = 1 := by rw [next.owned.closed, if_pos withdrawn]
    have gone := (elapse_ends session before).withdrawn (next.ended withdrawn session present)
    refine ⟨.of_withdrawn withdrawn closed (next.owned.ended withdrawn) fun known found => ?_,
      fun _ => withdrawn⟩
    obtain rfl := Option.some.inj found
    exact ⟨⟨job, (elapse_reached before reached).step _ (.close teardown remove)⟩,
      close_withdrawn gone teardown remove⟩

theorem Guarded.watched {next : AuthorityRoute} (watched : Watched route next) : Guarded next := by
  rcases watched with rfl | ⟨_, reason, weather, kept, rfl⟩
  · exact guarded
  · exact ((guarded.owned.replace kept guarded.owned.reached).withdrawLocked reason weather).1

/-- Every step keeps the supervisor guarded. -/
theorem Guarded.step (library : UpdateLibrary) (step : RouteStep) :
    Sound (step.perform library route) := by
  have quiet {next : AuthorityRoute} (guarded : Guarded next) : Sound (next, []) :=
    ⟨guarded, fun failed => absurd rfl failed⟩
  cases step with
  | reconcile value features credentialExpiry weather =>
    exact guarded.reconcile library value features credentialExpiry weather
  | start bindings weather => exact guarded.sound (start_concludes bindings weather)
  | refreshDNS bindings weather => exact guarded.refreshDNS bindings weather
  | withdraw weather => exact guarded.owned.failed [] weather
  | close weather before teardown remove => exact guarded.close weather before teardown remove
  | watch now weather => exact quiet (guarded.watched (watch_watched now weather))
  | watchWoken now cancelled ended weather =>
    exact quiet (guarded.watched (watchWoken_watched now cancelled ended weather))
  | outside step =>
    apply quiet
    have found (session : RouteSession)
        (known : (route.route.map fun session => step.perform session) = some session) :
        ∃ before, route.route = some before ∧ session = step.perform before := by
      obtain ⟨before, present, rfl⟩ := Option.map_eq_some_iff.1 known
      exact ⟨before, present, rfl⟩
    refine ⟨⟨fun session known => ?_, guarded.owned.closed, guarded.owned.ended⟩, guarded.granted,
      fun live session known => ?_, fun withdrawn session known => ?_⟩
    · obtain ⟨before, present, rfl⟩ := found session known
      obtain ⟨job, reached⟩ := guarded.owned.reached before present
      exact ⟨job, step.reached reached⟩
    · obtain ⟨before, present, rfl⟩ := found session known
      obtain ⟨held, rest⟩ := guarded.held live before present
      have ends := step.ends before
      exact ⟨⟨ends.keeps held.applied, by rw [ends.rules]; exact held.installed, held.nonempty⟩,
        rest⟩
    · obtain ⟨before, present, rfl⟩ := found session known
      exact (step.ends before).withdrawn (guarded.ended withdrawn before present)

end

end

/-- A new supervisor is guarded. -/
theorem newAuthorityRoute_guarded (wire : WireLibrary) (job : Option JobSpecification)
    (usable : Bool) (begun : AuthorityRoute)
    (made : newAuthorityRoute wire job usable = .ok begun) :
    Guarded begun := by
  unfold newAuthorityRoute at made
  split at made
  · simp at made
  split at made
  · simp at made
  next authority admitted =>
  split at made
  · simp at made
  simp only [Except.ok.injEq] at made
  subst made
  exact ⟨⟨fun session found => by simp at found, rfl, fun withdrawn => by simp at withdrawn⟩,
    fun _ => (newAuthority_unseen wire job authority admitted).2,
    fun _ session found => by simp at found, fun withdrawn => by simp at withdrawn⟩

theorem RouteReached.guarded {library : UpdateLibrary} {begun route : AuthorityRoute}
    (reached : RouteReached library begun route) (first : Guarded begun) : Guarded route := by
  induction reached with
  | begin => exact first
  | step route step past guarded => exact (guarded.step library step).1

/-! ## Every execution -/

/-- An installed route does not outlive its authority. -/
structure WithinAuthority (route : AuthorityRoute) : Prop where
  bounded : route.withdrawn = false → ∀ session, route.route = some session →
    ∃ program deadline, lastApplied session.calls = some program ∧
      writtenDeadline program = some deadline ∧
      ofUnixSeconds deadline ≤ route.authority.expires ∧
      ∀ binding ∈ route.bindings, ofUnixSeconds deadline ≤ binding.expires
  current : route.withdrawn = false → route.authority.withdrawn = false ∧
    (route.route.isSome = true → route.authority.seen = true)
  ended : route.withdrawn = true → route.authority.withdrawn = true ∧
    ∀ session, route.route = some session → session.withdrawn = true
  closed : route.closed = if route.withdrawn then 1 else 0

theorem Guarded.within {route : AuthorityRoute} (guarded : Guarded route) :
    WithinAuthority route where
  bounded live session found := by
    obtain ⟨held, _, within, each⟩ := guarded.held live session found
    obtain ⟨program, last, written, positive⟩ := held.applied
    refine ⟨program, _, last, written, ?_⟩
    have expires : ofUnixSeconds (unixSeconds session.rules.expires).toNat ≤ route.installed := by
      rw [Int.toNat_of_nonneg (by omega), ← held.installed]
      exact ofUnixSeconds_unixSeconds_le _
    exact ⟨Int.le_trans expires within,
      fun binding member => Int.le_trans expires (each binding member)⟩
  current live := by
    refine ⟨guarded.granted live, fun present => ?_⟩
    obtain ⟨session, found⟩ := Option.isSome_iff_exists.1 present
    exact (guarded.held live session found).2.1
  ended withdrawn := ⟨guarded.owned.ended withdrawn, guarded.ended withdrawn⟩
  closed := guarded.owned.closed

/-- In every execution of a supervisor, with any answers of the actuator, the route is within its
authority after every step, and a step that returns an error leaves everything withdrawn.

Proof: `Guarded` holds at the start and after every step. -/
theorem routes_within_authority (wire : WireLibrary) (job : Option JobSpecification) (usable : Bool)
    (library : UpdateLibrary) (begun route : AuthorityRoute)
    (made : newAuthorityRoute wire job usable = .ok begun)
    (reached : RouteReached library begun route) :
    WithinAuthority route ∧ ∀ step : RouteStep, (step.perform library route).2 ≠ [] →
      (step.perform library route).1.withdrawn = true ∧
        WithinAuthority (step.perform library route).1 := by
  have guarded := reached.guarded (newAuthorityRoute_guarded wire job usable begun made)
  refine ⟨guarded.within, fun step failed => ?_⟩
  obtain ⟨next, withdrawn⟩ := guarded.step library step
  exact ⟨withdrawn failed, next.within⟩

/-! ## Samples -/

def sampleEnd : EndWeather := ⟨[], ⟨.succeeded, .succeeded⟩⟩

def sampleRenew : RenewWeather where
  cancelled := false
  constrain := ofUnixSeconds 1003
  beforeDNS := []
  dnsCancelled := false
  dnsNow := ofUnixSeconds 1003
  beforeRefresh := []
  refresh := ⟨false, ofUnixSeconds 1003, .succeeded, false, ofUnixSeconds 1004,
    ⟨.succeeded, .succeeded⟩⟩
  ending := sampleEnd

/-- The first observation. -/
def sampleObserve : RouteStep :=
  .reconcile (some (sampleReconciliation 1000 1030)) sampleFeatures (ofUnixSeconds 2000)
    ⟨false, ofUnixSeconds 1001, sampleRenew, sampleEnd⟩

/-- The route of one host. -/
def sampleInstall : RouteStep :=
  .start [sampleBinding] ⟨false, ofUnixSeconds 1001, sampleStart, false, sampleEnd⟩

def sampleSupervisor : AuthorityRoute where
  authority := sampleAuthority
  route := none
  bindings := []
  installed := 0
  withdrawn := false
  closed := 0
  cleanup := []
  controlUpdates := []
  controlSequence := 0
  controlChecked := 0
  controlUnavailable := false

theorem sample_supervised : newAuthorityRoute sampleWire (some sampleJob) true =
    .ok sampleSupervisor := by
  decide +kernel

/-- A route that has been installed under an authority. -/
theorem routes_within_authority_installed :
    ∃ route session, RouteReached sampleLibrary sampleSupervisor route ∧
      route.withdrawn = false ∧ route.route = some session ∧ WithinAuthority route := by
  have reached : RouteReached sampleLibrary sampleSupervisor _ :=
    (RouteReached.begin.step _ sampleObserve).step _ sampleInstall
  have live : (sampleInstall.perform sampleLibrary
      (sampleObserve.perform sampleLibrary sampleSupervisor).1).1.withdrawn = false := by
    decide +kernel
  have present : (sampleInstall.perform sampleLibrary
      (sampleObserve.perform sampleLibrary sampleSupervisor).1).1.route.isSome = true := by
    decide +kernel
  obtain ⟨session, found⟩ := Option.isSome_iff_exists.1 present
  exact ⟨_, session, reached, live, found,
    (routes_within_authority sampleWire (some sampleJob) true sampleLibrary _ _ sample_supervised
      reached).1⟩

end ProvenanceRunner.Network
