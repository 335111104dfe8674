import ProvenanceRunner.Execution.Executor

/-! # Execution under a network authority

The supervisor runs a worker while a monitor watches the authority of the job and the caller's
context. Worker, monitor, caller and authority take their steps in any order; the supervisor looks
at the cause of the worker's context, at the authority and at the caller one after the other, and
closes the guard last. -/

namespace ProvenanceRunner.Execution

variable {Output : Type}

/-! ## The supervisor -/

/-- Why the context of the worker was cancelled. -/
inductive Cause where
  | none
  | lost
  | caller
deriving DecidableEq, Repr

/-- Only the first cause counts. -/
def Cause.cancel : Cause → Cause → Cause
  | .none, cause => cause
  | first, _ => first

/-- How far the supervisor is. The last stage has what closing the guard returned. -/
inductive Stage (Output : Type) where
  | entering
  | running
  | finished (result : Result Output)
  | compared (result : Result Output) (lost : Bool)
  | looked (result : Result Output) (lost ended : Bool)
  | decided (result : Result Output)
  | closed (result : Result Output) (failed : Bool)
deriving DecidableEq, Repr

/-- The supervisor with its surroundings. `inTime` remembers that the authority had ended and the
caller was not cancelled when the worker returned, `late` that the caller was cancelled when the
supervisor looked at it. -/
structure Guarded (Output : Type) where
  callerCancelled : Bool
  ended : Bool
  cause : Cause
  watching : Bool
  stage : Stage Output
  inTime : Bool
  late : Bool
deriving DecidableEq, Repr

def guardedStart : Guarded Output := ⟨false, false, .none, false, .entering, false, false⟩

def earlyResult : Result Output where
  jobId := ""
  status := .failed
  classification := .infrastructureFailure
  phase := .preparation
  environment := none
  execution := none
  logs := none
  cleanup := none
  failure := some (newFailure .infrastructureFailure "network_authority_lost"
    "network authority unavailable before execution")

def applyNetworkCleanup (result : Result Output) (failed : Bool) : Result Output :=
  if failed then
    { result with
      status := .failed
      classification := .infrastructureFailure
      phase := .cleanup
      failure := some (newFailure .infrastructureFailure "network_cleanup_failed"
        "owned network teardown could not be proven")
      cleanup := some ⟨true, false, 0, "owned network teardown could not be proven"⟩ }
  else result

/-- The result of a worker that lost its authority. A cleanup that failed is not hidden. -/
def applyLoss (result : Result Output) (lost : Bool) : Result Output :=
  if lost && result.cleanup.all (·.succeeded) then
    { result with
      status := .failed
      classification := .infrastructureFailure
      failure := some (newFailure .infrastructureFailure "network_authority_lost"
        "execution stopped after network authority loss") }
  else result

/-- The steps of the supervisor, the monitor, the worker, the caller and the authority. -/
inductive GuardedStep (Output : Type) where
  | callerCancels
  | authorityEnds
  | enter (contextMissing workerMissing guardMissing refused : Bool)
  | monitorLoss
  | monitorCaller
  | monitorFinished
  | workerReturns (result : Result Output)
  | readCause
  | readDone
  | readCaller
  | close (failed : Bool)
deriving DecidableEq, Repr

/-- One step, or `none` where it cannot be taken. -/
def GuardedStep.perform (state : Guarded Output) : GuardedStep Output → Option (Guarded Output)
  | .callerCancels =>
    some { state with callerCancelled := true, cause := state.cause.cancel .caller }
  | .authorityEnds => some { state with ended := true }
  | .enter contextMissing workerMissing guardMissing refused =>
    match state.stage with
    | .entering =>
      if contextMissing || state.callerCancelled || workerMissing || guardMissing then
        if guardMissing then some { state with stage := .closed earlyResult false }
        else some { state with stage := .decided earlyResult }
      else if refused then some { state with stage := .decided earlyResult }
      else some { state with stage := .running, watching := true }
    | _ => none
  | .monitorLoss =>
    if state.watching && state.ended then
      some { state with watching := false, cause := state.cause.cancel .lost }
    else none
  | .monitorCaller =>
    if state.watching && state.callerCancelled then
      -- The route is withdrawn, which ends the authority.
      some { state with watching := false, ended := true }
    else none
  | .monitorFinished =>
    match state.stage with
    | .finished _ => if state.watching then some { state with watching := false } else none
    | _ => none
  | .workerReturns result =>
    match state.stage with
    | .running =>
      some { state with
        stage := .finished result, inTime := state.ended && !state.callerCancelled }
    | _ => none
  | .readCause =>
    match state.stage with
    | .finished result =>
      if state.watching then none
      else some { state with stage := .compared result (state.cause == .lost) }
    | _ => none
  | .readDone =>
    match state.stage with
    | .compared result lost => some { state with stage := .looked result lost state.ended }
    | _ => none
  | .readCaller =>
    match state.stage with
    | .looked result lost ended =>
      some { state with
        stage := .decided (applyLoss result (lost || (ended && !state.callerCancelled)))
        late := state.callerCancelled }
    | _ => none
  | .close failed =>
    match state.stage with
    | .decided result =>
      some { state with stage := .closed (applyNetworkCleanup result failed) failed }
    | _ => none

/-- The states that are reached when the worker is the executor. -/
inductive GuardedReached : Guarded Output → Prop where
  | begin : GuardedReached guardedStart
  | step (state next : Guarded Output) (step : GuardedStep Output)
    (executed : ∀ result, step = .workerReturns result →
      ∃ options job behaviour, result = (execute options job behaviour).1)
    (performed : step.perform state = some next) (past : GuardedReached state) :
    GuardedReached next

/-! ## The guard is not hidden -/

/-- A result that is not taken for a success with a failed cleanup. -/
def Honest (result : Result Output) : Prop :=
  result.cleanup.all (·.succeeded) = false → result.status = .failed

variable (behaviour : Behaviour Output)

/-- A failed cleanup is a failure. -/
theorem cleanupPrepared_honest (milliseconds : Int) {result : Result Output}
    {first : Option (Phase × Failure)} (reports : Reports result first) :
    Honest (finishResult (cleanupPrepared behaviour milliseconds result).1) := by
  have cleaned := (cleanupPrepared_reports behaviour milliseconds reports).finish.1.status
  intro failed
  cases error : behaviour.cleanupError with
  | none =>
    have succeeded : (finishResult (cleanupPrepared behaviour milliseconds result).1).cleanup.all
        (·.succeeded) = true := by
      unfold finishResult cleanupPrepared
      rw [error]
      dsimp only
      split <;> rfl
    rw [succeeded] at failed
    exact nomatch failed
  | some =>
    rw [cleaned, cleanupFailure, error]
    cases first <;> rfl

theorem finishPrepared_honest (options : Options) (job : Job) (behaviour : Behaviour Output)
    {result : Result Output} {first : Option (Phase × Failure)} (reports : Reports result first) :
    Honest (finishPrepared options job behaviour result).1 :=
  cleanupPrepared_honest behaviour (cleanupTimeout options job)
    (collectPrepared_reports behaviour options.collectionTimeout
      (startPrepared_reports job behaviour reports))

theorem setFailure_cleanup (result : Result Output) (phase : Phase) (failure : Option Failure) :
    (setFailure result phase failure).cleanup = result.cleanup := by
  unfold setFailure
  split <;> rfl

theorem finishResult_cleanup (result : Result Output) :
    (finishResult result).cleanup = result.cleanup := by
  unfold finishResult
  split <;> rfl

theorem Honest.of_none {result : Result Output} (absent : result.cleanup = none) :
    Honest result := by
  intro failed
  rw [absent] at failed
  exact nomatch failed

theorem execute_honest (options : Options) (job : Job) (behaviour : Behaviour Output) :
    Honest (execute options job behaviour).1 := by
  have executed := execute_spec options job behaviour
  generalize firstFailure _ = first, execute options job behaviour = ended at executed ⊢
  cases executed with
  | early result phase failure calls reports uncleaned =>
    refine .of_none ?_
    rw [finishResult_cleanup, setFailure_cleanup, uncleaned]
  | finished result first resolution preparation reports =>
    exact finishPrepared_honest options job behaviour reports

/-- What holds of the supervisor at every stage. -/
structure GuardedSound (state : Guarded Output) : Prop where
  honest :
    ∀ result, (state.stage = .finished result ∨ (∃ lost, state.stage = .compared result lost) ∨
    (∃ lost ended, state.stage = .looked result lost ended)) → Honest result
  kept : state.inTime = true → state.ended = true
  early : state.stage = .entering ∨ state.stage = .running → state.inTime = false
  looked : ∀ result lost ended, state.stage = .looked result lost ended →
    state.inTime = true → ended = true
  decided : ∀ result, state.stage = .decided result → state.inTime = true → state.late = false →
    result.status = .failed
  closed : ∀ result failed, state.stage = .closed result failed →
    (state.inTime = true → state.late = false → result.status = .failed) ∧
    (failed = true → result.status = .failed ∧
      ∃ cleanup, result.cleanup = some cleanup ∧ cleanup.succeeded = false)

theorem applyLoss_failed {result : Result Output} (honest : Honest result) :
    (applyLoss result true).status = .failed := by
  unfold applyLoss
  by_cases succeeded : result.cleanup.all (·.succeeded) = true
  · rw [if_pos (by simp [succeeded])]
  · rw [if_neg (by simp [succeeded])]
    exact honest (by simpa using succeeded)

/-- A step that leaves the stage alone and does not take back the end of the authority. -/
theorem GuardedSound.same {state next : Guarded Output} (sound : GuardedSound state)
    (stage : next.stage = state.stage) (inTime : next.inTime = state.inTime)
    (late : next.late = state.late) (ended : state.ended = true → next.ended = true) :
    GuardedSound next := by
  constructor
  · rw [stage]
    exact sound.honest
  · rw [inTime]
    exact fun kept => ended (sound.kept kept)
  · rw [stage, inTime]
    exact sound.early
  · rw [stage, inTime]
    exact sound.looked
  · rw [stage, inTime, late]
    exact sound.decided
  · rw [stage, inTime, late]
    exact sound.closed

/-- What is decided has failed, when the authority ended in time. -/
theorem GuardedSound.decide {state : Guarded Output} (sound : GuardedSound state)
    (result : Result Output) (late : Bool)
    (failed : state.inTime = true → late = false → result.status = .failed) :
    GuardedSound { state with stage := .decided result, late := late } := by
  refine ⟨by simp, sound.kept, by simp, by simp, ?_, by simp⟩
  intro other held
  cases held
  exact failed

theorem GuardedSound.start : GuardedSound (guardedStart : Guarded Output) where
  honest result held := by simp [guardedStart] at held
  kept inTime := nomatch inTime
  early _ := rfl
  looked _ _ _ held := by simp [guardedStart] at held
  decided _ held := by simp [guardedStart] at held
  closed _ _ held := by simp [guardedStart] at held

theorem GuardedSound.step {state next : Guarded Output} (sound : GuardedSound state)
    (step : GuardedStep Output)
    (executed : ∀ result, step = .workerReturns result →
      ∃ options job behaviour, result = (execute options job behaviour).1)
    (performed : step.perform state = some next) : GuardedSound next := by
  cases step with
  | callerCancels =>
    cases performed
    exact sound.same rfl rfl rfl id
  | authorityEnds =>
    cases performed
    exact sound.same rfl rfl rfl (fun _ => rfl)
  | enter =>
    simp only [GuardedStep.perform] at performed
    split at performed
    swap
    · cases performed
    next entering =>
    have fresh : state.inTime = false := sound.early (.inl entering)
    split at performed
    · split at performed
      · cases performed
        refine ⟨by simp, sound.kept, by simp, by simp, by simp, ?_⟩
        intro result failed held
        cases held
        exact ⟨fun _ _ => rfl, nofun⟩
      · cases performed
        exact sound.decide earlyResult state.late fun _ _ => rfl
    split at performed
    · cases performed
      exact sound.decide earlyResult state.late fun _ _ => rfl
    · cases performed
      exact ⟨by simp, sound.kept, fun _ => fresh, by simp, by simp, by simp⟩
  | monitorLoss =>
    simp only [GuardedStep.perform] at performed
    split at performed
    · cases performed
      exact sound.same rfl rfl rfl id
    · cases performed
  | monitorCaller =>
    simp only [GuardedStep.perform] at performed
    split at performed
    · cases performed
      exact sound.same rfl rfl rfl (fun _ => rfl)
    · cases performed
  | monitorFinished =>
    simp only [GuardedStep.perform] at performed
    split at performed
    · split at performed
      · cases performed
        exact sound.same rfl rfl rfl id
      · cases performed
    · cases performed
  | workerReturns result =>
    simp only [GuardedStep.perform] at performed
    split at performed
    swap
    · cases performed
    cases performed
    obtain ⟨options, job, behaviour, rfl⟩ := executed result rfl
    refine ⟨?_, ?_, by simp, by simp, by simp, by simp⟩
    · intro other held
      obtain rfl : (execute options job behaviour).1 = other := by simpa using held
      exact execute_honest options job behaviour
    · intro inTime
      simp only [Bool.and_eq_true] at inTime
      exact inTime.1
  | readCause =>
    simp only [GuardedStep.perform] at performed
    split at performed
    swap
    · cases performed
    next result finished =>
    split at performed
    · cases performed
    cases performed
    refine ⟨?_, sound.kept, by simp, by simp, by simp, by simp⟩
    intro other held
    obtain rfl : result = other := by simpa using held
    exact sound.honest result (.inl finished)
  | readDone =>
    simp only [GuardedStep.perform] at performed
    split at performed
    swap
    · cases performed
    next result lost compared =>
    cases performed
    refine ⟨?_, sound.kept, by simp, ?_, by simp, by simp⟩
    · intro other held
      obtain rfl : result = other := by simpa using held
      exact sound.honest result (.inr (.inl ⟨lost, compared⟩))
    · intro other lost' ended held inTime
      simp only [Stage.looked.injEq] at held
      rw [← held.2.2]
      exact sound.kept inTime
  | readCaller =>
    simp only [GuardedStep.perform] at performed
    split at performed
    swap
    · cases performed
    next result lost ended looked =>
    cases performed
    refine sound.decide _ state.callerCancelled fun inTime present => ?_
    have seen : ended = true := sound.looked result lost ended looked inTime
    rw [seen, present, Bool.not_false, Bool.and_true, Bool.or_true]
    exact applyLoss_failed (sound.honest result (.inr (.inr ⟨lost, ended, looked⟩)))
  | close failed =>
    simp only [GuardedStep.perform] at performed
    split at performed
    swap
    · cases performed
    next result decided =>
    cases performed
    refine ⟨by simp, sound.kept, by simp, by simp, by simp, ?_⟩
    intro other outcome held
    simp only [Stage.closed.injEq] at held
    obtain ⟨rfl, rfl⟩ := held
    unfold applyNetworkCleanup
    cases failed with
    | true => exact ⟨fun _ _ => rfl, fun _ => ⟨rfl, _, rfl, rfl⟩⟩
    | false => exact ⟨sound.decided result decided, nofun⟩

theorem GuardedReached.sound {state : Guarded Output} (reached : GuardedReached state) :
    GuardedSound state := by
  induction reached with
  | begin => exact .start
  | step state next step executed performed past sound => exact sound.step step executed performed

/-! ## The protocol -/

/-- No phase returned an error or a failure, and no check observed a context failure. -/
def Untroubled (job : Job) (behaviour : Behaviour Output) : Prop :=
  job.invalid = none ∧ behaviour.resolveError = none ∧ behaviour.prepareError = none ∧
    (∀ error, behaviour.beforeExecute ≠ some (some error)) ∧ behaviour.executeError = none ∧
    behaviour.outcome.failure = none ∧ behaviour.collectError = none ∧
    behaviour.cleanupError = none ∧ contextFailure behaviour.resolveCheck = none ∧
    contextFailure behaviour.preparedCheck = none ∧
    (behaviour.beforeExecute ≠ none → contextFailure behaviour.beforeCheck = none) ∧
    contextFailure behaviour.executeCheck = none

/-- The provider is registered and returned an environment and a prepared one. -/
def Provided (behaviour : Behaviour Output) : Prop :=
  behaviour.registered = true ∧ behaviour.environment.isSome = true ∧ behaviour.prepared = true

theorem resolutionFailure_none_iff (job : Job) (behaviour : Behaviour Output) :
    resolutionFailure job behaviour = none ↔
      behaviour.registered = true ∧ behaviour.resolveError = none ∧
        contextFailure behaviour.resolveCheck = none ∧ behaviour.environment.isSome = true := by
  unfold resolutionFailure
  cases behaviour.registered with
  | false => simp
  | true =>
    cases behaviour.resolveError with
    | some => simp
    | none => cases behaviour.environment <;> simp

theorem preparationFailure_none_iff :
    preparationFailure behaviour = none ↔
      behaviour.prepareError = none ∧ behaviour.prepared = true ∧
        contextFailure behaviour.preparedCheck = none := by
  unfold preparationFailure
  cases behaviour.prepareError with
  | some => simp
  | none => cases behaviour.prepared <;> simp

theorem runFailure_none_iff :
    runFailure behaviour = none ↔
      behaviour.executeError = none ∧ contextFailure behaviour.executeCheck = none ∧
        behaviour.outcome.failure = none := by
  unfold runFailure
  cases behaviour.executeError <;> simp

theorem executionFailure_none_iff :
    executionFailure behaviour = none ↔
      (∀ error, behaviour.beforeExecute ≠ some (some error)) ∧
        (behaviour.beforeExecute ≠ none → contextFailure behaviour.beforeCheck = none) ∧
        runFailure behaviour = none := by
  unfold executionFailure
  cases behaviour.beforeExecute with
  | none => simp
  | some callback => cases callback <;> simp

theorem firstFailure_none_iff (job : Job) (behaviour : Behaviour Output) :
    firstFailure (phaseFailures job behaviour) = none ↔
      Untroubled job behaviour ∧ Provided behaviour := by
  simp only [phaseFailures, firstFailure_cons, firstFailure_nil, and_true,
    Option.or_eq_none_iff, Option.map_eq_none_iff, resolutionFailure_none_iff,
    preparationFailure_none_iff, executionFailure_none_iff, runFailure_none_iff, collectionFailure,
    cleanupFailure, Untroubled, Provided]
  constructor
  · rintro ⟨invalid, ⟨registered, resolve, resolveCheck, environment⟩,
      ⟨prepare, prepared, preparedCheck⟩, ⟨before, beforeCheck, execute, executeCheck, outcome⟩,
      collect, cleanup⟩
    exact ⟨⟨invalid, resolve, prepare, before, execute, outcome, collect, cleanup, resolveCheck,
      preparedCheck, beforeCheck, executeCheck⟩, registered, environment, prepared⟩
  · rintro ⟨⟨invalid, resolve, prepare, before, execute, outcome, collect, cleanup, resolveCheck,
      preparedCheck, beforeCheck, executeCheck⟩, registered, environment, prepared⟩
    exact ⟨invalid, ⟨registered, resolve, resolveCheck, environment⟩,
      ⟨prepare, prepared, preparedCheck⟩, ⟨before, beforeCheck, execute, executeCheck, outcome⟩,
      collect, cleanup⟩

/-- What the executor keeps to for one job. -/
structure ExecutorProtocol (options : Options) (job : Job) (behaviour : Behaviour Output) :
    Prop where
  calls : CallProtocol behaviour (execute options job behaviour).2
  first : (execute options job behaviour).1.failure =
    (firstFailure (phaseFailures job behaviour)).map (·.2)
  phase : (execute options job behaviour).1.phase =
    ((firstFailure (phaseFailures job behaviour)).map (·.1)).getD .completed
  clean : (execute options job behaviour).1.failure = none ↔
    Untroubled job behaviour ∧ Provided behaviour

/-- What the supervisor keeps to. -/
structure GuardedProtocol (state : Guarded Output) : Prop where
  shown : ∀ result, state.stage = .closed result true →
    result.status = .failed ∧ ∃ cleanup, result.cleanup = some cleanup ∧ cleanup.succeeded = false
  ended : ∀ result failed, state.stage = .closed result failed → state.inTime = true →
    state.late = false → result.status ≠ .passed

/-- The executor keeps to the order of the phases for every behaviour of a provider, and the
supervisor does not hide a guard that did not close or an authority that ended under the worker.

Proof: `execute_reports` and `execute_calls` for the executor, an invariant for the supervisor. -/
theorem execution_protocol (options : Options) (job : Job) (behaviour : Behaviour Output)
    (state : Guarded Output) (reached : GuardedReached state) :
    ExecutorProtocol options job behaviour ∧ GuardedProtocol state := by
  obtain ⟨reports, phase⟩ := execute_reports options job behaviour
  constructor
  · refine ⟨execute_calls options job behaviour, reports.failure, phase, ?_⟩
    rw [reports.failure, Option.map_eq_none_iff, firstFailure_none_iff]
  constructor
  · intro result closed
    exact (reached.sound.closed result true closed).2 rfl
  intro result failed closed inTime onTime passed
  have outcome := (reached.sound.closed result failed closed).1 inTime onTime
  rw [passed] at outcome
  exact nomatch outcome

/-! ## Samples -/

def sampleCheck : Check := ⟨none, none⟩

/-- A provider that answers everything without an error. -/
def sampleBehaviour : Behaviour Unit where
  registered := true
  name := "sandbox"
  environment := some "image"
  resolveError := none
  resolveCheck := sampleCheck
  prepared := true
  prepareError := none
  prepareCheck := sampleCheck
  attaches := true
  preparedCheck := sampleCheck
  beforeExecute := some none
  beforeCheck := sampleCheck
  outcome := ⟨some 0, none⟩
  executeError := none
  executeCheck := sampleCheck
  output := ()
  collectError := none
  collectContext := none
  cleanupError := none
  cleanupContext := none
  cleanupMilliseconds := 1

def sampleOptions : Options := ⟨5000, 10000⟩

def sampleJob : Job := ⟨"job", "sandbox", none, 0, 0, 0⟩

def sampleResult : Result Unit := (execute sampleOptions sampleJob sampleBehaviour).1

example : sampleResult.status = .passed ∧
    (execute sampleOptions sampleJob sampleBehaviour).2 =
      [.resolve (.withTimeout .caller 300000), .prepare (.withTimeout .caller 300000),
        .attachObserver, .beforeExecute (.withTimeout .caller 300000),
        .execute (.withTimeout .caller 300000), .collect (detachedTimeout .caller 5000),
        .cleanup (detachedTimeout .caller 10000)] := by decide +kernel

/-- The state after some steps. -/
def guardedRun : Guarded Output → List (GuardedStep Output) → Option (Guarded Output)
  | state, [] => some state
  | state, step :: rest => (step.perform state).bind fun next => guardedRun next rest

/-- Steps of which only those of the sample's worker return a result. -/
theorem guardedRun_reached (steps : List (GuardedStep Unit)) (state last : Guarded Unit)
    (executed : ∀ result, .workerReturns result ∈ steps → result = sampleResult)
    (past : GuardedReached state) (run : guardedRun state steps = some last) :
    GuardedReached last := by
  induction steps generalizing state with
  | nil =>
    cases run
    exact past
  | cons step rest ih =>
    simp only [guardedRun, Option.bind_eq_some_iff] at run
    obtain ⟨next, performed, later⟩ := run
    refine ih next (fun result member => executed result (List.mem_cons_of_mem _ member)) ?_ later
    refine .step state next step (fun result returns => ?_) performed past
    exact ⟨sampleOptions, sampleJob, sampleBehaviour,
      executed result (List.mem_cons.mpr (.inl returns.symm))⟩

/-- The authority ends while the worker runs, and nobody cancels. -/
def sampleLoss : List (GuardedStep Unit) :=
  [.enter false false false false, .authorityEnds, .workerReturns sampleResult, .monitorFinished,
    .readCause, .readDone, .readCaller, .close false]

/-- What a run of such steps ends with is reached. -/
theorem guardedRun_finds (steps : List (GuardedStep Unit)) (facts : Guarded Unit → Prop)
    [DecidablePred facts]
    (executed : ∀ result, .workerReturns result ∈ steps → result = sampleResult)
    (found : (guardedRun guardedStart steps).any (fun state => facts state) = true) :
    ∃ state, GuardedReached state ∧ facts state := by
  obtain ⟨state, run, holds⟩ := (Option.any_eq_true _ _).1 found
  exact ⟨state, guardedRun_reached steps guardedStart state executed .begin run,
    of_decide_eq_true holds⟩

theorem execution_protocol_lost :
    ∃ (state : Guarded Unit) (result : Result Unit), GuardedReached state ∧
      state.stage = .closed result false ∧ state.inTime = true ∧ state.late = false ∧
      ExecutorProtocol sampleOptions sampleJob sampleBehaviour ∧ GuardedProtocol state := by
  obtain ⟨state, reached, closed, inTime, onTime⟩ := guardedRun_finds sampleLoss
    (fun state => state.stage = .closed (applyLoss sampleResult true) false ∧
      state.inTime = true ∧ state.late = false) (by simp [sampleLoss]) (by decide +kernel)
  exact ⟨state, _, reached, closed, inTime, onTime,
    execution_protocol sampleOptions sampleJob sampleBehaviour state reached⟩

/-! ## Missing environments and late cancellations -/

/-- A provider that returns neither an environment nor an error. -/
def absentBehaviour : Behaviour Unit := { sampleBehaviour with environment := none }

/-- The authority ends while the worker runs; the caller is cancelled after the worker has returned
and before the supervisor looks. -/
def sampleRace : List (GuardedStep Unit) :=
  [.enter false false false false, .authorityEnds, .workerReturns sampleResult, .monitorFinished,
    .callerCancels, .readCause, .readDone, .readCaller, .close false]

/-- A job fails without any error, failure or context failure when the provider returns no
environment. A job whose authority ended before the worker returned passes when the caller is
cancelled before the supervisor looks. -/
theorem missing_environment_and_late_cancellation :
    (Untroubled sampleJob absentBehaviour ∧
      (execute sampleOptions sampleJob absentBehaviour).1.failure ≠ none) ∧
    ∃ (state : Guarded Unit) (result : Result Unit), GuardedReached state ∧
      state.stage = .closed result false ∧ state.inTime = true ∧ result.status = .passed := by
  constructor
  · constructor
    · exact ⟨rfl, rfl, rfl, by simp [absentBehaviour, sampleBehaviour],
        rfl, rfl, rfl, rfl, rfl, rfl, fun _ => rfl, rfl⟩
    · decide +kernel
  · obtain ⟨state, reached, closed, inTime⟩ := guardedRun_finds sampleRace
      (fun state => state.stage = .closed sampleResult false ∧ state.inTime = true)
      (by simp [sampleRace]) (by decide +kernel)
    exact ⟨state, _, reached, closed, inTime, by decide +kernel⟩

end ProvenanceRunner.Execution
