import Mathlib.Tactic.Common

/-! # The executor

One job goes through the phases of the executor. What the provider answers and what a context
reports at each check are inputs, so every behaviour of a provider and every pattern of
cancellations and timeouts is one `Behaviour`. The result comes with the calls that were made to the
provider, in their order, each with the context that it got. -/

namespace ProvenanceRunner.Execution

/-! ## Results -/

inductive Classification where
  | passed
  | invalidJob
  | workloadFailure
  | infrastructureFailure
  | timedOut
  | cancelled
  | other (text : String)
deriving DecidableEq, Repr

inductive Phase where
  | validation
  | resolution
  | preparation
  | execution
  | collection
  | cleanup
  | completed
deriving DecidableEq, Repr

inductive FailureStage where
  | unset
  | preparation
  | startup
  | execution
deriving DecidableEq, Repr

structure Failure where
  stage : FailureStage
  classification : Classification
  code : String
  message : String
deriving DecidableEq, Repr

def newFailure (classification : Classification) (code message : String) : Failure :=
  ⟨.unset, classification, code, message⟩

/-- An error of a provider: its text and, for a classified one, the failure that it carries. -/
structure ProviderError where
  text : String
  classified : Option Failure
deriving DecidableEq, Repr

inductive Status where
  | passed
  | failed
deriving DecidableEq, Repr

structure CleanupResult where
  attempted : Bool
  succeeded : Bool
  durationMilliseconds : Int
  error : String
deriving DecidableEq, Repr

/-- The result of a job. What was collected is kept as a whole, with the error of the collection. -/
structure Result (Output : Type) where
  jobId : String
  status : Status
  classification : Classification
  phase : Phase
  environment : Option (String × String)
  execution : Option (Option Int)
  logs : Option (Output × String)
  cleanup : Option CleanupResult
  failure : Option Failure
deriving DecidableEq, Repr

variable {Output : Type}

/-- The first failure stays. -/
def setFailure (result : Result Output) (phase : Phase) (failure : Option Failure) :
    Result Output :=
  match result.failure, failure with
  | none, some failure =>
    { result with
      status := .failed
      classification := failure.classification
      phase := phase
      failure := some failure }
  | _, _ => result

def finishResult (result : Result Output) : Result Output :=
  if result.failure.isNone then { result with phase := .completed } else result

/-! ## Contexts -/

/-- A context by how it was made from the caller's. -/
inductive Context where
  | caller
  | withTimeout (parent : Context) (milliseconds : Int)
  | withoutCancel (parent : Context)
deriving DecidableEq, Repr

/-- Whether the cancellation of the caller's context cancels a context. -/
def Context.followsCaller : Context → Bool
  | .caller => true
  | .withTimeout parent _ => parent.followsCaller
  | .withoutCancel _ => false

def detachedTimeout (parent : Context) (milliseconds : Int) : Context :=
  .withTimeout (.withoutCancel parent) milliseconds

inductive ContextError where
  | canceled
  | deadlineExceeded
deriving DecidableEq, Repr

def ContextError.text : ContextError → String
  | .canceled => "context canceled"
  | .deadlineExceeded => "context deadline exceeded"

/-- What the caller's context and that of an operation report at one check. -/
structure Check where
  parent : Option ContextError
  operation : Option ContextError
deriving DecidableEq, Repr

def contextFailure (check : Check) : Option Failure :=
  if check.parent = some .canceled then
    some (newFailure .cancelled "job_cancelled" ContextError.canceled.text)
  else match check.operation with
    | some .deadlineExceeded =>
      some (newFailure .timedOut "job_timeout" ContextError.deadlineExceeded.text)
    | some .canceled => some (newFailure .cancelled "job_cancelled" ContextError.canceled.text)
    | none => none

def classifyError (check : Check) (defaultCode : String) (error : ProviderError) : Failure :=
  match contextFailure check with
  | some failure => failure
  | none =>
    match error.classified with
    | some failure => failure
    | none => newFailure .infrastructureFailure defaultCode error.text

/-- The error of an operation under a detached context, of which only the deadline is looked at. -/
def classifyDetachedError (operation : Option ContextError) (defaultCode : String)
    (error : ProviderError) : Failure :=
  if operation = some .deadlineExceeded then
    newFailure .infrastructureFailure (defaultCode ++ "_timeout") ContextError.deadlineExceeded.text
  else match error.classified with
    | some failure => failure
    | none => newFailure .infrastructureFailure defaultCode error.text

/-! ## Jobs and behaviours -/

/-- A job as far as the executor looks at it, with the answer of its own validation. -/
structure Job where
  id : String
  provider : String
  invalid : Option String
  timeoutMilliseconds : Int
  preparationTimeoutMilliseconds : Int
  gracefulShutdownTimeoutMilliseconds : Int
deriving DecidableEq, Repr

namespace Job

def timeout (job : Job) : Int :=
  if job.timeoutMilliseconds = 0 then 300000 else job.timeoutMilliseconds

def usesPhaseTimeouts (job : Job) : Bool := job.preparationTimeoutMilliseconds != 0

def preparationTimeout (job : Job) : Int :=
  if job.preparationTimeoutMilliseconds = 0 then job.timeout else job.preparationTimeoutMilliseconds

def gracefulShutdownTimeout (job : Job) : Int := job.gracefulShutdownTimeoutMilliseconds

end Job

/-- The options of an executor. -/
structure Options where
  collectionTimeout : Int
  cleanupTimeout : Int
deriving DecidableEq, Repr

structure ExecutionOutcome where
  exitCode : Option Int
  failure : Option Failure
deriving DecidableEq, Repr

/-- The answers of a provider and of the callback before execution, each with what the contexts
report when the executor looks at them after it. No callback is one that is absent. -/
structure Behaviour (Output : Type) where
  registered : Bool
  name : String
  environment : Option String
  resolveError : Option ProviderError
  resolveCheck : Check
  prepared : Bool
  prepareError : Option ProviderError
  prepareCheck : Check
  attaches : Bool
  preparedCheck : Check
  beforeExecute : Option (Option ProviderError)
  beforeCheck : Check
  outcome : ExecutionOutcome
  executeError : Option ProviderError
  executeCheck : Check
  output : Output
  collectError : Option ProviderError
  collectContext : Option ContextError
  cleanupError : Option ProviderError
  cleanupContext : Option ContextError
  cleanupMilliseconds : Int
deriving DecidableEq, Repr

/-- The calls of the executor, each with the context that it hands over. -/
inductive Call where
  | resolve (context : Context)
  | prepare (context : Context)
  | attachObserver
  | beforeExecute (context : Context)
  | execute (context : Context)
  | collect (context : Context)
  | cleanup (context : Context)
deriving DecidableEq, Repr

/-! ## The phases -/

variable (options : Options) (job : Job) (behaviour : Behaviour Output)

/-- The execution of a prepared environment, after the callback. -/
def runPrepared (context : Context) (result : Result Output) :
    Result Output × List Call :=
  let result := { result with execution := some behaviour.outcome.exitCode }
  match behaviour.executeError with
  | some error =>
    (setFailure result .execution
      (some (classifyError behaviour.executeCheck "environment_execution_failed" error)),
      [.execute context])
  | none =>
    match contextFailure behaviour.executeCheck with
    | some failure => (setFailure result .execution (some failure), [.execute context])
    | none => (setFailure result .execution behaviour.outcome.failure, [.execute context])

def executePrepared (context : Context) (result : Result Output) :
    Result Output × List Call :=
  let result := { result with phase := .execution }
  match behaviour.beforeExecute with
  | none => runPrepared behaviour context result
  | some (some error) =>
    (setFailure result .execution
      (some (classifyError behaviour.beforeCheck "before_execute_failed" error)),
      [.beforeExecute context])
  | some none =>
    match contextFailure behaviour.beforeCheck with
    | some failure => (setFailure result .execution (some failure), [.beforeExecute context])
    | none =>
      let run := runPrepared behaviour context result
      (run.1, .beforeExecute context :: run.2)

def collectPrepared (milliseconds : Int) (result : Result Output) :
    Result Output × List Call :=
  let calls := [Call.collect (detachedTimeout .caller milliseconds)]
  match behaviour.collectError with
  | none => ({ result with logs := some (behaviour.output, "") }, calls)
  | some error =>
    let result := { result with logs := some (behaviour.output, error.text) }
    (setFailure result .collection
      (some (classifyDetachedError behaviour.collectContext "output_collection_failed" error)),
        calls)

def cleanupPrepared (milliseconds : Int) (result : Result Output) :
    Result Output × List Call :=
  let calls := [Call.cleanup (detachedTimeout .caller milliseconds)]
  match behaviour.cleanupError with
  | none =>
    ({ result with cleanup := some ⟨true, true, behaviour.cleanupMilliseconds, ""⟩ }, calls)
  | some error =>
    let result := setFailure result .cleanup
      (some (classifyDetachedError behaviour.cleanupContext "environment_cleanup_failed" error))
    ({ result with cleanup := some ⟨true, false, behaviour.cleanupMilliseconds, error.text⟩ },
      calls)

/-- The context of the execution: a timeout of its own, or the rest of the preparation's. -/
def runContext : Context :=
  if job.usesPhaseTimeouts then .withTimeout .caller job.timeout
  else .withTimeout .caller job.preparationTimeout

def cleanupTimeout : Int :=
  if job.usesPhaseTimeouts then job.gracefulShutdownTimeout else options.cleanupTimeout

/-- A prepared environment is executed unless a failure stands. -/
def startPrepared (result : Result Output) : Result Output × List Call :=
  if result.failure.isSome then (result, [])
  else match contextFailure behaviour.preparedCheck with
    | some failure => (setFailure result .preparation (some failure), [])
    | none => executePrepared behaviour (runContext job) result

/-- What follows once the provider has handed over a prepared environment. -/
def finishPrepared (result : Result Output) : Result Output × List Call :=
  let attached := if behaviour.attaches then [Call.attachObserver] else []
  let executed := startPrepared job behaviour result
  let collected := collectPrepared behaviour options.collectionTimeout executed.1
  let cleaned := cleanupPrepared behaviour (cleanupTimeout options job) collected.1
  (finishResult cleaned.1, attached ++ executed.2 ++ collected.2 ++ cleaned.2)

/-- The result that the executor starts from. -/
def startedResult : Result Output where
  jobId := job.id
  status := .passed
  classification := .passed
  phase := .validation
  environment := none
  execution := none
  logs := none
  cleanup := none
  failure := none

def execute : Result Output × List Call :=
  let failed (result : Result Output) (phase : Phase) (failure : Failure) :=
    finishResult (setFailure result phase (some failure))
  let preparation := Context.withTimeout .caller job.preparationTimeout
  match job.invalid with
  | some message =>
    (failed (startedResult job) .validation (newFailure .invalidJob "invalid_job" message), [])
  | none =>
    if !behaviour.registered then
      (failed (startedResult job) .resolution (newFailure .invalidJob "provider_not_found"
        ("provider \"" ++ job.provider ++ "\" is not registered")), [])
    else
      let result : Result Output := { startedResult job with phase := .resolution }
      let resolved := [Call.resolve preparation]
      match behaviour.resolveError with
      | some error =>
        (failed result .resolution
          (classifyError behaviour.resolveCheck "provider_resolution_failed" error), resolved)
      | none =>
        match contextFailure behaviour.resolveCheck with
        | some failure => (failed result .resolution failure, resolved)
        | none =>
          match behaviour.environment with
          | none =>
            (failed result .resolution (newFailure .infrastructureFailure
              "provider_returned_no_environment" "provider returned a nil environment"), resolved)
          | some identity =>
            let result :=
              { result with phase := .preparation, environment := some (behaviour.name, identity) }
            let calls := resolved ++ [Call.prepare preparation]
            match behaviour.prepareError with
            | some error =>
              let result := setFailure result .preparation
                (some (classifyError behaviour.prepareCheck "environment_preparation_failed" error))
              if !behaviour.prepared then (finishResult result, calls)
              else
                let finished := finishPrepared options job behaviour result
                (finished.1, calls ++ finished.2)
            | none =>
              if !behaviour.prepared then
                (failed result .preparation (newFailure .infrastructureFailure
                  "provider_returned_no_prepared_environment"
                  "provider returned a nil prepared environment"), calls)
              else
                let finished := finishPrepared options job behaviour result
                (finished.1, calls ++ finished.2)

/-! ## What a phase fails with

Each phase alone: the failure that it ends in, whatever happened before. -/

/-- The phase fails before the provider is asked, with what the provider answers, with what the
contexts report, or because there is no environment. -/
def resolutionFailure : Option Failure :=
  if !behaviour.registered then
    some (newFailure .invalidJob "provider_not_found"
      ("provider \"" ++ job.provider ++ "\" is not registered"))
  else match behaviour.resolveError with
    | some error =>
      some (classifyError behaviour.resolveCheck "provider_resolution_failed" error)
    | none =>
      (contextFailure behaviour.resolveCheck).or
        (if behaviour.environment.isNone then
          some (newFailure .infrastructureFailure "provider_returned_no_environment"
            "provider returned a nil environment")
        else none)

def preparationFailure : Option Failure :=
  match behaviour.prepareError with
  | some error =>
    some (classifyError behaviour.prepareCheck "environment_preparation_failed" error)
  | none =>
    if !behaviour.prepared then
      some (newFailure .infrastructureFailure "provider_returned_no_prepared_environment"
        "provider returned a nil prepared environment")
    else contextFailure behaviour.preparedCheck

/-- The failure of the execution itself. -/
def runFailure : Option Failure :=
  match behaviour.executeError with
  | some error =>
    some (classifyError behaviour.executeCheck "environment_execution_failed" error)
  | none => (contextFailure behaviour.executeCheck).or behaviour.outcome.failure

def executionFailure : Option Failure :=
  match behaviour.beforeExecute with
  | none => runFailure behaviour
  | some (some error) =>
    some (classifyError behaviour.beforeCheck "before_execute_failed" error)
  | some none => (contextFailure behaviour.beforeCheck).or (runFailure behaviour)

def collectionFailure : Option Failure :=
  behaviour.collectError.map
    (classifyDetachedError behaviour.collectContext "output_collection_failed")

def cleanupFailure : Option Failure :=
  behaviour.cleanupError.map
    (classifyDetachedError behaviour.cleanupContext "environment_cleanup_failed")

/-- The phases in their order, each with its failure. -/
def phaseFailures : List (Phase × Option Failure) :=
  [(.validation, job.invalid.map (newFailure .invalidJob "invalid_job")),
    (.resolution, resolutionFailure job behaviour),
    (.preparation, preparationFailure behaviour),
    (.execution, executionFailure behaviour),
    (.collection, collectionFailure behaviour),
    (.cleanup, cleanupFailure behaviour)]

/-- The first phase that fails, with its failure. -/
def firstFailure (phases : List (Phase × Option Failure)) : Option (Phase × Failure) :=
  phases.findSome? fun phase => phase.2.map (phase.1, ·)

theorem firstFailure_nil : firstFailure [] = none := rfl

theorem firstFailure_cons (phase : Phase) (failure : Option Failure)
    (rest : List (Phase × Option Failure)) :
    firstFailure ((phase, failure) :: rest) = (failure.map (phase, ·)).or (firstFailure rest) := by
  cases failure <;> rfl

/-- The phases that are left once an environment is prepared. -/
def preparedFailures : List (Phase × Option Failure) :=
  [(.preparation, contextFailure behaviour.preparedCheck),
    (.execution, executionFailure behaviour),
    (.collection, collectionFailure behaviour),
    (.cleanup, cleanupFailure behaviour)]

/-! ## The first failure is reported -/

/-- A result under way that reports the failure of a phase, or none. -/
structure Reports (result : Result Output) (first : Option (Phase × Failure)) : Prop where
  failure : result.failure = first.map (·.2)
  phase : ∀ found ∈ first, result.phase = found.1
  status : result.status = if first.isSome then .failed else .passed
  classification : result.classification = (first.map (·.2.classification)).getD .passed

variable (milliseconds : Int) (context : Context) {result : Result Output}
  {first : Option (Phase × Failure)}

theorem Reports.setFailure (reports : Reports result first) (phase : Phase)
    (failure : Option Failure) :
    Reports (setFailure result phase failure) (first.or (failure.map (phase, ·))) := by
  have reported := reports.failure
  cases first with
  | some =>
    have kept : Execution.setFailure result phase failure = result := by
      simp only [Execution.setFailure, reported, Option.map_some]
    rw [kept, Option.some_or]
    exact reports
  | none =>
    cases failure with
    | none =>
      have kept : Execution.setFailure result phase none = result := by
        simp only [Execution.setFailure, reported, Option.map_none]
      rw [kept]
      exact reports
    | some =>
      simp only [Execution.setFailure, reported, Option.map_none, Option.map_some, Option.none_or]
      exact ⟨rfl, fun found member => by cases member; rfl, rfl, rfl⟩

/-- The other fields do not matter. -/
theorem Reports.congr {other : Result Output} (reports : Reports result first)
    (failure : other.failure = result.failure) (phase : other.phase = result.phase)
    (status : other.status = result.status)
    (classification : other.classification = result.classification) : Reports other first :=
  ⟨failure.trans reports.failure, fun found member => phase.trans (reports.phase found member),
    status.trans reports.status, classification.trans reports.classification⟩

/-- A result without a failure may move to another phase. -/
theorem Reports.enter {other : Result Output} (reports : Reports result none)
    (failure : other.failure = result.failure) (status : other.status = result.status)
    (classification : other.classification = result.classification) : Reports other none :=
  ⟨failure.trans reports.failure, nofun, status.trans reports.status,
    classification.trans reports.classification⟩

theorem startedResult_reports : Reports (startedResult job : Result Output) none :=
  ⟨rfl, nofun, rfl, rfl⟩

/-- A finished result names the phase of its failure, or that the job is complete. -/
theorem Reports.finish (reports : Reports result first) :
    Reports (finishResult result) first ∧
      (finishResult result).phase = (first.map (·.1)).getD .completed := by
  have reported := reports.failure
  unfold finishResult
  cases first with
  | none =>
    rw [if_pos (by rw [reported]; rfl)]
    exact ⟨reports.enter rfl rfl rfl, rfl⟩
  | some found =>
    rw [if_neg (by rw [reported]; exact Bool.false_ne_true)]
    exact ⟨reports, reports.phase found rfl⟩

theorem runPrepared_reports (reports : Reports result none) :
    Reports (runPrepared behaviour context result).1
      ((runFailure behaviour).map (.execution, ·)) := by
  have done : Reports { result with execution := some behaviour.outcome.exitCode } none :=
    reports.enter rfl rfl rfl
  unfold runPrepared runFailure
  cases behaviour.executeError with
  | some => exact done.setFailure .execution _
  | none =>
    cases contextFailure behaviour.executeCheck with
    | some | none => exact done.setFailure .execution _

theorem executePrepared_reports (reports : Reports result none) :
    Reports (executePrepared behaviour context result).1
      ((executionFailure behaviour).map (.execution, ·)) := by
  have entered : Reports { result with phase := .execution } none := reports.enter rfl rfl rfl
  unfold executePrepared executionFailure
  cases behaviour.beforeExecute with
  | none => exact runPrepared_reports behaviour context entered
  | some callback =>
    cases callback with
    | some => exact entered.setFailure .execution _
    | none =>
      cases contextFailure behaviour.beforeCheck with
      | some => exact entered.setFailure .execution _
      | none => exact runPrepared_reports behaviour context entered

theorem collectPrepared_reports (reports : Reports result first) :
    Reports (collectPrepared behaviour milliseconds result).1
      (first.or ((collectionFailure behaviour).map (.collection, ·))) := by
  unfold collectPrepared collectionFailure
  cases behaviour.collectError with
  | none =>
    rw [Option.map_none, Option.map_none, Option.or_none]
    exact reports.congr rfl rfl rfl rfl
  | some error =>
    have kept : Reports { result with logs := some (behaviour.output, error.text) } first :=
      reports.congr rfl rfl rfl rfl
    exact kept.setFailure .collection _

theorem cleanupPrepared_reports (reports : Reports result first) :
    Reports (cleanupPrepared behaviour milliseconds result).1
      (first.or ((cleanupFailure behaviour).map (.cleanup, ·))) := by
  unfold cleanupPrepared cleanupFailure
  cases behaviour.cleanupError with
  | none =>
    rw [Option.map_none, Option.map_none, Option.or_none]
    exact reports.congr rfl rfl rfl rfl
  | some => exact (reports.setFailure .cleanup _).congr rfl rfl rfl rfl

theorem startPrepared_reports (reports : Reports result first) :
    Reports (startPrepared job behaviour result).1
      (first.or (((contextFailure behaviour.preparedCheck).map (.preparation, ·)).or
        ((executionFailure behaviour).map (.execution, ·)))) := by
  have reported := reports.failure
  unfold startPrepared
  cases first with
  | some =>
    rw [if_pos (by rw [reported]; rfl)]
    exact reports
  | none =>
    rw [if_neg (by rw [reported]; exact Bool.false_ne_true)]
    cases contextFailure behaviour.preparedCheck with
    | some failure => exact reports.setFailure .preparation (some failure)
    | none => exact executePrepared_reports behaviour (runContext job) reports

/-- From a prepared environment on: a failure that stands stays, otherwise the first failure of the
phases that are left is reported. -/
theorem finishPrepared_reports (reports : Reports result first) :
    Reports (finishPrepared options job behaviour result).1
        (first.or (firstFailure (preparedFailures behaviour))) ∧
      (finishPrepared options job behaviour result).1.phase =
        ((first.or (firstFailure (preparedFailures behaviour))).map (·.1)).getD .completed := by
  have cleaned := cleanupPrepared_reports behaviour (cleanupTimeout options job)
    (collectPrepared_reports behaviour options.collectionTimeout
      (startPrepared_reports job behaviour reports))
  simp only [preparedFailures, firstFailure_cons, firstFailure_nil, Option.or_none]
  rw [Option.or_assoc, Option.or_assoc, Option.or_assoc] at cleaned
  exact cleaned.finish

/-! ## The calls -/

/-- The calls that end the use of a prepared environment. -/
def Call.retires : Call → Bool
  | .collect _ => true
  | .cleanup _ => true
  | _ => false

def Call.executes : Call → Bool
  | .execute _ => true
  | _ => false

/-- The order of the calls. Whatever the environment that was prepared, it is collected from and
cleaned up once, at the end and under contexts that the caller cannot cancel; it is executed at most
once, after the preparation and the callback have granted it. -/
structure CallProtocol (behaviour : Behaviour Output) (calls : List Call) : Prop where
  retired : (∃ context, .prepare context ∈ calls) → behaviour.prepared = true →
    ∃ front collection cleanup, calls = front ++ [.collect collection, .cleanup cleanup] ∧
      (∀ call ∈ front, call.retires = false) ∧ collection.followsCaller = false ∧
      cleanup.followsCaller = false
  untouched : ¬ ((∃ context, .prepare context ∈ calls) ∧ behaviour.prepared = true) →
    ∀ call ∈ calls, call.retires = false
  once : (calls.filter Call.executes).length ≤ 1
  granted : ∀ context, .execute context ∈ calls →
    ∃ front back, calls = front ++ .execute context :: back ∧
      (∃ context, .prepare context ∈ front) ∧ behaviour.prepareError = none ∧
      (behaviour.beforeExecute = none ∨
        (behaviour.beforeExecute = some none ∧ ∃ context, .beforeExecute context ∈ front))

/-- Nothing follows a call of the executor that fails before an environment is prepared. -/
theorem CallProtocol.early (calls : List Call)
    (quiet : ∀ call ∈ calls, call.retires = false ∧ call.executes = false)
    (unprepared : (∃ context, .prepare context ∈ calls) → behaviour.prepared = false) :
    CallProtocol behaviour calls := by
  constructor
  · intro asked prepared
    rw [unprepared asked] at prepared
    exact nomatch prepared
  · intro _ call member
    exact (quiet call member).1
  · have none : calls.filter Call.executes = [] := by
      rw [List.filter_eq_nil_iff]
      intro call member
      rw [(quiet call member).2]
      exact Bool.false_ne_true
    rw [none]
    exact Nat.zero_le 1
  · intro context member
    exact nomatch (quiet _ member).2

/-- The calls between the preparation and the collection. -/
inductive StartCalls (behaviour : Behaviour Output) (context : Context) : List Call → Prop where
  | unstarted : StartCalls behaviour context []
  | refused : StartCalls behaviour context [.beforeExecute context]
  | executed (absent : behaviour.beforeExecute = none) :
    StartCalls behaviour context [.execute context]
  | released (granted : behaviour.beforeExecute = some none) :
    StartCalls behaviour context [.beforeExecute context, .execute context]

theorem runPrepared_calls (result : Result Output) :
    (runPrepared behaviour context result).2 = [.execute context] := by
  unfold runPrepared
  cases behaviour.executeError with
  | some => rfl
  | none => cases contextFailure behaviour.executeCheck <;> rfl

theorem executePrepared_calls (result : Result Output) :
    StartCalls behaviour context (executePrepared behaviour context result).2 := by
  unfold executePrepared
  cases callback : behaviour.beforeExecute with
  | none =>
    rw [runPrepared_calls]
    exact .executed callback
  | some answer =>
    cases answer with
    | some => exact .refused
    | none =>
      cases contextFailure behaviour.beforeCheck with
      | some => exact .refused
      | none =>
        dsimp only
        rw [runPrepared_calls]
        exact .released callback

/-- Nothing is executed while a failure stands. -/
theorem startPrepared_calls (result : Result Output) :
    StartCalls behaviour (runContext job) (startPrepared job behaviour result).2 ∧
      (result.failure.isSome = true → (startPrepared job behaviour result).2 = []) := by
  unfold startPrepared
  by_cases failed : result.failure.isSome = true
  · rw [if_pos failed]
    exact ⟨.unstarted, fun _ => rfl⟩
  rw [if_neg failed]
  refine ⟨?_, fun standing => absurd standing failed⟩
  cases contextFailure behaviour.preparedCheck with
  | some => exact .unstarted
  | none => exact executePrepared_calls behaviour (runContext job) result

theorem collectPrepared_calls (result : Result Output) :
    (collectPrepared behaviour milliseconds result).2 =
      [.collect (detachedTimeout .caller milliseconds)] := by
  unfold collectPrepared
  cases behaviour.collectError <;> rfl

theorem cleanupPrepared_calls (result : Result Output) :
    (cleanupPrepared behaviour milliseconds result).2 =
      [.cleanup (detachedTimeout .caller milliseconds)] := by
  unfold cleanupPrepared
  cases behaviour.cleanupError <;> rfl

/-- The calls from the preparation on. -/
theorem finishPrepared_protocol (result : Result Output)
    (resolution preparation : Context) (prepared : behaviour.prepared = true)
    (failed : behaviour.prepareError ≠ none → result.failure.isSome = true) :
    CallProtocol behaviour ([.resolve resolution, .prepare preparation] ++
      (finishPrepared options job behaviour result).2) := by
  obtain ⟨started, stopped⟩ := startPrepared_calls job behaviour result
  have clean : behaviour.prepareError = none ∨ (startPrepared job behaviour result).2 = [] := by
    by_cases error : behaviour.prepareError = none
    · exact .inl error
    · exact .inr (stopped (failed error))
  have whole : (finishPrepared options job behaviour result).2 =
      (if behaviour.attaches then [Call.attachObserver] else []) ++
        (startPrepared job behaviour result).2 ++
        [.collect (detachedTimeout .caller options.collectionTimeout),
          .cleanup (detachedTimeout .caller (cleanupTimeout options job))] := by
    simp only [finishPrepared, collectPrepared_calls, cleanupPrepared_calls, List.append_assoc,
      List.cons_append, List.nil_append]
  rw [whole]
  generalize (startPrepared job behaviour result).2 = calls at started clean
  have front : ∀ call ∈ [Call.resolve resolution, .prepare preparation] ++
      ((if behaviour.attaches then [Call.attachObserver] else []) ++ calls),
      call.retires = false := by
    cases started <;> cases behaviour.attaches <;> simp [Call.retires]
  constructor
  · intro _ _
    exact ⟨_, detachedTimeout .caller options.collectionTimeout,
      detachedTimeout .caller (cleanupTimeout options job), by simp only [List.append_assoc], front,
      rfl, rfl⟩
  · intro unprepared
    exact absurd ⟨⟨preparation, by simp⟩, prepared⟩ unprepared
  · cases started <;> cases behaviour.attaches <;> exact Nat.le_of_ble_eq_true rfl
  intro context member
  cases started with
  | unstarted | refused => cases behaviour.attaches <;> simp at member
  | executed absent =>
    obtain rfl : context = runContext job := by
      cases behaviour.attaches <;> simpa using member
    refine ⟨[.resolve resolution, .prepare preparation] ++
      (if behaviour.attaches then [Call.attachObserver] else []),
      [.collect (detachedTimeout .caller options.collectionTimeout),
        .cleanup (detachedTimeout .caller (cleanupTimeout options job))],
      ?_, ⟨preparation, by simp⟩, clean.resolve_right (by simp), .inl absent⟩
    simp only [List.append_assoc, List.cons_append, List.nil_append]
  | released granted =>
    obtain rfl : context = runContext job := by
      cases behaviour.attaches <;> simpa using member
    refine ⟨[.resolve resolution, .prepare preparation] ++
      (if behaviour.attaches then [Call.attachObserver] else []) ++
        [.beforeExecute (runContext job)],
      [.collect (detachedTimeout .caller options.collectionTimeout),
        .cleanup (detachedTimeout .caller (cleanupTimeout options job))],
      ?_, ⟨preparation, by simp⟩, clean.resolve_right (by simp),
      .inr ⟨granted, runContext job, by simp⟩⟩
    simp only [List.append_assoc, List.cons_append, List.nil_append]

/-- How the executor ends, by the first failure of its phases: before an environment is prepared, or
after everything that follows the preparation. -/
inductive Executed (options : Options) (job : Job) (behaviour : Behaviour Output) :
    Option (Phase × Failure) → Result Output × List Call → Prop where
  | early (result : Result Output) (phase : Phase) (failure : Failure) (calls : List Call)
    (reports : Reports result none) (uncleaned : result.cleanup = none)
    (quiet : ∀ call ∈ calls, call.retires = false ∧ call.executes = false)
    (unprepared : (∃ context, .prepare context ∈ calls) → behaviour.prepared = false) :
    Executed options job behaviour (some (phase, failure))
      (finishResult (setFailure result phase (some failure)), calls)
  | finished (result : Result Output) (first : Option (Phase × Failure))
    (resolution preparation : Context) (reports : Reports result first)
    (prepared : behaviour.prepared = true)
    (failed : behaviour.prepareError ≠ none → result.failure.isSome = true) :
    Executed options job behaviour (first.or (firstFailure (preparedFailures behaviour)))
      ((finishPrepared options job behaviour result).1,
        [.resolve resolution, .prepare preparation] ++
          (finishPrepared options job behaviour result).2)

theorem execute_spec :
    Executed options job behaviour (firstFailure (phaseFailures job behaviour))
      (execute options job behaviour) := by
  have started : Reports (startedResult job : Result Output) none := startedResult_reports job
  have resolving : Reports { (startedResult job : Result Output) with phase := .resolution } none :=
    started.enter rfl rfl rfl
  have preparing : ∀ identity, Reports { (startedResult job : Result Output) with
      phase := .preparation, environment := some (behaviour.name, identity) } none :=
    fun identity => started.enter rfl rfl rfl
  have resolved : ∀ context, ∀ call ∈ [Call.resolve context],
      call.retires = false ∧ call.executes = false := by
    simp [Call.retires, Call.executes]
  have asked : ∀ first second, ∀ call ∈ [Call.resolve first] ++ [.prepare second],
      call.retires = false ∧ call.executes = false := by
    simp [Call.retires, Call.executes]
  unfold execute phaseFailures
  rw [firstFailure_cons, firstFailure_cons, firstFailure_cons]
  cases invalid : job.invalid with
  | some => exact .early _ _ _ [] started rfl (by simp) (by simp)
  | none =>
    dsimp only
    rw [Option.map_none, Option.map_none, Option.none_or]
    by_cases registered : behaviour.registered = true
    swap
    · have refused : resolutionFailure job behaviour = some (newFailure .invalidJob
          "provider_not_found" ("provider \"" ++ job.provider ++ "\" is not registered")) := by
        unfold resolutionFailure
        rw [if_pos (by simp [registered])]
      rw [if_pos (by simp [registered]), refused]
      exact .early _ _ _ [] started rfl (by simp) (by simp)
    rw [if_neg (by simp [registered])]
    unfold resolutionFailure
    rw [if_neg (by simp [registered])]
    cases behaviour.resolveError with
    | some => exact .early _ _ _ _ resolving rfl (resolved _) (by simp)
    | none =>
      dsimp only
      cases contextFailure behaviour.resolveCheck with
      | some => exact .early _ _ _ _ resolving rfl (resolved _) (by simp)
      | none =>
        dsimp only
        cases behaviour.environment with
        | none => exact .early _ _ _ _ resolving rfl (resolved _) (by simp)
        | some identity =>
          dsimp only
          unfold preparationFailure
          cases failed : behaviour.prepareError with
          | some error =>
            dsimp only
            have standing := (preparing identity).setFailure .preparation
              (some (classifyError behaviour.prepareCheck "environment_preparation_failed" error))
            by_cases prepared : behaviour.prepared = true
            · simp only [prepared, Bool.not_true, Bool.false_eq_true, if_false]
              exact .finished _ (some _) _ _ standing prepared (fun _ => rfl)
            · simp only [prepared, Bool.not_false, if_true]
              exact .early _ _ _ _ (preparing identity) rfl (asked _ _)
                (fun _ => by simpa using prepared)
          | none =>
            dsimp only
            by_cases prepared : behaviour.prepared = true
            · simp only [prepared, Bool.not_true, Bool.false_eq_true, if_false]
              rw [← firstFailure_cons .preparation]
              exact .finished _ none _ _ (preparing identity) prepared
                (fun error => absurd failed error)
            · simp only [prepared, Bool.not_false, if_true]
              exact .early _ _ _ _ (preparing identity) rfl (asked _ _)
                (fun _ => by simpa using prepared)

/-- The result reports the first phase that fails, and is complete when none does. -/
theorem execute_reports :
    Reports (execute options job behaviour).1 (firstFailure (phaseFailures job behaviour)) ∧
      (execute options job behaviour).1.phase =
        ((firstFailure (phaseFailures job behaviour)).map (·.1)).getD .completed := by
  have executed := execute_spec options job behaviour
  generalize firstFailure _ = first, execute options job behaviour = ended at executed ⊢
  cases executed with
  | early result phase failure calls reports =>
    exact (reports.setFailure phase (some failure)).finish
  | finished result first resolution preparation reports =>
    exact finishPrepared_reports options job behaviour reports

theorem execute_calls :
    CallProtocol behaviour (execute options job behaviour).2 := by
  have executed := execute_spec options job behaviour
  generalize firstFailure _ = first, execute options job behaviour = ended at executed ⊢
  cases executed with
  | early result phase failure calls reports uncleaned quiet unprepared =>
    exact .early behaviour calls quiet unprepared
  | finished result first resolution preparation reports prepared failed =>
    exact finishPrepared_protocol options job behaviour result resolution preparation
      prepared failed

end ProvenanceRunner.Execution
