import OpencodeSession.Orchestration.Execution
import OpencodeSession.Orchestration.SessionCleanup

/-!
# The flow of a start

`run start` recovers stale attempts, plans, and then executes the selected workers one at a time,
planning again from the durable state after each; at the end it deletes the sessions it created.
The loop takes a bound on its rounds and is cut when the bound runs out.

An exception of the server that escapes the loop ends the start with the workers that can still be
executed marked as failed.  They are taken from the run as it was when the loop began.
-/

namespace OpencodeSession

/-- The execution policies. -/
inductive ExecutionPolicy where
  | failFast | continue
  deriving DecidableEq

/-- `DependencyOrderedSerialStep`. -/
structure SerialStep where
  workerId : Option String
  dependencyBlockedTransitions : List WorkerTransition

/-- `DependencyOrderedSerialRunStartOutcome`. -/
structure StartOutcome where
  run : Run
  exitCode : Nat
  error : Option String

namespace Run

/-- The workers in the order of their identifiers. -/
def sortedWorkers (run : Run) : List WorkerRecord :=
  run.workers.byId.sortedIds.filterMap run.workers.get?

/-- `pending_prompted_workers`. -/
def pendingPromptedWorkers (run : Run) : List WorkerRecord :=
  run.sortedWorkers.filter WorkerRecord.isExecutable

lemma mem_sortedWorkers {run : Run} {worker : WorkerRecord} :
    worker ∈ run.sortedWorkers ↔ run.workers.get? worker.id.value = some worker := by
  rw [sortedWorkers, List.mem_filterMap]
  constructor
  · rintro ⟨id, -, hget⟩
    rwa [WorkerMap.id_of_get? hget]
  · intro hget
    exact ⟨worker.id.value, Workers.mem_sortedIds.2 (WorkerMap.mem_ids_iff.2 ⟨worker, hget⟩), hget⟩

lemma nodup_sortedWorkers (run : Run) : (run.sortedWorkers.map WorkerRecord.id).Nodup := by
  have hids : run.workers.byId.sortedIds.Nodup :=
    (List.perm_insertionSort _ _).nodup_iff.2 (Dict.keys_nodup _)
  rw [sortedWorkers, List.map_filterMap]
  refine hids.filterMap fun id id' workerId hid hid' => ?_
  obtain ⟨worker, hget, rfl⟩ := Option.map_eq_some_iff.1 hid
  obtain ⟨worker', hget', hsame⟩ := Option.map_eq_some_iff.1 hid'
  rw [← WorkerMap.id_of_get? hget, ← WorkerMap.id_of_get? hget', hsame]

/-- `has_partial_worker_success`. -/
def hasPartialWorkerSuccess (run : Run) : Bool :=
  let statuses := (run.workers.toList.filter WorkerRecord.hasPrompt).map WorkerRecord.status
  .done ∈ statuses && statuses.any (· ∈ [.failed, .blocked, .aborted, .timeout])

/-- `exit_code_for_run`. -/
def exitCode (run : Run) : Nat :=
  match WorkerStatus.ofName? (shortStatus run.status) with
  | some .failed => if run.hasPartialWorkerSuccess then 1 else 69
  | some .blocked => 75
  | some .done => 0
  | some .timeout => 124
  | some .aborted => 130
  | _ => 69

end Run

namespace Flow

/-! ## Planning -/

/-- `plan_dependency_ordered_serial_step`. -/
def planStep (workers : WorkerMap) : SerialStep :=
  let analysis := analyzeWorkerDependencies workers.byId
  { workerId := analysis.readyWorkerIds.head?
    dependencyBlockedTransitions :=
      (analysis.blockersByWorkerId.keys.insertionSort (· ≤ ·)).filterMap fun id =>
        (workers.get? id).map fun worker =>
          worker.markDependencyBlocked ((analysis.blockersByWorkerId.get? id).getD []) }

/-- The planning phase: the step is made from the run in hand, and then the blocked workers or the
summary are persisted. -/
def plan (run : Run) : Command (Run × SerialStep) := do
  let step := planStep run.workers
  let saved ← Command.persist (.planning step.workerId)
    (if step.dependencyBlockedTransitions.isEmpty then .refreshSummary
      else .applyTransitions step.dependencyBlockedTransitions)
  return (saved, step)

/-! ## Recovery -/

/-- The recovery phase: the stale attempts of the run in hand time out. -/
def recover (datetime : Datetime) (run : Run) : Command (Run × Option String) := do
  let now ← Command.clock (.recovering (planStep run.workers).workerId)
  let recoveries ← .ofExcept (recoverExpiredActiveAttempts datetime run.sortedWorkers now)
  if recoveries.isEmpty then return (run, none)
  else do
    let saved ← Command.persist (.recovering none)
      (.applyTransitions (recoveries.map ActiveAttemptRecovery.transition))
    return (saved, recoveries.findSome? ActiveAttemptRecovery.error)

/-! ## Execution -/

/-- `_mark_prompted_workers_failed`. -/
def markPromptedWorkersFailed (run : Run) (error : String) : Command Run :=
  Command.persist .failing (.applyTransitions
    (run.pendingPromptedWorkers.map fun worker => worker.markFailed "api" error false))

/-- `remember_created_worker_sessions`. -/
def rememberCreated (created : Option CreatedSessions) (workerId : String)
    (sessionIds : List String) : Option CreatedSessions :=
  created.map fun sessions =>
    if sessionIds.isEmpty then sessions else SessionCleanup.remember sessions workerId sessionIds

/-- `_execute_selected_worker`. -/
def executeSelectedWorker (strategy : BlockingStrategy) (run : Run) (workerId : String)
    (created : Option CreatedSessions) :
    Command (Run × Option String × Option CreatedSessions) :=
  match run.workers.get? workerId with
  | none => return (run, none, created)
  | some worker => do
    let outcome ← Execution.execute run worker (worker.prompt.getD "") strategy worker.agent
      worker.model created.isSome
    return (outcome.run, outcome.error, rememberCreated created workerId outcome.createdSessionIds)

/-- One round of the loop: execute the selected worker and plan again.  The created sessions are
there also when the round raises. -/
def round (strategy : BlockingStrategy) (run : Run) (workerId : String)
    (created : Option CreatedSessions) :
    Command (Option CreatedSessions × Except PyError (Run × SerialStep × Option String)) := do
  match ← (executeSelectedWorker strategy run workerId created).attempt with
  | .error error => return (created, .error error)
  | .ok (run, workerError, created) =>
    match ← (plan run).attempt with
    | .error error => return (created, .error error)
    | .ok (run, step) => return (created, .ok (run, step, workerError))

/-- `_execute_serial_workers`: the run at the end, the first error, and the error that a fail-fast
execution stopped at. -/
def executeSerialWorkers (policy : ExecutionPolicy) (strategy : BlockingStrategy) :
    Nat → Run → Option String → Option CreatedSessions → Option String →
      Command (Option CreatedSessions × Except PyError (Run × Option String × Option String))
  | _, run, none, created, firstError => return (created, .ok (run, firstError, none))
  | 0, _, some _, _, _ => .cut
  | rounds + 1, run, some workerId, created, firstError => do
    match ← round strategy run workerId created with
    | (created, .error error) => return (created, .error error)
    | (created, .ok (run, step, workerError)) =>
      let firstError := firstError.orElse fun _ => workerError
      if policy = .failFast ∧ workerError.isSome then
        return (created, .ok (run, firstError, workerError))
      else executeSerialWorkers policy strategy rounds run step.workerId created firstError

/-- How the execution phase ended. -/
inductive ExecutionEnd where
  | completed (firstError : Option String)
  | unsupported (error : String)
  | apiFailure (error : String)
  | failFast (error : String)

/-- `DependencyOrderedSerialExecutionResult`: whether there is a client to clean up with, and the
sessions created. -/
structure ExecutionResult where
  run : Run
  hasClient : Bool
  created : Option CreatedSessions
  outcome : ExecutionEnd

/-- `unsupported_blocking_execution_message`. -/
def unsupportedMessage : String :=
  "unsupported route behavior: missing blocking execution: POST /session/\x7bsessionID\x7d/message or legacy " ++
  "POST /session/\x7bsessionID\x7d/run + POST /session/\x7bsessionID\x7d/reply; v2 prompt admission is not execution"

/-- The handler of the execution phase: an error of the server fails the pending workers of the run
that was in hand when the loop began. -/
def apiFailure (run : Run) (hasClient : Bool) (created : Option CreatedSessions)
    (error : PyError) : Command ExecutionResult :=
  if error.isOpenCodeApiError then do
    let run ← markPromptedWorkersFailed run error.message
    return { run := run
             hasClient := hasClient
             created := created
             outcome := .apiFailure s!"api failure: {error.message}" }
  else throw error

/-- The capability probe. -/
def probe (selected : String) (run : Run) : Command (Option BlockingStrategy) :=
  .call ⟨.probing selected, .probe run.serverUrl⟩
    fun (answer : Except PyError (Option BlockingStrategy)) => .ofExcept answer

/-- The end of the execution phase after the loop. -/
def finishLoop (run : Run) :
    Option CreatedSessions × Except PyError (Run × Option String × Option String) →
      Command ExecutionResult
  | (created, .error error) => apiFailure run true created error
  | (created, .ok (run, firstError, none)) =>
    return { run := run, hasClient := true, created := created, outcome := .completed firstError }
  | (created, .ok (run, _, some error)) =>
    return { run := run, hasClient := true, created := created, outcome := .failFast error }

/-- `DependencyOrderedSerialExecutionPhase.execute`. -/
def executionPhase (policy : ExecutionPolicy) (cleanupRequested : Bool) (rounds : Nat) (run : Run)
    (selected : String) : Command ExecutionResult := do
  let created : Option CreatedSessions := if cleanupRequested then some ∅ else none
  match ← (probe selected run).attempt with
  | .error error => apiFailure run false created error
  | .ok none => do
    let run ← markPromptedWorkersFailed run unsupportedMessage
    return { run := run
             hasClient := false
             created := created
             outcome := .unsupported unsupportedMessage }
  | .ok (some strategy) =>
    match ← (Command.persist (.entering selected) .markRunActive).attempt with
    | .error error => apiFailure run true created error
    | .ok run => do
      let result ←
        executeSerialWorkers policy strategy rounds run (some selected) created none
      finishLoop run result

/-! ## The whole start -/

/-- `finish_outcome`. -/
def finishOutcome (outcome : ExecutionEnd) (run : Run) (recoveryError : Option String) :
    StartOutcome :=
  match outcome with
  | .completed firstError =>
    { run := run, exitCode := run.exitCode, error := recoveryError.orElse fun _ => firstError }
  | .unsupported error => { run := run, exitCode := 70, error := some error }
  | .apiFailure error => { run := run, exitCode := 69, error := some error }
  | .failFast error => { run := run, exitCode := run.exitCode, error := some error }

/-- The cleanup phase, and the end of the start. -/
def cleanupPhase (execution : ExecutionResult) (recoveryError : Option String) :
    Command StartOutcome :=
  match execution.created with
  | none => return finishOutcome execution.outcome execution.run recoveryError
  | some created => do
    let steps := SessionCleanup.cleanupPlan created execution.run
    if !execution.hasClient || steps.isEmpty then
      return finishOutcome execution.outcome execution.run recoveryError
    else do
      let (run, error) ← SessionCleanup.cleanup execution.run steps
      match error with
      | some error =>
        return { run := run.refreshSummary
                 exitCode := 69
                 error := some
                  s!"api failure: disposable session cleanup failed: {error.message}" }
      | none => return finishOutcome execution.outcome run recoveryError

/-- `DependencyOrderedSerialRunFlow.start`. -/
def runFlow (datetime : Datetime) (policy : ExecutionPolicy) (cleanupRequested : Bool)
    (rounds : Nat) (run : Run) : Command StartOutcome := do
  let (run, recoveryError) ← recover datetime run
  let (run, step) ← plan run
  match step.workerId with
  | none => return { run := run, exitCode := run.exitCode, error := recoveryError }
  | some selected =>
    if recoveryError.isSome ∧ policy = .failFast then
      return { run := run, exitCode := run.exitCode, error := recoveryError }
    else do
      let execution ← executionPhase policy cleanupRequested rounds run selected
      cleanupPhase execution recoveryError

/-- `_normalize_execution_policy`. -/
def normalizeExecutionPolicy (policy : String) : Except PyError ExecutionPolicy :=
  let normalized := if policy = "" then "fail_fast"
    else String.ofList (policy.toList.map fun c => if c = '-' then '_' else c)
  if normalized = "fail_fast" then .ok .failFast
  else if normalized = "continue" then .ok .continue
  else .error (.runStore s!"unsupported execution policy '{policy}'" "data")

/-- `DependencyOrderedSerialRunOrchestrationService.start`. -/
def start (datetime : Datetime) (rounds : Nat) (request : StartRequest) :
    Command StartOutcome := do
  let _ ← Command.loadRun .requesting
  let policy ← .ofExcept (normalizeExecutionPolicy request.executionPolicy)
  let run ← Command.persist .requesting (.applyStartRequest request)
  if run.workers.toList.any WorkerRecord.hasPrompt then
    runFlow datetime policy request.cleanup rounds run
  else throw (.runStore
    s!"run '{run.name}' has no worker prompts; pass --prompt or add workers with --prompt" "data")

end Flow

end OpencodeSession
