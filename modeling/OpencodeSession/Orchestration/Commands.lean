import OpencodeSession.Orchestration.Flow

/-!
# The commands that share a run

The operations of `RunCommandService` that read or write the record of a run while a start is
executing: loading it, which recovers stale attempts; editing a worker, with or without a status;
aborting a worker; and requeueing a worker with a new prompt, which `run start --prompt` does before
it starts.
-/

namespace OpencodeSession

/-- `ABORT_WORKER_REMOTE_MUTATION`. -/
def abortWorkerOperation : RemoteMutationOperation where
  kind := abortWorkerKind
  discardCleanupOperation := "discard_remote_mutation"
  finalizeCleanupOperation := "finalize_remote_mutation"
  callRemoteOperation := "call_abort_worker"
  nonempty := by decide

/-- `RunStartRequest`: a start with, or without, a prompt for its worker. -/
structure RunStartRequest where
  name : String
  prompt : Option String := none
  defaultServerUrl : Option String := none
  start : StartRequest := {}

/-- Whether a worker carries a result: a dictionary. -/
def WorkerRecord.hasResult (worker : WorkerRecord) : Bool := worker.result.any JsonValue.isObj

namespace Commands

/-- `RunCommandService.load_run`. -/
def loadRun (datetime : Datetime) : Command Run := do
  let run ← Command.loadRun .serving
  let now ← Command.clock .serving
  let recoveries ← .ofExcept (recoverExpiredActiveAttempts datetime run.sortedWorkers now)
  if recoveries.isEmpty then return run
  else
    Command.persist .serving
      (.applyTransitions (recoveries.map ActiveAttemptRecovery.transition))

/-- `RunCommandService.upsert_worker`: the lifecycle state cannot be set, and a status only if it
is one of the two manual ones. -/
def upsertWorker (workerId : String) (changes : WorkerChanges) (status : Option String) :
    Command Run :=
  if changes.lifecycleState.isSome then
    throw (.runStore
      ("raw lifecycle_state updates are not supported by run commands; " ++
        "use --status active/blocked or the explicit start/abort/result transitions") "data")
  else match status with
    | none => Command.persist .serving (.upsertWorker workerId changes)
    | some status =>
      if shortStatus status = "active" then
        Command.persist .serving (.upsertWorkerStatus workerId changes .active)
      else if shortStatus status = "blocked" then
        Command.persist .serving (.upsertWorkerStatus workerId changes .blocked)
      else
        let status := shortStatus status
        throw (.runStore
          (s!"worker status '{status}' cannot be set manually; " ++
            "use run start, run abort, or reducer-owned result/failure/timeout handling") "data")

/-- The changes that requeue a worker with a prompt. -/
def requeueChanges (request : RunStartRequest) (prompt : String) : WorkerChanges where
  role := some request.start.role
  prompt := some prompt
  lifecycleState := some .queued
  sessionId := request.start.sessionId
  agent := request.start.agent
  model := request.start.model

/-- Create the run of a request. -/
def createRun (request : RunStartRequest) : Command Run :=
  .call ⟨.serving, .createRun request.name (request.start.directory.getD ".")
    ((request.start.serverUrl.orElse fun _ => request.defaultServerUrl).getD defaultServerUrl)⟩
      fun (answer : Except PyError Run) => .ofExcept answer

/-- `ensure_prompt_worker`: a run that is missing is created, and the worker is requeued. -/
def ensurePromptWorker (request : RunStartRequest) (prompt : String) : Command Run := do
  let _ ← tryCatch (Command.loadRun .serving) fun error =>
    match error with
    | .runStore _ "missing" => createRun request
    | error => throw error
  Command.persist .serving
    (.upsertWorker request.start.workerId (requeueChanges request prompt))

/-- `RunCommandService.start_run`. -/
def startRun (datetime : Datetime) (rounds : Nat) (request : RunStartRequest) :
    Command StartOutcome := do
  match request.prompt with
  | none => Flow.start datetime rounds request.start
  | some prompt => do
    let _ ← ensurePromptWorker request prompt
    Flow.start datetime rounds request.start

/-- `is_session_not_found_error` of the errors that an abort can get. -/
def isSessionNotFoundError : PyError → Bool
  | .openCodeApi _ status _ _ => status = some 404
  | _ => false

/-- The remote call of `abort_worker`. -/
def callAbort (intent : RemoteJournalRecord) : Command JsonValue :=
  let sessionId := match intent.field "session_id" with
    | .str sessionId => sessionId
    | _ => ""
  .call ⟨.serving, .abortSession sessionId⟩ fun (answer : Except PyError JsonValue) =>
    match answer with
    | .ok data => return data
    | .error error =>
      if isSessionNotFoundError error then throw (.runWorkerSessionNotFound sessionId)
      else throw error

/-- `RunCommandService.abort_worker`. -/
def abortWorker (workerId : String) : Command Run := do
  let run ← Command.loadRun .serving
  let _ ← .ofExcept (run.workerWithSession workerId)
  let mutationId ← Command.newId .serving
  let transaction : RemoteMutationTransaction := ⟨mutationId, abortWorkerOperation⟩
  let execution ← transaction.execute (H := Unit)
    (Command.journalPort .serving .remoteMutation) journalHandlers
    (.abortWorker mutationId workerId)
    (fun _ intent => callAbort intent)
    none .ignore
    (some fun _ data intent =>
      let sessionId := match intent.field "session_id" with
        | .str sessionId => sessionId
        | _ => ""
      return some (.finalize (some (.abortWorker workerId sessionId data))))
  return execution.run

/-- `_worker_result`. -/
def workerResult (run : Run) (workerId : String) : Except PyError WorkerRecord :=
  match run.workers.get? workerId with
  | none => throw (.runStore s!"worker '{workerId}' not found in run '{run.name}'" "missing")
  | some worker =>
    if worker.hasResult then return worker
    else
      throw (.runStore s!"worker '{workerId}' in run '{run.name}' has no collected result" "missing")

/-- `RunCommandService.collect_results` of the run that is loaded under a name: the workers whose
results are printed. -/
def collectResults (name : String) (run : Run) (workerId : Option String) :
    Except PyError (List WorkerRecord) :=
  match workerId, run.workers.toList with
  | some workerId, _ => do return [← workerResult run workerId]
  | none, [worker] => do return [← workerResult run worker.id.value]
  | none, _ =>
    let workers :=
      (analyzeWorkerDependencies run.workers.byId).workerIdsInDependencyOrder.filterMap
        run.workers.get?
    let completed := workers.filter WorkerRecord.hasResult
    if completed.isEmpty then
      throw (.runStore s!"run '{name}' has no collected worker results" "missing")
    else return completed

end Commands

/-- What a process that shares the run may be doing. -/
inductive RunCommand where
  | start (datetime : Datetime) (rounds : Nat) (request : RunStartRequest)
  | load (datetime : Datetime)
  | upsert (workerId : String) (changes : WorkerChanges) (status : Option String)
  | requeue (request : RunStartRequest) (prompt : String)
  | abort (workerId : String)

/-- The process of a command, without what it prints. -/
def RunCommand.process : RunCommand → Command Unit
  | start datetime rounds request => do
    let _ ← Commands.startRun datetime rounds request
  | load datetime => do
    let _ ← Commands.loadRun datetime
  | upsert workerId changes status => do
    let _ ← Commands.upsertWorker workerId changes status
  | requeue request prompt => do
    let _ ← Commands.ensurePromptWorker request prompt
  | abort workerId => do
    let _ ← Commands.abortWorker workerId

end OpencodeSession
