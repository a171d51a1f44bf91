import OpencodeSession.Orchestration.Provisioning

/-!
# The execution of one worker

`WorkerExecutionExecutor.execute`: the worker gets its session, becomes active, records the start of
an attempt, sends the prompt, and records what came of it.  Every step but the sending is an update
of the run, and the worker in hand is what the last update saved.
-/

namespace OpencodeSession

/-- `WorkerExecutionOutcome`. -/
structure WorkerExecutionOutcome where
  kind : AttemptKind
  createdSessionIds : List String := []
  error : Option String := none
  failureCategory : Option FailureCategory := none
  run : Run

namespace Execution

/-- `persist_worker_execution_transition`: persist a transition and take the worker from what was
saved. -/
def applyWorkerTransition (phase : Phase) (worker : WorkerRecord)
    (transition : WorkerTransition) : Command (Run × WorkerRecord) := do
  let saved ← Command.persist phase (.applyTransitions [transition])
  return (saved, (saved.workers.get? transition.workerId.value).getD worker)

/-- `provision_session`: the session, the provisioned worker, and the end of the journal entry. -/
def provisionSession (run : Run) (worker : WorkerRecord) (agent model : Option String)
    (cleanupRequested : Bool) : Command (Run × WorkerRecord × WorkerSessionOutcome) := do
  let provisioning ← Provisioning.provision run worker agent model cleanupRequested
  let (run, worker) ← applyWorkerTransition (.provisioning worker.id.value) provisioning.worker
    provisioning.worker.provisionedTransition
  let (run, worker) ← Provisioning.finalizeBestEffort run worker provisioning.intent
  return (run, worker, provisioning.outcome)

/-- Make the worker active.  The clock is read only for a worker with a time-out. -/
def activate (worker : WorkerRecord) : Command (Run × WorkerRecord) := do
  let phase := Phase.activating worker.id.value
  let now ← (if worker.timeoutSeconds.isSome then Command.clock phase else pure "")
  applyWorkerTransition phase worker (worker.markActive now)

/-- `prepare_worker_prompt_id`: modern servers take the identifier of the message from us. -/
def preparePromptId (phase : Phase) (strategy : BlockingStrategy) : Command (Option String) :=
  match strategy with
  | .sessionMessage =>
    .call ⟨phase, .newMessageId⟩ fun (id : String) => .done (some id)
  | .legacyRunReply => return none

/-- The record of an attempt that is about to start. -/
def attemptRecord (worker : WorkerRecord) (startedAt : String) (createdSessionIds : List String)
    (promptId : Option String) : JsonValue :=
  .obj ((worker.newAttemptRecord startedAt createdSessionIds).fields ++
    optionalField "user_message_id" promptId)

/-- Record the start of an attempt; its identifier is made from the worker in hand. -/
def startAttempt (worker : WorkerRecord) (strategy : BlockingStrategy)
    (createdSessionIds : List String) :
    Command (Run × WorkerRecord × String × Option String) := do
  let phase := Phase.starting worker.id.value
  let promptId ← preparePromptId phase strategy
  let startedAt ← Command.clock phase
  let (run, started) ← applyWorkerTransition phase worker
    { workerId := worker.id
      payload := .attemptStarted (attemptRecord worker startedAt createdSessionIds promptId) }
  return (run, started, worker.nextAttemptId, promptId)

/-- Whether an exception ends an attempt as a time-out of ours. -/
def isTimeoutExpired : PyError → Bool
  | .timeoutExpired | .timeoutError _ | .workerExecutionTimeout _ => true
  | _ => false

/-- Send the prompt. -/
def sendPrompt (phase : Phase) (execution : PromptExecution) : Command ExecutionResult :=
  .call ⟨phase, .executePrompt execution⟩ fun (answer : Except PyError ExecutionResult) =>
    .ofExcept answer

/-- Raise the time-out if the deadline has passed. -/
def requireTime (phase : Phase) (deadline : Option TimeoutSeconds) : Command Unit :=
  match deadline with
  | none => return ()
  | some _ => .call ⟨phase, .requireTime⟩ fun (inTime : Bool) =>
    if inTime then .done () else .raise .timeoutExpired

/-- `_call_worker_with_deadline` around the executor. -/
def callWorkerWithDeadline (worker : WorkerRecord) (attemptId prompt : String)
    (promptId : Option String) : Command ExecutionResult :=
  let phase := Phase.prompting worker.id.value attemptId
  tryCatch
    (do
      requireTime phase worker.timeoutSeconds
      sendPrompt phase
        { workerId := worker.id.value
          sessionId := worker.sessionId
          prompt := prompt
          deadline := worker.timeoutSeconds
          promptId := promptId })
    fun error =>
      if isTimeoutExpired error then throw (.workerExecutionTimeout none) else throw error

/-- The outcome of an exception, with the prepared prompt identifier where it has none. -/
def withPromptId (promptId : Option String) : WorkerAttemptOutcome → WorkerAttemptOutcome
  | .completed result => .completed result
  | .failed category reason ownPromptId =>
    .failed category reason (ownPromptId.orElse fun _ => promptId)

/-- `execute_single_worker_attempt`. -/
def executeSingleWorkerAttempt (worker : WorkerRecord) (attemptId prompt : String)
    (promptId : Option String) : Command WorkerAttemptOutcome :=
  tryCatch
    (WorkerAttemptOutcome.completed <$> callWorkerWithDeadline worker attemptId prompt promptId)
    fun error =>
      match classifyWorkerAttemptException worker error with
      | some attempt => return withPromptId promptId attempt
      | none => throw error

/-- Record the outcome of an attempt, finalising its record in the same update. -/
def recordOutcome (worker : WorkerRecord) (attemptId : String)
    (attempt : WorkerAttemptOutcome) (createdSessionIds : List String) :
    Command WorkerExecutionOutcome := do
  let phase := Phase.recording worker.id.value
  let now ← (if attempt.isTimeout then Command.clock phase else pure "")
  let transition := applyWorkerAttemptTransition worker attempt now
  let finishedAt ← Command.clock phase
  let (run, _) ← applyWorkerTransition phase worker
    (transition.workerTransition.withFinalizedAttempt (.str attemptId)
      (attemptFinalizationFields transition attempt finishedAt))
  return { kind := transition.kind
           createdSessionIds := createdSessionIds
           error := transition.error
           failureCategory := transition.failureCategory
           run := run }

/-- `WorkerExecutionExecutor.execute`. -/
def execute (run : Run) (worker : WorkerRecord) (prompt : String) (strategy : BlockingStrategy)
    (agent model : Option String) (cleanupRequested : Bool) : Command WorkerExecutionOutcome := do
  let (_, worker, session) ← provisionSession run worker agent model cleanupRequested
  let createdSessionIds := session.createdSessionId.toList
  let (_, worker) ← activate worker
  let (_, worker, attemptId, promptId) ← startAttempt worker strategy createdSessionIds
  let outcome ← executeSingleWorkerAttempt worker attemptId prompt promptId
  recordOutcome worker attemptId outcome createdSessionIds

end Execution

end OpencodeSession
