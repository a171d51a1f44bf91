import OpencodeSession.Orchestration.Interface

/-!
# Session provisioning

A worker without a session gets one before its first attempt.  The creation is a remote mutation:
its intent is journaled, the success is journaled with the identifier of the session, and the
persist that marks it as applied also stores the session in the worker and, when a cleanup is
requested, in the worker's list of sessions to delete.  The entry is finalised after the executor
has persisted the provisioned worker, best effort.
-/

namespace OpencodeSession

/-- `WORKER_SESSION_CREATE_OPERATION`. -/
def workerSessionCreateOperation : RemoteMutationOperation where
  kind := workerSessionCreateKind
  discardCleanupOperation := "discard_worker_session_create"
  finalizeCleanupOperation := "finalize_worker_session_create"
  callRemoteOperation := "call_worker_session_create"
  nonempty := by decide

/-- `WorkerSessionOutcome`. -/
structure WorkerSessionOutcome where
  sessionId : Option String
  createdSessionId : Option String := none

/-- `WorkerSessionProvisioning`. -/
structure WorkerSessionProvisioning where
  run : Run
  worker : WorkerRecord
  outcome : WorkerSessionOutcome
  intent : Option RemoteJournalRecord := none

namespace Provisioning

/-- `will_create_worker_session`. -/
def willCreateWorkerSession (worker : WorkerRecord) : Bool :=
  !WorkerRecord.isSet worker.sessionId

/-- `worker_session_creation_metadata`. -/
def sessionMetadata (run : Run) (intent : RemoteJournalRecord) (workerId : WorkerId)
    (cleanupRequested : Bool) : List (String × String) :=
  [("ocs.remote_mutation_kind", workerSessionCreateKind),
    ("ocs.remote_mutation_id", intent.id),
    ("ocs.worker_id", workerId.value),
    ("ocs.cleanup_requested", if cleanupRequested then "true" else "false")] ++
    if run.name ≠ "" then [("ocs.run_name", run.name)] else []

section

variable (workerId : WorkerId) (agent model : Option String) (cleanupRequested : Bool)

/-- `ensure_worker_session` on the worker of the run in hand: the session is created only if the
worker still has none. -/
def ensureWorkerSession (run : Run) (intent : RemoteJournalRecord) :
    Command WorkerSessionOutcome :=
  let worker := run.latestWorker workerId
  if WorkerRecord.isSet worker.sessionId then
    return { sessionId := worker.sessionId }
  else
    .call ⟨.provisioning workerId.value, .createSession
      { directory := run.directory
        agent := agent
        model := model
        metadata := sessionMetadata run intent workerId cleanupRequested }⟩
      fun (answer : Except PyError String) => do
        let sessionId ← .ofExcept answer
        return { sessionId := some sessionId, createdSessionId := some sessionId }

/-- The record of a created session, for the transaction of an intent. -/
def createdSessionRecord (intent : RemoteJournalRecord) (sessionId createdAt : String) :
    RemoteJournalRecord where
  id := intent.id
  kind := workerSessionCreateKind
  fields := createdSessionFields workerId cleanupRequested sessionId createdAt
  idNonempty := intent.idNonempty
  kindNonempty := workerSessionCreateKind_nonempty
  unreserved := unreserved_createdSessionFields

/-- `_created_session_result`. -/
def createdSessionResult (record : RemoteJournalRecord) (sessionId : String) :
    RemoteMutationResult RunUpdate :=
  .recordApplied record
    (some (.createdWorkerSession workerId sessionId cleanupRequested agent model)) .recordApplied

/-- `remote_succeeded_session_record`: the record of the created session is made once and
remembered for `apply_created_session`. -/
def remoteSucceededSessionRecord (outcome : WorkerSessionOutcome) (intent : RemoteJournalRecord) :
    Command (RemoteJournalRecord × Option RemoteJournalRecord) :=
  match outcome.createdSessionId with
  | none => return (intent, none)
  | some sessionId => do
    let createdAt ← Command.clock (.provisioning workerId.value)
    let record := createdSessionRecord workerId cleanupRequested intent sessionId createdAt
    return (record, some record)

/-- `apply_created_session`. -/
def applyCreatedSession (memo : Option (Option RemoteJournalRecord))
    (outcome : WorkerSessionOutcome) (intent : RemoteJournalRecord) :
    Command (Option (RemoteMutationResult RunUpdate)) :=
  match outcome.createdSessionId with
  | none => return some .keepPending
  | some sessionId => do
    let record ← (match memo.join with
      | some record => pure record
      | none => do
        let createdAt ← Command.clock (.provisioning workerId.value)
        return createdSessionRecord workerId cleanupRequested intent sessionId createdAt)
    return some (createdSessionResult workerId agent model cleanupRequested record sessionId)

/-- The port of the transactions that create the session of a worker. -/
def sessionPort : JournalPort storeInterface IntentFactory RunUpdate :=
  Command.journalPort (.provisioning workerId.value) .workerSession

/-- `run_creation`. -/
def runCreation : Command WorkerSessionProvisioning := do
  let intentId ← Command.newId (.provisioning workerId.value)
  let transaction : RemoteMutationTransaction := ⟨intentId, workerSessionCreateOperation⟩
  let execution ← transaction.execute (sessionPort workerId) journalHandlers
    (.workerSessionCreate intentId workerId agent model cleanupRequested)
    (ensureWorkerSession workerId agent model cleanupRequested)
    (some (remoteSucceededSessionRecord workerId cleanupRequested))
    .recordApplied
    (some (applyCreatedSession workerId agent model cleanupRequested))
  return { run := execution.run
           worker := execution.run.latestWorker workerId
           outcome := execution.remoteResult
           intent := some execution.intent }

end

/-- `WorkerSessionProvisioner.provision`. -/
def provision (run : Run) (worker : WorkerRecord) (agent model : Option String)
    (cleanupRequested : Bool) : Command WorkerSessionProvisioning :=
  if willCreateWorkerSession worker then
    runCreation worker.id agent model cleanupRequested
  else
    return { run := run
             worker := worker.setSession worker.sessionId agent model
             outcome := { sessionId := worker.sessionId } }

/-- `WorkerSessionProvisioner.finalize_best_effort`. -/
def finalizeBestEffort (run : Run) (worker : WorkerRecord) (intent : Option RemoteJournalRecord) :
    Command (Run × WorkerRecord) :=
  match intent with
  | none => return (run, worker)
  | some intent => do
    let transaction : RemoteMutationTransaction := ⟨intent.id, workerSessionCreateOperation⟩
    let run ← transaction.finalizeBestEffort (sessionPort worker.id) run
    return (run, run.latestWorker worker.id)

end Provisioning

end OpencodeSession
