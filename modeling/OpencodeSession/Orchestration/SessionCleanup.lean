import OpencodeSession.Orchestration.Interface

/-!
# Deleting the sessions a start created

The last phase of `run start --cleanup`.  The sessions to delete are those remembered in this start,
those in the cleanup record of a worker, and those that only the journal knows; a session that was
deleted and verified leaves the record, and the others stay in it for the next start.
-/

namespace OpencodeSession

/-- The sessions of each worker that this start created; none without a cleanup request. -/
abbrev CreatedSessions : Type := Dict String (List String)

namespace SessionCleanup

/-- Texts added to a list, each once. -/
def appendUnique (values added : List String) : List String :=
  added.foldl (fun values value => if value ∈ values then values else values ++ [value]) values

/-- Remember sessions of a worker. -/
def remember (sessions : CreatedSessions) (workerId : String) (sessionIds : List String) :
    CreatedSessions :=
  sessions.set workerId (appendUnique ((sessions.get? workerId).getD []) sessionIds)

/-- The entries that have a session. -/
def dropEmpty (sessions : CreatedSessions) : List (String × List String) :=
  sessions.entries.filter fun entry => !entry.2.isEmpty

/-! ## What there is to delete -/

/-- `WorkerSessionCreationJournalEntry`. -/
structure JournaledCreation where
  workerId : String
  cleanupRequested : Bool
  sessionIds : List String

/-- `from_journal_entry`, of an entry of the right kind. -/
def JournaledCreation.ofEntry (entry : JsonValue) : Option JournaledCreation :=
  match entry.get "worker_id" with
  | .str workerId =>
    if workerId = "" then none
    else
      some
        { workerId := workerId
          cleanupRequested := match entry.get "cleanup_requested" with
            | .bool requested => requested
            | _ => false
          sessionIds := JsonValue.appendUniqueString
            (appendUnique [] (entry.get "created_session_ids").stringList)
            (entry.get "session_id") }
  | _ => none

/-- The creations in the journal whose session exists and is to be deleted. -/
def recoverableCreations (run : Run) : List JournaledCreation :=
  ((RemoteMutationJournal.pendingEntries (run.journal .workerSession) workerSessionCreateKind
    [.remoteSucceeded, .applied]).filterMap JournaledCreation.ofEntry).filter
      fun creation => creation.cleanupRequested

/-- `recoverable_worker_session_creations_by_worker`. -/
def recoverableWorkerSessionCreationsByWorker (run : Run) : List (String × List String) :=
  dropEmpty ((recoverableCreations run).foldl
    (fun sessions creation => remember sessions creation.workerId creation.sessionIds) ∅)

/-- The sessions that the cleanup record of a worker still lists. -/
def pendingCleanupSessions (worker : WorkerRecord) : List String :=
  match worker.cleanup with
  | some (.obj fields) =>
    if ((JsonValue.obj fields).get "deleted").truthy then []
    else ((JsonValue.obj fields).get "sessions").stringList
  | _ => []

/-- The sessions in the cleanup records of the workers. -/
def recordedSessionsByWorker (run : Run) : CreatedSessions :=
  run.workers.byId.entries.foldl
    (fun sessions entry =>
      if (pendingCleanupSessions entry.2).isEmpty then sessions
      else remember sessions entry.1 (pendingCleanupSessions entry.2)) ∅

/-- `recoverable_created_worker_sessions_by_worker`. -/
def recoverableCreatedWorkerSessionsByWorker (run : Run) : List (String × List String) :=
  dropEmpty ((recoverableWorkerSessionCreationsByWorker run).foldl
    (fun sessions entry => remember sessions entry.1 entry.2) (recordedSessionsByWorker run))

/-- `recoverable_cleanup_sessions`: the plan of the phase. -/
def cleanupPlan (created : CreatedSessions) (run : Run) : List (String × List String) :=
  dropEmpty ((recoverableCreatedWorkerSessionsByWorker run).foldl
    (fun sessions entry => remember sessions entry.1 entry.2) created)

/-! ## Deleting -/

/-- `delete_and_verify`: the session is gone when reading it is answered with 404. -/
def deleteAndVerify (phase : Phase) (sessionId : String) : Command (Option PyError) :=
  .call ⟨phase, .deleteSession sessionId⟩ fun (deleted : Except PyError Unit) =>
    match deleted with
    | .error error =>
      if !error.isOpenCodeApiError then throw error
      else if error.apiStatus = some 404 then verify
      else return some error
    | .ok _ => verify
where
  /-- Read the session that should be gone. -/
  verify : Command (Option PyError) :=
    .call ⟨phase, .getSession sessionId⟩ fun (read : Except PyError Unit) =>
      match read with
      | .error error =>
        if !error.isOpenCodeApiError then throw error
        else if error.apiStatus = some 404 then return none
        else return some error
      | .ok _ => return some (.openCodeApi
          s!"delete verification failed; session {sessionId} is still readable" none "" "")

/-- `DisposableSessionLifecycle.cleanup`: the verified sessions and the errors of the others. -/
def cleanupDisposableSessions (phase : Phase) :
    List String → Command (List String × List PyError)
  | [] => return ([], [])
  | sessionId :: rest => do
    let error ← deleteAndVerify phase sessionId
    let (verified, errors) ← cleanupDisposableSessions phase rest
    return match error with
      | some error => (verified, error :: errors)
      | none => (sessionId :: verified, errors)

/-- The cleanup record after an attempt to delete sessions. -/
def cleanupRecord (cleanup : List (String × JsonValue)) (attempted verified : List String)
    (errors : List PyError) : List (String × JsonValue) :=
  let pending := attempted.filter fun sessionId => sessionId ∉ verified
  let cleanup := Dict.insert "deleted" (.bool (!verified.isEmpty && errors.isEmpty)) cleanup
  let cleanup := match errors with
    | error :: _ => Dict.insert "error" (.str error.message) cleanup
    | [] => Dict.remove "error" cleanup
  let cleanup := if pending.isEmpty then Dict.remove "sessions" cleanup
    else Dict.insert "sessions" (.arr (pending.map .str)) cleanup
  if !verified.isEmpty && (verified.length > 1 || !errors.isEmpty) then
    Dict.insert "verified" (.arr (verified.map .str)) cleanup
  else Dict.remove "verified" cleanup

/-- `cleanup_created_worker_sessions`: the worker with its new cleanup record, and the first
error. -/
def cleanupCreatedWorkerSessions (worker : WorkerRecord) (sessionIds : List String) :
    Command (WorkerRecord × Option PyError) := do
  let (verified, errors) ←
    cleanupDisposableSessions (.cleaning worker.id.value) sessionIds
  return ({ worker with
    cleanup := some (.obj
      (cleanupRecord worker.ensuredCleanup sessionIds verified errors)) }, errors.head?)

/-- `CreatedWorkerCleanupExecutor.cleanup`: the run after the steps, and the first error. -/
def cleanup : Run → List (String × List String) → Command (Run × Option PyError)
  | run, [] => return (run, none)
  | run, (workerId, sessionIds) :: rest =>
    match run.workers.get? workerId with
    | none => cleanup run rest
    | some worker => do
      let (worker, error) ← cleanupCreatedWorkerSessions worker sessionIds
      let run ← Command.persist (.cleaning workerId)
        (.applyTransitions [worker.cleanupUpdatedTransition])
      let (run, laterError) ← cleanup run rest
      return (run, error.orElse fun _ => laterError)

end SessionCleanup

end OpencodeSession
