import OpencodeSession.Run.RemoteJournal
import OpencodeSession.Worker.Attempt

/-!
# Mutations of a run

The mutators that the commands hand to `update_run`, as data: `RunMutation` names what a mutator
was made from and `RunMutation.apply` is what it does to the latest record.  A mutator may read the
clock and may raise; when it raises nothing is written.
-/

namespace OpencodeSession

/-! ## Requests -/

/-- `DependencyOrderedSerialRunStartRequest`, with the directory as resolved. -/
structure StartRequest where
  workerId : String := "worker"
  role : String := "worker"
  directory : Option String := none
  serverUrl : Option String := none
  sessionId : Option String := none
  agent : Option String := none
  model : Option String := none
  executionPolicy : String := "fail_fast"
  cleanup : Bool := false

/-- The changes of `upsert_worker`, an absent one being `none`. -/
structure WorkerChanges where
  role : Option String := none
  sessionId : Option String := none
  agent : Option String := none
  model : Option String := none
  dependencies : Option (List String) := none
  promptIds : Option (List String) := none
  retryCount : Option Int := none
  retryLimit : Option Int := none
  retryableFailures : Option (List String) := none
  timeoutSeconds : Option TimeoutSeconds := none
  timeoutPolicy : Option TimeoutPolicy := none
  lifecycleState : Option LifecycleState := none
  blockers : Option (List String) := none
  outputRefs : Option (List String) := none
  prompt : Option String := none

/-- The statuses an operator may set. -/
inductive ManualStatus where
  | active | blocked
  deriving DecidableEq

/-! ## Aborts -/

/-- `bool_value`. -/
def boolValue : JsonValue → Option Bool
  | .bool b => some b
  | .str s =>
    let lowered := String.ofList (s.toList.flatMap lowerChar)
    if lowered ∈ ["true", "yes", "1", "accepted", "aborted", "ok", "success"] then some true
    else if lowered ∈ ["false", "no", "0", "rejected", "failed", "error"] then some false
    else none
  | _ => none

/-- `first_present`. -/
def firstPresent (mapping : JsonValue) (names : List String) : JsonValue :=
  ((names.map mapping.get).find? fun value => !value.isNull).getD .null

/-- The status words that accept an abort, and those that refuse it. -/
def abortStatusAccepts (status : JsonValue) : Option Bool :=
  match status with
  | .str s =>
    let lowered := String.ofList (s.toList.flatMap lowerChar)
    if lowered ∈ ["accepted", "aborting", "abort", "aborted", "cancelled", "canceled"] then
      some true
    else if lowered ∈ ["denied", "error", "failed", "not_accepted", "rejected", "unsupported"] then
      some false
    else none
  | _ => none

/-- `short_status` of a JSON value.  A value that is not a text is none of the words, and what it
would be printed as is left out. -/
def shortStatusValue : JsonValue → JsonValue
  | .str s => .str (shortStatus s)
  | _ => .null

/-- `abort_record`: an abort that is not refused counts as accepted. -/
def abortRecord (sessionId : String) (data : JsonValue) : JsonValue :=
  let data := match data with
    | .bool b => .obj [("accepted", .bool b)]
    | .obj fields => .obj fields
    | _ => .obj []
  let rawStatus := firstPresent data ["status", "state"]
  let accepted := (boolValue (firstPresent data ["accepted", "aborted", "ok", "success"])).orElse
    fun _ => abortStatusAccepts rawStatus
  let reported := firstPresent data ["sessionID", "sessionId", "session_id", "id"]
  .obj [("session_id", if reported.truthy then reported else .str sessionId),
    ("accepted", .bool (accepted.getD true)),
    ("status", shortStatusValue rawStatus),
    ("raw_status", rawStatus),
    ("response", data)]

/-! ## The records of the transactions -/

/-- How the transactions of the commands make their intent. -/
inductive IntentFactory where
  /-- `_worker_session_creation_intent` for a worker in hand. -/
  | workerSessionCreate (entryId : String) (workerId : WorkerId) (agent model : Option String)
      (cleanupRequested : Bool)
  /-- `_abort_worker_intent` of `abort_worker`. -/
  | abortWorker (entryId workerId : String)

/-- The updates of the run that the transactions of the commands carry. -/
inductive RunUpdate where
  /-- `_apply_created_worker_session`. -/
  | createdWorkerSession (workerId : WorkerId) (sessionId : String) (cleanupRequested : Bool)
      (agent model : Option String)
  /-- `_apply_abort_worker`. -/
  | abortWorker (workerId sessionId : String) (response : JsonValue)

/-- `WORKER_SESSION_CREATE_KIND`. -/
def workerSessionCreateKind : String := "worker_session_create"

lemma workerSessionCreateKind_nonempty : workerSessionCreateKind ≠ "" := by decide

/-- `ABORT_WORKER_KIND`. -/
def abortWorkerKind : String := "abort_worker"

lemma abortWorkerKind_nonempty : abortWorkerKind ≠ "" := by decide

/-- A field that is there only with a value. -/
def presentField (fields : Dict String JsonValue) (name : String) (value : Option String) :
    Dict String JsonValue :=
  match value with
  | some value => fields.set name (.str value)
  | none => fields

/-- A dictionary of the given fields. -/
def fieldsOf (fields : List (String × JsonValue)) : Dict String JsonValue :=
  fields.foldl (fun dict field => dict.set field.1 field.2) ∅

lemma mem_keys_presentField {fields : Dict String JsonValue} {name key : String}
    {value : Option String} (h : key ∈ (presentField fields name value).keys) :
    key = name ∨ key ∈ fields.keys := by
  cases value with
  | none => exact .inr h
  | some value => exact Dict.mem_keys_set.1 h

/-- Make a record, as `RemoteJournalRecord.__post_init__` allows it for fields whose names are not
reserved. -/
def RemoteJournalRecord.make (id kind : String) (fields : Dict String JsonValue)
    (kindNonempty : kind ≠ "")
    (unreserved : ∀ name ∈ reservedRecordFields, name ∉ fields.keys) :
    Except PyError RemoteJournalRecord :=
  if h : id ≠ "" then .ok ⟨id, kind, fields, h, kindNonempty, unreserved⟩
  else .error (.typeError "remote mutation record id must be a non-empty string")

/-- The fields of an intent to create a session. -/
def workerSessionCreateFields (workerId : WorkerId) (directory : String) (cleanupRequested : Bool)
    (recordedAt : String) (agent model : Option String) : Dict String JsonValue :=
  presentField (presentField
    (fieldsOf [("worker_id", .str workerId.value), ("directory", .str directory),
      ("cleanup_requested", .bool cleanupRequested), ("intent_recorded_at", .str recordedAt)])
    "agent" agent) "model" model

lemma unreserved_workerSessionCreateFields {workerId : WorkerId} {directory recordedAt : String}
    {cleanupRequested : Bool} {agent model : Option String} :
    ∀ name ∈ reservedRecordFields, name ∉ (workerSessionCreateFields workerId directory
      cleanupRequested recordedAt agent model).keys := by
  intro name hname h
  have hkeys : name ∈ ["worker_id", "directory", "cleanup_requested", "intent_recorded_at",
      "agent", "model"] := by
    rcases mem_keys_presentField h with rfl | h
    · decide
    rcases mem_keys_presentField h with rfl | h
    · decide
    have hbase : name ∈ ["worker_id", "directory", "cleanup_requested", "intent_recorded_at"] := h
    simp only [List.mem_cons, List.not_mem_nil, or_false] at hbase ⊢
    tauto
  revert hname hkeys
  simp only [reservedRecordFields, List.mem_cons, List.not_mem_nil, or_false]
  rintro (rfl | rfl | rfl) <;> decide

/-- The record of a created session. -/
def createdSessionFields (workerId : WorkerId) (cleanupRequested : Bool)
    (sessionId createdAt : String) : Dict String JsonValue :=
  fieldsOf [("worker_id", .str workerId.value), ("cleanup_requested", .bool cleanupRequested),
    ("session_id", .str sessionId), ("created_session_ids", .arr [.str sessionId]),
    ("created_at", .str createdAt)]

lemma unreserved_createdSessionFields {workerId : WorkerId} {cleanupRequested : Bool}
    {sessionId createdAt : String} :
    ∀ name ∈ reservedRecordFields,
      name ∉ (createdSessionFields workerId cleanupRequested sessionId createdAt).keys := by
  intro name hname h
  have hkeys : name ∈ ["worker_id", "cleanup_requested", "session_id", "created_session_ids",
      "created_at"] := h
  revert hname hkeys
  simp only [reservedRecordFields, List.mem_cons, List.not_mem_nil, or_false]
  rintro (rfl | rfl | rfl) <;> decide

/-- The fields of an intent to abort a session. -/
def abortWorkerFields (workerId sessionId : String) : Dict String JsonValue :=
  fieldsOf [("worker_id", .str workerId), ("session_id", .str sessionId)]

lemma unreserved_abortWorkerFields {workerId sessionId : String} :
    ∀ name ∈ reservedRecordFields, name ∉ (abortWorkerFields workerId sessionId).keys := by
  intro name hname h
  have hkeys : name ∈ ["worker_id", "session_id"] := h
  revert hname hkeys
  simp only [reservedRecordFields, List.mem_cons, List.not_mem_nil, or_false]
  rintro (rfl | rfl | rfl) <;> decide

/-! ## Mutators -/

namespace Run

/-- `_run_worker_with_session`. -/
def workerWithSession (run : Run) (workerId : String) : Except PyError (WorkerRecord × String) :=
  match run.workers.get? workerId with
  | none => .error (.runStore s!"worker '{workerId}' not found in run '{run.name}'" "missing")
  | some worker =>
    match worker.sessionId with
    | some sessionId =>
      if sessionId ≠ "" then .ok (worker, sessionId)
      else .error (.runStore s!"worker '{workerId}' in run '{run.name}' has no session" "missing")
    | none =>
      .error (.runStore s!"worker '{workerId}' in run '{run.name}' has no session" "missing")

/-- `_ensure_latest_worker`, as a value. -/
def latestWorker (run : Run) (workerId : WorkerId) : WorkerRecord :=
  (run.workers.get? workerId.value).getD (.default workerId)

/-- Store a worker. -/
def setWorker (run : Run) (worker : WorkerRecord) : Run :=
  { run with workers := run.workers.set worker }

/-- The worker a mutator creates under a text, if the text is an identifier. -/
def newWorker (workerId : String) : Except PyError WorkerRecord :=
  match WorkerId.ofString? workerId with
  | some workerId => .ok (.default workerId)
  | none => .error (.valueError "worker id must be a non-empty string")

/-- The worker of a run, or what comes where there is none. -/
def workerOr (run : Run) (workerId : String) (missing : Except PyError WorkerRecord) :
    Except PyError WorkerRecord :=
  match run.workers.get? workerId with
  | some worker => .ok worker
  | none => missing

/-- `apply_worker_transition`. -/
def applyTransition (run : Run) (transition : WorkerTransition) : Except PyError Run := do
  let worker ← (run.latestWorker transition.workerId).applyTransition transition
  return run.setWorker worker

/-- Several transitions, first to last. -/
def applyTransitions (run : Run) (transitions : List WorkerTransition) : Except PyError Run :=
  transitions.foldlM applyTransition run

/-- `apply_dependency_ordered_start_request`. -/
def applyStartRequest (run : Run) (request : StartRequest) : Except PyError Run := do
  let run := { run with
    directory := request.directory.getD run.directory
    serverUrl := request.serverUrl.getD run.serverUrl }
  if request.sessionId.isSome || request.agent.isSome || request.model.isSome then
    -- `ensure_run_worker` fills in the role of a worker that has none
    let worker ← run.workerOr request.workerId (newWorker request.workerId)
    let worker := { worker with
      role := if WorkerRecord.isSet worker.role then worker.role else some request.role }
    return run.setWorker (worker.setSession (request.sessionId.orElse fun _ => worker.sessionId)
      request.agent request.model)
  else return run

/-- `upsert_worker_record`. -/
def upsertWorker (run : Run) (workerId : String) (changes : WorkerChanges) :
    Except PyError Run := do
  let worker ← run.workerOr workerId
    (if WorkerRecord.isSet changes.role then newWorker workerId
    else .error (.runStore
      s!"worker '{workerId}' does not exist; --role is required to create it" "data"))
  return run.setWorker
    { worker with
      role := changes.role.orElse fun _ => worker.role
      sessionId := changes.sessionId.orElse fun _ => worker.sessionId
      agent := changes.agent.orElse fun _ => worker.agent
      model := changes.model.orElse fun _ => worker.model
      dependencies := changes.dependencies.getD worker.dependencies
      promptIds := changes.promptIds.getD worker.promptIds
      retryCount := changes.retryCount.getD worker.retryCount
      retryLimit := changes.retryLimit.getD worker.retryLimit
      retryableFailures := changes.retryableFailures.getD worker.retryableFailures
      timeoutSeconds := changes.timeoutSeconds.orElse fun _ => worker.timeoutSeconds
      timeoutPolicy := changes.timeoutPolicy.getD worker.timeoutPolicy
      lifecycleState := changes.lifecycleState.getD worker.lifecycleState
      blockers := changes.blockers.getD worker.blockers
      outputRefs := changes.outputRefs.getD worker.outputRefs
      prompt := changes.prompt.orElse fun _ => worker.prompt }

/-- The transition of a manual status: a blocked worker needs a blocker. -/
def manualTransition (worker : WorkerRecord) (changes : WorkerChanges) (status : ManualStatus)
    (now : String) : Except PyError WorkerTransition :=
  match status with
  | .active => .ok (worker.markActive now)
  | .blocked =>
    let blockers := (changes.blockers.getD []).filter fun blocker =>
      !(strip blocker.toList).isEmpty
    if blockers.isEmpty then
      .error (.runStore "--status blocked requires at least one --blocker" "data")
    else .ok (worker.markDependencyBlocked blockers)

/-- The mutator of `RunCommandService.upsert_worker` with a status. -/
def upsertWorkerStatus (run : Run) (workerId : String) (changes : WorkerChanges)
    (status : ManualStatus) (now : String) : Except PyError Run := do
  let run ← run.upsertWorker workerId changes
  let worker ← run.workerOr workerId (newWorker workerId)
  let transition ← manualTransition worker changes status now
  let worker ← worker.applyTransition transition
  return run.setWorker worker

/-- `_apply_created_worker_session`. -/
def applyCreatedWorkerSession (run : Run) (workerId : WorkerId) (sessionId : String)
    (cleanupRequested : Bool) (agent model : Option String) : Run :=
  let worker := (run.latestWorker workerId).setSession (some sessionId) agent model
  run.setWorker (if cleanupRequested then worker.rememberSessionForCleanup sessionId else worker)

/-- `_apply_abort_worker`. -/
def applyAbortWorker (run : Run) (workerId sessionId : String) (response : JsonValue) :
    Except PyError Run := do
  let (worker, _) ← run.workerWithSession workerId
  let worker ← worker.applyTransition (worker.markAborted (abortRecord sessionId response))
  return (run.setWorker worker).refreshSummary

end Run

/-- What an intent factory makes of the run it is given. -/
def IntentFactory.intentOf (factory : IntentFactory) (now : String) (run : Run) :
    Except PyError RemoteJournalRecord :=
  match factory with
  | workerSessionCreate entryId workerId agent model cleanupRequested =>
    RemoteJournalRecord.make entryId workerSessionCreateKind
      (workerSessionCreateFields workerId run.directory cleanupRequested now agent model)
      workerSessionCreateKind_nonempty unreserved_workerSessionCreateFields
  | abortWorker entryId workerId => do
    let (_, sessionId) ← run.workerWithSession workerId
    RemoteJournalRecord.make entryId abortWorkerKind (abortWorkerFields workerId sessionId)
      abortWorkerKind_nonempty unreserved_abortWorkerFields

/-- What a run update does. -/
def RunUpdate.apply (update : RunUpdate) (run : Run) : Except PyError Run :=
  match update with
  | createdWorkerSession workerId sessionId cleanupRequested agent model =>
    .ok (run.applyCreatedWorkerSession workerId sessionId cleanupRequested agent model)
  | abortWorker workerId sessionId response => run.applyAbortWorker workerId sessionId response

/-- The updates of the commands leave the journals alone. -/
lemma RunUpdate.journal_apply {update : RunUpdate} {run run' : Run}
    (h : update.apply run = .ok run') (field : JournalField) :
    run'.journal field = run.journal field := by
  cases update with
  | createdWorkerSession workerId sessionId cleanupRequested agent model =>
    cases h
    exact Run.journal_with_workers _
  | abortWorker workerId sessionId response =>
    simp only [apply, Run.applyAbortWorker, bind, Except.bind] at h
    split at h
    · cases h
    · split at h
      · cases h
      · cases h
        rw [Run.journal_refreshSummary]
        exact Run.journal_with_workers _

/-- The transactions of the commands. -/
def journalHandlers : JournalHandlers IntentFactory RunUpdate where
  intentOf := IntentFactory.intentOf
  updateOf := RunUpdate.apply
  journal_updateOf _ _ _ := RunUpdate.journal_apply

/-- The mutators of the commands. -/
inductive RunMutation where
  | applyStartRequest (request : StartRequest)
  | markRunActive
  /-- `persist_worker_transitions`: the transitions and then the summary. -/
  | applyTransitions (transitions : List WorkerTransition)
  /-- `persist_run_summary`. -/
  | refreshSummary
  | journal (field : JournalField) (mutation : JournalMutation IntentFactory RunUpdate)
  | upsertWorker (workerId : String) (changes : WorkerChanges)
  | upsertWorkerStatus (workerId : String) (changes : WorkerChanges) (status : ManualStatus)

/-- What a mutator does to the latest record, or why it raises. -/
def RunMutation.apply (mutation : RunMutation) (now : String) (run : Run) : Except PyError Run :=
  match mutation with
  | applyStartRequest request => run.applyStartRequest request
  | markRunActive => .ok { run with status := "active" }
  | applyTransitions transitions => do
    let run ← run.applyTransitions transitions
    return run.refreshSummary
  | refreshSummary => .ok run.refreshSummary
  | journal field mutation => mutation.apply journalHandlers field now run
  | upsertWorker workerId changes => run.upsertWorker workerId changes
  | upsertWorkerStatus workerId changes status =>
    run.upsertWorkerStatus workerId changes status now

end OpencodeSession
