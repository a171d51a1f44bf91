import Mathlib.Tactic.SplitIfs
import OpencodeSession.Json
import OpencodeSession.Worker.Lifecycle

/-!
# Worker records

The hydrated worker, with the fields the field specification gives it and the types its schema
annotations name.  A field that may be absent from the persisted snapshot is an `Option`.  The
identifier is a non-empty text by its own type, as the canonical form of the field requires, so no
function below checks it again.

The attempts and the cleanup, abort and result records stay JSON, because the code reads and
rewrites them as dictionaries.
-/

namespace OpencodeSession

/-- A canonical worker identifier: a non-empty text. -/
structure WorkerId where
  value : String
  nonempty : value ≠ ""
  deriving DecidableEq

namespace WorkerId

lemma nonempty_a : "a" ≠ "" := by decide

lemma nonempty_b : "b" ≠ "" := by decide

lemma nonempty_worker : "worker" ≠ "" := by decide

end WorkerId

/-- The identifier a text is, if it is one. -/
def WorkerId.ofString? (text : String) : Option WorkerId :=
  if h : text ≠ "" then some ⟨text, h⟩ else none

@[ext] lemma WorkerId.ext {i j : WorkerId} (h : i.value = j.value) : i = j := by
  cases i
  cases j
  cases h
  rfl

/-- A canonical time-out: a positive finite number `mantissa * 2 ^ exponent` of seconds, with the
text it is printed as. -/
structure TimeoutSeconds where
  mantissa : Nat
  exponent : Int
  text : String
  positive : 0 < mantissa

/-- A time-out of a whole number of seconds. -/
def TimeoutSeconds.ofNat (n : Nat) (positive : 0 < n) : TimeoutSeconds :=
  ⟨n, 0, toString n, positive⟩

/-- `WorkerRecord`. -/
structure WorkerRecord where
  id : WorkerId
  role : Option String := none
  sessionId : Option String := none
  agent : Option String := none
  model : Option String := none
  dependencies : List String := []
  promptIds : List String := []
  retryCount : Int := 0
  retryLimit : Int := 0
  retryableFailures : List String := []
  timeoutSeconds : Option TimeoutSeconds := none
  timeoutPolicy : TimeoutPolicy := .timeout
  timeoutStartedAt : JsonValue := .null
  timedOutAt : JsonValue := .null
  lifecycleState : LifecycleState := .queued
  failureCategory : Option String := none
  failureReason : Option String := none
  lastFailureCategory : Option String := none
  lastFailureReason : Option String := none
  blockers : List String := []
  outputRefs : List String := []
  prompt : Option String := none
  error : Option String := none
  failureRetryable : Option Bool := none
  manualRetryRequired : Option Bool := none
  cleanup : Option JsonValue := none
  abort : Option JsonValue := none
  attempts : Option (List JsonValue) := none
  result : Option JsonValue := none

namespace WorkerRecord

/-- `default_worker_record`. -/
def default (workerId : WorkerId) : WorkerRecord := { id := workerId }

/-- The public status of a worker. -/
def status (worker : WorkerRecord) : WorkerStatus := worker.lifecycleState.status

/-- `has_prompt`: a prompt that is not empty. -/
def hasPrompt (worker : WorkerRecord) : Bool :=
  match worker.prompt with
  | some prompt => prompt ≠ ""
  | none => false

/-- `is_executable_worker`. -/
def isExecutable (worker : WorkerRecord) : Bool :=
  worker.hasPrompt && worker.lifecycleState.executable

/-- `is_dependency_blockable_worker`. -/
def isDependencyBlockable (worker : WorkerRecord) : Bool :=
  worker.hasPrompt && worker.status.isDependencyBlockable

/-- `failure_category or last_failure_category`. -/
def currentFailureCategory (worker : WorkerRecord) : Option String :=
  match worker.failureCategory with
  | some category => if category ≠ "" then some category else worker.lastFailureCategory
  | none => worker.lastFailureCategory

/-- `retry_available`: whether a failure of the category, or of the current one, may be retried. -/
def retryAvailable (worker : WorkerRecord) (category : Option String := none) : Bool :=
  if worker.failureRetryable = some false then false
  else if worker.retryableFailures.isEmpty then false
  else
    let category := if category.isNone then worker.currentFailureCategory else category
    if (category.getD "" ≠ "" ∧ category.getD "" ∉ worker.retryableFailures) ∧
        "all" ∉ worker.retryableFailures then false
    else worker.retryCount < worker.retryLimit

/-- `latest_prompt_ids_are_retry_marker`. -/
def promptIdsAreRetryMarker (worker : WorkerRecord) : Bool :=
  worker.lifecycleState = .activeRetry ∧ worker.lastFailureCategory.isSome

/-! ## Attempts -/

/-- The attempts, an absent list counting as an empty one. -/
def attemptList (worker : WorkerRecord) : List JsonValue := worker.attempts.getD []

/-- The identifier of the attempt that would be started next. -/
def nextAttemptId (worker : WorkerRecord) : String :=
  s!"attempt-{worker.attemptList.length + 1}"

/-- `new_attempt_record`. -/
def newAttemptRecord (worker : WorkerRecord) (startedAt : String)
    (createdSessionIds : List String) : JsonValue :=
  .obj [("id", .str worker.nextAttemptId),
    ("session_id", .ofOption worker.sessionId),
    ("created_session_ids", .arr (createdSessionIds.map .str)),
    ("status", .str "active"),
    ("started_at", .str startedAt),
    ("finished_at", .null)]

/-- `append_attempt`: an attempt whose identifier is there already is dropped. -/
def appendAttempt (worker : WorkerRecord) (attempt : JsonValue) : WorkerRecord :=
  if !attempt.truthy then worker
  else if worker.attemptList.any fun existing =>
      existing.isObj && (existing.get "id").pyEq (attempt.get "id") then worker
  else { worker with attempts := some (worker.attemptList ++ [attempt]) }

/-- What `finalize_attempt` makes of one attempt. -/
def finalizeOne (attemptId : JsonValue) (fields : List (String × JsonValue))
    (attempt : JsonValue) : JsonValue :=
  if attempt.isObj && (attempt.get "id").pyEq attemptId then
    .obj (Dict.update attempt.fields fields)
  else attempt

/-- `finalize_attempt`: update the attempts with the identifier, if there is one. -/
def finalizeAttempt (worker : WorkerRecord) (attemptId : JsonValue)
    (fields : List (String × JsonValue)) : WorkerRecord :=
  if attemptId.truthy && worker.attemptList.any fun attempt =>
      attempt.isObj && (attempt.get "id").pyEq attemptId then
    { worker with attempts := some (worker.attemptList.map (finalizeOne attemptId fields)) }
  else worker

/-! ## Prompts and sessions -/

/-- `remember_prompt_id` of a non-empty identifier. -/
def rememberPromptId (worker : WorkerRecord) (promptId : String) : WorkerRecord :=
  if promptId ∈ worker.promptIds then worker
  else { worker with promptIds := worker.promptIds ++ [promptId] }

/-- `set_session`. -/
def setSession (worker : WorkerRecord) (sessionId agent model : Option String) : WorkerRecord :=
  { worker with
    sessionId := sessionId
    agent := agent.orElse fun _ => worker.agent
    model := model.orElse fun _ => worker.model }

/-- The dictionary `ensure_cleanup` leaves in the cleanup field. -/
def ensuredCleanup (worker : WorkerRecord) : List (String × JsonValue) :=
  match worker.cleanup with
  | some (.obj fields) => fields
  | _ => [("requested", .bool true), ("deleted", .bool false)]

/-- The sessions of a cleanup dictionary with one more session. -/
def withCleanupSession (cleanup : List (String × JsonValue)) (sessionId : String) :
    List JsonValue :=
  let sessions := match Dict.lookup "sessions" cleanup with
    | some (.arr sessions) => sessions
    | _ => []
  if sessionId ≠ "" ∧ !(sessions.any fun session => session.pyEq (.str sessionId)) then
    sessions ++ [.str sessionId]
  else sessions

/-- `remember_session_for_cleanup`. -/
def rememberSessionForCleanup (worker : WorkerRecord) (sessionId : String) : WorkerRecord :=
  let cleanup := Dict.insert "deleted" (.bool false)
    (Dict.insert "requested" (.bool true) worker.ensuredCleanup)
  { worker with
    cleanup := some (.obj
      (Dict.insert "sessions" (.arr (withCleanupSession cleanup sessionId)) cleanup)) }

/-! ## Aborts -/

/-- `_abort_is_accepted`. -/
def abortIsAccepted (abort : Option JsonValue) : Bool :=
  match abort with
  | some abort => abort.isObj && (abort.get "accepted").truthy
  | none => false

/-- `_accepted_abort`: the abort of the worker was accepted and the worker is aborted. -/
def acceptedAbort (worker : WorkerRecord) : Bool :=
  abortIsAccepted worker.abort && worker.status = .aborted

/-! ## Facts -/

lemma isExecutable_iff {worker : WorkerRecord} :
    worker.isExecutable = true ↔
      worker.hasPrompt = true ∧ worker.lifecycleState.executable = true := by
  simp [isExecutable]

lemma isDependencyBlockable_iff {worker : WorkerRecord} :
    worker.isDependencyBlockable = true ↔
      worker.hasPrompt = true ∧
        worker.lifecycleState ∈ [LifecycleState.queued, .activeWait, .activeRetry] := by
  have hstate : worker.status.isDependencyBlockable = true ↔
      worker.lifecycleState ∈ [LifecycleState.queued, .activeWait, .activeRetry] := by
    unfold status
    cases worker.lifecycleState <;> decide
  simp [isDependencyBlockable, hstate]

lemma acceptedAbort_iff {worker : WorkerRecord} :
    worker.acceptedAbort = true ↔
      abortIsAccepted worker.abort = true ∧ worker.lifecycleState.status = .aborted := by
  rw [acceptedAbort, Bool.and_eq_true, decide_eq_true_iff]
  rfl

lemma not_isExecutable_of_acceptedAbort {worker : WorkerRecord}
    (h : worker.acceptedAbort = true) : worker.isExecutable = false := by
  have hstatus := (acceptedAbort_iff.1 h).2
  have hexec : worker.lifecycleState.executable = false := by
    revert hstatus
    cases worker.lifecycleState <;> decide
  simp [isExecutable, hexec]

lemma retryCount_lt_of_retryAvailable {worker : WorkerRecord} {category : Option String}
    (h : worker.retryAvailable category = true) : worker.retryCount < worker.retryLimit := by
  simp only [retryAvailable] at h
  split_ifs at h <;> exact of_decide_eq_true h

end WorkerRecord

end OpencodeSession
