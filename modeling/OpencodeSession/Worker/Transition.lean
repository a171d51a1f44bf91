import Mathlib.Data.List.Sort
import OpencodeSession.Worker.Record

/-!
# Worker transitions

Eleven named transitions, each with a payload, the lifecycle states it may start from and the
reducer that computes the new worker.  `WorkerRecord.applyTransition` is the one entrance: it
rejects an illegal transition with the reason the program prints, reduces a legal one, and then
lets the accepted-abort rule undo everything but the prompt identifiers of a worker whose abort
was accepted.  A finalisation of an attempt that comes with the transition is applied last, also
to a worker whose abort was accepted.

The program looks the target state up in the table of allowed targets and raises if it is not
there; `targetState_mem` shows that this never happens, so the reducers do not repeat the check.
-/

namespace OpencodeSession

/-- What a blocking execution returns: the status and message identifiers that the worker state
reads, and the other fields of the record, which it only stores. -/
structure ExecutionResult where
  status : String
  userMessageId : Option String := none
  assistantMessageId : Option String := none
  fields : List (String × JsonValue) := []

/-- The record as the dictionary that is stored. -/
def ExecutionResult.toJson (result : ExecutionResult) : JsonValue :=
  .obj ([("status", .str result.status),
    ("message_ids", .obj [("user", .ofOption result.userMessageId),
      ("assistant", .ofOption result.assistantMessageId)])] ++ result.fields)

/-- `WorkerSnapshotTransitionPatch`, as `worker_snapshot_transition_patch` builds it from a
snapshot: the replayed fields, an absent one being `none`, the prompt identifiers, and the session
to set if the worker has none. -/
structure SnapshotPatch where
  retryCount : Int
  timeoutStartedAt : JsonValue
  timedOutAt : JsonValue
  lifecycleState : LifecycleState
  failureCategory : Option String
  failureReason : Option String
  lastFailureCategory : Option String
  lastFailureReason : Option String
  blockers : List String
  outputRefs : List String
  error : Option String
  failureRetryable : Option Bool
  manualRetryRequired : Option Bool
  cleanup : Option JsonValue
  abort : Option JsonValue
  attempts : Option (List JsonValue)
  result : Option JsonValue
  promptIds : List String
  sessionId : Option String

/-- The payloads of the transitions.  A time-out start of `none` is the unset marker. -/
inductive TransitionPayload where
  | provisioned (sessionId agent model : Option String)
  | active (timeoutStartedAt : Option JsonValue) (clearPromptIds : Bool)
  | attemptStarted (attempt : JsonValue)
  | failed (category reason : String) (retryable retryAvailable : Bool)
      (timeoutStartedAt : Option JsonValue) (promptIds : List String)
  | dependencyBlocked (blockers : List String)
  | aborted (abort : JsonValue)
  | retryScheduled (category reason : String) (retryCount : Int)
      (timeoutStartedAt : Option JsonValue) (promptIds : List String)
  | timedOut (reason : String) (status : TimeoutPolicy) (timedOutAt : JsonValue)
      (retryAvailable manualRetryRequired : Bool) (timeoutStartedAt : Option JsonValue)
  | resultApplied (result : ExecutionResult) (promptIds : List String)
      (timeoutStartedAt : Option JsonValue)
  | cleanupUpdated (cleanup : Option JsonValue)
  | snapshotApplied (patch : SnapshotPatch)

/-- The update of one attempt that a transition carries along. -/
structure AttemptFinalization where
  attemptId : JsonValue
  fields : List (String × JsonValue)

/-- `WorkerTransition`. -/
structure WorkerTransition where
  workerId : WorkerId
  payload : TransitionPayload
  attemptFinalization : Option AttemptFinalization := none

namespace WorkerTransition

/-- `with_finalized_attempt`. -/
def withFinalizedAttempt (transition : WorkerTransition) (attemptId : JsonValue)
    (fields : List (String × JsonValue)) : WorkerTransition :=
  { transition with attemptFinalization := some ⟨attemptId, fields⟩ }

@[simp] lemma withFinalizedAttempt_workerId (transition : WorkerTransition)
    (attemptId : JsonValue) (fields : List (String × JsonValue)) :
    (transition.withFinalizedAttempt attemptId fields).workerId = transition.workerId := rfl

@[simp] lemma withFinalizedAttempt_payload (transition : WorkerTransition)
    (attemptId : JsonValue) (fields : List (String × JsonValue)) :
    (transition.withFinalizedAttempt attemptId fields).payload = transition.payload := rfl

end WorkerTransition

namespace TransitionPayload

/-! ## The specification table -/

/-- The name of a transition. -/
def name : TransitionPayload → String
  | provisioned _ _ _ => "provisioned"
  | active _ _ => "active"
  | attemptStarted _ => "attempt_started"
  | failed _ _ _ _ _ _ => "failed"
  | dependencyBlocked _ => "dependency_blocked"
  | aborted _ => "aborted"
  | retryScheduled _ _ _ _ _ => "retry_scheduled"
  | timedOut _ _ _ _ _ _ => "timed_out"
  | resultApplied _ _ _ => "result_applied"
  | cleanupUpdated _ => "cleanup_updated"
  | snapshotApplied _ => "snapshot_applied"

/-- Whether the transition moves the public lifecycle. -/
def publicLifecycleTransition : TransitionPayload → Bool
  | cleanupUpdated _ | snapshotApplied _ => false
  | _ => true

/-- The states the specification lets a transition start from. -/
def specSourceStates : TransitionPayload → List LifecycleState
  | provisioned _ _ _ | failed _ _ _ _ _ _ =>
    [.queued, .activeWait, .activeRetry, .failedRetry, .timeoutRetry, .timeoutFailedRetry]
  | active _ _ =>
    [.queued, .activeWait, .activeRetry, .blockedDependency, .blockedTimeout, .failedRetry,
      .timeoutRetry, .timeoutFailedRetry]
  | attemptStarted _ | timedOut _ _ _ _ _ _ | resultApplied _ _ _ => [.activeWait]
  | dependencyBlocked _ => [.queued, .activeWait, .activeRetry]
  | aborted _ =>
    [.queued, .activeWait, .activeRetry, .blockedDependency, .blockedTimeout, .failedRetry,
      .timeoutRetry, .timeoutFailedRetry, .timeoutAborted, .aborted]
  | retryScheduled _ _ _ _ _ =>
    [.activeWait, .failedRetry, .timeoutRetry, .timeoutFailedRetry]
  | cleanupUpdated _ | snapshotApplied _ => LifecycleState.all

/-- The states the specification lets a transition end in; none for the transitions that leave
the lifecycle alone or take it from a snapshot. -/
def targetStates : TransitionPayload → List LifecycleState
  | active _ _ => [.activeWait]
  | failed _ _ _ _ _ _ => [.failedRetry, .failedTerminal]
  | dependencyBlocked _ => [.blockedDependency]
  | aborted _ => [.aborted]
  | retryScheduled _ _ _ _ _ => [.activeRetry]
  | timedOut _ _ _ _ _ _ =>
    [.blockedTimeout, .timeoutRetry, .timeoutTerminal, .timeoutFailedRetry,
      .timeoutFailedTerminal, .timeoutAborted]
  | resultApplied _ _ _ =>
    [.blockedDependency, .doneCollect, .failedTerminal, .timeoutTerminal, .aborted]
  | provisioned _ _ _ | attemptStarted _ | cleanupUpdated _ | snapshotApplied _ => []

/-- `worker_transition_target_lifecycle_state`. -/
def targetState : TransitionPayload → Option LifecycleState
  | provisioned _ _ _ | attemptStarted _ | cleanupUpdated _ => none
  | active _ _ => some .activeWait
  | failed _ _ retryable retryAvailable _ _ =>
    some (workerFailedLifecycleState retryable retryAvailable)
  | dependencyBlocked _ => some .blockedDependency
  | aborted _ => some .aborted
  | retryScheduled _ _ _ _ _ => some .activeRetry
  | timedOut _ status _ retryAvailable _ _ =>
    some (workerTimeoutLifecycleState status retryAvailable)
  | resultApplied result _ _ => some (workerResultLifecycleState result.status)
  | snapshotApplied patch => some patch.lifecycleState

/-- The states whose transitions can end in a given state, and that state itself:
`worker_snapshot_replay_source_lifecycle_states`. -/
def snapshotReplaySourceStates (target : LifecycleState) : List LifecycleState :=
  LifecycleState.all.filter fun source => source = target ∨
    ([TransitionPayload.active none false, .failed "" "" true true none [], .dependencyBlocked [],
      .aborted .null, .retryScheduled "" "" 0 none [],
      .timedOut "" .timeout .null true true none, .resultApplied { status := "" } [] none].any
        fun payload => source ∈ payload.specSourceStates ∧ target ∈ payload.targetStates)

/-- The states a transition may start from: those of its specification, or of the snapshot. -/
def sourceStates : TransitionPayload → List LifecycleState
  | snapshotApplied patch => snapshotReplaySourceStates patch.lifecycleState
  | payload => payload.specSourceStates

/-- The prompt identifiers a payload carries. -/
def promptIds : TransitionPayload → List String
  | failed _ _ _ _ _ promptIds | retryScheduled _ _ _ _ promptIds | resultApplied _ promptIds _ =>
    promptIds
  | _ => []

end TransitionPayload

namespace WorkerRecord

/-! ## Reducers -/

/-- `_clear_current_status_fields`. -/
def clearCurrentStatusFields (worker : WorkerRecord) : WorkerRecord :=
  { worker with
    blockers := []
    failureCategory := none
    failureReason := none
    error := none
    failureRetryable := none
    manualRetryRequired := none }

/-- `_set_if_not_unset` of the time-out start. -/
def setTimeoutStartedAt (worker : WorkerRecord) (value : Option JsonValue) : WorkerRecord :=
  { worker with timeoutStartedAt := value.getD worker.timeoutStartedAt }

/-- The values of two lists in order, each once. -/
def mergedPromptIds (source added : List String) : List String :=
  (source ++ added).foldl (fun merged value => if value ∈ merged then merged else merged ++ [value])
    []

/-- `_merge_worker_prompt_ids`. -/
def mergePromptIds (worker latest : WorkerRecord) (promptIds : List String)
    (mergeEmpty : Bool := false) : WorkerRecord :=
  if promptIds.isEmpty && !mergeEmpty then worker
  else
    { worker with
      promptIds := mergedPromptIds
        (if latest.promptIdsAreRetryMarker then [] else latest.promptIds) promptIds }

/-- Whether an optional text is there and not empty. -/
def isSet (value : Option String) : Bool := value.getD "" ≠ ""

/-- `_reduce_provisioned_transition`. -/
def reduceProvisioned (latest : WorkerRecord) (workerId : WorkerId)
    (sessionId agent model : Option String) : WorkerRecord :=
  { latest with
    id := workerId
    agent := agent.orElse fun _ => latest.agent
    model := model.orElse fun _ => latest.model
    sessionId := if isSet sessionId && !isSet latest.sessionId then sessionId
      else latest.sessionId }

/-- `_reduce_active_transition`. -/
def reduceActive (latest : WorkerRecord) (workerId : WorkerId)
    (timeoutStartedAt : Option JsonValue) (clearPromptIds : Bool) : WorkerRecord :=
  let worker := { latest.clearCurrentStatusFields with
    id := workerId, lifecycleState := .activeWait }
  let worker := worker.setTimeoutStartedAt timeoutStartedAt
  { worker with promptIds := if clearPromptIds then [] else worker.promptIds }

/-- `_reduce_attempt_started_transition`. -/
def reduceAttemptStarted (latest : WorkerRecord) (attempt : JsonValue) : WorkerRecord :=
  let worker := latest.appendAttempt attempt
  match attempt.get "user_message_id" with
  | .str promptId => if promptId ≠ "" then worker.rememberPromptId promptId else worker
  | _ => worker

/-- `_reduce_failed_transition`. -/
def reduceFailed (latest : WorkerRecord) (workerId : WorkerId) (target : LifecycleState)
    (category reason : String) (retryable : Bool) (timeoutStartedAt : Option JsonValue)
    (promptIds : List String) : WorkerRecord :=
  let worker := { latest with
    id := workerId
    lifecycleState := target
    error := some reason
    failureCategory := some category
    failureReason := some reason
    lastFailureCategory := some category
    lastFailureReason := some reason }
  let worker := worker.setTimeoutStartedAt timeoutStartedAt
  let worker := { worker with
    manualRetryRequired := none
    failureRetryable := if retryable then none else some false }
  worker.mergePromptIds latest promptIds

/-- `_reduce_dependency_blocked_transition`. -/
def reduceDependencyBlocked (latest : WorkerRecord) (workerId : WorkerId)
    (blockers : List String) : WorkerRecord :=
  { latest with id := workerId, lifecycleState := .blockedDependency, blockers := blockers }

/-- `_reduce_aborted_transition`. -/
def reduceAborted (latest : WorkerRecord) (workerId : WorkerId) (abort : JsonValue) :
    WorkerRecord :=
  { latest with
    id := workerId
    abort := some abort
    lifecycleState := if abortIsAccepted (some abort) then .aborted else latest.lifecycleState }

/-- `_reduce_retry_scheduled_transition`. -/
def reduceRetryScheduled (latest : WorkerRecord) (workerId : WorkerId) (category reason : String)
    (retryCount : Int) (timeoutStartedAt : Option JsonValue) (promptIds : List String) :
    WorkerRecord :=
  let worker := { latest.clearCurrentStatusFields with
    id := workerId
    lifecycleState := .activeRetry
    retryCount := retryCount
    lastFailureCategory := some category
    lastFailureReason := some reason }
  (worker.setTimeoutStartedAt timeoutStartedAt).mergePromptIds latest promptIds

/-- `_reduce_timed_out_transition`. -/
def reduceTimedOut (latest : WorkerRecord) (workerId : WorkerId) (target : LifecycleState)
    (reason : String) (status : TimeoutPolicy) (timedOutAt : JsonValue)
    (manualRetryRequired : Bool) (timeoutStartedAt : Option JsonValue) : WorkerRecord :=
  let worker := { latest with
    id := workerId
    lifecycleState := target
    error := some reason
    failureCategory := some "timeout"
    failureReason := some reason
    lastFailureCategory := some "timeout"
    lastFailureReason := some reason
    timedOutAt := timedOutAt
    outputRefs := []
    blockers := if status = TimeoutPolicy.blocked then ["timeout"] else latest.blockers }
  let worker := worker.setTimeoutStartedAt timeoutStartedAt
  { worker with manualRetryRequired := if manualRetryRequired then some true else none }

/-- `_reduce_result_applied_transition`. -/
def reduceResultApplied (latest : WorkerRecord) (workerId : WorkerId) (target : LifecycleState)
    (result : ExecutionResult) (promptIds : List String) (timeoutStartedAt : Option JsonValue) :
    WorkerRecord :=
  let worker := { latest with
    id := workerId, lifecycleState := target, result := some result.toJson }
  let worker := worker.setTimeoutStartedAt timeoutStartedAt
  let worker :=
    if shortStatus result.status = "done" then
      { worker.clearCurrentStatusFields with
        outputRefs := match result.assistantMessageId with
          | some messageId => if messageId ≠ "" then [s!"assistant:{messageId}"] else []
          | none => [] }
    else { worker with failureCategory := none, failureReason := none }
  worker.mergePromptIds latest promptIds

/-- `_reduce_cleanup_updated_transition`: the field is there afterwards, with a null if the payload
has no record. -/
def reduceCleanupUpdated (latest : WorkerRecord) (workerId : WorkerId)
    (cleanup : Option JsonValue) : WorkerRecord :=
  { latest with id := workerId, cleanup := some (cleanup.getD .null) }

/-- `_reduce_snapshot_applied_transition`. -/
def reduceSnapshotApplied (latest : WorkerRecord) (workerId : WorkerId) (patch : SnapshotPatch) :
    WorkerRecord :=
  let worker := { latest with
    id := workerId
    retryCount := patch.retryCount
    timeoutStartedAt := patch.timeoutStartedAt
    timedOutAt := patch.timedOutAt
    lifecycleState := patch.lifecycleState
    failureCategory := patch.failureCategory
    failureReason := patch.failureReason
    lastFailureCategory := patch.lastFailureCategory
    lastFailureReason := patch.lastFailureReason
    blockers := patch.blockers
    outputRefs := patch.outputRefs
    -- the fields a transition may remove follow the snapshot also where it lacks them
    error := patch.error
    failureRetryable := patch.failureRetryable
    manualRetryRequired := patch.manualRetryRequired
    cleanup := patch.cleanup.orElse fun _ => latest.cleanup
    abort := patch.abort.orElse fun _ => latest.abort
    attempts := patch.attempts.orElse fun _ => latest.attempts
    result := patch.result.orElse fun _ => latest.result }
  let worker := worker.mergePromptIds latest patch.promptIds true
  { worker with
    sessionId := if isSet patch.sessionId && !isSet worker.sessionId then patch.sessionId
      else worker.sessionId }

/-- The reducer the specification table names. -/
def reducePayload (latest : WorkerRecord) (workerId : WorkerId) :
    TransitionPayload → WorkerRecord
  | .provisioned sessionId agent model => latest.reduceProvisioned workerId sessionId agent model
  | .active timeoutStartedAt clearPromptIds =>
    latest.reduceActive workerId timeoutStartedAt clearPromptIds
  | .attemptStarted attempt => latest.reduceAttemptStarted attempt
  | .failed category reason retryable retryAvailable timeoutStartedAt promptIds =>
    latest.reduceFailed workerId (workerFailedLifecycleState retryable retryAvailable) category
      reason retryable timeoutStartedAt promptIds
  | .dependencyBlocked blockers => latest.reduceDependencyBlocked workerId blockers
  | .aborted abort => latest.reduceAborted workerId abort
  | .retryScheduled category reason retryCount timeoutStartedAt promptIds =>
    latest.reduceRetryScheduled workerId category reason retryCount timeoutStartedAt promptIds
  | .timedOut reason status timedOutAt retryAvailable manualRetryRequired timeoutStartedAt =>
    latest.reduceTimedOut workerId (workerTimeoutLifecycleState status retryAvailable) reason
      status timedOutAt manualRetryRequired timeoutStartedAt
  | .resultApplied result promptIds timeoutStartedAt =>
    latest.reduceResultApplied workerId (workerResultLifecycleState result.status) result
      promptIds timeoutStartedAt
  | .cleanupUpdated cleanup => latest.reduceCleanupUpdated workerId cleanup
  | .snapshotApplied patch => latest.reduceSnapshotApplied workerId patch

/-! ## The accepted-abort rule -/

/-- `_accepted_abort_transition_keeps_reduced_worker`. -/
def acceptedAbortKeepsReduced : TransitionPayload → Bool
  | .aborted abort => abortIsAccepted (some abort)
  | .cleanupUpdated _ => true
  | .snapshotApplied patch =>
    abortIsAccepted patch.abort && patch.lifecycleState.status = .aborted
  | _ => false

/-- `_apply_accepted_abort_transition_passthrough` on a copy of the latest worker. -/
def acceptedAbortPassthrough (latest : WorkerRecord) : TransitionPayload → WorkerRecord
  | .snapshotApplied patch =>
    { latest with cleanup := patch.cleanup.orElse fun _ => latest.cleanup }.mergePromptIds latest
      patch.promptIds true
  | payload => latest.mergePromptIds latest payload.promptIds

/-- `_accepted_abort_terminal_invariant`. -/
def acceptedAbortTerminalInvariant (latest worker : WorkerRecord) (payload : TransitionPayload) :
    WorkerRecord :=
  if !latest.acceptedAbort then worker
  else if acceptedAbortKeepsReduced payload then worker
  else latest.acceptedAbortPassthrough payload

/-- `_finalize_worker_attempt`. -/
def finalizeWith (worker : WorkerRecord) : Option AttemptFinalization → WorkerRecord
  | some finalization => worker.finalizeAttempt finalization.attemptId finalization.fields
  | none => worker

/-- The worker a legal transition leaves. -/
def reduce (latest : WorkerRecord) (transition : WorkerTransition) : WorkerRecord :=
  (latest.acceptedAbortTerminalInvariant
    (latest.reducePayload transition.workerId transition.payload) transition.payload).finalizeWith
      transition.attemptFinalization

/-! ## Legality -/

/-- `_accepted_abort_terminal_invariant_applies`. -/
def acceptedAbortApplies (latest : WorkerRecord) (payload : TransitionPayload) : Bool :=
  latest.acceptedAbort &&
    (match payload with
      | .snapshotApplied _ => true
      | _ => payload.publicLifecycleTransition)

/-- `worker_transition_is_legal`. -/
def transitionIsLegal (latest : WorkerRecord) (transition : WorkerTransition) : Bool :=
  latest.acceptedAbortApplies transition.payload ||
    latest.lifecycleState ∈ transition.payload.sourceStates

/-- `_illegal_transition_reason`. -/
def illegalTransitionReason (latest : WorkerRecord) (transition : WorkerTransition) : String :=
  let source := latest.lifecycleState.name
  let name := transition.payload.name
  let workerId := transition.workerId.value
  let target := match transition.payload.targetState with
    | some target => s!" to lifecycle_state '{target.name}'"
    | none => ""
  match transition.payload with
  | .snapshotApplied _ =>
    s!"stale snapshot ignored for worker '{workerId}': transition " ++
      s!"'{name}' cannot move from lifecycle_state '{source}'{target}"
  | payload =>
    let allowed := ", ".intercalate
      ((payload.specSourceStates.map LifecycleState.name).insertionSort (· ≤ ·))
    s!"illegal worker transition '{name}' for worker '{workerId}' " ++
      s!"from lifecycle_state '{source}'{target}; allowed source states: {allowed}"

/-- `apply_transition`: an illegal transition raises, except that a stale snapshot is ignored. -/
def applyTransition (latest : WorkerRecord) (transition : WorkerTransition) :
    Except PyError WorkerRecord :=
  if latest.transitionIsLegal transition then .ok (latest.reduce transition)
  else match transition.payload with
    | .snapshotApplied _ => .ok latest
    | _ => .error (.workerTransition (latest.illegalTransitionReason transition))

end WorkerRecord

end OpencodeSession
