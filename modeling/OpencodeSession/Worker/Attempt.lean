import OpencodeSession.Framework.Calendar
import OpencodeSession.Framework.Rounding
import OpencodeSession.Worker.Transition

/-!
# Attempts

What one attempt of a worker comes to.  An exception of the executor is classified into a failure
category or propagates; the policy turns the outcome into a transition; and the transition carries
the finalisation of the attempt record.  The recovery of stale attempts goes through the same
policy, as a time-out that happened while nobody watched.

The policy reads the clock only for a time-out.  Its readings are arguments here, and the process
that applies the policy makes the request.
-/

namespace OpencodeSession

/-! ## Transitions made of a worker -/

/-- `_filtered_prompt_ids`. -/
def filteredPromptIds (promptIds : List (Option String)) : List String :=
  promptIds.filterMap id

namespace WorkerRecord

variable (worker : WorkerRecord)

/-- `WorkerTransition.provisioned`. -/
def provisionedTransition : WorkerTransition where
  workerId := worker.id
  payload := .provisioned worker.sessionId worker.agent worker.model

/-- `WorkerTransition.cleanup_updated`. -/
def cleanupUpdatedTransition : WorkerTransition where
  workerId := worker.id
  payload := .cleanupUpdated worker.cleanup

/-- `mark_worker_active` with a clock, which is read only for a worker with a time-out. -/
def markActive (now : String) : WorkerTransition where
  workerId := worker.id
  payload := .active (some (if worker.timeoutSeconds.isSome then .str now else .null))
    worker.promptIdsAreRetryMarker

/-- `_timeout_started_at_or_unset`. -/
def timeoutStartedAtOrUnset : Option JsonValue := some worker.timeoutStartedAt

/-- `mark_worker_failed`. -/
def markFailed (category reason : String) (retryable : Bool := true)
    (promptIds : List (Option String) := []) : WorkerTransition where
  workerId := worker.id
  payload := .failed category reason retryable (worker.retryAvailable (some category))
    worker.timeoutStartedAtOrUnset (filteredPromptIds promptIds)

/-- `mark_dependency_blocked`. -/
def markDependencyBlocked (blockers : List String) : WorkerTransition where
  workerId := worker.id
  payload := .dependencyBlocked blockers

/-- `mark_worker_aborted`. -/
def markAborted (abort : JsonValue) : WorkerTransition where
  workerId := worker.id
  payload := .aborted abort

/-- `schedule_worker_retry`. -/
def scheduleRetry (category reason : String) (promptIds : List (Option String) := []) :
    Option WorkerTransition :=
  if worker.retryAvailable (some category) then
    some
      { workerId := worker.id
        payload := .retryScheduled category reason (worker.retryCount + 1)
          worker.timeoutStartedAtOrUnset (filteredPromptIds promptIds) }
  else none

/-- `worker_timeout_reason`. -/
def timeoutReason : String :=
  match worker.timeoutSeconds with
  | some timeout => s!"worker timed out after {timeout.text}s"
  | none => "worker timed out after Nones"

/-- `mark_worker_timeout`. -/
def markTimeout (reason now : String) (manualRetryRequired : Bool) : WorkerTransition where
  workerId := worker.id
  payload := .timedOut reason worker.timeoutPolicy (.str now)
    (worker.retryAvailable (some "timeout")) manualRetryRequired worker.timeoutStartedAtOrUnset

/-- `apply_worker_result`. -/
def applyResult (result : ExecutionResult) (promptIds : List (Option String)) :
    WorkerTransition where
  workerId := worker.id
  payload := .resultApplied result (filteredPromptIds promptIds) worker.timeoutStartedAtOrUnset

end WorkerRecord

/-! ## The attempt policy -/

/-- The categories that the classification gives to a failed attempt. -/
inductive FailureCategory where
  | timeout | api | provider
  deriving DecidableEq

/-- The word of a category. -/
def FailureCategory.name : FailureCategory → String
  | timeout => "timeout"
  | api => "api"
  | provider => "provider"

/-- `WorkerAttemptOutcome`. -/
inductive WorkerAttemptOutcome where
  | completed (result : ExecutionResult)
  | failed (category : FailureCategory) (reason : String) (promptId : Option String)

/-- Whether the policy reads the clock for an outcome. -/
def WorkerAttemptOutcome.isTimeout : WorkerAttemptOutcome → Bool
  | failed .timeout _ _ => true
  | _ => false

/-- The kinds of an applied attempt. -/
inductive AttemptKind where
  | completed | retryScheduled | terminalFailure
  deriving DecidableEq

/-- `WorkerAttemptTransition`. -/
structure WorkerAttemptTransition where
  kind : AttemptKind
  error : Option String := none
  failureCategory : Option FailureCategory := none
  workerTransition : WorkerTransition

/-- `classify_worker_attempt_exception`: none for an exception that propagates. -/
def classifyWorkerAttemptException (worker : WorkerRecord) :
    PyError → Option WorkerAttemptOutcome
  | .blockingExecutionTimeout message promptId abortError =>
    let reason := if worker.timeoutSeconds.isSome then worker.timeoutReason else message
    let reason := match abortError with
      | some abortError =>
        if worker.timeoutSeconds.isSome ∧ abortError ≠ "" then
          s!"{reason}; session abort failed: {abortError}"
        else reason
      | none => reason
    some (.failed .timeout reason promptId)
  | .workerExecutionTimeout promptId => some (.failed .timeout worker.timeoutReason promptId)
  | .openCodeApiTimeout message => some (.failed .timeout message none)
  | .openCodeApi message _ _ _ => some (.failed .api message none)
  | .blockingProviderFailure message promptId => some (.failed .provider message promptId)
  | _ => none

/-- `_apply_completed_attempt`. -/
def applyCompletedAttempt (worker : WorkerRecord) (result : ExecutionResult) :
    WorkerAttemptTransition where
  kind := .completed
  workerTransition := worker.applyResult result [result.userMessageId]

/-- `_apply_timeout_attempt_failure`. -/
def applyTimeoutAttemptFailure (worker : WorkerRecord) (reason now : String) :
    WorkerAttemptTransition :=
  let manualRetryAvailable := worker.retryAvailable (some "timeout")
  { kind := .terminalFailure
    error := some (if manualRetryAvailable then
        s!"{reason}; automatic timeout retry skipped because the timed-out request may still be running"
      else reason)
    failureCategory := some .timeout
    workerTransition := worker.markTimeout reason now manualRetryAvailable }

/-- `_apply_retryable_attempt_failure`. -/
def applyRetryableAttemptFailure (worker : WorkerRecord) (category : FailureCategory)
    (reason errorPrefix : String) (promptIds : List (Option String)) : WorkerAttemptTransition :=
  match worker.scheduleRetry category.name reason promptIds with
  | some transition =>
    { kind := .retryScheduled
      failureCategory := some category
      workerTransition := transition }
  | none =>
    { kind := .terminalFailure
      error := some s!"{errorPrefix}: {reason}"
      failureCategory := some category
      workerTransition := worker.markFailed category.name reason true promptIds }

/-- `apply_worker_attempt_transition`. -/
def applyWorkerAttemptTransition (worker : WorkerRecord) (attempt : WorkerAttemptOutcome)
    (now : String) : WorkerAttemptTransition :=
  match attempt with
  | .completed result => applyCompletedAttempt worker result
  | .failed .timeout reason _ => applyTimeoutAttemptFailure worker reason now
  | .failed .api reason _ => applyRetryableAttemptFailure worker .api reason "api failure" []
  | .failed .provider reason promptId =>
    applyRetryableAttemptFailure worker .provider reason "provider failure" [promptId]

/-! ## The finalisation of an attempt -/

/-- A field that is there only with a value. -/
def optionalField (name : String) (value : Option String) : List (String × JsonValue) :=
  match value with
  | some value => [(name, .str value)]
  | none => []

/-- `_attempt_status`. -/
def AttemptKind.statusName : AttemptKind → String
  | completed => "completed"
  | retryScheduled => "retry_scheduled"
  | terminalFailure => "failed"

/-- The error and the category of a transition, as far as it has them. -/
def WorkerAttemptTransition.failureFields (transition : WorkerAttemptTransition) :
    List (String × JsonValue) :=
  optionalField "error" transition.error ++
    optionalField "failure_category" (transition.failureCategory.map FailureCategory.name)

/-- `_attempt_finalization_fields`.  Only a completed attempt has a result, and only a failed one a
prompt identifier of its own, so no field is set twice. -/
def attemptFinalizationFields (transition : WorkerAttemptTransition)
    (attempt : WorkerAttemptOutcome) (finishedAt : String) : List (String × JsonValue) :=
  [("status", .str transition.kind.statusName), ("finished_at", .str finishedAt)] ++
    transition.failureFields ++
    (match attempt with
      | .completed result =>
        ("result_status", .str result.status) ::
          (optionalField "user_message_id" result.userMessageId ++
            optionalField "assistant_message_id" result.assistantMessageId)
      | .failed _ _ promptId => optionalField "user_message_id" promptId)

/-! ## Instants -/

/-- Reading a text as `datetime.fromisoformat` does, where `none` is a `ValueError`.  Which texts
are read differs between versions. -/
structure Datetime where
  fromIsoformat : String → Option Calendar.Timestamp

/-- The texts of the standard format, with or without the difference of their clock. -/
def Datetime.standard : Datetime where
  fromIsoformat text := Calendar.Timestamp.ofChars? text.toList

/-- `utc_now`, at a second of the calendar. -/
def utcNow (second : Nat) (h : second < 86400 * Calendar.days) : String :=
  String.ofList (Calendar.Timestamp.chars second h ++ ['Z'])

/-- The microseconds that `timedelta` makes of a fraction of a second: the product of two floating
point numbers, so 53 significant bits above `2 ^ -1074`.  Numerator and product are in units of
`2 ^ -places`. -/
def fractionMicros (places numerator : Nat) : Nat :=
  Rounding.significant 53 (places - 1074) (numerator * 10 ^ 6)

/-- A time-out in microseconds, as `timedelta` rounds it.  Whole seconds are counted exactly.  What
a floating point number has beyond them is multiplied as such numbers are, and only the sum is
rounded to a whole number. -/
def TimeoutSeconds.micros (timeout : TimeoutSeconds) : Nat :=
  if 0 ≤ timeout.exponent then timeout.mantissa * 2 ^ timeout.exponent.toNat * 10 ^ 6
  else
    let places := (-timeout.exponent).toNat
    let whole := timeout.mantissa / 2 ^ places
    let fraction := timeout.mantissa % 2 ^ places
    Rounding.halfEven (whole * 10 ^ 6 * 2 ^ places + fractionMicros places fraction) (2 ^ places)

/-- `timedelta(seconds=timeout_seconds)`, in microseconds. -/
def TimeoutSeconds.timedelta (timeout : TimeoutSeconds) : Except PyError Nat :=
  let days := timeout.micros / Calendar.dayMicros
  if 2 ^ 31 ≤ days then .error (.overflowError "Python int too large to convert to C int")
  else if 999999999 < days then
    .error (.overflowError s!"days={days}; must have magnitude <= 999999999")
  else .ok timeout.micros

/-- An instant that was computed, or the error of one outside of the calendar. -/
def orOutOfRange (instant : Option Calendar.Instant) : Except PyError Calendar.Instant :=
  match instant with
  | some instant => .ok instant
  | none => .error (.overflowError "date value out of range")

/-- The sum of an instant and a duration in microseconds. -/
def addDuration (instant : Calendar.Instant) (duration : Nat) : Except PyError Calendar.Instant :=
  orOutOfRange (instant.add? duration)

section Instants

variable (datetime : Datetime)

/-- The timestamp that `_parse_instant` reads in a value. -/
def readTimestamp (value : JsonValue) : Option Calendar.Timestamp :=
  match value with
  | .str text =>
    let text := strip text.toList
    if text.isEmpty then none
    else if text.getLast? = some 'Z' then
      datetime.fromIsoformat (String.ofList (text.dropLast ++ "+00:00".toList))
    else datetime.fromIsoformat (String.ofList text)
  | _ => none

/-- `_parse_instant`: a timestamp is moved to universal time, which can leave the calendar. -/
def parseInstant (value : JsonValue) : Except PyError (Option Calendar.Instant) :=
  match readTimestamp datetime value with
  | none => .ok none
  | some timestamp => some <$> orOutOfRange timestamp.utc?

end Instants

/-! ## Stale attempts -/

/-- `ActiveAttemptRecovery`. -/
structure ActiveAttemptRecovery where
  error : Option String
  transition : WorkerTransition

section Recovery

variable (datetime : Datetime)

/-- `_recoverable_active_attempt`: the last attempt that is still running. -/
def recoverableActiveAttempt (worker : WorkerRecord) : Option JsonValue :=
  if worker.lifecycleState = .activeWait then
    worker.attemptList.reverse.find? fun attempt =>
      attempt.isObj && (attempt.get "id").truthy &&
        (attempt.get "status").pyEq (.str "active") && !(attempt.get "finished_at").truthy
  else none

/-- When an attempt started: what the worker shows, else what the attempt does. -/
def attemptStartedAt (worker : WorkerRecord) (attempt : JsonValue) :
    Except PyError (Option Calendar.Instant) := do
  match ← parseInstant datetime worker.timeoutStartedAt with
  | some startedAt => return some startedAt
  | none => parseInstant datetime (attempt.get "started_at")

/-- `_active_attempt_lease_expired`. -/
def activeAttemptLeaseExpired (worker : WorkerRecord) (attempt : JsonValue)
    (nowInstant : Option Calendar.Instant) : Except PyError Bool :=
  match worker.timeoutSeconds, nowInstant with
  | some timeoutSeconds, some nowInstant => do
    match ← attemptStartedAt datetime worker attempt with
    | none => return true
    | some startedAt =>
      let duration ← timeoutSeconds.timedelta
      let expiresAt ← addDuration startedAt duration
      return expiresAt.micros ≤ nowInstant.micros
  | _, _ => .ok false

/-- `_timeout_active_attempt`. -/
def timeoutActiveAttempt (worker : WorkerRecord) (attempt : JsonValue) (nowValue : String) :
    ActiveAttemptRecovery :=
  let transition := applyWorkerAttemptTransition worker
    (.failed .timeout worker.timeoutReason none) nowValue
  { error := transition.error
    transition := transition.workerTransition.withFinalizedAttempt (attempt.get "id")
      ([("status", .str "failed"), ("finished_at", .str nowValue)] ++
        transition.failureFields) }

/-- What recovery does about one worker. -/
def recoverWorker (nowValue : String) (nowInstant : Option Calendar.Instant)
    (worker : WorkerRecord) : Except PyError (Option ActiveAttemptRecovery) :=
  match recoverableActiveAttempt worker with
  | none => .ok none
  | some attempt => do
    let expired ← activeAttemptLeaseExpired datetime worker attempt nowInstant
    return if expired then some (timeoutActiveAttempt worker attempt nowValue) else none

/-- `recover_expired_active_attempts`, of the workers in the order of their identifiers. -/
def recoverExpiredActiveAttempts (workers : List WorkerRecord) (nowValue : String) :
    Except PyError (List ActiveAttemptRecovery) := do
  let nowInstant ← parseInstant datetime (.str nowValue)
  let recoveries ← workers.mapM (recoverWorker datetime nowValue nowInstant)
  return recoveries.filterMap id

end Recovery

end OpencodeSession
