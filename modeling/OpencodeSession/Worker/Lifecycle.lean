import Mathlib.Tactic.Lemma
import OpencodeSession.Worker.Status

/-!
# The lifecycle table of a worker

Fourteen lifecycle states, each with the public status and action it shows and the flags that the
scheduler reads.  `LifecycleState.row` is the table; everything else in this module is computed
from it as the program computes it: the statuses that count as terminal or failed, the states that
can be executed or blocked, and the state that a failure, a time-out or a result leads to.
-/

namespace OpencodeSession

/-- The public statuses. -/
inductive WorkerStatus where
  | queued | active | blocked | done | failed | timeout | aborted
  deriving DecidableEq, Repr, Inhabited

/-- The actions of the lifecycle table. -/
inductive WorkerAction where
  | start | wait | retry | resolveBlocker | collect | none
  deriving DecidableEq, Repr, Inhabited

/-- The lifecycle states. -/
inductive LifecycleState where
  | queued
  | activeWait
  | activeRetry
  | blockedDependency
  | blockedTimeout
  | doneCollect
  | failedRetry
  | failedTerminal
  | timeoutRetry
  | timeoutTerminal
  | timeoutFailedRetry
  | timeoutFailedTerminal
  | timeoutAborted
  | aborted
  deriving DecidableEq, Repr, Inhabited

/-- One row of the lifecycle table. -/
structure LifecycleRow where
  status : WorkerStatus
  action : WorkerAction
  retryable : Bool := false
  timeoutOrigin : Bool := false
  statusAlias : Bool := false
  terminalStatus : Bool := false
  failedDependencyStatus : Bool := false
  executable : Bool := false
  statusPriority : Nat := 0
  deriving DecidableEq, Repr

/-- What tells two lifecycle states apart. -/
structure LifecycleDimensions where
  status : WorkerStatus
  action : WorkerAction
  retryable : Bool := false
  timeoutOrigin : Bool := false
  deriving DecidableEq, Repr

/-- The statuses a worker's time-out policy can name. -/
inductive TimeoutPolicy where
  | timeout | blocked | failed | aborted
  deriving DecidableEq, Repr, Inhabited

namespace WorkerStatus

/-- The word of a status. -/
def name : WorkerStatus → String
  | queued => "queued"
  | active => "active"
  | blocked => "blocked"
  | done => "done"
  | failed => "failed"
  | timeout => "timeout"
  | aborted => "aborted"

/-- The status a normalised word names. -/
def ofName? (word : String) : Option WorkerStatus :=
  [queued, active, blocked, done, failed, timeout, aborted].find? fun status => status.name = word

end WorkerStatus

namespace LifecycleState

/-- The states in the order of the table. -/
def all : List LifecycleState :=
  [queued, activeWait, activeRetry, blockedDependency, blockedTimeout, doneCollect, failedRetry,
    failedTerminal, timeoutRetry, timeoutTerminal, timeoutFailedRetry, timeoutFailedTerminal,
    timeoutAborted, aborted]

/-- The word of a state. -/
def name : LifecycleState → String
  | queued => "queued"
  | activeWait => "active_wait"
  | activeRetry => "active_retry"
  | blockedDependency => "blocked_dependency"
  | blockedTimeout => "blocked_timeout"
  | doneCollect => "done_collect"
  | failedRetry => "failed_retry"
  | failedTerminal => "failed_terminal"
  | timeoutRetry => "timeout_retry"
  | timeoutTerminal => "timeout_terminal"
  | timeoutFailedRetry => "timeout_failed_retry"
  | timeoutFailedTerminal => "timeout_failed_terminal"
  | timeoutAborted => "timeout_aborted"
  | aborted => "aborted"

/-- The lifecycle table. -/
def row : LifecycleState → LifecycleRow
  | queued =>
    { status := .queued, action := .start, statusAlias := true, executable := true,
      statusPriority := 0 }
  | activeWait =>
    { status := .active, action := .wait, statusAlias := true, statusPriority := 1 }
  | activeRetry =>
    { status := .active, action := .retry, retryable := true, executable := true,
      statusPriority := 1 }
  | blockedDependency =>
    { status := .blocked, action := .resolveBlocker, statusAlias := true,
      failedDependencyStatus := true, statusPriority := 2 }
  | blockedTimeout =>
    { status := .blocked, action := .resolveBlocker, failedDependencyStatus := true,
      timeoutOrigin := true, statusPriority := 2 }
  | doneCollect =>
    { status := .done, action := .collect, statusAlias := true, terminalStatus := true,
      statusPriority := 3 }
  | failedRetry =>
    { status := .failed, action := .retry, retryable := true, terminalStatus := true,
      failedDependencyStatus := true, executable := true, statusPriority := 6 }
  | failedTerminal =>
    { status := .failed, action := .retry, statusAlias := true, terminalStatus := true,
      failedDependencyStatus := true, statusPriority := 6 }
  | timeoutRetry =>
    { status := .timeout, action := .retry, retryable := true, terminalStatus := true,
      failedDependencyStatus := true, executable := true, timeoutOrigin := true,
      statusPriority := 4 }
  | timeoutTerminal =>
    { status := .timeout, action := .retry, statusAlias := true, terminalStatus := true,
      failedDependencyStatus := true, timeoutOrigin := true, statusPriority := 4 }
  | timeoutFailedRetry =>
    { status := .failed, action := .retry, retryable := true, terminalStatus := true,
      failedDependencyStatus := true, executable := true, timeoutOrigin := true,
      statusPriority := 6 }
  | timeoutFailedTerminal =>
    { status := .failed, action := .retry, terminalStatus := true,
      failedDependencyStatus := true, timeoutOrigin := true, statusPriority := 6 }
  | timeoutAborted =>
    { status := .aborted, action := .none, terminalStatus := true,
      failedDependencyStatus := true, timeoutOrigin := true, statusPriority := 5 }
  | aborted =>
    { status := .aborted, action := .none, statusAlias := true, terminalStatus := true,
      failedDependencyStatus := true, statusPriority := 5 }

/-- The public status of a state: the first part of `public_worker_state`. -/
def status (state : LifecycleState) : WorkerStatus := state.row.status

/-- Whether the planner may execute a worker in this state. -/
def executable (state : LifecycleState) : Bool := state.row.executable

/-- What distinguishes the state. -/
def dimensions (state : LifecycleState) : LifecycleDimensions where
  status := state.row.status
  action := state.row.action
  retryable := state.row.retryable
  timeoutOrigin := state.row.timeoutOrigin

/-- `worker_lifecycle_state_for_dimensions`. -/
def ofDimensions? (dimensions : LifecycleDimensions) : Option LifecycleState :=
  all.find? fun state => state.dimensions = dimensions

/-- `worker_lifecycle_state_for_status_alias`. -/
def ofStatusAlias? (status : WorkerStatus) : Option LifecycleState :=
  all.find? fun state => state.row.statusAlias ∧ state.status = status

lemma mem_all (state : LifecycleState) : state ∈ all := by
  cases state <;> decide

end LifecycleState

namespace WorkerStatus

/-- `is_terminal_status`. -/
def isTerminal (status : WorkerStatus) : Bool :=
  LifecycleState.all.any fun state => state.row.terminalStatus ∧ state.status = status

/-- `is_blocked_status`. -/
def isBlocked (status : WorkerStatus) : Bool := status = .blocked

/-- `is_runnable_status`. -/
def isRunnable (status : WorkerStatus) : Bool := !status.isTerminal && !status.isBlocked

/-- `is_dependency_blockable_status`. -/
def isDependencyBlockable (status : WorkerStatus) : Bool := status.isRunnable

/-- `is_failed_dependency_status`. -/
def isFailedDependency (status : WorkerStatus) : Bool :=
  LifecycleState.all.any fun state => state.row.failedDependencyStatus ∧ state.status = status

/-- `status_priority`. -/
def priority (status : WorkerStatus) : Nat :=
  ((LifecycleState.all.find? fun state => state.status = status).map
    fun state => state.row.statusPriority).getD 0

end WorkerStatus

/-! ## Where outcomes lead -/

namespace TimeoutPolicy

/-- The word of a policy. -/
def name : TimeoutPolicy → String
  | timeout => "timeout"
  | blocked => "blocked"
  | failed => "failed"
  | aborted => "aborted"

end TimeoutPolicy

/-- `WorkerLifecycleDimensions.timeout`. -/
def LifecycleDimensions.timeout (status : TimeoutPolicy) (retryAvailable : Bool) :
    LifecycleDimensions :=
  match status with
  | .blocked => { status := .blocked, action := .resolveBlocker, timeoutOrigin := true }
  | .aborted => { status := .aborted, action := .none, timeoutOrigin := true }
  | .failed =>
    { status := .failed, action := .retry, retryable := retryAvailable, timeoutOrigin := true }
  | .timeout =>
    { status := .timeout, action := .retry, retryable := retryAvailable, timeoutOrigin := true }

/-- `worker_failed_lifecycle_state`. -/
def workerFailedLifecycleState (retryable retryAvailable : Bool) : LifecycleState :=
  (LifecycleState.ofDimensions?
    { status := .failed, action := .retry, retryable := retryable && retryAvailable }).getD
      .failedTerminal

/-- `worker_timeout_lifecycle_state`. -/
def workerTimeoutLifecycleState (status : TimeoutPolicy) (retryAvailable : Bool) :
    LifecycleState :=
  (LifecycleState.ofDimensions? (.timeout status retryAvailable)).getD .timeoutTerminal

/-- `worker_result_lifecycle_state`: a status that no result may have counts as failed. -/
def workerResultLifecycleState (status : String) : LifecycleState :=
  let status := match WorkerStatus.ofName? (shortStatus status) with
    | some status =>
      if status ∈ [.aborted, .blocked, .done, .failed, .timeout] then status else .failed
    | none => .failed
  (LifecycleState.ofStatusAlias? status).getD .failedTerminal

@[simp] lemma workerFailedLifecycleState_eq (retryable retryAvailable : Bool) :
    workerFailedLifecycleState retryable retryAvailable =
      if retryable && retryAvailable then .failedRetry else .failedTerminal := by
  cases retryable <;> cases retryAvailable <;> decide

@[simp] lemma workerTimeoutLifecycleState_eq (status : TimeoutPolicy) (retryAvailable : Bool) :
    workerTimeoutLifecycleState status retryAvailable =
      match status with
      | .timeout => if retryAvailable then .timeoutRetry else .timeoutTerminal
      | .blocked => .blockedTimeout
      | .failed => if retryAvailable then .timeoutFailedRetry else .timeoutFailedTerminal
      | .aborted => .timeoutAborted := by
  cases status <;> cases retryAvailable <;> decide

/-- A result never leaves its worker executable, nor accepted as still running. -/
lemma workerResultLifecycleState_mem (status : String) :
    workerResultLifecycleState status ∈
      [LifecycleState.blockedDependency, .doneCollect, .failedTerminal, .timeoutTerminal,
        .aborted] := by
  unfold workerResultLifecycleState
  split
  · next word _ => cases word <;> decide
  · decide

end OpencodeSession
