import OpencodeSession.Cleanup.Preflight

/-!
# Applying a cleanup

The cleanup of a run: the plan is made and looked at, and an apply that is not refused then goes
through the kinds of resources, between the start and the end of its audit.  The record is deleted
last, and only if nothing went wrong.

`applyPlan` is what the service does with a plan, whatever plan it is; `cleanup` is the whole of it,
from the lease on.
-/

namespace OpencodeSession

/-- `RunCleanupResult`. -/
structure RunCleanupResult where
  record : CleanupRecord
  exitCode : Nat

/-! ## The audit -/

namespace CleanupAudit

/-- `begin_cleanup_audit`. -/
def beginCleanupAudit (expectedRun : RunData) (record : CleanupRecord) : Cleanup RunData :=
  Cleanup.audit (.start expectedRun { record with status := .inProgress }.toJson)

/-- `finish_cleanup_audit`: the saved run, and the record with the conflict if there is one. -/
def finishCleanupAudit (expectedRun : RunData) (record : CleanupRecord) :
    Cleanup (RunData × CleanupRecord) := do
  match ← (Cleanup.audit (.finish expectedRun record.toJson)).attempt with
  | .ok run => return (run, record)
  | .error (.runStore message "conflict") =>
    let record := record.storeError message
    let run ← Cleanup.audit (.amend record.toJson)
    return (run, record)
  | .error error => throw error

/-- `delete_audited_run`, after the deletion was tried. -/
def afterDeletion (record : CleanupRecord) : Except PyError Unit → Cleanup CleanupRecord
  | .ok _ => return { record with runStoreDeleted := true }
  | .error (.runStore message kind) => do
    let record := record.storeError message
    if kind ≠ "missing" then
      let _ ← Cleanup.audit (.amend record.toJson)
      return record
    else return record
  | .error error => throw error

/-- `delete_audited_run`. -/
def deleteAuditedRun (expectedRun : RunData) (record : CleanupRecord) : Cleanup CleanupRecord :=
  .call (.deleteRun expectedRun) fun (answer : Except PyError Unit) => afterDeletion record answer

end CleanupAudit

/-! ## Sessions -/

namespace DisposableSessions

/-- Read a session that should be gone. -/
def verifyDeleted (sessionId : String) : Cleanup (Option PyError) :=
  .call (.getSession sessionId) fun (read : Except PyError Unit) =>
    match read with
    | .error error =>
      if !error.isOpenCodeApiError then throw error
      else if error.apiStatus = some 404 then return none
      else return some error
    | .ok _ => return some (.openCodeApi
        s!"delete verification failed; session {sessionId} is still readable" none "" "")

/-- `delete_and_verify`. -/
def deleteAndVerify (sessionId : String) : Cleanup (Option PyError) :=
  .call (.deleteSession sessionId) fun (deleted : Except PyError Unit) =>
    match deleted with
    | .error error =>
      if !error.isOpenCodeApiError then throw error
      else if error.apiStatus = some 404 then verifyDeleted sessionId
      else return some error
    | .ok _ => verifyDeleted sessionId

/-- `cleanup`, on one session: the verified sessions and the errors of the others. -/
def cleanupSession (found : List String × List (String × PyError)) (sessionId : String) :
    Cleanup (List String × List (String × PyError)) := do
  match ← deleteAndVerify sessionId with
  | some error => return (found.1, found.2 ++ [(sessionId, error)])
  | none => return (found.1 ++ [sessionId], found.2)

/-- `cleanup_disposable_sessions`. -/
def cleanupDisposableSessions (sessionIds : List String) :
    Cleanup (List String × List (String × PyError)) :=
  sessionIds.foldlM cleanupSession ([], [])

end DisposableSessions

/-! ## The executor -/

namespace RunCleanup

open CleanupAudit CleanupLocal CleanupPreflight

variable (py : Interpreter)

/-- An error about the sessions. -/
def sessionsError (fields : List (String × JsonValue)) : JsonValue :=
  .obj (("category", .str "sessions") :: fields)

/-- Connect to the server and delete the sessions of a plan. -/
def deleteSessions (plan : CleanupPlan) : Cleanup (List String × List (String × PyError)) :=
  .call (.connect plan.serverUrl) fun (connected : Except PyError Unit) => do
    Process.ofExcept connected
    DisposableSessions.cleanupDisposableSessions plan.sessions

/-- `_cleanup_sessions`. -/
def cleanupSessions (plan : CleanupPlan) (record : CleanupRecord) : Cleanup CleanupRecord := do
  if plan.sessions.isEmpty then return record
  else
    match ← (deleteSessions plan).attempt with
    | .error error =>
      if error.isOpenCodeApiError then
        return { record with
          errors := record.errors ++ [sessionsError [("error", .str error.message)]] }
      else throw error
    | .ok (verified, errors) =>
      return { record with
        completed :=
          { record.completed with sessions := record.completed.sessions ++ verified }
        errors := record.errors ++ errors.map fun error =>
          sessionsError [("session_id", .str error.1), ("error", .str error.2.message)] }

/-- `_cleanup_project_metadata`, on one plan. -/
def cleanupProject (serverUrl : JsonValue) (record : CleanupRecord) (projectPlan : ProjectPlan) :
    Cleanup CleanupRecord :=
  .call (.applyProject projectPlan.entry serverUrl projectPlan.outcome)
    fun (result : Except PyError ProjectResult) =>
      match result with
      | .error error =>
        return record.block "project_metadata" projectPlan.entry.toJson error.message
      | .ok result =>
        let record :=
          { record with
            projectMetadataResults := record.projectMetadataResults ++ [result.outcome] }
        if result.verified then return record.completeProject projectPlan.entry
        else
          return record.block "project_metadata" projectPlan.entry.toJson
            (orText (result.error.getD "") "verification failed")

/-- `_cleanup_project_metadata`. -/
def cleanupProjectMetadata (supported : Bool) (plan : CleanupPlan)
    (projectPlans : List ProjectPlan) (record : CleanupRecord) : Cleanup CleanupRecord := do
  if plan.projectMetadata.isEmpty then return record
  else if !supported then
    return { record with errors := record.errors ++ [unsupportedProjects] }
  else projectPlans.foldlM (cleanupProject plan.serverUrl) record

/-- The record of an apply before anything is removed. -/
def applyRecord (plan : CleanupPlan) (preflight : Preflight) (projectPlans : List ProjectPlan)
    (request : RunCleanupRequest) : CleanupRecord where
  mode := .apply
  run := request.name
  status := .done
  planned := plan
  completed := {}
  runStoreDeleted := false
  preflight := preflight
  projectMetadataPreview := projectPlans.map ProjectPlan.outcome
  projectMetadataResults := []
  errors := preflight.errors

/-- Remove the resources of a plan, kind by kind. -/
def removeResources (supported : Bool) (plan : CleanupPlan) (preflight : Preflight)
    (projectPlans : List ProjectPlan) (request : RunCleanupRequest) (record : CleanupRecord) :
    Cleanup CleanupRecord := do
  let record ← cleanupSessions plan record
  let record ← removeWorktrees plan.worktrees preflight.blockedWorktrees request.force record
    (branchByPath plan.branches preflight.blockedBranches preflight.branchTips)
  let record ← cleanupProjectMetadata supported plan projectPlans record
  let record ← removeBranches plan.branches preflight.blockedBranches preflight.branchTips record
  removeLogs plan.logs preflight.blockedLogs record

/-- Delete the record of the run, if that is planned and nothing went wrong. -/
def deleteRunStore (plan : CleanupPlan) (auditedRun : RunData) (record : CleanupRecord) :
    Cleanup CleanupRecord :=
  if plan.runStore && record.errors.isEmpty then deleteAuditedRun auditedRun record
  else return record

/-- `RunCleanupExecutor.execute`. -/
def execute (supported : Bool) (run : RunData) (plan : CleanupPlan) (preflight : Preflight)
    (projectPlans : List ProjectPlan) (request : RunCleanupRequest) : Cleanup RunCleanupResult := do
  let record := applyRecord plan preflight projectPlans request
  let auditBaseline ← beginCleanupAudit run record
  let record ← removeResources supported plan preflight projectPlans request record
  let record :=
    if record.errors.isEmpty then record else { record with status := record.failureStatus }
  let (auditedRun, record) ← finishCleanupAudit auditBaseline record
  let record ← deleteRunStore plan auditedRun record
  return { record := record, exitCode := if record.errors.isEmpty then 0 else 1 }

/-! ## The service -/

/-- `_cleanup`, from the plan on. -/
def applyPlan (supported : Bool) (run : RunData) (plan : CleanupPlan)
    (request : RunCleanupRequest) : Cleanup RunCleanupResult := do
  let preflight ← preflightCleanup py run plan request.force
  let assumedMissingPaths := (plan.worktrees.map WorktreeRecord.path).filter fun path =>
    path ∉ preflight.blockedWorktrees
  let (projectPlans, projectPreflightFailed, previewRecord) ←
    previewProjectMetadata supported plan (dryRunRecord plan preflight) assumedMissingPaths
      preflight.blockedProjects
  if !request.apply then
    return { record := previewRecord, exitCode := if previewRecord.errors.isEmpty then 0 else 1 }
  else if activeCleanupIsBlocked preflight request.force || projectPreflightFailed then
    return { record := { previewRecord with mode := .apply }, exitCode := 1 }
  else execute supported run plan preflight projectPlans request

/-- `_cleanup`. -/
def cleanupUnleased (supported : Bool) (request : RunCleanupRequest) :
    Cleanup RunCleanupResult :=
  .call .loadRun fun (loaded : Except PyError RunData) => do
    let run ← Process.ofExcept loaded
    if request.apply && run.cleanupInProgress && !request.force then
      throw (.runStore (s!"run '{request.name}' has an interrupted cleanup; " ++
        "inspect it and pass --force to resume") "conflict")
    else
      let plan ← Process.ofExcept (plan py run request)
      applyPlan py supported run plan request

/-- The block of `with store.cleanup_lease(...)`: the lease is released however the block ends. -/
def withLease {α : Type} (block : Cleanup α) : Cleanup α :=
  .call .acquireLease fun (acquired : Except PyError Unit) => do
    Process.ofExcept acquired
    let result : Except PyError α ← block.attempt
    .call .releaseLease fun (released : Except PyError Unit) => do
      Process.ofExcept released
      Process.ofExcept result

/-- `RunCleanupService.cleanup`. -/
def cleanup (supported : Bool) (request : RunCleanupRequest) : Cleanup RunCleanupResult :=
  if request.apply then withLease (cleanupUnleased py supported request)
  else cleanupUnleased py supported request

end RunCleanup

end OpencodeSession
