import OpencodeSession.Cleanup.Local

/-!
# Preflight

Everything that is looked at before a cleanup is applied: the resources of the plan, the workers of
the run, and the project copies, whose cleanup is previewed on the server under the assumption that
the worktrees that are not blocked are gone.
-/

namespace OpencodeSession

namespace CleanupPreflight

open CleanupLocal RunResources

variable (py : Interpreter)

/-- Whether a hydrated worker shows the status `active`. -/
def showsActive (snapshot : Fields) : Bool :=
  ((LifecycleState.all.find? fun state =>
    (snapshot.field "lifecycle_state").pyEq (.str state.name)).map fun state =>
      state.row.status) = some .active

/-- `_active_worker_ids`. -/
def activeWorkerIds (run : RunData) : Except PyError (List String) := do
  let workers ← run.workers.mapM fun entry => Prod.mk entry.1 <$> Snapshot.toSnapshot py entry.2
  return Manifest.sorted ((workers.filter fun entry => showsActive entry.2).map Prod.fst)

/-- `preflight_cleanup`, on a project copy. -/
def preflightProject (found : Blocking (String × String)) (record : ProjectCopyRecord) :
    Cleanup (Blocking (String × String)) := do
  match ← verifyOwnedProjectCopy record with
  | some error => return found.block record.identity "project_metadata" record.toJson error
  | none => return found

/-- The paths of the branches that are blocked. -/
def blockedBranchPaths (branches : List WorktreeRecord) (blocked : List (String × String)) :
    List String :=
  (branches.filter fun record => record.branchIdentity ∈ blocked).map WorktreeRecord.path

/-- The error of a cleanup that is not forced, of a run with active workers. -/
def activeWorkersError (activeWorkers : List String) : JsonValue :=
  .obj [("category", .str "run"),
    ("error", .str "active workers require --force before cleanup can apply"),
    ("workers", .texts activeWorkers)]

/-- `preflight_cleanup`. -/
def preflightCleanup (run : RunData) (plan : CleanupPlan) (force : Bool) : Cleanup Preflight := do
  let worktrees ← preflightWorktrees plan.worktrees force []
  let branches ← preflightBranches plan.branches force worktrees.errors worktrees.blocked
    (plan.worktrees.map WorktreeRecord.path)
  let logs ← preflightLogs plan.logs branches.errors
  let projects ← plan.projectMetadata.foldlM preflightProject ⟨[], logs.errors⟩
  let activeWorkers ← Process.ofExcept (activeWorkerIds py run)
  return {
    activeWorkers := activeWorkers
    blockedWorktrees := worktrees.blocked ∪ blockedBranchPaths plan.branches branches.blocked
    blockedBranches := branches.blocked
    branchTips := branches.verifiedTips
    blockedLogs := logs.blocked
    blockedProjects := projects.blocked
    errors :=
      if !activeWorkers.isEmpty && !force then
        projects.errors ++ [activeWorkersError activeWorkers]
      else projects.errors }

/-- `active_cleanup_is_blocked`. -/
def activeCleanupIsBlocked (preflight : Preflight) (force : Bool) : Bool :=
  !preflight.activeWorkers.isEmpty && !force

end CleanupPreflight

/-! ## Project copies -/

/-- A project copy with the outcome of planning its cleanup. -/
structure ProjectPlan where
  entry : ProjectCopyRecord
  outcome : ProjectOutcome

namespace CleanupProjects

/-- The directories whose refresh the plans of a project allow, in order. -/
def allowedDirectories (projectPlans : List ProjectPlan) (projectId : String) : List String :=
  Manifest.sorted (((projectPlans.filter fun projectPlan =>
    projectPlan.outcome.projectId = projectId).flatMap fun projectPlan =>
      projectPlan.outcome.plannedProjectDirectories).dedup)

/-- `freeze_project_refresh_scope`, on one outcome. -/
def freezeOutcome (allowed : List String) (outcome : ProjectOutcome) : ProjectOutcome :=
  let unrelated := outcome.unrelatedStaleDirectories.filter fun path => path ∉ allowed
  let unsupported :=
    if unrelated.isEmpty then
      outcome.unsupported.filter fun reason => reason ≠ "project_copy_refresh_unscoped"
    else outcome.unsupported
  { outcome with
    allowedRefreshDirectories := some allowed
    unrelatedStaleDirectories := unrelated
    unsupported := unsupported
    status :=
      if outcome.mode = "dry-run" then if unsupported.isEmpty then "planned" else "partial"
      else outcome.status }

/-- `freeze_project_refresh_scope`. -/
def freezeProjectRefreshScope (projectPlans : List ProjectPlan) : List ProjectPlan :=
  projectPlans.map fun projectPlan =>
    let allowed := allowedDirectories projectPlans projectPlan.outcome.projectId
    { projectPlan with outcome := freezeOutcome allowed projectPlan.outcome }

/-- `project_plan_error`. -/
def projectPlanError (outcome : ProjectOutcome) : String :=
  let status := orText outcome.status "unknown"
  let detail := s!"project-copy cleanup status={status}"
  if outcome.unsupported.isEmpty then detail
  else detail ++ "; unsupported=" ++ ",".intercalate outcome.unsupported

/-- Whether an outcome can be applied. -/
def isSafe (outcome : ProjectOutcome) : Bool :=
  outcome.status ∈ ["planned", "done"]

end CleanupProjects

namespace RunCleanup

open CleanupProjects

/-- `_dry_run_record`. -/
def dryRunRecord (plan : CleanupPlan) (preflight : Preflight) : CleanupRecord where
  mode := .dryRun
  run := plan.run
  status := if preflight.errors.isEmpty then .planned else .blocked
  planned := plan
  completed := {}
  runStoreDeleted := false
  preflight := preflight
  projectMetadataPreview := []
  projectMetadataResults := []
  errors := preflight.errors

/-- The error of a program that has no cleanup of project copies. -/
def unsupportedProjects : JsonValue :=
  .obj [("category", .str "project_metadata"),
    ("error", .str "project metadata cleanup is unsupported")]

/-- What the preview has found: whether it failed, the errors and the plans. -/
structure Preview where
  failed : Bool
  errors : List JsonValue
  projectPlans : List ProjectPlan

/-- `_preview_project_metadata`, on one entry: any exception is an error of the preview. -/
def previewProject (serverUrl : JsonValue) (assumedMissingPaths : List String)
    (blockedProjects : List (String × String)) (found : Preview) (entry : ProjectCopyRecord) :
    Cleanup Preview :=
  if entry.identity ∈ blockedProjects then return found
  else
    .call (.previewProject entry serverUrl assumedMissingPaths)
      fun (result : Except PyError ProjectOutcome) =>
        match result with
        | .error error =>
          return { found with
            failed := true
            errors := addError found.errors "project_metadata" entry.toJson error.message }
        | .ok outcome =>
          return { found with projectPlans := found.projectPlans ++ [⟨entry, outcome⟩] }

/-- A preview with an error for a plan that cannot be applied. -/
def checkProjectPlan (found : Preview) (projectPlan : ProjectPlan) : Preview :=
  if isSafe projectPlan.outcome then found
  else
    { found with
      failed := true
      errors := addError found.errors "project_metadata" projectPlan.entry.toJson
        (projectPlanError projectPlan.outcome) }

/-- The preview with the scope of its plans frozen. -/
def finishPreview (found : Preview) : Preview :=
  let projectPlans := freezeProjectRefreshScope found.projectPlans
  projectPlans.foldl checkProjectPlan { found with projectPlans := projectPlans }

/-- `_preview_project_metadata`: the plans, whether the preview failed, and the record of the
preview. -/
def previewProjectMetadata (supported : Bool) (plan : CleanupPlan) (record : CleanupRecord)
    (assumedMissingPaths : List String) (blockedProjects : List (String × String)) :
    Cleanup (List ProjectPlan × Bool × CleanupRecord) := do
  if plan.projectMetadata.isEmpty then return ([], false, record)
  else if !supported then
    return ([], true,
      { record with errors := record.errors ++ [unsupportedProjects], status := .blocked })
  else
    let found ← plan.projectMetadata.foldlM
      (previewProject plan.serverUrl assumedMissingPaths blockedProjects)
      ⟨!blockedProjects.isEmpty, record.errors, []⟩
    let found := finishPreview found
    return (found.projectPlans, found.failed,
      { record with
        projectMetadataPreview := found.projectPlans.map ProjectPlan.outcome
        errors := found.errors
        status := if found.errors.isEmpty then record.status else .blocked })

end RunCleanup

end OpencodeSession
