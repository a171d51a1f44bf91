import OpencodeSession.Cleanup.Records
import OpencodeSession.Orchestration.SessionCleanup
import OpencodeSession.Store.RunRecord

/-!
# The plan and the record of a cleanup

A plan lists what a run owns of the kinds that a request selects.  The record of a cleanup says what
was planned, what is completed and what went wrong; it is stored in the run while the cleanup is
applied and afterwards.
-/

namespace OpencodeSession

/-- `RunCleanupRequest`. -/
structure RunCleanupRequest where
  name : String
  sessions : Bool := false
  worktrees : Bool := false
  branches : Bool := false
  projectMetadata : Bool := false
  logs : Bool := false
  runStore : Bool := false
  apply : Bool := false
  force : Bool := false
  serverUrl : Option String := none

/-- The plan of a cleanup.  Only branches that have a name are planned. -/
structure CleanupPlan where
  run : String
  serverUrl : JsonValue
  sessions : List String
  worktrees : List WorktreeRecord
  branches : List WorktreeRecord
  projectMetadata : List ProjectCopyRecord
  logs : List LogRecord
  runStore : Bool
  branches_named : ∀ record ∈ branches, record.branch ≠ ""

/-! ## Planning -/

namespace JsonValue

/-- The items of an array; none for any other value. -/
def items : JsonValue → List JsonValue
  | arr items => items
  | _ => []

/-- Texts added to a list, each once. -/
def appendUniqueStrings (values added : List String) : List String :=
  added.foldl (fun values value => appendUniqueString values (.str value)) values

end JsonValue

namespace RunResources

variable (py : Interpreter)

/-- `normalize_run_resources`. -/
def normalizeRunResources (value : JsonValue) : Except PyError JsonValue :=
  match value with
  | .null => .ok (.obj (ResourceKind.all.map fun kind => (kind.fieldName, .arr [])))
  | value =>
    match Manifest.validateRunResourceManifest value with
    | .ok manifest => .ok manifest
    | .error error => .error (.other "RunResourceSchemaError" error)

/-- The sessions of a worker that are not in the list yet. -/
def workerSessionIds (sessionIds : List String) (snapshot : Fields) : List String :=
  let sessionIds := JsonValue.appendUniqueString sessionIds (snapshot.field "session_id")
  let sessionIds := (snapshot.field "attempts").items.foldl
    (fun sessionIds attempt =>
      JsonValue.appendUniqueStrings
        (JsonValue.appendUniqueString sessionIds (attempt.get "session_id"))
        (attempt.get "created_session_ids").stringList) sessionIds
  JsonValue.appendUniqueStrings sessionIds
    ((snapshot.field "cleanup").get "sessions").stringList

/-- The sessions of an entry of the journal that are not in the list yet. -/
def journaledSessionIds (sessionIds : List String) (entry : JsonValue) : List String :=
  if (entry.get "kind").pyEq (.str workerSessionCreateKind) then
    match SessionCleanup.JournaledCreation.ofEntry entry with
    | some creation => JsonValue.appendUniqueStrings sessionIds creation.sessionIds
    | none => sessionIds
  else sessionIds

/-- `run_owned_session_ids`. -/
def runOwnedSessionIds (run : RunData) : Except PyError (List String) := do
  let snapshots ← run.workers.mapM fun entry => Snapshot.toSnapshot py entry.2
  return (run.fields.field "worker_session_journal").items.foldl journaledSessionIds
    (snapshots.foldl workerSessionIds [])

end RunResources

namespace RunCleanup

variable (py : Interpreter)

/-- `RunCleanupPlanner.plan`. -/
def plan (run : RunData) (request : RunCleanupRequest) : Except PyError CleanupPlan := do
  let resources ← RunResources.normalizeRunResources (run.fields.field "resources")
  let worktrees := (resources.get "worktrees").items.map WorktreeRecord.ofJson
  let sessions ← if request.sessions then RunResources.runOwnedSessionIds py run else pure []
  return {
    run := request.name
    serverUrl := (JsonValue.ofOption request.serverUrl).orElse (run.fields.field "server_url")
    sessions := sessions
    worktrees := if request.worktrees then worktrees else []
    branches := if request.branches then worktrees.filter fun record => record.branch ≠ "" else []
    projectMetadata :=
      if request.projectMetadata then
        (resources.get "project_copies").items.map ProjectCopyRecord.ofJson
      else []
    logs := if request.logs then (resources.get "logs").items.map LogRecord.ofJson else []
    runStore := request.runStore
    branches_named := by
      intro record hrecord
      split_ifs at hrecord
      · simpa using (List.mem_filter.1 hrecord).2
      · cases hrecord }

end RunCleanup

/-! ## The record of a cleanup -/

/-- What is completed. -/
structure Completed where
  sessions : List String := []
  worktrees : List WorktreeRecord := []
  branches : List WorktreeRecord := []
  projectMetadata : List ProjectCopyRecord := []
  logs : List LogRecord := []

/-- Whether a cleanup was only planned. -/
inductive CleanupMode where
  | dryRun | apply
  deriving DecidableEq

/-- The word of a mode. -/
def CleanupMode.word : CleanupMode → String
  | dryRun => "dry-run"
  | apply => "apply"

/-- How far a cleanup has come. -/
inductive CleanupStatus where
  | planned | blocked | inProgress | done | partially | failed
  deriving DecidableEq

/-- The word of a status. -/
def CleanupStatus.word : CleanupStatus → String
  | planned => "planned"
  | blocked => "blocked"
  | inProgress => "in_progress"
  | done => "done"
  | partially => "partial"
  | failed => "failed"

/-- What preflight found: what is blocked, and the tips of the branches it verified. -/
structure Preflight where
  activeWorkers : List String
  blockedWorktrees : List String
  blockedBranches : List (String × String)
  branchTips : List ((String × String) × String)
  blockedLogs : List String
  blockedProjects : List (String × String)
  errors : List JsonValue

/-- The record of a cleanup. -/
structure CleanupRecord where
  mode : CleanupMode
  run : String
  status : CleanupStatus
  planned : CleanupPlan
  completed : Completed
  runStoreDeleted : Bool
  preflight : Preflight
  projectMetadataPreview : List ProjectOutcome
  projectMetadataResults : List JsonValue
  errors : List JsonValue

namespace Completed

/-- Whether nothing is completed: `not any(completed.values())`. -/
def isEmpty (completed : Completed) : Bool :=
  completed.sessions.isEmpty && completed.worktrees.isEmpty && completed.branches.isEmpty &&
    completed.projectMetadata.isEmpty && completed.logs.isEmpty

/-- What is completed, as it is recorded. -/
def toJson (completed : Completed) : JsonValue :=
  .obj [("sessions", .texts completed.sessions),
    ("worktrees", .arr (completed.worktrees.map WorktreeRecord.toJson)),
    ("branches", .arr (completed.branches.map WorktreeRecord.toJson)),
    ("project_metadata", .arr (completed.projectMetadata.map ProjectCopyRecord.toJson)),
    ("logs", .arr (completed.logs.map LogRecord.toJson))]

end Completed

/-- `_public_plan`. -/
def CleanupPlan.toJson (plan : CleanupPlan) : JsonValue :=
  .obj [("server_url", plan.serverUrl), ("sessions", .texts plan.sessions),
    ("worktrees", .arr (plan.worktrees.map WorktreeRecord.toJson)),
    ("branches", .arr (plan.branches.map WorktreeRecord.toJson)),
    ("project_metadata", .arr (plan.projectMetadata.map ProjectCopyRecord.toJson)),
    ("logs", .arr (plan.logs.map LogRecord.toJson)), ("run_store", .bool plan.runStore)]

namespace Preflight

/-- Pairs of texts in order. -/
def sortedOn {α : Type} (key : α → String × String) (pairs : List α) : List α :=
  pairs.insertionSort fun a b =>
    (key a).1 < (key b).1 ∨ ((key a).1 = (key b).1 ∧ (key a).2 ≤ (key b).2)

/-- Pairs of texts, as they are recorded. -/
def pairsToJson (pairs : List (String × String)) : JsonValue :=
  .arr ((sortedOn id pairs).map fun pair => .texts [pair.1, pair.2])

/-- `public_preflight`. -/
def toJson (preflight : Preflight) : JsonValue :=
  .obj [("active_workers", .texts preflight.activeWorkers),
    ("blocked_worktrees", .texts (Manifest.sorted preflight.blockedWorktrees)),
    ("blocked_branches", pairsToJson preflight.blockedBranches),
    ("blocked_logs", .texts (Manifest.sorted preflight.blockedLogs)),
    ("blocked_project_metadata", pairsToJson preflight.blockedProjects),
    ("branch_tips", .arr ((sortedOn Prod.fst preflight.branchTips).map fun entry =>
      .obj [("git_dir", .str entry.1.1), ("branch", .str entry.1.2), ("tip", .str entry.2)]))]

end Preflight

/-- `_block`: errors with one more, about a resource. -/
def addError (errors : List JsonValue) (category : String) (resource : JsonValue)
    (error : String) : List JsonValue :=
  errors ++ [.obj [("category", .str category), ("resource", resource), ("error", .str error)]]

namespace CleanupRecord

/-- The record as it is stored. -/
def toJson (record : CleanupRecord) : JsonValue :=
  .obj [("mode", .str record.mode.word), ("run", .str record.run),
    ("status", .str record.status.word), ("planned", record.planned.toJson),
    ("completed", record.completed.toJson), ("run_store_deleted", .bool record.runStoreDeleted),
    ("preflight", record.preflight.toJson),
    ("project_metadata_preview",
      .arr (record.projectMetadataPreview.map ProjectOutcome.toJson)),
    ("project_metadata_results", .arr record.projectMetadataResults),
    ("errors", .arr record.errors)]

/-- `_block` of a record. -/
def block (record : CleanupRecord) (category : String) (resource : JsonValue) (error : String) :
    CleanupRecord :=
  { record with errors := addError record.errors category resource error }

/-- The status of a cleanup with errors. -/
def failureStatus (record : CleanupRecord) : CleanupStatus :=
  if record.completed.isEmpty then .failed else .partially

/-- `_record_store_error`. -/
def storeError (record : CleanupRecord) (message : String) : CleanupRecord :=
  { record with
    errors := record.errors ++ [.obj [("category", .str "run_store"), ("error", .str message)]]
    status := record.failureStatus }

/-- A record with a worktree completed. -/
def completeWorktree (record : CleanupRecord) (worktree : WorktreeRecord) : CleanupRecord :=
  { record with completed :=
    { record.completed with worktrees := record.completed.worktrees ++ [worktree] } }

/-- A record with a branch completed. -/
def completeBranch (record : CleanupRecord) (branch : WorktreeRecord) : CleanupRecord :=
  { record with completed :=
    { record.completed with branches := record.completed.branches ++ [branch] } }

/-- A record with a log completed. -/
def completeLog (record : CleanupRecord) (log : LogRecord) : CleanupRecord :=
  { record with completed := { record.completed with logs := record.completed.logs ++ [log] } }

/-- A record with a project copy completed. -/
def completeProject (record : CleanupRecord) (entry : ProjectCopyRecord) : CleanupRecord :=
  { record with completed :=
    { record.completed with projectMetadata := record.completed.projectMetadata ++ [entry] } }

end CleanupRecord

end OpencodeSession
