import OpencodeSession.Cleanup.Preflight

/-!
# The cleanup of project copies

The server keeps metadata of the directories of a project and of its workspaces.  A refresh of a
project drops the metadata of all its directories that are missing, so it is asked for only when no
directory is missing that the frozen plans of a run do not allow.  A workspace is deleted when it is
still the one that was planned and its directory is missing.

What the program prints of a JSON value that is no text is a parameter.
-/

namespace OpencodeSession

/-- The requests of the cleanup of project copies. -/
inductive ProjectOp where
  /-- Make a client, read the document of the server, and configure the routes. -/
  | connect (serverUrl : JsonValue)
  | listProjects
  | listProjectDirectories (projectId : String)
  | listWorkspaces
  | refreshProjectCopies (projectId : String)
  | deleteWorkspace (workspaceId : String)
  /-- `normalized_directory(directory)`, of a directory that is not null. -/
  | normalizedDirectory (directory : JsonValue)
  | pathExists (path : String)

/-- The answers: everything may be an exception. -/
@[reducible] def ProjectOp.Answer : ProjectOp → Type
  | connect _ => Except PyError (List String)
  | listProjects | listProjectDirectories _ | listWorkspaces => Except PyError JsonValue
  | refreshProjectCopies _ | deleteWorkspace _ => Except PyError Unit
  | normalizedDirectory _ => Except PyError String
  | pathExists _ => Except PyError Bool

/-- The interface of the cleanup of project copies. -/
abbrev projectInterface : Interface := ⟨ProjectOp, ProjectOp.Answer⟩

/-- A process of the cleanup of project copies. -/
abbrev ProjectCleanup (α : Type) : Type := Process projectInterface PyError α

namespace ProjectCopies

/-! ## Asking -/

/-- The error of a use of `None` as a path. -/
def noPathError : PyError :=
  .typeError "expected str, bytes or os.PathLike object, not NoneType"

/-- `normalized_directory(directory)`, used as a path. -/
def normalizedDirectory (directory : JsonValue) : ProjectCleanup String :=
  if directory.isNull then throw noPathError
  else
    .call (.normalizedDirectory directory) fun (answer : Except PyError String) =>
      .ofExcept answer

/-- `Path(path).exists()`. -/
def pathExists (path : String) : ProjectCleanup Bool :=
  .call (.pathExists path) fun (answer : Except PyError Bool) => .ofExcept answer

/-! ## Metadata -/

/-- An error of a response whose schema is not that of its collection. -/
def schemaError (message : String) : PyError := .openCodeApi message none "" ""

/-- `_records`. -/
def records (payload : JsonValue) (collectionName : String) (allowStrings : Bool) :
    Except PyError (List JsonValue) :=
  match if payload.isObj then payload.get collectionName else payload with
  | .arr items =>
    if !allowStrings && !items.all JsonValue.isObj then
      .error (schemaError s!"OpenCode {collectionName} response has invalid records")
    else .ok items
  | _ => .error (schemaError s!"OpenCode {collectionName} response has invalid schema")

/-- `_directory_record`. -/
def directoryRecord (record : JsonValue) : Except PyError JsonValue :=
  match record with
  | .str directory => .ok (.obj [("directory", .str directory)])
  | record =>
    if record.isObj && (record.get "directory").truthy then .ok record
    else .error (schemaError "OpenCode directories response has invalid record")

/-- The directories of some records, those that are not empty. -/
def directoriesOf (records : List JsonValue) : List JsonValue :=
  (records.map fun record => record.get "directory").filter JsonValue.truthy

variable (str : JsonValue → String)

/-- `str(value)`. -/
def textOf (value : JsonValue) : String :=
  match value with
  | .str text => text
  | value => str value

/-- `workspace_project_id`. -/
def workspaceProjectId (workspace : JsonValue) : Option String :=
  let value :=
    if (workspace.get "projectID").isNull then workspace.get "project_id"
    else workspace.get "projectID"
  if value.isNull then none else some (textOf str value)

/-- `ProjectMetadataService.require_route`, of a service with the routes that its server
supports. -/
def requireRoute (supported : List String) (routeName route : String) : Except PyError Unit :=
  if routeName ∈ supported then .ok ()
  else .error (.other "ProjectMetadataUnsupported" s!"unsupported OpenCode route: {route}")

/-- `ProjectMetadataService.inspect_project`. -/
def inspectProject (supported : List String) (projectId : String) : ProjectCleanup JsonValue := do
  .ofExcept (requireRoute supported "project_collection" "GET /project")
  .call .listProjects fun (answer : Except PyError JsonValue) => do
    let projects ← Process.ofExcept (answer >>= fun data => records data "projects" false)
    match projects.find? fun project => textOf str (project.get "id") = projectId with
    | some project => return project
    | none => throw (.other "ProjectMetadataNotFound" s!"project '{projectId}' was not found")

/-- The records of the directories of a project. -/
def directoryRecords (data : JsonValue) : Except PyError (List JsonValue) := do
  (← records data "directories" true).mapM directoryRecord

/-- `ProjectMetadataService.list_project_directories`. -/
def listProjectDirectories (supported : List String) (projectId : String) :
    ProjectCleanup (List JsonValue) := do
  .ofExcept
    (requireRoute supported "project_directories" "GET /project/\x7bprojectID\x7d/directories")
  .call (.listProjectDirectories projectId) fun (answer : Except PyError JsonValue) =>
    .ofExcept (answer >>= directoryRecords)

/-- `ProjectMetadataService.list_workspaces`. -/
def listWorkspaces (supported : List String) (projectId : String) :
    ProjectCleanup (List JsonValue) := do
  .ofExcept (requireRoute supported "workspace_collection" "GET /experimental/workspace")
  .call .listWorkspaces fun (answer : Except PyError JsonValue) =>
    .ofExcept (do
      let workspaces ← records (← answer) "workspaces" false
      return workspaces.filter fun workspace => workspaceProjectId str workspace = some projectId)

/-- `_missing_paths`. -/
def missingPaths (paths : List JsonValue) : ProjectCleanup (List String) :=
  paths.foldlM (fun missing path => do
    let normalized ← normalizedDirectory path
    if ← pathExists normalized then return missing
    else return missing ++ [← normalizedDirectory path]) []

/-! ## Stale directories -/

/-- `os.path.dirname(path)`. -/
def dirname (path : String) : String :=
  let head := (path.toList.reverse.dropWhile (· ≠ '/')).reverse
  if head.all (· = '/') then String.ofList head
  else String.ofList (head.reverse.dropWhile (· = '/')).reverse

/-- `os.path.basename(path)`. -/
def basename (path : String) : String :=
  String.ofList (path.toList.reverse.takeWhile (· ≠ '/')).reverse

/-- The components that two paths have in common at their start. -/
def commonParts : List String → List String → List String
  | part :: parts, other :: others => if part = other then part :: commonParts parts others else []
  | _, _ => []

/-- `_matches_directory_prefix`.  A path that was normalized is absolute, so a relative parent has
no path in common with it. -/
def matchesDirectoryPrefix (path directoryPrefix : String) : Bool :=
  let parent := dirname directoryPrefix
  let common := commonParts (PurePath.ofText path).parts (PurePath.ofText parent).parts
  if !path.startsWith "/" || !parent.startsWith "/" then false
  else if "/" ++ "/".intercalate common ≠ parent then false
  else
    match (PurePath.ofText path).parts.drop common.length with
    | [] => ".".startsWith (basename directoryPrefix)
    | component :: _ => component.startsWith (basename directoryPrefix)

/-- `_is_stale`. -/
def isStale (path : JsonValue) (directoryPrefix : String) (assumedMissing : List String) :
    ProjectCleanup Bool := do
  let normalized ← normalizedDirectory path
  if !matchesDirectoryPrefix normalized directoryPrefix then return false
  else if normalized ∈ assumedMissing then return true
  else return !(← pathExists normalized)

/-- `_stale_paths`. -/
def stalePaths (paths : List JsonValue) (directoryPrefix : String) (assumedMissing : List String) :
    ProjectCleanup (List String) :=
  paths.foldlM (fun stale path => do
    if ← isStale path directoryPrefix assumedMissing then
      return stale ++ [← normalizedDirectory path]
    else return stale) []

/-! ## Plans -/

/-- `_remember`. -/
def remember (values : List String) (value : String) : List String :=
  if value ∈ values then values else values ++ [value]

/-- A workspace that is planned to be deleted. -/
structure PlannedWorkspace where
  id : String
  directory : String

/-- The workspace as it is recorded. -/
def PlannedWorkspace.toJson (workspace : PlannedWorkspace) : JsonValue :=
  .obj [("id", .str workspace.id), ("directory", .str workspace.directory)]

/-! ## Planning -/

/-- The items that a loop over a value goes through. -/
def iterated (value : JsonValue) : Except PyError (List JsonValue) :=
  match value with
  | .arr items => .ok items
  | .str text => .ok (text.toList.map fun c => .str (String.singleton c))
  | .obj fields => .ok (fields.map fun field => .str field.1)
  | value => .error (.typeError s!"'{value.typeName}' object is not iterable")

/-- The sandboxes of the record of a project. -/
def sandboxesOf (project : JsonValue) : Except PyError (List JsonValue) :=
  if (project.get "sandboxes").truthy then iterated (project.get "sandboxes") else .ok []

/-- `_valid_workspace_id`. -/
def validWorkspaceId (value : JsonValue) : Bool :=
  match value with
  | .str text =>
    text ≠ "" && text ∉ [".", ".."] &&
      !text.toList.any fun c => isPySpace c || c ∈ ['/', '\\', '?', '#']
  | _ => false

/-- The workspaces of a project, none if the server does not list workspaces. -/
def plannableWorkspaces (supported : List String) (projectId : String) :
    ProjectCleanup (List JsonValue × List String) :=
  if "workspace_collection" ∈ supported then
    (fun workspaces => (workspaces, [])) <$> listWorkspaces str supported projectId
  else return ([], ["workspace_collection"])

/-- What planning has found of the workspaces: those to delete, and those whose id is invalid. -/
structure WorkspacePlans where
  planned : List PlannedWorkspace
  invalid : List JsonValue

/-- The plans of the workspaces of a project, one more of them. -/
def planWorkspace (directoryPrefix : String) (assumedMissing : List String) (plans : WorkspacePlans)
    (record : JsonValue) : ProjectCleanup WorkspacePlans := do
  if !(record.get "directory").truthy then return plans
  else if !(← isStale (record.get "directory") directoryPrefix assumedMissing) then return plans
  else
    let directory ← normalizedDirectory (record.get "directory")
    if validWorkspaceId (record.get "id") then
      return { plans with planned := plans.planned ++ [⟨record.text "id", directory⟩] }
    else
      return { plans with
        invalid := plans.invalid ++
          [.obj [("directory", .str directory), ("reason", .str "invalid workspace id")]] }

/-- A reason is remembered if it applies. -/
def rememberIf (applies : Bool) (reason : String) (values : List String) : List String :=
  if applies then remember values reason else values

/-- `ProjectCopyCleanupService.plan`. -/
def plan (supported : List String) (projectId : String) (directoryPrefix : JsonValue)
    (assumedMissingPaths : List String) : ProjectCleanup ProjectOutcome := do
  let project ← inspectProject str supported projectId
  let directoryPaths := directoriesOf (← listProjectDirectories supported projectId)
  let (workspaces, unsupported) ← plannableWorkspaces str supported projectId
  let directoryPrefix ← normalizedDirectory directoryPrefix
  if dirname directoryPrefix = directoryPrefix then
    throw (.other "ProjectCopyCleanupError" "directory prefix cannot be a filesystem root")
  let assumedMissing ← assumedMissingPaths.mapM fun path => normalizedDirectory (.str path)
  let sandboxes ← stalePaths (← .ofExcept (sandboxesOf project)) directoryPrefix assumedMissing
  let directories ← stalePaths directoryPaths directoryPrefix assumedMissing
  let unrelated := Manifest.sorted
    ((← missingPaths directoryPaths).filter fun path => path ∉ directories).dedup
  let workspacePlans ← workspaces.foldlM (planWorkspace directoryPrefix assumedMissing) ⟨[], []⟩
  let planned := Manifest.sorted directories.dedup
  return {
    projectId := projectId
    mode := "dry-run"
    status := "planned"
    plannedProjectDirectories := planned
    unrelatedStaleDirectories := unrelated
    unsupported :=
      rememberIf (!workspacePlans.planned.isEmpty && "workspace_item" ∉ supported)
        "workspace_item" <|
      rememberIf (!workspacePlans.invalid.isEmpty) "workspace_identity" <|
      rememberIf (!directories.isEmpty && "project_copy_refresh" ∉ supported)
        "project_copy_refresh" <|
      rememberIf (!directories.isEmpty && !unrelated.isEmpty) "project_copy_refresh_unscoped" <|
      rememberIf (!sandboxes.isEmpty) "project_sandbox_remove" unsupported
    allowedRefreshDirectories := none
    others := [("directory_prefix", .str directoryPrefix),
      ("planned_directories", .texts (Manifest.sorted (directories ++ sandboxes).dedup)),
      ("planned_project_sandboxes", .texts (Manifest.sorted sandboxes.dedup)),
      ("planned_workspaces", .arr (workspacePlans.planned.map PlannedWorkspace.toJson)),
      ("invalid_workspaces", .arr workspacePlans.invalid),
      ("refreshed", .bool false),
      ("removed_workspaces", .arr []),
      ("verified", .obj [("directories", .arr []), ("workspaces", .arr [])]),
      ("remaining", .obj [("project_sandboxes", .arr []), ("project_directories", .arr []),
        ("workspaces", .arr [])]),
      ("errors", .arr [])] }

end ProjectCopies

namespace ProjectOutcome

open ProjectCopies

/-- A field of the outcome besides its own. -/
def field (outcome : ProjectOutcome) (name : String) : JsonValue :=
  (Dict.lookup name outcome.others).getD .null

/-- The outcome with another value in one of the other fields. -/
def setField (outcome : ProjectOutcome) (name : String) (value : JsonValue) : ProjectOutcome :=
  { outcome with others := Dict.insert name value outcome.others }

/-- The items of a list among the other fields. -/
def items (outcome : ProjectOutcome) (name : String) : List JsonValue :=
  match outcome.field name with
  | .arr items => items
  | _ => []

/-- A field among the other fields that is a text. -/
def textOf (outcome : ProjectOutcome) (name : String) : String :=
  match outcome.field name with
  | .str text => text
  | _ => ""

/-- `outcome["planned_directories"]`. -/
def plannedDirectories (outcome : ProjectOutcome) : List String :=
  (outcome.items "planned_directories").filterMap fun directory =>
    match directory with
    | .str text => some text
    | _ => none

/-- `outcome["planned_workspaces"]`. -/
def plannedWorkspaces (outcome : ProjectOutcome) : List PlannedWorkspace :=
  (outcome.items "planned_workspaces").map fun workspace =>
    ⟨workspace.text "id", workspace.text "directory"⟩

/-- The outcome with one more item in a list among the other fields. -/
def appendItem (outcome : ProjectOutcome) (name : String) (item : JsonValue) : ProjectOutcome :=
  outcome.setField name (.arr (outcome.items name ++ [item]))

/-- The outcome with one more reason why it is only partial. -/
def unsupportedBy (outcome : ProjectOutcome) (reason : String) : ProjectOutcome :=
  { outcome with unsupported := remember outcome.unsupported reason }

/-- The outcome with an error of the removal of a workspace. -/
def workspaceError (outcome : ProjectOutcome) (workspaceId error : String) : ProjectOutcome :=
  outcome.appendItem "errors" (.obj [("operation", .str "workspace_remove"),
    ("workspace_id", .str workspaceId), ("error", .str error)])

end ProjectOutcome

namespace ProjectCopies

variable (str : JsonValue → String)

/-! ## Applying a plan -/

/-- The directories that a refresh may find missing. -/
def allowedRefresh (outcome : ProjectOutcome) : List String :=
  match outcome.allowedRefreshDirectories with
  | some (directory :: rest) => directory :: rest
  | _ => outcome.plannedProjectDirectories

/-- Ask for the refresh of a project. -/
def requestRefresh (outcome : ProjectOutcome) : ProjectCleanup ProjectOutcome :=
  .call (.refreshProjectCopies outcome.projectId) fun (answer : Except PyError Unit) =>
    match answer with
    | .ok _ => return outcome.setField "refreshed" (.bool true)
    | .error error =>
      if error.isOpenCodeApiError then
        return outcome.appendItem "errors"
          (.obj [("operation", .str "project_copy_refresh"), ("error", .str error.message)])
      else throw error

/-- `_refresh_project_copies`, with the directories that are missing and that no plan allows. -/
def refreshUnlessUnrelated (supported : List String) (outcome : ProjectOutcome)
    (unrelated : List String) : ProjectCleanup ProjectOutcome :=
  let outcome := { outcome with unrelatedStaleDirectories := unrelated }
  if !unrelated.isEmpty then return outcome.unsupportedBy "project_copy_refresh_unscoped"
  else if "project_copy_refresh" ∉ supported then
    return outcome.unsupportedBy "project_copy_refresh"
  else requestRefresh outcome

/-- `_refresh_project_copies`. -/
def refreshProjectCopies (supported : List String) (outcome : ProjectOutcome) :
    ProjectCleanup ProjectOutcome := do
  let currentRecords ← listProjectDirectories supported outcome.projectId
  let currentMissing ← missingPaths (directoriesOf currentRecords)
  if !outcome.plannedProjectDirectories.any (· ∈ currentMissing) then return outcome
  else
    refreshUnlessUnrelated supported outcome
      (Manifest.sorted (currentMissing.filter fun path => path ∉ allowedRefresh outcome).dedup)

/-- The record of a workspace, the last one of those that are listed with its id. -/
def currentWorkspace (current : List JsonValue) (workspaceId : String) : Option JsonValue :=
  (current.filter fun record =>
    !(record.get "id").isNull && textOf str (record.get "id") = workspaceId).getLast?

/-- The directory of a record, if it has one. -/
def currentDirectory (record : JsonValue) : ProjectCleanup (Option String) :=
  if (record.get "directory").isNull then return none
  else some <$> normalizedDirectory (record.get "directory")

/-- Ask for the deletion of a workspace. -/
def requestDeletion (outcome : ProjectOutcome) (workspaceId : String) :
    ProjectCleanup ProjectOutcome :=
  .call (.deleteWorkspace workspaceId) fun (answer : Except PyError Unit) =>
    match answer with
    | .ok _ => return outcome.appendItem "removed_workspaces" (.str workspaceId)
    | .error error =>
      if error.isOpenCodeApiError then
        return outcome.workspaceError workspaceId error.message
      else throw error

/-- `_remove_workspaces`, on one workspace. -/
def removeWorkspace (current : List JsonValue) (outcome : ProjectOutcome)
    (workspace : PlannedWorkspace) : ProjectCleanup ProjectOutcome := do
  match currentWorkspace str current workspace.id with
  | none => return outcome
  | some record =>
    let directory ← currentDirectory record
    if workspaceProjectId str record ≠ some outcome.projectId ∨
        directory ≠ some workspace.directory then
      return outcome.workspaceError workspace.id "workspace identity changed after preflight"
    else if ← pathExists workspace.directory then
      return outcome.workspaceError workspace.id "workspace directory is still present"
    else requestDeletion outcome workspace.id

/-- `_remove_workspaces`. -/
def removeWorkspaces (supported : List String) (outcome : ProjectOutcome) :
    ProjectCleanup ProjectOutcome := do
  if outcome.plannedWorkspaces.isEmpty then return outcome
  else if "workspace_item" ∉ supported then return outcome.unsupportedBy "workspace_item"
  else
    let current ← listWorkspaces str supported outcome.projectId
    outcome.plannedWorkspaces.foldlM (removeWorkspace str current) outcome

/-! ## Verification -/

/-- A directory of a set, normalized: `None` stays what it is. -/
def normalizedOrNull (directory : JsonValue) : ProjectCleanup (Option String) :=
  if directory.isNull then return none else some <$> normalizedDirectory directory

/-- Those of some directories that are planned or stale. -/
def remainingDirectories (planned : List String) (directoryPrefix : String)
    (current : List (Option String)) : ProjectCleanup (List String) :=
  current.dedup.foldlM (fun remaining path => do
    match path with
    | none => throw noPathError
    | some path =>
      let stale ← isStale (.str path) directoryPrefix []
      if stale || path ∈ planned then return remaining ++ [path] else return remaining) []

/-- What remains of the workspaces: the ids of those that have a valid one, and how each is
named. -/
structure RemainingWorkspaces where
  ids : List String
  names : List String

/-- `_verify`, on one workspace. -/
def verifyWorkspace (directoryPrefix : String) (remaining : RemainingWorkspaces)
    (record : JsonValue) : ProjectCleanup RemainingWorkspaces := do
  if !(record.get "directory").truthy then return remaining
  else if !(← isStale (record.get "directory") directoryPrefix []) then return remaining
  else if validWorkspaceId (record.get "id") then
    let workspaceId := record.text "id"
    return ⟨remaining.ids ++ [workspaceId], remaining.names ++ [workspaceId]⟩
  else
    let directory ← normalizedDirectory (record.get "directory")
    return { remaining with names := remaining.names ++ ["invalid-id:" ++ directory] }

/-- `_verify`, on the workspaces, if the server lists workspaces. -/
def remainingWorkspaces (supported : List String) (projectId directoryPrefix : String) :
    ProjectCleanup RemainingWorkspaces :=
  if "workspace_collection" ∈ supported then do
    let workspaces ← listWorkspaces str supported projectId
    workspaces.foldlM (verifyWorkspace directoryPrefix) ⟨[], []⟩
  else return ⟨[], []⟩

/-- The outcome with what remains and what is verified to be gone. -/
def verifiedOutcome (outcome : ProjectOutcome) (workspaces : RemainingWorkspaces)
    (sandboxes directories : List String) : ProjectOutcome :=
  let verifiedDirectories :=
    outcome.plannedDirectories.filter fun path => path ∉ sandboxes ++ directories
  let verifiedWorkspaces := (outcome.plannedWorkspaces.map PlannedWorkspace.id).filter
    fun workspaceId => workspaceId ∉ workspaces.ids
  let outcome := outcome.setField "remaining"
    (.obj [("project_sandboxes", .texts (Manifest.sorted sandboxes)),
      ("project_directories", .texts (Manifest.sorted directories)),
      ("workspaces", .texts (Manifest.sorted workspaces.names))])
  let outcome := outcome.setField "verified"
    (.obj [("directories", .texts (Manifest.sorted verifiedDirectories.dedup)),
      ("workspaces", .texts (Manifest.sorted verifiedWorkspaces.dedup))])
  if sandboxes.isEmpty then outcome else outcome.unsupportedBy "project_sandbox_remove"

/-- `_verify`. -/
def verify (supported : List String) (outcome : ProjectOutcome) : ProjectCleanup ProjectOutcome := do
  let directoryPrefix := outcome.textOf "directory_prefix"
  let project ← inspectProject str supported outcome.projectId
  let sandboxes ← (← .ofExcept (sandboxesOf project)).mapM normalizedOrNull
  let directories ← (directoriesOf (← listProjectDirectories supported outcome.projectId)).mapM
    normalizedOrNull
  let workspaces ← remainingWorkspaces str supported outcome.projectId directoryPrefix
  let sandboxes ← remainingDirectories outcome.plannedDirectories directoryPrefix sandboxes
  let directories ← remainingDirectories outcome.plannedDirectories directoryPrefix directories
  return verifiedOutcome outcome workspaces sandboxes directories

/-- `_verify`, whose errors of the server are errors of the outcome. -/
def verified (supported : List String) (outcome : ProjectOutcome) :
    ProjectCleanup ProjectOutcome :=
  tryCatch (verify str supported outcome) fun error =>
    if error.isOpenCodeApiError then
      return outcome.appendItem "errors"
        (.obj [("operation", .str "verify"), ("error", .str error.message)])
    else throw error

/-- The outcome with the status of an application that is over. -/
def finished (outcome : ProjectOutcome) : ProjectOutcome :=
  { outcome with
    status :=
      if !(outcome.items "errors").isEmpty then "failed"
      else if !outcome.unsupported.isEmpty ||
          (outcome.field "remaining").fields.any fun remaining => remaining.2.truthy then "partial"
      else "done" }

/-- `ProjectCopyCleanupService.apply_plan`. -/
def applyPlan (supported : List String) (planned : ProjectOutcome) :
    ProjectCleanup ProjectOutcome := do
  let outcome ← refreshProjectCopies supported { planned with mode := "apply" }
  let outcome ← removeWorkspaces str supported outcome
  return finished (← verified str supported outcome)

/-! ## The cleanup of a run -/

/-- Make the service of a server, which gives the routes that are supported. -/
def connect (serverUrl : JsonValue) : ProjectCleanup (List String) :=
  .call (.connect serverUrl) fun (answer : Except PyError (List String)) => .ofExcept answer

/-- The preview of the cleanup of a project copy. -/
def previewCleanup (entry : ProjectCopyRecord) (serverUrl : JsonValue)
    (assumedMissingPaths : List String) : ProjectCleanup ProjectOutcome := do
  let supported ← connect serverUrl
  let outcome ← plan str supported entry.projectId (.str entry.resolvedDirectoryPrefix)
    assumedMissingPaths
  return { outcome with status := if outcome.unsupported.isEmpty then "planned" else "partial" }

/-- The cleanup of a project copy by a plan. -/
def applyCleanup (serverUrl : JsonValue) (projectPlan : ProjectPlan) :
    ProjectCleanup ProjectOutcome := do
  let supported ← connect serverUrl
  applyPlan str supported projectPlan.outcome

/-- The plans of a run are applied one after the other, whatever becomes of each. -/
def applyProjectPlans (serverUrl : JsonValue) (projectPlans : List ProjectPlan) :
    ProjectCleanup (List (Except PyError ProjectOutcome)) :=
  projectPlans.foldlM (fun outcomes projectPlan => do
    return outcomes ++ [← (applyCleanup str serverUrl projectPlan).attempt]) []

end ProjectCopies

end OpencodeSession
