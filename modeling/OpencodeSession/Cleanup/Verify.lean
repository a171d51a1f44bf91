import OpencodeSession.Cleanup.Interface

/-!
# Is it still the same resource?

The checks of a record against what is there now.  A check answers no error only while everything
that was recorded is found again: the repository and the linked directory of a worktree, the file of
a log and its directory, the reflog of a branch, the directory of a project copy.

A check reads and changes nothing.  Its requests are made one after another, and each sees what is
there at its own time.
-/

namespace OpencodeSession

namespace RunResources

open Cleanup

/-- A request whose `OSError` is a failed inspection, `RunResourceError` or
`ProjectCopyOwnershipError`. -/
def inspecting {α : Type} (request : Cleanup α) (failure : PyError → String) :
    Cleanup (Except String α) := do
  match ← request.attempt with
  | .ok a => return .ok a
  | .error error =>
    if error.isOSError then return .error (failure error) else throw error

/-- `_directory_identity`. -/
def directoryIdentity (path : PurePath) (label : String) :
    Cleanup (Except String (Nat × Nat)) := do
  match ← inspecting (stat path) fun error =>
      s!"cannot inspect {label} {path.text}: {error.message}" with
  | .error message => return .error message
  | .ok details =>
    if details.kind ≠ .directory then return .error s!"{label} is not a directory: {path.text}"
    else return .ok (details.device, details.inode)

/-- `_file_identity`. -/
def fileIdentity (path : PurePath) (label : String) : Cleanup (Except String (Nat × Nat)) := do
  match ← inspecting (stat path) fun error =>
      s!"cannot inspect {label} {path.text}: {error.message}" with
  | .error message => return .error message
  | .ok details =>
    if details.kind ≠ .regular then
      return .error s!"{label} is not a regular file: {path.text}"
    else return .ok (details.device, details.inode)

/-- `_resource_type`. -/
def resourceType : FileKind → Option String
  | .regular => some "file"
  | .symlink => some "symlink"
  | .directory | .other => none

/-- `_log_identity`. -/
def logIdentity (path : PurePath) : Cleanup (Except String (Nat × Nat × String)) := do
  match ← inspecting (lstat path) fun error =>
      s!"cannot inspect owned log {path.text}: {error.message}" with
  | .error message => return .error message
  | .ok details =>
    match resourceType details.kind with
    | none => return .error s!"owned log must be a regular file or symlink: {path.text}"
    | some resourceType => return .ok (details.device, details.inode, resourceType)

/-- `_git_output` with `allow_failure`. -/
def gitOutput (command : GitCommand) : Cleanup String := do
  let result ← git command
  return if result.returncode ≠ 0 then "" else stripText result.stdout

/-- Whether a text is a path that resolves to another: `text and Path(text).resolve() == path`. -/
def resolvesTo (text : String) (path : PurePath) : Cleanup Bool := do
  if text = "" then return false
  else
    let resolved ← resolve (.ofText text)
    return resolved = path

/-- `verify_owned_worktree`. -/
def verifyOwnedWorktree (record : WorktreeRecord) : Cleanup (Option String) := do
  match recordSchemaError .worktrees record.toJson "resource" with
  | some error => return some error
  | none =>
    let path := PurePath.ofText record.path
    if !(← isDir path) then
      return some "owned worktree path no longer exists as a directory"
    else if !(← resolvesTo (← gitOutput (.showToplevel path)) path) then
      return some "owned worktree path is no longer the recorded Git top-level directory"
    else if !(← resolvesTo (← gitOutput (.gitCommonDir path)) (.ofText record.gitDir)) then
      return some "owned worktree no longer belongs to the recorded repository"
    else
      let currentLinked ← gitOutput (.absoluteGitDir path)
      if !(← resolvesTo currentLinked (.ofText record.linkedGitDir)) then
        return some "owned worktree linked Git directory has changed"
      else
        match ← directoryIdentity (← resolve (.ofText currentLinked)) "linked Git directory" with
        | .error error => return some error
        | .ok linkedIdentity =>
          if linkedIdentity ≠ (record.linkedGitDirDevice, record.linkedGitDirInode) then
            return some "owned worktree linked Git directory identity has changed"
          else
            let branch ← gitOutput (.symbolicRef path)
            if branch = "" then return some "owned worktree is now detached"
            else if branch ≠ record.branch then
              return some s!"owned worktree branch changed from {record.branch} to {branch}"
            else return none

/-- `verify_owned_log`. -/
def verifyOwnedLog (record : LogRecord) : Cleanup (Option String) := do
  match recordSchemaError .logs record.toJson "resource" with
  | some error => return some error
  | none =>
    let path := PurePath.ofText record.path
    let currentParent := PurePath.ofText (← realpath path.parent)
    if currentParent ≠ .ofText record.parentRealpath then
      return some "owned log parent real path has changed"
    else
      match ← directoryIdentity currentParent "log parent directory" with
      | .error error => return some error
      | .ok parentIdentity =>
        if parentIdentity ≠ (record.parentDevice, record.parentInode) then
          return some "owned log parent directory identity has changed"
        else
          match ← logIdentity path with
          | .error error => return some error
          | .ok identity =>
            if identity ≠ (record.device, record.inode, record.resourceType) then
              return some "owned log identity or type has changed"
            else return none

/-- The reflog of a branch. -/
def branchReflog (gitDir branch : String) : PurePath :=
  ((PurePath.ofText gitDir).join ⟨"", ["logs", "refs", "heads"]⟩).join (.ofText branch)

/-- `verify_owned_branch`. -/
def verifyOwnedBranch (record : WorktreeRecord) : Cleanup (Option String) := do
  match recordSchemaError .worktrees record.toJson "resource" with
  | some error => return some error
  | none =>
    let expectedReflog := branchReflog record.gitDir record.branch
    if PurePath.ofText record.branchReflog ≠ expectedReflog then
      return some "owned branch reflog path does not match the recorded repository and branch"
    else
      match ← fileIdentity expectedReflog "branch reflog" with
      | .error error => return some error
      | .ok currentIdentity =>
        if currentIdentity ≠ (record.branchReflogDevice, record.branchReflogInode) then
          return some "owned branch reflog identity has changed"
        else
          match ← inspecting (readText expectedReflog) fun error =>
              s!"cannot read owned branch reflog: {error.message}" with
          | .error error => return some error
          | .ok reflogText =>
            if record.registeredBranchTip ∉ splitWords reflogText then
              return some "owned branch reflog no longer contains the registered tip"
            else return none

/-- `project_copy_identity`: the directory of the prefix, and its parent. -/
def projectCopyIdentity (path : PurePath) :
    Cleanup (Except String (String × String × Nat × Nat)) := do
  let parentRealpath := PurePath.ofText (← realpath path.parent)
  match ← inspecting (stat parentRealpath) fun error =>
      s!"cannot inspect project-copy prefix parent {parentRealpath.text}: {error.message}" with
  | .error message => return .error message
  | .ok parentDetails =>
    if parentDetails.kind ≠ .directory then
      return .error s!"project-copy prefix parent is not a directory: {parentRealpath.text}"
    else
      return .ok (← realpath path, parentRealpath.text, parentDetails.device, parentDetails.inode)

/-- `verify_owned_project_copy`. -/
def verifyOwnedProjectCopy (record : ProjectCopyRecord) : Cleanup (Option String) := do
  match recordSchemaError .projectCopies record.toJson "project-copy" with
  | some error => return some error
  | none =>
    match ← projectCopyIdentity (.ofText record.directoryPrefix) with
    | .error error => return some error
    | .ok current =>
      if (record.resolvedDirectoryPrefix, record.directoryPrefixParentRealpath,
          record.directoryPrefixParentDevice, record.directoryPrefixParentInode) ≠ current then
        return some "owned project-copy directory prefix identity has changed"
      else return none

end RunResources

end OpencodeSession
