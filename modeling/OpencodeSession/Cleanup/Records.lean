import OpencodeSession.Store.Manifest

/-!
# Paths and the records of owned resources

A record of a resource is what was observed when it was registered: where it is, and which file or
directory it was.  The records come from the manifest of a run, which is validated on every read;
`recordSchemaError` is the same validation of one record.

A path is kept as `pathlib` keeps it, without empty components and without `.`.  Two texts are the
same path when they have the same root and the same components.
-/

namespace OpencodeSession

/-! ## Texts -/

/-- `text.strip()`. -/
def stripText (text : String) : String := String.ofList (strip text.toList)

/-- The characters at which `str.splitlines` ends a line, besides the pair of `\r` and `\n`. -/
def isLineBreak (c : Char) : Bool :=
  c.toNat ∈ [10, 11, 12, 13, 28, 29, 30, 133, 8232, 8233]

/-- `text.splitlines()`. -/
def splitLines (text : String) : List String :=
  go text.toList []
where
  /-- The lines of the rest of a text, with the characters of the current line so far. -/
  go : List Char → List Char → List String
    | [], [] => []
    | [], line => [String.ofList line.reverse]
    | '\r' :: '\n' :: rest, line => String.ofList line.reverse :: go rest []
    | c :: rest, line =>
      if isLineBreak c then String.ofList line.reverse :: go rest [] else go rest (c :: line)

/-- `text.split()`. -/
def splitWords (text : String) : List String :=
  ((text.toList.splitOnP isPySpace).filter fun word => !word.isEmpty).map String.ofList

/-! ## Paths -/

/-- A path. -/
structure PurePath where
  root : String
  parts : List String
  deriving DecidableEq, Repr

namespace PurePath

/-- `Path(text)`.  A path that starts with exactly two slashes has a root of its own. -/
def ofText (text : String) : PurePath where
  root := match text.toList with
    | '/' :: '/' :: '/' :: _ => "/"
    | '/' :: '/' :: _ => "//"
    | '/' :: _ => "/"
    | _ => ""
  parts := ((text.toList.splitOn '/').filter fun part => part ≠ [] ∧ part ≠ ['.']).map
    String.ofList

/-- `str(path)`. -/
def text (path : PurePath) : String :=
  if path.root = "" ∧ path.parts = [] then "." else path.root ++ "/".intercalate path.parts

/-- `path / other`. -/
def join (path other : PurePath) : PurePath :=
  if other.root ≠ "" then other else { path with parts := path.parts ++ other.parts }

/-- `path.parent`. -/
def parent (path : PurePath) : PurePath := { path with parts := path.parts.dropLast }

end PurePath

/-! ## Records -/

/-- A branch is identified by two texts, which are compared as such. -/
instance identityLawful : LawfulBEq (String × String) := inferInstance

namespace JsonValue

/-- A list of texts. -/
def texts (texts : List String) : JsonValue := .arr (texts.map .str)

/-- A field that is a text. -/
def text (value : JsonValue) (name : String) : String :=
  match value.get name with
  | .str s => s
  | _ => ""

/-- A field that is a number from zero on. -/
def number (value : JsonValue) (name : String) : Nat :=
  match value.get name with
  | .int n => n.toNat
  | _ => 0

end JsonValue

/-- The record of an owned worktree, and of its branch. -/
structure WorktreeRecord where
  path : String
  gitDir : String
  linkedGitDir : String
  linkedGitDirDevice : Nat
  linkedGitDirInode : Nat
  branch : String
  branchReflog : String
  branchReflogDevice : Nat
  branchReflogInode : Nat
  registeredBranchTip : String
  workerId : String
  deriving DecidableEq, Repr

/-- The record of an owned log. -/
structure LogRecord where
  path : String
  parentRealpath : String
  device : Nat
  inode : Nat
  resourceType : String
  parentDevice : Nat
  parentInode : Nat
  workerId : String
  deriving DecidableEq, Repr

/-- The record of an owned project copy. -/
structure ProjectCopyRecord where
  projectId : String
  directoryPrefix : String
  workerId : String
  resolvedDirectoryPrefix : String
  directoryPrefixParentRealpath : String
  directoryPrefixParentDevice : Nat
  directoryPrefixParentInode : Nat
  deriving DecidableEq, Repr

namespace WorktreeRecord

/-- The record as it is stored. -/
def toJson (record : WorktreeRecord) : JsonValue :=
  .obj [("path", .str record.path), ("git_dir", .str record.gitDir),
    ("linked_git_dir", .str record.linkedGitDir),
    ("linked_git_dir_device", .int record.linkedGitDirDevice),
    ("linked_git_dir_inode", .int record.linkedGitDirInode), ("branch", .str record.branch),
    ("branch_reflog", .str record.branchReflog),
    ("branch_reflog_device", .int record.branchReflogDevice),
    ("branch_reflog_inode", .int record.branchReflogInode),
    ("registered_branch_tip", .str record.registeredBranchTip),
    ("worker_id", .str record.workerId)]

/-- The record that a stored one is. -/
def ofJson (value : JsonValue) : WorktreeRecord where
  path := value.text "path"
  gitDir := value.text "git_dir"
  linkedGitDir := value.text "linked_git_dir"
  linkedGitDirDevice := value.number "linked_git_dir_device"
  linkedGitDirInode := value.number "linked_git_dir_inode"
  branch := value.text "branch"
  branchReflog := value.text "branch_reflog"
  branchReflogDevice := value.number "branch_reflog_device"
  branchReflogInode := value.number "branch_reflog_inode"
  registeredBranchTip := value.text "registered_branch_tip"
  workerId := value.text "worker_id"

/-- The repository and the name of the branch, by which a branch is identified. -/
def branchIdentity (record : WorktreeRecord) : String × String := (record.gitDir, record.branch)

end WorktreeRecord

namespace LogRecord

/-- The record as it is stored. -/
def toJson (record : LogRecord) : JsonValue :=
  .obj [("path", .str record.path), ("parent_realpath", .str record.parentRealpath),
    ("device", .int record.device), ("inode", .int record.inode),
    ("resource_type", .str record.resourceType), ("parent_device", .int record.parentDevice),
    ("parent_inode", .int record.parentInode), ("worker_id", .str record.workerId)]

/-- The record that a stored one is. -/
def ofJson (value : JsonValue) : LogRecord where
  path := value.text "path"
  parentRealpath := value.text "parent_realpath"
  device := value.number "device"
  inode := value.number "inode"
  resourceType := value.text "resource_type"
  parentDevice := value.number "parent_device"
  parentInode := value.number "parent_inode"
  workerId := value.text "worker_id"

end LogRecord

namespace ProjectCopyRecord

/-- The record as it is stored. -/
def toJson (record : ProjectCopyRecord) : JsonValue :=
  .obj [("project_id", .str record.projectId), ("directory_prefix", .str record.directoryPrefix),
    ("worker_id", .str record.workerId),
    ("resolved_directory_prefix", .str record.resolvedDirectoryPrefix),
    ("directory_prefix_parent_realpath", .str record.directoryPrefixParentRealpath),
    ("directory_prefix_parent_device", .int record.directoryPrefixParentDevice),
    ("directory_prefix_parent_inode", .int record.directoryPrefixParentInode)]

/-- The record that a stored one is. -/
def ofJson (value : JsonValue) : ProjectCopyRecord where
  projectId := value.text "project_id"
  directoryPrefix := value.text "directory_prefix"
  workerId := value.text "worker_id"
  resolvedDirectoryPrefix := value.text "resolved_directory_prefix"
  directoryPrefixParentRealpath := value.text "directory_prefix_parent_realpath"
  directoryPrefixParentDevice := value.number "directory_prefix_parent_device"
  directoryPrefixParentInode := value.number "directory_prefix_parent_inode"

/-- The project and the prefix, by which a project copy is identified. -/
def identity (record : ProjectCopyRecord) : String × String :=
  (record.projectId, record.directoryPrefix)

end ProjectCopyRecord

/-- `_record_schema_error`: what is wrong with a record, called by a name. -/
def recordSchemaError (kind : ResourceKind) (record : JsonValue) (called : String) :
    Option String :=
  let manifest : JsonValue := .obj (ResourceKind.all.map fun field =>
    (field.fieldName, .arr (if field = kind then [record] else [])))
  match Manifest.validateRunResourceManifest manifest with
  | .ok _ => none
  | .error error => some s!"invalid owned {called} record: {error}"

/-! ## The cleanup of project copies -/

/-- The outcome of planning the cleanup of a project copy, as far as a cleanup of a run reads or
writes it; the other fields are kept. -/
structure ProjectOutcome where
  projectId : String
  mode : String
  status : String
  plannedProjectDirectories : List String
  unrelatedStaleDirectories : List String
  unsupported : List String
  /-- `allowed_refresh_directories`, once the scope is frozen. -/
  allowedRefreshDirectories : Option (List String)
  others : List (String × JsonValue)

/-- The outcome as it is recorded. -/
def ProjectOutcome.toJson (outcome : ProjectOutcome) : JsonValue :=
  .obj (outcome.others ++
    [("project_id", .str outcome.projectId), ("mode", .str outcome.mode),
      ("status", .str outcome.status),
      ("planned_project_directories", .texts outcome.plannedProjectDirectories),
      ("unrelated_stale_directories", .texts outcome.unrelatedStaleDirectories),
      ("unsupported", .texts outcome.unsupported)] ++
    match outcome.allowedRefreshDirectories with
    | some directories => [("allowed_refresh_directories", .texts directories)]
    | none => [])

/-- The result of applying the plan of a project copy. -/
structure ProjectResult where
  verified : Bool
  error : Option String
  outcome : JsonValue

end OpencodeSession
