import Mathlib.Data.List.Sort
import Mathlib.Tactic.SplitIfs
import OpencodeSession.Framework.Exceptions
import OpencodeSession.Json
import OpencodeSession.Worker.Status

/-!
# The manifest of a run's resources

The worktrees, logs and project copies that a run has registered, as `resources` of its record.  The
manifest is read strictly: an object has exactly the fields of its kind, each with the kind of value
it is checked for.  What is read is a copy of what was written (`normalizeRunResources_idem`).
-/

namespace OpencodeSession

/-- The lists of a manifest. -/
inductive ResourceKind where
  | worktrees | logs | projectCopies
  deriving DecidableEq

namespace ResourceKind

/-- `RESOURCE_LIST_FIELDS`. -/
def all : List ResourceKind := [worktrees, logs, projectCopies]

/-- The field of a list. -/
def fieldName : ResourceKind → String
  | worktrees => "worktrees"
  | logs => "logs"
  | projectCopies => "project_copies"

end ResourceKind

/-- What the value of a field is checked for. -/
inductive ResourceCheck where
  /-- `_require_path`. -/
  | path (allowRoot : Bool)
  /-- `_require_identity`. -/
  | identity
  /-- `_require_text`. -/
  | text
  /-- `_require_text`, and one of `_LOG_RESOURCE_TYPES`. -/
  | resourceType

/-- The fields of a record of a kind, in the order in which they are checked. -/
def ResourceKind.checks : ResourceKind → List (String × ResourceCheck)
  | worktrees =>
    [("path", .path false), ("git_dir", .path false), ("linked_git_dir", .path false),
      ("linked_git_dir_device", .identity), ("linked_git_dir_inode", .identity),
      ("branch", .text), ("branch_reflog", .path false), ("branch_reflog_device", .identity),
      ("branch_reflog_inode", .identity), ("registered_branch_tip", .text), ("worker_id", .text)]
  | logs =>
    [("path", .path false), ("parent_realpath", .path true), ("device", .identity),
      ("inode", .identity), ("parent_device", .identity), ("parent_inode", .identity),
      ("resource_type", .resourceType), ("worker_id", .text)]
  | projectCopies =>
    [("project_id", .text), ("directory_prefix", .path false),
      ("resolved_directory_prefix", .path false),
      ("directory_prefix_parent_realpath", .path true),
      ("directory_prefix_parent_device", .identity), ("directory_prefix_parent_inode", .identity),
      ("worker_id", .text)]

namespace Manifest

/-- The texts in order. -/
def sorted (names : List String) : List String := names.insertionSort (· ≤ ·)

/-- The fields that are missing or too many, as an error. -/
def requireExactFields (expected present : List String) (label : String) : Except String Unit :=
  let missing := sorted (expected.filter fun name => name ∉ present)
  let unexpected := sorted (present.filter fun name => name ∉ expected)
  if !missing.isEmpty then
    let names := ", ".intercalate missing
    .error s!"{label} is missing fields: {names}"
  else if !unexpected.isEmpty then
    let names := ", ".intercalate unexpected
    .error s!"{label} has unexpected fields: {names}"
  else .ok ()

/-- `Path(value).is_absolute()`. -/
def isAbsolute (value : String) : Bool := value.toList.head? = some '/'

/-- Whether an absolute path is a root of the file system. -/
def isRoot (value : String) : Bool :=
  (value.toList.splitOn '/').all fun component => component = [] ∨ component = ['.']

/-- The text of a field, if it is one that is not blank. -/
def requireText (value : JsonValue) (label name : String) : Except String String :=
  match value with
  | .str s =>
    if (strip s.toList).isEmpty then .error s!"{label}.{name} must be a non-empty string"
    else .ok s
  | _ => .error s!"{label}.{name} must be a non-empty string"

/-- Check the value of a field. -/
def requireField (label name : String) (value : JsonValue) : ResourceCheck → Except String Unit
  | .path allowRoot => do
    let path ← requireText value label name
    if !isAbsolute path then .error s!"{label}.{name} must be an absolute path"
    else if !allowRoot && isRoot path then
      .error s!"{label}.{name} cannot be a filesystem root"
    else return ()
  | .identity =>
    match value with
    | .int n => if n < 0 then notIdentity else .ok ()
    | _ => notIdentity
  | .text => do
    let _ ← requireText value label name
    return ()
  | .resourceType => do
    let resourceType ← requireText value label name
    if resourceType ∈ ["file", "symlink"] then return ()
    else .error s!"{label}.{name} must be one of: file, symlink"
where
  /-- The error of a value that identifies nothing. -/
  notIdentity : Except String Unit := .error s!"{label}.{name} must be a non-negative integer"

/-- `_validate_worktree`, `_validate_log` and `_validate_project_copy`. -/
def validateRecord (kind : ResourceKind) (record : JsonValue) (label : String) :
    Except String Unit := do
  requireExactFields (kind.checks.map Prod.fst) (record.fields.map Prod.fst) label
  kind.checks.forM fun check => requireField label check.1 (record.get check.1) check.2

/-- `_normalize_record`. -/
def normalizeRecord (kind : ResourceKind) (record : JsonValue) (index : Nat) :
    Except String JsonValue := do
  let label := s!"resources.{kind.fieldName}[{index}]"
  if !record.isObj then .error s!"{label} must be an object"
  else
    validateRecord kind record label
    return record

/-- The records of a list, checked one after another. -/
def normalizeRecords (kind : ResourceKind) : List JsonValue → Nat → Except String (List JsonValue)
  | [], _ => .ok []
  | record :: records, index => do
    let record ← normalizeRecord kind record index
    let records ← normalizeRecords kind records (index + 1)
    return record :: records

/-- One list of a manifest. -/
def normalizeList (value : JsonValue) (kind : ResourceKind) :
    Except String (String × JsonValue) :=
  match value.get kind.fieldName with
  | .arr records => do
    let records ← normalizeRecords kind records 0
    return (kind.fieldName, .arr records)
  | _ => .error s!"resources.{kind.fieldName} must be an array"

/-- `validate_run_resource_manifest`. -/
def validateRunResourceManifest (value : JsonValue) : Except String JsonValue :=
  match value with
  | .obj fields => do
    requireExactFields (ResourceKind.all.map ResourceKind.fieldName) (fields.map Prod.fst)
      "resources"
    let lists ← ResourceKind.all.mapM (normalizeList value)
    return .obj lists
  | _ => .error "resources must be an object"

/-! ## Facts -/

lemma normalizeRecord_eq {kind : ResourceKind} {record normalized : JsonValue} {index : Nat}
    (h : normalizeRecord kind record index = .ok normalized) : normalized = record := by
  unfold normalizeRecord at h
  dsimp only at h
  split_ifs at h
  obtain ⟨_, -, hrecord⟩ := Except.bind_eq_ok.1 h
  cases hrecord
  rfl

lemma normalizeRecords_eq {kind : ResourceKind} {records normalized : List JsonValue} {index : Nat}
    (h : normalizeRecords kind records index = .ok normalized) : normalized = records := by
  induction records generalizing normalized index with
  | nil =>
    cases h
    rfl
  | cons record records ih =>
    obtain ⟨first, hfirst, h⟩ := Except.bind_eq_ok.1 h
    obtain ⟨rest, hrest, h⟩ := Except.bind_eq_ok.1 h
    cases h
    rw [normalizeRecord_eq hfirst, ih hrest]

/-- A list that is read is a copy of the list that is there. -/
lemma normalizeList_eq_ok {kind : ResourceKind} {value : JsonValue} {entry : String × JsonValue}
    (h : normalizeList value kind = .ok entry) :
    ∃ records, value.get kind.fieldName = .arr records ∧
      normalizeRecords kind records 0 = .ok records ∧ entry = (kind.fieldName, .arr records) := by
  unfold normalizeList at h
  split at h
  · next records hget =>
    obtain ⟨normalized, hnormalized, hentry⟩ := Except.bind_eq_ok.1 h
    cases hentry
    obtain rfl := normalizeRecords_eq hnormalized
    exact ⟨normalized, hget, hnormalized, rfl⟩
  · cases h

lemma normalizeList_of_get {kind : ResourceKind} {value : JsonValue} {records : List JsonValue}
    (hget : value.get kind.fieldName = .arr records)
    (hrecords : normalizeRecords kind records 0 = .ok records) :
    normalizeList value kind = .ok (kind.fieldName, .arr records) := by
  rw [normalizeList, hget]
  exact Except.bind_eq_ok.2 ⟨records, hrecords, rfl⟩

theorem validateRunResourceManifest_idem {value manifest : JsonValue}
    (h : validateRunResourceManifest value = .ok manifest) :
    validateRunResourceManifest manifest = .ok manifest := by
  unfold validateRunResourceManifest at h
  split at h
  · next fields =>
    obtain ⟨-, -, h⟩ := Except.bind_eq_ok.1 h
    obtain ⟨lists, hlists, h⟩ := Except.bind_eq_ok.1 h
    cases h
    simp only [ResourceKind.all, List.mapM_cons, List.mapM_nil] at hlists
    simp only [bind_assoc, pure_bind] at hlists
    obtain ⟨worktrees, hworktrees, hlists⟩ := Except.bind_eq_ok.1 hlists
    obtain ⟨logs, hlogs, hlists⟩ := Except.bind_eq_ok.1 hlists
    obtain ⟨copies, hcopies, hlists⟩ := Except.bind_eq_ok.1 hlists
    cases hlists
    obtain ⟨_, -, hworktrees', rfl⟩ := normalizeList_eq_ok hworktrees
    obtain ⟨_, -, hlogs', rfl⟩ := normalizeList_eq_ok hlogs
    obtain ⟨_, -, hcopies', rfl⟩ := normalizeList_eq_ok hcopies
    refine Except.bind_eq_ok.2 ⟨(), rfl, Except.bind_eq_ok.2 ⟨_, ?_, rfl⟩⟩
    simp only [ResourceKind.all, List.mapM_cons, List.mapM_nil, bind_assoc, pure_bind]
    refine Except.bind_eq_ok.2 ⟨_, normalizeList_of_get rfl hworktrees', ?_⟩
    refine Except.bind_eq_ok.2 ⟨_, normalizeList_of_get rfl hlogs', ?_⟩
    exact Except.bind_eq_ok.2 ⟨_, normalizeList_of_get rfl hcopies', rfl⟩
  · cases h

end Manifest

end OpencodeSession
