import Mathlib.Logic.Function.Basic
import Mathlib.Tactic.SplitIfs
import OpencodeSession.Store.RunRecord

/-!
# The store of runs

A directory with one file for each run.  A file is found by the name that a caller gives, and a run
is written to the file of the name in its record; the two are the same name only where the record
says so.  Every function here runs under the lock of the run that its caller names, so it is one
step.

A file is modelled by the JSON in it.  The order in which a file lists the fields of an object is
not: dictionaries are compared without it.
-/

namespace OpencodeSession

/-- The contents of the files of the runs, by the names of the runs. -/
abbrev Directory : Type := String → Option JsonValue

/-- `RunStore`. -/
structure RunStore where
  root : String

/-- What a mutator makes of a run. -/
abbrev Mutator : Type := RunData → Except PyError RunValue

/-- A run that was saved, with the run whose file it was written to and what was written. -/
structure Saved where
  run : RunData
  path : String
  content : JsonValue

/-- The directory after a run was saved. -/
def Saved.applyTo (saved : Saved) (directory : Directory) : Directory :=
  Function.update directory saved.path (some saved.content)

namespace RunStore

variable (py : Interpreter) (store : RunStore)

/-- `_run_path`: the run whose file a name stands for. -/
def runPath (name : JsonValue) : Except PyError String :=
  if !name.truthy then invalid
  else match name with
    | .str s =>
      if s ∈ [".", ".."] ∨ '/' ∈ s.toList ∨ '\\' ∈ s.toList then invalid else .ok s
    | .arr _ | .obj _ => .error (.unhashable name)
    | _ => .error (.typeError s!"argument of type '{name.typeName}' is not iterable")
where
  /-- The error of a name that no run can have. -/
  invalid : Except PyError String :=
    let shown := py.str name
    .error (.runStore s!"invalid run name '{shown}'" "data")

/-- An error of the record as one of the store. -/
def ofRecordErrors {α : Type} (r : Except PyError α) : Except PyError α :=
  match r with
  | .error (.runRecord message kind) => .error (.runStore message kind)
  | r => r

/-- `_normalize_for_store`. -/
def normalizeForStore (run : RunValue) (fallbackName : String) : Except PyError RunData :=
  ofRecordErrors (RunRecord.normalizeRun py run (.str fallbackName))

/-- `_read_run_data_unlocked`. -/
def readRunData (directory : Directory) (name : String) : Except PyError Fields := do
  let path ← runPath py (.str name)
  match directory path with
  | none => .error (.runStore s!"run '{name}' not found in {store.root}" "missing")
  | some (.obj fields) => return fields
  | some _ =>
    .error (.runStore (s!"run record for '{name}' is corrupted: expected JSON object in " ++
      s!"{store.root}/{path}.json") "data")

/-- `load_run`. -/
def loadRun (directory : Directory) (name : String) : Except PyError RunData := do
  let persisted ← store.readRunData py directory name
  normalizeForStore py (.ofFields persisted) name

/-- `_write_run_unlocked`. -/
def writeRun (run : RunData) (persisted : Fields) : Except PyError Saved := do
  let stored ← ofRecordErrors (RunRecord.normalizeForStorage py run persisted)
  let path ← runPath py (stored.field "name")
  return { run := run, path := path, content := .obj stored }

/-- `update_run`. -/
def updateRun (directory : Directory) (name : String) (mutator : Mutator)
    (allowCleanupInProgress : Bool) : Except PyError Saved := do
  let persisted ← store.readRunData py directory name
  let run ← normalizeForStore py (.ofFields persisted) name
  if !allowCleanupInProgress && run.cleanupInProgress then
    .error (.runStore
      s!"run '{name}' has cleanup in progress; mutation is temporarily fenced" "conflict")
  else
    let replacement ← mutator run
    let run ← normalizeForStore py replacement name
    writeRun py run persisted

/-- `delete_run`: the directory without the file. -/
def deleteRun (directory : Directory) (name : String) (expectedRun : Option RunData) :
    Except PyError Directory := do
  let path ← runPath py (.str name)
  let unchanged ← match expectedRun with
    | none => pure true
    | some expected => (·.pyEq expected) <$> store.loadRun py directory name
  if !unchanged then
    .error (.runStore
      "run record changed before deletion; refusing to delete the updated record" "conflict")
  else match directory path with
    | none => .error (.runStore s!"run '{name}' not found in {store.root}" "missing")
    | some _ => return Function.update directory path none

/-- A name that stands for the file of a run is the name of the run. -/
lemma runPath_eq_ok {py : Interpreter} {name : JsonValue} {path : String}
    (h : runPath py name = .ok path) : name = .str path ∧ name.truthy = true := by
  unfold runPath at h
  split_ifs at h with htruthy
  · cases h
  · split at h
    · split_ifs at h
      · cases h
      · cases h
        exact ⟨rfl, by simpa using htruthy⟩
    · cases h
    · cases h
    · cases h

end RunStore

end OpencodeSession
