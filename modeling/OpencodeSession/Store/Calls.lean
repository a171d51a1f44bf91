import OpencodeSession.Framework.AtomicFile
import OpencodeSession.Properties.RunIsolation

/-!
# The store, request by request

What the functions of the store do with the file of one run, one request to the file system at a
time: they take the lock of the run, read the file, write the new record under a temporary name and
rename it.  `RunStore` has the same functions as single steps.

How JSON is written and read is a parameter.  An update whose record has the name of another run
writes the file of that run, and nothing here.  That the directory of the store cannot be made and
that a lock file cannot be opened are errors of taking the lock.
-/

namespace OpencodeSession

open AtomicFile

/-- What `json.load` may raise. -/
inductive JsonLoadError where
  /-- `JSONDecodeError`. -/
  | decode (message : String)
  | other (error : PyError)

/-- How JSON is written to files and read from them. -/
structure JsonFiles where
  /-- The chunks that `json.dump` writes, with sorted keys. -/
  dump : JsonValue → List (List UInt8)
  /-- `json.load`. -/
  load : List UInt8 → Except JsonLoadError JsonValue

/-- What is written of a value, with the new line. -/
def JsonFiles.chunks (json : JsonFiles) (value : JsonValue) : List (List UInt8) :=
  json.dump value ++ [[10]]

/-- A process on the file of a run. -/
abbrev StoreProcess (α : Type) : Type := Process (AtomicFile.interface PyError UInt8) PyError α

/-- `new_run_record`, with the directory resolved. -/
def newRunRecord (name directory serverUrl now : String) : RunValue where
  fields := [("schema_version", .int 1), ("name", .str name), ("run_id", .str name),
    ("directory", .str directory), ("server_url", .str serverUrl), ("status", .str "queued"),
    ("retry_count", .int 0), ("timeout_seconds", .null), ("blockers", .arr []),
    ("output_refs", .arr []), ("created_at", .str now), ("updated_at", .str now)]
  workers := .entries []

/-- The calls of the store. -/
inductive StoreCall where
  | createRun (directory serverUrl now : String)
  | loadRun
  | updateRun (mutator : Mutator) (allowCleanupInProgress : Bool)
  | deleteRun (expectedRun : Option RunData)

namespace StoreCall

variable (py : Interpreter) (json : JsonFiles) (store : RunStore) (name : String)

/-! ## Reading and writing -/

/-- What `json.load` gives for what is in the file. -/
def parse (text : List UInt8) : Except PyError JsonValue :=
  match json.load text with
  | .ok value => .ok value
  | .error (.decode message) => .error (.runStore (s!"run record for '{name}' is corrupted: " ++
      s!"invalid JSON in {store.root}/{name}.json: {message}") "data")
  | .error (.other error) => .error error

/-- The dictionary of a record. -/
def asRecord : JsonValue → Except PyError Fields
  | .obj fields => .ok fields
  | _ => .error (.runStore (s!"run record for '{name}' is corrupted: expected JSON object in " ++
      s!"{store.root}/{name}.json") "data")

/-- The error of a run that has no file. -/
def missing : PyError := .runStore s!"run '{name}' not found in {store.root}" "missing"

/-- `_read_run_data_unlocked`. -/
def readRunData : StoreProcess Fields := do
  let _ ← Process.ofExcept (RunStore.runPath py (.str name))
  match ← readFile with
  | none => throw (missing store name)
  | some text => Process.ofExcept (do asRecord store name (← parse json store name text))

/-- `_read_run_unlocked`. -/
def readRun : StoreProcess RunData := do
  let persisted ← readRunData py json store name
  Process.ofExcept (RunStore.normalizeForStore py (.ofFields persisted) name)

/-- `_write_run_unlocked`. -/
def writeRun (run : RunData) (persisted : Fields) : StoreProcess RunData := do
  let saved ← Process.ofExcept (RunStore.writeRun py run persisted)
  if saved.path = name then replaceFile (json.chunks saved.content)
  return run

/-- `_locked_run`. -/
def lockedRun {α : Type} (block : StoreProcess α) : StoreProcess α := do
  let _ ← Process.ofExcept (RunStore.runPath py (.str name))
  locked block

/-! ## The functions of the store -/

/-- What `update_run` does under the lock. -/
def updateUnlocked (mutator : Mutator) (allowCleanupInProgress : Bool) : StoreProcess RunData := do
  let persisted ← readRunData py json store name
  let run ← Process.ofExcept (RunStore.normalizeForStore py (.ofFields persisted) name)
  if !allowCleanupInProgress && run.cleanupInProgress then
    throw (.runStore
      s!"run '{name}' has cleanup in progress; mutation is temporarily fenced" "conflict")
  else
    let replacement ← Process.ofExcept (mutator run)
    let run ← Process.ofExcept (RunStore.normalizeForStore py replacement name)
    writeRun py json name run persisted

/-- What `create_run` does under the lock. -/
def createUnlocked (run : RunData) : StoreProcess RunData := do
  if ← ask .pathExists id then
    throw (.runStore s!"run '{name}' already exists in {store.root}" "exists")
  else writeRun py json name run []

/-- Whether the record is still the expected one. -/
def stillExpected : Option RunData → StoreProcess Bool
  | none => return true
  | some expected => (·.pyEq expected) <$> readRun py json store name

/-- An error of removing the file. -/
def unlinkError : PyError → PyError
  | .osError message | .timeoutError message =>
    .runStore s!"cannot delete run '{name}' from {store.root}: {message}" "data"
  | error => error

/-- What `delete_run` does under the lock. -/
def deleteUnlocked (expectedRun : Option RunData) : StoreProcess Unit := do
  if ← stillExpected py json store name expectedRun then
    let removed ← (ask .unlink id).handle fun error => throw (unlinkError store name error)
    if removed then return () else throw (missing store name)
  else
    throw (.runStore
      "run record changed before deletion; refusing to delete the updated record" "conflict")

/-- A call, request by request.  What it returns is the run, if it returns one. -/
def steps : StoreCall → StoreProcess (Option RunData)
  | createRun directory serverUrl now => do
    let run ← Process.ofExcept
      (RunStore.normalizeForStore py (newRunRecord name directory serverUrl now) name)
    some <$> lockedRun py name (createUnlocked py json store name run)
  | loadRun => some <$> readRun py json store name
  | updateRun mutator allowCleanupInProgress =>
    some <$> lockedRun py name (updateUnlocked py json store name mutator allowCleanupInProgress)
  | deleteRun expectedRun => do
    lockedRun py name (deleteUnlocked py json store name expectedRun)
    return none

/-! ## The calls as single steps -/

/-- The directory whose only file is that of the run. -/
def directoryOf (value : Option JsonValue) : Directory := fun path =>
  if path = name then value else none

/-- What the file holds as JSON. -/
def valueOf (content : Option (List UInt8)) : Except PyError (Option JsonValue) :=
  match content with
  | none => .ok none
  | some text => some <$> parse json store name text

/-- What the file holds after a run was saved. -/
def contentAfter (saved : Saved) (content : Option (List UInt8)) : Option (List UInt8) :=
  if saved.path = name then some (json.chunks saved.content).flatten else content

/-- A call as a single step on what the file holds: what it returns, and what it leaves. -/
def atomic (content : Option (List UInt8)) :
    StoreCall → Except PyError (Option RunData × Option (List UInt8))
  | createRun directory serverUrl now => do
    let run ← RunStore.normalizeForStore py (newRunRecord name directory serverUrl now) name
    if content.isSome then
      .error (.runStore s!"run '{name}' already exists in {store.root}" "exists")
    else
      let saved ← RunStore.writeRun py run []
      return (some run, contentAfter json name saved content)
  | loadRun => do
    let value ← valueOf json store name content
    let run ← store.loadRun py (directoryOf name value) name
    return (some run, content)
  | updateRun mutator allowCleanupInProgress => do
    let value ← valueOf json store name content
    let saved ← store.updateRun py (directoryOf name value) name mutator allowCleanupInProgress
    return (some saved.run, contentAfter json name saved content)
  | deleteRun expectedRun => do
    let value ← match expectedRun with
      | none => .ok (content.map fun _ => .null)
      | some _ => valueOf json store name content
    let _ ← store.deleteRun py (directoryOf name value) name expectedRun
    return (none, none)

end StoreCall

end OpencodeSession
