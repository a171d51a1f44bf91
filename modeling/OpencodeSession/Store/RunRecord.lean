import OpencodeSession.Store.Manifest
import OpencodeSession.Store.Snapshot

/-!
# Persisted runs

The record of a run as it is stored and as it is in memory.  In memory the workers are hydrated
(`RunData`); a mutator may leave any dictionary (`RunValue`), whose workers are hydrated or not.
Normalising fills in the defaults of the run, validates its manifest and hydrates its workers, and
is done on every read and before every write.
-/

namespace OpencodeSession

/-- A worker in the dictionary of a run: as JSON, or hydrated. -/
inductive WorkerEntry where
  | raw (value : JsonValue)
  | record (fields : Fields)

/-- The workers in the dictionary of a run. -/
inductive RunWorkers where
  /-- There is no such field, or it is null. -/
  | missing
  /-- Something other than an object. -/
  | corrupt
  | entries (workers : List (String × WorkerEntry))

/-- The dictionary of a run, with its workers apart. -/
structure RunValue where
  fields : Fields
  workers : RunWorkers

/-- A normalised run: its fields and its hydrated workers. -/
structure RunData where
  fields : Fields
  workers : List (String × Fields)

/-- The dictionary that is read from a file. -/
def RunValue.ofFields (fields : Fields) : RunValue where
  fields := Dict.remove "workers" fields
  workers := match Dict.lookup "workers" fields with
    | none | some .null => .missing
    | some (.obj workers) => .entries (workers.map fun entry => (entry.1, .raw entry.2))
    | some _ => .corrupt

namespace RunData

/-- `run_name`. -/
def name (run : RunData) : JsonValue := run.fields.field "name"

/-- `_worker_snapshot_schema_version`. -/
def schemaVersion (run : RunData) : JsonValue := run.fields.field "schema_version"

/-- Whether `resource_cleanup` is a dictionary whose status is `in_progress`. -/
def cleanupInProgress (run : RunData) : Bool :=
  (run.fields.field "resource_cleanup").isObj &&
    ((run.fields.field "resource_cleanup").get "status").pyEq (.str "in_progress")

/-- The dictionary of a normalised run. -/
def toValue (run : RunData) : RunValue where
  fields := run.fields
  workers := .entries (run.workers.map fun entry => (entry.1, .record entry.2))

/-- A run as one value, as it is compared. -/
def toJson (run : RunData) : JsonValue :=
  .obj (Dict.insert "workers" (.obj (run.workers.map fun entry => (entry.1, .obj entry.2)))
    run.fields)

/-- `left == right`. -/
def pyEq (left right : RunData) : Bool := left.toJson.pyEq right.toJson

end RunData

namespace RunRecord

variable (py : Interpreter)

/-! ## Normalising -/

/-- `fields.setdefault(name, value)`. -/
def setDefault (name : String) (value : JsonValue) (fields : Fields) : Fields :=
  match Dict.lookup name fields with
  | some _ => fields
  | none => Dict.insert name value fields

/-- Set a field that is missing or false. -/
def setUnlessTruthy (name : String) (value : JsonValue) (fields : Fields) : Fields :=
  if (fields.field name).truthy then fields else Dict.insert name value fields

/-- The fields of a run with their defaults. -/
def withDefaults (fields : Fields) (fallbackName : JsonValue) : Fields :=
  let fields := setDefault "schema_version" (.int 1) fields
  let fields := setUnlessTruthy "name" fallbackName fields
  let fields := setUnlessTruthy "run_id" (fields.field "name") fields
  let fields := setDefault "directory" (.str py.cwd) fields
  let fields := setUnlessTruthy "server_url" (.str "http://127.0.0.1:4096") fields
  let fields := setDefault "status" (.str "queued") fields
  let fields := setDefault "retry_count" (.int 0) fields
  let fields := setDefault "timeout_seconds" .null fields
  let fields := setDefault "blockers" (.arr []) fields
  let fields := setDefault "output_refs" (.arr []) fields
  let fields := setDefault "created_at" .null fields
  setDefault "updated_at" .null fields

/-- The status of a run as one of the words. -/
def shortenStatus (fields : Fields) : Fields :=
  Dict.insert "status" (.ofOption (py.shortStatus (fields.field "status"))) fields

/-- The manifest of a run, if there is one. -/
def validateResources (fields : Fields) (fallbackName : JsonValue) : Except PyError Fields :=
  match Dict.lookup "resources" fields with
  | none => .ok fields
  | some resources =>
    match Manifest.validateRunResourceManifest resources with
    | .ok manifest => .ok (Dict.insert "resources" manifest fields)
    | .error error =>
      let name := py.str fallbackName
      .error (.runRecord s!"run record for '{name}' is corrupted: {error}" "data")

/-- A cleanup record that is none is emptied. -/
def repairCleanup (fields : Fields) : Fields :=
  match Dict.lookup "resource_cleanup" fields with
  | none => fields
  | some cleanup =>
    if cleanup.isObj then fields else Dict.insert "resource_cleanup" (.obj []) fields

/-- `_normalize_run_fields`. -/
def normalizeFields (fields : Fields) (fallbackName : JsonValue) : Except PyError Fields :=
  repairCleanup <$> validateResources py
    (shortenStatus py (withDefaults py (Dict.remove "workers" fields) fallbackName)) fallbackName

/-- `_normalize_worker_for_run`. -/
def normalizeWorker (schemaVersion : JsonValue) (entry : String × WorkerEntry) :
    Except PyError (String × Fields) :=
  match entry.2 with
  | .record fields => Prod.mk entry.1 <$> Snapshot.toSnapshot py fields
  | .raw value => Prod.mk entry.1 <$> Snapshot.hydrate py value entry.1 schemaVersion

/-- `_run_worker_snapshots`. -/
def workerSnapshots (workers : RunWorkers) (fallbackName : JsonValue) :
    Except PyError (List (String × WorkerEntry)) :=
  match workers with
  | .missing => .ok []
  | .entries workers => .ok workers
  | .corrupt =>
    let name := py.str fallbackName
    .error (.runRecord s!"run record for '{name}' is corrupted: workers must be an object" "data")

/-- `normalize_run`. -/
def normalizeRun (run : RunValue) (fallbackName : JsonValue) : Except PyError RunData := do
  let fields ← normalizeFields py run.fields fallbackName
  let entries ← workerSnapshots py run.workers fallbackName
  let workers ← entries.mapM (normalizeWorker py (fields.field "schema_version"))
  return { fields := fields, workers := workers }

/-! ## Storing -/

/-- `_worker_snapshots` of a record that was read. -/
def persistedWorkers (persisted : Fields) : Fields :=
  match Dict.lookup "workers" persisted with
  | some (.obj workers) => workers
  | _ => []

/-- One worker of the record that is stored. -/
def storedWorker (schemaVersion : JsonValue) (persisted : Fields) (entry : String × Fields) :
    Except PyError (String × JsonValue) :=
  (fun fields => (entry.1, .obj fields)) <$> Snapshot.forStorage py entry.2 entry.1 schemaVersion
    (Dict.lookup entry.1 (persistedWorkers persisted))

/-- `normalize_run_for_storage` of a normalised run, with the record that was read. -/
def normalizeForStorage (run : RunData) (persisted : Fields) : Except PyError Fields := do
  let fields ← normalizeFields py run.fields run.name
  let workers ← run.workers.mapM (storedWorker py (fields.field "schema_version") persisted)
  return Dict.insert "workers" (.obj workers) fields

end RunRecord

end OpencodeSession
