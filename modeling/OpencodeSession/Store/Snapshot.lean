import OpencodeSession.Store.FieldSpec

/-!
# Persisted workers

A worker is stored as an object, which may have been written by an earlier version.  Reading it
repairs its identity and its lifecycle state, drops the public state of earlier records, and coerces
the fields whose values the hydrated worker is strict about (`migrate`).  The hydrated worker is
what its fields are in their canonical form, in the order of the specification (`toSnapshot`).

Writing it keeps the fields of the persisted worker that the specification does not know.
-/

namespace OpencodeSession

/-- The fields of an object, or of a worker. -/
abbrev Fields : Type := List (String × JsonValue)

/-- `fields.get(name)`. -/
def Fields.field (fields : Fields) (name : String) : JsonValue :=
  (Dict.lookup name fields).getD .null

/-- The word of an action. -/
def WorkerAction.name : WorkerAction → String
  | start => "start"
  | wait => "wait"
  | retry => "retry"
  | resolveBlocker => "resolve_blocker"
  | collect => "collect"
  | none => "none"

/-- The action a value names. -/
def WorkerAction.ofValue? (value : JsonValue) : Option WorkerAction :=
  [start, wait, retry, resolveBlocker, collect, none].find? fun action =>
    value.pyEq (.str action.name)

namespace Snapshot

variable (py : Interpreter)

/-! ## The state of an earlier record -/

/-- `_legacy_worker_list_field`. -/
def legacyListField (fields : Fields) (name : String) : List JsonValue :=
  match fields.field name with
  | .arr items => items
  | _ => []

/-- `_legacy_worker_retry_available`. -/
def legacyRetryAvailable (fields : Fields) (category : Option String) : Except PyError Bool :=
  let retryable := legacyListField fields "retryable_failures"
  let category : JsonValue := match category with
    | some category => .str category
    | none => (fields.field "failure_category").orElse (fields.field "last_failure_category")
  if (match fields.field "failure_retryable" with
      | .bool false => true
      | _ => false) then .ok false
  else if retryable.isEmpty then .ok false
  else if category.truthy && !category.isIn retryable && !(JsonValue.str "all").isIn retryable then
    .ok false
  else
    orOnTypeOrValueError (do
      let count ← py.int ((fields.field "retry_count").orElse (.int 0))
      let limit ← py.int ((fields.field "retry_limit").orElse (.int 0))
      return decide (count < limit)) false

/-- `"timeout" in set(blockers or [])`. -/
def blockersNameTimeout (blockers : JsonValue) : Except PyError Bool :=
  if !blockers.truthy then .ok false
  else match blockers with
    | .arr items =>
      match items.find? fun item => !item.isHashable with
      | some item => .error (.unhashable item)
      | none => .ok ((JsonValue.str "timeout").isIn items)
    | .obj fields => .ok (fields.any fun field => field.1 = "timeout")
    -- a set of characters
    | .str _ => .ok false
    | value => .error (.typeError s!"'{value.typeName}' object is not iterable")

/-- `_legacy_worker_timeout_origin`. -/
def legacyTimeoutOrigin (fields : Fields) (status : Option String) : Except PyError Bool :=
  let category := (fields.field "failure_category").pyEq (.str "timeout")
  if status = some "timeout" then .ok true
  else if status = some "aborted" ∨ status = some "failed" then .ok category
  else if status.map shortStatus = some "blocked" then
    if category then .ok true else blockersNameTimeout (fields.field "blockers")
  else .ok false

/-- The status of a time-out, as `WorkerLifecycleDimensions.timeout` reads it. -/
def timeoutStatus (status : Option String) : TimeoutPolicy :=
  match status.map shortStatus with
  | some "blocked" => .blocked
  | some "aborted" => .aborted
  | some "failed" => .failed
  | _ => .timeout

/-- `worker_lifecycle_state_for_public_state`. -/
def lifecycleStateForPublicState (status : Option String) (action : JsonValue) :
    Option LifecycleState := do
  let status ← (status.map shortStatus).bind WorkerStatus.ofName?
  let action ← WorkerAction.ofValue? (action.orElse (.str "none"))
  LifecycleState.ofDimensions?
    { status := status
      action := if action = .none ∧ status ∈ [.failed, .timeout] then .retry else action
      retryable := action = .retry }

/-- `_lifecycle_state_from_legacy_public_worker_state`. -/
def lifecycleStateFromLegacy (fields : Fields) : Except PyError LifecycleState := do
  let status := py.shortStatus (fields.field "status")
  if ← legacyTimeoutOrigin fields status then
    return workerTimeoutLifecycleState (timeoutStatus status)
      (← legacyRetryAvailable py fields (some "timeout"))
  else if status = some "failed" then
    return workerFailedLifecycleState true (← legacyRetryAvailable py fields none)
  else
    let named := ((status.map shortStatus).bind WorkerStatus.ofName?).bind
      LifecycleState.ofStatusAlias?
    return ((lifecycleStateForPublicState status (fields.field "next_eligible_action")).orElse
      fun _ => named).getD .queued

/-! ## Migration -/

/-- `_repair_persisted_worker_identity`. -/
def repairIdentity (fields : Fields) (workerId : String) : Fields :=
  if workerId ≠ "" then Dict.insert "id" (.str workerId) fields
  else match Dict.lookup "id" fields with
    | none => fields
    | some id =>
      if !id.truthy then Dict.remove "id" fields
      else match id with
        | .str _ => fields
        | id => Dict.insert "id" (.str (py.repr id)) fields

/-- `value in WORKER_LIFECYCLE_STATES`, of a set. -/
def isLifecycleState (value : JsonValue) : Except PyError Bool :=
  if value.isHashable then .ok (lifecycleStateNames.any fun name => value.pyEq (.str name))
  else .error (.unhashable value)

/-- `_repair_persisted_worker_lifecycle`. -/
def repairLifecycle (fields : Fields) : Except PyError Fields := do
  if ← isLifecycleState (fields.field "lifecycle_state") then return fields
  else
    let state ← lifecycleStateFromLegacy py fields
    return Dict.insert "lifecycle_state" (.str state.name) fields

/-- `_remove_legacy_public_worker_state`. -/
def removePublicState (fields : Fields) : Fields :=
  publicWorkerStateFieldNames.foldl (fun fields name => Dict.remove name fields) fields

/-- Coerce a field, if it is there. -/
def coerceField (coerce : JsonValue → Except PyError JsonValue) (fields : Fields) (name : String) :
    Except PyError Fields :=
  match Dict.lookup name fields with
  | none => .ok fields
  | some value => do
    let value ← coerce value
    return Dict.insert name value fields

/-- Coerce the fields with a validator that are there. -/
def coerceFields (validator : FieldValidator) (coerce : JsonValue → Except PyError JsonValue)
    (fields : Fields) : Except PyError Fields :=
  (storageFieldNames validator).foldlM (coerceField coerce) fields

/-- `_coerced_storage_int`. -/
def coercedStorageInt (value : JsonValue) : Except PyError JsonValue :=
  JsonValue.int <$> orOnTypeOrValueError (py.int (value.orElse (.int 0))) 0

/-- What `_coerce_persisted_worker_lists` makes of a value. -/
def coercedList (value : JsonValue) : Except PyError JsonValue :=
  match value with
  | .arr items => .ok (.arr items)
  | _ => .ok (.arr [])

/-- What `_coerce_persisted_worker_timeout_seconds` makes of a value: `storage_value` of the
specification of the field. -/
def coercedTimeoutSeconds (value : JsonValue) : Except PyError JsonValue :=
  FieldSpec.coerceStorageTimeoutSeconds py
    { name := "timeout_seconds", validator := .timeoutSeconds } value

/-- What `_coerce_persisted_worker_timeout_policy` makes of a value. -/
def coercedTimeoutPolicy (value : JsonValue) : Except PyError JsonValue :=
  match py.shortStatus value with
  | some policy => .ok (.str (if policy ∈ timeoutPolicyNames then policy else "timeout"))
  | none => .ok (.str "timeout")

/-- `_migrate_v1_persisted_worker_snapshot`. -/
def migrateV1 (fields : Fields) (workerId : String) : Except PyError Fields := do
  let fields ← repairLifecycle py (repairIdentity py fields workerId)
  let fields ← coerceFields .int (coercedStorageInt py) (removePublicState fields)
  let fields ← coerceFields .list coercedList fields
  let fields ← coerceFields .timeoutSeconds (coercedTimeoutSeconds py) fields
  coerceFields .timeoutPolicy (coercedTimeoutPolicy py) fields

/-- `_coerced_schema_version`. -/
def coercedSchemaVersion (value : JsonValue) : Except PyError Int :=
  orOnTypeOrValueError (py.int (value.orElse (.int 1))) 1

/-- `_migrated_persisted_worker_snapshot`: both branches on the version of the schema migrate the
same way. -/
def migrate (worker : JsonValue) (workerId : String) (schemaVersion : JsonValue) :
    Except PyError Fields :=
  match worker with
  | .obj fields => do
    let _ ← coercedSchemaVersion py schemaVersion
    migrateV1 py fields workerId
  | _ => .error (.typeError "persisted worker snapshot must be a mapping")

/-! ## Hydrated workers -/

/-- `runtime_fields`. -/
def runtimeFields (fields : Fields) : Fields :=
  fields.filter fun field => field.1 ∈ workerFieldNames

/-- `unknown_fields`. -/
def unknownFields (fields : Fields) : Fields :=
  fields.filter fun field => field.1 ∉ workerFieldNames

/-- `worker_default_snapshot_fields`. -/
def defaultFields (workerId : String) : Fields :=
  (workerFieldSpecs.filter FieldSpec.required).map fun spec =>
    (spec.name, spec.defaultValue workerId)

/-- The canonical fields of a worker for some of the specifications: those it has, and the required
ones. -/
def canonicalFields (workerId : String) (fields : Fields) :
    List FieldSpec → Except PyError Fields
  | [] => .ok []
  | spec :: specs =>
    match (Dict.lookup spec.name fields).orElse fun _ =>
        if spec.required then some (spec.defaultValue workerId) else none with
    | some value => do
      let value ← spec.canonicalValue py value
      let rest ← canonicalFields workerId fields specs
      return (spec.name, value) :: rest
    | none => canonicalFields workerId fields specs

/-- The identifier of a worker. -/
def idOf (fields : Fields) : String :=
  match fields.field "id" with
  | .str id => id
  | _ => ""

/-- `to_snapshot`: the attributes of a hydrated worker in their canonical form. -/
def toSnapshot (fields : Fields) : Except PyError Fields :=
  canonicalFields py (idOf fields) fields workerFieldSpecs

/-- `_canonical_worker_snapshot_fields`. -/
def canonicalSnapshotFields (fields : Fields) (workerId : String) : Except PyError Fields :=
  let runtime := runtimeFields fields
  let resolved := (runtime.field "id").orElse (.str workerId)
  if !resolved.truthy then .error (.valueError "worker snapshot requires id")
  else .ok (Dict.merge (defaultFields (py.str resolved)) runtime)

/-- `hydrate_worker_record`. -/
def hydrate (worker : JsonValue) (workerId : String) (schemaVersion : JsonValue) :
    Except PyError Fields := do
  let fields ← migrate py worker workerId schemaVersion
  let fields ← canonicalSnapshotFields py fields workerId
  toSnapshot py fields

/-! ## Storing a worker -/

/-- `_worker_record_snapshot_fields`: a hydrated worker under the identifier of its key. -/
def recordFields (worker : Fields) (workerId : String) : Except PyError Fields := do
  let snapshot ← toSnapshot py worker
  return if workerId ≠ "" then Dict.insert "id" (.str workerId) snapshot else snapshot

/-- `normalize_worker_snapshot_for_storage` of a hydrated worker. -/
def forStorage (worker : Fields) (workerId : String) (schemaVersion : JsonValue)
    (persisted : Option JsonValue) : Except PyError Fields := do
  let runtime ← recordFields py worker workerId
  match persisted with
  | none | some .null => return runtime
  | some persisted => do
    let migrated ← migrate py persisted workerId schemaVersion
    return Dict.merge runtime (unknownFields migrated)

/-- `normalize_worker_snapshot_for_storage` of a worker that is not hydrated. -/
def forStorageRaw (worker : JsonValue) (workerId : String) (schemaVersion : JsonValue)
    (persisted : Option JsonValue) : Except PyError Fields := do
  let snapshot ← migrate py worker workerId schemaVersion
  let runtime ← canonicalSnapshotFields py snapshot workerId
  match persisted with
  | none | some .null => return Dict.merge runtime (unknownFields snapshot)
  | some persisted => do
    let migrated ← migrate py persisted workerId schemaVersion
    return Dict.merge runtime (unknownFields migrated)

/-- `migrate_persisted_worker_snapshot`: what is migrated, with the known fields first. -/
def migratePersisted (worker : JsonValue) (workerId : String) (schemaVersion : JsonValue) :
    Except PyError Fields :=
  (fun fields => Dict.merge (runtimeFields fields) (unknownFields fields)) <$>
    migrate py worker workerId schemaVersion

end Snapshot

end OpencodeSession
