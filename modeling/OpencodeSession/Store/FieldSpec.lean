import OpencodeSession.Framework.Exceptions
import OpencodeSession.Json
import OpencodeSession.Worker.Lifecycle

/-!
# The fields of a persisted worker

The table that says which fields a worker has, whether every worker has them, what they default to,
and what values they take.  A value has a canonical form, which the hydrated worker insists on
(`FieldSpec.canonicalValue`), and some fields are coerced when they are read from storage.

A persisted record is any JSON, so the conversions of the language matter here: `int` of a value,
`float` of a text and the text of a value.  What they make of a text, and how they print a value, is
a parameter (`Interpreter`); which values they refuse is not.
-/

namespace OpencodeSession

/-! ## Conversions -/

/-- A number as it is read from a text. -/
inductive PyFloat where
  | finite (mantissa exponent : Int)
  | nonFinite (value : NonFinite)

/-- A number as a JSON value. -/
def PyFloat.toJson : PyFloat → JsonValue
  | finite mantissa exponent => .float mantissa exponent
  | nonFinite value => .nonFinite value

/-- What the interpreter answers: `str` of a value that is not a text, which is never empty; `int`
and `float` of a text, where `none` is a `ValueError`; and the working directory. -/
structure Interpreter where
  repr : JsonValue → String
  intOf : String → Option Int
  floatOf : String → Option PyFloat
  cwd : String
  repr_nonempty : ∀ value, repr value ≠ ""

/-- The first whole number that is too large for a float: halfway between the largest float and the
next power of two. -/
def floatLimit : Nat := 2 ^ 1024 - 2 ^ 970

/-- Whether a dyadic number is a float.  Beyond the floats the numbers are read as infinite. -/
def floatIsFinite (mantissa exponent : Int) : Bool :=
  if 0 ≤ exponent then mantissa.natAbs * 2 ^ exponent.toNat < floatLimit
  else mantissa.natAbs < floatLimit * 2 ^ (-exponent).toNat

/-- The integer that a dyadic number is, if it is one. -/
def wholeNumber? (mantissa exponent : Int) : Option Int :=
  if 0 ≤ exponent then some (mantissa * 2 ^ exponent.toNat)
  else if mantissa % 2 ^ (-exponent).toNat = 0 then some (mantissa / 2 ^ (-exponent).toNat)
  else none

/-- A dyadic number without its fraction. -/
def truncate (mantissa exponent : Int) : Int :=
  if 0 ≤ exponent then mantissa * 2 ^ exponent.toNat
  else mantissa.tdiv (2 ^ (-exponent).toNat)

namespace JsonValue

/-- The name of the type of a value. -/
def typeName : JsonValue → String
  | null => "NoneType"
  | bool _ => "bool"
  | int _ => "int"
  | float _ _ | nonFinite _ => "float"
  | str _ => "str"
  | arr _ => "list"
  | obj _ => "dict"

/-- Whether a number is one of the infinities. -/
def isInfinite : JsonValue → Bool
  | nonFinite value => value ≠ .nan
  | float mantissa exponent => !floatIsFinite mantissa exponent
  | _ => false

/-- Whether a value has a hash. -/
def isHashable : JsonValue → Bool
  | arr _ | obj _ => false
  | _ => true

/-- `left or right`. -/
def orElse (left right : JsonValue) : JsonValue := if left.truthy then left else right

/-- `value in items` of a list. -/
def isIn (value : JsonValue) (items : List JsonValue) : Bool :=
  items.any fun item => pyEq.itemsEq [item] [value]

end JsonValue

namespace PyError

/-- `isinstance(error, (TypeError, ValueError))`. -/
def isTypeOrValueError : PyError → Bool
  | typeError _ | valueError _ => true
  | _ => false

/-- The error of a value that has no hash. -/
def unhashable (value : JsonValue) : PyError :=
  .typeError s!"unhashable type: '{value.typeName}'"

end PyError

/-- A handler of `TypeError` and `ValueError` that goes on with a value. -/
def orOnTypeOrValueError {α : Type} (r : Except PyError α) (handled : α) : Except PyError α :=
  match r with
  | .error error => if error.isTypeOrValueError then .ok handled else .error error
  | .ok a => .ok a

namespace Interpreter

variable (py : Interpreter)

/-- `str(value)`. -/
def str : JsonValue → String
  | .str s => s
  | value => py.repr value

/-- `int(value)`. -/
def int : JsonValue → Except PyError Int
  | .bool b => .ok b.toNat
  | .int n => .ok n
  | .float mantissa exponent =>
    if floatIsFinite mantissa exponent then .ok (truncate mantissa exponent)
    else .error (.overflowError "cannot convert float infinity to integer")
  | .nonFinite .nan => .error (.valueError "cannot convert float NaN to integer")
  | .nonFinite _ => .error (.overflowError "cannot convert float infinity to integer")
  | .str s =>
    match py.intOf s with
    | some n => .ok n
    | none => .error (.valueError s!"invalid literal for int() with base 10: '{s}'")
  | value => .error (.typeError ("int() argument must be a string, a bytes-like object or a real " ++
      s!"number, not '{value.typeName}'"))

/-- `short_status`. -/
def shortStatus : JsonValue → Option String
  | .null => none
  | value => some (OpencodeSession.shortStatus (py.str value))

end Interpreter

/-- An interpreter that reads no number from a text. -/
def plainInterpreter : Interpreter where
  repr value := match value with
    | .null => "None"
    | .bool true => "True"
    | .bool false => "False"
    | _ => "0"
  intOf _ := none
  floatOf _ := none
  cwd := "/"
  repr_nonempty value := by
    split <;> decide

/-! ## The specification -/

/-- `WorkerFieldValidatorName`. -/
inductive FieldValidator where
  | any | id | int | lifecycleState | list | timeoutSeconds | timeoutPolicy
  deriving DecidableEq

/-- `WorkerFieldSpec`, as far as storage reads it. -/
structure FieldSpec where
  name : String
  default : JsonValue := .null
  required : Bool := true
  validator : FieldValidator := .any
  defaultFromWorkerId : Bool := false

/-- `WORKER_FIELD_SPECS`. -/
def workerFieldSpecs : List FieldSpec :=
  [{ name := "id", validator := .id, defaultFromWorkerId := true },
    { name := "role" },
    { name := "session_id" },
    { name := "agent" },
    { name := "model" },
    { name := "dependencies", default := .arr [], validator := .list },
    { name := "prompt_ids", default := .arr [], validator := .list },
    { name := "retry_count", default := .int 0, validator := .int },
    { name := "retry_limit", default := .int 0, validator := .int },
    { name := "retryable_failures", default := .arr [], validator := .list },
    { name := "timeout_seconds", validator := .timeoutSeconds },
    { name := "timeout_policy", default := .str "timeout", validator := .timeoutPolicy },
    { name := "timeout_started_at" },
    { name := "timed_out_at" },
    { name := "lifecycle_state", default := .str "queued", validator := .lifecycleState },
    { name := "failure_category" },
    { name := "failure_reason" },
    { name := "last_failure_category" },
    { name := "last_failure_reason" },
    { name := "blockers", default := .arr [], validator := .list },
    { name := "output_refs", default := .arr [], validator := .list },
    { name := "name", required := false },
    { name := "title", required := false },
    { name := "prompt", required := false },
    { name := "error", required := false },
    { name := "failure_retryable", required := false },
    { name := "manual_retry_required", required := false },
    { name := "cleanup", required := false },
    { name := "abort", required := false },
    { name := "attempts", default := .arr [], required := false, validator := .list },
    { name := "result", required := false }]

/-- `WORKER_RECORD_CANONICAL_FIELD_NAMES`. -/
def workerFieldNames : List String := workerFieldSpecs.map FieldSpec.name

/-- The names of the fields with a validator: `WORKER_STORAGE_INT_FIELD_NAMES` and its siblings. -/
def storageFieldNames (validator : FieldValidator) : List String :=
  (workerFieldSpecs.filter fun spec => spec.validator = validator).map FieldSpec.name

/-- `PUBLIC_WORKER_STATE_FIELD_NAMES`. -/
def publicWorkerStateFieldNames : List String := ["status", "next_eligible_action"]

/-- The words of the lifecycle states. -/
def lifecycleStateNames : List String := LifecycleState.all.map LifecycleState.name

/-- `WORKER_FIELD_TIMEOUT_POLICY_STATUSES`. -/
def timeoutPolicyNames : List String := ["timeout", "blocked", "failed", "aborted"]

namespace FieldSpec

variable (py : Interpreter) (spec : FieldSpec)

/-- `default_value`. -/
def defaultValue (workerId : String) : JsonValue :=
  if spec.defaultFromWorkerId then .str workerId else spec.default

/-- `_canonical_accepted_value`. -/
def canonicalAcceptedValue (accepted : List String) (value : JsonValue) :
    Except PyError JsonValue :=
  if accepted.any fun word => value.pyEq (.str word) then .ok value
  else
    let shown := py.str value
    .error (.valueError s!"worker {spec.name} must be canonical: {shown}")

/-- `_canonical_timeout_seconds`. -/
def canonicalTimeoutSeconds (value : JsonValue) : Except PyError JsonValue :=
  match value with
  | .null => .ok .null
  | .int n =>
    if floatLimit ≤ n.natAbs then
      .error (.overflowError "int too large to convert to float")
    else if n ≤ 0 then notPositive
    else .ok (.int n)
  | .float mantissa exponent =>
    if !floatIsFinite mantissa exponent || mantissa ≤ 0 then notPositive
    else match wholeNumber? mantissa exponent with
      | some n => .ok (.int n)
      | none => .ok (.float mantissa exponent)
  | .nonFinite _ => notPositive
  | _ => .error (.typeError s!"worker {spec.name} must be a positive number or None")
where
  /-- The error of a number that is not positive or not finite. -/
  notPositive : Except PyError JsonValue :=
    .error (.valueError s!"worker {spec.name} must be a positive number or None")

/-- `canonical_value`. -/
def canonicalValue (value : JsonValue) : Except PyError JsonValue :=
  match spec.validator with
  | .any => .ok value
  | .id =>
    match value with
    | .str s =>
      if s ≠ "" then .ok value else .error (.valueError "worker id must be a non-empty string")
    | _ => .error (.valueError "worker id must be a non-empty string")
  | .int =>
    match value with
    | .int _ => .ok value
    | _ => .error (.typeError s!"worker {spec.name} must be an int")
  | .list =>
    match value with
    | .arr _ => .ok value
    | _ => .error (.typeError s!"worker {spec.name} must be a list")
  | .lifecycleState => spec.canonicalAcceptedValue py lifecycleStateNames value
  | .timeoutPolicy => spec.canonicalAcceptedValue py timeoutPolicyNames value
  | .timeoutSeconds => spec.canonicalTimeoutSeconds value

/-- `_coerce_storage_timeout_seconds`. -/
def coerceStorageTimeoutSeconds (value : JsonValue) : Except PyError JsonValue :=
  match value with
  | .int _ | .float _ _ | .nonFinite _ =>
    orOnTypeOrValueError (spec.canonicalTimeoutSeconds value) .null
  | .str s =>
    match py.floatOf s with
    | some number => orOnTypeOrValueError (spec.canonicalTimeoutSeconds number.toJson) .null
    | none => .ok .null
  | _ => .ok .null

end FieldSpec

end OpencodeSession
