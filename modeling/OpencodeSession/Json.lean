import Mathlib.Algebra.Group.Int.Defs
import Mathlib.Algebra.GroupWithZero.Nat
import Mathlib.Tactic.Lemma
import OpencodeSession.Framework.Dict

/-!
# JSON values and the errors of the program

The persisted records are JSON, with the three numbers that the program's reader accepts beyond the
standard.  An object is a list of fields in insertion order, as the program's dictionaries are;
`JsonValue.get` is the program's `dict.get`, which answers null for a field that is not there.  A
float is the dyadic number it denotes, which is what comparing it with an integer needs.
`JsonValue.truthy` and `JsonValue.pyEq` are the program's truth test and its `==`: a boolean equals
the integer it stands for, and objects are compared without regard to the order of their fields.
The reader makes every not-a-number the same object, which differs from itself on its own and is
found equal by identity inside of an array or an object.

`PyError` lists the exceptions that the modelled functions raise or tell apart.
-/

namespace OpencodeSession

/-- The numbers `NaN`, `Infinity` and `-Infinity`. -/
inductive NonFinite where
  | nan | infinity | negInfinity
  deriving DecidableEq, Repr

/-- A JSON value. -/
inductive JsonValue where
  | null
  | bool (value : Bool)
  | int (value : Int)
  /-- The number `mantissa * 2 ^ exponent`. -/
  | float (mantissa exponent : Int)
  | nonFinite (value : NonFinite)
  | str (value : String)
  | arr (items : List JsonValue)
  | obj (fields : List (String × JsonValue))
  deriving Inhabited, Repr

namespace JsonValue

/-- The fields of an object; none for any other value. -/
def fields : JsonValue → List (String × JsonValue)
  | obj fields => fields
  | _ => []

/-- `isinstance(value, dict)`. -/
def isObj : JsonValue → Bool
  | obj _ => true
  | _ => false

/-- `value is None`. -/
def isNull : JsonValue → Bool
  | null => true
  | _ => false

/-- `value.get(name)`: the field of an object, null when it is missing. -/
def get (value : JsonValue) (name : String) : JsonValue :=
  (Dict.lookup name value.fields).getD null

/-- `bool(value)`. -/
def truthy : JsonValue → Bool
  | null => false
  | bool b => b
  | int n => n ≠ 0
  | float m _ => m ≠ 0
  | nonFinite _ => true
  | str s => s ≠ ""
  | arr items => !items.isEmpty
  | obj fields => !fields.isEmpty

/-- Whether an integer and a dyadic number are the same number. -/
def intEqFloat (n m e : Int) : Bool :=
  if 0 ≤ e then n = m * 2 ^ e.toNat else n * 2 ^ (-e).toNat = m

/-- `left == right`. -/
def pyEq : JsonValue → JsonValue → Bool
  | null, null => true
  | bool b, bool b' => b = b'
  | bool b, int n => n = b.toNat
  | int n, bool b => n = b.toNat
  | bool b, float m e => intEqFloat b.toNat m e
  | float m e, bool b => intEqFloat b.toNat m e
  | int n, int n' => n = n'
  | int n, float m e => intEqFloat n m e
  | float m e, int n => intEqFloat n m e
  | float m e, float m' e' =>
    if e ≤ e' then intEqFloat m m' (e' - e) else intEqFloat m' m (e - e')
  | nonFinite n, nonFinite n' => n = n' && n ≠ .nan
  | str s, str s' => s = s'
  | arr items, arr items' => itemsEq items items'
  | obj fields, obj fields' => fields.length = fields'.length ∧ fieldsIn fields fields'
  | _, _ => false
where
  /-- Equality of arrays, item by item. -/
  itemsEq : List JsonValue → List JsonValue → Bool
    | [], [] => true
    | nonFinite .nan :: vs, nonFinite .nan :: vs' => itemsEq vs vs'
    | v :: vs, v' :: vs' => pyEq v v' && itemsEq vs vs'
    | _, _ => false
  /-- Whether every field of the first list is in the second with an equal value. -/
  fieldsIn : List (String × JsonValue) → List (String × JsonValue) → Bool
    | [], _ => true
    | (name, nonFinite .nan) :: rest, fields' =>
      (match Dict.lookup name fields' with
        | some (nonFinite .nan) => true
        | _ => false) && fieldsIn rest fields'
    | (name, v) :: rest, fields' =>
      (match Dict.lookup name fields' with
        | some v' => pyEq v v'
        | none => false) && fieldsIn rest fields'

/-- An optional text, null when it is absent. -/
def ofOption : Option String → JsonValue
  | some s => str s
  | none => null

/-- The texts of a list that are not empty: `string_list` of the program. -/
def stringList : JsonValue → List String
  | arr items => items.filterMap fun
    | str s => if s ≠ "" then some s else none
    | _ => none
  | _ => []

/-- `append_unique_string`: add a value that is a non-empty text not in the list yet. -/
def appendUniqueString (values : List String) : JsonValue → List String
  | str s => if s ≠ "" ∧ s ∉ values then values ++ [s] else values
  | _ => values

@[simp] lemma get_obj (fields : List (String × JsonValue)) (name : String) :
    (obj fields).get name = (Dict.lookup name fields).getD null := rfl

@[simp] lemma get_null (name : String) : null.get name = null := rfl

@[simp] lemma pyEq_str {v : JsonValue} {s : String} : v.pyEq (.str s) = true ↔ v = .str s := by
  cases v <;> simp [pyEq]

@[simp] lemma str_pyEq {v : JsonValue} {s : String} : (JsonValue.str s).pyEq v = true ↔ v = .str s := by
  cases v <;> simp [pyEq, eq_comm]

end JsonValue

/-- The exceptions that the modelled functions raise, catch or tell apart. -/
inductive PyError where
  /-- `WorkerTransitionError`. -/
  | workerTransition (reason : String)
  /-- `RunStoreError`. -/
  | runStore (message kind : String)
  /-- `RunRecordError`. -/
  | runRecord (message kind : String)
  /-- `OSError`, other than a time-out. -/
  | osError (message : String)
  /-- `OpenCodeApiError`, with the status, method and path of the request it is about. -/
  | openCodeApi (message : String) (status : Option Int) (method path : String)
  /-- `OpenCodeApiTimeoutError`. -/
  | openCodeApiTimeout (message : String)
  /-- `BlockingExecutionTimeout`. -/
  | blockingExecutionTimeout (message : String) (promptId abortError : Option String)
  /-- `BlockingProviderFailure`. -/
  | blockingProviderFailure (message : String) (promptId : Option String)
  /-- `TimeoutExpired` of the deadline. -/
  | timeoutExpired
  /-- The built-in `TimeoutError`. -/
  | timeoutError (message : String)
  /-- `WorkerExecutionTimeout`. -/
  | workerExecutionTimeout (promptId : Option String)
  /-- `RunWorkerSessionNotFound`. -/
  | runWorkerSessionNotFound (sessionId : String)
  | valueError (message : String)
  | typeError (message : String)
  /-- Any other exception, by the name of its type. -/
  | other (typeName message : String)
  deriving Inhabited, DecidableEq, Repr

namespace PyError

/-- `OverflowError`. -/
def overflowError (message : String) : PyError := .other "OverflowError" message

/-- `str(error)`. -/
def message : PyError → String
  | workerTransition reason => reason
  | runStore message _ => message
  | runRecord message _ => message
  | osError message => message
  | openCodeApi message _ _ _ => message
  | openCodeApiTimeout message => message
  | blockingExecutionTimeout message _ _ => message
  | blockingProviderFailure message _ => message
  | timeoutExpired => ""
  | timeoutError message => message
  | workerExecutionTimeout _ => ""
  | runWorkerSessionNotFound sessionId => s!"session not found: {sessionId}"
  | valueError message => message
  | typeError message => message
  | other _ message => message

/-- `type(error).__name__`. -/
def typeName : PyError → String
  | workerTransition _ => "WorkerTransitionError"
  | runStore _ _ => "RunStoreError"
  | runRecord _ _ => "RunRecordError"
  | osError _ => "OSError"
  | openCodeApi _ _ _ _ => "OpenCodeApiError"
  | openCodeApiTimeout _ => "OpenCodeApiTimeoutError"
  | blockingExecutionTimeout _ _ _ => "BlockingExecutionTimeout"
  | blockingProviderFailure _ _ => "BlockingProviderFailure"
  | timeoutExpired => "TimeoutExpired"
  | timeoutError _ => "TimeoutError"
  | workerExecutionTimeout _ => "WorkerExecutionTimeout"
  | runWorkerSessionNotFound _ => "RunWorkerSessionNotFound"
  | valueError _ => "ValueError"
  | typeError _ => "TypeError"
  | other typeName _ => typeName

/-- `isinstance(error, OpenCodeApiError)`. -/
def isOpenCodeApiError : PyError → Bool
  | openCodeApi _ _ _ _ | openCodeApiTimeout _ | blockingExecutionTimeout _ _ _ => true
  | _ => false

/-- `isinstance(error, (RunStoreError, OSError))`; the built-in `TimeoutError` is an `OSError`. -/
def isPersistenceError : PyError → Bool
  | runStore _ _ | osError _ | timeoutError _ => true
  | _ => false

/-- `isinstance(error, WorkerTransitionError)`. -/
def isWorkerTransitionError : PyError → Bool
  | workerTransition _ => true
  | _ => false

/-- The `status` of an API error. -/
def apiStatus : PyError → Option Int
  | openCodeApi _ status _ _ => status
  | _ => none

end PyError

/-! ## Raising -/

/-- Every error of a computation satisfies a predicate. -/
def RaisesOnly {α : Type} (P : PyError → Prop) (r : Except PyError α) : Prop :=
  ∀ error, r = .error error → P error

namespace RaisesOnly

variable {α β : Type} {P : PyError → Prop}

lemma ok (a : α) : RaisesOnly P (.ok a : Except PyError α) := nofun

lemma error {e : PyError} (h : P e) : RaisesOnly P (.error e : Except PyError α) := by
  rintro _ ⟨⟩
  exact h

lemma bind {r : Except PyError α} {f : α → Except PyError β} (hr : RaisesOnly P r)
    (hf : ∀ a, RaisesOnly P (f a)) : RaisesOnly P (r >>= f) := by
  cases r with
  | ok a => exact hf a
  | error e => exact error (hr e rfl)

lemma map {r : Except PyError α} {f : α → β} (hr : RaisesOnly P r) : RaisesOnly P (f <$> r) := by
  cases r with
  | ok a => exact ok _
  | error e => exact error (hr e rfl)

lemma foldlM {f : β → α → Except PyError β} {items : List α} {b : β}
    (hf : ∀ b a, RaisesOnly P (f b a)) : RaisesOnly P (items.foldlM f b) := by
  induction items generalizing b with
  | nil => exact ok b
  | cons item rest ih =>
    rw [List.foldlM_cons]
    exact bind (hf b item) fun _ => ih

lemma mapM {f : α → Except PyError β} {items : List α} (hf : ∀ a, RaisesOnly P (f a)) :
    RaisesOnly P (items.mapM f) := by
  induction items with
  | nil => exact ok []
  | cons item rest ih =>
    rw [List.mapM_cons]
    exact bind (hf item) fun _ => bind ih fun _ => ok _

end RaisesOnly

end OpencodeSession
