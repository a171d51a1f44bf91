import OpencodeSession.Store.Hydration

/-!
# What a migration keeps of a legacy worker

A worker of an earlier version shows a status instead of a lifecycle state, and the migration infers
the state from the status, the action, and what is known of its last failure.  The decision whether
a failure may be retried is made on the persisted fields, and again on the hydrated ones whenever it
is asked for.  `hydrate_legacy` says that neither is changed on the way: the inferred state shows
the status the worker had, and it offers a retry just when the hydrated worker has one.
-/

namespace OpencodeSession

open Except

namespace Snapshot

/-! ## Hydrated workers -/

/-- The lifecycle state of a hydrated worker. -/
def lifecycleState? (worker : Fields) : Option LifecycleState :=
  LifecycleState.all.find? fun state => (worker.field "lifecycle_state").pyEq (.str state.name)

/-- A count of a hydrated worker, which is an integer. -/
def countField (worker : Fields) (name : String) : Int :=
  match worker.field name with
  | .int count => count
  | _ => 0

/-- `retry_available` of a hydrated worker.  The retryable failures are made a set, and the category
is looked up in it. -/
def retryAvailable (worker : Fields) (category : Option String) : Except PyError Bool :=
  let retryable := legacyListField worker "retryable_failures"
  let category : JsonValue := match category with
    | some category => .str category
    | none => (worker.field "failure_category").orElse (worker.field "last_failure_category")
  if (match worker.field "failure_retryable" with
      | .bool false => true
      | _ => false) then .ok false
  else match retryable.find? fun failure => !failure.isHashable with
    | some failure => .error (.unhashable failure)
    | none =>
      if retryable.isEmpty then .ok false
      else if category.truthy && !category.isHashable then .error (.unhashable category)
      else if category.truthy && !category.isIn retryable && !(JsonValue.str "all").isIn retryable then
        .ok false
      else .ok (countField worker "retry_count" < countField worker "retry_limit")

variable {py : Interpreter} {fields out : Fields} {workerId name : String}
  {schemaVersion : JsonValue} {status : WorkerStatus} {state : LifecycleState}

/-! ## The fields of a hydrated worker -/

/-- Only a time-out has a canonical form other than itself. -/
lemma eq_of_canonicalValue {spec : FieldSpec} {value value' : JsonValue}
    (hvalidator : spec.validator ≠ .timeoutSeconds)
    (h : spec.canonicalValue py value = .ok value') : value' = value := by
  unfold FieldSpec.canonicalValue at h
  split at h
  · cases h
    rfl
  · split at h
    · split_ifs at h
      cases h
      rfl
    · cases h
  · split at h
    · cases h
      rfl
    · cases h
  · split at h
    · cases h
      rfl
    · cases h
  · exact (FieldSpec.canonicalAcceptedValue_eq_ok.1 h).1
  · exact (FieldSpec.canonicalAcceptedValue_eq_ok.1 h).1
  · next htimeout => exact absurd htimeout hvalidator

/-- A default is its own canonical form. -/
lemma eq_default_of_canonicalValue {spec : FieldSpec} {value : JsonValue}
    (hspec : spec ∈ workerFieldSpecs) (hvalidator : spec.validator ≠ .id)
    (h : spec.canonicalValue py (spec.defaultValue workerId) = .ok value) : value = spec.default := by
  obtain ⟨hfits, hfrom⟩ := defaultFits_of_mem spec hspec
  have hdefault : spec.defaultValue workerId = spec.default := by
    rw [FieldSpec.defaultValue, if_neg fun hid => hvalidator (hfrom hid)]
  rw [hdefault] at h
  by_cases htimeout : spec.validator = .timeoutSeconds
  · have hnull : spec.default = .null := by
      unfold defaultFits at hfits
      rw [htimeout] at hfits
      split at hfits <;> simp_all
    unfold FieldSpec.canonicalValue at h
    rw [htimeout, hnull] at h
    rw [hnull]
    exact (Except.ok.inj h).symm
  · exact eq_of_canonicalValue htimeout h

/-- What hydrating makes of a field: the coerced value, else the default of a required one. -/
lemma lookup_hydrate (h : hydrate py (.obj fields) workerId schemaVersion = .ok out) :
    ∃ repaired, repairLifecycle py (repairIdentity py fields workerId) = .ok repaired ∧
      ∀ spec ∈ workerFieldSpecs, spec.validator ≠ .id →
        (∀ value, Dict.lookup spec.name repaired = some value →
          ∃ value', coerced py spec.validator value = .ok value' ∧
            Dict.lookup spec.name out = some value') ∧
        (Dict.lookup spec.name repaired = none →
          Dict.lookup spec.name out = if spec.required then some spec.default else none) := by
  obtain ⟨id, hid, -, hlookup⟩ :=
    lookup_id_repairIdentity py (succeeds_hydrate.1 ⟨out, h⟩).identified
  obtain ⟨migrated, hmigrated, hcanonical⟩ := bind_eq_ok.1 h
  obtain ⟨version, -, hmigrated⟩ := bind_eq_ok.1 hmigrated
  rw [← lookup_id_migrateV1 hmigrated] at hlookup
  rw [canonicalSnapshotFields_of_id hid hlookup] at hcanonical
  obtain ⟨repaired, hrepaired, hrel⟩ := rel_lookup_migrateV1 hmigrated
  refine ⟨repaired, hrepaired, fun spec hspec hvalidator => ?_⟩
  have hcoerced := hrel spec hspec
  have hfound := canonical_of_lookup nodup_workerFieldNames hcanonical hspec
  unfold fieldValue at hfound
  constructor
  · intro value hvalue
    rw [hvalue] at hcoerced
    generalize Dict.lookup spec.name migrated = after at hcoerced hfound
    obtain ⟨heq⟩ := hcoerced
    next value' =>
    refine ⟨value', heq, ?_⟩
    rcases hfound with ⟨hnone, -⟩ | ⟨found, canonical, hfound, hsame, hout⟩
    · cases hnone
    · cases hfound
      rw [hout]
      by_cases hstate : spec.validator = .lifecycleState
      · rw [eq_of_canonicalValue (by simp [hstate]) hsame]
      -- a coerced value is canonical, so the second pass leaves it
      · exact congrArg some (Except.ok.inj (hsame.symm.trans
          (canonicalValue_of_coerced hvalidator hstate heq)))
  · intro hnone
    rw [hnone] at hcoerced
    generalize Dict.lookup spec.name migrated = after at hcoerced hfound
    cases hcoerced
    simp only [Option.orElse_none] at hfound
    rcases hfound with ⟨hmissing, hout⟩ | ⟨found, canonical, hfound, hsame, hout⟩
    · split_ifs at hmissing ⊢
      exact hout
    · split_ifs at hfound ⊢
      cases hfound
      rw [hout, eq_default_of_canonicalValue hspec hvalidator hsame]

lemma lookup_repaired {repaired : Fields}
    (h : repairLifecycle py (repairIdentity py fields workerId) = .ok repaired)
    (hid : "id" ≠ name) (hstate : "lifecycle_state" ≠ name) :
    Dict.lookup name repaired = Dict.lookup name fields := by
  rw [(repairLifecycle_eq_ok h).2 name hstate, lookup_repairIdentity hid]

lemma lifecycleStateFromLegacy_repairIdentity :
    lifecycleStateFromLegacy py (repairIdentity py fields workerId) =
      lifecycleStateFromLegacy py fields := by
  have hfield : ∀ {name}, "id" ≠ name →
      (repairIdentity py fields workerId).field name = fields.field name := field_repairIdentity
  have hretry : ∀ category, legacyRetryAvailable py (repairIdentity py fields workerId) category =
      legacyRetryAvailable py fields category := by
    intro category
    unfold legacyRetryAvailable legacyListField
    simp (disch := decide) only [hfield]
  unfold lifecycleStateFromLegacy
  simp (disch := decide) only [hfield, legacyTimeoutOrigin_repairIdentity, hretry]

section

variable (h : hydrate py (.obj fields) workerId schemaVersion = .ok out)
include h

/-- A field that takes any value is hydrated as it is. -/
lemma field_hydrate_any {spec : FieldSpec} (hspec : spec ∈ workerFieldSpecs)
    (hvalidator : spec.validator = .any) (hdefault : spec.default = .null) :
    out.field spec.name = fields.field spec.name := by
  have hnames : ∀ spec ∈ workerFieldSpecs, spec.validator = .any →
      "id" ≠ spec.name ∧ "lifecycle_state" ≠ spec.name := by
    decide
  obtain ⟨hid, hstate⟩ := hnames spec hspec hvalidator
  obtain ⟨repaired, hrepaired, hfields⟩ := lookup_hydrate h
  obtain ⟨hsome, hnone⟩ := hfields spec hspec (by simp [hvalidator])
  rw [lookup_repaired hrepaired hid hstate] at hsome hnone
  unfold Fields.field
  cases hlookup : Dict.lookup spec.name fields with
  | some value =>
    obtain ⟨value', hcoerced, hout⟩ := hsome value hlookup
    rw [hvalidator] at hcoerced
    rw [hout, ← Except.ok.inj hcoerced]
  | none =>
    rw [hnone hlookup, hdefault]
    split_ifs <;> rfl

/-- A list is hydrated as it is, and what is no list as an empty one. -/
lemma legacyListField_hydrate : legacyListField out "retryable_failures" =
    legacyListField fields "retryable_failures" := by
  have hspec : ({ name := "retryable_failures", default := .arr [], validator := .list } :
      FieldSpec) ∈ workerFieldSpecs := List.mem_of_getElem? (i := 9) rfl
  obtain ⟨repaired, hrepaired, hfields⟩ := lookup_hydrate h
  obtain ⟨hsome, hnone⟩ := hfields _ hspec (by simp)
  dsimp only at hsome hnone
  rw [lookup_repaired hrepaired (by decide) (by decide)] at hsome hnone
  unfold legacyListField Fields.field
  cases hlookup : Dict.lookup "retryable_failures" fields with
  | some value =>
    obtain ⟨value', hcoerced, hout⟩ := hsome value hlookup
    rw [hout]
    cases value <;> cases hcoerced <;> rfl
  | none =>
    rw [hnone hlookup]
    rfl

/-- A count is hydrated to the integer that it is read as. -/
lemma countField_hydrate {count : Int} (hname : name = "retry_count" ∨ name = "retry_limit")
    (hcount : py.int ((fields.field name).orElse (.int 0)) = .ok count) :
    countField out name = count := by
  have hspec : ({ name := name, default := .int 0, validator := .int } : FieldSpec) ∈
      workerFieldSpecs := by
    rcases hname with rfl | rfl
    · exact List.mem_of_getElem? (i := 7) rfl
    · exact List.mem_of_getElem? (i := 8) rfl
  have hother : "id" ≠ name ∧ "lifecycle_state" ≠ name := by
    rcases hname with rfl | rfl <;> decide
  obtain ⟨repaired, hrepaired, hfields⟩ := lookup_hydrate h
  obtain ⟨hsome, hnone⟩ := hfields _ hspec (by simp)
  dsimp only at hsome hnone
  rw [lookup_repaired hrepaired hother.1 hother.2] at hsome hnone
  unfold countField
  unfold Fields.field at hcount ⊢
  cases hlookup : Dict.lookup name fields with
  | some value =>
    obtain ⟨value', hcoerced, hout⟩ := hsome value hlookup
    rw [hlookup, Option.getD_some] at hcount
    have hvalue : coercedStorageInt py value = .ok (.int count) := by
      rw [coercedStorageInt, hcount]
      rfl
    have hsame : value' = .int count := Except.ok.inj (hcoerced.symm.trans hvalue)
    rw [hout, hsame]
    rfl
  | none =>
    rw [hlookup] at hcount
    rw [hnone hlookup]
    exact Except.ok.inj hcount

/-- The state of a worker without one is inferred. -/
lemma lifecycleState?_hydrate
    (hunnamed : namesLifecycleState (fields.field "lifecycle_state") = false) :
    ∃ state, lifecycleStateFromLegacy py fields = .ok state ∧ lifecycleState? out = some state := by
  obtain ⟨repaired, hrepaired, hfields⟩ := lookup_hydrate h
  obtain ⟨hsome, -⟩ := hfields _ lifecycleStateSpec_mem (by simp)
  obtain ⟨known, hknown, hstate⟩ := bind_eq_ok.1 hrepaired
  rw [field_repairIdentity (by decide)] at hknown
  unfold isLifecycleState at hknown
  split_ifs at hknown
  have hfalse : known = false := (Except.ok.inj hknown).symm.trans hunnamed
  rw [hfalse, if_neg Bool.false_ne_true, lifecycleStateFromLegacy_repairIdentity] at hstate
  obtain ⟨state, hinferred, hstate⟩ := bind_eq_ok.1 hstate
  refine ⟨state, hinferred, ?_⟩
  cases hstate
  obtain ⟨value', hcoerced, hout⟩ := hsome _ (Dict.lookup_insert_self _ _ _)
  have hvalue : out.field "lifecycle_state" = .str state.name := by
    rw [Fields.field, hout, ← Except.ok.inj hcoerced]
    rfl
  rw [lifecycleState?, hvalue]
  cases state <;> decide

end

/-! ## The inferred state -/

/-- A worker without a lifecycle state, which shows a known status. -/
structure IsLegacy (fields : Fields) (status : WorkerStatus) : Prop where
  unnamed : namesLifecycleState (fields.field "lifecycle_state") = false
  status : ∃ text, fields.field "status" = .str text ∧ shortStatus text = status.name

/-- A worker whose retries can be decided: its counts are integers, where they are there, its
retryable failures are texts, and so are its categories. -/
structure HasRetryFields (fields : Fields) : Prop where
  counts : ∀ name, name = "retry_count" ∨ name = "retry_limit" →
    fields.field name = .null ∨ ∃ count, fields.field name = .int count
  failures : ∀ failure ∈ legacyListField fields "retryable_failures", ∃ text, failure = .str text
  categories : ∀ name, name = "failure_category" ∨ name = "last_failure_category" →
    fields.field name = .null ∨ ∃ text, fields.field name = .str text

/-- The category that the retry of a failure is asked for: `timeout`, where the failure came from
one, else that of the worker. -/
def askedCategory (fields : Fields) (status : WorkerStatus) : Option String :=
  if status = .timeout || (fields.field "failure_category").pyEq (.str "timeout") then
    some "timeout"
  else none

lemma shortStatus_name (status : WorkerStatus) : shortStatus status.name = status.name := by
  cases status <;> decide

lemma ofName?_name (status : WorkerStatus) : WorkerStatus.ofName? status.name = some status := by
  cases status <;> decide

lemma ofStatusAlias?_status (status : WorkerStatus) :
    ∃ state, LifecycleState.ofStatusAlias? status = some state ∧ state.status = status := by
  cases status <;> exact ⟨_, rfl, rfl⟩

lemma status_of_ofDimensions? {dimensions : LifecycleDimensions}
    (h : LifecycleState.ofDimensions? dimensions = some state) :
    state.status = dimensions.status := by
  unfold LifecycleState.ofDimensions? at h
  have hdimensions : state.dimensions = dimensions := by simpa using List.find?_some h
  exact congrArg LifecycleDimensions.status hdimensions

lemma status_of_lifecycleStateForPublicState {action : JsonValue}
    (h : lifecycleStateForPublicState (some status.name) action = some state) :
    state.status = status := by
  unfold lifecycleStateForPublicState at h
  rw [Option.map_some, shortStatus_name, Option.bind_some, ofName?_name] at h
  obtain ⟨status', hstatus, h⟩ := Option.bind_eq_some_iff.1 h
  obtain ⟨action, -, h⟩ := Option.bind_eq_some_iff.1 h
  exact (status_of_ofDimensions? h).trans (Option.some.inj hstatus).symm

lemma legacyTimeoutOrigin_name (fields : Fields) (status : WorkerStatus) :
    legacyTimeoutOrigin fields (some status.name) =
      match status with
      | .timeout => .ok true
      | .aborted | .failed => .ok ((fields.field "failure_category").pyEq (.str "timeout"))
      | .blocked =>
        if (fields.field "failure_category").pyEq (.str "timeout") then .ok true
        else blockersNameTimeout (fields.field "blockers")
      | _ => .ok false := by
  cases status <;> rfl

lemma status_workerTimeoutLifecycleState (available : Bool)
    (hstatus : status ∈ [WorkerStatus.timeout, .aborted, .failed, .blocked]) :
    (workerTimeoutLifecycleState (timeoutStatus (some status.name)) available).status = status := by
  cases status with
  | queued | active | done => exact absurd hstatus (by decide)
  | _ => cases available <;> decide

/-- The inferred state shows the status, and offers a retry where the persisted fields allow one. -/
lemma status_of_lifecycleStateFromLegacy (hlegacy : IsLegacy fields status)
    (h : lifecycleStateFromLegacy py fields = .ok state) :
    state.status = status ∧ (status = .failed ∨ status = .timeout →
      legacyRetryAvailable py fields (askedCategory fields status) = .ok state.row.retryable) := by
  obtain ⟨-, text, hstatus, hshort⟩ := hlegacy
  have hword : py.shortStatus (fields.field "status") = some status.name := by
    rw [hstatus, ← hshort]
    rfl
  unfold lifecycleStateFromLegacy at h
  rw [hword] at h
  obtain ⟨origin, horigin, h⟩ := bind_eq_ok.1 h
  rw [legacyTimeoutOrigin_name] at horigin
  -- the timed-out category is looked for first, then a failure, and only then the other statuses
  cases origin with
  | true =>
    rw [if_pos rfl] at h
    obtain ⟨available, havailable, h⟩ := bind_eq_ok.1 h
    obtain rfl := Except.ok.inj h
    have hmem : status ∈ [WorkerStatus.timeout, .aborted, .failed, .blocked] := by
      cases status with
      | queued | active | done => simp at horigin
      | _ => simp
    refine ⟨status_workerTimeoutLifecycleState available hmem, fun hfails => ?_⟩
    have hasked : askedCategory fields status = some "timeout" := by
      rcases hfails with rfl | rfl
      · rw [askedCategory, Except.ok.inj horigin]
        rfl
      · rfl
    rw [hasked, havailable]
    rcases hfails with rfl | rfl <;> cases available <;> rfl
  | false =>
    rw [if_neg Bool.false_ne_true] at h
    by_cases hfailed : status = .failed
    · subst hfailed
      rw [if_pos (show some WorkerStatus.failed.name = some "failed" from rfl)] at h
      obtain ⟨available, havailable, h⟩ := bind_eq_ok.1 h
      obtain rfl := Except.ok.inj h
      have hasked : askedCategory fields .failed = none := by
        rw [askedCategory, Except.ok.inj horigin]
        rfl
      rw [hasked, havailable]
      cases available <;> exact ⟨by decide, fun _ => rfl⟩
    · have hname : ¬ some status.name = some "failed" := by
        cases status with
        | failed => exact absurd rfl hfailed
        | _ => simp [WorkerStatus.name]
      have htimeout : status ≠ .timeout := by
        rintro rfl
        simp at horigin
      rw [if_neg hname] at h
      refine ⟨?_, fun hfails => absurd hfails (by simp [hfailed, htimeout])⟩
      obtain ⟨named, hnamed, hshows⟩ := ofStatusAlias?_status status
      rw [Option.map_some, shortStatus_name, Option.bind_some, ofName?_name, Option.bind_some,
        hnamed] at h
      -- the public columns decide if they name a state, and the status does otherwise
      cases hpublic : lifecycleStateForPublicState (some status.name)
          (fields.field "next_eligible_action") with
      | some found =>
        rw [hpublic] at h
        obtain rfl := Except.ok.inj h
        exact status_of_lifecycleStateForPublicState hpublic
      | none =>
        rw [hpublic] at h
        obtain rfl := Except.ok.inj h
        exact hshows

/-! ## The retry of the hydrated worker -/

lemma exists_int_of_hasRetryFields (py : Interpreter) (hretry : HasRetryFields fields)
    (hname : name = "retry_count" ∨ name = "retry_limit") :
    ∃ count, py.int ((fields.field name).orElse (.int 0)) = .ok count := by
  rcases hretry.counts name hname with hnull | ⟨count, hcount⟩
  · rw [hnull]
    exact ⟨0, rfl⟩
  · rw [hcount]
    by_cases hzero : count = 0
    · subst hzero
      exact ⟨0, rfl⟩
    · have htruthy : (JsonValue.int count).truthy = true := by simp [JsonValue.truthy, hzero]
      rw [JsonValue.orElse, if_pos htruthy]
      exact ⟨count, rfl⟩

/-- The hydrated worker decides on a retry as the persisted fields did. -/
lemma retryAvailable_hydrate (hretry : HasRetryFields fields)
    (h : hydrate py (.obj fields) workerId schemaVersion = .ok out) (category : Option String) :
    retryAvailable out category = legacyRetryAvailable py fields category := by
  obtain ⟨count, hcount⟩ := exists_int_of_hasRetryFields py hretry (.inl rfl)
  obtain ⟨limit, hlimit⟩ := exists_int_of_hasRetryFields py hretry (.inr rfl)
  have hcategory : out.field "failure_category" = fields.field "failure_category" :=
    field_hydrate_any h (List.mem_of_getElem? (i := 15) rfl) rfl rfl
  have hlast : out.field "last_failure_category" = fields.field "last_failure_category" :=
    field_hydrate_any h (List.mem_of_getElem? (i := 17) rfl) rfl rfl
  have hretryable : out.field "failure_retryable" = fields.field "failure_retryable" :=
    field_hydrate_any h (List.mem_of_getElem? (i := 25) rfl) rfl rfl
  have hfailures : (legacyListField fields "retryable_failures").find?
      (fun failure => !failure.isHashable) = none := by
    rw [List.find?_eq_none]
    intro failure hfailure
    obtain ⟨text, rfl⟩ := hretry.failures failure hfailure
    simp [JsonValue.isHashable]
  have hashable : ∀ name, name = "failure_category" ∨ name = "last_failure_category" →
      (fields.field name).isHashable = true := by
    intro name hname
    rcases hretry.categories name hname with hnull | ⟨text, htext⟩
    · rw [hnull]
      rfl
    · rw [htext]
      rfl
  have hasked : (match category with
      | some category => JsonValue.str category
      | none => (fields.field "failure_category").orElse (fields.field "last_failure_category")
      ).isHashable = true := by
    cases category with
    | some category => rfl
    | none =>
      dsimp only
      rw [JsonValue.orElse]
      split_ifs
      · exact hashable _ (.inl rfl)
      · exact hashable _ (.inr rfl)
  unfold retryAvailable legacyRetryAvailable
  dsimp only
  rw [hcategory, hlast, hretryable, legacyListField_hydrate h, hfailures, hasked, hcount, hlimit,
    countField_hydrate h (.inl rfl) hcount, countField_hydrate h (.inr rfl) hlimit]
  simp only [Bool.not_true, Bool.and_false, Bool.false_eq_true, if_false]
  rfl

/-- Migrating a legacy worker keeps its meaning.  The state inferred for it shows the status that it
had, and that of a failure or a time-out offers a retry just when the hydrated worker has one. -/
theorem hydrate_legacy (hlegacy : IsLegacy fields status)
    (hhydratable : Hydratable py fields workerId schemaVersion) :
    ∃ out state, hydrate py (.obj fields) workerId schemaVersion = .ok out ∧
      lifecycleState? out = some state ∧ state.status = status ∧
      (HasRetryFields fields → status = .failed ∨ status = .timeout →
        retryAvailable out (askedCategory fields status) = .ok state.row.retryable) := by
  obtain ⟨out, h⟩ := succeeds_hydrate.2 hhydratable
  obtain ⟨state, hinferred, hstate⟩ := lifecycleState?_hydrate h hlegacy.unnamed
  obtain ⟨hstatus, hoffers⟩ := status_of_lifecycleStateFromLegacy hlegacy hinferred
  refine ⟨out, state, h, hstate, hstatus, fun hretry hfails => ?_⟩
  rw [retryAvailable_hydrate hretry h]
  exact hoffers hfails

/-- A worker of an earlier version that failed in a time-out and has a retry left. -/
def erroredWorker : Fields :=
  [("status", .str "Errored"), ("failure_category", .str "timeout"), ("retry_limit", .int 2),
    ("retryable_failures", .arr [.str "timeout"]), ("blockers", .arr [])]

lemma isLegacy_erroredWorker : IsLegacy erroredWorker .failed where
  unnamed := by decide
  status := ⟨"Errored", rfl, by decide⟩

lemma hasRetryFields_erroredWorker : HasRetryFields erroredWorker where
  counts := by
    rintro name (rfl | rfl)
    · exact .inl rfl
    · exact .inr ⟨2, rfl⟩
  failures := by
    intro failure hfailure
    exact ⟨"timeout", List.mem_singleton.1 hfailure⟩
  categories := by
    rintro name (rfl | rfl)
    · exact .inr ⟨"timeout", rfl⟩
    · exact .inl rfl

lemma hydratable_erroredWorker : Hydratable plainInterpreter erroredWorker "w1" (.int 1) where
  schemaVersion_finite := rfl
  lifecycleState_hashable := rfl
  blockers_makeSet _ _ _ := rfl
  retryCount_finite := rfl
  retryLimit_finite := rfl
  timeoutSeconds_float := rfl
  identified := .inl (by decide)

theorem hydrate_erroredWorker : ∃ out state,
    hydrate plainInterpreter (.obj erroredWorker) "w1" (.int 1) = .ok out ∧
      lifecycleState? out = some state ∧ state.status = .failed ∧
      retryAvailable out (some "timeout") = .ok state.row.retryable := by
  obtain ⟨out, state, hout, hstate, hstatus, hretry⟩ :=
    hydrate_legacy isLegacy_erroredWorker hydratable_erroredWorker
  exact ⟨out, state, hout, hstate, hstatus, hretry hasRetryFields_erroredWorker (.inl rfl)⟩

end Snapshot

end OpencodeSession
