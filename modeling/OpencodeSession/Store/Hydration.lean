import OpencodeSession.Store.Migration

/-!
# Hydrated workers

A persisted worker can be hydrated when nothing in it is one of the values that the conversions do
not catch (`succeeds_hydrate`).  What is hydrated is its own canonical form (`toSnapshot_idem`).
-/

namespace OpencodeSession

open Except

namespace Snapshot

variable {py : Interpreter} {fields fields' : Fields} {name : String}

/-! ## Canonical fields -/

/-- The value of a field before its canonical form is taken: its own, or the default of a required
one. -/
def fieldValue (workerId : String) (fields : Fields) (spec : FieldSpec) : Option JsonValue :=
  (Dict.lookup spec.name fields).orElse fun _ =>
    if spec.required then some (spec.defaultValue workerId) else none

variable {specs : List FieldSpec} {workerId : String}

lemma canonicalFields_cons (spec : FieldSpec) : canonicalFields py workerId fields (spec :: specs) =
    match fieldValue workerId fields spec with
    | some value => (do
      let value ← spec.canonicalValue py value
      let rest ← canonicalFields py workerId fields specs
      return (spec.name, value) :: rest)
    | none => canonicalFields py workerId fields specs := rfl

lemma canonicalFields_congr {workerId' : String}
    (h : ∀ spec ∈ specs, fieldValue workerId fields spec = fieldValue workerId' fields' spec) :
    canonicalFields py workerId fields specs = canonicalFields py workerId' fields' specs := by
  induction specs with
  | nil => rfl
  | cons spec specs ih =>
    rw [List.forall_mem_cons] at h
    rw [canonicalFields_cons, canonicalFields_cons, h.1, ih h.2]

lemma succeeds_canonicalFields : (canonicalFields py workerId fields specs).Succeeds ↔
    ∀ spec ∈ specs, ∀ value, fieldValue workerId fields spec = some value →
      (spec.canonicalValue py value).Succeeds := by
  induction specs with
  | nil => exact iff_of_true (succeeds_ok _) fun _ hspec => absurd hspec List.not_mem_nil
  | cons spec specs ih =>
    rw [canonicalFields_cons, List.forall_mem_cons, ← ih]
    cases fieldValue workerId fields spec with
    | none => simp
    | some value =>
      simp only [succeeds_bind, Option.some.injEq, forall_eq']
      constructor
      · rintro ⟨value', hvalue, rest, hrest, -⟩
        exact ⟨⟨value', hvalue⟩, rest, hrest⟩
      · rintro ⟨⟨value', hvalue⟩, rest, hrest⟩
        exact ⟨value', hvalue, rest, hrest, succeeds_ok _⟩

lemma lookup_canonicalFields_eq_none {out : Fields}
    (h : canonicalFields py workerId fields specs = .ok out) (hname : name ∉ specs.map FieldSpec.name) :
    Dict.lookup name out = none := by
  induction specs generalizing out with
  | nil =>
    cases h
    rfl
  | cons spec specs ih =>
    rw [List.map_cons, List.mem_cons, not_or] at hname
    rw [canonicalFields_cons] at h
    split at h
    · obtain ⟨value, -, h⟩ := bind_eq_ok.1 h
      obtain ⟨rest, hrest, h⟩ := bind_eq_ok.1 h
      cases h
      rw [Dict.lookup_cons, if_neg (Ne.symm hname.1)]
      exact ih hrest hname.2
    · exact ih h hname.2

/-- The fields of a canonical worker are canonical values. -/
lemma canonical_of_lookup {out : Fields} (hnodup : (specs.map FieldSpec.name).Nodup)
    (h : canonicalFields py workerId fields specs = .ok out) {spec : FieldSpec} (hspec : spec ∈ specs) :
    (fieldValue workerId fields spec = none ∧ Dict.lookup spec.name out = none) ∨
      ∃ value value', fieldValue workerId fields spec = some value ∧
        spec.canonicalValue py value = .ok value' ∧ Dict.lookup spec.name out = some value' := by
  induction specs generalizing out with
  | nil => exact absurd hspec List.not_mem_nil
  | cons first specs ih =>
    rw [List.map_cons, List.nodup_cons] at hnodup
    rw [canonicalFields_cons] at h
    rcases List.mem_cons.1 hspec with rfl | hmem
    · split at h
      · next value hvalue =>
        obtain ⟨value', hvalue', h⟩ := bind_eq_ok.1 h
        obtain ⟨rest, -, h⟩ := bind_eq_ok.1 h
        cases h
        exact .inr ⟨value, value', hvalue, hvalue', by rw [Dict.lookup_cons, if_pos rfl]⟩
      · next hvalue => exact .inl ⟨hvalue, lookup_canonicalFields_eq_none h hnodup.1⟩
    · have hne : first.name ≠ spec.name := by
        intro heq
        exact hnodup.1 (heq ▸ List.mem_map_of_mem hmem)
      split at h
      · obtain ⟨value, -, h⟩ := bind_eq_ok.1 h
        obtain ⟨rest, hrest, h⟩ := bind_eq_ok.1 h
        cases h
        rw [Dict.lookup_cons, if_neg hne]
        exact ih hnodup.2 hrest hmem
      · exact ih hnodup.2 h hmem

/-- Canonical fields are their own canonical form, wherever they are looked up. -/
lemma canonicalFields_of_canonical {out : Fields} (hnodup : (specs.map FieldSpec.name).Nodup)
    (h : canonicalFields py workerId fields specs = .ok out) {workerId' : String} {full : Fields}
    (hfull : ∀ spec ∈ specs, Dict.lookup spec.name full = Dict.lookup spec.name out) :
    canonicalFields py workerId' full specs = .ok out := by
  induction specs generalizing out with
  | nil =>
    cases h
    rfl
  | cons spec specs ih =>
    rw [List.map_cons, List.nodup_cons] at hnodup
    rw [canonicalFields_cons] at h ⊢
    have hne : ∀ other ∈ specs, spec.name ≠ other.name := by
      intro other hother heq
      exact hnodup.1 (heq ▸ List.mem_map_of_mem hother)
    rw [List.forall_mem_cons] at hfull
    split at h
    · obtain ⟨value, hvalue, h⟩ := bind_eq_ok.1 h
      obtain ⟨rest, hrest, h⟩ := bind_eq_ok.1 h
      cases h
      have hlookup : Dict.lookup spec.name full = some value := by
        rw [hfull.1, Dict.lookup_cons, if_pos rfl]
      have hfound : fieldValue workerId' full spec = some value := by
        rw [fieldValue, hlookup]
        rfl
      rw [hfound]
      refine bind_eq_ok.2 ⟨value, FieldSpec.canonicalValue_idem hvalue, ?_⟩
      refine bind_eq_ok.2 ⟨rest, ih hnodup.2 hrest fun other hother => ?_, rfl⟩
      rw [hfull.2 other hother, Dict.lookup_cons, if_neg (hne other hother)]
    · next hvalue =>
      -- a required field has a value
      have hrequired : spec.required = false := by
        by_contra hrequired
        rw [Bool.not_eq_false] at hrequired
        unfold fieldValue at hvalue
        rw [if_pos hrequired] at hvalue
        cases hlookup : Dict.lookup spec.name fields <;> rw [hlookup] at hvalue <;> cases hvalue
      have hlookup : Dict.lookup spec.name full = none := by
        rw [hfull.1]
        exact lookup_canonicalFields_eq_none h hnodup.1
      have hfound : fieldValue workerId' full spec = none := by
        rw [fieldValue, hlookup, hrequired]
        rfl
      rw [hfound]
      exact ih hnodup.2 h hfull.2

theorem toSnapshot_idem (h : toSnapshot py fields = .ok fields') :
    toSnapshot py fields' = .ok fields' :=
  canonicalFields_of_canonical nodup_workerFieldNames h fun _ _ => rfl

/-! ## Defaults -/

/-- Whether the default of a field is one of the values that its validator takes. -/
def defaultFits (spec : FieldSpec) : Bool :=
  match spec.validator, spec.default with
  | .any, _ => true
  | .id, _ => spec.defaultFromWorkerId
  | .int, .int _ => true
  | .list, .arr _ => true
  | .timeoutSeconds, .null => true
  | .lifecycleState, .str state => state ∈ lifecycleStateNames
  | .timeoutPolicy, .str policy => policy ∈ timeoutPolicyNames
  | _, _ => false

lemma defaultFits_of_mem : ∀ spec ∈ workerFieldSpecs,
    defaultFits spec = true ∧ (spec.defaultFromWorkerId = true → spec.validator = .id) := by
  decide

/-- Every default passes its own check. -/
lemma canonicalValue_default {spec : FieldSpec} (hspec : spec ∈ workerFieldSpecs)
    (hid : workerId ≠ "") : (spec.canonicalValue py (spec.defaultValue workerId)).Succeeds := by
  obtain ⟨hfits, hvalidator⟩ := defaultFits_of_mem spec hspec
  unfold FieldSpec.defaultValue
  split_ifs with hfrom
  · unfold FieldSpec.canonicalValue
    rw [hvalidator hfrom]
    simp only [ne_eq, hid, not_false_eq_true, if_true]
    exact succeeds_ok _
  · unfold defaultFits at hfits
    unfold FieldSpec.canonicalValue
    split at hfits
    · next h => rw [h]; exact succeeds_ok _
    · exact absurd hfits hfrom
    · next h hdefault => rw [h, hdefault]; exact succeeds_ok _
    · next h hdefault => rw [h, hdefault]; exact succeeds_ok _
    · next h hdefault => rw [h, hdefault]; exact succeeds_ok _
    · next state h hdefault =>
      rw [h, hdefault]
      exact ⟨_, FieldSpec.canonicalAcceptedValue_eq_ok.2 ⟨rfl, state, by simpa using hfits, rfl⟩⟩
    · next policy h hdefault =>
      rw [h, hdefault]
      exact ⟨_, FieldSpec.canonicalAcceptedValue_eq_ok.2 ⟨rfl, policy, by simpa using hfits, rfl⟩⟩
    · cases hfits

/-! ## Hydrating -/

lemma lookup_runtimeFields {spec : FieldSpec} (hspec : spec ∈ workerFieldSpecs) :
    Dict.lookup spec.name (runtimeFields fields) = Dict.lookup spec.name fields := by
  have hmem : spec.name ∈ workerFieldNames := List.mem_map_of_mem hspec
  rw [runtimeFields, Dict.lookup_filter fun name => name ∈ workerFieldNames]
  simp [hmem]

lemma lookup_defaultFields {spec : FieldSpec} (hspec : spec ∈ workerFieldSpecs) :
    Dict.lookup spec.name (defaultFields workerId) =
      if spec.required then some (spec.defaultValue workerId) else none := by
  have hkeys : ((defaultFields workerId).map Prod.fst).Nodup := by
    rw [defaultFields, List.map_map]
    exact nodup_workerFieldNames.sublist (List.filter_sublist.map _)
  split_ifs with hrequired
  · refine Dict.lookup_of_mem hkeys ?_
    exact List.mem_map_of_mem (f := fun spec => (spec.name, spec.defaultValue workerId))
      (List.mem_filter.2 ⟨hspec, hrequired⟩)
  · rw [Dict.lookup_eq_none_iff, defaultFields, List.map_map]
    intro hmem
    obtain ⟨other, hother, hname⟩ := List.mem_map.1 hmem
    obtain ⟨hotherMem, hotherRequired⟩ := List.mem_filter.1 hother
    obtain rfl := eq_of_name_eq hotherMem hspec hname
    exact hrequired hotherRequired

lemma idSpec_mem : { name := "id", validator := .id, defaultFromWorkerId := true } ∈
    workerFieldSpecs :=
  List.mem_cons_self

lemma lifecycleStateSpec_mem :
    { name := "lifecycle_state", default := .str "queued", validator := .lifecycleState } ∈
      workerFieldSpecs :=
  List.mem_of_getElem? (i := 14) rfl

/-- A worker with an identifier is hydrated from its migrated fields. -/
lemma canonicalSnapshotFields_of_id {id : String} (hid : id ≠ "")
    (hlookup : Dict.lookup "id" fields = some (.str id)) :
    (canonicalSnapshotFields py fields workerId >>= toSnapshot py) =
      canonicalFields py id fields workerFieldSpecs := by
  have hruntime : (runtimeFields fields).field "id" = .str id := by
    rw [Fields.field, lookup_runtimeFields idSpec_mem, hlookup]
    rfl
  have htruthy : (JsonValue.str id).truthy = true := by simpa [JsonValue.truthy] using hid
  have hresolved : (JsonValue.str id).orElse (.str workerId) = .str id := if_pos htruthy
  have hsnapshot : canonicalSnapshotFields py fields workerId =
      .ok (Dict.merge (defaultFields id) (runtimeFields fields)) := by
    unfold canonicalSnapshotFields
    dsimp only
    rw [hruntime, hresolved, htruthy]
    rfl
  have hmerged : ∀ spec ∈ workerFieldSpecs,
      Dict.lookup spec.name (Dict.merge (defaultFields id) (runtimeFields fields)) =
        fieldValue id fields spec := by
    intro spec hspec
    rw [Dict.lookup_merge, lookup_runtimeFields hspec, lookup_defaultFields hspec]
    rfl
  have hidOf : idOf (Dict.merge (defaultFields id) (runtimeFields fields)) = id := by
    have hfield := hmerged _ idSpec_mem
    simp only [fieldValue, hlookup, Option.orElse_some] at hfield
    rw [idOf, Fields.field, hfield]
    rfl
  rw [hsnapshot]
  show toSnapshot py (Dict.merge (defaultFields id) (runtimeFields fields)) = _
  rw [toSnapshot, hidOf]
  refine canonicalFields_congr fun spec hspec => ?_
  rw [fieldValue, hmerged spec hspec]
  unfold fieldValue
  cases Dict.lookup spec.name fields with
  | some value => rfl
  | none => cases spec.required <;> rfl

lemma canonicalSnapshotFields_of_none (hlookup : Dict.lookup "id" fields = none) :
    ¬ (canonicalSnapshotFields py fields "").Succeeds := by
  have hruntime : (runtimeFields fields).field "id" = .null := by
    rw [Fields.field, lookup_runtimeFields idSpec_mem, hlookup]
    rfl
  unfold canonicalSnapshotFields
  dsimp only
  rw [hruntime]
  exact not_succeeds_error _

/-- The fields of a worker that was migrated: each is what its validator makes of it. -/
lemma rel_lookup_migrateV1 (h : migrateV1 py fields workerId = .ok fields') :
    ∃ repaired, repairLifecycle py (repairIdentity py fields workerId) = .ok repaired ∧
      ∀ spec ∈ workerFieldSpecs, CoercesTo (coerced py spec.validator)
        (Dict.lookup spec.name repaired) (Dict.lookup spec.name fields') := by
  rw [migrateV1_eq] at h
  obtain ⟨repaired, hrepaired, h⟩ := bind_eq_ok.1 h
  refine ⟨repaired, hrepaired, fun spec hspec => ?_⟩
  obtain ⟨hcoerced, hkept⟩ := coerceAll_eq_ok (by decide) h hspec
  rw [lookup_removePublicState (name_notMem_publicWorkerState spec hspec)] at hcoerced hkept
  by_cases hmem : spec.validator ∈ coercedValidators
  · exact hcoerced hmem
  · rw [hkept hmem]
    have hsame : coerced py spec.validator = Except.ok := by
      cases hvalidator : spec.validator <;> rw [hvalidator] at hmem
      all_goals first
        | rfl
        | exact absurd (by decide) hmem
    rw [hsame]
    cases Dict.lookup spec.name repaired with
    | none => exact .none
    | some value => exact .some rfl

/-- Whether a persisted worker can be hydrated under a key. -/
structure Hydratable (py : Interpreter) (fields : Fields) (workerId : String)
    (schemaVersion : JsonValue) : Prop where
  /-- The schema version of the run is no infinity. -/
  schemaVersion_finite : schemaVersion.isInfinite = false
  /-- The lifecycle state has a hash. -/
  lifecycleState_hashable : (fields.field "lifecycle_state").isHashable = true
  /-- The blockers of a blocked worker of an earlier version can be looked through. -/
  blockers_makeSet : namesLifecycleState (fields.field "lifecycle_state") = false →
    py.shortStatus (fields.field "status") = some "blocked" →
      (fields.field "failure_category").pyEq (.str "timeout") = false →
        makesSet (fields.field "blockers") = true
  retryCount_finite : (fields.field "retry_count").isInfinite = false
  retryLimit_finite : (fields.field "retry_limit").isInfinite = false
  /-- The time-out is no integer beyond the floats. -/
  timeoutSeconds_float : (fields.field "timeout_seconds").isHugeInt = false
  /-- The worker has an identifier. -/
  identified : workerId ≠ "" ∨ (fields.field "id").truthy = true

lemma field_eq_false_iff {p : JsonValue → Bool} (hnull : p .null = false) :
    p (fields.field name) = false ↔
      ∀ value, Dict.lookup name fields = some value → p value = false := by
  unfold Fields.field
  cases Dict.lookup name fields <;> simp [hnull]

/-- The fields that can fail to be coerced are the retry budget and the time-out. -/
lemma forall_isCoercible_iff :
    (∀ spec ∈ workerFieldSpecs, spec.validator ∈ coercedValidators →
      ∀ value, Dict.lookup spec.name fields = some value → IsCoercible spec.validator value) ↔
    (fields.field "retry_count").isInfinite = false ∧
      (fields.field "retry_limit").isInfinite = false ∧
        (fields.field "timeout_seconds").isHugeInt = false := by
  rw [field_eq_false_iff (p := JsonValue.isInfinite) rfl,
    field_eq_false_iff (p := JsonValue.isInfinite) rfl,
    field_eq_false_iff (p := JsonValue.isHugeInt) rfl]
  constructor
  · intro h
    have hcount := h _ (List.mem_of_getElem? (i := 7) rfl) (by decide)
    have hlimit := h _ (List.mem_of_getElem? (i := 8) rfl) (by decide)
    have htimeout := h _ (List.mem_of_getElem? (i := 10) rfl) (by decide)
    exact ⟨hcount, hlimit, htimeout⟩
  · rintro ⟨hcount, hlimit, htimeout⟩ spec hspec hmem value hvalue
    have hint : ∀ spec ∈ workerFieldSpecs, spec.validator = .int →
        spec.name = "retry_count" ∨ spec.name = "retry_limit" := by decide
    have hseconds : ∀ spec ∈ workerFieldSpecs, spec.validator = .timeoutSeconds →
        spec.name = "timeout_seconds" := by decide
    cases hvalidator : spec.validator with
    | int =>
      rcases hint spec hspec hvalidator with hname | hname
      · exact hcount value (hname ▸ hvalue)
      · exact hlimit value (hname ▸ hvalue)
    | timeoutSeconds => exact htimeout value (hseconds spec hspec hvalidator ▸ hvalue)
    | _ => trivial

lemma field_repaired {repaired : Fields} (hrepaired : ∀ name, "lifecycle_state" ≠ name →
      Dict.lookup name repaired = Dict.lookup name (repairIdentity py fields workerId))
    (hname : name ∉ "id" :: "lifecycle_state" :: publicWorkerStateFieldNames) :
    (removePublicState repaired).field name = fields.field name := by
  simp only [List.mem_cons, not_or] at hname
  rw [Fields.field, lookup_removePublicState hname.2.2, hrepaired name (Ne.symm hname.2.1),
    lookup_repairIdentity (Ne.symm hname.1)]
  rfl

lemma field_repairIdentity (hname : "id" ≠ name) :
    (repairIdentity py fields workerId).field name = fields.field name := by
  rw [Fields.field, lookup_repairIdentity hname]
  rfl

lemma legacyTimeoutOrigin_repairIdentity (status : Option String) :
    legacyTimeoutOrigin (repairIdentity py fields workerId) status =
      legacyTimeoutOrigin fields status := by
  unfold legacyTimeoutOrigin
  rw [field_repairIdentity (by decide), field_repairIdentity (by decide)]

/-- When migrating a worker succeeds. -/
lemma succeeds_migrateV1 : (migrateV1 py fields workerId).Succeeds ↔
    (fields.field "lifecycle_state").isHashable = true ∧
    (namesLifecycleState (fields.field "lifecycle_state") = false →
      py.shortStatus (fields.field "status") = some "blocked" →
        (fields.field "failure_category").pyEq (.str "timeout") = false →
          makesSet (fields.field "blockers") = true) ∧
    (fields.field "retry_count").isInfinite = false ∧
    (fields.field "retry_limit").isInfinite = false ∧
    (fields.field "timeout_seconds").isHugeInt = false := by
  have hcoerce : ∀ repaired,
      repairLifecycle py (repairIdentity py fields workerId) = .ok repaired →
        ((coerceAll py coercedValidators (removePublicState repaired)).Succeeds ↔
          (fields.field "retry_count").isInfinite = false ∧
          (fields.field "retry_limit").isInfinite = false ∧
          (fields.field "timeout_seconds").isHugeInt = false) := by
    intro repaired hrepaired
    have hkept := (repairLifecycle_eq_ok hrepaired).2
    rw [succeeds_coerceAll (by decide), forall_isCoercible_iff, field_repaired hkept (by decide),
      field_repaired hkept (by decide), field_repaired hkept (by decide)]
  have hrepair : (repairLifecycle py (repairIdentity py fields workerId)).Succeeds ↔ _ :=
    succeeds_repairLifecycle (repairIdentity py fields workerId)
  rw [field_repairIdentity (by decide)] at hrepair
  rw [migrateV1_eq, succeeds_bind]
  constructor
  · rintro ⟨repaired, hrepaired, h⟩
    obtain ⟨hcount, hlimit, htimeout⟩ := (hcoerce repaired hrepaired).1 h
    obtain ⟨hhashable, hlegacy⟩ := hrepair.1 ⟨repaired, hrepaired⟩
    refine ⟨hhashable, fun hunknown => ?_, hcount, hlimit, htimeout⟩
    have hstate := hlegacy hunknown
    rw [succeeds_lifecycleStateFromLegacy (by rwa [field_repairIdentity (by decide)])
      (by rwa [field_repairIdentity (by decide)]), legacyTimeoutOrigin_repairIdentity,
      field_repairIdentity (by decide), succeeds_legacyTimeoutOrigin] at hstate
    exact hstate
  · rintro ⟨hhashable, hlegacy, hcount, hlimit, htimeout⟩
    obtain ⟨repaired, hrepaired⟩ := hrepair.2 ⟨hhashable, fun hunknown => by
      rw [succeeds_lifecycleStateFromLegacy (by rwa [field_repairIdentity (by decide)])
        (by rwa [field_repairIdentity (by decide)]), legacyTimeoutOrigin_repairIdentity,
        field_repairIdentity (by decide), succeeds_legacyTimeoutOrigin]
      exact hlegacy hunknown⟩
    exact ⟨repaired, hrepaired, (hcoerce repaired hrepaired).2 ⟨hcount, hlimit, htimeout⟩⟩

lemma succeeds_coercedSchemaVersion (py : Interpreter) (schemaVersion : JsonValue) :
    (coercedSchemaVersion py schemaVersion).Succeeds ↔ schemaVersion.isInfinite = false := by
  rw [← JsonValue.isInfinite_orElse schemaVersion 1, ← py.succeeds_int _ 1]
  rfl

lemma lookup_id_migrateV1 (h : migrateV1 py fields workerId = .ok fields') :
    Dict.lookup "id" fields' = Dict.lookup "id" (repairIdentity py fields workerId) := by
  obtain ⟨repaired, hrepaired, hrel⟩ := rel_lookup_migrateV1 h
  rw [← (repairLifecycle_eq_ok hrepaired).2 "id" (by decide)]
  have hid := hrel _ idSpec_mem
  dsimp only at hid
  generalize Dict.lookup "id" repaired = before at hid ⊢
  generalize Dict.lookup "id" fields' = after at hid ⊢
  cases hid with
  | some heq =>
    cases heq
    rfl
  | none => rfl

/-- Migrated fields have canonical values. -/
lemma succeeds_canonicalFields_migrateV1 {id : String} (hid : id ≠ "")
    (h : migrateV1 py fields workerId = .ok fields')
    (hlookup : Dict.lookup "id" fields' = some (.str id)) :
    (canonicalFields py id fields' workerFieldSpecs).Succeeds := by
  obtain ⟨repaired, hrepaired, hrel⟩ := rel_lookup_migrateV1 h
  obtain ⟨⟨state, hstate, hstateLookup⟩, -⟩ := repairLifecycle_eq_ok hrepaired
  refine succeeds_canonicalFields.2 fun spec hspec value hvalue => ?_
  unfold fieldValue at hvalue
  cases hfound : Dict.lookup spec.name fields' with
  | none =>
    rw [hfound] at hvalue
    simp only [Option.orElse_none] at hvalue
    split_ifs at hvalue
    cases hvalue
    exact canonicalValue_default hspec hid
  | some found =>
    rw [hfound] at hvalue
    cases hvalue
    have hcoerced := hrel spec hspec
    rw [hfound] at hcoerced
    have hidName : ∀ spec ∈ workerFieldSpecs, spec.validator = .id → spec.name = "id" := by decide
    have hstateName : ∀ spec ∈ workerFieldSpecs, spec.validator = .lifecycleState →
        spec.name = "lifecycle_state" := by decide
    by_cases hisId : spec.validator = .id
    · rw [hidName spec hspec hisId, hlookup] at hfound
      cases hfound
      unfold FieldSpec.canonicalValue
      rw [hisId]
      simp only [ne_eq, hid, not_false_eq_true, if_true]
      exact succeeds_ok _
    · by_cases hisState : spec.validator = .lifecycleState
      · rw [hstateName spec hspec hisState, hstateLookup, hisState] at hcoerced
        cases hcoerced with
        | some heq =>
          cases heq
          unfold FieldSpec.canonicalValue
          rw [hisState]
          exact ⟨_, FieldSpec.canonicalAcceptedValue_eq_ok.2 ⟨rfl, state, hstate, rfl⟩⟩
      · generalize Dict.lookup spec.name repaired = before at hcoerced
        cases hcoerced with
        | some heq => exact ⟨_, canonicalValue_of_coerced hisId hisState heq⟩

theorem succeeds_hydrate {schemaVersion : JsonValue} :
    (hydrate py (.obj fields) workerId schemaVersion).Succeeds ↔
      Hydratable py fields workerId schemaVersion := by
  unfold hydrate migrate
  simp only [bind_assoc]
  constructor
  · intro h
    obtain ⟨version, hversion, h⟩ := succeeds_bind.1 h
    obtain ⟨migrated, hmigrated, h⟩ := succeeds_bind.1 h
    obtain ⟨hhashable, hblockers, hcount, hlimit, htimeout⟩ :=
      succeeds_migrateV1.1 ⟨migrated, hmigrated⟩
    refine ⟨(succeeds_coercedSchemaVersion py _).1 ⟨version, hversion⟩, hhashable, hblockers, hcount,
      hlimit, htimeout, ?_⟩
    by_contra hid
    have hnone := lookup_id_repairIdentity_of_none py hid
    rw [← lookup_id_migrateV1 hmigrated] at hnone
    obtain ⟨snapshot, hsnapshot, -⟩ := succeeds_bind.1 h
    have hkey : workerId = "" := by
      by_contra hne
      exact hid (.inl hne)
    rw [hkey] at hsnapshot
    exact canonicalSnapshotFields_of_none hnone ⟨snapshot, hsnapshot⟩
  · intro h
    obtain ⟨version, hversion⟩ := (succeeds_coercedSchemaVersion py _).2 h.schemaVersion_finite
    obtain ⟨migrated, hmigrated⟩ := succeeds_migrateV1.2 ⟨h.lifecycleState_hashable,
      h.blockers_makeSet, h.retryCount_finite, h.retryLimit_finite, h.timeoutSeconds_float⟩
    obtain ⟨id, hid, -, hlookup⟩ := lookup_id_repairIdentity py h.identified
    rw [← lookup_id_migrateV1 hmigrated] at hlookup
    refine succeeds_bind.2 ⟨version, hversion, succeeds_bind.2 ⟨migrated, hmigrated, ?_⟩⟩
    rw [canonicalSnapshotFields_of_id hid hlookup]
    exact succeeds_canonicalFields_migrateV1 hid hmigrated hlookup

/-! ## Storing a worker -/

/-- A value of a canonical worker is canonical. -/
lemma canonicalValue_of_toSnapshot {spec : FieldSpec} {value : JsonValue}
    (h : toSnapshot py fields = .ok fields) (hspec : spec ∈ workerFieldSpecs)
    (hvalue : Dict.lookup spec.name fields = some value) :
    spec.canonicalValue py value = .ok value := by
  rcases canonical_of_lookup nodup_workerFieldNames h hspec with ⟨-, hnone⟩ | ⟨before, after, -,
    hcanonical, hlookup⟩
  · rw [hnone] at hvalue
    cases hvalue
  · rw [hlookup] at hvalue
    cases hvalue
    exact FieldSpec.canonicalValue_idem hcanonical

lemma exists_lookup_of_required {spec : FieldSpec} (h : toSnapshot py fields = .ok fields)
    (hspec : spec ∈ workerFieldSpecs) (hrequired : spec.required = true) :
    ∃ value, Dict.lookup spec.name fields = some value := by
  rcases canonical_of_lookup nodup_workerFieldNames h hspec with ⟨hnone, -⟩ | ⟨-, value, -, -,
    hlookup⟩
  · unfold fieldValue at hnone
    rw [if_pos hrequired] at hnone
    cases hlookup : Dict.lookup spec.name fields <;> rw [hlookup] at hnone <;> cases hnone
  · exact ⟨value, hlookup⟩

/-- The identifier of a canonical worker. -/
lemma exists_id_of_toSnapshot (h : toSnapshot py fields = .ok fields) :
    ∃ id, id ≠ "" ∧ Dict.lookup "id" fields = some (.str id) := by
  obtain ⟨value, hvalue⟩ := exists_lookup_of_required h idSpec_mem rfl
  have hcanonical := canonicalValue_of_toSnapshot h idSpec_mem hvalue
  unfold FieldSpec.canonicalValue at hcanonical
  dsimp only at hcanonical
  split at hcanonical
  · next id =>
    split_ifs at hcanonical with hne
    exact ⟨id, hne, hvalue⟩
  · cases hcanonical

/-- A canonical worker under another identifier is canonical. -/
lemma toSnapshot_insert_id {id : String} (hid : id ≠ "") (h : toSnapshot py fields = .ok fields) :
    toSnapshot py (Dict.insert "id" (.str id) fields) = .ok (Dict.insert "id" (.str id) fields) := by
  have hspecs : workerFieldSpecs =
      { name := "id", validator := .id, defaultFromWorkerId := true } :: workerFieldSpecs.tail := rfl
  have hnodup := nodup_workerFieldNames
  unfold workerFieldNames at hnodup
  rw [hspecs, List.map_cons, List.nodup_cons] at hnodup
  obtain ⟨own, -, hown⟩ := exists_id_of_toSnapshot h
  have hvalue : ∀ workerId, fieldValue workerId fields
      { name := "id", validator := .id, defaultFromWorkerId := true } = some (.str own) := by
    intro workerId
    rw [fieldValue, hown]
    rfl
  unfold toSnapshot at h
  rw [hspecs, canonicalFields_cons, hvalue] at h
  obtain ⟨value, -, h⟩ := bind_eq_ok.1 h
  obtain ⟨rest, hrest, h⟩ := bind_eq_ok.1 h
  cases h
  have hinsert : Dict.insert "id" (.str id) (("id", value) :: rest) = ("id", .str id) :: rest := by
    rw [Dict.insert, if_pos rfl]
  dsimp only at hinsert ⊢
  rw [hinsert, toSnapshot, hspecs, canonicalFields_cons]
  have hvalue' : ∀ workerId, fieldValue workerId (("id", JsonValue.str id) :: rest)
      { name := "id", validator := .id, defaultFromWorkerId := true } = some (.str id) :=
    fun workerId => rfl
  rw [hvalue']
  refine bind_eq_ok.2 ⟨.str id, if_pos hid, bind_eq_ok.2 ⟨rest, ?_, rfl⟩⟩
  refine canonicalFields_of_canonical hnodup.2 hrest fun spec hspec => ?_
  have hmem : spec.name ∈ workerFieldSpecs.tail.map FieldSpec.name := List.mem_map_of_mem hspec
  have hne : "id" ≠ spec.name := by
    intro heq
    rw [← heq] at hmem
    exact hnodup.1 hmem
  rw [Dict.lookup_cons, if_neg hne]

/-- What has the fields of a canonical worker is hydrated to it. -/
lemma hydrate_of_canonical {stored : Fields} {workerId id : String} {schemaVersion : JsonValue}
    (h : toSnapshot py fields = .ok fields) (hid : Dict.lookup "id" fields = some (.str id))
    (hkey : workerId ≠ "" → id = workerId)
    (hstored : ∀ spec ∈ workerFieldSpecs,
      Dict.lookup spec.name stored = Dict.lookup spec.name fields)
    (hversion : schemaVersion.isInfinite = false) :
    hydrate py (.obj stored) workerId schemaVersion = .ok fields := by
  obtain ⟨id', hne, hid'⟩ := exists_id_of_toSnapshot h
  obtain rfl : id' = id := by
    rw [hid] at hid'
    cases hid'
    rfl
  have hstoredId : Dict.lookup "id" stored = some (.str id') := (hstored _ idSpec_mem).trans hid
  -- neither the identifier nor the state has to be repaired
  have hidentity : repairIdentity py stored workerId = stored := by
    unfold repairIdentity
    split_ifs with hworkerId
    · rw [← hkey hworkerId]
      exact Dict.insert_of_lookup hstoredId
    · have htruthy : (JsonValue.str id').truthy = true := by simpa [JsonValue.truthy] using hne
      rw [hstoredId]
      simp [htruthy]
  have hlifecycle : repairLifecycle py stored = .ok stored := by
    have hspec := lifecycleStateSpec_mem
    obtain ⟨value, hvalue⟩ := exists_lookup_of_required h hspec rfl
    obtain ⟨-, state, hstate, rfl⟩ := FieldSpec.canonicalAcceptedValue_eq_ok.1
      (canonicalValue_of_toSnapshot h hspec hvalue)
    have hfield : stored.field "lifecycle_state" = .str state := by
      rw [Fields.field, hstored _ hspec, hvalue]
      rfl
    have hknown : (lifecycleStateNames.any fun name => (JsonValue.str state).pyEq (.str name)) =
        true := List.any_eq_true.2 ⟨state, hstate, JsonValue.pyEq_str.2 rfl⟩
    unfold repairLifecycle isLifecycleState
    rw [hfield]
    exact bind_eq_ok.2 ⟨true, congrArg Except.ok hknown, if_pos rfl⟩
  -- of the columns only the public ones are removed, and no field is called like one
  have hpublic : ∀ spec ∈ workerFieldSpecs, Dict.lookup spec.name (removePublicState stored) =
      Dict.lookup spec.name fields := by
    intro spec hspec
    rw [lookup_removePublicState (name_notMem_publicWorkerState spec hspec), hstored spec hspec]
  have hmigrated : migrateV1 py stored workerId = .ok (removePublicState stored) := by
    rw [migrateV1_eq, hidentity, hlifecycle]
    refine coerceAll_of_canonical fun spec hspec value hvalue => ?_
    rw [hpublic spec hspec] at hvalue
    exact canonicalValue_of_toSnapshot h hspec hvalue
  obtain ⟨version, hversion⟩ := (succeeds_coercedSchemaVersion py _).2 hversion
  refine bind_eq_ok.2 ⟨removePublicState stored, bind_eq_ok.2 ⟨version, hversion, hmigrated⟩, ?_⟩
  rw [canonicalSnapshotFields_of_id hne ((hpublic _ idSpec_mem).trans hid)]
  exact canonicalFields_of_canonical nodup_workerFieldNames h hpublic

/-- A canonical worker under the identifier of its key. -/
def identified (worker : Fields) (workerId : String) : Fields :=
  if workerId ≠ "" then Dict.insert "id" (.str workerId) worker else worker

lemma lookup_unknownFields {spec : FieldSpec} (hspec : spec ∈ workerFieldSpecs) :
    Dict.lookup spec.name (unknownFields fields) = none := by
  have hmem : spec.name ∈ workerFieldNames := List.mem_map_of_mem hspec
  rw [unknownFields, Dict.lookup_filter fun name => name ∉ workerFieldNames]
  simp [hmem]

/-- A stored worker has the fields of the worker, under the identifier of its key. -/
lemma lookup_forStorage {worker stored : Fields} {workerId : String} {schemaVersion : JsonValue}
    {persisted : Option JsonValue} (h : toSnapshot py worker = .ok worker)
    (hstored : forStorage py worker workerId schemaVersion persisted = .ok stored) :
    ∀ spec ∈ workerFieldSpecs,
      Dict.lookup spec.name stored = Dict.lookup spec.name (identified worker workerId) := by
  obtain ⟨runtime, hruntime, hstored⟩ := bind_eq_ok.1 hstored
  obtain ⟨snapshot, hsnapshot, hruntime⟩ := bind_eq_ok.1 hruntime
  rw [h] at hsnapshot
  cases hsnapshot
  cases hruntime
  intro spec hspec
  split at hstored
  · cases hstored
    rfl
  · cases hstored
    rfl
  · obtain ⟨migrated, -, hstored⟩ := bind_eq_ok.1 hstored
    cases hstored
    rw [Dict.lookup_merge, lookup_unknownFields hspec]
    rfl

/-- A stored worker is hydrated to the worker, under the identifier of its key. -/
theorem hydrate_forStorage {worker stored : Fields} {workerId : String} {schemaVersion : JsonValue}
    {persisted : Option JsonValue} (h : toSnapshot py worker = .ok worker)
    (hstored : forStorage py worker workerId schemaVersion persisted = .ok stored)
    (hversion : schemaVersion.isInfinite = false) :
    hydrate py (.obj stored) workerId schemaVersion = .ok (identified worker workerId) := by
  have hlookups := lookup_forStorage h hstored
  unfold identified at hlookups ⊢
  split_ifs at hlookups ⊢ with hkey
  · exact hydrate_of_canonical (toSnapshot_insert_id hkey h) (Dict.lookup_insert_self _ _ _)
      (fun _ => rfl) hlookups hversion
  · obtain ⟨id, -, hid⟩ := exists_id_of_toSnapshot h
    exact hydrate_of_canonical h hid (fun hne => absurd hne hkey) hlookups hversion

lemma identified_eq_self_iff {worker : Fields} {workerId : String} :
    identified worker workerId = worker ↔
      workerId = "" ∨ Dict.lookup "id" worker = some (.str workerId) := by
  unfold identified
  split_ifs with hkey
  · constructor
    · intro h
      rw [← h]
      exact .inr (Dict.lookup_insert_self _ _ _)
    · rintro (h | h)
      · exact absurd h hkey
      · exact Dict.insert_of_lookup h
  · rw [not_not] at hkey
    exact iff_of_true rfl (.inl hkey)

/-- The canonical form of a worker has its identifier. -/
lemma lookup_id_canonicalFields {out : Fields} {workerId id : String}
    (h : canonicalFields py workerId fields workerFieldSpecs = .ok out)
    (hid : fieldValue workerId fields
      { name := "id", validator := .id, defaultFromWorkerId := true } = some (.str id)) :
    id ≠ "" ∧ Dict.lookup "id" out = some (.str id) := by
  rcases canonical_of_lookup nodup_workerFieldNames h idSpec_mem with ⟨hnone, -⟩ | ⟨value, value',
    hvalue, hcanonical, hlookup⟩
  · rw [hid] at hnone
    cases hnone
  · rw [hid] at hvalue
    cases hvalue
    unfold FieldSpec.canonicalValue at hcanonical
    dsimp only at hcanonical
    split_ifs at hcanonical with hne
    cases hcanonical
    exact ⟨hne, hlookup⟩

/-- The canonical form of a worker keeps the identifier. -/
lemma lookup_id_toSnapshot {snapshot : Fields} (h : toSnapshot py fields = .ok snapshot) :
    Dict.lookup "id" snapshot = Dict.lookup "id" fields := by
  cases hid : Dict.lookup "id" fields with
  | some value =>
    rcases canonical_of_lookup nodup_workerFieldNames h idSpec_mem with ⟨hnone, -⟩ | ⟨found,
      canonical, hfound, hcanonical, hlookup⟩
    · rw [fieldValue, hid] at hnone
      cases hnone
    · rw [fieldValue, hid] at hfound
      cases hfound
      rw [hlookup]
      unfold FieldSpec.canonicalValue at hcanonical
      dsimp only at hcanonical
      split at hcanonical
      · split_ifs at hcanonical
        cases hcanonical
        rfl
      · cases hcanonical
  | none =>
    have hempty : idOf fields = "" := by
      rw [idOf, Fields.field, hid]
      rfl
    have hvalue : fieldValue (idOf fields) fields
        { name := "id", validator := .id, defaultFromWorkerId := true } = some (.str "") := by
      rw [fieldValue, hid, hempty]
      rfl
    exact absurd rfl (lookup_id_canonicalFields h hvalue).1

/-- A worker that is hydrated under a key has it as its identifier. -/
lemma lookup_id_hydrate {worker : JsonValue} {workerId : String} {schemaVersion : JsonValue}
    {hydrated : Fields} (hkey : workerId ≠ "")
    (h : hydrate py worker workerId schemaVersion = .ok hydrated) :
    Dict.lookup "id" hydrated = some (.str workerId) := by
  obtain ⟨migrated, hmigrated, hcanonical⟩ := bind_eq_ok.1 h
  unfold migrate at hmigrated
  split at hmigrated
  · next fields =>
    obtain ⟨version, -, hmigrated⟩ := bind_eq_ok.1 hmigrated
    have hlookup := lookup_id_migrateV1 hmigrated
    rw [repairIdentity, if_pos hkey, Dict.lookup_insert_self] at hlookup
    rw [canonicalSnapshotFields_of_id hkey hlookup] at hcanonical
    refine (lookup_id_canonicalFields hcanonical ?_).2
    rw [fieldValue, hlookup]
    rfl
  · cases hmigrated

/-- When a canonical worker can be stored over a persisted one. -/
lemma succeeds_forStorage {worker : Fields} {workerId : String} {schemaVersion : JsonValue}
    {persisted : Option JsonValue} (h : toSnapshot py worker = .ok worker) :
    (forStorage py worker workerId schemaVersion persisted).Succeeds ↔
      ∀ value, persisted = some value → value ≠ .null →
        (migrate py value workerId schemaVersion).Succeeds := by
  have hrecord : (recordFields py worker workerId).Succeeds := by
    refine succeeds_bind.2 ⟨worker, h, succeeds_ok _⟩
  obtain ⟨runtime, hruntime⟩ := hrecord
  have hmerged : ∀ value, value ≠ JsonValue.null →
      forStorage py worker workerId schemaVersion (some value) =
        (migrate py value workerId schemaVersion >>= fun migrated =>
          .ok (Dict.merge runtime (unknownFields migrated))) := by
    intro value hne
    rw [forStorage, hruntime]
    cases value with
    | null => exact absurd rfl hne
    | _ => rfl
  cases persisted with
  | none =>
    rw [forStorage, hruntime]
    exact iff_of_true (succeeds_ok _) fun value hvalue => by cases hvalue
  | some value =>
    by_cases hnull : value = .null
    · subst hnull
      rw [forStorage, hruntime]
      refine iff_of_true (succeeds_ok _) fun value hvalue hne => ?_
      cases hvalue
      exact absurd rfl hne
    · rw [hmerged value hnull, succeeds_bind]
      constructor
      · rintro ⟨migrated, hmigrated, -⟩ value' hvalue -
        cases hvalue
        exact ⟨migrated, hmigrated⟩
      · intro hall
        obtain ⟨migrated, hmigrated⟩ := hall value rfl hnull
        exact ⟨migrated, hmigrated, succeeds_ok _⟩

end Snapshot

/-! ## What hydrating raises -/

/-- Whether an error is one that the store raises or renames. -/
def PyError.isRunError : PyError → Bool
  | runStore _ _ | runRecord _ _ => true
  | _ => false

/-- A computation raises no error of the store. -/
abbrev RaisesForeign {α : Type} (r : Except PyError α) : Prop :=
  RaisesOnly (fun e => e.isRunError = false) r

namespace RaisesOnly

variable {α : Type} {P : PyError → Prop}

lemma orOnTypeOrValueError {r : Except PyError α} {a : α} (hr : RaisesOnly P r) :
    RaisesOnly P (orOnTypeOrValueError r a) := by
  cases r with
  | ok b => exact ok b
  | error e =>
    unfold OpencodeSession.orOnTypeOrValueError
    dsimp only
    split_ifs
    · exact ok a
    · exact error (hr e rfl)

end RaisesOnly

namespace Snapshot

variable {py : Interpreter}

lemma raisesForeign_int (value : JsonValue) : RaisesForeign (py.int value) := by
  cases value with
  | float mantissa exponent =>
    unfold Interpreter.int
    dsimp only
    split_ifs
    · exact .ok _
    · exact .error rfl
  | nonFinite value => cases value <;> exact .error rfl
  | str s =>
    unfold Interpreter.int
    dsimp only
    split
    · exact .ok _
    · exact .error rfl
  | bool _ | int _ => exact .ok _
  | _ => exact .error rfl

lemma raisesForeign_canonicalTimeoutSeconds {spec : FieldSpec} (value : JsonValue) :
    RaisesForeign (spec.canonicalTimeoutSeconds value) := by
  have hnotPositive : RaisesForeign (FieldSpec.canonicalTimeoutSeconds.notPositive spec) :=
    .error rfl
  unfold FieldSpec.canonicalTimeoutSeconds
  split
  · exact .ok _
  · split_ifs
    · exact .error rfl
    · exact hnotPositive
    · exact .ok _
  · split_ifs
    · exact hnotPositive
    · split
      · exact .ok _
      · exact .ok _
  · exact hnotPositive
  · exact .error rfl

lemma raisesForeign_canonicalAcceptedValue {spec : FieldSpec} (accepted : List String)
    (value : JsonValue) : RaisesForeign (spec.canonicalAcceptedValue py accepted value) := by
  unfold FieldSpec.canonicalAcceptedValue
  split_ifs
  · exact .ok _
  · exact .error rfl

lemma raisesForeign_canonicalValue {spec : FieldSpec} (value : JsonValue) :
    RaisesForeign (spec.canonicalValue py value) := by
  unfold FieldSpec.canonicalValue
  split
  · exact .ok _
  · split
    · split_ifs
      · exact .ok _
      · exact .error rfl
    · exact .error rfl
  · split
    · exact .ok _
    · exact .error rfl
  · split
    · exact .ok _
    · exact .error rfl
  · exact raisesForeign_canonicalAcceptedValue _ _
  · exact raisesForeign_canonicalAcceptedValue _ _
  · exact raisesForeign_canonicalTimeoutSeconds _

lemma raisesForeign_coerced (validator : FieldValidator) (value : JsonValue) :
    RaisesForeign (coerced py validator value) := by
  cases validator with
  | int => exact (raisesForeign_int _).orOnTypeOrValueError.map
  | list =>
    show RaisesForeign (coercedList value)
    unfold coercedList
    split
    · exact .ok _
    · exact .ok _
  | timeoutSeconds =>
    show RaisesForeign (FieldSpec.coerceStorageTimeoutSeconds py _ value)
    unfold FieldSpec.coerceStorageTimeoutSeconds
    split
    · exact (raisesForeign_canonicalTimeoutSeconds _).orOnTypeOrValueError
    · exact (raisesForeign_canonicalTimeoutSeconds _).orOnTypeOrValueError
    · exact (raisesForeign_canonicalTimeoutSeconds _).orOnTypeOrValueError
    · split
      · exact (raisesForeign_canonicalTimeoutSeconds _).orOnTypeOrValueError
      · exact .ok _
    · exact .ok _
  | timeoutPolicy =>
    show RaisesForeign (coercedTimeoutPolicy py value)
    unfold coercedTimeoutPolicy
    split
    · exact .ok _
    · exact .ok _
  | _ => exact .ok _

lemma raisesForeign_coerceAll (validators : List FieldValidator) (fields : Fields) :
    RaisesForeign (coerceAll py validators fields) := by
  refine RaisesOnly.foldlM fun fields validator => RaisesOnly.foldlM fun fields name => ?_
  unfold coerceField
  split
  · exact .ok _
  · exact (raisesForeign_coerced _ _).bind fun _ => .ok _

lemma raisesForeign_legacyRetryAvailable (fields : Fields) (category : Option String) :
    RaisesForeign (legacyRetryAvailable py fields category) := by
  unfold legacyRetryAvailable
  dsimp only
  split_ifs
  · exact .ok _
  · exact .ok _
  · exact .ok _
  · refine RaisesOnly.orOnTypeOrValueError ?_
    exact (raisesForeign_int _).bind fun _ => (raisesForeign_int _).bind fun _ => .ok _

lemma raisesForeign_legacyTimeoutOrigin (fields : Fields) (status : Option String) :
    RaisesForeign (legacyTimeoutOrigin fields status) := by
  unfold legacyTimeoutOrigin blockersNameTimeout
  dsimp only
  split_ifs
  · exact .ok _
  · exact .ok _
  · exact .ok _
  · exact .ok _
  · split
    · split
      · exact .error rfl
      · exact .ok _
    · exact .ok _
    · exact .ok _
    · exact .error rfl
  · exact .ok _

lemma raisesForeign_lifecycleStateFromLegacy (fields : Fields) :
    RaisesForeign (lifecycleStateFromLegacy py fields) := by
  refine (raisesForeign_legacyTimeoutOrigin _ _).bind fun origin => ?_
  split_ifs
  · exact (raisesForeign_legacyRetryAvailable _ _).bind fun _ => .ok _
  · exact (raisesForeign_legacyRetryAvailable _ _).bind fun _ => .ok _
  · exact .ok _

lemma raisesForeign_repairLifecycle (fields : Fields) :
    RaisesForeign (repairLifecycle py fields) := by
  refine RaisesOnly.bind ?_ fun known => ?_
  · unfold isLifecycleState
    split_ifs
    · exact .ok _
    · exact .error rfl
  · split_ifs
    · exact .ok _
    · exact (raisesForeign_lifecycleStateFromLegacy _).bind fun _ => .ok _

lemma raisesForeign_migrate (worker : JsonValue) (workerId : String) (schemaVersion : JsonValue) :
    RaisesForeign (migrate py worker workerId schemaVersion) := by
  unfold migrate
  split
  · refine (raisesForeign_int _).orOnTypeOrValueError.bind fun _ => ?_
    rw [migrateV1_eq]
    exact (raisesForeign_repairLifecycle _).bind fun _ => raisesForeign_coerceAll _ _
  · exact .error rfl

lemma raisesForeign_canonicalFields (workerId : String) (fields : Fields) (specs : List FieldSpec) :
    RaisesForeign (canonicalFields py workerId fields specs) := by
  induction specs with
  | nil => exact .ok _
  | cons spec specs ih =>
    rw [canonicalFields_cons]
    split
    · exact (raisesForeign_canonicalValue _).bind fun _ => ih.bind fun _ => .ok _
    · exact ih

/-- What escapes from hydrating a worker is no error of the store. -/
theorem raisesForeign_hydrate (worker : JsonValue) (workerId : String)
    (schemaVersion : JsonValue) : RaisesForeign (hydrate py worker workerId schemaVersion) := by
  refine (raisesForeign_migrate _ _ _).bind fun fields => RaisesOnly.bind ?_ fun _ =>
    raisesForeign_canonicalFields _ _ _
  unfold canonicalSnapshotFields
  dsimp only
  split_ifs
  · exact .error rfl
  · exact .ok _

end Snapshot

end OpencodeSession
