import OpencodeSession.Store.Canonical

/-!
# Migrated workers

What each stage of a migration makes of the fields of a persisted worker, and when it fails.  The
coercions run field by field, each validator on fields of its own, so what they make of a worker is
known field by field (`coerceAll_eq_ok`); the repairs touch the identifier and the lifecycle state
only.
-/

namespace OpencodeSession

open Except

namespace Snapshot

variable {py : Interpreter} {coerce : JsonValue → Except PyError JsonValue}
  {fields fields' : Fields} {names : List String} {name : String}

/-! ## Coercing fields -/

/-- A field that is there is coerced, and one that is missing stays missing. -/
def CoercesTo (coerce : JsonValue → Except PyError JsonValue) :
    Option JsonValue → Option JsonValue → Prop :=
  Option.Rel fun value value' => coerce value = .ok value'

lemma coerceField_eq_ok (h : coerceField coerce fields name = .ok fields') :
    CoercesTo coerce (Dict.lookup name fields) (Dict.lookup name fields') ∧
      ∀ other, name ≠ other → Dict.lookup other fields' = Dict.lookup other fields := by
  unfold coerceField at h
  split at h
  · next hlookup =>
    cases h
    rw [hlookup]
    exact ⟨.none, fun _ _ => rfl⟩
  · next value hlookup =>
    obtain ⟨value', hvalue, h⟩ := bind_eq_ok.1 h
    cases h
    rw [hlookup, Dict.lookup_insert_self]
    exact ⟨.some hvalue, fun other hne => Dict.lookup_insert_of_ne hne _ _⟩

lemma succeeds_coerceField : (coerceField coerce fields name).Succeeds ↔
    ∀ value, Dict.lookup name fields = some value → (coerce value).Succeeds := by
  unfold coerceField
  cases hlookup : Dict.lookup name fields with
  | none => simp [succeeds_ok]
  | some value =>
    simp only [Option.some.injEq, forall_eq', succeeds_bind]
    constructor
    · rintro ⟨value', hvalue, -⟩
      exact ⟨value', hvalue⟩
    · rintro ⟨value', hvalue⟩
      exact ⟨value', hvalue, succeeds_ok _⟩

/-- Coercing some fields leaves the others, and coerces each of them once. -/
lemma foldlM_coerceField (hnodup : names.Nodup)
    (h : names.foldlM (coerceField coerce) fields = .ok fields') :
    (∀ name ∈ names, CoercesTo coerce (Dict.lookup name fields) (Dict.lookup name fields')) ∧
      ∀ name ∉ names, Dict.lookup name fields' = Dict.lookup name fields := by
  induction names generalizing fields with
  | nil =>
    cases h
    exact ⟨fun _ hname => absurd hname List.not_mem_nil, fun _ _ => rfl⟩
  | cons first rest ih =>
    rw [List.nodup_cons] at hnodup
    rw [List.foldlM_cons] at h
    obtain ⟨middle, hmiddle, h⟩ := bind_eq_ok.1 h
    obtain ⟨hfirst, hothers⟩ := coerceField_eq_ok hmiddle
    obtain ⟨hrest, hkept⟩ := ih hnodup.2 h
    refine ⟨fun name hname => ?_, fun name hname => ?_⟩
    · rcases List.mem_cons.1 hname with rfl | hmem
      · rw [hkept name hnodup.1]
        exact hfirst
      · have hne : first ≠ name := fun heq => hnodup.1 (heq ▸ hmem)
        rw [← hothers name hne]
        exact hrest name hmem
    · rw [List.mem_cons, not_or] at hname
      rw [hkept name hname.2, hothers name (Ne.symm hname.1)]

lemma succeeds_foldlM_coerceField (hnodup : names.Nodup) :
    (names.foldlM (coerceField coerce) fields).Succeeds ↔
      ∀ name ∈ names, ∀ value, Dict.lookup name fields = some value →
        (coerce value).Succeeds := by
  induction names generalizing fields with
  | nil => exact iff_of_true (succeeds_ok _) fun _ hname => absurd hname List.not_mem_nil
  | cons first rest ih =>
    rw [List.nodup_cons] at hnodup
    rw [List.foldlM_cons, succeeds_bind, List.forall_mem_cons, ← succeeds_coerceField]
    -- the fields after the first are as they were
    have hkept : ∀ middle, coerceField coerce fields first = .ok middle → ∀ name ∈ rest,
        Dict.lookup name middle = Dict.lookup name fields := by
      intro middle hmiddle name hname
      exact (coerceField_eq_ok hmiddle).2 name fun heq => hnodup.1 (heq ▸ hname)
    constructor
    · rintro ⟨middle, hmiddle, hrest⟩
      refine ⟨⟨middle, hmiddle⟩, fun name hname value hvalue => ?_⟩
      rw [← hkept middle hmiddle name hname] at hvalue
      exact (ih hnodup.2).1 hrest name hname value hvalue
    · rintro ⟨⟨middle, hmiddle⟩, hrest⟩
      refine ⟨middle, hmiddle, (ih hnodup.2).2 fun name hname value hvalue => ?_⟩
      rw [hkept middle hmiddle name hname] at hvalue
      exact hrest name hname value hvalue

/-- Fields that the coercion leaves alone stay where they are. -/
lemma foldlM_coerceField_of_kept
    (h : ∀ name ∈ names, ∀ value, Dict.lookup name fields = some value → coerce value = .ok value) :
    names.foldlM (coerceField coerce) fields = .ok fields := by
  induction names with
  | nil => rfl
  | cons first rest ih =>
    rw [List.forall_mem_cons] at h
    have hfirst : coerceField coerce fields first = .ok fields := by
      unfold coerceField
      split
      · rfl
      · next value hlookup =>
        refine bind_eq_ok.2 ⟨value, h.1 value hlookup, ?_⟩
        exact congrArg Except.ok (Dict.insert_of_lookup hlookup)
    rw [List.foldlM_cons, hfirst]
    exact ih h.2

/-! ## The fields of the specification -/

lemma nodup_workerFieldNames : workerFieldNames.Nodup := by decide

lemma eq_of_name_eq {spec spec' : FieldSpec} (hspec : spec ∈ workerFieldSpecs)
    (hspec' : spec' ∈ workerFieldSpecs) (hname : spec.name = spec'.name) : spec = spec' :=
  List.inj_on_of_nodup_map nodup_workerFieldNames hspec hspec' hname

lemma nodup_storageFieldNames (validator : FieldValidator) :
    (storageFieldNames validator).Nodup :=
  nodup_workerFieldNames.sublist (List.filter_sublist.map _)

lemma mem_storageFieldNames {spec : FieldSpec} {validator : FieldValidator}
    (hspec : spec ∈ workerFieldSpecs) :
    spec.name ∈ storageFieldNames validator ↔ spec.validator = validator := by
  constructor
  · intro h
    obtain ⟨spec', hspec', hname⟩ := List.mem_map.1 h
    obtain ⟨hmem, hvalidator⟩ := List.mem_filter.1 hspec'
    obtain rfl := eq_of_name_eq hmem hspec hname
    simpa using hvalidator
  · intro h
    exact List.mem_map_of_mem (List.mem_filter.2 ⟨hspec, by simpa using h⟩)

/-! ## The coercions of a migration -/

/-- The validators of the coerced fields, in the order in which they are coerced. -/
def coercedValidators : List FieldValidator := [.int, .list, .timeoutSeconds, .timeoutPolicy]

/-- The coercions of a migration, one validator after another. -/
def coerceAll (py : Interpreter) (validators : List FieldValidator) (fields : Fields) :
    Except PyError Fields :=
  validators.foldlM (fun fields validator => coerceFields validator (coerced py validator) fields)
    fields

lemma forall_mem_storageFieldNames {validator : FieldValidator} {P : String → Prop} :
    (∀ name ∈ storageFieldNames validator, P name) ↔
      ∀ spec ∈ workerFieldSpecs, spec.validator = validator → P spec.name := by
  constructor
  · exact fun h spec hspec hvalidator => h _ ((mem_storageFieldNames hspec).2 hvalidator)
  · intro h name hname
    obtain ⟨spec, hspec, rfl⟩ := List.mem_map.1 hname
    obtain ⟨hmem, hvalidator⟩ := List.mem_filter.1 hspec
    exact h spec hmem (by simpa using hvalidator)

/-- What the coercions for some validators make of the fields of the specification. -/
lemma coerceAll_eq_ok {validators : List FieldValidator} (hnodup : validators.Nodup)
    (h : coerceAll py validators fields = .ok fields') {spec : FieldSpec}
    (hspec : spec ∈ workerFieldSpecs) :
    (spec.validator ∈ validators → CoercesTo (coerced py spec.validator)
      (Dict.lookup spec.name fields) (Dict.lookup spec.name fields')) ∧
    (spec.validator ∉ validators →
      Dict.lookup spec.name fields' = Dict.lookup spec.name fields) := by
  induction validators generalizing fields with
  | nil =>
    cases h
    exact ⟨fun hmem => absurd hmem List.not_mem_nil, fun _ => rfl⟩
  | cons validator rest ih =>
    rw [List.nodup_cons] at hnodup
    rw [coerceAll, List.foldlM_cons] at h
    obtain ⟨middle, hmiddle, h⟩ := bind_eq_ok.1 h
    obtain ⟨hcoerced, hkept⟩ := foldlM_coerceField (nodup_storageFieldNames validator) hmiddle
    obtain ⟨hrest, hkeptRest⟩ := ih hnodup.2 h
    by_cases hvalidator : spec.validator = validator
    · have hnot : spec.validator ∉ rest := hvalidator ▸ hnodup.1
      refine ⟨fun _ => ?_, fun hmem => absurd (hvalidator ▸ List.mem_cons_self) hmem⟩
      rw [hkeptRest hnot, hvalidator]
      exact hcoerced _ ((mem_storageFieldNames hspec).2 hvalidator)
    · have hsame := hkept spec.name fun hmem => hvalidator ((mem_storageFieldNames hspec).1 hmem)
      rw [← hsame]
      refine ⟨fun hmem => hrest ((List.mem_cons.1 hmem).resolve_left hvalidator), fun hmem => ?_⟩
      exact hkeptRest fun hrest => hmem (List.mem_cons_of_mem _ hrest)

/-- The coercions for some validators fail on a value that cannot be coerced only. -/
lemma succeeds_coerceAll {validators : List FieldValidator} (hnodup : validators.Nodup) :
    (coerceAll py validators fields).Succeeds ↔
      ∀ spec ∈ workerFieldSpecs, spec.validator ∈ validators →
        ∀ value, Dict.lookup spec.name fields = some value → IsCoercible spec.validator value := by
  induction validators generalizing fields with
  | nil => exact iff_of_true (succeeds_ok _) fun _ _ hmem => absurd hmem List.not_mem_nil
  | cons validator rest ih =>
    rw [List.nodup_cons] at hnodup
    have hfirst : (coerceFields validator (coerced py validator) fields).Succeeds ↔
        ∀ spec ∈ workerFieldSpecs, spec.validator = validator →
          ∀ value, Dict.lookup spec.name fields = some value → IsCoercible validator value := by
      rw [coerceFields, succeeds_foldlM_coerceField (nodup_storageFieldNames validator),
        forall_mem_storageFieldNames]
      simp only [succeeds_coerced]
    have hkept : ∀ middle, coerceFields validator (coerced py validator) fields = .ok middle →
        ∀ spec ∈ workerFieldSpecs, spec.validator ∈ rest →
          Dict.lookup spec.name middle = Dict.lookup spec.name fields := by
      intro middle hmiddle spec hspec hmem
      refine (foldlM_coerceField (nodup_storageFieldNames validator) hmiddle).2 _ fun hname => ?_
      exact hnodup.1 ((mem_storageFieldNames hspec).1 hname ▸ hmem)
    rw [coerceAll, List.foldlM_cons, succeeds_bind]
    constructor
    · rintro ⟨middle, hmiddle, hrest⟩ spec hspec hmem value hvalue
      rcases List.mem_cons.1 hmem with hvalidator | hmem
      · rw [hvalidator]
        exact hfirst.1 ⟨middle, hmiddle⟩ spec hspec hvalidator value hvalue
      · rw [← hkept middle hmiddle spec hspec hmem] at hvalue
        exact (ih hnodup.2).1 hrest spec hspec hmem value hvalue
    · intro h
      obtain ⟨middle, hmiddle⟩ := hfirst.2 fun spec hspec hvalidator value hvalue =>
        hvalidator ▸ h spec hspec (hvalidator ▸ List.mem_cons_self) value hvalue
      refine ⟨middle, hmiddle, (ih hnodup.2).2 fun spec hspec hmem value hvalue => ?_⟩
      rw [hkept middle hmiddle spec hspec hmem] at hvalue
      exact h spec hspec (List.mem_cons_of_mem _ hmem) value hvalue

/-- Canonical fields stay where they are. -/
lemma coerceAll_of_canonical {validators : List FieldValidator}
    (h : ∀ spec ∈ workerFieldSpecs, ∀ value, Dict.lookup spec.name fields = some value →
      spec.canonicalValue py value = .ok value) :
    coerceAll py validators fields = .ok fields := by
  induction validators with
  | nil => rfl
  | cons validator rest ih =>
    have hfirst : coerceFields validator (coerced py validator) fields = .ok fields := by
      refine foldlM_coerceField_of_kept (forall_mem_storageFieldNames.2 ?_)
      rintro spec hspec rfl value hvalue
      exact coerced_of_canonical (h spec hspec value hvalue)
    rw [coerceAll, List.foldlM_cons, hfirst]
    exact ih

lemma migrateV1_eq (fields : Fields) (workerId : String) :
    migrateV1 py fields workerId = repairLifecycle py (repairIdentity py fields workerId) >>=
      fun repaired => coerceAll py coercedValidators (removePublicState repaired) := by
  simp only [migrateV1, coerceAll, coercedValidators, List.foldlM_cons, List.foldlM_nil, bind_pure]
  rfl

/-! ## The repairs of a migration -/

/-- Whether `set(value or [])` gives a set. -/
def makesSet (value : JsonValue) : Bool :=
  !value.truthy || match value with
    | .arr items => items.all JsonValue.isHashable
    | .str _ | .obj _ => true
    | _ => false

/-- Whether a value names a lifecycle state. -/
def namesLifecycleState (value : JsonValue) : Bool :=
  lifecycleStateNames.any fun name => value.pyEq (.str name)

lemma succeeds_blockersNameTimeout (blockers : JsonValue) :
    (blockersNameTimeout blockers).Succeeds ↔ makesSet blockers = true := by
  unfold blockersNameTimeout makesSet
  by_cases htruthy : blockers.truthy = true
  · simp only [htruthy, Bool.not_true, Bool.false_eq_true, if_false, Bool.false_or]
    cases blockers with
    | arr items =>
      dsimp only
      cases hfind : items.find? fun item => !item.isHashable with
      | none =>
        rw [List.find?_eq_none] at hfind
        refine iff_of_true (succeeds_ok _) (List.all_eq_true.2 fun item hitem => ?_)
        simpa using hfind item hitem
      | some item =>
        refine iff_of_false (not_succeeds_error _) fun hall => ?_
        have hitem := List.all_eq_true.1 hall item (List.mem_of_find?_eq_some hfind)
        have hnot := List.find?_some hfind
        simp [hitem] at hnot
    | str s => exact iff_of_true (succeeds_ok _) rfl
    | obj fields => exact iff_of_true (succeeds_ok _) rfl
    | _ => exact iff_of_false (not_succeeds_error _) (by simp)
  · rw [Bool.not_eq_true] at htruthy
    simp [htruthy, succeeds_ok]

lemma shortStatus_shortened {value : JsonValue} :
    (py.shortStatus value).map OpencodeSession.shortStatus = py.shortStatus value := by
  cases value with
  | null => rfl
  | _ => exact congrArg some (shortStatus_idem _)

/-- The origin of a legacy time-out is not found where the blockers have to be looked through and
are no set. -/
lemma succeeds_legacyTimeoutOrigin (fields : Fields) :
    (legacyTimeoutOrigin fields (py.shortStatus (fields.field "status"))).Succeeds ↔
      (py.shortStatus (fields.field "status") = some "blocked" →
        (fields.field "failure_category").pyEq (.str "timeout") = false →
          makesSet (fields.field "blockers") = true) := by
  unfold legacyTimeoutOrigin
  rw [shortStatus_shortened]
  dsimp only
  split_ifs with htimeout hfinal hblocked hcategory
  · exact iff_of_true (succeeds_ok _) fun hblocked => by simp [htimeout] at hblocked
  · refine iff_of_true (succeeds_ok _) fun hblocked => ?_
    rcases hfinal with hfinal | hfinal <;> simp [hfinal] at hblocked
  · exact iff_of_true (succeeds_ok _) fun _ hnot => by simp [hcategory] at hnot
  · rw [succeeds_blockersNameTimeout]
    simp [hblocked, hcategory]
  · exact iff_of_true (succeeds_ok _) fun h => absurd h hblocked

/-- The integers of a retry budget are read where neither is infinite. -/
lemma succeeds_legacyRetryAvailable (py : Interpreter) (category : Option String)
    (hcount : (fields.field "retry_count").isInfinite = false)
    (hlimit : (fields.field "retry_limit").isInfinite = false) :
    (legacyRetryAvailable py fields category).Succeeds := by
  have hint : ∀ value : JsonValue, value.isInfinite = false →
      ∀ e, py.int (value.orElse (.int 0)) = .error e → e.isTypeOrValueError = true := by
    intro value hvalue
    rw [← JsonValue.isInfinite_orElse value 0, ← py.succeeds_int _ 0] at hvalue
    exact succeeds_orOnTypeOrValueError.1 hvalue
  unfold legacyRetryAvailable
  dsimp only
  split_ifs
  · exact succeeds_ok _
  · exact succeeds_ok _
  · exact succeeds_ok _
  · refine succeeds_orOnTypeOrValueError.2 fun e he => ?_
    cases hfirst : py.int ((fields.field "retry_count").orElse (.int 0)) with
    | error e' =>
      rw [hfirst] at he
      cases he
      exact hint _ hcount _ hfirst
    | ok count =>
      cases hsecond : py.int ((fields.field "retry_limit").orElse (.int 0)) with
      | error e' =>
        rw [hfirst, hsecond] at he
        cases he
        exact hint _ hlimit _ hsecond
      | ok limit =>
        rw [hfirst, hsecond] at he
        cases he

lemma succeeds_lifecycleStateFromLegacy
    (hcount : (fields.field "retry_count").isInfinite = false)
    (hlimit : (fields.field "retry_limit").isInfinite = false) :
    (lifecycleStateFromLegacy py fields).Succeeds ↔
      (legacyTimeoutOrigin fields (py.shortStatus (fields.field "status"))).Succeeds := by
  unfold lifecycleStateFromLegacy
  dsimp only
  rw [succeeds_bind]
  constructor
  · rintro ⟨origin, horigin, -⟩
    exact ⟨origin, horigin⟩
  · rintro ⟨origin, horigin⟩
    refine ⟨origin, horigin, ?_⟩
    split_ifs
    · obtain ⟨available, havailable⟩ :=
        succeeds_legacyRetryAvailable py (some "timeout") hcount hlimit
      exact succeeds_bind.2 ⟨available, havailable, succeeds_ok _⟩
    · obtain ⟨available, havailable⟩ :=
        succeeds_legacyRetryAvailable py none hcount hlimit
      exact succeeds_bind.2 ⟨available, havailable, succeeds_ok _⟩
    · exact succeeds_ok _

lemma lookup_repairIdentity {workerId : String} (hname : "id" ≠ name) :
    Dict.lookup name (repairIdentity py fields workerId) = Dict.lookup name fields := by
  unfold repairIdentity
  split
  · exact Dict.lookup_insert_of_ne hname _ _
  · split
    · rfl
    · split
      · exact Dict.lookup_remove_of_ne hname _
      · split
        · rfl
        · exact Dict.lookup_insert_of_ne hname _ _

/-- The identifier of a worker after its repair: the key, else its own identifier as a text. -/
lemma lookup_id_repairIdentity (py : Interpreter) {workerId : String}
    (h : workerId ≠ "" ∨ (fields.field "id").truthy = true) :
    ∃ id, id ≠ "" ∧ (workerId ≠ "" → id = workerId) ∧
      Dict.lookup "id" (repairIdentity py fields workerId) = some (.str id) := by
  unfold repairIdentity
  by_cases hkey : workerId ≠ ""
  · rw [if_pos hkey]
    exact ⟨workerId, hkey, fun _ => rfl, Dict.lookup_insert_self _ _ _⟩
  · rw [if_neg hkey]
    have htruthy := h.resolve_left hkey
    unfold Fields.field at htruthy
    cases hlookup : Dict.lookup "id" fields with
    | none =>
      rw [hlookup] at htruthy
      cases htruthy
    | some id =>
      rw [hlookup] at htruthy
      change id.truthy = true at htruthy
      simp only [htruthy, Bool.not_true, Bool.false_eq_true, if_false]
      cases id with
      | str s =>
        have hne : s ≠ "" := by simpa [JsonValue.truthy] using htruthy
        exact ⟨s, hne, fun hne' => absurd hne' hkey, hlookup⟩
      | _ =>
        exact ⟨_, py.repr_nonempty _, fun hne' => absurd hne' hkey, Dict.lookup_insert_self _ _ _⟩

lemma lookup_id_repairIdentity_of_none (py : Interpreter) {workerId : String}
    (h : ¬ (workerId ≠ "" ∨ (fields.field "id").truthy = true)) :
    Dict.lookup "id" (repairIdentity py fields workerId) = none := by
  rw [not_or] at h
  unfold repairIdentity
  rw [if_neg h.1]
  have hfalsy := h.2
  unfold Fields.field at hfalsy
  cases hlookup : Dict.lookup "id" fields with
  | none => exact hlookup
  | some id =>
    rw [hlookup] at hfalsy
    change ¬ id.truthy = true at hfalsy
    simp only [hfalsy, Bool.not_false, if_true]
    exact Dict.lookup_remove_self _ _

/-- The lifecycle state after its repair is one of the known ones, and the other fields are as they
were. -/
lemma repairLifecycle_eq_ok (h : repairLifecycle py fields = .ok fields') :
    (∃ state ∈ lifecycleStateNames, Dict.lookup "lifecycle_state" fields' = some (.str state)) ∧
      ∀ name, "lifecycle_state" ≠ name → Dict.lookup name fields' = Dict.lookup name fields := by
  obtain ⟨known, hknown, h⟩ := bind_eq_ok.1 h
  unfold isLifecycleState at hknown
  split_ifs at hknown with hhashable
  cases hknown
  split_ifs at h with hstate
  · cases h
    obtain ⟨state, hmem, heq⟩ := List.any_eq_true.1 hstate
    refine ⟨⟨state, hmem, ?_⟩, fun _ _ => rfl⟩
    have hfield := JsonValue.pyEq_str.1 heq
    unfold Fields.field at hfield
    cases hlookup : Dict.lookup "lifecycle_state" fields with
    | none =>
      rw [hlookup] at hfield
      cases hfield
    | some value =>
      rw [hlookup] at hfield
      exact congrArg some hfield
  · obtain ⟨state, -, h⟩ := bind_eq_ok.1 h
    cases h
    refine ⟨⟨state.name, ?_, Dict.lookup_insert_self _ _ _⟩, fun name hname =>
      Dict.lookup_insert_of_ne hname _ _⟩
    exact List.mem_map_of_mem (LifecycleState.mem_all state)

lemma succeeds_repairLifecycle (fields : Fields) : (repairLifecycle py fields).Succeeds ↔
    (fields.field "lifecycle_state").isHashable = true ∧
      (namesLifecycleState (fields.field "lifecycle_state") = false →
        (lifecycleStateFromLegacy py fields).Succeeds) := by
  unfold repairLifecycle isLifecycleState
  rw [succeeds_bind]
  by_cases hhashable : (fields.field "lifecycle_state").isHashable = true
  · rw [if_pos hhashable]
    by_cases hknown : namesLifecycleState (fields.field "lifecycle_state") = true
    · refine iff_of_true ⟨true, congrArg Except.ok hknown, succeeds_ok _⟩ ⟨hhashable, fun hnot => ?_⟩
      rw [hknown] at hnot
      cases hnot
    · rw [Bool.not_eq_true] at hknown
      constructor
      · rintro ⟨known, hok, h⟩
        cases hok
        change (if namesLifecycleState (fields.field "lifecycle_state") = true then _ else _ :
          Except PyError Fields).Succeeds at h
        rw [hknown, if_neg Bool.false_ne_true, succeeds_bind] at h
        obtain ⟨state, hstate, -⟩ := h
        exact ⟨hhashable, fun _ => ⟨state, hstate⟩⟩
      · rintro ⟨-, h⟩
        obtain ⟨state, hstate⟩ := h hknown
        refine ⟨false, congrArg Except.ok hknown, ?_⟩
        rw [if_neg Bool.false_ne_true]
        exact succeeds_bind.2 ⟨state, hstate, succeeds_ok _⟩
  · rw [if_neg hhashable]
    refine iff_of_false ?_ fun h => hhashable h.1
    rintro ⟨known, h, -⟩
    cases h

lemma lookup_removePublicState (h : name ∉ publicWorkerStateFieldNames) :
    Dict.lookup name (removePublicState fields) = Dict.lookup name fields := by
  have hne : "status" ≠ name ∧ "next_eligible_action" ≠ name := by
    constructor
    · rintro rfl
      exact h (by decide)
    · rintro rfl
      exact h (by decide)
  show Dict.lookup name (Dict.remove _ (Dict.remove _ fields)) = _
  rw [Dict.lookup_remove_of_ne hne.2, Dict.lookup_remove_of_ne hne.1]

lemma name_notMem_publicWorkerState :
    ∀ spec ∈ workerFieldSpecs, spec.name ∉ publicWorkerStateFieldNames := by
  decide

end Snapshot

end OpencodeSession
