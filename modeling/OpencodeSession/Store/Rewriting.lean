import OpencodeSession.Store.RunRecordFacts

/-!
# Stored workers are fixed points

A migrated worker is migrated to itself, field by field and in the same order (`migrateV1_idem`),
and so is what is stored of a hydrated one.  Storing a worker over what was stored of it before
writes the same again (`forStorage_stored`).  The fields that the specification does not know come
through a migration and through storing as they are.
-/

namespace OpencodeSession

open Except

namespace Snapshot

variable {py : Interpreter} {fields fields' : Fields} {workerId name : String}

/-! ## Migrated workers -/

/-- A worker that a migration under a key leaves as it is. -/
structure Migrated (py : Interpreter) (workerId : String) (fields : Fields) : Prop where
  identity : repairIdentity py fields workerId = fields
  lifecycleState : ∃ state ∈ lifecycleStateNames,
    Dict.lookup "lifecycle_state" fields = some (.str state)
  publicState : ∀ name ∈ publicWorkerStateFieldNames, Dict.lookup name fields = none
  coerced : ∀ spec ∈ workerFieldSpecs, spec.validator ∈ coercedValidators →
    ∀ value, Dict.lookup spec.name fields = some value →
      Snapshot.coerced py spec.validator value = .ok value

lemma repairLifecycle_of_known {state : String} (hmem : state ∈ lifecycleStateNames)
    (h : Dict.lookup "lifecycle_state" fields = some (.str state)) :
    repairLifecycle py fields = .ok fields := by
  have hfield : fields.field "lifecycle_state" = .str state := by
    rw [Fields.field, h]
    rfl
  have hknown : (lifecycleStateNames.any fun name => (JsonValue.str state).pyEq (.str name)) =
      true := List.any_eq_true.2 ⟨state, hmem, JsonValue.pyEq_str.2 rfl⟩
  unfold repairLifecycle isLifecycleState
  rw [hfield]
  exact bind_eq_ok.2 ⟨true, congrArg Except.ok hknown, if_pos rfl⟩

lemma removePublicState_of_none
    (h : ∀ name ∈ publicWorkerStateFieldNames, Dict.lookup name fields = none) :
    removePublicState fields = fields := by
  show Dict.remove _ (Dict.remove _ fields) = fields
  rw [Dict.remove_of_lookup (h _ (by decide)), Dict.remove_of_lookup (h _ (by decide))]

lemma Migrated.coerceAll (h : Migrated py workerId fields) {validators : List FieldValidator}
    (hsub : ∀ validator ∈ validators, validator ∈ coercedValidators) :
    Snapshot.coerceAll py validators fields = .ok fields := by
  induction validators with
  | nil => rfl
  | cons validator rest ih =>
    rw [List.forall_mem_cons] at hsub
    have hfirst : coerceFields validator (Snapshot.coerced py validator) fields = .ok fields := by
      refine foldlM_coerceField_of_kept (forall_mem_storageFieldNames.2 ?_)
      rintro spec hspec rfl
      exact h.coerced spec hspec hsub.1
    rw [Snapshot.coerceAll, List.foldlM_cons, hfirst]
    exact ih hsub.2

lemma Migrated.migrateV1 (h : Migrated py workerId fields) :
    Snapshot.migrateV1 py fields workerId = .ok fields := by
  obtain ⟨state, hmem, hstate⟩ := h.lifecycleState
  rw [migrateV1_eq, h.identity, repairLifecycle_of_known hmem hstate]
  show Snapshot.coerceAll py coercedValidators (removePublicState fields) = .ok fields
  rw [removePublicState_of_none h.publicState]
  exact h.coerceAll fun _ h => h

/-- Whether a worker is migrated does not depend on the order of its fields. -/
lemma Migrated.congr (h : Migrated py workerId fields)
    (hsame : ∀ name, Dict.lookup name fields' = Dict.lookup name fields) :
    Migrated py workerId fields' where
  identity := by
    have hidentity := h.identity
    unfold repairIdentity at hidentity ⊢
    split_ifs at hidentity ⊢ with hkey
    · refine Dict.insert_of_lookup ?_
      rw [hsame, ← hidentity]
      exact Dict.lookup_insert_self _ _ _
    · rw [hsame]
      cases hid : Dict.lookup "id" fields with
      | none => rfl
      | some id =>
        rw [hid] at hidentity
        dsimp only at hidentity ⊢
        split_ifs at hidentity ⊢
        · have hnone := Dict.lookup_remove_self "id" fields
          rw [hidentity, hid] at hnone
          cases hnone
        · have hrepaired := Dict.lookup_insert_self "id" (.str (py.repr id)) fields
          cases id with
          | str id => rfl
          | _ =>
            dsimp only at hidentity
            rw [hidentity, hid] at hrepaired
            cases hrepaired
  lifecycleState := by
    rw [hsame]
    exact h.lifecycleState
  publicState name hname := by
    rw [hsame]
    exact h.publicState name hname
  coerced spec hspec hvalidator value hvalue := by
    rw [hsame] at hvalue
    exact h.coerced spec hspec hvalidator value hvalue

/-! ## What a migration makes -/

/-- The coercions leave the fields alone that the specification does not know. -/
lemma lookup_coerceAll {validators : List FieldValidator} (hname : name ∉ workerFieldNames)
    (h : coerceAll py validators fields = .ok fields') :
    Dict.lookup name fields' = Dict.lookup name fields := by
  induction validators generalizing fields with
  | nil =>
    cases h
    rfl
  | cons validator rest ih =>
    rw [coerceAll, List.foldlM_cons] at h
    obtain ⟨middle, hmiddle, h⟩ := bind_eq_ok.1 h
    obtain ⟨-, hkept⟩ := foldlM_coerceField (nodup_storageFieldNames validator) hmiddle
    rw [ih h]
    refine hkept name fun hmem => hname ?_
    obtain ⟨spec, hspec, rfl⟩ := List.mem_map.1 hmem
    exact List.mem_map_of_mem (List.mem_filter.1 hspec).1

lemma notMem_workerFieldNames_of_public (hname : name ∈ publicWorkerStateFieldNames) :
    name ∉ workerFieldNames := by
  have hdisjoint : ∀ name ∈ publicWorkerStateFieldNames, name ∉ workerFieldNames := by decide
  exact hdisjoint name hname

lemma lookup_removePublicState_self (hname : name ∈ publicWorkerStateFieldNames) :
    Dict.lookup name (removePublicState fields) = none := by
  show Dict.lookup name (Dict.remove _ (Dict.remove _ fields)) = none
  have hcases : name = "status" ∨ name = "next_eligible_action" := by
    simpa [publicWorkerStateFieldNames] using hname
  rcases hcases with rfl | rfl
  · rw [Dict.lookup_remove_of_ne (by decide)]
    exact Dict.lookup_remove_self _ _
  · exact Dict.lookup_remove_self _ _

/-- The fields that neither the specification nor earlier versions know come through a migration. -/
theorem lookup_migrateV1_of_unknown (h : migrateV1 py fields workerId = .ok fields')
    (hname : name ∉ workerFieldNames) (hpublic : name ∉ publicWorkerStateFieldNames) :
    Dict.lookup name fields' = Dict.lookup name fields := by
  rw [migrateV1_eq] at h
  obtain ⟨repaired, hrepaired, h⟩ := bind_eq_ok.1 h
  have hid : "id" ≠ name := fun heq => hname (heq ▸ List.mem_map_of_mem idSpec_mem)
  have hstate : "lifecycle_state" ≠ name := fun heq =>
    hname (heq ▸ List.mem_map_of_mem lifecycleStateSpec_mem)
  rw [lookup_coerceAll hname h, lookup_removePublicState hpublic,
    (repairLifecycle_eq_ok hrepaired).2 name hstate, lookup_repairIdentity hid]

/-- The identifier of a migrated worker is repaired. -/
lemma repairIdentity_of_migrateV1 (h : migrateV1 py fields workerId = .ok fields') :
    repairIdentity py fields' workerId = fields' := by
  obtain ⟨repaired, hrepaired, hrel⟩ := rel_lookup_migrateV1 h
  have hid : Dict.lookup "id" fields' = Dict.lookup "id" (repairIdentity py fields workerId) := by
    have hcoerced := hrel _ idSpec_mem
    rw [(repairLifecycle_eq_ok hrepaired).2 "id" (by decide)] at hcoerced
    generalize Dict.lookup "id" (repairIdentity py fields workerId) = before at hcoerced
    generalize Dict.lookup "id" fields' = after at hcoerced
    cases hcoerced with
    | none => rfl
    | some hvalue =>
      cases hvalue
      rfl
  by_cases hidentified : workerId ≠ "" ∨ (fields.field "id").truthy = true
  · obtain ⟨id, hne, hkey, hlookup⟩ := lookup_id_repairIdentity py hidentified
    rw [← hid] at hlookup
    unfold repairIdentity
    split_ifs with hworkerId
    · rw [← hkey hworkerId]
      exact Dict.insert_of_lookup hlookup
    · have htruthy : (JsonValue.str id).truthy = true := by simpa [JsonValue.truthy] using hne
      rw [hlookup]
      simp [htruthy]
  · have hlookup := lookup_id_repairIdentity_of_none py hidentified
    rw [← hid] at hlookup
    rw [not_or, not_not] at hidentified
    unfold repairIdentity
    rw [if_neg (not_not.2 hidentified.1), hlookup]

theorem migrated_migrateV1 (h : migrateV1 py fields workerId = .ok fields') :
    Migrated py workerId fields' where
  identity := repairIdentity_of_migrateV1 h
  lifecycleState := by
    obtain ⟨repaired, hrepaired, hrel⟩ := rel_lookup_migrateV1 h
    obtain ⟨⟨state, hmem, hstate⟩, -⟩ := repairLifecycle_eq_ok hrepaired
    have hcoerced := hrel _ lifecycleStateSpec_mem
    rw [hstate] at hcoerced
    generalize Dict.lookup "lifecycle_state" fields' = after at hcoerced
    cases hcoerced with
    | some hvalue =>
      cases hvalue
      exact ⟨state, hmem, rfl⟩
  publicState name hname := by
    rw [migrateV1_eq] at h
    obtain ⟨repaired, -, h⟩ := bind_eq_ok.1 h
    rw [lookup_coerceAll (notMem_workerFieldNames_of_public hname) h]
    exact lookup_removePublicState_self hname
  coerced spec hspec hvalidator value hvalue := by
    obtain ⟨repaired, -, hrel⟩ := rel_lookup_migrateV1 h
    have hcoerced := hrel spec hspec
    rw [hvalue] at hcoerced
    generalize Dict.lookup spec.name repaired = before at hcoerced
    cases hcoerced with
    | some hvalue =>
      have hid : spec.validator ≠ .id := by
        intro heq
        rw [heq] at hvalidator
        exact absurd hvalidator (by decide)
      have hstate : spec.validator ≠ .lifecycleState := by
        intro heq
        rw [heq] at hvalidator
        exact absurd hvalidator (by decide)
      exact coerced_of_canonical (canonicalValue_of_coerced hid hstate hvalue)

/-- Migrating a migrated worker changes nothing, the order of its fields included. -/
theorem migrateV1_idem (h : migrateV1 py fields workerId = .ok fields') :
    migrateV1 py fields' workerId = .ok fields' :=
  (migrated_migrateV1 h).migrateV1

/-! ## Storing -/

lemma recordFields_of_canonical {worker : Fields} (h : toSnapshot py worker = .ok worker) :
    recordFields py worker workerId = .ok (identified worker workerId) :=
  bind_eq_ok.2 ⟨worker, h, rfl⟩

lemma lookup_identified_of_unknown {worker : Fields} (h : toSnapshot py worker = .ok worker)
    (hname : name ∉ workerFieldNames) : Dict.lookup name (identified worker workerId) = none := by
  have hworker : Dict.lookup name worker = none := lookup_canonicalFields_eq_none h hname
  unfold identified
  split_ifs
  · have hid : "id" ≠ name := fun heq => hname (heq ▸ List.mem_map_of_mem idSpec_mem)
    rwa [Dict.lookup_insert_of_ne hid]
  · exact hworker

lemma unknownFields_eq_nil (h : ∀ name, name ∉ workerFieldNames → Dict.lookup name fields = none) :
    unknownFields fields = [] := by
  rw [unknownFields, List.filter_eq_nil_iff]
  intro field hfield hunknown
  exact Dict.lookup_eq_none_iff.1 (h _ (of_decide_eq_true hunknown)) (List.mem_map_of_mem hfield)

lemma unknownFields_append (fields others : Fields) :
    unknownFields (fields ++ others) = unknownFields fields ++ unknownFields others :=
  List.filter_append ..

lemma unknownFields_idem (fields : Fields) :
    unknownFields (unknownFields fields) = unknownFields fields := by
  rw [unknownFields, List.filter_eq_self]
  exact fun field hfield => (List.mem_filter.1 hfield).2

lemma lookup_unknownFields_of_notMem (hname : name ∉ workerFieldNames) :
    Dict.lookup name (unknownFields fields) = Dict.lookup name fields := by
  rw [unknownFields, Dict.lookup_filter fun name => decide (name ∉ workerFieldNames)]
  simp [hname]

/-- What is stored of a worker is migrated. -/
lemma migrated_stored {worker unknown : Fields} (h : toSnapshot py worker = .ok worker)
    (hunknown : ∀ name ∈ unknown.map Prod.fst,
      name ∉ workerFieldNames ∧ name ∉ publicWorkerStateFieldNames) :
    Migrated py workerId (identified worker workerId ++ unknown) := by
  -- no known field is among the unknown ones, so the known ones are read from the snapshot
  have hknown : ∀ spec ∈ workerFieldSpecs,
      Dict.lookup spec.name (identified worker workerId ++ unknown) =
        Dict.lookup spec.name (identified worker workerId) := by
    intro spec hspec
    have hnone : Dict.lookup spec.name unknown = none := by
      rw [Dict.lookup_eq_none_iff]
      exact fun hmem => (hunknown _ hmem).1 (List.mem_map_of_mem hspec)
    rw [Dict.lookup_append, hnone]
    cases Dict.lookup spec.name (identified worker workerId) <;> rfl
  have hcanonical : toSnapshot py (identified worker workerId) =
      .ok (identified worker workerId) := by
    unfold identified
    split_ifs with hkey
    · exact toSnapshot_insert_id hkey h
    · exact h
  obtain ⟨id, hne, hid⟩ := exists_id_of_toSnapshot hcanonical
  refine ⟨?_, ?_, fun name hname => ?_, fun spec hspec _ value hvalue => ?_⟩
  · have hstoredId := (hknown _ idSpec_mem).trans hid
    unfold repairIdentity
    split_ifs with hkey
    · have hsame : id = workerId := by
        have hinserted : Dict.lookup "id" (identified worker workerId) = some (.str workerId) := by
          rw [identified, if_pos hkey]
          exact Dict.lookup_insert_self _ _ _
        rw [hid] at hinserted
        cases hinserted
        rfl
      rw [← hsame] at hstoredId ⊢
      exact Dict.insert_of_lookup hstoredId
    · have htruthy : (JsonValue.str id).truthy = true := by simpa [JsonValue.truthy] using hne
      rw [hstoredId]
      simp [htruthy]
  · obtain ⟨value, hvalue⟩ := exists_lookup_of_required hcanonical lifecycleStateSpec_mem rfl
    obtain ⟨-, state, hstate, rfl⟩ := FieldSpec.canonicalAcceptedValue_eq_ok.1
      (canonicalValue_of_toSnapshot hcanonical lifecycleStateSpec_mem hvalue)
    exact ⟨state, hstate, (hknown _ lifecycleStateSpec_mem).trans hvalue⟩
  · have hfirst : Dict.lookup name (identified worker workerId) = none :=
      lookup_identified_of_unknown h (notMem_workerFieldNames_of_public hname)
    have hsecond : Dict.lookup name unknown = none := by
      rw [Dict.lookup_eq_none_iff]
      exact fun hmem => (hunknown _ hmem).2 hname
    rw [Dict.lookup_append, hfirst, hsecond]
    rfl
  · rw [hknown spec hspec] at hvalue
    exact coerced_of_canonical (canonicalValue_of_toSnapshot hcanonical hspec hvalue)

lemma unknown_of_mem_unknownFields (h : Migrated py workerId fields) :
    ∀ name ∈ (unknownFields fields).map Prod.fst,
      name ∉ workerFieldNames ∧ name ∉ publicWorkerStateFieldNames := by
  intro name hname
  obtain ⟨field, hfield, rfl⟩ := List.mem_map.1 hname
  obtain ⟨hmem, hunknown⟩ := List.mem_filter.1 hfield
  refine ⟨of_decide_eq_true hunknown, fun hpublic => ?_⟩
  exact Dict.lookup_eq_none_iff.1 (h.publicState _ hpublic) (List.mem_map_of_mem hmem)

/-- A migration is one of an object, under a schema version that is a number. -/
lemma migrate_eq_ok {value schemaVersion : JsonValue} :
    migrate py value workerId schemaVersion = .ok fields' ↔ ∃ fields, value = .obj fields ∧
      (coercedSchemaVersion py schemaVersion).Succeeds ∧
        migrateV1 py fields workerId = .ok fields' := by
  constructor
  · intro h
    cases value with
    | obj fields =>
      obtain ⟨version, hversion, h⟩ := bind_eq_ok.1 h
      exact ⟨fields, rfl, ⟨version, hversion⟩, h⟩
    | _ => cases h
  · rintro ⟨fields, rfl, ⟨version, hversion⟩, h⟩
    exact bind_eq_ok.2 ⟨version, hversion, h⟩

/-- What is stored of any worker under a key: its own fields, and behind them the unknown ones of
what was stored there before. -/
lemma exists_unknown_of_forStorage {worker stored : Fields} {schemaVersion : JsonValue}
    {persisted : Option JsonValue} (h : toSnapshot py worker = .ok worker)
    (hstored : forStorage py worker workerId schemaVersion persisted = .ok stored) :
    ∃ unknown, unknownFields unknown = unknown ∧
      (∀ name ∈ unknown.map Prod.fst,
        name ∉ workerFieldNames ∧ name ∉ publicWorkerStateFieldNames) ∧
      (∀ fields, persisted = some (.obj fields) → ∀ name, name ∉ workerFieldNames →
        name ∉ publicWorkerStateFieldNames → Dict.lookup name unknown = Dict.lookup name fields) ∧
      ∀ other, toSnapshot py other = .ok other →
        forStorage py other workerId schemaVersion persisted =
          .ok (identified other workerId ++ unknown) := by
  by_cases hnone : persisted = none ∨ persisted = some .null
  · refine ⟨[], rfl, fun _ hname => absurd hname List.not_mem_nil, fun fields hfields => ?_,
      fun other hother => ?_⟩
    · rw [hfields] at hnone
      simp at hnone
    · have hplain : forStorage py other workerId schemaVersion persisted =
          recordFields py other workerId >>= pure := by
        rcases hnone with rfl | rfl <;> rfl
      rw [hplain, recordFields_of_canonical hother, List.append_nil]
      rfl
  · obtain ⟨before, rfl, hmerge⟩ : ∃ before, persisted = some before ∧ ∀ other,
        forStorage py other workerId schemaVersion persisted =
          recordFields py other workerId >>= fun runtime =>
            migrate py before workerId schemaVersion >>= fun migrated =>
              pure (Dict.merge runtime (unknownFields migrated)) := by
      cases persisted with
      | none => simp at hnone
      | some before =>
        refine ⟨before, rfl, fun other => ?_⟩
        cases before with
        | null => simp at hnone
        | _ => rfl
    rw [hmerge, recordFields_of_canonical h] at hstored
    obtain ⟨_, ⟨⟩, hstored⟩ := bind_eq_ok.1 hstored
    obtain ⟨migrated, hmigrated, -⟩ := bind_eq_ok.1 hstored
    obtain ⟨fields, rfl, hversion, hfields⟩ := migrate_eq_ok.1 hmigrated
    have hnames := unknown_of_mem_unknownFields (migrated_migrateV1 hfields)
    refine ⟨unknownFields migrated, unknownFields_idem _, hnames, ?_, fun other hother => ?_⟩
    · rintro _ ⟨⟩ name hname hpublic
      rw [lookup_unknownFields_of_notMem hname, lookup_migrateV1_of_unknown hfields hname hpublic]
    · rw [hmerge, recordFields_of_canonical hother]
      refine bind_eq_ok.2 ⟨_, rfl, bind_eq_ok.2 ⟨_, hmigrated, ?_⟩⟩
      rw [Dict.merge_of_disjoint fun name hname =>
        lookup_identified_of_unknown hother (hnames name hname).1]
      rfl

/-- Storing a worker over what was stored under its key writes the same again. -/
theorem forStorage_stored {worker stored other storedOther : Fields} {schemaVersion : JsonValue}
    {persisted : Option JsonValue} (h : toSnapshot py worker = .ok worker)
    (hother : toSnapshot py other = .ok other) (hversion : schemaVersion.isInfinite = false)
    (hstored : forStorage py worker workerId schemaVersion persisted = .ok stored)
    (hstoredOther : forStorage py other workerId schemaVersion persisted = .ok storedOther) :
    forStorage py worker workerId schemaVersion (some (.obj storedOther)) = .ok stored := by
  obtain ⟨unknown, hidem, hnames, -, hall⟩ := exists_unknown_of_forStorage h hstored
  rw [hall worker h] at hstored
  rw [hall other hother] at hstoredOther
  cases hstored
  cases hstoredOther
  have hmigrated : migrate py (.obj (identified other workerId ++ unknown)) workerId
      schemaVersion = .ok (identified other workerId ++ unknown) :=
    migrate_eq_ok.2 ⟨_, rfl, (succeeds_coercedSchemaVersion py _).2 hversion,
      (migrated_stored hother hnames).migrateV1⟩
  have hsame : unknownFields (identified other workerId ++ unknown) = unknown := by
    rw [unknownFields_append, hidem,
      unknownFields_eq_nil fun name => lookup_identified_of_unknown hother, List.nil_append]
  unfold forStorage
  rw [recordFields_of_canonical h]
  refine bind_eq_ok.2 ⟨_, rfl, bind_eq_ok.2 ⟨_, hmigrated, ?_⟩⟩
  rw [hsame, Dict.merge_of_disjoint fun name hname =>
    lookup_identified_of_unknown h (hnames name hname).1]
  rfl

/-! ## Two ways to store -/

/-- The canonical form of a value is the value, for every field but the time-out. -/
lemma canonicalValue_eq_self {spec : FieldSpec} {value value' : JsonValue}
    (h : spec.canonicalValue py value = .ok value') (hne : spec.validator ≠ .timeoutSeconds) :
    value' = value := by
  unfold FieldSpec.canonicalValue at h
  cases hvalidator : spec.validator with
  | timeoutSeconds => exact absurd hvalidator hne
  | any =>
    rw [hvalidator] at h
    exact (Except.ok.inj h).symm
  | lifecycleState =>
    rw [hvalidator] at h
    exact (FieldSpec.canonicalAcceptedValue_eq_ok.1 h).1
  | timeoutPolicy =>
    rw [hvalidator] at h
    exact (FieldSpec.canonicalAcceptedValue_eq_ok.1 h).1
  | id =>
    rw [hvalidator] at h
    cases value with
    | str s =>
      dsimp only at h
      split_ifs at h
      exact (Except.ok.inj h).symm
    | _ => cases h
  | int =>
    rw [hvalidator] at h
    cases value with
    | int n => exact (Except.ok.inj h).symm
    | _ => cases h
  | list =>
    rw [hvalidator] at h
    cases value with
    | arr items => exact (Except.ok.inj h).symm
    | _ => cases h

/-- The values of a migrated worker, its defaults included, are canonical already. -/
lemma Migrated.canonicalValue (h : Migrated py workerId fields) {id : String} {spec : FieldSpec}
    (hspec : spec ∈ workerFieldSpecs) {value value' : JsonValue}
    (hvalue : fieldValue id fields spec = some value)
    (hcanonical : spec.canonicalValue py value = .ok value') : value' = value := by
  by_cases htimeout : spec.validator = .timeoutSeconds
  · unfold fieldValue at hvalue
    cases hfound : Dict.lookup spec.name fields with
    | some found =>
      rw [hfound] at hvalue
      cases hvalue
      have hself := canonicalValue_of_coerced (by rw [htimeout]; decide) (by rw [htimeout]; decide)
        (h.coerced spec hspec (by rw [htimeout]; decide) value hfound)
      rw [hself] at hcanonical
      exact (Except.ok.inj hcanonical).symm
    | none =>
      obtain ⟨hfits, hid⟩ := defaultFits_of_mem spec hspec
      have hfrom : spec.defaultFromWorkerId = false := by
        rw [← Bool.not_eq_true]
        intro hfrom
        have hvalidator := hid hfrom
        rw [htimeout] at hvalidator
        cases hvalidator
      have hnull : spec.default = .null := by
        unfold defaultFits at hfits
        rw [htimeout] at hfits
        cases hdefault : spec.default with
        | null => rfl
        | _ =>
          rw [hdefault] at hfits
          cases hfits
      rw [hfound] at hvalue
      simp only [Option.orElse_none] at hvalue
      split_ifs at hvalue
      cases hvalue
      have hdefaultValue : spec.defaultValue id = .null := by
        rw [FieldSpec.defaultValue, hfrom]
        exact hnull
      rw [hdefaultValue] at hcanonical ⊢
      unfold FieldSpec.canonicalValue at hcanonical
      rw [htimeout] at hcanonical
      exact (Except.ok.inj hcanonical).symm
  · exact canonicalValue_eq_self hcanonical htimeout

lemma lookup_canonicalSnapshotFields {runtime : Fields} {id : String} (hid : id ≠ "")
    (hlookup : Dict.lookup "id" fields = some (.str id))
    (h : canonicalSnapshotFields py fields workerId = .ok runtime) :
    (∀ spec ∈ workerFieldSpecs, Dict.lookup spec.name runtime = fieldValue id fields spec) ∧
      ∀ name ∉ workerFieldNames, Dict.lookup name runtime = none := by
  have hruntime : (runtimeFields fields).field "id" = .str id := by
    rw [Fields.field, lookup_runtimeFields idSpec_mem, hlookup]
    rfl
  have htruthy : (JsonValue.str id).truthy = true := by simpa [JsonValue.truthy] using hid
  have hresolved : (JsonValue.str id).orElse (.str workerId) = .str id := if_pos htruthy
  unfold canonicalSnapshotFields at h
  dsimp only at h
  rw [hruntime, hresolved, htruthy] at h
  cases h
  refine ⟨fun spec hspec => ?_, fun name hname => ?_⟩
  · rw [Dict.lookup_merge, lookup_runtimeFields hspec, show py.str (.str id) = id from rfl,
      lookup_defaultFields hspec]
    rfl
  · have hdefaults : Dict.lookup name (defaultFields (py.str (.str id))) = none := by
      rw [Dict.lookup_eq_none_iff, defaultFields, List.map_map]
      intro hmem
      obtain ⟨spec, hspec, rfl⟩ := List.mem_map.1 hmem
      exact hname (List.mem_map_of_mem (List.mem_filter.1 hspec).1)
    have hfields : Dict.lookup name (runtimeFields fields) = none := by
      rw [runtimeFields, Dict.lookup_filter fun name => decide (name ∈ workerFieldNames)]
      simp [hname]
    rw [Dict.lookup_merge, hfields, hdefaults]
    rfl

/-- A worker is hydrated to what its migrated fields are with the defaults. -/
lemma exists_runtime_of_hydrate {value schemaVersion : JsonValue} {worker : Fields}
    (h : hydrate py value workerId schemaVersion = .ok worker) :
    ∃ migrated runtime, migrate py value workerId schemaVersion = .ok migrated ∧
      canonicalSnapshotFields py migrated workerId = .ok runtime ∧
      ∀ name, Dict.lookup name runtime = Dict.lookup name worker := by
  obtain ⟨migrated, hmigrated, h⟩ := bind_eq_ok.1 h
  obtain ⟨runtime, hruntime, hsnapshot⟩ := bind_eq_ok.1 h
  obtain ⟨fields, -, -, hfields⟩ := migrate_eq_ok.1 hmigrated
  obtain ⟨id, hid, hlookup⟩ : ∃ id, id ≠ "" ∧ Dict.lookup "id" migrated = some (.str id) := by
    rw [lookup_id_migrateV1 hfields]
    by_cases hidentified : workerId ≠ "" ∨ (Fields.field fields "id").truthy = true
    · obtain ⟨id, hne, -, hlookup⟩ := lookup_id_repairIdentity py hidentified
      exact ⟨id, hne, hlookup⟩
    · have hnone := lookup_id_repairIdentity_of_none py hidentified
      rw [← lookup_id_migrateV1 hfields] at hnone
      rw [not_or, not_not] at hidentified
      rw [hidentified.1] at hruntime
      exact absurd ⟨_, hruntime⟩ (canonicalSnapshotFields_of_none hnone)
  obtain ⟨hknown, hunknown⟩ := lookup_canonicalSnapshotFields hid hlookup hruntime
  have hcanonical : canonicalFields py id migrated workerFieldSpecs = .ok worker := by
    rw [← canonicalSnapshotFields_of_id hid hlookup]
    exact bind_eq_ok.2 ⟨runtime, hruntime, hsnapshot⟩
  refine ⟨migrated, runtime, hmigrated, hruntime, fun name => ?_⟩
  by_cases hname : name ∈ workerFieldNames
  · obtain ⟨spec, hspec, rfl⟩ := List.mem_map.1 hname
    rw [hknown spec hspec]
    rcases canonical_of_lookup nodup_workerFieldNames hcanonical hspec with ⟨hnone, hout⟩ |
      ⟨value, value', hvalue, hvalue', hout⟩
    · rw [hnone, hout]
    · rw [hvalue, hout, (migrated_migrateV1 hfields).canonicalValue hspec hvalue hvalue']
  · rw [hunknown name hname, lookup_canonicalFields_eq_none hcanonical hname]

end Snapshot

end OpencodeSession
