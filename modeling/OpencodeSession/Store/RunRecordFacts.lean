import OpencodeSession.Store.Hydration
import OpencodeSession.Store.RunRecord

/-!
# Normalised runs

Normalising a run settles its fields: whatever the defaults, the status, the manifest and the
cleanup record are repaired to is left alone from then on (`normalizeFields_of_settled`).  A
normalised run is one that normalising leaves as it is, workers included.
-/

namespace OpencodeSession

open Except

namespace RunRecord

variable {py : Interpreter} {fields fields' : Fields} {name other : String} {value : JsonValue}

/-! ## Defaults -/

lemma lookup_setDefault : Dict.lookup other (setDefault name value fields) =
    if name = other then (Dict.lookup other fields).orElse fun _ => some value
    else Dict.lookup other fields := by
  unfold setDefault
  split_ifs with h
  · subst h
    cases hlookup : Dict.lookup name fields with
    | none => exact Dict.lookup_insert_self _ _ _
    | some v => exact hlookup
  · split
    · rfl
    · exact Dict.lookup_insert_of_ne h _ _

lemma lookup_setUnlessTruthy : Dict.lookup other (setUnlessTruthy name value fields) =
    if name = other then
      (if (fields.field name).truthy then Dict.lookup other fields else some value)
    else Dict.lookup other fields := by
  unfold setUnlessTruthy
  by_cases h : name = other
  · subst h
    rw [if_pos rfl]
    split_ifs
    · rfl
    · exact Dict.lookup_insert_self _ _ _
  · rw [if_neg h]
    split_ifs
    · rfl
    · exact Dict.lookup_insert_of_ne h _ _

lemma setDefault_of_lookup {found : JsonValue} (h : Dict.lookup name fields = some found) :
    setDefault name value fields = fields := by
  rw [setDefault, h]

lemma setUnlessTruthy_of_truthy (h : (fields.field name).truthy = true) :
    setUnlessTruthy name value fields = fields :=
  if_pos h

/-- The fields that every run has, apart from the texts that must not be empty. -/
def defaultedNames : List String :=
  ["schema_version", "directory", "status", "retry_count", "timeout_seconds", "blockers",
    "output_refs", "created_at", "updated_at"]

/-- The texts of a run that must not be empty. -/
def textNames : List String := ["name", "run_id", "server_url"]

/-- Fields that normalising leaves as they are. -/
structure Settled (py : Interpreter) (fields : Fields) : Prop where
  workers : Dict.lookup "workers" fields = none
  defaulted : ∀ name ∈ defaultedNames, ∃ value, Dict.lookup name fields = some value
  texts : ∀ name ∈ textNames, (fields.field name).truthy = true
  status : JsonValue.ofOption (py.shortStatus (fields.field "status")) = fields.field "status"
  resources : ∀ manifest, Dict.lookup "resources" fields = some manifest →
    Manifest.validateRunResourceManifest manifest = .ok manifest
  cleanup : ∀ cleanup, Dict.lookup "resource_cleanup" fields = some cleanup →
    cleanup.isObj = true

theorem normalizeFields_of_settled (h : Settled py fields) (fallbackName : JsonValue) :
    normalizeFields py fields fallbackName = .ok fields := by
  have hdefault : ∀ name ∈ defaultedNames, ∀ value, setDefault name value fields = fields := by
    intro name hname value
    obtain ⟨found, hfound⟩ := h.defaulted name hname
    exact setDefault_of_lookup hfound
  have htext : ∀ name ∈ textNames, ∀ value, setUnlessTruthy name value fields = fields :=
    fun name hname value => setUnlessTruthy_of_truthy (h.texts name hname)
  have hdefaults : withDefaults py fields fallbackName = fields := by
    unfold withDefaults
    simp only [hdefault "schema_version" (by decide), htext "name" (by decide),
      htext "run_id" (by decide), hdefault "directory" (by decide), htext "server_url" (by decide),
      hdefault "status" (by decide), hdefault "retry_count" (by decide),
      hdefault "timeout_seconds" (by decide), hdefault "blockers" (by decide),
      hdefault "output_refs" (by decide), hdefault "created_at" (by decide),
      hdefault "updated_at" (by decide)]
  have hstatus : shortenStatus py fields = fields := by
    obtain ⟨status, hlookup⟩ := h.defaulted "status" (by decide)
    have hfield : fields.field "status" = status := by rw [Fields.field, hlookup]; rfl
    rw [shortenStatus, h.status, hfield]
    exact Dict.insert_of_lookup hlookup
  have hresources : validateResources py fields fallbackName = .ok fields := by
    unfold validateResources
    split
    · rfl
    · next manifest hlookup =>
      rw [h.resources manifest hlookup]
      exact congrArg Except.ok (Dict.insert_of_lookup hlookup)
  have hcleanup : repairCleanup fields = fields := by
    unfold repairCleanup
    split
    · rfl
    · next cleanup hlookup => exact if_pos (h.cleanup cleanup hlookup)
  unfold normalizeFields
  rw [Dict.remove_of_lookup h.workers, hdefaults, hstatus, hresources]
  exact congrArg Except.ok hcleanup

lemma truthy_of_setUnlessTruthy (hvalue : value.truthy = true) :
    ((setUnlessTruthy name value fields).field name).truthy = true := by
  unfold setUnlessTruthy
  split_ifs with h
  · exact h
  · rw [Fields.field, Dict.lookup_insert_self]
    exact hvalue

lemma field_setDefault (h : name ≠ other) :
    (setDefault name value fields).field other = fields.field other := by
  rw [Fields.field, lookup_setDefault, if_neg h]
  rfl

lemma field_setUnlessTruthy (h : name ≠ other) :
    (setUnlessTruthy name value fields).field other = fields.field other := by
  rw [Fields.field, lookup_setUnlessTruthy, if_neg h]
  rfl

lemma has_withDefaults (fallbackName : JsonValue) : ∀ name ∈ defaultedNames,
    ∃ value, Dict.lookup name (withDefaults py fields fallbackName) = some value := by
  have horElse : ∀ (found : Option JsonValue) (value : JsonValue),
      ∃ v, (found.orElse fun _ => some value) = some v := by
    intro found value
    cases found with
    | none => exact ⟨value, rfl⟩
    | some v => exact ⟨v, rfl⟩
  simp only [defaultedNames, List.forall_mem_cons, withDefaults, lookup_setDefault,
    lookup_setUnlessTruthy, String.reduceEq, if_true, if_false]
  exact ⟨horElse _ _, horElse _ _, horElse _ _, horElse _ _, horElse _ _, horElse _ _, horElse _ _,
    horElse _ _, horElse _ _, fun _ hmem => absurd hmem List.not_mem_nil⟩

/-- The name of a run with its defaults: the recorded one, else the fallback. -/
lemma field_name_withDefaults (fallbackName : JsonValue) :
    (withDefaults py fields fallbackName).field "name" =
      if (fields.field "name").truthy then fields.field "name" else fallbackName := by
  have hname : (setDefault "schema_version" (.int 1) fields).field "name" = fields.field "name" :=
    field_setDefault (by decide)
  unfold withDefaults
  simp only [field_setDefault, field_setUnlessTruthy, ne_eq, String.reduceEq, not_false_eq_true]
  rw [setUnlessTruthy, hname]
  split_ifs with h
  · exact hname
  · rw [Fields.field, Dict.lookup_insert_self]
    rfl

lemma truthy_texts_withDefaults {fallbackName : JsonValue} (h : fallbackName.truthy = true) :
    ∀ name ∈ textNames, ((withDefaults py fields fallbackName).field name).truthy = true := by
  have hname : ((withDefaults py fields fallbackName).field "name").truthy = true := by
    rw [field_name_withDefaults]
    split_ifs with htruthy
    · exact htruthy
    · exact h
  have hnameOf : ∀ base : Fields,
      ((setUnlessTruthy "name" fallbackName base).field "name").truthy = true :=
    fun base => truthy_of_setUnlessTruthy h
  simp only [textNames, List.forall_mem_cons]
  refine ⟨hname, ?_, ?_, fun _ hmem => absurd hmem List.not_mem_nil⟩
  · unfold withDefaults
    simp only [field_setDefault, field_setUnlessTruthy, ne_eq, String.reduceEq, not_false_eq_true]
    exact truthy_of_setUnlessTruthy (hnameOf _)
  · unfold withDefaults
    simp only [field_setDefault, ne_eq, String.reduceEq, not_false_eq_true]
    exact truthy_of_setUnlessTruthy (by decide)

lemma lookup_withDefaults (fallbackName : JsonValue) (h : name ∉ defaultedNames ++ textNames) :
    Dict.lookup name (withDefaults py fields fallbackName) = Dict.lookup name fields := by
  simp only [defaultedNames, textNames, List.cons_append, List.nil_append, List.mem_cons, not_or,
    ← ne_eq] at h
  unfold withDefaults
  simp only [lookup_setDefault, lookup_setUnlessTruthy, h.1.symm, h.2.1.symm, h.2.2.1.symm,
    h.2.2.2.1.symm, h.2.2.2.2.1.symm, h.2.2.2.2.2.1.symm, h.2.2.2.2.2.2.1.symm,
    h.2.2.2.2.2.2.2.1.symm, h.2.2.2.2.2.2.2.2.1.symm, h.2.2.2.2.2.2.2.2.2.1.symm,
    h.2.2.2.2.2.2.2.2.2.2.1.symm, h.2.2.2.2.2.2.2.2.2.2.2.1.symm, if_false]

lemma lookup_withDefaults_remove (fallbackName : JsonValue) :
    Dict.lookup "workers" (withDefaults py (Dict.remove "workers" fields) fallbackName) = none := by
  rw [lookup_withDefaults fallbackName (by decide), Dict.lookup_remove_self]

lemma ofOption_shortStatus (value : JsonValue) :
    JsonValue.ofOption (py.shortStatus (JsonValue.ofOption (py.shortStatus value))) =
      JsonValue.ofOption (py.shortStatus value) := by
  have hofOption : ∀ status : Option String,
      py.shortStatus (JsonValue.ofOption status) = status.map OpencodeSession.shortStatus := by
    intro status
    cases status <;> rfl
  rw [hofOption, Snapshot.shortStatus_shortened]

lemma validateResources_eq_ok {fallbackName : JsonValue}
    (h : validateResources py fields fallbackName = .ok fields') :
    (∀ manifest, Dict.lookup "resources" fields' = some manifest →
      Manifest.validateRunResourceManifest manifest = .ok manifest) ∧
    ∀ name, "resources" ≠ name → Dict.lookup name fields' = Dict.lookup name fields := by
  unfold validateResources at h
  split at h
  · next hlookup =>
    cases h
    refine ⟨fun manifest hmanifest => ?_, fun _ _ => rfl⟩
    rw [hlookup] at hmanifest
    cases hmanifest
  · split at h
    · next manifest hvalid =>
      cases h
      refine ⟨fun manifest' hmanifest => ?_, fun name hne => Dict.lookup_insert_of_ne hne _ _⟩
      rw [Dict.lookup_insert_self] at hmanifest
      cases hmanifest
      exact Manifest.validateRunResourceManifest_idem hvalid
    · cases h

lemma lookup_repairCleanup : (∀ cleanup,
      Dict.lookup "resource_cleanup" (repairCleanup fields) = some cleanup → cleanup.isObj = true) ∧
    ∀ name, "resource_cleanup" ≠ name →
      Dict.lookup name (repairCleanup fields) = Dict.lookup name fields := by
  unfold repairCleanup
  split
  · next hlookup =>
    refine ⟨fun cleanup hcleanup => ?_, fun _ _ => rfl⟩
    rw [hlookup] at hcleanup
    cases hcleanup
  · next found hlookup =>
    split_ifs with hobj
    · refine ⟨fun cleanup hcleanup => ?_, fun _ _ => rfl⟩
      rw [hlookup] at hcleanup
      cases hcleanup
      exact hobj
    · refine ⟨fun cleanup hcleanup => ?_, fun name hne => Dict.lookup_insert_of_ne hne _ _⟩
      rw [Dict.lookup_insert_self] at hcleanup
      cases hcleanup
      rfl

/-- The fields that only defaults and the status are set in come through normalising unchanged. -/
lemma lookup_normalizeFields {fallbackName : JsonValue}
    (h : normalizeFields py fields fallbackName = .ok fields')
    (hname : name ∉ ["status", "resources", "resource_cleanup"]) :
    Dict.lookup name fields' =
      Dict.lookup name (withDefaults py (Dict.remove "workers" fields) fallbackName) := by
  simp only [List.mem_cons, not_or, ← ne_eq] at hname
  obtain ⟨validated, hvalidated, rfl⟩ := map_eq_ok.1 h
  rw [lookup_repairCleanup.2 name hname.2.2.1.symm,
    (validateResources_eq_ok hvalidated).2 name hname.2.1.symm, shortenStatus,
    Dict.lookup_insert_of_ne hname.1.symm]

theorem settled_normalizeFields {fallbackName : JsonValue} (htruthy : fallbackName.truthy = true)
    (h : normalizeFields py fields fallbackName = .ok fields') : Settled py fields' := by
  have hkept : ∀ name, name ∉ ["status", "resources", "resource_cleanup"] →
      Dict.lookup name fields' =
        Dict.lookup name (withDefaults py (Dict.remove "workers" fields) fallbackName) :=
    fun name => lookup_normalizeFields h
  obtain ⟨validated, hvalidated, rfl⟩ := map_eq_ok.1 h
  obtain ⟨hmanifest, hvalidatedKept⟩ := validateResources_eq_ok hvalidated
  have hstatus : Dict.lookup "status" (repairCleanup validated) = some (JsonValue.ofOption
      (py.shortStatus ((withDefaults py (Dict.remove "workers" fields) fallbackName).field
        "status"))) := by
    rw [lookup_repairCleanup.2 "status" (by decide), hvalidatedKept "status" (by decide),
      shortenStatus, Dict.lookup_insert_self]
  refine ⟨?_, fun name hname => ?_, fun name hname => ?_, ?_, fun manifest hlookup => ?_,
    lookup_repairCleanup.1⟩
  · rw [hkept "workers" (by decide), lookup_withDefaults_remove]
  · by_cases hne : name = "status"
    · exact ⟨_, hne ▸ hstatus⟩
    · have hother : name ∉ ["status", "resources", "resource_cleanup"] := by
        have hdisjoint : ∀ name ∈ defaultedNames, name ∉ ["resources", "resource_cleanup"] := by
          decide
        exact List.not_mem_cons_of_ne_of_not_mem hne (hdisjoint name hname)
      rw [hkept name hother]
      exact has_withDefaults fallbackName name hname
  · have hdisjoint : ∀ name ∈ textNames, name ∉ ["status", "resources", "resource_cleanup"] := by
      decide
    rw [Fields.field, hkept name (hdisjoint name hname)]
    exact truthy_texts_withDefaults htruthy name hname
  · rw [Fields.field, hstatus, Option.getD_some, ofOption_shortStatus]
  · rw [lookup_repairCleanup.2 "resources" (by decide)] at hlookup
    exact hmanifest manifest hlookup

/-- The name of normalised fields: the recorded one, else the fallback. -/
lemma field_name_normalizeFields {fallbackName : JsonValue}
    (h : normalizeFields py fields fallbackName = .ok fields') :
    fields'.field "name" =
      if (fields.field "name").truthy then fields.field "name" else fallbackName := by
  have hremove : Fields.field (Dict.remove "workers" fields) "name" = fields.field "name" := by
    have hne : "workers" ≠ "name" := by decide
    rw [Fields.field, Dict.lookup_remove_of_ne hne]
    rfl
  rw [Fields.field, lookup_normalizeFields h (by decide), ← hremove]
  exact field_name_withDefaults fallbackName

/-- The schema version of normalised fields is infinite where the recorded one is. -/
lemma isInfinite_schemaVersion {fallbackName : JsonValue}
    (h : normalizeFields py fields fallbackName = .ok fields') :
    (fields'.field "schema_version").isInfinite = (fields.field "schema_version").isInfinite := by
  have hlookup : Dict.lookup "schema_version" fields' =
      (Dict.lookup "schema_version" fields).orElse fun _ => some (.int 1) := by
    rw [lookup_normalizeFields h (by decide)]
    unfold withDefaults
    simp only [lookup_setDefault, lookup_setUnlessTruthy, String.reduceEq, if_true, if_false]
    rw [Dict.lookup_remove_of_ne (by decide)]
  rw [Fields.field, hlookup, Fields.field]
  cases Dict.lookup "schema_version" fields <;> rfl

/-- Normalising the fields fails on a manifest that is not valid only. -/
lemma succeeds_normalizeFields (fallbackName : JsonValue) :
    (normalizeFields py fields fallbackName).Succeeds ↔
      ∀ resources, Dict.lookup "resources" fields = some resources →
        (Manifest.validateRunResourceManifest resources).Succeeds := by
  have hlookup : Dict.lookup "resources"
      (shortenStatus py (withDefaults py (Dict.remove "workers" fields) fallbackName)) =
        Dict.lookup "resources" fields := by
    rw [shortenStatus, Dict.lookup_insert_of_ne (by decide),
      lookup_withDefaults fallbackName (by decide), Dict.lookup_remove_of_ne (by decide)]
  unfold normalizeFields validateResources
  rw [succeeds_map, hlookup]
  split
  · next hnone => simp [hnone, succeeds_ok]
  · next resources hsome =>
    rw [hsome]
    simp only [Option.some.injEq, forall_eq']
    split
    · next manifest hvalid => exact iff_of_true (succeeds_ok _) ⟨manifest, hvalid⟩
    · next error hinvalid =>
      rw [hinvalid]
      exact iff_of_false (not_succeeds_error _) (not_succeeds_error _)

/-! ## Normalised runs -/

/-- A run whose fields are settled and whose workers are canonical. -/
structure Normalized (py : Interpreter) (run : RunData) : Prop where
  fields : Settled py run.fields
  workers : ∀ entry ∈ run.workers, Snapshot.toSnapshot py entry.2 = .ok entry.2

/-- The parts of a run that was normalised. -/
lemma normalizeRun_eq_ok {value : RunValue} {run : RunData} {fallbackName : JsonValue} :
    normalizeRun py value fallbackName = .ok run ↔
      ∃ entries, normalizeFields py value.fields fallbackName = .ok run.fields ∧
        workerSnapshots py value.workers fallbackName = .ok entries ∧
          entries.mapM (normalizeWorker py (run.fields.field "schema_version")) =
            .ok run.workers := by
  constructor
  · intro h
    obtain ⟨fields, hfields, h⟩ := bind_eq_ok.1 h
    obtain ⟨entries, hentries, h⟩ := bind_eq_ok.1 h
    obtain ⟨workers, hworkers, h⟩ := bind_eq_ok.1 h
    cases h
    exact ⟨entries, hfields, hentries, hworkers⟩
  · rintro ⟨entries, hfields, hentries, hworkers⟩
    exact bind_eq_ok.2 ⟨run.fields, hfields, bind_eq_ok.2 ⟨entries, hentries,
      bind_eq_ok.2 ⟨run.workers, hworkers, rfl⟩⟩⟩

theorem normalizeRun_of_normalized {run : RunData} (h : Normalized py run)
    (fallbackName : JsonValue) : normalizeRun py run.toValue fallbackName = .ok run := by
  refine normalizeRun_eq_ok.2 ⟨_, normalizeFields_of_settled h.fields fallbackName, rfl,
    mapM_eq_ok.2 ?_⟩
  rw [List.forall₂_map_left_iff, List.forall₂_same]
  intro entry hentry
  exact map_eq_ok.2 ⟨entry.2, h.workers entry hentry, rfl⟩

lemma normalizeWorker_eq_ok {schemaVersion : JsonValue} {entry : String × WorkerEntry}
    {worker : String × Fields} (h : normalizeWorker py schemaVersion entry = .ok worker) :
    worker.1 = entry.1 ∧ Snapshot.toSnapshot py worker.2 = .ok worker.2 := by
  unfold normalizeWorker at h
  split at h
  · obtain ⟨fields, hfields, rfl⟩ := map_eq_ok.1 h
    exact ⟨rfl, Snapshot.toSnapshot_idem hfields⟩
  · obtain ⟨fields, hfields, rfl⟩ := map_eq_ok.1 h
    obtain ⟨migrated, -, hfields⟩ := bind_eq_ok.1 hfields
    obtain ⟨canonical, -, hfields⟩ := bind_eq_ok.1 hfields
    exact ⟨rfl, Snapshot.toSnapshot_idem hfields⟩

/-- What normalising gives is normalised. -/
theorem normalized_normalizeRun {value : RunValue} {run : RunData} {fallbackName : JsonValue}
    (htruthy : fallbackName.truthy = true) (h : normalizeRun py value fallbackName = .ok run) :
    Normalized py run := by
  obtain ⟨entries, hfields, -, hworkers⟩ := normalizeRun_eq_ok.1 h
  refine ⟨settled_normalizeFields htruthy hfields, fun worker hworker => ?_⟩
  obtain ⟨entry, -, hentry⟩ := exists_item_of_mem_mapM hworkers hworker
  exact (normalizeWorker_eq_ok hentry).2

/-- What escapes from normalising a run, other than the errors of the record itself, comes from its
workers. -/
lemma normalizeRun_eq_error {value : RunValue} {fallbackName : JsonValue} {error : PyError}
    (h : normalizeRun py value fallbackName = .error error) :
    (∃ message kind, error = .runRecord message kind) ∨
      ∃ fields entries, normalizeFields py value.fields fallbackName = .ok fields ∧
        workerSnapshots py value.workers fallbackName = .ok entries ∧
          entries.mapM (normalizeWorker py (fields.field "schema_version")) = .error error := by
  unfold normalizeRun at h
  cases hfields : normalizeFields py value.fields fallbackName with
  | error e =>
    rw [hfields] at h
    cases h
    left
    unfold normalizeFields validateResources at hfields
    split at hfields
    · cases hfields
    · split at hfields
      · cases hfields
      · cases hfields
        exact ⟨_, _, rfl⟩
  | ok fields =>
    cases hentries : workerSnapshots py value.workers fallbackName with
    | error e =>
      rw [hfields, hentries] at h
      cases h
      left
      unfold workerSnapshots at hentries
      split at hentries <;> cases hentries
      exact ⟨_, _, rfl⟩
    | ok entries =>
      right
      rw [hfields, hentries] at h
      refine ⟨fields, entries, rfl, rfl, ?_⟩
      cases hworkers : entries.mapM (normalizeWorker py (fields.field "schema_version")) with
      | error e =>
        change (do
          let workers ← entries.mapM (normalizeWorker py (fields.field "schema_version"))
          return ({ fields := fields, workers := workers } : RunData)) = _ at h
        rw [hworkers] at h
        cases h
        rfl
      | ok workers =>
        change (do
          let workers ← entries.mapM (normalizeWorker py (fields.field "schema_version"))
          return ({ fields := fields, workers := workers } : RunData)) = _ at h
        rw [hworkers] at h
        cases h

end RunRecord

end OpencodeSession
