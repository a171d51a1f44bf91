import OpencodeSession.Store.RunRecordFacts
import OpencodeSession.Store.RunStore

/-!
# Loading any file

`load_run` reads a file that anybody may have written.  It renames the errors of the record to those
of the store, and the conversions of a worker catch the errors of a wrong type or value; what they
do not catch is an integer that is an infinity or a float that is too large for one, and the worker
that is no object, the state that has no hash, the blockers that are no set and the worker without
an identifier raise errors of their own.

`loadsTotally_iff` says that this is all: a file loads, or is refused with an error of the store,
exactly when none of these is in it, or the record is refused before its workers are looked at.
-/

namespace OpencodeSession

open Except

namespace LoadTotality

variable (py : Interpreter) (store : RunStore) (directory : Directory) (name : String)

/-- The outcome that is promised of loading a run: a normalised run, or an error of the store. -/
def LoadsTotally : Prop :=
  (∃ run, store.loadRun py directory name = .ok run ∧ RunRecord.Normalized py run) ∨
    ∃ message kind, store.loadRun py directory name = .error (.runStore message kind)

/-- Whether the workers of a file can be hydrated, where they are looked at. -/
def LoadsCleanly (content : JsonValue) : Prop :=
  ∀ fields workers, content = .obj fields → Dict.lookup "workers" fields = some (.obj workers) →
    (∀ resources, Dict.lookup "resources" fields = some resources →
      (Manifest.validateRunResourceManifest resources).Succeeds) →
    ∀ entry ∈ workers, ∃ worker, entry.2 = .obj worker ∧
      Snapshot.Hydratable py worker entry.1 (Fields.field fields "schema_version")

variable {py : Interpreter} {store : RunStore} {directory : Directory} {name : String}

/-! ## One file -/

lemma Hydratable.congr {worker : Fields} {workerId : String} {schemaVersion schemaVersion' : JsonValue}
    (hversion : schemaVersion.isInfinite = schemaVersion'.isInfinite) :
    Snapshot.Hydratable py worker workerId schemaVersion ↔
      Snapshot.Hydratable py worker workerId schemaVersion' :=
  ⟨fun h => { h with schemaVersion_finite := hversion ▸ h.schemaVersion_finite },
    fun h => { h with schemaVersion_finite := hversion ▸ h.schemaVersion_finite }⟩

/-- When a persisted worker is normalised for a run. -/
lemma succeeds_normalizeWorker_raw {schemaVersion : JsonValue} {entry : String × JsonValue} :
    (RunRecord.normalizeWorker py schemaVersion (entry.1, .raw entry.2)).Succeeds ↔
      ∃ worker, entry.2 = .obj worker ∧ Snapshot.Hydratable py worker entry.1 schemaVersion := by
  show (Prod.mk entry.1 <$> Snapshot.hydrate py entry.2 entry.1 schemaVersion).Succeeds ↔ _
  rw [succeeds_map]
  cases hvalue : entry.2 with
  | obj worker =>
    rw [Snapshot.succeeds_hydrate]
    constructor
    · exact fun h => ⟨worker, rfl, h⟩
    · rintro ⟨_, ⟨⟩, h⟩
      exact h
  | _ =>
    refine iff_of_false ?_ ?_
    · rintro ⟨_, h⟩
      cases h
    · rintro ⟨_, h, -⟩
      cases h

lemma raisesForeign_normalizeWorker (py : Interpreter) (schemaVersion : JsonValue)
    (entry : String × WorkerEntry) :
    RaisesForeign (RunRecord.normalizeWorker py schemaVersion entry) := by
  unfold RunRecord.normalizeWorker
  split
  · exact (Snapshot.raisesForeign_canonicalFields _ _ _).map
  · exact (Snapshot.raisesForeign_hydrate _ _ _).map

lemma workerSnapshots_ofFields {fields : Fields} {fallbackName : JsonValue}
    {entries : List (String × WorkerEntry)}
    (h : RunRecord.workerSnapshots py (RunValue.ofFields fields).workers fallbackName = .ok entries) :
    entries = [] ∨ ∃ workers, Dict.lookup "workers" fields = some (.obj workers) ∧
      entries = workers.map fun entry => (entry.1, .raw entry.2) := by
  simp only [RunValue.ofFields] at h
  split at h
  · cases h
    exact .inl rfl
  · cases h
    exact .inl rfl
  · next workers hworkers =>
    cases h
    exact .inr ⟨workers, hworkers, rfl⟩
  · cases h

lemma succeeds_normalizeFields_ofFields (py : Interpreter) {fields : Fields}
    (fallbackName : JsonValue)
    (hresources : ∀ resources, Dict.lookup "resources" fields = some resources →
      (Manifest.validateRunResourceManifest resources).Succeeds) :
    (RunRecord.normalizeFields py (RunValue.ofFields fields).fields fallbackName).Succeeds := by
  refine (RunRecord.succeeds_normalizeFields fallbackName).2 fun resources hlookup => ?_
  rw [RunValue.ofFields, Dict.lookup_remove_of_ne (by decide)] at hlookup
  exact hresources resources hlookup

/-- The workers of an object are hydrated where nothing escapes from loading it. -/
lemma loadsCleanly_of_total {fields : Fields} {fallbackName : JsonValue}
    (h : ∀ error, RunRecord.normalizeRun py (.ofFields fields) fallbackName = .error error →
      error.isRunError = true) : LoadsCleanly py (.obj fields) := by
  rintro _ workers ⟨⟩ hworkers hresources entry hentry
  obtain ⟨normal, hnormal⟩ := succeeds_normalizeFields_ofFields py fallbackName hresources
  have hentries : RunRecord.workerSnapshots py (RunValue.ofFields fields).workers fallbackName =
      .ok (workers.map fun entry => (entry.1, .raw entry.2)) := by
    simp only [RunValue.ofFields, hworkers]
    rfl
  have hrun : RunRecord.normalizeRun py (.ofFields fields) fallbackName =
      (workers.map fun entry => (entry.1, WorkerEntry.raw entry.2)).mapM
        (RunRecord.normalizeWorker py (normal.field "schema_version")) >>= fun workers =>
          return { fields := normal, workers := workers } := by
    rw [RunRecord.normalizeRun, hnormal, hentries]
    rfl
  have hmapped : ((workers.map fun entry => (entry.1, WorkerEntry.raw entry.2)).mapM
      (RunRecord.normalizeWorker py (normal.field "schema_version"))).Succeeds := by
    by_contra hfails
    obtain ⟨error, herror⟩ := exists_error_of_not_succeeds hfails
    have hforeign := RaisesOnly.mapM (raisesForeign_normalizeWorker py _) error herror
    rw [hrun, herror] at h
    rw [h error rfl] at hforeign
    cases hforeign
  have hsucceeds := succeeds_mapM.1 hmapped _ (List.mem_map_of_mem hentry)
  obtain ⟨worker, hworker, hhydratable⟩ := succeeds_normalizeWorker_raw.1 hsucceeds
  have hversion : (normal.field "schema_version").isInfinite =
      (Fields.field fields "schema_version").isInfinite := by
    have hne : "workers" ≠ "schema_version" := by decide
    rw [RunRecord.isInfinite_schemaVersion hnormal, RunValue.ofFields, Fields.field,
      Dict.lookup_remove_of_ne hne]
    rfl
  exact ⟨worker, hworker, (Hydratable.congr hversion).1 hhydratable⟩

/-- Nothing escapes from loading an object whose workers can be hydrated. -/
lemma total_of_loadsCleanly {fields : Fields} (h : LoadsCleanly py (.obj fields))
    {fallbackName : JsonValue} {error : PyError}
    (herror : RunRecord.normalizeRun py (.ofFields fields) fallbackName = .error error) :
    ∃ message kind, error = .runRecord message kind := by
  rcases RunRecord.normalizeRun_eq_error herror with hrecord | ⟨normal, entries, hnormal, hentries,
    hworkers⟩
  · exact hrecord
  · exfalso
    refine absurd ?_ (hworkers ▸ not_succeeds_error error)
    rcases workerSnapshots_ofFields hentries with rfl | ⟨workers, hlookup, rfl⟩
    · exact succeeds_ok []
    · refine succeeds_mapM.2 fun item hitem => ?_
      obtain ⟨entry, hentry, rfl⟩ := List.mem_map.1 hitem
      have hresources := (RunRecord.succeeds_normalizeFields _).1 ⟨normal, hnormal⟩
      rw [RunValue.ofFields, Dict.lookup_remove_of_ne (by decide)] at hresources
      obtain ⟨worker, hworker, hhydratable⟩ := h fields workers rfl hlookup hresources entry hentry
      have hversion : (normal.field "schema_version").isInfinite =
          (Fields.field fields "schema_version").isInfinite := by
        have hne : "workers" ≠ "schema_version" := by decide
        rw [RunRecord.isInfinite_schemaVersion hnormal, RunValue.ofFields, Fields.field,
          Dict.lookup_remove_of_ne hne]
        rfl
      exact succeeds_normalizeWorker_raw.2
        ⟨worker, hworker, (Hydratable.congr hversion).2 hhydratable⟩

lemma runPath_str_error {error : PyError} (h : RunStore.runPath py (.str name) = .error error) :
    ∃ message kind, error = .runStore message kind := by
  unfold RunStore.runPath at h
  split_ifs at h
  · cases h
    exact ⟨_, _, rfl⟩
  · dsimp only at h
    split_ifs at h
    cases h
    exact ⟨_, _, rfl⟩

/-- What a directory has in the file of a name, as the loader gets at it. -/
lemma loadRun_of_content {path : String} {content : JsonValue}
    (hpath : RunStore.runPath py (.str name) = .ok path) (hcontent : directory path = some content) :
    LoadsTotally py store directory name ↔ LoadsCleanly py content := by
  obtain ⟨heq, htruthy⟩ := RunStore.runPath_eq_ok hpath
  obtain rfl : name = path := JsonValue.str.inj heq
  have hload : ∀ fields, content = .obj fields → store.loadRun py directory name =
      RunStore.ofRecordErrors (RunRecord.normalizeRun py (.ofFields fields) (.str name)) := by
    rintro fields rfl
    simp only [RunStore.loadRun, RunStore.readRunData, hpath, Except.bind, bind, hcontent]
    rfl
  -- only an object is read as a run: any other content is an error of the store
  cases content with
  | obj fields =>
    rw [LoadsTotally, hload fields rfl]
    cases hrun : RunRecord.normalizeRun py (.ofFields fields) (.str name) with
    | ok run =>
      refine iff_of_true (.inl ⟨run, rfl, RunRecord.normalized_normalizeRun htruthy hrun⟩) ?_
      have hescapes : ∀ e, RunRecord.normalizeRun py (.ofFields fields) (.str name) =
          .error e → e.isRunError = true := by
        intro e he
        rw [hrun] at he
        cases he
      exact loadsCleanly_of_total hescapes
    | error error =>
      constructor
      · rintro (⟨run, h, -⟩ | ⟨message, kind, h⟩)
        · cases error <;> cases h
        · have hstore : error.isRunError = true := by
            cases error <;> first
              | rfl
              | cases h
          have hescapes : ∀ e, RunRecord.normalizeRun py (.ofFields fields) (.str name) =
              .error e → e.isRunError = true := by
            intro e he
            rw [hrun] at he
            cases he
            exact hstore
          exact loadsCleanly_of_total hescapes
      · intro h
        obtain ⟨message, kind, rfl⟩ := total_of_loadsCleanly h hrun
        exact .inr ⟨message, kind, rfl⟩
  | _ =>
    refine iff_of_true (.inr ?_) fun fields workers heq => by cases heq
    simp only [RunStore.loadRun, RunStore.readRunData, hpath, Except.bind, bind, hcontent]
    exact ⟨_, _, rfl⟩

/-! ## Every file -/

/-- Loading a run gives a normalised run or an error of the store exactly when the workers in its
file, if it comes to them, can be hydrated. -/
theorem loadsTotally_iff (py : Interpreter) (store : RunStore) (directory : Directory)
    (name : String) : LoadsTotally py store directory name ↔
      ∀ path content, RunStore.runPath py (.str name) = .ok path →
        directory path = some content → LoadsCleanly py content := by
  cases hpath : RunStore.runPath py (.str name) with
  | error error =>
    obtain ⟨message, kind, rfl⟩ := runPath_str_error hpath
    refine iff_of_true (.inr ⟨message, kind, ?_⟩) fun path content h => by cases h
    rw [RunStore.loadRun, RunStore.readRunData, hpath]
    rfl
  | ok path =>
    cases hcontent : directory path with
    | none =>
      refine iff_of_true (.inr ?_) fun path' content h hcontent' => ?_
      · simp only [RunStore.loadRun, RunStore.readRunData, hpath, Except.bind, bind, hcontent]
        exact ⟨_, _, rfl⟩
      · cases h
        rw [hcontent] at hcontent'
        cases hcontent'
    | some content =>
      rw [loadRun_of_content hpath hcontent]
      constructor
      · intro h path' content' hpath' hcontent'
        cases hpath'
        rw [hcontent] at hcontent'
        cases hcontent'
        exact h
      · exact fun h => h path content rfl hcontent

/-- A worker whose number of retries is infinite raises an `OverflowError`. -/
theorem not_loadsTotally_infinity : ¬ LoadsTotally plainInterpreter ⟨"/store"⟩
    (fun path => if path = "run" then
        some (.obj [("workers", .obj [("w", .obj [("retry_count", .nonFinite .infinity)])])])
      else none)
    "run" := by
  rintro (⟨run, h, -⟩ | ⟨message, kind, h⟩)
  · cases h
  · cases h

end LoadTotality

end OpencodeSession
