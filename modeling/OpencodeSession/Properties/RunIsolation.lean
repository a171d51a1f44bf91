import OpencodeSession.Store.RunRecordFacts
import OpencodeSession.Store.RunStore

/-!
# Updates and the files of other runs

`update_run` reads the file of the run it is asked for, and writes to the file of the name in the
record.  `isolated_iff` says when the two are one and loading the run gives back what was saved: the
recorded name is the name of the file, the schema version is no infinity unless there is no worker,
and the mutator files each worker under its own identifier.  An update that is refused before it
writes is none that this is about.
-/

namespace OpencodeSession

open Except

/-- The keys of the workers in the dictionary of a run. -/
def RunWorkers.keys : RunWorkers → List String
  | .entries workers => workers.map Prod.fst
  | _ => []

/-- The workers in the dictionary of a run that are hydrated already. -/
def RunWorkers.records : RunWorkers → List (String × Fields)
  | .entries workers => workers.filterMap fun entry =>
    match entry.2 with
    | .record fields => some (entry.1, fields)
    | .raw _ => none
  | _ => []

namespace RunIsolation

variable (py : Interpreter) (store : RunStore) (directory : Directory) (name : String)
  (mutator : Mutator) (allowCleanupInProgress : Bool)

/-- What is promised of an update.  The file that it replaces is that of the run, and loading the
run afterwards gives the record that was saved. -/
def Isolated : Prop :=
  ∀ saved, store.updateRun py directory name mutator allowCleanupInProgress = .ok saved →
    saved.path = name ∧ store.loadRun py (saved.applyTo directory) name = .ok saved.run

/-- Whether what a mutator left of a run gets as far as the file: it is a run, under a name that a
run can have, and its workers can be written over those that were read. -/
structure Writes (run : RunData) (left : RunValue) : Prop where
  normal : (RunRecord.normalizeRun py left (.str name)).Succeeds
  path : (RunStore.runPath py run.name).Succeeds
  workers : (left.fields.field "schema_version").isInfinite = false ∨
    ∀ key ∈ left.workers.keys, key ∉ run.workers.map Prod.fst

/-- Whether what a mutator left of a run belongs in the file of a name, and can be read back. -/
structure Fits (run : RunData) (left : RunValue) : Prop where
  name_eq : run.name = .str name
  schemaVersion : (left.fields.field "schema_version").isInfinite = false ∨ left.workers.keys = []
  identified : ∀ record ∈ left.workers.records, record.1 ≠ "" →
    Fields.field record.2 "id" = .str record.1

variable {py : Interpreter} {store : RunStore} {directory : Directory} {name : String}
  {mutator : Mutator} {allowCleanupInProgress : Bool}

/-! ## One update -/

lemma ofRecordErrors_eq_ok {α : Type} {r : Except PyError α} {a : α} :
    RunStore.ofRecordErrors r = .ok a ↔ r = .ok a := by
  unfold RunStore.ofRecordErrors
  split
  · constructor
    · intro h
      cases h
    · intro h
      cases h
  · rfl

lemma loadRun_eq_ok {run : RunData} : store.loadRun py directory name = .ok run ↔
    ∃ persisted, store.readRunData py directory name = .ok persisted ∧
      RunRecord.normalizeRun py (.ofFields persisted) (.str name) = .ok run := by
  rw [RunStore.loadRun, bind_eq_ok]
  simp only [RunStore.normalizeForStore, ofRecordErrors_eq_ok]

lemma runPath_of_readRunData {persisted : Fields}
    (h : store.readRunData py directory name = .ok persisted) :
    RunStore.runPath py (.str name) = .ok name ∧ (JsonValue.str name).truthy = true := by
  obtain ⟨path, hpath, -⟩ := bind_eq_ok.1 h
  obtain ⟨heq, htruthy⟩ := RunStore.runPath_eq_ok hpath
  cases heq
  exact ⟨hpath, htruthy⟩

/-- The steps of an update that writes. -/
lemma updateRun_eq_ok {saved : Saved} :
    store.updateRun py directory name mutator allowCleanupInProgress = .ok saved ↔
      ∃ persisted run left final, store.readRunData py directory name = .ok persisted ∧
        RunRecord.normalizeRun py (.ofFields persisted) (.str name) = .ok run ∧
        (allowCleanupInProgress = true ∨ run.cleanupInProgress = false) ∧
        mutator run = .ok left ∧ RunRecord.normalizeRun py left (.str name) = .ok final ∧
        RunStore.writeRun py final persisted = .ok saved := by
  simp only [RunStore.updateRun, bind_eq_ok, RunStore.normalizeForStore, ofRecordErrors_eq_ok]
  constructor
  · rintro ⟨persisted, hpersisted, run, hrun, h⟩
    split_ifs at h with hfenced
    obtain ⟨left, hleft, final, hfinal, hwrite⟩ := by simpa only [bind_eq_ok] using h
    refine ⟨persisted, run, left, final, hpersisted, hrun, ?_, hleft, ?_, hwrite⟩
    · cases allowCleanupInProgress <;> simp_all
    · exact ofRecordErrors_eq_ok.1 hfinal
  · rintro ⟨persisted, run, left, final, hpersisted, hrun, hfence, hleft, hfinal, hwrite⟩
    refine ⟨persisted, hpersisted, run, hrun, ?_⟩
    have hopen : ¬ (!allowCleanupInProgress && run.cleanupInProgress) = true := by
      rcases hfence with h | h <;> simp [h]
    rw [if_neg hopen]
    exact bind_eq_ok.2 ⟨left, hleft, bind_eq_ok.2 ⟨final, ofRecordErrors_eq_ok.2 hfinal, hwrite⟩⟩

/-! ## Writing -/

variable {run final : RunData} {persisted : Fields} {left : RunValue}

/-- What is written of a normalised run. -/
lemma writeRun_eq_ok (h : RunRecord.Normalized py final) {saved : Saved} :
    RunStore.writeRun py final persisted = .ok saved ↔
      ∃ workers path, final.workers.mapM (RunRecord.storedWorker py
          (final.fields.field "schema_version") persisted) = .ok workers ∧
        RunStore.runPath py final.name = .ok path ∧
        saved = { run := final, path := path,
                  content := .obj (Dict.insert "workers" (.obj workers) final.fields) } := by
  have hname : ∀ workers, Fields.field (Dict.insert "workers" (.obj workers) final.fields) "name" =
      final.name := by
    intro workers
    have hne : "workers" ≠ "name" := by decide
    rw [Fields.field, Dict.lookup_insert_of_ne hne]
    rfl
  unfold RunStore.writeRun RunRecord.normalizeForStorage
  rw [RunRecord.normalizeFields_of_settled h.fields]
  simp only [bind_eq_ok, ofRecordErrors_eq_ok]
  constructor
  · rintro ⟨stored, ⟨_, ⟨⟩, workers, hworkers, hstored⟩, path, hpath, hsaved⟩
    cases hstored
    cases hsaved
    rw [hname] at hpath
    exact ⟨workers, path, hworkers, hpath, rfl⟩
  · rintro ⟨workers, path, hworkers, hpath, rfl⟩
    refine ⟨_, ⟨final.fields, rfl, workers, hworkers, rfl⟩, path, ?_, rfl⟩
    rw [hname]
    exact hpath

/-- A worker of a run under the identifier of its key. -/
def identifiedEntry (entry : String × Fields) : String × Fields :=
  (entry.1, Snapshot.identified entry.2 entry.1)

lemma normalizeWorker_storedWorker {schemaVersion : JsonValue} {entry : String × Fields}
    {stored : String × JsonValue} (hcanonical : Snapshot.toSnapshot py entry.2 = .ok entry.2)
    (hversion : schemaVersion.isInfinite = false)
    (h : RunRecord.storedWorker py schemaVersion persisted entry = .ok stored) :
    RunRecord.normalizeWorker py schemaVersion (stored.1, .raw stored.2) =
      .ok (identifiedEntry entry) := by
  obtain ⟨fields, hfields, rfl⟩ := map_eq_ok.1 h
  exact map_eq_ok.2 ⟨_, Snapshot.hydrate_forStorage hcanonical hfields hversion, rfl⟩

/-- Reading the workers that were stored gives them back under their keys. -/
lemma mapM_normalizeWorker_stored {schemaVersion : JsonValue} {entries : List (String × Fields)}
    {workers : List (String × JsonValue)}
    (hcanonical : ∀ entry ∈ entries, Snapshot.toSnapshot py entry.2 = .ok entry.2)
    (hversion : schemaVersion.isInfinite = false)
    (h : entries.mapM (RunRecord.storedWorker py schemaVersion persisted) = .ok workers) :
    (workers.map fun entry => (entry.1, WorkerEntry.raw entry.2)).mapM
      (RunRecord.normalizeWorker py schemaVersion) = .ok (entries.map identifiedEntry) := by
  rw [mapM_eq_ok] at h
  rw [mapM_eq_ok, List.forall₂_map_left_iff, List.forall₂_map_right_iff]
  induction h with
  | nil => exact .nil
  | cons hstored _ ih =>
    rw [List.forall_mem_cons] at hcanonical
    exact .cons (normalizeWorker_storedWorker hcanonical.1 hversion hstored) (ih hcanonical.2)

lemma ofFields_insert_workers (h : RunRecord.Normalized py final)
    (workers : List (String × JsonValue)) :
    RunValue.ofFields (Dict.insert "workers" (.obj workers) final.fields) =
      { fields := final.fields
        workers := .entries (workers.map fun entry => (entry.1, .raw entry.2)) } := by
  rw [RunValue.ofFields, Dict.remove_insert_self, Dict.remove_of_lookup h.fields.workers,
    Dict.lookup_insert_self]

/-- Reading a run that was stored. -/
lemma normalizeRun_stored (h : RunRecord.Normalized py final) (fallbackName : JsonValue)
    (workers : List (String × JsonValue)) :
    RunRecord.normalizeRun py
        (.ofFields (Dict.insert "workers" (.obj workers) final.fields)) fallbackName =
      (fun workers => { fields := final.fields, workers := workers }) <$>
        (workers.map fun entry => (entry.1, WorkerEntry.raw entry.2)).mapM
          (RunRecord.normalizeWorker py (final.fields.field "schema_version")) := by
  rw [ofFields_insert_workers h, RunRecord.normalizeRun,
    RunRecord.normalizeFields_of_settled h.fields]
  rfl

lemma not_succeeds_normalizeWorker_raw {schemaVersion : JsonValue} {entry : String × JsonValue}
    (hversion : schemaVersion.isInfinite = true) :
    ¬ (RunRecord.normalizeWorker py schemaVersion (entry.1, .raw entry.2)).Succeeds := by
  rintro ⟨worker, h⟩
  obtain ⟨fields, hfields, -⟩ := map_eq_ok.1 h
  obtain ⟨migrated, hmigrated, -⟩ := bind_eq_ok.1 hfields
  unfold Snapshot.migrate at hmigrated
  split at hmigrated
  · obtain ⟨version, hok, -⟩ := bind_eq_ok.1 hmigrated
    have hfinite := (Snapshot.succeeds_coercedSchemaVersion py _).1 ⟨version, hok⟩
    rw [hversion] at hfinite
    cases hfinite
  · cases hmigrated

lemma map_identifiedEntry_eq_self_iff {entries : List (String × Fields)} :
    entries.map identifiedEntry = entries ↔
      ∀ entry ∈ entries, entry.1 = "" ∨ Dict.lookup "id" entry.2 = some (.str entry.1) := by
  have hmap : entries.map identifiedEntry = entries.map id ↔
      ∀ entry ∈ entries, identifiedEntry entry = id entry := List.map_inj_left
  rw [List.map_id] at hmap
  rw [hmap]
  refine forall₂_congr fun entry _ => ?_
  rw [← Snapshot.identified_eq_self_iff]
  obtain ⟨key, worker⟩ := entry
  simp [identifiedEntry]

/-- Reading a run that was stored gives it back exactly when its schema version is no infinity,
unless it has no worker, and its workers are under their own identifiers. -/
lemma normalizeRun_stored_iff (h : RunRecord.Normalized py final) (fallbackName : JsonValue)
    {workers : List (String × JsonValue)}
    (hworkers : final.workers.mapM (RunRecord.storedWorker py
      (final.fields.field "schema_version") persisted) = .ok workers) :
    RunRecord.normalizeRun py
        (.ofFields (Dict.insert "workers" (.obj workers) final.fields)) fallbackName = .ok final ↔
      ((final.fields.field "schema_version").isInfinite = false ∨ final.workers = []) ∧
        ∀ entry ∈ final.workers, entry.1 = "" ∨ Dict.lookup "id" entry.2 = some (.str entry.1) := by
  rw [normalizeRun_stored h]
  cases hversion : (final.fields.field "schema_version").isInfinite with
  | false =>
    rw [mapM_normalizeWorker_stored h.workers hversion hworkers, ← map_identifiedEntry_eq_self_iff]
    constructor
    · intro hrun
      exact ⟨.inl rfl, congrArg RunData.workers (Except.ok.inj hrun)⟩
    · rintro ⟨-, hentries⟩
      rw [hentries]
      rfl
  | true =>
    constructor
    · intro hrun
      have hnone : final.workers = [] := by
        obtain ⟨hydrated, hhydrated, -⟩ := map_eq_ok.1 hrun
        rw [mapM_eq_ok] at hworkers
        cases hstored : workers with
        | nil =>
          rw [hstored] at hworkers
          exact List.forall₂_nil_right_iff.1 hworkers
        | cons first rest =>
          rw [hstored] at hhydrated
          have hfirst := succeeds_mapM.1 ⟨hydrated, hhydrated⟩ _ List.mem_cons_self
          exact absurd hfirst (not_succeeds_normalizeWorker_raw hversion)
      rw [hnone]
      exact ⟨.inr rfl, fun _ hentry => absurd hentry List.not_mem_nil⟩
    · rintro ⟨hnone, -⟩
      have hempty : final.workers = [] := hnone.resolve_left Bool.false_ne_true.symm
      rw [hempty] at hworkers
      cases hworkers
      show Except.ok (RunData.mk final.fields []) = Except.ok final
      rw [← hempty]

/-! ## What the mutator left -/

/-- The hydrated worker of an entry, if it has one. -/
def recordOf (entry : String × WorkerEntry) : Option (String × Fields) :=
  match entry.2 with
  | .record fields => some (entry.1, fields)
  | .raw _ => none

lemma keys_of_workerSnapshots {workers : RunWorkers} {fallbackName : JsonValue}
    {entries : List (String × WorkerEntry)}
    (h : RunRecord.workerSnapshots py workers fallbackName = .ok entries) :
    workers.keys = entries.map Prod.fst ∧ workers.records = entries.filterMap recordOf := by
  cases workers with
  | missing =>
    cases h
    exact ⟨rfl, rfl⟩
  | corrupt => cases h
  | entries workers =>
    cases h
    exact ⟨rfl, rfl⟩

lemma keys_normalizeRun {fallbackName : JsonValue}
    (h : RunRecord.normalizeRun py left fallbackName = .ok final) :
    final.workers.map Prod.fst = left.workers.keys := by
  obtain ⟨entries, -, hentries, hworkers⟩ := RunRecord.normalizeRun_eq_ok.1 h
  rw [(keys_of_workerSnapshots hentries).1]
  exact map_eq_of_mapM (fun _ _ hworker => (RunRecord.normalizeWorker_eq_ok hworker).1) hworkers

/-- A worker is under its own identifier after normalising when it was one that is read from
storage, or was so before. -/
lemma identified_normalizeWorker {schemaVersion : JsonValue} {entry : String × WorkerEntry}
    {worker : String × Fields}
    (h : RunRecord.normalizeWorker py schemaVersion entry = .ok worker) :
    (worker.1 = "" ∨ Dict.lookup "id" worker.2 = some (.str worker.1)) ↔
      ∀ record, recordOf entry = some record → record.1 ≠ "" →
        Fields.field record.2 "id" = .str record.1 := by
  obtain ⟨key, value⟩ := entry
  unfold RunRecord.normalizeWorker at h
  cases value with
  | raw value =>
    obtain ⟨hydrated, hhydrated, rfl⟩ := map_eq_ok.1 h
    refine iff_of_true ?_ fun record hrecord => by cases hrecord
    by_cases hkey : key = ""
    · exact .inl hkey
    · exact .inr (Snapshot.lookup_id_hydrate hkey hhydrated)
  | record fields =>
    obtain ⟨snapshot, hsnapshot, rfl⟩ := map_eq_ok.1 h
    have hid := Snapshot.lookup_id_toSnapshot hsnapshot
    have hfield : ∀ text, Fields.field fields "id" = .str text ↔
        Dict.lookup "id" fields = some (.str text) := by
      intro text
      unfold Fields.field
      cases Dict.lookup "id" fields <;> simp
    constructor
    · rintro hown record ⟨⟩ hne
      rw [hfield, ← hid]
      exact hown.resolve_left hne
    · intro hown
      by_cases hkey : key = ""
      · exact .inl hkey
      · have hrecord := hown (key, fields) rfl hkey
        rw [hfield, ← hid] at hrecord
        exact .inr hrecord

lemma identified_normalizeRun {fallbackName : JsonValue}
    (h : RunRecord.normalizeRun py left fallbackName = .ok final) :
    (∀ entry ∈ final.workers, entry.1 = "" ∨ Dict.lookup "id" entry.2 = some (.str entry.1)) ↔
      ∀ record ∈ left.workers.records, record.1 ≠ "" →
        Fields.field record.2 "id" = .str record.1 := by
  obtain ⟨entries, -, hentries, hworkers⟩ := RunRecord.normalizeRun_eq_ok.1 h
  rw [(keys_of_workerSnapshots hentries).2]
  constructor
  · intro hown record hrecord
    obtain ⟨entry, hentry, hof⟩ := List.mem_filterMap.1 hrecord
    obtain ⟨worker, hworker, hnormal⟩ := exists_value_of_mem_mapM hworkers hentry
    exact (identified_normalizeWorker hnormal).1 (hown worker hworker) record hof
  · intro hown worker hworker
    obtain ⟨entry, hentry, hnormal⟩ := exists_item_of_mem_mapM hworkers hworker
    refine (identified_normalizeWorker hnormal).2 fun record hof => ?_
    exact hown record (List.mem_filterMap.2 ⟨entry, hentry, hof⟩)

lemma schemaVersion_normalizeRun {value : RunValue} {fallbackName : JsonValue}
    (h : RunRecord.normalizeRun py value fallbackName = .ok final) :
    (final.fields.field "schema_version").isInfinite =
      (value.fields.field "schema_version").isInfinite := by
  obtain ⟨entries, hfields, -, -⟩ := RunRecord.normalizeRun_eq_ok.1 h
  exact RunRecord.isInfinite_schemaVersion hfields

lemma name_normalizeRun {value : RunValue} {fallbackName : JsonValue}
    (h : RunRecord.normalizeRun py value fallbackName = .ok final) :
    final.name = if (value.fields.field "name").truthy then value.fields.field "name"
      else fallbackName := by
  obtain ⟨entries, hfields, -, -⟩ := RunRecord.normalizeRun_eq_ok.1 h
  exact RunRecord.field_name_normalizeFields hfields

/-! ## Workers that were read -/

/-- A worker that was read under a key. -/
lemma persisted_of_mem {fallbackName : JsonValue} {key : String}
    (h : RunRecord.normalizeRun py (.ofFields persisted) fallbackName = .ok run)
    (hkey : key ∈ run.workers.map Prod.fst) :
    ∃ fields, Dict.lookup key (RunRecord.persistedWorkers persisted) = some (.obj fields) ∧
      (Snapshot.migrateV1 py fields key).Succeeds := by
  rw [keys_normalizeRun h] at hkey
  obtain ⟨entries, -, hentries, hworkers⟩ := RunRecord.normalizeRun_eq_ok.1 h
  cases hlookup : Dict.lookup "workers" persisted with
  | none =>
    simp only [RunValue.ofFields, hlookup, RunWorkers.keys] at hkey
    exact absurd hkey List.not_mem_nil
  | some value =>
    simp only [RunValue.ofFields, hlookup] at hkey hentries
    cases value with
    | obj workers =>
      cases hentries
      simp only [RunWorkers.keys, List.map_map, Function.comp_def] at hkey
      have hpersisted : RunRecord.persistedWorkers persisted = workers := by
        rw [RunRecord.persistedWorkers, hlookup]
      rw [hpersisted]
      obtain ⟨value, hvalue⟩ : ∃ value, Dict.lookup key workers = some value := by
        cases hfound : Dict.lookup key workers with
        | none => exact absurd hkey (Dict.lookup_eq_none_iff.1 hfound)
        | some value => exact ⟨value, rfl⟩
      have hmem := List.mem_map_of_mem (f := fun entry : String × JsonValue =>
        (entry.1, WorkerEntry.raw entry.2)) (Dict.mem_of_lookup hvalue)
      obtain ⟨worker, -, hworker⟩ := exists_value_of_mem_mapM hworkers hmem
      obtain ⟨hydrated, hhydrated, -⟩ := map_eq_ok.1 hworker
      obtain ⟨migrated, hmigrated, -⟩ := bind_eq_ok.1 hhydrated
      unfold Snapshot.migrate at hmigrated
      split at hmigrated
      · next fields heq =>
        obtain rfl : value = .obj fields := heq
        obtain ⟨version, -, hmigrated⟩ := bind_eq_ok.1 hmigrated
        exact ⟨fields, hvalue, migrated, hmigrated⟩
      · cases hmigrated
    | _ => exact absurd hkey List.not_mem_nil

lemma lookup_persisted_of_notMem {fallbackName : JsonValue} {key : String}
    (h : RunRecord.normalizeRun py (.ofFields persisted) fallbackName = .ok run)
    (hkey : key ∉ run.workers.map Prod.fst) :
    Dict.lookup key (RunRecord.persistedWorkers persisted) = none := by
  rw [keys_normalizeRun h] at hkey
  unfold RunRecord.persistedWorkers
  split
  · next workers hlookup =>
    simp only [RunValue.ofFields, hlookup, RunWorkers.keys, List.map_map, Function.comp_def] at hkey
    exact Dict.lookup_eq_none_iff.2 hkey
  · rfl

/-- The workers of a run can be written over those that were read unless the schema version has
become infinite and one of them was there before. -/
lemma succeeds_storedWorkers {fallbackName : JsonValue} {schemaVersion : JsonValue}
    (hrun : RunRecord.normalizeRun py (.ofFields persisted) fallbackName = .ok run)
    (hfinal : RunRecord.Normalized py final) :
    (final.workers.mapM (RunRecord.storedWorker py schemaVersion persisted)).Succeeds ↔
      schemaVersion.isInfinite = false ∨
        ∀ key ∈ final.workers.map Prod.fst, key ∉ run.workers.map Prod.fst := by
  have hentry : ∀ entry ∈ final.workers,
      (RunRecord.storedWorker py schemaVersion persisted entry).Succeeds ↔
        schemaVersion.isInfinite = false ∨ entry.1 ∉ run.workers.map Prod.fst := by
    intro entry hmem
    rw [RunRecord.storedWorker, succeeds_map,
      Snapshot.succeeds_forStorage (hfinal.workers entry hmem)]
    by_cases hkey : entry.1 ∈ run.workers.map Prod.fst
    · obtain ⟨fields, hlookup, hmigrated⟩ := persisted_of_mem hrun hkey
      rw [hlookup]
      simp only [hkey, not_true, or_false, Option.some.injEq, forall_eq']
      rw [← Snapshot.succeeds_coercedSchemaVersion py]
      constructor
      · intro h
        obtain ⟨migrated, h⟩ := h fun hnull => by cases hnull
        obtain ⟨version, hversion, -⟩ := bind_eq_ok.1 h
        exact ⟨version, hversion⟩
      · rintro ⟨version, hversion⟩ -
        obtain ⟨migrated, hmigrated⟩ := hmigrated
        exact ⟨migrated, bind_eq_ok.2 ⟨version, hversion, hmigrated⟩⟩
    · rw [lookup_persisted_of_notMem hrun hkey]
      exact iff_of_true (fun value hvalue => by cases hvalue) (.inr hkey)
  rw [succeeds_mapM]
  constructor
  · intro h
    by_cases hversion : schemaVersion.isInfinite = false
    · exact .inl hversion
    · refine .inr fun key hkey => ?_
      obtain ⟨entry, hmem, rfl⟩ := List.mem_map.1 hkey
      exact ((hentry entry hmem).1 (h entry hmem)).resolve_left hversion
  · rintro h entry hmem
    exact (hentry entry hmem).2 (h.imp_right fun h => h _ (List.mem_map_of_mem hmem))

/-! ## Every update -/

lemma name_eq_of_kept (hnormalized : RunRecord.Normalized py run)
    (hname : left.fields.field "name" = run.name) {fallbackName : JsonValue}
    (h : RunRecord.normalizeRun py left fallbackName = .ok final) : final.name = run.name := by
  have htruthy : run.name.truthy = true := hnormalized.fields.texts "name" (by decide)
  rw [name_normalizeRun h, hname, if_pos htruthy]

/-- Loading a run whose file was just written. -/
lemma loadRun_applyTo {saved : Saved} {fields : Fields} (hpath : saved.path = name)
    (hcontent : saved.content = .obj fields)
    (hvalid : RunStore.runPath py (.str name) = .ok name) :
    store.loadRun py (saved.applyTo directory) name = .ok run ↔
      RunRecord.normalizeRun py (.ofFields fields) (.str name) = .ok run := by
  have hread : store.readRunData py (saved.applyTo directory) name = .ok fields := by
    unfold RunStore.readRunData Saved.applyTo
    rw [hvalid, hpath, hcontent]
    simp only [bind, Except.bind, Function.update_self]
    rfl
  rw [loadRun_eq_ok]
  constructor
  · rintro ⟨persisted, hpersisted, h⟩
    rw [hread] at hpersisted
    cases hpersisted
    exact h
  · exact fun h => ⟨fields, hread, h⟩

/-- An update by a mutator that keeps the name of the run replaces the file of that run, and leaves
there what loads as the saved record, exactly when whatever it writes fits in. -/
theorem isolated_iff (py : Interpreter) (store : RunStore) (directory : Directory) (name : String)
    (mutator : Mutator) (allowCleanupInProgress : Bool)
    (hname : ∀ run left, mutator run = .ok left → left.fields.field "name" = run.name) :
    Isolated py store directory name mutator allowCleanupInProgress ↔
      ∀ run left, store.loadRun py directory name = .ok run →
        (allowCleanupInProgress = true ∨ run.cleanupInProgress = false) →
        mutator run = .ok left → Writes py name run left → Fits name run left := by
  constructor
  · intro hisolated run left hload hfence hleft hwrites
    obtain ⟨persisted, hpersisted, hrun⟩ := loadRun_eq_ok.1 hload
    obtain ⟨hvalid, htruthy⟩ := runPath_of_readRunData hpersisted
    obtain ⟨final, hfinal⟩ := hwrites.normal
    have hnormalized := RunRecord.normalized_normalizeRun htruthy hrun
    have hfinalNormalized := RunRecord.normalized_normalizeRun htruthy hfinal
    have hfinalName := name_eq_of_kept hnormalized (hname run left hleft) hfinal
    obtain ⟨path, hpath⟩ := hwrites.path
    have hstored : (final.workers.mapM (RunRecord.storedWorker py
        (final.fields.field "schema_version") persisted)).Succeeds := by
      rw [succeeds_storedWorkers hrun hfinalNormalized, schemaVersion_normalizeRun hfinal,
        keys_normalizeRun hfinal]
      exact hwrites.workers
    obtain ⟨workers, hworkers⟩ := hstored
    -- the update is played, and what isolation says of it is read off
    have hwrite := (writeRun_eq_ok hfinalNormalized).2
      ⟨workers, path, hworkers, hfinalName ▸ hpath, rfl⟩
    obtain ⟨hsame, hreload⟩ := hisolated _ (updateRun_eq_ok.2
      ⟨persisted, run, left, final, hpersisted, hrun, hfence, hleft, hfinal, hwrite⟩)
    rw [loadRun_applyTo hsame rfl hvalid, normalizeRun_stored_iff hfinalNormalized _ hworkers,
      schemaVersion_normalizeRun hfinal, identified_normalizeRun hfinal] at hreload
    refine ⟨?_, ?_, hreload.2⟩
    · rw [(RunStore.runPath_eq_ok hpath).1]
      exact congrArg JsonValue.str hsame
    · rw [← keys_normalizeRun hfinal, List.map_eq_nil_iff]
      exact hreload.1
  · intro hfits saved hsaved
    obtain ⟨persisted, run, left, final, hpersisted, hrun, hfence, hleft, hfinal, hwrite⟩ :=
      updateRun_eq_ok.1 hsaved
    obtain ⟨hvalid, htruthy⟩ := runPath_of_readRunData hpersisted
    have hnormalized := RunRecord.normalized_normalizeRun htruthy hrun
    have hfinalNormalized := RunRecord.normalized_normalizeRun htruthy hfinal
    have hfinalName := name_eq_of_kept hnormalized (hname run left hleft) hfinal
    obtain ⟨workers, path, hworkers, hpath, rfl⟩ := (writeRun_eq_ok hfinalNormalized).1 hwrite
    rw [hfinalName] at hpath
    have hstored := (succeeds_storedWorkers hrun hfinalNormalized).1 ⟨workers, hworkers⟩
    rw [schemaVersion_normalizeRun hfinal, keys_normalizeRun hfinal] at hstored
    obtain ⟨hrunName, hversion, hidentified⟩ := hfits run left
      (loadRun_eq_ok.2 ⟨persisted, hpersisted, hrun⟩) hfence hleft
      ⟨⟨final, hfinal⟩, ⟨path, hpath⟩, hstored⟩
    -- the run is written under its own name, which is the name of the file it was read from
    have hsame : path = name := by
      have hstr := (RunStore.runPath_eq_ok hpath).1
      rw [hrunName] at hstr
      cases hstr
      rfl
    refine ⟨hsame, (loadRun_applyTo hsame rfl hvalid).2 ?_⟩
    rw [normalizeRun_stored_iff hfinalNormalized _ hworkers, schemaVersion_normalizeRun hfinal,
      identified_normalizeRun hfinal]
    refine ⟨?_, hidentified⟩
    rw [← keys_normalizeRun hfinal, List.map_eq_nil_iff] at hversion
    exact hversion

/-- A store with two runs, of which the first has a worker. -/
def twoRuns : Directory := fun path =>
  if path = "a" then some (.obj [("name", .str "a"),
    ("workers", .obj [("w", .obj [("id", .str "w"), ("prompt", .str "work")])])])
  else if path = "b" then some (.obj [("name", .str "b")])
  else none

/-- A mutator that marks a run as active and gives each of its workers another prompt. -/
def activating : Mutator := fun run =>
  .ok { fields := Dict.insert "status" (.str "active") run.fields
        workers := .entries (run.workers.map fun entry =>
          (entry.1, .record (Dict.insert "prompt" (.str "more work") entry.2))) }

theorem isolated_activating :
    Isolated plainInterpreter ⟨"/store"⟩ twoRuns "a" activating false ∧
      ∃ saved, RunStore.updateRun plainInterpreter ⟨"/store"⟩ twoRuns "a" activating false =
          .ok saved ∧
        saved.run.fields.field "status" = .str "active" ∧
        saved.run.workers.map (fun worker => (worker.1, Fields.field worker.2 "prompt")) =
          [("w", .str "more work")] ∧
        saved.applyTo twoRuns "b" = twoRuns "b" := by
  refine ⟨?_, _, rfl, rfl, rfl, rfl⟩
  refine (isolated_iff plainInterpreter ⟨"/store"⟩ twoRuns "a" activating false ?_).2 ?_
  · rintro run _ ⟨⟩
    have hne : "status" ≠ "name" := by decide
    show (Dict.lookup "name" (Dict.insert "status" (.str "active") run.fields)).getD .null = _
    rw [Dict.lookup_insert_of_ne hne]
    rfl
  · rintro run _ hload - ⟨⟩ -
    cases hload
    refine ⟨rfl, .inl rfl, fun record hrecord _ => ?_⟩
    obtain rfl := List.mem_singleton.1 hrecord
    rfl

/-- A mutator that changes nothing. -/
def untouched : Mutator := fun run => .ok run.toValue

/-- A store with one file, whose record has a name. -/
def oneFile (file recorded : String) : Directory := fun path =>
  if path = file then some (.obj [("name", .str recorded)]) else none

/-- The record in the file of one run has the name of another, and is written there. -/
theorem not_isolated_other_name : ¬ ∀ (py : Interpreter) (store : RunStore)
    (directory : Directory) (name : String) (mutator : Mutator) (allowCleanupInProgress : Bool),
    (∀ run left, mutator run = .ok left → left.fields.field "name" = run.name) →
      Isolated py store directory name mutator allowCleanupInProgress := by
  intro h
  have hisolated := h plainInterpreter ⟨"/store"⟩ (oneFile "a" "b") "a" untouched false (by
    rintro run _ ⟨⟩
    rfl)
  have hsaved : ∃ saved, RunStore.updateRun plainInterpreter ⟨"/store"⟩ (oneFile "a" "b") "a"
      untouched false = .ok saved ∧ saved.path = "b" := ⟨_, rfl, rfl⟩
  obtain ⟨saved, hsaved, hpath⟩ := hsaved
  have hsame := (hisolated saved hsaved).1
  rw [hpath] at hsame
  exact absurd hsame (by decide)

end RunIsolation

end OpencodeSession
