import OpencodeSession.Properties.RunIsolation
import OpencodeSession.Store.Rewriting

/-!
# Saving and loading

A run that is loaded under its own name can always be saved, is loaded again as it was, and from
then on every save of it writes the very same content: the migration of earlier versions, the
defaults and the unknown fields settle with the first save (`rewritten_of_loadRun`).  An update
keeps what it does not know, in the run and in each of its workers (`keepsUnknown_of_updateRun`).
-/

namespace OpencodeSession

namespace StoreRoundTrip

open Except RunIsolation

variable {py : Interpreter} {store : RunStore} {directory : Directory} {name : String}
  {mutator : Mutator} {allowCleanupInProgress : Bool} {run final : RunData} {persisted : Fields}
  {saved : Saved}

/-! ## Writing over what was written -/

lemma persistedWorkers_insert (workers : List (String × JsonValue)) (fields : Fields) :
    RunRecord.persistedWorkers (Dict.insert "workers" (.obj workers) fields) = workers := by
  rw [RunRecord.persistedWorkers, Dict.lookup_insert_self]

/-- What is stored under a key is one of the workers that were stored. -/
lemma exists_of_lookup_stored {schemaVersion : JsonValue} {entries : List (String × Fields)}
    {workers : List (String × JsonValue)}
    (h : entries.mapM (RunRecord.storedWorker py schemaVersion persisted) = .ok workers)
    {key : String} (hkey : key ∈ entries.map Prod.fst) :
    ∃ other ∈ entries, other.1 = key ∧ ∃ stored,
      Snapshot.forStorage py other.2 key schemaVersion
        (Dict.lookup key (RunRecord.persistedWorkers persisted)) = .ok stored ∧
      Dict.lookup key workers = some (.obj stored) := by
  have hkeys : workers.map Prod.fst = entries.map Prod.fst := by
    refine map_eq_of_mapM (fun entry stored hstored => ?_) h
    obtain ⟨fields, -, rfl⟩ := map_eq_ok.1 hstored
    rfl
  obtain ⟨value, hvalue⟩ : ∃ value, Dict.lookup key workers = some value := by
    cases hlookup : Dict.lookup key workers with
    | none => exact absurd (hkeys ▸ hkey) (Dict.lookup_eq_none_iff.1 hlookup)
    | some value => exact ⟨value, rfl⟩
  obtain ⟨other, hother, hstored⟩ := exists_item_of_mem_mapM h (Dict.mem_of_lookup hvalue)
  obtain ⟨stored, hforStorage, heq⟩ := map_eq_ok.1 hstored
  have hown : other.1 = key := congrArg Prod.fst heq
  have hobj : value = .obj stored := (congrArg Prod.snd heq).symm
  subst hown
  exact ⟨other, hother, rfl, stored, hforStorage, by rw [hvalue, hobj]⟩

/-- Storing the workers of a run over what was stored of them writes the same again. -/
lemma mapM_storedWorker_stored {schemaVersion : JsonValue} {entries : List (String × Fields)}
    {workers : List (String × JsonValue)} {fields : Fields}
    (hcanonical : ∀ entry ∈ entries, Snapshot.toSnapshot py entry.2 = .ok entry.2)
    (hversion : schemaVersion.isInfinite = false)
    (h : entries.mapM (RunRecord.storedWorker py schemaVersion persisted) = .ok workers) :
    entries.mapM (RunRecord.storedWorker py schemaVersion
      (Dict.insert "workers" (.obj workers) fields)) = .ok workers := by
  have hagain : ∀ entry ∈ entries, ∀ stored,
      RunRecord.storedWorker py schemaVersion persisted entry = .ok stored →
        RunRecord.storedWorker py schemaVersion
          (Dict.insert "workers" (.obj workers) fields) entry = .ok stored := by
    intro entry hentry stored hstored
    obtain ⟨written, hwritten, rfl⟩ := map_eq_ok.1 hstored
    obtain ⟨other, hother, hkey, storedOther, hforStorage, hlookup⟩ :=
      exists_of_lookup_stored h (List.mem_map_of_mem hentry)
    refine map_eq_ok.2 ⟨written, ?_, rfl⟩
    rw [persistedWorkers_insert, hlookup]
    exact Snapshot.forStorage_stored (hcanonical entry hentry) (hcanonical other hother) hversion
      hwritten hforStorage
  rw [mapM_eq_ok] at h ⊢
  have hpairs : List.Forall₂ (fun entry stored => entry ∈ entries ∧
      RunRecord.storedWorker py schemaVersion persisted entry = .ok stored) entries workers :=
    (List.forall₂_and_left entries workers).2 ⟨fun _ hentry => hentry, h⟩
  exact hpairs.imp fun entry stored hpair => hagain entry hpair.1 stored hpair.2

/-- A run that was saved and is loaded again as it was is saved again as it was. -/
theorem updateRun_saved
    (h : store.updateRun py directory name mutator allowCleanupInProgress = .ok saved)
    (hpath : saved.path = name)
    (hload : store.loadRun py (saved.applyTo directory) name = .ok saved.run) :
    store.updateRun py (saved.applyTo directory) name untouched true = .ok saved := by
  obtain ⟨persisted, run, left, final, hpersisted, -, -, -, hfinal, hwrite⟩ := updateRun_eq_ok.1 h
  obtain ⟨hvalid, htruthy⟩ := runPath_of_readRunData hpersisted
  have hnormalized := RunRecord.normalized_normalizeRun htruthy hfinal
  obtain ⟨workers, path, hworkers, hfinalPath, rfl⟩ := (writeRun_eq_ok hnormalized).1 hwrite
  obtain ⟨read, hread, hrun⟩ := loadRun_eq_ok.1 hload
  have hcontent := (loadRun_applyTo hpath rfl hvalid).1 hload
  have hversion := ((normalizeRun_stored_iff hnormalized _ hworkers).1 hcontent).1
  have hsame : read = Dict.insert "workers" (.obj workers) final.fields := by
    obtain ⟨file, hfile, hread⟩ := bind_eq_ok.1 hread
    have hfile : file = name := by
      rw [hvalid] at hfile
      exact (Except.ok.inj hfile).symm
    subst hfile
    have happly : Saved.applyTo (Saved.mk final path (.obj (Dict.insert "workers" (.obj workers)
        final.fields))) directory file =
          some (.obj (Dict.insert "workers" (.obj workers) final.fields)) := by
      rw [Saved.applyTo, hpath, Function.update_self]
    rw [happly] at hread
    exact (Except.ok.inj hread).symm
  subst hsame
  have hagain : final.workers.mapM (RunRecord.storedWorker py
      (final.fields.field "schema_version")
        (Dict.insert "workers" (.obj workers) final.fields)) = .ok workers := by
    rcases hversion with hversion | hnone
    · exact mapM_storedWorker_stored hnormalized.workers hversion hworkers
    · rw [hnone] at hworkers ⊢
      exact hworkers
  exact updateRun_eq_ok.2 ⟨_, final, final.toValue, final, hread, hrun, .inl rfl, rfl,
    RunRecord.normalizeRun_of_normalized hnormalized _,
    (writeRun_eq_ok hnormalized).2 ⟨workers, path, hagain, hfinalPath, rfl⟩⟩

/-! ## Rewriting a run -/

/-- A run that was loaded has no worker if its schema version is infinite. -/
lemma workers_of_infinite
    (h : RunRecord.normalizeRun py (.ofFields persisted) (.str name) = .ok run)
    (hversion : (run.fields.field "schema_version").isInfinite = true) : run.workers = [] := by
  rw [← List.map_eq_nil_iff (f := Prod.fst), List.eq_nil_iff_forall_not_mem]
  intro key hkey
  obtain ⟨worker, hworker, -⟩ := List.mem_map.1 hkey
  obtain ⟨entries, -, hentries, hworkers⟩ := RunRecord.normalizeRun_eq_ok.1 h
  obtain ⟨entry, hentry, hnormal⟩ := exists_item_of_mem_mapM hworkers hworker
  have hraw : ∃ value, entry.2 = .raw value := by
    unfold RunValue.ofFields at hentries
    cases hlookup : Dict.lookup "workers" persisted with
    | none =>
      rw [hlookup] at hentries
      cases hentries
      exact absurd hentry List.not_mem_nil
    | some value =>
      rw [hlookup] at hentries
      cases value with
      | obj workers =>
        cases hentries
        obtain ⟨item, -, rfl⟩ := List.mem_map.1 hentry
        exact ⟨item.2, rfl⟩
      | null =>
        cases hentries
        exact absurd hentry List.not_mem_nil
      | _ => cases hentries
  obtain ⟨value, hvalue⟩ := hraw
  rw [show entry = (entry.1, WorkerEntry.raw (entry.1, value).2) from Prod.ext rfl hvalue] at hnormal
  exact not_succeeds_normalizeWorker_raw hversion ⟨worker, hnormal⟩

/-- The workers of a run that was loaded are under their own identifiers. -/
lemma identified_of_loaded
    (h : RunRecord.normalizeRun py (.ofFields persisted) (.str name) = .ok run) :
    ∀ entry ∈ run.workers, entry.1 = "" ∨ Dict.lookup "id" entry.2 = some (.str entry.1) := by
  refine (identified_normalizeRun h).2 fun record hrecord => ?_
  have hnone : (RunValue.ofFields persisted).workers.records = [] := by
    unfold RunValue.ofFields
    cases Dict.lookup "workers" persisted with
    | none => rfl
    | some value =>
      cases value with
      | obj workers =>
        show List.filterMap _ (List.map _ workers) = []
        rw [List.filterMap_map, List.filterMap_eq_nil_iff]
        exact fun _ _ => rfl
      | _ => rfl
  rw [hnone] at hrecord
  exact absurd hrecord List.not_mem_nil

/-- A run that is loaded under its own name can be saved as it is, in its own file, and is loaded
again as it was; and saving it once more writes the same content. -/
theorem rewritten_of_loadRun (hload : store.loadRun py directory name = .ok run)
    (hname : run.name = .str name) :
    ∃ saved, store.updateRun py directory name untouched true = .ok saved ∧
      saved.run = run ∧ saved.path = name ∧
      store.loadRun py (saved.applyTo directory) name = .ok run ∧
      store.updateRun py (saved.applyTo directory) name untouched true = .ok saved := by
  obtain ⟨persisted, hpersisted, hrun⟩ := loadRun_eq_ok.1 hload
  obtain ⟨hvalid, htruthy⟩ := runPath_of_readRunData hpersisted
  have hnormalized := RunRecord.normalized_normalizeRun htruthy hrun
  have hversion : (run.fields.field "schema_version").isInfinite = false ∨ run.workers = [] := by
    cases hinfinite : (run.fields.field "schema_version").isInfinite with
    | false => exact .inl rfl
    | true => exact .inr (workers_of_infinite hrun hinfinite)
  have hstored : (run.workers.mapM (RunRecord.storedWorker py
      (run.fields.field "schema_version") persisted)).Succeeds := by
    refine (succeeds_storedWorkers hrun hnormalized).2 (hversion.imp_right fun hnone => ?_)
    rw [hnone]
    exact fun _ hkey => absurd hkey List.not_mem_nil
  obtain ⟨workers, hworkers⟩ := hstored
  obtain ⟨saved, hsaved⟩ : ∃ saved : Saved, saved =
      ⟨run, name, .obj (Dict.insert "workers" (.obj workers) run.fields)⟩ := ⟨_, rfl⟩
  have hwrite := (writeRun_eq_ok hnormalized).2 ⟨workers, name, hworkers, hname ▸ hvalid, hsaved⟩
  have hupdate : store.updateRun py directory name untouched true = .ok saved :=
    updateRun_eq_ok.2 ⟨persisted, run, run.toValue, run, hpersisted, hrun, .inl rfl, rfl,
      RunRecord.normalizeRun_of_normalized hnormalized _, hwrite⟩
  have hpath : saved.path = name := by rw [hsaved]
  have hrunSaved : saved.run = run := by rw [hsaved]
  have hcontent : saved.content = .obj (Dict.insert "workers" (.obj workers) run.fields) := by
    rw [hsaved]
  have hreload : store.loadRun py (saved.applyTo directory) name = .ok run :=
    (loadRun_applyTo hpath hcontent hvalid).2 ((normalizeRun_stored_iff hnormalized _ hworkers).2
      ⟨hversion, identified_of_loaded hrun⟩)
  refine ⟨saved, hupdate, hrunSaved, hpath, hreload, updateRun_saved hupdate hpath ?_⟩
  rw [hrunSaved]
  exact hreload

/-- A record of an earlier version, with a worker that has no lifecycle state and a field that is
not known. -/
def legacyFile : Directory := fun path => if path = "a" then some (.obj
  [("name", .str "a"), ("workers", .obj
    [("w", .obj [("status", .str "done"), ("note", .str "kept")])])]) else none

theorem rewritten_of_legacyFile : ∃ run saved,
    RunStore.loadRun plainInterpreter ⟨"/store"⟩ legacyFile "a" = .ok run ∧
      RunStore.updateRun plainInterpreter ⟨"/store"⟩ legacyFile "a" untouched true = .ok saved ∧
      RunStore.loadRun plainInterpreter ⟨"/store"⟩ (saved.applyTo legacyFile) "a" = .ok run := by
  have hload : ∃ run, RunStore.loadRun plainInterpreter ⟨"/store"⟩ legacyFile "a" = .ok run ∧
      run.name = .str "a" := ⟨_, rfl, rfl⟩
  obtain ⟨run, hrun, hname⟩ := hload
  obtain ⟨saved, hsaved, -, -, hreload, -⟩ := rewritten_of_loadRun hrun hname
  exact ⟨run, saved, hrun, hsaved, hreload⟩

/-! ## What is not known -/

/-- The fields of a run that normalising sets or repairs. -/
def runFieldNames : List String :=
  RunRecord.defaultedNames ++ RunRecord.textNames ++ ["workers", "resources", "resource_cleanup"]

lemma lookup_normalizeFields_of_unknown {fields fields' : Fields} {fallbackName : JsonValue}
    {field : String} (h : RunRecord.normalizeFields py fields fallbackName = .ok fields')
    (hfield : field ∉ runFieldNames) : Dict.lookup field fields' = Dict.lookup field fields := by
  rw [runFieldNames, List.mem_append, not_or] at hfield
  obtain ⟨hdefaults, hothers⟩ := hfield
  have hworkers : "workers" ≠ field := fun heq => hothers (heq ▸ List.mem_cons_self)
  have hrepaired : field ∉ ["status", "resources", "resource_cleanup"] := by
    rw [List.mem_cons, not_or]
    refine ⟨fun heq => hdefaults ?_, fun hmem => hothers (List.mem_cons_of_mem _ hmem)⟩
    rw [heq]
    decide
  rw [RunRecord.lookup_normalizeFields h hrepaired, RunRecord.lookup_withDefaults _ hdefaults,
    Dict.lookup_remove_of_ne hworkers]

/-- What is written keeps of the record that was read: in the run the unknown fields that are left
alone, in each of the workers that are still there all of them. -/
structure KeepsUnknown (persisted written : Fields) (leftAlone : String → Prop)
    (keys : List String) : Prop where
  run : ∀ field, leftAlone field → field ∉ runFieldNames →
    Dict.lookup field written = Dict.lookup field persisted
  workers : ∀ key ∈ keys, ∀ fields,
    Dict.lookup key (RunRecord.persistedWorkers persisted) = some (.obj fields) →
      ∃ stored, Dict.lookup key (RunRecord.persistedWorkers written) = some (.obj stored) ∧
        ∀ field, field ∉ workerFieldNames → field ∉ publicWorkerStateFieldNames →
          Dict.lookup field stored = Dict.lookup field fields

/-- A worker that is written over one that was read keeps the unknown fields of that. -/
lemma keeps_storedWorkers {schemaVersion : JsonValue} {entries : List (String × Fields)}
    {workers : List (String × JsonValue)} {fields : Fields} {key : String}
    (hcanonical : ∀ entry ∈ entries, Snapshot.toSnapshot py entry.2 = .ok entry.2)
    (h : entries.mapM (RunRecord.storedWorker py schemaVersion persisted) = .ok workers)
    (hkey : key ∈ entries.map Prod.fst)
    (hbefore : Dict.lookup key (RunRecord.persistedWorkers persisted) = some (.obj fields)) :
    ∃ stored, Dict.lookup key workers = some (.obj stored) ∧
      ∀ field, field ∉ workerFieldNames → field ∉ publicWorkerStateFieldNames →
        Dict.lookup field stored = Dict.lookup field fields := by
  obtain ⟨other, hother, -, stored, hstored, hlookup⟩ := exists_of_lookup_stored h hkey
  refine ⟨stored, hlookup, fun field hfield hpublic => ?_⟩
  rw [hbefore] at hstored
  obtain ⟨unknown, -, -, hkept, hall⟩ :=
    Snapshot.exists_unknown_of_forStorage (hcanonical other hother) hstored
  rw [hall other.2 (hcanonical other hother)] at hstored
  cases hstored
  rw [Dict.lookup_append,
    Snapshot.lookup_identified_of_unknown (hcanonical other hother) hfield]
  exact hkept fields rfl field hfield hpublic

/-- An update keeps what it does not know: of the run what its mutator leaves alone, of each worker
that is still there everything; and a worker that the mutator leaves as it was loaded is saved so.
-/
theorem keepsUnknown_of_updateRun
    (h : store.updateRun py directory name mutator allowCleanupInProgress = .ok saved) :
    ∃ persisted run left written, store.readRunData py directory name = .ok persisted ∧
      store.loadRun py directory name = .ok run ∧ mutator run = .ok left ∧
      saved.content = .obj written ∧
      KeepsUnknown persisted written
        (fun field => Dict.lookup field left.fields = Dict.lookup field run.fields)
        (saved.run.workers.map Prod.fst) ∧
      ∀ record ∈ left.workers.records, record ∈ run.workers → record ∈ saved.run.workers := by
  obtain ⟨persisted, run, left, final, hpersisted, hrun, -, hleft, hfinal, hwrite⟩ :=
    updateRun_eq_ok.1 h
  obtain ⟨hvalid, htruthy⟩ := runPath_of_readRunData hpersisted
  have hnormalized := RunRecord.normalized_normalizeRun htruthy hrun
  have hfinalNormalized := RunRecord.normalized_normalizeRun htruthy hfinal
  obtain ⟨workers, path, hworkers, -, rfl⟩ := (writeRun_eq_ok hfinalNormalized).1 hwrite
  obtain ⟨_, hrunFields, -, -⟩ := RunRecord.normalizeRun_eq_ok.1 hrun
  obtain ⟨entries, hfinalFields, hentries, hnormal⟩ := RunRecord.normalizeRun_eq_ok.1 hfinal
  refine ⟨persisted, run, left, _, hpersisted, loadRun_eq_ok.2 ⟨persisted, hpersisted, hrun⟩,
    hleft, rfl, ⟨fun field hleftAlone hfield => ?_, fun key hkey fields hbefore => ?_⟩,
    fun record hrecord hbefore => ?_⟩
  · have hne : "workers" ≠ field := by
      rintro rfl
      exact hfield (by decide)
    have hremoved : Dict.lookup field (RunValue.ofFields persisted).fields =
        Dict.lookup field persisted := Dict.lookup_remove_of_ne hne persisted
    -- the field goes through two normalisations and the mutator between them
    rw [Dict.lookup_insert_of_ne hne, lookup_normalizeFields_of_unknown hfinalFields hfield,
      hleftAlone, lookup_normalizeFields_of_unknown hrunFields hfield, hremoved]
  · rw [persistedWorkers_insert]
    exact keeps_storedWorkers hfinalNormalized.workers hworkers hkey hbefore
  · rw [(keys_of_workerSnapshots hentries).2] at hrecord
    obtain ⟨entry, hentry, hof⟩ := List.mem_filterMap.1 hrecord
    obtain ⟨worker, hworker, hworkerNormal⟩ := exists_value_of_mem_mapM hnormal hentry
    obtain ⟨key, value⟩ := entry
    cases value with
    | raw value => cases hof
    | record fields =>
      cases hof
      obtain ⟨snapshot, hsnapshot, rfl⟩ := map_eq_ok.1 hworkerNormal
      -- a worker that was loaded is canonical, and is stored as it is
      rw [hnormalized.workers _ hbefore] at hsnapshot
      cases hsnapshot
      exact hworker

theorem keepsUnknown_of_legacyFile : ∃ saved written stored,
    RunStore.updateRun plainInterpreter ⟨"/store"⟩ legacyFile "a" untouched false = .ok saved ∧
      saved.content = .obj written ∧
      Dict.lookup "w" (RunRecord.persistedWorkers written) = some (.obj stored) ∧
      Dict.lookup "note" stored = some (.str "kept") := by
  have hsaved : ∃ saved, RunStore.updateRun plainInterpreter ⟨"/store"⟩ legacyFile "a" untouched
      false = .ok saved ∧ saved.run.workers.map Prod.fst = ["w"] := ⟨_, rfl, rfl⟩
  obtain ⟨saved, hsaved, hkeys⟩ := hsaved
  obtain ⟨persisted, run, left, written, hpersisted, -, -, hwritten, hkept, -⟩ :=
    keepsUnknown_of_updateRun hsaved
  cases hpersisted
  have hkey : "w" ∈ saved.run.workers.map Prod.fst := hkeys ▸ List.mem_cons_self
  obtain ⟨stored, hstored, hunknown⟩ := hkept.workers "w" hkey _ rfl
  exact ⟨saved, written, stored, hsaved, hwritten, hstored, hunknown "note" (by decide) (by decide)⟩

/-! ## Workers that are not hydrated -/

section Snapshots

open Snapshot

variable {value schemaVersion : JsonValue} {workerId : String} {worker migrated : Fields}

/-- Fields as a dictionary, without the order in which they were set. -/
def asDict (fields : Fields) : String → Option JsonValue := fun field => Dict.lookup field fields

/-- What a worker that is not hydrated is stored over: what was stored before, or else itself. -/
def storedOver (value : JsonValue) : Option JsonValue → JsonValue
  | none | some .null => value
  | some persisted => persisted

lemma identified_hydrate (h : hydrate py value workerId schemaVersion = .ok worker) :
    identified worker workerId = worker := by
  rw [identified_eq_self_iff]
  by_cases hkey : workerId = ""
  · exact .inl hkey
  · exact .inr (lookup_id_hydrate hkey h)

/-- Storing a worker as it is comes to the same as hydrating it and storing that over it, errors
included; and what is stored is hydrated to the worker again. -/
theorem forStorageRaw_of_hydrate (h : hydrate py value workerId schemaVersion = .ok worker)
    (persisted : Option JsonValue) :
    asDict <$> forStorageRaw py value workerId schemaVersion persisted =
        asDict <$> forStorage py worker workerId schemaVersion
          (some (storedOver value persisted)) ∧
      ∀ stored, forStorageRaw py value workerId schemaVersion persisted = .ok stored →
        hydrate py (.obj stored) workerId schemaVersion = .ok worker := by
  obtain ⟨fields, runtime, hmigrated, hruntime, hlookup⟩ := exists_runtime_of_hydrate h
  have hcanonical : toSnapshot py worker = .ok worker := by
    obtain ⟨before, -, hsnapshot⟩ := bind_eq_ok.1 h
    obtain ⟨snapshot, -, hsnapshot⟩ := bind_eq_ok.1 hsnapshot
    exact toSnapshot_idem hsnapshot
  have hversion : schemaVersion.isInfinite = false := by
    obtain ⟨_, -, hversion, -⟩ := migrate_eq_ok.1 hmigrated
    exact (succeeds_coercedSchemaVersion py _).1 hversion
  have hmerge : ∀ unknown, asDict (Dict.merge runtime unknown) =
      asDict (Dict.merge worker unknown) := by
    intro unknown
    funext field
    rw [asDict, asDict, Dict.lookup_merge, Dict.lookup_merge, hlookup]
  -- the left side: what was given is migrated, and what was stored only lends its unknown fields
  have hraw : asDict <$> forStorageRaw py value workerId schemaVersion persisted =
      (fun other => asDict (Dict.merge worker (unknownFields other))) <$>
        migrate py (storedOver value persisted) workerId schemaVersion := by
    unfold forStorageRaw
    rw [hmigrated]
    show asDict <$> (canonicalSnapshotFields py fields workerId >>= _) = _
    rw [hruntime]
    by_cases hnone : persisted = none ∨ persisted = some .null
    · have hover : storedOver value persisted = value := by
        rcases hnone with rfl | rfl <;> rfl
      rw [hover, hmigrated]
      rcases hnone with rfl | rfl <;> exact congrArg Except.ok (hmerge _)
    · cases persisted with
      | none => simp at hnone
      | some before =>
        have hover : storedOver value (some before) = before := by
          cases before with
          | null => simp at hnone
          | _ => rfl
        have hover' : asDict <$> (migrate py before workerId schemaVersion >>= fun other =>
            Except.ok (Dict.merge runtime (unknownFields other))) =
              (fun other => asDict (Dict.merge worker (unknownFields other))) <$>
                migrate py before workerId schemaVersion := by
          cases migrate py before workerId schemaVersion with
          | error error => rfl
          | ok other => exact congrArg Except.ok (hmerge _)
        rw [hover]
        cases before with
        | null => simp at hnone
        | _ => exact hover'
  -- the right side comes to the same, since the hydrated worker is its own canonical form
  have hstored : forStorage py worker workerId schemaVersion (some (storedOver value persisted)) =
      (fun other => Dict.merge worker (unknownFields other)) <$>
        migrate py (storedOver value persisted) workerId schemaVersion := by
    have hnull : storedOver value persisted ≠ .null := by
      obtain ⟨_, hobj, -⟩ := migrate_eq_ok.1 hmigrated
      cases persisted with
      | none =>
        rw [storedOver, hobj]
        exact JsonValue.noConfusion
      | some before =>
        cases before with
        | null =>
          rw [storedOver, hobj]
          exact JsonValue.noConfusion
        | _ => exact JsonValue.noConfusion
    unfold forStorage
    rw [recordFields_of_canonical hcanonical, identified_hydrate h]
    cases hover : storedOver value persisted with
    | null => exact absurd hover hnull
    | _ => rfl
  refine ⟨?_, fun stored hstored => ?_⟩
  · rw [hraw, hstored]
    cases migrate py (storedOver value persisted) workerId schemaVersion <;> rfl
  · have hdict : asDict <$> forStorageRaw py value workerId schemaVersion persisted =
        .ok (asDict stored) := by
      rw [hstored]
      rfl
    rw [hraw] at hdict
    obtain ⟨other, -, hother⟩ := map_eq_ok.1 hdict
    obtain ⟨id, -, hid⟩ := exists_id_of_toSnapshot hcanonical
    refine hydrate_of_canonical hcanonical hid (fun hkey => ?_) (fun spec hspec => ?_) hversion
    · rw [lookup_id_hydrate hkey h] at hid
      cases hid
      rfl
    · have hfield := congrFun hother spec.name
      rw [asDict, asDict, Dict.lookup_merge, lookup_unknownFields hspec] at hfield
      exact hfield.symm

/-- A worker of an earlier version, with a field that is not known. -/
def legacyWorker : JsonValue := .obj [("note", .str "kept"), ("status", .str "done")]

theorem forStorageRaw_of_legacyWorker : ∃ worker stored,
    hydrate plainInterpreter legacyWorker "w" (.int 1) = .ok worker ∧
      forStorageRaw plainInterpreter legacyWorker "w" (.int 1) none = .ok stored ∧
      hydrate plainInterpreter (.obj stored) "w" (.int 1) = .ok worker := by
  have hworker : ∃ worker, hydrate plainInterpreter legacyWorker "w" (.int 1) = .ok worker :=
    ⟨_, rfl⟩
  have hstored : ∃ stored,
      forStorageRaw plainInterpreter legacyWorker "w" (.int 1) none = .ok stored := ⟨_, rfl⟩
  obtain ⟨worker, hworker⟩ := hworker
  obtain ⟨stored, hstored⟩ := hstored
  exact ⟨worker, stored, hworker, hstored,
    (forStorageRaw_of_hydrate hworker none).2 stored hstored⟩

/-- Migrating a worker that was migrated changes nothing. -/
theorem migratePersisted_idem
    (h : migratePersisted py value workerId schemaVersion = .ok migrated) :
    migratePersisted py (.obj migrated) workerId schemaVersion = .ok migrated := by
  obtain ⟨fields, hfields, rfl⟩ := map_eq_ok.1 h
  obtain ⟨_, -, hversion, hmigrated⟩ := migrate_eq_ok.1 hfields
  have hmerge : Dict.merge (runtimeFields fields) (unknownFields fields) =
      runtimeFields fields ++ unknownFields fields := by
    refine Dict.merge_of_disjoint fun field hfield => ?_
    obtain ⟨entry, hentry, rfl⟩ := List.mem_map.1 hfield
    have hunknown := of_decide_eq_true (List.mem_filter.1 hentry).2
    rw [runtimeFields, Dict.lookup_filter fun name => decide (name ∈ workerFieldNames)]
    simp [hunknown]
  have hsame : ∀ field, Dict.lookup field (runtimeFields fields ++ unknownFields fields) =
      Dict.lookup field fields := by
    intro field
    rw [Dict.lookup_append, runtimeFields, unknownFields,
      Dict.lookup_filter fun name => decide (name ∈ workerFieldNames),
      Dict.lookup_filter fun name => decide (name ∉ workerFieldNames)]
    by_cases hknown : field ∈ workerFieldNames
    · cases hlookup : Dict.lookup field fields <;> simp [hknown]
    · simp [hknown]
  have hknown : runtimeFields (runtimeFields fields ++ unknownFields fields) =
      runtimeFields fields := by
    rw [runtimeFields, List.filter_append, runtimeFields, unknownFields, List.filter_filter,
      List.filter_filter]
    simp
  have hunknown : unknownFields (runtimeFields fields ++ unknownFields fields) =
      unknownFields fields := by
    rw [unknownFields_append, unknownFields_idem, unknownFields, runtimeFields, List.filter_filter]
    simp
  rw [hmerge]
  refine map_eq_ok.2 ⟨_, migrate_eq_ok.2 ⟨_, rfl, hversion,
    ((migrated_migrateV1 hmigrated).congr hsame).migrateV1⟩, ?_⟩
  rw [hknown, hunknown, hmerge]

theorem migratePersisted_legacyWorker : ∃ migrated,
    migratePersisted plainInterpreter legacyWorker "w" (.int 1) = .ok migrated ∧
      migratePersisted plainInterpreter (.obj migrated) "w" (.int 1) = .ok migrated := by
  have hmigrated : ∃ migrated,
      migratePersisted plainInterpreter legacyWorker "w" (.int 1) = .ok migrated := ⟨_, rfl⟩
  obtain ⟨migrated, hmigrated⟩ := hmigrated
  exact ⟨migrated, hmigrated, migratePersisted_idem hmigrated⟩

end Snapshots

end StoreRoundTrip

end OpencodeSession
