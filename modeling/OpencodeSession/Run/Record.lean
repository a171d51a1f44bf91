import OpencodeSession.Worker.Dependencies

/-!
# Run records

A run as `load_run` returns it: the fields the modelled functions read or write, with the workers
hydrated.  The identity repair of loading stores every worker under its own identifier, and every
write keeps it there, so `WorkerMap` carries that fact as a field and a map with a misplaced worker
cannot be built.

The two journals are raw JSON, absent when nothing is pending, because the journal code tolerates
any value in their place.
-/

namespace OpencodeSession

/-! ## Workers by identifier -/

/-- The workers of a run, each stored under its own identifier. -/
structure WorkerMap where
  /-- The workers as the dependency analysis takes them. -/
  byId : Workers
  /-- A worker is stored under its own identifier. -/
  keyed : ∀ key worker, byId.get? key = some worker → worker.id.value = key

namespace WorkerMap

variable {workers : WorkerMap} {worker worker' : WorkerRecord} {id : String}

/-- The map without workers. -/
def empty : WorkerMap := ⟨∅, fun _ _ h => by simp at h⟩

instance : Inhabited WorkerMap := ⟨empty⟩

/-- The worker with an identifier. -/
def get? (workers : WorkerMap) (id : String) : Option WorkerRecord := workers.byId.get? id

/-- The identifiers, in the order in which the workers were added. -/
def ids (workers : WorkerMap) : List String := workers.byId.keys

/-- The workers, in the order in which they were added. -/
def toList (workers : WorkerMap) : List WorkerRecord := workers.byId.values

/-- Store a worker under its identifier. -/
def set (workers : WorkerMap) (worker : WorkerRecord) : WorkerMap where
  byId := workers.byId.set worker.id.value worker
  keyed key stored h := by
    rw [Dict.get?_set] at h
    split_ifs at h with hkey
    · rw [← Option.some.inj h, hkey]
    · exact workers.keyed key stored h

@[ext] lemma ext_byId {workers workers' : WorkerMap} (h : workers.byId = workers'.byId) :
    workers = workers' := by
  cases workers
  cases workers'
  cases h
  rfl

lemma id_of_get? (h : workers.get? id = some worker) : worker.id.value = id :=
  workers.keyed id worker h

@[simp] lemma get?_set_self : (workers.set worker).get? worker.id.value = some worker :=
  Dict.get?_set_self _ _ _

lemma get?_set : (workers.set worker).get? id =
    if worker.id.value = id then some worker else workers.get? id :=
  Dict.get?_set _ _ _ _

lemma get?_set_of_ne (h : worker.id.value ≠ id) : (workers.set worker).get? id = workers.get? id :=
  Dict.get?_set_of_ne h _ _

@[simp] lemma mem_ids_set : id ∈ (workers.set worker).ids ↔ id = worker.id.value ∨ id ∈ workers.ids :=
  Dict.mem_keys_set

lemma ids_set_of_mem (h : worker.id.value ∈ workers.ids) : (workers.set worker).ids = workers.ids :=
  Dict.keys_set_of_mem h

lemma mem_ids_iff : id ∈ workers.ids ↔ ∃ worker, workers.get? id = some worker := Dict.mem_keys_iff

lemma mem_toList_iff : worker ∈ workers.toList ↔ workers.get? worker.id.value = some worker := by
  constructor
  · intro h
    obtain ⟨⟨key, stored⟩, hmem, rfl⟩ := List.mem_map.1 h
    have hget := Dict.mem_entries_iff.1 hmem
    rw [workers.keyed key stored hget]
    exact hget
  · intro h
    exact List.mem_map.2 ⟨(worker.id.value, worker), Dict.mem_entries_iff.2 h, rfl⟩

end WorkerMap

/-! ## The record -/

/-- The journals of remote mutations. -/
inductive JournalField where
  /-- `worker_session_journal`. -/
  | workerSession
  /-- `remote_mutation_journal`. -/
  | remoteMutation
  deriving DecidableEq

/-- `RunRecord`. -/
structure Run where
  name : String
  directory : String
  serverUrl : String
  status : String := "queued"
  outputRefs : List String := []
  workers : WorkerMap := .empty
  workerSessionJournal : Option JsonValue := none
  remoteMutationJournal : Option JsonValue := none
  resourceCleanup : Option JsonValue := none

/-- `DEFAULT_SERVER_URL`. -/
def defaultServerUrl : String := "http://127.0.0.1:4096"

namespace Run

variable {run : Run} {field field' : JournalField} {entries : Option JsonValue}

/-- `new_run_record`. -/
def new (name directory serverUrl : String) : Run where
  name := name
  directory := directory
  serverUrl := serverUrl

/-- `normalize_run`, which every update applies to what the mutator left. -/
def normalize (run : Run) : Run :=
  { run with
    serverUrl := if run.serverUrl = "" then defaultServerUrl else run.serverUrl
    status := shortStatus run.status }

/-- Whether a cleanup of the run's resources has fenced the record off from updates. -/
def cleanupInProgress (run : Run) : Bool :=
  match run.resourceCleanup with
  | some cleanup => cleanup.isObj && (cleanup.get "status").pyEq (.str "in_progress")
  | none => false

/-- A journal of the run, if the field is there. -/
def journal (run : Run) : JournalField → Option JsonValue
  | .workerSession => run.workerSessionJournal
  | .remoteMutation => run.remoteMutationJournal

/-- Replace or remove a journal of the run. -/
def setJournal (run : Run) (entries : Option JsonValue) : JournalField → Run
  | .workerSession => { run with workerSessionJournal := entries }
  | .remoteMutation => { run with remoteMutationJournal := entries }

@[simp] lemma workers_normalize : run.normalize.workers = run.workers := rfl

@[simp] lemma journal_normalize : run.normalize.journal field = run.journal field := by
  cases field <;> rfl

@[simp] lemma workers_setJournal : (run.setJournal entries field).workers = run.workers := by
  cases field <;> rfl

@[simp] lemma journal_setJournal_self : (run.setJournal entries field).journal field = entries := by
  cases field <;> rfl

lemma journal_setJournal_of_ne (h : field' ≠ field) :
    (run.setJournal entries field').journal field = run.journal field := by
  cases field <;> cases field' <;> first | rfl | exact absurd rfl h

@[simp] lemma journal_with_workers (workers : WorkerMap) :
    ({ run with workers := workers } : Run).journal field = run.journal field := by
  cases field <;> rfl

/-! ## Summary -/

/-- `aggregate_run_status`: done if every worker is, else the first of the most pressing. -/
def aggregateStatus (statuses : List WorkerStatus) : Option WorkerStatus :=
  if statuses.isEmpty then none
  else if statuses.all (· = .done) then some .done
  else (statuses.filter (· ≠ .done)).foldl
    (fun best status => match best with
      | none => some status
      | some best => if best.priority < status.priority then some status else some best) none

/-- `run_status_from_workers`, counting the unprompted workers when there are no others. -/
def statusFromWorkers (workers : WorkerMap) : Option WorkerStatus :=
  let prompted := workers.toList.filter WorkerRecord.hasPrompt
  let counted := if prompted.isEmpty then workers.toList else prompted
  aggregateStatus (counted.map WorkerRecord.status)

/-- The reference of a worker's output, with the worker in place of the `assistant` prefix. -/
def qualifiedOutputRef (workerId ref : String) : String :=
  let chars := ref.toList
  if "assistant:".toList.isPrefixOf chars then
    let ref := String.ofList (chars.drop "assistant:".length)
    s!"{workerId}:{ref}"
  else s!"{workerId}:{ref}"

/-- `worker_output_refs_in_dependency_order`. -/
def outputRefsInDependencyOrder (workers : WorkerMap) : List String :=
  (analyzeWorkerDependencies workers.byId).workerIdsInDependencyOrder.flatMap fun id =>
    match workers.get? id with
    | some worker =>
      if worker.status = .done then worker.outputRefs.map (qualifiedOutputRef worker.id.value)
      else []
    | none => []

/-- `refresh_orchestration_run_summary`. -/
def refreshSummary (run : Run) : Run :=
  { run with
    outputRefs := outputRefsInDependencyOrder run.workers
    status := ((statusFromWorkers run.workers).map WorkerStatus.name).getD run.status }

@[simp] lemma workers_refreshSummary : run.refreshSummary.workers = run.workers := rfl

@[simp] lemma journal_refreshSummary : run.refreshSummary.journal field = run.journal field := by
  cases field <;> rfl

end Run

end OpencodeSession
