import OpencodeSession.Orchestration.Flow
import OpencodeSession.Properties.CycleSafety
import OpencodeSession.Run.MutationFacts

/-!
# The planner does not stall and does not waver

Two properties of the plan that a start makes before each round.

## No silent stall

A worker that waits for its turn is either ready, or blocked with a reason, or waits for a worker
that is at work.  A worker that is neither ready nor blocked has a dependency that is not done, and
by the seeds of the blockers this dependency is there, has not failed and has a prompt: it waits
too (`awaitsTurn_next`).  The waiting workers without a blocker are therefore never left along some
dependency of each of them, and such a set holds a node at which the search closes a cycle
(`DepthFirstSearch.exists_closing_of_forall_edge`), which is a seed.  So there are none
(`mem_blockers_of_idle`).

## Stability

The transitions of a plan are legal, and planning again after applying them changes nothing: the
blocked workers leave the blockable states, the workers that fail by being blocked were blockers
already, and nothing else of what the analysis reads has changed (`Replanned`).
-/

namespace OpencodeSession

namespace Workers

variable {workers : Workers}

/-! ## No silent stall -/

/-- The worker has a prompt and is queued or scheduled for a retry. -/
def AwaitsTurn (workers : Workers) (id : String) : Prop :=
  ∃ worker, workers.get? id = some worker ∧ worker.hasPrompt = true ∧
    (worker.lifecycleState = .queued ∨ worker.lifecycleState = .activeRetry)

lemma AwaitsTurn.executable {id : String} (h : workers.AwaitsTurn id) :
    workers.executable id = true := by
  obtain ⟨worker, hget, hprompt, hstate⟩ := h
  have hexec : worker.lifecycleState.executable = true := by
    rcases hstate with hstate | hstate <;> rw [hstate] <;> rfl
  simp [Workers.executable, hget, WorkerRecord.isExecutable_iff, hprompt, hexec]

lemma AwaitsTurn.blockable {id : String} (h : workers.AwaitsTurn id) :
    workers.blockable id = true := by
  obtain ⟨worker, hget, hprompt, hstate⟩ := h
  have hmem : worker.lifecycleState ∈ [LifecycleState.queued, .activeWait, .activeRetry] := by
    rcases hstate with hstate | hstate <;> simp [hstate]
  simp only [Workers.blockable, hget]
  exact WorkerRecord.isDependencyBlockable_iff.2 ⟨hprompt, hmem⟩

/-- A dependency that is not done, has not failed and is not missing, in a run where no worker is
at work, either has no prompt or waits for its turn itself. -/
lemma awaitsTurn_of_unfinished
    (hidle : ∀ id worker, workers.get? id = some worker → worker.lifecycleState ≠ .activeWait)
    {d : String} (hdone : workers.dependencyDone d = false)
    (hfailed : workers.failedDependency d = false)
    (hrunnable : workers.nonRunnableDependency d = false) : workers.AwaitsTurn d := by
  obtain ⟨worker, hget⟩ : ∃ worker, workers.get? d = some worker := by
    by_contra hnone
    have hget : workers.get? d = none := by simpa [Option.eq_none_iff_forall_ne_some] using hnone
    simp [failedDependency, hget] at hfailed
  simp only [dependencyDone, failedDependency, nonRunnableDependency, hget] at hdone hfailed hrunnable
  have hstate : worker.lifecycleState = .queued ∨ worker.lifecycleState = .activeRetry := by
    have hwait := hidle d worker hget
    unfold WorkerRecord.status at hdone hfailed
    revert hdone hfailed hwait
    cases worker.lifecycleState <;> decide
  have hrun : worker.status.isRunnable = true := by
    unfold WorkerRecord.status
    rcases hstate with hstate | hstate <;> rw [hstate] <;> decide
  refine ⟨worker, hget, ?_, hstate⟩
  simpa [hrun] using hrunnable

/-- A waiting worker that is neither ready nor blocked depends on another such worker. -/
lemma awaitsTurn_next
    (hready : (analyzeWorkerDependencies workers).readyWorkerIds = [])
    (hidle : ∀ id worker, workers.get? id = some worker → worker.lifecycleState ≠ .activeWait)
    {v : String} (hv : workers.AwaitsTurn v)
    (hfree : v ∉ (analyzeWorkerDependencies workers).blockersByWorkerId.keys) :
    ∃ d, workers.DependsOn v d ∧ workers.AwaitsTurn d ∧
      d ∉ (analyzeWorkerDependencies workers).blockersByWorkerId.keys := by
  have hundone : workers.dependenciesDone v = false := by
    by_contra hdone
    have hmem : v ∈ (analyzeWorkerDependencies workers).readyWorkerIds :=
      mem_readyWorkerIds.2 ⟨hfree, hv.executable, by simpa using hdone⟩
    rw [hready] at hmem
    cases hmem
  obtain ⟨d, hdep, hdone⟩ := dependenciesDone_eq_false_iff.1 hundone
  -- an unfinishable dependency would block the worker itself
  have hfinishable : ¬ workers.Unfinishable d := fun hunfinishable =>
    hfree (mem_blockers_iff.2 ⟨v, hv.blockable, .refl, .inr ⟨d, hdep, hunfinishable⟩⟩)
  obtain ⟨hfailed, hrunnable⟩ := not_or.1 hfinishable
  refine ⟨d, hdep, awaitsTurn_of_unfinished hidle hdone (by simpa using hfailed)
    (by simpa using hrunnable), fun hblocked => ?_⟩
  -- and so would a blocked one
  obtain ⟨z, hz, hchain, hseed⟩ := mem_blockers_iff.1 hblocked
  exact hfree (mem_blockers_iff.2 ⟨z, hz, hchain.head ⟨hv.blockable, hdep⟩, hseed⟩)

/-- No silent stall: if no worker is ready and none is at work, every worker that waits for its turn
has blockers. -/
theorem mem_blockers_of_idle (workers : Workers)
    (hready : (analyzeWorkerDependencies workers).readyWorkerIds = [])
    (hidle : ∀ id worker, workers.get? id = some worker → worker.lifecycleState ≠ .activeWait)
    (id : String) (worker : WorkerRecord) (hworker : workers.get? id = some worker)
    (hprompt : worker.hasPrompt = true)
    (hstate : worker.lifecycleState = .queued ∨ worker.lifecycleState = .activeRetry) :
    id ∈ (analyzeWorkerDependencies workers).blockersByWorkerId.keys := by
  by_contra hfree
  obtain ⟨p, u, x, hp, hux, hx, hwaits, hxfree⟩ :=
    DepthFirstSearch.exists_closing_of_forall_edge
      (fun v hv => mem_sortedIds.2 (isNode_dependencyGraph.1 hv)) length_le_of_nodes
      (S := fun v => workers.AwaitsTurn v ∧
        v ∉ (analyzeWorkerDependencies workers).blockersByWorkerId.keys)
      (fun v hv => awaitsTurn_next hready hidle hv.1 hv.2)
      ⟨⟨worker, hworker, hprompt, hstate⟩, hfree⟩
  -- the node at which the cycle closes lies on it, and is a seed
  have hdrop : x ∈ p.drop (p.idxOf x) := by
    have hlt : p.idxOf x < p.length := List.idxOf_lt_length_iff.2 hx
    rw [List.drop_eq_getElem_cons hlt, List.getElem_idxOf hlt]
    exact List.mem_cons_self
  have hcycle : workers.OnSearchPathCycle x := ⟨p, u, x, hp, hux, hx, hdrop⟩
  exact hxfree (mem_blockers_iff.2 ⟨x, hwaits.blockable, .refl, .inl hcycle⟩)

/-- Two queued workers that wait for each other. -/
def mutualWait : Workers :=
  ((∅ : Workers).set "a" (promptedWorker ⟨"a", WorkerId.nonempty_a⟩ .queued ["b"])).set "b"
    (promptedWorker ⟨"b", WorkerId.nonempty_b⟩ .activeRetry ["a"])

/-- Neither of two workers that wait for each other is ready, and the first one has blockers. -/
theorem mem_blockers_mutualWait :
    "a" ∈ (analyzeWorkerDependencies mutualWait).blockersByWorkerId.keys := by
  have hidle : ∀ entry ∈ mutualWait.entries, entry.2.lifecycleState ≠ .activeWait := by
    decide +kernel
  exact mem_blockers_of_idle mutualWait (by decide +kernel)
    (fun id worker hget => hidle (id, worker) (Dict.mem_entries_iff.2 hget)) "a" _ rfl (by decide)
    (.inl rfl)

/-! ## Stability -/

/-- The workers after the blocked ones among them were marked as blocked: the same workers in the
same order, the blocked ones in the blocked state with their dependencies and prompts as they were,
and the others unchanged. -/
structure Replanned (workers workers' : Workers) : Prop where
  keys : workers'.keys = workers.keys
  blocked : ∀ id ∈ (analyzeWorkerDependencies workers).blockersByWorkerId.keys, ∀ worker,
    workers.get? id = some worker → ∃ worker', workers'.get? id = some worker' ∧
      worker'.lifecycleState = .blockedDependency ∧ worker'.dependencies = worker.dependencies ∧
      worker'.prompt = worker.prompt
  others : ∀ id, id ∉ (analyzeWorkerDependencies workers).blockersByWorkerId.keys →
    workers'.get? id = workers.get? id

namespace Replanned

variable {workers' : Workers} (h : Replanned workers workers') {id : String}
include h

lemma get?_of_mem (hid : id ∈ (analyzeWorkerDependencies workers).blockersByWorkerId.keys) :
    ∃ worker worker', workers.get? id = some worker ∧ workers'.get? id = some worker' ∧
      worker.isDependencyBlockable = true ∧ worker'.lifecycleState = .blockedDependency ∧
      worker'.dependencies = worker.dependencies ∧ worker'.prompt = worker.prompt := by
  have hblockable := blockable_of_mem_blockers hid
  obtain ⟨worker, hget⟩ := Dict.mem_keys_iff.1 (mem_keys_of_blockable hblockable)
  simp only [Workers.blockable, hget] at hblockable
  obtain ⟨worker', hget', hstate, hdependencies, hprompt⟩ := h.blocked id hid worker hget
  exact ⟨worker, worker', hget, hget', hblockable, hstate, hdependencies, hprompt⟩

lemma dependencyGraph_eq : workers'.dependencyGraph = workers.dependencyGraph := by
  funext id
  by_cases hid : id ∈ (analyzeWorkerDependencies workers).blockersByWorkerId.keys
  · obtain ⟨worker, worker', hget, hget', -, -, hdependencies, -⟩ := h.get?_of_mem hid
    simp [dependencyGraph, hget, hget', hdependencies]
  · rw [dependencyGraph, dependencyGraph, h.others id hid]

lemma dependenciesOf_eq : workers'.dependenciesOf = workers.dependenciesOf := by
  funext id
  rw [dependenciesOf, dependenciesOf, h.dependencyGraph_eq]

lemma sortedIds_eq : workers'.sortedIds = workers.sortedIds := by
  rw [sortedIds, sortedIds, h.keys]

lemma dependsOn_iff {a b : String} : workers'.DependsOn a b ↔ workers.DependsOn a b := by
  rw [DependsOn, DependsOn, h.dependenciesOf_eq]

lemma onSearchPathCycle_iff {z : String} :
    workers'.OnSearchPathCycle z ↔ workers.OnSearchPathCycle z :=
  onSearchPathCycle_congr h.keys h.dependencyGraph_eq

lemma blockable_iff : workers'.blockable id = true ↔ workers.blockable id = true ∧
    id ∉ (analyzeWorkerDependencies workers).blockersByWorkerId.keys := by
  by_cases hid : id ∈ (analyzeWorkerDependencies workers).blockersByWorkerId.keys
  · obtain ⟨worker, worker', -, hget', -, hstate, -, -⟩ := h.get?_of_mem hid
    have hnot : worker'.isDependencyBlockable = false := by
      rw [Bool.eq_false_iff, ne_eq, WorkerRecord.isDependencyBlockable_iff, hstate]
      simp
    simp [Workers.blockable, hget', hnot, hid]
  · simp [Workers.blockable, h.others id hid, hid]

lemma executable_eq_false (hid : id ∈ (analyzeWorkerDependencies workers).blockersByWorkerId.keys) :
    workers'.executable id = false := by
  obtain ⟨worker, worker', -, hget', -, hstate, -, -⟩ := h.get?_of_mem hid
  have hexec : worker'.lifecycleState.executable = false := by
    rw [hstate]
    rfl
  simp [Workers.executable, hget', WorkerRecord.isExecutable, hexec]

lemma dependencyDone_eq : workers'.dependencyDone id = workers.dependencyDone id := by
  by_cases hid : id ∈ (analyzeWorkerDependencies workers).blockersByWorkerId.keys
  · obtain ⟨worker, worker', hget, hget', hblockable, hstate, -, -⟩ := h.get?_of_mem hid
    have hbefore : worker.status ≠ .done := by
      have hmem := (WorkerRecord.isDependencyBlockable_iff.1 hblockable).2
      unfold WorkerRecord.status
      revert hmem
      cases worker.lifecycleState <;> decide
    have hafter : worker'.status ≠ .done := by
      unfold WorkerRecord.status
      rw [hstate]
      decide
    simp [dependencyDone, hget, hget', hbefore, hafter]
  · rw [dependencyDone, dependencyDone, h.others id hid]

lemma unfinishable_or (hunfinishable : workers'.Unfinishable id) :
    workers.Unfinishable id ∨
      id ∈ (analyzeWorkerDependencies workers).blockersByWorkerId.keys := by
  by_cases hid : id ∈ (analyzeWorkerDependencies workers).blockersByWorkerId.keys
  · exact .inr hid
  · simp only [Unfinishable, failedDependency, nonRunnableDependency, h.others id hid]
      at hunfinishable
    exact .inl hunfinishable

lemma not_mem_blockers :
    id ∉ (analyzeWorkerDependencies workers').blockersByWorkerId.keys := by
  intro hid
  obtain ⟨z, hz, -, hseed⟩ := mem_blockers_iff.1 hid
  obtain ⟨hblockable, hfree⟩ := h.blockable_iff.1 hz
  refine hfree ?_
  rcases hseed with hcycle | ⟨d, hdep, hunfinishable⟩
  · exact mem_blockers_iff.2 ⟨z, hblockable, .refl, .inl (h.onSearchPathCycle_iff.1 hcycle)⟩
  · have hdep := h.dependsOn_iff.1 hdep
    rcases h.unfinishable_or hunfinishable with hbefore | hblocked
    · exact mem_blockers_iff.2 ⟨z, hblockable, .refl, .inr ⟨d, hdep, hbefore⟩⟩
    · obtain ⟨y, hy, hchain, hseed⟩ := mem_blockers_iff.1 hblocked
      exact mem_blockers_iff.2 ⟨y, hy, hchain.head ⟨hblockable, hdep⟩, hseed⟩

lemma blockers_eq_nil : (analyzeWorkerDependencies workers').blockersByWorkerId.keys = [] :=
  List.eq_nil_iff_forall_not_mem.2 fun _ => h.not_mem_blockers

lemma readyWorkerIds_eq : (analyzeWorkerDependencies workers').readyWorkerIds =
    (analyzeWorkerDependencies workers).readyWorkerIds := by
  show workers'.readyWorkerIds (analyzeWorkerDependencies workers').blockersByWorkerId =
    workers.readyWorkerIds (analyzeWorkerDependencies workers).blockersByWorkerId
  rw [readyWorkerIds, readyWorkerIds, h.sortedIds_eq, h.blockers_eq_nil]
  refine List.filter_congr fun id _ => ?_
  have hdone : workers'.dependenciesDone id = workers.dependenciesDone id := by
    rw [dependenciesDone, dependenciesDone, h.dependenciesOf_eq]
    exact congrArg _ (funext fun _ => h.dependencyDone_eq)
  by_cases hid : id ∈ (analyzeWorkerDependencies workers).blockersByWorkerId.keys
  · simp [hid, h.executable_eq_false hid]
  · have hexec : workers'.executable id = workers.executable id := by
      rw [executable, executable, h.others id hid]
    simp [hid, hexec, hdone]

end Replanned

end Workers

/-! ## Planning again -/

namespace Flow

variable {workers : WorkerMap} {transition : WorkerTransition}

lemma mem_dependencyBlockedTransitions :
    transition ∈ (planStep workers).dependencyBlockedTransitions ↔
      ∃ id ∈ (analyzeWorkerDependencies workers.byId).blockersByWorkerId.keys, ∃ worker,
        workers.get? id = some worker ∧ transition = worker.markDependencyBlocked
          (((analyzeWorkerDependencies workers.byId).blockersByWorkerId.get? id).getD []) := by
  simp only [planStep, List.mem_filterMap, List.mem_insertionSort, Option.map_eq_some_iff]
  constructor
  · rintro ⟨id, hid, worker, hget, rfl⟩
    exact ⟨id, hid, worker, hget, rfl⟩
  · rintro ⟨id, hid, worker, hget, rfl⟩
    exact ⟨id, hid, worker, hget, rfl⟩

/-- A transition of the plan is about a blocked worker, which may be marked as blocked. -/
lemma of_mem_dependencyBlockedTransitions
    (h : transition ∈ (planStep workers).dependencyBlockedTransitions) :
    ∃ worker blockers, workers.get? transition.workerId.value = some worker ∧
      transition.workerId.value ∈
        (analyzeWorkerDependencies workers.byId).blockersByWorkerId.keys ∧
      transition = worker.markDependencyBlocked blockers ∧
      worker.isDependencyBlockable = true := by
  obtain ⟨id, hid, worker, hget, rfl⟩ := mem_dependencyBlockedTransitions.1 h
  have hworkerId : worker.id.value = id := WorkerMap.id_of_get? hget
  have hblockable : worker.isDependencyBlockable = true := by
    have hblockable := Workers.blockable_of_mem_blockers hid
    have hbyId : workers.byId.get? id = some worker := hget
    simpa only [Workers.blockable, hbyId] using hblockable
  refine ⟨worker, _, ?_, ?_, rfl, hblockable⟩
  · show workers.get? worker.id.value = some worker
    rw [hworkerId]
    exact hget
  · show worker.id.value ∈ _
    rw [hworkerId]
    exact hid

lemma ne_snapshotApplied_of_mem
    (h : transition ∈ (planStep workers).dependencyBlockedTransitions) (patch : SnapshotPatch) :
    transition.payload ≠ .snapshotApplied patch := by
  obtain ⟨worker, blockers, -, -, rfl, -⟩ := of_mem_dependencyBlockedTransitions h
  nofun

lemma nodup_dependencyBlockedTransitions (workers : WorkerMap) :
    ((planStep workers).dependencyBlockedTransitions.map WorkerTransition.workerId).Nodup := by
  have hnodup : ((analyzeWorkerDependencies workers.byId).blockersByWorkerId.keys.insertionSort
      (· ≤ ·)).Nodup :=
    (List.perm_insertionSort _ _).nodup_iff.2 (Dict.keys_nodup _)
  show (List.map _ (List.filterMap _ _)).Nodup
  rw [List.map_filterMap]
  refine hnodup.filterMap fun id id' workerId hid hid' => ?_
  -- a worker is stored under its identifier, so the identifier tells where it was found
  obtain ⟨transition, htransition, rfl⟩ := Option.map_eq_some_iff.1 hid
  obtain ⟨worker, hget, rfl⟩ := Option.map_eq_some_iff.1 htransition
  obtain ⟨transition', htransition', heq⟩ := Option.map_eq_some_iff.1 hid'
  obtain ⟨worker', hget', rfl⟩ := Option.map_eq_some_iff.1 htransition'
  have hsame : worker'.id = worker.id := heq
  rw [← WorkerMap.id_of_get? hget, ← WorkerMap.id_of_get? hget', hsame]

lemma transitionIsLegal_markDependencyBlocked {worker : WorkerRecord} {blockers : List String}
    (h : worker.isDependencyBlockable = true) :
    worker.transitionIsLegal (worker.markDependencyBlocked blockers) = true := by
  have hmem := (WorkerRecord.isDependencyBlockable_iff.1 h).2
  simp only [WorkerRecord.transitionIsLegal, Bool.or_eq_true, decide_eq_true_eq]
  exact .inr hmem

lemma not_acceptedAbort_of_blockable {worker : WorkerRecord}
    (h : worker.isDependencyBlockable = true) : worker.acceptedAbort = false := by
  have hmem := (WorkerRecord.isDependencyBlockable_iff.1 h).2
  have hstatus : worker.lifecycleState.status ≠ .aborted := by
    revert hmem
    cases worker.lifecycleState <;> decide
  rw [Bool.eq_false_iff, ne_eq, WorkerRecord.acceptedAbort_iff]
  exact fun haccepted => hstatus haccepted.2

/-- The transitions of a plan leave what `Replanned` says. -/
lemma replanned_of_applyTransitions {run run' : Run}
    (h : run.applyTransitions (planStep run.workers).dependencyBlockedTransitions = .ok run') :
    Workers.Replanned run.workers.byId run'.workers.byId := by
  have hsnapshot : ∀ t ∈ (planStep run.workers).dependencyBlockedTransitions, ∀ patch,
      t.payload ≠ .snapshotApplied patch := fun t ht => ne_snapshotApplied_of_mem ht
  refine ⟨?_, fun id hid worker hget => ?_, fun id hid => ?_⟩
  · refine Run.ids_applyTransitions hsnapshot h fun t ht => ?_
    obtain ⟨worker, blockers, hget, -, -, -⟩ := of_mem_dependencyBlockedTransitions ht
    exact WorkerMap.mem_ids_iff.2 ⟨worker, hget⟩
  · have hbyId : run.workers.get? id = some worker := hget
    have hworkerId : worker.id.value = id := WorkerMap.id_of_get? hbyId
    have hmem := mem_dependencyBlockedTransitions.2 ⟨id, hid, worker, hbyId, rfl⟩
    obtain ⟨-, hget'⟩ := Run.get?_applyTransitions_of_mem hsnapshot
      (nodup_dependencyBlockedTransitions run.workers) h hmem
    have hlatest : run.latestWorker worker.id = worker := by
      refine Run.latestWorker_of_get? ?_
      rw [hworkerId]
      exact hbyId
    simp only [WorkerRecord.markDependencyBlocked, hlatest, hworkerId] at hget'
    have hblockable : worker.isDependencyBlockable = true := by
      have hblockable := Workers.blockable_of_mem_blockers hid
      simpa only [Workers.blockable, hget] using hblockable
    have hconfiguration := WorkerRecord.configuration_reduce worker
      (worker.markDependencyBlocked
        (((analyzeWorkerDependencies run.workers.byId).blockersByWorkerId.get? id).getD []))
    refine ⟨_, hget', ?_, congrArg WorkerRecord.Configuration.dependencies hconfiguration,
      congrArg WorkerRecord.Configuration.prompt hconfiguration⟩
    have haccepted : worker.acceptedAbort = false := not_acceptedAbort_of_blockable hblockable
    exact WorkerRecord.lifecycleState_reduce (by simp) haccepted
  · refine Run.get?_applyTransitions_of_notMem hsnapshot h fun t ht heq => hid ?_
    obtain ⟨worker, blockers, -, hmem, -, -⟩ := of_mem_dependencyBlockedTransitions ht
    rwa [heq] at hmem

/-- Plan stability: the transitions of a plan are legal for the workers they name, they can all be
applied, and planning again after that marks no worker and selects the same one. -/
theorem planStep_stable (run : Run) :
    (∀ transition ∈ (planStep run.workers).dependencyBlockedTransitions, ∃ worker,
      run.workers.get? transition.workerId.value = some worker ∧
        worker.transitionIsLegal transition = true) ∧
    ∃ run', run.applyTransitions (planStep run.workers).dependencyBlockedTransitions = .ok run' ∧
      (planStep run'.workers).dependencyBlockedTransitions = [] ∧
      (planStep run'.workers).workerId = (planStep run.workers).workerId := by
  have hlegal : ∀ t ∈ (planStep run.workers).dependencyBlockedTransitions, ∃ worker,
      run.workers.get? t.workerId.value = some worker ∧ worker.transitionIsLegal t = true := by
    intro t ht
    obtain ⟨worker, blockers, hget, -, rfl, hblockable⟩ := of_mem_dependencyBlockedTransitions ht
    exact ⟨worker, hget, transitionIsLegal_markDependencyBlocked hblockable⟩
  have hlatest : ∀ t ∈ (planStep run.workers).dependencyBlockedTransitions,
      (run.latestWorker t.workerId).transitionIsLegal t = true := by
    intro t ht
    obtain ⟨worker, hget, hworker⟩ := hlegal t ht
    rwa [Run.latestWorker_of_get? hget]
  obtain ⟨run', hrun'⟩ := Run.applyTransitions_of_legal
    (fun t ht => ne_snapshotApplied_of_mem ht)
    (nodup_dependencyBlockedTransitions run.workers) hlatest
  have hreplanned := replanned_of_applyTransitions hrun'
  refine ⟨hlegal, run', hrun', ?_, ?_⟩
  · rw [planStep, hreplanned.blockers_eq_nil]
    rfl
  · exact congrArg List.head? hreplanned.readyWorkerIds_eq

end Flow

end OpencodeSession
