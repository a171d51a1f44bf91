import Mathlib.Data.List.Sort
import OpencodeSession.Framework.DepthFirstSearch
import OpencodeSession.Framework.Propagation
import OpencodeSession.Worker.Record

/-!
# The dependency analysis

From the workers of a run, the analysis computes the order of the workers along their
dependencies, the workers that are ready to execute, and why the others are blocked.  A blocker
starts at a worker that lies on a reported cycle or has a dependency that cannot finish, and
spreads to the prompted workers in a blockable state that depend on a blocked one.

The recursion of the source is `DepthFirstSearch.visit`, with one unit of fuel for each worker, and
its two propagation loops are `Propagation.Rule.propagate`.  Where the source goes through a set,
whose order is not specified, the model goes through the list the set was made from.
-/

namespace OpencodeSession

/-- The workers of a run, by identifier. -/
abbrev Workers : Type := Dict String WorkerRecord

/-- The blockers of a number of workers. -/
abbrev BlockerMap : Type := Dict String (List String)

namespace Workers

variable (workers : Workers)

/-- `sorted(workers)`. -/
def sortedIds : List String := workers.keys.insertionSort (· ≤ ·)

/-- `_worker_dependency_graph`. -/
def dependencyGraph (id : String) : Option (List String) :=
  (workers.get? id).map WorkerRecord.dependencies

/-- The dependencies of a worker, none for an unknown one. -/
def dependenciesOf (id : String) : List String := (workers.dependencyGraph id).getD []

/-- `_dependency_order_and_cycles`. -/
def dependencyOrderAndCycles : DepthFirstSearch.State String :=
  DepthFirstSearch.search workers.dependencyGraph workers.keys.length workers.sortedIds

/-- `_dependency_blockable_prompted_worker` of the worker with an identifier. -/
def blockable (id : String) : Bool :=
  match workers.get? id with
  | some worker => worker.isDependencyBlockable
  | none => false

/-- `_non_runnable_dependency`: a worker that could run but has no prompt. -/
def nonRunnableDependency (id : String) : Bool :=
  match workers.get? id with
  | some worker => worker.status.isRunnable && !worker.hasPrompt
  | none => false

/-- Whether a dependency is missing or has failed. -/
def failedDependency (id : String) : Bool :=
  match workers.get? id with
  | some worker => worker.status.isFailedDependency
  | none => true

/-- Whether a dependency is done. -/
def dependencyDone (id : String) : Bool :=
  match workers.get? id with
  | some worker => worker.status = .done
  | none => false

/-- `_add_blocker`. -/
def addBlocker (blockers : BlockerMap) (id blocker : String) : BlockerMap :=
  blockers.set id ((blockers.get? id).getD [] ++ [blocker])

/-- The name of the blocker that a cycle gives to its workers. -/
def cycleBlocker (cycle : List String) : String :=
  let path := "->".intercalate cycle
  s!"dependency-cycle:{path}"

/-- The blockers that one cycle gives. -/
def addCycleBlockers (blockers : BlockerMap) (cycle : List String) : BlockerMap :=
  cycle.dropLast.foldl
    (fun blockers id =>
      if workers.blockable id then addBlocker blockers id (cycleBlocker cycle) else blockers)
    blockers

/-- `_invalid_graph_blocker_seeds`. -/
def invalidGraphBlockerSeeds (cycles : List (List String)) : BlockerMap :=
  workers.sortedIds.foldl
    (fun blockers id =>
      if id ∈ blockers.keys then blockers
      else if workers.blockable id then
        let found := ((workers.dependenciesOf id).filter workers.nonRunnableDependency).map
          fun dependency => s!"dependency-not-runnable:{dependency}"
        if found.isEmpty then blockers else blockers.set id found
      else blockers)
    (cycles.foldl workers.addCycleBlockers ∅)

/-- `_dependency_blocker_seeds`. -/
def dependencyBlockerSeeds : BlockerMap :=
  workers.sortedIds.foldl
    (fun blockers id =>
      if workers.blockable id then
        let found := ((workers.dependenciesOf id).filter workers.failedDependency).map
          fun dependency => s!"dependency:{dependency}"
        if found.isEmpty then blockers else blockers.set id found
      else blockers)
    ∅

/-- What `_propagate_blocker_maps` propagates. -/
def propagationRule : Propagation.Rule String String where
  nodes := workers.sortedIds
  eligible := workers.blockable
  sources := workers.dependenciesOf
  label dependency := s!"dependency:{dependency}"

/-- `_propagate_blocker_maps`, on the maps in the order of their kinds. -/
def propagateBlockerMaps (seeds : List BlockerMap) : List BlockerMap :=
  workers.propagationRule.propagate (workers.propagationRule.rounds seeds) seeds

/-- Blockers with more blockers of one worker, each once. -/
def mergeBlockers (merged : BlockerMap) (entry : String × List String) : BlockerMap :=
  merged.set entry.1 (entry.2.foldl
    (fun blockers blocker => if blocker ∈ blockers then blockers else blockers ++ [blocker])
    ((merged.get? entry.1).getD []))

/-- `_merge_blocker_maps`. -/
def mergeBlockerMaps (maps : List BlockerMap) : BlockerMap :=
  maps.foldl (fun merged map => map.entries.foldl mergeBlockers merged) ∅

/-- `_dependencies_done`. -/
def dependenciesDone (id : String) : Bool :=
  (workers.dependenciesOf id).all workers.dependencyDone

/-- `_runnable_prompted_worker` of the worker with an identifier. -/
def executable (id : String) : Bool :=
  match workers.get? id with
  | some worker => worker.isExecutable
  | none => false

/-- `_ready_worker_ids`. -/
def readyWorkerIds (blockers : BlockerMap) : List String :=
  workers.sortedIds.filter fun id =>
    id ∉ blockers.keys && (workers.executable id && workers.dependenciesDone id)

end Workers

/-- `WorkerDependencyAnalysis`. -/
structure WorkerDependencyAnalysis where
  workerIdsInDependencyOrder : List String
  readyWorkerIds : List String
  blockersByWorkerId : BlockerMap
  invalidGraphBlockersByWorkerId : BlockerMap
  dependencyBlockersByWorkerId : BlockerMap

/-- `analyze_worker_dependencies`. -/
def analyzeWorkerDependencies (workers : Workers) : WorkerDependencyAnalysis :=
  let search := workers.dependencyOrderAndCycles
  let propagated := workers.propagateBlockerMaps
    [workers.invalidGraphBlockerSeeds search.cycles, workers.dependencyBlockerSeeds]
  let blockers := Workers.mergeBlockerMaps propagated
  { workerIdsInDependencyOrder := search.ordered
    readyWorkerIds := workers.readyWorkerIds blockers
    blockersByWorkerId := blockers
    invalidGraphBlockersByWorkerId := propagated.getD 0 ∅
    dependencyBlockersByWorkerId := propagated.getD 1 ∅ }

/-! ## What the analysis computes -/

namespace Workers

variable {workers : Workers}

lemma mem_sortedIds {id : String} : id ∈ workers.sortedIds ↔ id ∈ workers.keys :=
  List.mem_insertionSort _

lemma isNode_dependencyGraph {id : String} :
    DepthFirstSearch.IsNode workers.dependencyGraph id ↔ id ∈ workers.keys := by
  simp [DepthFirstSearch.IsNode, dependencyGraph, Dict.mem_keys_iff, Option.isSome_iff_exists]

lemma length_le_of_nodes (l : List String) (hnodup : l.Nodup)
    (hnodes : ∀ y ∈ l, DepthFirstSearch.IsNode workers.dependencyGraph y) :
    l.length ≤ workers.keys.length := by
  refine (List.subperm_of_subset hnodup fun y hy => ?_).length_le
  exact isNode_dependencyGraph.1 (hnodes y hy)

theorem mem_dependencyOrder {id : String} :
    id ∈ workers.dependencyOrderAndCycles.ordered ↔ id ∈ workers.keys := by
  rw [dependencyOrderAndCycles, DepthFirstSearch.mem_ordered_search_iff
    (fun v hv => mem_sortedIds.2 (isNode_dependencyGraph.1 hv)) length_le_of_nodes]
  exact isNode_dependencyGraph

lemma mem_keys_of_blockable {id : String} (h : workers.blockable id = true) :
    id ∈ workers.keys := by
  unfold blockable at h
  split at h
  · next hget => exact Dict.mem_keys_of_get? hget
  · cases h

/-- A fold that may set entries of the elements of a list, and of no other keys. -/
lemma mem_keys_foldl {step : BlockerMap → String → BlockerMap} {P : String → Prop}
    (hstep : ∀ blockers id v, v ∈ (step blockers id).keys ↔
      v ∈ blockers.keys ∨ (v = id ∧ P id)) (ids : List String) (blockers : BlockerMap)
    (v : String) :
    v ∈ (ids.foldl step blockers).keys ↔ v ∈ blockers.keys ∨ (v ∈ ids ∧ P v) := by
  induction ids generalizing blockers with
  | nil => simp
  | cons id ids ih =>
    rw [List.foldl_cons, ih, hstep, List.mem_cons]
    constructor
    · rintro ((h | ⟨rfl, h⟩) | ⟨h, h'⟩)
      · exact .inl h
      · exact .inr ⟨.inl rfl, h⟩
      · exact .inr ⟨.inr h, h'⟩
    · rintro (h | ⟨rfl | h, h'⟩)
      · exact .inl (.inl h)
      · exact .inl (.inr ⟨rfl, h'⟩)
      · exact .inr ⟨h, h'⟩

lemma mem_keys_addCycleBlockers {blockers : BlockerMap} {cycle : List String} {v : String} :
    v ∈ (workers.addCycleBlockers blockers cycle).keys ↔
      v ∈ blockers.keys ∨ (v ∈ cycle.dropLast ∧ workers.blockable v = true) := by
  refine mem_keys_foldl (P := fun id => workers.blockable id = true) ?_ _ _ _
  intro blockers id v
  by_cases h : workers.blockable id = true
  · simp [h, addBlocker, or_comm]
  · simp [h]

/-- The workers with an invalid-graph seed: those on a reported cycle and those with a dependency
that has no prompt. -/
lemma mem_keys_invalidGraphBlockerSeeds {cycles : List (List String)} {v : String} :
    v ∈ (workers.invalidGraphBlockerSeeds cycles).keys ↔
      workers.blockable v = true ∧ ((∃ cycle ∈ cycles, v ∈ cycle.dropLast) ∨
        ∃ d ∈ workers.dependenciesOf v, workers.nonRunnableDependency d = true) := by
  -- the workers on the reported cycles are blocked one cycle after the other
  have hcycles : ∀ (cycles : List (List String)) (blockers : BlockerMap),
      v ∈ (cycles.foldl workers.addCycleBlockers blockers).keys ↔
        v ∈ blockers.keys ∨
          (workers.blockable v = true ∧ ∃ cycle ∈ cycles, v ∈ cycle.dropLast) := by
    intro cycles
    induction cycles with
    | nil => simp
    | cons cycle cycles ih =>
      intro blockers
      rw [List.foldl_cons, ih, mem_keys_addCycleBlockers]
      simp only [List.mem_cons, exists_eq_or_imp]
      tauto
  unfold invalidGraphBlockerSeeds
  rw [mem_keys_foldl (P := fun id => workers.blockable id = true ∧
    ∃ d ∈ workers.dependenciesOf id, workers.nonRunnableDependency d = true), hcycles]
  · simp only [mem_sortedIds]
    constructor
    · rintro ((h | h) | h)
      · cases h
      · exact ⟨h.1, .inl h.2⟩
      · exact ⟨h.2.1, .inr h.2.2⟩
    · rintro ⟨hblockable, h | h⟩
      · exact .inl (.inr ⟨hblockable, h⟩)
      · exact .inr ⟨mem_keys_of_blockable hblockable, hblockable, h⟩
  · intro blockers id v
    -- a worker that is blocked by a cycle already is not looked at again
    by_cases hmem : id ∈ blockers.keys
    · rw [if_pos hmem]
      exact ⟨.inl, fun h => h.elim (fun h => h) fun h => h.1 ▸ hmem⟩
    · rw [if_neg hmem]
      by_cases hblockable : workers.blockable id = true
      · rw [if_pos hblockable]
        by_cases hfound : ∃ d ∈ workers.dependenciesOf id, workers.nonRunnableDependency d = true
        · rw [if_neg (by simpa using hfound)]
          simp [hblockable, hfound, or_comm]
        · rw [if_pos (by simpa using hfound)]
          simp only [hfound, and_false, or_false]
      · rw [if_neg hblockable]
        simp [hblockable]

/-- The workers with a dependency seed: those with a missing or failed dependency. -/
lemma mem_keys_dependencyBlockerSeeds {v : String} :
    v ∈ workers.dependencyBlockerSeeds.keys ↔
      workers.blockable v = true ∧
        ∃ d ∈ workers.dependenciesOf v, workers.failedDependency d = true := by
  unfold dependencyBlockerSeeds
  rw [mem_keys_foldl (P := fun id => workers.blockable id = true ∧
    ∃ d ∈ workers.dependenciesOf id, workers.failedDependency d = true)]
  · rw [mem_sortedIds]
    constructor
    · rintro (h | h)
      · cases h
      · exact h.2
    · exact fun h => .inr ⟨mem_keys_of_blockable h.1, h⟩
  · intro blockers id v
    by_cases hblockable : workers.blockable id = true
    · rw [if_pos hblockable]
      by_cases hfound : ∃ d ∈ workers.dependenciesOf id, workers.failedDependency d = true
      · rw [if_neg (by simpa using hfound)]
        simp [hblockable, hfound, or_comm]
      · rw [if_pos (by simpa using hfound)]
        simp only [hfound, and_false, or_false]
    · rw [if_neg hblockable]
      simp [hblockable]

lemma mem_keys_mergeBlockerMaps {maps : List BlockerMap} {v : String} :
    v ∈ (mergeBlockerMaps maps).keys ↔ ∃ map ∈ maps, v ∈ map.keys := by
  have hentries : ∀ (entries : List (String × List String)) (merged : BlockerMap),
      v ∈ (entries.foldl mergeBlockers merged).keys ↔
        v ∈ merged.keys ∨ v ∈ entries.map Prod.fst := by
    intro entries
    induction entries with
    | nil => simp
    | cons entry entries ih =>
      intro merged
      rw [List.foldl_cons, ih, mergeBlockers, Dict.mem_keys_set, List.map_cons, List.mem_cons]
      tauto
  have hmaps : ∀ (maps : List BlockerMap) (merged : BlockerMap),
      v ∈ (maps.foldl (fun merged map => map.entries.foldl mergeBlockers merged) merged).keys ↔
        v ∈ merged.keys ∨ ∃ map ∈ maps, v ∈ map.keys := by
    intro maps
    induction maps with
    | nil => simp
    | cons map maps ih =>
      intro merged
      rw [List.foldl_cons, ih, hentries]
      simp only [List.mem_cons, exists_eq_or_imp]
      exact or_assoc
  rw [mergeBlockerMaps, hmaps]
  exact or_iff_right (by rintro ⟨⟩)

/-- A worker depends on another as far as blockers spread. -/
abbrev Spreads (workers : Workers) : String → String → Prop := workers.propagationRule.Depends

/-- A worker from which blockers start. -/
def Seed (workers : Workers) (z : String) : Prop :=
  workers.blockable z = true ∧
    ((∃ cycle ∈ workers.dependencyOrderAndCycles.cycles, z ∈ cycle.dropLast) ∨
      ∃ d ∈ workers.dependenciesOf z,
        workers.nonRunnableDependency d = true ∨ workers.failedDependency d = true)

/-- The blocked workers are those that lead to a seed through blockable workers. -/
theorem mem_keys_blockersByWorkerId {v : String} :
    v ∈ (analyzeWorkerDependencies workers).blockersByWorkerId.keys ↔
      ∃ z, workers.Seed z ∧ Relation.ReflTransGen workers.Spreads v z := by
  have hprop := @Propagation.Rule.keys_propagate _ _ _ workers.propagationRule
    [workers.invalidGraphBlockerSeeds workers.dependencyOrderAndCycles.cycles,
      workers.dependencyBlockerSeeds]
  change v ∈ (mergeBlockerMaps (workers.propagateBlockerMaps _)).keys ↔ _
  rw [mem_keys_mergeBlockerMaps, propagateBlockerMaps]
  revert hprop
  generalize workers.propagationRule.propagate _ _ = sets
  rintro (_ | ⟨hinvalid, _ | ⟨hdependency, _ | _⟩⟩)
  simp only [List.mem_cons, List.not_mem_nil, or_false, exists_eq_or_imp, exists_eq_left,
    hinvalid, hdependency, mem_keys_invalidGraphBlockerSeeds, mem_keys_dependencyBlockerSeeds]
  constructor
  · rintro (⟨z, ⟨hz, hseed⟩, hchain⟩ | ⟨z, ⟨hz, d, hd, hfailed⟩, hchain⟩)
    · refine ⟨z, ⟨hz, hseed.imp_right ?_⟩, hchain⟩
      rintro ⟨d, hd, hrun⟩
      exact ⟨d, hd, .inl hrun⟩
    · exact ⟨z, ⟨hz, .inr ⟨d, hd, .inr hfailed⟩⟩, hchain⟩
  · rintro ⟨z, ⟨hz, hcycle | ⟨d, hd, hrun | hfailed⟩⟩, hchain⟩
    · exact .inl ⟨z, ⟨hz, .inl hcycle⟩, hchain⟩
    · exact .inl ⟨z, ⟨hz, .inr ⟨d, hd, hrun⟩⟩, hchain⟩
    · exact .inr ⟨z, ⟨hz, d, hd, hfailed⟩, hchain⟩

lemma blockable_of_mem_blockers {v : String}
    (h : v ∈ (analyzeWorkerDependencies workers).blockersByWorkerId.keys) :
    workers.blockable v = true := by
  obtain ⟨z, hseed, hchain⟩ := mem_keys_blockersByWorkerId.1 h
  rcases hchain.cases_head with rfl | ⟨_, hstep, -⟩
  · exact hseed.1
  · exact hstep.2.1

/-- The ready workers are the executable ones with all dependencies done and no blocker. -/
theorem mem_readyWorkerIds {v : String} :
    v ∈ (analyzeWorkerDependencies workers).readyWorkerIds ↔
      v ∉ (analyzeWorkerDependencies workers).blockersByWorkerId.keys ∧
        workers.executable v = true ∧ workers.dependenciesDone v = true := by
  have hkeys : workers.executable v = true → v ∈ workers.keys := by
    intro h
    unfold executable at h
    split at h
    · next hget => exact Dict.mem_keys_of_get? hget
    · cases h
  change v ∈ workers.readyWorkerIds _ ↔ _
  rw [readyWorkerIds, List.mem_filter, mem_sortedIds, Bool.and_eq_true, Bool.and_eq_true,
    decide_eq_true_eq]
  exact ⟨fun h => h.2, fun h => ⟨hkeys h.2.1, h⟩⟩

end Workers

end OpencodeSession
