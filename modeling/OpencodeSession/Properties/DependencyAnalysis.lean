import OpencodeSession.Properties.CycleSafety
import OpencodeSession.Run.Record

/-!
# What the dependency analysis computes

The analysis makes no assumption about the dependencies of the workers: they may be unknown, lead
to the worker itself or close cycles.  Its order still lists each worker once, after all those of
its dependencies that do not depend on it in turn (`dependencyOrder`), and the summary of a run
lists the outputs of the done workers in that order.

The propagation of blockers stops, with the least set of workers that it could stop with
(`propagateBlockerMaps_least`), whatever blockers it starts from.
-/

namespace OpencodeSession

/-! ## The order -/

namespace Workers

variable {workers : Workers}

lemma edge_dependencyGraph :
    DepthFirstSearch.Edge workers.dependencyGraph = workers.DependsOn := rfl

/-- An order lists every worker once, after its dependencies that do not depend on it. -/
structure Ordered (workers : Workers) (order : List String) : Prop where
  nodup : order.Nodup
  mem_iff : ∀ id, id ∈ order ↔ id ∈ workers.keys
  before : ∀ u v, workers.DependsOn v u → u ∈ workers.keys →
    ¬ Relation.TransGen workers.DependsOn u v → DepthFirstSearch.Before u v order

lemma ordered_dependencyOrder (workers : Workers) :
    workers.Ordered (analyzeWorkerDependencies workers).workerIdsInDependencyOrder where
  nodup := DepthFirstSearch.nodup_ordered_search length_le_of_nodes
  mem_iff _ := mem_dependencyOrder
  before u v hdepends hu hback := by
    have hroots : ∀ w, DepthFirstSearch.IsNode workers.dependencyGraph w →
        w ∈ workers.sortedIds := fun w hw => mem_sortedIds.2 (isNode_dependencyGraph.1 hw)
    refine DepthFirstSearch.before_ordered_search hroots length_le_of_nodes hdepends
      (isNode_dependencyGraph.2 hu) ?_
    rwa [edge_dependencyGraph]

end Workers

namespace Run

variable {run : Run}

/-- A list holds the done workers of a map in the order of their identifiers. -/
structure DoneInOrder (workers : WorkerMap) (order : List String) (done : List WorkerRecord) :
    Prop where
  stored : ∀ worker ∈ done, workers.get? worker.id.value = some worker
  ids : done.map (fun worker => worker.id.value) = order.filter workers.byId.dependencyDone

/-- The outputs of the done workers of an order are those of its done workers one by one. -/
lemma exists_doneInOrder (workers : WorkerMap) (order : List String) :
    ∃ done, DoneInOrder workers order done ∧
      (order.flatMap fun id =>
        match workers.get? id with
        | some worker =>
          if worker.status = .done then worker.outputRefs.map (qualifiedOutputRef worker.id.value)
          else []
        | none => []) =
      done.flatMap fun worker => worker.outputRefs.map (qualifiedOutputRef worker.id.value) := by
  induction order with
  | nil => exact ⟨[], ⟨by simp, rfl⟩, rfl⟩
  | cons id order ih =>
    obtain ⟨done, hdone, hrefs⟩ := ih
    rw [List.flatMap_cons, hrefs]
    cases hget : workers.get? id with
    | none =>
      have hnot : workers.byId.dependencyDone id = false := by
        unfold Workers.dependencyDone
        rw [show workers.byId.get? id = none from hget]
      refine ⟨done, ⟨hdone.stored, ?_⟩, rfl⟩
      rw [hdone.ids, List.filter_cons_of_neg (by simp [hnot])]
    | some worker =>
      have hid : worker.id.value = id := WorkerMap.id_of_get? hget
      have hdoneIff : workers.byId.dependencyDone id = decide (worker.status = .done) := by
        unfold Workers.dependencyDone
        rw [show workers.byId.get? id = some worker from hget]
      by_cases hstatus : worker.status = .done
      · refine ⟨worker :: done, ⟨?_, ?_⟩, ?_⟩
        · intro other hother
          rcases List.mem_cons.1 hother with rfl | hother
          · rw [hid, hget]
          · exact hdone.stored other hother
        · rw [List.filter_cons_of_pos (by simp [hdoneIff, hstatus]), List.map_cons, hdone.ids, hid]
        · rw [List.flatMap_cons]
          simp only [if_pos hstatus]
      · refine ⟨done, ⟨hdone.stored, ?_⟩, ?_⟩
        · rw [hdone.ids, List.filter_cons_of_neg (by simp [hdoneIff, hstatus])]
        · simp only [if_neg hstatus, List.nil_append]

end Run

/-- The order of the analysis lists every worker once, after its dependencies that do not depend
on it, and the summary of a run lists the outputs of the done workers in that order. -/
theorem dependencyOrder (workers : Workers) :
    workers.Ordered (analyzeWorkerDependencies workers).workerIdsInDependencyOrder ∧
      ∀ run : Run, run.workers.byId = workers → ∃ done,
        Run.DoneInOrder run.workers
          (analyzeWorkerDependencies workers).workerIdsInDependencyOrder done ∧
        run.refreshSummary.outputRefs = done.flatMap fun worker =>
          worker.outputRefs.map (Run.qualifiedOutputRef worker.id.value) := by
  refine ⟨workers.ordered_dependencyOrder, ?_⟩
  rintro run rfl
  exact Run.exists_doneInOrder run.workers _

/-! ## The blockers -/

namespace Workers

variable {workers : Workers} {seeds result : BlockerMap}

/-- What propagation may stop with: a set with the seeds and with every blockable worker that
depends on a worker of the set. -/
def ClosedBlockers (workers : Workers) (seeds : BlockerMap) : Set (Set String) :=
  {blocked | (∀ v ∈ seeds.keys, v ∈ blocked) ∧
    ∀ v d, workers.blockable v = true → workers.DependsOn v d → d ∈ blocked → v ∈ blocked}

/-- What propagation makes of its seeds: the least of those sets, where every worker that was not
a seed is blocked by dependencies in the set. -/
structure Propagated (workers : Workers) (seeds result : BlockerMap) : Prop where
  least : IsLeast (workers.ClosedBlockers seeds) {v | v ∈ result.keys}
  named : ∀ v blockers, result.get? v = some blockers → seeds.get? v = some blockers ∨
    (v ∉ seeds.keys ∧ ∀ blocker ∈ blockers, ∃ d, workers.DependsOn v d ∧ d ∈ result.keys ∧
      blocker = s!"dependency:{d}")

/-- The closure under the propagation rule, in terms of the workers. -/
lemma propagated_of_keys
    (hkeys : ∀ v, v ∈ result.keys ↔ ∃ z ∈ seeds.keys, Relation.ReflTransGen workers.Spreads v z)
    (hlabels : ∀ v labels, result.get? v = some labels → seeds.get? v = some labels ∨
      (v ∉ seeds.keys ∧ ∀ l ∈ labels, ∃ b ∈ workers.propagationRule.sources v,
        b ∈ result.keys ∧ l = workers.propagationRule.label b)) :
    workers.Propagated seeds result where
  least := by
    have hclosed : workers.ClosedBlockers seeds =
        {S : Set String | (∀ v ∈ seeds.keys, v ∈ S) ∧
          ∀ v b, workers.Spreads v b → b ∈ S → v ∈ S} := by
      ext blocked
      simp only [ClosedBlockers, spreads_iff, Set.mem_ofPred_eq, and_imp]
    rw [hclosed]
    exact Propagation.Rule.isLeast_keys hkeys
  named := hlabels

/-- Propagation from any two seed maps stops, each time with the least set of workers that
contains the seeds and every blockable worker that depends on one of the set, and each worker that
was not a seed is blocked by the names of dependencies in the set. -/
theorem propagateBlockerMaps_least (workers : Workers) (invalid dependency : BlockerMap) :
    ∃ invalid' dependency',
      workers.propagateBlockerMaps [invalid, dependency] = [invalid', dependency'] ∧
      workers.propagationRule.Ends [invalid, dependency] [invalid', dependency'] ∧
      workers.Propagated invalid invalid' ∧ workers.Propagated dependency dependency' := by
  have hends := workers.propagationRule.ends_propagate [invalid, dependency]
  have hkeys := workers.propagationRule.keys_propagate [invalid, dependency]
  have hlabels := workers.propagationRule.labelled_propagate
    (workers.propagationRule.rounds [invalid, dependency]) [invalid, dependency]
  rw [propagateBlockerMaps]
  revert hends hkeys hlabels
  generalize workers.propagationRule.propagate _ _ = sets
  rintro hends (_ | ⟨hinvalid, _ | ⟨hdependency, _ | _⟩⟩) (_ | ⟨hinvalid', _ | ⟨hdependency', _⟩⟩)
  exact ⟨_, _, rfl, hends, propagated_of_keys hinvalid hinvalid',
    propagated_of_keys hdependency hdependency'⟩

end Workers

end OpencodeSession
