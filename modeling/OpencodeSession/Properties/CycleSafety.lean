import OpencodeSession.Worker.Dependencies

/-!
# Dependency cycles

The analysis reports a cycle for each dependency that leads back to the path on which its worker
was first visited, and a visited worker is not entered again.  A cycle through a worker that was
finished before is therefore not reported, and a worker on it is blocked only if a blocker reaches
it in another way.  A worker whose failed attempt may be retried is never blocked at all.

`cycleSafe_iff` says when the analysis nevertheless keeps every worker on a cycle from running and
explains every such worker that can be blocked: each retryable worker on a cycle must have an
unfinished dependency, and each blockable one must lead, through blockable workers, to one with a
dependency that cannot finish or to one that lies on the cycle which some worker closes on its
search path.
-/

namespace OpencodeSession

namespace Workers

variable (workers : Workers)

/-- One worker depends on another. -/
def DependsOn (a b : String) : Prop := b ∈ workers.dependenciesOf a

/-- The worker lies on a dependency cycle. -/
def OnDependencyCycle (v : String) : Prop := Relation.TransGen workers.DependsOn v v

/-- No worker on a cycle is ready, and each blockable one has blockers. -/
def CycleSafe : Prop :=
  (∀ v, workers.OnDependencyCycle v →
    v ∉ (analyzeWorkerDependencies workers).readyWorkerIds) ∧
  ∀ v, workers.OnDependencyCycle v → workers.blockable v = true →
    v ∈ (analyzeWorkerDependencies workers).blockersByWorkerId.keys

/-- The worker lies on the cycle that a dependency of some worker closes on its search path. -/
def OnSearchPathCycle (z : String) : Prop :=
  ∃ p u x, DepthFirstSearch.SearchPath workers.dependencyGraph workers.sortedIds p u ∧
    workers.DependsOn u x ∧ x ∈ p ∧ z ∈ p.drop (p.idxOf x)

/-- A dependency that will not become done: a missing or failed worker, or one without a prompt
that would have to run. -/
def Unfinishable (d : String) : Prop :=
  workers.failedDependency d = true ∨ workers.nonRunnableDependency d = true

/-- When every worker on a cycle is kept from running and explained. -/
structure CyclesCovered : Prop where
  /-- A retryable worker on a cycle has a dependency that is not done. -/
  retryable : ∀ v, workers.OnDependencyCycle v → workers.executable v = true →
    workers.blockable v = false → ∃ d, workers.DependsOn v d ∧ workers.dependencyDone d = false
  /-- A blockable worker on a cycle leads, through blockable workers, to one with an unfinishable
  dependency or on the cycle of a search path. -/
  blockable : ∀ v, workers.OnDependencyCycle v → workers.blockable v = true →
    ∃ z, workers.blockable z = true ∧
      Relation.ReflTransGen
        (fun a b => workers.blockable a = true ∧ workers.DependsOn a b) v z ∧
      (workers.OnSearchPathCycle z ∨ ∃ d, workers.DependsOn z d ∧ workers.Unfinishable d)

variable {workers}

lemma closing_dropLast (p : List String) (x : String) :
    (DepthFirstSearch.closing p x).dropLast = p.drop (p.idxOf x) := by
  simp [DepthFirstSearch.closing]

lemma onReportedCycle_iff {z : String} :
    (∃ cycle ∈ workers.dependencyOrderAndCycles.cycles, z ∈ cycle.dropLast) ↔
      workers.OnSearchPathCycle z := by
  have hcycles : ∀ c, c ∈ workers.dependencyOrderAndCycles.cycles ↔ _ := fun c =>
    DepthFirstSearch.mem_cycles_search_iff
      (fun v hv => mem_sortedIds.2 (isNode_dependencyGraph.1 hv)) length_le_of_nodes
  constructor
  · rintro ⟨cycle, hcycle, hz⟩
    obtain ⟨p, u, x, hp, hux, hx, rfl⟩ := (hcycles cycle).1 hcycle
    exact ⟨p, u, x, hp, hux, hx, closing_dropLast p x ▸ hz⟩
  · rintro ⟨p, u, x, hp, hux, hx, hz⟩
    exact ⟨_, (hcycles _).2 ⟨p, u, x, hp, hux, hx, rfl⟩, (closing_dropLast p x).symm ▸ hz⟩

lemma onSearchPathCycle_congr {workers' : Workers} (hkeys : workers'.keys = workers.keys)
    (hgraph : workers'.dependencyGraph = workers.dependencyGraph) {z : String} :
    workers'.OnSearchPathCycle z ↔ workers.OnSearchPathCycle z := by
  have hids : workers'.sortedIds = workers.sortedIds := by
    rw [sortedIds, sortedIds, hkeys]
  simp only [OnSearchPathCycle, DependsOn, dependenciesOf, hgraph, hids]

lemma seed_iff {z : String} :
    workers.Seed z ↔ workers.blockable z = true ∧
      (workers.OnSearchPathCycle z ∨ ∃ d, workers.DependsOn z d ∧ workers.Unfinishable d) := by
  refine and_congr_right fun _ => ?_
  rw [onReportedCycle_iff]
  refine or_congr_right (exists_congr fun d => and_congr_right fun _ => ?_)
  exact or_comm

lemma spreads_iff {a b : String} :
    workers.Spreads a b ↔ workers.blockable a = true ∧ workers.DependsOn a b :=
  ⟨fun h => ⟨h.2.1, h.2.2⟩,
    fun h => ⟨mem_sortedIds.2 (mem_keys_of_blockable h.1), h.1, h.2⟩⟩

lemma mem_blockers_iff {v : String} :
    v ∈ (analyzeWorkerDependencies workers).blockersByWorkerId.keys ↔
      ∃ z, workers.blockable z = true ∧
        Relation.ReflTransGen
          (fun a b => workers.blockable a = true ∧ workers.DependsOn a b) v z ∧
        (workers.OnSearchPathCycle z ∨ ∃ d, workers.DependsOn z d ∧ workers.Unfinishable d) := by
  have hrel : workers.Spreads =
      fun a b => workers.blockable a = true ∧ workers.DependsOn a b := by
    funext a b
    exact propext spreads_iff
  rw [mem_keys_blockersByWorkerId, hrel]
  refine exists_congr fun z => ?_
  rw [seed_iff]
  tauto

lemma dependenciesDone_eq_false_iff {v : String} :
    workers.dependenciesDone v = false ↔
      ∃ d, workers.DependsOn v d ∧ workers.dependencyDone d = false := by
  simp [dependenciesDone, DependsOn]

/-! ## Ready workers -/

/-- The worker can be started, as its record and its dependencies have it: it is executable, they
are done, and if it is blockable it lies on the cycle of no search path. -/
structure Startable (workers : Workers) (v : String) : Prop where
  executable : workers.executable v = true
  dependencies : ∀ d, workers.DependsOn v d → workers.dependencyDone d = true
  acyclic : workers.blockable v = true → ¬ workers.OnSearchPathCycle v

lemma dependencyDone_iff {d : String} : workers.dependencyDone d = true ↔
    ∃ worker, workers.get? d = some worker ∧ worker.lifecycleState = .doneCollect := by
  unfold dependencyDone WorkerRecord.status
  cases workers.get? d with
  | none => simp
  | some worker =>
    have hstatus : worker.lifecycleState.status = .done ↔
        worker.lifecycleState = .doneCollect := by
      cases worker.lifecycleState <;> decide
    simp [hstatus]

lemma not_blocking_of_done {d : String} (h : workers.dependencyDone d = true) :
    workers.blockable d = false ∧ ¬ workers.Unfinishable d := by
  obtain ⟨worker, hget, hstate⟩ := dependencyDone_iff.1 h
  have hstatus : worker.status = .done := by
    rw [WorkerRecord.status, hstate]
    rfl
  have hrunnable : WorkerStatus.done.isRunnable = false := by decide
  have hblockable : WorkerStatus.done.isDependencyBlockable = false := by decide
  have hfailed : WorkerStatus.done.isFailedDependency = false := by decide
  constructor
  · simp [blockable, hget, WorkerRecord.isDependencyBlockable, hstatus, hblockable]
  · simp [Unfinishable, failedDependency, nonRunnableDependency, hget, hstatus, hrunnable, hfailed]

/-- What is ready, without the analysis: blockers do not come through a dependency that is done. -/
lemma mem_readyWorkerIds_iff_startable {v : String} :
    v ∈ (analyzeWorkerDependencies workers).readyWorkerIds ↔ workers.Startable v := by
  have hdone : workers.dependenciesDone v = true ↔
      ∀ d, workers.DependsOn v d → workers.dependencyDone d = true := List.all_eq_true
  rw [mem_readyWorkerIds, hdone]
  constructor
  · rintro ⟨hfree, hexec, hdependencies⟩
    exact ⟨hexec, hdependencies, fun hblockable hcycle =>
      hfree (mem_blockers_iff.2 ⟨v, hblockable, .refl, .inl hcycle⟩)⟩
  · rintro ⟨hexec, hdependencies, hacyclic⟩
    refine ⟨fun hblocked => ?_, hexec, hdependencies⟩
    obtain ⟨z, hz, hchain, hseed⟩ := mem_blockers_iff.1 hblocked
    rcases hchain.cases_head with rfl | ⟨d, ⟨hblockable, hd⟩, htail⟩
    · rcases hseed with hcycle | ⟨d, hd, hunfinishable⟩
      · exact hacyclic hz hcycle
      · exact (not_blocking_of_done (hdependencies d hd)).2 hunfinishable
    · -- the chain goes on from a dependency only if that is blockable
      have hnot := (not_blocking_of_done (hdependencies d hd)).1
      rcases htail.cases_head with rfl | ⟨_, ⟨hnext, -⟩, -⟩
      · exact Bool.eq_false_iff.1 hnot hz
      · exact Bool.eq_false_iff.1 hnot hnext

/-! ## Safe cycles -/

/-- A cycle is safe exactly when it is covered: the analysis keeps each worker on a cycle from
running, and explains each blockable one, if and only if a retryable worker on a cycle has an
unfinished dependency and a blockable one leads to an unfinishable dependency or to a cycle on a
search path. -/
theorem cycleSafe_iff (workers : Workers) : workers.CycleSafe ↔ workers.CyclesCovered := by
  constructor
  · rintro ⟨hready, hblocked⟩
    refine ⟨fun v hcycle hexec hnot => ?_, fun v hcycle hblockable =>
      mem_blockers_iff.1 (hblocked v hcycle hblockable)⟩
    have hnotBlocked : v ∉ (analyzeWorkerDependencies workers).blockersByWorkerId.keys := by
      intro hmem
      rw [blockable_of_mem_blockers hmem] at hnot
      cases hnot
    rw [← dependenciesDone_eq_false_iff, ← Bool.not_eq_true]
    exact fun hdone => hready v hcycle (mem_readyWorkerIds.2 ⟨hnotBlocked, hexec, hdone⟩)
  · intro hcovered
    have hblocked : ∀ v, workers.OnDependencyCycle v → workers.blockable v = true →
        v ∈ (analyzeWorkerDependencies workers).blockersByWorkerId.keys :=
      fun v hcycle hblockable => mem_blockers_iff.2 (hcovered.blockable v hcycle hblockable)
    refine ⟨fun v hcycle hmem => ?_, hblocked⟩
    obtain ⟨hnotBlocked, hexec, hdone⟩ := mem_readyWorkerIds.1 hmem
    cases hblockable : workers.blockable v with
    | true => exact hnotBlocked (hblocked v hcycle hblockable)
    | false =>
      have hundone := dependenciesDone_eq_false_iff.2 (hcovered.retryable v hcycle hexec hblockable)
      rw [hdone] at hundone
      cases hundone

/-! ## A cycle that is not reported -/

/-- A prompted worker with dependencies. -/
def promptedWorker (id : WorkerId) (state : LifecycleState) (dependencies : List String) :
    WorkerRecord :=
  { id := id, prompt := some "work", lifecycleState := state, dependencies := dependencies }

/-- Workers `a`, `b` and `c`: `a` waits for `b` and `c`, `c` waits for `b`, and `b`, which is done,
was given a dependency on `a`.  The search leaves `b` before it visits `c`. -/
def finishedDetour : Workers :=
  ((∅ : Workers).set "a" (promptedWorker ⟨"a", WorkerId.nonempty_a⟩ .queued ["b", "c"])).set "b"
    (promptedWorker ⟨"b", WorkerId.nonempty_b⟩ .doneCollect ["a"]) |>.set "c"
      (promptedWorker ⟨"c", by decide⟩ .queued ["b"])

lemma onDependencyCycle_finishedDetour : finishedDetour.OnDependencyCycle "c" := by
  have hcb : finishedDetour.DependsOn "c" "b" := by unfold DependsOn; decide +kernel
  have hba : finishedDetour.DependsOn "b" "a" := by unfold DependsOn; decide +kernel
  have hac : finishedDetour.DependsOn "a" "c" := by unfold DependsOn; decide +kernel
  exact ((Relation.TransGen.single hcb).tail hba).tail hac

/-- The worker `c` lies on a cycle, and yet it is ready and has no blocker. -/
theorem not_cycleSafe_finishedDetour : ¬ finishedDetour.CycleSafe := by
  intro hsafe
  have hready : "c" ∈ (analyzeWorkerDependencies finishedDetour).readyWorkerIds := by
    decide +kernel
  exact hsafe.1 "c" onDependencyCycle_finishedDetour hready

end Workers

end OpencodeSession
