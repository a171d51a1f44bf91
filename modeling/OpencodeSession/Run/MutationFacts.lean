import OpencodeSession.Framework.Exceptions
import OpencodeSession.Run.Mutation
import OpencodeSession.Worker.TransitionFacts

/-!
# What a mutation does to the workers

The transitions of an update are applied one after the other to the workers of the latest record.
For transitions of different workers this is the same as applying each to its worker as it was
before the update: all of them are legal if each is, and each worker is reduced once.

The journal mutations are about the journals.  Only the run update that one carries can change a
worker.

The mutations of an operator edit the settings of a worker.  `RunMutation.apply_latestWorker_eq`
says what all of this comes to for a field that edits leave: only the transitions that a mutation
may apply can change it.
-/

namespace OpencodeSession

namespace Run

variable {run run' : Run} {transition : WorkerTransition} {transitions : List WorkerTransition}
  {workerId : WorkerId} {worker : WorkerRecord} {id : String}

/-! ## Single transitions -/

@[simp] lemma workers_setWorker : (run.setWorker worker).workers = run.workers.set worker := rfl

lemma latestWorker_of_get? (h : run.workers.get? workerId.value = some worker) :
    run.latestWorker workerId = worker := by
  simp [latestWorker, h]

lemma latestWorker_congr (h : run.workers.get? workerId.value = run'.workers.get? workerId.value) :
    run.latestWorker workerId = run'.latestWorker workerId := by
  rw [latestWorker, latestWorker, h]

@[simp] lemma id_latestWorker (run : Run) (workerId : WorkerId) :
    (run.latestWorker workerId).id = workerId := by
  rw [latestWorker]
  cases h : run.workers.get? workerId.value with
  | none => rfl
  | some worker => exact WorkerId.ext (WorkerMap.id_of_get? h)

lemma id_reduce_latestWorker (hsnapshot : ∀ patch, transition.payload ≠ .snapshotApplied patch) :
    ((run.latestWorker transition.workerId).reduce transition).id = transition.workerId := by
  rw [WorkerRecord.id_reduce hsnapshot (by simp), id_latestWorker]

lemma applyTransition_of_legal
    (h : (run.latestWorker transition.workerId).transitionIsLegal transition = true) :
    run.applyTransition transition =
      .ok (run.setWorker ((run.latestWorker transition.workerId).reduce transition)) := by
  simp only [applyTransition, WorkerRecord.applyTransition, if_pos h]
  rfl

/-- An illegal transition raises the transition error. -/
lemma applyTransition_of_not_legal
    (hsnapshot : ∀ patch, transition.payload ≠ .snapshotApplied patch)
    (h : (run.latestWorker transition.workerId).transitionIsLegal transition = false) :
    ∃ reason, run.applyTransition transition = .error (.workerTransition reason) := by
  refine ⟨(run.latestWorker transition.workerId).illegalTransitionReason transition, ?_⟩
  simp only [applyTransition, WorkerRecord.applyTransition, h, Bool.false_eq_true, if_false]
  revert hsnapshot
  cases transition.payload with
  | snapshotApplied patch => exact fun hsnapshot => absurd rfl (hsnapshot patch)
  | _ => exact fun _ => rfl

lemma applyTransition_eq_ok (hsnapshot : ∀ patch, transition.payload ≠ .snapshotApplied patch)
    (h : run.applyTransition transition = .ok run') :
    (run.latestWorker transition.workerId).transitionIsLegal transition = true ∧
      run' = run.setWorker ((run.latestWorker transition.workerId).reduce transition) := by
  cases hlegal : (run.latestWorker transition.workerId).transitionIsLegal transition with
  | true =>
    rw [applyTransition_of_legal hlegal] at h
    exact ⟨rfl, (Except.ok.inj h).symm⟩
  | false =>
    obtain ⟨reason, herror⟩ := applyTransition_of_not_legal hsnapshot hlegal
    rw [herror] at h
    cases h

/-! ## Several transitions -/

@[simp] lemma applyTransitions_nil : run.applyTransitions [] = .ok run := rfl

lemma applyTransitions_cons : run.applyTransitions (transition :: transitions) =
    run.applyTransition transition >>= fun run => run.applyTransitions transitions := rfl

/-- The first transition and the others of an update that applies. -/
lemma applyTransitions_cons_eq_ok
    (hsnapshot : ∀ patch, transition.payload ≠ .snapshotApplied patch)
    (h : run.applyTransitions (transition :: transitions) = .ok run') :
    (run.latestWorker transition.workerId).transitionIsLegal transition = true ∧
      (run.setWorker ((run.latestWorker transition.workerId).reduce transition)).applyTransitions
        transitions = .ok run' := by
  rw [applyTransitions_cons] at h
  cases hfirst : run.applyTransition transition with
  | error error =>
    rw [hfirst] at h
    cases h
  | ok first =>
    rw [hfirst] at h
    obtain ⟨hlegal, rfl⟩ := applyTransition_eq_ok hsnapshot hfirst
    exact ⟨hlegal, h⟩

/-- A worker that no transition is about stays as it is. -/
lemma get?_applyTransitions_of_notMem
    (hsnapshot : ∀ t ∈ transitions, ∀ patch, t.payload ≠ .snapshotApplied patch)
    (h : run.applyTransitions transitions = .ok run')
    (hid : ∀ t ∈ transitions, t.workerId.value ≠ id) :
    run'.workers.get? id = run.workers.get? id := by
  induction transitions generalizing run with
  | nil =>
    cases h
    rfl
  | cons first rest ih =>
    have hfirst := hsnapshot first (by simp)
    obtain ⟨-, hrest⟩ := applyTransitions_cons_eq_ok hfirst h
    rw [ih (fun t ht => hsnapshot t (by simp [ht])) hrest fun t ht => hid t (by simp [ht]),
      workers_setWorker, WorkerMap.get?_set_of_ne]
    rw [id_reduce_latestWorker hfirst]
    exact hid first (by simp)

/-- Transitions of workers that are there keep the identifiers and their order. -/
lemma ids_applyTransitions
    (hsnapshot : ∀ t ∈ transitions, ∀ patch, t.payload ≠ .snapshotApplied patch)
    (h : run.applyTransitions transitions = .ok run')
    (hmem : ∀ t ∈ transitions, t.workerId.value ∈ run.workers.ids) :
    run'.workers.ids = run.workers.ids := by
  induction transitions generalizing run with
  | nil =>
    cases h
    rfl
  | cons first rest ih =>
    have hfirst := hsnapshot first (by simp)
    have hid : ((run.latestWorker first.workerId).reduce first).id = first.workerId :=
      id_reduce_latestWorker hfirst
    obtain ⟨-, hrest⟩ := applyTransitions_cons_eq_ok hfirst h
    have hids : (run.setWorker ((run.latestWorker first.workerId).reduce first)).workers.ids =
        run.workers.ids := by
      refine WorkerMap.ids_set_of_mem ?_
      rw [hid]
      exact hmem first (by simp)
    rw [ih (fun t ht => hsnapshot t (by simp [ht])) hrest, hids]
    intro t ht
    rw [hids]
    exact hmem t (by simp [ht])

/-- What every transition about a worker keeps is kept by the update. -/
lemma applyTransitions_keeps {P : WorkerRecord → Prop}
    (hsnapshot : ∀ t ∈ transitions, ∀ patch, t.payload ≠ .snapshotApplied patch)
    (h : run.applyTransitions transitions = .ok run')
    (hkeeps : ∀ t ∈ transitions, t.workerId = workerId → ∀ worker : WorkerRecord,
      worker.transitionIsLegal t = true → P worker → P (worker.reduce t))
    (hworker : P (run.latestWorker workerId)) : P (run'.latestWorker workerId) := by
  induction transitions generalizing run with
  | nil =>
    cases h
    exact hworker
  | cons first rest ih =>
    have hfirst := hsnapshot first (by simp)
    obtain ⟨hlegal, hrest⟩ := applyTransitions_cons_eq_ok hfirst h
    refine ih (fun t ht => hsnapshot t (by simp [ht])) hrest
      (fun t ht => hkeeps t (by simp [ht])) ?_
    have hid : ((run.latestWorker first.workerId).reduce first).id = first.workerId :=
      id_reduce_latestWorker hfirst
    by_cases hsame : first.workerId = workerId
    · subst hsame
      have hget : (run.setWorker ((run.latestWorker first.workerId).reduce first)).workers.get?
          first.workerId.value = some ((run.latestWorker first.workerId).reduce first) := by
        rw [workers_setWorker, WorkerMap.get?_set, hid, if_pos rfl]
      rw [latestWorker_of_get? hget]
      exact hkeeps first (by simp) rfl _ hlegal hworker
    · have hget : (run.setWorker ((run.latestWorker first.workerId).reduce first)).workers.get?
          workerId.value = run.workers.get? workerId.value := by
        rw [workers_setWorker, WorkerMap.get?_set_of_ne]
        rw [hid]
        exact fun heq => hsame (WorkerId.ext heq)
      rw [latestWorker_congr hget]
      exact hworker

/-- Of transitions of different workers, each applies to its worker as it was. -/
lemma get?_applyTransitions_of_mem
    (hsnapshot : ∀ t ∈ transitions, ∀ patch, t.payload ≠ .snapshotApplied patch)
    (hnodup : (transitions.map WorkerTransition.workerId).Nodup)
    (h : run.applyTransitions transitions = .ok run') (ht : transition ∈ transitions) :
    (run.latestWorker transition.workerId).transitionIsLegal transition = true ∧
      run'.workers.get? transition.workerId.value =
        some ((run.latestWorker transition.workerId).reduce transition) := by
  induction transitions generalizing run with
  | nil => cases ht
  | cons first rest ih =>
    have hfirst := hsnapshot first (by simp)
    have hrestsnapshot := fun t ht => hsnapshot t (List.mem_cons_of_mem first ht)
    have hid : ((run.latestWorker first.workerId).reduce first).id = first.workerId :=
      id_reduce_latestWorker hfirst
    obtain ⟨hlegal, hrest⟩ := applyTransitions_cons_eq_ok hfirst h
    rw [List.map_cons, List.nodup_cons] at hnodup
    rcases List.mem_cons.1 ht with rfl | hmem
    · refine ⟨hlegal, ?_⟩
      rw [get?_applyTransitions_of_notMem hrestsnapshot hrest, workers_setWorker,
        WorkerMap.get?_set, hid, if_pos rfl]
      intro t htrest heq
      exact hnodup.1 (List.mem_map.2 ⟨t, htrest, WorkerId.ext heq⟩)
    · have hne : first.workerId ≠ transition.workerId := fun heq =>
        hnodup.1 (List.mem_map.2 ⟨transition, hmem, heq.symm⟩)
      have hlatest : (run.setWorker ((run.latestWorker first.workerId).reduce first)).latestWorker
          transition.workerId = run.latestWorker transition.workerId := by
        refine latestWorker_congr ?_
        rw [workers_setWorker, WorkerMap.get?_set_of_ne]
        rw [hid]
        exact fun heq => hne (WorkerId.ext heq)
      have hget := ih hrestsnapshot hnodup.2 hrest hmem
      rwa [hlatest] at hget

/-- Transitions of different workers, each legal for its worker, all apply. -/
lemma applyTransitions_of_legal
    (hsnapshot : ∀ t ∈ transitions, ∀ patch, t.payload ≠ .snapshotApplied patch)
    (hnodup : (transitions.map WorkerTransition.workerId).Nodup)
    (hlegal : ∀ t ∈ transitions, (run.latestWorker t.workerId).transitionIsLegal t = true) :
    ∃ run', run.applyTransitions transitions = .ok run' := by
  induction transitions generalizing run with
  | nil => exact ⟨run, rfl⟩
  | cons first rest ih =>
    rw [List.map_cons, List.nodup_cons] at hnodup
    rw [applyTransitions_cons, applyTransition_of_legal (hlegal first (by simp))]
    refine ih (fun t ht => hsnapshot t (by simp [ht])) hnodup.2 fun t ht => ?_
    have hne : first.workerId ≠ t.workerId := fun heq =>
      hnodup.1 (List.mem_map.2 ⟨t, ht, heq.symm⟩)
    have hget : (run.setWorker ((run.latestWorker first.workerId).reduce first)).workers.get?
        t.workerId.value = run.workers.get? t.workerId.value := by
      rw [workers_setWorker, WorkerMap.get?_set_of_ne]
      rw [id_reduce_latestWorker (hsnapshot first (by simp))]
      exact fun heq => hne (WorkerId.ext heq)
    rw [latestWorker_congr hget]
    exact hlegal t (by simp [ht])

/-! ## Summaries -/

/-- The status and the output references are what the workers come to. -/
def IsRefreshed (run : Run) : Prop := run.refreshSummary = run

/-- A refreshed record stays so when it is saved. -/
lemma isRefreshed_normalize_refreshSummary (run : Run) :
    run.refreshSummary.normalize.IsRefreshed := by
  have hname : ∀ status : WorkerStatus, shortStatus status.name = status.name := by
    intro status
    cases status <;> decide
  have hstatus : ((statusFromWorkers run.workers).map WorkerStatus.name).getD
      (shortStatus (((statusFromWorkers run.workers).map WorkerStatus.name).getD run.status)) =
      shortStatus (((statusFromWorkers run.workers).map WorkerStatus.name).getD run.status) := by
    cases statusFromWorkers run.workers with
    | none => rw [Option.map_none, Option.getD_none]
    | some status => exact (hname status).symm
  simp [IsRefreshed, refreshSummary, normalize, hstatus]

/-- The more pressing of two statuses, the first where they are alike. -/
def morePressing (best : Option WorkerStatus) (status : WorkerStatus) : Option WorkerStatus :=
  match best with
  | none => some status
  | some best => if best.priority < status.priority then some status else some best

/-- The most pressing status is one of those it is taken from. -/
lemma mem_of_foldl_morePressing {statuses : List WorkerStatus} {best : Option WorkerStatus}
    {status : WorkerStatus} (h : statuses.foldl morePressing best = some status) :
    best = some status ∨ status ∈ statuses := by
  induction statuses generalizing best with
  | nil => exact .inl h
  | cons first rest ih =>
    rcases ih h with hfirst | hrest
    · unfold morePressing at hfirst
      split at hfirst
      · exact .inr (by simp [Option.some.inj hfirst])
      · split_ifs at hfirst
        · exact .inr (by simp [Option.some.inj hfirst])
        · exact .inl hfirst
    · exact .inr (List.mem_cons_of_mem _ hrest)

lemma isSome_foldl_morePressing {statuses : List WorkerStatus} {best : Option WorkerStatus}
    (h : best.isSome = true ∨ statuses ≠ []) :
    (statuses.foldl morePressing best).isSome = true := by
  induction statuses generalizing best with
  | nil => exact h.resolve_right fun hne => hne rfl
  | cons first rest ih =>
    refine ih (.inl ?_)
    unfold morePressing
    split
    · rfl
    · split_ifs <;> rfl

lemma aggregateStatus_eq (statuses : List WorkerStatus) :
    aggregateStatus statuses =
      if statuses.isEmpty then none
      else if statuses.all (· = .done) then some .done
      else (statuses.filter (· ≠ .done)).foldl morePressing none := rfl

lemma isSome_aggregateStatus {statuses : List WorkerStatus} (h : statuses ≠ []) :
    (aggregateStatus statuses).isSome = true := by
  rw [aggregateStatus_eq, if_neg (by simpa using h)]
  split_ifs with hall
  · rfl
  · refine isSome_foldl_morePressing (.inr fun hnone => hall ?_)
    simpa [List.filter_eq_nil_iff] using hnone

lemma aggregateStatus_eq_done_iff {statuses : List WorkerStatus} (h : statuses ≠ []) :
    aggregateStatus statuses = some .done ↔ ∀ status ∈ statuses, status = .done := by
  rw [aggregateStatus_eq, if_neg (by simpa using h)]
  split_ifs with hall
  · simpa using hall
  · refine iff_of_false (fun hdone => ?_) (fun hdone => hall (by simpa using hdone))
    rcases mem_of_foldl_morePressing hdone with hnone | hmem
    · cases hnone
    · simp at hmem

/-- The status of a refreshed record with a prompt is that of its prompted workers. -/
lemma IsRefreshed.status_eq {run : Run} {worker : WorkerRecord} (h : run.IsRefreshed)
    (hmem : worker ∈ run.workers.toList) (hprompt : worker.hasPrompt = true) :
    ∃ status : WorkerStatus, run.status = status.name ∧
      (status = .done ↔ ∀ worker ∈ run.workers.toList, worker.hasPrompt = true →
        worker.status = .done) := by
  have hprompted : run.workers.toList.filter WorkerRecord.hasPrompt ≠ [] :=
    List.ne_nil_of_mem (List.mem_filter.2 ⟨hmem, hprompt⟩)
  have hcounted : statusFromWorkers run.workers = aggregateStatus
      ((run.workers.toList.filter WorkerRecord.hasPrompt).map WorkerRecord.status) := by
    rw [statusFromWorkers]
    simp [hprompted]
  have hne : (run.workers.toList.filter WorkerRecord.hasPrompt).map WorkerRecord.status ≠ [] := by
    simpa using hprompted
  obtain ⟨status, hstatus⟩ := Option.isSome_iff_exists.1 (isSome_aggregateStatus hne)
  refine ⟨status, ?_, ?_⟩
  · have hrefreshed : run.refreshSummary.status = run.status := congrArg Run.status h
    rw [← hrefreshed]
    simp [refreshSummary, hcounted, hstatus]
  · rw [← Option.some_inj, ← hstatus, aggregateStatus_eq_done_iff hne, List.forall_mem_map]
    simp only [List.mem_filter, and_imp]

end Run

/-! ## Edits -/

/-- A worker with the changes of an upsert. -/
def WorkerRecord.edited (worker : WorkerRecord) (changes : WorkerChanges) : WorkerRecord :=
  { worker with
    role := changes.role.orElse fun _ => worker.role
    sessionId := changes.sessionId.orElse fun _ => worker.sessionId
    agent := changes.agent.orElse fun _ => worker.agent
    model := changes.model.orElse fun _ => worker.model
    dependencies := changes.dependencies.getD worker.dependencies
    promptIds := changes.promptIds.getD worker.promptIds
    retryCount := changes.retryCount.getD worker.retryCount
    retryLimit := changes.retryLimit.getD worker.retryLimit
    retryableFailures := changes.retryableFailures.getD worker.retryableFailures
    timeoutSeconds := changes.timeoutSeconds.orElse fun _ => worker.timeoutSeconds
    timeoutPolicy := changes.timeoutPolicy.getD worker.timeoutPolicy
    lifecycleState := changes.lifecycleState.getD worker.lifecycleState
    blockers := changes.blockers.getD worker.blockers
    outputRefs := changes.outputRefs.getD worker.outputRefs
    prompt := changes.prompt.orElse fun _ => worker.prompt }

/-- What an edit of a worker's settings leaves: its identifier and its records. -/
structure WorkerRecord.EditedFrom (latest worker : WorkerRecord) : Prop where
  id : worker.id = latest.id
  abort : worker.abort = latest.abort
  attempts : worker.attempts = latest.attempts
  result : worker.result = latest.result

lemma WorkerRecord.editedFrom_edited (latest : WorkerRecord) (changes : WorkerChanges) :
    latest.EditedFrom (latest.edited changes) := ⟨rfl, rfl, rfl, rfl⟩

namespace Run

variable {run : Run} {worker : WorkerRecord} {workerId : WorkerId}

lemma latestWorker_setWorker (run : Run) (worker : WorkerRecord) (workerId : WorkerId) :
    (run.setWorker worker).latestWorker workerId =
      if worker.id = workerId then worker else run.latestWorker workerId := by
  split_ifs with h
  · exact latestWorker_of_get? (by rw [workers_setWorker, WorkerMap.get?_set, h, if_pos rfl])
  · refine latestWorker_congr ?_
    rw [workers_setWorker, WorkerMap.get?_set_of_ne fun heq => h (WorkerId.ext heq)]

/-- The worker an edit works on is the latest one. -/
lemma workerOr_eq_ok {id : String} {missing : Except PyError WorkerRecord}
    (hmissing : ∀ worker, missing = .ok worker → newWorker id = .ok worker)
    (h : run.workerOr id missing = .ok worker) :
    worker.id.value = id ∧ run.latestWorker worker.id = worker := by
  unfold workerOr at h
  split at h
  · next found hget =>
    obtain rfl := Except.ok.inj h
    have hid : found.id.value = id := WorkerMap.id_of_get? hget
    exact ⟨hid, latestWorker_of_get? (hid ▸ hget)⟩
  · next hget =>
    have hnew := hmissing worker h
    unfold newWorker WorkerId.ofString? at hnew
    split_ifs at hnew
    · obtain rfl := Except.ok.inj hnew
      exact ⟨rfl, by simp [latestWorker, WorkerRecord.default, hget]⟩

lemma apply_latestWorker_of_edited {β : Type} (f : WorkerRecord → β)
    (hf : ∀ latest worker : WorkerRecord, latest.EditedFrom worker → f worker = f latest)
    {latest : WorkerRecord} (hlatest : run.latestWorker latest.id = latest)
    (h : latest.EditedFrom worker) (workerId : WorkerId) :
    f ((run.setWorker worker).latestWorker workerId) = f (run.latestWorker workerId) := by
  rw [latestWorker_setWorker]
  split_ifs with hid
  · rw [hf _ _ h, ← hid, h.id, hlatest]
  · rfl

/-- A transition of the latest worker changes no field that it keeps. -/
lemma apply_latestWorker_of_reduced {β : Type} (f : WorkerRecord → β) {latest : WorkerRecord}
    {transition : WorkerTransition} (hlatest : run.latestWorker latest.id = latest)
    (hid : transition.workerId = latest.id)
    (hsnapshot : ∀ patch, transition.payload ≠ .snapshotApplied patch)
    (h : latest.applyTransition transition = .ok worker)
    (hkeeps : transition.workerId = workerId → ∀ latest : WorkerRecord,
      f (latest.reduce transition) = f latest) :
    f ((run.setWorker worker).latestWorker workerId) = f (run.latestWorker workerId) := by
  have happly : run.applyTransition transition = .ok (run.setWorker worker) := by
    unfold applyTransition
    rw [hid, hlatest, h]
    rfl
  obtain ⟨-, hrun⟩ := applyTransition_eq_ok hsnapshot happly
  rw [hrun, latestWorker_setWorker, id_reduce_latestWorker hsnapshot]
  split_ifs with hsame
  · rw [hkeeps hsame, hsame]
  · rfl

/-- A worker with a session is in the record. -/
lemma get?_of_workerWithSession {id sessionId : String}
    (h : run.workerWithSession id = .ok (worker, sessionId)) :
    run.workers.get? id = some worker := by
  unfold workerWithSession at h
  split at h
  · cases h
  · next found hfound =>
    have hsame : found = worker := by
      split at h
      · split_ifs at h
        exact congrArg Prod.fst (Except.ok.inj h)
      · cases h
    rw [← hsame]
    exact hfound

/-- The request of a start gives at most one worker a role and a session. -/
lemma applyStartRequest_eq_ok {request : StartRequest} {left : Run}
    (h : run.applyStartRequest request = .ok left) :
    left.workers = run.workers ∨ ∃ (latest : WorkerRecord) (role sessionId agent model :
      Option String), run.latestWorker latest.id = latest ∧ left.workers = run.workers.set
        ({ latest with role := role }.setSession sessionId agent model) := by
  unfold applyStartRequest at h
  dsimp only at h
  split_ifs at h
  · obtain ⟨worker, hworker, hleft⟩ := Except.bind_eq_ok.1 h
    obtain ⟨-, hlatest⟩ := workerOr_eq_ok (fun _ h => h) hworker
    cases hleft
    exact .inr ⟨worker, _, _, _, _, hlatest, rfl⟩
  · cases h
    exact .inl rfl

/-- An upsert edits one worker. -/
lemma upsertWorker_eq_ok {id : String} {changes : WorkerChanges} {left : Run}
    (h : run.upsertWorker id changes = .ok left) :
    ∃ latest : WorkerRecord, latest.id.value = id ∧ run.latestWorker latest.id = latest ∧
      left = run.setWorker (latest.edited changes) := by
  obtain ⟨worker, hworker, hleft⟩ := Except.bind_eq_ok.1 h
  have hmissing : ∀ worker, (if WorkerRecord.isSet changes.role then newWorker id else .error
      (.runStore s!"worker '{id}' does not exist; --role is required to create it" "data")) =
        .ok worker → newWorker id = .ok worker := by
    intro worker hmissing
    split_ifs at hmissing
    exact hmissing
  obtain ⟨hid, hlatest⟩ := workerOr_eq_ok hmissing hworker
  cases hleft
  exact ⟨worker, hid, hlatest, rfl⟩

/-- An upsert with a status edits one worker, and applies a transition to it. -/
lemma upsertWorkerStatus_eq_ok {id now : String} {changes : WorkerChanges} {status : ManualStatus}
    {left : Run} (h : run.upsertWorkerStatus id changes status now = .ok left) :
    ∃ latest worker : WorkerRecord, ∃ transition,
      latest.id.value = id ∧ run.latestWorker latest.id = latest ∧
      run.upsertWorker id changes = .ok (run.setWorker (latest.edited changes)) ∧
      manualTransition (latest.edited changes) changes status now = .ok transition ∧
      (latest.edited changes).applyTransition transition = .ok worker ∧
      left = (run.setWorker (latest.edited changes)).setWorker worker := by
  obtain ⟨run', hrun', happlied⟩ := Except.bind_eq_ok.1 h
  obtain ⟨latest, hlatestId, hlatest, rfl⟩ := upsertWorker_eq_ok hrun'
  obtain ⟨worker, hworker, happlied⟩ := Except.bind_eq_ok.1 happlied
  obtain ⟨transition, hmanual, happlied⟩ := Except.bind_eq_ok.1 happlied
  obtain ⟨worker', hworker', hleft⟩ := Except.bind_eq_ok.1 happlied
  cases hleft
  obtain ⟨hid, hfound⟩ := workerOr_eq_ok (fun _ h => h) hworker
  obtain rfl : latest.edited changes = worker := by
    have hsame : latest.id = worker.id := WorkerId.ext (hlatestId.trans hid.symm)
    rw [latestWorker_setWorker, if_pos (show (latest.edited changes).id = worker.id from hsame)]
      at hfound
    exact hfound
  exact ⟨latest, worker', transition, hlatestId, hlatest, hrun', hmanual, hworker', rfl⟩

end Run

/-! ## Mutations -/

namespace RunMutation

variable {run left : Run} {now : String} {transitions : List WorkerTransition} {error : PyError}
  {field : JournalField}

lemma applyTransitions_eq_ok
    (h : (applyTransitions transitions).apply now run = .ok left) :
    ∃ run', run.applyTransitions transitions = .ok run' ∧ left.workers = run'.workers := by
  simp only [apply, bind, Except.bind] at h
  split at h
  · cases h
  · next run' hrun' =>
    cases h
    exact ⟨run', hrun', rfl⟩

lemma isRefreshed_of_applyTransitions
    (h : (applyTransitions transitions).apply now run = .ok left) : left.normalize.IsRefreshed := by
  simp only [apply, bind, Except.bind] at h
  split at h
  · cases h
  · cases h
    exact Run.isRefreshed_normalize_refreshSummary _

lemma applyTransitions_eq_error
    (h : (applyTransitions transitions).apply now run = .error error) :
    run.applyTransitions transitions = .error error := by
  simp only [apply, bind, Except.bind] at h
  split at h
  · next hrun' =>
    cases h
    exact hrun'
  · cases h

/-- A journal mutation without a run update leaves the workers alone. -/
lemma workers_journal {mutation : JournalMutation IntentFactory RunUpdate}
    (hupdate : mutation.update = none)
    (h : (journal field mutation).apply now run = .ok left) : left.workers = run.workers := by
  by_cases hintent : ∃ entryId kind factory, mutation = .recordIntent entryId kind factory
  · obtain ⟨entryId, kind, factory, rfl⟩ := hintent
    obtain ⟨intent, -, -, rfl⟩ := JournalMutation.recordIntent_eq_ok h
    simp
  · obtain ⟨updated, happly, rfl⟩ := JournalMutation.apply_eq_ok
      (fun entryId kind factory heq => hintent ⟨entryId, kind, factory, heq⟩) h
    rw [hupdate] at happly
    cases happly
    simp

/-- A journal mutation with a run update changes the workers as the update does. -/
lemma workers_journal_update {mutation : JournalMutation IntentFactory RunUpdate}
    {update : RunUpdate} (hupdate : mutation.update = some update)
    (h : (journal field mutation).apply now run = .ok left) :
    ∃ updated, update.apply run = .ok updated ∧ left.workers = updated.workers := by
  have hintent : ∀ entryId kind factory, mutation ≠ .recordIntent entryId kind factory := by
    rintro entryId kind factory rfl
    cases hupdate
  obtain ⟨updated, happly, rfl⟩ := JournalMutation.apply_eq_ok hintent h
  rw [hupdate] at happly
  exact ⟨updated, happly, by simp⟩

/-- The transitions a mutation may apply. -/
def MayApply (transition : WorkerTransition) : RunMutation → Prop
  | applyTransitions transitions => transition ∈ transitions
  | journal _ mutation =>
    (∃ workerId sessionId response, mutation.update = some (.abortWorker workerId sessionId response)) ∧
      (∃ abort, transition.payload = .aborted abort) ∧ transition.attemptFinalization = none
  | upsertWorkerStatus _ _ _ =>
    ((∃ startedAt clear, transition.payload = .active startedAt clear) ∨
      ∃ blockers, transition.payload = .dependencyBlocked blockers) ∧
        transition.attemptFinalization = none
  | _ => False

lemma manualTransition_eq_ok (id : String) (changes : WorkerChanges) {worker : WorkerRecord}
    {status : ManualStatus} {transition : WorkerTransition}
    (h : Run.manualTransition worker changes status now = .ok transition) :
    transition.workerId = worker.id ∧ MayApply transition (.upsertWorkerStatus id changes status) := by
  cases status with
  | active =>
    cases h
    exact ⟨rfl, .inl ⟨_, _, rfl⟩, rfl⟩
  | blocked =>
    unfold Run.manualTransition at h
    dsimp only at h
    split_ifs at h
    cases h
    exact ⟨rfl, .inr ⟨_, rfl⟩, rfl⟩

/-- A mutation changes a field that edits leave only by the transitions it may apply. -/
theorem apply_latestWorker_eq {mutation : RunMutation} {workerId : WorkerId} {β : Type}
    (f : WorkerRecord → β)
    (hf : ∀ latest worker : WorkerRecord, latest.EditedFrom worker → f worker = f latest)
    (hsnapshot : ∀ t, mutation.MayApply t → ∀ patch, t.payload ≠ .snapshotApplied patch)
    (htransition : ∀ t, mutation.MayApply t → t.workerId = workerId → ∀ latest : WorkerRecord,
      f (latest.reduce t) = f latest)
    (h : mutation.apply now run = .ok left) :
    f (left.latestWorker workerId) = f (run.latestWorker workerId) := by
  -- the latest worker depends on the workers only
  have hsame : ∀ run' : Run, left.workers = run'.workers →
      left.latestWorker workerId = run'.latestWorker workerId :=
    fun run' hworkers => Run.latestWorker_congr (by rw [hworkers])
  cases mutation with
  | applyStartRequest request =>
    rcases Run.applyStartRequest_eq_ok h with hworkers | ⟨latest, _, _, _, _, hlatest, hworkers⟩
    · rw [hsame run hworkers]
    · rw [hsame (run.setWorker _) hworkers]
      refine Run.apply_latestWorker_of_edited f hf hlatest ?_ workerId
      exact ⟨rfl, rfl, rfl, rfl⟩
  | markRunActive =>
    cases h
    rfl
  | refreshSummary =>
    cases h
    rfl
  | applyTransitions transitions =>
    obtain ⟨run', hrun', hworkers⟩ := applyTransitions_eq_ok h
    rw [hsame run' hworkers]
    exact Run.applyTransitions_keeps (P := fun worker => f worker = f (run.latestWorker workerId))
      hsnapshot hrun' (fun t ht hid worker _ hworker => (htransition t ht hid worker).trans hworker)
      rfl
  | journal field mutation =>
    cases hupdate : mutation.update with
    | none => rw [hsame run (workers_journal hupdate h)]
    | some update =>
      obtain ⟨updated, hupdated, hworkers⟩ := workers_journal_update hupdate h
      rw [hsame updated hworkers]
      cases update with
      | createdWorkerSession workerId' sessionId cleanupRequested agent model =>
        cases hupdated
        have hid := Run.id_latestWorker run workerId'
        refine Run.apply_latestWorker_of_edited f hf (congrArg run.latestWorker hid) ?_ workerId
        cases cleanupRequested <;> exact ⟨rfl, rfl, rfl, rfl⟩
      | abortWorker id sessionId response =>
        obtain ⟨⟨worker, session⟩, hworker, happlied⟩ := Except.bind_eq_ok.1 hupdated
        obtain ⟨worker', hworker', hleft⟩ := Except.bind_eq_ok.1 happlied
        cases hleft
        have hget := Run.get?_of_workerWithSession hworker
        have hlatest : run.latestWorker worker.id = worker :=
          Run.latestWorker_of_get? ((WorkerMap.id_of_get? hget).symm ▸ hget)
        have hmay : MayApply (worker.markAborted (abortRecord sessionId response))
            (.journal field mutation) :=
          ⟨⟨_, _, _, hupdate⟩, ⟨_, rfl⟩, rfl⟩
        exact Run.apply_latestWorker_of_reduced f hlatest rfl (hsnapshot _ hmay) hworker'
          (htransition _ hmay)
  | upsertWorker id changes =>
    obtain ⟨latest, -, hlatest, rfl⟩ := Run.upsertWorker_eq_ok h
    exact Run.apply_latestWorker_of_edited f hf hlatest (latest.editedFrom_edited changes) workerId
  | upsertWorkerStatus id changes status =>
    obtain ⟨latest, worker, transition, -, hlatest, -, hmanual, hworker, rfl⟩ :=
      Run.upsertWorkerStatus_eq_ok h
    obtain ⟨hid, hmay⟩ := manualTransition_eq_ok id changes hmanual
    -- the edit comes first, and the transition is applied to the edited worker
    have hedited : (run.setWorker (latest.edited changes)).latestWorker (latest.edited changes).id =
        latest.edited changes := by
      rw [Run.latestWorker_setWorker, if_pos rfl]
    rw [Run.apply_latestWorker_of_reduced f hedited hid (hsnapshot _ hmay) hworker
      (htransition _ hmay)]
    exact Run.apply_latestWorker_of_edited f hf hlatest (latest.editedFrom_edited changes) workerId

end RunMutation

end OpencodeSession
