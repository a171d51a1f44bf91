import OpencodeSession.Properties.StartRule

/-!
# Fail-fast stops at the first failure

A start under the fail-fast policy, as the only writer of its run: once an attempt has left its
worker neither done nor scheduled for a retry, the start makes no further request of an attempt.

The loop stops at the error of an outcome.  A time-out and a failure without a retry left report
one, and so does every exception; a result reports none, whatever its status, so a result that
leaves its worker failed does not stop the loop if another worker can be started.
`stopsAtFailure_of_runs` is the statement for the runs in which that does not happen, from every
record, and `not_stopsAtFailure_failedResult` is a run in which it does.

The condition is about the record before the result: a worker that ends undone makes no other worker
ready, and none unready (`readyWorkerIds_eq_nil_iff`).

The assertions of the proof are `Clear`, that nothing has failed, and `Halted`, that nothing was
attempted after a failure.  They meet in the end of an attempt (`safe_recordOutcome`): the outcome
has an error, or nothing has failed, or no worker is ready in the run it leaves.
-/

namespace OpencodeSession

namespace FailFast

/-! ## Failures -/

/-- Whether the recorded outcome of an attempt leaves its worker neither done nor scheduled for a
retry.  A record that the caller does not get to see counts as such. -/
def outcomeFails (workerId : String) : UpdateAnswer → Bool
  | .committed _ _ saved => (saved.workers.get? workerId).all fun worker =>
      worker.lifecycleState ≠ .doneCollect ∧ worker.lifecycleState ≠ .activeRetry
  | .rejected _ => false
  | .lost _ => true

/-- Whether a worker of the start has failed after an event: by the outcome of its attempt, or by
the end of the start. -/
def leavesFailed : Event storeInterface Unit → Bool
  | ⟨_, ⟨.recording workerId, .updateRun _⟩, answer⟩ => outcomeFails workerId answer
  | ⟨_, ⟨.failing, .updateRun _⟩, answer⟩ => UpdateAnswer.written answer
  | _ => false

/-- Whether a request is one of an attempt. -/
def isOfAttempt (call : Call) : Bool :=
  call.phase.stage = .attempting || (match call.request with
    | .executePrompt _ => true
    | _ => false)

/-- After a failure nothing is requested for an attempt. -/
def StopsAtFailure (events : List (Event storeInterface Unit)) : Prop :=
  events.Pairwise fun e e' => leavesFailed e = true → isOfAttempt e'.op = false

instance : DecidablePred StopsAtFailure := fun _ => inferInstanceAs (Decidable (List.Pairwise _ _))

/-- A result that leaves its worker other than done is recorded only if no other worker of the
record can be started. -/
def FailedResultIsLast (stored : Option Run) (call : Call) : Prop :=
  ∀ workerId transition result promptIds startedAt run,
    call = ⟨.recording workerId, .updateRun (.applyTransitions [transition])⟩ →
    transition.payload = .resultApplied result promptIds startedAt →
    workerResultLifecycleState result.status ≠ .doneCollect →
    stored = some run → ∀ id, run.workers.byId.Startable id → id = workerId

/-! ## A worker that ends -/

/-- A worker that was not done has ended neither done nor executable, and the others are as they
were. -/
structure EndedUndone (workers workers' : Workers) (id : String) : Prop where
  keys : workers'.keys = workers.keys
  others : ∀ id', id' ≠ id → workers'.get? id' = workers.get? id'
  dependencies : workers'.dependencyGraph id = workers.dependencyGraph id
  undone : workers.dependencyDone id = false
  ended : workers'.dependencyDone id = false
  notExecutable : workers'.executable id = false

/-- The other workers can be started just as before. -/
lemma EndedUndone.startable_iff {workers workers' : Workers} {id v : String}
    (h : EndedUndone workers workers' id) :
    workers'.Startable v ↔ workers.Startable v ∧ v ≠ id := by
  have hgraph : workers'.dependencyGraph = workers.dependencyGraph := by
    funext id'
    by_cases hid : id' = id
    · rw [hid, h.dependencies]
    · rw [Workers.dependencyGraph, Workers.dependencyGraph, h.others id' hid]
  have hdepends : ∀ a b, workers'.DependsOn a b ↔ workers.DependsOn a b := by
    intro a b
    simp only [Workers.DependsOn, Workers.dependenciesOf, hgraph]
  have hdone : ∀ d, workers'.dependencyDone d = workers.dependencyDone d := by
    intro d
    by_cases hid : d = id
    · rw [hid, h.undone, h.ended]
    · rw [Workers.dependencyDone, Workers.dependencyDone, h.others d hid]
  by_cases hid : v = id
  · refine iff_of_false (fun hstart => ?_) fun hstart => hstart.2 hid
    rw [hid] at hstart
    exact Bool.eq_false_iff.1 h.notExecutable hstart.executable
  · have hexec : workers'.executable v = workers.executable v := by
      rw [Workers.executable, Workers.executable, h.others v hid]
    have hblockable : workers'.blockable v = workers.blockable v := by
      rw [Workers.blockable, Workers.blockable, h.others v hid]
    have hcycle : workers'.OnSearchPathCycle v ↔ workers.OnSearchPathCycle v :=
      Workers.onSearchPathCycle_congr h.keys hgraph
    rw [and_iff_left hid]
    constructor
    · intro hstart
      exact ⟨hexec ▸ hstart.executable, fun d hd => hdone d ▸ hstart.dependencies d
        ((hdepends v d).2 hd), fun hb => hcycle.not.1 (hstart.acyclic (hblockable ▸ hb))⟩
    · intro hstart
      exact ⟨hexec ▸ hstart.executable, fun d hd => (hdone d).trans (hstart.dependencies d
        ((hdepends v d).1 hd)), fun hb => hcycle.not.2 (hstart.acyclic (hblockable ▸ hb))⟩

/-- The stored worker has a prompt, so it is there. -/
def StoredPrompted (workerId : WorkerId) : Option Run → Prop :=
  StoredRun fun run => (run.latestWorker workerId).hasPrompt = true

lemma StoredPrompted.of_opens {workerId : WorkerId} {allowed : String → Prop} {call : Call}
    {stored stored' : Option Run} {answer : call.request.Answer}
    (h : StoredPrompted workerId stored) (hopens : call.Opens workerId allowed)
    (hanswer : call.request.Responds stored answer stored') : StoredPrompted workerId stored' :=
  h.of_responds hanswer fun mutation hmutation _ _ _ hleft hprompt =>
    ((hopens.updates mutation hmutation).hasPrompt_latestWorker hleft workerId).trans hprompt

/-- The stored worker is there and pending, as it is while an attempt of it goes on. -/
def Working (workerId : WorkerId) (stored : Option Run) : Prop :=
  StoredPending workerId stored ∧ StoredPrompted workerId stored

lemma get?_of_hasPrompt {run : Run} {workerId : WorkerId}
    (h : (run.latestWorker workerId).hasPrompt = true) :
    run.workers.get? workerId.value = some (run.latestWorker workerId) := by
  unfold Run.latestWorker at h ⊢
  cases hget : run.workers.get? workerId.value with
  | some worker => rfl
  | none =>
    rw [hget] at h
    cases h

/-- The record of a result that leaves its worker other than done. -/
lemma endedUndone_of_result {seen run' : Run} {transition : WorkerTransition} {workerId : WorkerId}
    {result : ExecutionResult} {promptIds : List String} {startedAt : Option JsonValue}
    (hpayload : transition.payload = .resultApplied result promptIds startedAt)
    (hid : transition.workerId = workerId)
    (hfailed : workerResultLifecycleState result.status ≠ .doneCollect)
    (hpending : (seen.latestWorker workerId).lifecycleState.pending = true)
    (hprompt : (seen.latestWorker workerId).hasPrompt = true)
    (h : seen.applyTransitions [transition] = .ok run') :
    EndedUndone seen.workers.byId run'.workers.byId workerId.value := by
  subst hid
  have hsnapshot : ∀ t ∈ [transition], ∀ patch, t.payload ≠ .snapshotApplied patch := by
    intro t ht patch
    rw [List.mem_singleton.1 ht, hpayload]
    nofun
  have hsingle : transition ∈ [transition] := List.mem_singleton_self _
  have hget := get?_of_hasPrompt hprompt
  obtain ⟨-, hget'⟩ := Run.get?_applyTransitions_of_mem hsnapshot (by simp) h hsingle
  have hbefore : seen.workers.byId.get? transition.workerId.value = some _ := hget
  have hafter : run'.workers.byId.get? transition.workerId.value = some _ := hget'
  have hstate : ((seen.latestWorker transition.workerId).reduce transition).lifecycleState =
      workerResultLifecycleState result.status := by
    rw [WorkerRecord.lifecycleState_reduce (hsnapshot _ hsingle)
      (WorkerRecord.acceptedAbort_of_pending hpending), hpayload,
      TransitionPayload.leaves_eq_of_targetState (by simp) rfl]
  have hmem := workerResultLifecycleState_mem result.status
  -- the other workers are the same, and this one was not done before nor is after
  refine ⟨?_, fun id hid => ?_, ?_, ?_, ?_, ?_⟩
  · refine Run.ids_applyTransitions hsnapshot h fun t ht => ?_
    rw [List.mem_singleton.1 ht]
    exact WorkerMap.mem_ids_iff.2 ⟨_, hget⟩
  · refine Run.get?_applyTransitions_of_notMem hsnapshot h fun t ht heq => hid ?_
    rw [← heq, List.mem_singleton.1 ht]
  · rw [Workers.dependencyGraph, Workers.dependencyGraph, hbefore, hafter]
    exact congrArg some (congrArg WorkerRecord.Configuration.dependencies
      (WorkerRecord.configuration_reduce _ _))
  · rw [Bool.eq_false_iff, ne_eq, Workers.dependencyDone_iff]
    rintro ⟨worker, hworker, hdone⟩
    obtain rfl := Option.some.inj (hbefore.symm.trans hworker)
    rw [hdone] at hpending
    cases hpending
  · rw [Bool.eq_false_iff, ne_eq, Workers.dependencyDone_iff]
    rintro ⟨worker, hworker, hdone⟩
    obtain rfl := Option.some.inj (hafter.symm.trans hworker)
    exact hfailed (hstate.symm.trans hdone)
  · -- no result leaves its worker executable
    have hexec : (workerResultLifecycleState result.status).executable = false := by
      revert hmem
      generalize workerResultLifecycleState result.status = state
      cases state <;> decide
    rw [Workers.executable, hafter]
    simp [WorkerRecord.isExecutable, hstate, hexec]

/-- After such a result nothing is ready just when no other worker could be started before it. -/
lemma readyWorkerIds_eq_nil_iff {workers workers' : Workers} {id : String}
    (h : EndedUndone workers workers' id) :
    (analyzeWorkerDependencies workers').readyWorkerIds = [] ↔
      ∀ v, workers.Startable v → v = id := by
  rw [List.eq_nil_iff_forall_not_mem]
  refine forall_congr' fun v => ?_
  rw [Workers.mem_readyWorkerIds_iff_startable, h.startable_iff, not_and, not_not]

/-! ## Assertions -/

/-- Nothing has failed. -/
def Clear (s : StartRecord) : Prop := ∀ e ∈ s.2, leavesFailed e = false

/-- Nothing was attempted after a failure. -/
def Halted (s : StartRecord) : Prop := StopsAtFailure s.2

/-- The contract of a start that is alone, whose failed results are last. -/
abbrev contract : Contract storeInterface StartRecord :=
  aloneContract (fun s call => FailedResultIsLast s.1 call) Halted

variable {s : StartRecord} {stored : Option Run} {e : Event storeInterface Unit}
  {call : Call} {answer : call.request.Answer} {run : Run} {workerId : WorkerId} {α : Type}

lemma Clear.halted (h : Clear s) : Halted s :=
  List.pairwise_of_forall_mem_list fun e he _ _ hfails =>
    absurd hfails (Bool.eq_false_iff.1 (h e he))

lemma Clear.append (h : Clear s) (he : leavesFailed e = false) : Clear (stored, s.2 ++ [e]) := by
  intro e' he'
  rcases List.mem_append.1 he' with he' | he'
  · exact h e' he'
  · rw [List.mem_singleton.1 he']
    exact he

lemma Clear.halted_append (h : Clear s) : Halted (stored, s.2 ++ [e]) := by
  refine List.pairwise_append.2 ⟨h.halted, List.pairwise_singleton _ _, ?_⟩
  intro e' he' _ _ hfails
  exact absurd hfails (Bool.eq_false_iff.1 (h e' he'))

lemma isOfAttempt_of_quiet {stage : Stage} (h : call.Quiet stage) (hstage : stage ≠ .attempting) :
    isOfAttempt call = false := by
  obtain ⟨phase, request⟩ := call
  have hphase : phase.stage ≠ .attempting := h.phase.trans_ne hstage
  have hrequest := h.request
  rw [isOfAttempt, Bool.or_eq_false_iff, decide_eq_false_iff_not]
  refine ⟨hphase, ?_⟩
  cases request with
  | executePrompt execution => exact absurd rfl (hrequest execution)
  | _ => rfl

lemma Halted.append {stage : Stage} (h : Halted s) (hstage : stage ≠ .attempting)
    (he : e.op.Quiet stage) : Halted (stored, s.2 ++ [e]) := by
  refine List.pairwise_append.2 ⟨h, List.pairwise_singleton _ _, ?_⟩
  intro e' _ e'' he'' _
  rw [List.mem_singleton.1 he'']
  exact isOfAttempt_of_quiet he hstage

lemma phase_of_leavesFailed (h : leavesFailed e = true) :
    (∃ workerId, e.op.phase = .recording workerId) ∨ e.op.phase = .failing := by
  unfold leavesFailed at h
  split at h
  · exact .inl ⟨_, rfl⟩
  · exact .inr rfl
  · cases h

lemma leavesFailed_of_deciding (h : e.op.phase.stage = .deciding) : leavesFailed e = false := by
  rw [Bool.eq_false_iff]
  intro hfails
  rcases phase_of_leavesFailed hfails with ⟨workerId, hphase⟩ | hphase
  · rw [hphase] at h
    cases h
  · rw [hphase] at h
    cases h

lemma leavesFailed_of_opens {allowed : String → Prop} (h : e.op.Opens workerId allowed) :
    leavesFailed e = false := by
  have hphase := h.phase
  rw [Bool.eq_false_iff]
  intro hfails
  rcases phase_of_leavesFailed hfails with ⟨workerId, hrecording⟩ | hfailing
  · rw [hrecording] at hphase
    cases hphase
  · rw [hfailing] at hphase
    cases hphase

lemma leavesFailed_now {phase : Phase} {now : String} :
    leavesFailed ⟨(), ⟨phase, .now⟩, now⟩ = false := by
  cases phase <;> rfl

/-! ## One attempt -/

lemma safe_opening {Q : α → Prop} {p : Command α}
    (h : p.WithinWhen (Call.Grants workerId fun _ => True) (Call.Opens workerId fun _ => True) Q)
    (hs : Clear s ∧ Working workerId s.1) :
    contract.Safe (fun a s => Q a ∧ Clear s ∧ Working workerId s.1) (fun _ s => Halted s)
      p s :=
  (Contract.safe_alone_of_within (J := fun s => Clear s ∧ Working workerId s.1)
    (h.within (Call.grants_of_forall fun _ => trivial))
    (fun _ _ _ _ hop hs hanswer _ => ⟨hs.1.halted_append,
      hs.1.append (leavesFailed_of_opens hop), hs.2.1.of_opens hop hanswer,
      hs.2.2.of_opens hop hanswer⟩) hs).mono
    (fun _ _ h => h) fun _ _ h => h.1.halted

lemma safe_clock {phase : Phase} (hs : Clear s ∧ Working workerId s.1) :
    contract.Safe (fun _ s => Clear s ∧ Working workerId s.1) (fun _ s => Halted s)
      (Command.clock phase) s := by
  refine Contract.safe_call_alone fun now stored hanswer _ => ?_
  have hstored : stored = s.1 := hanswer
  exact ⟨hs.1.halted_append, hs.1.append leavesFailed_now, by rw [hstored]; exact hs.2⟩

/-- The end of an attempt: its outcome has an error, or nothing has failed, or no worker is ready in
the run that it leaves. -/
lemma safe_recordOutcome {worker : WorkerRecord} {attemptId : String}
    {attempt : WorkerAttemptOutcome} {createdSessionIds : List String}
    (hs : Clear s ∧ Working worker.id s.1) :
    contract.Safe (fun outcome s => Halted s ∧ s.1 = some outcome.run ∧
        (outcome.error.isSome = true ∨ Clear s ∨
          (analyzeWorkerDependencies outcome.run.workers.byId).readyWorkerIds = []))
      (fun _ s => Halted s)
      (Execution.recordOutcome worker attemptId attempt createdSessionIds) s := by
  unfold Execution.recordOutcome
  refine Contract.Safe.bind (M := fun _ s => Clear s ∧ Working worker.id s.1)
    (E := fun _ s => Halted s) ?_ (fun now s hs => ?_) fun _ _ h => h
  · split_ifs
    · exact safe_clock hs
    · exact hs
  refine (safe_clock hs).bind (fun finishedAt s hs => ?_) fun _ _ h => h
  obtain ⟨hclear, hpending, run, hstored, hprompt⟩ := hs
  have heffect := attemptEffect worker attempt now
  have hid : (applyWorkerAttemptTransition worker attempt now).workerTransition.workerId =
      worker.id := applyWorkerAttemptTransition_workerId
  generalize applyWorkerAttemptTransition worker attempt now = applied at heffect hid ⊢
  refine Contract.safe_bind_iff.2 (Contract.safe_bind_iff.2 (Command.safe_persist_alone
    fun answer stored hupdates hlast => ⟨hclear.halted_append, ?_⟩))
  cases answer with
  | rejected error => exact hclear.halted_append
  | lost error => exact hclear.halted_append
  | committed now' seen saved =>
    refine ⟨hclear.halted_append, hupdates.of_committed.2.1, ?_⟩
    obtain ⟨hseen, -, left, hmutator, rfl⟩ := hupdates.of_committed
    obtain ⟨run', hrun', hworkers⟩ := RunMutation.applyTransitions_eq_ok hmutator
    have hsnapshot := heffect.ne_snapshotApplied
    obtain ⟨-, hget⟩ := Run.get?_applyTransitions_of_mem (by simpa using hsnapshot) (by simp)
      hrun' (List.mem_singleton_self _)
    have hstate : ((seen.latestWorker worker.id).reduce
        (applied.workerTransition.withFinalizedAttempt (.str attemptId)
          (attemptFinalizationFields applied attempt finishedAt))).lifecycleState =
        applied.workerTransition.payload.leaves
          (seen.latestWorker worker.id).lifecycleState :=
      WorkerRecord.lifecycleState_reduce hsnapshot
        (WorkerRecord.acceptedAbort_of_pending (hpending seen hseen))
    rw [WorkerTransition.withFinalizedAttempt_workerId, hid] at hget
    -- the event shows the worker as the transition leaves it
    have hsettled : applied.workerTransition.payload.leaves
          (seen.latestWorker worker.id).lifecycleState ∈
        [LifecycleState.doneCollect, .activeRetry] →
        leavesFailed ⟨(), ⟨.recording worker.id.value, .updateRun (.applyTransitions
          [applied.workerTransition.withFinalizedAttempt (.str attemptId)
            (attemptFinalizationFields applied attempt finishedAt)])⟩,
          UpdateAnswer.committed now' seen left.normalize⟩ = false := by
      intro hmem
      have hsaved : left.normalize.workers.get? worker.id.value = some _ :=
        (congrArg (fun workers => WorkerMap.get? workers worker.id.value) hworkers).trans hget
      show outcomeFails worker.id.value (.committed now' seen left.normalize) = false
      rw [outcomeFails, hsaved, Option.all_some, hstate, decide_eq_false_iff_not]
      simp only [List.mem_cons, List.not_mem_nil, or_false] at hmem
      tauto
    generalize hpayload : applied.workerTransition.payload = payload at heffect hsettled
    generalize applied.error = error at heffect
    cases heffect with
    | timeout reason error timedOutAt startedAt htimeout => exact .inl rfl
    | failure category reason error ids startedAt => exact .inl rfl
    | retry category reason ids startedAt hlt =>
      exact .inr (.inl (hclear.append (hsettled (by simp [TransitionPayload.leaves,
        TransitionPayload.targetState]))))
    | result result ids startedAt =>
      by_cases hdone : workerResultLifecycleState result.status = .doneCollect
      · refine .inr (.inl (hclear.append (hsettled ?_)))
        rw [TransitionPayload.leaves_eq_of_targetState (by simp) rfl, hdone]
        simp
      · refine .inr (.inr ?_)
        obtain rfl := Option.some.inj (hstored.symm.trans hseen)
        have hfinal : (applied.workerTransition.withFinalizedAttempt (.str attemptId)
            (attemptFinalizationFields applied attempt finishedAt)).payload =
              .resultApplied result ids startedAt := hpayload
        have hended := endedUndone_of_result hfinal hid hdone (hpending run hstored) hprompt hrun'
        show (analyzeWorkerDependencies left.workers.byId).readyWorkerIds = []
        rw [hworkers]
        exact (readyWorkerIds_eq_nil_iff hended).2
          (hlast _ _ result ids startedAt run rfl hpayload hdone hstored)

lemma safe_execute {worker : WorkerRecord} {prompt : String} {strategy : BlockingStrategy}
    {agent model : Option String} {cleanupRequested : Bool} (hclear : Clear s)
    (hworking : Working worker.id s.1) :
    contract.Safe (fun outcome s => Halted s ∧ s.1 = some outcome.run ∧
        (outcome.error.isSome = true ∨ Clear s ∨
          (analyzeWorkerDependencies outcome.run.workers.byId).readyWorkerIds = []))
      (fun _ s => Halted s)
      (Execution.execute run worker prompt strategy agent model cleanupRequested) s := by
  have hgranted : worker.Granted worker.id fun _ => True := ⟨rfl, fun _ _ => trivial⟩
  rw [Execution.execute_eq_bind]
  refine (safe_opening (Execution.withinWhen_openAttempt run prompt strategy agent model
    cleanupRequested hgranted) ⟨hclear, hworking⟩).bind (fun opened s hs => ?_) fun _ _ h => h
  obtain ⟨hopened, hclear', hworking'⟩ := hs
  refine safe_recordOutcome ⟨hclear', ?_⟩
  rw [hopened.id]
  exact hworking'

/-- A start under the fail-fast policy: before an attempt nothing has failed. -/
theorem startRule : StartRule (fun s call => FailedResultIsLast s.1 call) Halted Clear Clear
    .failFast where
  quiet stage call s answer stored hstage hcall hhalted _ := hhalted.append hstage hcall
  holds_of_before s := Clear.halted
  holds_of_idle s := Clear.halted
  requesting call s answer stored hcall hclear _ :=
    hclear.append (leavesFailed_of_deciding hcall.phase)
  applied request s now seen saved stored hclear _ _ := hclear.append (leavesFailed_of_deciding rfl)
  deciding call s answer stored hcall hclear _ := hclear.append (leavesFailed_of_deciding hcall.phase)
  attempt s run worker prompt strategy agent model cleanupRequested hclear hrun hget hexec := by
    obtain ⟨hprompt, hexecutable⟩ := WorkerRecord.isExecutable_iff.1 hexec
    have hlatest : run.latestWorker worker.id = worker := Run.latestWorker_of_get? hget
    refine (safe_execute hclear ⟨fun stored hstored => ?_, run, hrun, ?_⟩).mono
      (fun outcome s hs => ?_) fun _ _ h => h
    · obtain rfl := Option.some.inj (hrun.symm.trans hstored)
      rw [hlatest, LifecycleState.pending, hexecutable]
      rfl
    · show (run.latestWorker worker.id).hasPrompt = true
      rw [hlatest]
      exact hprompt
    · obtain ⟨hhalted, hrun', hend⟩ := hs
      refine ⟨hhalted, hrun', ?_⟩
      exact hend.imp (fun herror => ⟨rfl, herror⟩) id

/-! ## Fail-fast -/

/-- A start under the fail-fast policy whose failed results find no other worker to start stops at
its first failure: in every run from every record, nothing is requested for an attempt after an
outcome that left its worker neither done nor scheduled for a retry. -/
theorem stopsAtFailure_of_runs (datetime : Datetime) (rounds : Nat) (request : RunStartRequest)
    (hpolicy : Flow.normalizeExecutionPolicy request.start.executionPolicy = .ok .failFast)
    (start : Option Run) (events : List (Event storeInterface Unit))
    (c : Config storeInterface PyError StartOutcome Unit (Option Run))
    (hrun : Runs (fun c e c' => Config.Fires (storeSurroundings Unit) c e c' ∧
        FailedResultIsLast c.state e.op)
      ⟨start, fun _ => Commands.startRun datetime rounds request⟩ events c) :
    StopsAtFailure events := by
  have hclear : Clear (start, []) := fun e he => absurd he List.not_mem_nil
  have honly : ∀ policy, Flow.normalizeExecutionPolicy request.start.executionPolicy = .ok policy →
      policy = .failFast := fun policy h => (Except.ok.inj (hpolicy.symm.trans h)).symm
  exact Contract.holds_of_alone (startRule.safe_startRun honly hclear) hclear.halted
    (Config.runs_recording hrun)

/-! ## Starts of two workers -/

/-- Two workers that wait for nobody, each with a session and a prompt. -/
def independentWorkers : WorkerMap :=
  (WorkerMap.empty.set
    { id := ⟨"a", WorkerId.nonempty_a⟩, sessionId := some "ses_a", prompt := some "work" }).set
    { id := ⟨"b", WorkerId.nonempty_b⟩, sessionId := some "ses_b", prompt := some "work" }

/-- Two workers of which the second waits for the first. -/
def chainedWorkers : WorkerMap :=
  independentWorkers.set
    { id := ⟨"b", WorkerId.nonempty_b⟩, sessionId := some "ses_b", prompt := some "work",
      dependencies := ["a"] }

/-- A server whose results have one status. -/
def resultServer (status : String) : ScriptedServer where
  createdSession := "ses"
  execute _ := .ok { status := status }
  readable _ := true
  sessionNonempty := ScriptedServer.nonempty_ses

/-- A server that refuses every prompt. -/
def refusingServer : ScriptedServer where
  createdSession := "ses"
  execute _ := .error (.openCodeApi "no model" none "POST" "/run")
  readable _ := true
  sessionNonempty := ScriptedServer.nonempty_ses

/-- The start of workers, with the default policy. -/
def startOf (workers : WorkerMap) :
    Config storeInterface PyError StartOutcome Unit (Option Run) where
  state := some { Run.new "demo" "/" "" with workers := workers }
  program _ := Commands.startRun .unreadable 2 { name := "demo" }

/-- A result that leaves its worker other than done is allowed if no other worker is ready. -/
def allowLast (s : StartRecord) : Call → Bool
  | ⟨.recording workerId, .updateRun (.applyTransitions [transition])⟩ =>
    match transition.payload with
    | .resultApplied result _ _ => workerResultLifecycleState result.status = .doneCollect ||
      s.1.all fun run => (analyzeWorkerDependencies run.workers.byId).readyWorkerIds.all
        fun id => id = workerId
    | _ => true
  | _ => true

lemma failedResultIsLast_of_allowLast {s : StartRecord} {call : Call}
    (h : allowLast s call = true) : FailedResultIsLast s.1 call := by
  rintro workerId transition result promptIds startedAt run rfl hpayload hfailed hstored id hstart
  have hlast : (match transition.payload with
    | .resultApplied result _ _ =>
      decide (workerResultLifecycleState result.status = .doneCollect) ||
        s.1.all fun run => (analyzeWorkerDependencies run.workers.byId).readyWorkerIds.all
          fun id => decide (id = workerId)
    | _ => true) = true := h
  rw [hpayload, hstored, Option.all_some, Bool.or_eq_true, decide_eq_true_iff] at hlast
  have hall := List.all_eq_true.1 (hlast.resolve_left hfailed) id
    (Workers.mem_readyWorkerIds_iff_startable.2 hstart)
  exact of_decide_eq_true hall

/-- Whether a start has returned after a failure, with some workers ready. -/
def endsFailed (ready : List String) (events : List (Event storeInterface Unit))
    (c : Config storeInterface PyError StartOutcome Unit (Option Run)) : Bool :=
  events.any leavesFailed &&
    (c.state.any fun run => (analyzeWorkerDependencies run.workers.byId).readyWorkerIds = ready) &&
    match c.program () with
    | .done _ => true
    | _ => false

/-- What is played against a server is a run that the rule is about. -/
lemma exists_run_of_endsFailed (workers : WorkerMap) (server : ScriptedServer) (steps : Nat)
    (ready : List String) (h : (((startOf workers).record []).play
      (server.turns allowLast steps)).map
        (fun result => endsFailed ready result.1 result.2.forget) = some true) :
    ∃ events c, Runs (fun c e c' => Config.Fires (storeSurroundings Unit) c e c' ∧
        FailedResultIsLast c.state e.op) (startOf workers) events c ∧
      endsFailed ready events c = true := by
  obtain ⟨⟨events, c⟩, hplayed, hends⟩ := Option.map_eq_some_iff.1 h
  exact ⟨events, c.forget, Config.runs_forget (I := storeInterface) FailedResultIsLast
    (ScriptedServer.runs_of_play (fun _ _ => failedResultIsLast_of_allowLast) hplayed), hends⟩

/-- A start stops at a refused prompt while the other worker is ready, and at a failed result that
no worker but its dependent waited for. -/
theorem stopsAtFailure_failedAttempts :
    (∃ events c, Runs (fun c e c' => Config.Fires (storeSurroundings Unit) c e c' ∧
        FailedResultIsLast c.state e.op) (startOf independentWorkers) events c ∧
      endsFailed ["b"] events c = true ∧ StopsAtFailure events) ∧
    ∃ events c, Runs (fun c e c' => Config.Fires (storeSurroundings Unit) c e c' ∧
        FailedResultIsLast c.state e.op) (startOf chainedWorkers) events c ∧
      endsFailed [] events c = true ∧ StopsAtFailure events := by
  have hpolicy : Flow.normalizeExecutionPolicy ({} : StartRequest).executionPolicy =
      .ok .failFast := by
    decide +kernel
  constructor
  · obtain ⟨events, c, hrun, hends⟩ : ∃ events c,
        Runs _ (startOf independentWorkers) events c ∧ endsFailed ["b"] events c = true :=
      exists_run_of_endsFailed _ refusingServer 14 _ (by decide +kernel)
    exact ⟨events, c, hrun, hends,
      stopsAtFailure_of_runs .unreadable 2 { name := "demo" } hpolicy _ events c hrun⟩
  · obtain ⟨events, c, hrun, hends⟩ : ∃ events c,
        Runs _ (startOf chainedWorkers) events c ∧ endsFailed [] events c = true :=
      exists_run_of_endsFailed _ (resultServer "failed") 14 _ (by decide +kernel)
    exact ⟨events, c, hrun, hends,
      stopsAtFailure_of_runs .unreadable 2 { name := "demo" } hpolicy _ events c hrun⟩

/-- A result whose status is `failed` does not stop the start: the second worker is executed. -/
theorem not_stopsAtFailure_failedResult :
    Flow.normalizeExecutionPolicy ({} : StartRequest).executionPolicy = .ok .failFast ∧
    ∃ events, ∃ c : Config storeInterface PyError StartOutcome Unit (Option Run),
      Runs (Config.Fires (storeSurroundings Unit)) (startOf independentWorkers) events c ∧
      ¬ StopsAtFailure events := by
  refine ⟨by decide +kernel, ?_⟩
  have hplay : (((startOf independentWorkers).record []).play
      ((resultServer "failed").turns (fun _ _ => true) 15)).map
      (fun result => decide (StopsAtFailure result.1)) = some false := by
    decide +kernel
  obtain ⟨⟨events, c⟩, hplayed, hstops⟩ := Option.map_eq_some_iff.1 hplay
  have hrun := Config.runs_forget (I := storeInterface) (fun _ _ => True)
    (ScriptedServer.runs_of_play (fun _ _ _ => trivial) hplayed)
  exact ⟨events, c.forget, hrun.mono fun _ _ _ h => h.1, of_decide_eq_false hstops⟩

end FailFast

end OpencodeSession
