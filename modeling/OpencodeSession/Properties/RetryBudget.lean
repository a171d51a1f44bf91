import OpencodeSession.Properties.AttemptRule

/-!
# The retry that a state promises

A worker that fails or times out while it has a retry left enters a state from which an operator may
start it again.  The state is what the planner reads: it does not ask again for the retry, which an
edit of the worker can take away meanwhile (`selects_without_retry`).  If no edit does that, then
the worker has its retry in every record, and whoever is selected from such a state too
(`retryAvailable_of_selected`).

The outcome of an attempt is computed from the worker in hand, which is the stored one, so a
time-out promises the retry that the worker has.
-/

namespace OpencodeSession

/-- A state that promises a retry. -/
def LifecycleState.promisesRetry : LifecycleState → Bool
  | failedRetry | timeoutRetry | timeoutFailedRetry => true
  | _ => false

namespace WorkerRecord

variable {latest worker : WorkerRecord} {workerId : WorkerId} {payload : TransitionPayload}
  {transition : WorkerTransition}

/-- What the state of a worker promises, the worker has. -/
def Budgeted (worker : WorkerRecord) : Prop :=
  worker.lifecycleState.promisesRetry = true → worker.retryAvailable = true

/-- What decides about a retry, apart from the category of the failure. -/
def retryBudget (worker : WorkerRecord) : Option Bool × List String × Int × Int :=
  (worker.failureRetryable, worker.retryableFailures, worker.retryCount, worker.retryLimit)

lemma retryAvailable_congr {category : Option String} (h : latest.retryBudget = worker.retryBudget)
    (hcategory : category = none → latest.currentFailureCategory = worker.currentFailureCategory) :
    latest.retryAvailable category = worker.retryAvailable category := by
  simp only [retryBudget, Prod.mk.injEq] at h
  obtain ⟨hretryable, hfailures, hcount, hlimit⟩ := h
  unfold retryAvailable
  rw [hretryable, hfailures, hcount, hlimit]
  cases category with
  | none => rw [hcategory rfl]
  | some category => rfl

lemma Budgeted.congr (h : latest.Budgeted) (hstate : worker.lifecycleState = latest.lifecycleState)
    (hbudget : worker.retryBudget = latest.retryBudget)
    (hcategory : worker.currentFailureCategory = latest.currentFailureCategory) :
    worker.Budgeted := by
  intro hpromises
  rw [retryAvailable_congr hbudget fun _ => hcategory]
  exact h (hstate ▸ hpromises)

lemma budgeted_of_state (h : worker.lifecycleState.promisesRetry = false) : worker.Budgeted := by
  intro hpromises
  rw [h] at hpromises
  cases hpromises

lemma budgeted_of_acceptedAbort (h : worker.acceptedAbort = true) : worker.Budgeted := by
  refine budgeted_of_state ?_
  have hstatus : worker.lifecycleState.status = .aborted := (acceptedAbort_iff.1 h).2
  revert hstatus
  cases worker.lifecycleState <;> decide

/-! ## Transitions -/

lemma budgeted_reduce (hsnapshot : ∀ patch, transition.payload ≠ .snapshotApplied patch)
    (h : (latest.reducePayload transition.workerId transition.payload).Budgeted) :
    (latest.reduce transition).Budgeted := by
  by_cases habort : latest.acceptedAbort = true
  · exact budgeted_of_acceptedAbort (acceptedAbort_reduce hsnapshot habort)
  · rw [apply_reduce Budgeted (fun _ => rfl) hsnapshot, if_neg (by simp [habort])]
    exact h

lemma budgeted_of_leaves (h : (payload.leaves latest.lifecycleState).promisesRetry = false) :
    (latest.reducePayload workerId payload).Budgeted :=
  budgeted_of_state (by rw [lifecycleState_reducePayload, h])

lemma budgeted_timedOut {reason : String} {status : TimeoutPolicy} {timedOutAt : JsonValue}
    {manual : Bool} {startedAt : Option JsonValue} :
    (latest.reducePayload workerId (.timedOut reason status timedOutAt
      (latest.retryAvailable (some "timeout")) manual startedAt)).Budgeted := by
  have hretry : (latest.reducePayload workerId (.timedOut reason status timedOutAt
      (latest.retryAvailable (some "timeout")) manual startedAt)).retryAvailable =
        latest.retryAvailable (some "timeout") := by
    simp [retryAvailable, currentFailureCategory, reducePayload, reduceTimedOut,
      setTimeoutStartedAt]
  by_cases havailable : latest.retryAvailable (some "timeout") = true
  · exact fun _ => hretry.trans havailable
  · rw [Bool.not_eq_true] at havailable
    rw [havailable]
    refine budgeted_of_leaves ?_
    rw [TransitionPayload.leaves_eq_of_targetState (by simp) rfl, workerTimeoutLifecycleState_eq]
    cases status <;> rfl

lemma retryBudget_timedOut {reason : String} {status : TimeoutPolicy} {timedOutAt : JsonValue}
    {available manual : Bool} {startedAt : Option JsonValue} :
    (latest.reducePayload workerId (.timedOut reason status timedOutAt available manual
      startedAt)).retryBudget = latest.retryBudget := by
  simp [retryBudget, reducePayload, reduceTimedOut, setTimeoutStartedAt]

end WorkerRecord

namespace RetryBudget

open WorkerRecord

variable {latest worker : WorkerRecord} {workerId : WorkerId} {transition : WorkerTransition}
  {attempt : WorkerAttemptOutcome} {payload : TransitionPayload} {error : Option String}

/-- A transition that leaves the promise of every worker kept. -/
structure Keeps (transition : WorkerTransition) : Prop where
  snapshot : ∀ patch, transition.payload ≠ .snapshotApplied patch
  budgeted : ∀ latest : WorkerRecord, latest.Budgeted → (latest.reduce transition).Budgeted

lemma Keeps.of_reducePayload (hsnapshot : ∀ patch, transition.payload ≠ .snapshotApplied patch)
    (h : ∀ latest : WorkerRecord, latest.Budgeted →
      (latest.reducePayload transition.workerId transition.payload).Budgeted) : Keeps transition :=
  ⟨hsnapshot, fun latest hlatest => budgeted_reduce hsnapshot (h latest hlatest)⟩

/-- The transitions outside of the attempts. -/
lemma keeps_of_outside (h : transition.Outside) : Keeps transition := by
  obtain ⟨workerId, payload, finalization⟩ := transition
  obtain ⟨hpayload, -⟩ := h
  rcases hpayload with hplain | ⟨startedAt, clear, rfl⟩ | ⟨abort, rfl⟩
  · cases payload with
    | failed category reason retryable retryAvailable startedAt ids =>
      obtain rfl : retryable = false := by simpa [TransitionPayload.isPlain] using hplain
      refine .of_reducePayload (by simp) fun latest _ => budgeted_of_leaves ?_
      rw [TransitionPayload.leaves_eq_of_targetState (by simp) rfl, workerFailedLifecycleState_eq]
      rfl
    | dependencyBlocked blockers =>
      exact .of_reducePayload (by simp) fun latest _ => budgeted_of_leaves rfl
    | cleanupUpdated cleanup => exact .of_reducePayload (by simp) fun latest h => h.congr rfl rfl rfl
    | _ => cases hplain
  · exact .of_reducePayload (by simp) fun latest _ => budgeted_of_leaves rfl
  · refine .of_reducePayload (by simp) fun latest h => ?_
    by_cases haccepted : abortIsAccepted (some abort) = true
    · exact budgeted_of_leaves (by rw [TransitionPayload.leaves, if_pos haccepted]; rfl)
    · refine h.congr ?_ rfl rfl
      rw [lifecycleState_reducePayload, TransitionPayload.leaves, if_neg haccepted]

lemma keeps_of_opens {allowed : String → Prop} (h : transition.payload.Opens allowed) :
    Keeps transition := by
  obtain ⟨workerId, payload, finalization⟩ := transition
  cases payload with
  | provisioned sessionId agent model =>
    exact .of_reducePayload (by simp) fun latest h => h.congr rfl rfl rfl
  | active startedAt clear =>
    exact .of_reducePayload (by simp) fun latest _ => budgeted_of_leaves rfl
  | attemptStarted attempt =>
    refine .of_reducePayload (by simp) fun latest h => ?_
    exact (eq_of_core Budgeted (fun _ => rfl) (core_reduceAttemptStarted latest attempt)).mpr h
  | _ => cases h

/-- The outcome of an attempt of the worker. -/
lemma budgeted_of_attemptEffect (h : AttemptEffect worker attempt transition.payload error) :
    (worker.reduce transition).Budgeted := by
  refine budgeted_reduce h.ne_snapshotApplied ?_
  generalize transition.payload = payload at h ⊢
  cases h with
  | result result ids startedAt hcompleted =>
    refine budgeted_of_leaves ?_
    rw [TransitionPayload.leaves_eq_of_targetState (by simp) rfl]
    have hmem := workerResultLifecycleState_mem result.status
    revert hmem
    generalize workerResultLifecycleState result.status = state
    cases state <;> decide
  | timeout reason error timedOutAt startedAt htimeout => exact budgeted_timedOut
  | retry category reason ids startedAt hlt => exact budgeted_of_leaves rfl
  | failure category reason error ids startedAt =>
    refine budgeted_of_leaves ?_
    rw [TransitionPayload.leaves_eq_of_targetState (by simp) rfl, workerFailedLifecycleState_eq]
    rfl

/-! ## Mutations -/

variable {run left : Run} {now : String}

lemma budgeted_setWorker (hrun : (run.latestWorker workerId).Budgeted)
    (hworker : worker.id = workerId → worker.Budgeted) :
    ((run.setWorker worker).latestWorker workerId).Budgeted := by
  rw [Run.latestWorker_setWorker]
  split_ifs with hid
  · exact hworker hid
  · exact hrun

lemma eq_reduce_of_applyTransition (hsnapshot : ∀ patch, transition.payload ≠ .snapshotApplied patch)
    (h : worker.applyTransition transition = .ok latest) : latest = worker.reduce transition := by
  unfold WorkerRecord.applyTransition at h
  split_ifs at h
  · exact (Except.ok.inj h).symm
  · split at h
    · next patch hpatch => exact absurd hpatch (hsnapshot patch)
    · cases h

lemma budgeted_manual {changes : WorkerChanges} {status : ManualStatus}
    (hmanual : Run.manualTransition worker changes status now = .ok transition)
    (h : worker.applyTransition transition = .ok latest) :
    latest.id = worker.id ∧ latest.Budgeted := by
  obtain ⟨hid, hpayload, -⟩ := RunMutation.manualTransition_eq_ok "" changes hmanual
  have hsnapshot : ∀ patch, transition.payload ≠ .snapshotApplied patch := by
    rcases hpayload with ⟨_, _, hpayload⟩ | ⟨_, hpayload⟩ <;> simp [hpayload]
  obtain rfl := eq_reduce_of_applyTransition hsnapshot h
  refine ⟨id_reduce hsnapshot hid, budgeted_reduce hsnapshot (budgeted_of_leaves ?_)⟩
  rcases hpayload with ⟨_, _, hpayload⟩ | ⟨_, hpayload⟩ <;> rw [hpayload] <;> rfl

/-- An edit of the worker in the run leaves the promise of its state kept. -/
def EditKeeps (run : Run) (id : String) (changes : WorkerChanges) : Prop :=
  ∀ latest : WorkerRecord, latest.id.value = id → run.latestWorker latest.id = latest →
    latest.Budgeted → (latest.edited changes).Budgeted

theorem budgeted_apply {mutation : RunMutation} (h : mutation.apply now run = .ok left)
    (htransition : ∀ t, mutation.MayApply t →
      (∀ patch, t.payload ≠ .snapshotApplied patch) ∧ (t.workerId = workerId → Keeps t))
    (hedit : ∀ id changes, mutation = .upsertWorker id changes → EditKeeps run id changes)
    (hrun : (run.latestWorker workerId).Budgeted) : (left.latestWorker workerId).Budgeted := by
  -- the promise depends on the workers only
  have hsame : ∀ run' : Run, left.workers = run'.workers →
      (run'.latestWorker workerId).Budgeted → (left.latestWorker workerId).Budgeted := by
    intro run' hworkers h
    have hlatest : left.latestWorker workerId = run'.latestWorker workerId :=
      Run.latestWorker_congr (by rw [hworkers])
    rwa [hlatest]
  cases mutation with
  | applyStartRequest request =>
    rcases Run.applyStartRequest_eq_ok h with hworkers | ⟨latest, _, _, _, _, hlatest, hworkers⟩
    · exact hsame run hworkers hrun
    · refine hsame (run.setWorker _) hworkers (budgeted_setWorker hrun fun hid => ?_)
      have hbudgeted : latest.Budgeted := by
        rw [← hlatest, show latest.id = workerId from hid]
        exact hrun
      exact hbudgeted.congr rfl rfl rfl
  | markRunActive =>
    cases h
    exact hrun
  | refreshSummary =>
    cases h
    exact hrun
  | applyTransitions transitions =>
    obtain ⟨run', hrun', hworkers⟩ := RunMutation.applyTransitions_eq_ok h
    exact hsame run' hworkers (Run.applyTransitions_keeps (fun t ht => (htransition t ht).1) hrun'
      (fun t ht hid worker _ hworker => ((htransition t ht).2 hid).budgeted worker hworker) hrun)
  | journal field mutation =>
    cases hupdate : mutation.update with
    | none => exact hsame run (RunMutation.workers_journal hupdate h) hrun
    | some update =>
      obtain ⟨updated, hupdated, hworkers⟩ := RunMutation.workers_journal_update hupdate h
      refine hsame updated hworkers ?_
      cases update with
      | createdWorkerSession workerId' sessionId cleanupRequested agent model =>
        cases hupdated
        refine budgeted_setWorker hrun fun hid => ?_
        have hbudgeted : (run.latestWorker workerId').Budgeted := by
          have hworker : (run.latestWorker workerId').id = workerId := by
            rw [← hid]
            cases cleanupRequested <;> rfl
          rw [← Run.id_latestWorker run workerId', hworker]
          exact hrun
        cases cleanupRequested <;> exact hbudgeted.congr rfl rfl rfl
      | abortWorker id sessionId response =>
        obtain ⟨⟨worker, session⟩, hworker, happlied⟩ := Except.bind_eq_ok.1 hupdated
        obtain ⟨worker', hworker', hleft⟩ := Except.bind_eq_ok.1 happlied
        cases hleft
        have hget := Run.get?_of_workerWithSession hworker
        have hlatest : run.latestWorker worker.id = worker :=
          Run.latestWorker_of_get? ((WorkerMap.id_of_get? hget).symm ▸ hget)
        have hkeeps : Keeps (worker.markAborted (abortRecord sessionId response)) :=
          keeps_of_outside ⟨.inr (.inr ⟨_, rfl⟩), rfl⟩
        obtain rfl := eq_reduce_of_applyTransition hkeeps.snapshot hworker'
        refine budgeted_setWorker hrun fun hid => hkeeps.budgeted worker ?_
        rw [id_reduce hkeeps.snapshot rfl] at hid
        rw [← hlatest, hid]
        exact hrun
  | upsertWorker id changes =>
    obtain ⟨latest, hid, hlatest, rfl⟩ := Run.upsertWorker_eq_ok h
    refine budgeted_setWorker hrun fun hworker => hedit id changes rfl latest hid hlatest ?_
    rw [← hlatest, show latest.id = workerId from hworker]
    exact hrun
  | upsertWorkerStatus id changes status =>
    obtain ⟨latest, worker, transition, -, hlatest, -, hmanual, hworker, rfl⟩ :=
      Run.upsertWorkerStatus_eq_ok h
    obtain ⟨hid, hbudgeted⟩ := budgeted_manual hmanual hworker
    rw [Run.latestWorker_setWorker]
    split_ifs with hsame
    · exact hbudgeted
    · rwa [Run.latestWorker_setWorker, if_neg fun h => hsame (hid.trans h)]

/-! ## Requests -/

variable {s : StartRecord} {stored : Option Run} {call : Call}

/-- The promise to the stored worker is kept. -/
def Kept (workerId : WorkerId) (s : StartRecord) : Prop := (latestOf workerId s.1).Budgeted

/-- No edit takes a retry away that the state of its worker promises. -/
def RevokesNone (s : StartRecord) (call : Call) : Prop :=
  ∀ id changes, call.request = .updateRun (.upsertWorker id changes) →
    ∀ run, s.1 = some run → EditKeeps run id changes

lemma Kept.of_spares {answer : call.request.Answer} (h : Kept workerId s)
    (hspares : call.Spares workerId Keeps) (hanswer : call.request.Responds s.1 answer stored)
    (hrevokes : RevokesNone s call) (events : List (Event storeInterface Unit)) :
    Kept workerId (stored, events) := by
  obtain ⟨phase, request⟩ := call
  cases hmutation : request.mutation? with
  | none =>
    show (latestOf workerId stored).Budgeted
    rw [latestOf_of_eq_none hanswer hmutation]
    exact h
  | some mutation =>
    cases request with
    | updateRun mutation' =>
      have hkept : ∀ {now : String} {seen left : Run}, s.1 = some seen →
          mutation'.apply now seen = .ok left → Kept workerId (some left.normalize, events) := by
        intro now seen left hseen hleft
        have hbefore : (latestOf workerId s.1).Budgeted := h
        rw [hseen] at hbefore
        have hbudgeted : (left.latestWorker workerId).Budgeted :=
          budgeted_apply hleft (hspares mutation' rfl)
            (fun id changes hedit => hrevokes id changes (by rw [hedit]) seen hseen) hbefore
        exact hbudgeted
      have hupdates : Updates mutation'.apply s.1 answer stored := hanswer
      generalize hbefore : s.1 = before at hupdates
      cases hupdates with
      | committed _ hleft => exact hkept hbefore hleft
      | raised | failed =>
        unfold Kept at h ⊢
        rwa [hbefore] at h
      | lost _ hleft _ => exact hkept hbefore hleft
    | _ => cases hmutation

/-- The recovery of stale attempts promises the retries that there are. -/
lemma Kept.of_recoveries {datetime : Datetime} {now : String} {run : Run} {answer : UpdateAnswer}
    {recoveries : List ActiveAttemptRecovery} (h : Kept workerId s) (hrun : s.1 = some run)
    (hrecoveries : recoverExpiredActiveAttempts datetime run.sortedWorkers now = .ok recoveries)
    (hupdates : Updates (RunMutation.applyTransitions (recoveries.map
      ActiveAttemptRecovery.transition)).apply s.1 answer stored)
    (events : List (Event storeInterface Unit)) : Kept workerId (stored, events) := by
  have htimeout : ∀ t ∈ recoveries.map ActiveAttemptRecovery.transition,
      ∃ worker : WorkerRecord, run.latestWorker worker.id = worker ∧ t.workerId = worker.id ∧
        t.payload = .timedOut worker.timeoutReason worker.timeoutPolicy (.str now)
          (worker.retryAvailable (some "timeout")) (worker.retryAvailable (some "timeout"))
          worker.timeoutStartedAtOrUnset := by
    intro t ht
    obtain ⟨recovery, hrecovery, rfl⟩ := List.mem_map.1 ht
    obtain ⟨worker, hworker, attempt, -, rfl⟩ := Flow.mem_recoveries hrecoveries hrecovery
    exact ⟨worker, Run.latestWorker_of_get? (Run.mem_sortedWorkers.1 hworker), rfl, rfl⟩
  have hsnapshot : ∀ t ∈ recoveries.map ActiveAttemptRecovery.transition,
      ∀ patch, t.payload ≠ .snapshotApplied patch := by
    intro t ht
    obtain ⟨worker, -, -, hpayload⟩ := htimeout t ht
    simp [hpayload]
  -- a time-out leaves the retries, so the worker that was read keeps those of the stored one
  have hkept : (latestOf workerId stored).Budgeted ∧
      (latestOf workerId stored).retryBudget = (run.latestWorker workerId).retryBudget := by
    refine latestOf_keeps (P := fun latest => latest.Budgeted ∧
      latest.retryBudget = (run.latestWorker workerId).retryBudget) hsnapshot
      (fun t ht hid latest hlatest => ?_) hupdates ⟨h, by rw [hrun]; rfl⟩
    obtain ⟨worker, hworker, hsame, hpayload⟩ := htimeout t ht
    have hbudget : latest.retryBudget = worker.retryBudget := by
      rw [hlatest.2, ← hid, hsame, hworker]
    rw [← retryAvailable_congr hbudget (by simp)] at hpayload
    refine ⟨budgeted_reduce (hsnapshot t ht) (by rw [hpayload]; exact budgeted_timedOut), ?_⟩
    rw [apply_reduce retryBudget (fun _ => rfl) (hsnapshot t ht), hpayload, retryBudget_timedOut,
      ite_self, hlatest.2]
  exact hkept.1

lemma spares_of_opens {other : WorkerId} {allowed : String → Prop} (h : call.Opens other allowed) :
    call.Spares workerId Keeps := by
  intro mutation hmutation t ht
  cases h.updates mutation hmutation with
  | applyTransition hid hopens =>
    obtain rfl := List.mem_singleton.1 ht
    exact ⟨TransitionPayload.ne_snapshotApplied_of_opens hopens, fun _ => keeps_of_opens hopens⟩
  | journal hupdate =>
    obtain ⟨⟨id, sessionId, response, habort⟩, -⟩ := ht
    exact (hupdate _ habort).elim

lemma revokesNone_of_opens {other : WorkerId} {allowed : String → Prop}
    (h : call.Opens other allowed) : RevokesNone s call := by
  intro id changes hrequest
  cases h.updates (.upsertWorker id changes) (by rw [hrequest]; rfl)

/-! ## Commands -/

theorem commandRule (workerId : WorkerId) :
    CommandRule RevokesNone (Kept workerId) (Kept workerId) workerId Keeps where
  holds_of_idle _ h := h
  snapshot _ h := h.snapshot
  outside _ h := keeps_of_outside h
  spares _ _ _ _ hspares h hanswer hrevokes := h.of_spares hspares hanswer hrevokes _
  recovered _ _ _ _ _ _ _ _ hrecoveries h hrun hupdates :=
    h.of_recoveries hrun hrecoveries hupdates _
  attempt s run worker prompt strategy agent model cleanupRequested h hrun hget hexec hid := by
    refine Execution.safe_execute_of (J := Kept workerId) (E := Kept workerId)
      (K := fun _ _ s => Kept workerId s) (fun _ h => h)
      (fun call s answer stored hcall hs hanswer _ =>
        hs.of_spares (spares_of_opens hcall) hanswer (revokesNone_of_opens hcall) _)
      (fun _ h => h) (fun _ _ h => h)
      (fun s worker attempt transition error answer stored hs hhand hid heffect hupdates _ => ?_)
      (fun _ h => h) h hid
    have hkept : (latestOf workerId stored).Budgeted := by
      rcases latestOf_of_updates heffect.ne_snapshotApplied hid hupdates with hstored | hlatest
      · rw [hstored]
        exact hs
      · rw [hlatest, hhand.latest]
        exact budgeted_of_attemptEffect heffect
    exact ⟨hkept, fun _ _ _ _ => hkept⟩

/-- The planner selects a worker of the run. -/
def Selects (run : Run) (worker : WorkerRecord) : Prop :=
  ∃ selected, (Flow.planStep run.workers).workerId = some selected ∧
    run.workers.get? selected = some worker

/-- Any commands on one run, each of which may be killed: if no edit takes a retry away that the
state of its worker promises, then whoever the planner selects from such a state has a retry, in
every record that is reached. -/
theorem retryAvailable_of_selected (commands : List (RunCommand × Nat)) (start : Option Run)
    (hstart : ∀ workerId, (latestOf workerId start).Budgeted)
    (events : List (Event storeInterface Unit))
    (c : Config storeInterface PyError Unit Unit StartRecord)
    (hrun : Runs (fun c e c' => Config.Fires (storeSurroundings Unit).recording c e c' ∧
        RevokesNone c.state e.op)
      ⟨(start, []), fun _ => interruptedSequence commands⟩ events c)
    (run : Run) (hstored : c.state.1 = some run) (worker : WorkerRecord) (hselects : Selects run worker)
    (hpromises : worker.lifecycleState ∈ [.failedRetry, .timeoutRetry, .timeoutFailedRetry]) :
    worker.retryAvailable = true := by
  obtain ⟨selected, -, hget⟩ := hselects
  have hbegin : Kept worker.id (start, []) := hstart worker.id
  have hkept : Kept worker.id c.state :=
    Contract.holds_of_alone ((commandRule worker.id).safe_interruptedSequence (fun _ h => h)
      commands hbegin) hbegin hrun
  have hlatest : run.latestWorker worker.id = worker :=
    Run.latestWorker_of_get? ((WorkerMap.id_of_get? hget).symm ▸ hget)
  have hbudgeted : (latestOf worker.id (some run)).Budgeted := hstored ▸ hkept
  rw [latestOf, hlatest] at hbudgeted
  refine hbudgeted ?_
  simp only [List.mem_cons, List.not_mem_nil, or_false] at hpromises
  rcases hpromises with h | h | h <;> rw [h] <;> rfl

/-! ## An edit that takes the retry away -/

/-- A server on which every prompt times out. -/
def hangingServer : ScriptedServer where
  createdSession := "ses_1"
  execute _ := .error (.openCodeApiTimeout "timed out")
  readable _ := true
  sessionNonempty := ScriptedServer.nonempty_ses_1

/-- A worker that may be retried once after a time-out. -/
def retriedOnce : WorkerChanges where
  role := some "build"
  prompt := some "work"
  retryLimit := some 1
  retryableFailures := some ["timeout"]

/-- The worker is stored, started, and edited so that it may not be retried; nothing is killed. -/
def startedAndEdited : List (RunCommand × Nat) :=
  [.upsert "a" retriedOnce none, .start .unreadable 2 { name := "demo" },
    .upsert "a" { retryLimit := some 0 } none].map fun command => (command, 40)

/-- The three commands, of which a number is executed. -/
def startedThenEdited (number : Nat) : Config storeInterface PyError Unit Unit StartRecord where
  state := (some (Run.new "demo" "/" ""), [])
  program _ := interruptedSequence (startedAndEdited.take number)

/-- Whether the planner selects a worker that may be retried by its state; with its retries. -/
def selectsPromised (stored : Option Run) : Option Bool := do
  let run ← stored
  let selected ← (Flow.planStep run.workers).workerId
  let worker ← run.workers.get? selected
  if worker.lifecycleState = .timeoutRetry then some worker.retryAvailable else none

lemma exists_of_selectsPromised {available : Bool} (h : selectsPromised stored = some available) :
    ∃ run worker, stored = some run ∧ Selects run worker ∧
      worker.lifecycleState = .timeoutRetry ∧ worker.retryAvailable = available := by
  obtain ⟨run, hrun, h⟩ := Option.bind_eq_some_iff.1 h
  obtain ⟨selected, hselected, h⟩ := Option.bind_eq_some_iff.1 h
  obtain ⟨worker, hworker, h⟩ := Option.bind_eq_some_iff.1 h
  split_ifs at h with hstate
  exact ⟨run, worker, hrun, ⟨selected, hselected, hworker⟩, hstate, Option.some.inj h⟩

/-- Edits of workers that are promised nothing are allowed. -/
def allowUnpromised (s : StartRecord) : Call → Bool
  | ⟨_, .updateRun (.upsertWorker edited changes)⟩ =>
    changes.lifecycleState.isNone && s.1.all fun run =>
      (run.workers.get? edited).all fun worker => !worker.lifecycleState.promisesRetry
  | _ => true

lemma revokesNone_of_allowUnpromised (h : allowUnpromised s call = true) : RevokesNone s call := by
  obtain ⟨phase, request⟩ := call
  intro id changes hrequest run hrun latest hid hlatest _
  obtain rfl : request = .updateRun (.upsertWorker id changes) := hrequest
  simp only [allowUnpromised, Bool.and_eq_true, Option.isNone_iff_eq_none, hrun,
    Option.all_some] at h
  obtain ⟨hchanges, hpromises⟩ := h
  refine budgeted_of_state ?_
  have hstate : (latest.edited changes).lifecycleState = latest.lifecycleState := by
    simp [WorkerRecord.edited, hchanges]
  rw [hstate, ← hlatest, Run.latestWorker, hid]
  cases hget : run.workers.get? id with
  | none => rfl
  | some worker => simpa [hget] using hpromises

theorem retryAvailable_started :
    ∃ events, ∃ c : Config storeInterface PyError Unit Unit StartRecord,
      Runs (fun c e c' => Config.Fires (storeSurroundings Unit).recording c e c' ∧
        RevokesNone c.state e.op) (startedThenEdited 2) events c ∧
      ∃ run worker, c.state.1 = some run ∧ Selects run worker ∧
        worker.lifecycleState = .timeoutRetry ∧ worker.retryAvailable = true := by
  have hplay : ((startedThenEdited 2).play (hangingServer.turns allowUnpromised 23)).map
      (fun result => (selectsPromised result.2.state.1).isSome) = some true := by
    decide +kernel
  obtain ⟨⟨events, c⟩, hplayed, hpromised⟩ := Option.map_eq_some_iff.1 hplay
  have hrun := ScriptedServer.runs_of_play (fun _ _ => revokesNone_of_allowUnpromised) hplayed
  obtain ⟨available, havailable⟩ := Option.isSome_iff_exists.1 hpromised
  obtain ⟨run, worker, hstored, hselects, hstate, -⟩ := exists_of_selectsPromised havailable
  exact ⟨events, c, hrun, run, worker, hstored, hselects, hstate,
    retryAvailable_of_selected (startedAndEdited.take 2) _ (fun _ => budgeted_of_state rfl) events c
      hrun run hstored worker hselects (by simp [hstate])⟩

/-- The edit takes the retry away; the planner selects the worker all the same. -/
theorem selects_without_retry :
    ∃ events, ∃ c : Config storeInterface PyError Unit Unit StartRecord,
      Runs (Config.Fires (storeSurroundings Unit).recording) (startedThenEdited 3) events c ∧
      ∃ run worker, c.state.1 = some run ∧ Selects run worker ∧
        worker.lifecycleState = .timeoutRetry ∧ worker.retryAvailable = false := by
  have hplay : ((startedThenEdited 3).play (hangingServer.turns (fun _ _ => true) 24)).map
      (fun result => selectsPromised result.2.state.1) = some (some false) := by
    decide +kernel
  obtain ⟨⟨events, c⟩, hplayed, hselects⟩ := Option.map_eq_some_iff.1 hplay
  have hrun := ScriptedServer.runs_of_play (fun _ _ _ => trivial) hplayed
  exact ⟨events, c, hrun.mono fun _ _ _ h => h.1, exists_of_selectsPromised hselects⟩

end RetryBudget

end OpencodeSession
