import OpencodeSession.Framework.Runs
import OpencodeSession.Worker.TransitionFacts

/-!
# What a blocked worker is blocked by

A worker is blocked by its dependencies, by the policy of its time-out, or by the status of its
result.  The first two record their blockers; the reducer of a result keeps those there are, and a
worker that waits for a result has none (`UnblockedWait`), because starting it cleared them.  So in
every run from a queued worker the blocked workers are explained exactly if no result reports a
waiting worker as blocked (`explained_iff`).
-/

namespace OpencodeSession

/-- The blockers that the reducer of a payload leaves. -/
def TransitionPayload.leavesBlockers (payload : TransitionPayload) (source : List String) :
    List String :=
  match payload with
  | active _ _ | retryScheduled _ _ _ _ _ => []
  | dependencyBlocked blockers => blockers
  | timedOut _ status _ _ _ _ => if status = .blocked then ["timeout"] else source
  | resultApplied result _ _ => if shortStatus result.status = "done" then [] else source
  | snapshotApplied patch => patch.blockers
  | provisioned _ _ _ | attemptStarted _ | failed _ _ _ _ _ _ | aborted _ | cleanupUpdated _ => source

/-- A transition that runs apply to a worker they know: any but the replay of a snapshot, where a
dependency block names what it waits for. -/
def TransitionPayload.Direct (payload : TransitionPayload) : Prop :=
  (∀ patch, payload ≠ .snapshotApplied patch) ∧ payload ≠ .dependencyBlocked []

namespace WorkerRecord

variable {new worker worker' here : WorkerRecord} {transition : WorkerTransition}
  {transitions : List WorkerTransition} {payload : TransitionPayload} {workerId : WorkerId}

lemma blockers_reducePayload (worker : WorkerRecord) (workerId : WorkerId)
    (payload : TransitionPayload) :
    (worker.reducePayload workerId payload).blockers =
      payload.leavesBlockers worker.blockers := by
  have hcore := @eq_of_core _ blockers fun _ => rfl
  cases payload with
  | attemptStarted attempt => exact hcore (core_reduceAttemptStarted worker attempt)
  | failed | retryScheduled | snapshotApplied =>
    exact (hcore (core_mergePromptIds _ worker _ _)).trans rfl
  | resultApplied result =>
    refine (hcore (core_mergePromptIds _ worker _ _)).trans ?_
    simp only [TransitionPayload.leavesBlockers]
    split_ifs <;> rfl
  | provisioned | active | dependencyBlocked | aborted | timedOut | cleanupUpdated => rfl

/-- A worker that is blocked says by what. -/
def Explained (worker : WorkerRecord) : Prop := worker.status = .blocked → worker.blockers ≠ []

/-- A worker that waits for its attempt has no blockers. -/
def UnblockedWait (worker : WorkerRecord) : Prop :=
  worker.lifecycleState = .activeWait → worker.blockers = []

/-- The transition is a result that reports the worker waiting for it as blocked. -/
def IsBlockingResult (worker : WorkerRecord) (transition : WorkerTransition) : Prop :=
  worker.lifecycleState = .activeWait ∧ ∃ result promptIds timeoutStartedAt,
    transition.payload = .resultApplied result promptIds timeoutStartedAt ∧
      shortStatus result.status = "blocked"

/-- A direct transition that is legal for the worker, with the worker it leaves. -/
def Takes (worker : WorkerRecord) (transition : WorkerTransition) (worker' : WorkerRecord) : Prop :=
  transition.payload.Direct ∧ worker.applyTransition transition = .ok worker'

/-! ## Steps -/

lemma eq_reduce_of_takes (h : worker.Takes transition worker') :
    worker.transitionIsLegal transition = true ∧ worker' = worker.reduce transition := by
  obtain ⟨⟨hsnapshot, -⟩, happly⟩ := h
  unfold applyTransition at happly
  split_ifs at happly with hlegal
  · exact ⟨hlegal, (Except.ok.inj happly).symm⟩
  · cases hpayload : transition.payload with
    | snapshotApplied patch => exact absurd hpayload (hsnapshot patch)
    | _ =>
      rw [hpayload] at happly
      cases happly

lemma workerResultLifecycleState_blocked {word : String} (h : shortStatus word = "blocked") :
    workerResultLifecycleState word = .blockedDependency := by
  rw [workerResultLifecycleState, h]
  decide

lemma shortStatus_eq_blocked {word : String}
    (h : (workerResultLifecycleState word).status = .blocked) : shortStatus word = "blocked" := by
  unfold workerResultLifecycleState at h
  cases hname : WorkerStatus.ofName? (shortStatus word) with
  | none =>
    rw [hname] at h
    cases h
  | some found =>
    have hword : found.name = shortStatus word := by simpa using List.find?_some hname
    rw [hname] at h
    rw [← hword]
    cases found with
    | blocked => rfl
    | _ => cases h

/-- What a direct transition does to the state and the blockers of a worker. -/
inductive BlockEffect (worker : WorkerRecord) (transition : WorkerTransition)
    (state : LifecycleState) (blockers : List String) : Prop where
  | same (hstate : state = worker.lifecycleState) (hblockers : blockers = worker.blockers)
  | started (hstate : state = .activeWait) (hblockers : blockers = [])
  | blocked (hstate : state ≠ .activeWait) (hblockers : blockers ≠ [])
  | ended (hstate : state ≠ .activeWait) (hstatus : state.status ≠ .blocked)
  | result (hresult : worker.IsBlockingResult transition) (hstate : state = .blockedDependency)
      (hblockers : blockers = worker.blockers)

lemma blockEffect_reducePayload (hdirect : transition.payload.Direct)
    (hmem : worker.lifecycleState ∈ transition.payload.sourceStates) :
    worker.BlockEffect transition (transition.payload.leaves worker.lifecycleState)
      (transition.payload.leavesBlockers worker.blockers) := by
  cases hpayload : transition.payload with
  | provisioned | attemptStarted | cleanupUpdated => exact .same rfl rfl
  | active => exact .started rfl rfl
  | failed category reason retryable retryAvailable =>
    rw [TransitionPayload.leaves_eq_of_targetState (by simp) rfl, workerFailedLifecycleState_eq]
    refine .ended ?_ ?_ <;> split_ifs <;> decide
  | dependencyBlocked blockers =>
    refine .blocked (fun h => by cases h) fun hnil => hdirect.2 ?_
    rw [hpayload, show blockers = [] from hnil]
  | aborted abort =>
    rw [TransitionPayload.leaves]
    split_ifs
    · exact .ended (by decide) (by decide)
    · exact .same rfl rfl
  | retryScheduled => exact .ended (fun h => by cases h) (fun h => by cases h)
  | timedOut reason policy timedOutAt retryAvailable =>
    rw [TransitionPayload.leaves_eq_of_targetState (by simp) rfl, workerTimeoutLifecycleState_eq,
      TransitionPayload.leavesBlockers]
    cases policy with
    | blocked => exact .blocked (fun h => by cases h) (by simp)
    | aborted => exact .ended (fun h => by cases h) fun h => by cases h
    | timeout | failed => cases retryAvailable <;> exact .ended (by decide) (by decide)
  | resultApplied result promptIds timeoutStartedAt =>
    rw [TransitionPayload.leaves_eq_of_targetState (by simp) rfl]
    by_cases hword : shortStatus result.status = "blocked"
    · have hwaits : worker.lifecycleState = .activeWait := by
        simpa [hpayload, TransitionPayload.sourceStates, TransitionPayload.specSourceStates]
          using hmem
      rw [workerResultLifecycleState_blocked hword, TransitionPayload.leavesBlockers, hword]
      exact .result ⟨hwaits, _, _, _, hpayload, hword⟩ rfl rfl
    · refine .ended (fun hwaiting => ?_) fun hblocked => ?_
      · have htarget := workerResultLifecycleState_mem result.status
        rw [hwaiting] at htarget
        simp at htarget
      · exact hword (shortStatus_eq_blocked hblocked)
  | snapshotApplied patch => exact absurd hpayload (hdirect.1 patch)

/-- What the accepted-abort rule does not undo is legal by its specification. -/
lemma mem_sourceStates_of_legal (hdirect : transition.payload.Direct)
    (hlegal : worker.transitionIsLegal transition = true)
    (hpasses : ¬ (worker.acceptedAbort && !acceptedAbortKeepsReduced transition.payload) = true) :
    worker.lifecycleState ∈ transition.payload.sourceStates := by
  rw [transitionIsLegal, Bool.or_eq_true, decide_eq_true_iff] at hlegal
  rcases hlegal with happlies | hmem
  · have haccepted := (Bool.and_eq_true_iff.1 happlies).1
    have hstatus := (acceptedAbort_iff.1 haccepted).2
    rw [haccepted, Bool.true_and] at hpasses
    cases hpayload : transition.payload with
    | aborted abort =>
      revert hstatus
      cases worker.lifecycleState <;>
        simp [TransitionPayload.sourceStates, TransitionPayload.specSourceStates,
          LifecycleState.status, LifecycleState.row]
    | cleanupUpdated cleanup => exact LifecycleState.mem_all _
    | snapshotApplied patch => exact absurd hpayload (hdirect.1 patch)
    | _ =>
      rw [hpayload] at hpasses
      exact absurd rfl hpasses
  · exact hmem

lemma blockEffect_of_takes (htakes : worker.Takes transition worker') :
    worker.BlockEffect transition worker'.lifecycleState worker'.blockers := by
  obtain ⟨hlegal, rfl⟩ := eq_reduce_of_takes htakes
  have hdirect := htakes.1
  rw [apply_reduce lifecycleState (fun _ => rfl) hdirect.1,
    apply_reduce blockers (fun _ => rfl) hdirect.1]
  split_ifs with hpasses
  · exact .same rfl rfl
  · rw [lifecycleState_reducePayload, blockers_reducePayload]
    exact blockEffect_reducePayload hdirect (mem_sourceStates_of_legal hdirect hlegal hpasses)

lemma unblockedWait_of_takes (h : worker.UnblockedWait) (htakes : worker.Takes transition worker') :
    worker'.UnblockedWait := by
  intro hwaiting
  cases blockEffect_of_takes htakes with
  | same hstate hblockers => rw [hblockers, h (hstate.symm.trans hwaiting)]
  | started _ hblockers => exact hblockers
  | blocked hstate _ => exact absurd hwaiting hstate
  | ended hstate _ => exact absurd hwaiting hstate
  | result _ hstate _ => cases hstate.symm.trans hwaiting

lemma explained_of_takes (h : worker.Explained) (htakes : worker.Takes transition worker')
    (hresult : ¬ worker.IsBlockingResult transition) : worker'.Explained := by
  intro hblocked
  cases blockEffect_of_takes htakes with
  | same hstate hblockers =>
    rw [hblockers]
    refine h ?_
    rw [status, ← hstate]
    exact hblocked
  | started hstate _ =>
    rw [status, hstate] at hblocked
    cases hblocked
  | blocked _ hblockers => exact hblockers
  | ended _ hstatus => exact absurd hblocked hstatus
  | result his _ _ => exact absurd his hresult

/-- A result that blocks its worker is taken, and leaves the worker blocked by nothing. -/
lemma exists_takes_of_isBlockingResult (h : worker.UnblockedWait)
    (hresult : worker.IsBlockingResult transition) :
    ∃ worker', worker.Takes transition worker' ∧ ¬ worker'.Explained := by
  obtain ⟨hwaits, result, promptIds, timeoutStartedAt, hpayload, hword⟩ := hresult
  have hdirect : transition.payload.Direct := by
    rw [hpayload]
    exact ⟨fun patch => by simp, by simp⟩
  have hnone : worker.acceptedAbort = false := by
    simp [acceptedAbort, status, hwaits, LifecycleState.status, LifecycleState.row]
  have hlegal : worker.transitionIsLegal transition = true := by
    simp [transitionIsLegal, hpayload, hwaits, TransitionPayload.sourceStates,
      TransitionPayload.specSourceStates]
  have hstate : (worker.reduce transition).lifecycleState = .blockedDependency := by
    rw [lifecycleState_reduce hdirect.1 hnone, hpayload,
      TransitionPayload.leaves_eq_of_targetState (by simp) rfl,
      workerResultLifecycleState_blocked hword]
  have hblockers : (worker.reduce transition).blockers = [] := by
    rw [apply_reduce blockers (fun _ => rfl) hdirect.1, hnone, Bool.false_and,
      if_neg Bool.false_ne_true, blockers_reducePayload, hpayload,
      TransitionPayload.leavesBlockers, h hwaits, ite_self]
  refine ⟨worker.reduce transition, ⟨hdirect, if_pos hlegal⟩, fun hexplained => ?_⟩
  exact hexplained (by rw [status, hstate]; rfl) hblockers

/-! ## Runs -/

lemma unblockedWait_of_runs (hnew : new.lifecycleState = .queued)
    (hrun : Runs Takes new transitions worker) : worker.UnblockedWait :=
  hrun.invariant (fun hwaiting => by cases hnew.symm.trans hwaiting)
    fun _ _ _ htakes h => unblockedWait_of_takes h htakes

lemma explained_of_runs (hnew : new.lifecycleState = .queued)
    (hrun : Runs Takes new transitions worker)
    (hresults : ∀ front transition here, front ++ [transition] <+: transitions →
      Runs Takes new front here → ¬ here.IsBlockingResult transition) :
    worker.Explained := by
  induction hrun with
  | nil =>
    intro hblocked
    rw [status, hnew] at hblocked
    cases hblocked
  | snoc hfront htakes ih =>
    refine explained_of_takes (ih fun front transition here hinitial => ?_) htakes ?_
    · exact hresults front transition here (hinitial.trans (List.prefix_append _ _))
    · exact hresults _ _ _ List.prefix_rfl hfront

/-- Over every sequence of direct transitions from a queued worker: the workers that it goes
through are explained, as far as they are blocked, exactly if no result on the way reports the
worker waiting for it as blocked. -/
theorem explained_iff (hnew : new.lifecycleState = .queued) (transitions : List WorkerTransition) :
    (∀ front here, front <+: transitions → Runs Takes new front here → here.Explained) ↔
      ∀ front transition here, front ++ [transition] <+: transitions →
        Runs Takes new front here → ¬ here.IsBlockingResult transition := by
  constructor
  · intro hexplained front transition here hinitial hrun hresult
    obtain ⟨after, htakes, hafter⟩ :=
      exists_takes_of_isBlockingResult (unblockedWait_of_runs hnew hrun) hresult
    exact hafter (hexplained _ _ hinitial (hrun.snoc htakes))
  · intro hresults front here hinitial hrun
    refine explained_of_runs hnew hrun fun front' transition here' hinitial' => ?_
    exact hresults front' transition here' (hinitial'.trans hinitial)

/-- A queued worker. -/
def queuedWorker : WorkerRecord := default ⟨"worker", WorkerId.nonempty_worker⟩

/-- The worker starts. -/
def start : WorkerTransition := ⟨queuedWorker.id, .active none false, none⟩

/-- Its result says that it needs input. -/
def needsInput : WorkerTransition :=
  ⟨queuedWorker.id, .resultApplied { status := "needs_input" } [] none, none⟩

/-- A dependency blocks it. -/
def blockedByDependency : WorkerTransition :=
  ⟨queuedWorker.id, .dependencyBlocked ["dependency:a"], none⟩

theorem explained_iff_dependency : (queuedWorker.reduce blockedByDependency).status = .blocked ∧
    (queuedWorker.reduce blockedByDependency).Explained := by
  refine ⟨rfl, ?_⟩
  have htakes : queuedWorker.Takes blockedByDependency (queuedWorker.reduce blockedByDependency) :=
    ⟨⟨fun patch => by simp [blockedByDependency], by simp [blockedByDependency]⟩, rfl⟩
  have hnew : queuedWorker.lifecycleState = .queued := rfl
  refine (explained_iff hnew [blockedByDependency]).2 ?_ _ _ List.prefix_rfl (Runs.single htakes)
  intro front transition here hinitial _ hresult
  obtain ⟨-, result, promptIds, timeoutStartedAt, hpayload, -⟩ := hresult
  have hmem := hinitial.subset (List.mem_append_right front (List.mem_singleton_self _))
  rw [List.mem_singleton.1 hmem] at hpayload
  cases hpayload

/-- A worker whose result says that it needs input is blocked by nothing. -/
theorem not_explained_needsInput :
    ¬ ∀ (new : WorkerRecord) (transitions : List WorkerTransition) (worker : WorkerRecord),
      new.lifecycleState = .queued → Runs Takes new transitions worker → worker.Explained := by
  intro h
  have hstart : queuedWorker.Takes start (queuedWorker.reduce start) :=
    ⟨⟨fun patch => by simp [start], by simp [start]⟩, rfl⟩
  have hwaiting : (queuedWorker.reduce start).UnblockedWait :=
    unblockedWait_of_runs rfl (Runs.single hstart)
  have hresult : (queuedWorker.reduce start).IsBlockingResult needsInput :=
    ⟨rfl, _, _, _, rfl, by decide⟩
  obtain ⟨blocked, htakes, hblocked⟩ := exists_takes_of_isBlockingResult hwaiting hresult
  exact hblocked (h queuedWorker [start, needsInput] blocked rfl ((Runs.single hstart).snoc htakes))

end WorkerRecord

end OpencodeSession
