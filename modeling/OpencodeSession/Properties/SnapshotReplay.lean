import OpencodeSession.Properties.AcceptedAbort

/-!
# Replaying a snapshot

A worker that was changed in hand is persisted as a snapshot: a transition that carries over the
fields of the changed worker and merges what the stored worker may have gained meanwhile.  The
merge rules read the worker as it was before, so applying the transition again starts from another
worker.  `applyTransition_snapshotTransition_twice` says what comes of it.  The second application
is legal and changes nothing but the prompt identifiers, and these only where the first left a
worker whose retry is scheduled: its prompt identifiers mark the failed attempt, and the snapshot
replaces them.
-/

namespace OpencodeSession

namespace WorkerRecord

/-! ## The transition of a snapshot -/

/-- `worker_snapshot_transition_patch`. -/
def snapshotPatch (snapshot : WorkerRecord) : SnapshotPatch where
  retryCount := snapshot.retryCount
  timeoutStartedAt := snapshot.timeoutStartedAt
  timedOutAt := snapshot.timedOutAt
  lifecycleState := snapshot.lifecycleState
  failureCategory := snapshot.failureCategory
  failureReason := snapshot.failureReason
  lastFailureCategory := snapshot.lastFailureCategory
  lastFailureReason := snapshot.lastFailureReason
  blockers := snapshot.blockers
  outputRefs := snapshot.outputRefs
  error := snapshot.error
  failureRetryable := snapshot.failureRetryable
  manualRetryRequired := snapshot.manualRetryRequired
  cleanup := snapshot.cleanup
  abort := snapshot.abort
  attempts := snapshot.attempts
  result := snapshot.result
  promptIds := snapshot.promptIds
  sessionId := snapshot.sessionId

/-- `worker_snapshot_transition`. -/
def snapshotTransition (snapshot : WorkerRecord) (workerId : Option WorkerId := none) :
    WorkerTransition where
  workerId := workerId.getD snapshot.id
  payload := .snapshotApplied snapshot.snapshotPatch

variable {latest worker : WorkerRecord} {workerId : WorkerId} {patch : SnapshotPatch}

/-! ## Merging twice -/

lemma mergedPromptIds_mergedPromptIds (source added : List String) :
    mergedPromptIds (mergedPromptIds source added) added = mergedPromptIds source added := by
  have hadded : added.removeAll (source ++ added).eraseDups = [] := by
    refine List.filter_eq_nil_iff.2 fun value hvalue => ?_
    simp [hvalue]
  rw [mergedPromptIds_eq, mergedPromptIds_eq, List.eraseDups_append, eraseDups_eraseDups, hadded]
  simp

/-! ## Applying a snapshot twice -/

/-- The worker with the prompt identifiers of a snapshot merged once more. -/
def mergedOnceMore (worker : WorkerRecord) (promptIds : List String) : WorkerRecord :=
  { worker with
    promptIds := mergedPromptIds
      (if worker.promptIdsAreRetryMarker then [] else worker.promptIds) promptIds }

lemma orElse_orElse {α : Type*} (value other : Option α) :
    (value.orElse fun _ => value.orElse fun _ => other) = value.orElse fun _ => other := by
  cases value <;> rfl

lemma setIfMissing_twice (value other : Option String) :
    (if isSet value && !isSet (if isSet value && !isSet other then value else other) then value
      else if isSet value && !isSet other then value else other) =
      if isSet value && !isSet other then value else other := by
  cases hvalue : isSet value <;> cases hother : isSet other <;> simp [hvalue, hother]

lemma reduceSnapshotApplied_twice (latest : WorkerRecord) (workerId : WorkerId)
    (patch : SnapshotPatch) :
    (latest.reduceSnapshotApplied workerId patch).reduceSnapshotApplied workerId patch =
      (latest.reduceSnapshotApplied workerId patch).mergedOnceMore patch.promptIds := by
  simp only [reduceSnapshotApplied, mergePromptIds, mergedOnceMore, Bool.not_true, Bool.and_false,
    Bool.false_eq_true, if_false, orElse_orElse, setIfMissing_twice]

/-- So does the passthrough, in a worker that the reducer left. -/
lemma acceptedAbortPassthrough_reduceSnapshotApplied (latest : WorkerRecord) (workerId : WorkerId)
    (patch : SnapshotPatch) :
    (latest.reduceSnapshotApplied workerId patch).acceptedAbortPassthrough
        (.snapshotApplied patch) =
      (latest.reduceSnapshotApplied workerId patch).mergedOnceMore patch.promptIds := by
  simp only [acceptedAbortPassthrough, reduceSnapshotApplied, mergePromptIds, mergedOnceMore,
    Bool.not_true, Bool.and_false, Bool.false_eq_true, if_false, orElse_orElse]

lemma acceptedAbortPassthrough_twice (latest : WorkerRecord) (patch : SnapshotPatch) :
    (latest.acceptedAbortPassthrough (.snapshotApplied patch)).acceptedAbortPassthrough
        (.snapshotApplied patch) =
      (latest.acceptedAbortPassthrough (.snapshotApplied patch)).mergedOnceMore
        patch.promptIds := by
  simp only [acceptedAbortPassthrough, mergePromptIds, mergedOnceMore,
    Bool.not_true, Bool.and_false, Bool.false_eq_true, if_false, orElse_orElse]

lemma reduce_snapshotTransition (latest snapshot : WorkerRecord) (workerId : Option WorkerId) :
    latest.reduce (snapshot.snapshotTransition workerId) =
      if latest.acceptedAbort &&
          !acceptedAbortKeepsReduced (.snapshotApplied snapshot.snapshotPatch) then
        latest.acceptedAbortPassthrough (.snapshotApplied snapshot.snapshotPatch)
      else
        latest.reduceSnapshotApplied (workerId.getD snapshot.id) snapshot.snapshotPatch := by
  have hreduce : latest.reduce (snapshot.snapshotTransition workerId) =
      latest.acceptedAbortTerminalInvariant
        (latest.reduceSnapshotApplied (workerId.getD snapshot.id) snapshot.snapshotPatch)
        (.snapshotApplied snapshot.snapshotPatch) := rfl
  rw [hreduce, acceptedAbortTerminalInvariant]
  cases latest.acceptedAbort <;>
    cases acceptedAbortKeepsReduced (.snapshotApplied snapshot.snapshotPatch) <;> rfl

/-- Whatever rule the second application falls under, it only merges the prompt identifiers. -/
lemma reduce_snapshotTransition_twice (latest snapshot : WorkerRecord)
    (workerId : Option WorkerId) :
    (latest.reduce (snapshot.snapshotTransition workerId)).reduce
        (snapshot.snapshotTransition workerId) =
      (latest.reduce (snapshot.snapshotTransition workerId)).mergedOnceMore
        snapshot.promptIds := by
  have haborted : latest.acceptedAbort = true →
      (latest.reduce (snapshot.snapshotTransition workerId)).acceptedAbort = true :=
    fun h => acceptedAbort_reduce_all h
  rw [reduce_snapshotTransition _ snapshot, reduce_snapshotTransition latest] at *
  by_cases hpass : (latest.acceptedAbort &&
      !acceptedAbortKeepsReduced (.snapshotApplied snapshot.snapshotPatch)) = true
  · obtain ⟨hlatest, hkeeps⟩ := Bool.and_eq_true_iff.1 hpass
    rw [if_pos hpass] at haborted ⊢
    rw [haborted hlatest, hkeeps, if_pos (by rfl)]
    exact acceptedAbortPassthrough_twice latest snapshot.snapshotPatch
  · rw [if_neg hpass]
    split_ifs
    · exact acceptedAbortPassthrough_reduceSnapshotApplied latest _ snapshot.snapshotPatch
    · exact reduceSnapshotApplied_twice latest _ snapshot.snapshotPatch

lemma exists_promptIds_reduce (latest snapshot : WorkerRecord) (workerId : Option WorkerId) :
    ∃ source, (latest.reduce (snapshot.snapshotTransition workerId)).promptIds =
      mergedPromptIds source snapshot.promptIds := by
  rw [reduce_snapshotTransition]
  refine ⟨if latest.promptIdsAreRetryMarker then [] else latest.promptIds, ?_⟩
  split_ifs <;> simp [acceptedAbortPassthrough, reduceSnapshotApplied, mergePromptIds, *,
    snapshotPatch]

lemma transitionIsLegal_reduce_snapshotTransition (latest snapshot : WorkerRecord)
    (workerId : Option WorkerId) :
    (latest.reduce (snapshot.snapshotTransition workerId)).transitionIsLegal
      (snapshot.snapshotTransition workerId) = true := by
  by_cases haborted : latest.acceptedAbort = true
  · exact transitionIsLegal_of_acceptedAbort (acceptedAbort_reduce_all haborted)
  · have hstate : (latest.reduce (snapshot.snapshotTransition workerId)).lifecycleState =
        snapshot.lifecycleState := by
      rw [reduce_snapshotTransition, Bool.eq_false_iff.2 haborted]
      simp [reduceSnapshotApplied, mergePromptIds, snapshotPatch]
    have hself : snapshot.lifecycleState ∈
        TransitionPayload.snapshotReplaySourceStates snapshot.lifecycleState := by
      simp [TransitionPayload.snapshotReplaySourceStates, LifecycleState.mem_all]
    rw [transitionIsLegal, hstate, Bool.or_eq_true, decide_eq_true_iff]
    exact .inr hself

/-- A snapshot that was applied is legal again, and applying it again changes only the prompt
identifiers of a worker whose retry is scheduled: they become those of the snapshot. -/
theorem applyTransition_snapshotTransition_twice {latest snapshot first : WorkerRecord}
    {workerId : Option WorkerId}
    (hlegal : latest.transitionIsLegal (snapshot.snapshotTransition workerId) = true)
    (hfirst : latest.applyTransition (snapshot.snapshotTransition workerId) = .ok first) :
    first.transitionIsLegal (snapshot.snapshotTransition workerId) = true ∧
      first.applyTransition (snapshot.snapshotTransition workerId) = .ok { first with
        promptIds := if first.promptIdsAreRetryMarker then mergedPromptIds [] snapshot.promptIds
          else first.promptIds } := by
  rw [applyTransition, if_pos hlegal] at hfirst
  cases hfirst
  have hagain := transitionIsLegal_reduce_snapshotTransition latest snapshot workerId
  refine ⟨hagain, ?_⟩
  rw [applyTransition, if_pos hagain, reduce_snapshotTransition_twice]
  obtain ⟨source, hsource⟩ := exists_promptIds_reduce latest snapshot workerId
  unfold mergedOnceMore
  split_ifs
  · rfl
  · rw [hsource, mergedPromptIds_mergedPromptIds]

/-- A worker that is running, with the identifier of its prompt. -/
def running : WorkerRecord :=
  { id := ⟨"a", WorkerId.nonempty_a⟩, lifecycleState := .activeWait, promptIds := ["msg_1"] }

/-- The worker as another process has it in hand, after a prompt of its own. -/
def inHand (lifecycleState : LifecycleState) (lastFailureCategory : Option String) :
    WorkerRecord :=
  { running with
    lifecycleState := lifecycleState
    lastFailureCategory := lastFailureCategory
    promptIds := ["msg_2"] }

theorem applyTransition_twice_done :
    ∃ first, running.applyTransition ((inHand .doneCollect none).snapshotTransition) = .ok first ∧
      first.promptIds = ["msg_1", "msg_2"] ∧
      first.applyTransition ((inHand .doneCollect none).snapshotTransition) = .ok first := by
  have hlegal : running.transitionIsLegal (inHand .doneCollect none).snapshotTransition = true := by
    decide
  have hfirst : running.applyTransition (inHand .doneCollect none).snapshotTransition =
      .ok (running.reduce (inHand .doneCollect none).snapshotTransition) := by
    rw [applyTransition, if_pos hlegal]
  exact ⟨_, hfirst, by decide, (applyTransition_snapshotTransition_twice hlegal hfirst).2⟩

/-- That of a worker whose retry is scheduled loses the prompt that the stored worker had. -/
theorem applyTransition_twice_retry :
    running.transitionIsLegal (inHand .activeRetry (some "api")).snapshotTransition = true ∧
      ∃ first, running.applyTransition (inHand .activeRetry (some "api")).snapshotTransition =
          .ok first ∧
        first.promptIds = ["msg_1", "msg_2"] ∧
        (first.applyTransition (inHand .activeRetry (some "api")).snapshotTransition).map
          WorkerRecord.promptIds = .ok ["msg_2"] := by
  have hlegal : running.transitionIsLegal
      (inHand .activeRetry (some "api")).snapshotTransition = true := by
    decide
  refine ⟨hlegal, running.reduce (inHand .activeRetry (some "api")).snapshotTransition, ?_, ?_, ?_⟩
  · rw [applyTransition, if_pos hlegal]
  · decide
  · rfl

end WorkerRecord

end OpencodeSession
