import OpencodeSession.Worker.TransitionFacts

/-!
# An accepted abort is absorbing

A worker whose abort was accepted takes every transition: the public ones and the replay of a
snapshot because the accepted-abort rule lets them through, the update of the cleanup record because
it is legal everywhere.  `acceptedAbort_reduce_all` is the step: whatever the payload, the worker
that a transition leaves is aborted and its abort is accepted.

What the rule lets a transition do is small.  `Absorbed` says what may differ between the worker
before and after: prompt identifiers are added at the end, the cleanup record is replaced, and the
attempts that a finalisation names are finalised.  It holds of each transition that does not carry
an accepted abort itself (`absorbed_reduce`), and it composes (`Absorbed.trans`).
-/

namespace OpencodeSession

/-! ## Keeping the first of each value -/

section Distinct

variable {α : Type*} [DecidableEq α]

/-- Appending the values of a list that are not there yet appends its distinct new values. -/
lemma foldl_append_new (values merged : List α) :
    values.foldl (fun merged value => if value ∈ merged then merged else merged ++ [value]) merged =
      merged ++ (values.removeAll merged).eraseDups := by
  induction values generalizing merged with
  | nil => simp
  | cons value values ih =>
    rw [List.foldl_cons, ih]
    by_cases hmem : value ∈ merged
    · simp [hmem, List.removeAll]
    · have hremove : values.removeAll (merged ++ [value]) =
          (values.removeAll merged).filter fun b => !b == value := by
        simp only [List.removeAll, List.filter_filter]
        refine List.filter_congr fun b _ => ?_
        by_cases hb : b = value <;> simp [hb, hmem]
      have hfirst : (value :: values).removeAll merged = value :: values.removeAll merged := by
        simp [List.removeAll, hmem]
      rw [if_neg hmem, hfirst, List.eraseDups_cons, hremove, List.append_assoc]
      rfl

lemma eraseDups_eraseDups (values : List α) :
    values.eraseDups.eraseDups = values.eraseDups := by
  induction hlength : values.length using Nat.strongRecOn generalizing values with
  | ind n ih =>
    cases values with
    | nil => rfl
    | cons value rest =>
      rw [List.eraseDups_cons, List.eraseDups_cons]
      have hkeep : (rest.filter fun b => !b == value).eraseDups.filter (fun b => !b == value) =
          (rest.filter fun b => !b == value).eraseDups := by
        refine List.filter_eq_self.2 fun b hb => ?_
        exact (List.mem_filter.1 (List.mem_eraseDups.1 hb)).2
      have hshort : (rest.filter fun b => !b == value).length < n := by
        have hle := List.length_filter_le (fun b => !b == value) rest
        simp only [List.length_cons] at hlength
        omega
      rw [hkeep, ih _ hshort _ rfl]

end Distinct

/-- The payload carries an abort that was accepted: that of an abort, or of the snapshot of a worker
that is aborted. -/
def TransitionPayload.carriesAcceptedAbort : TransitionPayload → Bool
  | aborted abort => WorkerRecord.abortIsAccepted (some abort)
  | snapshotApplied patch =>
    WorkerRecord.abortIsAccepted patch.abort && patch.lifecycleState.status = .aborted
  | _ => false

/-- What a finalisation makes of one attempt; one without an identifier does nothing. -/
def AttemptFinalization.finalized (finalization : AttemptFinalization) (attempt : JsonValue) :
    JsonValue :=
  if finalization.attemptId.truthy then
    WorkerRecord.finalizeOne finalization.attemptId finalization.fields attempt
  else attempt

/-- Whether a finalisation names an attempt. -/
def AttemptFinalization.names (finalization : AttemptFinalization) (attempt : JsonValue) : Bool :=
  finalization.attemptId.truthy && attempt.isObj &&
    (attempt.get "id").pyEq finalization.attemptId

/-- What finalisations make of one attempt, first to last. -/
def finalizedBy (finalizations : List AttemptFinalization) (attempt : JsonValue) : JsonValue :=
  finalizations.foldl (fun attempt finalization => finalization.finalized attempt) attempt

/-- The finalisations that transitions carry along. -/
def finalizationsOf (transitions : List WorkerTransition) : List AttemptFinalization :=
  transitions.filterMap WorkerTransition.attemptFinalization

lemma AttemptFinalization.finalized_of_not_names {finalization : AttemptFinalization}
    {attempt : JsonValue} (h : finalization.names attempt = false) :
    finalization.finalized attempt = attempt := by
  unfold finalized WorkerRecord.finalizeOne
  split_ifs with htruthy hnamed
  · simp only [names, htruthy, Bool.true_and] at h
    rw [h] at hnamed
    cases hnamed
  · rfl
  · rfl

lemma map_finalizedBy_nil (attempts : List JsonValue) :
    attempts.map (finalizedBy []) = attempts :=
  List.map_id' attempts

lemma finalizedBy_append (front back : List AttemptFinalization) (attempt : JsonValue) :
    finalizedBy (front ++ back) attempt = finalizedBy back (finalizedBy front attempt) :=
  List.foldl_append

namespace WorkerRecord

variable {worker worker' worker'' : WorkerRecord} {transition : WorkerTransition}

/-- Transitions of one worker, first to last. -/
def applyAll (worker : WorkerRecord) (transitions : List WorkerTransition) :
    Except PyError WorkerRecord :=
  transitions.foldlM applyTransition worker

/-! ## Every transition is taken -/

lemma transitionIsLegal_of_acceptedAbort (h : worker.acceptedAbort = true) :
    worker.transitionIsLegal transition = true := by
  rw [transitionIsLegal, Bool.or_eq_true, decide_eq_true_iff]
  cases hpayload : transition.payload with
  | cleanupUpdated cleanup => exact .inr (LifecycleState.mem_all _)
  | _ => exact .inl (by simp [acceptedAbortApplies, h, TransitionPayload.publicLifecycleTransition])

lemma applyTransition_of_acceptedAbort (h : worker.acceptedAbort = true) :
    worker.applyTransition transition = .ok (worker.reduce transition) := by
  rw [applyTransition, if_pos (transitionIsLegal_of_acceptedAbort h)]

lemma reduce_of_acceptedAbort (h : worker.acceptedAbort = true) :
    worker.reduce transition =
      (if acceptedAbortKeepsReduced transition.payload then
        worker.reducePayload transition.workerId transition.payload
      else worker.acceptedAbortPassthrough transition.payload).finalizeWith
        transition.attemptFinalization := by
  simp [reduce, acceptedAbortTerminalInvariant, h]

/-! ## The abort stays accepted -/

@[simp] lemma acceptedAbort_finalizeWith (finalization : Option AttemptFinalization) :
    (worker.finalizeWith finalization).acceptedAbort = worker.acceptedAbort := by
  obtain ⟨attempts, hfinal⟩ := finalizeWith_eq worker finalization
  rw [hfinal]
  rfl

@[simp] lemma acceptedAbort_mergePromptIds (latest : WorkerRecord) (promptIds : List String)
    (mergeEmpty : Bool) : (worker.mergePromptIds latest promptIds mergeEmpty).acceptedAbort =
      worker.acceptedAbort := by
  obtain ⟨ids, hmerge⟩ := mergePromptIds_eq worker latest promptIds mergeEmpty
  rw [hmerge]
  rfl

@[simp] lemma acceptedAbort_passthrough (payload : TransitionPayload) :
    (worker.acceptedAbortPassthrough payload).acceptedAbort = worker.acceptedAbort := by
  cases payload with
  | snapshotApplied patch => exact acceptedAbort_mergePromptIds _ _ _
  | _ => exact acceptedAbort_mergePromptIds _ _ _

lemma abort_reduceSnapshotApplied (latest : WorkerRecord) (workerId : WorkerId)
    (patch : SnapshotPatch) :
    (latest.reduceSnapshotApplied workerId patch).abort =
      patch.abort.orElse fun _ => latest.abort := by
  rw [reduceSnapshotApplied]
  exact eq_of_core abort (fun _ => rfl) (core_mergePromptIds _ latest _ _)

/-- The payloads that replace the worker leave the abort accepted. -/
lemma acceptedAbort_reducePayload_of_keeps {payload : TransitionPayload} {workerId : WorkerId}
    (h : worker.acceptedAbort = true) (hkeeps : acceptedAbortKeepsReduced payload = true) :
    (worker.reducePayload workerId payload).acceptedAbort = true := by
  rw [acceptedAbort_iff] at h ⊢
  rw [lifecycleState_reducePayload]
  cases payload with
  | aborted abort =>
    have haccepted : abortIsAccepted (some abort) = true := hkeeps
    refine ⟨haccepted, ?_⟩
    rw [TransitionPayload.leaves, if_pos haccepted]
    rfl
  | cleanupUpdated cleanup => exact h
  | snapshotApplied patch =>
    obtain ⟨haccepted, hstatus⟩ := Bool.and_eq_true_iff.1 hkeeps
    refine ⟨?_, of_decide_eq_true hstatus⟩
    show abortIsAccepted (worker.reduceSnapshotApplied workerId patch).abort = true
    rw [abort_reduceSnapshotApplied]
    cases habort : patch.abort with
    | none =>
      rw [habort] at haccepted
      cases haccepted
    | some abort =>
      rw [habort] at haccepted
      exact haccepted
  | _ => cases hkeeps

lemma acceptedAbort_reduce_all (h : worker.acceptedAbort = true) :
    (worker.reduce transition).acceptedAbort = true := by
  rw [reduce_of_acceptedAbort h, acceptedAbort_finalizeWith]
  split_ifs with hkeeps
  · exact acceptedAbort_reducePayload_of_keeps h hkeeps
  · rw [acceptedAbort_passthrough, h]

/-! ## What can change -/

/-- What may differ between a worker whose abort was accepted before and after transitions that
carry along the given finalisations. -/
structure Absorbed (finalizations : List AttemptFinalization) (before after : WorkerRecord) :
    Prop where
  /-- Only the prompt identifiers, the cleanup record and the attempts differ. -/
  others : { after with
    promptIds := before.promptIds, cleanup := before.cleanup, attempts := before.attempts } = before
  /-- Without duplicates, the prompt identifiers have grown at the end. -/
  promptIds : before.promptIds.eraseDups <+: after.promptIds.eraseDups
  /-- Each attempt is what the finalisations that name it make of it. -/
  attempts : after.attempts = before.attempts.map (List.map (finalizedBy finalizations))

lemma Absorbed.refl (worker : WorkerRecord) : Absorbed [] worker worker where
  others := rfl
  promptIds := List.prefix_rfl
  attempts := by
    cases worker.attempts with
    | none => rfl
    | some attempts => rw [Option.map_some, map_finalizedBy_nil]

lemma Absorbed.trans {front back : List AttemptFinalization} (h : Absorbed front worker worker')
    (h' : Absorbed back worker' worker'') : Absorbed (front ++ back) worker worker'' where
  others := by
    have hback := congrArg (fun changed : WorkerRecord => { changed with
      promptIds := worker.promptIds, cleanup := worker.cleanup, attempts := worker.attempts })
      h'.others
    exact hback.trans h.others
  promptIds := h.promptIds.trans h'.promptIds
  attempts := by
    rw [h'.attempts, h.attempts]
    cases worker.attempts with
    | none => rfl
    | some attempts =>
      simp only [Option.map_some, List.map_map, Option.some.injEq]
      exact List.map_congr_left fun attempt _ => (finalizedBy_append front back attempt).symm

/-- Finalising with a transition's finalisation. -/
lemma finalizeWith_attempts (worker : WorkerRecord) (finalization : Option AttemptFinalization) :
    worker.finalizeWith finalization = { worker with
      attempts := worker.attempts.map (List.map (finalizedBy finalization.toList)) } := by
  cases finalization with
  | none =>
    have hsame : worker.attempts.map (List.map (finalizedBy [])) = worker.attempts :=
      (Absorbed.refl worker).attempts.symm
    rw [Option.toList_none, hsame]
    rfl
  | some finalization =>
    show worker.finalizeAttempt finalization.attemptId finalization.fields = _
    have hone : finalizedBy (some finalization).toList = finalization.finalized := rfl
    rw [hone]
    unfold finalizeAttempt
    cases hattempts : worker.attempts with
    | none =>
      rw [if_neg (by simp [attemptList, hattempts]), Option.map_none, ← hattempts]
    | some attempts =>
      have hlist : worker.attemptList = attempts := by simp [attemptList, hattempts]
      rw [hlist, Option.map_some]
      split_ifs with hnamed
      · obtain ⟨htruthy, -⟩ := Bool.and_eq_true_iff.1 hnamed
        have hfinalized : finalization.finalized =
            finalizeOne finalization.attemptId finalization.fields := by
          funext attempt
          exact if_pos htruthy
        rw [hfinalized]
      · have hsame : attempts.map finalization.finalized = attempts := by
          refine (List.map_congr_left fun attempt hmem => ?_).trans (List.map_id' attempts)
          refine AttemptFinalization.finalized_of_not_names ?_
          simp only [Bool.and_eq_true, List.any_eq_true, not_and, not_exists] at hnamed
          rw [AttemptFinalization.names, Bool.eq_false_iff]
          simp only [ne_eq, Bool.and_eq_true, not_and]
          exact fun htruthy => hnamed htruthy.1 attempt hmem htruthy.2
        rw [hsame, ← hattempts]

lemma mergedPromptIds_eq (source added : List String) :
    mergedPromptIds source added = (source ++ added).eraseDups := by
  rw [mergedPromptIds, foldl_append_new]
  simp [List.removeAll]

lemma eraseDups_prefix_mergedPromptIds (source added : List String) :
    source.eraseDups <+: (mergedPromptIds source added).eraseDups := by
  rw [mergedPromptIds_eq, eraseDups_eraseDups, List.eraseDups_append]
  exact List.prefix_append _ _

/-- Merging prompt identifiers into those of an aborted worker adds the new ones at the end. -/
lemma mergePromptIds_of_acceptedAbort (h : worker.acceptedAbort = true) (target : WorkerRecord)
    (htarget : target.promptIds = worker.promptIds) (promptIds : List String)
    (mergeEmpty : Bool) :
    ∃ ids, target.mergePromptIds worker promptIds mergeEmpty = { target with promptIds := ids } ∧
      worker.promptIds.eraseDups <+: ids.eraseDups := by
  have hmarker : worker.promptIdsAreRetryMarker = false := by
    have hstatus := (acceptedAbort_iff.1 h).2
    have hstate : worker.lifecycleState ≠ .activeRetry := by
      intro hstate
      rw [hstate] at hstatus
      cases hstatus
    simp [promptIdsAreRetryMarker, hstate]
  unfold mergePromptIds
  by_cases hempty : (promptIds.isEmpty && !mergeEmpty) = true
  · refine ⟨worker.promptIds, ?_, List.prefix_rfl⟩
    rw [if_pos hempty, ← htarget]
  · refine ⟨mergedPromptIds worker.promptIds promptIds, ?_, eraseDups_prefix_mergedPromptIds _ _⟩
    rw [if_neg hempty, hmarker]
    rfl

/-- The rule lets prompt identifiers through, and the cleanup record of a snapshot. -/
lemma acceptedAbortPassthrough_eq (h : worker.acceptedAbort = true)
    (payload : TransitionPayload) :
    ∃ ids cleanup, worker.acceptedAbortPassthrough payload =
        { worker with promptIds := ids, cleanup := cleanup } ∧
      worker.promptIds.eraseDups <+: ids.eraseDups := by
  by_cases hsnapshot : ∃ patch, payload = .snapshotApplied patch
  · obtain ⟨patch, rfl⟩ := hsnapshot
    obtain ⟨ids, hmerge, hinitial⟩ := mergePromptIds_of_acceptedAbort h
      { worker with cleanup := patch.cleanup.orElse fun _ => worker.cleanup } rfl
      patch.promptIds true
    exact ⟨ids, _, hmerge, hinitial⟩
  · have hpass : worker.acceptedAbortPassthrough payload =
        worker.mergePromptIds worker payload.promptIds := by
      cases payload with
      | snapshotApplied patch => exact absurd ⟨patch, rfl⟩ hsnapshot
      | _ => rfl
    obtain ⟨ids, hmerge, hinitial⟩ :=
      mergePromptIds_of_acceptedAbort h worker rfl payload.promptIds false
    exact ⟨ids, worker.cleanup, hpass.trans hmerge, hinitial⟩

/-- The step: a transition that does not carry an accepted abort changes only what it may. -/
lemma absorbed_reduce (h : worker.acceptedAbort = true)
    (hid : transition.workerId = worker.id)
    (hcarries : transition.payload.carriesAcceptedAbort = false) :
    Absorbed transition.attemptFinalization.toList worker (worker.reduce transition) := by
  -- without its finalisation, the transition changes the prompt identifiers and the cleanup record
  obtain ⟨ids, cleanup, hreduced, hinitial⟩ : ∃ ids cleanup,
      (if acceptedAbortKeepsReduced transition.payload then
        worker.reducePayload transition.workerId transition.payload
      else worker.acceptedAbortPassthrough transition.payload) =
        { worker with promptIds := ids, cleanup := cleanup } ∧
      worker.promptIds.eraseDups <+: ids.eraseDups := by
    by_cases hkeeps : acceptedAbortKeepsReduced transition.payload = true
    · obtain ⟨cleanup, hpayload⟩ : ∃ cleanup, transition.payload = .cleanupUpdated cleanup := by
        revert hkeeps hcarries
        cases transition.payload with
        | cleanupUpdated cleanup => exact fun _ _ => ⟨cleanup, rfl⟩
        | aborted abort => exact fun hcarries hkeeps => absurd (hkeeps.symm.trans hcarries) nofun
        | snapshotApplied patch =>
          exact fun hcarries hkeeps => absurd (hkeeps.symm.trans hcarries) nofun
        | _ => exact fun _ hkeeps => absurd hkeeps nofun
      refine ⟨worker.promptIds, some (cleanup.getD .null), ?_, List.prefix_rfl⟩
      rw [if_pos hkeeps, hpayload]
      show worker.reduceCleanupUpdated transition.workerId cleanup = _
      rw [reduceCleanupUpdated, hid]
    · rw [if_neg hkeeps]
      exact acceptedAbortPassthrough_eq h _
  rw [reduce_of_acceptedAbort h, hreduced, finalizeWith_attempts]
  exact ⟨rfl, hinitial, rfl⟩

/-- The identifier of the worker stays, whatever the transition. -/
lemma id_reduce_of_acceptedAbort (h : worker.acceptedAbort = true)
    (hid : transition.workerId = worker.id) : (worker.reduce transition).id = worker.id := by
  have hfinal : ∀ (w : WorkerRecord) f, (w.finalizeWith f).id = w.id := by
    intro w f
    rw [finalizeWith_attempts]
  rw [reduce_of_acceptedAbort h, hfinal]
  split_ifs with hkeeps
  · exact id_reducePayload hid
  · obtain ⟨ids, cleanup, hpass, -⟩ := acceptedAbortPassthrough_eq h transition.payload
    rw [hpass]

/-! ## Runs of transitions -/

/-- An accepted abort is absorbing: every transition of a sequence is applied, the worker stays
aborted with its abort accepted, and without a transition that carries an accepted abort itself only
the prompt identifiers, the cleanup record and the finalised attempts change. -/
theorem applyAll_of_acceptedAbort (worker : WorkerRecord) (transitions : List WorkerTransition)
    (hid : ∀ transition ∈ transitions, transition.workerId = worker.id)
    (h : worker.acceptedAbort = true) :
    ∃ worker', worker.applyAll transitions = .ok worker' ∧
      worker'.status = .aborted ∧ abortIsAccepted worker'.abort = true ∧
      ((∀ transition ∈ transitions, transition.payload.carriesAcceptedAbort = false) →
        Absorbed (finalizationsOf transitions) worker worker') := by
  induction transitions generalizing worker with
  | nil =>
    obtain ⟨habort, hstatus⟩ := acceptedAbort_iff.1 h
    exact ⟨worker, rfl, hstatus, habort, fun _ => Absorbed.refl worker⟩
  | cons first rest ih =>
    have hfirst : first.workerId = worker.id := hid first (by simp)
    have hrest : ∀ t ∈ rest, t.workerId = (worker.reduce first).id := by
      intro t ht
      rw [id_reduce_of_acceptedAbort h hfirst]
      exact hid t (by simp [ht])
    obtain ⟨worker', happly, hstatus, habort, habsorbed⟩ :=
      ih (worker.reduce first) hrest (acceptedAbort_reduce_all h)
    refine ⟨worker', ?_, hstatus, habort, fun hcarries => ?_⟩
    · rw [applyAll, List.foldlM_cons, applyTransition_of_acceptedAbort h]
      exact happly
    · have hstep := absorbed_reduce h hfirst (hcarries first (by simp))
      have hrun := hstep.trans (habsorbed fun t ht => hcarries t (by simp [ht]))
      have hsplit : finalizationsOf (first :: rest) =
          first.attemptFinalization.toList ++ finalizationsOf rest := by
        unfold finalizationsOf
        cases hfinal : first.attemptFinalization <;> simp [hfinal]
      rwa [hsplit]

/-- An aborted worker with two attempts. -/
def abortedWorker : WorkerRecord :=
  { id := ⟨"worker", WorkerId.nonempty_worker⟩
    lifecycleState := .aborted
    abort := some (.obj [("accepted", .bool true)])
    promptIds := ["msg-1"]
    attempts := some [.obj [("id", .str "attempt-1")], .obj [("id", .str "attempt-2")]] }

/-- What comes late: the result of the second attempt, which is finalised, and a time-out. -/
def lateTransitions : List WorkerTransition :=
  [⟨abortedWorker.id, .resultApplied { status := "done" } ["msg-2"] none,
      some ⟨.str "attempt-2", [("status", .str "done")]⟩⟩,
    ⟨abortedWorker.id, .timedOut "timed out" .timeout .null true false none, none⟩]

/-- They are taken, and leave the worker aborted with the rest of its fields. -/
theorem applyAll_of_acceptedAbort_lateResult :
    ∃ worker', abortedWorker.applyAll lateTransitions = .ok worker' ∧
      worker'.status = .aborted ∧ abortIsAccepted worker'.abort = true ∧
      Absorbed (finalizationsOf lateTransitions) abortedWorker worker' ∧
      worker'.result = none ∧ worker'.failureReason = none ∧
      worker'.attempts = some [.obj [("id", .str "attempt-1")],
        .obj [("id", .str "attempt-2"), ("status", .str "done")]] := by
  obtain ⟨worker', happly, hstatus, habort, habsorbed⟩ :=
    applyAll_of_acceptedAbort abortedWorker lateTransitions (by simp [lateTransitions]) (by decide)
  have hkept : Absorbed (finalizationsOf lateTransitions) abortedWorker worker' := by
    refine habsorbed fun transition htransition => ?_
    simp only [lateTransitions, List.mem_cons, List.not_mem_nil, or_false] at htransition
    rcases htransition with rfl | rfl <;> rfl
  have hothers := hkept.others
  refine ⟨worker', happly, hstatus, habort, hkept, ?_, ?_, ?_⟩
  · exact congrArg WorkerRecord.result hothers
  · exact congrArg WorkerRecord.failureReason hothers
  · rw [hkept.attempts]
    rfl

end WorkerRecord

end OpencodeSession
