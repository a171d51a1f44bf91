import OpencodeSession.Worker.Transition

/-!
# What a transition changes

The facts about `WorkerRecord.reduce` that the developments above use, so that none of them unfolds
a reducer: which lifecycle state it leaves, that it never touches the configuration of a worker,
and what it does to the retry count, the session, the cleanup record, the abort and the attempts.
-/

namespace OpencodeSession

namespace WorkerRecord

/-- The fields that only an operator edits: no transition changes them. -/
structure Configuration where
  role : Option String
  dependencies : List String
  retryLimit : Int
  retryableFailures : List String
  timeoutSeconds : Option TimeoutSeconds
  timeoutPolicy : TimeoutPolicy
  prompt : Option String

/-- The configuration of a worker. -/
def configuration (worker : WorkerRecord) : Configuration where
  role := worker.role
  dependencies := worker.dependencies
  retryLimit := worker.retryLimit
  retryableFailures := worker.retryableFailures
  timeoutSeconds := worker.timeoutSeconds
  timeoutPolicy := worker.timeoutPolicy
  prompt := worker.prompt

/-! ## The helpers of the reducers -/

lemma mergePromptIds_eq (worker latest : WorkerRecord) (promptIds : List String)
    (mergeEmpty : Bool) :
    ∃ ids, worker.mergePromptIds latest promptIds mergeEmpty = { worker with promptIds := ids } := by
  unfold mergePromptIds
  split
  · exact ⟨worker.promptIds, rfl⟩
  · exact ⟨_, rfl⟩

lemma finalizeWith_eq (worker : WorkerRecord) (finalization : Option AttemptFinalization) :
    ∃ attempts, worker.finalizeWith finalization = { worker with attempts := attempts } := by
  cases finalization with
  | none => exact ⟨worker.attempts, rfl⟩
  | some finalization =>
    simp only [finalizeWith, finalizeAttempt]
    split_ifs
    · exact ⟨_, rfl⟩
    · exact ⟨worker.attempts, rfl⟩

/-- Starting an attempt changes nothing but the attempts and the prompt identifiers. -/
lemma reduceAttemptStarted_eq (worker : WorkerRecord) (attempt : JsonValue) :
    ∃ attempts ids, worker.reduceAttemptStarted attempt =
      { worker with attempts := attempts, promptIds := ids } := by
  have happend : ∃ attempts, worker.appendAttempt attempt =
      { worker with attempts := attempts } := by
    unfold appendAttempt
    split_ifs
    · exact ⟨worker.attempts, rfl⟩
    · exact ⟨worker.attempts, rfl⟩
    · exact ⟨_, rfl⟩
  obtain ⟨attempts, happend⟩ := happend
  simp only [reduceAttemptStarted, happend]
  split
  · split_ifs
    · unfold rememberPromptId
      split_ifs
      · exact ⟨attempts, worker.promptIds, rfl⟩
      · exact ⟨attempts, _, rfl⟩
    · exact ⟨attempts, worker.promptIds, rfl⟩
  · exact ⟨attempts, worker.promptIds, rfl⟩

/-- A reduced worker, up to its attempts and prompt identifiers, as the accepted-abort rule leaves
it: the latest worker where the rule applies, what the reducer computes elsewhere. -/
lemma reduce_eq (latest : WorkerRecord) (transition : WorkerTransition)
    (hsnapshot : ∀ patch, transition.payload ≠ .snapshotApplied patch) :
    ∃ attempts ids, latest.reduce transition =
      { (if latest.acceptedAbort && !acceptedAbortKeepsReduced transition.payload then latest
          else latest.reducePayload transition.workerId transition.payload) with
        attempts := attempts, promptIds := ids } := by
  obtain ⟨attempts, hfinal⟩ := finalizeWith_eq
    (latest.acceptedAbortTerminalInvariant
      (latest.reducePayload transition.workerId transition.payload) transition.payload)
    transition.attemptFinalization
  rw [reduce, hfinal]
  unfold acceptedAbortTerminalInvariant
  cases haccepted : latest.acceptedAbort with
  | false => exact ⟨attempts, (latest.reducePayload transition.workerId transition.payload).promptIds,
      rfl⟩
  | true =>
    cases hkeeps : acceptedAbortKeepsReduced transition.payload with
    | true => exact ⟨attempts,
        (latest.reducePayload transition.workerId transition.payload).promptIds, rfl⟩
    | false =>
      have hpass : latest.acceptedAbortPassthrough transition.payload =
          latest.mergePromptIds latest transition.payload.promptIds := by
        cases hpayload : transition.payload with
        | snapshotApplied patch => exact absurd hpayload (hsnapshot patch)
        | _ => rfl
      obtain ⟨ids, hmerge⟩ := mergePromptIds_eq latest latest transition.payload.promptIds false
      refine ⟨attempts, ids, ?_⟩
      simp [hpass, hmerge]

/-! ## Configuration -/

@[simp] lemma configuration_reducePayload (latest : WorkerRecord) (workerId : WorkerId)
    (payload : TransitionPayload) :
    (latest.reducePayload workerId payload).configuration = latest.configuration := by
  have hmerge : ∀ (worker : WorkerRecord) promptIds mergeEmpty,
      (worker.mergePromptIds latest promptIds mergeEmpty).configuration = worker.configuration := by
    intro worker promptIds mergeEmpty
    obtain ⟨ids, h⟩ := mergePromptIds_eq worker latest promptIds mergeEmpty
    rw [h]
    rfl
  cases payload with
  | attemptStarted attempt =>
    obtain ⟨attempts, ids, h⟩ := reduceAttemptStarted_eq latest attempt
    simp only [reducePayload, h]
    rfl
  | failed => exact hmerge _ _ _
  | retryScheduled => exact hmerge _ _ _
  | resultApplied result =>
    refine (hmerge _ _ _).trans ?_
    split_ifs <;> rfl
  | snapshotApplied patch => exact hmerge _ _ _
  | _ => rfl

/-- No transition changes the configuration of its worker. -/
@[simp] lemma configuration_reduce (latest : WorkerRecord) (transition : WorkerTransition) :
    (latest.reduce transition).configuration = latest.configuration := by
  obtain ⟨attempts, hfinal⟩ := finalizeWith_eq
    (latest.acceptedAbortTerminalInvariant
      (latest.reducePayload transition.workerId transition.payload) transition.payload)
    transition.attemptFinalization
  rw [reduce, hfinal]
  change (latest.acceptedAbortTerminalInvariant _ _).configuration = _
  unfold acceptedAbortTerminalInvariant
  split_ifs
  · exact configuration_reducePayload _ _ _
  · exact configuration_reducePayload _ _ _
  · unfold acceptedAbortPassthrough
    split
    · obtain ⟨ids, h⟩ := mergePromptIds_eq { latest with cleanup := _ } latest _ true
      rw [h]
      rfl
    · obtain ⟨ids, h⟩ := mergePromptIds_eq latest latest _ false
      rw [h]
      rfl

/-! ## The other fields -/

/-- A worker without its attempts and prompt identifiers. -/
def core (worker : WorkerRecord) : WorkerRecord := { worker with promptIds := [], attempts := none }

@[simp] lemma core_mergePromptIds (worker latest : WorkerRecord) (promptIds : List String)
    (mergeEmpty : Bool) :
    (worker.mergePromptIds latest promptIds mergeEmpty).core = worker.core := by
  obtain ⟨ids, h⟩ := mergePromptIds_eq worker latest promptIds mergeEmpty
  rw [h]
  rfl

@[simp] lemma core_reduceAttemptStarted (worker : WorkerRecord) (attempt : JsonValue) :
    (worker.reduceAttemptStarted attempt).core = worker.core := by
  obtain ⟨attempts, ids, h⟩ := reduceAttemptStarted_eq worker attempt
  rw [h]
  rfl

lemma eq_of_core {β : Type} (f : WorkerRecord → β) (hf : ∀ worker, f worker.core = f worker)
    {worker worker' : WorkerRecord} (h : worker.core = worker'.core) : f worker = f worker' := by
  rw [← hf worker, h, hf]

lemma core_reduce (latest : WorkerRecord) (transition : WorkerTransition)
    (hsnapshot : ∀ patch, transition.payload ≠ .snapshotApplied patch) :
    (latest.reduce transition).core =
      if latest.acceptedAbort && !acceptedAbortKeepsReduced transition.payload then latest.core
      else (latest.reducePayload transition.workerId transition.payload).core := by
  obtain ⟨attempts, ids, h⟩ := reduce_eq latest transition hsnapshot
  rw [h]
  split <;> rfl

end WorkerRecord

/-- The state that the reducer of a payload leaves a worker in. -/
def TransitionPayload.leaves (payload : TransitionPayload) (source : LifecycleState) :
    LifecycleState :=
  match payload with
  | .aborted abort => if WorkerRecord.abortIsAccepted (some abort) then .aborted else source
  | payload => payload.targetState.getD source

lemma TransitionPayload.leaves_eq_of_targetState {payload : TransitionPayload}
    {source target : LifecycleState} (hpayload : ∀ abort, payload ≠ .aborted abort)
    (h : payload.targetState = some target) : payload.leaves source = target := by
  cases payload with
  | aborted abort => exact absurd rfl (hpayload abort)
  | _ => rw [leaves, h, Option.getD_some]; exact hpayload

namespace WorkerRecord

variable {latest : WorkerRecord} {workerId : WorkerId} {payload : TransitionPayload}
  {transition : WorkerTransition}

lemma lifecycleState_reducePayload (latest : WorkerRecord) (workerId : WorkerId)
    (payload : TransitionPayload) :
    (latest.reducePayload workerId payload).lifecycleState =
      payload.leaves latest.lifecycleState := by
  have hcore := @eq_of_core _ lifecycleState fun _ => rfl
  cases payload with
  | attemptStarted attempt => exact hcore (core_reduceAttemptStarted latest attempt)
  | provisioned | active | dependencyBlocked | aborted | cleanupUpdated => rfl
  | failed | retryScheduled | snapshotApplied => exact hcore (core_mergePromptIds _ latest _ _)
  | timedOut =>
    simp only [TransitionPayload.leaves, TransitionPayload.targetState, Option.getD_some]
    rfl
  | resultApplied =>
    simp only [TransitionPayload.leaves, TransitionPayload.targetState, Option.getD_some]
    rw [reducePayload]
    generalize workerResultLifecycleState _ = target
    rw [reduceResultApplied, hcore (core_mergePromptIds _ latest _ _)]
    split_ifs <;> rfl

lemma id_reducePayload (h : workerId = latest.id) :
    (latest.reducePayload workerId payload).id = latest.id := by
  have hcore := @eq_of_core _ id fun _ => rfl
  cases payload with
  | attemptStarted attempt => exact hcore (core_reduceAttemptStarted latest attempt)
  | failed | retryScheduled | snapshotApplied =>
    exact (hcore (core_mergePromptIds _ latest _ _)).trans h
  | resultApplied =>
    refine (hcore (core_mergePromptIds _ latest _ _)).trans ?_
    split_ifs <;> exact h
  | _ => exact h

lemma retryCount_reducePayload (hsnapshot : ∀ patch, payload ≠ .snapshotApplied patch)
    (hpayload : ∀ category reason retryCount startedAt promptIds,
      payload ≠ .retryScheduled category reason retryCount startedAt promptIds) :
    (latest.reducePayload workerId payload).retryCount = latest.retryCount := by
  have hcore := @eq_of_core _ retryCount fun _ => rfl
  cases payload with
  | attemptStarted attempt => exact hcore (core_reduceAttemptStarted latest attempt)
  | failed => exact (hcore (core_mergePromptIds _ latest _ _)).trans rfl
  | resultApplied =>
    refine (hcore (core_mergePromptIds _ latest _ _)).trans ?_
    split_ifs <;> rfl
  | snapshotApplied patch => exact absurd rfl (hsnapshot patch)
  | retryScheduled => exact absurd rfl (hpayload _ _ _ _ _)
  | _ => rfl

lemma sessionId_reducePayload (hsnapshot : ∀ patch, payload ≠ .snapshotApplied patch)
    (hpayload : ∀ sessionId agent model, payload ≠ .provisioned sessionId agent model) :
    (latest.reducePayload workerId payload).sessionId = latest.sessionId := by
  have hcore := @eq_of_core _ sessionId fun _ => rfl
  cases payload with
  | provisioned => exact absurd rfl (hpayload _ _ _)
  | attemptStarted attempt => exact hcore (core_reduceAttemptStarted latest attempt)
  | failed | retryScheduled => exact (hcore (core_mergePromptIds _ latest _ _)).trans rfl
  | resultApplied =>
    refine (hcore (core_mergePromptIds _ latest _ _)).trans ?_
    split_ifs <;> rfl
  | snapshotApplied patch => exact absurd rfl (hsnapshot patch)
  | _ => rfl

lemma result_reducePayload (hsnapshot : ∀ patch, payload ≠ .snapshotApplied patch)
    (hpayload : ∀ result promptIds startedAt, payload ≠ .resultApplied result promptIds startedAt) :
    (latest.reducePayload workerId payload).result = latest.result := by
  have hcore := @eq_of_core _ result fun _ => rfl
  cases payload with
  | attemptStarted attempt => exact hcore (core_reduceAttemptStarted latest attempt)
  | failed | retryScheduled => exact (hcore (core_mergePromptIds _ latest _ _)).trans rfl
  | resultApplied => exact absurd rfl (hpayload _ _ _)
  | snapshotApplied patch => exact absurd rfl (hsnapshot patch)
  | _ => rfl

lemma result_reducePayload_resultApplied (applied : ExecutionResult) (promptIds : List String)
    (startedAt : Option JsonValue) :
    (latest.reducePayload workerId (.resultApplied applied promptIds startedAt)).result =
      some applied.toJson := by
  have hcore := @eq_of_core _ result fun _ => rfl
  refine (hcore (core_mergePromptIds _ latest _ _)).trans ?_
  split_ifs
  · rfl
  · rfl

/-! ## Legal transitions -/

lemma apply_reduce {β : Type} (f : WorkerRecord → β) (hf : ∀ worker, f worker.core = f worker)
    (hsnapshot : ∀ patch, transition.payload ≠ .snapshotApplied patch) :
    f (latest.reduce transition) =
      if latest.acceptedAbort && !acceptedAbortKeepsReduced transition.payload then f latest
      else f (latest.reducePayload transition.workerId transition.payload) := by
  have hcore := core_reduce latest transition hsnapshot
  split at hcore
  · next h => rw [if_pos h, eq_of_core f hf hcore]
  · next h => rw [if_neg h, eq_of_core f hf hcore]

lemma id_reduce (hsnapshot : ∀ patch, transition.payload ≠ .snapshotApplied patch)
    (h : transition.workerId = latest.id) : (latest.reduce transition).id = latest.id := by
  rw [apply_reduce id (fun _ => rfl) hsnapshot, id_reducePayload h, ite_self]

lemma result_reduce (hsnapshot : ∀ patch, transition.payload ≠ .snapshotApplied patch)
    (hpayload : ∀ result promptIds startedAt,
      transition.payload ≠ .resultApplied result promptIds startedAt) :
    (latest.reduce transition).result = latest.result := by
  rw [apply_reduce result (fun _ => rfl) hsnapshot, result_reducePayload hsnapshot hpayload,
    ite_self]

lemma result_reduce_resultApplied (latest : WorkerRecord) {applied : ExecutionResult}
    {promptIds : List String} {startedAt : Option JsonValue}
    (h : transition.payload = .resultApplied applied promptIds startedAt) :
    (latest.reduce transition).result = latest.result ∨
      (latest.reduce transition).result = some applied.toJson := by
  rw [apply_reduce result (fun _ => rfl) (by simp [h]), h]
  split_ifs
  · exact .inl rfl
  · exact .inr (result_reducePayload_resultApplied applied promptIds startedAt)

lemma sessionId_reduce (hsnapshot : ∀ patch, transition.payload ≠ .snapshotApplied patch)
    (hpayload : ∀ sessionId agent model,
      transition.payload ≠ .provisioned sessionId agent model) :
    (latest.reduce transition).sessionId = latest.sessionId := by
  rw [apply_reduce sessionId (fun _ => rfl) hsnapshot,
    sessionId_reducePayload hsnapshot hpayload, ite_self]

lemma lifecycleState_reduce (hsnapshot : ∀ patch, transition.payload ≠ .snapshotApplied patch)
    (h : latest.acceptedAbort = false) :
    (latest.reduce transition).lifecycleState =
      transition.payload.leaves latest.lifecycleState := by
  rw [apply_reduce lifecycleState (fun _ => rfl) hsnapshot, h, Bool.false_and,
    if_neg Bool.false_ne_true, lifecycleState_reducePayload]

/-- An accepted abort survives every transition. -/
lemma acceptedAbort_reduce (hsnapshot : ∀ patch, transition.payload ≠ .snapshotApplied patch)
    (h : latest.acceptedAbort = true) : (latest.reduce transition).acceptedAbort = true := by
  rw [apply_reduce acceptedAbort (fun _ => rfl) hsnapshot, h, Bool.true_and]
  cases hkeeps : acceptedAbortKeepsReduced transition.payload with
  | false => simp
  | true =>
    rw [if_neg (by simp)]
    revert hkeeps hsnapshot
    cases transition.payload with
    | aborted abort =>
      intro _ hkeeps
      change abortIsAccepted (some abort) = true at hkeeps
      simp [reducePayload, reduceAborted, acceptedAbort, status, hkeeps, LifecycleState.status,
        LifecycleState.row]
    | cleanupUpdated cleanup => exact fun _ _ => h
    | snapshotApplied patch => exact fun hsnapshot _ => absurd rfl (hsnapshot patch)
    | _ => exact fun _ hkeeps => by cases hkeeps

/-! ## Attempts -/

lemma attempts_mergePromptIds (worker latest : WorkerRecord) (promptIds : List String)
    (mergeEmpty : Bool) :
    (worker.mergePromptIds latest promptIds mergeEmpty).attempts = worker.attempts := by
  obtain ⟨ids, h⟩ := mergePromptIds_eq worker latest promptIds mergeEmpty
  rw [h]

/-- Only the start of an attempt changes the attempts by its reducer. -/
lemma attempts_reducePayload (hsnapshot : ∀ patch, payload ≠ .snapshotApplied patch)
    (hpayload : ∀ attempt, payload ≠ .attemptStarted attempt) :
    (latest.reducePayload workerId payload).attempts = latest.attempts := by
  cases payload with
  | attemptStarted attempt => exact absurd rfl (hpayload attempt)
  | snapshotApplied patch => exact absurd rfl (hsnapshot patch)
  | failed | retryScheduled => exact (attempts_mergePromptIds _ latest _ _).trans rfl
  | resultApplied =>
    refine (attempts_mergePromptIds _ latest _ _).trans ?_
    split_ifs <;> rfl
  | _ => rfl

lemma attempts_finalizeAttempt (worker : WorkerRecord) (attemptId : JsonValue)
    (fields : List (String × JsonValue)) :
    (worker.finalizeAttempt attemptId fields).attempts =
      if attemptId.truthy && (worker.attempts.getD []).any fun attempt =>
        attempt.isObj && (attempt.get "id").pyEq attemptId then
        some ((worker.attempts.getD []).map (finalizeOne attemptId fields))
      else worker.attempts := by
  unfold finalizeAttempt attemptList
  split_ifs <;> rfl

/-- The finalisation of an attempt depends on the attempts only. -/
lemma attempts_finalizeWith_congr {worker worker' : WorkerRecord}
    (h : worker.attempts = worker'.attempts) (finalization : Option AttemptFinalization) :
    (worker.finalizeWith finalization).attempts = (worker'.finalizeWith finalization).attempts := by
  cases finalization with
  | none => exact h
  | some finalization =>
    simp only [finalizeWith, attempts_finalizeAttempt, h]

/-- A transition that starts no attempt finalises one, or leaves the attempts alone. -/
lemma attempts_reduce (hsnapshot : ∀ patch, transition.payload ≠ .snapshotApplied patch)
    (hpayload : ∀ attempt, transition.payload ≠ .attemptStarted attempt) :
    (latest.reduce transition).attempts =
      (latest.finalizeWith transition.attemptFinalization).attempts := by
  refine attempts_finalizeWith_congr ?_ _
  unfold acceptedAbortTerminalInvariant
  split_ifs
  · exact attempts_reducePayload hsnapshot hpayload
  · exact attempts_reducePayload hsnapshot hpayload
  · cases hcase : transition.payload with
    | snapshotApplied patch => exact absurd hcase (hsnapshot patch)
    | _ => exact attempts_mergePromptIds _ _ _ _

/-- The start of an attempt adds it, unless the abort of the worker was accepted. -/
lemma attempts_reduce_attemptStarted {attempt : JsonValue} (h : latest.acceptedAbort = false) :
    (latest.reduce { workerId := workerId, payload := .attemptStarted attempt }).attempts =
      (latest.appendAttempt attempt).attempts := by
  simp only [reduce, acceptedAbortTerminalInvariant, h, Bool.not_false, if_true, finalizeWith,
    reducePayload, reduceAttemptStarted]
  split
  · split_ifs
    · unfold rememberPromptId
      split_ifs <;> rfl
    · rfl
  · rfl

end WorkerRecord

end OpencodeSession
