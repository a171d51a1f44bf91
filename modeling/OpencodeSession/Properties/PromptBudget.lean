import Mathlib.Algebra.BigOperators.Group.Finset.Piecewise
import Mathlib.Algebra.Order.BigOperators.Group.Finset
import OpencodeSession.Orchestration.Rounds
import OpencodeSession.Properties.AttemptRule

/-!
# The prompts of the serial loop

The loop of a start executes a worker and plans again until no worker is ready.  A worker may be
executed once, and once more for each retry that it has left (`WorkerRecord.allowance`).  Of the
outcomes of an attempt one uses no retry up and leaves the worker to be selected again all the same:
a time-out of a worker whose policy keeps it retryable.  Under the fail-fast policy the loop stops
at it, and otherwise it is the reason for every execution beyond the allowance (`sent_le_of_runs`).
So the loop ends by itself, within as many rounds as the workers have attempts and the run has such
time-outs (`ne_cut_of_runs`).

The invariant is an account for each worker: the outcomes recorded so far and what the stored worker
may still do are covered by its allowance at the start of the loop and its time-outs (`Covered`).
-/

namespace OpencodeSession

namespace WorkerRecord

variable {latest worker : WorkerRecord} {transition : WorkerTransition}
  {attempt : WorkerAttemptOutcome} {error : Option String}

/-- The attempts that a worker has left: one, and one for each retry. -/
def attemptsLeft (worker : WorkerRecord) : Nat :=
  1 + (worker.retryLimit - worker.retryCount).toNat

/-- How often a start may execute a worker. -/
def allowance (worker : WorkerRecord) : Nat :=
  if worker.isExecutable then worker.attemptsLeft else 0

lemma attemptsLeft_pos (worker : WorkerRecord) : 0 < worker.attemptsLeft := by
  unfold attemptsLeft
  omega

lemma allowance_le (worker : WorkerRecord) : worker.allowance ≤ worker.attemptsLeft := by
  unfold allowance
  split_ifs
  · exact le_rfl
  · exact Nat.zero_le _

lemma allowance_of_isExecutable (h : worker.isExecutable = true) :
    worker.allowance = worker.attemptsLeft := if_pos h

lemma allowance_eq_zero (h : worker.lifecycleState.executable = false) : worker.allowance = 0 := by
  simp [allowance, isExecutable, h]

@[simp] lemma allowance_default (workerId : WorkerId) : (WorkerRecord.default workerId).allowance = 0 :=
  if_neg Bool.false_ne_true

lemma attemptsLeft_congr (hcount : worker.retryCount = latest.retryCount)
    (hlimit : worker.retryLimit = latest.retryLimit) : worker.attemptsLeft = latest.attemptsLeft := by
  rw [attemptsLeft, attemptsLeft, hcount, hlimit]

lemma allowance_congr (hprompt : worker.hasPrompt = latest.hasPrompt)
    (hstate : worker.lifecycleState = latest.lifecycleState)
    (hleft : worker.attemptsLeft = latest.attemptsLeft) : worker.allowance = latest.allowance := by
  rw [allowance, allowance, isExecutable, isExecutable, hprompt, hstate, hleft]

lemma retryLimit_reduce (latest : WorkerRecord) (transition : WorkerTransition) :
    (latest.reduce transition).retryLimit = latest.retryLimit :=
  congrArg Configuration.retryLimit (configuration_reduce latest transition)

lemma attemptsLeft_reduce (hsnapshot : ∀ patch, transition.payload ≠ .snapshotApplied patch)
    (hpayload : ∀ category reason retryCount startedAt promptIds,
      transition.payload ≠ .retryScheduled category reason retryCount startedAt promptIds) :
    (latest.reduce transition).attemptsLeft = latest.attemptsLeft := by
  refine attemptsLeft_congr ?_ (retryLimit_reduce latest transition)
  rw [apply_reduce retryCount (fun _ => rfl) hsnapshot, retryCount_reducePayload hsnapshot hpayload,
    ite_self]

lemma allowance_reduce_of_leaves (hsnapshot : ∀ patch, transition.payload ≠ .snapshotApplied patch)
    (h : (transition.payload.leaves latest.lifecycleState).executable = false) :
    (latest.reduce transition).allowance = 0 := by
  by_cases habort : latest.acceptedAbort = true
  · exact if_neg (by simp [not_isExecutable_of_acceptedAbort (acceptedAbort_reduce hsnapshot habort)])
  · refine allowance_eq_zero ?_
    rw [lifecycleState_reduce hsnapshot (Bool.eq_false_iff.2 habort)]
    exact h

/-- What happens outside of the attempts gives no worker an attempt. -/
lemma allowance_reduce_of_plain (h : transition.Plain) :
    (latest.reduce transition).allowance ≤ latest.allowance := by
  have hsnapshot := TransitionPayload.ne_snapshotApplied_of_settles h.settles
  have hplain := h.payload
  obtain ⟨workerId, payload, finalization⟩ := transition
  cases payload with
  | failed category reason retryable retryAvailable startedAt ids =>
    obtain rfl : retryable = false := by simpa [TransitionPayload.isPlain] using hplain
    rw [allowance_reduce_of_leaves hsnapshot]
    · exact Nat.zero_le _
    · show ((TransitionPayload.failed category reason false retryAvailable startedAt ids).leaves
        latest.lifecycleState).executable = false
      rw [TransitionPayload.leaves_eq_of_targetState (by simp) rfl, workerFailedLifecycleState_eq]
      rfl
  | dependencyBlocked blockers =>
    rw [allowance_reduce_of_leaves hsnapshot rfl]
    exact Nat.zero_le _
  | cleanupUpdated cleanup =>
    refine le_of_eq (allowance_congr hasPrompt_reduce ?_ (attemptsLeft_reduce hsnapshot (by simp)))
    rw [apply_reduce lifecycleState (fun _ => rfl) hsnapshot, lifecycleState_reducePayload]
    exact ite_self _
  | _ => cases hplain

lemma attemptsLeft_reduce_of_opens {allowed : String → Prop}
    (h : transition.payload.Opens allowed) :
    (latest.reduce transition).attemptsLeft = latest.attemptsLeft := by
  refine attemptsLeft_reduce (TransitionPayload.ne_snapshotApplied_of_opens h) ?_
  intro category reason retryCount startedAt promptIds hpayload
  rw [hpayload] at h
  cases h

end WorkerRecord

/-- Whether a transition times its worker out and leaves it in a state that the planner executes. -/
def TransitionPayload.timesOutExecutable : TransitionPayload → Bool
  | timedOut _ status _ retryAvailable _ _ =>
    (workerTimeoutLifecycleState status retryAvailable).executable
  | _ => false

namespace WorkerRecord

variable {latest worker : WorkerRecord} {transition : WorkerTransition}
  {attempt : WorkerAttemptOutcome} {error : Option String}

/-- An outcome uses an attempt up, unless it is a time-out that leaves its worker executable. -/
lemma allowance_reduce_of_attemptEffect
    (h : AttemptEffect worker attempt transition.payload error) :
    (worker.reduce transition).allowance + 1 ≤
      worker.attemptsLeft + transition.payload.timesOutExecutable.toNat := by
  have hpos := worker.attemptsLeft_pos
  have hsnapshot := h.ne_snapshotApplied
  -- a worker that is no longer executable has used up what it was allowed
  have hnone : (transition.payload.leaves worker.lifecycleState).executable = false →
      (worker.reduce transition).allowance + 1 ≤
        worker.attemptsLeft + transition.payload.timesOutExecutable.toNat := by
    intro hleaves
    rw [allowance_reduce_of_leaves hsnapshot hleaves]
    omega
  generalize hpayload : transition.payload = payload at h hnone ⊢
  cases h with
  | result result ids startedAt hcompleted =>
    refine hnone ?_
    rw [TransitionPayload.leaves_eq_of_targetState (by simp) rfl]
    have hmem := workerResultLifecycleState_mem result.status
    revert hmem
    generalize workerResultLifecycleState result.status = state
    cases state <;> decide
  | failure category reason error ids startedAt =>
    refine hnone ?_
    rw [TransitionPayload.leaves_eq_of_targetState (by simp) rfl, workerFailedLifecycleState_eq]
    rfl
  | timeout reason error timedOutAt startedAt htimeout =>
    cases hexec : (workerTimeoutLifecycleState worker.timeoutPolicy
        (worker.retryAvailable (some "timeout"))).executable with
    | false =>
      refine hnone ?_
      rw [TransitionPayload.leaves_eq_of_targetState (by simp) rfl]
      exact hexec
    | true =>
      -- a time-out that keeps its worker executable counts no retry, but is counted itself
      have hleft : (worker.reduce transition).attemptsLeft = worker.attemptsLeft :=
        attemptsLeft_reduce hsnapshot (by simp [hpayload])
      have hle := allowance_le (worker.reduce transition)
      rw [TransitionPayload.timesOutExecutable, hexec, Bool.toNat_true]
      omega
  | retry category reason ids startedAt hlt =>
    by_cases habort : worker.acceptedAbort = true
    · have hzero : (worker.reduce transition).allowance = 0 := if_neg (by
        simp [not_isExecutable_of_acceptedAbort (acceptedAbort_reduce hsnapshot habort)])
      omega
    -- a retry is counted
    · have hcount : (worker.reduce transition).retryCount = worker.retryCount + 1 := by
        rw [apply_reduce retryCount (fun _ => rfl) hsnapshot, if_neg (by simp [habort]), hpayload]
        exact (eq_of_core retryCount (fun _ => rfl) (core_mergePromptIds _ worker _ _)).trans rfl
      have hle := allowance_le (worker.reduce transition)
      unfold attemptsLeft at hle ⊢
      rw [hcount, retryLimit_reduce] at hle
      omega

end WorkerRecord

namespace Run

/-- How often a start may execute a worker of the run. -/
def allowance (run : Run) (id : String) : Nat :=
  ((run.workers.get? id).map WorkerRecord.allowance).getD 0

/-- How often a start may execute the workers of the run. -/
def totalAllowance (run : Run) : Nat := (run.workers.ids.map run.allowance).sum

lemma allowance_latestWorker (run : Run) (workerId : WorkerId) :
    (run.latestWorker workerId).allowance = run.allowance workerId.value := by
  unfold latestWorker allowance
  cases run.workers.get? workerId.value with
  | none => exact WorkerRecord.allowance_default workerId
  | some worker => rfl

end Run

namespace PromptBudget

/-! ## Counting events -/

/-- The worker that a request sends the prompt of. -/
def sentTo (call : Call) : Option String := call.request.prompt?.map PromptExecution.workerId

/-- The worker whose outcome a request records. -/
def recordedFor : Call → Option String
  | ⟨.recording _, .updateRun (.applyTransitions [transition])⟩ => some transition.workerId.value
  | _ => none

/-- The worker that a request times out so that it may be executed again. -/
def timedOutFor : Call → Option String
  | ⟨.recording _, .updateRun (.applyTransitions [transition])⟩ =>
    if transition.payload.timesOutExecutable then some transition.workerId.value else none
  | _ => none

/-- The worker that a request times out so that it may be executed again by a start that goes on. -/
def sparedFor (policy : ExecutionPolicy) (call : Call) : Option String :=
  match policy with
  | .failFast => none
  | .continue => timedOutFor call

/-- How many of the requests name a worker. -/
def times (of : Call → Option String) (id : String) (events : List (Event storeInterface Unit)) :
    Nat :=
  events.countP fun e => of e.op == some id

/-- How many of the requests name any worker. -/
def total (of : Call → Option String) (events : List (Event storeInterface Unit)) : Nat :=
  events.countP fun e => (of e.op).isSome

variable {of : Call → Option String} {id : String} {events : List (Event storeInterface Unit)}
  {call : Call} {answer : call.request.Answer} {policy : ExecutionPolicy}

lemma times_append : times of id (events ++ [⟨(), call, answer⟩]) =
    times of id events + (of call == some id).toNat := by
  unfold times
  rw [List.countP_append, List.countP_singleton]
  cases of call == some id <;> rfl

lemma times_append_of_ne (h : of call ≠ some id) :
    times of id (events ++ [⟨(), call, answer⟩]) = times of id events := by
  rw [times_append, beq_eq_false_iff_ne.2 h, Bool.toNat_false, Nat.add_zero]

lemma times_append_of_eq (h : of call = some id) :
    times of id (events ++ [⟨(), call, answer⟩]) = times of id events + 1 := by
  rw [times_append, h, beq_self_eq_true, Bool.toNat_true]

lemma total_append : total of (events ++ [⟨(), call, answer⟩]) =
    total of events + (of call).isSome.toNat := by
  unfold total
  rw [List.countP_append, List.countP_singleton]
  cases (of call).isSome <;> rfl

/-! ## Kinds of requests -/

lemma sentTo_of_quiet {stage : Stage} (h : call.Quiet stage) : sentTo call = none := by
  obtain ⟨phase, request⟩ := call
  have hrequest := h.request
  cases request with
  | executePrompt execution => exact absurd rfl (hrequest execution)
  | _ => rfl

lemma phase_of_recordedFor (h : recordedFor call = some id) :
    ∃ workerId, call.phase = .recording workerId := by
  unfold recordedFor at h
  split at h
  · exact ⟨_, rfl⟩
  · cases h

lemma recordedFor_of_quiet {stage : Stage} (h : call.Quiet stage) (hstage : stage ≠ .attempting) :
    recordedFor call ≠ some id := by
  intro hrecorded
  obtain ⟨workerId, hphase⟩ := phase_of_recordedFor hrecorded
  refine hstage (h.phase.symm.trans ?_)
  rw [hphase]
  rfl

lemma recordedFor_of_opens {workerId : WorkerId} {allowed : String → Prop}
    (h : call.Opens workerId allowed) : recordedFor call ≠ some id := by
  intro hrecorded
  obtain ⟨workerId, hphase⟩ := phase_of_recordedFor hrecorded
  have hopens := h.phase
  rw [hphase] at hopens
  cases hopens

lemma sentTo_of_opens {workerId : WorkerId} {allowed : String → Prop}
    (h : call.Opens workerId allowed) (hid : workerId.value ≠ id) : sentTo call ≠ some id := by
  intro hsent
  obtain ⟨execution, hexecution, hworker⟩ := Option.map_eq_some_iff.1 hsent
  exact hid ((h.prompted execution hexecution).symm.trans hworker)

lemma recordedFor_of_records {workerId : WorkerId} (h : call.Records workerId)
    (hid : workerId.value ≠ id) : recordedFor call ≠ some id := by
  intro hrecorded
  obtain ⟨phase, request⟩ := call
  unfold recordedFor at hrecorded
  split at hrecorded
  · next hcall =>
    cases hcall
    obtain ⟨transition, hmutation, hworker⟩ := h.transition _ rfl
    cases hmutation
    exact hid ((congrArg WorkerId.value hworker).symm.trans (Option.some.inj hrecorded))
  · cases hrecorded

/-! ## What requests leave of a worker -/

variable {workerId other : WorkerId} {stored before : Option Run} {allowed : String → Prop}

/-- What every update that a request asks for does to the latest worker, the request does to the
stored one. -/
lemma latestOf_of_responds {R : WorkerRecord → WorkerRecord → Prop} (hrefl : ∀ worker, R worker worker)
    (hupdate : ∀ mutation now run left, call.request.mutation? = some mutation →
      RunMutation.apply mutation now run = .ok left →
        R (run.latestWorker workerId) (left.latestWorker workerId))
    (hanswer : call.request.Responds before answer stored) :
    R (latestOf workerId before) (latestOf workerId stored) := by
  obtain ⟨phase, request⟩ := call
  cases hmutation : request.mutation? with
  | none =>
    rw [latestOf_of_eq_none hanswer hmutation]
    exact hrefl _
  | some mutation =>
    cases request with
    | updateRun mutation' =>
      cases hmutation
      have hupdates : Updates mutation.apply before answer stored := hanswer
      cases hupdates with
      | committed _ hleft =>
        have hrelated := hupdate mutation _ _ _ rfl hleft
        exact hrelated
      | raised | failed => exact hrefl _
      | lost _ hleft _ =>
        have hrelated := hupdate mutation _ _ _ rfl hleft
        exact hrelated
    | _ => cases hmutation

lemma allowance_of_plain {stage : Stage} (h : call.Plain stage)
    (hanswer : call.request.Responds before answer stored) :
    (latestOf workerId stored).allowance ≤ (latestOf workerId before).allowance := by
  refine latestOf_of_responds (R := fun worker left => left.allowance ≤ worker.allowance)
    (fun _ => le_rfl) (fun mutation now run left hmutation hleft => ?_) hanswer
  exact (h.updates mutation hmutation).keeps
    (P := fun worker => worker.allowance ≤ (run.latestWorker workerId).allowance) hleft
    (fun worker transition htransition _ hle =>
      (WorkerRecord.allowance_reduce_of_plain htransition).trans hle) le_rfl

lemma latestOf_of_opens (h : call.Opens other allowed) (hne : workerId ≠ other)
    (hanswer : call.request.Responds before answer stored) :
    latestOf workerId stored = latestOf workerId before :=
  latestOf_of_responds (R := fun worker left => left = worker) (fun _ => rfl)
    (fun mutation _ _ _ hmutation hleft =>
      (h.updates mutation hmutation).latestWorker_of_ne hleft hne) hanswer

/-- Opening its attempt leaves a worker its retries. -/
lemma attemptsLeft_of_opens (h : call.Opens workerId allowed)
    (hanswer : call.request.Responds before answer stored) :
    (latestOf workerId stored).attemptsLeft = (latestOf workerId before).attemptsLeft := by
  refine latestOf_of_responds (R := fun worker left => left.attemptsLeft = worker.attemptsLeft)
    (fun _ => rfl) (fun mutation now run left hmutation hleft => ?_) hanswer
  rcases (h.updates mutation hmutation).latestWorker_eq hleft with hsame |
    ⟨transition, hpayload, hsame⟩ | ⟨sessionId, cleanupRequested, agent, model, -, hsame⟩
  · rw [hsame]
  · rw [hsame, WorkerRecord.attemptsLeft_reduce_of_opens hpayload]
  · rw [hsame]
    cases cleanupRequested <;> rfl

/-- The outcome of another worker leaves a worker. -/
lemma latestOf_of_records (h : call.Records other) (hne : workerId ≠ other)
    (hanswer : call.request.Responds before answer stored) :
    latestOf workerId stored = latestOf workerId before := by
  refine latestOf_of_responds (R := fun worker left => left = worker) (fun _ => rfl)
    (fun mutation now run left hmutation hleft => ?_) hanswer
  obtain ⟨phase, request⟩ := call
  cases request with
  | updateRun mutation' =>
    cases hmutation
    obtain ⟨transition, rfl, hworker⟩ := h.transition _ rfl
    have hsettles := h.request.updates rfl
    obtain ⟨run', hrun', hworkers⟩ := RunMutation.applyTransitions_eq_ok hleft
    refine Run.latestWorker_congr ?_
    rw [hworkers]
    refine Run.get?_applyTransitions_of_notMem (fun t ht => ?_) hrun' fun t ht => ?_
    · cases hsettles with
      | applyTransitions hpayload =>
        exact TransitionPayload.ne_snapshotApplied_of_settles (hpayload t ht)
    · rw [List.mem_singleton.1 ht, hworker]
      exact fun hvalue => hne (WorkerId.ext hvalue.symm)
  | _ => cases hmutation

/-! ## The account of a worker -/

variable {start run : Run} {s : StartRecord} {e : Event storeInterface Unit}

/-- How often a worker may have been executed: its allowance at the start, and its time-outs. -/
def limit (start : Run) (policy : ExecutionPolicy) (id : String)
    (events : List (Event storeInterface Unit)) : Nat :=
  start.allowance id + times (sparedFor policy) id events

/-- The account of a worker between two attempts: every prompt sent has an outcome recorded, and
what has been recorded and what may still be is within the limit. -/
structure Covered (start : Run) (policy : ExecutionPolicy) (workerId : WorkerId)
    (s : StartRecord) : Prop where
  sent : times sentTo workerId.value s.2 ≤ times recordedFor workerId.value s.2
  recorded : times recordedFor workerId.value s.2 + (latestOf workerId s.1).allowance ≤
    limit start policy workerId.value s.2

/-- What holds of the account of a worker after every step. -/
structure Bounded (start : Run) (policy : ExecutionPolicy) (workerId : WorkerId)
    (s : StartRecord) : Prop where
  sent : times sentTo workerId.value s.2 ≤ limit start policy workerId.value s.2
  recorded : times recordedFor workerId.value s.2 ≤ limit start policy workerId.value s.2

lemma Covered.bounded (h : Covered start policy workerId s) : Bounded start policy workerId s := by
  have hsent := h.sent
  have hrecorded := h.recorded
  constructor <;> omega

lemma limit_append : limit start policy id (events ++ [⟨(), call, answer⟩]) =
    limit start policy id events + (sparedFor policy call == some id).toNat := by
  rw [limit, times_append, limit, Nat.add_assoc]

lemma limit_le_append : limit start policy id events ≤
    limit start policy id (events ++ [⟨(), call, answer⟩]) := by
  rw [limit_append]
  exact Nat.le_add_right _ _

/-- A request that neither sends the prompt of a worker nor records its outcome. -/
lemma Covered.append (h : Covered start policy workerId s) (hsent : sentTo call ≠ some workerId.value)
    (hrecorded : recordedFor call ≠ some workerId.value)
    (hallowance : (latestOf workerId stored).allowance ≤ (latestOf workerId s.1).allowance) :
    Covered start policy workerId (stored, s.2 ++ [⟨(), call, answer⟩]) where
  sent := by
    rw [times_append_of_ne hsent, times_append_of_ne hrecorded]
    exact h.sent
  recorded := by
    have hcovered := h.recorded
    have hlimit : limit start policy workerId.value s.2 ≤
        limit start policy workerId.value (s.2 ++ [⟨(), call, answer⟩]) := limit_le_append
    rw [times_append_of_ne hrecorded]
    dsimp only
    omega

lemma Bounded.append (h : Bounded start policy workerId s) (hsent : sentTo call ≠ some workerId.value)
    (hrecorded : recordedFor call ≠ some workerId.value) :
    Bounded start policy workerId (stored, s.2 ++ [⟨(), call, answer⟩]) where
  sent := by
    rw [times_append_of_ne hsent]
    exact h.sent.trans limit_le_append
  recorded := by
    rw [times_append_of_ne hrecorded]
    exact h.recorded.trans limit_le_append

lemma Covered.of_plain {stage : Stage} (h : Covered start policy workerId s)
    (hcall : call.Plain stage) (hstage : stage ≠ .attempting)
    (hanswer : call.request.Responds s.1 answer stored) :
    Covered start policy workerId (stored, s.2 ++ [⟨(), call, answer⟩]) := by
  refine h.append ?_ (recordedFor_of_quiet hcall.toQuiet hstage) (allowance_of_plain hcall hanswer)
  rw [sentTo_of_quiet hcall.toQuiet]
  exact Option.some_ne_none _ ∘ Eq.symm

lemma Bounded.of_quiet {stage : Stage} (h : Bounded start policy workerId s)
    (hcall : call.Quiet stage) (hstage : stage ≠ .attempting) :
    Bounded start policy workerId (stored, s.2 ++ [⟨(), call, answer⟩]) := by
  refine h.append ?_ (recordedFor_of_quiet hcall hstage)
  rw [sentTo_of_quiet hcall]
  exact Option.some_ne_none _ ∘ Eq.symm

/-! ## One attempt -/

section

variable {cond : StartRecord → Call → Prop} {worker : WorkerRecord} {prompt : String}
  {strategy : BlockingStrategy} {agent model : Option String} {cleanupRequested : Bool}

/-- The attempt of another worker. -/
lemma safe_execute_other (hs : Covered start policy workerId s) (hne : workerId ≠ worker.id) :
    (aloneContract cond (Bounded start policy workerId)).Safe
      (fun _ s => Covered start policy workerId s) (fun _ s => Covered start policy workerId s)
      (Execution.execute run worker prompt strategy agent model cleanupRequested) s := by
  have hvalue : worker.id.value ≠ workerId.value := fun heq => hne (WorkerId.ext heq.symm)
  refine (Execution.safe_execute_keeping (J := Covered start policy workerId)
    (fun _ h => h.bounded) (fun call s answer stored hcall hs hanswer _ => ?_)
    (fun call s answer stored hcall hs hanswer _ => ?_) hs).mono (fun _ _ h => h.1) fun _ _ h => h
  · refine hs.append (sentTo_of_opens hcall hvalue) (recordedFor_of_opens hcall) (le_of_eq ?_)
    rw [latestOf_of_opens hcall hne hanswer]
  · refine hs.append ?_ (recordedFor_of_records hcall hvalue) (le_of_eq ?_)
    · rw [sentTo_of_quiet hcall.toSettles.quiet]
      exact Option.some_ne_none _ ∘ Eq.symm
    · rw [latestOf_of_records hcall hne hanswer]

/-- The attempt of a worker of which `before` outcomes have been recorded, before its own is. -/
structure Attempting (start : Run) (policy : ExecutionPolicy) (workerId : WorkerId) (before : Nat)
    (s : StartRecord) : Prop where
  recorded : times recordedFor workerId.value s.2 = before
  left : before + (latestOf workerId s.1).attemptsLeft ≤ limit start policy workerId.value s.2

/-- What holds of it all the while. -/
structure Attempted (start : Run) (policy : ExecutionPolicy) (workerId : WorkerId) (before : Nat)
    (s : StartRecord) : Prop where
  recorded : times recordedFor workerId.value s.2 ≤ before + 1
  limit : before + 1 ≤ limit start policy workerId.value s.2

lemma Attempting.attempted {before : Nat} (h : Attempting start policy workerId before s) :
    Attempted start policy workerId before s := by
  have hleft := h.left
  have hpos := (latestOf workerId s.1).attemptsLeft_pos
  exact ⟨by rw [h.recorded]; omega, by omega⟩

lemma Attempting.append {before : Nat} (h : Attempting start policy workerId before s)
    (hrecorded : recordedFor call ≠ some workerId.value)
    (hleft : (latestOf workerId stored).attemptsLeft = (latestOf workerId s.1).attemptsLeft) :
    Attempting start policy workerId before (stored, s.2 ++ [⟨(), call, answer⟩]) where
  recorded := by
    rw [times_append_of_ne hrecorded]
    exact h.recorded
  left := by
    dsimp only
    rw [hleft]
    exact h.left.trans limit_le_append

/-- The record of an attempt: under the fail-fast policy it may have an error and leave its worker
executable, and otherwise the worker is covered again. -/
lemma Attempting.recorded_outcome {before : Nat} {attempt : WorkerAttemptOutcome}
    {transition : WorkerTransition} {error : Option String} {answer : UpdateAnswer}
    (h : Attempting start policy workerId before s) (hworker : latestOf workerId s.1 = worker)
    (hid : transition.workerId = workerId)
    (heffect : AttemptEffect worker attempt transition.payload error)
    (hupdates : Updates (RunMutation.applyTransitions [transition]).apply s.1 answer stored)
    (hwritten : answer.written = true) :
    (policy = .failFast ∧ error.isSome = true) ∨
      before + 1 + (latestOf workerId stored).allowance ≤
        limit start policy workerId.value (s.2 ++ [⟨(), ⟨.recording workerId.value,
          .updateRun (.applyTransitions [transition])⟩, answer⟩]) := by
  have hleft := h.left
  have hafter : latestOf workerId stored = worker.reduce transition := by
    rw [← hworker]
    exact latestOf_of_written heffect.ne_snapshotApplied hid hupdates hwritten
  have hallowance := WorkerRecord.allowance_reduce_of_attemptEffect heffect
  rw [hafter, limit_append]
  rw [hworker] at hleft
  cases hspared : transition.payload.timesOutExecutable with
  | false =>
    rw [hspared, Bool.toNat_false] at hallowance
    exact .inr (by omega)
  | true =>
    rw [hspared, Bool.toNat_true] at hallowance
    cases policy with
    | failFast =>
      refine .inl ⟨rfl, ?_⟩
      generalize transition.payload = payload at heffect hspared
      cases heffect with
      | timeout => rfl
      | _ => cases hspared
    | «continue» =>
      have hcounted : (sparedFor .continue ⟨.recording workerId.value,
          .updateRun (.applyTransitions [transition])⟩ == some workerId.value).toNat = 1 := by
        simp [sparedFor, timedOutFor, hspared, hid]
      exact .inr (by omega)

/-- Its own attempt records one outcome. -/
lemma safe_record_self {before : Nat} (hs : Attempting start policy worker.id before s) :
    (aloneContract cond (Attempted start policy worker.id before)).Safe
      (fun outcome s => Attempted start policy worker.id before s ∧
        times recordedFor worker.id.value s.2 = before + 1 ∧
        ((policy = .failFast ∧ outcome.error.isSome = true) ∨
          before + 1 + (latestOf worker.id s.1).allowance ≤ limit start policy worker.id.value s.2))
      (fun _ s => Attempted start policy worker.id before s)
      (Execution.execute run worker prompt strategy agent model cleanupRequested) s := by
  refine Execution.safe_execute_of (J := Attempting start policy worker.id before)
    (E := Attempted start policy worker.id before)
    (K := fun error _ s => Attempted start policy worker.id before s ∧
      times recordedFor worker.id.value s.2 = before + 1 ∧
      ((policy = .failFast ∧ error.isSome = true) ∨
        before + 1 + (latestOf worker.id s.1).allowance ≤ limit start policy worker.id.value s.2))
    (fun _ h => h.attempted) (fun call s answer stored hcall hs hanswer _ => ?_)
    (fun _ h => h.attempted) (fun s now hs => ?_)
    (fun s worker' attempt transition error answer stored hs hhand hid heffect hupdates _ => ?_)
    (fun _ h => h) hs rfl
  · exact hs.append (recordedFor_of_opens hcall) (attemptsLeft_of_opens hcall hanswer)
  · have hrecorded : recordedFor ⟨.recording worker.id.value, .now⟩ ≠ some worker.id.value :=
      fun h => by cases h
    exact hs.append hrecorded rfl
  · have hcounted : recordedFor ⟨.recording worker.id.value,
        .updateRun (.applyTransitions [transition])⟩ = some worker.id.value := by
      rw [recordedFor, hid]
    have hrecorded : times recordedFor worker.id.value (s.2 ++ [⟨(), ⟨.recording worker.id.value,
        .updateRun (.applyTransitions [transition])⟩, answer⟩]) = before + 1 := by
      rw [times_append_of_eq hcounted, hs.recorded]
    have hattempted : Attempted start policy worker.id before (stored, s.2 ++ [⟨(),
        ⟨.recording worker.id.value, .updateRun (.applyTransitions [transition])⟩, answer⟩]) :=
      ⟨hrecorded.le, hs.attempted.limit.trans limit_le_append⟩
    refine ⟨hattempted, fun now seen saved hanswer => ⟨hattempted, hrecorded, ?_⟩⟩
    exact hs.recorded_outcome hhand.latest hid heffect hupdates (by rw [hanswer]; rfl)

/-- Its own attempt sends at most one prompt and records its outcome. -/
lemma safe_execute_self (hs : Covered start policy worker.id s)
    (hstored : latestOf worker.id s.1 = worker) (hexec : worker.isExecutable = true) :
    (aloneContract cond (Bounded start policy worker.id)).Safe
      (fun outcome s => Bounded start policy worker.id s ∧
        ((policy = .failFast ∧ outcome.error.isSome = true) ∨ Covered start policy worker.id s))
      (fun _ s => Bounded start policy worker.id s)
      (Execution.execute run worker prompt strategy agent model cleanupRequested) s := by
  have hopen : Attempting start policy worker.id (times recordedFor worker.id.value s.2) s := by
    have hrecorded := hs.recorded
    rw [hstored, WorkerRecord.allowance_of_isExecutable hexec] at hrecorded
    exact ⟨rfl, by rwa [hstored]⟩
  have hkind : ∀ call, Execution.Unprompted call → (sentTo call == some worker.id.value) = false := by
    intro call h
    rw [sentTo, show call.request.prompt? = none from h]
    rfl
  have hsent : times sentTo worker.id.value s.2 + 1 ≤
      times recordedFor worker.id.value s.2 + 1 := Nat.succ_le_succ hs.sent
  have hbounded : ∀ s', Attempted start policy worker.id (times recordedFor worker.id.value s.2) s' →
      times sentTo worker.id.value s'.2 ≤ times recordedFor worker.id.value s.2 + 1 →
        Bounded start policy worker.id s' :=
    fun s' hattempted hsent => ⟨hsent.trans hattempted.limit,
      hattempted.recorded.trans hattempted.limit⟩
  refine ((safe_record_self hopen).both (Contract.safe_atMost (Execution.atMost_execute hkind)
    hsent) hbounded).mono (fun outcome s' h => ?_) fun _ s' h => hbounded s' h.1 h.2
  obtain ⟨⟨hattempted, hrecorded, hend⟩, hsent⟩ := h
  refine ⟨hbounded s' hattempted hsent, hend.imp id fun hcovered => ⟨?_, ?_⟩⟩
  · rw [hrecorded]
    exact hsent
  · rwa [hrecorded]

/-- An attempt of an executable worker of the stored run, for the account of any worker. -/
lemma safe_execute (hs : Covered start policy workerId s) (hrun : s.1 = some run)
    (hget : run.workers.get? worker.id.value = some worker) (hexec : worker.isExecutable = true) :
    (aloneContract cond (Bounded start policy workerId)).Safe
      (fun outcome s => Bounded start policy workerId s ∧
        ((policy = .failFast ∧ outcome.error.isSome = true) ∨ Covered start policy workerId s))
      (fun _ s => Bounded start policy workerId s)
      (Execution.execute run worker prompt strategy agent model cleanupRequested) s := by
  by_cases hsame : workerId = worker.id
  · subst hsame
    refine safe_execute_self hs ?_ hexec
    rw [hrun]
    exact Run.latestWorker_of_get? hget
  · exact (safe_execute_other hs hsame).mono (fun _ _ h => ⟨h.bounded, .inr h⟩)
      fun _ _ h => h.bounded

end

/-! ## The loop -/

/-- The run has at most so many spared time-outs, also after a request. -/
def SparesAtMost (policy : ExecutionPolicy) (bound : Nat) (s : StartRecord) (call : Call) : Prop :=
  total (sparedFor policy) s.2 + (sparedFor policy call).isSome.toNat ≤ bound

/-- What holds between two attempts. -/
structure Idle (start : Run) (policy : ExecutionPolicy) (bound : Nat) (s : StartRecord) : Prop where
  covered : ∀ workerId, Covered start policy workerId s
  spared : total (sparedFor policy) s.2 ≤ bound

variable {bound : Nat}

lemma SparesAtMost.append (h : SparesAtMost policy bound s call) :
    total (sparedFor policy) (s.2 ++ [⟨(), call, answer⟩]) ≤ bound := by
  rw [total_append]
  exact h

theorem loopRule (start : Run) (policy : ExecutionPolicy) (bound : Nat) :
    LoopRule (SparesAtMost policy bound) (fun s => ∀ workerId, Bounded start policy workerId s)
      (fun s => ∀ workerId, Bounded start policy workerId s) (Idle start policy bound) policy where
  holds_of_ends _ h := h
  ends_of_idle _ h workerId := (h.covered workerId).bounded
  quiet stage call s answer stored hstage hcall hs _ _ workerId :=
    (hs workerId).of_quiet hcall.toQuiet hstage
  deciding call s answer stored hcall _ hs hanswer hcond :=
    ⟨fun workerId => (hs.covered workerId).of_plain hcall.toPlain (by decide) hanswer, hcond.append⟩
  attempt s run worker prompt strategy agent model cleanupRequested hs hrun hget hexec := by
    have hstored : (aloneContract (SparesAtMost policy bound) fun _ => True).Safe
        (fun outcome s => total (sparedFor policy) s.2 ≤ bound ∧ s.1 = some outcome.run)
        (fun _ s => total (sparedFor policy) s.2 ≤ bound)
        (Execution.execute run worker prompt strategy agent model cleanupRequested) s :=
      Execution.safe_execute_keeping (fun _ _ => trivial)
        (fun _ _ _ _ _ _ _ hcond => hcond.append) (fun _ _ _ _ _ _ _ hcond => hcond.append) hs.spared
    refine ((Contract.safe_forall fun workerId => safe_execute (hs.covered workerId) hrun hget
      hexec).both hstored fun _ h _ => h).mono (fun outcome s' h => ?_) fun _ _ h => h.1
    obtain ⟨haccounts, hspared, hrun'⟩ := h
    refine ⟨fun workerId => (haccounts workerId).1, hrun', ?_⟩
    by_cases hstop : policy = .failFast ∧ outcome.error.isSome = true
    · exact .inl hstop
    · exact .inr (.inl ⟨fun workerId => (haccounts workerId).2.resolve_left hstop, hspared⟩)

lemma idle_nil (run : Run) (policy : ExecutionPolicy) (bound : Nat) :
    Idle run policy bound (some run, []) where
  covered workerId :=
    { sent := le_rfl
      recorded := by
        show 0 + (run.latestWorker workerId).allowance ≤ run.allowance workerId.value + 0
        rw [Run.allowance_latestWorker, Nat.add_comm] }
  spared := Nat.zero_le _

lemma bounded_nil (run : Run) (policy : ExecutionPolicy) (workerId : WorkerId) :
    Bounded run policy workerId (some run, []) :=
  ((idle_nil run policy 0).covered workerId).bounded

section

variable {strategy : BlockingStrategy} {selected firstError : Option String}
  {created : Option CreatedSessions} {rounds : Nat}

/-- The loop, from a run of which an executable worker is selected, or none. -/
lemma safe_loop (hselected : LoopRule.SelectsExecutable run selected) :
    (aloneContract (SparesAtMost policy bound) fun s => ∀ workerId, Bounded run policy workerId s).Safe
      (fun _ s => ∀ workerId, Bounded run policy workerId s)
      (fun _ s => ∀ workerId, Bounded run policy workerId s)
      (Flow.executeSerialWorkers policy strategy rounds run selected created firstError)
      (some run, []) := by
  cases selected with
  | none =>
    rw [Flow.executeSerialWorkers]
    exact bounded_nil run policy
  | some id =>
    have hnone : some id = none → run.IsRefreshed := fun h => by cases h
    exact ((loopRule run policy bound).safe_executeSerialWorkers (bounded_nil run policy) rfl hnone
      (.inr ⟨idle_nil run policy bound, hselected⟩)).mono (fun _ _ h => h.1) fun _ _ h => h

/-- A run of the loop meets the bound that its spared time-outs make. -/
lemma runs_within {c : Config storeInterface PyError
      (Option CreatedSessions × Except PyError (Run × Option String × Option String)) Unit
      (Option Run)} {program : Unit → Command (Option CreatedSessions ×
        Except PyError (Run × Option String × Option String))} {before : Option Run}
    (hrun : Runs (Config.Fires (storeSurroundings Unit)) ⟨before, program⟩ events c) :
    Runs (fun c e c' => Config.Fires (storeSurroundings Unit).recording c e c' ∧
        SparesAtMost policy (total (sparedFor policy) events) c.state e.op)
      ⟨(before, []), program⟩ events (c.record events) := by
  refine (Config.runs_recording_prefix hrun).mono fun c e c' h => ⟨h.1, ?_⟩
  obtain ⟨rest, hrest⟩ := h.2
  have hcount : total (sparedFor policy) (c.state.2 ++ [e]) ≤ total (sparedFor policy) events := by
    rw [← hrest]
    exact (List.sublist_append_left _ rest).countP_le
  obtain ⟨thread, call, answer⟩ := e
  rwa [total_append] at hcount

/-- In every run of the loop each worker is sent its prompt, and has an outcome recorded, at most as
often as it has attempts, and under the policy that goes on once more for each time-out that left it
executable. -/
theorem sent_le_of_runs (policy : ExecutionPolicy) (strategy : BlockingStrategy) (rounds : Nat)
    (run : Run) (selected firstError : Option String) (created : Option CreatedSessions)
    (hselected : LoopRule.SelectsExecutable run selected)
    {c : Config storeInterface PyError
      (Option CreatedSessions × Except PyError (Run × Option String × Option String)) Unit
      (Option Run)}
    (hrun : Runs (Config.Fires (storeSurroundings Unit)) ⟨some run, fun _ =>
      Flow.executeSerialWorkers policy strategy rounds run selected created firstError⟩ events c)
    (workerId : WorkerId) :
    times sentTo workerId.value events ≤ run.allowance workerId.value +
        times (sparedFor policy) workerId.value events ∧
      times recordedFor workerId.value events ≤ run.allowance workerId.value +
        times (sparedFor policy) workerId.value events := by
  have hbounded := Contract.holds_of_alone (safe_loop hselected) (bounded_nil run policy)
    (runs_within hrun) workerId
  exact ⟨hbounded.sent, hbounded.recorded⟩

/-- A worker that may be retried once, after a failure of one category. -/
def retriedWorker (category : String) : WorkerRecord where
  id := ⟨"a", WorkerId.nonempty_a⟩
  sessionId := some "ses_1"
  prompt := some "work"
  retryLimit := 1
  retryableFailures := [category]

/-- Its run. -/
def retriedRun (category : String) : Run :=
  { Run.new "demo" "/" "" with workers := WorkerMap.empty.set (retriedWorker category) }

/-- A server on which every prompt fails. -/
def failingServer (error : PyError) : ScriptedServer where
  createdSession := "ses"
  execute _ := .error error
  readable _ := true
  sessionNonempty := ScriptedServer.nonempty_ses

lemma selectsExecutable_retriedRun (category : String) :
    LoopRule.SelectsExecutable (retriedRun category) (some "a") := by
  rintro id ⟨⟩
  exact ⟨retriedWorker category, rfl, rfl⟩

/-- A loop that goes on sends the prompt of a worker that times out more often than the worker has
attempts. -/
theorem sent_timedOutRun :
    (retriedRun "timeout").allowance "a" = 2 ∧
    ∃ events, ∃ c : Config storeInterface PyError
        (Option CreatedSessions × Except PyError (Run × Option String × Option String)) Unit
        (Option Run),
      Runs (Config.Fires (storeSurroundings Unit)) ⟨some (retriedRun "timeout"), fun _ =>
        Flow.executeSerialWorkers .continue .legacyRunReply 3 (retriedRun "timeout") (some "a") none
          none⟩ events c ∧
      times sentTo "a" events = 3 ∧ 3 ≤ 2 + times (sparedFor .continue) "a" events := by
  refine ⟨by decide, ?_⟩
  have hplay : ((Config.record ⟨some (retriedRun "timeout"), fun _ => Flow.executeSerialWorkers
      .continue .legacyRunReply 3 (retriedRun "timeout") (some "a") none none⟩ []).play
        ((failingServer (.openCodeApiTimeout "slow")).turns (fun _ _ => true) 26)).map
      (fun result => times sentTo "a" result.1) = some 3 := by
    decide +kernel
  obtain ⟨⟨events, c⟩, hplayed, hsent⟩ := Option.map_eq_some_iff.1 hplay
  have hrun := (Config.runs_forget (I := storeInterface) (fun _ _ => True)
    (ScriptedServer.runs_of_play (fun _ _ _ => trivial) hplayed)).mono fun _ _ _ h => h.1
  have hbound := (sent_le_of_runs .continue .legacyRunReply 3 (retriedRun "timeout") (some "a") none
    none (selectsExecutable_retriedRun "timeout") hrun (retriedWorker "timeout").id).1
  have hallowance : (retriedRun "timeout").allowance "a" = 2 := by decide
  have hbounded : times sentTo "a" events ≤ 2 + times (sparedFor .continue) "a" events :=
    hallowance ▸ hbound
  have hthree : times sentTo "a" events = 3 := hsent
  exact ⟨events, c.forget, hrun, hthree, hthree ▸ hbounded⟩

/-! ## The rounds of the loop -/

/-- The requests that name a worker, summed over some workers. -/
lemma sum_times_le (of : Call → Option String) (events : List (Event storeInterface Unit))
    (ids : Finset String) : ∑ id ∈ ids, times of id events ≤ total of events := by
  induction events using List.reverseRecOn with
  | nil => exact (Finset.sum_eq_zero fun _ _ => rfl).le
  | append_singleton events e ih =>
    obtain ⟨⟨⟩, call, answer⟩ := e
    have hone : ∑ id ∈ ids, (of call == some id).toNat ≤ (of call).isSome.toNat := by
      cases hof : of call with
      | none => exact (Finset.sum_eq_zero fun _ _ => rfl).le
      | some named =>
        have hite : ∀ id, (some named == some id).toNat = if named = id then 1 else 0 := by
          intro id
          by_cases hid : named = id <;> simp [hid]
        simp only [hite, Finset.sum_ite_eq, Option.isSome_some, Bool.toNat_true]
        split_ifs <;> omega
    simp only [times_append, total_append, Finset.sum_add_distrib]
    omega

/-- Summed over all the workers that are named, they are all of them. -/
lemma total_le_sum_times {of : Call → Option String} {ids : Finset String}
    (h : ∀ e ∈ events, ∀ id, of (Event.op e) = some id → id ∈ ids) :
    total of events ≤ ∑ id ∈ ids, times of id events := by
  induction events using List.reverseRecOn with
  | nil => exact Nat.zero_le _
  | append_singleton events e ih =>
    obtain ⟨⟨⟩, call, answer⟩ := e
    have hbefore := ih fun e he => h e (List.mem_append_left _ he)
    have hone : (of call).isSome.toNat ≤ ∑ id ∈ ids, (of call == some id).toNat := by
      cases hof : of call with
      | none => exact Nat.zero_le _
      | some named =>
        have hmem : named ∈ ids := h ⟨(), call, answer⟩ (by simp) named hof
        refine le_trans ?_ (Finset.single_le_sum (fun id _ => Nat.zero_le _) hmem)
        simp
    simp only [times_append, total_append, Finset.sum_add_distrib]
    omega

/-- The workers outside of a run have no allowance. -/
lemma sum_allowance_le (run : Run) (ids : Finset String) :
    ∑ id ∈ ids, run.allowance id ≤ run.totalAllowance := by
  have hnodup : run.workers.ids.Nodup := Dict.keys_nodup _
  have hnone : ∀ id, id ∉ run.workers.ids.toFinset → run.allowance id = 0 := by
    intro id hid
    cases hget : run.workers.get? id with
    | none => rw [Run.allowance, hget]; rfl
    | some worker =>
      exact absurd (List.mem_toFinset.2 (WorkerMap.mem_ids_iff.2 ⟨worker, hget⟩)) hid
  have hsub : ∑ id ∈ ids, run.allowance id ≤
      ∑ id ∈ ids ∪ run.workers.ids.toFinset, run.allowance id :=
    Finset.sum_le_sum_of_subset Finset.subset_union_left
  refine hsub.trans (le_of_eq ?_)
  rw [Run.totalAllowance, ← List.sum_toFinset _ hnodup]
  exact (Finset.sum_subset Finset.subset_union_right fun id _ hid => hnone id hid).symm

/-- While a worker can be executed, fewer outcomes are recorded than there may be. -/
lemma Idle.recorded_lt {start : Run} {worker : WorkerRecord} (h : Idle start policy bound s)
    (hrun : s.1 = some run) (hget : run.workers.get? worker.id.value = some worker)
    (hexec : worker.isExecutable = true) :
    total recordedFor s.2 + 1 ≤ start.totalAllowance + bound := by
  let named : Finset String := (s.2.filterMap fun e => recordedFor e.op).toFinset
  let ids : Finset String := insert worker.id.value named
  have hone : ∀ id ∈ ids, times recordedFor id s.2 + (if worker.id.value = id then 1 else 0) ≤
      start.allowance id + times (sparedFor policy) id s.2 := by
    intro id hid
    have hworkerId : ∃ workerId : WorkerId, workerId.value = id := by
      rcases Finset.mem_insert.1 hid with rfl | hnamed
      · exact ⟨_, rfl⟩
      · obtain ⟨e, -, he⟩ := List.mem_filterMap.1 (List.mem_toFinset.1 hnamed)
        unfold recordedFor at he
        split at he
        · exact ⟨_, Option.some.inj he⟩
        · cases he
    obtain ⟨workerId, rfl⟩ := hworkerId
    have hrecorded := (h.covered workerId).recorded
    unfold limit at hrecorded
    split_ifs with hsame
    · have hlatest : latestOf workerId s.1 = worker := by
        rw [hrun]
        exact Run.latestWorker_of_get? (hsame ▸ hget)
      rw [hlatest, WorkerRecord.allowance_of_isExecutable hexec] at hrecorded
      have hpos := worker.attemptsLeft_pos
      omega
    · omega
  have hsum := Finset.sum_le_sum hone
  rw [Finset.sum_add_distrib, Finset.sum_add_distrib, Finset.sum_ite_eq,
    if_pos (Finset.mem_insert_self _ _)] at hsum
  have hnamed : ∀ e ∈ s.2, ∀ id, recordedFor (Event.op e) = some id → id ∈ ids := fun e he id hid =>
    Finset.mem_insert_of_mem (List.mem_toFinset.2 (List.mem_filterMap.2 ⟨e, he, hid⟩))
  have htotal := total_le_sum_times hnamed
  have hallowance := sum_allowance_le start ids
  have hspared := (sum_times_le (sparedFor policy) s.2 ids).trans h.spared
  omega

/-- A round of the loop that does not raise has an outcome recorded. -/
lemma safe_counted_round {cond : StartRecord → Call → Prop} {worker : WorkerRecord} {id : String}
    (hget : run.workers.get? id = some worker) :
    (aloneContract cond fun _ => True).Safe (fun result s' => ∀ ended, result.2 = .ok ended →
        total recordedFor s.2 + 1 ≤ total recordedFor s'.2) (fun _ _ => True)
      (Flow.round strategy run id created) s := by
  have hexecute : (Flow.executeSelectedWorker strategy run id created).AtLeast
      (fun call => (recordedFor call).isSome) 1 := by
    unfold Flow.executeSelectedWorker
    rw [hget]
    exact (Execution.atLeast_execute fun _ _ => rfl).seq _
  unfold Flow.round
  refine Contract.safe_bind_iff.2 (Contract.safe_attempt_iff.2 ((Contract.safe_atLeast hexecute
    (le_refl (total recordedFor s.2 + 1))).mono (fun executed s' hs => ?_) fun error s' _ => ?_))
  · have hplan : (Flow.plan executed.1).AtLeast (fun call => (recordedFor call).isSome) 0 :=
      Process.atLeast_zero _
    refine Contract.safe_bind_iff.2 (Contract.safe_attempt_iff.2 ((Contract.safe_atLeast hplan
      (le_of_le_of_eq hs (Nat.add_zero _).symm)).mono (fun planned s'' hs' => ?_) fun error s'' _ => ?_))
    · exact fun _ _ => hs'
    · exact fun ended h => by cases h
  · exact fun ended h => by cases h

/-- The loop is not cut where its bound on the rounds covers the outcomes that are still to come, by
induction on the bound. -/
lemma uncut_loop {start : Run} (hidle : Idle start policy bound s) (hrun : s.1 = some run)
    (hselected : LoopRule.SelectsExecutable run selected)
    (hrounds : start.totalAllowance + bound ≤ total recordedFor s.2 + rounds) :
    (aloneContract (SparesAtMost policy bound) fun s =>
      ∀ workerId, Bounded start policy workerId s).uncut.Safe (fun _ _ => True) (fun _ _ => True)
      (Flow.executeSerialWorkers policy strategy rounds run selected created firstError) s := by
  induction rounds generalizing run s selected created firstError with
  | zero =>
    cases selected with
    | none => trivial
    | some id =>
      obtain ⟨worker, hget, hexec⟩ := hselected id rfl
      obtain rfl : worker.id.value = id := WorkerMap.id_of_get? hget
      have hlt := hidle.recorded_lt hrun hget hexec
      omega
  | succ rounds ih =>
    cases selected with
    | none => trivial
    | some id =>
      obtain ⟨worker, hget, hexec⟩ := hselected id rfl
      unfold Flow.executeSerialWorkers
      refine ((((loopRule start policy bound).safe_round hidle hrun hselected).both
        (safe_counted_round hget) fun _ h _ => h).uncut (Flow.uncut_round run)).bind
        (fun result s' hs => ?_) fun _ _ _ => trivial
      obtain ⟨created', error | ⟨run', step, workerError⟩⟩ := result
      · trivial
      · obtain ⟨⟨-, hrun', -, hend⟩, hcounted⟩ := hs
        have hmore := hcounted _ rfl
        dsimp only
        split_ifs with hstop
        · trivial
        · rcases hend with herror | ⟨hidle', hselected'⟩ | hnone
          · exact absurd herror hstop
          · exact ih hidle' hrun' hselected' (by omega)
          · rw [hnone]
            cases rounds <;> trivial

/-- The loop ends by itself: if its bound is at least the attempts of all workers, and under the
policy that goes on the time-outs that left a worker executable, it is not what stops the loop. -/
theorem ne_cut_of_runs (policy : ExecutionPolicy) (strategy : BlockingStrategy) (rounds : Nat)
    (run : Run) (selected firstError : Option String) (created : Option CreatedSessions)
    (hselected : LoopRule.SelectsExecutable run selected)
    {c : Config storeInterface PyError
      (Option CreatedSessions × Except PyError (Run × Option String × Option String)) Unit
      (Option Run)}
    (hrun : Runs (Config.Fires (storeSurroundings Unit)) ⟨some run, fun _ =>
      Flow.executeSerialWorkers policy strategy rounds run selected created firstError⟩ events c)
    (hrounds : run.totalAllowance + total (sparedFor policy) events ≤ rounds) :
    c.program () ≠ .cut := by
  have hcovered : run.totalAllowance + total (sparedFor policy) events ≤ 0 + rounds := by omega
  exact Contract.ne_cut_of_alone (uncut_loop (idle_nil run policy (total (sparedFor policy) events))
    rfl hselected hcovered) (runs_within hrun)

/-- A loop whose worker fails in both of its attempts ends in the second round. -/
theorem ne_cut_failedRun :
    ∃ events, ∃ c : Config storeInterface PyError
        (Option CreatedSessions × Except PyError (Run × Option String × Option String)) Unit
        (Option Run),
      Runs (Config.Fires (storeSurroundings Unit)) ⟨some (retriedRun "api"), fun _ =>
        Flow.executeSerialWorkers .continue .legacyRunReply 2 (retriedRun "api") (some "a") none
          none⟩ events c ∧
      times sentTo "a" events = 2 ∧ c.program () ≠ .cut := by
  have hplay : ((Config.record ⟨some (retriedRun "api"), fun _ => Flow.executeSerialWorkers
      .continue .legacyRunReply 2 (retriedRun "api") (some "a") none none⟩ []).play
        ((failingServer (.openCodeApi "failed" none "POST" "/")).turns (fun _ _ => true) 16)).map
      (fun result => (times sentTo "a" result.1, total (sparedFor .continue) result.1)) =
        some (2, 0) := by
    decide +kernel
  obtain ⟨⟨events, c⟩, hplayed, hcounts⟩ := Option.map_eq_some_iff.1 hplay
  obtain ⟨hsent, hspared⟩ := Prod.mk.inj hcounts
  have hrun := (Config.runs_forget (I := storeInterface) (fun _ _ => True)
    (ScriptedServer.runs_of_play (fun _ _ _ => trivial) hplayed)).mono fun _ _ _ h => h.1
  have htotal : (retriedRun "api").totalAllowance = 2 := by decide
  have hrounds : (retriedRun "api").totalAllowance + total (sparedFor .continue) events ≤ 2 := by
    rw [htotal, show total (sparedFor .continue) events = 0 from hspared]
  exact ⟨events, c.forget, hrun, hsent, ne_cut_of_runs .continue .legacyRunReply 2 (retriedRun "api")
    (some "a") none none (selectsExecutable_retriedRun "api") hrun hrounds⟩

end

end PromptBudget

end OpencodeSession
