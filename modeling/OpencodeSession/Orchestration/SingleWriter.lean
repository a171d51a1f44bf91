import OpencodeSession.Framework.Alone
import OpencodeSession.Orchestration.Requests

/-!
# A command as the only writer

The rules for a command that works on its run alone: an update is given the record that was stored,
and what was saved is stored after it; every other request but the creation of the run leaves the
record as it is.

A start can be played against a server that answers by functions.
-/

namespace OpencodeSession

/-- A stored record, if there is one, with the events that led to it. -/
abbrev StartRecord : Type := Option Run × List (Event storeInterface Unit)

/-! ## Requests -/

/-- Only an update changes a record, and only the creation of the run makes one. -/
lemma Request.Responds.stored_eq {request : Request} {stored stored' : Option Run}
    {answer : request.Answer} (h : request.Responds stored answer stored')
    (hrequest : request.mutation? = none) :
    stored' = stored ∨
      stored = none ∧ ∃ name directory serverUrl,
        stored' = some (Run.new name directory serverUrl).normalize := by
  cases request with
  | updateRun mutation => cases hrequest
  | createRun name directory serverUrl =>
    cases answer with
    | ok run =>
      obtain ⟨hnone, rfl, hstored⟩ := h
      exact .inr ⟨hnone, _, _, _, hstored⟩
    | error error =>
      rcases h.2 with hsame | ⟨hnone, hstored⟩
      · exact .inl hsame
      · exact .inr ⟨hnone, _, _, _, hstored⟩
  | now | requireTime => exact .inl h
  | _ => exact .inl h.1

/-! ## What updates do to a worker that is to be executed -/

/-- A state in which a worker may still be executed: one that the planner executes, or an attempt
that recovery may time out. -/
def LifecycleState.pending (state : LifecycleState) : Bool := state.executable || state = .activeWait

lemma WorkerRecord.acceptedAbort_of_pending {worker : WorkerRecord}
    (h : worker.lifecycleState.pending = true) : worker.acceptedAbort = false := by
  rw [Bool.eq_false_iff, ne_eq, WorkerRecord.acceptedAbort_iff]
  rintro ⟨-, hstatus⟩
  revert h hstatus
  cases worker.lifecycleState <;> decide

namespace TransitionPayload

variable {payload : TransitionPayload} {allowed : String → Prop}

lemma ne_snapshotApplied_of_settles (h : payload.settles = true) (patch : SnapshotPatch) :
    payload ≠ .snapshotApplied patch := by
  rintro rfl
  cases h

lemma ne_snapshotApplied_of_opens (h : payload.Opens allowed) (patch : SnapshotPatch) :
    payload ≠ .snapshotApplied patch := by
  rintro rfl
  cases h

/-- A settling transition starts from a pending state, unless it is about the cleanup record. -/
lemma pending_of_sourceStates (h : payload.settles = true)
    (hpayload : ∀ cleanup, payload ≠ .cleanupUpdated cleanup) {state : LifecycleState}
    (hstate : state ∈ payload.sourceStates) : state.pending = true := by
  have hpending : ∀ state ∈ [LifecycleState.queued, .activeWait, .activeRetry, .failedRetry,
      .timeoutRetry, .timeoutFailedRetry], state.pending = true := by decide
  refine hpending state ?_
  revert h hpayload hstate
  cases payload with
  | cleanupUpdated cleanup => exact fun _ hpayload => absurd rfl (hpayload cleanup)
  | attemptStarted | failed | dependencyBlocked | retryScheduled | timedOut | resultApplied =>
    simp only [sourceStates, specSourceStates, List.mem_cons, List.not_mem_nil, or_false]
    tauto
  | _ =>
    intro h
    cases h

end TransitionPayload

namespace WorkerRecord

variable {latest : WorkerRecord} {transition : WorkerTransition} {allowed : String → Prop}

/-- A settling transition keeps the session, and leaves a worker pending only if it was. -/
lemma reduce_of_settles (h : transition.payload.settles = true)
    (hlegal : latest.transitionIsLegal transition = true) :
    (latest.reduce transition).sessionId = latest.sessionId ∧
      ((latest.reduce transition).lifecycleState.pending = true →
        latest.lifecycleState.pending = true) := by
  have hsnapshot := TransitionPayload.ne_snapshotApplied_of_settles h
  refine ⟨sessionId_reduce hsnapshot ?_, fun hpending => ?_⟩
  · intro sessionId agent model hpayload
    rw [hpayload] at h
    cases h
  · by_cases hcleanup : ∃ cleanup, transition.payload = .cleanupUpdated cleanup
    · obtain ⟨cleanup, hpayload⟩ := hcleanup
      rw [apply_reduce lifecycleState (fun _ => rfl) hsnapshot, lifecycleState_reducePayload,
        hpayload, TransitionPayload.leaves, TransitionPayload.targetState, Option.getD_none,
        ite_self] at hpending
      · exact hpending
      · intro _ h
        cases h
    · cases haborted : latest.acceptedAbort with
      | true =>
        have hkeeps : acceptedAbortKeepsReduced transition.payload = false := by
          revert h hcleanup
          cases transition.payload with
          | cleanupUpdated cleanup => exact fun _ hcleanup => absurd ⟨cleanup, rfl⟩ hcleanup
          | aborted | snapshotApplied =>
            intro h
            cases h
          | _ => exact fun _ _ => rfl
        rw [apply_reduce lifecycleState (fun _ => rfl) hsnapshot, haborted, hkeeps] at hpending
        exact hpending
      | false =>
        have hsource : latest.lifecycleState ∈ transition.payload.sourceStates := by
          simpa [transitionIsLegal, acceptedAbortApplies, haborted] using hlegal
        exact TransitionPayload.pending_of_sourceStates h
          (fun cleanup hpayload => hcleanup ⟨cleanup, hpayload⟩) hsource

/-- A transition that opens an attempt keeps a worker pending, and gives it an allowed session if it
gives it one. -/
lemma reduce_of_opens (h : transition.payload.Opens allowed)
    (hpending : latest.lifecycleState.pending = true) :
    (latest.reduce transition).lifecycleState.pending = true ∧
      ∀ sessionId, (latest.reduce transition).sessionId = some sessionId →
        latest.sessionId = some sessionId ∨ allowed sessionId := by
  have hsnapshot := TransitionPayload.ne_snapshotApplied_of_opens h
  have haborted := acceptedAbort_of_pending hpending
  rw [lifecycleState_reduce hsnapshot haborted,
    apply_reduce sessionId (fun _ => rfl) hsnapshot, haborted, Bool.false_and,
    if_neg Bool.false_ne_true]
  revert h
  cases transition.payload with
  | provisioned provided agent model =>
    intro h
    refine ⟨hpending, fun sessionId hsession => ?_⟩
    have hset : (if isSet provided && !isSet latest.sessionId then provided
        else latest.sessionId) = some sessionId := hsession
    split_ifs at hset
    · exact .inr (h sessionId hset)
    · exact .inl hset
  | active startedAt clear => exact fun _ => ⟨rfl, fun sessionId hsession => .inl hsession⟩
  | attemptStarted attempt =>
    intro _
    refine ⟨hpending, fun sessionId hsession => .inl ?_⟩
    rwa [sessionId_reducePayload (by simp) (by simp)] at hsession
  | _ => exact fun h => h.elim

lemma status_reduce_of_plain (h : transition.Plain) (hstatus : latest.status ≠ .done) :
    (latest.reduce transition).status ≠ .done := by
  have hsnapshot := TransitionPayload.ne_snapshotApplied_of_settles h.settles
  cases haborted : latest.acceptedAbort with
  | true =>
    have hafter := (acceptedAbort_iff.1 (acceptedAbort_reduce hsnapshot haborted)).2
    rw [status, hafter]
    decide
  | false =>
    rw [status, lifecycleState_reduce hsnapshot haborted]
    have hplain := h.payload
    revert hplain
    cases transition.payload with
    | failed category reason retryable retryAvailable startedAt ids =>
      intro _
      rw [TransitionPayload.leaves_eq_of_targetState (by simp) rfl, workerFailedLifecycleState_eq]
      split_ifs <;> decide
    | dependencyBlocked blockers =>
      intro _
      rw [TransitionPayload.leaves_eq_of_targetState (by simp) rfl]
      decide
    | cleanupUpdated cleanup => exact fun _ => hstatus
    | _ => exact fun hplain => by cases hplain

lemma prompt_reduce : (latest.reduce transition).prompt = latest.prompt :=
  congrArg Configuration.prompt (configuration_reduce latest transition)

lemma hasPrompt_reduce : (latest.reduce transition).hasPrompt = latest.hasPrompt := by
  rw [hasPrompt, hasPrompt, prompt_reduce]

end WorkerRecord

namespace WorkerRecord

/-- A worker once a session was created for it. -/
def withCreatedSession (worker : WorkerRecord) (sessionId : String) (cleanupRequested : Bool)
    (agent model : Option String) : WorkerRecord :=
  if cleanupRequested then
    (worker.setSession (some sessionId) agent model).rememberSessionForCleanup sessionId
  else worker.setSession (some sessionId) agent model

section

variable (worker : WorkerRecord) (created : String) (cleanupRequested : Bool)
  (agent model : Option String)

@[simp] lemma id_withCreatedSession :
    (worker.withCreatedSession created cleanupRequested agent model).id = worker.id := by
  cases cleanupRequested <;> rfl

@[simp] lemma sessionId_withCreatedSession :
    (worker.withCreatedSession created cleanupRequested agent model).sessionId = some created := by
  cases cleanupRequested <;> rfl

@[simp] lemma hasPrompt_withCreatedSession :
    (worker.withCreatedSession created cleanupRequested agent model).hasPrompt =
      worker.hasPrompt := by
  cases cleanupRequested <;> rfl

@[simp] lemma lifecycleState_withCreatedSession :
    (worker.withCreatedSession created cleanupRequested agent model).lifecycleState =
      worker.lifecycleState := by
  cases cleanupRequested <;> rfl

end

end WorkerRecord

/-- What a settling update leaves of a worker: its session and its prompt, and it is pending only if
it was before. -/
structure WorkerRecord.SettledFrom (latest worker : WorkerRecord) : Prop where
  session : worker.sessionId = latest.sessionId
  prompt : worker.hasPrompt = latest.hasPrompt
  pending : worker.lifecycleState.pending = true → latest.lifecycleState.pending = true

lemma WorkerRecord.SettledFrom.refl (worker : WorkerRecord) : worker.SettledFrom worker :=
  ⟨rfl, rfl, fun h => h⟩

/-- What the opening of an attempt leaves of its worker, if it is pending. -/
structure WorkerRecord.OpenedFrom (allowed : String → Prop) (latest worker : WorkerRecord) :
    Prop where
  session : ∀ sessionId, worker.sessionId = some sessionId →
    latest.sessionId = some sessionId ∨ allowed sessionId
  prompt : worker.hasPrompt = latest.hasPrompt
  pending : worker.lifecycleState.pending = true

namespace RunMutation

variable {mutation : RunMutation} {now : String} {run left : Run} {workerId : WorkerId}
  {allowed : String → Prop}

lemma latestWorker_of_workers_eq (h : left.workers = run.workers) (workerId : WorkerId) :
    left.latestWorker workerId = run.latestWorker workerId :=
  Run.latestWorker_congr (by rw [h])

/-- What a settling mutation does to each worker. -/
lemma Settles.settledFrom (h : mutation.Settles) (happly : mutation.apply now run = .ok left)
    (workerId : WorkerId) :
    (run.latestWorker workerId).SettledFrom (left.latestWorker workerId) := by
  have hsame : left.workers = run.workers →
      (run.latestWorker workerId).SettledFrom (left.latestWorker workerId) := by
    intro hworkers
    rw [latestWorker_of_workers_eq hworkers]
    exact .refl _
  cases h with
  | markRunActive =>
    cases happly
    exact hsame rfl
  | refreshSummary =>
    cases happly
    exact hsame rfl
  | journal hupdate => exact hsame (workers_journal hupdate happly)
  | @applyTransitions transitions hsettles =>
    obtain ⟨run', hrun', hworkers⟩ := applyTransitions_eq_ok happly
    rw [latestWorker_of_workers_eq hworkers]
    refine Run.applyTransitions_keeps
      (P := fun worker => (run.latestWorker workerId).SettledFrom worker)
      (fun t ht => TransitionPayload.ne_snapshotApplied_of_settles (hsettles t ht)) hrun' ?_
      (.refl _)
    intro t ht _ worker hlegal hworker
    obtain ⟨hsession, hpending⟩ := WorkerRecord.reduce_of_settles (hsettles t ht) hlegal
    exact ⟨hsession.trans hworker.session, WorkerRecord.hasPrompt_reduce.trans hworker.prompt,
      fun h => hworker.pending (hpending h)⟩

lemma Opens.latestWorker_of_ne (h : mutation.Opens workerId allowed)
    (happly : mutation.apply now run = .ok left) {other : WorkerId} (hne : other ≠ workerId) :
    left.latestWorker other = run.latestWorker other := by
  have hvalue : workerId.value ≠ other.value := fun heq => hne (WorkerId.ext heq.symm)
  cases h with
  | @applyTransition transition hid hopens =>
    obtain ⟨run', hrun', hworkers⟩ := applyTransitions_eq_ok happly
    rw [latestWorker_of_workers_eq hworkers]
    refine Run.latestWorker_congr (Run.get?_applyTransitions_of_notMem ?_ hrun' ?_)
    · intro t ht
      rw [List.mem_singleton.1 ht]
      exact TransitionPayload.ne_snapshotApplied_of_opens hopens
    · intro t ht
      rw [List.mem_singleton.1 ht, hid]
      exact hvalue
  | @journal field mutation hupdate =>
    cases hmutation : mutation.update with
    | none => rw [latestWorker_of_workers_eq (workers_journal hmutation happly)]
    | some update =>
      obtain ⟨updated, hupdated, hworkers⟩ := workers_journal_update hmutation happly
      rw [latestWorker_of_workers_eq hworkers]
      have hopens := hupdate update hmutation
      cases update with
      | abortWorker => cases hopens
      | createdWorkerSession workerId' sessionId cleanupRequested agent model =>
        cases hupdated
        obtain ⟨rfl, -⟩ := hopens
        refine Run.latestWorker_congr (WorkerMap.get?_set_of_ne ?_)
        have hlatest : (run.latestWorker workerId').id = workerId' := Run.id_latestWorker _ _
        split_ifs <;> exact fun heq => hvalue ((congrArg WorkerId.value hlatest).symm.trans heq)

/-- What opening an attempt does to its worker: nothing, a transition, or a created session. -/
lemma Opens.latestWorker_eq (h : mutation.Opens workerId allowed)
    (happly : mutation.apply now run = .ok left) :
    left.latestWorker workerId = run.latestWorker workerId ∨
      (∃ transition : WorkerTransition, transition.payload.Opens allowed ∧
        left.latestWorker workerId = (run.latestWorker workerId).reduce transition) ∨
      ∃ sessionId cleanupRequested agent model, allowed sessionId ∧ left.latestWorker workerId =
        (run.latestWorker workerId).withCreatedSession sessionId cleanupRequested agent model := by
  cases h with
  | @applyTransition transition hid hopens =>
    obtain ⟨run', hrun', hworkers⟩ := applyTransitions_eq_ok happly
    have hsnapshot := TransitionPayload.ne_snapshotApplied_of_opens hopens
    obtain ⟨-, hget⟩ := Run.get?_applyTransitions_of_mem (by simpa using hsnapshot) (by simp) hrun'
      (List.mem_singleton_self _)
    refine .inr (.inl ⟨transition, hopens, ?_⟩)
    rw [latestWorker_of_workers_eq hworkers, ← hid, Run.latestWorker_of_get? hget]
  | @journal field mutation hupdate =>
    cases hmutation : mutation.update with
    | none => exact .inl (latestWorker_of_workers_eq (workers_journal hmutation happly) workerId)
    | some update =>
      obtain ⟨updated, hupdated, hworkers⟩ := workers_journal_update hmutation happly
      have hopens := hupdate update hmutation
      cases update with
      | abortWorker => cases hopens
      | createdWorkerSession workerId' created cleanupRequested agent model =>
        cases hupdated
        obtain ⟨rfl, hallowed⟩ := hopens
        refine .inr (.inr ⟨created, cleanupRequested, agent, model, hallowed, ?_⟩)
        have hid := WorkerRecord.id_withCreatedSession (run.latestWorker workerId') created
          cleanupRequested agent model
        rw [Run.id_latestWorker] at hid
        rw [latestWorker_of_workers_eq hworkers]
        refine Run.latestWorker_of_get? (WorkerMap.get?_set.trans (if_pos ?_))
        exact congrArg WorkerId.value hid

/-- What opening an attempt does to its worker, if it is pending. -/
lemma Opens.openedFrom (h : mutation.Opens workerId allowed)
    (happly : mutation.apply now run = .ok left)
    (hpending : (run.latestWorker workerId).lifecycleState.pending = true) :
    (run.latestWorker workerId).OpenedFrom allowed (left.latestWorker workerId) := by
  rcases h.latestWorker_eq happly with hsame | ⟨transition, hopens, heq⟩ |
    ⟨sessionId, cleanupRequested, agent, model, hallowed, heq⟩
  · rw [hsame]
    exact ⟨fun _ h => .inl h, rfl, hpending⟩
  · obtain ⟨hpending', hsession⟩ := WorkerRecord.reduce_of_opens hopens hpending
    rw [heq]
    exact ⟨hsession, WorkerRecord.hasPrompt_reduce, hpending'⟩
  · rw [heq]
    refine ⟨fun given hgiven => .inr ?_, ?_, ?_⟩
    · rw [WorkerRecord.sessionId_withCreatedSession] at hgiven
      exact Option.some.inj hgiven ▸ hallowed
    · rw [WorkerRecord.hasPrompt_withCreatedSession]
    · rw [WorkerRecord.lifecycleState_withCreatedSession]
      exact hpending

/-- Opening an attempt leaves every prompt as it is. -/
lemma Opens.hasPrompt_latestWorker (h : mutation.Opens workerId allowed)
    (happly : mutation.apply now run = .ok left) (other : WorkerId) :
    (left.latestWorker other).hasPrompt = (run.latestWorker other).hasPrompt := by
  by_cases hother : other = workerId
  · subst hother
    rcases h.latestWorker_eq happly with hsame | ⟨transition, -, heq⟩ |
      ⟨sessionId, cleanupRequested, agent, model, -, heq⟩
    · rw [hsame]
    · rw [heq, WorkerRecord.hasPrompt_reduce]
    · rw [heq, WorkerRecord.hasPrompt_withCreatedSession]
  · rw [h.latestWorker_of_ne happly hother]

/-- A plain mutation keeps of a worker what its transitions keep. -/
lemma Plain.keeps {P : WorkerRecord → Prop} (h : mutation.Plain)
    (happly : mutation.apply now run = .ok left)
    (hkeeps : ∀ (worker : WorkerRecord) (transition : WorkerTransition), transition.Plain →
      worker.transitionIsLegal transition = true → P worker → P (worker.reduce transition))
    (hworker : P (run.latestWorker workerId)) : P (left.latestWorker workerId) := by
  cases h with
  | markRunActive | refreshSummary =>
    cases happly
    exact hworker
  | @applyTransitions transitions hplain =>
    obtain ⟨run', hrun', hworkers⟩ := applyTransitions_eq_ok happly
    rw [latestWorker_of_workers_eq hworkers]
    exact Run.applyTransitions_keeps (fun t ht =>
      TransitionPayload.ne_snapshotApplied_of_settles (hplain t ht).settles) hrun'
      (fun t ht _ worker hlegal => hkeeps worker t (hplain t ht) hlegal) hworker

end RunMutation

/-! ## Rules -/

/-- The stored worker, if there is a record, is pending. -/
def StoredPending (workerId : WorkerId) (stored : Option Run) : Prop :=
  ∀ run, stored = some run → (run.latestWorker workerId).lifecycleState.pending = true

/-- Opening the attempt of a pending worker keeps it pending. -/
lemma StoredPending.of_opens {workerId : WorkerId} {allowed : String → Prop} {call : Call}
    {stored stored' : Option Run} {answer : call.request.Answer}
    (h : StoredPending workerId stored) (hopens : call.Opens workerId allowed)
    (hanswer : call.request.Responds stored answer stored') : StoredPending workerId stored' := by
  intro run hrun
  obtain ⟨phase, request⟩ := call
  cases hmutation : request.mutation? with
  | none =>
    rcases Request.Responds.stored_eq hanswer hmutation with rfl | ⟨-, _, _, _, rfl⟩
    · exact h run hrun
    · cases hrun
      rfl
  | some mutation =>
    cases request with
    | updateRun mutation' =>
      obtain rfl := Option.some.inj hmutation
      refine Updates.keeps (P := fun run => (run.latestWorker workerId).lifecycleState.pending = true)
        hanswer (fun now run left hpending hleft => ?_) h run hrun
      have hopened := ((hopens.updates mutation' rfl).openedFrom hleft hpending).pending
      exact hopened
    | _ => cases hmutation

/-- There is a stored record, with a property. -/
def StoredRun (P : Run → Prop) (stored : Option Run) : Prop := ∃ run, stored = some run ∧ P run

/-- A property that the updates of a request keep is kept by the request. -/
lemma StoredRun.of_responds {P : Run → Prop} {call : Call} {stored stored' : Option Run}
    {answer : call.request.Answer} (h : StoredRun P stored)
    (hanswer : call.request.Responds stored answer stored')
    (hkeeps : ∀ mutation, call.request.mutation? = some mutation → ∀ now run left,
      mutation.apply now run = .ok left → P run → P left.normalize) : StoredRun P stored' := by
  obtain ⟨run, rfl, hP⟩ := h
  obtain ⟨phase, request⟩ := call
  cases hmutation : request.mutation? with
  | none =>
    rcases Request.Responds.stored_eq hanswer hmutation with rfl | ⟨hnone, -⟩
    · exact ⟨run, rfl, hP⟩
    · cases hnone
  | some mutation =>
    cases request with
    | updateRun mutation' =>
      obtain rfl := Option.some.inj hmutation
      have hupdates : Updates mutation'.apply (some run) answer stored' := hanswer
      cases hupdates with
      | committed _ hleft => exact ⟨_, rfl, hkeeps mutation' rfl _ _ _ hleft hP⟩
      | raised | failed => exact ⟨run, rfl, hP⟩
      | lost _ hleft _ => exact ⟨_, rfl, hkeeps mutation' rfl _ _ _ hleft hP⟩
    | _ => cases hmutation

namespace Command

variable {cond : StartRecord → Call → Prop} {holds : StartRecord → Prop} {s : StartRecord}
  {phase : Phase} {mutation : RunMutation}

/-- The obligation of an update. -/
lemma safe_persist_alone {post : Run → StartRecord → Prop} {err : PyError → StartRecord → Prop}
    (h : ∀ (answer : UpdateAnswer) (stored : Option Run), Updates mutation.apply s.1 answer stored →
      cond s ⟨phase, .updateRun mutation⟩ →
      holds (stored, s.2 ++ [⟨(), ⟨phase, .updateRun mutation⟩, answer⟩]) ∧
        match answer with
        | .committed _ _ saved =>
          post saved (stored, s.2 ++ [⟨(), ⟨phase, .updateRun mutation⟩, answer⟩])
        | .rejected error | .lost error =>
          err error (stored, s.2 ++ [⟨(), ⟨phase, .updateRun mutation⟩, answer⟩])) :
    (Contract.alone (storeSurroundings Unit) cond holds).Safe post err
      (persist phase mutation) s := by
  refine Contract.safe_call_alone fun answer stored hanswer hcond => ?_
  obtain ⟨hholds, hends⟩ := h answer stored hanswer hcond
  refine ⟨hholds, ?_⟩
  cases answer with
  | committed now seen saved => exact hends
  | rejected error => exact hends
  | lost error => exact hends

end Command

/-! ## Playing a start -/

/-- A reading of instants under which no text is one. -/
def Datetime.unreadable : Datetime where
  fromIsoformat _ := none

/-- A server that answers by functions: the sessions it creates, what comes of a prompt, and whether
a session can be read; with what the clock shows. -/
structure ScriptedServer where
  createdSession : String
  execute : PromptExecution → Except PyError ExecutionResult
  readable : String → Bool
  clock : String := "now"
  sessionNonempty : createdSession ≠ ""

namespace ScriptedServer

lemma nonempty_ses : "ses" ≠ "" := by decide

lemma nonempty_ses_1 : "ses_1" ≠ "" := by decide

end ScriptedServer

/-- The error of a session that is not there. -/
def sessionMissing : PyError := .openCodeApi "not found" (some 404) "GET" "/session"

/-- How a scripted server and a store that never fails answer, if the request has an answer. -/
def ScriptedServer.reply (server : ScriptedServer) (stored : Option Run) :
    (request : Request) → Option (request.Answer × Option Run)
  | .loadRun => stored.map fun run => (.ok run, stored)
  | .createRun _ _ _ => none
  | .updateRun mutation =>
    match stored with
    | none => none
    | some seen =>
      if seen.cleanupInProgress then none
      else match mutation.apply server.clock seen with
        | .ok left => some (.committed server.clock seen left.normalize, some left.normalize)
        | .error _ => none
  | .now => some (server.clock, stored)
  | .newId =>
    if stored.any fun run => [JournalField.workerSession, .remoteMutation].any fun field =>
        (RemoteMutationJournal.entriesOf (run.journal field)).any
          (RemoteMutationJournal.isEntryOf "id") then none
    else some ("id", stored)
  | .newMessageId => some ("message", stored)
  | .requireTime => some (true, stored)
  | .probe _ => some (.ok (some .legacyRunReply), stored)
  | .createSession _ => some (.ok server.createdSession, stored)
  | .executePrompt execution =>
    match server.execute execution with
    | .ok result => some (.ok result, stored)
    | .error error => if error.isWorkerTransitionError then none else some (.error error, stored)
  | .abortSession _ => none
  | .deleteSession _ => some (.ok (), stored)
  | .getSession sessionId =>
    some (if server.readable sessionId then .ok () else .error sessionMissing, stored)

/-- What a scripted server answers is possible. -/
lemma ScriptedServer.responds_of_reply {server : ScriptedServer} {stored stored' : Option Run}
    {request : Request} {answer : request.Answer}
    (h : server.reply stored request = some (answer, stored')) :
    request.Responds stored answer stored' := by
  cases request with
  | loadRun =>
    obtain ⟨run, hrun, heq⟩ := Option.map_eq_some_iff.1 h
    cases heq
    exact ⟨rfl, hrun⟩
  | createRun | abortSession => cases h
  | updateRun mutation =>
    cases stored with
    | none => cases h
    | some seen =>
      simp only [reply] at h
      split_ifs at h with hfence
      split at h
      · next left hleft =>
        cases h
        exact .committed (Bool.eq_false_iff.2 hfence) hleft
      · cases h
  | newId =>
    simp only [reply] at h
    split_ifs at h with hfresh
    cases h
    refine ⟨rfl, by decide, ?_⟩
    -- a journal that has the new identifier would have made the server refuse to draw it
    rintro run rfl field hholds
    refine hfresh (List.any_eq_true.2 ⟨field, ?_, RemoteMutationJournal.holds_iff_any.1 hholds⟩)
    cases field <;> simp
  | newMessageId =>
    cases h
    exact ⟨rfl, by decide⟩
  | now | requireTime =>
    cases h
    rfl
  | probe | deleteSession =>
    cases h
    exact ⟨rfl, trivial⟩
  | createSession =>
    cases h
    exact ⟨rfl, trivial, fun sessionId heq => Except.ok.inj heq ▸ server.sessionNonempty⟩
  | executePrompt execution =>
    simp only [reply] at h
    split at h
    · cases h
      exact ⟨rfl, trivial⟩
    · split_ifs at h with hremote
      cases h
      exact ⟨rfl, Bool.eq_false_iff.2 hremote⟩
  | getSession sessionId =>
    cases h
    refine ⟨rfl, ?_⟩
    split_ifs
    · trivial
    · rfl

/-- A schedule of a number of steps against a scripted server, which answers only the calls it is
allowed to. -/
def ScriptedServer.turns (server : ScriptedServer) (allow : StartRecord → Call → Bool)
    (steps : Nat) : List (Config.Turn storeInterface Unit StartRecord) :=
  List.replicate steps ⟨(), fun s call =>
    if allow s call then
      (server.reply s.1 call.request).map fun reply =>
        (reply.1, (reply.2, s.2 ++ [⟨(), call, reply.1⟩]))
    else none⟩

theorem ScriptedServer.runs_of_play {server : ScriptedServer} {allow : StartRecord → Call → Bool}
    {steps : Nat} {α : Type} {c c' : Config storeInterface PyError α Unit StartRecord}
    {events : List (Event storeInterface Unit)} {cond : StartRecord → Call → Prop}
    (hallow : ∀ s call, allow s call = true → cond s call)
    (h : c.play (server.turns allow steps) = some (events, c')) :
    Runs (fun c e c' => Config.Fires (storeSurroundings Unit).recording c e c' ∧
      cond c.state e.op) c events c' := by
  have hrun : Runs (Config.Fires fun i s op answer s' =>
      (storeSurroundings Unit).recording i s op answer s' ∧ cond s op) c events c' := by
    refine Config.runs_of_play (fun turn hturn s call answer s' hreply => ?_) h
    obtain rfl := List.eq_of_mem_replicate hturn
    dsimp only at hreply
    split_ifs at hreply with hallowed
    obtain ⟨reply, hreplied, heq⟩ := Option.map_eq_some_iff.1 hreply
    cases heq
    exact ⟨⟨responds_of_reply hreplied, rfl⟩, hallow _ _ hallowed⟩
  exact hrun.mono fun _ _ _ hfires =>
    ⟨⟨hfires.resumed, hfires.answered.1⟩, hfires.answered.2⟩

end OpencodeSession
