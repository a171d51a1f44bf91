import OpencodeSession.Orchestration.Commands
import OpencodeSession.Run.MutationFacts
import OpencodeSession.Worker.AttemptFacts

/-!
# What the parts of a start ask for

The requests that each part of a start can make, whatever it is answered, as `Process.Within`
statements that follow the text of the part.  Three things are read off.  Every part belongs to one
stage, and only the execution of a worker is in the stage of attempts.  Outside of the provisioning
and the activation of a worker, all updates are `RunMutation.Settles`: they leave every session
alone and move no worker into a state from which it would be executed.  And up to the recording of
its outcome, the updates of an attempt are `RunMutation.Opens`.

`Call.Applies` is the bound for statements about fields that only transitions change.
-/

namespace OpencodeSession

/-! ## Kinds of requests -/

/-- The stages of a start: deciding what to execute, the attempts, and what comes after the last of
them. -/
inductive Stage where
  | deciding | attempting | ending
  deriving DecidableEq

/-- The stage a phase belongs to. -/
def Phase.stage : Phase → Stage
  | provisioning _ | activating _ | starting _ | prompting _ _ | recording _ => .attempting
  | failing | cleaning _ => .ending
  | _ => .deciding

/-- A request of a stage that does not send a prompt. -/
structure Call.Quiet (stage : Stage) (call : Call) : Prop where
  phase : call.phase.stage = stage
  request : ∀ execution, call.request ≠ .executePrompt execution

/-- A transition that neither provides a session nor makes its worker active. -/
def TransitionPayload.settles : TransitionPayload → Bool
  | attemptStarted _ | failed _ _ _ _ _ _ | dependencyBlocked _ | retryScheduled _ _ _ _ _
  | timedOut _ _ _ _ _ _ | resultApplied _ _ _ | cleanupUpdated _ => true
  | _ => false

/-- A mutation that only settles what workers have come to. -/
inductive RunMutation.Settles : RunMutation → Prop where
  | markRunActive : Settles .markRunActive
  | refreshSummary : Settles .refreshSummary
  | applyTransitions {transitions : List WorkerTransition}
      (h : ∀ transition ∈ transitions, transition.payload.settles = true) :
      Settles (.applyTransitions transitions)
  | journal {field : JournalField} {mutation : JournalMutation IntentFactory RunUpdate}
      (h : mutation.update = none) : Settles (.journal field mutation)

/-- A request that leaves sessions alone, and whose updates settle. -/
inductive Request.Settles : Request → Prop where
  | updateRun {mutation : RunMutation} (h : mutation.Settles) : Settles (.updateRun mutation)
  | loadRun : Settles .loadRun
  | now : Settles .now
  | newId : Settles .newId
  | newMessageId : Settles .newMessageId
  | requireTime : Settles .requireTime
  | probe (serverUrl : String) : Settles (.probe serverUrl)

/-- A settling request of a stage. -/
structure Call.Settles (stage : Stage) (call : Call) : Prop where
  phase : call.phase.stage = stage
  request : call.request.Settles

/-- A request by which the outcome of an attempt of a worker is recorded. -/
structure Call.Records (workerId : WorkerId) (call : Call) : Prop extends
    call.Settles .attempting where
  transition : ∀ mutation, call.request = .updateRun mutation →
    ∃ transition, mutation = .applyTransitions [transition] ∧ transition.workerId = workerId

lemma Call.Records.clock {workerId : WorkerId} {phase : Phase} (hphase : phase.stage = .attempting) :
    Call.Records workerId ⟨phase, .now⟩ :=
  ⟨⟨hphase, .now⟩, fun _ h => by cases h⟩

lemma Call.Settles.quiet {stage : Stage} {call : Call} (h : call.Settles stage) :
    call.Quiet stage := by
  refine ⟨h.phase, fun execution hrequest => ?_⟩
  have hsettles := h.request
  rw [hrequest] at hsettles
  cases hsettles

/-! ## Requests between the attempts -/

/-- The mutation a request asks for, if it is an update. -/
def Request.mutation? : Request → Option RunMutation
  | updateRun mutation => some mutation
  | _ => none

/-- Whether a request belongs to the deletion of a session. -/
def Request.deletes : Request → Bool
  | deleteSession _ | getSession _ => true
  | _ => false

namespace Request.Settles

variable {request : Request} (h : request.Settles)
include h

lemma deletes : request.deletes = false := by
  cases h <;> rfl

lemma updates {mutation : RunMutation} (hmutation : request.mutation? = some mutation) :
    mutation.Settles := by
  cases h with
  | updateRun hsettles =>
    cases hmutation
    exact hsettles
  | _ => cases hmutation

end Request.Settles

/-- A transition that neither starts an attempt nor comes from the outcome of one.  A failure that
is none of an attempt is not retried. -/
def TransitionPayload.isPlain : TransitionPayload → Bool
  | failed _ _ retryable _ _ _ => !retryable
  | dependencyBlocked _ | cleanupUpdated _ => true
  | _ => false

/-- A plain transition that finalises no attempt. -/
structure WorkerTransition.Plain (transition : WorkerTransition) : Prop where
  payload : transition.payload.isPlain = true
  finalization : transition.attemptFinalization = none

/-- A mutation by which an operator asks for a start. -/
inductive RunMutation.IsRequest : RunMutation → Prop where
  | applyStartRequest (request : StartRequest) : IsRequest (.applyStartRequest request)
  | upsertWorker (workerId : String) (changes : WorkerChanges) :
      IsRequest (.upsertWorker workerId changes)

/-- A mutation outside of the attempts and their recovery. -/
inductive RunMutation.Plain : RunMutation → Prop where
  | markRunActive : Plain .markRunActive
  | refreshSummary : Plain .refreshSummary
  | applyTransitions {transitions : List WorkerTransition}
      (h : ∀ transition ∈ transitions, transition.Plain) : Plain (.applyTransitions transitions)

/-- A request before the start decides what to do. -/
structure Call.Requests (call : Call) : Prop extends call.Quiet .deciding where
  updates : ∀ mutation, call.request.mutation? = some mutation → mutation.IsRequest
  deletes : call.request.deletes = false

/-- A quiet request whose updates are plain. -/
structure Call.Plain (stage : Stage) (call : Call) : Prop extends call.Quiet stage where
  updates : ∀ mutation, call.request.mutation? = some mutation → mutation.Plain

/-- A plain request that deletes no session. -/
structure Call.Still (stage : Stage) (call : Call) : Prop extends call.Plain stage where
  deletes : call.request.deletes = false

lemma WorkerTransition.Plain.settles {transition : WorkerTransition} (h : transition.Plain) :
    transition.payload.settles = true := by
  have hplain := h.payload
  revert hplain
  cases transition.payload with
  | failed | dependencyBlocked | cleanupUpdated => exact fun _ => rfl
  | _ => exact fun hplain => by cases hplain

lemma RunMutation.Plain.settles {mutation : RunMutation} (h : mutation.Plain) :
    mutation.Settles := by
  cases h with
  | markRunActive => exact .markRunActive
  | refreshSummary => exact .refreshSummary
  | applyTransitions h => exact .applyTransitions fun t ht => (h t ht).settles

lemma RunMutation.Plain.call {stage : Stage} {phase : Phase} {mutation : RunMutation}
    (h : mutation.Plain) (hphase : phase.stage = stage) :
    Call.Plain stage ⟨phase, .updateRun mutation⟩ :=
  ⟨⟨hphase, nofun⟩, fun _ hmutation => by cases hmutation; exact h⟩

lemma RunMutation.Plain.still {stage : Stage} {phase : Phase} {mutation : RunMutation}
    (h : mutation.Plain) (hphase : phase.stage = stage) :
    Call.Still stage ⟨phase, .updateRun mutation⟩ :=
  ⟨h.call hphase, rfl⟩

lemma RunMutation.IsRequest.call {phase : Phase} {mutation : RunMutation} (h : mutation.IsRequest)
    (hphase : phase.stage = .deciding) : Call.Requests ⟨phase, .updateRun mutation⟩ :=
  ⟨⟨hphase, nofun⟩, fun _ hmutation => by cases hmutation; exact h, rfl⟩

lemma Call.requests_of_eq_none {phase : Phase} {request : Request}
    (hphase : phase.stage = .deciding) (hmutation : request.mutation? = none)
    (hrequest : ∀ execution, request ≠ .executePrompt execution)
    (hdeletes : request.deletes = false) : Call.Requests ⟨phase, request⟩ := by
  refine ⟨⟨hphase, hrequest⟩, fun mutation h => ?_, hdeletes⟩
  have hnone : none = some mutation := hmutation.symm.trans h
  cases hnone

lemma Call.plain_of_eq_none {stage : Stage} {phase : Phase} {request : Request}
    (hphase : phase.stage = stage) (hmutation : request.mutation? = none)
    (hrequest : ∀ execution, request ≠ .executePrompt execution) :
    Call.Plain stage ⟨phase, request⟩ := by
  refine ⟨⟨hphase, hrequest⟩, fun mutation h => ?_⟩
  have hnone : none = some mutation := hmutation.symm.trans h
  cases hnone

/-! ## Opening an attempt -/

section

variable (workerId : WorkerId) (allowed : String → Prop)

/-- A worker with an identifier, whose session, if it has one, is allowed. -/
structure WorkerRecord.Granted (worker : WorkerRecord) : Prop where
  id : worker.id = workerId
  session : ∀ sessionId, worker.sessionId = some sessionId → allowed sessionId

/-- A transition by which an attempt is opened. -/
def TransitionPayload.Opens : TransitionPayload → Prop
  | provisioned sessionId _ _ => ∀ provided, sessionId = some provided → allowed provided
  | active _ _ | attemptStarted _ => True
  | _ => False

/-- An update that stores a created session. -/
def RunUpdate.Opens : RunUpdate → Prop
  | createdWorkerSession workerId' sessionId _ _ _ => workerId' = workerId ∧ allowed sessionId
  | _ => False

/-- A mutation by which an attempt of a worker is opened. -/
inductive RunMutation.Opens : RunMutation → Prop where
  | applyTransition {transition : WorkerTransition} (hid : transition.workerId = workerId)
      (h : transition.payload.Opens allowed) : Opens (.applyTransitions [transition])
  | journal {field : JournalField} {mutation : JournalMutation IntentFactory RunUpdate}
      (h : ∀ update, mutation.update = some update → update.Opens workerId allowed) :
      Opens (.journal field mutation)

end

/-- The phases of an attempt before its outcome is recorded. -/
def Phase.opensAttempt : Phase → Bool
  | provisioning _ | activating _ | starting _ | prompting _ _ => true
  | _ => false

/-- The prompt a request sends, if it sends one. -/
def Request.prompt? : Request → Option PromptExecution
  | executePrompt execution => some execution
  | _ => none

/-- A request of an attempt of a worker before its outcome is recorded, which mentions only allowed
sessions and sends prompts only for the worker. -/
structure Call.Opens (workerId : WorkerId) (allowed : String → Prop) (call : Call) : Prop where
  phase : call.phase.opensAttempt = true
  updates : ∀ mutation, call.request.mutation? = some mutation → mutation.Opens workerId allowed
  prompts : ∀ execution sessionId, call.request.prompt? = some execution →
    execution.sessionId = some sessionId → allowed sessionId
  prompted : ∀ execution, call.request.prompt? = some execution →
    execution.workerId = workerId.value

/-- An answer that mentions only allowed sessions of a worker. -/
def Call.Grants (workerId : WorkerId) (allowed : String → Prop) :
    (call : Call) → call.request.Answer → Prop
  | ⟨_, .updateRun _⟩, .committed _ _ saved => (saved.latestWorker workerId).Granted workerId allowed
  | ⟨_, .createSession _⟩, .ok sessionId => allowed sessionId
  | _, _ => True

lemma Call.opens_of_eq_none {workerId : WorkerId} {allowed : String → Prop} {phase : Phase}
    {request : Request} (hphase : phase.opensAttempt = true) (hmutation : request.mutation? = none)
    (hprompt : request.prompt? = none) : Call.Opens workerId allowed ⟨phase, request⟩ := by
  have hnever : ∀ execution, request.prompt? ≠ some execution := by simp [hprompt]
  refine ⟨hphase, fun mutation h => ?_, fun execution _ h => absurd h (hnever execution),
    fun execution h => absurd h (hnever execution)⟩
  have hnone : none = some mutation := hmutation.symm.trans h
  cases hnone

lemma Run.granted_of_session {run : Run} {workerId : WorkerId} {allowed : String → Prop}
    (h : ∀ sessionId, (run.latestWorker workerId).sessionId = some sessionId → allowed sessionId) :
    (run.latestWorker workerId).Granted workerId allowed :=
  ⟨Run.id_latestWorker run workerId, h⟩

lemma Call.grants_of_forall {workerId : WorkerId} {allowed : String → Prop}
    (h : ∀ sessionId, allowed sessionId) (call : Call) (answer : call.request.Answer) :
    call.Grants workerId allowed answer := by
  unfold Call.Grants
  split
  · exact Run.granted_of_session fun sessionId _ => h sessionId
  · exact h _
  · trivial

/-! ## Transactions -/

namespace RemoteMutationTransaction

/-- The update that a result carries. -/
def resultUpdate {U : Type} : RemoteMutationResult U → Option U
  | .finalize update | .recordApplied _ update _ => update
  | .keepPending => none

section

variable {I : Interface} {F U V H : Type} {R : ∀ op, I.Answer op → Prop} {P : I.Op → Prop}
  {G : Run → Prop} {K : V → Prop} {B : U → Prop} {port : JournalPort I F U}
  {handlers : JournalHandlers F U} {transaction : RemoteMutationTransaction}

lemma withinWhen_persistMutation {mutation : JournalMutation F U}
    (hpersist : (port.persist mutation).WithinWhen R P fun result => G result.2.2) :
    (persistMutation port mutation).WithinWhen R P G :=
  hpersist.bind fun _ h => h

/-- What a transaction asks for after its remote call. -/
lemma withinWhen_afterRemote {remoteResult : V} {intent : RemoteJournalRecord}
    {remoteSucceededRecord : Option (V → RemoteJournalRecord →
      Process I PyError (RemoteJournalRecord × H))}
    {policy : MissingIntentPolicy}
    {resultOf : Option (Option H → V → RemoteJournalRecord →
      Process I PyError (Option (RemoteMutationResult U)))}
    (hpersist : ∀ mutation : JournalMutation F U, (∀ update, mutation.update = some update →
      B update) → (persistMutation port mutation).WithinWhen R P G)
    (hrecord : ∀ recordOf, remoteSucceededRecord = some recordOf →
      (recordOf remoteResult intent).WithinWhen R P fun _ => True)
    (hresult : ∀ handler, resultOf = some handler → ∀ memo,
      (handler memo remoteResult intent).WithinWhen R P fun result =>
        ∀ decided, result = some decided → ∀ update, resultUpdate decided = some update →
          B update) :
    (do
      let (succeeded, memo) ←
        transaction.succeededRecord port remoteResult intent remoteSucceededRecord
      let run ← transaction.markRemoteSucceeded port succeeded policy
      let result ← resultOrFinalize memo remoteResult intent resultOf
      let run ← transaction.markResultRecord port run succeeded result
      let run ← transaction.applyResult port run result
      return ({ run := run, remoteResult := remoteResult, intent := intent } :
        RemoteMutationExecution V)).WithinWhen R P
          fun (execution : RemoteMutationExecution V) =>
            G execution.run ∧ execution.remoteResult = remoteResult := by
  have hvalidated : ∀ record, (Process.ofExcept (validatedRecord transaction.entryId
      transaction.operation.kind record) : Process I PyError _).WithinWhen R P fun _ => True :=
    fun record => Process.withinWhen_ofExcept.2 fun _ _ => trivial
  have hsucceeded : ∀ record policy,
      (transaction.markRemoteSucceeded port record policy).WithinWhen R P G :=
    fun record policy => hpersist _ (by nofun)
  -- the steps of the runner, one after the other: the record of the success and its mark
  refine Process.WithinWhen.bind (M := fun _ => True) ?_ fun succeeded _ => ?_
  · unfold succeededRecord
    split
    · trivial
    · next recordOf =>
      refine Process.WithinWhen.tryCatch ?_ fun error => (hsucceeded _ _).bind fun _ _ => trivial
      exact (hrecord recordOf rfl).bind fun _ _ => (hvalidated _).bind fun _ _ => trivial
  refine (hsucceeded _ _).bind fun run hrun => ?_
  refine Process.WithinWhen.bind
    (M := fun decided => ∀ update, resultUpdate decided = some update → B update) ?_
    fun result hdecided => ?_
  · unfold resultOrFinalize
    split
    · exact nofun
    · next handler =>
      refine (hresult handler rfl _).bind fun result hresult => ?_
      cases result with
      | none => exact nofun
      | some decided => exact hresult decided rfl
  refine Process.WithinWhen.bind (M := G) ?_ fun run hrun => ?_
  · unfold markResultRecord
    split
    · split_ifs
      · exact hrun
      · exact (hvalidated _).bind fun _ _ => hsucceeded _ _
    · exact hrun
  refine Process.WithinWhen.bind (M := G) ?_ fun run hrun => ⟨hrun, rfl⟩
  unfold applyResult
  split
  · exact (hvalidated _).bind fun _ _ => hpersist _ hdecided
  · exact hrun
  · exact hpersist _ hdecided

/-- A transaction asks for what its remote call and its handlers ask for, and persists mutations
whose updates its result handler decided on. -/
lemma withinWhen_execute {factory : F}
    {callRemote : Run → RemoteJournalRecord → Process I PyError V}
    {remoteSucceededRecord : Option (V → RemoteJournalRecord →
      Process I PyError (RemoteJournalRecord × H))}
    {policy : MissingIntentPolicy}
    {resultOf : Option (Option H → V → RemoteJournalRecord →
      Process I PyError (Option (RemoteMutationResult U)))}
    (hpersist : ∀ mutation : JournalMutation F U, (∀ update, mutation.update = some update →
      B update) → (port.persist mutation).WithinWhen R P fun result => G result.2.2)
    (hnow : port.now.WithinWhen R P fun _ => True)
    (hcall : ∀ run intent, G run → (callRemote run intent).WithinWhen R P K)
    (hrecord : ∀ recordOf, remoteSucceededRecord = some recordOf → ∀ remoteResult intent,
      K remoteResult → (recordOf remoteResult intent).WithinWhen R P fun _ => True)
    (hresult : ∀ handler, resultOf = some handler → ∀ memo remoteResult intent, K remoteResult →
      (handler memo remoteResult intent).WithinWhen R P fun result =>
        ∀ decided, result = some decided → ∀ update, resultUpdate decided = some update →
          B update) :
    (transaction.execute port handlers factory callRemote remoteSucceededRecord policy
      resultOf).WithinWhen R P fun execution => G execution.run ∧ K execution.remoteResult := by
  have hmutation : ∀ mutation : JournalMutation F U, (∀ update, mutation.update = some update →
      B update) → (persistMutation port mutation).WithinWhen R P G :=
    fun mutation hupdates => withinWhen_persistMutation (hpersist mutation hupdates)
  have huncertain : ∀ run error,
      (transaction.markUncertainBestEffort port run error).WithinWhen R P fun _ => True := by
    intro run error
    refine hnow.bind fun recordedAt _ => Process.WithinWhen.tryCatch
      ((hmutation _ fun update h => ?_).mono (fun _ _ h => h) (fun _ h => h) fun _ _ => trivial)
      fun error => ?_
    · cases h
    · split_ifs <;> trivial
  unfold execute
  -- the intent is persisted before the remote call, whose failure is only noted
  refine Process.WithinWhen.bind (M := fun recorded => G recorded.1) ?_ fun recorded hrun => ?_
  · refine (hpersist (.recordIntent _ _ _) fun update h => ?_).bind fun persisted hpersisted => ?_
    · cases h
    · exact Process.WithinWhen.bind (M := fun _ => True)
        (Process.withinWhen_ofExcept.2 fun _ _ => trivial) fun _ _ => hpersisted
  refine Process.WithinWhen.bind (M := K) ?_ fun remoteResult hremote => ?_
  · exact (hcall _ _ hrun).tryCatch fun error => (huncertain _ _).bind fun _ _ => trivial
  refine (withinWhen_afterRemote hmutation (fun recordOf h => hrecord recordOf h _ _ hremote)
    fun handler h memo => hresult handler h _ _ _ hremote).mono (fun _ _ h => h) (fun _ h => h) ?_
  rintro execution ⟨hrun, hsame⟩
  exact ⟨hrun, hsame ▸ hremote⟩

/-- The best-effort finalisation persists mutations without updates. -/
lemma withinWhen_finalizeBestEffort {run : Run} (hrun : G run)
    (hpersist : ∀ mutation : JournalMutation F U, mutation.update = none →
      (port.persist mutation).WithinWhen R P fun result => G result.2.2)
    (hnow : port.now.WithinWhen R P fun _ => True) :
    (transaction.finalizeBestEffort port run).WithinWhen R P G := by
  refine (withinWhen_persistMutation (hpersist _ rfl)).tryCatch fun error => ?_
  split_ifs
  · refine hnow.bind fun _ _ =>
      (withinWhen_persistMutation (hpersist _ rfl)).tryCatch fun error => ?_
    split_ifs
    · exact hrun
    · trivial
  · trivial

end

end RemoteMutationTransaction

/-! ## Single requests -/

section

variable {P : Call → Prop} {phase : Phase}

lemma Command.within_clock {Q : String → Prop} (h : P ⟨phase, .now⟩) (hQ : ∀ now, Q now) :
    (Command.clock phase).Within P Q :=
  ⟨h, hQ⟩

lemma Command.within_persist {mutation : RunMutation} (h : P ⟨phase, .updateRun mutation⟩) :
    (Command.persist phase mutation).Within P fun _ => True :=
  ⟨h, fun _ => Process.within_ofExcept.2 fun _ _ => trivial⟩

lemma Command.within_update {mutation : RunMutation} (h : P ⟨phase, .updateRun mutation⟩) :
    (Command.update phase mutation).Within P fun _ => True :=
  ⟨h, fun _ => Process.within_ofExcept.2 fun _ _ => trivial⟩

lemma Command.within_loadRun (h : P ⟨phase, .loadRun⟩) :
    (Command.loadRun phase).Within P fun _ => True :=
  ⟨h, fun _ => Process.within_ofExcept.2 fun _ _ => trivial⟩

end

namespace Flow

/-! ## Planning and recovery -/

lemma settles_of_mem_dependencyBlockedTransitions {workers : WorkerMap}
    {transition : WorkerTransition}
    (h : transition ∈ (planStep workers).dependencyBlockedTransitions) :
    transition.payload.settles = true := by
  obtain ⟨id, -, htransition⟩ := List.mem_filterMap.1 h
  obtain ⟨worker, -, rfl⟩ := Option.map_eq_some_iff.1 htransition
  rfl

lemma settles_plan (run : Run) :
    Call.Settles .deciding ⟨.planning (planStep run.workers).workerId, .updateRun
      (if (planStep run.workers).dependencyBlockedTransitions.isEmpty then .refreshSummary
        else .applyTransitions (planStep run.workers).dependencyBlockedTransitions)⟩ := by
  refine ⟨rfl, .updateRun ?_⟩
  split_ifs
  · exact .refreshSummary
  · exact .applyTransitions fun _ ht => settles_of_mem_dependencyBlockedTransitions ht

/-- What planning persists is plain. -/
lemma plain_plan (run : Run) :
    RunMutation.Plain (if (planStep run.workers).dependencyBlockedTransitions.isEmpty then
      .refreshSummary
      else .applyTransitions (planStep run.workers).dependencyBlockedTransitions) := by
  split_ifs
  · exact .refreshSummary
  · refine .applyTransitions fun transition h => ?_
    obtain ⟨id, -, htransition⟩ := List.mem_filterMap.1 h
    obtain ⟨worker, -, rfl⟩ := Option.map_eq_some_iff.1 htransition
    exact ⟨rfl, rfl⟩

lemma settles_of_attemptEffect {worker : WorkerRecord} {attempt : WorkerAttemptOutcome}
    {payload : TransitionPayload} {error : Option String}
    (h : AttemptEffect worker attempt payload error) : payload.settles = true := by
  cases h <;> rfl

/-- What is recovered of a worker is the time-out of one of its attempts. -/
lemma recoverWorker_eq_some {datetime : Datetime} {worker : WorkerRecord} {now : String}
    {nowInstant : Option Calendar.Instant} {recovery : ActiveAttemptRecovery}
    (h : recoverWorker datetime now nowInstant worker = .ok (some recovery)) :
    ∃ attempt, recoverableActiveAttempt worker = some attempt ∧
      recovery = timeoutActiveAttempt worker attempt now := by
  unfold recoverWorker at h
  split at h
  · cases h
  · next attempt hattempt =>
    simp only [bind, Except.bind] at h
    split at h
    · cases h
    · split_ifs at h
      · obtain rfl := Option.some.inj (Except.ok.inj h)
        exact ⟨attempt, hattempt, rfl⟩
      · cases h

/-- Every recovery is that of one of the workers. -/
lemma mem_recoveries {datetime : Datetime} {workers : List WorkerRecord} {now : String}
    {recoveries : List ActiveAttemptRecovery} {recovery : ActiveAttemptRecovery}
    (h : recoverExpiredActiveAttempts datetime workers now = .ok recoveries)
    (hmem : recovery ∈ recoveries) :
    ∃ worker ∈ workers, ∃ attempt, recoverableActiveAttempt worker = some attempt ∧
      recovery = timeoutActiveAttempt worker attempt now := by
  obtain ⟨nowInstant, -, h⟩ := Except.bind_eq_ok.1 h
  obtain ⟨results, hresults, hrecoveries⟩ := Except.bind_eq_ok.1 h
  cases hrecoveries
  obtain ⟨result, hresult, hsome⟩ := List.mem_filterMap.1 hmem
  obtain rfl : result = some recovery := hsome
  obtain ⟨worker, hworker, hrecovered⟩ := Except.exists_item_of_mem_mapM hresults hresult
  exact ⟨worker, hworker, recoverWorker_eq_some hrecovered⟩

lemma settles_recoveries {datetime : Datetime} {workers : List WorkerRecord} {now : String}
    {recoveries : List ActiveAttemptRecovery}
    (h : recoverExpiredActiveAttempts datetime workers now = .ok recoveries) :
    Call.Settles .deciding ⟨.recovering none, .updateRun
      (.applyTransitions (recoveries.map ActiveAttemptRecovery.transition))⟩ := by
  refine ⟨rfl, .updateRun (.applyTransitions fun transition ht => ?_)⟩
  obtain ⟨recovery, hrecovery, rfl⟩ := List.mem_map.1 ht
  obtain ⟨worker, -, attempt, -, rfl⟩ := mem_recoveries h hrecovery
  exact settles_of_attemptEffect (attemptEffect _ _ _)

/-! ## The ends of the execution phase -/

/-- What the end of a failed start persists. -/
def failMutation (run : Run) (error : String) : RunMutation :=
  .applyTransitions (run.pendingPromptedWorkers.map fun worker => worker.markFailed "api" error false)

lemma plain_failMutation (run : Run) (error : String) : (failMutation run error).Plain := by
  refine .applyTransitions fun t ht => ?_
  obtain ⟨worker, -, rfl⟩ := List.mem_map.1 ht
  exact ⟨rfl, rfl⟩

end Flow

/-! ## The parts of an attempt -/

section

variable {workerId : WorkerId} {allowed : String → Prop}

lemma Command.withinWhen_clock {phase : Phase} (hphase : phase.opensAttempt = true) :
    (Command.clock phase).WithinWhen (Call.Grants workerId allowed) (Call.Opens workerId allowed)
      fun _ => True :=
  (Command.within_clock (Call.opens_of_eq_none hphase rfl rfl) fun _ => trivial).when

namespace Provisioning

variable {agent model : Option String} {cleanupRequested : Bool}

/-- Journaling for a worker's session, with updates that store a created one. -/
lemma withinWhen_sessionPort {mutation : JournalMutation IntentFactory RunUpdate}
    (h : ∀ update, mutation.update = some update → update.Opens workerId allowed) :
    ((sessionPort workerId).persist mutation).WithinWhen (Call.Grants workerId allowed)
      (Call.Opens workerId allowed)
      fun result => (result.2.2.latestWorker workerId).Granted workerId allowed := by
  refine ⟨⟨rfl, fun persisted hpersisted => ?_, nofun, nofun⟩, fun answer hanswer => ?_⟩
  · cases hpersisted
    exact .journal h
  · cases answer with
    | committed now seen saved => exact hanswer
    | rejected error => trivial
    | lost error => trivial

lemma withinWhen_ensureWorkerSession (run : Run) (intent : RemoteJournalRecord) :
    (ensureWorkerSession workerId agent model cleanupRequested run intent).WithinWhen
      (Call.Grants workerId allowed) (Call.Opens workerId allowed)
      fun outcome => ∀ sessionId, outcome.createdSessionId = some sessionId → allowed sessionId := by
  unfold ensureWorkerSession
  dsimp only
  split_ifs
  · exact nofun
  · refine ⟨Call.opens_of_eq_none rfl rfl rfl, fun answer hanswer => ?_⟩
    cases answer with
    | error error => trivial
    | ok sessionId =>
      rintro _ ⟨⟩
      exact hanswer

lemma withinWhen_remoteSucceededSessionRecord (outcome : WorkerSessionOutcome)
    (intent : RemoteJournalRecord) :
    (remoteSucceededSessionRecord workerId cleanupRequested outcome intent).WithinWhen
      (Call.Grants workerId allowed) (Call.Opens workerId allowed) fun _ => True := by
  unfold remoteSucceededSessionRecord
  split
  · trivial
  · exact (Command.withinWhen_clock rfl).bind fun _ _ => trivial

/-- The only update that the creation of a session comes with stores the session. -/
lemma withinWhen_applyCreatedSession (memo : Option (Option RemoteJournalRecord))
    (outcome : WorkerSessionOutcome) (intent : RemoteJournalRecord)
    (houtcome : ∀ sessionId, outcome.createdSessionId = some sessionId → allowed sessionId) :
    (applyCreatedSession workerId agent model cleanupRequested memo outcome intent).WithinWhen
      (Call.Grants workerId allowed) (Call.Opens workerId allowed) fun result =>
        ∀ decided, result = some decided → ∀ update,
          RemoteMutationTransaction.resultUpdate decided = some update →
            update.Opens workerId allowed := by
  unfold applyCreatedSession
  split
  · rintro _ ⟨⟩ _ ⟨⟩
  · next sessionId hcreated =>
    refine Process.WithinWhen.bind (M := fun _ => True) ?_ fun record _ => ?_
    · split
      · trivial
      · exact (Command.withinWhen_clock rfl).bind fun _ _ => trivial
    · rintro _ ⟨⟩ _ ⟨⟩
      exact ⟨rfl, houtcome _ hcreated⟩

/-- Provisioning opens the attempt of its worker. -/
lemma withinWhen_provision (run : Run) {worker : WorkerRecord}
    (hworker : worker.Granted workerId allowed) :
    (provision run worker agent model cleanupRequested).WithinWhen (Call.Grants workerId allowed)
      (Call.Opens workerId allowed)
      fun provisioning => provisioning.worker.Granted workerId allowed := by
  unfold provision
  split_ifs
  · obtain rfl := hworker.id
    refine Process.WithinWhen.bind (M := fun _ => True)
      ⟨Call.opens_of_eq_none rfl rfl rfl, fun _ _ => trivial⟩ fun intentId _ => ?_
    refine (RemoteMutationTransaction.withinWhen_execute
      (G := fun run => (run.latestWorker worker.id).Granted worker.id allowed)
      (B := fun update => update.Opens worker.id allowed)
      (K := fun outcome => ∀ sessionId, outcome.createdSessionId = some sessionId →
        allowed sessionId)
      (fun _ h => withinWhen_sessionPort h) (Command.withinWhen_clock rfl)
      (fun run intent _ => withinWhen_ensureWorkerSession run intent) ?_ ?_).bind
      fun execution hexecution => hexecution.1
    · rintro _ ⟨⟩ outcome intent _
      exact withinWhen_remoteSucceededSessionRecord outcome intent
    · rintro _ ⟨⟩ memo outcome intent houtcome
      exact withinWhen_applyCreatedSession memo outcome intent houtcome
  · exact ⟨hworker.id, hworker.session⟩

lemma withinWhen_finalizeBestEffort {run : Run} {worker : WorkerRecord}
    (intent : Option RemoteJournalRecord) (hworker : worker.Granted workerId allowed)
    (hrun : intent.isSome = true → (run.latestWorker workerId).Granted workerId allowed) :
    (finalizeBestEffort run worker intent).WithinWhen (Call.Grants workerId allowed)
      (Call.Opens workerId allowed) fun result => result.2.Granted workerId allowed := by
  unfold finalizeBestEffort
  split
  · exact hworker
  · obtain rfl := hworker.id
    refine (RemoteMutationTransaction.withinWhen_finalizeBestEffort (hrun rfl)
      (fun mutation hupdate => withinWhen_sessionPort fun update h => ?_)
      (Command.withinWhen_clock rfl)).bind fun run hgranted => hgranted
    rw [hupdate] at h
    cases h

end Provisioning

namespace Execution

/-- A transition that opens an attempt gives back its worker. -/
lemma withinWhen_openTransition {phase : Phase} {worker : WorkerRecord}
    {transition : WorkerTransition} (hphase : phase.opensAttempt = true)
    (hopens : transition.payload.Opens allowed) (hid : transition.workerId = worker.id)
    (hworker : worker.Granted workerId allowed) :
    (applyWorkerTransition phase worker transition).WithinWhen (Call.Grants workerId allowed)
      (Call.Opens workerId allowed) fun result => result.2.Granted workerId allowed ∧
        (result.1.latestWorker workerId).Granted workerId allowed := by
  have htransition : transition.workerId = workerId := hid.trans hworker.id
  refine ⟨⟨hphase, fun mutation hmutation => ?_, nofun, nofun⟩, fun answer hanswer => ?_⟩
  · cases hmutation
    exact .applyTransition htransition hopens
  · cases answer with
    | committed now seen saved =>
      refine ⟨?_, hanswer⟩
      have hsaved : (saved.latestWorker workerId).Granted workerId allowed := hanswer
      show ((saved.workers.get? transition.workerId.value).getD worker).Granted workerId allowed
      cases hget : saved.workers.get? transition.workerId.value with
      | none => exact hworker
      | some latest =>
        have hlatest : saved.latestWorker workerId = latest :=
          Run.latestWorker_of_get? (htransition ▸ hget)
        rwa [hlatest] at hsaved
    | rejected error => trivial
    | lost error => trivial

lemma withinWhen_provisionSession (run : Run) {worker : WorkerRecord} (agent model : Option String)
    (cleanupRequested : Bool) (hworker : worker.Granted workerId allowed) :
    (provisionSession run worker agent model cleanupRequested).WithinWhen
      (Call.Grants workerId allowed) (Call.Opens workerId allowed)
      fun result => result.2.1.Granted workerId allowed := by
  refine (Provisioning.withinWhen_provision run hworker).bind fun provisioning hprovisioned => ?_
  refine Process.WithinWhen.bind (withinWhen_openTransition rfl ?_ rfl hprovisioned)
    fun provisioned hsaved => ?_
  · exact hprovisioned.session
  exact (Provisioning.withinWhen_finalizeBestEffort _ hsaved.1 fun _ => hsaved.2).bind
    fun finalized hfinalized => hfinalized

lemma withinWhen_activate {worker : WorkerRecord} (hworker : worker.Granted workerId allowed) :
    (activate worker).WithinWhen (Call.Grants workerId allowed) (Call.Opens workerId allowed)
      fun result => result.2.Granted workerId allowed := by
  refine Process.WithinWhen.bind (M := fun _ => True) ?_ fun now _ => ?_
  · split_ifs
    · exact Command.withinWhen_clock rfl
    · trivial
  · refine Process.WithinWhen.mono (withinWhen_openTransition rfl ?_ rfl hworker)
      (fun _ _ h => h) (fun _ h => h) fun _ h => h.1
    trivial

lemma withinWhen_startAttempt {worker : WorkerRecord} (strategy : BlockingStrategy)
    (createdSessionIds : List String) (hworker : worker.Granted workerId allowed) :
    (startAttempt worker strategy createdSessionIds).WithinWhen (Call.Grants workerId allowed)
      (Call.Opens workerId allowed) fun result => result.2.1.Granted workerId allowed := by
  refine Process.WithinWhen.bind (M := fun _ => True) ?_ fun promptId _ => ?_
  · cases strategy with
    | sessionMessage => exact ⟨Call.opens_of_eq_none rfl rfl rfl, fun _ _ => trivial⟩
    | legacyRunReply => trivial
  refine (Command.withinWhen_clock rfl).bind fun startedAt _ => ?_
  refine Process.WithinWhen.bind (withinWhen_openTransition rfl ?_ rfl hworker)
    fun started hstarted => hstarted.1
  trivial

/-- The prompt is sent to the session of the worker in hand. -/
lemma withinWhen_executeSingleWorkerAttempt {worker : WorkerRecord} (attemptId prompt : String)
    (promptId : Option String) (hworker : worker.Granted workerId allowed) :
    (executeSingleWorkerAttempt worker attemptId prompt promptId).WithinWhen
      (Call.Grants workerId allowed) (Call.Opens workerId allowed) fun _ => True := by
  have hrequire : (requireTime (.prompting worker.id.value attemptId)
      worker.timeoutSeconds).WithinWhen (Call.Grants workerId allowed)
        (Call.Opens workerId allowed) fun _ => True := by
    unfold requireTime
    split
    · trivial
    · refine ⟨Call.opens_of_eq_none rfl rfl rfl, fun inTime _ => ?_⟩
      cases inTime <;> trivial
  have hcall : (callWorkerWithDeadline worker attemptId prompt promptId).WithinWhen
      (Call.Grants workerId allowed) (Call.Opens workerId allowed) fun _ => True := by
    refine Process.WithinWhen.tryCatch (hrequire.bind fun _ _ => ?_) fun error => ?_
    · refine ⟨⟨rfl, fun mutation hmutation => ?_, fun execution sessionId hexecution hsession =>
        ?_, fun execution hexecution => ?_⟩,
        fun _ _ => Process.withinWhen_ofExcept.2 fun _ _ => trivial⟩
      · cases hmutation
      · cases hexecution
        exact hworker.session sessionId hsession
      · cases hexecution
        exact congrArg WorkerId.value hworker.id
    · split_ifs <;> trivial
  refine Process.WithinWhen.tryCatch (hcall.bind fun _ _ => trivial) fun error => ?_
  split <;> trivial

/-- An attempt up to the recording of its outcome. -/
def openAttempt (run : Run) (worker : WorkerRecord) (prompt : String) (strategy : BlockingStrategy)
    (agent model : Option String) (cleanupRequested : Bool) :
    Command (WorkerRecord × String × WorkerAttemptOutcome × List String) := do
  let (_, worker, session) ← provisionSession run worker agent model cleanupRequested
  let createdSessionIds := session.createdSessionId.toList
  let (_, worker) ← activate worker
  let (_, worker, attemptId, promptId) ← startAttempt worker strategy createdSessionIds
  let outcome ← executeSingleWorkerAttempt worker attemptId prompt promptId
  return (worker, attemptId, outcome, createdSessionIds)

lemma execute_eq_bind (run : Run) (worker : WorkerRecord) (prompt : String)
    (strategy : BlockingStrategy) (agent model : Option String) (cleanupRequested : Bool) :
    execute run worker prompt strategy agent model cleanupRequested =
      openAttempt run worker prompt strategy agent model cleanupRequested >>= fun opened =>
        recordOutcome opened.1 opened.2.1 opened.2.2.1 opened.2.2.2 := by
  simp only [execute, openAttempt, bind_assoc, pure_bind]

/-- An attempt of a worker whose session is allowed is opened with allowed sessions only. -/
lemma withinWhen_openAttempt (run : Run) {worker : WorkerRecord} (prompt : String)
    (strategy : BlockingStrategy) (agent model : Option String) (cleanupRequested : Bool)
    (hworker : worker.Granted workerId allowed) :
    (openAttempt run worker prompt strategy agent model cleanupRequested).WithinWhen
      (Call.Grants workerId allowed) (Call.Opens workerId allowed)
      fun opened => opened.1.Granted workerId allowed := by
  refine (withinWhen_provisionSession run agent model cleanupRequested hworker).bind
    fun provisioned hprovisioned => ?_
  refine (withinWhen_activate hprovisioned).bind fun active hactive => ?_
  refine (withinWhen_startAttempt strategy _ hactive).bind fun started hstarted => ?_
  exact (withinWhen_executeSingleWorkerAttempt _ prompt _ hstarted).bind fun _ _ => hstarted

lemma settles_recordedOutcome {worker : WorkerRecord} {attempt : WorkerAttemptOutcome}
    {now : String} {attemptId : JsonValue} {fields : List (String × JsonValue)} :
    Call.Settles .attempting ⟨.recording worker.id.value, .updateRun (.applyTransitions
      [(applyWorkerAttemptTransition worker attempt now).workerTransition.withFinalizedAttempt
        attemptId fields])⟩ := by
  refine ⟨rfl, .updateRun (.applyTransitions fun transition htransition => ?_)⟩
  rw [List.mem_singleton.1 htransition]
  exact Flow.settles_of_attemptEffect (attemptEffect worker attempt now)

lemma records_recordedOutcome {worker : WorkerRecord} {attempt : WorkerAttemptOutcome}
    {now : String} {attemptId : JsonValue} {fields : List (String × JsonValue)}
    (hid : worker.id = workerId) :
    Call.Records workerId ⟨.recording worker.id.value, .updateRun (.applyTransitions
      [(applyWorkerAttemptTransition worker attempt now).workerTransition.withFinalizedAttempt
        attemptId fields])⟩ := by
  refine ⟨settles_recordedOutcome, fun mutation hmutation => ?_⟩
  cases hmutation
  exact ⟨_, rfl, applyWorkerAttemptTransition_workerId.trans hid⟩

end Execution

end

/-! ## Deleting sessions -/

namespace SessionCleanup

lemma within_deleteAndVerify (workerId sessionId : String) :
    (deleteAndVerify (.cleaning workerId) sessionId).Within (Call.Plain .ending)
      fun _ => True := by
  have hverify : (deleteAndVerify.verify (.cleaning workerId) sessionId).Within
      (Call.Plain .ending) fun _ => True := by
    refine ⟨Call.plain_of_eq_none rfl rfl nofun, fun read => ?_⟩
    rcases read with error | _
    · dsimp only
      split_ifs <;> trivial
    · trivial
  refine ⟨Call.plain_of_eq_none rfl rfl nofun, fun deleted => ?_⟩
  rcases deleted with error | _
  · dsimp only
    split_ifs
    · trivial
    · exact hverify
    · trivial
  · exact hverify

lemma within_cleanupDisposableSessions (workerId : String) (sessionIds : List String) :
    (cleanupDisposableSessions (.cleaning workerId) sessionIds).Within (Call.Plain .ending)
      fun _ => True := by
  induction sessionIds with
  | nil => trivial
  | cons sessionId rest ih =>
    refine (within_deleteAndVerify workerId sessionId).bind fun error _ => ?_
    refine ih.bind fun _ _ => ?_
    cases error <;> trivial

lemma within_cleanupCreatedWorkerSessions (worker : WorkerRecord) (sessionIds : List String) :
    (cleanupCreatedWorkerSessions worker sessionIds).Within (Call.Plain .ending)
      fun _ => True :=
  (within_cleanupDisposableSessions worker.id.value sessionIds).bind fun _ _ => trivial

lemma plain_cleanupUpdated (worker : WorkerRecord) :
    RunMutation.Plain (.applyTransitions [worker.cleanupUpdatedTransition]) := by
  refine .applyTransitions fun t ht => ?_
  rw [List.mem_singleton.1 ht]
  exact ⟨rfl, rfl⟩

lemma within_cleanup (run : Run) (steps : List (String × List String)) :
    (cleanup run steps).Within (Call.Plain .ending) fun _ => True := by
  induction steps generalizing run with
  | nil => trivial
  | cons step rest ih =>
    obtain ⟨workerId, sessionIds⟩ := step
    unfold cleanup
    split
    · exact ih run
    · next worker _ =>
      refine (within_cleanupCreatedWorkerSessions worker sessionIds).bind fun cleaned _ => ?_
      obtain ⟨worker', error⟩ := cleaned
      have hcall : Call.Plain .ending ⟨.cleaning workerId, .updateRun
          (.applyTransitions [worker'.cleanupUpdatedTransition])⟩ :=
        (plain_cleanupUpdated worker').call rfl
      refine (Command.within_persist hcall).bind fun run _ => ?_
      exact (ih run).bind fun _ _ => trivial

end SessionCleanup

lemma Flow.within_cleanupPhase (execution : ExecutionResult) (recoveryError : Option String) :
    (cleanupPhase execution recoveryError).Within (Call.Plain .ending) fun _ => True := by
  unfold cleanupPhase
  split
  · trivial
  · dsimp only
    split_ifs
    · trivial
    · refine (SessionCleanup.within_cleanup _ _).bind fun result _ => ?_
      obtain ⟨run, _ | error⟩ := result
      · trivial
      · trivial

/-! ## Requeueing -/

namespace Commands

lemma within_ensurePromptWorker (request : RunStartRequest) (prompt : String) :
    (ensurePromptWorker request prompt).Within Call.Requests fun _ => True := by
  refine (Process.Within.tryCatch (Command.within_loadRun
    (Call.requests_of_eq_none rfl rfl nofun rfl)) fun error => ?_).bind
    fun _ _ => Command.within_persist (RunMutation.IsRequest.call (.upsertWorker _ _) rfl)
  split
  · exact ⟨Call.requests_of_eq_none rfl rfl nofun rfl,
      fun _ => Process.within_ofExcept.2 fun _ _ => trivial⟩
  · trivial

end Commands

/-! ## Transitions that are applied -/

/-- A request that applies only transitions with a property. -/
def Call.Applies (P : WorkerTransition → Prop) (call : Call) : Prop :=
  ∀ mutation, call.request.mutation? = some mutation → ∀ transition,
    mutation.MayApply transition → P transition

section

variable {P : WorkerTransition → Prop} {phase : Phase}

lemma Call.applies_of_eq_none {request : Request} (h : request.mutation? = none) :
    Call.Applies P ⟨phase, request⟩ := by
  intro mutation hmutation
  have hnone : none = some mutation := h.symm.trans hmutation
  cases hnone

lemma Call.applies_updateRun {mutation : RunMutation}
    (h : ∀ transition, mutation.MayApply transition → P transition) :
    Call.Applies P ⟨phase, .updateRun mutation⟩ := by
  rintro mutation' ⟨⟩
  exact h

/-- A transaction over the journal of a run applies what its updates apply. -/
lemma Command.within_journalPort {field : JournalField} {B : RunUpdate → Prop}
    (hB : ∀ update, B update → ∀ workerId sessionId response,
      update = .abortWorker workerId sessionId response → ∀ transition abort,
        WorkerTransition.payload transition = .aborted abort →
          transition.attemptFinalization = none → P transition)
    (mutation : JournalMutation IntentFactory RunUpdate)
    (h : ∀ update, mutation.update = some update → B update) :
    ((journalPort phase field).persist mutation).WithinWhen (fun _ _ => True) (Call.Applies P)
      fun _ => True := by
  refine (within_update (Call.applies_updateRun ?_)).when
  rintro transition ⟨⟨workerId, sessionId, response, hupdate⟩, ⟨abort, hpayload⟩, hfinal⟩
  exact hB _ (h _ hupdate) _ _ _ rfl transition abort hpayload hfinal

end

namespace Provisioning

variable {P : WorkerTransition → Prop} {workerId : WorkerId} {agent model : Option String}
  {cleanupRequested : Bool}

/-- An update that stores a created session of a worker. -/
def storesSession (workerId : WorkerId) (update : RunUpdate) : Prop :=
  ∃ sessionId cleanupRequested agent model,
    update = .createdWorkerSession workerId sessionId cleanupRequested agent model

/-- What provisioning asks for: requests that neither update anything nor send a prompt, and updates
of its journal, which carry an update of the run only to store the session of its worker. -/
lemma within_provision_unprompted {P : Call → Prop} {worker : WorkerRecord}
    (hquiet : ∀ request : Request, request.mutation? = none → request.prompt? = none →
      P ⟨.provisioning worker.id.value, request⟩)
    (hjournal : ∀ mutation : JournalMutation IntentFactory RunUpdate,
      (∀ update, mutation.update = some update → storesSession worker.id update) →
        P ⟨.provisioning worker.id.value, .updateRun (.journal .workerSession mutation)⟩)
    (run : Run) (agent model : Option String) (cleanupRequested : Bool) :
    (provision run worker agent model cleanupRequested).Within P fun _ => True := by
  have hclock : (Command.clock (.provisioning worker.id.value)).WithinWhen (fun _ _ => True) P
      fun _ => True := (Command.within_clock (hquiet _ rfl rfl) fun _ => trivial).when
  rw [Process.within_iff_withinWhen]
  unfold provision
  split_ifs
  · refine Process.WithinWhen.bind (M := fun _ => True)
      ⟨hquiet _ rfl rfl, fun _ _ => trivial⟩ fun intentId _ => ?_
    -- the outbox asks for its own updates, the session is asked for once
    refine (RemoteMutationTransaction.withinWhen_execute (G := fun _ => True) (K := fun _ => True)
      (B := storesSession worker.id)
      (fun mutation h => (Command.within_update (hjournal mutation h)).when) hclock
      (fun run intent _ => ?_) ?_ ?_).bind fun execution _ => trivial
    · unfold ensureWorkerSession
      dsimp only
      split_ifs
      · trivial
      · refine ⟨hquiet _ rfl rfl, fun answer _ => ?_⟩
        cases answer <;> trivial
    · rintro _ ⟨⟩ outcome intent _
      unfold remoteSucceededSessionRecord
      split
      · trivial
      · exact hclock.bind fun _ _ => trivial
    · rintro _ ⟨⟩ memo outcome intent _
      unfold applyCreatedSession
      split
      · rintro _ ⟨⟩ _ ⟨⟩
      · refine Process.WithinWhen.bind (M := fun _ => True) ?_ fun record _ => ?_
        · split
          · trivial
          · exact hclock.bind fun _ _ => trivial
        · rintro _ ⟨⟩ _ ⟨⟩
          exact ⟨_, _, _, _, rfl⟩
  · trivial

/-- What provisioning asks for, where nothing needs to be known of requests without an update. -/
lemma within_provision {P : Call → Prop} {worker : WorkerRecord}
    (hquiet : ∀ request : Request, request.mutation? = none →
      P ⟨.provisioning worker.id.value, request⟩)
    (hjournal : ∀ mutation : JournalMutation IntentFactory RunUpdate,
      (∀ update, mutation.update = some update → storesSession worker.id update) →
        P ⟨.provisioning worker.id.value, .updateRun (.journal .workerSession mutation)⟩)
    (run : Run) (agent model : Option String) (cleanupRequested : Bool) :
    (provision run worker agent model cleanupRequested).Within P fun _ => True :=
  within_provision_unprompted (fun request hupdate _ => hquiet request hupdate) hjournal run agent
    model cleanupRequested

lemma applies_journal (workerId : WorkerId) {phase : Phase}
    {mutation : JournalMutation IntentFactory RunUpdate}
    (h : ∀ update, mutation.update = some update → storesSession workerId update) :
    Call.Applies P ⟨phase, .updateRun (.journal .workerSession mutation)⟩ := by
  refine Call.applies_updateRun ?_
  rintro transition ⟨⟨_, _, _, hupdate⟩, -, -⟩
  obtain ⟨_, _, _, _, hstores⟩ := h _ hupdate
  cases hstores

lemma applies_provision (run : Run) (worker : WorkerRecord) :
    (provision run worker agent model cleanupRequested).Within (Call.Applies P) fun _ => True :=
  within_provision (fun _ => Call.applies_of_eq_none) (fun _ => applies_journal worker.id) run agent
    model cleanupRequested

lemma applies_finalizeBestEffort (run : Run) (worker : WorkerRecord)
    (intent : Option RemoteJournalRecord) :
    (finalizeBestEffort run worker intent).Within (Call.Applies P) fun _ => True := by
  rw [Process.within_iff_withinWhen]
  unfold finalizeBestEffort
  split
  · trivial
  · refine (RemoteMutationTransaction.withinWhen_finalizeBestEffort (G := fun _ => True) trivial
      (fun mutation hupdate => (Command.within_update (applies_journal worker.id
        fun update h => ?_)).when)
      (Command.within_clock (Call.applies_of_eq_none rfl) fun _ => trivial).when).bind
      fun run _ => trivial
    rw [hupdate] at h
    cases h

end Provisioning

/-- The provisioned worker is all that is applied before the attempt. -/
lemma Execution.applies_provisionSession {P : WorkerTransition → Prop}
    (hP : ∀ worker : WorkerRecord, P worker.provisionedTransition) (run : Run)
    (worker : WorkerRecord) (agent model : Option String) (cleanupRequested : Bool) :
    (provisionSession run worker agent model cleanupRequested).Within (Call.Applies P)
      fun _ => True := by
  refine (Provisioning.applies_provision run worker).bind fun provisioning _ => ?_
  refine Process.Within.bind (M := fun _ => True) ?_ fun provisioned _ =>
    (Provisioning.applies_finalizeBestEffort _ _ _).bind fun _ _ => trivial
  refine (Command.within_persist (Call.applies_updateRun fun transition h => ?_)).bind
    fun _ _ => trivial
  rw [List.mem_singleton.1 h]
  exact hP provisioning.worker

/-- Making the worker active applies that transition only. -/
lemma Execution.applies_activate {P : WorkerTransition → Prop}
    (hP : ∀ (worker : WorkerRecord) (now : String), P (worker.markActive now))
    (worker : WorkerRecord) : (activate worker).Within (Call.Applies P) fun _ => True := by
  unfold activate
  refine Process.Within.bind (M := fun _ => True) ?_ fun now _ => ?_
  · split_ifs
    · exact Command.within_clock (Call.applies_of_eq_none rfl) fun _ => trivial
    · trivial
  · refine (Command.within_persist (Call.applies_updateRun fun transition h => ?_)).bind
      fun _ _ => trivial
    rw [List.mem_singleton.1 h]
    exact hP worker now

/-- An abort applies the abort of its worker. -/
lemma Commands.applies_abortWorker {P : WorkerTransition → Prop}
    (hP : ∀ transition abort, WorkerTransition.payload transition = .aborted abort →
      transition.attemptFinalization = none → P transition) (workerId : String) :
    (abortWorker workerId).Within (Call.Applies P) fun _ => True := by
  rw [Process.within_iff_withinWhen]
  have hclock : (Command.clock .serving).WithinWhen (fun _ _ => True) (Call.Applies P)
      fun _ => True :=
    (Command.within_clock (Call.applies_of_eq_none rfl) fun _ => trivial).when
  refine Process.WithinWhen.bind (M := fun _ => True)
    (Command.within_loadRun (Call.applies_of_eq_none rfl)).when fun run _ => ?_
  refine Process.WithinWhen.bind (M := fun _ => True)
    (Process.withinWhen_ofExcept.2 fun _ _ => trivial) fun worker _ => ?_
  refine Process.WithinWhen.bind (M := fun _ => True)
    ⟨Call.applies_of_eq_none rfl, fun _ _ => trivial⟩ fun mutationId _ => ?_
  refine (RemoteMutationTransaction.withinWhen_execute (G := fun _ => True) (K := fun _ => True)
    (B := fun _ => True) (fun mutation h => Command.within_journalPort (B := fun _ => True)
      (fun _ _ _ _ _ _ => hP) mutation h) hclock (fun run intent _ => ?_) ?_ ?_).bind
    fun execution _ => trivial
  · refine ⟨Call.applies_of_eq_none rfl, fun answer _ => ?_⟩
    cases answer with
    | ok data => trivial
    | error error =>
      dsimp only
      split_ifs <;> trivial
  · rintro _ ⟨⟩
  · rintro _ ⟨⟩ memo outcome intent _ _ _ _ _
    trivial

/-- A transition with which no attempt begins or ends. -/
structure WorkerTransition.Outside (transition : WorkerTransition) : Prop where
  payload : transition.payload.isPlain = true ∨
    (∃ startedAt clear, transition.payload = .active startedAt clear) ∨
    ∃ abort, transition.payload = .aborted abort
  finalization : transition.attemptFinalization = none

lemma WorkerTransition.Plain.outside {transition : WorkerTransition} (h : transition.Plain) :
    transition.Outside :=
  ⟨.inl h.payload, h.finalization⟩

/-- Editing a worker, with or without a status, applies no transition of an attempt. -/
lemma Commands.within_upsertWorker {P : WorkerTransition → Prop} (hP : ∀ t, t.Outside → P t)
    (id : String) (changes : WorkerChanges) (status : Option String) :
    (upsertWorker id changes status).Within (Call.Applies P) fun _ => True := by
  have hstatus : ∀ status, Call.Applies P ⟨.serving, .updateRun
      (.upsertWorkerStatus id changes status)⟩ := by
    refine fun status => Call.applies_updateRun ?_
    rintro t ⟨hactive | ⟨blockers, hpayload⟩, hfinal⟩
    · exact hP t ⟨.inr (.inl hactive), hfinal⟩
    · exact hP t ⟨.inl (by rw [hpayload]; rfl), hfinal⟩
  unfold upsertWorker
  split_ifs
  · trivial
  · cases status with
    | none => exact Command.within_persist (Call.applies_updateRun fun t ht => ht.elim)
    | some status =>
      dsimp only
      generalize shortStatus status = text
      split_ifs
      · exact Command.within_persist (hstatus .active)
      · exact Command.within_persist (hstatus .blocked)
      · trivial

end OpencodeSession
