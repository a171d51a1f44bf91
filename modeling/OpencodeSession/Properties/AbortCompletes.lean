import OpencodeSession.Framework.Traces
import OpencodeSession.Orchestration.Commands
import OpencodeSession.Run.MutationFacts

/-!
# What an abort comes to

`abort_worker` tells the server to abort the session and records the abort in the persist that
finalises its journal entry.  Between two of its requests other commands may have left any record,
so every request is served from a record of its own (`Service`).

Once the remote call has succeeded, two updates are left: the mark of the success and the
finalisation, which applies the abort to the worker it finds.  A worker that has finished and is not
to be tried again does not take the transition: the update raises, and the entry stays where it is.
`completes_iff` says exactly when the abort completes.
-/

namespace OpencodeSession

/-! ## Aborting a worker -/

/-- Whether the response to an abort counts as an acceptance. -/
def abortAccepted (response : JsonValue) : Bool :=
  WorkerRecord.abortIsAccepted (some (abortRecord "" response))

lemma abortIsAccepted_abortRecord (sessionId : String) (response : JsonValue) :
    WorkerRecord.abortIsAccepted (some (abortRecord sessionId response)) =
      abortAccepted response := rfl

namespace WorkerRecord

variable {worker worker' : WorkerRecord} {abort response : JsonValue}

/-- The worker has finished and is not to be tried again. -/
def hasFinished (worker : WorkerRecord) : Bool :=
  worker.lifecycleState ∈
    [LifecycleState.doneCollect, .failedTerminal, .timeoutTerminal, .timeoutFailedTerminal]

/-- What an abort leaves of a worker that takes it. -/
def withAbort (worker : WorkerRecord) (abort : JsonValue) : WorkerRecord :=
  if worker.acceptedAbort && !abortIsAccepted (some abort) then worker
  else worker.reduceAborted worker.id abort

lemma transitionIsLegal_markAborted :
    worker.transitionIsLegal (worker.markAborted abort) = !worker.hasFinished := by
  have hlegal : worker.transitionIsLegal (worker.markAborted abort) =
      (worker.acceptedAbort || worker.lifecycleState ∈
        [LifecycleState.queued, .activeWait, .activeRetry, .blockedDependency, .blockedTimeout,
          .failedRetry, .timeoutRetry, .timeoutFailedRetry, .timeoutAborted, .aborted]) := by
    simp [transitionIsLegal, acceptedAbortApplies, markAborted,
      TransitionPayload.publicLifecycleTransition, TransitionPayload.sourceStates,
      TransitionPayload.specSourceStates]
  rw [hlegal, hasFinished]
  cases haccepted : worker.acceptedAbort with
  | false =>
    rw [Bool.false_or]
    cases worker.lifecycleState <;> decide
  | true =>
    have hstatus := (acceptedAbort_iff.1 haccepted).2
    revert hstatus
    cases worker.lifecycleState <;> decide

lemma applyTransition_markAborted :
    worker.applyTransition (worker.markAborted abort) =
      if worker.hasFinished then
        .error (.workerTransition (worker.illegalTransitionReason (worker.markAborted abort)))
      else .ok (worker.withAbort abort) := by
  have hreduce : worker.reduce (worker.markAborted abort) = worker.withAbort abort := by
    unfold withAbort reduce acceptedAbortTerminalInvariant
    cases worker.acceptedAbort with
    | false => rfl
    | true => cases haccepted : abortIsAccepted (some abort) <;>
        simp [markAborted, acceptedAbortKeepsReduced, haccepted, acceptedAbortPassthrough,
          TransitionPayload.promptIds, mergePromptIds, finalizeWith, reducePayload]
  rw [applyTransition, transitionIsLegal_markAborted, hreduce]
  cases worker.hasFinished <;> rfl

@[simp] lemma id_withAbort : (worker.withAbort abort).id = worker.id := by
  unfold withAbort
  split_ifs <;> rfl

/-- An abort ends up on the worker: the worker is aborted, or it had ended before and nothing else
about it changes. -/
def Aborted (before after : WorkerRecord) : Prop :=
  after.status = .aborted ∨
    before.status.isTerminal = true ∧ ∃ abort, after = { before with abort := some abort }

/-- A worker that takes an abort ends up aborted, unless the response refuses the abort of a worker
that has not ended. -/
lemma aborted_withAbort_iff :
    Aborted worker (worker.withAbort abort) ↔
      abortIsAccepted (some abort) = true ∨ worker.status.isTerminal = true := by
  cases haccepted : abortIsAccepted (some abort) with
  | true =>
    simp only [true_or, iff_true]
    left
    simp [withAbort, haccepted, reduceAborted, status, LifecycleState.status, LifecycleState.row]
  | false =>
    simp only [Bool.false_eq_true, false_or]
    constructor
    · rintro (hstatus | ⟨hterminal, -⟩)
      · have hsame : (worker.withAbort abort).status = worker.status := by
          unfold withAbort
          split_ifs
          · rfl
          · simp [reduceAborted, haccepted, status]
        rw [← hsame, hstatus]
        decide
      · exact hterminal
    · intro hterminal
      cases hbefore : worker.acceptedAbort with
      | true =>
        left
        simp only [withAbort, hbefore, haccepted, Bool.not_false, Bool.and_self, if_true]
        exact (acceptedAbort_iff.1 hbefore).2
      | false =>
        refine .inr ⟨hterminal, abort, ?_⟩
        simp [withAbort, hbefore, reduceAborted, haccepted]

end WorkerRecord

/-- The update that an abort carries: the worker needs a session and takes the abort. -/
lemma applyAbortWorker_eq_ok {run left : Run} {workerId sessionId : String} {response : JsonValue} :
    run.applyAbortWorker workerId sessionId response = .ok left ↔
      ∃ worker session, run.workerWithSession workerId = .ok (worker, session) ∧
        worker.hasFinished = false ∧
        left = (run.setWorker
          (worker.withAbort (abortRecord sessionId response))).refreshSummary := by
  simp only [Run.applyAbortWorker, bind, Except.bind, WorkerRecord.applyTransition_markAborted]
  cases run.workerWithSession workerId with
  | error error => simp
  | ok found =>
    obtain ⟨worker, session⟩ := found
    cases hfinished : worker.hasFinished with
    | true => simp [hfinished]
    | false =>
      simp only [hfinished, Bool.false_eq_true, if_false, Except.ok.injEq, Prod.mk.injEq]
      constructor
      · intro h
        exact ⟨worker, session, ⟨rfl, rfl⟩, hfinished, (Except.ok.inj h).symm⟩
      · rintro ⟨_, _, ⟨rfl, rfl⟩, -, rfl⟩
        rfl

lemma not_holds_finalize (journal : Option JsonValue) (entryId : String) :
    ¬ RemoteMutationJournal.Holds (RemoteMutationJournal.finalize journal entryId) entryId := by
  rintro ⟨entry, hmem, hentry⟩
  simp only [RemoteMutationJournal.finalize] at hmem
  split_ifs at hmem
  · exact absurd hmem List.not_mem_nil
  · have hother := (List.mem_filter.1 hmem).2
    rw [hentry] at hother
    cases hother

/-! ## The requests of an abort -/

/-- A request of a command with its answer and the record before and after it. -/
structure Service where
  before : Option Run
  exchange : Exchange storeInterface
  after : Option Run

/-- The surroundings may answer so. -/
def Service.Served (service : Service) : Prop :=
  service.exchange.op.request.Responds service.before service.exchange.answer service.after

/-- The store has failed to take an update, or a cleanup has fenced the record off. -/
def Service.Fails (service : Service) : Prop :=
  ∃ phase mutation error, error.isPersistenceError = true ∧
    (service.exchange = ⟨⟨phase, .updateRun mutation⟩, .rejected error⟩ ∨
      service.exchange = ⟨⟨phase, .updateRun mutation⟩, .lost error⟩)

/-- The session that an intent is about. -/
def intentSession (intent : RemoteJournalRecord) : String :=
  match intent.field "session_id" with
  | .str sessionId => sessionId
  | _ => ""

/-- The requests of an abort up to the success of its remote call. -/
def calledAbort (workerId entryId now : String) (loaded seen saved : Run) (sessionId : String)
    (response : JsonValue) : List (Exchange storeInterface) :=
  [⟨⟨.serving, .loadRun⟩, .ok loaded⟩, ⟨⟨.serving, .newId⟩, entryId⟩,
    ⟨⟨.serving, .updateRun (.journal .remoteMutation (.recordIntent entryId abortWorkerKind
      (.abortWorker entryId workerId)))⟩, .committed now seen saved⟩,
    ⟨⟨.serving, .abortSession sessionId⟩, .ok response⟩]

/-- The update that marks the success of the remote call. -/
def markUpdate (entryId : String) (intent : RemoteJournalRecord) : Call :=
  ⟨.serving, .updateRun (.journal .remoteMutation (.markRemoteSucceeded entryId intent .ignore))⟩

/-- The update that applies the abort and removes its entry. -/
def finalUpdate (entryId workerId sessionId : String) (response : JsonValue) : Call :=
  ⟨.serving, .updateRun (.journal .remoteMutation
    (.finalize entryId (some (.abortWorker workerId sessionId response))))⟩

/-- The response of the server to an abort, if the exchange is one. -/
def abortResponse : Exchange storeInterface → Option JsonValue
  | ⟨⟨_, .abortSession _⟩, .ok response⟩ => some response
  | _ => none

/-- The remote call has succeeded with a response. -/
def AbortSucceeded (trace : List (Exchange storeInterface)) (response : JsonValue) : Prop :=
  ∃ x ∈ trace, abortResponse x = some response

section Trace

variable {workerId : String} {trace : List (Exchange storeInterface)}
  {p : Process storeInterface PyError Run} {response : JsonValue}

/-- The process is not waiting. -/
def Ended {α : Type} (p : Process storeInterface PyError α) : Prop := ∀ op k, p ≠ .call op k

lemma trace_call_of_ended {α : Type} {op : Call}
    {k : storeInterface.Answer op → Process storeInterface PyError α}
    {p : Process storeInterface PyError α} (htrace : (Process.call op k).Trace trace p)
    (hended : Ended p) :
    ∃ answer rest, trace = ⟨op, answer⟩ :: rest ∧ (k answer).Trace rest p := by
  rcases Process.trace_call.1 htrace with ⟨-, rfl⟩ | h
  · exact absurd rfl (hended _ _)
  · exact h

lemma exists_raise_of_abort_error (sessionId : String) (error : PyError) :
    ∃ raised, (if Commands.isSessionNotFoundError error then
        throw (.runWorkerSessionNotFound sessionId)
      else throw error : Command JsonValue) = .raise raised := by
  split_ifs
  · exact ⟨_, rfl⟩
  · exact ⟨_, rfl⟩

/-- How an abort ends whose remote call has succeeded: the mark of the success fails, or the
finalisation decides. -/
theorem trace_abortWorker (htrace : (Commands.abortWorker workerId).Trace trace p)
    (hended : Ended p) (hsucceeded : AbortSucceeded trace response) :
    ∃ entryId now loaded seen saved intent mark,
      (∃ error, UpdateAnswer.toExcept mark = .error error ∧ p = .raise error ∧
        trace = calledAbort workerId entryId now loaded seen saved (intentSession intent) response ++
          [⟨markUpdate entryId intent, mark⟩]) ∨
      ∃ now' seen' saved' final, mark = .committed now' seen' saved' ∧
        p = .ofExcept ((UpdateAnswer.toExcept final).map fun result => result.2.2) ∧
        trace = calledAbort workerId entryId now loaded seen saved (intentSession intent) response ++
          [⟨markUpdate entryId intent, mark⟩,
            ⟨finalUpdate entryId workerId (intentSession intent) response, final⟩] := by
  obtain ⟨loaded, rest₁, rfl, h₁⟩ := trace_call_of_ended htrace hended
  cases loaded with
  | error error =>
    obtain ⟨rfl, rfl⟩ := Process.trace_raise.1 h₁
    simp [AbortSucceeded, abortResponse] at hsucceeded
  | ok loaded =>
    replace h₁ : (Process.ofExcept (loaded.workerWithSession workerId) >>= fun _ => _).Trace
      rest₁ p := h₁
    cases hworker : loaded.workerWithSession workerId with
    | error error =>
      rw [hworker] at h₁
      obtain ⟨rfl, rfl⟩ := Process.trace_raise.1 h₁
      simp [AbortSucceeded, abortResponse] at hsucceeded
    | ok found =>
      rw [hworker] at h₁
      obtain ⟨entryId, rest₂, rfl, h₂⟩ := trace_call_of_ended h₁ hended
      obtain ⟨recorded, rest₃, rfl, h₃⟩ := trace_call_of_ended h₂ hended
      cases recorded with
      | rejected error | lost error =>
        obtain ⟨rfl, rfl⟩ := Process.trace_raise.1 h₃
        simp [AbortSucceeded, abortResponse] at hsucceeded
      | committed now seen saved =>
        replace h₃ : (((Process.ofExcept (journalHandlers.intentOf (.abortWorker entryId workerId)
          now seen) >>= fun _ => _) >>= fun _ => _) >>= fun _ => _).Trace rest₃ p := h₃
        cases hintent : journalHandlers.intentOf (.abortWorker entryId workerId) now seen with
        | error error =>
          rw [hintent] at h₃
          obtain ⟨rfl, rfl⟩ := Process.trace_raise.1 h₃
          simp [AbortSucceeded, abortResponse] at hsucceeded
        | ok intent =>
          rw [hintent] at h₃
          obtain ⟨answer, rest₄, rfl, h₄⟩ := trace_call_of_ended h₃ hended
          cases answer with
          | error error =>
            -- the failure is noted, best effort, and raised again
            obtain ⟨raised, hraised⟩ := exists_raise_of_abort_error (intentSession intent) error
            replace h₄ : (((Process.handle (if Commands.isSessionNotFoundError error then
                throw (.runWorkerSessionNotFound (intentSession intent))
              else throw error : Command JsonValue) fun _ => _) >>= fun _ => _) >>=
                fun _ => _).Trace rest₄ p := h₄
            rw [hraised] at h₄
            obtain ⟨recordedAt, rest₅, rfl, h₅⟩ := trace_call_of_ended h₄ hended
            obtain ⟨noted, rest₆, rfl, h₆⟩ := trace_call_of_ended h₅ hended
            have hrest : rest₆ = [] := by
              cases noted with
              | committed now' seen' saved' => exact (Process.trace_raise.1 h₆).1
              | rejected failure | lost failure =>
                replace h₆ : (((((if failure.isPersistenceError then return saved
                  else throw failure : Command Run) >>= fun _ => throw raised) : Command JsonValue)
                    >>= fun _ => _) >>= fun _ => _).Trace rest₆ p := h₆
                split_ifs at h₆ <;> exact (Process.trace_raise.1 h₆).1
            rw [hrest] at hsucceeded
            simp [AbortSucceeded, abortResponse] at hsucceeded
          | ok data =>
            obtain ⟨mark, rest₅, rfl, h₅⟩ := trace_call_of_ended h₄ hended
            refine ⟨entryId, now, loaded, seen, saved, intent, mark, ?_⟩
            cases mark with
            | rejected error | lost error =>
              obtain ⟨rfl, rfl⟩ := Process.trace_raise.1 h₅
              have hdata : data = response := by
                simpa [AbortSucceeded, abortResponse] using hsucceeded
              subst hdata
              exact .inl ⟨error, rfl, rfl, rfl⟩
            | committed now' seen' saved' =>
              obtain ⟨final, rest₆, rfl, h₆⟩ := trace_call_of_ended h₅ hended
              have hfinal : rest₆ = [] ∧
                  p = .ofExcept ((UpdateAnswer.toExcept final).map fun result => result.2.2) := by
                cases final with
                | committed => exact Process.trace_done.1 h₆
                | rejected | lost => exact Process.trace_raise.1 h₆
              obtain ⟨rfl, rfl⟩ := hfinal
              have hdata : data = response := by
                simpa [AbortSucceeded, abortResponse] using hsucceeded
              subst hdata
              exact .inr ⟨now', seen', saved', final, rfl, rfl, rfl⟩

end Trace

/-! ## When an abort completes -/

/-- The abort has completed: it returns the record that its last update left, in which its entry is
gone and the abort has ended up on the worker. -/
def Completes (workerId : String) (services : List Service)
    (p : Process storeInterface PyError Run) : Prop :=
  ∃ final entryId before worker after worker', services.getLast? = some final ∧
    ⟨⟨.serving, .newId⟩, entryId⟩ ∈ services.map Service.exchange ∧
    final.before = some before ∧ final.after = some after ∧ p = .done after ∧
    ¬ RemoteMutationJournal.Holds (after.journal .remoteMutation) entryId ∧
    before.workers.get? workerId = some worker ∧ after.workers.get? workerId = some worker' ∧
    worker.Aborted worker'

/-- The updates are taken, and the last one finds a worker that the abort can end up on. -/
def Lands (workerId : String) (response : JsonValue) (services : List Service) : Prop :=
  (∀ service ∈ services, ¬ service.Fails) ∧
    ∃ final before worker sessionId, services.getLast? = some final ∧
      final.before = some before ∧ before.workerWithSession workerId = .ok (worker, sessionId) ∧
      worker.hasFinished = false ∧
      (abortAccepted response = true ∨ worker.status.isTerminal = true)

section Completes

variable {workerId entryId sessionId : String} {response : JsonValue} {services : List Service}
  {service : Service} {intent : RemoteJournalRecord}

lemma fails_of_markUpdate {error : PyError} {mark : UpdateAnswer}
    (hserved : service.Served) (hexchange : service.exchange = ⟨markUpdate entryId intent, mark⟩)
    (herror : mark.toExcept = .error error) : service.Fails := by
  obtain ⟨before, exchange, after⟩ := service
  cases hexchange
  have hupdates : Updates (RunMutation.journal .remoteMutation
      (.markRemoteSucceeded entryId intent .ignore)).apply before mark after := hserved
  cases hupdates with
  | committed => cases herror
  | raised _ hmutator => cases hmutator
  | failed hpersistence => exact ⟨_, _, _, hpersistence, .inl rfl⟩
  | lost _ _ hpersistence => exact ⟨_, _, _, hpersistence, .inr rfl⟩

/-- What the finalisation of an abort does to the record. -/
lemma apply_finalUpdate {now : String} {run left : Run} :
    (RunMutation.journal .remoteMutation (.finalize entryId
      (some (.abortWorker workerId sessionId response)))).apply now run = .ok left ↔
      ∃ updated, run.applyAbortWorker workerId sessionId response = .ok updated ∧
        left = updated.setJournal
          (RemoteMutationJournal.finalize (updated.journal .remoteMutation) entryId)
          .remoteMutation := by
  constructor
  · intro happly
    have hmutation : (JournalMutation.finalize entryId
        (some (RunUpdate.abortWorker workerId sessionId response)) :
          JournalMutation IntentFactory RunUpdate).apply journalHandlers .remoteMutation now run =
        .ok left := happly
    exact JournalMutation.apply_eq_ok (by simp) hmutation
  · rintro ⟨updated, happly, rfl⟩
    show (run.applyAbortWorker workerId sessionId response >>= _) = _
    rw [happly]
    rfl

lemma not_fails_of_mem_calledAbort {now : String} {loaded seen saved : Run}
    (hmem : service.exchange ∈
      calledAbort workerId entryId now loaded seen saved sessionId response) :
    ¬ service.Fails := by
  rintro ⟨phase, mutation, error, -, hexchange | hexchange⟩ <;>
  · rw [hexchange] at hmem
    simp [calledAbort] at hmem

/-- The finalisation that is written lands on the worker it finds. -/
lemma aborted_of_finalUpdate {now : String} {before left : Run}
    (happly : (RunMutation.journal .remoteMutation (.finalize entryId
      (some (.abortWorker workerId sessionId response)))).apply now before = .ok left) :
    ∃ worker worker' session, before.workerWithSession workerId = .ok (worker, session) ∧
      worker.hasFinished = false ∧ before.workers.get? workerId = some worker ∧
      left.normalize.workers.get? workerId = some worker' ∧
      ¬ RemoteMutationJournal.Holds (left.normalize.journal .remoteMutation) entryId ∧
      (worker.Aborted worker' ↔ abortAccepted response = true ∨ worker.status.isTerminal = true) := by
  obtain ⟨updated, hupdated, rfl⟩ := apply_finalUpdate.1 happly
  obtain ⟨worker, session, hworker, hfinished, rfl⟩ := applyAbortWorker_eq_ok.1 hupdated
  have hget := Run.get?_of_workerWithSession hworker
  have hid : worker.id.value = workerId := WorkerMap.id_of_get? hget
  refine ⟨worker, worker.withAbort (abortRecord sessionId response), session, hworker, hfinished,
    hget, ?_, ?_, ?_⟩
  · rw [Run.workers_normalize, Run.workers_setJournal, Run.workers_refreshSummary, Run.setWorker,
      ← hid]
    exact (WorkerMap.get?_set.trans (if_pos (by simp)))
  · rw [Run.journal_normalize, Run.journal_setJournal_self]
    exact not_holds_finalize _ _
  · rw [WorkerRecord.aborted_withAbort_iff, abortIsAccepted_abortRecord]

lemma not_fails_of_committed {phase : Phase} {mutation : RunMutation} {now : String}
    {seen saved : Run}
    (h : service.exchange = ⟨⟨phase, .updateRun mutation⟩, .committed now seen saved⟩) :
    ¬ service.Fails := by
  rintro ⟨phase', mutation', error, -, hexchange | hexchange⟩
  · cases h.symm.trans hexchange
  · cases h.symm.trans hexchange

/-- What the answer to the finalisation decides, where the requests before it have not failed. -/
lemma completes_iff_of_final {before after : Option Run} {final : UpdateAnswer} {last : Service}
    (hlast : services.getLast? = some last)
    (hupdate : last = ⟨before, ⟨finalUpdate entryId workerId sessionId response, final⟩, after⟩)
    (hid : ⟨⟨.serving, .newId⟩, entryId⟩ ∈ services.map Service.exchange)
    (hothers : ∀ service ∈ services, service.Fails → service = last)
    (hserved : last.Served) :
    Completes workerId services
        (.ofExcept ((UpdateAnswer.toExcept final).map fun result => result.2.2)) ↔
      Lands workerId response services := by
  have hraised : ∀ error, ¬ Completes workerId services (.raise error) := by
    rintro error ⟨_, _, _, _, _, _, _, _, _, _, hdone, -⟩
    cases hdone
  have hmem : last ∈ services := List.mem_of_getLast? hlast
  have hupdates : Updates (RunMutation.journal .remoteMutation (.finalize entryId
      (some (.abortWorker workerId sessionId response)))).apply before final after := by
    rw [hupdate] at hserved
    exact hserved
  -- the four ways in which the final update can be answered
  cases hupdates with
  | @committed now seen left _ hmutator =>
    obtain ⟨worker, worker', session, hworker, hfinished, hget, hget', hgone, haborted⟩ :=
      aborted_of_finalUpdate hmutator
    constructor
    · rintro ⟨last', entryId', before', found, after', found', hlast', -, hbefore, hafter, -, -,
        hfound, hfound', hboth⟩
      cases hlast.symm.trans hlast'
      rw [hupdate] at hbefore hafter
      cases hbefore
      cases hafter
      cases hget.symm.trans hfound
      cases hget'.symm.trans hfound'
      refine ⟨fun service hservice hfails => ?_, last, seen, worker, session, hlast, ?_, hworker,
        hfinished, haborted.1 hboth⟩
      · rw [hothers service hservice hfails, hupdate] at hfails
        exact not_fails_of_committed rfl hfails
      · rw [hupdate]
    · rintro ⟨-, last', before', found, session', hlast', hbefore, hfound, -, haccepted⟩
      cases hlast.symm.trans hlast'
      rw [hupdate] at hbefore
      cases hbefore
      cases hworker.symm.trans hfound
      exact ⟨last, entryId, seen, worker, _, worker', hlast, hid, by rw [hupdate], by rw [hupdate],
        rfl, hgone, hget, hget', haborted.2 haccepted⟩
  | @raised now seen error _ hmutator =>
    refine iff_of_false (hraised error) ?_
    rintro ⟨-, last', before', found, session', hlast', hbefore, hfound, hfinished, -⟩
    cases hlast.symm.trans hlast'
    rw [hupdate] at hbefore
    cases hbefore
    have happly : seen.applyAbortWorker workerId sessionId response = .ok _ :=
      applyAbortWorker_eq_ok.2 ⟨found, session', hfound, hfinished, rfl⟩
    cases hmutator.symm.trans (apply_finalUpdate.2 ⟨_, happly, rfl⟩)
  | @failed _ error hpersistence =>
    refine iff_of_false (hraised error) fun h => h.1 last hmem ?_
    rw [hupdate]
    exact ⟨_, _, error, hpersistence, .inl rfl⟩
  | @lost now seen left error _ _ hpersistence =>
    refine iff_of_false (hraised error) fun h => h.1 last hmem ?_
    rw [hupdate]
    exact ⟨_, _, error, hpersistence, .inr rfl⟩

/-- An abort whose remote call has succeeded completes exactly if the store takes its last two
updates and the second finds the worker with a session, not finished, and, unless the response
accepts the abort, ended. -/
theorem abortWorker_completes_iff {p : Process storeInterface PyError Run}
    (hserved : ∀ service ∈ services, service.Served)
    (htrace : (Commands.abortWorker workerId).Trace (services.map Service.exchange) p)
    (hended : Ended p) (hsucceeded : AbortSucceeded (services.map Service.exchange) response) :
    Completes workerId services p ↔ Lands workerId response services := by
  obtain ⟨entryId, now, loaded, seen, saved, intent, mark, h⟩ :=
    trace_abortWorker htrace hended hsucceeded
  rcases h with ⟨error, herror, rfl, hservices⟩ | ⟨now', seen', saved', final, rfl, rfl, hservices⟩
  · -- the success could not be marked
    obtain ⟨front, last, rfl, -, hlast⟩ := List.map_eq_append_iff.1 hservices
    obtain ⟨marked, rfl, hmarked⟩ := List.map_eq_singleton_iff.1 hlast
    have hfails : marked.Fails := fails_of_markUpdate (hserved marked (by simp)) hmarked herror
    refine iff_of_false ?_ fun h => h.1 marked (by simp) hfails
    rintro ⟨_, _, _, _, _, _, _, _, _, _, hdone, -⟩
    cases hdone
  · obtain ⟨front, last, rfl, hfront, hlast⟩ := List.map_eq_append_iff.1 hservices
    obtain ⟨marked, rest, rfl, hmarked, hrest⟩ := List.map_eq_cons_iff.1 hlast
    obtain ⟨finalized, rfl, hfinalized⟩ := List.map_eq_singleton_iff.1 hrest
    have hupdate : finalized = ⟨finalized.before,
        ⟨finalUpdate entryId workerId (intentSession intent) response, final⟩, finalized.after⟩ := by
      rw [← hfinalized]
    refine completes_iff_of_final (by simp) hupdate ?_ ?_ (hserved finalized (by simp))
    · rw [hservices]
      simp [calledAbort]
    · intro service hmem hfails
      simp only [List.mem_append, List.mem_cons, List.not_mem_nil, or_false] at hmem
      rcases hmem with hmem | rfl | rfl
      · have hcalled := List.mem_map_of_mem (f := Service.exchange) hmem
        rw [hfront] at hcalled
        exact absurd hfails (not_fails_of_mem_calledAbort hcalled)
      · exact absurd hfails (not_fails_of_committed hmarked)
      · rfl

end Completes

/-! ## Two aborts -/

/-- A worker with a session. -/
def sessionWorker (state : LifecycleState) : WorkerRecord :=
  { id := ⟨"worker", WorkerId.nonempty_worker⟩, sessionId := some "ses_1", lifecycleState := state }

/-- The run of the worker. -/
def sessionRun (state : LifecycleState) : Run :=
  { Run.new "demo" "/" "http://localhost" with
    workers := WorkerMap.empty.set (sessionWorker state) }

/-- The intent to abort it. -/
def sessionIntent : RemoteJournalRecord :=
  ⟨"m-1", abortWorkerKind, abortWorkerFields "worker" "ses_1", by decide,
    abortWorkerKind_nonempty,
    unreserved_abortWorkerFields⟩

/-- The run once the intent is recorded. -/
def intendedRun (state : LifecycleState) : Run :=
  ((sessionRun state).setJournal (RemoteMutationJournal.recordIntent none sessionIntent)
    .remoteMutation).normalize

/-- The run once the success is marked. -/
def markedRun (state : LifecycleState) : Run :=
  ((intendedRun state).setJournal (RemoteMutationJournal.mark .remoteSucceeded
    ((intendedRun state).journal .remoteMutation) "m-1" sessionIntent .ignore)
    .remoteMutation).normalize

/-- The server accepts. -/
def acceptingResponse : JsonValue := .obj [("accepted", .bool true)]

lemma abortAccepted_acceptingResponse : abortAccepted acceptingResponse = true := rfl

/-- The requests of the abort up to its finalisation. -/
def abortServices (state : LifecycleState) (final : UpdateAnswer) (after : Run) : List Service :=
  [⟨sessionRun state, ⟨⟨.serving, .loadRun⟩, .ok (sessionRun state)⟩, sessionRun state⟩,
    ⟨sessionRun state, ⟨⟨.serving, .newId⟩, "m-1"⟩, sessionRun state⟩,
    ⟨sessionRun state, ⟨⟨.serving, .updateRun (.journal .remoteMutation (.recordIntent "m-1"
      abortWorkerKind (.abortWorker "m-1" "worker")))⟩, .committed "" (sessionRun state)
        (intendedRun state)⟩, intendedRun state⟩,
    ⟨intendedRun state, ⟨⟨.serving, .abortSession "ses_1"⟩, .ok acceptingResponse⟩,
      intendedRun state⟩,
    ⟨intendedRun state, ⟨markUpdate "m-1" sessionIntent, .committed "" (intendedRun state)
      (markedRun state)⟩, markedRun state⟩,
    ⟨markedRun state, ⟨finalUpdate "m-1" "worker" "ses_1" acceptingResponse, final⟩, after⟩]

lemma trace_abortServices (state : LifecycleState) (final : UpdateAnswer) (after : Run) :
    (Commands.abortWorker "worker").Trace
      ((abortServices state final after).map Service.exchange)
      (.ofExcept ((UpdateAnswer.toExcept final).map fun result => result.2.2)) := by
  refine Process.trace_call.2 (.inr ⟨.ok (sessionRun state), _, rfl, ?_⟩)
  refine Process.trace_call.2 (.inr ⟨"m-1", _, rfl, ?_⟩)
  refine Process.trace_call.2 (.inr ⟨.committed "" (sessionRun state) (intendedRun state), _, rfl, ?_⟩)
  refine Process.trace_call.2 (.inr ⟨.ok acceptingResponse, _, rfl, ?_⟩)
  refine Process.trace_call.2 (.inr ⟨.committed "" (intendedRun state) (markedRun state), _, rfl, ?_⟩)
  refine Process.trace_call.2 (.inr ⟨final, _, rfl, ?_⟩)
  cases final <;> exact .nil

lemma served_abortServices (state : LifecycleState) {final : UpdateAnswer} {after : Run}
    (hfinal : Updates (RunMutation.journal .remoteMutation (.finalize "m-1"
      (some (.abortWorker "worker" "ses_1" acceptingResponse)))).apply (markedRun state) final
        after) : ∀ service ∈ abortServices state final after, service.Served := by
  intro service hmem
  simp only [abortServices, List.mem_cons, List.not_mem_nil, or_false] at hmem
  rcases hmem with rfl | rfl | rfl | rfl | rfl | rfl
  · exact ⟨rfl, rfl⟩
  · have hid : "m-1" ≠ "" := by decide
    refine ⟨rfl, hid, ?_⟩
    rintro run hrun field ⟨entry, hentry, -⟩
    cases hrun
    cases field <;> exact absurd hentry List.not_mem_nil
  · exact Updates.committed rfl rfl
  · exact ⟨rfl, trivial⟩
  · exact Updates.committed rfl rfl
  · exact hfinal

lemma abortSucceeded_abortServices (state : LifecycleState) (final : UpdateAnswer) (after : Run) :
    AbortSucceeded ((abortServices state final after).map Service.exchange) acceptingResponse := by
  refine ⟨⟨⟨.serving, .abortSession "ses_1"⟩, .ok acceptingResponse⟩, ?_, rfl⟩
  simp [abortServices]

theorem abortWorker_completes_waiting : ∃ after, Completes "worker"
    (abortServices .activeWait (.committed "" (markedRun .activeWait) after) after)
    (.done after) := by
  have hworker : (markedRun .activeWait).workerWithSession "worker" =
      .ok (sessionWorker .activeWait, "ses_1") := rfl
  have happly : (markedRun .activeWait).applyAbortWorker "worker" "ses_1" acceptingResponse =
      .ok _ := applyAbortWorker_eq_ok.2 ⟨sessionWorker .activeWait, "ses_1", hworker, rfl, rfl⟩
  have hserved := served_abortServices .activeWait
    (@Updates.committed _ "" _ _ rfl (apply_finalUpdate.2 ⟨_, happly, rfl⟩))
  refine ⟨_, (abortWorker_completes_iff hserved (trace_abortServices _ _ _)
    (fun _ _ hcall => by cases hcall) (abortSucceeded_abortServices _ _ _)).2 ⟨?_, ?_⟩⟩
  · intro service hmem
    simp only [abortServices, List.mem_cons, List.not_mem_nil, or_false] at hmem
    rcases hmem with rfl | rfl | rfl | rfl | rfl | rfl <;>
      rintro ⟨phase, mutation, error, -, hexchange | hexchange⟩ <;> cases hexchange
  · exact ⟨_, _, sessionWorker .activeWait, "ses_1", rfl, rfl, hworker, rfl,
      .inl abortAccepted_acceptingResponse⟩

/-- The abort of a worker that is done does not complete, although the server accepts it. -/
theorem not_abortWorker_completes_done :
    ¬ ∀ (workerId : String) (response : JsonValue) (services : List Service)
        (p : Process storeInterface PyError Run), (∀ service ∈ services, service.Served) →
      (Commands.abortWorker workerId).Trace (services.map Service.exchange) p → Ended p →
      AbortSucceeded (services.map Service.exchange) response → Completes workerId services p := by
  intro h
  let error := PyError.workerTransition ((sessionWorker .doneCollect).illegalTransitionReason
    ((sessionWorker .doneCollect).markAborted (abortRecord "ses_1" acceptingResponse)))
  have hupdates : Updates (RunMutation.journal .remoteMutation (.finalize "m-1"
      (some (.abortWorker "worker" "ses_1" acceptingResponse)))).apply
        (some (markedRun .doneCollect)) (.rejected error) (some (markedRun .doneCollect)) :=
    @Updates.raised _ "" _ _ rfl rfl
  have hserved := served_abortServices .doneCollect hupdates
  have hcompletes := h "worker" acceptingResponse _ _ hserved (trace_abortServices _ _ _)
    (fun _ _ hcall => by cases hcall) (abortSucceeded_abortServices _ _ _)
  obtain ⟨_, _, _, _, _, _, _, _, _, _, hdone, -⟩ := hcompletes
  cases hdone

end OpencodeSession
