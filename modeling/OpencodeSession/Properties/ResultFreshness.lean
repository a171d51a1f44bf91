import OpencodeSession.Properties.AttemptLog

/-!
# The result of the latest attempt

Commands on one run, one after another, each of which may be killed.  A worker keeps its result when
an attempt of it starts, and the failure or the time-out of the attempt leaves the result as well,
so a worker that is executed again shows the answer to an earlier prompt until the new attempt has
an answer, and for good if it gets none (`not_fresh_requeued`).  As long as attempts of a worker
start only while it has no result, its result was returned by its latest attempt (`fresh_of_runs`);
where one starts all the same, the result it has is not that of the attempt
(`not_fresh_of_started`).
-/

namespace OpencodeSession

/-- A transition that leaves the result of its worker. -/
structure WorkerTransition.LeavesResult (transition : WorkerTransition) : Prop where
  snapshot : ∀ patch, transition.payload ≠ .snapshotApplied patch
  result : ∀ result promptIds startedAt,
    transition.payload ≠ .resultApplied result promptIds startedAt

/-- A transition that leaves the result of its worker, and starts no attempt. -/
structure WorkerTransition.KeepsResult (transition : WorkerTransition) : Prop extends
    transition.LeavesResult where
  attempt : ∀ attempt, transition.payload ≠ .attemptStarted attempt

lemma WorkerTransition.Outside.keepsResult {transition : WorkerTransition}
    (h : transition.Outside) : transition.KeepsResult := by
  have hkeeps := h.keepsAttempts
  refine ⟨⟨hkeeps.snapshot, fun result promptIds startedAt heq => ?_⟩, hkeeps.attempt⟩
  have hpayload := h.payload
  simp [heq, TransitionPayload.isPlain] at hpayload

lemma WorkerTransition.keepsResult_or_of_effect {worker : WorkerRecord}
    {attempt : WorkerAttemptOutcome} {transition : WorkerTransition} {error : Option String}
    (h : AttemptEffect worker attempt transition.payload error) :
    transition.KeepsResult ∨ ∃ result promptIds startedAt,
      transition.payload = .resultApplied result promptIds startedAt ∧
        attempt = .completed result := by
  have hsettles : transition.payload.settles = true := Flow.settles_of_attemptEffect h
  have hsnapshot := TransitionPayload.ne_snapshotApplied_of_settles hsettles
  have hattempt := h.ne_attemptStarted
  generalize hpayload : transition.payload = payload at h
  cases h with
  | result result promptIds startedAt hcompleted =>
    exact .inr ⟨result, promptIds, startedAt, rfl, hcompleted⟩
  | timeout | retry | failure =>
    exact .inl ⟨⟨hsnapshot, fun _ _ _ heq => by cases hpayload.symm.trans heq⟩, hattempt⟩

namespace ResultFreshness

open AttemptLog (written mem_written startsAttempt)

/-! ## What the events tell of a result -/

/-- The identifiers of the attempts of a worker that an event has started. -/
def startedIds (workerId : WorkerId) (e : Event storeInterface Unit) : List JsonValue :=
  (written workerId e).filterMap fun transition =>
    match transition.payload with
    | .attemptStarted attempt => some (attempt.get "id")
    | _ => none

/-- An event that brings the result of an attempt of a worker. -/
def Answers (workerId : WorkerId) (attemptId : String) (result : ExecutionResult)
    (e : Event storeInterface Unit) : Prop :=
  ∃ execution, e = ⟨(), ⟨.prompting workerId.value attemptId, .executePrompt execution⟩,
    Except.ok result⟩

/-- An attempt is the latest of a worker; the events since it was started are given. -/
def Latest (workerId : WorkerId) (attemptId : String)
    (events since : List (Event storeInterface Unit)) : Prop :=
  ∃ front start, events = front ++ start :: since ∧ startedIds workerId start = [.str attemptId] ∧
    ∀ e ∈ since, startedIds workerId e = []

/-- The latest attempt of a worker has returned a result. -/
def Returned (workerId : WorkerId) (json : JsonValue) (events : List (Event storeInterface Unit)) :
    Prop :=
  ∃ attemptId since result, Latest workerId attemptId events since ∧
    (∃ e ∈ since, Answers workerId attemptId result e) ∧ json = result.toJson

/-- The result of a worker, if it has one, was returned by its latest attempt. -/
def Fresh (workerId : WorkerId) (s : StartRecord) : Prop :=
  ∀ json, (latestOf workerId s.1).result = some json → Returned workerId json s.2

/-- An attempt of a worker is only started while the worker has no result. -/
def StartsClear (workerId : WorkerId) (s : StartRecord) (call : Call) : Prop :=
  ∀ mutation, call.request.mutation? = some mutation → ∀ transition, mutation.MayApply transition →
    transition.workerId = workerId → startsAttempt transition = true →
      (latestOf workerId s.1).result = none

variable {workerId : WorkerId} {attemptId : String} {json : JsonValue} {s : StartRecord}
  {events since : List (Event storeInterface Unit)} {e : Event storeInterface Unit}
  {stored : Option Run} {call : Call} {run : Run} {worker : WorkerRecord}
  {transition : WorkerTransition}

lemma Latest.append (h : Latest workerId attemptId events since)
    (he : startedIds workerId e = []) :
    Latest workerId attemptId (events ++ [e]) (since ++ [e]) := by
  obtain ⟨front, start, rfl, hstart, hsince⟩ := h
  refine ⟨front, start, by simp, hstart, fun e' he' => ?_⟩
  rcases List.mem_append.1 he' with he' | he'
  · exact hsince e' he'
  · rwa [List.mem_singleton.1 he']

lemma Returned.append (h : Returned workerId json events) (he : startedIds workerId e = []) :
    Returned workerId json (events ++ [e]) := by
  obtain ⟨attemptId, since, result, hlatest, ⟨e', he', hanswers⟩, hjson⟩ := h
  exact ⟨attemptId, since ++ [e], result, hlatest.append he, ⟨e', by simp [he'], hanswers⟩, hjson⟩

lemma startedIds_of_forall (h : ∀ t ∈ written workerId e, startsAttempt t = false) :
    startedIds workerId e = [] := by
  refine List.filterMap_eq_nil_iff.2 fun t ht => ?_
  have hstarts := h t ht
  cases hpayload : t.payload with
  | attemptStarted attempt => simp [startsAttempt, hpayload] at hstarts
  | _ => rfl

lemma startedIds_of_spares (h : e.op.Spares workerId WorkerTransition.KeepsResult) :
    startedIds workerId e = [] := by
  refine startedIds_of_forall fun t ht => ?_
  obtain ⟨hid, transitions, hrequest, hmem⟩ := mem_written ht
  have hkeeps := (h (.applyTransitions transitions) (by rw [hrequest]; rfl) t hmem).2 hid
  unfold startsAttempt
  split
  · next attempt heq => exact absurd heq (hkeeps.attempt attempt)
  · rfl

/-! ## Requests that leave the result -/

section

variable (call : Call) {answer : call.request.Answer}
  (hspares : call.Spares workerId WorkerTransition.KeepsResult)
  (hanswer : call.request.Responds s.1 answer stored)
include hspares hanswer

lemma latestOf_result_of_spares : (latestOf workerId stored).result = (latestOf workerId s.1).result :=
  hspares.latestOf_eq WorkerRecord.result (fun _ _ h => h.result)
    (fun _ h _ => WorkerRecord.result_reduce h.snapshot h.result) hanswer

lemma Fresh.of_spares (h : Fresh workerId s) :
    Fresh workerId (stored, s.2 ++ [⟨(), call, answer⟩]) := by
  intro json hjson
  rw [latestOf_result_of_spares call hspares hanswer] at hjson
  exact (h json hjson).append (startedIds_of_spares hspares)

end

/-- An attempt that is going on: it is the latest, and the worker has no result. -/
structure Began (workerId : WorkerId) (attemptId : String) (s : StartRecord) : Prop where
  clear : (latestOf workerId s.1).result = none
  latest : ∃ since, Latest workerId attemptId s.2 since

/-- An attempt that has come to an outcome. -/
structure Ended (workerId : WorkerId) (attemptId : String) (outcome : WorkerAttemptOutcome)
    (s : StartRecord) : Prop extends Began workerId attemptId s where
  returned : ∀ result, outcome = .completed result → Returned workerId result.toJson s.2

lemma Began.fresh (h : Began workerId attemptId s) : Fresh workerId s := by
  intro json hjson
  rw [h.clear] at hjson
  cases hjson

section

variable (call : Call) {answer : call.request.Answer}
  (hspares : call.Spares workerId WorkerTransition.KeepsResult)
  (hanswer : call.request.Responds s.1 answer stored)
include hspares hanswer

lemma Began.of_spares (h : Began workerId attemptId s) :
    Began workerId attemptId (stored, s.2 ++ [⟨(), call, answer⟩]) := by
  obtain ⟨hclear, since, hlatest⟩ := h
  exact ⟨(latestOf_result_of_spares call hspares hanswer).trans hclear, _,
    hlatest.append (startedIds_of_spares hspares)⟩

lemma Ended.of_spares {outcome : WorkerAttemptOutcome} (h : Ended workerId attemptId outcome s) :
    Ended workerId attemptId outcome (stored, s.2 ++ [⟨(), call, answer⟩]) :=
  ⟨h.toBegan.of_spares call hspares hanswer, fun result houtcome =>
    (h.returned result houtcome).append (startedIds_of_spares hspares)⟩

end

/-! ## One attempt -/

lemma startedIds_of_started {attempt : JsonValue} {phase : Phase} {answer : UpdateAnswer}
    (hpayload : transition.payload = .attemptStarted attempt) (hid : transition.workerId = workerId)
    (hwritten : answer.written = true) :
    startedIds workerId ⟨(), ⟨phase, .updateRun (.applyTransitions [transition])⟩, answer⟩ =
      [attempt.get "id"] := by
  have hevent : written workerId ⟨(), ⟨phase, .updateRun (.applyTransitions [transition])⟩,
      answer⟩ = [transition] := by
    simp [written, hwritten, hid]
  rw [startedIds, hevent, List.filterMap_cons, hpayload]
  rfl

/-- The contract of commands that are alone: attempts of the worker start while it has no result,
and its result is that of its latest attempt. -/
abbrev contract (workerId : WorkerId) : Contract storeInterface StartRecord :=
  aloneContract (StartsClear workerId) (Fresh workerId)

section

variable {strategy : BlockingStrategy} {agent model : Option String} {cleanupRequested : Bool}
  {α : Type}

lemma safe_of_spares {p : Command α} {Q : α → Prop} {J : StartRecord → Prop}
    (hfresh : ∀ s, J s → Fresh workerId s)
    (hkeeps : ∀ (s : StartRecord) (call : Call) (answer : call.request.Answer)
      (stored : Option Run), call.Spares workerId WorkerTransition.KeepsResult → J s →
        call.request.Responds s.1 answer stored → J (stored, s.2 ++ [⟨(), call, answer⟩]))
    (h : p.Within (Call.Spares workerId WorkerTransition.KeepsResult) Q) (hs : J s) :
    (contract workerId).Safe (fun a s => Q a ∧ J s) (fun _ s => J s) p s :=
  Contract.safe_alone_of_within h (fun call s answer stored hcall hs hanswer _ =>
    have hJ := hkeeps s call answer stored hcall hs hanswer
    ⟨hfresh _ hJ, hJ⟩) hs

lemma safe_provisionSession (hs : Fresh workerId s) (hid : worker.id = workerId) :
    (contract workerId).Safe (fun result s => result.2.1.id = workerId ∧ Fresh workerId s)
      (fun _ s => Fresh workerId s)
      (Execution.provisionSession run worker agent model cleanupRequested) s := by
  have hgranted : worker.Granted workerId fun _ => True := ⟨hid, fun _ _ => trivial⟩
  have hkeeps : ∀ worker : WorkerRecord, worker.provisionedTransition.KeepsResult := fun worker =>
    ⟨⟨by simp [WorkerRecord.provisionedTransition], by simp [WorkerRecord.provisionedTransition]⟩,
      by simp [WorkerRecord.provisionedTransition]⟩
  have hwithin := ((Execution.withinWhen_provisionSession run agent model cleanupRequested
    hgranted).within (Call.grants_of_forall fun _ => trivial)).and
    (Execution.applies_provisionSession hkeeps run worker agent model cleanupRequested)
  exact safe_of_spares (fun _ h => h) (fun _ call _ _ hcall hs => hs.of_spares call hcall)
    (hwithin.mono (fun _ h => .of_applies (fun _ ht => ht.snapshot) h.2) fun _ h => h.1.id) hs

lemma safe_activate (hs : Fresh workerId s) (hid : worker.id = workerId) :
    (contract workerId).Safe (fun result s => result.2.id = workerId ∧ Fresh workerId s)
      (fun _ s => Fresh workerId s) (Execution.activate worker) s := by
  have hgranted : worker.Granted workerId fun _ => True := ⟨hid, fun _ _ => trivial⟩
  have hkeeps : ∀ (worker : WorkerRecord) (now : String), (worker.markActive now).KeepsResult :=
    fun worker now => ⟨⟨by simp [WorkerRecord.markActive], by simp [WorkerRecord.markActive]⟩,
      by simp [WorkerRecord.markActive]⟩
  have hwithin := ((Execution.withinWhen_activate hgranted).within
    (Call.grants_of_forall fun _ => trivial)).and (Execution.applies_activate hkeeps worker)
  exact safe_of_spares (fun _ h => h) (fun _ call _ _ hcall hs => hs.of_spares call hcall)
    (hwithin.mono (fun _ h => .of_applies (fun _ ht => ht.snapshot) h.2) fun _ h => h.1.id) hs

/-- The start of an attempt, which makes it the latest. -/
lemma safe_startAttempt {createdSessionIds : List String} (hs : Fresh workerId s)
    (hid : worker.id = workerId) :
    (contract workerId).Safe
      (fun result s => result.2.1.id = workerId ∧ Began workerId result.2.2.1 s)
      (fun _ s => Fresh workerId s)
      (Execution.startAttempt worker strategy createdSessionIds) s := by
  have hkeeps : ∀ (s : StartRecord) (call : Call) (answer : call.request.Answer)
      (stored : Option Run), call.Spares workerId WorkerTransition.KeepsResult →
        Fresh workerId s → call.request.Responds s.1 answer stored →
          Fresh workerId (stored, s.2 ++ [⟨(), call, answer⟩]) :=
    fun _ call _ _ hcall hs => hs.of_spares call hcall
  unfold Execution.startAttempt
  refine Contract.Safe.bind (M := fun _ s => Fresh workerId s) (E := fun _ s => Fresh workerId s)
    ?_ (fun promptId s hs => ?_) fun _ _ h => h
  · refine (safe_of_spares (Q := fun _ => True) (fun _ h => h) hkeeps ?_ hs).mono (fun _ _ h => h.2)
      fun _ _ h => h
    cases strategy with
    | sessionMessage => exact ⟨.of_eq_none rfl, fun _ => trivial⟩
    | legacyRunReply => trivial
  refine (safe_of_spares (fun _ h => h) hkeeps
    (Command.within_clock (Q := fun _ => True) (.of_eq_none rfl) fun _ => trivial) hs).bind
    (fun startedAt s hs => ?_) fun _ _ h => h
  dsimp only
  -- from here on only the payload of the transition and its worker matter
  generalize htransition : ({ workerId := worker.id
                              payload := .attemptStarted (Execution.attemptRecord worker startedAt
                                createdSessionIds promptId) } : WorkerTransition) = transition
  have hpayload : transition.payload = .attemptStarted (Execution.attemptRecord worker startedAt
      createdSessionIds promptId) := by rw [← htransition]
  have hworker : transition.workerId = workerId := by rw [← htransition, hid]
  have hnext : (Execution.attemptRecord worker startedAt createdSessionIds promptId).get "id" =
      .str worker.nextAttemptId := by
    rw [WorkerRecord.nextAttemptId_eq]
    exact get_id_newAttemptRecord worker startedAt createdSessionIds _
  have hstarts : startsAttempt transition = true := by
    rw [startsAttempt, hpayload]
  refine Contract.safe_bind_iff.2 (Contract.safe_bind_iff.2 (Command.safe_persist_alone
    fun answer stored hupdates hcond => ?_))
  -- the condition on the start of an attempt: the worker has no result yet
  have hclear : (latestOf workerId s.1).result = none :=
    hcond _ rfl transition (List.mem_singleton_self _) hworker hstarts
  have hbegan : answer.written = true → Began workerId worker.nextAttemptId
      (stored, s.2 ++ [⟨(), ⟨.starting worker.id.value, .updateRun
        (.applyTransitions [transition])⟩, answer⟩]) := by
    intro hwritten
    refine ⟨?_, [], s.2, _, rfl, ?_, by simp⟩
    · rcases latestOf_of_updates (by simp [hpayload]) hworker hupdates with hstored | hlatest
      · exact hstored ▸ hclear
      · exact (congrArg WorkerRecord.result hlatest).trans
          ((WorkerRecord.result_reduce (by simp [hpayload]) (by simp [hpayload])).trans hclear)
    · rw [startedIds_of_started hpayload hworker hwritten, hnext]
  cases answer with
  | committed now seen saved =>
    refine ⟨(hbegan rfl).fresh, ?_, hbegan rfl⟩
    show ((saved.workers.get? transition.workerId.value).getD worker).id = workerId
    rw [hworker, ← hid]
    exact WorkerMap.id_getD_get? worker
  | lost error => exact ⟨(hbegan rfl).fresh, (hbegan rfl).fresh⟩
  | rejected error =>
    have hfresh : Fresh workerId (stored, s.2 ++ [⟨(), ⟨.starting worker.id.value, .updateRun
        (.applyTransitions [transition])⟩, UpdateAnswer.rejected error⟩]) := by
      intro json hjson
      rw [hupdates.stored_of_rejected, hclear] at hjson
      cases hjson
    exact ⟨hfresh, hfresh⟩

lemma ne_completed_of_classified {error : PyError} {attempt : WorkerAttemptOutcome}
    (promptId : Option String) (h : classifyWorkerAttemptException worker error = some attempt)
    (result : ExecutionResult) : Execution.withPromptId promptId attempt ≠ .completed result := by
  have hne : ∀ result, attempt ≠ .completed result := by
    rintro result rfl
    cases error <;> simp [classifyWorkerAttemptException] at h
  cases attempt with
  | completed completed => exact absurd rfl (hne completed)
  | failed category reason ownPromptId => simp [Execution.withPromptId]

/-- Sending the prompt of an attempt that has begun. -/
lemma safe_executeSingleWorkerAttempt {prompt : String} {promptId : Option String}
    (hid : worker.id = workerId) (hs : Began workerId attemptId s) :
    (contract workerId).Safe (fun outcome s => Ended workerId attemptId outcome s)
      (fun _ s => Fresh workerId s)
      (Execution.executeSingleWorkerAttempt worker attemptId prompt promptId) s := by
  have hkeeps : ∀ (s : StartRecord) (call : Call) (answer : call.request.Answer)
      (stored : Option Run), call.Spares workerId WorkerTransition.KeepsResult →
        Began workerId attemptId s → call.request.Responds s.1 answer stored →
          Began workerId attemptId (stored, s.2 ++ [⟨(), call, answer⟩]) :=
    fun _ call _ _ hcall hs => hs.of_spares call hcall
  have hrequire : (Execution.requireTime (.prompting worker.id.value attemptId)
      worker.timeoutSeconds).Within (Call.Spares workerId WorkerTransition.KeepsResult)
        fun _ => True := by
    unfold Execution.requireTime
    split
    · trivial
    · refine ⟨.of_eq_none rfl, fun inTime => ?_⟩
      cases inTime <;> trivial
  -- what the prompt returns is the answer to the attempt that has begun
  have hcall : (contract workerId).Safe
      (fun result s => Began workerId attemptId s ∧ Returned workerId result.toJson s.2)
      (fun _ s => Began workerId attemptId s)
      (Execution.callWorkerWithDeadline worker attemptId prompt promptId) s := by
    refine Contract.safe_tryCatch_iff.2 ((safe_of_spares (fun _ h => h.fresh) hkeeps hrequire hs).bind
      (fun _ s hs => ?_) fun error s hs => ?_)
    · refine Contract.safe_call_alone fun answer stored hanswer _ => ?_
      have hbegan := hkeeps s ⟨.prompting worker.id.value attemptId, .executePrompt _⟩ answer stored
        (.of_eq_none rfl) hs.2 hanswer
      refine ⟨hbegan.fresh, ?_⟩
      cases answer with
      | error error =>
        show (contract workerId).Safe _ _ (if Execution.isTimeoutExpired error = true then _ else _) _
        split_ifs
        · exact hbegan
        · exact hbegan
      | ok result =>
        obtain ⟨since, hlatest⟩ := hs.2.latest
        exact ⟨hbegan, attemptId, _, result, hlatest.append rfl, ⟨_, List.mem_append_right _
          (List.mem_singleton_self _), _, by rw [hid]⟩, rfl⟩
    · show (contract workerId).Safe _ _ (if Execution.isTimeoutExpired error = true then _ else _) _
      split_ifs
      · exact hs
      · exact hs
  unfold Execution.executeSingleWorkerAttempt
  rw [map_eq_pure_bind]
  refine Contract.safe_tryCatch_iff.2 (hcall.bind (fun result s hs => ?_) fun error s hs => ?_)
  · refine ⟨hs.1, fun result' heq => ?_⟩
    cases heq
    exact hs.2
  · cases hclassified : classifyWorkerAttemptException worker error with
    | none => exact hs.fresh
    | some attempt =>
      exact ⟨hs, fun result heq =>
        absurd heq (ne_completed_of_classified promptId hclassified result)⟩

/-- Recording the outcome stores what the attempt has returned, or leaves no result. -/
lemma safe_recordOutcome {outcome : WorkerAttemptOutcome} {createdSessionIds : List String}
    (hid : worker.id = workerId) (hs : Ended workerId attemptId outcome s) :
    (contract workerId).Safe (fun _ s => Fresh workerId s) (fun _ s => Fresh workerId s)
      (Execution.recordOutcome worker attemptId outcome createdSessionIds) s := by
  have hclock : ∀ {s}, Ended workerId attemptId outcome s → (contract workerId).Safe
      (fun _ s => True ∧ Ended workerId attemptId outcome s)
      (fun _ s => Ended workerId attemptId outcome s)
      (Command.clock (.recording worker.id.value)) s :=
    safe_of_spares (fun _ h => h.fresh) (fun _ call _ _ hcall hs => hs.of_spares call hcall)
      (Command.within_clock (.of_eq_none rfl) fun _ => trivial)
  unfold Execution.recordOutcome
  refine Contract.Safe.bind (M := fun _ s => Ended workerId attemptId outcome s)
    (E := fun _ s => Fresh workerId s) ?_ (fun now s hs => ?_) fun _ _ h => h
  · split_ifs
    · exact (hclock hs).mono (fun _ _ h => h.2) fun _ _ h => h.fresh
    · exact hs
  -- the outcome is computed before it is persisted, so only the persist is left
  refine (hclock hs).bind (fun finishedAt s hended => ?_) fun _ _ h => h.fresh
  obtain ⟨-, hs⟩ := hended
  have heffect := attemptEffect worker outcome now
  have hrecorded : (applyWorkerAttemptTransition worker outcome now).workerTransition.workerId =
      workerId := applyWorkerAttemptTransition_workerId.trans hid
  dsimp only
  generalize applyWorkerAttemptTransition worker outcome now = applied at heffect hrecorded ⊢
  refine Contract.safe_bind_iff.2 (Contract.safe_bind_iff.2 (Command.safe_persist_alone
    fun answer stored hupdates _ => ?_))
  have hfresh : Fresh workerId (stored, s.2 ++ [⟨(), ⟨.recording worker.id.value, .updateRun
      (.applyTransitions [applied.workerTransition.withFinalizedAttempt (.str attemptId)
        (attemptFinalizationFields applied outcome finishedAt)])⟩, answer⟩]) := by
    generalize htransition : applied.workerTransition.withFinalizedAttempt (.str attemptId)
      (attemptFinalizationFields applied outcome finishedAt) = transition at hupdates ⊢
    have hpayload : transition.payload = applied.workerTransition.payload := by rw [← htransition]; rfl
    have hworker : transition.workerId = workerId := by rw [← htransition]; exact hrecorded
    rw [← hpayload] at heffect
    -- either the transition keeps the result, or it stores what the attempt has returned
    rcases WorkerTransition.keepsResult_or_of_effect heffect with
      hkeeps | ⟨result, promptIds, startedAt, happlied, hcompleted⟩
    · have hspares : Call.Spares workerId WorkerTransition.KeepsResult ⟨.recording worker.id.value,
          .updateRun (.applyTransitions [transition])⟩ :=
        .of_applies (fun _ h => h.snapshot) (Call.applies_updateRun fun t ht => by
          rwa [List.mem_singleton.1 ht])
      exact (hs.toBegan.of_spares _ hspares hupdates).fresh
    · intro json hjson
      have hreturned : Returned workerId result.toJson (s.2 ++ [⟨(), ⟨.recording worker.id.value,
          .updateRun (.applyTransitions [transition])⟩, answer⟩]) := by
        refine (hs.returned result hcompleted).append (startedIds_of_forall fun t ht => ?_)
        obtain ⟨-, transitions, hrequest, hmem⟩ := mem_written ht
        cases hrequest
        rw [List.mem_singleton.1 hmem, startsAttempt, happlied]
      rcases latestOf_of_updates (by simp [happlied]) hworker hupdates with hstored | hlatest
      · rw [hstored, hs.clear] at hjson
        cases hjson
      · rw [hlatest] at hjson
        rcases WorkerRecord.result_reduce_resultApplied (latestOf workerId s.1) happlied with
          hresult | hresult
        · rw [hresult, hs.clear] at hjson
          cases hjson
        · obtain rfl := Option.some.inj (hresult.symm.trans hjson)
          exact hreturned
  refine ⟨hfresh, ?_⟩
  cases answer with
  | committed now seen saved => exact hfresh
  | rejected error => exact hfresh
  | lost error => exact hfresh

theorem commandRule (workerId : WorkerId) :
    CommandRule (StartsClear workerId) (Fresh workerId) (Fresh workerId) workerId
      WorkerTransition.KeepsResult where
  holds_of_idle _ h := h
  snapshot _ h := h.snapshot
  outside _ h := h.keepsResult
  spares _ call _ _ hspares h hanswer _ := h.of_spares call hspares hanswer
  recovered datetime now recoveries run s phase answer stored hrecoveries h hrun hupdates := by
    refine h.of_spares ⟨phase, .updateRun _⟩ (.of_applies (fun _ ht => ht.snapshot)
      (Call.applies_updateRun fun t ht => ?_)) hupdates
    obtain ⟨recovery, hrecovery, rfl⟩ := List.mem_map.1 ht
    obtain ⟨worker, -, attempt, -, rfl⟩ := Flow.mem_recoveries hrecoveries hrecovery
    have heffect : AttemptEffect worker (.failed .timeout worker.timeoutReason none)
        (timeoutActiveAttempt worker attempt now).transition.payload _ := attemptEffect _ _ _
    rcases WorkerTransition.keepsResult_or_of_effect heffect with hkeeps | ⟨_, _, _, _, hcompleted⟩
    · exact hkeeps
    · cases hcompleted
  attempt s run worker prompt strategy agent model cleanupRequested h hrun hget hexec hid := by
    unfold Execution.execute
    refine (safe_provisionSession h hid).bind (fun provisioned s hs => ?_) fun _ _ h => h
    refine (safe_activate hs.2 hs.1).bind (fun active s hs => ?_) fun _ _ h => h
    refine (safe_startAttempt hs.2 hs.1).bind (fun started s hs => ?_) fun _ _ h => h
    exact (safe_executeSingleWorkerAttempt hs.1 hs.2).bind
      (fun outcome s hended => safe_recordOutcome hs.1 hended) fun _ _ h => h

end

/-! ## Collecting results -/

/-- What is collected is stored, with a result. -/
lemma of_mem_collectResults {name : String} {selected : Option String} {workers : List WorkerRecord}
    (h : Commands.collectResults name run selected = .ok workers) (hmem : worker ∈ workers) :
    run.latestWorker worker.id = worker ∧ worker.hasResult = true := by
  have hworker : ∀ {id : String} {worker : WorkerRecord},
      Commands.workerResult run id = .ok worker →
        run.latestWorker worker.id = worker ∧ worker.hasResult = true := by
    intro id worker hworker
    unfold Commands.workerResult at hworker
    split at hworker
    · cases hworker
    · next found hget =>
      split_ifs at hworker with hresult
      · cases hworker
        exact ⟨Run.latestWorker_of_get? ((WorkerMap.id_of_get? hget).symm ▸ hget), hresult⟩
  unfold Commands.collectResults at h
  split at h
  · obtain ⟨found, hfound, hworkers⟩ := Except.bind_eq_ok.1 h
    cases hworkers
    rw [List.mem_singleton.1 hmem]
    exact hworker hfound
  · obtain ⟨found, hfound, hworkers⟩ := Except.bind_eq_ok.1 h
    cases hworkers
    rw [List.mem_singleton.1 hmem]
    exact hworker hfound
  · dsimp only at h
    split_ifs at h
    cases h
    obtain ⟨hfound, hresult⟩ := List.mem_filter.1 hmem
    obtain ⟨id, -, hget⟩ := List.mem_filterMap.1 hfound
    exact ⟨Run.latestWorker_of_get? ((WorkerMap.id_of_get? hget).symm ▸ hget), hresult⟩

/-- Where an attempt starts although the worker has a result, the result is not that of the latest
attempt. -/
theorem not_fresh_of_started {phase : Phase} {attempt : JsonValue} {answer : UpdateAnswer}
    (hpayload : transition.payload = .attemptStarted attempt) (hid : transition.workerId = workerId)
    (hresult : (latestOf workerId s.1).result ≠ none)
    (hupdates : Updates (RunMutation.applyTransitions [transition]).apply s.1 answer stored)
    (hwritten : answer.written = true) :
    ¬ Fresh workerId (stored, s.2 ++ [⟨(), ⟨phase, .updateRun (.applyTransitions [transition])⟩,
      answer⟩]) := by
  intro hfresh
  obtain ⟨json, hjson⟩ := Option.ne_none_iff_exists'.1 hresult
  have hafter : (latestOf workerId stored).result = some json := by
    rcases latestOf_of_updates (by simp [hpayload]) hid hupdates with hstored | hlatest
    · rwa [hstored]
    · rw [hlatest, WorkerRecord.result_reduce (by simp [hpayload]) (by simp [hpayload]), hjson]
  obtain ⟨attemptId, since, result, ⟨front, start, hevents, -, hsince⟩, ⟨e, he, -⟩, -⟩ :=
    hfresh json hafter
  -- the last event starts an attempt, so nothing follows the latest start
  have hlast : since = [] := by
    by_contra hne
    have hsplit := List.dropLast_append_getLast hne
    rw [← hsplit, ← List.cons_append, ← List.append_assoc] at hevents
    have hend := (List.append_inj' hevents rfl).2
    have hnone := hsince _ (List.getLast_mem hne)
    rw [← List.singleton_inj.1 hend, startedIds_of_started hpayload hid hwritten] at hnone
    cases hnone
  rw [hlast] at he
  cases he

/-- Any commands on one run, each of which may be killed: if attempts of a worker start only while
it has no result, then its result was returned by its latest attempt, in every state, and so is what
`run collect` prints of it. -/
theorem fresh_of_runs (workerId : WorkerId) (commands : List (RunCommand × Nat)) (start : Option Run)
    (hstart : (latestOf workerId start).result = none) (events : List (Event storeInterface Unit))
    (c : Config storeInterface PyError Unit Unit StartRecord)
    (hrun : Runs (fun c e c' => Config.Fires (storeSurroundings Unit).recording c e c' ∧
        StartsClear workerId c.state e.op)
      ⟨(start, []), fun _ => interruptedSequence commands⟩ events c) :
    (∀ json, (latestOf workerId c.state.1).result = some json → Returned workerId json events) ∧
    ∀ run name selected workers, c.state.1 = some run →
      Commands.collectResults name run selected = .ok workers → ∀ worker ∈ workers,
        worker.id = workerId → ∃ json, worker.result = some json ∧ Returned workerId json events := by
  have hbegin : Fresh workerId (start, []) := by
    intro json hjson
    rw [hstart] at hjson
    cases hjson
  have hfresh : Fresh workerId c.state :=
    Contract.holds_of_alone ((commandRule workerId).safe_interruptedSequence (fun _ h => h) commands
      hbegin) hbegin hrun
  have hrecord : c.state.2 = events := Contract.record_of_runs hrun
  rw [Fresh, hrecord] at hfresh
  refine ⟨hfresh, ?_⟩
  rintro run name selected workers hstored hcollected worker hmem rfl
  obtain ⟨hlatest, hresult⟩ := of_mem_collectResults hcollected hmem
  cases hjson : worker.result with
  | none =>
    rw [WorkerRecord.hasResult, hjson] at hresult
    cases hresult
  | some json =>
    refine ⟨json, rfl, hfresh json ?_⟩
    rw [hstored]
    exact (congrArg WorkerRecord.result hlatest).trans hjson

/-! ## A worker that is requeued -/

/-- A server that has an answer to one prompt only. -/
def onceServer : ScriptedServer where
  createdSession := "ses_1"
  execute execution :=
    if execution.prompt = "work" then .ok { status := "done", assistantMessageId := some "msg_1" }
    else .error (.openCodeApi "no answer" (some 500) "POST" "/session")
  readable _ := true
  sessionNonempty := ScriptedServer.nonempty_ses_1

/-- Two starts that are not killed, each with a prompt for the same worker. -/
def promptedTwice : List (RunCommand × Nat) :=
  ["work", "again"].map fun prompt =>
    (.start .unreadable 2 { name := "demo", prompt := some prompt, start := { workerId := "a" } }, 40)

/-- The two starts, of which a number is executed. -/
def prompted (number : Nat) : Config storeInterface PyError Unit Unit StartRecord where
  state := (some (Run.new "demo" "/" ""), [])
  program _ := interruptedSequence (promptedTwice.take number)

/-- Attempts of a worker that has a result are not allowed. -/
def allowClear (workerId : WorkerId) (s : StartRecord) : Call → Bool
  | ⟨_, .updateRun (.applyTransitions transitions)⟩ =>
    (latestOf workerId s.1).result.isNone || transitions.all fun transition =>
      transition.workerId ≠ workerId || !startsAttempt transition
  | _ => true

lemma startsClear_of_allowClear (h : allowClear workerId s call = true) :
    StartsClear workerId s call := by
  obtain ⟨phase, request⟩ := call
  intro mutation hmutation t ht hid hstarts
  have hpayload : (∃ abort, t.payload = .aborted abort) ∨
      (∃ startedAt clear, t.payload = .active startedAt clear) ∨
      (∃ blockers, t.payload = .dependencyBlocked blockers) → False := by
    unfold startsAttempt at hstarts
    rintro (⟨abort, heq⟩ | ⟨startedAt, clear, heq⟩ | ⟨blockers, heq⟩)
    · simp [heq] at hstarts
    · simp [heq] at hstarts
    · simp [heq] at hstarts
  cases request with
  | updateRun mutation' =>
    cases hmutation
    cases mutation with
    | applyTransitions transitions =>
      rcases Bool.or_eq_true _ _ ▸ h with hnone | hall
      · exact Option.isNone_iff_eq_none.1 hnone
      · have hone := List.all_eq_true.1 hall t ht
        simp [hid, hstarts] at hone
    | journal field mutation => exact (hpayload (.inl ht.2.1)).elim
    | upsertWorkerStatus id changes status => exact (hpayload (.inr ht.1)).elim
    | _ => exact ht.elim
  | _ => cases hmutation

theorem fresh_prompted :
    ∃ events, ∃ c : Config storeInterface PyError Unit Unit StartRecord,
      Runs (fun c e c' => Config.Fires (storeSurroundings Unit).recording c e c' ∧
        StartsClear ⟨"a", by decide⟩ c.state e.op) (prompted 1) events c ∧
      ∃ json, (latestOf ⟨"a", by decide⟩ c.state.1).result = some json ∧
        Returned ⟨"a", by decide⟩ json events := by
  have hplay : ((prompted 1).play (onceServer.turns (allowClear ⟨"a", by decide⟩) 23)).map
      (fun result => (latestOf ⟨"a", by decide⟩ result.2.state.1).result.isSome) = some true := by
    decide +kernel
  obtain ⟨⟨events, c⟩, hplayed, hresult⟩ := Option.map_eq_some_iff.1 hplay
  have hrun := ScriptedServer.runs_of_play (fun _ _ => startsClear_of_allowClear) hplayed
  obtain ⟨json, hjson⟩ := Option.isSome_iff_exists.1 hresult
  exact ⟨events, c, hrun, json, hjson, (fresh_of_runs ⟨"a", by decide⟩ (promptedTwice.take 1) _ rfl
    events c hrun).1 json hjson⟩

/-- Whether an event brings a result. -/
def isAnswer : Event storeInterface Unit → Bool
  | ⟨_, ⟨_, .executePrompt _⟩, .ok _⟩ => true
  | _ => false

/-- Whether there is a result since the latest attempt of a worker was started. -/
def answeredSince (workerId : WorkerId) (events : List (Event storeInterface Unit)) : Bool :=
  (events.reverse.takeWhile fun e => (startedIds workerId e).isEmpty).any isAnswer

lemma answeredSince_of_returned (h : Returned workerId json events) :
    answeredSince workerId events = true := by
  obtain ⟨attemptId, since, result, ⟨front, start, rfl, hstart, hsince⟩, ⟨e, he, hanswers⟩, -⟩ := h
  have hall : ∀ e ∈ since.reverse, (startedIds workerId e).isEmpty = true := fun e he => by
    rw [hsince e (List.mem_reverse.1 he)]
    rfl
  rw [answeredSince, List.reverse_append, List.reverse_cons, List.append_assoc,
    List.takeWhile_append_of_pos hall]
  refine List.any_eq_true.2 ⟨e, List.mem_append_left _ (List.mem_reverse.2 he), ?_⟩
  obtain ⟨execution, rfl⟩ := hanswers
  rfl

/-- Whether what is collected of a run is a failed worker. -/
def collectsFailed (stored : Option Run) : Bool :=
  match stored.map (Commands.collectResults "demo" · none) with
  | some (.ok [worker]) =>
    worker.id.value = "a" && (worker.status = .failed && worker.result.isSome)
  | _ => false

lemma exists_of_collectsFailed (h : collectsFailed stored = true) :
    ∃ run worker json, stored = some run ∧
      Commands.collectResults "demo" run none = .ok [worker] ∧ worker.id = ⟨"a", by decide⟩ ∧
      worker.status = .failed ∧ worker.result = some json := by
  unfold collectsFailed at h
  split at h
  · next worker heq =>
    obtain ⟨run, rfl, hcollected⟩ := Option.map_eq_some_iff.1 heq
    simp only [Bool.and_eq_true, decide_eq_true_eq] at h
    obtain ⟨hid, hstatus, hresult⟩ := h
    obtain ⟨json, hjson⟩ := Option.isSome_iff_exists.1 hresult
    exact ⟨run, worker, json, rfl, hcollected, WorkerId.ext hid, hstatus, hjson⟩
  · cases h

/-- The second start requeues the worker, and its attempt fails: the answer to the first prompt is
still collected, although it is not that of the latest attempt. -/
theorem not_fresh_requeued :
    ∃ events, ∃ c : Config storeInterface PyError Unit Unit StartRecord,
      Runs (Config.Fires (storeSurroundings Unit).recording) (prompted 2) events c ∧
      ∃ run worker json, c.state.1 = some run ∧
        Commands.collectResults "demo" run none = .ok [worker] ∧ worker.status = .failed ∧
        worker.result = some json ∧ ¬ Returned worker.id json events := by
  have hplay : ((prompted 2).play (onceServer.turns (fun _ _ => true) 39)).map
      (fun result => (collectsFailed result.2.state.1, answeredSince ⟨"a", by decide⟩ result.1)) =
        some (true, false) := by
    decide +kernel
  obtain ⟨⟨events, c⟩, hplayed, hends⟩ := Option.map_eq_some_iff.1 hplay
  obtain ⟨hfailed, hanswered⟩ := Prod.ext_iff.1 hends
  have hrun := ScriptedServer.runs_of_play (fun _ _ _ => trivial) hplayed
  obtain ⟨run, worker, json, hstored, hcollected, hid, hstatus, hjson⟩ :=
    exists_of_collectsFailed hfailed
  refine ⟨events, c, hrun.mono fun _ _ _ h => h.1, run, worker, json, hstored, hcollected, hstatus,
    hjson, fun hreturned => ?_⟩
  rw [hid] at hreturned
  exact Bool.false_ne_true (hanswered.symm.trans (answeredSince_of_returned hreturned))

end ResultFreshness

end OpencodeSession
