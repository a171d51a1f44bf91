import OpencodeSession.Worker.Attempt
import OpencodeSession.Worker.TransitionFacts

/-!
# Where an attempt leaves its worker

Every outcome of an attempt may be recorded for a worker that waits for it.  Two of them leave the
worker executable: a failure with a retry left, which uses the retry up, and a time-out of a worker
whose policy keeps it retryable, which does not.

`AttemptEffect` lists the payloads that the policy makes of an outcome, with the errors it reports,
and everything else about outcomes is proved from that list.

The attempts of a worker are a log.  They are `Numbered` as long as each is made from the worker
that it is added to, and then no attempt is dropped for its identifier, and the finalisation of the
last one changes no other.
-/

namespace OpencodeSession

/-- A worker that can be marked as failed for good is not done. -/
lemma WorkerRecord.status_reduce_markFailed (latest worker : WorkerRecord)
    (category reason : String) :
    (latest.reduce (worker.markFailed category reason false)).status ≠ .done := by
  have hsnapshot : ∀ patch, (worker.markFailed category reason false).payload ≠
      .snapshotApplied patch := by
    intro patch
    simp [markFailed]
  cases haborted : latest.acceptedAbort with
  | true =>
    have hstatus := (acceptedAbort_iff.1 (acceptedAbort_reduce hsnapshot haborted)).2
    rw [status, hstatus]
    decide
  | false =>
    have htarget : (worker.markFailed category reason false).payload.targetState =
        some (workerFailedLifecycleState false (worker.retryAvailable (some category))) := by
      simp only [markFailed, TransitionPayload.targetState]
    rw [status, lifecycleState_reduce hsnapshot haborted,
      TransitionPayload.leaves_eq_of_targetState (by simp [markFailed]) htarget,
      workerFailedLifecycleState_eq, Bool.false_and, if_neg Bool.false_ne_true]
    decide

section

variable {worker : WorkerRecord} {attempt : WorkerAttemptOutcome} {now : String}
  {payload : TransitionPayload} {error : Option String} {source : LifecycleState}

lemma scheduleRetry_eq_some {category reason : String} {promptIds : List (Option String)}
    {transition : WorkerTransition}
    (h : worker.scheduleRetry category reason promptIds = some transition) :
    worker.retryCount < worker.retryLimit ∧ transition =
      { workerId := worker.id
        payload := .retryScheduled category reason (worker.retryCount + 1)
          worker.timeoutStartedAtOrUnset (filteredPromptIds promptIds) } := by
  unfold WorkerRecord.scheduleRetry at h
  split_ifs at h with havailable
  exact ⟨WorkerRecord.retryCount_lt_of_retryAvailable havailable, (Option.some.inj h).symm⟩

lemma retryAvailable_of_scheduleRetry_eq_none {category reason : String}
    {promptIds : List (Option String)}
    (h : worker.scheduleRetry category reason promptIds = none) :
    worker.retryAvailable (some category) = false := by
  unfold WorkerRecord.scheduleRetry at h
  split_ifs at h with havailable
  exact Bool.eq_false_iff.2 havailable

/-- What the policy makes of an outcome: a result, a time-out, a retry that is left, or a terminal
failure. -/
inductive AttemptEffect (worker : WorkerRecord) (attempt : WorkerAttemptOutcome) :
    TransitionPayload → Option String → Prop where
  | result (result : ExecutionResult) (ids : List String) (startedAt : Option JsonValue)
      (hcompleted : attempt = .completed result) :
      AttemptEffect worker attempt (.resultApplied result ids startedAt) none
  | timeout (reason error : String) (timedOutAt : JsonValue) (startedAt : Option JsonValue)
      (htimeout : attempt.isTimeout = true) :
      AttemptEffect worker attempt (.timedOut reason worker.timeoutPolicy timedOutAt
        (worker.retryAvailable (some "timeout")) (worker.retryAvailable (some "timeout"))
        startedAt) (some error)
  | retry (category reason : String) (ids : List String) (startedAt : Option JsonValue)
      (hlt : worker.retryCount < worker.retryLimit) :
      AttemptEffect worker attempt (.retryScheduled category reason (worker.retryCount + 1)
        startedAt ids) none
  | failure (category reason error : String) (ids : List String)
      (startedAt : Option JsonValue) :
      AttemptEffect worker attempt (.failed category reason true false startedAt ids) (some error)

lemma attemptEffect_applyRetryableAttemptFailure (worker : WorkerRecord)
    (attempt : WorkerAttemptOutcome) (category : FailureCategory) (reason errorPrefix : String)
    (promptIds : List (Option String)) :
    AttemptEffect worker attempt
      (applyRetryableAttemptFailure worker category reason errorPrefix
        promptIds).workerTransition.payload
      (applyRetryableAttemptFailure worker category reason errorPrefix promptIds).error := by
  unfold applyRetryableAttemptFailure
  cases h : worker.scheduleRetry category.name reason promptIds with
  | some transition =>
    obtain ⟨hlt, rfl⟩ := scheduleRetry_eq_some h
    exact .retry _ _ _ _ hlt
  | none =>
    dsimp only
    rw [WorkerRecord.markFailed, retryAvailable_of_scheduleRetry_eq_none h]
    exact .failure _ _ _ _ _

theorem attemptEffect (worker : WorkerRecord) (attempt : WorkerAttemptOutcome) (now : String) :
    AttemptEffect worker attempt
      (applyWorkerAttemptTransition worker attempt now).workerTransition.payload
      (applyWorkerAttemptTransition worker attempt now).error := by
  cases attempt with
  | completed result => exact .result _ _ _ rfl
  | failed category reason promptId =>
    cases category with
    | timeout => exact .timeout _ _ _ _ rfl
    | api => exact attemptEffect_applyRetryableAttemptFailure _ _ _ _ _ _
    | provider => exact attemptEffect_applyRetryableAttemptFailure _ _ _ _ _ _

lemma applyWorkerAttemptTransition_workerId :
    (applyWorkerAttemptTransition worker attempt now).workerTransition.workerId = worker.id := by
  have hretryable : ∀ category reason errorPrefix promptIds,
      (applyRetryableAttemptFailure worker category reason errorPrefix
        promptIds).workerTransition.workerId = worker.id := by
    intro category reason errorPrefix promptIds
    unfold applyRetryableAttemptFailure
    cases h : worker.scheduleRetry category.name reason promptIds with
    | some transition =>
      obtain ⟨-, rfl⟩ := scheduleRetry_eq_some h
      rfl
    | none => rfl
  cases attempt with
  | completed result => rfl
  | failed category reason promptId => cases category <;> first | rfl | exact hretryable _ _ _ _

namespace AttemptEffect

variable (h : AttemptEffect worker attempt payload error)
include h

lemma ne_snapshotApplied (patch : SnapshotPatch) : payload ≠ .snapshotApplied patch := by
  cases h <;> nofun

lemma ne_attemptStarted (attempt : JsonValue) : payload ≠ .attemptStarted attempt := by
  cases h <;> nofun

/-- Every outcome may be recorded for a worker that waits for it. -/
lemma legal {transition : WorkerTransition} (hpayload : transition.payload = payload)
    {latest : WorkerRecord}
    (hlatest : latest.lifecycleState = .activeWait ∨ latest.acceptedAbort = true) :
    latest.transitionIsLegal transition = true := by
  rw [WorkerRecord.transitionIsLegal, hpayload, Bool.or_eq_true, decide_eq_true_iff]
  rcases hlatest with hstate | haborted
  · right
    rw [hstate]
    cases h <;> simp [TransitionPayload.sourceStates, TransitionPayload.specSourceStates]
  · left
    cases h <;> simp [WorkerRecord.acceptedAbortApplies, haborted,
      TransitionPayload.publicLifecycleTransition]

end AttemptEffect

end

/-! ## Logs of attempts -/

/-- The identifier of the attempt in a place, counted from one. -/
def attemptId (n : Nat) : String := s!"attempt-{n}"

lemma attemptId_injective : Function.Injective attemptId := by
  intro m n h
  have hrepr : m.repr = n.repr := by
    have h' : "attempt-" ++ m.repr = "attempt-" ++ n.repr := h
    simpa using h'
  have hdigits : Nat.toDigits 10 m = Nat.toDigits 10 n := by
    rw [← Nat.toList_repr, ← Nat.toList_repr, hrepr]
  have hvalue := congrArg (Nat.ofDigitChars 10 · 0) hdigits
  simpa using hvalue

lemma WorkerRecord.nextAttemptId_eq (worker : WorkerRecord) :
    worker.nextAttemptId = attemptId (worker.attemptList.length + 1) := rfl

/-- The identifiers of the attempts count from one. -/
def Numbered (attempts : List JsonValue) : Prop :=
  attempts.map (JsonValue.get · "id") =
    (List.range attempts.length).map fun i => .str (attemptId (i + 1))

/-- Whether an attempt is over: it has one of the final statuses and a time of its end. -/
def isFinalized (attempt : JsonValue) : Bool :=
  [AttemptKind.completed, .retryScheduled, .terminalFailure].any (fun kind =>
    (attempt.get "status").pyEq (.str kind.statusName)) &&
  match attempt.get "finished_at" with
  | .str _ => true
  | _ => false

namespace Numbered

variable {attempts front : List JsonValue} {attempt last last' : JsonValue}

lemma nil : Numbered [] := rfl

lemma get_id (h : Numbered attempts) {i : Nat} (hi : attempts[i]? = some attempt) :
    attempt.get "id" = .str (attemptId (i + 1)) := by
  have hlt : i < attempts.length := (List.getElem?_eq_some_iff.1 hi).1
  have hmap : (attempts.map (JsonValue.get · "id"))[i]? = some (attempt.get "id") := by
    rw [List.getElem?_map, hi, Option.map_some]
  rw [h, List.getElem?_map, List.getElem?_range hlt, Option.map_some] at hmap
  exact (Option.some.inj hmap).symm

lemma isObj (h : Numbered attempts) (hmem : attempt ∈ attempts) : attempt.isObj = true := by
  obtain ⟨i, hi⟩ := List.mem_iff_getElem?.1 hmem
  have hid := h.get_id hi
  cases attempt with
  | obj fields => rfl
  | _ => cases hid

lemma pyEq_id (h : Numbered attempts) {i n : Nat} (hi : attempts[i]? = some attempt) :
    (attempt.get "id").pyEq (.str (attemptId (n + 1))) = decide (i = n) := by
  rw [h.get_id hi, Bool.eq_iff_iff, JsonValue.pyEq_str, decide_eq_true_iff]
  constructor
  · intro heq
    have hid := attemptId_injective (JsonValue.str.inj heq)
    omega
  · rintro rfl
    rfl

/-- No attempt has the identifier of the next one. -/
lemma any_eq_false (h : Numbered attempts) :
    (attempts.any fun existing =>
      existing.isObj && (existing.get "id").pyEq (.str (attemptId (attempts.length + 1)))) =
        false := by
  rw [List.any_eq_false]
  intro existing hmem
  obtain ⟨i, hi⟩ := List.mem_iff_getElem?.1 hmem
  have hlt : i < attempts.length := (List.getElem?_eq_some_iff.1 hi).1
  rw [h.pyEq_id hi, decide_eq_false hlt.ne, Bool.and_false]
  exact Bool.false_ne_true

lemma append (h : Numbered attempts)
    (hid : attempt.get "id" = .str (attemptId (attempts.length + 1))) :
    Numbered (attempts ++ [attempt]) := by
  unfold Numbered at h ⊢
  rw [List.map_append, h, List.length_append, List.length_singleton, List.range_succ,
    List.map_append, List.map_singleton, List.map_singleton, hid]

lemma set_last (h : Numbered (front ++ [last])) (hid : last'.get "id" = last.get "id") :
    Numbered (front ++ [last']) := by
  unfold Numbered at h ⊢
  rw [List.map_append, List.map_singleton, List.length_append, List.length_singleton] at h ⊢
  rw [hid, h]

/-- The finalisation of the last attempt changes no other. -/
lemma map_finalizeOne (h : Numbered (front ++ [last])) (fields : List (String × JsonValue)) :
    (front ++ [last]).map (WorkerRecord.finalizeOne (.str (attemptId (front.length + 1))) fields) =
      front ++ [.obj (Dict.update last.fields fields)] := by
  have hlast : (front ++ [last])[front.length]? = some last := by simp
  have hsame : front.map (WorkerRecord.finalizeOne (.str (attemptId (front.length + 1))) fields) =
      front := by
    refine (List.map_congr_left fun attempt hmem => ?_).trans (List.map_id front)
    obtain ⟨i, hi⟩ := List.mem_iff_getElem?.1 hmem
    have hlt : i < front.length := (List.getElem?_eq_some_iff.1 hi).1
    have hi' : (front ++ [last])[i]? = some attempt := by
      rw [List.getElem?_append_left hlt, hi]
    rw [WorkerRecord.finalizeOne, h.pyEq_id hi', decide_eq_false hlt.ne, Bool.and_false,
      if_neg Bool.false_ne_true, id]
  rw [List.map_append, hsame, List.map_singleton, WorkerRecord.finalizeOne,
    h.isObj (List.mem_of_getElem? hlast), h.pyEq_id hlast, decide_eq_true rfl, Bool.and_self,
    if_pos rfl]

end Numbered

namespace WorkerRecord

variable {worker : WorkerRecord} {front : List JsonValue} {attempt last : JsonValue}

/-- An attempt with the next identifier is added. -/
lemma attemptList_appendAttempt (h : Numbered worker.attemptList)
    (hid : attempt.get "id" = .str (attemptId (worker.attemptList.length + 1))) :
    (worker.appendAttempt attempt).attemptList = worker.attemptList ++ [attempt] := by
  have htruthy : attempt.truthy = true := by
    cases attempt with
    | obj fields =>
      cases fields with
      | nil => cases hid
      | cons => rfl
    | _ => cases hid
  rw [appendAttempt, htruthy, hid, h.any_eq_false, Bool.not_true, if_neg Bool.false_ne_true,
    if_neg Bool.false_ne_true]
  rfl

/-- The finalisation of the last attempt. -/
lemma attemptList_finalizeAttempt (h : Numbered worker.attemptList)
    (hlist : worker.attemptList = front ++ [last]) (fields : List (String × JsonValue)) :
    (worker.finalizeAttempt (.str (attemptId (front.length + 1))) fields).attemptList =
      front ++ [.obj (Dict.update last.fields fields)] := by
  rw [hlist] at h
  have hlast : (front ++ [last])[front.length]? = some last := by simp
  have hany : ((front ++ [last]).any fun attempt => attempt.isObj &&
      (attempt.get "id").pyEq (.str (attemptId (front.length + 1)))) = true := by
    refine List.any_eq_true.2 ⟨last, by simp, ?_⟩
    rw [h.isObj (List.mem_of_getElem? hlast), h.pyEq_id hlast, decide_eq_true rfl, Bool.and_self]
  have htruthy : (JsonValue.str (attemptId (front.length + 1))).truthy = true := by
    rw [JsonValue.truthy, decide_eq_true_iff]
    intro hempty
    have hchars := congrArg String.toList hempty
    simp [attemptId] at hchars
  rw [finalizeAttempt, hlist, hany, htruthy, Bool.and_self, if_pos rfl]
  exact h.map_finalizeOne fields

end WorkerRecord

lemma get_id_newAttemptRecord (worker : WorkerRecord) (startedAt : String)
    (createdSessionIds : List String) (more : List (String × JsonValue)) :
    (JsonValue.obj ((worker.newAttemptRecord startedAt createdSessionIds).fields ++ more)).get "id" =
      .str (attemptId (worker.attemptList.length + 1)) := rfl

lemma isFinalized_newAttemptRecord (worker : WorkerRecord) (startedAt : String)
    (createdSessionIds : List String) (more : List (String × JsonValue)) :
    isFinalized (.obj ((worker.newAttemptRecord startedAt createdSessionIds).fields ++ more)) =
      false := by
  rw [isFinalized]
  exact Bool.and_false _

/-- The end of an attempt sets its status, its time, and fields that are none of these. -/
lemma attemptFinalizationFields_eq (transition : WorkerAttemptTransition)
    (attempt : WorkerAttemptOutcome) (finishedAt : String) :
    ∃ more, attemptFinalizationFields transition attempt finishedAt =
        ("status", .str transition.kind.statusName) :: ("finished_at", .str finishedAt) :: more ∧
      ∀ key ∈ more.map Prod.fst, key ∉ ["id", "status", "finished_at"] := by
  have hoptional : ∀ name value key, key ∈ (optionalField name value).map Prod.fst → key = name := by
    rintro name (_ | value) key hkey
    · cases hkey
    · exact List.mem_singleton.1 hkey
  refine ⟨_, List.append_assoc [_, _] _ _, fun key hkey => ?_⟩
  rw [List.append_eq, List.nil_append, List.map_append, List.mem_append] at hkey
  rcases hkey with hkey | hkey
  · rw [WorkerAttemptTransition.failureFields, List.map_append, List.mem_append] at hkey
    rcases hkey with hkey | hkey
    · rw [hoptional _ _ _ hkey]
      decide
    · rw [hoptional _ _ _ hkey]
      decide
  · cases attempt with
    | completed result =>
      rw [List.map_cons, List.mem_cons, List.map_append, List.mem_append] at hkey
      rcases hkey with rfl | hkey | hkey
      · simp
      · rw [hoptional _ _ _ hkey]
        decide
      · rw [hoptional _ _ _ hkey]
        decide
    | failed category reason promptId =>
      rw [hoptional _ _ _ hkey]
      decide

/-- The end of an attempt leaves its identifier. -/
lemma get_id_attemptFinalizationFields (fields : List (String × JsonValue))
    (transition : WorkerAttemptTransition) (attempt : WorkerAttemptOutcome) (finishedAt : String) :
    (JsonValue.obj (Dict.update fields (attemptFinalizationFields transition attempt
      finishedAt))).get "id" = (JsonValue.obj fields).get "id" := by
  obtain ⟨more, heq, hmore⟩ := attemptFinalizationFields_eq transition attempt finishedAt
  have hid : "id" ∉ more.map Prod.fst := fun h => hmore _ h (by simp)
  have hnot : "id" ∉ (attemptFinalizationFields transition attempt finishedAt).map Prod.fst := by
    rw [heq, List.map_cons, List.map_cons, List.mem_cons, List.mem_cons]
    simp [hid]
  exact congrArg (Option.getD · JsonValue.null) (Dict.lookup_update_of_notMem hnot fields)

/-- The end of an attempt makes it over. -/
lemma isFinalized_attemptFinalizationFields (fields : List (String × JsonValue))
    (transition : WorkerAttemptTransition) (attempt : WorkerAttemptOutcome) (finishedAt : String) :
    isFinalized (.obj (Dict.update fields (attemptFinalizationFields transition attempt
      finishedAt))) = true := by
  obtain ⟨more, heq, hmore⟩ := attemptFinalizationFields_eq transition attempt finishedAt
  have hstatus : "status" ∉ (("finished_at", JsonValue.str finishedAt) :: more).map Prod.fst := by
    rw [List.map_cons, List.mem_cons, not_or]
    exact ⟨by simp, fun h => hmore _ h (by simp)⟩
  have hfinished : "finished_at" ∉ more.map Prod.fst := fun h => hmore _ h (by simp)
  have hget : ∀ name value, Dict.lookup name (Dict.update fields
      (attemptFinalizationFields transition attempt finishedAt)) = some value →
        (JsonValue.obj (Dict.update fields (attemptFinalizationFields transition attempt
          finishedAt))).get name = value :=
    fun name value h => congrArg (Option.getD · JsonValue.null) h
  rw [isFinalized, hget "status" _ (by rw [heq, Dict.lookup_update_cons hstatus]),
    hget "finished_at" _ (by rw [heq]; exact Dict.lookup_update_cons hfinished _ _)]
  cases transition.kind <;> simp [AttemptKind.statusName, JsonValue.pyEq]

/-- A worker whose attempts are all over has none to recover. -/
lemma recoverableActiveAttempt_of_finalized {worker : WorkerRecord}
    (h : ∀ attempt ∈ worker.attemptList, isFinalized attempt = true) :
    recoverableActiveAttempt worker = none := by
  unfold recoverableActiveAttempt
  split_ifs
  · refine List.find?_eq_none.2 fun attempt hmem => ?_
    have hfinal := h attempt (List.mem_reverse.1 hmem)
    rw [isFinalized, Bool.and_eq_true, List.any_eq_true] at hfinal
    obtain ⟨⟨kind, -, hstatus⟩, -⟩ := hfinal
    rw [JsonValue.pyEq_str] at hstatus
    rw [hstatus]
    cases kind <;> simp [AttemptKind.statusName, JsonValue.pyEq]
  · rfl

end OpencodeSession
