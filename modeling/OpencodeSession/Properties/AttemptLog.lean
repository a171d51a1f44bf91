import OpencodeSession.Properties.CommandRule
import OpencodeSession.Properties.StartOutcome

/-!
# The log of the attempts of a worker

Commands on one run, one after another: the attempts of a worker are what its events make of them.
The start of an attempt adds one to the log, the outcome of an attempt ends the last one, and
nothing else changes any.  Whenever a command returns, the attempts are numbered from one on, each
is over, and there are as many as were started and as many as have an outcome (`attempts_of_runs`).

The identifier of an attempt is made from the number of attempts of the worker in hand, and an
attempt whose identifier is there already is dropped.  So the invariant is that the worker in hand
is the stored one where an attempt starts (`Ready`), and that the attempt is the last one until its
outcome is recorded (`Opened`).  Recovery has nothing to do, because between two attempts each is
over (`Closed`).
-/

namespace OpencodeSession

/-- A transition that leaves the attempts of its worker alone. -/
structure WorkerTransition.KeepsAttempts (transition : WorkerTransition) : Prop where
  snapshot : ∀ patch, transition.payload ≠ .snapshotApplied patch
  attempt : ∀ attempt, transition.payload ≠ .attemptStarted attempt
  finalization : transition.attemptFinalization = none

lemma WorkerRecord.attempts_reduce_of_keeps {transition : WorkerTransition}
    (h : transition.KeepsAttempts) (latest : WorkerRecord) :
    (latest.reduce transition).attempts = latest.attempts := by
  rw [attempts_reduce h.snapshot h.attempt, h.finalization]
  rfl

lemma WorkerTransition.Outside.keepsAttempts {transition : WorkerTransition}
    (h : transition.Outside) : transition.KeepsAttempts := by
  have hpayload := h.payload
  refine ⟨fun patch heq => ?_, fun attempt heq => ?_, h.finalization⟩
  · simp [heq, TransitionPayload.isPlain] at hpayload
  · simp [heq, TransitionPayload.isPlain] at hpayload

lemma WorkerMap.id_getD_get? {workers : WorkerMap} (worker : WorkerRecord) :
    ((workers.get? worker.id.value).getD worker).id = worker.id := by
  cases hget : workers.get? worker.id.value with
  | none => rfl
  | some found => exact WorkerId.ext (WorkerMap.id_of_get? hget)

namespace AttemptLog

/-! ## What the events tell of a worker -/

/-- The transitions of a worker that an event has written. -/
def written (workerId : WorkerId) : Event storeInterface Unit → List WorkerTransition
  | ⟨_, ⟨_, .updateRun (.applyTransitions transitions)⟩, answer⟩ =>
    if UpdateAnswer.written answer then
      transitions.filter fun transition => transition.workerId = workerId
    else []
  | _ => []

/-- The transitions of a worker that some events have written. -/
def history (workerId : WorkerId) (events : List (Event storeInterface Unit)) :
    List WorkerTransition :=
  events.flatMap (written workerId)

/-- Whether a transition starts an attempt. -/
def startsAttempt (transition : WorkerTransition) : Bool :=
  match transition.payload with
  | .attemptStarted _ => true
  | _ => false

/-- Whether a transition ends an attempt. -/
def endsAttempt (transition : WorkerTransition) : Bool := transition.attemptFinalization.isSome

/-- The number of attempts of a worker that were started. -/
def started (workerId : WorkerId) (events : List (Event storeInterface Unit)) : Nat :=
  (history workerId events).countP startsAttempt

/-- The number of attempts of a worker of which the outcome was recorded. -/
def ended (workerId : WorkerId) (events : List (Event storeInterface Unit)) : Nat :=
  (history workerId events).countP endsAttempt

/-- A log whose last attempt has ended. -/
def endLast (fields : List (String × JsonValue)) (log : List JsonValue) : List JsonValue :=
  match log.getLast? with
  | some last => log.dropLast ++ [.obj (Dict.update last.fields fields)]
  | none => log

/-- What a transition makes of the log. -/
def extend (log : List JsonValue) (transition : WorkerTransition) : List JsonValue :=
  let log := match transition.payload with
    | .attemptStarted attempt => log ++ [attempt]
    | _ => log
  match transition.attemptFinalization with
  | some finalization => endLast finalization.fields log
  | none => log

/-- The log that the events of a worker make. -/
def logOf (workerId : WorkerId) (events : List (Event storeInterface Unit)) : List JsonValue :=
  (history workerId events).foldl extend []

/-- The attempts of a worker in a record. -/
def attemptsOf (workerId : WorkerId) (stored : Option Run) : List JsonValue :=
  match stored with
  | some run => (run.latestWorker workerId).attemptList
  | none => []

/-- The errors by which an attempt fails: of the server, of the provider, or of a time limit. -/
def failsAttempt : PyError → Bool
  | .openCodeApi _ _ _ _ | .openCodeApiTimeout _ | .blockingProviderFailure _ _
  | .blockingExecutionTimeout _ _ _ | .workerExecutionTimeout _ | .timeoutExpired
  | .timeoutError _ => true
  | _ => false

/-- What happens to a worker that is not interrupted: the start of an attempt is not lost to its
writer, the outcome of one is written, and a prompt fails only as attempts do. -/
def isRegular (workerId : WorkerId) : Event storeInterface Unit → Bool
  | ⟨_, ⟨.starting id, .updateRun _⟩, .lost _⟩ => id ≠ workerId.value
  | ⟨_, ⟨.recording id, .updateRun _⟩, .rejected error⟩ =>
    id ≠ workerId.value || !error.isPersistenceError
  | ⟨_, ⟨_, .executePrompt execution⟩, .error error⟩ =>
    execution.workerId ≠ workerId.value || failsAttempt error
  | _ => true

/-- All events so far are regular. -/
def Whole (workerId : WorkerId) (events : List (Event storeInterface Unit)) : Prop :=
  ∀ e ∈ events, isRegular workerId e = true

variable {workerId : WorkerId} {events : List (Event storeInterface Unit)}
  {e : Event storeInterface Unit} {transition : WorkerTransition} {log : List JsonValue}
  {s : StartRecord} {stored : Option Run} {call : Call} {run : Run} {worker : WorkerRecord}

lemma history_append : history workerId (events ++ [e]) =
    history workerId events ++ written workerId e := by
  simp [history]

lemma logOf_append :
    logOf workerId (events ++ [e]) = (written workerId e).foldl extend (logOf workerId events) := by
  rw [logOf, history_append, List.foldl_append]
  rfl

lemma started_append : started workerId (events ++ [e]) =
    started workerId events + (written workerId e).countP startsAttempt := by
  rw [started, history_append, List.countP_append]
  rfl

lemma ended_append : ended workerId (events ++ [e]) =
    ended workerId events + (written workerId e).countP endsAttempt := by
  rw [ended, history_append, List.countP_append]
  rfl

lemma Whole.of_append (h : Whole workerId (events ++ [e])) : Whole workerId events :=
  fun e he => h e (List.mem_append_left _ he)

lemma Whole.last (h : Whole workerId (events ++ [e])) : isRegular workerId e = true :=
  h e (by simp)

lemma mem_written (h : transition ∈ written workerId e) :
    transition.workerId = workerId ∧ ∃ transitions,
      e.op.request = .updateRun (.applyTransitions transitions) ∧ transition ∈ transitions := by
  unfold written at h
  split at h
  · split_ifs at h
    · obtain ⟨hmem, hid⟩ := List.mem_filter.1 h
      exact ⟨of_decide_eq_true hid, _, rfl, hmem⟩
    · cases h
  · cases h

lemma endLast_append (front : List JsonValue) (last : JsonValue)
    (fields : List (String × JsonValue)) :
    endLast fields (front ++ [last]) = front ++ [.obj (Dict.update last.fields fields)] := by
  simp [endLast]

lemma extend_of_keeps (h : transition.KeepsAttempts) : extend log transition = log := by
  unfold extend
  rw [h.finalization]
  dsimp only
  split
  · next attempt heq => exact absurd heq (h.attempt attempt)
  · rfl

lemma startsAttempt_of_keeps (h : transition.KeepsAttempts) : startsAttempt transition = false := by
  unfold startsAttempt
  split
  · next attempt heq => exact absurd heq (h.attempt attempt)
  · rfl

lemma endsAttempt_of_keeps (h : transition.KeepsAttempts) : endsAttempt transition = false := by
  rw [endsAttempt, h.finalization]
  rfl

/-! ## Logs that agree with the record -/

/-- The attempts of the worker are what the events make of them, in number and in order. -/
structure Recorded (workerId : WorkerId) (s : StartRecord) : Prop where
  log : attemptsOf workerId s.1 = logOf workerId s.2
  numbered : Numbered (attemptsOf workerId s.1)
  started : (attemptsOf workerId s.1).length = started workerId s.2
  ended : (attemptsOf workerId s.1).countP isFinalized = ended workerId s.2
  /-- No event writes more than one thing about the attempts. -/
  single : ∀ e ∈ s.2, (∀ transition ∈ written workerId e, transition.KeepsAttempts) ∨
    ∃ transition, written workerId e = [transition]

/-- No attempt is going on. -/
structure Closed (workerId : WorkerId) (s : StartRecord) : Prop extends Recorded workerId s where
  finalized : ∀ attempt ∈ attemptsOf workerId s.1, isFinalized attempt = true

/-- The last attempt is going on: it is the one in a place, and the stored worker waits for it. -/
structure Opened (workerId : WorkerId) (place : Nat) (s : StartRecord) : Prop extends
    Recorded workerId s where
  last : ∃ front last, attemptsOf workerId s.1 = front ++ [last] ∧ front.length = place ∧
    (∀ attempt ∈ front, isFinalized attempt = true) ∧ isFinalized last = false
  waits : StoredRun (fun run => (run.latestWorker workerId).lifecycleState = .activeWait) s.1

/-- No attempt is going on, and the worker in hand is the stored one and waits for an attempt. -/
structure Ready (workerId : WorkerId) (worker : WorkerRecord) (s : StartRecord) : Prop extends
    Closed workerId s where
  inHand : s.1.map (Run.latestWorker · workerId) = some worker
  waits : worker.lifecycleState = .activeWait

/-- A call that leaves the attempts of the worker alone. -/
abbrev Spares (workerId : WorkerId) (call : Call) : Prop :=
  call.Spares workerId WorkerTransition.KeepsAttempts

lemma keepsAttempts_of_written (h : Spares workerId e.op) (ht : transition ∈ written workerId e) :
    transition.KeepsAttempts := by
  obtain ⟨hid, transitions, hrequest, hmem⟩ := mem_written ht
  exact (h (.applyTransitions transitions) (by rw [hrequest]; rfl) transition hmem).2 hid

lemma attemptsOf_eq (workerId : WorkerId) (stored : Option Run) :
    attemptsOf workerId stored = (latestOf workerId stored).attemptList := by
  cases stored <;> rfl

lemma attemptsOf_of_spares {answer : call.request.Answer} (h : Spares workerId call)
    (hanswer : call.request.Responds s.1 answer stored) :
    attemptsOf workerId stored = attemptsOf workerId s.1 := by
  have hattempts : (latestOf workerId stored).attempts = (latestOf workerId s.1).attempts :=
    h.latestOf_eq WorkerRecord.attempts (fun _ _ h => h.attempts)
      (fun _ ht => WorkerRecord.attempts_reduce_of_keeps ht) hanswer
  rw [attemptsOf_eq, attemptsOf_eq, WorkerRecord.attemptList, hattempts]
  rfl

lemma foldl_extend_of_keeps {transitions : List WorkerTransition}
    (h : ∀ t ∈ transitions, t.KeepsAttempts) : transitions.foldl extend log = log := by
  induction transitions with
  | nil => rfl
  | cons first rest ih =>
    rw [List.foldl_cons, extend_of_keeps (h first (by simp))]
    exact ih fun t ht => h t (by simp [ht])

lemma history_of_spares (events : List (Event storeInterface Unit)) (h : Spares workerId e.op) :
    logOf workerId (events ++ [e]) = logOf workerId events ∧
      started workerId (events ++ [e]) = started workerId events ∧
      ended workerId (events ++ [e]) = ended workerId events := by
  have hkeeps : ∀ t ∈ written workerId e, t.KeepsAttempts :=
    fun t ht => keepsAttempts_of_written h ht
  rw [logOf_append, started_append, ended_append, List.countP_eq_zero.2, List.countP_eq_zero.2]
  · exact ⟨foldl_extend_of_keeps hkeeps, rfl, rfl⟩
  · intro t ht
    rw [endsAttempt_of_keeps (hkeeps t ht)]
    exact Bool.false_ne_true
  · intro t ht
    rw [startsAttempt_of_keeps (hkeeps t ht)]
    exact Bool.false_ne_true

lemma single_append {last : Event storeInterface Unit}
    (h : ∀ e ∈ events, (∀ transition ∈ written workerId e, transition.KeepsAttempts) ∨
      ∃ transition, written workerId e = [transition])
    (hlast : (∀ transition ∈ written workerId last, transition.KeepsAttempts) ∨
      ∃ transition, written workerId last = [transition]) :
    ∀ e ∈ events ++ [last], (∀ transition ∈ written workerId e, transition.KeepsAttempts) ∨
      ∃ transition, written workerId e = [transition] := by
  intro e hmem
  rcases List.mem_append.1 hmem with hmem | hmem
  · exact h e hmem
  · obtain rfl := List.mem_singleton.1 hmem
    exact hlast

section

variable (call : Call) {answer : call.request.Answer} (hspares : Spares workerId call)
  (hanswer : call.request.Responds s.1 answer stored)
include hspares hanswer

lemma Recorded.of_spares (h : Recorded workerId s) :
    Recorded workerId (stored, s.2 ++ [⟨(), call, answer⟩]) := by
  have hattempts := attemptsOf_of_spares hspares hanswer
  obtain ⟨hlog, hstarted, hended⟩ :=
    history_of_spares (e := (⟨(), call, answer⟩ : Event storeInterface Unit)) s.2 hspares
  constructor
  · exact hattempts.trans (h.log.trans hlog.symm)
  · exact hattempts.symm ▸ h.numbered
  · exact (congrArg List.length hattempts).trans (h.started.trans hstarted.symm)
  · exact (congrArg (List.countP isFinalized) hattempts).trans (h.ended.trans hended.symm)
  · exact single_append h.single (.inl fun t ht =>
      keepsAttempts_of_written (e := ⟨(), call, answer⟩) hspares ht)

lemma Closed.of_spares (h : Closed workerId s) :
    Closed workerId (stored, s.2 ++ [⟨(), call, answer⟩]) := by
  refine ⟨h.toRecorded.of_spares call hspares hanswer, ?_⟩
  rw [attemptsOf_of_spares hspares hanswer]
  exact h.finalized

end

/-- A rejected update writes nothing. -/
lemma Closed.of_rejected (h : Closed workerId s) (phase : Phase) {mutation : RunMutation}
    {error : PyError} (hupdates : Updates mutation.apply s.1 (.rejected error) stored) :
    Closed workerId (stored, s.2 ++ [⟨(), ⟨phase, .updateRun mutation⟩,
      UpdateAnswer.rejected error⟩]) := by
  have hstored := hupdates.stored_of_rejected
  have hevent : written workerId ⟨(), ⟨phase, .updateRun mutation⟩,
      UpdateAnswer.rejected error⟩ = [] := by
    cases mutation <;> simp [written, UpdateAnswer.written]
  subst hstored
  refine ⟨⟨?_, h.numbered, ?_, ?_, single_append h.single (.inl ?_)⟩, h.finalized⟩
  · rw [logOf_append, hevent]
    exact h.log
  · rw [started_append, hevent]
    exact h.started
  · rw [ended_append, hevent]
    exact h.ended
  · rw [hevent]
    simp

/-! ## Attempts that start and end -/

lemma reduced_of_written {answer : UpdateAnswer} {before : Option Run}
    (hsnapshot : ∀ patch, transition.payload ≠ .snapshotApplied patch)
    (hid : transition.workerId = workerId)
    (h : Updates (RunMutation.applyTransitions [transition]).apply before answer stored)
    (hwritten : answer.written = true) :
    ∃ seen saved, before = some seen ∧ stored = some saved ∧
      saved.workers.get? workerId.value = some ((seen.latestWorker workerId).reduce transition) := by
  subst hid
  obtain ⟨now, seen, left, rfl, hleft, rfl⟩ := h.of_written hwritten
  obtain ⟨run', hrun', hworkers⟩ := RunMutation.applyTransitions_eq_ok hleft
  obtain ⟨-, hget⟩ := Run.get?_applyTransitions_of_mem (by simpa using hsnapshot) (by simp) hrun'
    (List.mem_singleton_self _)
  exact ⟨seen, left.normalize, rfl, rfl, (congrArg (WorkerMap.get? · _) hworkers).trans hget⟩

/-- A transition that is written extends the log of its worker. -/
lemma Recorded.of_written {phase : Phase} {answer : UpdateAnswer} (h : Recorded workerId s)
    (hid : transition.workerId = workerId) (hwritten : answer.written = true)
    (hlog : attemptsOf workerId stored = extend (attemptsOf workerId s.1) transition)
    (hnumbered : Numbered (attemptsOf workerId stored))
    (hstarted : (attemptsOf workerId stored).length =
      (attemptsOf workerId s.1).length + if startsAttempt transition then 1 else 0)
    (hended : (attemptsOf workerId stored).countP isFinalized =
      (attemptsOf workerId s.1).countP isFinalized + if endsAttempt transition then 1 else 0) :
    Recorded workerId (stored, s.2 ++ [⟨(), ⟨phase, .updateRun (.applyTransitions [transition])⟩,
      answer⟩]) := by
  have hevent : written workerId ⟨(), ⟨phase, .updateRun (.applyTransitions [transition])⟩,
      answer⟩ = [transition] := by
    simp [written, hwritten, hid]
  refine ⟨?_, hnumbered, ?_, ?_, single_append h.single (.inr ⟨transition, hevent⟩)⟩
  · rw [logOf_append, hevent, hlog, h.log]
    rfl
  · rw [started_append, hevent, List.countP_singleton, hstarted, h.started]
  · rw [ended_append, hevent, List.countP_singleton, hended, h.ended]

/-- The start of an attempt of the worker in hand opens it. -/
lemma Closed.opened (h : Closed workerId s) (phase : Phase) {attempt : JsonValue}
    {answer : UpdateAnswer} (hwaits : StoredRun (fun run =>
      (run.latestWorker workerId).lifecycleState = .activeWait) s.1)
    (htransition : transition.payload = .attemptStarted attempt)
    (hfinalization : transition.attemptFinalization = none) (hid : transition.workerId = workerId)
    (hnext : attempt.get "id" = .str (attemptId ((attemptsOf workerId s.1).length + 1)))
    (hattempt : isFinalized attempt = false)
    (hupdates : Updates (RunMutation.applyTransitions [transition]).apply s.1 answer stored)
    (hwritten : answer.written = true) :
    Opened workerId (attemptsOf workerId s.1).length (stored, s.2 ++ [⟨(), ⟨phase, .updateRun
      (.applyTransitions [transition])⟩, answer⟩]) := by
  have hsnapshot : ∀ patch, transition.payload ≠ .snapshotApplied patch := by
    rw [htransition]
    simp
  obtain ⟨seen, saved, hseen, rfl, hget⟩ := reduced_of_written hsnapshot hid hupdates hwritten
  obtain ⟨run, hrun, hstate⟩ := hwaits
  obtain rfl := Option.some.inj (hrun.symm.trans hseen)
  have hsaved := Run.latestWorker_of_get? hget
  have haborted : (run.latestWorker workerId).acceptedAbort = false :=
    WorkerRecord.acceptedAbort_of_pending (by rw [hstate]; rfl)
  have hbefore : attemptsOf workerId s.1 = (run.latestWorker workerId).attemptList := by
    rw [hrun]
    rfl
  have htransition' : transition = { workerId := workerId, payload := .attemptStarted attempt } := by
    cases transition
    cases htransition
    cases hfinalization
    cases hid
    rfl
  -- the new attempt is appended: its identifier is that of the next place
  have hafter : attemptsOf workerId (some saved) = attemptsOf workerId s.1 ++ [attempt] := by
    have hnumbered := h.numbered
    rw [hbefore] at hnext hnumbered ⊢
    show (saved.latestWorker workerId).attemptList = _
    rw [hsaved, htransition', WorkerRecord.attemptList,
      WorkerRecord.attempts_reduce_attemptStarted haborted]
    exact WorkerRecord.attemptList_appendAttempt hnumbered hnext
  refine ⟨h.toRecorded.of_written hid hwritten ?_ ?_ ?_ ?_,
    ⟨_, attempt, hafter, rfl, h.finalized, hattempt⟩, saved, rfl, ?_⟩
  · rw [hafter, htransition']
    rfl
  · rw [hafter]
    exact h.numbered.append hnext
  · rw [hafter, List.length_append, htransition']
    rfl
  · rw [hafter, List.countP_append, List.countP_singleton, hattempt, htransition']
    rfl
  · show (saved.latestWorker workerId).lifecycleState = .activeWait
    rw [hsaved, WorkerRecord.lifecycleState_reduce hsnapshot haborted, htransition']
    exact hstate

/-- The recording of an outcome closes the attempt. -/
lemma Opened.closed {place : Nat} (h : Opened workerId place s) (phase : Phase)
    {fields : List (String × JsonValue)} {answer : UpdateAnswer}
    (hsettles : transition.payload.settles = true)
    (hattempt : ∀ attempt, transition.payload ≠ .attemptStarted attempt)
    (hid : transition.workerId = workerId)
    (hfinalization : transition.attemptFinalization = some ⟨.str (attemptId (place + 1)), fields⟩)
    (hfields : ∀ attempt, isFinalized (.obj (Dict.update attempt fields)) = true ∧
      (JsonValue.obj (Dict.update attempt fields)).get "id" = (JsonValue.obj attempt).get "id")
    (hupdates : Updates (RunMutation.applyTransitions [transition]).apply s.1 answer stored)
    (hwritten : answer.written = true) :
    Closed workerId (stored, s.2 ++ [⟨(), ⟨phase, .updateRun (.applyTransitions [transition])⟩,
      answer⟩]) := by
  have hsnapshot := TransitionPayload.ne_snapshotApplied_of_settles hsettles
  obtain ⟨seen, saved, hseen, rfl, hget⟩ := reduced_of_written hsnapshot hid hupdates hwritten
  obtain ⟨front, last, hlist, rfl, hfront, hlast⟩ := h.last
  have hbefore : (seen.latestWorker workerId).attemptList = front ++ [last] := by
    rw [hseen] at hlist
    exact hlist
  have hnumbered := h.numbered
  rw [hlist] at hnumbered
  obtain ⟨old, rfl⟩ : ∃ old, last = .obj old := by
    have hobj : last.isObj = true := hnumbered.isObj (by simp)
    cases last with
    | obj old => exact ⟨old, rfl⟩
    | _ => cases hobj
  obtain ⟨hfinal, hsame⟩ := hfields old
  -- the finalisation names the last attempt, and no other one
  have hafter : attemptsOf workerId (some saved) = front ++ [.obj (Dict.update old fields)] := by
    show (saved.latestWorker workerId).attemptList = _
    rw [Run.latestWorker_of_get? hget, WorkerRecord.attemptList,
      WorkerRecord.attempts_reduce hsnapshot hattempt, hfinalization]
    exact WorkerRecord.attemptList_finalizeAttempt (hbefore ▸ hnumbered) hbefore fields
  have hstarts : startsAttempt transition = false := by
    unfold startsAttempt
    split
    · next attempt heq => exact absurd heq (hattempt attempt)
    · rfl
  have hends : endsAttempt transition = true := by
    rw [endsAttempt, hfinalization]
    rfl
  refine ⟨h.toRecorded.of_written hid hwritten ?_ ?_ ?_ ?_, ?_⟩
  · rw [hafter, hlist]
    unfold extend
    rw [hfinalization]
    split
    · next attempt heq => exact absurd heq (hattempt attempt)
    · exact (endLast_append front (.obj old) fields).symm
  · rw [hafter]
    exact hnumbered.set_last hsame
  · rw [hafter, hlist, hstarts]
    simp
  · rw [hafter, hlist, hends, List.countP_append, List.countP_append, List.countP_singleton,
      List.countP_singleton, hfinal, hlast]
    rfl
  · rw [hafter]
    intro attempt hmem
    rcases List.mem_append.1 hmem with hmem | hmem
    · exact hfront attempt hmem
    · rw [List.mem_singleton.1 hmem]
      exact hfinal

/-! ## Parts of a command -/

/-- The contract of commands that are alone: the log agrees with the record as long as the events
are regular. -/
abbrev contract (workerId : WorkerId) : Contract storeInterface StartRecord :=
  aloneContract (fun _ _ => True) fun s => Whole workerId s.2 → Recorded workerId s

/-- A part of a command that meets the contract, and ends in `X` or raises in `E` if the events are
regular. -/
def Comes {α : Type} (workerId : WorkerId) (X : α → StartRecord → Prop)
    (E : PyError → StartRecord → Prop) (p : Command α) (s : StartRecord) : Prop :=
  (contract workerId).Safe (fun a s => Whole workerId s.2 → X a s)
    (fun error s => Whole workerId s.2 → E error s) p s

section

variable {α β : Type} {X X' : α → StartRecord → Prop} {Y : β → StartRecord → Prop}
  {E E' : PyError → StartRecord → Prop} {p : Command α} {f : α → Command β}

/-- After an irregular event nothing is promised. -/
lemma comes_of_not_whole (h : ¬ Whole workerId s.2) : Comes workerId X E p s :=
  (Contract.safe_alone_of_within (J := fun s => ¬ Whole workerId s.2)
    (p.within_of_forall (fun _ => trivial) fun _ => trivial)
    (fun _ _ _ _ _ hs _ _ => have hnot := fun hwhole => hs (Whole.of_append hwhole)
      ⟨fun hwhole => absurd hwhole hnot, hnot⟩) h).mono
    (fun _ _ hs hwhole => absurd hwhole hs.2) fun _ _ hs hwhole => absurd hwhole hs

lemma comes_pure {a : α} (h : X a s) : Comes workerId X E (pure a) s := fun _ => h

lemma comes_raise {error : PyError} (h : E error s) :
    Comes workerId X E (.raise error : Command α) s :=
  fun _ => h

lemma Comes.bind (h : Comes workerId X E p s) (hf : ∀ a s, X a s → Comes workerId Y E' (f a) s)
    (hE : ∀ error s, E error s → E' error s) : Comes workerId Y E' (p >>= f) s := by
  refine Contract.Safe.bind h (fun a s hs => ?_) fun error s hs hwhole => hE error s (hs hwhole)
  by_cases hwhole : Whole workerId s.2
  · exact hf a s (hs hwhole)
  · exact comes_of_not_whole hwhole

lemma Comes.tryCatch {f : PyError → Command α} (h : Comes workerId X E p s)
    (hf : ∀ error s, E error s → Comes workerId X E' (f error) s) :
    Comes workerId X E' (tryCatch p f) s := by
  refine Contract.safe_tryCatch_iff.2 (Contract.Safe.mono h (fun _ _ hs => hs) fun error s hs => ?_)
  by_cases hwhole : Whole workerId s.2
  · exact hf error s (hs hwhole)
  · exact comes_of_not_whole hwhole

lemma Comes.mono (h : Comes workerId X E p s) (hX : ∀ a s, X a s → X' a s)
    (hE : ∀ error s, E error s → E' error s) : Comes workerId X' E' p s :=
  Contract.Safe.mono h (fun a s hs hwhole => hX a s (hs hwhole))
    fun error s hs hwhole => hE error s (hs hwhole)

lemma comes_call {op : Call} {k : op.request.Answer → Command α}
    (h : ∀ answer stored, op.request.Responds s.1 answer stored →
      isRegular workerId ⟨(), op, answer⟩ = true →
        Recorded workerId (stored, s.2 ++ [⟨(), op, answer⟩]) ∧
          Comes workerId X E (k answer) (stored, s.2 ++ [⟨(), op, answer⟩])) :
    Comes workerId X E (.call op k) s := by
  refine Contract.safe_call_alone fun answer stored hanswer _ => ?_
  by_cases hregular : isRegular workerId ⟨(), op, answer⟩ = true
  · obtain ⟨hrecorded, hrest⟩ := h answer stored hanswer hregular
    exact ⟨fun _ => hrecorded, hrest⟩
  · have hnot : ¬ Whole workerId (s.2 ++ [⟨(), op, answer⟩]) := fun hwhole => hregular hwhole.last
    exact ⟨fun hwhole => absurd hwhole hnot, comes_of_not_whole hnot⟩

/-- One update, of which the answer is regular. -/
lemma comes_persist {phase : Phase} {mutation : RunMutation} {X : Run → StartRecord → Prop}
    (h : ∀ answer stored, Updates mutation.apply s.1 answer stored →
      isRegular workerId ⟨(), ⟨phase, .updateRun mutation⟩, answer⟩ = true →
        Recorded workerId (stored, s.2 ++ [⟨(), ⟨phase, .updateRun mutation⟩, answer⟩]) ∧
          match answer with
          | .committed _ _ saved =>
            X saved (stored, s.2 ++ [⟨(), ⟨phase, .updateRun mutation⟩, answer⟩])
          | .rejected error | .lost error =>
            E error (stored, s.2 ++ [⟨(), ⟨phase, .updateRun mutation⟩, answer⟩])) :
    Comes workerId X E (Command.persist phase mutation) s := by
  refine comes_call fun answer stored hanswer hregular => ?_
  obtain ⟨hrecorded, hends⟩ := h answer stored hanswer hregular
  refine ⟨hrecorded, ?_⟩
  cases answer with
  | committed now seen saved => exact fun _ => hends
  | rejected error => exact fun _ => hends
  | lost error => exact fun _ => hends

/-- A transition that the worker in hand is taken from. -/
lemma comes_applyWorkerTransition {phase : Phase} {worker : WorkerRecord}
    {X : Run × WorkerRecord → StartRecord → Prop}
    (h : ∀ answer stored,
      Updates (RunMutation.applyTransitions [transition]).apply s.1 answer stored →
      isRegular workerId ⟨(), ⟨phase, .updateRun (.applyTransitions [transition])⟩, answer⟩ = true →
        Recorded workerId
          (stored, s.2 ++ [⟨(), ⟨phase, .updateRun (.applyTransitions [transition])⟩, answer⟩]) ∧
          match answer with
          | .committed _ _ saved =>
            X (saved, (saved.workers.get? transition.workerId.value).getD worker) (stored,
              s.2 ++ [⟨(), ⟨phase, .updateRun (.applyTransitions [transition])⟩, answer⟩])
          | .rejected error | .lost error => E error (stored,
              s.2 ++ [⟨(), ⟨phase, .updateRun (.applyTransitions [transition])⟩, answer⟩])) :
    Comes workerId X E (Execution.applyWorkerTransition phase worker transition) s :=
  (comes_persist (X := fun saved s =>
    X (saved, (saved.workers.get? transition.workerId.value).getD worker) s) h).bind
    (fun _ _ hs => comes_pure hs) fun _ _ h => h

lemma comes_of_within {Q : α → Prop} {P : Call → Prop} {J : StartRecord → Prop}
    (h : p.Within (fun call => P call ∧ Spares workerId call) Q)
    (hJ : ∀ (call : Call) s (answer : call.request.Answer) (stored : Option Run), P call → J s →
      call.request.Responds s.1 answer stored → J (stored, s.2 ++ [⟨(), call, answer⟩]))
    (hclosed : Closed workerId s) (hs : J s) :
    Comes workerId (fun a s => Q a ∧ Closed workerId s ∧ J s) (fun _ s => Closed workerId s) p s :=
  (Contract.safe_alone_of_within (J := fun s => Closed workerId s ∧ J s) h
    (fun call s answer stored hcall hs hanswer _ =>
      have hclosed' := hs.1.of_spares call hcall.2 hanswer
      ⟨fun _ => hclosed'.toRecorded, hclosed', hJ call s answer stored hcall.1 hs.2 hanswer⟩)
    ⟨hclosed, hs⟩).mono (fun _ _ hs _ => hs) fun _ _ hs _ => hs.1

end

/-! ## One attempt -/

lemma spares_single {phase : Phase} (h : transition.KeepsAttempts) :
    Spares workerId ⟨phase, .updateRun (.applyTransitions [transition])⟩ := by
  refine .of_applies (fun _ ht => ht.snapshot) (Call.applies_updateRun fun t ht => ?_)
  rwa [List.mem_singleton.1 ht]

section

variable (call : Call) {place : Nat} {answer : call.request.Answer}

lemma Opened.of_same (h : Opened workerId place s) (hcall : call.request.mutation? = none)
    (hanswer : call.request.Responds s.1 answer stored) (hstored : stored = s.1) :
    Opened workerId place (stored, s.2 ++ [⟨(), call, answer⟩]) := by
  refine ⟨h.toRecorded.of_spares call (Call.Spares.of_eq_none hcall) hanswer, ?_, ?_⟩
  · rw [hstored]
    exact h.last
  · rw [hstored]
    exact h.waits

lemma Ready.of_same (h : Ready workerId worker s) (hcall : call.request.mutation? = none)
    (hanswer : call.request.Responds s.1 answer stored) (hstored : stored = s.1) :
    Ready workerId worker (stored, s.2 ++ [⟨(), call, answer⟩]) := by
  refine ⟨h.toClosed.of_spares call (Call.Spares.of_eq_none hcall) hanswer, ?_, h.waits⟩
  rw [hstored]
  exact h.inHand

lemma Ready.id (h : Ready workerId worker s) : worker.id = workerId := by
  obtain ⟨run, -, rfl⟩ := Option.map_eq_some_iff.1 h.inHand
  exact Run.id_latestWorker run workerId

lemma Ready.attemptsOf (h : Ready workerId worker s) :
    attemptsOf workerId s.1 = worker.attemptList := by
  obtain ⟨run, hrun, rfl⟩ := Option.map_eq_some_iff.1 h.inHand
  rw [hrun]
  rfl

end

section

variable {strategy : BlockingStrategy} {agent model : Option String} {cleanupRequested : Bool}

/-- Providing the worker with a session starts no attempt. -/
lemma comes_provisionSession (hclosed : Closed workerId s) (hpending : StoredPending workerId s.1)
    (hid : worker.id = workerId) :
    Comes workerId
      (fun result s => result.2.1.id = workerId ∧ Closed workerId s ∧ StoredPending workerId s.1)
      (fun _ s => Closed workerId s)
      (Execution.provisionSession run worker agent model cleanupRequested) s := by
  have hgranted : worker.Granted workerId fun _ => True := ⟨hid, fun _ _ => trivial⟩
  have hopens := (Execution.withinWhen_provisionSession run agent model cleanupRequested
    hgranted).within (Call.grants_of_forall fun _ => trivial)
  have hkeeps : ∀ worker : WorkerRecord, worker.provisionedTransition.KeepsAttempts := fun worker =>
    ⟨by simp [WorkerRecord.provisionedTransition], by simp [WorkerRecord.provisionedTransition], rfl⟩
  have hspares := Execution.applies_provisionSession hkeeps run worker agent model cleanupRequested
  refine (comes_of_within (P := fun call => call.Opens workerId fun _ => True)
    (J := fun s => StoredPending workerId s.1)
    ((hopens.and hspares).mono
      (fun call h => ⟨h.1, .of_applies (fun _ ht => ht.snapshot) h.2⟩) fun _ h => h)
    (fun call s answer stored hcall hs hanswer => hs.of_opens hcall hanswer) hclosed hpending).mono
    (fun result s hs => ⟨hs.1.1.id, hs.2⟩) fun _ _ h => h

/-- Once the worker is active it is the one in hand. -/
lemma comes_activate (hclosed : Closed workerId s) (hpending : StoredPending workerId s.1)
    (hid : worker.id = workerId) :
    Comes workerId (fun result s => Ready workerId result.2 s) (fun _ s => Closed workerId s)
      (Execution.activate worker) s := by
  unfold Execution.activate
  refine Comes.bind (X := fun _ s => Closed workerId s ∧ StoredPending workerId s.1)
    (E := fun _ s => Closed workerId s) ?_ (fun now s hs => ?_) fun _ _ h => h
  · split_ifs
    · refine comes_call fun now stored hanswer _ => ?_
      have hstored : stored = s.1 := hanswer
      have hclosed' := hclosed.of_spares (⟨.activating worker.id.value, .now⟩)
        (Call.Spares.of_eq_none rfl) hanswer
      exact ⟨hclosed'.toRecorded, comes_pure ⟨hclosed', hstored ▸ hpending⟩⟩
    · exact comes_pure ⟨hclosed, hpending⟩
  have hkeeps : (worker.markActive now).KeepsAttempts :=
    ⟨by simp [WorkerRecord.markActive], by simp [WorkerRecord.markActive], rfl⟩
  refine comes_applyWorkerTransition fun answer stored hupdates _ => ?_
  have hclosed' := hs.1.of_spares (⟨.activating worker.id.value, .updateRun
    (.applyTransitions [worker.markActive now])⟩) (spares_single hkeeps) hupdates
  refine ⟨hclosed'.toRecorded, ?_⟩
  cases answer with
  | rejected error => exact hclosed'
  | lost error => exact hclosed'
  | committed now' seen saved =>
    obtain ⟨seen', saved', hseen, hsaved, hget⟩ :=
      reduced_of_written hkeeps.snapshot hid hupdates rfl
    obtain rfl := Option.some.inj (hupdates.of_committed.2.1.symm.trans hsaved)
    have hsame : (saved.workers.get? (worker.markActive now).workerId.value).getD worker =
        saved.latestWorker workerId := by
      rw [Run.latestWorker_of_get? hget]
      show (saved.workers.get? worker.id.value).getD worker = _
      rw [hid, hget, Option.getD_some]
    have hseenPending := hs.2 seen' hseen
    refine ⟨hclosed', ?_, ?_⟩
    · rw [hsaved, hsame]
      rfl
    · rw [hsame, Run.latestWorker_of_get? hget, WorkerRecord.lifecycleState_reduce hkeeps.snapshot
        (WorkerRecord.acceptedAbort_of_pending hseenPending)]
      rfl

/-- Recording the start of an attempt of the worker in hand. -/
lemma comes_attemptStarted {attempt : JsonValue} (h : Ready workerId worker s)
    (htransition : transition.payload = .attemptStarted attempt)
    (hfinalization : transition.attemptFinalization = none) (hid : transition.workerId = workerId)
    (hnext : attempt.get "id" = .str (attemptId (worker.attemptList.length + 1)))
    (hattempt : isFinalized attempt = false) :
    Comes workerId
      (fun result s => result.2.id = workerId ∧ Opened workerId worker.attemptList.length s)
      (fun _ s => Closed workerId s)
      (Execution.applyWorkerTransition (.starting workerId.value) worker transition) s := by
  have hattempts := h.attemptsOf
  have hwaits : StoredRun (fun run => (run.latestWorker workerId).lifecycleState = .activeWait)
      s.1 := by
    obtain ⟨run, hrun, hlatest⟩ := Option.map_eq_some_iff.1 h.inHand
    exact ⟨run, hrun, (congrArg WorkerRecord.lifecycleState hlatest).trans h.waits⟩
  refine comes_applyWorkerTransition fun answer stored hupdates hregular => ?_
  have hopened := h.toClosed.opened (.starting workerId.value) hwaits htransition
    hfinalization hid (hattempts ▸ hnext) hattempt hupdates
  rw [hattempts] at hopened
  cases answer with
  | committed now seen saved =>
    refine ⟨(hopened rfl).toRecorded, ?_, hopened rfl⟩
    rw [hid, ← h.id]
    exact WorkerMap.id_getD_get? worker
  | rejected error =>
    have hclosed := h.toClosed.of_rejected (.starting workerId.value) hupdates
    exact ⟨hclosed.toRecorded, hclosed⟩
  | lost error => simp [isRegular] at hregular

/-- The start of an attempt opens the next place of the log. -/
lemma comes_startAttempt {createdSessionIds : List String} (h : Ready workerId worker s) :
    Comes workerId (fun result s => result.2.1.id = workerId ∧
        ∃ place, result.2.2.1 = attemptId (place + 1) ∧ Opened workerId place s)
      (fun _ s => Closed workerId s)
      (Execution.startAttempt worker strategy createdSessionIds) s := by
  have hid := h.id
  unfold Execution.startAttempt
  refine Comes.bind (X := fun _ s => Ready workerId worker s) (E := fun _ s => Closed workerId s) ?_
    (fun promptId s hs => ?_) fun _ _ h => h
  · cases strategy with
    | sessionMessage =>
      refine comes_call fun id stored hanswer _ => ?_
      have hready := h.of_same (⟨.starting worker.id.value, .newMessageId⟩) rfl hanswer
        hanswer.1
      exact ⟨hready.toRecorded, comes_pure hready⟩
    | legacyRunReply => exact comes_pure h
  refine Comes.bind (X := fun _ s => Ready workerId worker s) (E := fun _ s => Closed workerId s)
    (comes_call fun now stored hanswer _ => ?_) (fun startedAt s hs => ?_) fun _ _ h => h
  · have hready := hs.of_same (⟨.starting worker.id.value, .now⟩) rfl hanswer hanswer
    exact ⟨hready.toRecorded, comes_pure hready⟩
  dsimp only
  rw [hid]
  refine (comes_attemptStarted hs rfl rfl rfl
    (get_id_newAttemptRecord worker startedAt createdSessionIds _)
    (isFinalized_newAttemptRecord worker startedAt createdSessionIds _)).bind
    (fun result s hs => ?_) fun _ _ h => h
  exact comes_pure ⟨hs.1, _, worker.nextAttemptId_eq, hs.2⟩

lemma isSome_classify {error : PyError} (h : failsAttempt error = true)
    (htimeout : Execution.isTimeoutExpired error = false) :
    (classifyWorkerAttemptException worker error).isSome = true := by
  cases error with
  | timeoutExpired | timeoutError => cases htimeout
  | openCodeApi | openCodeApiTimeout | blockingProviderFailure | blockingExecutionTimeout
  | workerExecutionTimeout => rfl
  | _ => cases h

/-- Sending the prompt leaves the attempt open, and comes to an outcome. -/
lemma comes_executeSingleWorkerAttempt {place : Nat} {id prompt : String} {promptId : Option String}
    (hid : worker.id = workerId) (h : Opened workerId place s) :
    Comes workerId (fun _ s => Opened workerId place s) (fun _ _ => False)
      (Execution.executeSingleWorkerAttempt worker id prompt promptId) s := by
  subst hid
  -- the time is asked for before the prompt is sent, and may end the attempt
  have hrequire : Comes worker.id (fun _ s => Opened worker.id place s)
      (fun error s => failsAttempt error = true ∧ Opened worker.id place s)
      (Execution.requireTime (.prompting worker.id.value id) worker.timeoutSeconds) s := by
    unfold Execution.requireTime
    split
    · exact comes_pure h
    · refine comes_call fun (inTime : Bool) stored hanswer _ => ?_
      have hopened := h.of_same (⟨.prompting worker.id.value id, .requireTime⟩) rfl hanswer
        hanswer
      refine ⟨hopened.toRecorded, ?_⟩
      cases inTime with
      | true => exact comes_pure hopened
      | false => exact comes_raise ⟨rfl, hopened⟩
  -- whatever is raised below is classified as an outcome, so nothing escapes
  have hcall : Comes worker.id (fun _ s => Opened worker.id place s)
      (fun error s => (classifyWorkerAttemptException worker error).isSome = true ∧
        Opened worker.id place s)
      (Execution.callWorkerWithDeadline worker id prompt promptId) s := by
    refine Comes.tryCatch (E := fun error s => failsAttempt error = true ∧ Opened worker.id place s)
      (hrequire.bind (fun _ s hs => ?_) fun _ _ h => h) fun error s hs => ?_
    · refine comes_call fun (answer : Except PyError ExecutionResult) stored hanswer hregular => ?_
      have hopened := hs.of_same (⟨.prompting worker.id.value id, .executePrompt _⟩) rfl
        hanswer hanswer.1
      refine ⟨hopened.toRecorded, ?_⟩
      cases answer with
      | ok result => exact comes_pure hopened
      | error error =>
        refine comes_raise ⟨?_, hopened⟩
        simpa [isRegular] using hregular
    · split_ifs with htimeout
      · exact comes_raise ⟨rfl, hs.2⟩
      · exact comes_raise ⟨isSome_classify hs.1 (Bool.eq_false_iff.2 htimeout), hs.2⟩
  unfold Execution.executeSingleWorkerAttempt
  rw [map_eq_pure_bind]
  refine Comes.tryCatch (hcall.bind (fun _ s hs => comes_pure hs) fun _ _ h => h)
    fun error s hs => ?_
  cases hclassified : classifyWorkerAttemptException worker error with
  | some attempt => exact comes_pure hs.2
  | none =>
    rw [hclassified] at hs
    cases hs.1

/-- Recording the outcome closes the attempt. -/
lemma comes_recordOutcome {place : Nat} {attempt : WorkerAttemptOutcome}
    {createdSessionIds : List String} (hid : worker.id = workerId) (h : Opened workerId place s) :
    Comes workerId (fun _ s => Closed workerId s) (fun _ s => Closed workerId s)
      (Execution.recordOutcome worker (attemptId (place + 1)) attempt createdSessionIds) s := by
  subst hid
  have hclock : ∀ {s}, Opened worker.id place s → Comes worker.id
      (fun _ s => Opened worker.id place s) (fun _ s => Closed worker.id s)
      (Command.clock (.recording worker.id.value)) s := by
    intro s h
    refine comes_call fun now stored hanswer _ => ?_
    have hopened := h.of_same (⟨.recording worker.id.value, .now⟩) rfl hanswer hanswer
    exact ⟨hopened.toRecorded, comes_pure hopened⟩
  unfold Execution.recordOutcome
  refine Comes.bind (X := fun _ s => Opened worker.id place s) (E := fun _ s => Closed worker.id s)
    ?_ (fun now s hs => ?_) fun _ _ h => h
  · split_ifs
    · exact hclock h
    · exact comes_pure h
  refine (hclock hs).bind (fun finishedAt s hs => ?_) fun _ _ h => h
  have heffect := attemptEffect worker attempt now
  have hrecorded : (applyWorkerAttemptTransition worker attempt now).workerTransition.workerId =
      worker.id := applyWorkerAttemptTransition_workerId
  dsimp only
  generalize applyWorkerAttemptTransition worker attempt now = applied at heffect hrecorded ⊢
  refine (comes_applyWorkerTransition (X := fun _ s => Closed worker.id s)
    fun answer stored hupdates hregular => ?_).bind (fun _ _ hs => comes_pure hs) fun _ _ h => h
  have hclosed : answer.written = true → Closed worker.id (stored, s.2 ++ [⟨(),
      ⟨.recording worker.id.value, .updateRun (.applyTransitions
        [applied.workerTransition.withFinalizedAttempt (.str (attemptId (place + 1)))
          (attemptFinalizationFields applied attempt finishedAt)])⟩, answer⟩]) :=
    hs.closed (.recording worker.id.value) (Flow.settles_of_attemptEffect heffect)
      heffect.ne_attemptStarted hrecorded rfl
      (fun fields => ⟨isFinalized_attemptFinalizationFields fields applied attempt finishedAt,
        get_id_attemptFinalizationFields fields applied attempt finishedAt⟩) hupdates
  cases answer with
  | committed now seen saved => exact ⟨(hclosed rfl).toRecorded, hclosed rfl⟩
  | lost error => exact ⟨(hclosed rfl).toRecorded, hclosed rfl⟩
  | rejected error =>
    -- the outcome is legal for the waiting worker, so only the store can refuse it
    exfalso
    obtain ⟨run, hrun, hwaits⟩ := hs.waits
    have hlatest : (run.latestWorker applied.workerTransition.workerId).lifecycleState =
        .activeWait := hrecorded ▸ hwaits
    rw [hrun] at hupdates
    cases hupdates with
    | raised _ hmutator =>
      obtain ⟨run', hrun'⟩ : ∃ run', run.applyTransitions
          [applied.workerTransition.withFinalizedAttempt (.str (attemptId (place + 1)))
            (attemptFinalizationFields applied attempt finishedAt)] = .ok run' := by
        refine Run.applyTransitions_of_legal (by simpa using heffect.ne_snapshotApplied) (by simp)
          fun t ht => ?_
        rw [List.mem_singleton.1 ht]
        exact heffect.legal rfl (.inl hlatest)
      cases hrun'.symm.trans (RunMutation.applyTransitions_eq_error hmutator)
    | failed hpersistence => simp [isRegular, hpersistence] at hregular

lemma comes_execute_self {prompt : String} (hclosed : Closed workerId s)
    (hpending : StoredPending workerId s.1) (hid : worker.id = workerId) :
    Comes workerId (fun _ s => Closed workerId s) (fun _ s => Closed workerId s)
      (Execution.execute run worker prompt strategy agent model cleanupRequested) s := by
  unfold Execution.execute
  refine (comes_provisionSession hclosed hpending hid).bind (fun provisioned s hs => ?_)
    fun _ _ h => h
  refine (comes_activate hs.2.1 hs.2.2 hs.1).bind (fun active s hs => ?_) fun _ _ h => h
  refine (comes_startAttempt hs).bind (fun result s hs => ?_) fun _ _ h => h
  obtain ⟨run, worker, id, promptId⟩ := result
  obtain ⟨hworker, place, rfl, hopened⟩ := hs
  exact (comes_executeSingleWorkerAttempt hworker hopened).bind
    (fun outcome s hs => comes_recordOutcome hworker hs) fun _ _ h => h.elim

end

/-! ## Commands one after another -/

/-- Between two attempts, if all events so far are regular. -/
def Idle (workerId : WorkerId) (s : StartRecord) : Prop := Whole workerId s.2 → Closed workerId s

lemma Idle.of_spares (h : Idle workerId s) (call : Call) {answer : call.request.Answer}
    (hspares : Spares workerId call) (hanswer : call.request.Responds s.1 answer stored) :
    Idle workerId (stored, s.2 ++ [⟨(), call, answer⟩]) :=
  fun hwhole => (h hwhole.of_append).of_spares call hspares hanswer

/-- Between two attempts nothing of the worker is recovered. -/
lemma spares_recoveries {datetime : Datetime} {now : String} {phase : Phase}
    {recoveries : List ActiveAttemptRecovery}
    (hrecoveries : recoverExpiredActiveAttempts datetime run.sortedWorkers now = .ok recoveries)
    (hclosed : ∀ attempt ∈ (run.latestWorker workerId).attemptList, isFinalized attempt = true) :
    Spares workerId ⟨phase, .updateRun (.applyTransitions
      (recoveries.map ActiveAttemptRecovery.transition))⟩ := by
  refine Call.applies_updateRun fun t ht => ?_
  obtain ⟨recovery, hrecovery, rfl⟩ := List.mem_map.1 ht
  obtain ⟨worker, hworker, attempt, hattempt, rfl⟩ := Flow.mem_recoveries hrecoveries hrecovery
  refine ⟨TransitionPayload.ne_snapshotApplied_of_settles
    (Flow.settles_of_attemptEffect (attemptEffect _ _ _)), fun hid => ?_⟩
  have hsame : worker.id = workerId := hid
  have hnone : recoverableActiveAttempt worker = none := by
    refine recoverableActiveAttempt_of_finalized ?_
    rw [← Run.latestWorker_of_get? (Run.mem_sortedWorkers.1 hworker), hsame]
    exact hclosed
  rw [hnone] at hattempt
  cases hattempt

lemma Idle.of_recoveries {datetime : Datetime} {now : String} {phase : Phase}
    {recoveries : List ActiveAttemptRecovery} {answer : UpdateAnswer} (h : Idle workerId s)
    (hrecoveries : recoverExpiredActiveAttempts datetime run.sortedWorkers now = .ok recoveries)
    (hrun : s.1 = some run)
    (hupdates : Updates (RunMutation.applyTransitions (recoveries.map
      ActiveAttemptRecovery.transition)).apply s.1 answer stored) :
    Idle workerId (stored, s.2 ++ [⟨(), ⟨phase, .updateRun (.applyTransitions
      (recoveries.map ActiveAttemptRecovery.transition))⟩, answer⟩]) := by
  intro hwhole
  have hclosed := h hwhole.of_append
  have hfinal := hclosed.finalized
  rw [hrun] at hfinal
  exact hclosed.of_spares (⟨phase, .updateRun _⟩) (spares_recoveries hrecoveries hfinal)
    hupdates

theorem commandRule (workerId : WorkerId) :
    CommandRule (fun _ _ => True) (fun s => Whole workerId s.2 → Recorded workerId s)
      (Idle workerId) workerId WorkerTransition.KeepsAttempts where
  holds_of_idle _ h hwhole := (h hwhole).toRecorded
  snapshot _ h := h.snapshot
  outside _ h := h.keepsAttempts
  spares _ call _ _ hspares h hanswer _ := h.of_spares call hspares hanswer
  recovered _ _ _ _ _ _ _ _ hrecoveries h hrun hupdates := h.of_recoveries hrecoveries hrun hupdates
  attempt s run worker prompt strategy agent model cleanupRequested h hrun hget hexec hid := by
    by_cases hwhole : Whole workerId s.2
    · have hpending : StoredPending workerId s.1 := by
        intro run' hrun'
        obtain rfl := Option.some.inj (hrun.symm.trans hrun')
        rw [← hid, Run.latestWorker_of_get? hget, LifecycleState.pending,
          (WorkerRecord.isExecutable_iff.1 hexec).2]
        rfl
      exact comes_execute_self (h hwhole) hpending hid
    · exact comes_of_not_whole hwhole

/-! ## The log after any commands -/

lemma closed_nil {start : Option Run} (h : attemptsOf workerId start = []) :
    Closed workerId (start, []) := by
  constructor
  · exact ⟨h, h ▸ Numbered.nil, congrArg List.length h,
      congrArg (List.countP isFinalized) h, fun e he => by cases he⟩
  · rw [h]
    simp

lemma extend_of_not_starts (h : startsAttempt transition = false) :
    extend log transition = match transition.attemptFinalization with
      | some finalization => endLast finalization.fields log
      | none => log := by
  have hpayload : (match transition.payload with
      | .attemptStarted attempt => log ++ [attempt]
      | _ => log) = log := by
    unfold startsAttempt at h
    split at h
    · cases h
    · rfl
  unfold extend
  rw [hpayload]

/-- A transition that ends no attempt, or starts the one it ends, leaves the attempts that are
there. -/
lemma extend_eq_append (log : List JsonValue)
    (h : endsAttempt transition = false ∨ startsAttempt transition = true) :
    ∃ more, extend log transition = log ++ more := by
  cases hstarts : startsAttempt transition with
  | true =>
    unfold startsAttempt at hstarts
    split at hstarts
    · next attempt hpayload =>
      unfold extend
      rw [hpayload]
      cases transition.attemptFinalization with
      | none => exact ⟨[attempt], rfl⟩
      | some finalization => exact ⟨_, endLast_append log attempt finalization.fields⟩
    · cases hstarts
  | false =>
    have hends : transition.attemptFinalization = none := by
      simpa [hstarts, endsAttempt] using h
    rw [extend_of_not_starts hstarts, hends]
    exact ⟨[], (List.append_nil log).symm⟩

lemma extend_of_ends (front : List JsonValue) (last : JsonValue)
    (hends : endsAttempt transition = true) (hstarts : startsAttempt transition = false) :
    ∃ last', extend (front ++ [last]) transition = front ++ [last'] := by
  obtain ⟨finalization, hfinalization⟩ := Option.isSome_iff_exists.1 hends
  rw [extend_of_not_starts hstarts, hfinalization]
  exact ⟨_, endLast_append front last finalization.fields⟩

/-- Where one more event is recorded, an attempt that is there stays as it is, unless the event ends
it. -/
lemma getElem?_of_recorded {stored' : Option Run} {i : Nat} {attempt : JsonValue}
    (h : Recorded workerId (stored, events)) (h' : Recorded workerId (stored', events ++ [e]))
    (hget : (attemptsOf workerId stored)[i]? = some attempt) :
    ∃ attempt', (attemptsOf workerId stored')[i]? = some attempt' ∧
      (attempt' = attempt ∨ (isFinalized attempt = false ∧ isFinalized attempt' = true ∧
        ∃ transition ∈ written workerId e, endsAttempt transition = true)) := by
  have hlog : attemptsOf workerId stored' =
      (written workerId e).foldl extend (attemptsOf workerId stored) := by
    rw [h.log]
    exact h'.log.trans logOf_append
  have hended := h'.ended
  rw [ended_append, ← h.ended] at hended
  rcases h'.single e (by simp) with hkeeps | ⟨transition, hevent⟩
  · rw [foldl_extend_of_keeps hkeeps] at hlog
    exact ⟨attempt, hlog ▸ hget, .inl rfl⟩
  · rw [hevent, List.foldl_cons, List.foldl_nil] at hlog
    rw [hevent, List.countP_singleton] at hended
    -- a transition that only starts an attempt appends it; the other kind finalises the last one
    by_cases hsame : endsAttempt transition = false ∨ startsAttempt transition = true
    · obtain ⟨more, hmore⟩ := extend_eq_append (attemptsOf workerId stored) hsame
      refine ⟨attempt, ?_, .inl rfl⟩
      rw [hlog, hmore, List.getElem?_append_left (List.getElem?_eq_some_iff.1 hget).1, hget]
    · obtain ⟨hends, hstarts⟩ : endsAttempt transition = true ∧ startsAttempt transition = false := by
        simpa using hsame
      rw [if_pos hends] at hended
      obtain hnil | ⟨front, last, hold⟩ := List.eq_nil_or_concat (attemptsOf workerId stored)
      · simp [hnil] at hget
      · rw [List.concat_eq_append] at hold
        obtain ⟨last', hnew⟩ := extend_of_ends front last hends hstarts
        rw [hold] at hlog hget hended
        rw [hlog, hnew, List.countP_append, List.countP_append, List.countP_singleton,
          List.countP_singleton] at hended
        rw [hlog, hnew]
        by_cases hlt : i < front.length
        · rw [List.getElem?_append_left hlt] at hget
          exact ⟨attempt, by rw [List.getElem?_append_left hlt, hget], .inl rfl⟩
        · have hi : i = front.length := by
            have hbound := (List.getElem?_eq_some_iff.1 hget).1
            rw [List.length_append, List.length_singleton] at hbound
            omega
          subst hi
          obtain rfl : last = attempt := by simpa using hget
          -- the number of finalised attempts has grown by one, and only the last one has changed
          have hfinal : isFinalized last = false ∧ isFinalized last' = true := by
            revert hended
            cases isFinalized last <;> cases isFinalized last' <;> simp
            omega
          exact ⟨last', by simp, .inr ⟨hfinal.1, hfinal.2, transition, by simp [hevent], hends⟩⟩

/-- Commands on one run, one after another, whose attempts of a worker are not interrupted: whenever
the last of them has returned, the attempts are numbered from one on and are all over, and there are
as many as were started and as many as were ended.  No step changes an attempt but the one that ends
it. -/
theorem attempts_of_runs (workerId : WorkerId) (commands : List RunCommand) (start : Option Run)
    (hstart : attemptsOf workerId start = []) (events : List (Event storeInterface Unit))
    (c : Config storeInterface PyError Unit Unit (Option Run))
    (hrun : Runs (Config.Fires (storeSurroundings Unit))
      ⟨start, fun _ => commandSequence commands⟩ events c)
    (hregular : ∀ e ∈ events, isRegular workerId e = true) :
    (c.program () = .done () →
      (attemptsOf workerId c.state).map (JsonValue.get · "id") =
        (List.range (started workerId events)).map (fun i => .str (attemptId (i + 1))) ∧
      (∀ attempt ∈ attemptsOf workerId c.state, isFinalized attempt = true) ∧
      ended workerId events = started workerId events) ∧
    ∀ e c', Config.Fires (storeSurroundings Unit) c e c' → isRegular workerId e = true →
      ∀ (i : Nat) (attempt : JsonValue), (attemptsOf workerId c.state)[i]? = some attempt →
        ∃ attempt', (attemptsOf workerId c'.state)[i]? = some attempt' ∧
          (attempt' = attempt ∨ (isFinalized attempt = false ∧ isFinalized attempt' = true ∧
            ∃ transition ∈ written workerId e, endsAttempt transition = true)) := by
  have hidle : Idle workerId (start, []) := fun _ => closed_nil hstart
  have hsafe := (commandRule workerId).safe_commandSequence commands hidle
  have hbegin : Whole workerId [] → Recorded workerId (start, []) :=
    fun _ => (closed_nil hstart).toRecorded
  have hrecorded : Recorded workerId (c.state, events) :=
    Contract.holds_of_alone_run hsafe hbegin hrun hregular
  refine ⟨fun hdone => ?_, fun e c' hfires he i attempt hget => ?_⟩
  · have hclosed : Closed workerId (c.state, events) :=
      Contract.post_of_alone hsafe hrun hdone hregular
    have hnumbered := hclosed.numbered
    rw [Numbered, hclosed.started] at hnumbered
    refine ⟨hnumbered, hclosed.finalized, ?_⟩
    rw [← hclosed.ended, ← hclosed.started]
    exact List.countP_eq_length.2 hclosed.finalized
  · have hregular' : Whole workerId (events ++ [e]) := by
      intro e' he'
      rcases List.mem_append.1 he' with he' | he'
      · exact hregular e' he'
      · rwa [List.mem_singleton.1 he']
    exact getElem?_of_recorded hrecorded
      (Contract.holds_of_alone_run hsafe hbegin (hrun.snoc hfires) hregular') hget

/-- Two starts, each of which requeues its worker with a prompt. -/
def promptedTwice : List RunCommand :=
  ["work", "more"].map fun prompt =>
    .start .unreadable 2 { name := "demo", prompt := some prompt, start := { workerId := "a" } }

theorem attempts_promptedTwice :
    ∃ events, ∃ c : Config storeInterface PyError Unit Unit (Option Run),
      Runs (Config.Fires (storeSurroundings Unit))
        ⟨some (Run.new "demo" "/" ""), fun _ => commandSequence promptedTwice⟩ events c ∧
      (attemptsOf ⟨"a", by decide⟩ c.state).map (JsonValue.get · "id") =
        [.str "attempt-1", .str "attempt-2"] ∧
      ∀ attempt ∈ attemptsOf ⟨"a", by decide⟩ c.state, isFinalized attempt = true := by
  obtain ⟨events, c, hrun, _, hdone, hholds⟩ := exists_run_of_play laterServer
    (some (Run.new "demo" "/" "")) (commandSequence promptedTwice) 39
    (fun events _ => events.all (isRegular ⟨"a", by decide⟩) &&
      started ⟨"a", by decide⟩ events == 2) (by decide +kernel)
  rw [Bool.and_eq_true, List.all_eq_true, beq_iff_eq] at hholds
  obtain ⟨hids, hfinal, -⟩ := (attempts_of_runs ⟨"a", by decide⟩ promptedTwice _ rfl events c hrun
    hholds.1).1 hdone
  rw [hholds.2] at hids
  exact ⟨events, c, hrun, hids, hfinal⟩

end AttemptLog

end OpencodeSession
