import OpencodeSession.Properties.StartRule

/-!
# No prompt on a deleted session

Starts on one run, one after another, any of which may be killed: a session whose deletion the
cleanup phase of a start has verified gets no prompt later on, unless it was set again.

A worker keeps its session identifier when the session is deleted, and provisioning creates a
session only for a worker that has none.  So a worker that is executed again after its session was
deleted, because it is requeued or is left to be retried, is prompted on the deleted session
(`not_sparesDeleted_requeued`).  `sparesDeleted_of_runs` is the statement for starts on records in
which no worker that may still be executed has a deleted session.

The proof is for one session at a time.  Between two attempts the session is not deleted, or no
worker that may be executed has it (`Idle`); opening an attempt keeps this, since a worker that gets
a session gets it from the server, where it then exists.
-/

namespace OpencodeSession

namespace DeletedSessions

/-! ## What the events tell of a session -/

/-- Whether reading a session is answered with 404. -/
def missing : Except PyError Unit → Bool
  | .error error => error.isOpenCodeApiError && error.apiStatus = some 404
  | .ok _ => false

/-- Whether the server has created a session. -/
def creates (x : String) : Except PyError String → Bool
  | .ok sessionId => sessionId = x
  | .error _ => false

/-- Whether the deletion of a session is verified. -/
def verifiesDeletion (x : String) : Event storeInterface Unit → Bool
  | ⟨_, ⟨.cleaning _, .getSession sessionId⟩, answer⟩ => sessionId = x && missing answer
  | _ => false

/-- Whether a session is set again: by the request of a start, by the requeueing of a worker, or by
the server, which creates it. -/
def restores (x : String) : Event storeInterface Unit → Bool
  | ⟨_, ⟨_, .updateRun (.applyStartRequest request)⟩, answer⟩ =>
    request.sessionId = some x && UpdateAnswer.written answer
  | ⟨_, ⟨_, .updateRun (.upsertWorker _ changes)⟩, answer⟩ =>
    changes.sessionId = some x && UpdateAnswer.written answer
  | ⟨_, ⟨_, .createSession _⟩, answer⟩ => creates x answer
  | _ => false

/-- Whether a session is deleted after an event. -/
def deletedAfter (x : String) (deleted : Bool) (e : Event storeInterface Unit) : Bool :=
  if restores x e then false else deleted || verifiesDeletion x e

/-- Whether a session has been deleted, and not been set again. -/
def isDeleted (x : String) (events : List (Event storeInterface Unit)) : Bool :=
  events.foldl (deletedAfter x) false

/-- The session a prompt is sent to. -/
def promptedSession (e : Event storeInterface Unit) : Option String :=
  e.op.request.prompt?.bind PromptExecution.sessionId

/-- No prompt is sent to a session while it is deleted. -/
def Spares (x : String) (events : List (Event storeInterface Unit)) : Prop :=
  ∀ earlier e, earlier ++ [e] <+: events → promptedSession e = some x → isDeleted x earlier = false

/-- No prompt is sent to a deleted session. -/
def SparesDeleted (events : List (Event storeInterface Unit)) : Prop := ∀ x, Spares x events

/-- A start is applied only where no worker that may still be executed has a deleted session,
unless the request of the start sets it. -/
def NoPendingDeleted (s : StartRecord) (call : Call) : Prop :=
  ∀ request now run left workerId x,
    call = ⟨.requesting, .updateRun (.applyStartRequest request)⟩ → s.1 = some run →
    (RunMutation.applyStartRequest request).apply now run = .ok left →
    (left.latestWorker workerId).hasPrompt = true →
    (left.latestWorker workerId).lifecycleState.pending = true →
    (left.latestWorker workerId).sessionId = some x → request.sessionId ≠ some x →
    isDeleted x s.2 = false

/-- Starts on one run, each of which may be killed after a number of requests. -/
def startSequence (datetime : Datetime) (rounds : Nat) : List (RunStartRequest × Nat) → Command Unit
  | [] => return ()
  | (request, steps) :: rest => do
    (Commands.startRun datetime rounds request).upTo steps
    startSequence datetime rounds rest

variable {x : String} {s : StartRecord} {stored : Option Run} {e : Event storeInterface Unit}
  {events : List (Event storeInterface Unit)} {call : Call} {stage : Stage} {run : Run}

lemma isDeleted_append : isDeleted x (events ++ [e]) = deletedAfter x (isDeleted x events) e := by
  simp [isDeleted]

lemma verifiesDeletion_of_stage (h : e.op.phase.stage ≠ .ending) :
    verifiesDeletion x e = false := by
  unfold verifiesDeletion
  split
  · exact absurd rfl h
  · rfl

lemma isDeleted_append_of_stage (h : e.op.phase.stage ≠ .ending)
    (hevents : isDeleted x events = false) : isDeleted x (events ++ [e]) = false := by
  rw [isDeleted_append, deletedAfter, hevents, verifiesDeletion_of_stage h, Bool.or_false, ite_self]

lemma isDeleted_append_of_restores (h : restores x e = true) :
    isDeleted x (events ++ [e]) = false := by
  rw [isDeleted_append, deletedAfter, if_pos h]

lemma Spares.append (h : Spares x events)
    (he : promptedSession e = some x → isDeleted x events = false) : Spares x (events ++ [e]) := by
  intro earlier e' hinitial hprompted
  rcases List.prefix_concat_iff.1 hinitial with heq | hinitial
  · obtain ⟨rfl, hlast⟩ := List.append_inj' heq rfl
    obtain rfl := List.singleton_inj.1 hlast
    exact he hprompted
  · exact h earlier e' hinitial hprompted

lemma promptedSession_of_quiet (h : e.op.Quiet stage) : promptedSession e = none := by
  obtain ⟨thread, ⟨phase, request⟩, answer⟩ := e
  have hrequest := h.request
  cases request with
  | executePrompt execution => exact absurd rfl (hrequest execution)
  | _ => rfl

lemma Spares.append_of_quiet (h : Spares x events) (he : e.op.Quiet stage) :
    Spares x (events ++ [e]) := by
  refine h.append fun hprompted => ?_
  rw [promptedSession_of_quiet he] at hprompted
  cases hprompted

/-! ## Assertions -/

/-- No worker that may still be executed has the session. -/
def Avoids (x : String) (run : Run) : Prop :=
  ∀ workerId, (run.latestWorker workerId).hasPrompt = true →
    (run.latestWorker workerId).lifecycleState.pending = true →
    (run.latestWorker workerId).sessionId ≠ some x

/-- What there is between two attempts: the session exists, or is not in use. -/
structure Idle (x : String) (s : StartRecord) : Prop where
  spares : Spares x s.2
  session : isDeleted x s.2 = false ∨ ∀ run, s.1 = some run → Avoids x run

/-- The contract of starts that are alone. -/
abbrev contract (x : String) : Contract storeInterface StartRecord :=
  aloneContract NoPendingDeleted fun s => Spares x s.2

lemma avoids_new (name directory serverUrl : String) :
    Avoids x (Run.new name directory serverUrl).normalize := by
  intro workerId hprompt
  cases hprompt

/-- A settling request makes no worker executable, and gives none a session. -/
lemma avoids_of_settles {answer : call.request.Answer} {stored' : Option Run}
    (h : ∀ run, stored = some run → Avoids x run) (hcall : call.Settles stage)
    (hanswer : call.request.Responds stored answer stored') :
    ∀ run, stored' = some run → Avoids x run := by
  obtain ⟨phase, request⟩ := call
  cases hmutation : request.mutation? with
  | none =>
    rcases Request.Responds.stored_eq hanswer hmutation with rfl | ⟨-, name, directory, url, rfl⟩
    · exact h
    · rintro run ⟨⟩
      exact avoids_new name directory url
  | some mutation =>
    cases hcall.request with
    | @updateRun mutation' hsettles =>
      refine Updates.keeps hanswer (fun now run left hrun hleft workerId hprompt hpending => ?_) h
      have hsettled := hsettles.settledFrom hleft workerId
      have hworker := hrun workerId (hsettled.prompt.symm.trans hprompt) (hsettled.pending hpending)
      rwa [← hsettled.session] at hworker
    | _ => cases hmutation

lemma Idle.of_settles {answer : call.request.Answer} (h : Idle x s) (hcall : call.Settles stage)
    (hstage : stage ≠ .ending) (hanswer : call.request.Responds s.1 answer stored) :
    Idle x (stored, s.2 ++ [⟨(), call, answer⟩]) := by
  refine ⟨h.spares.append_of_quiet hcall.quiet, h.session.imp (fun hexists => ?_) fun havoids => ?_⟩
  · exact isDeleted_append_of_stage (hcall.phase.trans_ne hstage) hexists
  · exact avoids_of_settles havoids hcall hanswer

/-! ## Opening an attempt -/

/-- What opening an attempt keeps of a run while the server does not create the session: neither the
worker of the attempt nor another one that may be executed has it. -/
structure Opening (x : String) (workerId : WorkerId) (run : Run) : Prop where
  avoids : Avoids x run
  pending : (run.latestWorker workerId).lifecycleState.pending = true
  session : (run.latestWorker workerId).sessionId ≠ some x

lemma Opening.of_opens {workerId : WorkerId} {mutation : RunMutation} {now : String} {left : Run}
    (h : Opening x workerId run) (hopens : mutation.Opens workerId fun sessionId => sessionId ≠ x)
    (hleft : mutation.apply now run = .ok left) : Opening x workerId left := by
  have hopened := hopens.openedFrom hleft h.pending
  have hsession : (left.latestWorker workerId).sessionId ≠ some x := by
    intro hsession
    rcases hopened.session x hsession with hsession | hne
    · exact h.session hsession
    · exact hne rfl
  refine ⟨fun other hprompt hpending => ?_, hopened.pending, hsession⟩
  by_cases hother : other = workerId
  · rwa [hother]
  · rw [hopens.latestWorker_of_ne hleft hother] at hprompt hpending ⊢
    exact h.avoids other hprompt hpending

/-- A request of an attempt that is opened gives its worker another session, unless the server
creates this one. -/
lemma opening_step {workerId : WorkerId} {answer : call.request.Answer} {stored' : Option Run}
    (h : ∀ run, stored = some run → Opening x workerId run)
    (hcall : call.Opens workerId fun sessionId => sessionId ≠ x)
    (hanswer : call.request.Responds stored answer stored') :
    restores x ⟨(), call, answer⟩ = true ∨ ((∀ run, stored' = some run → Opening x workerId run) ∧
      call.Grants workerId (fun sessionId => sessionId ≠ x) answer) := by
  obtain ⟨phase, request⟩ := call
  -- a request without a mutation leaves the run, or makes a new one
  cases hmutation : request.mutation? with
  | none =>
    have hstored : ∀ run, stored' = some run → Opening x workerId run := by
      rcases Request.Responds.stored_eq hanswer hmutation with rfl | ⟨-, name, directory, url, rfl⟩
      · exact h
      · rintro run ⟨⟩
        exact ⟨avoids_new name directory url, rfl, fun hsession => by cases hsession⟩
    cases request with
    | updateRun mutation' => cases hmutation
    | createSession creation =>
      cases answer with
      | error error => exact .inr ⟨hstored, trivial⟩
      | ok sessionId =>
        by_cases hsession : sessionId = x
        · exact .inl (decide_eq_true hsession)
        · exact .inr ⟨hstored, hsession⟩
    | _ => exact .inr ⟨hstored, trivial⟩
  | some mutation =>
    cases request with
    | updateRun mutation' =>
      have hstored : ∀ run, stored' = some run → Opening x workerId run :=
        Updates.keeps hanswer (fun now run left hrun hleft => by
          have hopening := hrun.of_opens (hcall.updates mutation' rfl) hleft
          exact ⟨hopening.avoids, hopening.pending, hopening.session⟩) h
      refine .inr ⟨hstored, ?_⟩
      cases answer with
      | committed now seen saved =>
        have hsaved := hstored saved (Updates.of_committed hanswer).2.1
        exact Run.granted_of_session fun sessionId hsession heq => hsaved.session (heq ▸ hsession)
      | rejected error => trivial
      | lost error => trivial
    | _ => cases hmutation

lemma stage_of_opensAttempt {phase : Phase} (h : phase.opensAttempt = true) :
    phase.stage ≠ .ending := by
  revert h
  cases phase <;> simp [Phase.opensAttempt, Phase.stage]

/-! ## One attempt -/

/-- A session that exists, until the start deletes it. -/
def Existing (x : String) (s : StartRecord) : Prop := Spares x s.2 ∧ isDeleted x s.2 = false

lemma Existing.append (h : Existing x s) (he : e.op.phase.stage ≠ .ending) :
    Existing x (stored, s.2 ++ [e]) :=
  ⟨h.1.append fun _ => h.2, isDeleted_append_of_stage he h.2⟩

/-- Opening an attempt of a worker of the stored run. -/
lemma safe_openAttempt {worker : WorkerRecord} {prompt : String} {strategy : BlockingStrategy}
    {agent model : Option String} {cleanupRequested : Bool} (hidle : Idle x s)
    (hrun : s.1 = some run) (hget : run.workers.get? worker.id.value = some worker)
    (hexec : worker.isExecutable = true) :
    (contract x).Safe (fun _ s => Idle x s) (fun _ s => Spares x s.2)
      (Execution.openAttempt run worker prompt strategy agent model cleanupRequested) s := by
  have hany : worker.Granted worker.id fun _ => True := ⟨rfl, fun _ _ => trivial⟩
  have hphases : (Execution.openAttempt run worker prompt strategy agent model
      cleanupRequested).Within (fun op : Call => op.phase.stage ≠ .ending) fun _ => True :=
    ((Execution.withinWhen_openAttempt run prompt strategy agent model cleanupRequested
      hany).within (Call.grants_of_forall fun _ => trivial)).mono
        (fun _ h => stage_of_opensAttempt h.phase) fun _ _ => trivial
  have hexisting : ∀ op s answer stored, op.phase.stage ≠ .ending → Existing x s →
      storeSurroundings Unit () s.1 op answer stored → NoPendingDeleted s op →
        Spares x (s.2 ++ [⟨(), op, answer⟩]) ∧ Existing x (stored, s.2 ++ [⟨(), op, answer⟩]) :=
    fun op s answer stored hop hs _ _ =>
      have hnext : Existing x (stored, s.2 ++ [⟨(), op, answer⟩]) := hs.append hop
      ⟨hnext.1, hnext⟩
  -- a session that exists may be prompted; a deleted one must not be what the worker carries
  rcases hidle.session with hexists | havoids
  · refine (Contract.safe_alone_of_within hphases hexisting ⟨hidle.spares, hexists⟩).mono
      (fun _ s h => ⟨h.2.1, .inl h.2.2⟩) fun _ s h => h.1
  · obtain ⟨hprompt, hexecutable⟩ := WorkerRecord.isExecutable_iff.1 hexec
    have hpending : worker.lifecycleState.pending = true := by
      rw [LifecycleState.pending, hexecutable]
      rfl
    have hlatest : run.latestWorker worker.id = worker := Run.latestWorker_of_get? hget
    have hsession : worker.sessionId ≠ some x := by
      have hworker := havoids run hrun worker.id
      rw [hlatest] at hworker
      exact hworker hprompt hpending
    have hgranted : worker.Granted worker.id fun sessionId => sessionId ≠ x :=
      ⟨rfl, fun sessionId h heq => hsession (heq ▸ h)⟩
    have hopening : ∀ run, s.1 = some run → Opening x worker.id run := by
      intro run' hrun'
      obtain rfl := Option.some.inj (hrun.symm.trans hrun')
      exact ⟨havoids run hrun, by rw [hlatest]; exact hpending, by rw [hlatest]; exact hsession⟩
    refine (Contract.safe_alone_unless (K := Existing x)
      (J := fun s => Spares x s.2 ∧ ∀ run, s.1 = some run → Opening x worker.id run) hphases
      (Execution.withinWhen_openAttempt run prompt strategy agent model cleanupRequested hgranted)
      hexisting ?_ (.inr ⟨hidle.spares, hopening⟩)).mono ?_ ?_
    · intro op s answer stored hop hopens hs hanswer _
      have hspares : Spares x (s.2 ++ [⟨(), op, answer⟩]) := by
        refine hs.1.append fun hprompted => ?_
        obtain ⟨execution, hexecution, hsent⟩ := Option.bind_eq_some_iff.1 hprompted
        exact absurd rfl (hopens.prompts execution x hexecution hsent)
      refine ⟨hspares, ?_⟩
      -- the call either brings the session back or keeps the worker clear of it
      rcases opening_step hs.2 hopens hanswer with hrestores | ⟨hopening, hgrants⟩
      · exact .inl ⟨hspares, isDeleted_append_of_restores hrestores⟩
      · exact .inr ⟨⟨hspares, hopening⟩, hgrants⟩
    · rintro opened s (hs | ⟨-, hs⟩)
      · exact ⟨hs.1, .inl hs.2⟩
      · exact ⟨hs.1, .inr fun run hrun => (hs.2 run hrun).avoids⟩
    · rintro error s (hs | hs)
      · exact hs.1
      · exact hs.1

lemma safe_clock {workerId : String} (hs : Idle x s) :
    (contract x).Safe (fun _ s => Idle x s) (fun _ s => Spares x s.2)
      (Command.clock (.recording workerId)) s := by
  refine Contract.safe_call_alone fun now stored hanswer _ => ?_
  have hcall : Call.Settles .attempting ⟨.recording workerId, .now⟩ := ⟨rfl, .now⟩
  have hidle := hs.of_settles hcall (fun h => by cases h) hanswer
  exact ⟨hidle.spares, hidle⟩

/-- Recording an outcome settles, and leaves the stored run in hand. -/
lemma safe_recordOutcome {worker : WorkerRecord} {attemptId : String}
    {attempt : WorkerAttemptOutcome} {createdSessionIds : List String} (hs : Idle x s) :
    (contract x).Safe (fun outcome s => Idle x s ∧ s.1 = some outcome.run)
      (fun _ s => Spares x s.2)
      (Execution.recordOutcome worker attemptId attempt createdSessionIds) s := by
  unfold Execution.recordOutcome
  refine Contract.Safe.bind (M := fun _ s => Idle x s) (E := fun _ s => Spares x s.2) ?_
    (fun now s hs => ?_) fun _ _ h => h
  · split_ifs
    · exact safe_clock hs
    · exact hs
  refine (safe_clock hs).bind (fun finishedAt s hs => ?_) fun _ _ h => h
  refine Contract.safe_bind_iff.2 (Contract.safe_bind_iff.2 (Command.safe_persist_alone
    fun answer stored hupdates _ => ?_))
  have hidle := hs.of_settles Execution.settles_recordedOutcome (by decide) hupdates
  refine ⟨hidle.spares, ?_⟩
  cases answer with
  | rejected error => exact hidle.spares
  | lost error => exact hidle.spares
  | committed now' seen saved => exact ⟨hidle, hupdates.of_committed.2.1⟩

/-! ## Starts -/

/-- Applying the request of a start under the condition: a deleted session is not in use. -/
lemma idle_of_applied {request : StartRequest} {now : String} {seen saved : Run}
    (hs : Spares x s.2)
    (hcond : NoPendingDeleted s ⟨.requesting, .updateRun (.applyStartRequest request)⟩)
    (hupdates : Updates (RunMutation.applyStartRequest request).apply s.1
      (.committed now seen saved) stored) :
    Idle x (stored, s.2 ++ [⟨(), ⟨.requesting, .updateRun (.applyStartRequest request)⟩,
      UpdateAnswer.committed now seen saved⟩]) := by
  obtain ⟨hseen, hstored, left, hleft, rfl⟩ := hupdates.of_committed
  have hquiet : Call.Quiet .deciding ⟨.requesting, .updateRun (.applyStartRequest request)⟩ :=
    ⟨rfl, nofun⟩
  refine ⟨hs.append_of_quiet hquiet, ?_⟩
  by_cases hset : request.sessionId = some x
  · refine .inl (isDeleted_append_of_restores ?_)
    exact Bool.and_eq_true_iff.2 ⟨decide_eq_true hset, rfl⟩
  · cases hdeleted : isDeleted x s.2 with
    | false => exact .inl (isDeleted_append_of_stage (fun h => by cases h) hdeleted)
    | true =>
      right
      rintro run hrun workerId hprompt hpending hsession
      obtain rfl := Option.some.inj (hstored.symm.trans hrun)
      have hexists := hcond request now seen left workerId x rfl hseen hleft hprompt hpending
        hsession hset
      exact Bool.false_ne_true (hexists.symm.trans hdeleted)

theorem startRule (x : String) (policy : ExecutionPolicy) :
    StartRule NoPendingDeleted (fun s => Spares x s.2) (fun s => Spares x s.2) (Idle x) policy where
  quiet stage call s answer stored _ hcall hspares _ := hspares.append_of_quiet hcall
  holds_of_before _ h := h
  holds_of_idle _ h := h.spares
  requesting call s answer stored hcall hspares _ := hspares.append_of_quiet hcall
  applied request s now seen saved stored hspares hcond hupdates :=
    idle_of_applied hspares hcond hupdates
  deciding call s answer stored hcall hidle hanswer := hidle.of_settles hcall (by decide) hanswer
  attempt s run worker prompt strategy agent model cleanupRequested hidle hrun hget hexec := by
    rw [Execution.execute_eq_bind]
    refine (safe_openAttempt hidle hrun hget hexec).bind (fun opened s hs => ?_) fun _ _ h => h
    refine (safe_recordOutcome hs).mono (fun outcome s hs => ?_) fun _ _ h => h
    exact ⟨hs.1.spares, hs.2, .inr (.inl hs.1)⟩

/-- Starts one after another, by induction on their list. -/
lemma safe_startSequence {datetime : Datetime} {rounds : Nat} {starts : List (RunStartRequest × Nat)}
    (hs : Spares x s.2) :
    (contract x).Safe (fun _ s => Spares x s.2) (fun _ _ => True)
      (startSequence datetime rounds starts) s := by
  induction starts generalizing s with
  | nil => exact hs
  | cons first rest ih =>
    obtain ⟨request, steps⟩ := first
    have hstart : (contract x).Safe (fun _ s => Spares x s.2) (fun _ s => Spares x s.2)
        (Commands.startRun datetime rounds request) s := by
      cases hpolicy : Flow.normalizeExecutionPolicy request.start.executionPolicy with
      | ok policy =>
        exact (startRule x policy).safe_startRun
          (fun policy' h => (Except.ok.inj (hpolicy.symm.trans h)).symm) hs
      | error error =>
        refine (startRule x .failFast).safe_startRun (fun policy' h => ?_) hs
        cases hpolicy.symm.trans h
    exact (Contract.safe_alone_upTo hstart hs steps).bind (fun _ s hs => ih hs) fun _ _ h => h

/-- Any number of starts of one run, each of which may be killed: no prompt is sent to a deleted
session if no worker that may still be executed has a deleted session where a start is applied. -/
theorem sparesDeleted_of_runs (datetime : Datetime) (rounds : Nat)
    (starts : List (RunStartRequest × Nat)) (start : Option Run)
    (events : List (Event storeInterface Unit))
    (c : Config storeInterface PyError Unit Unit StartRecord)
    (hrun : Runs (fun c e c' => Config.Fires (storeSurroundings Unit).recording c e c' ∧
        NoPendingDeleted c.state e.op)
      ⟨(start, []), fun _ => startSequence datetime rounds starts⟩ events c) :
    SparesDeleted events := by
  intro x
  have hnil : Spares x [] := by
    intro earlier e hinitial
    exact absurd (List.prefix_nil.1 hinitial) (by simp)
  have hrecord : c.state.2 = events := Contract.record_of_runs hrun
  rw [← hrecord]
  exact Contract.holds_of_alone (safe_startSequence (s := (start, [])) hnil) hnil hrun

/-! ## Two starts -/

/-- A worker that is queued with a prompt, without a session. -/
def promptedWorkers : WorkerMap :=
  WorkerMap.empty.set { id := ⟨"a", WorkerId.nonempty_a⟩, prompt := some "work" }

/-- A server that creates `ses_1` and forgets the sessions it is told to delete. -/
def forgettingServer : ScriptedServer where
  createdSession := "ses_1"
  execute _ := .ok { status := "done" }
  readable _ := false
  sessionNonempty := ScriptedServer.nonempty_ses_1

/-- A start with a cleanup, and one that requeues its worker with a prompt. -/
def startAgain (sessionId : Option String) : List (RunStartRequest × Nat) :=
  [({ name := "demo", start := { cleanup := true } }, 40),
    ({ name := "demo", prompt := some "again", start := { workerId := "a", sessionId := sessionId } },
      40)]

/-- The run of the two starts. -/
def startedAgain (sessionId : Option String) :
    Config storeInterface PyError Unit Unit StartRecord where
  state := (some { Run.new "demo" "/" "" with workers := promptedWorkers }, [])
  program _ := startSequence .unreadable 2 (startAgain sessionId)

/-- Whether a worker may still be executed on a deleted session that a request does not set. -/
def isPendingDeleted (request : StartRequest) (events : List (Event storeInterface Unit))
    (worker : WorkerRecord) : Bool :=
  worker.hasPrompt && worker.lifecycleState.pending &&
    worker.sessionId.any fun x => request.sessionId ≠ some x && isDeleted x events

/-- The requests of starts that leave no such worker are allowed. -/
def allowFresh (s : StartRecord) : Call → Bool
  | ⟨_, .updateRun (.applyStartRequest request)⟩ =>
    s.1.all fun run =>
      match run.applyStartRequest request with
      | .ok left => left.workers.toList.all fun worker => !isPendingDeleted request s.2 worker
      | .error _ => true
  | _ => true

lemma noPendingDeleted_of_allowFresh (h : allowFresh s call = true) : NoPendingDeleted s call := by
  rintro request now run left workerId x rfl hrun hleft hprompt hpending hsession hset
  have hall : left.workers.toList.all (fun worker => !isPendingDeleted request s.2 worker) =
      true := by
    have hleft' : run.applyStartRequest request = .ok left := hleft
    simpa only [allowFresh, hrun, Option.all_some, hleft'] using h
  cases hget : left.workers.get? workerId.value with
  | none =>
    rw [Run.latestWorker, hget] at hprompt
    cases hprompt
  | some worker =>
    rw [Run.latestWorker_of_get? hget] at hprompt hpending hsession
    have hmem : worker ∈ left.workers.toList :=
      List.mem_map_of_mem (Dict.mem_entries_iff.2 hget)
    simpa [isPendingDeleted, hprompt, hpending, hsession, hset] using List.all_eq_true.1 hall worker hmem

/-- When the second start sets a session, the worker is prompted again, on that session. -/
theorem sparesDeleted_newSession :
    ∃ events, ∃ c : Config storeInterface PyError Unit Unit StartRecord,
      Runs (fun c e c' => Config.Fires (storeSurroundings Unit).recording c e c' ∧
        NoPendingDeleted c.state e.op) (startedAgain (some "ses_2")) events c ∧
      events.filterMap promptedSession = ["ses_1", "ses_2"] ∧ SparesDeleted events := by
  have hplay : ((startedAgain (some "ses_2")).play (forgettingServer.turns allowFresh 40)).map
      (fun result => result.1.filterMap promptedSession) = some ["ses_1", "ses_2"] := by
    decide +kernel
  obtain ⟨⟨events, c⟩, hplayed, hprompts⟩ := Option.map_eq_some_iff.1 hplay
  have hrun := ScriptedServer.runs_of_play (fun _ _ => noPendingDeleted_of_allowFresh) hplayed
  exact ⟨events, c, hrun, hprompts,
    sparesDeleted_of_runs .unreadable 2 (startAgain (some "ses_2")) _ events c hrun⟩

/-- When it does not, the worker is prompted on the session that the first start has deleted. -/
theorem not_sparesDeleted_requeued :
    ∃ events, ∃ c : Config storeInterface PyError Unit Unit StartRecord,
      Runs (Config.Fires (storeSurroundings Unit).recording) (startedAgain none) events c ∧
      ¬ SparesDeleted events := by
  have hplay : ((startedAgain none).play (forgettingServer.turns (fun _ _ => true) 37)).map
      (fun result => (result.1.getLast?.bind promptedSession, isDeleted "ses_1" result.1.dropLast)) =
        some (some "ses_1", true) := by
    decide +kernel
  obtain ⟨⟨events, c⟩, hplayed, hlast⟩ := Option.map_eq_some_iff.1 hplay
  obtain ⟨hprompted, hdeleted⟩ := Prod.ext_iff.1 hlast
  obtain ⟨e, he, hsession⟩ := Option.bind_eq_some_iff.1 hprompted
  have hevents : events.dropLast ++ [e] = events := List.dropLast_append_getLast? e he
  have hinitial : events.dropLast ++ [e] <+: events := ⟨[], by rw [List.append_nil, hevents]⟩
  have hrun := ScriptedServer.runs_of_play (fun _ _ _ => trivial) hplayed
  refine ⟨events, c, hrun.mono fun _ _ _ h => h.1, fun hspares => ?_⟩
  have hexists := hspares "ses_1" events.dropLast e hinitial hsession
  exact Bool.false_ne_true (hexists.symm.trans hdeleted)

end DeletedSessions

end OpencodeSession
