import OpencodeSession.Properties.StartRule

/-!
# The rule for commands that are alone

Any commands on one run, one after another: starts, loads, edits, requeues and aborts.  Each of them
may fail (`commandSequence`), or be killed (`interruptedSequence`).  `CommandRule` lists what is
left to prove of an assertion about one worker that holds between two attempts: which transitions of
the worker keep it, that recovering a stale attempt does, and what one attempt comes to.
-/

namespace OpencodeSession

/-! ## Requests that leave a worker alone -/

/-- A request that replays no snapshot, and applies to a worker only transitions with a property. -/
def Call.Spares (workerId : WorkerId) (P : WorkerTransition → Prop) (call : Call) : Prop :=
  call.Applies fun transition => (∀ patch, transition.payload ≠ .snapshotApplied patch) ∧
    (transition.workerId = workerId → P transition)

namespace Call.Spares

variable {workerId other : WorkerId} {P : WorkerTransition → Prop} {call : Call} {stage : Stage}

lemma of_applies (hP : ∀ t, P t → ∀ patch, t.payload ≠ .snapshotApplied patch)
    (h : call.Applies P) : call.Spares workerId P :=
  fun mutation hmutation t ht =>
    have hkeeps := h mutation hmutation t ht
    ⟨hP t hkeeps, fun _ => hkeeps⟩

lemma of_eq_none (h : call.request.mutation? = none) : call.Spares workerId P :=
  Call.applies_of_eq_none h

lemma of_requests (h : call.Requests) : call.Spares workerId P := by
  intro mutation hmutation t ht
  cases h.updates mutation hmutation with
  | applyStartRequest | upsertWorker => exact ht.elim

lemma of_plain (hP : ∀ t : WorkerTransition, t.Plain → P t) (h : call.Plain stage) :
    call.Spares workerId P := by
  intro mutation hmutation t ht
  cases h.updates mutation hmutation with
  | markRunActive | refreshSummary => exact ht.elim
  | applyTransitions hplain =>
    exact ⟨TransitionPayload.ne_snapshotApplied_of_settles (hplain t ht).settles,
      fun _ => hP t (hplain t ht)⟩

lemma of_opens {allowed : String → Prop} (hne : other ≠ workerId) (h : call.Opens other allowed) :
    call.Spares workerId P := by
  intro mutation hmutation t ht
  cases h.updates mutation hmutation with
  | applyTransition hid hopens =>
    obtain rfl := List.mem_singleton.1 ht
    exact ⟨TransitionPayload.ne_snapshotApplied_of_opens hopens,
      fun hsame => absurd (hid.symm.trans hsame) hne⟩
  | journal hupdate =>
    obtain ⟨⟨id, sessionId, response, habort⟩, -⟩ := ht
    exact (hupdate _ habort).elim

lemma of_records (hne : other ≠ workerId) (h : call.Records other) : call.Spares workerId P := by
  obtain ⟨phase, request⟩ := call
  intro mutation hmutation t ht
  cases request with
  | updateRun mutation' =>
    cases hmutation
    obtain ⟨transition, rfl, hid⟩ := h.transition _ rfl
    obtain rfl := List.mem_singleton.1 ht
    have hsettles := h.request.updates rfl
    cases hsettles with
    | applyTransitions hsettles =>
      exact ⟨TransitionPayload.ne_snapshotApplied_of_settles (hsettles t ht),
        fun hsame => absurd (hid.symm.trans hsame) hne⟩
  | _ => cases hmutation

end Call.Spares

/-! ## One worker of the stored run -/

/-- The stored worker, which is a new one where there is no run. -/
def latestOf (workerId : WorkerId) (stored : Option Run) : WorkerRecord :=
  match stored with
  | some run => run.latestWorker workerId
  | none => .default workerId

/-- A field that neither edits nor the transitions of a worker change stays as it is. -/
lemma Call.Spares.latestOf_eq {workerId : WorkerId} {P : WorkerTransition → Prop} {call : Call}
    {stored stored' : Option Run} {answer : call.request.Answer} {β : Type} (f : WorkerRecord → β)
    (hf : ∀ latest worker : WorkerRecord, latest.EditedFrom worker → f worker = f latest)
    (hP : ∀ t : WorkerTransition, P t → ∀ latest : WorkerRecord, f (latest.reduce t) = f latest)
    (h : call.Spares workerId P) (hanswer : call.request.Responds stored answer stored') :
    f (latestOf workerId stored') = f (latestOf workerId stored) := by
  obtain ⟨phase, request⟩ := call
  cases hmutation : request.mutation? with
  | none =>
    rcases Request.Responds.stored_eq hanswer hmutation with rfl | ⟨rfl, name, directory, url, rfl⟩
    · rfl
    · rfl
  | some mutation =>
    cases request with
    | updateRun mutation' =>
      have hspared := h mutation' rfl
      have hkept : ∀ now run left, mutation'.apply now run = .ok left →
          f (latestOf workerId (some left.normalize)) = f (latestOf workerId (some run)) := by
        intro now run left hleft
        have hsame : f (left.latestWorker workerId) = f (run.latestWorker workerId) :=
          RunMutation.apply_latestWorker_eq f hf (fun t ht => (hspared t ht).1)
            (fun t ht hid => hP t ((hspared t ht).2 hid)) hleft
        exact hsame
      have hupdates : Updates mutation'.apply stored answer stored' := hanswer
      cases hupdates with
      | committed _ hleft => exact hkept _ _ _ hleft
      | raised | failed => rfl
      | lost _ hleft _ => exact hkept _ _ _ hleft
    | _ => cases hmutation

lemma latestOf_of_written {workerId : WorkerId} {transition : WorkerTransition}
    {answer : UpdateAnswer} {before stored : Option Run}
    (hsnapshot : ∀ patch, transition.payload ≠ .snapshotApplied patch)
    (hid : transition.workerId = workerId)
    (h : Updates (RunMutation.applyTransitions [transition]).apply before answer stored)
    (hwritten : answer.written = true) :
    latestOf workerId stored = (latestOf workerId before).reduce transition := by
  obtain ⟨now, seen, left, rfl, hleft, rfl⟩ := h.of_written hwritten
  obtain ⟨run', hrun', hworkers⟩ := RunMutation.applyTransitions_eq_ok hleft
  obtain ⟨-, hget⟩ := Run.get?_applyTransitions_of_mem (by simpa using hsnapshot) (by simp) hrun'
    (List.mem_singleton_self transition)
  rw [hid, ← hworkers, ← Run.workers_normalize] at hget
  exact Run.latestWorker_of_get? hget

lemma latestOf_of_updates {workerId : WorkerId} {transition : WorkerTransition}
    {answer : UpdateAnswer} {before stored : Option Run}
    (hsnapshot : ∀ patch, transition.payload ≠ .snapshotApplied patch)
    (hid : transition.workerId = workerId)
    (h : Updates (RunMutation.applyTransitions [transition]).apply before answer stored) :
    stored = before ∨
      latestOf workerId stored = (latestOf workerId before).reduce transition := by
  cases answer with
  | rejected error => exact .inl h.stored_of_rejected
  | committed now seen saved => exact .inr (latestOf_of_written hsnapshot hid h rfl)
  | lost error => exact .inr (latestOf_of_written hsnapshot hid h rfl)

/-- What every transition of the worker keeps, an update with transitions keeps. -/
lemma latestOf_keeps {workerId : WorkerId} {transitions : List WorkerTransition}
    {answer : UpdateAnswer} {before stored : Option Run} {P : WorkerRecord → Prop}
    (hsnapshot : ∀ t ∈ transitions, ∀ patch, t.payload ≠ .snapshotApplied patch)
    (hkeeps : ∀ t ∈ transitions, t.workerId = workerId → ∀ latest : WorkerRecord,
      P latest → P (latest.reduce t))
    (h : Updates (RunMutation.applyTransitions transitions).apply before answer stored)
    (hbefore : P (latestOf workerId before)) : P (latestOf workerId stored) := by
  have hkept : ∀ {now : String} {run left : Run}, P (run.latestWorker workerId) →
      (RunMutation.applyTransitions transitions).apply now run = .ok left →
        P (left.normalize.latestWorker workerId) := by
    intro now run left hrun hleft
    obtain ⟨run', hrun', hworkers⟩ := RunMutation.applyTransitions_eq_ok hleft
    have hlatest : left.normalize.latestWorker workerId = run'.latestWorker workerId :=
      Run.latestWorker_congr (by rw [Run.workers_normalize, hworkers])
    rw [hlatest]
    exact Run.applyTransitions_keeps hsnapshot hrun'
      (fun t ht hid latest _ => hkeeps t ht hid latest) hrun
  cases h with
  | committed _ hleft => exact hkept hbefore hleft
  | raised | failed => exact hbefore
  | lost _ hleft _ => exact hkept hbefore hleft

/-! ## Commands one after another -/

/-- Commands one after another, whether or not they fail. -/
def commandSequence : List RunCommand → Command Unit
  | [] => return ()
  | command :: rest => do
    let _ ← command.process.attempt
    commandSequence rest

/-- Commands one after another, each of which may be killed after a number of requests. -/
def interruptedSequence : List (RunCommand × Nat) → Command Unit
  | [] => return ()
  | (command, steps) :: rest => do
    command.process.upTo steps
    interruptedSequence rest

/-- What is to be proved of an assertion about a worker that holds between two attempts: `holds` is
what every step leaves, and the transitions of the worker with `P` keep the assertion. -/
structure CommandRule (cond : StartRecord → Call → Prop) (holds idle : StartRecord → Prop)
    (workerId : WorkerId) (P : WorkerTransition → Prop) : Prop where
  holds_of_idle : ∀ s, idle s → holds s
  snapshot : ∀ t, P t → ∀ patch, t.payload ≠ .snapshotApplied patch
  outside : ∀ t : WorkerTransition, t.Outside → P t
  /-- Requests that leave the worker alone. -/
  spares : ∀ (s : StartRecord) (call : Call) (answer : call.request.Answer) (stored : Option Run),
    call.Spares workerId P → idle s → call.request.Responds s.1 answer stored → cond s call →
      idle (stored, s.2 ++ [⟨(), call, answer⟩])
  /-- The recovery of the stale attempts of the stored run. -/
  recovered : ∀ (datetime : Datetime) (now : String) (recoveries : List ActiveAttemptRecovery)
    (run : Run) (s : StartRecord) (phase : Phase) (answer : UpdateAnswer) (stored : Option Run),
    recoverExpiredActiveAttempts datetime run.sortedWorkers now = .ok recoveries → idle s →
      s.1 = some run → Updates (RunMutation.applyTransitions (recoveries.map
        ActiveAttemptRecovery.transition)).apply s.1 answer stored →
        idle (stored, s.2 ++ [⟨(), ⟨phase, .updateRun (.applyTransitions (recoveries.map
          ActiveAttemptRecovery.transition))⟩, answer⟩])
  /-- One attempt of the worker, which is executable in the stored run. -/
  attempt : ∀ (s : StartRecord) (run : Run) (worker : WorkerRecord) (prompt : String)
    (strategy : BlockingStrategy) (agent model : Option String) (cleanupRequested : Bool),
    idle s → s.1 = some run → run.workers.get? worker.id.value = some worker →
      worker.isExecutable = true → worker.id = workerId →
        (aloneContract cond holds).Safe (fun _ s => idle s) (fun _ s => idle s)
          (Execution.execute run worker prompt strategy agent model cleanupRequested) s

namespace CommandRule

variable {cond : StartRecord → Call → Prop} {holds idle : StartRecord → Prop}
  {workerId : WorkerId} {P : WorkerTransition → Prop} {s : StartRecord}

section

variable (rule : CommandRule cond holds idle workerId P)
include rule

lemma safe_of_spares {α : Type} {p : Command α}
    (h : p.Within (Call.Spares workerId P) fun _ => True) (hs : idle s) :
    (aloneContract cond holds).Safe (fun _ s => idle s) (fun _ s => idle s) p s :=
  (Contract.safe_alone_of_within (J := idle) h
    (fun call s answer stored hcall hs hanswer hcond =>
      have hidle := rule.spares s call answer stored hcall hs hanswer hcond
      ⟨rule.holds_of_idle _ hidle, hidle⟩) hs).mono (fun _ _ h => h.2) fun _ _ h => h

/-- An attempt of any worker that is executable in the stored run. -/
lemma safe_execute {run : Run} {worker : WorkerRecord} {prompt : String}
    {strategy : BlockingStrategy} {agent model : Option String} {cleanupRequested : Bool}
    (hs : idle s) (hrun : s.1 = some run) (hget : run.workers.get? worker.id.value = some worker)
    (hexec : worker.isExecutable = true) :
    (aloneContract cond holds).Safe (fun outcome s => idle s ∧ s.1 = some outcome.run)
      (fun _ s => idle s)
      (Execution.execute run worker prompt strategy agent model cleanupRequested) s := by
  by_cases hid : worker.id = workerId
  · have hstored : (aloneContract cond fun _ => True).Safe
        (fun outcome s => True ∧ s.1 = some outcome.run) (fun _ _ => True)
        (Execution.execute run worker prompt strategy agent model cleanupRequested) s :=
      Execution.safe_execute_keeping (J := fun _ => True) (fun _ _ => trivial)
        (fun _ _ _ _ _ _ _ _ => trivial) (fun _ _ _ _ _ _ _ _ => trivial) trivial
    exact (Contract.Safe.and_alone (rule.attempt s run worker prompt strategy agent model
      cleanupRequested hs hrun hget hexec hid) hstored).mono (fun _ _ h => ⟨h.1, h.2.2⟩)
      fun _ _ h => h.1
  · exact Execution.safe_execute_keeping rule.holds_of_idle
      (fun call s answer stored hcall => rule.spares s call answer stored (.of_opens hid hcall))
      (fun call s answer stored hcall => rule.spares s call answer stored (.of_records hid hcall)) hs

theorem serial (policy : ExecutionPolicy) : SerialRule cond holds idle idle idle policy where
  holds_of_ends := rule.holds_of_idle
  ends_of_before _ h := h
  ends_of_idle _ h := h
  quiet _ call s answer stored _ hcall :=
    rule.spares s call answer stored (.of_plain (fun t ht => rule.outside t ht.outside) hcall.toPlain)
  requesting call s answer stored hcall := rule.spares s call answer stored (.of_requests hcall)
  applied request s _ _ _ stored h hcond hupdates :=
    rule.spares s ⟨.requesting, .updateRun (.applyStartRequest request)⟩ _ stored
      (.of_requests ((RunMutation.IsRequest.applyStartRequest request).call rfl)) h hupdates hcond
  deciding call s answer stored hcall _ :=
    rule.spares s call answer stored (.of_plain (fun t ht => rule.outside t ht.outside) hcall.toPlain)
  recovered datetime now recoveries run s answer stored hrecoveries h hrun hupdates :=
    rule.recovered datetime now recoveries run s _ answer stored hrecoveries h hrun hupdates
  attempt _ _ _ _ _ _ _ _ h hrun hget hexec :=
    (rule.safe_execute h hrun hget hexec).mono (fun _ _ hs => ⟨hs.1, hs.2, .inr (.inl hs.1)⟩)
      fun _ _ hs => hs

lemma safe_startRun {datetime : Datetime} {rounds : Nat} {request : RunStartRequest} (hs : idle s) :
    (aloneContract cond holds).Safe (fun _ s => idle s) (fun _ s => idle s)
      (Commands.startRun datetime rounds request) s := by
  have hcleaning : ∀ (call : Call) (s : StartRecord) (answer : call.request.Answer)
      (stored : Option Run), call.Plain .ending → idle s → call.request.Responds s.1 answer stored →
        cond s call → idle (stored, s.2 ++ [⟨(), call, answer⟩]) :=
    fun call s answer stored hcall => rule.spares s call answer stored
      (.of_plain (fun t ht => rule.outside t ht.outside) hcall)
  cases hpolicy : Flow.normalizeExecutionPolicy request.start.executionPolicy with
  | ok policy =>
    refine (rule.serial policy).safe_startRun (fun policy' h => ?_) hcleaning hs
    exact (Except.ok.inj (hpolicy.symm.trans h)).symm
  | error error =>
    refine (rule.serial .failFast).safe_startRun (fun policy' h => ?_) hcleaning hs
    cases hpolicy.symm.trans h

lemma safe_loadRun {datetime : Datetime} (hs : idle s) :
    (aloneContract cond holds).Safe (fun _ s => idle s) (fun _ s => idle s)
      (Commands.loadRun datetime) s := by
  unfold Commands.loadRun
  refine Contract.safe_call_alone fun loaded stored hloaded hcond => ?_
  have hidle := rule.spares s ⟨.serving, .loadRun⟩ loaded stored (.of_eq_none rfl) hs hloaded hcond
  refine ⟨rule.holds_of_idle _ hidle, ?_⟩
  cases loaded with
  | error error => exact hidle
  | ok run =>
    refine Contract.safe_call_alone fun now stored' hnow hcond' => ?_
    have hidle' := rule.spares _ ⟨.serving, .now⟩ now stored' (.of_eq_none rfl) hidle hnow hcond'
    refine ⟨rule.holds_of_idle _ hidle', ?_⟩
    have hstored : stored' = some run := Eq.trans hnow (hloaded.1.trans hloaded.2)
    show (aloneContract cond holds).Safe _ _ (Process.ofExcept (recoverExpiredActiveAttempts datetime
      run.sortedWorkers now) >>= _) _
    cases hrecoveries : recoverExpiredActiveAttempts datetime run.sortedWorkers now with
    | error error => exact hidle'
    | ok recoveries =>
      rw [Process.ofExcept_ok, Process.done_bind]
      split_ifs
      · exact hidle'
      · exact (Command.safe_persist_keeping rule.holds_of_idle fun answer stored'' hupdates _ =>
          rule.recovered datetime now recoveries run _ _ answer stored'' hrecoveries hidle' hstored
            hupdates).mono (fun _ _ h => h.1) fun _ _ h => h

/-- Every command leaves the worker between two attempts. -/
lemma safe_process (command : RunCommand) (hs : idle s) :
    (aloneContract cond holds).Safe (fun _ s => idle s) (fun _ s => idle s) command.process s := by
  cases command with
  | start datetime rounds request =>
    exact (rule.safe_startRun hs).bind (fun _ _ h => h) fun _ _ h => h
  | load datetime => exact (rule.safe_loadRun hs).bind (fun _ _ h => h) fun _ _ h => h
  | upsert id changes status =>
    have hspares : (Commands.upsertWorker id changes status).Within (Call.Spares workerId P)
        fun _ => True :=
      (Commands.within_upsertWorker rule.outside id changes status).mono
        (fun _ h => .of_applies rule.snapshot h) fun _ h => h
    exact (rule.safe_of_spares hspares hs).bind (fun _ _ h => h) fun _ _ h => h
  | requeue request prompt =>
    have hspares : (Commands.ensurePromptWorker request prompt).Within (Call.Spares workerId P)
        fun _ => True :=
      (Commands.within_ensurePromptWorker request prompt).mono (fun _ h => .of_requests h)
        fun _ h => h
    exact (rule.safe_of_spares hspares hs).bind (fun _ _ h => h) fun _ _ h => h
  | abort id =>
    have hspares : (Commands.abortWorker id).Within (Call.Spares workerId P) fun _ => True :=
      (Commands.applies_abortWorker (fun t abort hpayload hfinal =>
        rule.outside t ⟨.inr (.inr ⟨abort, hpayload⟩), hfinal⟩) id).mono
        (fun _ h => .of_applies rule.snapshot h) fun _ h => h
    exact (rule.safe_of_spares hspares hs).bind (fun _ _ h => h) fun _ _ h => h

theorem safe_commandSequence (commands : List RunCommand) (hs : idle s) :
    (aloneContract cond holds).Safe (fun _ s => idle s) (fun _ _ => False)
      (commandSequence commands) s := by
  induction commands generalizing s with
  | nil => exact hs
  | cons command rest ih =>
    exact Contract.safe_bind_iff.2 (Contract.safe_attempt_iff.2
      ((rule.safe_process command hs).mono (fun _ _ h => ih h) fun _ _ h => ih h))

end

/-- Commands that may be killed, of an assertion that every step leaves. -/
theorem safe_interruptedSequence (rule : CommandRule cond holds idle workerId P)
    (hidle : ∀ s, holds s → idle s) (commands : List (RunCommand × Nat)) (hs : idle s) :
    (aloneContract cond holds).Safe (fun _ s => idle s) (fun _ _ => True)
      (interruptedSequence commands) s := by
  induction commands generalizing s with
  | nil => exact hs
  | cons first rest ih =>
    obtain ⟨command, steps⟩ := first
    exact (Contract.safe_alone_upTo (rule.safe_process command hs) (rule.holds_of_idle _ hs)
      steps).bind (fun _ s hs => ih (hidle s hs)) fun _ _ h => h

end CommandRule

end OpencodeSession
