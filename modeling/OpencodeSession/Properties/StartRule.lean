import OpencodeSession.Orchestration.SingleWriter
import OpencodeSession.Properties.Planner

/-!
# The rule for a start that is alone

What a start does between its attempts is the same for every property of its runs: it decides with
settling requests, holds the stored run in hand, and takes up a worker that is ready in it.
`SerialRule` lists what is left to prove of a property: what the requests outside of the attempts
keep, that applying the request of the start establishes the assertion that holds between attempts,
what recovery does, and what one attempt of an executable worker comes to.  The lemmas follow the
phases of a start, by induction on the rounds of the loop, up to `SerialRule.safe_startRun`.

`StartRule` is the case of a property that is promised of every step and of nothing else.  Every
phase that returns leaves a refreshed run, and `LeavesFailed` is what there is to say of one that
ends for all workers: a worker which was to be executed is not done.
-/

namespace OpencodeSession

/-- The contract of a command that is alone. -/
abbrev aloneContract (cond : StartRecord → Call → Prop) (holds : StartRecord → Prop) :
    Contract storeInterface StartRecord :=
  Contract.alone (storeSurroundings Unit) cond holds

/-- What is to be proved of a start under a policy: `holds` is what every step leaves, `before` is
what there is before the request of the start is applied, and `idle` is what there is between two
attempts. -/
structure StartRule (cond : StartRecord → Call → Prop) (holds before idle : StartRecord → Prop)
    (policy : ExecutionPolicy) : Prop where
  /-- Requests outside of the attempts keep what is promised. -/
  quiet : ∀ (stage : Stage) (call : Call) (s : StartRecord) (answer : call.request.Answer)
    (stored : Option Run), stage ≠ .attempting → call.Quiet stage → holds s →
      call.request.Responds s.1 answer stored → holds (stored, s.2 ++ [⟨(), call, answer⟩])
  holds_of_before : ∀ s, before s → holds s
  holds_of_idle : ∀ s, idle s → holds s
  /-- Requests before the request of the start is applied. -/
  requesting : ∀ (call : Call) (s : StartRecord) (answer : call.request.Answer)
    (stored : Option Run), call.Quiet .deciding → before s →
      call.request.Responds s.1 answer stored → before (stored, s.2 ++ [⟨(), call, answer⟩])
  /-- Applying the request of the start. -/
  applied : ∀ (request : StartRequest) (s : StartRecord) (now : String) (seen saved : Run)
    (stored : Option Run), before s → cond s ⟨.requesting, .updateRun (.applyStartRequest request)⟩ →
      Updates (RunMutation.applyStartRequest request).apply s.1 (.committed now seen saved) stored →
        idle (stored, s.2 ++ [⟨(), ⟨.requesting, .updateRun (.applyStartRequest request)⟩,
          UpdateAnswer.committed now seen saved⟩])
  /-- Settling requests between the attempts. -/
  deciding : ∀ (call : Call) (s : StartRecord) (answer : call.request.Answer)
    (stored : Option Run), call.Settles .deciding → idle s →
      call.request.Responds s.1 answer stored → idle (stored, s.2 ++ [⟨(), call, answer⟩])
  /-- One attempt of an executable worker of the stored run. -/
  attempt : ∀ (s : StartRecord) (run : Run) (worker : WorkerRecord) (prompt : String)
    (strategy : BlockingStrategy) (agent model : Option String) (cleanupRequested : Bool),
    idle s → s.1 = some run → run.workers.get? worker.id.value = some worker →
      worker.isExecutable = true →
        (aloneContract cond holds).Safe (fun outcome s => holds s ∧ s.1 = some outcome.run ∧
            ((policy = .failFast ∧ outcome.error.isSome = true) ∨ idle s ∨
              (analyzeWorkerDependencies outcome.run.workers.byId).readyWorkerIds = []))
          (fun _ s => holds s)
          (Execution.execute run worker prompt strategy agent model cleanupRequested) s

/-- What is to be proved of the planning and the execution of a start under a policy: `holds` is
what every step leaves, `ends` is what there is where no attempt is going on, and `idle` is what
there is between two attempts. -/
structure LoopRule (cond : StartRecord → Call → Prop) (holds ends idle : StartRecord → Prop)
    (policy : ExecutionPolicy) : Prop where
  holds_of_ends : ∀ s, ends s → holds s
  ends_of_idle : ∀ s, idle s → ends s
  /-- Requests outside of the attempts. -/
  quiet : ∀ (stage : Stage) (call : Call) (s : StartRecord) (answer : call.request.Answer)
    (stored : Option Run), stage ≠ .attempting → call.Still stage → ends s →
      call.request.Responds s.1 answer stored → cond s call → ends (stored, s.2 ++ [⟨(), call, answer⟩])
  /-- Requests between the attempts. -/
  deciding : ∀ (call : Call) (s : StartRecord) (answer : call.request.Answer)
    (stored : Option Run), call.Still .deciding → call.Settles .deciding → idle s →
      call.request.Responds s.1 answer stored → cond s call →
        idle (stored, s.2 ++ [⟨(), call, answer⟩])
  /-- One attempt of an executable worker of the stored run. -/
  attempt : ∀ (s : StartRecord) (run : Run) (worker : WorkerRecord) (prompt : String)
    (strategy : BlockingStrategy) (agent model : Option String) (cleanupRequested : Bool),
    idle s → s.1 = some run → run.workers.get? worker.id.value = some worker →
      worker.isExecutable = true →
        (aloneContract cond holds).Safe (fun outcome s => ends s ∧ s.1 = some outcome.run ∧
            ((policy = .failFast ∧ outcome.error.isSome = true) ∨ idle s ∨
              (analyzeWorkerDependencies outcome.run.workers.byId).readyWorkerIds = []))
          (fun _ s => ends s)
          (Execution.execute run worker prompt strategy agent model cleanupRequested) s

/-- What is to be proved of a whole start: also `before`, what there is before its request is
applied, and that recovery leaves what there is between two attempts. -/
structure SerialRule (cond : StartRecord → Call → Prop) (holds ends before idle : StartRecord → Prop)
    (policy : ExecutionPolicy) : Prop extends LoopRule cond holds ends idle policy where
  ends_of_before : ∀ s, before s → ends s
  /-- Requests before the request of the start is applied. -/
  requesting : ∀ (call : Call) (s : StartRecord) (answer : call.request.Answer)
    (stored : Option Run), call.Requests → before s →
      call.request.Responds s.1 answer stored → cond s call →
        before (stored, s.2 ++ [⟨(), call, answer⟩])
  /-- Applying the request of the start. -/
  applied : ∀ (request : StartRequest) (s : StartRecord) (now : String) (seen saved : Run)
    (stored : Option Run), before s → cond s ⟨.requesting, .updateRun (.applyStartRequest request)⟩ →
      Updates (RunMutation.applyStartRequest request).apply s.1 (.committed now seen saved) stored →
        idle (stored, s.2 ++ [⟨(), ⟨.requesting, .updateRun (.applyStartRequest request)⟩,
          UpdateAnswer.committed now seen saved⟩])
  /-- The recovery of the stale attempts of the stored run. -/
  recovered : ∀ (datetime : Datetime) (now : String) (recoveries : List ActiveAttemptRecovery)
    (run : Run) (s : StartRecord) (answer : UpdateAnswer) (stored : Option Run),
    recoverExpiredActiveAttempts datetime run.sortedWorkers now = .ok recoveries → idle s →
      s.1 = some run → Updates (RunMutation.applyTransitions (recoveries.map
        ActiveAttemptRecovery.transition)).apply s.1 answer stored →
        idle (stored, s.2 ++ [⟨(), ⟨.recovering none, .updateRun (.applyTransitions (recoveries.map
          ActiveAttemptRecovery.transition))⟩, answer⟩])

namespace Flow

variable {run : Run}

/-- What planning persists. -/
def planMutation (run : Run) : RunMutation :=
  if (planStep run.workers).dependencyBlockedTransitions.isEmpty then .refreshSummary
  else .applyTransitions (planStep run.workers).dependencyBlockedTransitions

lemma get?_of_planned {now : String} {left : Run} {id : String}
    (h : (planMutation run).apply now run = .ok left)
    (hid : (planStep run.workers).workerId = some id) :
    left.workers.get? id = run.workers.get? id := by
  unfold planMutation at h
  split_ifs at h with hempty
  · cases h
    rfl
  · obtain ⟨run', hrun', hworkers⟩ := RunMutation.applyTransitions_eq_ok h
    have hready : id ∈ (analyzeWorkerDependencies run.workers.byId).readyWorkerIds :=
      List.mem_of_head? hid
    rw [hworkers]
    exact (replanned_of_applyTransitions hrun').others id (Workers.mem_readyWorkerIds.1 hready).1

lemma isExecutable_of_planned {id : String} (hid : (planStep run.workers).workerId = some id) :
    ∃ worker, run.workers.get? id = some worker ∧ worker.isExecutable = true := by
  have hready : id ∈ (analyzeWorkerDependencies run.workers.byId).readyWorkerIds :=
    List.mem_of_head? hid
  have hexec := (Workers.mem_readyWorkerIds.1 hready).2.1
  unfold Workers.executable at hexec
  split at hexec
  · next worker hget => exact ⟨worker, hget, hexec⟩
  · cases hexec

lemma isRefreshed_of_planned {seen left : Run} {now : String}
    (h : (planMutation run).apply now seen = .ok left) : left.normalize.IsRefreshed := by
  unfold planMutation at h
  split_ifs at h
  · cases h
    exact Run.isRefreshed_normalize_refreshSummary _
  · exact RunMutation.isRefreshed_of_applyTransitions h

end Flow

/-! ## Single updates -/

/-- An update that keeps an assertion: the record that is saved comes from the stored one. -/
lemma Command.safe_persist_keeping {cond : StartRecord → Call → Prop}
    {holds J : StartRecord → Prop} {s : StartRecord} {phase : Phase} {mutation : RunMutation}
    (hholds : ∀ s, J s → holds s)
    (hkeeps : ∀ (answer : UpdateAnswer) (stored : Option Run),
      Updates mutation.apply s.1 answer stored → cond s ⟨phase, .updateRun mutation⟩ →
        J (stored, s.2 ++ [⟨(), ⟨phase, .updateRun mutation⟩, answer⟩])) :
    (aloneContract cond holds).Safe (fun saved s' => J s' ∧ s'.1 = some saved ∧
        ∃ now seen left, s.1 = some seen ∧ mutation.apply now seen = .ok left ∧
          saved = left.normalize)
      (fun _ s => J s) (Command.persist phase mutation) s := by
  refine Command.safe_persist_alone fun answer stored hupdates hcond => ?_
  have hJ := hkeeps answer stored hupdates hcond
  refine ⟨hholds _ hJ, ?_⟩
  cases answer with
  | committed now seen saved =>
    obtain ⟨hseen, hstored, left, hleft, hsaved⟩ := hupdates.of_committed
    exact ⟨hJ, hstored, now, seen, left, hseen, hleft, hsaved⟩
  | rejected error => exact hJ
  | lost error => exact hJ

/-! ## The request of a start -/

section Requests

variable {cond : StartRecord → Call → Prop} {holds before idle : StartRecord → Prop}
  {post : StartOutcome → StartRecord → Prop} {err : PyError → StartRecord → Prop}
  {s : StartRecord} {α : Type} {datetime : Datetime} {rounds : Nat}

lemma Command.safe_requests {Q : α → Prop} {p : Command α} (hholds : ∀ s, before s → holds s)
    (hrequesting : ∀ (call : Call) (s : StartRecord) (answer : call.request.Answer)
      (stored : Option Run), call.Requests → before s →
        call.request.Responds s.1 answer stored → cond s call →
          before (stored, s.2 ++ [⟨(), call, answer⟩]))
    (h : p.Within Call.Requests Q) (hs : before s) :
    (aloneContract cond holds).Safe (fun a s => Q a ∧ before s) (fun _ s => before s) p s :=
  Contract.safe_alone_of_within h (fun call s answer stored hcall hbefore hanswer hcond =>
    have hbefore' := hrequesting call s answer stored hcall hbefore hanswer hcond
    ⟨hholds _ hbefore', hbefore'⟩) hs

/-- A start up to its flow: the request is applied, and a worker has a prompt. -/
lemma Flow.safe_start_of {request : StartRequest} (hholds : ∀ s, before s → holds s)
    (hrequesting : ∀ (call : Call) (s : StartRecord) (answer : call.request.Answer)
      (stored : Option Run), call.Requests → before s →
        call.request.Responds s.1 answer stored → cond s call →
          before (stored, s.2 ++ [⟨(), call, answer⟩]))
    (happlied : ∀ (s : StartRecord) (now : String) (seen saved : Run) (stored : Option Run),
      before s → cond s ⟨.requesting, .updateRun (.applyStartRequest request)⟩ →
        Updates (RunMutation.applyStartRequest request).apply s.1 (.committed now seen saved) stored →
          idle (stored, s.2 ++ [⟨(), ⟨.requesting, .updateRun (.applyStartRequest request)⟩,
            UpdateAnswer.committed now seen saved⟩]))
    (herr : ∀ error s, before s → err error s) (herr' : ∀ error s, idle s → err error s)
    (hflow : ∀ policy run s, Flow.normalizeExecutionPolicy request.executionPolicy = .ok policy →
      idle s → s.1 = some run → run.workers.toList.any WorkerRecord.hasPrompt = true →
        (aloneContract cond holds).Safe post err
          (Flow.runFlow datetime policy request.cleanup rounds run) s)
    (hbefore : before s) :
    (aloneContract cond holds).Safe post err (Flow.start datetime rounds request) s := by
  unfold Flow.start
  refine (Command.safe_requests hholds hrequesting
    (Command.within_loadRun (Call.requests_of_eq_none rfl rfl nofun rfl)) hbefore).bind
    (fun loaded s hs => ?_) fun _ _ h => herr _ _ h
  obtain ⟨-, hbefore'⟩ := hs
  cases hnormalized : Flow.normalizeExecutionPolicy request.executionPolicy with
  | error error => exact herr _ _ hbefore'
  | ok policy =>
    rw [Process.ofExcept_ok, Process.done_bind]
    refine Contract.safe_bind_iff.2 (Command.safe_persist_alone fun answer stored hupdates hcond => ?_)
    have hbefore'' := hrequesting ⟨.requesting, .updateRun (.applyStartRequest request)⟩ s answer
      stored ((RunMutation.IsRequest.applyStartRequest request).call rfl) hbefore' hupdates
      hcond
    refine ⟨hholds _ hbefore'', ?_⟩
    cases answer with
    | rejected error => exact herr _ _ hbefore''
    | lost error => exact herr _ _ hbefore''
    | committed now seen saved =>
      have hidle := happlied s now seen saved stored hbefore' hcond hupdates
      have hstored : stored = some saved := hupdates.of_committed.2.1
      dsimp only
      split_ifs with hprompt
      · exact hflow policy saved _ hnormalized hidle hstored hprompt
      · exact herr' _ _ hidle

/-- A start with, or without, a prompt for its worker, up to its flow. -/
lemma Commands.safe_startRun_of {request : RunStartRequest} (before idle : StartRecord → Prop)
    (hholds : ∀ s, before s → holds s)
    (hrequesting : ∀ (call : Call) (s : StartRecord) (answer : call.request.Answer)
      (stored : Option Run), call.Requests → before s →
        call.request.Responds s.1 answer stored → cond s call →
          before (stored, s.2 ++ [⟨(), call, answer⟩]))
    (happlied : ∀ (s : StartRecord) (now : String) (seen saved : Run) (stored : Option Run),
      before s → cond s ⟨.requesting, .updateRun (.applyStartRequest request.start)⟩ →
        Updates (RunMutation.applyStartRequest request.start).apply s.1 (.committed now seen saved)
          stored → idle (stored, s.2 ++ [⟨(), ⟨.requesting,
            .updateRun (.applyStartRequest request.start)⟩, UpdateAnswer.committed now seen saved⟩]))
    (herr : ∀ error s, before s → err error s) (herr' : ∀ error s, idle s → err error s)
    (hflow : ∀ policy run s,
      Flow.normalizeExecutionPolicy request.start.executionPolicy = .ok policy →
      idle s → s.1 = some run → run.workers.toList.any WorkerRecord.hasPrompt = true →
        (aloneContract cond holds).Safe post err
          (Flow.runFlow datetime policy request.start.cleanup rounds run) s)
    (hbefore : before s) :
    (aloneContract cond holds).Safe post err (Commands.startRun datetime rounds request) s := by
  unfold Commands.startRun
  split
  · exact Flow.safe_start_of hholds hrequesting happlied herr herr' hflow hbefore
  · next prompt _ =>
    exact (Command.safe_requests hholds hrequesting
      (Commands.within_ensurePromptWorker request prompt) hbefore).bind
      (fun _ s hs => Flow.safe_start_of hholds hrequesting happlied herr herr' hflow hs.2)
      fun _ _ h => herr _ _ h

end Requests

namespace LoopRule

variable {cond : StartRecord → Call → Prop} {holds ends idle : StartRecord → Prop}
  {policy : ExecutionPolicy} {s : StartRecord} {run : Run} {α : Type}

/-- The selected worker of the run in hand, if there is one, is there and executable. -/
def SelectsExecutable (run : Run) (selected : Option String) : Prop :=
  ∀ id, selected = some id → ∃ worker, run.workers.get? id = some worker ∧ worker.isExecutable = true

/-- A worker that was executable between two attempts is not done. -/
def LeavesFailed (idle : StartRecord → Prop) (run : Run) : Prop :=
  ∃ s before worker worker', idle s ∧ s.1 = some before ∧
    before.workers.get? worker.id.value = some worker ∧ worker.isExecutable = true ∧
    run.workers.get? worker.id.value = some worker' ∧ worker'.status ≠ .done

section

variable (rule : LoopRule cond holds ends idle policy)
include rule

lemma holds_of_idle (hs : idle s) : holds s := rule.holds_of_ends s (rule.ends_of_idle s hs)

/-! ## Parts outside of the attempts -/

lemma safe_plan (hidle : idle s) (hrun : s.1 = some run) :
    (aloneContract cond holds).Safe (fun result s => idle s ∧ s.1 = some result.1 ∧
        result.1.IsRefreshed ∧ SelectsExecutable result.1 result.2.workerId)
      (fun _ s => idle s) (Flow.plan run) s := by
  show (aloneContract cond holds).Safe _ _ (Command.persist (.planning (Flow.planStep
    run.workers).workerId) (Flow.planMutation run) >>= _) s
  refine (Command.safe_persist_keeping (fun _ h => rule.holds_of_idle h)
    fun answer stored hupdates hcond =>
    rule.deciding ⟨.planning (Flow.planStep run.workers).workerId, .updateRun
      (Flow.planMutation run)⟩ s answer stored ((Flow.plain_plan run).still rfl)
      (Flow.settles_plan run) hidle hupdates hcond).bind (fun saved s' hs => ?_) fun _ _ h => h
  obtain ⟨hidle', hsaved, now, seen, left, hseen, hleft, rfl⟩ := hs
  obtain rfl := Option.some.inj (hrun.symm.trans hseen)
  refine ⟨hidle', hsaved, Flow.isRefreshed_of_planned hleft, fun id hid => ?_⟩
  obtain ⟨worker, hget, hexec⟩ := Flow.isExecutable_of_planned hid
  exact ⟨worker, (Flow.get?_of_planned hleft hid).trans hget, hexec⟩

lemma safe_replan (hends : ends s) :
    (aloneContract cond holds).Safe (fun result s => ends s ∧ s.1 = some result.1 ∧
        result.1.IsRefreshed ∧ result.2 = Flow.planStep run.workers)
      (fun _ s => ends s) (Flow.plan run) s := by
  show (aloneContract cond holds).Safe _ _ (Command.persist (.planning (Flow.planStep
    run.workers).workerId) (Flow.planMutation run) >>= _) s
  refine (Command.safe_persist_keeping rule.holds_of_ends
    fun answer stored hupdates hcond => rule.quiet .deciding ⟨.planning (Flow.planStep
      run.workers).workerId, .updateRun (Flow.planMutation run)⟩ s answer stored (by decide)
      ((Flow.plain_plan run).still rfl) hends hupdates hcond).bind (fun saved s' hs => ?_) fun _ _ h => h
  obtain ⟨hends', hsaved, now, seen, left, hseen, hleft, rfl⟩ := hs
  exact ⟨hends', hsaved, Flow.isRefreshed_of_planned hleft, rfl⟩

/-! ## The loop -/

lemma safe_executeSelectedWorker {strategy : BlockingStrategy} {selected : String}
    {created : Option CreatedSessions} (hidle : idle s) (hrun : s.1 = some run)
    (hselected : SelectsExecutable run (some selected)) :
    (aloneContract cond holds).Safe (fun result s => ends s ∧ s.1 = some result.1 ∧
        ((policy = .failFast ∧ result.2.1.isSome = true) ∨ idle s ∨
          (analyzeWorkerDependencies result.1.workers.byId).readyWorkerIds = []))
      (fun _ s => ends s) (Flow.executeSelectedWorker strategy run selected created) s := by
  obtain ⟨worker, hget, hexec⟩ := hselected selected rfl
  have hid : worker.id.value = selected := WorkerMap.id_of_get? hget
  unfold Flow.executeSelectedWorker
  rw [hget]
  exact (rule.attempt s run worker _ strategy _ _ _ hidle hrun (hid ▸ hget) hexec).bind
    (fun outcome s hs => hs) fun _ _ h => h

/-- What a round of the loop ends with: an error, or the stored run in hand with a reason to stop,
the next worker, or no worker selected. -/
def RoundEnds (idle : StartRecord → Prop) (policy : ExecutionPolicy) (s : StartRecord) :
    Option CreatedSessions × Except PyError (Run × SerialStep × Option String) → Prop
  | (_, .error _) => True
  | (_, .ok (run, step, error)) => s.1 = some run ∧ run.IsRefreshed ∧
      ((policy = .failFast ∧ error.isSome = true) ∨
        (idle s ∧ SelectsExecutable run step.workerId) ∨ step.workerId = none)

lemma safe_round {strategy : BlockingStrategy} {selected : String}
    {created : Option CreatedSessions} (hidle : idle s) (hrun : s.1 = some run)
    (hselected : SelectsExecutable run (some selected)) :
    (aloneContract cond holds).Safe (fun result s => ends s ∧ RoundEnds idle policy s result)
      (fun _ s => ends s) (Flow.round strategy run selected created) s := by
  unfold Flow.round
  refine Contract.safe_bind_iff.2 (Contract.safe_attempt_iff.2
    ((rule.safe_executeSelectedWorker hidle hrun hselected).mono (fun result s hs => ?_)
      fun error s hs => ⟨hs, trivial⟩))
  obtain ⟨run', workerError, created'⟩ := result
  obtain ⟨hends, hrun', hend⟩ := hs
  refine Contract.safe_bind_iff.2 (Contract.safe_attempt_iff.2 ?_)
  rcases hend with herror | hidle' | hready
  · refine (rule.safe_replan hends).mono (fun planned s hs => ?_) fun _ _ h => ⟨h, trivial⟩
    exact ⟨hs.1, hs.2.1, hs.2.2.1, .inl herror⟩
  · refine (rule.safe_plan hidle' hrun').mono (fun planned s hs => ?_)
      fun _ _ h => ⟨rule.ends_of_idle _ h, trivial⟩
    exact ⟨rule.ends_of_idle _ hs.1, hs.2.1, hs.2.2.1, .inr (.inl ⟨hs.1, hs.2.2.2⟩)⟩
  · refine (rule.safe_replan hends).mono (fun planned s hs => ?_) fun _ _ h => ⟨h, trivial⟩
    obtain ⟨saved, step⟩ := planned
    obtain ⟨hends', hsaved, hrefreshed, hstep⟩ := hs
    obtain rfl : step = Flow.planStep run'.workers := hstep
    exact ⟨hends', hsaved, hrefreshed, .inr (.inr (by rw [Flow.planStep, hready]; rfl))⟩

/-- What the loop ends with: an error, or the stored run in hand, refreshed. -/
def LoopEnds (s : StartRecord) :
    Option CreatedSessions × Except PyError (Run × Option String × Option String) → Prop
  | (_, .error _) => True
  | (_, .ok (run, _, _)) => s.1 = some run ∧ run.IsRefreshed

/-- The loop, by induction on its bound. -/
lemma safe_executeSerialWorkers {strategy : BlockingStrategy} {rounds : Nat}
    {selected firstError : Option String} {created : Option CreatedSessions} (hends : ends s)
    (hrun : s.1 = some run) (hrefreshed : selected = none → run.IsRefreshed)
    (hs : selected = none ∨ (idle s ∧ SelectsExecutable run selected)) :
    (aloneContract cond holds).Safe (fun result s => ends s ∧ LoopEnds s result) (fun _ s => ends s)
      (Flow.executeSerialWorkers policy strategy rounds run selected created firstError) s := by
  induction rounds generalizing run s selected created firstError with
  | zero =>
    cases selected with
    | none => exact ⟨hends, hrun, hrefreshed rfl⟩
    | some selected => trivial
  | succ rounds ih =>
    cases selected with
    | none => exact ⟨hends, hrun, hrefreshed rfl⟩
    | some selected =>
      obtain hnone | ⟨hidle, hselected⟩ := hs
      · cases hnone
      unfold Flow.executeSerialWorkers
      refine (rule.safe_round hidle hrun hselected).bind (fun result s hs => ?_) fun _ _ h => h
      obtain ⟨created', error | ⟨run', step, workerError⟩⟩ := result
      · exact ⟨hs.1, trivial⟩
      · obtain ⟨hends', hrun', hrefreshed', hend⟩ := hs
        dsimp only
        split_ifs with hstop
        · exact ⟨hends', hrun', hrefreshed'⟩
        · refine ih hends' hrun' (fun _ => hrefreshed') ?_
          rcases hend with herror | hidle' | hnone
          · exact absurd herror hstop
          · exact .inr hidle'
          · exact .inl hnone

/-! ## The ends of the execution phase -/

/-- What the execution phase ends with: the stored run in hand, refreshed, with a failed worker if
the phase ended for all of them. -/
structure PhaseEnds (idle : StartRecord → Prop) (result : Flow.ExecutionResult) (s : StartRecord) :
    Prop where
  stored : s.1 = some result.run
  refreshed : result.run.IsRefreshed
  failed : ∀ error, result.outcome = .unsupported error ∨ result.outcome = .apiFailure error →
    LeavesFailed idle result.run

/-- Failing the pending workers of the run in hand leaves a worker that was executable failed. -/
lemma safe_markPromptedWorkersFailed {s₀ : StartRecord} {selected error : String} (hends : ends s)
    (hidle : idle s₀) (hrun : s₀.1 = some run) (hselected : SelectsExecutable run (some selected)) :
    (aloneContract cond holds).Safe
      (fun left s => ends s ∧ s.1 = some left ∧ left.IsRefreshed ∧ LeavesFailed idle left)
      (fun _ s => ends s) (Flow.markPromptedWorkersFailed run error) s := by
  obtain ⟨worker, hget, hexec⟩ := hselected selected rfl
  have hid : worker.id.value = selected := WorkerMap.id_of_get? hget
  have hcall : Call.Still .ending ⟨.failing, .updateRun (Flow.failMutation run error)⟩ :=
    (Flow.plain_failMutation run error).still rfl
  show (aloneContract cond holds).Safe _ _ (Command.persist .failing (Flow.failMutation run error)) s
  refine (Command.safe_persist_keeping rule.holds_of_ends ?_).mono (fun left s hs => ?_)
    fun _ _ h => h
  · intro answer stored hupdates hcond
    exact rule.quiet .ending ⟨.failing, .updateRun (Flow.failMutation run error)⟩ s answer stored
      (by decide) hcall hends hupdates hcond
  obtain ⟨hends', hstored, now, seen, left', hseen, hleft, rfl⟩ := hs
  refine ⟨hends', hstored, RunMutation.isRefreshed_of_applyTransitions hleft, ?_⟩
  obtain ⟨run', hrun', hworkers⟩ := RunMutation.applyTransitions_eq_ok hleft
  have hpending : worker ∈ run.pendingPromptedWorkers :=
    List.mem_filter.2 ⟨Run.mem_sortedWorkers.2 (hid ▸ hget), hexec⟩
  have hsnapshot : ∀ t ∈ run.pendingPromptedWorkers.map fun worker => worker.markFailed "api" error
      false, ∀ patch, t.payload ≠ .snapshotApplied patch := by
    rintro t ht patch hpayload
    obtain ⟨worker', -, rfl⟩ := List.mem_map.1 ht
    cases hpayload
  have hnodup : ((run.pendingPromptedWorkers.map fun worker => worker.markFailed "api" error
      false).map WorkerTransition.workerId).Nodup := by
    rw [List.map_map]
    exact (List.filter_sublist.map _).nodup (Run.nodup_sortedWorkers run)
  obtain ⟨-, hget'⟩ := Run.get?_applyTransitions_of_mem hsnapshot hnodup hrun'
    (List.mem_map.2 ⟨worker, hpending, rfl⟩)
  have hstatus := WorkerRecord.status_reduce_markFailed (seen.latestWorker worker.id) worker "api"
    error
  refine ⟨s₀, run, worker, _, hidle, hrun, hid ▸ hget, hexec, ?_, hstatus⟩
  rw [Run.workers_normalize, hworkers]
  exact hget'

lemma safe_apiFailure {s₀ : StartRecord} {selected : String} {hasClient : Bool}
    {created : Option CreatedSessions} {error : PyError} (hends : ends s)
    (hidle : idle s₀) (hrun : s₀.1 = some run) (hselected : SelectsExecutable run (some selected)) :
    (aloneContract cond holds).Safe (fun result s => ends s ∧ PhaseEnds idle result s)
      (fun _ s => ends s) (Flow.apiFailure run hasClient created error) s := by
  unfold Flow.apiFailure
  split_ifs
  · exact (rule.safe_markPromptedWorkersFailed hends hidle hrun hselected).bind
      (fun left s hs => ⟨hs.1, hs.2.1, hs.2.2.1, fun _ _ => hs.2.2.2⟩) fun _ _ h => h
  · exact hends

/-- The execution phase, from a plan of the stored run. -/
lemma safe_executionPhase {rounds : Nat} {selected : String} {cleanupRequested : Bool}
    (hidle : idle s) (hrun : s.1 = some run) (hselected : SelectsExecutable run (some selected)) :
    (aloneContract cond holds).Safe (fun result s => ends s ∧ PhaseEnds idle result s)
      (fun _ s => ends s)
      (Flow.executionPhase policy cleanupRequested rounds run selected) s := by
  unfold Flow.executionPhase
  refine Contract.safe_bind_iff.2 (Contract.safe_attempt_iff.2 (Contract.safe_call_alone
    fun answer stored hanswer hcond => ?_))
  have hidle' := rule.deciding ⟨.probing selected, .probe run.serverUrl⟩ s answer stored
    ⟨Call.plain_of_eq_none rfl rfl nofun, rfl⟩ ⟨rfl, .probe _⟩ hidle hanswer hcond
  have hstored : stored = some run := hanswer.1.trans hrun
  refine ⟨rule.holds_of_idle hidle', ?_⟩
  rcases answer with error | _ | strategy
  · exact rule.safe_apiFailure (rule.ends_of_idle _ hidle') hidle hrun hselected
  · exact (rule.safe_markPromptedWorkersFailed (rule.ends_of_idle _ hidle') hidle hrun
      hselected).bind (fun left s hs => ⟨hs.1, hs.2.1, hs.2.2.1, fun _ _ => hs.2.2.2⟩)
      fun _ _ h => h
  · refine Contract.safe_bind_iff.2 (Contract.safe_attempt_iff.2
      ((Command.safe_persist_keeping (fun _ h => rule.holds_of_idle h)
        fun answer stored' hupdates hcond => rule.deciding ⟨.entering selected,
          .updateRun .markRunActive⟩ _ answer stored' (RunMutation.Plain.markRunActive.still rfl)
          ⟨rfl, .updateRun .markRunActive⟩ hidle' hupdates hcond).mono (fun saved s hs => ?_)
        fun error s hs => rule.safe_apiFailure (rule.ends_of_idle _ hs) hidle hrun hselected))
    obtain ⟨hidle'', hsaved, now, seen, left, hseen, hleft, rfl⟩ := hs
    obtain rfl := Option.some.inj (hstored.symm.trans hseen)
    cases hleft
    have hnone : some selected = none →
        Run.IsRefreshed { run with status := "active" }.normalize := fun h => by cases h
    refine (rule.safe_executeSerialWorkers (rule.ends_of_idle _ hidle'') hsaved hnone
      (.inr ⟨hidle'', hselected⟩)).bind (fun result s' hs => ?_) fun _ _ h => h
    obtain ⟨created, error | ⟨run', firstError, _ | error⟩⟩ := result
    · exact rule.safe_apiFailure hs.1 hidle'' hsaved hselected
    · exact ⟨hs.1, hs.2.1, hs.2.2, fun error h => by rcases h with h | h <;> cases h⟩
    · exact ⟨hs.1, hs.2.1, hs.2.2, fun error h => by rcases h with h | h <;> cases h⟩

/-! ## After the recovery -/

/-- A start that found nothing to execute, or was told to stop: its run is stored and refreshed, and
gives the exit code. -/
structure Skips (outcome : StartOutcome) (s : StartRecord) : Prop where
  stored : s.1 = some outcome.run
  refreshed : outcome.run.IsRefreshed
  exitCode : outcome.exitCode = outcome.run.exitCode

/-- The flow of a start, of which the recovery, the end of a skipped start and the cleanup phase are
left.  If the start is `stopped` by an error of the recovery, it plans and executes nothing. -/
lemma safe_runFlow_of {stopped : Prop} {datetime : Datetime} {rounds : Nat} {cleanupRequested : Bool}
    {post : StartOutcome → StartRecord → Prop} {err : PyError → StartRecord → Prop}
    (hrecover : (aloneContract cond holds).Safe (fun result s => s.1 = some result.1 ∧
        (idle s ∨ (stopped ∧ ends s ∧ policy = .failFast ∧ result.2.isSome = true)))
      (fun _ s => ends s) (Flow.recover datetime run) s)
    (hskips : ∀ outcome s, idle s → Skips outcome s → post outcome s)
    (hstops : stopped → ∀ outcome s, ends s → Skips outcome s → post outcome s)
    (herr : ∀ error s, ends s → err error s)
    (hcleanup : ∀ execution recoveryError s, ends s → PhaseEnds idle execution s →
      (aloneContract cond holds).Safe post err (Flow.cleanupPhase execution recoveryError) s) :
    (aloneContract cond holds).Safe post err
      (Flow.runFlow datetime policy cleanupRequested rounds run) s := by
  unfold Flow.runFlow
  refine hrecover.bind (fun recovered s hs => ?_) fun _ _ h => herr _ _ h
  obtain ⟨hrun, hidle | ⟨hstopped, hends, herror⟩⟩ := hs
  · refine (rule.safe_plan hidle hrun).bind (fun planned s hs => ?_)
      fun _ _ h => herr _ _ (rule.ends_of_idle _ h)
    obtain ⟨run', step⟩ := planned
    obtain ⟨hidle', hrun', hrefreshed, hselected⟩ := hs
    dsimp only
    split
    · exact hskips { run := run', exitCode := run'.exitCode, error := recovered.2 } s hidle'
        ⟨hrun', hrefreshed, by dsimp only⟩
    · next selected hstep =>
      split_ifs
      · exact hskips { run := run', exitCode := run'.exitCode, error := recovered.2 } s hidle'
          ⟨hrun', hrefreshed, by dsimp only⟩
      · rw [hstep] at hselected
        exact (rule.safe_executionPhase hidle' hrun' hselected).bind
          (fun execution s hs => hcleanup execution recovered.2 s hs.1 hs.2) fun _ _ h => herr _ _ h
  · refine (rule.safe_replan hends).bind (fun planned s hs => ?_) fun _ _ h => herr _ _ h
    obtain ⟨run', step⟩ := planned
    obtain ⟨hends', hrun', hrefreshed, -⟩ := hs
    have hskipped := hstops hstopped { run := run', exitCode := run'.exitCode, error := recovered.2 }
      s hends' ⟨hrun', hrefreshed, by dsimp only⟩
    dsimp only
    -- whether the replan finds a worker or not, the recovery has stopped the start
    split
    · exact hskipped
    · rw [if_pos ⟨herror.2, herror.1⟩]
      exact hskipped

end

end LoopRule

namespace SerialRule

variable {cond : StartRecord → Call → Prop} {holds ends before idle : StartRecord → Prop}
  {policy : ExecutionPolicy} {s : StartRecord} {run : Run}

section

variable (rule : SerialRule cond holds ends before idle policy)
include rule

lemma holds_of_before (hs : before s) : holds s := rule.holds_of_ends s (rule.ends_of_before s hs)

/-! ## The whole start -/

/-- Recovery ends with the stored run in hand. -/
lemma safe_recover {datetime : Datetime} (hidle : idle s) (hrun : s.1 = some run) :
    (aloneContract cond holds).Safe (fun result s => idle s ∧ s.1 = some result.1)
      (fun _ s => idle s) (Flow.recover datetime run) s := by
  unfold Flow.recover
  refine Contract.safe_call_alone fun now stored hanswer hcond => ?_
  have hidle' := rule.deciding ⟨.recovering (Flow.planStep run.workers).workerId, .now⟩ s now stored
    ⟨Call.plain_of_eq_none rfl rfl nofun, rfl⟩ ⟨rfl, .now⟩ hidle hanswer hcond
  refine ⟨rule.holds_of_idle hidle', ?_⟩
  have hstored : stored = some run := hanswer.trans hrun
  show (aloneContract cond holds).Safe _ _ (Process.ofExcept (recoverExpiredActiveAttempts datetime
    run.sortedWorkers now) >>= _) _
  cases hrecoveries : recoverExpiredActiveAttempts datetime run.sortedWorkers now with
  | error error => exact hidle'
  | ok recoveries =>
    rw [Process.ofExcept_ok, Process.done_bind]
    split_ifs
    · exact ⟨hidle', hstored⟩
    · exact (Command.safe_persist_keeping (fun _ h => rule.holds_of_idle h)
        fun answer stored' hupdates _ => rule.recovered datetime now recoveries run _ answer stored'
          hrecoveries hidle' hstored hupdates).bind (fun saved s hs => ⟨hs.1, hs.2.1⟩)
        fun _ _ h => h

lemma safe_runFlow {datetime : Datetime} {rounds : Nat} {cleanupRequested : Bool}
    {post : StartOutcome → StartRecord → Prop} {err : PyError → StartRecord → Prop}
    (hskips : ∀ outcome s, idle s → LoopRule.Skips outcome s → post outcome s)
    (herr : ∀ error s, ends s → err error s)
    (hcleanup : ∀ execution recoveryError s, ends s → LoopRule.PhaseEnds idle execution s →
      (aloneContract cond holds).Safe post err (Flow.cleanupPhase execution recoveryError) s)
    (hidle : idle s) (hrun : s.1 = some run) :
    (aloneContract cond holds).Safe post err
      (Flow.runFlow datetime policy cleanupRequested rounds run) s :=
  rule.safe_runFlow_of ((rule.safe_recover hidle hrun).mono
    (fun _ _ hs => ⟨hs.2, .inl hs.1⟩) fun _ s hs => rule.ends_of_idle s hs) hskips
    (fun h : False => h.elim) herr hcleanup

theorem safe_startRun {datetime : Datetime} {rounds : Nat} {request : RunStartRequest}
    (hpolicy : ∀ policy', Flow.normalizeExecutionPolicy request.start.executionPolicy =
      .ok policy' → policy' = policy)
    (hcleaning : ∀ (call : Call) (s : StartRecord) (answer : call.request.Answer)
      (stored : Option Run), call.Plain .ending → ends s →
        call.request.Responds s.1 answer stored → cond s call →
          ends (stored, s.2 ++ [⟨(), call, answer⟩]))
    (hbefore : before s) :
    (aloneContract cond holds).Safe (fun _ s => ends s) (fun _ s => ends s)
      (Commands.startRun datetime rounds request) s := by
  refine Commands.safe_startRun_of before idle (fun _ h => rule.holds_of_before h) rule.requesting
    (rule.applied request.start) (fun _ _ h => rule.ends_of_before _ h)
    (fun _ _ h => rule.ends_of_idle _ h) (fun policy' run s hnormalized hidle hrun _ => ?_) hbefore
  obtain rfl := hpolicy policy' hnormalized
  refine rule.safe_runFlow (fun _ _ h _ => rule.ends_of_idle _ h) (fun _ _ h => h)
    (fun execution recoveryError s hends _ => ?_) hidle hrun
  exact (Contract.safe_alone_of_within (Flow.within_cleanupPhase execution recoveryError)
    (fun call s answer stored hcall hends hanswer hcond =>
      have hends' := hcleaning call s answer stored hcall hends hanswer hcond
      ⟨rule.holds_of_ends _ hends', hends'⟩) hends).mono (fun _ _ h => h.2) fun _ _ h => h

end

end SerialRule

/-! ## Assertions that every request keeps -/

section Kept

variable {cond : StartRecord → Call → Prop} {holds J : StartRecord → Prop} {s : StartRecord}

/-- One attempt keeps what each of its requests keeps, and ends with the stored run in hand. -/
lemma Execution.safe_execute_keeping {run : Run} {worker : WorkerRecord} {prompt : String}
    {strategy : BlockingStrategy} {agent model : Option String} {cleanupRequested : Bool}
    (hholds : ∀ s, J s → holds s)
    (hopens : ∀ (call : Call) (s : StartRecord) (answer : call.request.Answer)
      (stored : Option Run), call.Opens worker.id (fun _ => True) → J s →
        call.request.Responds s.1 answer stored → cond s call →
          J (stored, s.2 ++ [⟨(), call, answer⟩]))
    (hrecords : ∀ (call : Call) (s : StartRecord) (answer : call.request.Answer)
      (stored : Option Run), call.Records worker.id → J s →
        call.request.Responds s.1 answer stored → cond s call →
          J (stored, s.2 ++ [⟨(), call, answer⟩]))
    (hs : J s) :
    (aloneContract cond holds).Safe (fun outcome s => J s ∧ s.1 = some outcome.run) (fun _ s => J s)
      (execute run worker prompt strategy agent model cleanupRequested) s := by
  have hgranted : worker.Granted worker.id fun _ => True := ⟨rfl, fun _ _ => trivial⟩
  have hclock : ∀ {workerId : String} {s : StartRecord}, J s → (aloneContract cond holds).Safe
      (fun _ s => J s) (fun _ s => J s) (Command.clock (.recording workerId)) s := by
    intro workerId s hs
    refine Contract.safe_call_alone fun now stored hanswer hcond => ?_
    have hJ := hrecords ⟨.recording workerId, .now⟩ s now stored (.clock rfl) hs hanswer hcond
    exact ⟨hholds _ hJ, hJ⟩
  rw [execute_eq_bind]
  refine (Contract.safe_alone_of_within ((withinWhen_openAttempt run prompt strategy agent model
    cleanupRequested hgranted).within (Call.grants_of_forall fun _ => trivial))
    (fun call s answer stored hcall hJ hanswer hcond => ?_) hs).bind (fun opened s hs => ?_)
    fun _ _ h => h
  · have hJ' := hopens call s answer stored hcall hJ hanswer hcond
    exact ⟨hholds _ hJ', hJ'⟩
  obtain ⟨hopened, hs⟩ := hs
  -- the clock may be read twice before the outcome is persisted
  unfold recordOutcome
  refine Contract.Safe.bind (M := fun _ s => J s) (E := fun _ s => J s) ?_ (fun now s hs => ?_)
    fun _ _ h => h
  · split_ifs
    · exact hclock hs
    · exact hs
  refine (hclock hs).bind (fun finishedAt s hs => ?_) fun _ _ h => h
  refine Contract.safe_bind_iff.2 (Contract.safe_bind_iff.2 ((Command.safe_persist_keeping hholds
    fun answer stored hupdates hcond => ?_).mono (fun saved s hs => ⟨hs.1, hs.2.1⟩) fun _ _ h => h))
  exact hrecords ⟨.recording _, .updateRun (.applyTransitions [_])⟩ s answer stored
    (records_recordedOutcome hopened.id) hs hupdates hcond

/-- The rule for an assertion that every request after that of the start keeps. -/
lemma SerialRule.of_kept {policy : ExecutionPolicy} (hholds : ∀ s, J s → holds s)
    (hquiet : ∀ (stage : Stage) (call : Call) (s : StartRecord) (answer : call.request.Answer)
      (stored : Option Run), call.Still stage → J s →
        call.request.Responds s.1 answer stored → J (stored, s.2 ++ [⟨(), call, answer⟩]))
    (hopens : ∀ (workerId : WorkerId) (call : Call) (s : StartRecord)
      (answer : call.request.Answer) (stored : Option Run),
      call.Opens workerId (fun _ => True) → J s → call.request.Responds s.1 answer stored →
        J (stored, s.2 ++ [⟨(), call, answer⟩]))
    (hsettles : ∀ (stage : Stage) (call : Call) (s : StartRecord) (answer : call.request.Answer)
      (stored : Option Run), call.Settles stage → J s →
        call.request.Responds s.1 answer stored → J (stored, s.2 ++ [⟨(), call, answer⟩])) :
    SerialRule cond holds J (fun _ => False) J policy where
  holds_of_ends := hholds
  ends_of_before _ := False.elim
  ends_of_idle _ h := h
  quiet stage call s answer stored _ hcall hs hanswer _ :=
    hquiet stage call s answer stored hcall hs hanswer
  requesting _ _ _ _ _ := False.elim
  applied _ _ _ _ _ _ := False.elim
  deciding call s answer stored _ hcall hs hanswer _ :=
    hsettles .deciding call s answer stored hcall hs hanswer
  recovered _ _ _ _ s answer stored hrecoveries hs _ hupdates :=
    hsettles .deciding ⟨.recovering none, .updateRun _⟩ s answer stored
      (Flow.settles_recoveries hrecoveries) hs hupdates
  attempt _ _ worker _ _ _ _ _ hs _ _ _ :=
    (Execution.safe_execute_keeping hholds
      (fun call s answer stored hcall hs hanswer _ =>
        hopens worker.id call s answer stored hcall hs hanswer)
      (fun call s answer stored hcall hs hanswer _ =>
        hsettles .attempting call s answer stored hcall.toSettles hs hanswer) hs).mono
      (fun _ _ h => ⟨h.1, h.2, .inr (.inl h.1)⟩) fun _ _ h => h

end Kept

namespace StartRule

variable {cond : StartRecord → Call → Prop} {holds before idle : StartRecord → Prop}
  {policy : ExecutionPolicy} {s : StartRecord}

lemma serial (rule : StartRule cond holds before idle policy) :
    SerialRule cond holds holds before idle policy where
  holds_of_ends _ h := h
  ends_of_before := rule.holds_of_before
  ends_of_idle := rule.holds_of_idle
  quiet stage call s answer stored hstage hcall hends hanswer _ :=
    rule.quiet stage call s answer stored hstage hcall.toQuiet hends hanswer
  requesting call s answer stored hcall hbefore hanswer _ :=
    rule.requesting call s answer stored hcall.toQuiet hbefore hanswer
  applied := rule.applied
  deciding call s answer stored _ hcall hidle hanswer _ :=
    rule.deciding call s answer stored hcall hidle hanswer
  recovered _ _ _ _ s answer stored hrecoveries hidle _ :=
    rule.deciding ⟨.recovering none, .updateRun _⟩ s answer stored
      (Flow.settles_recoveries hrecoveries) hidle
  attempt := rule.attempt

theorem safe_startRun (rule : StartRule cond holds before idle policy) {datetime : Datetime}
    {rounds : Nat} {request : RunStartRequest}
    (hpolicy : ∀ policy', Flow.normalizeExecutionPolicy request.start.executionPolicy =
      .ok policy' → policy' = policy) (hbefore : before s) :
    (aloneContract cond holds).Safe (fun _ s => holds s) (fun _ s => holds s)
      (Commands.startRun datetime rounds request) s :=
  rule.serial.safe_startRun hpolicy (fun call s answer stored hcall hends hanswer _ =>
    rule.quiet .ending call s answer stored (by decide) hcall.toQuiet hends hanswer) hbefore

end StartRule

end OpencodeSession
