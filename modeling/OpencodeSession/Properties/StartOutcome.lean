import OpencodeSession.Properties.AbortCompletes
import OpencodeSession.Properties.FailFast

/-!
# What a command leaves when it returns

A start that is alone ends in one of many ways: nothing to execute, an unsupported server, an error
of the server, a failure, the last worker, or a cleanup that failed.  Each of them returns the run
that is stored, with its summary refreshed (`StartOutcome.Settled`), because the last update of the
run is a plan, a failure of the pending workers or a cleanup record, and each of these refreshes.
The same holds of an abort and of the recovery of a load, so the stored summary is coherent whenever
one of them returns (`summaryCoherent_of_runs`).

The exit code is read off the refreshed status unless the start failed as a whole.  It is zero
exactly if every worker with a prompt is done and no session resisted its deletion
(`exitCode_eq_zero_iff_of_runs`).  The error a start reports does not decide it: an attempt that
timed out is reported although a later one of the same start succeeded.
-/

namespace OpencodeSession

/-! ## Sessions that resist their deletion -/

/-- Whether an event tells the cleanup of a start that a session could not be deleted, or is still
there. -/
def refusesDeletion : Event storeInterface Unit → Bool
  | ⟨_, ⟨.cleaning _, .deleteSession _⟩, .error error⟩
  | ⟨_, ⟨.cleaning _, .getSession _⟩, .error error⟩ => error.apiStatus ≠ some 404
  | ⟨_, ⟨.cleaning _, .getSession _⟩, .ok _⟩ => true
  | _ => false

/-- A session has resisted its deletion. -/
def Refused (s : StartRecord) : Prop := ∃ e ∈ s.2, refusesDeletion e = true

section

variable {cond : StartRecord → Call → Prop} {holds J : StartRecord → Prop} {s : StartRecord}
  {stored : Option Run} {e : Event storeInterface Unit}

lemma refused_append : Refused (stored, s.2 ++ [e]) ↔ Refused s ∨ refusesDeletion e = true := by
  simp [Refused, or_and_right, exists_or]

lemma refusesDeletion_of_deletes (h : e.op.request.deletes = false) :
    refusesDeletion e = false := by
  unfold refusesDeletion
  split
  · cases h
  · cases h
  · cases h
  · rfl

lemma refusesDeletion_of_opensAttempt (h : e.op.phase.opensAttempt = true) :
    refusesDeletion e = false := by
  unfold refusesDeletion
  split
  · cases h
  · cases h
  · cases h
  · rfl

lemma not_refused_append (h : ¬ Refused s) (he : refusesDeletion e = false) :
    ¬ Refused (stored, s.2 ++ [e]) := by
  rw [refused_append, he]
  simpa using h

/-! ## The cleanup phase -/

namespace SessionCleanup

section

variable (hholds : ∀ s, J s → holds s)
  (hcleaning : ∀ (call : Call) (s : StartRecord) (answer : call.request.Answer)
    (stored : Option Run), call.Plain .ending → J s → call.request.Responds s.1 answer stored →
      J (stored, s.2 ++ [⟨(), call, answer⟩]))
include hholds hcleaning

/-- A session that is read after its deletion. -/
lemma safe_verify {workerId sessionId : String} (hs : J s) :
    (aloneContract cond holds).Safe (fun error s' => J s' ∧ s'.1 = s.1 ∧
        (Refused s' ↔ Refused s ∨ error.isSome = true)) (fun _ s => J s)
      (deleteAndVerify.verify (.cleaning workerId) sessionId) s := by
  unfold deleteAndVerify.verify
  refine Contract.safe_call_alone fun read stored hanswer _ => ?_
  have hJ := hcleaning ⟨.cleaning workerId, .getSession sessionId⟩ s read stored
    (Call.plain_of_eq_none rfl rfl nofun) hs hanswer
  refine ⟨hholds _ hJ, ?_⟩
  have hstored : stored = s.1 := hanswer.1
  cases read with
  | ok _ => exact ⟨hJ, hstored, refused_append⟩
  | error error =>
    dsimp only
    split_ifs with hapi hstatus
    · exact hJ
    · refine ⟨hJ, hstored, refused_append.trans (or_congr_right ?_)⟩
      simp [refusesDeletion, hstatus]
    · refine ⟨hJ, hstored, refused_append.trans (or_congr_right ?_)⟩
      simp [refusesDeletion, hstatus]

/-- The deletion of one session: it returns an error exactly if the session resists. -/
lemma safe_deleteAndVerify {workerId sessionId : String} (hs : J s) :
    (aloneContract cond holds).Safe (fun error s' => J s' ∧ s'.1 = s.1 ∧
        (Refused s' ↔ Refused s ∨ error.isSome = true)) (fun _ s => J s)
      (deleteAndVerify (.cleaning workerId) sessionId) s := by
  unfold deleteAndVerify
  refine Contract.safe_call_alone fun deleted stored hanswer _ => ?_
  have hJ := hcleaning ⟨.cleaning workerId, .deleteSession sessionId⟩ s deleted stored
    (Call.plain_of_eq_none rfl rfl nofun) hs hanswer
  refine ⟨hholds _ hJ, ?_⟩
  have hstored : stored = s.1 := hanswer.1
  have hverify : refusesDeletion ⟨(), ⟨.cleaning workerId, .deleteSession sessionId⟩, deleted⟩ =
      false → (aloneContract cond holds).Safe (fun error s' => J s' ∧ s'.1 = s.1 ∧
        (Refused s' ↔ Refused s ∨ error.isSome = true)) (fun _ s => J s)
        (deleteAndVerify.verify (.cleaning workerId) sessionId)
        (stored, s.2 ++ [⟨(), ⟨.cleaning workerId, .deleteSession sessionId⟩, deleted⟩]) := by
    intro hnone
    refine (safe_verify hholds hcleaning hJ).mono (fun error s' hs' => ?_) fun _ _ h => h
    refine ⟨hs'.1, hs'.2.1.trans hstored, hs'.2.2.trans (or_congr_left ?_)⟩
    rw [refused_append, hnone]
    simp
  cases deleted with
  | ok _ => exact hverify rfl
  | error error =>
    dsimp only
    split_ifs with hapi hstatus
    · exact hJ
    · exact hverify (by simp [refusesDeletion, hstatus])
    · refine ⟨hJ, hstored, refused_append.trans (or_congr_right ?_)⟩
      simp [refusesDeletion, hstatus]

lemma safe_cleanupDisposableSessions {workerId : String} {sessionIds : List String} (hs : J s) :
    (aloneContract cond holds).Safe (fun result s' => J s' ∧ s'.1 = s.1 ∧
        (Refused s' ↔ Refused s ∨ result.2 ≠ [])) (fun _ s => J s)
      (cleanupDisposableSessions (.cleaning workerId) sessionIds) s := by
  induction sessionIds generalizing s with
  | nil => exact ⟨hs, rfl, by simp⟩
  | cons sessionId rest ih =>
    refine (safe_deleteAndVerify hholds hcleaning hs).bind (fun error s₁ hs₁ => ?_) fun _ _ h => h
    refine (ih hs₁.1).bind (fun result s₂ hs₂ => ?_) fun _ _ h => h
    obtain ⟨verified, errors⟩ := result
    have hrefused : Refused s₂ ↔ (Refused s ∨ error.isSome = true) ∨ errors ≠ [] :=
      hs₂.2.2.trans (or_congr_left hs₁.2.2)
    have hstored : s₂.1 = s.1 := hs₂.2.1.trans hs₁.2.1
    cases error with
    | none => exact ⟨hs₂.1, hstored, hrefused.trans (by simp)⟩
    | some error => exact ⟨hs₂.1, hstored, hrefused.trans (by simp)⟩

/-- The cleanup, by induction on its steps: it leaves the run in hand stored and refreshed, and
returns an error exactly if a session resists. -/
lemma safe_cleanup {run : Run} {steps : List (String × List String)} (hs : J s)
    (hrun : s.1 = some run) (hrefreshed : run.IsRefreshed) :
    (aloneContract cond holds).Safe (fun result s' => J s' ∧ s'.1 = some result.1 ∧
        result.1.IsRefreshed ∧ (Refused s' ↔ Refused s ∨ result.2.isSome = true)) (fun _ s => J s)
      (cleanup run steps) s := by
  induction steps generalizing run s with
  | nil => exact ⟨hs, hrun, hrefreshed, by simp⟩
  | cons step rest ih =>
    obtain ⟨workerId, sessionIds⟩ := step
    unfold cleanup
    split
    · exact ih hs hrun hrefreshed
    · next worker _ =>
      -- the sessions of one worker are deleted first, and then what came of it is persisted
      refine Contract.Safe.bind (M := fun result s' => J s' ∧
          (Refused s' ↔ Refused s ∨ result.2.isSome = true)) (E := fun _ s => J s) ?_
        (fun cleaned s₁ hs₁ => ?_) fun _ _ h => h
      · unfold cleanupCreatedWorkerSessions
        refine (safe_cleanupDisposableSessions hholds hcleaning hs).bind (fun result s₁ hs₁ => ?_)
          fun _ _ h => h
        obtain ⟨verified, errors⟩ := result
        refine ⟨hs₁.1, hs₁.2.2.trans (or_congr_right ?_)⟩
        cases errors <;> simp
      obtain ⟨worker', error⟩ := cleaned
      have hcall : Call.Plain .ending ⟨.cleaning workerId, .updateRun
          (.applyTransitions [worker'.cleanupUpdatedTransition])⟩ :=
        (plain_cleanupUpdated worker').call rfl
      refine (Command.safe_persist_alone fun answer stored hupdates _ => ?_).bind
        (M := fun saved s' => J s' ∧ s'.1 = some saved ∧ saved.IsRefreshed ∧
          (Refused s' ↔ Refused s ∨ error.isSome = true)) (E := fun _ s => J s)
        (fun saved s₂ hs₂ => ?_) fun _ _ h => h
      · have hJ := hcleaning ⟨.cleaning workerId, .updateRun (.applyTransitions
          [worker'.cleanupUpdatedTransition])⟩ s₁ answer stored hcall hs₁.1 hupdates
        refine ⟨hholds _ hJ, ?_⟩
        cases answer with
        | rejected error => exact hJ
        | lost error => exact hJ
        | committed now seen saved =>
          obtain ⟨-, hstored, left, hleft, rfl⟩ := hupdates.of_committed
          -- the update itself deletes nothing, so it refuses nothing
          refine ⟨hJ, hstored, RunMutation.isRefreshed_of_applyTransitions hleft, ?_⟩
          rw [refused_append, refusesDeletion_of_deletes rfl]
          simpa using hs₁.2
      · refine (ih hs₂.1 hs₂.2.1 hs₂.2.2.1).bind (fun result s₃ hs₃ => ?_) fun _ _ h => h
        obtain ⟨run', laterError⟩ := result
        refine ⟨hs₃.1, hs₃.2.1, hs₃.2.2.1, hs₃.2.2.2.trans ?_⟩
        rw [hs₂.2.2.2]
        cases error <;> simp

end

end SessionCleanup

/-! ## Exit codes -/

lemma Run.exitCode_eq_zero_iff {run : Run} {worker : WorkerRecord} (h : run.IsRefreshed)
    (hmem : worker ∈ run.workers.toList) (hprompt : worker.hasPrompt = true) :
    run.exitCode = 0 ↔
      ∀ worker ∈ run.workers.toList, worker.hasPrompt = true → worker.status = .done := by
  obtain ⟨status, hstatus, hdone⟩ := h.status_eq hmem hprompt
  have hname : WorkerStatus.ofName? (shortStatus status.name) = some status := by
    cases status <;> decide
  rw [← hdone, exitCode, hstatus, hname]
  cases status <;> simp
  split_ifs <;> simp

/-- The workers of a run that have a prompt, and some that are not done. -/
structure Run.Shows (prompted : WorkerId → Bool) (failed : WorkerId → Prop) (run : Run) : Prop where
  prompted : ∀ workerId, (run.latestWorker workerId).hasPrompt = prompted workerId
  failed : ∀ workerId, failed workerId → (run.latestWorker workerId).status ≠ .done

lemma Run.mem_toList_of_hasPrompt {run : Run} {workerId : WorkerId}
    (h : (run.latestWorker workerId).hasPrompt = true) :
    run.latestWorker workerId ∈ run.workers.toList := by
  rw [WorkerMap.mem_toList_iff, Run.id_latestWorker]
  unfold Run.latestWorker at h ⊢
  cases hget : run.workers.get? workerId.value with
  | none =>
    rw [hget] at h
    cases h
  | some worker => rfl

/-- What a start promises that returns: the run that it returns is stored, its summary is refreshed,
and the exit code is zero exactly if that of the run is and no session has resisted its deletion. -/
structure StartOutcome.Settled (outcome : StartOutcome) (s : StartRecord) : Prop where
  stored : s.1 = some outcome.run
  refreshed : outcome.run.IsRefreshed
  prompted : ∃ worker ∈ outcome.run.workers.toList, worker.hasPrompt = true
  exitCode : outcome.exitCode = 0 ↔ outcome.run.exitCode = 0 ∧ ¬ Refused s
  error : outcome.error = none → ¬ Refused s

section

variable {prompted : WorkerId → Bool} {failed : WorkerId → Prop} {workerId : WorkerId}
  {mutation : RunMutation} {now : String} {run left : Run}

lemma Run.Shows.of_settles (h : run.Shows prompted fun _ => False) (hsettles : mutation.Settles)
    (happly : mutation.apply now run = .ok left) : left.normalize.Shows prompted fun _ => False :=
  ⟨fun workerId => (hsettles.settledFrom happly workerId).prompt.trans (h.prompted workerId),
    fun _ => False.elim⟩

lemma Run.Shows.of_plain (h : run.Shows prompted failed) (hplain : mutation.Plain)
    (happly : mutation.apply now run = .ok left) : left.normalize.Shows prompted failed := by
  refine ⟨fun workerId => (hplain.settles.settledFrom happly workerId).prompt.trans
    (h.prompted workerId), fun workerId hfailed => ?_⟩
  have hkept : (left.latestWorker workerId).status ≠ .done :=
    hplain.keeps (P := fun worker => worker.status ≠ .done) happly
      (fun _ _ ht _ hstatus => WorkerRecord.status_reduce_of_plain ht hstatus)
      (h.failed workerId hfailed)
  exact hkept

/-- Where a start has failed for all workers, one of them that has a prompt is not done. -/
lemma settled_finishOutcome {outcome : Flow.ExecutionEnd} (recoveryError : Option String)
    (hrun : s.1 = some run) (hrefreshed : run.IsRefreshed) (hshows : run.Shows prompted failed)
    (hprompt : prompted workerId = true) (hnot : ¬ Refused s)
    (hfailed : ∀ error, outcome = .unsupported error ∨ outcome = .apiFailure error →
      ∃ workerId, prompted workerId = true ∧ failed workerId) :
    (Flow.finishOutcome outcome run recoveryError).Settled s := by
  have hlatest : (run.latestWorker workerId).hasPrompt = true :=
    (hshows.prompted workerId).trans hprompt
  have hmem := Run.mem_toList_of_hasPrompt hlatest
  have hfails : ∀ error, outcome = .unsupported error ∨ outcome = .apiFailure error →
      ¬ (run.exitCode = 0 ∧ ¬ Refused s) := by
    rintro error herror ⟨hzero, -⟩
    obtain ⟨workerId', hprompt', hfailed'⟩ := hfailed error herror
    have hlatest' := (hshows.prompted workerId').trans hprompt'
    exact hshows.failed workerId' hfailed' ((Run.exitCode_eq_zero_iff hrefreshed hmem hlatest).1
      hzero _ (Run.mem_toList_of_hasPrompt hlatest') hlatest')
  have hsettled : ∀ (code : Nat) (error : Option String),
      (code = 0 ↔ run.exitCode = 0 ∧ ¬ Refused s) →
        StartOutcome.Settled { run := run, exitCode := code, error := error } s :=
    fun code error hcode => ⟨hrun, hrefreshed, ⟨_, hmem, hlatest⟩, hcode, fun _ => hnot⟩
  cases outcome with
  | completed | failFast => exact hsettled _ _ (and_iff_left hnot).symm
  | unsupported error => exact hsettled _ _ (iff_of_false (by decide) (hfails error (.inl rfl)))
  | apiFailure error => exact hsettled _ _ (iff_of_false (by decide) (hfails error (.inr rfl)))

end

end

/-! ## The whole start -/

namespace StartOutcome

variable {prompted : WorkerId → Bool} {workerId : WorkerId} {s : StartRecord}

/-- While a start goes on the prompts stay as they are, and no session resists. -/
def Going (prompted : WorkerId → Bool) (s : StartRecord) : Prop :=
  StoredRun (Run.Shows prompted fun _ => False) s.1 ∧ ¬ Refused s

/-- The contract of a command that is alone, of which nothing but its end is asked. -/
abbrev contract : Contract storeInterface StartRecord :=
  aloneContract (fun _ _ => True) fun _ => True

lemma rule (policy : ExecutionPolicy) :
    SerialRule (fun _ _ => True) (fun _ => True) (Going prompted) (fun _ => False) (Going prompted)
      policy := by
  refine SerialRule.of_kept (fun _ _ => trivial) ?_ ?_ ?_
  · intro stage call s answer stored hcall hs hanswer
    refine ⟨hs.1.of_responds hanswer fun mutation hmutation now run left hleft hshows => ?_, ?_⟩
    · exact hshows.of_plain (hcall.updates mutation hmutation) hleft
    · exact not_refused_append hs.2 (refusesDeletion_of_deletes hcall.deletes)
  · intro workerId call s answer stored hcall hs hanswer
    refine ⟨hs.1.of_responds hanswer fun mutation hmutation now run left hleft hshows => ?_, ?_⟩
    · refine ⟨fun workerId' => ?_, fun _ => False.elim⟩
      exact ((hcall.updates mutation hmutation).hasPrompt_latestWorker hleft workerId').trans
        (hshows.prompted workerId')
    · exact not_refused_append hs.2 (refusesDeletion_of_opensAttempt hcall.phase)
  · intro stage call s answer stored hcall hs hanswer
    refine ⟨hs.1.of_responds hanswer fun mutation hmutation now run left hleft hshows => ?_, ?_⟩
    · exact hshows.of_settles (hcall.request.updates hmutation) hleft
    · exact not_refused_append hs.2 (refusesDeletion_of_deletes hcall.request.deletes)

lemma storedRun_of_plain {failed : WorkerId → Prop} {stage : Stage} {call : Call}
    {answer : call.request.Answer} {stored : Option Run} (hcall : call.Plain stage)
    (hs : StoredRun (Run.Shows prompted failed) s.1)
    (hanswer : call.request.Responds s.1 answer stored) :
    StoredRun (Run.Shows prompted failed) stored :=
  hs.of_responds hanswer fun mutation hmutation _ _ _ hleft hshows =>
    hshows.of_plain (hcall.updates mutation hmutation) hleft

/-- The cleanup phase settles the outcome. -/
lemma safe_cleanupPhase {execution : Flow.ExecutionResult} {recoveryError : Option String}
    (hgoing : Going prompted s) (hphase : LoopRule.PhaseEnds (Going prompted) execution s)
    (hprompt : prompted workerId = true) :
    contract.Safe (fun outcome s => outcome.Settled s) (fun _ _ => True)
      (Flow.cleanupPhase execution recoveryError) s := by
  obtain ⟨⟨run, hrun, hshows⟩, hnot⟩ := hgoing
  obtain rfl := Option.some.inj (hphase.stored.symm.trans hrun)
  replace hshows : execution.run.Shows prompted
      fun workerId => (execution.run.latestWorker workerId).status ≠ .done :=
    ⟨hshows.prompted, fun _ h => h⟩
  -- an attempt that could not be made leaves its worker with the prompt, and not done
  have hfailed : ∀ error, execution.outcome = .unsupported error ∨
      execution.outcome = .apiFailure error → ∃ workerId, prompted workerId = true ∧
        (execution.run.latestWorker workerId).status ≠ .done := by
    intro error herror
    obtain ⟨s₀, before, worker, worker', hidle, hbefore, hget, hexec, hget', hstatus⟩ :=
      hphase.failed error herror
    obtain ⟨⟨before', hbefore', hshows'⟩, -⟩ := hidle
    obtain rfl := Option.some.inj (hbefore.symm.trans hbefore')
    refine ⟨worker.id, ?_, ?_⟩
    · rw [← hshows'.prompted, Run.latestWorker_of_get? hget]
      exact (WorkerRecord.isExecutable_iff.1 hexec).1
    · rw [Run.latestWorker_of_get? hget']
      exact hstatus
  have hfinish := settled_finishOutcome recoveryError hphase.stored hphase.refreshed hshows hprompt
    hnot hfailed
  unfold Flow.cleanupPhase
  split
  · exact hfinish
  · next created _ =>
    dsimp only
    split_ifs
    · exact hfinish
    · refine (SessionCleanup.safe_cleanup (J := fun s => StoredRun (Run.Shows prompted
        fun workerId => (execution.run.latestWorker workerId).status ≠ .done) s.1)
        (fun _ _ => trivial) (fun call s answer stored hcall hs hanswer =>
          storedRun_of_plain hcall hs hanswer) ⟨_, hphase.stored, hshows⟩ hphase.stored
        hphase.refreshed).bind (fun result s' hs' => ?_) fun _ _ _ => trivial
      obtain ⟨run', error⟩ := result
      obtain ⟨⟨run'', hrun'', hshows'⟩, hstored, hrefreshed, hrefused⟩ := hs'
      obtain rfl := Option.some.inj (hstored.symm.trans hrun'')
      cases error with
      | none =>
        refine settled_finishOutcome recoveryError hstored hrefreshed hshows' hprompt ?_ hfailed
        rw [hrefused]
        simpa using hnot
      | some error =>
        have hlatest := (hshows'.prompted workerId).trans hprompt
        -- a deletion was refused: the start fails, whatever the workers have come to
        have hyes : Refused s' := hrefused.2 (.inr rfl)
        have hsummary : run'.refreshSummary = run' := hrefreshed
        refine ⟨?_, ?_, ⟨_, Run.mem_toList_of_hasPrompt hlatest, hlatest⟩, ?_, ?_⟩
        · rw [hsummary]
          exact hstored
        · rw [hsummary]
          exact hrefreshed
        · exact iff_of_false (by simp) fun h => h.2 hyes
        · exact fun h => by cases h

theorem safe_startRun (datetime : Datetime) (rounds : Nat) (request : RunStartRequest)
    (start : Option Run) :
    contract.Safe (fun outcome s => outcome.Settled s) (fun _ _ => True)
      (Commands.startRun datetime rounds request) (start, []) := by
  refine Commands.safe_startRun_of (fun s => ¬ Refused s) (fun s => ¬ Refused s)
    (fun _ _ => trivial) (fun call s answer stored hcall hs _ _ =>
      not_refused_append hs (refusesDeletion_of_deletes hcall.deletes))
    (fun s now seen saved stored hs _ _ => not_refused_append hs (refusesDeletion_of_deletes rfl))
    (fun _ _ _ => trivial) (fun _ _ _ => trivial)
    (fun policy run s _ hs hrun hprompt => ?_) fun hrefused => ?_
  · obtain ⟨worker, hworker, hprompt⟩ := List.any_eq_true.1 hprompt
    have hlatest : run.latestWorker worker.id = worker :=
      Run.latestWorker_of_get? (WorkerMap.mem_toList_iff.1 hworker)
    have hgoing : Going (fun workerId => (run.latestWorker workerId).hasPrompt) s :=
      ⟨⟨run, hrun, fun _ => rfl, fun _ => False.elim⟩, hs⟩
    have hprompted : (run.latestWorker worker.id).hasPrompt = true := by
      rw [hlatest]
      exact hprompt
    refine (rule policy).safe_runFlow (fun outcome s hidle hskips => ?_) (fun _ _ _ => trivial)
      (fun execution recoveryError s hends hphase => safe_cleanupPhase hends hphase hprompted)
      hgoing hrun
    obtain ⟨⟨run', hrun', hshows⟩, hnot⟩ := hidle
    obtain rfl := Option.some.inj (hskips.stored.symm.trans hrun')
    have hprompted' := (hshows.prompted worker.id).trans hprompted
    refine ⟨hskips.stored, hskips.refreshed, ⟨_, Run.mem_toList_of_hasPrompt hprompted', hprompted'⟩,
      ?_, fun _ => hnot⟩
    rw [hskips.exitCode]
    exact (and_iff_left hnot).symm
  · obtain ⟨e, he, -⟩ := hrefused
    cases he

end StartOutcome

/-! ## Aborts and recoveries -/

section

variable {s : StartRecord} {α : Type}

lemma safe_anyway (p : Command α) :
    StartOutcome.contract.Safe (fun _ _ => True) (fun _ _ => True) p s :=
  (Contract.safe_alone_of_within (J := fun _ => True)
    (p.within_of_forall (fun _ => trivial) fun _ => trivial)
    (fun _ _ _ _ _ _ _ _ => ⟨trivial, trivial⟩) trivial).mono (fun _ _ _ => trivial) fun _ _ h => h

/-- The stored status and output references are what the stored workers come to. -/
def SummaryCoherent (stored : Option Run) : Prop :=
  StoredRun (fun run => run.status = run.refreshSummary.status ∧
    run.outputRefs = run.refreshSummary.outputRefs) stored

lemma summaryCoherent_of_isRefreshed {run : Run} {stored : Option Run} (hrun : stored = some run)
    (h : run.IsRefreshed) : SummaryCoherent stored :=
  ⟨run, hrun, congrArg Run.status h.symm, congrArg Run.outputRefs h.symm⟩

lemma isRefreshed_of_finalUpdate {entryId workerId sessionId now : String} {response : JsonValue}
    {run left : Run} (h : (RunMutation.journal .remoteMutation (.finalize entryId
      (some (.abortWorker workerId sessionId response)))).apply now run = .ok left) :
    left.normalize.IsRefreshed := by
  obtain ⟨updated, hupdated, rfl⟩ := apply_finalUpdate.1 h
  obtain ⟨worker, session, -, -, rfl⟩ := applyAbortWorker_eq_ok.1 hupdated
  have hrefreshed := Run.isRefreshed_normalize_refreshSummary
    (run.setWorker (worker.withAbort (abortRecord sessionId response)))
  simp only [Run.IsRefreshed, Run.refreshSummary, Run.normalize, Run.setJournal,
    Run.mk.injEq] at hrefreshed ⊢
  exact hrefreshed

/-- An abort that returns leaves the summary coherent. -/
lemma Commands.safe_abortWorker (workerId : String) :
    StartOutcome.contract.Safe (fun _ s => SummaryCoherent s.1) (fun _ _ => True)
      (abortWorker workerId) s := by
  unfold abortWorker RemoteMutationTransaction.execute
  refine (safe_anyway _).bind (fun run s _ => ?_) fun _ _ _ => trivial
  refine (safe_anyway _).bind (fun worker s _ => ?_) fun _ _ _ => trivial
  refine (safe_anyway _).bind (fun entryId s _ => ?_) fun _ _ _ => trivial
  refine Contract.safe_bind_iff.2 ?_
  refine (safe_anyway _).bind (fun recorded s _ => ?_) fun _ _ _ => trivial
  refine (safe_anyway _).bind (fun response s _ => ?_) fun _ _ _ => trivial
  refine (safe_anyway _).bind (fun succeeded s _ => ?_) fun _ _ _ => trivial
  refine (safe_anyway _).bind (fun marked s _ => ?_) fun _ _ _ => trivial
  -- the result finalises with the update of the abort, so no record is marked again
  refine Contract.safe_call_alone fun (answer : UpdateAnswer) stored hanswer _ => ⟨trivial, ?_⟩
  have hupdates : Updates (RunMutation.journal .remoteMutation (.finalize entryId
      (some (.abortWorker workerId (intentSession recorded.2) response)))).apply s.1 answer
        stored := hanswer
  cases answer with
  | rejected error => trivial
  | lost error => trivial
  | committed now seen saved =>
    obtain ⟨-, hstored, left, hleft, rfl⟩ := hupdates.of_committed
    exact summaryCoherent_of_isRefreshed hstored (isRefreshed_of_finalUpdate hleft)

/-- A load that returns after an update, which is the recovery of an attempt, leaves the summary
coherent. -/
lemma Commands.safe_loadRun (datetime : Datetime) (start : Option Run) :
    StartOutcome.contract.Safe (fun _ s => (∃ e ∈ s.2, e.op.request.mutation?.isSome = true) →
        SummaryCoherent s.1) (fun _ _ => True) (loadRun datetime) (start, []) := by
  unfold loadRun
  refine Contract.safe_call_alone fun loaded stored hloaded _ => ⟨trivial, ?_⟩
  cases loaded with
  | error error => trivial
  | ok run =>
    refine Contract.safe_call_alone fun now stored' hnow _ => ⟨trivial, ?_⟩
    show StartOutcome.contract.Safe _ _ (Process.ofExcept (recoverExpiredActiveAttempts datetime
      run.sortedWorkers now) >>= _) _
    cases recoverExpiredActiveAttempts datetime run.sortedWorkers now with
    | error error => trivial
    | ok recoveries =>
      rw [Process.ofExcept_ok, Process.done_bind]
      split_ifs
      · rintro ⟨e, he, hupdate⟩
        simp only [List.nil_append, List.singleton_append, List.mem_cons, List.not_mem_nil,
          or_false] at he
        rcases he with rfl | rfl
        · cases hupdate
        · cases hupdate
      · refine Command.safe_persist_alone fun answer stored hupdates _ => ⟨trivial, ?_⟩
        cases answer with
        | rejected error => trivial
        | lost error => trivial
        | committed now seen saved =>
          obtain ⟨-, hstored, left, hleft, rfl⟩ := hupdates.of_committed
          exact fun _ => summaryCoherent_of_isRefreshed hstored
            (RunMutation.isRefreshed_of_applyTransitions hleft)

end

/-! ## Coherence of the summary -/

/-- Whether a command that has returned after some events owes a coherent summary: a start and an
abort do, and a load that has recovered an attempt. -/
def RunCommand.Summarises (events : List (Event storeInterface Unit)) : RunCommand → Prop
  | start _ _ _ | abort _ => True
  | load _ => ∃ e ∈ events, e.op.request.mutation?.isSome = true
  | upsert _ _ _ | requeue _ _ => False

/-- Whenever a start or an abort returns that was the only writer of its run, or a load that has
recovered an attempt, the stored status and output references are those of the stored workers. -/
theorem summaryCoherent_of_runs (command : RunCommand) (start : Option Run)
    (events : List (Event storeInterface Unit))
    (c : Config storeInterface PyError Unit Unit (Option Run))
    (hrun : Runs (Config.Fires (storeSurroundings Unit)) ⟨start, fun _ => command.process⟩ events c)
    (hdone : c.program () = .done ()) (hsummarises : command.Summarises events) :
    SummaryCoherent c.state := by
  cases command with
  | start datetime rounds request =>
    have hsafe : StartOutcome.contract.Safe (fun _ s => SummaryCoherent s.1) (fun _ _ => True)
        (RunCommand.start datetime rounds request).process (start, []) :=
      (StartOutcome.safe_startRun datetime rounds request start).bind
        (fun outcome s hs => summaryCoherent_of_isRefreshed hs.stored hs.refreshed) fun _ _ h => h
    exact Contract.post_of_alone hsafe hrun hdone
  | load datetime =>
    have hsafe : StartOutcome.contract.Safe (fun _ s => (∃ e ∈ s.2,
        e.op.request.mutation?.isSome = true) → SummaryCoherent s.1) (fun _ _ => True)
        (RunCommand.load datetime).process (start, []) :=
      (Commands.safe_loadRun datetime start).bind (fun _ s hs => hs) fun _ _ h => h
    exact Contract.post_of_alone hsafe hrun hdone hsummarises
  | abort workerId =>
    have hsafe : StartOutcome.contract.Safe (fun _ s => SummaryCoherent s.1) (fun _ _ => True)
        (RunCommand.abort workerId).process (start, []) :=
      (Commands.safe_abortWorker workerId).bind (fun _ s hs => hs) fun _ _ h => h
    exact Contract.post_of_alone hsafe hrun hdone
  | upsert => cases hsummarises
  | requeue => cases hsummarises

/-! ## A recovered time-out -/

/-- A worker whose attempt was left running, with a time-out of a minute and one retry. -/
def strandedWorker : WorkerRecord where
  id := ⟨"worker", WorkerId.nonempty_worker⟩
  sessionId := some "ses_1"
  prompt := some "work"
  retryLimit := 1
  retryableFailures := ["timeout"]
  timeoutSeconds := some (.ofNat 60 (by decide))
  timeoutStartedAt := .str "2026-01-01T00:00:00+00:00"
  lifecycleState := .activeWait
  attempts := some [.obj [("id", .str "attempt-1"), ("session_id", .str "ses_1"),
    ("status", .str "active"), ("started_at", .str "2026-01-01T00:00:00+00:00"),
    ("finished_at", .null)]]

/-- Its run. -/
def strandedRun : Run :=
  { Run.new "demo" "/" "" with workers := WorkerMap.empty.set strandedWorker }

/-- A server whose results are done, an hour later. -/
def laterServer : ScriptedServer where
  createdSession := "ses"
  execute _ := .ok { status := "done" }
  readable _ := true
  clock := "2026-01-01T01:00:00+00:00"
  sessionNonempty := ScriptedServer.nonempty_ses

/-- Whether a process has returned a value with a property. -/
def returned {α : Type} (p : Command α) (holds : α → Bool) : Bool :=
  match p with
  | .done a => holds a
  | _ => false

lemma exists_of_returned {α : Type} {p : Command α} {holds : α → Bool}
    (h : returned p holds = true) : ∃ a, p = .done a ∧ holds a = true := by
  unfold returned at h
  split at h
  · exact ⟨_, rfl, h⟩
  · cases h

lemma exists_run_of_play {α : Type} (server : ScriptedServer) (start : Option Run)
    (program : Command α) (steps : Nat) (holds : List (Event storeInterface Unit) → α → Bool)
    (h : ((Config.record ⟨start, fun _ => program⟩ []).play
      (server.turns (fun _ _ => true) steps)).map
        (fun result => returned (result.2.program ()) (holds result.1)) = some true) :
    ∃ events, ∃ c : Config storeInterface PyError α Unit (Option Run),
      Runs (Config.Fires (storeSurroundings Unit)) ⟨start, fun _ => program⟩ events c ∧
        ∃ a, c.program () = .done a ∧ holds events a = true := by
  obtain ⟨⟨events, c⟩, hplayed, hreturned⟩ := Option.map_eq_some_iff.1 h
  have hrun := Config.runs_forget (I := storeInterface) (fun _ _ => True)
    (ScriptedServer.runs_of_play (fun _ _ _ => trivial) hplayed)
  exact ⟨events, c.forget, hrun.mono fun _ _ _ h => h.1, exists_of_returned hreturned⟩

theorem summaryCoherent_recoveredLoad :
    ∃ events, ∃ c : Config storeInterface PyError Unit Unit (Option Run),
      Runs (Config.Fires (storeSurroundings Unit))
        ⟨some strandedRun, fun _ => (RunCommand.load .standard).process⟩ events c ∧
      c.program () = .done () ∧ SummaryCoherent c.state := by
  obtain ⟨events, c, hrun, _, hdone, hrecovered⟩ := exists_run_of_play laterServer
    (some strandedRun) (RunCommand.load .standard).process 3
    (fun events _ => events.any fun e => e.op.request.mutation?.isSome) (by decide +kernel)
  exact ⟨events, c, hrun, hdone, summaryCoherent_of_runs (.load .standard) _ events c hrun hdone
    (List.any_eq_true.1 hrecovered)⟩

/-! ## The exit code -/

/-- Whenever a start returns that was the only writer of its run, the run that it returns is stored,
and the exit code is zero exactly if each prompted worker of it is done and no session has resisted
its deletion.  Where a session has, the start reports an error. -/
theorem exitCode_eq_zero_iff_of_runs (datetime : Datetime) (rounds : Nat) (request : RunStartRequest)
    (start : Option Run) (events : List (Event storeInterface Unit))
    (c : Config storeInterface PyError StartOutcome Unit (Option Run))
    (hrun : Runs (Config.Fires (storeSurroundings Unit))
      ⟨start, fun _ => Commands.startRun datetime rounds request⟩ events c)
    (outcome : StartOutcome) (hdone : c.program () = .done outcome) :
    c.state = some outcome.run ∧
      (outcome.exitCode = 0 ↔ (∀ worker ∈ outcome.run.workers.toList, worker.hasPrompt = true →
        worker.status = .done) ∧ ∀ e ∈ events, refusesDeletion e = false) ∧
      (outcome.error = none → ∀ e ∈ events, refusesDeletion e = false) := by
  have hsettled : outcome.Settled (c.state, events) :=
    Contract.post_of_alone (StartOutcome.safe_startRun datetime rounds request start) hrun hdone
  have hrefused : ¬ Refused (c.state, events) ↔ ∀ e ∈ events, refusesDeletion e = false := by
    simp [Refused]
  obtain ⟨worker, hmem, hprompt⟩ := hsettled.prompted
  refine ⟨hsettled.stored, ?_, fun herror => hrefused.1 (hsettled.error herror)⟩
  rw [hsettled.exitCode, hrefused, Run.exitCode_eq_zero_iff hsettled.refreshed hmem hprompt]

/-- The start that recovers and retries the attempt exits with zero. -/
theorem exitCode_recoveredStart :
    ∃ events, ∃ c : Config storeInterface PyError StartOutcome Unit (Option Run),
      Runs (Config.Fires (storeSurroundings Unit)) ⟨some strandedRun, fun _ =>
        Commands.startRun .standard 2
          { name := "demo", start := { executionPolicy := "continue" } }⟩ events c ∧
      ∃ outcome, c.program () = .done outcome ∧ outcome.exitCode = 0 ∧
        ∀ worker ∈ outcome.run.workers.toList, worker.hasPrompt = true → worker.status = .done := by
  obtain ⟨events, c, hrun, outcome, hdone, hzero⟩ := exists_run_of_play laterServer
    (some strandedRun) (Commands.startRun .standard 2
      { name := "demo", start := { executionPolicy := "continue" } }) 17
    (fun _ outcome => outcome.exitCode = 0) (by decide +kernel)
  have hcode : outcome.exitCode = 0 := of_decide_eq_true hzero
  exact ⟨events, c, hrun, outcome, hdone, hcode, ((exitCode_eq_zero_iff_of_runs .standard 2 _ _
    events c hrun outcome hdone).2.1.1 hcode).1⟩

/-- A start can exit with zero and report an error: that of the attempt it recovered and retried. -/
theorem not_exitCode_iff_error_eq_none :
    ¬ ∀ (datetime : Datetime) (rounds : Nat) (request : RunStartRequest) (start : Option Run)
        (events : List (Event storeInterface Unit))
        (c : Config storeInterface PyError StartOutcome Unit (Option Run)),
      Runs (Config.Fires (storeSurroundings Unit))
        ⟨start, fun _ => Commands.startRun datetime rounds request⟩ events c →
      ∀ outcome, c.program () = .done outcome →
        (outcome.exitCode = 0 ↔ (∀ worker ∈ outcome.run.workers.toList, worker.hasPrompt = true →
          worker.status = .done) ∧ outcome.error = none) := by
  intro h
  obtain ⟨events, c, hrun, outcome, hdone, hholds⟩ := exists_run_of_play laterServer
    (some strandedRun) (Commands.startRun .standard 2
      { name := "demo", start := { executionPolicy := "continue" } }) 17
    (fun _ outcome => outcome.exitCode = 0 && outcome.error.isSome) (by decide +kernel)
  rw [Bool.and_eq_true, decide_eq_true_iff] at hholds
  have hnone := ((h _ _ _ _ events c hrun outcome hdone).1 hholds.1).2
  rw [hnone] at hholds
  cases hholds.2

end OpencodeSession
