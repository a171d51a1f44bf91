import OpencodeSession.Properties.CommandRule

/-!
# The rule for one attempt

An attempt in a command that is alone.  Once its start is recorded, the worker in hand is the stored
one, and nothing is updated while the prompt is answered, so the outcome is computed from the worker
that it is recorded for.  `Execution.safe_execute_of` leaves two things to be proved of an attempt:
that its opening keeps an assertion, and what recording an outcome of the stored worker comes to.
-/

namespace OpencodeSession

lemma latestOf_of_eq_none {workerId : WorkerId} {request : Request} {answer : request.Answer}
    {before stored : Option Run} (hanswer : request.Responds before answer stored)
    (h : request.mutation? = none) : latestOf workerId stored = latestOf workerId before := by
  rcases Request.Responds.stored_eq hanswer h with rfl | ⟨rfl, name, directory, url, rfl⟩
  · rfl
  · rfl

namespace Execution

variable {cond : StartRecord → Call → Prop} {holds J : StartRecord → Prop} {s : StartRecord}
  {run : Run} {worker : WorkerRecord} {workerId : WorkerId} {strategy : BlockingStrategy}

/-- The worker in hand is the stored one. -/
structure InHand (workerId : WorkerId) (worker : WorkerRecord) (s : StartRecord) : Prop where
  id : worker.id = workerId
  latest : latestOf workerId s.1 = worker

lemma within_executeSingleWorkerAttempt (worker : WorkerRecord) (attemptId prompt : String)
    (promptId : Option String) :
    (executeSingleWorkerAttempt worker attemptId prompt promptId).Within
      (fun call : Call => call.request.mutation? = none) fun _ => True := by
  have hrequire : (requireTime (.prompting worker.id.value attemptId)
      worker.timeoutSeconds).Within (fun call : Call => call.request.mutation? = none)
        fun _ => True := by
    unfold requireTime
    split
    · trivial
    · refine ⟨rfl, fun inTime => ?_⟩
      cases inTime <;> trivial
  have hcall : (callWorkerWithDeadline worker attemptId prompt promptId).Within
      (fun call : Call => call.request.mutation? = none) fun _ => True := by
    refine Process.Within.tryCatch (hrequire.bind fun _ _ => ?_) fun error => ?_
    · exact ⟨rfl, fun _ => Process.within_ofExcept.2 fun _ _ => trivial⟩
    · split_ifs <;> trivial
  refine Process.Within.tryCatch (hcall.bind fun _ _ => trivial) fun error => ?_
  split <;> trivial

/-- A worker that is taken from the run that its transition was saved in is the stored one. -/
lemma safe_applyWorkerTransition {phase : Phase} {transition : WorkerTransition}
    (hholds : ∀ s, J s → holds s) (hid : transition.workerId = workerId)
    (hsnapshot : ∀ patch, transition.payload ≠ .snapshotApplied patch)
    (hkeeps : ∀ (answer : UpdateAnswer) (stored : Option Run),
      Updates (RunMutation.applyTransitions [transition]).apply s.1 answer stored →
        cond s ⟨phase, .updateRun (.applyTransitions [transition])⟩ →
          J (stored, s.2 ++ [⟨(), ⟨phase, .updateRun (.applyTransitions [transition])⟩, answer⟩])) :
    (aloneContract cond holds).Safe
      (fun result s => J s ∧ s.1 = some result.1 ∧ InHand workerId result.2 s)
      (fun _ s => J s) (applyWorkerTransition phase worker transition) s := by
  refine (Command.safe_persist_keeping hholds hkeeps).bind (fun saved s' hsaved => ?_) fun _ _ h => h
  obtain ⟨hJ, hstored, now, seen, left, -, hleft, rfl⟩ := hsaved
  obtain ⟨run', hrun', hworkers⟩ := RunMutation.applyTransitions_eq_ok hleft
  obtain ⟨-, hget⟩ := Run.get?_applyTransitions_of_mem (by simpa using hsnapshot) (by simp)
    hrun' (List.mem_singleton_self transition)
  rw [← hworkers, ← Run.workers_normalize] at hget
  have hlatest := Run.latestWorker_of_get? hget
  refine ⟨hJ, hstored, ?_⟩
  show InHand workerId ((left.normalize.workers.get? transition.workerId.value).getD worker) s'
  rw [hget, Option.getD_some, ← hlatest, ← hid]
  exact ⟨Run.id_latestWorker _ _, by rw [hstored]; rfl⟩

section

variable {attemptId prompt : String} {createdSessionIds : List String}
  {agent model : Option String} {cleanupRequested : Bool}
  (hholds : ∀ s, J s → holds s)
  (hopens : ∀ (call : Call) (s : StartRecord) (answer : call.request.Answer)
    (stored : Option Run), call.Opens workerId (fun _ => True) → J s →
      call.request.Responds s.1 answer stored → cond s call →
        J (stored, s.2 ++ [⟨(), call, answer⟩]))
include hholds hopens

lemma safe_of_opens {α : Type} {p : Command α} {Q : α → Prop}
    (h : p.WithinWhen (Call.Grants workerId fun _ => True) (Call.Opens workerId fun _ => True) Q)
    (hs : J s) :
    (aloneContract cond holds).Safe (fun a s => Q a ∧ J s) (fun _ s => J s) p s :=
  Contract.safe_alone_of_within (h.within (Call.grants_of_forall fun _ => trivial))
    (fun call s answer stored hcall hs hanswer hcond =>
      have hJ := hopens call s answer stored hcall hs hanswer hcond
      ⟨hholds _ hJ, hJ⟩) hs

/-- Once the start of an attempt is recorded, the worker in hand is the stored one, and it still is
when the prompt is answered. -/
lemma safe_startAttempt (hs : J s) (hid : worker.id = workerId) :
    (aloneContract cond holds).Safe (fun result s => J s ∧ InHand workerId result.2.1 s)
      (fun _ s => J s) (startAttempt worker strategy createdSessionIds) s := by
  have hprepare : (preparePromptId (.starting worker.id.value) strategy).WithinWhen
      (Call.Grants workerId fun _ => True) (Call.Opens workerId fun _ => True) fun _ => True := by
    cases strategy with
    | sessionMessage => exact ⟨Call.opens_of_eq_none rfl rfl rfl, fun _ _ => trivial⟩
    | legacyRunReply => trivial
  refine (safe_of_opens hholds hopens hprepare hs).bind (fun promptId s hs => ?_) fun _ _ h => h
  refine (safe_of_opens hholds hopens (Command.withinWhen_clock rfl) hs.2).bind
    (fun startedAt s hs => ?_) fun _ _ h => h
  refine (safe_applyWorkerTransition hholds hid (by simp) fun answer stored hupdates hcond =>
    hopens ⟨.starting worker.id.value, .updateRun (.applyTransitions [_])⟩ s answer stored
      ⟨rfl, fun mutation h => ?_, nofun, nofun⟩ hs.2 hupdates hcond).bind
      (fun result s hs => ⟨hs.1, hs.2.2⟩) fun _ _ h => h
  cases h
  exact .applyTransition hid trivial

lemma safe_openAttempt (hs : J s) (hid : worker.id = workerId) :
    (aloneContract cond holds).Safe (fun opened s => J s ∧ InHand workerId opened.1 s)
      (fun _ s => J s)
      (openAttempt run worker prompt strategy agent model cleanupRequested) s := by
  have hgranted : ∀ {worker : WorkerRecord}, worker.id = workerId →
      worker.Granted workerId fun _ => True := fun hid => ⟨hid, fun _ _ => trivial⟩
  unfold openAttempt
  refine (safe_of_opens hholds hopens (withinWhen_provisionSession run agent model cleanupRequested
    (hgranted hid)) hs).bind (fun provisioned s hs => ?_) fun _ _ h => h
  refine (safe_of_opens hholds hopens (withinWhen_activate (hgranted hs.1.id)) hs.2).bind
    (fun active s hs => ?_) fun _ _ h => h
  refine (safe_startAttempt hholds hopens hs.2 hs.1.id).bind (fun started s hs => ?_)
    fun _ _ h => h
  obtain ⟨hJ, hhand⟩ := hs
  have hprompts := ((withinWhen_executeSingleWorkerAttempt started.2.2.1 prompt started.2.2.2
    (hgranted hhand.id)).within (Call.grants_of_forall fun _ => trivial)).and
    (within_executeSingleWorkerAttempt started.2.1 started.2.2.1 prompt started.2.2.2)
  refine (Contract.safe_alone_of_within (J := fun s => J s ∧ InHand workerId started.2.1 s) hprompts
    (fun call s answer stored hcall hs hanswer hcond => ?_) ⟨hJ, hhand⟩).bind
    (fun outcome s hs => hs.2) fun _ _ h => h.1
  have hJ' := hopens call s answer stored hcall.1 hs.1 hanswer hcond
  exact ⟨hholds _ hJ', hJ', hs.2.id, (latestOf_of_eq_none hanswer hcall.2).trans hs.2.latest⟩

/-- An attempt, of which recording the outcome is left: it is computed from the stored worker. -/
theorem safe_execute_of {K : Option String → Run → StartRecord → Prop} {E : StartRecord → Prop}
    (herr : ∀ s, J s → E s)
    (hclock : ∀ (s : StartRecord) (now : String), J s →
      J (s.1, s.2 ++ [⟨(), ⟨.recording workerId.value, .now⟩, now⟩]))
    (hrecord : ∀ (s : StartRecord) (worker : WorkerRecord) (attempt : WorkerAttemptOutcome)
      (transition : WorkerTransition) (error : Option String) (answer : UpdateAnswer)
      (stored : Option Run), J s → InHand workerId worker s → transition.workerId = workerId →
        AttemptEffect worker attempt transition.payload error →
          Updates (RunMutation.applyTransitions [transition]).apply s.1 answer stored →
            cond s ⟨.recording workerId.value, .updateRun (.applyTransitions [transition])⟩ →
              E (stored, s.2 ++ [⟨(), ⟨.recording workerId.value,
                .updateRun (.applyTransitions [transition])⟩, answer⟩]) ∧
              ∀ now seen saved, answer = .committed now seen saved →
                K error saved (stored, s.2 ++ [⟨(), ⟨.recording workerId.value,
                  .updateRun (.applyTransitions [transition])⟩, answer⟩]))
    (hends : ∀ s, E s → holds s) (hs : J s) (hid : worker.id = workerId) :
    (aloneContract cond holds).Safe (fun outcome s => K outcome.error outcome.run s)
      (fun _ s => E s) (execute run worker prompt strategy agent model cleanupRequested) s := by
  rw [execute_eq_bind]
  refine (safe_openAttempt hholds hopens hs hid).bind (fun opened s hs => ?_) fun _ _ h => herr _ h
  obtain ⟨worker, attemptId, attempt, createdSessionIds⟩ := opened
  obtain ⟨hJ, hhand⟩ := hs
  dsimp only at hhand ⊢
  -- reading the clock leaves the worker in hand
  have hread : ∀ {s}, J s ∧ InHand workerId worker s → (aloneContract cond holds).Safe
      (fun _ s => J s ∧ InHand workerId worker s) (fun _ s => J s)
      (Command.clock (.recording worker.id.value)) s := by
    rintro s ⟨hJ, hhand⟩
    refine Contract.safe_call_alone fun now stored hanswer _ => ?_
    obtain rfl : stored = s.1 := hanswer
    rw [hhand.id]
    have hJ' := hclock s now hJ
    exact ⟨hholds _ hJ', hJ', hhand.id, hhand.latest⟩
  unfold recordOutcome
  refine Contract.Safe.bind (M := fun _ s => J s ∧ InHand workerId worker s) (E := fun _ s => J s)
    ?_ (fun now s hs => ?_) fun _ _ h => herr _ h
  · split_ifs
    · exact hread ⟨hJ, hhand⟩
    · exact ⟨hJ, hhand⟩
  refine (hread hs).bind (fun finishedAt s hs => ?_) fun _ _ h => herr _ h
  have heffect := attemptEffect worker attempt now
  have hrecorded : (applyWorkerAttemptTransition worker attempt now).workerTransition.workerId =
      workerId := applyWorkerAttemptTransition_workerId.trans hs.2.id
  dsimp only
  -- of the transition only its worker and its effect matter
  generalize applyWorkerAttemptTransition worker attempt now = applied at heffect hrecorded ⊢
  refine Contract.safe_bind_iff.2 (Contract.safe_bind_iff.2 (Command.safe_persist_alone
    fun answer stored hupdates hcond => ?_))
  rw [hs.2.id] at hcond ⊢
  obtain ⟨hE, hK⟩ := hrecord s worker attempt (applied.workerTransition.withFinalizedAttempt
    (.str attemptId) (attemptFinalizationFields applied attempt finishedAt)) applied.error answer
    stored hs.1 hs.2 hrecorded heffect hupdates hcond
  refine ⟨hends _ hE, ?_⟩
  cases answer with
  | committed now seen saved => exact hK now seen saved rfl
  | rejected error => exact hE
  | lost error => exact hE

end

end Execution

end OpencodeSession
