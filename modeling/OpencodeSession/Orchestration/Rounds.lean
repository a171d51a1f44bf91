import OpencodeSession.Framework.Counting
import OpencodeSession.Orchestration.Requests

/-!
# What a round of the loop asks for

A round of the serial loop is one execution and one plan.  An execution sends at most one prompt,
and asks for one outcome to be recorded before it returns.  Neither has a loop of its own, so that
only the bound on the rounds can be reached.
-/

namespace OpencodeSession

/-! ## Prompts -/

namespace Execution

variable {kind : Call → Bool} {run : Run} {worker : WorkerRecord} {agent model : Option String}
  {cleanupRequested : Bool} {strategy : BlockingStrategy} {createdSessionIds : List String}
  {attemptId prompt : String} {promptId : Option String}

/-- A request that sends no prompt. -/
def Unprompted (call : Call) : Prop := call.request.prompt? = none

lemma unprompted_applyWorkerTransition {phase : Phase} {transition : WorkerTransition} :
    (applyWorkerTransition phase worker transition).Within Unprompted fun _ => True :=
  (Command.within_persist (P := Unprompted) rfl).bind fun _ _ => trivial

lemma unprompted_clock {phase : Phase} :
    (Command.clock phase).Within Unprompted fun _ => True :=
  Command.within_clock (P := Unprompted) rfl fun _ => trivial

lemma unprompted_provisionSession :
    (provisionSession run worker agent model cleanupRequested).Within Unprompted fun _ => True := by
  have hprovision : (Provisioning.provision run worker agent model cleanupRequested).Within
      Unprompted fun _ => True :=
    Provisioning.within_provision_unprompted (fun _ _ h => h) (fun _ _ => rfl) run agent model
      cleanupRequested
  refine hprovision.seq fun provisioning => unprompted_applyWorkerTransition.seq fun provisioned =>
    Process.Within.seq ?_ fun _ => trivial
  rw [Process.within_iff_withinWhen]
  unfold Provisioning.finalizeBestEffort
  split
  · trivial
  · exact (RemoteMutationTransaction.withinWhen_finalizeBestEffort (G := fun _ => True) trivial
      (fun mutation _ => (Command.within_update (P := Unprompted) rfl).when) unprompted_clock.when).bind
      fun run _ => trivial

lemma unprompted_activate : (activate worker).Within Unprompted fun _ => True := by
  unfold activate
  refine Process.Within.seq ?_ fun now => unprompted_applyWorkerTransition
  split_ifs
  · exact unprompted_clock
  · trivial

lemma unprompted_startAttempt :
    (startAttempt worker strategy createdSessionIds).Within Unprompted fun _ => True := by
  unfold startAttempt
  refine Process.Within.seq ?_ fun promptId => unprompted_clock.seq fun startedAt =>
    unprompted_applyWorkerTransition.seq fun _ => trivial
  cases strategy with
  | sessionMessage => exact ⟨rfl, fun _ => trivial⟩
  | legacyRunReply => trivial

lemma unprompted_recordOutcome {attempt : WorkerAttemptOutcome} :
    (recordOutcome worker attemptId attempt createdSessionIds).Within Unprompted fun _ => True := by
  unfold recordOutcome
  refine Process.Within.seq ?_ fun now => unprompted_clock.seq fun finishedAt =>
    unprompted_applyWorkerTransition.seq fun _ => trivial
  split_ifs
  · exact unprompted_clock
  · trivial

/-- A prompt is sent at most once: what is raised after it is no reason to send it again. -/
lemma atMost_executeSingleWorkerAttempt (hkind : ∀ call, Unprompted call → kind call = false) :
    (executeSingleWorkerAttempt worker attemptId prompt promptId).AtMost kind 1 := by
  have hnone : ∀ {α : Type} {p : Command α} {n : Nat}, p.Within Unprompted (fun _ => True) →
      p.AtMost kind n := fun h => .of_within (h.mono hkind fun _ h => h)
  have hrequire : (requireTime (.prompting worker.id.value attemptId)
      worker.timeoutSeconds).Within Unprompted fun _ => True := by
    unfold requireTime
    split
    · trivial
    · refine ⟨rfl, fun inTime => ?_⟩
      cases inTime <;> trivial
  have hsend : ∀ execution, (sendPrompt (.prompting worker.id.value attemptId) execution).AtMost
      kind 1 := by
    refine fun execution => ⟨Bool.toNat_le _, fun answer => ?_⟩
    cases answer <;> trivial
  have hcall : (callWorkerWithDeadline worker attemptId prompt promptId).AtMost kind 1 := by
    refine Process.AtMost.handle ((hnone (n := 0) hrequire).bind fun _ => hsend _) (m := 0)
      fun error => hnone ?_
    split_ifs <;> trivial
  refine Process.AtMost.handle (n := 1) (m := 0) (hcall.bind (m := 0) fun _ => hnone trivial)
    fun error => hnone ?_
  split <;> trivial

lemma atMost_execute (hkind : ∀ call, Unprompted call → kind call = false) :
    (execute run worker prompt strategy agent model cleanupRequested).AtMost kind 1 := by
  have hnone : ∀ {α : Type} {p : Command α} {n : Nat}, p.Within Unprompted (fun _ => True) →
      p.AtMost kind n := fun h => .of_within (h.mono hkind fun _ h => h)
  refine Process.AtMost.bind (n := 0) (m := 1) (hnone unprompted_provisionSession) fun provisioned =>
    Process.AtMost.bind (n := 0) (m := 1) (hnone unprompted_activate) fun active =>
      Process.AtMost.bind (n := 0) (m := 1) (hnone unprompted_startAttempt) fun started =>
        Process.AtMost.bind (n := 1) (m := 0) (atMost_executeSingleWorkerAttempt hkind)
          fun outcome => hnone unprompted_recordOutcome

/-- An execution that returns has asked for an outcome to be recorded. -/
lemma atLeast_execute
    (hkind : ∀ workerId transition,
      kind ⟨.recording workerId, .updateRun (.applyTransitions [transition])⟩ = true) :
    (execute run worker prompt strategy agent model cleanupRequested).AtLeast kind 1 := by
  unfold execute
  refine .bind _ fun provisioned => .bind _ fun active => .bind _ fun started =>
    .bind _ fun outcome => ?_
  unfold recordOutcome
  refine .bind _ fun now => .bind _ fun finishedAt => fun answer => ?_
  rw [hkind]
  exact Process.atLeast_zero _

end Execution

/-! ## Bounds of loops -/

namespace RemoteMutationTransaction

variable {I : Interface} {F U V H : Type} {port : JournalPort I F U} {handlers : JournalHandlers F U}
  {transaction : RemoteMutationTransaction} (hpersist : ∀ mutation, (port.persist mutation).Uncut)
include hpersist

lemma uncut_persistMutation (mutation : JournalMutation F U) :
    (persistMutation port mutation).Uncut :=
  (hpersist mutation).bind fun _ => trivial

lemma uncut_persistBestEffort (run : Run) (mutation : JournalMutation F U) :
    (persistBestEffort port run mutation).Uncut := by
  refine (uncut_persistMutation hpersist mutation).tryCatch fun error => ?_
  split_ifs <;> trivial

lemma uncut_applyResult (run : Run) (result : RemoteMutationResult U) :
    (transaction.applyResult port run result).Uncut := by
  cases result with
  | recordApplied record update policy =>
    exact (Process.uncut_ofExcept _).bind fun _ => uncut_persistMutation hpersist _
  | keepPending => trivial
  | finalize update => exact uncut_persistMutation hpersist _

lemma uncut_markResultRecord (run : Run) (succeeded : RemoteJournalRecord)
    (result : RemoteMutationResult U) :
    (transaction.markResultRecord port run succeeded result).Uncut := by
  cases result with
  | recordApplied record update policy =>
    unfold markResultRecord
    dsimp only
    split_ifs
    · trivial
    · exact (Process.uncut_ofExcept _).bind fun _ => uncut_persistMutation hpersist _
  | keepPending => trivial
  | finalize update => trivial

lemma uncut_finalizeBestEffort (hnow : port.now.Uncut) (run : Run) :
    (transaction.finalizeBestEffort port run).Uncut := by
  refine (uncut_persistMutation hpersist _).tryCatch fun error => ?_
  split_ifs
  · exact hnow.bind fun _ => uncut_persistBestEffort hpersist _ _
  · trivial

/-- A transaction goes through without a loop if its remote call and its handlers do. -/
lemma uncut_execute (hnow : port.now.Uncut) {factory : F} {policy : MissingIntentPolicy}
    {callRemote : Run → RemoteJournalRecord → Process I PyError V}
    {recordOf : V → RemoteJournalRecord → Process I PyError (RemoteJournalRecord × H)}
    {resultOf : Option H → V → RemoteJournalRecord →
      Process I PyError (Option (RemoteMutationResult U))}
    (hcall : ∀ run intent, (callRemote run intent).Uncut)
    (hrecord : ∀ result intent, (recordOf result intent).Uncut)
    (hresult : ∀ memo result intent, (resultOf memo result intent).Uncut) :
    (transaction.execute port handlers factory callRemote (some recordOf) policy
      (some resultOf)).Uncut := by
  unfold execute
  refine Process.Uncut.bind ?_ fun recorded => Process.Uncut.bind ?_ fun remoteResult =>
    Process.Uncut.bind ?_ fun succeeded => (uncut_persistMutation hpersist _).bind fun run =>
      Process.Uncut.bind ?_ fun result => (uncut_markResultRecord hpersist _ _ _).bind fun run =>
        (uncut_applyResult hpersist _ _).bind fun run => trivial
  · exact (hpersist _).bind fun _ => (Process.uncut_ofExcept _).bind fun _ => trivial
  · exact (hcall _ _).tryCatch fun error => Process.Uncut.bind
      (hnow.bind fun _ => uncut_persistBestEffort hpersist _ _) fun _ => trivial
  · exact Process.Uncut.tryCatch ((hrecord _ _).bind fun _ => (Process.uncut_ofExcept _).bind
      fun _ => trivial) fun error => (uncut_persistMutation hpersist _).bind fun _ => trivial
  · exact (hresult _ _ _).bind fun _ => trivial

end RemoteMutationTransaction

namespace Command

lemma uncut_clock (phase : Phase) : (clock phase).Uncut := fun _ => trivial

lemma uncut_update (phase : Phase) (mutation : RunMutation) : (update phase mutation).Uncut :=
  fun _ => Process.uncut_ofExcept _

lemma uncut_persist (phase : Phase) (mutation : RunMutation) : (persist phase mutation).Uncut :=
  fun _ => Process.uncut_ofExcept _

end Command

namespace Provisioning

variable {agent model : Option String} {cleanupRequested : Bool} {worker : WorkerRecord}

lemma uncut_provision (run : Run) :
    (provision run worker agent model cleanupRequested).Uncut := by
  unfold provision
  split_ifs
  · refine Process.Uncut.bind (fun _ => trivial) fun intentId => Process.Uncut.bind
      (RemoteMutationTransaction.uncut_execute (fun _ => Command.uncut_update _ _)
        (Command.uncut_clock _) (fun run intent => ?_) (fun outcome intent => ?_)
        fun memo outcome intent => ?_) fun execution => trivial
    · unfold ensureWorkerSession
      dsimp only
      split_ifs
      · trivial
      · exact fun answer => (Process.uncut_ofExcept _).bind fun _ => trivial
    · unfold remoteSucceededSessionRecord
      split
      · trivial
      · exact (Command.uncut_clock _).bind fun _ => trivial
    · unfold applyCreatedSession
      split
      · trivial
      · refine Process.Uncut.bind ?_ fun record => trivial
        split
        · trivial
        · exact (Command.uncut_clock _).bind fun _ => trivial
  · trivial

lemma uncut_finalizeBestEffort (run : Run) (intent : Option RemoteJournalRecord) :
    (finalizeBestEffort run worker intent).Uncut := by
  unfold finalizeBestEffort
  split
  · trivial
  · exact (RemoteMutationTransaction.uncut_finalizeBestEffort (fun _ => Command.uncut_update _ _)
      (Command.uncut_clock _) _).bind fun _ => trivial

end Provisioning

namespace Execution

variable {worker : WorkerRecord} {agent model : Option String} {cleanupRequested : Bool}
  {prompt : String} {strategy : BlockingStrategy}

lemma uncut_applyWorkerTransition (phase : Phase) (transition : WorkerTransition) :
    (applyWorkerTransition phase worker transition).Uncut :=
  (Command.uncut_persist _ _).bind fun _ => trivial

lemma uncut_executeSingleWorkerAttempt (attemptId : String) (promptId : Option String) :
    (executeSingleWorkerAttempt worker attemptId prompt promptId).Uncut := by
  have hcall : (callWorkerWithDeadline worker attemptId prompt promptId).Uncut := by
    refine Process.Uncut.tryCatch (Process.Uncut.bind ?_ fun _ => fun answer =>
      Process.uncut_ofExcept _) fun error => ?_
    · unfold requireTime
      split
      · trivial
      · intro inTime
        cases inTime <;> trivial
    · split_ifs <;> trivial
  refine Process.Uncut.tryCatch (hcall.bind fun _ => trivial) fun error => ?_
  split <;> trivial

lemma uncut_execute (run : Run) :
    (execute run worker prompt strategy agent model cleanupRequested).Uncut := by
  unfold execute
  refine Process.Uncut.bind ?_ fun provisioned => Process.Uncut.bind ?_ fun active =>
    Process.Uncut.bind ?_ fun started =>
      (uncut_executeSingleWorkerAttempt _ _).bind fun outcome => ?_
  · exact (Provisioning.uncut_provision run).bind fun provisioning =>
      (uncut_applyWorkerTransition _ _).bind fun provisioned =>
        (Provisioning.uncut_finalizeBestEffort _ _).bind fun _ => trivial
  · unfold activate
    refine Process.Uncut.bind ?_ fun now => uncut_applyWorkerTransition _ _
    split_ifs
    · exact Command.uncut_clock _
    · trivial
  · unfold startAttempt
    refine Process.Uncut.bind ?_ fun promptId => (Command.uncut_clock _).bind fun startedAt =>
      (uncut_applyWorkerTransition _ _).bind fun _ => trivial
    cases strategy with
    | sessionMessage => exact fun _ => trivial
    | legacyRunReply => trivial
  · unfold recordOutcome
    refine Process.Uncut.bind ?_ fun now => (Command.uncut_clock _).bind fun finishedAt =>
      (uncut_applyWorkerTransition _ _).bind fun _ => trivial
    split_ifs
    · exact Command.uncut_clock _
    · trivial

end Execution

namespace Flow

variable {strategy : BlockingStrategy} {selected : String} {created : Option CreatedSessions}

lemma uncut_plan (run : Run) : (plan run).Uncut :=
  (Command.uncut_persist _ _).bind fun _ => trivial

/-- A round is not cut. -/
lemma uncut_round (run : Run) : (round strategy run selected created).Uncut := by
  have hselected : (executeSelectedWorker strategy run selected created).Uncut := by
    unfold executeSelectedWorker
    split
    · trivial
    · exact (Execution.uncut_execute run).bind fun _ => trivial
  unfold round
  refine hselected.attempt.bind fun executed => ?_
  split
  · trivial
  · refine (uncut_plan _).attempt.bind fun planned => ?_
    split <;> trivial

end Flow

end OpencodeSession
