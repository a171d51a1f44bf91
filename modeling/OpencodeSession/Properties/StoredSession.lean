import Mathlib.Data.List.Infix
import OpencodeSession.Properties.CommandRule

/-!
# Sessions stored while one is being created

A worker without a session is provided with one by a remote mutation, and while the server creates
it an operator may store another session for the worker.  The update that applies the created
session stores it whatever the worker has by then, so a session that is stored in between is lost,
unless it is the created one: `keepsStored_iff` says so of every interleaving of one provisioning
with any edits of workers.
-/

namespace OpencodeSession

namespace StoredSession

variable {ι : Type}

/-! ## What the events say -/

/-- Whether an event persists the intent of the creating thread. -/
def opensCreation [DecidableEq ι] (creator : ι) : Event storeInterface ι → Bool
  | ⟨i, ⟨_, .updateRun (.journal .workerSession (.recordIntent _ _ _))⟩, answer⟩ =>
    i = creator && UpdateAnswer.written answer
  | _ => false

/-- The session that an edit of a worker stores, if it stores one. -/
def editedSession (workerId : WorkerId) : Event storeInterface ι → Option String
  | ⟨_, ⟨_, .updateRun (.upsertWorker id changes)⟩, answer⟩ =>
    if UpdateAnswer.written answer && id = workerId.value then changes.sessionId else none
  | ⟨_, ⟨_, .updateRun (.upsertWorkerStatus id changes _)⟩, answer⟩ =>
    if UpdateAnswer.written answer && id = workerId.value then changes.sessionId else none
  | _ => none

/-- The created session that an event stores in a worker, if it stores one. -/
def appliedSession (workerId : WorkerId) : Event storeInterface ι → Option String
  | ⟨_, ⟨_, .updateRun (.journal _ mutation)⟩, answer⟩ =>
    match mutation.update with
    | some (.createdWorkerSession id sessionId _ _ _) =>
      if UpdateAnswer.written answer && id = workerId then some sessionId else none
    | _ => none
  | _ => none

/-- The session that was stored last for a worker, since the intent if there is one. -/
def storedSince [DecidableEq ι] (creator : ι) (workerId : WorkerId)
    (events : List (Event storeInterface ι)) : Option String :=
  events.foldl
    (fun stored e =>
      if opensCreation creator e then none
      else match editedSession workerId e with
        | some sessionId => if sessionId = "" then none else some sessionId
        | none => stored)
    none

/-- The worker still has the session that was stored for it. -/
def KeepsStored [DecidableEq ι] (creator : ι) (workerId : WorkerId)
    (events : List (Event storeInterface ι)) (stored : Option Run) : Prop :=
  ∀ sessionId, storedSince creator workerId events = some sessionId →
    (latestOf workerId stored).sessionId = some sessionId

/-! ## The processes -/

/-- An edit of a worker. -/
structure Edit where
  workerId : String
  changes : WorkerChanges
  status : Option String := none

/-- One thread provides a worker with a session, and the others edit workers. -/
def sharing [DecidableEq ι] (creator : ι) (run : Run) (worker : WorkerRecord)
    (agent model : Option String) (cleanupRequested : Bool) (edits : ι → List Edit)
    (stored : Option Run) : Config storeInterface PyError Unit ι (Option Run) where
  state := stored
  program i :=
    if i = creator then do
      let _ ← Provisioning.provision run worker agent model cleanupRequested
    else
      commandSequence ((edits i).map fun edit => .upsert edit.workerId edit.changes edit.status)

/-- What these processes ask for. -/
inductive Asks (workerId : WorkerId) : Call → Prop where
  | quiet {call : Call} (h : call.request.mutation? = none) : Asks workerId call
  | edit {phase : Phase} {id : String} {changes : WorkerChanges} :
      Asks workerId ⟨phase, .updateRun (.upsertWorker id changes)⟩
  | editStatus {phase : Phase} {id : String} {changes : WorkerChanges} {status : ManualStatus} :
      Asks workerId ⟨phase, .updateRun (.upsertWorkerStatus id changes status)⟩
  | journal {phase : Phase} {mutation : JournalMutation IntentFactory RunUpdate}
      (h : ∀ update, mutation.update = some update → Provisioning.storesSession workerId update) :
      Asks workerId ⟨phase, .updateRun (.journal .workerSession mutation)⟩

lemma within_edits (workerId : WorkerId) (edits : List Edit) :
    (commandSequence (edits.map fun edit => .upsert edit.workerId edit.changes
      edit.status)).Within (Asks workerId) fun _ => True := by
  induction edits with
  | nil => trivial
  | cons edit edits ih =>
    refine Process.Within.seq (Process.Within.attempted ?_) fun _ => ih
    refine Process.Within.seq ?_ fun _ => trivial
    unfold Commands.upsertWorker
    split_ifs
    · trivial
    · cases edit.status with
      | none => exact Command.within_persist .edit
      | some status =>
        dsimp only
        generalize shortStatus status = text
        split_ifs
        · exact Command.within_persist .editStatus
        · exact Command.within_persist .editStatus
        · trivial

lemma within_sharing [DecidableEq ι] (creator : ι) (run : Run) (worker : WorkerRecord)
    (agent model : Option String) (cleanupRequested : Bool) (edits : ι → List Edit)
    (stored : Option Run) (i : ι) :
    ((sharing creator run worker agent model cleanupRequested edits stored).program i).Within
      (Asks worker.id) fun _ => True := by
  unfold sharing
  dsimp only
  split_ifs
  · exact (Provisioning.within_provision (fun _ h => .quiet h) (fun _ => .journal) run agent model
      cleanupRequested).seq fun _ => trivial
  · exact within_edits worker.id (edits i)

/-! ## Steps -/

variable {workerId : WorkerId} {now : String} {run left : Run}

lemma sessionId_upsertWorker {id : String} {changes : WorkerChanges}
    (h : run.upsertWorker id changes = .ok left) :
    (left.latestWorker workerId).sessionId =
      (if id = workerId.value then changes.sessionId else none).orElse
        fun _ => (run.latestWorker workerId).sessionId := by
  obtain ⟨latest, hid, hlatest, rfl⟩ := Run.upsertWorker_eq_ok h
  rw [Run.latestWorker_setWorker]
  by_cases hsame : latest.id = workerId
  · subst hsame
    rw [if_pos (show (latest.edited changes).id = latest.id from rfl), if_pos hid.symm, hlatest]
    rfl
  · rw [if_neg (show ¬ (latest.edited changes).id = workerId from hsame),
      if_neg fun heq => hsame (WorkerId.ext (hid.trans heq))]
    rfl

lemma sessionId_upsertWorkerStatus {id : String} {changes : WorkerChanges} {status : ManualStatus}
    (h : run.upsertWorkerStatus id changes status now = .ok left) :
    (left.latestWorker workerId).sessionId =
      (if id = workerId.value then changes.sessionId else none).orElse
        fun _ => (run.latestWorker workerId).sessionId := by
  obtain ⟨latest, worker, transition, -, -, hedited, hmanual, hworker, rfl⟩ :=
    Run.upsertWorkerStatus_eq_ok h
  obtain ⟨hid, hpayload, -⟩ := RunMutation.manualTransition_eq_ok id changes hmanual
  have hlatest : (run.setWorker (latest.edited changes)).latestWorker (latest.edited changes).id =
      latest.edited changes := by
    rw [Run.latestWorker_setWorker, if_pos rfl]
  have hsnapshot : ∀ patch, transition.payload ≠ .snapshotApplied patch := by
    rcases hpayload with ⟨_, _, hpayload⟩ | ⟨_, hpayload⟩ <;> simp [hpayload]
  have hprovisioned : ∀ sessionId agent model,
      transition.payload ≠ .provisioned sessionId agent model := by
    rcases hpayload with ⟨_, _, hpayload⟩ | ⟨_, hpayload⟩ <;> simp [hpayload]
  rw [Run.apply_latestWorker_of_reduced WorkerRecord.sessionId hlatest hid hsnapshot hworker
    fun _ _ => WorkerRecord.sessionId_reduce hsnapshot hprovisioned]
  exact sessionId_upsertWorker hedited

/-- The update of a provisioning stores the created session. -/
lemma sessionId_journal {mutation : JournalMutation IntentFactory RunUpdate}
    (hstores : ∀ update, mutation.update = some update →
      Provisioning.storesSession workerId update)
    (h : (RunMutation.journal .workerSession mutation).apply now run = .ok left) :
    (left.latestWorker workerId).sessionId =
      (match mutation.update with
        | some (.createdWorkerSession _ sessionId _ _ _) => some sessionId
        | _ => none).orElse fun _ => (run.latestWorker workerId).sessionId := by
  cases hupdate : mutation.update with
  | none =>
    exact congrArg WorkerRecord.sessionId
      (Run.latestWorker_congr (by rw [RunMutation.workers_journal hupdate h]))
  | some update =>
    obtain ⟨sessionId, cleanupRequested, agent, model, rfl⟩ := hstores update hupdate
    obtain ⟨updated, hupdated, hworkers⟩ := RunMutation.workers_journal_update hupdate h
    cases hupdated
    have hcreated : left.latestWorker workerId =
        (run.applyCreatedWorkerSession workerId sessionId cleanupRequested agent model).latestWorker
          workerId :=
      Run.latestWorker_congr (by rw [hworkers])
    rw [hcreated]
    unfold Run.applyCreatedWorkerSession
    rw [Run.latestWorker_setWorker]
    have hid : ((run.latestWorker workerId).setSession (some sessionId) agent model).id = workerId :=
      Run.id_latestWorker run workerId
    cases cleanupRequested
    · rw [if_neg Bool.false_ne_true, if_pos hid]
      rfl
    · have hremembered : (((run.latestWorker workerId).setSession (some sessionId) agent
          model).rememberSessionForCleanup sessionId).id = workerId := hid
      rw [if_pos rfl, if_pos hremembered]
      rfl

/-- The session that an event stores in a worker, by an edit or by a creation. -/
def storedBy (workerId : WorkerId) (e : Event storeInterface ι) : Option String :=
  (editedSession workerId e).orElse fun _ => appliedSession workerId e

lemma sessionId_of_updates {mutator : String → Run → Except PyError Run} {stored' : Option Run}
    {stored : Option Run} {answer : UpdateAnswer} {sessionId : Option String}
    (hmutator : ∀ now run left, mutator now run = .ok left →
      (left.latestWorker workerId).sessionId =
        sessionId.orElse fun _ => (run.latestWorker workerId).sessionId)
    (h : Updates mutator stored answer stored') :
    (latestOf workerId stored').sessionId =
      (if answer.written then sessionId else none).orElse
        fun _ => (latestOf workerId stored).sessionId := by
  cases h with
  | committed _ hleft => exact (hmutator _ _ _ hleft : _)
  | raised | failed => rfl
  | lost _ hleft _ => exact (hmutator _ _ _ hleft : _)

lemma orElse_none_of_written (written : Bool) (same : Prop) [Decidable same]
    (sessionId : Option String) :
    ((if (written && same) = true then sessionId else none).orElse fun _ => none) =
      if written then (if same then sessionId else none) else none := by
  cases written <;> by_cases h : same <;> cases sessionId <;> simp [h]

/-- A step changes the session of the worker only by storing another one. -/
lemma sessionId_of_responds {call : Call} (i : ι) {stored stored' : Option Run}
    {answer : call.request.Answer} (hasks : Asks workerId call)
    (hanswer : call.request.Responds stored answer stored') :
    (latestOf workerId stored').sessionId =
      (storedBy workerId (⟨i, call, answer⟩ : Event storeInterface ι)).orElse
        fun _ => (latestOf workerId stored).sessionId := by
  -- one case for each kind of request that the callers make
  cases hasks with
  | quiet hquiet =>
    obtain ⟨phase, request⟩ := call
    have hsame : (latestOf workerId stored').sessionId = (latestOf workerId stored).sessionId := by
      rcases Request.Responds.stored_eq hanswer hquiet with rfl | ⟨rfl, name, directory, url, rfl⟩
      · rfl
      · rfl
    cases request with
    | updateRun mutation => cases hquiet
    | _ => exact hsame
  | @edit phase id changes =>
    have hupdated : (latestOf workerId stored').sessionId = _ :=
      sessionId_of_updates (fun now run left => sessionId_upsertWorker ) hanswer
    rw [hupdated]
    exact congrArg (Option.orElse · _) (orElse_none_of_written _ _ _).symm
  | @editStatus phase id changes status =>
    have hupdated : (latestOf workerId stored').sessionId = _ :=
      sessionId_of_updates (fun now run left => sessionId_upsertWorkerStatus )
        hanswer
    rw [hupdated]
    exact congrArg (Option.orElse · _) (orElse_none_of_written _ _ _).symm
  | @journal phase mutation h =>
    have hupdated : (latestOf workerId stored').sessionId = _ :=
      sessionId_of_updates (fun now run left => sessionId_journal h) hanswer
    rw [hupdated]
    refine congrArg (Option.orElse · _) ?_
    unfold storedBy editedSession appliedSession
    dsimp only
    cases hupdate : mutation.update with
    | none => simp
    | some update =>
      obtain ⟨sessionId, cleanupRequested, agent, model, rfl⟩ := h update hupdate
      simp

/-! ## Runs -/

variable [DecidableEq ι] {creator : ι} {e : Event storeInterface ι}
  {events : List (Event storeInterface ι)}

lemma storedSince_append (creator : ι) (workerId : WorkerId)
    (events : List (Event storeInterface ι)) (e : Event storeInterface ι) :
    storedSince creator workerId (events ++ [e]) =
      if opensCreation creator e then none
      else match editedSession workerId e with
        | some sessionId => if sessionId = "" then none else some sessionId
        | none => storedSince creator workerId events := by
  simp [storedSince]

lemma of_appliedSession (creator : ι) {sessionId : String}
    (h : appliedSession workerId e = some sessionId) :
    opensCreation creator e = false ∧ editedSession workerId e = none := by
  unfold appliedSession at h
  split at h
  · next mutation answer =>
    split at h
    · next id created cleanupRequested agent model hupdate =>
      refine ⟨?_, rfl⟩
      cases mutation with
      | recordIntent entryId kind factory => cases hupdate
      | _ => simp [opensCreation]
    · cases h
  · cases h

/-- A step keeps the stored session, unless it applies another one. -/
lemma keepsStored_append {stored stored' : Option Run} (hasks : Asks workerId e.op)
    (hanswer : e.op.request.Responds stored e.answer stored')
    (hkeeps : KeepsStored creator workerId events stored)
    (hsame : ∀ created kept, appliedSession workerId e = some created →
      storedSince creator workerId events = some kept → kept = created) :
    KeepsStored creator workerId (events ++ [e]) stored' := by
  intro kept hkept
  have hsession := sessionId_of_responds e.thread hasks hanswer
  rw [storedSince_append] at hkept
  split_ifs at hkept
  rw [hsession, storedBy]
  cases hedited : editedSession workerId e with
  | some sessionId =>
    rw [hedited] at hkept
    dsimp only at hkept
    split_ifs at hkept
    exact hkept
  | none =>
    rw [hedited] at hkept
    cases happlied : appliedSession workerId e with
    | some created =>
      rw [hsame created kept happlied hkept]
      rfl
    | none => exact hkeeps kept hkept

/-- In a run of the processes the worker has the session that was stored for it since the intent, at
every point, just when the created session is applied only where no other one has been stored. -/
theorem keepsStored_iff {creator : ι} {run : Run} {worker : WorkerRecord}
    {agent model : Option String} {cleanupRequested : Bool} {edits : ι → List Edit}
    {stored : Option Run} {events : List (Event storeInterface ι)}
    {c : Config storeInterface PyError Unit ι (Option Run)}
    (hrun : Runs (Config.Fires (storeSurroundings ι))
      (sharing creator run worker agent model cleanupRequested edits stored) events c) :
    (∀ front here, front <+: events →
      Runs (Config.Fires (storeSurroundings ι))
        (sharing creator run worker agent model cleanupRequested edits stored) front here →
      KeepsStored creator worker.id front here.state) ↔
    ∀ front e created kept, front ++ [e] <+: events → appliedSession worker.id e = some created →
      storedSince creator worker.id front = some kept → kept = created := by
  have hasks : ∀ {front here e there},
      Runs (Config.Fires (storeSurroundings ι))
        (sharing creator run worker agent model cleanupRequested edits stored) front here →
      Config.Fires (storeSurroundings ι) here e there → Asks worker.id e.op := by
    intro front here e there hfront hstep
    have hwithin : ∀ i, (here.program i).Within (Asks worker.id) fun _ => True :=
      Config.within_of_runs
        (within_sharing creator run worker agent model cleanupRequested edits stored) hfront
    exact hstep.within (P := fun _ => Asks worker.id) hwithin
  constructor
  · intro hkeeps front e created kept hinitial happlied hkept
    obtain ⟨rest, rfl⟩ := hinitial
    obtain ⟨after, hprev, -⟩ := hrun.split
    obtain ⟨before, hfront, hstep⟩ := hprev.last
    obtain ⟨hopens, hedited⟩ := of_appliedSession creator happlied
    -- applying a created session is no edit, so what was stored before it is still to be kept
    have hsince : storedSince creator worker.id (front ++ [e]) = some kept := by
      rw [storedSince_append, hopens, hedited]
      exact hkept
    have hsession := sessionId_of_responds e.thread (hasks hfront hstep) hstep.answered
    have hcreated : (latestOf worker.id after.state).sessionId = some created := by
      rw [hsession, storedBy, hedited, happlied]
      rfl
    have hstored := hkeeps (front ++ [e]) after (List.prefix_append _ _) hprev kept hsince
    exact Option.some.inj (hstored.symm.trans hcreated)
  · intro hsame front here hinitial hfront
    -- the other direction is an induction on the run, one event after the other
    induction hfront with
    | nil => exact fun _ h => by cases h
    | snoc hprev hstep ih =>
      have hbefore := (List.prefix_append _ _).trans hinitial
      exact keepsStored_append (hasks hprev hstep) hstep.answered (ih hbefore)
        fun created kept => hsame _ _ created kept hinitial

/-! ## An edit during a creation -/

/-- A worker without a session. -/
def sessionless : WorkerRecord := { id := ⟨"a", WorkerId.nonempty_a⟩ }

/-- One thread provides the worker with a session, and the other stores one for it. -/
def editedWhileCreated (sessionId : String) :
    Config storeInterface PyError Unit Bool (Option Run) :=
  let run : Run := { Run.new "demo" "/" "" with workers := WorkerMap.empty.set sessionless }
  sharing false run sessionless none none false
    (fun _ => [{ workerId := "a", changes := { sessionId := some sessionId } }]) (some run)

/-- A server that creates one session. -/
def creatingServer : ScriptedServer where
  createdSession := "ses_created"
  execute _ := .ok { status := "done" }
  readable _ := true
  sessionNonempty := by decide

/-- The edit comes between the intent and the request to the server. -/
def editAfterIntent : List (Config.Turn storeInterface Bool (Option Run)) :=
  [false, false, true, false, false, false, false].map fun thread =>
    ⟨thread, fun stored call => creatingServer.reply stored call.request⟩

lemma runs_of_editAfterIntent {c c' : Config storeInterface PyError Unit Bool (Option Run)}
    {events : List (Event storeInterface Bool)} (h : c.play editAfterIntent = some (events, c')) :
    Runs (Config.Fires (storeSurroundings Bool)) c events c' := by
  refine Config.runs_of_play (fun turn hturn stored call answer stored' hreply => ?_) h
  obtain ⟨thread, -, rfl⟩ := List.mem_map.1 hturn
  exact ScriptedServer.responds_of_reply hreply

/-- Whether a created session is applied only where no other one has been stored. -/
def appliesStored (creator : ι) (workerId : WorkerId) (events : List (Event storeInterface ι)) :
    Bool :=
  events.inits.all fun front =>
    match front.getLast?.bind (appliedSession workerId),
      storedSince creator workerId front.dropLast with
    | some created, some kept => kept = created
    | _, _ => true

lemma eq_of_appliesStored {creator : ι} {workerId : WorkerId} {front : List (Event storeInterface ι)}
    {created kept : String} (h : appliesStored creator workerId events = true)
    (hinitial : front ++ [e] <+: events) (happlied : appliedSession workerId e = some created)
    (hkept : storedSince creator workerId front = some kept) : kept = created := by
  have hone := List.all_eq_true.1 h (front ++ [e]) ((List.mem_inits _ _).2 hinitial)
  simpa [happlied, hkept] using hone

theorem keepsStored_created :
    ∃ events, ∃ c : Config storeInterface PyError Unit Bool (Option Run),
      Runs (Config.Fires (storeSurroundings Bool)) (editedWhileCreated "ses_created") events c ∧
      storedSince false sessionless.id events = some "ses_created" ∧
      KeepsStored false sessionless.id events c.state := by
  have hplay : ((editedWhileCreated "ses_created").play editAfterIntent).map
      (fun result => (appliesStored false sessionless.id result.1,
        storedSince false sessionless.id result.1)) = some (true, some "ses_created") := by
    decide +kernel
  obtain ⟨⟨events, c⟩, hplayed, hends⟩ := Option.map_eq_some_iff.1 hplay
  obtain ⟨happlies, hsince⟩ := Prod.ext_iff.1 hends
  have hrun := runs_of_editAfterIntent hplayed
  exact ⟨events, c, hrun, hsince, (keepsStored_iff hrun).2
    (fun front e created kept => eq_of_appliesStored happlies) events c List.prefix_rfl hrun⟩

/-- When the operator stores another one, it is overwritten. -/
theorem not_keepsStored_other :
    ∃ events, ∃ c : Config storeInterface PyError Unit Bool (Option Run),
      Runs (Config.Fires (storeSurroundings Bool)) (editedWhileCreated "ses_user") events c ∧
      (latestOf sessionless.id c.state).sessionId = some "ses_created" ∧
      storedSince false sessionless.id events = some "ses_user" ∧
      ¬ KeepsStored false sessionless.id events c.state := by
  have hplay : ((editedWhileCreated "ses_user").play editAfterIntent).map
      (fun result => ((latestOf sessionless.id result.2.state).sessionId,
        storedSince false sessionless.id result.1)) =
          some (some "ses_created", some "ses_user") := by
    decide +kernel
  obtain ⟨⟨events, c⟩, hplayed, hends⟩ := Option.map_eq_some_iff.1 hplay
  obtain ⟨hsession, hsince⟩ := Prod.ext_iff.1 hends
  refine ⟨events, c, runs_of_editAfterIntent hplayed, hsession, hsince, fun hkeeps => ?_⟩
  have hstored := hkeeps "ses_user" hsince
  exact absurd (hsession.symm.trans hstored) (by simp)

end StoredSession

end OpencodeSession
