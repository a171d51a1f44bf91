import OpencodeSession.Framework.History
import OpencodeSession.Run.RemoteJournal
import OpencodeSession.Run.Store

/-!
# Crash safety of the outbox

`RemoteMutationRunner.execute` against a store that may fail at any persist, a remote call and
handlers that may raise anything, and a process that may stop anywhere: the runs of the runner are
all of this.  From the moment the remote call is made the journal holds the transaction's entry,
until a final persist removes it together with applying the run update, and the run update is
written at most once.

The statement needs no fresh identifier: an entry of the same identifier that was there before only
makes it easier for the journal to hold one.  Run updates leave the journals alone: that is a field
of `JournalHandlers`, and the updates of the commands have it.
-/

namespace OpencodeSession

namespace Outbox

/-! ## The runner and its surroundings -/

/-- What the runner asks for: a persist, the clock, the remote call, and the two handlers. -/
inductive Op (F U R : Type) where
  | persist (mutation : JournalMutation F U)
  | now
  | callRemote (run : Run) (intent : RemoteJournalRecord)
  | remoteSucceededRecord (remoteResult : R) (intent : RemoteJournalRecord)
  | applyResult (remoteResult : R) (intent : RemoteJournalRecord)

/-- The answers: anything that does not come from the store may be an exception. -/
@[reducible] def Op.Answer {F U R : Type} : Op F U R → Type
  | persist _ => UpdateAnswer
  | now => String
  | callRemote _ _ => Except PyError R
  | remoteSucceededRecord _ _ => Except PyError RemoteJournalRecord
  | applyResult _ _ => Except PyError (Option (RemoteMutationResult U))

/-- The interface of the runner. -/
abbrev interface (F U R : Type) : Interface := ⟨Op F U R, Op.Answer⟩

variable {F U R : Type}

/-- Persisting and the clock, as requests. -/
def port : JournalPort (interface F U R) F U where
  persist mutation := .call (.persist mutation) fun (answer : UpdateAnswer) =>
    .ofExcept answer.toExcept
  now := .call .now fun (now : String) => .done now

/-- `execute`, with or without either handler. -/
def execution (handlers : JournalHandlers F U) (transaction : RemoteMutationTransaction)
    (factory : F) (policy : MissingIntentPolicy) (recordHandler resultHandler : Bool) :
    Process (interface F U R) PyError (RemoteMutationExecution R) :=
  transaction.execute port handlers factory
    (fun run intent => .call (.callRemote run intent) fun (answer : Except PyError R) =>
      .ofExcept answer)
    (if recordHandler then
      some fun remoteResult intent => .call (.remoteSucceededRecord remoteResult intent)
        fun (answer : Except PyError RemoteJournalRecord) => do
          let record ← .ofExcept answer
          return (record, ())
    else none)
    policy
    (if resultHandler then
      some fun _ remoteResult intent => .call (.applyResult remoteResult intent)
        fun (answer : Except PyError (Option (RemoteMutationResult U))) => .ofExcept answer
    else none)

/-- The store works on the record; everything else leaves it alone and may answer anything. -/
def surroundings (handlers : JournalHandlers F U) (field : JournalField) :
    Surroundings (interface F U R) Unit Run :=
  fun _ run op => match op with
    | .persist mutation => fun answer run' =>
      Updates (fun now run => mutation.apply handlers field now run) (some run) answer (some run')
    | _ => fun _ run' => run' = run

/-- The start of the runner on a record. -/
def start (handlers : JournalHandlers F U) (transaction : RemoteMutationTransaction) (factory : F)
    (policy : MissingIntentPolicy) (recordHandler resultHandler : Bool) (run : Run) :
    Config (interface F U R) PyError (RemoteMutationExecution R) Unit Run :=
  ⟨run, fun _ => execution handlers transaction factory policy recordHandler resultHandler⟩

/-! ## What the events say -/

/-- The mutation that an event wrote, if it wrote one. -/
def writtenMutation : Event (interface F U R) Unit → Option (JournalMutation F U)
  | ⟨_, .persist mutation, answer⟩ =>
    if UpdateAnswer.written answer then some mutation else none
  | _ => none

/-- Whether an event is the remote call. -/
def isRemoteCall : Event (interface F U R) Unit → Bool
  | ⟨_, .callRemote _ _, _⟩ => true
  | _ => false

/-- The result that an event decided on, if it is the answer of the result handler. -/
def decision : Event (interface F U R) Unit → Option (RemoteMutationResult U)
  | ⟨_, .applyResult _ _, .ok result⟩ => some (Option.getD result (.finalize none))
  | _ => none

/-- How many of the events wrote a run update. -/
def updatesWritten (events : List (Event (interface F U R) Unit)) : Nat :=
  (events.filterMap writtenMutation).countP fun mutation => mutation.update.isSome

/-- The remote call has been made, or is being made. -/
def Invoked (c : Config (interface F U R) PyError (RemoteMutationExecution R) Unit Run)
    (events : List (Event (interface F U R) Unit)) : Prop :=
  (∃ run intent, c.pending () = some (.callRemote run intent)) ∨
    ∃ event ∈ events, isRemoteCall event = true

/-- The last event finalised the transaction, and the persist that removed the entry carried the
run update that the result handler had decided on; without a handler there is none. -/
def Finalized (entryId : String) (resultHandler : Bool)
    (events : List (Event (interface F U R) Unit)) : Prop :=
  ∃ front last update, events = front ++ [last] ∧
    writtenMutation last = some (.finalize entryId update) ∧
    if resultHandler then ∃ event ∈ front, decision event = some (.finalize update)
    else update = none

/-! ## The contract of the runner -/

section

variable (handlers : JournalHandlers F U) (field : JournalField)
  (transaction : RemoteMutationTransaction) (resultHandler : Bool)

/-- A record with the events that led to it. -/
abbrev Recorded (F U R : Type) : Type := Run × List (Event (interface F U R) Unit)

/-- Nothing has been sent and no update written. -/
def Unsent (s : Recorded F U R) : Prop :=
  (∀ event ∈ s.2, isRemoteCall event = false) ∧ updatesWritten s.2 = 0

/-- The journal holds the entry, and no update is written yet. -/
def Open (s : Recorded F U R) : Prop :=
  RemoteMutationJournal.Holds (s.1.journal field) transaction.entryId ∧ updatesWritten s.2 = 0

/-- What holds after every step. -/
def Safe (s : Recorded F U R) : Prop :=
  ((∃ event ∈ s.2, isRemoteCall event = true) →
    RemoteMutationJournal.Holds (s.1.journal field) transaction.entryId ∨
      Finalized transaction.entryId resultHandler s.2) ∧
  updatesWritten s.2 ≤ 1

/-- The contract of the runner: it is alone, and every step leaves things safe. -/
def contract : Contract (interface F U R) (Recorded F U R) where
  responds s op answer s' := (surroundings handlers field).recording () s op answer s'
  rely _ s s' := s' = s
  rely_refl _ _ := rfl
  rely_trans _ _ _ _ h h' := h'.trans h
  waits op s := ∀ run intent, op = .callRemote run intent →
    RemoteMutationJournal.Holds (s.1.journal field) transaction.entryId
  guarantee _ _ _ s' := Safe field transaction resultHandler s'
  mayCut := False

end

variable {handlers : JournalHandlers F U} {field : JournalField}
  {transaction : RemoteMutationTransaction} {resultHandler : Bool} {s : Recorded F U R}
  {α : Type} {post : α → Recorded F U R → Prop} {err : PyError → Recorded F U R → Prop}

lemma Open.safe (h : Open field transaction s) : Safe field transaction resultHandler s :=
  ⟨fun _ => .inl h.1, h.2.trans_le (Nat.zero_le 1)⟩

lemma Unsent.safe (h : Unsent s) : Safe field transaction resultHandler s := by
  refine ⟨fun ⟨event, hmem, hevent⟩ => ?_, h.2.trans_le (Nat.zero_le 1)⟩
  rw [h.1 event hmem] at hevent
  cases hevent

lemma updatesWritten_append (events : List (Event (interface F U R) Unit))
    (event : Event (interface F U R) Unit) :
    updatesWritten (events ++ [event]) = updatesWritten events +
      if (writtenMutation event).any fun mutation => mutation.update.isSome then 1 else 0 := by
  unfold updatesWritten
  rw [List.filterMap_append, List.countP_append]
  cases h : writtenMutation event with
  | none => simp [h]
  | some mutation => cases hupdate : mutation.update <;> simp [h, hupdate]

@[simp] lemma writtenMutation_persist (mutation : JournalMutation F U) (answer : UpdateAnswer) :
    writtenMutation (⟨(), .persist mutation, answer⟩ : Event (interface F U R) Unit) =
      if answer.written then some mutation else none := rfl

lemma updatesWritten_persist (events : List (Event (interface F U R) Unit))
    (mutation : JournalMutation F U) (answer : UpdateAnswer) :
    updatesWritten (events ++ [⟨(), .persist mutation, answer⟩]) = updatesWritten events +
      if answer.written && mutation.update.isSome then 1 else 0 := by
  rw [updatesWritten_append, writtenMutation_persist]
  cases answer.written <;> rfl

lemma safe_call {op : Op F U R} {k : Op.Answer op → Process (interface F U R) PyError α}
    (hwaits : ∀ run intent, op = .callRemote run intent →
      RemoteMutationJournal.Holds (s.1.journal field) transaction.entryId)
    (hstep : ∀ (answer : Op.Answer op) run',
      surroundings handlers field () s.1 op answer run' →
        Safe field transaction resultHandler (run', s.2 ++ [⟨(), op, answer⟩]) ∧
        (contract handlers field transaction resultHandler).Safe post err (k answer)
          (run', s.2 ++ [⟨(), op, answer⟩])) :
    (contract handlers field transaction resultHandler).Safe post err (.call op k) s := by
  rintro s₁ rfl
  refine ⟨hwaits, ?_⟩
  rintro answer ⟨run', events⟩ ⟨hresponds, hevents⟩
  cases hevents
  exact hstep answer run' hresponds

lemma Open.append {op : Op F U R} (answer : Op.Answer op) (h : Open field transaction s)
    (hop : ∀ mutation, op ≠ .persist mutation) :
    Open field transaction (s.1, s.2 ++ [(⟨(), op, answer⟩ : Event (interface F U R) Unit)]) := by
  refine ⟨h.1, ?_⟩
  rw [updatesWritten_append, h.2]
  cases op with
  | persist mutation => exact absurd rfl (hop mutation)
  | _ => rfl

lemma safe_now (h : Open field transaction s) :
    (contract handlers field transaction resultHandler).Safe
      (fun _ s => Open field transaction s) (fun _ s => Open field transaction s)
      (port (F := F) (U := U) (R := R)).now s := by
  refine safe_call (by simp) fun answer run' hrun' => ?_
  cases hrun'
  have hopen := h.append answer (by simp)
  exact ⟨hopen.safe, hopen⟩

/-- A persist that neither finalises the transaction nor carries an update keeps the entry. -/
lemma safe_persistMutation {mutation : JournalMutation F U} (h : Open field transaction s)
    (hupdate : mutation.update = none)
    (hmutation : ∀ update, mutation ≠ .finalize transaction.entryId update) :
    (contract handlers field transaction resultHandler).Safe
      (fun _ s => Open field transaction s) (fun _ s => Open field transaction s)
      (RemoteMutationTransaction.persistMutation (port (R := R)) mutation) s := by
  refine Contract.safe_bind_iff.2 (safe_call (by simp) fun answer run' hupdates => ?_)
  have hopen : Open field transaction
      (run', s.2 ++ [(⟨(), .persist mutation, answer⟩ : Event (interface F U R) Unit)]) := by
    refine ⟨?_, ?_⟩
    · refine Updates.keeps
        (P := fun run => RemoteMutationJournal.Holds (run.journal field) transaction.entryId)
        hupdates (fun now run left hrun hleft => ?_) (fun run hrun => ?_) run' rfl
      · rw [Run.journal_normalize]
        exact JournalMutation.holds_apply hrun hmutation hleft
      · cases hrun
        exact h.1
    · rw [updatesWritten_persist, h.2, hupdate]
      simp
  refine ⟨hopen.safe, ?_⟩
  cases answer with
  | committed now seen saved => exact hopen
  | rejected error => exact hopen
  | lost error => exact hopen

lemma safe_persistBestEffort {mutation : JournalMutation F U} {run : Run}
    (h : Open field transaction s) (hupdate : mutation.update = none)
    (hmutation : ∀ update, mutation ≠ .finalize transaction.entryId update) :
    (contract handlers field transaction resultHandler).Safe
      (fun _ s => Open field transaction s) (fun _ s => Open field transaction s)
      (RemoteMutationTransaction.persistBestEffort (port (R := R)) run mutation) s := by
  refine Contract.safe_tryCatch_iff.2 ((safe_persistMutation h hupdate hmutation).mono
    (fun _ _ h => h) fun error s hopen => ?_)
  split <;> exact hopen

/-! ## The parts of the runner -/

/-- The intent is in the journal when the remote call is about to be made. -/
lemma safe_recordIntentFrom {factory : F} (h : Unsent s) :
    (contract handlers field transaction resultHandler).Safe
      (fun _ s => Open field transaction s) (fun _ _ => True)
      (transaction.recordIntentFrom (port (R := R)) handlers factory) s := by
  refine Contract.safe_bind_iff.2 (safe_call (by simp) fun answer run' hupdates => ?_)
  have hnone : updatesWritten (s.2 ++ [(⟨(), .persist (.recordIntent transaction.entryId
      transaction.operation.kind factory), answer⟩ : Event (interface F U R) Unit)]) = 0 := by
    rw [updatesWritten_persist, h.2]
    simp [JournalMutation.update]
  have hunsent : Unsent (run', s.2 ++ [(⟨(), .persist (.recordIntent transaction.entryId
      transaction.operation.kind factory), answer⟩ : Event (interface F U R) Unit)]) := by
    refine ⟨fun event hevent => ?_, hnone⟩
    rcases List.mem_append.1 hevent with hevent | hevent
    · exact h.1 event hevent
    · rw [List.mem_singleton.1 hevent]
      rfl
  refine ⟨hunsent.safe, ?_⟩
  cases answer with
  | committed now seen saved =>
    obtain ⟨now', seen', left, -, hleft, hsaved⟩ := hupdates.of_written rfl
    obtain ⟨intent, -, hid, rfl⟩ := JournalMutation.recordIntent_eq_ok hleft
    cases hsaved
    have hholds : RemoteMutationJournal.Holds
        ((seen'.setJournal (RemoteMutationJournal.recordIntent (seen'.journal field) intent)
          field).normalize.journal field) transaction.entryId := by
      rw [Run.journal_normalize, Run.journal_setJournal_self, ← hid]
      exact RemoteMutationJournal.holds_recordIntent
    change (contract handlers field transaction resultHandler).Safe _ _
      (Process.ofExcept (handlers.intentOf factory now seen) >>= _) _
    cases handlers.intentOf factory now seen with
    | ok intent => exact ⟨hholds, hnone⟩
    | error error => trivial
  | rejected error => trivial
  | lost error => trivial

lemma safe_markUncertainBestEffort {run : Run} {error : PyError} (h : Open field transaction s) :
    (contract handlers field transaction resultHandler).Safe
      (fun _ s => Open field transaction s) (fun _ s => Open field transaction s)
      (transaction.markUncertainBestEffort (port (R := R)) run error) s :=
  (safe_now h).bind (fun _ _ h => safe_persistBestEffort h rfl (by simp)) fun _ _ h => h

lemma safe_markRemoteSucceeded {record : RemoteJournalRecord} {policy : MissingIntentPolicy}
    (h : Open field transaction s) :
    (contract handlers field transaction resultHandler).Safe
      (fun _ s => Open field transaction s) (fun _ s => Open field transaction s)
      (transaction.markRemoteSucceeded (port (R := R)) record policy) s :=
  safe_persistMutation h rfl (by simp)

/-- Finalising, or marking as applied with the update, is the last step. -/
lemma safe_applyResult {run : Run} {result : RemoteMutationResult U}
    (h : Open field transaction s)
    (hdecision : ∀ update, result = .finalize update →
      if resultHandler then ∃ event ∈ s.2, decision event = some (.finalize update)
      else update = none) :
    (contract handlers field transaction resultHandler).Safe (fun _ _ => True) (fun _ _ => True)
      (transaction.applyResult (port (R := R)) run result) s := by
  -- no update has been written yet, and one call writes at most one
  have hcount : ∀ (mutation : JournalMutation F U) (answer : UpdateAnswer),
      updatesWritten (s.2 ++
        [(⟨(), .persist mutation, answer⟩ : Event (interface F U R) Unit)]) ≤ 1 := by
    intro mutation answer
    rw [updatesWritten_persist, h.2]
    split <;> simp
  cases result with
  | keepPending => trivial
  | finalize update =>
    refine Contract.safe_bind_iff.2 (safe_call (by simp) fun answer run' hupdates =>
      ⟨⟨fun _ => ?_, hcount _ _⟩, ?_⟩)
    · cases hwritten : UpdateAnswer.written answer with
      | true =>
        refine .inr ⟨s.2, _, update, rfl, ?_, hdecision update rfl⟩
        simp [writtenMutation, hwritten]
      | false =>
        cases answer with
        | rejected error =>
          cases hupdates.stored_of_rejected
          exact .inl h.1
        | committed => cases hwritten
        | lost => cases hwritten
    · cases answer <;> trivial
  | recordApplied record update policy =>
    refine Contract.safe_bind_iff.2 ?_
    rw [Contract.safe_ofExcept]
    split
    · refine Contract.safe_bind_iff.2 (safe_call (by simp) fun answer run' hupdates =>
        ⟨⟨fun _ => .inl ?_, hcount _ _⟩, ?_⟩)
      -- recording the success keeps the entry: only a final update removes it
      · refine Updates.keeps
          (P := fun run => RemoteMutationJournal.Holds (run.journal field) transaction.entryId)
          hupdates (fun now run left hrun hleft => ?_) (fun run hrun => ?_) run' rfl
        · rw [Run.journal_normalize]
          exact JournalMutation.holds_apply hrun (by simp) hleft
        · cases hrun
          exact h.1
      · cases answer <;> trivial
    · trivial

/-- A result whose record differs from the marked one is marked before it is applied. -/
lemma safe_markResultRecord {run : Run} {succeeded : RemoteJournalRecord}
    {result : RemoteMutationResult U} (h : Open field transaction s) :
    (contract handlers field transaction resultHandler).Safe
      (fun _ s => Open field transaction s) (fun _ s => Open field transaction s)
      (transaction.markResultRecord (port (R := R)) run succeeded result) s := by
  cases result with
  | finalize update => exact h
  | keepPending => exact h
  | recordApplied record update policy =>
    rw [RemoteMutationTransaction.markResultRecord]
    split_ifs
    · exact h
    · refine Contract.safe_bind_iff.2 ?_
      rw [Contract.safe_ofExcept]
      split
      · exact safe_markRemoteSucceeded h
      · exact h

/-- The record of the success, and where its handler raises the mark of the intent. -/
lemma safe_succeededRecord {remoteResult : R} {intent : RemoteJournalRecord}
    {recordOf : Option (R → RemoteJournalRecord →
      Process (interface F U R) PyError (RemoteJournalRecord × Unit))}
    (h : Open field transaction s)
    (hrecordOf : ∀ handler, recordOf = some handler →
      (contract handlers field transaction resultHandler).Safe
        (fun _ s => Open field transaction s) (fun _ s => Open field transaction s)
        (handler remoteResult intent) s) :
    (contract handlers field transaction resultHandler).Safe
      (fun _ s => Open field transaction s) (fun _ s => Open field transaction s)
      (transaction.succeededRecord port remoteResult intent recordOf) s := by
  cases recordOf with
  | none => exact h
  | some handler =>
    refine Contract.safe_tryCatch_iff.2 (Contract.Safe.bind (hrecordOf handler rfl)
      (fun result s hopen => Contract.safe_bind_iff.2 ?_) fun error s hopen => ?_)
    · rw [Contract.safe_ofExcept]
      split
      · exact hopen
      · exact (safe_markRemoteSucceeded hopen).bind (fun _ _ h => h) fun _ _ h => h
    · exact (safe_markRemoteSucceeded hopen).bind (fun _ _ h => h) fun _ _ h => h

/-- The whole runner keeps its contract. -/
lemma safe_execution {factory : F} {policy : MissingIntentPolicy} {recordHandler : Bool}
    (h : Unsent s) :
    (contract handlers field transaction resultHandler).Safe (fun _ _ => True) (fun _ _ => True)
      (execution (R := R) handlers transaction factory policy recordHandler resultHandler) s := by
  refine (safe_recordIntentFrom h).bind ?_ fun _ _ _ => trivial
  rintro ⟨run, intent⟩ s hopen
  refine Contract.Safe.bind (M := fun _ s => Open field transaction s)
    (E := fun _ _ => True) ?_ (fun remoteResult s hopen => ?_) fun _ _ _ => trivial
  · -- the remote call, with the failure noted
    refine Contract.safe_tryCatch_iff.2 (safe_call (fun _ _ _ => hopen.1)
      fun answer run' hrun' => ?_)
    cases hrun'
    have hopen' := hopen.append answer (by simp)
    refine ⟨hopen'.safe, ?_⟩
    cases answer with
    | ok remoteResult => exact hopen'
    | error error =>
      exact (safe_markUncertainBestEffort hopen').bind (fun _ _ _ => trivial) fun _ _ _ => trivial
  refine (safe_succeededRecord hopen fun handler hhandler => ?_).bind
    (fun result s hopen => ?_) fun _ _ _ => trivial
  · -- the handler of the record may answer or raise anything
    cases recordHandler with
    | false => cases hhandler
    | true =>
      cases hhandler
      refine safe_call (by simp) fun answer run' hrun' => ?_
      cases hrun'
      have hopen' := hopen.append answer (by simp)
      refine ⟨hopen'.safe, ?_⟩
      cases answer <;> exact hopen'
  refine (safe_markRemoteSucceeded hopen).bind (fun run s hopen => ?_) fun _ _ _ => trivial
  refine Contract.Safe.bind (M := fun result s => Open field transaction s ∧
      ∀ update, result = .finalize update →
        if resultHandler then ∃ event ∈ s.2, decision event = some (.finalize update)
        else update = none)
    (E := fun _ _ => True) ?_ (fun result s hopen => ?_) fun _ _ _ => trivial
  · -- the handler of the result decides
    cases resultHandler with
    | false => exact ⟨hopen, fun update h => by cases h; rfl⟩
    | true =>
      refine Contract.safe_bind_iff.2 (safe_call (by simp) fun answer run' hrun' => ?_)
      cases hrun'
      have hopen' := hopen.append answer (by simp)
      refine ⟨hopen'.safe, ?_⟩
      cases answer with
      | error error => trivial
      | ok result =>
        refine ⟨hopen', fun update hupdate => ⟨_, List.mem_append_right _
          (List.mem_singleton_self _), ?_⟩⟩
        exact congrArg some hupdate
  obtain ⟨hopen, hdecision⟩ := hopen
  -- the decision stays in the record while the result is marked
  refine Contract.Safe.bind (M := fun _ s' => Open field transaction s' ∧
      ∀ update, result = .finalize update →
        if resultHandler then ∃ event ∈ s'.2, decision event = some (.finalize update)
        else update = none)
    (E := fun _ _ => True) ?_ (fun run s hopen => ?_) fun _ _ _ => trivial
  · cases result with
    | finalize update => exact ⟨hopen, hdecision⟩
    | keepPending => exact ⟨hopen, by simp⟩
    | recordApplied record update policy =>
      exact (safe_markResultRecord hopen).mono (fun _ _ h => ⟨h, by simp⟩) fun _ _ _ => trivial
  exact (safe_applyResult hopen.1 hopen.2).bind (fun _ _ _ => trivial) fun _ _ _ => trivial

/-! ## Crash safety -/

/-- Along every run of the runner: once the remote call is invoked the journal holds the entry, but
for the finalisation that removes it in the persist that carries the run update; and at most one
run update is written.  What a run update does to the run is arbitrary but for the journals, which
it leaves alone. -/
theorem holds_while_invoked (handlers : JournalHandlers F U) (field : JournalField)
    (transaction : RemoteMutationTransaction) (factory : F) (policy : MissingIntentPolicy)
    (recordHandler resultHandler : Bool) (run : Run)
    (events : List (Event (interface F U R) Unit))
    (c : Config (interface F U R) PyError (RemoteMutationExecution R) Unit Run)
    (hrun : Runs (Config.Fires (surroundings handlers field))
      (start handlers transaction factory policy recordHandler resultHandler run) events c) :
    (Invoked c events →
      RemoteMutationJournal.Holds (c.state.journal field) transaction.entryId ∨
        Finalized transaction.entryId resultHandler events) ∧
    updatesWritten events ≤ 1 := by
  have hcompat : Contract.Compatible (surroundings handlers field).recording
      (fun _ : Unit => contract handlers field transaction resultHandler)
      (fun (_ : Config (interface F U R) PyError (RemoteMutationExecution R) Unit
        (Recorded F U R)) _ _ => True) :=
    { answers := fun c e c' hfires _ => hfires.answered
      rely := fun c e c' _ _ _ j hj => absurd rfl hj }
  have hunsent : Unsent ((run, []) : Recorded F U R) := ⟨by simp, rfl⟩
  have hstart : ∀ i : Unit, (contract handlers field transaction resultHandler).Safe
      (fun _ _ => True) (fun _ _ => True)
      ((start (R := R) handlers transaction factory policy recordHandler resultHandler
        run).program i) (run, []) :=
    fun _ => safe_execution hunsent
  have hruns : Runs (fun c e c' => Config.Fires (surroundings handlers field) c e c' ∧ True)
      (start handlers transaction factory policy recordHandler resultHandler run) events c :=
    hrun.mono fun _ _ _ h => ⟨h, trivial⟩
  have hsafe : Safe field transaction resultHandler (c.state, events) := by
    cases hruns with
    | nil => exact hunsent.safe
    | snoc hprev hlast =>
      exact Contract.guarantee_of_recorded_runs hcompat hstart hprev hlast.1 trivial
  refine ⟨?_, hsafe.2⟩
  rintro (⟨run', intent, hpending⟩ | hsent)
  · exact .inl (Contract.waits_of_recorded_runs hcompat hstart hruns hpending run' intent rfl)
  · exact hsafe.1 hsent

/-- The intent of the example. -/
def exampleIntent : RemoteJournalRecord :=
  ⟨"tx-1", "steer_prompt", ∅, by decide, by decide, by decide⟩

/-- An operation with one fixed intent, whose run update marks the run as active. -/
def exampleHandlers : JournalHandlers Unit Unit where
  intentOf _ _ _ := .ok exampleIntent
  updateOf _ run := .ok { run with status := "active" }
  journal_updateOf := by
    rintro - run _ ⟨⟩ field
    cases field <;> rfl

/-- The transaction of the example. -/
def exampleTransaction : RemoteMutationTransaction :=
  ⟨"tx-1", ⟨"steer_prompt", "discard", "finalize", "call", by decide⟩⟩

/-- The record of the example. -/
def exampleRun : Run := .new "demo" "/" ""

/-- A store that writes what it is asked to, a server that answers, and a handler that decides on
the run update. -/
def exampleReply (run : Run) : (op : Op Unit Unit Unit) → Option (op.Answer × Run)
  | .persist mutation =>
    match mutation.apply exampleHandlers .remoteMutation "" run with
    | .ok left =>
      if run.cleanupInProgress then none
      else some (.committed "" run left.normalize, left.normalize)
    | .error _ => none
  | .now => some ("", run)
  | .callRemote _ _ => some (.ok (), run)
  | .remoteSucceededRecord _ intent => some (.ok intent, run)
  | .applyResult _ _ => some (.ok (some (.finalize (some ()))), run)

lemma surroundings_exampleReply {run run' : Run} {op : Op Unit Unit Unit} {answer : op.Answer}
    (h : exampleReply run op = some (answer, run')) :
    surroundings exampleHandlers .remoteMutation () run op answer run' := by
  cases op with
  | persist mutation =>
    unfold exampleReply at h
    dsimp only at h
    split at h
    · next left hleft =>
      split_ifs at h with hfence
      cases h
      exact .committed (by simpa using hfence) hleft
    · cases h
  | _ =>
    cases h
    rfl

/-- The start of the example. -/
def exampleStart :
    Config (interface Unit Unit Unit) PyError (RemoteMutationExecution Unit) Unit Run :=
  start exampleHandlers exampleTransaction () .ignore true true exampleRun

/-- What some steps of the example come to: whether the remote call is over, whether the journal
holds the entry, how many run updates are written, and the status of the run. -/
def exampleSummary (number : Nat) : Option (Bool × Bool × Nat × String) :=
  (exampleStart.play (List.replicate number ⟨(), exampleReply⟩)).map fun (events, c) =>
    (events.any isRemoteCall,
      (RemoteMutationJournal.entriesOf c.state.remoteMutationJournal).any
        (RemoteMutationJournal.isEntryOf "tx-1"),
      updatesWritten events, c.state.status)

lemma exists_of_exampleSummary {number updates : Nat} {holds : Bool} {status : String}
    (h : exampleSummary number = some (true, holds, updates, status)) :
    ∃ events c, Runs (Config.Fires (surroundings exampleHandlers .remoteMutation)) exampleStart
        events c ∧
      Invoked c events ∧ updatesWritten events = updates ∧ c.state.status = status ∧
      (RemoteMutationJournal.Holds (c.state.journal .remoteMutation) "tx-1" ↔ holds = true) := by
  obtain ⟨⟨events, c⟩, hplay, hsummary⟩ := Option.map_eq_some_iff.1 h
  simp only [Prod.mk.injEq, List.any_eq_true] at hsummary
  obtain ⟨hsent, hholds, hupdates, hstatus⟩ := hsummary
  refine ⟨events, c, Config.runs_of_play (fun turn hturn s op answer s' hreply => ?_) hplay,
    .inr hsent, hupdates, hstatus, ?_⟩
  · obtain rfl := List.eq_of_mem_replicate hturn
    exact surroundings_exampleReply hreply
  · rw [← hholds, List.any_eq_true]
    rfl

/-- The example holds its entry once the remote call is answered, and in the end it has updated the
run once, in the persist that removed the entry. -/
theorem holds_while_invoked_example :
    (∃ events c, Runs (Config.Fires (surroundings exampleHandlers .remoteMutation)) exampleStart
        events c ∧
      Invoked c events ∧ updatesWritten events = 0 ∧ c.state.status = "queued" ∧
      RemoteMutationJournal.Holds (c.state.journal .remoteMutation) "tx-1") ∧
    ∃ events c, Runs (Config.Fires (surroundings exampleHandlers .remoteMutation)) exampleStart
        events c ∧
      Invoked c events ∧ updatesWritten events = 1 ∧ c.state.status = "active" ∧
      Finalized "tx-1" true events := by
  constructor
  · obtain ⟨events, c, hrun, hinvoked, hupdates, hstatus, hholds⟩ :=
      exists_of_exampleSummary (show exampleSummary 2 = some (true, true, 0, "queued") by
        decide +kernel)
    exact ⟨events, c, hrun, hinvoked, hupdates, hstatus, hholds.2 rfl⟩
  · obtain ⟨events, c, hrun, hinvoked, hupdates, hstatus, hholds⟩ :=
      exists_of_exampleSummary (show exampleSummary 6 = some (true, false, 1, "active") by
        decide +kernel)
    have hnot : ¬RemoteMutationJournal.Holds (c.state.journal .remoteMutation) "tx-1" :=
      fun h => Bool.false_ne_true (hholds.1 h)
    exact ⟨events, c, hrun, hinvoked, hupdates, hstatus, ((holds_while_invoked exampleHandlers
      .remoteMutation exampleTransaction () .ignore true true exampleRun events c hrun).1
        hinvoked).resolve_left hnot⟩

end Outbox
end OpencodeSession
