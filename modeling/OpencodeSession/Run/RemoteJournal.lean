import OpencodeSession.Framework.Process
import OpencodeSession.Run.Record

/-!
# The journal of remote mutations

A remote mutation is bracketed by entries in a journal of the run.  `RemoteMutationRunner.execute`
records an intent, makes the remote call, marks the success, and then lets the handler of the
result decide whether the entry is finalised, kept, or marked as applied.

The mutators that the runner hands to the store are the values of `JournalMutation`, over a type of
intent factories and a type of run updates; the store interprets them with `JournalMutation.apply`.
How a mutation is persisted is a parameter of the runner, a `JournalPort`, so that the same runner
serves every transaction of the program.
-/

namespace OpencodeSession

/-! ## Records and entries -/

/-- `_RESERVED_RECORD_FIELDS`. -/
def reservedRecordFields : List String := ["id", "kind", "outbox_state"]

/-- `RemoteJournalRecord`: its identity is not empty and its fields leave the reserved names
alone. -/
structure RemoteJournalRecord where
  id : String
  kind : String
  fields : Dict String JsonValue
  idNonempty : id ≠ ""
  kindNonempty : kind ≠ ""
  unreserved : ∀ name ∈ reservedRecordFields, name ∉ fields.keys

namespace RemoteJournalRecord

/-- A field of the record, null when it is missing. -/
def field (record : RemoteJournalRecord) (name : String) : JsonValue :=
  (record.fields.get? name).getD .null

/-- `to_journal_entry`. -/
def toJournalEntry (record : RemoteJournalRecord) : List (String × JsonValue) :=
  ("id", .str record.id) :: ("kind", .str record.kind) :: record.fields.entries

/-- `left == right`. -/
def pyEq (left right : RemoteJournalRecord) : Bool :=
  left.id = right.id && left.kind = right.kind &&
    (JsonValue.obj left.fields.entries).pyEq (.obj right.fields.entries)

end RemoteJournalRecord

/-- The states of an entry. -/
inductive OutboxState where
  | intent | remoteSucceeded | applied | uncertain
  deriving DecidableEq

/-- The word of a state. -/
def OutboxState.name : OutboxState → String
  | intent => "intent"
  | remoteSucceeded => "remote_succeeded"
  | applied => "applied"
  | uncertain => "uncertain"

/-- What to do when the entry to mark is not there. -/
inductive MissingIntentPolicy where
  | ignore | recordApplied
  deriving DecidableEq

/-- `RemoteMutationOperation`. -/
structure RemoteMutationOperation where
  kind : String
  discardCleanupOperation : String
  finalizeCleanupOperation : String
  callRemoteOperation : String
  nonempty : kind ≠ "" ∧ discardCleanupOperation ≠ "" ∧ finalizeCleanupOperation ≠ "" ∧
    callRemoteOperation ≠ ""

/-! ## The journal of a run -/

namespace RemoteMutationJournal

/-- The entries of a journal; none where the field is missing or not a list. -/
def entriesOf (journal : Option JsonValue) : List JsonValue :=
  match journal with
  | some (.arr entries) => entries
  | _ => []

/-- Whether a value is an entry with an identifier. -/
def isEntryOf (entryId : String) (entry : JsonValue) : Bool :=
  entry.isObj && (entry.get "id").pyEq (.str entryId)

/-- Update the first entry with an identifier. -/
def updateFirst (entryId : String) (updates : List (String × JsonValue)) :
    List JsonValue → List JsonValue
  | [] => []
  | entry :: rest =>
    if isEntryOf entryId entry then .obj (Dict.update entry.fields updates) :: rest
    else entry :: updateFirst entryId updates rest

/-- `record_intent`. -/
def recordIntent (journal : Option JsonValue) (record : RemoteJournalRecord) :
    Option JsonValue :=
  some (.arr (entriesOf journal ++
    [.obj (Dict.insert "outbox_state" (.str OutboxState.intent.name) record.toJournalEntry)]))

/-- `mark_applied` and `mark_remote_succeeded`: put the record's fields and the state into the
entry, and where there is none do as the policy says. -/
def mark (state : OutboxState) (journal : Option JsonValue) (entryId : String)
    (record : RemoteJournalRecord) (policy : MissingIntentPolicy) : Option JsonValue :=
  let entries := entriesOf journal
  let entry := Dict.insert "outbox_state" (.str state.name) record.toJournalEntry
  some (.arr
    (if entries.any (isEntryOf entryId) then
      updateFirst entryId (entry.filter fun field => field.1 ∉ ["id", "kind"]) entries
    else if policy = .recordApplied then entries ++ [.obj entry]
    else entries))

/-- `finalize`. -/
def finalize (journal : Option JsonValue) (entryId : String) : Option JsonValue :=
  let remaining := (entriesOf journal).filter fun entry => !isEntryOf entryId entry
  if remaining.isEmpty then none else some (.arr remaining)

/-- Update the first entry with an identifier in a journal that is a list. -/
def note (journal : Option JsonValue) (entryId : String)
    (updates : List (String × JsonValue)) : Option JsonValue :=
  match journal with
  | some (.arr entries) => some (.arr (updateFirst entryId updates entries))
  | journal => journal

/-- `mark_uncertain`. -/
def markUncertain (journal : Option JsonValue) (entryId : String) (uncertainty : JsonValue) :
    Option JsonValue :=
  note journal entryId [("outbox_state", .str OutboxState.uncertain.name),
    ("status", .str "uncertain"), ("uncertain_failure", uncertainty)]

/-- `mark_cleanup_failure`. -/
def markCleanupFailure (journal : Option JsonValue) (entryId : String)
    (cleanupFailure : JsonValue) : Option JsonValue :=
  note journal entryId [("cleanup_failure", cleanupFailure)]

/-- `_entry_outbox_state`: entries of earlier versions have a status instead. -/
def entryOutboxState (entry : JsonValue) : Option OutboxState :=
  match entry.get "outbox_state" with
  | .str state =>
    [OutboxState.intent, .remoteSucceeded, .applied, .uncertain].find? fun s => s.name = state
  | .null =>
    match entry.get "status" with
    | .str status =>
      if status = "created" then some .applied
      else some (([OutboxState.intent, .remoteSucceeded, .applied, .uncertain].find?
        fun s => s.name = status).getD .intent)
    | _ => some .intent
  | _ => none

/-- `pending_entries` of a kind in some of the states. -/
def pendingEntries (journal : Option JsonValue) (kind : String) (states : List OutboxState) :
    List JsonValue :=
  (entriesOf journal).filter fun entry =>
    entry.isObj && (entry.get "kind").pyEq (.str kind) &&
      (match entryOutboxState entry with
        | some state => state ∈ states
        | none => false)

/-- Whether a journal holds an entry with an identifier. -/
def Holds (journal : Option JsonValue) (entryId : String) : Prop :=
  ∃ entry ∈ entriesOf journal, isEntryOf entryId entry = true

/-! ## What the operations keep -/

variable {journal : Option JsonValue} {entryId entryId' : String} {entry : JsonValue}
  {updates : List (String × JsonValue)} {record : RemoteJournalRecord}

@[simp] lemma entriesOf_arr (entries : List JsonValue) :
    entriesOf (some (.arr entries)) = entries := rfl

lemma isEntryOf_iff : isEntryOf entryId entry = true ↔
    entry.isObj = true ∧ entry.get "id" = .str entryId := by
  simp [isEntryOf]

/-- An update that leaves the identifier alone does not change whose entry it is. -/
lemma get_update_of_notMem {name : String} (h : name ∉ updates.map Prod.fst)
    (fields : List (String × JsonValue)) :
    (JsonValue.obj (Dict.update fields updates)).get name = (JsonValue.obj fields).get name := by
  induction updates generalizing fields with
  | nil => rfl
  | cons update rest ih =>
    rw [List.map_cons, List.mem_cons, not_or] at h
    have hrest := ih h.2 (Dict.insert update.1 update.2 fields)
    rw [JsonValue.get_obj, JsonValue.get_obj] at hrest ⊢
    rw [Dict.lookup_insert_of_ne (Ne.symm h.1)] at hrest
    exact hrest

lemma isEntryOf_update (h : "id" ∉ updates.map Prod.fst) (hentry : entry.isObj = true) :
    isEntryOf entryId' (.obj (Dict.update entry.fields updates)) = isEntryOf entryId' entry := by
  cases entry with
  | obj fields =>
    simp only [isEntryOf, JsonValue.fields, get_update_of_notMem h]
    rfl
  | _ => cases hentry

/-- Updating entries keeps the transactions that have one. -/
lemma any_updateFirst (h : "id" ∉ updates.map Prod.fst) (entries : List JsonValue) :
    (updateFirst entryId updates entries).any (isEntryOf entryId') =
      entries.any (isEntryOf entryId') := by
  induction entries with
  | nil => rfl
  | cons entry rest ih =>
    rw [updateFirst]
    split_ifs with hentry
    · rw [List.any_cons, List.any_cons, isEntryOf_update h (isEntryOf_iff.1 hentry).1]
    · rw [List.any_cons, List.any_cons, ih]

lemma holds_iff_any : Holds journal entryId ↔
    (entriesOf journal).any (isEntryOf entryId) = true := by
  rw [Holds, List.any_eq_true]

lemma holds_recordIntent : Holds (recordIntent journal record) record.id := by
  refine ⟨_, List.mem_append_right _ (List.mem_singleton_self _), ?_⟩
  refine isEntryOf_iff.2 ⟨rfl, ?_⟩
  rw [JsonValue.get_obj, Dict.lookup_insert_of_ne (by decide)]
  rfl

lemma Holds.recordIntent (h : Holds journal entryId) :
    Holds (recordIntent journal record) entryId := by
  obtain ⟨entry, hmem, hentry⟩ := h
  exact ⟨entry, List.mem_append_left _ hmem, hentry⟩

/-- Marking keeps every entry. -/
lemma Holds.mark (h : Holds journal entryId') (state : OutboxState)
    (policy : MissingIntentPolicy) :
    Holds (mark state journal entryId record policy) entryId' := by
  rw [holds_iff_any] at h ⊢
  simp only [RemoteMutationJournal.mark, entriesOf_arr]
  split_ifs
  · rw [any_updateFirst, h]
    simp [List.mem_filter]
  · rw [List.any_append, h, Bool.true_or]
  · exact h

lemma Holds.note (h : Holds journal entryId') (hupdates : "id" ∉ updates.map Prod.fst) :
    Holds (note journal entryId updates) entryId' := by
  rw [holds_iff_any] at h ⊢
  unfold RemoteMutationJournal.note
  split
  · rw [entriesOf_arr, any_updateFirst hupdates]
    exact h
  · exact h

/-- Finalising keeps the entries of the other transactions. -/
lemma Holds.finalize (h : Holds journal entryId') (hne : entryId' ≠ entryId) :
    Holds (finalize journal entryId) entryId' := by
  obtain ⟨entry, hmem, hentry⟩ := h
  have hother : isEntryOf entryId entry = false := by
    rw [Bool.eq_false_iff, ne_eq, isEntryOf_iff, not_and]
    intro _ hid
    rw [(isEntryOf_iff.1 hentry).2] at hid
    cases hid
    exact hne rfl
  have hremaining : entry ∈ (entriesOf journal).filter fun entry => !isEntryOf entryId entry :=
    List.mem_filter.2 ⟨hmem, by rw [hother]; rfl⟩
  unfold RemoteMutationJournal.finalize
  rw [if_neg (by
    rw [List.isEmpty_iff]
    exact List.ne_nil_of_mem hremaining)]
  exact ⟨entry, hremaining, hentry⟩

end RemoteMutationJournal

/-! ## Mutations -/

/-- What a transaction persists. -/
inductive JournalMutation (F U : Type) where
  | recordIntent (entryId kind : String) (factory : F)
  | markApplied (entryId : String) (record : RemoteJournalRecord) (update : Option U)
      (policy : MissingIntentPolicy)
  | markRemoteSucceeded (entryId : String) (record : RemoteJournalRecord)
      (policy : MissingIntentPolicy)
  | finalize (entryId : String) (update : Option U)
  | markUncertain (entryId : String) (uncertainty : JsonValue)
  | markCleanupFailure (entryId : String) (cleanupFailure : JsonValue)

/-- How intent factories and run updates act on the run that is being updated.  A factory may read
the clock.  An update is about the workers of the run and leaves both of its journals alone; that of
the commands does. -/
structure JournalHandlers (F U : Type) where
  intentOf : F → String → Run → Except PyError RemoteJournalRecord
  updateOf : U → Run → Except PyError Run
  journal_updateOf : ∀ update run run', updateOf update run = .ok run' →
    ∀ field, run'.journal field = run.journal field

/-- `_validate_record_identity`. -/
def validatedRecord (entryId kind : String) (record : RemoteJournalRecord) :
    Except PyError RemoteJournalRecord :=
  if record.id ≠ entryId then
    .error (.valueError s!"remote journal record id must be '{entryId}'")
  else if record.kind ≠ kind then
    .error (.valueError s!"remote journal record kind must be '{kind}'")
  else .ok record

namespace JournalMutation

variable {F U : Type}

/-- The run update a mutation carries. -/
def update : JournalMutation F U → Option U
  | markApplied _ _ update _ | finalize _ update => update
  | _ => none

/-- The entry a mutation is about. -/
def entryId : JournalMutation F U → String
  | recordIntent entryId _ _ | markApplied entryId _ _ _ | markRemoteSucceeded entryId _ _
  | finalize entryId _ | markUncertain entryId _ | markCleanupFailure entryId _ => entryId

/-- `_apply_run_update`, where there is one. -/
def applyUpdate (handlers : JournalHandlers F U) (update : Option U) (run : Run) :
    Except PyError Run :=
  match update with
  | some update => handlers.updateOf update run
  | none => .ok run

/-- The journal after a mutation other than an intent. -/
def applyJournal (journal : Option JsonValue) : JournalMutation F U → Option JsonValue
  | recordIntent _ _ _ => journal
  | markApplied entryId record _ policy =>
    RemoteMutationJournal.mark .applied journal entryId record policy
  | markRemoteSucceeded entryId record policy =>
    RemoteMutationJournal.mark .remoteSucceeded journal entryId record policy
  | finalize entryId _ => RemoteMutationJournal.finalize journal entryId
  | markUncertain entryId uncertainty =>
    RemoteMutationJournal.markUncertain journal entryId uncertainty
  | markCleanupFailure entryId cleanupFailure =>
    RemoteMutationJournal.markCleanupFailure journal entryId cleanupFailure

/-- The mutator that the store runs.  The update of a mutation comes before its entry. -/
def apply (handlers : JournalHandlers F U) (field : JournalField) (now : String) (run : Run) :
    JournalMutation F U → Except PyError Run
  | recordIntent entryId kind factory => do
    let intent ← handlers.intentOf factory now run
    let intent ← validatedRecord entryId kind intent
    return run.setJournal (RemoteMutationJournal.recordIntent (run.journal field) intent) field
  | mutation => do
    let run ← applyUpdate handlers mutation.update run
    return run.setJournal (mutation.applyJournal (run.journal field)) field

end JournalMutation

/-! ## What the mutations keep -/

namespace JournalMutation

variable {F U : Type} {handlers : JournalHandlers F U} {field : JournalField} {now : String}
  {run left : Run} {mutation : JournalMutation F U} {entryId : String}

/-- Only finalising removes entries, and only those of its own transaction. -/
lemma holds_applyJournal {journal : Option JsonValue}
    (h : RemoteMutationJournal.Holds journal entryId)
    (hmutation : ∀ update, mutation ≠ .finalize entryId update) :
    RemoteMutationJournal.Holds (mutation.applyJournal journal) entryId := by
  cases mutation with
  | recordIntent => exact h
  | markApplied | markRemoteSucceeded => exact h.mark _ _
  | finalize entryId' update =>
    refine h.finalize ?_
    rintro rfl
    exact hmutation update rfl
  | markUncertain | markCleanupFailure => exact h.note (by simp)

/-- What a mutation other than an intent does: its update, and then the journal. -/
lemma apply_eq_ok (hintent : ∀ entryId kind factory, mutation ≠ .recordIntent entryId kind factory)
    (h : mutation.apply handlers field now run = .ok left) :
    ∃ updated, applyUpdate handlers mutation.update run = .ok updated ∧
      left = updated.setJournal (mutation.applyJournal (updated.journal field)) field := by
  have hbind : (do
      let run ← applyUpdate handlers mutation.update run
      return run.setJournal (mutation.applyJournal (run.journal field)) field) = .ok left := by
    cases mutation with
    | recordIntent entryId kind factory => exact absurd rfl (hintent entryId kind factory)
    | _ => exact h
  cases hupdate : applyUpdate handlers mutation.update run with
  | error error =>
    rw [hupdate] at hbind
    cases hbind
  | ok updated =>
    rw [hupdate] at hbind
    cases hbind
    exact ⟨updated, rfl, rfl⟩

/-- A recorded intent is the validated record of its factory. -/
lemma recordIntent_eq_ok {kind : String} {factory : F}
    (h : (recordIntent entryId kind factory : JournalMutation F U).apply handlers field now run =
      .ok left) :
    ∃ intent, handlers.intentOf factory now run = .ok intent ∧ intent.id = entryId ∧
      left = run.setJournal (RemoteMutationJournal.recordIntent (run.journal field) intent)
        field := by
  simp only [apply, bind, Except.bind] at h
  split at h
  · cases h
  · next intent hintent =>
    split at h
    · cases h
    · next record hrecord =>
      cases h
      unfold validatedRecord at hrecord
      split_ifs at hrecord with hid hkind
      cases hrecord
      exact ⟨_, hintent, not_not.1 hid, rfl⟩

/-- A mutation keeps the entry of a transaction unless it finalises it. -/
lemma holds_apply (h : RemoteMutationJournal.Holds (run.journal field) entryId)
    (hmutation : ∀ update, mutation ≠ .finalize entryId update)
    (happly : mutation.apply handlers field now run = .ok left) :
    RemoteMutationJournal.Holds (left.journal field) entryId := by
  by_cases hintent : ∃ entryId' kind factory, mutation = .recordIntent entryId' kind factory
  · obtain ⟨entryId', kind, factory, rfl⟩ := hintent
    obtain ⟨intent, -, -, rfl⟩ := recordIntent_eq_ok happly
    rw [Run.journal_setJournal_self]
    exact h.recordIntent
  · obtain ⟨updated, hupdate, rfl⟩ := apply_eq_ok
      (fun entryId kind factory heq => hintent ⟨entryId, kind, factory, heq⟩) happly
    rw [Run.journal_setJournal_self]
    refine holds_applyJournal ?_ hmutation
    cases hmut : mutation.update with
    | none =>
      rw [hmut] at hupdate
      cases hupdate
      exact h
    | some update =>
      rw [hmut] at hupdate
      rw [handlers.journal_updateOf _ _ _ hupdate]
      exact h

end JournalMutation

/-! ## Results -/

/-- `RemoteMutationResult`. -/
inductive RemoteMutationResult (U : Type) where
  | finalize (update : Option U)
  | keepPending
  | recordApplied (record : RemoteJournalRecord) (update : Option U)
      (policy : MissingIntentPolicy)

/-- `RemoteMutationExecution`. -/
structure RemoteMutationExecution (R : Type) where
  run : Run
  remoteResult : R
  intent : RemoteJournalRecord

/-! ## The runner -/

/-- How a process persists journal mutations and reads the clock.  A persist returns the clock as
the mutator read it, the run the mutator was given and the run that was saved. -/
structure JournalPort (I : Interface) (F U : Type) where
  persist : JournalMutation F U → Process I PyError (String × Run × Run)
  now : Process I PyError String

/-- `RemoteMutationTransaction`. -/
structure RemoteMutationTransaction where
  entryId : String
  operation : RemoteMutationOperation

namespace RemoteMutationTransaction

variable {I : Interface} {F U R H : Type} (port : JournalPort I F U)
  (handlers : JournalHandlers F U) (transaction : RemoteMutationTransaction)

/-- Persist a mutation and return the saved run. -/
def persistMutation (mutation : JournalMutation F U) : Process I PyError Run := do
  let (_, _, saved) ← port.persist mutation
  return saved

/-- Persist a mutation, and go on with the run in hand when the store fails. -/
def persistBestEffort (run : Run) (mutation : JournalMutation F U) : Process I PyError Run :=
  tryCatch (persistMutation port mutation) fun error =>
    if error.isPersistenceError then return run else throw error

/-- `record_intent_from`: the intent is what the factory made of the run it was given. -/
def recordIntentFrom (factory : F) : Process I PyError (Run × RemoteJournalRecord) := do
  let (now, seen, saved) ← port.persist
    (.recordIntent transaction.entryId transaction.operation.kind factory)
  let intent ← Process.ofExcept (handlers.intentOf factory now seen)
  return (saved, intent)

/-- `mark_remote_succeeded`. -/
def markRemoteSucceeded (record : RemoteJournalRecord) (policy : MissingIntentPolicy) :
    Process I PyError Run :=
  persistMutation port (.markRemoteSucceeded transaction.entryId record policy)

/-- What is noted about an error in an entry. -/
def failureNote (operation : String) (error : PyError) (recordedAt : String) : JsonValue :=
  .obj [("operation", .str operation), ("error_type", .str error.typeName),
    ("message", .str error.message), ("recorded_at", .str recordedAt)]

/-- `mark_uncertain_best_effort`. -/
def markUncertainBestEffort (run : Run) (error : PyError) : Process I PyError Run := do
  let recordedAt ← port.now
  persistBestEffort port run (.markUncertain transaction.entryId
    (failureNote transaction.operation.callRemoteOperation error recordedAt))

/-- `finalize_best_effort`. -/
def finalizeBestEffort (run : Run) : Process I PyError Run :=
  tryCatch (persistMutation port (.finalize transaction.entryId none)) fun error =>
    if error.isPersistenceError then do
      let recordedAt ← port.now
      persistBestEffort port run (.markCleanupFailure transaction.entryId
        (failureNote transaction.operation.finalizeCleanupOperation error recordedAt))
    else throw error

/-- `apply_result`. -/
def applyResult (run : Run) : RemoteMutationResult U → Process I PyError Run
  | .recordApplied record update policy => do
    let record ← Process.ofExcept
      (validatedRecord transaction.entryId transaction.operation.kind record)
    persistMutation port (.markApplied transaction.entryId record update policy)
  | .keepPending => return run
  | .finalize update => persistMutation port (.finalize transaction.entryId update)

/-- The record that marks the success: the intent, or what the handler makes of the result.  When
the handler raises, the intent is marked in its place. -/
def succeededRecord (remoteResult : R) (intent : RemoteJournalRecord)
    (remoteSucceededRecord : Option (R → RemoteJournalRecord →
      Process I PyError (RemoteJournalRecord × H))) :
    Process I PyError (RemoteJournalRecord × Option H) :=
  match remoteSucceededRecord with
  | none => pure (intent, none)
  | some recordOf =>
    tryCatch (do
      let (record, memo) ← recordOf remoteResult intent
      let record ← Process.ofExcept
        (validatedRecord transaction.entryId transaction.operation.kind record)
      return (record, some memo))
      fun error => do
        let _ ← transaction.markRemoteSucceeded port intent .ignore
        throw error

/-- The result that the handler decides on; finalising without an update if there is none. -/
def resultOrFinalize (memo : Option H) (remoteResult : R) (intent : RemoteJournalRecord)
    (resultOf : Option (Option H → R → RemoteJournalRecord →
      Process I PyError (Option (RemoteMutationResult U)))) :
    Process I PyError (RemoteMutationResult U) :=
  match resultOf with
  | none => pure (.finalize none)
  | some resultOf => do
    let result ← resultOf memo remoteResult intent
    return result.getD (.finalize none)

/-- A result whose record is not the one already marked is marked first. -/
def markResultRecord (run : Run) (succeeded : RemoteJournalRecord) :
    RemoteMutationResult U → Process I PyError Run
  | .recordApplied record _ policy =>
    if record.pyEq succeeded then pure run
    else do
      let record ← Process.ofExcept
        (validatedRecord transaction.entryId transaction.operation.kind record)
      transaction.markRemoteSucceeded port record policy
  | _ => pure run

/-- `RemoteMutationRunner.execute`.  What the first handler remembers for the second one is passed
from one to the other. -/
def execute (factory : F) (callRemote : Run → RemoteJournalRecord → Process I PyError R)
    (remoteSucceededRecord : Option (R → RemoteJournalRecord →
      Process I PyError (RemoteJournalRecord × H)))
    (policy : MissingIntentPolicy)
    (resultOf : Option (Option H → R → RemoteJournalRecord →
      Process I PyError (Option (RemoteMutationResult U)))) :
    Process I PyError (RemoteMutationExecution R) := do
  let (run, intent) ← transaction.recordIntentFrom port handlers factory
  let remoteResult ← tryCatch (callRemote run intent) fun error => do
    let _ ← transaction.markUncertainBestEffort port run error
    throw error
  let (succeeded, memo) ←
    transaction.succeededRecord port remoteResult intent remoteSucceededRecord
  let run ← transaction.markRemoteSucceeded port succeeded policy
  let result ← resultOrFinalize memo remoteResult intent resultOf
  let run ← transaction.markResultRecord port run succeeded result
  let run ← transaction.applyResult port run result
  return { run := run, remoteResult := remoteResult, intent := intent }

end RemoteMutationTransaction

end OpencodeSession
