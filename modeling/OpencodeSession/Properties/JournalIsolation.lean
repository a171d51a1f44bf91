import OpencodeSession.Run.RemoteJournal

/-!
# Transactions on one journal

The transactions of a run share a journal, and every operation of a transaction searches, rewrites
or filters the whole of it.  An operation nevertheless sees and changes only the entries with its
own identifier (`filter_perform`), so that the entries of a transaction are those its own operations
leave when they are performed alone, and the other entries are those that all other operations
leave (`isolated`).  This holds of every order of the operations and of every journal to start
from, with whatever earlier transactions left behind in it.
-/

namespace OpencodeSession

namespace RemoteMutationJournal

/-- An operation of a transaction on the journal. -/
inductive Operation where
  | recordIntent (record : RemoteJournalRecord)
  | markRemoteSucceeded (entryId : String) (record : RemoteJournalRecord)
      (policy : MissingIntentPolicy)
  | markApplied (entryId : String) (record : RemoteJournalRecord) (policy : MissingIntentPolicy)
  | markUncertain (entryId : String) (uncertainty : JsonValue)
  | markCleanupFailure (entryId : String) (cleanupFailure : JsonValue)
  | finalize (entryId : String)

namespace Operation

/-- The transaction an operation belongs to. -/
def entryId : Operation → String
  | recordIntent record => record.id
  | markRemoteSucceeded entryId _ _ | markApplied entryId _ _ | markUncertain entryId _
  | markCleanupFailure entryId _ | finalize entryId => entryId

/-- The journal after an operation.  An entry is not marked with the record of another one. -/
def apply (journal : Option JsonValue) : Operation → Except PyError (Option JsonValue)
  | recordIntent record => .ok (RemoteMutationJournal.recordIntent journal record)
  | markRemoteSucceeded entryId record policy =>
    if record.id ≠ entryId then
      .error (.valueError s!"remote journal record id must be '{entryId}'")
    else .ok (mark .remoteSucceeded journal entryId record policy)
  | markApplied entryId record policy =>
    if record.id ≠ entryId then
      .error (.valueError s!"remote journal record id must be '{entryId}'")
    else .ok (mark .applied journal entryId record policy)
  | markUncertain entryId uncertainty =>
    .ok (RemoteMutationJournal.markUncertain journal entryId uncertainty)
  | markCleanupFailure entryId cleanupFailure =>
    .ok (RemoteMutationJournal.markCleanupFailure journal entryId cleanupFailure)
  | finalize entryId => .ok (RemoteMutationJournal.finalize journal entryId)

end Operation

/-- The journal that an operation leaves: the one it found, when it raises. -/
def perform (journal : Option JsonValue) (operation : Operation) : Option JsonValue :=
  match operation.apply journal with
  | .ok journal => journal
  | .error _ => journal

/-- The journal that operations leave one after the other. -/
def performAll (journal : Option JsonValue) (operations : List Operation) : Option JsonValue :=
  operations.foldl perform journal

/-! ## Entries of some transactions -/

/-- Whether an entry remains when only some identifiers count: any but an entry of another one. -/
def visible (counts : String → Bool) (entry : JsonValue) : Bool :=
  match entry.isObj, entry.get "id" with
  | true, .str entryId => counts entryId
  | _, _ => true

variable {counts : String → Bool} {journal journal' : Option JsonValue} {entryId : String}
  {entry : JsonValue} {entries : List JsonValue} {updates : List (String × JsonValue)}
  {operation : Operation}

lemma visible_of_isEntryOf (counts : String → Bool) (h : isEntryOf entryId entry = true) :
    visible counts entry = counts entryId := by
  obtain ⟨hobj, hid⟩ := isEntryOf_iff.1 h
  rw [visible, hobj, hid]

lemma visible_of_forall (h : ∀ entryId, isEntryOf entryId entry = true → counts entryId = true) :
    visible counts entry = true := by
  unfold visible
  split
  · next hobj hid => exact h _ (isEntryOf_iff.2 ⟨hobj, hid⟩)
  · rfl

lemma visible_update (hupdates : "id" ∉ updates.map Prod.fst) (h : isEntryOf entryId entry = true) :
    visible counts (.obj (Dict.update entry.fields updates)) = visible counts entry := by
  have hupdated : isEntryOf entryId (.obj (Dict.update entry.fields updates)) = true := by
    rw [isEntryOf_update hupdates (isEntryOf_iff.1 h).1, h]
  rw [visible_of_isEntryOf counts h, visible_of_isEntryOf counts hupdated]

/-- Updating an entry commutes with the choice of the visible ones. -/
lemma filter_updateFirst (hupdates : "id" ∉ updates.map Prod.fst) :
    (updateFirst entryId updates entries).filter (visible counts) =
      if counts entryId then updateFirst entryId updates (entries.filter (visible counts))
      else entries.filter (visible counts) := by
  induction entries with
  | nil => simp [updateFirst]
  | cons entry rest ih =>
    by_cases hentry : isEntryOf entryId entry = true
    · have hvisible := visible_of_isEntryOf counts hentry
      have hupdated := (visible_update hupdates hentry).trans hvisible
      rw [updateFirst, if_pos hentry, List.filter_cons, List.filter_cons, hupdated, hvisible]
      split_ifs with hcounts
      · rw [updateFirst, if_pos hentry]
      · rfl
    · rw [updateFirst, if_neg hentry, List.filter_cons, ih, List.filter_cons]
      split_ifs with hvisible hcounts
      · rw [updateFirst, if_neg hentry]
      · rfl
      · rfl
      · rfl

lemma any_filter_visible (hcounts : counts entryId = true) :
    (entries.filter (visible counts)).any (isEntryOf entryId) =
      entries.any (isEntryOf entryId) := by
  rw [List.any_filter]
  congr 1
  funext entry
  cases hentry : isEntryOf entryId entry with
  | false => rw [Bool.and_false]
  | true => rw [visible_of_isEntryOf counts hentry, hcounts, Bool.and_true]

lemma isEntryOf_toJournalEntry (record : RemoteJournalRecord) (state : OutboxState) :
    isEntryOf record.id
      (.obj (Dict.insert "outbox_state" (.str state.name) record.toJournalEntry)) = true := by
  refine isEntryOf_iff.2 ⟨rfl, ?_⟩
  rw [JsonValue.get_obj, Dict.lookup_insert_of_ne (by decide)]
  rfl

lemma filter_recordIntent {record : RemoteJournalRecord} :
    (entriesOf (recordIntent journal record)).filter (visible counts) =
      if counts record.id then
        entriesOf (recordIntent (some (.arr ((entriesOf journal).filter (visible counts)))) record)
      else (entriesOf journal).filter (visible counts) := by
  have hvisible := visible_of_isEntryOf counts (isEntryOf_toJournalEntry record .intent)
  simp only [recordIntent, entriesOf_arr]
  rw [List.filter_append, List.filter_cons, List.filter_nil, hvisible]
  split_ifs
  · rfl
  · rw [List.append_nil]

lemma entriesOf_mark {state : OutboxState} {record : RemoteJournalRecord}
    {policy : MissingIntentPolicy} :
    entriesOf (mark state journal entryId record policy) =
      if (entriesOf journal).any (isEntryOf entryId) then
        updateFirst entryId
          ((Dict.insert "outbox_state" (.str state.name) record.toJournalEntry).filter
            fun field => field.1 ∉ ["id", "kind"]) (entriesOf journal)
      else if policy = .recordApplied then
        entriesOf journal ++
          [.obj (Dict.insert "outbox_state" (.str state.name) record.toJournalEntry)]
      else entriesOf journal := rfl

lemma filter_mark {state : OutboxState} {record : RemoteJournalRecord}
    {policy : MissingIntentPolicy} :
    (entriesOf (mark state journal record.id record policy)).filter (visible counts) =
      if counts record.id then
        entriesOf (mark state (some (.arr ((entriesOf journal).filter (visible counts)))) record.id
          record policy)
      else (entriesOf journal).filter (visible counts) := by
  have hupdates : "id" ∉ ((Dict.insert "outbox_state" (.str state.name) record.toJournalEntry).filter
      fun field => field.1 ∉ ["id", "kind"]).map Prod.fst := by
    simp [List.mem_filter]
  have hvisible := visible_of_isEntryOf counts (isEntryOf_toJournalEntry record state)
  rw [entriesOf_mark, entriesOf_mark, entriesOf_arr]
  by_cases hcounts : counts record.id = true
  · rw [if_pos hcounts, any_filter_visible hcounts]
    split_ifs
    · rw [filter_updateFirst hupdates, if_pos hcounts]
    · rw [List.filter_append, List.filter_cons, hvisible, if_pos hcounts, List.filter_nil]
    · rfl
  · rw [if_neg hcounts]
    split_ifs
    · rw [filter_updateFirst hupdates, if_neg hcounts]
    · rw [List.filter_append, List.filter_cons, hvisible, if_neg hcounts, List.filter_nil,
        List.append_nil]
    · rfl

lemma filter_note (hupdates : "id" ∉ updates.map Prod.fst) :
    (entriesOf (note journal entryId updates)).filter (visible counts) =
      if counts entryId then
        entriesOf (note (some (.arr ((entriesOf journal).filter (visible counts)))) entryId updates)
      else (entriesOf journal).filter (visible counts) := by
  have hentries : entriesOf (note journal entryId updates) =
      updateFirst entryId updates (entriesOf journal) := by
    unfold note
    split
    · rfl
    · next hlist =>
      have hnil : entriesOf journal = [] := by
        unfold entriesOf
        split
        · exact absurd rfl (hlist _)
        · rfl
      rw [hnil]
      rfl
  rw [hentries, filter_updateFirst hupdates]
  rfl

lemma entriesOf_finalize :
    entriesOf (finalize journal entryId) =
      (entriesOf journal).filter fun entry => !isEntryOf entryId entry := by
  simp only [finalize]
  split_ifs with hempty
  · rw [List.isEmpty_iff.1 hempty]
    rfl
  · rfl

lemma filter_finalize :
    (entriesOf (finalize journal entryId)).filter (visible counts) =
      if counts entryId then
        entriesOf (finalize (some (.arr ((entriesOf journal).filter (visible counts)))) entryId)
      else (entriesOf journal).filter (visible counts) := by
  rw [entriesOf_finalize, entriesOf_finalize, entriesOf_arr, List.filter_filter, List.filter_filter]
  split_ifs with hcounts
  · simp only [Bool.and_comm]
  · refine List.filter_congr fun entry _ => ?_
    cases hentry : isEntryOf entryId entry with
    | false => simp
    | true => simp [visible_of_isEntryOf counts hentry, hcounts]

/-- An operation sees and changes only the entries with its own identifier: it commutes with the
choice of the visible entries when it counts, and leaves them alone when it does not. -/
lemma filter_perform (counts : String → Bool) (journal : Option JsonValue)
    (operation : Operation) :
    (entriesOf (perform journal operation)).filter (visible counts) =
      if counts operation.entryId then
        entriesOf (perform (some (.arr ((entriesOf journal).filter (visible counts)))) operation)
      else (entriesOf journal).filter (visible counts) := by
  have hsame : ∀ (counts : Bool) (entries : List JsonValue),
      entries = if counts then entriesOf (some (.arr entries)) else entries := by
    intro counts entries
    cases counts <;> rfl
  cases operation with
  | recordIntent record => exact filter_recordIntent
  | markRemoteSucceeded entryId record policy | markApplied entryId record policy =>
    by_cases hid : record.id = entryId
    · subst hid
      simp only [perform, Operation.apply, ne_eq, not_true_eq_false, if_false]
      exact filter_mark
    · simp only [perform, Operation.apply, ne_eq, hid, not_false_eq_true, if_true]
      exact hsame _ _
  | markUncertain entryId uncertainty => exact filter_note (by simp)
  | markCleanupFailure entryId cleanupFailure => exact filter_note (by simp)
  | finalize entryId => exact filter_finalize

/-- Only the entries of a journal matter to an operation. -/
lemma entriesOf_perform_congr (h : entriesOf journal = entriesOf journal')
    (operation : Operation) :
    entriesOf (perform journal operation) = entriesOf (perform journal' operation) := by
  have hall : ∀ entries : List JsonValue, entries.filter (visible fun _ => true) = entries := by
    intro entries
    exact List.filter_eq_self.2 fun entry _ => visible_of_forall fun _ _ => rfl
  have hleft := filter_perform (fun _ => true) journal operation
  have hright := filter_perform (fun _ => true) journal' operation
  rw [if_pos rfl, hall, hall] at hleft hright
  rw [hleft, hright, h]

lemma entriesOf_performAll_congr (operations : List Operation)
    (h : entriesOf journal = entriesOf journal') :
    entriesOf (performAll journal operations) = entriesOf (performAll journal' operations) := by
  induction operations generalizing journal journal' with
  | nil => exact h
  | cons operation operations ih => exact ih (entriesOf_perform_congr h operation)

/-- The visible entries after some operations are those that the operations that count leave of
the visible entries before. -/
theorem filter_performAll (counts : String → Bool) (journal : Option JsonValue)
    (operations : List Operation) :
    (entriesOf (performAll journal operations)).filter (visible counts) =
      entriesOf (performAll (some (.arr ((entriesOf journal).filter (visible counts))))
        (operations.filter fun operation => counts operation.entryId)) := by
  induction operations generalizing journal with
  | nil => rfl
  | cons operation operations ih =>
    have hstep := filter_perform counts journal operation
    rw [show performAll journal (operation :: operations) =
      performAll (perform journal operation) operations from rfl, ih, hstep, List.filter_cons]
    split_ifs
    · exact entriesOf_performAll_congr _ rfl
    · rfl

/-- Entries that are visible with some identifiers do not depend on the operations with others. -/
lemma filter_performAll_of_visible {counts : String → Bool} {wanted : JsonValue → Bool}
    (hwanted : ∀ entry, wanted entry = true → visible counts entry = true)
    (journal : Option JsonValue) (operations : List Operation) :
    (entriesOf (performAll journal operations)).filter wanted =
      (entriesOf (performAll journal
        (operations.filter fun operation => counts operation.entryId))).filter wanted := by
  have hvisible : ∀ entries : List JsonValue,
      entries.filter wanted = (entries.filter (visible counts)).filter wanted := by
    intro entries
    rw [List.filter_filter]
    refine List.filter_congr fun entry _ => ?_
    cases hentry : wanted entry with
    | false => rfl
    | true => rw [hwanted entry hentry, Bool.and_true]
  rw [hvisible, hvisible (entriesOf (performAll journal (operations.filter _))),
    filter_performAll, filter_performAll, List.filter_filter]
  simp only [Bool.and_self]

/-! ## Isolation -/

/-- The entries of a transaction, in the order of the journal. -/
def entriesWith (entryId : String) (journal : Option JsonValue) : List JsonValue :=
  (entriesOf journal).filter (isEntryOf entryId)

/-- All other entries, in the order of the journal. -/
def entriesWithout (entryId : String) (journal : Option JsonValue) : List JsonValue :=
  (entriesOf journal).filter fun entry => !isEntryOf entryId entry

/-- Whatever the order of the operations: the entries of a transaction are those that its own
operations leave when they are performed alone, all other entries are as if its operations had not
been performed, and the entries of no operation stay as they were. -/
theorem isolated (journal : Option JsonValue) (operations : List Operation) :
    (∀ entryId, entriesWith entryId (performAll journal operations) =
      entriesWith entryId (performAll journal
        (operations.filter fun operation => operation.entryId = entryId))) ∧
    (∀ entryId, entriesWithout entryId (performAll journal operations) =
      entriesWithout entryId (performAll journal
        (operations.filter fun operation => operation.entryId ≠ entryId))) ∧
    (entriesOf (performAll journal operations)).filter
        (fun entry => operations.all fun operation => !isEntryOf operation.entryId entry) =
      (entriesOf journal).filter
        (fun entry => operations.all fun operation => !isEntryOf operation.entryId entry) := by
  -- each projection sees only the operations whose entries it lets through
  refine ⟨fun entryId => ?_, fun entryId => ?_, ?_⟩
  · have hwanted : ∀ entry, isEntryOf entryId entry = true →
        visible (fun other => decide (other = entryId)) entry = true := by
      intro entry hentry
      rw [visible_of_isEntryOf _ hentry, decide_eq_true rfl]
    exact filter_performAll_of_visible hwanted journal operations
  · have hwanted : ∀ entry, (!isEntryOf entryId entry) = true →
        visible (fun other => decide (other ≠ entryId)) entry = true := by
      intro entry hentry
      refine visible_of_forall fun other hother => decide_eq_true ?_
      rintro rfl
      simp [hother] at hentry
    exact filter_performAll_of_visible hwanted journal operations
  · have hwanted : ∀ entry,
        (operations.all fun operation => !isEntryOf operation.entryId entry) = true →
        visible (fun other => decide (other ∉ operations.map Operation.entryId)) entry = true := by
      intro entry hentry
      refine visible_of_forall fun other hother => decide_eq_true fun hmem => ?_
      obtain ⟨operation, hoperation, rfl⟩ := List.mem_map.1 hmem
      have hnot := List.all_eq_true.1 hentry operation hoperation
      simp [hother] at hnot
    have hnone : (operations.filter fun operation =>
        decide (operation.entryId ∉ operations.map Operation.entryId)) = [] := by
      refine List.filter_eq_nil_iff.2 fun operation hmem => ?_
      simpa using ⟨operation, hmem, rfl⟩
    have hkept := filter_performAll_of_visible hwanted journal operations
    rw [hnone] at hkept
    exact hkept

end RemoteMutationJournal

/-! ## What is persisted -/

namespace JournalMutation

variable {F U : Type} {handlers : JournalHandlers F U} {field field' : JournalField} {now : String}
  {run left : Run} {mutation : JournalMutation F U}

/-- A mutation does not mark its entry with the record of another one. -/
def MarksOwn (mutation : JournalMutation F U) : Prop :=
  (∀ entryId record update policy, mutation = .markApplied entryId record update policy →
    record.id = entryId) ∧
  ∀ entryId record policy, mutation = .markRemoteSucceeded entryId record policy →
    record.id = entryId

/-- A persisted mutation performs an operation of its transaction on its journal, and leaves the
other journal alone. -/
theorem exists_perform_of_apply (hown : mutation.MarksOwn)
    (h : mutation.apply handlers field now run = .ok left) :
    (∃ operation : RemoteMutationJournal.Operation, operation.entryId = mutation.entryId ∧
      left.journal field = RemoteMutationJournal.perform (run.journal field) operation) ∧
    ∀ field', field ≠ field' → left.journal field' = run.journal field' := by
  by_cases hintent : ∃ entryId kind factory, mutation = .recordIntent entryId kind factory
  · obtain ⟨entryId, kind, factory, rfl⟩ := hintent
    obtain ⟨intent, -, hid, rfl⟩ := recordIntent_eq_ok h
    refine ⟨⟨.recordIntent intent, hid, Run.journal_setJournal_self⟩, fun field' hne => ?_⟩
    exact Run.journal_setJournal_of_ne hne
  · obtain ⟨updated, hupdate, rfl⟩ := apply_eq_ok
      (fun entryId kind factory heq => hintent ⟨entryId, kind, factory, heq⟩) h
    have hjournal : ∀ field, updated.journal field = run.journal field := by
      intro field
      cases hmutation : mutation.update with
      | none =>
        rw [hmutation] at hupdate
        cases hupdate
        rfl
      | some update =>
        rw [hmutation] at hupdate
        exact handlers.journal_updateOf _ _ _ hupdate field
    refine ⟨?_, fun field' hne => ?_⟩
    · rw [Run.journal_setJournal_self, hjournal]
      cases mutation with
      | recordIntent entryId kind factory => exact absurd ⟨entryId, kind, factory, rfl⟩ hintent
      | markApplied entryId record update policy =>
        refine ⟨.markApplied entryId record policy, rfl, ?_⟩
        simp [RemoteMutationJournal.perform, RemoteMutationJournal.Operation.apply, applyJournal,
          hown.1 entryId record update policy rfl]
      | markRemoteSucceeded entryId record policy =>
        refine ⟨.markRemoteSucceeded entryId record policy, rfl, ?_⟩
        simp [RemoteMutationJournal.perform, RemoteMutationJournal.Operation.apply, applyJournal,
          hown.2 entryId record policy rfl]
      | finalize entryId update => exact ⟨.finalize entryId, rfl, rfl⟩
      | markUncertain entryId uncertainty => exact ⟨.markUncertain entryId uncertainty, rfl, rfl⟩
      | markCleanupFailure entryId failure => exact ⟨.markCleanupFailure entryId failure, rfl, rfl⟩
    · rw [Run.journal_setJournal_of_ne hne, hjournal]

end JournalMutation

end OpencodeSession
