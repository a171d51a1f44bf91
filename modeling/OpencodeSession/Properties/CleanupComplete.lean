import OpencodeSession.Cleanup.Requests
import OpencodeSession.Framework.Traces

/-!
# A cleanup that succeeds is complete

An apply that exits with 0 has completed every planned resource, and whatever it lists as completed
is gone for a reason that its exchanges since the start of its audit show: a removal that succeeded,
a deletion that was verified, or a look that found nothing.  The record of the run is deleted only
by such an apply.

A resource that is passed over without being completed is blocked, and nothing is blocked without an
error (`blocking_justified`), so what carries the proof is `Progress`: errors stay, completed
resources stay, and while there is no error the resources that are done with are completed.
-/

namespace OpencodeSession

namespace CleanupComplete

open Process

/-- The exchanges of a cleanup. -/
abbrev CleanupTrace : Type := List (Exchange cleanupInterface)

/-! ## Why a resource is gone -/

/-- Reading the session was answered with 404. -/
def SessionGone (trace : CleanupTrace) (sessionId : String) : Prop :=
  ∃ error : PyError, (⟨.getSession sessionId, .error error⟩ : Exchange cleanupInterface) ∈ trace ∧
    error.isOpenCodeApiError = true ∧ error.apiStatus = some 404

/-- Removing the worktree succeeded, or its path was missing and git did not have it registered. -/
def WorktreeGone (trace : CleanupTrace) (record : WorktreeRecord) : Prop :=
  (∃ force, (CleanupLocal.runGit (.removeWorktree record.gitDir force record.path)).Observed none
    trace) ∨
  ((Cleanup.pathExists (.ofText record.path)).Observed false trace ∧
    (CleanupLocal.worktreeIsRegistered record).Observed false trace)

/-- Deleting the branch succeeded, by a transaction or by itself, or git did not find it. -/
def BranchGone (trace : CleanupTrace) (record : WorktreeRecord) : Prop :=
  (∃ transaction : BranchDeleteTransaction, transaction.gitDir = record.gitDir ∧
    transaction.branch = record.branch ∧ transaction.commit.Observed none trace) ∨
  (∃ tip, (CleanupLocal.runGit (.deleteRef record.gitDir record.branch tip)).Observed none trace) ∨
  (CleanupLocal.branchTip record).Observed none trace

/-- The cleanup of the project copy was verified. -/
def ProjectGone (trace : CleanupTrace) (entry : ProjectCopyRecord) : Prop :=
  ∃ serverUrl outcome, ∃ result : ProjectResult,
    (⟨.applyProject entry serverUrl outcome, .ok result⟩ : Exchange cleanupInterface) ∈ trace ∧
      result.verified = true

/-- Unlinking the log succeeded, or neither a file nor a link was there. -/
def LogGone (trace : CleanupTrace) (record : LogRecord) : Prop :=
  (Cleanup.unlink (.ofText record.path)).Observed () trace ∨
    (CleanupLocal.logIsThere record).Observed false trace

/-- Every completed resource is gone for a reason. -/
structure Justified (trace : CleanupTrace) (completed : Completed) : Prop where
  sessions : ∀ sessionId ∈ completed.sessions, SessionGone trace sessionId
  worktrees : ∀ record ∈ completed.worktrees, WorktreeGone trace record
  branches : ∀ record ∈ completed.branches, BranchGone trace record
  projectMetadata : ∀ entry ∈ completed.projectMetadata, ProjectGone trace entry
  logs : ∀ record ∈ completed.logs, LogGone trace record

/-- Every planned resource is completed; a branch under its repository and its name. -/
structure AllCompleted (plan : CleanupPlan) (completed : Completed) : Prop where
  sessions : ∀ sessionId ∈ plan.sessions, sessionId ∈ completed.sessions
  worktrees : ∀ record ∈ plan.worktrees, record ∈ completed.worktrees
  branches : ∀ record ∈ plan.branches,
    record.branchIdentity ∈ completed.branches.map WorktreeRecord.branchIdentity
  projectMetadata : ∀ entry ∈ plan.projectMetadata, entry ∈ completed.projectMetadata
  logs : ∀ record ∈ plan.logs, record ∈ completed.logs

/-- An exchange in which the start of an audit is written. -/
def startsAudit : Exchange cleanupInterface → Bool
  | ⟨.audit (.start _ _), .committed _⟩ => true
  | _ => false

/-- The exchanges from the written start of the audit on. -/
def sinceStart (trace : CleanupTrace) : CleanupTrace := trace.dropWhile fun x => !startsAudit x

/-- A cleanup that applies a plan: it exits with 0 only if every planned resource is completed; what
is completed is gone, as the exchanges since the start of its audit show; and where it asks for the
deletion of the record, a deletion that succeeds is a cleanup that exits with 0. -/
structure AppliesCompletely (plan : CleanupPlan) (p : Cleanup RunCleanupResult) : Prop where
  complete : ∀ trace result, p.Returns trace result → result.exitCode = 0 →
    AllCompleted plan result.record.completed
  justified : ∀ trace result, p.Returns trace result →
    Justified (sinceStart trace) result.record.completed
  deletes : ∀ trace expectedRun resume, p.Trace trace (.call (.deleteRun expectedRun) resume) →
    ∃ result, resume (.ok ()) = .done result ∧ result.exitCode = 0

variable {trace more : CleanupTrace}

lemma SessionGone.append {sessionId : String} (h : SessionGone trace sessionId) :
    SessionGone (trace ++ more) sessionId := by
  obtain ⟨error, hmem, herror⟩ := h
  exact ⟨error, List.mem_append_left _ hmem, herror⟩

lemma WorktreeGone.append {record : WorktreeRecord} (h : WorktreeGone trace record) :
    WorktreeGone (trace ++ more) record := by
  rcases h with ⟨force, h⟩ | ⟨hpath, hregistered⟩
  · exact .inl ⟨force, h.append_right more⟩
  · exact .inr ⟨hpath.append_right more, hregistered.append_right more⟩

lemma BranchGone.append {record : WorktreeRecord} (h : BranchGone trace record) :
    BranchGone (trace ++ more) record := by
  rcases h with ⟨transaction, hgitDir, hbranch, h⟩ | ⟨tip, h⟩ | h
  · exact .inl ⟨transaction, hgitDir, hbranch, h.append_right more⟩
  · exact .inr (.inl ⟨tip, h.append_right more⟩)
  · exact .inr (.inr (h.append_right more))

lemma ProjectGone.append {entry : ProjectCopyRecord} (h : ProjectGone trace entry) :
    ProjectGone (trace ++ more) entry := by
  obtain ⟨serverUrl, outcome, result, hmem, hverified⟩ := h
  exact ⟨serverUrl, outcome, result, List.mem_append_left _ hmem, hverified⟩

lemma LogGone.append {record : LogRecord} (h : LogGone trace record) :
    LogGone (trace ++ more) record := by
  rcases h with h | h
  · exact .inl (h.append_right more)
  · exact .inr (h.append_right more)

lemma Justified.append {completed : Completed} (h : Justified trace completed) :
    Justified (trace ++ more) completed where
  sessions sessionId hmem := (h.sessions sessionId hmem).append
  worktrees record hmem := (h.worktrees record hmem).append
  branches record hmem := (h.branches record hmem).append
  projectMetadata entry hmem := (h.projectMetadata entry hmem).append
  logs record hmem := (h.logs record hmem).append

lemma justified_empty : Justified trace {} where
  sessions _ hmem := absurd hmem List.not_mem_nil
  worktrees _ hmem := absurd hmem List.not_mem_nil
  branches _ hmem := absurd hmem List.not_mem_nil
  projectMetadata _ hmem := absurd hmem List.not_mem_nil
  logs _ hmem := absurd hmem List.not_mem_nil

/-! ## What stays -/

/-- What is completed stays completed. -/
structure Keeps (completed completed' : Completed) : Prop where
  sessions : completed.sessions ⊆ completed'.sessions
  worktrees : completed.worktrees ⊆ completed'.worktrees
  branches : completed.branches ⊆ completed'.branches
  projectMetadata : completed.projectMetadata ⊆ completed'.projectMetadata
  logs : completed.logs ⊆ completed'.logs

lemma Keeps.refl (completed : Completed) : Keeps completed completed where
  sessions := List.Subset.refl _
  worktrees := List.Subset.refl _
  branches := List.Subset.refl _
  projectMetadata := List.Subset.refl _
  logs := List.Subset.refl _

lemma Keeps.trans {a b c : Completed} (h : Keeps a b) (h' : Keeps b c) : Keeps a c where
  sessions := List.Subset.trans h.sessions h'.sessions
  worktrees := List.Subset.trans h.worktrees h'.worktrees
  branches := List.Subset.trans h.branches h'.branches
  projectMetadata := List.Subset.trans h.projectMetadata h'.projectMetadata
  logs := List.Subset.trans h.logs h'.logs

/-- From one record to a later one, with the exchanges in between: errors and completed resources
stay, what is new is justified, and without errors something is done. -/
structure Progress (before : CleanupRecord) (trace : CleanupTrace) (done : Completed → Prop)
    (after : CleanupRecord) : Prop where
  errors : after.errors = [] → before.errors = []
  completed : Keeps before.completed after.completed
  justified : ∀ earlier, Justified earlier before.completed →
    Justified (earlier ++ trace) after.completed
  done : after.errors = [] → done after.completed

/-- Once something is done it is done for good. -/
def Lasting (done : Completed → Prop) : Prop :=
  ∀ completed completed', Keeps completed completed' → done completed → done completed'

namespace Progress

variable {record mid after : CleanupRecord} {done done' : Completed → Prop}

lemma unchanged (h : record.errors = [] → done record.completed) :
    Progress record trace done record where
  errors h := h
  completed := Keeps.refl _
  justified _ hjustified := hjustified.append
  done := h

lemma of_same (herrors : after.errors = record.errors)
    (hcompleted : after.completed = record.completed) :
    Progress record trace (fun _ => True) after where
  errors h := herrors ▸ h
  completed := hcompleted ▸ Keeps.refl _
  justified _ hjustified := hcompleted ▸ hjustified.append
  done _ := trivial

lemma of_errors (hcompleted : after.completed = record.completed) (herrors : after.errors ≠ []) :
    Progress record trace done after where
  errors h := absurd h herrors
  completed := hcompleted ▸ Keeps.refl _
  justified _ hjustified := hcompleted ▸ hjustified.append
  done h := absurd h herrors

lemma block (category : String) (resource : JsonValue) (error : String) :
    Progress record trace done (record.block category resource error) :=
  of_errors rfl (by simp [CleanupRecord.block, addError])

lemma trans (h : Progress record trace done mid) (h' : Progress mid more done' after)
    (hdone : Lasting done) :
    Progress record (trace ++ more) (fun completed => done completed ∧ done' completed) after where
  errors herrors := h.errors (h'.errors herrors)
  completed := h.completed.trans h'.completed
  justified earlier hjustified := by
    rw [← List.append_assoc]
    exact h'.justified _ (h.justified _ hjustified)
  done herrors := ⟨hdone _ _ h'.completed (h.done (h'.errors herrors)), h'.done herrors⟩

lemma after_trace (earlier : CleanupTrace) (h : Progress record trace done after) :
    Progress record (earlier ++ trace) done after where
  errors := h.errors
  completed := h.completed
  justified front hjustified := by
    rw [← List.append_assoc]
    exact h.justified _ hjustified.append
  done := h.done

lemma mono (h : Progress record trace done after) (hdone : ∀ completed, done completed →
    done' completed) : Progress record trace done' after :=
  ⟨h.errors, h.completed, h.justified, fun herrors => hdone _ (h.done herrors)⟩

lemma then_more (h : Progress record trace done mid) (h' : Progress mid more (fun _ => True) after)
    (hdone : Lasting done) : Progress record (trace ++ more) done after :=
  (h.trans h' hdone).mono fun _ hboth => hboth.1

/-- What a record does besides completing a worktree. -/
lemma completeWorktree (h : Progress record trace (fun _ => True) after) {worktree : WorktreeRecord}
    (hgone : ∀ earlier, WorktreeGone (earlier ++ trace) worktree) :
    Progress record trace (fun completed => worktree ∈ completed.worktrees)
      (after.completeWorktree worktree) where
  errors := h.errors
  completed :=
    { h.completed with
      worktrees := List.Subset.trans h.completed.worktrees (List.subset_append_left _ _) }
  justified earlier hjustified :=
    { h.justified earlier hjustified with
      worktrees := by
        intro record' hmem
        rcases List.mem_append.1 hmem with hmem | hmem
        · exact (h.justified earlier hjustified).worktrees record' hmem
        · rw [List.mem_singleton.1 hmem]
          exact hgone earlier }
  done _ := List.mem_append_right _ (List.mem_singleton.2 rfl)

/-- What a record does besides completing a branch. -/
lemma completeBranch (h : Progress record trace (fun _ => True) after) {branch : WorktreeRecord}
    (hgone : ∀ earlier, BranchGone (earlier ++ trace) branch) :
    Progress record trace
      (fun completed => branch.branchIdentity ∈ completed.branches.map WorktreeRecord.branchIdentity)
      (after.completeBranch branch) where
  errors := h.errors
  completed :=
    { h.completed with
      branches := List.Subset.trans h.completed.branches (List.subset_append_left _ _) }
  justified earlier hjustified :=
    { h.justified earlier hjustified with
      branches := by
        intro record' hmem
        rcases List.mem_append.1 hmem with hmem | hmem
        · exact (h.justified earlier hjustified).branches record' hmem
        · rw [List.mem_singleton.1 hmem]
          exact hgone earlier }
  done _ := List.mem_map.2 ⟨branch, List.mem_append_right _ (List.mem_singleton.2 rfl), rfl⟩

/-- A log is completed. -/
lemma completeLog {log : LogRecord} (hgone : ∀ earlier, LogGone (earlier ++ trace) log) :
    Progress record trace (fun completed => log ∈ completed.logs) (record.completeLog log) where
  errors h := h
  completed := { Keeps.refl _ with logs := List.subset_append_left _ _ }
  justified earlier hjustified :=
    { hjustified.append with
      logs := by
        intro record' hmem
        rcases List.mem_append.1 hmem with hmem | hmem
        · exact (hjustified.logs record' hmem).append
        · rw [List.mem_singleton.1 hmem]
          exact hgone earlier }
  done _ := List.mem_append_right _ (List.mem_singleton.2 rfl)

/-- A project copy is completed. -/
lemma completeProject (h : Progress record trace (fun _ => True) after) {entry : ProjectCopyRecord}
    (hgone : ∀ earlier, ProjectGone (earlier ++ trace) entry) :
    Progress record trace (fun completed => entry ∈ completed.projectMetadata)
      (after.completeProject entry) where
  errors := h.errors
  completed :=
    { h.completed with
      projectMetadata := List.Subset.trans h.completed.projectMetadata (List.subset_append_left _ _) }
  justified earlier hjustified :=
    { h.justified earlier hjustified with
      projectMetadata := by
        intro record' hmem
        rcases List.mem_append.1 hmem with hmem | hmem
        · exact (h.justified earlier hjustified).projectMetadata record' hmem
        · rw [List.mem_singleton.1 hmem]
          exact hgone earlier }
  done _ := List.mem_append_right _ (List.mem_singleton.2 rfl)

/-- A loop over resources: without errors in the end each of them is done with.  What is known of a
record without errors at the start is known of each record on the way. -/
lemma foldlM {α : Type} {step : CleanupRecord → α → Cleanup CleanupRecord} {items : List α}
    {D : α → Completed → Prop} {P : Prop} (hlasting : ∀ item, Lasting (D item))
    (hstep : ∀ item ∈ items, ∀ record after block, (record.errors = [] → P) →
      (step record item).Returns block after → Progress record block (D item) after)
    (hrecord : record.errors = [] → P) (h : (items.foldlM step record).Returns trace after) :
    Progress record trace (fun completed => ∀ item ∈ items, D item completed) after := by
  refine returns_foldlM (J := fun front record' trace' =>
    Progress record trace' (fun completed => ∀ item ∈ front, D item completed) record')
    (unchanged fun _ _ hmem => absurd hmem List.not_mem_nil) ?_ h
  intro front item rest mid after' trace' block hitems hprogress hreturns
  have hnext := hstep item (by simp [hitems]) mid after' block
    (fun herrors => hrecord (hprogress.errors herrors)) hreturns
  have hlast : Lasting fun completed => ∀ item ∈ front, D item completed :=
    fun _ _ hkeeps hdone item hmem => hlasting item _ _ hkeeps (hdone item hmem)
  refine (hprogress.trans hnext hlast).mono fun completed hboth => ?_
  rintro item' hmem
  rcases List.mem_append.1 hmem with hmem | hmem
  · exact hboth.1 item' hmem
  · rw [List.mem_singleton.1 hmem]
    exact hboth.2

end Progress

/-! ## The removal of one resource -/

section Removal

open CleanupLocal

variable {record after : CleanupRecord} {block : CleanupTrace}

/-- A handler of store errors returns a value only from the process. -/
lemma returns_handlingStoreErrors {α : Type} {p : Cleanup α} {a : α}
    (h : (handlingStoreErrors p).Returns trace (.ok a)) : p.Returns trace a := by
  obtain ⟨front, rest, r, rfl, hattempt, h⟩ := returns_bind.1 h
  rcases returns_attempt.1 hattempt with ⟨a', rfl, ha⟩ | ⟨e, rfl, -⟩
  · obtain ⟨rfl, hsame⟩ := returns_pure.1 h
    cases hsame
    rwa [List.append_nil]
  · split at h
    · cases ‹Except.error _ = Except.ok _›
    · cases (returns_pure.1 h).2
    · exact absurd h not_returns_throw

/-- A transaction that is prepared is the one that was asked for. -/
lemma prepare_eq {transaction prepared : BranchDeleteTransaction} {error : Option String}
    (h : transaction.prepare.Returns trace (some prepared, error)) : prepared = transaction := by
  obtain ⟨front, rest, valid, rfl, -, h⟩ := returns_bind.1 h
  split_ifs at h
  · cases (returns_pure.1 h).2
  · obtain ⟨first, last, answer, rfl, -, h⟩ := returns_bind.1 h
    cases answer with
    | error error =>
      dsimp only at h
      split_ifs at h
      · cases (returns_pure.1 h).2
      · exact absurd h not_returns_throw
    | ok responses =>
      dsimp only at h
      split_ifs at h
      · obtain ⟨_, _, _, rfl, -, h⟩ := returns_bind.1 h
        cases (returns_pure.1 h).2
      · cases (returns_pure.1 h).2
        rfl

/-- A finished removal of a verified worktree. -/
lemma progress_removeVerifiedWorktree {force : Bool} {worktree : WorktreeRecord}
    {branch : Option (DeletableBranch × BranchDeleteTransaction)}
    (hbranch : ∀ b transaction, branch = some (b, transaction) → transaction = b.transaction)
    (h : (removeVerifiedWorktree force record worktree branch).Returns block after) :
    Progress record block (fun completed => worktree ∈ completed.worktrees) after := by
  obtain ⟨front, rest, error, rfl, hremove, h⟩ := returns_bind.1 h
  have hgone : ∀ earlier, WorktreeGone (earlier ++ front) worktree →
      WorktreeGone (earlier ++ (front ++ rest)) worktree := by
    intro earlier hgone
    rw [← List.append_assoc]
    exact hgone.append
  cases error with
  | some error =>
    obtain ⟨first, last, _, rfl, -, h⟩ := returns_bind.1 h
    obtain ⟨rfl, rfl⟩ := returns_pure.1 h
    exact .block _ _ _
  | none =>
    -- the worktree is removed before its branch, whose failure does not undo it
    have hremoved : ∀ earlier, WorktreeGone (earlier ++ front) worktree := fun earlier =>
      .inl ⟨force, hremove.observed.append_left earlier⟩
    cases branch with
    | none =>
      obtain ⟨rfl, rfl⟩ := returns_pure.1 h
      exact (Progress.unchanged fun _ => trivial).completeWorktree fun earlier =>
        hgone earlier (hremoved earlier)
    | some found =>
      obtain ⟨b, transaction⟩ := found
      obtain ⟨first, last, result, rfl, hcommit, h⟩ := returns_bind.1 h
      cases result with
      | some error =>
        obtain ⟨rfl, rfl⟩ := returns_pure.1 h
        exact (Progress.block _ _ _).completeWorktree fun earlier =>
          hgone earlier (hremoved earlier)
      | none =>
        obtain ⟨rfl, rfl⟩ := returns_pure.1 h
        obtain rfl := hbranch b transaction rfl
        have hdeleted : ∀ earlier, BranchGone (earlier ++ (front ++ (first ++ []))) b.record := by
          intro earlier
          exact .inl ⟨b.transaction, rfl, rfl,
            ((hcommit.observed.append_right []).append_left front).append_left earlier⟩
        exact ((Progress.unchanged fun _ => trivial).completeBranch hdeleted).mono
          (fun _ _ => trivial) |>.completeWorktree fun earlier => hgone earlier (hremoved earlier)

/-- A worktree with a branch is removed when the deletion of the branch is prepared. -/
lemma progress_removeWorktreeWithBranch {force : Bool} {worktree : WorktreeRecord}
    {branch : DeletableBranch}
    (h : (removeWorktreeWithBranch force record worktree branch).Returns block after) :
    Progress record block (fun completed => worktree ∈ completed.worktrees) after := by
  obtain ⟨front, rest, ⟨transaction, error⟩, rfl, hprepare, h⟩ := returns_bind.1 h
  cases error with
  | some error =>
    obtain ⟨rfl, rfl⟩ := returns_pure.1 h
    exact .block _ _ _
  | none =>
    obtain ⟨verify, rest, error, rfl, -, h⟩ := returns_bind.1 h
    cases error with
    | some error =>
      cases transaction with
      | none => exact absurd h not_returns_throw
      | some transaction =>
        obtain ⟨first, last, _, rfl, -, h⟩ := returns_bind.1 h
        obtain ⟨rfl, rfl⟩ := returns_pure.1 h
        exact .block _ _ _
    | none =>
      have hremoved := progress_removeVerifiedWorktree (by
        intro b t hmap
        obtain ⟨t', rfl, hpair⟩ := Option.map_eq_some_iff.1 hmap
        cases hpair
        exact prepare_eq hprepare) h
      exact (Progress.after_trace front (Progress.after_trace verify hremoved))

/-- A missing worktree is completed when git does not have it registered. -/
lemma progress_completeMissingWorktree {worktree : WorktreeRecord}
    {branch : Option DeletableBranch}
    (hmissing : (Cleanup.pathExists (.ofText worktree.path)).Returns trace false)
    (h : (completeMissingWorktree record worktree branch).Returns block after) :
    Progress record (trace ++ block) (fun completed => worktree ∈ completed.worktrees) after := by
  cases branch with
  | some branch =>
    obtain ⟨rfl, rfl⟩ := returns_pure.1 h
    exact .of_errors rfl (by simp [CleanupRecord.block, addError])
  | none =>
    obtain ⟨front, rest, registered, rfl, hregistered, h⟩ := returns_bind.1 h
    match registered, hregistered, h with
    | .error error, _, h =>
      obtain ⟨rfl, rfl⟩ := returns_pure.1 h
      exact .block _ _ _
    | .ok true, _, h =>
      obtain ⟨rfl, rfl⟩ := returns_pure.1 h
      exact .block _ _ _
    | .ok false, hregistered, h =>
      obtain ⟨rfl, rfl⟩ := returns_pure.1 h
      refine (Progress.unchanged fun _ => trivial).completeWorktree fun earlier => .inr ⟨?_, ?_⟩
      · exact (hmissing.observed.append_right _).append_left earlier
      · rw [List.append_nil]
        exact ((returns_handlingStoreErrors hregistered).observed.append_left _).append_left earlier

/-- One record of the worktrees. -/
lemma progress_removeWorktree {blocked : List String} {force : Bool}
    {branches : String → Option DeletableBranch} {worktree : WorktreeRecord}
    (hblocked : record.errors = [] → blocked = [])
    (h : (removeWorktree blocked force branches record worktree).Returns block after) :
    Progress record block (fun completed => worktree ∈ completed.worktrees) after := by
  unfold removeWorktree at h
  split_ifs at h with hmem
  · obtain ⟨rfl, rfl⟩ := returns_pure.1 h
    refine .unchanged fun herrors => ?_
    rw [hblocked herrors] at hmem
    exact absurd hmem List.not_mem_nil
  · obtain ⟨front, rest, there, rfl, hthere, h⟩ := returns_bind.1 h
    cases there with
    | false => exact progress_completeMissingWorktree hthere h
    | true =>
      obtain ⟨verify, rest, error, rfl, -, h⟩ := returns_bind.1 h
      cases error with
      | some error =>
        obtain ⟨rfl, rfl⟩ := returns_pure.1 h
        exact .block _ _ _
      | none =>
        refine Progress.after_trace front (Progress.after_trace verify ?_)
        dsimp only at h
        split at h
        · exact progress_removeVerifiedWorktree (fun _ _ hnone => by cases hnone) h
        · exact progress_removeWorktreeWithBranch h

/-- One record of the branches. -/
lemma progress_removeBranch {blocked : List (String × String)}
    {expectedTips : List ((String × String) × String)} {branch : WorktreeRecord}
    (hnamed : branch.branch ≠ "") (hblocked : record.errors = [] → blocked = [])
    (h : (removeBranch blocked expectedTips record branch).Returns block after) :
    Progress record block (fun completed =>
      branch.branchIdentity ∈ completed.branches.map WorktreeRecord.branchIdentity) after := by
  unfold removeBranch at h
  split_ifs at h with hsettled
  · obtain ⟨rfl, rfl⟩ := returns_pure.1 h
    refine .unchanged fun herrors => ?_
    rw [branchIsSettled, hblocked herrors, herrors] at hsettled
    obtain ⟨completed, hmem, hsame⟩ : ∃ completed ∈ after.completed.branches,
        completed.branchIdentity = branch.branchIdentity := by simpa using hsettled
    exact List.mem_map.2 ⟨completed, hmem, hsame⟩
  · obtain ⟨front, rest, found, rfl, hfound, h⟩ := returns_bind.1 h
    rcases found with error | (_ | tip)
    · obtain ⟨rfl, rfl⟩ := returns_pure.1 h
      exact .block _ _ _
    · obtain ⟨rfl, rfl⟩ := returns_pure.1 h
      -- the branch was gone when its tip was looked up
      have habsent := returns_handlingStoreErrors hfound
      rw [namedBranchTip, if_neg hnamed] at habsent
      refine (Progress.unchanged fun _ => trivial).completeBranch fun earlier => .inr (.inr ?_)
      exact (habsent.observed.append_right []).append_left earlier
    · obtain ⟨verify, rest, error, rfl, -, h⟩ := returns_bind.1 h
      cases error with
      | some error =>
        obtain ⟨rfl, rfl⟩ := returns_pure.1 h
        exact .block _ _ _
      | none =>
        dsimp only at h
        split_ifs at h with htip
        · obtain ⟨rfl, rfl⟩ := returns_pure.1 h
          exact .block _ _ _
        · obtain ⟨delete, rest, error, rfl, hdelete, h⟩ := returns_bind.1 h
          cases error with
          | some error =>
            obtain ⟨rfl, rfl⟩ := returns_pure.1 h
            exact .block _ _ _
          | none =>
            obtain ⟨rfl, rfl⟩ := returns_pure.1 h
            refine Progress.after_trace front (Progress.after_trace verify ?_)
            refine (Progress.unchanged fun _ => trivial).completeBranch fun earlier =>
              .inr (.inl ⟨tip, ?_⟩)
            exact (hdelete.observed.append_right []).append_left earlier

/-- One record of the logs. -/
lemma progress_removeLog {blocked : List String} {log : LogRecord}
    (hblocked : record.errors = [] → blocked = [])
    (h : (removeLog blocked record log).Returns block after) :
    Progress record block (fun completed => log ∈ completed.logs) after := by
  unfold removeLog at h
  split_ifs at h with hmem
  · obtain ⟨rfl, rfl⟩ := returns_pure.1 h
    refine .unchanged fun herrors => ?_
    rw [hblocked herrors] at hmem
    exact absurd hmem List.not_mem_nil
  · obtain ⟨front, rest, there, rfl, hthere, h⟩ := returns_bind.1 h
    cases there with
    | false =>
      obtain ⟨rfl, rfl⟩ := returns_pure.1 h
      exact .completeLog fun earlier =>
        .inr ((hthere.observed.append_right []).append_left earlier)
    | true =>
      obtain ⟨verify, rest, error, rfl, -, h⟩ := returns_bind.1 h
      cases error with
      | some error =>
        obtain ⟨rfl, rfl⟩ := returns_pure.1 h
        exact .block _ _ _
      | none =>
        obtain ⟨remove, rest, answer, rfl, hremove, h⟩ := returns_bind.1 h
        refine Progress.after_trace front (Progress.after_trace verify ?_)
        rcases returns_attempt.1 hremove with ⟨⟨⟩, rfl, hremoved⟩ | ⟨error, rfl, -⟩
        · obtain ⟨rfl, rfl⟩ := returns_pure.1 h
          exact .completeLog fun earlier =>
            .inl ((hremoved.observed.append_right []).append_left earlier)
        · dsimp only at h
          split_ifs at h
          · obtain ⟨rfl, rfl⟩ := returns_pure.1 h
            exact .block _ _ _
          · exact absurd h not_returns_throw

end Removal

/-! ## Nothing is blocked without an error -/

section Preflight

open CleanupLocal CleanupPreflight

variable {α : Type} {start : List JsonValue}

/-- Without errors in the end there were none at the start, and nothing is blocked. -/
def Unblocked (start : List JsonValue) (found : Blocking α) : Prop :=
  found.errors = [] → start = [] ∧ found.blocked = []

lemma addError_ne_nil {errors : List JsonValue} {category error : String} {resource : JsonValue} :
    addError errors category resource error ≠ [] := by
  simp [addError]

lemma unblocked_block [DecidableEq α] {found : Blocking α} {resource : α} {category : String}
    {record : JsonValue} {error : String} :
    Unblocked start (found.block resource category record error) :=
  fun herrors => absurd herrors addError_ne_nil

lemma unblocked_preflightWorktrees {records : List WorktreeRecord} {force : Bool}
    {found : Blocking String} (h : (preflightWorktrees records force start).Returns trace found) :
    Unblocked start found := by
  refine returns_foldlM (J := fun _ found _ => Unblocked start found)
    (fun herrors => ⟨herrors, rfl⟩) ?_ h
  intro _ record _ before after _ block _ hbefore hreturns
  obtain ⟨front, rest, there, rfl, -, h⟩ := returns_bind.1 hreturns
  cases there with
  | false =>
    obtain ⟨first, last, registered, rfl, -, h⟩ := returns_bind.1 h
    match registered, h with
    | .error error, h =>
      obtain ⟨rfl, rfl⟩ := returns_pure.1 h
      exact unblocked_block
    | .ok false, h =>
      obtain ⟨rfl, rfl⟩ := returns_pure.1 h
      exact hbefore
    | .ok true, h =>
      dsimp only at h
      split_ifs at h with hany
      · obtain ⟨rfl, rfl⟩ := returns_pure.1 h
        -- The error of the equal record is still there.
        intro herrors
        have hnone : before.errors = [] := herrors
        rw [hnone] at hany
        exact absurd hany (by simp)
      · obtain ⟨rfl, rfl⟩ := returns_pure.1 h
        exact unblocked_block
  | true =>
    obtain ⟨first, last, error, rfl, -, h⟩ := returns_bind.1 h
    cases error with
    | some error =>
      obtain ⟨rfl, rfl⟩ := returns_pure.1 h
      exact unblocked_block
    | none =>
      obtain ⟨rfl, rfl⟩ := returns_pure.1 h
      exact hbefore

lemma unblocked_checkMerged {force : Bool} {found after : BranchBlocking}
    {record : WorktreeRecord} (hfound : Unblocked start found.toBlocking)
    (h : (checkMerged force found record).Returns trace after) :
    Unblocked start after.toBlocking := by
  unfold checkMerged at h
  split_ifs at h
  · obtain ⟨rfl, rfl⟩ := returns_pure.1 h
    exact hfound
  · obtain ⟨front, rest, merged, rfl, -, h⟩ := returns_bind.1 h
    cases merged with
    | error error =>
      obtain ⟨rfl, rfl⟩ := returns_pure.1 h
      exact unblocked_block
    | ok merged =>
      dsimp only at h
      split_ifs at h
      · obtain ⟨rfl, rfl⟩ := returns_pure.1 h
        exact hfound
      · obtain ⟨rfl, rfl⟩ := returns_pure.1 h
        exact unblocked_block

lemma unblocked_preflightBranches {records : List WorktreeRecord} {force : Bool}
    {blockedWorktrees selectedWorktrees : List String} {found : BranchBlocking}
    (hworktrees : start = [] → blockedWorktrees = [])
    (h : (preflightBranches records force start blockedWorktrees selectedWorktrees).Returns trace
      found) : Unblocked start found.toBlocking := by
  refine returns_foldlM (J := fun _ found _ => Unblocked start (BranchBlocking.toBlocking found))
    (fun herrors => ⟨herrors, rfl⟩) ?_ h
  intro _ record _ before after _ block _ hbefore hreturns
  obtain ⟨front, rest, tip, rfl, -, h⟩ := returns_bind.1 hreturns
  match tip, h with
  | .error error, h =>
    obtain ⟨rfl, rfl⟩ := returns_pure.1 h
    exact unblocked_block
  | .ok none, h =>
    obtain ⟨rfl, rfl⟩ := returns_pure.1 h
    exact hbefore
  | .ok (some tip), h =>
    dsimp only at h
    split_ifs at h with hselected hblocked
    · obtain ⟨rfl, rfl⟩ := returns_pure.1 h
      -- The worktree is blocked, so there is an error from before.
      intro herrors
      rw [hworktrees (hbefore herrors).1] at hblocked
      exact absurd hblocked List.not_mem_nil
    · obtain ⟨first, last, there, rfl, -, h⟩ := returns_bind.1 h
      cases there with
      | false =>
        obtain ⟨rfl, rfl⟩ := returns_pure.1 h
        exact unblocked_block
      | true =>
        obtain ⟨verify, rest, error, rfl, -, h⟩ := returns_bind.1 h
        cases error with
        | some error =>
          obtain ⟨rfl, rfl⟩ := returns_pure.1 h
          exact unblocked_block
        | none => exact unblocked_checkMerged (by exact hbefore) h
    · obtain ⟨rfl, rfl⟩ := returns_pure.1 h
      exact unblocked_block

lemma unblocked_preflightLogs {records : List LogRecord} {found : Blocking String}
    (h : (preflightLogs records start).Returns trace found) : Unblocked start found := by
  refine returns_foldlM (J := fun _ found _ => Unblocked start found)
    (fun herrors => ⟨herrors, rfl⟩) ?_ h
  intro _ record _ before after _ block _ hbefore hreturns
  obtain ⟨front, rest, there, rfl, -, h⟩ := returns_bind.1 hreturns
  cases there with
  | false =>
    obtain ⟨rfl, rfl⟩ := returns_pure.1 h
    exact hbefore
  | true =>
    obtain ⟨first, last, error, rfl, -, h⟩ := returns_bind.1 h
    cases error with
    | some error =>
      obtain ⟨rfl, rfl⟩ := returns_pure.1 h
      exact unblocked_block
    | none =>
      obtain ⟨rfl, rfl⟩ := returns_pure.1 h
      exact hbefore

lemma unblocked_preflightProjects {records : List ProjectCopyRecord}
    {found : Blocking (String × String)}
    (h : (records.foldlM preflightProject ⟨[], start⟩).Returns trace found) :
    Unblocked start found := by
  refine returns_foldlM (J := fun _ found _ => Unblocked start found)
    (fun herrors => ⟨herrors, rfl⟩) ?_ h
  intro _ record _ before after _ block _ hbefore hreturns
  obtain ⟨front, rest, error, rfl, -, h⟩ := returns_bind.1 hreturns
  cases error with
  | some error =>
    obtain ⟨rfl, rfl⟩ := returns_pure.1 h
    exact unblocked_block
  | none =>
    obtain ⟨rfl, rfl⟩ := returns_pure.1 h
    exact hbefore

/-- Nothing is blocked. -/
structure NothingBlocked (preflight : Preflight) : Prop where
  worktrees : preflight.blockedWorktrees = []
  branches : preflight.blockedBranches = []
  logs : preflight.blockedLogs = []
  projects : preflight.blockedProjects = []

theorem blocking_justified {py : Interpreter} {run : RunData} {plan : CleanupPlan} {force : Bool}
    {preflight : Preflight} (h : (preflightCleanup py run plan force).Returns trace preflight)
    (herrors : preflight.errors = []) : NothingBlocked preflight := by
  obtain ⟨_, _, worktrees, -, hworktrees, h⟩ := returns_bind.1 h
  obtain ⟨_, _, branches, -, hbranches, h⟩ := returns_bind.1 h
  obtain ⟨_, _, logs, -, hlogs, h⟩ := returns_bind.1 h
  obtain ⟨_, _, projects, -, hprojects, h⟩ := returns_bind.1 h
  obtain ⟨_, _, activeWorkers, -, -, h⟩ := returns_bind.1 h
  obtain ⟨-, rfl⟩ := returns_pure.1 h
  have hprojectErrors : projects.errors = [] := by
    dsimp only at herrors
    split_ifs at herrors
    · simp at herrors
    · exact herrors
  obtain ⟨hlogErrors, hprojectsBlocked⟩ := unblocked_preflightProjects hprojects hprojectErrors
  obtain ⟨hbranchErrors, hlogsBlocked⟩ := unblocked_preflightLogs hlogs hlogErrors
  have hworktreesUnblocked := unblocked_preflightWorktrees hworktrees
  obtain ⟨hworktreeErrors, hbranchesBlocked⟩ := unblocked_preflightBranches
    (fun hstart => (hworktreesUnblocked hstart).2) hbranches hbranchErrors
  have hworktreesBlocked := (hworktreesUnblocked hworktreeErrors).2
  refine ⟨?_, hbranchesBlocked, hlogsBlocked, hprojectsBlocked⟩
  simp [hworktreesBlocked, hbranchesBlocked, blockedBranchPaths]

end Preflight

/-! ## The phases -/

section Phases

open CleanupLocal CleanupPreflight CleanupProjects CleanupAudit DisposableSessions RunCleanup

variable {record after : CleanupRecord} {plan : CleanupPlan}

lemma sessionGone_of_verifyDeleted {sessionId : String}
    (h : (verifyDeleted sessionId).Returns trace none) : SessionGone trace sessionId := by
  obtain ⟨answer, rest, rfl, hread⟩ := returns_call.1 h
  cases answer with
  | ok _ => cases (returns_pure.1 hread).2
  | error error =>
    dsimp only at hread
    split_ifs at hread with hopen hstatus
    · exact absurd hread not_returns_throw
    · exact ⟨error, List.mem_cons_self, by simpa using hopen, hstatus⟩
    · cases (returns_pure.1 hread).2

lemma sessionGone_of_deleteAndVerify {sessionId : String}
    (h : (deleteAndVerify sessionId).Returns trace none) : SessionGone trace sessionId := by
  obtain ⟨answer, rest, rfl, hdeleted⟩ := returns_call.1 h
  have hverify : (verifyDeleted sessionId).Returns rest none →
      SessionGone (⟨.deleteSession sessionId, answer⟩ :: rest) sessionId := by
    intro hverified
    obtain ⟨error, hmem, herror⟩ := sessionGone_of_verifyDeleted hverified
    exact ⟨error, List.mem_cons_of_mem _ hmem, herror⟩
  cases answer with
  | ok _ => exact hverify hdeleted
  | error error =>
    dsimp only at hdeleted
    split_ifs at hdeleted
    · exact absurd hdeleted not_returns_throw
    · exact hverify hdeleted
    · cases (returns_pure.1 hdeleted).2

/-- Every session is verified, or there is an error. -/
lemma verified_of_cleanupDisposableSessions {sessionIds : List String}
    {found : List String × List (String × PyError)}
    (h : (cleanupDisposableSessions sessionIds).Returns trace found) :
    (found.2 = [] → ∀ sessionId ∈ sessionIds, sessionId ∈ found.1) ∧
      ∀ sessionId ∈ found.1, SessionGone trace sessionId := by
  refine returns_foldlM (J := fun front (found : List String × List (String × PyError)) trace =>
    (found.2 = [] → ∀ sessionId ∈ front, sessionId ∈ found.1) ∧
      ∀ sessionId ∈ found.1, SessionGone trace sessionId)
    ⟨fun _ _ hmem => absurd hmem List.not_mem_nil, fun _ hmem => absurd hmem List.not_mem_nil⟩ ?_ h
  rintro front sessionId _ before after earlier block - ⟨hall, hgone⟩ hreturns
  obtain ⟨first, last, error, rfl, hdelete, h⟩ := returns_bind.1 hreturns
  cases error with
  | some error =>
    obtain ⟨rfl, rfl⟩ := returns_pure.1 h
    exact ⟨fun herrors => absurd herrors (by simp), fun id hmem => (hgone id hmem).append⟩
  | none =>
    obtain ⟨rfl, rfl⟩ := returns_pure.1 h
    constructor
    · intro herrors id hmem
      rcases List.mem_append.1 hmem with hmem | hmem
      · exact List.mem_append_left _ (hall herrors id hmem)
      · exact List.mem_append_right _ hmem
    · intro id hmem
      rcases List.mem_append.1 hmem with hmem | hmem
      · exact (hgone id hmem).append
      · rw [List.mem_singleton.1 hmem]
        obtain ⟨error, hmem, herror⟩ := sessionGone_of_deleteAndVerify hdelete
        exact ⟨error, by simp [hmem], herror⟩

lemma progress_cleanupSessions (h : (cleanupSessions plan record).Returns trace after) :
    Progress record trace (fun completed => ∀ id ∈ plan.sessions, id ∈ completed.sessions) after := by
  unfold cleanupSessions at h
  split_ifs at h with hempty
  · obtain ⟨rfl, rfl⟩ := returns_pure.1 h
    refine .unchanged fun _ id hmem => ?_
    rw [List.isEmpty_iff.1 hempty] at hmem
    exact absurd hmem List.not_mem_nil
  · obtain ⟨front, rest, answer, rfl, hattempt, h⟩ := returns_bind.1 h
    rcases returns_attempt.1 hattempt with ⟨⟨verified, errors⟩, rfl, hdelete⟩ | ⟨error, rfl, -⟩
    · obtain ⟨rfl, rfl⟩ := returns_pure.1 h
      obtain ⟨answer, others, rfl, hconnected⟩ := returns_call.1 hdelete
      obtain ⟨_, block, _, rfl, -, hsessions⟩ := returns_bind.1 hconnected
      obtain ⟨hall, hgone⟩ := verified_of_cleanupDisposableSessions hsessions
      exact
        { errors := fun herrors => (List.append_eq_nil_iff.1 herrors).1
          completed := { Keeps.refl _ with sessions := List.subset_append_left _ _ }
          justified := fun earlier hjustified =>
            { hjustified.append with
              sessions := by
                intro id hmem
                rcases List.mem_append.1 hmem with hmem | hmem
                · exact (hjustified.sessions id hmem).append
                · obtain ⟨error, hexchange, herror⟩ := hgone id hmem
                  exact ⟨error, by simp [hexchange], herror⟩ }
          done := fun herrors id hmem => by
            have hnone := (List.append_eq_nil_iff.1 herrors).2
            exact List.mem_append_right _ (hall (List.map_eq_nil_iff.1 hnone) id hmem) }
    · dsimp only at h
      split_ifs at h
      · obtain ⟨rfl, rfl⟩ := returns_pure.1 h
        exact .of_errors rfl (by simp)
      · exact absurd h not_returns_throw

lemma progress_cleanupProject {serverUrl : JsonValue} {projectPlan : ProjectPlan}
    (h : (cleanupProject serverUrl record projectPlan).Returns trace after) :
    Progress record trace (fun completed => projectPlan.entry ∈ completed.projectMetadata)
      after := by
  obtain ⟨answer, rest, rfl, happlied⟩ := returns_call.1 h
  cases answer with
  | error error =>
    obtain ⟨rfl, rfl⟩ := returns_pure.1 happlied
    exact .block _ _ _
  | ok result =>
    dsimp only at happlied
    split_ifs at happlied with hverified
    · obtain ⟨rfl, rfl⟩ := returns_pure.1 happlied
      have hsame : Progress record
          [⟨.applyProject projectPlan.entry serverUrl projectPlan.outcome, .ok result⟩]
          (fun _ => True)
          { record with
            projectMetadataResults := record.projectMetadataResults ++ [result.outcome] } :=
        .of_same rfl rfl
      exact hsame.completeProject fun earlier =>
        ⟨serverUrl, projectPlan.outcome, result, by simp, hverified⟩
    · obtain ⟨rfl, rfl⟩ := returns_pure.1 happlied
      exact .of_errors rfl addError_ne_nil

lemma progress_cleanupProjectMetadata {supported : Bool} {projectPlans : List ProjectPlan}
    (hplans : ∀ entry ∈ plan.projectMetadata, ∃ found ∈ projectPlans, found.entry = entry)
    (h : (cleanupProjectMetadata supported plan projectPlans record).Returns trace after) :
    Progress record trace
      (fun completed => ∀ entry ∈ plan.projectMetadata, entry ∈ completed.projectMetadata)
      after := by
  unfold cleanupProjectMetadata at h
  split_ifs at h with hempty hsupported
  · obtain ⟨rfl, rfl⟩ := returns_pure.1 h
    refine .unchanged fun _ id hmem => ?_
    rw [List.isEmpty_iff.1 hempty] at hmem
    exact absurd hmem List.not_mem_nil
  · obtain ⟨rfl, rfl⟩ := returns_pure.1 h
    exact .of_errors rfl (by simp)
  · have hall := Progress.foldlM
      (D := fun projectPlan completed => projectPlan.entry ∈ completed.projectMetadata)
      (P := True) (fun _ _ _ hkeeps hmem => hkeeps.projectMetadata hmem)
      (fun _ _ _ _ _ _ hreturns => progress_cleanupProject hreturns) (fun _ => trivial) h
    refine hall.mono fun completed hdone entry hmem => ?_
    obtain ⟨found, hfound, rfl⟩ := hplans entry hmem
    exact hdone found hfound

lemma exists_entry_freeze {projectPlans : List ProjectPlan} {entry : ProjectCopyRecord}
    (h : ∃ found ∈ projectPlans, found.entry = entry) :
    ∃ found ∈ freezeProjectRefreshScope projectPlans, found.entry = entry := by
  obtain ⟨found, hfound, rfl⟩ := h
  exact ⟨_, List.mem_map.2 ⟨found, hfound, rfl⟩, rfl⟩

/-- Checking the plans keeps them, and a failure stays one. -/
lemma foldl_checkProjectPlan (projectPlans : List ProjectPlan) (found : Preview) :
    (projectPlans.foldl checkProjectPlan found).projectPlans = found.projectPlans ∧
      ((projectPlans.foldl checkProjectPlan found).failed = false → found.failed = false) := by
  induction projectPlans generalizing found with
  | nil => exact ⟨rfl, fun h => h⟩
  | cons projectPlan rest ih =>
    rw [List.foldl_cons]
    obtain ⟨hplans, hfailed⟩ := ih (checkProjectPlan found projectPlan)
    unfold checkProjectPlan at hplans hfailed ⊢
    split_ifs at hplans hfailed ⊢
    · exact ⟨hplans, hfailed⟩
    · exact ⟨hplans, fun h => absurd (hfailed h) (by simp)⟩

/-- Every project copy has a plan, unless the preview failed. -/
lemma planned_of_previewProjectMetadata {supported : Bool} {previewRecord : CleanupRecord}
    {assumedMissingPaths : List String} {blockedProjects : List (String × String)}
    {projectPlans : List ProjectPlan}
    (h : (previewProjectMetadata supported plan record assumedMissingPaths
      blockedProjects).Returns trace (projectPlans, false, previewRecord)) :
    ∀ entry ∈ plan.projectMetadata, ∃ found ∈ projectPlans, found.entry = entry := by
  unfold previewProjectMetadata at h
  split_ifs at h with hempty hsupported
  · intro entry hmem
    rw [List.isEmpty_iff.1 hempty] at hmem
    exact absurd hmem List.not_mem_nil
  · cases (returns_pure.1 h).2
  · obtain ⟨front, rest, found, rfl, hloop, h⟩ := returns_bind.1 h
    obtain ⟨rfl, hresult⟩ := returns_pure.1 h
    obtain ⟨hprojectPlans, hfailed⟩ : projectPlans = (finishPreview found).projectPlans ∧
        (finishPreview found).failed = false := by
      simp only [Prod.mk.injEq] at hresult
      exact ⟨hresult.1, hresult.2.1.symm⟩
    -- as long as the preview has not failed, each entry that it has come to is planned
    have hcovered : found.failed = false → blockedProjects = [] ∧
        ∀ entry ∈ plan.projectMetadata, ∃ p ∈ found.projectPlans, p.entry = entry := by
      refine returns_foldlM (J := fun front (found : Preview) _ => found.failed = false →
        blockedProjects = [] ∧ ∀ entry ∈ front, ∃ p ∈ found.projectPlans, p.entry = entry)
        (fun hnone => ⟨by simpa using hnone, fun _ hmem => absurd hmem List.not_mem_nil⟩) ?_ hloop
      intro items entry _ before after _ block _ hbefore hreturns
      unfold previewProject at hreturns
      split_ifs at hreturns with hblocked
      · obtain ⟨rfl, rfl⟩ := returns_pure.1 hreturns
        intro hsafe
        rw [(hbefore hsafe).1] at hblocked
        exact absurd hblocked List.not_mem_nil
      · obtain ⟨answer, others, rfl, hanswer⟩ := returns_call.1 hreturns
        cases answer with
        | error error =>
          obtain ⟨rfl, rfl⟩ := returns_pure.1 hanswer
          exact fun hsafe => by cases hsafe
        | ok outcome =>
          obtain ⟨rfl, rfl⟩ := returns_pure.1 hanswer
          intro hsafe
          refine ⟨(hbefore hsafe).1, fun entry' hmem => ?_⟩
          rcases List.mem_append.1 hmem with hmem | hmem
          · obtain ⟨p, hp, hentry⟩ := (hbefore hsafe).2 entry' hmem
            exact ⟨p, List.mem_append_left _ hp, hentry⟩
          · rw [List.mem_singleton.1 hmem]
            exact ⟨⟨entry, outcome⟩, List.mem_append_right _ (List.mem_singleton.2 rfl), rfl⟩
    obtain ⟨hkept, hfailure⟩ := foldl_checkProjectPlan
      (freezeProjectRefreshScope found.projectPlans)
      { found with projectPlans := freezeProjectRefreshScope found.projectPlans }
    intro entry hmem
    rw [hprojectPlans, finishPreview, hkept]
    exact exists_entry_freeze ((hcovered (hfailure hfailed)).2 entry hmem)

lemma lasting_allCompleted : Lasting (AllCompleted plan) := fun _ _ hkeeps hall =>
  { sessions := fun id hmem => hkeeps.sessions (hall.sessions id hmem)
    worktrees := fun worktree hmem => hkeeps.worktrees (hall.worktrees worktree hmem)
    branches := fun branch hmem =>
      List.map_subset _ hkeeps.branches (hall.branches branch hmem)
    projectMetadata := fun entry hmem => hkeeps.projectMetadata (hall.projectMetadata entry hmem)
    logs := fun log hmem => hkeeps.logs (hall.logs log hmem) }

/-- The removal of everything that is planned. -/
lemma progress_removeResources {supported : Bool} {preflight : Preflight}
    {projectPlans : List ProjectPlan} {request : RunCleanupRequest}
    (hblocked : record.errors = [] → NothingBlocked preflight)
    (hplans : ∀ entry ∈ plan.projectMetadata, ∃ found ∈ projectPlans, found.entry = entry)
    (h : (removeResources supported plan preflight projectPlans request record).Returns trace
      after) : Progress record trace (AllCompleted plan) after := by
  -- the five steps, each made from the record that the one before it left
  obtain ⟨t₁, rest, r₁, rfl, h₁, h⟩ := returns_bind.1 h
  obtain ⟨t₂, rest, r₂, rfl, h₂, h⟩ := returns_bind.1 h
  obtain ⟨t₃, rest, r₃, rfl, h₃, h⟩ := returns_bind.1 h
  obtain ⟨t₄, t₅, r₄, rfl, h₄, h₅⟩ := returns_bind.1 h
  have hsessions := progress_cleanupSessions h₁
  have hworktrees := Progress.foldlM (P := preflight.blockedWorktrees = [])
    (D := fun worktree completed => worktree ∈ completed.worktrees)
    (fun _ _ _ hkeeps hmem => hkeeps.worktrees hmem)
    (fun _ _ _ _ _ hclean hreturns => progress_removeWorktree hclean hreturns)
    (fun herrors => (hblocked (hsessions.errors herrors)).worktrees) h₂
  have hprojects := progress_cleanupProjectMetadata hplans h₃
  have hbefore : r₃.errors = [] → NothingBlocked preflight := fun herrors =>
    hblocked (hsessions.errors (hworktrees.errors (hprojects.errors herrors)))
  have hbranches := Progress.foldlM (P := preflight.blockedBranches = [])
    (D := fun branch completed =>
      branch.branchIdentity ∈ completed.branches.map WorktreeRecord.branchIdentity)
    (fun _ _ _ hkeeps hmem => List.map_subset _ hkeeps.branches hmem)
    (fun branch hbranch _ _ _ hclean hreturns =>
      progress_removeBranch (plan.branches_named branch hbranch) hclean hreturns)
    (fun herrors => (hbefore herrors).branches) h₄
  have hlogs := Progress.foldlM (P := preflight.blockedLogs = [])
    (D := fun log completed => log ∈ completed.logs)
    (fun _ _ _ hkeeps hmem => hkeeps.logs hmem)
    (fun _ _ _ _ _ hclean hreturns => progress_removeLog hclean hreturns)
    (fun herrors => (hbefore (hbranches.errors herrors)).logs) h₅
  exact
    -- a clean end means that every step was clean, and none forgets what is completed
    { errors := fun herrors => hsessions.errors (hworktrees.errors (hprojects.errors
        (hbranches.errors (hlogs.errors herrors))))
      completed := hsessions.completed.trans (hworktrees.completed.trans
        (hprojects.completed.trans (hbranches.completed.trans hlogs.completed)))
      justified := fun earlier hjustified => by
        have hall := hlogs.justified _ (hbranches.justified _ (hprojects.justified _
          (hworktrees.justified _ (hsessions.justified earlier hjustified))))
        simpa only [List.append_assoc] using hall
      done := fun herrors =>
        have hlogErrors := hlogs.errors herrors
        have hbranchErrors := hbranches.errors hlogErrors
        have hprojectErrors := hprojects.errors hbranchErrors
        have hkeepsLogs := hlogs.completed
        have hkeepsBranches := hbranches.completed.trans hkeepsLogs
        have hkeepsProjects := hprojects.completed.trans hkeepsBranches
        have hkeepsWorktrees := hworktrees.completed.trans hkeepsProjects
        { sessions := fun id hmem =>
            hkeepsWorktrees.sessions (hsessions.done (hworktrees.errors hprojectErrors) id hmem)
          worktrees := fun worktree hmem =>
            hkeepsProjects.worktrees (hworktrees.done hprojectErrors worktree hmem)
          branches := fun branch hmem =>
            List.map_subset _ hkeepsLogs.branches (hbranches.done hlogErrors branch hmem)
          projectMetadata := fun entry hmem =>
            hkeepsBranches.projectMetadata (hprojects.done hbranchErrors entry hmem)
          logs := fun log hmem => hlogs.done herrors log hmem } }

/-- What the end of an audit adds to a record is an error of the store, if anything. -/
lemma of_finishCleanupAudit {baseline audited : RunData}
    (h : (finishCleanupAudit baseline record).Returns trace (audited, after)) :
    Progress record trace (fun _ => True) after := by
  obtain ⟨front, rest, answer, rfl, -, h⟩ := returns_bind.1 h
  split at h
  · obtain ⟨rfl, hresult⟩ := returns_pure.1 h
    cases hresult
    exact .of_same rfl rfl
  · obtain ⟨first, last, run, rfl, -, h⟩ := returns_bind.1 h
    obtain ⟨rfl, hresult⟩ := returns_pure.1 h
    cases hresult
    exact .of_errors rfl (by simp [CleanupRecord.storeError])
  · exact absurd h not_returns_throw

/-- What the deletion of the record adds to the record is an error of the store, if anything. -/
lemma of_deleteAuditedRun {audited : RunData}
    (h : (deleteAuditedRun audited record).Returns trace after) :
    Progress record trace (fun _ => True) after := by
  obtain ⟨answer, rest, rfl, hdeleted⟩ := returns_call.1 h
  unfold afterDeletion at hdeleted
  split at hdeleted
  · obtain ⟨rfl, rfl⟩ := returns_pure.1 hdeleted
    exact .of_same rfl rfl
  · dsimp only at hdeleted
    split_ifs at hdeleted
    · obtain ⟨front, back, run, rfl, -, hdeleted⟩ := returns_bind.1 hdeleted
      obtain ⟨rfl, rfl⟩ := returns_pure.1 hdeleted
      exact .of_errors rfl (by simp [CleanupRecord.storeError])
    · obtain ⟨rfl, rfl⟩ := returns_pure.1 hdeleted
      exact .of_errors rfl (by simp [CleanupRecord.storeError])
  · exact absurd hdeleted not_returns_throw

/-- The executor begins with the start of its audit, and goes on only if that is written. -/
lemma sinceStart_of_execute {supported : Bool} {run : RunData} {preflight : Preflight}
    {projectPlans : List ProjectPlan} {request : RunCleanupRequest} {result : RunCleanupResult}
    {earlier : CleanupTrace} (hearlier : ∀ x ∈ earlier, OffStore x.op)
    (h : (execute supported run plan preflight projectPlans request).Returns trace result) :
    sinceStart (earlier ++ trace) = trace := by
  have hskip : ∀ x ∈ earlier, (!startsAudit x) = true := by
    rintro ⟨op, answer⟩ hx
    have hoff := hearlier _ hx
    cases op with
    | audit step => exact absurd trivial hoff
    | _ => rfl
  obtain ⟨front, rest, baseline, rfl, hstart, -⟩ := returns_bind.1 h
  obtain ⟨answer, others, rfl, hanswer⟩ := returns_call.1 hstart
  have hcommitted := (returns_ofExcept.1 hanswer).2
  rw [sinceStart, List.dropWhile_append_of_pos hskip]
  -- an update that was refused or lost raises
  cases answer with
  | committed saved => rfl
  | rejected error => cases hcommitted
  | lost saved error => cases hcommitted

/-- The executor, on a plan all of whose project copies have a plan. -/
lemma progress_execute {supported : Bool} {run : RunData} {preflight : Preflight}
    {projectPlans : List ProjectPlan} {request : RunCleanupRequest} {result : RunCleanupResult}
    (hblocked : preflight.errors = [] → NothingBlocked preflight)
    (hplans : ∀ entry ∈ plan.projectMetadata, ∃ found ∈ projectPlans, found.entry = entry)
    (h : (execute supported run plan preflight projectPlans request).Returns trace result) :
    Progress (applyRecord plan preflight projectPlans request) trace (AllCompleted plan)
      result.record ∧ (result.exitCode = 0 → result.record.errors = []) := by
  obtain ⟨t₁, rest, baseline, rfl, -, h⟩ := returns_bind.1 h
  obtain ⟨t₂, rest, removed, rfl, hremoved, h⟩ := returns_bind.1 h
  obtain ⟨t₃, rest, ⟨audited, finished⟩, rfl, hfinished, h⟩ := returns_bind.1 h
  obtain ⟨t₄, t₅, final, rfl, hfinal, h⟩ := returns_bind.1 h
  obtain ⟨rfl, rfl⟩ := returns_pure.1 h
  have hremovedProgress := progress_removeResources hblocked hplans hremoved
  have hstatus : Progress removed [] (fun _ => True)
      (if removed.errors.isEmpty then removed
        else { removed with status := removed.failureStatus }) := by
    split_ifs <;> exact .of_same rfl rfl
  have hfinishedProgress := of_finishCleanupAudit hfinished
  have hfinalProgress : Progress finished t₄ (fun _ => True) final := by
    unfold deleteRunStore at hfinal
    split_ifs at hfinal
    · exact of_deleteAuditedRun hfinal
    · obtain ⟨rfl, rfl⟩ := returns_pure.1 hfinal
      exact .of_same rfl rfl
  have hall := (((hremovedProgress.after_trace t₁).then_more hstatus lasting_allCompleted).then_more
    hfinishedProgress lasting_allCompleted).then_more hfinalProgress lasting_allCompleted
  constructor
  · simpa using hall
  · intro hexit
    by_contra herrors
    have hnonempty : final.errors.isEmpty = false := by simpa using herrors
    simp [hnonempty] at hexit

/-- Where the executor asks for the deletion of the record, nothing went wrong. -/
lemma deletes_execute {supported : Bool} {run expectedRun : RunData} {preflight : Preflight}
    {projectPlans : List ProjectPlan} {request : RunCleanupRequest}
    {resume : Except PyError Unit → Cleanup RunCleanupResult}
    (h : (execute supported run plan preflight projectPlans request).Trace trace
      (.call (.deleteRun expectedRun) resume)) :
    ∃ result, resume (.ok ()) = .done result ∧ result.exitCode = 0 := by
  -- no step but the last asks for the deletion
  have hnotAudit : ∀ step, (Cleanup.audit step).Within (fun op => ∀ run, op ≠ CleanupOp.deleteRun run)
      fun _ => True := fun step => within_asking fun _ hop => by cases hop
  have hafter : ∀ record answer, (afterDeletion record answer).Within
      (fun op => ∀ run, op ≠ CleanupOp.deleteRun run) fun _ => True := by
    intro record answer
    unfold afterDeletion
    split
    · trivial
    · dsimp only
      split_ifs
      · exact (hnotAudit _).seq fun _ => trivial
      · trivial
    · trivial
  rcases trace_bind_call.1 h with ⟨k, hk, -⟩ | ⟨_, _, baseline, rfl, -, h⟩
  · exact absurd rfl (of_trace_call (hnotAudit _) hk expectedRun)
  rcases trace_bind_call.1 h with ⟨k, hk, -⟩ | ⟨_, _, removed, rfl, -, h⟩
  · exact absurd trivial (of_trace_call offStore_removeResources hk)
  rcases trace_bind_call.1 h with ⟨k, hk, -⟩ | ⟨_, _, ⟨audited, finished⟩, rfl, -, h⟩
  · have hfinish : ∀ baseline record, (finishCleanupAudit baseline record).Within
        (fun op => ∀ run, op ≠ CleanupOp.deleteRun run) fun _ => True := by
      intro baseline record
      refine (hnotAudit _).attempted.seq fun answer => ?_
      split
      · trivial
      · exact (hnotAudit _).seq fun _ => trivial
      · trivial
    exact absurd rfl (of_trace_call (hfinish _ _) hk expectedRun)
  rcases trace_bind_call.1 h with ⟨k, hk, rfl⟩ | ⟨_, _, final, rfl, -, h⟩
  · unfold deleteRunStore at hk
    split_ifs at hk with hdelete
    · rcases trace_call.1 hk with ⟨rfl, hcall⟩ | ⟨answer, rest, rfl, hrest⟩
      · cases hcall
        -- the store is deleted only of a record without errors
        have hnone : finished.errors = [] := by
          simpa using (Bool.and_eq_true_iff.1 hdelete).2
        exact ⟨_, rfl, by simp [hnone]⟩
      · exact absurd rfl (of_trace_call (hafter _ answer) hrest expectedRun)
    · cases (trace_done.1 hk).2
  · cases (trace_done.1 h).2

/-- A preview completes nothing. -/
lemma completed_of_previewProjectMetadata {supported : Bool} {assumedMissingPaths : List String}
    {blockedProjects : List (String × String)} {failed : Bool} {projectPlans : List ProjectPlan}
    (h : (previewProjectMetadata supported plan record assumedMissingPaths
      blockedProjects).Returns trace (projectPlans, failed, after)) :
    after.completed = record.completed := by
  unfold previewProjectMetadata at h
  split_ifs at h
  · obtain ⟨-, hresult⟩ := returns_pure.1 h
    cases hresult
    rfl
  · obtain ⟨-, hresult⟩ := returns_pure.1 h
    cases hresult
    rfl
  · obtain ⟨_, _, found, -, -, h⟩ := returns_bind.1 h
    obtain ⟨-, hresult⟩ := returns_pure.1 h
    cases hresult
    rfl

/-- How an apply of a plan ends: it is refused, or the executor ends so. -/
lemma returns_applyPlan {py : Interpreter} {supported : Bool} {run : RunData}
    {request : RunCleanupRequest} {result : RunCleanupResult} (happly : request.apply = true)
    (h : (applyPlan py supported run plan request).Returns trace result) :
    (result.exitCode = 1 ∧ result.record.completed = {}) ∨
      ∃ earlier applied preflight projectPlans, trace = earlier ++ applied ∧
        (∀ x ∈ earlier, OffStore x.op) ∧
        (preflight.errors = [] → NothingBlocked preflight) ∧
        (∀ entry ∈ plan.projectMetadata, ∃ found ∈ projectPlans, found.entry = entry) ∧
        (execute supported run plan preflight projectPlans request).Returns applied result := by
  obtain ⟨t₁, rest, preflight, rfl, hpreflight, h⟩ := returns_bind.1 h
  obtain ⟨t₂, applied, ⟨projectPlans, failed, previewRecord⟩, rfl, hpreview, h⟩ :=
    returns_bind.1 h
  have hcompleted := completed_of_previewProjectMetadata hpreview
  dsimp only at h
  rw [happly, Bool.not_true, if_neg Bool.false_ne_true] at h
  split_ifs at h with hrefused
  · obtain ⟨rfl, rfl⟩ := returns_pure.1 h
    exact .inl ⟨rfl, hcompleted⟩
  · obtain ⟨-, hfailed⟩ : activeCleanupIsBlocked preflight request.force = false ∧
        failed = false := by simpa using hrefused
    subst hfailed
    refine .inr ⟨t₁ ++ t₂, applied, preflight, projectPlans, by simp, ?_,
      blocking_justified hpreflight, planned_of_previewProjectMetadata hpreview, h⟩
    intro x hx
    rcases List.mem_append.1 hx with hx | hx
    · exact (within_of_trace (offStore_of_looks looks_preflightCleanup) hpreflight).2 x hx
    · exact (within_of_trace offStore_previewProjectMetadata hpreview).2 x hx

/-- An apply of any plan, whatever it is answered: it exits with 0 only if every planned resource
is completed, what is completed is gone, and the record is deleted only by an apply that exits
with 0. -/
theorem applyPlan_appliesCompletely (py : Interpreter) (supported : Bool) (run : RunData)
    (plan : CleanupPlan) (request : RunCleanupRequest) (happly : request.apply = true) :
    AppliesCompletely plan (applyPlan py supported run plan request) where
  complete trace result h hexit := by
    rcases returns_applyPlan happly h with ⟨hcode, -⟩ |
      ⟨earlier, applied, preflight, projectPlans, -, -, hblocked, hplans, hexecute⟩
    · rw [hcode] at hexit
      cases hexit
    · obtain ⟨hprogress, herrors⟩ := progress_execute hblocked hplans hexecute
      exact hprogress.done (herrors hexit)
  justified trace result h := by
    rcases returns_applyPlan happly h with ⟨-, hcompleted⟩ |
      ⟨earlier, applied, preflight, projectPlans, rfl, hearlier, hblocked, hplans, hexecute⟩
    · rw [hcompleted]
      exact justified_empty
    · rw [sinceStart_of_execute hearlier hexecute]
      exact (progress_execute hblocked hplans hexecute).1.justified [] justified_empty
  deletes trace expectedRun resume h := by
    rcases trace_bind_call.1 h with ⟨k, hk, -⟩ | ⟨_, _, preflight, rfl, -, h⟩
    · exact absurd trivial (of_trace_call (offStore_of_looks looks_preflightCleanup) hk)
    rcases trace_bind_call.1 h with ⟨k, hk, -⟩ | ⟨_, _, ⟨projectPlans, failed, record⟩, rfl, -, h⟩
    · exact absurd trivial (of_trace_call offStore_previewProjectMetadata hk)
    dsimp only at h
    rw [happly, Bool.not_true, if_neg Bool.false_ne_true] at h
    split_ifs at h
    · cases (trace_done.1 h).2
    · exact deletes_execute h

/-! ## A plan of four resources -/

/-- A worktree that is not there any more. -/
def goneWorktree : WorktreeRecord where
  path := "/work/a"
  gitDir := "/repo/.git"
  linkedGitDir := "/repo/.git/worktrees/a"
  linkedGitDirDevice := 1
  linkedGitDirInode := 2
  branch := "task-a"
  branchReflog := "/repo/.git/logs/refs/heads/task-a"
  branchReflogDevice := 1
  branchReflogInode := 3
  registeredBranchTip := "abc"
  workerId := "a"

/-- A log that is as it was recorded. -/
def ownedLog : LogRecord where
  path := "/logs/a.log"
  parentRealpath := "/logs"
  device := 1
  inode := 4
  resourceType := "file"
  parentDevice := 1
  parentInode := 5
  workerId := "a"

/-- A session, the worktree with its branch, and the log. -/
def fourPlan : CleanupPlan where
  run := "demo"
  serverUrl := .null
  sessions := ["ses_1"]
  worktrees := [goneWorktree]
  branches := [goneWorktree]
  projectMetadata := []
  logs := [ownedLog]
  runStore := true
  branches_named record h := by
    rw [List.mem_singleton.1 h]
    decide

/-- The session and the log can be removed, and git knows neither the worktree nor the branch. -/
def obliging : (op : CleanupOp) → op.Answer
  | .audit _ | .updateRun _ => .committed ⟨⟨[], []⟩, "demo", .null⟩
  | .loadRun => .ok ⟨[], []⟩
  | .acquireLease | .releaseLease | .deleteRun _ | .unlink _ => .ok ()
  | .pathExists path => .ok (path = .ofText ownedLog.path)
  | .isSymlink _ | .isDir _ => .ok false
  | .resolve path => .ok path
  | .realpath path => .ok path.text
  | .readText _ => .ok ""
  | .stat _ => .ok ⟨.directory, 1, 5⟩
  | .lstat _ => .ok ⟨.regular, 1, 4⟩
  | .git (.verifyRef _ _) => .ok ⟨1, "", ""⟩
  | .git _ => .ok ⟨0, "", ""⟩
  | .prepareDeletion _ => .ok ("", "")
  | .finishDeletion _ _ => .ok ⟨0, "", ""⟩
  | .connect _ | .deleteSession _ => .ok ()
  | .getSession _ => .error (.openCodeApi "not found" (some 404) "GET" "/session")
  | .previewProject _ _ _ | .applyProject _ _ _ => .error (.osError "")

/-- The apply of the plan. -/
def applyFour : Cleanup RunCleanupResult :=
  applyPlan plainInterpreter true ⟨[], []⟩ fourPlan
    { name := "demo", runStore := true, apply := true }

/-- Whether an apply has succeeded, completed the four resources and deleted the record. -/
def completesFour (result : RunCleanupResult) : Bool :=
  result.exitCode = 0 && result.record.runStoreDeleted &&
    result.record.completed.sessions = ["ses_1"] &&
    result.record.completed.worktrees = [goneWorktree] &&
    result.record.completed.branches = [goneWorktree] && result.record.completed.logs = [ownedLog]

/-- The apply exits with 0 and deletes the record, and the four resources are gone for a reason. -/
theorem applyPlan_appliesCompletely_four : ∃ trace result, applyFour.Returns trace result ∧
    completesFour result = true ∧ AllCompleted fourPlan result.record.completed ∧
      Justified (sinceStart trace) result.record.completed := by
  obtain ⟨result, hreturns, hcompletes⟩ : ∃ result,
      applyFour.Returns (transcript obliging applyFour) result ∧ completesFour result = true :=
    exists_returns_of_returnsUnder (by decide +kernel)
  have happlies : AppliesCompletely fourPlan applyFour :=
    applyPlan_appliesCompletely plainInterpreter true ⟨[], []⟩ fourPlan
      { name := "demo", runStore := true, apply := true } rfl
  have hexit : result.exitCode = 0 := by
    simp only [completesFour, Bool.and_eq_true, decide_eq_true_eq] at hcompletes
    exact hcompletes.1.1.1.1.1
  exact ⟨_, result, hreturns, hcompletes, happlies.complete _ _ hreturns hexit,
    happlies.justified _ _ hreturns⟩

end Phases

end CleanupComplete

end OpencodeSession
