import OpencodeSession.Cleanup.Service

/-!
# Which requests are made where

The kinds of requests of a cleanup, and which part of it makes which: a check and preflight only
look, the preview asks the server for plans besides, and the removal of the resources does not touch
the store.
-/

namespace OpencodeSession

/-- Commands of `git` that only look. -/
def GitCommand.Looks : GitCommand → Prop
  | .removeWorktree _ _ _ | .deleteRef _ _ _ => False
  | _ => True

namespace CleanupOp

/-- Requests that only look at files and repositories. -/
def Looks : CleanupOp → Prop
  | .pathExists _ | .isSymlink _ | .isDir _ | .resolve _ | .realpath _ | .stat _ | .lstat _
  | .readText _ => True
  | .git command => command.Looks
  | _ => False

/-- Requests on the store. -/
def OnStore : CleanupOp → Prop
  | .acquireLease | .releaseLease | .loadRun | .updateRun _ | .audit _ | .deleteRun _ => True
  | _ => False

lemma Looks.not_onStore {op : CleanupOp} (h : op.Looks) : ¬ op.OnStore := by
  cases op <;> simp_all [Looks, OnStore]

end CleanupOp

open Process CleanupOp

/-! ## Checks -/

namespace RunResources

open Cleanup

variable {P : CleanupOp → Prop}

lemma looks_inspecting {α : Type} {request : Cleanup α} {failure : PyError → String}
    (h : request.Within Looks fun _ => True) :
    (inspecting request failure).Within Looks fun _ => True := by
  refine h.attempted.seq fun answer => ?_
  cases answer with
  | ok a => trivial
  | error error =>
    dsimp only
    split_ifs <;> trivial

lemma looks_directoryIdentity {path : PurePath} {label : String} :
    (directoryIdentity path label).Within Looks fun _ => True := by
  refine (looks_inspecting (within_asking (by trivial))).seq fun details => ?_
  cases details with
  | error message => trivial
  | ok details =>
    dsimp only
    split_ifs <;> trivial

lemma looks_fileIdentity {path : PurePath} {label : String} :
    (fileIdentity path label).Within Looks fun _ => True := by
  refine (looks_inspecting (within_asking (by trivial))).seq fun details => ?_
  cases details with
  | error message => trivial
  | ok details =>
    dsimp only
    split_ifs <;> trivial

lemma looks_logIdentity {path : PurePath} : (logIdentity path).Within Looks fun _ => True := by
  refine (looks_inspecting (within_asking (by trivial))).seq fun details => ?_
  cases details with
  | error message => trivial
  | ok details =>
    dsimp only
    split <;> trivial

lemma looks_gitOutput {command : GitCommand} (h : command.Looks) :
    (gitOutput command).Within Looks fun _ => True :=
  (within_asking h).seq fun _ => trivial

lemma looks_resolvesTo {text : String} {path : PurePath} :
    (resolvesTo text path).Within Looks fun _ => True := by
  unfold resolvesTo
  split_ifs
  · trivial
  · exact (within_asking (by trivial)).seq fun _ => trivial

lemma looks_verifyOwnedWorktree {record : WorktreeRecord} :
    (verifyOwnedWorktree record).Within Looks fun _ => True := by
  unfold verifyOwnedWorktree
  split
  · trivial
  · refine (within_asking (by trivial)).seq fun _ => ?_
    split_ifs
    · trivial
    refine (looks_gitOutput (by trivial)).seq fun _ => looks_resolvesTo.seq fun _ => ?_
    split_ifs
    · trivial
    refine (looks_gitOutput (by trivial)).seq fun _ => looks_resolvesTo.seq fun _ => ?_
    split_ifs
    · trivial
    refine (looks_gitOutput (by trivial)).seq fun _ => looks_resolvesTo.seq fun _ => ?_
    split_ifs
    · trivial
    refine (within_asking (by trivial)).seq fun _ => looks_directoryIdentity.seq fun identity => ?_
    split
    · trivial
    · split_ifs
      · trivial
      refine (looks_gitOutput (by trivial)).seq fun _ => ?_
      split_ifs <;> trivial

lemma looks_verifyOwnedLog {record : LogRecord} :
    (verifyOwnedLog record).Within Looks fun _ => True := by
  unfold verifyOwnedLog
  split
  · trivial
  · refine (within_asking (by trivial)).seq fun _ => ?_
    dsimp only
    split_ifs
    · trivial
    refine looks_directoryIdentity.seq fun identity => ?_
    split
    · trivial
    · split_ifs
      · trivial
      refine looks_logIdentity.seq fun identity => ?_
      split
      · trivial
      · split_ifs <;> trivial

lemma looks_verifyOwnedBranch {record : WorktreeRecord} :
    (verifyOwnedBranch record).Within Looks fun _ => True := by
  unfold verifyOwnedBranch
  split
  · trivial
  · dsimp only
    split_ifs
    · trivial
    refine looks_fileIdentity.seq fun identity => ?_
    split
    · trivial
    · split_ifs
      · trivial
      refine (looks_inspecting (within_asking (by trivial))).seq fun text => ?_
      split
      · trivial
      · split_ifs <;> trivial

lemma looks_verifyOwnedProjectCopy {record : ProjectCopyRecord} :
    (verifyOwnedProjectCopy record).Within Looks fun _ => True := by
  unfold verifyOwnedProjectCopy
  split
  · trivial
  · have hidentity : (projectCopyIdentity (.ofText record.directoryPrefix)).Within Looks
        fun _ => True := by
      refine (within_asking (by trivial)).seq fun _ =>
        (looks_inspecting (within_asking (by trivial))).seq fun details => ?_
      split
      · trivial
      · split_ifs
        · trivial
        · exact (within_asking (by trivial)).seq fun _ => trivial
    refine hidentity.seq fun current => ?_
    split
    · trivial
    · split_ifs <;> trivial

end RunResources

/-! ## Preflight -/

namespace CleanupLocal

open RunResources

lemma looks_gitCompleted {command : GitCommand} {P : CleanupOp → Prop} (h : P (.git command)) :
    (gitCompleted command).Within P fun _ => True := by
  refine (within_asking h).attempted.seq fun answer => ?_
  cases answer with
  | ok completed => trivial
  | error error =>
    dsimp only
    split_ifs <;> trivial

lemma looks_gitText {command : GitCommand} (h : command.Looks) :
    (gitText command).Within Looks fun _ => True := by
  refine (looks_gitCompleted h).seq fun completed => ?_
  split_ifs <;> trivial

lemma looks_worktreeIsRegistered {record : WorktreeRecord} :
    (worktreeIsRegistered record).Within Looks fun _ => True :=
  (looks_gitText (by trivial)).seq fun _ => trivial

lemma looks_namedBranchTip {record : WorktreeRecord} :
    (namedBranchTip record).Within Looks fun _ => True := by
  unfold namedBranchTip
  split_ifs
  · trivial
  · refine (looks_gitCompleted (by trivial)).seq fun completed => ?_
    split_ifs <;> trivial

lemma looks_mergedBranches {record : WorktreeRecord} :
    (mergedBranches record).Within Looks fun _ => True :=
  (looks_gitText (by trivial)).seq fun _ => trivial

lemma within_handlingStoreErrors {α : Type} {P : CleanupOp → Prop} {p : Cleanup α}
    (h : p.Within P fun _ => True) : (handlingStoreErrors p).Within P fun _ => True := by
  refine h.attempted.seq fun answer => ?_
  split <;> trivial

lemma looks_logIsThere {record : LogRecord} : (logIsThere record).Within Looks fun _ => True := by
  refine (within_asking (by trivial)).seq fun there => ?_
  split_ifs
  · trivial
  · exact within_asking (by trivial)

lemma looks_worktreeError {force : Bool} {record : WorktreeRecord} :
    (worktreeError force record).Within Looks fun _ => True := by
  refine looks_verifyOwnedWorktree.seq fun error => ?_
  split
  · trivial
  · split_ifs
    · trivial
    refine (within_handlingStoreErrors (looks_gitText (by trivial))).seq fun output => ?_
    split <;> trivial

lemma looks_preflightWorktrees {records : List WorktreeRecord} {force : Bool}
    {errors : List JsonValue} :
    (preflightWorktrees records force errors).Within Looks fun _ => True := by
  refine Within.foldlM fun found record => (within_asking (by trivial)).seq fun there => ?_
  cases there with
  | false =>
    refine (within_handlingStoreErrors looks_worktreeIsRegistered).seq fun registered => ?_
    split
    · trivial
    · trivial
    · split_ifs <;> trivial
  | true =>
    refine looks_worktreeError.seq fun error => ?_
    split <;> trivial

lemma looks_branchError {record : WorktreeRecord} :
    (branchError record).Within Looks fun _ => True := by
  refine looks_verifyOwnedBranch.seq fun error => ?_
  split
  · trivial
  · refine (within_asking (by trivial)).seq fun there => ?_
    split_ifs
    · exact looks_verifyOwnedWorktree
    · trivial

lemma looks_checkMerged {force : Bool} {found : BranchBlocking} {record : WorktreeRecord} :
    (checkMerged force found record).Within Looks fun _ => True := by
  unfold checkMerged
  split_ifs
  · trivial
  · refine (within_handlingStoreErrors looks_mergedBranches).seq fun merged => ?_
    split
    · trivial
    · split_ifs <;> trivial

lemma looks_preflightBranches {records : List WorktreeRecord} {force : Bool}
    {errors : List JsonValue} {blockedWorktrees selectedWorktrees : List String} :
    (preflightBranches records force errors blockedWorktrees selectedWorktrees).Within Looks
      fun _ => True := by
  refine Within.foldlM fun found record =>
    (within_handlingStoreErrors looks_namedBranchTip).seq fun tip => ?_
  split
  · trivial
  · trivial
  · split_ifs
    · trivial
    · refine (within_asking (by trivial)).seq fun there => ?_
      split_ifs
      · trivial
      refine looks_branchError.seq fun error => ?_
      split
      · trivial
      · exact looks_checkMerged
    · trivial

lemma looks_preflightLogs {records : List LogRecord} {errors : List JsonValue} :
    (preflightLogs records errors).Within Looks fun _ => True := by
  refine Within.foldlM fun found record => looks_logIsThere.seq fun there => ?_
  split_ifs
  · trivial
  · refine looks_verifyOwnedLog.seq fun error => ?_
    split <;> trivial

end CleanupLocal

namespace CleanupPreflight

open CleanupLocal RunResources

lemma looks_preflightCleanup {py : Interpreter} {run : RunData} {plan : CleanupPlan} {force : Bool} :
    (preflightCleanup py run plan force).Within Looks fun _ => True := by
  refine looks_preflightWorktrees.seq fun worktrees => looks_preflightBranches.seq fun branches =>
    looks_preflightLogs.seq fun logs => ?_
  refine (Within.foldlM fun found record => looks_verifyOwnedProjectCopy.seq fun error => ?_).seq
    fun projects => ?_
  · split <;> trivial
  · exact (within_ofExcept.2 fun _ _ => trivial).seq fun _ => trivial

end CleanupPreflight

/-! ## The removal of the resources -/

namespace RunCleanup

open CleanupLocal RunResources

/-- What does not touch the store. -/
def OffStore (op : CleanupOp) : Prop := ¬ op.OnStore

lemma offStore_of_looks {α : Type} {p : Cleanup α} (h : p.Within Looks fun _ => True) :
    p.Within OffStore fun _ => True :=
  h.mono (fun _ h => h.not_onStore) fun _ h => h

lemma offStore_previewProjectMetadata {supported : Bool} {plan : CleanupPlan}
    {record : CleanupRecord} {assumedMissingPaths : List String}
    {blockedProjects : List (String × String)} :
    (previewProjectMetadata supported plan record assumedMissingPaths blockedProjects).Within
      OffStore fun _ => True := by
  unfold previewProjectMetadata
  split_ifs
  · trivial
  · trivial
  · refine (Within.foldlM fun found entry => ?_).seq fun _ => trivial
    unfold previewProject
    split_ifs
    · trivial
    · refine ⟨fun h => h, fun result => ?_⟩
      cases result <;> trivial

lemma offStore_runGit {command : GitCommand} : (runGit command).Within OffStore fun _ => True :=
  (looks_gitCompleted fun h => h).seq fun _ => trivial

lemma offStore_finish {transaction : BranchDeleteTransaction} {command : FinishCommand}
    {fallback : String} :
    (transaction.finish command fallback).Within OffStore fun _ => True := by
  refine (within_asking fun h => h).attempted.seq fun answer => ?_
  cases answer with
  | error error =>
    dsimp only
    split_ifs <;> trivial
  | ok completed =>
    dsimp only
    split_ifs <;> trivial

lemma offStore_prepare {transaction : BranchDeleteTransaction} :
    transaction.prepare.Within OffStore fun _ => True := by
  refine (within_asking fun h => h).seq fun valid => ?_
  split_ifs
  · trivial
  · refine (within_asking fun h => h).attempted.seq fun answer => ?_
    cases answer with
    | error error =>
      dsimp only
      split_ifs <;> trivial
    | ok responses =>
      dsimp only
      split_ifs
      · exact offStore_finish.seq fun _ => trivial
      · trivial

lemma offStore_removeVerifiedWorktree {force : Bool} {result : CleanupRecord}
    {record : WorktreeRecord} {branch : Option (DeletableBranch × BranchDeleteTransaction)} :
    (removeVerifiedWorktree force result record branch).Within OffStore fun _ => True := by
  refine offStore_runGit.seq fun error => ?_
  cases error with
  | some error =>
    have habort : (abortIfPrepared (branch.map Prod.snd)).Within OffStore fun _ => True := by
      cases branch with
      | none => trivial
      | some found => exact offStore_finish.seq fun _ => trivial
    exact habort.seq fun _ => trivial
  | none =>
    cases branch with
    | none => trivial
    | some found =>
      refine offStore_finish.seq fun error => ?_
      split <;> trivial

lemma offStore_removeWorktrees {records : List WorktreeRecord} {blocked : List String}
    {force : Bool} {result : CleanupRecord} {branches : String → Option DeletableBranch} :
    (removeWorktrees records blocked force result branches).Within OffStore fun _ => True := by
  refine Within.foldlM fun result record => ?_
  unfold removeWorktree
  split_ifs
  · trivial
  refine (within_asking fun h => h).seq fun there => ?_
  split_ifs
  · refine (offStore_of_looks looks_verifyOwnedWorktree).seq fun error => ?_
    split
    · trivial
    · split
      · exact offStore_removeVerifiedWorktree
      · refine offStore_prepare.seq fun prepared => ?_
        split
        · trivial
        · refine (offStore_of_looks looks_verifyOwnedWorktree).seq fun error => ?_
          split
          · split
            · trivial
            · exact offStore_finish.seq fun _ => trivial
          · exact offStore_removeVerifiedWorktree
  · unfold completeMissingWorktree
    split
    · trivial
    · refine (within_handlingStoreErrors
        (offStore_of_looks looks_worktreeIsRegistered)).seq fun registered => ?_
      split <;> trivial

lemma offStore_removeBranches {records : List WorktreeRecord} {blocked : List (String × String)}
    {expectedTips : List ((String × String) × String)} {result : CleanupRecord} :
    (removeBranches records blocked expectedTips result).Within OffStore fun _ => True := by
  refine Within.foldlM fun result record => ?_
  unfold removeBranch
  split_ifs
  · trivial
  refine (within_handlingStoreErrors (offStore_of_looks looks_namedBranchTip)).seq fun tip => ?_
  split
  · trivial
  · trivial
  · refine (offStore_of_looks looks_verifyOwnedBranch).seq fun error => ?_
    split
    · trivial
    · split_ifs
      · trivial
      refine offStore_runGit.seq fun error => ?_
      split <;> trivial

lemma offStore_removeLogs {records : List LogRecord} {blocked : List String}
    {result : CleanupRecord} :
    (removeLogs records blocked result).Within OffStore fun _ => True := by
  refine Within.foldlM fun result record => ?_
  unfold removeLog
  split_ifs
  · trivial
  refine (offStore_of_looks looks_logIsThere).seq fun there => ?_
  split_ifs
  · trivial
  refine (offStore_of_looks looks_verifyOwnedLog).seq fun error => ?_
  split
  · trivial
  · refine (within_asking fun h => h).attempted.seq fun answer => ?_
    cases answer with
    | ok _ => trivial
    | error error =>
      dsimp only
      split_ifs <;> trivial

lemma offStore_cleanupSessions {plan : CleanupPlan} {record : CleanupRecord} :
    (cleanupSessions plan record).Within OffStore fun _ => True := by
  unfold cleanupSessions
  split_ifs
  · trivial
  have hverify : ∀ sessionId, (DisposableSessions.verifyDeleted sessionId).Within OffStore
      fun _ => True := by
    intro sessionId
    refine ⟨fun h => h, fun answer => ?_⟩
    cases answer with
    | ok _ => trivial
    | error error =>
      dsimp only
      split_ifs <;> trivial
  have hdelete : ∀ sessionId, (DisposableSessions.deleteAndVerify sessionId).Within OffStore
      fun _ => True := by
    intro sessionId
    refine ⟨fun h => h, fun answer => ?_⟩
    cases answer with
    | ok _ => exact hverify sessionId
    | error error =>
      dsimp only
      split_ifs
      · trivial
      · exact hverify sessionId
      · trivial
  have hsessions : (deleteSessions plan).Within OffStore fun _ => True := by
    refine ⟨fun h => h, fun answer => ?_⟩
    refine (within_ofExcept.2 fun _ _ => trivial).seq fun _ => Within.foldlM fun found id => ?_
    refine (hdelete id).seq fun error => ?_
    split <;> trivial
  refine hsessions.attempted.seq fun answer => ?_
  split
  · split_ifs <;> trivial
  · trivial

lemma offStore_cleanupProjectMetadata {supported : Bool} {plan : CleanupPlan}
    {projectPlans : List ProjectPlan} {record : CleanupRecord} :
    (cleanupProjectMetadata supported plan projectPlans record).Within OffStore
      fun _ => True := by
  unfold cleanupProjectMetadata
  split_ifs
  · trivial
  · trivial
  · refine Within.foldlM fun record projectPlan => ⟨fun h => h, fun result => ?_⟩
    cases result with
    | error error => trivial
    | ok result =>
      dsimp only
      split_ifs <;> trivial

/-- Between the start and the end of its audit a cleanup does not touch the store. -/
theorem offStore_removeResources {supported : Bool} {plan : CleanupPlan} {preflight : Preflight}
    {projectPlans : List ProjectPlan} {request : RunCleanupRequest} {record : CleanupRecord} :
    (removeResources supported plan preflight projectPlans request record).Within OffStore
      fun _ => True :=
  offStore_cleanupSessions.seq fun _ => offStore_removeWorktrees.seq fun _ =>
    offStore_cleanupProjectMetadata.seq fun _ => offStore_removeBranches.seq fun _ =>
      offStore_removeLogs

end RunCleanup

end OpencodeSession
