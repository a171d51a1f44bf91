import Mathlib.Data.List.Infix
import OpencodeSession.Cleanup.Plan
import OpencodeSession.Cleanup.Verify

/-!
# Worktrees, branches and logs

Preflight looks at each planned resource and blocks those that are not to be removed; the removal
looks again and removes what is left.  A branch is deleted together with its worktree, by a
transaction that is prepared before the worktree is removed and committed afterwards, or by itself
in a second sweep; both name the tip that preflight verified.

A record that is passed over is either completed or blocked with an error, which is what the apply
reports in the end.
-/

namespace OpencodeSession

/-- The first of two texts, or the second if it is empty: `text or other`. -/
def orText (text other : String) : String := if text = "" then other else text

/-! ## A prepared deletion -/

namespace BranchDeleteTransaction

open Cleanup

/-- `_finish`. -/
def finish (transaction : BranchDeleteTransaction) (command : FinishCommand) (fallback : String) :
    Cleanup (Option String) := do
  let answer : Except PyError CompletedProcess ←
    Process.attempt (.call (.finishDeletion transaction command)
      fun (answer : Except PyError CompletedProcess) => .ofExcept answer)
  match answer with
  | .error error =>
    if error.isOSError || error.isValueError then return some s!"{fallback}: {error.message}"
    else throw error
  | .ok completed =>
    let stdout := stripText completed.stdout
    if completed.returncode = 0 ∧ s!"{command.word}: ok" ∈ splitLines stdout then return none
    else return some (orText (stripText completed.stderr) (orText stdout fallback))

/-- `commit`. -/
def commit (transaction : BranchDeleteTransaction) : Cleanup (Option String) :=
  transaction.finish .commit "atomic branch deletion failed"

/-- `abort`. -/
def abort (transaction : BranchDeleteTransaction) : Cleanup (Option String) :=
  transaction.finish .abort "atomic branch deletion abort failed"

/-- `prepare`: the prepared transaction, and the error if there is one. -/
def prepare (transaction : BranchDeleteTransaction) :
    Cleanup (Option BranchDeleteTransaction × Option String) := do
  let valid ← git (.checkRefFormat transaction.branch)
  if valid.returncode ≠ 0 then
    return (none, some (orText (stripText valid.stderr)
      (orText (stripText valid.stdout) "recorded branch name is invalid")))
  else
    let answer : Except PyError (String × String) ←
      Process.attempt (.call (.prepareDeletion transaction)
        fun (answer : Except PyError (String × String)) => .ofExcept answer)
    match answer with
    | .error error =>
      if error.isOSError then
        return (none, some s!"cannot prepare atomic branch deletion: {error.message}")
      else throw error
    | .ok responses =>
      if (stripText responses.1, stripText responses.2) ≠ ("start: ok", "prepare: ok") then
        return (none, ← transaction.finish .abort "branch changed before deletion")
      else return (some transaction, none)

end BranchDeleteTransaction

namespace CleanupLocal

open Cleanup RunResources

/-! ## Git -/

/-- `_git_error`. -/
def gitError (completed : CompletedProcess) : String :=
  orText (stripText completed.stderr)
    (orText (stripText completed.stdout) s!"git exited {completed.returncode}")

/-- `_git_completed`. -/
def gitCompleted (command : GitCommand) : Cleanup CompletedProcess := do
  match ← (git command).attempt with
  | .ok completed => return completed
  | .error error =>
    if error.isOSError then throw (.runStore s!"cannot execute git: {error.message}" "data")
    else throw error

/-- `_git`. -/
def gitText (command : GitCommand) : Cleanup String := do
  let completed ← gitCompleted command
  if completed.returncode = 0 then return stripText completed.stdout
  else throw (.runStore (gitError completed) "data")

/-- `_run_git`. -/
def runGit (command : GitCommand) : Cleanup (Option String) := do
  let completed ← gitCompleted command
  return if completed.returncode = 0 then none else some (gitError completed)

/-- `_worktree_is_registered`. -/
def worktreeIsRegistered (record : WorktreeRecord) : Cleanup Bool := do
  let output ← gitText (.listWorktrees record.gitDir)
  return s!"worktree {record.path}" ∈ splitLines output

/-- `_branch_tip`. -/
def branchTip (record : WorktreeRecord) : Cleanup (Option String) := do
  let completed ← gitCompleted (.verifyRef record.gitDir record.branch)
  if completed.returncode = 0 then return some (stripText completed.stdout)
  else if completed.returncode = 1 ∧ stripText completed.stderr = "" then return none
  else if completed.returncode = 128 ∧
      "Needed a single revision".toList <:+: completed.stderr.toList then return none
  else throw (.runStore (gitError completed) "data")

/-- `_branch_tip(record) if branch else None` -/
def namedBranchTip (record : WorktreeRecord) : Cleanup (Option String) :=
  if record.branch = "" then pure none else branchTip record

/-- `_merged_branches`. -/
def mergedBranches (record : WorktreeRecord) : Cleanup (List String) := do
  return splitLines (← gitText (.mergedBranches record.gitDir))

/-- A handler of `RunStoreError` that goes on with its text. -/
def handlingStoreErrors {α : Type} (p : Cleanup α) : Cleanup (Except String α) := do
  match ← p.attempt with
  | .ok a => return .ok a
  | .error (.runStore message _) => return .error message
  | .error error => throw error

/-! ## Preflight -/

/-- What preflight has blocked so far, and the errors. -/
structure Blocking (α : Type) where
  blocked : List α
  errors : List JsonValue

/-- Block a resource, with an error about a record. -/
def Blocking.block {α : Type} [DecidableEq α] (found : Blocking α) (resource : α)
    (category : String) (record : JsonValue) (error : String) : Blocking α where
  blocked := found.blocked.insert resource
  errors := addError found.errors category record error

/-- The error of a worktree that is there, if there is one. -/
def worktreeError (force : Bool) (record : WorktreeRecord) : Cleanup (Option String) := do
  match ← verifyOwnedWorktree record with
  | some error => return some error
  | none =>
    if force then return none
    else
      match ← handlingStoreErrors (gitText (.status (.ofText record.path))) with
      | .ok output =>
        return if output = "" then none
          else some "owned worktree is dirty; pass --force to remove it"
      | .error error => return some error

/-- The error of a path that is missing although git has it registered. -/
def missingWorktreeError : String :=
  "owned worktree path is missing but its Git registration remains"

/-- `preflight_worktrees`, on one record. -/
def preflightWorktree (force : Bool) (found : Blocking String) (record : WorktreeRecord) :
    Cleanup (Blocking String) := do
  if !(← pathExists (.ofText record.path)) then
    match ← handlingStoreErrors (worktreeIsRegistered record) with
    | .error error => return found.block record.path "worktrees" record.toJson error
    | .ok false => return found
    | .ok true =>
      -- An equal record that was passed before has its error already.
      if found.errors.any fun error => (error.get "resource").pyEq record.toJson then
        return { found with blocked := found.blocked.insert record.path }
      else return found.block record.path "worktrees" record.toJson missingWorktreeError
  else
    match ← worktreeError force record with
    | some error => return found.block record.path "worktrees" record.toJson error
    | none => return found

/-- `preflight_worktrees`. -/
def preflightWorktrees (records : List WorktreeRecord) (force : Bool) (errors : List JsonValue) :
    Cleanup (Blocking String) :=
  records.foldlM (preflightWorktree force) ⟨[], errors⟩

/-- The branches that preflight has blocked so far, and the tips that it has verified. -/
structure BranchBlocking extends Blocking (String × String) where
  verifiedTips : List ((String × String) × String)

/-- Block a branch, with an error. -/
def BranchBlocking.blockBranch (found : BranchBlocking) (record : WorktreeRecord)
    (error : String) : BranchBlocking :=
  { found with toBlocking := found.block record.branchIdentity "branches" record.toJson error }

/-- `preflight_branches`, on a branch whose tip is verified. -/
def checkMerged (force : Bool) (found : BranchBlocking) (record : WorktreeRecord) :
    Cleanup BranchBlocking := do
  if force then return found
  else
    match ← handlingStoreErrors (mergedBranches record) with
    | .error error => return found.blockBranch record error
    | .ok merged =>
      if record.branch ∈ merged then return found
      else
        return found.blockBranch record "owned branch is not merged; pass --force to remove it"

/-- The error of a branch whose worktree is there, if there is one. -/
def branchError (record : WorktreeRecord) : Cleanup (Option String) := do
  match ← verifyOwnedBranch record with
  | some error => return some error
  | none =>
    if ← pathExists (.ofText record.path) then verifyOwnedWorktree record else return none

/-- `preflight_branches`, on one record. -/
def preflightBranch (force : Bool) (blockedWorktrees selectedWorktrees : List String)
    (found : BranchBlocking) (record : WorktreeRecord) : Cleanup BranchBlocking := do
  match ← handlingStoreErrors (namedBranchTip record) with
  | .error error => return found.blockBranch record error
  | .ok none => return found
  | .ok (some tip) =>
    if record.path ∉ selectedWorktrees then
      return found.blockBranch record
        "branch cleanup requires the same invocation to select its owned worktree"
    else if record.path ∈ blockedWorktrees then
      return { found with blocked := found.blocked.insert record.branchIdentity }
    else if !(← pathExists (.ofText record.path)) then
      return found.blockBranch record
        "owned worktree must still exist when branch cleanup is planned"
    else
      match ← branchError record with
      | some error => return found.blockBranch record error
      | none =>
        checkMerged force
          { found with
            verifiedTips := Dict.insert record.branchIdentity tip found.verifiedTips } record

/-- `preflight_branches`. -/
def preflightBranches (records : List WorktreeRecord) (force : Bool) (errors : List JsonValue)
    (blockedWorktrees selectedWorktrees : List String) : Cleanup BranchBlocking :=
  records.foldlM (preflightBranch force blockedWorktrees selectedWorktrees) ⟨⟨[], errors⟩, []⟩

/-- Whether a log is there, as a file or as a link: `path.exists() or path.is_symlink()`. -/
def logIsThere (record : LogRecord) : Cleanup Bool := do
  if ← pathExists (.ofText record.path) then return true
  else isSymlink (.ofText record.path)

/-- `preflight_logs`, on one record. -/
def preflightLog (found : Blocking String) (record : LogRecord) : Cleanup (Blocking String) := do
  if !(← logIsThere record) then return found
  else
    match ← verifyOwnedLog record with
    | some error => return found.block record.path "logs" record.toJson error
    | none => return found

/-- `preflight_logs`. -/
def preflightLogs (records : List LogRecord) (errors : List JsonValue) :
    Cleanup (Blocking String) :=
  records.foldlM preflightLog ⟨[], errors⟩

/-! ## Removing -/

/-- A planned branch that is not blocked, with the tip that preflight verified. -/
structure DeletableBranch where
  record : WorktreeRecord
  tip : String

/-- The transaction that deletes a branch. -/
def DeletableBranch.transaction (branch : DeletableBranch) : BranchDeleteTransaction where
  gitDir := branch.record.gitDir
  branch := branch.record.branch
  expectedTip := branch.tip

/-- `branches_by_path`: of several branches with the same worktree the last. -/
def branchByPath (records : List WorktreeRecord) (blocked : List (String × String))
    (expectedTips : List ((String × String) × String)) (path : String) : Option DeletableBranch :=
  (records.reverse.filterMap fun record =>
    if record.branchIdentity ∈ blocked then none
    else (Dict.lookup record.branchIdentity expectedTips).map (DeletableBranch.mk record)).find?
      fun branch => branch.record.path = path

/-- Abort a transaction, if there is one. -/
def abortIfPrepared : Option BranchDeleteTransaction → Cleanup Unit
  | some transaction => do
    let _ ← transaction.abort
    return ()
  | none => return ()

/-- Remove a worktree that was verified, and finish the transaction of its branch. -/
def removeVerifiedWorktree (force : Bool) (result : CleanupRecord) (record : WorktreeRecord)
    (branch : Option (DeletableBranch × BranchDeleteTransaction)) : Cleanup CleanupRecord := do
  match ← runGit (.removeWorktree record.gitDir force record.path) with
  | some error =>
    abortIfPrepared (branch.map Prod.snd)
    return result.block "worktrees" record.toJson error
  | none =>
    match branch with
    | none => return result.completeWorktree record
    | some (branch, transaction) =>
      match ← transaction.commit with
      | some error =>
        return (result.block "branches" branch.record.toJson error).completeWorktree record
      | none => return (result.completeBranch branch.record).completeWorktree record

/-- Prepare the deletion of the branch of a worktree, verify the worktree again and remove it. -/
def removeWorktreeWithBranch (force : Bool) (result : CleanupRecord) (record : WorktreeRecord)
    (branch : DeletableBranch) : Cleanup CleanupRecord := do
  match ← branch.transaction.prepare with
  | (_, some error) => return result.block "branches" branch.record.toJson error
  | (transaction, none) =>
    match ← verifyOwnedWorktree record with
    | some error =>
      match transaction with
      | none => throw (.other "AttributeError" "'NoneType' object has no attribute 'abort'")
      | some transaction =>
        let _ ← transaction.abort
        return result.block "worktrees" record.toJson error
    | none =>
      removeVerifiedWorktree force result record (transaction.map fun transaction =>
        (branch, transaction))

/-- `remove_worktrees`, on a record whose path is missing. -/
def completeMissingWorktree (result : CleanupRecord) (record : WorktreeRecord)
    (branch : Option DeletableBranch) : Cleanup CleanupRecord := do
  match branch with
  | some branch =>
    return (result.block "worktrees" record.toJson
        "owned worktree disappeared after branch preflight").block "branches"
      branch.record.toJson "atomic branch deletion was not acquired"
  | none =>
    match ← handlingStoreErrors (worktreeIsRegistered record) with
    | .error error => return result.block "worktrees" record.toJson error
    | .ok true => return result.block "worktrees" record.toJson missingWorktreeError
    | .ok false => return result.completeWorktree record

/-- `remove_worktrees`, on one record. -/
def removeWorktree (blocked : List String) (force : Bool)
    (branches : String → Option DeletableBranch) (result : CleanupRecord)
    (record : WorktreeRecord) : Cleanup CleanupRecord := do
  if record.path ∈ blocked then return result
  else if ← pathExists (.ofText record.path) then
    match ← verifyOwnedWorktree record with
    | some error => return result.block "worktrees" record.toJson error
    | none =>
      match branches record.path with
      | none => removeVerifiedWorktree force result record none
      | some branch => removeWorktreeWithBranch force result record branch
  else completeMissingWorktree result record (branches record.path)

/-- `remove_worktrees`. -/
def removeWorktrees (records : List WorktreeRecord) (blocked : List String) (force : Bool)
    (result : CleanupRecord) (branches : String → Option DeletableBranch) :
    Cleanup CleanupRecord :=
  records.foldlM (removeWorktree blocked force branches) result

/-- Whether a branch needs no second sweep: it is completed, has an error, or is blocked. -/
def branchIsSettled (blocked : List (String × String)) (result : CleanupRecord)
    (record : WorktreeRecord) : Bool :=
  (result.completed.branches.any fun completed =>
    completed.branchIdentity = record.branchIdentity) ||
  (result.errors.any fun error =>
    (error.get "category").pyEq (.str "branches") &&
      (error.get "resource").pyEq record.toJson) ||
  record.branchIdentity ∈ blocked

/-- `remove_branches`, on one record. -/
def removeBranch (blocked : List (String × String))
    (expectedTips : List ((String × String) × String)) (result : CleanupRecord)
    (record : WorktreeRecord) : Cleanup CleanupRecord := do
  if branchIsSettled blocked result record then return result
  else
    match ← handlingStoreErrors (namedBranchTip record) with
    | .error error => return result.block "branches" record.toJson error
    | .ok none => return result.completeBranch record
    | .ok (some tip) =>
      match ← verifyOwnedBranch record with
      | some error => return result.block "branches" record.toJson error
      | none =>
        if Dict.lookup record.branchIdentity expectedTips ≠ some tip then
          return result.block "branches" record.toJson "owned branch tip changed after preflight"
        else
          match ← runGit (.deleteRef record.gitDir record.branch tip) with
          | some error => return result.block "branches" record.toJson error
          | none => return result.completeBranch record

/-- `remove_branches`. -/
def removeBranches (records : List WorktreeRecord) (blocked : List (String × String))
    (expectedTips : List ((String × String) × String)) (result : CleanupRecord) :
    Cleanup CleanupRecord :=
  records.foldlM (removeBranch blocked expectedTips) result

/-- `remove_logs`, on one record. -/
def removeLog (blocked : List String) (result : CleanupRecord) (record : LogRecord) :
    Cleanup CleanupRecord := do
  if record.path ∈ blocked then return result
  else if !(← logIsThere record) then return result.completeLog record
  else
    match ← verifyOwnedLog record with
    | some error => return result.block "logs" record.toJson error
    | none =>
      match ← (unlink (.ofText record.path)).attempt with
      | .ok _ => return result.completeLog record
      | .error error =>
        if error.isOSError then return result.block "logs" record.toJson error.message
        else throw error

/-- `remove_logs`. -/
def removeLogs (records : List LogRecord) (blocked : List String) (result : CleanupRecord) :
    Cleanup CleanupRecord :=
  records.foldlM (removeLog blocked) result

end CleanupLocal

end OpencodeSession
