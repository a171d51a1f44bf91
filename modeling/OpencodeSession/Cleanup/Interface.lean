import OpencodeSession.Cleanup.Records
import OpencodeSession.Framework.Interleaving
import OpencodeSession.Store.RunStore

/-!
# What a cleanup asks for

The requests that a cleanup of a run makes: the store and the lease, the file system, `git`, the
server, and the cleanup of project copies.  Each request is one step; what a check finds can be
different at the next request.

The updates of the record are requests of their own, `CleanupOp.audit` for a cleanup and
`CleanupOp.updateRun` for the other commands, because the store answers the two differently.
-/

namespace OpencodeSession

/-! ## The file system and git -/

/-- What kind of file a mode says. -/
inductive FileKind where
  | regular | directory | symlink | other
  deriving DecidableEq, Repr

/-- What `stat` and `lstat` tell of a file. -/
structure FileStatus where
  kind : FileKind
  device : Nat
  inode : Nat
  deriving DecidableEq, Repr

/-- A finished child process. -/
structure CompletedProcess where
  returncode : Int
  stdout : String
  stderr : String
  deriving DecidableEq, Repr

/-- The commands of `git` that a cleanup runs. -/
inductive GitCommand where
  /-- `git -C PATH status --porcelain` -/
  | status (path : PurePath)
  /-- `git --git-dir GIT_DIR worktree list --porcelain` -/
  | listWorktrees (gitDir : String)
  /-- `git --git-dir GIT_DIR worktree remove [--force] PATH` -/
  | removeWorktree (gitDir : String) (force : Bool) (path : String)
  /-- `git --git-dir GIT_DIR rev-parse --verify refs/heads/BRANCH` -/
  | verifyRef (gitDir branch : String)
  /-- `git --git-dir GIT_DIR branch --merged HEAD --format=%(refname:short)` -/
  | mergedBranches (gitDir : String)
  /-- `git --git-dir GIT_DIR update-ref -d refs/heads/BRANCH TIP` -/
  | deleteRef (gitDir branch tip : String)
  /-- `git check-ref-format refs/heads/BRANCH` -/
  | checkRefFormat (branch : String)
  /-- `git -C PATH rev-parse --show-toplevel` -/
  | showToplevel (path : PurePath)
  /-- `git -C PATH rev-parse --path-format=absolute --git-common-dir` -/
  | gitCommonDir (path : PurePath)
  /-- `git -C PATH rev-parse --path-format=absolute --absolute-git-dir` -/
  | absoluteGitDir (path : PurePath)
  /-- `git -C PATH symbolic-ref --quiet --short HEAD` -/
  | symbolicRef (path : PurePath)
  deriving DecidableEq, Repr

/-- `BranchDeleteTransaction`: a `git --git-dir GIT_DIR update-ref --stdin` that was told
`delete refs/heads/BRANCH TIP`. -/
structure BranchDeleteTransaction where
  gitDir : String
  branch : String
  expectedTip : String
  deriving DecidableEq, Repr

/-- The last line that a transaction is told. -/
inductive FinishCommand where
  | commit | abort
  deriving DecidableEq, Repr

/-- The word of a command. -/
def FinishCommand.word : FinishCommand → String
  | commit => "commit"
  | abort => "abort"

/-! ## The audit of a cleanup -/

/-- The updates of the record that a cleanup makes. -/
inductive AuditStep where
  /-- `begin_cleanup_audit`. -/
  | start (expectedRun : RunData) (cleanupRecord : JsonValue)
  /-- The first update of `finish_cleanup_audit`. -/
  | finish (expectedRun : RunData) (cleanupRecord : JsonValue)
  /-- The update that records an error of the store. -/
  | amend (cleanupRecord : JsonValue)

/-- `latest["resource_cleanup"] = deepcopy(cleanup_record)` -/
def RunData.setCleanup (run : RunData) (cleanupRecord : JsonValue) : RunValue :=
  { run.toValue with fields := Dict.insert "resource_cleanup" cleanupRecord run.fields }

/-- The mutator of `_update_if_unchanged`. -/
def updateIfUnchanged (expectedRun : RunData) (cleanupRecord : JsonValue) : Mutator := fun latest =>
  if latest.pyEq expectedRun then .ok (latest.setCleanup cleanupRecord)
  else .error (.runStore
    "run record changed during cleanup; refusing to use the stale cleanup plan" "conflict")

/-- The mutator of a step. -/
def AuditStep.mutator : AuditStep → Mutator
  | start expectedRun cleanupRecord | finish expectedRun cleanupRecord =>
    updateIfUnchanged expectedRun cleanupRecord
  | amend cleanupRecord => fun latest => .ok (latest.setCleanup cleanupRecord)

/-- The answer of the store to an update. -/
inductive StoreAnswer where
  /-- The update is written. -/
  | committed (saved : Saved)
  /-- Nothing is written. -/
  | rejected (error : PyError)
  /-- The update is written, and the caller gets an error. -/
  | lost (saved : Saved) (error : PyError)

/-- What the caller of the update gets. -/
def StoreAnswer.toExcept : StoreAnswer → Except PyError RunData
  | committed saved => .ok saved.run
  | rejected error | lost _ error => .error error

/-- What an update has saved, if it is written. -/
def StoreAnswer.saved? : StoreAnswer → Option Saved
  | committed saved | lost saved _ => some saved
  | rejected _ => none

/-! ## Requests -/

/-- The requests of a cleanup, and the two requests of the other commands on the store. -/
inductive CleanupOp where
  /-- Entering `cleanup_lease`. -/
  | acquireLease
  /-- Leaving `cleanup_lease`. -/
  | releaseLease
  | loadRun
  /-- `update_run` of another command. -/
  | updateRun (mutator : Mutator)
  /-- `update_run` of a cleanup, with `allow_cleanup_in_progress`. -/
  | audit (step : AuditStep)
  | deleteRun (expectedRun : RunData)
  | pathExists (path : PurePath)
  | isSymlink (path : PurePath)
  | isDir (path : PurePath)
  | resolve (path : PurePath)
  | realpath (path : PurePath)
  | stat (path : PurePath)
  | lstat (path : PurePath)
  | readText (path : PurePath)
  | unlink (path : PurePath)
  | git (command : GitCommand)
  /-- Start the process of a transaction, tell it what to delete and to prepare it, and read two
  lines. -/
  | prepareDeletion (transaction : BranchDeleteTransaction)
  /-- Tell a transaction how to finish, and wait for it. -/
  | finishDeletion (transaction : BranchDeleteTransaction) (command : FinishCommand)
  /-- Make a client, probe the server and configure the routes. -/
  | connect (serverUrl : JsonValue)
  | deleteSession (sessionId : String)
  | getSession (sessionId : String)
  /-- `project_cleanup` with `apply=False`. -/
  | previewProject (entry : ProjectCopyRecord) (serverUrl : JsonValue)
      (assumedMissingPaths : List String)
  /-- `project_cleanup` with `apply=True`. -/
  | applyProject (entry : ProjectCopyRecord) (serverUrl : JsonValue)
      (plannedOutcome : ProjectOutcome)

/-- The answers: everything may be an exception. -/
@[reducible] def CleanupOp.Answer : CleanupOp → Type
  | acquireLease | releaseLease | deleteRun _ | unlink _ => Except PyError Unit
  | loadRun => Except PyError RunData
  | updateRun _ | audit _ => StoreAnswer
  | pathExists _ | isSymlink _ | isDir _ => Except PyError Bool
  | resolve _ => Except PyError PurePath
  | realpath _ | readText _ => Except PyError String
  | stat _ | lstat _ => Except PyError FileStatus
  | git _ => Except PyError CompletedProcess
  | prepareDeletion _ => Except PyError (String × String)
  | finishDeletion _ _ => Except PyError CompletedProcess
  | connect _ | deleteSession _ | getSession _ => Except PyError Unit
  | previewProject _ _ _ => Except PyError ProjectOutcome
  | applyProject _ _ _ => Except PyError ProjectResult

/-- The interface of a cleanup. -/
abbrev cleanupInterface : Interface := ⟨CleanupOp, CleanupOp.Answer⟩

/-- A process of a cleanup. -/
abbrev Cleanup (α : Type) : Type := Process cleanupInterface PyError α

namespace Cleanup

/-! ## Asking -/

/-- `path.exists()` -/
def pathExists (path : PurePath) : Cleanup Bool :=
  .call (.pathExists path) fun (answer : Except PyError Bool) => .ofExcept answer

/-- `path.is_symlink()` -/
def isSymlink (path : PurePath) : Cleanup Bool :=
  .call (.isSymlink path) fun (answer : Except PyError Bool) => .ofExcept answer

/-- `path.is_dir()` -/
def isDir (path : PurePath) : Cleanup Bool :=
  .call (.isDir path) fun (answer : Except PyError Bool) => .ofExcept answer

/-- `path.resolve()` -/
def resolve (path : PurePath) : Cleanup PurePath :=
  .call (.resolve path) fun (answer : Except PyError PurePath) => .ofExcept answer

/-- `os.path.realpath(path)` -/
def realpath (path : PurePath) : Cleanup String :=
  .call (.realpath path) fun (answer : Except PyError String) => .ofExcept answer

/-- `os.stat(path)` -/
def stat (path : PurePath) : Cleanup FileStatus :=
  .call (.stat path) fun (answer : Except PyError FileStatus) => .ofExcept answer

/-- `os.lstat(path)` -/
def lstat (path : PurePath) : Cleanup FileStatus :=
  .call (.lstat path) fun (answer : Except PyError FileStatus) => .ofExcept answer

/-- `path.read_text(encoding="utf-8", errors="replace")` -/
def readText (path : PurePath) : Cleanup String :=
  .call (.readText path) fun (answer : Except PyError String) => .ofExcept answer

/-- `path.unlink()` -/
def unlink (path : PurePath) : Cleanup Unit :=
  .call (.unlink path) fun (answer : Except PyError Unit) => .ofExcept answer

/-- `subprocess.run(["git", ...])` -/
def git (command : GitCommand) : Cleanup CompletedProcess :=
  .call (.git command) fun (answer : Except PyError CompletedProcess) => .ofExcept answer

/-- An update of the record by a cleanup. -/
def audit (step : AuditStep) : Cleanup RunData :=
  .call (.audit step) fun (answer : StoreAnswer) => .ofExcept answer.toExcept

end Cleanup

namespace PyError

/-- `isinstance(error, ValueError)`. -/
def isValueError : PyError → Bool
  | valueError _ => true
  | _ => false

/-- `isinstance(error, OSError)`. -/
def isOSError : PyError → Bool
  | osError _ | timeoutError _ => true
  | _ => false

end PyError

end OpencodeSession
