import OpencodeSession.Cleanup.Requests

/-!
# Processes that share a run

Cleanups of a run and other commands on it, each a process of its own.  They share the files of the
runs and the lease of the cleanups of this run, which is a lock on a file: who asks for it while it
is held is refused, and the system gives it back when its holder is killed.  The requests that are
not on the store leave both alone.
-/

namespace OpencodeSession

/-- The files of the runs, and the process that holds the lease of the cleanups of one of them. -/
structure SharedRun (ι : Type) where
  directory : Directory
  lease : Option ι

namespace SharedRun

variable (py : Interpreter) (store : RunStore) (name : String) {ι : Type}

/-- The answers to an update of the run, and what they leave. -/
def Updates (mutator : Mutator) (allowCleanupInProgress : Bool) (s : SharedRun ι)
    (answer : StoreAnswer) (s' : SharedRun ι) : Prop :=
  match answer.saved? with
  | some saved => store.updateRun py s.directory name mutator allowCleanupInProgress = .ok saved ∧
      s' = { s with directory := saved.applyTo s.directory }
  | none => s' = s

/-- What the deletion of the run leaves. -/
def Deletes (expectedRun : RunData) (s s' : SharedRun ι) : Prop :=
  ∃ directory, store.deleteRun py s.directory name (some expectedRun) = .ok directory ∧
    s' = { s with directory := directory }

variable [DecidableEq ι]

/-- The surroundings of the processes. -/
def surroundings : Surroundings cleanupInterface ι (SharedRun ι) := fun i s op answer s' =>
  match op with
  | .acquireLease =>
    match (answer : Except PyError Unit) with
    | .ok _ => s.lease = none ∧ s' = { s with lease := some i }
    | .error _ => s' = s
  | .releaseLease => s' = { s with lease := if s.lease = some i then none else s.lease }
  | .loadRun => s' = s ∧ ∀ run, (answer : Except PyError RunData) = .ok run →
      store.loadRun py s.directory name = .ok run
  | .updateRun mutator => Updates py store name mutator false s answer s'
  | .audit step => Updates py store name step.mutator true s answer s'
  | .deleteRun expectedRun =>
    match (answer : Except PyError Unit) with
    | .ok _ => Deletes py store name expectedRun s s'
    -- the file may be gone when the lock is released with an error
    | .error _ => s' = s ∨ Deletes py store name expectedRun s s'
  | _ => s' = s

/-- A mutator that keeps the name of the run. -/
def KeepsName (mutator : Mutator) : Prop :=
  ∀ run left, mutator run = .ok left → left.fields.field "name" = run.name

/-- What the other commands ask for: they load the run and update it under its name. -/
def CommandOp : CleanupOp → Prop
  | .loadRun => True
  | .updateRun mutator => KeepsName mutator
  | op => ¬ op.OnStore

/-- Another command on the run. -/
def IsCommand (p : Cleanup Unit) : Prop := p.Within CommandOp fun _ => True

/-- A cleanup that is killed after a number of requests, unless it has ended.  The system gives its
lease back. -/
def killed {α : Type} (p : Cleanup α) (steps : Nat) : Cleanup Unit := do
  (p.upTo steps : Cleanup Unit)
  .call .releaseLease fun (_ : Except PyError Unit) => return ()

/-- A cleanup of the run. -/
def IsCleanup (p : Cleanup Unit) : Prop :=
  ∃ supported request steps, p = killed (RunCleanup.cleanup py supported request) steps

end SharedRun

end OpencodeSession
