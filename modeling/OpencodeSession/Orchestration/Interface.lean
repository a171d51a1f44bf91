import OpencodeSession.Framework.Interleaving
import OpencodeSession.Run.Mutation
import OpencodeSession.Run.Store

/-!
# What the commands ask for

The requests that the commands make of their surroundings: the store, the clock, fresh identifiers,
and the server.  Every request carries the phase of the work it is made in, which no one answers by:
it is what a statement about an interleaving can see of a process that waits.

`Request.Responds` says how the surroundings answer.  The store keeps the record of one run; the
server and the clock may answer anything, within what the code around them guarantees.
-/

namespace OpencodeSession

/-- Where in its work a process makes a request. -/
inductive Phase where
  /-- Loading the run and applying the request of the start. -/
  | requesting
  /-- The recovery phase, with the worker that would be selected next from the run in hand. -/
  | recovering (next : Option String)
  /-- The planning phase, with the worker it selected. -/
  | planning (selected : Option String)
  /-- Probing the server, with a selected worker. -/
  | probing (selected : String)
  /-- Marking the run as active, with a selected worker. -/
  | entering (selected : String)
  /-- Providing a worker with a session. -/
  | provisioning (workerId : String)
  /-- Making a worker active. -/
  | activating (workerId : String)
  /-- Recording the start of an attempt. -/
  | starting (workerId : String)
  /-- Sending the prompt of an attempt. -/
  | prompting (workerId attemptId : String)
  /-- Recording the outcome of an attempt. -/
  | recording (workerId : String)
  /-- Marking the workers of a failed start. -/
  | failing
  /-- Deleting the sessions created for a worker. -/
  | cleaning (workerId : String)
  /-- Another command than a start. -/
  | serving
  deriving DecidableEq

/-- `blocking_execution_strategy`. -/
inductive BlockingStrategy where
  | sessionMessage | legacyRunReply
  deriving DecidableEq

/-- The request that creates a session. -/
structure SessionCreation where
  directory : String
  agent : Option String
  model : Option String
  metadata : List (String × String)

/-- The request that sends a prompt. -/
structure PromptExecution where
  workerId : String
  sessionId : Option String
  prompt : String
  deadline : Option TimeoutSeconds
  promptId : Option String

/-- The requests of the commands. -/
inductive Request where
  | loadRun
  | createRun (name directory serverUrl : String)
  | updateRun (mutation : RunMutation)
  | now
  /-- The identifier of a new transaction. -/
  | newId
  /-- The identifier of a new message. -/
  | newMessageId
  /-- `TimeoutDeadline.require_time`: whether there is time left. -/
  | requireTime
  /-- The capability probe, which answers the execution strategy of the server. -/
  | probe (serverUrl : String)
  | createSession (creation : SessionCreation)
  | executePrompt (execution : PromptExecution)
  | abortSession (sessionId : String)
  | deleteSession (sessionId : String)
  | getSession (sessionId : String)

/-- The answer to a request.  An answer that may be an exception is an `Except`. -/
@[reducible] def Request.Answer : Request → Type
  | loadRun => Except PyError Run
  | createRun _ _ _ => Except PyError Run
  | updateRun _ => UpdateAnswer
  | now | newId | newMessageId => String
  | requireTime => Bool
  | probe _ => Except PyError (Option BlockingStrategy)
  | createSession _ => Except PyError String
  | executePrompt _ => Except PyError ExecutionResult
  | abortSession _ => Except PyError JsonValue
  | deleteSession _ | getSession _ => Except PyError Unit

/-- A request with the phase it is made in. -/
structure Call where
  phase : Phase
  request : Request

/-- The interface of the commands. -/
abbrev storeInterface : Interface := ⟨Call, fun call => call.request.Answer⟩

/-- A process of a command. -/
abbrev Command (α : Type) : Type := Process storeInterface PyError α

/-- An exception of the server, the transport or the executor.  Only the store's reducers raise
the transition error. -/
def RemoteAnswer {α : Type} : Except PyError α → Prop
  | .ok _ => True
  | .error error => error.isWorkerTransitionError = false

/-- How the surroundings answer a request, with the stored record before and after. -/
def Request.Responds : (request : Request) → Option Run → request.Answer → Option Run → Prop
  | loadRun, stored, answer, stored' => stored' = stored ∧
      match answer with
      | .ok run => stored = some run
      | .error error => error.isPersistenceError = true
  | createRun name directory serverUrl, stored, answer, stored' =>
      match answer with
      | .ok run => stored = none ∧ run = (Run.new name directory serverUrl).normalize ∧
          stored' = some run
      | .error error => error.isPersistenceError = true ∧
          (stored' = stored ∨
            stored = none ∧ stored' = some (Run.new name directory serverUrl).normalize)
  | updateRun mutation, stored, answer, stored' => Updates mutation.apply stored answer stored'
  | newId, stored, answer, stored' => stored' = stored ∧ answer ≠ "" ∧
      ∀ run, stored = some run → ∀ field,
        ¬ RemoteMutationJournal.Holds (run.journal field) answer
  | newMessageId, stored, answer, stored' => stored' = stored ∧ answer ≠ ""
  | now, stored, _, stored' => stored' = stored
  | requireTime, stored, _, stored' => stored' = stored
  | probe _, stored, answer, stored' => stored' = stored ∧ RemoteAnswer answer
  | createSession _, stored, answer, stored' => stored' = stored ∧ RemoteAnswer answer ∧
      ∀ sessionId, answer = .ok sessionId → sessionId ≠ ""
  | executePrompt _, stored, answer, stored' => stored' = stored ∧ RemoteAnswer answer
  | abortSession _, stored, answer, stored' => stored' = stored ∧ RemoteAnswer answer
  | deleteSession _, stored, answer, stored' => stored' = stored ∧ RemoteAnswer answer
  | getSession _, stored, answer, stored' => stored' = stored ∧ RemoteAnswer answer

/-- The surroundings of the commands: whichever process asks, the answer is one of the allowed. -/
def storeSurroundings (ι : Type) : Surroundings storeInterface ι (Option Run) :=
  fun _ stored call answer stored' => call.request.Responds stored answer stored'

namespace Command

/-! ## Single requests -/

/-- Read the clock. -/
def clock (phase : Phase) : Command String :=
  .call ⟨phase, .now⟩ fun (now : String) => .done now

/-- Update the run, and return the clock as the mutator read it, the record it was given and the
record that was saved. -/
def update (phase : Phase) (mutation : RunMutation) : Command (String × Run × Run) :=
  .call ⟨phase, .updateRun mutation⟩ fun (answer : UpdateAnswer) => .ofExcept answer.toExcept

/-- Update the run, and return the record that was saved. -/
def persist (phase : Phase) (mutation : RunMutation) : Command Run :=
  .call ⟨phase, .updateRun mutation⟩ fun (answer : UpdateAnswer) =>
    .ofExcept (answer.toExcept.map fun result => result.2.2)

/-- How a transaction persists its journal mutations. -/
def journalPort (phase : Phase) (field : JournalField) :
    JournalPort storeInterface IntentFactory RunUpdate where
  persist mutation := update phase (.journal field mutation)
  now := clock phase

/-- A fresh identifier for a transaction. -/
def newId (phase : Phase) : Command String :=
  .call ⟨phase, .newId⟩ fun (id : String) => .done id

/-- Load the run. -/
def loadRun (phase : Phase) : Command Run :=
  .call ⟨phase, .loadRun⟩ fun (answer : Except PyError Run) => .ofExcept answer

end Command

end OpencodeSession
