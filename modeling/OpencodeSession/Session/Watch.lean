import OpencodeSession.Json
import OpencodeSession.Worker.Status

/-!
# Watching a session

`watchSession` is the command that prints the events of a session until one of them is terminal,
the stream ends or an error ends it.  In the compact form consecutive pieces of one text are held
back in `pendingText` and printed as one line; the other form prints every event as JSON, and what
it prints of one is a parameter.
-/

namespace OpencodeSession

/-- The kinds of a normalized event that is not ignored. -/
inductive EventKind where
  | admission | tool | status | prompt | step | text | error | blocker | unknown
  deriving DecidableEq

namespace EventKind

/-- The kind as it is stored and printed. -/
def name : EventKind → String
  | admission => "admission"
  | tool => "tool"
  | status => "status"
  | prompt => "prompt"
  | step => "step"
  | text => "text"
  | error => "error"
  | blocker => "blocker"
  | unknown => "unknown"

end EventKind

/-- `NormalizedEventRecord`, as far as the compact form prints it. -/
structure WatchEvent where
  kind : EventKind
  sessionId : Option String := none
  messageId : Option String := none
  delivery : Option String := none
  status : Option String := none
  tool : Option String := none
  callId : Option String := none
  step : Option String := none
  title : Option String := none
  text : Option String := none
  error : Option String := none
  blocker : Option String := none
  blockerId : Option String := none
  question : Option String := none
  deriving DecidableEq

/-! ## Printing an event -/

/-- A number below 16 as a digit. -/
def hexDigit (n : Nat) : Char := Char.ofNat (if n < 10 then 48 + n else 87 + n)

/-- The escape of a 16-bit number in a JSON text. -/
def unicodeEscape (n : Nat) : List Char :=
  ['\\', 'u', hexDigit (n / 4096), hexDigit (n / 256 % 16), hexDigit (n / 16 % 16),
    hexDigit (n % 16)]

/-- A character of a JSON text in ASCII. -/
def escapeChar (c : Char) : List Char :=
  if c = '"' then ['\\', '"']
  else if c = '\\' then ['\\', '\\']
  else if c = '\n' then ['\\', 'n']
  else if c = '\r' then ['\\', 'r']
  else if c = '\t' then ['\\', 't']
  else if c.toNat = 8 then ['\\', 'b']
  else if c.toNat = 12 then ['\\', 'f']
  else if 32 ≤ c.toNat ∧ c.toNat ≤ 126 then [c]
  else if c.toNat < 65536 then unicodeEscape c.toNat
  else
    let rest := c.toNat - 65536
    unicodeEscape (55296 + rest / 1024) ++ unicodeEscape (56320 + rest % 1024)

/-- `json.dumps(text)`. -/
def dumpsText (text : String) : String :=
  String.ofList ('"' :: (text.toList.flatMap escapeChar ++ ['"']))

/-- `compact_value` of a text. -/
def compactValue (text : String) : String :=
  if text = "" then "-"
  else if text.toList.any isPySpace then dumpsText text
  else text

namespace WatchEvent

/-- The fields that are printed of an event, in order. -/
def printedFields (event : WatchEvent) : List (String × Option String) :=
  ("session", event.sessionId) ::
    match event.kind with
    | .admission => [("message", event.messageId), ("delivery", event.delivery),
        ("status", event.status)]
    | .tool => [("message", event.messageId), ("call", event.callId), ("tool", event.tool),
        ("status", event.status)]
    | .status => [("status", event.status)]
    | .prompt => [("message", event.messageId), ("status", event.status)]
    | .step => [("message", event.messageId), ("step", event.step), ("status", event.status),
        ("title", event.title)]
    | .text => [("message", event.messageId),
        ("chars", some (toString (event.text.getD "").length)), ("text", event.text)]
    | .error => [("message", event.messageId), ("status", event.status), ("error", event.error)]
    | .blocker => [("blocker", event.blocker), ("id", event.blockerId),
        ("message", event.messageId), ("question", event.question)]
    | .unknown => [("message", event.messageId), ("status", event.status)]

/-- `format_watch_event`. -/
def formatWatchEvent (event : WatchEvent) : String :=
  " ".intercalate (event.kind.name :: event.printedFields.filterMap fun field =>
    field.2.map fun value => field.1 ++ "=" ++ compactValue value)

/-- `short_status(event.get("status"))`. -/
def shortStatus (event : WatchEvent) : Option String := event.status.map OpencodeSession.shortStatus

/-- `is_terminal_event`. -/
def isTerminal (event : WatchEvent) : Bool :=
  event.shortStatus ∈ [some "done", some "aborted", some "timeout"] ||
    (event.shortStatus = some "failed" && event.kind = .status)

/-- `is_abort_event`. -/
def isAbort (event : WatchEvent) : Bool := event.shortStatus = some "aborted"

/-- A piece of text with the text of the next piece. -/
def withText (pending event : WatchEvent) : WatchEvent :=
  { pending with text := some (pending.text.getD "" ++ event.text.getD "") }

/-- `_same_watch_text_group`. -/
def sameWatchTextGroup (left right : WatchEvent) : Bool :=
  left.sessionId = right.sessionId && left.messageId = right.messageId

end WatchEvent

/-! ## The command -/

/-- The exit codes that the command is given. -/
structure WatchExits where
  unavailable : Nat
  unsupported : Nat
  dataerr : Nat
  timeout : Nat
  aborted : Nat

/-- How a call of the watch to the server ends when it does not return. -/
inductive WatchError where
  /-- An `OpenCodeApiError`, and whether it is about a stream that is invalid. -/
  | api (message : String) (invalidStream : Bool)
  /-- `TimeoutExpired`. -/
  | timeoutExpired
  /-- Any other exception. -/
  | other (error : PyError)

/-- What the watch gets of the server: whether it has an event route, the events of the session in
order, and the exception that ends them if one does. -/
structure WatchedServer where
  capabilities : Except WatchError Bool
  events : List WatchEvent
  ending : Option WatchError

/-- What the watch has printed, and the piece of text that it holds back. -/
structure WatchState where
  printed : List String := []
  pendingText : Option WatchEvent := none

/-- What a watch printed, on both channels, and its exit code or the exception it raises. -/
structure WatchResult where
  stdout : List String
  stderr : List String
  exit : Except PyError Nat

namespace WatchState

/-- `flush_pending_text`. -/
def flushPendingText (state : WatchState) : WatchState :=
  match state.pendingText with
  | some pending => { printed := state.printed ++ [pending.formatWatchEvent] }
  | none => state

/-- `emit_event`. -/
def emitEvent (json : Option (WatchEvent → String)) (state : WatchState) (event : WatchEvent) :
    WatchState :=
  match json with
  | some dumps => { state with printed := state.printed ++ [dumps event] }
  | none =>
    if event.kind = .text then
      match state.pendingText with
      | some pending =>
        if pending.sameWatchTextGroup event then
          { state with pendingText := some (pending.withText event) }
        else { state.flushPendingText with pendingText := some event }
      | none => { state.flushPendingText with pendingText := some event }
    else
      let state := state.flushPendingText
      { state with printed := state.printed ++ [event.formatWatchEvent] }

end WatchState

variable (exits : WatchExits) (timeout : String)

/-- The end of a watch: an exception of the stream after the events, or its end. -/
def watchEnded (state : WatchState) : Option WatchError → WatchResult
  | none => ⟨state.flushPendingText.printed, [], .ok 0⟩
  | some (.api message invalidStream) =>
    ⟨state.flushPendingText.printed, [s!"event stream failure: {message}"],
      .ok (if invalidStream then exits.dataerr else exits.unavailable)⟩
  | some .timeoutExpired =>
    ⟨state.flushPendingText.printed, [s!"watch timed out after {timeout}s"], .ok exits.timeout⟩
  | some (.other error) => ⟨state.printed, [], .error error⟩

/-- The loop over the events of the stream. -/
def watchEvents (json : Option (WatchEvent → String)) (ending : Option WatchError)
    (state : WatchState) : List WatchEvent → WatchResult
  | [] => watchEnded exits timeout state ending
  | event :: rest =>
    let state := state.emitEvent json event
    if event.isTerminal then
      ⟨state.flushPendingText.printed, [], .ok (if event.isAbort then exits.aborted else 0)⟩
    else watchEvents json ending state rest

/-- `_watch_session`.  The form of an event in JSON is given when the option for it is set. -/
def watchSession (json : Option (WatchEvent → String)) (server : WatchedServer) : WatchResult :=
  match server.capabilities with
  | .error (.api message _) => ⟨[], [message], .ok exits.unavailable⟩
  | .error .timeoutExpired => ⟨[], [s!"watch timed out after {timeout}s"], .ok exits.timeout⟩
  | .error (.other error) => ⟨[], [], .error error⟩
  | .ok false =>
    ⟨[], ["unsupported OpenCode server; missing event stream: GET /api/event or GET /event or " ++
      "GET /global/event"], .ok exits.unsupported⟩
  | .ok true => watchEvents exits timeout json server.ending {} server.events

end OpencodeSession
