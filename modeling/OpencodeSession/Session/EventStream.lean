import Mathlib.Data.List.DropRight
import OpencodeSession.Framework.Utf8
import OpencodeSession.Json

/-!
# Event streams

`iterEventStream` is the reader of the server's event stream: a loop over lines that gathers the
fields of an event and yields it at a blank line, at a line that is an object of its own, and at
the end of the stream.  The reader of JSON texts is a parameter; it gives the message of its error
for a text it refuses.

The loop is a generator, so what comes out is `Yielded`: the events up to the end of the stream or
up to the exception that ends it.
-/

namespace OpencodeSession

/-- A line as it comes from the response or from a test: bytes, or text. -/
inductive RawLine where
  | bytes (value : List UInt8)
  | text (value : String)

/-- The events of a stream, and the exception that ended it if one did. -/
structure Yielded where
  events : List JsonValue
  error : Option PyError

namespace Yielded

/-- An event that may be there, before the rest of the stream. -/
def after (event : Option JsonValue) (rest : Yielded) : Yielded where
  events := event.toList ++ rest.events
  error := rest.error

end Yielded

/-- The fields of the event that the loop is at. -/
structure EventParts where
  eventName : Option String := none
  eventId : Option String := none
  dataLines : List String := []

namespace EventStream

/-- `text.rstrip("\r\n")`. -/
def stripLineEnd (text : List Char) : List Char := text.rdropWhile fun c => c = '\r' ∨ c = '\n'

/-- `_decode_line`. -/
def decodeLine : RawLine → List Char
  | .bytes value => Utf8.decode value
  | .text value => value.toList

/-- `line.partition(":")`: what is before the first colon and what is after it, if there is one. -/
def partitionColon (line : List Char) : List Char × Option (List Char) :=
  match line.dropWhile (· ≠ ':') with
  | [] => (line, none)
  | _ :: value => (line.takeWhile (· ≠ ':'), some value)

/-- `event.setdefault(name, value)` for a value that may be absent. -/
def setDefault (name : String) (value : Option String) (fields : List (String × JsonValue)) :
    List (String × JsonValue) :=
  match value, Dict.lookup name fields with
  | some value, none => Dict.insert name (.str value) fields
  | _, _ => fields

/-- `dict(data)`, or `{"data": data}` when the data is no dictionary. -/
def dataFields : JsonValue → List (String × JsonValue)
  | .obj fields => fields
  | data => [("data", data)]

variable (loads : String → Except String JsonValue)

/-- `_decode_data`. -/
def decodeData (dataText : String) : Except PyError JsonValue :=
  match loads dataText with
  | .ok data => .ok data
  | .error message => .error (.other "EventStreamError" s!"invalid JSON: {message}")

/-- `_event_from_parts`. -/
def eventFromParts (parts : EventParts) : Except PyError (Option JsonValue) :=
  if parts.dataLines = [] ∧ parts.eventName = none ∧ parts.eventId = none then .ok none
  else do
    let dataText := "\n".intercalate parts.dataLines
    let data ← if dataText = "" then pure (.obj []) else decodeData loads dataText
    let fields := setDefault "event_id" parts.eventId
      (setDefault "event" parts.eventName (dataFields data))
    return some (.obj fields)

/-- One pass of the loop of `iter_event_stream`: the event it yields, and the fields after it. -/
def lineStep (parts : EventParts) (line : List Char) :
    Except PyError (Option JsonValue × EventParts) :=
  if line = [] then do
    let event ← eventFromParts loads parts
    return (event, {})
  else if line.head? = some ':' then .ok (none, parts)
  else if line.head? = some '{' ∧ parts.dataLines = [] then do
    let event ← eventFromParts loads { dataLines := [String.ofList line] }
    return (event, parts)
  else
    match partitionColon line with
    | (_, none) => .ok (none, { parts with dataLines := parts.dataLines ++ [String.ofList line] })
    | (field, some value) =>
      let value := String.ofList (if value.head? = some ' ' then value.tail else value)
      let field := String.ofList field
      if field = "event" then .ok (none, { parts with eventName := some value })
      else if field = "id" then .ok (none, { parts with eventId := some value })
      else if field = "data" then
        .ok (none, { parts with dataLines := parts.dataLines ++ [value] })
      else .ok (none, parts)

/-- The loop of `iter_event_stream`, and the event at the end of the stream. -/
def iterLines (parts : EventParts) : List (List Char) → Yielded
  | [] =>
    match eventFromParts loads parts with
    | .ok event => ⟨event.toList, none⟩
    | .error error => ⟨[], some error⟩
  | line :: rest =>
    match lineStep loads parts line with
    | .ok (event, parts) => (iterLines parts rest).after event
    | .error error => ⟨[], some error⟩

/-- `iter_event_stream`. -/
def iterEventStream (lines : List RawLine) : Yielded :=
  iterLines loads {} (lines.map fun rawLine => stripLineEnd (decodeLine rawLine))

end EventStream

end OpencodeSession
