import OpencodeSession.Run.Mutation

/-!
# The abort after a time-out

When a blocking execution times out its session is aborted, as far as that succeeds, and
`abortTimedOutSession` is what is reported to have gone wrong with the abort.  Nothing went wrong
when the server explicitly accepted it.

What the program prints of a JSON value that is no text is a parameter.
-/

namespace OpencodeSession

/-- The fields that may say whether an abort was accepted. -/
def abortFlags : List String := ["accepted", "aborted", "ok", "success"]

/-- `_abort_acceptance_is_explicit`.  Its status words are those that `abort_record` knows. -/
def abortAcceptanceIsExplicit (data : JsonValue) : Bool :=
  data.isObj &&
    (abortFlags.any (fun key => (boolValue (data.get key)).isSome) ||
      let status := if (data.get "status").truthy then data.get "status" else data.get "state"
      (abortStatusAccepts status).isSome)

/-- `abort.get("raw_status") or abort.get("status") or "not accepted"`. -/
def abortStatusText (str : JsonValue → String) (rawStatus : JsonValue) : String :=
  match rawStatus with
  | .null => "not accepted"
  | .str status => if status ≠ "" then status else "not accepted"
  | status =>
    if status.truthy then str status
    else if shortStatus (str status) ≠ "" then shortStatus (str status)
    else "not accepted"

/-- `_abort_timed_out_session`: what went wrong, if anything did, from the response of the server
or the exception that its request raised. -/
def abortTimedOutSession (str : JsonValue → String) (sessionId : String)
    (response : Except PyError JsonValue) : Option String :=
  match response with
  | .error error => some (if error.message ≠ "" then error.message else error.typeName)
  | .ok response =>
    let responseData := match response with
      | .bool accepted => .obj [("accepted", .bool accepted)]
      | data => data
    if abortAcceptanceIsExplicit responseData then
      let abort := abortRecord sessionId responseData
      if (abort.get "accepted").truthy then none
      else
        let status := abortStatusText str (abort.get "raw_status")
        some s!"abort was not accepted ({status})"
    else some "abort response did not confirm acceptance"

end OpencodeSession
