import OpencodeSession.Framework.PercentEncoding
import OpencodeSession.Server.Transport

/-!
# Routes

The plan of the routes is read from the document in which the server describes itself; a route that
the document does not offer keeps its usual path.  The path of a route is a template: a name in
braces stands for an id, which is quoted when the path is rendered for a request.
-/

namespace OpencodeSession

open PercentEncoding

/-- The names of a route plan. -/
inductive RouteName where
  | projectCollection | projectDirectories | workspaceCollection | workspaceItem
  | projectCopyRefresh
  | sessionCollection | sessionItem | v2Prompt | v2Wait | events | blockingMessage | legacyRun
  | legacyReply
  | sessionAbort | sessionFork | sessionChildren
  | permissions | permissionReply | questions | questionReply | questionReject
  deriving DecidableEq, Repr

/-- `DEFAULT_ROUTE_PLAN`. -/
def defaultRoutePlan : RouteName → List Char
  | .projectCollection => "/project".toList
  | .projectDirectories => "/project/{projectID}/directories".toList
  | .workspaceCollection => "/experimental/workspace".toList
  | .workspaceItem => "/experimental/workspace/{workspaceID}".toList
  | .projectCopyRefresh => "/experimental/project/{projectID}/copy/refresh".toList
  | .sessionCollection => "/api/session".toList
  | .sessionItem => "/api/session/{sessionID}".toList
  | .v2Prompt => "/api/session/{sessionID}/prompt".toList
  | .v2Wait => "/api/session/{sessionID}/wait".toList
  | .events => "/api/event".toList
  | .blockingMessage => "/session/{sessionID}/message".toList
  | .legacyRun => "/session/{sessionID}/run".toList
  | .legacyReply => "/session/{sessionID}/reply".toList
  | .sessionAbort => "/session/{sessionID}/abort".toList
  | .sessionFork => "/session/{sessionID}/fork".toList
  | .sessionChildren => "/session/{sessionID}/children".toList
  | .permissions => "/permission".toList
  | .permissionReply => "/permission/{requestID}/reply".toList
  | .questions => "/question".toList
  | .questionReply => "/question/{requestID}/reply".toList
  | .questionReject => "/question/{requestID}/reject".toList

/-! ## Rendering -/

/-- What follows in a text of which some characters are to be skipped, with `old` replaced. -/
def replaceSkipping (old new : List Char) : Nat → List Char → List Char
  | _, [] => []
  | skip + 1, _ :: rest => replaceSkipping old new skip rest
  | 0, c :: rest =>
    if old.isPrefixOf (c :: rest) then new ++ replaceSkipping old new (old.length - 1) rest
    else c :: replaceSkipping old new 0 rest

/-- `text.replace(old, new)`, of a text `old` that is not empty. -/
def replaceText (old new text : List Char) : List Char := replaceSkipping old new 0 text

/-- `_replace_placeholders`. -/
def replacePlaceholders (path value : List Char) (placeholders : List String) : List Char :=
  placeholders.foldl (fun path placeholder => replaceText placeholder.toList (quote value) path)
    path

/-- What the id in a path is the id of. -/
inductive PathParameter where
  | session | request | project | workspace
  deriving DecidableEq, Repr

/-- The placeholders of a parameter, in the order they are replaced. -/
def PathParameter.placeholders : PathParameter → List String
  | session => ["{sessionID}", ":sessionID", "{id}", ":id"]
  | request => ["{requestID}", ":requestID", "{id}", ":id"]
  | project => ["{projectID}", ":projectID", "{id}", ":id"]
  | workspace => ["{workspaceID}", ":workspaceID", "{id}", ":id"]

/-- The ids that a path is rendered with. -/
structure PathIds where
  sessionId : Option (List Char) := none
  requestId : Option (List Char) := none
  projectId : Option (List Char) := none
  workspaceId : Option (List Char) := none

/-- A path with an id in place of its placeholders, when the id is given. -/
def replaceId (parameter : PathParameter) (id : Option (List Char)) (path : List Char) :
    List Char :=
  match id with
  | some value => replacePlaceholders path value parameter.placeholders
  | none => path

/-- `render_route_path`. -/
def renderRoutePath (path : List Char) (ids : PathIds) : List Char :=
  let rendered := replaceId .session ids.sessionId path
  let rendered := replaceId .request ids.requestId rendered
  let rendered := replaceId .project ids.projectId rendered
  replaceId .workspace ids.workspaceId rendered

/-- `OpenCodeRoutePlanner.path`, with a plan that is configured. -/
def routePath (routePlan : RouteName → List Char) (name : RouteName) (ids : PathIds) : List Char :=
  let path := if routePlan name ≠ [] then routePlan name else defaultRoutePlan name
  lstripSlash (renderRoutePath path ids)

/-! ## Detecting the routes -/

/-- `SESSION_PATHS`. -/
def sessionPaths : List (List Char) := ["/api/session".toList, "/session".toList]

/-- `PROMPT_PATHS`. -/
def promptPaths : List (List Char) :=
  ["/api/session/{sessionID}/prompt".toList, "/session/{sessionID}/prompt_async".toList]

/-- `WAIT_PATHS`. -/
def waitPaths : List (List Char) := ["/api/session/{sessionID}/wait".toList]

/-- `EVENT_PATHS`. -/
def eventPaths : List (List Char) :=
  ["/api/event".toList, "/event".toList, "/global/event".toList]

/-- `_path_variants`, with repetitions. -/
def pathVariants (path : List Char) : List (List Char) :=
  [path, replaceText "{sessionID}".toList ":sessionID".toList path,
    replaceText "{sessionID}".toList "{id}".toList path]

section Detection

-- The paths of the document.  The program ends in an error on a document whose routes are no
-- objects; here such a route offers nothing.
variable (paths : JsonValue)

/-- `_route_available`. -/
def routeAvailable (path : List Char) (method : String) : Bool :=
  (pathVariants path).any fun candidate =>
    (paths.get (String.ofList candidate)).fields.any fun field => lowerMethod field.1 = method

/-- `_query_parameter_available`. -/
def queryParameterAvailable (path : List Char) (method name : String) : Bool :=
  (pathVariants path).any fun candidate =>
    match ((paths.get (String.ofList candidate)).get method).get "parameters" with
    | .arr parameters => parameters.any fun parameter => (parameter.get "name").pyEq (.str name)
    | _ => false

/-- `_first_available_route`. -/
def firstAvailableRoute (candidates : List (List Char)) (method : String) : List Char × Bool :=
  match candidates.find? fun path => routeAvailable paths path method with
  | some path => (path, true)
  | none => (candidates.headD [], false)

/-- `_planned_route_path`. -/
def plannedRoutePath (route : List Char × Bool) (fallback : List Char) : List Char :=
  if route.2 ∧ route.1 ≠ [] then route.1 else fallback

/-- The route that a prompt is waited for at. -/
def waitRoute : List Char × Bool :=
  let wait := firstAvailableRoute paths waitPaths "post"
  let prompt := firstAvailableRoute paths promptPaths "post"
  if ¬wait.2 ∧ prompt.2 ∧ queryParameterAvailable paths prompt.1 "post" "wait" then
    (prompt.1 ++ "?wait=true".toList, true)
  else wait

/-- `_session_item_path`. -/
def sessionItemPath (sessionCollectionPath : List Char) : List Char :=
  rstripSlash sessionCollectionPath ++ "/{sessionID}".toList

/-- The route plan of `OpenCodeServerProfile.from_openapi_doc`. -/
def detectedRoutePlan : RouteName → List Char
  | .sessionCollection =>
    plannedRoutePath (firstAvailableRoute paths sessionPaths "post") (sessionPaths.headD [])
  | .sessionItem =>
    sessionItemPath
      (plannedRoutePath (firstAvailableRoute paths sessionPaths "post") (sessionPaths.headD []))
  | .v2Prompt =>
    plannedRoutePath (firstAvailableRoute paths promptPaths "post") (promptPaths.headD [])
  | .v2Wait => plannedRoutePath (waitRoute paths) (waitPaths.headD [])
  | .events => plannedRoutePath (firstAvailableRoute paths eventPaths "get") (eventPaths.headD [])
  | name => defaultRoutePlan name

end Detection

end OpencodeSession
