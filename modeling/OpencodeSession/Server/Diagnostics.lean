import Mathlib.Data.String.Basic
import OpencodeSession.Framework.PercentEncoding
import OpencodeSession.Server.Transport

/-!
# Diagnostic requests

The service that lists the routes of a server and sends a GET request to one of them.  The target
of the request comes from outside, so it is validated in every form that decoding it again and
again gives, and matched with the routes that the server advertises.
-/

namespace OpencodeSession

/-- The errors of a diagnostic request. -/
inductive DiagnosticsError where
  | notAbsolute
  | unsafeCharacter
  | foreignTarget
  | invalidEscape
  | notAbsoluteDecoded
  | dotSegments
  | encodedDelimiters
  | excessiveEncoding
  | outsideServer
  | invalidPort (url : List Char)
  | noPathsObject
  | notAdvertised (path : List Char)
  /-- A `ValueError` of the URL functions. -/
  | valueError (message : String)
  /-- An error of the transport. -/
  | api (error : PyError)

namespace DiagnosticsError

/-- `str(error)`; `repr` is what the program prints of a URL. -/
def message (repr : List Char → String) : DiagnosticsError → String
  | notAbsolute => "diagnostic GET path must be an absolute same-server path beginning with /"
  | unsafeCharacter =>
    "diagnostic GET path must not contain whitespace, control characters, or backslashes"
  | foreignTarget => "diagnostic GET path must not include a scheme, host, or fragment"
  | invalidEscape => "diagnostic GET path contains an invalid percent escape"
  | notAbsoluteDecoded =>
    "diagnostic GET path must remain an absolute same-server path when decoded"
  | dotSegments => "diagnostic GET path must not contain dot segments"
  | encodedDelimiters => "diagnostic GET path must not contain encoded path delimiters"
  | excessiveEncoding => "diagnostic GET path contains excessive percent encoding"
  | outsideServer => "diagnostic GET path resolves outside the configured OpenCode server"
  | invalidPort url => "invalid OpenCode server URL " ++ repr url ++ ": invalid port"
  | noPathsObject => "OpenAPI document must contain a paths object"
  | notAdvertised path => "OpenAPI document does not advertise GET " ++ String.ofList path
  | valueError message => message
  | api error => error.message

end DiagnosticsError

namespace Diagnostics

/-! ## Routes -/

/-- `HTTP_METHODS`. -/
def httpMethods : List String :=
  ["delete", "get", "head", "options", "patch", "post", "put", "trace"]

/-- A route of the document and its methods. -/
structure Route where
  path : String
  methods : List String

/-- `method.upper()`, of a method that has letters of ASCII only. -/
def upperMethod (method : String) : String := String.ofList (method.toList.map Char.toUpper)

/-- The methods of a route, in capitals. -/
def routeMethods (route : List (String × JsonValue)) : List String :=
  ((route.filter fun field => lowerMethod field.1 ∈ httpMethods).map fun field =>
    upperMethod field.1).mergeSort fun left right => decide (left ≤ right)

/-- `_openapi_paths`. -/
def openapiPaths (document : JsonValue) : Except DiagnosticsError (List (String × JsonValue)) :=
  match document.get "paths" with
  | .obj paths => .ok paths
  | _ => .error .noPathsObject

/-- `list_routes` without a filter, of the document that the server gave. -/
def listRoutes (document : JsonValue) : Except DiagnosticsError (List Route) := do
  let paths ← openapiPaths document
  let sorted := paths.mergeSort fun left right => decide (left.1 ≤ right.1)
  return sorted.filterMap fun path =>
    let methods := routeMethods path.2.fields
    if path.2.isObj ∧ methods ≠ [] then some ⟨path.1, methods⟩ else none

/-- Whether a part of a template matches a part of a path. -/
def matchesPart (template path : List Char) : Bool :=
  if (template.head? = some '{' ∧ template.getLast? = some '}') ∨ template.head? = some ':' then
    path ≠ []
  else template = path

/-- `_matches_template`. -/
def matchesTemplate (template path : List Char) : Bool :=
  let templateParts := (rstripSlash template).splitOn '/'
  let pathParts := (rstripSlash path).splitOn '/'
  templateParts.length = pathParts.length &&
    (templateParts.zip pathParts).all fun parts => matchesPart parts.1 parts.2

/-! ## Targets -/

/-- `_path_delimiters`. -/
def pathDelimiters (text : List Char) : List Char :=
  text.filter fun c => c ∈ ['/', '\\', '?', '#']

/-- `_has_unsafe_character`. -/
def hasUnsafeCharacter (text : List Char) : Bool :=
  text.any fun c => isPySpace c || c.toNat < 32 || c.toNat = 127 || c = '\\'

/-- Whether there is a sign of an escape without two digits after it. -/
def hasInvalidEscape : List Char → Bool
  | [] => false
  | c :: rest =>
    (c = '%' && !(match rest with
      | high :: low :: _ =>
        (PercentEncoding.hexValue? high).isSome && (PercentEncoding.hexValue? low).isSome
      | _ => false)) || hasInvalidEscape rest

variable (around : Url.Surroundings)

/-- `_origin`. -/
def origin (url : List Char) : Except DiagnosticsError (List Char × List Char × Nat) :=
  match Url.split around [] url with
  | .error message => .error (.valueError message)
  | .ok parsed =>
    match Url.port parsed.netloc with
    | .error _ => .error (.invalidPort url)
    | .ok port =>
      let standard := if String.ofList parsed.scheme = "https" then 443 else 80
      .ok (parsed.scheme, around.lower (Url.hostname around parsed.netloc), port.getD standard)

/-- `_require_same_origin`. -/
def requireSameOrigin (baseUrl requestTarget : List Char) : Except DiagnosticsError Unit :=
  match Url.join around (rstripSlash baseUrl ++ ['/']) (lstripSlash requestTarget) with
  | .error message => .error (.valueError message)
  | .ok resolved => do
    let resolvedOrigin ← origin around resolved
    let baseOrigin ← origin around baseUrl
    if resolvedOrigin ≠ baseOrigin then throw .outsideServer

/-- `_validate_path_form`. -/
def validatePathForm (path baseUrl : List Char) : Except DiagnosticsError Unit :=
  if path.head? ≠ some '/' ∨ path.take 2 = ['/', '/'] then .error .notAbsoluteDecoded
  else if hasUnsafeCharacter path then .error .unsafeCharacter
  else if (path.splitOn '/').any Url.isDots then .error .dotSegments
  else requireSameOrigin around baseUrl path

/-- The loop of `_validate_path_forms`, with the rounds that are left. -/
def validateForms (baseUrl : List Char) : Nat → List Char → Except DiagnosticsError Unit
  | 0, _ => .error .excessiveEncoding
  | rounds + 1, decoded => do
    validatePathForm around decoded baseUrl
    let nextDecoded := PercentEncoding.unquote decoded
    if nextDecoded = decoded then return
    else if pathDelimiters nextDecoded ≠ pathDelimiters decoded then throw .encodedDelimiters
    else validateForms baseUrl rounds nextDecoded

/-- `_validate_path_forms`. -/
def validatePathForms (path baseUrl : List Char) : Except DiagnosticsError Unit :=
  if hasInvalidEscape path then .error .invalidEscape
  else validateForms around baseUrl (path.length + 1) path

/-- `_read_only_target`: the target and its path. -/
def readOnlyTarget (value baseUrl : List Char) :
    Except DiagnosticsError (List Char × List Char) :=
  if value.head? ≠ some '/' ∨ value.take 2 = ['/', '/'] then .error .notAbsolute
  else if hasUnsafeCharacter value then .error .unsafeCharacter
  else
    match Url.split around [] value with
    | .error message => .error (.valueError message)
    | .ok parsed =>
      if parsed.scheme ≠ [] ∨ parsed.netloc ≠ [] ∨ parsed.fragment ≠ [] then .error .foreignTarget
      else do
        validatePathForms around parsed.path baseUrl
        requireSameOrigin around baseUrl value
        return (value, parsed.path)

variable {around}

/-- `ApiDiagnosticsService.get`, up to the request of the target: the URL that is handed to urllib.
The document is what the server answers when it is asked for its routes.  That urllib may still
refuse to send a URL, one with characters outside of ASCII or with a control character, is not
modelled. -/
def get (transport : ApiTransport around) (document : Except PyError JsonValue)
    (path : List Char) : Except DiagnosticsError (List Char) := do
  let (requestTarget, routePath) ← readOnlyTarget around path transport.baseUrl
  let document ← document.mapError .api
  let routes ← listRoutes document
  if routes.any fun route => "GET" ∈ route.methods && matchesTemplate route.path.toList routePath then
    (transport.requestUrl requestTarget).mapError .valueError
  else throw (.notAdvertised routePath)

end Diagnostics

end OpencodeSession
