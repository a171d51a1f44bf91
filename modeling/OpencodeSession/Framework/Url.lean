import Mathlib.Data.List.DropRight
import Mathlib.Data.List.Basic
import Mathlib.Tactic.Lemma
import Mathlib.Tactic.SplitIfs

/-!
# Splitting and joining URLs

The URL functions of a scripting language's standard library, on lists of characters: `split` cuts
a URL into its parts without judging them, `unsplit` puts parts together, and `join` resolves a
reference against a base.  They follow that library and not the standards where these differ.

What they take from elsewhere is `Surroundings`: the lower case and the compatibility normal form
of a text, and whether a text is the address of a host in brackets.
-/

namespace Url

/-- What the functions ask about texts. -/
structure Surroundings where
  /-- The text in lower case. -/
  lower : List Char → List Char
  /-- The text in the normal form NFKC. -/
  nfkc : List Char → List Char
  /-- Whether the text is an IPv6 address. -/
  isIpv6 : List Char → Bool

/-- The parts of a URL. -/
structure Parts where
  scheme : List Char
  netloc : List Char
  path : List Char
  query : List Char
  fragment : List Char

/-- The schemes whose URLs may be relative. -/
def usesRelative : List String :=
  ["", "ftp", "http", "gopher", "nntp", "imap", "wais", "file", "https", "shttp", "mms",
    "prospero", "rtsp", "rtsps", "rtspu", "sftp", "svn", "svn+ssh", "ws", "wss"]

/-- The schemes whose URLs have a network location. -/
def usesNetloc : List String :=
  ["", "ftp", "http", "gopher", "nntp", "telnet", "imap", "wais", "file", "mms", "https", "shttp",
    "snews", "prospero", "rtsp", "rtsps", "rtspu", "rsync", "svn", "svn+ssh", "sftp", "nfs", "git",
    "git+ssh", "ws", "wss"]

/-- The schemes whose paths may have parameters. -/
def usesParams : List String :=
  ["", "ftp", "hdl", "prospero", "http", "imap", "https", "shttp", "rtsp", "rtsps", "rtspu", "sip",
    "sips", "mms", "sftp", "tel"]

/-! ## Splitting -/

/-- A letter of ASCII. -/
def isLetter (c : Char) : Bool :=
  (65 ≤ c.toNat && c.toNat ≤ 90) || (97 ≤ c.toNat && c.toNat ≤ 122)

/-- A digit of ASCII. -/
def isDigit (c : Char) : Bool := 48 ≤ c.toNat && c.toNat ≤ 57

/-- A character of a scheme. -/
def isSchemeChar (c : Char) : Bool := isLetter c || isDigit c || c ∈ ['+', '-', '.']

/-- A character of a scheme in lower case. -/
def lowerAscii (c : Char) : Char :=
  if 65 ≤ c.toNat ∧ c.toNat ≤ 90 then Char.ofNat (c.toNat + 32) else c

/-- The URL without what is taken out before it is split: control characters and spaces in front,
and the ends of lines and tabs everywhere. -/
def clean (url : List Char) : List Char :=
  (url.dropWhile fun c => c.toNat ≤ 32).filter fun c => c ∉ ['\t', '\r', '\n']

/-- What is before the first sign, and what is after it. -/
def cut (sign : Char) (text : List Char) : List Char × List Char :=
  (text.takeWhile (· ≠ sign), (text.dropWhile (· ≠ sign)).tail)

/-- The scheme and what follows it; the scheme that was given when there is none. -/
def splitScheme (given url : List Char) : List Char × List Char :=
  let scheme := (cut ':' url).1
  if ':' ∈ url ∧ scheme.head?.any isLetter ∧ scheme.all isSchemeChar then
    (scheme.map lowerAscii, (cut ':' url).2)
  else (given, url)

/-- A character that ends a network location. -/
def endsNetloc (c : Char) : Bool := c ∈ ['/', '?', '#']

/-- The network location and what follows it. -/
def splitNetloc (url : List Char) : List Char × List Char :=
  if url.take 2 = ['/', '/'] then
    ((url.drop 2).takeWhile (!endsNetloc ·), (url.drop 2).dropWhile (!endsNetloc ·))
  else ([], url)

/-- Whether a text in brackets is an address of a version to come. -/
def isFutureAddress (host : List Char) : Bool :=
  let version := (cut '.' (host.drop 1)).1
  let address := (cut '.' (host.drop 1)).2
  host.head? = some 'v' && '.' ∈ host && version ≠ [] &&
    version.all (fun c => isDigit c || (lowerAscii c).toNat ∈ [97, 98, 99, 100, 101, 102]) &&
    address ≠ [] && address.all (· ≠ '\n')

variable (around : Surroundings)

/-- The checks of a network location; the message of its error when one fails. -/
def checkNetloc (netloc : List Char) : Except String Unit :=
  if ('[' ∈ netloc ∧ ']' ∉ netloc) ∨ (']' ∈ netloc ∧ '[' ∉ netloc) then .error "Invalid IPv6 URL"
  else
    let host := (cut ']' (cut '[' netloc).2).1
    let valid := if host.head? = some 'v' then isFutureAddress host else around.isIpv6 host
    if '[' ∈ netloc ∧ ¬valid then
      .error "invalid address in brackets"
    else
      let bare := netloc.filter fun c => c ∉ ['@', ':', '#', '?']
      if netloc.any (fun c => 128 ≤ c.toNat) ∧ around.nfkc bare ≠ bare ∧
          (around.nfkc bare).any (fun c => c ∈ ['/', '?', '#', '@', ':']) then
        .error "netloc contains invalid characters under NFKC normalization"
      else .ok ()

/-- The parts of a URL; a URL without a scheme has the one that is given. -/
def split (given url : List Char) : Except String Parts := do
  let (scheme, url) := splitScheme given (clean url)
  let (netloc, url) := splitNetloc url
  checkNetloc around netloc
  let (url, fragment) := cut '#' url
  let (path, query) := cut '?' url
  return { scheme, netloc, path, query, fragment }

/-- The path without the parameters of its last segment, and the parameters. -/
def splitParams (scheme path : List Char) : List Char × List Char :=
  if String.ofList scheme ∈ usesParams ∧ ';' ∈ path then
    let folder := path.rdropWhile (· ≠ '/')
    let last := cut ';' (path.rtakeWhile (· ≠ '/'))
    (folder ++ last.1, last.2)
  else (path, [])

/-! ## Joining -/

/-- The URL of some parts. -/
def unsplit (parts : Parts) : List Char :=
  let url := parts.path
  let url :=
    if parts.netloc ≠ [] ∨ (parts.scheme ≠ [] ∧ String.ofList parts.scheme ∈ usesNetloc) ∨
        url.take 2 = ['/', '/'] then
      '/' :: '/' :: (parts.netloc ++ if url ≠ [] ∧ url.head? ≠ some '/' then '/' :: url else url)
    else url
  let url := if parts.scheme ≠ [] then parts.scheme ++ ':' :: url else url
  let url := if parts.query ≠ [] then url ++ '?' :: parts.query else url
  if parts.fragment ≠ [] then url ++ '#' :: parts.fragment else url

/-- A path with parameters. -/
def withParams (path params : List Char) : List Char :=
  if params ≠ [] then path ++ ';' :: params else path

/-- The segments without the empty ones between the first and the last. -/
def dropInnerEmpty : List (List Char) → List (List Char)
  | [] => []
  | first :: rest => first :: (rest.dropLast.filter (· ≠ []) ++ rest.getLast?.toList)

/-- The segment of the folder above, and that of the folder itself. -/
def isDots (segment : List Char) : Bool := segment ∈ [['.'], ['.', '.']]

/-- One segment of a path, on the stack of those before it. -/
def pushSegment (resolved : List (List Char)) (segment : List Char) : List (List Char) :=
  if segment = ['.', '.'] then resolved.dropLast
  else if segment = ['.'] then resolved
  else resolved ++ [segment]

/-- The segments of a path without dots.  One that ends in dots is a folder. -/
def resolveDots (segments : List (List Char)) : List (List Char) :=
  segments.foldl pushSegment [] ++ if segments.getLast?.any isDots then [[]] else []

/-- The segments of a base that a relative path is put after. -/
def baseSegments (path : List Char) : List (List Char) :=
  let segments := path.splitOn '/'
  if segments.getLast? = some [] then segments else segments.dropLast

/-- The path of a reference against the path of its base. -/
def joinPath (base path : List Char) : List Char :=
  let segments :=
    if path.head? = some '/' then path.splitOn '/'
    else dropInnerEmpty (baseSegments base ++ path.splitOn '/')
  let joined := ['/'].intercalate (resolveDots segments)
  if joined = [] then ['/'] else joined

/-- The URL of a reference against a base. -/
def join (base url : List Char) : Except String (List Char) :=
  if base = [] then .ok url
  else if url = [] then .ok base
  else do
    let b ← split around [] base
    let r ← split around b.scheme url
    let (bpath, bparams) := splitParams b.scheme b.path
    let (path, params) := splitParams r.scheme r.path
    if r.scheme ≠ b.scheme ∨ String.ofList r.scheme ∉ usesRelative then return url
    else if String.ofList r.scheme ∈ usesNetloc ∧ r.netloc ≠ [] then
      return unsplit { r with path := withParams path params }
    else
      let netloc := if String.ofList r.scheme ∈ usesNetloc then b.netloc else r.netloc
      if path = [] ∧ params = [] then
        let query := if r.query = [] then b.query else r.query
        return unsplit { r with netloc, path := withParams bpath bparams, query }
      else
        return unsplit { r with netloc, path := withParams (joinPath bpath path) params }

/-! ## Origins -/

/-- The host and the port of a network location, as texts. -/
def hostPort (netloc : List Char) : List Char × List Char :=
  let info := netloc.rtakeWhile (· ≠ '@')
  if '[' ∈ info then
    let bracketed := (cut '[' info).2
    ((cut ']' bracketed).1, (cut ':' (cut ']' bracketed).2).2)
  else cut ':' info

/-- The host in lower case, but for a zone. -/
def hostname (netloc : List Char) : List Char :=
  let host := (hostPort netloc).1
  around.lower (host.takeWhile (· ≠ '%')) ++ host.dropWhile (· ≠ '%')

/-- The port, if there is one; the message of the error when it is none. -/
def port (netloc : List Char) : Except String (Option Nat) :=
  let text := (hostPort netloc).2
  if text = [] then .ok none
  else if text.all isDigit then
    let number := text.foldl (fun n c => n * 10 + (c.toNat - 48)) 0
    if number ≤ 65535 then .ok (some number) else .error "Port out of range 0-65535"
  else .error "Port could not be cast to integer value"

end Url
