import OpencodeSession.Framework.UrlJoin
import OpencodeSession.Json
import OpencodeSession.Worker.Status

/-!
# The transport

`ApiTransport` is a transport that was made for the URL of a server, which had to be one of HTTP
with a network location.  What it requests for a path is `ApiTransport.requestUrl`.
-/

namespace OpencodeSession

/-- `text.rstrip("/")`. -/
def rstripSlash (text : List Char) : List Char := text.rdropWhile (· = '/')

/-- `text.lstrip("/")`. -/
def lstripSlash (text : List Char) : List Char := text.dropWhile (· = '/')

/-- `method.lower()`, as far as it can give one of the methods. -/
def lowerMethod (method : String) : String := String.ofList (method.toList.flatMap lowerChar)

variable (around : Url.Surroundings)

/-- Whether `_validate_base_url` lets a URL pass: its scheme is that of HTTP and it has a network
location. -/
def acceptsBaseUrl (baseUrl : List Char) : Bool :=
  match Url.split around [] baseUrl with
  | .ok parts => (String.ofList parts.scheme ∈ ["http", "https"]) && parts.netloc ≠ []
  | .error _ => false

/-- `OpenCodeApiTransport`. -/
structure ApiTransport where
  given : List Char
  accepted : acceptsBaseUrl around given = true

namespace ApiTransport

variable {around}

/-- The URL that paths are joined to. -/
def baseUrl (transport : ApiTransport around) : List Char := rstripSlash transport.given ++ ['/']

/-- The URL that is requested for a path. -/
def requestUrl (transport : ApiTransport around) (path : List Char) : Except String (List Char) :=
  Url.join around transport.baseUrl (lstripSlash path)

end ApiTransport

/-! ## The URL of the server -/

variable {around}

lemma exists_slashes (text : List Char) :
    ∃ slashes, text = rstripSlash text ++ slashes ∧ ∀ c ∈ slashes, c = '/' := by
  refine ⟨text.rtakeWhile (· = '/'), List.rdropWhile_append_rtakeWhile.symm, ?_⟩
  intro c hc
  simpa using List.mem_rtakeWhile_imp hc

/-- A URL with a network location has it also when slashes are taken off its end and put there
again. -/
lemma written_slash {url name netloc rest : List Char} (h : Url.Written url name netloc rest)
    (hnetloc : netloc ≠ []) :
    ∃ rest', Url.Written (rstripSlash url ++ ['/']) name netloc rest' := by
  obtain ⟨slashes, hurl, hslashes⟩ := exists_slashes url
  have hbreaks : ∀ c ∈ slashes, Url.isBreak c = false := by
    intro c hc
    rw [hslashes c hc]
    decide
  have hcolon : ':' ∈ Url.clean url := by
    rw [h.spelled]
    simp
  have hcore : ∃ c ∈ rstripSlash url, 32 < c.toNat := by
    have hmem : ':' ∈ rstripSlash url ++ slashes := by
      rw [← hurl]
      exact Url.mem_of_mem_clean hcolon
    rcases List.mem_append.1 hmem with hmem | hmem
    · exact ⟨':', hmem, by decide⟩
    · exact absurd (hslashes _ hmem) (by decide)
  have hspelled : Url.clean (rstripSlash url) ++ slashes =
      (name ++ ':' :: '/' :: '/' :: netloc) ++ rest := by
    have hclean := h.spelled
    rw [hurl, Url.clean_append hcore hbreaks] at hclean
    rw [hclean]
    simp
  obtain ⟨last, hlast⟩ : ∃ last, netloc.getLast? = some last :=
    ⟨_, List.getLast?_eq_some_getLast hnetloc⟩
  have hlastNe : last ≠ '/' := by
    rintro rfl
    exact absurd (h.inNetloc _ (List.mem_of_getLast? hlast)) (by decide)
  obtain ⟨middle, hmiddle, hrest⟩ : ∃ middle, Url.clean (rstripSlash url) =
      (name ++ ':' :: '/' :: '/' :: netloc) ++ middle ∧ rest = middle ++ slashes := by
    rcases List.append_eq_append_iff.1 hspelled with ⟨cut, hcut, hslashesEq⟩ | ⟨middle, hmiddle⟩
    · cases cut using List.reverseRecOn with
      | nil =>
        rw [List.append_nil] at hcut
        exact ⟨[], by rw [List.append_nil, hcut], by rw [hslashesEq]; rfl⟩
      | append_singleton front c =>
        have hc : c = '/' := hslashes c (by rw [hslashesEq]; simp)
        have hlastEq := congrArg List.getLast? hcut
        simp [List.getLast?_append, List.getLast?_cons, hlast] at hlastEq
        exact absurd (hlastEq.trans hc) hlastNe
    · exact ⟨middle, hmiddle⟩
  refine ⟨middle ++ ['/'], ?_, h.letter, h.schemeChars, h.inNetloc, ?_⟩
  · rw [Url.clean_append hcore (by simp [Url.isBreak]), hmiddle]
    simp
  · intro c hc
    cases middle with
    | nil =>
      obtain rfl : '/' = c := by simpa using hc
      decide
    | cons first more =>
      refine h.afterNetloc c ?_
      rw [hrest]
      simpa using hc

/-- The URL that paths are joined to is one of HTTP with a network location. -/
lemma ApiTransport.split_baseUrl (transport : ApiTransport around) :
    ∃ b, Url.split around [] transport.baseUrl = .ok b ∧
      String.ofList b.scheme ∈ ["http", "https"] ∧ b.netloc ≠ [] := by
  have haccepted := transport.accepted
  unfold acceptsBaseUrl at haccepted
  cases hsplit : Url.split around [] transport.given with
  | error message => simp [hsplit] at haccepted
  | ok parts =>
    obtain ⟨hhttp, hnetloc⟩ : String.ofList parts.scheme ∈ ["http", "https"] ∧ parts.netloc ≠ [] := by
      simpa [hsplit] using haccepted
    have hscheme : parts.scheme ≠ [] := by
      intro hnil
      rw [hnil] at hhttp
      exact absurd hhttp (by decide)
    obtain ⟨name, rest, hwritten, hname, -, hcheck⟩ :=
      Url.written_of_split hsplit hscheme hnetloc
    obtain ⟨rest', hwritten'⟩ := written_slash hwritten hnetloc
    refine ⟨_, (hwritten'.split_eq_ok_iff []).2 ⟨hcheck, rfl⟩, ?_, hnetloc⟩
    rw [Url.readRest, hname]
    exact hhttp

/-! ## A server on the same host -/

/-- Surroundings in which lower case is known for ASCII and no address is in brackets. -/
def asciiSurroundings : Url.Surroundings where
  lower := List.map Url.lowerAscii
  nfkc := id
  isIpv6 := fun _ => false

/-- A transport for a server on the same host. -/
def localTransport : ApiTransport asciiSurroundings := ⟨"http://127.0.0.1:4096".toList, by decide⟩

end OpencodeSession
