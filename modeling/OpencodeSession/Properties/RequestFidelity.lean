import OpencodeSession.Framework.Exceptions
import OpencodeSession.Framework.UrlAppend
import OpencodeSession.Server.Diagnostics

/-!
# What a diagnostic request asks for

The target of a diagnostic request is validated and matched as one text and joined to the URL of the
server as another.  Every request that is sent goes to the server's origin for a path that the
server advertises, but its URL is the server's followed by the target only if joining normalizes
nothing (`get_faithful_iff`): joining takes the server's own scheme off a target, drops empty
segments, and resolves dots that the validator does not see because parameters follow them.
-/

namespace OpencodeSession

open Diagnostics Url

variable {around : Surroundings} {transport : ApiTransport around}
  {document : Except PyError JsonValue} {target url : List Char}

/-- The request for a target is faithful: its URL is that of the server followed by the path and the
query that were validated, on the origin of the server, and the server advertises the path. -/
def FaithfulRequest (transport : ApiTransport around) (document : Except PyError JsonValue)
    (target url : List Char) : Prop :=
  ∃ parsed json routes, split around [] target = .ok parsed ∧ document = .ok json ∧
    listRoutes json = .ok routes ∧
    url = rstripSlash transport.given ++ writeRest parsed.path parsed.query [] ∧
    (∃ server, origin around url = .ok server ∧ origin around transport.baseUrl = .ok server) ∧
    ∃ route ∈ routes, "GET" ∈ route.methods ∧ matchesTemplate route.path.toList parsed.path = true

/-- The target is the root, or what follows its slash is kept when it is joined to the URL of the
server. -/
def IsKept (transport : ApiTransport around) (target : List Char) : Prop :=
  target = ['/'] ∨
    ∃ server, split around [] transport.baseUrl = .ok server ∧
      Appends transport.baseUrl server target.tail

/-! ## What is sent -/

/-- What is known of a target that is sent. -/
structure Sent (transport : ApiTransport around) (document : Except PyError JsonValue)
    (target url : List Char) (parsed : Parts) : Prop where
  absolute : target.head? = some '/'
  oneSlash : target.take 2 ≠ ['/', '/']
  noUnsafe : hasUnsafeCharacter target = false
  parse : split around [] target = .ok parsed
  noFragment : parsed.fragment = []
  sameOrigin : requireSameOrigin around transport.baseUrl target = .ok ()
  request : transport.requestUrl target = .ok url
  advertised : ∃ json routes, document = .ok json ∧ listRoutes json = .ok routes ∧
    ∃ route ∈ routes, "GET" ∈ route.methods ∧ matchesTemplate route.path.toList parsed.path = true

lemma readOnlyTarget_ok {baseUrl : List Char} {result : List Char × List Char}
    (h : readOnlyTarget around target baseUrl = .ok result) :
    target.head? = some '/' ∧ target.take 2 ≠ ['/', '/'] ∧ hasUnsafeCharacter target = false ∧
      ∃ parsed, split around [] target = .ok parsed ∧ parsed.fragment = [] ∧
        requireSameOrigin around baseUrl target = .ok () ∧ result = (target, parsed.path) := by
  unfold readOnlyTarget at h
  split_ifs at h with habsolute hunsafe
  obtain ⟨hhead, htake⟩ := not_or.1 habsolute
  refine ⟨not_not.1 hhead, htake, by simpa using hunsafe, ?_⟩
  cases hparse : split around [] target with
  | error message =>
    rw [hparse] at h
    cases h
  | ok parsed =>
    rw [hparse] at h
    simp only at h
    split_ifs at h with hforeign
    obtain ⟨_, hforms, h⟩ := Except.bind_eq_ok.1 h
    obtain ⟨_, horigin, h⟩ := Except.bind_eq_ok.1 h
    simp only [not_or, not_not] at hforeign
    exact ⟨parsed, rfl, hforeign.2.2, horigin, (Except.ok.inj h).symm⟩

lemma sent_of_get (h : Diagnostics.get transport document target = .ok url) :
    ∃ parsed, Sent transport document target url parsed := by
  unfold Diagnostics.get at h
  obtain ⟨result, htarget, h⟩ := Except.bind_eq_ok.1 h
  obtain ⟨habsolute, hslash, hunsafe, parsed, hparse, hfragment, horigin, rfl⟩ :=
    readOnlyTarget_ok htarget
  obtain ⟨json, hdocument, h⟩ := Except.bind_eq_ok.1 h
  obtain ⟨routes, hroutes, h⟩ := Except.bind_eq_ok.1 h
  split_ifs at h with hadvertised
  refine ⟨parsed, habsolute, hslash, hunsafe, hparse, hfragment, horigin, ?_, json, routes, ?_,
    hroutes, ?_⟩
  · cases hrequest : transport.requestUrl target with
    | error message =>
      rw [hrequest] at h
      cases h
    | ok url' =>
      rw [hrequest] at h
      exact congrArg Except.ok (Except.ok.inj h)
  · cases document with
    | error error => cases hdocument
    | ok json' => exact congrArg Except.ok (Except.ok.inj hdocument)
  · simpa using hadvertised

lemma rstripSlash_baseUrl : rstripSlash transport.baseUrl ++ ['/'] = transport.baseUrl := by
  rw [ApiTransport.baseUrl, rstripSlash, rstripSlash, List.rdropWhile_concat_pos _ _ _ (by simp),
    List.rdropWhile_idempotent]

/-- The URL that is requested has the origin of the server. -/
lemma Sent.origin {parsed : Parts} (h : Sent transport document target url parsed) :
    ∃ server, origin around url = .ok server ∧ origin around transport.baseUrl = .ok server := by
  have horigin := h.sameOrigin
  have hrequest := h.request
  rw [ApiTransport.requestUrl] at hrequest
  rw [requireSameOrigin, rstripSlash_baseUrl, hrequest] at horigin
  obtain ⟨resolved, hresolved, horigin⟩ := Except.bind_eq_ok.1 horigin
  obtain ⟨server, hserver, horigin⟩ := Except.bind_eq_ok.1 horigin
  have hsame : resolved = server := by
    by_contra hne
    rw [if_pos hne] at horigin
    cases horigin
  exact ⟨server, by rw [← hsame]; exact hresolved, hserver⟩

lemma isBase_baseUrl (transport : ApiTransport around) :
    ∃ server, IsBase around transport.baseUrl server := by
  obtain ⟨server, hsplit, hhttp, hnetloc⟩ := transport.split_baseUrl
  exact ⟨server, hsplit, hhttp, hnetloc, by simp [ApiTransport.baseUrl]⟩

/-- A target that is sent has no control characters and spaces. -/
lemma lt_of_safe (h : hasUnsafeCharacter target = false) : ∀ c ∈ target, 32 < c.toNat := by
  intro c hc
  by_contra hle
  have hsafe := List.any_eq_false.1 h c hc
  by_cases hspace : c = ' '
  · rw [hspace] at hsafe
    exact hsafe (by decide)
  · have hne : c.toNat ≠ 32 := fun h32 => hspace (Char.toNat_inj.1 h32)
    refine hsafe ?_
    have hlt : c.toNat < 32 := by omega
    simp [hlt]

lemma readRest_slash (scheme netloc reference : List Char) :
    readRest scheme netloc ('/' :: reference) =
      { readRest scheme netloc reference with
        path := '/' :: (readRest scheme netloc reference).path } :=
  @readRest_append ['/'] (by decide) scheme netloc reference

lemma Sent.parsed_eq {parsed : Parts} {reference : List Char}
    (h : Sent transport document ('/' :: reference) url parsed) :
    parsed = readRest [] [] ('/' :: reference) := by
  have hclean := clean_of_lt (lt_of_safe h.noUnsafe)
  have hscheme : splitScheme [] ('/' :: reference) = ([], '/' :: reference) := by
    refine if_neg fun hscheme => ?_
    have hletter := hscheme.2.1
    simp [cut, isLetter] at hletter
  exact Except.ok.inj (h.parse.symm.trans (split_reference hclean hscheme h.oneSlash))

/-- An origin has the scheme of its URL. -/
lemma origin_scheme {result : List Char × List Char × Nat} (h : origin around url = .ok result) :
    ∃ parts, split around [] url = .ok parts ∧ result.1 = parts.scheme := by
  unfold Diagnostics.origin at h
  cases hsplit : split around [] url with
  | error message =>
    rw [hsplit] at h
    cases h
  | ok parts =>
    rw [hsplit] at h
    simp only at h
    cases hport : port parts.netloc with
    | error message =>
      rw [hport] at h
      cases h
    | ok number =>
      rw [hport] at h
      exact ⟨parts, rfl, congrArg Prod.fst (Except.ok.inj h).symm⟩

/-- A target has no scheme, or that of the server: otherwise its origin is another one. -/
lemma Sent.scheme {parsed server : Parts} {reference : List Char}
    (h : Sent transport document ('/' :: reference) url parsed)
    (hserver : IsBase around transport.baseUrl server) (hne : reference ≠ [])
    (hstrip : lstripSlash ('/' :: reference) = reference) :
    (splitScheme [] reference).1 = [] ∨ (splitScheme [] reference).1 = server.scheme := by
  by_cases hnone : (splitScheme [] reference).1 = []
  · exact .inl hnone
  right
  obtain ⟨name, rest, -, -, hname, hgiven⟩ := splitScheme_of_some hnone server.scheme
  obtain ⟨name', rest', -, -, hname', hgiven'⟩ := splitScheme_of_some hnone []
  have hclean : clean reference = reference :=
    clean_of_lt fun c hc => lt_of_safe h.noUnsafe c (List.mem_cons_of_mem _ hc)
  have hrequest := h.request
  rw [ApiTransport.requestUrl, hstrip] at hrequest
  obtain ⟨r, hr, hcases⟩ := hserver.join_cases hne hrequest
  have hscheme : r.scheme = (splitScheme [] reference).1 := by
    rw [split_eq_ok_iff, hclean, hgiven] at hr
    rw [hr.2, hname]
    rfl
  by_cases hown : r.scheme = server.scheme
  · exact hscheme.symm.trans hown
  -- a reference with another scheme is requested as it is
  have hurl : url = reference := by
    rcases hcases with ⟨-, hurl⟩ | ⟨hsame, -⟩ | ⟨hsame, -⟩
    · exact hurl
    · exact absurd hsame hown
    · exact absurd hsame hown
  obtain ⟨result, horigin, hbase⟩ := h.origin
  rw [hurl] at horigin
  obtain ⟨parts, hparts, hresult⟩ := origin_scheme horigin
  obtain ⟨server', hserver', hresult'⟩ := origin_scheme hbase
  obtain rfl := Except.ok.inj (hserver.split.symm.trans hserver')
  rw [split_eq_ok_iff, hclean] at hparts
  rw [← hresult', hresult, hparts.2]
  rfl

/-- A request that is sent is faithful exactly when its target is kept. -/
theorem get_faithful_iff (h : Diagnostics.get transport document target = .ok url) :
    FaithfulRequest transport document target url ↔ IsKept transport target := by
  obtain ⟨parsed, hsent⟩ := sent_of_get h
  obtain ⟨server, hserver⟩ := isBase_baseUrl transport
  obtain ⟨reference, rfl⟩ := List.head?_eq_some_iff.1 hsent.absolute
  have hhead : reference.head? ≠ some '/' := by
    intro hslash
    obtain ⟨rest, rfl⟩ := List.head?_eq_some_iff.1 hslash
    exact hsent.oneSlash rfl
  have hstrip : lstripSlash ('/' :: reference) = reference := by
    rw [lstripSlash, List.dropWhile_cons_of_pos (by simp)]
    cases reference with
    | nil => rfl
    | cons c rest =>
      have hc : c ≠ '/' := by simpa using hhead
      rw [List.dropWhile_cons_of_neg (by simpa using hc)]
  have hparsed := hsent.parsed_eq
  rw [readRest_slash] at hparsed
  have hrequest := hsent.request
  rw [ApiTransport.requestUrl, hstrip] at hrequest
  -- only the URL itself is in question
  have hfaithful : FaithfulRequest transport document ('/' :: reference) url ↔
      url = transport.baseUrl ++
        writeRest (readRest [] [] reference).path (readRest [] [] reference).query [] := by
    have hwritten : rstripSlash transport.given ++ writeRest parsed.path parsed.query [] =
        transport.baseUrl ++
          writeRest (readRest [] [] reference).path (readRest [] [] reference).query [] := by
      rw [hparsed, ApiTransport.baseUrl]
      simp [writeRest]
    rw [← hwritten]
    constructor
    · rintro ⟨parsed', json, routes, hparse, -, -, hurl, -⟩
      obtain rfl := Except.ok.inj (hsent.parse.symm.trans hparse)
      exact hurl
    · intro hurl
      obtain ⟨json, routes, hdocument, hroutes, hadvertised⟩ := hsent.advertised
      exact ⟨parsed, json, routes, hsent.parse, hdocument, hroutes, hurl, hsent.origin,
        hadvertised⟩
  rw [hfaithful]
  by_cases hempty : reference = []
  · subst hempty
    have hbaseNe : transport.baseUrl ≠ [] := by simp [ApiTransport.baseUrl]
    have hurl : url = transport.baseUrl := by
      rw [join, if_neg hbaseNe, if_pos rfl] at hrequest
      exact (Except.ok.inj hrequest).symm
    refine ⟨fun _ => .inl rfl, fun _ => ?_⟩
    rw [hurl]
    simp [readRest, cut, writeRest]
  · have hclean : clean reference = reference :=
      clean_of_lt fun c hc => lt_of_safe hsent.noUnsafe c (List.mem_cons_of_mem _ hc)
    have hfragment : (readRest [] [] reference).fragment = [] := by
      have hnone := hsent.noFragment
      rw [hparsed] at hnone
      exact hnone
    rw [hserver.join_eq_append_iff hclean hhead hempty hfragment
      (hsent.scheme hserver hempty hstrip) hrequest]
    constructor
    · exact fun happends => .inr ⟨server, hserver.split, happends⟩
    · rintro (hroot | ⟨server', hsplit, happends⟩)
      · exact absurd (List.cons.inj hroot).2 hempty
      · obtain rfl := Except.ok.inj (hserver.split.symm.trans hsplit)
        exact happends

/-! ## A server with one route -/

/-- A document that advertises the route of a project. -/
def projectDocument : JsonValue :=
  .obj [("paths", .obj [("/project/{projectID}", .obj [("get", .obj [])])])]

lemma listRoutes_project :
    listRoutes projectDocument = .ok [⟨"/project/{projectID}", ["GET"]⟩] := by
  have hlower : lowerMethod "get" ∈ httpMethods := by decide
  have hupper : upperMethod "get" = "GET" := by rfl
  have hmethods : routeMethods [("get", .obj [])] = ["GET"] := by
    rw [routeMethods, List.filter_cons_of_pos (by simpa using hlower), List.filter_nil,
      List.map_singleton, List.mergeSort_singleton, hupper]
  have hpaths : openapiPaths projectDocument =
      .ok [("/project/{projectID}", .obj [("get", .obj [])])] := by rfl
  rw [listRoutes, hpaths]
  simp only [bind, Except.bind, List.mergeSort_singleton, JsonValue.fields, List.filterMap_cons,
    hmethods]
  rfl

lemma get_project {target path url : List Char}
    (htarget : readOnlyTarget asciiSurroundings target localTransport.baseUrl = .ok (target, path))
    (hmatches : matchesTemplate "/project/{projectID}".toList path = true)
    (hurl : localTransport.requestUrl target = .ok url) :
    Diagnostics.get localTransport (.ok projectDocument) target = .ok url := by
  have hdocument : (Except.ok projectDocument : Except PyError JsonValue).mapError
      DiagnosticsError.api = .ok projectDocument := rfl
  have hmethod : "GET" ∈ (["GET"] : List String) := List.mem_singleton.2 rfl
  rw [Diagnostics.get, htarget]
  simp only [bind, Except.bind, hdocument, listRoutes_project, List.any_cons, hmethod, hmatches,
    hurl]
  rfl

theorem faithfulRequest_project :
    FaithfulRequest localTransport (.ok projectDocument) "/project/p1?limit=1".toList
      "http://127.0.0.1:4096/project/p1?limit=1".toList := by
  have hget : Diagnostics.get localTransport (.ok projectDocument) "/project/p1?limit=1".toList =
      .ok "http://127.0.0.1:4096/project/p1?limit=1".toList :=
    get_project (by rfl) (by decide) (by rfl)
  refine (get_faithful_iff hget).2 (.inr ⟨⟨"http".toList, "127.0.0.1:4096".toList, ['/'], [], []⟩,
    by rfl, ?_⟩)
  exact .path (by decide) (by decide) (by rfl) (by rfl) ⟨by decide, by decide⟩

/-- The path of a project is matched, and another one is requested: the dots in it have parameters,
so that the validator does not see them. -/
theorem not_faithfulRequest_dots :
    Diagnostics.get localTransport (.ok projectDocument) "/project/..;a".toList =
        .ok "http://127.0.0.1:4096/;a".toList ∧
      ¬FaithfulRequest localTransport (.ok projectDocument) "/project/..;a".toList
        "http://127.0.0.1:4096/;a".toList := by
  refine ⟨get_project (by rfl) (by decide) (by rfl), ?_⟩
  rintro ⟨parsed, json, routes, hparse, -, -, hurl, -⟩
  have hparts : split asciiSurroundings [] "/project/..;a".toList =
      .ok ⟨[], [], "/project/..;a".toList, [], []⟩ := by rfl
  obtain rfl := Except.ok.inj (hparts.symm.trans hparse)
  exact absurd hurl (by decide)

end OpencodeSession
