import OpencodeSession.Server.Routes

/-!
# The shape of a requested route

Rendering puts a quoted id in place of the placeholder of a template, and joining puts the segments
of the path after those of the server's root (`keepsShape_iff`).  A quoted id has no slash and no
other sign that a URL is cut at, so it stays one segment; but the two ids that are dots have nothing
to quote, and joining takes them for folders.
-/

namespace OpencodeSession

open PercentEncoding Url

/-- The placeholder that the templates of a plan have for a parameter. -/
def PathParameter.placeholder : PathParameter → List Char
  | session => "{sessionID}".toList
  | request => "{requestID}".toList
  | project => "{projectID}".toList
  | workspace => "{workspaceID}".toList

/-- A request with one id. -/
def PathParameter.ids (id : List Char) : PathParameter → PathIds
  | session => { sessionId := some id }
  | request => { requestId := some id }
  | project => { projectId := some id }
  | workspace => { workspaceId := some id }

/-- The segments of a template. -/
def templateSegments (path : List Char) : List (List Char) :=
  (lstripSlash (cut '?' path).1).splitOn '/'

/-- The query of a template. -/
def templateQuery (path : List Char) : List Char := (cut '?' path).2

/-- The segments of a template with the quoted id as one segment in place of its parameter. -/
def filledSegments (path : List Char) (parameter : PathParameter) (id : List Char) :
    List (List Char) :=
  (templateSegments path).map fun segment =>
    if segment = parameter.placeholder then quote id else segment

/-! ## Templates -/

/-- The paths that the routes of a plan can have. -/
def knownPaths : List (List Char) :=
  [RouteName.projectCollection, .projectDirectories, .workspaceCollection, .workspaceItem,
    .projectCopyRefresh, .sessionCollection, .sessionItem, .v2Prompt, .v2Wait, .events,
    .blockingMessage, .legacyRun, .legacyReply, .sessionAbort, .sessionFork, .sessionChildren,
    .permissions, .permissionReply, .questions, .questionReply, .questionReject].map
      defaultRoutePlan ++
    sessionPaths ++ sessionPaths.map sessionItemPath ++ promptPaths ++
    promptPaths.map (· ++ "?wait=true".toList) ++ waitPaths ++ eventPaths

lemma firstAvailableRoute_mem {candidates : List (List Char)} (hne : candidates ≠ [])
    (paths : JsonValue) (method : String) :
    (firstAvailableRoute paths candidates method).1 ∈ candidates := by
  unfold firstAvailableRoute
  cases hfind : candidates.find? fun path => routeAvailable paths path method with
  | none =>
    obtain ⟨first, rest, rfl⟩ := List.exists_cons_of_ne_nil hne
    exact List.mem_cons_self
  | some path => exact List.mem_of_find?_eq_some hfind

lemma plannedRoutePath_eq (route : List Char × Bool) (fallback : List Char) :
    plannedRoutePath route fallback = route.1 ∨ plannedRoutePath route fallback = fallback := by
  unfold plannedRoutePath
  split_ifs
  · exact .inl rfl
  · exact .inr rfl

/-- The path of a detected route is one of the known ones. -/
lemma detectedRoutePlan_mem (paths : JsonValue) (name : RouteName) :
    detectedRoutePlan paths name ∈ knownPaths := by
  -- a planned route is one of its candidates, whether the document offers it or not
  have hplanned : ∀ candidates method, candidates ≠ [] →
      plannedRoutePath (firstAvailableRoute paths candidates method) (candidates.headD []) ∈
        candidates := by
    intro candidates method hne
    rcases plannedRoutePath_eq (firstAvailableRoute paths candidates method)
      (candidates.headD []) with h | h
    · rw [h]
      exact firstAvailableRoute_mem hne paths method
    · obtain ⟨first, rest, rfl⟩ := List.exists_cons_of_ne_nil hne
      rw [h]
      exact List.mem_cons_self
  have hsession := hplanned sessionPaths "post" (by decide)
  have hprompt := hplanned promptPaths "post" (by decide)
  have hevents := hplanned eventPaths "get" (by decide)
  have hwait : (waitRoute paths).1 ∈ promptPaths.map (· ++ "?wait=true".toList) ++ waitPaths := by
    unfold waitRoute
    simp only
    split_ifs
    · refine List.mem_append_left _ (List.mem_map.2 ⟨_, ?_, rfl⟩)
      exact firstAvailableRoute_mem (by decide) paths "post"
    · exact List.mem_append_right _ (firstAvailableRoute_mem (by decide) paths "post")
  have hwaitPlanned : plannedRoutePath (waitRoute paths) (waitPaths.headD []) ∈
      promptPaths.map (· ++ "?wait=true".toList) ++ waitPaths := by
    rcases plannedRoutePath_eq (waitRoute paths) (waitPaths.headD []) with h | h
    · rw [h]
      exact hwait
    · rw [h]
      decide
  have hdefault : ∀ name, defaultRoutePlan name ∈ knownPaths := by
    intro name
    cases name <;> decide
  unfold detectedRoutePlan
  split
  · have hsub : ∀ path ∈ sessionPaths, path ∈ knownPaths := by decide
    exact hsub _ hsession
  · have hsub : ∀ path ∈ sessionPaths, sessionItemPath path ∈ knownPaths := by decide
    exact hsub _ hsession
  · have hsub : ∀ path ∈ promptPaths, path ∈ knownPaths := by decide
    exact hsub _ hprompt
  · have hsub : ∀ path ∈ promptPaths.map (· ++ "?wait=true".toList) ++ waitPaths,
        path ∈ knownPaths := by decide
    exact hsub _ hwaitPlanned
  · have hsub : ∀ path ∈ eventPaths, path ∈ knownPaths := by decide
    exact hsub _ hevents
  · exact hdefault _

/-- How a template with a parameter is written. -/
structure Template (path : List Char) (parameter : PathParameter)
    (before after : List (List Char)) (query : List Char) : Prop where
  spelled : path = '/' :: writeRest (joinSlash (before ++ parameter.placeholder :: after)) query []
  hasFolder : before ≠ []
  noEmpty : ∀ s ∈ before ++ after, s ≠ []
  noDots : ∀ s ∈ before ++ after, isDots s = false
  unreserved : ∀ s ∈ before ++ after, ∀ c ∈ s, isUnreserved c = true
  queryPlain : ∀ c ∈ query, isUnreserved c = true ∨ c = '='

/-- Every known path with a parameter is written as a template. -/
lemma template_of_known {path : List Char} (hknown : path ∈ knownPaths)
    (parameter : PathParameter) (h : parameter.placeholder ∈ templateSegments path) :
    ∃ before after query, Template path parameter before after query := by
  have hall : ∀ path ∈ knownPaths,
      ∀ parameter ∈ [PathParameter.session, .request, .project, .workspace],
        parameter.placeholder ∈ templateSegments path →
          let before := (templateSegments path).takeWhile (· ≠ parameter.placeholder)
          let after := ((templateSegments path).dropWhile (· ≠ parameter.placeholder)).tail
          path = '/' :: writeRest (joinSlash (before ++ parameter.placeholder :: after))
              (templateQuery path) [] ∧
            before ≠ [] ∧ (∀ s ∈ before ++ after, s ≠ []) ∧
            (∀ s ∈ before ++ after, isDots s = false) ∧
            (∀ s ∈ before ++ after, s.all isUnreserved = true) ∧
            ((templateQuery path).all fun c => isUnreserved c ∨ c = '=') = true := by
    decide +kernel
  have hparameter : parameter ∈ [PathParameter.session, .request, .project, .workspace] := by
    cases parameter <;> decide
  obtain ⟨hspelled, hfolder, hempty, hdots, hunreserved, hquery⟩ :=
    hall path hknown parameter hparameter h
  exact ⟨_, _, _, hspelled, hfolder, hempty, hdots,
    fun s hs => List.all_eq_true.1 (hunreserved s hs),
    fun c hc => of_decide_eq_true (List.all_eq_true.1 hquery c hc)⟩

/-! ## Rendering a template -/

section Replace

variable {sign : Char} {more new : List Char}

lemma replaceSkipping_eq (old new : List Char) (n : Nat) (text : List Char) :
    replaceSkipping old new n text = replaceText old new (text.drop n) := by
  induction text generalizing n with
  | nil => simp [replaceText, replaceSkipping]
  | cons c rest ih =>
    cases n with
    | zero => rfl
    | succ n => exact ih n

/-- Replacing passes over a text that does not have the first sign of what is replaced. -/
lemma replaceText_append {front : List Char} (h : sign ∉ front) (text : List Char) :
    replaceText (sign :: more) new (front ++ text) =
      front ++ replaceText (sign :: more) new text := by
  induction front with
  | nil => rfl
  | cons c rest ih =>
    obtain ⟨hc, hrest⟩ : sign ≠ c ∧ sign ∉ rest := by simpa using h
    have hnot : ¬(sign :: more).isPrefixOf (c :: (rest ++ text)) = true := by
      simp [List.isPrefixOf, hc]
    rw [List.cons_append, replaceText, replaceSkipping, if_neg hnot]
    exact congrArg (c :: ·) (ih hrest)

lemma replaceText_of_notMem {text : List Char} (h : sign ∉ text) :
    replaceText (sign :: more) new text = text := by
  have happend := @replaceText_append sign more new text h []
  simpa [replaceText, replaceSkipping] using happend

lemma replaceText_self (text : List Char) :
    replaceText (sign :: more) new ((sign :: more) ++ text) =
      new ++ replaceText (sign :: more) new text := by
  have hprefix : (sign :: more).isPrefixOf (sign :: (more ++ text)) = true :=
    List.isPrefixOf_iff_prefix.2 ⟨text, by simp⟩
  rw [List.cons_append, replaceText, replaceSkipping, if_pos hprefix, replaceSkipping_eq]
  simp

end Replace

lemma notMem_quote {id : List Char} {sign : Char} (h : isUnreserved sign = false)
    (hpercent : sign ≠ '%') : sign ∉ quote id := by
  intro hmem
  rcases isUnreserved_of_mem_quote hmem with hunreserved | hsign
  · rw [h] at hunreserved
    cases hunreserved
  · exact hpercent hsign

/-- A path whose only braces and colons are those of its placeholder is rendered with the quoted id
in place of it. -/
lemma renderRoutePath_ids {front back : List Char} (parameter : PathParameter) (id : List Char)
    (hfront : '{' ∉ front ∧ ':' ∉ front) (hback : '{' ∉ back ∧ ':' ∉ back) :
    renderRoutePath (front ++ (parameter.placeholder ++ back)) (parameter.ids id) =
      front ++ (quote id ++ back) := by
  have hbrace : '{' ∉ front ++ (quote id ++ back) := by
    simp [hfront.1, hback.1, notMem_quote (by decide : isUnreserved '{' = false) (by decide)]
  have hcolon : ':' ∉ front ++ (quote id ++ back) := by
    simp [hfront.2, hback.2, notMem_quote (by decide : isUnreserved ':' = false) (by decide)]
  obtain ⟨more, hmore⟩ : ∃ more, parameter.placeholder = '{' :: more := by
    cases parameter <;> exact ⟨_, rfl⟩
  obtain ⟨name, hplaceholders⟩ : ∃ name, parameter.placeholders =
      [String.ofList parameter.placeholder, String.ofList (':' :: name), "{id}", ":id"] := by
    cases parameter <;> exact ⟨_, rfl⟩
  have hrender : renderRoutePath (front ++ (parameter.placeholder ++ back)) (parameter.ids id) =
      replacePlaceholders (front ++ (parameter.placeholder ++ back)) id parameter.placeholders := by
    cases parameter <;> rfl
  have hid : "{id}".toList = '{' :: "id\x7d".toList := by decide
  have hcolonId : ":id".toList = ':' :: "id".toList := by decide
  rw [hrender, hplaceholders, replacePlaceholders]
  simp only [List.foldl_cons, List.foldl_nil, String.toList_ofList, hmore, hid, hcolonId]
  rw [replaceText_append hfront.1, replaceText_self, replaceText_of_notMem hback.1,
    replaceText_of_notMem hcolon, replaceText_of_notMem hbrace, replaceText_of_notMem hcolon]

lemma joinSlash_middle {before : List (List Char)} (h : before ≠ []) (segment : List Char)
    (after : List (List Char)) :
    joinSlash (before ++ segment :: after) = (joinSlash before ++ ['/']) ++
      (segment ++ if after = [] then [] else '/' :: joinSlash after) := by
  rw [joinSlash_append h (List.cons_ne_nil _ _)]
  split_ifs with hafter
  · simp [hafter]
  · rw [joinSlash_cons _ hafter]
    simp

section Requests

variable {path query : List Char} {parameter : PathParameter} {before after : List (List Char)}

lemma mem_segment (h : Template path parameter before after query) {segment : List Char}
    (hsegment : segment ∈ before ++ after) : '/' ∉ segment := by
  intro hmem
  exact absurd (h.unreserved segment hsegment '/' hmem) (by decide)

/-- The path of a template does not start with a slash, whatever is in place of its parameter. -/
lemma exists_head (h : Template path parameter before after query) (segment : List Char) :
    ∃ c text, joinSlash (before ++ segment :: after) = c :: text ∧ c ≠ '/' := by
  obtain ⟨first, rest, hfirst⟩ := List.exists_cons_of_ne_nil h.hasFolder
  have hfirstMem : first ∈ before ++ after := by
    rw [hfirst]
    simp
  obtain ⟨c, more, hc⟩ := List.exists_cons_of_ne_nil (h.noEmpty first hfirstMem)
  refine ⟨c, more ++ '/' :: joinSlash (rest ++ segment :: after), ?_, ?_⟩
  · rw [hfirst, hc, List.cons_append, joinSlash_cons _ (by simp)]
    rfl
  · rintro rfl
    exact mem_segment h hfirstMem (by rw [hc]; exact List.mem_cons_self)

lemma lstripSlash_of_head {c : Char} (hc : c ≠ '/') (text : List Char) :
    lstripSlash (c :: text) = c :: text := by
  rw [lstripSlash, List.dropWhile_cons_of_neg (by simpa using hc)]

lemma notMem_joinSlash {segments : List (List Char)} {sign : Char}
    (h : ∀ s ∈ segments, ∀ c ∈ s, isUnreserved c = true) (hsign : isUnreserved sign = false)
    (hslash : sign ≠ '/') : sign ∉ joinSlash segments := by
  intro hmem
  rcases mem_joinSlash hmem with rfl | ⟨s, hs, hc⟩
  · exact hslash rfl
  · rw [h s hs sign hc] at hsign
    cases hsign

lemma notMem_query (h : Template path parameter before after query) {sign : Char}
    (hsign : isUnreserved sign = false) (hequals : sign ≠ '=') : sign ∉ query := by
  intro hmem
  rcases h.queryPlain sign hmem with hunreserved | heq
  · rw [hunreserved] at hsign
    cases hsign
  · exact hequals heq

/-- The path of a request with one id: the segments of the template, with the quoted id. -/
lemma routePath_of_template {routePlan : RouteName → List Char} {name : RouteName}
    (h : Template (routePlan name) parameter before after query) (id : List Char) :
    routePath routePlan name (parameter.ids id) =
      writeRest (joinSlash (before ++ quote id :: after)) query [] := by
  have hne : routePlan name ≠ [] := by
    rw [h.spelled]
    exact List.cons_ne_nil _ _
  set front := '/' :: (joinSlash before ++ ['/']) with hfront
  set back := (if after = [] then [] else '/' :: joinSlash after) ++
    if query ≠ [] then '?' :: query else [] with hback
  have hwritten : ∀ segment, '/' :: writeRest (joinSlash (before ++ segment :: after)) query [] =
      front ++ (segment ++ back) := by
    intro segment
    rw [joinSlash_middle h.hasFolder, writeRest, hfront, hback]
    simp
  have hbefore : ∀ s ∈ before, ∀ c ∈ s, isUnreserved c = true :=
    fun s hs => h.unreserved s (List.mem_append_left _ hs)
  have hafter : ∀ s ∈ after, ∀ c ∈ s, isUnreserved c = true :=
    fun s hs => h.unreserved s (List.mem_append_right _ hs)
  have hfrontSigns : ∀ sign, isUnreserved sign = false → sign ≠ '/' → sign ∉ front := by
    intro sign hsign hslash
    simp [hfront, hslash, notMem_joinSlash hbefore hsign hslash]
  have hbackSigns : ∀ sign, isUnreserved sign = false → sign ≠ '/' → sign ≠ '=' → sign ≠ '?' →
      sign ∉ back := by
    intro sign hsign hslash hequals hquestion
    have hquery := notMem_query h hsign hequals
    have hjoined := notMem_joinSlash hafter hsign hslash
    rw [hback, List.mem_append]
    split_ifs <;> simp [hslash, hquestion, hquery, hjoined]
  have hrendered := renderRoutePath_ids parameter id
    ⟨hfrontSigns '{' (by decide) (by decide), hfrontSigns ':' (by decide) (by decide)⟩
    ⟨hbackSigns '{' (by decide) (by decide) (by decide) (by decide),
      hbackSigns ':' (by decide) (by decide) (by decide) (by decide)⟩
  have hspelled : routePlan name = front ++ (parameter.placeholder ++ back) := by
    rw [← hwritten]
    exact h.spelled
  rw [routePath]
  simp only [if_pos hne]
  obtain ⟨c, text, htext, hc⟩ := exists_head h (quote id)
  rw [hspelled, hrendered, ← hwritten, htext, lstripSlash, List.dropWhile_cons_of_pos (by simp)]
  exact lstripSlash_of_head hc _

lemma placeholder_chars (parameter : PathParameter) :
    '/' ∉ parameter.placeholder ∧ '?' ∉ parameter.placeholder ∧ '{' ∈ parameter.placeholder := by
  cases parameter <;> decide

/-- The segments of a template and its query. -/
lemma templateSegments_eq (h : Template path parameter before after query) :
    templateSegments path = before ++ parameter.placeholder :: after ∧
      templateQuery path = query := by
  obtain ⟨hslash, hquestion, -⟩ := placeholder_chars parameter
  set joined := joinSlash (before ++ parameter.placeholder :: after) with hjoined
  have hnotMem : '?' ∉ '/' :: joined := by
    intro hmem
    rcases mem_joinSlash ((List.mem_cons.1 hmem).resolve_left (by decide)) with heq | ⟨s, hs, hc⟩
    · exact absurd heq (by decide)
    · rcases List.mem_append.1 hs with hs | hs
      · exact absurd (h.unreserved s (List.mem_append_left _ hs) _ hc) (by decide)
      · rcases List.mem_cons.1 hs with rfl | hs
        · exact hquestion hc
        · exact absurd (h.unreserved s (List.mem_append_right _ hs) _ hc) (by decide)
  have hcut : cut '?' path = ('/' :: joined, query) := by
    rw [h.spelled, writeRest]
    by_cases hempty : query = []
    · subst hempty
      simpa using cut_of_notMem hnotMem
    · simpa [hempty] using cut_append hnotMem query
  have hsegments : joined.splitOn '/' = before ++ parameter.placeholder :: after := by
    refine splitOn_joinSlash (fun s hs => ?_) (by simp)
    rcases List.mem_append.1 hs with hs | hs
    · exact mem_segment h (List.mem_append_left _ hs)
    · rcases List.mem_cons.1 hs with rfl | hs
      · exact hslash
      · exact mem_segment h (List.mem_append_right _ hs)
  have hstrip : lstripSlash ('/' :: joined) = joined := by
    obtain ⟨c, text, htext, hc⟩ := exists_head h parameter.placeholder
    rw [hjoined, htext, lstripSlash, List.dropWhile_cons_of_pos (by simp)]
    exact lstripSlash_of_head hc text
  rw [templateSegments, templateQuery, hcut, hstrip]
  exact ⟨hsegments, rfl⟩

lemma filledSegments_eq (h : Template path parameter before after query) (id : List Char) :
    filledSegments path parameter id = before ++ quote id :: after := by
  obtain ⟨-, -, hbrace⟩ := placeholder_chars parameter
  have hother : ∀ s ∈ before ++ after, s ≠ parameter.placeholder := by
    rintro s hs rfl
    exact absurd (h.unreserved _ hs '{' hbrace) (by decide)
  have hkept : ∀ segments : List (List Char), (∀ s ∈ segments, s ≠ parameter.placeholder) →
      (segments.map fun s => if s = parameter.placeholder then quote id else s) = segments := by
    intro segments hne
    rw [List.map_congr_left fun s hs => if_neg (hne s hs), List.map_id']
  rw [filledSegments, (templateSegments_eq h).1, List.map_append, List.map_cons, if_pos rfl,
    hkept before fun s hs => hother s (List.mem_append_left _ hs),
    hkept after fun s hs => hother s (List.mem_append_right _ hs)]

end Requests

variable {around : Surroundings}

/-- A request keeps the shape of its route: its URL has the scheme and the network location of the
server, and its path has the segments of the server's root and then those of the template, with the
quoted id as one segment in place of the parameter. -/
def KeepsShape (transport : ApiTransport around) (root : List (List Char))
    (routePlan : RouteName → List Char) (name : RouteName) (parameter : PathParameter)
    (id : List Char) : Prop :=
  ∃ url server parts, transport.requestUrl (routePath routePlan name (parameter.ids id)) = .ok url ∧
    split around [] transport.baseUrl = .ok server ∧ split around [] url = .ok parts ∧
    parts.scheme = server.scheme ∧ parts.netloc = server.netloc ∧
    parts.path.splitOn '/' = root ++ filledSegments (routePlan name) parameter id ∧
    parts.query = templateQuery (routePlan name) ∧ parts.fragment = []

lemma plain_of_unreserved : ∀ c, isUnreserved c = true ∨ c = '%' ∨ c = '=' ∨ c = '/' →
    32 < c.toNat ∧ isSign c = false := by
  intro c hc
  have hsigns : c ≠ '?' ∧ c ≠ '#' ∧ c ≠ ';' ∧ c ≠ ':' := by
    refine ⟨?_, ?_, ?_, ?_⟩ <;> (rintro rfl; exact absurd hc (by decide))
  refine ⟨?_, by simpa [isSign] using hsigns⟩
  rcases hc with hunreserved | rfl | rfl | rfl
  · by_contra hle
    have hcases : c = '_' ∨ c = '.' ∨ c = '-' ∨ c = '~' := by
      simp only [isUnreserved, Bool.or_eq_true, Bool.and_eq_true, decide_eq_true_eq] at hunreserved
      have hmem : c ∈ ['_', '.', '-', '~'] := by
        rcases hunreserved with ((h | h) | h) | h
        · omega
        · omega
        · omega
        · exact h
      simpa using hmem
    rcases hcases with rfl | rfl | rfl | rfl <;> exact hle (by decide)
  · decide
  · decide
  · decide

/-- The parts of a URL that is requested with one id. -/
lemma requestUrl_of_template {routePlan : RouteName → List Char} {name : RouteName}
    {parameter : PathParameter} {before after : List (List Char)} {query : List Char}
    (h : Template (routePlan name) parameter before after query) (id : List Char)
    (transport : ApiTransport around) {server : Parts}
    (hserver : split around [] transport.baseUrl = .ok server)
    (hhttp : String.ofList server.scheme ∈ ["http", "https"]) (hnetloc : server.netloc ≠ []) :
    ∃ url, transport.requestUrl (routePath routePlan name (parameter.ids id)) = .ok url ∧
      split around [] url = .ok
        { server with
          path := rooted (joinPath (splitParams server.scheme server.path).1
            (joinSlash (before ++ quote id :: after)))
          query
          fragment := [] } := by
  obtain ⟨c, text, htext, hc⟩ := exists_head h (quote id)
  have hstrip : lstripSlash (routePath routePlan name (parameter.ids id)) =
      writeRest (joinSlash (before ++ quote id :: after)) query [] := by
    rw [routePath_of_template h id, htext]
    exact lstripSlash_of_head hc _
  rw [ApiTransport.requestUrl, hstrip]
  refine split_join_plain hserver hhttp hnetloc ?_ ?_ ?_ ?_
  · intro d hd
    rcases mem_joinSlash hd with rfl | ⟨s, hs, hd⟩
    · exact plain_of_unreserved _ (.inr (.inr (.inr rfl)))
    · rcases List.mem_append.1 hs with hs | hs
      · exact plain_of_unreserved d (.inl (h.unreserved s (List.mem_append_left _ hs) d hd))
      · rcases List.mem_cons.1 hs with rfl | hs
        · rcases isUnreserved_of_mem_quote hd with hd | rfl
          · exact plain_of_unreserved d (.inl hd)
          · exact plain_of_unreserved _ (.inr (.inl rfl))
        · exact plain_of_unreserved d (.inl (h.unreserved s (List.mem_append_right _ hs) d hd))
  · intro d hd
    rcases h.queryPlain d hd with hd | rfl
    · exact plain_of_unreserved d (.inl hd)
    · exact plain_of_unreserved _ (.inr (.inr (.inl rfl)))
  · rw [htext]
    exact List.cons_ne_nil _ _
  · rw [htext]
    simpa using hc

/-- The segments of the server's root: those of the folder that the path of its base URL names. -/
def ApiTransport.root (transport : ApiTransport around) : List (List Char) :=
  match split around [] transport.baseUrl with
  | .ok server => folderSegments (splitParams server.scheme server.path).1
  | .error _ => []

/-- The requests of a server keep the shape of their routes for every id but the two that are dots,
which quoting leaves as they are and joining resolves. -/
theorem keepsShape_iff (transport : ApiTransport around) (paths : JsonValue) (name : RouteName)
    (parameter : PathParameter) (id : List Char)
    (hparameter : parameter.placeholder ∈ templateSegments (detectedRoutePlan paths name))
    (hid : id ≠ []) :
    KeepsShape transport transport.root (detectedRoutePlan paths) name parameter id ↔
      id ≠ ['.'] ∧ id ≠ ['.', '.'] := by
  obtain ⟨server, hserver, hhttp, hnetloc⟩ := transport.split_baseUrl
  have hscheme : server.scheme ≠ [] := by
    intro hnil
    rw [hnil] at hhttp
    exact absurd hhttp (by decide)
  obtain ⟨hrooted, -⟩ := path_of_split hserver hscheme hnetloc
  set base := (splitParams server.scheme server.path).1 with hbase
  have hbaseRooted : base = [] ∨ base.head? = some '/' := rooted_splitParams hrooted _
  have hroot : transport.root = folderSegments base := by
    rw [ApiTransport.root, hserver]
  rw [hroot]
  -- the route is a template, so the parts of its URL are known before the path is joined
  obtain ⟨before, after, query, htemplate⟩ :=
    template_of_known (detectedRoutePlan_mem paths name) parameter hparameter
  obtain ⟨url, hurl, hparts⟩ :=
    requestUrl_of_template htemplate id transport hserver hhttp hnetloc
  have hquery := (templateSegments_eq htemplate).2
  have hfilled := filledSegments_eq htemplate id
  -- a quoted id has no slash: the path is cut where the template was
  have hsplit : (joinSlash (before ++ quote id :: after)).splitOn '/' =
      before ++ quote id :: after := by
    refine splitOn_joinSlash (fun s hs => ?_) (by simp)
    rcases List.mem_append.1 hs with hs | hs
    · exact mem_segment htemplate (List.mem_append_left _ hs)
    · rcases List.mem_cons.1 hs with rfl | hs
      · exact notMem_quote (by decide) (by decide)
      · exact mem_segment htemplate (List.mem_append_right _ hs)
  constructor
  · rintro ⟨url', server', parts', hurl', hserver', hparts', -, -, hpath, -⟩
    -- a joined path has no dots, so the quoted id is none
    obtain rfl : url = url' := Except.ok.inj (hurl.symm.trans hurl')
    obtain rfl := Except.ok.inj (hparts.symm.trans hparts')
    obtain ⟨c, text, htext, hc⟩ := exists_head htemplate (quote id)
    have hdots : isDots (quote id) = false := by
      refine @isDots_of_mem_joinPath base (joinSlash (before ++ quote id :: after)) _ ?_ ?_
      · rw [htext]
        simpa using hc
      · rw [hpath, hfilled]
        simp
    constructor
    · rintro rfl
      exact absurd hdots (by decide)
    · rintro rfl
      exact absurd hdots (by decide)
  · rintro ⟨hone, htwo⟩
    -- quoting leaves dots and makes none, and without dots joining only appends
    have hdots : isDots (quote id) = false := by
      have hdot : isUnreserved '.' = true := by decide
      have hquoteOne : quote id ≠ ['.'] := fun h => hone ((quote_eq_iff (by simp [hdot])).1 h)
      have hquoteTwo : quote id ≠ ['.', '.'] := fun h =>
        htwo ((quote_eq_iff (by simp [hdot])).1 h)
      simp [isDots, hquoteOne, hquoteTwo]
    have hplain : ∀ s ∈ before ++ quote id :: after, s ≠ [] ∧ isDots s = false := by
      intro s hs
      rcases List.mem_append.1 hs with hs | hs
      · exact ⟨htemplate.noEmpty s (List.mem_append_left _ hs),
          htemplate.noDots s (List.mem_append_left _ hs)⟩
      · rcases List.mem_cons.1 hs with rfl | hs
        · exact ⟨quote_ne_nil hid, hdots⟩
        · exact ⟨htemplate.noEmpty s (List.mem_append_right _ hs),
            htemplate.noDots s (List.mem_append_right _ hs)⟩
    refine ⟨url, server, _, hurl, hserver, hparts, rfl, rfl, ?_, hquery.symm, rfl⟩
    rw [hfilled, segments_joinPath hbaseRooted (by rw [hsplit]; exact hplain), hsplit]

theorem keepsShape_slash :
    localTransport.root = [[]] ∧
      KeepsShape localTransport localTransport.root (detectedRoutePlan (.obj [])) .v2Prompt .session
        "ses/../1".toList :=
  ⟨rfl, (keepsShape_iff localTransport (.obj []) .v2Prompt .session "ses/../1".toList (by decide)
    (by decide)).2 ⟨by decide, by decide⟩⟩

/-- The session whose id is two dots is deleted at the route above the sessions. -/
theorem not_keepsShape_dots :
    localTransport.requestUrl (routePath (detectedRoutePlan (.obj [])) .sessionItem
        (PathParameter.session.ids "..".toList)) = .ok "http://127.0.0.1:4096/api/".toList ∧
      ¬∃ root, KeepsShape localTransport root (detectedRoutePlan (.obj [])) .sessionItem .session
        "..".toList := by
  have hurl : localTransport.requestUrl (routePath (detectedRoutePlan (.obj [])) .sessionItem
      (PathParameter.session.ids "..".toList)) = .ok "http://127.0.0.1:4096/api/".toList := by
    rfl
  refine ⟨hurl, ?_⟩
  rintro ⟨root, url, server, parts, hrequest, -, hparts, -, -, hpath, -⟩
  obtain rfl := Except.ok.inj (hurl.symm.trans hrequest)
  have hsplit : split asciiSurroundings [] "http://127.0.0.1:4096/api/".toList =
      .ok ⟨"http".toList, "127.0.0.1:4096".toList, "/api/".toList, [], []⟩ := by rfl
  obtain rfl := Except.ok.inj (hsplit.symm.trans hparts)
  have hfilled : filledSegments (detectedRoutePlan (.obj []) .sessionItem) .session "..".toList =
      ["api".toList, "session".toList, "..".toList] := by decide
  have hrequested : ("/api/".toList).splitOn '/' = [[], "api".toList, []] := by decide
  have hlast := congrArg List.getLast? hpath
  rw [hfilled, hrequested, List.getLast?_append] at hlast
  exact absurd hlast (by simp)

end OpencodeSession
