import Mathlib.Algebra.BigOperators.Group.List.Basic
import Mathlib.Algebra.GroupWithZero.Nat
import OpencodeSession.Framework.UrlSplit

/-!
# What joining a URL does to a path

Joining drops empty segments and resolves dots.  Both only shorten: `weight` counts the characters
of a list of segments with the slash after each, and a list that loses no weight is left as it is
(`dropInnerEmpty_eq_of_weight`, `weight_resolveDots_le`).  A reference without dots and empty
segments is put after the folder of its base (`join_plain`), whatever the base is.
-/

namespace Url

/-! ## Segments -/

/-- The characters of some segments, and a slash for each. -/
def weight (segments : List (List Char)) : Nat := (segments.map fun s => s.length + 1).sum

/-- The path of some segments. -/
def joinSlash (segments : List (List Char)) : List Char := ['/'].intercalate segments

@[simp] lemma weight_nil : weight [] = 0 := rfl

@[simp] lemma weight_cons (segment : List Char) (rest : List (List Char)) :
    weight (segment :: rest) = segment.length + 1 + weight rest := by
  simp [weight]

@[simp] lemma weight_append (segments others : List (List Char)) :
    weight (segments ++ others) = weight segments + weight others := by
  simp [weight]

@[simp] lemma joinSlash_nil : joinSlash [] = [] := rfl

@[simp] lemma joinSlash_singleton (segment : List Char) : joinSlash [segment] = segment := by
  simp [joinSlash]

lemma joinSlash_cons (segment : List Char) {rest : List (List Char)} (h : rest ≠ []) :
    joinSlash (segment :: rest) = segment ++ '/' :: joinSlash rest := by
  obtain ⟨next, more, rfl⟩ := List.exists_cons_of_ne_nil h
  simp [joinSlash]

lemma joinSlash_append {segments others : List (List Char)} (h : segments ≠ [])
    (hothers : others ≠ []) :
    joinSlash (segments ++ others) = joinSlash segments ++ '/' :: joinSlash others := by
  induction segments with
  | nil => exact absurd rfl h
  | cons segment rest ih =>
    by_cases hrest : rest = []
    · rw [hrest, List.singleton_append, joinSlash_cons _ hothers, joinSlash_singleton]
    · rw [List.cons_append, joinSlash_cons _ (List.append_ne_nil_of_left_ne_nil hrest _),
        joinSlash_cons _ hrest, ih hrest]
      simp

lemma length_joinSlash {segments : List (List Char)} (h : segments ≠ []) :
    (joinSlash segments).length + 1 = weight segments := by
  induction segments with
  | nil => exact absurd rfl h
  | cons segment rest ih =>
    by_cases hrest : rest = []
    · simp [hrest]
    · have := ih hrest
      rw [joinSlash_cons _ hrest, weight_cons, List.length_append, List.length_cons]
      omega

lemma joinSlash_splitOn (path : List Char) : joinSlash (path.splitOn '/') = path :=
  List.intercalate_splitOn '/'

lemma weight_splitOn (path : List Char) : weight (path.splitOn '/') = path.length + 1 := by
  have h := length_joinSlash (List.splitOn_ne_nil '/' path)
  rw [joinSlash_splitOn] at h
  exact h.symm

/-! ## Dropping empty segments -/

lemma weight_filter_le (p : List Char → Bool) (segments : List (List Char)) :
    weight (segments.filter p) ≤ weight segments := by
  induction segments with
  | nil => simp
  | cons segment rest ih =>
    by_cases h : p segment = true
    · simp [List.filter_cons_of_pos h, ih]
    · rw [List.filter_cons_of_neg h, weight_cons]
      omega

/-- Dropping segments loses weight unless none is dropped. -/
lemma filter_eq_of_weight {p : List Char → Bool} {segments : List (List Char)}
    (h : weight segments ≤ weight (segments.filter p)) : segments.filter p = segments := by
  induction segments with
  | nil => rfl
  | cons segment rest ih =>
    by_cases hp : p segment = true
    · rw [List.filter_cons_of_pos hp] at h ⊢
      rw [ih (by simpa using h)]
    · have hle := weight_filter_le p rest
      rw [List.filter_cons_of_neg hp, weight_cons] at h
      omega

lemma eq_dropLast_append (segments : List (List Char)) :
    segments = segments.dropLast ++ segments.getLast?.toList := by
  rcases List.eq_nil_or_concat segments with rfl | ⟨rest, last, rfl⟩
  · rfl
  · simp

lemma weight_dropInnerEmpty_le (segments : List (List Char)) :
    weight (dropInnerEmpty segments) ≤ weight segments := by
  cases segments with
  | nil => simp [dropInnerEmpty]
  | cons first rest =>
    have hrest := congrArg weight (eq_dropLast_append rest)
    have hle := weight_filter_le (· ≠ []) rest.dropLast
    rw [weight_append] at hrest
    simp only [dropInnerEmpty, weight_cons, weight_append]
    omega

/-- Segments that lose no weight have no empty segment among them. -/
lemma dropInnerEmpty_eq_of_weight {segments : List (List Char)}
    (h : weight segments ≤ weight (dropInnerEmpty segments)) : dropInnerEmpty segments = segments := by
  cases segments with
  | nil => rfl
  | cons first rest =>
    have hrest := congrArg weight (eq_dropLast_append rest)
    rw [weight_append] at hrest
    simp only [dropInnerEmpty, weight_cons, weight_append] at h ⊢
    have hfilter : rest.dropLast.filter (· ≠ []) = rest.dropLast :=
      filter_eq_of_weight (by omega)
    rw [hfilter, ← eq_dropLast_append]

/-! ## Resolving dots -/

/-- Segments without dots are pushed as they are. -/
lemma foldl_pushSegment_of_noDots {segments : List (List Char)}
    (h : ∀ s ∈ segments, isDots s = false) (resolved : List (List Char)) :
    segments.foldl pushSegment resolved = resolved ++ segments := by
  induction segments generalizing resolved with
  | nil => simp
  | cons segment rest ih =>
    have hsegment : segment ≠ ['.', '.'] ∧ segment ≠ ['.'] := by
      have hdots := h segment List.mem_cons_self
      constructor
      · rintro rfl
        exact absurd hdots (by decide)
      · rintro rfl
        exact absurd hdots (by decide)
    rw [List.foldl_cons, pushSegment, if_neg hsegment.1, if_neg hsegment.2,
      ih fun s hs => h s (List.mem_cons_of_mem _ hs)]
    simp

lemma resolveDots_of_noDots {segments : List (List Char)} (h : ∀ s ∈ segments, isDots s = false) :
    resolveDots segments = segments := by
  have hlast : segments.getLast?.any isDots = false := by
    cases hlast : segments.getLast? with
    | none => rfl
    | some last => exact h last (List.mem_of_getLast? hlast)
  rw [resolveDots, foldl_pushSegment_of_noDots h, hlast]
  simp

lemma weight_dropLast_le (segments : List (List Char)) :
    weight segments.dropLast ≤ weight segments := by
  have h := congrArg weight (eq_dropLast_append segments)
  rw [weight_append] at h
  omega

/-- Resolving dots loses at least the weight of the dots. -/
lemma weight_foldl_pushSegment (segments resolved : List (List Char)) :
    weight (segments.foldl pushSegment resolved) + weight (segments.filter isDots) ≤
      weight resolved + weight segments := by
  induction segments generalizing resolved with
  | nil => simp
  | cons segment rest ih =>
    have hrest := ih (pushSegment resolved segment)
    rw [List.foldl_cons, weight_cons]
    by_cases htwo : segment = ['.', '.']
    · have hle := weight_dropLast_le resolved
      rw [pushSegment, if_pos htwo] at hrest ⊢
      rw [List.filter_cons_of_pos (by rw [htwo]; rfl), weight_cons]
      omega
    · by_cases hone : segment = ['.']
      · rw [pushSegment, if_neg htwo, if_pos hone] at hrest ⊢
        rw [List.filter_cons_of_pos (by rw [hone]; rfl), weight_cons]
        omega
      · have hdots : isDots segment = false := by simp [isDots, htwo, hone]
        rw [pushSegment, if_neg htwo, if_neg hone] at hrest ⊢
        rw [List.filter_cons_of_neg (by simp [hdots])]
        simp only [weight_append, weight_cons, weight_nil] at hrest
        omega

lemma length_lt_weight {segments : List (List Char)} {segment : List Char}
    (h : segment ∈ segments) : segment.length + 1 ≤ weight segments := by
  induction segments with
  | nil => cases h
  | cons first rest ih =>
    rw [weight_cons]
    rcases List.mem_cons.1 h with rfl | h
    · omega
    · have := ih h
      omega

/-- Resolving dots loses weight if there are any, and more if the folder above is among them. -/
lemma weight_resolveDots_le {segments : List (List Char)} {segment : List Char}
    (hmem : segment ∈ segments) (hdots : isDots segment = true) :
    weight (resolveDots segments) + segment.length ≤ weight segments := by
  have hfold := weight_foldl_pushSegment segments []
  have hle := length_lt_weight (List.mem_filter.2 ⟨hmem, hdots⟩)
  have hend : weight (if segments.getLast?.any isDots then [[]] else []) ≤ 1 := by
    split_ifs <;> simp
  rw [resolveDots, weight_append]
  rw [weight_nil] at hfold
  omega

/-- The first segment stays unless the folder above is asked for. -/
lemma head?_foldl_pushSegment {segments resolved : List (List Char)} {first : List Char}
    (h : ['.', '.'] ∉ segments) (hfirst : resolved.head? = some first) :
    (segments.foldl pushSegment resolved).head? = some first := by
  induction segments generalizing resolved with
  | nil => exact hfirst
  | cons segment rest ih =>
    obtain ⟨hsegment, hrest⟩ : segment ≠ ['.', '.'] ∧ ['.', '.'] ∉ rest := by
      simpa [eq_comm] using h
    rw [List.foldl_cons]
    refine ih hrest ?_
    rw [pushSegment, if_neg hsegment]
    split_ifs
    · exact hfirst
    · rw [List.head?_append, hfirst]
      rfl

/-! ## Paths -/

/-- The path of resolved segments. -/
def resolvedPath (segments : List (List Char)) : List Char :=
  if joinSlash (resolveDots segments) = [] then ['/'] else joinSlash (resolveDots segments)

lemma joinPath_eq {path : List Char} (h : path.head? ≠ some '/') (base : List Char) :
    joinPath base path =
      resolvedPath (dropInnerEmpty (baseSegments base ++ path.splitOn '/')) := by
  simp only [joinPath, if_neg h]
  rfl

lemma head?_joinSlash {rest : List (List Char)} (h : rest ≠ []) :
    (joinSlash ([] :: rest)).head? = some '/' := by
  rw [joinSlash_cons [] h]
  rfl

/-- Segments that start at the root and have more than that are no longer when they are resolved,
and shorter if there are dots. -/
lemma length_resolvedPath {rest : List (List Char)} (h : rest ≠ []) :
    (rooted (resolvedPath ([] :: rest))).length + 1 ≤ weight ([] :: rest) ∧
      ((∃ s ∈ rest, isDots s = true) →
        (rooted (resolvedPath ([] :: rest))).length + 1 < weight ([] :: rest)) := by
  by_cases hdots : ∃ s ∈ rest, isDots s = true
  · suffices hlt : (rooted (resolvedPath ([] :: rest))).length + 1 < weight ([] :: rest) from
      ⟨hlt.le, fun _ => hlt⟩
    -- a segment of two dots takes the one before it along, and may take even the root
    by_cases habove : ['.', '.'] ∈ ([] :: rest : List (List Char))
    · have hle := weight_resolveDots_le habove (by decide)
      have hroom := length_lt_weight habove
      have hlength := length_rooted_le (resolvedPath ([] :: rest))
      simp only [List.length_cons, List.length_nil] at hle hroom
      unfold resolvedPath at hlength ⊢
      split_ifs at hlength ⊢ with hempty
      · rw [rooted_of_head rfl, List.length_singleton]
        omega
      · have hne : resolveDots ([] :: rest) ≠ [] := by
          intro hnil
          rw [hnil] at hempty
          exact hempty rfl
        have := length_joinSlash hne
        omega
    -- with single dots only, the root stays and each of them is lost with its slash
    · obtain ⟨s, hs, hsdots⟩ := hdots
      have hle := weight_resolveDots_le (List.mem_cons_of_mem [] hs) hsdots
      have hroom : s.length + 2 ≤ weight ([] :: rest) := by
        have := length_lt_weight hs
        rw [weight_cons, List.length_nil]
        omega
      have hpos : 1 ≤ s.length := by
        cases s with
        | nil => cases hsdots
        | cons c more => simp
      have hhead : (resolveDots ([] :: rest)).head? = some [] := by
        have hfold : (rest.foldl pushSegment [[]]).head? = some [] :=
          head?_foldl_pushSegment (fun hmem => habove (List.mem_cons_of_mem _ hmem)) rfl
        rw [resolveDots, List.foldl_cons, List.head?_append]
        exact congrArg (fun o => Option.or o _) hfold
      obtain ⟨more, hmore⟩ : ∃ more, resolveDots ([] :: rest) = [] :: more := by
        cases hresolved : resolveDots ([] :: rest) with
        | nil => simp [hresolved] at hhead
        | cons first more => exact ⟨more, by simpa [hresolved] using hhead⟩
      have hlength : (joinSlash ([] :: more)).length + 1 = weight ([] :: more) :=
        length_joinSlash (by simp)
      rw [hmore] at hle
      unfold resolvedPath
      rw [hmore]
      split_ifs with hempty
      · rw [rooted_of_head rfl, List.length_singleton]
        omega
      · have hmoreNe : more ≠ [] := by
          rintro rfl
          exact hempty rfl
        rw [rooted_of_head (head?_joinSlash hmoreNe)]
        omega
  -- nothing is resolved, so the path is written back as it is
  · refine ⟨?_, fun hex => absurd hex hdots⟩
    have hnone : ∀ s ∈ ([] :: rest : List (List Char)), isDots s = false := by
      intro s hs
      rcases List.mem_cons.1 hs with rfl | hs
      · rfl
      · by_contra hsdots
        exact hdots ⟨s, hs, by simpa using hsdots⟩
    have hhead := head?_joinSlash h
    have hne : joinSlash ([] :: rest) ≠ [] := by
      intro hnil
      rw [hnil] at hhead
      cases hhead
    rw [resolvedPath, resolveDots_of_noDots hnone, if_neg hne, rooted_of_head hhead]
    exact (length_joinSlash (by simp)).le

/-- Nothing is dropped from a path and nothing resolved when it is joined: it has no empty segment
but perhaps the first and the last, and no dots. -/
structure IsNormal (path : List Char) : Prop where
  noEmpty : dropInnerEmpty (path.splitOn '/') = path.splitOn '/'
  noDots : ∀ segment ∈ path.splitOn '/', isDots segment = false

lemma dropInnerEmpty_cons {first : List Char} {rest : List (List Char)} (h : rest ≠ []) :
    ∃ more, more ≠ [] ∧ dropInnerEmpty (first :: rest) = first :: more := by
  refine ⟨rest.dropLast.filter (· ≠ []) ++ rest.getLast?.toList, ?_, rfl⟩
  rw [List.getLast?_eq_some_getLast h]
  simp

/-- The segments of a base that is a path at the root start at the root. -/
lemma baseSegments_rooted {base : List Char} (h : base = [] ∨ base.head? = some '/') :
    ∃ rest, baseSegments base = [] :: rest ∧ weight rest ≤ base.length := by
  rcases h with rfl | h
  · exact ⟨[], by simp [baseSegments], by simp⟩
  · obtain ⟨tail, rfl⟩ : ∃ tail, base = '/' :: tail := by
      cases base with
      | nil => cases h
      | cons c tail => exact ⟨tail, by simpa using h⟩
    have hsplit : ('/' :: tail).splitOn '/' = [] :: tail.splitOn '/' := by
      simpa using List.splitOn_append_cons_self (a := '/') [] tail
    have hne := List.splitOn_ne_nil '/' tail
    have hweight := weight_splitOn tail
    rw [baseSegments, hsplit]
    split_ifs
    · exact ⟨tail.splitOn '/', rfl, by simp [hweight]⟩
    · refine ⟨(tail.splitOn '/').dropLast, List.dropLast_cons_of_ne_nil hne, ?_⟩
      have := weight_dropLast_le (tail.splitOn '/')
      rw [List.length_cons]
      omega

/-- Joining makes a path at most one slash longer than both paths. -/
lemma length_joinPath_le {base path : List Char} (hbase : base = [] ∨ base.head? = some '/')
    (hpath : path.head? ≠ some '/') :
    (rooted (joinPath base path)).length ≤ base.length + path.length + 1 := by
  obtain ⟨rest, hrest, hweight⟩ := baseSegments_rooted hbase
  have hne : rest ++ path.splitOn '/' ≠ [] :=
    List.append_ne_nil_of_right_ne_nil _ (List.splitOn_ne_nil '/' path)
  obtain ⟨more, hmore, hdrop⟩ := @dropInnerEmpty_cons [] _ hne
  have hlength := (length_resolvedPath hmore).1
  have hle := weight_dropInnerEmpty_le ([] :: (rest ++ path.splitOn '/'))
  rw [hdrop] at hle
  rw [joinPath_eq hpath, hrest, List.cons_append, hdrop]
  rw [weight_cons [] (rest ++ _), weight_append, weight_splitOn, List.length_nil] at hle
  omega

/-- A slash at the end of a base is not a segment of its own. -/
lemma dropInnerEmpty_slash {first : List Char} {rest segments : List (List Char)}
    (h : segments ≠ []) :
    dropInnerEmpty (first :: rest ++ [[]] ++ segments) = dropInnerEmpty (first :: rest ++ segments) := by
  have hdrop : ∀ front : List (List Char), (front ++ segments).dropLast = front ++ segments.dropLast :=
    fun front => List.dropLast_append_of_ne_nil h
  have hlast : ∀ front : List (List Char), (front ++ segments).getLast? = segments.getLast? := by
    intro front
    rw [List.getLast?_append, List.getLast?_eq_some_getLast h]
    rfl
  simp only [List.cons_append, dropInnerEmpty, hdrop, hlast, List.filter_append]
  simp

lemma splitOn_slash (folder path : List Char) :
    (folder ++ '/' :: path).splitOn '/' = folder.splitOn '/' ++ path.splitOn '/' :=
  List.splitOn_append_cons_self folder path

lemma segments_of_folder (folder path : List Char) :
    dropInnerEmpty (baseSegments (folder ++ ['/']) ++ path.splitOn '/') =
      dropInnerEmpty ((folder ++ '/' :: path).splitOn '/') := by
  have hbase : baseSegments (folder ++ ['/']) = folder.splitOn '/' ++ [[]] := by
    rw [baseSegments, splitOn_slash, List.splitOn_nil]
    simp
  obtain ⟨first, rest, hfirst⟩ := List.exists_cons_of_ne_nil (List.splitOn_ne_nil '/' folder)
  rw [hbase, splitOn_slash, hfirst]
  exact dropInnerEmpty_slash (List.splitOn_ne_nil '/' path)

/-- Joining a path to a folder never gives more than the two one after the other, and gives that
exactly when nothing is to be dropped or resolved. -/
lemma joinPath_folder {folder path : List Char} (hfolder : folder = [] ∨ folder.head? = some '/')
    (hpath : path.head? ≠ some '/') :
    (rooted (joinPath (folder ++ ['/']) path)).length ≤ (folder ++ '/' :: path).length ∧
      ((rooted (joinPath (folder ++ ['/']) path)).length = (folder ++ '/' :: path).length →
        IsNormal (folder ++ '/' :: path)) ∧
      (IsNormal (folder ++ '/' :: path) →
        rooted (joinPath (folder ++ ['/']) path) = folder ++ '/' :: path) := by
  have hsegments := segments_of_folder folder path
  obtain ⟨rest, hrest, hne⟩ : ∃ rest, (folder ++ '/' :: path).splitOn '/' = [] :: rest ∧
      rest ≠ [] := by
    have hpathNe := List.splitOn_ne_nil '/' path
    rcases hfolder with rfl | hfolder
    · exact ⟨path.splitOn '/', by rw [splitOn_slash]; rfl, hpathNe⟩
    · obtain ⟨tail, rfl⟩ : ∃ tail, folder = '/' :: tail := by
        cases folder with
        | nil => cases hfolder
        | cons c tail => exact ⟨tail, by simpa using hfolder⟩
      refine ⟨tail.splitOn '/' ++ path.splitOn '/', ?_, by simp [hpathNe]⟩
      rw [splitOn_slash, show '/' :: tail = [] ++ '/' :: tail from rfl, splitOn_slash]
      rfl
  -- the weight of the segments falls with each that is dropped and each that is resolved
  obtain ⟨more, hmore, hdrop⟩ := @dropInnerEmpty_cons [] _ hne
  obtain ⟨hlength, hstrict⟩ := length_resolvedPath hmore
  have hweight := weight_splitOn (folder ++ '/' :: path)
  have hle := weight_dropInnerEmpty_le ([] :: rest)
  have hjoin : joinPath (folder ++ ['/']) path = resolvedPath ([] :: more) := by
    rw [joinPath_eq hpath, hsegments, hrest, hdrop]
  rw [hrest] at hweight
  rw [hdrop] at hle
  rw [hjoin]
  refine ⟨by omega, fun hequal => ?_, fun hnormal => ?_⟩
  -- if the length stays, the weight has stayed in both steps
  · have hkept : dropInnerEmpty ([] :: rest) = [] :: rest := by
      refine dropInnerEmpty_eq_of_weight ?_
      rw [hdrop]
      omega
    have hnone : ¬∃ s ∈ more, isDots s = true := by
      intro hdots
      have := hstrict hdots
      omega
    rw [hdrop] at hkept
    constructor
    · rw [hrest, hdrop, hkept]
    · intro s hs
      rw [hrest, ← hkept] at hs
      rcases List.mem_cons.1 hs with rfl | hs
      · rfl
      · by_contra hdots
        exact hnone ⟨s, hs, by simpa using hdots⟩
  · have hkept : [] :: more = (folder ++ '/' :: path).splitOn '/' := by
      rw [← hnormal.noEmpty, hrest, hdrop]
    have hjoined : joinSlash ([] :: more) = folder ++ '/' :: path := by
      rw [hkept, joinSlash_splitOn]
    have hhead := head?_joinSlash hmore
    have hnotNil : joinSlash ([] :: more) ≠ [] := by
      intro hnil
      rw [hnil] at hhead
      cases hhead
    have hresolved : resolveDots ([] :: more) = [] :: more := by
      rw [hkept]
      exact resolveDots_of_noDots hnormal.noDots
    rw [resolvedPath, hresolved, if_neg hnotNil, rooted_of_head hhead, hjoined]

/-! ## References without dots -/

lemma mem_foldl_pushSegment {segments resolved : List (List Char)} {segment : List Char}
    (h : segment ∈ segments.foldl pushSegment resolved) :
    segment ∈ resolved ∨ (segment ∈ segments ∧ isDots segment = false) := by
  induction segments generalizing resolved with
  | nil => exact .inl h
  | cons first rest ih =>
    rcases ih h with h | ⟨h, hdots⟩
    · unfold pushSegment at h
      split_ifs at h with htwo hone
      · exact .inl (List.dropLast_subset _ h)
      · exact .inl h
      · rcases List.mem_append.1 h with h | h
        · exact .inl h
        · obtain rfl : segment = first := by simpa using h
          exact .inr ⟨List.mem_cons_self, by simp [isDots, htwo, hone]⟩
    · exact .inr ⟨List.mem_cons_of_mem _ h, hdots⟩

lemma mem_resolveDots {segments : List (List Char)} {segment : List Char}
    (h : segment ∈ resolveDots segments) :
    isDots segment = false ∧ (segment = [] ∨ segment ∈ segments) := by
  rw [resolveDots] at h
  rcases List.mem_append.1 h with h | h
  · obtain ⟨hmem, hdots⟩ := (mem_foldl_pushSegment h).resolve_left (by simp)
    exact ⟨hdots, .inr hmem⟩
  · have hnil : segment = [] := by
      split_ifs at h
      · simpa using h
      · cases h
    exact ⟨by rw [hnil]; rfl, .inl hnil⟩

lemma splitOn_joinSlash {segments : List (List Char)} (h : ∀ s ∈ segments, '/' ∉ s)
    (hne : segments ≠ []) : (joinSlash segments).splitOn '/' = segments :=
  List.splitOn_intercalate '/' h hne

/-- The segments of a base that are pushed for a reference. -/
def pushedSegments (base : List Char) : List (List Char) :=
  ([] :: (baseSegments base).filter (· ≠ [])).foldl pushSegment []

/-- The segments that a base puts in front of a reference; the first one is the root. -/
def folderSegments (base : List Char) : List (List Char) :=
  if (pushedSegments base).head? = some [] then pushedSegments base else [] :: pushedSegments base

lemma notMem_of_mem_splitOn {path segment : List Char} (h : segment ∈ path.splitOn '/') :
    '/' ∉ segment := by
  induction path generalizing segment with
  | nil =>
    obtain rfl : segment = [] := by simpa using h
    simp
  | cons c rest ih =>
    obtain ⟨first, more, hmore⟩ := List.exists_cons_of_ne_nil (List.splitOn_ne_nil '/' rest)
    rw [List.splitOn_cons_eq_if_modifyHead] at h
    split_ifs at h with hslash
    · rcases List.mem_cons.1 h with rfl | h
      · simp
      · exact ih h
    · rw [hmore, List.modifyHead_cons] at h
      rcases List.mem_cons.1 h with rfl | h
      · have hfirst : '/' ∉ first := ih (by rw [hmore]; exact List.mem_cons_self)
        have hc : '/' ≠ c := by
          rintro rfl
          exact hslash rfl
        simp [hc, hfirst]
      · exact ih (by rw [hmore]; exact List.mem_cons_of_mem _ h)

lemma head?_splitOn {path : List Char} (hne : path ≠ []) :
    (path.splitOn '/').head? = some [] ↔ path.head? = some '/' := by
  obtain ⟨c, rest, rfl⟩ := List.exists_cons_of_ne_nil hne
  obtain ⟨first, more, hmore⟩ := List.exists_cons_of_ne_nil (List.splitOn_ne_nil '/' rest)
  rw [List.splitOn_cons_eq_if_modifyHead, hmore]
  by_cases hslash : c = '/'
  · simp [hslash]
  · simp [hslash]

lemma splitOn_cons_slash (path : List Char) : ('/' :: path).splitOn '/' = [] :: path.splitOn '/' := by
  rw [List.splitOn_cons_eq_if_modifyHead, if_pos (by simp)]

lemma notMem_of_mem_baseSegments {base segment : List Char} (h : segment ∈ baseSegments base) :
    '/' ∉ segment := by
  unfold baseSegments at h
  simp only at h
  split_ifs at h
  · exact notMem_of_mem_splitOn h
  · exact notMem_of_mem_splitOn (List.dropLast_subset _ h)

lemma notMem_of_mem_pushedSegments {base segment : List Char} (h : segment ∈ pushedSegments base) :
    '/' ∉ segment := by
  obtain ⟨hmem, -⟩ := (mem_foldl_pushSegment h).resolve_left (by simp)
  rcases List.mem_cons.1 hmem with rfl | hmem
  · simp
  · exact notMem_of_mem_baseSegments (List.mem_of_mem_filter hmem)

/-- A reference without dots and empty segments is resolved to itself, after the segments of its
base. -/
lemma resolveDots_plain {base path : List Char} (hbase : base = [] ∨ base.head? = some '/')
    (hpath : ∀ s ∈ path.splitOn '/', s ≠ [] ∧ isDots s = false) :
    resolveDots (dropInnerEmpty (baseSegments base ++ path.splitOn '/')) =
      pushedSegments base ++ path.splitOn '/' := by
  obtain ⟨rest, hrest, -⟩ := baseSegments_rooted hbase
  have hne := List.splitOn_ne_nil '/' path
  have hkept : (path.splitOn '/').dropLast.filter (· ≠ []) = (path.splitOn '/').dropLast := by
    refine List.filter_eq_self.2 fun s hs => ?_
    simpa using (hpath s (List.dropLast_subset _ hs)).1
  have hdrop : dropInnerEmpty (baseSegments base ++ path.splitOn '/') =
      ([] :: (baseSegments base).filter (· ≠ [])) ++ path.splitOn '/' := by
    rw [hrest, List.cons_append, dropInnerEmpty, List.dropLast_append_of_ne_nil hne,
      List.filter_append, hkept, List.getLast?_append, List.getLast?_eq_some_getLast hne]
    simp [List.dropLast_append_getLast hne]
  have hlast : (([] :: (baseSegments base).filter (· ≠ [])) ++
      path.splitOn '/').getLast?.any isDots = false := by
    rw [List.getLast?_append, List.getLast?_eq_some_getLast hne]
    exact (hpath _ (List.getLast_mem hne)).2
  rw [hdrop, resolveDots, hlast, List.foldl_append,
    foldl_pushSegment_of_noDots fun s hs => (hpath s hs).2]
  simp [pushedSegments]

/-- A reference without dots and empty segments is put after the segments of its base. -/
lemma segments_joinPath {base path : List Char} (hbase : base = [] ∨ base.head? = some '/')
    (hpath : ∀ s ∈ path.splitOn '/', s ≠ [] ∧ isDots s = false) :
    (rooted (joinPath base path)).splitOn '/' = folderSegments base ++ path.splitOn '/' := by
  have hne := List.splitOn_ne_nil '/' path
  have hnotMem : ∀ s ∈ pushedSegments base ++ path.splitOn '/', '/' ∉ s := by
    intro s hs
    rcases List.mem_append.1 hs with hs | hs
    · exact notMem_of_mem_pushedSegments hs
    · exact notMem_of_mem_splitOn hs
  have hhead : (path.splitOn '/').head? ≠ some [] :=
    fun h => (hpath _ (List.mem_of_mem_head? h)).1 rfl
  have hpathHead : path.head? ≠ some '/' := by
    intro h
    refine hhead ((head?_splitOn ?_).2 h)
    rintro rfl
    cases h
  have hsplit := splitOn_joinSlash hnotMem (List.append_ne_nil_of_right_ne_nil _ hne)
  set joined := joinSlash (pushedSegments base ++ path.splitOn '/') with hjoined
  have hjoinedNe : joined ≠ [] := by
    intro hnil
    rw [hnil] at hsplit
    have hlast := List.mem_append_right (pushedSegments base) (List.getLast_mem hne)
    rw [← hsplit] at hlast
    exact (hpath _ (List.getLast_mem hne)).1 (by simpa using hlast)
  have hfirst := head?_splitOn hjoinedNe
  rw [hsplit] at hfirst
  rw [joinPath_eq hpathHead, resolvedPath, resolveDots_plain hbase hpath, ← hjoined,
    if_neg hjoinedNe]
  by_cases hslash : joined.head? = some '/'
  · have hpushed : (pushedSegments base).head? = some [] := by
      have h := hfirst.2 hslash
      cases hempty : pushedSegments base with
      | nil => exact absurd (by simpa [hempty] using h) hhead
      | cons first rest => simpa [hempty] using h
    rw [rooted_of_head hslash, hsplit, folderSegments, if_pos hpushed]
  · have hpushed : (pushedSegments base).head? ≠ some [] := by
      intro h
      refine hslash (hfirst.1 ?_)
      rw [List.head?_append, h]
      rfl
    rw [rooted, if_pos ⟨hjoinedNe, hslash⟩, splitOn_cons_slash, hsplit, folderSegments,
      if_neg hpushed, List.cons_append]

lemma mem_splitOn_rooted {path segment : List Char} (h : segment ∈ (rooted path).splitOn '/') :
    segment = [] ∨ segment ∈ path.splitOn '/' := by
  unfold rooted at h
  split_ifs at h
  · rw [splitOn_cons_slash] at h
    exact List.mem_cons.1 h
  · exact .inr h

lemma mem_dropInnerEmpty {segments : List (List Char)} {segment : List Char}
    (h : segment ∈ dropInnerEmpty segments) : segment ∈ segments := by
  cases segments with
  | nil => cases h
  | cons first rest =>
    rcases List.mem_cons.1 h with rfl | h
    · exact List.mem_cons_self
    · refine List.mem_cons_of_mem _ ?_
      rcases List.mem_append.1 h with h | h
      · exact List.dropLast_subset _ (List.mem_of_mem_filter h)
      · exact List.mem_of_getLast? (by simpa using h)

/-- No segment of a joined path is a dot. -/
lemma isDots_of_mem_joinPath {base path segment : List Char} (hpath : path.head? ≠ some '/')
    (h : segment ∈ (rooted (joinPath base path)).splitOn '/') : isDots segment = false := by
  rw [joinPath_eq hpath] at h
  rcases mem_splitOn_rooted h with rfl | h
  · rfl
  set resolved := resolveDots (dropInnerEmpty (baseSegments base ++ path.splitOn '/')) with hresolved
  have hroot : segment ∈ (['/'] : List Char).splitOn '/' → isDots segment = false := by
    intro h
    obtain rfl : segment = [] := by simpa [splitOn_cons_slash] using h
    rfl
  unfold resolvedPath at h
  rw [← hresolved] at h
  split_ifs at h with hempty
  · exact hroot h
  · have hne : resolved ≠ [] := by
      intro hnil
      rw [hnil] at hempty
      exact hempty rfl
    rw [splitOn_joinSlash ?_ hne] at h
    · exact (mem_resolveDots h).1
    · intro s hs
      rcases (mem_resolveDots hs).2 with rfl | hs
      · simp
      · rcases List.mem_append.1 (mem_dropInnerEmpty hs) with hs | hs
        · exact notMem_of_mem_baseSegments hs
        · exact notMem_of_mem_splitOn hs

/-! ## Joining -/

variable {around : Surroundings}

/-- The parts of a URL that a reference without a network location of its own is joined to. -/
def joinedParts (b r : Parts) : Parts :=
  let base := splitParams b.scheme b.path
  let reference := splitParams b.scheme r.path
  if reference.1 = [] ∧ reference.2 = [] then
    { b with
      path := withParams base.1 base.2
      query := if r.query = [] then b.query else r.query
      fragment := r.fragment }
  else
    { b with
      path := withParams (joinPath base.1 reference.1) reference.2
      query := r.query
      fragment := r.fragment }

/-- Joining a reference without a network location of its own to a URL of HTTP. -/
lemma join_reference {base url : List Char} {b r : Parts} (hbase : split around [] base = .ok b)
    (hhttp : String.ofList b.scheme ∈ ["http", "https"]) (hne : base ≠ [] ∧ url ≠ [])
    (hreference : split around b.scheme url = .ok r) (hscheme : r.scheme = b.scheme)
    (hnetloc : r.netloc = []) : join around base url = .ok (unsplit (joinedParts b r)) := by
  have hcases : String.ofList b.scheme = "http" ∨ String.ofList b.scheme = "https" := by
    simpa using hhttp
  have hrelative : String.ofList b.scheme ∈ usesRelative := by
    rcases hcases with h | h <;> rw [h] <;> decide
  have huses : String.ofList b.scheme ∈ usesNetloc := by
    rcases hcases with h | h <;> rw [h] <;> decide
  rw [join, if_neg hne.1, if_neg hne.2, hbase]
  simp only [bind, Except.bind, hreference, hscheme, hnetloc]
  rw [if_neg (by simp [hrelative]), if_neg (by simp), if_pos huses, joinedParts]
  split_ifs <;> rfl

lemma mem_joinSlash {segments : List (List Char)} {c : Char} (h : c ∈ joinSlash segments) :
    c = '/' ∨ ∃ s ∈ segments, c ∈ s := by
  induction segments with
  | nil => cases h
  | cons first rest ih =>
    by_cases hrest : rest = []
    · rw [hrest, joinSlash_singleton] at h
      exact .inr ⟨first, List.mem_cons_self, h⟩
    · rw [joinSlash_cons _ hrest] at h
      rcases List.mem_append.1 h with h | h
      · exact .inr ⟨first, List.mem_cons_self, h⟩
      · rcases List.mem_cons.1 h with rfl | h
        · exact .inl rfl
        · rcases ih h with rfl | ⟨s, hs, h⟩
          · exact .inl rfl
          · exact .inr ⟨s, List.mem_cons_of_mem _ hs, h⟩

lemma mem_joinSlash_of_mem {segments : List (List Char)} {segment : List Char} {c : Char}
    (hsegment : segment ∈ segments) (h : c ∈ segment) : c ∈ joinSlash segments := by
  induction segments with
  | nil => cases hsegment
  | cons first rest ih =>
    by_cases hrest : rest = []
    · subst hrest
      obtain rfl : segment = first := by simpa using hsegment
      rwa [joinSlash_singleton]
    · rw [joinSlash_cons _ hrest]
      rcases List.mem_cons.1 hsegment with rfl | hsegment
      · exact List.mem_append_left _ h
      · exact List.mem_append_right _ (List.mem_cons_of_mem _ (ih hsegment))

lemma mem_of_mem_splitOn {path segment : List Char} {c : Char} (hsegment : segment ∈ path.splitOn '/')
    (h : c ∈ segment) : c ∈ path := by
  rw [← joinSlash_splitOn path]
  exact mem_joinSlash_of_mem hsegment h

lemma mem_of_mem_baseSegments {base segment : List Char} {c : Char}
    (hsegment : segment ∈ baseSegments base) (h : c ∈ segment) : c ∈ base := by
  unfold baseSegments at hsegment
  simp only at hsegment
  split_ifs at hsegment
  · exact mem_of_mem_splitOn hsegment h
  · exact mem_of_mem_splitOn (List.dropLast_subset _ hsegment) h

/-- Joining makes no characters but slashes. -/
lemma mem_joinPath {base path : List Char} {c : Char} (hpath : path.head? ≠ some '/')
    (h : c ∈ joinPath base path) : c = '/' ∨ c ∈ base ∨ c ∈ path := by
  rw [joinPath_eq hpath, resolvedPath] at h
  split_ifs at h
  · exact .inl (by simpa using h)
  · rcases mem_joinSlash h with rfl | ⟨s, hs, hc⟩
    · exact .inl rfl
    · rcases (mem_resolveDots hs).2 with rfl | hs
      · cases hc
      · rcases List.mem_append.1 (mem_dropInnerEmpty hs) with hs | hs
        · exact .inr (.inl (mem_of_mem_baseSegments hs hc))
        · exact .inr (.inr (mem_of_mem_splitOn hs hc))

lemma mem_splitParams {scheme path : List Char} {c : Char} (h : c ∈ (splitParams scheme path).1) :
    c ∈ path := by
  unfold splitParams at h
  split_ifs at h
  · rcases List.mem_append.1 h with h | h
    · exact (List.rdropWhile_prefix _ _).subset h
    · exact (List.rtakeWhile_suffix _ _).subset (mem_of_mem_cut_fst h)
  · exact h

lemma splitParams_of_notMem {path : List Char} (h : ';' ∉ path) (scheme : List Char) :
    splitParams scheme path = (path, []) := by
  simp [splitParams, h]

/-- A path at the root is one without its parameters too. -/
lemma rooted_splitParams {path : List Char} (h : path = [] ∨ path.head? = some '/')
    (scheme : List Char) :
    (splitParams scheme path).1 = [] ∨ (splitParams scheme path).1.head? = some '/' := by
  unfold splitParams
  split_ifs with hparams
  · obtain ⟨tail, rfl⟩ : ∃ tail, path = '/' :: tail := by
      rcases h with rfl | h
      · exact absurd hparams.2 (by simp)
      · exact List.head?_eq_some_iff.1 h
    right
    have hfolder : (('/' :: tail).rdropWhile (· ≠ '/')).head? = some '/' := by
      obtain ⟨more, hmore⟩ := List.rdropWhile_prefix (fun c => decide (c ≠ '/')) ('/' :: tail)
      cases hdrop : ('/' :: tail).rdropWhile (· ≠ '/') with
      | nil =>
        have hall := List.rdropWhile_eq_nil_iff.1 hdrop '/' List.mem_cons_self
        simp at hall
      | cons first front =>
        rw [hdrop, List.cons_append] at hmore
        rw [List.head?_cons, (List.cons.inj hmore).1]
    rw [List.head?_append, hfolder]
    rfl
  · exact h

/-- The signs that a reference is cut at. -/
def isSign (c : Char) : Bool := c ∈ ['?', '#', ';', ':']

/-- A path without control characters and signs, and with a query, is joined to a URL of HTTP as a
path. -/
lemma split_join_plain {base : List Char} {b : Parts} (hbase : split around [] base = .ok b)
    (hhttp : String.ofList b.scheme ∈ ["http", "https"]) (hnetloc : b.netloc ≠ [])
    {path query : List Char} (hpath : ∀ c ∈ path, 32 < c.toNat ∧ isSign c = false)
    (hquery : ∀ c ∈ query, 32 < c.toNat ∧ isSign c = false) (hne : path ≠ [])
    (hhead : path.head? ≠ some '/') :
    ∃ url, join around base (writeRest path query []) = .ok url ∧
      split around [] url = .ok
        { b with
          path := rooted (joinPath (splitParams b.scheme b.path).1 path)
          query
          fragment := [] } := by
  have hscheme : b.scheme ≠ [] := by
    intro hnil
    rw [hnil] at hhttp
    exact absurd hhttp (by decide)
  have hpathSigns : '?' ∉ path ∧ '#' ∉ path ∧ ';' ∉ path ∧ ':' ∉ path := by
    refine ⟨?_, ?_, ?_, ?_⟩ <;> exact fun hmem => absurd (hpath _ hmem).2 (by decide)
  have hquerySigns : '#' ∉ query ∧ ':' ∉ query := by
    constructor <;> exact fun hmem => absurd (hquery _ hmem).2 (by decide)
  -- the reference is split into what it was written from: no character of it is a sign
  set reference := writeRest path query [] with hreference
  have hclean : clean reference = reference := by
    refine clean_of_lt fun c hc => ?_
    rcases mem_writeRest hc with hc | rfl | hc
    · exact (hpath c hc).1
    · decide
    · exact (hquery c hc).1
  have hreferenceHead : reference.head? = path.head? := by
    rw [hreference, writeRest, List.append_assoc, List.head?_append]
    cases path with
    | nil => exact absurd rfl hne
    | cons c rest => rfl
  have hnoScheme : splitScheme b.scheme reference = (b.scheme, reference) := by
    refine if_neg fun hcolon => ?_
    rcases mem_writeRest hcolon.1 with hmem | hmem | hmem
    · exact hpathSigns.2.2.2 hmem
    · exact absurd hmem (by decide)
    · exact hquerySigns.2 hmem
  have hslashes : reference.take 2 ≠ ['/', '/'] := by
    intro htake
    refine hhead ?_
    have hfirst := congrArg List.head? htake
    rw [List.head?_take, if_neg (by decide), hreferenceHead] at hfirst
    exact hfirst
  have hsplit : split around b.scheme reference = .ok ⟨b.scheme, [], path, query, []⟩ := by
    rw [split_reference hclean hnoScheme hslashes,
      readRest_writeRest ⟨hpathSigns.1, hpathSigns.2.1⟩ hquerySigns.1]
  have hreferenceNe : reference ≠ [] := by
    intro hnil
    rw [hnil] at hreferenceHead
    exact hne (List.head?_eq_none_iff.1 hreferenceHead.symm)
  have hbaseNe : base ≠ [] := by
    rintro rfl
    rw [split_eq_ok_iff] at hbase
    exact hscheme (congrArg Parts.scheme hbase.2)
  refine ⟨_, join_reference hbase hhttp ⟨hbaseNe, hreferenceNe⟩ hsplit rfl rfl, ?_⟩
  -- a path without a semicolon has no parameters that could be put elsewhere
  have hjoined : joinedParts b ⟨b.scheme, [], path, query, []⟩ =
      { b with
        path := joinPath (splitParams b.scheme b.path).1 path
        query
        fragment := [] } := by
    simp [joinedParts, splitParams_of_notMem hpathSigns.2.2.1, hne, withParams]
  rw [hjoined]
  obtain ⟨-, hbasePath⟩ := path_of_split hbase hscheme hnetloc
  refine split_unsplit hbase hscheme hnetloc ?_ ?_ []
  · intro c hc
    rcases mem_joinPath hhead hc with rfl | hc | hc
    · exact ⟨by decide, by decide, by decide⟩
    · exact hbasePath c (mem_splitParams hc)
    · refine ⟨?_, ?_, isBreak_of_lt (hpath c hc).1⟩
      · rintro rfl
        exact hpathSigns.1 hc
      · rintro rfl
        exact hpathSigns.2.1 hc
  · intro c hc
    refine ⟨?_, isBreak_of_lt (hquery c hc).1⟩
    rintro rfl
    exact hquerySigns.1 hc

end Url
