import OpencodeSession.Framework.UrlJoin

/-!
# When joining is appending

A reference that is joined to a base is not always written after it: joining takes a scheme off the
reference, drops empty segments and resolves dots, and writes the base from its parts.  All of this
makes the URL shorter, so the URL is the base followed by the reference only if nothing of it
happens (`join_eq_append_iff`).
-/

namespace Url

variable {around : Surroundings} {base url : List Char} {b : Parts}

/-! ## Parameters -/

/-- A path is kept when its parameters are taken off and put on again. -/
def KeepsParams (scheme path : List Char) : Prop :=
  withParams (splitParams scheme path).1 (splitParams scheme path).2 = path

/-- The length of parameters with their sign. -/
def paramsLength (params : List Char) : Nat := (withParams [] params).length

lemma length_withParams (path params : List Char) :
    (withParams path params).length = path.length + paramsLength params := by
  unfold paramsLength withParams
  split_ifs <;> simp

lemma withParams_eq (path params : List Char) :
    withParams path params = path ++ withParams [] params := by
  unfold withParams
  split_ifs <;> simp

/-- A path has no parameters, or they follow the first of its signs for them. -/
lemma splitParams_cases (scheme path : List Char) :
    splitParams scheme path = (path, []) ∨
      path = (splitParams scheme path).1 ++ ';' :: (splitParams scheme path).2 := by
  unfold splitParams
  split_ifs
  · set last := path.rtakeWhile (fun c => decide (c ≠ '/')) with hlast
    have hpath : path.rdropWhile (fun c => decide (c ≠ '/')) ++ last = path :=
      List.rdropWhile_append_rtakeWhile
    by_cases hmem : ';' ∈ last
    · right
      have hcut := eq_cut last hmem
      simp only [List.append_assoc]
      rw [← hcut, hpath]
    · left
      simp only [cut_of_notMem hmem, hpath]
  · exact .inl rfl

/-- A path gets shorter when its parameters are taken off and put on again, unless it is kept. -/
lemma keepsParams_or_shorter (scheme path : List Char) :
    KeepsParams scheme path ∨
      (splitParams scheme path).1.length + paramsLength (splitParams scheme path).2 < path.length := by
  rcases splitParams_cases scheme path with h | h
  · left
    rw [KeepsParams, h]
    rfl
  · by_cases hempty : (splitParams scheme path).2 = []
    · right
      have hlength := congrArg List.length h
      rw [hempty, List.length_append, List.length_singleton] at hlength
      simp only [hempty, paramsLength, withParams, ne_eq, not_true_eq_false, if_false,
        List.length_nil]
      omega
    · left
      rw [KeepsParams, withParams, if_pos hempty, ← h]

lemma splitParams_length_le (scheme path : List Char) :
    (splitParams scheme path).1.length + paramsLength (splitParams scheme path).2 ≤ path.length := by
  rcases keepsParams_or_shorter scheme path with h | h
  · have hlength := congrArg List.length h
    rw [length_withParams] at hlength
    exact hlength.le
  · exact h.le

/-- A folder has no parameters. -/
lemma splitParams_folder (scheme folder : List Char) :
    splitParams scheme (folder ++ ['/']) = (folder ++ ['/'], []) := by
  unfold splitParams
  split_ifs
  · have hlast : (folder ++ ['/']).rtakeWhile (fun c => decide (c ≠ '/')) = [] :=
      List.rtakeWhile_concat_neg _ _ _ (by simp)
    have hfolder : (folder ++ ['/']).rdropWhile (fun c => decide (c ≠ '/')) = folder ++ ['/'] :=
      List.rdropWhile_concat_neg _ _ _ (by simp)
    rw [hlast, hfolder, cut_of_notMem (by simp)]
    simp
  · rfl

/-! ## Writing and reading what follows a network location -/

lemma writeRest_eq (path query : List Char) :
    writeRest path query [] = path ++ writeRest [] query [] := by
  simp [writeRest]

lemma length_writeRest (path query : List Char) :
    (writeRest path query []).length = path.length + (writeRest [] query []).length := by
  rw [writeRest_eq, List.length_append]

lemma cut_append_left {sign : Char} {front : List Char} (h : sign ∉ front) (rest : List Char) :
    cut sign (front ++ rest) = (front ++ (cut sign rest).1, (cut sign rest).2) := by
  by_cases hmem : sign ∈ rest
  · have hrest := eq_cut rest hmem
    have hnot : sign ∉ front ++ (cut sign rest).1 := by
      rw [List.mem_append, not_or]
      exact ⟨h, notMem_cut_fst rest⟩
    rw [hrest, ← List.append_assoc, cut_append hnot, ← hrest]
  · rw [cut_of_notMem (by simp [h, hmem]), cut_of_notMem hmem]

lemma readRest_append {front : List Char} (h : '?' ∉ front ∧ '#' ∉ front)
    (scheme netloc rest : List Char) :
    readRest scheme netloc (front ++ rest) =
      { readRest scheme netloc rest with path := front ++ (readRest scheme netloc rest).path } := by
  rw [readRest, cut_append_left h.2]
  simp only [cut_append_left h.1, readRest]

lemma readRest_reference {rest : List Char} (h : (readRest [] [] rest).fragment = [])
    (scheme : List Char) :
    readRest scheme [] rest =
      ⟨scheme, [], (readRest [] [] rest).path, (readRest [] [] rest).query, []⟩ := by
  have hparts : readRest scheme [] rest = ⟨scheme, [], (readRest [] [] rest).path,
    (readRest [] [] rest).query, (readRest [] [] rest).fragment⟩ := rfl
  rw [hparts, h]

/-- What follows a network location is its path, or there are signs after the path. -/
lemma readRest_cases (rest : List Char) :
    rest = (readRest [] [] rest).path ∨
      ∃ sign more, rest = (readRest [] [] rest).path ++ sign :: more ∧ sign ≠ '/' := by
  by_cases hfragment : '#' ∈ rest
  · have hrest := eq_cut rest hfragment
    by_cases hquery : '?' ∈ (cut '#' rest).1
    · have hfront := eq_cut (cut '#' rest).1 hquery
      refine .inr ⟨'?', (cut '?' (cut '#' rest).1).2 ++ '#' :: (cut '#' rest).2, ?_, by decide⟩
      conv_lhs => rw [hrest, hfront]
      simp [readRest]
    · refine .inr ⟨'#', (cut '#' rest).2, ?_, by decide⟩
      conv_lhs => rw [hrest]
      simp [readRest, cut_of_notMem hquery]
  · by_cases hquery : '?' ∈ rest
    · refine .inr ⟨'?', (cut '?' rest).2, ?_, by decide⟩
      conv_lhs => rw [eq_cut rest hquery]
      simp [readRest, cut_of_notMem hfragment]
    · left
      simp [readRest, cut_of_notMem hfragment, cut_of_notMem hquery]

/-- The path and the query of what follows a network location are no longer than it. -/
lemma length_readRest_le (rest : List Char) :
    (readRest [] [] rest).path.length + (writeRest [] (readRest [] [] rest).query []).length ≤
      rest.length := by
  have hfront : (cut '#' rest).1.length ≤ rest.length := (List.takeWhile_sublist _).length_le
  refine le_trans ?_ hfront
  by_cases hquery : '?' ∈ (cut '#' rest).1
  · have hlength := congrArg List.length (eq_cut (cut '#' rest).1 hquery)
    rw [List.length_append, List.length_cons] at hlength
    have hsign : ∀ query, (writeRest [] query []).length ≤ query.length + 1 := by
      intro query
      by_cases hempty : query = [] <;> simp [writeRest, hempty]
    have := hsign (cut '?' (cut '#' rest).1).2
    simp only [readRest]
    omega
  · simp [readRest, cut_of_notMem hquery, writeRest]

lemma length_unsplit (hscheme : b.scheme ≠ []) (hnetloc : b.netloc ≠ []) (path query : List Char) :
    (unsplit { b with path, query, fragment := [] }).length =
      b.scheme.length + 3 + b.netloc.length + (rooted path).length +
        (writeRest [] query []).length := by
  rw [@unsplit_eq { b with path, query, fragment := [] } hscheme hnetloc, writeRest_eq]
  simp only [List.length_append, List.length_cons]
  omega

/-! ## The length of a joined path -/

lemma joinPath_ne_nil (base path : List Char) : joinPath base path ≠ [] := by
  have hend : ∀ joined : List Char, (if joined = [] then ['/'] else joined) ≠ [] := by
    intro joined
    split_ifs with hempty
    · exact List.cons_ne_nil _ _
    · exact hempty
  exact hend _

lemma rooted_withParams {path : List Char} (h : path ≠ []) (params : List Char) :
    rooted (withParams path params) = rooted path ++ withParams [] params := by
  rw [withParams_eq]
  obtain ⟨c, rest, rfl⟩ := List.exists_cons_of_ne_nil h
  by_cases hc : c = '/'
  · simp [rooted, hc]
  · simp [rooted, hc]

/-- A joined path is at most one slash longer than the base and the reference. -/
lemma length_rooted_joinPath_le {base path : List Char} (hbase : base = [] ∨ base.head? = some '/') :
    (rooted (joinPath base path)).length ≤ base.length + path.length + 1 := by
  by_cases hhead : path.head? = some '/'
  · obtain ⟨tail, rfl⟩ := List.head?_eq_some_iff.1 hhead
    have hlength := (length_resolvedPath (List.splitOn_ne_nil '/' tail)).1
    have hjoin : joinPath base ('/' :: tail) = resolvedPath ([] :: tail.splitOn '/') := by
      simp only [joinPath, hhead, if_true, splitOn_cons_slash]
      rfl
    rw [← splitOn_cons_slash, weight_splitOn] at hlength
    rw [hjoin, ← splitOn_cons_slash]
    omega
  · exact length_joinPath_le hbase hhead

/-! ## Bases that end in a slash -/

/-- A URL of HTTP that ends in a slash. -/
structure IsBase (around : Surroundings) (base : List Char) (b : Parts) : Prop where
  split : split around [] base = .ok b
  http : String.ofList b.scheme ∈ ["http", "https"]
  netloc : b.netloc ≠ []
  slash : base.getLast? = some '/'

lemma IsBase.scheme (h : IsBase around base b) : b.scheme ≠ [] := by
  intro hnil
  have hhttp := h.http
  rw [hnil] at hhttp
  exact absurd hhttp (by decide)

/-- What follows the network location of a base ends in a slash too. -/
lemma IsBase.written (h : IsBase around base b) :
    ∃ name rest, Written base name b.netloc (rest ++ ['/']) ∧ name.map lowerAscii = b.scheme ∧
      b = readRest b.scheme b.netloc (rest ++ ['/']) := by
  obtain ⟨name, rest, hwritten, hname, hparts, -⟩ := written_of_split h.split h.scheme h.netloc
  obtain ⟨core, hcore⟩ : ∃ core, base = core ++ ['/'] := List.getLast?_eq_some_iff.1 h.slash
  have hcolon : ':' ∈ base := by
    refine mem_of_mem_clean ?_
    rw [hwritten.spelled]
    simp
  have hcolonCore : ':' ∈ core := by
    rw [hcore] at hcolon
    simpa using hcolon
  have hclean : clean base = clean core ++ ['/'] := by
    rw [hcore, clean_append ⟨':', hcolonCore, by decide⟩ (by simp [isBreak])]
  have hlast : (clean base).getLast? = some '/' := by
    rw [hclean]
    simp
  cases rest using List.reverseRecOn with
  | nil =>
    obtain ⟨last, hnetlocLast⟩ : ∃ last, b.netloc.getLast? = some last :=
      ⟨_, List.getLast?_eq_some_getLast h.netloc⟩
    rw [hwritten.spelled] at hlast
    have hslash : last = '/' := by
      simpa [List.getLast?_append, List.getLast?_cons, hnetlocLast] using hlast
    have hin := hwritten.inNetloc last (List.mem_of_getLast? hnetlocLast)
    rw [hslash] at hin
    exact absurd hin (by decide)
  | append_singleton front c =>
    have hc : c = '/' := by
      have hassoc : clean base =
          (name ++ ':' :: '/' :: '/' :: (b.netloc ++ front)) ++ [c] := by
        rw [hwritten.spelled]
        simp
      rw [hassoc, List.getLast?_concat] at hlast
      exact Option.some.inj hlast
    rw [hc] at hwritten hparts
    exact ⟨name, front, hwritten, hname, hparts⟩

/-- The base without its path and what follows. -/
def authority (b : Parts) : List Char := b.scheme ++ ':' :: '/' :: '/' :: b.netloc

lemma length_authority (b : Parts) :
    (authority b).length = b.scheme.length + 3 + b.netloc.length := by
  simp only [authority, List.length_append, List.length_cons]
  omega

/-- The base is written as its parts are, and has nothing after its path. -/
def IsPlain (base : List Char) (b : Parts) : Prop := base = authority b ++ b.path

/-- A base is at least as long as what it is written as. -/
lemma IsBase.length_le (h : IsBase around base b) :
    (authority b).length + b.path.length + (writeRest [] b.query []).length ≤ base.length := by
  obtain ⟨name, rest, hwritten, hname, hparts⟩ := h.written
  have hscheme : b.scheme.length = name.length := by rw [← hname, List.length_map]
  have hclean := length_clean_le base
  have hread := length_readRest_le (rest ++ ['/'])
  have hpath : b.path = (readRest [] [] (rest ++ ['/'])).path :=
    (congrArg Parts.path hparts).trans rfl
  have hquery : b.query = (readRest [] [] (rest ++ ['/'])).query :=
    (congrArg Parts.query hparts).trans rfl
  rw [hwritten.spelled] at hclean
  rw [length_authority, hscheme, hpath, hquery]
  simp only [List.length_append, List.length_cons] at hclean hread ⊢
  omega

/-- A base that is not longer than its scheme, its network location and its path ends in its path,
which is a folder; any other base has two characters more, or ends in its path all the same. -/
lemma IsBase.path_cases (h : IsBase around base b) :
    (∃ folder, b.path = folder ++ ['/']) ∨
      (authority b).length + b.path.length + 2 ≤ base.length := by
  obtain ⟨name, rest, hwritten, hname, hparts⟩ := h.written
  have hpath : b.path = (readRest [] [] (rest ++ ['/'])).path :=
    (congrArg Parts.path hparts).trans rfl
  rcases readRest_cases (rest ++ ['/']) with hrest | ⟨sign, more, hrest, hsign⟩
  · left
    exact ⟨rest, hpath.trans hrest.symm⟩
  · right
    have hmore : more ≠ [] := by
      rintro rfl
      have hlast := congrArg List.getLast? hrest
      rw [List.getLast?_concat, List.getLast?_concat] at hlast
      exact hsign (Option.some.inj hlast).symm
    have hscheme : b.scheme.length = name.length := by rw [← hname, List.length_map]
    have hclean := length_clean_le base
    have hmorePos := List.length_pos_of_ne_nil hmore
    rw [hwritten.spelled, hrest] at hclean
    rw [length_authority, hscheme, hpath]
    simp only [List.length_append, List.length_cons] at hclean ⊢
    omega

lemma IsBase.rooted (h : IsBase around base b) : b.path = [] ∨ b.path.head? = some '/' :=
  (path_of_split h.split h.scheme h.netloc).1

/-- A path at the root is one when its parameters are taken off and put on again. -/
lemma rooted_kept {path : List Char} (h : path = [] ∨ path.head? = some '/')
    (scheme : List Char) :
    rooted (withParams (splitParams scheme path).1 (splitParams scheme path).2) =
      withParams (splitParams scheme path).1 (splitParams scheme path).2 := by
  rcases splitParams_cases scheme path with hnone | hparams
  · rw [hnone]
    rcases h with rfl | h
    · rfl
    · exact rooted_of_head h
  · refine rooted_of_head ?_
    rcases rooted_splitParams h scheme with hempty | hhead
    · rw [hempty, List.nil_append] at hparams
      rcases h with h | h
      · rw [hparams] at h
        cases h
      · rw [hparams] at h
        exact absurd (Option.some.inj h) (by decide)
    · rw [withParams_eq, List.head?_append, hhead]
      rfl

/-! ## When joining is appending -/

/-- When a reference that is joined to a base is written after it. -/
inductive Appends (base : List Char) (b : Parts) (reference : List Char) : Prop
  /-- The reference is only signs, and the base is written as its parts are, without a fragment. -/
  | signs (hpath : (readRest [] [] reference).path = [])
    (hquery : (readRest [] [] reference).query = [])
    (hbase : base = authority b ++ writeRest b.path b.query [])
    (hparams : KeepsParams b.scheme b.path)
  /-- The reference is a query. -/
  | query (hpath : (readRest [] [] reference).path = [])
    (hquery : (readRest [] [] reference).query ≠ []) (hplain : IsPlain base b)
  /-- The reference has a path, which is in normal form after that of the base. -/
  | path (hpath : (readRest [] [] reference).path ≠ [])
    (hscheme : (splitScheme [] reference).1 = []) (hplain : IsPlain base b)
    (hparams : KeepsParams b.scheme (readRest [] [] reference).path)
    (hnormal :
      IsNormal (b.path ++ (splitParams b.scheme (readRest [] [] reference).path).1))

lemma IsBase.unsplit_eq (h : IsBase around base b) (path query : List Char) :
    unsplit { b with path, query, fragment := [] } =
      authority b ++ (Url.rooted path ++ writeRest [] query []) := by
  rw [@Url.unsplit_eq { b with path, query, fragment := [] } h.scheme h.netloc, writeRest_eq,
    authority]
  simp

/-- The path of a base, with its parameters taken off and put on again. -/
def keptPath (b : Parts) : List Char :=
  withParams (splitParams b.scheme b.path).1 (splitParams b.scheme b.path).2

lemma length_keptPath_le (b : Parts) : (keptPath b).length ≤ b.path.length := by
  rw [keptPath, length_withParams]
  exact splitParams_length_le b.scheme b.path

lemma splitParams_path {folder : List Char} (h : b.path = folder ++ ['/']) :
    splitParams b.scheme b.path = (b.path, []) := by
  rw [h]
  exact splitParams_folder b.scheme folder

lemma keptPath_of_folder {folder : List Char} (h : b.path = folder ++ ['/']) :
    keptPath b = b.path := by
  rw [keptPath, splitParams_path h]
  rfl

lemma IsBase.folder_of_plain (h : IsBase around base b) (hplain : IsPlain base b) :
    ∃ folder, b.path = folder ++ ['/'] := by
  refine h.path_cases.resolve_right fun hlong => ?_
  have hlength := congrArg List.length hplain
  rw [List.length_append] at hlength
  omega

section Reference

variable {path query : List Char}

lemma IsBase.joined_of_empty (h : IsBase around base b)
    (hempty : (splitParams b.scheme path).1 = [] ∧ (splitParams b.scheme path).2 = []) :
    unsplit (joinedParts b ⟨b.scheme, [], path, query, []⟩) =
      authority b ++ (keptPath b ++ writeRest [] (if query = [] then b.query else query) []) := by
  simp only [joinedParts, if_pos hempty]
  rw [h.unsplit_eq, rooted_kept h.rooted, keptPath]

lemma IsBase.joined_of_path (h : IsBase around base b)
    (hne : ¬((splitParams b.scheme path).1 = [] ∧ (splitParams b.scheme path).2 = [])) :
    unsplit (joinedParts b ⟨b.scheme, [], path, query, []⟩) =
      authority b ++
        (Url.rooted (joinPath (splitParams b.scheme b.path).1 (splitParams b.scheme path).1) ++
          withParams [] (splitParams b.scheme path).2 ++ writeRest [] query []) := by
  simp only [joinedParts, if_neg hne]
  rw [h.unsplit_eq, rooted_withParams (joinPath_ne_nil _ _)]

/-- A URL is the base and a query only if the base is plain. -/
lemma IsBase.query_iff (h : IsBase around base b) :
    authority b ++ (keptPath b ++ writeRest [] query []) = base ++ writeRest [] query [] ↔
      IsPlain base b := by
  rw [← List.append_assoc, List.append_left_inj]
  constructor
  · intro hbase
    have hlength := congrArg List.length hbase
    have hkept := length_keptPath_le b
    rw [List.length_append] at hlength
    obtain ⟨folder, hfolder⟩ := h.path_cases.resolve_right (by omega)
    rw [keptPath_of_folder hfolder] at hbase
    exact hbase.symm
  · intro hplain
    obtain ⟨folder, hfolder⟩ := h.folder_of_plain hplain
    rw [keptPath_of_folder hfolder]
    exact hplain.symm

/-- A URL is the base again only if the base is written as its parts are. -/
lemma IsBase.signs_iff (h : IsBase around base b) :
    authority b ++ (keptPath b ++ writeRest [] b.query []) = base ↔
      base = authority b ++ writeRest b.path b.query [] ∧ KeepsParams b.scheme b.path := by
  constructor
  · intro hbase
    have hlength := congrArg List.length hbase
    have hle := h.length_le
    simp only [List.length_append] at hlength
    have hkept : KeepsParams b.scheme b.path := by
      refine (keepsParams_or_shorter b.scheme b.path).resolve_right fun hshorter => ?_
      have hkeptLength := length_withParams (splitParams b.scheme b.path).1
        (splitParams b.scheme b.path).2
      rw [← keptPath] at hkeptLength
      omega
    refine ⟨?_, hkept⟩
    rw [← hbase, keptPath, hkept, ← writeRest_eq]
  · rintro ⟨hbase, hkept⟩
    rw [keptPath, hkept, ← writeRest_eq]
    exact hbase.symm

lemma head?_splitParams {scheme : List Char} (hhead : path.head? ≠ some '/') :
    (splitParams scheme path).1.head? ≠ some '/' := by
  rcases splitParams_cases scheme path with hnone | hsome
  · rw [hnone]
    exact hhead
  · intro hslash
    refine hhead ?_
    rw [hsome, List.head?_append, hslash]
    rfl

/-- A URL is the base and a path only if the base is plain and nothing of the path is dropped. -/
lemma IsBase.path_iff (h : IsBase around base b) (hhead : path.head? ≠ some '/') :
    authority b ++
        (Url.rooted (joinPath (splitParams b.scheme b.path).1 (splitParams b.scheme path).1) ++
          withParams [] (splitParams b.scheme path).2) = base ++ path ↔
      IsPlain base b ∧ KeepsParams b.scheme path ∧
        IsNormal (b.path ++ (splitParams b.scheme path).1) := by
  set front := (splitParams b.scheme path).1 with hfront
  set params := (splitParams b.scheme path).2 with hparams
  have hfrontHead : front.head? ≠ some '/' := head?_splitParams hhead
  have hsplit : front.length + paramsLength params ≤ path.length :=
    splitParams_length_le b.scheme path
  have hfolderFacts : ∀ folder, b.path = folder ++ ['/'] →
      (splitParams b.scheme b.path).1 = folder ++ ['/'] ∧ (folder = [] ∨ folder.head? = some '/') ∧
        b.path ++ front = folder ++ '/' :: front := by
    intro folder hfolder
    refine ⟨by rw [splitParams_path hfolder, hfolder], ?_, by simp [hfolder]⟩
    cases folder with
    | nil => exact .inl rfl
    | cons c rest =>
      have hrooted := h.rooted
      rw [hfolder] at hrooted
      exact .inr (by simpa using hrooted)
  constructor
  · intro hurl
    have hlength := congrArg List.length hurl
    have hle := h.length_le
    simp only [List.length_append] at hlength
    have hparamsLength : (withParams [] params).length = paramsLength params := rfl
    have hbaseRooted := rooted_splitParams h.rooted b.scheme
    have hbaseLength := splitParams_length_le b.scheme b.path
    have hjoin := @length_rooted_joinPath_le _ front hbaseRooted
    obtain ⟨folder, hfolder⟩ := h.path_cases.resolve_right (by omega)
    obtain ⟨hbaseSplit, hfolderRooted, happend⟩ := hfolderFacts folder hfolder
    obtain ⟨hjoinLe, hjoinEq, hjoined⟩ := joinPath_folder hfolderRooted hfrontHead
    rw [hbaseSplit] at hlength hurl
    have hpathLength := congrArg List.length hfolder
    have hfolderLength := congrArg List.length happend
    simp only [List.length_append, List.length_cons, List.length_nil]
      at hpathLength hfolderLength hjoinLe
    have hkept : KeepsParams b.scheme path := by
      refine (keepsParams_or_shorter b.scheme path).resolve_right fun hshorter => ?_
      rw [← hfront, ← hparams] at hshorter
      omega
    have hnormal : IsNormal (folder ++ '/' :: front) := by
      refine hjoinEq ?_
      have hkeptLength := congrArg List.length hkept
      rw [length_withParams, ← hfront, ← hparams] at hkeptLength
      simp only [List.length_append, List.length_cons]
      omega
    refine ⟨?_, hkept, by rw [happend]; exact hnormal⟩
    rw [hjoined hnormal, ← happend, List.append_assoc, ← withParams_eq, hkept,
      ← List.append_assoc, List.append_left_inj] at hurl
    exact hurl.symm
  · rintro ⟨hplain, hkept, hnormal⟩
    obtain ⟨folder, hfolder⟩ := h.folder_of_plain hplain
    obtain ⟨hbaseSplit, hfolderRooted, happend⟩ := hfolderFacts folder hfolder
    obtain ⟨-, -, hjoined⟩ := joinPath_folder hfolderRooted hfrontHead
    rw [happend] at hnormal
    rw [hbaseSplit, hjoined hnormal, ← happend, List.append_assoc, ← withParams_eq, hkept,
      ← List.append_assoc, ← hplain]

end Reference

/-! ## References with a scheme -/

lemma splitScheme_of_none {reference : List Char} (h : (splitScheme [] reference).1 = [])
    (given : List Char) : splitScheme given reference = (given, reference) := by
  refine if_neg fun hscheme => ?_
  have hsome : splitScheme [] reference =
      ((cut ':' reference).1.map lowerAscii, (cut ':' reference).2) := if_pos hscheme
  rw [hsome] at h
  have hnil : (cut ':' reference).1 = [] := by simpa using h
  have hletter := hscheme.2.1
  rw [hnil] at hletter
  cases hletter

lemma splitScheme_of_some {reference : List Char} (h : (splitScheme [] reference).1 ≠ [])
    (given : List Char) :
    ∃ name rest, reference = name ++ ':' :: rest ∧ name.all isSchemeChar = true ∧
      (splitScheme [] reference).1 = name.map lowerAscii ∧
      splitScheme given reference = (name.map lowerAscii, rest) := by
  rcases splitScheme_nil reference with hnone | ⟨name, rest, rfl, hletter, hchars, hsome⟩
  · rw [hnone] at h
    exact absurd rfl h
  · exact ⟨name, rest, rfl, hchars, by rw [hsome], splitScheme_of_name hletter hchars given rest⟩

/-- What a reference is joined to, by the parts that it is split into. -/
lemma IsBase.join_cases (h : IsBase around base b) {reference : List Char} (hne : reference ≠ [])
    (hjoin : join around base reference = .ok url) :
    ∃ r, Url.split around b.scheme reference = .ok r ∧
      (r.scheme ≠ b.scheme ∧ url = reference ∨
        r.scheme = b.scheme ∧ r.netloc ≠ [] ∧
          url = unsplit { r with
            path := withParams (splitParams r.scheme r.path).1 (splitParams r.scheme r.path).2 } ∨
        r.scheme = b.scheme ∧ r.netloc = [] ∧ url = unsplit (joinedParts b r)) := by
  have hbaseNe : base ≠ [] := by
    rintro rfl
    have hslash := h.slash
    cases hslash
  have hcases : String.ofList b.scheme = "http" ∨ String.ofList b.scheme = "https" := by
    simpa using h.http
  have hrelative : String.ofList b.scheme ∈ usesRelative := by
    rcases hcases with hs | hs <;> rw [hs] <;> decide
  have huses : String.ofList b.scheme ∈ usesNetloc := by
    rcases hcases with hs | hs <;> rw [hs] <;> decide
  cases hreference : Url.split around b.scheme reference with
  | error message =>
    rw [join, if_neg hbaseNe, if_neg hne, h.split] at hjoin
    simp only [bind, Except.bind, hreference] at hjoin
    cases hjoin
  | ok r =>
    refine ⟨r, rfl, ?_⟩
    by_cases hscheme : r.scheme = b.scheme
    · by_cases hnetloc : r.netloc = []
      · have hjoined := join_reference h.split h.http ⟨hbaseNe, hne⟩ hreference hscheme hnetloc
        exact .inr (.inr ⟨hscheme, hnetloc, Except.ok.inj (hjoin.symm.trans hjoined)⟩)
      · refine .inr (.inl ⟨hscheme, hnetloc, ?_⟩)
        rw [join, if_neg hbaseNe, if_neg hne, h.split] at hjoin
        simp only [bind, Except.bind, hreference] at hjoin
        rw [if_neg (by simp [hscheme, hrelative]), if_pos (by simp [hscheme, huses, hnetloc])]
          at hjoin
        exact (Except.ok.inj hjoin).symm
    · refine .inl ⟨hscheme, ?_⟩
      rw [join, if_neg hbaseNe, if_neg hne, h.split] at hjoin
      simp only [bind, Except.bind, hreference] at hjoin
      rw [if_pos (.inl hscheme)] at hjoin
      exact (Except.ok.inj hjoin).symm

/-- A joined URL is at most one slash longer than the base and the reference. -/
lemma IsBase.length_joined_le (h : IsBase around base b) (path query : List Char) :
    (unsplit (joinedParts b ⟨b.scheme, [], path, query, []⟩)).length ≤
      base.length + path.length + 1 + (writeRest [] query []).length := by
  have hle := h.length_le
  by_cases hempty : (splitParams b.scheme path).1 = [] ∧ (splitParams b.scheme path).2 = []
  · have hkept := length_keptPath_le b
    rw [h.joined_of_empty hempty]
    simp only [List.length_append]
    split_ifs
    · omega
    · omega
  · have hsplit := splitParams_length_le b.scheme path
    have hbase := splitParams_length_le b.scheme b.path
    have hjoin := @length_rooted_joinPath_le _ (splitParams b.scheme path).1
      (rooted_splitParams h.rooted b.scheme)
    have hparams : (withParams [] (splitParams b.scheme path).2).length =
      paramsLength (splitParams b.scheme path).2 := rfl
    rw [h.joined_of_path hempty]
    simp only [List.length_append]
    omega

/-- A reference with the scheme of the base is not written after it. -/
lemma IsBase.join_ne_append (h : IsBase around base b) {reference : List Char}
    (hclean : clean reference = reference)
    (hfragment : (readRest [] [] reference).fragment = [])
    (hscheme : (splitScheme [] reference).1 = b.scheme)
    (hjoin : join around base reference = .ok url) :
    (readRest [] [] reference).path ≠ [] ∧
      url ≠ base ++ writeRest (readRest [] [] reference).path (readRest [] [] reference).query [] := by
  have hsome : (splitScheme [] reference).1 ≠ [] := by
    rw [hscheme]
    exact h.scheme
  obtain ⟨name, rest, hreference, hchars, hname, hgiven⟩ := splitScheme_of_some hsome b.scheme
  have hnameNe : name ≠ [] := by
    rintro rfl
    exact hsome hname
  have hlower : name.map lowerAscii = b.scheme := hname.symm.trans hscheme
  have hne : reference ≠ [] := by
    rw [hreference]
    simp
  have hnameSigns : '?' ∉ name ∧ '#' ∉ name := by
    constructor <;> exact fun hmem => absurd (List.all_eq_true.1 hchars _ hmem) (by decide)
  -- what the reference is read as, with the scheme and the network location in front of its path
  have hread : ∀ front rest', '?' ∉ front ∧ '#' ∉ front → rest = front ++ rest' →
      (readRest [] [] reference).path = name ++ ':' :: (front ++ (readRest [] [] rest').path) ∧
        (readRest [] [] reference).query = (readRest [] [] rest').query ∧
          (readRest [] [] rest').fragment = [] := by
    intro front rest' hfront hrest
    have hall : reference = (name ++ ':' :: front) ++ rest' := by
      rw [hreference, hrest]
      simp
    have hsigns : '?' ∉ name ++ ':' :: front ∧ '#' ∉ name ++ ':' :: front := by
      simp [hnameSigns, hfront]
    have hparts := readRest_append hsigns [] [] rest'
    rw [← hall] at hparts
    rw [hparts] at hfragment ⊢
    exact ⟨by simp, rfl, hfragment⟩
  have hbaseLength : 3 ≤ base.length := by
    have hle := h.length_le
    rw [length_authority] at hle
    omega
  have hnamePos := List.length_pos_of_ne_nil hnameNe
  have hlowerLength : b.scheme.length = name.length := by rw [← hlower, List.length_map]
  obtain ⟨r, hr, hcases⟩ := h.join_cases hne hjoin
  rw [split_eq_ok_iff, hclean, hgiven, hlower] at hr
  obtain ⟨-, rfl⟩ := hr
  rcases splitNetloc_cases rest with ⟨hnone, -⟩ | ⟨netloc, rest', hrest, hin, -, hboth⟩
  · rw [hnone] at hcases
    obtain ⟨hpath, hquery, hempty⟩ := hread [] rest ⟨by simp, by simp⟩ rfl
    obtain ⟨hbad, -⟩ | ⟨-, hbad, -⟩ | ⟨-, -, hurl⟩ := hcases
    · exact absurd rfl hbad
    · exact absurd rfl hbad
    have hrest := readRest_reference hempty b.scheme
    have hlength := h.length_joined_le (readRest [] [] rest).path (readRest [] [] rest).query
    rw [← hrest, ← hurl] at hlength
    refine ⟨by rw [hpath]; simp, fun hequal => ?_⟩
    have hequalLength := congrArg List.length hequal
    rw [List.length_append, length_writeRest, hpath, hquery] at hequalLength
    simp only [List.nil_append, List.length_append, List.length_cons] at hequalLength
    omega
  · rw [hboth] at hcases
    have hfront : '?' ∉ '/' :: '/' :: netloc ∧ '#' ∉ '/' :: '/' :: netloc := by
      constructor <;>
        (simp only [List.mem_cons, not_or]
         exact ⟨by decide, by decide, fun hmem => absurd (hin _ hmem) (by decide)⟩)
    obtain ⟨hpath, hquery, hempty⟩ := hread ('/' :: '/' :: netloc) rest' hfront hrest
    refine ⟨by rw [hpath]; simp, fun hequal => ?_⟩
    have hequalLength := congrArg List.length hequal
    rw [List.length_append, length_writeRest, hpath, hquery] at hequalLength
    simp only [List.length_append, List.length_cons] at hequalLength
    obtain ⟨hbad, -⟩ | ⟨-, hnetloc, hurl⟩ | ⟨-, hnetloc, hurl⟩ := hcases
    · exact absurd rfl hbad
    · set path' := withParams (splitParams b.scheme (readRest [] [] rest').path).1
        (splitParams b.scheme (readRest [] [] rest').path).2 with hpath'
      have hparts : unsplit { readRest b.scheme netloc rest' with
            path := path', query := (readRest [] [] rest').query, fragment := [] } = url := by
        rw [← hempty]
        exact hurl.symm
      have hlength := @length_unsplit (readRest b.scheme netloc rest') h.scheme hnetloc path'
        (readRest [] [] rest').query
      have hrooted := length_rooted_le path'
      have hkept := splitParams_length_le b.scheme (readRest [] [] rest').path
      rw [hparts] at hlength
      rw [hpath', length_withParams, ← hpath'] at hrooted
      simp only [readRest] at hlength hkept hrooted hequalLength
      omega
    · obtain rfl : netloc = [] := hnetloc
      have hlength := h.length_joined_le (readRest [] [] rest').path (readRest [] [] rest').query
      rw [← readRest_reference hempty b.scheme, ← hurl] at hlength
      omega

/-- A reference is written after its base exactly under the conditions of `Appends`. -/
theorem IsBase.join_eq_append_iff (h : IsBase around base b) {reference : List Char}
    (hclean : clean reference = reference) (hhead : reference.head? ≠ some '/')
    (hne : reference ≠ []) (hfragment : (readRest [] [] reference).fragment = [])
    (hscheme : (splitScheme [] reference).1 = [] ∨ (splitScheme [] reference).1 = b.scheme)
    (hjoin : join around base reference = .ok url) :
    url = base ++ writeRest (readRest [] [] reference).path (readRest [] [] reference).query [] ↔
      Appends base b reference := by
  -- a reference with the scheme of the base is never written after it, so none has a scheme below
  rcases hscheme with hnone | hown
  swap
  · obtain ⟨hpathNe, hurlNe⟩ := h.join_ne_append hclean hfragment hown hjoin
    refine ⟨fun hurl => absurd hurl hurlNe, fun happends => ?_⟩
    cases happends with
    | signs hpath => exact absurd hpath hpathNe
    | query hpath => exact absurd hpath hpathNe
    | path hpath hnone => exact absurd (hown.symm.trans hnone) h.scheme
  set path := (readRest [] [] reference).path with hpathEq
  set query := (readRest [] [] reference).query with hqueryEq
  have hslashes : reference.take 2 ≠ ['/', '/'] := by
    intro htake
    have hfirst := congrArg List.head? htake
    rw [List.head?_take, if_neg (by decide)] at hfirst
    exact hhead hfirst
  have hsplit : Url.split around b.scheme reference = .ok ⟨b.scheme, [], path, query, []⟩ := by
    rw [split_reference hclean (splitScheme_of_none hnone b.scheme) hslashes,
      readRest_reference hfragment]
  have hbaseNe : base ≠ [] := by
    rintro rfl
    have hslash := h.slash
    cases hslash
  have hurlEq : url = unsplit (joinedParts b ⟨b.scheme, [], path, query, []⟩) :=
    Except.ok.inj
      (hjoin.symm.trans (join_reference h.split h.http ⟨hbaseNe, hne⟩ hsplit rfl rfl))
  -- without a path the URL is the base with another query; with one the folder of the base counts
  by_cases hpath : path = []
  · have hempty : (splitParams b.scheme path).1 = [] ∧ (splitParams b.scheme path).2 = [] := by
      rw [hpath]
      simp [splitParams]
    rw [hurlEq, h.joined_of_empty hempty, hpath]
    by_cases hquery : query = []
    · rw [if_pos hquery, hquery]
      have hnothing : writeRest [] [] [] = [] := rfl
      rw [hnothing, List.append_nil, h.signs_iff]
      constructor
      · rintro ⟨hbase, hkept⟩
        exact .signs hpath hquery hbase hkept
      · intro happends
        cases happends with
        | signs _ _ hbase hkept => exact ⟨hbase, hkept⟩
        | query _ hne' => exact absurd hquery hne'
        | path hne' => exact absurd hpath hne'
    · rw [if_neg hquery, h.query_iff]
      constructor
      · exact fun hplain => .query hpath hquery hplain
      · intro happends
        cases happends with
        | signs _ hnil => exact absurd hnil hquery
        | query _ _ hplain => exact hplain
        | path hne' => exact absurd hpath hne'
  · have happends : Appends base b reference ↔ IsPlain base b ∧ KeepsParams b.scheme path ∧
        IsNormal (b.path ++ (splitParams b.scheme path).1) := by
      constructor
      · intro happends
        cases happends with
        | signs hnil => exact absurd hnil hpath
        | query hnil => exact absurd hnil hpath
        | path _ _ hplain hkept hnormal => exact ⟨hplain, hkept, hnormal⟩
      · rintro ⟨hplain, hkept, hnormal⟩
        exact .path hpath hnone hplain hkept hnormal
    rw [happends, hurlEq]
    by_cases hempty : (splitParams b.scheme path).1 = [] ∧ (splitParams b.scheme path).2 = []
    · -- the path is only the sign of parameters, and is lost
      have hnotKept : ¬KeepsParams b.scheme path := by
        intro hkept
        rw [KeepsParams, hempty.1, hempty.2] at hkept
        exact hpath hkept.symm
      refine ⟨fun hequal => ?_, fun hall => absurd hall.2.1 hnotKept⟩
      have hlength := congrArg List.length hequal
      have hkeptPath := length_keptPath_le b
      have hle := h.length_le
      have hpos := List.length_pos_of_ne_nil hpath
      rw [h.joined_of_empty hempty] at hlength
      simp only [List.length_append, length_writeRest path] at hlength
      split_ifs at hlength
      · omega
      · omega
    -- otherwise the query goes along, and only the paths have to be compared
    · have hpathHead : path.head? ≠ some '/' := by
        intro hslash
        refine hhead ?_
        rcases readRest_cases reference with hall | ⟨sign, more, hall, -⟩
        · rw [hall, ← hpathEq, hslash]
        · rw [hall, List.head?_append, ← hpathEq, hslash]
          rfl
      have hright : base ++ writeRest path query [] = base ++ path ++ writeRest [] query [] := by
        rw [writeRest_eq, List.append_assoc]
      rw [h.joined_of_path hempty, hright, ← List.append_assoc, List.append_left_inj]
      exact h.path_iff hpathHead

end Url
