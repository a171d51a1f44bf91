import Mathlib.Tactic.ApplyFun
import OpencodeSession.Framework.Url

/-!
# What splitting a URL reads

`Written url name netloc rest` says how a URL with a scheme and a network location is written.  Such
a URL is split into these parts (`Written.split`), and every URL that is split into parts with a
scheme and a network location is written so (`written_of_split`).  A reference without a scheme and
a network location is split into its path and its query (`split_reference`).
-/

namespace Url

/-- The characters that are taken out wherever they stand. -/
def isBreak (c : Char) : Bool := c ∈ ['\t', '\r', '\n']

lemma isBreak_of_lt {c : Char} (h : 32 < c.toNat) : isBreak c = false := by
  by_contra hbreak
  have hcases : c = '\t' ∨ c = '\r' ∨ c = '\n' := by simpa [isBreak, or_iff_not_imp_left] using hbreak
  rcases hcases with rfl | rfl | rfl <;> exact absurd h (by decide)

lemma clean_eq (url : List Char) :
    clean url = (url.dropWhile fun c => c.toNat ≤ 32).filter (!isBreak ·) := by
  simp [clean, isBreak]

/-- Nothing is taken out of a text without control characters. -/
lemma clean_of_head {url : List Char} (hhead : ∀ c ∈ url.head?, 32 < c.toNat)
    (h : ∀ c ∈ url, isBreak c = false) : clean url = url := by
  have hdrop : (url.dropWhile fun c => c.toNat ≤ 32) = url := by
    cases url with
    | nil => rfl
    | cons c rest =>
      have hc : 32 < c.toNat := hhead c rfl
      rw [List.dropWhile_cons_of_neg (by simpa using hc)]
  rw [clean_eq, hdrop, List.filter_eq_self]
  intro c hc
  simp [h c hc]

lemma clean_of_lt {url : List Char} (h : ∀ c ∈ url, 32 < c.toNat) : clean url = url :=
  clean_of_head (fun c hc => h c (List.mem_of_mem_head? hc)) fun c hc => isBreak_of_lt (h c hc)

lemma isBreak_of_mem_clean {url : List Char} {c : Char} (h : c ∈ clean url) :
    isBreak c = false := by
  rw [clean_eq] at h
  simpa using (List.mem_filter.1 h).2

lemma mem_of_mem_clean {url : List Char} {c : Char} (h : c ∈ clean url) : c ∈ url := by
  rw [clean_eq] at h
  exact (List.dropWhile_sublist _).subset (List.mem_of_mem_filter h)

lemma length_clean_le (url : List Char) : (clean url).length ≤ url.length := by
  rw [clean_eq]
  exact (List.length_filter_le _ _).trans (List.dropWhile_sublist _).length_le

/-- What is taken out of a text is taken out of its front, if there is more than what is skipped. -/
lemma clean_append {front rest : List Char} (h : ∃ c ∈ front, 32 < c.toNat)
    (hrest : ∀ c ∈ rest, isBreak c = false) : clean (front ++ rest) = clean front ++ rest := by
  have hne : ¬(front.dropWhile fun c => c.toNat ≤ 32).isEmpty = true := by
    obtain ⟨c, hc, hlt⟩ := h
    intro hempty
    have hall := List.dropWhile_eq_nil_iff.1 (List.isEmpty_iff.1 hempty) c hc
    have hle : c.toNat ≤ 32 := of_decide_eq_true hall
    omega
  have hkept : rest.filter (!isBreak ·) = rest := by
    refine List.filter_eq_self.2 fun c hc => ?_
    simp [hrest c hc]
  rw [clean_eq, clean_eq, List.dropWhile_append, if_neg hne, List.filter_append, hkept]

/-! ## Cutting -/

variable {sign : Char}

lemma takeWhile_append_of_all {p : Char → Bool} {text : List Char} (h : ∀ c ∈ text, p c = true)
    {rest : List Char} (hrest : ∀ c ∈ rest.head?, p c = false) :
    (text ++ rest).takeWhile p = text ∧ (text ++ rest).dropWhile p = rest := by
  rw [List.takeWhile_append_of_pos h, List.dropWhile_append_of_pos h]
  cases rest with
  | nil => simp
  | cons c more =>
    have hc : p c = false := hrest c rfl
    simp [hc]

lemma cut_of_notMem {text : List Char} (h : sign ∉ text) : cut sign text = (text, []) := by
  have hall : ∀ c ∈ text, (decide (c ≠ sign)) = true := by
    intro c hc
    simp only [decide_eq_true_eq]
    rintro rfl
    exact h hc
  obtain ⟨htake, hdrop⟩ := @takeWhile_append_of_all _ text hall [] (by simp)
  rw [List.append_nil] at htake hdrop
  simp only [cut, htake, hdrop, List.tail_nil]

lemma cut_append {text : List Char} (h : sign ∉ text) (rest : List Char) :
    cut sign (text ++ sign :: rest) = (text, rest) := by
  have hall : ∀ c ∈ text, (decide (c ≠ sign)) = true := by
    intro c hc
    simp only [decide_eq_true_eq]
    rintro rfl
    exact h hc
  have hhead : ∀ c ∈ (sign :: rest).head?, (decide (c ≠ sign)) = false := by simp
  obtain ⟨htake, hdrop⟩ := takeWhile_append_of_all hall hhead
  simp only [cut, htake, hdrop, List.tail_cons]

lemma notMem_cut_fst (text : List Char) : sign ∉ (cut sign text).1 := by
  intro h
  simpa using List.mem_takeWhile_imp h

lemma eq_cut (text : List Char) (h : sign ∈ text) :
    text = (cut sign text).1 ++ sign :: (cut sign text).2 := by
  obtain ⟨front, rest, rfl, hfront⟩ := List.eq_append_cons_of_mem h
  rw [cut_append hfront]

lemma mem_of_mem_cut_fst {text : List Char} {c : Char} (h : c ∈ (cut sign text).1) : c ∈ text :=
  (List.takeWhile_sublist _).subset h

/-! ## URLs with a scheme and a network location -/

/-- The parts of a URL from what follows its network location. -/
def readRest (scheme netloc rest : List Char) : Parts where
  scheme := scheme
  netloc := netloc
  path := (cut '?' (cut '#' rest).1).1
  query := (cut '?' (cut '#' rest).1).2
  fragment := (cut '#' rest).2

/-- How a URL with a scheme and a network location is written. -/
structure Written (url name netloc rest : List Char) : Prop where
  spelled : clean url = name ++ ':' :: '/' :: '/' :: (netloc ++ rest)
  letter : name.head?.any isLetter = true
  schemeChars : name.all isSchemeChar = true
  inNetloc : ∀ c ∈ netloc, endsNetloc c = false
  afterNetloc : ∀ c ∈ rest.head?, endsNetloc c = true

variable {around : Surroundings} {url name netloc rest : List Char}

/-- Splitting takes the scheme off, then the network location, which is checked. -/
lemma split_eq_ok_iff {given : List Char} {parts : Parts} :
    split around given url = .ok parts ↔
      checkNetloc around (splitNetloc (splitScheme given (clean url)).2).1 = .ok () ∧
        parts = readRest (splitScheme given (clean url)).1
          (splitNetloc (splitScheme given (clean url)).2).1
          (splitNetloc (splitScheme given (clean url)).2).2 := by
  simp only [split]
  cases checkNetloc around (splitNetloc (splitScheme given (clean url)).2).1 with
  | error message =>
    constructor
    · intro h
      cases h
    · rintro ⟨h, -⟩
      cases h
  | ok _ => exact ⟨fun h => ⟨rfl, (Except.ok.inj h).symm⟩, fun h => congrArg Except.ok h.2.symm⟩

lemma isSchemeChar_colon : isSchemeChar ':' = false := by decide

lemma splitScheme_of_name (hletter : name.head?.any isLetter = true)
    (hchars : name.all isSchemeChar = true) (given rest : List Char) :
    splitScheme given (name ++ ':' :: rest) = (name.map lowerAscii, rest) := by
  have hcolon : ':' ∉ name := by
    intro hmem
    exact absurd (List.all_eq_true.1 hchars _ hmem) (by simp [isSchemeChar_colon])
  rw [splitScheme, cut_append hcolon]
  exact if_pos ⟨by simp, hletter, hchars⟩

lemma splitNetloc_of_slashes (hin : ∀ c ∈ netloc, endsNetloc c = false)
    (hafter : ∀ c ∈ rest.head?, endsNetloc c = true) :
    splitNetloc ('/' :: '/' :: (netloc ++ rest)) = (netloc, rest) := by
  obtain ⟨htake, hdrop⟩ :=
    takeWhile_append_of_all (p := (!endsNetloc ·)) (by simpa using hin) (by simpa using hafter)
  simp [splitNetloc, htake, hdrop]

lemma Written.split_eq_ok_iff (h : Written url name netloc rest) (given : List Char)
    {parts : Parts} :
    split around given url = .ok parts ↔
      checkNetloc around netloc = .ok () ∧ parts = readRest (name.map lowerAscii) netloc rest := by
  rw [Url.split_eq_ok_iff, h.spelled, splitScheme_of_name h.letter h.schemeChars,
    splitNetloc_of_slashes h.inNetloc h.afterNetloc]

lemma splitScheme_nil (url : List Char) :
    splitScheme [] url = ([], url) ∨
      ∃ name rest, url = name ++ ':' :: rest ∧ name.head?.any isLetter = true ∧
        name.all isSchemeChar = true ∧ splitScheme [] url = (name.map lowerAscii, rest) := by
  by_cases hscheme : ':' ∈ url ∧ (cut ':' url).1.head?.any isLetter = true ∧
      (cut ':' url).1.all isSchemeChar = true
  · exact .inr ⟨_, _, eq_cut url hscheme.1, hscheme.2.1, hscheme.2.2, if_pos hscheme⟩
  · exact .inl (if_neg hscheme)

lemma splitNetloc_cases (url : List Char) :
    (splitNetloc url = ([], url) ∧ url.take 2 ≠ ['/', '/']) ∨
      ∃ netloc rest, url = '/' :: '/' :: (netloc ++ rest) ∧ (∀ c ∈ netloc, endsNetloc c = false) ∧
        (∀ c ∈ rest.head?, endsNetloc c = true) ∧ splitNetloc url = (netloc, rest) := by
  rw [splitNetloc]
  split_ifs with hslashes
  · right
    refine ⟨_, _, ?_, ?_, ?_, rfl⟩
    · have htake := List.take_append_drop 2 url
      rw [hslashes] at htake
      rw [List.takeWhile_append_dropWhile]
      exact htake.symm
    · intro c hc
      simpa using List.mem_takeWhile_imp hc
    · intro c hc
      have hhead := List.head?_dropWhile_not (!endsNetloc ·) (url.drop 2)
      rw [Option.mem_def.1 hc] at hhead
      simpa using hhead
  · exact .inl ⟨rfl, hslashes⟩

/-- A URL that is split into parts with a scheme and a network location is written so. -/
lemma written_of_split {parts : Parts} (h : split around [] url = .ok parts)
    (hscheme : parts.scheme ≠ []) (hnetloc : parts.netloc ≠ []) :
    ∃ name rest, Written url name parts.netloc rest ∧ name.map lowerAscii = parts.scheme ∧
      parts = readRest parts.scheme parts.netloc rest ∧
      checkNetloc around parts.netloc = .ok () := by
  obtain ⟨hcheck, hparts⟩ := split_eq_ok_iff.1 h
  rcases splitScheme_nil (clean url) with hnone | ⟨name, after, hspelled, hletter, hchars, hsome⟩
  · rw [hnone] at hparts
    exact absurd (congrArg Parts.scheme hparts) hscheme
  rw [hsome] at hcheck hparts
  rcases splitNetloc_cases after with ⟨hnone, -⟩ | ⟨netloc, rest, hafter, hin, hrest, hboth⟩
  · rw [hnone] at hparts
    exact absurd (congrArg Parts.netloc hparts) hnetloc
  rw [hboth] at hcheck hparts
  have hschemeEq : parts.scheme = name.map lowerAscii := congrArg Parts.scheme hparts
  have hnetlocEq : parts.netloc = netloc := congrArg Parts.netloc hparts
  refine ⟨name, rest, ⟨?_, hletter, hchars, ?_, hrest⟩, hschemeEq.symm, ?_, ?_⟩
  · rw [hnetlocEq, hspelled, hafter]
  · rw [hnetlocEq]
    exact hin
  · rw [hschemeEq, hnetlocEq]
    exact hparts
  · rw [hnetlocEq]
    exact hcheck

/-- The path of a URL with a network location is empty or starts at the root. -/
lemma readRest_path_rooted (hafter : ∀ c ∈ rest.head?, endsNetloc c = true) (scheme : List Char) :
    (readRest scheme netloc rest).path = [] ∨
      (readRest scheme netloc rest).path.head? = some '/' := by
  cases rest with
  | nil => exact .inl rfl
  | cons c more =>
    have hc : c = '/' ∨ c = '?' ∨ c = '#' := by
      simpa [endsNetloc, or_iff_not_imp_left] using hafter c rfl
    rcases hc with rfl | rfl | rfl
    · exact .inr rfl
    · exact .inl rfl
    · exact .inl rfl

/-- The path of a URL with a scheme and a network location starts at the root, and has only
characters of a path. -/
lemma path_of_split {parts : Parts} (h : split around [] url = .ok parts)
    (hscheme : parts.scheme ≠ []) (hnetloc : parts.netloc ≠ []) :
    (parts.path = [] ∨ parts.path.head? = some '/') ∧
      ∀ c ∈ parts.path, c ≠ '?' ∧ c ≠ '#' ∧ isBreak c = false := by
  obtain ⟨name, rest, hwritten, -, hparts, -⟩ := written_of_split h hscheme hnetloc
  have hpath : parts.path = (cut '?' (cut '#' rest).1).1 := congrArg Parts.path hparts
  constructor
  · have hrooted := @readRest_path_rooted parts.netloc rest hwritten.afterNetloc parts.scheme
    rwa [← hparts] at hrooted
  · intro c hc
    rw [hpath] at hc
    have hrest : c ∈ rest := mem_of_mem_cut_fst (mem_of_mem_cut_fst hc)
    refine ⟨?_, ?_, ?_⟩
    · rintro rfl
      exact notMem_cut_fst _ hc
    · rintro rfl
      exact notMem_cut_fst _ (mem_of_mem_cut_fst hc)
    · refine @isBreak_of_mem_clean url c ?_
      rw [hwritten.spelled]
      simp [hrest]

/-! ## Putting the parts together again -/

/-- A path after a network location, which starts with a slash if there is a path. -/
def rooted (path : List Char) : List Char :=
  if path ≠ [] ∧ path.head? ≠ some '/' then '/' :: path else path

lemma rooted_of_head {path : List Char} (h : path.head? = some '/') : rooted path = path := by
  simp [rooted, h]

lemma length_rooted_le (path : List Char) : (rooted path).length ≤ path.length + 1 := by
  unfold rooted
  split_ifs <;> simp

lemma mem_rooted {path : List Char} {c : Char} (h : c ∈ rooted path) : c = '/' ∨ c ∈ path := by
  unfold rooted at h
  split_ifs at h
  · exact List.mem_cons.1 h
  · exact .inr h

/-- What follows a network location. -/
def writeRest (path query fragment : List Char) : List Char :=
  path ++ (if query ≠ [] then '?' :: query else []) ++
    if fragment ≠ [] then '#' :: fragment else []

lemma unsplit_eq {parts : Parts} (hscheme : parts.scheme ≠ []) (hnetloc : parts.netloc ≠ []) :
    unsplit parts = parts.scheme ++ ':' :: '/' :: '/' ::
      (parts.netloc ++ writeRest (rooted parts.path) parts.query parts.fragment) := by
  have hrooted : (if parts.path ≠ [] ∧ parts.path.head? ≠ some '/' then '/' :: parts.path
      else parts.path) = rooted parts.path := rfl
  simp only [unsplit, writeRest, if_pos hscheme, hrooted]
  rw [if_pos (Or.inl hnetloc)]
  by_cases hquery : parts.query = [] <;> by_cases hfragment : parts.fragment = [] <;>
    simp [hquery, hfragment]

lemma mem_writeRest {path query : List Char} {c : Char} (h : c ∈ writeRest path query []) :
    c ∈ path ∨ c = '?' ∨ c ∈ query := by
  by_cases hquery : query = []
  · have hc : c ∈ path := by simpa [writeRest, hquery] using h
    exact .inl hc
  · simpa [writeRest, hquery] using h

/-- What follows a network location starts with a sign that ends it. -/
lemma head?_writeRest (path query : List Char) :
    ∀ c ∈ (writeRest (rooted path) query []).head?, endsNetloc c = true := by
  intro c hc
  by_cases hpath : path = []
  · subst hpath
    by_cases hquery : query = []
    · simp [writeRest, rooted, hquery] at hc
    · obtain rfl : '?' = c := by simpa [writeRest, rooted, hquery] using hc
      decide
  · have hhead : (rooted path).head? = some '/' := by
      by_cases hslash : path.head? = some '/'
      · rw [rooted_of_head hslash, hslash]
      · rw [rooted, if_pos ⟨hpath, hslash⟩, List.head?_cons]
    obtain rfl : '/' = c := by simpa [writeRest, List.head?_append, hhead] using hc
    decide

lemma readRest_writeRest {path query fragment : List Char} (hpath : '?' ∉ path ∧ '#' ∉ path)
    (hquery : '#' ∉ query) (scheme : List Char) :
    readRest scheme netloc (writeRest path query fragment) =
      { scheme, netloc, path, query, fragment } := by
  have hfront : cut '#' (writeRest path query fragment) =
      (path ++ (if query ≠ [] then '?' :: query else []), fragment) := by
    have hnot : '#' ∉ path ++ (if query ≠ [] then '?' :: query else []) := by
      split_ifs <;> simp [hpath.2, hquery]
    unfold writeRest
    by_cases hfragment : fragment = []
    · subst hfragment
      rw [if_neg (not_not.2 rfl : ¬([] : List Char) ≠ []), List.append_nil, cut_of_notMem hnot]
    · rw [if_pos hfragment, cut_append hnot]
  have hback : cut '?' (path ++ (if query ≠ [] then '?' :: query else [])) = (path, query) := by
    by_cases hempty : query = []
    · rw [if_neg (by simpa using hempty), List.append_nil, cut_of_notMem hpath.1, hempty]
    · rw [if_pos hempty, cut_append hpath.1]
  rw [readRest, hfront, hback]

lemma toNat_ofNat_of_ascii : ∀ n < 128, (Char.ofNat n).toNat = n := by
  decide

lemma toNat_lowerAscii (c : Char) :
    (lowerAscii c).toNat = if 65 ≤ c.toNat ∧ c.toNat ≤ 90 then c.toNat + 32 else c.toNat := by
  unfold lowerAscii
  split_ifs with hupper
  · exact toNat_ofNat_of_ascii _ (by omega)
  · rfl

lemma isLetter_lowerAscii {c : Char} (h : isLetter c = true) : isLetter (lowerAscii c) = true := by
  unfold isLetter at h ⊢
  rw [toNat_lowerAscii]
  simp only [Bool.or_eq_true, Bool.and_eq_true, decide_eq_true_eq] at h ⊢
  split_ifs <;> omega

lemma isSchemeChar_lowerAscii {c : Char} (h : isSchemeChar c = true) :
    isSchemeChar (lowerAscii c) = true := by
  by_cases hletter : isLetter c = true
  · simp [isSchemeChar, isLetter_lowerAscii hletter]
  · have hsame : lowerAscii c = c := by
      refine if_neg fun hupper => hletter ?_
      simp [isLetter, hupper]
    rw [hsame, h]

lemma lowerAscii_lowerAscii (c : Char) : lowerAscii (lowerAscii c) = lowerAscii c := by
  refine if_neg ?_
  rw [toNat_lowerAscii]
  split_ifs <;> omega

lemma isBreak_of_isSchemeChar {c : Char} (h : isSchemeChar c = true) : isBreak c = false := by
  by_contra hbreak
  have hcases : c = '\t' ∨ c = '\r' ∨ c = '\n' := by
    simpa [isBreak, or_iff_not_imp_left] using hbreak
  rcases hcases with rfl | rfl | rfl <;> exact absurd h (by decide)

/-- A text that starts with a letter does not start with a control character. -/
lemma lt_of_mem_head? (h : name.head?.any isLetter = true) (rest : List Char) :
    ∀ c ∈ (name ++ rest).head?, 32 < c.toNat := by
  intro c hc
  cases name with
  | nil => simp at h
  | cons first more =>
    obtain rfl : first = c := by simpa using hc
    have hletter : isLetter first = true := by simpa using h
    simp only [isLetter, Bool.or_eq_true, Bool.and_eq_true, decide_eq_true_eq] at hletter
    omega

/-- A scheme in lower case is a scheme. -/
lemma scheme_lowerAscii (hletter : name.head?.any isLetter = true)
    (hchars : name.all isSchemeChar = true) :
    (name.map lowerAscii).head?.any isLetter = true ∧
      (name.map lowerAscii).all isSchemeChar = true := by
  constructor
  · obtain ⟨c, hc, hletter⟩ : ∃ c, name.head? = some c ∧ isLetter c = true := by
      simpa [Option.any_eq_true] using hletter
    simp [hc, isLetter_lowerAscii hletter]
  · rw [List.all_map, List.all_eq_true]
    intro c hc
    exact isSchemeChar_lowerAscii (List.all_eq_true.1 hchars c hc)

/-- A URL with the scheme and the network location of another one, and with a path and a query that
it can have, is split into them again. -/
lemma split_unsplit {base : List Char} {b : Parts} (h : split around [] base = .ok b)
    (hscheme : b.scheme ≠ []) (hnetloc : b.netloc ≠ []) {path query : List Char}
    (hpath : ∀ c ∈ path, c ≠ '?' ∧ c ≠ '#' ∧ isBreak c = false)
    (hquery : ∀ c ∈ query, c ≠ '#' ∧ isBreak c = false) (given : List Char) :
    split around given (unsplit { b with path, query, fragment := [] }) =
      .ok { b with path := rooted path, query, fragment := [] } := by
  obtain ⟨name, rest, hwritten, hname, -, hcheck⟩ := written_of_split h hscheme hnetloc
  have hrooted : ∀ c ∈ rooted path, c ≠ '?' ∧ c ≠ '#' ∧ isBreak c = false := by
    intro c hc
    rcases mem_rooted hc with rfl | hc
    · exact ⟨by decide, by decide, by decide⟩
    · exact hpath c hc
  set parts : Parts := { b with path, query, fragment := [] } with hparts
  have hurl := @unsplit_eq parts hscheme hnetloc
  have hlower : (b.scheme.map lowerAscii) = b.scheme := by
    rw [← hname, List.map_map]
    exact List.map_congr_left fun c _ => lowerAscii_lowerAscii c
  obtain ⟨hletter, hchars⟩ : b.scheme.head?.any isLetter = true ∧
      b.scheme.all isSchemeChar = true := by
    rw [← hname]
    exact scheme_lowerAscii hwritten.letter hwritten.schemeChars
  have hcleanUrl : clean (unsplit parts) = unsplit parts := by
    rw [hurl]
    refine clean_of_head ?_ ?_
    · exact lt_of_mem_head? hletter _
    · intro c hc
      rcases List.mem_append.1 hc with hc | hc
      · exact isBreak_of_isSchemeChar (List.all_eq_true.1 hchars c hc)
      have hcases : c = ':' ∨ c = '/' ∨ c ∈ b.netloc ∨ c ∈ writeRest (rooted path) query [] := by
        simpa [or_iff_not_imp_left] using hc
      rcases hcases with rfl | rfl | hc | hc
      · decide
      · decide
      · refine @isBreak_of_mem_clean base c ?_
        rw [hwritten.spelled]
        simp [hc]
      · rcases mem_writeRest hc with hc | rfl | hc
        · exact (hrooted c hc).2.2
        · decide
        · exact (hquery c hc).2
  have hnew : Written (unsplit parts) b.scheme b.netloc (writeRest (rooted path) query []) :=
    ⟨hcleanUrl.trans hurl, hletter, hchars, hwritten.inNetloc, head?_writeRest path query⟩
  rw [hnew.split_eq_ok_iff, hlower, readRest_writeRest]
  · exact ⟨hcheck, rfl⟩
  · exact ⟨fun hmem => (hrooted _ hmem).1 rfl, fun hmem => (hrooted _ hmem).2.1 rfl⟩
  · exact fun hmem => (hquery _ hmem).1 rfl

/-! ## References -/

lemma split_reference {given : List Char} (hclean : clean url = url)
    (hscheme : splitScheme given url = (given, url)) (hslashes : url.take 2 ≠ ['/', '/']) :
    split around given url = .ok (readRest given [] url) := by
  have hnetloc : splitNetloc url = ([], url) := by
    rw [splitNetloc, if_neg hslashes]
  rw [split_eq_ok_iff, hclean, hscheme, hnetloc]
  exact ⟨rfl, rfl⟩

end Url
