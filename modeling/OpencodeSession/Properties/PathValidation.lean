import Mathlib.Logic.Function.Iterate
import OpencodeSession.Server.Diagnostics

/-!
# The validation of a diagnostic path

The validator decodes a path until decoding changes nothing, and looks at every form on the way.  So
what it accepts is safe in every form that decoding it any number of times gives, with the same
delimiters in each (`validatePathForms_closed`).  Its bound on the number of rounds is never
reached, because a round that changes the path makes it shorter.
-/

namespace OpencodeSession

open Diagnostics PercentEncoding

/-- A path that addresses the server itself and nothing above its root. -/
structure SafePath (path : List Char) : Prop where
  absolute : path.head? = some '/'
  oneSlash : path.take 2 ≠ ['/', '/']
  noDots : ∀ segment ∈ path.splitOn '/', Url.isDots segment = false
  noUnsafe : hasUnsafeCharacter path = false

section

variable {around : Url.Surroundings} {baseUrl path : List Char}

lemma safePath_of_validatePathForm (h : validatePathForm around path baseUrl = .ok ()) :
    SafePath path := by
  unfold validatePathForm at h
  split_ifs at h with habsolute hunsafe hdots
  obtain ⟨hhead, htake⟩ := not_or.1 habsolute
  refine ⟨not_not.1 hhead, htake, ?_, by simpa using hunsafe⟩
  intro segment hsegment
  by_contra hdot
  exact hdots (List.any_eq_true.2 ⟨segment, hsegment, by simpa using hdot⟩)

/-- What is accepted in some rounds is safe in every form. -/
lemma safePath_of_validateForms {rounds : Nat} {decoded : List Char}
    (h : validateForms around baseUrl rounds decoded = .ok ()) (n : Nat) :
    SafePath (unquote^[n] decoded) ∧
      pathDelimiters (unquote^[n] decoded) = pathDelimiters decoded := by
  induction rounds generalizing decoded n with
  | zero => cases h
  | succ rounds ih =>
    rw [validateForms] at h
    cases hform : validatePathForm around decoded baseUrl with
    | error error =>
      rw [hform] at h
      cases h
    | ok _ =>
      have hsafe := safePath_of_validatePathForm hform
      simp only [hform, bind, Except.bind] at h
      split_ifs at h with hfixed hdelimiters
      · rw [Function.iterate_fixed hfixed]
        exact ⟨hsafe, rfl⟩
      · cases n with
        | zero => exact ⟨hsafe, rfl⟩
        | succ n =>
          obtain ⟨hnext, hsame⟩ := ih h n
          rw [Function.iterate_succ_apply]
          exact ⟨hnext, hsame.trans (not_not.1 hdelimiters)⟩

lemma requireSameOrigin_ne_excessive (target : List Char) :
    requireSameOrigin around baseUrl target ≠ .error .excessiveEncoding := by
  have horigin : ∀ url, origin around url ≠ .error .excessiveEncoding := by
    intro url
    unfold origin
    split
    · simp
    · split <;> simp
  unfold requireSameOrigin
  split
  · simp
  · next resolved _ =>
    cases hresolved : origin around resolved with
    | error error =>
      intro h
      exact horigin resolved (hresolved.trans (congrArg _ (Except.error.inj h)))
    | ok resolvedOrigin =>
      cases hbase : origin around baseUrl with
      | error error =>
        intro h
        exact horigin baseUrl (hbase.trans (congrArg _ (Except.error.inj h)))
      | ok baseOrigin =>
        simp only [bind, Except.bind]
        split_ifs
        · nofun
        · nofun

lemma validatePathForm_ne_excessive (path : List Char) :
    validatePathForm around path baseUrl ≠ .error .excessiveEncoding := by
  unfold validatePathForm
  split_ifs
  · simp
  · simp
  · simp
  · exact requireSameOrigin_ne_excessive path

/-- With more rounds than characters the bound on the rounds is not reached. -/
lemma validateForms_ne_excessive {rounds : Nat} {decoded : List Char}
    (h : decoded.length < rounds) :
    validateForms around baseUrl rounds decoded ≠ .error .excessiveEncoding := by
  induction rounds generalizing decoded with
  | zero => exact absurd h (Nat.not_lt_zero _)
  | succ rounds ih =>
    rw [validateForms]
    cases hform : validatePathForm around decoded baseUrl with
    | error error =>
      intro hexcessive
      exact validatePathForm_ne_excessive decoded
        (hform.trans (congrArg _ (Except.error.inj hexcessive)))
    | ok _ =>
      simp only [bind, Except.bind]
      split_ifs with hfixed hdelimiters
      · nofun
      · nofun
      · have hshorter := (unquote_eq_or_shorter decoded).resolve_left hfixed
        exact ih (by omega)

/-- What the validator accepts is safe however often it is decoded, and has the same delimiters;
and the validator never gives up, neither on a path nor in its loop. -/
theorem validatePathForms_closed (around : Url.Surroundings) (path baseUrl : List Char) :
    (validatePathForms around path baseUrl = .ok () → ∀ n, SafePath (unquote^[n] path) ∧
        pathDelimiters (unquote^[n] path) = pathDelimiters path) ∧
      validateForms around baseUrl (path.length + 1) path ≠ .error .excessiveEncoding ∧
      validatePathForms around path baseUrl ≠ .error .excessiveEncoding := by
  have hbound : validateForms around baseUrl (path.length + 1) path ≠ .error .excessiveEncoding :=
    validateForms_ne_excessive (Nat.lt_succ_self path.length)
  refine ⟨fun h n => ?_, hbound, ?_⟩
  · unfold validatePathForms at h
    split_ifs at h
    exact safePath_of_validateForms h n
  · unfold validatePathForms
    split_ifs
    · simp
    · exact hbound

theorem safePath_encodedTwice :
    SafePath (unquote^[2] "/project%2541".toList) ∧
      pathDelimiters (unquote^[2] "/project%2541".toList) = ['/'] := by
  have haccepted : validatePathForms asciiSurroundings "/project%2541".toList
      "http://127.0.0.1:4096/".toList = .ok () := by rfl
  exact (validatePathForms_closed asciiSurroundings _ _).1 haccepted 2

end

end OpencodeSession
