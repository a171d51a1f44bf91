import Mathlib.Data.List.DropRight
import Mathlib.Tactic.Lemma
import Mathlib.Tactic.SplitIfs

/-!
# Status words

`shortStatus` folds the status words of servers and of earlier records into the seven words that
the run record uses.  The text is stripped, lowered and its dashes made underscores first.  Of the
case mapping only what can end in an ASCII letter matters, because every known word is ASCII.

Shortening a status twice is shortening it once (`shortStatus_idem`): folding a character leaves
nothing to fold, and makes no space of what is none.
-/

namespace OpencodeSession

/-- The characters that `str.strip` removes. -/
def isPySpace (c : Char) : Bool :=
  c.toNat ∈ [9, 10, 11, 12, 13, 28, 29, 30, 31, 32, 133, 160, 5760, 8192, 8193, 8194, 8195, 8196,
    8197, 8198, 8199, 8200, 8201, 8202, 8232, 8233, 8239, 8287, 12288]

/-- `str.strip` on the characters of a text. -/
def strip (text : List Char) : List Char :=
  ((text.dropWhile isPySpace).reverse.dropWhile isPySpace).reverse

/-- `str.lower` on one character, as far as it can give an ASCII letter: the capital letters, the
Kelvin sign and the capital I with a dot. -/
def lowerChar (c : Char) : List Char :=
  if 65 ≤ c.toNat ∧ c.toNat ≤ 90 then [Char.ofNat (c.toNat + 32)]
  else if c.toNat = 8490 then ['k']
  else if c.toNat = 304 then ['i', Char.ofNat 775]
  else [c]

/-- `short_status`. -/
def shortStatus (status : String) : String :=
  let value := String.ofList
    (((strip status.toList).flatMap lowerChar).map fun c => if c = '-' then '_' else c)
  if value ∈ ["queued", "pending", "initialized", "submitted", "admitted"] then "queued"
  else if value ∈ ["active", "running", "started", "promoted", "processing", "in_progress",
    "working", "aborting"] then "active"
  else if value ∈ ["blocked", "waiting", "needs_input"] then "blocked"
  else if value ∈ ["done", "complete", "completed", "success", "succeeded", "idle"] then "done"
  else if value ∈ ["failed", "failure", "error", "errored"] then "failed"
  else if value ∈ ["aborted", "abort", "cancelled", "canceled"] then "aborted"
  else if value ∈ ["timeout", "timed_out", "timedout"] then "timeout"
  else value

/-! ## Shortening a word again -/

lemma strip_eq_rdropWhile (text : List Char) :
    strip text = (text.dropWhile isPySpace).rdropWhile isPySpace := rfl

lemma strip_of_ends {text : List Char} (hhead : ∀ c ∈ text.head?, isPySpace c = false)
    (hlast : ∀ c ∈ text.getLast?, isPySpace c = false) : strip text = text := by
  have hdrop : text.dropWhile isPySpace = text := by
    cases text with
    | nil => rfl
    | cons c rest => rw [List.dropWhile_cons_of_neg (by simp [hhead c rfl])]
  rw [strip_eq_rdropWhile, hdrop, List.rdropWhile_eq_self_iff]
  intro hne
  simp [hlast _ (List.getLast_mem_getLast? hne)]

lemma isPySpace_of_mem_head? {text : List Char} {c : Char} (h : c ∈ (strip text).head?) :
    isPySpace c = false := by
  obtain ⟨tail, htail⟩ : strip text <+: text.dropWhile isPySpace := List.rdropWhile_prefix _ _
  have hhead : (text.dropWhile isPySpace).head? = some c := by
    rw [← htail]
    exact List.mem_head?_append_of_mem_head? h
  have hnot := List.head?_dropWhile_not isPySpace text
  rwa [hhead] at hnot

lemma isPySpace_of_mem_getLast? {text : List Char} {c : Char} (h : c ∈ (strip text).getLast?) :
    isPySpace c = false := by
  obtain ⟨hne, rfl⟩ := List.mem_getLast?_eq_getLast h
  have hlast := List.rdropWhile_last_not isPySpace (text.dropWhile isPySpace) hne
  rwa [Bool.not_eq_true] at hlast

/-- The characters of a character after its case and a dash are folded. -/
def foldChar (c : Char) : List Char :=
  (lowerChar c).map fun c => if c = '-' then '_' else c

lemma foldChar_of_capital : ∀ n : Fin 26,
    foldChar (Char.ofNat (n + 97)) = [Char.ofNat (n + 97)] ∧
      isPySpace (Char.ofNat (n + 97)) = false ∧ Char.ofNat (n + 97) ≠ '-' := by
  decide

/-- What a character is folded to is not folded further, and is no space unless the character is
one. -/
lemma foldChar_of_mem {c d : Char} (h : d ∈ foldChar c) :
    foldChar d = [d] ∧ (isPySpace c = false → isPySpace d = false) := by
  unfold foldChar lowerChar at h
  split_ifs at h with hcapital hkelvin hdotted
  · obtain ⟨hfold, hspace, hdash⟩ := foldChar_of_capital ⟨c.toNat - 65, by omega⟩
    have hsum : c.toNat - 65 + 97 = c.toNat + 32 := by omega
    simp only [hsum] at hfold hspace hdash
    have hd : d = Char.ofNat (c.toNat + 32) := by simpa [hdash] using h
    rw [hd]
    exact ⟨hfold, fun _ => hspace⟩
  · have hd : d = 'k' := by simpa using h
    rw [hd]
    exact ⟨by decide, fun _ => by decide⟩
  · have hd : d = 'i' ∨ d = Char.ofNat 775 := by simpa using h
    rcases hd with rfl | rfl
    · exact ⟨by decide, fun _ => by decide⟩
    · exact ⟨by decide, fun _ => by decide⟩
  · by_cases hdash : c = '-'
    · have hd : d = '_' := by simpa [hdash] using h
      rw [hd]
      exact ⟨by decide, fun _ => by decide⟩
    · have hd : d = c := by simpa [hdash] using h
      rw [hd]
      refine ⟨?_, id⟩
      simp [foldChar, lowerChar, hcapital, hkelvin, hdotted, hdash]

lemma foldChar_ne_nil (c : Char) : foldChar c ≠ [] := by
  unfold foldChar lowerChar
  split_ifs <;> simp

lemma flatMap_foldChar_of_folded {text : List Char} (h : ∀ c ∈ text, foldChar c = [c]) :
    text.flatMap foldChar = text := by
  induction text with
  | nil => rfl
  | cons c rest ih =>
    rw [List.flatMap_cons, h c List.mem_cons_self, ih fun d hd => h d (List.mem_cons_of_mem _ hd)]
    rfl

/-- The text that a status is compared by. -/
def statusKey (text : List Char) : List Char := (strip text).flatMap foldChar

lemma statusKey_statusKey (text : List Char) : statusKey (statusKey text) = statusKey text := by
  have hspace : ∀ c d, isPySpace c = false → d ∈ foldChar c → isPySpace d = false :=
    fun c d hc hd => (foldChar_of_mem hd).2 hc
  have hstrip : strip (statusKey text) = statusKey text := by
    refine strip_of_ends (fun d hd => ?_) (fun d hd => ?_)
    · rcases hcs : strip text with _ | ⟨c, rest⟩
      · rw [statusKey, hcs] at hd
        cases hd
      · rw [statusKey, hcs, List.flatMap_cons,
          List.head?_append_of_ne_nil _ (foldChar_ne_nil c)] at hd
        have hc : c ∈ (strip text).head? := by simp [hcs]
        exact hspace c d (isPySpace_of_mem_head? hc) (List.mem_of_mem_head? hd)
    · rcases List.eq_nil_or_concat (strip text) with hcs | ⟨rest, c, hcs⟩
      · rw [statusKey, hcs] at hd
        cases hd
      · rw [statusKey, hcs, List.concat_eq_append, List.flatMap_append, List.flatMap_singleton,
          List.getLast?_append_of_ne_nil _ (foldChar_ne_nil c)] at hd
        have hc : c ∈ (strip text).getLast? := by simp [hcs]
        exact hspace c d (isPySpace_of_mem_getLast? hc) (List.mem_of_mem_getLast? hd)
  rw [statusKey, hstrip]
  refine flatMap_foldChar_of_folded fun d hd => ?_
  obtain ⟨c, -, hd⟩ := List.mem_flatMap.1 hd
  exact (foldChar_of_mem hd).1

/-- The status words, which are their own short form. -/
lemma shortStatus_of_term :
    ∀ word ∈ ["queued", "active", "blocked", "done", "failed", "aborted", "timeout"],
      shortStatus word = word := by
  decide

lemma statusKey_eq (status : String) :
    ((strip status.toList).flatMap lowerChar).map (fun c => if c = '-' then '_' else c) =
      statusKey status.toList := by
  rw [List.map_flatMap]
  rfl

lemma shortStatus_congr {status status' : String}
    (h : statusKey status.toList = statusKey status'.toList) :
    shortStatus status = shortStatus status' := by
  simp only [shortStatus, statusKey_eq, h]

lemma shortStatus_eq_or_mem (status : String) :
    shortStatus status = String.ofList (statusKey status.toList) ∨ shortStatus status ∈
      ["queued", "active", "blocked", "done", "failed", "aborted", "timeout"] := by
  simp only [shortStatus, statusKey_eq]
  split_ifs <;> simp

theorem shortStatus_idem (status : String) :
    shortStatus (shortStatus status) = shortStatus status := by
  rcases shortStatus_eq_or_mem status with h | h
  · refine shortStatus_congr ?_
    rw [h, String.toList_ofList, statusKey_statusKey]
  · exact shortStatus_of_term _ h

end OpencodeSession
