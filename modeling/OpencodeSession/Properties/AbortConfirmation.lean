import OpencodeSession.Session.BlockingTimeout

/-!
# When a confirmed abort is one

An abort after a time-out counts as accepted although the response refuses it when the refusal is
not where `abort_record` looks: it takes the first of the flags that is there, and the first of the
status and the state, while the check that the acceptance is explicit takes any of them, refusals
included.  `RefusalDecides` is when a refusal is seen, and with a refusal this is exactly when the
abort is not reported as accepted (`confirms_of_accepted_iff`).
-/

namespace OpencodeSession

/-- Some flag or status word of a response says that the abort was accepted, or that it was not. -/
def SaysAccepted (response : JsonValue) (accepted : Bool) : Prop :=
  (∃ key ∈ abortFlags, boolValue (response.get key) = some accepted) ∨
    ∃ key ∈ ["status", "state"], abortStatusAccepts (response.get key) = some accepted

/-- A response confirms an abort: it is true, or an object that says that the abort was accepted
and nowhere that it was not. -/
def ConfirmsAbort (response : JsonValue) : Prop :=
  response = .bool true ∨
    (response.isObj = true ∧ SaysAccepted response true ∧ ¬SaysAccepted response false)

/-- The refusal of a response decides: the first flag that is there refuses the abort, or says
nothing while the first of the status and the state refuses it, or nothing that the program looks
at says anything. -/
def RefusalDecides (response : JsonValue) : Prop :=
  boolValue (firstPresent response abortFlags) = some false ∨
    (boolValue (firstPresent response abortFlags) = none ∧
      (abortStatusAccepts (firstPresent response ["status", "state"]) = some false ∨
        (abortStatusAccepts (firstPresent response ["status", "state"]) = none ∧
          abortAcceptanceIsExplicit response = false)))

section

variable {str : JsonValue → String} {sessionId : String} {response : JsonValue}

lemma firstPresent_eq (response : JsonValue) (names : List String) :
    firstPresent response names = .null ∨ ∃ name ∈ names, firstPresent response names =
      response.get name := by
  cases hfind : (names.map response.get).find? fun value => !value.isNull with
  | none => exact .inl (by rw [firstPresent, hfind, Option.getD_none])
  | some value =>
    obtain ⟨name, hname, rfl⟩ := List.mem_map.1 (List.mem_of_find?_eq_some hfind)
    exact .inr ⟨name, hname, by rw [firstPresent, hfind, Option.getD_some]⟩

lemma exists_flag_of_first {accepted : Bool}
    (h : boolValue (firstPresent response abortFlags) = some accepted) :
    ∃ key ∈ abortFlags, boolValue (response.get key) = some accepted := by
  rcases firstPresent_eq response abortFlags with hnull | ⟨key, hkey, heq⟩
  · rw [hnull] at h
    cases h
  · exact ⟨key, hkey, heq ▸ h⟩

lemma truthy_of_abortStatusAccepts {status : JsonValue}
    (h : (abortStatusAccepts status).isSome = true) :
    status.truthy = true ∧ status.isNull = false := by
  cases status with
  | str s =>
    refine ⟨?_, rfl⟩
    by_contra hs
    obtain rfl : s = "" := by simpa [JsonValue.truthy] using hs
    exact absurd h (by decide)
  | _ => cases h

/-- The status that `abort_record` reads makes an acceptance explicit if it is a status word. -/
lemma isExplicit_of_status (hobj : response.isObj = true)
    (h : (abortStatusAccepts (firstPresent response ["status", "state"])).isSome = true) :
    abortAcceptanceIsExplicit response = true := by
  have hfirst : firstPresent response ["status", "state"] =
      if (response.get "status").isNull then response.get "state" else response.get "status" := by
    cases hstatus : (response.get "status").isNull <;>
      cases hstate : (response.get "state").isNull <;>
        simp_all [firstPresent, JsonValue.isNull]
    cases hvalue : response.get "state" <;> simp_all
  have hstatus : firstPresent response ["status", "state"] =
      if (response.get "status").truthy then response.get "status" else response.get "state" := by
    rw [hfirst]
    rw [hfirst] at h
    by_cases hnull : (response.get "status").isNull = true
    · have hnot : (response.get "status").truthy = false := by
        cases hvalue : response.get "status" <;> simp_all [JsonValue.isNull, JsonValue.truthy]
      simp [hnull, hnot]
    · rw [if_neg hnull] at h ⊢
      rw [if_pos (truthy_of_abortStatusAccepts h).1]
  simp only [abortAcceptanceIsExplicit, hobj, Bool.true_and, Bool.or_eq_true]
  exact .inr (hstatus ▸ h)

/-- An acceptance is explicit only if the response says something. -/
lemma says_of_isExplicit (h : abortAcceptanceIsExplicit response = true) :
    response.isObj = true ∧ (SaysAccepted response true ∨ SaysAccepted response false) := by
  obtain ⟨hobj, hsays⟩ := Bool.and_eq_true_iff.1 h
  refine ⟨hobj, ?_⟩
  rcases Bool.or_eq_true_iff.1 hsays with hflag | hstatus
  · obtain ⟨key, hkey, hsome⟩ := List.any_eq_true.1 hflag
    obtain ⟨accepted, haccepted⟩ := Option.isSome_iff_exists.1 hsome
    cases accepted with
    | true => exact .inl (.inl ⟨key, hkey, haccepted⟩)
    | false => exact .inr (.inl ⟨key, hkey, haccepted⟩)
  · obtain ⟨accepted, haccepted⟩ := Option.isSome_iff_exists.1 hstatus
    obtain ⟨key, hkey, hword⟩ : ∃ key ∈ ["status", "state"],
        abortStatusAccepts (response.get key) = some accepted := by
      split_ifs at haccepted
      · exact ⟨"status", by simp, haccepted⟩
      · exact ⟨"state", by simp, haccepted⟩
    cases accepted with
    | true => exact .inl (.inr ⟨key, hkey, hword⟩)
    | false => exact .inr (.inr ⟨key, hkey, hword⟩)

lemma abortTimedOutSession_obj (fields : List (String × JsonValue)) :
    abortTimedOutSession str sessionId (.ok (.obj fields)) = none ↔
      abortAcceptanceIsExplicit (.obj fields) = true ∧ ((boolValue
        (firstPresent (.obj fields) abortFlags)).orElse fun _ => abortStatusAccepts
          (firstPresent (.obj fields) ["status", "state"])).getD true = true := by
  have haccepted : (abortRecord sessionId (.obj fields)).get "accepted" = .bool (((boolValue
      (firstPresent (.obj fields) abortFlags)).orElse fun _ => abortStatusAccepts
        (firstPresent (.obj fields) ["status", "state"])).getD true) := rfl
  simp only [abortTimedOutSession, haccepted, JsonValue.truthy]
  split_ifs <;> simp_all

lemma accepted_iff_not_refusalDecides (fields : List (String × JsonValue)) :
    abortTimedOutSession str sessionId (.ok (.obj fields)) = none ↔
      abortAcceptanceIsExplicit (.obj fields) = true ∧ ¬RefusalDecides (.obj fields) := by
  rw [abortTimedOutSession_obj, RefusalDecides]
  refine and_congr_right fun hexplicit => ?_
  rcases boolValue (firstPresent (.obj fields) abortFlags) with _ | _ | _
  · rcases abortStatusAccepts (firstPresent (.obj fields) ["status", "state"]) with _ | _ | _ <;>
      simp [hexplicit]
  · simp
  · simp

lemma refusalDecides_of_not_explicit (hobj : response.isObj = true)
    (h : abortAcceptanceIsExplicit response = false) : RefusalDecides response := by
  have hflag : boolValue (firstPresent response abortFlags) = none := by
    by_contra hsome
    obtain ⟨accepted, haccepted⟩ := Option.ne_none_iff_exists'.1 hsome
    obtain ⟨key, hkey, hvalue⟩ := exists_flag_of_first haccepted
    have hany : abortFlags.any (fun key => (boolValue (response.get key)).isSome) = true :=
      List.any_eq_true.2 ⟨key, hkey, by rw [hvalue]; rfl⟩
    simp [abortAcceptanceIsExplicit, hobj, hany] at h
  refine .inr ⟨hflag, .inr ⟨?_, h⟩⟩
  by_contra hsome
  have hexplicit := isExplicit_of_status hobj (Option.isSome_iff_ne_none.2 hsome)
  rw [h] at hexplicit
  cases hexplicit

lemma not_saysAccepted_of_not_isObj (h : response.isObj = false) (accepted : Bool) :
    ¬SaysAccepted response accepted := by
  have hnull : ∀ key, response.get key = .null := by
    intro key
    cases response with
    | obj fields => cases h
    | _ => rfl
  rintro (⟨key, -, hkey⟩ | ⟨key, -, hkey⟩)
  · rw [hnull] at hkey
    cases hkey
  · rw [hnull] at hkey
    cases hkey

lemma eq_true_of_accepted (hobj : response.isObj = false)
    (h : abortTimedOutSession str sessionId (.ok response) = none) : response = .bool true := by
  cases response with
  | obj fields => cases hobj
  | bool accepted =>
    cases accepted with
    | true => rfl
    | false =>
      have hnot := (accepted_iff_not_refusalDecides [("accepted", .bool false)]).1 h
      exact absurd (.inl rfl) hnot.2
  | _ => cases h

/-- An abort that is reported as accepted was confirmed if and only if a refusal in the response, if
there is one, decides. -/
theorem confirms_of_accepted_iff :
    (abortTimedOutSession str sessionId (.ok response) = none → ConfirmsAbort response) ↔
      (SaysAccepted response false → RefusalDecides response) := by
  by_cases hobj : response.isObj = true
  · obtain ⟨fields, rfl⟩ : ∃ fields, response = .obj fields := by
      cases response with
      | obj fields => exact ⟨fields, rfl⟩
      | _ => cases hobj
    rw [accepted_iff_not_refusalDecides]
    constructor
    · intro h hrefused
      by_contra hnot
      have hexplicit : abortAcceptanceIsExplicit (.obj fields) = true := by
        by_contra hfalse
        exact hnot (refusalDecides_of_not_explicit rfl (by simpa using hfalse))
      rcases h ⟨hexplicit, hnot⟩ with htrue | ⟨-, -, hclear⟩
      · cases htrue
      · exact hclear hrefused
    · rintro h ⟨hexplicit, hnot⟩
      have hclear : ¬SaysAccepted (.obj fields) false := fun hrefused => hnot (h hrefused)
      rcases (says_of_isExplicit hexplicit).2 with hsays | hsays
      · exact .inr ⟨rfl, hsays, hclear⟩
      · exact absurd hsays hclear
  · rw [Bool.not_eq_true] at hobj
    exact ⟨fun _ hrefused => absurd hrefused (not_saysAccepted_of_not_isObj hobj false),
      fun _ haccepted => .inl (eq_true_of_accepted hobj haccepted)⟩

/-- A refusal behind a flag that says nothing is taken for an acceptance. -/
theorem accepted_of_hidden_refusal :
    abortTimedOutSession (fun _ => "") "ses_1"
        (.ok (.obj [("accepted", .str "pending"), ("ok", .bool false)])) = none ∧
      ¬ConfirmsAbort (.obj [("accepted", .str "pending"), ("ok", .bool false)]) := by
  refine ⟨by decide, ?_⟩
  rintro (htrue | ⟨-, -, hclear⟩)
  · cases htrue
  · exact hclear (.inl ⟨"ok", by decide, by decide⟩)

end

end OpencodeSession
