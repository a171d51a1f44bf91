import Mathlib.Algebra.Order.Ring.Int
import Mathlib.Tactic.SplitIfs
import OpencodeSession.Store.Snapshot

/-!
# Canonical values

What the conversions of a persisted worker refuse, and that its coercions and its canonical form
agree: a coerced value is canonical (`canonicalValue_of_coerced`), a canonical value is its own
canonical form (`canonicalValue_idem`), and coercing it changes nothing (`coerced_of_canonical`).
-/

namespace OpencodeSession

open Except

/-! ## Numbers -/

lemma floatLimit_pos : 0 < floatLimit :=
  Nat.sub_pos_of_lt (Nat.pow_lt_pow_right Nat.one_lt_two (by omega))

lemma floatIsFinite_zero (exponent : Int) : floatIsFinite 0 exponent = true := by
  unfold floatIsFinite
  split
  · simpa using floatLimit_pos
  · have hpos := Nat.mul_pos floatLimit_pos (Nat.two_pow_pos (-exponent).toNat)
    simpa using hpos

lemma JsonValue.truthy_of_isInfinite {value : JsonValue} (h : value.isInfinite = true) :
    value.truthy = true := by
  cases value with
  | float mantissa exponent =>
    have hne : mantissa ≠ 0 := by
      rintro rfl
      simp [isInfinite, floatIsFinite_zero] at h
    simpa [truthy] using hne
  | nonFinite value => rfl
  | _ => cases h

lemma JsonValue.isInfinite_orElse (value : JsonValue) (n : Int) :
    (value.orElse (.int n)).isInfinite = value.isInfinite := by
  unfold orElse
  split_ifs with htruthy
  · rfl
  · rw [Bool.not_eq_true] at htruthy
    cases hinfinite : value.isInfinite with
    | false => rfl
    | true => rw [truthy_of_isInfinite hinfinite] at htruthy; cases htruthy

lemma succeeds_orOnTypeOrValueError {α : Type} {r : Except PyError α} {a : α} :
    (orOnTypeOrValueError r a).Succeeds ↔ ∀ e, r = .error e → e.isTypeOrValueError = true := by
  cases r with
  | ok b => simp [orOnTypeOrValueError, Succeeds]
  | error e =>
    simp only [orOnTypeOrValueError, error.injEq, forall_eq']
    split_ifs with h
    · exact ⟨fun _ => h, fun _ => succeeds_ok a⟩
    · exact ⟨fun hs => absurd hs (not_succeeds_error e), fun he => absurd he h⟩

/-- `int` fails with another error than the caught ones on the infinities only. -/
lemma Interpreter.succeeds_int (py : Interpreter) (value : JsonValue) (n : Int) :
    (orOnTypeOrValueError (py.int value) n).Succeeds ↔ value.isInfinite = false := by
  rw [succeeds_orOnTypeOrValueError]
  cases value with
  | float mantissa exponent =>
    by_cases h : floatIsFinite mantissa exponent = true
    · simp [int, h, JsonValue.isInfinite]
    · simp [int, h, JsonValue.isInfinite, PyError.overflowError, PyError.isTypeOrValueError]
  | nonFinite value =>
    cases value <;>
      simp [int, JsonValue.isInfinite, PyError.overflowError, PyError.isTypeOrValueError]
  | str s =>
    cases h : py.intOf s <;> simp [int, h, JsonValue.isInfinite, PyError.isTypeOrValueError]
  | _ => simp [int, JsonValue.isInfinite, PyError.isTypeOrValueError]

/-! ## Time-outs -/

/-- Whether a value is an integer that no float is near to. -/
def JsonValue.isHugeInt : JsonValue → Bool
  | .int n => floatLimit ≤ n.natAbs
  | _ => false

namespace FieldSpec

variable {py : Interpreter} {spec : FieldSpec} {value value' : JsonValue}

lemma not_canonicalTimeoutSeconds_error {spec : FieldSpec} :
    canonicalTimeoutSeconds.notPositive spec ≠ .ok value := by
  intro h
  cases h

/-- A whole number among the floats is positive and no larger than they are. -/
lemma wholeNumber_spec {mantissa exponent n : Int} (hfinite : floatIsFinite mantissa exponent = true)
    (hpos : 0 < mantissa) (hn : wholeNumber? mantissa exponent = some n) :
    0 < n ∧ n.natAbs < floatLimit := by
  unfold wholeNumber? at hn
  unfold floatIsFinite at hfinite
  split_ifs at hn hfinite with hexp hdvd
  · cases hn
    have hpow : (0 : Int) < 2 ^ exponent.toNat := Int.pow_pos (by omega)
    refine ⟨Int.mul_pos hpos hpow, ?_⟩
    have habs : (mantissa * 2 ^ exponent.toNat).natAbs = mantissa.natAbs * 2 ^ exponent.toNat := by
      rw [Int.natAbs_mul, Int.natAbs_pow]
      rfl
    rw [habs]
    exact of_decide_eq_true hfinite
  · cases hn
    have hpow : (0 : Int) < 2 ^ (-exponent).toNat := Int.pow_pos (by omega)
    obtain ⟨q, hq⟩ := Int.dvd_of_emod_eq_zero hdvd
    rw [hq, Int.mul_ediv_cancel_left _ hpow.ne']
    have hqpos : 0 < q := by
      rw [hq] at hpos
      exact (pos_iff_pos_of_mul_pos hpos).1 hpow
    refine ⟨hqpos, ?_⟩
    have habs : mantissa.natAbs = q.natAbs * 2 ^ (-exponent).toNat := by
      rw [hq, Int.natAbs_mul, Int.natAbs_pow, Nat.mul_comm]
      rfl
    rw [habs] at hfinite
    exact Nat.lt_of_mul_lt_mul_right (of_decide_eq_true hfinite)

/-- A canonical time-out is its own canonical form. -/
lemma canonicalTimeoutSeconds_idem (h : spec.canonicalTimeoutSeconds value = .ok value') :
    spec.canonicalTimeoutSeconds value' = .ok value' := by
  unfold canonicalTimeoutSeconds at h
  split at h
  · cases h
    rfl
  · next n =>
    split_ifs at h with hlimit hpos
    · exact absurd h not_canonicalTimeoutSeconds_error
    · cases h
      simp [canonicalTimeoutSeconds, hlimit, hpos]
  · next mantissa exponent =>
    split_ifs at h with hbad
    · exact absurd h not_canonicalTimeoutSeconds_error
    · have hbad' := hbad
      simp only [Bool.or_eq_true, Bool.not_eq_true', decide_eq_true_eq, not_or,
        Bool.not_eq_false, not_le] at hbad'
      split at h
      · next n hn =>
        cases h
        obtain ⟨hpos, hlimit⟩ := wholeNumber_spec hbad'.1 hbad'.2 hn
        simp only [canonicalTimeoutSeconds, if_neg (Nat.not_le.2 hlimit), if_neg (not_le.2 hpos)]
      · next hn =>
        cases h
        simp only [canonicalTimeoutSeconds, if_neg hbad, hn]
  · exact absurd h not_canonicalTimeoutSeconds_error
  · cases h

/-- Only an integer can fail to be a time-out with an error that is not caught. -/
lemma succeeds_canonicalTimeoutSeconds (value : JsonValue) :
    (orOnTypeOrValueError (spec.canonicalTimeoutSeconds value) .null).Succeeds ↔
      value.isHugeInt = false := by
  have hnotPositive : (orOnTypeOrValueError (canonicalTimeoutSeconds.notPositive spec)
      JsonValue.null).Succeeds := succeeds_ok _
  rw [canonicalTimeoutSeconds.eq_def]
  cases value with
  | int n =>
    simp only [JsonValue.isHugeInt]
    split_ifs with hlimit hpos
    · simp [hlimit, orOnTypeOrValueError, PyError.overflowError, PyError.isTypeOrValueError,
        not_succeeds_error]
    · simpa [hlimit] using hnotPositive
    · exact iff_of_true (succeeds_ok (JsonValue.int n)) (by simp [hlimit])
  | float mantissa exponent =>
    simp only [JsonValue.isHugeInt, iff_true]
    split_ifs
    · exact hnotPositive
    · split
      · exact succeeds_ok _
      · exact succeeds_ok _
  | nonFinite number => simpa [JsonValue.isHugeInt] using hnotPositive
  | _ => exact iff_of_true (succeeds_ok JsonValue.null) rfl

lemma orOnTypeOrValueError_eq_ok {α : Type} {r : Except PyError α} {a b : α}
    (h : orOnTypeOrValueError r a = .ok b) : r = .ok b ∨ b = a := by
  cases r with
  | ok b' =>
    cases h
    exact .inl rfl
  | error e =>
    simp only [orOnTypeOrValueError] at h
    split_ifs at h
    cases h
    exact .inr rfl

lemma isHugeInt_toJson (number : PyFloat) : number.toJson.isHugeInt = false := by
  cases number <;> rfl

lemma succeeds_coerceStorageTimeoutSeconds :
    (spec.coerceStorageTimeoutSeconds py value).Succeeds ↔ value.isHugeInt = false := by
  unfold coerceStorageTimeoutSeconds
  split
  · exact succeeds_canonicalTimeoutSeconds _
  · exact succeeds_canonicalTimeoutSeconds _
  · exact succeeds_canonicalTimeoutSeconds _
  · next s =>
    split
    · next number _ =>
      have hnumber : (orOnTypeOrValueError (spec.canonicalTimeoutSeconds number.toJson)
          .null).Succeeds :=
        (succeeds_canonicalTimeoutSeconds _).2 (isHugeInt_toJson number)
      simpa [JsonValue.isHugeInt] using hnumber
    · simpa [JsonValue.isHugeInt] using succeeds_ok JsonValue.null
  · next hint _ _ _ =>
    have hhuge : value.isHugeInt = false := by
      cases value with
      | int n => exact absurd rfl (hint n)
      | _ => rfl
    simpa [hhuge] using succeeds_ok JsonValue.null

/-- What a stored time-out is coerced to is canonical. -/
lemma canonicalTimeoutSeconds_of_coerced (h : spec.coerceStorageTimeoutSeconds py value = .ok value') :
    spec.canonicalTimeoutSeconds value' = .ok value' := by
  have hcaught : ∀ v, orOnTypeOrValueError (spec.canonicalTimeoutSeconds v) .null = .ok value' →
      spec.canonicalTimeoutSeconds value' = .ok value' := by
    intro v hv
    rcases orOnTypeOrValueError_eq_ok hv with hv | rfl
    · exact canonicalTimeoutSeconds_idem hv
    · rfl
  unfold coerceStorageTimeoutSeconds at h
  split at h
  · exact hcaught _ h
  · exact hcaught _ h
  · exact hcaught _ h
  · split at h
    · exact hcaught _ h
    · cases h
      rfl
  · cases h
    rfl

lemma coerceStorageTimeoutSeconds_of_canonical (h : spec.canonicalTimeoutSeconds value = .ok value) :
    spec.coerceStorageTimeoutSeconds py value = .ok value := by
  cases value with
  | null => rfl
  | int n => simp only [coerceStorageTimeoutSeconds, h, orOnTypeOrValueError]
  | float mantissa exponent => simp only [coerceStorageTimeoutSeconds, h, orOnTypeOrValueError]
  | nonFinite number => exact absurd h not_canonicalTimeoutSeconds_error
  | _ => cases h

end FieldSpec

/-! ## Canonical values -/

namespace FieldSpec

variable {py : Interpreter} {spec spec' : FieldSpec} {value value' : JsonValue}

lemma canonicalAcceptedValue_eq_ok {accepted : List String} :
    spec.canonicalAcceptedValue py accepted value = .ok value' ↔
      value' = value ∧ ∃ word ∈ accepted, value = .str word := by
  unfold canonicalAcceptedValue
  constructor
  · intro h
    split_ifs at h with haccepted
    · cases h
      obtain ⟨word, hword, heq⟩ := List.any_eq_true.1 haccepted
      exact ⟨rfl, word, hword, JsonValue.pyEq_str.1 heq⟩
  · rintro ⟨rfl, word, hword, rfl⟩
    rw [if_pos (List.any_eq_true.2 ⟨word, hword, JsonValue.pyEq_str.2 rfl⟩)]

/-- The canonical form of a time-out does not depend on the name of its field. -/
lemma canonicalTimeoutSeconds_congr (h : spec.canonicalTimeoutSeconds value = .ok value') :
    spec'.canonicalTimeoutSeconds value = .ok value' := by
  unfold canonicalTimeoutSeconds at h ⊢
  split at h
  · exact h
  · split_ifs at h ⊢
    · exact absurd h not_canonicalTimeoutSeconds_error
    · exact h
  · split_ifs at h ⊢
    · exact absurd h not_canonicalTimeoutSeconds_error
    · exact h
  · exact absurd h not_canonicalTimeoutSeconds_error
  · cases h

theorem canonicalValue_idem (h : spec.canonicalValue py value = .ok value') :
    spec.canonicalValue py value' = .ok value' := by
  unfold canonicalValue at h ⊢
  cases hvalidator : spec.validator with
  | any => rfl
  | id =>
    rw [hvalidator] at h
    dsimp only at h
    split at h
    · split_ifs at h with hne
      cases h
      simp only [if_pos hne]
    · cases h
  | int =>
    rw [hvalidator] at h
    dsimp only at h
    split at h
    · cases h
      rfl
    · cases h
  | lifecycleState =>
    rw [hvalidator] at h
    obtain ⟨rfl, hword⟩ := canonicalAcceptedValue_eq_ok.1 h
    exact h
  | list =>
    rw [hvalidator] at h
    dsimp only at h
    split at h
    · cases h
      rfl
    · cases h
  | timeoutSeconds =>
    rw [hvalidator] at h
    exact canonicalTimeoutSeconds_idem h
  | timeoutPolicy =>
    rw [hvalidator] at h
    obtain ⟨rfl, hword⟩ := canonicalAcceptedValue_eq_ok.1 h
    exact h

end FieldSpec

namespace Snapshot

variable {py : Interpreter} {spec : FieldSpec} {value value' : JsonValue}

/-- What migrating makes of the value of a field that is there. -/
def coerced (py : Interpreter) : FieldValidator → JsonValue → Except PyError JsonValue
  | .int => coercedStorageInt py
  | .list => coercedList
  | .timeoutSeconds => coercedTimeoutSeconds py
  | .timeoutPolicy => coercedTimeoutPolicy py
  | _ => Except.ok

/-- Whether a value can be coerced for a validator. -/
def IsCoercible : FieldValidator → JsonValue → Prop
  | .int, value => value.isInfinite = false
  | .timeoutSeconds, value => value.isHugeInt = false
  | _, _ => True

lemma succeeds_coerced {validator : FieldValidator} :
    (coerced py validator value).Succeeds ↔ IsCoercible validator value := by
  cases validator with
  | int =>
    show (coercedStorageInt py value).Succeeds ↔ value.isInfinite = false
    rw [← JsonValue.isInfinite_orElse value 0, ← py.succeeds_int _ 0]
    constructor
    · rintro ⟨_, h⟩
      obtain ⟨n, hn, -⟩ := map_eq_ok.1 h
      exact ⟨n, hn⟩
    · rintro ⟨n, hn⟩
      exact ⟨.int n, map_eq_ok.2 ⟨n, hn, rfl⟩⟩
  | list =>
    refine iff_of_true ?_ trivial
    show (coercedList value).Succeeds
    unfold coercedList
    split
    · exact succeeds_ok _
    · exact succeeds_ok _
  | timeoutSeconds => exact FieldSpec.succeeds_coerceStorageTimeoutSeconds
  | timeoutPolicy =>
    refine iff_of_true ?_ trivial
    show (coercedTimeoutPolicy py value).Succeeds
    unfold coercedTimeoutPolicy
    split
    · exact succeeds_ok _
    · exact succeeds_ok _
  | _ => exact iff_of_true (succeeds_ok value) trivial

/-- A coerced value is canonical, for the validators that coerce or take every value. -/
theorem canonicalValue_of_coerced (hid : spec.validator ≠ .id)
    (hstate : spec.validator ≠ .lifecycleState)
    (h : coerced py spec.validator value = .ok value') :
    spec.canonicalValue py value' = .ok value' := by
  unfold FieldSpec.canonicalValue
  cases hvalidator : spec.validator with
  | any => rfl
  | id => exact absurd hvalidator hid
  | lifecycleState => exact absurd hvalidator hstate
  | int =>
    rw [hvalidator] at h
    obtain ⟨n, -, rfl⟩ := map_eq_ok.1 h
    rfl
  | list =>
    rw [hvalidator] at h
    change coercedList value = .ok value' at h
    unfold coercedList at h
    split at h
    · cases h
      rfl
    · cases h
      rfl
  | timeoutSeconds =>
    rw [hvalidator] at h
    exact FieldSpec.canonicalTimeoutSeconds_congr (FieldSpec.canonicalTimeoutSeconds_of_coerced h)
  | timeoutPolicy =>
    rw [hvalidator] at h
    refine FieldSpec.canonicalAcceptedValue_eq_ok.2 ⟨rfl, ?_⟩
    change coercedTimeoutPolicy py value = .ok value' at h
    unfold coercedTimeoutPolicy at h
    split at h
    · next policy _ =>
      cases h
      split_ifs with hpolicy
      · exact ⟨policy, hpolicy, rfl⟩
      · exact ⟨"timeout", by decide, rfl⟩
    · cases h
      exact ⟨"timeout", by decide, rfl⟩

lemma shortStatus_of_timeoutPolicy :
    ∀ policy ∈ timeoutPolicyNames, OpencodeSession.shortStatus policy = policy := by
  decide

theorem coerced_of_canonical (h : spec.canonicalValue py value = .ok value) :
    coerced py spec.validator value = .ok value := by
  unfold FieldSpec.canonicalValue at h
  cases hvalidator : spec.validator with
  | int =>
    rw [hvalidator] at h
    dsimp only at h
    split at h
    · next n =>
      by_cases hn : n = 0
      · subst hn
        rfl
      · simp [coerced, coercedStorageInt, JsonValue.orElse, JsonValue.truthy, hn, Interpreter.int,
          orOnTypeOrValueError]
    · cases h
  | list =>
    rw [hvalidator] at h
    dsimp only at h
    split at h
    · rfl
    · cases h
  | timeoutSeconds =>
    rw [hvalidator] at h
    exact FieldSpec.coerceStorageTimeoutSeconds_of_canonical
      (FieldSpec.canonicalTimeoutSeconds_congr h)
  | timeoutPolicy =>
    rw [hvalidator] at h
    obtain ⟨-, policy, hpolicy, rfl⟩ := FieldSpec.canonicalAcceptedValue_eq_ok.1 h
    have hshort : py.shortStatus (.str policy) = some policy :=
      congrArg some (shortStatus_of_timeoutPolicy policy hpolicy)
    simp only [coerced, coercedTimeoutPolicy, hshort, if_pos hpolicy]
  | _ => rfl

end Snapshot

end OpencodeSession
