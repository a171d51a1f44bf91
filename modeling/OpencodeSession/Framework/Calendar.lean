import Mathlib.Data.Nat.Find
import Mathlib.Tactic.IntervalCases
import Mathlib.Tactic.Lemma

/-!
# The calendar

Dates of the years 1 to 9999 of the proleptic Gregorian calendar, counted in days; instants, counted
in microseconds, with the shifts that leave the calendar; and the texts of the standard format.
What is written of a second is read back (`Timestamp.ofChars?_chars`).
-/

namespace Calendar

/-! ## Days -/

/-- Whether a year is a leap year. -/
def isLeap (year : Nat) : Bool := year % 4 = 0 && (year % 100 ≠ 0 || year % 400 = 0)

/-- The number of days of a month. -/
def daysInMonth (year month : Nat) : Nat :=
  if month = 2 then if isLeap year then 29 else 28
  else if month = 4 ∨ month = 6 ∨ month = 9 ∨ month = 11 then 30
  else 31

/-- The number of days before the first of January of a year. -/
def daysBeforeYear (year : Nat) : Nat :=
  (year - 1) * 365 + (year - 1) / 4 - (year - 1) / 100 + (year - 1) / 400

/-- The number of days of a year before the first of a month. -/
def daysBeforeMonth (year month : Nat) : Nat :=
  ((List.range (month - 1)).map fun m => daysInMonth year (m + 1)).sum

/-- The number of days of the calendar. -/
def days : Nat := daysBeforeYear 10000

lemma daysBeforeMonth_succ {year month : Nat} (h : 1 ≤ month) :
    daysBeforeMonth year (month + 1) = daysBeforeMonth year month + daysInMonth year month := by
  obtain ⟨m, rfl⟩ := Nat.exists_eq_add_of_le' h
  simp [daysBeforeMonth, List.range_succ]

lemma isLeap_iff {year : Nat} :
    isLeap year = true ↔ 4 ∣ year ∧ (¬ 100 ∣ year ∨ 400 ∣ year) := by
  simp [isLeap, Nat.dvd_iff_mod_eq_zero]

lemma daysBeforeMonth_thirteen (year : Nat) :
    daysBeforeMonth year 13 = if isLeap year then 366 else 365 := by
  cases hleap : isLeap year <;>
    simp [daysBeforeMonth, List.range, List.range.loop, daysInMonth, hleap]

lemma daysBeforeYear_succ {year : Nat} (h : 1 ≤ year) :
    daysBeforeYear (year + 1) = daysBeforeYear year + daysBeforeMonth year 13 := by
  obtain ⟨y, rfl⟩ := Nat.exists_eq_add_of_le' h
  have h4 : y / 100 ≤ y / 4 := Nat.div_le_div_left (by omega) (by omega)
  rw [daysBeforeMonth_thirteen, daysBeforeYear, daysBeforeYear, Nat.add_sub_cancel,
    Nat.add_sub_cancel, Nat.succ_div, Nat.succ_div, Nat.succ_div]
  have h100 : 100 ∣ y + 1 → 4 ∣ y + 1 := fun h => Nat.dvd_trans (by decide) h
  have h400 : 400 ∣ y + 1 → 100 ∣ y + 1 := fun h => Nat.dvd_trans (by decide) h
  by_cases hleap : isLeap (y + 1) = true
  · obtain ⟨hfour, hor⟩ := isLeap_iff.1 hleap
    rw [if_pos hleap, if_pos hfour]
    by_cases hcentury : 100 ∣ y + 1
    · rw [if_pos hcentury, if_pos (hor.resolve_left (not_not.2 hcentury))]
      omega
    · rw [if_neg hcentury, if_neg (mt h400 hcentury)]
      omega
  · rw [if_neg hleap]
    rw [isLeap_iff, not_and_or, not_or, not_not] at hleap
    rcases hleap with hfour | ⟨hcentury, hnot⟩
    · rw [if_neg hfour, if_neg (mt h100 hfour), if_neg (mt h400 (mt h100 hfour))]
      omega
    · rw [if_pos (h100 hcentury), if_pos hcentury, if_neg hnot]
      omega

/-- A date. -/
structure Date where
  year : Nat
  month : Nat
  day : Nat
  year_pos : 1 ≤ year
  year_le : year ≤ 9999
  month_pos : 1 ≤ month
  month_le : month ≤ 12
  day_pos : 1 ≤ day
  day_le : day ≤ daysInMonth year month

/-- The date of a year, a month and a day, if there is one. -/
def Date.of? (year month day : Nat) : Option Date :=
  if h : (1 ≤ year ∧ year ≤ 9999) ∧ (1 ≤ month ∧ month ≤ 12) ∧ 1 ≤ day ∧
      day ≤ daysInMonth year month then
    some ⟨year, month, day, h.1.1, h.1.2, h.2.1.1, h.2.1.2, h.2.2.1, h.2.2.2⟩
  else none

@[simp] lemma Date.of?_self (date : Date) : Date.of? date.year date.month date.day = some date :=
  dif_pos ⟨⟨date.year_pos, date.year_le⟩, ⟨date.month_pos, date.month_le⟩, date.day_pos,
    date.day_le⟩

/-- The number of days before a date. -/
def Date.toDay (date : Date) : Nat :=
  daysBeforeYear date.year + daysBeforeMonth date.year date.month + (date.day - 1)

/-- The year a day belongs to. -/
def yearOf (day : Nat) : Nat := Nat.findGreatest (fun year => daysBeforeYear year ≤ day) 9999

/-- The month a day of a year belongs to. -/
def monthOf (year day : Nat) : Nat :=
  Nat.findGreatest (fun month => daysBeforeMonth year month ≤ day) 12

lemma yearOf_spec {day : Nat} (h : day < days) :
    1 ≤ yearOf day ∧ yearOf day ≤ 9999 ∧ daysBeforeYear (yearOf day) ≤ day ∧
      day < daysBeforeYear (yearOf day + 1) := by
  have hfirst : daysBeforeYear 1 ≤ day := Nat.zero_le _
  have hpos : 1 ≤ yearOf day := Nat.le_findGreatest (by omega) hfirst
  have hle : yearOf day ≤ 9999 := Nat.findGreatest_le _
  refine ⟨hpos, hle, Nat.findGreatest_spec (P := fun year => daysBeforeYear year ≤ day)
    (by omega : 1 ≤ 9999) hfirst, ?_⟩
  by_cases hlast : yearOf day = 9999
  · rw [hlast]
    exact h
  · exact not_le.1 (Nat.findGreatest_is_greatest (P := fun year => daysBeforeYear year ≤ day)
      (Nat.lt_succ_self _) (by unfold yearOf at *; omega))

lemma monthOf_spec {year day : Nat} (h : day < daysBeforeMonth year 13) :
    1 ≤ monthOf year day ∧ monthOf year day ≤ 12 ∧
      daysBeforeMonth year (monthOf year day) ≤ day ∧
      day < daysBeforeMonth year (monthOf year day + 1) := by
  have hfirst : daysBeforeMonth year 1 ≤ day := Nat.zero_le _
  have hpos : 1 ≤ monthOf year day := Nat.le_findGreatest (by omega) hfirst
  have hle : monthOf year day ≤ 12 := Nat.findGreatest_le _
  refine ⟨hpos, hle, Nat.findGreatest_spec (P := fun month => daysBeforeMonth year month ≤ day)
    (by omega : 1 ≤ 12) hfirst, ?_⟩
  by_cases hlast : monthOf year day = 12
  · rw [hlast]
    exact h
  · exact not_le.1 (Nat.findGreatest_is_greatest (P := fun month => daysBeforeMonth year month ≤ day)
      (Nat.lt_succ_self _) (by unfold monthOf at *; omega))

/-- The date of a day of the calendar. -/
def Date.ofDay (day : Nat) (h : day < days) : Date :=
  have hyear := yearOf_spec h
  have hrest : day - daysBeforeYear (yearOf day) < daysBeforeMonth (yearOf day) 13 := by
    rw [daysBeforeYear_succ hyear.1] at hyear
    omega
  have hmonth := monthOf_spec hrest
  { year := yearOf day
    month := monthOf (yearOf day) (day - daysBeforeYear (yearOf day))
    day := day - daysBeforeYear (yearOf day) -
      daysBeforeMonth (yearOf day) (monthOf (yearOf day) (day - daysBeforeYear (yearOf day))) + 1
    year_pos := hyear.1
    year_le := hyear.2.1
    month_pos := hmonth.1
    month_le := hmonth.2.1
    day_pos := Nat.le_add_left _ _
    day_le := by
      rw [daysBeforeMonth_succ hmonth.1] at hmonth
      omega }

theorem Date.toDay_ofDay {day : Nat} (h : day < days) : (Date.ofDay day h).toDay = day := by
  obtain ⟨hpos, -, hyear, hnext⟩ := yearOf_spec h
  rw [daysBeforeYear_succ hpos] at hnext
  have hrest : day - daysBeforeYear (yearOf day) < daysBeforeMonth (yearOf day) 13 := by omega
  obtain ⟨-, -, hmonth, -⟩ := monthOf_spec hrest
  simp only [toDay, ofDay]
  omega

/-! ## Instants -/

/-- The number of microseconds of a day. -/
def dayMicros : Nat := 86400 * 10 ^ 6

/-- The number of microseconds of the calendar. -/
def span : Nat := days * dayMicros

/-- An instant: the microseconds since the first midnight of the calendar, in universal time. -/
structure Instant where
  micros : Nat
  micros_lt : micros < span

namespace Instant

/-- The instant of a number of microseconds, if it is in the calendar. -/
def ofMicros? (micros : Int) : Option Instant :=
  if h : 0 ≤ micros ∧ micros < span then some ⟨micros.toNat, by omega⟩ else none

lemma isSome_ofMicros? {micros : Int} :
    (ofMicros? micros).isSome = true ↔ 0 ≤ micros ∧ micros < span := by
  unfold ofMicros?
  split_ifs with h
  · exact iff_of_true rfl h
  · exact iff_of_false (by simp) h

lemma micros_of_ofMicros? {micros : Int} {instant : Instant} (h : ofMicros? micros = some instant) :
    (instant.micros : Int) = micros := by
  unfold ofMicros? at h
  split_ifs at h with hrange
  obtain rfl := Option.some.inj h
  exact Int.toNat_of_nonneg hrange.1

@[simp] lemma ofMicros?_micros (instant : Instant) : ofMicros? instant.micros = some instant := by
  have hrange : (0 : Int) ≤ instant.micros ∧ (instant.micros : Int) < span :=
    ⟨Int.natCast_nonneg _, Int.ofNat_lt.2 instant.micros_lt⟩
  rw [ofMicros?, dif_pos hrange]
  rfl

lemma ofMicros?_eq_some {micros : Int} {instant : Instant} :
    ofMicros? micros = some instant ↔ (instant.micros : Int) = micros := by
  constructor
  · exact micros_of_ofMicros?
  · rintro rfl
    exact ofMicros?_micros instant

/-- The instant after a duration in microseconds, if it is in the calendar. -/
def add? (instant : Instant) (duration : Int) : Option Instant :=
  ofMicros? (instant.micros + duration)

end Instant

/-- A date with a time of the day, in microseconds, and the difference of its clock from universal
time, if it has one. -/
structure Timestamp where
  date : Date
  micros : Nat
  micros_lt : micros < dayMicros
  offset : Option Int

namespace Timestamp

/-- The instant that a timestamp names in universal time, as a number that may be outside of the
calendar.  A clock without a difference shows universal time. -/
def utcMicros (timestamp : Timestamp) : Int :=
  timestamp.date.toDay * dayMicros + timestamp.micros - timestamp.offset.getD 0

/-- The instant of a timestamp. -/
def utc? (timestamp : Timestamp) : Option Instant := Instant.ofMicros? timestamp.utcMicros

end Timestamp

/-! ## Texts -/

/-- The last digits of a number, the highest first. -/
def digits : Nat → Nat → List Char
  | 0, _ => []
  | width + 1, n => Nat.digitChar (n / 10 ^ width) :: digits width (n % 10 ^ width)

/-- Read digits after those that are read already, and what follows them. -/
def readDigits : Nat → Nat → List Char → Option (Nat × List Char)
  | 0, n, rest => some (n, rest)
  | _ + 1, _, [] => none
  | width + 1, n, c :: rest =>
    if c.isDigit then readDigits width (n * 10 + (c.toNat - 48)) rest else none

lemma digitChar_spec {n : Nat} (h : n < 10) :
    (Nat.digitChar n).isDigit = true ∧ (Nat.digitChar n).toNat - 48 = n := by
  interval_cases n <;> decide

/-- Digits that are written are read back. -/
lemma readDigits_digits {width n : Nat} (before : Nat) (rest : List Char) (h : n < 10 ^ width) :
    readDigits width before (digits width n ++ rest) = some (before * 10 ^ width + n, rest) := by
  induction width generalizing n before with
  | zero =>
    have hzero : n = 0 := by simpa using h
    subst hzero
    simp [digits, readDigits]
  | succ width ih =>
    have hfirst : n / 10 ^ width < 10 := Nat.div_lt_of_lt_mul (by rwa [pow_succ] at h)
    obtain ⟨hdigit, hvalue⟩ := digitChar_spec hfirst
    rw [digits, List.cons_append, readDigits, if_pos hdigit, hvalue,
      ih _ (Nat.mod_lt _ (by positivity))]
    have hsplit := Nat.div_add_mod n (10 ^ width)
    rw [Nat.add_mul, pow_succ, Nat.mul_assoc, Nat.mul_comm 10]
    congr 2
    rw [Nat.add_assoc, Nat.mul_comm (n / 10 ^ width), hsplit]

/-- Read one character. -/
def readChar (c : Char) : List Char → Option (List Char)
  | c' :: rest => if c' = c then some rest else none
  | [] => none

/-- Read the difference of a clock from universal time, in microseconds, up to the end. -/
def readOffset : List Char → Option (Option Int)
  | [] => some none
  | sign :: rest => do
    if sign ≠ '+' ∧ sign ≠ '-' then none
    else
      let (hours, rest) ← readDigits 2 0 rest
      let rest ← readChar ':' rest
      let (minutes, rest) ← readDigits 2 0 rest
      let micros : Int := ((hours * 60 + minutes) * 60 : Nat) * 10 ^ 6
      if rest ≠ [] ∨ micros ≥ dayMicros then none
      else some (some (if sign = '-' then -micros else micros))

namespace Timestamp

/-- The timestamp of a text such as `2026-01-31T23:59:59+01:00`, with or without the difference of
its clock. -/
def ofChars? (text : List Char) : Option Timestamp := do
  let (year, rest) ← readDigits 4 0 text
  let rest ← readChar '-' rest
  let (month, rest) ← readDigits 2 0 rest
  let rest ← readChar '-' rest
  let (day, rest) ← readDigits 2 0 rest
  let date ← Date.of? year month day
  let (hour, rest) ← readDigits 2 0 (rest.drop 1)
  let rest ← readChar ':' rest
  let (minute, rest) ← readDigits 2 0 rest
  let rest ← readChar ':' rest
  let (second, rest) ← readDigits 2 0 rest
  let offset ← readOffset rest
  if h : hour < 24 ∧ minute < 60 ∧ second < 60 then
    some ⟨date, ((hour * 60 + minute) * 60 + second) * 10 ^ 6, by unfold dayMicros; omega, offset⟩
  else none

/-- The timestamp of a second of the calendar, in universal time. -/
def ofSecond (second : Nat) (h : second < 86400 * days) : Timestamp where
  date := .ofDay (second / 86400) (Nat.div_lt_of_lt_mul h)
  micros := second % 86400 * 10 ^ 6
  micros_lt := by
    have hlt := Nat.mod_lt second (by omega : 0 < 86400)
    unfold dayMicros
    omega
  offset := some 0

/-- The text of a second of the calendar, without the difference of the clock. -/
def chars (second : Nat) (h : second < 86400 * days) : List Char :=
  let date := (ofSecond second h).date
  digits 4 date.year ++ '-' :: (digits 2 date.month ++ '-' :: (digits 2 date.day ++ 'T' ::
    (digits 2 (second % 86400 / 3600) ++ ':' :: (digits 2 (second % 3600 / 60) ++ ':' ::
      digits 2 (second % 60)))))

lemma utcMicros_ofSecond {second : Nat} (h : second < 86400 * days) :
    (ofSecond second h).utcMicros = second * 10 ^ 6 := by
  unfold utcMicros ofSecond dayMicros
  rw [Date.toDay_ofDay]
  have hsplit := Nat.div_add_mod second 86400
  simp only [Option.getD_some]
  omega

/-- What is written of a second is read back. -/
theorem ofChars?_chars {second : Nat} (h : second < 86400 * days) :
    ofChars? (chars second h ++ "+00:00".toList) = some (ofSecond second h) := by
  have hyear : (ofSecond second h).date.year < 10 ^ 4 :=
    Nat.lt_of_le_of_lt (ofSecond second h).date.year_le (by decide)
  have hmonth : (ofSecond second h).date.month < 10 ^ 2 :=
    Nat.lt_of_le_of_lt (ofSecond second h).date.month_le (by decide)
  have hday : (ofSecond second h).date.day < 10 ^ 2 := by
    have hle := (ofSecond second h).date.day_le
    unfold daysInMonth at hle
    split_ifs at hle <;> omega
  have hhour : second % 86400 / 3600 < 24 := by omega
  have hminute : second % 3600 / 60 < 60 := by omega
  have hsecond : second % 60 < 60 := by omega
  have hread : ∀ {width n : Nat} (rest : List Char), n < 10 ^ width →
      readDigits width 0 (digits width n ++ rest) = some (n, rest) := by
    intro width n rest hn
    rw [readDigits_digits 0 rest hn, Nat.zero_mul, Nat.zero_add]
  have hoffset : readOffset "+00:00".toList = some (some 0) := by decide
  have htime : ((second % 86400 / 3600 * 60 + second % 3600 / 60) * 60 + second % 60) * 10 ^ 6 =
      second % 86400 * 10 ^ 6 := by omega
  unfold ofChars? chars
  simp only [List.append_assoc, List.cons_append, hread _ hyear, hread _ hmonth, hread _ hday,
    hread _ (show second % 86400 / 3600 < 10 ^ 2 by omega),
    hread _ (show second % 3600 / 60 < 10 ^ 2 by omega),
    hread _ (show second % 60 < 10 ^ 2 by omega), hoffset, readChar, if_true, Option.bind_eq_bind,
    Option.bind_some, Date.of?_self, List.drop_succ_cons, List.drop_zero,
    dif_pos (show second % 86400 / 3600 < 24 ∧ second % 3600 / 60 < 60 ∧ second % 60 < 60 from
      ⟨hhour, hminute, hsecond⟩), htime]
  rfl

end Timestamp

end Calendar
