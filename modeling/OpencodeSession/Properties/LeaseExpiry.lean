import Mathlib.Algebra.Order.Archimedean.Real.Basic
import OpencodeSession.Framework.Rounding
import OpencodeSession.Framework.Traces
import OpencodeSession.Orchestration.Requests

/-!
# When the lease of an attempt expires

A worker with a time-out holds a lease while it is active, and recovery times out the attempts whose
lease is over.  The end of a lease is computed in the calendar, and nothing bounds what is added:
a time-out may be longer than the calendar, a start may be written in a clock that leads out of it.
`recoveryReturns_iff` says that recovery, and with it the commands that recover, return just when
this happens nowhere, and the record is not fenced off while there is something to recover.

Both ends of the comparison are whole seconds, and the time-out is rounded to microseconds, through
a product of floating point numbers (`TimeoutSeconds.abs_micros_sub_le`).  What is certain of an
expired lease is therefore that the whole seconds are the rounded time-out apart
(`elapsed_of_expired`), which is less than a second short of the time that has passed.
-/

namespace OpencodeSession

open Calendar Except

/-! ## Time-outs -/

/-- The seconds of a time-out. -/
noncomputable def TimeoutSeconds.seconds (timeout : TimeoutSeconds) : ℝ :=
  timeout.mantissa * 2 ^ timeout.exponent

lemma abs_fractionMicros_sub_le {places fraction : ℕ} (h : fraction < 2 ^ places) :
    |(fractionMicros places fraction : ℝ) / 2 ^ places - fraction * 10 ^ 6 / 2 ^ places| ≤
      1 / 2 ^ 34 := by
  have hbits : fraction * 10 ^ 6 < 2 ^ (places + 20) := by
    calc fraction * 10 ^ 6 < 2 ^ places * 10 ^ 6 := Nat.mul_lt_mul_of_pos_right h (by decide)
      _ ≤ 2 ^ places * 2 ^ 20 := Nat.mul_le_mul_left _ (by decide)
      _ = 2 ^ (places + 20) := (Nat.pow_add 2 places 20).symm
  have hnear : |(fractionMicros places fraction : ℝ) / 2 ^ places -
      (fraction * 10 ^ 6 : ℕ) / 2 ^ places| ≤ 1 / 2 ^ (33 + 1) :=
    Rounding.abs_significant_div_sub_le (by decide) (by decide : 53 = 20 + 33) (by omega) hbits
  rwa [Nat.cast_mul, Nat.cast_pow, Nat.cast_ofNat] at hnear

/-- What `timedelta` makes of a time-out is off by half a microsecond at most, and by the error of
the product. -/
lemma TimeoutSeconds.abs_micros_sub_le (timeout : TimeoutSeconds) :
    |(timeout.micros : ℝ) - timeout.seconds * 10 ^ 6| ≤ 1 / 2 + 1 / 2 ^ 34 := by
  unfold seconds micros
  split_ifs with hexponent
  · have hpower : (2 : ℝ) ^ timeout.exponent = 2 ^ timeout.exponent.toNat := by
      rw [← zpow_natCast, Int.toNat_of_nonneg hexponent]
    have hexact : (timeout.mantissa * 2 ^ timeout.exponent.toNat * 10 ^ 6 : ℕ) -
        (timeout.mantissa : ℝ) * 2 ^ timeout.exponent.toNat * 10 ^ 6 = 0 := by
      push_cast
      ring
    rw [hpower, hexact, abs_zero]
    positivity
  · obtain ⟨places, hplaces⟩ := Int.eq_ofNat_of_zero_le (by omega : 0 ≤ -timeout.exponent)
    have hpower : (2 : ℝ) ^ timeout.exponent = 1 / 2 ^ places := by
      rw [← neg_neg timeout.exponent, hplaces, zpow_neg, zpow_natCast, one_div]
    rw [hplaces, Int.toNat_natCast, hpower]
    dsimp only
    have hunit : 0 < 2 ^ places := Nat.pow_pos (by decide)
    have hsplit : timeout.mantissa / 2 ^ places * 2 ^ places + timeout.mantissa % 2 ^ places =
        timeout.mantissa := by
      rw [Nat.mul_comm, Nat.div_add_mod]
    have hproduct := abs_fractionMicros_sub_le (Nat.mod_lt timeout.mantissa hunit)
    have hround : |(_ : ℝ) - _| ≤ 1 / 2 := Rounding.abs_halfEven_sub_le
      (timeout.mantissa / 2 ^ places * 10 ^ 6 * 2 ^ places +
        fractionMicros places (timeout.mantissa % 2 ^ places)) hunit
    generalize timeout.mantissa / 2 ^ places = whole at hsplit hround ⊢
    generalize timeout.mantissa % 2 ^ places = fraction at hsplit hproduct hround ⊢
    generalize Rounding.halfEven _ (2 ^ places) = rounded at hround ⊢
    -- the whole seconds are the same on both sides
    have hwhole : ((whole * 10 ^ 6 * 2 ^ places + fractionMicros places fraction : ℕ) : ℝ) /
        (2 ^ places : ℕ) - timeout.mantissa * (1 / 2 ^ places) * 10 ^ 6 =
          fractionMicros places fraction / 2 ^ places - fraction * 10 ^ 6 / 2 ^ places := by
      rw [← hsplit]
      push_cast
      field_simp
      ring
    rw [← hwhole] at hproduct
    exact (abs_sub_le _ _ _).trans (add_le_add hround hproduct)

/-- The time-out `3.5e-06` is below three and a half microseconds, and its product is not. -/
example : (TimeoutSeconds.mk 8264141345021879 (-71) "3.5e-06" (by decide)).micros = 4 := rfl

namespace LeaseExpiry

variable {datetime : Datetime} {worker : WorkerRecord} {attempt value : JsonValue} {now : String}
  {timeout : TimeoutSeconds} {run : Run}

/-! ## Instants -/

/-- The value names an instant of the calendar, if it shows a timestamp at all. -/
def InCalendar (datetime : Datetime) (value : JsonValue) : Prop :=
  ∀ timestamp, readTimestamp datetime value = some timestamp →
    0 ≤ timestamp.utcMicros ∧ timestamp.utcMicros < span

lemma orOutOfRange_eq_ok {found : Option Instant} {instant : Instant} :
    orOutOfRange found = .ok instant ↔ found = some instant := by
  unfold orOutOfRange
  cases found with
  | none => exact iff_of_false nofun nofun
  | some found => rw [Except.ok.injEq, Option.some.injEq]

lemma succeeds_orOutOfRange {found : Option Instant} :
    (orOutOfRange found).Succeeds ↔ found.isSome = true := by
  rw [Option.isSome_iff_exists]
  exact exists_congr fun _ => orOutOfRange_eq_ok

lemma parseInstant_eq_ok {instant : Option Instant} (h : parseInstant datetime value = .ok instant) :
    (readTimestamp datetime value).map Timestamp.utcMicros =
      instant.map fun instant => (instant.micros : Int) := by
  unfold parseInstant at h
  cases hread : readTimestamp datetime value with
  | none =>
    rw [hread] at h
    obtain rfl := Except.ok.inj h
    rfl
  | some timestamp =>
    rw [hread] at h
    obtain ⟨found, hfound, rfl⟩ := map_eq_ok.1 h
    rw [Option.map_some, Option.map_some,
      Instant.micros_of_ofMicros? (orOutOfRange_eq_ok.1 hfound)]

lemma succeeds_parseInstant :
    (parseInstant datetime value).Succeeds ↔ InCalendar datetime value := by
  unfold parseInstant InCalendar
  cases readTimestamp datetime value with
  | none => exact iff_of_true (succeeds_ok _) (by nofun)
  | some timestamp =>
    dsimp only
    rw [succeeds_map, succeeds_orOutOfRange, Timestamp.utc?, Instant.isSome_ofMicros?]
    constructor
    · rintro h _ ⟨⟩
      exact h
    · exact fun h => h timestamp rfl

lemma timedelta_eq_ok {duration : Nat} : timeout.timedelta = .ok duration ↔
    timeout.micros < 10 ^ 9 * dayMicros ∧ duration = timeout.micros := by
  have hdays : timeout.micros < 10 ^ 9 * dayMicros ↔ timeout.micros / dayMicros < 10 ^ 9 :=
    (Nat.div_lt_iff_lt_mul (by unfold dayMicros; positivity)).symm
  rw [hdays]
  unfold TimeoutSeconds.timedelta
  generalize timeout.micros / dayMicros = days
  dsimp only
  split_ifs with hlarge hlong
  · exact iff_of_false (by simp) fun h => by omega
  · exact iff_of_false (by simp) fun h => by omega
  · have hfew : days < 10 ^ 9 := by omega
    rw [Except.ok.injEq, eq_comm, and_iff_right hfew]

lemma addDuration_eq_ok {instant instant' : Instant} {duration : Nat} :
    addDuration instant duration = .ok instant' ↔
      instant'.micros = instant.micros + duration := by
  rw [addDuration, orOutOfRange_eq_ok, Instant.add?, Instant.ofMicros?_eq_some]
  omega

/-! ## The end of a lease -/

/-- The timestamp that shows when an attempt started. -/
def startedAt? (datetime : Datetime) (worker : WorkerRecord) (attempt : JsonValue) :
    Option Timestamp :=
  (readTimestamp datetime worker.timeoutStartedAt).orElse fun _ =>
    readTimestamp datetime (attempt.get "started_at")

/-- The calendar has room for the lease of an attempt. -/
structure LeaseFits (datetime : Datetime) (worker : WorkerRecord) (attempt : JsonValue)
    (timeout : TimeoutSeconds) : Prop where
  /-- The start that the worker shows is in the calendar. -/
  worker_start : InCalendar datetime worker.timeoutStartedAt
  /-- So is the start that the attempt shows, where it counts. -/
  attempt_start : readTimestamp datetime worker.timeoutStartedAt = none →
    InCalendar datetime (attempt.get "started_at")
  /-- So is the end of the lease. -/
  ends : ∀ started, startedAt? datetime worker attempt = some started →
    timeout.micros < 10 ^ 9 * dayMicros ∧ started.utcMicros + timeout.micros < span

lemma attemptStartedAt_eq_ok {instant : Option Instant}
    (h : attemptStartedAt datetime worker attempt = .ok instant) :
    (startedAt? datetime worker attempt).map Timestamp.utcMicros =
      instant.map fun instant => (instant.micros : Int) := by
  obtain ⟨first, hfirst, h⟩ := bind_eq_ok.1 h
  have hread := parseInstant_eq_ok hfirst
  unfold startedAt?
  cases first with
  | some found =>
    obtain rfl := Except.ok.inj h
    obtain ⟨timestamp, htimestamp, hmicros⟩ := Option.map_eq_some_iff.1 hread
    rw [htimestamp, Option.orElse_some, Option.map_some, hmicros]
    rfl
  | none =>
    rw [Option.map_none, Option.map_eq_none_iff] at hread
    rw [hread, Option.orElse_none]
    exact parseInstant_eq_ok h

lemma succeeds_attemptStartedAt : (attemptStartedAt datetime worker attempt).Succeeds ↔
    InCalendar datetime worker.timeoutStartedAt ∧
      (readTimestamp datetime worker.timeoutStartedAt = none →
        InCalendar datetime (attempt.get "started_at")) := by
  unfold attemptStartedAt
  rw [succeeds_bind, ← succeeds_parseInstant, ← succeeds_parseInstant]
  constructor
  · rintro ⟨first, hfirst, h⟩
    refine ⟨⟨first, hfirst⟩, fun hnone => ?_⟩
    have hread := parseInstant_eq_ok hfirst
    rw [hnone, Option.map_none, eq_comm, Option.map_eq_none_iff] at hread
    subst hread
    exact h
  · rintro ⟨⟨first, hfirst⟩, h⟩
    refine ⟨first, hfirst, ?_⟩
    have hread := parseInstant_eq_ok hfirst
    cases first with
    | some found => exact succeeds_ok _
    | none =>
      rw [Option.map_none, Option.map_eq_none_iff] at hread
      exact h hread

/-- Whether the lease is over can be decided if the calendar has room for it. -/
lemma succeeds_activeAttemptLeaseExpired {nowInstant : Option Instant} :
    (activeAttemptLeaseExpired datetime worker attempt nowInstant).Succeeds ↔
      (nowInstant.isSome = true → ∀ timeout, worker.timeoutSeconds = some timeout →
        LeaseFits datetime worker attempt timeout) := by
  unfold activeAttemptLeaseExpired
  cases htimeout : worker.timeoutSeconds with
  | none => exact iff_of_true (succeeds_ok _) (by nofun)
  | some timeout =>
    cases nowInstant with
    | none => exact iff_of_true (succeeds_ok _) (by nofun)
    | some nowInstant =>
      dsimp only
      rw [succeeds_bind]
      constructor
      · rintro ⟨started, hstarted, h⟩ - _ ⟨⟩
        obtain ⟨hworker, hattempt⟩ := succeeds_attemptStartedAt.1 ⟨started, hstarted⟩
        refine ⟨hworker, hattempt, fun timestamp htimestamp => ?_⟩
        have hread := attemptStartedAt_eq_ok hstarted
        rw [htimestamp, Option.map_some] at hread
        obtain ⟨instant, rfl, hmicros⟩ := Option.map_eq_some_iff.1 hread.symm
        obtain ⟨duration, hduration, h⟩ := succeeds_bind.1 h
        obtain ⟨expires, hexpires, -⟩ := succeeds_bind.1 h
        obtain ⟨hshort, rfl⟩ := timedelta_eq_ok.1 hduration
        have hsum := addDuration_eq_ok.1 hexpires
        have hlt := expires.micros_lt
        exact ⟨hshort, by omega⟩
      · intro h
        obtain ⟨hworker, hattempt, hends⟩ := h rfl timeout rfl
        obtain ⟨started, hstarted⟩ := succeeds_attemptStartedAt.2 ⟨hworker, hattempt⟩
        refine ⟨started, hstarted, ?_⟩
        have hread := attemptStartedAt_eq_ok hstarted
        cases started with
        | none => exact succeeds_ok _
        | some instant =>
          obtain ⟨timestamp, htimestamp, hmicros⟩ := Option.map_eq_some_iff.1 hread
          obtain ⟨hshort, hlt⟩ := hends timestamp htimestamp
          rw [hmicros] at hlt
          dsimp only at hlt
          have hfits : instant.micros + timeout.micros < span := by omega
          refine succeeds_bind.2 ⟨_, timedelta_eq_ok.2 ⟨hshort, rfl⟩, ?_⟩
          exact succeeds_bind.2 ⟨⟨instant.micros + timeout.micros, hfits⟩,
            addDuration_eq_ok.2 rfl, succeeds_ok _⟩

/-- The lease is over when its end is not after the instant at which it is asked, and when there is
no start. -/
lemma activeAttemptLeaseExpired_eq_true {nowInstant : Option Instant} {expired : Bool}
    (h : activeAttemptLeaseExpired datetime worker attempt nowInstant = .ok expired) :
    expired = true ↔ ∃ timeout instant, worker.timeoutSeconds = some timeout ∧
      nowInstant = some instant ∧ ∀ started, startedAt? datetime worker attempt = some started →
        started.utcMicros + timeout.micros ≤ instant.micros := by
  unfold activeAttemptLeaseExpired at h
  cases htimeout : worker.timeoutSeconds with
  | none =>
    rw [htimeout] at h
    obtain rfl := Except.ok.inj h
    exact iff_of_false (by decide) (by rintro ⟨_, _, ⟨⟩, -⟩)
  | some timeout =>
    cases nowInstant with
    | none =>
      rw [htimeout] at h
      obtain rfl := Except.ok.inj h
      exact iff_of_false (by decide) (by rintro ⟨_, _, -, ⟨⟩, -⟩)
    | some nowInstant =>
      rw [htimeout] at h
      obtain ⟨started, hstarted, h⟩ := bind_eq_ok.1 h
      have hread := attemptStartedAt_eq_ok hstarted
      -- an attempt whose start cannot be read has expired
      cases started with
      | none =>
        obtain rfl := Except.ok.inj h
        rw [Option.map_none, Option.map_eq_none_iff] at hread
        exact iff_of_true rfl ⟨timeout, nowInstant, rfl, rfl, by rw [hread]; nofun⟩
      | some instant =>
        obtain ⟨duration, hduration, h⟩ := bind_eq_ok.1 h
        obtain ⟨expires, hexpires, hdecide⟩ := bind_eq_ok.1 h
        obtain ⟨-, rfl⟩ := timedelta_eq_ok.1 hduration
        have hsum := addDuration_eq_ok.1 hexpires
        obtain ⟨timestamp, htimestamp, hmicros⟩ := Option.map_eq_some_iff.1 hread
        rw [← Except.ok.inj hdecide, decide_eq_true_eq]
        constructor
        · intro hle
          refine ⟨timeout, nowInstant, rfl, rfl, fun started hstarted => ?_⟩
          obtain rfl := Option.some.inj (htimestamp.symm.trans hstarted)
          rw [hmicros]
          dsimp only
          omega
        · rintro ⟨_, _, ⟨⟩, ⟨⟩, hle⟩
          have hle := hle timestamp htimestamp
          rw [hmicros] at hle
          dsimp only at hle
          omega

/-! ## Recovery -/

/-- The running attempt of a worker, with its time-out and what the clock shows. -/
structure Leased (datetime : Datetime) (worker : WorkerRecord) (now : String)
    (attempt : JsonValue) (timeout : TimeoutSeconds) (shown : Timestamp) : Prop where
  /-- The attempt is running. -/
  running : recoverableActiveAttempt worker = some attempt
  /-- The worker has the time-out. -/
  limited : worker.timeoutSeconds = some timeout
  /-- The clock shows the timestamp. -/
  clock : readTimestamp datetime (.str now) = some shown

/-- The lease of the worker's running attempt is over. -/
def Expired (datetime : Datetime) (now : String) (worker : WorkerRecord) : Prop :=
  ∃ attempt timeout shown, Leased datetime worker now attempt timeout shown ∧
    ∀ started, startedAt? datetime worker attempt = some started →
      started.utcMicros + timeout.micros ≤ shown.utcMicros

/-- The calendar has room for the clock and for every lease. -/
def RecoveryFits (datetime : Datetime) (workers : List WorkerRecord) (now : String) : Prop :=
  InCalendar datetime (.str now) ∧
    ∀ worker ∈ workers, ∀ attempt timeout shown,
      Leased datetime worker now attempt timeout shown →
        LeaseFits datetime worker attempt timeout

section Recover

variable {nowInstant : Option Instant}

lemma succeeds_recoverWorker (hnow : parseInstant datetime (.str now) = .ok nowInstant) :
    (recoverWorker datetime now nowInstant worker).Succeeds ↔
      ∀ attempt timeout shown, Leased datetime worker now attempt timeout shown →
        LeaseFits datetime worker attempt timeout := by
  have hread := parseInstant_eq_ok hnow
  unfold recoverWorker
  cases hattempt : recoverableActiveAttempt worker with
  | none =>
    refine iff_of_true (succeeds_ok _) fun attempt timeout shown hleased => ?_
    have hrunning := hleased.running
    rw [hattempt] at hrunning
    cases hrunning
  | some attempt =>
    dsimp only
    rw [succeeds_bind]
    have hexpired : (∃ expired,
        activeAttemptLeaseExpired datetime worker attempt nowInstant = .ok expired ∧
          (pure (if expired then some (timeoutActiveAttempt worker attempt now) else none) :
            Except PyError _).Succeeds) ↔
        (activeAttemptLeaseExpired datetime worker attempt nowInstant).Succeeds :=
      exists_congr fun _ => and_iff_left (succeeds_ok _)
    rw [hexpired, succeeds_activeAttemptLeaseExpired]
    constructor
    · rintro h _ timeout shown ⟨hrunning, hlimited, hclock⟩
      obtain rfl := Option.some.inj (hattempt.symm.trans hrunning)
      refine h ?_ timeout hlimited
      rw [hclock] at hread
      obtain ⟨instant, rfl, -⟩ := Option.map_eq_some_iff.1 hread.symm
      rfl
    · intro h hsome timeout hlimited
      obtain ⟨instant, rfl⟩ := Option.isSome_iff_exists.1 hsome
      obtain ⟨shown, hclock, -⟩ := Option.map_eq_some_iff.1 hread
      exact h attempt timeout shown ⟨hattempt, hlimited, hclock⟩

/-- What is recovered is what has expired. -/
lemma isSome_recoverWorker {recovery : Option ActiveAttemptRecovery}
    (hnow : parseInstant datetime (.str now) = .ok nowInstant)
    (h : recoverWorker datetime now nowInstant worker = .ok recovery) :
    recovery.isSome = true ↔ Expired datetime now worker := by
  have hread := parseInstant_eq_ok hnow
  unfold recoverWorker at h
  cases hattempt : recoverableActiveAttempt worker with
  | none =>
    rw [hattempt] at h
    obtain rfl := Except.ok.inj h
    refine iff_of_false (by decide) ?_
    rintro ⟨attempt, timeout, shown, hleased, -⟩
    have hrunning := hleased.running
    rw [hattempt] at hrunning
    cases hrunning
  | some attempt =>
    rw [hattempt] at h
    obtain ⟨expired, hexpired, h⟩ := bind_eq_ok.1 h
    have hsome : recovery.isSome = expired := by
      rw [← Except.ok.inj h]
      cases expired <;> rfl
    rw [hsome, activeAttemptLeaseExpired_eq_true hexpired]
    constructor
    · rintro ⟨timeout, instant, hlimited, rfl, hover⟩
      obtain ⟨shown, hclock, hmicros⟩ := Option.map_eq_some_iff.1 hread
      exact ⟨attempt, timeout, shown, ⟨hattempt, hlimited, hclock⟩, by rwa [hmicros]⟩
    · rintro ⟨_, timeout, shown, ⟨hrunning, hlimited, hclock⟩, hover⟩
      obtain rfl := Option.some.inj (hattempt.symm.trans hrunning)
      rw [hclock] at hread
      obtain ⟨instant, rfl, hmicros⟩ := Option.map_eq_some_iff.1 hread.symm
      exact ⟨timeout, instant, hlimited, rfl, by rwa [hmicros]⟩

end Recover

lemma succeeds_recoverExpiredActiveAttempts {workers : List WorkerRecord} :
    (recoverExpiredActiveAttempts datetime workers now).Succeeds ↔
      RecoveryFits datetime workers now := by
  unfold recoverExpiredActiveAttempts RecoveryFits
  rw [succeeds_bind, ← succeeds_parseInstant]
  constructor
  · rintro ⟨nowInstant, hnow, h⟩
    obtain ⟨recoveries, hrecoveries, -⟩ := succeeds_bind.1 h
    exact ⟨⟨nowInstant, hnow⟩, fun worker hworker =>
      (succeeds_recoverWorker hnow).1 (succeeds_mapM.1 ⟨recoveries, hrecoveries⟩ worker hworker)⟩
  · rintro ⟨⟨nowInstant, hnow⟩, h⟩
    obtain ⟨recoveries, hrecoveries⟩ := succeeds_mapM.2 fun worker hworker =>
      (succeeds_recoverWorker hnow).2 (h worker hworker)
    exact ⟨nowInstant, hnow, succeeds_bind.2 ⟨recoveries, hrecoveries, succeeds_ok _⟩⟩

/-- Something is recovered when a lease is over. -/
lemma isEmpty_eq_false_of_recoveries {workers : List WorkerRecord}
    {recoveries : List ActiveAttemptRecovery}
    (h : recoverExpiredActiveAttempts datetime workers now = .ok recoveries) :
    recoveries.isEmpty = false ↔ ∃ worker ∈ workers, Expired datetime now worker := by
  obtain ⟨nowInstant, hnow, h⟩ := bind_eq_ok.1 h
  obtain ⟨results, hresults, h⟩ := bind_eq_ok.1 h
  obtain rfl := Except.ok.inj h
  rw [Bool.eq_false_iff, ne_eq, List.isEmpty_iff, List.filterMap_eq_nil_iff]
  constructor
  · intro hsome
    push Not at hsome
    obtain ⟨result, hresult, hsome⟩ := hsome
    obtain ⟨worker, hworker, hrecover⟩ := exists_item_of_mem_mapM hresults hresult
    exact ⟨worker, hworker,
      (isSome_recoverWorker hnow hrecover).1 (Option.isSome_iff_ne_none.2 hsome)⟩
  · rintro ⟨worker, hworker, hexpired⟩ hnone
    obtain ⟨result, hresult, hrecover⟩ := exists_value_of_mem_mapM hresults hworker
    have hsome := (isSome_recoverWorker hnow hrecover).2 hexpired
    obtain rfl : result = none := hnone result hresult
    cases hsome

/-! ## The commands that recover -/

instance (request : Request) : Inhabited request.Answer :=
  match request with
  | .updateRun _ => ⟨.rejected default⟩
  | .now | .newId | .newMessageId => ⟨""⟩
  | .requireTime => ⟨false⟩
  | .loadRun | .createRun _ _ _ | .probe _ | .createSession _ | .executePrompt _
  | .abortSession _ | .deleteSession _ | .getSession _ => ⟨.error default⟩

/-- How a store that does not fail answers an update while nobody else writes. -/
def updateAnswer (stored : Run) (now : String) (mutation : RunMutation) : UpdateAnswer :=
  if stored.cleanupInProgress then
    .rejected (.runStore
      s!"run '{stored.name}' has cleanup in progress; mutation is temporarily fenced" "conflict")
  else match mutation.apply now stored with
    | .ok left => .committed now stored left.normalize
    | .error raised => .rejected raised

/-- How such a store answers, and the clock.  Recovery asks for nothing but the run, the clock and
one update. -/
def storeAnswer (stored : Run) (now : String) : (request : Request) → request.Answer
  | .loadRun => .ok stored
  | .now => now
  | .updateRun mutation => updateAnswer stored now mutation
  | _ => default

/-- A command returns, with a store that answers so. -/
def Returns {α : Type} (stored : Run) (now : String) (command : Command α) : Prop :=
  (Process.evaluate (fun call : Call => storeAnswer stored now call.request) command).Succeeds

section Returns

variable {α β : Type} {stored : Run}

lemma returns_ofExcept {result : Except PyError α} :
    Returns stored now (.ofExcept result) ↔ result.Succeeds := by
  rw [Returns, Process.evaluate_ofExcept, succeeds_mapError]

lemma returns_ofExcept_bind {result : Except PyError α} {rest : α → Command β} :
    Returns stored now (.ofExcept result >>= rest) ↔
      ∃ value, result = .ok value ∧ Returns stored now (rest value) := by
  cases result with
  | ok value =>
    constructor
    · exact fun h => ⟨value, rfl, h⟩
    · rintro ⟨_, ⟨⟩, h⟩
      exact h
  | error raised => exact iff_of_false (not_succeeds_error _) (by rintro ⟨_, ⟨⟩, -⟩)

lemma returns_bind_pure {command : Command α} {f : α → β} :
    Returns stored now (command >>= fun value => pure (f value)) ↔
      Returns stored now command := by
  unfold Returns
  rw [Process.evaluate_bind]
  exact succeeds_map (f := f)

lemma returns_persist {phase : Phase} {mutation : RunMutation} :
    Returns stored now (Command.persist phase mutation) ↔
      stored.cleanupInProgress = false ∧ (mutation.apply now stored).Succeeds := by
  show Returns stored now (.ofExcept ((updateAnswer stored now mutation).toExcept.map
    fun result => result.2.2)) ↔ _
  rw [returns_ofExcept]
  unfold updateAnswer
  by_cases hfence : stored.cleanupInProgress = true
  · rw [if_pos hfence]
    exact iff_of_false (not_succeeds_error _) fun h => by simp [hfence] at h
  · rw [if_neg hfence]
    cases mutation.apply now stored with
    | ok left => exact iff_of_true (succeeds_ok _) ⟨by simpa using hfence, succeeds_ok _⟩
    | error raised => exact iff_of_false (not_succeeds_error _) fun h => not_succeeds_error _ h.2

end Returns

lemma of_recovered {transition : WorkerTransition}
    (hattempt : recoverableActiveAttempt worker = some attempt)
    (h : transition = (timeoutActiveAttempt worker attempt now).transition) :
    transition.workerId = worker.id ∧ worker.transitionIsLegal transition = true ∧
      ∀ patch, transition.payload ≠ .snapshotApplied patch := by
  have heffect := attemptEffect worker (.failed .timeout worker.timeoutReason none) now
  have hactive : worker.lifecycleState = .activeWait := by
    by_contra hstate
    rw [recoverableActiveAttempt, if_neg hstate] at hattempt
    cases hattempt
  subst h
  exact ⟨rfl, heffect.legal rfl (.inl hactive), heffect.ne_snapshotApplied⟩

/-- Each worker is recovered once, in the order in which they are asked. -/
lemma workerIds_recoveries {workers : List WorkerRecord} {recoveries : List ActiveAttemptRecovery}
    (h : recoverExpiredActiveAttempts datetime workers now = .ok recoveries) :
    (recoveries.map fun recovery => recovery.transition.workerId).Sublist
      (workers.map WorkerRecord.id) := by
  obtain ⟨nowInstant, -, hmapped⟩ := bind_eq_ok.1 h
  obtain ⟨results, hresults, hvalue⟩ := bind_eq_ok.1 hmapped
  obtain rfl := Except.ok.inj hvalue
  rw [mapM_eq_ok] at hresults
  clear h hmapped hvalue
  induction hresults with
  | nil => exact .slnil
  | @cons worker result workers results hresult _ ih =>
    cases result with
    | none => exact ih.cons _
    | some recovery =>
      obtain ⟨attempt, hattempt, rfl⟩ := Flow.recoverWorker_eq_some hresult
      exact ih.cons_cons _

/-- What was recovered of a run can be applied to it. -/
lemma succeeds_applyRecoveries {recoveries : List ActiveAttemptRecovery}
    (h : recoverExpiredActiveAttempts datetime run.sortedWorkers now = .ok recoveries) :
    ((RunMutation.applyTransitions (recoveries.map ActiveAttemptRecovery.transition)).apply now
      run).Succeeds := by
  have hnodup : ((recoveries.map ActiveAttemptRecovery.transition).map
      WorkerTransition.workerId).Nodup := by
    rw [List.map_map]
    exact (workerIds_recoveries h).nodup (Run.nodup_sortedWorkers run)
  have hlegal : ∀ transition ∈ recoveries.map ActiveAttemptRecovery.transition,
      (run.latestWorker transition.workerId).transitionIsLegal transition = true ∧
        ∀ patch, transition.payload ≠ .snapshotApplied patch := by
    intro transition htransition
    obtain ⟨recovery, hrecovery, rfl⟩ := List.mem_map.1 htransition
    obtain ⟨worker, hworker, attempt, hattempt, rfl⟩ := Flow.mem_recoveries h hrecovery
    obtain ⟨hid, hlegal, hpayload⟩ := of_recovered hattempt rfl
    rw [hid, Run.latestWorker_of_get? (Run.mem_sortedWorkers.1 hworker)]
    exact ⟨hlegal, hpayload⟩
  obtain ⟨run', hrun'⟩ := Run.applyTransitions_of_legal (fun t ht => (hlegal t ht).2) hnodup
    fun t ht => (hlegal t ht).1
  exact succeeds_bind.2 ⟨run', hrun', succeeds_ok _⟩

/-- There is room for recovery, and the record is open if there is something to recover. -/
def RecoveryPossible (datetime : Datetime) (run : Run) (now : String) : Prop :=
  RecoveryFits datetime run.sortedWorkers now ∧
    (run.cleanupInProgress = true → ∀ worker ∈ run.sortedWorkers, ¬ Expired datetime now worker)

/-- A command that recovers the stale attempts of a run and then persists them. -/
lemma returns_recover_bind {α : Type} {rest : List ActiveAttemptRecovery → Command α}
    (hnone : ∀ recoveries : List ActiveAttemptRecovery, recoveries.isEmpty = true →
      Returns run now (rest recoveries))
    (hsome : ∀ recoveries : List ActiveAttemptRecovery, recoveries.isEmpty = false →
      (Returns run now (rest recoveries) ↔ run.cleanupInProgress = false ∧
        ((RunMutation.applyTransitions (recoveries.map ActiveAttemptRecovery.transition)).apply now
          run).Succeeds)) :
    Returns run now (.ofExcept (recoverExpiredActiveAttempts datetime run.sortedWorkers now) >>=
      rest) ↔ RecoveryPossible datetime run now := by
  rw [returns_ofExcept_bind, RecoveryPossible, ← succeeds_recoverExpiredActiveAttempts]
  constructor
  · rintro ⟨recoveries, hrecoveries, h⟩
    refine ⟨⟨recoveries, hrecoveries⟩, fun hfence worker hworker hexpired => ?_⟩
    have hempty := (isEmpty_eq_false_of_recoveries hrecoveries).2 ⟨worker, hworker, hexpired⟩
    have hopen := ((hsome recoveries hempty).1 h).1
    rw [hfence] at hopen
    cases hopen
  · rintro ⟨⟨recoveries, hrecoveries⟩, hfence⟩
    refine ⟨recoveries, hrecoveries, ?_⟩
    by_cases hempty : recoveries.isEmpty = true
    · exact hnone recoveries hempty
    · rw [Bool.not_eq_true] at hempty
      obtain ⟨worker, hworker, hexpired⟩ := (isEmpty_eq_false_of_recoveries hrecoveries).1 hempty
      refine (hsome recoveries hempty).2 ⟨?_, succeeds_applyRecoveries hrecoveries⟩
      by_contra hclosed
      exact hfence (by simpa using hclosed) worker hworker hexpired

lemma returns_loadRun :
    Returns run now (Commands.loadRun datetime) ↔ RecoveryPossible datetime run now := by
  show Returns run now (.ofExcept (recoverExpiredActiveAttempts datetime run.sortedWorkers now) >>=
    fun recoveries => if recoveries.isEmpty then pure run
      else Command.persist .serving
        (.applyTransitions (recoveries.map ActiveAttemptRecovery.transition))) ↔ _
  refine returns_recover_bind (fun recoveries hempty => ?_) fun recoveries hempty => ?_
  · rw [if_pos hempty]
    exact succeeds_ok _
  · rw [hempty, if_neg (by decide), returns_persist]

lemma returns_recover :
    Returns run now (Flow.recover datetime run) ↔ RecoveryPossible datetime run now := by
  show Returns run now (.ofExcept (recoverExpiredActiveAttempts datetime run.sortedWorkers now) >>=
    fun recoveries => if recoveries.isEmpty then pure (run, none)
      else Command.persist (.recovering none)
          (.applyTransitions (recoveries.map ActiveAttemptRecovery.transition)) >>=
        fun saved => pure (saved, recoveries.findSome? ActiveAttemptRecovery.error)) ↔ _
  refine returns_recover_bind (fun recoveries hempty => ?_) fun recoveries hempty => ?_
  · rw [if_pos hempty]
    exact succeeds_ok _
  · rw [hempty, if_neg (by decide), returns_bind_pure, returns_persist]

/-- A worker at work since a second of 2024, with a time-out of a million million seconds. -/
def endlessWorker : WorkerRecord where
  id := ⟨"w", by decide⟩
  prompt := some "do it"
  lifecycleState := .activeWait
  timeoutSeconds := some (.ofNat (10 ^ 12) (by decide))
  timeoutStartedAt := .str "2024-01-01T00:00:00Z"
  attempts := some [.obj [("id", .str "attempt-1"), ("status", .str "active"),
    ("started_at", .str "2024-01-01T00:00:00Z")]]

/-- The run of this worker. -/
def endlessRun : Run where
  name := "demo"
  directory := "."
  serverUrl := defaultServerUrl
  workers := WorkerMap.empty.set endlessWorker

/-- A moment of the calendar: the seconds since its first midnight. -/
structure Moment where
  /-- The seconds, with their fraction. -/
  seconds : ℝ
  /-- The moment is not before the calendar. -/
  nonneg : 0 ≤ seconds
  /-- It is not after the calendar. -/
  lt : seconds < (86400 * days : ℕ)

namespace Moment

variable (moment : Moment)

/-- The whole seconds of a moment. -/
noncomputable def wholeSeconds : ℕ := ⌊moment.seconds⌋₊

lemma wholeSeconds_lt : moment.wholeSeconds < 86400 * days :=
  (Nat.floor_lt moment.nonneg).2 moment.lt

/-- What `utc_now` shows at a moment. -/
noncomputable def utcNow : String := OpencodeSession.utcNow moment.wholeSeconds moment.wholeSeconds_lt

lemma wholeSeconds_le : (moment.wholeSeconds : ℝ) ≤ moment.seconds := Nat.floor_le moment.nonneg

lemma lt_wholeSeconds_add_one : moment.seconds < moment.wholeSeconds + 1 :=
  Nat.lt_floor_add_one moment.seconds

end Moment

/-- The clock's own texts are read back. -/
def ReadsBack (datetime : Datetime) : Prop :=
  ∀ second (h : second < 86400 * days),
    datetime.fromIsoformat (String.ofList (Timestamp.chars second h ++ "+00:00".toList)) =
      some (.ofSecond second h)

lemma readsBack_standard : ReadsBack .standard := by
  intro second h
  show Timestamp.ofChars? (String.ofList _).toList = _
  rw [String.toList_ofList]
  exact Timestamp.ofChars?_chars h

lemma strip_utcNow (second : ℕ) (h : second < 86400 * days) :
    strip (utcNow second h).toList = Timestamp.chars second h ++ ['Z'] := by
  rw [utcNow, String.toList_ofList]
  refine strip_of_ends (fun c hc => ?_) fun c hc => ?_
  · -- the text starts with the first digit of the year
    have hyear := (Timestamp.ofSecond second h).date.year_le
    have hfirst : (Timestamp.ofSecond second h).date.year / 10 ^ 3 < 10 := by omega
    obtain rfl : Nat.digitChar ((Timestamp.ofSecond second h).date.year / 10 ^ 3) = c :=
      Option.some.inj hc
    revert hfirst
    generalize (Timestamp.ofSecond second h).date.year / 10 ^ 3 = digit
    intro hfirst
    interval_cases digit <;> decide
  · rw [List.getLast?_concat, Option.mem_some_iff] at hc
    subst hc
    decide

lemma readTimestamp_utcNow (hdatetime : ReadsBack datetime) (moment : Moment) :
    readTimestamp datetime (.str moment.utcNow) =
      some (.ofSecond moment.wholeSeconds moment.wholeSeconds_lt) := by
  unfold readTimestamp Moment.utcNow
  dsimp only
  rw [strip_utcNow, List.getLast?_concat, if_pos rfl, List.dropLast_concat, if_neg (by simp)]
  exact hdatetime moment.wholeSeconds moment.wholeSeconds_lt

lemma inCalendar_utcNow (hdatetime : ReadsBack datetime) (moment : Moment) :
    InCalendar datetime (.str moment.utcNow) := by
  intro timestamp h
  obtain rfl := Option.some.inj ((readTimestamp_utcNow hdatetime moment).symm.trans h)
  have hlt := moment.wholeSeconds_lt
  rw [Timestamp.utcMicros_ofSecond]
  unfold span dayMicros
  omega

/-- The start that a worker shows is what `mark_worker_active` recorded at the moment, of a worker
with the time-out and in a record that no accepted abort had closed. -/
structure StartedAt (worker : WorkerRecord) (timeout : TimeoutSeconds) (start : Moment) : Prop where
  /-- The worker has the time-out. -/
  limited : worker.timeoutSeconds = some timeout
  /-- The start was recorded when an attempt began. -/
  recorded : ∃ marked latest : WorkerRecord, marked.timeoutSeconds = some timeout ∧
    latest.acceptedAbort = false ∧
      worker.timeoutStartedAt = (latest.reduce (marked.markActive start.utcNow)).timeoutStartedAt

lemma timeoutStartedAt_markActive {marked latest : WorkerRecord} (moment : Moment)
    (hlimited : marked.timeoutSeconds = some timeout) (habort : latest.acceptedAbort = false) :
    (latest.reduce (marked.markActive moment.utcNow)).timeoutStartedAt = .str moment.utcNow := by
  unfold WorkerRecord.reduce WorkerRecord.acceptedAbortTerminalInvariant
  rw [habort, Bool.not_false, if_pos rfl]
  show (if marked.timeoutSeconds.isSome then JsonValue.str moment.utcNow else .null) = _
  rw [hlimited]
  rfl

lemma StartedAt.timeoutStartedAt {start : Moment} (h : StartedAt worker timeout start) :
    worker.timeoutStartedAt = .str start.utcNow := by
  obtain ⟨marked, latest, hmarked, habort, hstart⟩ := h.recorded
  rw [hstart, timeoutStartedAt_markActive start hmarked habort]

/-- A worker with a recovery was at work with its lease over. -/
lemma expired_of_recovered {recoveries : List ActiveAttemptRecovery}
    (hrecoveries : recoverExpiredActiveAttempts datetime run.sortedWorkers now = .ok recoveries)
    {recovery : ActiveAttemptRecovery} (hmem : recovery ∈ recoveries)
    (hworker : run.workers.get? worker.id.value = some worker)
    (hid : recovery.transition.workerId = worker.id) : Expired datetime now worker := by
  obtain ⟨nowInstant, hnow, h⟩ := bind_eq_ok.1 hrecoveries
  obtain ⟨results, hresults, h⟩ := bind_eq_ok.1 h
  obtain rfl := Except.ok.inj h
  obtain ⟨result, hresult, hsome⟩ := List.mem_filterMap.1 hmem
  obtain rfl : result = some recovery := hsome
  obtain ⟨other, hother, hrecover⟩ := exists_item_of_mem_mapM hresults hresult
  obtain ⟨attempt, hattempt, rfl⟩ := Flow.recoverWorker_eq_some hrecover
  -- workers are stored under their identifiers
  obtain rfl : other = worker := by
    have hsame : other.id = worker.id := hid
    have hget := Run.mem_sortedWorkers.1 hother
    rw [hsame, hworker] at hget
    exact (Option.some.inj hget).symm
  exact (isSome_recoverWorker hnow hrecover).1 rfl

/-- What is certain of an attempt that recovery times out: the whole seconds of its start and of the
recovery are the rounded time-out apart.  The time that has passed may be shorter than the time-out,
by less than a second and what the time-out was rounded by. -/
theorem elapsed_of_expired (hdatetime : ReadsBack datetime) (start recovered : Moment) (run : Run)
    (worker : WorkerRecord) (hstarted : StartedAt worker timeout start)
    (hworker : run.workers.get? worker.id.value = some worker)
    {recoveries : List ActiveAttemptRecovery} (hrecoveries : recoverExpiredActiveAttempts datetime
      run.sortedWorkers recovered.utcNow = .ok recoveries)
    {recovery : ActiveAttemptRecovery} (hmem : recovery ∈ recoveries)
    (hid : recovery.transition.workerId = worker.id) :
    start.wholeSeconds * 10 ^ 6 + timeout.micros ≤ recovered.wholeSeconds * 10 ^ 6 ∧
      timeout.seconds - 1 - (1 / 2 + 1 / 2 ^ 34) / 10 ^ 6 < recovered.seconds - start.seconds := by
  obtain ⟨attempt, timeout', shown, ⟨-, hlimited', hclock⟩, hover⟩ :=
    expired_of_recovered hrecoveries hmem hworker hid
  obtain rfl := Option.some.inj (hstarted.limited.symm.trans hlimited')
  obtain rfl := Option.some.inj ((readTimestamp_utcNow hdatetime recovered).symm.trans hclock)
  -- both ends of the comparison are what the clock showed
  have hshown : startedAt? datetime worker attempt =
      some (.ofSecond start.wholeSeconds start.wholeSeconds_lt) := by
    rw [startedAt?, hstarted.timeoutStartedAt, readTimestamp_utcNow hdatetime, Option.orElse_some]
  have hover := hover _ hshown
  rw [Timestamp.utcMicros_ofSecond, Timestamp.utcMicros_ofSecond] at hover
  have hwhole : start.wholeSeconds * 10 ^ 6 + timeout.micros ≤ recovered.wholeSeconds * 10 ^ 6 := by
    omega
  refine ⟨hwhole, ?_⟩
  have hreal : (start.wholeSeconds : ℝ) * 10 ^ 6 + timeout.micros ≤
      recovered.wholeSeconds * 10 ^ 6 := by
    exact_mod_cast hwhole
  have hrounded := (abs_le.1 timeout.abs_micros_sub_le).1
  have hlast := recovered.wholeSeconds_le
  have hfirst := start.lt_wholeSeconds_add_one
  linarith

/-- A fraction of the first second of 2024. -/
noncomputable def newYear (fraction : ℝ) (hnonneg : 0 ≤ fraction) (hle : fraction ≤ 1) :
    Moment where
  seconds := 63839664000 + fraction
  nonneg := by linarith
  lt := by
    have hdays : (63839664001 : ℝ) < (86400 * days : ℕ) := by
      norm_num [days, daysBeforeYear]
    linarith

/-- A worker at work since a tenth of a second before the first second was over, for a second at
most. -/
noncomputable def hurriedWorker : WorkerRecord where
  id := ⟨"w", by decide⟩
  prompt := some "do it"
  lifecycleState := .activeWait
  timeoutSeconds := some (.ofNat 1 (by decide))
  timeoutStartedAt := .str (newYear 0.9 (by norm_num) (by norm_num)).utcNow
  attempts := some [.obj [("id", .str "attempt-1"), ("status", .str "active")]]

/-- The run of this worker. -/
noncomputable def hurriedRun : Run where
  name := "demo"
  directory := "."
  serverUrl := defaultServerUrl
  workers := WorkerMap.empty.set hurriedWorker

lemma wholeSeconds_before : (newYear 0.9 (by norm_num) (by norm_num)).wholeSeconds = 63839664000 :=
  (Nat.floor_eq_iff (newYear 0.9 (by norm_num) (by norm_num)).nonneg).2 (by norm_num [newYear])

lemma wholeSeconds_after : (newYear 1 (by norm_num) (by norm_num)).wholeSeconds = 63839664001 :=
  (Nat.floor_eq_iff (newYear 1 (by norm_num) (by norm_num)).nonneg).2 (by norm_num [newYear])

/-- A tenth of a second later the attempt is recovered. -/
lemma recovers_hurriedRun : ∃ recoveries, recoverExpiredActiveAttempts .standard
      hurriedRun.sortedWorkers (newYear 1 (by norm_num) (by norm_num)).utcNow = .ok recoveries ∧
    ∃ recovery ∈ recoveries, recovery.transition.workerId = hurriedWorker.id := by
  have hworkers : hurriedRun.sortedWorkers = [hurriedWorker] := rfl
  have hmicros : (TimeoutSeconds.ofNat 1 (by decide)).micros = 10 ^ 6 := rfl
  have hspan : 63839664001 * 10 ^ 6 < span := by norm_num [span, days, daysBeforeYear, dayMicros]
  have hstarted : ∀ attempt, startedAt? .standard hurriedWorker attempt =
      some (.ofSecond _ (newYear 0.9 (by norm_num) (by norm_num)).wholeSeconds_lt) := by
    intro attempt
    rw [startedAt?, hurriedWorker, readTimestamp_utcNow readsBack_standard, Option.orElse_some]
  have hfits : RecoveryFits .standard hurriedRun.sortedWorkers
      (newYear 1 (by norm_num) (by norm_num)).utcNow := by
    refine ⟨inCalendar_utcNow readsBack_standard _, ?_⟩
    rintro worker hworker attempt timeout shown ⟨-, hlimited, -⟩
    obtain rfl : worker = hurriedWorker := List.mem_singleton.1 (hworkers ▸ hworker)
    obtain rfl : TimeoutSeconds.ofNat 1 (by decide) = timeout := Option.some.inj hlimited
    refine ⟨inCalendar_utcNow readsBack_standard _, fun hnone => ?_, fun started h => ?_⟩
    · rw [hurriedWorker, readTimestamp_utcNow readsBack_standard] at hnone
      cases hnone
    · obtain rfl := Option.some.inj ((hstarted attempt).symm.trans h)
      rw [Timestamp.utcMicros_ofSecond, wholeSeconds_before, hmicros]
      exact ⟨by norm_num [dayMicros], by omega⟩
  obtain ⟨recoveries, hrecoveries⟩ := succeeds_recoverExpiredActiveAttempts.2 hfits
  have hexpired : Expired .standard (newYear 1 (by norm_num) (by norm_num)).utcNow
      hurriedWorker := by
    refine ⟨_, _, _, ⟨rfl, rfl, readTimestamp_utcNow readsBack_standard _⟩, fun started h => ?_⟩
    obtain rfl := Option.some.inj ((hstarted _).symm.trans h)
    rw [Timestamp.utcMicros_ofSecond, Timestamp.utcMicros_ofSecond, wholeSeconds_before,
      wholeSeconds_after, hmicros]
    norm_num
  have hsome := (isEmpty_eq_false_of_recoveries hrecoveries).2
    ⟨hurriedWorker, by rw [hworkers]; exact List.mem_singleton.2 rfl, hexpired⟩
  obtain ⟨recovery, hmem⟩ := List.exists_mem_of_ne_nil recoveries (by simpa using hsome)
  obtain ⟨worker, hworker, attempt, -, rfl⟩ := Flow.mem_recoveries hrecoveries hmem
  obtain rfl : worker = hurriedWorker := List.mem_singleton.1 (hworkers ▸ hworker)
  exact ⟨recoveries, hrecoveries, _, hmem, rfl⟩

lemma startedAt_hurriedWorker : StartedAt hurriedWorker (.ofNat 1 (by decide))
    (newYear 0.9 (by norm_num) (by norm_num)) where
  limited := rfl
  recorded := ⟨hurriedWorker, { hurriedWorker with lifecycleState := .queued }, rfl, rfl,
    (timeoutStartedAt_markActive _ rfl rfl).symm⟩

/-- The whole seconds are a second apart. -/
theorem elapsed_hurriedRun :
    (newYear 0.9 (by norm_num) (by norm_num)).wholeSeconds * 10 ^ 6 +
        (TimeoutSeconds.ofNat 1 (by decide)).micros ≤
      (newYear 1 (by norm_num) (by norm_num)).wholeSeconds * 10 ^ 6 ∧
    (TimeoutSeconds.ofNat 1 (by decide)).seconds - 1 - (1 / 2 + 1 / 2 ^ 34) / 10 ^ 6 <
      (newYear 1 (by norm_num) (by norm_num)).seconds -
        (newYear 0.9 (by norm_num) (by norm_num)).seconds := by
  obtain ⟨recoveries, hrecoveries, recovery, hmem, hid⟩ := recovers_hurriedRun
  exact elapsed_of_expired readsBack_standard _ _ hurriedRun hurriedWorker startedAt_hurriedWorker
    rfl hrecoveries hmem hid

/-- The time-out has not passed. -/
theorem not_elapsed_hurriedRun :
    ¬ ∀ (start recovered : Moment) (run : Run) (worker : WorkerRecord) (timeout : TimeoutSeconds)
      (recoveries : List ActiveAttemptRecovery) (recovery : ActiveAttemptRecovery),
      start.seconds ≤ recovered.seconds → StartedAt worker timeout start →
      run.workers.get? worker.id.value = some worker →
      recoverExpiredActiveAttempts .standard run.sortedWorkers recovered.utcNow = .ok recoveries →
      recovery ∈ recoveries → recovery.transition.workerId = worker.id →
        timeout.seconds ≤ recovered.seconds - start.seconds := by
  intro h
  obtain ⟨recoveries, hrecoveries, recovery, hmem, hid⟩ := recovers_hurriedRun
  have hle := h _ _ hurriedRun hurriedWorker _ recoveries recovery (by norm_num [newYear])
    startedAt_hurriedWorker rfl hrecoveries hmem hid
  norm_num [newYear, TimeoutSeconds.seconds, TimeoutSeconds.ofNat] at hle

end LeaseExpiry

end OpencodeSession
