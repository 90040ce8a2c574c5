import BetterHindsight.Runtime.Sender

/-! # The retry delay

How long a failed attempt waits: the delay doubles with every attempt up to a maximum. The outbox
adds it to the time at which the attempt ended; the sender computes it once more for its report.

* `retryDelaySeconds_eq`: the closed form of the loop.
* `reportFailedAttempt`: the end of `_deliver_claim` after a failure.
* `retry_delay`: the closed form, its bounds, and the report. -/

namespace BetterHindsight
set_option autoImplicit false

/-! ## The closed form -/

theorem retryDelayLoop_eq {maximum : ℚ} (n : ℕ) {delay : ℚ} (hpos : 0 < delay)
    (hle : delay ≤ maximum) : retryDelayLoop maximum n delay = min (delay * 2 ^ n) maximum := by
  induction n generalizing delay with
  | zero => rw [retryDelayLoop, pow_zero, mul_one, min_eq_left hle]
  | succ n ih =>
    have hpow : (1 : ℚ) ≤ 2 ^ n := one_le_pow₀ one_le_two
    rw [retryDelayLoop]
    split
    · rename_i hlt
      have hnext : 0 < min (delay * 2) maximum := lt_min (mul_pos hpos two_pos) (hpos.trans hlt)
      rw [ih hnext (min_le_right _ _), pow_succ']
      obtain hdouble | hcapped := le_total (delay * 2) maximum
      · rw [min_eq_left hdouble, mul_assoc]
      · -- once capped, doubling no longer matters
        have hmax : maximum ≤ maximum * 2 ^ n := le_mul_of_one_le_right (hpos.trans hlt).le hpow
        have hmore : maximum ≤ delay * (2 * 2 ^ n) := by
          calc maximum
            _ ≤ delay * 2 := hcapped
            _ ≤ delay * 2 * 2 ^ n := le_mul_of_one_le_right (mul_pos hpos two_pos).le hpow
            _ = delay * (2 * 2 ^ n) := mul_assoc _ _ _
        rw [min_eq_right hcapped, min_eq_right hmax, min_eq_right hmore]
    · rename_i hfull
      have hmore : maximum ≤ delay * 2 ^ (n + 1) :=
        (not_lt.mp hfull).trans (le_mul_of_one_le_right hpos.le (one_le_pow₀ one_le_two))
      rw [min_eq_right hmore]
      exact le_antisymm hle (not_lt.mp hfull)

theorem retryDelaySeconds_eq {initial maximum : ℚ} (hpos : 0 < initial) (hle : initial ≤ maximum)
    (n : ℤ) : retryDelaySeconds n initial maximum =
      min (initial * 2 ^ (n - 1).toNat) maximum := by
  unfold retryDelaySeconds
  split
  · rename_i hearly
    obtain rfl : initial = maximum :=
      le_antisymm hle (hearly.resolve_left (not_le.mpr hpos))
    have hmore : initial ≤ initial * 2 ^ (n - 1).toNat :=
      le_mul_of_one_le_right hpos.le (one_le_pow₀ one_le_two)
    rw [min_eq_right hmore]
  · exact retryDelayLoop_eq _ hpos hle

/-! ## The report -/

/-- `round(x)`: to the nearest integer, halves to the even one. -/
def pyRound (q : ℚ) : ℤ :=
  if q - ⌊q⌋ < 1 / 2 then ⌊q⌋
  else if 1 / 2 < q - ⌊q⌋ then ⌊q⌋ + 1
  else if ⌊q⌋ % 2 = 0 then ⌊q⌋ else ⌊q⌋ + 1

/-- The event `better_hindsight.sender_attempt` of a failed attempt. -/
structure FailedAttempt where
  attemptCount : ℕ
  elapsedMs : ℤ
  outcome : Text
  reason : Text
  retryDelayMs : ℤ

/-- What an `OutboxSender` reads of its configuration for the report. -/
structure SenderRetry where
  retryInitial : ℚ
  retryMax : ℚ

def SenderRetry.of (config : BetterHindsightConfig) : SenderRetry :=
  ⟨config.outbox.retryInitialSeconds, config.outbox.retryMaxSeconds⟩

/-- `_deliver_claim` from `completed_at = self._wall_time()` on: the claim is rescheduled and the
attempt reported. -/
def reportFailedAttempt (lib : Stdlib) (sender : SenderRetry) (outbox : SQLiteOutbox)
    (owner : OwnerChecks) (row : OutboxRow) (category : OutboxFailureCategory)
    (failureReason : Text) (completedAt : PyFloat) (elapsedMs : ℤ) (faults : Faults)
    (t : OutboxTable) : OutboxTransitionResult × FailedAttempt × OutboxTable :=
  let (transition, t) := outbox.rescheduleClaim lib owner row.documentId row.attemptCount category
    completedAt faults t
  let retryDelay := retryDelaySeconds row.attemptCount sender.retryInitial sender.retryMax
  (transition,
    { attemptCount := row.attemptCount
      elapsedMs
      outcome := match transition with
        | .applied _ => category.value
        | .localFailure => "transition_failed"
      reason := failureReason
      retryDelayMs := max 0 (pyRound (retryDelay * 1000)) },
    t)

theorem validWallTime_eq {completedAt : PyFloat} {q : ℚ} (h : validWallTime completedAt = some q) :
    completedAt = .finite q := by
  cases completedAt with
  | finite r =>
    rw [validWallTime] at h
    split at h
    · cases h
    · rw [Option.some.inj h]
  | posInf => cases h
  | negInf => cases h
  | nan => cases h

/-- The delay that is reported is the one that the stored row waits. -/
theorem reportFailedAttempt_stored {lib : Stdlib} {config : BetterHindsightConfig}
    {outbox : SQLiteOutbox} (hhandle : SQLiteOutbox.HandleOf lib config outbox)
    {owner : OwnerChecks} {row : OutboxRow} {category : OutboxFailureCategory}
    {failureReason : Text} {completedAt : PyFloat} {elapsedMs : ℤ} {faults : Faults}
    {t t' : OutboxTable} {count : ℕ} {attempt : FailedAttempt}
    (h : reportFailedAttempt lib (.of config) outbox owner row category failureReason completedAt
      elapsedMs faults t = (.applied count, attempt, t')) :
    ∃ stored ∈ t'.rows, stored.documentId = row.documentId ∧ stored.state = .pending ∧
      completedAt = .finite stored.updatedAt ∧
      ∃ delay, delay = retryDelaySeconds row.attemptCount config.outbox.retryInitialSeconds
          config.outbox.retryMaxSeconds ∧
        lib.addFloat stored.updatedAt delay = .finite stored.nextAttemptAt ∧
        attempt.retryDelayMs = max 0 (pyRound (delay * 1000)) := by
  unfold reportFailedAttempt at h
  obtain hfailed | ⟨found, hfound, hid, -, -, -, at', next, hat, hnext, hrun⟩ :=
    outbox.rescheduleClaim_cases lib owner row.documentId row.attemptCount category completedAt
      faults t
  · rw [hfailed] at h
    cases (Prod.mk.inj h).1
  · rw [hrun] at h
    obtain ⟨-, h⟩ := Prod.mk.inj h
    obtain ⟨rfl, rfl⟩ := Prod.mk.inj h
    rw [hhandle.retryInitial, hhandle.retryMax] at hnext
    exact ⟨_, OutboxTable.mem_updateRow.mpr (.inr ⟨found, hfound, hid, rfl⟩), hid, rfl,
      validWallTime_eq hat, _, rfl, hnext, rfl⟩

/-- In exact arithmetic the delay is `min (initial * 2 ^ (n - 1)) maximum`: it never falls with the
attempts, stays between the two limits, and is what the outbox stores and the sender reports. -/
theorem retry_delay {initial maximum : ℚ} (hpos : 0 < initial) (hle : initial ≤ maximum) :
    (∀ n : ℤ, 1 ≤ n → retryDelaySeconds n initial maximum =
        min (initial * 2 ^ (n - 1).toNat) maximum) ∧
      (∀ m n : ℤ, 1 ≤ m → m ≤ n →
        retryDelaySeconds m initial maximum ≤ retryDelaySeconds n initial maximum) ∧
      (∀ n : ℤ, 1 ≤ n → initial ≤ retryDelaySeconds n initial maximum ∧
        retryDelaySeconds n initial maximum ≤ maximum) ∧
      ∀ (lib : Stdlib) (config : BetterHindsightConfig) (outbox : SQLiteOutbox) (owner : OwnerChecks)
        (row : OutboxRow) (category : OutboxFailureCategory) (failureReason : Text)
        (completedAt : PyFloat) (elapsedMs : ℤ) (faults : Faults) (t t' : OutboxTable) (count : ℕ)
        (attempt : FailedAttempt),
        (∀ a b, lib.addFloat a b = .finite (a + b)) → SQLiteOutbox.HandleOf lib config outbox →
        config.outbox.retryInitialSeconds = initial → config.outbox.retryMaxSeconds = maximum →
        reportFailedAttempt lib (.of config) outbox owner row category failureReason completedAt
          elapsedMs faults t = (.applied count, attempt, t') →
        ∃ stored ∈ t'.rows, stored.documentId = row.documentId ∧
          completedAt = .finite stored.updatedAt ∧
          attempt.retryDelayMs =
            max 0 (pyRound ((stored.nextAttemptAt - stored.updatedAt) * 1000)) ∧
          stored.nextAttemptAt - stored.updatedAt =
            retryDelaySeconds row.attemptCount initial maximum := by
  have hclosed := fun n : ℤ => retryDelaySeconds_eq hpos hle n
  refine ⟨fun n _ => hclosed n, fun m n _ hmn => ?_, fun n _ => ?_, ?_⟩
  · rw [hclosed, hclosed]
    refine min_le_min_right _ (mul_le_mul_of_nonneg_left ?_ hpos.le)
    exact pow_le_pow_right₀ one_le_two (by omega)
  · rw [hclosed]
    have hpow : (1 : ℚ) ≤ 2 ^ (n - 1).toNat := one_le_pow₀ one_le_two
    exact ⟨le_min (le_mul_of_one_le_right hpos.le hpow) hle, min_le_right _ _⟩
  · rintro lib config outbox owner row category failureReason completedAt elapsedMs faults t t'
      count attempt hexact hhandle rfl rfl h
    obtain ⟨stored, hstored, hid, -, hcompleted, delay, hdelay, hnext, hreport⟩ :=
      reportFailedAttempt_stored hhandle h
    rw [hexact] at hnext
    have hwait : stored.nextAttemptAt - stored.updatedAt = delay := by
      rw [← PyFloat.finite.inj hnext, add_sub_cancel_left]
    refine ⟨stored, hstored, hid, hcompleted, ?_, hwait.trans hdelay⟩
    rw [hwait]
    exact hreport

theorem retry_delay_legacyClaim :
    let reported := reportFailedAttempt (.ofDigests destinationDigests) (.of defaultConfig)
      SQLiteOutbox.defaultHandle ⟨true, true⟩ legacyClaim .retainTimeout "timeout" (.finite 5) 0 []
      (legacyTable.updateRow ['a'] (SQLiteOutbox.claimedProgress 1))
    ∃ stored ∈ reported.2.2.rows, stored.documentId = ['a'] ∧
      reported.2.1.retryDelayMs = max 0 (pyRound ((stored.nextAttemptAt - stored.updatedAt) * 1000)) ∧
      stored.nextAttemptAt - stored.updatedAt = 2 := by
  intro reported
  have happlied : reported.1 = .applied 1 := by decide +kernel
  have hdelay : retryDelaySeconds 1 DEFAULT_OUTBOX_RETRY_INITIAL_SECONDS
      DEFAULT_OUTBOX_RETRY_MAX_SECONDS = 2 := by decide +kernel
  have hpos : 0 < DEFAULT_OUTBOX_RETRY_INITIAL_SECONDS := by decide +kernel
  have hle : DEFAULT_OUTBOX_RETRY_INITIAL_SECONDS ≤ DEFAULT_OUTBOX_RETRY_MAX_SECONDS := by
    decide +kernel
  obtain ⟨stored, hstored, hid, -, hreport, hwait⟩ := (retry_delay hpos hle).2.2.2
    (.ofDigests destinationDigests) defaultConfig SQLiteOutbox.defaultHandle ⟨true, true⟩ legacyClaim
    .retainTimeout "timeout" (.finite 5) 0 [] _ reported.2.2 1 reported.2.1 (fun _ _ => rfl)
    SQLiteOutbox.handleOf_default rfl rfl (Prod.ext happlied rfl)
  exact ⟨stored, hstored, hid, hreport, hwait.trans hdelay⟩

end BetterHindsight
