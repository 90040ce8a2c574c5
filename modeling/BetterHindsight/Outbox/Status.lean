import BetterHindsight.Outbox.Eligibility

/-! # The status of an outbox

`_read_status_snapshot`, which aggregates the whole table and checks what it read, and
`_status_payload`, which turns the aggregates into the status result.

* `StatusParameters`, `statusRecord`: the parameters and the columns of the one `SELECT`.
* `readStatusSnapshot`, `statusPayload`: the checked inspection and the result.
* `eligibility_agrees`: claiming, the deadline and the status mean the same rows. -/

namespace BetterHindsight
set_option autoImplicit false

/-! ## The snapshot -/

/-- The result of `_probe_sender_ownership`. -/
inductive SenderOwnership where
  | held
  | free
  | unavailable
  deriving DecidableEq

/-- The fingerprints and the schema that the snapshot binds. -/
structure StatusParameters where
  destination : Text
  multimodalDestination : Text
  legacyDestination : Text
  payloadSchema : Text

/-- The multimodal fingerprint of the snapshot, empty while multimodal rows may not be sent. -/
def multimodalStatusParameter (lib : Stdlib) (config : BetterHindsightConfig) :
    Except ConfigError Text :=
  if config.multimodal.enabled = true ∧ config.retain.enabled = true then
    (config.multimodalDestinationFingerprint lib).map HexDigest.text
  else .ok []

def statusParameters (lib : Stdlib) (config : BetterHindsightConfig) :
    Except ConfigError StatusParameters := do
  let destination ← config.destinationFingerprint lib
  let multimodalDestination ← multimodalStatusParameter lib config
  let legacyDestination ← config.legacyDestinationFingerprint lib
  return {
    destination := destination.text
    multimodalDestination
    legacyDestination := legacyDestination.text
    payloadSchema := config.outbox.payloadSchema }

/-- The condition on the destination that the columns repeat. -/
def StatusParameters.isMatching (p : StatusParameters) (row : OutboxRow) : Bool :=
  (row.destinationFingerprint == p.destination && row.payloadSchema == p.payloadSchema) ||
    (row.destinationFingerprint == p.legacyDestination &&
      row.payloadSchema == LEGACY_PAYLOAD_SCHEMA_VERSION) ||
    (row.destinationFingerprint == p.multimodalDestination &&
      row.payloadSchema == MULTIMODAL_PAYLOAD_SCHEMA)

/-- `_STATUS_ERROR_CATEGORIES` -/
def OutboxFailureCategory.ofValue? (value : Text) : Option OutboxFailureCategory :=
  [retainTimeout, retainFailed, retainUnconfirmed].find? fun category => category.value = value

/-- The values that make a row invalid; the types of the columns hold by construction. -/
def isInvalidRow (row : OutboxRow) : Bool :=
  decide (row.segmentIndex < 0 ∨ row.segmentCount ≤ 0 ∨ row.segmentIndex ≥ row.segmentCount) ||
    decide (row.nextAttemptAt < 0) ||
    row.lastErrorCategory.any (fun value => (OutboxFailureCategory.ofValue? value).isNone) ||
    decide (row.createdAt < 0) || decide (row.updatedAt < 0)

/-- The columns of the `SELECT`, less the three maxima that are only tested to be finite. -/
structure StatusRecord where
  total : ℕ
  mismatch : ℕ
  sending : ℕ
  retry : ℕ
  pending : ℕ
  logicalBytes : ℕ
  oldestCreatedAt : Option ℚ
  lastErrorCategory : Option Text
  invalidRows : ℕ
  maxAttemptCount : ℕ
  nextRetryAt : Option ℚ
  retainTimeout : ℕ
  retainFailed : ℕ
  retainUnconfirmed : ℕ

/-- `ORDER BY updated_at DESC, created_at DESC, document_id DESC LIMIT 1` over the rows with an
error. -/
def lastErrorRow (t : OutboxTable) : Option OutboxRow :=
  (t.rows.filter fun row => row.lastErrorCategory.isSome).argmax fun row =>
    (toLex (row.updatedAt, toLex (row.createdAt, row.documentId)) : ℚ ×ₗ ℚ ×ₗ Text)

/-- `SUM(CASE WHEN last_error_category = ... THEN 1 ELSE 0 END)` -/
def errorCount (t : OutboxTable) (category : OutboxFailureCategory) : ℕ :=
  t.rows.countP fun row => row.lastErrorCategory = some category.value

def statusRecord (p : StatusParameters) (t : OutboxTable) : StatusRecord where
  total := t.rows.length
  mismatch := t.rows.countP fun row => !p.isMatching row
  sending := t.rows.countP fun row => p.isMatching row && row.state == .sending
  retry := t.rows.countP fun row =>
    p.isMatching row && row.state == .pending && decide (row.attemptCount > 0)
  pending := t.rows.countP fun row =>
    p.isMatching row && row.state == .pending && row.attemptCount == 0
  logicalBytes := (t.rows.map fun row =>
    utf8Len row.content + OUTBOX_ROW_ACCOUNTING_ALLOWANCE_BYTES).sum
  oldestCreatedAt := (t.rows.map fun row => row.createdAt).min?
  lastErrorCategory := (lastErrorRow t).bind fun row => row.lastErrorCategory
  invalidRows := t.rows.countP isInvalidRow
  maxAttemptCount := ((t.rows.map fun row => row.attemptCount).max?).getD 0
  nextRetryAt := ((t.rows.filter fun row =>
    p.isMatching row && row.state == .pending && decide (row.attemptCount > 0)).map
      fun row => row.nextAttemptAt).min?
  retainTimeout := errorCount t .retainTimeout
  retainFailed := errorCount t .retainFailed
  retainUnconfirmed := errorCount t .retainUnconfirmed

structure OutboxInspection where
  mismatchCount : ℕ
  pendingCount : ℕ
  retryCount : ℕ
  sendingCount : ℕ
  logicalQueuedBytes : ℕ
  oldestCreatedAt : Option ℚ
  lastErrorCategory : Option OutboxFailureCategory
  maxAttemptCount : ℕ
  nextRetryAt : Option ℚ
  retainTimeoutCount : ℕ
  retainFailedCount : ℕ
  retainUnconfirmedCount : ℕ
  senderOwnership : SenderOwnership

/-- A time that the snapshot read, which must not be negative. -/
def checkedTime : Option ℚ → Except StorageError (Option ℚ)
  | none => .ok none
  | some q => if q < 0 then .error .failure else .ok (some q)

/-- The last error, which must be one of the fixed categories. -/
def checkedCategory : Option Text → Except StorageError (Option OutboxFailureCategory)
  | none => .ok none
  | some value =>
    match OutboxFailureCategory.ofValue? value with
    | none => .error .failure
    | some category => .ok (some category)

/-- The checks of `_read_status_snapshot` on the record that it read. -/
def checkStatusRecord (record : StatusRecord) (ownership : SenderOwnership) :
    Except StorageError OutboxInspection :=
  if record.invalidRows ≠ 0 ∨
      record.mismatch + record.sending + record.retry + record.pending ≠ record.total then
    .error .failure
  else do
    let nextRetryAt ← checkedTime record.nextRetryAt
    let oldestCreatedAt ← checkedTime record.oldestCreatedAt
    let lastErrorCategory ← checkedCategory record.lastErrorCategory
    return {
      mismatchCount := record.mismatch
      pendingCount := record.pending
      retryCount := record.retry
      sendingCount := record.sending
      logicalQueuedBytes := record.logicalBytes
      oldestCreatedAt
      lastErrorCategory
      maxAttemptCount := record.maxAttemptCount
      nextRetryAt
      retainTimeoutCount := record.retainTimeout
      retainFailedCount := record.retainFailed
      retainUnconfirmedCount := record.retainUnconfirmed
      senderOwnership := ownership }

/-- `_read_status_snapshot` under parameters that could be derived, with the ownership that is
probed after it. -/
def readStatusSnapshot (p : StatusParameters) (ownership : SenderOwnership) (t : OutboxTable) :
    Except StorageError OutboxInspection :=
  checkStatusRecord (statusRecord p t) ownership

/-! ## The payload -/

inductive AgeBucket where
  | none
  | lessThanMinute
  | lessThanHour
  | lessThanDay
  | dayOrMore
  deriving DecidableEq

def ageBucket (oldestCreatedAt : Option ℚ) (now : ℚ) : AgeBucket :=
  match oldestCreatedAt with
  | .none => .none
  | .some created =>
    let age := max 0 (now - created)
    if age < 60 then .lessThanMinute
    else if age < 3600 then .lessThanHour
    else if age < 86400 then .lessThanDay
    else .dayOrMore

inductive RetryBucket where
  | none
  | due
  | lessThanMinute
  | lessThanFiveMinutes
  | lessThanHour
  | hourOrMore
  deriving DecidableEq

def retryBucket (nextRetryAt : Option ℚ) (now : ℚ) : RetryBucket :=
  match nextRetryAt with
  | .none => .none
  | .some next =>
    let remaining := max 0 (next - now)
    if remaining ≤ 0 then .due
    else if remaining < 60 then .lessThanMinute
    else if remaining < 300 then .lessThanFiveMinutes
    else if remaining < 3600 then .lessThanHour
    else .hourOrMore

namespace OutboxInspection

def queuedCount (inspection : OutboxInspection) : ℕ :=
  inspection.mismatchCount + inspection.pendingCount + inspection.retryCount +
    inspection.sendingCount

def dueWork (inspection : OutboxInspection) (now : ℚ) : Bool :=
  decide (inspection.queuedCount > 0) &&
    inspection.nextRetryAt.all (fun next => decide (next ≤ now))

def degraded (inspection : OutboxInspection) (now : ℚ) : Bool :=
  decide (inspection.mismatchCount > 0) || decide (inspection.retryCount > 0) ||
    (decide (inspection.sendingCount > 0) &&
      (inspection.senderOwnership != .held || inspection.lastErrorCategory.isSome)) ||
    (decide (inspection.queuedCount > 0) &&
      [AgeBucket.lessThanDay, .dayOrMore].contains (ageBucket inspection.oldestCreatedAt now)) ||
    (inspection.dueWork now && inspection.senderOwnership == .unavailable)

end OutboxInspection

inductive StatusResult where
  | degraded
  | ok
  deriving DecidableEq

structure StatusPayload where
  ageBucket : AgeBucket
  mismatch : ℕ
  pending : ℕ
  retry : ℕ
  sending : ℕ
  retainFailed : ℕ
  retainTimeout : ℕ
  retainUnconfirmed : ℕ
  lastErrorCategory : Text
  logicalQueuedBytes : ℕ
  maxAttemptCount : ℕ
  nextRetryBucket : RetryBucket
  result : StatusResult
  senderOwnership : SenderOwnership

def statusPayload (inspection : OutboxInspection) (now : ℚ) : StatusPayload where
  ageBucket := BetterHindsight.ageBucket inspection.oldestCreatedAt now
  mismatch := inspection.mismatchCount
  pending := inspection.pendingCount
  retry := inspection.retryCount
  sending := inspection.sendingCount
  retainFailed := inspection.retainFailedCount
  retainTimeout := inspection.retainTimeoutCount
  retainUnconfirmed := inspection.retainUnconfirmedCount
  lastErrorCategory := (inspection.lastErrorCategory.map OutboxFailureCategory.value).getD "none"
  logicalQueuedBytes := inspection.logicalQueuedBytes
  maxAttemptCount := inspection.maxAttemptCount
  nextRetryBucket := retryBucket inspection.nextRetryAt now
  result := if inspection.degraded now then .degraded else .ok
  senderOwnership := inspection.senderOwnership

/-! ## What the snapshot says -/

section Snapshot
variable {lib : Stdlib} {config : BetterHindsightConfig} {outbox : SQLiteOutbox}

/-- The snapshot binds the fingerprints that a handle of the configuration holds. -/
theorem statusParameters_of_handle (hof : SQLiteOutbox.HandleOf lib config outbox) :
    ∃ p, statusParameters lib config = .ok p ∧ ∀ row : OutboxRow,
      p.isMatching row = outbox.isEligible row.toRowIdentity := by
  refine ⟨⟨outbox.destinationFingerprint.text, outbox.multimodalParameter,
    outbox.legacyDestinationFingerprint.text, config.outbox.payloadSchema⟩, ?_, fun row => ?_⟩
  · have hmm : multimodalStatusParameter lib config = .ok outbox.multimodalParameter := by
      rw [multimodalStatusParameter, SQLiteOutbox.multimodalParameter, hof.config_eq,
        hof.multimodal]
      split <;> rfl
    rw [statusParameters, hof.destination, hof.legacy, hmm]
    rfl
  · rw [StatusParameters.isMatching, SQLiteOutbox.isEligible, hof.payloadSchema]
    rfl

theorem OutboxFailureCategory.ofValue?_value (category : OutboxFailureCategory) :
    OutboxFailureCategory.ofValue? category.value = some category := by
  cases category <;> decide

theorem isInvalidRow_of_sound {row : OutboxRow} (h : row.Sound) : isInvalidRow row = false := by
  have h0 := h.index_nonneg
  have hlt := h.index_lt
  have hindex : ¬ (row.segmentIndex < 0 ∨ row.segmentCount ≤ 0 ∨
      row.segmentIndex ≥ row.segmentCount) := by omega
  have hcategory : row.lastErrorCategory.any
      (fun value => (OutboxFailureCategory.ofValue? value).isNone) = false := by
    cases hc : row.lastErrorCategory with
    | none => rfl
    | some value =>
      obtain ⟨category, rfl⟩ := h.category value hc
      simp [OutboxFailureCategory.ofValue?_value]
  simp only [isInvalidRow, hindex, hcategory, not_lt.mpr h.nextAttemptAt_nonneg,
    not_lt.mpr h.createdAt_nonneg, not_lt.mpr h.updatedAt_nonneg, decide_false, Bool.or_false]

/-- Every row is counted once. -/
theorem counts_add_up (p : StatusParameters) (t : OutboxTable) :
    (statusRecord p t).mismatch + (statusRecord p t).sending + (statusRecord p t).retry +
      (statusRecord p t).pending = (statusRecord p t).total := by
  simp only [statusRecord, gt_iff_lt]
  induction t.rows with
  | nil => rfl
  | cons row rows ih =>
    simp only [List.countP_cons, List.length_cons]
    cases hmatch : p.isMatching row with
    | false =>
      simp only [Bool.not_false, Bool.false_and, if_true, Bool.false_eq_true, if_false]
      omega
    | true =>
      cases hstate : row.state with
      | sending => simp; omega
      | pending =>
        rcases Nat.eq_zero_or_pos row.attemptCount with h | h
        · simp [h]; omega
        · simp [h, Nat.ne_of_gt h]; omega

theorem checkedTime_ok {o : Option ℚ} (h : ∀ q, o = some q → 0 ≤ q) : checkedTime o = .ok o := by
  cases o with
  | none => rfl
  | some q => exact if_neg (not_lt.mpr (h q rfl))

theorem min?_nonneg {rows : List OutboxRow} {f : OutboxRow → ℚ} (h : ∀ row ∈ rows, 0 ≤ f row)
    (q : ℚ) (hq : (rows.map f).min? = some q) : 0 ≤ q := by
  obtain ⟨row, hrow, rfl⟩ := List.mem_map.mp (List.min?_eq_some_iff.mp hq).1
  exact h row hrow

/-- **The snapshot of a sound table passes its checks**, and reports what it counted. -/
theorem readStatusSnapshot_ok {t : OutboxTable} (hsound : ∀ row ∈ t.rows, row.Sound)
    (p : StatusParameters) (ownership : SenderOwnership) :
    ∃ inspection, readStatusSnapshot p ownership t = .ok inspection ∧
      inspection.mismatchCount = (statusRecord p t).mismatch ∧
      inspection.sendingCount = (statusRecord p t).sending ∧
      inspection.retryCount = (statusRecord p t).retry ∧
      inspection.pendingCount = (statusRecord p t).pending ∧
      inspection.logicalQueuedBytes = (statusRecord p t).logicalBytes := by
  have hvalid : (statusRecord p t).invalidRows = 0 := by
    refine List.countP_eq_zero.mpr fun row hrow => ?_
    simp [isInvalidRow_of_sound (hsound row hrow)]
  have hcounts := counts_add_up p t
  have hretry : checkedTime (statusRecord p t).nextRetryAt = .ok (statusRecord p t).nextRetryAt :=
    checkedTime_ok (min?_nonneg fun row hrow =>
      (hsound row (List.mem_filter.mp hrow).1).nextAttemptAt_nonneg)
  have holdest : checkedTime (statusRecord p t).oldestCreatedAt =
      .ok (statusRecord p t).oldestCreatedAt :=
    checkedTime_ok (min?_nonneg fun row hrow => (hsound row hrow).createdAt_nonneg)
  obtain ⟨category, hcategory⟩ : ∃ category,
      checkedCategory (statusRecord p t).lastErrorCategory = .ok category := by
    cases hlast : (statusRecord p t).lastErrorCategory with
    | none => exact ⟨none, rfl⟩
    | some value =>
      obtain ⟨row, hrow, hvalue⟩ := Option.bind_eq_some_iff.mp hlast
      have hmem := (List.mem_filter.mp (List.argmax_mem hrow)).1
      obtain ⟨category, rfl⟩ := (hsound row hmem).category value hvalue
      exact ⟨some category, by rw [checkedCategory, OutboxFailureCategory.ofValue?_value]⟩
  have hguard : ¬ ((statusRecord p t).invalidRows ≠ 0 ∨ (statusRecord p t).mismatch +
      (statusRecord p t).sending + (statusRecord p t).retry + (statusRecord p t).pending ≠
        (statusRecord p t).total) := by
    rw [hvalid, hcounts]
    simp
  rw [readStatusSnapshot, checkStatusRecord, if_neg hguard, hretry, holdest, hcategory]
  exact ⟨_, rfl, rfl, rfl, rfl, rfl, rfl⟩

end Snapshot

theorem degraded_of_mismatch {inspection : OutboxInspection} (h : 0 < inspection.mismatchCount)
    (now : ℚ) : (statusPayload inspection now).result = .degraded := by
  have hdegraded : inspection.degraded now = true := by
    simp [OutboxInspection.degraded, h]
  simp only [statusPayload, hdegraded, if_true]

open scoped Classical in
/-- **Claiming, deadline and status agree on eligibility.** -/
theorem eligibility_agrees {lib : Stdlib} {configs : List BetterHindsightConfig} {t : OutboxTable}
    (hreach : Reachable (OlderRelease lib configs) (OutboxStep lib configs) t)
    {config : BetterHindsightConfig} (hmem : config ∈ configs) (hacc : Accepted lib config)
    {outbox : SQLiteOutbox} (hinit : SQLiteOutbox.init lib config = .ok outbox) :
    (∀ owner now faults fault deadline,
      (outbox.claimDue owner (.finite now) faults t).1 ≠ .localFailure →
      outbox.nextMatchingRetryDeadline fault t = .ok deadline →
      ((outbox.claimDue owner (.finite now) faults t).1 = .empty ↔
        deadline = none ∨ ∃ d, deadline = some d ∧ now < d)) ∧
    ∃ p, statusParameters lib config = .ok p ∧ ∀ ownership, ∃ inspection,
      readStatusSnapshot p ownership t = .ok inspection ∧
      inspection.mismatchCount = t.rows.countP (fun row =>
        decide (¬ Selectable lib configs config t row.toRowIdentity)) ∧
      inspection.mismatchCount + inspection.sendingCount + inspection.retryCount +
        inspection.pendingCount = t.rows.length ∧
      inspection.logicalQueuedBytes = (SQLiteOutbox.usage t).2 ∧
      ((∃ row ∈ t.rows, ¬ Selectable lib configs config t row.toRowIdentity) →
        ∀ now, (statusPayload inspection now).result = .degraded) := by
  have hof := SQLiteOutbox.HandleOf.of_init hinit
  have hclosed := SQLiteOutbox.closed_of_init hinit
  obtain ⟨p, hp, hmatch⟩ := statusParameters_of_handle hof
  refine ⟨fun owner now faults fault deadline => SQLiteOutbox.empty_iff_deadline, p, hp,
    fun ownership => ?_⟩
  obtain ⟨inspection, hread, hmismatch, hsending, hretry, hpending, hbytes⟩ :=
    readStatusSnapshot_ok (sound_of_reachable hreach) p ownership
  have hcount : inspection.mismatchCount = t.rows.countP (fun row =>
      decide (¬ Selectable lib configs config t row.toRowIdentity)) := by
    rw [hmismatch]
    refine List.countP_congr fun row hrow => ?_
    rw [hmatch, Bool.not_eq_true', decide_eq_true_eq,
      selectable_iff hmem hacc hof hclosed hrow, Bool.not_eq_true]
  refine ⟨inspection, hread, hcount, ?_, hbytes, ?_⟩
  · rw [hmismatch, hsending, hretry, hpending]
    exact counts_add_up p t
  · rintro ⟨row, hrow, hblocked⟩ now
    refine degraded_of_mismatch ?_ now
    rw [hcount, List.countP_pos_iff]
    exact ⟨row, hrow, by simpa using hblocked⟩

theorem eligibility_agrees_legacyTable : ∃ p inspection,
    statusParameters (.ofDigests destinationDigests) defaultConfig = .ok p ∧
      readStatusSnapshot p .free legacyTable = .ok inspection ∧ inspection.mismatchCount = 1 ∧
      (statusPayload inspection 0).result = .degraded := by
  obtain ⟨outbox, hinit⟩ := SQLiteOutbox.exists_init (stableUrls_ofDigests destinationDigests)
    (accepted_default destinationDigests)
  obtain ⟨-, p, hp, hstatus⟩ := eligibility_agrees (.init olderRelease_legacyTable)
    (List.mem_cons_self (a := defaultConfig) (l := [otherConfig])) (accepted_default _) hinit
  obtain ⟨inspection, hread, hcount, -, -, hdegraded⟩ := hstatus .free
  have hof := SQLiteOutbox.HandleOf.of_init hinit
  have hclosed := SQLiteOutbox.closed_of_init hinit
  have hlegacy := Except.ok.inj (hof.legacy.symm.trans legacyFingerprint_default)
  have hselect : ∀ row ∈ legacyTable.rows, Selectable (.ofDigests destinationDigests)
      [defaultConfig, otherConfig] defaultConfig legacyTable row.toRowIdentity ↔
        row.documentId = ['a'] := by
    intro row hrow
    rw [selectable_iff List.mem_cons_self (accepted_default _) hof hclosed hrow]
    simp only [legacyTable, List.mem_cons, List.not_mem_nil, or_false] at hrow
    rcases hrow with rfl | rfl
    · exact iff_of_true ((hof.isEligible_iff (HexDigest.ne_nil _)).mpr
        (.inr (.inl ⟨rfl, by rw [hlegacy]; rfl⟩))) rfl
    · refine iff_of_false (fun hel => ?_) (by decide)
      rcases (hof.isEligible_iff (HexDigest.ne_nil _)).mp hel with ⟨h, -⟩ | ⟨-, h⟩ | ⟨h, -⟩
      · exact absurd h (by decide +kernel)
      · rw [hlegacy] at h
        exact absurd h (by decide +kernel)
      · exact absurd h (by decide +kernel)
  have hone : inspection.mismatchCount = 1 := by
    rw [hcount, List.countP_congr (q := fun row => row.documentId ≠ ['a'])]
    · decide
    · intro row hrow
      simp [hselect row hrow]
  refine ⟨p, inspection, hp, hread, hone, hdegraded ?_ 0⟩
  exact ⟨legacyTable.rows[1], by simp, (hselect _ (by simp)).not.mpr (by decide)⟩

end BetterHindsight
