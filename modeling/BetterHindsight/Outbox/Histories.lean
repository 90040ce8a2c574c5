import BetterHindsight.Foundations.Runs
import BetterHindsight.Outbox.AdmissionSpec
import BetterHindsight.Outbox.Transitions

/-! # Histories of an outbox

Sequences of operations on one outbox table, each of them through a handle of some accepted
configuration and with whatever faults it meets.

* `OutboxCall`, `OutboxStep`: one call of an operation and the table that it leaves.
* `OutboxEffect`: everything that a call can do to the table.
* `Sound`: what the status snapshot checks of a row. It holds of every row of every table that a
  history reaches. -/

namespace BetterHindsight
set_option autoImplicit false

/-! ## Calls -/

inductive OutboxOperation where
  | admission (segments : List RetainedSegment) (timestamp : WallTime)
  | recoverSending (owner : OwnerChecks) (now : PyFloat)
  | claimDue (owner : OwnerChecks) (now : PyFloat)
  | completeClaim (owner : OwnerChecks) (documentId : Text) (attemptCount : ℤ)
  | rescheduleClaim (owner : OwnerChecks) (documentId : Text) (attemptCount : ℤ)
      (category : OutboxFailureCategory) (completedAt : PyFloat)

/-- One call through a handle, and the faults that it meets. -/
structure OutboxCall where
  outbox : SQLiteOutbox
  operation : OutboxOperation
  faults : Faults

/-- The table that is durable after the call. -/
def OutboxCall.run (lib : Stdlib) (call : OutboxCall) (t : OutboxTable) : OutboxTable :=
  match call.operation with
  | .admission segments timestamp => (call.outbox.admitSegments lib segments timestamp call.faults t).2
  | .recoverSending owner now => (call.outbox.recoverSending owner now call.faults t).2
  | .claimDue owner now => (call.outbox.claimDue owner now call.faults t).2
  | .completeClaim owner documentId attemptCount =>
    (call.outbox.completeClaim owner documentId attemptCount call.faults t).2
  | .rescheduleClaim owner documentId attemptCount category completedAt =>
    (call.outbox.rescheduleClaim lib owner documentId attemptCount category completedAt
      call.faults t).2

/-- A handle of one of the configurations in use. -/
def OpenedUnder (lib : Stdlib) (configs : List BetterHindsightConfig) (outbox : SQLiteOutbox) :
    Prop :=
  ∃ config ∈ configs, Accepted lib config ∧ outbox.HandleOf lib config

def OutboxStep (lib : Stdlib) (configs : List BetterHindsightConfig) (t : OutboxTable)
    (call : OutboxCall) (t' : OutboxTable) : Prop :=
  OpenedUnder lib configs call.outbox ∧ t' = call.run lib t

/-! ## Sound rows -/

/-- What the status snapshot checks of a row beyond the types of its columns. -/
structure OutboxRow.Sound (row : OutboxRow) : Prop where
  index_nonneg : 0 ≤ row.segmentIndex
  index_lt : row.segmentIndex < row.segmentCount
  nextAttemptAt_nonneg : 0 ≤ row.nextAttemptAt
  createdAt_nonneg : 0 ≤ row.createdAt
  updatedAt_nonneg : 0 ≤ row.updatedAt
  category : ∀ c, row.lastErrorCategory = some c →
    ∃ category : OutboxFailureCategory, c = category.value

/-- A row that an older release admitted for a destination in use. -/
structure LegacyRow (lib : Stdlib) (configs : List BetterHindsightConfig) (row : OutboxRow) :
    Prop where
  sound : row.Sound
  payloadSchema : row.payloadSchema = LEGACY_PAYLOAD_SCHEMA_VERSION
  fingerprint : ∃ config ∈ configs, Accepted lib config ∧ ∃ fingerprint,
    config.legacyDestinationFingerprint lib = .ok fingerprint ∧
      row.destinationFingerprint = fingerprint.text

/-- What an older release may have left behind; the empty table is one such table. -/
def OlderRelease (lib : Stdlib) (configs : List BetterHindsightConfig) (t : OutboxTable) : Prop :=
  ∀ row ∈ t.rows, LegacyRow lib configs row

theorem olderRelease_empty (lib : Stdlib) (configs : List BetterHindsightConfig) :
    OlderRelease lib configs .empty := by
  intro row hrow
  simp [OutboxTable.empty] at hrow

/-- A row of an older release under the given fingerprint. -/
def legacyRow (documentId : Text) (fingerprint : ℕ) : OutboxRow where
  documentId := documentId
  payloadHash := documentId
  payloadSchema := LEGACY_PAYLOAD_SCHEMA_VERSION
  sourceSha256 := documentId
  segmentIndex := 0
  segmentCount := 1
  content := ['x']
  destinationFingerprint := (HexDigest.ofNat fingerprint).text
  createdAt := 0
  state := .pending
  attemptCount := 0
  nextAttemptAt := 0
  lastErrorCategory := none
  updatedAt := 0

/-- A row of the default configuration and a row of another bank. -/
def legacyTable : OutboxTable where
  rows := [legacyRow ['a'] 0xcc159870e013988d0bc9986bd0730aff7eacc26c88731226ee7004e72df75663,
    legacyRow ['b'] 0x88703ebbf20d4f50ea957aaf7442e8bba6436ba059e0e029e72bc14ddd2cf6c5]
  primaryKey := by decide
  checks := by decide

theorem legacyRow_sound (documentId : Text) (fingerprint : ℕ) :
    (legacyRow documentId fingerprint).Sound :=
  ⟨le_refl 0, zero_lt_one, le_refl 0, le_refl 0, le_refl 0, fun c hc => by cases hc⟩

theorem olderRelease_legacyTable :
    OlderRelease (.ofDigests destinationDigests) [defaultConfig, otherConfig] legacyTable := by
  intro row hrow
  simp only [legacyTable, List.mem_cons, List.not_mem_nil, or_false] at hrow
  rcases hrow with rfl | rfl
  · exact ⟨legacyRow_sound _ _, rfl, defaultConfig, by simp, accepted_default _, _,
      legacyFingerprint_default, rfl⟩
  · exact ⟨legacyRow_sound _ _, rfl, otherConfig, by simp, accepted_other _, _,
      legacyFingerprint_other, rfl⟩

/-! ## Effects -/

/-- What a call through the handle can do to the table. -/
inductive OutboxEffect (lib : Stdlib) (outbox : SQLiteOutbox) (t : OutboxTable) :
    OutboxTable → Prop
  | unchanged : OutboxEffect lib outbox t t
  | admitted {t' : OutboxTable} {new : List RetainedSegment} {timestamp : WallTime}
      (valid : ∀ segment ∈ new, outbox.ValidSegment lib segment)
      (absent : ∀ segment ∈ new, ∀ row ∈ t.rows, row.documentId ≠ segment.documentId)
      (rows : t'.rows = t.rows ++ new.map (outbox.admittedRow timestamp)) :
      OutboxEffect lib outbox t t'
  | recovered {now : ℚ} (hnow : 0 ≤ now) : OutboxEffect lib outbox t (t.recovered now)
  | claimed {now : ℚ} {row : OutboxRow} (hnow : 0 ≤ now) (due : outbox.dueRow now t = some row) :
      OutboxEffect lib outbox t (t.updateRow row.documentId (SQLiteOutbox.claimedProgress now))
  | completed {row : OutboxRow} (mem : row ∈ t.rows) (sending : row.state = .sending) :
      OutboxEffect lib outbox t (t.deleteRow row.documentId)
  | rescheduled {row : OutboxRow} {category : OutboxFailureCategory} {next completedAt : ℚ}
      (mem : row ∈ t.rows) (sending : row.state = .sending) (hnext : 0 ≤ next)
      (hat : 0 ≤ completedAt) : OutboxEffect lib outbox t (t.updateRow row.documentId
        (SQLiteOutbox.rescheduledProgress category next completedAt))

theorem validWallTime_eq_some {now : PyFloat} {q : ℚ} :
    validWallTime now = some q ↔ now = .finite q ∧ 0 ≤ q := by
  cases now with
  | finite r =>
    simp only [validWallTime, Option.ite_none_left_eq_some, not_lt, Option.some.injEq,
      PyFloat.finite.injEq]
    constructor
    · rintro ⟨h, rfl⟩
      exact ⟨rfl, h⟩
    · rintro ⟨rfl, h⟩
      exact ⟨h, rfl⟩
  | posInf => simp [validWallTime]
  | negInf => simp [validWallTime]
  | nan => simp [validWallTime]

theorem retryDelayLoop_nonneg {maximum : ℚ} (hmax : 0 ≤ maximum) (n : ℕ) {delay : ℚ}
    (h : 0 ≤ delay) : 0 ≤ retryDelayLoop maximum n delay := by
  induction n generalizing delay with
  | zero => exact h
  | succ n ih =>
    rw [retryDelayLoop]
    split
    · exact ih (le_min (mul_nonneg h zero_le_two) hmax)
    · exact h

theorem retryDelaySeconds_nonneg {attemptCount : ℤ} {initial maximum : ℚ} (h : 0 ≤ initial) :
    0 ≤ retryDelaySeconds attemptCount initial maximum := by
  unfold retryDelaySeconds
  split
  · exact h
  · rename_i hlt
    simp only [not_or, not_le] at hlt
    exact retryDelayLoop_nonneg (h.trans hlt.2.le) _ h

/-- An admission inserts the rows of a turn that are absent, or nothing. -/
theorem SQLiteOutbox.admit_cases (lib : Stdlib) (outbox : SQLiteOutbox)
    (segments : List RetainedSegment) (timestamp : WallTime) (faults : Faults) (t : OutboxTable) :
    (outbox.admitSegments lib segments timestamp faults t).2 = t ∨
      ∃ turn, outbox.IsTurnOf lib segments turn ∧
        (outbox.admitSegments lib segments timestamp faults t).1.accepted = true ∧
        (outbox.admitSegments lib segments timestamp faults t).2.rows =
          t.rows ++ (absent t turn).map (outbox.admittedRow timestamp) := by
  obtain ⟨hinvalid, hturn⟩ := outbox.admit_exact lib segments timestamp faults t
  by_cases h : ∃ turn, outbox.IsTurnOf lib segments turn
  · obtain ⟨turn, h⟩ := h
    rcases hturn turn h with ⟨result, t', hrun, hout⟩ | ⟨-, hrun | hrun⟩
    · rw [hrun]
      cases hout with
      | conflict => exact .inl rfl
      | duplicate => exact .inl rfl
      | capacityExceeded => exact .inl rfl
      | admitted _ _ _ _ _ _ _ _ rows => exact .inr ⟨turn, h, rfl, rows⟩
    · rw [hrun]
      exact .inl rfl
    · rw [hrun]
      exact .inl rfl
  · rw [hinvalid h]
    exact .inl rfl

theorem OutboxStep.effect {lib : Stdlib} {configs : List BetterHindsightConfig} {t t' : OutboxTable}
    {call : OutboxCall} (h : OutboxStep lib configs t call t') :
    OutboxEffect lib call.outbox t t' := by
  obtain ⟨⟨config, -, hacc, hof⟩, rfl⟩ := h
  obtain ⟨outbox, operation, faults⟩ := call
  simp only at hof
  cases operation with
  | admission segments timestamp =>
    rcases outbox.admit_cases lib segments timestamp faults t with h | ⟨turn, hturn, -, h⟩
    · simp only [OutboxCall.run, h]
      exact .unchanged
    · refine .admitted (fun s hs => hturn.valid s (SQLiteOutbox.mem_absent.mp hs).1)
        (fun s hs => (SQLiteOutbox.mem_absent.mp hs).2) h
  | recoverSending owner now =>
    rcases outbox.recoverSending_cases owner now faults t with h | ⟨q, hq, -, h⟩
    · simp only [OutboxCall.run, h]
      exact .unchanged
    · simp only [OutboxCall.run, h]
      exact .recovered ((validWallTime_eq_some.mp hq).2)
  | claimDue owner now =>
    rcases outbox.claimDue_cases owner now faults t with h | ⟨q, hq, ⟨-, h⟩ | ⟨row, hrow, -, h⟩⟩
    · simp only [OutboxCall.run, h]
      exact .unchanged
    · simp only [OutboxCall.run, h]
      exact .unchanged
    · simp only [OutboxCall.run, h]
      exact .claimed ((validWallTime_eq_some.mp hq).2) hrow
  | completeClaim owner documentId attemptCount =>
    rcases outbox.completeClaim_cases owner documentId attemptCount faults t with
      h | ⟨row, hrow, rfl, hstate, -, -, h⟩
    · simp only [OutboxCall.run, h]
      exact .unchanged
    · simp only [OutboxCall.run, h]
      exact .completed hrow hstate
  | rescheduleClaim owner documentId attemptCount category completedAt =>
    rcases outbox.rescheduleClaim_cases lib owner documentId attemptCount category completedAt
      faults t with h | ⟨row, hrow, rfl, hstate, -, -, q, next, hq, hnext, h⟩
    · simp only [OutboxCall.run, h]
      exact .unchanged
    · simp only [OutboxCall.run, h]
      have hinitial : 0 ≤ outbox.retryInitialSeconds := by
        rw [hof.retryInitial]
        exact hacc.retryInitial_pos.le
      have hq0 := (validWallTime_eq_some.mp hq).2
      exact .rescheduled hrow hstate
        (lib.addFloat_nonneg hq0 (retryDelaySeconds_nonneg hinitial) hnext) hq0

/-! ## Every reachable row is sound -/

theorem OutboxRow.Sound.admitted {lib : Stdlib} {outbox : SQLiteOutbox}
    {segment : RetainedSegment} (h : outbox.ValidSegment lib segment) (timestamp : WallTime) :
    (outbox.admittedRow timestamp segment).Sound where
  index_nonneg := h.index_nonneg
  index_lt := h.index_lt
  nextAttemptAt_nonneg := timestamp.nonneg
  createdAt_nonneg := timestamp.nonneg
  updatedAt_nonneg := timestamp.nonneg
  category := fun c hc => by cases hc

theorem OutboxEffect.sound {lib : Stdlib} {outbox : SQLiteOutbox} {t t' : OutboxTable}
    (h : OutboxEffect lib outbox t t') (ht : ∀ row ∈ t.rows, row.Sound) :
    ∀ row ∈ t'.rows, row.Sound := by
  intro row hrow
  cases h with
  | unchanged => exact ht row hrow
  | admitted valid absent rows =>
    rw [rows, List.mem_append, List.mem_map] at hrow
    rcases hrow with hrow | ⟨segment, hs, rfl⟩
    · exact ht row hrow
    · exact .admitted (valid segment hs) _
  | recovered hnow =>
    rcases OutboxTable.mem_recovered.mp hrow with ⟨hrow, -⟩ | ⟨r, hr, -, rfl⟩
    · exact ht row hrow
    · have h := ht r hr
      exact ⟨h.index_nonneg, h.index_lt, hnow, h.createdAt_nonneg, hnow, h.category⟩
  | claimed hnow due =>
    rcases OutboxTable.mem_updateRow.mp hrow with ⟨hrow, -⟩ | ⟨r, hr, -, rfl⟩
    · exact ht row hrow
    · have h := ht r hr
      exact ⟨h.index_nonneg, h.index_lt, h.nextAttemptAt_nonneg, h.createdAt_nonneg, hnow,
        h.category⟩
  | completed mem sending => exact ht row (OutboxTable.mem_deleteRow.mp hrow).1
  | rescheduled mem sending hnext hat =>
    rcases OutboxTable.mem_updateRow.mp hrow with ⟨hrow, -⟩ | ⟨r, hr, -, rfl⟩
    · exact ht row hrow
    · have h := ht r hr
      refine ⟨h.index_nonneg, h.index_lt, hnext, h.createdAt_nonneg, hat, fun c hc => ?_⟩
      exact ⟨_, (Option.some.inj hc).symm⟩

theorem sound_of_reachable {lib : Stdlib} {configs : List BetterHindsightConfig} {t : OutboxTable}
    (h : Reachable (OlderRelease lib configs) (OutboxStep lib configs) t) :
    ∀ row ∈ t.rows, row.Sound := by
  refine h.invariant (fun t₀ h₀ row hrow => (h₀ row hrow).sound) ?_
  intro a l b ha hab
  exact hab.effect.sound ha

end BetterHindsight
