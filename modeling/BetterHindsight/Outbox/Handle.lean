import BetterHindsight.Outbox.Table

/-! # The outbox handle and the sender's operations

`SQLiteOutbox` and its operations of the lock owner: `recover_sending`, `claim_due`,
`complete_claim`, `reschedule_claim` and `next_matching_retry_deadline`. Every operation takes the
faults its statements meet and returns its result with the table that is durable afterwards. -/

namespace BetterHindsight
set_option autoImplicit false

/-- Why an operation raises: SQLite is busy, SQLite fails otherwise, or a guard refuses. -/
inductive StorageError where
  | contention
  | failure
  | guarded
  deriving DecidableEq

/-- What `_owner_descriptor` finds before the transaction and before its commit. -/
structure OwnerChecks where
  before : Bool
  after : Bool

structure SQLiteOutbox where
  config : BetterHindsightConfig
  multimodalDestinationFingerprint : HexDigest
  destinationFingerprint : HexDigest
  legacyDestinationFingerprint : HexDigest
  payloadSchema : Text
  maxPendingRows : ℤ
  maxPendingBytes : ℤ
  retryInitialSeconds : ℚ
  retryMaxSeconds : ℚ
  segmentMaxBytes : ℤ
  closed : Bool

abbrev Faults := List (Option StorageError)

inductive OutboxClaimResult where
  | claimed (row : OutboxRow)
  | empty
  | localFailure
  deriving DecidableEq

inductive OutboxTransitionResult where
  | applied (affectedCount : ℕ)
  | localFailure
  deriving DecidableEq

inductive OutboxFailureCategory where
  | retainTimeout
  | retainFailed
  | retainUnconfirmed
  deriving DecidableEq

def OutboxFailureCategory.value : OutboxFailureCategory → Text
  | retainTimeout => "retain_timeout"
  | retainFailed => "retain_failed"
  | retainUnconfirmed => "retain_unconfirmed"

/-- `OutboxReadError` and its retry category. -/
inductive OutboxReadError where
  | sqliteContention
  | localFailure
  deriving DecidableEq

/-- `_inspection_error_category` -/
def inspectionErrorCategory : StorageError → OutboxReadError
  | .contention => .sqliteContention
  | _ => .localFailure

/-! ## Guards -/

def validWallTime : PyFloat → Option ℚ
  | .finite q => if q < 0 then none else some q
  | _ => none

def validClaimGuard (documentId : Text) (attemptCount : ℤ) : Bool :=
  !documentId.isEmpty && decide (0 < attemptCount)

/-- The loop of `_retry_delay_seconds` with `remaining` rounds left. -/
def retryDelayLoop (maximum : ℚ) : ℕ → ℚ → ℚ
  | 0, delay => delay
  | remaining + 1, delay =>
    if delay < maximum then retryDelayLoop maximum remaining (min (delay * 2) maximum) else delay

def retryDelaySeconds (attemptCount : ℤ) (initial maximum : ℚ) : ℚ :=
  if initial ≤ 0 ∨ initial ≥ maximum then initial
  else retryDelayLoop maximum (attemptCount - 1).toNat initial

namespace SQLiteOutbox

def init (lib : Stdlib) (config : BetterHindsightConfig) : Except ConfigError SQLiteOutbox := do
  let multimodalDestinationFingerprint ← config.multimodalDestinationFingerprint lib
  let destinationFingerprint ← config.destinationFingerprint lib
  let legacyDestinationFingerprint ← config.legacyDestinationFingerprint lib
  return {
    config
    multimodalDestinationFingerprint
    destinationFingerprint
    legacyDestinationFingerprint
    payloadSchema := config.outbox.payloadSchema
    maxPendingRows := config.outbox.maxPendingRows
    maxPendingBytes := config.outbox.maxPendingBytes
    retryInitialSeconds := config.outbox.retryInitialSeconds
    retryMaxSeconds := config.outbox.retryMaxSeconds
    segmentMaxBytes := config.retain.segmentMaxBytes
    closed := false }

/-- A handle of a configuration: its fingerprints and limits, open or closed. -/
structure HandleOf (lib : Stdlib) (config : BetterHindsightConfig) (outbox : SQLiteOutbox) :
    Prop where
  config_eq : outbox.config = config
  multimodal : config.multimodalDestinationFingerprint lib =
    .ok outbox.multimodalDestinationFingerprint
  destination : config.destinationFingerprint lib = .ok outbox.destinationFingerprint
  legacy : config.legacyDestinationFingerprint lib = .ok outbox.legacyDestinationFingerprint
  payloadSchema : outbox.payloadSchema = PAYLOAD_SCHEMA_VERSION
  segmentMaxBytes : outbox.segmentMaxBytes = config.retain.segmentMaxBytes
  maxPendingRows : outbox.maxPendingRows = config.outbox.maxPendingRows
  maxPendingBytes : outbox.maxPendingBytes = config.outbox.maxPendingBytes
  retryInitial : outbox.retryInitialSeconds = config.outbox.retryInitialSeconds
  retryMax : outbox.retryMaxSeconds = config.outbox.retryMaxSeconds

theorem HandleOf.of_init {lib : Stdlib} {config : BetterHindsightConfig} {outbox : SQLiteOutbox}
    (h : init lib config = .ok outbox) : HandleOf lib config outbox := by
  unfold init at h
  obtain ⟨multimodal, hm, h⟩ := bind_ok h
  obtain ⟨destination, hd, h⟩ := bind_ok h
  obtain ⟨legacy, hl, h⟩ := bind_ok h
  cases h
  exact ⟨rfl, hm, hd, hl, rfl, rfl, rfl, rfl, rfl, rfl⟩

theorem closed_of_init {lib : Stdlib} {config : BetterHindsightConfig} {outbox : SQLiteOutbox}
    (h : init lib config = .ok outbox) : outbox.closed = false := by
  unfold init at h
  obtain ⟨multimodal, -, h⟩ := bind_ok h
  obtain ⟨destination, -, h⟩ := bind_ok h
  obtain ⟨legacy, -, h⟩ := bind_ok h
  cases h
  rfl

/-- Accepted configurations open. -/
theorem exists_init {lib : Stdlib} {config : BetterHindsightConfig} (hs : StableUrls lib)
    (h : Accepted lib config) : ∃ outbox, init lib config = .ok outbox := by
  have hd : config.destinationFingerprint lib = _ := h.fingerprintFor_eq hs (by simp)
  have hl : config.legacyDestinationFingerprint lib = _ := h.fingerprintFor_eq hs (by simp)
  rw [init, h.multimodalFingerprint_eq hs, hd, hl]
  exact ⟨_, rfl⟩

/-- The handle that the default configuration opens. -/
def defaultHandle : SQLiteOutbox where
  config := defaultConfig
  multimodalDestinationFingerprint := .ofNat
    0xe301c339e918739ffd2d2073cb533a7cdabe882324f5fbb2fe353cfdbc67911f
  destinationFingerprint := .ofNat
    0x56e9461573ee3d66c0f610d7008ee88ab3e79d138f5185b19e83fd5f93691d16
  legacyDestinationFingerprint := .ofNat
    0xcc159870e013988d0bc9986bd0730aff7eacc26c88731226ee7004e72df75663
  payloadSchema := defaultConfig.outbox.payloadSchema
  maxPendingRows := defaultConfig.outbox.maxPendingRows
  maxPendingBytes := defaultConfig.outbox.maxPendingBytes
  retryInitialSeconds := defaultConfig.outbox.retryInitialSeconds
  retryMaxSeconds := defaultConfig.outbox.retryMaxSeconds
  segmentMaxBytes := defaultConfig.retain.segmentMaxBytes
  closed := false

theorem handleOf_default : defaultHandle.HandleOf (.ofDigests destinationDigests) defaultConfig where
  config_eq := rfl
  multimodal := by
    rw [(accepted_default _).multimodalFingerprint_eq (stableUrls_ofDigests _)]
    exact congrArg Except.ok (HexDigest.ext (by decide +kernel))
  destination := fingerprintFor_ofDigests (accepted_default _) (by simp) (by decide +kernel)
  legacy := legacyFingerprint_default
  payloadSchema := rfl
  segmentMaxBytes := rfl
  maxPendingRows := rfl
  maxPendingBytes := rfl
  retryInitial := rfl
  retryMax := rfl

/-! ## Recovery -/

/-- One owner operation: its guards, its transaction, and the result of its program. -/
def ownerTransaction {α β : Type} (outbox : SQLiteOutbox) (owner : OwnerChecks) (failed : β)
    (program : Sql OutboxTable StorageError α) (keep : α → Bool) (result : α → β)
    (faults : Faults) (t : OutboxTable) : β × OutboxTable :=
  if outbox.closed = true ∨ owner.before = false then (failed, t)
  else
    match transaction program keep t faults with
    | (.error _, t') => (failed, t')
    | (.ok a, t') => (result a, t')

def recoverProgram (owner : OwnerChecks) (now : ℚ) : Sql OutboxTable StorageError ℕ := do
  let affectedCount ← Sql.update fun t => t.updateWhere (fun row => row.state = .sending)
    fun p => { p with state := .pending, nextAttemptAt := now, updatedAt := now }
  if owner.after = false then Sql.raise .guarded else return affectedCount

def recoverSending (outbox : SQLiteOutbox) (owner : OwnerChecks) (now : PyFloat) (faults : Faults)
    (t : OutboxTable) : OutboxTransitionResult × OutboxTable :=
  match validWallTime now with
  | none => (.localFailure, t)
  | some now =>
    outbox.ownerTransaction owner .localFailure (recoverProgram owner now) (fun _ => true) .applied
      faults t

/-! ## Claiming -/

/-- The third fingerprint of the claim and deadline statements, empty while multimodal rows may not
be sent. -/
def multimodalParameter (outbox : SQLiteOutbox) : Text :=
  if outbox.config.multimodal.enabled = true ∧ outbox.config.retain.enabled = true then
    outbox.multimodalDestinationFingerprint.text
  else []

/-- The `WHERE` clause of `claim_due`. -/
def isDue (outbox : SQLiteOutbox) (now : ℚ) (row : OutboxRow) : Bool :=
  row.state == .pending && decide (row.nextAttemptAt ≤ now) &&
    ((row.destinationFingerprint == outbox.destinationFingerprint.text &&
        row.payloadSchema == outbox.payloadSchema) ||
      (row.destinationFingerprint == outbox.legacyDestinationFingerprint.text &&
        row.payloadSchema == LEGACY_PAYLOAD_SCHEMA_VERSION) ||
      (row.destinationFingerprint == outbox.multimodalParameter &&
        row.payloadSchema == MULTIMODAL_PAYLOAD_SCHEMA))

/-- The columns of `ORDER BY` in `claim_due`. -/
def DueKey := ℚ ×ₗ ℚ ×ₗ Text ×ₗ ℤ ×ₗ Text

instance : LinearOrder DueKey :=
  @Prod.Lex.instLinearOrder ℚ _ _ <| @Prod.Lex.instLinearOrder ℚ _ _ <|
    @Prod.Lex.instLinearOrder Text _ _ <| @Prod.Lex.instLinearOrder ℤ Text Int.instLinearOrder _

def dueKey (row : OutboxRow) : DueKey :=
  toLex (row.nextAttemptAt, toLex (row.createdAt, toLex (row.sourceSha256,
    toLex (row.segmentIndex, row.documentId))))

def dueRow (outbox : SQLiteOutbox) (now : ℚ) (t : OutboxTable) : Option OutboxRow :=
  (t.rows.filter (outbox.isDue now)).argmin dueKey

/-- The row as it is claimed. -/
def claimedRow (now : ℚ) (row : OutboxRow) : OutboxRow :=
  row.withProgress { row.toRowProgress with
    state := .sending, attemptCount := row.attemptCount + 1, updatedAt := now }

/-- The `WHERE` clause of the guarded update in `claim_due`. -/
def isClaimTarget (now : ℚ) (record row : OutboxRow) : Bool :=
  row.documentId == record.documentId && row.state == .pending &&
    row.attemptCount == record.attemptCount && decide (row.nextAttemptAt ≤ now) &&
    row.destinationFingerprint == record.destinationFingerprint &&
    row.payloadSchema == record.payloadSchema

def claimProgram (outbox : SQLiteOutbox) (owner : OwnerChecks) (now : ℚ) :
    Sql OutboxTable StorageError (Option OutboxRow) := do
  match ← Sql.query (outbox.dueRow now) with
  | none => return none
  | some record =>
    let count ← Sql.update fun t => t.updateWhere (isClaimTarget now record) fun p =>
      { p with state := .sending, attemptCount := p.attemptCount + 1, updatedAt := now }
    if count ≠ 1 ∨ owner.after = false then Sql.raise .guarded
    else return some (claimedRow now record)

def claimDue (outbox : SQLiteOutbox) (owner : OwnerChecks) (now : PyFloat) (faults : Faults)
    (t : OutboxTable) : OutboxClaimResult × OutboxTable :=
  match validWallTime now with
  | none => (.localFailure, t)
  | some now =>
    outbox.ownerTransaction owner .localFailure (outbox.claimProgram owner now) Option.isSome
      (fun record => match record with
        | none => .empty
        | some row => .claimed row)
      faults t

/-! ## Completing and rescheduling -/

/-- The `WHERE` clause of `complete_claim` and `reschedule_claim`. -/
def isClaim (documentId : Text) (attemptCount : ℤ) (row : OutboxRow) : Bool :=
  row.documentId == documentId && row.state == .sending &&
    decide ((row.attemptCount : ℤ) = attemptCount)

def completeProgram (owner : OwnerChecks) (documentId : Text) (attemptCount : ℤ) :
    Sql OutboxTable StorageError ℕ := do
  let count ← Sql.update fun t => t.deleteWhere (isClaim documentId attemptCount)
  if count ≠ 1 ∨ owner.after = false then Sql.raise .guarded else return 1

def completeClaim (outbox : SQLiteOutbox) (owner : OwnerChecks) (documentId : Text)
    (attemptCount : ℤ) (faults : Faults) (t : OutboxTable) :
    OutboxTransitionResult × OutboxTable :=
  if validClaimGuard documentId attemptCount = false then (.localFailure, t)
  else
    outbox.ownerTransaction owner .localFailure (completeProgram owner documentId attemptCount)
      (fun _ => true) .applied faults t

def rescheduleProgram (owner : OwnerChecks) (documentId : Text) (attemptCount : ℤ)
    (category : OutboxFailureCategory) (nextAttemptAt completedAt : ℚ) :
    Sql OutboxTable StorageError ℕ := do
  let count ← Sql.update fun t => t.updateWhere (isClaim documentId attemptCount) fun p =>
    { p with
      state := .pending
      nextAttemptAt
      lastErrorCategory := some category.value
      updatedAt := completedAt }
  if count ≠ 1 ∨ owner.after = false then Sql.raise .guarded else return 1

def rescheduleClaim (lib : Stdlib) (outbox : SQLiteOutbox) (owner : OwnerChecks)
    (documentId : Text) (attemptCount : ℤ) (category : OutboxFailureCategory)
    (completedAt : PyFloat) (faults : Faults) (t : OutboxTable) :
    OutboxTransitionResult × OutboxTable :=
  match validWallTime completedAt with
  | none => (.localFailure, t)
  | some completedAt =>
    if validClaimGuard documentId attemptCount = false then (.localFailure, t)
    else
      let delay := retryDelaySeconds attemptCount outbox.retryInitialSeconds outbox.retryMaxSeconds
      match lib.addFloat completedAt delay with
      | .finite nextAttemptAt =>
        outbox.ownerTransaction owner .localFailure
          (rescheduleProgram owner documentId attemptCount category nextAttemptAt completedAt)
          (fun _ => true) .applied faults t
      | _ => (.localFailure, t)

/-! ## The retry deadline -/

/-- The `WHERE` clause of `next_matching_retry_deadline`. -/
def isMatchingPending (outbox : SQLiteOutbox) (row : OutboxRow) : Bool :=
  row.state == .pending &&
    ((row.destinationFingerprint == outbox.destinationFingerprint.text &&
        row.payloadSchema == outbox.payloadSchema) ||
      (row.destinationFingerprint == outbox.legacyDestinationFingerprint.text &&
        row.payloadSchema == LEGACY_PAYLOAD_SCHEMA_VERSION) ||
      (row.destinationFingerprint == outbox.multimodalParameter &&
        row.payloadSchema == MULTIMODAL_PAYLOAD_SCHEMA))

/-- `SELECT MIN(next_attempt_at)` over the matching pending rows. -/
def minDeadline (outbox : SQLiteOutbox) (t : OutboxTable) : Option ℚ :=
  ((t.rows.filter outbox.isMatchingPending).map fun row => row.nextAttemptAt).min?

def nextMatchingRetryDeadline (outbox : SQLiteOutbox) (fault : Option StorageError)
    (t : OutboxTable) : Except OutboxReadError (Option ℚ) :=
  if outbox.closed then .error .localFailure
  else
    match fault with
    | some e => .error (inspectionErrorCategory e)
    | none => .ok (outbox.minDeadline t)

end SQLiteOutbox

end BetterHindsight
