import BetterHindsight.Foundations.Dict
import BetterHindsight.Multimodal
import BetterHindsight.Outbox.Handle

/-! # Admission

`SQLiteOutbox.admit` with its candidate validation and its transaction.

* `validSegment`, `validateCandidates`: what a sequence of segments must be to be admitted at all.
* `admitProgram`, `admitSegments`: the transaction, and `admit` itself. -/

namespace BetterHindsight
set_option autoImplicit false

inductive AdmissionStatus where
  | admitted
  | duplicate
  | capacityExceeded
  | conflict
  | contended
  | localFailure
  | invalid
  deriving DecidableEq

structure AdmissionResult where
  status : AdmissionStatus
  insertedCount : ℕ
  duplicateCount : ℕ
  deriving DecidableEq

/-- A result without counts. -/
def AdmissionResult.of (status : AdmissionStatus) : AdmissionResult := ⟨status, 0, 0⟩

/-- Whether every requested row is durably present with exact immutable values. -/
def AdmissionResult.accepted (result : AdmissionResult) : Bool :=
  result.status == .admitted || result.status == .duplicate

/-- `_segment_immutable_values`, the columns that a stored row must share with a segment. -/
structure ImmutableValues where
  payloadHash : Text
  payloadSchema : Text
  sourceSha256 : Text
  segmentIndex : ℤ
  segmentCount : ℤ
  content : Text
  destinationFingerprint : Text
  deriving DecidableEq

def segmentImmutableValues (segment : RetainedSegment) (destinationFingerprint : Text) :
    ImmutableValues :=
  ⟨segment.payloadHash, segment.payloadSchema, segment.sourceSha256, segment.segmentIndex,
    segment.segmentCount, segment.content, destinationFingerprint⟩

def RowIdentity.immutableValues (row : RowIdentity) : ImmutableValues :=
  ⟨row.payloadHash, row.payloadSchema, row.sourceSha256, row.segmentIndex, row.segmentCount,
    row.content, row.destinationFingerprint⟩

namespace SQLiteOutbox

/-! ## Validation -/

/-- `_fingerprint` -/
def fingerprint (outbox : SQLiteOutbox) (segment : RetainedSegment) : Text :=
  if segment.payloadSchema = MULTIMODAL_PAYLOAD_SCHEMA then
    outbox.multimodalDestinationFingerprint.text
  else outbox.destinationFingerprint.text

/-- The checks that `_valid_segment` makes of multimodal segments only. -/
def validMultimodal (lib : Stdlib) (outbox : SQLiteOutbox) (segment : RetainedSegment) : Bool :=
  outbox.config.multimodal.enabled && outbox.config.retain.enabled &&
    (decodeEnvelope lib outbox.config segment.content).isSome && segment.segmentIndex == 0 &&
    segment.segmentCount == 1 && (lib.sha256Text segment.content).text == segment.sourceSha256

/-- The content limit of a segment. -/
def contentLimit (outbox : SQLiteOutbox) (segment : RetainedSegment) : ℤ :=
  if segment.payloadSchema = MULTIMODAL_PAYLOAD_SCHEMA then
    outbox.config.multimodal.maxEncodedBytes
  else outbox.segmentMaxBytes

def validSegment (lib : Stdlib) (outbox : SQLiteOutbox) (segment : RetainedSegment) : Bool :=
  let expectedHash := deriveSegmentPayloadHash lib segment.payloadSchema segment.sourceSha256
    segment.segmentIndex segment.segmentCount segment.content
  [PAYLOAD_SCHEMA_VERSION, MULTIMODAL_PAYLOAD_SCHEMA].contains segment.payloadSchema &&
    (segment.payloadSchema != MULTIMODAL_PAYLOAD_SCHEMA || outbox.validMultimodal lib segment) &&
    isHex 64 segment.payloadHash && isHex 64 segment.sourceSha256 &&
    decide (0 ≤ segment.segmentIndex ∧ 0 < segment.segmentCount ∧
      segment.segmentIndex < segment.segmentCount) &&
    segment.content != [] &&
    decide ((utf8Len segment.content : ℤ) ≤ outbox.contentLimit segment) &&
    segment.payloadHash == expectedHash &&
    segment.documentId == segment.payloadSchema ++ ':' :: expectedHash

/-- The loop of `_validate_candidates`: the segments by document id, and how many were repeats. -/
def collectUnique (lib : Stdlib) (outbox : SQLiteOutbox) :
    List RetainedSegment → Dict Text RetainedSegment → ℕ → Option (Dict Text RetainedSegment × ℕ)
  | [], unique, repeatedCount => some (unique, repeatedCount)
  | segment :: segments, unique, repeatedCount =>
    if outbox.validSegment lib segment then
      match unique.get? segment.documentId with
      | none => collectUnique lib outbox segments (unique.set segment.documentId segment) repeatedCount
      | some prior =>
        if segmentImmutableValues prior (outbox.fingerprint prior) =
            segmentImmutableValues segment (outbox.fingerprint segment) then
          collectUnique lib outbox segments unique (repeatedCount + 1)
        else none
    else none

/-- `sorted(segments, key=lambda segment: segment.segment_index)` -/
def sortByIndex (segments : List RetainedSegment) : List RetainedSegment :=
  segments.insertionSort fun a b => a.segmentIndex ≤ b.segmentIndex

/-- `"".join(segment.content for segment in candidates)` -/
def joinedContent (candidates : List RetainedSegment) : Text :=
  candidates.flatMap fun segment => segment.content

/-- The candidates are one complete turn. -/
def isCompleteTurn (lib : Stdlib) (candidates : List RetainedSegment) : Bool :=
  match candidates with
  | [] => false
  | first :: _ =>
    decide ((candidates.length : ℤ) = first.segmentCount) &&
      candidates.map (fun segment => segment.segmentIndex) ==
        (List.range first.segmentCount.toNat).map Int.ofNat &&
      candidates.all (fun segment => segment.payloadSchema == first.payloadSchema &&
        segment.sourceSha256 == first.sourceSha256 &&
        segment.segmentCount == first.segmentCount) &&
      (lib.sha256Text (joinedContent candidates)).text == first.sourceSha256

def validateCandidates (lib : Stdlib) (outbox : SQLiteOutbox) (segments : List RetainedSegment) :
    Option (List RetainedSegment × ℕ) :=
  if segments = [] then none
  else
    match outbox.collectUnique lib segments .empty 0 with
    | none => none
    | some (unique, repeatedCount) =>
      let candidates := sortByIndex unique.values
      if isCompleteTurn lib candidates then some (candidates, repeatedCount) else none

/-! ## The transaction -/

/-- One round of the loop that looks the candidates up: the new segments and the duplicates so
far, or `none` after a conflict. -/
def lookUp (outbox : SQLiteOutbox) (segment : RetainedSegment)
    (found : Option (List RetainedSegment × ℕ)) :
    Sql OutboxTable StorageError (Option (List RetainedSegment × ℕ)) :=
  match found with
  | none => return none
  | some (newSegments, duplicateCount) => do
    match ← Sql.query fun t => t.find? segment.documentId with
    | none => return some (newSegments ++ [segment], duplicateCount)
    | some existing =>
      if existing.immutableValues ≠ segmentImmutableValues segment (outbox.fingerprint segment) then
        return none
      else return some (newSegments, duplicateCount + 1)

/-- The row that admission inserts for a segment. -/
def admittedRow (outbox : SQLiteOutbox) (timestamp : WallTime) (segment : RetainedSegment) :
    OutboxRow where
  documentId := segment.documentId
  payloadHash := segment.payloadHash
  payloadSchema := segment.payloadSchema
  sourceSha256 := segment.sourceSha256
  segmentIndex := segment.segmentIndex
  segmentCount := segment.segmentCount
  content := segment.content
  destinationFingerprint := outbox.fingerprint segment
  createdAt := timestamp.seconds
  state := .pending
  attemptCount := 0
  nextAttemptAt := timestamp.seconds
  lastErrorCategory := none
  updatedAt := timestamp.seconds

/-- What a segment adds to the accounted bytes. -/
def segmentBytes (segment : RetainedSegment) : ℕ :=
  utf8Len segment.content + OUTBOX_ROW_ACCOUNTING_ALLOWANCE_BYTES

/-- `COUNT(*)` and the byte sum of the table. -/
def usage (t : OutboxTable) : ℕ × ℕ :=
  (t.rows.length, (t.rows.map fun row => row.accountedBytes).sum)

/-- `executemany("INSERT ...")` -/
def insertRows : List OutboxRow → OutboxTable → Except StorageError OutboxTable
  | [], t => .ok t
  | row :: rows, t =>
    match t.insertRow row with
    | none => .error .failure
    | some t' => insertRows rows t'

def admitProgram (outbox : SQLiteOutbox) (candidates : List RetainedSegment) (repeatedCount : ℕ)
    (timestamp : WallTime) : Sql OutboxTable StorageError AdmissionResult := do
  match ← Sql.forEach outbox.lookUp candidates (some ([], repeatedCount)) with
  | none => return .of .conflict
  | some (newSegments, duplicateCount) =>
    if newSegments = [] then return ⟨.duplicate, 0, duplicateCount⟩
    else
      let (existingRows, existingBytes) ← Sql.query usage
      let newBytes := (newSegments.map segmentBytes).sum
      if ((existingRows + newSegments.length : ℕ) : ℤ) > outbox.maxPendingRows ∨
          ((existingBytes + newBytes : ℕ) : ℤ) > outbox.maxPendingBytes then
        return .of .capacityExceeded
      else
        Sql.statement fun t =>
          (insertRows (newSegments.map (outbox.admittedRow timestamp)) t).map fun t' => ((), t')
        return ⟨.admitted, newSegments.length, duplicateCount⟩

/-- `admit` -/
def admitSegments (lib : Stdlib) (outbox : SQLiteOutbox) (segments : List RetainedSegment)
    (timestamp : WallTime) (faults : Faults) (t : OutboxTable) : AdmissionResult × OutboxTable :=
  match outbox.validateCandidates lib segments with
  | none => (.of .invalid, t)
  | some (candidates, repeatedCount) =>
    if outbox.closed then (.of .localFailure, t)
    else
      match transaction (outbox.admitProgram candidates repeatedCount timestamp)
          AdmissionResult.accepted t faults with
      | (.error .contention, t') => (.of .contended, t')
      | (.error _, t') => (.of .localFailure, t')
      | (.ok result, t') => (result, t')

end SQLiteOutbox

end BetterHindsight
