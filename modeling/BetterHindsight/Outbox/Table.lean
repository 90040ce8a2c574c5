import BetterHindsight.Foundations.Transactions
import BetterHindsight.Retention.Segment

/-! # The outbox table

The rows of the `outbox` table and the statements that the outbox runs on it. A row is its immutable
columns together with the columns that a delivery attempt moves; `UPDATE` can only reach the latter.

* `OutboxTable`: rows with one row for each `document_id`, within the table's `CHECK` constraints.
* `insertRow`, `updateWhere`, `deleteWhere`: the writing statements, with their row counts. -/

namespace BetterHindsight
set_option autoImplicit false

/-! ## Rows -/

inductive RowState where
  | pending
  | sending
  deriving DecidableEq

/-- The columns that no statement updates. -/
structure RowIdentity where
  documentId : Text
  payloadHash : Text
  payloadSchema : Text
  sourceSha256 : Text
  segmentIndex : ℤ
  segmentCount : ℤ
  content : Text
  destinationFingerprint : Text
  createdAt : ℚ
  deriving DecidableEq

/-- The columns that a delivery attempt moves. -/
structure RowProgress where
  state : RowState
  attemptCount : ℕ
  nextAttemptAt : ℚ
  lastErrorCategory : Option Text
  updatedAt : ℚ
  deriving DecidableEq

structure OutboxRow extends RowIdentity, RowProgress where
  deriving DecidableEq

/-- The row with other progress. -/
def OutboxRow.withProgress (row : OutboxRow) (p : RowProgress) : OutboxRow :=
  { row with toRowProgress := p }

@[simp] theorem OutboxRow.withProgress_identity (row : OutboxRow) (p : RowProgress) :
    (row.withProgress p).toRowIdentity = row.toRowIdentity := rfl

@[simp] theorem OutboxRow.withProgress_progress (row : OutboxRow) (p : RowProgress) :
    (row.withProgress p).toRowProgress = p := rfl

/-- `LENGTH(CAST(content AS BLOB)) + allowance` -/
def RowIdentity.accountedBytes (row : RowIdentity) : ℕ :=
  utf8Len row.content + OUTBOX_ROW_ACCOUNTING_ALLOWANCE_BYTES

/-- The `CHECK` constraints on the columns that are not of a narrower type here. -/
def RowIdentity.Checked (row : RowIdentity) : Prop := 0 ≤ row.segmentIndex ∧ 0 < row.segmentCount

instance (row : RowIdentity) : Decidable row.Checked := by
  unfold RowIdentity.Checked
  infer_instance

/-! ## Tables -/

structure OutboxTable where
  rows : List OutboxRow
  primaryKey : (rows.map fun row => row.documentId).Nodup
  checks : ∀ row ∈ rows, row.toRowIdentity.Checked

namespace OutboxTable

def empty : OutboxTable := ⟨[], by simp, by simp⟩

theorem ext {s t : OutboxTable} (h : s.rows = t.rows) : s = t := by
  cases s
  cases t
  subst h
  rfl

instance : DecidableEq OutboxTable := fun s t =>
  decidable_of_iff (s.rows = t.rows) ⟨ext, congrArg rows⟩

/-- `WHERE document_id = ?` -/
def find? (t : OutboxTable) (documentId : Text) : Option OutboxRow :=
  t.rows.find? fun row => row.documentId = documentId

theorem eq_of_documentId {t : OutboxTable} {a b : OutboxRow} (ha : a ∈ t.rows) (hb : b ∈ t.rows)
    (h : a.documentId = b.documentId) : a = b :=
  List.inj_on_of_nodup_map t.primaryKey ha hb h

theorem find?_eq_some {t : OutboxTable} {documentId : Text} {row : OutboxRow} :
    t.find? documentId = some row ↔ row ∈ t.rows ∧ row.documentId = documentId := by
  constructor
  · intro h
    exact ⟨List.mem_of_find?_eq_some h, by simpa using List.find?_some h⟩
  · rintro ⟨hmem, hid⟩
    cases h : t.find? documentId with
    | none =>
      rw [find?, List.find?_eq_none] at h
      exact absurd hid (by simpa using h row hmem)
    | some r =>
      have hr : r.documentId = documentId := by simpa using List.find?_some h
      rw [eq_of_documentId (List.mem_of_find?_eq_some h) hmem (hr.trans hid.symm)]

theorem find?_eq_none {t : OutboxTable} {documentId : Text} :
    t.find? documentId = none ↔ ∀ row ∈ t.rows, row.documentId ≠ documentId := by
  simp [find?, List.find?_eq_none]

/-- `INSERT`; `none` when the primary key or a `CHECK` refuses the row. -/
def insertRow (t : OutboxTable) (row : OutboxRow) : Option OutboxTable :=
  if h : (∀ r ∈ t.rows, r.documentId ≠ row.documentId) ∧ row.toRowIdentity.Checked then
    some {
      rows := t.rows ++ [row]
      primaryKey := by
        rw [List.map_append, List.nodup_append]
        refine ⟨t.primaryKey, by simp, ?_⟩
        intro a ha b hb hab
        obtain ⟨r, hr, rfl⟩ := List.mem_map.mp ha
        exact h.1 r hr (by simpa [← hab] using hb)
      checks := by
        intro r hr
        rcases List.mem_append.mp hr with hr | hr
        · exact t.checks r hr
        · rw [List.mem_singleton] at hr
          exact hr ▸ h.2 }
  else none

theorem insertRow_eq_some {t t' : OutboxTable} {row : OutboxRow} (h : t.insertRow row = some t') :
    t'.rows = t.rows ++ [row] := by
  unfold insertRow at h
  split at h
  · cases h
    rfl
  · cases h

/-- `UPDATE ... WHERE p`, with its row count. -/
def updateWhere (t : OutboxTable) (p : OutboxRow → Bool) (f : RowProgress → RowProgress) :
    ℕ × OutboxTable :=
  (t.rows.countP p, {
    rows := t.rows.map fun row => if p row then row.withProgress (f row.toRowProgress) else row
    primaryKey := by
      rw [List.map_map]
      convert t.primaryKey using 1
      apply List.map_congr_left
      intro row _
      simp only [Function.comp]
      split <;> rfl
    checks := by
      intro row hrow
      obtain ⟨r, hr, rfl⟩ := List.mem_map.mp hrow
      have := t.checks r hr
      split
      · exact this
      · exact this })

/-- `DELETE ... WHERE p`, with its row count. -/
def deleteWhere (t : OutboxTable) (p : OutboxRow → Bool) : ℕ × OutboxTable :=
  (t.rows.countP p, {
    rows := t.rows.filter fun row => !p row
    primaryKey := t.primaryKey.sublist (List.filter_sublist.map _)
    checks := fun row hrow => t.checks row (List.mem_filter.mp hrow).1 })

@[simp] theorem updateWhere_rows (t : OutboxTable) (p : OutboxRow → Bool)
    (f : RowProgress → RowProgress) : (t.updateWhere p f).2.rows =
      t.rows.map fun row => if p row then row.withProgress (f row.toRowProgress) else row := rfl

@[simp] theorem updateWhere_count (t : OutboxTable) (p : OutboxRow → Bool)
    (f : RowProgress → RowProgress) : (t.updateWhere p f).1 = t.rows.countP p := rfl

@[simp] theorem deleteWhere_rows (t : OutboxTable) (p : OutboxRow → Bool) :
    (t.deleteWhere p).2.rows = t.rows.filter fun row => !p row := rfl

@[simp] theorem deleteWhere_count (t : OutboxTable) (p : OutboxRow → Bool) :
    (t.deleteWhere p).1 = t.rows.countP p := rfl

/-- A condition on the key of one stored row selects exactly this row. -/
theorem countP_documentId {t : OutboxTable} {row : OutboxRow} (hrow : row ∈ t.rows)
    {p : OutboxRow → Bool} (hp : p row = true)
    (honly : ∀ r, p r = true → r.documentId = row.documentId) : t.rows.countP p = 1 := by
  have hnodup : (t.rows.filter p).Nodup :=
    (t.primaryKey.of_map).sublist List.filter_sublist
  have hall : ∀ r ∈ t.rows.filter p, r = row := fun r hr =>
    eq_of_documentId (List.mem_filter.mp hr).1 hrow (honly r (List.mem_filter.mp hr).2)
  have hmem : row ∈ t.rows.filter p := List.mem_filter.mpr ⟨hrow, hp⟩
  rw [List.countP_eq_length_filter]
  match hf : t.rows.filter p with
  | [] => simp [hf] at hmem
  | [_] => rfl
  | a :: b :: rest =>
    rw [hf] at hnodup hall
    have hab : a = b := (hall a (by simp)).trans (hall b (by simp)).symm
    simp [hab] at hnodup

end OutboxTable

end BetterHindsight
