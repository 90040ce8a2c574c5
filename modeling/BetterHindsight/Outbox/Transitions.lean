import BetterHindsight.Outbox.Handle

/-! # What the sender's operations do

One lemma for each operation of the lock owner: it fails and leaves the table as it was, or it makes
the one change named here. No later proof unfolds an operation. -/

namespace BetterHindsight
set_option autoImplicit false

/-! ## Changes of one row -/

namespace OutboxTable

/-- The table with other progress in the row of one key. -/
def updateRow (t : OutboxTable) (documentId : Text) (f : RowProgress → RowProgress) : OutboxTable :=
  (t.updateWhere (fun row => row.documentId == documentId) f).2

/-- The table without the row of one key. -/
def deleteRow (t : OutboxTable) (documentId : Text) : OutboxTable :=
  (t.deleteWhere fun row => row.documentId == documentId).2

theorem mem_updateRow {t : OutboxTable} {documentId : Text} {f : RowProgress → RowProgress}
    {row : OutboxRow} : row ∈ (t.updateRow documentId f).rows ↔
      (row ∈ t.rows ∧ row.documentId ≠ documentId) ∨
        ∃ r ∈ t.rows, r.documentId = documentId ∧ row = r.withProgress (f r.toRowProgress) := by
  simp only [updateRow, updateWhere_rows, List.mem_map, beq_iff_eq]
  constructor
  · rintro ⟨r, hr, rfl⟩
    split
    · exact .inr ⟨r, hr, ‹_›, rfl⟩
    · exact .inl ⟨hr, ‹_›⟩
  · rintro (⟨hr, hne⟩ | ⟨r, hr, hid, rfl⟩)
    · exact ⟨row, hr, if_neg hne⟩
    · exact ⟨r, hr, if_pos hid⟩

theorem mem_deleteRow {t : OutboxTable} {documentId : Text} {row : OutboxRow} :
    row ∈ (t.deleteRow documentId).rows ↔ row ∈ t.rows ∧ row.documentId ≠ documentId := by
  simp [deleteRow]

/-- A condition that holds of one stored row only updates the row of its key. -/
theorem updateWhere_eq_updateRow {t : OutboxTable} {row : OutboxRow} (hrow : row ∈ t.rows)
    {p : OutboxRow → Bool} (hp : p row = true)
    (honly : ∀ r, p r = true → r.documentId = row.documentId) (f : RowProgress → RowProgress) :
    (t.updateWhere p f).2 = t.updateRow row.documentId f := by
  apply ext
  simp only [updateRow, updateWhere_rows]
  apply List.map_congr_left
  intro r hr
  by_cases hid : r.documentId = row.documentId
  · rw [eq_of_documentId hr hrow hid]
    simp [hp]
  · have hpr : p r = false := by
      by_contra h
      exact hid (honly r (by simpa using h))
    simp [hpr, hid]

theorem deleteWhere_eq_deleteRow {t : OutboxTable} {row : OutboxRow} (hrow : row ∈ t.rows)
    {p : OutboxRow → Bool} (hp : p row = true)
    (honly : ∀ r, p r = true → r.documentId = row.documentId) :
    (t.deleteWhere p).2 = t.deleteRow row.documentId := by
  apply ext
  simp only [deleteRow, deleteWhere_rows]
  apply List.filter_congr
  intro r hr
  by_cases hid : r.documentId = row.documentId
  · rw [eq_of_documentId hr hrow hid]
    simp [hp]
  · have hpr : p r = false := by
      by_contra h
      exact hid (honly r (by simpa using h))
    simp [hpr, hid]

/-- The table after `recover_sending`. -/
def recovered (t : OutboxTable) (now : ℚ) : OutboxTable :=
  (t.updateWhere (fun row => row.state = .sending)
    fun p => { p with state := .pending, nextAttemptAt := now, updatedAt := now }).2

theorem mem_recovered {t : OutboxTable} {now : ℚ} {row : OutboxRow} :
    row ∈ (t.recovered now).rows ↔
      (row ∈ t.rows ∧ row.state ≠ .sending) ∨
        ∃ r ∈ t.rows, r.state = .sending ∧ row = r.withProgress
          { r.toRowProgress with state := .pending, nextAttemptAt := now, updatedAt := now } := by
  simp only [recovered, updateWhere_rows, List.mem_map, decide_eq_true_eq]
  constructor
  · rintro ⟨r, hr, rfl⟩
    split
    · exact .inr ⟨r, hr, ‹_›, rfl⟩
    · exact .inl ⟨hr, ‹_›⟩
  · rintro (⟨hr, hne⟩ | ⟨r, hr, hs, rfl⟩)
    · exact ⟨row, hr, if_neg hne⟩
    · exact ⟨r, hr, if_pos hs⟩

end OutboxTable

namespace SQLiteOutbox

/-- An owner operation that does not fail has checked ownership and run its program. -/
theorem ownerTransaction_cases {α β : Type} {program : Sql OutboxTable StorageError α}
    (hp : program.Lawful) (outbox : SQLiteOutbox) (owner : OwnerChecks) (failed : β)
    (keep : α → Bool) (result : α → β) (faults : Faults) (t : OutboxTable) :
    outbox.ownerTransaction owner failed program keep result faults t = (failed, t) ∨
      (outbox.closed = false ∧ owner.before = true ∧ ∃ a t' fs, program.run t [] = .ok (a, t', fs) ∧
        outbox.ownerTransaction owner failed program keep result faults t =
          (result a, if keep a then t' else t)) := by
  unfold ownerTransaction
  split
  · exact .inl rfl
  · rename_i hguard
    simp only [not_or, Bool.not_eq_true, Bool.not_eq_false] at hguard
    have hrun : ∀ x, transaction program keep t faults = x →
        transaction program keep t [] = x ∨ ∃ e, x = (.error e, t) := by
      rintro x rfl
      rcases transaction_cases hp keep t faults with ⟨e, -, h⟩ | h
      · exact .inr ⟨e, h⟩
      · exact .inl h.symm
    rcases hrun _ rfl with h | ⟨e, h⟩
    · rw [← h, transaction_nil hp]
      cases hr : program.run t [] with
      | error e => exact .inl rfl
      | ok r => exact .inr ⟨hguard.1, hguard.2, r.1, r.2.1, r.2.2, rfl, rfl⟩
    · rw [h]
      exact .inl rfl

/-! ## Lawfulness -/

theorem recoverProgram_lawful (owner : OwnerChecks) (now : ℚ) :
    (recoverProgram owner now).Lawful := by
  exact .bind (.update _) fun count => .ite (.raise _) (.pure _)

theorem claimProgram_lawful (outbox : SQLiteOutbox) (owner : OwnerChecks) (now : ℚ) :
    (outbox.claimProgram owner now).Lawful := by
  refine .bind (.query _) fun record => ?_
  cases record with
  | none => exact .pure _
  | some row => exact .bind (.update _) fun count => .ite (.raise _) (.pure _)

theorem completeProgram_lawful (owner : OwnerChecks) (documentId : Text) (attemptCount : ℤ) :
    (completeProgram owner documentId attemptCount).Lawful := by
  exact .bind (.update _) fun count => .ite (.raise _) (.pure _)

theorem rescheduleProgram_lawful (owner : OwnerChecks) (documentId : Text) (attemptCount : ℤ)
    (category : OutboxFailureCategory) (next completedAt : ℚ) :
    (rescheduleProgram owner documentId attemptCount category next completedAt).Lawful := by
  exact .bind (.update _) fun count => .ite (.raise _) (.pure _)

/-! ## What each operation does -/

/-- The ownership that an operation checks before it commits. -/
def Owned (outbox : SQLiteOutbox) (owner : OwnerChecks) : Prop :=
  outbox.closed = false ∧ owner.before = true ∧ owner.after = true

theorem recoverSending_cases (outbox : SQLiteOutbox) (owner : OwnerChecks) (now : PyFloat)
    (faults : Faults) (t : OutboxTable) :
    outbox.recoverSending owner now faults t = (.localFailure, t) ∨
      ∃ at', validWallTime now = some at' ∧ outbox.Owned owner ∧
        outbox.recoverSending owner now faults t =
          (.applied (t.rows.countP fun row => row.state = .sending), t.recovered at') := by
  unfold recoverSending
  cases hnow : validWallTime now with
  | none => exact .inl rfl
  | some at' =>
    rcases outbox.ownerTransaction_cases (recoverProgram_lawful owner at') owner
      OutboxTransitionResult.localFailure (fun _ => true) .applied faults t with h | ⟨hc, hb, a, t', fs, hrun, h⟩
    · exact .inl h
    · simp only [recoverProgram, Sql.run_bind, Sql.run_update_nil] at hrun
      split at hrun
      · simp at hrun
      · rename_i ha
        simp only [Sql.run_pure, Except.ok.injEq, Prod.mk.injEq] at hrun
        obtain ⟨rfl, rfl, -⟩ := hrun
        exact .inr ⟨at', rfl, ⟨hc, hb, by simpa using ha⟩, h⟩

theorem isDue_of_dueRow {outbox : SQLiteOutbox} {now : ℚ} {t : OutboxTable} {row : OutboxRow}
    (h : outbox.dueRow now t = some row) : row ∈ t.rows ∧ outbox.isDue now row = true :=
  List.mem_filter.mp (List.argmin_mem h)

theorem dueRow_eq_none {outbox : SQLiteOutbox} {now : ℚ} {t : OutboxTable} :
    outbox.dueRow now t = none ↔ ∀ row ∈ t.rows, outbox.isDue now row = false := by
  rw [dueRow, List.argmin_eq_none, List.filter_eq_nil_iff]
  simp

/-- How `claim_due` moves the row that it claims. -/
def claimedProgress (now : ℚ) (p : RowProgress) : RowProgress :=
  { p with state := .sending, attemptCount := p.attemptCount + 1, updatedAt := now }

theorem isClaimTarget_self {outbox : SQLiteOutbox} {now : ℚ} {row : OutboxRow}
    (h : outbox.isDue now row = true) : isClaimTarget now row row = true := by
  simp only [isDue, Bool.and_eq_true] at h
  simp [isClaimTarget, h.1.1, h.1.2]

theorem claimDue_cases (outbox : SQLiteOutbox) (owner : OwnerChecks) (now : PyFloat)
    (faults : Faults) (t : OutboxTable) :
    outbox.claimDue owner now faults t = (.localFailure, t) ∨
      ∃ at', validWallTime now = some at' ∧
        ((outbox.dueRow at' t = none ∧ outbox.claimDue owner now faults t = (.empty, t)) ∨
        ∃ row, outbox.dueRow at' t = some row ∧ outbox.Owned owner ∧
          outbox.claimDue owner now faults t =
            (.claimed (claimedRow at' row),
              t.updateRow row.documentId (claimedProgress at'))) := by
  unfold claimDue
  cases hnow : validWallTime now with
  | none => exact .inl rfl
  | some at' =>
    rcases outbox.ownerTransaction_cases (outbox.claimProgram_lawful owner at') owner
      OutboxClaimResult.localFailure Option.isSome _ faults t with h | ⟨hc, hb, a, t', fs, hrun, h⟩
    · exact .inl h
    · simp only [claimProgram, Sql.run_bind, Sql.run_query_nil] at hrun
      cases hrow : outbox.dueRow at' t with
      | none =>
        simp only [hrow, Sql.run_pure, Except.ok.injEq, Prod.mk.injEq] at hrun
        obtain ⟨rfl, rfl, -⟩ := hrun
        exact .inr ⟨at', rfl, .inl ⟨hrow, h⟩⟩
      | some row =>
        simp only [hrow, Sql.run_bind, Sql.run_update_nil] at hrun
        split at hrun
        · simp at hrun
        · rename_i ha
          simp only [Sql.run_pure, Except.ok.injEq, Prod.mk.injEq] at hrun
          obtain ⟨rfl, rfl, -⟩ := hrun
          obtain ⟨hmem, hdue⟩ := isDue_of_dueRow hrow
          have honly : ∀ r, isClaimTarget at' row r = true → r.documentId = row.documentId := by
            intro r hr
            simp only [isClaimTarget, Bool.and_eq_true, beq_iff_eq] at hr
            exact hr.1.1.1.1.1
          rw [OutboxTable.updateWhere_eq_updateRow hmem (isClaimTarget_self hdue) honly] at h
          simp only [not_or, Bool.not_eq_false] at ha
          exact .inr ⟨at', rfl, .inr ⟨row, hrow, ⟨hc, hb, ha.2⟩, h⟩⟩

theorem isClaim_iff {documentId : Text} {attemptCount : ℤ} {row : OutboxRow} :
    isClaim documentId attemptCount row = true ↔
      row.documentId = documentId ∧ row.state = .sending ∧ (row.attemptCount : ℤ) = attemptCount := by
  simp [isClaim, and_assoc]

/-- A row count of one names the claimed row. -/
theorem exists_of_countP {t : OutboxTable} {documentId : Text} {attemptCount : ℤ}
    (h : ¬ t.rows.countP (isClaim documentId attemptCount) ≠ 1) :
    ∃ row ∈ t.rows, row.documentId = documentId ∧ row.state = .sending ∧
      (row.attemptCount : ℤ) = attemptCount := by
  have hpos : 0 < t.rows.countP (isClaim documentId attemptCount) := by omega
  obtain ⟨row, hrow, hp⟩ := List.countP_pos_iff.mp hpos
  exact ⟨row, hrow, isClaim_iff.mp hp⟩

theorem completeClaim_cases (outbox : SQLiteOutbox) (owner : OwnerChecks) (documentId : Text)
    (attemptCount : ℤ) (faults : Faults) (t : OutboxTable) :
    outbox.completeClaim owner documentId attemptCount faults t = (.localFailure, t) ∨
      ∃ row ∈ t.rows, row.documentId = documentId ∧ row.state = .sending ∧
        (row.attemptCount : ℤ) = attemptCount ∧ outbox.Owned owner ∧
        outbox.completeClaim owner documentId attemptCount faults t =
          (.applied 1, t.deleteRow documentId) := by
  unfold completeClaim
  split
  · exact .inl rfl
  · rcases outbox.ownerTransaction_cases (completeProgram_lawful owner documentId attemptCount)
      owner OutboxTransitionResult.localFailure (fun _ => true) .applied faults t with h | ⟨hc, hb, a, t', fs, hrun, h⟩
    · exact .inl h
    · simp only [completeProgram, Sql.run_bind, Sql.run_update_nil] at hrun
      split at hrun
      · simp at hrun
      · rename_i ha
        simp only [not_or, Bool.not_eq_false] at ha
        simp only [Sql.run_pure, Except.ok.injEq, Prod.mk.injEq] at hrun
        obtain ⟨rfl, rfl, -⟩ := hrun
        obtain ⟨row, hrow, rfl, hstate, hattempt⟩ := exists_of_countP ha.1
        rw [OutboxTable.deleteWhere_eq_deleteRow hrow (isClaim_iff.mpr ⟨rfl, hstate, hattempt⟩)
          fun r hr => (isClaim_iff.mp hr).1] at h
        exact .inr ⟨row, hrow, rfl, hstate, hattempt, ⟨hc, hb, ha.2⟩, h⟩

/-- How `reschedule_claim` moves the row of the failed attempt. -/
def rescheduledProgress (category : OutboxFailureCategory) (next completedAt : ℚ)
    (p : RowProgress) : RowProgress :=
  { p with
    state := .pending
    nextAttemptAt := next
    lastErrorCategory := some category.value
    updatedAt := completedAt }

theorem rescheduleClaim_cases (lib : Stdlib) (outbox : SQLiteOutbox) (owner : OwnerChecks)
    (documentId : Text) (attemptCount : ℤ) (category : OutboxFailureCategory)
    (completedAt : PyFloat) (faults : Faults) (t : OutboxTable) :
    outbox.rescheduleClaim lib owner documentId attemptCount category completedAt faults t =
        (.localFailure, t) ∨
      ∃ row ∈ t.rows, row.documentId = documentId ∧ row.state = .sending ∧
        (row.attemptCount : ℤ) = attemptCount ∧ outbox.Owned owner ∧
        ∃ at' next, validWallTime completedAt = some at' ∧
          lib.addFloat at' (retryDelaySeconds attemptCount outbox.retryInitialSeconds
            outbox.retryMaxSeconds) = .finite next ∧
          outbox.rescheduleClaim lib owner documentId attemptCount category completedAt faults t =
            (.applied 1, t.updateRow documentId (rescheduledProgress category next at')) := by
  unfold rescheduleClaim
  cases hat : validWallTime completedAt with
  | none => exact .inl rfl
  | some at' =>
    simp only
    split
    · exact .inl rfl
    · cases hadd : lib.addFloat at' (retryDelaySeconds attemptCount outbox.retryInitialSeconds
        outbox.retryMaxSeconds) with
      | posInf => exact .inl rfl
      | negInf => exact .inl rfl
      | nan => exact .inl rfl
      | finite next =>
        rcases outbox.ownerTransaction_cases
          (rescheduleProgram_lawful owner documentId attemptCount category next at')
          owner OutboxTransitionResult.localFailure (fun _ => true) .applied faults t with
          h | ⟨hc, hb, a, t', fs, hrun, h⟩
        · exact .inl h
        · simp only [rescheduleProgram, Sql.run_bind, Sql.run_update_nil] at hrun
          split at hrun
          · simp at hrun
          · rename_i ha
            simp only [not_or, Bool.not_eq_false] at ha
            simp only [Sql.run_pure, Except.ok.injEq, Prod.mk.injEq] at hrun
            obtain ⟨rfl, rfl, -⟩ := hrun
            obtain ⟨row, hrow, rfl, hstate, hattempt⟩ := exists_of_countP ha.1
            rw [OutboxTable.updateWhere_eq_updateRow hrow
              (isClaim_iff.mpr ⟨rfl, hstate, hattempt⟩) fun r hr => (isClaim_iff.mp hr).1] at h
            exact .inr ⟨row, hrow, rfl, hstate, hattempt, ⟨hc, hb, ha.2⟩, at', next, rfl, hadd, h⟩

end SQLiteOutbox

end BetterHindsight
