import BetterHindsight.Outbox.Histories

/-! # The caps hold

* `OutboxTable.unfinished`, `OutboxTable.accounted`: the rows and the bytes that the caps are about.
* `CappedStep`: a call through a connection with caps of its own, none above the common ones.
* `capacity_invariant`: every run stays within the common caps, and only `admit` adds to either. -/

namespace BetterHindsight
set_option autoImplicit false

namespace OutboxTable

/-- The pending and the sending rows. -/
def unfinished (t : OutboxTable) : ℕ :=
  t.rows.countP (fun row => row.state = .pending) + t.rows.countP fun row => row.state = .sending

def accounted (t : OutboxTable) : ℕ := (t.rows.map fun row => row.accountedBytes).sum

theorem unfinished_eq (t : OutboxTable) : t.unfinished = t.rows.length := by
  rw [unfinished, List.length_eq_countP_add_countP fun row => row.state = .pending]
  congr 1
  apply List.countP_congr
  intro row _
  cases row.state <;> simp

/-- An update moves no row and changes no content. -/
theorem usage_updateWhere (t : OutboxTable) (p : OutboxRow → Bool) (f : RowProgress → RowProgress) :
    (t.updateWhere p f).2.unfinished = t.unfinished ∧
      (t.updateWhere p f).2.accounted = t.accounted := by
  constructor
  · rw [unfinished_eq, unfinished_eq, updateWhere_rows, List.length_map]
  · rw [accounted, accounted, updateWhere_rows, List.map_map]
    congr 1
    apply List.map_congr_left
    intro row _
    simp only [Function.comp]
    split <;> rfl

theorem usage_deleteWhere (t : OutboxTable) (p : OutboxRow → Bool) :
    (t.deleteWhere p).2.unfinished ≤ t.unfinished ∧ (t.deleteWhere p).2.accounted ≤ t.accounted := by
  have hsublist : (t.deleteWhere p).2.rows.Sublist t.rows := List.filter_sublist
  constructor
  · rw [unfinished_eq, unfinished_eq]
    exact hsublist.length_le
  · exact (hsublist.map _).sum_le_sum fun _ _ => Nat.zero_le _

/-- At most so many rows and bytes. -/
def Within (t : OutboxTable) (rows bytes : ℤ) : Prop :=
  (t.unfinished : ℤ) ≤ rows ∧ (t.accounted : ℤ) ≤ bytes

end OutboxTable

/-- An admission leaves the table as it is or within the caps of its connection. -/
theorem SQLiteOutbox.admit_within (lib : Stdlib) (outbox : SQLiteOutbox)
    (segments : List RetainedSegment) (timestamp : WallTime) (faults : Faults) (t : OutboxTable) :
    (outbox.admitSegments lib segments timestamp faults t).2 = t ∨
      (outbox.admitSegments lib segments timestamp faults t).2.Within outbox.maxPendingRows
        outbox.maxPendingBytes := by
  obtain ⟨hinvalid, hturn⟩ := outbox.admit_exact lib segments timestamp faults t
  by_cases h : ∃ turn, outbox.IsTurnOf lib segments turn
  · obtain ⟨turn, h⟩ := h
    rcases hturn turn h with ⟨result, t', hrun, hout⟩ | ⟨-, hrun | hrun⟩
    · rw [hrun]
      cases hout with
      | conflict => exact .inl rfl
      | duplicate => exact .inl rfl
      | capacityExceeded => exact .inl rfl
      | admitted _ _ fits _ _ _ _ _ rows =>
        right
        have hbytes : t'.accounted = t.accounted + ((absent t turn).map segmentBytes).sum := by
          rw [OutboxTable.accounted, OutboxTable.accounted, rows, List.map_append, List.sum_append,
            List.map_map]
          rfl
        have hrows : t'.unfinished = t.rows.length + (absent t turn).length := by
          rw [OutboxTable.unfinished_eq, rows, List.length_append, List.length_map]
        simp only [Exceeds, not_or, not_lt, gt_iff_lt] at fits
        exact ⟨hrows ▸ fits.1, hbytes ▸ fits.2⟩
    · rw [hrun]
      exact .inl rfl
    · rw [hrun]
      exact .inl rfl
  · rw [hinvalid h]
    exact .inl rfl

def OutboxOperation.isAdmission : OutboxOperation → Bool
  | admission .. => true
  | _ => false

/-- No call but an admission adds a row or a byte. -/
theorem OutboxCall.usage_le (lib : Stdlib) (call : OutboxCall) (t : OutboxTable)
    (h : call.operation.isAdmission = false) :
    (call.run lib t).unfinished ≤ t.unfinished ∧ (call.run lib t).accounted ≤ t.accounted := by
  obtain ⟨outbox, operation, faults⟩ := call
  cases operation with
  | admission segments timestamp => cases h
  | recoverSending owner now =>
    simp only [OutboxCall.run]
    rcases outbox.recoverSending_cases owner now faults t with hfail | ⟨q, -, -, hdone⟩
    · rw [hfail]
      exact ⟨le_rfl, le_rfl⟩
    · rw [hdone]
      have husage := OutboxTable.usage_updateWhere t (fun row => row.state = .sending)
        fun p => { p with state := .pending, nextAttemptAt := q, updatedAt := q }
      exact ⟨husage.1.le, husage.2.le⟩
  | claimDue owner now =>
    simp only [OutboxCall.run]
    rcases outbox.claimDue_cases owner now faults t with
      hfail | ⟨q, -, ⟨-, hempty⟩ | ⟨row, -, -, hdone⟩⟩
    · rw [hfail]
      exact ⟨le_rfl, le_rfl⟩
    · rw [hempty]
      exact ⟨le_rfl, le_rfl⟩
    · rw [hdone]
      have husage := OutboxTable.usage_updateWhere t
        (fun r => r.documentId == row.documentId) (SQLiteOutbox.claimedProgress q)
      exact ⟨husage.1.le, husage.2.le⟩
  | completeClaim owner documentId attemptCount =>
    simp only [OutboxCall.run]
    rcases outbox.completeClaim_cases owner documentId attemptCount faults t with
      hfail | ⟨row, -, -, -, -, -, hdone⟩
    · rw [hfail]
      exact ⟨le_rfl, le_rfl⟩
    · rw [hdone]
      exact OutboxTable.usage_deleteWhere t fun row => row.documentId == documentId
  | rescheduleClaim owner documentId attemptCount category completedAt =>
    simp only [OutboxCall.run]
    rcases outbox.rescheduleClaim_cases lib owner documentId attemptCount category completedAt
      faults t with hfail | ⟨row, -, -, -, -, -, q, next, -, -, hdone⟩
    · rw [hfail]
      exact ⟨le_rfl, le_rfl⟩
    · rw [hdone]
      have husage := OutboxTable.usage_updateWhere t (fun row => row.documentId == documentId)
        (SQLiteOutbox.rescheduledProgress category next q)
      exact ⟨husage.1.le, husage.2.le⟩

/-- A call through any connection whose caps are at most `rows` and `bytes`. -/
def CappedStep (lib : Stdlib) (rows bytes : ℤ) (t : OutboxTable) (call : OutboxCall)
    (t' : OutboxTable) : Prop :=
  call.outbox.maxPendingRows ≤ rows ∧ call.outbox.maxPendingBytes ≤ bytes ∧ t' = call.run lib t

theorem CappedStep.within {lib : Stdlib} {rows bytes : ℤ} {t t' : OutboxTable} {call : OutboxCall}
    (h : CappedStep lib rows bytes t call t') (ht : t.Within rows bytes) : t'.Within rows bytes := by
  obtain ⟨hrows, hbytes, rfl⟩ := h
  cases hadmission : call.operation.isAdmission with
  | true =>
    obtain ⟨outbox, operation, faults⟩ := call
    cases operation with
    | admission segments timestamp =>
      rcases outbox.admit_within lib segments timestamp faults t with hsame | hwithin
      · simp only [OutboxCall.run, hsame]
        exact ht
      · exact ⟨hwithin.1.trans hrows, hwithin.2.trans hbytes⟩
    | _ => cases hadmission
  | false =>
    obtain ⟨hunfinished, haccounted⟩ := call.usage_le lib t hadmission
    exact ⟨(Int.ofNat_le.mpr hunfinished).trans ht.1, (Int.ofNat_le.mpr haccounted).trans ht.2⟩

theorem capacity_invariant {lib : Stdlib} {rows bytes : ℤ} {t₀ t : OutboxTable}
    {tr : List (Transition OutboxTable OutboxCall)} (ht : t₀.Within rows bytes)
    (hrun : Run (CappedStep lib rows bytes) t₀ tr t) :
    t.Within rows bytes ∧ ∀ e ∈ tr, e.after.Within rows bytes ∧
      (e.label.operation.isAdmission = false →
        e.after.unfinished ≤ e.before.unfinished ∧ e.after.accounted ≤ e.before.accounted) := by
  have hstep : ∀ a call b, a.Within rows bytes → CappedStep lib rows bytes a call b →
      b.Within rows bytes := fun a call b ha h => h.within ha
  refine ⟨hrun.invariant ht hstep, fun e he => ?_⟩
  obtain ⟨hbefore, hcall⟩ := hrun.invariant_at ht hstep e he
  refine ⟨hcall.within hbefore, fun hadmission => ?_⟩
  rw [hcall.2.2]
  exact e.label.usage_le lib e.before hadmission

theorem capacity_invariant_recovery : legacyTable.Within 2 2050 ∧
    ((⟨{ SQLiteOutbox.defaultHandle with maxPendingRows := 2, maxPendingBytes := 2050 },
      .recoverSending ⟨true, true⟩ (.finite 5), []⟩ : OutboxCall).run
        (.ofDigests destinationDigests) legacyTable).Within 2 2050 := by
  have hstart : legacyTable.Within 2 2050 := by
    unfold OutboxTable.Within
    decide
  exact ⟨hstart, (capacity_invariant hstart (Run.single ⟨le_rfl, le_rfl, rfl⟩)).1⟩

end BetterHindsight
