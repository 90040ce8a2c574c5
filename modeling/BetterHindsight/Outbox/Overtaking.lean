import BetterHindsight.Outbox.Capacity
import BetterHindsight.Outbox.Eligibility

/-! # Bounded overtaking

What one lock owner and any number of admissions do to a table between two recoveries, on a clock
that never goes back.

* `Queue`, `OwnerStep`: the table with the owner's clock, and one reading of the clock or one call.
* `OwnerEffect`: everything that a step can do, with the row that it claims.
* `bounded_overtaking`: while a due row waits, no other stored row is claimed twice. -/

namespace BetterHindsight
set_option autoImplicit false

/-! ## Steps -/

/-- The durable table and the latest reading of the owner's clock. -/
structure Queue where
  table : OutboxTable
  clock : ℚ

inductive QueueEvent where
  | tick (now : ℚ)
  | call (call : OutboxCall)

/-- The reading that the owner hands to an operation. An admission has one of its own, taken before
it waits for the table. -/
def OutboxOperation.ownerTime : OutboxOperation → Option ℚ
  | claimDue _ now => validWallTime now
  | rescheduleClaim _ _ _ _ completedAt => validWallTime completedAt
  | _ => none

def OutboxOperation.isRecovery : OutboxOperation → Bool
  | recoverSending .. => true
  | _ => false

/-- A call of the one owner through the handle, open or closed, or an admission through any. -/
structure OwnerCall (outbox : SQLiteOutbox) (clock : ℚ) (call : OutboxCall) : Prop where
  handle : call.operation.isAdmission = false →
    call.outbox = { outbox with closed := call.outbox.closed }
  noRecovery : call.operation.isRecovery = false
  time : ∀ now, call.operation.ownerTime = some now → now = clock

inductive OwnerStep (lib : Stdlib) (outbox : SQLiteOutbox) : Queue → QueueEvent → Queue → Prop
  | tick {q : Queue} {now : ℚ} (h : q.clock ≤ now) :
      OwnerStep lib outbox q (.tick now) { q with clock := now }
  | call {q : Queue} {call : OutboxCall} (h : OwnerCall outbox q.clock call) :
      OwnerStep lib outbox q (.call call) { q with table := call.run lib q.table }

/-- The row that a transition claims. -/
def claimedIn (e : Transition Queue QueueEvent) : Option OutboxRow :=
  match e.label with
  | .call ⟨outbox, .claimDue owner now, faults⟩ =>
    match (outbox.claimDue owner now faults e.before.table).1 with
    | .claimed row => some row
    | _ => none
  | _ => none

def claims (documentId : Text) (e : Transition Queue QueueEvent) : Bool :=
  match claimedIn e with
  | some row => row.documentId == documentId
  | none => false

def OutboxTable.Stored (t : OutboxTable) (documentId : Text) : Prop :=
  ∃ row ∈ t.rows, row.documentId = documentId

/-! ## Effects -/

/-- The retry delay grows from its initial value. -/
theorem retryDelayLoop_pos {maximum : ℚ} (hmax : 0 < maximum) (n : ℕ) {delay : ℚ}
    (h : 0 < delay) : 0 < retryDelayLoop maximum n delay := by
  induction n generalizing delay with
  | zero => exact h
  | succ n ih =>
    rw [retryDelayLoop]
    split
    · exact ih (lt_min (mul_pos h zero_lt_two) hmax)
    · exact h

theorem retryDelaySeconds_pos {attemptCount : ℤ} {initial maximum : ℚ} (h : 0 < initial) :
    0 < retryDelaySeconds attemptCount initial maximum := by
  unfold retryDelaySeconds
  split
  · exact h
  · rename_i hlt
    simp only [not_or, not_le] at hlt
    exact retryDelayLoop_pos (h.trans hlt.2) _ h

/-- What a step can do to the table of a queue: the row it claims and the table it leaves. -/
inductive OwnerEffect (outbox : SQLiteOutbox) (q : Queue) : Option OutboxRow → OutboxTable → Prop
  | unchanged : OwnerEffect outbox q none q.table
  | admitted {t' : OutboxTable} {new : List OutboxRow}
      (absent : ∀ row ∈ new, ¬ q.table.Stored row.documentId)
      (rows : t'.rows = q.table.rows ++ new) : OwnerEffect outbox q none t'
  | claimed {row : OutboxRow} (due : outbox.dueRow q.clock q.table = some row) :
      OwnerEffect outbox q (some (SQLiteOutbox.claimedRow q.clock row))
        (q.table.updateRow row.documentId (SQLiteOutbox.claimedProgress q.clock))
  | completed {row : OutboxRow} (mem : row ∈ q.table.rows) (sending : row.state = .sending) :
      OwnerEffect outbox q none (q.table.deleteRow row.documentId)
  | rescheduled {row : OutboxRow} {category : OutboxFailureCategory} {next completedAt : ℚ}
      (mem : row ∈ q.table.rows) (sending : row.state = .sending) (later : q.clock < next) :
      OwnerEffect outbox q none (q.table.updateRow row.documentId
        (SQLiteOutbox.rescheduledProgress category next completedAt))

section Effects
variable {lib : Stdlib} {outbox : SQLiteOutbox} {q q' : Queue} {event : QueueEvent}

/-- An admission claims nothing and inserts rows of its own documents. -/
theorem admission_effect (lib : Stdlib) (handle outbox : SQLiteOutbox)
    (segments : List RetainedSegment) (timestamp : WallTime) (faults : Faults) (q : Queue) :
    OwnerEffect outbox q none (handle.admitSegments lib segments timestamp faults q.table).2 := by
  rcases handle.admit_cases lib segments timestamp faults q.table with h | ⟨turn, -, -, h⟩
  · rw [h]
    exact .unchanged
  · refine .admitted ?_ h
    intro row hrow
    obtain ⟨segment, hsegment, rfl⟩ := List.mem_map.mp hrow
    rintro ⟨stored, hstored, hid⟩
    exact (SQLiteOutbox.mem_absent.mp hsegment).2 stored hstored hid

theorem OwnerStep.effect (hexact : ∀ a b, lib.addFloat a b = .finite (a + b))
    (hinitial : 0 < outbox.retryInitialSeconds) (h : OwnerStep lib outbox q event q') :
    OwnerEffect outbox q (claimedIn ⟨q, event, q'⟩) q'.table := by
  cases h with
  | tick h => exact .unchanged
  | @call call h =>
    obtain ⟨handle, operation, faults⟩ := call
    obtain ⟨hhandle, hrecovery, htime⟩ := h
    cases operation with
    | admission segments timestamp =>
      exact admission_effect lib handle outbox segments timestamp faults q
    | recoverSending owner now => cases hrecovery
    | claimDue owner now =>
      have hdue : ∀ t, handle.dueRow q.clock t = outbox.dueRow q.clock t := by
        intro t
        have hsame : handle = { outbox with closed := handle.closed } := hhandle rfl
        rw [hsame]
        rfl
      simp only [claimedIn, OutboxCall.run]
      rcases handle.claimDue_cases owner now faults q.table with
        h | ⟨at', hat, ⟨-, h⟩ | ⟨row, hrow, -, h⟩⟩
      · rw [h]
        exact .unchanged
      · rw [h]
        exact .unchanged
      · obtain rfl := htime at' hat
        rw [h]
        exact .claimed ((hdue _).symm.trans hrow)
    | completeClaim owner documentId attemptCount =>
      simp only [claimedIn, OutboxCall.run]
      rcases handle.completeClaim_cases owner documentId attemptCount faults q.table with
        h | ⟨row, hrow, rfl, hstate, -, -, h⟩
      · rw [h]
        exact .unchanged
      · rw [h]
        exact .completed hrow hstate
    | rescheduleClaim owner documentId attemptCount category completedAt =>
      have hinit : 0 < handle.retryInitialSeconds := by
        have hsame : handle = { outbox with closed := handle.closed } := hhandle rfl
        rw [hsame]
        exact hinitial
      simp only [claimedIn, OutboxCall.run]
      rcases handle.rescheduleClaim_cases lib owner documentId attemptCount category completedAt
        faults q.table with h | ⟨row, hrow, rfl, hstate, -, -, at', next, hat, hnext, h⟩
      · rw [h]
        exact .unchanged
      · obtain rfl := htime at' hat
        rw [hexact] at hnext
        obtain rfl := PyFloat.finite.inj hnext
        rw [h]
        exact .rescheduled hrow hstate (lt_add_of_pos_right _ (retryDelaySeconds_pos hinit))

theorem OwnerStep.clock_le (h : OwnerStep lib outbox q event q') : q.clock ≤ q'.clock := by
  cases h with
  | tick h => exact h
  | call h => exact le_rfl

end Effects

/-! ## The row that waits -/

/-- A pending row that the handle may claim and whose time has come. -/
structure Waiting (outbox : SQLiteOutbox) (row : OutboxRow) (q : Queue) : Prop where
  mem : row ∈ q.table.rows
  matching : outbox.isMatchingPending row = true
  reached : row.nextAttemptAt ≤ q.clock

/-- No pending row of the document is before the waiting row. -/
def Behind (waiting : OutboxRow) (documentId : Text) (q : Queue) : Prop :=
  ∀ row ∈ q.table.rows, row.documentId = documentId → row.state = .pending →
    waiting.nextAttemptAt < row.nextAttemptAt

section Waiting
variable {outbox : SQLiteOutbox} {q : Queue} {waiting : OutboxRow} {claimed : Option OutboxRow}
  {t : OutboxTable}

theorem Waiting.pending (h : Waiting outbox waiting q) : waiting.state = .pending :=
  (SQLiteOutbox.isMatchingPending_iff.mp h.matching).1

/-- The claimed row is not after the waiting row in the first column of the claim order. -/
theorem Waiting.claimed_le (h : Waiting outbox waiting q) {row : OutboxRow}
    (hdue : outbox.dueRow q.clock q.table = some row) :
    row.nextAttemptAt ≤ waiting.nextAttemptAt := by
  have hisDue : outbox.isDue q.clock waiting = true := by
    obtain ⟨hstate, hel⟩ := SQLiteOutbox.isMatchingPending_iff.mp h.matching
    exact SQLiteOutbox.isDue_iff.mpr ⟨hstate, h.reached, hel⟩
  have hkey : SQLiteOutbox.dueKey row ≤ SQLiteOutbox.dueKey waiting :=
    List.le_of_mem_argmin (List.mem_filter.mpr ⟨h.mem, hisDue⟩) hdue
  rcases Prod.Lex.le_iff.mp hkey with hlt | ⟨heq, -⟩
  · exact hlt.le
  · exact heq.le

/-- Until it is claimed, the waiting row stays as it is. -/
theorem Waiting.mem_effect (h : Waiting outbox waiting q) (heffect : OwnerEffect outbox q claimed t)
    (hnot : ∀ row ∈ claimed, row.documentId ≠ waiting.documentId) : waiting ∈ t.rows := by
  have hkeep : ∀ row ∈ q.table.rows, row.state = .sending →
      waiting.documentId ≠ row.documentId := by
    intro row hrow hsending hid
    have hsame := OutboxTable.eq_of_documentId h.mem hrow hid
    rw [← hsame, h.pending] at hsending
    cases hsending
  cases heffect with
  | unchanged => exact h.mem
  | admitted absent rows =>
    rw [rows]
    exact List.mem_append_left _ h.mem
  | claimed due =>
    have hne := hnot _ rfl
    exact OutboxTable.mem_updateRow.mpr (.inl ⟨h.mem, fun hid => hne hid.symm⟩)
  | completed mem sending =>
    exact OutboxTable.mem_deleteRow.mpr ⟨h.mem, hkeep _ mem sending⟩
  | rescheduled mem sending later =>
    exact OutboxTable.mem_updateRow.mpr (.inl ⟨h.mem, hkeep _ mem sending⟩)

/-- The row of the document is claimed only from before the waiting row, and afterwards it is
sending. -/
theorem Waiting.behind_claimed (h : Waiting outbox waiting q)
    (heffect : OwnerEffect outbox q claimed t) {row : OutboxRow} (hclaimed : claimed = some row) :
    ¬ Behind waiting row.documentId q ∧ ∀ clock, Behind waiting row.documentId ⟨t, clock⟩ := by
  cases heffect with
  | claimed due =>
    rename_i record
    obtain rfl : SQLiteOutbox.claimedRow q.clock record = row := Option.some.inj hclaimed
    obtain ⟨hmem, hisDue⟩ := SQLiteOutbox.isDue_of_dueRow due
    constructor
    · intro hbehind
      have hlt := hbehind record hmem rfl (SQLiteOutbox.isDue_iff.mp hisDue).1
      exact absurd (h.claimed_le due) (not_le.mpr hlt)
    · intro clock r hr hid hpending
      rcases OutboxTable.mem_updateRow.mp hr with ⟨-, hne⟩ | ⟨r', -, -, rfl⟩
      · exact absurd hid hne
      · cases hpending
  | _ => cases hclaimed

/-- A stored row that is behind the waiting row stays there: a failed attempt is due later than
the clock, and an admission does not touch a stored document. -/
theorem Waiting.behind_effect (h : Waiting outbox waiting q)
    (heffect : OwnerEffect outbox q claimed t) {documentId : Text} (hstored : q.table.Stored documentId)
    (hbehind : Behind waiting documentId q) (clock : ℚ) : Behind waiting documentId ⟨t, clock⟩ := by
  intro row hrow hid hpending
  simp only at hrow
  cases heffect with
  | unchanged => exact hbehind row hrow hid hpending
  | admitted absent rows =>
    rw [rows, List.mem_append] at hrow
    rcases hrow with hrow | hrow
    · exact hbehind row hrow hid hpending
    · exact absurd (hid ▸ hstored) (absent row hrow)
  | claimed due =>
    rcases OutboxTable.mem_updateRow.mp hrow with ⟨hrow, -⟩ | ⟨r, -, -, rfl⟩
    · exact hbehind row hrow hid hpending
    · cases hpending
  | completed mem sending =>
    exact hbehind row (OutboxTable.mem_deleteRow.mp hrow).1 hid hpending
  | rescheduled mem sending later =>
    rcases OutboxTable.mem_updateRow.mp hrow with ⟨hrow, -⟩ | ⟨r, -, -, rfl⟩
    · exact hbehind row hrow hid hpending
    · exact h.reached.trans_lt later

end Waiting

/-! ## Runs -/

section Runs
variable {lib : Stdlib} {outbox : SQLiteOutbox} {q q' : Queue} {waiting : OutboxRow}
  {tr : List (Transition Queue QueueEvent)}

theorem claims_eq_false {documentId : Text} {e : Transition Queue QueueEvent} :
    claims documentId e = false ↔ ∀ row ∈ claimedIn e, row.documentId ≠ documentId := by
  unfold claims
  cases claimedIn e with
  | none => simp
  | some row => simp

theorem Waiting.step (hexact : ∀ a b, lib.addFloat a b = .finite (a + b))
    (hinitial : 0 < outbox.retryInitialSeconds) {event : QueueEvent}
    (h : Waiting outbox waiting q) (hstep : OwnerStep lib outbox q event q')
    (hnot : claims waiting.documentId ⟨q, event, q'⟩ = false) : Waiting outbox waiting q' :=
  ⟨h.mem_effect (hstep.effect hexact hinitial) (claims_eq_false.mp hnot), h.matching,
    h.reached.trans hstep.clock_le⟩

/-- From the time when a matching pending row is due until it is claimed, no other row is claimed
twice during one stay in the table. -/
theorem bounded_overtaking (hexact : ∀ a b, lib.addFloat a b = .finite (a + b))
    (hinitial : 0 < outbox.retryInitialSeconds) (hrun : Run (OwnerStep lib outbox) q tr q')
    (hmem : waiting ∈ q.table.rows) (hmatching : outbox.isMatchingPending waiting = true)
    (hreached : waiting.nextAttemptAt ≤ q.clock)
    (hwaits : ∀ e ∈ tr, claims waiting.documentId e = false) {documentId : Text}
    {stay : List (Transition Queue QueueEvent)}
    (hstay : stay <:+: tr) (hstored : ∀ e ∈ stay, e.before.table.Stored documentId) :
    stay.countP (claims documentId) ≤ 1 := by
  classical
  obtain ⟨earlier, later, rfl⟩ := hstay
  obtain ⟨u, hrun, -⟩ := hrun.of_append
  obtain ⟨v, hbefore, hduring⟩ := hrun.of_append
  have hstep : ∀ a l b, Waiting outbox waiting a →
      OwnerStep lib outbox a l b ∧ claims waiting.documentId ⟨a, l, b⟩ = false →
      Waiting outbox waiting b := fun a l b ha h => ha.step hexact hinitial h.1 h.2
  -- the row still waits where the stay begins
  have hv : Waiting outbox waiting v :=
    (hbefore.restrict_at fun e he => hwaits e (by simp [he])).invariant
      ⟨hmem, hmatching, hreached⟩ hstep
  have hduring' := hduring.restrict_at (P := fun e =>
    claims waiting.documentId e = false ∧ e.before.table.Stored documentId)
    fun e he => ⟨hwaits e (by simp [he]), hstored e he⟩
  -- one claim is left as long as the other row may be before the waiting one
  let φ : Queue → ℕ := fun q => if Behind waiting documentId q then 0 else 1
  have hcount := hduring'.countP_le (claims documentId) φ hv
    (fun a l b ha h => hstep a l b ha ⟨h.1, h.2.1⟩) ?_
  · have hφ : φ v ≤ 1 := by
      simp only [φ]
      split <;> omega
    omega
  · rintro a l b ha ⟨hl, -, hin⟩
    have heffect := hl.effect hexact hinitial
    by_cases hclaims : claims documentId ⟨a, l, b⟩ = true
    · unfold claims at hclaims
      cases hrow : claimedIn ⟨a, l, b⟩ with
      | none => simp [hrow] at hclaims
      | some row =>
        have hid : row.documentId = documentId := by simpa [hrow] using hclaims
        obtain ⟨hnot, hafter⟩ := ha.behind_claimed heffect hrow
        rw [hid] at hnot hafter
        simp only [φ, if_neg hnot, if_pos (hafter b.clock)]
        split <;> omega
    · by_cases hbehind : Behind waiting documentId a
      · have hafter := ha.behind_effect heffect hin hbehind b.clock
        simp only [φ, if_pos hbehind, if_pos hafter, if_neg hclaims]
        omega
      · simp only [φ, if_neg hbehind, if_neg hclaims]
        split <;> omega

/-! ## A row that fails while another waits -/

/-- Two rows that the default handle may claim, due at the same time. -/
def contestedTable : OutboxTable where
  rows := [legacyRow ['a'] 0xcc159870e013988d0bc9986bd0730aff7eacc26c88731226ee7004e72df75663,
    legacyRow ['b'] 0xcc159870e013988d0bc9986bd0730aff7eacc26c88731226ee7004e72df75663]
  primaryKey := by decide
  checks := by decide

/-- The claim of the first row. -/
def contestedClaim : OutboxCall :=
  ⟨SQLiteOutbox.defaultHandle, .claimDue ⟨true, true⟩ (.finite 0), []⟩

/-- The failure of the attempt. -/
def contestedFailure : OutboxCall :=
  ⟨SQLiteOutbox.defaultHandle,
    .rescheduleClaim ⟨true, true⟩ ['a'] 1 .retainFailed (.finite 0), []⟩

def contestedLib : Stdlib := .ofDigests destinationDigests

def contestedNext (q : Queue) (event : QueueEvent) : Queue :=
  match event with
  | .tick now => { q with clock := now }
  | .call call => { q with table := call.run contestedLib q.table }

theorem bounded_overtaking_contested :
    (traceOf contestedNext ⟨contestedTable, 0⟩ [.call contestedClaim, .call contestedFailure]).countP
      (claims ['a']) ≤ 1 := by
  have hclaim : OwnerCall SQLiteOutbox.defaultHandle 0 contestedClaim :=
    ⟨fun _ => rfl, rfl, fun now h => (Option.some.inj h).symm⟩
  have hfailure : OwnerCall SQLiteOutbox.defaultHandle 0 contestedFailure :=
    ⟨fun _ => rfl, rfl, fun now h => (Option.some.inj h).symm⟩
  have hrun : Run (OwnerStep contestedLib SQLiteOutbox.defaultHandle) ⟨contestedTable, 0⟩
      (traceOf contestedNext ⟨contestedTable, 0⟩ [.call contestedClaim, .call contestedFailure]) _ :=
    (Run.single (.call hclaim)).append (Run.single (.call hfailure))
  have hwaiting : legacyRow ['b'] 0xcc159870e013988d0bc9986bd0730aff7eacc26c88731226ee7004e72df75663 ∈
      contestedTable.rows := by decide
  refine bounded_overtaking (fun a b => rfl) ?_ hrun hwaiting ?_ ?_ ?_ List.infix_rfl ?_
  · decide
  · decide +kernel
  · decide
  · decide +kernel
  · intro e he
    unfold OutboxTable.Stored
    revert e
    decide +kernel

end Runs

end BetterHindsight
