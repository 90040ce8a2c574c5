import BetterHindsight.Outbox.Histories

/-! # Eligible rows

The rows that a handle may send: those of its own destination under the current payload schema, of
its own destination under the legacy schema, and, while multimodal rows may be sent, those of its
own multimodal destination.

* `isEligible`: the predicate that `claim_due` and `next_matching_retry_deadline` share.
* `empty_iff_deadline`: a claim that does not fail is empty exactly until the deadline.
* `selectable_iff`: the eligible rows are those that some claim of some later table selects. -/

namespace BetterHindsight
set_option autoImplicit false

namespace SQLiteOutbox

/-! ## The predicate -/

/-- The condition on the immutable columns in the `WHERE` clauses of the handle. -/
def isEligible (outbox : SQLiteOutbox) (row : RowIdentity) : Bool :=
  (row.destinationFingerprint == outbox.destinationFingerprint.text &&
      row.payloadSchema == outbox.payloadSchema) ||
    (row.destinationFingerprint == outbox.legacyDestinationFingerprint.text &&
      row.payloadSchema == LEGACY_PAYLOAD_SCHEMA_VERSION) ||
    (row.destinationFingerprint == outbox.multimodalParameter &&
      row.payloadSchema == MULTIMODAL_PAYLOAD_SCHEMA)

theorem isDue_iff {outbox : SQLiteOutbox} {now : ℚ} {row : OutboxRow} :
    outbox.isDue now row = true ↔ row.state = .pending ∧ row.nextAttemptAt ≤ now ∧
      outbox.isEligible row.toRowIdentity = true := by
  rw [isDue, isEligible, Bool.and_eq_true, Bool.and_eq_true, beq_iff_eq, decide_eq_true_eq,
    and_assoc]

theorem isMatchingPending_iff {outbox : SQLiteOutbox} {row : OutboxRow} :
    outbox.isMatchingPending row = true ↔
      row.state = .pending ∧ outbox.isEligible row.toRowIdentity = true := by
  rw [isMatchingPending, isEligible, Bool.and_eq_true, beq_iff_eq]

/-- What eligibility means for a row with a fingerprint. -/
theorem HandleOf.isEligible_iff {lib : Stdlib} {config : BetterHindsightConfig}
    {outbox : SQLiteOutbox} (h : HandleOf lib config outbox) {row : RowIdentity}
    (hne : row.destinationFingerprint ≠ []) : outbox.isEligible row = true ↔
      (row.payloadSchema = PAYLOAD_SCHEMA_VERSION ∧
        row.destinationFingerprint = outbox.destinationFingerprint.text) ∨
      (row.payloadSchema = LEGACY_PAYLOAD_SCHEMA_VERSION ∧
        row.destinationFingerprint = outbox.legacyDestinationFingerprint.text) ∨
      (row.payloadSchema = MULTIMODAL_PAYLOAD_SCHEMA ∧
        row.destinationFingerprint = outbox.multimodalDestinationFingerprint.text ∧
        config.multimodal.enabled = true ∧ config.retain.enabled = true) := by
  have hparameter : row.destinationFingerprint = outbox.multimodalParameter ↔
      row.destinationFingerprint = outbox.multimodalDestinationFingerprint.text ∧
        config.multimodal.enabled = true ∧ config.retain.enabled = true := by
    rw [multimodalParameter, h.config_eq]
    split
    · rename_i henabled
      simp [henabled]
    · rename_i hdisabled
      simp [hdisabled, hne]
  simp only [isEligible, Bool.or_eq_true, Bool.and_eq_true, beq_iff_eq, h.payloadSchema,
    hparameter]
  constructor
  · rintro ((⟨hd, hs⟩ | ⟨hd, hs⟩) | ⟨hd, hs⟩)
    · exact .inl ⟨hs, hd⟩
    · exact .inr (.inl ⟨hs, hd⟩)
    · exact .inr (.inr ⟨hs, hd⟩)
  · rintro (⟨hs, hd⟩ | ⟨hs, hd⟩ | ⟨hs, hd⟩)
    · exact .inl (.inl ⟨hd, hs⟩)
    · exact .inl (.inr ⟨hd, hs⟩)
    · exact .inr ⟨hd, hs⟩

/-! ## Claim and deadline -/

theorem dueRow_eq_none_iff {outbox : SQLiteOutbox} {now : ℚ} {t : OutboxTable} :
    outbox.dueRow now t = none ↔
      outbox.minDeadline t = none ∨ ∃ d, outbox.minDeadline t = some d ∧ now < d := by
  rw [dueRow_eq_none]
  cases hmin : outbox.minDeadline t with
  | none =>
    rw [minDeadline, List.min?_eq_none_iff, List.map_eq_nil_iff, List.filter_eq_nil_iff] at hmin
    refine ⟨fun _ => .inl rfl, fun _ row hrow => ?_⟩
    by_contra hdue
    obtain ⟨hstate, -, hel⟩ := isDue_iff.mp (by simpa using hdue)
    exact hmin row hrow (isMatchingPending_iff.mpr ⟨hstate, hel⟩)
  | some d =>
    obtain ⟨hmem, hle⟩ := List.min?_eq_some_iff.mp hmin
    obtain ⟨row, hrow, rfl⟩ := List.mem_map.mp hmem
    obtain ⟨hrow, hmatch⟩ := List.mem_filter.mp hrow
    obtain ⟨hstate, hel⟩ := isMatchingPending_iff.mp hmatch
    constructor
    · intro h
      refine .inr ⟨_, rfl, ?_⟩
      by_contra hnow
      have hdue := isDue_iff.mpr ⟨hstate, not_lt.mp hnow, hel⟩
      rw [h row hrow] at hdue
      cases hdue
    · rintro (h | ⟨d, hd, hlt⟩) r hr
      · cases h
      · obtain rfl := Option.some.inj hd
        by_contra hdue
        obtain ⟨hstate', hdue', hel'⟩ := isDue_iff.mp (by simpa using hdue)
        have := hle _ (List.mem_map_of_mem (List.mem_filter.mpr
          ⟨hr, isMatchingPending_iff.mpr ⟨hstate', hel'⟩⟩))
        exact absurd (hlt.trans_le this) (not_lt.mpr hdue')

/-- A claim that does not fail is empty exactly when no deadline is known or it lies ahead. -/
theorem empty_iff_deadline {outbox : SQLiteOutbox} {owner : OwnerChecks} {now : ℚ}
    {faults : Faults} {fault : Option StorageError} {t : OutboxTable} {deadline : Option ℚ}
    (hclaim : (outbox.claimDue owner (.finite now) faults t).1 ≠ .localFailure)
    (hdeadline : outbox.nextMatchingRetryDeadline fault t = .ok deadline) :
    (outbox.claimDue owner (.finite now) faults t).1 = .empty ↔
      deadline = none ∨ ∃ d, deadline = some d ∧ now < d := by
  have hd : deadline = outbox.minDeadline t := by
    unfold nextMatchingRetryDeadline at hdeadline
    split at hdeadline
    · cases hdeadline
    · split at hdeadline
      · cases hdeadline
      · exact (Except.ok.inj hdeadline).symm
  rw [hd, ← dueRow_eq_none_iff]
  rcases outbox.claimDue_cases owner (.finite now) faults t with
    h | ⟨q, hq, ⟨hnone, h⟩ | ⟨row, hrow, -, h⟩⟩
  · rw [h] at hclaim
    exact absurd rfl hclaim
  · obtain rfl := PyFloat.finite.inj (validWallTime_eq_some.mp hq).1
    rw [h]
    exact ⟨fun _ => hnone, fun _ => rfl⟩
  · obtain rfl := PyFloat.finite.inj (validWallTime_eq_some.mp hq).1
    rw [h, hrow]
    constructor
    · intro hempty
      cases hempty
    · intro hnone
      cases hnone

/-! ## Operations that meet no fault -/

theorem ownerTransaction_ok {α β : Type} {program : Sql OutboxTable StorageError α}
    (hp : program.Lawful) {outbox : SQLiteOutbox} {owner : OwnerChecks} (ho : outbox.Owned owner)
    (failed : β) (keep : α → Bool) (result : α → β) {t t' : OutboxTable} {a : α}
    {fs : Faults} (hrun : program.run t [] = .ok (a, t', fs)) :
    outbox.ownerTransaction owner failed program keep result [] t =
      (result a, if keep a then t' else t) := by
  have hguard : ¬ (outbox.closed = true ∨ owner.before = false) := by
    simp [ho.1, ho.2.1]
  unfold ownerTransaction
  rw [if_neg hguard, transaction_nil hp, hrun]

theorem recoverSending_ok {outbox : SQLiteOutbox} {owner : OwnerChecks} (ho : outbox.Owned owner)
    {now : ℚ} (hnow : 0 ≤ now) (t : OutboxTable) :
    outbox.recoverSending owner (.finite now) [] t =
      (.applied (t.rows.countP fun row => row.state = .sending), t.recovered now) := by
  have hrun : (recoverProgram owner now).run t [] =
      .ok (t.rows.countP fun row => row.state = .sending, t.recovered now, []) := by
    simp only [recoverProgram, Sql.run_bind, Sql.run_update_nil, ho.2.2]
    rfl
  rw [recoverSending, validWallTime_eq_some.mpr ⟨rfl, hnow⟩]
  exact ownerTransaction_ok (recoverProgram_lawful owner now) ho _ _ _ hrun

theorem claimDue_ok {outbox : SQLiteOutbox} {owner : OwnerChecks} (ho : outbox.Owned owner)
    {now : ℚ} (hnow : 0 ≤ now) {t : OutboxTable} {row : OutboxRow}
    (hrow : outbox.dueRow now t = some row) :
    outbox.claimDue owner (.finite now) [] t =
      (.claimed (claimedRow now row), t.updateRow row.documentId (claimedProgress now)) := by
  obtain ⟨hmem, hdue⟩ := isDue_of_dueRow hrow
  have honly : ∀ r, isClaimTarget now row r = true → r.documentId = row.documentId := by
    intro r hr
    simp only [isClaimTarget, Bool.and_eq_true, beq_iff_eq] at hr
    exact hr.1.1.1.1.1
  have hcount := OutboxTable.countP_documentId hmem (isClaimTarget_self hdue) honly
  have hrun : (outbox.claimProgram owner now).run t [] = .ok (some (claimedRow now row),
      t.updateRow row.documentId (claimedProgress now), []) := by
    simp only [claimProgram, Sql.run_bind, Sql.run_query_nil, hrow, Sql.run_update_nil,
      OutboxTable.updateWhere_count, hcount, ho.2.2]
    rw [OutboxTable.updateWhere_eq_updateRow hmem (isClaimTarget_self hdue) honly]
    rfl
  rw [claimDue, validWallTime_eq_some.mpr ⟨rfl, hnow⟩]
  exact ownerTransaction_ok (outbox.claimProgram_lawful owner now) ho _ _ _ hrun

end SQLiteOutbox

/-! ## Rows that can be selected -/

/-- Some claim through a handle of the configuration, in a table that later steps lead to and at
some time, selects the stored row. -/
def Selectable (lib : Stdlib) (configs : List BetterHindsightConfig)
    (config : BetterHindsightConfig) (t : OutboxTable) (row : RowIdentity) : Prop :=
  ∃ tr t' outbox owner now faults claimed, Run (OutboxStep lib configs) t tr t' ∧
    SQLiteOutbox.HandleOf lib config outbox ∧
    (outbox.claimDue owner now faults t').1 = .claimed claimed ∧ claimed.toRowIdentity = row

section Selectable
variable {lib : Stdlib} {configs : List BetterHindsightConfig} {config : BetterHindsightConfig}
  {outbox : SQLiteOutbox}

/-- Two handles of one configuration hold the same rows eligible. -/
theorem SQLiteOutbox.HandleOf.isEligible_eq {other : SQLiteOutbox}
    (h : HandleOf lib config outbox) (h' : HandleOf lib config other) (row : RowIdentity) :
    other.isEligible row = outbox.isEligible row := by
  have hm := Except.ok.inj (h'.multimodal.symm.trans h.multimodal)
  have hd := Except.ok.inj (h'.destination.symm.trans h.destination)
  have hl := Except.ok.inj (h'.legacy.symm.trans h.legacy)
  rw [isEligible, isEligible, multimodalParameter, multimodalParameter, hm, hd, hl, h.config_eq,
    h'.config_eq, h.payloadSchema, h'.payloadSchema]

/-- What a claim returns is eligible. -/
theorem SQLiteOutbox.isEligible_of_claimed {owner : OwnerChecks} {now : PyFloat} {faults : Faults}
    {t : OutboxTable} {row : OutboxRow}
    (h : (outbox.claimDue owner now faults t).1 = .claimed row) :
    outbox.isEligible row.toRowIdentity = true := by
  rcases outbox.claimDue_cases owner now faults t with
    h' | ⟨q, -, ⟨-, h'⟩ | ⟨r, hr, -, h'⟩⟩
  · rw [h'] at h
    cases h
  · rw [h'] at h
    cases h
  · rw [h'] at h
    cases h
    exact (isDue_iff.mp (isDue_of_dueRow hr).2).2.2

/-- Claiming a row lowers the number of pending rows. -/
theorem countP_pending_claimed {t : OutboxTable} {row : OutboxRow} (hrow : row ∈ t.rows)
    (hstate : row.state = .pending) (now : ℚ) :
    (t.updateRow row.documentId (SQLiteOutbox.claimedProgress now)).rows.countP
        (fun r => r.state = .pending) < t.rows.countP fun r => r.state = .pending := by
  have hrest : (t.updateRow row.documentId (SQLiteOutbox.claimedProgress now)).rows.countP
      (fun r => r.state = .pending) =
        ((t.rows.filter fun r => r.state = .pending).filter
          fun r => r.documentId ≠ row.documentId).length := by
    rw [OutboxTable.updateRow, OutboxTable.updateWhere_rows, List.countP_map,
      List.countP_eq_length_filter, List.filter_filter]
    congr 1
    apply List.filter_congr
    intro r hr
    by_cases hid : r.documentId = row.documentId
    · simp [hid, SQLiteOutbox.claimedProgress]
    · simp [hid]
  rw [hrest, List.countP_eq_length_filter, List.length_filter_lt_length_iff_exists]
  exact ⟨row, List.mem_filter.mpr ⟨hrow, by simpa using hstate⟩, by simp⟩

/-- Claims at a time that every row is due at reach a given eligible pending row. -/
theorem exists_claim_run (hopen : OpenedUnder lib configs outbox) (hclosed : outbox.closed = false)
    {now : ℚ} (hnow : 0 ≤ now) {row : RowIdentity} (hel : outbox.isEligible row = true) {n : ℕ}
    {t : OutboxTable} (hn : t.rows.countP (fun r => r.state = .pending) = n)
    (hdue : ∀ r ∈ t.rows, r.nextAttemptAt ≤ now)
    (hrow : ∃ r ∈ t.rows, r.toRowIdentity = row ∧ r.state = .pending) :
    ∃ tr t' claimed, Run (OutboxStep lib configs) t tr t' ∧
      (outbox.claimDue ⟨true, true⟩ (.finite now) [] t').1 = .claimed claimed ∧
      claimed.toRowIdentity = row := by
  have howned : outbox.Owned ⟨true, true⟩ := ⟨hclosed, rfl, rfl⟩
  induction n using Nat.strong_induction_on generalizing t with
  | _ n ih =>
    obtain ⟨r, hr, hid, hstate⟩ := hrow
    have hrdue : outbox.isDue now r = true :=
      SQLiteOutbox.isDue_iff.mpr ⟨hstate, hdue r hr, by rw [hid]; exact hel⟩
    cases hd : outbox.dueRow now t with
    | none =>
      rw [SQLiteOutbox.dueRow_eq_none.mp hd r hr] at hrdue
      cases hrdue
    | some d =>
      obtain ⟨hdmem, hddue⟩ := SQLiteOutbox.isDue_of_dueRow hd
      have hclaim := SQLiteOutbox.claimDue_ok howned hnow hd
      by_cases hsame : d.documentId = r.documentId
      · obtain rfl := OutboxTable.eq_of_documentId hdmem hr hsame
        exact ⟨[], t, SQLiteOutbox.claimedRow now d, .nil, by rw [hclaim], hid⟩
      · have hstep : OutboxStep lib configs t ⟨outbox, .claimDue ⟨true, true⟩ (.finite now), []⟩
            (t.updateRow d.documentId (SQLiteOutbox.claimedProgress now)) :=
          ⟨hopen, by simp only [OutboxCall.run, hclaim]⟩
        obtain ⟨tr, t', claimed, hrun, hres⟩ := ih _
          (hn ▸ countP_pending_claimed hdmem (SQLiteOutbox.isDue_iff.mp hddue).1 now) rfl
          (by
            intro x hx
            rcases OutboxTable.mem_updateRow.mp hx with ⟨hx, -⟩ | ⟨y, hy, -, rfl⟩
            · exact hdue x hx
            · exact hdue y hy)
          ⟨r, OutboxTable.mem_updateRow.mpr (.inl ⟨hr, Ne.symm hsame⟩), hid, hstate⟩
        exact ⟨_, t', claimed, (Run.single hstep).append hrun, hres⟩

theorem exists_bound (t : OutboxTable) : ∃ now : ℚ, 0 ≤ now ∧ ∀ r ∈ t.rows, r.nextAttemptAt ≤ now := by
  induction t.rows with
  | nil => exact ⟨0, le_refl 0, by simp⟩
  | cons r rows ih =>
    obtain ⟨now, hnow, hle⟩ := ih
    refine ⟨max now r.nextAttemptAt, le_max_of_le_left hnow, fun x hx => ?_⟩
    rcases List.mem_cons.mp hx with rfl | hx
    · exact le_max_right _ _
    · exact le_max_of_le_left (hle x hx)

/-- The eligible rows of a table are those that some later claim selects. -/
theorem selectable_iff (hmem : config ∈ configs) (hacc : Accepted lib config)
    (hof : SQLiteOutbox.HandleOf lib config outbox) (hclosed : outbox.closed = false)
    {t : OutboxTable} {row : OutboxRow} (hrow : row ∈ t.rows) :
    Selectable lib configs config t row.toRowIdentity ↔
      outbox.isEligible row.toRowIdentity = true := by
  constructor
  · rintro ⟨tr, t', other, owner, now, faults, claimed, -, hother, hclaim, hid⟩
    rw [← hof.isEligible_eq hother, ← hid]
    exact SQLiteOutbox.isEligible_of_claimed hclaim
  · intro hel
    have hopen : OpenedUnder lib configs outbox := ⟨config, hmem, hacc, hof⟩
    have howned : outbox.Owned ⟨true, true⟩ := ⟨hclosed, rfl, rfl⟩
    have hrecover : OutboxStep lib configs t ⟨outbox, .recoverSending ⟨true, true⟩ (.finite 0), []⟩
        (t.recovered 0) :=
      ⟨hopen, by simp only [OutboxCall.run, SQLiteOutbox.recoverSending_ok howned (le_refl 0)]⟩
    obtain ⟨now, hnow, hdue⟩ := exists_bound (t.recovered 0)
    have hpending : ∃ r ∈ (t.recovered 0).rows, r.toRowIdentity = row.toRowIdentity ∧
        r.state = .pending := by
      by_cases hstate : row.state = .sending
      · exact ⟨_, OutboxTable.mem_recovered.mpr (.inr ⟨row, hrow, hstate, rfl⟩), rfl, rfl⟩
      · refine ⟨row, OutboxTable.mem_recovered.mpr (.inl ⟨hrow, hstate⟩), rfl, ?_⟩
        cases h : row.state with
        | pending => rfl
        | sending => exact absurd h hstate
    obtain ⟨tr, t', claimed, hrun, hclaim, hid⟩ :=
      exists_claim_run hopen hclosed hnow hel rfl hdue hpending
    exact ⟨_, t', outbox, _, _, _, claimed, (Run.single hrecover).append hrun, hof, hclaim, hid⟩

end Selectable

end BetterHindsight
