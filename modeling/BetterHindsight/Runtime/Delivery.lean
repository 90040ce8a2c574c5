import BetterHindsight.Runtime.Ownership

/-! # At-least-once delivery

An admitted row stays stored, with its immutable columns as they are, until a sender whose retain
call carried it and was confirmed completes its claim.

* `Delivered`: the transition that may delete a row.
* `CommitsReschedule`, `CommitsRecovery`: the transitions after which the row is pending again.
* `at_least_once`: the delivery theorem. -/

namespace BetterHindsight
set_option autoImplicit false

/-- A row with these immutable columns is stored. -/
def Stored (t : OutboxTable) (row : RowIdentity) : Prop := ∃ r ∈ t.rows, r.toRowIdentity = row

/-- `complete_claim` commits for a claim of the row whose retain call carried it and was
confirmed. -/
def Delivered (lib : Stdlib) (e : Transition System (ℕ × SystemEvent)) (row : RowIdentity) : Prop :=
  ∃ pid process owner faults claimed id call,
    e.label = (pid, .step (.complete owner faults)) ∧
    e.before.processes pid = .alive process ∧ process.pc = .completing claimed id ∧
    claimed.toRowIdentity = row ∧ process.runner.calls id = some call ∧
    call.operation = some (retainSegmentOf lib claimed) ∧
    call.phase.result? = some .confirmed ∧
    process.outbox.completeClaim owner claimed.documentId claimed.attemptCount faults
      e.before.table = (.applied 1, e.after.table)

/-- `reschedule_claim` commits for a claim of the row. -/
def CommitsReschedule (lib : Stdlib) (e : Transition System (ℕ × SystemEvent))
    (row : RowIdentity) : Prop :=
  ∃ pid process owner completedAt faults claimed category count,
    e.label = (pid, .step (.reschedule owner completedAt faults)) ∧
    e.before.processes pid = .alive process ∧ process.pc = .rescheduling claimed category ∧
    claimed.toRowIdentity = row ∧
    process.outbox.rescheduleClaim lib owner claimed.documentId claimed.attemptCount category
      completedAt faults e.before.table = (.applied count, e.after.table)

/-- `recover_sending` commits. -/
def CommitsRecovery (e : Transition System (ℕ × SystemEvent)) : Prop :=
  ∃ pid process owner now faults count,
    e.label = (pid, .step (.recover owner now faults)) ∧
    e.before.processes pid = .alive process ∧
    process.outbox.recoverSending owner now faults e.before.table = (.applied count, e.after.table)

section Tables
variable {t : OutboxTable} {row : OutboxRow}

theorem stored_updateRow (hrow : row ∈ t.rows) (documentId : Text) (f : RowProgress → RowProgress) :
    Stored (t.updateRow documentId f) row.toRowIdentity := by
  by_cases hid : row.documentId = documentId
  · exact ⟨_, OutboxTable.mem_updateRow.mpr (.inr ⟨row, hrow, hid, rfl⟩), rfl⟩
  · exact ⟨row, OutboxTable.mem_updateRow.mpr (.inl ⟨hrow, hid⟩), rfl⟩

theorem stored_recovered (hrow : row ∈ t.rows) (now : ℚ) :
    Stored (t.recovered now) row.toRowIdentity := by
  by_cases hstate : row.state = .sending
  · exact ⟨_, OutboxTable.mem_recovered.mpr (.inr ⟨row, hrow, hstate, rfl⟩), rfl⟩
  · exact ⟨row, OutboxTable.mem_recovered.mpr (.inl ⟨hrow, hstate⟩), rfl⟩

/-- After a recovery every row is pending. -/
theorem pending_of_recovered {now : ℚ} (hrow : row ∈ (t.recovered now).rows) :
    row.state = .pending := by
  rcases OutboxTable.mem_recovered.mp hrow with ⟨-, hstate⟩ | ⟨r, -, -, rfl⟩
  · cases h : row.state with
    | pending => rfl
    | sending => exact absurd h hstate
  · rfl

end Tables

section Steps
variable {lib : Stdlib} {configs : List BetterHindsightConfig} {s s' : System}

/-- One step keeps a stored row, or it is the confirmed delivery of that row. -/
theorem SystemInvariant.stored_step {l : ℕ × SystemEvent} (h : SystemInvariant lib configs s)
    (hstep : SystemStep lib configs s l s') {row : OutboxRow} (hrow : row ∈ s.table.rows) :
    Stored s'.table row.toRowIdentity ∨ Delivered lib ⟨s, l, s'⟩ row.toRowIdentity := by
  cases hstep with
  | start unborn opened isOpen => exact .inl ⟨row, hrow, rfl⟩
  | crash alive => exact .inl ⟨row, hrow, rfl⟩
  | @step pid process event v alive step =>
    have hinv := h pid process alive
    cases step with
    | admission hrun => exact .inl ⟨row, admit_keeps hrun hrow, rfl⟩
    | @recover owner now faults result t pc hrun =>
      rcases process.outbox.recoverSending_cases owner now faults s.table with heq | ⟨q, -, -, heq⟩
      · obtain ⟨-, rfl⟩ := Prod.mk.inj (hrun.symm.trans heq)
        exact .inl ⟨row, hrow, rfl⟩
      · obtain ⟨-, rfl⟩ := Prod.mk.inj (hrun.symm.trans heq)
        exact .inl (stored_recovered hrow q)
    | @claim owner now faults result t pc hrun =>
      rcases process.outbox.claimDue_cases owner now faults s.table with
        heq | ⟨q, -, ⟨-, heq⟩ | ⟨due, -, -, heq⟩⟩
      · obtain ⟨-, rfl⟩ := Prod.mk.inj (hrun.symm.trans heq)
        exact .inl ⟨row, hrow, rfl⟩
      · obtain ⟨-, rfl⟩ := Prod.mk.inj (hrun.symm.trans heq)
        exact .inl ⟨row, hrow, rfl⟩
      · obtain ⟨-, rfl⟩ := Prod.mk.inj (hrun.symm.trans heq)
        exact .inl (stored_updateRow hrow _ _)
    | @reschedule owner completedAt faults claimed category result t pc hrun =>
      rcases process.outbox.rescheduleClaim_cases lib owner claimed.documentId claimed.attemptCount
        category completedAt faults s.table with heq | ⟨r, -, -, -, -, -, q, next, -, -, heq⟩
      · obtain ⟨-, rfl⟩ := Prod.mk.inj (hrun.symm.trans heq)
        exact .inl ⟨row, hrow, rfl⟩
      · obtain ⟨-, rfl⟩ := Prod.mk.inj (hrun.symm.trans heq)
        exact .inl (stored_updateRow hrow _ _)
    | @complete owner faults claimed id result t pc hrun =>
      rcases process.outbox.completeClaim_cases owner claimed.documentId claimed.attemptCount faults
        s.table with heq | ⟨r, -, -, -, -, -, heq⟩
      · obtain ⟨-, rfl⟩ := Prod.mk.inj (hrun.symm.trans heq)
        exact .inl ⟨row, hrow, rfl⟩
      · obtain ⟨rfl, rfl⟩ := Prod.mk.inj (hrun.symm.trans heq)
        by_cases hid : row.documentId = claimed.documentId
        · -- the key of the claim names one stored row, which is the claim itself
          replace pc : process.pc = .completing claimed id := pc
          have hclaimed := (hinv.claimed claimed (by rw [pc]; rfl)).1
          obtain rfl := OutboxTable.eq_of_documentId hrow hclaimed hid
          obtain ⟨call, hcall, hop, hres⟩ := hinv.confirmed row id pc
          exact .inr ⟨pid, process, owner, faults, row, id, call, rfl, alive, pc, rfl, hcall, hop,
            hres, heq⟩
        · exact .inl ⟨row, OutboxTable.mem_deleteRow.mpr ⟨hrow, hid⟩, rfl⟩
    | _ => exact .inl ⟨row, hrow, rfl⟩

/-- A committed reschedule leaves the row of its claim pending. -/
theorem pending_of_reschedule {e : Transition System (ℕ × SystemEvent)} {row : RowIdentity}
    (hinv : SystemInvariant lib configs e.before) (h : CommitsReschedule lib e row) :
    ∃ r ∈ e.after.table.rows, r.toRowIdentity = row ∧ r.state = .pending := by
  obtain ⟨pid, process, owner, completedAt, faults, claimed, category, count, -, halive, hpc, rfl,
    hrun⟩ := h
  have hclaimed := ((hinv pid process halive).claimed claimed (by
    show SenderPc.claim? process.pc = _
    rw [hpc]
    rfl)).1
  rcases process.outbox.rescheduleClaim_cases lib owner claimed.documentId claimed.attemptCount
    category completedAt faults e.before.table with heq | ⟨r, -, -, -, -, -, q, next, -, -, heq⟩
  · rw [hrun] at heq
    cases (Prod.mk.inj heq).1
  · rw [(Prod.mk.inj (hrun.symm.trans heq)).2]
    exact ⟨_, OutboxTable.mem_updateRow.mpr (.inr ⟨claimed, hclaimed, rfl, rfl⟩), rfl, rfl⟩

/-- A committed recovery leaves every row pending. -/
theorem pending_of_recovery {e : Transition System (ℕ × SystemEvent)} (h : CommitsRecovery e) :
    ∀ r ∈ e.after.table.rows, r.state = .pending := by
  obtain ⟨pid, process, owner, now, faults, count, -, -, hrun⟩ := h
  intro r hr
  rcases process.outbox.recoverSending_cases owner now faults e.before.table with
    heq | ⟨q, -, -, heq⟩
  · rw [hrun] at heq
    cases (Prod.mk.inj heq).1
  · rw [(Prod.mk.inj (hrun.symm.trans heq)).2] at hr
    exact pending_of_recovered hr

/-- **At-least-once delivery without loss.** -/
theorem at_least_once {tr : List (Transition System (ℕ × SystemEvent))}
    (hreach : Reachable (System.Initial lib configs) (SystemStep lib configs) s)
    (hrun : Run (SystemStep lib configs) s tr s') {row : OutboxRow} (hrow : row ∈ s.table.rows) :
    (Stored s'.table row.toRowIdentity ∨ ∃ e ∈ tr, Delivered lib e row.toRowIdentity) ∧
    ∀ e ∈ tr,
      (∀ r ∈ e.before.table.rows,
        Stored e.after.table r.toRowIdentity ∨ Delivered lib e r.toRowIdentity) ∧
      (∀ r, CommitsReschedule lib e r →
        ∃ r' ∈ e.after.table.rows, r'.toRowIdentity = r ∧ r'.state = .pending) ∧
      (CommitsRecovery e → ∀ r ∈ e.after.table.rows, r.state = .pending) := by
  have hinv := systemInvariant_of_reachable hreach
  have hpreserved : ∀ a l b, SystemInvariant lib configs a → SystemStep lib configs a l b →
      SystemInvariant lib configs b := fun _ _ _ ha hab => ha.step hab
  constructor
  · have hstored : Stored s.table row.toRowIdentity := ⟨row, hrow, rfl⟩
    refine hrun.persists_or (P := fun a => Stored a.table row.toRowIdentity) hinv hpreserved ?_
      hstored
    rintro a l b ha hab ⟨r, hr, hid⟩
    rw [← hid]
    exact ha.stored_step hab hr
  · intro e he
    obtain ⟨hbefore, hstep⟩ := hrun.invariant_at hinv hpreserved e he
    exact ⟨fun r hr => hbefore.stored_step hstep hr, fun r hr => pending_of_reschedule hbefore hr,
      pending_of_recovery⟩

end Steps

theorem at_least_once_legacySystem : ∃ tr s',
    Run (SystemStep (.ofDigests destinationDigests) [defaultConfig, otherConfig]) legacySystem tr
      s' ∧ ∃ e ∈ tr, Delivered (.ofDigests destinationDigests) e legacyClaim.toRowIdentity := by
  obtain ⟨tr, hretain⟩ := exists_retain_run
  have hqueued : legacyRetain.process.runner.calls 0 = some _ := AsyncRunner.setCall_same _ _ _
  obtain ⟨_, r, hanswer, hcall, hloop⟩ := exists_answer hqueued rfl Outcome.confirmed
  obtain ⟨_, hanswered⟩ := Run.ofLoop hanswer hloop
  have hcollected := (hretain.append hanswered).snoc
    (.collectRetain rfl hcall rfl (.collect hcall rfl rfl))
  have hcomplete : SQLiteOutbox.defaultHandle.completeClaim ⟨true, true⟩ legacyClaim.documentId
      legacyClaim.attemptCount [] (legacyTable.updateRow ['a'] (SQLiteOutbox.claimedProgress 1)) =
        (.applied 1, (legacyTable.updateRow ['a']
          (SQLiteOutbox.claimedProgress 1)).deleteRow legacyClaim.documentId) := by
    decide +kernel
  obtain ⟨tr', hrun⟩ := exists_legacy_run (hcollected.snoc (.complete rfl hcomplete))
  have hrow : legacyRow ['a'] 0xcc159870e013988d0bc9986bd0730aff7eacc26c88731226ee7004e72df75663 ∈
      legacySystem.table.rows := List.mem_cons_self
  refine ⟨tr', _, hrun, (at_least_once (.init legacySystem_initial) hrun hrow).1.resolve_left ?_⟩
  rintro ⟨r, hr, hid⟩
  exact (OutboxTable.mem_deleteRow.mp hr).2 (congrArg RowIdentity.documentId hid)

end BetterHindsight
