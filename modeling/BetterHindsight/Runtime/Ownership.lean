import BetterHindsight.Runtime.Sender

/-! # Ownership

What holds of every process in every reachable state: it holds the profile lock while it is in the
owner's part of the loop, and the claim in its hands is a row that the table holds as claimed.

* `ProcessInvariant`: the invariant of one process, in the shared state.
* `LocalStep.invariant`, `LocalStep.frame`: a step keeps the invariant of its own process, and keeps
  the lock and the rows while another process holds the lock.
* `SystemInvariant`: the invariant of all processes, which holds in every reachable state. -/

namespace BetterHindsight
set_option autoImplicit false

namespace SenderPc

/-- The statement is in the owner's part of the loop. -/
def owns : SenderPc → Bool
  | top | acquiring | pollClear | pollCheck | pollWait | exited => false
  | recovering | ownerTop | ownerClear | ownerCheck | settleCheck | draining | drainCheck
  | claimCheck | claiming | readingDeadline | ownerWait => true
  | running _ | awaiting _ _ | settling _ _ | completing _ _ | rescheduling _ _ => true
  | releasing _ => true

/-- The claim in the sender's hands. -/
def claim? : SenderPc → Option OutboxRow
  | running row | awaiting row _ | settling row _ | completing row _ | rescheduling row _ => some row
  | top | acquiring | pollClear | pollCheck | pollWait | exited => none
  | recovering | ownerTop | ownerClear | ownerCheck | settleCheck | draining | drainCheck
  | claimCheck | claiming | readingDeadline | ownerWait | releasing _ => none

theorem owns_of_claim {pc : SenderPc} {row : OutboxRow} (h : pc.claim? = some row) :
    pc.owns = true := by
  cases pc <;> first | rfl | cases h

end SenderPc

theorem SenderControl.owns {stop wake wake' : Bool} {pc pc' : SenderPc}
    (h : SenderControl stop (pc, wake) (pc', wake')) (h' : pc'.owns = true) : pc.owns = true := by
  cases h <;> first | rfl | cases h'

theorem SenderControl.claim? {stop wake wake' : Bool} {pc pc' : SenderPc}
    (h : SenderControl stop (pc, wake) (pc', wake')) : pc'.claim? = none := by
  cases h <;> rfl

/-! ## The invariant of one process -/

structure ProcessInvariant (lib : Stdlib) (configs : List BetterHindsightConfig) (pid : ℕ)
    (v : View) : Prop where
  opened : OpenedUnder lib configs v.process.outbox
  owned : v.process.pc.owns = true → v.lock = some pid
  claimed : ∀ row, v.process.pc.claim? = some row → row ∈ v.table.rows ∧ row.state = .sending ∧
    v.process.outbox.isEligible row.toRowIdentity = true
  requested : ∀ row id, v.process.pc = .awaiting row id → ∃ call,
    v.process.runner.calls id = some call ∧ call.operation = some (retainSegmentOf lib row)
  confirmed : ∀ row id, v.process.pc = .completing row id → ∃ call,
    v.process.runner.calls id = some call ∧ call.operation = some (retainSegmentOf lib row) ∧
      call.phase.result? = some .confirmed

section Step
variable {lib : Stdlib} {configs : List BetterHindsightConfig} {pid : ℕ} {v v' : View}

/-- Without a claim in its hands a process has only its lock to keep. -/
theorem ProcessInvariant.of_noClaim (opened : OpenedUnder lib configs v.process.outbox)
    (owned : v.process.pc.owns = true → v.lock = some pid) (hnone : v.process.pc.claim? = none) :
    ProcessInvariant lib configs pid v where
  opened := opened
  owned := owned
  claimed := fun row h => by rw [hnone] at h; cases h
  requested := fun row id h => by rw [h] at hnone; cases hnone
  confirmed := fun row id h => by rw [h] at hnone; cases hnone

theorem OpenedUnder.close {outbox : SQLiteOutbox} (h : OpenedUnder lib configs outbox) :
    OpenedUnder lib configs { outbox with closed := true } := by
  obtain ⟨config, hmem, hacc, hof⟩ := h
  exact ⟨config, hmem, hacc, ⟨hof.config_eq, hof.multimodal, hof.destination, hof.legacy,
    hof.payloadSchema, hof.segmentMaxBytes, hof.maxPendingRows, hof.maxPendingBytes,
    hof.retryInitial, hof.retryMax⟩⟩

theorem admit_keeps {outbox : SQLiteOutbox} {segments : List RetainedSegment}
    {timestamp : WallTime} {faults : Faults} {t t' : OutboxTable} {result : AdmissionResult}
    (hrun : outbox.admitSegments lib segments timestamp faults t = (result, t')) {row : OutboxRow}
    (hrow : row ∈ t.rows) : row ∈ t'.rows := by
  have h := outbox.admit_cases lib segments timestamp faults t
  rw [hrun] at h
  rcases h with rfl | ⟨turn, -, -, h⟩
  · exact hrow
  · rw [h]
    exact List.mem_append_left _ hrow

/-- What a claim returns is in the table as it was returned. -/
theorem claimed_mem {outbox : SQLiteOutbox} {owner : OwnerChecks} {now : PyFloat} {faults : Faults}
    {t t' : OutboxTable} {row : OutboxRow}
    (hrun : outbox.claimDue owner now faults t = (.claimed row, t')) :
    row ∈ t'.rows ∧ row.state = .sending := by
  rcases outbox.claimDue_cases owner now faults t with h | ⟨q, -, ⟨-, h⟩ | ⟨r, hr, -, h⟩⟩
  · rw [h] at hrun
    cases hrun
  · rw [h] at hrun
    cases hrun
  · rw [h] at hrun
    cases hrun
    exact ⟨OutboxTable.mem_updateRow.mpr (.inr ⟨r, (SQLiteOutbox.isDue_of_dueRow hr).1, rfl, rfl⟩),
      rfl⟩

theorem afterTransition_claim (result : OutboxTransitionResult) :
    (afterTransition result).claim? = none := by
  cases result <;> rfl

theorem afterDeadline_claim (result : Except OutboxReadError (Option ℚ)) :
    (afterDeadline result).claim? = none := by
  cases result <;> rfl

/-- A step keeps the invariant of its own process. -/
theorem LocalStep.invariant {event : LocalEvent} (h : ProcessInvariant lib configs pid v)
    (hstep : LocalStep lib pid v event v') : ProcessInvariant lib configs pid v' := by
  cases hstep with
  | admission hrun =>
    exact ⟨h.opened, h.owned, fun row hrow => ⟨admit_keeps hrun (h.claimed row hrow).1,
      (h.claimed row hrow).2⟩, h.requested, h.confirmed⟩
  | wake pending => exact ⟨h.opened, h.owned, h.claimed, h.requested, h.confirmed⟩
  | requestStop => exact ⟨h.opened, h.owned, h.claimed, h.requested, h.confirmed⟩
  | requestStopWake stopping => exact ⟨h.opened, h.owned, h.claimed, h.requested, h.confirmed⟩
  | close => exact ⟨h.opened.close, h.owned, h.claimed, h.requested, h.confirmed⟩
  | runner background step =>
    refine ⟨h.opened, h.owned, h.claimed, fun row id hpc => ?_, fun row id hpc => ?_⟩
    · obtain ⟨call, hcall, hop⟩ := h.requested row id hpc
      obtain ⟨call', hcall', hop', -⟩ := step.keeps hcall
      exact ⟨call', hcall', hop'.trans hop⟩
    · obtain ⟨call, hcall, hop, hres⟩ := h.confirmed row id hpc
      obtain ⟨call', hcall', hop', hres'⟩ := step.keeps hcall
      exact ⟨call', hcall', hop'.trans hop, hres' _ hres⟩
  | control step =>
    exact .of_noClaim h.opened (fun hpc => h.owned (step.owns hpc)) step.claim?
  | acquire pc free => exact .of_noClaim h.opened (fun _ => rfl) rfl
  | acquireFailed pc => exact .of_noClaim h.opened (fun hpc => by cases hpc) rfl
  | recover pc hrun =>
    exact .of_noClaim h.opened (fun _ => h.owned (by rw [pc]; rfl)) (afterTransition_claim _)
  | checkSettled pc free settled =>
    exact .of_noClaim h.opened (fun _ => h.owned (by rw [pc]; rfl)) rfl
  | checkUnsettled pc free unsettled =>
    exact .of_noClaim h.opened (fun _ => h.owned (by rw [pc]; rfl)) rfl
  | drained pc free settled =>
    exact .of_noClaim h.opened (fun _ => h.owned (by rw [pc]; rfl)) rfl
  | @claim _ _ _ result _ pc hrun =>
    have howned := h.owned (by rw [pc]; rfl)
    cases result with
    | empty => exact .of_noClaim h.opened (fun _ => howned) rfl
    | localFailure => exact .of_noClaim h.opened (fun _ => howned) rfl
    | claimed row =>
      refine ⟨h.opened, fun _ => howned, fun r hr => ?_, fun r id hr => (by cases hr),
        fun r id hr => (by cases hr)⟩
      obtain rfl := Option.some.inj hr
      obtain ⟨hmem, hstate⟩ := claimed_mem hrun
      exact ⟨hmem, hstate, SQLiteOutbox.isEligible_of_claimed (by rw [hrun])⟩
  | readDeadline pc =>
    exact .of_noClaim h.opened (fun _ => h.owned (by rw [pc]; rfl)) (afterDeadline_claim _)
  | @startRetain id row r pc step =>
    refine ⟨h.opened, fun _ => h.owned (by rw [pc]; rfl), fun r hr => h.claimed r (by rwa [pc]),
      fun r id hr => ?_, fun r id hr => (by cases hr)⟩
    cases hr
    cases step with
    | schedule free settled fresh => exact ⟨_, AsyncRunner.setCall_same _ _ _, rfl⟩
  | refuseUnsettled pc free unsettled =>
    exact ⟨h.opened, fun _ => h.owned (by rw [pc]; rfl), fun r hr => h.claimed r (by rwa [pc]),
      fun r id hr => (by cases hr), fun r id hr => (by cases hr)⟩
  | refuseClosed pc =>
    exact ⟨h.opened, fun _ => h.owned (by rw [pc]; rfl), fun r hr => h.claimed r (by rwa [pc]),
      fun r id hr => (by cases hr), fun r id hr => (by cases hr)⟩
  | @collectRetain row id call outcome r pc hcall result step =>
    have howned := h.owned (by rw [pc]; rfl)
    have hclaimed : ∀ r', some row = some r' → r' ∈ v.table.rows ∧ r'.state = .sending ∧
        v.process.outbox.isEligible r'.toRowIdentity = true :=
      fun r' hr => h.claimed r' (by rw [pc]; exact hr)
    cases hcat : outcome.category with
    | some category =>
      have hpc : afterRetain row id outcome = .rescheduling row category := by
        rw [afterRetain, hcat]
      simp only [hpc]
      exact ⟨h.opened, fun _ => howned, hclaimed, fun r id hr => (by cases hr),
        fun r id hr => (by cases hr)⟩
    | none =>
      have hpc : afterRetain row id outcome = .completing row id := by
        rw [afterRetain, hcat]
      have houtcome : outcome = .confirmed := by
        cases outcome <;> first | rfl | cases hcat
      simp only [hpc]
      refine ⟨h.opened, fun _ => howned, hclaimed, fun r id hr => (by cases hr),
        fun r id hr => ?_⟩
      cases hr
      obtain ⟨call₀, hcall₀, hop⟩ := h.requested row id pc
      obtain rfl := Option.some.inj (hcall₀.symm.trans hcall)
      obtain ⟨call', hcall', hop', hres'⟩ := step.keeps hcall
      exact ⟨call', hcall', hop'.trans hop, hres' _ (by rw [result, houtcome])⟩
  | raiseTimeout pc hcall waiter =>
    exact ⟨h.opened, fun _ => h.owned (by rw [pc]; rfl), fun r hr => h.claimed r (by rwa [pc]),
      fun r id hr => (by cases hr), fun r id hr => (by cases hr)⟩
  | settled pc free settled =>
    exact ⟨h.opened, fun _ => h.owned (by rw [pc]; rfl), fun r hr => h.claimed r (by rwa [pc]),
      fun r id hr => (by cases hr), fun r id hr => (by cases hr)⟩
  | complete pc hrun =>
    exact .of_noClaim h.opened (fun _ => h.owned (by rw [pc]; rfl)) (afterTransition_claim _)
  | reschedule pc hrun =>
    exact .of_noClaim h.opened (fun _ => h.owned (by rw [pc]; rfl)) (afterTransition_claim _)
  | @release ownershipLost pc =>
    cases ownershipLost with
    | false => exact .of_noClaim h.opened (fun hpc => by cases hpc) rfl
    | true => exact .of_noClaim h.opened (fun hpc => by cases hpc) rfl

/-- While another process holds the lock, a step keeps the lock and every row. -/
theorem LocalStep.frame {event : LocalEvent} (h : ProcessInvariant lib configs pid v)
    (hstep : LocalStep lib pid v event v') {q : ℕ} (hq : q ≠ pid) (hlock : v.lock = some q) :
    v'.lock = some q ∧ ∀ row ∈ v.table.rows, row ∈ v'.table.rows := by
  have hnot : v.process.pc.owns ≠ true := by
    intro howns
    rw [h.owned howns] at hlock
    exact hq (Option.some.inj hlock).symm
  cases hstep with
  | admission hrun => exact ⟨hlock, fun row hrow => admit_keeps hrun hrow⟩
  | acquire pc free =>
    rw [free] at hlock
    cases hlock
  | recover pc hrun => exact absurd (by rw [pc]; rfl) hnot
  | claim pc hrun => exact absurd (by rw [pc]; rfl) hnot
  | complete pc hrun => exact absurd (by rw [pc]; rfl) hnot
  | reschedule pc hrun => exact absurd (by rw [pc]; rfl) hnot
  | release pc => exact absurd (by rw [pc]; rfl) hnot
  | _ => exact ⟨hlock, fun row hrow => hrow⟩

end Step

/-! ## The invariant of all processes -/

/-- Every living process keeps its invariant in the shared state. -/
def SystemInvariant (lib : Stdlib) (configs : List BetterHindsightConfig) (s : System) : Prop :=
  ∀ pid process, s.processes pid = .alive process →
    ProcessInvariant lib configs pid ⟨s.table, s.lock, process⟩

section System
variable {lib : Stdlib} {configs : List BetterHindsightConfig} {s s' : System}

theorem System.Initial.invariant (h : s.Initial lib configs) : SystemInvariant lib configs s := by
  intro pid process halive
  rw [h.unborn pid] at halive
  cases halive

/-- A process keeps its invariant when the rest of the system keeps its lock and its rows. -/
theorem ProcessInvariant.of_frame {pid : ℕ} {process : Process} {t t' : OutboxTable}
    {lock lock' : Option ℕ} (h : ProcessInvariant lib configs pid ⟨t, lock, process⟩)
    (hframe : lock = some pid → lock' = some pid ∧ ∀ row ∈ t.rows, row ∈ t'.rows) :
    ProcessInvariant lib configs pid ⟨t', lock', process⟩ where
  opened := h.opened
  owned := fun howns => (hframe (h.owned howns)).1
  claimed := fun row hrow => by
    obtain ⟨hmem, hrest⟩ := h.claimed row hrow
    exact ⟨(hframe (h.owned (SenderPc.owns_of_claim hrow))).2 row hmem, hrest⟩
  requested := h.requested
  confirmed := h.confirmed

/-- A step keeps the lock and the rows of a process that holds the lock and does not make it. -/
theorem SystemInvariant.frame {l : ℕ × SystemEvent} (h : SystemInvariant lib configs s)
    (hstep : SystemStep lib configs s l s') {q : ℕ} (hq : q ≠ l.1) (hlock : s.lock = some q) :
    s'.lock = some q ∧ ∀ row ∈ s.table.rows, row ∈ s'.table.rows := by
  cases hstep with
  | start unborn opened isOpen => exact ⟨hlock, fun row hrow => hrow⟩
  | @crash pid dying alive =>
    have hother : ¬ some q = some pid := fun heq => hq (Option.some.inj heq)
    refine ⟨?_, fun row hrow => hrow⟩
    show lockAfterDeath s.lock pid = some q
    rw [hlock, lockAfterDeath, if_neg hother]
  | @step pid stepping event v alive step => exact step.frame (h pid stepping alive) hq hlock

theorem SystemInvariant.step {l : ℕ × SystemEvent} (h : SystemInvariant lib configs s)
    (hstep : SystemStep lib configs s l s') : SystemInvariant lib configs s' := by
  intro q process hq
  rcases hstep.alive_cases hq with ⟨outbox, rfl, opened, -, rfl⟩ |
    ⟨before, event, rfl, hbefore, hlocal⟩ | ⟨hne, hbefore⟩
  · exact .of_noClaim opened (fun hpc => by cases hpc) rfl
  · exact hlocal.invariant (h q before hbefore)
  · exact (h q process hbefore).of_frame fun hlock => h.frame hstep hne hlock

/-- The invariant holds in every reachable state. -/
theorem systemInvariant_of_reachable
    (h : Reachable (System.Initial lib configs) (SystemStep lib configs) s) :
    SystemInvariant lib configs s :=
  h.invariant (fun _ h₀ => h₀.invariant) fun _ _ _ ha hab => ha.step hab

end System

end BetterHindsight
