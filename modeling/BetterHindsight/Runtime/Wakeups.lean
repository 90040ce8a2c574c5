import BetterHindsight.Runtime.Sender

/-! # Wake-ups and stops

The sender clears its wake event before it looks at the stop event and at the table, and other
threads commit before they set it, so neither an admission nor a stop is slept through.

* `AsleepAsOwner`: the sender has read an empty outbox and the wake event is still clear.
* `StopIsSeen`: after a stop the wake event is set, or the sender looks at the stop event before it
  waits again.
* `no_lost_wakeup`: both together, over runs. -/

namespace BetterHindsight
set_option autoImplicit false

/-- The sender waits on its wake event, as owner or not. -/
def SenderPc.waitsForWake : SenderPc → Prop
  | pollWait | ownerWait => True
  | _ => False

/-- The owner is past an empty claim, up to the end of its wait, and no wake has come. -/
def AsleepAsOwner (process : Process) : Prop :=
  (process.pc = .readingDeadline ∨ process.pc = .ownerWait) ∧ process.wake = false

/-- The sender reaches the stop event from here before it waits on the wake event. -/
def SenderPc.looksFirst : SenderPc → Prop
  | top | pollClear | pollCheck | ownerClear | ownerCheck | releasing _ | exited => True
  | _ => False

/-- What holds from the end of `request_stop` on. -/
structure StopIsSeen (process : Process) : Prop where
  stopRequested : process.stopRequested = true
  awake : process.wake = true ∨ process.pc.looksFirst

/-! ## Steps of one process -/

def LocalEvent.isWake : LocalEvent → Bool
  | wake _ => true
  | _ => false

def LocalEvent.isClaim : LocalEvent → Bool
  | claim _ _ _ => true
  | _ => false

section Step
variable {lib : Stdlib} {pid : ℕ} {v v' : View} {event : LocalEvent}

theorem afterTransition_ne (result : OutboxTransitionResult) :
    afterTransition result ≠ .readingDeadline ∧ afterTransition result ≠ .ownerWait ∧
      afterTransition result ≠ .claiming := by
  cases result <;> refine ⟨?_, ?_, ?_⟩ <;> intro h <;> cases h

theorem afterRetain_ne (row : OutboxRow) (id : ℕ) (outcome : Outcome) :
    afterRetain row id outcome ≠ .readingDeadline ∧ afterRetain row id outcome ≠ .ownerWait ∧
      afterRetain row id outcome ≠ .claiming := by
  cases outcome <;> refine ⟨?_, ?_, ?_⟩ <;> intro h <;> cases h

theorem SenderControl.ne {stop wake wake' : Bool} {pc pc' : SenderPc}
    (h : SenderControl stop (pc, wake) (pc', wake')) :
    pc' ≠ .readingDeadline ∧ pc' ≠ .ownerWait ∧ (stop = true → pc' ≠ .claiming) := by
  cases h with
  | claimCheck running =>
    refine ⟨nofun, nofun, fun hstop => ?_⟩
    rw [running] at hstop
    cases hstop
  | _ => exact ⟨nofun, nofun, fun _ => nofun⟩

/-- Only a claim puts the owner to sleep, and no wake does. -/
theorem LocalStep.asleep (hstep : LocalStep lib pid v event v') (h : AsleepAsOwner v'.process) :
    event.isWake = false ∧ (event.isClaim = true ∨ AsleepAsOwner v.process) := by
  obtain ⟨hpc, hwake⟩ := h
  cases hstep with
  | wake pending => cases hwake
  | requestStopWake stopping => cases hwake
  | claim pc hrun => exact ⟨rfl, .inl rfl⟩
  | admission hrun => exact ⟨rfl, .inr ⟨hpc, hwake⟩⟩
  | requestStop => exact ⟨rfl, .inr ⟨hpc, hwake⟩⟩
  | close => exact ⟨rfl, .inr ⟨hpc, hwake⟩⟩
  | runner background step => exact ⟨rfl, .inr ⟨hpc, hwake⟩⟩
  | readDeadline pc => exact ⟨rfl, .inr ⟨.inl pc, hwake⟩⟩
  | control step => exact absurd hpc (not_or.mpr ⟨step.ne.1, step.ne.2.1⟩)
  | @recover owner now faults result t pc hrun =>
    exact absurd hpc (not_or.mpr ⟨(afterTransition_ne result).1, (afterTransition_ne result).2.1⟩)
  | @complete owner faults row id result t pc hrun =>
    exact absurd hpc (not_or.mpr ⟨(afterTransition_ne result).1, (afterTransition_ne result).2.1⟩)
  | @reschedule owner completedAt faults row category result t pc hrun =>
    exact absurd hpc (not_or.mpr ⟨(afterTransition_ne result).1, (afterTransition_ne result).2.1⟩)
  | @collectRetain row id call outcome r pc hcall result step =>
    exact absurd hpc (not_or.mpr
      ⟨(afterRetain_ne row id outcome).1, (afterRetain_ne row id outcome).2.1⟩)
  | @release ownershipLost pc =>
    rcases hpc with hpc | hpc <;> cases ownershipLost <;> cases hpc
  | _ => rcases hpc with hpc | hpc <;> cases hpc

/-- A statement between two calls keeps the stop in sight. -/
theorem SenderControl.stopIsSeen {pc pc' : SenderPc} {wake wake' : Bool}
    (h : SenderControl true (pc, wake) (pc', wake')) (hseen : wake = true ∨ pc.looksFirst) :
    wake' = true ∨ pc'.looksFirst := by
  cases h <;> first | exact .inr trivial | exact hseen | contradiction

/-- Where the sender calls something else before it looks at the stop event, the wake event is
set, and stays so. -/
theorem StopIsSeen.move {process process' : Process} (h : StopIsSeen process)
    (hpc : ¬ process.pc.looksFirst) (hstop : process'.stopRequested = process.stopRequested)
    (hwake : process'.wake = process.wake) : StopIsSeen process' where
  stopRequested := hstop.trans h.stopRequested
  awake := .inl (hwake.trans (h.awake.resolve_right hpc))

theorem LocalStep.stopIsSeen (hstep : LocalStep lib pid v event v') (h : StopIsSeen v.process) :
    StopIsSeen v'.process := by
  obtain ⟨hstop, hseen⟩ := h
  cases hstep with
  | control step =>
    rw [hstop] at step
    exact ⟨hstop, step.stopIsSeen hseen⟩
  | wake pending => exact ⟨hstop, .inl rfl⟩
  | requestStopWake stopping => exact ⟨hstop, .inl rfl⟩
  | requestStop => exact ⟨rfl, hseen⟩
  | admission hrun => exact ⟨hstop, hseen⟩
  | close => exact ⟨hstop, hseen⟩
  | runner background step => exact ⟨hstop, hseen⟩
  | @release ownershipLost pc =>
    refine ⟨hstop, .inr ?_⟩
    cases ownershipLost <;> trivial
  | acquire pc free => exact StopIsSeen.move ⟨hstop, hseen⟩ (by rw [pc]; exact id) rfl rfl
  | acquireFailed pc => exact ⟨hstop, .inr trivial⟩
  | recover pc hrun => exact StopIsSeen.move ⟨hstop, hseen⟩ (by rw [pc]; exact id) rfl rfl
  | checkSettled pc free settled =>
    exact StopIsSeen.move ⟨hstop, hseen⟩ (by rw [pc]; exact id) rfl rfl
  | checkUnsettled pc free unsettled =>
    exact StopIsSeen.move ⟨hstop, hseen⟩ (by rw [pc]; exact id) rfl rfl
  | drained pc free settled =>
    exact StopIsSeen.move ⟨hstop, hseen⟩ (by rw [pc]; exact id) rfl rfl
  | claim pc hrun => exact StopIsSeen.move ⟨hstop, hseen⟩ (by rw [pc]; exact id) rfl rfl
  | readDeadline pc => exact StopIsSeen.move ⟨hstop, hseen⟩ (by rw [pc]; exact id) rfl rfl
  | startRetain pc step => exact StopIsSeen.move ⟨hstop, hseen⟩ (by rw [pc]; exact id) rfl rfl
  | refuseUnsettled pc free unsettled =>
    exact StopIsSeen.move ⟨hstop, hseen⟩ (by rw [pc]; exact id) rfl rfl
  | refuseClosed pc => exact StopIsSeen.move ⟨hstop, hseen⟩ (by rw [pc]; exact id) rfl rfl
  | collectRetain pc hcall result step =>
    exact StopIsSeen.move ⟨hstop, hseen⟩ (by rw [pc]; exact id) rfl rfl
  | raiseTimeout pc hcall waiter =>
    exact StopIsSeen.move ⟨hstop, hseen⟩ (by rw [pc]; exact id) rfl rfl
  | settled pc free settled =>
    exact StopIsSeen.move ⟨hstop, hseen⟩ (by rw [pc]; exact id) rfl rfl
  | complete pc hrun => exact StopIsSeen.move ⟨hstop, hseen⟩ (by rw [pc]; exact id) rfl rfl
  | reschedule pc hrun => exact StopIsSeen.move ⟨hstop, hseen⟩ (by rw [pc]; exact id) rfl rfl

/-- A stopped sender makes the claim it is committed to and commits to no other. -/
theorem LocalStep.claiming (hstep : LocalStep lib pid v event v')
    (hstop : v.process.stopRequested = true) :
    (event.isClaim = true → v.process.pc = .claiming ∧ v'.process.pc ≠ .claiming) ∧
      (v'.process.pc = .claiming → v.process.pc = .claiming) := by
  cases hstep with
  | @claim owner now faults result t pc hrun =>
    exact ⟨fun _ => ⟨pc, by cases result <;> exact nofun⟩, fun _ => pc⟩
  | control step => exact ⟨nofun, fun hpc => absurd hpc (step.ne.2.2 hstop)⟩
  | admission hrun => exact ⟨nofun, id⟩
  | wake pending => exact ⟨nofun, id⟩
  | requestStop => exact ⟨nofun, id⟩
  | requestStopWake stopping => exact ⟨nofun, id⟩
  | close => exact ⟨nofun, id⟩
  | runner background step => exact ⟨nofun, id⟩
  | @recover owner now faults result t pc hrun =>
    exact ⟨nofun, fun hpc => absurd hpc (afterTransition_ne result).2.2⟩
  | @complete owner faults row id result t pc hrun =>
    exact ⟨nofun, fun hpc => absurd hpc (afterTransition_ne result).2.2⟩
  | @reschedule owner completedAt faults row category result t pc hrun =>
    exact ⟨nofun, fun hpc => absurd hpc (afterTransition_ne result).2.2⟩
  | @collectRetain row id call outcome r pc hcall result step =>
    exact ⟨nofun, fun hpc => absurd hpc (afterRetain_ne row id outcome).2.2⟩
  | @readDeadline fault pc =>
    refine ⟨nofun, fun hpc => ?_⟩
    cases hread : v.process.outbox.nextMatchingRetryDeadline fault v.table <;>
      simp [afterDeadline, hread] at hpc
  | @release ownershipLost pc =>
    refine ⟨nofun, fun hpc => ?_⟩
    cases ownershipLost <;> cases hpc
  | _ => exact ⟨nofun, nofun⟩

end Step

/-! ## Runs -/

/-- The transition is a `wake` of this process. -/
def WakesSender (pid : ℕ) (e : Transition System (ℕ × SystemEvent)) : Prop :=
  ∃ documentIds, e.label = (pid, .step (.wake documentIds))

/-- The transition is a `claim_due` of this process. -/
def startsClaim (pid : ℕ) (e : Transition System (ℕ × SystemEvent)) : Bool :=
  match e.label with
  | (p, .step event) => p == pid && event.isClaim
  | (_, .start _) | (_, .crash) => false

section Runs
variable {lib : Stdlib} {configs : List BetterHindsightConfig} {s s' : System} {pid : ℕ}

/-- The process is asleep as owner, with its wake event clear. -/
def OwnerSleeps (pid : ℕ) (s : System) : Prop :=
  ∃ process, s.processes pid = .alive process ∧ AsleepAsOwner process

theorem OwnerSleeps.step {l : ℕ × SystemEvent} (hstep : SystemStep lib configs s l s')
    (h : OwnerSleeps pid s') : ¬ WakesSender pid ⟨s, l, s'⟩ ∧
      (startsClaim pid ⟨s, l, s'⟩ = true ∨ OwnerSleeps pid s) := by
  obtain ⟨process, halive, hasleep⟩ := h
  rcases hstep.alive_cases halive with ⟨outbox, -, -, -, rfl⟩ |
    ⟨before, event, rfl, hbefore, hlocal⟩ | ⟨hne, hbefore⟩
  · rcases hasleep.1 with hpc | hpc <;> cases hpc
  · obtain ⟨hwake, hclaim⟩ := hlocal.asleep hasleep
    refine ⟨?_, ?_⟩
    · rintro ⟨documentIds, hlabel⟩
      cases hlabel
      cases hwake
    · rcases hclaim with hclaim | hsleep
      · exact .inl (by simp [startsClaim, hclaim])
      · exact .inr ⟨before, hbefore, hsleep⟩
  · refine ⟨?_, .inr ⟨process, hbefore, hasleep⟩⟩
    rintro ⟨documentIds, hlabel⟩
    exact hne (congrArg Prod.fst hlabel).symm

/-- What the end of `request_stop` leaves behind for the rest of the process's life. -/
def Stopped (pid : ℕ) (s : System) : Prop :=
  s.processes pid ≠ .unborn ∧ ∀ process, s.processes pid = .alive process → StopIsSeen process

theorem SystemStep.born {l : ℕ × SystemEvent} (hstep : SystemStep lib configs s l s')
    (h : s.processes pid ≠ .unborn) : s'.processes pid ≠ .unborn := by
  cases hstep with
  | @start p outbox unborn opened isOpen =>
    show Function.update s.processes p (.alive (.new outbox)) pid ≠ _
    rcases eq_or_ne pid p with rfl | hne
    · exact absurd unborn h
    · rwa [Function.update_of_ne hne]
  | @crash p dying alive =>
    show Function.update s.processes p .dead pid ≠ _
    rcases eq_or_ne pid p with rfl | hne
    · rw [Function.update_self]
      exact nofun
    · rwa [Function.update_of_ne hne]
  | @step p before event v alive step =>
    show Function.update s.processes p (.alive v.process) pid ≠ _
    rcases eq_or_ne pid p with rfl | hne
    · rw [Function.update_self]
      exact nofun
    · rwa [Function.update_of_ne hne]

theorem Stopped.step {l : ℕ × SystemEvent} (h : Stopped pid s)
    (hstep : SystemStep lib configs s l s') : Stopped pid s' := by
  refine ⟨hstep.born h.1, fun process halive => ?_⟩
  rcases hstep.alive_cases halive with ⟨outbox, -, -, hunborn, -⟩ |
    ⟨before, event, -, hbefore, hlocal⟩ | ⟨-, hbefore⟩
  · exact absurd hunborn h.1
  · exact hlocal.stopIsSeen (h.2 before hbefore)
  · exact h.2 process hbefore

theorem stopped_of_requestStopWake
    (hstep : SystemStep lib configs s (pid, .step .requestStopWake) s') : Stopped pid s' := by
  obtain ⟨process, v, halive, hlocal, rfl⟩ := hstep.localStep
  cases hlocal with
  | requestStopWake stopping =>
    refine ⟨?_, fun process' halive' => ?_⟩
    · show Function.update s.processes pid _ pid ≠ _
      rw [Function.update_self]
      exact nofun
    · replace halive' : Function.update s.processes pid _ pid = _ := halive'
      rw [Function.update_self] at halive'
      obtain rfl := Lifetime.alive.inj halive'
      exact ⟨stopping, .inl rfl⟩

/-- The claims that a process is committed to: one when it is past its check, before `claim_due`. -/
def committedClaims (pid : ℕ) (s : System) : ℕ :=
  match s.processes pid with
  | .alive process => if process.pc = .claiming then 1 else 0
  | .unborn | .dead => 0

theorem committedClaims_of_alive {process : Process} (h : s.processes pid = .alive process) :
    committedClaims pid s = if process.pc = .claiming then 1 else 0 := by
  rw [committedClaims, h]

theorem committedClaims_congr (h : s'.processes pid = s.processes pid) :
    committedClaims pid s' = committedClaims pid s := by
  rw [committedClaims, committedClaims, h]

theorem committedClaims_le_one : committedClaims pid s ≤ 1 := by
  unfold committedClaims
  split
  · split <;> omega
  · omega
  · omega

theorem Stopped.committedClaims_step {l : ℕ × SystemEvent} (h : Stopped pid s)
    (hstep : SystemStep lib configs s l s') :
    (if startsClaim pid ⟨s, l, s'⟩ then 1 else 0) + committedClaims pid s' ≤
      committedClaims pid s := by
  cases hstep with
  | @start p outbox unborn opened isOpen =>
    have hne : pid ≠ p := by
      rintro rfl
      exact h.1 unborn
    rw [committedClaims_congr (Function.update_of_ne hne _ _)]
    simp [startsClaim]
  | @crash p dying alive =>
    rcases eq_or_ne pid p with rfl | hne
    · have hdead : committedClaims pid ⟨s.table, lockAfterDeath s.lock pid,
          Function.update s.processes pid .dead⟩ = 0 := by
        simp [committedClaims]
      rw [hdead]
      simp [startsClaim]
    · rw [committedClaims_congr (Function.update_of_ne hne _ _)]
      simp [startsClaim]
  | @step p before event v alive step =>
    rcases eq_or_ne pid p with rfl | hne
    · obtain ⟨hclaims, hpc⟩ := step.claiming (h.2 before alive).stopRequested
      rw [committedClaims_of_alive alive, committedClaims_of_alive (Function.update_self _ _ _)]
      by_cases hclaim : event.isClaim = true
      · obtain ⟨hbefore, hafter⟩ := hclaims hclaim
        replace hbefore : before.pc = .claiming := hbefore
        simp [startsClaim, hclaim, hbefore, hafter]
      · by_cases hafter : v.process.pc = .claiming
        · have hbefore : before.pc = .claiming := hpc hafter
          simp [startsClaim, hclaim, hbefore, hafter]
        · simp [startsClaim, hclaim, hafter]
    · rw [committedClaims_congr (Function.update_of_ne hne _ _)]
      simp [startsClaim, hne.symm]

/-- **No lost wake-up and no lost stop.** -/
theorem no_lost_wakeup {tr : List (Transition System (ℕ × SystemEvent))}
    (hrun : Run (SystemStep lib configs) s tr s') :
    (∀ process, s'.processes pid = .alive process → process.pc = .ownerWait →
      process.wake = false → ∀ tr₁ e tr₂, tr = tr₁ ++ e :: tr₂ → WakesSender pid e →
        ∃ e' ∈ tr₂, startsClaim pid e' = true) ∧
    ∀ tr₁ e tr₂, tr = tr₁ ++ e :: tr₂ → e.label = (pid, .step .requestStopWake) →
      (∀ process, s'.processes pid = .alive process → process.pc.waitsForWake →
        process.wake = true) ∧
      tr₂.countP (startsClaim pid) ≤ committedClaims pid e.after := by
  constructor
  · intro process halive hpc hwake tr₁ e tr₂ htr he
    exact hrun.answered (Q := fun e => startsClaim pid e = true)
      (fun a l b hstep hb => OwnerSleeps.step hstep hb) ⟨process, halive, .inr hpc, hwake⟩ htr he
  · rintro tr₁ e tr₂ rfl hlabel
    obtain ⟨-, hstep, hafter⟩ := hrun.split
    rw [hlabel] at hstep
    have hstopped := stopped_of_requestStopWake hstep
    have hpreserved : ∀ a l b, Stopped pid a → SystemStep lib configs a l b → Stopped pid b :=
      fun _ _ _ ha hab => ha.step hab
    constructor
    · intro process halive hwaits
      have hseen := (hafter.invariant hstopped hpreserved).2 process halive
      refine hseen.awake.resolve_right fun hlooks => ?_
      cases hpc : process.pc <;> rw [hpc] at hlooks hwaits <;>
        first | exact hlooks | exact hwaits
    · have hcount := hafter.countP_le (startsClaim pid) (committedClaims pid) hstopped hpreserved
        fun a l b ha hab => ha.committedClaims_step hab
      omega

end Runs

/-- Process 0 while another process owns the outbox. -/
def legacyPoller (pc : SenderPc) (wake stopRequested : Bool) : View :=
  ⟨legacyTable, none, { Process.new SQLiteOutbox.defaultHandle with pc, wake, stopRequested }⟩

theorem no_lost_wakeup_pollWait : ∃ tr,
    Run (SystemStep (.ofDigests destinationDigests) [defaultConfig])
      (legacyPoller .top true false).solo
      (tr ++ [⟨(legacyPoller .pollWait false true).solo, (0, .step .requestStopWake),
        (legacyPoller .pollWait true true).solo⟩]) (legacyPoller .pollWait true true).solo ∧
      (legacyPoller .pollWait true true).process.wake = true := by
  have acquiring : LocalStep (.ofDigests destinationDigests) 0 (legacyPoller .top true false)
      .control (legacyPoller .acquiring true false) := .control (.top rfl)
  have failed : LocalStep (.ofDigests destinationDigests) 0 (legacyPoller .acquiring true false)
      .acquireFailed (legacyPoller .pollClear true false) := .acquireFailed rfl
  have cleared : LocalStep (.ofDigests destinationDigests) 0 (legacyPoller .pollClear true false)
      .control (legacyPoller .pollCheck false false) := .control .pollClear
  have waiting : LocalStep (.ofDigests destinationDigests) 0 (legacyPoller .pollCheck false false)
      .control (legacyPoller .pollWait false false) := .control (.pollCheck rfl)
  have stopping : LocalStep (.ofDigests destinationDigests) 0 (legacyPoller .pollWait false false)
      .requestStop (legacyPoller .pollWait false true) := .requestStop
  have stopped : LocalStep (.ofDigests destinationDigests) 0 (legacyPoller .pollWait false true)
      .requestStopWake (legacyPoller .pollWait true true) := .requestStopWake rfl
  have hbefore := ((((Run.single acquiring).snoc failed).snoc cleared).snoc waiting).snoc stopping
  have hrun : Run (SystemStep _ [defaultConfig]) _ _ _ :=
    (Run.solo hbefore).snoc (View.solo_step stopped)
  exact ⟨_, hrun, ((no_lost_wakeup hrun).2 _ _ [] rfl rfl).1 _ rfl trivial⟩

end BetterHindsight
