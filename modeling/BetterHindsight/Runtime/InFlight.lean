import BetterHindsight.Runtime.Sender

/-! # One retain call at a time

A sender starts no retain call, claims no row and reschedules no row while an earlier retain call of
its own is unfinished on the event loop, whatever other threads run on the same loop and however
long an operation ignores its cancellation.

* `InFlight`: an unfinished retain call is the one that the sender waits for, inside `run` or, once
  its token is published, for its settlement.
* `single_in_flight`: what this means for the transitions of a run. -/

namespace BetterHindsight
set_option autoImplicit false

/-- The sender is inside `run` or waits for the settlement after it. -/
def SenderPc.waitsForRetain : SenderPc → Bool
  | awaiting _ _ | settling _ _ => true
  | _ => false

theorem SenderControl.waitsForRetain {stop wake wake' : Bool} {pc pc' : SenderPc}
    (h : SenderControl stop (pc, wake) (pc', wake')) : pc.waitsForRetain = false := by
  cases h <;> rfl

/-- The call carries a retain request of the sender and is not over on the loop. -/
def OpenRetain (r : ProcessRunner) (id : ℕ) : Prop :=
  ∃ call, r.calls id = some call ∧ call.operation ≠ none ∧ call.phase.Unfinished

theorem RunnerStep.openRetain {r r' : ProcessRunner}
    {e : RunnerEvent (Option RetainSegment) Outcome} (hstep : RunnerStep .cancelled r e r') {id : ℕ}
    (h : OpenRetain r' id) : (∃ request, e = .schedule id (some request)) ∨
      OpenRetain r id ∧ (id ∈ r.unsettledTokens → id ∈ r'.unsettledTokens) := by
  obtain ⟨call', hcall', hop, hun⟩ := h
  rcases hstep.unfinished hcall' hun with rfl | ⟨call, hcall, hop', hun', htokens⟩
  · obtain ⟨request, hrequest⟩ := Option.ne_none_iff_exists'.mp hop
    exact .inl ⟨request, by rw [hrequest]⟩
  · exact .inr ⟨⟨call, hcall, by rwa [hop'], hun'⟩, htokens⟩

theorem Phase.Unfinished.isDone {ρ : Type} {phase : Phase ρ} (h : phase.Unfinished) :
    phase.isDone = false := by
  cases phase <;> first | rfl | exact h.elim

theorem Phase.Unfinished.result {ρ : Type} {phase : Phase ρ} (h : phase.Unfinished) :
    phase.result? = none := by
  cases phase <;> first | rfl | exact h.elim

/-! ## The invariant -/

structure InFlight (process : Process) : Prop where
  tokens : RunnerInvariant process.runner
  unfinished : ∀ id, OpenRetain process.runner id → (∃ row, process.pc = .awaiting row id) ∨
    (∃ row category, process.pc = .settling row category) ∧ id ∈ process.runner.unsettledTokens
  unique : ∀ id id', OpenRetain process.runner id → OpenRetain process.runner id' → id = id'

theorem InFlight.new (outbox : SQLiteOutbox) : InFlight (.new outbox) where
  tokens := runnerInvariant_new
  unfinished := by
    rintro id ⟨call, hcall, -⟩
    cases hcall
  unique := by
    rintro id id' ⟨call, hcall, -⟩
    cases hcall

/-- Away from `run` and the settlement after it no retain call is open. -/
theorem InFlight.idle {process : Process} (h : InFlight process)
    (hpc : process.pc.waitsForRetain = false) (id : ℕ) : ¬ OpenRetain process.runner id := by
  intro hopen
  rcases h.unfinished id hopen with ⟨row, hrow⟩ | ⟨⟨row, category, hrow⟩, -⟩
  · rw [hrow] at hpc
    cases hpc
  · rw [hrow] at hpc
    cases hpc

section Step
variable {lib : Stdlib} {pid : ℕ} {v v' : View}

/-- A step away from `run` that leaves the runner alone keeps the invariant. -/
theorem InFlight.move (h : InFlight v.process) (hpc : v.process.pc.waitsForRetain = false)
    (hrunner : v'.process.runner = v.process.runner) : InFlight v'.process where
  tokens := by
    rw [hrunner]
    exact h.tokens
  unfinished := fun id hopen => by
    rw [hrunner] at hopen
    exact absurd hopen (h.idle hpc id)
  unique := by
    rw [hrunner]
    exact h.unique

theorem LocalStep.inFlight {event : LocalEvent} (h : InFlight v.process)
    (hstep : LocalStep lib pid v event v') : InFlight v'.process := by
  cases hstep with
  | admission hrun => exact ⟨h.tokens, h.unfinished, h.unique⟩
  | wake pending => exact ⟨h.tokens, h.unfinished, h.unique⟩
  | requestStop => exact ⟨h.tokens, h.unfinished, h.unique⟩
  | requestStopWake stopping => exact ⟨h.tokens, h.unfinished, h.unique⟩
  | close => exact ⟨h.tokens, h.unfinished, h.unique⟩
  | @runner event r background step =>
    have hbefore : ∀ id, OpenRetain r id → OpenRetain v.process.runner id ∧
        (id ∈ v.process.runner.unsettledTokens → id ∈ r.unsettledTokens) := by
      intro id hopen
      rcases step.openRetain hopen with ⟨request, rfl⟩ | hkept
      · cases background
      · exact hkept
    refine ⟨h.tokens.step step, fun id hopen => ?_, fun id id' hid hid' =>
      h.unique id id' (hbefore id hid).1 (hbefore id' hid').1⟩
    rcases h.unfinished id (hbefore id hopen).1 with hpc | ⟨hpc, htoken⟩
    · exact .inl hpc
    · exact .inr ⟨hpc, (hbefore id hopen).2 htoken⟩
  | control step => exact h.move step.waitsForRetain rfl
  | acquire pc free => exact h.move (by rw [pc]; rfl) rfl
  | acquireFailed pc => exact h.move (by rw [pc]; rfl) rfl
  | recover pc hrun => exact h.move (by rw [pc]; rfl) rfl
  | checkSettled pc free settled => exact h.move (by rw [pc]; rfl) rfl
  | checkUnsettled pc free unsettled => exact h.move (by rw [pc]; rfl) rfl
  | drained pc free settled => exact h.move (by rw [pc]; rfl) rfl
  | claim pc hrun => exact h.move (by rw [pc]; rfl) rfl
  | readDeadline pc => exact h.move (by rw [pc]; rfl) rfl
  | refuseUnsettled pc free unsettled => exact h.move (by rw [pc]; rfl) rfl
  | refuseClosed pc => exact h.move (by rw [pc]; rfl) rfl
  | complete pc hrun => exact h.move (by rw [pc]; rfl) rfl
  | reschedule pc hrun => exact h.move (by rw [pc]; rfl) rfl
  | release pc => exact h.move (by rw [pc]; rfl) rfl
  | @startRetain id row r pc step =>
    have hnew : ∀ id', OpenRetain r id' → id' = id := by
      intro id' hopen
      rcases step.openRetain hopen with ⟨request, heq⟩ | ⟨hopen', -⟩
      · cases heq
        rfl
      · exact absurd hopen' (h.idle (by rw [pc]; rfl) id')
    exact ⟨h.tokens.step step, fun id' hopen => .inl ⟨row, by rw [hnew id' hopen]⟩,
      fun a b ha hb => (hnew a ha).trans (hnew b hb).symm⟩
  | @collectRetain row id call outcome r pc hcall result step =>
    -- the only call that could be open is the one whose result the sender has just read
    have hnone : ∀ id', ¬ OpenRetain r id' := by
      intro id' hopen
      rcases step.openRetain hopen with ⟨request, heq⟩ | ⟨hopen', -⟩
      · cases heq
      · rcases h.unfinished id' hopen' with ⟨row', hrow'⟩ | ⟨⟨row', category, hrow'⟩, -⟩
        · rw [pc] at hrow'
          cases hrow'
          obtain ⟨call', hcall', -, hun⟩ := hopen'
          obtain rfl := Option.some.inj (hcall.symm.trans hcall')
          rw [hun.result] at result
          cases result
        · rw [pc] at hrow'
          cases hrow'
    exact ⟨h.tokens.step step, fun id' hopen => absurd hopen (hnone id'),
      fun id' _ hopen => absurd hopen (hnone id')⟩
  | @raiseTimeout row id call pc hcall waiter =>
    refine ⟨h.tokens, fun id' hopen => .inr ⟨⟨row, _, rfl⟩, ?_⟩, h.unique⟩
    rcases h.unfinished id' hopen with ⟨row', hrow'⟩ | ⟨⟨row', category, hrow'⟩, -⟩
    · rw [pc] at hrow'
      cases hrow'
      obtain ⟨call', hcall', -, hun⟩ := hopen
      obtain rfl := Option.some.inj (hcall.symm.trans hcall')
      exact (h.tokens.mem_iff hcall).mpr ⟨waiter, hun.isDone⟩
    · rw [pc] at hrow'
      cases hrow'
  | settled pc free settled =>
    refine ⟨h.tokens, fun id' hopen => ?_, h.unique⟩
    rcases h.unfinished id' hopen with ⟨row', hrow'⟩ | ⟨-, htoken⟩
    · rw [pc] at hrow'
      cases hrow'
    · rw [settled] at htoken
      simp at htoken

end Step

/-! ## Runs -/

/-- The sender starts a retain call, claims a row or reschedules one. -/
def LocalEvent.startsWork : LocalEvent → Bool
  | startRetain _ | claim _ _ _ | reschedule _ _ _ => true
  | _ => false

theorem LocalStep.startsWork_pc {lib : Stdlib} {pid : ℕ} {v v' : View} {event : LocalEvent}
    (hstep : LocalStep lib pid v event v') (h : event.startsWork = true) :
    v.process.pc.waitsForRetain = false := by
  cases hstep with
  | startRetain pc => rw [pc]; rfl
  | claim pc => rw [pc]; rfl
  | reschedule pc => rw [pc]; rfl
  | _ => cases h

section Runs
variable {lib : Stdlib} {configs : List BetterHindsightConfig} {s s' : System}

/-- Every living process keeps its retain calls apart. -/
def AllInFlight (s : System) : Prop :=
  ∀ pid process, s.processes pid = .alive process → InFlight process

theorem AllInFlight.step {l : ℕ × SystemEvent} (h : AllInFlight s)
    (hstep : SystemStep lib configs s l s') : AllInFlight s' := by
  intro pid process halive
  rcases hstep.alive_cases halive with ⟨outbox, -, -, -, rfl⟩ |
    ⟨before, event, -, hbefore, hlocal⟩ | ⟨-, hbefore⟩
  · exact .new outbox
  · exact hlocal.inFlight (h pid before hbefore)
  · exact h pid process hbefore

/-- **A single retain call is in flight**, and a call that timed out holds its token until it is
done. -/
theorem single_in_flight {tr : List (Transition System (ℕ × SystemEvent))}
    (h₀ : s.Initial lib configs) (hrun : Run (SystemStep lib configs) s tr s') :
    (∀ e ∈ tr, ∀ pid event process, e.label = (pid, .step event) → event.startsWork = true →
      e.before.processes pid = .alive process → ∀ id, ¬ OpenRetain process.runner id) ∧
    ∀ pid process, s'.processes pid = .alive process →
      (∀ id id', OpenRetain process.runner id → OpenRetain process.runner id' → id = id') ∧
      ∀ id call, process.runner.calls id = some call → call.waiter = .timedOut →
        (id ∈ process.runner.unsettledTokens ↔ call.phase.isDone = false) := by
  have hinit : AllInFlight s := by
    intro pid process halive
    rw [h₀.unborn pid] at halive
    cases halive
  have hpreserved : ∀ a l b, AllInFlight a → SystemStep lib configs a l b → AllInFlight b :=
    fun _ _ _ ha hab => ha.step hab
  constructor
  · intro e he pid event process hlabel hwork halive id
    obtain ⟨hbefore, hstep⟩ := hrun.invariant_at hinit hpreserved e he
    rw [hlabel] at hstep
    obtain ⟨process', v, halive', hlocal, -⟩ := hstep.localStep
    obtain rfl := Lifetime.alive.inj (halive'.symm.trans halive)
    exact (hbefore pid process' halive).idle (hlocal.startsWork_pc hwork) id
  · intro pid process halive
    have h := hrun.invariant hinit hpreserved pid process halive
    refine ⟨h.unique, fun id call hcall hwaiter => ?_⟩
    rw [h.tokens.mem_iff hcall]
    exact ⟨fun hmem => hmem.2, fun hdone => ⟨hwaiter, hdone⟩⟩

end Runs

theorem single_in_flight_legacySystem : ∃ tr s' process,
    Run (SystemStep (.ofDigests destinationDigests) [defaultConfig, otherConfig]) legacySystem tr
      s' ∧ s'.processes 0 = .alive process ∧ OpenRetain process.runner 0 ∧
      ∀ id, OpenRetain process.runner id → id = 0 := by
  obtain ⟨_, hretain⟩ := exists_retain_run
  obtain ⟨tr, hrun⟩ := exists_legacy_run hretain
  have hopen : OpenRetain legacyRetain.process.runner 0 :=
    ⟨_, AsyncRunner.setCall_same _ _ _, nofun, trivial⟩
  have hunique := ((single_in_flight legacySystem_initial hrun).2 0 legacyRetain.process rfl).1
  exact ⟨tr, _, _, hrun, rfl, hopen, fun id hid => hunique id 0 hid hopen⟩

end BetterHindsight
