import BetterHindsight.Foundations.Runs

/-! # The async runner

`AsyncRunner.run` and its event loop: threads that schedule one call each and wait for its result
under a deadline, and the loop that starts, finishes and completes the calls in any order and at any
speed. A call that is asked to cancel may go on for as long as it likes.

* `Phase`, `Waiter`: how far a call is on the loop, and how far the thread is that waits for it.
* `RunnerStep`: one step of the loop or of a waiting thread.
* `RunnerInvariant`: the unsettled tokens are those of the calls that timed out and are not done. -/

namespace BetterHindsight
set_option autoImplicit false

/-! ## Calls -/

/-- How far a call is on the event loop. -/
inductive Phase (ρ : Type) where
  /-- `_schedule` waits in the loop's queue -/
  | queued
  /-- the task exists and has not run yet -/
  | created
  /-- the task awaits the operation -/
  | running
  /-- the task is done and `_complete` waits in the loop's queue -/
  | finished (outcome : ρ)
  /-- `_complete` has set the result and still holds the condition -/
  | resultSet (outcome : ρ)
  /-- `_complete` is over -/
  | done (outcome : ρ)

namespace Phase
variable {ρ : Type}

/-- The operation is not over on the event loop. -/
def Unfinished : Phase ρ → Prop
  | queued | created | running => True
  | finished _ | resultSet _ | done _ => False

/-- The result that `state.result` holds. -/
def result? : Phase ρ → Option ρ
  | resultSet outcome | done outcome => some outcome
  | queued | created | running | finished _ => none

/-- `state.done.is_set()` -/
def isDone : Phase ρ → Bool
  | done _ => true
  | queued | created | running | finished _ | resultSet _ => false

end Phase

/-- How far the thread is that called `run`. -/
inductive Waiter where
  /-- in `state.result.result(timeout=...)` -/
  | waiting
  /-- in `_cancel_and_wait` -/
  | draining
  /-- raised `AsyncCallTimeoutError` -/
  | timedOut
  /-- returned or raised what the operation did -/
  | returned
  deriving DecidableEq

structure ScheduledCall (κ ρ : Type) where
  operation : κ
  phase : Phase ρ
  waiter : Waiter

/-- The state of a runner. `conditionOwner` is the call whose `_complete` holds the condition. -/
structure AsyncRunner (κ ρ : Type) where
  calls : ℕ → Option (ScheduledCall κ ρ)
  unsettledTokens : Finset ℕ
  conditionOwner : Option ℕ

namespace AsyncRunner
variable {κ ρ : Type}

/-- A runner that has run nothing yet. -/
def new : AsyncRunner κ ρ := ⟨fun _ => none, ∅, none⟩

/-- The runner with one call replaced. -/
def setCall (r : AsyncRunner κ ρ) (id : ℕ) (call : ScheduledCall κ ρ) : AsyncRunner κ ρ :=
  { r with calls := Function.update r.calls id (some call) }

@[simp] theorem setCall_unsettledTokens (r : AsyncRunner κ ρ) (id : ℕ)
    (call : ScheduledCall κ ρ) : (r.setCall id call).unsettledTokens = r.unsettledTokens := rfl

@[simp] theorem setCall_conditionOwner (r : AsyncRunner κ ρ) (id : ℕ)
    (call : ScheduledCall κ ρ) : (r.setCall id call).conditionOwner = r.conditionOwner := rfl

theorem setCall_calls (r : AsyncRunner κ ρ) (id id' : ℕ) (call : ScheduledCall κ ρ) :
    (r.setCall id call).calls id' = if id' = id then some call else r.calls id' := by
  exact Function.update_apply _ _ _ _

@[simp] theorem setCall_same (r : AsyncRunner κ ρ) (id : ℕ) (call : ScheduledCall κ ρ) :
    (r.setCall id call).calls id = some call := by
  rw [setCall_calls, if_pos rfl]

theorem setCall_ne (r : AsyncRunner κ ρ) {id id' : ℕ} (h : id' ≠ id) (call : ScheduledCall κ ρ) :
    (r.setCall id call).calls id' = r.calls id' := by
  rw [setCall_calls, if_neg h]

end AsyncRunner

/-! ## Steps -/

inductive RunnerEvent (κ ρ : Type) where
  | schedule (id : ℕ) (operation : κ)
  | createTask (id : ℕ)
  | begin (id : ℕ)
  | cancelUnstarted (id : ℕ)
  | finish (id : ℕ) (outcome : ρ)
  | setResult (id : ℕ)
  | complete (id : ℕ)
  | expire (id : ℕ)
  | publish (id : ℕ)
  | collect (id : ℕ)

section Steps
variable {κ ρ : Type}

/-- One step; `cancelled` is the outcome of a task that is cancelled before its first step. -/
inductive RunnerStep (cancelled : ρ) :
    AsyncRunner κ ρ → RunnerEvent κ ρ → AsyncRunner κ ρ → Prop
  /-- `run` hands the call to the loop, under the condition and with no unsettled token. -/
  | schedule {r : AsyncRunner κ ρ} {id : ℕ} {operation : κ} (free : r.conditionOwner = none)
      (settled : r.unsettledTokens = ∅) (fresh : r.calls id = none) :
      RunnerStep cancelled r (.schedule id operation) (r.setCall id ⟨operation, .queued, .waiting⟩)
  | createTask {r : AsyncRunner κ ρ} {id : ℕ} {call : ScheduledCall κ ρ}
      (hcall : r.calls id = some call) (phase : call.phase = .queued) :
      RunnerStep cancelled r (.createTask id) (r.setCall id { call with phase := .created })
  | begin {r : AsyncRunner κ ρ} {id : ℕ} {call : ScheduledCall κ ρ}
      (hcall : r.calls id = some call) (phase : call.phase = .created) :
      RunnerStep cancelled r (.begin id) (r.setCall id { call with phase := .running })
  | cancelUnstarted {r : AsyncRunner κ ρ} {id : ℕ} {call : ScheduledCall κ ρ}
      (hcall : r.calls id = some call) (phase : call.phase = .created)
      (waiter : call.waiter ≠ .waiting) :
      RunnerStep cancelled r (.cancelUnstarted id)
        (r.setCall id { call with phase := .finished cancelled })
  | finish {r : AsyncRunner κ ρ} {id : ℕ} {outcome : ρ} {call : ScheduledCall κ ρ}
      (hcall : r.calls id = some call) (phase : call.phase = .running) :
      RunnerStep cancelled r (.finish id outcome)
        (r.setCall id { call with phase := .finished outcome })
  | setResult {r : AsyncRunner κ ρ} {id : ℕ} {outcome : ρ} {call : ScheduledCall κ ρ}
      (free : r.conditionOwner = none) (hcall : r.calls id = some call)
      (phase : call.phase = .finished outcome) :
      RunnerStep cancelled r (.setResult id)
        { r.setCall id { call with phase := .resultSet outcome } with conditionOwner := some id }
  | complete {r : AsyncRunner κ ρ} {id : ℕ} {outcome : ρ} {call : ScheduledCall κ ρ}
      (owner : r.conditionOwner = some id) (hcall : r.calls id = some call)
      (phase : call.phase = .resultSet outcome) :
      RunnerStep cancelled r (.complete id)
        { r.setCall id { call with phase := .done outcome } with
          unsettledTokens := r.unsettledTokens.erase id
          conditionOwner := none }
  /-- The deadline passes, or the thread is interrupted, with no result set. -/
  | expire {r : AsyncRunner κ ρ} {id : ℕ} {call : ScheduledCall κ ρ}
      (hcall : r.calls id = some call) (waiter : call.waiter = .waiting)
      (phase : call.phase.result? = none) :
      RunnerStep cancelled r (.expire id) (r.setCall id { call with waiter := .draining })
  /-- The drain is over: `_publish_unsettled`, under the condition, and the timeout is raised. -/
  | publish {r : AsyncRunner κ ρ} {id : ℕ} {call : ScheduledCall κ ρ}
      (free : r.conditionOwner = none) (hcall : r.calls id = some call)
      (waiter : call.waiter = .draining) :
      RunnerStep cancelled r (.publish id)
        { r.setCall id { call with waiter := .timedOut } with
          unsettledTokens :=
            if call.phase.isDone then r.unsettledTokens else insert id r.unsettledTokens }
  | collect {r : AsyncRunner κ ρ} {id : ℕ} {outcome : ρ} {call : ScheduledCall κ ρ}
      (hcall : r.calls id = some call) (waiter : call.waiter = .waiting)
      (phase : call.phase.result? = some outcome) :
      RunnerStep cancelled r (.collect id) (r.setCall id { call with waiter := .returned })

/-- How a step that is not `schedule` changes the call it is about. -/
structure CallChange (r r' : AsyncRunner κ ρ) (id : ℕ) (call call' : ScheduledCall κ ρ) : Prop where
  before : r.calls id = some call
  calls : r'.calls = (r.setCall id call').calls
  operation : call'.operation = call.operation
  result : ∀ outcome, call.phase.result? = some outcome → call'.phase.result? = some outcome
  unfinished : call'.phase.Unfinished → call.phase.Unfinished
  tokens : ∀ token ∈ r.unsettledTokens,
    token ∈ r'.unsettledTokens ∨ token = id ∧ ¬ call'.phase.Unfinished

/-- A step schedules one new call or changes one call. -/
theorem RunnerStep.call_cases {cancelled : ρ} {r r' : AsyncRunner κ ρ} {e : RunnerEvent κ ρ}
    (hstep : RunnerStep cancelled r e r') :
    (∃ id operation, e = .schedule id operation ∧ r.calls id = none ∧
      r' = r.setCall id ⟨operation, .queued, .waiting⟩) ∨
    ((∀ id operation, e ≠ .schedule id operation) ∧ ∃ id call call',
      CallChange r r' id call call') := by
  cases hstep with
  | schedule free settled fresh => exact .inl ⟨_, _, rfl, fresh, rfl⟩
  | createTask h phase =>
    refine .inr ⟨fun _ _ => by simp, _, _, _, h, rfl, rfl, fun o ho => ?_, fun _ => ?_,
      fun token ht => .inl ht⟩
    · rw [phase] at ho
      cases ho
    · rw [phase]
      trivial
  | begin h phase =>
    refine .inr ⟨fun _ _ => by simp, _, _, _, h, rfl, rfl, fun o ho => ?_, fun _ => ?_,
      fun token ht => .inl ht⟩
    · rw [phase] at ho
      cases ho
    · rw [phase]
      trivial
  | cancelUnstarted h phase waiter =>
    refine .inr ⟨fun _ _ => by simp, _, _, _, h, rfl, rfl, fun o ho => ?_, fun hu => hu.elim,
      fun token ht => .inl ht⟩
    rw [phase] at ho
    cases ho
  | finish h phase =>
    refine .inr ⟨fun _ _ => by simp, _, _, _, h, rfl, rfl, fun o ho => ?_, fun hu => hu.elim,
      fun token ht => .inl ht⟩
    rw [phase] at ho
    cases ho
  | setResult free h phase =>
    refine .inr ⟨fun _ _ => by simp, _, _, _, h, rfl, rfl, fun o ho => ?_, fun hu => hu.elim,
      fun token ht => .inl ht⟩
    rw [phase] at ho
    cases ho
  | @complete id outcome call owner h phase =>
    refine .inr ⟨fun _ _ => by simp, _, _, _, h, rfl, rfl, fun o ho => ?_, fun hu => hu.elim,
      fun token ht => ?_⟩
    · rw [phase] at ho
      exact ho
    · by_cases hid : token = id
      · exact .inr ⟨hid, fun hu => hu⟩
      · exact .inl (Finset.mem_erase.mpr ⟨hid, ht⟩)
  | expire h waiter phase =>
    exact .inr ⟨fun _ _ => by simp, _, _, _, h, rfl, rfl, fun _ ho => ho, fun hu => hu,
      fun token ht => .inl ht⟩
  | publish free h waiter =>
    refine .inr ⟨fun _ _ => by simp, _, _, _, h, rfl, rfl, fun _ ho => ho, fun hu => hu,
      fun token ht => .inl ?_⟩
    show token ∈ if _ then _ else _
    split
    · exact ht
    · exact Finset.mem_insert_of_mem ht
  | collect h waiter phase =>
    exact .inr ⟨fun _ _ => by simp, _, _, _, h, rfl, rfl, fun _ ho => ho, fun hu => hu,
      fun token ht => .inl ht⟩

/-- A call keeps its operation and, once it is set, its result. -/
theorem RunnerStep.keeps {cancelled : ρ} {r r' : AsyncRunner κ ρ} {e : RunnerEvent κ ρ}
    (hstep : RunnerStep cancelled r e r') {id : ℕ} {call : ScheduledCall κ ρ}
    (hcall : r.calls id = some call) : ∃ call', r'.calls id = some call' ∧
      call'.operation = call.operation ∧
      ∀ outcome, call.phase.result? = some outcome → call'.phase.result? = some outcome := by
  rcases hstep.call_cases with ⟨id', operation, -, hfresh, rfl⟩ | ⟨-, id', c, c', h⟩
  · have hne : id ≠ id' := by
      rintro rfl
      rw [hfresh] at hcall
      cases hcall
    exact ⟨call, by rw [AsyncRunner.setCall_ne _ hne, hcall], rfl, fun _ h => h⟩
  · by_cases hid : id = id'
    · subst hid
      obtain rfl := Option.some.inj (h.before.symm.trans hcall)
      exact ⟨c', by rw [h.calls, AsyncRunner.setCall_same], h.operation, h.result⟩
    · exact ⟨call, by rw [h.calls, AsyncRunner.setCall_ne _ hid, hcall], rfl, fun _ h => h⟩

/-- An unfinished call is new, or it was unfinished before and keeps its token. -/
theorem RunnerStep.unfinished {cancelled : ρ} {r r' : AsyncRunner κ ρ} {e : RunnerEvent κ ρ}
    (hstep : RunnerStep cancelled r e r') {id : ℕ} {call' : ScheduledCall κ ρ}
    (hcall : r'.calls id = some call') (hun : call'.phase.Unfinished) :
    e = .schedule id call'.operation ∨ ∃ call, r.calls id = some call ∧
      call.operation = call'.operation ∧ call.phase.Unfinished ∧
      (id ∈ r.unsettledTokens → id ∈ r'.unsettledTokens) := by
  rcases hstep.call_cases with ⟨id', operation, rfl, -, rfl⟩ | ⟨-, id', c, c', h⟩
  · rw [AsyncRunner.setCall_calls] at hcall
    split at hcall
    · rename_i hid
      obtain rfl := Option.some.inj hcall
      exact .inl (by rw [hid])
    · exact .inr ⟨call', hcall, rfl, hun, fun h => h⟩
  · rw [h.calls, AsyncRunner.setCall_calls] at hcall
    split at hcall
    · rename_i hid
      subst hid
      obtain rfl := Option.some.inj hcall
      refine .inr ⟨c, h.before, h.operation.symm, h.unfinished hun, fun ht => ?_⟩
      exact (h.tokens id ht).resolve_right fun hr => hr.2 hun
    · rename_i hid
      exact .inr ⟨call', hcall, rfl, hun, fun ht =>
        (h.tokens id ht).resolve_right fun hr => hid hr.1⟩

/-- The event is one of the loop, not of a thread that calls `run`. -/
def RunnerEvent.OfLoop : RunnerEvent κ ρ → Prop
  | createTask _ | begin _ | cancelUnstarted _ | finish _ _ | setResult _ | complete _ => True
  | schedule _ _ | expire _ | publish _ | collect _ => False

/-- The loop alone can answer a call that it has been handed with any outcome. -/
theorem exists_answer {cancelled : ρ} {r : AsyncRunner κ ρ} {id : ℕ} {operation : κ}
    (hcall : r.calls id = some ⟨operation, .queued, .waiting⟩) (free : r.conditionOwner = none)
    (outcome : ρ) : ∃ tr r', Run (RunnerStep cancelled) r tr r' ∧
      r'.calls id = some ⟨operation, .resultSet outcome, .waiting⟩ ∧
      ∀ e ∈ tr, e.label.OfLoop := by
  have created := (Run.single (RunnerStep.createTask hcall rfl) : Run (RunnerStep cancelled) r _ _)
  have running := created.snoc (.begin (AsyncRunner.setCall_same _ _ _) rfl)
  have finished := running.snoc (@RunnerStep.finish _ _ _ _ _ outcome _
    (AsyncRunner.setCall_same _ _ _) rfl)
  have answered := finished.snoc (.setResult free (AsyncRunner.setCall_same _ _ _) rfl)
  refine ⟨_, _, answered, AsyncRunner.setCall_same _ _ _, ?_⟩
  intro e he
  simp only [List.cons_append, List.nil_append, List.mem_cons, List.not_mem_nil, or_false] at he
  rcases he with rfl | rfl | rfl | rfl <;> trivial

/-! ## Tokens -/

/-- The unsettled tokens are exactly those of the calls that timed out and are not done. -/
def RunnerInvariant (r : AsyncRunner κ ρ) : Prop :=
  ∀ id, id ∈ r.unsettledTokens ↔
    ∃ call, r.calls id = some call ∧ call.waiter = .timedOut ∧ call.phase.isDone = false

theorem runnerInvariant_new : RunnerInvariant (AsyncRunner.new : AsyncRunner κ ρ) := by
  intro id
  simp [AsyncRunner.new]

/-- Replacing one call keeps the invariant when it agrees on being timed out and not done. -/
theorem RunnerInvariant.setCall {r : AsyncRunner κ ρ} (h : RunnerInvariant r) {id : ℕ}
    {call : ScheduledCall κ ρ} (hid : id ∈ r.unsettledTokens ↔
      call.waiter = .timedOut ∧ call.phase.isDone = false) : RunnerInvariant (r.setCall id call) := by
  intro id'
  rw [AsyncRunner.setCall_unsettledTokens, AsyncRunner.setCall_calls]
  by_cases hsame : id' = id
  · subst hsame
    simp [hid]
  · rw [if_neg hsame]
    exact h id'

theorem RunnerInvariant.mem_iff {r : AsyncRunner κ ρ} (h : RunnerInvariant r) {id : ℕ}
    {call : ScheduledCall κ ρ} (hcall : r.calls id = some call) :
    id ∈ r.unsettledTokens ↔ call.waiter = .timedOut ∧ call.phase.isDone = false := by
  rw [h id, hcall]
  simp

theorem RunnerInvariant.step {cancelled : ρ} {r r' : AsyncRunner κ ρ} {e : RunnerEvent κ ρ}
    (h : RunnerInvariant r) (hstep : RunnerStep cancelled r e r') : RunnerInvariant r' := by
  cases hstep with
  | schedule free settled fresh =>
    refine h.setCall ?_
    rw [settled]
    simp
  | createTask hcall phase =>
    refine h.setCall ?_
    rw [h.mem_iff hcall, phase]
    rfl
  | begin hcall phase =>
    refine h.setCall ?_
    rw [h.mem_iff hcall, phase]
    rfl
  | cancelUnstarted hcall phase waiter =>
    refine h.setCall ?_
    rw [h.mem_iff hcall, phase]
    rfl
  | finish hcall phase =>
    refine h.setCall ?_
    rw [h.mem_iff hcall, phase]
    rfl
  | setResult free hcall phase =>
    refine h.setCall ?_
    rw [h.mem_iff hcall, phase]
    rfl
  | expire hcall waiter phase =>
    refine h.setCall ?_
    rw [h.mem_iff hcall, waiter]
    simp
  | collect hcall waiter phase =>
    refine h.setCall ?_
    rw [h.mem_iff hcall, waiter]
    simp
  | complete owner hcall phase =>
    intro id'
    simp only [AsyncRunner.setCall_calls, Finset.mem_erase]
    split
    · rename_i hsame
      simp [hsame, Phase.isDone]
    · rename_i hne
      simp only [ne_eq, hne, not_false_eq_true, true_and]
      exact h id'
  | @publish id call free hcall waiter =>
    intro id'
    simp only [AsyncRunner.setCall_calls]
    split
    · rename_i hdone
      split
      · rename_i hsame
        subst hsame
        rw [h.mem_iff hcall, waiter]
        simp [hdone]
      · exact h id'
    · rename_i hdone
      rw [Finset.mem_insert]
      split
      · rename_i hsame
        simp [hsame, hdone]
      · rename_i hne
        simp only [hne, false_or]
        exact h id'

end Steps

end BetterHindsight
