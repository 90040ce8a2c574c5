import BetterHindsight.Runtime.AsyncRunner

/-! # The life of a process runtime

One `ProcessRuntime` with the threads that use it, its sender and its `finalize`, which may time out
at every wait and be tried again.

* `ProcessRuntime`, `RuntimeStep`: one step of a thread, of the event loop, of the sender or of
  `finalize`.
* `Quiet`: nobody is left who could use the client or the outbox.
* `Sound`: a close begins only on a quiet runtime, and the client is closed once. -/

namespace BetterHindsight.Lifecycle
set_option autoImplicit false

/-! ## State -/

/-- Whose operation a call of the runner carries. -/
inductive Operation where
  | caller
  | sender
  /-- `_close_client` -/
  | closeClient
  deriving DecidableEq

inductive Outcome where
  | completed
  | raised
  | cancelled
  deriving DecidableEq

abbrev Runner := AsyncRunner Operation Outcome

/-- A thread that calls the runtime. -/
inductive Thread where
  | outside
  /-- past `_begin_operation` -/
  | entered
  /-- in `AsyncRunner.run` -/
  | inRun (id : ℕ)
  /-- in `outbox.admit` -/
  | inOutbox
  deriving DecidableEq

inductive SenderThread where
  /-- a runtime without a sender -/
  | absent
  | idle
  | inOutbox
  | inRun (id : ℕ)
  | ended
  deriving DecidableEq

/-- `sender is None`, or `join` returns. -/
def SenderThread.isOver : SenderThread → Bool
  | absent | ended => true
  | idle | inOutbox | inRun _ => false

inductive OutboxState where
  | absent
  | opened
  /-- in `outbox.close` -/
  | closing
  /-- closed and dropped -/
  | closed
  /-- `outbox.close` raised -/
  | unclosed
  deriving DecidableEq

/-- `self._outbox is not None` -/
def OutboxState.isHeld : OutboxState → Bool
  | opened | closing | unclosed => true
  | absent | closed => false

/-- Where the current call of `finalize` is. -/
inductive Finalize where
  | absent
  /-- waits for the active calls -/
  | waitingCalls
  /-- in `sender.join` -/
  | joining
  /-- in `wait_for_settlement` -/
  | settling
  /-- in `outbox.close` -/
  | closingOutbox
  | beforeClient
  /-- in `run(self._close_client)` -/
  | closingClient (id : ℕ)
  /-- in `AsyncRunner.shutdown` -/
  | shuttingDown
  /-- raised `SenderStopError` -/
  | timedOut
  /-- returned, or raised what a close had raised -/
  | completed
  deriving DecidableEq

/-- A runtime. `active` are the threads that `_active_calls` counts, and `closes` counts how often
the client's close has completed. -/
structure ProcessRuntime where
  runner : Runner
  active : Finset ℕ
  threads : ℕ → Thread
  sender : SenderThread
  stopRequested : Bool
  outbox : OutboxState
  finalizing : Bool
  closed : Bool
  clientClosed : Bool
  finalize : Finalize
  closes : ℕ

namespace ProcessRuntime

/-- A new runtime, with an outbox and a sender where retention is enabled. -/
def new (retain : Bool) : ProcessRuntime where
  runner := .new
  active := ∅
  threads _ := .outside
  sender := if retain then .idle else .absent
  stopRequested := false
  outbox := if retain then .opened else .absent
  finalizing := false
  closed := false
  clientClosed := false
  finalize := .absent
  closes := 0

/-- `accepting_operations` -/
def isAccepting (r : ProcessRuntime) : Bool := !r.finalizing && !r.closed

def setThread (r : ProcessRuntime) (t : ℕ) (thread : Thread) : ProcessRuntime :=
  { r with threads := Function.update r.threads t thread }

/-- `_finish_operation` -/
def leave (r : ProcessRuntime) (t : ℕ) : ProcessRuntime :=
  { r.setThread t .outside with active := r.active.erase t }

end ProcessRuntime

/-- The thread inside `run` waits or drains. -/
def Inside (waiter : Waiter) : Prop := waiter = .waiting ∨ waiter = .draining

/-- `run` has returned or raised. -/
def Over (runner : Runner) (id : ℕ) : Prop :=
  ∃ call, runner.calls id = some call ∧ (call.waiter = .returned ∨ call.waiter = .timedOut)

/-- The event is the completion of the client's close. -/
def ClosesClient (runner : Runner) (e : RunnerEvent Operation Outcome) : Prop :=
  ∃ id call, e = .finish id .completed ∧ runner.calls id = some call ∧
    call.operation = .closeClient

/-! ## Steps -/

inductive RuntimeEvent where
  /-- the loop, or a thread inside `run` -/
  | runner (e : RunnerEvent Operation Outcome)
  | clientClosed (id : ℕ)
  /-- `_begin_operation` -/
  | enter (t : ℕ)
  | submit (t id : ℕ)
  | useOutbox (t : ℕ)
  /-- `_finish_operation` -/
  | leave (t : ℕ)
  | senderOutbox
  | senderOutboxDone
  | senderSubmit (id : ℕ)
  | senderReturn
  | senderEnd
  /-- the first lines of `finalize` -/
  | finalize
  | callsDone
  | joined
  | settled
  | outboxClosed (failed : Bool)
  | clientSubmit (id : ℕ)
  | clientSkipped
  | clientReturned
  | shutdown
  /-- `_raise_sender_stop` -/
  | giveUp

inductive RuntimeStep : ProcessRuntime → RuntimeEvent → ProcessRuntime → Prop
  | runner {r : ProcessRuntime} {e : RunnerEvent Operation Outcome} {runner : Runner}
      (hschedule : ∀ id operation, e ≠ .schedule id operation)
      (hclose : ¬ ClosesClient r.runner e) (step : RunnerStep .cancelled r.runner e runner) :
      RuntimeStep r (.runner e) { r with runner }
  /-- `client.close` returns, and `_close_client` notes it before it returns itself. -/
  | clientClosed {r : ProcessRuntime} {id : ℕ} {call : ScheduledCall Operation Outcome}
      {runner : Runner} (hcall : r.runner.calls id = some call)
      (hoperation : call.operation = .closeClient)
      (step : RunnerStep .cancelled r.runner (.finish id .completed) runner) :
      RuntimeStep r (.clientClosed id)
        { r with runner, clientClosed := true, closes := r.closes + 1 }
  | enter {r : ProcessRuntime} {t : ℕ} (hthread : r.threads t = .outside)
      (hfinalizing : r.finalizing = false) (hclosed : r.closed = false) :
      RuntimeStep r (.enter t) { r.setThread t .entered with active := insert t r.active }
  | submit {r : ProcessRuntime} {t id : ℕ} {runner : Runner} (hthread : r.threads t = .entered)
      (step : RunnerStep .cancelled r.runner (.schedule id .caller) runner) :
      RuntimeStep r (.submit t id) { r.setThread t (.inRun id) with runner }
  | useOutbox {r : ProcessRuntime} {t : ℕ} (hthread : r.threads t = .entered)
      (hheld : r.outbox.isHeld = true) : RuntimeStep r (.useOutbox t) (r.setThread t .inOutbox)
  | leave {r : ProcessRuntime} {t : ℕ} (hthread : r.threads t = .entered ∨
      r.threads t = .inOutbox ∨ ∃ id, r.threads t = .inRun id ∧ Over r.runner id) :
      RuntimeStep r (.leave t) (r.leave t)
  | senderOutbox {r : ProcessRuntime} (hsender : r.sender = .idle) :
      RuntimeStep r .senderOutbox { r with sender := .inOutbox }
  | senderOutboxDone {r : ProcessRuntime} (hsender : r.sender = .inOutbox) :
      RuntimeStep r .senderOutboxDone { r with sender := .idle }
  | senderSubmit {r : ProcessRuntime} {id : ℕ} {runner : Runner} (hsender : r.sender = .idle)
      (step : RunnerStep .cancelled r.runner (.schedule id .sender) runner) :
      RuntimeStep r (.senderSubmit id) { r with runner, sender := .inRun id }
  | senderReturn {r : ProcessRuntime} {id : ℕ} (hsender : r.sender = .inRun id)
      (hover : Over r.runner id) : RuntimeStep r .senderReturn { r with sender := .idle }
  /-- The sender notices the request to stop, or an exception ends its thread. -/
  | senderEnd {r : ProcessRuntime} (hsender : r.sender = .idle) :
      RuntimeStep r .senderEnd { r with sender := .ended }
  | finalize {r : ProcessRuntime} (hfinalize : r.finalize = .absent) (hclosed : r.closed = false) :
      RuntimeStep r .finalize
        { r with finalizing := true, stopRequested := true, finalize := .waitingCalls }
  | callsDone {r : ProcessRuntime} (hfinalize : r.finalize = .waitingCalls)
      (hactive : r.active = ∅) : RuntimeStep r .callsDone { r with finalize := .joining }
  | joined {r : ProcessRuntime} (hfinalize : r.finalize = .joining)
      (hsender : r.sender.isOver = true) : RuntimeStep r .joined { r with finalize := .settling }
  /-- The runner is settled; an outbox that is still there is closed next. -/
  | settled {r : ProcessRuntime} (hfinalize : r.finalize = .settling)
      (free : r.runner.conditionOwner = none) (hsettled : r.runner.unsettledTokens = ∅) :
      RuntimeStep r .settled
        (if r.outbox.isHeld then { r with outbox := .closing, finalize := .closingOutbox }
        else { r with finalize := .beforeClient })
  | outboxClosed {r : ProcessRuntime} {failed : Bool} (hfinalize : r.finalize = .closingOutbox) :
      RuntimeStep r (.outboxClosed failed)
        { r with outbox := if failed then .unclosed else .closed, finalize := .beforeClient }
  | clientSubmit {r : ProcessRuntime} {id : ℕ} {runner : Runner}
      (hfinalize : r.finalize = .beforeClient) (hclient : r.clientClosed = false)
      (step : RunnerStep .cancelled r.runner (.schedule id .closeClient) runner) :
      RuntimeStep r (.clientSubmit id) { r with runner, finalize := .closingClient id }
  /-- The client is closed already, or the runner is shut down. -/
  | clientSkipped {r : ProcessRuntime} (hfinalize : r.finalize = .beforeClient) :
      RuntimeStep r .clientSkipped { r with finalize := .shuttingDown }
  | clientReturned {r : ProcessRuntime} {id : ℕ} {call : ScheduledCall Operation Outcome}
      (hfinalize : r.finalize = .closingClient id) (hcall : r.runner.calls id = some call)
      (hwaiter : call.waiter = .returned) :
      RuntimeStep r .clientReturned { r with finalize := .shuttingDown }
  | shutdown {r : ProcessRuntime} (hfinalize : r.finalize = .shuttingDown) :
      RuntimeStep r .shutdown { r with closed := true, finalize := .completed }
  /-- A wait of `finalize` exceeds its deadline. -/
  | giveUp {r : ProcessRuntime} (hfinalize : r.finalize = .waitingCalls ∨ r.finalize = .joining ∨
      r.finalize = .settling ∨ r.finalize = .beforeClient ∨ r.finalize = .shuttingDown ∨
      ∃ id call, r.finalize = .closingClient id ∧ r.runner.calls id = some call ∧
        call.waiter = .timedOut) :
      RuntimeStep r .giveUp { r with finalize := .timedOut }

/-! ## Calls of the runner -/

/-- What a call keeps from one state of the runner to the next. -/
structure Follows (call call' : ScheduledCall Operation Outcome) : Prop where
  operation : call'.operation = call.operation
  inside : Inside call'.waiter → Inside call.waiter
  unfinished : call'.phase.Unfinished → call.phase.Unfinished
  returned : call'.waiter = .returned → call.waiter = .returned ∨ ¬ call'.phase.Unfinished

theorem Follows.refl (call : ScheduledCall Operation Outcome) : Follows call call :=
  ⟨rfl, id, id, .inl⟩

section Runner
variable {r r' : Runner} {e : RunnerEvent Operation Outcome}

theorem follows_setCall {id : ℕ} {call call' : ScheduledCall Operation Outcome}
    (hcall : r.calls id = some call) (h : Follows call call') {other : ℕ}
    {found : ScheduledCall Operation Outcome}
    (hfound : (r.setCall id call').calls other = some found) :
    ∃ before, r.calls other = some before ∧ Follows before found := by
  rw [AsyncRunner.setCall_calls] at hfound
  split at hfound
  · rename_i hsame
    cases hfound
    exact ⟨call, by rw [hsame, hcall], h⟩
  · exact ⟨found, hfound, .refl found⟩

/-- A call of the next state is the one that was scheduled, or follows a call of this state. -/
theorem follows_step (hstep : RunnerStep .cancelled r e r') {id : ℕ}
    {call' : ScheduledCall Operation Outcome} (hcall' : r'.calls id = some call') :
    (e = .schedule id call'.operation ∧ call' = ⟨call'.operation, .queued, .waiting⟩) ∨
      ∃ call, r.calls id = some call ∧ Follows call call' := by
  cases hstep with
  | @schedule id' operation free settled fresh =>
    rw [AsyncRunner.setCall_calls] at hcall'
    split at hcall'
    · rename_i hsame
      cases hcall'
      exact .inl ⟨by rw [hsame], rfl⟩
    · exact .inr ⟨call', hcall', .refl call'⟩
  | createTask hcall phase =>
    refine .inr (follows_setCall hcall ?_ hcall')
    refine ⟨rfl, fun h => h, fun _ => ?_, .inl⟩
    rw [phase]
    trivial
  | begin hcall phase =>
    refine .inr (follows_setCall hcall ?_ hcall')
    refine ⟨rfl, fun h => h, fun _ => ?_, .inl⟩
    rw [phase]
    trivial
  | cancelUnstarted hcall phase waiter =>
    refine .inr (follows_setCall hcall ?_ hcall')
    exact ⟨rfl, fun h => h, fun h => h.elim, .inl⟩
  | finish hcall phase =>
    refine .inr (follows_setCall hcall ?_ hcall')
    exact ⟨rfl, fun h => h, fun h => h.elim, .inl⟩
  | setResult free hcall phase =>
    refine .inr (follows_setCall hcall ?_ hcall')
    exact ⟨rfl, fun h => h, fun h => h.elim, .inl⟩
  | complete owner hcall phase =>
    refine .inr (follows_setCall hcall ?_ hcall')
    exact ⟨rfl, fun h => h, fun h => h.elim, .inl⟩
  | expire hcall waiter phase =>
    refine .inr (follows_setCall hcall ?_ hcall')
    exact ⟨rfl, fun _ => .inl waiter, fun h => h, fun h => by cases h⟩
  | publish free hcall waiter =>
    refine .inr (follows_setCall hcall ?_ hcall')
    exact ⟨rfl, fun _ => .inr waiter, fun h => h, fun h => by cases h⟩
  | @collect id' outcome call hcall waiter phase =>
    refine .inr (follows_setCall hcall ?_ hcall')
    refine ⟨rfl, fun _ => .inl waiter, fun h => h, fun _ => .inr fun hun => ?_⟩
    cases hphase : call.phase with
    | resultSet | done =>
      have hunfinished : call.phase.Unfinished := hun
      rw [hphase] at hunfinished
      exact hunfinished
    | queued | created | running | finished =>
      rw [hphase] at phase
      cases phase

end Runner

/-! ## Quiet runtimes -/

/-- A call of this operation is on the loop, in any phase. -/
def ClientCloseCalled (r : ProcessRuntime) : Prop :=
  ∃ id call, r.runner.calls id = some call ∧ call.operation = .closeClient

def OutboxCloseBegun (r : ProcessRuntime) : Prop :=
  r.outbox = .closing ∨ r.outbox = .closed ∨ r.outbox = .unclosed

/-- Nobody is left who could use the client or the outbox. -/
structure Quiet (r : ProcessRuntime) : Prop where
  finalizing : r.finalizing = true
  active : r.active = ∅
  sender : r.sender.isOver = true
  settled : ∀ id call, r.runner.calls id = some call → call.operation ≠ .closeClient →
    ¬ call.phase.Unfinished

/-- The active calls are those of the threads inside the runtime. -/
def Counted (r : ProcessRuntime) : Prop := ∀ t, t ∈ r.active ↔ r.threads t ≠ .outside

section Steps
variable {r r' : ProcessRuntime} {e : RuntimeEvent}

theorem Counted.empty (h : Counted r) (hactive : r.active = ∅) (t : ℕ) :
    r.threads t = .outside := by
  by_contra hne
  have hmem := (h t).mpr hne
  rw [hactive] at hmem
  simp at hmem

theorem Counted.step (h : Counted r) (hstep : RuntimeStep r e r') : Counted r' := by
  intro t
  cases hstep with
  | @enter t' hthread =>
    simp only [ProcessRuntime.setThread, Finset.mem_insert, Function.update_apply]
    split
    · rename_i hsame
      simp [hsame]
    · rename_i hne
      simpa [hne] using h t
  | @submit t' id runner hthread =>
    simp only [ProcessRuntime.setThread, Function.update_apply]
    split
    · rename_i hsame
      simp [hsame, h t', hthread]
    · exact h t
  | @useOutbox t' hthread =>
    simp only [ProcessRuntime.setThread, Function.update_apply]
    split
    · rename_i hsame
      simp [hsame, h t', hthread]
    · exact h t
  | @leave t' hthread =>
    simp only [ProcessRuntime.leave, ProcessRuntime.setThread, Finset.mem_erase,
      Function.update_apply]
    split
    · rename_i hsame
      simp [hsame]
    · rename_i hne
      simpa [hne] using h t
  | settled =>
    split <;> exact h t
  | _ => exact h t

/-- A call of the runner that is not scheduled by the step. -/
theorem settled_runner {runner : Runner} {e : RunnerEvent Operation Outcome} {id : ℕ}
    {call' : ScheduledCall Operation Outcome} (hstep : RunnerStep .cancelled r.runner e runner)
    (hcall' : runner.calls id = some call') (hschedule : e ≠ .schedule id call'.operation)
    (h : ∀ id call, r.runner.calls id = some call → call.operation ≠ .closeClient →
      ¬ call.phase.Unfinished) (hoperation : call'.operation ≠ .closeClient) :
    ¬ call'.phase.Unfinished := by
  rcases follows_step hstep hcall' with ⟨heq, -⟩ | ⟨call, hcall, hfollows⟩
  · exact absurd heq hschedule
  · intro hun
    rw [hfollows.operation] at hoperation
    exact h id call hcall hoperation (hfollows.unfinished hun)

/-- A quiet runtime stays quiet. -/
theorem Quiet.step (h : Quiet r) (hcounted : Counted r) (hstep : RuntimeStep r e r') :
    Quiet r' := by
  obtain ⟨hfinalizing, hactive, hsender, hsettled⟩ := h
  have houtside := hcounted.empty hactive
  cases hstep with
  | runner hschedule hclose step =>
    exact ⟨hfinalizing, hactive, hsender,
      fun id call hcall => settled_runner step hcall (hschedule id _) hsettled⟩
  | clientClosed hcall hoperation step =>
    exact ⟨hfinalizing, hactive, hsender,
      fun id call hcall => settled_runner step hcall (by simp) hsettled⟩
  | enter hthread hnot =>
    rw [hfinalizing] at hnot
    cases hnot
  | submit hthread =>
    rw [houtside] at hthread
    cases hthread
  | useOutbox hthread =>
    rw [houtside] at hthread
    cases hthread
  | leave hthread =>
    rw [houtside] at hthread
    rcases hthread with h | h | ⟨id, h, -⟩ <;> cases h
  | senderOutbox hidle | senderOutboxDone hidle | senderSubmit hidle | senderReturn hidle
  | senderEnd hidle =>
    rw [hidle] at hsender
    cases hsender
  | clientSubmit hfinalize hclient step =>
    refine ⟨hfinalizing, hactive, hsender, fun id call hcall hoperation => ?_⟩
    refine settled_runner step hcall (fun heq => ?_) hsettled hoperation
    exact hoperation (RunnerEvent.schedule.inj heq).2.symm
  | settled =>
    split <;> exact ⟨hfinalizing, hactive, hsender, hsettled⟩
  | finalize => exact ⟨rfl, hactive, hsender, hsettled⟩
  | _ => exact ⟨hfinalizing, hactive, hsender, hsettled⟩

/-! ## Waiting threads -/

/-- Whoever waits inside `run` is where its call says. -/
def ProcessRuntime.Waits (r : ProcessRuntime) (id : ℕ) : Operation → Prop
  | .caller => ∃ t, r.threads t = .inRun id
  | .sender => r.sender = .inRun id
  | .closeClient => r.finalize = .closingClient id

/-- The runner, and the threads inside its `run`. -/
structure Attributed (r : ProcessRuntime) : Prop where
  tokens : RunnerInvariant r.runner
  returned : ∀ id call, r.runner.calls id = some call → call.waiter = .returned →
    ¬ call.phase.Unfinished
  inside : ∀ id call, r.runner.calls id = some call → Inside call.waiter →
    r.Waits id call.operation

/-- An unfinished call is one that a thread waits for, or its token is unsettled. -/
theorem Attributed.unfinished (h : Attributed r) {id : ℕ} {call : ScheduledCall Operation Outcome}
    (hcall : r.runner.calls id = some call) (hun : call.phase.Unfinished)
    (hsettled : r.runner.unsettledTokens = ∅) : r.Waits id call.operation := by
  refine h.inside id call hcall ?_
  cases hwaiter : call.waiter with
  | waiting => exact .inl rfl
  | draining => exact .inr rfl
  | timedOut =>
    have hdone : call.phase.isDone = false := by
      cases hphase : call.phase <;> rw [hphase] at hun <;> first | rfl | exact hun.elim
    have htoken := (h.tokens.mem_iff hcall).mpr ⟨hwaiter, hdone⟩
    rw [hsettled] at htoken
    simp at htoken
  | returned => exact absurd hun (h.returned id call hcall hwaiter)

/-- A call that is over does not wait. -/
theorem Over.not_inside {runner : Runner} {id : ℕ} (h : Over runner id)
    {call : ScheduledCall Operation Outcome} (hcall : runner.calls id = some call) :
    ¬ Inside call.waiter := by
  obtain ⟨call', hcall', hwaiter⟩ := h
  obtain rfl := Option.some.inj (hcall.symm.trans hcall')
  rcases hwaiter with hwaiter | hwaiter
  · rw [Inside, hwaiter]
    simp
  · rw [Inside, hwaiter]
    simp

/-- A step of the runner keeps the attribution where the thread of a new call waits for it and the
others stay where they are. -/
theorem Attributed.runner (h : Attributed r) {runner : Runner} {e : RunnerEvent Operation Outcome}
    (hstep : RunnerStep .cancelled r.runner e runner) (hrunner : r'.runner = runner)
    (hnew : ∀ id operation, e = .schedule id operation → r'.Waits id operation)
    (hold : ∀ id operation, r.Waits id operation → r'.Waits id operation) : Attributed r' := by
  refine ⟨hrunner ▸ h.tokens.step hstep, fun id call' hcall' hwaiter => ?_,
    fun id call' hcall' hinside => ?_⟩
  · rw [hrunner] at hcall'
    rcases follows_step hstep hcall' with ⟨-, heq⟩ | ⟨call, hcall, hfollows⟩
    · rw [heq] at hwaiter
      cases hwaiter
    · intro hun
      rcases hfollows.returned hwaiter with hbefore | hnot
      · exact h.returned id call hcall hbefore (hfollows.unfinished hun)
      · exact hnot hun
  · rw [hrunner] at hcall'
    rcases follows_step hstep hcall' with ⟨heq, -⟩ | ⟨call, hcall, hfollows⟩
    · exact hnew id _ heq
    · rw [hfollows.operation]
      exact hold id _ (h.inside id call hcall (hfollows.inside hinside))

/-- A thread that leaves the runner alone keeps the attribution if nobody who waits moves. -/
theorem Attributed.move (h : Attributed r) (hrunner : r'.runner = r.runner)
    (hold : ∀ id call, r.runner.calls id = some call → Inside call.waiter →
      r.Waits id call.operation → r'.Waits id call.operation) : Attributed r' := by
  refine ⟨hrunner ▸ h.tokens, ?_, ?_⟩
  · rw [hrunner]
    exact h.returned
  · rw [hrunner]
    intro id call hcall hinside
    exact hold id call hcall hinside (h.inside id call hcall hinside)

theorem ProcessRuntime.Waits.congr {id : ℕ} {operation : Operation} (h : r.Waits id operation)
    (hthreads : ∀ t, r.threads t = .inRun id → ∃ t, r'.threads t = .inRun id)
    (hsender : r.sender = .inRun id → r'.sender = .inRun id)
    (hfinalize : r.finalize = .closingClient id → r'.finalize = .closingClient id) :
    r'.Waits id operation := by
  cases operation with
  | caller =>
    obtain ⟨t, ht⟩ := h
    exact hthreads t ht
  | sender => exact hsender h
  | closeClient => exact hfinalize h

/-- A thread outside `run` moves. -/
theorem waits_setThread {t : ℕ} {thread : Thread} (hthread : ∀ id, r.threads t ≠ .inRun id) {id : ℕ}
    {operation : Operation} (h : r.Waits id operation) :
    (r.setThread t thread).Waits id operation := by
  refine h.congr (fun t' ht' => ⟨t', ?_⟩) (fun h => h) (fun h => h)
  have hne : t' ≠ t := by
    rintro rfl
    exact hthread id ht'
  exact (Function.update_of_ne hne _ _).trans ht'

/-- `finalize` moves outside `run`. -/
theorem waits_finalize {id : ℕ} {operation : Operation} (h : r.Waits id operation)
    (hfinalize : r.finalize ≠ .closingClient id) (hthreads : r'.threads = r.threads)
    (hsender : r'.sender = r.sender) : r'.Waits id operation := by
  refine h.congr (fun t ht => ⟨t, ?_⟩) (fun h => ?_) (fun h => absurd h hfinalize)
  · rw [hthreads]
    exact ht
  · rw [hsender]
    exact h

theorem Attributed.step (h : Attributed r) (hstep : RuntimeStep r e r') : Attributed r' := by
  cases hstep with
  | runner hschedule hclose step =>
    refine h.runner step rfl (fun id operation heq => absurd heq (hschedule id operation)) ?_
    exact fun id operation hwaits => hwaits.congr (fun t ht => ⟨t, ht⟩) (fun h => h) (fun h => h)
  | clientClosed hcall hoperation step =>
    refine h.runner step rfl (fun id operation heq => by cases heq) ?_
    exact fun id operation hwaits => hwaits.congr (fun t ht => ⟨t, ht⟩) (fun h => h) (fun h => h)
  | enter hthread =>
    refine h.move rfl fun id call _ _ hwaits => waits_setThread (fun id hin => ?_) hwaits
    rw [hthread] at hin
    cases hin
  | @submit t id runner hthread step =>
    refine h.runner step rfl ?_ ?_
    · rintro id' operation ⟨⟩
      exact ⟨t, Function.update_self _ _ _⟩
    · refine fun id operation hwaits => waits_setThread (fun id hin => ?_) hwaits
      rw [hthread] at hin
      cases hin
  | useOutbox hthread =>
    refine h.move rfl fun id call _ _ hwaits => waits_setThread (fun id hin => ?_) hwaits
    rw [hthread] at hin
    cases hin
  | @leave t hthread =>
    refine h.move rfl fun id call hcall hinside hwaits => ?_
    refine hwaits.congr (fun t' ht' => ⟨t', ?_⟩) (fun h => h) (fun h => h)
    have hne : t' ≠ t := by
      rintro rfl
      rw [ht'] at hthread
      rcases hthread with h | h | ⟨id', hid, hover⟩
      · cases h
      · cases h
      · cases hid
        exact hover.not_inside hcall hinside
    exact (Function.update_of_ne hne _ _).trans ht'
  | senderOutbox hsender | senderOutboxDone hsender | senderEnd hsender =>
    refine h.move rfl fun id call _ _ hwaits => ?_
    refine hwaits.congr (fun t ht => ⟨t, ht⟩) (fun hin => ?_) (fun h => h)
    rw [hsender] at hin
    cases hin
  | senderSubmit hsender step =>
    refine h.runner step rfl ?_ ?_
    · rintro id operation ⟨⟩
      exact rfl
    · refine fun id operation hwaits =>
        hwaits.congr (fun t ht => ⟨t, ht⟩) (fun hin => ?_) (fun h => h)
      rw [hsender] at hin
      cases hin
  | senderReturn hsender hover =>
    refine h.move rfl fun id call hcall hinside hwaits => ?_
    refine hwaits.congr (fun t ht => ⟨t, ht⟩) (fun hin => ?_) (fun h => h)
    rw [hsender] at hin
    cases hin
    exact absurd hinside (hover.not_inside hcall)
  | settled hfinalize =>
    refine h.move (by split <;> rfl) fun id call _ _ hwaits => ?_
    refine waits_finalize hwaits (by rw [hfinalize]; simp) ?_ ?_
    · split <;> rfl
    · split <;> rfl
  | clientSubmit hfinalize hclient step =>
    refine h.runner step rfl ?_ ?_
    · rintro id operation ⟨⟩
      exact rfl
    · exact fun id operation hwaits => waits_finalize hwaits (by rw [hfinalize]; simp) rfl rfl
  | clientReturned hfinalize hcall hwaiter =>
    refine h.move rfl fun id call hcall' hinside hwaits => ?_
    refine waits_finalize hwaits (fun hin => ?_) rfl rfl
    rw [hfinalize] at hin
    cases hin
    exact Over.not_inside ⟨_, hcall, .inl hwaiter⟩ hcall' hinside
  | giveUp hfinalize =>
    refine h.move rfl fun id call hcall' hinside hwaits => ?_
    refine waits_finalize hwaits (fun hin => ?_) rfl rfl
    rw [hin] at hfinalize
    simp only [reduceCtorEq, false_or, Finalize.closingClient.injEq] at hfinalize
    obtain ⟨id', call', rfl, hcall, hwaiter⟩ := hfinalize
    exact Over.not_inside ⟨_, hcall, .inr hwaiter⟩ hcall' hinside
  | finalize hfinalize | callsDone hfinalize | joined hfinalize | outboxClosed hfinalize
  | clientSkipped hfinalize | shutdown hfinalize =>
    refine h.move rfl fun id call _ _ hwaits => ?_
    exact waits_finalize hwaits (by rw [hfinalize]; simp) rfl rfl

/-! ## Stages of `finalize` -/

/-- What `finalize` has waited for at each of its places. -/
def StageOk (r : ProcessRuntime) : Finalize → Prop
  | .absent | .waitingCalls | .timedOut | .completed => True
  | .joining => r.active = ∅
  | .settling => r.active = ∅ ∧ r.sender.isOver = true
  | .closingOutbox | .beforeClient | .closingClient _ | .shuttingDown => Quiet r

theorem finalizing_step (h : r.finalizing = true) (hstep : RuntimeStep r e r') :
    r'.finalizing = true := by
  cases hstep with
  | settled => split <;> exact h
  | finalize => rfl
  | _ => exact h

theorem active_step (hfinalizing : r.finalizing = true) (h : r.active = ∅)
    (hstep : RuntimeStep r e r') : r'.active = ∅ := by
  cases hstep with
  | enter hthread hnot =>
    rw [hfinalizing] at hnot
    cases hnot
  | leave => simp [ProcessRuntime.leave, h]
  | settled => split <;> exact h
  | _ => exact h

theorem sender_step (h : r.sender.isOver = true) (hstep : RuntimeStep r e r') :
    r'.sender.isOver = true := by
  cases hstep with
  | senderOutbox hidle | senderOutboxDone hidle | senderSubmit hidle | senderReturn hidle
  | senderEnd hidle =>
    rw [hidle] at h
    cases h
  | settled => split <;> exact h
  | _ => exact h

/-- Once its calls and its sender are gone, a settled runtime is quiet. -/
theorem Attributed.quiet (h : Attributed r) (hcounted : Counted r)
    (hfinalizing : r.finalizing = true) (hactive : r.active = ∅) (hsender : r.sender.isOver = true)
    (hsettled : r.runner.unsettledTokens = ∅) : Quiet r := by
  refine ⟨hfinalizing, hactive, hsender, fun id call hcall hoperation hun => ?_⟩
  have hwaits := h.unfinished hcall hun hsettled
  cases hcase : call.operation with
  | caller =>
    rw [hcase] at hwaits
    obtain ⟨t, ht⟩ := hwaits
    rw [hcounted.empty hactive] at ht
    cases ht
  | sender =>
    rw [hcase] at hwaits
    have hin : r.sender = .inRun id := hwaits
    rw [hin] at hsender
    cases hsender
  | closeClient => exact hoperation hcase

/-- While `finalize` stays where it is, what it has waited for stays. -/
theorem StageOk.step {stage : Finalize} (h : StageOk r stage) (hcounted : Counted r)
    (hfinalizing : stage ≠ .absent → r.finalizing = true) (hstep : RuntimeStep r e r') :
    StageOk r' stage := by
  cases stage with
  | absent | waitingCalls | timedOut | completed => trivial
  | joining => exact active_step (hfinalizing (by simp)) h hstep
  | settling => exact ⟨active_step (hfinalizing (by simp)) h.1 hstep, sender_step h.2 hstep⟩
  | closingOutbox | beforeClient | closingClient | shuttingDown =>
    exact Quiet.step h hcounted hstep

theorem stage_step (hattributed : Attributed r) (hcounted : Counted r)
    (hbegins : r.finalize ≠ .absent → r.finalizing = true) (h : StageOk r r.finalize)
    (hstep : RuntimeStep r e r') : StageOk r' r'.finalize := by
  have hkept := h.step hcounted hbegins hstep
  cases hstep with
  | callsDone hfinalize hactive => exact hactive
  | joined hfinalize hsender =>
    rw [hfinalize] at h
    exact ⟨h, hsender⟩
  | settled hfinalize free hsettled =>
    rw [hfinalize] at h
    have hfinalizing := hbegins (by rw [hfinalize]; simp)
    have hquiet := hattributed.quiet hcounted hfinalizing h.1 h.2 hsettled
    split
    · exact ⟨hquiet.finalizing, hquiet.active, hquiet.sender, hquiet.settled⟩
    · exact ⟨hquiet.finalizing, hquiet.active, hquiet.sender, hquiet.settled⟩
  | outboxClosed hfinalize =>
    rw [hfinalize] at hkept
    exact hkept
  | clientSubmit hfinalize =>
    rw [hfinalize] at hkept
    exact hkept
  | clientSkipped hfinalize =>
    rw [hfinalize] at hkept
    exact hkept
  | clientReturned hfinalize =>
    rw [hfinalize] at hkept
    exact hkept
  | shutdown | giveUp | finalize => trivial
  | _ => exact hkept

theorem begins_step (h : r.finalize ≠ .absent → r.finalizing = true) (hstep : RuntimeStep r e r') :
    r'.finalize ≠ .absent → r'.finalizing = true := by
  intro hsome
  by_cases hbefore : r.finalize = .absent
  · cases hstep with
    | finalize => rfl
    | callsDone hfinalize | joined hfinalize | outboxClosed hfinalize | settled hfinalize
    | clientSubmit hfinalize | clientSkipped hfinalize | clientReturned hfinalize
    | shutdown hfinalize =>
      rw [hbefore] at hfinalize
      cases hfinalize
    | giveUp hfinalize =>
      rw [hbefore] at hfinalize
      simp at hfinalize
    | _ => exact absurd hbefore hsome
  · exact finalizing_step (h hbefore) hstep

/-! ## Closing once -/

/-- An unfinished close of the client is the only one, and none has completed. -/
structure ClosesOnce (r : ProcessRuntime) : Prop where
  unfinished : ∀ id call, r.runner.calls id = some call → call.operation = .closeClient →
    call.phase.Unfinished → r.clientClosed = false ∧
      ∀ id' call', r.runner.calls id' = some call' → call'.operation = .closeClient →
        call'.phase.Unfinished → id' = id
  closes : r.closes = if r.clientClosed then 1 else 0

/-- A step of the runner that schedules no close leaves no new one unfinished. -/
theorem ClosesOnce.runner (h : ClosesOnce r) {runner : Runner} {e : RunnerEvent Operation Outcome}
    (hstep : RunnerStep .cancelled r.runner e runner) (hrunner : r'.runner = runner)
    (hschedule : ∀ id, e ≠ .schedule id .closeClient) (hclient : r'.clientClosed = r.clientClosed)
    (hcloses : r'.closes = r.closes) : ClosesOnce r' := by
  have hbefore : ∀ id call', r'.runner.calls id = some call' → call'.operation = .closeClient →
      call'.phase.Unfinished → ∃ call, r.runner.calls id = some call ∧
        call.operation = .closeClient ∧ call.phase.Unfinished := by
    intro id call' hcall' hoperation hun
    rw [hrunner] at hcall'
    rcases follows_step hstep hcall' with ⟨heq, -⟩ | ⟨call, hcall, hfollows⟩
    · rw [hoperation] at heq
      exact absurd heq (hschedule id)
    · exact ⟨call, hcall, hfollows.operation ▸ hoperation, hfollows.unfinished hun⟩
  refine ⟨fun id call' hcall' hoperation hun => ?_, by rw [hcloses, hclient, h.closes]⟩
  obtain ⟨call, hcall, hop, hun⟩ := hbefore id call' hcall' hoperation hun
  obtain ⟨hopen, hunique⟩ := h.unfinished id call hcall hop hun
  refine ⟨hclient.trans hopen, fun id' other hother hop' hun' => ?_⟩
  obtain ⟨found, hfound, hop, hun⟩ := hbefore id' other hother hop' hun'
  exact hunique id' found hfound hop hun

theorem ClosesOnce.step (h : ClosesOnce r) (hattributed : Attributed r)
    (hstep : RuntimeStep r e r') : ClosesOnce r' := by
  cases hstep with
  | runner hschedule hclose step =>
    exact h.runner step rfl (fun id => hschedule id _) rfl rfl
  | submit hthread step => exact h.runner step rfl (by simp) rfl rfl
  | senderSubmit hsender step => exact h.runner step rfl (by simp) rfl rfl
  | @clientClosed id call runner hcall hoperation step =>
    have hrunning : call.phase.Unfinished ∧
        runner.calls id = some { call with phase := .finished .completed } := by
      cases step with
      | finish hfound phase =>
        obtain rfl := Option.some.inj (hcall.symm.trans hfound)
        refine ⟨?_, AsyncRunner.setCall_same _ _ _⟩
        rw [phase]
        trivial
    obtain ⟨hopen, hunique⟩ := h.unfinished id call hcall hoperation hrunning.1
    refine ⟨fun id' call' hcall' hoperation' hun => ?_, ?_⟩
    · rcases follows_step step hcall' with ⟨⟨⟩, -⟩ | ⟨before, hbefore, hfollows⟩
      have hsame := hunique id' before hbefore (hfollows.operation ▸ hoperation')
        (hfollows.unfinished hun)
      subst hsame
      have hfinished := Option.some.inj (hrunning.2.symm.trans hcall')
      rw [← hfinished] at hun
      exact hun.elim
    · have hcloses := h.closes
      rw [hopen] at hcloses
      simp [hcloses]
  | @clientSubmit id runner hfinalize hclient step =>
    have hsettled : r.runner.unsettledTokens = ∅ := by
      cases step with
      | schedule free settled => exact settled
    have hnew : ∀ id' call', runner.calls id' = some call' → call'.operation = .closeClient →
        call'.phase.Unfinished → id' = id := by
      intro id' call' hcall' hoperation hun
      rcases follows_step step hcall' with ⟨heq, -⟩ | ⟨call, hcall, hfollows⟩
      · exact (RunnerEvent.schedule.inj heq).1.symm
      · have hwaits := hattributed.unfinished hcall (hfollows.unfinished hun) hsettled
        rw [← hfollows.operation, hoperation] at hwaits
        have hin : r.finalize = .closingClient id' := hwaits
        rw [hfinalize] at hin
        cases hin
    refine ⟨fun id' call' hcall' hoperation hun => ⟨hclient, fun a other ha hop hun' => ?_⟩,
      h.closes⟩
    rw [hnew a other ha hop hun', hnew id' call' hcall' hoperation hun]
  | settled => split <;> exact ⟨h.unfinished, h.closes⟩
  | _ => exact ⟨h.unfinished, h.closes⟩

/-! ## Sound runtimes -/

def CloseBegun (r : ProcessRuntime) : Prop := OutboxCloseBegun r ∨ ClientCloseCalled r

structure Sound (r : ProcessRuntime) : Prop where
  counted : Counted r
  attributed : Attributed r
  begins : r.finalize ≠ .absent → r.finalizing = true
  stage : StageOk r r.finalize
  closing : CloseBegun r → Quiet r
  closesOnce : ClosesOnce r

theorem clientCloseCalled_runner {runner : Runner} {e : RunnerEvent Operation Outcome}
    (hstep : RunnerStep .cancelled r.runner e runner) (hrunner : r'.runner = runner)
    (hschedule : ∀ id, e ≠ .schedule id .closeClient) (h : ClientCloseCalled r') :
    ClientCloseCalled r := by
  obtain ⟨id, call', hcall', hoperation⟩ := h
  rw [hrunner] at hcall'
  rcases follows_step hstep hcall' with ⟨heq, -⟩ | ⟨call, hcall, hfollows⟩
  · rw [hoperation] at heq
    exact absurd heq (hschedule id)
  · exact ⟨id, call, hcall, hfollows.operation ▸ hoperation⟩

/-- A close that begins with this step begins on a quiet runtime. -/
theorem Sound.closing_step (h : Sound r) (hstep : RuntimeStep r e r')
    (hstage : StageOk r' r'.finalize) (hbegun : CloseBegun r') : Quiet r' := by
  have hkept : CloseBegun r → Quiet r' := fun hbefore =>
    (h.closing hbefore).step h.counted hstep
  cases hstep with
  | runner hschedule hclose step =>
    refine hkept (hbegun.imp_right ?_)
    exact clientCloseCalled_runner step rfl fun id => hschedule id _
  | clientClosed hcall hoperation step =>
    refine hkept (hbegun.imp_right ?_)
    exact clientCloseCalled_runner step rfl (by simp)
  | submit hthread step =>
    refine hkept (hbegun.imp_right ?_)
    exact clientCloseCalled_runner step rfl (by simp)
  | senderSubmit hsender step =>
    refine hkept (hbegun.imp_right ?_)
    exact clientCloseCalled_runner step rfl (by simp)
  | settled =>
    split at hstage
    · rw [if_pos (by assumption)]
      exact hstage
    · rw [if_neg (by assumption)]
      exact hstage
  | outboxClosed | clientSubmit => exact hstage
  | _ => exact hkept hbegun

theorem Sound.step (h : Sound r) (hstep : RuntimeStep r e r') : Sound r' := by
  have hstage := stage_step h.attributed h.counted h.begins h.stage hstep
  exact ⟨h.counted.step hstep, h.attributed.step hstep, begins_step h.begins hstep, hstage,
    h.closing_step hstep hstage, h.closesOnce.step h.attributed hstep⟩

theorem sound_new (retain : Bool) : Sound (.new retain) where
  counted t := by simp [ProcessRuntime.new]
  attributed :=
    { tokens := runnerInvariant_new
      returned := by rintro id call ⟨⟩
      inside := by rintro id call ⟨⟩ }
  begins hsome := absurd rfl hsome
  stage := trivial
  closing := by
    rintro (houtbox | ⟨id, call, ⟨⟩, -⟩)
    cases retain <;> rcases houtbox with h | h | h <;> cases h
  closesOnce :=
    { unfinished := by rintro id call ⟨⟩
      closes := rfl }

/-- An operation of a caller or of the sender runs on the loop. -/
def UsesClient (r : ProcessRuntime) : Prop :=
  ∃ id call, r.runner.calls id = some call ∧ call.operation ≠ .closeClient ∧
    call.phase.Unfinished

def UsesOutbox (r : ProcessRuntime) : Prop :=
  (∃ t, r.threads t = .inOutbox) ∨ r.sender = .inOutbox

/-- From the first close on nobody uses the client or the outbox, the sender is over and every
operation has settled. -/
theorem Sound.unused (h : Sound r) (hbegun : CloseBegun r) :
    ¬ UsesClient r ∧ ¬ UsesOutbox r ∧ r.sender.isOver = true ∧ r.active = ∅ := by
  have hquiet := h.closing hbegun
  refine ⟨?_, ?_, hquiet.sender, hquiet.active⟩
  · rintro ⟨id, call, hcall, hoperation, hun⟩
    exact hquiet.settled id call hcall hoperation hun
  · rintro (⟨t, ht⟩ | hsender)
    · rw [h.counted.empty hquiet.active] at ht
      cases ht
    · have hover := hquiet.sender
      rw [hsender] at hover
      cases hover

end Steps

end BetterHindsight.Lifecycle
