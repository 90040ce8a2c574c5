import BetterHindsight.Foundations.Runs

/-! # The ready queue

The event loop runs its callbacks one after another, first come first served, and at any speed. What
it does about one call depends only on the task of the call and on the callbacks about it, in their
order in the queue.

* `EventLoop`, `EventLoop.step`: the loop with the calls of `AsyncRunner.run`.
* `CallView`, `step_view`: one call, and what a step of the loop is for it.
* `Pending`, `Barred`: a call that waits for its first step, and one that will never begin.
* `view_cancel`: a cancellation bars a pending call unless its first step is already queued. -/

namespace BetterHindsight
set_option autoImplicit false

/-! ## Loop -/

inductive Callback (ι : Type) where
  /-- `_schedule` -/
  | schedule (id : ι)
  /-- the first step of the task -/
  | firstStep (id : ι)
  /-- `_cancel` -/
  | cancel (id : ι)
  /-- `_complete`, the done callback of the task -/
  | complete (id : ι)
  /-- `loop.stop` -/
  | stop
  deriving DecidableEq

def Callback.call? {ι : Type} : Callback ι → Option ι
  | schedule id | firstStep id | cancel id | complete id => some id
  | stop => none

/-- `state.task`, and the result that `_complete` sets. -/
inductive CallTask (ρ : Type) where
  | unscheduled
  /-- no step yet; a cancellation waits for the first one -/
  | created (mustCancel : Bool)
  | running
  | finished (outcome : ρ)
  | done (outcome : ρ)

def CallTask.isDone {ρ : Type} : CallTask ρ → Bool
  | done _ => true
  | unscheduled | created _ | running | finished _ => false

/-- The outcome of a task that is over. -/
def CallTask.outcome? {ρ : Type} : CallTask ρ → Option ρ
  | finished outcome | done outcome => some outcome
  | unscheduled | created _ | running => none

/-- The loop. `begun` are the operations whose first step has run and `sent` those that have sent
their request, both in this order. -/
structure EventLoop (ι ρ : Type) where
  ready : List (Callback ι)
  task : ι → CallTask ρ
  unsettledTokens : Finset ι
  begun : List ι
  sent : List ι
  stopped : Bool

namespace EventLoop
variable {ι ρ : Type}

def new : EventLoop ι ρ := ⟨[], fun _ => .unscheduled, ∅, [], [], false⟩

/-- `call_soon` and `call_soon_threadsafe` -/
def callSoon (l : EventLoop ι ρ) (callback : Callback ι) : EventLoop ι ρ :=
  { l with ready := l.ready ++ [callback] }

variable [DecidableEq ι]

def setTask (l : EventLoop ι ρ) (id : ι) (task : CallTask ρ) : EventLoop ι ρ :=
  { l with task := Function.update l.task id task }

/-- `_schedule`: `create_task` queues the first step. -/
def schedule (l : EventLoop ι ρ) (id : ι) : EventLoop ι ρ :=
  (l.setTask id (.created false)).callSoon (.firstStep id)

/-- The first step of a task; one that was cancelled before it never enters its operation. -/
def firstStep (cancelled : ρ) (l : EventLoop ι ρ) (id : ι) : EventLoop ι ρ :=
  match l.task id with
  | .created true => (l.setTask id (.finished cancelled)).callSoon (.complete id)
  | .created false => { l.setTask id .running with begun := l.begun ++ [id] }
  | .unscheduled | .running | .finished _ | .done _ => l

/-- `_cancel`: an operation that runs may go on for as long as it likes. -/
def cancel (l : EventLoop ι ρ) (id : ι) : EventLoop ι ρ :=
  match l.task id with
  | .created _ => l.setTask id (.created true)
  | .unscheduled | .running | .finished _ | .done _ => l

/-- `_complete` -/
def complete (l : EventLoop ι ρ) (id : ι) : EventLoop ι ρ :=
  match l.task id with
  | .finished outcome =>
    { l.setTask id (.done outcome) with unsettledTokens := l.unsettledTokens.erase id }
  | .unscheduled | .created _ | .running | .done _ => l

def execute (cancelled : ρ) (l : EventLoop ι ρ) : Callback ι → EventLoop ι ρ
  | .schedule id => l.schedule id
  | .firstStep id => l.firstStep cancelled id
  | .cancel id => l.cancel id
  | .complete id => l.complete id
  | .stop => { l with stopped := true }

end EventLoop

inductive LoopEvent (ι ρ : Type) where
  /-- the first callback of the queue -/
  | execute
  /-- an operation that runs sends its request -/
  | send (id : ι)
  /-- an operation that runs returns or raises -/
  | finish (id : ι) (outcome : ρ)
  deriving DecidableEq

section Steps
variable {ι ρ : Type} [DecidableEq ι] (cancelled : ρ) (answers : ι → Bool → ρ → Bool)

/-- One step of the loop: `cancelled` is the outcome of a task that is cancelled before its first
step, and `answers` says how an operation may end that has sent its request or not. -/
def EventLoop.step (l : EventLoop ι ρ) : LoopEvent ι ρ → Option (EventLoop ι ρ)
  | .execute =>
    match l.stopped, l.ready with
    | false, callback :: ready => some ({ l with ready }.execute cancelled callback)
    | _, _ => none
  | .send id =>
    match l.stopped, l.task id with
    | false, .running => if id ∈ l.sent then none else some { l with sent := l.sent ++ [id] }
    | _, _ => none
  | .finish id outcome =>
    match l.stopped, l.task id with
    | false, .running =>
      if answers id (id ∈ l.sent) outcome then
        some ((l.setTask id (.finished outcome)).callSoon (.complete id))
      else none
    | _, _ => none

/-! ## One call -/

/-- What the loop knows about a call: its task, the callbacks about it, whether its operation has
begun and whether it has sent its request. -/
@[ext] structure CallView (ι ρ : Type) where
  task : CallTask ρ
  queue : List (Callback ι)
  begun : Bool
  sent : Bool

def EventLoop.view (l : EventLoop ι ρ) (id : ι) : CallView ι ρ :=
  ⟨l.task id, l.ready.filter fun callback => callback.call? = some id, id ∈ l.begun, id ∈ l.sent⟩

/-- A step of the loop about one call. -/
inductive CallViewStep (id : ι) : CallView ι ρ → CallView ι ρ → Prop
  | schedule {task : CallTask ρ} {queue : List (Callback ι)} {begun sent : Bool} :
      CallViewStep id ⟨task, .schedule id :: queue, begun, sent⟩
        ⟨.created false, queue ++ [.firstStep id], begun, sent⟩
  | cancelled {queue : List (Callback ι)} {begun sent : Bool} :
      CallViewStep id ⟨.created true, .firstStep id :: queue, begun, sent⟩
        ⟨.finished cancelled, queue ++ [.complete id], begun, sent⟩
  | begin {queue : List (Callback ι)} {begun sent : Bool} :
      CallViewStep id ⟨.created false, .firstStep id :: queue, begun, sent⟩
        ⟨.running, queue, true, sent⟩
  | cancel {mustCancel begun sent : Bool} {queue : List (Callback ι)} :
      CallViewStep id ⟨.created mustCancel, .cancel id :: queue, begun, sent⟩
        ⟨.created true, queue, begun, sent⟩
  | complete {outcome : ρ} {queue : List (Callback ι)} {begun sent : Bool} :
      CallViewStep id ⟨.finished outcome, .complete id :: queue, begun, sent⟩
        ⟨.done outcome, queue, begun, sent⟩
  /-- a callback that finds nothing to do -/
  | idle {task : CallTask ρ} {callback : Callback ι} {queue : List (Callback ι)}
      {begun sent : Bool} (hschedule : callback ≠ .schedule id)
      (hfirst : callback = .firstStep id → ∀ mustCancel, task ≠ .created mustCancel)
      (hcancel : callback = .cancel id → ∀ mustCancel, task ≠ .created mustCancel)
      (hcomplete : callback = .complete id → ∀ outcome, task ≠ .finished outcome) :
      CallViewStep id ⟨task, callback :: queue, begun, sent⟩ ⟨task, queue, begun, sent⟩
  | send {queue : List (Callback ι)} {begun : Bool} :
      CallViewStep id ⟨.running, queue, begun, false⟩ ⟨.running, queue, begun, true⟩
  | finish {outcome : ρ} {queue : List (Callback ι)} {begun sent : Bool}
      (h : answers id sent outcome = true) :
      CallViewStep id ⟨.running, queue, begun, sent⟩
        ⟨.finished outcome, queue ++ [.complete id], begun, sent⟩

section Views
variable {cancelled : ρ} {answers : ι → Bool → ρ → Bool} {l l' : EventLoop ι ρ} {id id' : ι}

/-- A callback about another call, at the head of the queue. -/
theorem view_pop_ne {ready : List (Callback ι)} {callback : Callback ι}
    (hready : l.ready = callback :: ready) (hne : callback.call? ≠ some id) :
    EventLoop.view { l with ready } id = l.view id := by
  simp [EventLoop.view, hready, hne]

/-- A callback about the call, at the head of the queue. -/
theorem queue_of_pop {ready : List (Callback ι)} {callback : Callback ι}
    (hready : l.ready = callback :: ready) (hsame : callback.call? = some id) :
    (l.view id).queue = callback :: (EventLoop.view { l with ready } id).queue := by
  simp [EventLoop.view, hready, hsame]

theorem view_callSoon_ne {callback : Callback ι} (hne : callback.call? ≠ some id) :
    (l.callSoon callback).view id = l.view id := by
  simp [EventLoop.view, EventLoop.callSoon, hne]
  exact ⟨rfl, rfl⟩

theorem view_callSoon {callback : Callback ι} (hsame : callback.call? = some id) :
    (l.callSoon callback).view id =
      { l.view id with queue := (l.view id).queue ++ [callback] } := by
  simp [EventLoop.view, EventLoop.callSoon, hsame]
  exact ⟨rfl, rfl⟩

theorem view_setTask_ne {task : CallTask ρ} (hne : id ≠ id') :
    (l.setTask id' task).view id = l.view id := by
  simp [EventLoop.view, EventLoop.setTask, hne]
  exact ⟨rfl, rfl⟩

theorem view_setTask {task : CallTask ρ} :
    (l.setTask id task).view id = { l.view id with task } := by
  simp [EventLoop.view, EventLoop.setTask]
  exact ⟨rfl, rfl⟩

end Views

/-- What a step of the loop does. -/
theorem EventLoop.step_cases {l l' : EventLoop ι ρ} {e : LoopEvent ι ρ}
    (h : l.step cancelled answers e = some l') : l.stopped = false ∧
      match e with
      | .execute => ∃ callback ready, l.ready = callback :: ready ∧
          l' = { l with ready }.execute cancelled callback
      | .send id => l.task id = .running ∧ id ∉ l.sent ∧ l' = { l with sent := l.sent ++ [id] }
      | .finish id outcome => l.task id = .running ∧ answers id (id ∈ l.sent) outcome = true ∧
          l' = (l.setTask id (.finished outcome)).callSoon (.complete id) := by
  cases e with
  | execute =>
    simp only [EventLoop.step] at h
    split at h
    · rename_i hstopped hready
      exact ⟨hstopped, _, _, hready, (Option.some.inj h).symm⟩
    · cases h
  | send id =>
    simp only [EventLoop.step] at h
    split at h
    · rename_i hstopped htask
      split at h
      · cases h
      · rename_i hsent
        exact ⟨hstopped, htask, hsent, (Option.some.inj h).symm⟩
    · cases h
  | finish id outcome =>
    simp only [EventLoop.step] at h
    split at h
    · rename_i hstopped htask
      split at h
      · rename_i hanswers
        exact ⟨hstopped, htask, hanswers, (Option.some.inj h).symm⟩
      · cases h
    · cases h

/-- A callback about another call changes nothing about this one. -/
theorem execute_view_ne {l : EventLoop ι ρ} {callback : Callback ι} {id : ι}
    (hne : callback.call? ≠ some id) : (l.execute cancelled callback).view id = l.view id := by
  have hid : ∀ id', callback.call? = some id' → id ≠ id' := by
    rintro id' hcall rfl
    exact hne hcall
  cases callback with
  | schedule id' =>
    have hnext : (Callback.firstStep id').call? ≠ some id := hne
    exact (view_callSoon_ne hnext).trans (view_setTask_ne (hid id' rfl))
  | firstStep id' =>
    have hid := hid id' rfl
    have hnext : (Callback.complete id').call? ≠ some id := hne
    simp only [EventLoop.execute, EventLoop.firstStep]
    split
    · exact (view_callSoon_ne hnext).trans (view_setTask_ne hid)
    · simp [EventLoop.view, EventLoop.setTask, hid]
      rfl
    all_goals rfl
  | cancel id' =>
    simp only [EventLoop.execute, EventLoop.cancel]
    split
    · exact view_setTask_ne (hid id' rfl)
    all_goals rfl
  | complete id' =>
    simp only [EventLoop.execute, EventLoop.complete]
    split
    · exact view_setTask_ne (hid id' rfl)
    all_goals rfl
  | stop => rfl

/-- A callback about the call is a step about it. -/
theorem execute_view {l : EventLoop ι ρ} {ready : List (Callback ι)} {callback : Callback ι}
    {id : ι} (hready : l.ready = callback :: ready) (hid : callback.call? = some id) :
    CallViewStep cancelled answers id (l.view id)
      (EventLoop.view ({ l with ready }.execute cancelled callback) id) := by
  let m : EventLoop ι ρ := { l with ready }
  have hview : l.view id =
      ⟨l.task id, callback :: (m.view id).queue, (m.view id).begun, (m.view id).sent⟩ := by
    have hqueue := queue_of_pop hready hid
    rw [← hqueue]
    rfl
  rw [hview]
  change CallViewStep _ _ _ _ ((m.execute cancelled callback).view id)
  cases callback with
  | schedule id' =>
    obtain rfl := Option.some.inj hid
    rw [EventLoop.execute, EventLoop.schedule, view_callSoon rfl, view_setTask]
    exact .schedule
  | firstStep id' =>
    obtain rfl := Option.some.inj hid
    rw [EventLoop.execute, EventLoop.firstStep]
    have htask : l.task id' = m.task id' := rfl
    split
    · rename_i hcreated
      rw [view_callSoon rfl, view_setTask, htask, hcreated]
      exact .cancelled
    · rename_i hcreated
      have hnext : EventLoop.view { m.setTask id' .running with begun := m.begun ++ [id'] } id' =
          ⟨.running, (m.view id').queue, true, (m.view id').sent⟩ := by
        simp [EventLoop.view, EventLoop.setTask]
        rfl
      rw [hnext, htask, hcreated]
      exact .begin
    all_goals
      rename_i hother
      refine .idle (by simp) (fun _ mustCancel hcreated => ?_) (by simp) (by simp)
      rw [htask, hother] at hcreated
      cases hcreated
  | cancel id' =>
    obtain rfl := Option.some.inj hid
    rw [EventLoop.execute, EventLoop.cancel]
    have htask : l.task id' = m.task id' := rfl
    split
    · rename_i hcreated
      rw [view_setTask, htask, hcreated]
      exact .cancel
    all_goals
      rename_i hother
      refine .idle (by simp) (by simp) (fun _ mustCancel hcreated => ?_) (by simp)
      rw [htask, hother] at hcreated
      cases hcreated
  | complete id' =>
    obtain rfl := Option.some.inj hid
    rw [EventLoop.execute, EventLoop.complete]
    have htask : l.task id' = m.task id' := rfl
    split
    · rename_i outcome hfinished
      have hnext : EventLoop.view { m.setTask id' (.done outcome) with
          unsettledTokens := m.unsettledTokens.erase id' } id' =
            { m.view id' with task := .done outcome } := view_setTask
      rw [hnext, htask, hfinished]
      exact .complete
    all_goals
      rename_i hother
      refine .idle (by simp) (by simp) (by simp) (fun _ outcome hfinished => ?_)
      rw [htask, hother] at hfinished
      cases hfinished
  | stop => cases hid

variable {cancelled answers}

/-- A step of the loop leaves a call as it is or is a step about it. -/
theorem step_view {l l' : EventLoop ι ρ} {e : LoopEvent ι ρ}
    (h : l.step cancelled answers e = some l') (id : ι) :
    l'.view id = l.view id ∨ CallViewStep cancelled answers id (l.view id) (l'.view id) := by
  obtain ⟨-, hcases⟩ := EventLoop.step_cases cancelled answers h
  cases e with
  | execute =>
    obtain ⟨callback, ready, hready, rfl⟩ := hcases
    by_cases hid : callback.call? = some id
    · exact .inr (execute_view cancelled answers hready hid)
    · exact .inl ((execute_view_ne cancelled hid).trans (view_pop_ne hready hid))
  | send id' =>
    obtain ⟨htask, hsent, rfl⟩ := hcases
    by_cases hid : id = id'
    · subst hid
      have hview : l.view id = ⟨.running, (l.view id).queue, (l.view id).begun, false⟩ := by
        simp [EventLoop.view, htask, hsent]
      have hnext : EventLoop.view { l with sent := l.sent ++ [id] } id =
          ⟨.running, (l.view id).queue, (l.view id).begun, true⟩ := by
        simp [EventLoop.view, htask]
      rw [hnext, hview]
      exact .inr .send
    · refine .inl ?_
      simp [EventLoop.view, hid]
  | finish id' outcome =>
    obtain ⟨htask, hanswers, rfl⟩ := hcases
    by_cases hid : id = id'
    · subst hid
      have hview : l.view id =
          ⟨.running, (l.view id).queue, (l.view id).begun, (l.view id).sent⟩ := by
        simp [EventLoop.view, htask]
      rw [view_callSoon rfl, view_setTask, hview]
      exact .inr (.finish hanswers)
    · have hne : (Callback.complete id').call? ≠ some id := by
        rintro ⟨⟩
        exact hid rfl
      exact .inl ((view_callSoon_ne hne).trans (view_setTask_ne hid))

end Steps

/-! ## Fates -/

section Fates
variable {ι ρ : Type} {cancelled : ρ} {answers : ι → Bool → ρ → Bool} {id : ι}
  {v v' : CallView ι ρ}

/-- The loop has not heard of the call. -/
def CallView.Untouched (v : CallView ι ρ) : Prop := v = ⟨.unscheduled, [], false, false⟩

/-- The call waits for its first step, and nobody has cancelled it. -/
inductive Pending (id : ι) : CallView ι ρ → Prop
  | queued : Pending id ⟨.unscheduled, [.schedule id], false, false⟩
  | created : Pending id ⟨.created false, [.firstStep id], false, false⟩

/-- The first step is queued, and the cancellation behind it. -/
def CallView.StartsFirst (id : ι) (v : CallView ι ρ) : Prop :=
  v = ⟨.created false, [.firstStep id, .cancel id], false, false⟩

/-- The operation has not begun and never will. -/
inductive Barred (id : ι) : CallView ι ρ → Prop
  | untouched : Barred id ⟨.unscheduled, [], false, false⟩
  | queued : Barred id ⟨.unscheduled, [.schedule id, .cancel id], false, false⟩
  | created : Barred id ⟨.created false, [.cancel id, .firstStep id], false, false⟩
  | doomed : Barred id ⟨.created true, [.firstStep id], false, false⟩
  | finished {outcome : ρ} : Barred id ⟨.finished outcome, [.complete id], false, false⟩
  | done {outcome : ρ} : Barred id ⟨.done outcome, [], false, false⟩

/-- The call was handed over once. -/
def CallView.Handed (id : ι) (v : CallView ι ρ) : Prop :=
  v.task = .unscheduled ∧ v.queue = [.schedule id] ∨ .schedule id ∉ v.queue

/-- The result of the call is set for good. -/
def CallView.Answered (id : ι) (outcome : ρ) (v : CallView ι ρ) : Prop :=
  v.task = .done outcome ∧ .schedule id ∉ v.queue

/-- The outcome of the call is one that its operation can have, or that of a cancelled task. -/
def CallView.Honest (cancelled : ρ) (answers : ι → Bool → ρ → Bool) (id : ι) (v : CallView ι ρ) :
    Prop :=
  ∀ outcome, v.task.outcome? = some outcome →
    outcome = cancelled ∨ answers id v.sent outcome = true

theorem Pending.step (h : Pending id v) (hstep : CallViewStep cancelled answers id v v') :
    Pending id v' ∨ v'.begun = true := by
  cases h with
  | queued =>
    cases hstep with
    | schedule => exact .inl .created
    | idle hschedule => exact absurd rfl hschedule
  | created =>
    cases hstep with
    | begin => exact .inr rfl
    | idle hschedule hfirst => exact absurd rfl (hfirst rfl false)

theorem CallView.StartsFirst.step (h : v.StartsFirst id)
    (hstep : CallViewStep cancelled answers id v v') : v'.begun = true := by
  cases h
  cases hstep with
  | begin => rfl
  | idle hschedule hfirst => exact absurd rfl (hfirst rfl false)

theorem Barred.step (h : Barred id v) (hstep : CallViewStep cancelled answers id v v') :
    Barred id v' := by
  cases h with
  | untouched => cases hstep
  | queued =>
    cases hstep with
    | schedule => exact .created
    | idle hschedule => exact absurd rfl hschedule
  | created =>
    cases hstep with
    | cancel => exact .doomed
    | idle _ _ hcancel => exact absurd rfl (hcancel rfl false)
  | doomed =>
    cases hstep with
    | cancelled => exact .finished
    | idle _ hfirst => exact absurd rfl (hfirst rfl true)
  | finished =>
    cases hstep with
    | complete => exact .done
    | idle _ _ _ hcomplete => exact absurd rfl (hcomplete rfl _)
  | done => cases hstep

theorem CallView.Untouched.step (h : v.Untouched)
    (hstep : CallViewStep cancelled answers id v v') : v'.Untouched := by
  cases h
  cases hstep

theorem CallView.Untouched.barred (h : v.Untouched) : Barred id v := by
  cases h
  exact .untouched

theorem Barred.not_begun (h : Barred id v) : v.begun = false := by
  cases h <;> rfl

theorem Barred.not_sent (h : Barred id v) : v.sent = false := by
  cases h <;> rfl

theorem begun_step (h : v.begun = true) (hstep : CallViewStep cancelled answers id v v') :
    v'.begun = true := by
  cases hstep <;> first | exact h | rfl

theorem CallView.Answered.step {outcome : ρ} (h : v.Answered id outcome)
    (hstep : CallViewStep cancelled answers id v v') : v'.Answered id outcome := by
  obtain ⟨htask, hqueue⟩ := h
  cases hstep with
  | schedule => exact absurd List.mem_cons_self hqueue
  | idle => exact ⟨htask, fun hmem => hqueue (List.mem_cons_of_mem _ hmem)⟩
  | _ => cases htask

theorem CallView.Handed.step (h : v.Handed id)
    (hstep : CallViewStep cancelled answers id v v') : v'.Handed id := by
  refine .inr ?_
  rcases h with ⟨htask, hqueue⟩ | hqueue
  · cases hstep with
    | schedule =>
      cases hqueue
      simp
    | idle hschedule =>
      cases hqueue
      exact absurd rfl hschedule
    | _ => cases htask
  · cases hstep with
    | schedule => exact absurd List.mem_cons_self hqueue
    | cancelled | finish => simp_all
    | send => exact hqueue
    | _ => exact fun hmem => hqueue (List.mem_cons_of_mem _ hmem)

theorem Pending.handed (h : Pending id v) : v.Handed id := by
  cases h with
  | queued => exact .inl ⟨rfl, rfl⟩
  | created => exact .inr (by simp)

theorem CallView.Handed.answered {outcome : ρ} (h : v.Handed id) (hdone : v.task = .done outcome) :
    v.Answered id outcome := by
  refine ⟨hdone, h.resolve_left fun hqueued => ?_⟩
  rw [hdone] at hqueued
  cases hqueued.1

theorem CallView.Honest.step (h : v.Honest cancelled answers id)
    (hstep : CallViewStep cancelled answers id v v') : v'.Honest cancelled answers id := by
  intro outcome hover
  cases hstep with
  | cancelled =>
    cases hover
    exact .inl rfl
  | complete =>
    cases hover
    exact h _ rfl
  | finish hanswers =>
    cases hover
    exact .inr hanswers
  | idle => exact h outcome hover
  | _ => cases hover

end Fates

section Handing
variable {ι ρ : Type} [DecidableEq ι] {cancelled : ρ} {answers : ι → Bool → ρ → Bool}
  {l l' : EventLoop ι ρ} {id : ι} {e : LoopEvent ι ρ}

/-- What every step about a call preserves, every step of the loop preserves. -/
theorem EventLoop.keeps {P : CallView ι ρ → Prop} (h : l.step cancelled answers e = some l')
    (hP : ∀ v v', P v → CallViewStep cancelled answers id v v' → P v') (hv : P (l.view id)) :
    P (l'.view id) := by
  rcases step_view h id with hsame | hstep
  · rw [hsame]
    exact hv
  · exact hP _ _ hv hstep

theorem execute_sent (cancelled : ρ) (l : EventLoop ι ρ) (callback : Callback ι) :
    (l.execute cancelled callback).sent = l.sent := by
  cases callback with
  | schedule id => rfl
  | firstStep id =>
    rw [EventLoop.execute, EventLoop.firstStep]
    split <;> rfl
  | cancel id =>
    rw [EventLoop.execute, EventLoop.cancel]
    split <;> rfl
  | complete id =>
    rw [EventLoop.execute, EventLoop.complete]
    split <;> rfl
  | stop => rfl

/-- Requests stay sent, in their order. -/
theorem EventLoop.sent_mono (h : l.step cancelled answers e = some l') :
    ∃ more, l'.sent = l.sent ++ more := by
  obtain ⟨-, hcases⟩ := EventLoop.step_cases cancelled answers h
  cases e with
  | execute =>
    obtain ⟨callback, ready, -, rfl⟩ := hcases
    exact ⟨[], by rw [execute_sent, List.append_nil]⟩
  | send id =>
    obtain ⟨-, -, rfl⟩ := hcases
    exact ⟨[id], rfl⟩
  | finish id outcome =>
    obtain ⟨-, -, rfl⟩ := hcases
    exact ⟨[], (List.append_nil _).symm⟩

/-- A cancellation bars a pending call unless its first step is already queued. -/
theorem Pending.cancel (h : Pending id (l.view id)) :
    Barred id ((l.callSoon (.cancel id)).view id) ∨
      ((l.callSoon (.cancel id)).view id).StartsFirst id := by
  rw [view_callSoon rfl]
  generalize l.view id = v at h
  cases h with
  | queued => exact .inl .queued
  | created => exact .inr rfl

theorem CallView.Untouched.schedule (h : (l.view id).Untouched) :
    Pending id ((l.callSoon (.schedule id)).view id) := by
  rw [view_callSoon rfl, h]
  exact .queued

end Handing

end BetterHindsight
