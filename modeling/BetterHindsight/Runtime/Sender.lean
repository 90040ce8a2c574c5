import BetterHindsight.Outbox.Eligibility
import BetterHindsight.Retention.Builder
import BetterHindsight.Runtime.AsyncRunner

/-! # Processes that share one outbox

The sender loop of `OutboxSender`, statement by statement, inside processes that share one outbox
table and one profile lock. Each process has its own handle, its own async runner, and threads that
admit turns, wake the sender and stop it.

* `SenderPc`, `SenderControl`: the places in the loop, and the statements between its calls.
* `Process`, `LocalEvent`, `LocalStep`: what one process does in one step.
* `System`, `SystemStep`: the processes together, with starts and crashes. -/

namespace BetterHindsight
set_option autoImplicit false

/-! ## The retain call -/

/-- What `retain_segment` is asked to send. -/
structure RetainSegment where
  content : Text
  documentId : Text
  payloadSchema : Text
  sourceSha256 : Text
  segmentIndex : ℤ
  segmentCount : ℤ
  timestamp : Option Text
  deriving DecidableEq

/-- The request that `_deliver_claim` makes of a claimed row. -/
def retainSegmentOf (lib : Stdlib) (row : OutboxRow) : RetainSegment where
  content := row.content
  documentId := row.documentId
  payloadSchema := row.payloadSchema
  sourceSha256 := row.sourceSha256
  segmentIndex := row.segmentIndex
  segmentCount := row.segmentCount
  timestamp := retainedEventTimestamp lib row.content

/-- How an operation on the loop ends. -/
inductive Outcome where
  /-- returns `RetainConfirmation(confirmed=True)` -/
  | confirmed
  /-- returns anything else -/
  | unconfirmed
  /-- raises `HindsightClientError` -/
  | clientError
  /-- raises `CancelledError` -/
  | cancelled
  /-- raises any other exception -/
  | unexpectedError
  deriving DecidableEq

/-- The failure category of an outcome, `none` for a confirmation. -/
def Outcome.category : Outcome → Option OutboxFailureCategory
  | confirmed => none
  | unconfirmed => some .retainUnconfirmed
  | clientError => some .retainFailed
  | cancelled => some .retainFailed
  | unexpectedError => some .retainFailed

/-- The runner of a process: the sender's calls carry a request, the calls of others do not. -/
abbrev ProcessRunner := AsyncRunner (Option RetainSegment) Outcome

/-! ## The sender loop -/

/-- The statement that the sender is about to run. -/
inductive SenderPc where
  /-- `while not self._stopping()` of `_run` -/
  | top
  /-- `try_acquire_profile_lock` -/
  | acquiring
  /-- `self._wake.clear()` without ownership -/
  | pollClear
  /-- `if not self._stopping()` without ownership -/
  | pollCheck
  /-- `self._wake.wait(...)` without ownership -/
  | pollWait
  /-- `recover_sending` -/
  | recovering
  /-- `while not self._stopping()` of `_run_as_owner` -/
  | ownerTop
  /-- `self._wake.clear()` as owner -/
  | ownerClear
  /-- `if self._stopping(): return False` as owner -/
  | ownerCheck
  /-- `wait_for_settlement(timeout=0.0)` -/
  | settleCheck
  /-- `wait_for_settlement(timeout=wait_slice)`, sensitive to the stop -/
  | draining
  /-- `if stop_sensitive and self._stopping()` -/
  | drainCheck
  /-- `_claim_if_running`, before its check -/
  | claimCheck
  /-- `claim_due` -/
  | claiming
  /-- `next_matching_retry_deadline` -/
  | readingDeadline
  /-- `self._wake.wait(...)` as owner -/
  | ownerWait
  /-- `self._runner.run(...)` for a claimed row -/
  | running (row : OutboxRow)
  /-- inside `run`, which waits for the call -/
  | awaiting (row : OutboxRow) (id : ℕ)
  /-- `_wait_for_runner_settlement(stop_sensitive=False)` -/
  | settling (row : OutboxRow) (category : OutboxFailureCategory)
  /-- `complete_claim` -/
  | completing (row : OutboxRow) (id : ℕ)
  /-- `reschedule_claim` -/
  | rescheduling (row : OutboxRow) (category : OutboxFailureCategory)
  /-- `owner.release()` -/
  | releasing (ownershipLost : Bool)
  | exited
  deriving DecidableEq

/-- A statement of the loop that calls nothing: it reads the stop event, clears the wake event or
ends a wait. -/
inductive SenderControl (stop : Bool) : SenderPc × Bool → SenderPc × Bool → Prop
  | topStop {wake : Bool} : stop = true → SenderControl stop (.top, wake) (.exited, wake)
  | top {wake : Bool} : stop = false → SenderControl stop (.top, wake) (.acquiring, wake)
  | pollClear {wake : Bool} : SenderControl stop (.pollClear, wake) (.pollCheck, false)
  | pollCheckStop {wake : Bool} : stop = true → SenderControl stop (.pollCheck, wake) (.top, wake)
  | pollCheck {wake : Bool} : stop = false → SenderControl stop (.pollCheck, wake) (.pollWait, wake)
  | pollWait {wake : Bool} : SenderControl stop (.pollWait, wake) (.top, wake)
  | ownerTopStop {wake : Bool} : stop = true →
      SenderControl stop (.ownerTop, wake) (.releasing false, wake)
  | ownerTop {wake : Bool} : stop = false → SenderControl stop (.ownerTop, wake) (.ownerClear, wake)
  | ownerClear {wake : Bool} : SenderControl stop (.ownerClear, wake) (.ownerCheck, false)
  | ownerCheckStop {wake : Bool} : stop = true →
      SenderControl stop (.ownerCheck, wake) (.releasing false, wake)
  | ownerCheck {wake : Bool} : stop = false →
      SenderControl stop (.ownerCheck, wake) (.settleCheck, wake)
  | drainTimeout {wake : Bool} : SenderControl stop (.draining, wake) (.drainCheck, wake)
  | drainCheckStop {wake : Bool} : stop = true →
      SenderControl stop (.drainCheck, wake) (.releasing false, wake)
  | drainCheck {wake : Bool} : stop = false →
      SenderControl stop (.drainCheck, wake) (.draining, wake)
  | claimCheckStop {wake : Bool} : stop = true →
      SenderControl stop (.claimCheck, wake) (.releasing false, wake)
  | claimCheck {wake : Bool} : stop = false →
      SenderControl stop (.claimCheck, wake) (.claiming, wake)
  | ownerWait {wake : Bool} : SenderControl stop (.ownerWait, wake) (.ownerTop, wake)

/-! ## One process -/

structure Process where
  outbox : SQLiteOutbox
  runner : ProcessRunner
  pc : SenderPc
  wake : Bool
  stopRequested : Bool
  /-- the accepted admissions, by their document ids, whose `wake()` is still to come -/
  pendingWakes : List (List Text)

/-- A process whose sender thread has just started. -/
def Process.new (outbox : SQLiteOutbox) : Process :=
  ⟨outbox, .new, .top, true, false, []⟩

inductive LocalEvent where
  | admission (segments : List RetainedSegment) (timestamp : WallTime) (faults : Faults)
  | wake (documentIds : List Text)
  | requestStop
  | requestStopWake
  | close
  | runner (event : RunnerEvent (Option RetainSegment) Outcome)
  | control
  | acquire
  | acquireFailed
  | recover (owner : OwnerChecks) (now : PyFloat) (faults : Faults)
  | checkSettled
  | checkUnsettled
  | drained
  | claim (owner : OwnerChecks) (now : PyFloat) (faults : Faults)
  | readDeadline (fault : Option StorageError)
  | startRetain (id : ℕ)
  | refuseUnsettled
  | refuseClosed
  | collectRetain
  | raiseTimeout
  | settled
  | complete (owner : OwnerChecks) (faults : Faults)
  | reschedule (owner : OwnerChecks) (completedAt : PyFloat) (faults : Faults)
  | release

/-- What one process sees: the shared table and lock, and itself. -/
structure View where
  table : OutboxTable
  lock : Option ℕ
  process : Process

/-- Where the sender goes after an owner operation. -/
def afterTransition (result : OutboxTransitionResult) : SenderPc :=
  match result with
  | .applied _ => .ownerTop
  | .localFailure => .releasing true

/-- Where the sender goes after `claim_due`. -/
def afterClaim (result : OutboxClaimResult) : SenderPc :=
  match result with
  | .claimed row => .running row
  | .empty => .readingDeadline
  | .localFailure => .releasing true

/-- Where the sender goes after `next_matching_retry_deadline`. -/
def afterDeadline (result : Except OutboxReadError (Option ℚ)) : SenderPc :=
  match result with
  | .ok _ => .ownerWait
  | .error _ => .releasing true

/-- Where the sender goes with the outcome of the retain call. -/
def afterRetain (row : OutboxRow) (id : ℕ) (outcome : Outcome) : SenderPc :=
  match outcome.category with
  | none => .completing row id
  | some category => .rescheduling row category

/-- The document ids of an admission that calls `wake()`, if it does. -/
def wakesOf (segments : List RetainedSegment) (result : AdmissionResult) : List (List Text) :=
  if result.accepted then [segments.map fun segment => segment.documentId] else []

/-- An event of the loop or of a thread that runs an operation of its own. The calls of the sender
start and return through its own statements. -/
def IsBackground (r : ProcessRunner) : RunnerEvent (Option RetainSegment) Outcome → Prop
  | .schedule _ operation => operation = none
  | .collect id => ∀ call, r.calls id = some call → call.operation = none
  | _ => True

/-- One step of the process `pid`. -/
inductive LocalStep (lib : Stdlib) (pid : ℕ) : View → LocalEvent → View → Prop
  | admission {v : View} {segments : List RetainedSegment} {timestamp : WallTime} {faults : Faults}
      {result : AdmissionResult} {t : OutboxTable}
      (hrun : v.process.outbox.admitSegments lib segments timestamp faults v.table = (result, t)) :
      LocalStep lib pid v (.admission segments timestamp faults)
        { v with
          table := t
          process := { v.process with
            pendingWakes := wakesOf segments result ++ v.process.pendingWakes } }
  | wake {v : View} {documentIds : List Text} (pending : documentIds ∈ v.process.pendingWakes) :
      LocalStep lib pid v (.wake documentIds)
        { v with process := { v.process with
            wake := true
            pendingWakes := v.process.pendingWakes.erase documentIds } }
  | requestStop {v : View} : LocalStep lib pid v .requestStop
      { v with process := { v.process with stopRequested := true } }
  | requestStopWake {v : View} (stopping : v.process.stopRequested = true) :
      LocalStep lib pid v .requestStopWake { v with process := { v.process with wake := true } }
  | close {v : View} : LocalStep lib pid v .close
      { v with process := { v.process with outbox := { v.process.outbox with closed := true } } }
  | runner {v : View} {event : RunnerEvent (Option RetainSegment) Outcome} {r : ProcessRunner}
      (background : IsBackground v.process.runner event)
      (step : RunnerStep .cancelled v.process.runner event r) :
      LocalStep lib pid v (.runner event) { v with process := { v.process with runner := r } }
  | control {v : View} {pc : SenderPc} {wake : Bool}
      (step : SenderControl v.process.stopRequested (v.process.pc, v.process.wake) (pc, wake)) :
      LocalStep lib pid v .control { v with process := { v.process with pc, wake } }
  | acquire {v : View} (pc : v.process.pc = .acquiring) (free : v.lock = none) :
      LocalStep lib pid v .acquire
        { v with lock := some pid, process := { v.process with pc := .recovering } }
  | acquireFailed {v : View} (pc : v.process.pc = .acquiring) :
      LocalStep lib pid v .acquireFailed { v with process := { v.process with pc := .pollClear } }
  | recover {v : View} {owner : OwnerChecks} {now : PyFloat} {faults : Faults}
      {result : OutboxTransitionResult} {t : OutboxTable} (pc : v.process.pc = .recovering)
      (hrun : v.process.outbox.recoverSending owner now faults v.table = (result, t)) :
      LocalStep lib pid v (.recover owner now faults)
        { v with table := t, process := { v.process with pc := afterTransition result } }
  | checkSettled {v : View} (pc : v.process.pc = .settleCheck)
      (free : v.process.runner.conditionOwner = none)
      (settled : v.process.runner.unsettledTokens = ∅) :
      LocalStep lib pid v .checkSettled { v with process := { v.process with pc := .claimCheck } }
  | checkUnsettled {v : View} (pc : v.process.pc = .settleCheck)
      (free : v.process.runner.conditionOwner = none)
      (unsettled : v.process.runner.unsettledTokens ≠ ∅) :
      LocalStep lib pid v .checkUnsettled { v with process := { v.process with pc := .draining } }
  | drained {v : View} (pc : v.process.pc = .draining)
      (free : v.process.runner.conditionOwner = none)
      (settled : v.process.runner.unsettledTokens = ∅) :
      LocalStep lib pid v .drained { v with process := { v.process with pc := .ownerTop } }
  | claim {v : View} {owner : OwnerChecks} {now : PyFloat} {faults : Faults}
      {result : OutboxClaimResult} {t : OutboxTable} (pc : v.process.pc = .claiming)
      (hrun : v.process.outbox.claimDue owner now faults v.table = (result, t)) :
      LocalStep lib pid v (.claim owner now faults)
        { v with table := t, process := { v.process with pc := afterClaim result } }
  | readDeadline {v : View} {fault : Option StorageError} (pc : v.process.pc = .readingDeadline) :
      LocalStep lib pid v (.readDeadline fault)
        { v with process := { v.process with
            pc := afterDeadline (v.process.outbox.nextMatchingRetryDeadline fault v.table) } }
  | startRetain {v : View} {id : ℕ} {row : OutboxRow} {r : ProcessRunner}
      (pc : v.process.pc = .running row)
      (step : RunnerStep .cancelled v.process.runner
        (.schedule id (some (retainSegmentOf lib row))) r) :
      LocalStep lib pid v (.startRetain id)
        { v with process := { v.process with runner := r, pc := .awaiting row id } }
  | refuseUnsettled {v : View} {row : OutboxRow} (pc : v.process.pc = .running row)
      (free : v.process.runner.conditionOwner = none)
      (unsettled : v.process.runner.unsettledTokens ≠ ∅) :
      LocalStep lib pid v .refuseUnsettled
        { v with process := { v.process with pc := .settling row .retainFailed } }
  | refuseClosed {v : View} {row : OutboxRow} (pc : v.process.pc = .running row) :
      LocalStep lib pid v .refuseClosed
        { v with process := { v.process with pc := .rescheduling row .retainFailed } }
  | collectRetain {v : View} {row : OutboxRow} {id : ℕ} {call : ScheduledCall _ Outcome}
      {outcome : Outcome} {r : ProcessRunner} (pc : v.process.pc = .awaiting row id)
      (hcall : v.process.runner.calls id = some call) (result : call.phase.result? = some outcome)
      (step : RunnerStep .cancelled v.process.runner (.collect id) r) :
      LocalStep lib pid v .collectRetain
        { v with process := { v.process with runner := r, pc := afterRetain row id outcome } }
  | raiseTimeout {v : View} {row : OutboxRow} {id : ℕ} {call : ScheduledCall _ Outcome}
      (pc : v.process.pc = .awaiting row id) (hcall : v.process.runner.calls id = some call)
      (waiter : call.waiter = .timedOut) :
      LocalStep lib pid v .raiseTimeout
        { v with process := { v.process with pc := .settling row .retainTimeout } }
  | settled {v : View} {row : OutboxRow} {category : OutboxFailureCategory}
      (pc : v.process.pc = .settling row category)
      (free : v.process.runner.conditionOwner = none)
      (settled : v.process.runner.unsettledTokens = ∅) :
      LocalStep lib pid v .settled
        { v with process := { v.process with pc := .rescheduling row category } }
  | complete {v : View} {owner : OwnerChecks} {faults : Faults} {row : OutboxRow} {id : ℕ}
      {result : OutboxTransitionResult} {t : OutboxTable} (pc : v.process.pc = .completing row id)
      (hrun : v.process.outbox.completeClaim owner row.documentId row.attemptCount faults v.table =
        (result, t)) :
      LocalStep lib pid v (.complete owner faults)
        { v with table := t, process := { v.process with pc := afterTransition result } }
  | reschedule {v : View} {owner : OwnerChecks} {completedAt : PyFloat} {faults : Faults}
      {row : OutboxRow} {category : OutboxFailureCategory} {result : OutboxTransitionResult}
      {t : OutboxTable} (pc : v.process.pc = .rescheduling row category)
      (hrun : v.process.outbox.rescheduleClaim lib owner row.documentId row.attemptCount category
        completedAt faults v.table = (result, t)) :
      LocalStep lib pid v (.reschedule owner completedAt faults)
        { v with table := t, process := { v.process with pc := afterTransition result } }
  | release {v : View} {ownershipLost : Bool} (pc : v.process.pc = .releasing ownershipLost) :
      LocalStep lib pid v .release
        { v with
          lock := none
          process := { v.process with pc := if ownershipLost then .pollClear else .top } }

/-! ## The processes together -/

inductive Lifetime where
  | unborn
  | alive (process : Process)
  | dead

/-- The shared table, the profile lock with its holder, and every process. -/
structure System where
  table : OutboxTable
  lock : Option ℕ
  processes : ℕ → Lifetime

inductive SystemEvent where
  | start (outbox : SQLiteOutbox)
  | crash
  | step (event : LocalEvent)

/-- The profile lock after the death of a process, which releases what it holds. -/
def lockAfterDeath (lock : Option ℕ) (pid : ℕ) : Option ℕ := if lock = some pid then none else lock

/-- One step of one process, its start with an open handle, or its death at any point. -/
inductive SystemStep (lib : Stdlib) (configs : List BetterHindsightConfig) :
    System → ℕ × SystemEvent → System → Prop
  | start {s : System} {pid : ℕ} {outbox : SQLiteOutbox} (unborn : s.processes pid = .unborn)
      (opened : OpenedUnder lib configs outbox) (isOpen : outbox.closed = false) :
      SystemStep lib configs s (pid, .start outbox)
        { s with processes := Function.update s.processes pid (.alive (.new outbox)) }
  | crash {s : System} {pid : ℕ} {process : Process} (alive : s.processes pid = .alive process) :
      SystemStep lib configs s (pid, .crash)
        { s with
          lock := lockAfterDeath s.lock pid
          processes := Function.update s.processes pid .dead }
  | step {s : System} {pid : ℕ} {process : Process} {event : LocalEvent} {v : View}
      (alive : s.processes pid = .alive process)
      (step : LocalStep lib pid ⟨s.table, s.lock, process⟩ event v) :
      SystemStep lib configs s (pid, .step event)
        ⟨v.table, v.lock, Function.update s.processes pid (.alive v.process)⟩

theorem SystemStep.localStep {lib : Stdlib} {configs : List BetterHindsightConfig} {s s' : System}
    {pid : ℕ} {event : LocalEvent} (h : SystemStep lib configs s (pid, .step event) s') :
    ∃ process v, s.processes pid = .alive process ∧
      LocalStep lib pid ⟨s.table, s.lock, process⟩ event v ∧
      s' = ⟨v.table, v.lock, Function.update s.processes pid (.alive v.process)⟩ := by
  cases h with
  | step alive step => exact ⟨_, _, alive, step, rfl⟩

/-- A process that lives after a step has just started, has made the step itself, or has been left
alone. -/
theorem SystemStep.alive_cases {lib : Stdlib} {configs : List BetterHindsightConfig}
    {s s' : System} {l : ℕ × SystemEvent} (h : SystemStep lib configs s l s') {pid : ℕ}
    {process : Process} (halive : s'.processes pid = .alive process) :
    (∃ outbox, l = (pid, .start outbox) ∧ OpenedUnder lib configs outbox ∧
        s.processes pid = .unborn ∧ process = .new outbox) ∨
      (∃ before event, l = (pid, .step event) ∧ s.processes pid = .alive before ∧
        LocalStep lib pid ⟨s.table, s.lock, before⟩ event ⟨s'.table, s'.lock, process⟩) ∨
      (pid ≠ l.1 ∧ s.processes pid = .alive process) := by
  cases h with
  | @start p outbox unborn opened isOpen =>
    replace halive : Function.update s.processes p (.alive (.new outbox)) pid = _ := halive
    rcases eq_or_ne pid p with rfl | hne
    · rw [Function.update_self] at halive
      exact .inl ⟨outbox, rfl, opened, unborn, (Lifetime.alive.inj halive).symm⟩
    · rw [Function.update_of_ne hne] at halive
      exact .inr (.inr ⟨hne, halive⟩)
  | @crash p dying alive =>
    replace halive : Function.update s.processes p .dead pid = _ := halive
    rcases eq_or_ne pid p with rfl | hne
    · rw [Function.update_self] at halive
      cases halive
    · rw [Function.update_of_ne hne] at halive
      exact .inr (.inr ⟨hne, halive⟩)
  | @step p before event v alive step =>
    replace halive : Function.update s.processes p (.alive v.process) pid = _ := halive
    rcases eq_or_ne pid p with rfl | hne
    · rw [Function.update_self] at halive
      obtain rfl := Lifetime.alive.inj halive
      exact .inr (.inl ⟨before, event, rfl, alive, step⟩)
    · rw [Function.update_of_ne hne] at halive
      exact .inr (.inr ⟨hne, halive⟩)

/-- Before any process starts: the rows of an older release at most, and a free lock. -/
structure System.Initial (lib : Stdlib) (configs : List BetterHindsightConfig) (s : System) :
    Prop where
  table : OlderRelease lib configs s.table
  lock : s.lock = none
  unborn : ∀ pid, s.processes pid = .unborn

/-! ## A process on its own -/

/-- The system in which process 0 lives and no other was ever started. -/
def View.solo (v : View) : System :=
  ⟨v.table, v.lock, fun pid => if pid = 0 then .alive v.process else .unborn⟩

theorem View.solo_step {lib : Stdlib} {configs : List BetterHindsightConfig} {v v' : View}
    {event : LocalEvent} (h : LocalStep lib 0 v event v') :
    SystemStep lib configs v.solo (0, .step event) v'.solo := by
  have hsame : Function.update v.solo.processes 0 (.alive v'.process) = v'.solo.processes := by
    funext pid
    simp only [View.solo, Function.update_apply]
    split <;> rfl
  have hstep : SystemStep lib configs v.solo _ _ := .step (if_pos rfl) h
  rw [hsame] at hstep
  exact hstep

/-- The runs of one process are runs of the system. -/
theorem Run.solo {lib : Stdlib} {configs : List BetterHindsightConfig} {v v' : View}
    {tr : List (Transition View LocalEvent)} (h : Run (LocalStep lib 0) v tr v') :
    Run (SystemStep lib configs) v.solo
      (tr.map fun e => ⟨e.before.solo, (0, .step e.label), e.after.solo⟩) v'.solo := by
  induction h with
  | nil => exact .nil
  | snoc hr hl ih =>
    rw [List.map_append]
    exact ih.snoc (View.solo_step hl)

/-- What the loop does is done by the process. -/
theorem Run.ofLoop {lib : Stdlib} {pid : ℕ} {v : View} {r : ProcessRunner}
    {tr : List (Transition ProcessRunner (RunnerEvent (Option RetainSegment) Outcome))}
    (h : Run (RunnerStep .cancelled) v.process.runner tr r) (hloop : ∀ e ∈ tr, e.label.OfLoop) :
    ∃ tr', Run (LocalStep lib pid) v tr' { v with process := { v.process with runner := r } } := by
  induction h with
  | nil => exact ⟨_, .nil⟩
  | @snoc a b tr' event hr hl ih =>
    obtain ⟨tr'', hrun⟩ := ih fun e he => hloop e (List.mem_append_left _ he)
    have hevent : event.OfLoop := hloop ⟨a, event, b⟩ (by simp)
    have hbackground : IsBackground a event := by
      cases event <;> trivial
    exact ⟨_, hrun.snoc (.runner hbackground hl)⟩

/-- Process 0 as owner over two rows of an older release, the second of another destination. -/
def legacyOwner (pc : SenderPc) (wake : Bool) (runner : ProcessRunner) : View :=
  ⟨legacyTable, some 0, { Process.new SQLiteOutbox.defaultHandle with pc, wake, runner }⟩

/-- The sender starts, takes the lock and goes on to its first claim. -/
theorem exists_claiming_run : ∃ tr, Run (LocalStep (.ofDigests destinationDigests) 0)
    ⟨legacyTable, none, .new SQLiteOutbox.defaultHandle⟩ tr (legacyOwner .claiming false .new) := by
  have hrecover : SQLiteOutbox.defaultHandle.recoverSending ⟨true, true⟩ (.finite 0) [] legacyTable =
      (.applied 0, legacyTable) := by
    have hsame : legacyTable.recovered 0 = legacyTable := by decide +kernel
    rw [SQLiteOutbox.recoverSending_ok ⟨rfl, rfl, rfl⟩ (le_refl 0), hsame]
    rfl
  have start : LocalStep (.ofDigests destinationDigests) 0
      ⟨legacyTable, none, .new SQLiteOutbox.defaultHandle⟩ .control _ := .control (.top rfl)
  have acquired := (Run.single start).snoc (.acquire rfl rfl)
  have recovered := acquired.snoc (.recover rfl hrecover)
  have cleared := (recovered.snoc (.control (.ownerTop rfl))).snoc (.control .ownerClear)
  have settled := (cleared.snoc (.control (.ownerCheck rfl))).snoc (.checkSettled rfl rfl rfl)
  exact ⟨_, settled.snoc (.control (.claimCheck rfl))⟩

/-- The first row, claimed at time 1. -/
def legacyClaim : OutboxRow :=
  SQLiteOutbox.claimedRow 1
    (legacyRow ['a'] 0xcc159870e013988d0bc9986bd0730aff7eacc26c88731226ee7004e72df75663)

theorem claimDue_legacyTable :
    SQLiteOutbox.defaultHandle.claimDue ⟨true, true⟩ (.finite 1) [] legacyTable =
      (.claimed legacyClaim, legacyTable.updateRow ['a'] (SQLiteOutbox.claimedProgress 1)) :=
  SQLiteOutbox.claimDue_ok ⟨rfl, rfl, rfl⟩ zero_le_one (by decide +kernel)

/-- The runner that has been handed the retain call of that row. -/
def legacyRunner : ProcessRunner :=
  AsyncRunner.new.setCall 0
    ⟨some (retainSegmentOf (.ofDigests destinationDigests) legacyClaim), .queued, .waiting⟩

/-- The sender waits for the retain call of the first row. -/
def legacyRetain : View :=
  { legacyOwner (.awaiting legacyClaim 0) false legacyRunner with
    table := legacyTable.updateRow ['a'] (SQLiteOutbox.claimedProgress 1) }

theorem exists_retain_run : ∃ tr, Run (LocalStep (.ofDigests destinationDigests) 0)
    ⟨legacyTable, none, .new SQLiteOutbox.defaultHandle⟩ tr legacyRetain := by
  obtain ⟨tr, hrun⟩ := exists_claiming_run
  have claimed := hrun.snoc (.claim rfl claimDue_legacyTable)
  exact ⟨_, claimed.snoc (.startRetain rfl (.schedule rfl rfl rfl))⟩

/-- The two rows, and no process yet. -/
def legacySystem : System := ⟨legacyTable, none, fun _ => .unborn⟩

theorem legacySystem_initial :
    legacySystem.Initial (.ofDigests destinationDigests) [defaultConfig, otherConfig] :=
  ⟨olderRelease_legacyTable, rfl, fun _ => rfl⟩

theorem exists_legacy_run {tr : List (Transition View LocalEvent)} {v : View}
    (h : Run (LocalStep (.ofDigests destinationDigests) 0)
      ⟨legacyTable, none, .new SQLiteOutbox.defaultHandle⟩ tr v) :
    ∃ tr', Run (SystemStep (.ofDigests destinationDigests) [defaultConfig, otherConfig])
      legacySystem tr' v.solo := by
  have hopened : OpenedUnder (.ofDigests destinationDigests) [defaultConfig, otherConfig]
      SQLiteOutbox.defaultHandle :=
    ⟨defaultConfig, by simp, accepted_default _, SQLiteOutbox.handleOf_default⟩
  have start : SystemStep _ _ legacySystem (0, _) _ := .start rfl hopened rfl
  have hsame : Function.update legacySystem.processes 0 (.alive (.new SQLiteOutbox.defaultHandle)) =
      (View.solo ⟨legacyTable, none, .new SQLiteOutbox.defaultHandle⟩).processes := by
    funext pid
    simp only [legacySystem, View.solo, Function.update_apply]
  rw [hsame] at start
  exact ⟨_, (Run.single start).append h.solo⟩

end BetterHindsight
