import BetterHindsight.Management.Missions
import BetterHindsight.Runtime.ReadyQueue

/-! # Applying missions

`apply_missions` on its thread and its calls on the event loop, in any interleaving and with any
remote outcomes and deadlines; the loop may stall for as long as it likes. `write_attempted` is set
by the first step of the PATCH and read by the thread, which chooses the result.

* `ApplyState`, `ApplyState.next`: the two threads, one step at a time.
* `ReadsEarly`: the thread chooses the result while the first step of the PATCH is queued ahead of
  its cancellation.
* `apply_hides_no_write`: only then can a result hide a PATCH. -/

namespace BetterHindsight.Missions
set_option autoImplicit false

/-! ## Results -/

def unknownWriteResult : ManagementResult :=
  ⟨[("command", "missions_apply"), ("outcome", "write_attempted_outcome_unknown"),
    ("result", "error")], 4⟩

def prewriteUnavailable : ManagementResult :=
  fixedError "missions_apply" "mission_prewrite_unavailable"

def runtimeCleanupFailed : ManagementResult := fixedError "missions_apply" "runtime_cleanup_failed"

def alreadyEqual : ManagementResult :=
  ⟨[("command", "missions_apply"), ("outcome", "already_equal"), ("result", "ok")], 0⟩

def verifiedSuccess : ManagementResult :=
  ⟨[("command", "missions_apply"), ("outcome", "verified_success"), ("result", "ok")], 0⟩

/-! ## State -/

/-- The calls of one apply. -/
inductive ApplyCall where
  /-- the first `get_bank_config` -/
  | before
  | dispatchPatch
  | readback
  | closeClient
  deriving DecidableEq

inductive ApplyOutcome where
  | snapshot (snapshot : MissionSnapshot)
  /-- returned without a value -/
  | returned
  /-- raised an `Exception` -/
  | raised
  /-- raised `CancelledError`, which is no `Exception` -/
  | cancelled
  deriving DecidableEq

/-- What an operation can end with that has sent its request or not. -/
def answers : ApplyCall → Bool → ApplyOutcome → Bool
  | .before, true, .snapshot _ | .readback, true, .snapshot _ => true
  | .dispatchPatch, true, .returned => true
  | .closeClient, _, .returned => true
  | _, _, .raised | _, _, .cancelled => true
  | _, _, _ => false

/-- Where the calling thread is. -/
inductive Pc where
  /-- before `AsyncRunner.run` -/
  | calling (call : ApplyCall)
  /-- in `state.result.result(timeout=...)` -/
  | waiting (call : ApplyCall)
  /-- in `_cancel_and_wait` -/
  | draining (call : ApplyCall)
  /-- the call raised an `Exception` -/
  | failed (call : ApplyCall)
  /-- in `wait_for_settlement` of `finalize` -/
  | settling
  /-- before `AsyncRunner.shutdown` -/
  | stopping
  /-- joins the thread of the loop -/
  | joining
  | returned (result : ManagementResult)
  | raised
  deriving DecidableEq

/-- `result` is none before it is chosen and while an exception is on its way out; `failure` is what
closing the client raised. -/
structure ApplyState where
  loop : EventLoop ApplyCall ApplyOutcome
  pc : Pc
  before : Option MissionSnapshot
  result : Option ManagementResult
  failure : Option ApplyOutcome

namespace ApplyState

/-- `write_attempted`, which the body of the PATCH sets before anything else. -/
def writeAttempted (s : ApplyState) : Bool := .dispatchPatch ∈ s.loop.begun

/-- `apply_missions` up to its first call; `created` says whether the runtime could be created. -/
def start (config : MissionConfig) (confirmed authorized created : Bool) : ApplyState where
  loop := .new
  pc :=
    if confirmed = false then .raised
    else if authorized = false then .returned (fixedError "missions_apply" "authorization_required")
    else if desiredMissions config = [] then
      .returned (fixedError "missions_apply" "mission_configuration_missing")
    else if created = false then .returned prewriteUnavailable
    else .calling .before
  before := none
  result := none
  failure := none

/-- The result is chosen, and `finalize` begins. -/
def choose (s : ApplyState) (result : ManagementResult) : ApplyState :=
  { s with result := some result, pc := .settling }

/-- An exception that is no `Exception` leaves the inner `try`. -/
def escape (s : ApplyState) : ApplyState := { s with result := none, pc := .settling }

/-- The end, with what `finalize` came to. -/
def finish (s : ApplyState) (finalized : Bool) : ApplyState :=
  match s.result with
  | none => { s with pc := .raised }
  | some result =>
    if finalized then { s with pc := .returned result }
    else if s.writeAttempted then { s with pc := .returned unknownWriteResult }
    else { s with pc := .returned runtimeCleanupFailed }

/-- `except Exception` of a call. -/
def fail (s : ApplyState) : ApplyCall → ApplyState
  | .before => s.choose prewriteUnavailable
  | .dispatchPatch | .readback =>
    s.choose (if s.writeAttempted then unknownWriteResult else prewriteUnavailable)
  | .closeClient => s.finish false

/-- What the thread does with the outcome of a call. -/
def collect (config : MissionConfig) (s : ApplyState) (call : ApplyCall) :
    ApplyOutcome → Option ApplyState
  | .snapshot snapshot =>
    match call with
    | .before =>
      if missionUpdates (desiredMissions config) snapshot = [] then
        some { s.choose alreadyEqual with before := some snapshot }
      else some { s with before := some snapshot, pc := .calling .dispatchPatch }
    | .readback =>
      match s.before with
      | some before =>
        if snapshot = expectedSnapshot before (missionUpdates (desiredMissions config) before) then
          some (s.choose verifiedSuccess)
        else some { s with pc := .failed .readback }
      | none => none
    | .dispatchPatch | .closeClient => none
  | .returned =>
    match call with
    | .dispatchPatch => some { s with pc := .calling .readback }
    | .closeClient => some { s with pc := .stopping }
    | .before | .readback => none
  | .raised =>
    match call with
    | .closeClient => some { s with failure := some .raised, pc := .stopping }
    | .before | .dispatchPatch | .readback => some { s with pc := .failed call }
  | .cancelled =>
    match call with
    | .closeClient => some { s with failure := some .cancelled, pc := .stopping }
    | .before | .dispatchPatch | .readback => some s.escape

end ApplyState

inductive ApplyEvent where
  | loop (e : LoopEvent ApplyCall ApplyOutcome)
  /-- `call_soon_threadsafe(self._schedule, ...)` -/
  | submit
  /-- no time is left for the call, or the runner refuses it -/
  | refuse
  /-- the result of the call is set -/
  | collect
  /-- the deadline passes with no result set -/
  | expire
  /-- the drain is over: `_publish_unsettled` -/
  | publish
  /-- the `except` clause of the call -/
  | choose
  /-- `wait_for_settlement` returns -/
  | settle
  /-- the shutdown deadline passes -/
  | giveUp
  /-- `call_soon_threadsafe(loop.stop)` -/
  | stop
  /-- the thread of the loop is gone -/
  | join
  deriving DecidableEq

/-- One step of either thread. -/
def ApplyState.next (config : MissionConfig) (s : ApplyState) : ApplyEvent → Option ApplyState
  | .loop e => (s.loop.step .cancelled answers e).map fun loop => { s with loop }
  | .submit =>
    match s.pc with
    | .calling call =>
      if s.loop.unsettledTokens = ∅ then
        some { s with loop := s.loop.callSoon (.schedule call), pc := .waiting call }
      else none
    | _ => none
  | .refuse =>
    match s.pc with
    | .calling call => some { s with pc := .failed call }
    | _ => none
  | .collect =>
    match s.pc with
    | .waiting call =>
      match s.loop.task call with
      | .done outcome => s.collect config call outcome
      | _ => none
    | _ => none
  | .expire =>
    match s.pc with
    | .waiting call =>
      if (s.loop.task call).isDone then none
      else some { s with loop := s.loop.callSoon (.cancel call), pc := .draining call }
    | _ => none
  | .publish =>
    match s.pc with
    | .draining call =>
      let unsettledTokens :=
        if (s.loop.task call).isDone then s.loop.unsettledTokens
        else insert call s.loop.unsettledTokens
      some { s with loop := { s.loop with unsettledTokens }, pc := .failed call }
    | _ => none
  | .choose =>
    match s.pc with
    | .failed call => some (s.fail call)
    | _ => none
  | .settle =>
    match s.pc with
    | .settling =>
      if s.loop.unsettledTokens = ∅ then some { s with pc := .calling .closeClient } else none
    | _ => none
  | .giveUp =>
    match s.pc with
    | .settling => if s.loop.unsettledTokens = ∅ then none else some (s.finish false)
    | .joining => some (s.finish false)
    | _ => none
  | .stop =>
    match s.pc with
    | .stopping => some { s with loop := s.loop.callSoon .stop, pc := .joining }
    | _ => none
  | .join =>
    match s.pc with
    | .joining =>
      if s.loop.stopped then
        match s.failure with
        | none => some (s.finish true)
        | some .cancelled => some { s with pc := .raised }
        | some _ => some (s.finish false)
      else none
    | _ => none

def ApplyStep (config : MissionConfig) (s : ApplyState) (e : ApplyEvent) (s' : ApplyState) : Prop :=
  s.next config e = some s'

/-! ## Property -/

/-- The result does not hide a PATCH: one that denies a write was given with none sent, and a
verified one after a GET, sent after the PATCH, that read the earlier snapshot with every configured
field replaced. -/
structure HidesNoWrite (config : MissionConfig) (s : ApplyState) : Prop where
  denied : ∀ r, s.pc = .returned r →
    r = prewriteUnavailable ∨ r = alreadyEqual ∨ r = runtimeCleanupFailed →
      .dispatchPatch ∉ s.loop.sent
  verified : s.pc = .returned verifiedSuccess → ∃ before after,
    s.loop.task .before = .done (.snapshot before) ∧
      s.loop.task .readback = .done (.snapshot after) ∧ Replaces config before after ∧
      ∃ earlier later, s.loop.sent = earlier ++ .dispatchPatch :: later ∧
        .readback ∉ earlier ∧ .readback ∈ later

/-- The result of a failed PATCH is chosen while its first step is queued ahead of the
cancellation. -/
def ReadsEarly (e : Transition ApplyState ApplyEvent) : Prop :=
  e.label = .choose ∧ e.before.pc = .failed .dispatchPatch ∧
    (e.before.loop.view .dispatchPatch).StartsFirst .dispatchPatch

/-! ## Invariant -/

abbrev Loop := EventLoop ApplyCall ApplyOutcome

/-- The PATCH is sent before any readback. -/
def OrderedSends (l : Loop) : Prop :=
  ∃ earlier later, l.sent = earlier ++ .dispatchPatch :: later ∧ .readback ∉ earlier

/-- The first GET read the snapshot. -/
def Read (l : Loop) (before : Option MissionSnapshot) : Prop :=
  ∃ snapshot, before = some snapshot ∧ (l.view .before).Answered .before (.snapshot snapshot)

def Verified (config : MissionConfig) (l : Loop) : Prop :=
  ∃ before after, (l.view .before).Answered .before (.snapshot before) ∧
    (l.view .readback).Answered .readback (.snapshot after) ∧ Replaces config before after ∧
    OrderedSends l

/-- The result is one that the calls bear out, whatever the loop still does. -/
def Told (config : MissionConfig) (l : Loop) (r : ManagementResult) : Prop :=
  Barred .dispatchPatch (l.view .dispatchPatch) ∧ r ≠ verifiedSuccess ∨
    (l.view .dispatchPatch).begun = true ∧
      (r = unknownWriteResult ∨ r = verifiedSuccess ∧ Verified config l)

/-- What the loop can know about the calls while the thread is at a place. -/
def AtPc (config : MissionConfig) (l : Loop) (before : Option MissionSnapshot)
    (result : Option ManagementResult) : Pc → Prop
  | .calling .before => (l.view .before).Untouched ∧ (l.view .dispatchPatch).Untouched ∧
      (l.view .readback).Untouched
  | .waiting .before => (l.view .before).Handed .before ∧ (l.view .dispatchPatch).Untouched ∧
      (l.view .readback).Untouched
  | .draining .before | .failed .before => (l.view .dispatchPatch).Untouched
  | .calling .dispatchPatch => Read l before ∧ (l.view .dispatchPatch).Untouched ∧
      (l.view .readback).Untouched
  | .waiting .dispatchPatch => Read l before ∧
      (Pending .dispatchPatch (l.view .dispatchPatch) ∨ (l.view .dispatchPatch).begun = true) ∧
      (l.view .readback).Untouched
  | .draining .dispatchPatch | .failed .dispatchPatch =>
      Barred .dispatchPatch (l.view .dispatchPatch) ∨
        (l.view .dispatchPatch).StartsFirst .dispatchPatch ∨
        (l.view .dispatchPatch).begun = true
  | .calling .readback => Read l before ∧ (l.view .dispatchPatch).begun = true ∧
      (l.view .readback).Untouched ∧ OrderedSends l
  | .waiting .readback => Read l before ∧ (l.view .dispatchPatch).begun = true ∧
      (l.view .readback).Handed .readback ∧ OrderedSends l
  | .draining .readback | .failed .readback => (l.view .dispatchPatch).begun = true
  | .settling | .calling .closeClient | .waiting .closeClient | .draining .closeClient
  | .failed .closeClient | .stopping | .joining => ∀ r, result = some r → Told config l r
  | .returned r => Told config l r
  | .raised => True

/-! ## Steps of the loop -/

section LoopSteps
variable {config : MissionConfig} {l l' : Loop} {e : LoopEvent ApplyCall ApplyOutcome}

theorem OrderedSends.loop (h : OrderedSends l) (hstep : l.step .cancelled answers e = some l') :
    OrderedSends l' := by
  obtain ⟨earlier, later, hsent, hnot⟩ := h
  obtain ⟨more, hmore⟩ := EventLoop.sent_mono hstep
  exact ⟨earlier, later ++ more, by rw [hmore, hsent, List.append_assoc, List.cons_append], hnot⟩

theorem Read.loop {before : Option MissionSnapshot} (h : Read l before)
    (hstep : l.step .cancelled answers e = some l') : Read l' before := by
  obtain ⟨snapshot, hbefore, hanswered⟩ := h
  exact ⟨snapshot, hbefore, EventLoop.keeps hstep (fun _ _ => .step) hanswered⟩

theorem Verified.loop (h : Verified config l) (hstep : l.step .cancelled answers e = some l') :
    Verified config l' := by
  obtain ⟨before, after, hbefore, hafter, hreplaces, hsends⟩ := h
  exact ⟨before, after, EventLoop.keeps hstep (fun _ _ => .step) hbefore,
    EventLoop.keeps hstep (fun _ _ => .step) hafter, hreplaces, hsends.loop hstep⟩

theorem Told.loop {r : ManagementResult} (h : Told config l r)
    (hstep : l.step .cancelled answers e = some l') : Told config l' r := by
  rcases h with ⟨hbarred, hr⟩ | ⟨hbegun, hr⟩
  · exact .inl ⟨EventLoop.keeps hstep (fun _ _ => .step) hbarred, hr⟩
  · refine .inr ⟨EventLoop.keeps hstep (fun _ _ => begun_step) hbegun, ?_⟩
    exact hr.imp_right fun h => ⟨h.1, h.2.loop hstep⟩

theorem AtPc.loop {before : Option MissionSnapshot} {result : Option ManagementResult} {pc : Pc}
    (h : AtPc config l before result pc) (hstep : l.step .cancelled answers e = some l') :
    AtPc config l' before result pc := by
  have huntouched : ∀ call, (l.view call).Untouched → (l'.view call).Untouched :=
    fun call => EventLoop.keeps hstep fun _ _ => .step
  have hhanded : ∀ call, (l.view call).Handed call → (l'.view call).Handed call :=
    fun call => EventLoop.keeps hstep fun _ _ => .step
  have hbegun : (l.view .dispatchPatch).begun = true → (l'.view .dispatchPatch).begun = true :=
    EventLoop.keeps hstep fun _ _ => begun_step
  have htold : (∀ r, result = some r → Told config l r) → ∀ r, result = some r → Told config l' r :=
    fun h r hr => (h r hr).loop hstep
  cases pc with
  | calling call =>
    cases call with
    | before => exact ⟨huntouched _ h.1, huntouched _ h.2.1, huntouched _ h.2.2⟩
    | dispatchPatch => exact ⟨h.1.loop hstep, huntouched _ h.2.1, huntouched _ h.2.2⟩
    | readback =>
      obtain ⟨hread, hpatch, hback, hsends⟩ := h
      exact ⟨hread.loop hstep, hbegun hpatch, huntouched _ hback, hsends.loop hstep⟩
    | closeClient => exact htold h
  | waiting call =>
    cases call with
    | before => exact ⟨hhanded _ h.1, huntouched _ h.2.1, huntouched _ h.2.2⟩
    | dispatchPatch =>
      obtain ⟨hread, hpatch, hback⟩ := h
      refine ⟨hread.loop hstep, ?_, huntouched _ hback⟩
      rcases hpatch with hpending | hpatch
      · rcases step_view hstep .dispatchPatch with hsame | hcall
        · rw [hsame]
          exact .inl hpending
        · exact hpending.step hcall
      · exact .inr (hbegun hpatch)
    | readback =>
      obtain ⟨hread, hpatch, hback, hsends⟩ := h
      exact ⟨hread.loop hstep, hbegun hpatch, hhanded _ hback, hsends.loop hstep⟩
    | closeClient => exact htold h
  | draining call | failed call =>
    cases call with
    | before => exact huntouched _ h
    | dispatchPatch =>
      rcases h with hbarred | hfirst | hpatch
      · exact .inl (EventLoop.keeps hstep (fun _ _ => .step) hbarred)
      · rcases step_view hstep .dispatchPatch with hsame | hcall
        · refine .inr (.inl ?_)
          rw [hsame]
          exact hfirst
        · exact .inr (.inr (hfirst.step hcall))
      · exact .inr (.inr (hbegun hpatch))
    | readback => exact hbegun h
    | closeClient => exact htold h
  | settling | stopping | joining => exact htold h
  | returned r => exact Told.loop h hstep
  | raised => trivial

end LoopSteps

/-! ## Steps of the thread -/

section ThreadSteps
variable {config : MissionConfig} {l l' : Loop}

/-- The views of the three calls and the requests are all that a result rests on. -/
theorem Told.congr {r : ManagementResult} (h : Told config l r)
    (hview : ∀ call, call ≠ .closeClient → l'.view call = l.view call) (hsent : l'.sent = l.sent) :
    Told config l' r := by
  have hsends : OrderedSends l → OrderedSends l' := by
    rintro ⟨earlier, later, hl, hnot⟩
    exact ⟨earlier, later, hsent.trans hl, hnot⟩
  rw [Told, Verified, hview .dispatchPatch (by simp), hview .before (by simp),
    hview .readback (by simp)]
  refine h.imp_right fun hbegun => ⟨hbegun.1, hbegun.2.imp_right fun hverified => ?_⟩
  obtain ⟨hr, before, after, hbefore, hafter, hreplaces, hl⟩ := hverified
  exact ⟨hr, before, after, hbefore, hafter, hreplaces, hsends hl⟩

/-- What the thread hands to the loop is about one call. -/
theorem view_handed {callback : Callback ApplyCall} {call : ApplyCall}
    (h : callback.call? = some call) {other : ApplyCall} (hne : other ≠ call) :
    (l.callSoon callback).view other = l.view other := by
  refine view_callSoon_ne fun hsame => hne ?_
  rw [h] at hsame
  exact (Option.some.inj hsame).symm

theorem AtPc.submit {before : Option MissionSnapshot} {result : Option ManagementResult}
    {call : ApplyCall} (h : AtPc config l before result (.calling call)) :
    AtPc config (l.callSoon (.schedule call)) before result (.waiting call) := by
  have hview : ∀ other, other ≠ call →
      (l.callSoon (.schedule call)).view other = l.view other := fun _ => view_handed rfl
  cases call with
  | before =>
    refine ⟨h.1.schedule.handed, ?_, ?_⟩
    · rw [hview _ (by simp)]
      exact h.2.1
    · rw [hview _ (by simp)]
      exact h.2.2
  | dispatchPatch =>
    obtain ⟨⟨snapshot, hbefore, hread⟩, hpatch, hback⟩ := h
    refine ⟨⟨snapshot, hbefore, ?_⟩, .inl hpatch.schedule, ?_⟩
    · rw [hview _ (by simp)]
      exact hread
    · rw [hview _ (by simp)]
      exact hback
  | readback =>
    obtain ⟨⟨snapshot, hbefore, hread⟩, hpatch, hback, hsends⟩ := h
    refine ⟨⟨snapshot, hbefore, ?_⟩, ?_, hback.schedule.handed, hsends⟩
    · rw [hview _ (by simp)]
      exact hread
    · rw [hview _ (by simp)]
      exact hpatch
  | closeClient => exact fun r hr => (h r hr).congr hview rfl

theorem AtPc.refuse {before : Option MissionSnapshot} {result : Option ManagementResult}
    {call : ApplyCall} (h : AtPc config l before result (.calling call)) :
    AtPc config l before result (.failed call) := by
  cases call with
  | before => exact h.2.1
  | dispatchPatch => exact .inl h.2.1.barred
  | readback => exact h.2.1
  | closeClient => exact h

theorem AtPc.expire {before : Option MissionSnapshot} {result : Option ManagementResult}
    {call : ApplyCall} (h : AtPc config l before result (.waiting call)) :
    AtPc config (l.callSoon (.cancel call)) before result (.draining call) := by
  have hview : ∀ other, other ≠ call →
      (l.callSoon (.cancel call)).view other = l.view other := fun _ => view_handed rfl
  cases call with
  | before =>
    have hpatch : ((l.callSoon (.cancel .before)).view .dispatchPatch).Untouched := by
      rw [hview _ (by simp)]
      exact h.2.1
    exact hpatch
  | dispatchPatch =>
    rcases h.2.1 with hpending | hbegun
    · exact hpending.cancel.imp_right .inl
    · exact .inr (.inr hbegun)
  | readback =>
    have hpatch : ((l.callSoon (.cancel .readback)).view .dispatchPatch).begun = true := by
      rw [hview _ (by simp)]
      exact h.2.1
    exact hpatch
  | closeClient => exact fun r hr => (h r hr).congr hview rfl

/-- The invariant: it holds while no result is chosen early. -/
def Inv (config : MissionConfig) (s : ApplyState) : Prop :=
  AtPc config s.loop s.before s.result s.pc

/-- The outcomes of the calls are ones that their operations can have. -/
def HonestCalls (l : Loop) : Prop := ∀ call, (l.view call).Honest .cancelled answers call

theorem inv_finish {s : ApplyState} (h : ∀ r, s.result = some r → Told config s.loop r)
    (finalized : Bool) : Inv config (s.finish finalized) := by
  rw [ApplyState.finish]
  cases hresult : s.result with
  | none => exact trivial
  | some r =>
    have htold := h r hresult
    cases finalized with
    | true => exact htold
    | false =>
      have hattempted : s.writeAttempted = (s.loop.view .dispatchPatch).begun := rfl
      rw [hattempted]
      rcases htold with ⟨hbarred, -⟩ | ⟨hbegun, -⟩
      · rw [hbarred.not_begun]
        exact .inl ⟨hbarred, by decide⟩
      · rw [hbegun]
        exact .inr ⟨hbegun, .inl rfl⟩

theorem inv_choose {s : ApplyState} {r : ManagementResult} (h : Told config s.loop r) :
    Inv config (s.choose r) := by
  intro r' hr'
  obtain rfl := Option.some.inj hr'
  exact h

/-- The `except` clause of a call, unless the PATCH can still begin. -/
theorem inv_fail {s : ApplyState} {call : ApplyCall}
    (h : AtPc config s.loop s.before s.result (.failed call)) :
    Inv config (s.fail call) ∨ call = .dispatchPatch ∧
      (s.loop.view .dispatchPatch).StartsFirst .dispatchPatch := by
  have hattempted : s.writeAttempted = (s.loop.view .dispatchPatch).begun := rfl
  cases call with
  | before => exact .inl (inv_choose (.inl ⟨CallView.Untouched.barred h, by decide⟩))
  | dispatchPatch =>
    rcases h with hbarred | hfirst | hbegun
    · refine .inl (inv_choose (.inl ⟨hbarred, ?_⟩))
      rw [hattempted, hbarred.not_begun]
      decide
    · exact .inr ⟨rfl, hfirst⟩
    · refine .inl (inv_choose (.inr ⟨hbegun, .inl ?_⟩))
      rw [hattempted, hbegun]
      rfl
  | readback =>
    have hbegun : (s.loop.view .dispatchPatch).begun = true := h
    refine .inl (inv_choose (.inr ⟨hbegun, .inl ?_⟩))
    rw [hattempted, hbegun]
    rfl
  | closeClient => exact .inl (inv_finish h false)

/-- A request that was sent is in the list of those. -/
theorem sent_of_honest {call : ApplyCall} {outcome : ApplyOutcome} (hhonest : HonestCalls l)
    (hdone : l.task call = .done outcome) (hcancelled : outcome ≠ .cancelled)
    (hanswers : answers call false outcome = false) : call ∈ l.sent := by
  have hcase := hhonest call outcome (by
    have htask : (l.view call).task = .done outcome := hdone
    rw [htask]
    rfl)
  rcases hcase with hsame | hok
  · exact absurd hsame hcancelled
  · cases hsent : (l.view call).sent with
    | true => exact of_decide_eq_true hsent
    | false =>
      rw [hsent, hanswers] at hok
      cases hok

/-- A PATCH that is over has begun. -/
theorem begun_of_done {outcome : ApplyOutcome} (hdone : l.task .dispatchPatch = .done outcome)
    (h : Pending .dispatchPatch (l.view .dispatchPatch) ∨ (l.view .dispatchPatch).begun = true) :
    (l.view .dispatchPatch).begun = true := by
  refine h.resolve_left fun hpending => ?_
  have htask : (l.view .dispatchPatch).task = .done outcome := hdone
  generalize l.view .dispatchPatch = v at hpending htask
  cases hpending <;> cases htask

theorem orderedSends_of_returned (hhonest : HonestCalls l)
    (hdone : l.task .dispatchPatch = .done .returned) (hback : (l.view .readback).Untouched) :
    OrderedSends l := by
  have hpatch : .dispatchPatch ∈ l.sent := sent_of_honest hhonest hdone (by simp) rfl
  have hnot : .readback ∉ l.sent := by
    have hsent : (l.view .readback).sent = false := by rw [hback]
    exact of_decide_eq_false hsent
  obtain ⟨earlier, later, hl⟩ := List.append_of_mem hpatch
  refine ⟨earlier, later, hl, fun hmem => hnot ?_⟩
  rw [hl]
  exact List.mem_append_left _ hmem

theorem inv_collect {s s' : ApplyState} {call : ApplyCall} {outcome : ApplyOutcome}
    (hhonest : HonestCalls s.loop) (h : AtPc config s.loop s.before s.result (.waiting call))
    (hdone : s.loop.task call = .done outcome) (hnext : s.collect config call outcome = some s') :
    Inv config s' := by
  cases outcome with
  | snapshot snapshot =>
    cases call with
    | before =>
      obtain ⟨hhanded, hpatch, hback⟩ := h
      simp only [ApplyState.collect] at hnext
      split at hnext
      · obtain rfl := Option.some.inj hnext
        exact inv_choose (s := s) (.inl ⟨hpatch.barred, by decide⟩)
      · obtain rfl := Option.some.inj hnext
        exact ⟨⟨snapshot, rfl, hhanded.answered hdone⟩, hpatch, hback⟩
    | readback =>
      obtain ⟨⟨before, hbefore, hread⟩, hpatch, hhanded, hsends⟩ := h
      simp only [ApplyState.collect, hbefore] at hnext
      split at hnext
      · rename_i hexpected
        obtain rfl := Option.some.inj hnext
        refine inv_choose (.inr ⟨hpatch, .inr ⟨rfl, before, snapshot, hread,
          hhanded.answered hdone, ?_, hsends⟩⟩)
        rw [hexpected]
        exact expectedSnapshot_replaces config before
      · obtain rfl := Option.some.inj hnext
        exact hpatch
    | dispatchPatch | closeClient => cases hnext
  | returned =>
    cases call with
    | dispatchPatch =>
      obtain ⟨hread, hpatch, hback⟩ := h
      obtain rfl := Option.some.inj hnext
      exact ⟨hread, begun_of_done hdone hpatch, hback,
        orderedSends_of_returned hhonest hdone hback⟩
    | closeClient =>
      obtain rfl := Option.some.inj hnext
      exact h
    | before | readback => cases hnext
  | raised =>
    cases call with
    | before =>
      obtain rfl := Option.some.inj hnext
      exact h.2.1
    | dispatchPatch =>
      obtain rfl := Option.some.inj hnext
      exact .inr (.inr (begun_of_done hdone h.2.1))
    | readback =>
      obtain rfl := Option.some.inj hnext
      exact h.2.1
    | closeClient =>
      obtain rfl := Option.some.inj hnext
      exact h
  | cancelled =>
    cases call with
    | closeClient =>
      obtain rfl := Option.some.inj hnext
      exact h
    | before | dispatchPatch | readback =>
      obtain rfl := Option.some.inj hnext
      rintro r ⟨⟩

/-- Every step keeps the invariant, apart from a result that is chosen early. -/
theorem inv_next {s s' : ApplyState} {e : ApplyEvent} (hhonest : HonestCalls s.loop)
    (h : Inv config s) (hnext : ApplyStep config s e s') :
    Inv config s' ∨ ReadsEarly ⟨s, e, s'⟩ := by
  obtain ⟨l, pc, before, result, failure⟩ := s
  cases e with
  | loop e =>
    obtain ⟨l', hstep, rfl⟩ := Option.map_eq_some_iff.mp hnext
    exact .inl (AtPc.loop h hstep)
  | submit =>
    cases pc with
    | calling call =>
      simp only [ApplyStep, ApplyState.next] at hnext
      split at hnext
      · obtain rfl := Option.some.inj hnext
        exact .inl (AtPc.submit h)
      · cases hnext
    | _ => cases hnext
  | refuse =>
    cases pc with
    | calling call =>
      obtain rfl := Option.some.inj hnext
      exact .inl (AtPc.refuse h)
    | _ => cases hnext
  | collect =>
    cases pc with
    | waiting call =>
      simp only [ApplyStep, ApplyState.next] at hnext
      split at hnext
      · rename_i hdone
        exact .inl (inv_collect hhonest h hdone hnext)
      · cases hnext
    | _ => cases hnext
  | expire =>
    cases pc with
    | waiting call =>
      simp only [ApplyStep, ApplyState.next] at hnext
      split at hnext
      · cases hnext
      · obtain rfl := Option.some.inj hnext
        exact .inl (AtPc.expire h)
    | _ => cases hnext
  | publish =>
    cases pc with
    | draining call =>
      obtain rfl := Option.some.inj hnext
      refine .inl ?_
      cases call <;> exact h
    | _ => cases hnext
  | choose =>
    cases pc with
    | failed call =>
      obtain rfl := Option.some.inj hnext
      refine (inv_fail h).imp_right ?_
      rintro ⟨rfl, hfirst⟩
      exact ⟨rfl, rfl, hfirst⟩
    | _ => cases hnext
  | settle =>
    cases pc with
    | settling =>
      simp only [ApplyStep, ApplyState.next] at hnext
      split at hnext
      · obtain rfl := Option.some.inj hnext
        exact .inl h
      · cases hnext
    | _ => cases hnext
  | giveUp =>
    cases pc with
    | settling =>
      simp only [ApplyStep, ApplyState.next] at hnext
      split at hnext
      · cases hnext
      · obtain rfl := Option.some.inj hnext
        exact .inl (inv_finish h false)
    | joining =>
      obtain rfl := Option.some.inj hnext
      exact .inl (inv_finish h false)
    | _ => cases hnext
  | stop =>
    cases pc with
    | stopping =>
      obtain rfl := Option.some.inj hnext
      refine .inl fun r hr => (h r hr).congr (fun call _ => ?_) rfl
      exact view_callSoon_ne (by simp [Callback.call?])
    | _ => cases hnext
  | join =>
    cases pc with
    | joining =>
      simp only [ApplyStep, ApplyState.next] at hnext
      split at hnext
      · split at hnext
        · obtain rfl := Option.some.inj hnext
          exact .inl (inv_finish h true)
        · obtain rfl := Option.some.inj hnext
          exact .inl trivial
        · obtain rfl := Option.some.inj hnext
          exact .inl (inv_finish h false)
      · cases hnext
    | _ => cases hnext

theorem finish_loop (s : ApplyState) (finalized : Bool) : (s.finish finalized).loop = s.loop := by
  rw [ApplyState.finish]
  cases s.result <;> cases finalized <;> cases s.writeAttempted <;> rfl

theorem fail_loop (s : ApplyState) (call : ApplyCall) : (s.fail call).loop = s.loop := by
  cases call with
  | before | dispatchPatch | readback => rfl
  | closeClient => exact finish_loop s false

theorem collect_loop {s s' : ApplyState} {call : ApplyCall} {outcome : ApplyOutcome}
    (h : s.collect config call outcome = some s') : s'.loop = s.loop := by
  simp only [ApplyState.collect] at h
  repeat' split at h
  all_goals cases h
  all_goals rfl

/-- What a step does to the loop. -/
theorem loop_next {s s' : ApplyState} {e : ApplyEvent} (hnext : ApplyStep config s e s') :
    (∃ e, s.loop.step .cancelled answers e = some s'.loop) ∨
      (∃ callback, s'.loop = s.loop.callSoon callback) ∨
      ∀ call, s'.loop.view call = s.loop.view call := by
  have hsame : s'.loop = s.loop → ∀ call, s'.loop.view call = s.loop.view call := by
    intro h call
    rw [h]
  cases e with
  | loop e =>
    obtain ⟨l', hstep, rfl⟩ := Option.map_eq_some_iff.mp hnext
    exact .inl ⟨e, hstep⟩
  | submit =>
    simp only [ApplyStep, ApplyState.next] at hnext
    repeat' split at hnext
    all_goals cases hnext
    exact .inr (.inl ⟨_, rfl⟩)
  | expire =>
    simp only [ApplyStep, ApplyState.next] at hnext
    repeat' split at hnext
    all_goals cases hnext
    exact .inr (.inl ⟨_, rfl⟩)
  | stop =>
    simp only [ApplyStep, ApplyState.next] at hnext
    split at hnext
    all_goals cases hnext
    exact .inr (.inl ⟨_, rfl⟩)
  | publish =>
    simp only [ApplyStep, ApplyState.next] at hnext
    split at hnext
    all_goals cases hnext
    exact .inr (.inr fun _ => rfl)
  | collect =>
    simp only [ApplyStep, ApplyState.next] at hnext
    repeat' split at hnext
    · exact .inr (.inr (hsame (collect_loop hnext)))
    all_goals cases hnext
  | choose =>
    simp only [ApplyStep, ApplyState.next] at hnext
    split at hnext
    · cases hnext
      exact .inr (.inr (hsame (fail_loop s _)))
    · cases hnext
  | refuse | settle | giveUp | join =>
    simp only [ApplyStep, ApplyState.next] at hnext
    repeat' split at hnext
    all_goals cases hnext
    all_goals exact .inr (.inr (hsame (by first | rfl | exact finish_loop s _)))

theorem honestCalls_next {s s' : ApplyState} {e : ApplyEvent} (h : HonestCalls s.loop)
    (hnext : ApplyStep config s e s') : HonestCalls s'.loop := by
  intro call
  rcases loop_next hnext with ⟨e, hstep⟩ | ⟨callback, hsoon⟩ | hsame
  · exact EventLoop.keeps hstep (fun _ _ => .step) (h call)
  · rw [hsoon]
    by_cases hcall : callback.call? = some call
    · rw [view_callSoon hcall]
      exact h call
    · rw [view_callSoon_ne hcall]
      exact h call
  · rw [hsame]
    exact h call

theorem inv_start (confirmed authorized created : Bool) :
    Inv config (.start config confirmed authorized created) := by
  have huntouched : ∀ call, ((EventLoop.new : Loop).view call).Untouched := fun call => rfl
  have htold : ∀ r, r ≠ verifiedSuccess → Told config .new r :=
    fun r hr => .inl ⟨(huntouched _).barred, hr⟩
  rw [Inv, ApplyState.start]
  simp only
  split
  · trivial
  · split
    · exact htold _ (by decide)
    · split
      · exact htold _ (by decide)
      · split
        · exact htold _ (by decide)
        · exact ⟨huntouched _, huntouched _, huntouched _⟩

theorem hidesNoWrite_of_inv {s : ApplyState} (hhonest : HonestCalls s.loop) (h : Inv config s) :
    HidesNoWrite config s := by
  refine ⟨fun r hpc hr => ?_, fun hpc => ?_⟩
  · have htold : Told config s.loop r := by
      rw [Inv, hpc] at h
      exact h
    rcases htold with ⟨hbarred, -⟩ | ⟨-, rfl | ⟨rfl, -⟩⟩
    · exact of_decide_eq_false hbarred.not_sent
    · exact absurd hr (by decide)
    · exact absurd hr (by decide)
  · have htold : Told config s.loop verifiedSuccess := by
      rw [Inv, hpc] at h
      exact h
    rcases htold with ⟨-, hr⟩ | ⟨-, hr | ⟨-, hverified⟩⟩
    · exact absurd rfl hr
    · exact absurd hr (by decide)
    · obtain ⟨before, after, hbefore, hafter, hreplaces, earlier, later, hsent, hnot⟩ := hverified
      have hback : .readback ∈ s.loop.sent := sent_of_honest hhonest hafter.1 (by simp) rfl
      refine ⟨before, after, hbefore.1, hafter.1, hreplaces, earlier, later, hsent, hnot, ?_⟩
      rw [hsent] at hback
      simpa [hnot] using hback

end ThreadSteps

/-! ## Runs -/

/-- In every run, either no result hides a PATCH or the result of a failed PATCH was chosen while
its first step was queued ahead of the cancellation. -/
theorem apply_hides_no_write (config : MissionConfig) {confirmed authorized created : Bool}
    {tr : List (Transition ApplyState ApplyEvent)} {s : ApplyState}
    (hrun : Run (ApplyStep config) (.start config confirmed authorized created) tr s) :
    HidesNoWrite config s ∨ ∃ e ∈ tr, ReadsEarly e := by
  have hhonest : HonestCalls (ApplyState.start config confirmed authorized created).loop := by
    rintro call outcome ⟨⟩
  have hhonest' : HonestCalls s.loop :=
    hrun.invariant (I := fun s => HonestCalls s.loop) hhonest fun _ _ _ => honestCalls_next
  have hinv := hrun.persists_or (I := fun s => HonestCalls s.loop) (P := Inv config)
    (E := ReadsEarly) hhonest (fun _ _ _ => honestCalls_next)
    (fun _ _ _ hhonest hstep h => inv_next hhonest h hstep)
    (inv_start confirmed authorized created)
  exact hinv.imp_left (hidesNoWrite_of_inv hhonest')

def teaConfig : MissionConfig := ⟨some "Keep tea.".toList, none⟩

def teaBefore : MissionSnapshot := ⟨⟨true, some "Tea?".toList⟩, ⟨false, none⟩⟩

def teaAfter : MissionSnapshot := ⟨⟨true, some "Keep tea.".toList⟩, ⟨false, none⟩⟩

/-- A call that the loop serves in time. -/
def served (call : ApplyCall) (outcome : ApplyOutcome) : List ApplyEvent :=
  [.submit, .loop .execute, .loop .execute, .loop (.send call), .loop (.finish call outcome),
    .loop .execute, .collect]

def finalized : List ApplyEvent :=
  [.settle, .submit, .loop .execute, .loop .execute, .loop (.finish .closeClient .returned),
    .loop .execute, .collect, .stop, .loop .execute, .join]

def appliedEvents : List ApplyEvent :=
  served .before (.snapshot teaBefore) ++ served .dispatchPatch .returned ++
    served .readback (.snapshot teaAfter) ++ finalized

theorem apply_hides_no_write_applied : ∃ s, s.pc = .returned verifiedSuccess ∧
    appliedEvents.foldlM (ApplyState.next teaConfig) (.start teaConfig true true true) = some s ∧
    HidesNoWrite teaConfig s := by
  have hpc : (appliedEvents.foldlM (ApplyState.next teaConfig)
      (.start teaConfig true true true)).map ApplyState.pc = some (.returned verifiedSuccess) := by
    decide +kernel
  obtain ⟨s, hs, hreturned⟩ := Option.map_eq_some_iff.mp hpc
  obtain ⟨tr, hrun, hlabels⟩ := Run.of_foldlM hs
  refine ⟨s, hreturned, hs, (apply_hides_no_write teaConfig hrun).resolve_right ?_⟩
  rintro ⟨e, he, hchoose, -⟩
  have hmem : ApplyEvent.choose ∈ appliedEvents := by
    rw [← hlabels, ← hchoose]
    exact List.mem_map_of_mem he
  exact absurd hmem (by decide +kernel)

/-- The loop stalls before the first step of the PATCH until the result is chosen. -/
def stalledEvents : List ApplyEvent :=
  served .before (.snapshot teaBefore) ++ [.submit, .loop .execute, .expire, .publish, .choose,
    .loop .execute, .loop (.send .dispatchPatch), .loop .execute,
    .loop (.finish .dispatchPatch .raised), .loop .execute] ++ finalized

/-- Chosen early, the result denies a PATCH that is sent afterwards. -/
example : (stalledEvents.foldlM (ApplyState.next teaConfig) (.start teaConfig true true true)).map
    (fun s => (s.pc, s.loop.sent)) =
      some (.returned prewriteUnavailable, [.before, .dispatchPatch]) := by
  decide +kernel

end BetterHindsight.Missions
