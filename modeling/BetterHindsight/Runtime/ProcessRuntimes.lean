import BetterHindsight.Runtime.Lifecycle

/-! # The process runtime of a process

`acquire_process_runtime` and `finalize_process_runtime` over every runtime that a process ever has,
in any interleaving with the threads that use them.

* `Host`, `HostStep`: the module's globals and the runtimes.
* `lifecycle_safe`: at most one runtime accepts work, and nobody uses what is being closed.
* `refused_after_timeout`: after a `finalize` that timed out nothing is admitted until a later one
  has completed. -/

namespace BetterHindsight.Lifecycle
set_option autoImplicit false

/-- `_ACTIVE_RUNTIME` and `_ACTIVE_FINALIZING`, and every runtime so far. -/
structure Host where
  runtimes : ℕ → Option ProcessRuntime
  activeRuntime : Option ℕ
  activeFinalizing : Bool

namespace Host

def empty : Host := ⟨fun _ => none, none, false⟩

def setRuntime (h : Host) (i : ℕ) (r : ProcessRuntime) : Host :=
  { h with runtimes := Function.update h.runtimes i (some r) }

theorem setRuntime_runtimes (h : Host) (i j : ℕ) (r : ProcessRuntime) :
    (h.setRuntime i r).runtimes j = if j = i then some r else h.runtimes j :=
  Function.update_apply _ _ _ _

end Host

inductive HostEvent where
  /-- `acquire_process_runtime` constructs the runtime `i` -/
  | create (i : ℕ) (retain : Bool)
  /-- `acquire_process_runtime` hands out the active runtime -/
  | acquire (i : ℕ)
  /-- `finalize_process_runtime` up to its call of `finalize` -/
  | begin (i : ℕ)
  | runtime (i : ℕ) (e : RuntimeEvent)
  /-- `except SenderStopError` -/
  | timedOut (i : ℕ)
  /-- `finalize` returned, or raised anything else -/
  | completed (i : ℕ)

inductive HostStep : Host → HostEvent → Host → Prop
  | create {h : Host} {i : ℕ} {retain : Bool} (hfinalizing : h.activeFinalizing = false)
      (hactive : h.activeRuntime = none) (hfresh : h.runtimes i = none) :
      HostStep h (.create i retain)
        { h.setRuntime i (.new retain) with activeRuntime := some i }
  | acquire {h : Host} {i : ℕ} {r : ProcessRuntime} (hfinalizing : h.activeFinalizing = false)
      (hactive : h.activeRuntime = some i) (hruntime : h.runtimes i = some r)
      (haccepting : r.isAccepting = true) : HostStep h (.acquire i) h
  | begin {h : Host} {i : ℕ} {r : ProcessRuntime} (hfinalizing : h.activeFinalizing = false)
      (hactive : h.activeRuntime = some i) (hruntime : h.runtimes i = some r) :
      HostStep h (.begin i)
        { h.setRuntime i { r with finalize := .absent } with activeFinalizing := true }
  /-- A step of a runtime; only `finalize_process_runtime` calls `finalize`. -/
  | runtime {h : Host} {i : ℕ} {r r' : ProcessRuntime} {e : RuntimeEvent}
      (hruntime : h.runtimes i = some r) (step : RuntimeStep r e r')
      (hfinalize : e = .finalize → h.activeFinalizing = true ∧ h.activeRuntime = some i) :
      HostStep h (.runtime i e) (h.setRuntime i r')
  | timedOut {h : Host} {i : ℕ} {r : ProcessRuntime} (hfinalizing : h.activeFinalizing = true)
      (hactive : h.activeRuntime = some i) (hruntime : h.runtimes i = some r)
      (hfinalize : r.finalize = .timedOut) :
      HostStep h (.timedOut i) { h with activeFinalizing := false }
  | completed {h : Host} {i : ℕ} {r : ProcessRuntime} (hfinalizing : h.activeFinalizing = true)
      (hactive : h.activeRuntime = some i) (hruntime : h.runtimes i = some r)
      (hfinalize : r.finalize = .completed) :
      HostStep h (.completed i) { h with activeRuntime := none, activeFinalizing := false }

/-- A step of a runtime that is not the beginning of `finalize`. -/
theorem HostStep.other {h : Host} (i : ℕ) {r r' : ProcessRuntime} {e : RuntimeEvent}
    (hruntime : h.runtimes i = some r) (step : RuntimeStep r e r') (he : e ≠ .finalize) :
    HostStep h (.runtime i e) (h.setRuntime i r') :=
  .runtime hruntime step fun heq => absurd heq he

/-! ## Invariant -/

/-- No call of `finalize` is at work. -/
def ProcessRuntime.Idle (r : ProcessRuntime) : Prop := r.finalize = .absent ∨ r.finalize = .timedOut

structure HostSound (h : Host) : Prop where
  sound : ∀ i r, h.runtimes i = some r → Sound r
  accepting : ∀ i r, h.runtimes i = some r → r.isAccepting = true → h.activeRuntime = some i
  idle : h.activeFinalizing = false → ∀ i r, h.activeRuntime = some i → h.runtimes i = some r →
    r.Idle

theorem hostSound_empty : HostSound .empty where
  sound := by rintro i r ⟨⟩
  accepting := by rintro i r ⟨⟩
  idle := by rintro - i r ⟨⟩

section Runtimes
variable {r r' : ProcessRuntime} {e : RuntimeEvent}

/-- A runtime that was finalized once accepts nothing any more. -/
theorem isAccepting_step (hstep : RuntimeStep r e r') (h : r'.isAccepting = true) :
    r.isAccepting = true := by
  cases hstep with
  | settled => split at h <;> exact h
  | finalize => cases h
  | shutdown => simp [ProcessRuntime.isAccepting] at h
  | _ => exact h

theorem ProcessRuntime.Idle.step (h : r.Idle) (he : e ≠ .finalize) (hstep : RuntimeStep r e r') :
    r'.Idle := by
  cases hstep with
  | finalize => exact absurd rfl he
  | callsDone hfinalize | joined hfinalize | settled hfinalize | outboxClosed hfinalize
  | clientSubmit hfinalize | clientSkipped hfinalize | clientReturned hfinalize
  | shutdown hfinalize =>
    rw [ProcessRuntime.Idle, hfinalize] at h
    rcases h with h | h <;> cases h
  | giveUp => exact .inr rfl
  | _ => exact h

/-- The next call of `finalize` finds the runtime as the last one left it. -/
theorem Sound.beforeFinalize (h : Sound r) (hidle : r.Idle) :
    Sound { r with finalize := .absent } where
  counted := h.counted
  attributed := by
    refine h.attributed.move rfl fun id call _ _ hwaits => waits_finalize hwaits ?_ rfl rfl
    rcases hidle with hidle | hidle
    · rw [hidle]
      simp
    · rw [hidle]
      simp
  begins hsome := absurd rfl hsome
  stage := trivial
  closing hbegun := by
    have hquiet := h.closing hbegun
    exact ⟨hquiet.finalizing, hquiet.active, hquiet.sender, hquiet.settled⟩
  closesOnce := ⟨h.closesOnce.unfinished, h.closesOnce.closes⟩

end Runtimes

theorem HostSound.step {h h' : Host} {l : HostEvent} (hs : HostSound h) (hstep : HostStep h l h') :
    HostSound h' := by
  cases hstep with
  | @create i retain hfinalizing hactive hfresh =>
    refine ⟨fun j r hr => ?_, fun j r hr haccepting => ?_, fun _ j r hj hr => ?_⟩
    · rw [Host.setRuntime_runtimes] at hr
      split at hr
      · cases hr
        exact sound_new retain
      · exact hs.sound j r hr
    · rw [Host.setRuntime_runtimes] at hr
      split at hr
      · rename_i hsame
        rw [hsame]
      · have hnone := hs.accepting j r hr haccepting
        rw [hactive] at hnone
        cases hnone
    · rw [Host.setRuntime_runtimes] at hr
      obtain rfl := Option.some.inj hj
      rw [if_pos rfl] at hr
      cases hr
      exact .inl rfl
  | acquire => exact hs
  | @begin i r hfinalizing hactive hruntime =>
    refine ⟨fun j r' hr => ?_, fun j r' hr haccepting => ?_, by rintro ⟨⟩⟩
    · rw [Host.setRuntime_runtimes] at hr
      split at hr
      · cases hr
        exact (hs.sound i r hruntime).beforeFinalize (hs.idle hfinalizing i r hactive hruntime)
      · exact hs.sound j r' hr
    · rw [Host.setRuntime_runtimes] at hr
      split at hr
      · rename_i hsame
        rw [hsame]
        exact hactive
      · exact hs.accepting j r' hr haccepting
  | @runtime i r r' e hruntime step hfinalize =>
    refine ⟨fun j r'' hr => ?_, fun j r'' hr haccepting => ?_, fun hfinalizing j r'' hj hr => ?_⟩
    · rw [Host.setRuntime_runtimes] at hr
      split at hr
      · cases hr
        exact (hs.sound i r hruntime).step step
      · exact hs.sound j r'' hr
    · rw [Host.setRuntime_runtimes] at hr
      split at hr
      · rename_i hsame
        cases hr
        rw [hsame]
        exact hs.accepting i r hruntime (isAccepting_step step haccepting)
      · exact hs.accepting j r'' hr haccepting
    · rw [Host.setRuntime_runtimes] at hr
      split at hr
      · rename_i hsame
        cases hr
        subst hsame
        have hidle := hs.idle hfinalizing j r hj hruntime
        refine hidle.step (fun heq => ?_) step
        have hbusy : h.activeFinalizing = true := (hfinalize heq).1
        have hfree : h.activeFinalizing = false := hfinalizing
        rw [hbusy] at hfree
        cases hfree
      · exact hs.idle hfinalizing j r'' hj hr
  | @timedOut i r hfinalizing hactive hruntime hfinalize =>
    refine ⟨hs.sound, hs.accepting, fun _ j r' hj hr => ?_⟩
    have hsame : some i = some j := hactive.symm.trans hj
    obtain rfl := Option.some.inj hsame
    obtain rfl := Option.some.inj (hruntime.symm.trans hr)
    exact .inr hfinalize
  | @completed i r hfinalizing hactive hruntime hfinalize =>
    refine ⟨hs.sound, fun j r' hr haccepting => ?_, by rintro - j r' ⟨⟩⟩
    have hsame := hs.accepting j r' hr haccepting
    rw [hactive] at hsame
    obtain rfl := Option.some.inj hsame
    obtain rfl := Option.some.inj (hruntime.symm.trans hr)
    have hfinalizing : r.finalizing = true :=
      (hs.sound i r hruntime).begins (by rw [hfinalize]; simp)
    rw [ProcessRuntime.isAccepting, hfinalizing] at haccepting
    cases haccepting

/-! ## Runs -/

/-- What holds of the runtimes of a process at every moment. -/
structure LifecycleSafe (h : Host) : Prop where
  oneAccepting : ∀ i j r r', h.runtimes i = some r → h.runtimes j = some r' →
    r.isAccepting = true → r'.isAccepting = true → i = j
  unused : ∀ i r, h.runtimes i = some r → CloseBegun r →
    ¬ UsesClient r ∧ ¬ UsesOutbox r ∧ r.sender.isOver = true ∧ r.active = ∅
  closedOnce : ∀ i r, h.runtimes i = some r → r.closes ≤ 1

/-- In every run at most one runtime accepts work; from the first close of a runtime on no operation
and no step of the sender uses its client or its outbox, the sender is over and every operation has
settled; and no client is closed twice. -/
theorem lifecycle_safe {tr : List (Transition Host HostEvent)} {h : Host}
    (hrun : Run HostStep .empty tr h) : LifecycleSafe h := by
  have hs : HostSound h := hrun.invariant hostSound_empty fun _ _ _ => HostSound.step
  refine ⟨fun i j r r' hr hr' ha ha' => ?_, fun i r hr => (hs.sound i r hr).unused,
    fun i r hr => ?_⟩
  · have hi := hs.accepting i r hr ha
    have hj := hs.accepting j r' hr' ha'
    exact Option.some.inj (hi.symm.trans hj)
  · rw [(hs.sound i r hr).closesOnce.closes]
    split <;> omega

/-- A runtime without an outbox, from its creation to the end of its `finalize`. -/
theorem lifecycle_safe_finalized : ∃ h r, LifecycleSafe h ∧ h.runtimes 0 = some r ∧
    r.closes = 1 ∧ r.closed = true := by
  have created := (Run.nil : Run HostStep .empty [] .empty).snoc
    (.create rfl rfl rfl : HostStep _ (.create 0 false) _)
  have begun := created.snoc (.begin rfl rfl rfl)
  have started := begun.snoc
    (@HostStep.runtime _ 0 _ _ _ rfl (.finalize rfl rfl) fun _ => ⟨rfl, rfl⟩)
  have called := started.snoc (.other 0 rfl (.callsDone rfl rfl) (by simp))
  have joined := called.snoc (.other 0 rfl (.joined rfl rfl) (by simp))
  have settled := joined.snoc (.other 0 rfl (.settled rfl rfl rfl) (by simp))
  have submitted := settled.snoc (.other 0 rfl
    (@RuntimeStep.clientSubmit _ 0 _ rfl rfl (.schedule rfl rfl rfl)) (by simp))
  have tasked := submitted.snoc (.other 0 rfl (.runner (by simp) (by rintro ⟨_, _, ⟨⟩, _⟩)
    (@RunnerStep.createTask _ _ _ _ 0 _ rfl rfl)) (by simp))
  have running := tasked.snoc (.other 0 rfl (.runner (by simp) (by rintro ⟨_, _, ⟨⟩, _⟩)
    (@RunnerStep.begin _ _ _ _ 0 _ rfl rfl)) (by simp))
  have closed := running.snoc (.other 0 rfl
    (@RuntimeStep.clientClosed _ 0 _ _ rfl rfl (.finish rfl rfl)) (by simp))
  have set := closed.snoc (.other 0 rfl (.runner (by simp) (by rintro ⟨_, _, ⟨⟩, _⟩)
    (@RunnerStep.setResult _ _ _ _ 0 _ _ rfl rfl rfl)) (by simp))
  have done := set.snoc (.other 0 rfl (.runner (by simp) (by rintro ⟨_, _, ⟨⟩, _⟩)
    (@RunnerStep.complete _ _ _ _ 0 _ _ rfl rfl rfl)) (by simp))
  have collected := done.snoc (.other 0 rfl (.runner (by simp) (by rintro ⟨_, _, ⟨⟩, _⟩)
    (@RunnerStep.collect _ _ _ _ 0 _ _ rfl rfl rfl)) (by simp))
  have returned := collected.snoc (.other 0 rfl (.clientReturned rfl rfl rfl) (by simp))
  have stopped := returned.snoc (.other 0 rfl (.shutdown rfl) (by simp))
  have completed := stopped.snoc (.completed rfl rfl rfl rfl)
  exact ⟨_, _, lifecycle_safe completed, rfl, rfl, rfl⟩

/-- The active runtime accepts no operation any more. -/
def Refusing (h : Host) : Prop :=
  ∃ i r, h.activeRuntime = some i ∧ h.runtimes i = some r ∧ r.finalizing = true

theorem Refusing.step {h h' : Host} {l : HostEvent} (hrefusing : Refusing h)
    (hstep : HostStep h l h') : Refusing h' ∨ ∃ i, l = .completed i := by
  obtain ⟨i, r, hactive, hruntime, hfinalizing⟩ := hrefusing
  cases hstep with
  | create _ hnone =>
    rw [hactive] at hnone
    cases hnone
  | acquire => exact .inl ⟨i, r, hactive, hruntime, hfinalizing⟩
  | @begin j r' _ hactive' hruntime' =>
    obtain rfl := Option.some.inj (hactive.symm.trans hactive')
    obtain rfl := Option.some.inj (hruntime.symm.trans hruntime')
    refine .inl ⟨i, { r with finalize := .absent }, hactive, ?_, hfinalizing⟩
    rw [Host.setRuntime_runtimes, if_pos rfl]
  | @runtime j before after e hruntime' step =>
    by_cases hsame : i = j
    · subst hsame
      obtain rfl := Option.some.inj (hruntime.symm.trans hruntime')
      refine .inl ⟨i, after, hactive, ?_, finalizing_step hfinalizing step⟩
      rw [Host.setRuntime_runtimes, if_pos rfl]
    · refine .inl ⟨i, r, hactive, ?_, hfinalizing⟩
      rw [Host.setRuntime_runtimes, if_neg hsame]
      exact hruntime
  | timedOut => exact .inl ⟨i, r, hactive, hruntime, hfinalizing⟩
  | @completed j => exact .inr ⟨j, rfl⟩

/-- The event admits an operation or a runtime. -/
def HostEvent.Admits : HostEvent → Prop
  | create _ _ | acquire _ | runtime _ (.enter _) => True
  | begin _ | runtime _ _ | timedOut _ | completed _ => False

theorem Refusing.not_admits {h h' : Host} {l : HostEvent} (hrefusing : Refusing h)
    (hs : HostSound h) (hstep : HostStep h l h') : ¬ l.Admits := by
  obtain ⟨i, r, hactive, hruntime, hfinalizing⟩ := hrefusing
  have hnot : ∀ j r', h.runtimes j = some r' → r'.isAccepting = true → False := by
    intro j r' hr' haccepting
    have hj := hs.accepting j r' hr' haccepting
    obtain rfl := Option.some.inj (hactive.symm.trans hj)
    obtain rfl := Option.some.inj (hruntime.symm.trans hr')
    rw [ProcessRuntime.isAccepting, hfinalizing] at haccepting
    cases haccepting
  cases hstep with
  | create _ hnone =>
    rw [hactive] at hnone
    cases hnone
  | acquire _ _ hruntime' haccepting => exact fun _ => hnot _ _ hruntime' haccepting
  | runtime hruntime' step =>
    cases step with
    | enter hthread hopen hclosed =>
      refine fun _ => hnot _ _ hruntime' ?_
      rw [ProcessRuntime.isAccepting, hopen, hclosed]
      rfl
    | _ => exact fun h => h
  | _ => exact fun h => h

theorem refusing_timedOut {h h' : Host} {i : ℕ} (hs : HostSound h)
    (hstep : HostStep h (.timedOut i) h') : Refusing h' := by
  cases hstep with
  | @timedOut _ r hfinalizing hactive hruntime hfinalize =>
    refine ⟨i, r, hactive, hruntime, (hs.sound i r hruntime).begins ?_⟩
    rw [hfinalize]
    simp

/-- After a `finalize` that timed out, no operation enters a runtime and no runtime is created or
handed out until a later `finalize_process_runtime` has completed. -/
theorem refused_after_timeout {tr₁ tr₂ : List (Transition Host HostEvent)}
    {e : Transition Host HostEvent} {h : Host} {i : ℕ}
    (hrun : Run HostStep .empty (tr₁ ++ e :: tr₂) h) (htimeout : e.label = .timedOut i)
    (hnone : ∀ e' ∈ tr₂, ∀ j, e'.label ≠ .completed j) : ∀ e' ∈ tr₂, ¬ e'.label.Admits := by
  obtain ⟨hbefore, hstep, hafter⟩ := hrun.split
  have hs : HostSound e.before := hbefore.invariant hostSound_empty fun _ _ _ => HostSound.step
  have hrefusing : Refusing e.after := refusing_timedOut hs (htimeout ▸ hstep)
  have hquiet : Run (fun a l b => HostStep a l b ∧ ∀ j, l ≠ .completed j) e.after tr₂ h :=
    hafter.restrict hnone
  have hkept := hquiet.invariant_at (I := fun h => HostSound h ∧ Refusing h)
    ⟨hs.step hstep, hrefusing⟩ fun a l b hi hstep' => ?_
  · intro e' he'
    obtain ⟨⟨hsound, hrefuses⟩, hstep', -⟩ := hkept e' he'
    exact hrefuses.not_admits hsound hstep'
  · refine ⟨hi.1.step hstep'.1, (hi.2.step hstep'.1).resolve_right ?_⟩
    rintro ⟨j, rfl⟩
    exact hstep'.2 j rfl

/-- An operation outlasts the first `finalize` and leaves before the second one. -/
theorem refused_after_timeout_retried : ∃ tr : List (Transition Host HostEvent),
    tr.map Transition.label = [.runtime 0 (.leave 7), .begin 0] ∧ ∀ e ∈ tr, ¬ e.label.Admits := by
  have created := (Run.nil : Run HostStep .empty [] .empty).snoc
    (.create rfl rfl rfl : HostStep _ (.create 0 false) _)
  have entered := created.snoc (.other 0 rfl (@RuntimeStep.enter _ 7 rfl rfl rfl) (by simp))
  have begun := entered.snoc (.begin rfl rfl rfl)
  have started := begun.snoc
    (@HostStep.runtime _ 0 _ _ _ rfl (.finalize rfl rfl) fun _ => ⟨rfl, rfl⟩)
  have expired := started.snoc (.other 0 rfl (.giveUp (.inl rfl)) (by simp))
  have raised := expired.snoc (.timedOut rfl rfl rfl rfl)
  have left := raised.snoc (.other 0 rfl (@RuntimeStep.leave _ 7 (.inl rfl)) (by simp))
  have retried := left.snoc (.begin rfl rfl rfl)
  rw [List.append_assoc, List.append_assoc] at retried
  refine ⟨_, ?_, refused_after_timeout retried rfl ?_⟩
  · rfl
  · simp

end BetterHindsight.Lifecycle
