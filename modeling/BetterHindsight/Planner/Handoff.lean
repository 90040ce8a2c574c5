import BetterHindsight.Planner.MailboxRuns

/-! # The hand-off of a plan

Where a plan that `consume` returns comes from, told from the calls of the run.

* `Begins`, `Bridges`, `Reserves`, `Finalizes`, `Returns`: the successful calls.
* `Disturbs`: a call that invalidates the plan of a session.
* `Handover`, `HandedOver`: the reservation that a returned plan comes from.
* `History`: everything stored is told by the calls so far.
* `Run.returned`: a returned plan comes from a reservation that was not returned before. -/

namespace BetterHindsight
set_option autoImplicit false

open Mailbox

abbrev MailboxEvent := Transition MailboxWorld MailboxCall

/-! ## Successful calls -/

section Events
variable (lib : Stdlib) (e : MailboxEvent)

def MailboxEvent.result : MailboxResult := (e.label.run lib e.before.mailbox).1

def Begins (sessionId turnId owner : Text) : Prop :=
  (∃ parent, e.label.operation = .beginTurn sessionId turnId parent owner) ∧
    e.result lib = .token (some owner)

/-- A `begin_turn` that moves the activations of its parent to the session. -/
def Bridges (parent child turnId : Text) : Prop :=
  ∃ owner, e.label.operation = .beginTurn child turnId parent owner ∧
    e.result lib = .token (some owner) ∧ e.before.mailbox.IsActive parent

def Reserves (args : ReserveArguments) : Prop :=
  e.label.operation = .reserve args ∧ e.result lib = .flag true

def Finalizes (args : FinalizeArguments) : Prop :=
  e.label.operation = .finalize args ∧ e.result lib = .flag true

def Returns (sourceQuery sessionId : Text) (plan : RecallPlan) : Prop :=
  e.label.operation = .consume sourceQuery sessionId ∧
    ∃ evaluation, e.result lib = .consumed ⟨some plan, evaluation⟩

/-- The call invalidates the plan that this owner has for the turn of the session. -/
inductive Disturbs (sessionId turnId owner : Text) : Prop
  | begun {turnId' owner' : Text} (h : Begins lib e sessionId turnId' owner')
  | cancelled (h : e.label.operation = .cancel turnId (some owner)) (hdone : e.result lib = .done)
  | cleared (h : e.label.operation = .clearSessionPlans sessionId) (hdone : e.result lib = .done)
  | rebound {token parent : Text} (h : e.label.operation = .rebind token sessionId parent)
      (hmoved : e.result lib = .flag true)
      (hother : e.before.mailbox.activation? token ≠ some sessionId)
  | inactive (h : e.before.mailbox.IsActive sessionId)
      (hlast : ¬ e.after.mailbox.IsActive sessionId)

end Events

/-! ## Histories -/

section Histories
variable (lib : Stdlib)

/-- The latest successful `begin_turn` of the session is for this turn and gave this token. -/
def LastBegin (past : List MailboxEvent) (sessionId turnId owner : Text) : Prop :=
  ∃ before e after, past = before ++ e :: after ∧ Begins lib e sessionId turnId owner ∧
    ∀ x ∈ after, ∀ turnId' owner', ¬ Begins lib x sessionId turnId' owner'

/-- After `past`, the calls for this session concern the turns of `effective`: it is the session
itself, or the child that the session was bridged to for exactly this turn. -/
def ResolvesTo (past : List MailboxEvent) (sessionId effective turnId : Text) : Prop :=
  effective = sessionId ∨ ∃ e ∈ past, Bridges lib e sessionId effective turnId

/-- After the calls `before`, the reservation `r` and the calls `after`, the consume at `now` for
this query and session returns the plan of the reservation. -/
structure Handover (before : List MailboxEvent) (r : MailboxEvent) (after : List MailboxEvent)
    (now : ℚ) (sourceQuery sessionId : Text) (plan : RecallPlan) (args : ReserveArguments)
    (owner : Text) : Prop where
  reserved : Reserves lib r args
  turn : args.turnId = plan.turnId
  query : args.sourceQuery = sourceQuery
  session : ResolvesTo lib (before ++ r :: after) sessionId args.sessionId plan.turnId
  ownerToken : args.ownerToken = some owner
  begun : LastBegin lib before args.sessionId plan.turnId owner
  latest : LastBegin lib (before ++ r :: after) args.sessionId plan.turnId owner
  mode : args.mode = plan.mode
  finalized : ∃ f ∈ after, Finalizes lib f ⟨plan.turnId, plan.mode, plan.action,
    plan.rewrittenQuery, some owner⟩ ∧ ∀ timeout,
      args.publishTimeoutSeconds = some (.finite timeout) → f.label.now < r.label.now + timeout
  fresh : now < r.label.now + PLAN_MAX_AGE_SECONDS
  undisturbed : ∀ x ∈ after, ¬ Disturbs lib x args.sessionId plan.turnId owner
  newest : ∀ x ∈ after, ∀ args', Reserves lib x args' → args'.turnId ≠ plan.turnId

/-- The plan that `consume` returns after `past` comes from the reservation at this position. -/
def HandedOver (past : List MailboxEvent) (position : ℕ) (now : ℚ) (sourceQuery sessionId : Text)
    (plan : RecallPlan) : Prop :=
  ∃ before r after args owner, past = before ++ r :: after ∧ before.length = position ∧
    Handover lib before r after now sourceQuery sessionId plan args owner

/-- The queries that the run takes digests of. -/
def QueryOf (tr : List MailboxEvent) (text : Text) : Prop :=
  (∃ e ∈ tr, ∃ args, e.label.operation = .reserve args ∧ args.sourceQuery = text) ∨
    ∃ e ∈ tr, ∃ sessionId, e.label.operation = .consume text sessionId

end Histories

/-! ## What a disturbing call leaves -/

section Steps
variable {lib : Stdlib} {w w' : MailboxWorld} {call : MailboxCall}

/-- A disturbing call leaves no live plan of that owner. -/
theorem not_disturbs (hstep : HookStep lib w call w') (howned : w.mailbox.Owned)
    {turnId owner : Text} {plan : StoredPlan} (hp : w'.mailbox.plan? turnId = some plan)
    (howner : plan.ownerToken = some owner) (hlive : ¬ plan.Dead) :
    ¬ Disturbs lib ⟨w, call, w'⟩ plan.sessionId turnId owner := by
  obtain ⟨⟨-, hfresh, rfl⟩, hhas⟩ := hstep
  have heffect := @MailboxCall.effect lib call w.mailbox hfresh howned
  have howned' := heffect.owned hhas howned
  intro hdisturbs
  cases hdisturbs with
  | begun h =>
    obtain ⟨⟨parent, hop⟩, hresult⟩ := h
    exact heffect.begun hop hresult hp rfl
  | cancelled h hdone => exact hlive (heffect.cancelled h hdone hp howner)
  | cleared h hdone =>
    replace h : call.operation = .clearSessionPlans plan.sessionId := h
    have hrun : call.run lib w.mailbox = MailboxResult.reply (fun _ => .done) w.mailbox
        (w.mailbox.clearSessionPlans plan.sessionId) := by
      simp only [MailboxCall.run, h]
    rw [MailboxEvent.result, hrun] at hdone
    obtain ⟨u, hok, -⟩ := MailboxResult.reply_ok (fun error => by rw [hdone]; nofun)
    exact clearSessionPlans_clears hok (hrun ▸ hp) rfl
  | @rebound token parent h hmoved hother =>
    replace h : call.operation = .rebind token plan.sessionId parent := h
    have hrun : call.run lib w.mailbox = MailboxResult.reply .flag w.mailbox
        (w.mailbox.rebind token plan.sessionId parent call.now) := by
      simp only [MailboxCall.run, h]
    rw [MailboxEvent.result, hrun] at hmoved
    obtain ⟨moved, hok, hflag⟩ := MailboxResult.reply_ok (fun error => by rw [hmoved]; nofun)
    rw [hmoved] at hflag
    cases hflag
    exact rebind_clears hok hother (hrun ▸ hp) rfl
  | inactive h hlast =>
    obtain ⟨-, -, -, hactive⟩ := howned' turnId plan hp
    exact hlast hactive

end Steps

/-! ## Stored plans -/

section StoredBy
variable {lib : Stdlib}

/-- The plan that is stored for a turn after the reservation `r` and the calls `after`. -/
structure StoredBy (lib : Stdlib) (before : List MailboxEvent) (r : MailboxEvent)
    (after : List MailboxEvent) (turnId : Text) (plan : StoredPlan) (args : ReserveArguments)
    (owner : Text) : Prop where
  reserved : Reserves lib r args
  turn : args.turnId = turnId
  digest : plan.queryDigest = (lib.sha256Text args.sourceQuery).text
  session : plan.sessionId = args.sessionId
  mode : plan.mode = args.mode
  expires : plan.expiresAt = r.label.now + PLAN_MAX_AGE_SECONDS
  ownerToken : args.ownerToken = some owner
  planOwner : plan.ownerToken = some owner
  deadline : ∃ timeout, requireTimeout args.publishTimeoutSeconds = .ok timeout ∧
    plan.publishBefore = timeout.map fun seconds => r.label.now + seconds
  begun : LastBegin lib before args.sessionId turnId owner
  finalized : ∀ action, plan.action = some action → ∃ f ∈ after,
    Finalizes lib f ⟨turnId, plan.mode, action, plan.rewrittenQuery, some owner⟩ ∧
      ∀ deadline, plan.publishBefore = some deadline → f.label.now < deadline
  undisturbed : ∀ x ∈ after, ¬ Disturbs lib x args.sessionId turnId owner
  newest : ∀ x ∈ after, ∀ args', Reserves lib x args' → args'.turnId ≠ turnId
  kept : ∀ x ∈ after, ∀ sourceQuery sessionId plan', Returns lib x sourceQuery sessionId plan' →
    plan'.turnId ≠ turnId

/-- Everything stored is told by the calls so far. -/
structure History (lib : Stdlib) (past : List MailboxEvent) (w : MailboxWorld) : Prop where
  clock : 0 ≤ w.clock
  owned : w.mailbox.Owned
  current : ∀ sessionId turnId owner, w.mailbox.current? sessionId = some (turnId, owner) →
    LastBegin lib past sessionId turnId owner
  redirects : ∀ source child turnId, w.mailbox.redirect? source = some (child, turnId) →
    ∃ e ∈ past, Bridges lib e source child turnId
  plans : ∀ turnId plan, w.mailbox.plan? turnId = some plan → plan.Dead ∨
    ∃ before r after args owner, past = before ++ r :: after ∧
      StoredBy lib before r after turnId plan args owner

theorem History.initial {start : ℚ} (hstart : 0 ≤ start) : History lib [] ⟨none, start⟩ where
  clock := hstart
  owned := fun _ _ h => by cases h
  current := fun _ _ _ h => by cases h
  redirects := fun _ _ _ h => by cases h
  plans := fun _ _ h => by cases h

theorem LastBegin.append {past : List MailboxEvent} {sessionId turnId owner : Text}
    (h : LastBegin lib past sessionId turnId owner) {later : List MailboxEvent}
    (hlater : ∀ e ∈ later, ∀ turnId' owner', ¬ Begins lib e sessionId turnId' owner') :
    LastBegin lib (past ++ later) sessionId turnId owner := by
  obtain ⟨before, b, after, rfl, hb, hafter⟩ := h
  refine ⟨before, b, after ++ later, by simp, hb, fun x hx => ?_⟩
  rcases List.mem_append.mp hx with hx | hx
  · exact hafter x hx
  · exact hlater x hx

theorem LastBegin.snoc {past : List MailboxEvent} {e : MailboxEvent}
    {sessionId turnId owner : Text} (h : LastBegin lib past sessionId turnId owner)
    (he : ∀ turnId' owner', ¬ Begins lib e sessionId turnId' owner') :
    LastBegin lib (past ++ [e]) sessionId turnId owner := by
  refine h.append fun x hx => ?_
  rw [List.mem_singleton] at hx
  exact hx ▸ he

variable {w w' : MailboxWorld} {call : MailboxCall} {past : List MailboxEvent}

/-- The turns that are current after a call. -/
theorem History.current_step (h : History lib past w) (hstep : HookStep lib w call w')
    {sessionId turnId owner : Text}
    (hcurrent : w'.mailbox.current? sessionId = some (turnId, owner)) :
    LastBegin lib (past ++ [⟨w, call, w'⟩]) sessionId turnId owner := by
  obtain ⟨⟨-, hfresh, rfl⟩, -⟩ := hstep
  have heffect := @MailboxCall.effect lib call w.mailbox hfresh h.owned
  rcases heffect.current hcurrent with ⟨hold, hquiet⟩ | ⟨hop, hresult⟩
  · refine (h.current _ _ _ hold).snoc fun turnId' owner' hb => ?_
    obtain ⟨⟨parent, hop⟩, hresult⟩ := hb
    exact hquiet turnId' parent owner' hop owner' hresult
  · exact ⟨past, _, [], rfl, ⟨hop, hresult⟩, fun x hx => by cases hx⟩

/-- A call that keeps a live plan. -/
theorem StoredBy.snoc {before after : List MailboxEvent} {r e : MailboxEvent} {turnId owner : Text}
    {plan : StoredPlan} {args : ReserveArguments}
    (h : StoredBy lib before r after turnId plan args owner)
    (hquiet : ¬ Disturbs lib e args.sessionId turnId owner)
    (hreserve : ∀ args', Reserves lib e args' → args'.turnId ≠ turnId)
    (hkept : ∀ sourceQuery sessionId plan', Returns lib e sourceQuery sessionId plan' →
      plan'.turnId ≠ turnId) :
    StoredBy lib before r (after ++ [e]) turnId plan args owner where
  reserved := h.reserved
  turn := h.turn
  digest := h.digest
  session := h.session
  mode := h.mode
  expires := h.expires
  ownerToken := h.ownerToken
  planOwner := h.planOwner
  deadline := h.deadline
  begun := h.begun
  finalized := fun action haction => by
    obtain ⟨f, hf, hfinal⟩ := h.finalized action haction
    exact ⟨f, List.mem_append_left _ hf, hfinal⟩
  undisturbed := by
    intro x hx
    rcases List.mem_append.mp hx with hx | hx
    · exact h.undisturbed x hx
    · rw [List.mem_singleton] at hx
      exact hx ▸ hquiet
  newest := by
    intro x hx
    rcases List.mem_append.mp hx with hx | hx
    · exact h.newest x hx
    · rw [List.mem_singleton] at hx
      exact hx ▸ hreserve
  kept := by
    intro x hx
    rcases List.mem_append.mp hx with hx | hx
    · exact h.kept x hx
    · rw [List.mem_singleton] at hx
      exact hx ▸ hkept

/-- A plan that `consume` returns is gone after the call. -/
theorem returns_gone (hstep : HookStep lib w call w') (howned : w.mailbox.Owned)
    {sourceQuery sessionId : Text} {plan : RecallPlan}
    (h : Returns lib ⟨w, call, w'⟩ sourceQuery sessionId plan) :
    w'.mailbox.plan? plan.turnId = none ∧
      ∃ stored, Takes lib w.mailbox sourceQuery sessionId call.now plan stored := by
  obtain ⟨⟨-, -, rfl⟩, -⟩ := hstep
  obtain ⟨hop, evaluation, hresult⟩ := h
  replace hop : call.operation = .consume sourceQuery sessionId := hop
  have hrun : call.run lib w.mailbox = MailboxResult.reply .consumed w.mailbox
      (w.mailbox.consume lib sourceQuery sessionId call.now) := by
    simp only [MailboxCall.run, hop]
  rw [MailboxEvent.result, hrun] at hresult
  obtain ⟨outcome, hok, hconsumed⟩ := MailboxResult.reply_ok (fun error => by rw [hresult]; nofun)
  rw [hresult] at hconsumed
  cases hconsumed
  have hgone := (consume_cases howned hok).2 plan rfl
  rw [← hrun] at hgone
  exact hgone

theorem mayFinalize_iff {plan : StoredPlan} {args : FinalizeArguments} {now : ℚ} :
    HomeState.mayFinalize plan args now = true ↔ plan.action = none ∧ plan.mode = args.mode ∧
      plan.ownerToken = args.ownerToken ∧
      ∀ deadline, plan.publishBefore = some deadline → now < deadline := by
  unfold HomeState.mayFinalize
  simp only [Bool.and_eq_true, beq_iff_eq, Option.isNone_iff_eq_none, and_assoc]
  cases plan.publishBefore with
  | none => simp
  | some deadline => simp

/-- The decision of a successful `finalize`. -/
theorem StoredBy.finalize {before after : List MailboxEvent} {r e : MailboxEvent}
    {turnId owner : Text} {plan : StoredPlan} {args : ReserveArguments}
    (h : StoredBy lib before r after turnId plan args owner) {final : FinalizeArguments}
    (he : Finalizes lib e final) (hturn : final.turnId = turnId)
    (hmay : HomeState.mayFinalize plan final e.label.now = true)
    (hquiet : ¬ Disturbs lib e args.sessionId turnId owner)
    (hkept : ∀ sourceQuery sessionId plan', Returns lib e sourceQuery sessionId plan' →
      plan'.turnId ≠ turnId) :
    StoredBy lib before r (after ++ [e]) turnId
      { plan with action := some final.action, rewrittenQuery := final.rewrittenQuery } args
      owner := by
  obtain ⟨-, hmode, howner, hdeadline⟩ := mayFinalize_iff.mp hmay
  have hreserve : ∀ args', Reserves lib e args' → args'.turnId ≠ turnId := by
    intro args' hargs
    have hop := he.1
    rw [hargs.1] at hop
    cases hop
  have hsnoc := h.snoc hquiet hreserve hkept
  refine ⟨hsnoc.reserved, hsnoc.turn, hsnoc.digest, hsnoc.session, hsnoc.mode, hsnoc.expires,
    hsnoc.ownerToken, hsnoc.planOwner, hsnoc.deadline, hsnoc.begun, fun action haction => ?_,
    hsnoc.undisturbed, hsnoc.newest, hsnoc.kept⟩
  refine ⟨e, by simp, ?_, hdeadline⟩
  have hargs : final = ⟨turnId, plan.mode, action, final.rewrittenQuery, some owner⟩ := by
    rw [← hturn, hmode, ← Option.some.inj haction, ← h.planOwner, howner]
  show Finalizes lib e ⟨turnId, plan.mode, action, final.rewrittenQuery, some owner⟩
  rw [← hargs]
  exact he

/-- The plans that are stored after a call. -/
theorem History.plans_step (h : History lib past w) (hstep : HookStep lib w call w')
    {turnId : Text} {plan : StoredPlan} (hp : w'.mailbox.plan? turnId = some plan) :
    plan.Dead ∨ ∃ before r after args owner, past ++ [⟨w, call, w'⟩] = before ++ r :: after ∧
      StoredBy lib before r after turnId plan args owner := by
  by_cases hlive : plan.Dead
  · exact .inl hlive
  refine .inr ?_
  have hkept : ∀ sourceQuery sessionId plan',
      Returns lib ⟨w, call, w'⟩ sourceQuery sessionId plan' → plan'.turnId ≠ turnId := by
    intro sourceQuery sessionId plan' hreturns heq
    rw [← heq, (returns_gone hstep h.owned hreturns).1] at hp
    cases hp
  have hquiet : ∀ owner, plan.ownerToken = some owner →
      ¬ Disturbs lib ⟨w, call, w'⟩ plan.sessionId turnId owner := fun owner howner =>
    not_disturbs hstep h.owned hp howner hlive
  have hclock : 0 ≤ call.now := h.clock.trans hstep.1.1
  have hhas := hstep.2
  obtain ⟨-, hfresh, hw'⟩ := hstep.1
  have heffect := @MailboxCall.effect lib call w.mailbox hfresh h.owned
  rw [hw'] at hp
  cases heffect.fate hp with
  | dead hdead => exact absurd hdead hlive
  | kept hold hreserve =>
    rcases h.plans turnId plan hold with hdead | ⟨before, r, after, args, owner, rfl, hstored⟩
    · exact absurd hdead hlive
    · refine ⟨before, r, after ++ [⟨w, call, w'⟩], args, owner, by simp,
        hstored.snoc ?_ ?_ hkept⟩
      · rw [← hstored.session]
        exact hquiet owner hstored.planOwner
      · exact fun args' hargs => hreserve args' hargs.1 hargs.2
  | @finalized final old hop hflag hturn hold hmay heq =>
    obtain ⟨-, -, -, hdeadline⟩ := mayFinalize_iff.mp hmay
    rcases h.plans turnId old hold with hdead | ⟨before, r, after, args, owner, rfl, hstored⟩
    · exact absurd (hdeadline 0 hdead.2) (not_lt.mpr hclock)
    · refine ⟨before, r, after ++ [⟨w, call, w'⟩], args, owner, by simp, ?_⟩
      subst heq
      refine hstored.finalize ⟨hop, hflag⟩ hturn hmay ?_ hkept
      rw [← hstored.session]
      exact hquiet owner hstored.planOwner
  | @reserved args state timeout hop hflag hturn hm htimeout hmay heq =>
    rw [hop] at hhas
    obtain ⟨owner, howner⟩ := Option.ne_none_iff_exists'.mp hhas
    have hcurrent := (current_of_mayReserve howner hmay).1
    rw [hturn] at hcurrent
    have hbegun : LastBegin lib past args.sessionId turnId owner := by
      refine h.current _ _ _ ?_
      rw [hm]
      exact hcurrent
    refine ⟨past, _, [], args, owner, rfl, ⟨⟨hop, hflag⟩, hturn, ?_, ?_, ?_, ?_, howner, ?_,
      ⟨timeout, htimeout, ?_⟩, hbegun, ?_, ?_, ?_, ?_⟩⟩
    all_goals subst heq
    · rfl
    · rfl
    · rfl
    · rfl
    · exact howner
    · rfl
    · intro action haction
      cases haction
    all_goals exact fun x hx => by cases hx

theorem History.snoc (h : History lib past w) (hstep : HookStep lib w call w') :
    History lib (past ++ [⟨w, call, w'⟩]) w' where
  clock := by
    obtain ⟨hclock, -, rfl⟩ := hstep.1
    exact h.clock.trans hclock
  owned := by
    obtain ⟨⟨-, hfresh, rfl⟩, hhas⟩ := hstep
    exact (MailboxCall.effect hfresh h.owned).owned hhas h.owned
  current := fun _ _ _ hcurrent => h.current_step hstep hcurrent
  redirects := fun source child turnId hr => by
    obtain ⟨-, -, rfl⟩ := hstep.1
    rcases MailboxCall.redirects hr with hold | ⟨-, owner, hop, hresult, hactive⟩
    · obtain ⟨e, he, hbridge⟩ := h.redirects source child turnId hold
      exact ⟨e, List.mem_append_left _ he, hbridge⟩
    · exact ⟨⟨w, call, _⟩, List.mem_append_right _ (List.mem_singleton.mpr rfl), owner, hop,
        hresult, hactive⟩
  plans := fun _ _ hp => h.plans_step hstep hp

theorem Run.history {start : ℚ} (hstart : 0 ≤ start) {tr : List MailboxEvent}
    (hrun : Run (HookStep lib) ⟨none, start⟩ tr w) : History lib tr w := by
  induction hrun with
  | nil => exact History.initial hstart
  | snoc _ hstep ih => exact ih.snoc hstep

/-! ## Returned plans -/

theorem requireTimeout_finite {timeout : Option ℚ} {seconds : ℚ}
    (h : requireTimeout (some (.finite seconds)) = .ok timeout) : timeout = some seconds := by
  simp only [requireTimeout] at h
  split at h
  · cases h
  · exact (Except.ok.inj h).symm

theorem Reserves.not_begins {e : MailboxEvent} {args : ReserveArguments} (h : Reserves lib e args)
    (sessionId turnId owner : Text) : ¬ Begins lib e sessionId turnId owner := by
  rintro ⟨⟨parent, hop⟩, -⟩
  rw [h.1] at hop
  cases hop

/-- The stored plan that `consume` takes was handed over. -/
theorem StoredBy.handover {before after : List MailboxEvent} {r : MailboxEvent} {plan : RecallPlan}
    {stored : StoredPlan} {args : ReserveArguments} {owner sourceQuery sessionId : Text} {now : ℚ}
    (h : StoredBy lib before r after plan.turnId stored args owner)
    (htakes : Takes lib w.mailbox sourceQuery sessionId now plan stored)
    (hquery : args.sourceQuery = sourceQuery)
    (hredirects : ∀ child turnId, w.mailbox.redirect? sessionId = some (child, turnId) →
      ∃ e ∈ before ++ r :: after, Bridges lib e sessionId child turnId) :
    Handover lib before r after now sourceQuery sessionId plan args owner where
  reserved := h.reserved
  turn := h.turn
  query := hquery
  session := by
    rw [← h.session]
    cases htakes.resolves with
    | self heq => exact .inl heq
    | bridged hredirect => exact .inr (hredirects _ _ hredirect)
  ownerToken := h.ownerToken
  begun := h.begun
  latest := by
    refine h.begun.append fun e he turnId' owner' hb => ?_
    rcases List.mem_cons.mp he with rfl | he
    · exact h.reserved.not_begins _ _ _ hb
    · exact h.undisturbed e he (.begun hb)
  mode := h.mode.symm.trans htakes.mode.symm
  finalized := by
    obtain ⟨f, hf, hfinal, hdeadline⟩ := h.finalized _ htakes.action
    refine ⟨f, hf, ?_, fun timeout htimeout => ?_⟩
    · rw [htakes.mode, htakes.rewritten]
      exact hfinal
    · obtain ⟨seconds, hseconds, hpublish⟩ := h.deadline
      rw [htimeout] at hseconds
      rw [requireTimeout_finite hseconds] at hpublish
      exact hdeadline _ hpublish
  fresh := h.expires ▸ htakes.fresh
  undisturbed := h.undisturbed
  newest := h.newest

/-- A returned plan comes from a reservation that was not returned before. -/
theorem Run.returned {start : ℚ} (hstart : 0 ≤ start) {tr : List MailboxEvent}
    (hrun : Run (HookStep lib) ⟨none, start⟩ tr w) (hcf : lib.CollisionFree (QueryOf tr))
    {rest : List MailboxEvent} {e : MailboxEvent} {sourceQuery sessionId : Text}
    {plan : RecallPlan} (htr : tr = past ++ e :: rest)
    (hreturns : Returns lib e sourceQuery sessionId plan) :
    ∃ before r after args owner, past = before ++ r :: after ∧
      Handover lib before r after e.label.now sourceQuery sessionId plan args owner ∧
      ∀ x ∈ after, ∀ sourceQuery' sessionId' plan',
        Returns lib x sourceQuery' sessionId' plan' → plan'.turnId ≠ plan.turnId := by
  subst htr
  obtain ⟨hpast, hstep, -⟩ := hrun.split
  have hhistory := hpast.history hstart
  obtain ⟨-, stored, htakes⟩ := returns_gone hstep hhistory.owned hreturns
  rcases hhistory.plans _ _ htakes.present with hdead | ⟨before, r, after, args, owner, rfl, h⟩
  · have haction := htakes.action
    rw [hdead.1] at haction
    cases haction
  · have hquery : args.sourceQuery = sourceQuery := by
      refine hcf _ _ (.inl ⟨r, by simp, args, h.reserved.1, rfl⟩)
        (.inr ⟨e, by simp, sessionId, hreturns.1⟩) (HexDigest.ext ?_)
      rw [← h.digest, htakes.digest]
    exact ⟨before, r, after, args, owner, rfl, h.handover htakes hquery fun child turnId hr =>
      hhistory.redirects _ _ _ hr, h.kept⟩

/-- The reservation of a plan is the last one of its turn. -/
theorem Handover.unique {before after before' after' : List MailboxEvent} {r r' : MailboxEvent}
    {now now' : ℚ} {q s q' s' : Text} {plan plan' : RecallPlan} {args args' : ReserveArguments}
    {owner owner' : Text} (h : Handover lib before r after now q s plan args owner)
    (h' : Handover lib before' r' after' now' q' s' plan' args' owner')
    (hturn : plan.turnId = plan'.turnId)
    (heq : before ++ r :: after = before' ++ r' :: after') : before.length = before'.length := by
  rcases List.append_eq_append_iff.mp heq with ⟨middle, hbefore, hafter⟩ | ⟨middle, hbefore, hafter⟩
  · cases middle with
    | nil => simp [hbefore]
    | cons x middle =>
      obtain ⟨-, rfl⟩ := List.cons.inj hafter
      exact absurd (h'.turn.trans hturn.symm) (h.newest r' (by simp) args' h'.reserved)
  · cases middle with
    | nil => simp [hbefore]
    | cons x middle =>
      obtain ⟨-, rfl⟩ := List.cons.inj hafter
      exact absurd (h.turn.trans hturn) (h'.newest r (by simp) args h.reserved)

end StoredBy

end BetterHindsight
