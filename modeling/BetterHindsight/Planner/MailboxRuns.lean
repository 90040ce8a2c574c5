import BetterHindsight.Foundations.Runs
import BetterHindsight.Planner.MailboxChanges

/-! # Runs of the mailbox

The operations of a mailbox as calls on a clock, in any order.

* `MailboxCall`, `MailboxStep`, `HookStep`: calls with their results, and the steps they make.
* `MailboxCall.Effect`: what one call does to the plans and turns of the entry. -/

namespace BetterHindsight
set_option autoImplicit false

/-! ## Calls -/

inductive MailboxOperation where
  | activate (sessionId token : Text)
  | deactivate (token : Text)
  | rebind (token newSessionId expectedParentSessionId : Text)
  | isActive (sessionId : Text)
  | beginTurn (sessionId turnId parentSessionId ownerToken : Text)
  | reserve (args : ReserveArguments)
  | finalize (args : FinalizeArguments)
  | cancel (turnId : Text) (ownerToken : Option Text)
  | consume (sourceQuery sessionId : Text)
  | clearSessionPlans (sessionId : Text)
  | purgeStale

inductive MailboxResult where
  | raised (error : MailboxError)
  | token (token : Option Text)
  | flag (value : Bool)
  | consumed (outcome : HomeState.Consumed)
  | done
  deriving DecidableEq

/-- The result of an operation; one that raises leaves the entry as it is. -/
def MailboxResult.reply {α : Type} (wrap : α → MailboxResult) (mailbox : Mailbox)
    (outcome : Except MailboxError (α × Mailbox)) : MailboxResult × Mailbox :=
  match outcome with
  | .error error => (.raised error, mailbox)
  | .ok (value, next) => (wrap value, next)

structure MailboxCall where
  operation : MailboxOperation
  now : ℚ

open MailboxResult in
def MailboxCall.run (lib : Stdlib) (call : MailboxCall) (m : Mailbox) : MailboxResult × Mailbox :=
  match call.operation with
  | .activate sessionId t => reply (token ∘ some) m (m.activate sessionId t call.now)
  | .deactivate t => reply (fun _ => done) m (m.deactivate t call.now)
  | .rebind t new parent => reply flag m (m.rebind t new parent call.now)
  | .isActive sessionId => reply flag m (m.isActive sessionId call.now)
  | .beginTurn sessionId turnId parent owner =>
    reply token m (m.beginTurn sessionId turnId parent owner call.now)
  | .reserve args => reply flag m (m.reserve lib args call.now)
  | .finalize args => reply flag m (m.finalize args call.now)
  | .cancel turnId owner => reply (fun _ => done) m (m.cancel turnId owner)
  | .consume sourceQuery sessionId =>
    reply consumed m (m.consume lib sourceQuery sessionId call.now)
  | .clearSessionPlans sessionId => reply (fun _ => done) m (m.clearSessionPlans sessionId)
  | .purgeStale => (done, m.purgeStale call.now)

/-- The entry and the time of the last call. -/
structure MailboxWorld where
  mailbox : Mailbox
  clock : ℚ

/-- A new activation has a token of its own. -/
def MailboxOperation.Fresh (m : Mailbox) : MailboxOperation → Prop
  | activate _ token => ∀ state, m = some state → state.activations.get? token = none
  | _ => True

/-- One call, not before the last one. -/
def MailboxStep (lib : Stdlib) (w : MailboxWorld) (call : MailboxCall) (w' : MailboxWorld) : Prop :=
  w.clock ≤ call.now ∧ call.operation.Fresh w.mailbox ∧
    w' = ⟨(call.run lib w.mailbox).2, call.now⟩

/-- A hook reserves, finalizes and cancels with an owner token. -/
def MailboxOperation.HasOwner : MailboxOperation → Prop
  | reserve args => args.ownerToken ≠ none
  | finalize args => args.ownerToken ≠ none
  | cancel _ ownerToken => ownerToken ≠ none
  | _ => True

def HookStep (lib : Stdlib) (w : MailboxWorld) (call : MailboxCall) (w' : MailboxWorld) : Prop :=
  MailboxStep lib w call w' ∧ call.operation.HasOwner

/-! ## Fixed sequences of calls -/

section Sequences
variable (lib : Stdlib)

def MailboxWorld.next (w : MailboxWorld) (call : MailboxCall) : MailboxWorld :=
  ⟨(call.run lib w.mailbox).2, call.now⟩

def MailboxWorld.trace : MailboxWorld → List MailboxCall →
    List (Transition MailboxWorld MailboxCall)
  | _, [] => []
  | w, call :: calls => ⟨w, call, w.next lib call⟩ :: (w.next lib call).trace calls

def MailboxWorld.after (w : MailboxWorld) (calls : List MailboxCall) : MailboxWorld :=
  calls.foldl (MailboxWorld.next lib) w

/-- The calls are possible hooks' and providers' calls, one after the other. -/
def MailboxWorld.Permits : MailboxWorld → List MailboxCall → Prop
  | _, [] => True
  | w, call :: calls => (w.clock ≤ call.now ∧ call.operation.Fresh w.mailbox ∧
      call.operation.HasOwner) ∧ (w.next lib call).Permits calls

variable {lib}

theorem MailboxWorld.labels_trace (w : MailboxWorld) (calls : List MailboxCall) :
    (w.trace lib calls).map Transition.label = calls := by
  induction calls generalizing w with
  | nil => rfl
  | cons call calls ih => rw [trace, List.map_cons, ih]

theorem MailboxWorld.label_mem {w : MailboxWorld} {calls : List MailboxCall}
    {e : Transition MailboxWorld MailboxCall} (h : e ∈ w.trace lib calls) : e.label ∈ calls := by
  have hlabel := List.mem_map_of_mem (f := Transition.label) h
  rwa [labels_trace] at hlabel

theorem MailboxWorld.Permits.run {w : MailboxWorld} {calls : List MailboxCall}
    (h : w.Permits lib calls) : Run (HookStep lib) w (w.trace lib calls) (w.after lib calls) := by
  induction calls generalizing w with
  | nil => exact Run.nil
  | cons call calls ih =>
    obtain ⟨⟨hclock, hfresh, hhas⟩, hrest⟩ := h
    have hstep : HookStep lib w call (w.next lib call) := ⟨⟨hclock, hfresh, rfl⟩, hhas⟩
    exact (Run.single hstep).append (ih hrest)

end Sequences

/-! ## Effects -/

open Mailbox

theorem MailboxResult.reply_cases {α : Type} (wrap : α → MailboxResult) (m : Mailbox)
    (outcome : Except MailboxError (α × Mailbox)) :
    (∃ error, reply wrap m outcome = (.raised error, m)) ∨
      ∃ value next, outcome = .ok (value, next) ∧ reply wrap m outcome = (wrap value, next) := by
  cases outcome with
  | error error => exact .inl ⟨error, rfl⟩
  | ok r => exact .inr ⟨r.1, r.2, rfl, rfl⟩

/-- A call that does not raise. -/
theorem MailboxResult.reply_ok {α : Type} {wrap : α → MailboxResult} {m : Mailbox}
    {outcome : Except MailboxError (α × Mailbox)}
    (h : ∀ error, (reply wrap m outcome).1 ≠ .raised error) :
    ∃ value, outcome = .ok (value, (reply wrap m outcome).2) ∧
      (reply wrap m outcome).1 = wrap value := by
  cases outcome with
  | error error => exact absurd rfl (h error)
  | ok r => exact ⟨r.1, rfl, rfl⟩

/-- A cancelled plan with an evaluation: it has no action and takes none. -/
def StoredPlan.Dead (plan : StoredPlan) : Prop :=
  plan.action = none ∧ plan.publishBefore = some 0

/-- What a call does to the plans and turns of the entry. -/
inductive MailboxCall.Effect (lib : Stdlib) (call : MailboxCall) (m : Mailbox) :
    MailboxResult × Mailbox → Prop
  | forgets {result : MailboxResult} {m' : Mailbox} (h : Forgets m m')
      (hbegin : ∀ s t parent k, call.operation = .beginTurn s t parent k →
        ∀ k', result ≠ .token (some k'))
      (hreserve : ∀ args, call.operation = .reserve args → result ≠ .flag true)
      (hcancel : ∀ t k, call.operation = .cancel t k → result = .done →
        ∀ plan, m'.plan? t = some plan → plan.ownerToken ≠ k) : Effect lib call m (result, m')
  | begins {s t parent k : Text} {m' : Mailbox} (hop : call.operation = .beginTurn s t parent k)
      (h : Begun m m' s t k) : Effect lib call m (.token (some k), m')
  | reserves {args : ReserveArguments} {state : HomeState} {timeout : Option ℚ}
      (hop : call.operation = .reserve args) (hm : m = some state)
      (htimeout : requireTimeout args.publishTimeoutSeconds = .ok timeout)
      (hmay : (state.purgeExpired call.now).mayReserve args = true)
      (hfree : (state.purgeExpired call.now).plans.get? args.turnId = none) :
      Effect lib call m (.flag true, some { state.purgeExpired call.now with
        sequence := state.sequence + 1
        plans := (state.purgeExpired call.now).plans.set args.turnId
          (state.reservedPlan lib args timeout call.now) })
  | finalizes {args : FinalizeArguments} {state : HomeState} {plan : StoredPlan}
      (hop : call.operation = .finalize args) (hm : m = some state)
      (hplan : (state.purgeExpired call.now).plans.get? args.turnId = some plan)
      (hmay : HomeState.mayFinalize plan args call.now = true) :
      Effect lib call m (.flag true, some { state.purgeExpired call.now with
        plans := (state.purgeExpired call.now).plans.set args.turnId
          { plan with action := some args.action, rewrittenQuery := args.rewrittenQuery } })
  | cancels {t : Text} {k : Option Text} {state : HomeState} {plan : StoredPlan}
      (hop : call.operation = .cancel t k) (hm : m = some state)
      (hplan : state.plans.get? t = some plan) (howner : plan.ownerToken = k) :
      Effect lib call m (.done, ({ state with
        plans := state.plans.set t (HomeState.tombstone plan) } : HomeState).dropEmptyHome)

namespace MailboxCall
variable {lib : Stdlib} {call : MailboxCall} {m : Mailbox}

/-- A call that is no hook's. -/
theorem Effect.quiet {r : MailboxResult × Mailbox} (h : Forgets m r.2)
    (hbegin : ∀ s t parent k, call.operation ≠ .beginTurn s t parent k)
    (hreserve : ∀ args, call.operation ≠ .reserve args)
    (hcancel : ∀ t k, call.operation ≠ .cancel t k) : Effect lib call m r :=
  .forgets h (fun s t parent k hop => absurd hop (hbegin s t parent k))
    (fun args hop => absurd hop (hreserve args)) fun t k hop => absurd hop (hcancel t k)

theorem Effect.raised (error : MailboxError) : Effect lib call m (.raised error, m) :=
  .forgets (Forgets.refl m) (fun _ _ _ _ _ _ h => by cases h) (fun _ _ h => by cases h)
    fun _ _ _ h => by cases h

theorem Effect.reply {α : Type} (wrap : α → MailboxResult)
    (outcome : Except MailboxError (α × Mailbox))
    (h : ∀ value m', outcome = .ok (value, m') → Effect lib call m (wrap value, m')) :
    Effect lib call m (MailboxResult.reply wrap m outcome) := by
  cases outcome with
  | error error => exact Effect.raised error
  | ok r => exact h r.1 r.2 rfl

theorem effect (hfresh : call.operation.Fresh m) (howned : m.Owned) :
    Effect lib call m (call.run lib m) := by
  obtain ⟨operation, now⟩ := call
  cases operation with
  | activate s t =>
    exact Effect.reply _ _ fun _ _ h => .quiet (forgets_activate hfresh h) nofun nofun nofun
  | deactivate t =>
    exact Effect.reply _ _ fun _ _ h => .quiet (forgets_deactivate h) nofun nofun nofun
  | rebind t new parent =>
    exact Effect.reply _ _ fun _ _ h => .quiet (forgets_rebind h) nofun nofun nofun
  | isActive s =>
    exact Effect.reply _ _ fun _ _ h => .quiet (forgets_isActive h) nofun nofun nofun
  | beginTurn s t parent k =>
    refine Effect.reply _ _ fun token m' h => ?_
    rcases beginTurn_cases h with ⟨rfl, hforgets⟩ | ⟨rfl, hbegun⟩
    · exact .forgets hforgets (fun _ _ _ _ _ _ h => by cases h) nofun nofun
    · exact .begins rfl hbegun
  | reserve args =>
    refine Effect.reply _ _ fun flag m' h => ?_
    rcases reserve_cases h with ⟨rfl, hforgets⟩ | ⟨rfl, state, timeout, hm, htime, hmay, hfree, rfl⟩
    · exact .forgets hforgets nofun (fun _ _ h => by cases h) nofun
    · exact .reserves rfl hm htime hmay hfree
  | finalize args =>
    refine Effect.reply _ _ fun flag m' h => ?_
    rcases finalize_cases h with ⟨rfl, hforgets⟩ | ⟨rfl, state, plan, hm, hplan, hmay, rfl⟩
    · exact .quiet hforgets nofun nofun nofun
    · exact .finalizes rfl hm hplan hmay
  | cancel t k =>
    refine Effect.reply _ _ fun _ m' h => ?_
    rcases cancel_cases h with ⟨hforgets, hother⟩ | ⟨state, plan, hm, hplan, howner, rfl⟩
    · refine .forgets hforgets nofun nofun fun t' k' hop _ => ?_
      cases hop
      exact hother
    · exact .cancels rfl hm hplan howner
  | consume q s =>
    exact Effect.reply _ _ fun _ _ h => .quiet (consume_cases howned h).1 nofun nofun nofun
  | clearSessionPlans s =>
    exact Effect.reply _ _ fun _ _ h => .quiet (forgets_clearSessionPlans h) nofun nofun nofun
  | purgeStale => exact .quiet forgets_purgeStale nofun nofun nofun

/-- Where a plan that is stored after a call comes from. -/
inductive PlanFate (lib : Stdlib) (call : MailboxCall) (m : Mailbox) (result : MailboxResult)
    (turnId : Text) (plan : StoredPlan) : Prop
  | kept (h : m.plan? turnId = some plan)
      (hreserve : ∀ args, call.operation = .reserve args → result = .flag true →
        args.turnId ≠ turnId)
  | dead (h : plan.Dead)
  | finalized {args : FinalizeArguments} {old : StoredPlan} (hop : call.operation = .finalize args)
      (hresult : result = .flag true) (hturn : args.turnId = turnId)
      (hold : m.plan? turnId = some old) (hmay : HomeState.mayFinalize old args call.now = true)
      (heq : plan = { old with action := some args.action, rewrittenQuery := args.rewrittenQuery })
  | reserved {args : ReserveArguments} {state : HomeState} {timeout : Option ℚ}
      (hop : call.operation = .reserve args) (hresult : result = .flag true)
      (hturn : args.turnId = turnId) (hm : m = some state)
      (htimeout : requireTimeout args.publishTimeoutSeconds = .ok timeout)
      (hmay : (state.purgeExpired call.now).mayReserve args = true)
      (heq : plan = state.reservedPlan lib args timeout call.now)

variable {r : MailboxResult × Mailbox}

theorem Effect.fate (h : Effect lib call m r) {turnId : Text} {plan : StoredPlan}
    (hp : r.2.plan? turnId = some plan) : PlanFate lib call m r.1 turnId plan := by
  cases h with
  | forgets h _ hreserve _ =>
    exact .kept (h.plans hp).1 fun args hop hresult => absurd hresult (hreserve args hop)
  | begins hop h => exact .kept (h.plans hp).1 fun args _ hresult => by cases hresult
  | @reserves args state timeout hop hm htimeout hmay hfree =>
    replace hp : ((state.purgeExpired call.now).plans.set args.turnId _).get? turnId =
      some plan := hp
    rw [Dict.get?_set] at hp
    split at hp
    · rename_i hturn
      cases hp
      exact .reserved hop rfl hturn.symm hm htimeout hmay rfl
    · rename_i hturn
      subst hm
      refine .kept (HomeState.plans_purgeExpired hp).1 fun args' hop' _ => ?_
      rw [hop] at hop'
      cases hop'
      exact fun heq => hturn heq.symm
  | @finalizes args state old hop hm hplan hmay =>
    replace hp : ((state.purgeExpired call.now).plans.set args.turnId _).get? turnId =
      some plan := hp
    subst hm
    rw [Dict.get?_set] at hp
    split at hp
    · rename_i hturn
      cases hp
      subst hturn
      exact .finalized hop rfl rfl (HomeState.plans_purgeExpired hplan).1 hmay rfl
    · refine .kept (HomeState.plans_purgeExpired hp).1 fun args' hop' _ => ?_
      rw [hop] at hop'
      cases hop'
  | @cancels t k state old hop hm hplan howner =>
    replace hp : (state.plans.set t _).get? turnId = some plan :=
      ((Forgets.dropEmptyHome _).plans hp).1
    subst hm
    rw [Dict.get?_set] at hp
    split at hp
    · cases hp
      exact .dead ⟨rfl, rfl⟩
    · refine .kept hp fun args' hop' _ => ?_
      rw [hop] at hop'
      cases hop'

/-- After a turn begins, no plan of the session is left. -/
theorem Effect.begun (h : Effect lib call m r) {s t parent k turnId : Text} {token : Text}
    {plan : StoredPlan} (hop : call.operation = .beginTurn s t parent k)
    (hbegan : r.1 = .token (some token)) (hp : r.2.plan? turnId = some plan) :
    plan.sessionId ≠ s := by
  cases h with
  | forgets _ hbegin _ _ => exact absurd hbegan (hbegin s t parent k hop token)
  | begins hop' h =>
    rw [hop] at hop'
    cases hop'
    exact (h.plans hp).2.1
  | reserves => cases hbegan
  | finalizes => cases hbegan
  | cancels => cases hbegan

/-- After a cancel by its owner, a plan is gone or dead. -/
theorem Effect.cancelled (h : Effect lib call m r) {turnId : Text} {owner : Option Text}
    {plan : StoredPlan} (hop : call.operation = .cancel turnId owner) (hdone : r.1 = .done)
    (hp : r.2.plan? turnId = some plan) (howner : plan.ownerToken = owner) : plan.Dead := by
  cases h with
  | forgets _ _ _ hcancel => exact absurd howner (hcancel turnId owner hop hdone plan hp)
  | @cancels t k state old hop' hm hplan howner' =>
    rw [hop] at hop'
    cases hop'
    replace hp : (state.plans.set turnId _).get? turnId = some plan :=
      ((Forgets.dropEmptyHome _).plans hp).1
    rw [Dict.get?_set, if_pos rfl] at hp
    cases hp
    exact ⟨rfl, rfl⟩
  | _ => cases hdone

/-- A hook's call keeps the plans with their owners. -/
theorem Effect.owned (h : Effect lib call m r) (hhas : call.operation.HasOwner)
    (howned : m.Owned) : r.2.Owned := by
  cases h with
  | forgets h _ _ _ => exact h.owned howned
  | begins hop h => exact h.owned howned
  | @reserves args state timeout hop hm htimeout hmay hfree =>
    subst hm
    rw [hop] at hhas
    obtain ⟨owner, howner⟩ := Option.ne_none_iff_exists'.mp hhas
    obtain ⟨hcurrent, hactive⟩ := current_of_mayReserve howner hmay
    exact ((Forgets.purgeExpired state call.now).owned howned).setPlan (state.sequence + 1) howner
      hcurrent hactive
  | @finalizes args state old hop hm hplan hmay =>
    subst hm
    have hpurged := (Forgets.purgeExpired state call.now).owned howned
    obtain ⟨owner, howner, hcurrent, hactive⟩ := hpurged args.turnId old hplan
    exact hpurged.setPlan state.sequence howner hcurrent hactive
  | @cancels t k state old hop hm hplan howner =>
    subst hm
    obtain ⟨owner, howner', hcurrent, hactive⟩ := howned t old hplan
    exact (Forgets.dropEmptyHome _).owned (howned.setPlan state.sequence howner' hcurrent hactive)

/-- A turn that is current after a call was so before, or was begun by the call. -/
theorem Effect.current (h : Effect lib call m r) {sessionId turnId owner : Text}
    (hcurrent : r.2.current? sessionId = some (turnId, owner)) :
    (m.current? sessionId = some (turnId, owner) ∧ ∀ t parent k,
        call.operation = .beginTurn sessionId t parent k → ∀ k', r.1 ≠ .token (some k')) ∨
      ((∃ parent, call.operation = .beginTurn sessionId turnId parent owner) ∧
        r.1 = .token (some owner)) := by
  cases h with
  | forgets h hbegin _ _ =>
    exact .inl ⟨h.current hcurrent, fun t parent k hop => hbegin _ t parent k hop⟩
  | @begins s t parent k m' hop h =>
    by_cases hs : sessionId = s
    · subst hs
      rw [h.begun] at hcurrent
      cases hcurrent
      exact .inr ⟨⟨parent, hop⟩, rfl⟩
    · refine .inl ⟨h.current hs hcurrent, fun t' parent' k' hop' => ?_⟩
      rw [hop] at hop'
      cases hop'
      exact absurd rfl hs
  | @reserves args state timeout hop hm htimeout hmay hfree =>
    subst hm
    exact .inl ⟨hcurrent, fun _ _ _ _ _ h => by cases h⟩
  | @finalizes args state old hop hm hplan hmay =>
    subst hm
    exact .inl ⟨hcurrent, fun _ _ _ _ _ h => by cases h⟩
  | @cancels t k state old hop hm hplan howner =>
    subst hm
    have hkept := (Forgets.dropEmptyHome _).current hcurrent
    exact .inl ⟨hkept, fun _ _ _ _ _ h => by cases h⟩

theorem keepsRedirects_reply {α : Type} (wrap : α → MailboxResult)
    (outcome : Except MailboxError (α × Mailbox))
    (h : ∀ value m', outcome = .ok (value, m') → KeepsRedirects m m') :
    KeepsRedirects m (MailboxResult.reply wrap m outcome).2 := by
  cases outcome with
  | error error => exact KeepsRedirects.refl m
  | ok r => exact h r.1 r.2 rfl

/-- A redirect that is new after a call was made by a bridge from an active parent. -/
theorem redirects {source : Text} {redirect : Text × Text}
    (h : (call.run lib m).2.redirect? source = some redirect) :
    m.redirect? source = some redirect ∨ source ≠ [] ∧ ∃ owner,
      call.operation = .beginTurn redirect.1 redirect.2 source owner ∧
        (call.run lib m).1 = .token (some owner) ∧ m.IsActive source := by
  obtain ⟨operation, now⟩ := call
  cases operation with
  | beginTurn s t parent k =>
    rcases MailboxResult.reply_cases .token m (m.beginTurn s t parent k now) with
      ⟨error, heq⟩ | ⟨token, m', hok, heq⟩
    · rw [show MailboxCall.run lib ⟨.beginTurn s t parent k, now⟩ m = _ from heq] at h
      exact .inl h
    · rw [show MailboxCall.run lib ⟨.beginTurn s t parent k, now⟩ m = _ from heq] at h ⊢
      rcases beginTurn_redirects hok h with hold | ⟨rfl, hne, rfl, rfl, hactive⟩
      · exact .inl hold
      · exact .inr ⟨hne, k, rfl, rfl, hactive⟩
  | activate s t =>
    exact .inl (keepsRedirects_reply _ _ (fun _ _ hok => activate_redirects hok) _ _ h)
  | deactivate t =>
    exact .inl (keepsRedirects_reply _ _ (fun _ _ hok => deactivate_redirects hok) _ _ h)
  | rebind t new parent =>
    exact .inl (keepsRedirects_reply _ _ (fun _ _ hok => rebind_redirects hok) _ _ h)
  | isActive s =>
    exact .inl (keepsRedirects_reply _ _ (fun _ _ hok => isActive_redirects hok) _ _ h)
  | reserve args =>
    exact .inl (keepsRedirects_reply _ _ (fun _ _ hok => reserve_redirects hok) _ _ h)
  | finalize args =>
    exact .inl (keepsRedirects_reply _ _ (fun _ _ hok => finalize_redirects hok) _ _ h)
  | cancel t k =>
    exact .inl (keepsRedirects_reply _ _ (fun _ _ hok => cancel_redirects hok) _ _ h)
  | consume q s =>
    exact .inl (keepsRedirects_reply _ _ (fun _ _ hok => consume_redirects hok) _ _ h)
  | clearSessionPlans s =>
    exact .inl (keepsRedirects_reply _ _ (fun _ _ hok => clearSessionPlans_redirects hok) _ _ h)
  | purgeStale => exact .inl (purgeStale_redirects _ _ h)

end MailboxCall

end BetterHindsight
