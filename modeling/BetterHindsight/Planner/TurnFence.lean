import BetterHindsight.Planner.Handoff
import BetterHindsight.Planner.MailboxOrphans

/-! # The fence of a consumed turn

`consume` closes the current turn of its session for ten seconds.

* `HomeState.Fenced`: the turn is closed, is not current and has no plan of the session.
* `MailboxCall.fenced`: the calls that leave the session where it is keep the fence.
* `Issued`: every owner token in the entry was returned by a `begin_turn`.
* `consumed_turn_closed`: what hooks and providers see of a closed turn. -/

namespace BetterHindsight
set_option autoImplicit false

open Mailbox

namespace HomeState

structure Fenced (state : HomeState) (sessionId turnId : Text) (expiresAt : ℚ) : Prop where
  closed : state.closedTurns.get? (sessionId, turnId) = some expiresAt
  current : ∀ {turn}, state.currentTurns.get? sessionId = some turn → turn.1 ≠ turnId
  plan : ∀ {plan}, state.plans.get? turnId = some plan → plan.sessionId ≠ sessionId
  active : state.isActive sessionId = true

namespace Fenced
variable {state : HomeState} {s t : Text} {e now : ℚ}

/-- Neither the turn nor a plan of it is new, and the fence stays. -/
theorem restrict {next : HomeState} (h : state.Fenced s t e)
    (hclosed : next.closedTurns.get? (s, t) = some e)
    (hcurrent : ∀ turn, next.currentTurns.get? s = some turn →
      state.currentTurns.get? s = some turn)
    (hplan : ∀ plan, next.plans.get? t = some plan → ∃ old, state.plans.get? t = some old ∧
      old.sessionId = plan.sessionId)
    (hactive : next.isActive s = true) : next.Fenced s t e where
  closed := hclosed
  current := fun hturn => h.current (hcurrent _ hturn)
  plan := fun hnext => by
    obtain ⟨old, hold, hsession⟩ := hplan _ hnext
    rw [← hsession]
    exact h.plan hold
  active := hactive

theorem purgeExpired (h : state.Fenced s t e) (hnow : now < e) :
    (state.purgeExpired now).Fenced s t e := by
  refine h.restrict ?_ (fun _ hturn => hturn) (fun plan hplan => ?_) h.active
  · show (state.closedTurns.filter _).get? (s, t) = some e
    rw [Dict.get?_filter, h.closed]
    simpa using hnow
  · exact ⟨plan, (plans_purgeExpired hplan).1, rfl⟩

/-- Another session is cleared, or the plans and the turn of this one. -/
theorem clearSession (h : state.Fenced s t e) {other : Text} {includeClosed : Bool}
    (hother : includeClosed = true → other ≠ s) :
    (state.clearSession other includeClosed).Fenced s t e := by
  refine h.restrict ?_ (fun turn hturn => ?_) (fun plan hplan => ?_) h.active
  · show (state.closedTurns.filter _).get? (s, t) = some e
    rw [Dict.get?_filter, h.closed]
    cases includeClosed with
    | false => rfl
    | true => simpa using (hother rfl).symm
  · replace hturn : (state.currentTurns.erase other).get? s = some turn := hturn
    rw [Dict.get?_erase] at hturn
    split at hturn
    · cases hturn
    · exact hturn
  · exact ⟨plan, (plans_clearSession hplan).1, rfl⟩

theorem of_redirects (h : state.Fenced s t e) (redirects : Dict Text (Text × Text)) :
    ({ state with redirects } : HomeState).Fenced s t e :=
  h.restrict h.closed (fun _ hturn => hturn) (fun plan hplan => ⟨plan, hplan, rfl⟩) h.active

theorem bridge (h : state.Fenced s t e) {parent : Text} (hparent : parent ≠ s)
    (sessionId turnId : Text) : (state.bridge parent sessionId turnId).Fenced s t e := by
  set bridged := state.bridge parent sessionId turnId
  have hactive : ({ state with redirects := bridged.redirects, activations := bridged.activations } :
      HomeState).isActive s = true := by
    obtain ⟨token, htoken⟩ := isActive_iff.mp h.active
    refine isActive_iff.mpr ⟨token, ?_⟩
    show (state.activations.mapValues _).get? token = some s
    rw [Dict.get?_mapValues, htoken, Option.map_some, if_neg hparent.symm]
  have hmoved : ({ state with redirects := bridged.redirects, activations := bridged.activations } :
      HomeState).Fenced s t e :=
    h.restrict h.closed (fun _ hturn => hturn) (fun plan hplan => ⟨plan, hplan, rfl⟩) hactive
  exact hmoved.clearSession fun _ => hparent

theorem beginTurn (h : state.Fenced s t e) {sessionId turnId parent owner : Text}
    (hparent : parent ≠ s) : (state.beginTurn sessionId turnId parent owner).2.Fenced s t e := by
  unfold HomeState.beginTurn
  split
  · exact h
  · rename_i hopen
    extract_lets kept parentActive bridged cleared
    have hkept : kept.Fenced s t e := h.of_redirects kept.redirects
    have hbridged : bridged.Fenced s t e := by
      simp only [bridged]
      split
      · exact hkept.bridge hparent sessionId turnId
      · exact hkept
    split
    · have hcleared : cleared.Fenced s t e := hbridged.clearSession (by rintro ⟨⟩)
      refine ⟨hcleared.closed, fun {turn} hturn => ?_, hcleared.plan, hcleared.active⟩
      replace hturn : (cleared.currentTurns.set sessionId (turnId, owner)).get? s = some turn :=
        hturn
      rw [Dict.get?_set] at hturn
      split at hturn
      · -- The closed turn does not begin again.
        rename_i hsession
        cases hturn
        rintro rfl
        rw [← hsession, h.closed] at hopen
        exact hopen rfl
      · exact hcleared.current hturn
    · exact hbridged

/-- With an owner token nothing is reserved for the closed turn. -/
theorem not_mayReserve (h : state.Fenced s t e) {args : ReserveArguments}
    (hsession : args.sessionId = s) (hturn : args.turnId = t) (howner : args.ownerToken ≠ none) :
    state.mayReserve args ≠ true := by
  intro hmay
  obtain ⟨owner, howner⟩ := Option.ne_none_iff_exists'.mp howner
  have hcurrent := (current_of_mayReserve howner hmay).1
  rw [hsession, hturn] at hcurrent
  exact h.current hcurrent rfl

theorem reserve (h : state.Fenced s t e) {lib : Stdlib} {args : ReserveArguments}
    {timeout : Option ℚ}
    (howner : args.sessionId = s → args.turnId = t → args.ownerToken ≠ none) :
    (state.reserve lib args timeout now).2.Fenced s t e := by
  unfold HomeState.reserve
  split
  · rename_i hmay
    rw [Bool.and_eq_true] at hmay
    refine ⟨h.closed, h.current, fun {plan} hplan => ?_, h.active⟩
    replace hplan : (state.plans.set args.turnId _).get? t = some plan := hplan
    rw [Dict.get?_set] at hplan
    split at hplan
    · rename_i hturn
      cases hplan
      exact fun hsession => h.not_mayReserve hsession hturn.symm (howner hsession hturn.symm) hmay.1
    · exact h.plan hplan
  · exact h

theorem changePlan (h : state.Fenced s t e) {turnId : Text} {old plan : StoredPlan}
    (hold : state.plans.get? turnId = some old) (hsession : old.sessionId = plan.sessionId) :
    ({ state with plans := state.plans.set turnId plan } : HomeState).Fenced s t e := by
  refine h.restrict h.closed (fun _ hturn => hturn) (fun plan' hplan => ?_) h.active
  replace hplan : (state.plans.set turnId plan).get? t = some plan' := hplan
  rw [Dict.get?_set] at hplan
  split at hplan
  · rename_i hturn
    cases hplan
    exact ⟨old, hturn ▸ hold, hsession⟩
  · exact ⟨plan', hplan, rfl⟩

theorem filterPlans (h : state.Fenced s t e) (p : Text → StoredPlan → Bool) :
    ({ state with plans := state.plans.filter p } : HomeState).Fenced s t e :=
  h.restrict h.closed (fun _ hturn => hturn)
    (fun plan hplan => ⟨plan, ((Forgets.filterPlans state p).plans hplan).1, rfl⟩) h.active

theorem finalize (h : state.Fenced s t e) (args : FinalizeArguments) :
    (state.finalize args now).2.Fenced s t e := by
  unfold HomeState.finalize
  split
  · exact h
  · rename_i plan hplan
    split
    · exact h.changePlan hplan rfl
    · exact h

theorem cancel (h : state.Fenced s t e) (turnId : Text) (ownerToken : Option Text) :
    (state.cancel turnId ownerToken).Fenced s t e := by
  unfold HomeState.cancel
  split
  · exact h
  · rename_i plan hplan
    split
    · split
      · exact h.filterPlans _
      · exact h.changePlan hplan rfl
    · exact h

/-- Another turn closes. -/
theorem closeTurn (h : state.Fenced s t e) {sessionId turnId owner : Text}
    (hturn : state.currentTurns.get? sessionId = some (turnId, owner)) :
    (state.closeTurn sessionId turnId now).Fenced s t e := by
  have hshrinks := Shrinks.closeTurn state sessionId turnId now
  refine h.restrict ?_ (fun turn hnext => hshrinks.current hnext) (fun plan hplan => ?_) h.active
  · show (state.closedTurns.set (sessionId, turnId) _).get? (s, t) = some e
    rw [Dict.get?_set, if_neg, h.closed]
    intro heq
    obtain ⟨rfl, rfl⟩ := Prod.mk.inj heq
    exact h.current hturn rfl
  · obtain ⟨old, hold, hsession, -⟩ := hshrinks.plans hplan
    exact ⟨old, hold, hsession⟩

theorem takePlan (h : state.Fenced s t e) (lib : Stdlib) (sourceQuery sessionId : Text)
    (redirected : Option Text) :
    (state.takePlan lib sourceQuery sessionId redirected now).2.Fenced s t e := by
  unfold HomeState.takePlan
  extract_lets current closed stored candidates found
  have hclosed : closed.Fenced s t e := by
    simp only [closed, current]
    split
    · rename_i hturn
      exact h.closeTurn hturn
    · exact h
  split
  · exact hclosed
  · exact hclosed.filterPlans _

theorem consume (h : state.Fenced s t e) (lib : Stdlib) (sourceQuery sessionId : Text) :
    (state.consume lib sourceQuery sessionId now).2.Fenced s t e := by
  unfold HomeState.consume
  rcases resolveActiveSession_cases state sessionId with heq | ⟨resolved, heq, -⟩
  · rw [heq]
    exact h.takePlan lib sourceQuery sessionId none
  · rw [heq]
    have hpopped := h.of_redirects (state.redirects.erase sessionId)
    cases resolved with
    | none => exact hpopped
    | some target => exact hpopped.takePlan lib sourceQuery target.1 target.2

/-- `consume` for the session does not find the closed turn. -/
theorem consume_plan (h : state.Fenced s t e) {lib : Stdlib} {sourceQuery : Text}
    {plan : RecallPlan} (hplan : (state.consume lib sourceQuery s now).1.plan = some plan) :
    plan.turnId ≠ t := by
  unfold HomeState.consume resolveActiveSession at hplan
  rw [if_pos h.active] at hplan
  obtain ⟨-, stored, hstored, hsession, -⟩ := takePlan_plan rfl hplan
  rintro rfl
  exact h.plan hstored hsession

/-- `consume` fences the turn that is current. -/
theorem of_consume (hactive : state.isActive s = true) {owner : Text}
    (hturn : state.currentTurns.get? s = some (t, owner)) (lib : Stdlib) (sourceQuery : Text) :
    (state.consume lib sourceQuery s now).2.Fenced s t (now + PLAN_MAX_AGE_SECONDS) := by
  have hclosed : (state.closeTurn s t now).Fenced s t (now + PLAN_MAX_AGE_SECONDS) := by
    refine ⟨?_, fun {turn} hnext => ?_, fun {plan} hnext => ?_, hactive⟩
    · show (state.closedTurns.set (s, t) _).get? (s, t) = _
      rw [Dict.get?_set, if_pos rfl]
    · replace hnext : (state.currentTurns.erase s).get? s = some turn := hnext
      rw [Dict.get?_erase, if_pos rfl] at hnext
      cases hnext
    · replace hnext : (state.plans.erase t).get? t = some plan := hnext
      rw [Dict.get?_erase, if_pos rfl] at hnext
      cases hnext
  unfold HomeState.consume resolveActiveSession
  rw [if_pos hactive]
  show (state.takePlan lib sourceQuery s none now).2.Fenced s t _
  unfold HomeState.takePlan
  extract_lets current closed stored candidates found
  have heq : closed = state.closeTurn s t now := by
    simp only [closed, current, hturn]
  split
  · exact heq ▸ hclosed
  · exact (heq ▸ hclosed : closed.Fenced s t _).filterPlans _

end Fenced

end HomeState

/-! ## Calls -/

def Mailbox.Fenced (m : Mailbox) (s t : Text) (e : ℚ) : Prop :=
  ∃ state, m = some state ∧ state.Fenced s t e

/-- The calls of hooks and of new providers that do not move the activations of the session. -/
def MailboxOperation.Leaves (s : Text) : MailboxOperation → Prop
  | activate _ _ => True
  | isActive _ => True
  | beginTurn sessionId _ parent _ => parent = s → sessionId = s
  | reserve _ => True
  | finalize _ => True
  | cancel _ _ => True
  | consume _ _ => True
  | _ => False

/-- The session does not begin a turn as its own parent. -/
def MailboxOperation.NotOwnParent (s : Text) (operation : MailboxOperation) : Prop :=
  ∀ turnId owner, operation ≠ .beginTurn s turnId s owner

namespace MailboxCall
variable {lib : Stdlib} {call : MailboxCall} {m : Mailbox} {s t : Text} {e : ℚ}

theorem fenced_reply {α : Type} (hm : m.Fenced s t e) (wrap : α → MailboxResult)
    {outcome : Except MailboxError (α × Mailbox)}
    (h : ∀ value m', outcome = .ok (value, m') → m'.Fenced s t e) :
    (MailboxResult.reply wrap m outcome).2.Fenced s t e := by
  cases outcome with
  | error error => exact hm
  | ok r => exact h r.1 r.2 rfl

theorem fenced_dropEmptyHome {state : HomeState} (h : state.Fenced s t e) :
    Mailbox.Fenced state.dropEmptyHome s t e := by
  obtain ⟨token, htoken⟩ := HomeState.isActive_iff.mp h.active
  have hempty : ¬ state.activations.isEmpty = true := fun hempty => by
    rw [Dict.isEmpty_iff.mp hempty token] at htoken
    cases htoken
  refine ⟨state, ?_, h⟩
  unfold HomeState.dropEmptyHome
  rw [Bool.not_eq_true] at hempty
  rw [hempty]
  rfl

theorem fenced (hfresh : call.operation.Fresh m) (hm : m.Fenced s t e) (hnow : call.now < e)
    (hleaves : call.operation.Leaves s) (hparent : call.operation.NotOwnParent s)
    (howner : ∀ args, call.operation = .reserve args → args.ownerToken ≠ none) :
    (call.run lib m).2.Fenced s t e := by
  obtain ⟨operation, now⟩ := call
  obtain ⟨state, rfl, h⟩ := hm
  have hfenced : Mailbox.Fenced (some state) s t e := ⟨state, rfl, h⟩
  have hpurged := h.purgeExpired hnow
  cases operation with
  | activate sessionId token =>
    refine fenced_reply hfenced _ fun _ m' hok => ?_
    obtain ⟨_, -, hok⟩ := bind_ok hok
    cases hok
    have hnone : state.activations.get? token = none := hfresh state rfl
    refine ⟨_, rfl, hpurged.restrict hpurged.closed (fun _ hturn => hturn)
      (fun plan hplan => ⟨plan, hplan, rfl⟩) ?_⟩
    exact HomeState.isActive_iff.mpr
      (@isActive_set (state.purgeExpired now) token sessionId s
        (by rw [show (state.purgeExpired now).activations.get? token = none from hnone]; nofun)
        (HomeState.isActive_iff.mp hpurged.active))
  | isActive sessionId =>
    refine fenced_reply hfenced _ fun _ m' hok => ?_
    obtain ⟨_, -, hok⟩ := bind_ok hok
    cases hok
    exact ⟨_, rfl, hpurged⟩
  | beginTurn sessionId turnId parent owner =>
    refine fenced_reply hfenced _ fun _ m' hok => ?_
    obtain ⟨_, -, hok⟩ := bind_ok hok
    obtain ⟨_, -, hok⟩ := bind_ok hok
    have hne : parent ≠ s := by
      intro heq
      have hsession : sessionId = s := hleaves heq
      subst heq hsession
      exact hparent turnId owner rfl
    cases hok
    exact ⟨_, rfl, hpurged.beginTurn hne⟩
  | reserve args =>
    refine fenced_reply hfenced _ fun _ m' hok => ?_
    obtain ⟨_, -, hok⟩ := bind_ok hok
    obtain ⟨_, -, hok⟩ := bind_ok hok
    obtain ⟨_, -, hok⟩ := bind_ok hok
    obtain ⟨timeout, -, hok⟩ := bind_ok hok
    cases hok
    exact ⟨_, rfl, hpurged.reserve fun _ _ => howner args rfl⟩
  | finalize args =>
    refine fenced_reply hfenced _ fun _ m' hok => ?_
    obtain ⟨_, -, hok⟩ := bind_ok hok
    obtain ⟨_, -, hok⟩ := bind_ok hok
    cases hok
    exact ⟨_, rfl, hpurged.finalize args⟩
  | cancel turnId owner =>
    refine fenced_reply hfenced _ fun _ m' hok => ?_
    obtain ⟨_, -, hok⟩ := bind_ok hok
    cases hok
    exact fenced_dropEmptyHome (h.cancel turnId owner)
  | consume sourceQuery sessionId =>
    refine fenced_reply hfenced _ fun _ m' hok => ?_
    obtain ⟨_, -, hok⟩ := bind_ok hok
    obtain ⟨_, -, hok⟩ := bind_ok hok
    cases hok
    exact ⟨_, rfl, hpurged.consume lib sourceQuery sessionId⟩
  | _ => exact hleaves.elim

/-- `consume` fences the turn that is current. -/
theorem fenced_of_consume {sourceQuery owner : Text} (hm : m.Sound)
    (hop : call.operation = .consume sourceQuery s) (hquery : sourceQuery ≠ []) (hs : s ≠ [])
    (hturn : m.current? s = some (t, owner)) :
    (call.run lib m).2.Fenced s t (call.now + PLAN_MAX_AGE_SECONDS) := by
  obtain ⟨operation, now⟩ := call
  obtain rfl : operation = .consume sourceQuery s := hop
  cases m with
  | none => cases hturn
  | some state =>
    have hactive := (hm state rfl).1.current hturn
    refine ⟨((state.purgeExpired now).consume lib sourceQuery s now).2, ?_, ?_⟩
    · simp only [run, Mailbox.consume, requireText, if_neg hquery, if_neg hs]
      rfl
    · exact @HomeState.Fenced.of_consume (state.purgeExpired now) s t now hactive owner hturn lib
        sourceQuery

end MailboxCall

/-! ## What hooks and providers see -/

section Results
variable {lib : Stdlib} {x : MailboxEvent} {s t : Text} {e : ℚ}

theorem begins_fenced {parent owner : Text} (h : x.before.mailbox.Fenced s t e)
    (hnow : x.label.now < e) (hs : s ≠ []) (ht : t ≠ [])
    (hop : x.label.operation = .beginTurn s t parent owner) : x.result lib = .token none := by
  obtain ⟨before, ⟨operation, now⟩, after⟩ := x
  obtain rfl : operation = .beginTurn s t parent owner := hop
  obtain ⟨state, hstate, hfenced⟩ := h
  replace hstate : before.mailbox = some state := hstate
  have hpurged := hfenced.purgeExpired hnow
  simp only [MailboxEvent.result, MailboxCall.run, hstate, Mailbox.beginTurn, requireText,
    if_neg hs, if_neg ht]
  have hclosed : ((state.purgeExpired now).closedTurns.get? (s, t)).isSome = true := by
    rw [hpurged.closed]
    rfl
  show MailboxResult.token ((state.purgeExpired now).beginTurn s t parent owner).1 = _
  unfold HomeState.beginTurn
  rw [if_pos hclosed]

theorem reserves_fenced {args : ReserveArguments} (h : x.before.mailbox.Fenced s t e)
    (hnow : x.label.now < e) (howner : args.ownerToken ≠ none) (hr : Reserves lib x args) :
    ¬ (args.sessionId = s ∧ args.turnId = t) := by
  rintro ⟨hsession, hturn⟩
  obtain ⟨before, ⟨operation, now⟩, after⟩ := x
  obtain ⟨hop, hresult⟩ := hr
  obtain rfl : operation = .reserve args := hop
  obtain ⟨state, hstate, hfenced⟩ := h
  replace hstate : before.mailbox = some state := hstate
  simp only [MailboxEvent.result, MailboxCall.run, hstate] at hresult
  obtain ⟨reserved, hok, hflag⟩ := MailboxResult.reply_ok (fun error => by rw [hresult]; rintro ⟨⟩)
  rw [hresult] at hflag
  cases hflag
  rcases reserve_cases hok with ⟨hfalse, -⟩ | ⟨-, state', timeout, heq, -, hmay, -, -⟩
  · cases hfalse
  · cases heq
    exact (hfenced.purgeExpired hnow).not_mayReserve hsession hturn howner hmay

theorem returns_fenced {sourceQuery : Text} {plan : RecallPlan}
    (h : x.before.mailbox.Fenced s t e) (hnow : x.label.now < e)
    (hr : Returns lib x sourceQuery s plan) : plan.turnId ≠ t := by
  obtain ⟨before, ⟨operation, now⟩, after⟩ := x
  obtain ⟨hop, evaluation, hresult⟩ := hr
  obtain rfl : operation = .consume sourceQuery s := hop
  obtain ⟨state, hstate, hfenced⟩ := h
  replace hstate : before.mailbox = some state := hstate
  simp only [MailboxEvent.result, MailboxCall.run, hstate] at hresult
  obtain ⟨outcome, hok, hconsumed⟩ :=
    MailboxResult.reply_ok (fun error => by rw [hresult]; rintro ⟨⟩)
  rw [hresult] at hconsumed
  cases hconsumed
  obtain ⟨_, -, hok⟩ := bind_ok hok
  obtain ⟨_, -, hok⟩ := bind_ok hok
  have hplan : ((state.purgeExpired now).consume lib sourceQuery s now).1.plan = some plan :=
    congrArg HomeState.Consumed.plan (Prod.mk.inj (Except.ok.inj hok)).1
  exact (hfenced.purgeExpired hnow).consume_plan hplan

theorem finalizes_plan {args : FinalizeArguments} (hf : Finalizes lib x args) :
    ∃ plan, x.before.mailbox.plan? args.turnId = some plan ∧
      plan.ownerToken = args.ownerToken := by
  obtain ⟨before, ⟨operation, now⟩, after⟩ := x
  obtain ⟨hop, hresult⟩ := hf
  obtain rfl : operation = .finalize args := hop
  simp only [MailboxEvent.result, MailboxCall.run] at hresult
  obtain ⟨finalized, hok, hflag⟩ := MailboxResult.reply_ok (fun error => by rw [hresult]; rintro ⟨⟩)
  rw [hresult] at hflag
  cases hflag
  rcases finalize_cases hok with ⟨hfalse, -⟩ | ⟨-, state, plan, hstate, hplan, hmay, -⟩
  · cases hfalse
  · refine ⟨plan, ?_, ?_⟩
    · show before.mailbox.plan? args.turnId = some plan
      rw [hstate]
      exact (HomeState.plans_purgeExpired hplan).1
    · unfold HomeState.mayFinalize at hmay
      simp only [Bool.and_eq_true, beq_iff_eq] at hmay
      exact hmay.1.2

end Results

/-! ## Owner tokens -/

section Tokens
variable (lib : Stdlib)

/-- The owner tokens of the entry were returned by `begin_turn`, for these turns. -/
structure Issued (past : List MailboxEvent) (m : Mailbox) : Prop where
  current : ∀ {s t owner}, m.current? s = some (t, owner) → ∃ e ∈ past, Begins lib e s t owner
  plans : ∀ {t plan owner}, m.plan? t = some plan → plan.ownerToken = some owner →
    ∃ e ∈ past, Begins lib e plan.sessionId t owner

/-- No two calls of `begin_turn` return the same token. -/
def TokensDistinct (tr : List MailboxEvent) : Prop :=
  tr.Pairwise fun e e' => ∀ s t s' t' owner, Begins lib e s t owner → ¬ Begins lib e' s' t' owner

variable {lib}

theorem Begins.nonempty {e : MailboxEvent} {s t owner : Text} (h : Begins lib e s t owner) :
    s ≠ [] ∧ t ≠ [] := by
  obtain ⟨before, ⟨operation, now⟩, after⟩ := e
  obtain ⟨⟨parent, hop⟩, hresult⟩ := h
  obtain rfl : operation = .beginTurn s t parent owner := hop
  simp only [MailboxEvent.result, MailboxCall.run] at hresult
  obtain ⟨token, hok, -⟩ := MailboxResult.reply_ok (fun error => by rw [hresult]; rintro ⟨⟩)
  obtain ⟨_, hs, hok⟩ := bind_ok hok
  obtain ⟨_, ht, -⟩ := bind_ok hok
  exact ⟨requireText_eq_ok hs, requireText_eq_ok ht⟩

/-- A token is for one turn of one session. -/
theorem TokensDistinct.session {tr : List MailboxEvent} (h : TokensDistinct lib tr)
    {e e' : MailboxEvent} {s t s' t' owner : Text} (he : e ∈ tr) (he' : e' ∈ tr)
    (hb : Begins lib e s t owner) (hb' : Begins lib e' s' t' owner) : s = s' := by
  by_cases heq : e = e'
  · subst heq
    obtain ⟨⟨parent, hop⟩, -⟩ := hb
    obtain ⟨⟨parent', hop'⟩, -⟩ := hb'
    rw [hop] at hop'
    cases hop'
    rfl
  · have hsymm : Std.Symm fun e e' : MailboxEvent => ∀ s t s' t' owner,
        Begins lib e s t owner → ¬ Begins lib e' s' t' owner :=
      ⟨fun e e' hne s t s' t' owner hs hs' => hne s' t' s t owner hs' hs⟩
    exact absurd hb' (List.Pairwise.forall h he he' heq s t s' t' owner hb)

theorem Issued.shrinks {past : List MailboxEvent} {m m' : Mailbox} (h : Issued lib past m)
    (hshrinks : Shrinks m m') : Issued lib past m' where
  current := fun hturn => h.current (hshrinks.current hturn)
  plans := fun hplan howner => by
    obtain ⟨old, hold, hsession, howner'⟩ := hshrinks.plans hplan
    rw [← hsession]
    exact h.plans hold (howner'.trans howner)

theorem Issued.weaken {past : List MailboxEvent} {m : Mailbox} (h : Issued lib past m)
    (e : MailboxEvent) : Issued lib (past ++ [e]) m where
  current := fun hturn => by
    obtain ⟨e', he', hbegins⟩ := h.current hturn
    exact ⟨e', List.mem_append_left _ he', hbegins⟩
  plans := fun hplan howner => by
    obtain ⟨e', he', hbegins⟩ := h.plans hplan howner
    exact ⟨e', List.mem_append_left _ he', hbegins⟩

theorem Issued.snoc {past : List MailboxEvent} {w w' : MailboxWorld} {call : MailboxCall}
    (h : Issued lib past w.mailbox) (hstep : MailboxStep lib w call w') :
    Issued lib (past ++ [⟨w, call, w'⟩]) w'.mailbox := by
  obtain ⟨-, hfresh, rfl⟩ := hstep
  have hchange := @MailboxCall.change lib call w.mailbox hfresh
  have hpast := h.weaken ⟨w, call, ⟨(call.run lib w.mailbox).2, call.now⟩⟩
  generalize hr : call.run lib w.mailbox = r at hchange hpast ⊢
  cases hchange with
  | shrinks hshrinks => exact hpast.shrinks hshrinks
  | @begins s t parent k m' hop hbegun hredirects =>
    refine ⟨fun {s' t' owner} hturn => ?_, fun {t' plan owner} hplan howner => ?_⟩
    · by_cases hs : s' = s
      · subst hs
        rw [hbegun.begun] at hturn
        cases hturn
        refine ⟨_, List.mem_append_right _ (List.mem_singleton_self _), ⟨parent, hop⟩, ?_⟩
        show (call.run lib w.mailbox).1 = _
        rw [hr]
      · exact hpast.current (hbegun.current hs hturn)
    · exact hpast.plans (hbegun.plans hplan).1 howner
  | @reserves args state timeout hop hm hmay =>
    rw [hm] at hpast
    have hpurged := hpast.shrinks (Shrinks.purgeExpired state call.now)
    refine ⟨hpurged.current, fun {t plan owner} hplan howner => ?_⟩
    replace hplan : ((state.purgeExpired call.now).plans.set args.turnId _).get? t =
      some plan := hplan
    rw [Dict.get?_set] at hplan
    split at hplan
    · rename_i hturn
      cases hplan
      rw [hturn]
      exact hpurged.current (current_of_mayReserve howner hmay).1
    · exact hpurged.plans hplan howner

theorem Run.issued {start : ℚ} {tr : List MailboxEvent} {w : MailboxWorld}
    (hrun : Run (MailboxStep lib) ⟨none, start⟩ tr w) : Issued lib tr w.mailbox := by
  induction hrun with
  | nil =>
    constructor
    · intro _ _ _ hturn
      cases hturn
    · intro _ _ _ hplan
      cases hplan
  | snoc _ hstep ih => exact ih.snoc hstep

end Tokens

/-! ## The closed turn -/

section Closed
variable (lib : Stdlib)

/-- A hook reserves, finalizes and cancels with the token that its `begin_turn` returned. -/
def ByHook (past : List MailboxEvent) : MailboxOperation → Prop
  | .reserve args => ∃ e ∈ past, ∃ owner, args.ownerToken = some owner ∧
      Begins lib e args.sessionId args.turnId owner
  | .finalize args => ∃ e ∈ past, ∃ s owner, args.ownerToken = some owner ∧
      Begins lib e s args.turnId owner
  | .cancel turnId ownerToken => ∃ e ∈ past, ∃ s owner, ownerToken = some owner ∧
      Begins lib e s turnId owner
  | _ => True

/-- After `past`, the call `c` consumes for the session while the turn is current, and the calls
`later` come before the turn is forgotten. -/
structure Consumption (past : List MailboxEvent) (c : MailboxEvent) (later : List MailboxEvent)
    (s t : Text) : Prop where
  run : ∃ start w, Run (MailboxStep lib) ⟨none, start⟩ (past ++ c :: later) w
  tokens : TokensDistinct lib (past ++ c :: later)
  turn : ∃ owner, c.before.mailbox.current? s = some (t, owner)
  consumes : ∃ sourceQuery, sourceQuery ≠ [] ∧ c.label.operation = .consume sourceQuery s
  early : ∀ x ∈ later, x.label.now < c.label.now + PLAN_MAX_AGE_SECONDS
  leaves : ∀ x ∈ later, x.label.operation.Leaves s
  hooks : ∀ mid x rest, later = mid ++ x :: rest → ByHook lib (past ++ c :: mid) x.label.operation

/-- The call does not reopen the turn: it does not begin, and hooks and providers get nothing
for it. -/
structure StaysClosed (tr : List MailboxEvent) (s t : Text) (x : MailboxEvent) : Prop where
  begins : ∀ parent owner, x.label.operation = .beginTurn s t parent owner →
    x.result lib = .token none
  reserves : ∀ args, Reserves lib x args → ¬ (args.sessionId = s ∧ args.turnId = t)
  finalizes : ∀ args owner, (∃ e ∈ tr, Begins lib e s t owner) → args.ownerToken = some owner →
    args.turnId = t → ¬ Finalizes lib x args
  consumes : ∀ sourceQuery plan, Returns lib x sourceQuery s plan → plan.turnId ≠ t

variable {lib}

theorem Consumption.fenced {past later : List MailboxEvent} {c : MailboxEvent} {s t : Text}
    (h : Consumption lib past c later s t)
    (hparent : ∀ x ∈ later, x.label.operation.NotOwnParent s) :
    ∀ x ∈ later, x.before.mailbox.Fenced s t (c.label.now + PLAN_MAX_AGE_SECONDS) := by
  obtain ⟨start, w, hrun⟩ := h.run
  obtain ⟨owner, hturn⟩ := h.turn
  obtain ⟨sourceQuery, hquery, hop⟩ := h.consumes
  obtain ⟨hpast, hstep, hlater⟩ := hrun.split
  obtain ⟨e, -, hbegins⟩ := hpast.issued.current hturn
  have hclosed : c.after.mailbox.Fenced s t (c.label.now + PLAN_MAX_AGE_SECONDS) := by
    rw [hstep.2.2]
    exact MailboxCall.fenced_of_consume hpast.sound hop hquery hbegins.nonempty.1 hturn
  let Kept := fun call : MailboxCall => call.now < c.label.now + PLAN_MAX_AGE_SECONDS ∧
    call.operation.Leaves s ∧ call.operation.NotOwnParent s ∧
    ∀ args, call.operation = .reserve args → args.ownerToken ≠ none
  have hcalls : ∀ x ∈ later, Kept x.label := by
    intro x hx
    refine ⟨h.early x hx, h.leaves x hx, hparent x hx, fun args hreserve => ?_⟩
    obtain ⟨mid, rest, hmid⟩ := List.append_of_mem hx
    have hhook := h.hooks mid x rest hmid
    rw [hreserve] at hhook
    obtain ⟨-, -, owner, howner, -⟩ := hhook
    rw [howner]
    nofun
  intro x hx
  refine ((hlater.restrict hcalls).invariant_at
    (I := fun w => w.mailbox.Fenced s t (c.label.now + PLAN_MAX_AGE_SECONDS)) hclosed ?_ x hx).1
  rintro a call b ha ⟨⟨-, hfresh, rfl⟩, hnow, hleaves, hself, howner⟩
  exact MailboxCall.fenced hfresh ha hnow hleaves hself howner

theorem consumed_turn_closed {past later : List MailboxEvent} {c : MailboxEvent} {s t : Text}
    (h : Consumption lib past c later s t)
    (hparent : ∀ x ∈ later, x.label.operation.NotOwnParent s) :
    ∀ x ∈ later, StaysClosed lib (past ++ c :: later) s t x := by
  intro x hx
  have hfenced := h.fenced hparent x hx
  have hnow := h.early x hx
  obtain ⟨mid, rest, hmid⟩ := List.append_of_mem hx
  obtain ⟨start, w, hrun⟩ := h.run
  obtain ⟨owner, hturn⟩ := h.turn
  obtain ⟨e, -, hbegins⟩ := (hrun.split).1.issued.current hturn
  refine ⟨fun parent owner hop => begins_fenced hfenced hnow hbegins.nonempty.1
    hbegins.nonempty.2 hop, fun args hr => ?_, fun args owner ⟨e, he, hb⟩ howner hturn hf => ?_,
    fun sourceQuery plan hr => returns_fenced hfenced hnow hr⟩
  · have hhook := h.hooks mid x rest hmid
    rw [hr.1] at hhook
    obtain ⟨-, -, owner, howner, -⟩ := hhook
    exact reserves_fenced hfenced hnow (by rw [howner]; nofun) hr
  · -- A plan of the turn that this token owns would be one of the session.
    obtain ⟨plan, hplan, hplanOwner⟩ := finalizes_plan hf
    rw [hmid, show past ++ c :: (mid ++ x :: rest) = (past ++ c :: mid) ++ x :: rest by simp] at hrun
    obtain ⟨e', he', hb'⟩ := (hrun.split).1.issued.plans hplan (hplanOwner.trans howner)
    have hmem : e' ∈ past ++ c :: later := by
      rw [hmid]
      simp only [List.mem_append, List.mem_cons] at he' ⊢
      tauto
    obtain ⟨state, hstate, hstateFenced⟩ := hfenced
    rw [hstate, hturn] at hplan
    exact hstateFenced.plan hplan (h.tokens.session hmem he hb' hb)

end Closed

/-! ## A consumed turn -/

section Samples

def MailboxOperation.owner? : MailboxOperation → Option Text
  | beginTurn _ _ _ ownerToken => some ownerToken
  | _ => none

theorem tokensDistinct_of_nodup {lib : Stdlib} {tr : List MailboxEvent}
    (h : (tr.filterMap fun e => e.label.operation.owner?).Nodup) : TokensDistinct lib tr := by
  refine (List.pairwise_filterMap.mp h).imp fun {e e'} hne => ?_
  rintro s t s' t' owner ⟨⟨parent, hop⟩, -⟩ ⟨⟨parent', hop'⟩, -⟩
  exact hne owner (by rw [hop]; rfl) owner (by rw [hop']; rfl) rfl

def sampleLibrary : Stdlib := Stdlib.ofTables [] []

def begunTurn : List MailboxCall := [⟨.activate "s" "a", 0⟩, ⟨.beginTurn "s" "t" [] "k", 1⟩]

def consumption : MailboxCall := ⟨.consume "hello" "s", 2⟩

def begunWorld : MailboxWorld := (⟨none, 0⟩ : MailboxWorld).after sampleLibrary begunTurn

def consumedWorld : MailboxWorld := begunWorld.next sampleLibrary consumption

theorem consumption_of_calls {calls : List MailboxCall}
    (hpermits : consumedWorld.Permits sampleLibrary calls)
    (howners : ((begunTurn ++ consumption :: calls).filterMap fun call =>
      call.operation.owner?).Nodup)
    (hearly : ∀ call ∈ calls, call.now < 12)
    (hleaves : ∀ call ∈ calls, call.operation.Leaves "s")
    (hbegins : ∀ call ∈ calls, call.operation.owner? ≠ none) :
    Consumption sampleLibrary ((⟨none, 0⟩ : MailboxWorld).trace sampleLibrary begunTurn)
      ⟨begunWorld, consumption, consumedWorld⟩ (consumedWorld.trace sampleLibrary calls) "s" "t" where
  run := by
    have hall : (⟨none, 0⟩ : MailboxWorld).Permits sampleLibrary
        (begunTurn ++ consumption :: calls) :=
      ⟨⟨le_refl 0, fun state h => (by cases h), trivial⟩, ⟨by decide +kernel, trivial, trivial⟩,
        ⟨by decide +kernel, trivial, trivial⟩, hpermits⟩
    exact ⟨0, _, hall.run.imp fun _ _ _ hstep => hstep.1⟩
  tokens := by
    refine tokensDistinct_of_nodup ?_
    have hlabels : ((⟨none, 0⟩ : MailboxWorld).trace sampleLibrary begunTurn ++
        ⟨begunWorld, consumption, consumedWorld⟩ :: consumedWorld.trace sampleLibrary calls).map
          Transition.label = begunTurn ++ consumption :: calls := by
      rw [List.map_append, List.map_cons, MailboxWorld.labels_trace, MailboxWorld.labels_trace]
    rw [← hlabels, List.filterMap_map] at howners
    exact howners
  turn := ⟨"k", by decide +kernel⟩
  consumes := ⟨"hello", by decide, rfl⟩
  early := fun x hx => (hearly _ (MailboxWorld.label_mem hx)).trans_le (by decide +kernel)
  leaves := fun x hx => hleaves _ (MailboxWorld.label_mem hx)
  hooks := fun mid x rest hmid => by
    have hx : x ∈ consumedWorld.trace sampleLibrary calls := by simp [hmid]
    have hop := hbegins _ (MailboxWorld.label_mem hx)
    generalize x.label.operation = operation at hop
    cases operation with
    | beginTurn => trivial
    | _ => exact absurd rfl hop

/-- The session begins a turn as its own parent, and the consumed turn begins again. -/
def reopeningCalls : List MailboxCall :=
  [⟨.beginTurn "s" "u" "s" "l", 3⟩, ⟨.beginTurn "s" "t" [] "n", 4⟩]

theorem consumed_turn_reopens : ∃ past c later s t, Consumption sampleLibrary past c later s t ∧
    ∃ x ∈ later, ¬ StaysClosed sampleLibrary (past ++ c :: later) s t x := by
  refine ⟨_, _, _, "s", "t", @consumption_of_calls reopeningCalls ?_ (by decide +kernel)
    (by decide +kernel) ?_ (by decide +kernel), _, List.mem_cons_of_mem _ List.mem_cons_self,
    fun hclosed => ?_⟩
  · exact ⟨⟨by decide +kernel, trivial, trivial⟩, ⟨by decide +kernel, trivial, trivial⟩, trivial⟩
  · intro call hcall
    fin_cases hcall
    · exact fun _ => rfl
    · exact fun h => absurd h (by decide)
  · have hresult := hclosed.begins [] "n" rfl
    revert hresult
    decide +kernel

theorem consumed_turn_closed_begins :
    (MailboxCall.run sampleLibrary ⟨.beginTurn "s" "t" [] "n", 4⟩ consumedWorld.mailbox).1 =
      .token none := by
  have hsample := @consumption_of_calls [⟨.beginTurn "s" "t" [] "n", 4⟩]
    ⟨⟨by decide +kernel, trivial, trivial⟩, trivial⟩ (by decide +kernel) (by decide +kernel)
    (fun call hcall => by
      obtain rfl := List.mem_singleton.mp hcall
      exact fun h => absurd h (by decide)) (by decide +kernel)
  refine (consumed_turn_closed hsample (fun x hx => ?_) _ List.mem_cons_self).begins [] "n" rfl
  obtain rfl := List.mem_singleton.mp hx
  intro turnId owner hop
  injection hop with _ _ hparent
  exact absurd hparent (by decide)

end Samples

end BetterHindsight
