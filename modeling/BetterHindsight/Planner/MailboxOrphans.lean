import BetterHindsight.Planner.MailboxSound

/-! # Nothing orphaned in the mailbox

* `Mailbox.Tied`: a redirect leads to the current turn of its target, and a plan of a current turn
  has the owner of that turn.
* `Mailbox.Shrinks`, `MailboxCall.Change`: what a call does to the entry, whoever owns the plans.
* `no_orphaned_state`: what every run from an empty registry leaves. -/

namespace BetterHindsight
set_option autoImplicit false

namespace Mailbox

structure Tied (m : Mailbox) : Prop where
  redirects : ∀ {source target turnId turn}, m.redirect? source = some (target, turnId) →
    m.current? target = some turn → turn.1 = turnId
  owners : ∀ {turnId plan token owner}, m.plan? turnId = some plan →
    plan.ownerToken = some token → m.current? plan.sessionId = some (turnId, owner) →
    owner = token

/-- Nothing new is stored, and the plans that stay keep their session and their owner. -/
structure Shrinks (m m' : Mailbox) : Prop where
  plans : ∀ {turnId plan}, m'.plan? turnId = some plan → ∃ old, m.plan? turnId = some old ∧
    old.sessionId = plan.sessionId ∧ old.ownerToken = plan.ownerToken
  current : ∀ {sessionId turn}, m'.current? sessionId = some turn → m.current? sessionId = some turn
  redirects : KeepsRedirects m m'

theorem tied_none : Tied none where
  redirects := fun h => by cases h
  owners := fun h => by cases h

theorem Tied.shrinks {m m' : Mailbox} (hm : m.Tied) (h : Shrinks m m') : m'.Tied where
  redirects := fun hredirect hturn => hm.redirects (h.redirects _ _ hredirect) (h.current hturn)
  owners := fun hplan htoken hturn => by
    obtain ⟨old, hold, hsession, howner⟩ := h.plans hplan
    refine hm.owners hold (howner.trans htoken) ?_
    rw [hsession]
    exact h.current hturn

namespace Shrinks

theorem refl (m : Mailbox) : Shrinks m m :=
  ⟨fun h => ⟨_, h, rfl, rfl⟩, id, KeepsRedirects.refl m⟩

theorem trans {a b c : Mailbox} (h : Shrinks a b) (h' : Shrinks b c) : Shrinks a c where
  plans := fun hplan => by
    obtain ⟨mid, hmid, hsession, howner⟩ := h'.plans hplan
    obtain ⟨old, hold, hsession', howner'⟩ := h.plans hmid
    exact ⟨old, hold, hsession'.trans hsession, howner'.trans howner⟩
  current := fun hturn => h.current (h'.current hturn)
  redirects := h.redirects.trans h'.redirects

theorem of_forgets {m m' : Mailbox} (h : Forgets m m') (hr : KeepsRedirects m m') : Shrinks m m' :=
  ⟨fun hplan => ⟨_, (h.plans hplan).1, rfl, rfl⟩, h.current, hr⟩

/-- A stored plan is changed in its place. -/
theorem changePlan {state : HomeState} {turnId : Text} {old plan : StoredPlan}
    (hold : state.plans.get? turnId = some old) (hsession : old.sessionId = plan.sessionId)
    (howner : old.ownerToken = plan.ownerToken) :
    Shrinks (some state) (some { state with plans := state.plans.set turnId plan }) where
  plans := fun {turnId' plan'} hplan => by
    replace hplan : (state.plans.set turnId plan).get? turnId' = some plan' := hplan
    rw [Dict.get?_set] at hplan
    split at hplan
    · rename_i hturn
      cases hplan
      exact ⟨old, hturn ▸ hold, hsession, howner⟩
    · exact ⟨plan', hplan, rfl, rfl⟩
  current := id
  redirects := KeepsRedirects.of_eq rfl

theorem purgeExpired (state : HomeState) (now : ℚ) :
    Shrinks (some state) (some (state.purgeExpired now)) :=
  of_forgets (Forgets.purgeExpired state now) (KeepsRedirects.of_eq rfl)

theorem dropEmptyHome (state : HomeState) : Shrinks (some state) state.dropEmptyHome :=
  of_forgets (Forgets.dropEmptyHome state) (KeepsRedirects.dropEmptyHome rfl)

theorem closeTurn (state : HomeState) (sessionId turnId : Text) (now : ℚ) :
    Shrinks (some state) (some (state.closeTurn sessionId turnId now)) where
  plans := fun {turnId' plan} hplan => ⟨plan, ((Forgets.erasePlan state turnId).plans hplan).1,
    rfl, rfl⟩
  current := fun {other turn} hturn => by
    replace hturn : (state.currentTurns.erase sessionId).get? other = some turn := hturn
    rw [Dict.get?_erase] at hturn
    split at hturn
    · cases hturn
    · exact hturn
  redirects := KeepsRedirects.of_filter (fun _ redirect => redirect ≠ (sessionId, turnId)) rfl

theorem takePlan {lib : Stdlib} {state : HomeState} {sourceQuery sessionId : Text}
    {redirected : Option Text} {now : ℚ} :
    Shrinks (some state)
      (some (state.takePlan lib sourceQuery sessionId redirected now).2) := by
  unfold HomeState.takePlan
  extract_lets current closed stored candidates found
  have hclosed : Shrinks (some state) (some closed) := by
    simp only [closed, current]
    split
    · exact closeTurn state _ _ now
    · exact refl _
  split
  · exact hclosed
  · exact hclosed.trans (of_forgets (Forgets.filterPlans closed _) (KeepsRedirects.of_eq rfl))

theorem consume {lib : Stdlib} {state : HomeState} {sourceQuery sessionId : Text} {now : ℚ} :
    Shrinks (some state) (some (state.consume lib sourceQuery sessionId now).2) := by
  have hpopped : Shrinks (some state)
      (some { state with redirects := state.redirects.erase sessionId }) :=
    ⟨fun h => ⟨_, h, rfl, rfl⟩, id,
      KeepsRedirects.of_filter (fun source _ => source ≠ sessionId) rfl⟩
  unfold HomeState.consume
  rcases resolveActiveSession_cases state sessionId with heq | ⟨resolved, heq, -⟩
  · rw [heq]
    exact takePlan
  · rw [heq]
    cases resolved with
    | none => exact hpopped
    | some target => exact hpopped.trans takePlan

theorem reply {α : Type} {m : Mailbox} (wrap : α → MailboxResult)
    {outcome : Except MailboxError (α × Mailbox)}
    (h : ∀ value m', outcome = .ok (value, m') → Shrinks m m') :
    Shrinks m (MailboxResult.reply wrap m outcome).2 := by
  cases outcome with
  | error error => exact refl m
  | ok r => exact h r.1 r.2 rfl

end Shrinks

variable {m m' : Mailbox} {now : ℚ}

theorem shrinks_finalize {args : FinalizeArguments} {finalized : Bool}
    (h : m.finalize args now = .ok (finalized, m')) : Shrinks m m' := by
  rcases finalize_cases h with ⟨-, hforgets⟩ | ⟨-, state, plan, rfl, hplan, -, rfl⟩
  · exact .of_forgets hforgets (finalize_redirects h)
  · exact (Shrinks.purgeExpired state now).trans (Shrinks.changePlan hplan rfl rfl)

theorem shrinks_cancel {turnId : Text} {ownerToken : Option Text} {u : Unit}
    (h : m.cancel turnId ownerToken = .ok (u, m')) : Shrinks m m' := by
  rcases cancel_cases h with ⟨hforgets, -⟩ | ⟨state, plan, rfl, hplan, -, rfl⟩
  · exact .of_forgets hforgets (cancel_redirects h)
  · have hchange := @Shrinks.changePlan state turnId plan (HomeState.tombstone plan) hplan rfl rfl
    exact hchange.trans (Shrinks.dropEmptyHome _)

theorem shrinks_consume {lib : Stdlib} {sourceQuery sessionId : Text}
    {outcome : HomeState.Consumed}
    (h : m.consume lib sourceQuery sessionId now = .ok (outcome, m')) : Shrinks m m' := by
  obtain ⟨_, -, h⟩ := bind_ok h
  obtain ⟨_, -, h⟩ := bind_ok h
  cases m with
  | none =>
    cases h
    exact Shrinks.refl none
  | some state =>
    dsimp only at h
    have hconsume := @Shrinks.consume lib (state.purgeExpired now) sourceQuery sessionId now
    generalize (state.purgeExpired now).consume lib sourceQuery sessionId now = result
      at h hconsume
    cases h
    exact (Shrinks.purgeExpired state now).trans hconsume

/-! ## New turns and plans -/

/-- `begin_turn` leaves only redirects to the turn that it begins. -/
theorem beginTurn_turn {state : HomeState} {sessionId turnId parent owner : Text} {source : Text}
    {redirect : Text × Text} (hnew : (state.beginTurn sessionId turnId parent owner).1 = some owner)
    (h : (state.beginTurn sessionId turnId parent owner).2.redirects.get? source = some redirect)
    (htarget : redirect.1 = sessionId) : redirect.2 = turnId := by
  unfold HomeState.beginTurn at h hnew
  split at h
  · rename_i hclosed
    rw [if_pos hclosed] at hnew
    cases hnew
  · extract_lets kept parentActive bridged cleared at h
    have hkept : ∀ {redirect : Text × Text}, kept.redirects.get? source = some redirect →
        redirect.1 = sessionId → redirect.2 = turnId := by
      intro redirect hredirect hsession
      replace hredirect : (state.redirects.filter _).get? source = some redirect := hredirect
      rw [Dict.get?_filter, Option.filter_eq_some_iff] at hredirect
      simpa [hsession] using hredirect.2
    have hbridged : bridged.redirects.get? source = some redirect := by
      split at h
      · exact h
      · exact h
    simp only [bridged] at hbridged
    split at hbridged
    · replace hbridged : ((kept.redirects.filter _).set parent (sessionId, turnId)).get? source =
        some redirect := hbridged
      rw [Dict.get?_set] at hbridged
      split at hbridged
      · cases hbridged
        rfl
      · rw [Dict.get?_filter, Option.filter_eq_some_iff] at hbridged
        exact hkept hbridged.1 htarget
    · exact hkept hbridged htarget

/-- The redirects after a turn began: old ones, and those to the turn. -/
def BegunRedirects (m m' : Mailbox) (sessionId turnId : Text) : Prop :=
  ∀ source redirect, m'.redirect? source = some redirect →
    if redirect.1 = sessionId then redirect.2 = turnId else m.redirect? source = some redirect

theorem begun_redirects {sessionId turnId parent owner : Text}
    (h : m.beginTurn sessionId turnId parent owner now = .ok (some owner, m')) :
    BegunRedirects m m' sessionId turnId := by
  intro source redirect hr
  have hredirects := beginTurn_redirects h hr
  split
  · rename_i htarget
    obtain ⟨_, -, h⟩ := bind_ok h
    obtain ⟨_, -, h⟩ := bind_ok h
    cases m with
    | none => cases h
    | some state =>
      dsimp only at h
      have hturn := @beginTurn_turn (state.purgeExpired now) sessionId turnId parent owner source
        redirect
      generalize (state.purgeExpired now).beginTurn sessionId turnId parent owner = result
        at h hturn
      obtain ⟨htoken, rfl⟩ := Prod.mk.inj (Except.ok.inj h)
      exact hturn htoken hr htarget
  · rename_i htarget
    rcases hredirects with hold | ⟨-, -, hnew, -⟩
    · exact hold
    · exact absurd (congrArg Prod.fst hnew) htarget

end Mailbox

open Mailbox

/-- What a call does to the entry, whoever owns the plans in it. -/
inductive MailboxCall.Change (lib : Stdlib) (call : MailboxCall) (m : Mailbox) :
    MailboxResult × Mailbox → Prop
  | shrinks {result : MailboxResult} {m' : Mailbox} (h : Shrinks m m') : Change lib call m (result, m')
  | begins {s t parent k : Text} {m' : Mailbox} (hop : call.operation = .beginTurn s t parent k)
      (h : Begun m m' s t k) (hredirects : BegunRedirects m m' s t) :
      Change lib call m (.token (some k), m')
  | reserves {args : ReserveArguments} {state : HomeState} {timeout : Option ℚ}
      (hop : call.operation = .reserve args) (hm : m = some state)
      (hmay : (state.purgeExpired call.now).mayReserve args = true) :
      Change lib call m (.flag true, some { state.purgeExpired call.now with
        sequence := state.sequence + 1
        plans := (state.purgeExpired call.now).plans.set args.turnId
          (state.reservedPlan lib args timeout call.now) })

namespace MailboxCall
variable {lib : Stdlib} {call : MailboxCall} {m : Mailbox}

theorem Change.reply {α : Type} (wrap : α → MailboxResult)
    (outcome : Except MailboxError (α × Mailbox))
    (h : ∀ value m', outcome = .ok (value, m') → Change lib call m (wrap value, m')) :
    Change lib call m (MailboxResult.reply wrap m outcome) := by
  cases outcome with
  | error error => exact .shrinks (Shrinks.refl m)
  | ok r => exact h r.1 r.2 rfl

theorem change (hfresh : call.operation.Fresh m) : Change lib call m (call.run lib m) := by
  obtain ⟨operation, now⟩ := call
  cases operation with
  | activate s t =>
    exact .reply _ _ fun _ _ h =>
      .shrinks (.of_forgets (forgets_activate hfresh h) (activate_redirects h))
  | deactivate t =>
    exact .reply _ _ fun _ _ h =>
      .shrinks (.of_forgets (forgets_deactivate h) (deactivate_redirects h))
  | rebind t new parent =>
    exact .reply _ _ fun _ _ h => .shrinks (.of_forgets (forgets_rebind h) (rebind_redirects h))
  | isActive s =>
    exact .reply _ _ fun _ _ h => .shrinks (.of_forgets (forgets_isActive h) (isActive_redirects h))
  | beginTurn s t parent k =>
    refine .reply _ _ fun token m' h => ?_
    rcases beginTurn_cases h with ⟨rfl, hforgets⟩ | ⟨rfl, hbegun⟩
    · refine .shrinks (.of_forgets hforgets fun source redirect hr => ?_)
      rcases beginTurn_redirects h hr with hold | ⟨-, -, -, hnone, -⟩
      · exact hold
      · cases hnone
    · exact .begins rfl hbegun (begun_redirects h)
  | reserve args =>
    refine .reply _ _ fun flag m' h => ?_
    rcases reserve_cases h with ⟨-, hforgets⟩ | ⟨rfl, state, timeout, hm, -, hmay, -, rfl⟩
    · exact .shrinks (.of_forgets hforgets (reserve_redirects h))
    · exact .reserves rfl hm hmay
  | finalize args => exact .reply _ _ fun _ _ h => .shrinks (shrinks_finalize h)
  | cancel t k => exact .reply _ _ fun _ _ h => .shrinks (shrinks_cancel h)
  | consume q s => exact .reply _ _ fun _ _ h => .shrinks (shrinks_consume h)
  | clearSessionPlans s =>
    exact .reply _ _ fun _ _ h =>
      .shrinks (.of_forgets (forgets_clearSessionPlans h) (clearSessionPlans_redirects h))
  | purgeStale => exact .shrinks (.of_forgets forgets_purgeStale purgeStale_redirects)

theorem Change.tied {r : MailboxResult × Mailbox} (h : Change lib call m r) (hm : m.Tied) :
    r.2.Tied := by
  cases h with
  | shrinks h => exact hm.shrinks h
  | @begins s t parent k m' hop h hredirects =>
    refine ⟨fun {source target turnId turn} hr hturn => ?_,
      fun {turnId plan token owner} hplan htoken hturn => ?_⟩
    · have hold := hredirects _ _ hr
      split at hold
      · rename_i htarget
        obtain rfl : target = s := htarget
        rw [h.begun] at hturn
        cases hturn
        exact hold.symm
      · rename_i htarget
        exact hm.redirects hold (h.current htarget hturn)
    · obtain ⟨hold, hne, -⟩ := h.plans hplan
      exact hm.owners hold htoken (h.current hne hturn)
  | @reserves args state timeout hop hstate hmay =>
    subst hstate
    have hpurged := hm.shrinks (Shrinks.purgeExpired state call.now)
    refine ⟨hpurged.redirects, fun {turnId plan token owner} hplan htoken hturn => ?_⟩
    replace hplan : ((state.purgeExpired call.now).plans.set args.turnId _).get? turnId =
      some plan := hplan
    rw [Dict.get?_set] at hplan
    split at hplan
    · -- The plan that `reserve` stores has the owner of the current turn.
      cases hplan
      have hcurrent := (current_of_mayReserve htoken hmay).1
      rw [show current? (some (state.purgeExpired call.now)) args.sessionId = some (turnId, owner)
        from hturn] at hcurrent
      cases hcurrent
      rfl
    · exact hpurged.owners hplan htoken hturn

end MailboxCall

theorem Run.tied {lib : Stdlib} {start : ℚ} {tr : List (Transition MailboxWorld MailboxCall)}
    {w : MailboxWorld} (h : Run (MailboxStep lib) ⟨none, start⟩ tr w) : w.mailbox.Tied := by
  refine h.invariant (I := fun w => w.mailbox.Tied) tied_none ?_
  rintro a call b ha ⟨-, hfresh, rfl⟩
  exact (MailboxCall.change hfresh).tied ha

/-! ## The last provider -/

/-- `deactivate` releases its own token only. -/
theorem Mailbox.deactivate_activation {m m' : Mailbox} {token other sessionId : Text} {now : ℚ}
    {u : Unit} (h : m.deactivate token now = .ok (u, m'))
    (hother : m'.activation? other = some sessionId) :
    other ≠ token ∧ m.activation? other = some sessionId := by
  obtain ⟨_, -, h⟩ := bind_ok h
  cases m with
  | none =>
    cases h
    cases hother
  | some state =>
    have hdrop : ∀ next : HomeState, next.activations = state.activations.erase token →
        next.dropEmptyHome = m' → other ≠ token ∧ activation? (some state) other =
          some sessionId := by
      rintro next hnext rfl
      unfold HomeState.dropEmptyHome at hother
      split at hother
      · cases hother
      · replace hother : next.activations.get? other = some sessionId := hother
        rw [hnext, Dict.get?_erase] at hother
        split at hother
        · cases hother
        · rename_i hne
          exact ⟨hne, hother⟩
    dsimp only at h
    split at h
    · cases h
      exact hdrop _ rfl rfl
    · cases h
      exact hdrop _ (isEmpty_clearOrphan _ _) rfl

theorem Mailbox.Sound.none_of_inactive {m : Mailbox} (hm : m.Sound)
    (h : ∀ token, m.activation? token = none) : m = none := by
  cases m with
  | none => rfl
  | some state =>
    have hempty : state.activations.isEmpty = true := Dict.isEmpty_iff.mpr h
    rw [(hm state rfl).2] at hempty
    cases hempty

theorem no_orphaned_state {lib : Stdlib} {start : ℚ}
    {tr : List (Transition MailboxWorld MailboxCall)} {w : MailboxWorld}
    (h : Run (MailboxStep lib) ⟨none, start⟩ tr w) :
    (∀ state, w.mailbox = some state → ∀ sessionId, state.Holds sessionId →
      state.isActive sessionId = true) ∧
    (∀ source target turnId turn, w.mailbox.redirect? source = some (target, turnId) →
      w.mailbox.current? target = some turn → turn.1 = turnId) ∧
    (∀ turnId plan token owner, w.mailbox.plan? turnId = some plan →
      plan.ownerToken = some token → w.mailbox.current? plan.sessionId = some (turnId, owner) →
      owner = token) ∧
    ((∀ token, w.mailbox.activation? token = none) → w.mailbox = none) ∧
    ∀ token now, token ≠ [] → w.clock ≤ now →
      (∀ other, other ≠ token → w.mailbox.activation? other = none) →
      MailboxCall.run lib ⟨.deactivate token, now⟩ w.mailbox = (.done, none) := by
  have hsound := h.sound
  refine ⟨fun state hstate sessionId hholds => (hsound state hstate).1.active hholds,
    fun _ _ _ _ => h.tied.redirects, fun _ _ _ _ => h.tied.owners, hsound.none_of_inactive,
    fun token now htoken _ hlast => ?_⟩
  have hok : ∃ m', w.mailbox.deactivate token now = .ok ((), m') := by
    unfold Mailbox.deactivate requireText
    rw [if_neg htoken]
    cases w.mailbox with
    | none => exact ⟨none, rfl⟩
    | some state =>
      cases hsession : (state.purgeExpired now).activations.get? token with
      | none => exact ⟨_, by simp only [hsession]; rfl⟩
      | some sessionId => exact ⟨_, by simp only [hsession]; rfl⟩
  obtain ⟨m', hok⟩ := hok
  have hnone : m' = none := by
    refine (hsound.deactivate hok).none_of_inactive fun other => ?_
    refine Option.eq_none_iff_forall_ne_some.mpr fun sessionId hother => ?_
    obtain ⟨hne, hold⟩ := Mailbox.deactivate_activation hok hother
    rw [hlast other hne] at hold
    cases hold
  show MailboxResult.reply _ w.mailbox (w.mailbox.deactivate token now) = _
  rw [hok, hnone]
  rfl

/-- A turn of a parent, and a turn of its child that moves the activation. -/
def bridgedTurn : List MailboxCall :=
  [⟨.activate "p" "a", 0⟩, ⟨.beginTurn "p" "t" [] "k", 1⟩,
    ⟨.reserve ⟨"hello", "p", "t", .active, none, none, some "k"⟩, 2⟩,
    ⟨.beginTurn "c" "u" "p" "l", 3⟩]

theorem no_orphaned_state_bridgedTurn :
    MailboxCall.run (Stdlib.ofTables [] []) ⟨.deactivate "a", 4⟩
      ((⟨none, 0⟩ : MailboxWorld).after (Stdlib.ofTables [] []) bridgedTurn).mailbox =
        (.done, none) := by
  have hpermits : (⟨none, 0⟩ : MailboxWorld).Permits (Stdlib.ofTables [] []) bridgedTurn :=
    ⟨⟨le_refl 0, fun state h => (by cases h), trivial⟩, ⟨by decide +kernel, trivial, trivial⟩,
      ⟨by decide +kernel, trivial, nofun⟩, ⟨by decide +kernel, trivial, trivial⟩, trivial⟩
  have hrun := hpermits.run.imp fun _ _ _ hstep => hstep.1
  refine (no_orphaned_state hrun).2.2.2.2 "a" 4 (by decide) (by decide +kernel) fun other hne => ?_
  have hkeys : ∀ state, ((⟨none, 0⟩ : MailboxWorld).after (Stdlib.ofTables [] [])
      bridgedTurn).mailbox = some state →
        state.activations.entries.map Prod.fst = ["a".toList] := by decide +kernel
  refine Option.bind_eq_none_iff.mpr fun state hstate => Dict.get?_eq_none.mpr ?_
  rw [hkeys state hstate]
  simpa using hne

end BetterHindsight
