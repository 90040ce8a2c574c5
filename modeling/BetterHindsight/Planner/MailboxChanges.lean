import BetterHindsight.Config
import BetterHindsight.Planner.Mailbox

/-! # What the operations of a mailbox change

* `Mailbox.Forgets`: a change that only forgets plans and turns.
* `Mailbox.Owned`: a stored plan is owned by the current turn of an active session.
* `beginTurn_cases`, `reserve_cases`, `finalize_cases`, `cancel_cases`, `consume_cases`: what a hook
  or a provider changes.
* `beginTurn_redirects`: the redirect of a bridge. -/

namespace BetterHindsight
set_option autoImplicit false

/-! ## Fields -/

namespace HomeState

theorem isActive_iff {state : HomeState} {sessionId : Text} :
    state.isActive sessionId = true ↔ ∃ token, state.activations.get? token = some sessionId := by
  rw [isActive, List.contains_eq_mem, decide_eq_true_eq, Dict.mem_values]

theorem plans_clearSession {state : HomeState} {sessionId turnId : Text} {includeClosed : Bool}
    {plan : StoredPlan} (h : (state.clearSession sessionId includeClosed).plans.get? turnId =
      some plan) : state.plans.get? turnId = some plan ∧ plan.sessionId ≠ sessionId := by
  rw [clearSession, Dict.get?_filter, Option.filter_eq_some_iff] at h
  exact ⟨h.1, by simpa using h.2⟩

theorem current_clearSession {state : HomeState} {sessionId other : Text} {includeClosed : Bool}
    (h : other ≠ sessionId) : (state.clearSession sessionId includeClosed).currentTurns.get? other =
      state.currentTurns.get? other := by
  rw [clearSession, Dict.get?_erase, if_neg h]

theorem plans_purgeExpired {state : HomeState} {now : ℚ} {turnId : Text} {plan : StoredPlan}
    (h : (state.purgeExpired now).plans.get? turnId = some plan) :
    state.plans.get? turnId = some plan ∧ now < plan.expiresAt := by
  rw [purgeExpired, Dict.get?_filter, Option.filter_eq_some_iff] at h
  exact ⟨h.1, by simpa using h.2⟩

end HomeState

namespace Mailbox

def plan? (m : Mailbox) (turnId : Text) : Option StoredPlan :=
  m.bind fun state => state.plans.get? turnId

def current? (m : Mailbox) (sessionId : Text) : Option (Text × Text) :=
  m.bind fun state => state.currentTurns.get? sessionId

def redirect? (m : Mailbox) (sessionId : Text) : Option (Text × Text) :=
  m.bind fun state => state.redirects.get? sessionId

def activation? (m : Mailbox) (token : Text) : Option Text :=
  m.bind fun state => state.activations.get? token

def IsActive (m : Mailbox) (sessionId : Text) : Prop :=
  ∃ token, m.activation? token = some sessionId

/-- A stored plan belongs to the current turn of an active session, and to its owner. -/
def Owned (m : Mailbox) : Prop :=
  ∀ turnId plan, m.plan? turnId = some plan → ∃ owner, plan.ownerToken = some owner ∧
    m.current? plan.sessionId = some (turnId, owner) ∧ m.IsActive plan.sessionId

/-- The change only forgets, and a plan that stays keeps its current turn and its activation. -/
structure Forgets (m m' : Mailbox) : Prop where
  plans : ∀ {turnId plan}, m'.plan? turnId = some plan → m.plan? turnId = some plan ∧
    m'.current? plan.sessionId = m.current? plan.sessionId
  active : ∀ {turnId plan}, m'.plan? turnId = some plan → m.IsActive plan.sessionId →
    m'.IsActive plan.sessionId
  current : ∀ {sessionId turn}, m'.current? sessionId = some turn →
    m.current? sessionId = some turn

namespace Forgets

theorem refl (m : Mailbox) : Forgets m m := ⟨fun h => ⟨h, rfl⟩, fun _ h => h, id⟩

theorem trans {a b c : Mailbox} (h : Forgets a b) (h' : Forgets b c) : Forgets a c where
  plans := fun hp =>
    ⟨(h.plans (h'.plans hp).1).1, (h'.plans hp).2.trans (h.plans (h'.plans hp).1).2⟩
  active := fun hp ha => h'.active hp (h.active (h'.plans hp).1 ha)
  current := fun hc => h.current (h'.current hc)

theorem owned {m m' : Mailbox} (h : Forgets m m') (hm : m.Owned) : m'.Owned := by
  intro turnId plan hp
  obtain ⟨owner, howner, hcurrent, hactive⟩ := hm turnId plan (h.plans hp).1
  exact ⟨owner, howner, (h.plans hp).2.trans hcurrent, h.active hp hactive⟩

/-- An entry without plans and turns. -/
theorem of_empty {m m' : Mailbox} (hplan : ∀ turnId, m'.plan? turnId = none)
    (hcurrent : ∀ sessionId, m'.current? sessionId = none) : Forgets m m' where
  plans := fun h => by rw [hplan] at h; cases h
  active := fun h => by rw [hplan] at h; cases h
  current := fun h => by rw [hcurrent] at h; cases h

theorem purgeExpired (state : HomeState) (now : ℚ) :
    Forgets (some state) (some (state.purgeExpired now)) where
  plans := fun h => ⟨(HomeState.plans_purgeExpired h).1, rfl⟩
  active := fun _ h => h
  current := id

theorem clearSession (state : HomeState) (sessionId : Text) (includeClosed : Bool) :
    Forgets (some state) (some (state.clearSession sessionId includeClosed)) where
  plans := fun h => ⟨(HomeState.plans_clearSession h).1,
    HomeState.current_clearSession (HomeState.plans_clearSession h).2⟩
  active := fun _ h => h
  current := fun h => by
    replace h : (state.currentTurns.erase sessionId).get? _ = some _ := h
    rw [Dict.get?_erase] at h
    split at h
    · cases h
    · exact h

theorem dropEmptyHome (state : HomeState) : Forgets (some state) state.dropEmptyHome := by
  unfold HomeState.dropEmptyHome
  split
  · exact of_empty (fun _ => rfl) fun _ => rfl
  · exact refl _

/-- After its activations changed, a session that lost the last of them is cleared. -/
theorem clearOrphan {state : HomeState} {activations : Dict Text Text} {sessionId : Text}
    (h : ∀ other, other ≠ sessionId → IsActive (some state) other →
      IsActive (some { state with activations }) other) :
    Forgets (some state) (some (({ state with activations } : HomeState).clearOrphan sessionId)) := by
  unfold HomeState.clearOrphan
  split
  · rename_i hactive
    have hself : IsActive (some { state with activations }) sessionId :=
      HomeState.isActive_iff.mp hactive
    refine ⟨fun hp => ⟨hp, rfl⟩, fun {turnId plan} hp ha => ?_, id⟩
    by_cases hs : plan.sessionId = sessionId
    · exact hs ▸ hself
    · exact h plan.sessionId hs ha
  · have hclear := clearSession ({ state with activations } : HomeState) sessionId true
    exact ⟨fun hp => hclear.plans hp, fun {turnId plan} hp ha =>
      h plan.sessionId (HomeState.plans_clearSession hp).2 ha, fun hc => hclear.current hc⟩

end Forgets

/-! ## Providers -/

theorem isActive_erase {state : HomeState} {token other : Text}
    (htoken : state.activations.get? token ≠ some other) (h : IsActive (some state) other) :
    IsActive (some { state with activations := state.activations.erase token }) other := by
  obtain ⟨token', h'⟩ := h
  refine ⟨token', ?_⟩
  show (state.activations.erase token).get? token' = some other
  rw [Dict.get?_erase, if_neg]
  · exact h'
  · rintro rfl
    exact htoken h'

theorem isActive_set {state : HomeState} {token sessionId other : Text}
    (htoken : state.activations.get? token ≠ some other) (h : IsActive (some state) other) :
    IsActive (some { state with activations := state.activations.set token sessionId }) other := by
  obtain ⟨token', h'⟩ := h
  refine ⟨token', ?_⟩
  show (state.activations.set token sessionId).get? token' = some other
  rw [Dict.get?_set, if_neg]
  · exact h'
  · rintro rfl
    exact htoken h'

theorem requireText_eq_ok {value fieldName : Text} {u : Unit}
    (h : requireText value fieldName = .ok u) : value ≠ [] := by
  unfold requireText at h
  split at h
  · cases h
  · assumption

variable {m m' : Mailbox} {now : ℚ}

theorem forgets_activate {sessionId token result : Text}
    (hfresh : ∀ state, m = some state → state.activations.get? token = none)
    (h : m.activate sessionId token now = .ok (result, m')) : Forgets m m' := by
  obtain ⟨_, -, h⟩ := bind_ok h
  cases h
  cases m with
  | none => exact Forgets.of_empty (fun _ => rfl) fun _ => rfl
  | some state =>
    have hpurge := Forgets.purgeExpired state now
    refine hpurge.trans ⟨fun hp => ⟨hp, rfl⟩, fun _ ha => isActive_set ?_ ha, id⟩
    have hnone : state.activations.get? token = none := hfresh state rfl
    intro htoken
    rw [show state.activations.get? token = some _ from htoken] at hnone
    cases hnone

theorem forgets_deactivate {token : Text} {u : Unit}
    (h : m.deactivate token now = .ok (u, m')) : Forgets m m' := by
  obtain ⟨_, -, h⟩ := bind_ok h
  cases m with
  | none =>
    cases h
    exact Forgets.refl none
  | some state =>
    refine (Forgets.purgeExpired state now).trans ?_
    generalize hstate : state.purgeExpired now = purged
    simp only [hstate] at h
    split at h
    · rename_i hnone
      cases h
      have hreleased : Forgets (some purged)
          (some { purged with activations := purged.activations.erase token }) :=
        ⟨fun hp => ⟨hp, rfl⟩, fun _ ha => isActive_erase (by simp [hnone]) ha, id⟩
      exact hreleased.trans (Forgets.dropEmptyHome _)
    · rename_i sessionId hsome
      cases h
      refine Forgets.trans (Forgets.clearOrphan fun other hne ha => isActive_erase ?_ ha)
        (Forgets.dropEmptyHome _)
      rw [hsome]
      exact fun heq => hne (Option.some.inj heq).symm

/-- What a `rebind` does: nothing but forget, or move the activation into a cleared session. -/
theorem forgets_rebind {token new parent : Text} {moved : Bool}
    (h : m.rebind token new parent now = .ok (moved, m')) : Forgets m m' := by
  obtain ⟨_, -, h⟩ := bind_ok h
  obtain ⟨_, -, h⟩ := bind_ok h
  cases m with
  | none => cases h
  | some state =>
    have hpurge := Forgets.purgeExpired state now
    generalize hstate : state.purgeExpired now = purged at hpurge
    simp only [hstate] at h
    split at h
    · cases h
    · rename_i old hold
      replace hold : purged.activations.get? token = some old := hstate ▸ hold
      split at h
      · cases h
        exact hpurge
      · split at h
        · cases h
          exact hpurge
        · cases h
          refine hpurge.trans (Forgets.trans (Forgets.clearOrphan fun other hne ha =>
            isActive_set ?_ ha) (Forgets.clearSession _ new true))
          rw [hold]
          exact fun heq => hne (Option.some.inj heq).symm

/-- A `rebind` into another session clears it. -/
theorem rebind_clears {token new parent turnId : Text} {plan : StoredPlan}
    (h : m.rebind token new parent now = .ok (true, m')) (hother : m.activation? token ≠ some new)
    (hp : m'.plan? turnId = some plan) : plan.sessionId ≠ new := by
  obtain ⟨_, -, h⟩ := bind_ok h
  obtain ⟨_, -, h⟩ := bind_ok h
  cases m with
  | none => cases h
  | some state =>
    dsimp only at h
    split at h
    · cases h
    · rename_i old hold
      split at h
      · rename_i hsame
        rw [hsame] at hold
        exact absurd hold hother
      · split at h
        · cases h
        · cases h
          exact (HomeState.plans_clearSession hp).2

theorem forgets_isActive {sessionId : Text} {active : Bool}
    (h : m.isActive sessionId now = .ok (active, m')) : Forgets m m' := by
  obtain ⟨_, -, h⟩ := bind_ok h
  cases m with
  | none =>
    cases h
    exact Forgets.refl none
  | some state =>
    cases h
    exact Forgets.purgeExpired state now

theorem forgets_clearSessionPlans {sessionId : Text} {u : Unit}
    (h : m.clearSessionPlans sessionId = .ok (u, m')) : Forgets m m' := by
  obtain ⟨_, -, h⟩ := bind_ok h
  cases m with
  | none =>
    cases h
    exact Forgets.refl none
  | some state =>
    cases h
    exact (Forgets.clearSession state sessionId true).trans (Forgets.dropEmptyHome _)

theorem clearSessionPlans_clears {sessionId turnId : Text} {u : Unit} {plan : StoredPlan}
    (h : m.clearSessionPlans sessionId = .ok (u, m')) (hp : m'.plan? turnId = some plan) :
    plan.sessionId ≠ sessionId := by
  obtain ⟨_, -, h⟩ := bind_ok h
  cases m with
  | none =>
    cases h
    cases hp
  | some state =>
    cases h
    exact (HomeState.plans_clearSession ((Forgets.dropEmptyHome _).plans hp).1).2

theorem forgets_purgeStale : Forgets m (m.purgeStale now) := by
  cases m with
  | none => exact Forgets.refl none
  | some state => exact (Forgets.purgeExpired state now).trans (Forgets.dropEmptyHome _)

/-! ## Hooks -/

theorem Forgets.bridge (state : HomeState) (parent sessionId turnId : Text) :
    Forgets (some state) (some (state.bridge parent sessionId turnId)) where
  plans := fun h => ⟨(HomeState.plans_clearSession h).1,
    HomeState.current_clearSession (HomeState.plans_clearSession h).2⟩
  active := fun {turnId' plan} h ⟨token, htoken⟩ => by
    have hne : plan.sessionId ≠ parent := (HomeState.plans_clearSession h).2
    replace htoken : state.activations.get? token = some plan.sessionId := htoken
    refine ⟨token, ?_⟩
    show (state.activations.mapValues _).get? token = some plan.sessionId
    rw [Dict.get?_mapValues, htoken, Option.map_some, if_neg hne]
  current := fun h => (Forgets.clearSession _ parent true).current h

/-- The change of a successful `begin_turn`. -/
structure Begun (m m' : Mailbox) (sessionId turnId owner : Text) : Prop where
  plans : ∀ {turnId' plan}, m'.plan? turnId' = some plan → m.plan? turnId' = some plan ∧
    plan.sessionId ≠ sessionId ∧ m'.current? plan.sessionId = m.current? plan.sessionId
  active : ∀ {turnId' plan}, m'.plan? turnId' = some plan → m.IsActive plan.sessionId →
    m'.IsActive plan.sessionId
  current : ∀ {other turn}, other ≠ sessionId → m'.current? other = some turn →
    m.current? other = some turn
  begun : m'.current? sessionId = some (turnId, owner)

theorem Begun.owned {sessionId turnId owner : Text} (h : Begun m m' sessionId turnId owner)
    (hm : m.Owned) : m'.Owned := by
  intro turnId' plan hp
  obtain ⟨hplan, -, hcurrent⟩ := h.plans hp
  obtain ⟨owner', howner, hturn, hactive⟩ := hm turnId' plan hplan
  exact ⟨owner', howner, hcurrent.trans hturn, h.active hp hactive⟩

/-- The session of `begin_turn` is cleared and gets its current turn. -/
theorem Forgets.begun {state : HomeState} (h : Forgets m (some state))
    (sessionId turnId owner : Text) :
    Begun m (some { state.clearSession sessionId false with
      currentTurns := (state.clearSession sessionId false).currentTurns.set sessionId
        (turnId, owner) }) sessionId turnId owner where
  plans := fun {turnId' plan} hp => by
    replace hp : (state.clearSession sessionId false).plans.get? turnId' = some plan := hp
    obtain ⟨hstate, hne⟩ := HomeState.plans_clearSession hp
    obtain ⟨hm, hcurrent⟩ := h.plans hstate
    refine ⟨hm, hne, Eq.trans ?_ hcurrent⟩
    show ((state.clearSession sessionId false).currentTurns.set _ _).get? _ = _
    rw [Dict.get?_set, if_neg hne, HomeState.current_clearSession hne]
    rfl
  active := fun {turnId' plan} hp ha => by
    replace hp : (state.clearSession sessionId false).plans.get? turnId' = some plan := hp
    exact h.active (HomeState.plans_clearSession hp).1 ha
  current := fun {other turn} hne hturn => by
    replace hturn : ((state.clearSession sessionId false).currentTurns.set _ _).get? other =
      some turn := hturn
    rw [Dict.get?_set, if_neg hne, HomeState.current_clearSession hne] at hturn
    exact h.current hturn
  begun := by
    show ((state.clearSession sessionId false).currentTurns.set _ _).get? sessionId = _
    rw [Dict.get?_set, if_pos rfl]

theorem beginTurn_cases {sessionId turnId parent owner : Text} {token : Option Text}
    (h : m.beginTurn sessionId turnId parent owner now = .ok (token, m')) :
    (token = none ∧ Forgets m m') ∨ (token = some owner ∧ Begun m m' sessionId turnId owner) := by
  obtain ⟨_, -, h⟩ := bind_ok h
  obtain ⟨_, -, h⟩ := bind_ok h
  cases m with
  | none =>
    cases h
    exact .inl ⟨rfl, Forgets.refl none⟩
  | some state =>
    have hpurge := Forgets.purgeExpired state now
    generalize hstate : state.purgeExpired now = purged at hpurge
    simp only [hstate, HomeState.beginTurn] at h
    split at h
    · cases h
      exact .inl ⟨rfl, hpurge⟩
    · set kept := { purged with redirects := purged.redirects.filter fun _ redirect =>
        redirect.1 ≠ sessionId || redirect.2 = turnId }
      have hkept : Forgets (some state) (some kept) :=
        hpurge.trans ⟨fun hp => ⟨hp, rfl⟩, fun _ ha => ha, id⟩
      set parentActive := decide (parent ≠ []) && purged.isActive parent
      have hbridged : Forgets (some state)
          (some (if parentActive = true then kept.bridge parent sessionId turnId else kept)) := by
        split
        · exact hkept.trans (Forgets.bridge kept parent sessionId turnId)
        · exact hkept
      split at h
      · cases h
        exact .inr ⟨rfl, hbridged.begun sessionId turnId owner⟩
      · cases h
        exact .inl ⟨rfl, hbridged⟩

/-- A plan of the current turn of an active session is stored. -/
theorem Owned.setPlan {state : HomeState} (h : Owned (some state)) {turnId owner : Text}
    {plan : StoredPlan} (n : ℕ) (howner : plan.ownerToken = some owner)
    (hcurrent : current? (some state) plan.sessionId = some (turnId, owner))
    (hactive : IsActive (some state) plan.sessionId) :
    Owned (some { state with sequence := n, plans := state.plans.set turnId plan }) := by
  intro turnId' plan' hp
  replace hp : (state.plans.set turnId plan).get? turnId' = some plan' := hp
  rw [Dict.get?_set] at hp
  split at hp
  · rename_i heq
    cases hp
    exact ⟨owner, howner, heq ▸ hcurrent, hactive⟩
  · exact h turnId' plan' hp

theorem reserve_cases {lib : Stdlib} {args : ReserveArguments} {reserved : Bool}
    (h : m.reserve lib args now = .ok (reserved, m')) :
    (reserved = false ∧ Forgets m m') ∨ (reserved = true ∧ ∃ state timeout, m = some state ∧
      requireTimeout args.publishTimeoutSeconds = .ok timeout ∧
      (state.purgeExpired now).mayReserve args = true ∧
      (state.purgeExpired now).plans.get? args.turnId = none ∧
      m' = some { state.purgeExpired now with
        sequence := state.sequence + 1
        plans := (state.purgeExpired now).plans.set args.turnId
          (state.reservedPlan lib args timeout now) }) := by
  obtain ⟨_, -, h⟩ := bind_ok h
  obtain ⟨_, -, h⟩ := bind_ok h
  obtain ⟨_, -, h⟩ := bind_ok h
  obtain ⟨timeout, htimeout, h⟩ := bind_ok h
  cases m with
  | none =>
    cases h
    exact .inl ⟨rfl, Forgets.refl none⟩
  | some state =>
    simp only [HomeState.reserve] at h
    split at h
    · rename_i hmay
      cases h
      rw [Bool.and_eq_true, Option.isNone_iff_eq_none] at hmay
      exact .inr ⟨rfl, state, timeout, rfl, htimeout, hmay.1, hmay.2, rfl⟩
    · cases h
      exact .inl ⟨rfl, Forgets.purgeExpired state now⟩

/-- With an owner, `reserve` is for the current turn. -/
theorem current_of_mayReserve {state : HomeState} {args : ReserveArguments} {owner : Text}
    (howner : args.ownerToken = some owner) (h : state.mayReserve args = true) :
    current? (some state) args.sessionId = some (args.turnId, owner) ∧
      IsActive (some state) args.sessionId := by
  unfold HomeState.mayReserve at h
  rw [Bool.and_eq_true] at h
  refine ⟨?_, HomeState.isActive_iff.mp h.1⟩
  show state.currentTurns.get? args.sessionId = _
  have hturn := h.2
  split at hturn
  · rename_i heq
    rw [howner] at hturn
    rw [heq]
    simpa using hturn
  · rw [howner] at hturn
    cases hturn

theorem finalize_cases {args : FinalizeArguments} {finalized : Bool}
    (h : m.finalize args now = .ok (finalized, m')) :
    (finalized = false ∧ Forgets m m') ∨ (finalized = true ∧ ∃ state plan, m = some state ∧
      (state.purgeExpired now).plans.get? args.turnId = some plan ∧
      HomeState.mayFinalize plan args now = true ∧
      m' = some { state.purgeExpired now with
        plans := (state.purgeExpired now).plans.set args.turnId
          { plan with action := some args.action, rewrittenQuery := args.rewrittenQuery } }) := by
  obtain ⟨_, -, h⟩ := bind_ok h
  obtain ⟨_, -, h⟩ := bind_ok h
  cases m with
  | none =>
    cases h
    exact .inl ⟨rfl, Forgets.refl none⟩
  | some state =>
    simp only [HomeState.finalize] at h
    split at h
    · cases h
      exact .inl ⟨rfl, Forgets.purgeExpired state now⟩
    · rename_i plan hplan
      split at h
      · rename_i hmay
        cases h
        exact .inr ⟨rfl, state, plan, rfl, hplan, hmay, rfl⟩
      · cases h
        exact .inl ⟨rfl, Forgets.purgeExpired state now⟩

theorem Forgets.erasePlan (state : HomeState) (turnId : Text) :
    Forgets (some state) (some { state with plans := state.plans.erase turnId }) where
  plans := fun {turnId' plan} hp => by
    replace hp : (state.plans.erase turnId).get? turnId' = some plan := hp
    rw [Dict.get?_erase] at hp
    split at hp
    · cases hp
    · exact ⟨hp, rfl⟩
  active := fun _ ha => ha
  current := id

theorem cancel_cases {turnId : Text} {ownerToken : Option Text} {u : Unit}
    (h : m.cancel turnId ownerToken = .ok (u, m')) :
    (Forgets m m' ∧ ∀ plan, m'.plan? turnId = some plan → plan.ownerToken ≠ ownerToken) ∨
      ∃ state plan, m = some state ∧ state.plans.get? turnId = some plan ∧
        plan.ownerToken = ownerToken ∧ m' = ({ state with
          plans := state.plans.set turnId (HomeState.tombstone plan) } : HomeState).dropEmptyHome := by
  obtain ⟨_, -, h⟩ := bind_ok h
  cases m with
  | none =>
    cases h
    exact .inl ⟨Forgets.refl none, fun plan hp => by cases hp⟩
  | some state =>
    cases h
    have hkept := Forgets.dropEmptyHome (state.cancel turnId ownerToken)
    generalize hcancel : state.cancel turnId ownerToken = next at hkept
    simp only [HomeState.cancel] at hcancel
    split at hcancel
    · rename_i hnone
      subst hcancel
      refine .inl ⟨hkept, fun plan hp => ?_⟩
      rw [show state.plans.get? turnId = some plan from (hkept.plans hp).1] at hnone
      cases hnone
    · rename_i plan hplan
      split at hcancel
      · rename_i howner
        split at hcancel
        · subst hcancel
          refine .inl ⟨(Forgets.erasePlan state turnId).trans hkept, fun plan hp => ?_⟩
          replace hp : (state.plans.erase turnId).get? turnId = some plan := (hkept.plans hp).1
          rw [Dict.get?_erase, if_pos rfl] at hp
          cases hp
        · subst hcancel
          exact .inr ⟨state, plan, rfl, hplan, howner, rfl⟩
      · rename_i hother
        subst hcancel
        refine .inl ⟨hkept, fun plan' hp => ?_⟩
        rw [show state.plans.get? turnId = some plan' from (hkept.plans hp).1] at hplan
        cases hplan
        exact hother

/-! ## The rendezvous -/

/-- `consume` for this session looks at the turns of `effective`. -/
inductive Resolves (m : Mailbox) (sessionId effective turnId : Text) : Prop
  | self (heq : effective = sessionId)
  | bridged (hredirect : m.redirect? sessionId = some (effective, turnId))

/-- The stored plan that `consume` returns. -/
structure Takes (lib : Stdlib) (m : Mailbox) (sourceQuery sessionId : Text) (now : ℚ)
    (plan : RecallPlan) (stored : StoredPlan) : Prop where
  present : m.plan? plan.turnId = some stored
  fresh : now < stored.expiresAt
  resolves : Resolves m sessionId stored.sessionId plan.turnId
  digest : stored.queryDigest = (lib.sha256Text sourceQuery).text
  mode : plan.mode = stored.mode
  action : stored.action = some plan.action
  rewritten : plan.rewrittenQuery = stored.rewrittenQuery

theorem Forgets.closeTurn {state : HomeState} {sessionId turnId owner : Text}
    (howned : Owned (some state)) (h : state.currentTurns.get? sessionId = some (turnId, owner)) :
    Forgets (some state) (some (state.closeTurn sessionId turnId now)) where
  plans := fun {turnId' plan} hp => by
    replace hp : (state.plans.erase turnId).get? turnId' = some plan := hp
    rw [Dict.get?_erase] at hp
    split at hp
    · cases hp
    · rename_i hne
      refine ⟨hp, ?_⟩
      show (state.currentTurns.erase sessionId).get? plan.sessionId = _
      rw [Dict.get?_erase, if_neg]
      · rfl
      · intro heq
        obtain ⟨owner', -, hcurrent, -⟩ := howned turnId' plan hp
        rw [heq, show current? (some state) sessionId = some (turnId, owner) from h] at hcurrent
        cases hcurrent
        exact hne rfl
  active := fun _ ha => ha
  current := fun {other turn} hturn => by
    replace hturn : (state.currentTurns.erase sessionId).get? other = some turn := hturn
    rw [Dict.get?_erase] at hturn
    split at hturn
    · cases hturn
    · exact hturn

theorem Forgets.filterPlans (state : HomeState) (p : Text → StoredPlan → Bool) :
    Forgets (some state) (some { state with plans := state.plans.filter p }) where
  plans := fun {turnId plan} hp => by
    replace hp : (state.plans.filter p).get? turnId = some plan := hp
    rw [Dict.get?_filter, Option.filter_eq_some_iff] at hp
    exact ⟨hp.1, rfl⟩
  active := fun _ ha => ha
  current := id

/-- `consume` where the session is resolved returns a matching plan, which is gone afterwards. -/
theorem takePlan_plan {lib : Stdlib} {state : HomeState} {sourceQuery sessionId : Text}
    {redirected : Option Text} {result : HomeState.Consumed × HomeState}
    (h : state.takePlan lib sourceQuery sessionId redirected now = result) {plan : RecallPlan}
    (hresult : result.1.plan = some plan) :
    result.2.plans.get? plan.turnId = none ∧ ∃ stored,
      state.plans.get? plan.turnId = some stored ∧ stored.sessionId = sessionId ∧
      (redirected = none ∨ redirected = some plan.turnId) ∧
      stored.queryDigest = (lib.sha256Text sourceQuery).text ∧ plan.mode = stored.mode ∧
      stored.action = some plan.action ∧ plan.rewrittenQuery = stored.rewrittenQuery := by
  unfold HomeState.takePlan at h
  extract_lets current closed stored candidates found at h
  have hstored : ∀ turnId plan, (turnId, plan) ∈ stored →
      state.plans.get? turnId = some plan := by
    intro turnId plan hmem
    simp only [stored, current] at hmem
    split at hmem
    · obtain ⟨plan', hplan, heq⟩ := Option.map_eq_some_iff.mp (Option.mem_toList.mp hmem)
      cases heq
      exact hplan
    · exact Dict.mem_entries.mp hmem
  split at h
  · subst h
    cases hresult
  · rename_i turnId plan hmax
    subst h
    have hfound : (turnId, plan) ∈ found := List.argmax_mem hmax
    obtain ⟨hcandidate, hdigest⟩ := List.mem_filter.mp hfound
    obtain ⟨hmem, hmatch⟩ := List.mem_filter.mp hcandidate
    obtain ⟨action, haction, rfl⟩ := Option.map_eq_some_iff.mp hresult
    simp only [HomeState.isCandidate, Bool.and_eq_true, beq_iff_eq, Bool.or_eq_true,
      Option.isNone_iff_eq_none] at hmatch
    refine ⟨?_, plan, hstored turnId plan hmem, hmatch.1.1, hmatch.2, by simpa using hdigest, rfl,
      haction, rfl⟩
    have hkey : turnId ∈ found.map Prod.fst := List.mem_map_of_mem hfound
    rw [Dict.get?_filter, Option.filter_eq_none_iff]
    intro plan' _
    simpa using hkey

/-- `consume` where the session is resolved forgets. -/
theorem takePlan_forgets {lib : Stdlib} {state : HomeState} {sourceQuery sessionId : Text}
    {redirected : Option Text} {result : HomeState.Consumed × HomeState}
    (howned : Owned (some state))
    (h : state.takePlan lib sourceQuery sessionId redirected now = result) :
    Forgets (some state) (some result.2) := by
  unfold HomeState.takePlan at h
  extract_lets current closed stored candidates found at h
  have hclosed : Forgets (some state) (some closed) := by
    simp only [closed, current]
    split
    · rename_i hturn
      exact Forgets.closeTurn howned hturn
    · exact Forgets.refl _
  split at h
  · subst h
    exact hclosed
  · subst h
    exact hclosed.trans (Forgets.filterPlans closed _)

theorem resolveActiveSession_cases (state : HomeState) (sessionId : Text) :
    state.resolveActiveSession sessionId = (some (sessionId, none), state) ∨
      ∃ resolved, state.resolveActiveSession sessionId =
        (resolved, { state with redirects := state.redirects.erase sessionId }) ∧
        ∀ target turnId?, resolved = some (target, turnId?) → ∃ turnId, turnId? = some turnId ∧
          state.redirects.get? sessionId = some (target, turnId) := by
  unfold HomeState.resolveActiveSession
  split
  · exact .inl rfl
  · refine .inr ?_
    split
    · exact ⟨none, rfl, fun _ _ h => by cases h⟩
    · rename_i target turnId hredirect
      split
      · refine ⟨some (target, some turnId), rfl, fun _ _ h => ?_⟩
        cases h
        exact ⟨turnId, rfl, hredirect⟩
      · exact ⟨none, rfl, fun _ _ h => by cases h⟩

theorem consume_cases {lib : Stdlib} {sourceQuery sessionId : Text}
    {outcome : HomeState.Consumed} (howned : m.Owned)
    (h : m.consume lib sourceQuery sessionId now = .ok (outcome, m')) :
    Forgets m m' ∧ ∀ plan, outcome.plan = some plan →
      m'.plan? plan.turnId = none ∧ ∃ stored, Takes lib m sourceQuery sessionId now plan stored := by
  obtain ⟨_, -, h⟩ := bind_ok h
  obtain ⟨_, -, h⟩ := bind_ok h
  cases m with
  | none =>
    cases h
    exact ⟨Forgets.refl none, fun plan hplan => by cases hplan⟩
  | some state =>
    have hpurge := Forgets.purgeExpired state now
    have hfresh := @HomeState.plans_purgeExpired state now
    have hredirects : (state.purgeExpired now).redirects = state.redirects := rfl
    dsimp only at h
    generalize hconsume : (state.purgeExpired now).consume lib sourceQuery sessionId now = result
      at h
    generalize state.purgeExpired now = purged at hpurge hfresh hredirects hconsume
    obtain ⟨outcome', next⟩ := result
    cases h
    have hpurged : Owned (some purged) := hpurge.owned howned
    unfold HomeState.consume at hconsume
    rcases resolveActiveSession_cases purged sessionId with heq | ⟨resolved, heq, hresolved⟩
    · rw [heq] at hconsume
      refine ⟨hpurge.trans (takePlan_forgets hpurged hconsume), fun plan hplan => ?_⟩
      obtain ⟨hgone, stored, hstored, hsession, -, hdigest, hmode, haction, hrewritten⟩ :=
        takePlan_plan hconsume hplan
      exact ⟨hgone, stored, (hfresh hstored).1, (hfresh hstored).2, .self hsession, hdigest,
        hmode, haction, hrewritten⟩
    · rw [heq] at hconsume
      have hpopped : Forgets (some purged)
          (some { purged with redirects := purged.redirects.erase sessionId }) :=
        ⟨fun hp => ⟨hp, rfl⟩, fun _ ha => ha, id⟩
      cases resolved with
      | none =>
        cases hconsume
        exact ⟨hpurge.trans hpopped, fun plan hplan => by cases hplan⟩
      | some target =>
        have hforgets := takePlan_forgets (hpopped.owned hpurged) hconsume
        refine ⟨hpurge.trans (hpopped.trans hforgets), fun plan hplan => ?_⟩
        obtain ⟨hgone, stored, hstored, hsession, hturn, hdigest, hmode, haction, hrewritten⟩ :=
          takePlan_plan hconsume hplan
        obtain ⟨turnId, hsome, hredirect⟩ := hresolved target.1 target.2 rfl
        have hsame : turnId = plan.turnId := by
          rcases hturn with hnone | hsome'
          · rw [hnone] at hsome
            cases hsome
          · rw [hsome'] at hsome
            exact (Option.some.inj hsome).symm
        refine ⟨hgone, stored, (hfresh hstored).1, (hfresh hstored).2, .bridged ?_, hdigest,
          hmode, haction, hrewritten⟩
        show state.redirects.get? sessionId = _
        rw [← hredirects, hredirect, hsame, hsession]

/-! ## Redirects -/

/-- The change only forgets redirects. -/
def KeepsRedirects (m m' : Mailbox) : Prop :=
  ∀ sessionId redirect, m'.redirect? sessionId = some redirect →
    m.redirect? sessionId = some redirect

namespace KeepsRedirects

theorem refl (m : Mailbox) : KeepsRedirects m m := fun _ _ h => h

theorem of_eq {state next : HomeState} (h : next.redirects = state.redirects) :
    KeepsRedirects (some state) (some next) := by
  intro sessionId redirect hr
  replace hr : next.redirects.get? sessionId = some redirect := hr
  rw [h] at hr
  exact hr

theorem of_filter {state next : HomeState} (p : Text → Text × Text → Bool)
    (h : next.redirects = state.redirects.filter p) : KeepsRedirects (some state) (some next) := by
  intro sessionId redirect hr
  replace hr : next.redirects.get? sessionId = some redirect := hr
  rw [h, Dict.get?_filter, Option.filter_eq_some_iff] at hr
  exact hr.1

theorem trans {a b c : Mailbox} (h : KeepsRedirects a b) (h' : KeepsRedirects b c) :
    KeepsRedirects a c := fun sessionId redirect hr => h _ _ (h' sessionId redirect hr)

theorem dropEmptyHome {state next : HomeState} (h : next.redirects = state.redirects) :
    KeepsRedirects (some state) next.dropEmptyHome := by
  unfold HomeState.dropEmptyHome
  split
  · intro sessionId redirect hr
    cases hr
  · exact of_eq h

end KeepsRedirects

theorem redirects_clearOrphan (state : HomeState) (sessionId : Text) :
    (state.clearOrphan sessionId).redirects = state.redirects := by
  unfold HomeState.clearOrphan
  split <;> rfl

theorem redirects_cancel (state : HomeState) (turnId : Text) (ownerToken : Option Text) :
    (state.cancel turnId ownerToken).redirects = state.redirects := by
  unfold HomeState.cancel
  repeat' split
  all_goals rfl

theorem activate_redirects {sessionId token result : Text}
    (h : m.activate sessionId token now = .ok (result, m')) : KeepsRedirects m m' := by
  obtain ⟨_, -, h⟩ := bind_ok h
  cases h
  cases m with
  | none =>
    intro source redirect hr
    cases hr
  | some state => exact KeepsRedirects.of_eq rfl

theorem deactivate_redirects {token : Text} {u : Unit}
    (h : m.deactivate token now = .ok (u, m')) : KeepsRedirects m m' := by
  obtain ⟨_, -, h⟩ := bind_ok h
  cases m with
  | none =>
    cases h
    exact KeepsRedirects.refl none
  | some state =>
    dsimp only at h
    split at h
    · cases h
      exact KeepsRedirects.dropEmptyHome rfl
    · cases h
      exact KeepsRedirects.dropEmptyHome (redirects_clearOrphan _ _)

theorem rebind_redirects {token new parent : Text} {moved : Bool}
    (h : m.rebind token new parent now = .ok (moved, m')) : KeepsRedirects m m' := by
  obtain ⟨_, -, h⟩ := bind_ok h
  obtain ⟨_, -, h⟩ := bind_ok h
  cases m with
  | none => cases h
  | some state =>
    dsimp only at h
    split at h
    · cases h
    · split at h
      · cases h
        exact KeepsRedirects.of_eq rfl
      · split at h
        · cases h
          exact KeepsRedirects.of_eq rfl
        · cases h
          exact KeepsRedirects.of_eq (redirects_clearOrphan _ _)

theorem isActive_redirects {sessionId : Text} {active : Bool}
    (h : m.isActive sessionId now = .ok (active, m')) : KeepsRedirects m m' := by
  obtain ⟨_, -, h⟩ := bind_ok h
  cases m with
  | none =>
    cases h
    exact KeepsRedirects.refl none
  | some state =>
    cases h
    exact KeepsRedirects.of_eq rfl

theorem reserve_redirects {lib : Stdlib} {args : ReserveArguments} {reserved : Bool}
    (h : m.reserve lib args now = .ok (reserved, m')) : KeepsRedirects m m' := by
  obtain ⟨_, -, h⟩ := bind_ok h
  obtain ⟨_, -, h⟩ := bind_ok h
  obtain ⟨_, -, h⟩ := bind_ok h
  obtain ⟨timeout, -, h⟩ := bind_ok h
  cases m with
  | none =>
    cases h
    exact KeepsRedirects.refl none
  | some state =>
    simp only [HomeState.reserve] at h
    split at h
    · cases h
      exact KeepsRedirects.of_eq rfl
    · cases h
      exact KeepsRedirects.of_eq rfl

theorem finalize_redirects {args : FinalizeArguments} {finalized : Bool}
    (h : m.finalize args now = .ok (finalized, m')) : KeepsRedirects m m' := by
  obtain ⟨_, -, h⟩ := bind_ok h
  obtain ⟨_, -, h⟩ := bind_ok h
  cases m with
  | none =>
    cases h
    exact KeepsRedirects.refl none
  | some state =>
    simp only [HomeState.finalize] at h
    split at h
    · cases h
      exact KeepsRedirects.of_eq rfl
    · split at h
      · cases h
        exact KeepsRedirects.of_eq rfl
      · cases h
        exact KeepsRedirects.of_eq rfl

theorem cancel_redirects {turnId : Text} {ownerToken : Option Text} {u : Unit}
    (h : m.cancel turnId ownerToken = .ok (u, m')) : KeepsRedirects m m' := by
  obtain ⟨_, -, h⟩ := bind_ok h
  cases m with
  | none =>
    cases h
    exact KeepsRedirects.refl none
  | some state =>
    cases h
    exact KeepsRedirects.dropEmptyHome (redirects_cancel state turnId ownerToken)

theorem clearSessionPlans_redirects {sessionId : Text} {u : Unit}
    (h : m.clearSessionPlans sessionId = .ok (u, m')) : KeepsRedirects m m' := by
  obtain ⟨_, -, h⟩ := bind_ok h
  cases m with
  | none =>
    cases h
    exact KeepsRedirects.refl none
  | some state =>
    cases h
    exact KeepsRedirects.dropEmptyHome rfl

theorem purgeStale_redirects : KeepsRedirects m (m.purgeStale now) := by
  cases m with
  | none => exact KeepsRedirects.refl none
  | some state => exact KeepsRedirects.dropEmptyHome rfl

theorem takePlan_redirects {lib : Stdlib} {state : HomeState} {sourceQuery sessionId : Text}
    {redirected : Option Text} {result : HomeState.Consumed × HomeState}
    (h : state.takePlan lib sourceQuery sessionId redirected now = result) :
    KeepsRedirects (some state) (some result.2) := by
  unfold HomeState.takePlan at h
  extract_lets current closed stored candidates found at h
  have hclosed : KeepsRedirects (some state) (some closed) := by
    simp only [closed, current]
    split
    · rename_i turnId _ _
      exact KeepsRedirects.of_filter (fun _ redirect => redirect ≠ (sessionId, turnId)) rfl
    · exact KeepsRedirects.refl _
  split at h
  · subst h
    exact hclosed
  · subst h
    exact hclosed.trans (KeepsRedirects.of_eq rfl)

theorem consume_redirects {lib : Stdlib} {sourceQuery sessionId : Text}
    {outcome : HomeState.Consumed}
    (h : m.consume lib sourceQuery sessionId now = .ok (outcome, m')) : KeepsRedirects m m' := by
  obtain ⟨_, -, h⟩ := bind_ok h
  obtain ⟨_, -, h⟩ := bind_ok h
  cases m with
  | none =>
    cases h
    exact KeepsRedirects.refl none
  | some state =>
    dsimp only at h
    have hpurge : KeepsRedirects (some state) (some (state.purgeExpired now)) :=
      KeepsRedirects.of_eq rfl
    generalize hconsume : (state.purgeExpired now).consume lib sourceQuery sessionId now = result
      at h
    generalize state.purgeExpired now = purged at hpurge hconsume
    obtain ⟨outcome', next⟩ := result
    cases h
    unfold HomeState.consume at hconsume
    rcases resolveActiveSession_cases purged sessionId with heq | ⟨resolved, heq, -⟩
    · rw [heq] at hconsume
      exact hpurge.trans (takePlan_redirects hconsume)
    · rw [heq] at hconsume
      have hpopped : KeepsRedirects (some purged)
          (some { purged with redirects := purged.redirects.erase sessionId }) :=
        KeepsRedirects.of_filter (fun source _ => source ≠ sessionId) rfl
      cases resolved with
      | none =>
        cases hconsume
        exact hpurge.trans hpopped
      | some target => exact hpurge.trans (hpopped.trans (takePlan_redirects hconsume))

/-- A redirect that is new after `begin_turn` leads from the active parent to the begun turn. -/
theorem beginTurn_redirects {sessionId turnId parent owner : Text} {token : Option Text}
    (h : m.beginTurn sessionId turnId parent owner now = .ok (token, m')) {source : Text}
    {redirect : Text × Text} (hr : m'.redirect? source = some redirect) :
    m.redirect? source = some redirect ∨
      (source = parent ∧ parent ≠ [] ∧ redirect = (sessionId, turnId) ∧ token = some owner ∧
        m.IsActive parent) := by
  obtain ⟨_, -, h⟩ := bind_ok h
  obtain ⟨_, -, h⟩ := bind_ok h
  cases m with
  | none =>
    cases h
    exact .inl hr
  | some state =>
    dsimp only at h
    generalize hbegin : (state.purgeExpired now).beginTurn sessionId turnId parent owner = result
      at h
    obtain ⟨token', next⟩ := result
    cases h
    unfold HomeState.beginTurn at hbegin
    split at hbegin
    · cases hbegin
      exact .inl hr
    · extract_lets kept parentActive bridged cleared at hbegin
      have hkept : KeepsRedirects (some state) (some kept) :=
        KeepsRedirects.of_filter
          (fun _ redirect => redirect.1 ≠ sessionId || redirect.2 = turnId) rfl
      have hnext : next.redirects = bridged.redirects ∧
          (parentActive = true → token' = some owner) := by
        split at hbegin
        · obtain ⟨htoken, hstate⟩ := Prod.mk.inj hbegin
          exact ⟨hstate ▸ rfl, fun _ => htoken.symm⟩
        · rename_i hnone
          obtain ⟨-, hstate⟩ := Prod.mk.inj hbegin
          exact ⟨hstate ▸ rfl, fun hparent => absurd (by rw [hparent, Bool.or_true]) hnone⟩
      replace hr : next.redirects.get? source = some redirect := hr
      by_cases hparent : parentActive = true
      · rw [hnext.1, show bridged = kept.bridge parent sessionId turnId from if_pos hparent] at hr
        replace hr : ((kept.redirects.filter _).set parent (sessionId, turnId)).get? source =
          some redirect := hr
        rw [Dict.get?_set] at hr
        split at hr
        · rename_i hsource
          cases hr
          have hboth : decide (parent ≠ []) = true ∧
              (state.purgeExpired now).isActive parent = true :=
            Bool.and_eq_true _ _ ▸ hparent
          exact .inr ⟨hsource, of_decide_eq_true hboth.1, rfl, hnext.2 hparent,
            HomeState.isActive_iff.mp hboth.2⟩
        · rw [Dict.get?_filter, Option.filter_eq_some_iff] at hr
          exact .inl (hkept _ _ hr.1)
      · rw [hnext.1, show bridged = kept from if_neg hparent] at hr
        exact .inl (hkept _ _ hr)

end Mailbox

end BetterHindsight
