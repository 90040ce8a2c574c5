import BetterHindsight.Planner.Convergence

/-! # Sessions never move backward

Callbacks and planner bridges along a chain of any length, early, stale or repeated, with any flags,
and with pending and seen entries evicted.

* `ChainEvent`, `SessionChain.EventStep`: the events and what they do.
* `Placed`: the links at which provider and activation are; only the pairing of a pending callback
  with its parent is known of the rest.
* `session_forward`: neither position decreases, and the provider never passes the activation. -/

namespace BetterHindsight
set_option autoImplicit false

inductive ChainEvent where
  | callback (i : ℕ) (reset rewound : Bool) (clock : ℕ → ℚ)
  | bridge (i : ℕ) (turnId owner : Text) (now : ℚ)

def ChainEvent.link : ChainEvent → ℕ
  | callback i _ _ _ => i
  | bridge i _ _ _ => i

namespace SessionChain
variable {n : ℕ}

def after (chain : SessionChain n) (w : ProviderWorld) : ChainEvent → ProviderWorld
  | .callback i reset rewound clock =>
    w.onSessionSwitch ⟨chain.session (i + 1), reset, rewound⟩ (chain.session i) clock
  | .bridge i turnId owner now =>
    w.beginTurn (chain.session (i + 1)) turnId (chain.session i) owner now

def EventStep (chain : SessionChain n) (w : ProviderWorld) (event : ChainEvent)
    (w' : ProviderWorld) : Prop :=
  event.link < n ∧ w' = chain.after w event

end SessionChain

/-- A session that is cleared keeps its activations. -/
theorem Mailbox.clearSessionPlans_activation {m m' : Mailbox} {sessionId token old : Text} {u : Unit}
    (h : m.clearSessionPlans sessionId = .ok (u, m')) (hold : m.activation? token = some old) :
    m'.activation? token = some old := by
  obtain ⟨_, -, h⟩ := bind_ok h
  cases m with
  | none => cases hold
  | some state =>
    cases h
    replace hold : state.activations.get? token = some old := hold
    have hempty : (state.clearSession sessionId true).activations.isEmpty = false := by
      refine Bool.eq_false_iff.mpr fun hempty => ?_
      rw [show state.activations.get? token = none from Dict.isEmpty_iff.mp hempty token] at hold
      cases hold
    unfold HomeState.dropEmptyHome
    rw [hempty]
    exact hold

section Order
variable {n : ℕ} {chain : SessionChain n} {token : ActivationToken} {w : ProviderWorld} {p m : ℕ}

/-- The provider is at session `p` and its activation at session `m`. -/
structure ProviderWorld.At (w : ProviderWorld) (chain : SessionChain n) (token : ActivationToken)
    (p m : ℕ) : Prop where
  session : w.provider.sessionId = chain.session p
  bound : w.mailbox.activation? token.val = some (chain.session m)
  provider_le : p ≤ n
  activation_le : m ≤ n

theorem ProviderWorld.At.unique {p' m' : ℕ} (h : w.At chain token p m)
    (h' : w.At chain token p' m') : p = p' ∧ m = m' :=
  ⟨chain.distinct p h.provider_le p' h'.provider_le (h.session.symm.trans h'.session),
    chain.distinct m h.activation_le m' h'.activation_le
      (Option.some.inj (h.bound.symm.trans h'.bound))⟩

structure Placed (chain : SessionChain n) (token : ActivationToken) (w : ProviderWorld)
    (p m : ℕ) : Prop where
  started : w.provider.initialized = true
  session : w.provider.sessionId = chain.session p
  holds : w.provider.activation = some token
  bound : w.mailbox.activation? token.val = some (chain.session m)
  behind : p ≤ m
  within : m ≤ n
  pending : ∀ parent switch, w.provider.pendingSessionSwitches.get? parent = some switch →
    ∃ j < n, parent = chain.session j ∧ switch.newSessionId = chain.session (j + 1)

theorem Placed.at (h : Placed chain token w p m) : w.At chain token p m :=
  ⟨h.session, h.bound, h.behind.trans h.within, h.within⟩

/-- A switch along link `i` moves both forward or neither. -/
theorem Placed.switchLocked (h : Placed chain token w p m) {i : ℕ} (hi : i < n)
    {switch : PendingSwitch} (hnew : switch.newSessionId = chain.session (i + 1)) (now : ℚ) :
    ∃ p' m', Placed chain token (w.switchLocked switch (chain.session i) now).2 p' m' ∧
      p ≤ p' ∧ m ≤ m' := by
  obtain ⟨newSessionId, reset, rewound⟩ := switch
  obtain rfl : newSessionId = chain.session (i + 1) := hnew
  have hwithin := h.within
  have hbehind := h.behind
  have hnamed : chain.session (i + 1) ≠ [] := chain.named (i + 1) hi
  have hparent : chain.session i ≠ [] := chain.named i (by omega)
  unfold ProviderWorld.switchLocked
  rw [if_neg hnamed]
  by_cases hsame : chain.session (i + 1) = w.provider.sessionId
  · rw [if_pos hsame]
    split
    · split
      · rename_i hok
        exact ⟨p, m, { h with bound := Mailbox.clearSessionPlans_activation hok h.bound }, le_rfl,
          le_rfl⟩
      · exact ⟨p, m, h, le_rfl, le_rfl⟩
    · exact ⟨p, m, h, le_rfl, le_rfl⟩
  · rw [if_neg hsame]
    obtain ⟨mailbox, hrebind, hactivation⟩ :=
      @Mailbox.rebind_activation _ _ _ _ _ now token.property hnamed hparent h.bound
    simp only [h.holds, hrebind]
    by_cases hmoves : chain.session m = chain.session (i + 1) ∨ chain.session m = chain.session i
    · -- The activation is at one of the two sessions, so the provider is not past them.
      have hm : m = i + 1 ∨ m = i := by
        rcases hmoves with heq | heq
        · exact .inl (chain.distinct m hwithin (i + 1) hi heq)
        · exact .inr (chain.distinct m hwithin i (by omega) heq)
      rw [if_pos hmoves] at hactivation
      refine ⟨i + 1, i + 1, ⟨?_, ?_, ?_, hactivation, le_rfl, hi, ?_⟩, by omega, by omega⟩
      · rw [if_pos (decide_eq_true hmoves)]
        exact h.started
      · rw [if_pos (decide_eq_true hmoves)]
      · rw [if_pos (decide_eq_true hmoves)]
      · rw [if_pos (decide_eq_true hmoves)]
        exact h.pending
    · rw [if_neg hmoves] at hactivation
      have hstays : ¬ decide (chain.session m = chain.session (i + 1) ∨
          chain.session m = chain.session i) = true := by
        simpa using hmoves
      refine ⟨p, m, ?_, le_rfl, le_rfl⟩
      rw [if_neg hstays]
      exact { h with bound := hactivation }

/-- Neither the session nor the activation changes, and only callbacks of the chain wait. -/
theorem Placed.of_provider (h : Placed chain token w p m) {provider : ProviderSession}
    (hstarted : provider.initialized = w.provider.initialized)
    (hsession : provider.sessionId = w.provider.sessionId)
    (hholds : provider.activation = w.provider.activation)
    (hpending : ∀ parent switch, provider.pendingSessionSwitches.get? parent = some switch →
      w.provider.pendingSessionSwitches.get? parent = some switch ∨
        ∃ j < n, parent = chain.session j ∧ switch.newSessionId = chain.session (j + 1)) :
    Placed chain token ⟨provider, w.mailbox⟩ p m where
  started := hstarted.trans h.started
  session := hsession.trans h.session
  holds := hholds.trans h.holds
  bound := h.bound
  behind := h.behind
  within := h.within
  pending := fun parent switch hswitch => by
    rcases hpending parent switch hswitch with hold | hnew
    · exact h.pending parent switch hold
    · exact hnew

theorem Placed.remember (h : Placed chain token w p m) (sessionId : Text) :
    Placed chain token ⟨w.provider.rememberSessionId sessionId, w.mailbox⟩ p m := by
  unfold ProviderSession.rememberSessionId
  exact h.of_provider rfl rfl rfl fun _ _ hswitch => .inl hswitch

/-- Fewer callbacks wait. -/
theorem Placed.forget (h : Placed chain token w p m) {pending : Dict Text PendingSwitch}
    (hfewer : ∀ parent switch, pending.get? parent = some switch →
      w.provider.pendingSessionSwitches.get? parent = some switch) :
    Placed chain token ⟨{ w.provider with pendingSessionSwitches := pending }, w.mailbox⟩ p m :=
  h.of_provider rfl rfl rfl fun parent switch hswitch => .inl (hfewer parent switch hswitch)

theorem Placed.drainLoop {fuel : ℕ} {clock : ℕ → ℚ} (h : Placed chain token w p m) :
    ∃ p' m', Placed chain token (ProviderWorld.drainLoop fuel clock w) p' m' ∧
      p ≤ p' ∧ m ≤ m' := by
  induction fuel generalizing w p m clock with
  | zero => exact ⟨p, m, h, le_rfl, le_rfl⟩
  | succ fuel ih =>
    unfold ProviderWorld.drainLoop
    extract_lets parent
    cases hsome : w.provider.pendingSessionSwitches.get? parent with
    | none => exact ⟨p, m, h, le_rfl, le_rfl⟩
    | some switch =>
      dsimp only
      obtain ⟨j, hj, hparent, hnew⟩ := h.pending _ _ hsome
      have hpopped := @Placed.forget _ _ _ _ _ _ h
        (w.provider.pendingSessionSwitches.erase parent) fun source pending hpending => by
          rw [Dict.get?_erase] at hpending
          split at hpending
          · cases hpending
          · exact hpending
      obtain ⟨p₁, m₁, hlocked, hp₁, hm₁⟩ := hpopped.switchLocked hj hnew (clock 0)
      rw [← hparent] at hlocked
      generalize ProviderWorld.switchLocked _ switch parent (clock 0) = result at hlocked ⊢
      obtain ⟨accepted, next⟩ := result
      cases accepted with
      | false => exact ⟨p₁, m₁, hlocked, hp₁, hm₁⟩
      | true =>
        obtain ⟨p₂, m₂, hrest, hp₂, hm₂⟩ :=
          @ih _ _ _ (fun k => clock (k + 1)) (hlocked.remember switch.newSessionId)
        exact ⟨p₂, m₂, hrest, hp₁.trans hp₂, hm₁.trans hm₂⟩

theorem Placed.drain (h : Placed chain token w p m) (clock : ℕ → ℚ) :
    ∃ p' m', Placed chain token (w.drain clock) p' m' ∧ p ≤ p' ∧ m ≤ m' := by
  obtain ⟨p', m', hloop, hp, hm⟩ := @Placed.drainLoop _ _ _ _ _ _
    w.provider.pendingSessionSwitches.entries.length clock h
  refine ⟨p', m', hloop.forget fun parent switch hswitch => ?_, hp, hm⟩
  rw [Dict.get?_filter, Option.filter_eq_some_iff] at hswitch
  exact hswitch.1

/-- A callback waits under its parent, and may push out the oldest. -/
theorem Placed.addPending (h : Placed chain token w p m) {i : ℕ} (hi : i < n)
    {switch : PendingSwitch} (hnew : switch.newSessionId = chain.session (i + 1)) :
    Placed chain token ⟨w.provider.addPending (chain.session i) switch, w.mailbox⟩ p m := by
  refine h.of_provider rfl rfl rfl fun parent pending hpending => ?_
  have hset := Dict.get?_deleteOldest hpending
  rw [Dict.get?_set] at hset
  split at hset
  · rename_i hparent
    cases hset
    exact .inr ⟨i, hi, hparent, hnew⟩
  · exact .inl hset

theorem Placed.callback (h : Placed chain token w p m) {i : ℕ} (hi : i < n) {reset rewound : Bool}
    (clock : ℕ → ℚ) : ∃ p' m', Placed chain token (w.onSessionSwitch
      ⟨chain.session (i + 1), reset, rewound⟩ (chain.session i) clock) p' m' ∧
        p ≤ p' ∧ m ≤ m' := by
  obtain ⟨p₁, m₁, hlocked, hp₁, hm₁⟩ :=
    @Placed.switchLocked _ _ _ _ _ _ h i hi ⟨chain.session (i + 1), reset, rewound⟩ rfl (clock 0)
  unfold ProviderWorld.onSessionSwitch
  rw [if_pos h.started]
  generalize w.switchLocked _ (chain.session i) (clock 0) = result at hlocked ⊢
  obtain ⟨applied, next⟩ := result
  cases applied with
  | true =>
    obtain ⟨p₂, m₂, hdrain, hp₂, hm₂⟩ :=
      (hlocked.remember (chain.session (i + 1))).drain fun k => clock (k + 1)
    exact ⟨p₂, m₂, hdrain, hp₁.trans hp₂, hm₁.trans hm₂⟩
  | false =>
    dsimp only
    rw [if_neg Bool.false_ne_true]
    split
    · exact ⟨p₁, m₁, hlocked.addPending hi rfl, hp₁, hm₁⟩
    · exact ⟨p₁, m₁, hlocked, hp₁, hm₁⟩

theorem Placed.bridge (h : Placed chain token w p m) {i : ℕ} (hi : i < n) (turnId owner : Text)
    (now : ℚ) : ∃ m', Placed chain token
      (w.beginTurn (chain.session (i + 1)) turnId (chain.session i) owner now) p m' ∧ m ≤ m' := by
  obtain ⟨hprovider, hmailbox⟩ := @ProviderWorld.beginTurn_activation w (chain.session (i + 1))
    turnId (chain.session i) owner token.val _ now h.bound
  have hbehind := h.behind
  rcases hmailbox with hkept | ⟨hparent, hmoved⟩
  · refine ⟨m, ⟨?_, ?_, ?_, hkept, hbehind, h.within, ?_⟩, le_rfl⟩
    all_goals rw [hprovider]
    · exact h.started
    · exact h.session
    · exact h.holds
    · exact h.pending
  · have hm : m = i := chain.distinct m h.within i (by omega) hparent
    refine ⟨i + 1, ⟨?_, ?_, ?_, hmoved, by omega, hi, ?_⟩, by omega⟩
    all_goals rw [hprovider]
    · exact h.started
    · exact h.session
    · exact h.holds
    · exact h.pending

theorem Placed.step (h : Placed chain token w p m) {event : ChainEvent} {w' : ProviderWorld}
    (hstep : chain.EventStep w event w') :
    ∃ p' m', Placed chain token w' p' m' ∧ p ≤ p' ∧ m ≤ m' := by
  obtain ⟨hi, rfl⟩ := hstep
  cases event with
  | callback i reset rewound clock => exact h.callback hi clock
  | bridge i turnId owner now =>
    obtain ⟨m', hplaced, hm⟩ := h.bridge hi turnId owner now
    exact ⟨p, m', hplaced, le_rfl, hm⟩

/-- An initialized provider and its activation are at the same session. -/
theorem placed_initial {k : ℕ} (hk : k ≤ n) (now : ℚ) (mailbox : Mailbox) :
    Placed chain token
      (ProviderSession.initializeLocked true (chain.session k) token now mailbox) k k := by
  have hnamed := chain.named k hk
  have hactivate : ∃ state, mailbox.activate (chain.session k) token.val now =
      .ok (token.val, some state) ∧ state.activations.get? token.val = some (chain.session k) := by
    unfold Mailbox.activate requireText
    rw [if_neg hnamed]
    exact ⟨_, rfl, by rw [Dict.get?_set, if_pos rfl]⟩
  obtain ⟨state, hok, hbound⟩ := hactivate
  unfold ProviderSession.initializeLocked
  rw [if_pos ⟨hnamed, rfl⟩, hok]
  exact ⟨rfl, rfl, rfl, hbound, le_rfl, hk, fun parent switch hswitch => by cases hswitch⟩

end Order

theorem session_forward {n : ℕ} {chain : SessionChain n} {token : ActivationToken} {k : ℕ}
    {now : ℚ} {mailbox : Mailbox} (hk : k ≤ n) {tr : List (Transition ProviderWorld ChainEvent)}
    {w : ProviderWorld} (hrun : Run chain.EventStep
      (ProviderSession.initializeLocked true (chain.session k) token now mailbox) tr w) :
    (∃ p m, w.At chain token p m ∧ p ≤ m) ∧
    ∀ e ∈ tr, ∃ p m p' m', e.before.At chain token p m ∧ e.after.At chain token p' m' ∧
      p ≤ m ∧ p' ≤ m' ∧ p ≤ p' ∧ m ≤ m' := by
  have hstep : ∀ a event b, (∃ p m, Placed chain token a p m) → chain.EventStep a event b →
      ∃ p m, Placed chain token b p m := by
    rintro a event b ⟨p, m, ha⟩ hab
    obtain ⟨p', m', hb, -⟩ := ha.step hab
    exact ⟨p', m', hb⟩
  have hinitial := @placed_initial n chain token k hk now mailbox
  refine ⟨?_, fun e he => ?_⟩
  · obtain ⟨p, m, hw⟩ := hrun.invariant ⟨k, k, hinitial⟩ hstep
    exact ⟨p, m, hw.at, hw.behind⟩
  · obtain ⟨⟨p, m, hbefore⟩, he⟩ := hrun.invariant_at ⟨k, k, hinitial⟩ hstep e he
    obtain ⟨p', m', hafter, hp, hm⟩ := hbefore.step he
    exact ⟨p, m, p', m', hbefore.at, hafter.at, hbefore.behind, hafter.behind, hp, hm⟩

/-- A callback before its parent's, a bridge, the parent's callback, and the bridge once more. -/
def unorderedEvents : List ChainEvent :=
  [.callback 1 false false fun _ => 0, .bridge 0 "t1".toList "o1".toList 0,
    .callback 0 true false fun _ => 0, .bridge 0 "t2".toList "o2".toList 0]

theorem session_forward_unordered : ∃ p m,
    (unorderedEvents.foldl twoSwitches.after beforeSwitches).At twoSwitches switchToken p m ∧
      p ≤ m := by
  have hrun : Run twoSwitches.EventStep beforeSwitches
      (traceOf twoSwitches.after beforeSwitches unorderedEvents)
      (unorderedEvents.foldl twoSwitches.after beforeSwitches) := by
    have hlinks : ∀ event ∈ unorderedEvents, event.link < 2 := by decide
    exact Run.traceOf (fun _ event he => ⟨hlinks event he, rfl⟩) beforeSwitches
  exact (session_forward (Nat.zero_le 2) hrun).1

end BetterHindsight
