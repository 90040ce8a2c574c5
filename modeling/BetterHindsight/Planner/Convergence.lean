import BetterHindsight.Planner.SessionSwitch

/-! # Where a chain of session switches leads

Provider and activation move along a chain of sessions, the provider through its callbacks and the
activation through callbacks and bridges.

* `Tracks`: the links at which provider and activation are, and what may be pending.
* `callback_tracks`: what one callback does when it is on time, early or late.
* `Told`: what the callbacks so far tell about the state.
* `switch_convergence`: when the whole chain is followed. -/

namespace BetterHindsight
set_option autoImplicit false

/-! ## The activation -/

theorem Mailbox.rebind_activation {m : Mailbox} {token new parent old : Text} {now : ℚ}
    (htoken : token ≠ []) (hnew : new ≠ []) (hparent : parent ≠ [])
    (hold : m.activation? token = some old) :
    ∃ m', m.rebind token new parent now = .ok (decide (old = new ∨ old = parent), m') ∧
      m'.activation? token = some (if old = new ∨ old = parent then new else old) := by
  cases m with
  | none => cases hold
  | some state =>
    replace hold : state.activations.get? token = some old := hold
    have hpurged : (state.purgeExpired now).activations = state.activations := rfl
    have hkeeps : ∀ (s : HomeState) (sessionId : Text),
        (s.clearOrphan sessionId).activations = s.activations := by
      intro s sessionId
      unfold HomeState.clearOrphan
      split <;> rfl
    simp only [Mailbox.rebind, requireText, if_neg htoken, if_neg hnew, hold]
    by_cases hsame : old = new
    · subst hsame
      exact ⟨some (state.purgeExpired now), by simp [pure, Except.pure, bind, Except.bind],
        by simp [Mailbox.activation?, hpurged, hold]⟩
    · by_cases hold' : old = parent
      · subst hold'
        refine ⟨_, by simp [hsame, pure, Except.pure, bind, Except.bind]; rfl, ?_⟩
        show (HomeState.clearOrphan _ old).activations.get? token = _
        rw [hkeeps, Dict.get?_set, if_pos rfl, if_pos (.inr rfl)]
      · refine ⟨some (state.purgeExpired now), ?_, ?_⟩
        · simp [hsame, hold', hparent, pure, Except.pure, bind, Except.bind]
        · simp [Mailbox.activation?, hpurged, hold, hsame, hold']

theorem HomeState.beginTurn_activation {state : HomeState} {s t parent owner token old : Text}
    (hold : state.activations.get? token = some old) :
    (state.beginTurn s t parent owner).2.activations.get? token = some old ∨
      old = parent ∧ (state.beginTurn s t parent owner).2.activations.get? token = some s := by
  unfold HomeState.beginTurn
  split
  · exact .inl hold
  · extract_lets kept parentActive bridged cleared
    have hbridged : bridged.activations.get? token = some old ∨
        old = parent ∧ bridged.activations.get? token = some s := by
      simp only [bridged]
      split
      · have hget : (kept.bridge parent s t).activations.get? token =
            some (if old = parent then s else old) := by
          show (state.activations.mapValues _).get? token = _
          rw [Dict.get?_mapValues, hold, Option.map_some]
        by_cases hp : old = parent
        · exact .inr ⟨hp, by rw [hget, if_pos hp]⟩
        · exact .inl (by rw [hget, if_neg hp])
      · exact .inl hold
    split
    · exact hbridged
    · exact hbridged

theorem ProviderWorld.beginTurn_activation {w : ProviderWorld} {s t parent owner token old : Text}
    {now : ℚ} (hold : w.mailbox.activation? token = some old) :
    (w.beginTurn s t parent owner now).provider = w.provider ∧
      ((w.beginTurn s t parent owner now).mailbox.activation? token = some old ∨
        old = parent ∧ (w.beginTurn s t parent owner now).mailbox.activation? token = some s) := by
  unfold ProviderWorld.beginTurn
  split
  · rename_i result mailbox hok
    refine ⟨rfl, ?_⟩
    obtain ⟨_, -, hok⟩ := bind_ok hok
    obtain ⟨_, -, hok⟩ := bind_ok hok
    obtain ⟨provider, m⟩ := w
    cases m with
    | none => cases hold
    | some state =>
      cases hok
      exact HomeState.beginTurn_activation hold
  · exact ⟨rfl, .inl hold⟩

/-! ## Links -/

section Links
variable {n : ℕ} {chain : SessionChain n} {token : ActivationToken} {w : ProviderWorld} {p m : ℕ}

/-- The callback of a link waits for its parent's. -/
def ProviderWorld.Awaits (w : ProviderWorld) (chain : SessionChain n) (i : ℕ) : Prop :=
  w.provider.pendingSessionSwitches.get? (chain.session i) ≠ none

/-- The provider is at session `p` of the chain and the activation at session `m`. -/
structure Tracks (chain : SessionChain n) (token : ActivationToken) (w : ProviderWorld)
    (p m : ℕ) : Prop where
  started : w.provider.initialized = true
  session : w.provider.sessionId = chain.session p
  holds : w.provider.activation = some token
  bound : w.mailbox.activation? token.val = some (chain.session m)
  behind : p ≤ m
  within : m ≤ n
  pending : ∀ parent switch, w.provider.pendingSessionSwitches.get? parent = some switch →
    ∃ j < n, parent = chain.session j ∧ switch = ⟨chain.session (j + 1), false, false⟩
  seen : ∀ sessionId seen, w.provider.seenSessionIds.get? sessionId = some seen →
    ∃ j ≤ p, sessionId = chain.session j

/-- The pending callback of a link. -/
theorem Tracks.awaited (h : Tracks chain token w p m) {i : ℕ} (hi : i ≤ n)
    (hwait : w.Awaits chain i) : i < n ∧
      w.provider.pendingSessionSwitches.get? (chain.session i) =
        some ⟨chain.session (i + 1), false, false⟩ := by
  obtain ⟨switch, hswitch⟩ := Option.ne_none_iff_exists'.mp hwait
  obtain ⟨j, hj, hparent, hvalue⟩ := h.pending _ _ hswitch
  obtain rfl : i = j := chain.distinct i hi j (by omega) hparent
  exact ⟨hj, hvalue ▸ hswitch⟩

theorem Tracks.pending_length (h : Tracks chain token w p m) :
    w.provider.pendingSessionSwitches.entries.length ≤ n := by
  have hkeys : ∀ parent switch,
      w.provider.pendingSessionSwitches.get? parent = some switch →
        parent ∈ (List.range n).map chain.session := by
    intro parent switch hswitch
    obtain ⟨j, hj, rfl, -⟩ := h.pending parent switch hswitch
    exact List.mem_map_of_mem (List.mem_range.mpr hj)
  have hle := Dict.length_le_of_keys hkeys
  simpa using hle

/-- A session that the provider has passed by or not reached is unseen. -/
theorem Tracks.unseen (h : Tracks chain token w p m) {i : ℕ} (hi : i ≤ n) (hp : p < i) :
    w.provider.seenSessionIds.get? (chain.session i) = none := by
  cases hseen : w.provider.seenSessionIds.get? (chain.session i) with
  | none => rfl
  | some seen =>
    obtain ⟨j, hj, heq⟩ := h.seen _ _ hseen
    have hbehind := h.behind
    have hwithin := h.within
    have := chain.distinct i hi j (by omega) heq
    omega

/-- The state after the provider moved to the session of the activation. -/
theorem Tracks.switched (h : Tracks chain token w p m) {i : ℕ} (hi : i < n)
    (hm : m = i ∨ m = i + 1) {provider : ProviderSession} {mailbox : Mailbox}
    (hmailbox : mailbox.activation? token.val = some (chain.session (i + 1)))
    (hprovider : provider = { w.provider with sessionId := chain.session (i + 1) }) :
    Tracks chain token ⟨provider.rememberSessionId (chain.session (i + 1)), mailbox⟩
      (i + 1) (i + 1) where
  started := by rw [hprovider]; exact h.started
  session := by rw [hprovider]; rfl
  holds := by rw [hprovider]; exact h.holds
  bound := hmailbox
  behind := le_rfl
  within := hi
  pending := by rw [hprovider]; exact h.pending
  seen := by
    intro sessionId seen hseen
    rw [hprovider] at hseen
    have hset := Dict.get?_deleteOldest hseen
    rw [Dict.get?_set] at hset
    split at hset
    · rename_i heq
      exact ⟨i + 1, le_rfl, heq⟩
    · rw [Dict.get?_erase] at hset
      split at hset
      · cases hset
      · obtain ⟨j, hj, heq⟩ := h.seen _ _ hset
        have hbehind := h.behind
        exact ⟨j, by omega, heq⟩

/-- A switch to the next session: it is accepted where the activation is at one of the two. -/
theorem Tracks.switchLocked (h : Tracks chain token w p m) {i : ℕ} (hi : i < n) (hp : p ≠ i + 1)
    (now : ℚ) : ∃ mailbox,
      w.switchLocked ⟨chain.session (i + 1), false, false⟩ (chain.session i) now =
        (decide (m = i ∨ m = i + 1), ⟨if m = i ∨ m = i + 1 then
          { w.provider with sessionId := chain.session (i + 1) } else w.provider, mailbox⟩) ∧
      mailbox.activation? token.val =
        some (chain.session (if m = i ∨ m = i + 1 then i + 1 else m)) := by
  have hwithin := h.within
  have hbehind := h.behind
  have hnew : chain.session (i + 1) ≠ [] := chain.named (i + 1) hi
  have hparent : chain.session i ≠ [] := chain.named i (by omega)
  have hother : chain.session (i + 1) ≠ w.provider.sessionId := by
    rw [h.session]
    intro heq
    exact hp (chain.distinct (i + 1) hi p (by omega) heq).symm
  have hiff : (chain.session m = chain.session (i + 1) ∨ chain.session m = chain.session i) ↔
      (m = i ∨ m = i + 1) := by
    constructor
    · rintro (heq | heq)
      · exact .inr (chain.distinct m hwithin (i + 1) hi heq)
      · exact .inl (chain.distinct m hwithin i (by omega) heq)
    · rintro (rfl | rfl)
      · exact .inr rfl
      · exact .inl rfl
  obtain ⟨mailbox, hrebind, hactivation⟩ :=
    @Mailbox.rebind_activation _ _ _ _ _ now token.property hnew hparent h.bound
  refine ⟨mailbox, ?_, ?_⟩
  · simp only [ProviderWorld.switchLocked, if_neg hnew, if_neg hother, h.holds, hrebind, hiff,
      decide_eq_true_eq]
  · simp only [hiff] at hactivation
    rw [hactivation]
    split <;> rfl

/-! ## Draining -/

/-- Draining leads from session `q` to session `r` and takes the callbacks between them. -/
structure Drained (chain : SessionChain n) (w w' : ProviderWorld) (q r : ℕ) : Prop where
  le : q ≤ r
  taken : ∀ j, q ≤ j → j < r → w.Awaits chain j
  stopped : ¬ w.Awaits chain r
  kept : ∀ j, r < j → j ≤ n → w.Awaits chain j → w'.Awaits chain j
  fewer : ∀ j, w'.Awaits chain j → w.Awaits chain j

theorem Drained.nothing {q : ℕ} (h : ¬ w.Awaits chain q) : Drained chain w w q q :=
  ⟨le_rfl, fun j hq hj => by omega, h, fun _ _ _ hj => hj, fun _ hj => hj⟩

/-- One round of the loop that takes a callback and accepts it. -/
theorem ProviderWorld.drainLoop_accepted {fuel : ℕ} {clock : ℕ → ℚ} {parent : Text}
    {switch : PendingSwitch} {next : ProviderWorld} (hparent : w.provider.sessionId = parent)
    (hswitch : w.provider.pendingSessionSwitches.get? parent = some switch)
    (hlocked : (⟨{ w.provider with
        pendingSessionSwitches := w.provider.pendingSessionSwitches.erase parent }, w.mailbox⟩ :
          ProviderWorld).switchLocked switch parent (clock 0) = (true, next)) :
    drainLoop (fuel + 1) clock w = drainLoop fuel (fun k => clock (k + 1))
      ⟨next.provider.rememberSessionId switch.newSessionId, next.mailbox⟩ := by
  subst hparent
  simp only [drainLoop, hswitch]
  rw [hlocked]
  rfl

/-- The loop ends with nothing left to take, since every round takes an entry. -/
theorem Tracks.drainLoop {fuel q : ℕ} {clock : ℕ → ℚ} (h : Tracks chain token w q q)
    (hfuel : w.provider.pendingSessionSwitches.entries.length ≤ fuel) :
    ∃ r, Tracks chain token (ProviderWorld.drainLoop fuel clock w) r r ∧
      Drained chain w (ProviderWorld.drainLoop fuel clock w) q r := by
  induction fuel generalizing w q clock with
  | zero =>
    refine ⟨q, h, Drained.nothing ?_⟩
    intro hwait
    obtain ⟨-, hswitch⟩ := h.awaited h.within hwait
    have hmem := Dict.mem_entries.mpr hswitch
    rw [List.eq_nil_of_length_eq_zero (Nat.le_zero.mp hfuel)] at hmem
    cases hmem
  | succ fuel ih =>
    cases hsome : w.provider.pendingSessionSwitches.get? (chain.session q) with
    | none =>
      simp only [ProviderWorld.drainLoop, h.session, hsome]
      exact ⟨q, h, Drained.nothing fun hwait => hwait hsome⟩
    | some switch =>
      have hwait : w.Awaits chain q := by rw [ProviderWorld.Awaits, hsome]; simp
      obtain ⟨hq, hswitch⟩ := h.awaited h.within hwait
      obtain rfl : switch = ⟨chain.session (q + 1), false, false⟩ :=
        Option.some.inj (hsome.symm.trans hswitch)
      set popped : ProviderWorld := ⟨{ w.provider with
        pendingSessionSwitches := w.provider.pendingSessionSwitches.erase (chain.session q) },
        w.mailbox⟩
      have hget : ∀ parent, popped.provider.pendingSessionSwitches.get? parent =
          if parent = chain.session q then none
          else w.provider.pendingSessionSwitches.get? parent := fun parent => Dict.get?_erase _ _ _
      have hpopped : Tracks chain token popped q q :=
        { h with
          pending := by
            intro parent switch hpending
            rw [hget] at hpending
            split at hpending
            · cases hpending
            · exact h.pending parent switch hpending }
      have hless : ∀ j, popped.Awaits chain j → w.Awaits chain j := by
        intro j hj hnone
        apply hj
        rw [hget, hnone, ite_self]
      have hrest : ∀ j ≤ n, q < j → w.Awaits chain j → popped.Awaits chain j := by
        intro j hj hlt hjwait
        rw [ProviderWorld.Awaits, hget, if_neg]
        · exact hjwait
        · intro heq
          have := chain.distinct j hj q (by omega) heq
          omega
      obtain ⟨mailbox, hlocked, hbound⟩ := hpopped.switchLocked hq (by omega) (clock 0)
      simp only [true_or, decide_true, if_true] at hlocked hbound
      rw [ProviderWorld.drainLoop_accepted h.session hsome hlocked]
      have hnext := hpopped.switched hq (.inl rfl) hbound rfl
      have hlength := Dict.length_erase hsome
      obtain ⟨r, hr, hdrained⟩ := @ih _ _ (fun k => clock (k + 1)) hnext (by
        show (w.provider.pendingSessionSwitches.erase _).entries.length ≤ fuel
        omega)
      have hle := hdrained.le
      have hwithin := hr.within
      refine ⟨r, hr, ⟨by omega, ?_, ?_, ?_, ?_⟩⟩
      · intro j hqj hj
        by_cases heq : j = q
        · exact heq ▸ hwait
        · exact hless j (hdrained.taken j (by omega) hj)
      · intro hwaits
        exact hdrained.stopped (hrest r hwithin (by omega) hwaits)
      · intro j hj hjn hjwait
        exact hdrained.kept j hj hjn (hrest j hjn (by omega) hjwait)
      · intro j hj
        exact hless j (hdrained.fewer j hj)

/-- Nothing of a later link is stale. -/
theorem Tracks.dropStale {q : ℕ} (h : Tracks chain token w q q) :
    Tracks chain token ⟨w.provider.dropStale, w.mailbox⟩ q q ∧
      ∀ j, ((⟨w.provider.dropStale, w.mailbox⟩ : ProviderWorld).Awaits chain j →
        w.Awaits chain j) ∧ (q < j → j ≤ n → w.Awaits chain j →
          (⟨w.provider.dropStale, w.mailbox⟩ : ProviderWorld).Awaits chain j) := by
  have hget : ∀ parent, w.provider.dropStale.pendingSessionSwitches.get? parent =
      (w.provider.pendingSessionSwitches.get? parent).filter fun _ =>
        (w.provider.seenSessionIds.get? parent).isNone || parent == w.provider.sessionId :=
    fun parent => Dict.get?_filter _ _ _
  refine ⟨{ h with pending := ?_ }, fun j => ⟨?_, ?_⟩⟩
  · intro parent switch hpending
    rw [hget, Option.filter_eq_some_iff] at hpending
    exact h.pending parent switch hpending.1
  · intro hj hnone
    apply hj
    rw [hget, hnone, Option.filter_none]
  · intro hq hjn hj
    obtain ⟨-, hswitch⟩ := h.awaited hjn hj
    rw [ProviderWorld.Awaits, hget, hswitch, h.unseen hjn hq]
    simp

theorem Tracks.drain {q : ℕ} (h : Tracks chain token w q q) (clock : ℕ → ℚ) :
    ∃ r, Tracks chain token (w.drain clock) r r ∧ Drained chain w (w.drain clock) q r := by
  obtain ⟨r, hr, hdrained⟩ := @Tracks.drainLoop _ _ _ _ _ _ clock h le_rfl
  obtain ⟨hstale, hkept⟩ := hr.dropStale
  refine ⟨r, hstale, { hdrained with kept := ?_, fewer := ?_ }⟩
  · intro j hj hjn hwait
    exact (hkept j).2 hj hjn (hdrained.kept j hj hjn hwait)
  · intro j hj
    exact hdrained.fewer j ((hkept j).1 hj)

/-! ## One callback -/

/-- What the callback of link `i` does, by the session at which the activation is. -/
inductive SwitchEffect (chain : SessionChain n) (token : ActivationToken) (w w' : ProviderWorld)
    (p m i : ℕ) : Prop
  | onTime {r : ℕ} (hm : m = i ∨ m = i + 1) (h : Tracks chain token w' r r)
      (hdrained : Drained chain w w' (i + 1) r)
  | early (hm : m < i) (h : Tracks chain token w' p m) (hwaits : w'.Awaits chain i)
      (hkept : ∀ j, w.Awaits chain j → w'.Awaits chain j)
      (hfewer : ∀ j ≤ n, w'.Awaits chain j → w.Awaits chain j ∨ j = i)
  | late (hm : i + 1 < m) (h : Tracks chain token w' p m)
      (hkept : ∀ j, w.Awaits chain j → w'.Awaits chain j)
      (hfewer : ∀ j ≤ n, w'.Awaits chain j → w.Awaits chain j ∨ j = i)

/-- A callback that is not accepted waits, unless its parent was seen. -/
theorem Tracks.addPending (h : Tracks chain token w p m) {i : ℕ} (hi : i < n)
    (hn : n ≤ MAX_PENDING_SESSION_SWITCHES) {mailbox : Mailbox}
    (hbound : mailbox.activation? token.val = some (chain.session m)) :
    Tracks chain token ⟨w.provider.addPending (chain.session i)
        ⟨chain.session (i + 1), false, false⟩, mailbox⟩ p m ∧
      ∀ parent, (w.provider.addPending (chain.session i)
        ⟨chain.session (i + 1), false, false⟩).pendingSessionSwitches.get? parent =
          if parent = chain.session i then some ⟨chain.session (i + 1), false, false⟩
          else w.provider.pendingSessionSwitches.get? parent := by
  have hset : ∀ parent switch, (w.provider.pendingSessionSwitches.set (chain.session i)
      ⟨chain.session (i + 1), false, false⟩).get? parent = some switch →
      ∃ j < n, parent = chain.session j ∧ switch = ⟨chain.session (j + 1), false, false⟩ := by
    intro parent switch hswitch
    rw [Dict.get?_set] at hswitch
    split at hswitch
    · rename_i heq
      exact ⟨i, hi, heq, (Option.some.inj hswitch).symm⟩
    · exact h.pending parent switch hswitch
  have hkeys : ∀ parent switch,
      (w.provider.pendingSessionSwitches.set (chain.session i)
        ⟨chain.session (i + 1), false, false⟩).get? parent = some switch →
          parent ∈ (List.range n).map chain.session := by
    intro parent switch hswitch
    obtain ⟨j, hj, rfl, -⟩ := hset parent switch hswitch
    exact List.mem_map_of_mem (List.mem_range.mpr hj)
  have hlength := Dict.length_le_of_keys hkeys
  rw [List.length_map, List.length_range] at hlength
  have heq : (w.provider.addPending (chain.session i)
      ⟨chain.session (i + 1), false, false⟩).pendingSessionSwitches =
      w.provider.pendingSessionSwitches.set (chain.session i)
        ⟨chain.session (i + 1), false, false⟩ := Dict.deleteOldest_of_le (hlength.trans hn)
  refine ⟨{ h with bound := hbound, pending := ?_ }, fun parent => ?_⟩
  · intro parent switch hpending
    exact hset parent switch (heq ▸ hpending)
  · rw [heq, Dict.get?_set]

theorem callback_tracks (h : Tracks chain token w p m) {i : ℕ} (hi : i < n) (hp : p ≠ i + 1)
    (hn : n ≤ MAX_PENDING_SESSION_SWITCHES) (clock : ℕ → ℚ) :
    SwitchEffect chain token w (chain.next w (.callback i clock)) p m i := by
  have hbehind := h.behind
  obtain ⟨mailbox, hlocked, hbound⟩ := h.switchLocked hi hp (clock 0)
  show SwitchEffect chain token w (w.onSessionSwitch _ _ clock) p m i
  unfold ProviderWorld.onSessionSwitch
  rw [if_pos h.started, hlocked]
  by_cases hm : m = i ∨ m = i + 1
  · simp only [hm, decide_true, if_true] at hbound ⊢
    have hnext := h.switched hi hm hbound rfl
    obtain ⟨r, hr, hdrained⟩ := hnext.drain fun k => clock (k + 1)
    exact .onTime hm hr ⟨hdrained.le, hdrained.taken, hdrained.stopped, hdrained.kept,
      hdrained.fewer⟩
  · simp only [hm, decide_false, if_false, Bool.false_eq_true] at hbound ⊢
    obtain ⟨hadded, hget⟩ := h.addPending hi hn hbound
    generalize hnext : (if chain.session i ≠ [] ∧
      w.provider.seenSessionIds.get? (chain.session i) = none then
        (⟨w.provider.addPending (chain.session i) ⟨chain.session (i + 1), false, false⟩, mailbox⟩ :
          ProviderWorld) else ⟨w.provider, mailbox⟩) = next
    have htracks : Tracks chain token next p m := by
      rw [← hnext]
      split
      · exact hadded
      · exact { h with bound := hbound }
    have hkept : ∀ j, w.Awaits chain j → next.Awaits chain j := by
      intro j hj
      rw [← hnext, ProviderWorld.Awaits]
      split
      · rw [hget]
        split
        · exact Option.some_ne_none _
        · exact hj
      · exact hj
    have hfewer : ∀ j ≤ n, next.Awaits chain j → w.Awaits chain j ∨ j = i := by
      intro j hjn hj
      rw [← hnext, ProviderWorld.Awaits] at hj
      split at hj
      · rw [hget] at hj
        split at hj
        · rename_i heq
          exact .inr (chain.distinct j hjn i (by omega) heq)
        · exact .inl hj
      · exact .inl hj
    by_cases hlate : i + 1 < m
    · exact .late hlate htracks hkept hfewer
    · have hlt : m < i := by omega
      have hwaits : next.Awaits chain i := by
        have hunseen := h.unseen (i := i) (by omega) (by omega)
        rw [← hnext, if_pos ⟨chain.named i (by omega), hunseen⟩, ProviderWorld.Awaits, hget,
          if_pos rfl]
        exact Option.some_ne_none _
      exact .early hlt htracks hwaits hkept hfewer

/-! ## Runs along a chain -/

abbrev SwitchTransition := Transition ProviderWorld SwitchEvent

/-- The callback of link `i` is delivered while the activation is at session `k`. -/
def FindsAt (chain : SessionChain n) (token : ActivationToken) (e : SwitchTransition)
    (i k : ℕ) : Prop :=
  e.label.callback? = some i ∧ i < n ∧ k ≤ n ∧
    e.before.mailbox.activation? token.val = some (chain.session k)

/-- What the callbacks so far tell about the state. -/
structure Told (chain : SessionChain n) (token : ActivationToken) (tr : List SwitchTransition)
    (w : ProviderWorld) (p m : ℕ) : Prop where
  tracks : Tracks chain token w p m
  found : ∀ e ∈ tr, ∀ i, e.label.callback? = some i → ∃ k, FindsAt chain token e i k
  waiting : ∀ i ≤ n, w.Awaits chain i → ∃ e ∈ tr, ∃ k, FindsAt chain token e i k ∧
    (k < i ∨ i + 1 < k)
  onTime : ∀ e ∈ tr, ∀ i k, FindsAt chain token e i k → i ≤ k → k ≤ i + 1 → i + 1 ≤ p
  early : ∀ e ∈ tr, ∀ i k, FindsAt chain token e i k → k < i →
    p ≠ i ∧ (p < i → w.Awaits chain i)
  late : ∀ e ∈ tr, ∀ i k, FindsAt chain token e i k → i + 1 < k → k ≤ m
  origin : 0 < p → ∃ j < p, (∃ e ∈ tr, ∃ k, FindsAt chain token e j k ∧ j ≤ k ∧ k ≤ j + 1) ∧
    ∀ i, j < i → i < p → ∃ e ∈ tr, ∃ k, FindsAt chain token e i k ∧ k < i

/-- The callbacks of a run, in the order of their delivery. -/
def callbacks (tr : List SwitchTransition) : List ℕ := tr.filterMap fun e => e.label.callback?

def bridges (tr : List SwitchTransition) : List ℕ := tr.filterMap fun e => e.label.bridge?

variable {tr : List SwitchTransition}

theorem FindsAt.mem {e : SwitchTransition} {i k : ℕ} (h : FindsAt chain token e i k)
    (he : e ∈ tr) : i ∈ callbacks tr := List.mem_filterMap.mpr ⟨e, he, h.1⟩

theorem FindsAt.unique {e : SwitchTransition} {i j k l : ℕ} (h : FindsAt chain token e i k)
    (h' : FindsAt chain token e j l) : i = j ∧ k = l := by
  obtain ⟨hi, -, hk, hat⟩ := h
  obtain ⟨hj, -, hl, hat'⟩ := h'
  have hindex : i = j := Option.some.inj (hi.symm.trans hj)
  have hsession : chain.session k = chain.session l := Option.some.inj (hat.symm.trans hat')
  exact ⟨hindex, chain.distinct k hk l hl hsession⟩

theorem FindsAt.at_bound {e : SwitchTransition} {i k : ℕ} (h : FindsAt chain token e i k)
    (htracks : Tracks chain token e.before p m) : k = m := by
  obtain ⟨-, -, hk, hat⟩ := h
  exact chain.distinct k hk m htracks.within (Option.some.inj (hat.symm.trans htracks.bound))

/-- The link before the provider's session had its callback. -/
theorem Told.arrived (h : Told chain token tr w p m) {i : ℕ} (hp : p = i + 1) :
    i ∈ callbacks tr := by
  obtain ⟨j, hj, ⟨e, he, k, hfinds, -⟩, hbetween⟩ := h.origin (by omega)
  by_cases heq : j = i
  · exact heq ▸ hfinds.mem he
  · obtain ⟨e', he', k', hfinds', -⟩ := hbetween i (by omega) (by omega)
    exact hfinds'.mem he'

theorem Told.found_snoc (h : Told chain token tr w p m) {w' : ProviderWorld} {event : SwitchEvent}
    (hlink : ∀ i, event.callback? = some i → i < n) : ∀ e ∈ tr ++ [⟨w, event, w'⟩], ∀ i,
      e.label.callback? = some i → ∃ k, FindsAt chain token e i k := by
  intro e he i hlabel
  rcases List.mem_append.mp he with he | he
  · exact h.found e he i hlabel
  · obtain rfl := List.mem_singleton.mp he
    exact ⟨m, hlabel, hlink i hlabel, h.tracks.within, h.tracks.bound⟩

/-- A step that leaves the provider where it is. -/
theorem Told.stays (h : Told chain token tr w p m) {w' : ProviderWorld} {m' : ℕ}
    {event : SwitchEvent} (hlink : ∀ i, event.callback? = some i → i < n) (hm : m ≤ m') (htracks : Tracks chain token w' p m')
    (hkept : ∀ j, w.Awaits chain j → w'.Awaits chain j)
    (hnew : ∀ i k, FindsAt chain token ⟨w, event, w'⟩ i k →
      k < i ∧ w'.Awaits chain i ∨ i + 1 < k)
    (hfewer : ∀ j ≤ n, w'.Awaits chain j → w.Awaits chain j ∨
      ∃ k, FindsAt chain token ⟨w, event, w'⟩ j k) :
    Told chain token (tr ++ [⟨w, event, w'⟩]) w' p m' where
  tracks := htracks
  found := h.found_snoc hlink
  waiting := by
    intro i hi hwait
    rcases hfewer i hi hwait with hold | ⟨k, hfinds⟩
    · obtain ⟨e, he, hfinds⟩ := h.waiting i hi hold
      exact ⟨e, List.mem_append_left _ he, hfinds⟩
    · have hsides := hnew i k hfinds
      exact ⟨_, List.mem_append_right _ List.mem_cons_self, k, hfinds, by tauto⟩
  onTime := by
    intro e he i k hfinds hik hki
    rcases List.mem_append.mp he with he | he
    · exact h.onTime e he i k hfinds hik hki
    · obtain rfl := List.mem_singleton.mp he
      have hsides := hnew i k hfinds
      omega
  early := by
    intro e he i k hfinds hki
    rcases List.mem_append.mp he with he | he
    · obtain ⟨hne, hwait⟩ := h.early e he i k hfinds hki
      exact ⟨hne, fun hp => hkept i (hwait hp)⟩
    · obtain rfl := List.mem_singleton.mp he
      rcases hnew i k hfinds with ⟨-, hwait⟩ | hlate
      · have hbehind := h.tracks.behind
        have hk := hfinds.at_bound h.tracks
        exact ⟨by omega, fun _ => hwait⟩
      · omega
  late := by
    intro e he i k hfinds hki
    rcases List.mem_append.mp he with he | he
    · exact (h.late e he i k hfinds hki).trans hm
    · obtain rfl := List.mem_singleton.mp he
      have hk := hfinds.at_bound h.tracks
      omega
  origin := by
    intro hp
    obtain ⟨j, hj, ⟨e, he, hfinds⟩, hbetween⟩ := h.origin hp
    refine ⟨j, hj, ⟨e, List.mem_append_left _ he, hfinds⟩, fun i hji hip => ?_⟩
    obtain ⟨e', he', hfinds'⟩ := hbetween i hji hip
    exact ⟨e', List.mem_append_left _ he', hfinds'⟩

theorem Told.bridge (h : Told chain token tr w p m) {i : ℕ} {turnId owner : Text} {now : ℚ}
    (hi : i < n) : ∃ m', Told chain token (tr ++ [⟨w, .bridge i turnId owner now,
      chain.next w (.bridge i turnId owner now)⟩]) (chain.next w (.bridge i turnId owner now))
      p m' := by
  generalize hw : chain.next w (.bridge i turnId owner now) = w'
  have hprovider : w'.provider = w.provider ∧ ∃ m', m ≤ m' ∧ m' ≤ n ∧
      w'.mailbox.activation? token.val = some (chain.session m') := by
    rw [← hw]
    obtain ⟨hsame, hbound | ⟨hparent, hbound⟩⟩ := @ProviderWorld.beginTurn_activation w
      (chain.session (i + 1)) turnId (chain.session i) owner _ _ now h.tracks.bound
    · exact ⟨hsame, m, le_rfl, h.tracks.within, hbound⟩
    · have hm := chain.distinct m h.tracks.within i (by omega) hparent
      exact ⟨hsame, i + 1, by omega, hi, hbound⟩
  obtain ⟨hsame, m', hm, hwithin, hbound⟩ := hprovider
  have hbehind := h.tracks.behind
  have htracks : Tracks chain token w' p m' :=
    { started := hsame ▸ h.tracks.started
      session := hsame ▸ h.tracks.session
      holds := hsame ▸ h.tracks.holds
      bound := hbound
      behind := by omega
      within := hwithin
      pending := hsame ▸ h.tracks.pending
      seen := hsame ▸ h.tracks.seen }
  have hsameWait : ∀ j, w'.Awaits chain j ↔ w.Awaits chain j := by
    intro j
    rw [ProviderWorld.Awaits, ProviderWorld.Awaits, hsame]
  refine ⟨m', h.stays (fun _ h => by cases h) hm htracks
    (fun j hj => (hsameWait j).mpr hj) ?_ ?_⟩
  · intro j k hfinds
    cases hfinds.1
  · intro j hjn hj
    exact .inl ((hsameWait j).mp hj)

theorem Told.callback (h : Told chain token tr w p m) {i : ℕ} {clock : ℕ → ℚ} (hi : i < n)
    (hn : n ≤ MAX_PENDING_SESSION_SWITCHES) (hfirst : i ∉ callbacks tr) :
    ∃ p' m', Told chain token (tr ++ [⟨w, .callback i clock, chain.next w (.callback i clock)⟩])
      (chain.next w (.callback i clock)) p' m' := by
  have hp : p ≠ i + 1 := fun hp => hfirst (h.arrived hp)
  have heffect := callback_tracks h.tracks hi hp hn clock
  generalize chain.next w (.callback i clock) = w' at heffect ⊢
  have hbehind := h.tracks.behind
  have hfinds : FindsAt chain token ⟨w, .callback i clock, w'⟩ i m :=
    ⟨rfl, hi, h.tracks.within, h.tracks.bound⟩
  have hlink : ∀ j, (SwitchEvent.callback i clock).callback? = some j → j < n := by
    intro j hj
    exact Option.some.inj hj ▸ hi
  have hlast : ⟨w, .callback i clock, w'⟩ ∈ tr ++ [(⟨w, .callback i clock, w'⟩ :
      SwitchTransition)] := List.mem_append_right _ List.mem_cons_self
  rcases heffect with ⟨hm, htracks, hdrained⟩ | ⟨hm, htracks, hwaits, hkept, hfewer⟩ |
    ⟨hm, htracks, hkept, hfewer⟩
  · rename_i r
    have hle := hdrained.le
    have hrn := htracks.within
    -- What is drained waited since an early delivery: a late one would be past the activation.
    have hdrawn : ∀ j, i < j → j < r → ∃ e ∈ tr, ∃ k, FindsAt chain token e j k ∧ k < j := by
      intro j hij hjr
      obtain ⟨e, he, k, hfinds', hsides⟩ :=
        h.waiting j (by omega) (hdrained.taken j (by omega) hjr)
      rcases hsides with hearly | hlate
      · exact ⟨e, he, k, hfinds', hearly⟩
      · have := h.late e he j k hfinds' hlate
        omega
    refine ⟨r, r, ⟨htracks, h.found_snoc hlink, ?_, ?_, ?_, ?_, ?_⟩⟩
    · intro j hj hwait
      obtain ⟨e, he, hfinds'⟩ := h.waiting j hj (hdrained.fewer j hwait)
      exact ⟨e, List.mem_append_left _ he, hfinds'⟩
    · intro e he j k hfinds' hjk hkj
      rcases List.mem_append.mp he with he | he
      · have := h.onTime e he j k hfinds' hjk hkj
        omega
      · obtain rfl := List.mem_singleton.mp he
        have := hfinds'.unique hfinds
        omega
    · intro e he j k hfinds' hkj
      rcases List.mem_append.mp he with he | he
      · obtain ⟨hne, hwait⟩ := h.early e he j k hfinds' hkj
        refine ⟨?_, fun hr => ?_⟩
        · rintro rfl
          exact hdrained.stopped (hwait (by omega))
        · exact hdrained.kept j hr (Nat.le_of_lt hfinds'.2.1) (hwait (by omega))
      · obtain rfl := List.mem_singleton.mp he
        have := hfinds'.unique hfinds
        omega
    · intro e he j k hfinds' hjk
      rcases List.mem_append.mp he with he | he
      · have := h.late e he j k hfinds' hjk
        omega
      · obtain rfl := List.mem_singleton.mp he
        have := hfinds'.unique hfinds
        omega
    · intro hr
      refine ⟨i, by omega, ⟨_, hlast, m, hfinds, by omega, by omega⟩, fun j hij hjr => ?_⟩
      obtain ⟨e, he, hfinds'⟩ := hdrawn j hij hjr
      exact ⟨e, List.mem_append_left _ he, hfinds'⟩
  · refine ⟨p, m, h.stays hlink le_rfl htracks hkept ?_ ?_⟩
    · intro j k hfinds'
      obtain ⟨rfl, rfl⟩ := hfinds'.unique hfinds
      exact .inl ⟨hm, hwaits⟩
    · intro j hjn hj
      rcases hfewer j hjn hj with hold | rfl
      · exact .inl hold
      · exact .inr ⟨m, hfinds⟩
  · refine ⟨p, m, h.stays hlink le_rfl htracks hkept ?_ ?_⟩
    · intro j k hfinds'
      obtain ⟨rfl, rfl⟩ := hfinds'.unique hfinds
      exact .inr hm
    · intro j hjn hj
      rcases hfewer j hjn hj with hold | rfl
      · exact .inl hold
      · exact .inr ⟨m, hfinds⟩

/-! ## The end of the chain -/

theorem Told.initial {planner : Bool} {now : ℚ} {mailbox : Mailbox} (hplanner : planner = true) :
    Told chain token [] (ProviderSession.initializeLocked planner (chain.session 0) token now
      mailbox) 0 0 := by
  have hnamed : chain.session 0 ≠ [] := chain.named 0 (Nat.zero_le n)
  have hactivate : ∃ m', mailbox.activate (chain.session 0) token.val now = .ok (token.val, m') ∧
      m'.activation? token.val = some (chain.session 0) := by
    refine ⟨_, by simp [Mailbox.activate, requireText, hnamed, bind, Except.bind, pure,
      Except.pure]; rfl, ?_⟩
    show (Dict.set _ token.val (chain.session 0)).get? token.val = _
    rw [Dict.get?_set, if_pos rfl]
  obtain ⟨m', hok, hbound⟩ := hactivate
  have hworld : ProviderSession.initializeLocked planner (chain.session 0) token now mailbox =
      ⟨⟨true, chain.session 0, some token, .empty, Dict.empty.set (chain.session 0) ()⟩, m'⟩ := by
    simp [ProviderSession.initializeLocked, hplanner, hnamed, hok]
  rw [hworld]
  have htracks : Tracks chain token ⟨⟨true, chain.session 0, some token, .empty,
      Dict.empty.set (chain.session 0) ()⟩, m'⟩ 0 0 :=
    { started := rfl
      session := rfl
      holds := rfl
      bound := hbound
      behind := le_rfl
      within := Nat.zero_le n
      pending := fun _ _ h => by cases h
      seen := by
        intro sessionId seen h
        rw [Dict.get?_set] at h
        split at h
        · rename_i heq
          exact ⟨0, le_rfl, heq⟩
        · cases h }
  exact
    { tracks := htracks
      found := fun _ h => absurd h List.not_mem_nil
      waiting := fun _ _ hwait => absurd rfl hwait
      onTime := fun _ h => absurd h List.not_mem_nil
      early := fun _ h => absurd h List.not_mem_nil
      late := fun _ h => absurd h List.not_mem_nil
      origin := fun h => absurd h (lt_irrefl 0) }

theorem Run.told {w₀ w₁ : ProviderWorld} (hn : n ≤ MAX_PENDING_SESSION_SWITCHES)
    (hstart : Told chain token [] w₀ 0 0) (hrun : Run chain.Step w₀ tr w₁)
    (hnodup : (callbacks tr).Nodup) : ∃ p m, Told chain token tr w₁ p m := by
  induction hrun with
  | nil => exact ⟨0, 0, hstart⟩
  | @snoc w w' tr event hrun hstep ih =>
    obtain ⟨hlink, rfl⟩ := hstep
    rw [callbacks, List.filterMap_append, List.nodup_append] at hnodup
    obtain ⟨p, m, htold⟩ := ih hnodup.1
    cases event with
    | callback i clock =>
      refine htold.callback hlink hn fun hmem => ?_
      exact hnodup.2.2 i hmem i (by simp [SwitchEvent.callback?]) rfl
    | bridge i turnId owner now =>
      obtain ⟨m', htold'⟩ := htold.bridge hlink
      exact ⟨p, m', htold'⟩

/-- Every callback that finds the activation past its new session is outranked by one of a later
link that finds the activation at its parent or later. -/
def Outranked (chain : SessionChain n) (token : ActivationToken) (tr : List SwitchTransition) :
    Prop :=
  ∀ e ∈ tr, ∀ i k, FindsAt chain token e i k → i + 1 < k →
    ∃ e' ∈ tr, ∃ j l, FindsAt chain token e' j l ∧ i < j ∧ j ≤ l

/-- A link's callback is delivered once. -/
theorem Told.once (hnodup : (callbacks tr).Nodup) {e e' : SwitchTransition} (he : e ∈ tr)
    (he' : e' ∈ tr) {i k l : ℕ} (h : FindsAt chain token e i k) (h' : FindsAt chain token e' i l) :
    k = l := by
  have heq : e = e' := by
    obtain ⟨before, after, rfl⟩ := List.append_of_mem he
    rw [callbacks, List.filterMap_append, List.filterMap_cons, h.1, List.nodup_append,
      List.nodup_cons] at hnodup
    rcases List.mem_append.mp he' with he' | he'
    · exact absurd rfl (hnodup.2.2 i (h'.mem he') i List.mem_cons_self)
    · rcases List.mem_cons.mp he' with rfl | he'
      · rfl
      · exact absurd (h'.mem he') hnodup.2.1.1
  subst heq
  exact (h.unique h').2

/-- The provider is at the end of the chain if and only if every late callback is outranked. -/
theorem Told.reaches_iff (h : Told chain token tr w p m) (hnodup : (callbacks tr).Nodup)
    (hall : ∀ i < n, ∃ e ∈ tr, ∃ k, FindsAt chain token e i k) :
    p = n ↔ Outranked chain token tr := by
  have hbehind := h.tracks.behind
  have hwithin := h.tracks.within
  constructor
  · intro hp e he i k hfinds hlate
    have hi := hfinds.2.1
    obtain ⟨j, hj, ⟨e₁, he₁, l, hfinds₁, hl⟩, hbetween⟩ := h.origin (by omega)
    have hij : i < j := by
      by_contra hji
      by_cases heq : i = j
      · subst heq
        have := Told.once hnodup he he₁ hfinds hfinds₁
        omega
      · obtain ⟨e₂, he₂, l₂, hfinds₂, hl₂⟩ := hbetween i (by omega) (by omega)
        have := Told.once hnodup he he₂ hfinds hfinds₂
        omega
    exact ⟨e₁, he₁, j, l, hfinds₁, hij, hl.1⟩
  · intro hranked
    -- Above the provider's session no callback is late: the last of them would be on time.
    have hnone : ∀ d i, n - i = d → p ≤ i → ∀ e ∈ tr, ∀ k, FindsAt chain token e i k →
        ¬ i + 1 < k := by
      intro d
      induction d using Nat.strong_induction_on with
      | _ d ih =>
        intro i hd hpi e he k hfinds hlate
        have hi := hfinds.2.1
        obtain ⟨e', he', j, l, hfinds', hij, hjl⟩ := hranked e he i k hfinds hlate
        have hj := hfinds'.2.1
        by_cases hl : j + 1 < l
        · exact ih (n - j) (by omega) j rfl (by omega) e' he' l hfinds' hl
        · have := h.onTime e' he' j l hfinds' hjl (by omega)
          omega
    by_contra hne
    obtain ⟨e, he, k, hfinds⟩ := hall p (by omega)
    have hnot := hnone _ p rfl le_rfl e he k hfinds
    by_cases hearly : k < p
    · exact (h.early e he p k hfinds hearly).1 rfl
    · have := h.onTime e he p k hfinds (by omega) (by omega)
      omega

end Links

/-- Once every callback of the chain has been delivered, provider and activation are at its end if
and only if every callback that came too late was outranked. -/
theorem switch_convergence {n : ℕ} (hn : n ≤ MAX_PENDING_SESSION_SWITCHES)
    (chain : SessionChain n) (token : ActivationToken) (now : ℚ) (mailbox : Mailbox)
    {w : ProviderWorld} {tr : List SwitchTransition}
    (hrun : Run chain.Step (ProviderSession.initializeLocked true (chain.session 0) token now
      mailbox) tr w)
    (hall : (callbacks tr).Perm (List.range n)) :
    (w.provider.sessionId = chain.session n ∧
      w.mailbox.activation? token.val = some (chain.session n)) ↔ Outranked chain token tr := by
  have hnodup : (callbacks tr).Nodup := hall.nodup_iff.mpr List.nodup_range
  have hstart : Told chain token [] (ProviderSession.initializeLocked true (chain.session 0) token
      now mailbox) 0 0 := Told.initial rfl
  obtain ⟨p, m, htold⟩ := hrun.told hn hstart hnodup
  have hbehind := htold.tracks.behind
  have hwithin := htold.tracks.within
  have hdelivered : ∀ i < n, ∃ e ∈ tr, ∃ k, FindsAt chain token e i k := by
    intro i hi
    have hmem : i ∈ callbacks tr := hall.mem_iff.mpr (List.mem_range.mpr hi)
    obtain ⟨e, he, hlabel⟩ := List.mem_filterMap.mp hmem
    exact ⟨e, he, htold.found e he i hlabel⟩
  rw [← htold.reaches_iff hnodup hdelivered]
  constructor
  · rintro ⟨hsession, -⟩
    rw [htold.tracks.session] at hsession
    exact chain.distinct p (by omega) n le_rfl hsession
  · intro hp
    obtain rfl : m = n := by omega
    exact ⟨hp ▸ htold.tracks.session, htold.tracks.bound⟩

/-! ## Two switches -/

def twoSwitches : SessionChain 2 where
  session i := "s".toList ++ Nat.toDigits 10 i
  distinct := by decide
  named := by decide

def switchToken : ActivationToken := ⟨"token".toList, by decide⟩

def beforeSwitches : ProviderWorld :=
  ProviderSession.initializeLocked true (twoSwitches.session 0) switchToken 0 none

theorem twoSwitches_run {events : List SwitchEvent}
    (h : ∀ event ∈ events, event.link < 2) :
    Run twoSwitches.Step beforeSwitches (traceOf twoSwitches.next beforeSwitches events)
      (events.foldl twoSwitches.next beforeSwitches) :=
  Run.traceOf (fun _ event he => ⟨h event he, rfl⟩) beforeSwitches

theorem callbacks_traceOf {n : ℕ} (chain : SessionChain n) (w : ProviderWorld)
    (events : List SwitchEvent) :
    callbacks (traceOf chain.next w events) = events.filterMap SwitchEvent.callback? := by
  rw [callbacks, ← Function.comp_def, ← List.filterMap_map, labels_traceOf]

theorem bridges_traceOf {n : ℕ} (chain : SessionChain n) (w : ProviderWorld)
    (events : List SwitchEvent) :
    bridges (traceOf chain.next w events) = events.filterMap SwitchEvent.bridge? := by
  rw [bridges, ← Function.comp_def, ← List.filterMap_map, labels_traceOf]

/-- The second callback comes early, the bridges follow the chain, and the first callback comes
late. -/
def overtakenEvents : List SwitchEvent :=
  [.callback 1 fun _ => 0, .bridge 0 "t1".toList "o1".toList 0, .bridge 1 "t2".toList "o2".toList 0,
    .callback 0 fun _ => 0]

/-- The late callback is dropped together with the one that waits for it. -/
theorem switch_divergence : ∃ (chain : SessionChain 2) (token : ActivationToken)
    (tr : List SwitchTransition) (w : ProviderWorld),
    Run chain.Step (ProviderSession.initializeLocked true (chain.session 0) token 0 none) tr w ∧
      (callbacks tr).Perm (List.range 2) ∧ bridges tr = [0, 1] ∧
      2 ≤ MAX_PENDING_SESSION_SWITCHES ∧ w.provider.sessionId = chain.session 0 ∧
      w.mailbox.activation? token.val = some (chain.session 2) := by
  refine ⟨twoSwitches, switchToken, _, _, @twoSwitches_run overtakenEvents (by decide),
    ?_, ?_, by decide, by decide +kernel, by decide +kernel⟩
  · rw [callbacks_traceOf]
    decide
  · rw [bridges_traceOf]
    decide

def bridgedEvents : List SwitchEvent :=
  [.callback 1 fun _ => 0, .bridge 0 "t1".toList "o1".toList 0, .callback 0 fun _ => 0]

theorem switch_convergence_bridged : ∃ tr w,
    Run twoSwitches.Step beforeSwitches tr w ∧ (callbacks tr).Perm (List.range 2) ∧
      w.provider.sessionId = twoSwitches.session 2 ∧ Outranked twoSwitches switchToken tr := by
  have hrun := @twoSwitches_run bridgedEvents (by decide)
  have hall : (callbacks (traceOf twoSwitches.next beforeSwitches bridgedEvents)).Perm
      (List.range 2) := by
    rw [callbacks_traceOf]
    decide
  have hreached : (bridgedEvents.foldl twoSwitches.next beforeSwitches).provider.sessionId =
      twoSwitches.session 2 := by decide +kernel
  refine ⟨_, _, hrun, hall, hreached, ?_⟩
  exact (switch_convergence (by decide) twoSwitches switchToken 0 none hrun hall).mp
    ⟨hreached, by decide +kernel⟩

end BetterHindsight
