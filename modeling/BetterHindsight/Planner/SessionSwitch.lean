import BetterHindsight.Planner.MailboxRuns

/-! # Session switches of a provider

The session identity of one provider, which its callbacks move together with the mailbox activation
that it holds. A callback that arrives before its parent's waits under the parent's id.

* `ProviderSession`, `ProviderWorld`: the provider's session fields, and the shared mailbox.
* `initializeLocked`, `onSessionSwitch`: the operations under the session lock.
* `SwitchEvent`: a callback or a planner's `begin_turn`, each with the clock readings it takes. -/

namespace BetterHindsight
set_option autoImplicit false

def MAX_PENDING_SESSION_SWITCHES : ℕ := 32

def MAX_SEEN_SESSION_IDS : ℕ := 128

/-- A token that `activate` returned. -/
abbrev ActivationToken := {token : Text // token ≠ []}

/-- A callback that waits for its parent's. -/
structure PendingSwitch where
  newSessionId : Text
  reset : Bool
  rewound : Bool
  deriving DecidableEq

structure ProviderSession where
  /-- `_config` or `_runtime` is set. -/
  initialized : Bool
  sessionId : Text
  /-- `_plan_mailbox_activation`, with `_plan_mailbox` set. -/
  activation : Option ActivationToken
  pendingSessionSwitches : Dict Text PendingSwitch
  seenSessionIds : Dict Text Unit

structure ProviderWorld where
  provider : ProviderSession
  mailbox : Mailbox

namespace ProviderSession

/-- `_initialize_locked` of an authorized provider; `planner` tells whether recall is enabled and
the planner is not off. -/
def initializeLocked (planner : Bool) (sessionId : Text) (token : ActivationToken) (now : ℚ)
    (mailbox : Mailbox) : ProviderWorld :=
  let provider : ProviderSession :=
    { initialized := true
      sessionId
      activation := none
      pendingSessionSwitches := .empty
      seenSessionIds := if sessionId = [] then .empty else Dict.empty.set sessionId () }
  if sessionId ≠ [] ∧ planner then
    match mailbox.activate sessionId token.val now with
    | .ok (_, mailbox) => ⟨{ provider with activation := some token }, mailbox⟩
    | .error _ => ⟨provider, mailbox⟩
  else ⟨provider, mailbox⟩

/-- `_remember_session_id_locked` -/
def rememberSessionId (provider : ProviderSession) (sessionId : Text) : ProviderSession :=
  { provider with
    seenSessionIds :=
      ((provider.seenSessionIds.erase sessionId).set sessionId ()).deleteOldest
        MAX_SEEN_SESSION_IDS }

/-- A callback waits under its parent's id. -/
def addPending (provider : ProviderSession) (parent : Text) (switch : PendingSwitch) :
    ProviderSession :=
  { provider with
    pendingSessionSwitches :=
      (provider.pendingSessionSwitches.set parent switch).deleteOldest
        MAX_PENDING_SESSION_SWITCHES }

/-- The parents that were seen and are not the session any more wait for nothing. -/
def dropStale (provider : ProviderSession) : ProviderSession :=
  { provider with
    pendingSessionSwitches := provider.pendingSessionSwitches.filter fun parent _ =>
      (provider.seenSessionIds.get? parent).isNone || parent == provider.sessionId }

end ProviderSession

/-! ## Callbacks -/

namespace ProviderWorld

/-- `_on_session_switch_locked`; a rebind that raises drops the mailbox. -/
def switchLocked (w : ProviderWorld) (switch : PendingSwitch) (parent : Text) (now : ℚ) :
    Bool × ProviderWorld :=
  if switch.newSessionId = [] then (false, w)
  else if switch.newSessionId = w.provider.sessionId then
    if (switch.reset || switch.rewound) && w.provider.activation.isSome then
      match w.mailbox.clearSessionPlans switch.newSessionId with
      | .ok (_, mailbox) => (true, ⟨w.provider, mailbox⟩)
      | .error _ => (true, w)
    else (true, w)
  else
    let moved (provider : ProviderSession) (accepted : Bool) : ProviderSession :=
      if accepted then { provider with sessionId := switch.newSessionId } else provider
    let direct := parent = [] || w.provider.sessionId = parent
    match w.provider.activation with
    | none => (direct, ⟨moved w.provider direct, w.mailbox⟩)
    | some token =>
      match w.mailbox.rebind token.val switch.newSessionId parent now with
      | .ok (accepted, mailbox) => (accepted, ⟨moved w.provider accepted, mailbox⟩)
      | .error _ => (direct, ⟨moved { w.provider with activation := none } direct, w.mailbox⟩)

/-- The loop of `_drain_session_switches_locked`, which takes an entry in every round. -/
def drainLoop : ℕ → (ℕ → ℚ) → ProviderWorld → ProviderWorld
  | 0, _, w => w
  | fuel + 1, clock, w =>
    let parent := w.provider.sessionId
    match w.provider.pendingSessionSwitches.get? parent with
    | none => w
    | some switch =>
      let popped : ProviderWorld :=
        ⟨{ w.provider with
            pendingSessionSwitches := w.provider.pendingSessionSwitches.erase parent }, w.mailbox⟩
      let (accepted, next) := popped.switchLocked switch parent (clock 0)
      if accepted then
        drainLoop fuel (fun k => clock (k + 1))
          ⟨next.provider.rememberSessionId switch.newSessionId, next.mailbox⟩
      else next

/-- `_drain_session_switches_locked` -/
def drain (clock : ℕ → ℚ) (w : ProviderWorld) : ProviderWorld :=
  let drained := drainLoop w.provider.pendingSessionSwitches.entries.length clock w
  ⟨drained.provider.dropStale, drained.mailbox⟩

/-- `on_session_switch`; `clock` has the readings of its rebinds, one after the other. -/
def onSessionSwitch (w : ProviderWorld) (switch : PendingSwitch) (parent : Text)
    (clock : ℕ → ℚ) : ProviderWorld :=
  if w.provider.initialized then
    let (applied, next) := w.switchLocked switch parent (clock 0)
    if applied then
      drain (fun k => clock (k + 1))
        ⟨next.provider.rememberSessionId switch.newSessionId, next.mailbox⟩
    else if parent ≠ [] ∧ next.provider.seenSessionIds.get? parent = none then
      ⟨next.provider.addPending parent switch, next.mailbox⟩
    else next
  else w

/-- `begin_turn` of a planner hook in the same profile; one that raises changes nothing. -/
def beginTurn (w : ProviderWorld) (sessionId turnId parent owner : Text) (now : ℚ) :
    ProviderWorld :=
  match w.mailbox.beginTurn sessionId turnId parent owner now with
  | .ok (_, mailbox) => ⟨w.provider, mailbox⟩
  | .error _ => w

end ProviderWorld

/-! ## Chains of sessions -/

/-- Session ids of which each is the parent of the next. -/
structure SessionChain (n : ℕ) where
  session : ℕ → Text
  distinct : ∀ i ≤ n, ∀ j ≤ n, session i = session j → i = j
  named : ∀ i ≤ n, session i ≠ []

/-- What happens to link `i` of a chain: the callback of its switch, or a planner's bridge. -/
inductive SwitchEvent where
  | callback (i : ℕ) (clock : ℕ → ℚ)
  | bridge (i : ℕ) (turnId owner : Text) (now : ℚ)

namespace SwitchEvent

def link : SwitchEvent → ℕ
  | callback i _ => i
  | bridge i _ _ _ => i

def callback? : SwitchEvent → Option ℕ
  | callback i _ => some i
  | bridge .. => none

def bridge? : SwitchEvent → Option ℕ
  | callback .. => none
  | bridge i _ _ _ => some i

end SwitchEvent

namespace SessionChain
variable {n : ℕ}

def next (chain : SessionChain n) (w : ProviderWorld) : SwitchEvent → ProviderWorld
  | .callback i clock =>
    w.onSessionSwitch ⟨chain.session (i + 1), false, false⟩ (chain.session i) clock
  | .bridge i turnId owner now =>
    w.beginTurn (chain.session (i + 1)) turnId (chain.session i) owner now

/-- The callback or the bridge of a link. -/
def Step (chain : SessionChain n) (w : ProviderWorld) (event : SwitchEvent) (w' : ProviderWorld) :
    Prop :=
  event.link < n ∧ w' = chain.next w event

end SessionChain

end BetterHindsight
