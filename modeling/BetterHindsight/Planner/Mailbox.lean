import BetterHindsight.Foundations.Dict
import BetterHindsight.Stdlib

/-! # The plan mailbox

`InMemoryPlanMailbox`: the process-local registry entry of one profile, in which planner hooks leave
at most one decision for each turn and the provider takes it. Every operation runs under the
registry lock, reads the clock at most once and returns its result with the entry it leaves; one
that raises leaves the entry as it is.

* `HomeState`, `Mailbox`: the entry, which exists while something is stored in it.
* `activate`, `deactivate`, `rebind`: the providers' operations.
* `beginTurn`, `reserve`, `finalize`, `cancel`: the hooks' operations.
* `consume`: the rendezvous. -/

namespace BetterHindsight
set_option autoImplicit false

inductive PlanMode where
  | shadow
  | active
  deriving DecidableEq

inductive PlanAction where
  | skip
  | reuse
  | recall
  deriving DecidableEq

def PLAN_MAX_AGE_SECONDS : ℚ := 10

inductive MailboxError where
  | valueError (message : Text)
  /-- `PlanMailboxError("recall plan handoff unavailable")` -/
  | unavailable
  deriving DecidableEq

structure RecallPlan where
  mode : PlanMode
  action : PlanAction
  rewrittenQuery : Option Text
  turnId : Text
  deriving DecidableEq

structure StoredPlan where
  sequence : ℕ
  queryDigest : Text
  queryLength : ℕ
  sessionId : Text
  mode : PlanMode
  expiresAt : ℚ
  ownerToken : Option Text
  evaluationId : Option Text
  publishBefore : Option ℚ
  action : Option PlanAction
  rewrittenQuery : Option Text
  deriving DecidableEq

structure HomeState where
  activations : Dict Text Text
  closedTurns : Dict (Text × Text) ℚ
  currentTurns : Dict Text (Text × Text)
  plans : Dict Text StoredPlan
  redirects : Dict Text (Text × Text)
  sequence : ℕ

/-- The registry entry of the profile, if it has one. -/
abbrev Mailbox := Option HomeState

/-! ## Checks -/

def requireText (value : Text) (fieldName : Text) : Except MailboxError Unit :=
  if value = [] then .error (.valueError (fieldName ++ " must be a non-empty string".toList))
  else .ok ()

def requireAction (action : PlanAction) (rewrittenQuery : Option Text) : Except MailboxError Unit :=
  match action, rewrittenQuery with
  | .recall, none => .error (.valueError "recall action requires rewritten_query")
  | .recall, some [] => .error (.valueError "recall action requires rewritten_query")
  | .recall, some (_ :: _) => .ok ()
  | _, none => .ok ()
  | _, some _ => .error (.valueError "only recall action accepts rewritten_query")

/-- The check of `publish_timeout_seconds`, and the timeout in seconds. -/
def requireTimeout (timeout : Option PyFloat) : Except MailboxError (Option ℚ) :=
  match timeout with
  | none => .ok none
  | some (.finite q) =>
    if q ≤ 0 then .error (.valueError "publish_timeout_seconds must be finite and positive")
    else .ok (some q)
  | some _ => .error (.valueError "publish_timeout_seconds must be finite and positive")

namespace HomeState

def empty : HomeState := ⟨.empty, .empty, .empty, .empty, .empty, 0⟩

/-- `session_id in state.activations.values()` -/
def isActive (state : HomeState) (sessionId : Text) : Bool :=
  state.activations.values.contains sessionId

def purgeExpired (state : HomeState) (now : ℚ) : HomeState :=
  { state with
    plans := state.plans.filter fun _ plan => now < plan.expiresAt
    closedTurns := state.closedTurns.filter fun _ expiresAt => now < expiresAt }

/-- `_clear_session` -/
def clearSession (state : HomeState) (sessionId : Text) (includeClosed : Bool) : HomeState :=
  { state with
    currentTurns := state.currentTurns.erase sessionId
    plans := state.plans.filter fun _ plan => plan.sessionId ≠ sessionId
    closedTurns := state.closedTurns.filter fun key _ => !includeClosed || key.1 ≠ sessionId }

/-- `_drop_empty_home` -/
def dropEmptyHome (state : HomeState) : Mailbox :=
  if state.activations.isEmpty && state.closedTurns.isEmpty && state.currentTurns.isEmpty &&
      state.plans.isEmpty then none
  else some state

/-- `_clear_session(state, session_id)` where the session has no activation left. -/
def clearOrphan (state : HomeState) (sessionId : Text) : HomeState :=
  if state.isActive sessionId then state else state.clearSession sessionId true

end HomeState

/-! ## Providers -/

namespace Mailbox

def activate (sessionId token : Text) (now : ℚ) (mailbox : Mailbox) :
    Except MailboxError (Text × Mailbox) := do
  requireText sessionId "session_id"
  let state := (mailbox.getD .empty).purgeExpired now
  return (token, some { state with activations := state.activations.set token sessionId })

def deactivate (token : Text) (now : ℚ) (mailbox : Mailbox) :
    Except MailboxError (Unit × Mailbox) := do
  requireText token "token"
  match mailbox with
  | none => return ((), none)
  | some state =>
    let state := state.purgeExpired now
    let released := { state with activations := state.activations.erase token }
    match state.activations.get? token with
    | none => return ((), released.dropEmptyHome)
    | some sessionId => return ((), (released.clearOrphan sessionId).dropEmptyHome)

def rebind (token newSessionId expectedParentSessionId : Text) (now : ℚ) (mailbox : Mailbox) :
    Except MailboxError (Bool × Mailbox) := do
  requireText token "token"
  requireText newSessionId "new_session_id"
  match mailbox with
  | none => throw .unavailable
  | some state =>
    match state.activations.get? token with
    | none => throw .unavailable
    | some oldSessionId =>
      let state := state.purgeExpired now
      if oldSessionId = newSessionId then return (true, some state)
      else if expectedParentSessionId ≠ [] ∧ oldSessionId ≠ expectedParentSessionId then
        return (false, some state)
      else
        let moved := { state with activations := state.activations.set token newSessionId }
        return (true, some ((moved.clearOrphan oldSessionId).clearSession newSessionId true))

def isActive (sessionId : Text) (now : ℚ) (mailbox : Mailbox) :
    Except MailboxError (Bool × Mailbox) := do
  requireText sessionId "session_id"
  match mailbox with
  | none => return (false, none)
  | some state =>
    let state := state.purgeExpired now
    return (state.isActive sessionId, some state)

end Mailbox

/-! ## Planner hooks -/

namespace HomeState

/-- The bridge of `begin_turn`: the activations of the parent move to the session. -/
def bridge (state : HomeState) (parentSessionId sessionId turnId : Text) : HomeState :=
  let redirects := state.redirects.filter fun source redirect =>
    source ≠ parentSessionId && source ≠ sessionId && redirect.1 ≠ parentSessionId &&
      redirect.1 ≠ sessionId
  { state with
    redirects := redirects.set parentSessionId (sessionId, turnId)
    activations := state.activations.mapValues fun _ activeSession =>
      if activeSession = parentSessionId then sessionId else activeSession
    }.clearSession parentSessionId true

/-- `begin_turn` after the purge. -/
def beginTurn (state : HomeState) (sessionId turnId parentSessionId ownerToken : Text) :
    Option Text × HomeState :=
  if (state.closedTurns.get? (sessionId, turnId)).isSome then (none, state)
  else
    let kept := { state with
      redirects := state.redirects.filter fun _ redirect =>
        redirect.1 ≠ sessionId || redirect.2 = turnId }
    let parentActive := parentSessionId ≠ [] && state.isActive parentSessionId
    let bridged := if parentActive then kept.bridge parentSessionId sessionId turnId else kept
    if state.isActive sessionId || parentActive then
      let cleared := bridged.clearSession sessionId false
      (some ownerToken,
        { cleared with currentTurns := cleared.currentTurns.set sessionId (turnId, ownerToken) })
    else (none, bridged)

end HomeState

/-- The arguments of `reserve` that it reads. -/
structure ReserveArguments where
  sourceQuery : Text
  sessionId : Text
  turnId : Text
  mode : PlanMode
  evaluationId : Option Text
  publishTimeoutSeconds : Option PyFloat
  ownerToken : Option Text

/-- The arguments of `finalize`. -/
structure FinalizeArguments where
  turnId : Text
  mode : PlanMode
  action : PlanAction
  rewrittenQuery : Option Text
  ownerToken : Option Text

namespace HomeState

/-- The checks of `reserve` before it looks at the plans. -/
def mayReserve (state : HomeState) (args : ReserveArguments) : Bool :=
  state.isActive args.sessionId &&
    match state.currentTurns.get? args.sessionId with
    | some (turnId, ownerToken) => turnId == args.turnId && some ownerToken == args.ownerToken
    | none => args.ownerToken.isNone

/-- The plan that `reserve` stores. -/
def reservedPlan (lib : Stdlib) (state : HomeState) (args : ReserveArguments)
    (timeout : Option ℚ) (now : ℚ) : StoredPlan where
  sequence := state.sequence + 1
  queryDigest := (lib.sha256Text args.sourceQuery).text
  queryLength := args.sourceQuery.length
  sessionId := args.sessionId
  mode := args.mode
  expiresAt := now + PLAN_MAX_AGE_SECONDS
  ownerToken := args.ownerToken
  evaluationId := args.evaluationId
  publishBefore := timeout.map fun seconds => now + seconds
  action := none
  rewrittenQuery := none

/-- `reserve` after the purge. -/
def reserve (lib : Stdlib) (state : HomeState) (args : ReserveArguments) (timeout : Option ℚ)
    (now : ℚ) : Bool × HomeState :=
  if state.mayReserve args && (state.plans.get? args.turnId).isNone then
    (true, { state with
      sequence := state.sequence + 1
      plans := state.plans.set args.turnId (state.reservedPlan lib args timeout now) })
  else (false, state)

/-- `finalize` accepts the decision for this plan. -/
def mayFinalize (plan : StoredPlan) (args : FinalizeArguments) (now : ℚ) : Bool :=
  plan.action.isNone && plan.mode == args.mode && plan.ownerToken == args.ownerToken &&
    match plan.publishBefore with
    | some deadline => now < deadline
    | none => true

/-- `finalize` after the purge. -/
def finalize (state : HomeState) (args : FinalizeArguments) (now : ℚ) : Bool × HomeState :=
  match state.plans.get? args.turnId with
  | none => (false, state)
  | some plan =>
    if mayFinalize plan args now then
      (true, { state with
        plans := state.plans.set args.turnId
          { plan with action := some args.action, rewrittenQuery := args.rewrittenQuery } })
    else (false, state)

/-- What a cancelled plan with an evaluation leaves: it is never published. -/
def tombstone (plan : StoredPlan) : StoredPlan :=
  { plan with action := none, rewrittenQuery := none, publishBefore := some 0 }

def cancel (state : HomeState) (turnId : Text) (ownerToken : Option Text) : HomeState :=
  match state.plans.get? turnId with
  | none => state
  | some plan =>
    if plan.ownerToken = ownerToken then
      match plan.evaluationId with
      | none => { state with plans := state.plans.erase turnId }
      | some _ => { state with plans := state.plans.set turnId (tombstone plan) }
    else state

end HomeState

namespace Mailbox

def beginTurn (sessionId turnId parentSessionId ownerToken : Text) (now : ℚ) (mailbox : Mailbox) :
    Except MailboxError (Option Text × Mailbox) := do
  requireText sessionId "session_id"
  requireText turnId "turn_id"
  match mailbox with
  | none => return (none, none)
  | some state =>
    let (token, state) :=
      (state.purgeExpired now).beginTurn sessionId turnId parentSessionId ownerToken
    return (token, some state)

def reserve (lib : Stdlib) (args : ReserveArguments) (now : ℚ) (mailbox : Mailbox) :
    Except MailboxError (Bool × Mailbox) := do
  requireText args.sourceQuery "source_query"
  requireText args.sessionId "session_id"
  requireText args.turnId "turn_id"
  let timeout ← requireTimeout args.publishTimeoutSeconds
  match mailbox with
  | none => return (false, none)
  | some state =>
    let (reserved, state) := (state.purgeExpired now).reserve lib args timeout now
    return (reserved, some state)

def finalize (args : FinalizeArguments) (now : ℚ) (mailbox : Mailbox) :
    Except MailboxError (Bool × Mailbox) := do
  requireText args.turnId "turn_id"
  requireAction args.action args.rewrittenQuery
  match mailbox with
  | none => return (false, none)
  | some state =>
    let (finalized, state) := (state.purgeExpired now).finalize args now
    return (finalized, some state)

def cancel (turnId : Text) (ownerToken : Option Text) (mailbox : Mailbox) :
    Except MailboxError (Unit × Mailbox) := do
  requireText turnId "turn_id"
  match mailbox with
  | none => return ((), none)
  | some state => return ((), (state.cancel turnId ownerToken).dropEmptyHome)

def clearSessionPlans (sessionId : Text) (mailbox : Mailbox) :
    Except MailboxError (Unit × Mailbox) := do
  requireText sessionId "session_id"
  match mailbox with
  | none => return ((), none)
  | some state => return ((), (state.clearSession sessionId true).dropEmptyHome)

def purgeStale (now : ℚ) (mailbox : Mailbox) : Mailbox :=
  match mailbox with
  | none => none
  | some state => (state.purgeExpired now).dropEmptyHome

end Mailbox

/-! ## The rendezvous -/

namespace HomeState

/-- `_resolve_active_session`: the session, or the child that it redirects to for one turn. -/
def resolveActiveSession (state : HomeState) (sessionId : Text) :
    Option (Text × Option Text) × HomeState :=
  if state.isActive sessionId then (some (sessionId, none), state)
  else
    let popped := { state with redirects := state.redirects.erase sessionId }
    match state.redirects.get? sessionId with
    | none => (none, popped)
    | some (target, turnId) =>
      if state.isActive target then (some (target, some turnId), popped) else (none, popped)

/-- `consume` closes the current turn of the session. -/
def closeTurn (state : HomeState) (sessionId turnId : Text) (now : ℚ) : HomeState :=
  { state with
    currentTurns := state.currentTurns.erase sessionId
    plans := state.plans.erase turnId
    closedTurns := state.closedTurns.set (sessionId, turnId) (now + PLAN_MAX_AGE_SECONDS)
    redirects := state.redirects.filter fun _ redirect => redirect ≠ (sessionId, turnId) }

/-- The plan is for the session, for a query of this length and for the turn of the redirect. -/
def isCandidate (sessionId : Text) (redirectedTurnId : Option Text) (sourceQuery turnId : Text)
    (plan : StoredPlan) : Bool :=
  plan.sessionId == sessionId && plan.queryLength == sourceQuery.length &&
    (redirectedTurnId.isNone || redirectedTurnId == some turnId)

/-- What `consume` returns, and the evaluation that it reports. -/
structure Consumed where
  plan : Option RecallPlan
  evaluation : Option Text
  deriving DecidableEq

def Consumed.nothing : Consumed := ⟨none, none⟩

/-- The outcome for the newest of the matching plans. -/
def consumed (turnId : Text) (plan : StoredPlan) : Consumed where
  plan := plan.action.map fun action => ⟨plan.mode, action, plan.rewrittenQuery, turnId⟩
  evaluation := plan.evaluationId

/-- `consume` where the session is resolved. -/
def takePlan (lib : Stdlib) (state : HomeState) (sourceQuery sessionId : Text)
    (redirectedTurnId : Option Text) (now : ℚ) : Consumed × HomeState :=
  let current := state.currentTurns.get? sessionId
  let closed := match current with
    | some (turnId, _) => state.closeTurn sessionId turnId now
    | none => state
  let stored := match current with
    | some (turnId, _) => ((state.plans.get? turnId).map fun plan => (turnId, plan)).toList
    | none => state.plans.entries
  let candidates := stored.filter fun (turnId, plan) =>
    isCandidate sessionId redirectedTurnId sourceQuery turnId plan
  let found := candidates.filter fun (_, plan) =>
    plan.queryDigest = (lib.sha256Text sourceQuery).text
  match found.argmax fun (_, plan) => plan.sequence with
  | none => (.nothing, closed)
  | some (turnId, plan) =>
    (consumed turnId plan,
      { closed with plans := closed.plans.filter fun key _ => key ∉ found.map Prod.fst })

/-- `consume` after the purge. -/
def consume (lib : Stdlib) (state : HomeState) (sourceQuery sessionId : Text) (now : ℚ) :
    Consumed × HomeState :=
  let (resolved, state) := state.resolveActiveSession sessionId
  match resolved with
  | none => (.nothing, state)
  | some (effectiveSessionId, redirectedTurnId) =>
    state.takePlan lib sourceQuery effectiveSessionId redirectedTurnId now

end HomeState

def Mailbox.consume (lib : Stdlib) (sourceQuery sessionId : Text) (now : ℚ) (mailbox : Mailbox) :
    Except MailboxError (HomeState.Consumed × Mailbox) := do
  requireText sourceQuery "source_query"
  requireText sessionId "session_id"
  match mailbox with
  | none => return (.nothing, none)
  | some state =>
    let (outcome, state) := (state.purgeExpired now).consume lib sourceQuery sessionId now
    return (outcome, some state)

end BetterHindsight
