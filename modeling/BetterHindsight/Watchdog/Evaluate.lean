import BetterHindsight.Foundations.Dict
import BetterHindsight.Foundations.JsonDecode
import BetterHindsight.Stdlib

/-! # The watchdog

`evaluate_watchdog`: an alert transition, a recovery or nothing, from the latest status and canary,
the new events and the state that the previous evaluation left in its file.

* `AlertReason`, `REASON_ORDER`: what an alert can name.
* `readState`, `writeState`: the state file, whose content is its text.
* `observe`: one event.
* `evaluateWatchdog`: one evaluation. -/

namespace BetterHindsight
set_option autoImplicit false

inductive WatchdogError where
  | valueError (message : Text)
  /-- `TypeError`: a list or a dict is looked up in a set. -/
  | typeError
  deriving DecidableEq

inductive AlertReason where
  | localStatusDegraded
  | newRetentionFailure
  | newAdapterContractFailure
  | newSenderLoopFailure
  | newClientLifecycleFailure
  | recallTimeoutRateElevated
  | recallErrorRateElevated
  | e2eFailed
  deriving DecidableEq

def AlertReason.value : AlertReason → Text
  | localStatusDegraded => "local_status_degraded"
  | newRetentionFailure => "new_retention_failure"
  | newAdapterContractFailure => "new_adapter_contract_failure"
  | newSenderLoopFailure => "new_sender_loop_failure"
  | newClientLifecycleFailure => "new_client_lifecycle_failure"
  | recallTimeoutRateElevated => "recall_timeout_rate_elevated"
  | recallErrorRateElevated => "recall_error_rate_elevated"
  | e2eFailed => "e2e_failed"

def REASON_ORDER : List AlertReason :=
  [.localStatusDegraded, .newRetentionFailure, .newAdapterContractFailure, .newSenderLoopFailure,
    .newClientLifecycleFailure, .recallTimeoutRateElevated, .recallErrorRateElevated, .e2eFailed]

def RECALL_OUTCOMES : List Text :=
  ["client_error", "format_error", "empty", "response_invalid", "success", "timeout"]

def RETENTION_FAILURES : List Text := ["retain_failed", "retain_timeout", "retain_unconfirmed"]

def RECALL_ERROR_OUTCOMES : List Text := ["client_error", "format_error", "response_invalid"]

def ADAPTER_CONTRACT_FAILURES : List Text :=
  ["authentication_failed", "client_status", "endpoint_not_found", "malformed_json", "non_json",
    "redirect", "response_oversized", "schema_invalid", "session_closed", "unexpected_status"]

def LIFECYCLE_FAILURES : List Text := ["close_failed", "initialization_failed"]

def SENDER_LOOP_FAILURES : List Text :=
  ["claim_failed", "ownership_unavailable", "recovery_failed", "retry_deadline_failed",
    "transition_failed"]

def MAX_STATE_BYTES : ℕ := 8192

/-! ## JSON values -/

/-- A JSON object as `json.loads` returns it. -/
abbrev Mapping := Dict Text Json

/-- `value == text`, where `none` stands for a missing key. -/
def isText (value : Option Json) (text : Text) : Bool :=
  match value with
  | some (.str t) => t == text
  | _ => false

/-- `value in frozenset(texts)`: the set hashes the value first. -/
def inSet (value : Option Json) (texts : List Text) : Except WatchdogError Bool :=
  match value with
  | some (.str t) => .ok (texts.contains t)
  | some (.arr _) => .error .typeError
  | some (.obj _) => .error .typeError
  | _ => .ok false

/-- `first and second` -/
def bothHold (first : Bool) (second : Except WatchdogError Bool) : Except WatchdogError Bool :=
  if first then second else .ok false

/-- `first or second` -/
def eitherHolds (first second : Except WatchdogError Bool) : Except WatchdogError Bool :=
  first.bind fun holds => if holds then .ok true else second

/-! ## Thresholds -/

structure Thresholds where
  minimumRecallSamples : ℤ
  recallErrorRate : PyFloat
  recallTimeoutRate : PyFloat
  recallWindow : ℤ

/-- `math.isfinite(rate) and 0.0 < rate <= 1.0` -/
def validRate : PyFloat → Bool
  | .finite q => 0 < q && q ≤ 1
  | _ => false

def validateThresholds (thresholds : Thresholds) : Except WatchdogError Unit :=
  if thresholds.minimumRecallSamples ≤ 0 then
    .error (.valueError "minimum_recall_samples must be a positive integer")
  else if thresholds.recallWindow ≤ 0 then
    .error (.valueError "recall_window must be a positive integer")
  else if thresholds.minimumRecallSamples > thresholds.recallWindow then
    .error (.valueError "minimum_recall_samples must not exceed recall_window")
  else if validRate thresholds.recallErrorRate = false then
    .error (.valueError "recall_error_rate must be in (0, 1]")
  else if validRate thresholds.recallTimeoutRate = false then
    .error (.valueError "recall_timeout_rate must be in (0, 1]")
  else .ok ()

/-- `x >= rate` -/
def reaches (x : ℚ) : PyFloat → Bool
  | .finite q => q ≤ x
  | .negInf => true
  | _ => false

/-! ## The state file -/

structure WatchdogState where
  activeReasons : List AlertReason
  recallOutcomes : List Text
  deriving DecidableEq

def WatchdogState.empty : WatchdogState := ⟨[], []⟩

/-- `[str(outcome) for outcome in outcomes if outcome in _RECALL_OUTCOMES]` -/
def safeOutcomes : List Json → Except WatchdogError (List Text)
  | [] => .ok []
  | outcome :: outcomes =>
    (inSet (some outcome) RECALL_OUTCOMES).bind fun known =>
      (safeOutcomes outcomes).map fun rest =>
        match outcome, known with
        | .str t, true => t :: rest
        | _, _ => rest

/-- `_read_state`; `none` stands for a file that does not exist. -/
def readState (file : Option Text) : Except WatchdogError WatchdogState :=
  match file with
  | none => .ok .empty
  | some raw =>
    if MAX_STATE_BYTES < utf8Len raw then .ok .empty
    else
      match Json.loads raw with
      | some (.obj fields) =>
        match fields.lookup "active_reasons".toList, fields.lookup "recall_outcomes".toList with
        | some (.arr reasons), some (.arr outcomes) =>
          (safeOutcomes outcomes).map fun safe =>
            ⟨REASON_ORDER.filter fun reason => reasons.any fun r => isText (some r) reason.value,
              safe⟩
        | _, _ => .ok .empty
      | _ => .ok .empty

def encodeState (state : WatchdogState) : Text :=
  Json.dumps Json.quoteAscii (.obj
    [("active_reasons", .arr (state.activeReasons.map fun reason => .str reason.value)),
      ("recall_outcomes", .arr (state.recallOutcomes.map .str)), ("version", .int 1)])

/-- The text that `_write_state` writes. -/
def writeState (state : WatchdogState) : Except WatchdogError Text :=
  if MAX_STATE_BYTES < utf8Len (encodeState state) then
    .error (.valueError "watchdog state exceeded its fixed bound")
  else .ok (encodeState state)

/-! ## Events -/

/-- What the events seen so far add up to. -/
structure Observed where
  recallOutcomes : List Text
  newRetentionFailure : Bool
  newAdapterContractFailure : Bool
  newSenderLoopFailure : Bool
  newClientLifecycleFailure : Bool

/-- `str(outcome)` of a known outcome -/
def outcomeText : Option Json → Text
  | some (.str t) => t
  | _ => []

def observe (seen : Observed) (event : Mapping) : Except WatchdogError Observed :=
  let eventName := event.get? "event"
  let outcome := event.get? "outcome"
  (bothHold (isText eventName "better_hindsight.recall") (inSet outcome RECALL_OUTCOMES)).bind
    fun recalled =>
  if recalled then .ok { seen with recallOutcomes := seen.recallOutcomes ++ [outcomeText outcome] }
  else
    (bothHold (isText eventName "better_hindsight.sender_attempt")
      (eitherHolds (inSet outcome RETENTION_FAILURES)
        (inSet (event.get? "category") RETENTION_FAILURES))).bind fun notRetained =>
    if notRetained then .ok { seen with newRetentionFailure := true }
    else
      (bothHold (isText eventName "better_hindsight.http_request")
        (inSet outcome ADAPTER_CONTRACT_FAILURES)).bind fun broken =>
      if broken then .ok { seen with newAdapterContractFailure := true }
      else
        (bothHold (isText eventName "better_hindsight.sender_loop")
          (inSet outcome SENDER_LOOP_FAILURES)).bind fun stuck =>
        if stuck then .ok { seen with newSenderLoopFailure := true }
        else
          (bothHold (isText eventName "better_hindsight.client_lifecycle")
            (inSet outcome LIFECYCLE_FAILURES)).bind fun failed =>
          if failed then .ok { seen with newClientLifecycleFailure := true }
          else .ok seen

/-- The loop over the events. -/
def observeAll : List Mapping → Observed → Except WatchdogError Observed
  | [], seen => .ok seen
  | event :: events, seen => (observe seen event).bind (observeAll events)

/-! ## Evaluation -/

inductive WatchdogResult where
  | alert (reasons resolvedReasons : List AlertReason)
  | recovered
  deriving DecidableEq

/-- `outcomes[-window:]` -/
def lastOutcomes (window : ℤ) (outcomes : List Text) : List Text :=
  outcomes.drop (outcomes.length - window.toNat)

/-- The set `reasons` of an evaluation; `divide` is the division of two `int`s. -/
def currentReasons (divide : ℕ → ℕ → ℚ) (thresholds : Thresholds) (status canary : Mapping)
    (recallOutcomes : List Text) : List AlertReason :=
  let sampleCount := recallOutcomes.length
  let timeoutCount := recallOutcomes.countP (· = "timeout".toList)
  let errorCount := recallOutcomes.countP (· ∈ RECALL_ERROR_OUTCOMES)
  let sampled := thresholds.minimumRecallSamples ≤ sampleCount
  (if isText (status.get? "result") "ok" then [] else [.localStatusDegraded]) ++
    (if sampled ∧ reaches (divide timeoutCount sampleCount) thresholds.recallTimeoutRate then
      [.recallTimeoutRateElevated] else []) ++
    (if sampled ∧ reaches (divide errorCount sampleCount) thresholds.recallErrorRate then
      [.recallErrorRateElevated] else []) ++
    (if isText (canary.get? "result") "ok" then [] else [.e2eFailed])

/-- The reasons that `new_*` flags add. -/
def Observed.newReasons (seen : Observed) : List AlertReason :=
  (if seen.newRetentionFailure then [.newRetentionFailure] else []) ++
    (if seen.newAdapterContractFailure then [.newAdapterContractFailure] else []) ++
    (if seen.newSenderLoopFailure then [.newSenderLoopFailure] else []) ++
    (if seen.newClientLifecycleFailure then [.newClientLifecycleFailure] else [])

/-- `[reason for reason in _REASON_ORDER if reason in reasons]` -/
def ordered (reasons : List AlertReason) : List AlertReason :=
  REASON_ORDER.filter (· ∈ reasons)

/-- The output for the persistent reasons now and before, and the new ones. -/
def transition (previousReasons persistentReasons newReasons : List AlertReason) :
    Option WatchdogResult :=
  let orderedReasons := ordered (persistentReasons ++ newReasons)
  if orderedReasons ≠ [] then
    if newReasons = [] ∧ persistentReasons = previousReasons then none
    else some (.alert orderedReasons (previousReasons.filter (· ∉ persistentReasons)))
  else if previousReasons ≠ [] then some .recovered
  else none

/-- What one evaluation gets, apart from the state file. -/
structure WatchdogInput where
  status : Mapping
  canary : Mapping
  events : List Mapping
  thresholds : Thresholds

/-- `evaluate_watchdog`, with the text that it leaves in the state file. -/
def evaluateWatchdog (divide : ℕ → ℕ → ℚ) (input : WatchdogInput) (file : Option Text) :
    Except WatchdogError (Option WatchdogResult × Text) := do
  validateThresholds input.thresholds
  let previous ← readState file
  let seen ← observeAll input.events ⟨previous.recallOutcomes, false, false, false, false⟩
  let recallOutcomes := lastOutcomes input.thresholds.recallWindow seen.recallOutcomes
  let persistentReasons := ordered
    (currentReasons divide input.thresholds input.status input.canary recallOutcomes)
  let text ← writeState ⟨persistentReasons, recallOutcomes⟩
  return (transition previous.activeReasons persistentReasons seen.newReasons, text)

end BetterHindsight
