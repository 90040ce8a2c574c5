import BetterHindsight.Foundations.Runs
import BetterHindsight.MentalModels.Pagination
import BetterHindsight.MentalModels.Policy

/-! # Calls of a mental-model instance

The `refresh`, `status` and `create` actions of one `MentalModels` instance, cut at their awaits. A
call that awaits a request or the lock is in a `Stage`; what it does up to its next await is one
step, and the calls take their steps in any order. A call may be cancelled wherever it awaits.

* `Books`: the attributes of the instance that the calls read and change.
* `Stage`, `entered`, `resume`: where a call is, and what it does when it holds the lock or when its
  request is over.
* `Instance.next`, `CallStep`: one step of one call. -/

namespace BetterHindsight.MentalModels
set_option autoImplicit false

/-! ## Requests -/

/-- `HindsightClientError` -/
structure ClientError where
  reason : Text
  status : Option ℤ

/-- How a request that was not cancelled is over. -/
inductive Answer where
  | payload (value : JsonValue)
  | failed (error : ClientError)

/-- `_observed_http_call` -/
def observed {α : Type} (decoder : JsonValue → Option α) : Answer → Except ClientError α
  | .failed error => .error error
  | .payload value =>
    match decoder value with
    | some a => .ok a
    | none => .error ⟨"schema_invalid".toList, none⟩

/-- `error.status in {422, 429}` -/
def ClientError.refuses (error : ClientError) : Bool :=
  error.status == some 422 || error.status == some 429

/-- `str(UUID(text)) == text` -/
def isUuid (t : Text) : Bool :=
  match t.splitOn '-' with
  | [a, b, c, d, e] => isHex 8 a && isHex 4 b && isHex 4 c && isHex 4 d && isHex 12 e
  | _ => false

/-- `operation_id` -/
def operationId (value : Option JsonValue) : Option (BoundedText 36) :=
  (text value 36).filter fun t => isUuid t.1

/-- The configuration of an instance and the library functions its calls use. -/
structure Setting where
  lib : Stdlib
  croniterIsValid : Text → Bool
  floats : FloatEquality
  nfkc : Text → Text
  casefold : Text → Text
  apiUrl : Text
  bankId : Text
  maxModels : ℕ
  creation : SummaryPolicy

/-! ## Identifiers -/

/-- `normalized_query` -/
def normalizedQuery (setting : Setting) (query : Text) : Text :=
  [' '].intercalate
    (((setting.casefold (setting.nfkc query)).splitOnP isSpace).filter (· ≠ []))

/-- `stable_id` -/
def stableId (setting : Setting) (query : Text) : Text :=
  let scope := "[".toList ++ Json.quoteRaw setting.apiUrl ++ ", ".toList ++
    Json.quoteRaw setting.bankId ++ ", ".toList ++ Json.quoteRaw (normalizedQuery setting query) ++
    "]".toList
  "bh-mm-".toList ++ (setting.lib.sha256Text scope).text.take 58

/-- `decode_model` -/
def decodeModel (setting : Setting) (value : JsonValue) (modelId : Text) (query : Option Text) :
    Option Payload := do
  let model ← mapping value
  guard ((model.get? "id").bind JsonValue.text? = some modelId)
  let _ ← project setting.lib setting.bankId model true
  match query with
  | none => return model
  | some query =>
    let source ← text (model.get? "source_query") 2000
    guard (normalizedQuery setting source.1 = normalizedQuery setting query)
    return model

/-! ## Attributes and responses -/

/-- The attributes of an instance that its calls change. -/
structure Books where
  reservations : Finset Text
  refreshAmbiguities : Finset Text
  refreshUnconfirmed : Dict Text Payload

/-- How a call ends. -/
inductive Ending where
  | returned (response : Text)
  | raised
  | cancelled

/-- `return render(payload)` -/
def respond (payload : Payload) : Ending :=
  match render payload with
  | .ok (response, _) => .returned response
  | .error _ => .raised

/-- A result about one model. -/
def resultPayload (result : String) (id : Text) (verification : String) : Payload where
  entries := [("result".toList, .str result.toList), ("id".toList, .str id),
    ("verification".toList, .str verification.toList)]
  nodup := (by decide : ["result".toList, "id".toList, "verification".toList].Nodup)

/-- A rejected write. -/
def rejectedPayload (id : Text) (verification : String) : Payload where
  entries := [("result".toList, .str "rejected"), ("id".toList, .str id),
    ("error".toList, .str "summary_write_rejected"),
    ("verification".toList, .str verification.toList)]
  nodup := (by decide :
    ["result".toList, "id".toList, "error".toList, "verification".toList].Nodup)

/-- A result about one operation. -/
def operationPayload (result : String) (id op : Text) (verification : String) : Payload where
  entries := [("result".toList, .str result.toList), ("id".toList, .str id),
    ("operation_id".toList, .str op), ("verification".toList, .str verification.toList)]
  nodup := (by decide :
    ["result".toList, "id".toList, "operation_id".toList, "verification".toList].Nodup)

def unconfirmedPayload (id op : Text) : Payload :=
  operationPayload "unconfirmed" id op
    ("No retry. Acknowledged operation is not verified; reconcile exact " ++
      "status then read this model and inspect content.")

def statusPayload (id op state : Text) : Payload where
  entries := [("result".toList, .str "ok"), ("id".toList, .str id),
    ("operation_id".toList, .str op), ("status".toList, .str state),
    ("verification".toList,
      .str "Read this model and inspect content before claiming success.")]
  nodup := (by decide : ["result".toList, "id".toList, "operation_id".toList, "status".toList,
    "verification".toList].Nodup)

/-- `submission_result`; the state is read back from the record of the response. -/
def submissionResult (response payload : Payload) : Ending :=
  match response.get? "status" with
  | none => .raised
  | some state =>
    let submitted := payload.set "status" state
    if state.text? = some "failed".toList ∨ state.text? = some "cancelled".toList then
      respond ((submitted.set "result" state).set "verification"
        (.str "Generation did not succeed. Inspect this exact operation and target."))
    else respond submitted

/-! ## Status -/

/-- The checks of `decode_status`, with the state it reads. -/
def statusOf (value : JsonValue) (modelId op : Text) : Option Text := do
  let status ← mapping value
  guard ((status.get? "operation_id").bind JsonValue.text? = some op)
  guard ((status.get? "operation_type").bind JsonValue.text? = some "refresh_mental_model".toList)
  let task ← (status.get? "task_payload").bind mapping
  guard ((task.get? "mental_model_id").bind JsonValue.text? = some modelId)
  let state ← (status.get? "status").bind JsonValue.text?
  guard (state ∈ ["pending", "processing", "completed", "failed", "cancelled"].map String.toList)
  return state

/-- The refresh of this model is over. -/
def Books.settle (books : Books) (modelId : Text) : Books :=
  { books with
    refreshUnconfirmed := books.refreshUnconfirmed.erase modelId
    refreshAmbiguities := books.refreshAmbiguities.erase modelId }

/-- The operation of the refresh that is recorded for a model. -/
def Books.unconfirmedOperation (books : Books) (modelId : Text) : Option Text :=
  ((books.refreshUnconfirmed.get? modelId).bind (·.get? "operation_id")).bind JsonValue.text?

/-- `decode_status` with the attributes it leaves; the response is the one `render` leaves. -/
def decodeStatus (books : Books) (value : JsonValue) (modelId op : Text) :
    Option (Text × Payload) × Books :=
  match statusOf value modelId op with
  | none => (none, books)
  | some state =>
    ((render (statusPayload modelId op state)).toOption,
      if state ∈ ["completed", "failed", "cancelled"].map String.toList ∧
        books.unconfirmedOperation modelId = some op then books.settle modelId else books)

/-! ## Stages -/

structure CreateArgs where
  name : Text
  sourceQuery : Text

inductive Action where
  | refresh (id : BoundedText 128)
  | status (id : BoundedText 128) (op : BoundedText 36)
  | create (args : CreateArgs)

/-- The await a call is at. -/
inductive Stage where
  | version (action : Action)
  | refreshLock (id : BoundedText 128)
  | refreshRead (id : BoundedText 128)
  | refreshSubmit (id : BoundedText 128)
  | refreshVerify (id : BoundedText 128) (op : BoundedText 36)
  | status (id : BoundedText 128) (op : BoundedText 36)
  | createLock (args : CreateArgs) (modern : Bool)
  | createRead (args : CreateArgs) (modern : Bool)
  | createPage (args : CreateArgs) (modern : Bool)
  | createSubmit (id : Text) (body : Payload)
  | ended (ending : Ending)

/-- The call is inside `async with self.lock`. -/
def Stage.holdsLock : Stage → Bool
  | .refreshRead _ | .refreshSubmit _ | .refreshVerify .. | .createRead .. | .createPage ..
  | .createSubmit .. => true
  | .version _ | .refreshLock _ | .status .. | .createLock .. | .ended _ => false

def Stage.isEnded : Stage → Bool
  | .ended _ => true
  | _ => false

section Steps
variable (setting : Setting)

def CreateArgs.query (args : CreateArgs) : Text := redactSensitiveText setting.lib args.sourceQuery

def CreateArgs.modelId (args : CreateArgs) : Text := stableId setting (args.query setting)

def MODERN_VERSIONS : List Text := ["0.10.2", "1.0.0"].map String.toList

/-- `call` once the version is there. -/
def dispatch (action : Action) (answer : Answer) : Stage :=
  match observed (fun value => (mapping value).bind fun m => text (m.get? "api_version") 64)
      answer with
  | .error _ => .ended .raised
  | .ok version =>
    if version.1 ∉ "0.10.0".toList :: MODERN_VERSIONS then
      .ended (.returned ("\x7b\"error\":\"Mental-model pilot requires ".toList ++
        "Hindsight 0.10.0, 0.10.2 or 1.0.0.\"\x7d".toList))
    else
      match action with
      | .refresh id =>
        if version.1 ∈ MODERN_VERSIONS then .refreshLock id
        else .ended (.returned ("\x7b\"error\":\"Summary maintenance and Knowledge Pages ".toList ++
          "require Hindsight 0.10.2 or 1.0.0.\"\x7d".toList))
      | .status id op => .status id op
      | .create args => .createLock args (version.1 ∈ MODERN_VERSIONS)

/-- What a call does once it has the lock, up to its next await. -/
def entered (books : Books) : Stage → Option Stage
  | .refreshLock id =>
    match books.refreshUnconfirmed.get? id.1 with
    | some known => some (.ended (respond known))
    | none => some (.refreshRead id)
  | .createLock args modern =>
    if !modern && !PolicyKey.all.all fun key =>
        Json.pyEq setting.floats (setting.creation key).val (SummaryPolicy.default key).val then
      some (.ended (.returned ("\x7b\"error\":\"Configured creation policy ".toList ++
        "requires Hindsight 0.10.2 or 1.0.0.\"\x7d".toList)))
    else some (.createRead args modern)
  | _ => none

/-- `refresh` after its read. -/
def refreshRead (books : Books) (id : BoundedText 128) (answer : Answer) : Books × Stage :=
  match observed (fun value => decodeModel setting value id.1 none) answer with
  | .error _ => (books, .ended .raised)
  | .ok model =>
    match validateFixedPolicy setting.croniterIsValid setting.floats model with
    | .error _ => (books, .ended .raised)
    | .ok _ =>
      if id.1 ∈ books.refreshAmbiguities then
        (books, .ended (respond (resultPayload "ambiguous" id.1
          "No retry. Operator must reconcile unknown refresh before another submission.")))
      else
        ({ books with refreshAmbiguities := insert id.1 books.refreshAmbiguities },
          .refreshSubmit id)

/-- `decode` inside `refresh` -/
def decodeQueued (value : JsonValue) : Option (BoundedText 36) := do
  let response ← mapping value
  guard ((response.get? "status").bind JsonValue.text? = some "queued".toList)
  operationId (response.get? "operation_id")

/-- `refresh` after its `POST`. -/
def refreshSubmitted (books : Books) (id : BoundedText 128) (answer : Answer) : Books × Stage :=
  match observed decodeQueued answer with
  | .error error =>
    if error.refuses then
      ({ books with refreshAmbiguities := books.refreshAmbiguities.erase id.1 },
        .ended (respond (rejectedPayload id.1
          "No refresh submitted. A later explicit attempt is permitted.")))
    else
      (books, .ended (respond (resultPayload "ambiguous" id.1
        "No retry. Reconcile unknown operation with the operator.")))
  | .ok op =>
    -- Keep validated ACK IDs even if status verification fails or is cancelled.
    ({ books with
        refreshUnconfirmed := books.refreshUnconfirmed.set id.1 (unconfirmedPayload id.1 op.1) },
      .refreshVerify id op)

/-- `refresh` after the status of its own operation. -/
def refreshVerified (books : Books) (id : BoundedText 128) (op : BoundedText 36)
    (answer : Answer) : Books × Stage :=
  let decoded := match answer with
    | .failed _ => (none, books)
    | .payload value => decodeStatus books value id.1 op.1
  match decoded with
  | (some response, books') =>
    (books'.settle id.1, .ended (submissionResult response.2 (operationPayload "queued" id.1 op.1
      "Check status once, then read this model and inspect generated content.")))
  | (none, books') =>
    -- another status call may have removed the entry
    match books'.refreshUnconfirmed.get? id.1 with
    | some known => (books', .ended (respond known))
    | none => (books', .ended .raised)

/-- `status` -/
def statusRead (books : Books) (id : BoundedText 128) (op : BoundedText 36) (answer : Answer) :
    Books × Stage :=
  match answer with
  | .failed _ => (books, .ended .raised)
  | .payload value =>
    match decodeStatus books value id.1 op.1 with
    | (some response, books') => (books', .ended (.returned response.1))
    | (none, books') => (books', .ended .raised)

/-- `create` after its read. -/
def createRead (books : Books) (args : CreateArgs) (modern : Bool) (answer : Answer) :
    Books × Stage :=
  let modelId := args.modelId setting
  match observed (fun value => decodeModel setting value modelId (some (args.query setting)))
      answer with
  | .ok _ =>
    ({ books with reservations := books.reservations.erase modelId },
      .ended (respond (resultPayload "existing" modelId
        "Read content; generation may still be pending or failed.")))
  | .error error =>
    if error.reason ≠ "endpoint_not_found".toList then (books, .ended .raised)
    else if modelId ∈ books.reservations then
      (books, .ended (respond (resultPayload "ambiguous" modelId
        "No retry sent. Reconcile this ID later or ask the operator.")))
    else (books, .createPage args modern)

/-- `trigger(modern=modern)` -/
def triggerPayload (policy : SummaryPolicy) (modern : Bool) : Payload where
  entries := policy.trigger.take (if modern then 17 else 14)
  nodup := by
    have h : (policy.trigger.map Prod.fst).Nodup :=
      (by decide : (SummaryPolicy.default.trigger.map Prod.fst).Nodup)
    rw [List.map_take]
    exact h.sublist (List.take_sublist _ _)

/-- The body of the creation request. -/
def creationBody (args : CreateArgs) (modern : Bool) : Payload where
  entries := [("id".toList, .str (args.modelId setting)),
    ("name".toList, .str (redactSensitiveText setting.lib args.name)),
    ("source_query".toList, .str (args.query setting)), ("tags".toList, .arr []),
    ("max_tokens".toList, setting.creation .maxTokens),
    ("trigger".toList, object (triggerPayload setting.creation modern))]
  nodup := (by decide : ["id".toList, "name".toList, "source_query".toList, "tags".toList,
    "max_tokens".toList, "trigger".toList].Nodup)

/-- `present` inside `create` -/
def present? (items : List ModelItem) : Finset Text := (items.map fun item => item.id.1).toFinset

/-- `create` after its page. -/
def createPaged (books : Books) (args : CreateArgs) (modern : Bool) (answer : Answer) :
    Books × Stage :=
  match observed (fun value => decodePage setting.lib setting.bankId value 0) answer with
  | .error _ => (books, .ended .raised)
  | .ok (items, total) =>
    let present := present? items
    -- an incomplete inventory never permits a write
    if total ≠ items.length ∨ setting.maxModels ≤ total + (books.reservations \ present).card then
      (books, .ended (.returned
        "\x7b\"error\":\"Mental-model allowance exhausted or inventory incomplete.\"\x7d".toList))
    else
      ({ books with
          reservations := insert (args.modelId setting) (books.reservations \ present) },
        .createSubmit (args.modelId setting) (creationBody setting args modern))

/-- `decode_creation` -/
def decodeCreation (modelId : Text) (value : JsonValue) : Option (BoundedText 36) := do
  let response ← mapping value
  guard ((response.get? "mental_model_id").bind JsonValue.text? = some modelId)
  operationId (response.get? "operation_id")

/-- `create` after its `POST`. -/
def createSubmitted (books : Books) (modelId : Text) (answer : Answer) : Books × Stage :=
  match observed (decodeCreation modelId) answer with
  | .error error =>
    if error.refuses then
      ({ books with reservations := books.reservations.erase modelId },
        .ended (respond (rejectedPayload modelId
          "No model created. A later explicit attempt is permitted.")))
    else
      (books, .ended (respond (resultPayload "ambiguous" modelId
        "No retry sent. Reconcile by this exact ID on the next call.")))
  | .ok op =>
    (books, .ended (respond (operationPayload "queued" modelId op.1
      "Queued only. Check status once, then read and inspect content.")))

/-- What a call does once its request is over, up to its next await. -/
def resume (books : Books) : Stage → Answer → Option (Books × Stage)
  | .version action, answer => some (books, dispatch action answer)
  | .refreshRead id, answer => some (refreshRead setting books id answer)
  | .refreshSubmit id, answer => some (refreshSubmitted books id answer)
  | .refreshVerify id op, answer => some (refreshVerified books id op answer)
  | .status id op, answer => some (statusRead books id op answer)
  | .createRead args modern, answer => some (createRead setting books args modern answer)
  | .createPage args modern, answer => some (createPaged setting books args modern answer)
  | .createSubmit modelId _, answer => some (createSubmitted books modelId answer)
  | .refreshLock _, _ | .createLock .. , _ | .ended _, _ => none

/-! ## Steps -/

/-- One instance with the calls made on it. -/
structure Instance where
  books : Books
  lockOwner : Option ℕ
  calls : ℕ → Option Stage

/-- The instance with a call at a stage; a call that ends leaves the lock. -/
def Instance.put (s : Instance) (k : ℕ) (books : Books) (stage : Stage) : Instance where
  books := books
  lockOwner := if stage.isEnded ∧ s.lockOwner = some k then none else s.lockOwner
  calls := Function.update s.calls k (some stage)

inductive CallEvent where
  | start (k : ℕ) (action : Action)
  | acquire (k : ℕ)
  | answer (k : ℕ) (answer : Answer)
  | cancel (k : ℕ)

/-- One step of one call, where the call can make it. -/
def Instance.next (s : Instance) : CallEvent → Option Instance
  | .start k action =>
    match s.calls k with
    | none => some (s.put k s.books (.version action))
    | some _ => none
  | .acquire k =>
    match s.lockOwner, s.calls k with
    | none, some stage =>
      (entered setting s.books stage).map fun stage' =>
        { s with lockOwner := some k }.put k s.books stage'
    | _, _ => none
  | .answer k answer =>
    match s.calls k with
    | some stage =>
      (resume setting s.books stage answer).map fun after => s.put k after.1 after.2
    | none => none
  | .cancel k =>
    match s.calls k with
    | some (.ended _) | none => none
    | some _ => some (s.put k s.books (.ended .cancelled))

def CallStep (s : Instance) (event : CallEvent) (s' : Instance) : Prop :=
  s.next setting event = some s'

/-- `MentalModels.__init__` -/
def Instance.new : Instance := ⟨⟨∅, ∅, .empty⟩, none, fun _ => none⟩

/-- The steps of a list of events, where every call can make its step. -/
def runCalls (s : Instance) :
    List CallEvent → Option (List (Transition Instance CallEvent) × Instance)
  | [] => some ([], s)
  | event :: events =>
    match s.next setting event with
    | none => none
    | some s' => (runCalls s' events).map fun rest => (⟨s, event, s'⟩ :: rest.1, rest.2)

theorem run_of_runCalls {setting : Setting} {s t : Instance} {events : List CallEvent}
    {tr : List (Transition Instance CallEvent)} (h : runCalls setting s events = some (tr, t)) :
    Run (CallStep setting) s tr t := by
  induction events generalizing s tr with
  | nil =>
    cases h
    exact .nil
  | cons event events ih =>
    rw [runCalls] at h
    cases hnext : s.next setting event with
    | none => simp only [hnext, reduceCtorEq] at h
    | some s' =>
      simp only [hnext, Option.map_eq_some_iff, Prod.mk.injEq] at h
      obtain ⟨⟨rest, t'⟩, hrest, rfl, rfl⟩ := h
      exact (Run.single hnext).append (ih hrest)

end Steps

/-! ## What a step changes -/

section Changes
variable {setting : Setting}

@[simp] theorem put_books (s : Instance) (k : ℕ) (books : Books) (stage : Stage) :
    (s.put k books stage).books = books := rfl

@[simp] theorem put_same (s : Instance) (k : ℕ) (books : Books) (stage : Stage) :
    (s.put k books stage).calls k = some stage := Function.update_self _ _ _

theorem put_calls (s : Instance) (k k' : ℕ) (books : Books) (stage : Stage) :
    (s.put k books stage).calls k' = if k' = k then some stage else s.calls k' :=
  Function.update_apply _ _ _ _

theorem put_ne (s : Instance) {k k' : ℕ} (h : k' ≠ k) (books : Books) (stage : Stage) :
    (s.put k books stage).calls k' = s.calls k' := by
  rw [put_calls, if_neg h]

/-- How a step of one call changes an instance. -/
inductive CallChange (setting : Setting) (s : Instance) : CallEvent → Instance → Prop
  | start {k : ℕ} {action : Action} (fresh : s.calls k = none) :
      CallChange setting s (.start k action) (s.put k s.books (.version action))
  | acquire {k : ℕ} {stage stage' : Stage} (free : s.lockOwner = none)
      (hcall : s.calls k = some stage) (hentered : entered setting s.books stage = some stage') :
      CallChange setting s (.acquire k) ({ s with lockOwner := some k }.put k s.books stage')
  | answer {k : ℕ} {stage stage' : Stage} {answer : Answer} {books : Books}
      (hcall : s.calls k = some stage)
      (hresume : resume setting s.books stage answer = some (books, stage')) :
      CallChange setting s (.answer k answer) (s.put k books stage')
  | cancel {k : ℕ} {stage : Stage} (hcall : s.calls k = some stage)
      (running : stage.isEnded = false) :
      CallChange setting s (.cancel k) (s.put k s.books (.ended .cancelled))

theorem CallStep.change {s s' : Instance} {event : CallEvent} (h : CallStep setting s event s') :
    CallChange setting s event s' := by
  unfold CallStep Instance.next at h
  cases event with
  | start k action =>
    cases hcall : s.calls k with
    | none =>
      simp only [hcall, Option.some.injEq] at h
      exact h ▸ .start hcall
    | some stage => simp only [hcall, reduceCtorEq] at h
  | acquire k =>
    cases howner : s.lockOwner with
    | some owner => simp only [howner, reduceCtorEq] at h
    | none =>
      cases hcall : s.calls k with
      | none => simp only [howner, hcall, reduceCtorEq] at h
      | some stage =>
        simp only [howner, hcall, Option.map_eq_some_iff] at h
        obtain ⟨stage', hentered, rfl⟩ := h
        exact .acquire howner hcall hentered
  | answer k answer =>
    cases hcall : s.calls k with
    | none => simp only [hcall, reduceCtorEq] at h
    | some stage =>
      simp only [hcall, Option.map_eq_some_iff] at h
      obtain ⟨⟨books, stage'⟩, hresume, rfl⟩ := h
      exact .answer hcall hresume
  | cancel k =>
    cases hcall : s.calls k with
    | none => simp only [hcall, reduceCtorEq] at h
    | some stage =>
      cases hstage : stage.isEnded with
      | true =>
        cases stage <;> simp only [Stage.isEnded, Bool.false_eq_true] at hstage
        simp only [hcall, reduceCtorEq] at h
      | false =>
        cases stage <;> simp only [Stage.isEnded, Bool.true_eq_false] at hstage <;>
          simp only [hcall, Option.some.injEq] at h <;> exact h ▸ .cancel hcall rfl

/-! ## The lock -/

/-- The lock is held by the call that is inside `async with`. -/
structure Locked (s : Instance) : Prop where
  owner : ∀ k, s.lockOwner = some k → ∃ stage, s.calls k = some stage ∧ stage.holdsLock = true
  held : ∀ k stage, s.calls k = some stage → stage.holdsLock = true → s.lockOwner = some k

theorem Locked.eq {s : Instance} (h : Locked s) {k k' : ℕ} {stage stage' : Stage}
    (hcall : s.calls k = some stage) (hholds : stage.holdsLock = true)
    (hcall' : s.calls k' = some stage') (hholds' : stage'.holdsLock = true) : k' = k :=
  Option.some.inj ((h.held k' stage' hcall' hholds').symm.trans (h.held k stage hcall hholds))

theorem entered_holds {books : Books} {stage stage' : Stage}
    (h : entered setting books stage = some stage') :
    stage'.holdsLock = true ∨ stage'.isEnded = true := by
  unfold entered at h
  split at h
  · split at h <;> cases h
    · exact .inr rfl
    · exact .inl rfl
  · split at h <;> cases h
    · exact .inr rfl
    · exact .inl rfl
  · cases h

theorem dispatch_holds (action : Action) (answer : Answer) :
    (dispatch action answer).holdsLock = false := by
  unfold dispatch
  split
  · rfl
  · split
    · rfl
    · cases action with
      | refresh id => dsimp only; split <;> rfl
      | status id op => rfl
      | create args => rfl

/-- A call keeps the lock or ends, and gets no lock from an answer. -/
theorem resume_holds {books books' : Books} {stage stage' : Stage} {answer : Answer}
    (h : resume setting books stage answer = some (books', stage')) :
    stage'.holdsLock = stage.holdsLock ∨ stage'.isEnded = true := by
  cases stage with
  | version action =>
    cases h
    exact .inl (dispatch_holds action answer)
  | refreshRead id =>
    simp only [resume, refreshRead, Option.some.injEq] at h
    (repeat' split at h) <;> cases h
    all_goals first | exact .inr rfl | exact .inl rfl
  | refreshSubmit id =>
    simp only [resume, refreshSubmitted, Option.some.injEq] at h
    (repeat' split at h) <;> cases h
    all_goals first | exact .inr rfl | exact .inl rfl
  | refreshVerify id op =>
    simp only [resume, refreshVerified, Option.some.injEq] at h
    (repeat' split at h) <;> cases h <;> exact .inr rfl
  | status id op =>
    simp only [resume, statusRead, Option.some.injEq] at h
    (repeat' split at h) <;> cases h <;> exact .inr rfl
  | createRead args modern =>
    simp only [resume, createRead, Option.some.injEq] at h
    (repeat' split at h) <;> cases h
    all_goals first | exact .inr rfl | exact .inl rfl
  | createPage args modern =>
    simp only [resume, createPaged, Option.some.injEq] at h
    (repeat' split at h) <;> cases h
    all_goals first | exact .inr rfl | exact .inl rfl
  | createSubmit modelId body =>
    simp only [resume, createSubmitted, Option.some.injEq] at h
    (repeat' split at h) <;> cases h <;> exact .inr rfl
  | refreshLock id => cases h
  | createLock args modern => cases h
  | ended ending => cases h

theorem holdsLock_of_isEnded {stage : Stage} (h : stage.isEnded = true) :
    stage.holdsLock = false := by
  cases stage <;> first | rfl | cases h

/-- A stage that holds the lock where the call has it, and no stage without, keeps the lock. -/
theorem Locked.put {s : Instance} {k : ℕ} (books : Books) {stage : Stage}
    (howner : ∀ k', s.lockOwner = some k' → k' ≠ k →
      ∃ stage, s.calls k' = some stage ∧ stage.holdsLock = true)
    (hheld : ∀ k' stage, k' ≠ k → s.calls k' = some stage → stage.holdsLock = true →
      s.lockOwner = some k')
    (hkeep : s.lockOwner = some k → stage.holdsLock = true ∨ stage.isEnded = true)
    (hhas : stage.holdsLock = true → s.lockOwner = some k) : Locked (s.put k books stage) where
  owner k' h := by
    change (if stage.isEnded = true ∧ s.lockOwner = some k then none else s.lockOwner) =
      some k' at h
    split at h
    · cases h
    · rename_i hleave
      by_cases hk : k' = k
      · subst hk
        exact ⟨stage, put_same _ _ _ _, (hkeep h).resolve_right fun hended => hleave ⟨hended, h⟩⟩
      · rw [put_ne s hk]
        exact howner k' h hk
  held k' stage' hcall hholds := by
    change (if stage.isEnded = true ∧ s.lockOwner = some k then none else s.lockOwner) = some k'
    by_cases hk : k' = k
    · subst hk
      obtain rfl : stage' = stage := by
        rw [put_same] at hcall
        exact (Option.some.inj hcall).symm
      have hrunning : ¬ stage'.isEnded = true := fun hended => by
        rw [holdsLock_of_isEnded hended] at hholds
        cases hholds
      rw [if_neg fun h => hrunning h.1]
      exact hhas hholds
    · rw [put_ne s hk] at hcall
      have hother := hheld k' stage' hk hcall hholds
      rw [if_neg fun h => hk (Option.some.inj (hother.symm.trans h.2))]
      exact hother

theorem Locked.step {s s' : Instance} {event : CallEvent} (h : Locked s)
    (hstep : CallStep setting s event s') : Locked s' := by
  cases hstep.change with
  | @start k action fresh =>
    refine .put _ (fun k' ho _ => h.owner k' ho) (fun k' stage _ => h.held k' stage) ?_ nofun
    intro ho
    obtain ⟨stage, hcall, -⟩ := h.owner k ho
    rw [fresh] at hcall
    cases hcall
  | @acquire k stage stage' free hcall hentered =>
    refine .put _ (fun k' ho hk => ?_) (fun k' other _ hother hholds => ?_)
      (fun _ => entered_holds hentered) fun _ => rfl
    · exact absurd (Option.some.inj ho).symm hk
    · have howner := h.held k' other hother hholds
      rw [free] at howner
      cases howner
  | @answer k stage stage' answer books hcall hresume =>
    refine .put _ (fun k' ho _ => h.owner k' ho) (fun k' stage _ => h.held k' stage) ?_ ?_
    · intro ho
      obtain ⟨stage₀, hcall₀, hholds⟩ := h.owner k ho
      obtain rfl : stage₀ = stage := Option.some.inj (hcall₀.symm.trans hcall)
      exact (resume_holds hresume).imp_left fun heq => heq.trans hholds
    · intro hholds
      have hsame := (resume_holds hresume).resolve_right fun hended => by
        rw [holdsLock_of_isEnded hended] at hholds
        cases hholds
      exact h.held k stage hcall (hsame.symm.trans hholds)
  | @cancel k stage hcall running =>
    exact .put _ (fun k' ho _ => h.owner k' ho) (fun k' stage _ => h.held k' stage)
      (fun _ => .inr rfl) nofun

theorem Locked.new : Locked Instance.new := ⟨nofun, nofun⟩

end Changes

end BetterHindsight.MentalModels
