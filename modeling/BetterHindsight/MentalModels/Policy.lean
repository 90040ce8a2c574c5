import BetterHindsight.Config
import BetterHindsight.Foundations.JsonEqual
import BetterHindsight.MentalModels.Inventory

/-! # The summary policy and its edits

`summary_policy.py` and `edit_definition` of `summary_management.py`: what a stored definition must
satisfy, the request that changes it, and the check of what the server stored.

* `parsePolicy`, `validateFixedPolicy`: the checks of a policy and of a definition.
* `patchBody`, `editDefinition`: the change request and its outcome.
* `mergeDefinition`: the definition that the server ends up with.
* `edit_definition`: an edit keeps what it was checked against. -/

namespace BetterHindsight.MentalModels
set_option autoImplicit false

open Json

/-! ## Policies -/

inductive PolicyKey where
  | mode
  | budget
  | refreshAfterConsolidation
  | refreshCron
  | minRefreshIntervalSeconds
  | maxTokens
  | recallMaxTokens
  | observationsMaxTokens
  deriving DecidableEq

namespace PolicyKey

def all : List PolicyKey :=
  [mode, budget, refreshAfterConsolidation, refreshCron, minRefreshIntervalSeconds, maxTokens,
    recallMaxTokens, observationsMaxTokens]

/-- The name of the field in `SummaryPolicy`. -/
def name : PolicyKey → Text
  | mode => "mode"
  | budget => "budget"
  | refreshAfterConsolidation => "refresh_after_consolidation"
  | refreshCron => "refresh_cron"
  | minRefreshIntervalSeconds => "min_refresh_interval_seconds"
  | maxTokens => "max_tokens"
  | recallMaxTokens => "recall_max_tokens"
  | observationsMaxTokens => "observations_max_tokens"

/-- `POLICY_FLAGS[key]` -/
def wire : PolicyKey → Text
  | observationsMaxTokens => "reflect_search_observations_max_tokens"
  | key => key.name

theorem mem_all (key : PolicyKey) : key ∈ all := by cases key <;> decide

theorem name_injective : Function.Injective name := by
  intro key key' h
  cases key <;> cases key' <;> first | rfl | exact absurd h (by decide)

theorem wire_injective : Function.Injective wire := by
  intro key key' h
  cases key <;> cases key' <;> first | rfl | exact absurd h (by decide)

theorem nodup_all : all.Nodup := by decide

end PolicyKey

/-- `SummaryPolicy`; the values are not checked. -/
abbrev SummaryPolicy := PolicyKey → JsonValue

def SummaryPolicy.default : SummaryPolicy
  | .mode => .str "full"
  | .budget => .str "mid"
  | .refreshAfterConsolidation => .bool false
  | .refreshCron => .null
  | .minRefreshIntervalSeconds => .int 0
  | .maxTokens => .int 1024
  | .recallMaxTokens => .int 4096
  | .observationsMaxTokens => .int 5000

/-- `SummaryPolicy.trigger()` -/
def SummaryPolicy.trigger (policy : SummaryPolicy) : List (Text × JsonValue) :=
  [("mode".toList, policy .mode),
    ("refresh_after_consolidation".toList, policy .refreshAfterConsolidation),
    ("refresh_cron".toList, policy .refreshCron),
    ("min_refresh_interval_seconds".toList, policy .minRefreshIntervalSeconds),
    ("fact_types".toList, .null), ("exclude_mental_models".toList, .bool true),
    ("exclude_mental_model_ids".toList, .null), ("tags_match".toList, .str "any"),
    ("tag_groups".toList, .null), ("include_chunks".toList, .bool false),
    ("recall_max_tokens".toList, policy .recallMaxTokens),
    ("recall_chunks_max_tokens".toList, .int 0), ("response_schema".toList, .null),
    ("keep_trace".toList, .bool false), ("budget".toList, policy .budget),
    ("reflect_search_observations_max_tokens".toList, policy .observationsMaxTokens),
    ("reflect_search_observations_include_entities".toList, .bool false)]

theorem SummaryPolicy.nodup_trigger (policy : SummaryPolicy) :
    (policy.trigger.map Prod.fst).Nodup := by
  simp only [trigger, List.map_cons, List.map_nil]
  decide +kernel

/-! ## Checks -/

/-- Raises with the message unless the condition holds. -/
def require (condition : Bool) (message : String) : Except Text Unit :=
  if condition then .ok () else .error message.toList

/-- A text among these. -/
def isOneOf (value : JsonValue) (texts : List String) : Bool :=
  match value.text? with
  | some t => texts.any fun allowed => allowed.toList == t
  | none => false

/-- A value of type `int` between these. -/
def inRange (value : JsonValue) (minimum maximum : ℤ) : Bool :=
  match value with
  | ⟨.int n, _⟩ => minimum ≤ n && n ≤ maximum
  | _ => false

/-- A value of type `bool`. -/
def isBool (value : JsonValue) : Bool :=
  match value with
  | ⟨.bool _, _⟩ => true
  | _ => false

def isTrue (value : JsonValue) : Bool :=
  match value with
  | ⟨.bool true, _⟩ => true
  | _ => false

/-- `len(text.split())` -/
def wordCount (t : Text) : ℕ := ((t.splitOnP isSpace).filter (· ≠ [])).length

/-- The check of the cron expression; `croniterIsValid` is `croniter.is_valid`. -/
def checkCron (croniterIsValid : Text → Bool) (values : SummaryPolicy) : Except Text Unit :=
  if isNone (some (values .refreshCron)) then .ok ()
  else
    match (values .refreshCron).text? with
    | none => .error "Refresh cron requires five fields (UTC)."
    | some cron => do
      require (cron == strip cron && decide (cron.length ≤ 120) && wordCount cron == 5)
        "Refresh cron requires five fields (UTC)."
      require (croniterIsValid cron) "Invalid refresh cron."
      require (!isTrue (values .refreshAfterConsolidation))
        "Refresh triggers are mutually exclusive."

/-- The bounds of the budgets and of the interval. -/
def POLICY_BOUNDS : List (PolicyKey × ℤ × ℤ) :=
  [(.minRefreshIntervalSeconds, 0, 31536000), (.maxTokens, 256, 8192),
    (.recallMaxTokens, 1, 16384), (.observationsMaxTokens, 1, 16384)]

/-- The checks of `parse_policy` on the values. -/
def checkPolicy (croniterIsValid : Text → Bool) (values : SummaryPolicy) : Except Text Unit := do
  require (isOneOf (values .mode) ["full", "delta"] &&
    isOneOf (values .budget) ["low", "mid", "high"]) "Invalid summary refresh mode or budget."
  require (isBool (values .refreshAfterConsolidation)) "Invalid consolidation trigger."
  checkCron croniterIsValid values
  require (POLICY_BOUNDS.all fun bound => inRange (values bound.1) bound.2.1 bound.2.2)
    "Invalid summary token budget or interval."

/-- The values of a base with the changed fields. -/
def changedPolicy (changes : Payload) (base : SummaryPolicy) : SummaryPolicy :=
  fun key => (changes.get? key.name).getD (base key)

/-- `parse_policy` -/
def parsePolicy (croniterIsValid : Text → Bool) (value : JsonValue) (base : SummaryPolicy) :
    Except Text SummaryPolicy :=
  match mapping value with
  | none => .error "Invalid summary creation policy."
  | some changes => do
    require (changes.entries.all fun e => (PolicyKey.all.map PolicyKey.name).contains e.1)
      "Invalid summary creation policy."
    checkPolicy croniterIsValid (changedPolicy changes base)
    return changedPolicy changes base

/-! ## Definitions -/

/-- The present values of the keys under their labels. -/
def fieldsBy (label : PolicyKey → Text) (hlabel : Function.Injective label)
    (values : PolicyKey → Option JsonValue) : Payload where
  entries := PolicyKey.all.filterMap fun key => (values key).map fun value => (label key, value)
  nodup := by
    have hmap : (PolicyKey.all.filterMap fun key => (values key).map fun value =>
        (label key, value)).map Prod.fst =
          (PolicyKey.all.filter fun key => (values key).isSome).map label := by
      rw [List.map_filterMap, ← List.filterMap_eq_map, List.filterMap_filter]
      congr 1
      funext key
      cases values key <;> rfl
    rw [hmap]
    exact (PolicyKey.nodup_all.filter _).map hlabel

/-- A value that is there and not null. -/
def present (value : Option JsonValue) : Option JsonValue := if isNone value then none else value

/-- The fields of a trigger that an edit may change. -/
def EDITABLE : List Text :=
  ["mode", "budget", "refresh_after_consolidation", "refresh_cron",
    "min_refresh_interval_seconds", "recall_max_tokens", "reflect_search_observations_max_tokens"]

/-- The fields of a trigger that are fixed, with their values. -/
def fixedFields : List (Text × JsonValue) :=
  SummaryPolicy.default.trigger.filter fun field => !EDITABLE.contains field.1

/-- `model.get(key)` as a value -/
def getOrNull (model : Payload) (key : Text) : JsonValue := (model.get? key).getD .null

/-- The policy fields of a definition. -/
def policyFields (model trigger : Payload) : Payload :=
  fieldsBy PolicyKey.name PolicyKey.name_injective fun key =>
    if key = .maxTokens then present (model.get? "max_tokens") else trigger.get? key.wire

/-- `validate_fixed_policy` -/
def validateFixedPolicy (croniterIsValid : Text → Bool) (floats : FloatEquality)
    (model : Payload) : Except Text Unit :=
  match (model.get? "trigger").bind mapping with
  | none => .error "Summary requires bank-wide fixed policy."
  | some trigger => do
    require (pyEq floats (getOrNull model "tags").val (.arr []))
      "Summary requires bank-wide fixed policy."
    require (fixedFields.all fun field => pyEq floats (getOrNull trigger field.1).val field.2.val)
      "Summary requires fixed retrieval and tracing policy."
    let _ ← parsePolicy croniterIsValid (object (policyFields model trigger)) .default
    return ()

/-! ## Edits -/

structure EditArgs where
  id : Text
  name : Option Text
  sourceQuery : Option Text
  policy : Option JsonValue

/-- The body of the `PATCH` request: the redacted name and source query, and the changed fields. -/
def requestBody (lib : Stdlib) (args : EditArgs) (trigger : Payload)
    (maxTokens : Option JsonValue) : Payload where
  entries :=
    (args.name.map fun t => ("name".toList, .str (redactSensitiveText lib t))).toList ++
      (args.sourceQuery.map fun t => ("source_query".toList,
        .str (redactSensitiveText lib t))).toList ++
      (if trigger.isEmpty then [] else [("trigger".toList, object trigger)]) ++
      (maxTokens.map fun value => ("max_tokens".toList, value)).toList
  nodup := by
    cases args.name <;> cases args.sourceQuery <;> cases maxTokens <;> cases trigger.isEmpty
    all_goals
      simp only [Option.map_none, Option.map_some, Option.toList_none, Option.toList_some,
        Bool.false_eq_true, if_false, if_true, List.map_append, List.map_cons, List.map_nil]
      decide

/-- The values that stand for a definition in the check of a change. -/
def currentPolicy (before current : Payload) : SummaryPolicy := fun key =>
  (present (if key = .maxTokens then before.get? "max_tokens" else current.get? key.wire)).getD
    (SummaryPolicy.default key)

/-- The changed fields of the trigger under their wire names. -/
def triggerChanges (changes : Payload) : Payload :=
  fieldsBy PolicyKey.wire PolicyKey.wire_injective fun key =>
    if key = .maxTokens then none else changes.get? key.name

/-- `edit_definition` up to its request. -/
def patchBody (lib : Stdlib) (croniterIsValid : Text → Bool) (floats : FloatEquality)
    (args : EditArgs) (before : Payload) : Except Text Payload := do
  validateFixedPolicy croniterIsValid floats before
  let changes := args.policy.getD (object .empty)
  match (before.get? "trigger").bind mapping with
  | none => .error []
  | some current =>
    let _ ← parsePolicy croniterIsValid changes (currentPolicy before current)
    let fields := (mapping changes).getD .empty
    return requestBody lib args (triggerChanges fields) (fields.get? "max_tokens")

/-- What comes of the `PATCH` request. -/
inductive PatchOutcome where
  /-- an answer that `decode_model` accepts -/
  | accepted
  /-- `HindsightClientError` with this status -/
  | clientError (status : Option ℤ)
  /-- any other exception -/
  | raised

inductive EditResult where
  | rejected
  /-- `definition_verified`, with the definition read back -/
  | verified (after : Payload)

/-- `{**current, **trigger}` -/
def expectedTrigger (before body : Payload) : Payload :=
  (((before.get? "trigger").bind mapping).getD .empty).update
    (((body.get? "trigger").bind mapping).getD .empty)

/-- The check of the definition read back. -/
def verifyReadback (floats : FloatEquality) (before body after : Payload) : Except Text Unit := do
  match (after.get? "trigger").bind mapping with
  | none => .error []
  | some trigger =>
    require (pyEq floats (object trigger).val (object (expectedTrigger before body)).val &&
        pyEq floats (getOrNull after "tags").val (getOrNull before "tags").val)
      "Definition policy readback mismatch."
    require (["name".toList, "source_query".toList, "max_tokens".toList].all fun field =>
        pyEq floats (getOrNull after field).val
          ((body.get? field).getD (getOrNull before field)).val)
      "Definition readback mismatch."

/-- `edit_definition`; `readback` is what `models.read` returns, nothing where it raises. -/
def editDefinition (lib : Stdlib) (croniterIsValid : Text → Bool) (floats : FloatEquality)
    (args : EditArgs) (before : Payload) (patch : Payload → PatchOutcome)
    (readback : Payload → Option Payload) : Except Text EditResult := do
  let body ← patchBody lib croniterIsValid floats args before
  match patch body with
  | .raised => .error []
  | .clientError status => if status ∈ [some 422, some 429] then return .rejected else .error []
  | .accepted =>
    match readback body with
    | none => .error []
    | some after =>
      verifyReadback floats before body after
      return .verified after

/-- The definition of a server that merges a request field by field. -/
def mergeDefinition (before body : Payload) : Payload :=
  before.update
    (if (body.get? "trigger").isSome then body.set "trigger" (object (expectedTrigger before body))
    else body)

/-! ## What the checks accept -/

theorem require_ok {condition : Bool} {message : String} {u : Unit}
    (h : require condition message = .ok u) : condition = true := by
  unfold require at h
  split at h
  · assumption
  · cases h

theorem require_true (message : String) : require true message = .ok () := rfl

/-- What the policy promises: one trigger at most, and everything in range. -/
structure PolicyHolds (values : SummaryPolicy) : Prop where
  exclusive : isNone (some (values .refreshCron)) = true ∨
    isTrue (values .refreshAfterConsolidation) = false
  bounds : ∀ bound ∈ POLICY_BOUNDS, inRange (values bound.1) bound.2.1 bound.2.2 = true

section Checks
variable {croniterIsValid : Text → Bool} {values : SummaryPolicy} {u : Unit}

theorem checkCron_exclusive (h : checkCron croniterIsValid values = .ok u) :
    isNone (some (values .refreshCron)) = true ∨
      isTrue (values .refreshAfterConsolidation) = false := by
  unfold checkCron at h
  split at h
  · exact .inl ‹_›
  · split at h
    · cases h
    · obtain ⟨_, -, h⟩ := bind_ok h
      obtain ⟨_, -, h⟩ := bind_ok h
      exact .inr (by simpa using require_ok h)

theorem checkPolicy_holds (h : checkPolicy croniterIsValid values = .ok u) :
    PolicyHolds values := by
  obtain ⟨_, -, h⟩ := bind_ok h
  obtain ⟨_, -, h⟩ := bind_ok h
  obtain ⟨_, hcron, h⟩ := bind_ok h
  exact ⟨checkCron_exclusive hcron, List.all_eq_true.mp (require_ok h)⟩

/-- No checked value is null but the cron expression. -/
theorem checkPolicy_present (h : checkPolicy croniterIsValid values = .ok u) {key : PolicyKey}
    (hkey : key ≠ .refreshCron) : isNone (some (values key)) = false := by
  obtain ⟨_, htexts, h⟩ := bind_ok h
  obtain ⟨_, hbool, h⟩ := bind_ok h
  obtain ⟨_, -, hbounds⟩ := bind_ok h
  have htext : ∀ value texts, isOneOf value texts = true → isNone (some value) = false := by
    rintro ⟨value, _⟩ texts hvalue
    cases value <;> first | rfl | cases hvalue
  have hrange : ∀ value minimum maximum, inRange value minimum maximum = true →
      isNone (some value) = false := by
    rintro ⟨value, _⟩ minimum maximum hvalue
    cases value <;> first | rfl | cases hvalue
  have hflag : ∀ value, isBool value = true → isNone (some value) = false := by
    rintro ⟨value, _⟩ hvalue
    cases value <;> first | rfl | cases hvalue
  obtain ⟨hmode, hbudget⟩ := Bool.and_eq_true_iff.mp (require_ok htexts)
  have hbound := List.all_eq_true.mp (require_ok hbounds)
  cases key with
  | mode => exact htext _ _ hmode
  | budget => exact htext _ _ hbudget
  | refreshAfterConsolidation => exact hflag _ (require_ok hbool)
  | refreshCron => exact absurd rfl hkey
  | minRefreshIntervalSeconds =>
    exact hrange _ _ _ (hbound (.minRefreshIntervalSeconds, 0, 31536000) (by simp [POLICY_BOUNDS]))
  | maxTokens => exact hrange _ _ _ (hbound (.maxTokens, 256, 8192) (by simp [POLICY_BOUNDS]))
  | recallMaxTokens =>
    exact hrange _ _ _ (hbound (.recallMaxTokens, 1, 16384) (by simp [POLICY_BOUNDS]))
  | observationsMaxTokens =>
    exact hrange _ _ _ (hbound (.observationsMaxTokens, 1, 16384) (by simp [POLICY_BOUNDS]))

end Checks

theorem get?_fieldsBy_eq_some {label : PolicyKey → Text} (hlabel : Function.Injective label)
    {values : PolicyKey → Option JsonValue} {k : Text} {value : JsonValue} :
    (fieldsBy label hlabel values).get? k = some value ↔
      ∃ key, label key = k ∧ values key = some value := by
  rw [← Dict.mem_entries, fieldsBy, List.mem_filterMap]
  constructor
  · rintro ⟨key, -, hkey⟩
    obtain ⟨v, hv, hpair⟩ := Option.map_eq_some_iff.mp hkey
    obtain ⟨rfl, rfl⟩ := Prod.mk.inj hpair
    exact ⟨key, rfl, hv⟩
  · rintro ⟨key, rfl, hvalue⟩
    exact ⟨key, key.mem_all, by rw [hvalue, Option.map_some]⟩

theorem get?_fieldsBy {label : PolicyKey → Text} (hlabel : Function.Injective label)
    (values : PolicyKey → Option JsonValue) (key : PolicyKey) :
    (fieldsBy label hlabel values).get? (label key) = values key := by
  apply Option.ext
  intro value
  rw [get?_fieldsBy_eq_some]
  constructor
  · rintro ⟨key', hkey, hvalue⟩
    rwa [hlabel hkey] at hvalue
  · exact fun hvalue => ⟨key, rfl, hvalue⟩

/-- The policy of a stored definition: what is absent stands for its default. -/
def storedPolicy (model trigger : Payload) : SummaryPolicy := fun key =>
  (if key = .maxTokens then present (model.get? "max_tokens") else trigger.get? key.wire).getD
    (SummaryPolicy.default key)

theorem changedPolicy_policyFields (model trigger : Payload) :
    changedPolicy (policyFields model trigger) .default = storedPolicy model trigger := by
  funext key
  rw [changedPolicy, policyFields, get?_fieldsBy, storedPolicy]

theorem parsePolicy_ok {croniterIsValid : Text → Bool} {value : JsonValue}
    {base values : SummaryPolicy} (h : parsePolicy croniterIsValid value base = .ok values) :
    ∃ changes, mapping value = some changes ∧ values = changedPolicy changes base ∧
      checkPolicy croniterIsValid values = .ok () := by
  unfold parsePolicy at h
  cases hchanges : mapping value with
  | none =>
    rw [hchanges] at h
    cases h
  | some changes =>
    rw [hchanges] at h
    obtain ⟨_, -, h⟩ := bind_ok h
    obtain ⟨_, hcheck, h⟩ := bind_ok h
    obtain rfl := Except.ok.inj h
    exact ⟨changes, rfl, rfl, hcheck⟩

/-- Only policy fields are parsed of a definition. -/
theorem parsePolicy_policyFields (croniterIsValid : Text → Bool) (model trigger : Payload)
    (h : checkPolicy croniterIsValid (storedPolicy model trigger) = .ok ()) :
    parsePolicy croniterIsValid (object (policyFields model trigger)) .default =
      .ok (storedPolicy model trigger) := by
  have hnames : (policyFields model trigger).entries.all
      (fun e => (PolicyKey.all.map PolicyKey.name).contains e.1) = true := by
    rw [List.all_eq_true]
    rintro ⟨k, value⟩ he
    obtain ⟨key, rfl, -⟩ := (get?_fieldsBy_eq_some PolicyKey.name_injective).mp (Dict.mem_entries.mp he)
    exact List.contains_iff_mem.mpr (List.mem_map_of_mem key.mem_all)
  rw [parsePolicy, mapping_object]
  dsimp only
  rw [hnames, changedPolicy_policyFields, h]
  rfl

/-- What `validate_fixed_policy` accepts. -/
theorem validateFixedPolicy_eq_ok {croniterIsValid : Text → Bool} {floats : FloatEquality}
    {model : Payload} :
    validateFixedPolicy croniterIsValid floats model = .ok () ↔
      ∃ trigger, (model.get? "trigger").bind mapping = some trigger ∧
        model.get? "tags" = some (.arr []) ∧
        (∀ field ∈ fixedFields,
          pyEq floats (getOrNull trigger field.1).val field.2.val = true) ∧
        checkPolicy croniterIsValid (storedPolicy model trigger) = .ok () := by
  have htags : pyEq floats (getOrNull model "tags").val (.arr []) = true ↔
      model.get? "tags" = some (.arr []) := by
    rw [pyEq_empty, getOrNull]
    cases model.get? "tags" with
    | none => exact ⟨nofun, nofun⟩
    | some value => exact ⟨fun h => congrArg some (Subtype.ext h), fun h => by cases h; rfl⟩
  unfold validateFixedPolicy
  cases (model.get? "trigger").bind mapping with
  | none => exact ⟨nofun, fun ⟨_, h, _⟩ => by cases h⟩
  | some trigger =>
    constructor
    · intro h
      obtain ⟨_, hempty, h⟩ := bind_ok h
      obtain ⟨_, hfixed, h⟩ := bind_ok h
      obtain ⟨values, hparse, -⟩ := bind_ok h
      obtain ⟨changes, hchanges, hvalues, hcheck⟩ := parsePolicy_ok hparse
      rw [mapping_object] at hchanges
      obtain rfl := Option.some.inj hchanges
      rw [hvalues, changedPolicy_policyFields] at hcheck
      exact ⟨trigger, rfl, htags.mp (require_ok hempty), List.all_eq_true.mp (require_ok hfixed),
        hcheck⟩
    · rintro ⟨found, hfound, hempty, hfixed, hcheck⟩
      obtain rfl := Option.some.inj hfound
      dsimp only
      rw [htags.mpr hempty, List.all_eq_true.mpr hfixed, parsePolicy_policyFields _ _ _ hcheck]
      rfl

/-! ## The definition after an edit -/

theorem get?_requestBody (lib : Stdlib) (args : EditArgs) (trigger : Payload)
    (maxTokens : Option JsonValue) :
    (requestBody lib args trigger maxTokens).get? "name" =
        args.name.map (fun t => .str (redactSensitiveText lib t)) ∧
      (requestBody lib args trigger maxTokens).get? "source_query" =
        args.sourceQuery.map (fun t => .str (redactSensitiveText lib t)) ∧
      (requestBody lib args trigger maxTokens).get? "trigger" =
        (if trigger.isEmpty then none else some (object trigger)) ∧
      (requestBody lib args trigger maxTokens).get? "max_tokens" = maxTokens ∧
      (requestBody lib args trigger maxTokens).get? "tags" = none := by
  dsimp only [requestBody, Dict.get?]
  cases args.name <;> cases args.sourceQuery <;> cases maxTokens <;> cases trigger.isEmpty
  all_goals exact ⟨rfl, rfl, rfl, rfl, rfl⟩

section Merge
variable {lib : Stdlib} {args : EditArgs} {before current changes : Payload}

/-- The request of a change. -/
abbrev changeRequest (lib : Stdlib) (args : EditArgs) (changes : Payload) : Payload :=
  requestBody lib args (triggerChanges changes) (changes.get? "max_tokens")

/-- The trigger that is expected, field by field. -/
theorem get?_expectedTrigger (hcurrent : (before.get? "trigger").bind mapping = some current)
    (k : Text) :
    (expectedTrigger before (changeRequest lib args changes)).get? k =
      ((triggerChanges changes).get? k).or (current.get? k) := by
  obtain ⟨-, -, htrigger, -, -⟩ := get?_requestBody lib args (triggerChanges changes)
    (changes.get? "max_tokens")
  rw [expectedTrigger, hcurrent, htrigger, Dict.get?_update]
  split
  · rename_i hempty
    rw [Dict.isEmpty_iff.mp hempty k]
    rfl
  · rw [Option.bind_some, mapping_object]
    rfl

theorem mapping_mergeDefinition (hcurrent : (before.get? "trigger").bind mapping = some current) :
    ((mergeDefinition before (changeRequest lib args changes)).get? "trigger").bind mapping =
      some (expectedTrigger before (changeRequest lib args changes)) := by
  obtain ⟨-, -, htrigger, -, -⟩ := get?_requestBody lib args (triggerChanges changes)
    (changes.get? "max_tokens")
  rw [mergeDefinition, Dict.get?_update]
  by_cases hempty : (triggerChanges changes).isEmpty
  · rw [if_pos hempty] at htrigger
    rw [htrigger, if_neg (by simp), htrigger, Option.none_or, hcurrent]
    congr 1
    rw [expectedTrigger, hcurrent, htrigger]
    rfl
  · rw [if_neg hempty] at htrigger
    rw [htrigger, if_pos Option.isSome_some, Dict.get?_set, if_pos rfl, Option.some_or,
      Option.bind_some, mapping_object]

/-- The fields beside the trigger. -/
theorem get?_mergeDefinition {k : Text} (hk : k ≠ "trigger") :
    (mergeDefinition before (changeRequest lib args changes)).get? k =
      ((changeRequest lib args changes).get? k).or (before.get? k) := by
  rw [mergeDefinition, Dict.get?_update]
  split
  · rw [Dict.get?_set, if_neg hk]
  · rfl

/-- The policy after the change is the one that was checked. -/
theorem storedPolicy_mergeDefinition {croniterIsValid : Text → Bool}
    (hcurrent : (before.get? "trigger").bind mapping = some current)
    (hbefore : checkPolicy croniterIsValid (storedPolicy before current) = .ok ())
    (hchanged : checkPolicy croniterIsValid
      (changedPolicy changes (currentPolicy before current)) = .ok ()) :
    storedPolicy (mergeDefinition before (changeRequest lib args changes))
        (expectedTrigger before (changeRequest lib args changes)) =
      changedPolicy changes (currentPolicy before current) := by
  have hpresent : ∀ value : JsonValue, isNone (some value) = false →
      present (some value) = some value := by
    intro value h
    rw [present, h]
    rfl
  obtain ⟨-, -, -, hmax, -⟩ := get?_requestBody lib args (triggerChanges changes)
    (changes.get? "max_tokens")
  funext key
  by_cases hkey : key = .maxTokens
  · subst hkey
    have hchange := @checkPolicy_present croniterIsValid _ () hchanged .maxTokens (by decide)
    rw [changedPolicy] at hchange
    rw [storedPolicy, if_pos rfl, changedPolicy, currentPolicy, if_pos rfl,
      get?_mergeDefinition (by decide), hmax]
    show (present ((changes.get? PolicyKey.maxTokens.name).or _)).getD _ = _
    cases hvalue : changes.get? PolicyKey.maxTokens.name with
    | none => rfl
    | some value =>
      rw [hvalue] at hchange
      rw [Option.some_or, hpresent value hchange]
      rfl
  · rw [storedPolicy, if_neg hkey, changedPolicy, currentPolicy, if_neg hkey,
      get?_expectedTrigger hcurrent, triggerChanges, get?_fieldsBy, if_neg hkey]
    cases hvalue : changes.get? key.name with
    | some value => rfl
    | none =>
      rw [Option.none_or, Option.getD_none]
      cases hstored : current.get? key.wire with
      | none => rfl
      | some value =>
        -- a null that is stored is that of the cron expression, which is the default
        by_cases hcron : key = .refreshCron
        · subst hcron
          obtain ⟨value, hvalid⟩ := value
          cases value <;> rfl
        · have hchecked := checkPolicy_present hbefore hcron
          rw [storedPolicy, if_neg hkey, hstored, Option.getD_some] at hchecked
          rw [hpresent value hchecked]

/-- The check of a request, and the request. -/
theorem patchBody_ok {croniterIsValid : Text → Bool} {floats : FloatEquality} {body : Payload}
    (h : patchBody lib croniterIsValid floats args before = .ok body) :
    ∃ current changes, (before.get? "trigger").bind mapping = some current ∧
      mapping (args.policy.getD (object .empty)) = some changes ∧
      body = changeRequest lib args changes ∧ before.get? "tags" = some (.arr []) ∧
      (∀ field ∈ fixedFields,
        pyEq floats (getOrNull current field.1).val field.2.val = true) ∧
      checkPolicy croniterIsValid (storedPolicy before current) = .ok () ∧
      checkPolicy croniterIsValid (changedPolicy changes (currentPolicy before current)) = .ok () := by
  obtain ⟨_, hvalid, h⟩ := bind_ok h
  obtain ⟨current, hcurrent, htags, hfixed, hstored⟩ := validateFixedPolicy_eq_ok.mp hvalid
  rw [hcurrent] at h
  obtain ⟨values, hparse, h⟩ := bind_ok h
  obtain ⟨changes, hchanges, rfl, hcheck⟩ := parsePolicy_ok hparse
  rw [hchanges] at h
  exact ⟨current, changes, hcurrent, hchanges, (Except.ok.inj h).symm, htags, hfixed, hstored, hcheck⟩

/-- No change reaches a field that an edit may not change. -/
theorem get?_triggerChanges_of_not_editable {k : Text} (hk : k ∉ EDITABLE) :
    (triggerChanges changes).get? k = none := by
  rw [Option.eq_none_iff_forall_not_mem]
  intro value hvalue
  obtain ⟨key, rfl, hkey⟩ := (get?_fieldsBy_eq_some PolicyKey.wire_injective).mp hvalue
  split at hkey
  · cases hkey
  · rename_i hmax
    exact hk (by cases key <;> first | decide | exact absurd rfl hmax)

end Merge

/-! ## Edits keep the policy -/

/-- The earlier definition with exactly the requested fields replaced. -/
structure Edited (lib : Stdlib) (args : EditArgs) (before after : Payload) : Prop where
  name : after.get? "name" =
    (args.name.map fun t => .str (redactSensitiveText lib t)).or (before.get? "name")
  sourceQuery : after.get? "source_query" =
    (args.sourceQuery.map fun t => .str (redactSensitiveText lib t)).or (before.get? "source_query")
  tags : after.get? "tags" = before.get? "tags"
  policy : ∃ changes current trigger, mapping (args.policy.getD (object .empty)) = some changes ∧
    (before.get? "trigger").bind mapping = some current ∧
    (after.get? "trigger").bind mapping = some trigger ∧
    after.get? "max_tokens" = (changes.get? "max_tokens").or (before.get? "max_tokens") ∧
    (∀ key : PolicyKey, key ≠ .maxTokens →
      trigger.get? key.wire = (changes.get? key.name).or (current.get? key.wire)) ∧
    ∀ k ∉ EDITABLE, trigger.get? k = current.get? k

/-- What `validate_fixed_policy` stands for: no tags, and the promises of the policy. -/
structure FixedPolicy (model : Payload) : Prop where
  noTags : model.get? "tags" = some (.arr [])
  policy : ∃ trigger, (model.get? "trigger").bind mapping = some trigger ∧
    PolicyHolds (storedPolicy model trigger)

/-- The fields of a definition are equal. -/
def SameDefinition (floats : FloatEquality) (a b : Payload) : Prop :=
  (∃ trigger trigger', (a.get? "trigger").bind mapping = some trigger ∧
    (b.get? "trigger").bind mapping = some trigger' ∧
    pyEq floats (object trigger).val (object trigger').val = true) ∧
  ∀ field ∈ ["tags".toList, "name".toList, "source_query".toList, "max_tokens".toList],
    pyEq floats (getOrNull a field).val (getOrNull b field).val = true

theorem edited_mergeDefinition {lib : Stdlib} {croniterIsValid : Text → Bool}
    {floats : FloatEquality} {args : EditArgs} {before body : Payload}
    (h : patchBody lib croniterIsValid floats args before = .ok body) :
    Edited lib args before (mergeDefinition before body) := by
  obtain ⟨current, changes, hcurrent, hchanges, rfl, -, -, -, -⟩ := patchBody_ok h
  obtain ⟨hname, hquery, -, hmax, htags⟩ := get?_requestBody lib args (triggerChanges changes)
    (changes.get? "max_tokens")
  refine ⟨?_, ?_, ?_, changes, current, _, hchanges, hcurrent, mapping_mergeDefinition hcurrent, ?_,
    fun key hkey => ?_, fun k hk => ?_⟩
  · rw [get?_mergeDefinition (by decide), hname]
  · rw [get?_mergeDefinition (by decide), hquery]
  · rw [get?_mergeDefinition (by decide), htags, Option.none_or]
  · rw [get?_mergeDefinition (by decide), hmax]
  · rw [get?_expectedTrigger hcurrent, triggerChanges, get?_fieldsBy, if_neg hkey]
  · rw [get?_expectedTrigger hcurrent, get?_triggerChanges_of_not_editable hk, Option.none_or]

/-- The definition after an edit passes the check again. -/
theorem validate_mergeDefinition {lib : Stdlib} {croniterIsValid : Text → Bool}
    {floats : FloatEquality} {args : EditArgs} {before body : Payload}
    (h : patchBody lib croniterIsValid floats args before = .ok body) :
    validateFixedPolicy croniterIsValid floats (mergeDefinition before body) = .ok () := by
  have hedited := edited_mergeDefinition h
  obtain ⟨current, changes, hcurrent, -, rfl, htags, hfixed, hstored, hchecked⟩ := patchBody_ok h
  have hpolicy := @storedPolicy_mergeDefinition lib args before current changes croniterIsValid
    hcurrent hstored hchecked
  refine validateFixedPolicy_eq_ok.mpr ⟨_, mapping_mergeDefinition hcurrent,
    hedited.tags.trans htags, fun field hfield => ?_, ?_⟩
  · have hk : field.1 ∉ EDITABLE := by
      have hkept := (List.mem_filter.mp hfield).2
      simpa using hkept
    rw [getOrNull, get?_expectedTrigger hcurrent, get?_triggerChanges_of_not_editable hk,
      Option.none_or]
    exact hfixed field hfield
  · rw [hpolicy]
    exact hchecked

theorem fixedPolicy_of_validate {croniterIsValid : Text → Bool} {floats : FloatEquality}
    {model : Payload} (h : validateFixedPolicy croniterIsValid floats model = .ok ()) :
    FixedPolicy model := by
  obtain ⟨trigger, htrigger, htags, -, hchecked⟩ := validateFixedPolicy_eq_ok.mp h
  exact ⟨htags, trigger, htrigger, checkPolicy_holds hchecked⟩

/-- A verified readback is the merged definition. -/
theorem sameDefinition_of_verify {lib : Stdlib} {croniterIsValid : Text → Bool}
    {floats : FloatEquality} {args : EditArgs} {before body after : Payload} {u : Unit}
    (hbody : patchBody lib croniterIsValid floats args before = .ok body)
    (h : verifyReadback floats before body after = .ok u) :
    SameDefinition floats after (mergeDefinition before body) := by
  obtain ⟨current, changes, hcurrent, -, rfl, -, -, -, -⟩ := patchBody_ok hbody
  have htags := (edited_mergeDefinition hbody).tags
  unfold verifyReadback at h
  cases htrigger : (after.get? "trigger").bind mapping with
  | none =>
    rw [htrigger] at h
    cases h
  | some trigger =>
    rw [htrigger] at h
    obtain ⟨_, hpolicy, h⟩ := bind_ok h
    obtain ⟨hsame, htagged⟩ := Bool.and_eq_true_iff.mp (require_ok hpolicy)
    have hfields := List.all_eq_true.mp (require_ok h)
    refine ⟨⟨trigger, _, htrigger, mapping_mergeDefinition hcurrent, hsame⟩, fun field hfield => ?_⟩
    obtain rfl | hfield := List.mem_cons.mp hfield
    · rw [getOrNull, getOrNull, htags]
      exact htagged
    · have hne : field ≠ "trigger" := by
        rintro rfl
        revert hfield
        decide
      have hequal := hfields field hfield
      rw [getOrNull, getOrNull, get?_mergeDefinition hne]
      rw [getOrNull, getOrNull] at hequal
      revert hequal
      cases (changeRequest lib args changes).get? field with
      | none => exact id
      | some value => exact id

/-- An edit that is sent leaves a definition that passes the check again, with no tags, its fixed
fields as they were, one trigger at most and everything in range; and an edit is reported as verified
only if the definition read back is the earlier one with the requested fields replaced. -/
theorem edit_definition (lib : Stdlib) (croniterIsValid : Text → Bool) (floats : FloatEquality)
    (args : EditArgs) (before : Payload) :
    (∀ body, patchBody lib croniterIsValid floats args before = .ok body →
        validateFixedPolicy croniterIsValid floats (mergeDefinition before body) = .ok () ∧
          FixedPolicy (mergeDefinition before body) ∧
          Edited lib args before (mergeDefinition before body)) ∧
      ∀ patch readback after,
        editDefinition lib croniterIsValid floats args before patch readback =
            .ok (.verified after) →
          ∃ expected, Edited lib args before expected ∧ SameDefinition floats after expected := by
  refine ⟨fun body h => ?_, fun patch readback after h => ?_⟩
  · have hvalid := validate_mergeDefinition h
    exact ⟨hvalid, fixedPolicy_of_validate hvalid, edited_mergeDefinition h⟩
  · obtain ⟨body, hbody, h⟩ := bind_ok h
    refine ⟨mergeDefinition before body, edited_mergeDefinition hbody, ?_⟩
    cases hpatch : patch body with
    | raised =>
      rw [hpatch] at h
      cases h
    | clientError status =>
      rw [hpatch] at h
      dsimp only at h
      split at h
      · cases h
      · cases h
    | accepted =>
      rw [hpatch] at h
      cases hread : readback body with
      | none =>
        simp only [hread] at h
        cases h
      | some found =>
        simp only [hread] at h
        obtain ⟨u, hverify, h⟩ := bind_ok h
        obtain rfl := EditResult.verified.inj (Except.ok.inj h)
        exact sameDefinition_of_verify hbody hverify

/-- A definition with the default policy. -/
def plainModel : Payload where
  entries := [("id".toList, .str "mm-1"), ("name".toList, .str "Weekly"), ("tags".toList, .arr []),
    ("max_tokens".toList, .int 1024),
    ("trigger".toList, object ⟨SummaryPolicy.default.trigger, SummaryPolicy.default.nodup_trigger⟩)]
  nodup := by decide

/-- Every Monday at eight, and no longer after a consolidation. -/
def weeklyArgs : EditArgs where
  id := "mm-1"
  name := none
  sourceQuery := none
  policy := some (object ⟨[("refresh_cron".toList, .str "0 8 * * 1"),
    ("refresh_after_consolidation".toList, .bool false)], by decide⟩)

theorem edit_definition_weekly :
    ∃ body, patchBody (.ofTables [] []) (fun cron => cron == "0 8 * * 1".toList)
        ⟨fun _ _ => false, fun _ _ => false⟩ weeklyArgs plainModel = .ok body ∧
      FixedPolicy (mergeDefinition plainModel body) := by
  have hsent : (patchBody (.ofTables [] []) (fun cron => cron == "0 8 * * 1".toList)
      ⟨fun _ _ => false, fun _ _ => false⟩ weeklyArgs plainModel).isOk = true := by decide +kernel
  cases hbody : patchBody (.ofTables [] []) (fun cron => cron == "0 8 * * 1".toList)
      ⟨fun _ _ => false, fun _ _ => false⟩ weeklyArgs plainModel with
  | error e =>
    rw [hbody] at hsent
    cases hsent
  | ok body =>
    exact ⟨body, rfl, ((edit_definition (.ofTables [] []) _ _ weeklyArgs plainModel).1 body hbody).2.1⟩

end BetterHindsight.MentalModels
