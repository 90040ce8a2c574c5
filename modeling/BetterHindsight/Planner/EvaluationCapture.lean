import BetterHindsight.Foundations.Fields
import BetterHindsight.Redaction.Marks

/-! # Private evaluation capture

`evaluation.py`: what a planner stage leaves as evidence. Configured credentials are replaced
literally, the longer one first, the credential patterns after them, at any depth of the payload;
the record is encoded as JSON and queued when it is small enough.

* `clean`, `stage`: the cleaned payload and the queued record.
* `StageValue.strings`: the string values at any depth.
* `clean_hides`: no string value of a cleaned payload contains a credential that the marker cannot
  spell; `stage_hides` is the same for what is queued. -/

namespace BetterHindsight
set_option autoImplicit false

/-- A value of type `None`, `bool`, `int` or `float`. -/
inductive StageScalar where
  | null
  | bool (b : Bool)
  | int (n : ℤ)
  | float (x : FloatText)
  /-- a float that is not finite -/
  | nonfinite

/-- A value of an evaluation payload. The keys of a mapping are given as `str` writes them. -/
inductive StageValue where
  | str (t : Text)
  | mapping (items : List (Text × StageValue))
  | list (items : List StageValue)
  | tuple (items : List StageValue)
  | scalar (value : StageScalar)
  /-- any other object -/
  | other

/-- The dictionary of these items: a later item with the same key replaces the value. -/
def collectFields (items : List (Text × StageValue)) : List (Text × StageValue) :=
  items.foldl (fun fields item => Json.setKey fields item.1 item.2) []

/-! ## Cleaning -/

/-- Every secret that is not empty replaced by the marker, in this order. -/
def maskSecrets (secrets : List Text) (value : Text) : Text :=
  secrets.foldl (fun value secret =>
    if secret = [] then value else replace secret REDACTION_MARKER value) value

/-- `_clean` of a string -/
def cleanText (lib : Stdlib) (secrets : List Text) (value : Text) : Text :=
  redactSensitiveText lib (maskSecrets secrets value)

mutual

/-- `_clean` -/
def clean (lib : Stdlib) (secrets : List Text) : StageValue → StageValue
  | .str value => .str (cleanText lib secrets value)
  | .mapping items => .mapping (collectFields (cleanItems lib secrets items))
  | .list items => .list (cleanList lib secrets items)
  | .tuple items => .list (cleanList lib secrets items)
  | .scalar value => .scalar value
  | .other => .scalar .null

def cleanList (lib : Stdlib) (secrets : List Text) : List StageValue → List StageValue
  | [] => []
  | item :: items => clean lib secrets item :: cleanList lib secrets items

def cleanItems (lib : Stdlib) (secrets : List Text) :
    List (Text × StageValue) → List (Text × StageValue)
  | [] => []
  | (key, item) :: items => (key, clean lib secrets item) :: cleanItems lib secrets items

end

/-! ## Encoding -/

mutual

/-- What `json.dumps` with `allow_nan=False` encodes; `none` stands for `ValueError`. -/
def StageValue.toJson : StageValue → Option Json
  | .str value => some (.str value)
  | .mapping items => (itemsToJson items).map .obj
  | .list items => (listToJson items).map .arr
  | .tuple items => (listToJson items).map .arr
  | .scalar .null => some .null
  | .scalar (.bool b) => some (.bool b)
  | .scalar (.int n) => some (.int n)
  | .scalar (.float x) => some (.float x)
  | .scalar .nonfinite => none
  | .other => none

def listToJson : List StageValue → Option (List Json)
  | [] => some []
  | item :: items => do return (← item.toJson) :: (← listToJson items)

def itemsToJson : List (Text × StageValue) → Option (List (Text × Json))
  | [] => some []
  | (key, item) :: items => do return (key, ← item.toJson) :: (← itemsToJson items)

end

/-! ## Stages -/

/-- The part of the configuration that a capture reads. -/
structure EvaluationConfig where
  enabled : Bool
  maxRecordBytes : ℤ
  apiKey : Option Text

/-- The credentials, the longer one first; `environ` is the value of `OPENROUTER_API_KEY`. -/
def stageSecrets (config : EvaluationConfig) (environ : Option Text) : List Text :=
  let apiKey := config.apiKey.getD []
  let openrouter := strip (environ.getD [])
  if apiKey.length < openrouter.length then [openrouter, apiKey] else [apiKey, openrouter]

/-- The record of a stage, before it is cleaned; `fields` may replace its first entries. -/
def stagePayload (correlationId stage : Text) (recordedAt : FloatText)
    (fields : List (Text × StageValue)) : StageValue :=
  .mapping (collectFields (("schema", .scalar (.int 1)) :: ("correlation_id", .str correlationId) ::
    ("stage", .str stage) :: ("recorded_at", .scalar (.float recordedAt)) :: fields))

/-- `EvaluationCapture.stage`: the encoded record that is queued. -/
def stage (lib : Stdlib) (config : EvaluationConfig) (environ : Option Text)
    (correlationId stageName : Text) (recordedAt : FloatText) (fields : List (Text × StageValue)) :
    Option Text :=
  if config.enabled = false then none
  else if isHex 32 correlationId = false then none
  else
    let payload := clean lib (stageSecrets config environ)
      (stagePayload correlationId stageName recordedAt fields)
    match payload.toJson with
    | none => none
    | some json =>
      let encoded := json.dumps Json.quoteAscii
      if encoded.length > config.maxRecordBytes then none else some encoded

/-! ## The strings of a payload -/

mutual

/-- The string values at any depth. -/
def StageValue.strings : StageValue → List Text
  | .str value => [value]
  | .mapping items => stringsOfItems items
  | .list items => stringsOfList items
  | .tuple items => stringsOfList items
  | .scalar _ => []
  | .other => []

def stringsOfList : List StageValue → List Text
  | [] => []
  | item :: items => item.strings ++ stringsOfList items

def stringsOfItems : List (Text × StageValue) → List Text
  | [] => []
  | (_, item) :: items => item.strings ++ stringsOfItems items

end

theorem mem_stringsOfItems {t : Text} {items : List (Text × StageValue)} :
    t ∈ stringsOfItems items ↔ ∃ item ∈ items, t ∈ item.2.strings := by
  induction items with
  | nil => simp [stringsOfItems]
  | cons item items ih =>
    rw [stringsOfItems, List.mem_append, ih, List.exists_mem_cons_iff]

theorem mem_foldl_setKey {f : Text × StageValue} {items fields : List (Text × StageValue)}
    (h : f ∈ items.foldl (fun fields item => Json.setKey fields item.1 item.2) fields) :
    f ∈ fields ∨ f ∈ items := by
  induction items generalizing fields with
  | nil => exact .inl h
  | cons item items ih =>
    rcases ih h with h | h
    · rcases Json.mem_setKey h with h | rfl
      · exact .inl h
      · exact .inr List.mem_cons_self
    · exact .inr (List.mem_cons_of_mem item h)

/-- A dictionary has no values that its items do not have. -/
theorem mem_collectFields {items : List (Text × StageValue)} {f : Text × StageValue}
    (h : f ∈ collectFields items) : f ∈ items := by
  rcases mem_foldl_setKey h with h | h
  · cases h
  · exact h

section Clean
variable (lib : Stdlib) (secrets : List Text)

mutual

/-- Every string value of a cleaned payload is a cleaned text. -/
theorem strings_clean : ∀ (value : StageValue), ∀ t ∈ (clean lib secrets value).strings,
    ∃ raw, t = cleanText lib secrets raw
  | .str value, t, h => by
      rw [clean, StageValue.strings, List.mem_singleton] at h
      exact ⟨value, h⟩
  | .mapping items, t, h => by
      rw [clean, StageValue.strings, mem_stringsOfItems] at h
      obtain ⟨f, hf, ht⟩ := h
      exact strings_cleanItems items f (mem_collectFields hf) t ht
  | .list items, t, h => by
      rw [clean, StageValue.strings] at h
      exact strings_cleanList items t h
  | .tuple items, t, h => by
      rw [clean, StageValue.strings] at h
      exact strings_cleanList items t h
  | .scalar value, t, h => by
      rw [clean, StageValue.strings] at h
      cases h
  | .other, t, h => by
      rw [clean, StageValue.strings] at h
      cases h

theorem strings_cleanList : ∀ (items : List StageValue),
    ∀ t ∈ stringsOfList (cleanList lib secrets items), ∃ raw, t = cleanText lib secrets raw
  | [], t, h => by
      rw [cleanList, stringsOfList] at h
      cases h
  | item :: items, t, h => by
      rw [cleanList, stringsOfList] at h
      rcases List.mem_append.mp h with h | h
      · exact strings_clean item t h
      · exact strings_cleanList items t h

theorem strings_cleanItems : ∀ (items : List (Text × StageValue)),
    ∀ f ∈ cleanItems lib secrets items, ∀ t ∈ f.2.strings, ∃ raw, t = cleanText lib secrets raw
  | [], f, hf, t, h => by
      rw [cleanItems] at hf
      cases hf
  | (key, item) :: items, f, hf, t, h => by
      rw [cleanItems] at hf
      rcases List.mem_cons.mp hf with rfl | hf
      · exact strings_clean item t h
      · exact strings_cleanItems items f hf t h

end

end Clean

/-! ## Credentials -/

/-- A credential that a marker does not spell: without a square bracket and not a part of the
marker's word. -/
structure Maskable (secret : Text) : Prop where
  opening : '[' ∉ secret
  closing : ']' ∉ secret
  word : ¬ secret <:+: markerWord

theorem Maskable.ne_nil {secret : Text} (h : Maskable secret) : secret ≠ [] := by
  rintro rfl
  exact h.word List.nil_infix

/-- Replacing another secret does not bring a credential about. -/
theorem Maskable.mask_keeps {secret other : Text} (h : Maskable secret) {t : Text}
    (ht : ¬ secret <:+: t) :
    ¬ secret <:+: if other = [] then t else replace other REDACTION_MARKER t := by
  split
  · exact ht
  · rename_i hne
    intro hsub
    rw [REDACTION_MARKER_eq] at hsub
    rcases infix_replace hne h.opening h.closing hsub with hsub | hsub
    · exact ht hsub
    · exact h.word hsub

theorem Maskable.masked_keeps {secret : Text} (h : Maskable secret) (secrets : List Text)
    {t : Text} (ht : ¬ secret <:+: t) : ¬ secret <:+: maskSecrets secrets t := by
  induction secrets generalizing t with
  | nil => exact ht
  | cons other secrets ih => exact ih (h.mask_keeps ht)

/-- The secret is gone once its turn has come. -/
theorem Maskable.masked {secret : Text} (h : Maskable secret) {secrets : List Text}
    (hmem : secret ∈ secrets) (t : Text) : ¬ secret <:+: maskSecrets secrets t := by
  induction secrets generalizing t with
  | nil => cases hmem
  | cons other secrets ih =>
    rcases List.mem_cons.mp hmem with rfl | hmem
    · have hgone : ¬ secret <:+: replace secret REDACTION_MARKER t := by
        rw [REDACTION_MARKER_eq]
        exact not_infix_replace h.opening h.closing h.word t
      apply h.masked_keeps secrets
      dsimp only
      rwa [if_neg h.ne_nil]
    · exact ih hmem _

theorem Maskable.cleaned {lib : Stdlib} {secret : Text} (h : Maskable secret) {secrets : List Text}
    (hmem : secret ∈ secrets) (t : Text) : ¬ secret <:+: cleanText lib secrets t := by
  intro hsub
  rcases infix_redact h.opening h.closing hsub with hsub | hsub
  · exact h.masked hmem t hsub
  · exact h.word hsub

/-- The API key of the configuration, or the stripped value of the environment variable. -/
def Configured (config : EvaluationConfig) (environ : Option Text) (secret : Text) : Prop :=
  config.apiKey = some secret ∨ ∃ value, environ = some value ∧ strip value = secret

theorem mem_stageSecrets {config : EvaluationConfig} {environ : Option Text} {secret : Text}
    (h : Configured config environ secret) : secret ∈ stageSecrets config environ := by
  unfold stageSecrets
  dsimp only
  rcases h with h | ⟨value, rfl, rfl⟩
  · rw [h]
    split <;> simp
  · split <;> simp

/-- No string value of a cleaned payload contains a configured credential that the marker does not
spell, whatever the other credential is. -/
theorem clean_hides (lib : Stdlib) (config : EvaluationConfig) (environ : Option Text)
    (value : StageValue) {secret : Text} (hsecret : Configured config environ secret)
    (hmask : Maskable secret) :
    ∀ t ∈ (clean lib (stageSecrets config environ) value).strings, ¬ secret <:+: t := by
  intro t ht
  obtain ⟨raw, hraw⟩ := strings_clean lib (stageSecrets config environ) value t ht
  rw [hraw]
  exact hmask.cleaned (mem_stageSecrets hsecret) raw

/-- A credential inside of a list, next to a copy of its end. -/
theorem clean_hides_list :
    Configured ⟨true, 524288, some "key-key"⟩ (some " y-key ") "key-key" ∧ Maskable "key-key" ∧
      ∀ t ∈ (clean (Stdlib.ofTables [] []) (stageSecrets ⟨true, 524288, some "key-key"⟩
        (some " y-key ")) (.list [.tuple [.str "key-key-key"]])).strings,
        ¬ "key-key".toList <:+: t :=
  have hsecret : Configured ⟨true, 524288, some "key-key"⟩ (some " y-key ") "key-key" := .inl rfl
  have hmask : Maskable "key-key" := ⟨by decide, by decide, by decide⟩
  ⟨hsecret, hmask, clean_hides (Stdlib.ofTables [] []) ⟨true, 524288, some "key-key"⟩
    (some " y-key ") (.list [.tuple [.str "key-key-key"]]) hsecret hmask⟩

/-- What a stage queues encodes a payload without such a credential. -/
theorem stage_hides {lib : Stdlib} {config : EvaluationConfig} {environ : Option Text}
    {correlationId stageName : Text} {recordedAt : FloatText} {fields : List (Text × StageValue)}
    {encoded : Text}
    (h : stage lib config environ correlationId stageName recordedAt fields = some encoded) :
    ∃ payload json, StageValue.toJson payload = some json ∧ encoded = json.dumps Json.quoteAscii ∧
      ∀ secret, Configured config environ secret → Maskable secret →
        ∀ t ∈ payload.strings, ¬ secret <:+: t := by
  unfold stage at h
  dsimp only at h
  split_ifs at h
  cases hjson : (clean lib (stageSecrets config environ)
      (stagePayload correlationId stageName recordedAt fields)).toJson with
  | none =>
    rw [hjson] at h
    cases h
  | some json =>
    rw [hjson] at h
    dsimp only at h
    split_ifs at h
    refine ⟨_, json, hjson, (Option.some.inj h).symm, ?_⟩
    intro secret hsecret hmask t ht
    obtain ⟨raw, hraw⟩ := strings_clean lib _ _ t ht
    rw [hraw]
    exact hmask.cleaned (mem_stageSecrets hsecret) raw

end BetterHindsight
