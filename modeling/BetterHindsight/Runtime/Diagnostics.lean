import BetterHindsight.Foundations.Dict
import BetterHindsight.Foundations.Fields
import BetterHindsight.Foundations.JsonEqual
import BetterHindsight.Destination

/-! # Diagnostic recall records

`diagnostics.py`: a slow or failed recall is written as a JSON file that can be loaded, replayed and
given the result of the replay; `client.py` accepts a recorded request only when it encodes like the
parameters of the current configuration.

* `recallRequestParameters`, `diagnosticRequestMatchesCurrent`: what is recorded of a request.
* `captureRecall`, `loadRecallRecord`, `saveReplayResult`: the record's life.
* `Recorded`: a file that loads as a record of a query and a request; every save keeps it.
* `record_replays`: what is loaded after any saves. -/

namespace BetterHindsight
set_option autoImplicit false

def RECORD_SCHEMA : ℤ := 1
def MAX_RECORD_BYTES : ℕ := 512 * 1024

/-! ## Configuration -/

structure RecallMinScores where
  semantic : Option FloatText
  keyword : Option FloatText
  reranker : Option FloatText
  final : Option FloatText

/-- The part of `RecallConfig` that a request depends on. -/
structure RecallConfig where
  budget : Option Text
  maxTokens : Option ℤ
  types : Option (List Text)
  tags : Option (List Text)
  tagMode : Option Text
  preferObservations : Option Bool
  minScores : Option RecallMinScores
  includeSourceFacts : Option Bool
  maxSourceFactsTokens : Option ℤ

structure DiagnosticConfig where
  enabled : Bool
  path : Text
  slowThresholdMs : ℤ
  maxRecords : ℕ

/-- The part of the configuration that diagnostics read. -/
structure RecordingConfig where
  apiUrl : Text
  bankId : Text
  recallConfig : RecallConfig
  diagnostics : DiagnosticConfig

/-! ## Requests -/

/-- `value if value is not None else None` as JSON -/
def optionalJson {α : Type} (json : α → Json) : Option α → Json
  | some value => json value
  | none => .null

/-- `value or default` of an optional integer -/
def intOr (value : Option ℤ) (default : ℤ) : ℤ :=
  match value with
  | some n => if n = 0 then default else n
  | none => default

/-- `value or default` of an optional text -/
def textOr (value : Option Text) (default : Text) : Text :=
  match value with
  | some t => if t = [] then default else t
  | none => default

def sourceFactsJson (config : RecallConfig) : Json :=
  if config.includeSourceFacts = some true then
    .obj [("max_tokens", .int (intOr config.maxSourceFactsTokens 4096)),
      ("max_tokens_per_observation", .int (-1))]
  else .null

def minScoresFields (scores : RecallMinScores) : List (Text × Json) :=
  [("semantic", optionalJson .float scores.semantic),
    ("keyword", optionalJson .float scores.keyword),
    ("reranker", optionalJson .float scores.reranker),
    ("final", optionalJson .float scores.final)]

def minScoresJson (scores : RecallMinScores) : Json := .obj (minScoresFields scores)

def includeFields (config : RecallConfig) : List (Text × Json) :=
  [("entities", .null), ("chunks", .null), ("source_facts", sourceFactsJson config)]

def textsJson (texts : List Text) : Json := .arr (texts.map .str)

/-- The fields of `_recall_body` after the query. -/
def recallFields (config : RecallConfig) : List (Text × Json) :=
  [("types", optionalJson textsJson config.types),
    ("prefer_observations", .bool (config.preferObservations.getD false)),
    ("budget", .str (textOr config.budget "mid")),
    ("max_tokens", .int (intOr config.maxTokens 4096)),
    ("trace", .bool false),
    ("query_timestamp", .null),
    ("include", .obj (includeFields config)),
    ("tags", optionalJson textsJson config.tags),
    ("tags_match", .str (textOr config.tagMode "any")),
    ("tag_groups", .null),
    ("min_scores", optionalJson minScoresJson config.minScores)]

def recallBody (query : Text) (config : RecallConfig) : List (Text × Json) :=
  ("query", .str query) :: recallFields config

/-- `recall_request_parameters`: the body without its query. -/
def recallRequestParameters (config : RecallConfig) : List (Text × Json) :=
  (recallBody [] config).filter fun f => f.1 ≠ "query".toList

/-- `_diagnostic_request_matches_current`; no float is infinite or no number here. -/
def diagnosticRequestMatchesCurrent (request : Json) (config : RecallConfig) : Bool :=
  match request with
  | .obj fields => Json.dumps Json.quoteAscii (.obj fields) =
      Json.dumps Json.quoteAscii (.obj (recallRequestParameters config))
  | _ => false

/-! ## Files -/

/-- The record files: their texts by directory and record id. -/
abbrev RecordStore := Dict (Text × Text) Text

/-- `_RECORD_ID` -/
def isRecordId (t : Text) : Bool :=
  t.length == 32 && (t.take 19).all Char.isDigit && (t.drop 19).head? == some '-' &&
    (t.drop 20).all isHexLower

/-- What `_new_record_id` returns: nanoseconds of 19 digits and twelve digits of a UUID. -/
structure RecordId where
  text : Text
  isRecordId : BetterHindsight.isRecordId text = true

/-- `re.fullmatch(r"[a-z][a-z0-9_]{0,63}", text)` -/
def isReason (t : Text) : Bool :=
  t.head?.any (fun c => 'a' ≤ c && c ≤ 'z') && t.length ≤ 64 &&
    t.all fun c => ('a' ≤ c && c ≤ 'z') || ('0' ≤ c && c ≤ '9') || c == '_'

/-- `_write_record`; `fault` is a failure of the file system before the file is replaced. -/
def writeRecord (store : RecordStore) (directory recordId : Text) (payload : List (Text × Json))
    (fault : Bool) : Except Text RecordStore :=
  let encoded := Json.dumps Json.quoteAscii (.obj payload)
  if utf8Len encoded > MAX_RECORD_BYTES then .error "diagnostic_record_too_large"
  else if fault = true then .error "diagnostic_record_write_failed"
  else .ok (store.set (directory, recordId) encoded)

/-- `_record_paths`: the record ids of a directory, the newest first. -/
def recordPaths (store : RecordStore) (directory : Text) : List Text :=
  ((store.entries.filter fun e => decide (e.1.1 = directory) && isRecordId e.1.2).map
    fun e => e.1.2).insertionSort fun a b => b ≤ a

/-- `_prune_records` -/
def pruneRecords (store : RecordStore) (directory : Text) (maxRecords : ℕ) : RecordStore :=
  store.filter fun key _ =>
    decide ¬ (key.1 = directory ∧ key.2 ∈ (recordPaths store directory).drop maxRecords)

/-- `_read_record`; an error of the decoder becomes `diagnostic_record_unavailable` in the caller. -/
def readRecord (store : RecordStore) (directory recordId : Text) :
    Except Text (List (Text × Json)) :=
  match store.get? (directory, recordId) with
  | none => .error "diagnostic_record_unavailable"
  | some text =>
    if utf8Len text > MAX_RECORD_BYTES then .error "diagnostic_record_unavailable"
    else
      match Json.loads text with
      | none => .error "diagnostic_record_unavailable"
      | some (.obj payload) => .ok payload
      | some _ => .error "diagnostic_record_invalid"

/-! ## Capturing -/

/-- The hashed text of `recall_target_fingerprint`. -/
def targetText (apiUrl bankId : Text) : Text :=
  Json.dumps Json.quoteAscii (.obj [("api_url", .str apiUrl), ("bank_id", .str bankId)])

def recallTargetFingerprint (lib : Stdlib) (config : RecordingConfig) : Text :=
  (lib.sha256Text (targetText config.apiUrl config.bankId)).text

def captureRequired (config : RecordingConfig) (elapsedMs : ℤ) (outcome : Text) : Bool :=
  config.diagnostics.enabled && !((outcome == "success".toList || outcome == "empty".toList) &&
    decide (elapsedMs < config.diagnostics.slowThresholdMs))

/-- What a finished recall reports. -/
structure RecallReport where
  elapsedMs : ℤ
  outcome : Text
  resultCount : Option ℤ
  formattedBytes : Option ℤ
  reason : Option Text

def capturePayload (lib : Stdlib) (config : RecordingConfig) (query : Text)
    (request : List (Text × Json)) (report : RecallReport) (recordId recordedAt : Text) :
    List (Text × Json) :=
  ([("elapsed_ms", .int (max 0 report.elapsedMs)),
    ("outcome", .str report.outcome),
    ("query", .str query),
    ("query_sha256", .str (lib.sha256Text query).text),
    ("record_id", .str recordId),
    ("recorded_at", .str recordedAt),
    ("request", .obj request),
    ("schema", .int RECORD_SCHEMA),
    ("target_fingerprint", .str (recallTargetFingerprint lib config))] : List (Text × Json)) ++
  (report.resultCount.map fun n => ("result_count".toList, Json.int (max 0 n))).toList ++
  (report.formattedBytes.map fun n => ("formatted_bytes".toList, Json.int (max 0 n))).toList ++
  ((report.reason.filter fun reason => isReason reason).map fun reason =>
    ("reason".toList, Json.str reason)).toList

/-- `capture_recall`: the id of the written record, if one is due. -/
def captureRecall (lib : Stdlib) (store : RecordStore) (config : RecordingConfig) (query : Text)
    (request : List (Text × Json)) (report : RecallReport) (recordId : RecordId)
    (recordedAt : Text) (fault : Bool) : Except Text (Option Text) × RecordStore :=
  if captureRequired config report.elapsedMs report.outcome = false then (.ok none, store)
  else
    match writeRecord store config.diagnostics.path recordId.text
      (capturePayload lib config query request report recordId.text recordedAt) fault with
    | .error error => (.error error, store)
    | .ok written => (.ok (some recordId.text),
        pruneRecords written config.diagnostics.path config.diagnostics.maxRecords)

/-! ## Loading -/

/-- `if condition: raise DiagnosticRecordError(code)` -/
def refuse (condition : Prop) [Decidable condition] (code : Text) : Except Text Unit :=
  if condition then .error code else .ok ()

def requiredString (payload : List (Text × Json)) (key : Text) (maximum : ℕ) : Except Text Text :=
  match payload.lookup key with
  | some (.str value) =>
    if value = [] ∨ value.length > maximum then .error "diagnostic_record_invalid" else .ok value
  | _ => .error "diagnostic_record_invalid"

def requiredSha256 (payload : List (Text × Json)) (key : Text) : Except Text Text := do
  let value ← requiredString payload key 64
  refuse (isHex 64 value = false) "diagnostic_record_invalid"
  return value

def requiredRecordId (payload : List (Text × Json)) (expected : Text) : Except Text Unit :=
  match payload.lookup "record_id".toList with
  | some (.str value) =>
    refuse (value ≠ expected ∨ isRecordId value = false) "diagnostic_record_invalid"
  | _ => .error "diagnostic_record_invalid"

/-- `load_recall_record`; `floats` compares the schema with one when it is a float. -/
def loadRecallRecord (lib : Stdlib) (floats : FloatEquality) (store : RecordStore)
    (config : RecordingConfig) (recordId : Text) : Except Text (List (Text × Json)) := do
  refuse (isRecordId recordId = false) "diagnostic_record_invalid"
  let payload ← readRecord store config.diagnostics.path recordId
  requiredRecordId payload recordId
  refuse ((payload.lookup "schema".toList).any
    (fun schema => Json.pyEq floats schema (.int RECORD_SCHEMA)) = false) "diagnostic_record_invalid"
  let query ← requiredString payload "query" 65536
  let digest ← requiredSha256 payload "query_sha256"
  refuse ((lib.sha256Text query).text ≠ digest) "diagnostic_record_invalid"
  refuse ((payload.lookup "target_fingerprint".toList).any
    (fun target => Json.pyEq floats target (.str (recallTargetFingerprint lib config))) = false)
    "diagnostic_destination_mismatch"
  match payload.lookup "request".toList with
  | some (.obj _) => return payload
  | _ => .error "diagnostic_record_invalid"

/-! ## Saving a replay -/

/-- What a replay reports; the trace is a value that `json.dumps` can write. -/
structure ReplayReport where
  elapsedMs : ℤ
  outcome : Text
  resultCount : Option ℤ
  trace : Option {v : Json // v.Distinct}

def replayJson (report : ReplayReport) (replayedAt : Text) : List (Text × Json) :=
  [("elapsed_ms".toList, Json.int (max 0 report.elapsedMs)),
    ("outcome".toList, Json.str report.outcome),
    ("replayed_at".toList, Json.str replayedAt)] ++
  (report.resultCount.map fun n => ("result_count".toList, Json.int (max 0 n))).toList ++
  (report.trace.map fun trace => ("trace".toList, trace.val)).toList

/-- One call of `save_replay_result`. -/
structure ReplayCall where
  config : RecordingConfig
  recordId : Text
  report : ReplayReport
  replayedAt : Text
  fault : Bool

/-- The loaded payload with the result of the call. -/
def ReplayCall.payload (call : ReplayCall) (payload : List (Text × Json)) : List (Text × Json) :=
  Json.setKey payload "last_replay" (.obj (replayJson call.report call.replayedAt))

/-- `save_replay_result` -/
def saveReplayResult (lib : Stdlib) (floats : FloatEquality) (store : RecordStore)
    (call : ReplayCall) : Except Text Unit × RecordStore :=
  match loadRecallRecord lib floats store call.config call.recordId with
  | .error error => (.error error, store)
  | .ok payload =>
    match writeRecord store call.config.diagnostics.path call.recordId (call.payload payload)
      call.fault with
    | .error error => (.error error, store)
    | .ok written => (.ok (), written)

/-- The record files after some calls, whatever each of them returned. -/
def saveReplays (lib : Stdlib) (floats : FloatEquality) (store : RecordStore)
    (calls : List ReplayCall) : RecordStore :=
  calls.foldl (fun store call => (saveReplayResult lib floats store call).2) store

/-! ## Records -/

/-- The payload of a record, whatever else it says. -/
structure RecordFields (lib : Stdlib) (recordId query target : Text)
    (request payload : List (Text × Json)) : Prop where
  distinct : (Json.obj payload).Distinct
  hasId : payload.lookup "record_id".toList = some (.str recordId)
  hasSchema : payload.lookup "schema".toList = some (.int RECORD_SCHEMA)
  hasQuery : payload.lookup "query".toList = some (.str query)
  hasDigest : payload.lookup "query_sha256".toList = some (.str (lib.sha256Text query).text)
  hasTarget : payload.lookup "target_fingerprint".toList = some (.str target)
  hasRequest : ∃ found, payload.lookup "request".toList = some (.obj found) ∧
    (Json.obj found).sorted = (Json.obj request).sorted

section Records
variable {lib : Stdlib} {recordId query target : Text} {request payload : List (Text × Json)}

theorem Distinct.nodup_keys {fields : List (Text × Json)} (h : (Json.obj fields).Distinct) :
    (fields.map Prod.fst).Nodup := by
  cases h with
  | obj nodup _ => exact nodup

theorem RecordFields.distinct_request (h : RecordFields lib recordId query target request payload)
    {found : List (Text × Json)} (hfound : payload.lookup "request".toList = some (.obj found)) :
    (Json.obj found).Distinct := by
  have hdistinct := h.distinct
  cases hdistinct with
  | obj nodup hvalues => exact hvalues _ ((Json.lookup_eq_some nodup).mp hfound)

/-- Writing the payload and reading it back keeps the record. -/
theorem RecordFields.reload (h : RecordFields lib recordId query target request payload) :
    RecordFields lib recordId query target request (Json.reload payload) := by
  have hlookup := Json.lookup_reload (Distinct.nodup_keys h.distinct)
  obtain ⟨found, hfound, hsame⟩ := h.hasRequest
  refine ⟨?_, ?_, ?_, ?_, ?_, ?_, ?_⟩
  · exact h.distinct.sorted
  · rw [hlookup, h.hasId]
    rfl
  · rw [hlookup, h.hasSchema]
    rfl
  · rw [hlookup, h.hasQuery]
    rfl
  · rw [hlookup, h.hasDigest]
    rfl
  · rw [hlookup, h.hasTarget]
    rfl
  · refine ⟨Json.reload found, ?_, ?_⟩
    · rw [hlookup, hfound]
      rfl
    · have hsorted : (Json.obj (Json.reload found)) = (Json.obj found).sorted := rfl
      rw [hsorted, Json.sorted_sorted, hsame]

theorem RecordFields.setReplay (h : RecordFields lib recordId query target request payload)
    {replay : Json} (hreplay : replay.Distinct) :
    RecordFields lib recordId query target request
      (Json.setKey payload "last_replay".toList replay) := by
  have hother : ∀ key : Text, key ≠ "last_replay".toList →
      (Json.setKey payload "last_replay".toList replay).lookup key = payload.lookup key := by
    intro key hkey
    rw [Json.lookup_setKey, if_neg hkey]
  refine ⟨Json.distinct_setKey h.distinct hreplay, ?_, ?_, ?_, ?_, ?_, ?_⟩
  · rw [hother _ (by decide), h.hasId]
  · rw [hother _ (by decide), h.hasSchema]
  · rw [hother _ (by decide), h.hasQuery]
  · rw [hother _ (by decide), h.hasDigest]
  · rw [hother _ (by decide), h.hasTarget]
  · rw [hother _ (by decide)]
    exact h.hasRequest

/-- A file that is read as such a record. -/
def Recorded (lib : Stdlib) (store : RecordStore) (directory recordId query target : Text)
    (request : List (Text × Json)) : Prop :=
  ∃ payload, readRecord store directory recordId = .ok payload ∧
    RecordFields lib recordId query target request payload

theorem readRecord_write {store written : RecordStore} {directory : Text} {fault : Bool}
    (hdistinct : (Json.obj payload).Distinct)
    (h : writeRecord store directory recordId payload fault = .ok written) :
    readRecord written directory recordId = .ok (Json.reload payload) := by
  unfold writeRecord at h
  dsimp only at h
  split_ifs at h with hsize
  obtain rfl := Except.ok.inj h
  rw [readRecord, Dict.get?_set, if_pos rfl]
  dsimp only
  rw [if_neg hsize, Json.loads_obj Json.quotes_ascii hdistinct]

/-- What a written payload leaves of the other files. -/
theorem readRecord_write_other {store written : RecordStore} {directory other id : Text}
    {fault : Bool} (hkey : (other, id) ≠ (directory, recordId))
    (h : writeRecord store directory recordId payload fault = .ok written) :
    readRecord written other id = readRecord store other id := by
  unfold writeRecord at h
  dsimp only at h
  split_ifs at h
  obtain rfl := Except.ok.inj h
  rw [readRecord, readRecord, Dict.get?_set, if_neg hkey]

theorem refuse_false {condition : Prop} [Decidable condition] {code : Text} (h : ¬ condition) :
    refuse condition code = .ok () := if_neg h

/-- A record of a query that is neither empty nor too long loads under its destination alone. -/
theorem load_recorded {store : RecordStore} {config : RecordingConfig} (floats : FloatEquality)
    (hid : isRecordId recordId = true) (hne : query ≠ []) (hlen : query.length ≤ 65536)
    (hread : readRecord store config.diagnostics.path recordId = .ok payload)
    (h : RecordFields lib recordId query target request payload) :
    loadRecallRecord lib floats store config recordId =
      if target = recallTargetFingerprint lib config then .ok payload
      else .error "diagnostic_destination_mismatch" := by
  obtain ⟨found, hfound, -⟩ := h.hasRequest
  have hdigest := (lib.sha256Text query).isHex
  have hdigestLen : (lib.sha256Text query).text.length = 64 := by
    have hparts := hdigest
    rw [isHex, Bool.and_eq_true] at hparts
    simpa using hparts.1
  have hrecord : requiredRecordId payload recordId = .ok () := by
    rw [requiredRecordId, h.hasId]
    exact refuse_false (by simp [hid])
  have hquery : requiredString payload "query" 65536 = .ok query := by
    have hlookup : payload.lookup "query".toList = some (.str query) := h.hasQuery
    rw [requiredString, hlookup]
    exact if_neg (by rw [not_or]; exact ⟨hne, by omega⟩)
  have hsha : requiredSha256 payload "query_sha256" = .ok (lib.sha256Text query).text := by
    have hlookup : payload.lookup "query_sha256".toList =
      some (.str (lib.sha256Text query).text) := h.hasDigest
    have hstring : requiredString payload "query_sha256" 64 = .ok (lib.sha256Text query).text := by
      rw [requiredString, hlookup]
      exact if_neg (by rw [not_or]; exact ⟨HexDigest.ne_nil _, by omega⟩)
    rw [requiredSha256, hstring]
    simp [bind, Except.bind, refuse, hdigest, pure, Except.pure]
  rw [loadRecallRecord, hread]
  simp only [hid, hrecord, hquery, hsha, h.hasSchema, h.hasTarget, hfound, refuse, bind,
    Except.bind, Option.any_some, Json.pyEq]
  by_cases htarget : target = recallTargetFingerprint lib config
  · simp [htarget, pure, Except.pure]
  · simp [htarget]

/-! ## Capturing a record -/

theorem distinct_replay (report : ReplayReport) (replayedAt : Text) :
    (Json.obj (replayJson report replayedAt)).Distinct := by
  obtain ⟨elapsedMs, outcome, resultCount, trace⟩ := report
  have hvalues : ∀ f ∈ replayJson ⟨elapsedMs, outcome, resultCount, trace⟩ replayedAt,
      f.2.Distinct := by
    intro f hf
    simp only [replayJson, List.mem_append, List.mem_cons, List.not_mem_nil, or_false,
      Option.mem_toList, Option.map_eq_some_iff] at hf
    obtain ((rfl | rfl | rfl) | ⟨n, -, rfl⟩) | ⟨value, -, rfl⟩ := hf
    · exact .int _
    · exact .str _
    · exact .str _
    · exact .int _
    · exact value.property
  refine .obj ?_ hvalues
  have hkeys : ["elapsed_ms".toList, "outcome".toList, "replayed_at".toList,
      "result_count".toList, "trace".toList].Nodup := by decide
  refine hkeys.sublist ?_
  cases resultCount <;> cases trace <;> simp [replayJson]

theorem capturePayload_fields {config : RecordingConfig} (report : RecallReport) (recordedAt : Text)
    (hrequest : (Json.obj request).Distinct) :
    RecordFields lib recordId query (recallTargetFingerprint lib config) request
      (capturePayload lib config query request report recordId recordedAt) := by
  obtain ⟨elapsedMs, outcome, resultCount, formattedBytes, reason⟩ := report
  have hvalues : ∀ f ∈ capturePayload lib config query request
      ⟨elapsedMs, outcome, resultCount, formattedBytes, reason⟩ recordId recordedAt,
      f.2.Distinct := by
    intro f hf
    simp only [capturePayload, List.mem_append, List.mem_cons, List.not_mem_nil, or_false,
      Option.mem_toList, Option.map_eq_some_iff] at hf
    obtain (((rfl | rfl | rfl | rfl | rfl | rfl | rfl | rfl | rfl) | ⟨n, -, rfl⟩) | ⟨n, -, rfl⟩) |
      ⟨t, -, rfl⟩ := hf
    · exact .int _
    · exact .str _
    · exact .str _
    · exact .str _
    · exact .str _
    · exact .str _
    · exact hrequest
    · exact .int _
    · exact .str _
    · exact .int _
    · exact .int _
    · exact .str _
  have hnodup : ((capturePayload lib config query request
      ⟨elapsedMs, outcome, resultCount, formattedBytes, reason⟩ recordId recordedAt).map
        Prod.fst).Nodup := by
    have hkeys : ["elapsed_ms".toList, "outcome".toList, "query".toList, "query_sha256".toList,
        "record_id".toList, "recorded_at".toList, "request".toList, "schema".toList,
        "target_fingerprint".toList, "result_count".toList, "formatted_bytes".toList,
        "reason".toList].Nodup := by decide
    refine hkeys.sublist ?_
    cases hreason : reason.filter fun reason => isReason reason <;> cases resultCount <;>
      cases formattedBytes <;> simp [capturePayload, hreason]
  exact ⟨.obj hnodup hvalues, rfl, rfl, rfl, rfl, rfl, request, rfl, rfl⟩

theorem readRecord_congr {store other : RecordStore} {directory : Text}
    (h : store.get? (directory, recordId) = other.get? (directory, recordId)) :
    readRecord store directory recordId = readRecord other directory recordId := by
  rw [readRecord, readRecord, h]

theorem get?_prune {store : RecordStore} {directory : Text} {maxRecords : ℕ} {key : Text × Text}
    (h : ((pruneRecords store directory maxRecords).get? key).isSome = true) :
    (pruneRecords store directory maxRecords).get? key = store.get? key := by
  rw [pruneRecords, Dict.get?_filter] at h ⊢
  cases hget : store.get? key with
  | none => rfl
  | some text =>
    rw [hget, Option.filter_some] at h
    rw [Option.filter_some]
    split at h
    · rename_i hkeep
      rw [if_pos hkeep]
    · cases h

/-- A captured record that pruning left is recorded. -/
theorem captureRecall_recorded {store stored : RecordStore} {config : RecordingConfig}
    {report : RecallReport} {id : RecordId} {recordedAt : Text} {fault : Bool} {found : Text}
    (hrequest : (Json.obj request).Distinct)
    (h : captureRecall lib store config query request report id recordedAt fault =
      (.ok (some found), stored))
    (hstored : (stored.get? (config.diagnostics.path, id.text)).isSome = true) :
    Recorded lib stored config.diagnostics.path id.text query (recallTargetFingerprint lib config)
      request := by
  have hfields := @capturePayload_fields lib id.text query request config report recordedAt hrequest
  unfold captureRecall at h
  split at h
  · cases h
  · cases hwrite : writeRecord store config.diagnostics.path id.text
      (capturePayload lib config query request report id.text recordedAt) fault with
    | error error =>
      rw [hwrite] at h
      cases h
    | ok written =>
      rw [hwrite] at h
      obtain ⟨-, rfl⟩ := Prod.mk.inj h
      refine ⟨_, ?_, hfields.reload⟩
      rw [readRecord_congr (get?_prune hstored), readRecord_write hfields.distinct hwrite]

/-! ## Saving replays -/

theorem readRecord_of_load {floats : FloatEquality} {store : RecordStore} {config : RecordingConfig}
    (h : loadRecallRecord lib floats store config recordId = .ok payload) :
    readRecord store config.diagnostics.path recordId = .ok payload := by
  rw [loadRecallRecord] at h
  obtain ⟨_, -, h⟩ := bind_ok h
  obtain ⟨found, hfound, h⟩ := bind_ok h
  obtain ⟨_, -, h⟩ := bind_ok h
  obtain ⟨_, -, h⟩ := bind_ok h
  obtain ⟨_, -, h⟩ := bind_ok h
  obtain ⟨_, -, h⟩ := bind_ok h
  obtain ⟨_, -, h⟩ := bind_ok h
  obtain ⟨_, -, h⟩ := bind_ok h
  split at h
  · rw [hfound, ← Except.ok.inj h]
  · cases h

/-- A save of any record, whatever becomes of it, keeps what is recorded. -/
theorem Recorded.save {floats : FloatEquality} {store : RecordStore} {directory : Text}
    (h : Recorded lib store directory recordId query target request) (call : ReplayCall) :
    Recorded lib (saveReplayResult lib floats store call).2 directory recordId query target
      request := by
  obtain ⟨payload, hread, hfields⟩ := h
  unfold saveReplayResult
  cases hload : loadRecallRecord lib floats store call.config call.recordId with
  | error error => exact ⟨payload, hread, hfields⟩
  | ok loaded =>
    dsimp only
    cases hwrite : writeRecord store call.config.diagnostics.path call.recordId
      (call.payload loaded) call.fault with
    | error error => exact ⟨payload, hread, hfields⟩
    | ok written =>
      dsimp only
      by_cases hkey : (directory, recordId) = (call.config.diagnostics.path, call.recordId)
      · obtain ⟨rfl, rfl⟩ := Prod.mk.inj hkey
        have hsame : loaded = payload := by
          have h := readRecord_of_load hload
          rw [hread] at h
          exact (Except.ok.inj h).symm
        subst hsame
        have hnext := hfields.setReplay (distinct_replay call.report call.replayedAt)
        exact ⟨_, readRecord_write hnext.distinct hwrite, hnext.reload⟩
      · refine ⟨payload, ?_, hfields⟩
        rw [readRecord_write_other hkey hwrite, hread]

theorem Recorded.saves {floats : FloatEquality} {directory : Text} (calls : List ReplayCall)
    {store : RecordStore} (h : Recorded lib store directory recordId query target request) :
    Recorded lib (saveReplays lib floats store calls) directory recordId query target request := by
  induction calls generalizing store with
  | nil => exact h
  | cons call calls ih => exact ih (h.save call)

end Records

/-! ## Requests -/

theorem recallRequestParameters_eq (config : RecallConfig) :
    recallRequestParameters config = recallFields config := by
  rfl

theorem nodup_recallFields (config : RecallConfig) : ((recallFields config).map Prod.fst).Nodup :=
  (by decide : ["types".toList, "prefer_observations".toList, "budget".toList, "max_tokens".toList,
    "trace".toList, "query_timestamp".toList, "include".toList, "tags".toList, "tags_match".toList,
    "tag_groups".toList, "min_scores".toList].Nodup)

theorem distinct_optional {α : Type} {json : α → Json} (h : ∀ value, (json value).Distinct) :
    ∀ value : Option α, (optionalJson json value).Distinct
  | some value => h value
  | none => .null

theorem distinct_sourceFacts (config : RecallConfig) : (sourceFactsJson config).Distinct := by
  unfold sourceFactsJson
  split
  · have hnodup : ["max_tokens".toList, "max_tokens_per_observation".toList].Nodup := by decide
    refine .obj hnodup fun f hf => ?_
    obtain rfl | rfl := List.mem_pair.mp hf
    · exact .int _
    · exact .int _
  · exact .null

theorem nodup_minScores (scores : RecallMinScores) :
    ((minScoresFields scores).map Prod.fst).Nodup :=
  (by decide : ["semantic".toList, "keyword".toList, "reranker".toList, "final".toList].Nodup)

theorem distinct_minScores (scores : RecallMinScores) : (minScoresJson scores).Distinct := by
  refine .obj (nodup_minScores scores) fun f hf => ?_
  simp only [minScoresFields, List.mem_cons, List.not_mem_nil, or_false] at hf
  obtain rfl | rfl | rfl | rfl := hf <;> exact distinct_optional .float _

theorem nodup_include (config : RecallConfig) : ((includeFields config).map Prod.fst).Nodup :=
  (by decide : ["entities".toList, "chunks".toList, "source_facts".toList].Nodup)

theorem distinct_parameters (config : RecallConfig) :
    (Json.obj (recallRequestParameters config)).Distinct := by
  rw [recallRequestParameters_eq]
  refine .obj (nodup_recallFields config) fun f hf => ?_
  simp only [recallFields, List.mem_cons, List.not_mem_nil, or_false] at hf
  obtain rfl | rfl | rfl | rfl | rfl | rfl | rfl | rfl | rfl | rfl | rfl := hf
  · exact distinct_optional distinct_texts _
  · exact .bool _
  · exact .str _
  · exact .int _
  · exact .bool _
  · exact .null
  · refine .obj (nodup_include config) fun f hf => ?_
    simp only [includeFields, List.mem_cons, List.not_mem_nil, or_false] at hf
    obtain rfl | rfl | rfl := hf
    · exact .null
    · exact .null
    · exact distinct_sourceFacts config
  · exact distinct_optional distinct_texts _
  · exact .str _
  · exact .null
  · exact distinct_optional distinct_minScores _

theorem sorted_texts : ∀ texts : Option (List Text),
    (optionalJson textsJson texts).sorted = optionalJson textsJson texts
  | none => rfl
  | some texts => by
    have hmap : (texts.map Json.str).map Json.sorted = texts.map Json.str := by
      rw [List.map_map]
      rfl
    rw [optionalJson, textsJson, Json.sorted, Json.sortedItems_eq_map, hmap]

theorem sorted_sourceFacts (config : RecallConfig) :
    (sourceFactsJson config).sorted = sourceFactsJson config := by
  unfold sourceFactsJson
  split
  · have hsorted : ["max_tokens".toList, "max_tokens_per_observation".toList].Pairwise
        (· ≤ ·) := by decide
    rw [Json.sorted, Json.sortedFields_eq_map]
    exact congrArg Json.obj (Json.sortKeys_of_sorted hsorted)
  · rfl

theorem sorted_float : ∀ score : Option FloatText,
    (optionalJson .float score).sorted = optionalJson .float score
  | none => rfl
  | some _ => rfl

theorem minScores_of_sorted {scores others : RecallMinScores}
    (h : (minScoresJson scores).sorted = (minScoresJson others).sorted) :
    minScoresJson scores = minScoresJson others := by
  have hlookup := Json.lookup_of_sorted (nodup_minScores scores) (nodup_minScores others) h
  have hscore : ∀ score other : Option FloatText,
      some (optionalJson Json.float score).sorted = some (optionalJson Json.float other).sorted →
        optionalJson Json.float score = optionalJson Json.float other := by
    intro score other heq
    rwa [sorted_float, sorted_float, Option.some_inj] at heq
  have hsemantic := hscore _ _ (hlookup "semantic".toList)
  have hkeyword := hscore _ _ (hlookup "keyword".toList)
  have hreranker := hscore _ _ (hlookup "reranker".toList)
  have hfinal := hscore _ _ (hlookup "final".toList)
  rw [minScoresJson, minScoresJson, minScoresFields, minScoresFields, hsemantic, hkeyword, hreranker,
    hfinal]

theorem optionalScores_of_sorted : ∀ {scores others : Option RecallMinScores},
    (optionalJson minScoresJson scores).sorted = (optionalJson minScoresJson others).sorted →
      optionalJson minScoresJson scores = optionalJson minScoresJson others
  | none, none, _ => rfl
  | none, some _, h => by cases h
  | some _, none, h => by cases h
  | some _, some _, h => minScores_of_sorted h

/-- The fields stand in one order, so sorting loses nothing of them. -/
theorem recallFields_of_sorted {config other : RecallConfig}
    (h : (Json.obj (recallFields config)).sorted = (Json.obj (recallFields other)).sorted) :
    recallFields config = recallFields other := by
  have hlookup := Json.lookup_of_sorted (nodup_recallFields config) (nodup_recallFields other) h
  have htypes : some (optionalJson textsJson config.types).sorted =
      some (optionalJson textsJson other.types).sorted := hlookup "types".toList
  have htags : some (optionalJson textsJson config.tags).sorted =
      some (optionalJson textsJson other.tags).sorted := hlookup "tags".toList
  rw [sorted_texts, sorted_texts, Option.some_inj] at htypes htags
  have hprefer : some (Json.bool (config.preferObservations.getD false)) =
      some (.bool (other.preferObservations.getD false)) := hlookup "prefer_observations".toList
  have hbudget : some (Json.str (textOr config.budget "mid")) =
      some (.str (textOr other.budget "mid")) := hlookup "budget".toList
  have htokens : some (Json.int (intOr config.maxTokens 4096)) =
      some (.int (intOr other.maxTokens 4096)) := hlookup "max_tokens".toList
  have hmatch : some (Json.str (textOr config.tagMode "any")) =
      some (.str (textOr other.tagMode "any")) := hlookup "tags_match".toList
  have hinclude := Json.lookup_of_sorted (nodup_include config) (nodup_include other)
    (Option.some.inj (hlookup "include".toList)) "source_facts".toList
  have hfacts : some (sourceFactsJson config).sorted = some (sourceFactsJson other).sorted :=
    hinclude
  rw [sorted_sourceFacts, sorted_sourceFacts, Option.some_inj] at hfacts
  have hscores := optionalScores_of_sorted (Option.some.inj (hlookup "min_scores".toList))
  rw [recallFields, recallFields, includeFields, includeFields, htypes, htags, hfacts, hscores,
    Option.some.inj hprefer, Option.some.inj hbudget, Option.some.inj htokens,
    Option.some.inj hmatch]

/-- A request that has the recorded parameters up to the order of keys matches a configuration
exactly when that configuration has these parameters. -/
theorem matchesCurrent_iff {found : List (Text × Json)} {config current : RecallConfig}
    (hdistinct : (Json.obj found).Distinct)
    (h : (Json.obj found).sorted = (Json.obj (recallRequestParameters config)).sorted) :
    diagnosticRequestMatchesCurrent (.obj found) current = true ↔
      recallRequestParameters current = recallRequestParameters config := by
  rw [diagnosticRequestMatchesCurrent, decide_eq_true_eq,
    Json.dumps_eq_iff Json.quotes_ascii hdistinct (distinct_parameters current), h]
  constructor
  · intro hsorted
    exact (recallFields_of_sorted hsorted).symm
  · intro hsame
    rw [hsame]

/-! ## Equal parameters -/

/-- A float that compares equal to zero. -/
def IsZero (x : FloatText) : Prop := x.text = "0.0".toList ∨ x.text = "-0.0".toList

theorem pyEq_texts (floats : FloatEquality) (texts others : List Text) :
    Json.pyEq floats (textsJson texts) (textsJson others) = true ↔ texts = others := by
  rw [textsJson, textsJson, Json.pyEq]
  induction texts generalizing others with
  | nil => cases others <;> simp [Json.pyEqItems]
  | cons t texts ih =>
    cases others with
    | nil => simp [Json.pyEqItems]
    | cons u others => simp [Json.pyEqItems, Json.pyEq, ih]

theorem pyEq_optionalTexts (floats : FloatEquality) : ∀ texts others : Option (List Text),
    Json.pyEq floats (optionalJson textsJson texts) (optionalJson textsJson others) = true ↔
      optionalJson textsJson texts = optionalJson textsJson others
  | none, none => by simp [optionalJson, Json.pyEq]
  | none, some others => by simp [optionalJson, textsJson, Json.pyEq]
  | some texts, none => by simp [optionalJson, textsJson, Json.pyEq]
  | some texts, some others => by
    have hinjective : Function.Injective Json.str := fun _ _ h => Json.str.inj h
    rw [optionalJson, optionalJson, pyEq_texts, textsJson, textsJson, Json.arr.injEq,
      (List.map_injective_iff.mpr hinjective).eq_iff]

theorem pyEq_sourceFacts (floats : FloatEquality) (config other : RecallConfig) :
    Json.pyEq floats (sourceFactsJson config) (sourceFactsJson other) = true ↔
      sourceFactsJson config = sourceFactsJson other := by
  unfold sourceFactsJson
  split <;> split <;> simp [Json.pyEq, Json.pyEqFields, List.lookup_cons]

section Equality
variable {floats : FloatEquality}
  (hfloats : ∀ x y, floats.eqFloat x y = true ↔ x = y ∨ IsZero x ∧ IsZero y)

include hfloats in
theorem pyEq_score {score : Option FloatText} (hzero : ∀ x, score = some x → ¬ IsZero x)
    (other : Option FloatText) :
    Json.pyEq floats (optionalJson .float score) (optionalJson .float other) = true ↔
      optionalJson .float score = optionalJson .float other := by
  cases score with
  | none => cases other <;> simp [optionalJson, Json.pyEq]
  | some x =>
    cases other with
    | none => simp [optionalJson, Json.pyEq]
    | some y => simp [optionalJson, Json.pyEq, hfloats, hzero x rfl]

/-- No floor is a zero. -/
def RecallMinScores.Nonzero (scores : RecallMinScores) : Prop :=
  ∀ score ∈ [scores.semantic, scores.keyword, scores.reranker, scores.final],
    ∀ x, score = some x → ¬ IsZero x

include hfloats in
theorem pyEq_minScores {scores : RecallMinScores} (hzero : scores.Nonzero)
    (others : RecallMinScores) :
    Json.pyEq floats (minScoresJson scores) (minScoresJson others) = true ↔
      minScoresJson scores = minScoresJson others := by
  simp only [RecallMinScores.Nonzero, List.forall_mem_cons] at hzero
  obtain ⟨hsemantic, hkeyword, hreranker, hfinal, -⟩ := hzero
  simp [minScoresJson, minScoresFields, Json.pyEq, Json.pyEqFields, List.lookup_cons,
    pyEq_score hfloats hsemantic, pyEq_score hfloats hkeyword, pyEq_score hfloats hreranker,
    pyEq_score hfloats hfinal]

include hfloats in
theorem pyEq_optionalScores {scores : Option RecallMinScores}
    (hzero : ∀ s, scores = some s → s.Nonzero) (others : Option RecallMinScores) :
    Json.pyEq floats (optionalJson minScoresJson scores) (optionalJson minScoresJson others) = true ↔
      optionalJson minScoresJson scores = optionalJson minScoresJson others := by
  cases scores with
  | none => cases others <;> simp [optionalJson, minScoresJson, Json.pyEq]
  | some s =>
    cases others with
    | none => simp [optionalJson, minScoresJson, Json.pyEq]
    | some t => simpa [optionalJson] using pyEq_minScores hfloats (hzero s rfl) t

include hfloats in
/-- Without zeros among the floors, parameters are equal as dictionaries when they are the same. -/
theorem pyEq_parameters {config : RecallConfig}
    (hzero : ∀ s, config.minScores = some s → s.Nonzero) (other : RecallConfig) :
    Json.pyEq floats (.obj (recallRequestParameters config))
        (.obj (recallRequestParameters other)) = true ↔
      recallRequestParameters config = recallRequestParameters other := by
  rw [recallRequestParameters_eq, recallRequestParameters_eq, Json.pyEq]
  simp [recallFields, includeFields, Json.pyEq, Json.pyEqFields, List.lookup_cons,
    pyEq_optionalTexts, pyEq_sourceFacts, pyEq_optionalScores hfloats hzero]

end Equality

/-! ## Replaying -/

theorem targetText_injective {apiUrl bankId otherUrl otherBank : Text}
    (h : targetText apiUrl bankId = targetText otherUrl otherBank) :
    apiUrl = otherUrl ∧ bankId = otherBank := by
  have hkeys : ["api_url".toList, "bank_id".toList].Nodup := by decide
  have hdistinct : ∀ url bank : Text,
      (Json.obj [("api_url", .str url), ("bank_id", .str bank)]).Distinct := by
    intro url bank
    refine .obj hkeys fun f hf => ?_
    obtain rfl | rfl := List.mem_pair.mp hf
    · exact .str _
    · exact .str _
  have hsorted := Json.dumps_injective Json.quotes_ascii (hdistinct _ _) (hdistinct _ _) h
  have hlookup := @Json.lookup_of_sorted [("api_url", .str apiUrl), ("bank_id", .str bankId)]
    [("api_url", .str otherUrl), ("bank_id", .str otherBank)] hkeys hkeys hsorted
  have hurl : some (Json.str apiUrl) = some (.str otherUrl) := hlookup "api_url".toList
  have hbank : some (Json.str bankId) = some (.str otherBank) := hlookup "bank_id".toList
  exact ⟨Json.str.inj (Option.some.inj hurl), Json.str.inj (Option.some.inj hbank)⟩

/-- What a captured record is after any saves of replay results. It loads under every configuration
with its destination and its directory, with the query and, up to the order of keys, the request;
another destination is refused, as long as SHA-256 tells the two apart; the request matches the
configurations with the captured parameters; and a result that is too large is not saved. -/
theorem record_replays (lib : Stdlib) (floats : FloatEquality) {store stored : RecordStore}
    {config : RecordingConfig} {query : Text} {report : RecallReport} {id : RecordId}
    {recordedAt found : Text} {fault : Bool} (hne : query ≠ []) (hlen : query.length ≤ 65536)
    (hcapture : captureRecall lib store config query
      (recallRequestParameters config.recallConfig) report id recordedAt fault =
        (.ok (some found), stored))
    (hstored : (stored.get? (config.diagnostics.path, id.text)).isSome = true)
    (calls : List ReplayCall) :
    let final := saveReplays lib floats stored calls
    (∀ other : RecordingConfig, other.diagnostics.path = config.diagnostics.path →
      (other.apiUrl = config.apiUrl ∧ other.bankId = config.bankId →
        ∃ payload request, loadRecallRecord lib floats final other id.text = .ok payload ∧
          payload.lookup "query".toList = some (.str query) ∧
          payload.lookup "request".toList = some (.obj request) ∧
          (Json.obj request).sorted =
            (Json.obj (recallRequestParameters config.recallConfig)).sorted ∧
          ∀ current, diagnosticRequestMatchesCurrent (.obj request) current = true ↔
            recallRequestParameters current = recallRequestParameters config.recallConfig) ∧
      ((other.apiUrl, other.bankId) ≠ (config.apiUrl, config.bankId) →
        lib.CollisionFree (fun t => t = targetText config.apiUrl config.bankId ∨
          t = targetText other.apiUrl other.bankId) →
        loadRecallRecord lib floats final other id.text =
          .error "diagnostic_destination_mismatch")) ∧
    ∀ call payload, loadRecallRecord lib floats final call.config call.recordId = .ok payload →
      MAX_RECORD_BYTES < utf8Len (Json.dumps Json.quoteAscii (.obj (call.payload payload))) →
      saveReplayResult lib floats final call = (.error "diagnostic_record_too_large", final) := by
  intro final
  have hrecorded := captureRecall_recorded (distinct_parameters config.recallConfig) hcapture hstored
  obtain ⟨payload, hread, hfields⟩ := hrecorded.saves calls
  obtain ⟨request, hrequest, hsame⟩ := hfields.hasRequest
  have hdistinct := hfields.distinct_request hrequest
  refine ⟨fun other hpath => ?_, fun call loaded hload hsize => ?_⟩
  · have hload := load_recorded floats id.isRecordId hne hlen (hpath ▸ hread) hfields
    refine ⟨fun hsameTarget => ?_, fun hother hcf => ?_⟩
    · have htarget : recallTargetFingerprint lib config = recallTargetFingerprint lib other := by
        rw [recallTargetFingerprint, recallTargetFingerprint, hsameTarget.1, hsameTarget.2]
      rw [if_pos htarget] at hload
      exact ⟨payload, request, hload, hfields.hasQuery, hrequest, hsame,
        fun current => matchesCurrent_iff hdistinct hsame⟩
    · have htarget : ¬ recallTargetFingerprint lib config = recallTargetFingerprint lib other := by
        intro heq
        have htexts := hcf _ _ (.inl rfl) (.inr rfl) (HexDigest.ext heq)
        obtain ⟨hurl, hbank⟩ := targetText_injective htexts
        exact hother (by rw [hurl, hbank])
      rw [if_neg htarget] at hload
      exact hload
  · rw [saveReplayResult, hload]
    dsimp only
    have hwrite : writeRecord final call.config.diagnostics.path call.recordId
        (call.payload loaded) call.fault = .error "diagnostic_record_too_large" :=
      if_pos hsize
    rw [hwrite]

/-! ## A captured record -/

/-- A capture that is due and not too large is stored. -/
theorem captureRecall_ok {lib : Stdlib} {store : RecordStore} {config : RecordingConfig}
    {query : Text} {request : List (Text × Json)} {report : RecallReport} {id : RecordId}
    {recordedAt : Text} (hdue : captureRequired config report.elapsedMs report.outcome = true)
    (hsize : utf8Len (Json.dumps Json.quoteAscii (.obj
      (capturePayload lib config query request report id.text recordedAt))) ≤ MAX_RECORD_BYTES) :
    captureRecall lib store config query request report id recordedAt false =
      (.ok (some id.text), pruneRecords (store.set (config.diagnostics.path, id.text)
        (Json.dumps Json.quoteAscii (.obj
          (capturePayload lib config query request report id.text recordedAt))))
        config.diagnostics.path config.diagnostics.maxRecords) := by
  have hwrite : writeRecord store config.diagnostics.path id.text
      (capturePayload lib config query request report id.text recordedAt) false =
        .ok (store.set (config.diagnostics.path, id.text) (Json.dumps Json.quoteAscii (.obj
          (capturePayload lib config query request report id.text recordedAt)))) := by
    rw [writeRecord, if_neg (Nat.not_lt.mpr hsize), if_neg (by simp)]
  rw [captureRecall, if_neg (by simp [hdue]), hwrite]

def slowReport : RecallReport := ⟨6000, "success", some 3, none, none⟩

def slowId : RecordId where
  text := "1790000000000000000-0123456789ab"
  isRecordId := by decide

def positiveZero : FloatText := ⟨"0.0", by decide⟩

def negativeZero : FloatText := ⟨"-0.0", by decide⟩

/-- A configuration with a floor for the semantic score. -/
def scoredConfig (score : FloatText) : RecordingConfig where
  apiUrl := DEFAULT_API_URL
  bankId := DEFAULT_BANK_ID
  recallConfig := ⟨none, none, none, none, none, none, some ⟨some score, none, none, none⟩, none,
    none⟩
  diagnostics := ⟨true, "recall_diagnostics", 5000, 100⟩

def slowStore : RecordStore :=
  (captureRecall (Stdlib.ofTables [] []) Dict.empty (scoredConfig negativeZero) "slow query"
    (recallRequestParameters (scoredConfig negativeZero).recallConfig) slowReport slowId
    "2026-09-21T12:26:40+00:00" false).2

/-- How floats compare with whole numbers and with each other, a zero with a sign being equal to one
without. -/
def valueEquality : FloatEquality where
  eqInt x n := x.text == Json.encodeInt n ++ ".0".toList || (n == 0 && x.text == "-0.0".toList)
  eqFloat x y := x.text == y.text ||
    ([positiveZero.text, negativeZero.text].contains x.text &&
      [positiveZero.text, negativeZero.text].contains y.text)

theorem slowStore_captured :
    captureRecall (Stdlib.ofTables [] []) Dict.empty (scoredConfig negativeZero) "slow query"
      (recallRequestParameters (scoredConfig negativeZero).recallConfig) slowReport slowId
      "2026-09-21T12:26:40+00:00" false = (.ok (some slowId.text), slowStore) := by
  have hdue : captureRequired (scoredConfig negativeZero) slowReport.elapsedMs
      slowReport.outcome = true := by decide
  have hsize : utf8Len (Json.dumps Json.quoteAscii (.obj (capturePayload (Stdlib.ofTables [] [])
      (scoredConfig negativeZero) "slow query"
      (recallRequestParameters (scoredConfig negativeZero).recallConfig) slowReport slowId.text
      "2026-09-21T12:26:40+00:00"))) ≤ MAX_RECORD_BYTES := by decide +kernel
  rw [slowStore, captureRecall_ok hdue hsize]

theorem slowStore_stored :
    (slowStore.get? ((scoredConfig negativeZero).diagnostics.path, slowId.text)).isSome = true := by
  decide +kernel

theorem slowQuery_ne : "slow query".toList ≠ [] := by decide

/-- A replay of the slow recall that found two results. -/
def slowReplay : ReplayCall where
  config := scoredConfig negativeZero
  recordId := slowId.text
  report := ⟨3100, "success", some 2, none⟩
  replayedAt := "2026-09-21T13:00:00+00:00"
  fault := false

theorem record_replays_slow :
    "slow query".toList ≠ [] ∧ "slow query".toList.length ≤ 65536 ∧
      captureRecall (Stdlib.ofTables [] []) Dict.empty (scoredConfig negativeZero) "slow query"
        (recallRequestParameters (scoredConfig negativeZero).recallConfig) slowReport slowId
        "2026-09-21T12:26:40+00:00" false = (.ok (some slowId.text), slowStore) ∧
      (slowStore.get? ((scoredConfig negativeZero).diagnostics.path, slowId.text)).isSome = true ∧
      ∃ payload request, loadRecallRecord (Stdlib.ofTables [] []) valueEquality
          (saveReplays (Stdlib.ofTables [] []) valueEquality slowStore [slowReplay])
          (scoredConfig negativeZero) slowId.text = .ok payload ∧
        payload.lookup "query".toList = some (.str "slow query") ∧
        payload.lookup "request".toList = some (.obj request) ∧
        (Json.obj request).sorted =
          (Json.obj (recallRequestParameters (scoredConfig negativeZero).recallConfig)).sorted ∧
        ∀ current, diagnosticRequestMatchesCurrent (.obj request) current = true ↔
          recallRequestParameters current =
            recallRequestParameters (scoredConfig negativeZero).recallConfig :=
  have h := record_replays (Stdlib.ofTables [] []) valueEquality slowQuery_ne (by decide)
    slowStore_captured slowStore_stored [slowReplay]
  ⟨slowQuery_ne, by decide, slowStore_captured, slowStore_stored,
    (h.1 (scoredConfig negativeZero) rfl).1 ⟨rfl, rfl⟩⟩

/-- A recorded floor of minus zero: a configuration with a floor of zero has equal parameters and
the same destination, and the loaded request does not match it. -/
theorem signedZero_request :
    Json.pyEq valueEquality
        (.obj (recallRequestParameters (scoredConfig positiveZero).recallConfig))
        (.obj (recallRequestParameters (scoredConfig negativeZero).recallConfig)) = true ∧
      captureRecall (Stdlib.ofTables [] []) Dict.empty (scoredConfig negativeZero) "slow query"
        (recallRequestParameters (scoredConfig negativeZero).recallConfig) slowReport slowId
        "2026-09-21T12:26:40+00:00" false = (.ok (some slowId.text), slowStore) ∧
      ∃ payload request, loadRecallRecord (Stdlib.ofTables [] []) valueEquality slowStore
          (scoredConfig positiveZero) slowId.text = .ok payload ∧
        payload.lookup "request".toList = some (.obj request) ∧
        diagnosticRequestMatchesCurrent (.obj request)
          (scoredConfig positiveZero).recallConfig = false := by
  have hequal : Json.pyEq valueEquality
      (.obj (recallRequestParameters (scoredConfig positiveZero).recallConfig))
      (.obj (recallRequestParameters (scoredConfig negativeZero).recallConfig)) = true := by
    decide +kernel
  refine ⟨hequal, slowStore_captured, ?_⟩
  obtain ⟨payload, hread, hfields⟩ :=
    captureRecall_recorded (distinct_parameters _) slowStore_captured slowStore_stored
  obtain ⟨request, hrequest, hsame⟩ := hfields.hasRequest
  have hdistinct : (Json.obj request).Distinct := hfields.distinct_request hrequest
  have htarget : recallTargetFingerprint (Stdlib.ofTables [] []) (scoredConfig negativeZero) =
      recallTargetFingerprint (Stdlib.ofTables [] []) (scoredConfig positiveZero) := rfl
  have hload : loadRecallRecord (Stdlib.ofTables [] []) valueEquality slowStore
      (scoredConfig positiveZero) slowId.text = _ :=
    load_recorded valueEquality slowId.isRecordId slowQuery_ne (by decide) hread hfields
  rw [if_pos htarget] at hload
  refine ⟨payload, request, hload, hrequest, ?_⟩
  rw [← Bool.not_eq_true, matchesCurrent_iff hdistinct hsame]
  intro heq
  have htexts := congrArg (fun fields => Json.dumps Json.quoteAscii (.obj fields)) heq
  exact absurd htexts (by decide +kernel)

end BetterHindsight
