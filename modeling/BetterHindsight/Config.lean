import BetterHindsight.Foundations.JsonDecode
import BetterHindsight.Redaction

/-! # Configuration

The part of `config.py` that the outbox, the sender and the retained records depend on: URL and tag
canonicalization, the `retain`, `multimodal` and `outbox` sections, and the checks of `load_config`
across them.

* `CanonicalRetainTags`: tags that passed `canonicalize_retain_tags`.
* `BetterHindsightConfig`, `loadConfig`, `Accepted`: an accepted configuration. -/

namespace BetterHindsight
set_option autoImplicit false

/-! ## Constants -/

def LEGACY_PAYLOAD_SCHEMA_VERSION : Text := "better-hindsight-turn-v1"
def PAYLOAD_SCHEMA_VERSION : Text := "better-hindsight-turn-v2"
def RETAINED_EVENT_RECORD_SCHEMA : Text := "better-hindsight-retained-event-v2"
def RETAINED_MODEL_RECORD_SCHEMA : Text := "better-hindsight-retained-memory-v1"
def MULTIMODAL_PAYLOAD_SCHEMA : Text := "better-hindsight-multimodal-v1"

def DEFAULT_API_URL : Text := "http://localhost:8888"
def DEFAULT_BANK_ID : Text := "hermes"
def DEFAULT_RETAIN_SEGMENT_MAX_BYTES : ℤ := 65536
def DEFAULT_OUTBOX_MAX_PENDING_ROWS : ℤ := 2000
def DEFAULT_OUTBOX_MAX_PENDING_BYTES : ℤ := 134217728
def DEFAULT_OUTBOX_POLL_INTERVAL_SECONDS : ℚ := 2
def DEFAULT_OUTBOX_RETRY_INITIAL_SECONDS : ℚ := 2
def DEFAULT_OUTBOX_RETRY_MAX_SECONDS : ℚ := 300
def OUTBOX_ROW_ACCOUNTING_ALLOWANCE_BYTES : ℕ := 1024

def MAX_RETAIN_SEGMENT_BYTES : ℤ := 16777216
def MAX_OUTBOX_PENDING_ROWS : ℤ := 100000
def MAX_OUTBOX_PENDING_BYTES : ℤ := 1073741824
def MIN_OUTBOX_POLL_INTERVAL_SECONDS : ℚ := 1 / 10
def MAX_OUTBOX_POLL_INTERVAL_SECONDS : ℚ := 60
def MAX_OUTBOX_RETRY_SECONDS : ℚ := 3600
def MAX_TAG_COUNT : ℕ := 64
def MAX_TAG_CHARS : ℕ := 256

/-! ## Errors and field checks -/

structure ConfigError where
  message : String
  deriving DecidableEq

/-- `raise _error(message)` -/
def configError {α : Type} (message : String) : Except ConfigError α :=
  .error ⟨"Better Hindsight configuration error: " ++ message⟩

/-- `if condition: raise _error(message)` -/
def rejectIf (condition : Prop) [Decidable condition] (message : String) :
    Except ConfigError Unit :=
  if condition then configError message else .ok ()

theorem rejectIf_ok {condition : Prop} [Decidable condition] {message : String} {u : Unit} :
    rejectIf condition message = .ok u ↔ ¬ condition := by
  unfold rejectIf configError
  split <;> simp_all

theorem bind_ok {ε α β : Type} {x : Except ε α} {f : α → Except ε β} {b : β}
    (h : (x >>= f) = .ok b) : ∃ a, x = .ok a ∧ f a = .ok b := by
  cases x with
  | error e => cases h
  | ok a => exact ⟨a, rfl, h⟩

def containsControl (allowNewline : Bool) (value : Text) : Bool :=
  value.any fun c =>
    (c.toNat < 32 || c.toNat == 127) && !(allowNewline && (c == '\n' || c == '\r' || c == '\t'))

/-- `_parse_exact_nonempty_string`. The check for surrogates cannot fail on a `Text`. -/
def parseExactNonemptyString (value : Text) (fieldName : String) : Except ConfigError Text := do
  rejectIf (value = [] ∨ strip value ≠ value)
    (fieldName ++ " must be a non-empty string without outer whitespace")
  rejectIf (containsControl false value = true)
    (fieldName ++ " must not contain control characters")
  return value

theorem parseExactNonemptyString_idem {value parsed : Text} {name other : String}
    (h : parseExactNonemptyString value name = .ok parsed) :
    parseExactNonemptyString parsed other = .ok parsed := by
  unfold parseExactNonemptyString at h
  obtain ⟨_, h1, h⟩ := bind_ok h
  obtain ⟨_, h2, h⟩ := bind_ok h
  cases h
  rw [rejectIf_ok] at h1 h2
  simp [parseExactNonemptyString, rejectIf, h1, h2]
  rfl

def parseBankId (value : Text) : Except ConfigError Text :=
  parseExactNonemptyString value "bank_id"

def parsePositiveInt (value : ℤ) (fieldName : String) (maximum : ℤ) : Except ConfigError ℤ := do
  rejectIf (value ≤ 0 ∨ value > maximum)
    (fieldName ++ " must be an integer from 1 through " ++ toString maximum)
  return value

/-- The bounds of a message, as the source writes the float. -/
def boundedFloatMessage (fieldName minimum maximum : String) : String :=
  fieldName ++ " must be a number greater than " ++ minimum ++ " and at most " ++ maximum

def parseBoundedFloat (value : PyFloat) (minimum maximum : ℚ) (message : String) :
    Except ConfigError ℚ :=
  match value with
  | .finite q => if q ≤ minimum ∨ q > maximum then configError message else .ok q
  | _ => configError message

def parseClosedBoundedFloat (value : PyFloat) (minimum maximum : ℚ) (message : String) :
    Except ConfigError ℚ :=
  match value with
  | .finite q => if q < minimum ∨ q > maximum then configError message else .ok q
  | _ => configError message

/-! ## API URL -/

def isHostLabel (label : Text) : Bool :=
  let isEdge := fun c : Char => ('a' ≤ c && c ≤ 'z') || ('0' ≤ c && c ≤ '9')
  label.all (fun c => isEdge c || c == '-') && label.head?.any isEdge && label.getLast?.any isEdge

/-- `text.split(".")` -/
def splitDots (t : Text) : List Text := t.splitOn '.'

def normalizeHostname (lib : Stdlib) (hostname : Text) : Except ConfigError Text :=
  let candidate := if hostname.getLast? = some '.' then hostname.dropLast else hostname
  if candidate = [] then configError "api_url must include a valid host"
  else
    match lib.ipAddress candidate with
    | some address => .ok address
    | none =>
      match lib.idna candidate with
      | none => configError "api_url must include a valid host"
      | some ascii =>
        let asciiHostname := lib.lower ascii
        if asciiHostname.length > 253 ∨
            ∃ label ∈ splitDots asciiHostname, label.length > 63 ∨ isHostLabel label = false then
          configError "api_url must include a valid host"
        else .ok asciiHostname

/-- The `:port` of the normalized URL, which the scheme's own port leaves out. -/
def portSuffix (scheme : Text) (port : Option ℕ) : Text :=
  match port with
  | none => []
  | some p =>
    if (scheme = "http".toList ∧ p = 80) ∨ (scheme = "https".toList ∧ p = 443) then []
    else ':' :: Nat.toDigits 10 p

def normalizeApiUrl (lib : Stdlib) (value : Text) : Except ConfigError Text := do
  rejectIf (isBlank value = true) "api_url must be a non-empty HTTP or HTTPS URL"
  let candidate := strip value
  rejectIf (containsControl false candidate = true ∨ '\\' ∈ candidate ∨
    candidate.any isSpace = true) "api_url contains unsupported characters"
  match lib.urlsplit candidate with
  | none => configError "api_url is malformed"
  | some parsed =>
    let scheme := lib.lower parsed.scheme
    rejectIf (scheme ∉ ["http".toList, "https".toList]) "api_url must use http or https"
    rejectIf (parsed.hostname.getD [] = [] ∨ parsed.netloc = []) "api_url must include a host"
    rejectIf (parsed.username ≠ none ∨ parsed.password ≠ none)
      "api_url must not contain embedded credentials"
    rejectIf (parsed.query ≠ [] ∨ parsed.fragment ≠ [])
      "api_url must not contain a query string or fragment"
    let host ← normalizeHostname lib (parsed.hostname.getD [])
    let netloc := if ':' ∈ host then '[' :: (host ++ [']']) else host
    let netloc := netloc ++ portSuffix scheme parsed.port
    -- `rstrip("/")` leaves no path that is a lone slash
    let path := (parsed.path.reverse.dropWhile (· == '/')).reverse
    return lib.urlunsplit scheme netloc path

/-! ## Retain tags -/

/-- `_CanonicalRetainTags`: the one validated, redacted, sorted form of the retain tags. -/
structure CanonicalRetainTags where
  tags : List Text
  exact : ∀ tag ∈ tags, tag ≠ [] ∧ strip tag = tag ∧ containsControl false tag = false ∧
    tag.length ≤ MAX_TAG_CHARS
  nodup : tags.Nodup
  sorted : tags.Pairwise (· ≤ ·)

def CanonicalRetainTags.none : CanonicalRetainTags := ⟨[], by simp, by simp, by simp⟩

theorem CanonicalRetainTags.ext {a b : CanonicalRetainTags} (h : a.tags = b.tags) : a = b := by
  cases a
  cases b
  subst h
  rfl

/-- What `canonicalize_retain_tags` accepts: a list of texts, or tags it returned before. -/
inductive RetainTags where
  | raw (items : List Text)
  | canonical (tags : CanonicalRetainTags)

def RetainTags.items : RetainTags → List Text
  | raw items => items
  | canonical tags => tags.tags

def parseTag (fieldName : String) (item : Text) : Except ConfigError Unit := do
  let _ ← parseExactNonemptyString item (fieldName ++ " entry")
  rejectIf (item.length > MAX_TAG_CHARS)
    (fieldName ++ " entries must contain at most 256 characters")

def parseTags (items : List Text) (fieldName : String) : Except ConfigError (List Text) := do
  rejectIf (items.length > MAX_TAG_COUNT) (fieldName ++ " must contain at most 64 tags")
  items.forM (parseTag fieldName)
  rejectIf (¬ items.Nodup) (fieldName ++ " must not contain duplicates")
  return items

/-- A redacted tag that is no tag any more. -/
def isUnsafeTag (item : Text) : Bool :=
  item == [] || strip item != item || containsControl false item || decide (item.length > MAX_TAG_CHARS)

def canonicalizeRetainTags (lib : Stdlib) : RetainTags → Except ConfigError CanonicalRetainTags
  | .canonical tags => .ok tags
  | .raw value => do
    let items ← parseTags value "retain.tags"
    let redacted := items.map (redactSensitiveText lib)
    if hsafe : ∀ item ∈ redacted, isUnsafeTag item = false then
      if hnodup : redacted.Nodup then
        return {
          tags := redacted.insertionSort (· ≤ ·)
          exact := by
            intro tag htag
            have h := hsafe tag ((List.mem_insertionSort _).mp htag)
            simpa [isUnsafeTag, and_assoc] using h
          nodup := (List.perm_insertionSort _ redacted).nodup_iff.mpr hnodup
          sorted := List.pairwise_insertionSort _ redacted }
      else configError "retain.tags contain distinct entries that collide after redaction"
    else configError "retain.tags could not be safely canonicalized"

/-! ## Sections -/

/-- `None`, `"combined"` and `((),)`. -/
inductive ObservationScopes where
  | unset
  | combined
  | shared
  deriving DecidableEq

/-- A value of `retain.observation_scopes` before parsing. -/
inductive RawScopes where
  | null
  | text (value : Text)
  | list (items : List (List Text))

def parseObservationScopes : RawScopes → Except ConfigError ObservationScopes
  | .null => .ok .unset
  | .text value =>
    if value = "combined".toList then .ok .combined
    else if value = "shared".toList then .ok .shared
    else configError "retain.observation_scopes must be null, combined, shared, or [[]]"
  | .list [] => configError "retain.observation_scopes=[] is ambiguous; write combined explicitly"
  | .list [[]] => .ok .shared
  | .list _ => configError "retain.observation_scopes must be null, combined, shared, or [[]]"

/-- A parsed value, as it is parsed again inside the fingerprint. -/
def ObservationScopes.raw : ObservationScopes → RawScopes
  | unset => .null
  | combined => .text "combined"
  | shared => .list [[]]

theorem parseObservationScopes_raw (s : ObservationScopes) : parseObservationScopes s.raw = .ok s := by
  cases s <;> rfl

structure RetainConfig where
  enabled : Bool
  segmentMaxBytes : ℤ
  observationScopes : ObservationScopes
  tags : CanonicalRetainTags

structure MultimodalConfig where
  enabled : Bool
  allowedRoots : List Text
  maxAttachments : ℤ
  maxDecodedBytes : ℤ
  maxEncodedBytes : ℤ
  deriving DecidableEq

structure OutboxConfig where
  maxPendingRows : ℤ
  maxPendingBytes : ℤ
  pollIntervalSeconds : ℚ
  retryInitialSeconds : ℚ
  retryMaxSeconds : ℚ

/-- `OutboxConfig.payload_schema`, which no configuration sets. -/
def OutboxConfig.payloadSchema (_ : OutboxConfig) : Text := PAYLOAD_SCHEMA_VERSION

structure BetterHindsightConfig where
  apiUrl : Text
  bankId : Text
  singlePrincipal : Bool
  retain : RetainConfig
  multimodal : MultimodalConfig
  outbox : OutboxConfig

/-- The merged mapping that `load_config` reads, its values of the right Python types; `none` is
an absent key. -/
structure RawConfig where
  apiUrl : Option Text
  bankId : Option Text
  singlePrincipal : Option Bool
  retainEnabled : Option Bool
  segmentMaxBytes : Option ℤ
  observationScopes : Option RawScopes
  tags : Option (List Text)
  multimodalEnabled : Option Bool
  allowedRoots : Option (List Text)
  maxAttachments : Option ℤ
  maxDecodedBytes : Option ℤ
  maxEncodedBytes : Option ℤ
  maxPendingRows : Option ℤ
  maxPendingBytes : Option ℤ
  pollIntervalSeconds : Option PyFloat
  retryInitialSeconds : Option PyFloat
  retryMaxSeconds : Option PyFloat

def RawConfig.empty : RawConfig :=
  ⟨none, none, none, none, none, none, none, none, none, none, none, none, none, none, none, none,
    none⟩

def parseRetain (lib : Stdlib) (raw : RawConfig) : Except ConfigError RetainConfig := do
  let segmentMaxBytes ← parsePositiveInt
    (raw.segmentMaxBytes.getD DEFAULT_RETAIN_SEGMENT_MAX_BYTES) "retain.segment_max_bytes"
    MAX_RETAIN_SEGMENT_BYTES
  let observationScopes ← parseObservationScopes (raw.observationScopes.getD .null)
  let tags ← canonicalizeRetainTags lib (.raw (raw.tags.getD []))
  return { enabled := raw.retainEnabled.getD false, segmentMaxBytes, observationScopes, tags }

/-- One entry of `multimodal.allowed_roots`. -/
def parseRoot (lib : Stdlib) (value : Text) : Except ConfigError Text := do
  rejectIf (value = [] ∨ (lib.pathParts value).head?.all (·.head? ≠ some '/') = true)
    "multimodal.allowed_roots requires absolute directory paths"
  rejectIf ("..".toList ∈ lib.pathParts value ∨ lib.pathText value = "/".toList)
    "multimodal.allowed_roots must be narrow directory roots"
  rejectIf (lib.resolve value = "/".toList)
    "multimodal.allowed_roots must be narrow directory roots"
  return lib.resolve value

/-- `sorted(set(paths))` -/
def sortedPaths (lib : Stdlib) (paths : List Text) : List Text :=
  paths.dedup.insertionSort fun a b => lib.pathParts a ≤ lib.pathParts b

def parseMultimodal (lib : Stdlib) (raw : RawConfig) : Except ConfigError MultimodalConfig := do
  let roots := raw.allowedRoots.getD []
  rejectIf (roots.length > 16)
    "multimodal.allowed_roots requires at most 16 absolute directory paths"
  let validated ← roots.mapM (parseRoot lib)
  let enabled := raw.multimodalEnabled.getD false
  rejectIf (enabled = true ∧ validated = []) "multimodal.enabled requires allowed_roots"
  let maxAttachments ← parsePositiveInt (raw.maxAttachments.getD 4) "multimodal.max_attachments" 16
  let maxDecodedBytes ← parsePositiveInt (raw.maxDecodedBytes.getD 8388608)
    "multimodal.max_decoded_bytes" 16777216
  let maxEncodedBytes ← parsePositiveInt (raw.maxEncodedBytes.getD 12582912)
    "multimodal.max_encoded_bytes" 25165824
  return {
    enabled
    allowedRoots := sortedPaths lib validated
    maxAttachments
    maxDecodedBytes
    maxEncodedBytes }

def parseOutbox (raw : RawConfig) : Except ConfigError OutboxConfig := do
  let maxPendingRows ← parsePositiveInt (raw.maxPendingRows.getD DEFAULT_OUTBOX_MAX_PENDING_ROWS)
    "outbox.max_pending_rows" MAX_OUTBOX_PENDING_ROWS
  let maxPendingBytes ← parsePositiveInt (raw.maxPendingBytes.getD DEFAULT_OUTBOX_MAX_PENDING_BYTES)
    "outbox.max_pending_bytes" MAX_OUTBOX_PENDING_BYTES
  let pollIntervalSeconds ← parseClosedBoundedFloat
    (raw.pollIntervalSeconds.getD (.finite DEFAULT_OUTBOX_POLL_INTERVAL_SECONDS))
    MIN_OUTBOX_POLL_INTERVAL_SECONDS MAX_OUTBOX_POLL_INTERVAL_SECONDS
    "outbox.poll_interval_seconds must be a number from 0.1 through 60.0"
  let retryInitialSeconds ← parseBoundedFloat
    (raw.retryInitialSeconds.getD (.finite DEFAULT_OUTBOX_RETRY_INITIAL_SECONDS)) 0
    MAX_OUTBOX_RETRY_SECONDS (boundedFloatMessage "outbox.retry_initial_seconds" "0.0" "3600.0")
  let retryMaxSeconds ← parseBoundedFloat
    (raw.retryMaxSeconds.getD (.finite DEFAULT_OUTBOX_RETRY_MAX_SECONDS)) 0
    MAX_OUTBOX_RETRY_SECONDS (boundedFloatMessage "outbox.retry_max_seconds" "0.0" "3600.0")
  return ⟨maxPendingRows, maxPendingBytes, pollIntervalSeconds, retryInitialSeconds,
    retryMaxSeconds⟩

/-! ## Smallest retained records -/

def roleJson (role content : Text) : Json :=
  .obj [("role", .str role), ("content", .str content)]

def minimumRetainedContentBytes (tags : List Text) (roles : List Json) : ℕ :=
  utf8Len (Json.dumps Json.quoteRaw (.obj [
    ("event_id", .str (List.replicate 32 '0')),
    ("occurred_at", .str "2000-01-01T00:00:00.000000+00:00"),
    ("payload_schema", .str PAYLOAD_SCHEMA_VERSION),
    ("record_schema", .str RETAINED_EVENT_RECORD_SCHEMA),
    ("roles", .arr roles),
    ("session_sha256", .str (List.replicate 64 '0')),
    ("tags", .arr (tags.map .str))]))

def minimumRetainedSegmentBytes (tags : List Text) (maxPendingRows : ℤ) : ℕ :=
  minimumRetainedContentBytes tags
    (if maxPendingRows = 1 then [roleJson "user" "x", roleJson "assistant" "x"]
      else [roleJson "assistant" "x"])

def minimumRetainedAdmissionBytes (tags : List Text) (maxPendingRows segmentMaxBytes : ℤ) : ℕ :=
  let completeBytes := minimumRetainedContentBytes tags
    [roleJson "user" "x", roleJson "assistant" "x"]
  if maxPendingRows = 1 ∨ (completeBytes : ℤ) ≤ segmentMaxBytes then
    completeBytes + OUTBOX_ROW_ACCOUNTING_ALLOWANCE_BYTES
  else
    minimumRetainedContentBytes tags [roleJson "user" "x"] +
      minimumRetainedContentBytes tags [roleJson "assistant" "x"] +
      2 * OUTBOX_ROW_ACCOUNTING_ALLOWANCE_BYTES

/-! ## Loading -/

def loadConfig (lib : Stdlib) (raw : RawConfig) : Except ConfigError BetterHindsightConfig := do
  let apiUrl ← normalizeApiUrl lib (raw.apiUrl.getD DEFAULT_API_URL)
  let bankId ← parseBankId (raw.bankId.getD DEFAULT_BANK_ID)
  let singlePrincipal := raw.singlePrincipal.getD false
  let retain ← parseRetain lib raw
  let multimodal ← parseMultimodal lib raw
  let outbox ← parseOutbox raw
  rejectIf (retain.observationScopes = .shared ∧ singlePrincipal = false)
    "retain.observation_scopes='shared' requires explicit single_principal=true"
  let minimumSegmentBytes := minimumRetainedSegmentBytes retain.tags.tags outbox.maxPendingRows
  rejectIf (retain.enabled = true ∧ retain.segmentMaxBytes < minimumSegmentBytes)
    ("retain.segment_max_bytes must be at least " ++ toString minimumSegmentBytes ++
      " bytes for the retained event envelope with configured tags")
  rejectIf (retain.segmentMaxBytes + OUTBOX_ROW_ACCOUNTING_ALLOWANCE_BYTES > outbox.maxPendingBytes)
    ("retain.segment_max_bytes plus the code-owned row allowance must not exceed " ++
      "outbox.max_pending_bytes")
  rejectIf (retain.enabled = true ∧ (minimumRetainedAdmissionBytes retain.tags.tags
      outbox.maxPendingRows retain.segmentMaxBytes : ℤ) > outbox.maxPendingBytes)
    ("outbox.max_pending_bytes must fit the complete smallest retained event admission " ++
      "with configured tags")
  rejectIf (outbox.retryInitialSeconds > outbox.retryMaxSeconds)
    "outbox.retry_initial_seconds must not exceed outbox.retry_max_seconds"
  return ⟨apiUrl, bankId, singlePrincipal, retain, multimodal, outbox⟩

/-- `config` is what `load_config` returns for some configuration. -/
def Accepted (lib : Stdlib) (config : BetterHindsightConfig) : Prop :=
  ∃ raw, loadConfig lib raw = .ok config

/-- What `load_config` took care of. -/
theorem Accepted.fields {lib : Stdlib} {config : BetterHindsightConfig}
    (h : Accepted lib config) :
    (∃ raw, normalizeApiUrl lib raw = .ok config.apiUrl) ∧
      parseBankId config.bankId = .ok config.bankId ∧
      ∃ raw, parseOutbox raw = .ok config.outbox := by
  obtain ⟨raw, h⟩ := h
  unfold loadConfig at h
  obtain ⟨apiUrl, hurl, h⟩ := bind_ok h
  obtain ⟨bankId, hbank, h⟩ := bind_ok h
  obtain ⟨retain, -, h⟩ := bind_ok h
  obtain ⟨multimodal, -, h⟩ := bind_ok h
  obtain ⟨outbox, houtbox, h⟩ := bind_ok h
  obtain ⟨-, -, h⟩ := bind_ok h
  obtain ⟨-, -, h⟩ := bind_ok h
  obtain ⟨-, -, h⟩ := bind_ok h
  obtain ⟨-, -, h⟩ := bind_ok h
  obtain ⟨-, -, h⟩ := bind_ok h
  cases h
  exact ⟨⟨_, hurl⟩, parseExactNonemptyString_idem hbank, _, houtbox⟩

theorem parseBoundedFloat_ok {value : PyFloat} {minimum maximum q : ℚ} {message : String}
    (h : parseBoundedFloat value minimum maximum message = .ok q) : minimum < q ∧ q ≤ maximum := by
  unfold parseBoundedFloat configError at h
  split at h
  · split at h
    · cases h
    · rename_i hq
      cases h
      simpa using hq
  · cases h

theorem Accepted.retryInitial_pos {lib : Stdlib} {config : BetterHindsightConfig}
    (h : Accepted lib config) : 0 < config.outbox.retryInitialSeconds := by
  obtain ⟨-, -, raw, h⟩ := h.fields
  unfold parseOutbox at h
  obtain ⟨maxPendingRows, -, h⟩ := bind_ok h
  obtain ⟨maxPendingBytes, -, h⟩ := bind_ok h
  obtain ⟨pollIntervalSeconds, -, h⟩ := bind_ok h
  obtain ⟨retryInitialSeconds, hinitial, h⟩ := bind_ok h
  obtain ⟨retryMaxSeconds, -, h⟩ := bind_ok h
  rw [← Except.ok.inj h]
  exact (parseBoundedFloat_ok hinitial).1

/-! ## Defaults -/

/-- What an empty mapping stands for. -/
def defaultConfig : BetterHindsightConfig where
  apiUrl := DEFAULT_API_URL
  bankId := DEFAULT_BANK_ID
  singlePrincipal := false
  retain := ⟨false, DEFAULT_RETAIN_SEGMENT_MAX_BYTES, .unset, .none⟩
  multimodal := ⟨false, [], 4, 8388608, 12582912⟩
  outbox := ⟨DEFAULT_OUTBOX_MAX_PENDING_ROWS, DEFAULT_OUTBOX_MAX_PENDING_BYTES,
    DEFAULT_OUTBOX_POLL_INTERVAL_SECONDS, DEFAULT_OUTBOX_RETRY_INITIAL_SECONDS,
    DEFAULT_OUTBOX_RETRY_MAX_SECONDS⟩

theorem parseRetain_empty (lib : Stdlib) :
    parseRetain lib .empty = .ok defaultConfig.retain := by
  have htags : parseTags [] "retain.tags" = .ok [] := by
    simp [parseTags, rejectIf, pure, Except.pure, bind, Except.bind]
  have hcanonical : canonicalizeRetainTags lib (.raw []) = .ok .none := by
    simp [canonicalizeRetainTags, CanonicalRetainTags.none, htags, pure, Except.pure, bind,
      Except.bind]
  have hmax : parsePositiveInt DEFAULT_RETAIN_SEGMENT_MAX_BYTES "retain.segment_max_bytes"
      MAX_RETAIN_SEGMENT_BYTES = .ok DEFAULT_RETAIN_SEGMENT_MAX_BYTES := by decide +kernel
  simp only [parseRetain, RawConfig.empty, Option.getD_none, hmax, hcanonical]
  rfl

theorem parseMultimodal_empty (lib : Stdlib) :
    parseMultimodal lib .empty = .ok defaultConfig.multimodal := by
  rfl

theorem parseOutbox_empty : parseOutbox .empty = .ok defaultConfig.outbox := by
  have hpoll : ¬ (DEFAULT_OUTBOX_POLL_INTERVAL_SECONDS < MIN_OUTBOX_POLL_INTERVAL_SECONDS ∨
      DEFAULT_OUTBOX_POLL_INTERVAL_SECONDS > MAX_OUTBOX_POLL_INTERVAL_SECONDS) := by decide +kernel
  have hinitial : ¬ (DEFAULT_OUTBOX_RETRY_INITIAL_SECONDS ≤ 0 ∨
      DEFAULT_OUTBOX_RETRY_INITIAL_SECONDS > MAX_OUTBOX_RETRY_SECONDS) := by decide +kernel
  have hmax : ¬ (DEFAULT_OUTBOX_RETRY_MAX_SECONDS ≤ 0 ∨
      DEFAULT_OUTBOX_RETRY_MAX_SECONDS > MAX_OUTBOX_RETRY_SECONDS) := by decide +kernel
  simp only [parseOutbox, RawConfig.empty, Option.getD_none, parseClosedBoundedFloat,
    parseBoundedFloat, if_neg hpoll, if_neg hinitial, if_neg hmax]
  rfl

/-- Every default passes its own check, whichever bank is chosen. -/
theorem loadConfig_bank {lib : Stdlib}
    (h : normalizeApiUrl lib DEFAULT_API_URL = .ok DEFAULT_API_URL) {bankId : Text}
    (hbank : parseBankId bankId = .ok bankId) :
    loadConfig lib { RawConfig.empty with bankId := some bankId } =
      .ok { defaultConfig with bankId } := by
  have hretain : parseRetain lib { RawConfig.empty with bankId := some bankId } = _ :=
    parseRetain_empty lib
  have hmultimodal : parseMultimodal lib { RawConfig.empty with bankId := some bankId } = _ :=
    parseMultimodal_empty lib
  have houtbox : parseOutbox { RawConfig.empty with bankId := some bankId } = _ :=
    parseOutbox_empty
  have hretry : ¬ (defaultConfig.outbox.retryInitialSeconds >
      defaultConfig.outbox.retryMaxSeconds) := by decide +kernel
  unfold loadConfig
  rw [hretain, hmultimodal, houtbox]
  simp only [RawConfig.empty, Option.getD_none, Option.getD_some, h, hbank, rejectIf, bind,
    Except.bind, if_neg hretry]
  rfl

end BetterHindsight
