import BetterHindsight.Retention.Segment

/-! # Building retained segments

`_build_retained_segments` of `retention.py`: the common fields of a record, the cut of a turn into
records within the byte limit, and the segments with their hashes. -/

namespace BetterHindsight
set_option autoImplicit false

inductive RetentionError where
  /-- `RetentionConstructionError` -/
  | construction
  /-- `RetentionCapacityError` -/
  | capacity
  deriving DecidableEq

def RETENTION_REJECTED_MESSAGE : String := "Better Hindsight retention input was rejected."

/-- Both errors cross the boundary with the one fixed message. -/
def RetentionError.message (_ : RetentionError) : String := RETENTION_REJECTED_MESSAGE

def DOCUMENT_ID_PREFIX : Text := PAYLOAD_SCHEMA_VERSION ++ [':']

structure RetainedRole where
  name : Text
  content : Text
  contextPrefix : Option Text

/-! ## Paragraphs -/

/-- `\r\n|[\r\n]` -/
def lineBreak : Regex := .alt (.lit "\r\n") (.chr fun c => c == '\r' || c == '\n')

/-- `(?:\r\n|[\r\n])(?:[ \t]*(?:\r\n|[\r\n]))+` -/
def PARAGRAPH_SEPARATOR_PATTERN : Regex :=
  .seq lineBreak (.atLeast 1 (.seq (.many true (.chr isBlankChar)) lineBreak))

/-- The loop of `_semantic_paragraphs`: nonblank gaps, each with the last separator before it. -/
def collectParagraphs (separator : Text) : List (Text × Regex.Match) → Text → List (Text × Text)
  | [], tail => if isBlank tail then [] else [(separator, tail)]
  | (paragraph, m) :: rest, tail =>
    if isBlank paragraph then collectParagraphs m.text rest tail
    else (separator, paragraph) :: collectParagraphs m.text rest tail

def semanticParagraphs (text : Text) : Except RetentionError (List (Text × Text)) :=
  let (gaps, tail) := PARAGRAPH_SEPARATOR_PATTERN.finditer text
  let paragraphs := collectParagraphs [] gaps tail
  if paragraphs = [] then .error .construction else .ok paragraphs

/-! ## Records -/

/-- `_role_payload`; `none` is the role's own content. -/
def rolePayload (role : RetainedRole) (content : Option Text) : Json :=
  let rendered := content.getD role.content
  let rendered := match role.contextPrefix with
    | none => rendered
    | some p => p ++ "\n\n".toList ++ rendered
  .obj [("role", .str role.name), ("content", .str rendered)]

/-- `_event_content` -/
def eventContent (common : List (Text × Json)) (roles : List Json) : Text :=
  canonicalJson (.obj (common ++ [("roles".toList, .arr roles)]))

/-- The records so far, and the paragraphs packed for the next one. -/
structure Packing where
  contents : List Text
  packed : List Text
  packedBytes : ℕ

/-- What stays the same while one role is packed. -/
structure PackContext where
  common : List (Text × Json)
  role : RetainedRole
  maxBytes : ℤ
  segmentCountLimit : Option ℤ

def PackContext.record (ctx : PackContext) (content : Option Text) : Text :=
  eventContent ctx.common [rolePayload ctx.role content]

def PackContext.overhead (ctx : PackContext) : ℕ := utf8Len (ctx.record (some []))

/-- Whether the code's own comparison with the segment cap fails. -/
def overLimit (segmentCountLimit : Option ℤ) (exceeds : ℤ → Bool) : Bool :=
  match segmentCountLimit with
  | none => false
  | some limit => exceeds limit

/-- Starts a new record where the paragraph does not fit into the packed one. -/
def PackContext.flush (ctx : PackContext) (separatorBytes paragraphBytes : ℕ) (p : Packing) :
    Except RetentionError Packing :=
  if p.packed ≠ [] ∧ (p.packedBytes + separatorBytes + paragraphBytes : ℕ) > ctx.maxBytes then
    let contents := p.contents ++ [ctx.record (some p.packed.flatten)]
    if overLimit ctx.segmentCountLimit fun limit => contents.length ≥ limit then .error .capacity
    else .ok ⟨contents, [], ctx.overhead⟩
  else .ok p

/-- One round of the packing loop. -/
def PackContext.pack (ctx : PackContext) (p : Packing) (entry : Text × Text) :
    Except RetentionError Packing :=
  let (separator, paragraph) := entry
  -- JSON string escaping is additive; omit the two surrounding quotes
  let paragraphBytes := utf8Len (canonicalJson (.str paragraph)) - 2
  let separatorBytes := utf8Len (canonicalJson (.str separator)) - 2
  if ((ctx.overhead + paragraphBytes : ℕ) : ℤ) > ctx.maxBytes then .error .capacity
  else
    match ctx.flush separatorBytes paragraphBytes p with
    | .error e => .error e
    | .ok p =>
      if p.packed = [] then
        .ok ⟨p.contents, [paragraph], p.packedBytes + paragraphBytes⟩
      else
        .ok ⟨p.contents, p.packed ++ [separator, paragraph],
          p.packedBytes + separatorBytes + paragraphBytes⟩

def PackContext.packAll (ctx : PackContext) :
    List (Text × Text) → Packing → Except RetentionError Packing
  | [], p => .ok p
  | entry :: entries, p =>
    match ctx.pack p entry with
    | .error e => .error e
    | .ok p => ctx.packAll entries p

/-- The records as they are, unless they exceed the segment cap. -/
def capContents (segmentCountLimit : Option ℤ) (contents : List Text) :
    Except RetentionError (List Text) :=
  if overLimit segmentCountLimit fun limit => contents.length > limit then .error .capacity
  else .ok contents

/-- The records of one role, after the `contents` of the roles before it. -/
def PackContext.roleContents (ctx : PackContext) (contents : List Text) :
    Except RetentionError (List Text) :=
  let completeRole := ctx.record none
  if (utf8Len completeRole : ℤ) ≤ ctx.maxBytes then
    capContents ctx.segmentCountLimit (contents ++ [completeRole])
  else
    match semanticParagraphs ctx.role.content with
    | .error e => .error e
    | .ok paragraphs =>
      match ctx.packAll paragraphs ⟨contents, [], ctx.overhead⟩ with
      | .error e => .error e
      | .ok p =>
        capContents ctx.segmentCountLimit (p.contents ++ [ctx.record (some p.packed.flatten)])

/-- The records of all roles, in order. -/
def rolesContents (common : List (Text × Json)) (maxBytes : ℤ) (segmentCountLimit : Option ℤ) :
    List RetainedRole → List Text → Except RetentionError (List Text)
  | [], contents => .ok contents
  | role :: roles, contents =>
    match PackContext.roleContents ⟨common, role, maxBytes, segmentCountLimit⟩ contents with
    | .error e => .error e
    | .ok contents => rolesContents common maxBytes segmentCountLimit roles contents

def semanticContents (common : List (Text × Json)) (roles : List RetainedRole) (maxBytes : ℤ)
    (segmentCountLimit : Option ℤ) : Except RetentionError (List Text) :=
  let complete := eventContent common (roles.map fun role => rolePayload role none)
  if (utf8Len complete : ℤ) ≤ maxBytes then
    if overLimit segmentCountLimit fun limit => limit < 1 then .error .capacity
    else .ok [complete]
  else
    match rolesContents common maxBytes segmentCountLimit roles [] with
    | .error e => .error e
    | .ok contents => if contents = [] then .error .construction else .ok contents

/-! ## The builder -/

/-- The inputs of one build. The event id and the occurrence time are what `_new_event_id` and
`_capture_occurrence_time` return; a model-selected memory uses neither. -/
structure TurnInput where
  sessionId : Text
  userContent : Text
  assistantContent : Text
  tags : RetainTags
  segmentMaxBytes : ℤ
  segmentCountLimit : Option ℤ
  assistantContext : Option Text
  modelSelected : Bool
  eventId : Text
  occurredAt : UtcDateTime

/-- The checks at the head of the builder. -/
def TurnInput.isAcceptable (turn : TurnInput) : Bool :=
  !isBlank turn.userContent && !isBlank turn.assistantContent &&
    decide (0 < turn.segmentMaxBytes) && turn.assistantContext.all (fun t => !isBlank t) &&
    turn.segmentCountLimit.all (fun limit => decide (0 < limit)) &&
    turn.tags.items.all (fun tag => tag != [] && strip tag == tag) &&
    decide turn.tags.items.Nodup

/-- The fields that every record of a turn starts with. -/
def commonFields (lib : Stdlib) (sessionId : Text) (tags : List Text) : List (Text × Json) :=
  [("payload_schema", .str PAYLOAD_SCHEMA_VERSION),
    ("session_sha256", .str (lib.sha256Text sessionId).text),
    ("tags", .arr (tags.map .str))]

def TurnInput.roles (lib : Stdlib) (turn : TurnInput) : List RetainedRole :=
  [⟨"user", redactSensitiveText lib turn.userContent, none⟩,
    ⟨"assistant", redactSensitiveText lib turn.assistantContent,
      turn.assistantContext.map fun context =>
        "Context: ".toList ++ redactSensitiveText lib context⟩]

/-- `memory_id` -/
def memoryId (lib : Stdlib) (common : List (Text × Json)) (roles : List RetainedRole) : Text :=
  (lib.sha256Text (canonicalJson (.obj (common ++
    [("record_schema".toList, .str RETAINED_MODEL_RECORD_SCHEMA),
      ("roles".toList, .arr (roles.map fun role => rolePayload role none))])))).text.take 32

/-- The fields that tell an automatic turn from a model-selected memory. -/
def TurnInput.identityFields (lib : Stdlib) (turn : TurnInput) (common : List (Text × Json)) :
    Except RetentionError (List (Text × Json)) :=
  if turn.modelSelected then
    .ok [("memory_id", .str (memoryId lib common (turn.roles lib))),
      ("record_schema", .str RETAINED_MODEL_RECORD_SCHEMA)]
  else if isHex 32 turn.eventId = false ∨ turn.occurredAt.isoformat = [] then .error .construction
  else
    .ok [("event_id", .str turn.eventId), ("occurred_at", .str turn.occurredAt.isoformat),
      ("record_schema", .str RETAINED_EVENT_RECORD_SCHEMA)]

/-- The segments of records that are complete. -/
def segmentsOf (lib : Stdlib) (contents : List Text) : List RetainedSegment :=
  let source := (lib.sha256Text contents.flatten).text
  let count : ℤ := contents.length
  contents.zipIdx.map fun (content, index) =>
    let payloadHash := deriveSegmentPayloadHash lib PAYLOAD_SCHEMA_VERSION source index count content
    { documentId := DOCUMENT_ID_PREFIX ++ payloadHash
      payloadHash
      payloadSchema := PAYLOAD_SCHEMA_VERSION
      sourceSha256 := source
      segmentIndex := index
      segmentCount := count
      content }

def buildRetainedSegments (lib : Stdlib) (turn : TurnInput) :
    Except RetentionError (List RetainedSegment) :=
  if turn.isAcceptable = false then .error .construction
  else
    match canonicalizeRetainTags lib turn.tags with
    | .error _ => .error .construction
    | .ok canonicalTags =>
      let common := commonFields lib turn.sessionId canonicalTags.tags
      match turn.identityFields lib common with
      | .error e => .error e
      | .ok identity =>
        match semanticContents (common ++ identity) (turn.roles lib) turn.segmentMaxBytes
            turn.segmentCountLimit with
        | .error e => .error e
        | .ok contents => .ok (segmentsOf lib contents)

/-! ## The occurrence time of a record -/

/-- `value.get(key)` of a decoded document that is an object. -/
def decodedField (content key : Text) : Option Json :=
  match Json.loads content with
  | some (.obj fields) => fields.lookup key
  | _ => none

/-- The `occurred_at` of a v2 record; legacy v1 content has none. -/
def retainedEventTimestamp (lib : Stdlib) (content : Text) : Option Text :=
  match decodedField content "record_schema".toList, decodedField content "occurred_at".toList with
  | some (.str schema), some (.str timestamp) =>
    if schema = RETAINED_EVENT_RECORD_SCHEMA ∧ timestamp ≠ [] ∧
        lib.fromIsoformat timestamp = some true then
      some timestamp
    else none
  | _, _ => none

end BetterHindsight
