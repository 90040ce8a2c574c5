import BetterHindsight.Outbox.AdmissionSpec
import BetterHindsight.Retention.Records

/-! # Built turns

What `build_retained_segments` returns, seen from the outbox that admits it and from a reader of
its records.

* `build_accepted`: a built turn passes the candidate validation of an outbox with the same limit.
* `build_limit`: a segment cap only rejects.
* `decodedRoles`, `roleBodies`: what a reader finds of a role in the records.
* `build_loses_nothing`: the records decode to the common fields and the redacted texts. -/

namespace BetterHindsight
set_option autoImplicit false

/-! ## The parts of a build -/

theorem build_ok {lib : Stdlib} {turn : TurnInput} {segments : List RetainedSegment}
    (h : buildRetainedSegments lib turn = .ok segments) :
    turn.isAcceptable = true ∧ ∃ tags identity contents,
      canonicalizeRetainTags lib turn.tags = .ok tags ∧
      turn.identityFields lib (commonFields lib turn.sessionId tags.tags) = .ok identity ∧
      semanticContents (commonFields lib turn.sessionId tags.tags ++ identity) (turn.roles lib)
        turn.segmentMaxBytes turn.segmentCountLimit = .ok contents ∧
      segments = segmentsOf lib contents := by
  unfold buildRetainedSegments at h
  split at h
  · cases h
  · rename_i hacc
    split at h
    · cases h
    · rename_i tags htags
      simp only at h
      split at h
      · cases h
      · rename_i identity hidentity
        split at h
        · cases h
        · rename_i contents hcontents
          cases h
          exact ⟨by simpa using hacc, tags, identity, contents, htags, hidentity, hcontents, rfl⟩

theorem build_of_ok {lib : Stdlib} {turn : TurnInput} {tags : CanonicalRetainTags}
    {identity : List (Text × Json)} {contents : List Text} (hacc : turn.isAcceptable = true)
    (htags : canonicalizeRetainTags lib turn.tags = .ok tags)
    (hidentity : turn.identityFields lib (commonFields lib turn.sessionId tags.tags) = .ok identity)
    (hcontents : semanticContents (commonFields lib turn.sessionId tags.tags ++ identity)
      (turn.roles lib) turn.segmentMaxBytes turn.segmentCountLimit = .ok contents) :
    buildRetainedSegments lib turn = .ok (segmentsOf lib contents) := by
  rw [buildRetainedSegments, if_neg (by simp [hacc])]
  simp only [htags, hidentity, hcontents]

theorem roles_names_nodup (lib : Stdlib) (turn : TurnInput) :
    ((turn.roles lib).map fun role => role.name).Nodup := by
  show List.Nodup ["user".toList, "assistant".toList]
  decide

/-! ## Segments -/

theorem segmentsOf_length (lib : Stdlib) (contents : List Text) :
    (segmentsOf lib contents).length = contents.length := by
  simp [segmentsOf]

theorem segmentsOf_content (lib : Stdlib) (contents : List Text) :
    (segmentsOf lib contents).map (fun s => s.content) = contents := by
  simp [segmentsOf, Function.comp_def]

theorem segmentsOf_index (lib : Stdlib) (contents : List Text) :
    (segmentsOf lib contents).map (fun s => s.segmentIndex) =
      (List.range contents.length).map Int.ofNat := by
  rw [segmentsOf, List.map_map]
  have h : (contents.zipIdx.map Prod.snd) = List.range contents.length := by
    simp [List.range_eq_range']
  rw [← h, List.map_map]
  rfl

theorem mem_segmentsOf {lib : Stdlib} {contents : List Text} {s : RetainedSegment}
    (h : s ∈ segmentsOf lib contents) :
    s.content ∈ contents ∧ s.payloadSchema = PAYLOAD_SCHEMA_VERSION ∧
      s.sourceSha256 = (lib.sha256Text contents.flatten).text ∧
      s.segmentCount = contents.length ∧ 0 ≤ s.segmentIndex ∧ s.segmentIndex < contents.length ∧
      s.payloadHash = deriveSegmentPayloadHash lib s.payloadSchema s.sourceSha256 s.segmentIndex
        s.segmentCount s.content ∧
      s.documentId = s.payloadSchema ++ ':' :: s.payloadHash := by
  obtain ⟨⟨content, index⟩, hmem, rfl⟩ := List.mem_map.mp h
  have hlt : index < contents.length := by
    have := List.snd_lt_of_mem_zipIdx hmem
    simpa using this
  refine ⟨List.fst_mem_of_mem_zipIdx hmem, rfl, rfl, rfl, by simp, by simpa using hlt, rfl, ?_⟩
  simp [DOCUMENT_ID_PREFIX]

/-- The texts hashed for the payload hashes of some segments. -/
def payloadTexts (segments : List RetainedSegment) (t : Text) : Prop :=
  ∃ s ∈ segments, t = canonicalJson (segmentRecord s.payloadSchema s.sourceSha256 s.segmentIndex
    s.segmentCount s.content)

/-- Segments of different indices have different document ids. -/
theorem segmentsOf_documentIds {lib : Stdlib} {contents : List Text}
    (hcf : lib.CollisionFree (payloadTexts (segmentsOf lib contents))) :
    ((segmentsOf lib contents).map fun s => s.documentId).Nodup := by
  have hidx : ((segmentsOf lib contents).map fun s => s.segmentIndex).Nodup := by
    rw [segmentsOf_index]
    exact List.nodup_range.map fun a b h => by simpa using h
  refine List.Nodup.map_on ?_ hidx.of_map
  intro a ha b hb hid
  obtain ⟨-, hsa, -, -, -, -, hpa, hda⟩ := mem_segmentsOf ha
  obtain ⟨-, hsb, -, -, -, -, hpb, hdb⟩ := mem_segmentsOf hb
  have hhash : a.payloadHash = b.payloadHash := by
    rw [hda, hdb, hsa, hsb] at hid
    exact (List.cons.inj (List.append_cancel_left hid)).2
  rw [hpa, hpb] at hhash
  have hrecord := hcf _ _ ⟨a, ha, rfl⟩ ⟨b, hb, rfl⟩ (HexDigest.ext hhash)
  exact List.inj_on_of_nodup_map hidx ha hb (segmentRecord_injective hrecord).2.2.1

theorem eventContent_ne_nil (common : List (Text × Json)) (roles : List Json) :
    eventContent common roles ≠ [] := by
  rw [eventContent, canonicalJson, Json.dumps_obj]
  simp

/-- **A built turn is one complete valid turn** of an outbox with the same limit. -/
theorem build_accepted {lib : Stdlib} {turn : TurnInput} {segments : List RetainedSegment}
    {outbox : SQLiteOutbox} (h : buildRetainedSegments lib turn = .ok segments)
    (hmax : outbox.segmentMaxBytes = turn.segmentMaxBytes)
    (hcf : lib.CollisionFree (payloadTexts segments)) :
    outbox.IsTurnOf lib segments segments := by
  obtain ⟨-, tags, identity, contents, -, -, hcontents, rfl⟩ := build_ok h
  obtain ⟨hne, records, hrecords, hspells⟩ :=
    semanticContents_spec (roles_names_nodup lib turn) hcontents
  have hlen := segmentsOf_length lib contents
  refine ⟨fun _ => Iff.rfl, ?_, segmentsOf_documentIds hcf, ?_, ?_, ?_, ?_, ?_⟩
  · intro hnil
    rw [hnil] at hlen
    exact hne (List.length_eq_zero_iff.mp hlen.symm)
  · intro s hs
    obtain ⟨hc, hschema, hsource, hcount, h0, hlt, hhash, hid⟩ := mem_segmentsOf hs
    have hnmm : s.payloadSchema ≠ MULTIMODAL_PAYLOAD_SCHEMA := by
      rw [hschema]
      decide
    obtain ⟨record, hrecord, hrc⟩ : ∃ record ∈ records, recordOf _ record = s.content := by
      rw [hrecords] at hc
      exact List.mem_map.mp hc
    exact {
      schema := .inl hschema
      multimodal := fun hmm => absurd hmm hnmm
      sourceHex := by
        rw [hsource]
        exact HexDigest.isHex _
      index_nonneg := h0
      index_lt := by rwa [hcount]
      content_ne := by
        rw [← hrc]
        exact eventContent_ne_nil _ _
      content_le := by
        rw [SQLiteOutbox.contentLimit, if_neg hnmm, hmax, ← hrc]
        exact hspells.le record hrecord
      payloadHash := hhash
      documentId := hid }
  · rw [segmentsOf_index, hlen]
  · intro s hs
    rw [(mem_segmentsOf hs).2.2.2.1, hlen]
  · intro a ha b hb
    rw [(mem_segmentsOf ha).2.1, (mem_segmentsOf hb).2.1]
  · intro s hs
    have hjoin : SQLiteOutbox.joinedContent (segmentsOf lib contents) = contents.flatten := by
      rw [SQLiteOutbox.joinedContent, List.flatMap_def, segmentsOf_content]
    rw [(mem_segmentsOf hs).2.2.1, hjoin]

/-! ## The segment cap -/

/-- The same turn under another segment cap. -/
def TurnInput.withLimit (turn : TurnInput) (limit : Option ℤ) : TurnInput :=
  { turn with segmentCountLimit := limit }

theorem isAcceptable_withLimit (turn : TurnInput) (limit : ℤ) :
    (turn.withLimit (some limit)).isAcceptable = true ↔
      (turn.withLimit none).isAcceptable = true ∧ 0 < limit := by
  simp only [TurnInput.isAcceptable, TurnInput.withLimit, Bool.and_eq_true, Option.all_some,
    Option.all_none, decide_eq_true_eq]
  tauto

/-- **A segment cap only rejects**: the capped build returns what the uncapped one returns, exactly
when that has at most as many segments. -/
theorem build_limit (lib : Stdlib) (turn : TurnInput) (limit : ℤ)
    (segments : List RetainedSegment) :
    buildRetainedSegments lib (turn.withLimit (some limit)) = .ok segments ↔
      buildRetainedSegments lib (turn.withLimit none) = .ok segments ∧
        (segments.length : ℤ) ≤ limit := by
  have hroles : turn.roles lib ≠ [] := by simp [TurnInput.roles]
  constructor
  · intro h
    obtain ⟨hacc, tags, identity, contents, htags, hidentity, hcontents, rfl⟩ := build_ok h
    obtain ⟨hfree, hle⟩ := (semanticContents_limit _ hroles _ limit contents).mp hcontents
    obtain ⟨hacc', -⟩ := (isAcceptable_withLimit turn limit).mp hacc
    exact ⟨build_of_ok hacc' htags hidentity hfree, by rwa [segmentsOf_length]⟩
  · rintro ⟨h, hle⟩
    obtain ⟨hacc, tags, identity, contents, htags, hidentity, hcontents, rfl⟩ := build_ok h
    rw [segmentsOf_length] at hle
    have hcapped := (semanticContents_limit _ hroles _ limit contents).mpr ⟨hcontents, hle⟩
    have hne := (semanticContents_spec (roles_names_nodup lib turn) hcontents).1
    have hpos : 0 < limit := by
      have := List.length_pos_iff.mpr hne
      omega
    have hacc' := (isAcceptable_withLimit turn limit).mpr ⟨hacc, hpos⟩
    exact build_of_ok hacc' htags hidentity hcapped

/-- Segments of different payload hashes show no collision. -/
theorem collisionFree_payloadTexts {lib : Stdlib} {turn : TurnInput}
    {segments : List RetainedSegment} (h : buildRetainedSegments lib turn = .ok segments)
    (hnodup : (segments.map fun s => s.payloadHash).Nodup) :
    lib.CollisionFree (payloadTexts segments) := by
  obtain ⟨-, tags, identity, contents, -, -, -, rfl⟩ := build_ok h
  rintro s t ⟨a, ha, rfl⟩ ⟨b, hb, rfl⟩ hst
  obtain ⟨-, -, -, -, -, -, hpa, -⟩ := mem_segmentsOf ha
  obtain ⟨-, -, -, -, -, -, hpb, -⟩ := mem_segmentsOf hb
  have hhash : a.payloadHash = b.payloadHash := by
    rw [hpa, hpb, deriveSegmentPayloadHash, deriveSegmentPayloadHash, hst]
  rw [List.inj_on_of_nodup_map hnodup ha hb hhash]

/-! ## A turn of two segments -/

/-- A turn that does not fit one record. -/
def splitTurn : TurnInput where
  sessionId := ['s']
  userContent := ['a']
  assistantContent := ['b']
  tags := .raw []
  segmentMaxBytes := 340
  segmentCountLimit := none
  assistantContext := none
  modelSelected := false
  eventId := List.replicate 32 '0'
  occurredAt := ⟨2026, 1, 2, 3, 4, 5, 6⟩

def splitTurnContent (role content : Text) : Text :=
  canonicalJson (.obj [
    ("event_id", .str (List.replicate 32 '0')),
    ("occurred_at", .str "2026-01-02T03:04:05.000006+00:00"),
    ("payload_schema", .str PAYLOAD_SCHEMA_VERSION),
    ("record_schema", .str RETAINED_EVENT_RECORD_SCHEMA),
    ("roles", .arr [.obj [("content", .str content), ("role", .str role)]]),
    ("session_sha256", .str (HexDigest.ofNat
      0x043a718774c572bd8a25adbeb1bfcd5c0256ae11cecf9f9c3f925d0e52beaf89).text),
    ("tags", .arr [])])

def splitTurnSource : ℕ := 0xdc70794fddd7134766469efc6a40f7371afc72c6ec0f77794e749d16da42e3c7

/-- One segment of `splitTurn`. -/
def splitTurnSegment (hash : ℕ) (index : ℤ) (content : Text) : RetainedSegment where
  documentId := PAYLOAD_SCHEMA_VERSION ++ ':' :: (HexDigest.ofNat hash).text
  payloadHash := (HexDigest.ofNat hash).text
  payloadSchema := PAYLOAD_SCHEMA_VERSION
  sourceSha256 := (HexDigest.ofNat splitTurnSource).text
  segmentIndex := index
  segmentCount := 2
  content := content

def splitTurnFirst : RetainedSegment :=
  splitTurnSegment 0x0fbe4a460f553a88cc14670615d7bdf703464bc98af008bfa42f58dfb6bbcc86 0
    (splitTurnContent "user" ['a'])

def splitTurnSecond : RetainedSegment :=
  splitTurnSegment 0x3e9101e8d06a1e58ac81a2cbaa188086a7be89020c4bfba11f434f576a9424fa 1
    (splitTurnContent "assistant" ['b'])

def splitTurnSegments : List RetainedSegment := [splitTurnFirst, splitTurnSecond]

/-- The text hashed for the payload hash of a segment. -/
def RetainedSegment.hashedText (s : RetainedSegment) : Text :=
  canonicalJson (segmentRecord s.payloadSchema s.sourceSha256 s.segmentIndex s.segmentCount
    s.content)

/-- The digests of the texts that building `splitTurn` hashes. -/
def splitTurnDigests : List (Text × ℕ) :=
  [(['s'], 0x043a718774c572bd8a25adbeb1bfcd5c0256ae11cecf9f9c3f925d0e52beaf89),
    (splitTurnFirst.content ++ splitTurnSecond.content, splitTurnSource),
    (splitTurnFirst.hashedText,
      0x0fbe4a460f553a88cc14670615d7bdf703464bc98af008bfa42f58dfb6bbcc86),
    (splitTurnSecond.hashedText,
      0x3e9101e8d06a1e58ac81a2cbaa188086a7be89020c4bfba11f434f576a9424fa)]

def splitTurnLib : Stdlib := .ofDigests splitTurnDigests

def splitTurnConfig : BetterHindsightConfig :=
  { defaultConfig with retain := { defaultConfig.retain with segmentMaxBytes := 340 } }

theorem splitTurn_built : buildRetainedSegments splitTurnLib splitTurn = .ok splitTurnSegments := by
  decide +kernel

/-! ## Builder and outbox -/

/-- **Builder and outbox agree.** Every built turn is accepted by the validation of an outbox with
the same limit, and a segment cap rejects exactly the turns of more segments. -/
theorem builder_agrees_with_outbox (lib : Stdlib) (turn : TurnInput) (outbox : SQLiteOutbox)
    (hmax : outbox.segmentMaxBytes = turn.segmentMaxBytes) :
    (∀ segments, buildRetainedSegments lib turn = .ok segments →
      lib.CollisionFree (payloadTexts segments) →
        outbox.IsTurnOf lib segments segments ∧
          outbox.validateCandidates lib segments = some (segments, 0)) ∧
      ∀ limit segments, buildRetainedSegments lib (turn.withLimit (some limit)) = .ok segments ↔
        buildRetainedSegments lib (turn.withLimit none) = .ok segments ∧
          (segments.length : ℤ) ≤ limit := by
  refine ⟨fun segments h hcf => ?_, build_limit lib turn⟩
  have hturn := build_accepted h hmax hcf
  exact ⟨hturn, SQLiteOutbox.validateCandidates_eq_some.mpr ⟨hturn, rfl⟩⟩

theorem builder_agrees_with_outbox_splitTurn :
    ∃ outbox, SQLiteOutbox.init splitTurnLib splitTurnConfig = .ok outbox ∧
      buildRetainedSegments splitTurnLib splitTurn = .ok splitTurnSegments ∧
      outbox.validateCandidates splitTurnLib splitTurnSegments = some (splitTurnSegments, 0) ∧
      ¬ buildRetainedSegments splitTurnLib (splitTurn.withLimit (some 1)) = .ok splitTurnSegments := by
  obtain ⟨outbox, hopen⟩ : ∃ outbox, SQLiteOutbox.init splitTurnLib splitTurnConfig = .ok outbox :=
    ⟨_, rfl⟩
  obtain ⟨haccepted, hlimit⟩ := builder_agrees_with_outbox splitTurnLib splitTurn outbox
    (SQLiteOutbox.HandleOf.of_init hopen).segmentMaxBytes
  have hcf := collisionFree_payloadTexts splitTurn_built (by decide)
  refine ⟨outbox, hopen, splitTurn_built, (haccepted _ splitTurn_built hcf).2, fun h => ?_⟩
  have hle := ((hlimit 1 _).mp h).2
  exact absurd hle (by decide)

/-! ## Reading the records -/

/-- The `role` and `content` of one entry of `roles`. -/
def decodedRole : Json → Option (Text × Text)
  | .obj fields =>
    match strField fields "role", strField fields "content" with
    | some role, some content => some (role, content)
    | _, _ => none
  | _ => none

/-- The `roles` of a record, in order. -/
def decodedRoles (content : Text) : Option (List (Text × Text)) :=
  match decodedField content "roles" with
  | some (.arr items) => items.mapM decodedRole
  | _ => none

/-- A role content without the context that every content of the role repeats. -/
def withoutContext (role : RetainedRole) (content : Text) : Option Text :=
  match role.contextPrefix with
  | none => some content
  | some p => content.dropPrefix? (p ++ "\n\n".toList)

/-- What the records hold of one role in order, the repeated context removed. -/
def roleBodies (role : RetainedRole) : List Text → Option (List Text)
  | [] => some []
  | content :: contents => do
    let roles ← decodedRoles content
    let bodies ← (roles.filter fun r => r.1 == role.name).mapM fun r => withoutContext role r.2
    return bodies ++ (← roleBodies role contents)

theorem dropPrefix?_append (p t : Text) : (p ++ t).dropPrefix? p = some t :=
  List.dropPrefix?_eq_some_iff.mpr ⟨p, rfl, by simp⟩

/-- A role payload as a decoded document holds it. -/
theorem sorted_rolePayload (role : RetainedRole) (body : Text) :
    ∃ rendered, withoutContext role rendered = some body ∧
      (rolePayload role (some body)).sorted =
        .obj [("content", .str rendered), ("role", .str role.name)] ∧
      (rolePayload role (some body)).Distinct := by
  obtain ⟨rendered, hr, hw⟩ : ∃ rendered, rolePayload role (some body) =
      .obj [("role", .str role.name), ("content", .str rendered)] ∧
        withoutContext role rendered = some body := by
    cases hp : role.contextPrefix with
    | none => exact ⟨body, by simp [rolePayload, hp], by simp [withoutContext, hp]⟩
    | some p => exact ⟨p ++ "\n\n".toList ++ body, by simp [rolePayload, hp],
        by simp only [withoutContext, hp]; exact dropPrefix?_append _ _⟩
  refine ⟨rendered, hw, ?_, ?_⟩
  · rw [hr, Json.sorted, Json.sortedFields_eq_map]
    simp [Json.sortKeys, Json.sorted]
    decide
  · rw [hr]
    refine .obj ?_ ?_
    · show List.Nodup ["role".toList, "content".toList]
      decide
    · intro f hf
      simp only [List.mem_cons, List.not_mem_nil, or_false] at hf
      rcases hf with rfl | rfl <;> exact .str _

/-- The fields of a record that are not the roles. -/
structure PlainFields (common : List (Text × Json)) : Prop where
  nodup : (common.map Prod.fst).Nodup
  noRoles : "roles".toList ∉ common.map Prod.fst
  distinct : ∀ f ∈ common, f.2.Distinct
  sorted : ∀ f ∈ common, f.2.sorted = f.2

/-- A record decodes to its common fields and its roles. -/
theorem decode_recordOf {common : List (Text × Json)} (hcommon : PlainFields common)
    (bodies : Bodies) :
    ∃ fields, Json.loads (recordOf common bodies) = some (.obj fields) ∧
      (∀ key, key ≠ "roles".toList → fields.lookup key = common.lookup key) ∧
      fields.lookup "roles".toList =
        some (.arr (bodies.map fun b => (rolePayload b.1 (some b.2)).sorted)) := by
  set fs : List (Text × Json) := common ++
    [("roles".toList, .arr (bodies.map fun b => rolePayload b.1 (some b.2)))] with hfs
  have hnodup : (fs.map Prod.fst).Nodup := by
    rw [hfs, List.map_append, List.nodup_append]
    refine ⟨hcommon.nodup, by simp, ?_⟩
    intro a ha b hb hab
    obtain rfl : b = "roles".toList := by simpa using hb
    exact hcommon.noRoles (hab ▸ ha)
  have hdistinct : (Json.obj fs).Distinct := by
    refine .obj hnodup ?_
    intro f hf
    rcases List.mem_append.mp hf with hf | hf
    · exact hcommon.distinct f hf
    · obtain rfl := List.mem_singleton.mp hf
      refine .arr fun v hv => ?_
      obtain ⟨b, -, rfl⟩ := List.mem_map.mp hv
      obtain ⟨-, -, -, h⟩ := sorted_rolePayload b.1 b.2
      exact h
  have hload := Json.loads_dumps Json.quotes_raw hdistinct
  rw [Json.sorted, Json.sortedFields_eq_map] at hload
  have hkeys : ((fs.map fun f => (f.1, f.2.sorted)).map Prod.fst).Nodup := by
    rw [List.map_map]
    exact hnodup
  have hmap : fs.map (fun f => (f.1, f.2.sorted)) = common ++
      [("roles".toList, .arr (bodies.map fun b => (rolePayload b.1 (some b.2)).sorted))] := by
    rw [hfs, List.map_append]
    congr 1
    · rw [List.map_congr_left (g := id)]
      · simp
      · intro f hf
        simp [hcommon.sorted f hf]
    · simp [Json.sorted, Json.sortedItems_eq_map, Function.comp_def]
  refine ⟨_, hload, ?_, ?_⟩
  · intro key hkey
    have hb : (key == "roles".toList) = false := by simpa using hkey
    rw [Json.lookup_sortKeys hkeys, hmap, List.lookup_append]
    simp only [List.lookup, hb, Option.or_none]
  · rw [Json.lookup_sortKeys hkeys, Json.lookup_eq_some hkeys, hmap]
    simp

theorem decodedField_eq {content : Text} {fields : List (Text × Json)}
    (h : Json.loads content = some (.obj fields)) (key : Text) :
    decodedField content key = fields.lookup key := by
  rw [decodedField, h]

/-- The roles of a record, as a reader finds them. -/
theorem decodedRoles_recordOf {common : List (Text × Json)} (hcommon : PlainFields common)
    (bodies : Bodies) :
    ∃ roles, decodedRoles (recordOf common bodies) = some roles ∧
      List.Forall₂ (fun b r => r.1 = b.1.name ∧ withoutContext b.1 r.2 = some b.2) bodies roles := by
  obtain ⟨fields, hload, -, hroles⟩ := decode_recordOf hcommon bodies
  have hmap : ∃ roles,
      (bodies.map fun b => (rolePayload b.1 (some b.2)).sorted).mapM decodedRole = some roles ∧
        List.Forall₂ (fun b r => r.1 = b.1.name ∧ withoutContext b.1 r.2 = some b.2)
          bodies roles := by
    clear hload hroles
    induction bodies with
    | nil => exact ⟨[], rfl, .nil⟩
    | cons b bodies ih =>
      obtain ⟨roles, hm, hall⟩ := ih
      obtain ⟨rendered, hw, hs, -⟩ := sorted_rolePayload b.1 b.2
      have hd : decodedRole (rolePayload b.1 (some b.2)).sorted = some (b.1.name, rendered) := by
        rw [hs]
        rfl
      exact ⟨(b.1.name, rendered) :: roles, by simp [List.mapM_cons, hd, hm], .cons ⟨rfl, hw⟩ hall⟩
  obtain ⟨roles, hm, hall⟩ := hmap
  exact ⟨roles, by simp only [decodedRoles, decodedField_eq hload, hroles, hm], hall⟩

/-- Reading one role off the records returns the bodies it was given there. -/
theorem roleBodies_records {common : List (Text × Json)} (hcommon : PlainFields common)
    {roles : List RetainedRole} (hnames : (roles.map fun role => role.name).Nodup)
    {role : RetainedRole} (hrole : role ∈ roles) {records : List Bodies}
    (hmem : ∀ record ∈ records, ∀ b ∈ record, b.1 ∈ roles) :
    roleBodies role (records.map (recordOf common)) =
      some ((records.flatten.filter fun b => b.1.name == role.name).map Prod.snd) := by
  induction records with
  | nil => rfl
  | cons record records ih =>
    have hrest := ih fun r hr => hmem r (List.mem_cons_of_mem _ hr)
    obtain ⟨decoded, hdecoded, hall⟩ := decodedRoles_recordOf hcommon record
    have hthis : ((decoded.filter fun r => r.1 == role.name).mapM
        fun r => withoutContext role r.2) =
          some ((record.filter fun b => b.1.name == role.name).map Prod.snd) := by
      have hin := hmem record List.mem_cons_self
      clear hdecoded hmem
      induction hall with
      | nil => rfl
      | @cons b r record decoded hb _ ih' =>
        have ih' := ih' fun x hx => hin x (List.mem_cons_of_mem _ hx)
        by_cases hn : b.1.name = role.name
        · have hbr : b.1 = role :=
            List.inj_on_of_nodup_map hnames (hin b List.mem_cons_self) hrole hn
          simp only [List.filter_cons, hb.1, hn, beq_self_eq_true, if_true, List.mapM_cons,
            List.map_cons, ← hbr, hb.2]
          rw [hbr, ih']
          rfl
        · have hbeq : (b.1.name == role.name) = false := by simpa using hn
          simpa only [List.filter_cons, hb.1, hbeq, Bool.false_eq_true, if_false] using ih'
    simp only [List.map_cons, roleBodies, hdecoded, hrest, Option.bind_eq_bind,
      Option.bind_some, hthis, List.flatten_cons, List.filter_append, List.map_append]
    rfl

/-! ## Nothing is lost -/

theorem plainFields_common (lib : Stdlib) (turn : TurnInput) (tags : List Text)
    {identity : List (Text × Json)}
    (h : turn.identityFields lib (commonFields lib turn.sessionId tags) = .ok identity) :
    PlainFields (commonFields lib turn.sessionId tags ++ identity) := by
  have hfields : ∀ f ∈ commonFields lib turn.sessionId tags ++ identity,
      (∃ t, f.2 = .str t) ∨ ∃ ts : List Text, f.2 = .arr (ts.map .str) := by
    intro f hf
    rcases List.mem_append.mp hf with hf | hf
    · simp only [commonFields, List.mem_cons, List.not_mem_nil, or_false] at hf
      rcases hf with rfl | rfl | rfl
      · exact .inl ⟨_, rfl⟩
      · exact .inl ⟨_, rfl⟩
      · exact .inr ⟨_, rfl⟩
    · unfold TurnInput.identityFields at h
      split at h
      · cases h
        simp only [List.mem_cons, List.not_mem_nil, or_false] at hf
        rcases hf with rfl | rfl <;> exact .inl ⟨_, rfl⟩
      · split at h
        · cases h
        · cases h
          simp only [List.mem_cons, List.not_mem_nil, or_false] at hf
          rcases hf with rfl | rfl | rfl <;> exact .inl ⟨_, rfl⟩
  have hkeys : ((commonFields lib turn.sessionId tags ++ identity).map Prod.fst).Nodup ∧
      "roles".toList ∉ (commonFields lib turn.sessionId tags ++ identity).map Prod.fst := by
    unfold TurnInput.identityFields at h
    split at h
    · cases h
      show List.Nodup ["payload_schema".toList, "session_sha256".toList, "tags".toList,
        "memory_id".toList, "record_schema".toList] ∧ "roles".toList ∉ ["payload_schema".toList,
        "session_sha256".toList, "tags".toList, "memory_id".toList, "record_schema".toList]
      decide
    · split at h
      · cases h
      · cases h
        show List.Nodup ["payload_schema".toList, "session_sha256".toList, "tags".toList,
          "event_id".toList, "occurred_at".toList, "record_schema".toList] ∧
          "roles".toList ∉ ["payload_schema".toList, "session_sha256".toList, "tags".toList,
          "event_id".toList, "occurred_at".toList, "record_schema".toList]
        decide
  refine ⟨hkeys.1, hkeys.2, ?_, ?_⟩
  · intro f hf
    rcases hfields f hf with ⟨t, ht⟩ | ⟨ts, hts⟩
    · rw [ht]
      exact .str t
    · rw [hts]
      exact distinct_texts ts
  · intro f hf
    rcases hfields f hf with ⟨t, ht⟩ | ⟨ts, hts⟩
    · rw [ht]
      rfl
    · rw [hts, Json.sorted, sortedItems_texts]

/-- The occurrence time that the identity fields of a turn give its records. -/
theorem retainedEventTimestamp_recordOf (lib : Stdlib) (turn : TurnInput) (tags : List Text)
    {identity : List (Text × Json)}
    (h : turn.identityFields lib (commonFields lib turn.sessionId tags) = .ok identity)
    (bodies : Bodies) :
    retainedEventTimestamp lib
        (recordOf (commonFields lib turn.sessionId tags ++ identity) bodies) =
      if turn.modelSelected then none else some turn.occurredAt.isoformat := by
  have hplain := plainFields_common lib turn tags h
  obtain ⟨fields, hload, hcommon, -⟩ := decode_recordOf hplain bodies
  have hlookup : ∀ key v, key ≠ "roles".toList →
      (key, v) ∈ commonFields lib turn.sessionId tags ++ identity →
        fields.lookup key = some v := by
    intro key v hne hmem
    rw [hcommon key hne, (Json.lookup_eq_some hplain.nodup).mpr hmem]
  rw [retainedEventTimestamp, decodedField_eq hload, decodedField_eq hload]
  unfold TurnInput.identityFields at h
  split at h
  · rename_i hmodel
    cases h
    rw [hlookup "record_schema".toList (.str RETAINED_MODEL_RECORD_SCHEMA) (by decide)
      (by simp), if_pos hmodel]
    have hne : RETAINED_MODEL_RECORD_SCHEMA ≠ RETAINED_EVENT_RECORD_SCHEMA := by decide
    cases fields.lookup "occurred_at".toList with
    | none => rfl
    | some v => cases v <;> simp [hne]
  · rename_i hmodel
    split at h
    · cases h
    · rename_i hvalid
      cases h
      rw [hlookup "record_schema".toList (.str RETAINED_EVENT_RECORD_SCHEMA) (by decide)
        (by simp), hlookup "occurred_at".toList (.str turn.occurredAt.isoformat) (by decide)
        (by simp), if_neg hmodel]
      simp only [not_or] at hvalid
      simp [hvalid.2, lib.fromIsoformat_isoformat]

/-- **Segmentation loses nothing.** -/
theorem build_loses_nothing (lib : Stdlib) (turn : TurnInput) (segments : List RetainedSegment)
    (h : buildRetainedSegments lib turn = .ok segments) :
    ∃ tags identity, canonicalizeRetainTags lib turn.tags = .ok tags ∧
      turn.identityFields lib (commonFields lib turn.sessionId tags.tags) = .ok identity ∧
      (∀ segment ∈ segments, ∃ fields, Json.loads segment.content = some (.obj fields) ∧
        ∀ key, key ≠ "roles".toList → fields.lookup key =
          (commonFields lib turn.sessionId tags.tags ++ identity).lookup key) ∧
      (∀ segment ∈ segments, ∃ roles, decodedRoles segment.content = some roles ∧
        ∀ r ∈ roles, r.1 ∈ (turn.roles lib).map fun role => role.name) ∧
      (∀ role ∈ turn.roles lib, ∃ bodies,
        roleBodies role (segments.map fun segment => segment.content) = some bodies ∧
          deleteSpace bodies.flatten = deleteSpace role.content) ∧
      ∀ segment ∈ segments, retainedEventTimestamp lib segment.content =
        if turn.modelSelected then none else some turn.occurredAt.isoformat := by
  obtain ⟨-, tags, identity, contents, htags, hidentity, hcontents, rfl⟩ := build_ok h
  obtain ⟨-, records, rfl, hspells⟩ :=
    semanticContents_spec (roles_names_nodup lib turn) hcontents
  have hplain := plainFields_common lib turn tags.tags hidentity
  have hrecord : ∀ segment ∈ segmentsOf lib (records.map (recordOf
      (commonFields lib turn.sessionId tags.tags ++ identity))), ∃ record ∈ records,
        recordOf (commonFields lib turn.sessionId tags.tags ++ identity) record =
          segment.content := fun segment hs => List.mem_map.mp (mem_segmentsOf hs).1
  refine ⟨tags, identity, htags, hidentity, ?_, ?_, ?_, ?_⟩
  · intro segment hs
    obtain ⟨record, -, hr⟩ := hrecord segment hs
    obtain ⟨fields, hload, hcommon, -⟩ := decode_recordOf hplain record
    exact ⟨fields, hr ▸ hload, hcommon⟩
  · intro segment hs
    obtain ⟨record, hmem, hcontent⟩ := hrecord segment hs
    obtain ⟨roles, hroles, hall⟩ := decodedRoles_recordOf hplain record
    refine ⟨roles, hcontent ▸ hroles, fun r hr => ?_⟩
    obtain ⟨b, hb, hbr⟩ : ∃ b ∈ record, r.1 = b.1.name := by
      clear hroles hs hmem hcontent
      induction hall with
      | nil => simp at hr
      | cons hb _ ih =>
        rcases List.mem_cons.mp hr with rfl | hr
        · exact ⟨_, List.mem_cons_self, hb.1⟩
        · obtain ⟨b, hb, he⟩ := ih hr
          exact ⟨b, List.mem_cons_of_mem _ hb, he⟩
    rw [hbr]
    exact List.mem_map_of_mem (hspells.mem record hmem b hb)
  · intro role hrole
    have hbodies := roleBodies_records hplain (roles_names_nodup lib turn) hrole hspells.mem
    refine ⟨_, by rw [segmentsOf_content, hbodies], ?_⟩
    rw [← List.flatMap_def]
    exact hspells.text role hrole
  · intro segment hs
    obtain ⟨record, -, hr⟩ := hrecord segment hs
    rw [← hr]
    exact retainedEventTimestamp_recordOf lib turn tags.tags hidentity record

theorem build_loses_nothing_splitTurn :
    (∀ role ∈ splitTurn.roles splitTurnLib, ∃ bodies,
      roleBodies role (splitTurnSegments.map fun segment => segment.content) = some bodies ∧
        deleteSpace bodies.flatten = deleteSpace role.content) ∧
      ∀ segment ∈ splitTurnSegments, retainedEventTimestamp splitTurnLib segment.content =
        some splitTurn.occurredAt.isoformat := by
  obtain ⟨-, -, -, -, -, -, hbodies, htime⟩ :=
    build_loses_nothing splitTurnLib splitTurn splitTurnSegments splitTurn_built
  exact ⟨hbodies, htime⟩

end BetterHindsight
