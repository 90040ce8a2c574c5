import BetterHindsight.Multimodal.Build
import BetterHindsight.Outbox.AdmissionSpec
import BetterHindsight.Runtime.Sender

/-! # From the disk to the server

A built segment passes the outbox as it is, and the request that the sender makes of its row carries
the files that were read for it, byte for byte and in order. -/

namespace BetterHindsight
set_option autoImplicit false

/-! ## The request -/

section Request
variable (lib : Stdlib) (config : BetterHindsightConfig)

/-- The item of `retain_segment`, from a server of a supported version; `none` stands for
`HindsightClientError`. -/
def retainItem (segment : RetainSegment) : Option Json :=
  let item (content timestamp context : Json) : Json := .obj [
    ("content", content),
    ("timestamp", timestamp),
    ("context", context),
    ("metadata", .obj [
      ("better_hindsight_payload_schema", .str segment.payloadSchema),
      ("better_hindsight_segment_count", .str (Json.encodeInt segment.segmentCount)),
      ("better_hindsight_segment_index", .str (Json.encodeInt segment.segmentIndex)),
      ("better_hindsight_source_sha256", .str segment.sourceSha256)]),
    ("document_id", .str segment.documentId),
    ("entities", .null),
    ("tags", .arr (config.retain.tags.tags.map .str)),
    ("observation_scopes", config.retain.observationScopes.json),
    ("strategy", .null),
    ("update_mode", .str "replace")]
  if segment.payloadSchema = MULTIMODAL_PAYLOAD_SCHEMA then
    if config.multimodal.enabled && config.retain.enabled then
      match decodeEnvelope lib config segment.content with
      | some (.obj envelope) =>
        some (item ((envelope.lookup "blocks".toList).getD .null)
          ((envelope.lookup "timestamp".toList).getD .null)
          ((envelope.lookup "context".toList).getD .null))
      | _ => none
    else none
  else some (item (.str segment.content) (segment.timestamp.elim .null .str) .null)

end Request

/-! ## What a server reads -/

/-- An attachment block with its data decoded. -/
def receivedAttachment : Json → Option ReadAttachment
  | .obj fields =>
    match strField fields "type", fields.lookup "source".toList with
    | some kind, some (.obj source) =>
      match strField source "media_type", (strField source "data").bind b64decode with
      | some mediaType, some raw => some ⟨kind, mediaType, strField fields "filename", raw⟩
      | _, _ => none
    | _, _ => none
  | _ => none

structure Received where
  documentId : Text
  text : Text
  timestamp : Text
  context : Option Text
  attachments : List ReadAttachment
  deriving DecidableEq

/-- An item with blocks for its content. -/
def received : Json → Option Received
  | .obj item =>
    match item.lookup "content".toList, strField item "timestamp", strField item "document_id" with
    | some (.arr (.obj first :: blocks)), some timestamp, some documentId =>
      match strField first "text", blocks.mapM receivedAttachment with
      | some text, some attachments =>
        some ⟨documentId, text, timestamp, strField item "context", attachments⟩
      | _, _ => none
    | _, _, _ => none
  | _ => none

theorem receivedAttachment_block {lib : Stdlib} (a : Attachment lib) :
    receivedAttachment a.block.sorted = some a.toRead := by
  obtain ⟨kind, mediaType, raw, hmedia, -⟩ := a
  cases kind with
  | image =>
    rw [Attachment.block, AttachmentKind.filename, sorted_attachmentBlock, sorted_sourceJson]
    show (match (some mediaType : Option Text), b64decode (b64encode raw) with
      | some mediaType, some raw => some (⟨_, mediaType, none, raw⟩ : ReadAttachment)
      | _, _ => none) = _
    rw [b64decode_b64encode]
    rfl
  | file filename =>
    rw [Attachment.block, AttachmentKind.filename, sorted_fileBlock, sorted_sourceJson]
    show (match (some mediaType : Option Text), b64decode (b64encode raw) with
      | some mediaType, some raw => some (⟨_, mediaType, some filename.text, raw⟩ : ReadAttachment)
      | _, _ => none) = _
    rw [b64decode_b64encode]
    rfl

theorem receivedAttachments {lib : Stdlib} (attachments : List (Attachment lib)) :
    (attachments.map fun a => a.block.sorted).mapM receivedAttachment =
      some (attachments.map Attachment.toRead) := by
  induction attachments with
  | nil => rfl
  | cons a attachments ih =>
    rw [List.map_cons, List.mapM_cons, receivedAttachment_block, ih]
    rfl

/-- The sender's request carries what the envelope of its row holds. -/
theorem received_item {lib : Stdlib} {config : BetterHindsightConfig} (e : Envelope lib config)
    (hon : config.multimodal.enabled = true ∧ config.retain.enabled = true)
    (hsize : (utf8Len e.content : ℤ) ≤ config.multimodal.maxEncodedBytes) {segment : RetainSegment}
    (hschema : segment.payloadSchema = MULTIMODAL_PAYLOAD_SCHEMA)
    (hcontent : segment.content = e.content) :
    ∃ item, retainItem lib config segment = some item ∧
      received item = some ⟨segment.documentId, e.text, e.timestamp, e.context,
        e.attachments.map Attachment.toRead⟩ := by
  have hdecoded := e.decodeEnvelope_content hsize
  rw [e.decoded_eq, ← hcontent, sorted_textBlock] at hdecoded
  have hcontext : ∀ fields : List (Text × Json), fields.lookup "context".toList =
      some (e.context.elim .null .str) → strField fields "context" = e.context := by
    intro fields hlookup
    rw [strField, hlookup]
    cases e.context <;> rfl
  rw [retainItem, if_pos hschema, if_pos (by rw [hon.1, hon.2]; rfl), hdecoded]
  refine ⟨_, rfl, ?_⟩
  show (match (some e.text : Option Text),
      (e.attachments.map fun a => a.block.sorted).mapM receivedAttachment with
    | some text, some attachments =>
      some (⟨segment.documentId, text, e.timestamp, _, attachments⟩ : Received)
    | _, _ => none) = _
  rw [receivedAttachments, hcontext _ rfl]

/-! ## The outbox -/

section Outbox
variable {lib : Stdlib} {config : BetterHindsightConfig} {outbox : SQLiteOutbox}

theorem validSegment_multimodal (hof : outbox.HandleOf lib config)
    (hon : config.multimodal.enabled = true ∧ config.retain.enabled = true) (e : Envelope lib config)
    (hsize : (utf8Len e.content : ℤ) ≤ config.multimodal.maxEncodedBytes) :
    outbox.ValidSegment lib (multimodalSegment lib e.content) where
  schema := .inr rfl
  multimodal _ := by
    have hdecoded := e.decodeEnvelope_content hsize
    rw [SQLiteOutbox.validMultimodal, hof.config_eq, hon.1, hon.2]
    show ((true && true && (decodeEnvelope lib config e.content).isSome && true && true) &&
      ((lib.sha256Text e.content).text == (lib.sha256Text e.content).text)) = true
    rw [hdecoded, beq_self_eq_true]
    rfl
  sourceHex := (lib.sha256Text e.content).isHex
  index_nonneg := le_refl 0
  index_lt := Int.zero_lt_one
  content_ne := by
    show canonicalJson e.json ≠ []
    rw [canonicalJson, Envelope.json, envelopeJson, Json.dumps_obj]
    exact List.cons_ne_nil _ _
  content_le := by
    have hlimit : outbox.contentLimit (multimodalSegment lib e.content) =
        outbox.config.multimodal.maxEncodedBytes := if_pos rfl
    rw [hlimit, hof.config_eq]
    exact hsize
  payloadHash := rfl
  documentId := rfl

/-- A valid segment of its own is a turn of its own. -/
theorem validateCandidates_multimodal {envelope : Text}
    (h : outbox.ValidSegment lib (multimodalSegment lib envelope)) :
    outbox.validateCandidates lib [multimodalSegment lib envelope] =
      some ([multimodalSegment lib envelope], 0) := by
  refine SQLiteOutbox.validateCandidates_eq_some.mpr ⟨?_, rfl⟩
  have hone : ∀ {P : RetainedSegment → Prop}, P (multimodalSegment lib envelope) →
      ∀ segment ∈ [multimodalSegment lib envelope], P segment := by
    intro P hP segment hmem
    rw [List.mem_singleton.mp hmem]
    exact hP
  refine ⟨fun segment => Iff.rfl, List.cons_ne_nil _ _, List.nodup_singleton _, hone h, rfl,
    hone rfl, hone (hone rfl), hone ?_⟩
  show _ = (lib.sha256Text (envelope ++ [])).text
  rw [List.append_nil]
  rfl

end Outbox

/-! ## From request to request -/

/-- **Every attachment arrives.** A segment that is built passes the validation of its outbox, and
the request for its row carries the redacted texts and the files that were asked for, in order, each
as a whole as it was when it was read. -/
theorem multimodal_delivered {lib : Stdlib}
    (hclock : ∀ d : UtcDateTime, lib.fromIsoformat d.isoformatAuto = some true)
    {config : BetterHindsightConfig} {files : ℕ → LocalFiles} {now : UtcDateTime} {content : Text}
    {context : Option Text} {attachments : Json} {segment : RetainedSegment}
    (h : buildMultimodalSegment lib config files now content context attachments = some segment)
    {outbox : SQLiteOutbox} (hof : outbox.HandleOf lib config) (timestamp : WallTime) :
    outbox.validateCandidates lib [segment] = some ([segment], 0) ∧
      ∃ items read item, attachments = .arr items ∧ read.length = items.length ∧
        (∀ k (hi : k < items.length) (ha : k < read.length),
          Requested lib (files k) config.multimodal.allowedRoots
            (config.multimodal.maxDecodedBytes - totalRead (read.take k)) items[k] read[k]) ∧
        retainItem lib config (retainSegmentOf lib (outbox.admittedRow timestamp segment)) =
          some item ∧
        received item = some ⟨segment.documentId, redactSensitiveText lib content,
          now.isoformatAuto, context.map (redactSensitiveText lib), read⟩ := by
  obtain ⟨items, read, fingerprint, rfl, hbuilt⟩ := request_of_built h
  obtain ⟨e, hcontent, htext, htimestamp, hcontext, hread⟩ := hbuilt.envelope hclock
  obtain ⟨hlength, hall⟩ := readAttachments_eq_some.mp hbuilt.read_eq
  have hon := hbuilt.acceptable.enabled
  have hsize := hbuilt.acceptable.encoded_le
  have hsegment := hbuilt.segment_eq
  rw [← hcontent] at hsize hsegment
  subst hsegment
  refine ⟨validateCandidates_multimodal (validSegment_multimodal hof hon e hsize), items, read, ?_⟩
  obtain ⟨item, hitem, hreceived⟩ := @received_item lib config e hon hsize
    (retainSegmentOf lib (outbox.admittedRow timestamp (multimodalSegment lib e.content))) rfl rfl
  refine ⟨item, rfl, hlength, fun k hi ha => ?_, hitem, ?_⟩
  · have hk := hall k hi ha
    rw [Nat.zero_add] at hk
    exact hk
  · rw [hreceived, htext, htimestamp, hcontext, hread]
    rfl

theorem multimodal_delivered_note : ∃ outbox item,
    SQLiteOutbox.init noteLib noteConfig = .ok outbox ∧
      retainItem noteLib noteConfig (retainSegmentOf noteLib
        (outbox.admittedRow ⟨0, le_refl 0⟩ (multimodalSegment noteLib noteEnvelope))) = some item ∧
      received item = some ⟨(multimodalSegment noteLib noteEnvelope).documentId, noteText,
        noteTime.isoformatAuto, none, [noteFile]⟩ := by
  obtain ⟨outbox, hopen⟩ : ∃ outbox, SQLiteOutbox.init noteLib noteConfig = .ok outbox := ⟨_, rfl⟩
  obtain ⟨-, items, read, item, hitems, hlength, hread, hitem, hreceived⟩ :=
    multimodal_delivered (fun _ => rfl) note_built (SQLiteOutbox.HandleOf.of_init hopen)
      ⟨0, le_refl 0⟩
  have hall : readAttachments noteLib noteFiles noteConfig.multimodal.allowedRoots 0
      noteConfig.multimodal.maxDecodedBytes items = some read := by
    refine readAttachments_eq_some.mpr ⟨hlength, fun k hi ha => ?_⟩
    rw [Nat.zero_add]
    exact hread k hi ha
  have hfile : readAttachments noteLib noteFiles noteConfig.multimodal.allowedRoots 0
      noteConfig.multimodal.maxDecodedBytes items = some [noteFile] := by
    cases hitems
    decide +kernel
  have htext : redactSensitiveText noteLib noteText = noteText := by decide +kernel
  refine ⟨outbox, item, hopen, hitem, ?_⟩
  rw [hreceived, htext, Option.some.inj (hall.symm.trans hfile)]
  rfl

end BetterHindsight
