import BetterHindsight.Foundations.JsonCanonical
import BetterHindsight.Multimodal.Base64

/-! # What an envelope holds

`Envelope`: the parts of a multimodal row, none of which can be one that `decode_envelope` refuses.
The rows that it accepts are the canonical encodings of envelopes, up to the size limit, and each
row is the encoding of one envelope only. -/

namespace BetterHindsight
set_option autoImplicit false

/-! ## Blocks -/

def textBlock (text : Text) : Json := .obj [("type", .str "text"), ("text", .str text)]

def sourceJson (mediaType : Text) (raw : List UInt8) : Json :=
  .obj [("type", .str "base64"), ("media_type", .str mediaType), ("data", .str (b64encode raw))]

/-- The block of an attachment; only a file has a filename. -/
def attachmentBlock (kind mediaType : Text) (filename : Option Text) (raw : List UInt8) : Json :=
  match filename with
  | none => .obj [("type", .str kind), ("source", sourceJson mediaType raw)]
  | some name =>
    .obj [("type", .str kind), ("source", sourceJson mediaType raw), ("filename", .str name)]

def envelopeJson (destination timestamp : Text) (context : Option Text) (blocks : List Json)
    (hashes : List Text) : Json :=
  .obj [
    ("schema", .str MULTIMODAL_PAYLOAD_SCHEMA),
    ("destination", .str destination),
    ("timestamp", .str timestamp),
    ("context", context.elim .null .str),
    ("blocks", .arr blocks),
    ("sha256", .arr (hashes.map .str))]

section Sorted
variable (text mediaType : Text) (raw : List UInt8)

theorem sorted_textBlock :
    (textBlock text).sorted = .obj [("text", .str text), ("type", .str "text")] := by
  refine Json.sorted_obj_eq ["type", "text"] ["text", "type"] rfl rfl (by decide) ?_
  simp [Json.sorted]

theorem sorted_sourceJson : (sourceJson mediaType raw).sorted =
    .obj [("data", .str (b64encode raw)), ("media_type", .str mediaType),
      ("type", .str "base64")] := by
  refine Json.sorted_obj_eq ["type", "media_type", "data"] ["data", "media_type", "type"] rfl rfl
    (by decide) ?_
  simp [Json.sorted]

theorem sorted_attachmentBlock (kind : Text) :
    (attachmentBlock kind mediaType none raw).sorted =
      .obj [("source", (sourceJson mediaType raw).sorted), ("type", .str kind)] := by
  refine Json.sorted_obj_eq ["type", "source"] ["source", "type"] rfl rfl (by decide) ?_
  simp [Json.sorted]

theorem sorted_fileBlock (kind filename : Text) :
    (attachmentBlock kind mediaType (some filename) raw).sorted =
      .obj [("filename", .str filename), ("source", (sourceJson mediaType raw).sorted),
        ("type", .str kind)] := by
  refine Json.sorted_obj_eq ["type", "source", "filename"] ["filename", "source", "type"] rfl rfl
    (by decide) ?_
  simp [Json.sorted]

theorem attachmentBlock_injective {kind kind' mediaType mediaType' : Text}
    {filename filename' : Option Text} {raw raw' : List UInt8}
    (h : (attachmentBlock kind mediaType filename raw).sorted =
      (attachmentBlock kind' mediaType' filename' raw').sorted) :
    kind = kind' ∧ mediaType = mediaType' ∧ filename = filename' ∧ raw = raw' := by
  have hsource : (sourceJson mediaType raw).sorted = (sourceJson mediaType' raw').sorted →
      mediaType = mediaType' ∧ raw = raw' := by
    intro heq
    rw [sorted_sourceJson, sorted_sourceJson] at heq
    simp only [Json.obj.injEq, List.cons.injEq, Prod.mk.injEq, Json.str.injEq, and_true,
      true_and] at heq
    exact ⟨heq.2, b64encode_injective heq.1⟩
  cases filename with
  | none =>
    cases filename' with
    | none =>
      simp only [sorted_attachmentBlock, Json.obj.injEq, List.cons.injEq, Prod.mk.injEq, true_and,
        Json.str.injEq, and_true] at h
      obtain ⟨rfl, rfl⟩ := hsource h.1
      exact ⟨h.2, rfl, rfl, rfl⟩
    | some name' => simp [sorted_attachmentBlock, sorted_fileBlock] at h
  | some name =>
    cases filename' with
    | none => simp [sorted_attachmentBlock, sorted_fileBlock] at h
    | some name' =>
      simp only [sorted_fileBlock, Json.obj.injEq, List.cons.injEq, Prod.mk.injEq, Json.str.injEq,
        true_and, and_true] at h
      obtain ⟨rfl, rfl⟩ := hsource h.2.1
      exact ⟨h.2.2, rfl, congrArg some h.1, rfl⟩

theorem sorted_envelopeJson (destination timestamp : Text) (context : Option Text)
    (blocks : List Json) (hashes : List Text) :
    (envelopeJson destination timestamp context blocks hashes).sorted =
      .obj [
        ("blocks", .arr (blocks.map Json.sorted)),
        ("context", context.elim .null .str),
        ("destination", .str destination),
        ("schema", .str MULTIMODAL_PAYLOAD_SCHEMA),
        ("sha256", .arr (hashes.map .str)),
        ("timestamp", .str timestamp)] := by
  have hcontext : (context.elim Json.null Json.str).sorted = context.elim .null .str := by
    cases context <;> rfl
  have hhashes : (Json.arr (hashes.map .str)).sorted = .arr (hashes.map .str) := by
    rw [Json.sorted_arr_iff]
    intro v hv
    obtain ⟨t, -, rfl⟩ := List.mem_map.mp hv
    rfl
  have hblocks : (Json.arr blocks).sorted = .arr (blocks.map Json.sorted) := by
    rw [Json.sorted, Json.sortedItems_eq_map]
  refine Json.sorted_obj_eq ["schema", "destination", "timestamp", "context", "blocks", "sha256"]
    ["blocks", "context", "destination", "schema", "sha256", "timestamp"] rfl rfl (by decide) ?_
  simp only [List.mem_cons, List.not_mem_nil, or_false, exists_eq_or_imp, exists_eq_left, hcontext,
    hhashes, hblocks]
  simp [Json.sorted]

end Sorted

/-! ## Distinct keys -/

section Keys
variable (text mediaType : Text) (raw : List UInt8)

theorem distinct_textBlock : (textBlock text).Distinct := by
  refine .obj ?_ ?_
  · show List.Nodup ["type".toList, "text".toList]
    decide
  · simp [Json.Distinct.str]

theorem distinct_sourceJson : (sourceJson mediaType raw).Distinct := by
  refine .obj ?_ ?_
  · show List.Nodup ["type".toList, "media_type".toList, "data".toList]
    decide
  · simp [Json.Distinct.str]

theorem distinct_attachmentBlock (kind : Text) (filename : Option Text) :
    (attachmentBlock kind mediaType filename raw).Distinct := by
  cases filename with
  | none =>
    refine .obj ?_ ?_
    · show List.Nodup ["type".toList, "source".toList]
      decide
    · simp [Json.Distinct.str, distinct_sourceJson]
  | some name =>
    refine .obj ?_ ?_
    · show List.Nodup ["type".toList, "source".toList, "filename".toList]
      decide
    · simp [Json.Distinct.str, distinct_sourceJson]

theorem distinct_envelopeJson (destination timestamp : Text) (context : Option Text)
    {blocks : List Json} (hashes : List Text) (hblocks : ∀ b ∈ blocks, b.Distinct) :
    (envelopeJson destination timestamp context blocks hashes).Distinct := by
  have hcontext : (context.elim Json.null Json.str).Distinct := by
    cases context with
    | none => exact .null
    | some t => exact .str t
  refine .obj ?_ ?_
  · show List.Nodup ["schema".toList, "destination".toList, "timestamp".toList, "context".toList,
      "blocks".toList, "sha256".toList]
    decide
  · simp [Json.Distinct.str, hcontext, distinct_texts, Json.Distinct.arr hblocks]

end Keys

/-! ## Objects with known keys -/

theorem hasExactKeys_iff {fields : List (Text × Json)} {keys : List Text} :
    hasExactKeys fields keys = true ↔ ∀ k, k ∈ fields.map Prod.fst ↔ k ∈ keys := by
  have hlookup : ∀ k, (fields.lookup k).isSome = true ↔ k ∈ fields.map Prod.fst := by
    intro k
    rw [Option.isSome_iff_ne_none, ne_eq, Json.lookup_eq_none, Classical.not_not]
  rw [hasExactKeys, Bool.and_eq_true, List.all_eq_true, List.all_eq_true]
  simp only [List.contains_eq_mem, decide_eq_true_eq, hlookup]
  constructor
  · rintro ⟨hkeys, hfields⟩ k
    refine ⟨fun hk => ?_, hfields k⟩
    obtain ⟨f, hf, rfl⟩ := List.mem_map.mp hk
    exact hkeys f hf
  · intro h
    exact ⟨fun f hf => (h f.1).mp (List.mem_map_of_mem hf), fun k hk => (h k).mpr hk⟩

theorem strField_eq_some {fields : List (Text × Json)} {key : String} {t : Text} :
    strField fields key = some t ↔ fields.lookup key.toList = some (.str t) := by
  unfold strField
  split
  · rename_i t' h
    simp [h]
  · rename_i h
    exact ⟨nofun, fun hsome => absurd hsome (h t)⟩

/-- A value as `json.loads` reads it from a canonical document. -/
structure InKeyOrder (v : Json) : Prop where
  distinct : v.Distinct
  sorted : v.sorted = v

theorem InKeyOrder.of_sorted {v : Json} (h : v.Distinct) : InKeyOrder v.sorted :=
  ⟨h.sorted, Json.sorted_sorted v⟩

theorem InKeyOrder.value {fields : List (Text × Json)} (h : InKeyOrder (.obj fields))
    {f : Text × Json} (hf : f ∈ fields) : InKeyOrder f.2 := by
  cases h.distinct with
  | obj _ hvalues => exact ⟨hvalues f hf, (Json.sorted_obj_iff.mp h.sorted).2 f hf⟩

theorem InKeyOrder.item {items : List Json} (h : InKeyOrder (.arr items)) {v : Json}
    (hv : v ∈ items) : InKeyOrder v := by
  cases h.distinct with
  | arr hitems => exact ⟨hitems v hv, Json.sorted_arr_iff.mp h.sorted v hv⟩

theorem InKeyOrder.keys {fields : List (Text × Json)} {keys : List Text} (sortedKeys : List Text)
    (h : InKeyOrder (.obj fields)) (hexact : hasExactKeys fields keys = true)
    (hkeys : sortedKeys.Pairwise (· < ·) ∧ sortedKeys.Perm keys) :
    fields.map Prod.fst = sortedKeys := by
  have hnodup : (fields.map Prod.fst).Nodup := by
    cases h.distinct with
    | obj hnodup _ => exact hnodup
  refine Json.keys_unique (Json.sorted_obj_iff.mp h.sorted).1 (hkeys.1.imp fun h => le_of_lt h) hnodup
    (hkeys.1.imp fun h => ne_of_lt h) fun k => ?_
  rw [hasExactKeys_iff.mp hexact, hkeys.2.mem_iff]

/-! ## Text blocks -/

theorem isTextBlock_sorted (t : Text) :
    isTextBlock (textBlock t).sorted = (!isBlank t && decide (t.length ≤ 16384)) := by
  rw [sorted_textBlock]
  rfl

theorem InKeyOrder.textBlock {v : Json} (h : InKeyOrder v) (htext : isTextBlock v = true) :
    ∃ t, v = (textBlock t).sorted := by
  unfold isTextBlock at htext
  split at htext
  · rename_i fields
    simp only [Bool.and_eq_true, beq_iff_eq, strField_eq_some, Option.any_eq_true] at htext
    obtain ⟨⟨hexact, htype⟩, t, ht, -⟩ := htext
    have hkeys := h.keys ["text", "type"] hexact (by decide)
    obtain ⟨a, fields₁, rfl, h₁⟩ := Json.fields_cons hkeys
    obtain ⟨b, fields₂, rfl, h₂⟩ := Json.fields_cons h₁
    obtain rfl := List.map_eq_nil_iff.mp h₂
    have hb : b = .str "text" := Option.some.inj htype
    have ha : a = .str t := Option.some.inj ht
    rw [ha, hb, ← sorted_textBlock]
    exact ⟨t, rfl⟩
  · cases htext

/-! ## Attachment blocks -/

theorem sourceBytes_sorted {media : List Text} {mediaType : Text} (h : mediaType ∈ media)
    (raw : List UInt8) : sourceBytes media (sourceJson mediaType raw).sorted = some raw := by
  rw [sorted_sourceJson, sourceBytes, if_pos]
  · show (b64decode (b64encode raw)).filter (fun bytes => b64encode bytes == b64encode raw) = some raw
    rw [b64decode_b64encode]
    simp
  · have hfields : hasExactKeys [("data".toList, Json.str (b64encode raw)),
        ("media_type", .str mediaType), ("type", .str "base64")]
        ["type", "media_type", "data"] = true := rfl
    have hmedia : media.contains mediaType = true := by simpa using h
    rw [hfields]
    simpa [strField, List.lookup] using hmedia

theorem InKeyOrder.source {v : Json} (h : InKeyOrder v) {media : List Text} {raw : List UInt8}
    (hbytes : sourceBytes media v = some raw) :
    ∃ mediaType ∈ media, v = (sourceJson mediaType raw).sorted := by
  unfold sourceBytes at hbytes
  split at hbytes
  · rename_i fields
    split at hbytes
    · rename_i hvalid
      simp only [Bool.and_eq_true, beq_iff_eq, strField_eq_some, Option.any_eq_true] at hvalid
      obtain ⟨⟨hexact, htype⟩, mediaType, hmediaType, hmedia⟩ := hvalid
      have hkeys := h.keys ["data", "media_type", "type"] hexact (by decide)
      obtain ⟨a, fields₁, rfl, h₁⟩ := Json.fields_cons hkeys
      obtain ⟨b, fields₂, rfl, h₂⟩ := Json.fields_cons h₁
      obtain ⟨c, fields₃, rfl, h₃⟩ := Json.fields_cons h₂
      obtain rfl := List.map_eq_nil_iff.mp h₃
      split at hbytes
      · cases hbytes
      · rename_i data hdata
        obtain ⟨-, hencode⟩ := Option.filter_eq_some_iff.mp hbytes
        have ha : a = .str data := Option.some.inj (strField_eq_some.mp hdata)
        have hb : b = .str mediaType := Option.some.inj hmediaType
        have hc : c = .str "base64" := Option.some.inj htype
        rw [ha, hb, hc, ← beq_iff_eq.mp hencode, ← sorted_sourceJson]
        exact ⟨mediaType, by simpa using hmedia, rfl⟩
    · cases hbytes
  · cases hbytes

/-- A filename that `_safe_filename` leaves as it is. -/
structure SafeFilename (lib : Stdlib) where
  text : Text
  safe : safeFilename lib text = text

def imageMedia : List Text := ["image/png", "image/jpeg", "image/webp", "image/gif"]

def fileMedia : List Text := ["application/pdf", "text/plain"]

inductive AttachmentKind (lib : Stdlib) where
  | image
  | file (filename : SafeFilename lib)

namespace AttachmentKind
variable {lib : Stdlib}

def text : AttachmentKind lib → Text
  | image => "image"
  | file _ => "file"

def media : AttachmentKind lib → List Text
  | image => imageMedia
  | file _ => fileMedia

def filename : AttachmentKind lib → Option Text
  | image => none
  | file filename => some filename.text

theorem mediaTypes_text (kind : AttachmentKind lib) : mediaTypes kind.text = some kind.media := by
  cases kind with
  | image => rfl
  | file => rfl

end AttachmentKind

section Kinds
variable {lib : Stdlib} {fields : List (Text × Json)}

theorem mediaTypes_eq_some {kind : Text} {media : List Text} (h : mediaTypes kind = some media) :
    kind = "image".toList ∨ kind = "file".toList := by
  unfold mediaTypes at h
  split_ifs at h with himage hfile
  · exact .inl himage
  · exact .inr hfile

theorem attachmentBytes_image (h : strField fields "type" = some "image".toList) :
    attachmentBytes lib (.obj fields) = if hasExactKeys fields ["type", "source"] = true then
      (fields.lookup "source".toList).bind (sourceBytes imageMedia) else none := by
  have hmedia : mediaTypes "image".toList = some imageMedia := rfl
  have hfile : ("image".toList == "file".toList) = false := by decide
  simp only [attachmentBytes, h, hmedia, hfile, Bool.not_false, Bool.true_or, Bool.and_true,
    Bool.false_eq_true, if_false]
  rfl

theorem attachmentBytes_file (h : strField fields "type" = some "file".toList) :
    attachmentBytes lib (.obj fields) =
      if (hasExactKeys fields ["type", "source", "filename"] &&
          (strField fields "filename").any fun t => safeFilename lib t == t) = true then
        (fields.lookup "source".toList).bind (sourceBytes fileMedia)
      else none := by
  have hmedia : mediaTypes "file".toList = some fileMedia := rfl
  have hfile : ("file".toList == "file".toList) = true := by decide
  simp only [attachmentBytes, h, hmedia, hfile, Bool.not_true, Bool.false_or, if_true]
  rfl

end Kinds

/-- An attachment as an envelope holds it. -/
structure Attachment (lib : Stdlib) where
  kind : AttachmentKind lib
  mediaType : Text
  raw : List UInt8
  media : mediaType ∈ kind.media
  nonempty : raw ≠ []

namespace Attachment
variable {lib : Stdlib}

def block (a : Attachment lib) : Json :=
  attachmentBlock a.kind.text a.mediaType a.kind.filename a.raw

def hash (a : Attachment lib) : Text := (lib.sha256 a.raw).text

theorem attachmentBytes_block (a : Attachment lib) :
    attachmentBytes lib a.block.sorted = some a.raw := by
  obtain ⟨kind, mediaType, raw, hmedia, -⟩ := a
  cases kind with
  | image =>
    rw [block, AttachmentKind.filename, sorted_attachmentBlock, attachmentBytes_image rfl, if_pos]
    · exact sourceBytes_sorted hmedia raw
    · rfl
  | file filename =>
    have hsafe : (safeFilename lib filename.text == filename.text) = true := by
      rw [filename.safe]
      exact beq_self_eq_true _
    rw [block, AttachmentKind.filename, sorted_fileBlock, attachmentBytes_file rfl, if_pos]
    · exact sourceBytes_sorted hmedia raw
    · rw [Bool.and_eq_true]
      exact ⟨rfl, hsafe⟩

theorem block_injective {a b : Attachment lib} (h : a.block.sorted = b.block.sorted) : a = b := by
  obtain ⟨kind, mediaType, raw, hmedia, hne⟩ := a
  obtain ⟨kind', mediaType', raw', hmedia', hne'⟩ := b
  obtain ⟨-, rfl, hname, rfl⟩ := attachmentBlock_injective h
  cases kind with
  | image =>
    cases kind' with
    | image => rfl
    | file filename' => cases hname
  | file filename =>
    cases kind' with
    | image => cases hname
    | file filename' =>
      obtain ⟨name, hsafe⟩ := filename
      obtain ⟨name', hsafe'⟩ := filename'
      obtain rfl : name = name' := Option.some.inj hname
      rfl

end Attachment

theorem InKeyOrder.attachment {lib : Stdlib} {v : Json} (h : InKeyOrder v) {raw : List UInt8}
    (hbytes : attachmentBytes lib v = some raw) (hne : raw ≠ []) :
    ∃ a : Attachment lib, v = a.block.sorted ∧ a.raw = raw := by
  have hshape : ∃ fields kind media, v = .obj fields ∧ strField fields "type" = some kind ∧
      mediaTypes kind = some media := by
    unfold attachmentBytes at hbytes
    split at hbytes
    · split at hbytes
      · cases hbytes
      · split at hbytes
        · cases hbytes
        · exact ⟨_, _, _, rfl, ‹_›, ‹_›⟩
    · cases hbytes
  obtain ⟨fields, kind, media, rfl, hkind, hmedia⟩ := hshape
  rcases mediaTypes_eq_some hmedia with rfl | rfl
  · rw [attachmentBytes_image hkind] at hbytes
    split at hbytes
    · rename_i hexact
      obtain ⟨source, hsource, hbytes⟩ := Option.bind_eq_some_iff.mp hbytes
      have hkeys := h.keys ["source", "type"] hexact (by decide)
      obtain ⟨a, fields₁, rfl, h₁⟩ := Json.fields_cons hkeys
      obtain ⟨b, fields₂, rfl, h₂⟩ := Json.fields_cons h₁
      obtain rfl := List.map_eq_nil_iff.mp h₂
      have ha : a = source := Option.some.inj hsource
      have hb : b = .str "image" := Option.some.inj (strField_eq_some.mp hkind)
      subst ha hb
      obtain ⟨mediaType, hmem, rfl⟩ := (h.value List.mem_cons_self).source hbytes
      refine ⟨⟨.image, mediaType, raw, hmem, hne⟩, ?_, rfl⟩
      exact (sorted_attachmentBlock mediaType raw _).symm
    · cases hbytes
  · rw [attachmentBytes_file hkind] at hbytes
    split at hbytes
    · rename_i hvalid
      rw [Bool.and_eq_true] at hvalid
      obtain ⟨source, hsource, hbytes⟩ := Option.bind_eq_some_iff.mp hbytes
      obtain ⟨name, hfilename, hsafe⟩ := (Option.any_eq_true _ _).mp hvalid.2
      have hkeys := h.keys ["filename", "source", "type"] hvalid.1 (by decide)
      obtain ⟨a, fields₁, rfl, h₁⟩ := Json.fields_cons hkeys
      obtain ⟨b, fields₂, rfl, h₂⟩ := Json.fields_cons h₁
      obtain ⟨c, fields₃, rfl, h₃⟩ := Json.fields_cons h₂
      obtain rfl := List.map_eq_nil_iff.mp h₃
      have ha : a = .str name := Option.some.inj (strField_eq_some.mp hfilename)
      have hb : b = source := Option.some.inj hsource
      have hc : c = .str "file" := Option.some.inj (strField_eq_some.mp hkind)
      subst ha hb hc
      obtain ⟨mediaType, hmem, rfl⟩ :=
        (h.value (List.mem_cons_of_mem _ List.mem_cons_self)).source hbytes
      refine ⟨⟨.file ⟨name, beq_iff_eq.mp hsafe⟩, mediaType, raw, hmem, hne⟩, ?_, rfl⟩
      exact (sorted_fileBlock mediaType raw _ name).symm
    · cases hbytes

/-! ## Attachments against their digests -/

/-- The decoded size of attachments. -/
def totalBytes {lib : Stdlib} (attachments : List (Attachment lib)) : ℕ :=
  (attachments.map fun a => a.raw.length).sum

theorem checkAttachments_blocks {lib : Stdlib} {maxDecodedBytes : ℤ}
    (attachments : List (Attachment lib)) {total : ℕ}
    (h : ((total + totalBytes attachments : ℕ) : ℤ) ≤ maxDecodedBytes) :
    checkAttachments lib maxDecodedBytes total (attachments.map fun a => a.block.sorted)
      (attachments.map fun a => .str a.hash) = true := by
  induction attachments generalizing total with
  | nil => rfl
  | cons a attachments ih =>
    have hsum : totalBytes (a :: attachments) = a.raw.length + totalBytes attachments := rfl
    have hrest := @ih (total + a.raw.length) (by omega)
    have hne : (a.raw != []) = true := by simpa using a.nonempty
    have hhash : ((lib.sha256 a.raw).text == a.hash) = true := beq_self_eq_true _
    have hhex : isHex 64 a.hash = true := (lib.sha256 a.raw).isHex
    have hle : ((total + a.raw.length : ℕ) : ℤ) ≤ maxDecodedBytes := by omega
    rw [List.map_cons, List.map_cons, checkAttachments, a.attachmentBytes_block]
    simp only [hne, hhash, hhex, hle, hrest, decide_true, Bool.and_self]

theorem attachments_of_check {lib : Stdlib} {maxDecodedBytes : ℤ} {blocks hashes : List Json}
    (hblocks : ∀ b ∈ blocks, InKeyOrder b) {total : ℕ}
    (h : checkAttachments lib maxDecodedBytes total blocks hashes = true) :
    ∃ attachments : List (Attachment lib),
      blocks = attachments.map (fun a => a.block.sorted) ∧
      hashes = attachments.map (fun a => .str a.hash) ∧
      (attachments ≠ [] → ((total + totalBytes attachments : ℕ) : ℤ) ≤ maxDecodedBytes) := by
  induction blocks generalizing total hashes with
  | nil =>
    cases hashes with
    | nil => exact ⟨[], rfl, rfl, fun h => absurd rfl h⟩
    | cons hash hashes => cases h
  | cons block blocks ih =>
    unfold checkAttachments at h
    split at h
    · rename_i heq
      cases heq
    · rename_i block' blocks' digest hashes' heq
      cases heq
      split at h
      · cases h
      · rename_i raw hraw
        simp only [Bool.and_eq_true, bne_iff_ne, decide_eq_true_eq, beq_iff_eq] at h
        obtain ⟨⟨⟨⟨hne, hle⟩, -⟩, hhash⟩, hrest⟩ := h
        obtain ⟨a, rfl, rfl⟩ := (hblocks _ List.mem_cons_self).attachment hraw hne
        obtain ⟨attachments, rfl, rfl, hsum⟩ := ih (fun b hb => hblocks b (List.mem_cons_of_mem _ hb)) hrest
        refine ⟨a :: attachments, rfl, ?_, fun _ => ?_⟩
        · rw [List.map_cons, Attachment.hash, hhash]
        · have hcons : totalBytes (a :: attachments) = a.raw.length + totalBytes attachments := rfl
          by_cases hnil : attachments = []
          · have hzero : totalBytes attachments = 0 := by rw [hnil]; rfl
            omega
          · have := hsum hnil
            omega
    · cases h

/-! ## Envelopes -/

structure Envelope (lib : Stdlib) (config : BetterHindsightConfig) where
  fingerprint : HexDigest
  stated : config.multimodalDestinationFingerprint lib = .ok fingerprint
  timestamp : Text
  timestamp_le : timestamp.length ≤ 64
  zoned : lib.fromIsoformat timestamp = some true
  context : Option Text
  context_le : ∀ t ∈ context, t.length ≤ 1024
  text : Text
  spoken : isBlank text = false
  text_le : text.length ≤ 16384
  attachments : List (Attachment lib)
  attached : attachments ≠ []
  attachments_le : (attachments.length : ℤ) ≤ config.multimodal.maxAttachments
  bytes_le : (totalBytes attachments : ℤ) ≤ config.multimodal.maxDecodedBytes

namespace Envelope
variable {lib : Stdlib} {config : BetterHindsightConfig}

def blocks (e : Envelope lib config) : List Json :=
  textBlock e.text :: e.attachments.map Attachment.block

def json (e : Envelope lib config) : Json :=
  envelopeJson e.fingerprint.text e.timestamp e.context e.blocks (e.attachments.map Attachment.hash)

def content (e : Envelope lib config) : Text := canonicalJson e.json

/-- What `json.loads` makes of the content. -/
def decoded (e : Envelope lib config) : Json := e.json.sorted

theorem distinct_json (e : Envelope lib config) : e.json.Distinct := by
  refine distinct_envelopeJson _ _ _ _ fun b hb => ?_
  rcases List.mem_cons.mp hb with rfl | hb
  · exact distinct_textBlock e.text
  · obtain ⟨a, -, rfl⟩ := List.mem_map.mp hb
    exact distinct_attachmentBlock _ _ _ _

theorem loads_content (e : Envelope lib config) : Json.loads e.content = some e.decoded :=
  Json.loads_dumps Json.quotes_raw e.distinct_json

theorem decoded_eq (e : Envelope lib config) : e.decoded = .obj [
    ("blocks", .arr ((textBlock e.text).sorted :: e.attachments.map fun a => a.block.sorted)),
    ("context", e.context.elim .null .str),
    ("destination", .str e.fingerprint.text),
    ("schema", .str MULTIMODAL_PAYLOAD_SCHEMA),
    ("sha256", .arr (e.attachments.map fun a => .str a.hash)),
    ("timestamp", .str e.timestamp)] := by
  rw [decoded, json, sorted_envelopeJson, blocks, List.map_cons, List.map_map, List.map_map]
  rfl

theorem isContext_context (e : Envelope lib config) :
    isContext (e.context.elim .null .str) = true := by
  have hle := e.context_le
  cases hcontext : e.context with
  | none => rfl
  | some t => exact decide_eq_true (hle t hcontext)

theorem canonicalJson_decoded (e : Envelope lib config) : canonicalJson e.decoded = e.content := by
  rw [content, canonicalJson, canonicalJson, Json.dumps_eq_dumpsPlain, Json.dumps_eq_dumpsPlain,
    decoded, Json.sorted_sorted]

theorem decodeEnvelope_content (e : Envelope lib config)
    (h : (utf8Len e.content : ℤ) ≤ config.multimodal.maxEncodedBytes) :
    decodeEnvelope lib config e.content = some e.decoded := by
  have htext : isTextBlock (textBlock e.text).sorted = true := by
    rw [isTextBlock_sorted, e.spoken]
    exact decide_eq_true e.text_le
  have hstated : statesDestination lib config (some e.fingerprint.text) = true := by
    rw [statesDestination, e.stated]
    exact beq_self_eq_true _
  have hzoned : (lib.fromIsoformat e.timestamp == some true) = true := by
    rw [e.zoned]
    rfl
  have hcount : 1 ≤ (e.attachments.map fun a => a.block.sorted).length := by
    rw [List.length_map]
    exact List.length_pos_iff.mpr e.attached
  have hle : ((e.attachments.map fun a => a.block.sorted).length : ℤ) ≤
      config.multimodal.maxAttachments := by
    rw [List.length_map]
    exact e.attachments_le
  have hcheck := @checkAttachments_blocks lib config.multimodal.maxDecodedBytes e.attachments 0
    (by rw [Nat.zero_add]; exact e.bytes_le)
  have hcanonical := e.canonicalJson_decoded
  rw [decodeEnvelope, if_neg (by omega), e.loads_content]
  rw [decoded_eq] at hcanonical ⊢
  refine if_pos ?_
  simp only [Bool.and_eq_true]
  refine ⟨⟨⟨⟨⟨⟨⟨⟨rfl, rfl⟩, hstated⟩, ?_⟩, e.isContext_context⟩, decide_eq_true ⟨hcount, hle⟩⟩,
    htext⟩, hcheck⟩, beq_iff_eq.mpr hcanonical⟩
  show (decide (e.timestamp.length ≤ 64) && lib.fromIsoformat e.timestamp == some true) = true
  rw [hzoned, Bool.and_true]
  exact decide_eq_true e.timestamp_le

theorem statesDestination_iff {stated : Option Text} : statesDestination lib config stated = true ↔
    ∃ fingerprint, config.multimodalDestinationFingerprint lib = .ok fingerprint ∧
      stated = some fingerprint.text := by
  unfold statesDestination
  split
  · rename_i fingerprint h
    simp [h]
  · rename_i h
    simp [h]

theorem context_of_isContext {v : Json} (h : isContext v = true) :
    ∃ context : Option Text, v = context.elim .null .str ∧ ∀ t ∈ context, t.length ≤ 1024 := by
  unfold isContext at h
  split at h
  · exact ⟨none, rfl, by simp⟩
  · rename_i t
    exact ⟨some t, rfl, by simpa using h⟩
  · cases h

/-- What `decode_envelope` accepts is an envelope. -/
theorem of_decoded {content : Text} {v : Json} (h : decodeEnvelope lib config content = some v) :
    (utf8Len content : ℤ) ≤ config.multimodal.maxEncodedBytes ∧
      ∃ e : Envelope lib config, e.decoded = v ∧ e.content = content := by
  unfold decodeEnvelope at h
  split at h
  · cases h
  rename_i hsize
  refine ⟨by omega, ?_⟩
  split at h
  · rename_i fields hloads
    split at h
    · rename_i first blocks hashes hblocks hhashes
      split at h
      · rename_i hvalid
        cases h
        simp only [Bool.and_eq_true, beq_iff_eq, decide_eq_true_eq, strField_eq_some] at hvalid
        obtain ⟨⟨⟨⟨⟨⟨⟨⟨hexact, hschema⟩, hstated⟩, hzoned⟩, hcontext⟩, hcount, hle⟩, htext⟩, hcheck⟩,
          hcanonical⟩ := hvalid
        obtain ⟨hdistinct, hsorted, -⟩ := (Json.canonical_iff Json.quotes_raw).mp ⟨hloads, hcanonical⟩
        have horder : InKeyOrder (.obj fields) := ⟨hdistinct, hsorted⟩
        obtain ⟨fingerprint, hfingerprint, hdestination⟩ := statesDestination_iff.mp hstated
        obtain ⟨timestamp, htimestamp, hclock⟩ := (Option.any_eq_true _ _).mp hzoned
        obtain ⟨stored, hstored, hnullable⟩ := (Option.any_eq_true _ _).mp hcontext
        obtain ⟨context, rfl, hshort⟩ := context_of_isContext hnullable
        rw [Bool.and_eq_true, decide_eq_true_eq, beq_iff_eq] at hclock
        rw [strField_eq_some] at hdestination htimestamp
        have hkeys := horder.keys ["blocks", "context", "destination", "schema", "sha256",
          "timestamp"] hexact (by decide)
        obtain ⟨a, fields₁, rfl, h₁⟩ := Json.fields_cons hkeys
        obtain ⟨b, fields₂, rfl, h₂⟩ := Json.fields_cons h₁
        obtain ⟨c, fields₃, rfl, h₃⟩ := Json.fields_cons h₂
        obtain ⟨d, fields₄, rfl, h₄⟩ := Json.fields_cons h₃
        obtain ⟨f, fields₅, rfl, h₅⟩ := Json.fields_cons h₄
        obtain ⟨g, fields₆, rfl, h₆⟩ := Json.fields_cons h₅
        obtain rfl := List.map_eq_nil_iff.mp h₆
        have ha : a = .arr (first :: blocks) := Option.some.inj hblocks
        have hb : b = context.elim .null .str := Option.some.inj hstored
        have hc : c = .str fingerprint.text := Option.some.inj hdestination
        have hd : d = .str MULTIMODAL_PAYLOAD_SCHEMA := Option.some.inj hschema
        have hf : f = .arr hashes := Option.some.inj hhashes
        have hg : g = .str timestamp := Option.some.inj htimestamp
        subst ha hb hc hd hf hg
        have hitem : ∀ block ∈ first :: blocks, InKeyOrder block := fun block hblock =>
          (horder.value List.mem_cons_self).item hblock
        obtain ⟨t, rfl⟩ := (hitem first List.mem_cons_self).textBlock htext
        rw [isTextBlock_sorted, Bool.and_eq_true, Bool.not_eq_true', decide_eq_true_eq] at htext
        obtain ⟨attachments, rfl, rfl, hsum⟩ := attachments_of_check
          (fun block hblock => hitem block (List.mem_cons_of_mem _ hblock)) hcheck
        rw [List.length_map] at hcount hle
        have hne : attachments ≠ [] := List.length_pos_iff.mp hcount
        have hbytes := hsum hne
        rw [Nat.zero_add] at hbytes
        let e : Envelope lib config := ⟨fingerprint, hfingerprint, timestamp, hclock.1, hclock.2,
          context, hshort, t, htext.1, htext.2, attachments, hne, hle, hbytes⟩
        have hdecoded := e.decoded_eq
        refine ⟨e, hdecoded, ?_⟩
        rw [← e.canonicalJson_decoded, hdecoded]
        exact hcanonical
      · cases h
    · cases h
  · cases h

theorem decoded_injective {e e' : Envelope lib config} (h : e.decoded = e'.decoded) : e = e' := by
  rw [decoded_eq, decoded_eq] at h
  simp only [Json.obj.injEq, List.cons.injEq, Prod.mk.injEq, Json.arr.injEq, Json.str.injEq,
    and_true, true_and] at h
  obtain ⟨⟨htext, hblocks⟩, hcontext, hfingerprint, -, htimestamp⟩ := h
  rw [sorted_textBlock, sorted_textBlock] at htext
  simp only [Json.obj.injEq, List.cons.injEq, Prod.mk.injEq, Json.str.injEq, and_true,
    true_and] at htext
  have hattachments : e.attachments = e'.attachments :=
    List.map_injective_iff.mpr (fun _ _ => Attachment.block_injective) hblocks
  have hcontexts : e.context = e'.context := by
    cases hc : e.context <;> cases hc' : e'.context <;> simp_all
  have hfingerprints := HexDigest.ext hfingerprint
  cases e
  cases e'
  cases htext
  cases hattachments
  cases hcontexts
  cases htimestamp
  cases hfingerprints
  rfl

theorem content_injective {e e' : Envelope lib config} (h : e.content = e'.content) : e = e' := by
  have hloads := e.loads_content
  rw [h, e'.loads_content, Option.some_inj] at hloads
  exact decoded_injective hloads.symm

end Envelope

/-- **`decode_envelope` accepts exactly the canonical encodings of envelopes** that fit, and each of
them is the encoding of one envelope. -/
theorem decodeEnvelope_iff {lib : Stdlib} {config : BetterHindsightConfig} {content : Text} {v : Json} :
    decodeEnvelope lib config content = some v ↔
      (utf8Len content : ℤ) ≤ config.multimodal.maxEncodedBytes ∧
        ∃! e : Envelope lib config, e.content = content ∧ e.decoded = v := by
  constructor
  · intro h
    obtain ⟨hsize, e, hdecoded, hcontent⟩ := Envelope.of_decoded h
    exact ⟨hsize, e, ⟨hcontent, hdecoded⟩, fun e' he' =>
      Envelope.content_injective (he'.1.trans hcontent.symm)⟩
  · rintro ⟨hsize, e, ⟨rfl, rfl⟩, -⟩
    exact e.decodeEnvelope_content hsize

end BetterHindsight
