import BetterHindsight.Foundations.Scans
import BetterHindsight.Multimodal.Envelope
import BetterHindsight.Redaction.Marks

/-! # Building a multimodal segment

`build_multimodal_segment`: what it reads from the disk and the segment that it makes.

* `LocalFiles`, `readLocal`: the file system at the moment of one read.
* `readAttachments`: the loop over the requested attachments.
* `buildMultimodalSegment_iff`: which requests end in a segment, and in which one. -/

namespace BetterHindsight
set_option autoImplicit false

/-! ## Local files -/

/-- What `_read_local` finds behind a descriptor that it opened. -/
structure OpenedFile where
  isRegular : Bool
  /-- `st_size` when the file was opened -/
  size : ℕ
  /-- the path still names the opened file -/
  isCurrent : Bool
  bytes : List UInt8
  /-- the second `fstat` reports the size and the times of the first -/
  isUnchanged : Bool

structure LocalFiles where
  /-- `raise_if_read_blocked` raises -/
  isBlocked : Text → Bool
  /-- the components below the root, opened one after the other without following links; `none`
  stands for `OSError` -/
  openFile : List Text → Option OpenedFile

section Paths
variable (lib : Stdlib)

/-- `path.is_absolute() and ".." not in path.parts and any(path.is_relative_to(root) ...)` -/
def isWithinRoots (roots : List Text) (path : Text) : Bool :=
  (lib.pathParts path).head?.any (fun part => part.head? == some '/') &&
    !(lib.pathParts path).contains "..".toList &&
    roots.any fun root => (lib.pathParts root).isPrefixOf (lib.pathParts path)

/-- `Path(value).name` -/
def pathName (value : Text) : Text :=
  ((lib.pathParts value).filter fun part => part.head? != some '/').getLast?.getD []

def readLocal (files : LocalFiles) (path : Text) (roots : List Text) (maximum : ℤ) :
    Option (List UInt8) :=
  if isWithinRoots lib roots path && decide (0 < maximum) && !files.isBlocked (lib.pathText path) then
    match files.openFile (lib.pathParts path).tail with
    | none => none
    | some file =>
      if file.isRegular && decide (0 < file.size ∧ (file.size : ℤ) ≤ maximum) && file.isCurrent then
        let data := file.bytes.take (maximum + 1).toNat
        if decide (data.length = file.size ∧ (data.length : ℤ) ≤ maximum) && file.isUnchanged then
          some data
        else none
      else none
  else none

end Paths

/-- The file is one that may be read, and `data` is all of it. -/
structure ReadWhole (lib : Stdlib) (files : LocalFiles) (path : Text) (roots : List Text)
    (maximum : ℤ) (data : List UInt8) : Prop where
  within : isWithinRoots lib roots path = true
  allowed : files.isBlocked (lib.pathText path) = false
  whole : ∃ file, files.openFile (lib.pathParts path).tail = some file ∧ file.isRegular = true ∧
    file.isCurrent = true ∧ file.isUnchanged = true ∧ file.size = data.length ∧ file.bytes = data
  ne_nil : data ≠ []
  le : (data.length : ℤ) ≤ maximum

/-- `_read_local` returns a file as a whole or not at all. -/
theorem readLocal_eq_some {lib : Stdlib} {files : LocalFiles} {path : Text} {roots : List Text}
    {maximum : ℤ} {data : List UInt8} : readLocal lib files path roots maximum = some data ↔
      ReadWhole lib files path roots maximum data := by
  constructor
  · intro h
    unfold readLocal at h
    split at h
    · rename_i hpath
      split at h
      · cases h
      · rename_i file hfile
        split at h
        · rename_i hopened
          dsimp only at h
          split at h
          · rename_i hread
            cases h
            simp only [Bool.and_eq_true, Bool.not_eq_true', decide_eq_true_eq] at hpath hopened hread
            obtain ⟨⟨hwithin, -⟩, hallowed⟩ := hpath
            obtain ⟨⟨hregular, hpos, -⟩, hcurrent⟩ := hopened
            obtain ⟨⟨hlength, hle⟩, hunchanged⟩ := hread
            have htake : file.bytes.take (maximum + 1).toNat = file.bytes := by
              apply List.take_of_length_le
              rw [List.length_take] at hle
              omega
            rw [htake] at hlength hle ⊢
            refine ⟨hwithin, hallowed, ⟨file, hfile, hregular, hcurrent, hunchanged, hlength.symm,
              rfl⟩, ?_, hle⟩
            exact List.length_pos_iff.mp (by omega)
          · cases h
        · cases h
    · cases h
  · rintro ⟨hwithin, hallowed, ⟨file, hfile, hregular, hcurrent, hunchanged, hsize, rfl⟩, hne, hle⟩
    have hpos := List.length_pos_iff.mpr hne
    have htake : file.bytes.take (maximum + 1).toNat = file.bytes :=
      List.take_of_length_le (by omega)
    have hmaximum : 0 < maximum := by omega
    simp [readLocal, hwithin, hallowed, hfile, hregular, hcurrent, hunchanged, hsize, htake, hpos, hle,
      hmaximum]

/-! ## Requested attachments -/

/-- What one round of the loop leaves of a requested attachment. -/
structure ReadAttachment where
  kind : Text
  mediaType : Text
  filename : Option Text
  raw : List UInt8
  deriving DecidableEq

def ReadAttachment.block (a : ReadAttachment) : Json :=
  attachmentBlock a.kind a.mediaType a.filename a.raw

/-- The bytes of what was read. -/
def totalRead (read : List ReadAttachment) : ℕ := (read.map fun a => a.raw.length).sum

section Reading
variable (lib : Stdlib)

/-- One round of the loop, with what is left of the byte limit. -/
def readAttachment (files : LocalFiles) (roots : List Text) (remaining : ℤ) :
    Json → Option ReadAttachment
  | .obj fields =>
    if hasExactKeys fields ["path", "kind", "media_type"] then
      match strField fields "kind", strField fields "media_type", strField fields "path" with
      | some kind, some mediaType, some path =>
        if (mediaTypes kind).any (fun media => media.contains mediaType) &&
            decide (path.length ≤ 4096) then
          (readLocal lib files path roots remaining).map fun raw =>
            { kind, mediaType, raw
              filename := if kind = "file".toList then some (safeFilename lib (pathName lib path))
                else none }
        else none
      | _, _, _ => none
    else none
  | _ => none

/-- The loop over the attachments from the `i`-th read on; every read has a file system of its own. -/
def readAttachments (files : ℕ → LocalFiles) (roots : List Text) :
    ℕ → ℤ → List Json → Option (List ReadAttachment)
  | _, _, [] => some []
  | i, remaining, item :: items =>
    match readAttachment lib (files i) roots remaining item with
    | none => none
    | some a => (readAttachments files roots (i + 1) (remaining - a.raw.length) items).map (a :: ·)

/-- The attachment is what the request asks for, read whole at its turn. -/
structure Requested (files : LocalFiles) (roots : List Text) (remaining : ℤ) (item : Json)
    (a : ReadAttachment) : Prop where
  asked : ∃ fields path, item = .obj fields ∧ hasExactKeys fields ["path", "kind", "media_type"] ∧
    strField fields "kind" = some a.kind ∧ strField fields "media_type" = some a.mediaType ∧
    strField fields "path" = some path ∧ path.length ≤ 4096 ∧
    a.filename = (if a.kind = "file".toList then some (safeFilename lib (pathName lib path))
      else none) ∧
    ReadWhole lib files path roots remaining a.raw
  media : ∃ media, mediaTypes a.kind = some media ∧ a.mediaType ∈ media

end Reading

section Read
variable {lib : Stdlib} {files : ℕ → LocalFiles} {roots : List Text}

theorem readAttachment_eq_some {files : LocalFiles} {remaining : ℤ} {item : Json}
    {a : ReadAttachment} : readAttachment lib files roots remaining item = some a ↔
      Requested lib files roots remaining item a := by
  constructor
  · intro h
    unfold readAttachment at h
    split at h
    · rename_i fields
      split at h
      · rename_i hkeys
        split at h
        · rename_i kind mediaType path hkind hmediaType hpath
          split at h
          · rename_i hvalid
            rw [Bool.and_eq_true, decide_eq_true_eq, Option.any_eq_true] at hvalid
            obtain ⟨⟨media, hmedia, hmem⟩, hshort⟩ := hvalid
            obtain ⟨raw, hraw, rfl⟩ := Option.map_eq_some_iff.mp h
            exact ⟨⟨fields, path, rfl, hkeys, hkind, hmediaType, hpath, hshort, rfl,
              readLocal_eq_some.mp hraw⟩, media, hmedia, by simpa using hmem⟩
          · cases h
        · cases h
      · cases h
    · cases h
  · rintro ⟨⟨fields, path, rfl, hkeys, hkind, hmediaType, hpath, hshort, hname, hread⟩,
      media, hmedia, hmem⟩
    have hraw := readLocal_eq_some.mpr hread
    obtain ⟨kind, mediaType, filename, raw⟩ := a
    dsimp only at hkind hmediaType hname hraw hmedia hmem
    rw [readAttachment, if_pos hkeys, hkind, hmediaType, hpath]
    dsimp only
    rw [if_pos, hraw, hname]
    · rfl
    · rw [Bool.and_eq_true, hmedia, decide_eq_true_eq]
      exact ⟨by simpa using hmem, hshort⟩

theorem remaining_cons (remaining : ℤ) (a : ReadAttachment) (rest : List ReadAttachment) (k : ℕ) :
    remaining - totalRead ((a :: rest).take (k + 1)) =
      remaining - a.raw.length - totalRead (rest.take k) := by
  rw [List.take_succ_cons, totalRead, List.map_cons, List.sum_cons, totalRead]
  omega

/-- The loop reads the attachments in order, each within what the ones before it left. -/
theorem readAttachments_eq_some {i : ℕ} {remaining : ℤ} {items : List Json}
    {read : List ReadAttachment} :
    readAttachments lib files roots i remaining items = some read ↔
      read.length = items.length ∧ ∀ k (hi : k < items.length) (ha : k < read.length),
        Requested lib (files (i + k)) roots
          (remaining - totalRead (read.take k)) items[k] read[k] := by
  induction items generalizing i remaining read with
  | nil =>
    rw [readAttachments, Option.some_inj]
    constructor
    · rintro rfl
      exact ⟨rfl, fun k hi => absurd hi (Nat.not_lt_zero k)⟩
    · rintro ⟨hlength, -⟩
      exact (List.length_eq_zero_iff.mp hlength).symm
  | cons item items ih =>
    rw [readAttachments]
    constructor
    · intro h
      split at h
      · cases h
      · rename_i a ha
        obtain ⟨rest, hrest, rfl⟩ := Option.map_eq_some_iff.mp h
        obtain ⟨hlength, hall⟩ := ih.mp hrest
        refine ⟨by rw [List.length_cons, List.length_cons, hlength], fun k hi hk => ?_⟩
        cases k with
        | zero => simpa [totalRead] using readAttachment_eq_some.mp ha
        | succ k =>
          have hnext := hall k (Nat.lt_of_succ_lt_succ hi) (Nat.lt_of_succ_lt_succ hk)
          rw [Nat.add_right_comm] at hnext
          rw [remaining_cons]
          exact hnext
    · rintro ⟨hlength, hall⟩
      cases read with
      | nil => cases hlength
      | cons a rest =>
        have hfirst := hall 0 (Nat.succ_pos _) (Nat.succ_pos _)
        rw [List.take_zero, totalRead, List.map_nil, List.sum_nil, Nat.cast_zero, sub_zero] at hfirst
        have hread : readAttachment lib (files i) roots remaining item = some a :=
          readAttachment_eq_some.mpr hfirst
        rw [hread]
        dsimp only
        rw [Option.map_eq_some_iff]
        refine ⟨rest, ih.mpr ⟨Nat.succ.inj hlength, fun k hi hk => ?_⟩, rfl⟩
        have hnext := hall (k + 1) (Nat.succ_lt_succ hi) (Nat.succ_lt_succ hk)
        rw [remaining_cons] at hnext
        rw [Nat.add_right_comm]
        exact hnext

end Read

/-! ## Time stamps -/

/-- `value.isoformat()`, which leaves out a fraction of zero. -/
def UtcDateTime.isoformatAuto (d : UtcDateTime) : Text :=
  if (d.microsecond : ℕ) = 0 then
    zeroPadded 4 d.year ++ '-' :: zeroPadded 2 d.month ++ '-' :: zeroPadded 2 d.day ++
      'T' :: zeroPadded 2 d.hour ++ ':' :: zeroPadded 2 d.minute ++ ':' :: zeroPadded 2 d.second ++
      "+00:00".toList
  else d.isoformat

theorem length_zeroPadded {width n : ℕ} (hwidth : 0 < width) (h : n < 10 ^ width) :
    (zeroPadded width n).length = width := by
  have hlen : (Nat.toDigits 10 n).length ≤ width := Nat.toDigits_length 10 n width hwidth h
  rw [zeroPadded, List.length_append, List.length_replicate]
  omega

theorem length_isoformatAuto (d : UtcDateTime) : d.isoformatAuto.length ≤ 64 := by
  have htwo : (0 : ℕ) < 2 := by decide
  have hmonth : (d.month : ℕ) < 10 ^ 2 := d.month.isLt.trans (by decide)
  have hday : (d.day : ℕ) < 10 ^ 2 := d.day.isLt.trans (by decide)
  have hhour : (d.hour : ℕ) < 10 ^ 2 := d.hour.isLt.trans (by decide)
  have hminute : (d.minute : ℕ) < 10 ^ 2 := d.minute.isLt.trans (by decide)
  have hsecond : (d.second : ℕ) < 10 ^ 2 := d.second.isLt.trans (by decide)
  have hyear := length_zeroPadded (by decide : 0 < 4) d.year.isLt
  have hmicrosecond := length_zeroPadded (by decide : 0 < 6) d.microsecond.isLt
  have hzone : "+00:00".toList.length = 6 := by decide
  unfold UtcDateTime.isoformatAuto UtcDateTime.isoformat
  split_ifs <;> simp only [List.length_append, List.length_cons, hyear, hmicrosecond, hzone,
    length_zeroPadded htwo hmonth, length_zeroPadded htwo hday, length_zeroPadded htwo hhour,
    length_zeroPadded htwo hminute, length_zeroPadded htwo hsecond] <;> omega

/-! ## The builder -/

section Builder
variable (lib : Stdlib)

/-- The envelope of a request, encoded. -/
def requestEnvelope (fingerprint : HexDigest) (now : UtcDateTime) (content : Text)
    (context : Option Text) (read : List ReadAttachment) : Text :=
  canonicalJson (envelopeJson fingerprint.text now.isoformatAuto
    (context.map (redactSensitiveText lib))
    (textBlock (redactSensitiveText lib content) :: read.map ReadAttachment.block)
    (read.map fun a => (lib.sha256 a.raw).text))

/-- The one segment of an envelope. -/
def multimodalSegment (envelope : Text) : RetainedSegment :=
  let source := (lib.sha256Text envelope).text
  let digest := deriveSegmentPayloadHash lib MULTIMODAL_PAYLOAD_SCHEMA source 0 1 envelope
  { documentId := MULTIMODAL_PAYLOAD_SCHEMA ++ ':' :: digest
    payloadHash := digest
    payloadSchema := MULTIMODAL_PAYLOAD_SCHEMA
    sourceSha256 := source
    segmentIndex := 0
    segmentCount := 1
    content := envelope }

/-- `build_multimodal_segment`; `none` stands for its one error. -/
def buildMultimodalSegment (config : BetterHindsightConfig) (files : ℕ → LocalFiles)
    (now : UtcDateTime) (content : Text) (context : Option Text) (attachments : Json) :
    Option RetainedSegment :=
  match attachments with
  | .arr items =>
    if config.multimodal.enabled && config.retain.enabled &&
        decide (1 ≤ items.length ∧ (items.length : ℤ) ≤ config.multimodal.maxAttachments) &&
        !isBlank content && decide (content.length ≤ 16384) then
      match readAttachments lib files config.multimodal.allowedRoots 0
          config.multimodal.maxDecodedBytes items, config.multimodalDestinationFingerprint lib with
      | some read, .ok fingerprint =>
        let envelope := requestEnvelope lib fingerprint now content context read
        (decodeEnvelope lib config envelope).map fun _ => multimodalSegment lib envelope
      | _, _ => none
    else none
  | _ => none

end Builder

/-! ## Redaction shows something -/

section Redacted
open Regex Redaction

/-- A substitution of visible texts leaves a visible text visible. -/
theorem isBlank_sub {r : Regex} {f : Match → Text} {t : Text}
    (hf : ∀ m, Match.Of r m → isBlank (f m) = false) (h : isBlank t = false) :
    isBlank (r.sub f t) = false := by
  have happend : ∀ {u v : Text}, isBlank (u ++ v) = true → isBlank u = true ∧ isBlank v = true := by
    intro u v huv
    rw [isBlank_iff, List.forall_mem_append] at huv
    exact ⟨isBlank_iff.mpr huv.1, isBlank_iff.mpr huv.2⟩
  cases hmatches : (r.finditer t).1 with
  | nil => rw [sub_of_finditer_nil hmatches, h]
  | cons p ms =>
    have hp : isBlank (f p.2) = false := by
      apply hf
      apply finditer_of r t p
      rw [hmatches]
      exact List.mem_cons_self
    by_contra hblank
    rw [Bool.not_eq_false, Regex.sub, hmatches, List.flatMap_cons] at hblank
    have hfirst := (happend (happend (happend hblank).1).1).2
    rw [hp] at hfirst
    cases hfirst

theorem isBlank_redact (lib : Stdlib) {t : Text} (h : isBlank t = false) :
    isBlank (redactSensitiveText lib t) = false := by
  have hmarks : ∀ {m : Match} {out : Text}, Marks REDACTION_MARKER m out → isBlank out = false := by
    rintro m out ⟨head, old, tail, -, rfl⟩
    by_contra hblank
    rw [Bool.not_eq_false, isBlank_iff] at hblank
    have hbracket : '[' ∈ REDACTION_MARKER := by decide
    have hspace := hblank '[' (List.mem_append_left _ (List.mem_append_right _ hbracket))
    have hvisible : isSpace '[' = false := by decide
    rw [hvisible] at hspace
    cases hspace
  have hpass : ∀ (r : Regex) (f : Match → Text), (∀ m, Match.Of r m → Marks REDACTION_MARKER m (f m)) →
      ∀ {u : Text}, isBlank u = false → isBlank (r.sub f u) = false :=
    fun r f hf u hu => isBlank_sub (fun m hm => hmarks (hf m hm)) hu
  refine hpass _ _ (fun m hm => (url_redacts hm).marks) ?_
  refine hpass _ _ (fun m hm => (apiKey_redacts hm).marks) ?_
  refine hpass _ _ (fun m hm => (bearer_redacts hm).marks) ?_
  refine hpass _ _ (fun m hm => (authorization_redacts hm).marks) ?_
  refine hpass _ _ (fun m hm => (privateKey_redacts hm).marks) ?_
  exact h

end Redacted

/-! ## Which requests end in a segment -/

theorem totalRead_le {lib : Stdlib} {files : ℕ → LocalFiles} {roots : List Text} {i : ℕ}
    {remaining : ℤ} {items : List Json} {read : List ReadAttachment}
    (h : readAttachments lib files roots i remaining items = some read) (hne : read ≠ []) :
    (totalRead read : ℤ) ≤ remaining := by
  induction items generalizing i remaining read with
  | nil => exact absurd (Option.some.inj h).symm hne
  | cons item items ih =>
    rw [readAttachments] at h
    split at h
    · cases h
    · rename_i a ha
      obtain ⟨rest, hrest, rfl⟩ := Option.map_eq_some_iff.mp h
      obtain ⟨⟨_, _, -, -, -, -, -, -, -, hread⟩, -⟩ := readAttachment_eq_some.mp ha
      have hle := hread.le
      rw [totalRead, List.map_cons, List.sum_cons, ← totalRead]
      by_cases hnil : rest = []
      · subst hnil
        simpa [totalRead] using hle
      · have hrestLe := ih hrest hnil
        omega

/-- What is asked of a request, given what was read for it and the envelope that it makes. -/
structure Acceptable (lib : Stdlib) (config : BetterHindsightConfig) (content : Text)
    (context : Option Text) (read : List ReadAttachment) (envelope : Text) : Prop where
  enabled : config.multimodal.enabled = true ∧ config.retain.enabled = true
  attached : read ≠ []
  attached_le : (read.length : ℤ) ≤ config.multimodal.maxAttachments
  spoken : isBlank content = false
  content_le : content.length ≤ 16384
  redacted_le : (redactSensitiveText lib content).length ≤ 16384
  context_le : ∀ t ∈ context, (redactSensitiveText lib t).length ≤ 1024
  filenames : ∀ a ∈ read, ∀ name ∈ a.filename, safeFilename lib name = name
  encoded_le : (utf8Len envelope : ℤ) ≤ config.multimodal.maxEncodedBytes

def Attachment.toRead {lib : Stdlib} (a : Attachment lib) : ReadAttachment :=
  ⟨a.kind.text, a.mediaType, a.kind.filename, a.raw⟩

theorem Attachment.block_toRead {lib : Stdlib} (a : Attachment lib) : a.toRead.block = a.block := rfl

theorem safe_filename {lib : Stdlib} (kind : AttachmentKind lib) {name : Text}
    (h : name ∈ kind.filename) : safeFilename lib name = name := by
  cases kind with
  | image => cases h
  | file filename =>
    obtain rfl : filename.text = name := Option.some.inj h
    exact filename.safe

/-- What was read is attachments of an envelope once its filenames are safe. -/
theorem exists_attachments {lib : Stdlib} {files : ℕ → LocalFiles} {roots : List Text} {i : ℕ}
    {remaining : ℤ} {items : List Json} {read : List ReadAttachment}
    (h : readAttachments lib files roots i remaining items = some read)
    (hsafe : ∀ a ∈ read, ∀ name ∈ a.filename, safeFilename lib name = name) :
    ∃ attachments : List (Attachment lib), attachments.map Attachment.toRead = read := by
  obtain ⟨hlength, hall⟩ := readAttachments_eq_some.mp h
  have hone : ∀ a ∈ read, ∃ attachment : Attachment lib, attachment.toRead = a := by
    intro a ha
    obtain ⟨k, hk, rfl⟩ := List.mem_iff_getElem.mp ha
    obtain ⟨⟨_, path, -, -, -, -, -, -, hname, hread⟩, media, hmedia, hmem⟩ :=
      hall k (hlength ▸ hk) hk
    have hsafe' := hsafe _ ha
    generalize read[k] = a at hname hread hmedia hmem hsafe' ⊢
    obtain ⟨kind, mediaType, filename, raw⟩ := a
    dsimp only at hname hread hmedia hmem hsafe'
    rcases mediaTypes_eq_some hmedia with rfl | rfl
    · rw [if_neg (by decide)] at hname
      obtain rfl : imageMedia = media := Option.some.inj hmedia
      exact ⟨⟨.image, mediaType, raw, hmem, hread.ne_nil⟩, by rw [hname]; rfl⟩
    · rw [if_pos rfl] at hname
      obtain rfl : fileMedia = media := Option.some.inj hmedia
      obtain ⟨name, rfl⟩ : ∃ name, filename = some name := ⟨_, hname⟩
      exact ⟨⟨.file ⟨name, hsafe' name rfl⟩, mediaType, raw, hmem, hread.ne_nil⟩, rfl⟩
  have hrange : read ∈ Set.range (List.map (@Attachment.toRead lib)) := by
    rw [Set.range_list_map]
    exact hone
  exact hrange

section Request
variable {lib : Stdlib} {config : BetterHindsightConfig} {files : ℕ → LocalFiles} {now : UtcDateTime}
  {content : Text} {context : Option Text} {read : List ReadAttachment} {fingerprint : HexDigest}

theorem distinct_request (destination timestamp text : Text) (context : Option Text)
    (read : List ReadAttachment) (hashes : List Text) :
    (envelopeJson destination timestamp context (textBlock text :: read.map ReadAttachment.block)
      hashes).Distinct := by
  refine distinct_envelopeJson _ _ _ _ fun b hb => ?_
  rcases List.mem_cons.mp hb with rfl | hb
  · exact distinct_textBlock text
  · obtain ⟨a, -, rfl⟩ := List.mem_map.mp hb
    exact distinct_attachmentBlock _ _ _ _

/-- What the validation of its own envelope asks of a request. -/
theorem request_of_decoded {v : Json}
    (h : decodeEnvelope lib config (requestEnvelope lib fingerprint now content context read) =
      some v) :
    (utf8Len (requestEnvelope lib fingerprint now content context read) : ℤ) ≤
        config.multimodal.maxEncodedBytes ∧
      (redactSensitiveText lib content).length ≤ 16384 ∧
      (∀ t ∈ context, (redactSensitiveText lib t).length ≤ 1024) ∧
      ∀ a ∈ read, ∀ name ∈ a.filename, safeFilename lib name = name := by
  obtain ⟨hsize, e, -, hcontent⟩ := Envelope.of_decoded h
  have hsame := Json.dumps_injective Json.quotes_raw e.distinct_json
    (distinct_request _ _ _ _ _ _) hcontent
  rw [← Envelope.decoded, e.decoded_eq, sorted_envelopeJson, List.map_cons, sorted_textBlock,
    sorted_textBlock, List.map_map] at hsame
  simp only [Json.obj.injEq, List.cons.injEq, Prod.mk.injEq, Json.arr.injEq, Json.str.injEq,
    and_true, true_and] at hsame
  obtain ⟨⟨htext, hblocks⟩, hcontext, -⟩ := hsame
  refine ⟨hsize, htext ▸ e.text_le, fun t ht => ?_, fun a ha name hname => ?_⟩
  · have hle := e.context_le
    cases hstored : e.context with
    | none =>
      rw [hstored, Option.mem_def.mp ht, Option.map_some, Option.elim_none, Option.elim_some] at hcontext
      cases hcontext
    | some t' =>
      rw [hstored, Option.mem_def.mp ht, Option.map_some, Option.elim_some, Option.elim_some,
        Json.str.injEq] at hcontext
      rw [← hcontext]
      exact hle t' hstored
  · have hmem : a.block.sorted ∈ e.attachments.map fun a => a.block.sorted :=
      hblocks ▸ List.mem_map_of_mem ha
    obtain ⟨attachment, -, hblock⟩ := List.mem_map.mp hmem
    obtain ⟨-, -, hfilename, -⟩ := attachmentBlock_injective hblock
    exact safe_filename attachment.kind (hfilename ▸ hname)

/-- The segment is the one of a request that is acceptable, with what was read for it. -/
structure BuiltFrom (lib : Stdlib) (config : BetterHindsightConfig) (files : ℕ → LocalFiles)
    (now : UtcDateTime) (content : Text) (context : Option Text) (items : List Json)
    (read : List ReadAttachment) (fingerprint : HexDigest) (segment : RetainedSegment) : Prop where
  read_eq : readAttachments lib files config.multimodal.allowedRoots 0
    config.multimodal.maxDecodedBytes items = some read
  fingerprint_eq : config.multimodalDestinationFingerprint lib = .ok fingerprint
  acceptable : Acceptable lib config content context read
    (requestEnvelope lib fingerprint now content context read)
  segment_eq : segment =
    multimodalSegment lib (requestEnvelope lib fingerprint now content context read)

theorem request_of_built {attachments : Json} {segment : RetainedSegment}
    (h : buildMultimodalSegment lib config files now content context attachments = some segment) :
    ∃ items read fingerprint, attachments = .arr items ∧
      BuiltFrom lib config files now content context items read fingerprint segment := by
  unfold buildMultimodalSegment at h
  split at h
  · rename_i items
    split at h
    · rename_i hvalid
      split at h
      · rename_i read fingerprint hread hfingerprint
        simp only [Bool.and_eq_true, Bool.not_eq_true', decide_eq_true_eq] at hvalid
        obtain ⟨⟨⟨henabled, hcount⟩, hspoken⟩, hshort⟩ := hvalid
        obtain ⟨v, hdecoded, rfl⟩ := Option.map_eq_some_iff.mp h
        obtain ⟨hsize, htext, hcontext, hnames⟩ := request_of_decoded hdecoded
        have hlength := (readAttachments_eq_some.mp hread).1
        refine ⟨items, read, fingerprint, rfl, hread, hfingerprint, ⟨henabled, ?_, hlength ▸ hcount.2,
          hspoken, hshort, htext, hcontext, hnames, hsize⟩, rfl⟩
        exact List.length_pos_iff.mp (hlength ▸ hcount.1)
      · cases h
    · cases h
  · cases h

/-- The envelope that a built segment carries. -/
theorem BuiltFrom.envelope
    (hclock : ∀ d : UtcDateTime, lib.fromIsoformat d.isoformatAuto = some true) {items : List Json}
    {segment : RetainedSegment}
    (h : BuiltFrom lib config files now content context items read fingerprint segment) :
    ∃ e : Envelope lib config,
      e.content = requestEnvelope lib fingerprint now content context read ∧
      e.text = redactSensitiveText lib content ∧ e.timestamp = now.isoformatAuto ∧
      e.context = context.map (redactSensitiveText lib) ∧
      e.attachments.map Attachment.toRead = read := by
  obtain ⟨hread, hfingerprint, hok, -⟩ := h
  obtain ⟨attached, rfl⟩ := exists_attachments hread hok.filenames
  have hne : attached ≠ [] := fun hnil => hok.attached (by rw [hnil, List.map_nil])
  have htotal := totalRead_le hread hok.attached
  rw [totalRead, List.map_map] at htotal
  let e : Envelope lib config := {
    fingerprint
    stated := hfingerprint
    timestamp := now.isoformatAuto
    timestamp_le := length_isoformatAuto now
    zoned := hclock now
    context := context.map (redactSensitiveText lib)
    context_le := by
      intro t ht
      obtain ⟨t', ht', rfl⟩ := Option.map_eq_some_iff.mp ht
      exact hok.context_le t' ht'
    text := redactSensitiveText lib content
    spoken := isBlank_redact lib hok.spoken
    text_le := hok.redacted_le
    attachments := attached
    attached := hne
    attachments_le := by simpa using hok.attached_le
    bytes_le := htotal }
  refine ⟨e, ?_, rfl, rfl, rfl, rfl⟩
  rw [requestEnvelope, List.map_map, List.map_map]
  rfl

/-- **A request ends in a segment** exactly when its attachments can be read within the limits, its
envelope fits, and redaction leaves its texts within theirs and its filenames as they are. -/
theorem buildMultimodalSegment_iff
    (hclock : ∀ d : UtcDateTime, lib.fromIsoformat d.isoformatAuto = some true)
    {attachments : Json} {segment : RetainedSegment} :
    buildMultimodalSegment lib config files now content context attachments = some segment ↔
      ∃ items read fingerprint, attachments = .arr items ∧
        BuiltFrom lib config files now content context items read fingerprint segment := by
  constructor
  · exact request_of_built
  · rintro ⟨items, read, fingerprint, rfl, hbuilt⟩
    obtain ⟨e, hcontent, -⟩ := hbuilt.envelope hclock
    obtain ⟨hread, hfingerprint, hok, rfl⟩ := hbuilt
    have hlength := (readAttachments_eq_some.mp hread).1
    have hdecoded := e.decodeEnvelope_content (hcontent ▸ hok.encoded_le)
    have hpos : 1 ≤ items.length := by
      rw [← hlength]
      exact List.length_pos_iff.mpr hok.attached
    have hle : (items.length : ℤ) ≤ config.multimodal.maxAttachments := hlength ▸ hok.attached_le
    rw [buildMultimodalSegment, if_pos, hread, hfingerprint]
    · dsimp only
      rw [← hcontent, hdecoded]
      rfl
    · simp [hok.enabled, hok.spoken, hok.content_le, hpos, hle]

end Request

/-! ## A note with one file -/

def noteConfig : BetterHindsightConfig :=
  { defaultConfig with
    retain := { defaultConfig.retain with enabled := true }
    multimodal := { defaultConfig.multimodal with enabled := true, allowedRoots := ["/notes"] } }

def noteTime : UtcDateTime := ⟨2026, 1, 2, 3, 4, 5, 6⟩

def noteText : Text := "Tea at five."

def noteFile : ReadAttachment := ⟨"file", "text/plain", some "tea.txt", encode "tea"⟩

def noteFiles : ℕ → LocalFiles := fun _ =>
  { isBlocked := fun _ => false
    openFile := fun parts =>
      if parts = ["notes", "tea.txt"] then some ⟨true, 3, true, encode "tea", true⟩ else none }

def noteRequest : Json := .arr [.obj [("path", .str "/notes/tea.txt"), ("kind", .str "file"),
  ("media_type", .str "text/plain")]]

def noteDestination : HexDigest :=
  .ofNat 0x497651d555d479c33f020748b990743c7890bb9eff83700fce9fb73dcf452c77

def noteFingerprint : HexDigest :=
  .ofNat 0xa4df7b9ae0fe26abe2ccb7a2830569fa1009975c36bff8b7cc203dd86211e060

def noteFileHash : HexDigest :=
  .ofNat 0xa9f74d1ec36ebdeb2da3f6e5868090cd2a2d20b3dcca7b62f60304b1d3d9ef42

def noteSource : HexDigest :=
  .ofNat 0x68134a47d5110ebda82e613fd0ab0d07e083628c89c9106182bbf4655a5ba0fc

def noteEnvelope : Text :=
  canonicalJson (envelopeJson noteFingerprint.text noteTime.isoformatAuto none
    [textBlock noteText, noteFile.block] [noteFileHash.text])

def noteLib : Stdlib := .ofDigests [
  (noteConfig.destinationText MULTIMODAL_PAYLOAD_SCHEMA,
    0x497651d555d479c33f020748b990743c7890bb9eff83700fce9fb73dcf452c77),
  (asciiJson (policyJson noteDestination.text noteConfig),
    0xa4df7b9ae0fe26abe2ccb7a2830569fa1009975c36bff8b7cc203dd86211e060),
  ("tea", 0xa9f74d1ec36ebdeb2da3f6e5868090cd2a2d20b3dcca7b62f60304b1d3d9ef42),
  (noteEnvelope, 0x68134a47d5110ebda82e613fd0ab0d07e083628c89c9106182bbf4655a5ba0fc),
  (canonicalJson (segmentRecord MULTIMODAL_PAYLOAD_SCHEMA noteSource.text 0 1 noteEnvelope),
    0x5de411010d9aac18450421dbdc40c9892cf000253cd0f8ba580592b0d5c0bbe9)]

theorem note_built : buildMultimodalSegment noteLib noteConfig noteFiles noteTime noteText none
    noteRequest = some (multimodalSegment noteLib noteEnvelope) := by
  decide +kernel

theorem buildMultimodalSegment_iff_note : ∃ items read fingerprint, noteRequest = .arr items ∧
    BuiltFrom noteLib noteConfig noteFiles noteTime noteText none items read fingerprint
      (multimodalSegment noteLib noteEnvelope) :=
  (buildMultimodalSegment_iff fun _ => rfl).mp note_built

end BetterHindsight
