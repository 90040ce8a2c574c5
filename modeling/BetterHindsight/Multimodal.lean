import BetterHindsight.Retention.Segment

/-! # Multimodal envelopes

`decode_envelope` of `multimodal.py`: the validation of a persisted multimodal row. Every way to
fail raises, and every caller treats all of them alike, so `none` stands for the exception. -/

namespace BetterHindsight
set_option autoImplicit false

/-! ## Base64 -/

def base64Alphabet : Text :=
  "ABCDEFGHIJKLMNOPQRSTUVWXYZabcdefghijklmnopqrstuvwxyz0123456789+/".toList

def base64Digit (n : ℕ) : Char := base64Alphabet.getD (n % 64) 'A'

def base64Value (c : Char) : Option ℕ :=
  if c ∈ base64Alphabet then some (base64Alphabet.idxOf c) else none

def b64encode : List UInt8 → Text
  | [] => []
  | [a] =>
    let n := a.toNat * 65536
    [base64Digit (n / 262144), base64Digit (n / 4096), '=', '=']
  | [a, b] =>
    let n := a.toNat * 65536 + b.toNat * 256
    [base64Digit (n / 262144), base64Digit (n / 4096), base64Digit (n / 64), '=']
  | a :: b :: c :: rest =>
    let n := a.toNat * 65536 + b.toNat * 256 + c.toNat
    base64Digit (n / 262144) :: base64Digit (n / 4096) :: base64Digit (n / 64) :: base64Digit n ::
      b64encode rest

/-- `base64.b64decode(data, validate=True)`. Only data that encodes its result again is ever
accepted, so padding stands at the end of the last group here. -/
def b64decode : Text → Option (List UInt8)
  | [] => some []
  | a :: b :: c :: d :: rest =>
    match base64Value a, base64Value b with
    | some x, some y =>
      if c = '=' ∧ d = '=' ∧ rest = [] then
        some [UInt8.ofNat ((x * 64 + y) / 16)]
      else
        match base64Value c with
        | none => none
        | some z =>
          let n := (x * 64 + y) * 64 + z
          if d = '=' ∧ rest = [] then some [UInt8.ofNat (n / 1024), UInt8.ofNat (n / 4)]
          else
            match base64Value d, b64decode rest with
            | some w, some bytes =>
              let n := n * 64 + w
              some (UInt8.ofNat (n / 65536) :: UInt8.ofNat (n / 256) :: UInt8.ofNat n :: bytes)
            | _, _ => none
    | _, _ => none
  | _ => none

/-! ## Blocks -/

/-- `_MEDIA` -/
def mediaTypes (kind : Text) : Option (List Text) :=
  if kind = "image".toList then some ["image/png", "image/jpeg", "image/webp", "image/gif"]
  else if kind = "file".toList then some ["application/pdf", "text/plain"]
  else none

/-- `_safe_filename` -/
def safeFilename (lib : Stdlib) (value : Text) : Text :=
  let kept := ((redactSensitiveText lib value).filter
    fun c => lib.isPrintable c && c != '/' && c != '\\').take 200
  if kept = [] then "attachment".toList else kept

/-- `set(value) == keys` for a decoded object. -/
def hasExactKeys (fields : List (Text × Json)) (keys : List Text) : Bool :=
  fields.all (fun f => keys.contains f.1) && keys.all fun k => (fields.lookup k).isSome

def strField (fields : List (Text × Json)) (key : Text) : Option Text :=
  match fields.lookup key with
  | some (.str t) => some t
  | _ => none

/-- The first block: nonblank text of bounded length. -/
def isTextBlock : Json → Bool
  | .obj fields =>
    hasExactKeys fields ["type", "text"] && strField fields "type" == some "text".toList &&
      (strField fields "text").any fun t => !isBlank t && t.length ≤ 16384
  | _ => false

/-- The bytes of a `base64` source of one of the given media types. -/
def sourceBytes (media : List Text) : Json → Option (List UInt8)
  | .obj fields =>
    if hasExactKeys fields ["type", "media_type", "data"] &&
        strField fields "type" == some "base64".toList &&
        (strField fields "media_type").any fun t => media.contains t then
      match strField fields "data" with
      | none => none
      | some data => (b64decode data).filter fun raw => b64encode raw == data
    else none
  | _ => none

/-- The bytes of an attachment block. -/
def attachmentBytes (lib : Stdlib) : Json → Option (List UInt8)
  | .obj fields =>
    match strField fields "type" with
    | none => none
    | some kind =>
      match mediaTypes kind with
      | none => none
      | some media =>
        let isFile := kind == "file".toList
        if hasExactKeys fields (["type", "source"] ++ if isFile then ["filename"] else []) &&
            (!isFile || (strField fields "filename").any fun t => safeFilename lib t == t) then
          (fields.lookup "source".toList).bind (sourceBytes media)
        else none
  | _ => none

/-- The attachment blocks against their digests; `total` counts the bytes so far. -/
def checkAttachments (lib : Stdlib) (maxDecodedBytes : ℤ) : ℕ → List Json → List Json → Bool
  | _, [], [] => true
  | total, block :: blocks, .str digest :: hashes =>
    match attachmentBytes lib block with
    | none => false
    | some raw =>
      let total := total + raw.length
      raw != [] && decide ((total : ℤ) ≤ maxDecodedBytes) && isHex 64 digest &&
        (lib.sha256 raw).text == digest && checkAttachments lib maxDecodedBytes total blocks hashes
  | _, _, _ => false

/-- `context`: null or bounded text. -/
def isContext : Json → Bool
  | .null => true
  | .str t => decide (t.length ≤ 1024)
  | _ => false

/-! ## Envelopes -/

/-- `destination` as the envelope must state it. -/
def statesDestination (lib : Stdlib) (config : BetterHindsightConfig) (stated : Option Text) :
    Bool :=
  match config.multimodalDestinationFingerprint lib with
  | .ok fingerprint => stated == some fingerprint.text
  | .error _ => false

def decodeEnvelope (lib : Stdlib) (config : BetterHindsightConfig) (content : Text) :
    Option Json :=
  if (utf8Len content : ℤ) > config.multimodal.maxEncodedBytes then none
  else
    match Json.loads content with
    | some (.obj fields) =>
      match fields.lookup "blocks".toList, fields.lookup "sha256".toList with
      | some (.arr (first :: blocks)), some (.arr hashes) =>
        if hasExactKeys fields ["schema", "destination", "timestamp", "context", "blocks", "sha256"]
            && strField fields "schema" == some MULTIMODAL_PAYLOAD_SCHEMA
            && statesDestination lib config (strField fields "destination")
            && (strField fields "timestamp").any (fun t =>
              decide (t.length ≤ 64) && lib.fromIsoformat t == some true)
            && (fields.lookup "context".toList).any isContext
            && decide (1 ≤ blocks.length ∧ (blocks.length : ℤ) ≤ config.multimodal.maxAttachments)
            && isTextBlock first
            && checkAttachments lib config.multimodal.maxDecodedBytes 0 blocks hashes
            && canonicalJson (.obj fields) == content then
          some (.obj fields)
        else none
      | _, _ => none
    | _ => none

end BetterHindsight
