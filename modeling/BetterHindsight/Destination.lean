import BetterHindsight.Config

/-! # Destination fingerprints

The three fingerprints of a configuration, and what two equal fingerprints say about their
configurations as long as SHA-256 has no collision among the texts hashed for them.

* `destinationFingerprint`, `legacyDestinationFingerprint`: URL, bank, tags and scopes.
* `multimodalDestinationFingerprint`: these and the admission policy.
* `StableUrls`: normalizing an API URL a second time changes nothing. -/

namespace BetterHindsight
set_option autoImplicit false

/-! ## The hashed texts -/

def ObservationScopes.json : ObservationScopes → Json
  | unset => .null
  | combined => .str "combined"
  | shared => .arr [.arr []]

def destinationJson (apiUrl bankId : Text) (tags : List Text) (scopes : ObservationScopes)
    (payloadSchema : Text) : Json :=
  .obj [
    ("api_url", .str apiUrl),
    ("bank_id", .str bankId),
    ("observation_scopes", scopes.json),
    ("payload_schema", .str payloadSchema),
    ("retain_tags", .arr (tags.map .str))]

def policyJson (base : Text) (config : BetterHindsightConfig) : Json :=
  .arr [
    .str base,
    .bool config.multimodal.enabled,
    .bool config.retain.enabled,
    .arr (config.multimodal.allowedRoots.map .str),
    .int config.multimodal.maxAttachments,
    .int config.multimodal.maxDecodedBytes,
    .int config.multimodal.maxEncodedBytes]

/-- `json.dumps(value, separators=(",", ":"), sort_keys=True)` with `ensure_ascii=True`. -/
def asciiJson (value : Json) : Text := Json.dumps Json.quoteAscii value

/-! ## Fingerprints -/

def deriveDestinationFingerprint (lib : Stdlib) (apiUrl bankId : Text) (retainTags : RetainTags)
    (observationScopes : RawScopes) (payloadSchema : Text) : Except ConfigError HexDigest := do
  let normalizedUrl ← normalizeApiUrl lib apiUrl
  let normalizedBank ← parseBankId bankId
  let canonicalTags ← canonicalizeRetainTags lib retainTags
  let normalizedScopes ← parseObservationScopes observationScopes
  let normalizedPayloadSchema ← parseExactNonemptyString payloadSchema "payload_schema"
  return lib.sha256Text (asciiJson (destinationJson normalizedUrl normalizedBank canonicalTags.tags
    normalizedScopes normalizedPayloadSchema))

namespace BetterHindsightConfig

/-- The fingerprint of a configuration's destination under one payload schema. -/
def fingerprintFor (lib : Stdlib) (config : BetterHindsightConfig) (payloadSchema : Text) :
    Except ConfigError HexDigest :=
  deriveDestinationFingerprint lib config.apiUrl config.bankId (.canonical config.retain.tags)
    config.retain.observationScopes.raw payloadSchema

def destinationFingerprint (lib : Stdlib) (config : BetterHindsightConfig) :
    Except ConfigError HexDigest :=
  config.fingerprintFor lib PAYLOAD_SCHEMA_VERSION

def multimodalDestinationFingerprint (lib : Stdlib) (config : BetterHindsightConfig) :
    Except ConfigError HexDigest := do
  let base ← config.fingerprintFor lib MULTIMODAL_PAYLOAD_SCHEMA
  return lib.sha256Text (asciiJson (policyJson base.text config))

def legacyDestinationFingerprint (lib : Stdlib) (config : BetterHindsightConfig) :
    Except ConfigError HexDigest :=
  config.fingerprintFor lib LEGACY_PAYLOAD_SCHEMA_VERSION

/-- The destination that a configuration sends to: `api_url`, `bank_id`, retain tags and scopes. -/
def destination (config : BetterHindsightConfig) :
    Text × Text × List Text × ObservationScopes :=
  (config.apiUrl, config.bankId, config.retain.tags.tags, config.retain.observationScopes)

/-- The multimodal admission policy: both enabled flags, allowed roots and limits. -/
def admissionPolicy (config : BetterHindsightConfig) : MultimodalConfig × Bool :=
  (config.multimodal, config.retain.enabled)

/-- The text hashed for a configuration's destination under one payload schema. -/
def destinationText (config : BetterHindsightConfig) (payloadSchema : Text) : Text :=
  asciiJson (destinationJson config.apiUrl config.bankId config.retain.tags.tags
    config.retain.observationScopes payloadSchema)

/-- The texts hashed for the fingerprints of one configuration. -/
def fingerprintTexts (lib : Stdlib) (config : BetterHindsightConfig) : List Text :=
  [config.destinationText PAYLOAD_SCHEMA_VERSION,
    config.destinationText LEGACY_PAYLOAD_SCHEMA_VERSION,
    config.destinationText MULTIMODAL_PAYLOAD_SCHEMA,
    asciiJson (policyJson
      (lib.sha256Text (config.destinationText MULTIMODAL_PAYLOAD_SCHEMA)).text config)]

end BetterHindsightConfig

/-! ## Stability -/

/-- Normalizing an API URL that was normalized before changes nothing. -/
def StableUrls (lib : Stdlib) : Prop :=
  ∀ raw url, normalizeApiUrl lib raw = .ok url → normalizeApiUrl lib url = .ok url

/-- The payload schemas pass their own check. -/
theorem parsePayloadSchema {schema : Text} (h : schema ∈ [PAYLOAD_SCHEMA_VERSION,
    LEGACY_PAYLOAD_SCHEMA_VERSION, MULTIMODAL_PAYLOAD_SCHEMA]) :
    parseExactNonemptyString schema "payload_schema" = .ok schema := by
  simp only [List.mem_cons, List.not_mem_nil, or_false] at h
  rcases h with rfl | rfl | rfl <;> rfl

/-- The fingerprint of an accepted configuration is the digest of its destination. -/
theorem Accepted.fingerprintFor_eq {lib : Stdlib} {config : BetterHindsightConfig} (hs : StableUrls lib)
    (h : Accepted lib config) {schema : Text} (hschema : schema ∈ [PAYLOAD_SCHEMA_VERSION,
      LEGACY_PAYLOAD_SCHEMA_VERSION, MULTIMODAL_PAYLOAD_SCHEMA]) :
    config.fingerprintFor lib schema = .ok (lib.sha256Text (config.destinationText schema)) := by
  obtain ⟨⟨raw, hraw⟩, hbank, -⟩ := h.fields
  simp only [BetterHindsightConfig.fingerprintFor, deriveDestinationFingerprint, hs raw _ hraw,
    hbank, canonicalizeRetainTags, parseObservationScopes_raw, parsePayloadSchema hschema]
  rfl

theorem Accepted.multimodalFingerprint_eq {lib : Stdlib} {config : BetterHindsightConfig}
    (hs : StableUrls lib) (h : Accepted lib config) :
    config.multimodalDestinationFingerprint lib = .ok (lib.sha256Text (asciiJson (policyJson
      (lib.sha256Text (config.destinationText MULTIMODAL_PAYLOAD_SCHEMA)).text config))) := by
  rw [BetterHindsightConfig.multimodalDestinationFingerprint, h.fingerprintFor_eq hs (by simp)]
  rfl

/-! ## Equal fingerprints -/

theorem distinct_texts (ts : List Text) : (Json.arr (ts.map .str)).Distinct := by
  refine .arr fun v hv => ?_
  obtain ⟨t, -, rfl⟩ := List.mem_map.mp hv
  exact .str t

theorem ObservationScopes.distinct_json (s : ObservationScopes) : s.json.Distinct := by
  cases s with
  | unset => exact .null
  | combined => exact .str _
  | shared => exact .arr (by simpa using .arr (by simp))

theorem distinct_destinationJson (apiUrl bankId : Text) (tags : List Text)
    (scopes : ObservationScopes) (schema : Text) :
    (destinationJson apiUrl bankId tags scopes schema).Distinct := by
  refine .obj ?_ ?_
  · show List.Nodup ["api_url".toList, "bank_id".toList, "observation_scopes".toList,
      "payload_schema".toList, "retain_tags".toList]
    decide
  · intro f hf
    simp only [List.mem_cons, List.not_mem_nil, or_false] at hf
    rcases hf with rfl | rfl | rfl | rfl | rfl
    · exact .str _
    · exact .str _
    · exact scopes.distinct_json
    · exact .str _
    · exact distinct_texts tags

theorem distinct_policyJson (base : Text) (config : BetterHindsightConfig) :
    (policyJson base config).Distinct := by
  refine .arr fun v hv => ?_
  simp only [List.mem_cons, List.not_mem_nil, or_false] at hv
  rcases hv with rfl | rfl | rfl | rfl | rfl | rfl | rfl
  · exact .str _
  · exact .bool _
  · exact .bool _
  · exact distinct_texts _
  · exact .int _
  · exact .int _
  · exact .int _

theorem sortedItems_texts (ts : List Text) :
    Json.sortedItems (ts.map .str) = ts.map .str := by
  rw [Json.sortedItems_eq_map, List.map_map]
  rfl

theorem ObservationScopes.sorted_json (s : ObservationScopes) : s.json.sorted = s.json := by
  cases s <;> rfl

theorem sorted_destinationJson (apiUrl bankId : Text) (tags : List Text)
    (scopes : ObservationScopes) (schema : Text) :
    (destinationJson apiUrl bankId tags scopes schema).sorted =
      destinationJson apiUrl bankId tags scopes schema := by
  unfold destinationJson
  rw [Json.sorted, Json.sortedFields_eq_map, Json.sortKeys_of_sorted]
  · simp only [List.map_cons, List.map_nil, sortedItems_texts, scopes.sorted_json, Json.sorted]
  · show List.Pairwise (· ≤ ·) ["api_url".toList, "bank_id".toList, "observation_scopes".toList,
      "payload_schema".toList, "retain_tags".toList]
    decide

theorem sorted_policyJson (base : Text) (config : BetterHindsightConfig) :
    (policyJson base config).sorted = policyJson base config := by
  unfold policyJson
  rw [Json.sorted, Json.sortedItems_eq_map]
  simp only [List.map_cons, List.map_nil, sortedItems_texts, Json.sorted]

theorem map_str_injective {ts us : List Text} (h : ts.map Json.str = us.map Json.str) : ts = us :=
  List.map_injective_iff.mpr (fun _ _ h => by simpa using h) h

theorem ObservationScopes.json_injective {s t : ObservationScopes} (h : s.json = t.json) :
    s = t := by
  cases s <;> cases t <;> first | rfl | cases h

/-- The hashed text of a destination determines the destination and the payload schema. -/
theorem destinationText_injective {a b : BetterHindsightConfig} {schema schema' : Text}
    (h : a.destinationText schema = b.destinationText schema') :
    a.destination = b.destination ∧ schema = schema' := by
  have hj := Json.dumps_injective Json.quotes_ascii (distinct_destinationJson _ _ _ _ _)
    (distinct_destinationJson _ _ _ _ _) h
  rw [sorted_destinationJson, sorted_destinationJson] at hj
  simp only [destinationJson, Json.obj.injEq, List.cons.injEq, Prod.mk.injEq, Json.str.injEq,
    Json.arr.injEq, true_and, and_true] at hj
  obtain ⟨hurl, hbank, hscopes, hschema, htags⟩ := hj
  refine ⟨?_, hschema⟩
  simp only [BetterHindsightConfig.destination, hurl, hbank, map_str_injective htags,
    ObservationScopes.json_injective hscopes]

/-- The hashed text of a policy determines the base fingerprint and the policy. -/
theorem policyText_injective {a b : BetterHindsightConfig} {base base' : Text}
    (h : asciiJson (policyJson base a) = asciiJson (policyJson base' b)) :
    base = base' ∧ a.admissionPolicy = b.admissionPolicy := by
  have hj := Json.dumps_injective Json.quotes_ascii (distinct_policyJson _ _)
    (distinct_policyJson _ _) h
  rw [sorted_policyJson, sorted_policyJson] at hj
  simp only [policyJson, Json.arr.injEq, List.cons.injEq, Json.str.injEq, Json.bool.injEq,
    Json.int.injEq, and_true] at hj
  obtain ⟨hbase, henabled, hretain, hroots, h1, h2, h3⟩ := hj
  refine ⟨hbase, ?_⟩
  have hm : a.multimodal = b.multimodal := by
    cases ha : a.multimodal
    cases hb : b.multimodal
    simp only [ha, hb] at henabled hroots h1 h2 h3
    rw [henabled, map_str_injective hroots, h1, h2, h3]
  rw [BetterHindsightConfig.admissionPolicy, BetterHindsightConfig.admissionPolicy, hm, hretain]

section CollisionFree

variable {lib : Stdlib} {a b : BetterHindsightConfig} {texts : Text → Prop}

/-- Equal destination fingerprints belong to equal destinations. -/
theorem destination_eq_of_sha256 (hcf : lib.CollisionFree texts) {schema schema' : Text}
    (ha : texts (a.destinationText schema)) (hb : texts (b.destinationText schema'))
    (h : lib.sha256Text (a.destinationText schema) = lib.sha256Text (b.destinationText schema')) :
    a.destination = b.destination ∧ schema = schema' :=
  destinationText_injective (hcf _ _ ha hb h)

/-- Equal multimodal fingerprints belong to equal destinations under equal policies. -/
theorem policy_eq_of_sha256 (hcf : lib.CollisionFree texts)
    (ha : ∀ t ∈ a.fingerprintTexts lib, texts t) (hb : ∀ t ∈ b.fingerprintTexts lib, texts t)
    (h : lib.sha256Text (asciiJson (policyJson
        (lib.sha256Text (a.destinationText MULTIMODAL_PAYLOAD_SCHEMA)).text a)) =
      lib.sha256Text (asciiJson (policyJson
        (lib.sha256Text (b.destinationText MULTIMODAL_PAYLOAD_SCHEMA)).text b))) :
    a.destination = b.destination ∧ a.admissionPolicy = b.admissionPolicy := by
  obtain ⟨hbase, hpolicy⟩ := policyText_injective
    (hcf _ _ (ha _ (by simp [BetterHindsightConfig.fingerprintTexts]))
      (hb _ (by simp [BetterHindsightConfig.fingerprintTexts])) h)
  have hdest := destination_eq_of_sha256 hcf
    (ha _ (by simp [BetterHindsightConfig.fingerprintTexts]))
    (hb _ (by simp [BetterHindsightConfig.fingerprintTexts])) (HexDigest.ext hbase)
  exact ⟨hdest.1, hpolicy⟩

end CollisionFree

/-! ## The default URL -/

/-- The parts of the default URL. -/
def defaultUrlParts : SplitResult :=
  ⟨"http", "localhost:8888", [], [], [], some "localhost", some 8888, none, none⟩

/-- A library that knows the default URL only. -/
def Stdlib.ofDigests (digests : List (Text × ℕ)) : Stdlib :=
  .ofTables digests [(DEFAULT_API_URL, defaultUrlParts)]

theorem normalizeApiUrl_default (digests : List (Text × ℕ)) :
    normalizeApiUrl (.ofDigests digests) DEFAULT_API_URL = .ok DEFAULT_API_URL := by
  rfl

theorem stableUrls_ofDigests (digests : List (Text × ℕ)) : StableUrls (.ofDigests digests) := by
  intro raw url h
  have hdefault := normalizeApiUrl_default digests
  unfold normalizeApiUrl at h hdefault
  obtain ⟨_, -, h⟩ := bind_ok h
  obtain ⟨_, -, h⟩ := bind_ok h
  obtain ⟨_, -, hdefault⟩ := bind_ok hdefault
  obtain ⟨_, -, hdefault⟩ := bind_ok hdefault
  by_cases hraw : strip raw = DEFAULT_API_URL
  · rw [hraw] at h
    have hurl : url = DEFAULT_API_URL := by
      have hstrip : strip DEFAULT_API_URL = DEFAULT_API_URL := by decide
      rw [hstrip, h] at hdefault
      exact (Except.ok.inj hdefault)
    rw [hurl]
    exact normalizeApiUrl_default digests
  · have hlookup : (Stdlib.ofDigests digests).urlsplit (strip raw) = none := by
      simp [Stdlib.ofDigests, Stdlib.ofTables, hraw]
    rw [hlookup] at h
    cases h

/-- The default configuration of another bank. -/
def otherConfig : BetterHindsightConfig := { defaultConfig with bankId := "other" }

theorem accepted_default (digests : List (Text × ℕ)) :
    Accepted (.ofDigests digests) defaultConfig :=
  ⟨_, loadConfig_bank (normalizeApiUrl_default digests) rfl⟩

theorem accepted_other (digests : List (Text × ℕ)) : Accepted (.ofDigests digests) otherConfig :=
  ⟨_, loadConfig_bank (normalizeApiUrl_default digests) (by rfl)⟩

/-- The digests of the texts that the fingerprints of the two configurations hash. -/
def destinationDigests : List (Text × ℕ) :=
  [(defaultConfig.destinationText PAYLOAD_SCHEMA_VERSION,
      0x56e9461573ee3d66c0f610d7008ee88ab3e79d138f5185b19e83fd5f93691d16),
    (defaultConfig.destinationText LEGACY_PAYLOAD_SCHEMA_VERSION,
      0xcc159870e013988d0bc9986bd0730aff7eacc26c88731226ee7004e72df75663),
    (defaultConfig.destinationText MULTIMODAL_PAYLOAD_SCHEMA,
      0x497651d555d479c33f020748b990743c7890bb9eff83700fce9fb73dcf452c77),
    (asciiJson (policyJson (HexDigest.ofNat
        0x497651d555d479c33f020748b990743c7890bb9eff83700fce9fb73dcf452c77).text defaultConfig),
      0xe301c339e918739ffd2d2073cb533a7cdabe882324f5fbb2fe353cfdbc67911f),
    (otherConfig.destinationText PAYLOAD_SCHEMA_VERSION,
      0xd9034c30edbf5edd483094a009771abded41d82331a2e3337358b774bac62570),
    (otherConfig.destinationText LEGACY_PAYLOAD_SCHEMA_VERSION,
      0x88703ebbf20d4f50ea957aaf7442e8bba6436ba059e0e029e72bc14ddd2cf6c5),
    (otherConfig.destinationText MULTIMODAL_PAYLOAD_SCHEMA,
      0x7d7751ac783c882aa6864f166be50dd17b8297f36b6bf1d8b2bbc9c1323b921d),
    (asciiJson (policyJson (HexDigest.ofNat
        0x7d7751ac783c882aa6864f166be50dd17b8297f36b6bf1d8b2bbc9c1323b921d).text otherConfig),
      0x79f7d0d65b513a6200f80074f9ed36b0f3bdf42969bed7e50d3f5363f7e96a71)]

theorem fingerprintFor_ofDigests {config : BetterHindsightConfig} {digests : List (Text × ℕ)}
    (hacc : Accepted (.ofDigests digests) config) {schema : Text}
    (hschema : schema ∈ [PAYLOAD_SCHEMA_VERSION, LEGACY_PAYLOAD_SCHEMA_VERSION,
      MULTIMODAL_PAYLOAD_SCHEMA]) {n : ℕ}
    (h : ((Stdlib.ofDigests digests).sha256Text (config.destinationText schema)).text =
      (HexDigest.ofNat n).text) :
    config.fingerprintFor (.ofDigests digests) schema = .ok (.ofNat n) := by
  rw [hacc.fingerprintFor_eq (stableUrls_ofDigests _) hschema, HexDigest.ext h]

theorem legacyFingerprint_default : defaultConfig.legacyDestinationFingerprint
    (.ofDigests destinationDigests) = .ok (.ofNat
      0xcc159870e013988d0bc9986bd0730aff7eacc26c88731226ee7004e72df75663) :=
  fingerprintFor_ofDigests (accepted_default _) (by simp) (by decide +kernel)

theorem legacyFingerprint_other : otherConfig.legacyDestinationFingerprint
    (.ofDigests destinationDigests) = .ok (.ofNat
      0x88703ebbf20d4f50ea957aaf7442e8bba6436ba059e0e029e72bc14ddd2cf6c5) :=
  fingerprintFor_ofDigests (accepted_other _) (by simp) (by decide +kernel)

/-- The hashed texts of the two configurations have eight digests. -/
theorem collisionFree_destinationDigests : (Stdlib.ofDigests destinationDigests).CollisionFree
    fun text => ∃ config ∈ [defaultConfig, otherConfig],
      text ∈ config.fingerprintTexts (.ofDigests destinationDigests) := by
  let lib := Stdlib.ofDigests destinationDigests
  have hall : ∀ t ∈ [defaultConfig, otherConfig].flatMap fun c => c.fingerprintTexts lib,
      ∀ u ∈ [defaultConfig, otherConfig].flatMap fun c => c.fingerprintTexts lib,
        (lib.sha256Text t).text = (lib.sha256Text u).text → t = u := by
    decide +kernel
  rintro t u ⟨a, ha, ht⟩ ⟨b, hb, hu⟩ h
  exact hall t (List.mem_flatMap.mpr ⟨a, ha, ht⟩) u (List.mem_flatMap.mpr ⟨b, hb, hu⟩)
    (congrArg HexDigest.text h)

end BetterHindsight
