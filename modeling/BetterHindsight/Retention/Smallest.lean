import BetterHindsight.Retention.Turns

/-! # The smallest turn fits

`load_config` computes the size of the smallest retained turn from a template of its own. The record
that the builder writes for such a turn has exactly that size, so a configuration that passes the
check admits the turn to an empty outbox.

* `utf8Len_eventContent`: record and template are of one size.
* `Accepted.smallest`: what the checks of `load_config` say of the sizes.
* `smallest_turn_admitted`: the turn is built and admitted. -/

namespace BetterHindsight
set_option autoImplicit false

/-! ## Texts of one byte a character -/

/-- A character that JSON encodes in one byte. -/
def OneByte (c : Char) : Prop := Json.escapedLen [c] = 1

theorem escapedLen_of_oneByte {t : Text} (h : ∀ c ∈ t, OneByte c) : Json.escapedLen t = t.length := by
  induction t with
  | nil => rfl
  | cons c t ih =>
    have hc : Json.escapedLen [c] = 1 := h c List.mem_cons_self
    have ht := ih fun d hd => h d (List.mem_cons_of_mem c hd)
    rw [← List.singleton_append, Json.escapedLen_append, hc, ht, List.length_append]
    rfl

/-- Letters, digits and the punctuation of a time stamp. -/
theorem oneByte_of_ascii {c : Char} (h : 0x20 < c.toNat ∧ c.toNat < 0x7F) (hq : c ≠ '"')
    (hb : c ≠ '\\') : OneByte c := by
  have hne : ∀ n : ℕ, n ≤ 0x20 → c.toNat ≠ n := by
    intro n hn
    omega
  have hescape : Json.shortEscape c = none := by
    simp [Json.shortEscape, hq, hb, hne]
  have hraw : Json.escapeRaw c = [c] := by
    have hlow : ¬ c.toNat < 0x20 := by omega
    simp only [Json.escapeRaw, hescape, if_neg hlow]
  have hsize : c.utf8Size = 1 := by
    have hle : c.val ≤ 0x7F := by
      rw [UInt32.le_iff_toNat_le]
      show c.toNat ≤ 0x7F
      omega
    simp [Char.utf8Size, hle]
  simp [OneByte, Json.escapedLen, hraw, hsize]

theorem oneByte_digit {c : Char} (h : c.isDigit = true) : OneByte c := by
  simp only [Char.isDigit, Bool.and_eq_true, decide_eq_true_eq, ge_iff_le,
    UInt32.le_iff_toNat_le] at h
  have hlow : 48 ≤ c.toNat := h.1
  have hhigh : c.toNat ≤ 57 := h.2
  refine oneByte_of_ascii (by omega) ?_ ?_
  · rintro rfl
    exact absurd hlow (by decide)
  · rintro rfl
    exact absurd hhigh (by decide)

theorem oneByte_hex {c : Char} (h : isHexLower c = true) : OneByte c := by
  simp only [isHexLower, Bool.or_eq_true, Bool.and_eq_true, decide_eq_true_eq] at h
  have hrange : 48 ≤ c.toNat ∧ c.toNat ≤ 57 ∨ 97 ≤ c.toNat ∧ c.toNat ≤ 102 := h
  refine oneByte_of_ascii (by omega) ?_ ?_
  · rintro rfl
    exact absurd hrange (by decide)
  · rintro rfl
    exact absurd hrange (by decide)

theorem escapedLen_of_isHex {n : ℕ} {t : Text} (h : isHex n t = true) : Json.escapedLen t = n := by
  simp only [isHex, Bool.and_eq_true, beq_iff_eq, List.all_eq_true] at h
  rw [escapedLen_of_oneByte fun c hc => oneByte_hex (h.2 c hc), h.1]

theorem escapedLen_zeroPadded {width n : ℕ} (hwidth : 0 < width) (h : n < 10 ^ width) :
    Json.escapedLen (zeroPadded width n) = width := by
  have hlen : (Nat.toDigits 10 n).length ≤ width := Nat.toDigits_length 10 n width hwidth h
  rw [escapedLen_of_oneByte]
  · rw [zeroPadded, List.length_append, List.length_replicate]
    omega
  · intro c hc
    rcases List.mem_append.mp hc with hc | hc
    · rw [List.eq_of_mem_replicate hc]
      exact oneByte_digit (by decide)
    · exact oneByte_digit (Nat.isDigit_of_mem_toDigits (by decide) (by decide) hc)

/-- Every time stamp is as long as the one in the template. -/
theorem escapedLen_isoformat (d : UtcDateTime) : Json.escapedLen d.isoformat = 32 := by
  have hmonth : (d.month : ℕ) < 10 ^ 2 := d.month.isLt.trans (by decide)
  have hday : (d.day : ℕ) < 10 ^ 2 := d.day.isLt.trans (by decide)
  have hhour : (d.hour : ℕ) < 10 ^ 2 := d.hour.isLt.trans (by decide)
  have hminute : (d.minute : ℕ) < 10 ^ 2 := d.minute.isLt.trans (by decide)
  have hsecond : (d.second : ℕ) < 10 ^ 2 := d.second.isLt.trans (by decide)
  have hcons : ∀ (c : Char) (t : Text), OneByte c →
      Json.escapedLen (c :: t) = 1 + Json.escapedLen t := by
    intro c t hc
    have hone : Json.escapedLen [c] = 1 := hc
    rw [← hone, ← Json.escapedLen_append, List.singleton_append]
  have hdash := fun t => hcons '-' t (show Json.escapedLen ['-'] = 1 by decide)
  have hT := fun t => hcons 'T' t (show Json.escapedLen ['T'] = 1 by decide)
  have hcolon := fun t => hcons ':' t (show Json.escapedLen [':'] = 1 by decide)
  have hdot := fun t => hcons '.' t (show Json.escapedLen ['.'] = 1 by decide)
  have hzone : Json.escapedLen "+00:00".toList = 6 := by decide
  rw [UtcDateTime.isoformat]
  simp only [Json.escapedLen_append, hdash, hT, hcolon, hdot, hzone, escapedLen_zeroPadded (by decide : 0 < 4) d.year.isLt,
    escapedLen_zeroPadded (by decide : 0 < 2) hmonth, escapedLen_zeroPadded (by decide : 0 < 2) hday,
    escapedLen_zeroPadded (by decide : 0 < 2) hhour,
    escapedLen_zeroPadded (by decide : 0 < 2) hminute,
    escapedLen_zeroPadded (by decide : 0 < 2) hsecond,
    escapedLen_zeroPadded (by decide : 0 < 6) d.microsecond.isLt]

/-! ## Redaction leaves one character alone -/

theorem redactSensitiveText_singleton (lib : Stdlib) (c : Char) :
    redactSensitiveText lib [c] = [c] := by
  have hkey : 1 < Redaction.PRIVATE_KEY_PATTERN.minLen := by decide
  have hheader : 1 < (Redaction.AUTHORIZATION_HEADER_PATTERN lib).minLen := by
    simp [Redaction.AUTHORIZATION_HEADER_PATTERN, Regex.minLen, Regex.atLeast, Regex.repeatN,
      Redaction.litIgnoreCase]
  have hbearer : 1 < (Redaction.BEARER_TOKEN_PATTERN lib).minLen := by
    simp [Redaction.BEARER_TOKEN_PATTERN, Regex.minLen, Regex.atLeast, Regex.repeatN,
      Redaction.litIgnoreCase]
  have hapi : 1 < (Redaction.API_KEY_PATTERN lib).minLen := by
    simp only [Redaction.API_KEY_PATTERN, Regex.minLen, Regex.atLeast, Regex.repeatN]
    omega
  have hurl : 1 < (Redaction.URL_USERINFO_PATTERN lib).minLen := by
    simp [Redaction.URL_USERINFO_PATTERN, Regex.minLen, Regex.atLeast, Regex.repeatN,
      Redaction.litIgnoreCase]
    omega
  have hlen : [c].length = 1 := rfl
  unfold redactSensitiveText
  simp only [Regex.sub_of_short _ (hlen ▸ hkey), Regex.sub_of_short _ (hlen ▸ hheader),
    Regex.sub_of_short _ (hlen ▸ hbearer), Regex.sub_of_short _ (hlen ▸ hapi),
    Regex.sub_of_short _ (hlen ▸ hurl)]

/-! ## The template -/

theorem utf8Len_roleJson {name body : Text} (h : Json.escapedLen body = 1) :
    utf8Len (Json.dumps Json.quoteRaw (roleJson name body)) =
      utf8Len (Json.dumps Json.quoteRaw (roleJson name "x")) := by
  have hx : Json.escapedLen "x".toList = 1 := by decide
  unfold roleJson
  rw [Json.utf8Len_dumps_obj, Json.utf8Len_dumps_obj]
  simp only [List.map_cons, List.map_nil, Json.dumps, Json.utf8Len_quoteRaw, h, hx,
    List.length_cons]

/-- The fields of an automatic turn. -/
def automaticFields (eventId : Text) (occurredAt : UtcDateTime) : List (Text × Json) :=
  [("event_id", .str eventId), ("occurred_at", .str occurredAt.isoformat),
    ("record_schema", .str RETAINED_EVENT_RECORD_SCHEMA)]

/-- A record of an automatic turn is as long as the template with roles of the same size. -/
theorem utf8Len_eventContent (lib : Stdlib) (sessionId : Text) (tags : List Text) {eventId : Text}
    (hevent : isHex 32 eventId = true) (occurredAt : UtcDateTime) {roles roles' : List Json}
    (hroles : utf8Len (Json.dumps Json.quoteRaw (.arr roles)) =
      utf8Len (Json.dumps Json.quoteRaw (.arr roles'))) :
    utf8Len (eventContent (commonFields lib sessionId tags ++ automaticFields eventId occurredAt)
      roles) = minimumRetainedContentBytes tags roles' := by
  have hzero : ∀ n, Json.escapedLen (List.replicate n '0') = n := by
    intro n
    rw [escapedLen_of_oneByte, List.length_replicate]
    intro c hc
    rw [List.eq_of_mem_replicate hc]
    exact oneByte_digit (by decide)
  have htime : Json.escapedLen "2000-01-01T00:00:00.000000+00:00".toList = 32 := by decide
  have hsession : Json.escapedLen (lib.sha256Text sessionId).text = 64 :=
    escapedLen_of_isHex (lib.sha256Text sessionId).isHex
  unfold eventContent canonicalJson minimumRetainedContentBytes commonFields automaticFields
  rw [Json.utf8Len_dumps_obj, Json.utf8Len_dumps_obj]
  simp only [List.cons_append, List.nil_append, List.map_cons, List.map_nil, List.sum_cons,
    List.sum_nil, List.length_cons, List.length_nil, Json.dumps, Json.utf8Len_quoteRaw, hzero,
    htime, hsession, escapedLen_of_isHex hevent, escapedLen_isoformat]
  simp only [Json.dumps] at hroles
  omega

/-! ## What the configuration checks -/

/-- The sizes of an accepted configuration. -/
structure SmallestFits (config : BetterHindsightConfig) : Prop where
  segment_pos : 0 < config.retain.segmentMaxBytes
  rows_pos : 0 < config.outbox.maxPendingRows
  segment : minimumRetainedSegmentBytes config.retain.tags.tags config.outbox.maxPendingRows ≤
    config.retain.segmentMaxBytes
  admission : (minimumRetainedAdmissionBytes config.retain.tags.tags config.outbox.maxPendingRows
    config.retain.segmentMaxBytes : ℤ) ≤ config.outbox.maxPendingBytes

theorem parsePositiveInt_pos {value n maximum : ℤ} {fieldName : String}
    (h : parsePositiveInt value fieldName maximum = .ok n) : 0 < n := by
  unfold parsePositiveInt at h
  obtain ⟨_, hcheck, h⟩ := bind_ok h
  cases h
  have hnot := rejectIf_ok.mp hcheck
  omega

theorem Accepted.smallest {lib : Stdlib} {config : BetterHindsightConfig}
    (h : Accepted lib config) (henabled : config.retain.enabled = true) : SmallestFits config := by
  obtain ⟨raw, h⟩ := h
  unfold loadConfig at h
  obtain ⟨apiUrl, -, h⟩ := bind_ok h
  obtain ⟨bankId, -, h⟩ := bind_ok h
  obtain ⟨retain, hretain, h⟩ := bind_ok h
  obtain ⟨multimodal, -, h⟩ := bind_ok h
  obtain ⟨outbox, houtbox, h⟩ := bind_ok h
  obtain ⟨-, -, h⟩ := bind_ok h
  obtain ⟨_, hsegment, h⟩ := bind_ok h
  obtain ⟨-, -, h⟩ := bind_ok h
  obtain ⟨_, hadmission, h⟩ := bind_ok h
  obtain ⟨-, -, h⟩ := bind_ok h
  cases h
  have hsegment' := rejectIf_ok.mp hsegment
  have hadmission' := rejectIf_ok.mp hadmission
  simp only [not_and, not_lt, gt_iff_lt] at hsegment' hadmission' henabled
  refine ⟨?_, ?_, hsegment' henabled, hadmission' henabled⟩
  · unfold parseRetain at hretain
    obtain ⟨segmentMaxBytes, hmax, hretain⟩ := bind_ok hretain
    obtain ⟨scopes, -, hretain⟩ := bind_ok hretain
    obtain ⟨tags, -, hretain⟩ := bind_ok hretain
    cases hretain
    exact parsePositiveInt_pos hmax
  · unfold parseOutbox at houtbox
    obtain ⟨maxPendingRows, hrows, houtbox⟩ := bind_ok houtbox
    obtain ⟨maxPendingBytes, -, houtbox⟩ := bind_ok houtbox
    obtain ⟨poll, -, houtbox⟩ := bind_ok houtbox
    obtain ⟨initial, -, houtbox⟩ := bind_ok houtbox
    obtain ⟨maximum, -, houtbox⟩ := bind_ok houtbox
    rw [← Except.ok.inj houtbox]
    exact parsePositiveInt_pos hrows

/-! ## The turn -/

/-- A role text of one non-space printable ASCII character that JSON encodes in one byte. -/
structure SmallRole (c : Char) : Prop where
  printable : 0x20 < c.toNat ∧ c.toNat < 0x7F
  oneByte : OneByte c

/-- An automatic turn as the provider builds it under a configuration. -/
def smallTurn (config : BetterHindsightConfig) (sessionId : Text) (user assistant : Char)
    (eventId : Text) (occurredAt : UtcDateTime) : TurnInput where
  sessionId := sessionId
  userContent := [user]
  assistantContent := [assistant]
  tags := .canonical config.retain.tags
  segmentMaxBytes := config.retain.segmentMaxBytes
  segmentCountLimit := some config.outbox.maxPendingRows
  assistantContext := none
  modelSelected := false
  eventId := eventId
  occurredAt := occurredAt

theorem SmallRole.not_blank {c : Char} (h : SmallRole c) : isBlank [c] = false := by
  have hspace : isSpace c = false := by
    have hrange := h.printable
    simp only [isSpace, Bool.or_eq_false_iff, Bool.and_eq_false_iff, decide_eq_false_iff_not,
      beq_eq_false_iff_ne]
    omega
  by_contra hblank
  have hall := isBlank_iff.mp (by simpa using hblank) c List.mem_cons_self
  rw [hspace] at hall
  cases hall

section SmallTurn
variable {lib : Stdlib} {config : BetterHindsightConfig} {sessionId eventId : Text}
  {user assistant : Char} {occurredAt : UtcDateTime}

/-- The fields that the records of the turn start with. -/
def smallFields (lib : Stdlib) (config : BetterHindsightConfig) (sessionId eventId : Text)
    (occurredAt : UtcDateTime) : List (Text × Json) :=
  commonFields lib sessionId config.retain.tags.tags ++ automaticFields eventId occurredAt

theorem smallTurn_acceptable (hfits : SmallestFits config) (huser : SmallRole user)
    (hassistant : SmallRole assistant) :
    (smallTurn config sessionId user assistant eventId occurredAt).isAcceptable = true := by
  have htags : config.retain.tags.tags.all (fun tag => tag != [] && strip tag == tag) = true := by
    rw [List.all_eq_true]
    intro tag htag
    have hexact := config.retain.tags.exact tag htag
    simp [hexact.1, hexact.2.1]
  have hnodup := config.retain.tags.nodup
  simp [TurnInput.isAcceptable, smallTurn, huser.not_blank, hassistant.not_blank,
    hfits.segment_pos, hfits.rows_pos, RetainTags.items, htags, hnodup]

theorem smallTurn_roles :
    (smallTurn config sessionId user assistant eventId occurredAt).roles lib =
      [⟨"user", [user], none⟩, ⟨"assistant", [assistant], none⟩] := by
  simp [TurnInput.roles, smallTurn, redactSensitiveText_singleton]

/-- The template of a role, whichever character stands in it. -/
theorem utf8Len_smallRoles {roles : List (Text × Char)} (h : ∀ r ∈ roles, OneByte r.2) :
    utf8Len (Json.dumps Json.quoteRaw (.arr (roles.map fun r => roleJson r.1 [r.2]))) =
      utf8Len (Json.dumps Json.quoteRaw (.arr (roles.map fun r => roleJson r.1 "x"))) := by
  have hmap : (roles.map fun r => utf8Len (Json.dumps Json.quoteRaw (roleJson r.1 [r.2]))) =
      roles.map fun r => utf8Len (Json.dumps Json.quoteRaw (roleJson r.1 "x")) :=
    List.map_congr_left fun r hr => utf8Len_roleJson (h r hr)
  rw [Json.dumps_arr, Json.dumps_arr]
  simp only [utf8Len_cons, utf8Len_append, Json.utf8Len_joinComma, List.map_map, Function.comp_def,
    List.length_map, hmap]

/-- A record with some of the roles is as long as their template. -/
theorem utf8Len_smallRecord (hevent : isHex 32 eventId = true) (roles : List (Text × Char))
    (h : ∀ r ∈ roles, OneByte r.2) :
    utf8Len (eventContent (smallFields lib config sessionId eventId occurredAt)
      (roles.map fun r => roleJson r.1 [r.2])) =
      minimumRetainedContentBytes config.retain.tags.tags
        (roles.map fun r => roleJson r.1 "x") :=
  utf8Len_eventContent lib sessionId _ hevent occurredAt (utf8Len_smallRoles h)

/-- The user's record is the shorter one. -/
theorem minimum_user_le (tags : List Text) :
    minimumRetainedContentBytes tags [roleJson "user" "x"] ≤
      minimumRetainedContentBytes tags [roleJson "assistant" "x"] := by
  have hnames : utf8Len (Json.dumps Json.quoteRaw (roleJson "user" "x")) ≤
      utf8Len (Json.dumps Json.quoteRaw (roleJson "assistant" "x")) := by decide
  unfold minimumRetainedContentBytes
  rw [Json.utf8Len_dumps_obj, Json.utf8Len_dumps_obj]
  simp only [List.map_cons, List.map_nil, List.sum_cons, List.sum_nil, List.length_cons,
    Json.dumps_arr, Json.joinComma, utf8Len_cons, utf8Len_append]
  omega

/-- The turn in one record, or in one record for each role. -/
theorem smallTurn_contents (lib : Stdlib) (sessionId : Text) (occurredAt : UtcDateTime)
    (hfits : SmallestFits config) (huser : SmallRole user)
    (hassistant : SmallRole assistant) (hevent : isHex 32 eventId = true) :
    ∃ contents, semanticContents (smallFields lib config sessionId eventId occurredAt)
      ((smallTurn config sessionId user assistant eventId occurredAt).roles lib)
      config.retain.segmentMaxBytes (some config.outbox.maxPendingRows) = .ok contents ∧
      (contents.length : ℤ) ≤ config.outbox.maxPendingRows ∧
      ((contents.map fun content => utf8Len content + OUTBOX_ROW_ACCOUNTING_ALLOWANCE_BYTES).sum : ℤ)
        ≤ config.outbox.maxPendingBytes := by
  have hrows := hfits.rows_pos
  have hsegment := hfits.segment
  have hadmission := hfits.admission
  have hshorter := minimum_user_le config.retain.tags.tags
  have hboth : utf8Len (eventContent (smallFields lib config sessionId eventId occurredAt)
      [roleJson "user" [user], roleJson "assistant" [assistant]]) =
      minimumRetainedContentBytes config.retain.tags.tags
        [roleJson "user" "x", roleJson "assistant" "x"] :=
    utf8Len_smallRecord hevent [("user".toList, user), ("assistant".toList, assistant)]
      (by simp [huser.oneByte, hassistant.oneByte])
  have huserRecord : utf8Len (eventContent (smallFields lib config sessionId eventId occurredAt)
      [roleJson "user" [user]]) =
      minimumRetainedContentBytes config.retain.tags.tags [roleJson "user" "x"] :=
    utf8Len_smallRecord hevent [("user".toList, user)] (by simp [huser.oneByte])
  have hassistantRecord : utf8Len (eventContent
      (smallFields lib config sessionId eventId occurredAt) [roleJson "assistant" [assistant]]) =
      minimumRetainedContentBytes config.retain.tags.tags [roleJson "assistant" "x"] :=
    utf8Len_smallRecord hevent [("assistant".toList, assistant)] (by simp [hassistant.oneByte])
  rw [smallTurn_roles]
  generalize smallFields lib config sessionId eventId occurredAt = common
    at hboth huserRecord hassistantRecord ⊢
  by_cases hfit : (minimumRetainedContentBytes config.retain.tags.tags
      [roleJson "user" "x", roleJson "assistant" "x"] : ℤ) ≤ config.retain.segmentMaxBytes
  · -- one record with both roles
    refine ⟨[eventContent common [roleJson "user" [user], roleJson "assistant" [assistant]]], ?_, ?_,
      ?_⟩
    · have hle : (utf8Len (eventContent common ([⟨"user", [user], none⟩,
          ⟨"assistant", [assistant], none⟩].map fun role => rolePayload role none)) : ℤ) ≤
          config.retain.segmentMaxBytes := by
        show (utf8Len (eventContent common
          [roleJson "user" [user], roleJson "assistant" [assistant]]) : ℤ) ≤ _
        rw [hboth]
        exact hfit
      have hcap : overLimit (some config.outbox.maxPendingRows)
          (fun limit => decide (limit < 1)) = false := by
        simp only [overLimit, decide_eq_false_iff_not]
        omega
      simp only [semanticContents]
      rw [if_pos hle, hcap]
      rfl
    · simp only [List.length_singleton]
      omega
    · simp only [List.map_cons, List.map_nil, List.sum_cons, List.sum_nil, hboth]
      rw [minimumRetainedAdmissionBytes, if_pos (.inr hfit)] at hadmission
      push_cast at hadmission ⊢
      omega
  · -- the caps leave room for a record of each role
    have hmany : config.outbox.maxPendingRows ≠ 1 := by
      intro hone
      rw [minimumRetainedSegmentBytes, if_pos hone] at hsegment
      exact hfit hsegment
    rw [minimumRetainedSegmentBytes, if_neg hmany] at hsegment
    refine ⟨[eventContent common [roleJson "user" [user]],
      eventContent common [roleJson "assistant" [assistant]]], ?_, ?_, ?_⟩
    · have hnot : ¬ (utf8Len (eventContent common ([⟨"user", [user], none⟩,
          ⟨"assistant", [assistant], none⟩].map fun role => rolePayload role none)) : ℤ) ≤
          config.retain.segmentMaxBytes := by
        show ¬ (utf8Len (eventContent common
          [roleJson "user" [user], roleJson "assistant" [assistant]]) : ℤ) ≤ _
        rw [hboth]
        exact hfit
      have hcap : ∀ contents : List Text, contents.length ≤ 2 →
          capContents (some config.outbox.maxPendingRows) contents = .ok contents := by
        intro contents hlen
        have hover : overLimit (some config.outbox.maxPendingRows)
            (fun limit => decide ((contents.length : ℤ) > limit)) = false := by
          simp only [overLimit, decide_eq_false_iff_not]
          omega
        simp [capContents, hover]
      have huserFits : (utf8Len (PackContext.record ⟨common, ⟨"user", [user], none⟩,
          config.retain.segmentMaxBytes, some config.outbox.maxPendingRows⟩ none) : ℤ) ≤
          config.retain.segmentMaxBytes := by
        show (utf8Len (eventContent common [roleJson "user" [user]]) : ℤ) ≤ _
        omega
      have hassistantFits : (utf8Len (PackContext.record ⟨common, ⟨"assistant", [assistant], none⟩,
          config.retain.segmentMaxBytes, some config.outbox.maxPendingRows⟩ none) : ℤ) ≤
          config.retain.segmentMaxBytes := by
        show (utf8Len (eventContent common [roleJson "assistant" [assistant]]) : ℤ) ≤ _
        omega
      simp only [semanticContents]
      rw [if_neg hnot]
      have hfirst : PackContext.roleContents ⟨common, ⟨"user", [user], none⟩,
          config.retain.segmentMaxBytes, some config.outbox.maxPendingRows⟩ [] =
          .ok [eventContent common [roleJson "user" [user]]] := by
        rw [PackContext.roleContents]
        simp only [if_pos huserFits]
        exact hcap _ (by simp)
      have hsecond : PackContext.roleContents ⟨common, ⟨"assistant", [assistant], none⟩,
          config.retain.segmentMaxBytes, some config.outbox.maxPendingRows⟩
            [eventContent common [roleJson "user" [user]]] =
          .ok [eventContent common [roleJson "user" [user]],
            eventContent common [roleJson "assistant" [assistant]]] := by
        rw [PackContext.roleContents]
        simp only [if_pos hassistantFits]
        exact hcap _ (by simp)
      simp only [rolesContents, hfirst, hsecond]
      rfl
    · simp only [List.length_cons, List.length_nil]
      omega
    · simp only [List.map_cons, List.map_nil, List.sum_cons, List.sum_nil, huserRecord,
        hassistantRecord]
      rw [minimumRetainedAdmissionBytes, if_neg (not_or.mpr ⟨hmany, hfit⟩)] at hadmission
      push_cast at hadmission ⊢
      omega

/-- The turn is built within the cap, and its segments fit an empty table. -/
theorem smallTurn_built (lib : Stdlib) (sessionId : Text) (occurredAt : UtcDateTime)
    (hfits : SmallestFits config) (huser : SmallRole user)
    (hassistant : SmallRole assistant) (hevent : isHex 32 eventId = true) :
    ∃ segments, buildRetainedSegments lib
        (smallTurn config sessionId user assistant eventId occurredAt) = .ok segments ∧
      (segments.length : ℤ) ≤ config.outbox.maxPendingRows ∧
      ((segments.map SQLiteOutbox.segmentBytes).sum : ℤ) ≤ config.outbox.maxPendingBytes := by
  obtain ⟨contents, hcontents, hlen, hbytes⟩ := smallTurn_contents lib sessionId occurredAt hfits
    huser hassistant hevent
  have hnonempty : occurredAt.isoformat ≠ [] := by
    intro hnil
    have hsize := escapedLen_isoformat occurredAt
    rw [hnil] at hsize
    cases hsize
  have hidentity : (smallTurn config sessionId user assistant eventId occurredAt).identityFields lib
      (commonFields lib sessionId config.retain.tags.tags) =
      .ok (automaticFields eventId occurredAt) := by
    have hselected : ¬ (smallTurn config sessionId user assistant eventId occurredAt).modelSelected =
        true := by simp [smallTurn]
    have hok : ¬ (isHex 32 (smallTurn config sessionId user assistant eventId occurredAt).eventId =
        false ∨ (smallTurn config sessionId user assistant eventId occurredAt).occurredAt.isoformat =
          []) := by
      simp [smallTurn, hevent, hnonempty]
    rw [TurnInput.identityFields, if_neg hselected, if_neg hok]
    rfl
  refine ⟨segmentsOf lib contents, ?_, ?_, ?_⟩
  · exact build_of_ok (smallTurn_acceptable hfits huser hassistant) rfl hidentity hcontents
  · rwa [segmentsOf_length]
  · have hmap : (segmentsOf lib contents).map SQLiteOutbox.segmentBytes =
        contents.map fun content => utf8Len content + OUTBOX_ROW_ACCOUNTING_ALLOWANCE_BYTES := by
      conv_rhs => rw [← segmentsOf_content lib contents, List.map_map]
      rfl
    rw [hmap]
    exact hbytes

/-- **Configuration proves the smallest turn admissible.** The turn is built, and as long as SHA-256
tells its segments apart and the storage does not fail, the empty outbox admits it. -/
theorem smallest_turn_admitted (sessionId : Text) (occurredAt : UtcDateTime)
    {outbox : SQLiteOutbox} (haccepted : Accepted lib config)
    (henabled : config.retain.enabled = true) (hopen : SQLiteOutbox.init lib config = .ok outbox)
    (huser : SmallRole user) (hassistant : SmallRole assistant) (hevent : isHex 32 eventId = true) :
    ∃ segments, buildRetainedSegments lib
        (smallTurn config sessionId user assistant eventId occurredAt) = .ok segments ∧
      (lib.CollisionFree (payloadTexts segments) → ∀ timestamp faults, (∀ e, some e ∉ faults) →
        (outbox.admitSegments lib segments timestamp faults .empty).1.status = .admitted) := by
  obtain ⟨segments, hbuilt, hlen, hbytes⟩ := smallTurn_built lib sessionId occurredAt
    (haccepted.smallest henabled) huser hassistant hevent
  refine ⟨segments, hbuilt, fun hcf timestamp faults hfaults => ?_⟩
  have hof := SQLiteOutbox.HandleOf.of_init hopen
  have hturn := build_accepted hbuilt hof.segmentMaxBytes hcf
  rcases (outbox.admit_exact lib segments timestamp faults .empty).2 segments hturn with
    ⟨result, t', hrun, hout⟩ | ⟨hfailed, -⟩
  · rw [hrun]
    cases hout with
    | conflict clash =>
      obtain ⟨segment, -, row, hrow, -⟩ := clash
      cases hrow
    | duplicate clear stored =>
      obtain ⟨segment, hsegment⟩ := List.exists_mem_of_ne_nil _ hturn.ne_nil
      obtain ⟨row, hrow, -⟩ := stored segment hsegment
      cases hrow
    | capacityExceeded clear new exceeds =>
      have habsent : SQLiteOutbox.absent .empty segments = segments :=
        List.filter_eq_self.mpr fun segment _ => rfl
      rw [SQLiteOutbox.Exceeds, habsent, hof.maxPendingRows, hof.maxPendingBytes] at exceeds
      simp only [OutboxTable.empty, List.length_nil, List.map_nil, List.sum_nil, zero_add]
        at exceeds
      omega
    | admitted => rfl
  · rcases hfailed with hclosed | ⟨e, he⟩
    · rw [SQLiteOutbox.closed_of_init hopen] at hclosed
      cases hclosed
    · exact absurd he (hfaults e)

end SmallTurn

/-! ## A turn that needs two records -/

/-- Retention with the segment limit of `splitTurn`. -/
def smallRaw : RawConfig :=
  { RawConfig.empty with retainEnabled := some true, segmentMaxBytes := some 340 }

def smallConfig : BetterHindsightConfig :=
  { splitTurnConfig with retain := { splitTurnConfig.retain with enabled := true } }

theorem accepted_smallConfig : Accepted splitTurnLib smallConfig := by
  refine ⟨smallRaw, ?_⟩
  have hurl : normalizeApiUrl splitTurnLib DEFAULT_API_URL = .ok DEFAULT_API_URL :=
    normalizeApiUrl_default _
  have htags : canonicalizeRetainTags splitTurnLib (.raw []) = .ok .none := by
    simp [canonicalizeRetainTags, CanonicalRetainTags.none, parseTags, rejectIf, pure, Except.pure,
      bind, Except.bind]
  have hmax : parsePositiveInt 340 "retain.segment_max_bytes" MAX_RETAIN_SEGMENT_BYTES =
      .ok 340 := by decide +kernel
  have hretain : parseRetain splitTurnLib smallRaw = .ok smallConfig.retain := by
    simp only [parseRetain, smallRaw, RawConfig.empty, Option.getD_none, Option.getD_some, hmax,
      htags]
    rfl
  have hmultimodal : parseMultimodal splitTurnLib smallRaw = .ok defaultConfig.multimodal := rfl
  have houtbox : parseOutbox smallRaw = _ := parseOutbox_empty
  have hretry : ¬ (defaultConfig.outbox.retryInitialSeconds >
      defaultConfig.outbox.retryMaxSeconds) := by decide +kernel
  have hsegment : ¬ (smallConfig.retain.segmentMaxBytes < minimumRetainedSegmentBytes
      smallConfig.retain.tags.tags defaultConfig.outbox.maxPendingRows) := by decide +kernel
  have hallowance : ¬ (smallConfig.retain.segmentMaxBytes + OUTBOX_ROW_ACCOUNTING_ALLOWANCE_BYTES >
      defaultConfig.outbox.maxPendingBytes) := by decide +kernel
  have hadmission : ¬ ((minimumRetainedAdmissionBytes smallConfig.retain.tags.tags
      defaultConfig.outbox.maxPendingRows smallConfig.retain.segmentMaxBytes : ℤ) >
        defaultConfig.outbox.maxPendingBytes) := by decide +kernel
  unfold loadConfig
  rw [hretain, hmultimodal, houtbox]
  simp only [smallRaw, RawConfig.empty, Option.getD_none, hurl, rejectIf, bind, Except.bind,
    if_neg hretry, hsegment, if_neg hallowance, hadmission, and_false, if_false]
  rfl

theorem smallest_turn_admitted_split :
    ∃ outbox, SQLiteOutbox.init splitTurnLib smallConfig = .ok outbox ∧
      buildRetainedSegments splitTurnLib (smallTurn smallConfig ['s'] 'a' 'b'
        (List.replicate 32 '0') ⟨2026, 1, 2, 3, 4, 5, 6⟩) = .ok splitTurnSegments ∧
      (outbox.admitSegments splitTurnLib splitTurnSegments ⟨0, le_rfl⟩ [] .empty).1.status =
        .admitted := by
  obtain ⟨outbox, hopen⟩ : ∃ outbox, SQLiteOutbox.init splitTurnLib smallConfig = .ok outbox :=
    ⟨_, rfl⟩
  have ha : SmallRole 'a' := ⟨by decide, by unfold OneByte; decide⟩
  have hb : SmallRole 'b' := ⟨by decide, by unfold OneByte; decide⟩
  obtain ⟨segments, hbuilt, hadmitted⟩ := smallest_turn_admitted ['s'] ⟨2026, 1, 2, 3, 4, 5, 6⟩
    accepted_smallConfig rfl hopen ha hb (by decide : isHex 32 (List.replicate 32 '0') = true)
  have hsplit : buildRetainedSegments splitTurnLib (smallTurn smallConfig ['s'] 'a' 'b'
      (List.replicate 32 '0') ⟨2026, 1, 2, 3, 4, 5, 6⟩) = .ok splitTurnSegments := by
    decide +kernel
  obtain rfl : segments = splitTurnSegments := Except.ok.inj (hbuilt.symm.trans hsplit)
  refine ⟨outbox, hopen, hsplit, hadmitted ?_ _ _ (by simp)⟩
  exact collisionFree_payloadTexts splitTurn_built (by decide)

end BetterHindsight
