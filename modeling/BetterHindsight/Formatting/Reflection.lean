import BetterHindsight.Formatting.Selection

/-! # The response to a reflection

`format_reflection_context` and `_bounded_reflection_tool_json`: one record in its envelope, and the
envelope in a tool response whose size is bounded. The response is searched over the budgets of the
envelope; it grows with the budget although the envelope changes its form on the way.

* `ShownAt`: the forms of the record, by what is left for its line.
* `outerSize_mono`: the size of the response grows with the budget.
* `reflection_longest`: the search finds the longest response. -/

namespace BetterHindsight
set_option autoImplicit false

open Json

def HINDSIGHT_MAX_REFLECT_TEXT_BYTES : ℕ := 256 * 1024

def RECALL_TRUST_LABEL : Text := "untrusted_historical_evidence"

/-! ## The envelope -/

/-- The record of a reflection. -/
def reflectionRecord (lib : Stdlib) (text : Text) (attachments : List JsonValue) : RecallRecord where
  memory := redactSensitiveText lib text
  type := some "reflection"
  occurredStart := none
  occurredEnd := none
  mentionedAt := none
  attachments := attachments

/-- The settings of `_fit_truncated_record` without a deadline. -/
def reflectionSettings (maxBytes : ℤ) : FormatSettings := ⟨maxBytes, true, fun _ => false⟩

/-- `format_reflection_context` -/
def formatReflectionContext (lib : Stdlib) (text : Text) (maxBytes : ℤ)
    (attachments : List JsonValue) : Text :=
  if maxBytes ≤ 0 then []
  else if isBlank text then []
  else
    match boundedUtf8Size text HINDSIGHT_MAX_REFLECT_TEXT_BYTES with
    | none => []
    | some _ =>
      let available := maxBytes - FIXED_BYTES
      let (line, record) :=
        serializeWithoutCrowdingText (reflectionRecord lib text attachments) available
      if (FIXED_BYTES + utf8Len line : ℕ) ≤ maxBytes then render [line]
      else
        match (reflectionSettings maxBytes).fitTruncatedRecord record available 0 with
        | .ok (some truncated, _) => render [serializeRecord truncated]
        | _ => []

/-! ## The response -/

/-- `_tool_json(context=context, result="ok", trust=RECALL_TRUST_LABEL)` -/
def reflectionJson (context : Text) : Json :=
  .obj [("context".toList, .str context), ("result".toList, .str "ok"),
    ("trust".toList, .str RECALL_TRUST_LABEL)]

def toolJson (context : Text) : Text := Json.dumps Json.quoteRaw (reflectionJson context)

/-- The loop of `_bounded_reflection_tool_json`; `bound` is `high + 1`. -/
def searchReflection (lib : Stdlib) (text : Text) (maxBytes : ℤ) (attachments : List JsonValue)
    (low bound : ℕ) (best : Option Text) : Option Text :=
  if low < bound then
    let middle := (low + bound - 1) / 2
    let candidateContext := formatReflectionContext lib text middle attachments
    if candidateContext = [] then
      searchReflection lib text maxBytes attachments (middle + 1) bound best
    else
      let candidate := toolJson candidateContext
      if utf8Len candidate ≤ maxBytes then
        searchReflection lib text maxBytes attachments (middle + 1) bound (some candidate)
      else searchReflection lib text maxBytes attachments low middle best
  else best
termination_by bound - low

/-- `_bounded_reflection_tool_json` -/
def boundedReflectionToolJson (lib : Stdlib) (text : Text) (maxBytes : ℤ)
    (attachments : List JsonValue) : Option Text :=
  let context := formatReflectionContext lib text maxBytes attachments
  if context = [] then none
  else
    let rendered := toolJson context
    if utf8Len rendered ≤ maxBytes then some rendered
    else
      let high := min maxBytes (utf8Len context - 1)
      searchReflection lib text maxBytes attachments 1 (high + 1).toNat none

/-! ## The forms of the record -/

/-- The record in the form that its line fits, if any does. -/
inductive ShownAt (record : RecallRecord) (available : ℤ) : Option RecallRecord → Prop
  | full (hfits : (utf8Len (serializeRecord record) : ℤ) ≤ available) :
      ShownAt record available (some record)
  | plain (hlarge : ¬ (utf8Len (serializeRecord record) : ℤ) ≤ available)
      (hfits : (utf8Len (serializeRecord record.withoutAttachments) : ℤ) ≤ available) :
      ShownAt record available (some record.withoutAttachments)
  | truncated {k : ℕ}
      (hlarge : ¬ (utf8Len (serializeRecord record.withoutAttachments) : ℤ) ≤ available)
      (hlongest : Longest (FitsLine record.withoutAttachments available)
        record.memory.length k)
      (hfits : FitsLine record.withoutAttachments available k) :
      ShownAt record available
        (some (FormatSettings.truncatedRecord record.withoutAttachments k))
  | nothing
      (hlarge : ¬ (utf8Len (serializeRecord record.withoutAttachments) : ℤ) ≤ available)
      (hminimum : ¬ FitsLine record.withoutAttachments available 0) :
      ShownAt record available none

/-- The envelope of a form. -/
def envelope : Option RecallRecord → Text
  | none => []
  | some record => render (recordLines [record])

theorem serializeWithoutCrowdingText_eq (record : RecallRecord) (available : ℤ) :
    serializeWithoutCrowdingText record available =
      if (utf8Len (serializeRecord record) : ℤ) ≤ available then (serializeRecord record, record)
      else (serializeRecord record.withoutAttachments, record.withoutAttachments) := by
  have hnone : record.attachments = [] → record.withoutAttachments = record := fun h => by
    rw [RecallRecord.withoutAttachments, ← h]
  rw [serializeWithoutCrowdingText]
  dsimp only
  by_cases hfits : (utf8Len (serializeRecord record) : ℤ) ≤ available
  · rw [if_pos hfits, if_neg (fun h => absurd h.2 (Int.not_lt.mpr hfits))]
  · rw [if_neg hfits]
    split
    · rfl
    · next hkept =>
      rw [hnone (by_contra fun hne => hkept ⟨hne, Int.not_le.mp hfits⟩)]

theorem formatReflectionContext_shown {lib : Stdlib} {text : Text} (attachments : List JsonValue)
    (hblank : isBlank text = false)
    (hsize : (boundedUtf8Size text HINDSIGHT_MAX_REFLECT_TEXT_BYTES).isSome) {maxBytes : ℤ}
    (hmax : ¬ maxBytes ≤ 0) :
    ∃ shown, ShownAt (reflectionRecord lib text attachments) (maxBytes - FIXED_BYTES) shown ∧
      formatReflectionContext lib text maxBytes attachments = envelope shown := by
  obtain ⟨size, hsize⟩ := Option.isSome_iff_exists.mp hsize
  rw [formatReflectionContext, if_neg hmax, hblank, if_neg Bool.false_ne_true, hsize]
  dsimp only
  rw [serializeWithoutCrowdingText_eq]
  generalize reflectionRecord lib text attachments = record
  by_cases hfull : (utf8Len (serializeRecord record) : ℤ) ≤ maxBytes - FIXED_BYTES
  · rw [if_pos hfull]
    refine ⟨_, .full hfull, ?_⟩
    dsimp only
    rw [if_pos (by omega)]
    rfl
  · rw [if_neg hfull]
    dsimp only
    by_cases hplain : (utf8Len (serializeRecord record.withoutAttachments) : ℤ) ≤
        maxBytes - FIXED_BYTES
    · refine ⟨_, .plain hfull hplain, ?_⟩
      rw [if_pos (by omega)]
      rfl
    · rw [if_neg (by omega)]
      have hlate : ∀ n, (reflectionSettings maxBytes).late n = false := fun _ => rfl
      obtain ⟨hminimum, hfit⟩ | ⟨hminimum, k, checks, hfit, hlongest⟩ :=
        fitTruncatedRecord_longest hlate record.withoutAttachments (maxBytes - FIXED_BYTES) 0
      · rw [hfit]
        exact ⟨none, .nothing hplain hminimum, rfl⟩
      · rw [hfit]
        refine ⟨_, .truncated hplain hlongest ?_, rfl⟩
        obtain rfl | hfits := hlongest.holds
        · exact hminimum
        · exact hfits

/-! ## Sizes of responses -/

/-- What a text takes more when it is encoded once more. -/
def extra (t : Text) : ℕ := (t.map fun c => utf8Len (escapeRaw c) - c.utf8Size).sum

theorem additive_extra : Additive extra where
  append s t := by rw [extra, extra, extra, List.map_append, List.sum_append]

/-- Only ASCII characters are escaped. -/
theorem escapeRaw_ascii (c : Char) : escapeRaw c = [c] ∨ c.toNat < 0x80 := by
  have hquote : '"'.toNat = 34 := rfl
  have hback : '\\'.toNat = 92 := rfl
  unfold escapeRaw
  split
  · next e he =>
    refine .inr ?_
    unfold shortEscape at he
    split_ifs at he <;> subst_vars <;> omega
  · split
    · exact .inr (by omega)
    · exact .inl rfl

theorem utf8Size_le_escapeRaw (c : Char) : c.utf8Size ≤ utf8Len (escapeRaw c) := by
  obtain hself | hascii := escapeRaw_ascii c
  · rw [hself, utf8Len_cons]
    omega
  · have hone : c.utf8Size = 1 := by
      have hle : c.val ≤ 0x7F := by
        rw [UInt32.le_iff_toNat_le]
        show c.toNat ≤ 0x7F
        omega
      simp [Char.utf8Size, hle]
    cases hescape : escapeRaw c with
    | nil =>
      have hlen := escapes_raw.length_le c
      rw [hescape] at hlen
      simp at hlen
    | cons d ds =>
      have hpos := Char.utf8Size_pos d
      rw [utf8Len_cons]
      omega

theorem escapedLen_eq_extra (t : Text) : escapedLen t = utf8Len t + extra t := by
  induction t with
  | nil => rfl
  | cons c t ih =>
    have hc := utf8Size_le_escapeRaw c
    have hextra : extra (c :: t) = (utf8Len (escapeRaw c) - c.utf8Size) + extra t := List.sum_cons
    rw [escapedLen, List.flatMap_cons, utf8Len_append, ← escapedLen, ih, utf8Len_cons, hextra]
    omega

theorem grows_extra : Grows extra := by
  have h : CONTEXT_RULES.rules.all (fun r =>
      decide (extra [r.1] ≤ extra (unicodeEscape r.1.toNat))) = true := by decide +kernel
  exact fun r hr => of_decide_eq_true (List.all_eq_true.mp h r hr)

theorem grows_escapedLen : Grows escapedLen := by
  intro r hr
  have hutf8 := grows_utf8Len r hr
  have hextra := grows_extra r hr
  rw [escapedLen_eq_extra, escapedLen_eq_extra]
  omega

/-- A form of a record that fits where the whole record does not is smaller in the response too. -/
theorem escapedLen_truncated_le {record : RecallRecord} {available : ℤ} {k : ℕ}
    (hlarge : ¬ (utf8Len (serializeRecord record) : ℤ) ≤ available)
    (hfits : FitsLine record available k) :
    escapedLen (serializeRecord (FormatSettings.truncatedRecord record k)) ≤
      escapedLen (serializeRecord record) := by
  have hmarker : extra TEXT_TRUNCATION_MARKER = 0 := by decide +kernel
  have hbody := bodyText_mono additive_extra grows_extra (record.memory.take k)
    (record.memory.drop k)
  rw [List.take_append_drop] at hbody
  have hextra := size_truncatedRecord additive_extra record k
  have hwhole := size_serializeRecord additive_extra record
  rw [escapedLen_eq_extra, escapedLen_eq_extra]
  unfold FitsLine at hfits
  omega

/-- What is shown grows with what is left. -/
theorem ShownAt.mono {record shown : RecallRecord} {available available' : ℤ}
    (hle : available ≤ available') (h : ShownAt record available (some shown))
    {shown' : Option RecallRecord} (h' : ShownAt record available' shown') :
    ∃ larger, shown' = some larger ∧
      escapedLen (serializeRecord shown) ≤ escapedLen (serializeRecord larger) := by
  have houter := size_withoutAttachments_le additive_escapedLen record
  have hinner := size_withoutAttachments_le additive_utf8Len record
  cases h' with
  | full hfits' =>
    refine ⟨record, rfl, ?_⟩
    cases h with
    | full hfits => exact le_rfl
    | plain hlarge hfits => exact houter
    | truncated hlarge hlongest hfits => exact (escapedLen_truncated_le hlarge hfits).trans houter
  | plain hlarge' hfits' =>
    refine ⟨record.withoutAttachments, rfl, ?_⟩
    cases h with
    | full hfits => omega
    | plain hlarge hfits => exact le_rfl
    | truncated hlarge hlongest hfits => exact escapedLen_truncated_le hlarge hfits
  | @truncated k' hlarge' hlongest' hfits' =>
    refine ⟨_, rfl, ?_⟩
    cases h with
    | full hfits => omega
    | plain hlarge hfits => omega
    | @truncated k hlarge hlongest hfits =>
      refine size_truncatedRecord_mono additive_escapedLen grows_escapedLen _ ?_
      by_contra hlt
      exact hlongest'.longest k (Nat.not_le.mp hlt) hlongest.le (hfits.trans hle)
  | nothing hlarge' hminimum' =>
    cases h with
    | full hfits => omega
    | plain hlarge hfits => omega
    | truncated hlarge hlongest hfits =>
      have hfits' : FitsLine record.withoutAttachments available' _ := le_trans hfits hle
      exact absurd (hfits'.mono (Nat.zero_le _)) hminimum'

/-- Between the size of its line and what is left, the form is the same. -/
theorem ShownAt.stable {record shown : RecallRecord} {available available' : ℤ}
    (hle : available' ≤ available) (h : ShownAt record available (some shown))
    (hsize : (utf8Len (serializeRecord shown) : ℤ) ≤ available')
    {shown' : Option RecallRecord} (h' : ShownAt record available' shown') :
    shown' = some shown := by
  have hinner := size_withoutAttachments_le additive_utf8Len record
  cases h with
  | full hfits =>
    cases h' with
    | full hfits' => rfl
    | plain hlarge' hfits' => omega
    | truncated hlarge' hlongest' hfits' => omega
    | nothing hlarge' hminimum' => omega
  | plain hlarge hfits =>
    cases h' with
    | full hfits' => omega
    | plain hlarge' hfits' => rfl
    | truncated hlarge' hlongest' hfits' => omega
    | nothing hlarge' hminimum' => omega
  | @truncated k hlarge hlongest hfits =>
    cases h' with
    | full hfits' => omega
    | plain hlarge' hfits' => omega
    | @truncated k' hlarge' hlongest' hfits' =>
      obtain hlt | rfl | hlt := Nat.lt_trichotomy k k'
      · exact absurd (hfits'.trans hle) (hlongest.longest k' hlt hlongest'.le)
      · rfl
      · exact absurd hsize (hlongest'.longest k hlt hlongest.le)
    | nothing hlarge' hminimum' =>
      exact absurd ((show FitsLine _ available' k from hsize).mono (Nat.zero_le _)) hminimum'

/-! ## Responses -/

/-- The response of a budget for the envelope, if it has one. -/
def reflectionResponse (lib : Stdlib) (text : Text) (attachments : List JsonValue) (budget : ℤ) :
    Option Text :=
  let context := formatReflectionContext lib text budget attachments
  if context = [] then none else some (toolJson context)

/-- What the frame takes of a response. -/
def RESPONSE_BYTES : ℕ := utf8Len (toolJson (render [[]]))

theorem render_ne_nil (lines : List Text) : render lines ≠ [] := by
  have hpreamble : CONTEXT_PREAMBLE ≠ [] := by decide +kernel
  rw [render]
  exact fun h => hpreamble (List.append_eq_nil_iff.mp h).1

theorem utf8Len_toolJson (context : Text) :
    utf8Len (toolJson context) = utf8Len (toolJson []) + escapedLen context := by
  rw [toolJson, toolJson, reflectionJson, reflectionJson, utf8Len_dumps_obj, utf8Len_dumps_obj]
  simp only [List.map_cons, List.map_nil, List.sum_cons, List.sum_nil, List.length_cons, dumps,
    utf8Len_quoteRaw, escapedLen_nil]
  omega

theorem utf8Len_response_record (record : RecallRecord) :
    utf8Len (toolJson (render (recordLines [record]))) =
      RESPONSE_BYTES + escapedLen (serializeRecord record) := by
  have hrender : ∀ line, escapedLen (render [line]) =
      escapedLen (render [[]]) + escapedLen line := by
    intro line
    rw [render, render, joinLines, joinLines, escapedLen_append, escapedLen_append,
      additive_escapedLen.cons '\n' (line ++ _), additive_escapedLen.cons '\n' ([] ++ _),
      escapedLen_append, escapedLen_append, escapedLen_nil]
    omega
  rw [RESPONSE_BYTES, utf8Len_toolJson, utf8Len_toolJson (render [[]]), recordLines, List.map_cons,
    List.map_nil, hrender]
  omega

/-- No envelope at all, for any budget, or the forms of one record. -/
theorem formatReflectionContext_cases (lib : Stdlib) (text : Text) (attachments : List JsonValue) :
    (∀ budget : ℤ, formatReflectionContext lib text budget attachments = []) ∨
      ∀ budget : ℤ, ¬ budget ≤ 0 →
        ∃ shown, ShownAt (reflectionRecord lib text attachments) (budget - FIXED_BYTES) shown ∧
          formatReflectionContext lib text budget attachments = envelope shown := by
  by_cases hblank : isBlank text = false
  · cases hsize : boundedUtf8Size text HINDSIGHT_MAX_REFLECT_TEXT_BYTES with
    | none =>
      refine .inl fun budget => ?_
      rw [formatReflectionContext, hsize]
      split_ifs <;> rfl
    | some size =>
      refine .inr fun budget hbudget => ?_
      exact formatReflectionContext_shown attachments hblank (by rw [hsize]; rfl) hbudget
  · refine .inl fun budget => ?_
    rw [formatReflectionContext, if_pos (Bool.eq_true_of_not_eq_false hblank)]
    split_ifs <;> rfl

theorem envelope_some_ne_nil (record : RecallRecord) : envelope (some record) ≠ [] :=
  render_ne_nil _

/-- A response is that of a form. -/
theorem reflectionResponse_shown {lib : Stdlib} {text : Text} {attachments : List JsonValue}
    {budget : ℤ} {rendered : Text}
    (h : reflectionResponse lib text attachments budget = some rendered) :
    ¬ budget ≤ 0 ∧ (∃ shown,
        ShownAt (reflectionRecord lib text attachments) (budget - FIXED_BYTES) (some shown) ∧
        formatReflectionContext lib text budget attachments = envelope (some shown) ∧
        rendered = toolJson (envelope (some shown))) ∧
      ∀ budget' : ℤ, ¬ budget' ≤ 0 → ∃ shown,
        ShownAt (reflectionRecord lib text attachments) (budget' - FIXED_BYTES) shown ∧
          formatReflectionContext lib text budget' attachments = envelope shown := by
  rw [reflectionResponse] at h
  split at h
  · cases h
  · next hne =>
    obtain hnone | hforms := formatReflectionContext_cases lib text attachments
    · exact absurd (hnone budget) hne
    · have hbudget : ¬ budget ≤ 0 := by
        intro hle
        rw [formatReflectionContext, if_pos hle] at hne
        exact hne rfl
      refine ⟨hbudget, ?_, hforms⟩
      obtain ⟨shown, hshown, hcontext⟩ := hforms budget hbudget
      cases shown with
      | none => exact absurd hcontext hne
      | some shown => exact ⟨shown, hshown, hcontext, by rw [← hcontext, Option.some.inj h]⟩

/-- The response grows with the budget. -/
theorem reflectionResponse_mono {lib : Stdlib} {text : Text} {attachments : List JsonValue}
    {budget budget' : ℤ} (hle : budget ≤ budget') {rendered : Text}
    (h : reflectionResponse lib text attachments budget = some rendered) :
    ∃ larger, reflectionResponse lib text attachments budget' = some larger ∧
      utf8Len rendered ≤ utf8Len larger := by
  obtain ⟨hpos, ⟨shown, hshown, -, rfl⟩, hforms⟩ := reflectionResponse_shown h
  obtain ⟨shown', hshown', hcontext'⟩ := hforms budget' (by omega)
  obtain ⟨larger, rfl, hsize⟩ := hshown.mono (Int.sub_le_sub_right hle _) hshown'
  refine ⟨toolJson (envelope (some larger)), ?_, ?_⟩
  · rw [reflectionResponse, hcontext', if_neg (envelope_some_ne_nil _)]
  · rw [envelope, envelope, utf8Len_response_record, utf8Len_response_record]
    omega

/-- From the size of its envelope on, a smaller budget has the same response. -/
theorem reflectionResponse_stable {lib : Stdlib} {text : Text} {attachments : List JsonValue}
    {budget budget' : ℤ} (hle : budget' ≤ budget) {rendered : Text}
    (h : reflectionResponse lib text attachments budget = some rendered)
    (hsize : utf8Len (formatReflectionContext lib text budget attachments) ≤ budget') :
    reflectionResponse lib text attachments budget' = some rendered := by
  obtain ⟨hpos, ⟨shown, hshown, hcontext, rfl⟩, hforms⟩ := reflectionResponse_shown h
  have hline : utf8Len (envelope (some shown)) = FIXED_BYTES + utf8Len (serializeRecord shown) := by
    rw [envelope, utf8Len_render, FIXED_BYTES, recordLines, List.map_cons, List.map_nil, joinLines]
  rw [hcontext, hline] at hsize
  obtain ⟨shown', hshown', hcontext'⟩ := hforms budget' (by
    have hframe : 0 < FIXED_BYTES := by decide +kernel
    omega)
  have hsame := hshown.stable (Int.sub_le_sub_right hle _) (by omega) hshown'
  rw [reflectionResponse, hcontext', hsame, if_neg (envelope_some_ne_nil _)]

/-! ## The search -/

/-- How far the search is: what it has found is the largest response below `low`, and from `bound`
on no response fits. -/
structure Searched (respond : ℤ → Option Text) (maxBytes : ℤ) (low bound : ℕ) (best : Option Text) :
    Prop where
  found : ∀ rendered, best = some rendered → utf8Len rendered ≤ maxBytes ∧
    ∃ b : ℕ, 1 ≤ b ∧ b < low ∧ respond b = some rendered
  below : ∀ b : ℕ, b < low → ∀ rendered, respond b = some rendered →
    ∃ larger, best = some larger ∧ utf8Len rendered ≤ utf8Len larger
  above : ∀ b : ℕ, bound ≤ b → b ≤ maxBytes → ∀ rendered, respond b = some rendered →
    ¬ utf8Len rendered ≤ maxBytes

theorem searchReflection_searched {lib : Stdlib} {text : Text} {maxBytes : ℤ}
    {attachments : List JsonValue} (low bound : ℕ) (best : Option Text) (hlow : 1 ≤ low)
    (h : Searched (reflectionResponse lib text attachments) maxBytes low bound best) :
    ∃ low' bound', bound' ≤ low' ∧ low' ≤ max low bound ∧
      Searched (reflectionResponse lib text attachments) maxBytes low' bound'
        (searchReflection lib text maxBytes attachments low bound best) := by
  have hrespond : ∀ b : ℕ, formatReflectionContext lib text b attachments ≠ [] →
      reflectionResponse lib text attachments b =
        some (toolJson (formatReflectionContext lib text b attachments)) := fun b hne => by
    rw [reflectionResponse, if_neg hne]
  fun_induction searchReflection lib text maxBytes attachments low bound best with
  | case1 low bound best hlt middle context hempty ih =>
    have hmiddle : low ≤ middle ∧ middle < bound := by omega
    obtain ⟨low', bound', hle, hmax, hsearched⟩ := ih (by omega)
      { found := fun rendered hbest => by
          obtain ⟨hfits, b, hpos, hb, hb'⟩ := h.found rendered hbest
          exact ⟨hfits, b, hpos, by omega, hb'⟩
        below := fun b hb rendered hrendered => by
          obtain ⟨larger, hlarger, -⟩ := reflectionResponse_mono
            (show (b : ℤ) ≤ middle by omega) hrendered
          rw [reflectionResponse, if_pos hempty] at hlarger
          cases hlarger
        above := h.above }
    exact ⟨low', bound', hle, by omega, hsearched⟩
  | case2 low bound best hlt middle context hne candidate hfits ih =>
    have hmiddle : low ≤ middle ∧ middle < bound := by omega
    obtain ⟨low', bound', hle, hmax, hsearched⟩ := ih (by omega)
      { found := fun rendered hbest => by
          cases hbest
          exact ⟨hfits, middle, by omega, by omega, hrespond middle hne⟩
        below := fun b hb rendered hrendered => by
          obtain ⟨larger, hlarger, hsize⟩ := reflectionResponse_mono
            (show (b : ℤ) ≤ middle by omega) hrendered
          rw [hrespond middle hne] at hlarger
          cases hlarger
          exact ⟨_, rfl, hsize⟩
        above := h.above }
    exact ⟨low', bound', hle, by omega, hsearched⟩
  | case3 low bound best hlt middle context hne candidate hlarge ih =>
    have hmiddle : low ≤ middle ∧ middle < bound := by omega
    obtain ⟨low', bound', hle, hmax, hsearched⟩ := ih (by omega)
      { found := h.found
        below := h.below
        above := fun b hb hbmax rendered hrendered hfits => by
          obtain ⟨larger, hlarger, hsize⟩ := reflectionResponse_mono
            (show (middle : ℤ) ≤ b by omega) (hrespond middle hne)
          cases hrendered.symm.trans hlarger
          exact hlarge (le_trans (Int.ofNat_le.mpr hsize) hfits) }
    exact ⟨low', bound', hle, by omega, hsearched⟩
  | case4 low bound best hlt => exact ⟨low, bound, Nat.not_lt.mp hlt, le_max_left _ _, h⟩

/-! ## The longest response -/

theorem sorted_reflectionJson (context : Text) :
    (reflectionJson context).sorted = reflectionJson context := by
  have hkeys : ["context".toList, "result".toList, "trust".toList].Pairwise (· ≤ ·) := by decide
  rw [reflectionJson, sorted, sortedFields_eq_map, sortKeys_of_sorted]
  · rfl
  · exact hkeys

theorem loads_toolJson (context : Text) :
    loads (toolJson context) = some (reflectionJson context) := by
  have hkeys : ["context".toList, "result".toList, "trust".toList].Nodup := by decide
  have hdistinct : (reflectionJson context).Distinct := by
    refine .obj hkeys ?_
    simp only [List.forall_mem_cons]
    exact ⟨.str _, .str _, .str _, List.forall_mem_nil _⟩
  rw [toolJson, loads_dumps quotes_raw hdistinct, sorted_reflectionJson]

/-- A response is an object whose context is one envelope with one record. -/
def OneRecord (rendered : Text) : Prop :=
  ∃ record, let context := render (recordLines [record])
    loads rendered = some (reflectionJson context) ∧
      splitlines context =
        splitlines CONTEXT_PREAMBLE ++ [serializeRecord record] ++ [CONTEXT_SUFFIX] ∧
      loads (serializeRecord record) = some record.json.sorted ∧
      occurrences CONTEXT_BEGIN_MARKER context = 1 ∧ occurrences CONTEXT_SUFFIX context = 1

theorem oneRecord_toolJson (record : RecallRecord) :
    OneRecord (toolJson (render (recordLines [record]))) := by
  have hne : [record] ≠ [] := List.cons_ne_nil _ _
  have hcounts : occurrences CONTEXT_BEGIN_MARKER CONTEXT_PREAMBLE +
      occurrences CONTEXT_BEGIN_MARKER CONTEXT_SUFFIX = 1 ∧
      occurrences CONTEXT_SUFFIX CONTEXT_PREAMBLE + occurrences CONTEXT_SUFFIX CONTEXT_SUFFIX = 1 :=
    by decide +kernel
  have hmarkers : CONTEXT_BEGIN_MARKER ∈ CONTEXT_MARKERS ∧ CONTEXT_SUFFIX ∈ CONTEXT_MARKERS := by
    decide +kernel
  refine ⟨record, loads_toolJson _, splitlines_render hne, loads_serializeRecord record, ?_, ?_⟩
  · rw [occurrences_render hmarkers.1 hne, hcounts.1]
  · rw [occurrences_render hmarkers.2 hne, hcounts.2]

/-- The longest response within the bound over all budgets of the envelope; none where no budget
has one. -/
def IsLongestResponse (respond : ℤ → Option Text) (maxBytes : ℤ) : Option Text → Prop
  | none => ∀ budget : ℤ, 1 ≤ budget → budget ≤ maxBytes → ∀ rendered,
      respond budget = some rendered → ¬ utf8Len rendered ≤ maxBytes
  | some rendered => utf8Len rendered ≤ maxBytes ∧
      (∃ budget : ℤ, 1 ≤ budget ∧ budget ≤ maxBytes ∧ respond budget = some rendered) ∧
      ∀ budget : ℤ, 1 ≤ budget → budget ≤ maxBytes → ∀ other, respond budget = some other →
        utf8Len other ≤ maxBytes → utf8Len other ≤ utf8Len rendered

theorem Searched.longest {respond : ℤ → Option Text} {maxBytes : ℤ} {low bound : ℕ}
    {best : Option Text} (h : Searched respond maxBytes low bound best) (hdone : bound ≤ low)
    (hlow : low ≤ maxBytes + 1) : IsLongestResponse respond maxBytes best := by
  have hbudget : ∀ budget : ℤ, 1 ≤ budget → budget ≤ maxBytes → ∀ other,
      respond budget = some other → utf8Len other ≤ maxBytes →
        ∃ larger, best = some larger ∧ utf8Len other ≤ utf8Len larger := by
    intro budget hpos hmax other hother hfits
    obtain ⟨b, rfl⟩ := Int.eq_ofNat_of_zero_le (show 0 ≤ budget by omega)
    by_cases hb : b < low
    · exact h.below b hb other hother
    · exact absurd hfits (h.above b (by omega) hmax other hother)
  cases best with
  | none =>
    intro budget hpos hmax rendered hrendered hfits
    obtain ⟨larger, hlarger, -⟩ := hbudget budget hpos hmax rendered hrendered hfits
    cases hlarger
  | some rendered =>
    obtain ⟨hfits, b, hpos, hb, hb'⟩ := h.found rendered rfl
    refine ⟨hfits, ⟨b, by omega, by omega, hb'⟩, fun budget hpos hmax other hother hfits => ?_⟩
    obtain ⟨larger, hlarger, hsize⟩ := hbudget budget hpos hmax other hother hfits
    cases hlarger
    exact hsize

theorem boundedReflectionToolJson_longest (lib : Stdlib) (text : Text) (maxBytes : ℤ)
    (attachments : List JsonValue) :
    IsLongestResponse (reflectionResponse lib text attachments) maxBytes
      (boundedReflectionToolJson lib text maxBytes attachments) := by
  rw [boundedReflectionToolJson]
  by_cases hempty : formatReflectionContext lib text maxBytes attachments = []
  · have hnone : reflectionResponse lib text attachments maxBytes = none := if_pos hempty
    rw [if_pos hempty]
    intro budget _ hmax rendered hrendered _
    obtain ⟨larger, hlarger, -⟩ := reflectionResponse_mono hmax hrendered
    rw [hnone] at hlarger
    cases hlarger
  · have hrespond : reflectionResponse lib text attachments maxBytes =
        some (toolJson (formatReflectionContext lib text maxBytes attachments)) := if_neg hempty
    have hpos := (reflectionResponse_shown hrespond).1
    rw [if_neg hempty]
    dsimp only
    split
    · next hfits =>
      refine ⟨hfits, ⟨maxBytes, by omega, le_rfl, hrespond⟩, ?_⟩
      intro budget _ hmax other hother _
      obtain ⟨larger, hlarger, hsize⟩ := reflectionResponse_mono hmax hother
      cases hrespond.symm.trans hlarger
      exact hsize
    · next hlarge =>
      generalize hhigh : min maxBytes
        (utf8Len (formatReflectionContext lib text maxBytes attachments) - 1 : ℤ) = high
      have hstart : Searched (reflectionResponse lib text attachments) maxBytes 1
          (high + 1).toNat none := by
        refine ⟨nofun, fun b hb rendered hrendered => ?_, fun b hb hmax rendered hrendered => ?_⟩
        · have hzero := (reflectionResponse_shown hrendered).1
          omega
        · -- the same response as without the search
          have hsame := reflectionResponse_stable hmax hrespond (by omega)
          cases hrendered.symm.trans hsame
          exact hlarge
      obtain ⟨low, bound, hdone, hlow, hsearched⟩ :=
        searchReflection_searched 1 _ none le_rfl hstart
      exact hsearched.longest hdone (by omega)

/-- The response is within its bound, holds one envelope with one record, and is the longest such
response over all budgets of the envelope; there is none only where no budget has one. -/
theorem reflection_longest (lib : Stdlib) (text : Text) (maxBytes : ℤ)
    (attachments : List JsonValue) :
    IsLongestResponse (reflectionResponse lib text attachments) maxBytes
        (boundedReflectionToolJson lib text maxBytes attachments) ∧
      ∀ rendered, boundedReflectionToolJson lib text maxBytes attachments = some rendered →
        OneRecord rendered := by
  have hlongest := boundedReflectionToolJson_longest lib text maxBytes attachments
  refine ⟨hlongest, fun rendered hsome => ?_⟩
  rw [hsome] at hlongest
  obtain ⟨-, ⟨budget, -, -, hrendered⟩, -⟩ := hlongest
  obtain ⟨-, ⟨shown, -, -, rfl⟩, -⟩ := reflectionResponse_shown hrendered
  exact oneRecord_toolJson shown

end BetterHindsight
