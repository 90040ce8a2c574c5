import BetterHindsight.Foundations.JsonShortest
import BetterHindsight.Foundations.JsonStrings
import BetterHindsight.MentalModels.Render

/-! # The frame of a rendered response

What a reader of a response finds in its context: the frame's markers, and the payload on the first
line that opens an object. `render` leaves both the markers and the line separators of a string as
they are, so either is right only for payloads without them. -/

namespace BetterHindsight.MentalModels
set_option autoImplicit false

/-! ## Markers -/

/-- The context of the response has each marker once, at its beginning and at its end. -/
def FramedOnce (rendered : Text) : Prop :=
  ∃ inner, let ctx := CONTEXT_PREAMBLE ++ '\n' :: (inner ++ '\n' :: CONTEXT_SUFFIX)
    Json.loads rendered = some (response ctx) ∧
      occurrences CONTEXT_BEGIN_MARKER ctx = 1 ∧ occurrences CONTEXT_SUFFIX ctx = 1

/-- No string of the payload holds a marker of the frame. -/
def Unmarked (payload : Payload) : Prop :=
  ∀ t ∈ Json.strings (payloadJson payload),
    ¬ CONTEXT_BEGIN_MARKER <:+: t ∧ ¬ CONTEXT_SUFFIX <:+: t

theorem occurrences_record {marker : Text} (hm : marker ∈ [CONTEXT_BEGIN_MARKER, CONTEXT_SUFFIX])
    (payload : Payload) : occurrences marker (record payload) = 0 ↔
      ∀ t ∈ Json.strings (payloadJson payload), ¬ marker <:+: t := by
  have hopen : ∀ m ∈ [CONTEXT_BEGIN_MARKER, CONTEXT_SUFFIX], m = '[' :: m.tail ∧ '_' ∈ m.tail := by
    decide +kernel
  have hplain : ([CONTEXT_BEGIN_MARKER, CONTEXT_SUFFIX].all fun m =>
      m.all fun c => Json.escapeRaw c == [c]) = true := by decide +kernel
  obtain ⟨hcons, hunderscore⟩ := hopen marker hm
  have hliteral : ∀ c ∈ marker, Json.escapeRaw c = [c] := fun c hc =>
    beq_iff_eq.mp (List.all_eq_true.mp (List.all_eq_true.mp hplain marker hm) c hc)
  rw [hcons] at hliteral
  have hcount := Json.occurrences_dumpsPlain hliteral hunderscore (payloadJson payload)
  rw [← hcons] at hcount
  rw [record, hcount, List.sum_eq_zero_iff]
  simp only [List.mem_map, forall_exists_index, and_imp, forall_apply_eq_imp_iff₂]
  refine forall₂_congr fun t _ => ?_
  have hne : marker ≠ [] := by
    rw [hcons]
    exact List.cons_ne_nil _ _
  exact occurrences_eq_zero hne

/-- A context has the frame's own markers and those of its record. -/
theorem occurrences_context (payload : Payload) :
    occurrences CONTEXT_BEGIN_MARKER (context payload) =
        1 + occurrences CONTEXT_BEGIN_MARKER (record payload) ∧
      occurrences CONTEXT_SUFFIX (context payload) =
        occurrences CONTEXT_SUFFIX (record payload) + 1 := by
  have hbegin : '\n' ∉ CONTEXT_BEGIN_MARKER ∧ CONTEXT_BEGIN_MARKER ≠ [] := by decide +kernel
  have hsuffix : '\n' ∉ CONTEXT_SUFFIX ∧ CONTEXT_SUFFIX ≠ [] := by decide +kernel
  have hpreamble : occurrences CONTEXT_BEGIN_MARKER CONTEXT_PREAMBLE = 1 ∧
      occurrences CONTEXT_BEGIN_MARKER CONTEXT_SUFFIX = 0 ∧
      occurrences CONTEXT_SUFFIX CONTEXT_PREAMBLE = 0 ∧
      occurrences CONTEXT_SUFFIX CONTEXT_SUFFIX = 1 := by decide +kernel
  obtain ⟨h₁, h₂, h₃, h₄⟩ := hpreamble
  rw [context]
  constructor
  · rw [occurrences_append_cons hbegin.1 hbegin.2, occurrences_append_cons hbegin.1 hbegin.2, h₁, h₂]
    rfl
  · rw [occurrences_append_cons hsuffix.1 hsuffix.2, occurrences_append_cons hsuffix.1 hsuffix.2,
      h₃, h₄, Nat.zero_add]

example : occurrences CONTEXT_SUFFIX (context .empty) = 1 := by decide +kernel

theorem framedOnce_encodePayload (payload : Payload) :
    FramedOnce (encodePayload payload) ↔ Unmarked payload := by
  have hframed : FramedOnce (encodePayload payload) ↔
      occurrences CONTEXT_BEGIN_MARKER (context payload) = 1 ∧
        occurrences CONTEXT_SUFFIX (context payload) = 1 := by
    constructor
    · rintro ⟨inner, hloads, hcounts⟩
      rw [loads_encodePayload] at hloads
      simp only [response, Option.some.injEq, Json.obj.injEq, List.cons.injEq, Prod.mk.injEq,
        Json.str.injEq, true_and, and_true] at hloads
      rw [hloads]
      exact hcounts
    · intro hcounts
      exact ⟨record payload, loads_encodePayload payload, hcounts⟩
  have hmem : CONTEXT_BEGIN_MARKER ∈ [CONTEXT_BEGIN_MARKER, CONTEXT_SUFFIX] ∧
      CONTEXT_SUFFIX ∈ [CONTEXT_BEGIN_MARKER, CONTEXT_SUFFIX] := ⟨by simp, by simp⟩
  have hbegin := occurrences_record hmem.1 payload
  have hsuffix := occurrences_record hmem.2 payload
  obtain ⟨h₁, h₂⟩ := occurrences_context payload
  rw [hframed, h₁, h₂, Nat.add_eq_left, Nat.add_eq_right, hbegin, hsuffix]
  exact forall₂_and.symm

/-- A rendered response is framed once exactly if no string that `render` keeps holds a marker. -/
theorem render_framedOnce {payload cut : Payload} {rendered : Text}
    (h : render payload = .ok (rendered, cut)) :
    FramedOnce rendered ↔ ∀ kept, Fitted payload kept → Unmarked kept := by
  obtain ⟨hfitted, rfl⟩ := render_fitted h
  rw [framedOnce_encodePayload]
  constructor
  · intro hunmarked kept hkept
    exact hfitted.unique hkept ▸ hunmarked
  · intro hall
    exact hall cut hfitted

/-- The response to a read of a model with a content. -/
def readPayload (content : Text) : Payload where
  entries := [("result".toList, .str "ok"), ("id".toList, .str "m"), ("name".toList, .str "n"),
    ("name_truncated".toList, .bool false), ("last_refreshed_at".toList, .null),
    ("last_memory_seen_at".toList, .null), ("is_stale".toList, .null),
    ("content".toList, .str content), ("verification".toList,
      .str "Inspect generated content; existence is not successful generation."),
    ("truncated".toList, .bool false)]
  nodup := (by decide : ["result".toList, "id".toList, "name".toList, "name_truncated".toList,
    "last_refreshed_at".toList, "last_memory_seen_at".toList, "is_stale".toList,
    "content".toList, "verification".toList, "truncated".toList].Nodup)

theorem render_framedOnce_plain : FramedOnce (encodePayload (readPayload "Tea.")) := by
  have hfits : fits (readPayload "Tea.") = true := by decide +kernel
  have hunmarked : ∀ t ∈ Json.strings (payloadJson (readPayload "Tea.")),
      ¬ CONTEXT_BEGIN_MARKER <:+: t ∧ ¬ CONTEXT_SUFFIX <:+: t := by decide +kernel
  refine (render_framedOnce (render_of_fits hfits)).mpr fun kept hkept => ?_
  rw [← (Fitted.whole hfits).unique hkept]
  exact hunmarked

theorem render_framedTwice : ¬ ∀ (payload cut : Payload) (rendered : Text),
    render payload = .ok (rendered, cut) → FramedOnce rendered := by
  intro hall
  have hfits : fits (readPayload CONTEXT_SUFFIX) = true := by decide +kernel
  have hframed := hall _ _ _ (render_of_fits hfits)
  have hmarked : CONTEXT_SUFFIX ∈ Json.strings (payloadJson (readPayload CONTEXT_SUFFIX)) := by
    decide +kernel
  exact ((framedOnce_encodePayload _).mp hframed _ hmarked).2 List.infix_rfl

/-! ## Reading the payload back -/

/-- What `run_operator` and `submission_result` read from a response. -/
def evidence (raw : Text) : Option Json :=
  match Json.loads raw with
  | some (.obj fields) =>
    match fields.lookup "context".toList with
    | some (.str ctx) =>
      ((splitlines ctx).find? fun line => line.head? = some '{').bind Json.loads
    | _ => none
  | _ => none

/-- No string of the payload holds a line separator that JSON leaves as it is. -/
def Unbroken (payload : Payload) : Prop :=
  ∀ t ∈ Json.strings (payloadJson payload), ∀ c ∈ LINE_SEPARATORS, c ∉ t

theorem isLineBreak_iff {c : Char} (hc : Json.Printable c) :
    isLineBreak c = true ↔ c ∈ LINE_SEPARATORS := by
  have hnat : c ∈ LINE_SEPARATORS ↔ c.toNat = 0x85 ∨ c.toNat = 0x2028 ∨ c.toNat = 0x2029 := by
    simp only [LINE_SEPARATORS, List.mem_cons, List.not_mem_nil, or_false, ← Char.toNat_inj]
    rfl
  have hprintable : 0x20 ≤ c.toNat := hc
  rw [hnat]
  simp only [isLineBreak, Bool.or_eq_true, Bool.and_eq_true, decide_eq_true_eq, beq_iff_eq]
  omega

example : LINE_SEPARATORS.all isLineBreak = true := by decide +kernel

theorem unbroken_iff (payload : Payload) :
    Unbroken payload ↔ ∀ c ∈ record payload, isLineBreak c = false := by
  have hlarge : ∀ c ∈ LINE_SEPARATORS, 0x80 ≤ c.toNat := by
    simp only [LINE_SEPARATORS, List.forall_mem_cons]
    exact ⟨by decide, by decide, by decide, List.forall_mem_nil _⟩
  constructor
  · intro hunbroken c hc
    refine Bool.eq_false_iff.mpr fun hbreak => ?_
    have hsep := (isLineBreak_iff (Json.printable_dumpsPlain _ c hc)).mp hbreak
    obtain ⟨t, ht, hct⟩ := (Json.mem_dumpsPlain (hlarge c hsep) _).mp hc
    exact hunbroken t ht c hsep hct
  · intro hnone t ht c hsep hct
    have hc : c ∈ record payload := (Json.mem_dumpsPlain (hlarge c hsep) _).mpr ⟨t, ht, hct⟩
    have hbreak := (isLineBreak_iff (Json.printable_dumpsPlain _ c hc)).mpr hsep
    rw [hnone c hc] at hbreak
    cases hbreak

theorem record_head (payload : Payload) : ∃ rest, record payload = '{' :: rest := by
  rw [record, payloadJson, Json.dumpsPlain_obj]
  exact ⟨_, rfl⟩

/-- The reader looks for the record after the lines of the preamble. -/
theorem evidence_encodePayload (payload : Payload) :
    evidence (encodePayload payload) =
      ((splitlines (record payload ++ '\n' :: CONTEXT_SUFFIX)).find? fun line =>
        line.head? = some '{').bind Json.loads := by
  have hline : ∀ line : Text, line.any isLineBreak = false → ∀ c ∈ line, isLineBreak c = false :=
    fun line h c hc => by simpa using List.any_eq_false.mp h c hc
  have hbegin := hline CONTEXT_BEGIN_MARKER (by decide +kernel)
  have hwarning := hline CONTEXT_WARNING (by decide +kernel)
  have hfirst : CONTEXT_BEGIN_MARKER.head? ≠ some '{' ∧ CONTEXT_WARNING.head? ≠ some '{' := by
    decide +kernel
  have hlookup : ([("trust".toList, Json.str "untrusted_generated_evidence"),
      ("context".toList, Json.str (context payload))] : List (Text × Json)).lookup
        "context".toList = some (.str (context payload)) := by
    have hne : ("context".toList == "trust".toList) = false := by decide
    rw [List.lookup, hne]
    exact List.lookup_cons_self
  have hsplit : splitlines (context payload) = CONTEXT_BEGIN_MARKER :: CONTEXT_WARNING ::
      splitlines (record payload ++ '\n' :: CONTEXT_SUFFIX) := by
    rw [context, CONTEXT_PREAMBLE, List.append_assoc, List.cons_append, splitlines_line hbegin,
      splitlines_line hwarning]
  unfold evidence
  rw [loads_encodePayload, response]
  dsimp only
  rw [hlookup]
  dsimp only
  rw [hsplit, List.find?_cons_of_neg (by simpa using hfirst.1),
    List.find?_cons_of_neg (by simpa using hfirst.2)]

/-- The payload is read back exactly if its record is one line. -/
theorem evidence_eq_iff (payload : Payload) :
    evidence (encodePayload payload) = some (payloadJson payload) ↔ Unbroken payload := by
  obtain ⟨rest, hrecord⟩ := record_head payload
  rw [evidence_encodePayload, unbroken_iff]
  constructor
  · intro heq
    by_contra hbroken
    push Not at hbroken
    obtain ⟨c, hc, hbreak⟩ := hbroken
    have hbreak := Bool.eq_true_of_not_eq_false hbreak
    -- the record up to its first line boundary is the line the reader takes
    obtain ⟨before, d, after, hsplit, hbefore, hd⟩ :
        ∃ before d after, record payload = before ++ d :: after ∧
          (∀ e ∈ before, isLineBreak e = false) ∧ isLineBreak d = true := by
      obtain ⟨d, hd⟩ := Option.isSome_iff_exists.mp (List.find?_isSome.mpr ⟨c, hc, hbreak⟩)
      obtain ⟨hd, before, after, hsplit, hbefore⟩ := List.find?_eq_some_iff_append.mp hd
      exact ⟨before, d, after, hsplit, fun e he => by simpa using hbefore e he, hd⟩
    have hr : d ≠ '\r' := by
      rintro rfl
      have hprintable := Json.printable_dumpsPlain (payloadJson payload) '\r'
        (by rw [← record, hsplit]; simp)
      exact absurd hprintable (by decide : ¬ 0x20 ≤ '\r'.toNat)
    have hhead : before.head? = some '{' := by
      cases before with
      | nil =>
        rw [List.nil_append, hrecord] at hsplit
        cases hsplit
        exact absurd hd (by decide)
      | cons e before =>
        rw [hrecord, List.cons_append] at hsplit
        cases hsplit
        rfl
    rw [hsplit, List.append_assoc, List.cons_append, splitlines_break hbefore hd hr,
      List.find?_cons_of_pos (by simpa using hhead), Option.bind_some] at heq
    have hle := Json.length_dumpsPlain_le heq
    rw [← record, hsplit, List.length_append, List.length_cons] at hle
    omega
  · intro hnone
    rw [splitlines_line hnone, List.find?_cons_of_pos, Option.bind_some, loads_record]
    rw [hrecord]
    rfl

/-- The reader finds the payload exactly if no string that `render` keeps holds a line separator. -/
theorem render_evidence {payload cut : Payload} {rendered : Text}
    (h : render payload = .ok (rendered, cut)) :
    evidence rendered = some (payloadJson cut) ↔
      ∀ kept, Fitted payload kept → Unbroken kept := by
  obtain ⟨hfitted, rfl⟩ := render_fitted h
  rw [evidence_eq_iff]
  constructor
  · intro hunbroken kept hkept
    exact hfitted.unique hkept ▸ hunbroken
  · intro hall
    exact hall cut hfitted

theorem render_evidence_plain :
    evidence (encodePayload (readPayload "Tea.")) = some (payloadJson (readPayload "Tea.")) := by
  have hfits : fits (readPayload "Tea.") = true := by decide +kernel
  have hunbroken : ((Json.strings (payloadJson (readPayload "Tea."))).all fun t =>
      LINE_SEPARATORS.all fun c => !t.contains c) = true := by decide +kernel
  refine (render_evidence (render_of_fits hfits)).mpr fun kept hkept => ?_
  rw [← (Fitted.whole hfits).unique hkept]
  intro t ht c hc hmem
  have hnot := List.all_eq_true.mp (List.all_eq_true.mp hunbroken t ht) c hc
  simp [hmem] at hnot

theorem render_evidence_lost : ¬ ∀ (payload cut : Payload) (rendered : Text),
    render payload = .ok (rendered, cut) → evidence rendered = some (payloadJson cut) := by
  intro hall
  have hfits : fits (readPayload ['\u2028']) = true := by decide +kernel
  have hevidence := hall _ _ _ (render_of_fits hfits)
  have hbroken : ['\u2028'] ∈ Json.strings (payloadJson (readPayload ['\u2028'])) := by
    decide +kernel
  exact (evidence_eq_iff _).mp hevidence _ hbroken '\u2028' (by decide) List.mem_cons_self

end BetterHindsight.MentalModels
