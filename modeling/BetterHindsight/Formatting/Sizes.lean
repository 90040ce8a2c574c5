import BetterHindsight.Foundations.JsonSizes
import BetterHindsight.Formatting.Recall

/-! # Sizes of lines

The size of a serialized record, as a function of its memory and of its attachments. A longer
beginning of a memory never has a smaller line: no marker of the frame reaches into the truncation
marker. -/

namespace BetterHindsight
set_option autoImplicit false

open Json

/-- What the memory takes of its line, between the quotation marks. -/
def bodyText (memory : Text) : Text := escapeBy CONTEXT_RULES (memory.flatMap escapeRaw)

/-- The fields beside the memory. -/
def RecallRecord.others (record : RecallRecord) : List (Text × Json) :=
  let text (key : Text) (value : Option Text) : List (Text × Json) :=
    (value.map fun t => (key, .str t)).toList
  text "type" record.type ++ text "occurred_start" record.occurredStart ++
    text "occurred_end" record.occurredEnd ++ text "mentioned_at" record.mentionedAt ++
    if record.attachments = [] then []
    else [("attachments".toList, .arr (record.attachments.map Subtype.val))]

section Sizes
variable {μ : Text → ℕ}

/-- What the line takes beside its memory. -/
def othersSize (μ : Text → ℕ) (record : RecallRecord) : ℕ :=
  μ (quoteBy CONTEXT_RULES "memory") + μ [':'] +
    (record.others.map fun f =>
      μ (quoteBy CONTEXT_RULES f.1) + μ [':'] + μ (dumps (quoteBy CONTEXT_RULES) f.2)).sum +
    record.others.length * μ [','] + μ ['{'] + μ ['}'] + 2 * μ ['"']

theorem size_serializeRecord (hμ : Additive μ) (record : RecallRecord) :
    μ (serializeRecord record) = othersSize μ record + μ (bodyText record.memory) := by
  have hjson : record.json =
      .obj (("memory".toList, .str record.memory) :: record.others) := rfl
  have hbody : μ (quoteBy CONTEXT_RULES record.memory) =
      μ ['"'] + (μ (bodyText record.memory) + μ ['"']) := by
    rw [quoteBy, hμ.cons, hμ.append, bodyText]
  rw [serializeRecord_eq, escapeBy_dumps, hjson, hμ.dumps_obj, List.map_cons, List.sum_cons,
    List.length_cons, Nat.add_sub_cancel, othersSize, dumps, hbody]
  dsimp only
  omega

/-- The record as its line has it where the attachments do not fit. -/
def RecallRecord.withoutAttachments (record : RecallRecord) : RecallRecord :=
  { record with attachments := [] }

theorem othersSize_withoutAttachments (record : RecallRecord) :
    othersSize μ record.withoutAttachments ≤ othersSize μ record := by
  have hothers : ∃ attachments, record.others =
      record.withoutAttachments.others ++ attachments := by
    refine ⟨if record.attachments = [] then []
      else [("attachments".toList, .arr (record.attachments.map Subtype.val))], ?_⟩
    simp [RecallRecord.others, RecallRecord.withoutAttachments]
  obtain ⟨attachments, hothers⟩ := hothers
  rw [othersSize, othersSize, hothers, List.map_append, List.sum_append, List.length_append,
    Nat.add_mul]
  omega

/-- Attachments only add to a line. -/
theorem size_withoutAttachments_le (hμ : Additive μ) (record : RecallRecord) :
    μ (serializeRecord record.withoutAttachments) ≤ μ (serializeRecord record) := by
  have hothers := @othersSize_withoutAttachments μ record
  have hmemory : record.withoutAttachments.memory = record.memory := rfl
  rw [size_serializeRecord hμ, size_serializeRecord hμ, hmemory]
  omega

/-! ## Beginnings of a memory -/

theorem bodyText_truncated (memory : Text) :
    bodyText (memory ++ TEXT_TRUNCATION_MARKER) = bodyText memory ++ TEXT_TRUNCATION_MARKER := by
  have hmarker : TEXT_TRUNCATION_MARKER.flatMap escapeRaw = ' ' :: TEXT_TRUNCATION_MARKER.tail := by
    decide +kernel
  have htail : escapeBy CONTEXT_RULES TEXT_TRUNCATION_MARKER.tail =
      TEXT_TRUNCATION_MARKER.tail := by decide +kernel
  have hnone : CONTEXT_RULES.rules.all (fun r => !r.2.contains ' ') = true := by decide +kernel
  have hspace : ∀ r ∈ CONTEXT_RULES.rules, ' ' ∉ r.2 := by
    intro r hr
    have h := List.all_eq_true.mp hnone r hr
    simpa using h
  rw [bodyText, List.flatMap_append, hmarker,
    escapeBy_separator ⟨by decide, by decide⟩ hspace, htail]
  rfl

/-- How sizes grow: no escape of the frame is smaller than what it stands for. -/
def Grows (μ : Text → ℕ) : Prop :=
  ∀ r ∈ CONTEXT_RULES.rules, μ [r.1] ≤ μ (unicodeEscape r.1.toNat)

theorem grows_utf8Len : Grows utf8Len := by
  have h : CONTEXT_RULES.rules.all (fun r =>
      decide (utf8Len [r.1] ≤ utf8Len (unicodeEscape r.1.toNat))) = true := by decide +kernel
  exact fun r hr => of_decide_eq_true (List.all_eq_true.mp h r hr)

theorem bodyText_mono (hμ : Additive μ) (hgrow : Grows μ) (s t : Text) :
    μ (bodyText s) ≤ μ (bodyText (s ++ t)) := by
  rw [bodyText, bodyText, List.flatMap_append]
  exact hμ.escapeBy_mono hgrow _ _

theorem bodyText_take_mono (hμ : Additive μ) (hgrow : Grows μ) (memory : Text)
    {j k : ℕ} (h : j ≤ k) : μ (bodyText (memory.take j)) ≤ μ (bodyText (memory.take k)) := by
  have hsplit : memory.take j ++ (memory.take k).drop j = memory.take k := by
    have hdrop := List.take_append_drop j (memory.take k)
    rwa [List.take_take, Nat.min_eq_left h] at hdrop
  have hmono := bodyText_mono hμ hgrow (memory.take j) ((memory.take k).drop j)
  rwa [hsplit] at hmono

theorem size_truncatedRecord (hμ : Additive μ) (record : RecallRecord) (k : ℕ) :
    μ (serializeRecord (FormatSettings.truncatedRecord record k)) =
      othersSize μ record + μ (bodyText (record.memory.take k)) + μ TEXT_TRUNCATION_MARKER := by
  have hothers : othersSize μ (FormatSettings.truncatedRecord record k) = othersSize μ record := rfl
  rw [size_serializeRecord hμ, hothers, FormatSettings.truncatedRecord, bodyText_truncated,
    hμ.append, Nat.add_assoc]

theorem size_truncatedRecord_mono (hμ : Additive μ) (hgrow : Grows μ)
    (record : RecallRecord) {j k : ℕ} (h : j ≤ k) :
    μ (serializeRecord (FormatSettings.truncatedRecord record j)) ≤
      μ (serializeRecord (FormatSettings.truncatedRecord record k)) := by
  have hbody := bodyText_take_mono hμ hgrow record.memory h
  rw [size_truncatedRecord hμ, size_truncatedRecord hμ]
  omega


end Sizes

end BetterHindsight
