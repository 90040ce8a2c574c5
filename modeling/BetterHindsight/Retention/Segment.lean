import BetterHindsight.Destination

/-! # Retained segments

`RetainedSegment` and the payload hash of `retention.py`. Two records of the same hash are the same
record as long as SHA-256 has no collision between them. -/

namespace BetterHindsight
set_option autoImplicit false

/-- One immutable, independently decodable record for a retained occurrence. -/
structure RetainedSegment where
  documentId : Text
  payloadHash : Text
  payloadSchema : Text
  sourceSha256 : Text
  segmentIndex : ℤ
  segmentCount : ℤ
  content : Text
  deriving DecidableEq

/-- `_canonical_json` -/
def canonicalJson (value : Json) : Text := Json.dumps Json.quoteRaw value

def segmentRecord (payloadSchema sourceSha256 : Text) (segmentIndex segmentCount : ℤ)
    (content : Text) : Json :=
  .obj [
    ("content", .str content),
    ("payload_schema", .str payloadSchema),
    ("segment_count", .int segmentCount),
    ("segment_index", .int segmentIndex),
    ("source_sha256", .str sourceSha256)]

/-- The digest of the exact canonical segment record without `document_id`. -/
def deriveSegmentPayloadHash (lib : Stdlib) (payloadSchema sourceSha256 : Text)
    (segmentIndex segmentCount : ℤ) (content : Text) : Text :=
  (lib.sha256Text (canonicalJson
    (segmentRecord payloadSchema sourceSha256 segmentIndex segmentCount content))).text

theorem distinct_segmentRecord (schema source : Text) (index count : ℤ) (content : Text) :
    (segmentRecord schema source index count content).Distinct := by
  refine .obj ?_ ?_
  · show List.Nodup ["content".toList, "payload_schema".toList, "segment_count".toList,
      "segment_index".toList, "source_sha256".toList]
    decide
  · intro f hf
    simp only [List.mem_cons, List.not_mem_nil, or_false] at hf
    rcases hf with rfl | rfl | rfl | rfl | rfl
    · exact .str _
    · exact .str _
    · exact .int _
    · exact .int _
    · exact .str _

theorem sorted_segmentRecord (schema source : Text) (index count : ℤ) (content : Text) :
    (segmentRecord schema source index count content).sorted =
      segmentRecord schema source index count content := by
  unfold segmentRecord
  rw [Json.sorted, Json.sortedFields_eq_map, Json.sortKeys_of_sorted]
  · simp only [List.map_cons, List.map_nil, Json.sorted]
  · show List.Pairwise (· ≤ ·) ["content".toList, "payload_schema".toList,
      "segment_count".toList, "segment_index".toList, "source_sha256".toList]
    decide

/-- The canonical record determines the segment's index, among the rest. -/
theorem segmentRecord_injective {schema source content schema' source' content' : Text}
    {index count index' count' : ℤ}
    (h : canonicalJson (segmentRecord schema source index count content) =
      canonicalJson (segmentRecord schema' source' index' count' content')) :
    schema = schema' ∧ source = source' ∧ index = index' ∧ count = count' ∧ content = content' := by
  have hj := Json.dumps_injective Json.quotes_raw (distinct_segmentRecord _ _ _ _ _)
    (distinct_segmentRecord _ _ _ _ _) h
  rw [sorted_segmentRecord, sorted_segmentRecord] at hj
  simp only [segmentRecord, Json.obj.injEq, List.cons.injEq, Prod.mk.injEq, Json.str.injEq,
    Json.int.injEq, true_and, and_true] at hj
  obtain ⟨hcontent, hschema, hcount, hindex, hsource⟩ := hj
  exact ⟨hschema, hsource, hindex, hcount, hcontent⟩

end BetterHindsight
