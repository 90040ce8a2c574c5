import BetterHindsight.Outbox.Admission

/-! # What admission does

The exact outcome of `admit`: which sequences of segments are a turn, and what one admission does
with a turn.

* `ValidSegment`, `IsTurnOf`: a valid segment, and the turn that a sequence of segments spells.
* `AdmissionOutcome`: the outcomes of one admission that meets no storage error, told apart by the
  stored rows.
* `admit_exact`: `admit` refuses what spells no turn and otherwise has the one outcome that the
  stored rows call for, or fails in the storage and changes nothing. -/

namespace BetterHindsight
set_option autoImplicit false

namespace SQLiteOutbox

/-! ## Valid segments -/

structure ValidSegment (lib : Stdlib) (outbox : SQLiteOutbox) (segment : RetainedSegment) :
    Prop where
  schema : segment.payloadSchema = PAYLOAD_SCHEMA_VERSION ∨
    segment.payloadSchema = MULTIMODAL_PAYLOAD_SCHEMA
  multimodal : segment.payloadSchema = MULTIMODAL_PAYLOAD_SCHEMA →
    outbox.validMultimodal lib segment = true
  sourceHex : isHex 64 segment.sourceSha256 = true
  index_nonneg : 0 ≤ segment.segmentIndex
  index_lt : segment.segmentIndex < segment.segmentCount
  content_ne : segment.content ≠ []
  content_le : (utf8Len segment.content : ℤ) ≤ outbox.contentLimit segment
  payloadHash : segment.payloadHash = deriveSegmentPayloadHash lib segment.payloadSchema
    segment.sourceSha256 segment.segmentIndex segment.segmentCount segment.content
  documentId : segment.documentId = segment.payloadSchema ++ ':' :: segment.payloadHash

theorem validSegment_iff {lib : Stdlib} {outbox : SQLiteOutbox} {segment : RetainedSegment} :
    outbox.validSegment lib segment = true ↔ outbox.ValidSegment lib segment := by
  simp only [validSegment, Bool.and_eq_true, Bool.or_eq_true, decide_eq_true_eq, beq_iff_eq,
    bne_iff_ne, List.contains_eq_mem, List.mem_cons, List.not_mem_nil, or_false, ne_eq]
  constructor
  · rintro ⟨⟨⟨⟨⟨⟨⟨⟨hschema, hmm⟩, hhash⟩, hsource⟩, h0, -, hlt⟩, hne⟩, hle⟩, hpayload⟩, hid⟩
    exact ⟨hschema, fun h => hmm.resolve_left (by simp [h]), hsource, h0, hlt, hne, hle, hpayload,
      by rw [hid, hpayload]⟩
  · intro h
    have hmm : ¬ segment.payloadSchema = MULTIMODAL_PAYLOAD_SCHEMA ∨
        outbox.validMultimodal lib segment = true := by
      by_cases hs : segment.payloadSchema = MULTIMODAL_PAYLOAD_SCHEMA
      · exact .inr (h.multimodal hs)
      · exact .inl hs
    have hhash : isHex 64 segment.payloadHash = true := by
      rw [h.payloadHash]
      exact HexDigest.isHex _
    have h0 := h.index_nonneg
    have hlt := h.index_lt
    exact ⟨⟨⟨⟨⟨⟨⟨⟨h.schema, hmm⟩, hhash⟩, h.sourceHex⟩, h0, by omega, hlt⟩, h.content_ne⟩,
      h.content_le⟩, h.payloadHash⟩, by rw [h.documentId, h.payloadHash]⟩

/-! ## Turns -/

/-- `segments` are, up to identical repeats and order, the complete turn `turn`. -/
structure IsTurnOf (lib : Stdlib) (outbox : SQLiteOutbox) (segments turn : List RetainedSegment) :
    Prop where
  mem_iff : ∀ segment, segment ∈ turn ↔ segment ∈ segments
  ne_nil : turn ≠ []
  documentIds : (turn.map fun segment => segment.documentId).Nodup
  valid : ∀ segment ∈ turn, outbox.ValidSegment lib segment
  indices : turn.map (fun segment => segment.segmentIndex) = (List.range turn.length).map Int.ofNat
  counts : ∀ segment ∈ turn, segment.segmentCount = turn.length
  schemas : ∀ a ∈ turn, ∀ b ∈ turn, a.payloadSchema = b.payloadSchema
  source : ∀ segment ∈ turn, segment.sourceSha256 = (lib.sha256Text (joinedContent turn)).text

theorem eq_of_immutableValues {outbox : SQLiteOutbox} {a b : RetainedSegment}
    (hid : a.documentId = b.documentId) (h : segmentImmutableValues a (outbox.fingerprint a) =
      segmentImmutableValues b (outbox.fingerprint b)) : a = b := by
  cases a
  cases b
  simp only [segmentImmutableValues, ImmutableValues.mk.injEq] at h hid ⊢
  simp only [RetainedSegment.mk.injEq]
  exact ⟨hid, h.1, h.2.1, h.2.2.1, h.2.2.2.1, h.2.2.2.2.1, h.2.2.2.2.2.1⟩

/-- Every entry stands under its segment's document id. -/
def Keyed (unique : Dict Text RetainedSegment) : Prop :=
  ∀ documentId segment, unique.get? documentId = some segment → segment.documentId = documentId

theorem Keyed.set {unique : Dict Text RetainedSegment} (h : Keyed unique)
    (segment : RetainedSegment) : Keyed (unique.set segment.documentId segment) := by
  intro documentId s hs
  rw [Dict.get?_set] at hs
  split at hs
  · rename_i hid
    cases hs
    exact hid.symm
  · exact h _ _ hs

theorem Keyed.documentIds {unique : Dict Text RetainedSegment} (h : Keyed unique) :
    (unique.values.map fun segment => segment.documentId).Nodup := by
  have hmap : unique.values.map (fun segment => segment.documentId) =
      unique.entries.map Prod.fst := by
    rw [Dict.values, List.map_map]
    apply List.map_congr_left
    rintro ⟨documentId, segment⟩ he
    exact h _ _ (Dict.mem_entries.mp he)
  rw [hmap]
  exact unique.nodup

/-- What the validation loop collects. -/
theorem collectUnique_eq_some {lib : Stdlib} {outbox : SQLiteOutbox}
    {segments : List RetainedSegment} {unique unique' : Dict Text RetainedSegment} {n n' : ℕ}
    (hkeyed : Keyed unique) (h : outbox.collectUnique lib segments unique n = some (unique', n')) :
    Keyed unique' ∧ (∀ s ∈ segments, outbox.ValidSegment lib s) ∧
      (∀ s, s ∈ unique'.values ↔ s ∈ unique.values ∨ s ∈ segments) ∧
      unique'.values.length + n' = unique.values.length + n + segments.length := by
  induction segments generalizing unique n with
  | nil =>
    cases h
    exact ⟨hkeyed, by simp, by simp, by simp⟩
  | cons segment segments ih =>
    rw [collectUnique] at h
    split at h
    · rename_i hvalid
      have hvalid' := validSegment_iff.mp hvalid
      cases hget : unique.get? segment.documentId with
      | none =>
        simp only [hget] at h
        obtain ⟨hk, hv, hmem, hlen⟩ := ih (hkeyed.set segment) h
        rw [Dict.values_set hget] at hlen hmem
        refine ⟨hk, ?_, ?_, ?_⟩
        · rintro s hs
          rcases List.mem_cons.mp hs with rfl | hs
          · exact hvalid'
          · exact hv s hs
        · intro s
          rw [hmem, List.mem_append, List.mem_singleton, List.mem_cons, or_assoc]
        · simp only [List.length_append, List.length_cons, List.length_nil] at hlen ⊢
          omega
      | some prior =>
        simp only [hget] at h
        split at h
        · rename_i himm
          have hprior : prior = segment := eq_of_immutableValues (hkeyed _ _ hget) himm
          have hin : segment ∈ unique.values :=
            Dict.mem_values.mpr ⟨segment.documentId, by rw [hget, hprior]⟩
          obtain ⟨hk, hv, hmem, hlen⟩ := ih hkeyed h
          refine ⟨hk, ?_, ?_, ?_⟩
          · rintro s hs
            rcases List.mem_cons.mp hs with rfl | hs
            · exact hvalid'
            · exact hv s hs
          · intro s
            rw [hmem, List.mem_cons]
            constructor
            · rintro (h | h)
              · exact .inl h
              · exact .inr (.inr h)
            · rintro (h | rfl | h)
              · exact .inl h
              · exact .inl hin
              · exact .inr h
          · simp only [List.length_cons]
            omega
        · cases h
    · cases h

/-- The loop collects valid segments whose document ids agree with one another. -/
theorem collectUnique_isSome {lib : Stdlib} {outbox : SQLiteOutbox}
    {segments : List RetainedSegment} {unique : Dict Text RetainedSegment} {n : ℕ}
    (hvalid : ∀ s ∈ segments, outbox.ValidSegment lib s)
    (hagree : ∀ s s', (s ∈ unique.values ∨ s ∈ segments) → s' ∈ segments →
      s.documentId = s'.documentId → s = s') (hkeyed : Keyed unique) :
    ∃ unique' n', outbox.collectUnique lib segments unique n = some (unique', n') := by
  induction segments generalizing unique n with
  | nil => exact ⟨unique, n, rfl⟩
  | cons segment segments ih =>
    rw [collectUnique, if_pos (validSegment_iff.mpr (hvalid segment List.mem_cons_self))]
    have hvalid' := fun s hs => hvalid s (List.mem_cons_of_mem _ hs)
    cases hget : unique.get? segment.documentId with
    | none =>
      refine ih hvalid' ?_ (hkeyed.set segment)
      rintro s s' hs hs' hid
      refine hagree s s' ?_ (List.mem_cons_of_mem _ hs') hid
      rw [Dict.values_set hget, List.mem_append, List.mem_singleton] at hs
      rcases hs with (hs | rfl) | hs
      · exact .inl hs
      · exact .inr List.mem_cons_self
      · exact .inr (List.mem_cons_of_mem _ hs)
    | some prior =>
      have hprior : prior = segment := hagree prior segment
        (.inl (Dict.mem_values.mpr ⟨_, hget⟩)) List.mem_cons_self (hkeyed _ _ hget)
      subst hprior
      simp only [if_true]
      refine ih hvalid' ?_ hkeyed
      rintro s s' hs hs' hid
      refine hagree s s' ?_ (List.mem_cons_of_mem _ hs') hid
      rcases hs with hs | hs
      · exact .inl hs
      · exact .inr (List.mem_cons_of_mem _ hs)

/-! ## The candidates -/

theorem sortByIndex_perm (segments : List RetainedSegment) :
    (sortByIndex segments).Perm segments := List.perm_insertionSort _ segments

theorem sortByIndex_sorted (segments : List RetainedSegment) :
    (sortByIndex segments).Pairwise fun a b => a.segmentIndex ≤ b.segmentIndex := by
  have : Std.Total fun a b : RetainedSegment => a.segmentIndex ≤ b.segmentIndex :=
    ⟨fun a b => le_total a.segmentIndex b.segmentIndex⟩
  have : IsTrans RetainedSegment fun a b => a.segmentIndex ≤ b.segmentIndex :=
    ⟨fun _ _ _ => le_trans⟩
  exact List.pairwise_insertionSort _ segments

theorem indices_sorted {turn : List RetainedSegment} {n : ℕ}
    (h : turn.map (fun segment => segment.segmentIndex) = (List.range n).map Int.ofNat) :
    turn.Pairwise fun a b => a.segmentIndex < b.segmentIndex := by
  have hr : ((List.range n).map Int.ofNat).Pairwise (· < ·) :=
    List.pairwise_map.mpr (List.pairwise_lt_range.imp fun hab => by simpa using hab)
  rw [← h] at hr
  exact List.pairwise_map.mp hr

/-- The only way to sort the segments of a turn. -/
theorem sortByIndex_eq {segments turn : List RetainedSegment} (hperm : segments.Perm turn) {n : ℕ}
    (h : turn.map (fun segment => segment.segmentIndex) = (List.range n).map Int.ofNat) :
    sortByIndex segments = turn := by
  have hlt := indices_sorted h
  have hle : turn.Pairwise fun a b => a.segmentIndex ≤ b.segmentIndex := hlt.imp le_of_lt
  have hinj : ∀ a ∈ turn, ∀ b ∈ turn, a.segmentIndex = b.segmentIndex → a = b := by
    have hnodup : (turn.map fun segment => segment.segmentIndex).Nodup :=
      List.pairwise_map.mpr (hlt.imp fun h => ne_of_lt h)
    exact fun a ha b hb => List.inj_on_of_nodup_map hnodup ha hb
  refine ((sortByIndex_perm segments).trans hperm).eq_of_pairwise ?_ (sortByIndex_sorted segments)
    hle
  intro a b ha hb hab hba
  exact hinj a (((sortByIndex_perm segments).trans hperm).mem_iff.mp ha) b hb (le_antisymm hab hba)

theorem isCompleteTurn_iff {lib : Stdlib} {turn : List RetainedSegment} :
    isCompleteTurn lib turn = true ↔ turn ≠ [] ∧
      turn.map (fun segment => segment.segmentIndex) = (List.range turn.length).map Int.ofNat ∧
      (∀ segment ∈ turn, segment.segmentCount = turn.length) ∧
      (∀ a ∈ turn, ∀ b ∈ turn, a.payloadSchema = b.payloadSchema) ∧
      ∀ segment ∈ turn, segment.sourceSha256 = (lib.sha256Text (joinedContent turn)).text := by
  cases turn with
  | nil => simp [isCompleteTurn]
  | cons first rest =>
    simp only [isCompleteTurn, Bool.and_eq_true, decide_eq_true_eq, beq_iff_eq, List.all_eq_true,
      ne_eq, reduceCtorEq, not_false_eq_true, true_and]
    constructor
    · rintro ⟨⟨⟨hlen, hidx⟩, hsame⟩, hsource⟩
      have hn : first.segmentCount.toNat = (first :: rest).length := by omega
      rw [hn] at hidx
      refine ⟨hidx, ?_, ?_, ?_⟩
      · intro s hs
        rw [(hsame s hs).2, hlen]
      · intro a ha b hb
        rw [(hsame a ha).1.1, (hsame b hb).1.1]
      · intro s hs
        rw [(hsame s hs).1.2, hsource]
    · rintro ⟨hidx, hcount, hschema, hsource⟩
      have hlen := hcount first List.mem_cons_self
      refine ⟨⟨⟨hlen.symm, ?_⟩, ?_⟩, ?_⟩
      · rw [hlen, Int.toNat_natCast]
        exact hidx
      · intro s hs
        refine ⟨⟨hschema s hs first List.mem_cons_self, ?_⟩, ?_⟩
        · rw [hsource s hs, hsource first List.mem_cons_self]
        · rw [hcount s hs, hlen]
      · exact (hsource first List.mem_cons_self).symm

/-- The validation accepts exactly the sequences that spell a turn, and finds that turn. -/
theorem validateCandidates_eq_some {lib : Stdlib} {outbox : SQLiteOutbox}
    {segments turn : List RetainedSegment} {repeated : ℕ} :
    outbox.validateCandidates lib segments = some (turn, repeated) ↔
      outbox.IsTurnOf lib segments turn ∧ turn.length + repeated = segments.length := by
  have hempty : Keyed .empty := by
    intro documentId segment h
    simp at h
  have hvalues : (Dict.empty : Dict Text RetainedSegment).values = [] := rfl
  constructor
  · intro h
    unfold validateCandidates at h
    split at h
    · cases h
    · split at h
      · cases h
      · rename_i unique n hcollect
        simp only at h
        split at h
        · rename_i hturn
          obtain ⟨hk, hv, hmem, hlen⟩ := collectUnique_eq_some hempty hcollect
          cases h
          obtain ⟨hne, hidx, hcounts, hschemas, hsource⟩ := isCompleteTurn_iff.mp hturn
          have hperm := sortByIndex_perm unique.values
          have hmem' : ∀ s, s ∈ sortByIndex unique.values ↔ s ∈ segments := fun s => by
            rw [hperm.mem_iff, hmem, hvalues]
            simp
          refine ⟨⟨hmem', hne, ?_, fun s hs => hv s ((hmem' s).mp hs), hidx, hcounts, hschemas,
            hsource⟩, ?_⟩
          · exact (hperm.map _).nodup_iff.mpr hk.documentIds
          · rw [hperm.length_eq, hlen, hvalues]
            simp
        · cases h
  · rintro ⟨h, hlen⟩
    have hvalid : ∀ s ∈ segments, outbox.ValidSegment lib s := fun s hs =>
      h.valid s ((h.mem_iff s).mpr hs)
    obtain ⟨unique, n, hcollect⟩ := collectUnique_isSome (n := 0) hvalid (by
      rintro s s' (hs | hs) hs' hid
      · rw [hvalues] at hs
        simp at hs
      · exact List.inj_on_of_nodup_map h.documentIds ((h.mem_iff s).mpr hs)
          ((h.mem_iff s').mpr hs') hid) hempty
    obtain ⟨hk, -, hmem, hcount⟩ := collectUnique_eq_some hempty hcollect
    have hperm : unique.values.Perm turn := by
      rw [List.perm_ext_iff_of_nodup hk.documentIds.of_map h.documentIds.of_map]
      intro s
      rw [hmem, hvalues, h.mem_iff]
      simp
    have hsort := sortByIndex_eq hperm h.indices
    have hne : segments ≠ [] := by
      rintro rfl
      exact h.ne_nil (List.eq_nil_iff_forall_not_mem.mpr fun s hs => by
        simpa using (h.mem_iff s).mp hs)
    have hturn := isCompleteTurn_iff.mpr ⟨h.ne_nil, h.indices, h.counts, h.schemas, h.source⟩
    have hn : n = repeated := by
      rw [hperm.length_eq, hvalues] at hcount
      simp only [List.length_nil] at hcount
      omega
    simp only [validateCandidates, hne, if_false, hcollect, hsort, hturn, if_true, hn]

theorem validateCandidates_eq_none {lib : Stdlib} {outbox : SQLiteOutbox}
    {segments : List RetainedSegment} :
    outbox.validateCandidates lib segments = none ↔ ¬ ∃ turn, outbox.IsTurnOf lib segments turn := by
  constructor
  · rintro h ⟨turn, hturn⟩
    have hle : turn.length ≤ segments.length := by
      have hnodup : turn.Nodup := hturn.documentIds.of_map
      exact (List.subperm_of_subset hnodup fun s hs => (hturn.mem_iff s).mp hs).length_le
    have hsome := validateCandidates_eq_some.mpr (⟨hturn, Nat.add_sub_cancel' hle⟩ :
      outbox.IsTurnOf lib segments turn ∧ turn.length + (segments.length - turn.length) = _)
    rw [h] at hsome
    cases hsome
  · intro h
    cases hv : outbox.validateCandidates lib segments with
    | none => rfl
    | some r => exact absurd ⟨r.1, (validateCandidates_eq_some.mp hv).1⟩ h

/-! ## The transaction -/

/-- A stored row of the segment's document id holds other immutable values. -/
def Clashes (outbox : SQLiteOutbox) (t : OutboxTable) (segment : RetainedSegment) : Prop :=
  ∃ row ∈ t.rows, row.documentId = segment.documentId ∧
    row.immutableValues ≠ segmentImmutableValues segment (outbox.fingerprint segment)

/-- The segments of a turn that no row is stored for. -/
def absent (t : OutboxTable) (turn : List RetainedSegment) : List RetainedSegment :=
  turn.filter fun segment => (t.find? segment.documentId).isNone

theorem mem_absent {t : OutboxTable} {turn : List RetainedSegment} {segment : RetainedSegment} :
    segment ∈ absent t turn ↔
      segment ∈ turn ∧ ∀ row ∈ t.rows, row.documentId ≠ segment.documentId := by
  rw [absent, List.mem_filter, Option.isNone_iff_eq_none, OutboxTable.find?_eq_none]

/-- Adding only the absent segments of the turn would exceed one of the caps. -/
def Exceeds (outbox : SQLiteOutbox) (t : OutboxTable) (turn : List RetainedSegment) : Prop :=
  ((t.rows.length + (absent t turn).length : ℕ) : ℤ) > outbox.maxPendingRows ∨
    (((t.rows.map fun row => row.accountedBytes).sum +
      ((absent t turn).map segmentBytes).sum : ℕ) : ℤ) > outbox.maxPendingBytes

/-- The outcome of admitting `turn`, spelled by `passed` segments, that no storage error stops. -/
inductive AdmissionOutcome (outbox : SQLiteOutbox) (turn : List RetainedSegment) (passed : ℕ)
    (timestamp : WallTime) (t : OutboxTable) : AdmissionResult → OutboxTable → Prop
  | conflict (clash : ∃ segment ∈ turn, outbox.Clashes t segment) :
      AdmissionOutcome outbox turn passed timestamp t (.of .conflict) t
  | duplicate (clear : ¬ ∃ segment ∈ turn, outbox.Clashes t segment)
      (stored : ∀ segment ∈ turn, ∃ row ∈ t.rows, row.documentId = segment.documentId) :
      AdmissionOutcome outbox turn passed timestamp t ⟨.duplicate, 0, passed⟩ t
  | capacityExceeded (clear : ¬ ∃ segment ∈ turn, outbox.Clashes t segment)
      (new : ∃ segment ∈ turn, ∀ row ∈ t.rows, row.documentId ≠ segment.documentId)
      (exceeds : outbox.Exceeds t turn) :
      AdmissionOutcome outbox turn passed timestamp t (.of .capacityExceeded) t
  | admitted (clear : ¬ ∃ segment ∈ turn, outbox.Clashes t segment)
      (new : ∃ segment ∈ turn, ∀ row ∈ t.rows, row.documentId ≠ segment.documentId)
      (fits : ¬ outbox.Exceeds t turn) (inserted duplicates : ℕ) (t' : OutboxTable)
      (counts : inserted + duplicates = passed) (inserted_eq : inserted = (absent t turn).length)
      (rows : t'.rows = t.rows ++ (absent t turn).map (outbox.admittedRow timestamp)) :
      AdmissionOutcome outbox turn passed timestamp t ⟨.admitted, inserted, duplicates⟩ t'

theorem lookUp_lawful (outbox : SQLiteOutbox) (segment : RetainedSegment)
    (found : Option (List RetainedSegment × ℕ)) : (outbox.lookUp segment found).Lawful := by
  cases found with
  | none => exact .pure _
  | some r =>
    refine .bind (.query _) fun existing => ?_
    cases existing with
    | none => exact .pure _
    | some row => exact .ite (.pure _) (.pure _)

theorem admitProgram_lawful (outbox : SQLiteOutbox) (candidates : List RetainedSegment)
    (repeatedCount : ℕ) (timestamp : WallTime) :
    (outbox.admitProgram candidates repeatedCount timestamp).Lawful := by
  refine .bind (.forEach outbox.lookUp_lawful _ _) fun found => ?_
  cases found with
  | none => exact .pure _
  | some r =>
    exact .ite (.pure _) (.bind (.query _) fun u =>
      .ite (.pure _) (.bind (.statement _) fun _ => .pure _))

theorem forEach_lookUp_none (outbox : SQLiteOutbox) (turn : List RetainedSegment)
    (t : OutboxTable) :
    (Sql.forEach outbox.lookUp turn none).run t [] = .ok (none, t, []) := by
  induction turn with
  | nil => rfl
  | cons s turn ih => exact ih

/-- What the loop over the candidates finds. -/
theorem forEach_lookUp (outbox : SQLiteOutbox) (turn new : List RetainedSegment) (n : ℕ)
    (t : OutboxTable) :
    ∃ found, (Sql.forEach outbox.lookUp turn (some (new, n))).run t [] = .ok (found, t, []) ∧
      ((found = none ∧ ∃ segment ∈ turn, outbox.Clashes t segment) ∨
        (found = some (new ++ absent t turn, n + (turn.length - (absent t turn).length)) ∧
          ¬ ∃ segment ∈ turn, outbox.Clashes t segment)) := by
  induction turn generalizing new n with
  | nil => exact ⟨_, rfl, .inr ⟨by simp [absent], by simp⟩⟩
  | cons s turn ih =>
    simp only [Sql.forEach, lookUp, Sql.run_bind, Sql.run_query_nil]
    cases hfind : t.find? s.documentId with
    | none =>
      have hnone := OutboxTable.find?_eq_none.mp hfind
      have habs : absent t (s :: turn) = s :: absent t turn := by simp [absent, hfind]
      obtain ⟨found, hrun, hfound⟩ := ih (new ++ [s]) n
      refine ⟨found, hrun, ?_⟩
      rcases hfound with ⟨hf, s', hs', hc⟩ | ⟨hf, hclear⟩
      · exact .inl ⟨hf, s', List.mem_cons_of_mem _ hs', hc⟩
      · refine .inr ⟨by rw [hf, habs]; simp, ?_⟩
        rintro ⟨s', hs', row, hrow, hid, hne⟩
        rcases List.mem_cons.mp hs' with rfl | hs'
        · exact hnone row hrow hid
        · exact hclear ⟨s', hs', row, hrow, hid, hne⟩
    | some existing =>
      obtain ⟨hmem, hid⟩ := OutboxTable.find?_eq_some.mp hfind
      have habs : absent t (s :: turn) = absent t turn := by simp [absent, hfind]
      have hle : (absent t turn).length ≤ turn.length := List.length_filter_le _ _
      simp only
      by_cases himm : existing.immutableValues = segmentImmutableValues s (outbox.fingerprint s)
      · obtain ⟨found, hrun, hfound⟩ := ih new (n + 1)
        refine ⟨found, by simpa [himm] using hrun, ?_⟩
        rcases hfound with ⟨hf, s', hs', hc⟩ | ⟨hf, hclear⟩
        · exact .inl ⟨hf, s', List.mem_cons_of_mem _ hs', hc⟩
        · refine .inr ⟨?_, ?_⟩
          · rw [hf, habs, List.length_cons]
            congr 2
            omega
          · rintro ⟨s', hs', row, hrow, hrid, hne⟩
            rcases List.mem_cons.mp hs' with rfl | hs'
            · rw [OutboxTable.eq_of_documentId hrow hmem (hrid.trans hid.symm)] at hne
              exact hne himm
            · exact hclear ⟨s', hs', row, hrow, hrid, hne⟩
      · refine ⟨none, by simpa [himm] using outbox.forEach_lookUp_none turn t,
          .inl ⟨rfl, s, List.mem_cons_self, existing, hmem, hid, himm⟩⟩

/-- `INSERT` takes rows of new and distinct keys. -/
theorem insertRows_ok {rows : List OutboxRow} {t : OutboxTable}
    (hnew : ∀ row ∈ rows, ∀ r ∈ t.rows, r.documentId ≠ row.documentId)
    (hdistinct : (rows.map fun row => row.documentId).Nodup)
    (hchecked : ∀ row ∈ rows, row.toRowIdentity.Checked) :
    ∃ t', insertRows rows t = .ok t' ∧ t'.rows = t.rows ++ rows := by
  induction rows generalizing t with
  | nil => exact ⟨t, rfl, by simp⟩
  | cons row rows ih =>
    rw [List.map_cons, List.nodup_cons] at hdistinct
    have hins : t.insertRow row ≠ none := by
      rw [OutboxTable.insertRow, dif_pos ⟨hnew row List.mem_cons_self,
        hchecked row List.mem_cons_self⟩]
      simp
    obtain ⟨t1, h1⟩ := Option.ne_none_iff_exists'.mp hins
    have hrows := OutboxTable.insertRow_eq_some h1
    obtain ⟨t', ht', hrows'⟩ := ih (t := t1) (by
      intro r hr x hx
      rw [hrows, List.mem_append, List.mem_singleton] at hx
      rcases hx with hx | rfl
      · exact hnew r (List.mem_cons_of_mem _ hr) x hx
      · intro heq
        exact hdistinct.1 (heq ▸ List.mem_map_of_mem hr)) hdistinct.2
      (fun r hr => hchecked r (List.mem_cons_of_mem _ hr))
    exact ⟨t', by simp only [insertRows, h1, ht'], by rw [hrows', hrows]; simp⟩

/-- The transaction of an admission that meets no storage error. -/
theorem admitTransaction {lib : Stdlib} {outbox : SQLiteOutbox}
    {segments turn : List RetainedSegment} (hturn : outbox.IsTurnOf lib segments turn)
    (repeated : ℕ) (timestamp : WallTime) (t : OutboxTable) :
    ∃ result t', transaction (outbox.admitProgram turn repeated timestamp)
        AdmissionResult.accepted t [] = (.ok result, t') ∧
      outbox.AdmissionOutcome turn (turn.length + repeated) timestamp t result t' := by
  rw [transaction_nil (outbox.admitProgram_lawful _ _ _)]
  simp only [admitProgram, Sql.run_bind]
  obtain ⟨found, hrun, hfound⟩ := outbox.forEach_lookUp turn [] repeated t
  have hle : (absent t turn).length ≤ turn.length := List.length_filter_le _ _
  rw [hrun]
  rcases hfound with ⟨rfl, hclash⟩ | ⟨rfl, hclear⟩
  · exact ⟨_, _, rfl, .conflict hclash⟩
  · simp only [List.nil_append]
    by_cases hnil : absent t turn = []
    · have hstored : ∀ segment ∈ turn, ∃ row ∈ t.rows, row.documentId = segment.documentId := by
        intro s hs
        by_contra hcon
        push Not at hcon
        have := mem_absent.mpr ⟨hs, hcon⟩
        rw [hnil] at this
        simp at this
      refine ⟨_, _, by simp only [hnil, if_true, Sql.run_pure]; rfl, ?_⟩
      have hcount : repeated + (turn.length - 0) = turn.length + repeated := by
        omega
      rw [List.length_nil, hcount]
      exact .duplicate hclear hstored
    · have hnew : ∃ segment ∈ turn, ∀ row ∈ t.rows, row.documentId ≠ segment.documentId := by
        obtain ⟨s, hs⟩ := List.exists_mem_of_ne_nil _ hnil
        exact ⟨s, mem_absent.mp hs⟩
      simp only [hnil, if_false, Sql.run_bind, Sql.run_query_nil, usage]
      by_cases hexc : outbox.Exceeds t turn
      · refine ⟨_, _, by rw [if_pos (by exact hexc)]; rfl, .capacityExceeded hclear hnew hexc⟩
      · have hnewRows : ∀ row ∈ (absent t turn).map (outbox.admittedRow timestamp),
            ∀ r ∈ t.rows, r.documentId ≠ row.documentId := by
          intro row hrow r hr
          obtain ⟨s, hs, rfl⟩ := List.mem_map.mp hrow
          exact (mem_absent.mp hs).2 r hr
        have hdistinct : (((absent t turn).map (outbox.admittedRow timestamp)).map
            fun row => row.documentId).Nodup := by
          rw [List.map_map]
          exact hturn.documentIds.sublist (List.filter_sublist.map _)
        have hchecked : ∀ row ∈ (absent t turn).map (outbox.admittedRow timestamp),
            row.toRowIdentity.Checked := by
          intro row hrow
          obtain ⟨s, hs, rfl⟩ := List.mem_map.mp hrow
          have hv := hturn.valid s (mem_absent.mp hs).1
          have h0 := hv.index_nonneg
          have hlt := hv.index_lt
          exact ⟨h0, by show 0 < s.segmentCount; omega⟩
        obtain ⟨t', hins, hrows⟩ := insertRows_ok hnewRows hdistinct hchecked
        refine ⟨_, t', by
          rw [if_neg (by exact hexc)]
          simp only [Sql.run_bind, Sql.statement, List.head?_nil, Option.join_none, hins]
          rfl, ?_⟩
        exact .admitted hclear hnew hexc _ _ t' (by omega) rfl hrows

/-- **Admission is exact and atomic.** -/
theorem admit_exact (lib : Stdlib) (outbox : SQLiteOutbox) (segments : List RetainedSegment)
    (timestamp : WallTime) (faults : Faults) (t : OutboxTable) :
    ((¬ ∃ turn, outbox.IsTurnOf lib segments turn) →
      outbox.admitSegments lib segments timestamp faults t = (.of .invalid, t)) ∧
    ∀ turn, outbox.IsTurnOf lib segments turn →
      (∃ result t', outbox.admitSegments lib segments timestamp faults t = (result, t') ∧
        outbox.AdmissionOutcome turn segments.length timestamp t result t') ∨
      ((outbox.closed = true ∨ ∃ e, some e ∈ faults) ∧
        (outbox.admitSegments lib segments timestamp faults t = (.of .contended, t) ∨
          outbox.admitSegments lib segments timestamp faults t = (.of .localFailure, t))) := by
  constructor
  · intro h
    rw [admitSegments, validateCandidates_eq_none.mpr h]
  · intro turn hturn
    have hle : turn.length ≤ segments.length := by
      have hnodup : turn.Nodup := hturn.documentIds.of_map
      exact (List.subperm_of_subset hnodup fun s hs => (hturn.mem_iff s).mp hs).length_le
    have hvalid := validateCandidates_eq_some.mpr (⟨hturn, Nat.add_sub_cancel' hle⟩ :
      outbox.IsTurnOf lib segments turn ∧ turn.length + (segments.length - turn.length) = _)
    rw [admitSegments, hvalid]
    simp only
    by_cases hclosed : outbox.closed = true
    · exact .inr ⟨.inl hclosed, .inr (by rw [if_pos hclosed])⟩
    · rw [if_neg hclosed]
      rcases transaction_cases (outbox.admitProgram_lawful turn (segments.length - turn.length)
        timestamp) AdmissionResult.accepted t faults with ⟨e, he, h⟩ | h
      · refine .inr ⟨.inr ⟨e, he⟩, ?_⟩
        rw [h]
        cases e with
        | contention => exact .inl rfl
        | failure => exact .inr rfl
        | guarded => exact .inr rfl
      · obtain ⟨result, t', hrun, hout⟩ := admitTransaction hturn
          (segments.length - turn.length) timestamp t
        rw [Nat.add_sub_cancel' hle] at hout
        exact .inl ⟨result, t', by rw [h, hrun], hout⟩

end SQLiteOutbox

end BetterHindsight
