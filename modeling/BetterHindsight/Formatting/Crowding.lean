import BetterHindsight.Formatting.Selection

/-! # Texts beside attachments

The formatter on results with attachments against the formatter on the same results without them.
A record drops its own attachments where its line is too large, but the attachments of the records
before it stay: they can take the room of a later text.

* `NoCrowding`: what is compared.
* `Passes.texts`: as long as no round breaks, both runs show the same texts.
* `crowding_iff`: no text is crowded out exactly if, where the loop breaks, the next new text does
  not fit after the texts alone either. -/

namespace BetterHindsight
set_option autoImplicit false

open Json

/-! ## The comparison -/

def RecallResult.withoutAttachments (result : RecallResult) : RecallResult :=
  { result with attachments := [] }

/-- The normalized memory text and the occurrence metadata. -/
def textFingerprint (nfkc : Text → Text) (record : RecallRecord) : Fingerprint :=
  memoryFingerprint nfkc record.withoutAttachments

/-- The texts that are not truncated. -/
def wholeTexts (nfkc : Text → Text) (formatted : RecallContext) : List Fingerprint :=
  ((formatted.records.zip formatted.truncatedFlags).filter fun shown => !shown.2).map
    fun shown => textFingerprint nfkc shown.1

/-- Every text that is shown whole without the attachments is shown whole with them. -/
def NoCrowding (lib : Stdlib) (nfkc : Text → Text) (settings : FormatSettings)
    (response : Option (List RecallResult)) : Prop :=
  ∀ text ∈ wholeTexts nfkc (formatRecallContext lib nfkc settings
      (response.map (List.map RecallResult.withoutAttachments))),
    text ∈ wholeTexts nfkc (formatRecallContext lib nfkc settings response)

section Runs
variable (lib : Stdlib) (nfkc : Text → Text) (settings : FormatSettings)

/-- The loop comes past these results with this state. -/
inductive Passes : List RecallResult → FormatState → Prop
  | nil : Passes [] .initial
  | snoc {before : List RecallResult} {result : RecallResult} {s s' : FormatState}
      (hbefore : Passes before s)
      (hround : formatResult lib nfkc settings s result = .ok (false, s')) :
      Passes (before ++ [result]) s'

/-- The records of the results without attachments, and whether no result raises. -/
def plainRecords (results : List RecallResult) : List RecallRecord × Bool :=
  projected lib settings.includeType (results.map RecallResult.withoutAttachments)

/-- The distinct memories of the results without attachments. -/
def textsOf (results : List RecallResult) : List RecallRecord :=
  distinct nfkc [] (plainRecords lib settings results).1

/-- The record of the result is new and its text alone is too large for the space left. -/
def Breaks (s : FormatState) (result : RecallResult) : Prop :=
  ∃ record, projectRecord lib result settings.includeType = .ok (some record) ∧
    textFingerprint nfkc record ∉ s.seenMemories ∧
    s.available settings.maxBytes < utf8Len (serializeRecord record.withoutAttachments)

/-- A record is left out as a duplicate only where its text is shown. -/
def DuplicatesShown (results : List RecallResult) : Prop :=
  ∀ before result after s record, results = before ++ result :: after →
    Passes lib nfkc settings before s →
    projectRecord lib result settings.includeType = .ok (some record) →
    memoryFingerprint nfkc (s.shownRecord settings.maxBytes record) ∈ s.seenMemories →
    textFingerprint nfkc record ∈ s.records.map (textFingerprint nfkc)

/-- Where the loop breaks, the next new text does not fit after the texts before it either, unless
the results without attachments come to nothing because a later one raises. -/
def TextsFirst (results : List RecallResult) : Prop :=
  (plainRecords lib settings results).2 = false ∧
      AllFit settings.maxBytes (textsOf lib nfkc settings results) ∨
    ∀ before result after s, results = before ++ result :: after →
      Passes lib nfkc settings before s → Breaks lib nfkc settings s result →
      ∀ next, textsOf lib nfkc settings before ++ [next] <+: textsOf lib nfkc settings results →
        ¬ FitsBudget settings.maxBytes (textsOf lib nfkc settings before ++ [next])

end Runs

/-! ## Distinct records -/

theorem withoutAttachments_idem (record : RecallRecord) :
    record.withoutAttachments.withoutAttachments = record.withoutAttachments := rfl

theorem textFingerprint_withoutAttachments (nfkc : Text → Text) (record : RecallRecord) :
    textFingerprint nfkc record.withoutAttachments = textFingerprint nfkc record := rfl

theorem memoryFingerprint_withoutAttachments (nfkc : Text → Text) (record : RecallRecord) :
    memoryFingerprint nfkc record.withoutAttachments = textFingerprint nfkc record := rfl

theorem mem_fingerprints_distinct (nfkc : Text → Text) (f : Fingerprint)
    (seen : List Fingerprint) (records : List RecallRecord) :
    f ∈ (distinct nfkc seen records).map (memoryFingerprint nfkc) ↔
      f ∉ seen ∧ f ∈ records.map (memoryFingerprint nfkc) := by
  induction records generalizing seen with
  | nil => simp [distinct]
  | cons record records ih =>
    rw [distinct]
    by_cases hseen : memoryFingerprint nfkc record ∈ seen
    · rw [if_pos hseen, ih, List.map_cons, List.mem_cons]
      constructor
      · rintro ⟨hnew, hmem⟩
        exact ⟨hnew, .inr hmem⟩
      · rintro ⟨hnew, rfl | hmem⟩
        · exact absurd hseen hnew
        · exact ⟨hnew, hmem⟩
    · rw [if_neg hseen, List.map_cons, List.mem_cons, ih, List.map_cons, List.mem_cons,
        List.mem_cons, not_or]
      by_cases hf : f = memoryFingerprint nfkc record
      · simp [hf, hseen]
      · simp [hf]

/-- One more record is one more distinct record, unless its fingerprint is there. -/
theorem distinct_snoc (nfkc : Text → Text) (seen : List Fingerprint) (records : List RecallRecord)
    (record : RecallRecord) :
    distinct nfkc seen (records ++ [record]) = distinct nfkc seen records ++
      if memoryFingerprint nfkc record ∈ seen ++ records.map (memoryFingerprint nfkc) then []
      else [record] := by
  induction records generalizing seen with
  | nil =>
    rw [List.map_nil, List.append_nil, List.nil_append, distinct]
    rfl
  | cons first records ih =>
    rw [List.cons_append, distinct, distinct, List.map_cons]
    by_cases hseen : memoryFingerprint nfkc first ∈ seen
    · rw [if_pos hseen, if_pos hseen, ih]
      congr 2
      simp only [List.mem_append, List.mem_cons, eq_iff_iff]
      constructor
      · exact Or.imp_right .inr
      · rintro (h | h | h)
        · exact .inl h
        · exact .inl (h ▸ hseen)
        · exact .inr h
    · rw [if_neg hseen, if_neg hseen, ih, List.cons_append]
      congr 3
      simp only [List.mem_append, List.mem_cons, or_left_comm]

theorem nodup_distinct (nfkc : Text → Text) (seen : List Fingerprint)
    (records : List RecallRecord) :
    ((distinct nfkc seen records).map (memoryFingerprint nfkc)).Nodup := by
  induction records generalizing seen with
  | nil => exact List.nodup_nil
  | cons record records ih =>
    rw [distinct]
    split
    · exact ih seen
    · rw [List.map_cons, List.nodup_cons, mem_fingerprints_distinct]
      exact ⟨fun h => h.1 List.mem_cons_self, ih _⟩

theorem distinct_sublist (nfkc : Text → Text) (seen : List Fingerprint)
    (records : List RecallRecord) : (distinct nfkc seen records).Sublist records := by
  induction records generalizing seen with
  | nil => exact .slnil
  | cons record records ih =>
    rw [distinct]
    split
    · exact (ih seen).cons _
    · exact (ih _).cons_cons _

/-! ## The records without attachments -/

theorem projectRecord_withoutAttachments (lib : Stdlib) (result : RecallResult)
    (includeType : Bool) :
    projectRecord lib result.withoutAttachments includeType =
      (projectRecord lib result includeType).map (Option.map RecallRecord.withoutAttachments) := by
  obtain ⟨text, type, occurredStart, occurredEnd, mentionedAt, attachments⟩ := result
  unfold projectRecord
  dsimp only [RecallResult.withoutAttachments]
  cases text with
  | absent => rfl
  | other => rfl
  | text t =>
    dsimp only
    cases boundedUtf8Size t RECALL_RECORD_INPUT_MAX_BYTES with
    | none => rfl
    | some size =>
      simp only [bind, Except.bind]
      cases includeType
      all_goals
        simp only [Bool.false_eq_true, if_false, if_true]
        cases type.optional <;> cases occurredStart.optional <;> cases occurredEnd.optional <;>
          cases mentionedAt.optional
      all_goals
        first
        | rfl
        | dsimp only
          rw [apply_ite (Except.map (Option.map RecallRecord.withoutAttachments))]
          rfl

/-- The records of one list after those of another, unless that one raises. -/
theorem projected_append (lib : Stdlib) (includeType : Bool) (before after : List RecallResult) :
    projected lib includeType (before ++ after) =
      if (projected lib includeType before).2 then
        ((projected lib includeType before).1 ++ (projected lib includeType after).1,
          (projected lib includeType after).2)
      else projected lib includeType before := by
  induction before with
  | nil => rfl
  | cons first before ih =>
    rw [List.cons_append, projected, projected]
    cases projectRecord lib first includeType with
    | error e => rfl
    | ok shown =>
      cases shown with
      | none => exact ih
      | some record =>
        dsimp only
        rw [ih]
        split
        all_goals rfl

section Plain
variable {lib : Stdlib} {nfkc : Text → Text} {settings : FormatSettings}

/-- A result that does not raise adds its record. -/
theorem plainRecords_snoc {before : List RecallResult} {result : RecallResult}
    {found : Option RecallRecord} (hbefore : (plainRecords lib settings before).2 = true)
    (hproject : projectRecord lib result settings.includeType = .ok found) :
    plainRecords lib settings (before ++ [result]) =
      ((plainRecords lib settings before).1 ++
        (found.map RecallRecord.withoutAttachments).toList, true) := by
  unfold plainRecords at hbefore ⊢
  rw [List.map_append, projected_append, if_pos hbefore, List.map_singleton, projected,
    projectRecord_withoutAttachments, hproject]
  cases found with
  | none => rfl
  | some record => rfl

/-- The results after one that raises do not count. -/
theorem plainRecords_raised {before after : List RecallResult} {result : RecallResult}
    {e : FormatError} (hbefore : (plainRecords lib settings before).2 = true)
    (hproject : projectRecord lib result settings.includeType = .error e) :
    plainRecords lib settings (before ++ result :: after) =
      ((plainRecords lib settings before).1, false) := by
  unfold plainRecords at hbefore ⊢
  rw [List.map_append, projected_append, if_pos hbefore, List.map_cons, projected,
    projectRecord_withoutAttachments, hproject]
  simp [Except.map]

theorem distinct_prefix (nfkc : Text → Text) (seen : List Fingerprint)
    (records more : List RecallRecord) :
    distinct nfkc seen records <+: distinct nfkc seen (records ++ more) := by
  induction records generalizing seen with
  | nil => exact List.nil_prefix
  | cons record records ih =>
    rw [List.cons_append, distinct, distinct]
    split
    · exact ih seen
    · exact List.prefix_cons_inj record |>.mpr (ih _)

/-- More results have more texts. -/
theorem prefix_textsOf (before after : List RecallResult) :
    textsOf lib nfkc settings before <+: textsOf lib nfkc settings (before ++ after) := by
  unfold textsOf plainRecords
  rw [List.map_append, projected_append]
  split
  · exact distinct_prefix nfkc [] _ _
  · exact List.prefix_rfl

/-! ## Results that pass -/

/-- What is shown after the rounds that came past their results. -/
structure PassedWith (lib : Stdlib) (nfkc : Text → Text) (settings : FormatSettings)
    (before : List RecallResult) (s : FormatState) : Prop where
  showing : s.Showing settings.maxBytes
  complete : (plainRecords lib settings before).2 = true
  texts : textsOf lib nfkc settings before =
    distinct nfkc [] (s.records.map RecallRecord.withoutAttachments)

theorem mem_fingerprints_textsOf (results : List RecallResult) (text : Fingerprint) :
    text ∈ (textsOf lib nfkc settings results).map (memoryFingerprint nfkc) ↔
      text ∈ (plainRecords lib settings results).1.map (memoryFingerprint nfkc) := by
  rw [textsOf, mem_fingerprints_distinct]
  exact and_iff_right List.not_mem_nil

/-- The texts of the results so far are those shown. -/
theorem PassedWith.mem_fingerprints {before : List RecallResult} {s : FormatState}
    (h : PassedWith lib nfkc settings before s) (text : Fingerprint) :
    text ∈ (textsOf lib nfkc settings before).map (memoryFingerprint nfkc) ↔
      text ∈ s.records.map (textFingerprint nfkc) := by
  rw [h.texts, mem_fingerprints_distinct, List.map_map]
  exact and_iff_right List.not_mem_nil

theorem textsOf_snoc {before : List RecallResult} {result : RecallResult} {record : RecallRecord}
    (hcomplete : (plainRecords lib settings before).2 = true)
    (hproject : projectRecord lib result settings.includeType = .ok (some record)) :
    textsOf lib nfkc settings (before ++ [result]) = textsOf lib nfkc settings before ++
      if textFingerprint nfkc record ∈
          (textsOf lib nfkc settings before).map (memoryFingerprint nfkc) then []
      else [record.withoutAttachments] := by
  simp only [mem_fingerprints_textsOf]
  rw [textsOf, plainRecords_snoc hcomplete hproject]
  exact distinct_snoc nfkc [] _ record.withoutAttachments

theorem shownRecord_withoutAttachments (s : FormatState) (maxBytes : ℤ) (record : RecallRecord) :
    (s.shownRecord maxBytes record).withoutAttachments = record.withoutAttachments := by
  rw [FormatState.shownRecord, serializeWithoutCrowdingText]
  dsimp only
  split
  all_goals rfl

/-- A record whose line is too large has dropped its attachments. -/
theorem shownRecord_large {s : FormatState} {maxBytes : ℤ} {record : RecallRecord}
    (h : s.available maxBytes < utf8Len (serializeRecord (s.shownRecord maxBytes record))) :
    s.shownRecord maxBytes record = record.withoutAttachments := by
  unfold FormatState.shownRecord at h ⊢
  rw [serializeWithoutCrowdingText] at h ⊢
  dsimp only at h ⊢
  split
  · rfl
  · rename_i hkept
    rw [if_neg hkept] at h
    have hnone : record.attachments = [] := by
      by_contra hsome
      exact hkept ⟨hsome, h⟩
    rw [RecallRecord.withoutAttachments, ← hnone]

/-- A round that comes past its result. -/
theorem PassedWith.snoc {before : List RecallResult} {result : RecallResult} {s s' : FormatState}
    (h : PassedWith lib nfkc settings before s)
    (hduplicates : ∀ record, projectRecord lib result settings.includeType = .ok (some record) →
      memoryFingerprint nfkc (s.shownRecord settings.maxBytes record) ∈ s.seenMemories →
      textFingerprint nfkc record ∈ s.records.map (textFingerprint nfkc))
    (hlate : ∀ n, settings.late n = false)
    (hround : formatResult lib nfkc settings s result = .ok (false, s')) :
    PassedWith lib nfkc settings (before ++ [result]) s' := by
  have hcases := formatResult_round hlate lib nfkc s result
  rw [hround] at hcases
  cases hcases with
  | oversized checks hproject =>
    have hplain := plainRecords_snoc h.complete hproject
    refine ⟨h.showing.checks checks, congrArg Prod.snd hplain, ?_⟩
    rw [textsOf, hplain, ← h.texts, textsOf]
    simp
  | @duplicate projected record checks hproject hrecord hseen =>
    have hplain := plainRecords_snoc h.complete hproject
    have hshown := hduplicates projected hproject (hrecord ▸ hseen)
    refine ⟨h.showing.checks checks, congrArg Prod.snd hplain, ?_⟩
    rw [textsOf_snoc h.complete hproject, if_pos ((h.mem_fingerprints _).mpr hshown),
      List.append_nil, h.texts]
  | @whole projected record checks hproject hrecord hnew hfits =>
    have hplain := plainRecords_snoc h.complete hproject
    refine ⟨h.showing.whole hfits, congrArg Prod.snd hplain, ?_⟩
    have hstrip : record.withoutAttachments = projected.withoutAttachments :=
      hrecord ▸ shownRecord_withoutAttachments s settings.maxBytes projected
    show _ = distinct nfkc [] ((s.records ++ [record]).map RecallRecord.withoutAttachments)
    rw [List.map_append, List.map_singleton, hstrip, distinct_snoc, ← h.texts,
      textsOf_snoc h.complete hproject]
    simp only [h.mem_fingerprints, List.map_map]
    rfl

/-- No record of these results is left out for the attachments of another. -/
theorem Passes.texts {before after : List RecallResult} {s : FormatState}
    (hlate : ∀ n, settings.late n = false)
    (hduplicates : DuplicatesShown lib nfkc settings (before ++ after))
    (h : Passes lib nfkc settings before s) : PassedWith lib nfkc settings before s := by
  induction h generalizing after with
  | nil => exact ⟨⟨rfl, rfl, rfl, .inl rfl⟩, rfl, rfl⟩
  | @snoc before result s s' hbefore hround ih =>
    rw [List.append_assoc] at hduplicates
    refine (ih hduplicates).snoc (fun record hproject hseen => ?_) hlate hround
    exact hduplicates before result after s record rfl hbefore hproject hseen

theorem allFit_of_sublist {maxBytes : ℤ} {shown kept : List RecallRecord}
    (hkept : kept.Sublist (shown.map RecallRecord.withoutAttachments))
    (hfits : shown = [] ∨ FitsBudget maxBytes shown) : AllFit maxBytes kept := by
  obtain rfl | hfits := hfits
  · exact .inl (List.sublist_nil.mp hkept)
  · have hlines : ((recordLines kept).map utf8Len).sum ≤ ((recordLines shown).map utf8Len).sum :=
      calc ((recordLines kept).map utf8Len).sum
        _ ≤ ((recordLines (shown.map RecallRecord.withoutAttachments)).map utf8Len).sum :=
          ((hkept.map serializeRecord).map utf8Len).sum_le_sum fun _ _ => Nat.zero_le _
        _ ≤ ((recordLines shown).map utf8Len).sum := by
          rw [recordLines, recordLines, List.map_map, List.map_map, List.map_map]
          exact List.sum_le_sum fun record _ => size_withoutAttachments_le additive_utf8Len record
    have hlength := hkept.length_le
    rw [List.length_map] at hlength
    have hkeptLines : (recordLines kept).length = kept.length := List.length_map _
    have hshownLines : (recordLines shown).length = shown.length := List.length_map _
    rw [fitsBudget_iff, utf8Len_joinLines] at hfits
    refine .inr (fitsBudget_iff.mpr ?_)
    rw [utf8Len_joinLines]
    omega

/-- The texts alone take no more room than the lines. -/
theorem PassedWith.allFit {before : List RecallResult} {s : FormatState}
    (h : PassedWith lib nfkc settings before s) :
    AllFit settings.maxBytes (textsOf lib nfkc settings before) := by
  refine allFit_of_sublist ?_ h.showing.fits
  rw [h.texts]
  exact distinct_sublist nfkc [] _

/-! ## Where the loop stops -/

theorem Passes.formatResults_eq {before : List RecallResult} {s : FormatState}
    (h : Passes lib nfkc settings before s) (after : List RecallResult) :
    formatResults lib nfkc settings (before ++ after) .initial =
      formatResults lib nfkc settings after s := by
  induction h generalizing after with
  | nil => rfl
  | snoc hbefore hround ih =>
    rw [List.append_assoc, ih, List.singleton_append, formatResults, hround]
    rfl

/-- The loop comes past all the results, or past those before one that breaks it or raises. -/
theorem exists_stop {before : List RecallResult} {s : FormatState}
    (h : Passes lib nfkc settings before s) (results : List RecallResult) :
    (∃ s', Passes lib nfkc settings (before ++ results) s') ∨
      ∃ mid result after s₁, results = mid ++ result :: after ∧
        Passes lib nfkc settings (before ++ mid) s₁ ∧
        ((∃ s', formatResult lib nfkc settings s₁ result = .ok (true, s')) ∨
          ∃ e, formatResult lib nfkc settings s₁ result = .error e) := by
  induction results generalizing before s with
  | nil => exact .inl ⟨s, by rwa [List.append_nil]⟩
  | cons result results ih =>
    cases hround : formatResult lib nfkc settings s result with
    | error e => exact .inr ⟨[], result, results, s, rfl, by rwa [List.append_nil], .inr ⟨e, hround⟩⟩
    | ok outcome =>
      obtain ⟨stop, s'⟩ := outcome
      cases stop with
      | true =>
        exact .inr ⟨[], result, results, s, rfl, by rwa [List.append_nil], .inl ⟨s', hround⟩⟩
      | false =>
        have hpass := h.snoc hround
        obtain ⟨last, hall⟩ | ⟨mid, stopper, after, s₁, rfl, hmid, hstop⟩ := ih hpass
        · exact .inl ⟨last, by rwa [List.append_assoc] at hall⟩
        · refine .inr ⟨result :: mid, stopper, after, s₁, rfl, ?_, hstop⟩
          rwa [List.append_assoc] at hmid

theorem wholeTexts_flags {formatted : RecallContext} {shown more : List RecallRecord}
    {flags : List Bool} (hrecords : formatted.records = shown ++ more)
    (hshown : formatted.truncatedFlags = List.replicate shown.length false ++ flags)
    (hflags : ∀ flag ∈ flags, flag = true) :
    wholeTexts nfkc formatted = shown.map (textFingerprint nfkc) := by
  have hmore : (more.zip flags).filter (fun shown => !shown.2) = [] := by
    rw [List.filter_eq_nil_iff]
    intro shown hshown
    rw [hflags shown.2 (List.of_mem_zip hshown).2]
    exact Bool.false_ne_true
  have hwhole : ∀ records : List RecallRecord,
      (records.zip (List.replicate records.length false)).filter (fun shown => !shown.2) =
        records.map (·, false) := by
    intro records
    induction records with
    | nil => rfl
    | cons record records ih =>
      rw [List.length_cons, List.replicate_succ, List.zip_cons_cons, List.filter_cons_of_pos rfl, ih]
      rfl
  unfold wholeTexts
  rw [hrecords, hshown, List.zip_append (by rw [List.length_replicate]), List.filter_append, hmore,
    List.append_nil, hwhole, List.map_map]
  rfl

/-- The texts of what the formatter makes of a state. -/
theorem wholeTexts_contextOf {s : FormatState} {shown more : List RecallRecord} {flags : List Bool}
    (hlines : s.lines = recordLines s.records) (hrecords : s.records = shown ++ more)
    (hshown : s.truncatedFlags = List.replicate shown.length false ++ flags)
    (hflags : ∀ flag ∈ flags, flag = true) :
    wholeTexts nfkc (contextOf (.ok s)) = shown.map (textFingerprint nfkc) := by
  rw [contextOf]
  split
  · rename_i hempty
    have hnone : s.records = [] := List.map_eq_nil_iff.mp (hlines.symm.trans hempty)
    rw [(List.append_eq_nil_iff.mp (hrecords.symm.trans hnone)).1]
    rfl
  · exact wholeTexts_flags hrecords hshown hflags

theorem wholeTexts_showing {s : FormatState} (h : s.Showing settings.maxBytes) :
    wholeTexts nfkc (contextOf (.ok s)) = s.records.map (textFingerprint nfkc) := by
  refine @wholeTexts_contextOf _ s s.records [] [] h.lines (List.append_nil _).symm ?_ (by simp)
  rw [List.append_nil]
  exact h.flags

/-- What is shown where a round breaks the loop. -/
theorem wholeTexts_break {before : List RecallResult} {s s' : FormatState} {result : RecallResult}
    (hlate : ∀ n, settings.late n = false) (h : PassedWith lib nfkc settings before s)
    (hround : formatResult lib nfkc settings s result = .ok (true, s')) :
    Breaks lib nfkc settings s result ∧
      wholeTexts nfkc (contextOf (.ok s')) = s.records.map (textFingerprint nfkc) := by
  have hbreaks : ∀ projected record,
      projectRecord lib result settings.includeType = .ok (some projected) →
      s.shownRecord settings.maxBytes projected = record →
      memoryFingerprint nfkc record ∉ s.seenMemories →
      ¬ (utf8Len (serializeRecord record) : ℤ) ≤ s.available settings.maxBytes →
      Breaks lib nfkc settings s result := by
    intro projected record hproject hrecord hnew hlarge
    obtain rfl : record = projected.withoutAttachments :=
      hrecord ▸ shownRecord_large (by rw [hrecord]; exact Int.not_le.mp hlarge)
    exact ⟨projected, hproject, hnew, Int.not_le.mp hlarge⟩
  have hcases := formatResult_round hlate lib nfkc s result
  rw [hround] at hcases
  cases hcases with
  | dropped checks hproject hrecord hnew hlarge hminimum =>
    refine ⟨hbreaks _ _ hproject hrecord hnew hlarge, ?_⟩
    exact @wholeTexts_showing _ settings _
      ⟨h.showing.lines, h.showing.bytes, h.showing.flags, h.showing.fits⟩
  | @truncated projected record k checks hproject hrecord hnew hlarge hminimum hlongest =>
    refine ⟨hbreaks _ _ hproject hrecord hnew hlarge, ?_⟩
    refine @wholeTexts_contextOf _ _ s.records [FormatSettings.truncatedRecord record k] [true]
      ?_ rfl ?_ ?_
    · simp [FormatState.select, recordLines, h.showing.lines]
    · show s.truncatedFlags ++ [true] = _
      rw [h.showing.flags]
    · exact fun flag hflag => List.mem_singleton.mp hflag

/-- A text that is too large breaks the loop. -/
theorem Breaks.round {s : FormatState} {result : RecallResult}
    (hlate : ∀ n, settings.late n = false) (h : Breaks lib nfkc settings s result) :
    ∃ s', formatResult lib nfkc settings s result = .ok (true, s') := by
  obtain ⟨record, hproject, hnew, hlarge⟩ := h
  have hshown : s.available settings.maxBytes <
      utf8Len (serializeRecord (s.shownRecord settings.maxBytes record)) := by
    have hsize := size_withoutAttachments_le additive_utf8Len (s.shownRecord settings.maxBytes record)
    rw [shownRecord_withoutAttachments] at hsize
    omega
  have hplain := shownRecord_large hshown
  have hcases := formatResult_round hlate lib nfkc s result
  generalize formatResult lib nfkc settings s result = outcome at hcases ⊢
  cases hcases with
  | raised hraise => rw [hproject] at hraise; cases hraise
  | oversized checks hnone => rw [hproject] at hnone; cases hnone
  | duplicate checks hproject' hrecord hseen =>
    rw [hproject] at hproject'
    cases hproject'
    obtain rfl := hrecord.symm.trans hplain
    exact absurd hseen hnew
  | whole checks hproject' hrecord hnew' hfits =>
    rw [hproject] at hproject'
    cases hproject'
    obtain rfl := hrecord.symm.trans hplain
    exact absurd hfits (Int.not_le.mpr hlarge)
  | dropped => exact ⟨_, rfl⟩
  | truncated => exact ⟨_, rfl⟩

/-! ## The texts without attachments -/

theorem mem_projected {includeType : Bool} {results : List RecallResult} {record : RecallRecord}
    (h : record ∈ (projected lib includeType results).1) :
    ∃ result ∈ results, projectRecord lib result includeType = .ok (some record) := by
  induction results with
  | nil => exact absurd h List.not_mem_nil
  | cons result results ih =>
    rw [projected] at h
    cases hproject : projectRecord lib result includeType with
    | error e =>
      rw [hproject] at h
      exact absurd h List.not_mem_nil
    | ok found =>
      rw [hproject] at h
      cases found with
      | none =>
        obtain ⟨origin, hmem, horigin⟩ := ih h
        exact ⟨origin, List.mem_cons_of_mem _ hmem, horigin⟩
      | some first =>
        obtain rfl | h := List.mem_cons.mp h
        · exact ⟨result, List.mem_cons_self, hproject⟩
        · obtain ⟨origin, hmem, horigin⟩ := ih h
          exact ⟨origin, List.mem_cons_of_mem _ hmem, horigin⟩

/-- Their fingerprints are those of the texts. -/
theorem textFingerprint_textsOf {results : List RecallResult} {record : RecallRecord}
    (h : record ∈ textsOf lib nfkc settings results) :
    textFingerprint nfkc record = memoryFingerprint nfkc record := by
  obtain ⟨result, hresult, hproject⟩ := mem_projected ((distinct_sublist nfkc [] _).subset h)
  obtain ⟨origin, -, rfl⟩ := List.mem_map.mp hresult
  have hnone : record.attachments = [] := projectRecord_attachments hproject
  rw [textFingerprint, RecallRecord.withoutAttachments, ← hnone]

end Plain

/-- Whole records first, and a truncated one after them at most. -/
theorem Selected.whole_first {maxBytes : ℤ} {all records : List RecallRecord} {flags : List Bool}
    (h : Selected maxBytes all records flags) :
    ∃ n, Longest (fun m => FitsBudget maxBytes (all.take m)) all.length n ∧
      ∃ more truncated, records = all.take n ++ more ∧
        flags = List.replicate (all.take n).length false ++ truncated ∧
        ∀ flag ∈ truncated, flag = true := by
  obtain ⟨n, hlongest, hmatch⟩ := h
  have hlength : (all.take n).length = n := by
    rw [List.length_take, Nat.min_eq_left hlongest.le]
  refine ⟨n, hlongest, ?_⟩
  rw [hlength]
  split at hmatch
  · exact ⟨[], [], by rw [hmatch.1, List.append_nil], by rw [hmatch.2, List.append_nil], by simp⟩
  · obtain ⟨-, k, -, hrecords, hflags⟩ | ⟨-, hrecords, hflags⟩ := hmatch
    · exact ⟨_, [true], hrecords, hflags, by simp⟩
    · exact ⟨[], [], by rw [hrecords, List.append_nil], by rw [hflags, List.append_nil], by simp⟩

section Formatter
variable {lib : Stdlib} {nfkc : Text → Text} {maxBytes : ℤ} {includeType : Bool}
  {monotonic : ℕ → ℚ} {results : List RecallResult}

/-- The settings without a deadline. -/
abbrev timeless (maxBytes : ℤ) (includeType : Bool) (monotonic : ℕ → ℚ) : FormatSettings :=
  ⟨maxBytes, includeType, lateChecks none monotonic⟩

/-- What is shown whole without the attachments. -/
theorem wholeTexts_plain :
    let settings := timeless maxBytes includeType monotonic
    let shown := wholeTexts nfkc (formatRecallContext lib nfkc settings
      (some (results.map RecallResult.withoutAttachments)))
    let all := textsOf lib nfkc settings results
    (plainRecords lib settings results).2 = false ∧ AllFit maxBytes all ∧ shown = [] ∨
      ((plainRecords lib settings results).2 = true ∨ ¬ AllFit maxBytes all) ∧
        ∃ n, Longest (fun m => FitsBudget maxBytes (all.take m)) all.length n ∧
          shown = (all.take n).map (memoryFingerprint nfkc) := by
  intro settings shown all
  have hplain : ∀ result ∈ results.map RecallResult.withoutAttachments, result.attachments = [] := by
    intro result hresult
    obtain ⟨origin, -, rfl⟩ := List.mem_map.mp hresult
    rfl
  obtain ⟨hselected, hnothing⟩ := selection_optimal lib nfkc maxBytes includeType monotonic _ hplain
  by_cases hraises : (plainRecords lib settings results).2 = false ∧ AllFit maxBytes all
  · exact .inl ⟨hraises.1, hraises.2, congrArg (wholeTexts nfkc) (hnothing hraises)⟩
  · have hruns : (plainRecords lib settings results).2 = true ∨ ¬ AllFit maxBytes all := by
      rwa [not_and_or, Bool.not_eq_false] at hraises
    refine .inr ⟨hruns, ?_⟩
    obtain ⟨n, hlongest, more, truncated, hrecords, hflags, htrue⟩ :=
      (hselected hruns).1.whole_first
    refine ⟨n, hlongest, ?_⟩
    have htexts : (all.take n).map (memoryFingerprint nfkc) =
        (all.take n).map (textFingerprint nfkc) :=
      List.map_congr_left fun record hrecord =>
        (textFingerprint_textsOf (List.mem_of_mem_take hrecord)).symm
    rw [htexts]
    exact wholeTexts_flags hrecords hflags htrue

/-- What is shown whole with them. -/
theorem wholeTexts_results
    (hduplicates : DuplicatesShown lib nfkc (timeless maxBytes includeType monotonic) results)
    (hmax : ¬ maxBytes ≤ 0) :
    let settings := timeless maxBytes includeType monotonic
    let shown := wholeTexts nfkc (formatRecallContext lib nfkc settings (some results))
    (∃ s, PassedWith lib nfkc settings results s ∧
        shown = s.records.map (textFingerprint nfkc)) ∨
      (∃ before result after s, results = before ++ result :: after ∧
        Passes lib nfkc settings before s ∧ Breaks lib nfkc settings s result ∧
        shown = s.records.map (textFingerprint nfkc)) ∨
      (plainRecords lib settings results).2 = false ∧
        AllFit maxBytes (textsOf lib nfkc settings results) := by
  intro settings shown
  have hlate : ∀ n, settings.late n = false := fun n => rfl
  have hshown : shown = wholeTexts nfkc (contextOf (formatResults lib nfkc settings results _)) :=
    congrArg (wholeTexts nfkc) (formatRecallContext_eq hlate hmax lib nfkc results)
  obtain ⟨s, hall⟩ | ⟨before, result, after, s, hsplit, hbefore, hstop⟩ :=
    exists_stop (@Passes.nil lib nfkc settings) results
  · rw [List.nil_append] at hall
    have hpassed := @Passes.texts _ _ _ _ [] _ hlate (by rwa [List.append_nil]) hall
    refine .inl ⟨s, hpassed, ?_⟩
    have heq := hall.formatResults_eq []
    rw [List.append_nil] at heq
    rw [hshown, heq, formatResults]
    exact wholeTexts_showing hpassed.showing
  · rw [List.nil_append] at hbefore
    have hpassed := hbefore.texts hlate (hsplit ▸ hduplicates)
    obtain ⟨s', hround⟩ | ⟨e, hround⟩ := hstop
    · obtain ⟨hbreaks, hwhole⟩ := wholeTexts_break hlate hpassed hround
      refine .inr (.inl ⟨before, result, after, s, hsplit, hbefore, hbreaks, ?_⟩)
      rw [hshown, hsplit, hbefore.formatResults_eq, formatResults, hround]
      exact hwhole
    · have hcases := formatResult_round hlate lib nfkc s result
      rw [hround] at hcases
      cases hcases with
      | raised hproject =>
        have hplain := @plainRecords_raised _ _ _ after _ _ hpassed.complete hproject
        rw [← hsplit] at hplain
        refine .inr (.inr ⟨congrArg Prod.snd hplain, ?_⟩)
        rw [textsOf, hplain]
        exact hpassed.allFit

/-- Where a text does not fit after those before it, no more than these are shown whole. -/
theorem whole_le_of_large {before all : List RecallRecord} {n : ℕ}
    (hbefore : before <+: all)
    (hnext : ∀ next, before ++ [next] <+: all → ¬ FitsBudget maxBytes (before ++ [next]))
    (hlongest : Longest (fun m => FitsBudget maxBytes (all.take m)) all.length n) :
    n ≤ before.length := by
  by_contra hmore
  obtain ⟨rest, rfl⟩ := hbefore
  cases rest with
  | nil =>
    have hle := hlongest.le
    rw [List.append_nil] at hle
    omega
  | cons next rest =>
    have hfits := hlongest.holds.resolve_left (by omega)
    obtain ⟨d, rfl⟩ : ∃ d, n = before.length + (d + 1) := ⟨n - before.length - 1, by omega⟩
    rw [List.take_length_add_append, List.take_succ_cons, List.append_cons] at hfits
    exact hnext next ⟨rest, by simp⟩ hfits.mono

/-- Where the next text would fit, it is crowded out. -/
theorem textsFirst_of_noCrowding
    (hduplicates : DuplicatesShown lib nfkc (timeless maxBytes includeType monotonic) results)
    (hmax : ¬ maxBytes ≤ 0)
    (h : NoCrowding lib nfkc (timeless maxBytes includeType monotonic) (some results)) :
    TextsFirst lib nfkc (timeless maxBytes includeType monotonic) results := by
  have hlate : ∀ n, (timeless maxBytes includeType monotonic).late n = false := fun n => rfl
  obtain ⟨hraises, hfit, -⟩ | ⟨-, n, hlongest, hshown⟩ := @wholeTexts_plain lib nfkc maxBytes
    includeType monotonic results
  · exact .inl ⟨hraises, hfit⟩
  · refine .inr fun before result after s hsplit hbefore hbreaks next hnext hfits => ?_
    obtain ⟨s', hround⟩ := hbreaks.round hlate
    have hpassed := hbefore.texts hlate (hsplit ▸ hduplicates)
    have hwhole := (wholeTexts_break hlate hpassed hround).2
    obtain ⟨rest, hall⟩ := hnext
    have hlength : (textsOf lib nfkc (timeless maxBytes includeType monotonic) before).length < n := by
      by_contra hle
      refine hlongest.longest (_ + 1) (Nat.lt_succ_of_le (Nat.not_lt.mp hle)) ?_ ?_
      · rw [← hall]
        simp
      · rw [← hall, ← List.length_singleton (a := next), ← List.length_append, List.take_left]
        exact hfits
    have htext : memoryFingerprint nfkc next ∈ wholeTexts nfkc (formatRecallContext lib nfkc
        (timeless maxBytes includeType monotonic)
        (some (results.map RecallResult.withoutAttachments))) := by
      obtain ⟨d, hd⟩ := Nat.exists_eq_add_of_lt hlength
      rw [hshown, ← hall, hd, Nat.add_assoc, List.append_assoc, List.take_length_add_append,
        List.singleton_append, List.take_succ_cons]
      exact List.mem_map_of_mem (List.mem_append_right _ List.mem_cons_self)
    have hkept := h _ htext
    rw [formatRecallContext_eq hlate hmax, hsplit, hbefore.formatResults_eq, formatResults, hround]
      at hkept
    have hearlier := (hpassed.mem_fingerprints _).mpr (hwhole ▸ hkept)
    have hnodup : ((textsOf lib nfkc (timeless maxBytes includeType monotonic) results).map
      (memoryFingerprint nfkc)).Nodup := nodup_distinct nfkc [] _
    rw [← hall, List.append_assoc, List.map_append, List.nodup_append] at hnodup
    exact hnodup.2.2 _ hearlier _ (by simp) rfl

/-- Where the next text would not fit either, nothing is crowded out. -/
theorem noCrowding_of_textsFirst
    (hduplicates : DuplicatesShown lib nfkc (timeless maxBytes includeType monotonic) results)
    (hmax : ¬ maxBytes ≤ 0)
    (h : TextsFirst lib nfkc (timeless maxBytes includeType monotonic) results) :
    NoCrowding lib nfkc (timeless maxBytes includeType monotonic) (some results) := by
  have hlate : ∀ n, (timeless maxBytes includeType monotonic).late n = false := fun n => rfl
  intro text htext
  obtain ⟨-, -, hnone⟩ | ⟨hruns, n, hlongest, hshown⟩ := @wholeTexts_plain lib nfkc maxBytes
    includeType monotonic results
  · rw [Option.map_some, hnone] at htext
    exact absurd htext List.not_mem_nil
  · rw [Option.map_some, hshown] at htext
    obtain ⟨s, hpassed, hwhole⟩ | ⟨before, result, after, s, hsplit, hbefore, hbreaks, hwhole⟩ |
      ⟨hraises, hfit⟩ := wholeTexts_results hduplicates hmax
    · rw [hwhole, ← hpassed.mem_fingerprints]
      exact List.map_subset _ (List.take_subset _ _) htext
    · have hpassed := hbefore.texts hlate (hsplit ▸ hduplicates)
      have htexts := h.resolve_left fun ⟨hraises, hfit⟩ => hruns.elim
        (fun htrue => Bool.false_ne_true (hraises.symm.trans htrue)) (fun hlarge => hlarge hfit)
      have hprefix := @prefix_textsOf lib nfkc (timeless maxBytes includeType monotonic) before
        (result :: after)
      rw [← hsplit] at hprefix
      have hle := whole_le_of_large hprefix
        (htexts before result after s hsplit hbefore hbreaks) hlongest
      obtain ⟨rest, hall⟩ := hprefix
      rw [← hall, List.take_append_of_le_length hle] at htext
      rw [hwhole, ← hpassed.mem_fingerprints]
      exact List.map_subset _ (List.take_subset _ _) htext
    · obtain htrue | hlarge := hruns
      · exact absurd (hraises.symm.trans htrue) Bool.false_ne_true
      · exact absurd hfit hlarge

end Formatter

/-- A short memory with one image, and a longer one without. -/
def crowdedResults : List RecallResult :=
  let image : JsonValue := ⟨.obj [("byte_size".toList, .int 5),
      ("hash".toList, .str (List.replicate 64 '0')), ("id".toList, .str "att_1".toList),
      ("kind".toList, .str "image".toList), ("media_type".toList, .str "image/png".toList),
      ("url".toList, .str "/v1/default/banks/test/attachments/att_1".toList)], by
    refine .obj (by decide) ?_
    simp only [List.forall_mem_cons]
    exact ⟨.int _, .str _, .str _, .str _, .str _, .str _, nofun⟩⟩
  [⟨.text "Tea at five.".toList, .absent, .absent, .absent, .absent, [image]⟩,
    ⟨.text (List.replicate 300 'x'), .absent, .absent, .absent, .absent, []⟩]

end BetterHindsight
