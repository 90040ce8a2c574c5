import BetterHindsight.Formatting.Sizes

/-! # Which memories are shown

The loop of the formatter against the selection it makes: the longest beginning of the distinct
memories that fits, and after it as much of the next one as fits.

* `Selected`: that selection, said by sizes alone.
* `fitLoop_longest`: the binary search finds the longest text.
* `formatResults_selected`: what the loop over the results adds to its state.
* `selection_optimal`: the formatter without attachments and without a deadline. -/

namespace BetterHindsight
set_option autoImplicit false

open Json

/-! ## The selection -/

/-- The longest of the lengths up to `bound` that satisfy `p`, or zero. -/
structure Longest (p : ℕ → Prop) (bound n : ℕ) : Prop where
  le : n ≤ bound
  holds : n = 0 ∨ p n
  longest : ∀ m, n < m → m ≤ bound → ¬ p m

/-- The envelope of these records is within the budget. -/
def FitsBudget (maxBytes : ℤ) (records : List RecallRecord) : Prop :=
  (utf8Len (render (recordLines records)) : ℤ) ≤ maxBytes

/-- The longest beginning of the records that fits, and of the next one the longest text with the
truncation marker, if even an empty text fits. -/
def Selected (maxBytes : ℤ) (all records : List RecallRecord) (truncatedFlags : List Bool) : Prop :=
  ∃ n, Longest (fun m => FitsBudget maxBytes (all.take m)) all.length n ∧
    match all.drop n with
    | [] => records = all.take n ∧ truncatedFlags = List.replicate n false
    | next :: _ =>
      let withNext k := all.take n ++ [FormatSettings.truncatedRecord next k]
      FitsBudget maxBytes (withNext 0) ∧
          (∃ k, Longest (fun j => FitsBudget maxBytes (withNext j)) next.memory.length k ∧
            records = withNext k ∧ truncatedFlags = List.replicate n false ++ [true]) ∨
        ¬ FitsBudget maxBytes (withNext 0) ∧
          records = all.take n ∧ truncatedFlags = List.replicate n false

/-- The records of the results up to one that raises, without those that are too large, and whether
no result raises. -/
def projected (lib : Stdlib) (includeType : Bool) : List RecallResult → List RecallRecord × Bool
  | [] => ([], true)
  | result :: results =>
    match projectRecord lib result includeType with
    | .error _ => ([], false)
    | .ok none => projected lib includeType results
    | .ok (some record) =>
      let (records, complete) := projected lib includeType results
      (record :: records, complete)

/-- The first record of each fingerprint that was not seen before. -/
def distinct (nfkc : Text → Text) : List Fingerprint → List RecallRecord → List RecallRecord
  | _, [] => []
  | seen, record :: records =>
    if memoryFingerprint nfkc record ∈ seen then distinct nfkc seen records
    else record :: distinct nfkc (memoryFingerprint nfkc record :: seen) records

/-! ## Sizes of envelopes -/

theorem fitsBudget_iff {maxBytes : ℤ} {records : List RecallRecord} :
    FitsBudget maxBytes records ↔
      (FIXED_BYTES + utf8Len (joinLines (recordLines records)) : ℕ) ≤ maxBytes := by
  rw [FitsBudget, utf8Len_render, FIXED_BYTES]

theorem utf8Len_joinLines_le (lines more : List Text) :
    utf8Len (joinLines lines) ≤ utf8Len (joinLines (lines ++ more)) := by
  rw [utf8Len_joinLines, utf8Len_joinLines, List.map_append, List.sum_append, List.length_append]
  omega

theorem FitsBudget.mono {maxBytes : ℤ} {records more : List RecallRecord}
    (h : FitsBudget maxBytes (records ++ more)) : FitsBudget maxBytes records := by
  have hle := utf8Len_joinLines_le (recordLines records) (recordLines more)
  rw [fitsBudget_iff, recordLines, List.map_append] at h
  rw [fitsBudget_iff]
  unfold recordLines at hle ⊢
  omega

/-- One more line, and its separator, is within the budget exactly if it is within what is left. -/
theorem fitsBudget_snoc {maxBytes : ℤ} {records : List RecallRecord} {record : RecallRecord} :
    FitsBudget maxBytes (records ++ [record]) ↔
      (FIXED_BYTES + utf8Len (joinLines (recordLines records)) +
        ((if recordLines records = [] then 0 else 1) + utf8Len (serializeRecord record)) : ℕ) ≤
          maxBytes := by
  have hlines : recordLines (records ++ [record]) =
      recordLines records ++ [serializeRecord record] := by
    rw [recordLines, List.map_append]
    rfl
  rw [fitsBudget_iff, hlines, utf8Len_joinLines_append, Nat.add_assoc]

/-! ## The binary search -/

section Search
variable {settings : FormatSettings}

theorem raiseIfDeadlineReached_ok (hlate : ∀ n, settings.late n = false) (checks : ℕ) :
    settings.raiseIfDeadlineReached checks = .ok (checks + 1) := by
  rw [FormatSettings.raiseIfDeadlineReached, hlate, if_neg Bool.false_ne_true]

/-- The line of this beginning is within what is left. -/
def FitsLine (record : RecallRecord) (available : ℤ) (k : ℕ) : Prop :=
  (utf8Len (serializeRecord (FormatSettings.truncatedRecord record k)) : ℤ) ≤ available

theorem FitsLine.mono {record : RecallRecord} {available : ℤ} {j k : ℕ} (hjk : j ≤ k)
    (h : FitsLine record available k) : FitsLine record available j := by
  have hsize := size_truncatedRecord_mono additive_utf8Len grows_utf8Len record hjk
  unfold FitsLine at h ⊢
  omega

theorem fitLoop_longest (hlate : ∀ n, settings.late n = false) {record : RecallRecord}
    {available : ℤ} {last fuel low bound best : ℕ} (hfuel : bound ≤ low + fuel)
    (hbound : low ≤ bound) (hlast : bound ≤ last + 1) (hlow : low = 0 ∧ best = 0 ∨ low = best + 1)
    (hfits : FitsLine record available best)
    (hlarge : ∀ m, bound ≤ m → m ≤ last → ¬ FitsLine record available m)
    (checks : ℕ) :
    ∃ k checks', settings.fitLoop record available fuel low bound
        (FormatSettings.truncatedRecord record best) checks =
          .ok (FormatSettings.truncatedRecord record k, checks') ∧
      Longest (FitsLine record available) last k := by
  induction fuel generalizing low bound best checks with
  | zero =>
    refine ⟨best, checks, rfl, by omega, .inr hfits, fun m hm hle => hlarge m (by omega) hle⟩
  | succ fuel ih =>
    rw [FormatSettings.fitLoop]
    by_cases hlt : low < bound
    · rw [if_pos hlt, raiseIfDeadlineReached_ok hlate]
      obtain ⟨middle, hmiddle⟩ : ∃ middle, middle = (low + bound - 1) / 2 := ⟨_, rfl⟩
      simp only [bind, Except.bind, ← hmiddle]
      by_cases hfit : FitsLine record available middle
      · rw [if_pos (by exact hfit)]
        exact ih (by omega) (by omega) (by omega) (.inr rfl) hfit hlarge _
      · rw [if_neg (by exact hfit)]
        refine ih (by omega) (by omega) (by omega) hlow hfits (fun m hm hle hfitm => ?_) _
        exact hfit (hfitm.mono hm)
    · rw [if_neg hlt]
      exact ⟨best, checks, rfl, by omega, .inr hfits, fun m hm hle => hlarge m (by omega) hle⟩

/-- Nothing, or the longest text that fits. -/
theorem fitTruncatedRecord_longest (hlate : ∀ n, settings.late n = false) (record : RecallRecord)
    (available : ℤ) (checks : ℕ) :
    (¬ FitsLine record available 0 ∧
        settings.fitTruncatedRecord record available checks = .ok (none, checks)) ∨
      FitsLine record available 0 ∧ ∃ k checks',
        settings.fitTruncatedRecord record available checks =
            .ok (some (FormatSettings.truncatedRecord record k), checks') ∧
          Longest (FitsLine record available) record.memory.length k := by
  rw [FormatSettings.fitTruncatedRecord]
  by_cases hfits : FitsLine record available 0
  · obtain ⟨k, checks', hloop, hlongest⟩ := fitLoop_longest hlate
      (show record.memory.length + 1 ≤ 0 + (record.memory.length + 1) by omega) (Nat.zero_le _) le_rfl
      (.inl ⟨rfl, rfl⟩) hfits (fun m hm hle => absurd hle (by omega)) checks
    refine .inr ⟨hfits, k, checks', ?_, hlongest⟩
    dsimp only
    rw [if_neg (Int.not_lt.mpr hfits), hloop]
    rfl
  · refine .inl ⟨hfits, ?_⟩
    dsimp only
    rw [if_pos (Int.not_le.mp hfits)]

/-! ## One round -/

/-- What is left for a line and its separator. -/
def FormatState.available (s : FormatState) (maxBytes : ℤ) : ℤ :=
  maxBytes - FIXED_BYTES - s.linesBytes - (if s.lines = [] then 0 else 1 : ℕ)

/-- The record of a result as its line has it. -/
def FormatState.shownRecord (s : FormatState) (maxBytes : ℤ) (projected : RecallRecord) :
    RecallRecord :=
  (serializeWithoutCrowdingText projected (s.available maxBytes)).2

/-- The ways a round goes, without a deadline. -/
inductive Round (lib : Stdlib) (nfkc : Text → Text) (settings : FormatSettings) (s : FormatState)
    (result : RecallResult) : Except FormatError (Bool × FormatState) → Prop
  | raised {e : FormatError}
      (hproject : projectRecord lib result settings.includeType = .error e) :
      Round lib nfkc settings s result (.error e)
  | oversized (checks : ℕ)
      (hproject : projectRecord lib result settings.includeType = .ok none) :
      Round lib nfkc settings s result (.ok (false, { s with checks }))
  | duplicate {projected record : RecallRecord} (checks : ℕ)
      (hproject : projectRecord lib result settings.includeType = .ok (some projected))
      (hrecord : s.shownRecord settings.maxBytes projected = record)
      (hseen : memoryFingerprint nfkc record ∈ s.seenMemories) :
      Round lib nfkc settings s result (.ok (false, { s with checks }))
  | whole {projected record : RecallRecord} (checks : ℕ)
      (hproject : projectRecord lib result settings.includeType = .ok (some projected))
      (hrecord : s.shownRecord settings.maxBytes projected = record)
      (hnew : memoryFingerprint nfkc record ∉ s.seenMemories)
      (hfits : (utf8Len (serializeRecord record) : ℤ) ≤ s.available settings.maxBytes) :
      Round lib nfkc settings s result
        (.ok (false, { s.select (serializeRecord record) record result false with
          linesBytes := s.linesBytes +
            ((if s.lines = [] then 0 else 1) + utf8Len (serializeRecord record))
          seenMemories := memoryFingerprint nfkc record :: s.seenMemories
          checks }))
  | dropped {projected record : RecallRecord} (checks : ℕ)
      (hproject : projectRecord lib result settings.includeType = .ok (some projected))
      (hrecord : s.shownRecord settings.maxBytes projected = record)
      (hnew : memoryFingerprint nfkc record ∉ s.seenMemories)
      (hlarge : ¬ (utf8Len (serializeRecord record) : ℤ) ≤ s.available settings.maxBytes)
      (hminimum : ¬ FitsLine record (s.available settings.maxBytes) 0) :
      Round lib nfkc settings s result
        (.ok (true, { s with
          seenMemories := memoryFingerprint nfkc record :: s.seenMemories
          checks }))
  | truncated {projected record : RecallRecord} {k : ℕ} (checks : ℕ)
      (hproject : projectRecord lib result settings.includeType = .ok (some projected))
      (hrecord : s.shownRecord settings.maxBytes projected = record)
      (hnew : memoryFingerprint nfkc record ∉ s.seenMemories)
      (hlarge : ¬ (utf8Len (serializeRecord record) : ℤ) ≤ s.available settings.maxBytes)
      (hminimum : FitsLine record (s.available settings.maxBytes) 0)
      (hlongest : Longest (FitsLine record (s.available settings.maxBytes)) record.memory.length k) :
      Round lib nfkc settings s result
        (.ok (true, { s.select (serializeRecord (FormatSettings.truncatedRecord record k))
            (FormatSettings.truncatedRecord record k) result true with
          seenMemories := memoryFingerprint nfkc record :: s.seenMemories
          checks }))

theorem formatResult_round (hlate : ∀ n, settings.late n = false) (lib : Stdlib)
    (nfkc : Text → Text) (s : FormatState) (result : RecallResult) :
    Round lib nfkc settings s result (formatResult lib nfkc settings s result) := by
  unfold formatResult
  simp only [raiseIfDeadlineReached_ok hlate, bind, Except.bind]
  cases hproject : projectRecord lib result settings.includeType with
  | error e => exact .raised hproject
  | ok projected =>
    cases projected with
    | none => exact .oversized _ hproject
    | some projected =>
      dsimp only
      obtain ⟨record, hline⟩ := serializeWithoutCrowdingText_line projected
        (s.available settings.maxBytes)
      have hrecord : s.shownRecord settings.maxBytes projected = record := by
        rw [FormatState.shownRecord, hline]
      rw [← FormatState.available, hline]
      dsimp only
      by_cases hseen : memoryFingerprint nfkc record ∈ s.seenMemories
      · rw [if_pos hseen]
        exact .duplicate _ hproject hrecord hseen
      · rw [if_neg hseen]
        by_cases hfits : (utf8Len (serializeRecord record) : ℤ) ≤ s.available settings.maxBytes
        · rw [if_pos (by unfold FormatState.available at hfits; omega)]
          exact .whole _ hproject hrecord hseen hfits
        · rw [if_neg (by unfold FormatState.available at hfits; omega)]
          obtain ⟨hminimum, hfit⟩ | ⟨hminimum, k, checks', hfit, hlongest⟩ :=
            fitTruncatedRecord_longest hlate record (s.available settings.maxBytes)
              (s.checks + 1 + 1 + 1 + 1)
          · rw [hfit]
            exact .dropped _ hproject hrecord hseen hfits hminimum
          · rw [hfit]
            exact .truncated _ hproject hrecord hseen hfits hminimum hlongest

/-! ## The loop -/

/-- The records so far are whole and within the budget. -/
structure FormatState.Showing (maxBytes : ℤ) (s : FormatState) : Prop where
  lines : s.lines = recordLines s.records
  bytes : s.linesBytes = utf8Len (joinLines s.lines)
  flags : s.truncatedFlags = List.replicate s.records.length false
  fits : s.records = [] ∨ FitsBudget maxBytes s.records

section Loop
variable {maxBytes : ℤ} {s : FormatState} (hs : s.Showing maxBytes)
include hs

/-- What is left decides whether one more record fits. -/
theorem fits_available_iff (record : RecallRecord) :
    (utf8Len (serializeRecord record) : ℤ) ≤ s.available maxBytes ↔
      FitsBudget maxBytes (s.records ++ [record]) := by
  rw [fitsBudget_snoc, FormatState.available, hs.bytes, hs.lines]
  omega

theorem fitsLine_iff (record : RecallRecord) :
    FitsLine record (s.available maxBytes) =
      fun k => FitsBudget maxBytes (s.records ++ [FormatSettings.truncatedRecord record k]) := by
  funext k
  exact propext (fits_available_iff hs _)

/-- A record that fits is shown after the others. -/
theorem FormatState.Showing.whole {record : RecallRecord} {result : RecallResult}
    {seen : List Fingerprint} {checks : ℕ}
    (hfits : (utf8Len (serializeRecord record) : ℤ) ≤ s.available maxBytes) :
    FormatState.Showing maxBytes { s.select (serializeRecord record) record result false with
      linesBytes := s.linesBytes +
        ((if s.lines = [] then 0 else 1) + utf8Len (serializeRecord record))
      seenMemories := seen
      checks } where
  lines := by simp [FormatState.select, recordLines, hs.lines]
  bytes := by
    show s.linesBytes + _ = utf8Len (joinLines (s.lines ++ [serializeRecord record]))
    rw [utf8Len_joinLines_append, hs.bytes]
  flags := by
    show s.truncatedFlags ++ [false] = List.replicate (s.records ++ [record]).length false
    rw [hs.flags, List.length_append, List.length_singleton, List.replicate_succ']
  fits := .inr ((fits_available_iff hs record).mp hfits)

theorem FormatState.Showing.checks (checks : ℕ) :
    FormatState.Showing maxBytes { s with checks } :=
  ⟨hs.lines, hs.bytes, hs.flags, hs.fits⟩

/-- Where the next record is too large, no longer beginning fits either. -/
theorem longest_of_large {next : RecallRecord} {rest : List RecallRecord}
    (hlarge : ¬ FitsBudget maxBytes (s.records ++ [next])) :
    Longest (fun m => FitsBudget maxBytes ((s.records ++ next :: rest).take m))
      (s.records ++ next :: rest).length s.records.length where
  le := by simp
  holds := by
    obtain hnil | hfits := hs.fits
    · exact .inl (by rw [hnil]; rfl)
    · exact .inr (by rwa [List.take_left])
  longest := by
    intro m hm _ hfits
    have hsplit : (s.records ++ next :: rest).take m =
        (s.records ++ [next]) ++ rest.take (m - s.records.length - 1) := by
      obtain ⟨d, rfl⟩ : ∃ d, m = s.records.length + (d + 1) := ⟨m - s.records.length - 1, by omega⟩
      have hd : s.records.length + (d + 1) - s.records.length - 1 = d := by omega
      rw [List.take_length_add_append, List.take_succ_cons, hd]
      simp
    rw [hsplit] at hfits
    exact hlarge hfits.mono

end Loop

/-- All the records fit. -/
def AllFit (maxBytes : ℤ) (all : List RecallRecord) : Prop := all = [] ∨ FitsBudget maxBytes all

theorem projectRecord_attachments {lib : Stdlib} {result : RecallResult} {includeType : Bool}
    {record : RecallRecord} (h : projectRecord lib result includeType = .ok (some record)) :
    record.attachments = result.attachments := by
  have hpure : ∀ built : Option RecallRecord, (pure built : Except FormatError _) =
      .ok (some record) → built = some record := fun built h => Except.ok.inj h
  unfold projectRecord at h
  split at h
  · split at h
    · cases h
    · dsimp only at h
      split at h
      all_goals
        obtain ⟨type, -, h⟩ := bind_ok h
        obtain ⟨occurredStart, -, h⟩ := bind_ok h
        obtain ⟨occurredEnd, -, h⟩ := bind_ok h
        obtain ⟨mentionedAt, -, h⟩ := bind_ok h
        split at h
        · rw [← Option.some.inj (hpure _ h)]
        · cases hpure _ h
  · cases h

theorem shownRecord_plain {s : FormatState} {maxBytes : ℤ} {record : RecallRecord}
    (h : record.attachments = []) : s.shownRecord maxBytes record = record := by
  rw [FormatState.shownRecord, serializeWithoutCrowdingText]
  dsimp only
  rw [if_neg (fun hne => hne.1 h)]

theorem selected_all {maxBytes : ℤ} {s : FormatState} (hs : s.Showing maxBytes) :
    Selected maxBytes s.records s.records s.truncatedFlags := by
  refine ⟨s.records.length, ⟨le_rfl, ?_, fun m hm hle => absurd hle (by omega)⟩, ?_⟩
  · obtain hnil | hfits := hs.fits
    · exact .inl (by rw [hnil]; rfl)
    · exact .inr (by rwa [List.take_length])
  · rw [List.drop_length, List.take_length]
    exact ⟨rfl, hs.flags⟩

theorem not_allFit {maxBytes : ℤ} {shown rest : List RecallRecord} {next : RecallRecord}
    (hlarge : ¬ FitsBudget maxBytes (shown ++ [next])) :
    ¬ AllFit maxBytes (shown ++ next :: rest) := by
  rintro (hnil | hfits)
  · simp at hnil
  · rw [List.append_cons] at hfits
    exact hlarge hfits.mono

/-- The selection where the next record is too large. -/
theorem selected_large {maxBytes : ℤ} {s : FormatState} (hs : s.Showing maxBytes)
    {next : RecallRecord} {rest records : List RecallRecord} {flags : List Bool}
    (hlarge : ¬ FitsBudget maxBytes (s.records ++ [next]))
    (h : FitsBudget maxBytes (s.records ++ [FormatSettings.truncatedRecord next 0]) ∧
        (∃ k, Longest (FitsLine next (s.available maxBytes)) next.memory.length k ∧
          records = s.records ++ [FormatSettings.truncatedRecord next k] ∧
          flags = s.truncatedFlags ++ [true]) ∨
      ¬ FitsBudget maxBytes (s.records ++ [FormatSettings.truncatedRecord next 0]) ∧
        records = s.records ∧ flags = s.truncatedFlags) :
    Selected maxBytes (s.records ++ next :: rest) records flags := by
  refine ⟨s.records.length, longest_of_large hs hlarge, ?_⟩
  rw [fitsLine_iff hs] at h
  rw [List.drop_left, List.take_left, ← hs.flags]
  exact h

theorem formatResults_selected (hlate : ∀ n, settings.late n = false) (lib : Stdlib)
    (nfkc : Text → Text) {s : FormatState} (hs : s.Showing settings.maxBytes)
    {results : List RecallResult} (hplain : ∀ result ∈ results, result.attachments = [])
    {all : List RecallRecord}
    (hall : all = s.records ++ distinct nfkc s.seenMemories
      (projected lib settings.includeType results).1) :
    (∃ s', formatResults lib nfkc settings results s = .ok s' ∧ s'.lines = recordLines s'.records ∧
        Selected settings.maxBytes all s'.records s'.truncatedFlags ∧
        ((projected lib settings.includeType results).2 = true ∨
          ¬ AllFit settings.maxBytes all)) ∨
      (∃ e, formatResults lib nfkc settings results s = .error e) ∧
        (projected lib settings.includeType results).2 = false ∧
        AllFit settings.maxBytes all := by
  induction results generalizing s with
  | nil =>
    rw [projected, distinct, List.append_nil] at hall
    subst hall
    exact .inl ⟨s, rfl, hs.lines, selected_all hs, .inl rfl⟩
  | cons result results ih =>
    obtain ⟨hresult, hresults⟩ := List.forall_mem_cons.mp hplain
    rw [formatResults]
    rw [projected] at hall ⊢
    have hround := formatResult_round hlate lib nfkc s result
    generalize formatResult lib nfkc settings s result = outcome at hround ⊢
    cases hround with
    | raised hproject =>
      rw [hproject] at hall ⊢
      rw [distinct, List.append_nil] at hall
      subst hall
      exact .inr ⟨⟨_, rfl⟩, rfl, hs.fits⟩
    | oversized checks hproject =>
      rw [hproject] at hall ⊢
      exact ih (FormatState.Showing.checks hs checks) hresults hall
    | duplicate checks hproject hrecord hseen =>
      rw [hproject] at hall ⊢
      rw [shownRecord_plain ((projectRecord_attachments hproject).trans hresult)] at hrecord
      dsimp only at hall
      rw [distinct, if_pos (hrecord ▸ hseen)] at hall
      exact ih (FormatState.Showing.checks hs checks) hresults hall
    | whole checks hproject hrecord hnew hfits =>
      rw [hproject] at hall ⊢
      rw [shownRecord_plain ((projectRecord_attachments hproject).trans hresult)] at hrecord
      subst hrecord
      dsimp only at hall
      rw [distinct, if_neg hnew, List.append_cons] at hall
      exact ih (hs.whole hfits) hresults hall
    | dropped checks hproject hrecord hnew hlarge hminimum =>
      rw [hproject] at hall
      rw [shownRecord_plain ((projectRecord_attachments hproject).trans hresult)] at hrecord
      subst hrecord
      dsimp only at hall
      rw [distinct, if_neg hnew] at hall
      rw [fits_available_iff hs] at hlarge
      rw [hall]
      refine .inl ⟨_, rfl, hs.lines, selected_large hs hlarge (.inr ⟨?_, rfl, rfl⟩),
        .inr (not_allFit hlarge)⟩
      rwa [fitsLine_iff hs] at hminimum
    | truncated checks hproject hrecord hnew hlarge hminimum hlongest =>
      rw [hproject] at hall
      rw [shownRecord_plain ((projectRecord_attachments hproject).trans hresult)] at hrecord
      subst hrecord
      dsimp only at hall
      rw [distinct, if_neg hnew] at hall
      rw [fits_available_iff hs] at hlarge
      rw [hall]
      refine .inl ⟨_, rfl, ?_, selected_large hs hlarge (.inl ⟨?_, _, hlongest, rfl, rfl⟩),
        .inr (not_allFit hlarge)⟩
      · simp [FormatState.select, recordLines, hs.lines]
      · rwa [fitsLine_iff hs] at hminimum

end Search

/-! ## The formatter -/

theorem not_fitsBudget {maxBytes : ℤ} (h : maxBytes ≤ 0) (records : List RecallRecord) :
    ¬ FitsBudget maxBytes records := by
  have hframe : 0 < FIXED_BYTES := by decide +kernel
  rw [fitsBudget_iff]
  omega

/-- Where not even the frame fits, nothing is selected. -/
theorem selected_nothing {maxBytes : ℤ} (h : maxBytes ≤ 0) (all : List RecallRecord) :
    Selected maxBytes all [] [] := by
  refine ⟨0, ⟨Nat.zero_le _, .inl rfl, fun m _ _ => not_fitsBudget h _⟩, ?_⟩
  cases all with
  | nil => exact ⟨rfl, rfl⟩
  | cons next rest => exact .inr ⟨not_fitsBudget h _, rfl, rfl⟩

theorem Selected.flags_nil {maxBytes : ℤ} {all : List RecallRecord} {flags : List Bool}
    (h : Selected maxBytes all [] flags) : flags = [] := by
  obtain ⟨n, hn, h⟩ := h
  have hzero : [] = all.take n → n = 0 := by
    intro htake
    have hlen := congrArg List.length htake
    have hle := hn.le
    rw [List.length_nil, List.length_take] at hlen
    omega
  split at h
  · rw [h.2, hzero h.1]
    rfl
  · obtain ⟨-, k, -, hrecords, -⟩ | ⟨-, hrecords, hflags⟩ := h
    · simp at hrecords
    · rw [hflags, hzero hrecords]
      rfl

/-- What the formatter makes of the state after the loop. -/
def contextOf : Except FormatError FormatState → RecallContext
  | .error _ => .nothing
  | .ok s =>
    if s.lines = [] then .nothing
    else ⟨render s.lines, s.records, s.selectedResults, s.truncatedFlags⟩

theorem formatRecallContext_eq {settings : FormatSettings} (hlate : ∀ n, settings.late n = false)
    (hmax : ¬ settings.maxBytes ≤ 0) (lib : Stdlib) (nfkc : Text → Text)
    (results : List RecallResult) :
    formatRecallContext lib nfkc settings (some results) =
      contextOf (formatResults lib nfkc settings results .initial) := by
  rw [formatRecallContext, if_neg hmax]
  cases formatResults lib nfkc settings results .initial with
  | error e => rfl
  | ok s =>
    dsimp only
    rw [raiseIfDeadlineReached_ok hlate]
    rfl

/-- Without attachments and without a deadline the formatter shows the selection, whole, unless it
reaches a result that raises. -/
theorem selection_optimal (lib : Stdlib) (nfkc : Text → Text) (maxBytes : ℤ) (includeType : Bool)
    (monotonic : ℕ → ℚ) (results : List RecallResult)
    (hplain : ∀ result ∈ results, result.attachments = []) :
    let formatted := formatRecallContext lib nfkc
      ⟨maxBytes, includeType, lateChecks none monotonic⟩ (some results)
    let all := distinct nfkc [] (projected lib includeType results).1
    let complete := (projected lib includeType results).2
    (complete = true ∨ ¬ AllFit maxBytes all →
      Selected maxBytes all formatted.records formatted.truncatedFlags ∧
        formatted.context =
          if formatted.records = [] then [] else render (recordLines formatted.records)) ∧
      (complete = false ∧ AllFit maxBytes all → formatted = .nothing) := by
  intro formatted all complete
  by_cases hmax : maxBytes ≤ 0
  · have hnothing : formatted = .nothing := if_pos hmax
    rw [hnothing]
    exact ⟨fun _ => ⟨selected_nothing hmax all, rfl⟩, fun _ => rfl⟩
  · have hlate : ∀ n, FormatSettings.late ⟨maxBytes, includeType, lateChecks none monotonic⟩ n =
        false := fun n => rfl
    have hformatted : formatted = _ := formatRecallContext_eq hlate hmax lib nfkc results
    have hinitial : FormatState.initial.Showing maxBytes := ⟨rfl, rfl, rfl, .inl rfl⟩
    have hall : all = FormatState.initial.records ++ distinct nfkc FormatState.initial.seenMemories
      (projected lib includeType results).1 := rfl
    obtain ⟨s, hok, hlines, hselected, hcomplete⟩ | ⟨⟨e, herror⟩, hraises, hfit⟩ :=
      formatResults_selected hlate lib nfkc hinitial hplain hall
    · rw [hformatted, hok, contextOf]
      refine ⟨fun _ => ?_, fun ⟨hraises, hfit⟩ => ?_⟩
      · by_cases hempty : s.lines = []
        · have hnone : s.records = [] := List.map_eq_nil_iff.mp (hlines.symm.trans hempty)
          rw [hnone] at hselected
          rw [hselected.flags_nil] at hselected
          rw [if_pos hempty]
          exact ⟨hselected, rfl⟩
        · have hsome : s.records ≠ [] := fun hnone => hempty (by rw [hlines, hnone]; rfl)
          rw [if_neg hempty]
          refine ⟨hselected, ?_⟩
          rw [if_neg hsome, hlines]
      · obtain htrue | hlarge := hcomplete
        · exact absurd (hraises.symm.trans htrue) Bool.false_ne_true
        · exact absurd hfit hlarge
    · rw [hformatted, herror, contextOf]
      refine ⟨fun h => ?_, fun _ => rfl⟩
      obtain htrue | hlarge := h
      · exact absurd (hraises.symm.trans htrue) Bool.false_ne_true
      · exact absurd hfit hlarge

/-- Results with a text alone. -/
def plainResults (texts : List Text) : List RecallResult :=
  texts.map fun t => ⟨.text t, .absent, .absent, .absent, .absent, []⟩

theorem selection_optimal_twoMemories :
    let results := plainResults ["Tea at five.".toList, "Cake at six.".toList]
    let formatted := formatRecallContext (.ofTables [] []) id
      ⟨300, false, lateChecks none fun _ => 0⟩ (some results)
    Selected 300 (distinct id [] (projected (.ofTables [] []) false results).1) formatted.records
      formatted.truncatedFlags := by
  have hcomplete : (projected (.ofTables [] []) false
      (plainResults ["Tea at five.".toList, "Cake at six.".toList])).2 = true := by decide +kernel
  have hplain : ∀ result ∈ plainResults ["Tea at five.".toList, "Cake at six.".toList],
      result.attachments = [] := by
    intro result hresult
    obtain ⟨t, -, rfl⟩ := List.mem_map.mp hresult
    rfl
  exact ((selection_optimal _ id 300 false (fun _ => 0) _ hplain).1 (.inl hcomplete)).1

end BetterHindsight
