import BetterHindsight.Config
import BetterHindsight.Formatting.Envelope

/-! # Formatting recalled memories

`format_recall_context_with_selected_results_and_provenance`: the ranked results of a recall as one
bounded envelope, with the records that its lines hold. Whatever raises on the way, the deadline
included, leaves nothing.

* `projectRecord`, `memoryFingerprint`: the record of a result, and what makes two of them one.
* `fitTruncatedRecord`: the longest beginning of a memory that fits.
* `formatRecallContext`: the envelope; `recall_envelope` tells what it is. -/

namespace BetterHindsight
set_option autoImplicit false

def TEXT_TRUNCATION_MARKER : Text := " [... memory text truncated ...]"

def RECALL_RECORD_INPUT_MAX_BYTES : ℕ := 16 * 1024

/-! ## Results and records -/

/-- An attribute of a result; a missing one and `None` are not told apart. -/
inductive Attribute where
  | absent
  | text (t : Text)
  /-- Any other object. -/
  | other

structure RecallResult where
  text : Attribute
  type : Attribute
  occurredStart : Attribute
  occurredEnd : Attribute
  mentionedAt : Attribute
  attachments : List JsonValue

inductive FormatError where
  | typeError
  | timeout

/-- A field that is text where it is there. -/
def Attribute.optional : Attribute → Except FormatError (Option Text)
  | absent => .ok none
  | text t => .ok (some t)
  | other => .error .typeError

/-- `_bounded_utf8_size` -/
def boundedUtf8Size (text : Text) (maximum : ℕ) : Option ℕ :=
  if maximum < text.length then none
  else if utf8Len text ≤ maximum then some (utf8Len text) else none

/-- The fields fit one after the other. -/
def fieldsFit (remaining : ℕ) : List Text → Bool
  | [] => true
  | value :: values =>
    match boundedUtf8Size value remaining with
    | none => false
    | some size => fieldsFit (remaining - size) values

/-- `_project_record` -/
def projectRecord (lib : Stdlib) (result : RecallResult) (includeType : Bool) :
    Except FormatError (Option RecallRecord) := do
  match result.text with
  | .text text =>
    match boundedUtf8Size text RECALL_RECORD_INPUT_MAX_BYTES with
    | none => return none
    | some size =>
      let type ← if includeType then result.type.optional else .ok none
      let occurredStart ← result.occurredStart.optional
      let occurredEnd ← result.occurredEnd.optional
      let mentionedAt ← result.mentionedAt.optional
      let fields := type.toList ++ occurredStart.toList ++ occurredEnd.toList ++ mentionedAt.toList
      if fieldsFit (RECALL_RECORD_INPUT_MAX_BYTES - size) fields then
        return some
          { memory := redactSensitiveText lib text
            type, occurredStart, occurredEnd, mentionedAt
            attachments := result.attachments }
      else return none
  | _ => throw .typeError

structure Fingerprint where
  normalized : Text
  occurredStart : Option Text
  occurredEnd : Option Text
  mentionedAt : Option Text
  deriving DecidableEq

/-- `" ".join(text.split())` -/
def normalizeSpace (text : Text) : Text :=
  List.intercalate [' '] ((text.splitOnP isSpace).filter (· ≠ []))

/-- `_memory_fingerprint`; `nfkc` is `unicodedata.normalize("NFKC", ..)`. -/
def memoryFingerprint (nfkc : Text → Text) (record : RecallRecord) : Fingerprint where
  normalized := normalizeSpace (nfkc record.memory) ++
    if record.attachments = [] then []
    else '\x00' :: Json.dumps Json.quoteAscii (.arr (record.attachments.map Subtype.val))
  occurredStart := record.occurredStart
  occurredEnd := record.occurredEnd
  mentionedAt := record.mentionedAt

/-- `_serialize_without_crowding_text`: attachments that do not fit are dropped. -/
def serializeWithoutCrowdingText (record : RecallRecord) (availableLineBytes : ℤ) :
    Text × RecallRecord :=
  let line := serializeRecord record
  if record.attachments ≠ [] ∧ availableLineBytes < utf8Len line then
    let record := { record with attachments := [] }
    (serializeRecord record, record)
  else (line, record)

/-! ## The loop -/

structure FormatSettings where
  maxBytes : ℤ
  includeType : Bool
  /-- Whether the deadline is reached, at each of the checks in turn. -/
  late : ℕ → Bool

/-- The checks of `deadline` at these readings of the monotonic clock. -/
def lateChecks (deadline : Option ℚ) (monotonic : ℕ → ℚ) (check : ℕ) : Bool :=
  deadline.any fun deadline => deadline ≤ monotonic check

namespace FormatSettings
variable (settings : FormatSettings)

/-- `_raise_if_deadline_reached`; returns the number of the next check. -/
def raiseIfDeadlineReached (checks : ℕ) : Except FormatError ℕ :=
  if settings.late checks then .error .timeout else .ok (checks + 1)

/-- The record with a beginning of its memory. -/
def truncatedRecord (record : RecallRecord) (prefixChars : ℕ) : RecallRecord :=
  { record with memory := record.memory.take prefixChars ++ TEXT_TRUNCATION_MARKER }

/-- The binary search of `_fit_truncated_record`; `bound` is `high + 1`. -/
def fitLoop (record : RecallRecord) (availableLineBytes : ℤ) :
    ℕ → ℕ → ℕ → RecallRecord → ℕ → Except FormatError (RecallRecord × ℕ)
  | 0, _, _, best, checks => .ok (best, checks)
  | fuel + 1, low, bound, best, checks =>
    if low < bound then do
      let checks ← settings.raiseIfDeadlineReached checks
      let middle := (low + bound - 1) / 2
      let candidate := truncatedRecord record middle
      if utf8Len (serializeRecord candidate) ≤ availableLineBytes then
        fitLoop record availableLineBytes fuel (middle + 1) bound candidate checks
      else fitLoop record availableLineBytes fuel low middle best checks
    else .ok (best, checks)

/-- `_fit_truncated_record`; its line is the serialized record. -/
def fitTruncatedRecord (record : RecallRecord) (availableLineBytes : ℤ) (checks : ℕ) :
    Except FormatError (Option RecallRecord × ℕ) :=
  let minimum := truncatedRecord record 0
  if availableLineBytes < utf8Len (serializeRecord minimum) then .ok (none, checks)
  else do
    let (best, checks) ← settings.fitLoop record availableLineBytes (record.memory.length + 1) 0
      (record.memory.length + 1) minimum checks
    return (some best, checks)

end FormatSettings

structure FormatState where
  lines : List Text
  linesBytes : ℕ
  records : List RecallRecord
  selectedResults : List RecallResult
  truncatedFlags : List Bool
  seenMemories : List Fingerprint
  checks : ℕ

namespace FormatState

def initial : FormatState := ⟨[], 0, [], [], [], [], 0⟩

/-- A record and its line are selected. -/
def select (s : FormatState) (line : Text) (record : RecallRecord) (result : RecallResult)
    (truncated : Bool) : FormatState :=
  { s with
    lines := s.lines ++ [line]
    records := s.records ++ [record]
    selectedResults := s.selectedResults ++ [result]
    truncatedFlags := s.truncatedFlags ++ [truncated] }

end FormatState

/-- The size of the frame around no line. -/
def FIXED_BYTES : ℕ := utf8Len (CONTEXT_PREAMBLE ++ "\n\n".toList ++ CONTEXT_SUFFIX)

/-- One round of the loop over the results; the flag tells whether it breaks. -/
def formatResult (lib : Stdlib) (nfkc : Text → Text) (settings : FormatSettings)
    (s : FormatState) (result : RecallResult) : Except FormatError (Bool × FormatState) := do
  let checks ← settings.raiseIfDeadlineReached s.checks
  match ← projectRecord lib result settings.includeType with
  | none => return (false, { s with checks })
  | some projected =>
    let checks ← settings.raiseIfDeadlineReached checks
    let separatorBytes : ℕ := if s.lines = [] then 0 else 1
    let available : ℤ := settings.maxBytes - FIXED_BYTES - s.linesBytes - separatorBytes
    let (line, record) := serializeWithoutCrowdingText projected available
    let checks ← settings.raiseIfDeadlineReached checks
    let fingerprint := memoryFingerprint nfkc record
    let checks ← settings.raiseIfDeadlineReached checks
    if fingerprint ∈ s.seenMemories then return (false, { s with checks })
    else
      let s := { s with seenMemories := fingerprint :: s.seenMemories, checks }
      if (FIXED_BYTES + s.linesBytes + separatorBytes + utf8Len line : ℕ) ≤ settings.maxBytes then
        return (false, { s.select line record result false with
          linesBytes := s.linesBytes + (separatorBytes + utf8Len line) })
      else
        match ← settings.fitTruncatedRecord record available checks with
        | (none, checks) => return (true, { s with checks })
        | (some record, checks) =>
          return (true, { s.select (serializeRecord record) record result true with checks })

def formatResults (lib : Stdlib) (nfkc : Text → Text) (settings : FormatSettings) :
    List RecallResult → FormatState → Except FormatError FormatState
  | [], s => .ok s
  | result :: results, s => do
    let (stop, s) ← formatResult lib nfkc settings s result
    if stop then return s else formatResults lib nfkc settings results s

/-- What the formatter returns. -/
structure RecallContext where
  context : Text
  records : List RecallRecord
  selectedResults : List RecallResult
  truncatedFlags : List Bool

def RecallContext.nothing : RecallContext := ⟨[], [], [], []⟩

/-- `format_recall_context_with_selected_results_and_provenance`; `results` is `none` where the
response has no sequence of results. -/
def formatRecallContext (lib : Stdlib) (nfkc : Text → Text) (settings : FormatSettings)
    (results : Option (List RecallResult)) : RecallContext :=
  if settings.maxBytes ≤ 0 then .nothing
  else
    match results with
    | none => .nothing
    | some results =>
      match formatResults lib nfkc settings results .initial with
      | .error _ => .nothing
      | .ok s =>
        match settings.raiseIfDeadlineReached s.checks with
        | .error _ => .nothing
        | .ok _ =>
          if s.lines = [] then .nothing
          else ⟨render s.lines, s.records, s.selectedResults, s.truncatedFlags⟩

/-! ## Selected records -/

/-- The lines are those of the selected records, and the frame around them fits. -/
structure FormatState.Framed (maxBytes : ℤ) (s : FormatState) : Prop where
  lines : s.lines = recordLines s.records
  fits : s.lines ≠ [] → (FIXED_BYTES + utf8Len (joinLines s.lines) : ℕ) ≤ maxBytes

theorem fitLoop_fits {settings : FormatSettings} {record best found : RecallRecord}
    {available : ℤ} {fuel low bound checks checks' : ℕ}
    (hbest : utf8Len (serializeRecord best) ≤ available)
    (h : settings.fitLoop record available fuel low bound best checks = .ok (found, checks')) :
    utf8Len (serializeRecord found) ≤ available := by
  induction fuel generalizing low bound best checks with
  | zero =>
    cases h
    exact hbest
  | succ fuel ih =>
    unfold FormatSettings.fitLoop at h
    split at h
    · obtain ⟨next, -, h⟩ := bind_ok h
      dsimp only at h
      split at h
      · rename_i hfit
        exact ih hfit h
      · exact ih hbest h
    · cases h
      exact hbest

theorem fitTruncatedRecord_fits {settings : FormatSettings} {record found : RecallRecord}
    {available : ℤ} {checks checks' : ℕ}
    (h : settings.fitTruncatedRecord record available checks = .ok (some found, checks')) :
    utf8Len (serializeRecord found) ≤ available := by
  unfold FormatSettings.fitTruncatedRecord at h
  dsimp only at h
  split at h
  · cases h
  · rename_i hminimum
    obtain ⟨⟨best, next⟩, hloop, h⟩ := bind_ok h
    cases h
    exact fitLoop_fits (Int.not_lt.mp hminimum) hloop

theorem serializeWithoutCrowdingText_line (projected : RecallRecord) (available : ℤ) :
    ∃ record, serializeWithoutCrowdingText projected available =
      (serializeRecord record, record) := by
  unfold serializeWithoutCrowdingText
  dsimp only
  split
  · exact ⟨_, rfl⟩
  · exact ⟨projected, rfl⟩

/-- One more line takes its own bytes and those of the separator. -/
theorem utf8Len_joinLines_append (lines : List Text) (line : Text) :
    utf8Len (joinLines (lines ++ [line])) =
      utf8Len (joinLines lines) + ((if lines = [] then 0 else 1) + utf8Len line) := by
  rw [utf8Len_joinLines, utf8Len_joinLines]
  cases lines with
  | nil => simp
  | cons first lines =>
    simp only [List.map_append, List.sum_append, List.length_append, List.map_cons, List.map_nil,
      List.sum_cons, List.sum_nil, List.length_cons, List.length_nil, reduceCtorEq, if_false]
    omega

theorem FormatState.Framed.select {maxBytes : ℤ} {s : FormatState} (h : s.Framed maxBytes)
    {record : RecallRecord} {result : RecallResult} {truncated : Bool}
    (hfits : (FIXED_BYTES + utf8Len (joinLines s.lines) + ((if s.lines = [] then 0 else 1) +
      utf8Len (serializeRecord record)) : ℕ) ≤ maxBytes) :
    (s.select (serializeRecord record) record result truncated).Framed maxBytes where
  lines := by simp [FormatState.select, recordLines, h.lines]
  fits := by
    intro _
    have hlen := utf8Len_joinLines_append s.lines (serializeRecord record)
    show ((FIXED_BYTES + utf8Len (joinLines (s.lines ++ [serializeRecord record])) : ℕ) : ℤ) ≤ _
    rw [hlen, ← Nat.add_assoc]
    exact hfits

/-- What one round keeps: the frame, and the byte count unless the loop breaks. -/
theorem formatResult_framed {lib : Stdlib} {nfkc : Text → Text} {settings : FormatSettings}
    {s s' : FormatState} {result : RecallResult} {stop : Bool}
    (hframed : s.Framed settings.maxBytes) (hbytes : s.linesBytes = utf8Len (joinLines s.lines))
    (h : formatResult lib nfkc settings s result = .ok (stop, s')) :
    s'.Framed settings.maxBytes ∧
      (stop = false → s'.linesBytes = utf8Len (joinLines s'.lines)) := by
  obtain ⟨checks₁, -, h⟩ := bind_ok h
  obtain ⟨projected, -, h⟩ := bind_ok h
  cases projected with
  | none =>
    cases h
    exact ⟨⟨hframed.lines, hframed.fits⟩, fun _ => hbytes⟩
  | some projected =>
    obtain ⟨checks₂, -, h⟩ := bind_ok h
    -- The separator is named first, so that a split below is one of the loop's own tests.
    obtain ⟨separator, hseparator⟩ : ∃ n : ℕ, n = if s.lines = [] then 0 else 1 := ⟨_, rfl⟩
    rw [← hseparator] at h
    dsimp only at h
    obtain ⟨record, hline⟩ := serializeWithoutCrowdingText_line projected
      (settings.maxBytes - FIXED_BYTES - s.linesBytes - separator)
    rw [hline] at h
    dsimp only at h
    obtain ⟨checks₃, -, h⟩ := bind_ok h
    obtain ⟨checks₄, -, h⟩ := bind_ok h
    split at h
    · cases h
      exact ⟨⟨hframed.lines, hframed.fits⟩, fun _ => hbytes⟩
    · split at h
      · rename_i hfits
        cases h
        have hselect := @FormatState.Framed.select _ _ hframed record result false
          (by rw [← hbytes, ← hseparator]; omega)
        refine ⟨⟨hselect.lines, hselect.fits⟩, fun _ => ?_⟩
        show s.linesBytes + _ = utf8Len (joinLines (s.lines ++ [serializeRecord record]))
        rw [utf8Len_joinLines_append, hbytes, ← hseparator]
      · obtain ⟨⟨found, checks₅⟩, hfit, h⟩ := bind_ok h
        cases found with
        | none =>
          cases h
          exact ⟨⟨hframed.lines, hframed.fits⟩, fun hstop => by cases hstop⟩
        | some found =>
          cases h
          have hroom := fitTruncatedRecord_fits hfit
          have hselect := @FormatState.Framed.select _ _ hframed found result true
            (by rw [← hbytes, ← hseparator]; omega)
          exact ⟨⟨hselect.lines, hselect.fits⟩, fun hstop => by cases hstop⟩

theorem formatResults_framed {lib : Stdlib} {nfkc : Text → Text} {settings : FormatSettings}
    {results : List RecallResult} {s s' : FormatState} (hframed : s.Framed settings.maxBytes)
    (hbytes : s.linesBytes = utf8Len (joinLines s.lines))
    (h : formatResults lib nfkc settings results s = .ok s') : s'.Framed settings.maxBytes := by
  induction results generalizing s with
  | nil =>
    cases h
    exact hframed
  | cons result results ih =>
    obtain ⟨⟨stop, next⟩, hround, h⟩ := bind_ok h
    obtain ⟨hnext, hcount⟩ := formatResult_framed hframed hbytes hround
    cases stop with
    | true =>
      cases h
      exact hnext
    | false => exact ih hnext (hcount rfl) h

theorem formatRecallContext_cases (lib : Stdlib) (nfkc : Text → Text) (settings : FormatSettings)
    (results : Option (List RecallResult)) :
    formatRecallContext lib nfkc settings results = .nothing ∨
      ∃ s : FormatState, s.Framed settings.maxBytes ∧ s.lines ≠ [] ∧
        formatRecallContext lib nfkc settings results =
          ⟨render s.lines, s.records, s.selectedResults, s.truncatedFlags⟩ := by
  unfold formatRecallContext
  split
  · exact .inl rfl
  · split
    · exact .inl rfl
    · split
      · exact .inl rfl
      · rename_i s hok
        split
        · exact .inl rfl
        · split
          · exact .inl rfl
          · rename_i hne
            have hinitial : FormatState.initial.Framed settings.maxBytes :=
              ⟨rfl, fun h => absurd rfl h⟩
            exact .inr ⟨s, formatResults_framed hinitial rfl hok, hne, rfl⟩

/-! ## The envelope -/

/-- An envelope is empty, or within its size the preamble, one line for each returned record and
the suffix; each line is read as its record, and no line holds a marker. -/
theorem recall_envelope (lib : Stdlib) (nfkc : Text → Text) (maxBytes : ℤ) (includeType : Bool)
    (deadline : Option ℚ) (monotonic : ℕ → ℚ) (results : Option (List RecallResult)) :
    let formatted := formatRecallContext lib nfkc
      ⟨maxBytes, includeType, lateChecks deadline monotonic⟩ results
    formatted.context = [] ∧ formatted.records = [] ∨
      utf8Len formatted.context ≤ maxBytes ∧
        (∃ lines, formatted.context =
            CONTEXT_PREAMBLE ++ '\n' :: (joinLines lines ++ '\n' :: CONTEXT_SUFFIX) ∧
          splitlines formatted.context =
            splitlines CONTEXT_PREAMBLE ++ lines ++ [CONTEXT_SUFFIX] ∧
          List.Forall₂ (fun line record => Json.loads line = some (RecallRecord.json record).sorted)
            lines formatted.records) ∧
        occurrences CONTEXT_BEGIN_MARKER formatted.context = 1 ∧
        occurrences CONTEXT_SUFFIX formatted.context = 1 ∧
        occurrences LEGACY_CONTEXT_BEGIN_MARKER formatted.context = 0 ∧
        occurrences LEGACY_CONTEXT_SUFFIX formatted.context = 0 := by
  dsimp only
  rcases formatRecallContext_cases lib nfkc ⟨maxBytes, includeType, lateChecks deadline monotonic⟩
    results with hnothing | ⟨s, hframed, hne, hsome⟩
  · rw [hnothing]
    exact .inl ⟨rfl, rfl⟩
  · rw [hsome, hframed.lines]
    have hrecords : s.records ≠ [] := by
      rintro hnil
      rw [hframed.lines, hnil] at hne
      exact hne rfl
    have hoccurrences : ∀ marker ∈ CONTEXT_MARKERS,
        occurrences marker (render (recordLines s.records)) =
          occurrences marker CONTEXT_PREAMBLE + occurrences marker CONTEXT_SUFFIX :=
      fun marker h => occurrences_render h hrecords
    have hcounts : CONTEXT_MARKERS.map (fun marker =>
        occurrences marker CONTEXT_PREAMBLE + occurrences marker CONTEXT_SUFFIX) = [1, 1, 0, 0] := by
      decide +kernel
    simp only [CONTEXT_MARKERS, List.forall_mem_cons] at hoccurrences
    simp only [CONTEXT_MARKERS, List.map_cons, List.map_nil, List.cons.injEq] at hcounts
    obtain ⟨hbegin, hend, hlegacyBegin, hlegacyEnd, -⟩ := hoccurrences
    obtain ⟨hbegin', hend', hlegacyBegin', hlegacyEnd', -⟩ := hcounts
    refine .inr ⟨?_, ⟨recordLines s.records, ?_, splitlines_render hrecords, ?_⟩,
      hbegin.trans hbegin', hend.trans hend', hlegacyBegin.trans hlegacyBegin',
      hlegacyEnd.trans hlegacyEnd'⟩
    · rw [utf8Len_render, ← hframed.lines]
      exact hframed.fits hne
    · simp [render]
    · rw [recordLines, List.forall₂_map_left_iff]
      exact List.forall₂_same.mpr fun record _ => loads_serializeRecord record

end BetterHindsight
