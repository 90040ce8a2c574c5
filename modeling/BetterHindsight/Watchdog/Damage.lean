import BetterHindsight.Watchdog.Window

/-! # Damaged state files and odd events

An evaluation on the bytes of its state file. A damaged file counts as empty or loses its malformed
parts only, unless reading it raises.

* `JsonLoads`, `readStateFile`, `evaluateFile`: the file by its bytes.
* `salvaged`, `BeyondReading`: what is read of a damaged file, and the files whose reading raises.
* `damage_survived`: the evaluation is what the salvaged state and the known event values make it,
  exactly when nothing raises. -/

namespace BetterHindsight
set_option autoImplicit false

/-! ## The file by its bytes -/

inductive LoadsOutcome where
  | document (value : Json)
  /-- `UnicodeDecodeError` or `JSONDecodeError` -/
  | undecodable
  /-- `RecursionError`, or the `ValueError` of an integer with too many digits -/
  | overflow

/-- The document that a state is written as. -/
def stateDocument (state : WatchdogState) : Json :=
  .obj [("active_reasons".toList, .arr ((state.activeReasons.map AlertReason.value).map .str)),
    ("recall_outcomes".toList, .arr (state.recallOutcomes.map .str)), ("version".toList, .int 1)]

/-- `json.loads` of bytes under the interpreter's limits. -/
structure JsonLoads where
  run : List UInt8 → LoadsOutcome
  /-- A written state is read back. -/
  written : ∀ state : WatchdogState, run (encode (encodeState state)) = .document (stateDocument state)

inductive EvaluationError where
  /-- An exception of `json.loads` that `_read_state` does not catch. -/
  | loads
  | watchdog (error : WatchdogError)
  deriving DecidableEq

/-- `_read_state` once the document is decoded. -/
def stateOf : Json → Except WatchdogError WatchdogState
  | .obj fields =>
    match fields.lookup "active_reasons".toList, fields.lookup "recall_outcomes".toList with
    | some (.arr reasons), some (.arr outcomes) =>
      (safeOutcomes outcomes).map fun safe =>
        ⟨REASON_ORDER.filter fun reason => reasons.any fun r => isText (some r) reason.value, safe⟩
    | _, _ => .ok .empty
  | _ => .ok .empty

/-- On text, reading the file is reading the document. -/
theorem readState_eq (raw : Text) : readState (some raw) =
    if MAX_STATE_BYTES < utf8Len raw then .ok .empty
    else match Json.loads raw with
      | some document => stateOf document
      | none => .ok .empty := by
  unfold readState stateOf
  simp only
  split
  · rfl
  · cases Json.loads raw with
    | none => rfl
    | some document => cases document <;> rfl

/-- `_read_state`; `none` stands for a file that is missing or cannot be read. -/
def readStateFile (json : JsonLoads) (file : Option (List UInt8)) :
    Except EvaluationError WatchdogState :=
  match file with
  | none => .ok .empty
  | some raw =>
    if MAX_STATE_BYTES < raw.length then .ok .empty
    else
      match json.run raw with
      | .undecodable => .ok .empty
      | .overflow => .error .loads
      | .document value => (stateOf value).mapError .watchdog

/-- `evaluate_watchdog` after `_read_state`. -/
def evaluateFrom (divide : ℕ → ℕ → ℚ) (input : WatchdogInput) (previous : WatchdogState) :
    Except WatchdogError (Option WatchdogResult × Text) :=
  (input.observed previous).bind fun seen =>
    (writeState (input.nextState divide seen)).map fun text =>
      (transition previous.activeReasons (input.nextState divide seen).activeReasons
        seen.newReasons, text)

theorem evaluateWatchdog_from {divide : ℕ → ℕ → ℚ} {input : WatchdogInput} {file : Option Text}
    {previous : WatchdogState} (hvalid : validateThresholds input.thresholds = .ok ())
    (hread : readState file = .ok previous) :
    evaluateWatchdog divide input file = evaluateFrom divide input previous := by
  rw [evaluateWatchdog_eq hread, hvalid]
  rfl

/-- `evaluate_watchdog` on the bytes of the state file, with the bytes that it leaves there. -/
def evaluateFile (json : JsonLoads) (divide : ℕ → ℕ → ℚ) (input : WatchdogInput)
    (file : Option (List UInt8)) :
    Except EvaluationError (Option WatchdogResult × List UInt8) := do
  (validateThresholds input.thresholds).mapError .watchdog
  let previous ← readStateFile json file
  let (result, text) ← (evaluateFrom divide input previous).mapError .watchdog
  return (result, encode text)

/-! ## What is read of a damaged file -/

/-- The known outcomes among the items. -/
def knownOutcomes (items : List Json) : List Text :=
  items.filterMap fun item =>
    match item with
    | .str t => if t ∈ RECALL_OUTCOMES then some t else none
    | _ => none

/-- The two lists of a document, where it has them. -/
def stateLists : Json → Option (List Json × List Json)
  | .obj fields =>
    match fields.lookup "active_reasons".toList, fields.lookup "recall_outcomes".toList with
    | some (.arr reasons), some (.arr outcomes) => some (reasons, outcomes)
    | _, _ => none
  | _ => none

/-- The document of a file that is not over-long, where the bytes are one. -/
def documentOf (json : JsonLoads) (file : Option (List UInt8)) : Option Json :=
  match file with
  | none => none
  | some raw =>
    if MAX_STATE_BYTES < raw.length then none
    else match json.run raw with
      | .document value => some value
      | _ => none

/-- The legible part of a file: the known reasons and outcomes of its two lists, or nothing. -/
def salvaged (json : JsonLoads) (file : Option (List UInt8)) : WatchdogState :=
  match (documentOf json file).bind stateLists with
  | some (reasons, outcomes) =>
    ⟨REASON_ORDER.filter fun reason => reasons.any fun r => isText (some r) reason.value,
      knownOutcomes outcomes⟩
  | none => .empty

/-- Reading the file raises: `json.loads` does so, or a list or a dict stands among the outcomes. -/
inductive BeyondReading (json : JsonLoads) (file : Option (List UInt8)) : Prop
  | loads {raw : List UInt8} (hfile : file = some raw) (hlen : raw.length ≤ MAX_STATE_BYTES)
      (hrun : json.run raw = .overflow) : BeyondReading json file
  | collection {reasons outcomes : List Json} {item : Json}
      (hlists : (documentOf json file).bind stateLists = some (reasons, outcomes))
      (hmem : item ∈ outcomes) (hitem : Collection (some item)) : BeyondReading json file

/-- The loop over the outcomes raises at a list or a dict, or keeps the known ones. -/
theorem safeOutcomes_spec (items : List Json) :
    ((∃ item ∈ items, Collection (some item)) ∧ safeOutcomes items = .error .typeError) ∨
      ((∀ item ∈ items, ¬ Collection (some item)) ∧
        safeOutcomes items = .ok (knownOutcomes items)) := by
  induction items with
  | nil => exact .inr ⟨nofun, rfl⟩
  | cons item items ih =>
    rcases inSet_cases (some item) RECALL_OUTCOMES with
      ⟨hc, hin⟩ | ⟨hc, ⟨t, ht, hv⟩, hin⟩ | ⟨hc, hnot, hin⟩
    · exact .inl ⟨⟨item, List.mem_cons_self, hc⟩, by rw [safeOutcomes, hin]; rfl⟩
    · obtain rfl := Option.some.inj hv
      have hknown : knownOutcomes (.str t :: items) = t :: knownOutcomes items := by
        rw [knownOutcomes, List.filterMap_cons]
        simp only [if_pos ht]
        rfl
      rcases ih with ⟨⟨item', hmem, hc'⟩, hrest⟩ | ⟨hnone, hrest⟩
      · exact .inl ⟨⟨item', List.mem_cons_of_mem _ hmem, hc'⟩, by
          rw [safeOutcomes, hin, hrest]; rfl⟩
      · refine .inr ⟨List.forall_mem_cons.mpr ⟨hc, hnone⟩, ?_⟩
        rw [safeOutcomes, hin, hrest, hknown]
        rfl
    · have hskip : knownOutcomes (item :: items) = knownOutcomes items := by
        rw [knownOutcomes, List.filterMap_cons]
        cases item with
        | str t =>
          have ht : t ∉ RECALL_OUTCOMES := fun ht => hnot ⟨t, ht, rfl⟩
          simp only [if_neg ht]
          rfl
        | _ => rfl
      have hhead : ∀ rest : Except WatchdogError (List Text), safeOutcomes items = rest →
          safeOutcomes (item :: items) = rest := by
        intro rest hrest
        rw [safeOutcomes, hin, hrest]
        cases rest with
        | error e => rfl
        | ok rest => cases item <;> rfl
      rcases ih with ⟨⟨item', hmem, hc'⟩, hrest⟩ | ⟨hnone, hrest⟩
      · exact .inl ⟨⟨item', List.mem_cons_of_mem _ hmem, hc'⟩, hhead _ hrest⟩
      · exact .inr ⟨List.forall_mem_cons.mpr ⟨hc, hnone⟩, by rw [hskip]; exact hhead _ hrest⟩

theorem stateOf_eq (value : Json) : stateOf value =
    match stateLists value with
    | some (reasons, outcomes) => (safeOutcomes outcomes).map fun safe =>
        ⟨REASON_ORDER.filter fun reason => reasons.any fun r => isText (some r) reason.value, safe⟩
    | none => .ok .empty := by
  unfold stateOf stateLists
  cases value with
  | obj fields =>
    simp only
    generalize fields.lookup "active_reasons".toList = reasons
    generalize fields.lookup "recall_outcomes".toList = outcomes
    rcases reasons with _ | (_ | _ | _ | _ | _ | _ | _) <;>
      rcases outcomes with _ | (_ | _ | _ | _ | _ | _ | _) <;> rfl
  | _ => rfl

section Reading
variable {json : JsonLoads} {file : Option (List UInt8)}

theorem not_beyondReading (hloads : ∀ raw, file = some raw → raw.length ≤ MAX_STATE_BYTES →
      json.run raw ≠ .overflow) (hnone : (documentOf json file).bind stateLists = none) :
    ¬ BeyondReading json file := by
  rintro (⟨hfile, hlen, hrun⟩ | ⟨hlists, -, -⟩)
  · exact hloads _ hfile hlen hrun
  · rw [hnone] at hlists
    cases hlists

/-- A file is read as its legible part, or reading it raises. -/
theorem readStateFile_spec (json : JsonLoads) (file : Option (List UInt8)) :
    (BeyondReading json file ∧ ∃ e, readStateFile json file = .error e) ∨
      (¬ BeyondReading json file ∧ readStateFile json file = .ok (salvaged json file)) := by
  have hempty : (documentOf json file).bind stateLists = none → salvaged json file = .empty := by
    intro hnone
    rw [salvaged, hnone]
  cases hfile : file with
  | none => exact .inr ⟨not_beyondReading nofun rfl, rfl⟩
  | some raw =>
    by_cases hlen : MAX_STATE_BYTES < raw.length
    · have hnone : (documentOf json (some raw)).bind stateLists = none := by
        rw [documentOf, if_pos hlen]
        rfl
      refine .inr ⟨not_beyondReading ?_ hnone, ?_⟩
      · intro raw' hraw hle
        cases hraw
        exact absurd hlen (not_lt.mpr hle)
      · rw [← hfile, hempty (by rw [hfile]; exact hnone), hfile, readStateFile, if_pos hlen]
    · cases hrun : json.run raw with
      | undecodable =>
        have hnone : (documentOf json (some raw)).bind stateLists = none := by
          rw [documentOf, if_neg hlen, hrun]
          rfl
        refine .inr ⟨not_beyondReading ?_ hnone, ?_⟩
        · intro raw' hraw hle hover
          cases hraw
          rw [hrun] at hover
          cases hover
        · rw [← hfile, hempty (by rw [hfile]; exact hnone), hfile]
          simp only [readStateFile, if_neg hlen, hrun]
      | overflow =>
        refine .inl ⟨.loads rfl (not_lt.mp hlen) hrun, .loads, ?_⟩
        simp only [readStateFile, if_neg hlen, hrun]
      | document value =>
        have hlists : (documentOf json (some raw)).bind stateLists = stateLists value := by
          rw [documentOf, if_neg hlen, hrun]
          rfl
        have hloads : ∀ raw', some raw = some raw' → raw'.length ≤ MAX_STATE_BYTES →
            json.run raw' ≠ .overflow := by
          intro raw' hraw _ hover
          cases hraw
          rw [hrun] at hover
          cases hover
        have hread : readStateFile json (some raw) = (stateOf value).mapError .watchdog := by
          simp only [readStateFile, if_neg hlen, hrun]
        rw [hread, stateOf_eq]
        cases hvalue : stateLists value with
        | none =>
          rw [hvalue] at hlists
          refine .inr ⟨not_beyondReading hloads hlists, ?_⟩
          rw [← hfile, hempty (by rw [hfile]; exact hlists)]
          rfl
        | some lists =>
          obtain ⟨reasons, outcomes⟩ := lists
          rw [hvalue] at hlists
          rcases safeOutcomes_spec outcomes with ⟨⟨item, hmem, hc⟩, hsafe⟩ | ⟨hnone, hsafe⟩
          · refine .inl ⟨.collection hlists hmem hc, .watchdog .typeError, ?_⟩
            simp only [hsafe]
            rfl
          · refine .inr ⟨?_, ?_⟩
            · rintro (⟨hraw, hle, hover⟩ | ⟨hlists', hmem, hc⟩)
              · exact hloads _ hraw hle hover
              · rw [hlists] at hlists'
                cases hlists'
                exact hnone _ hmem hc
            · rw [salvaged, hlists]
              simp only [hsafe]
              rfl

theorem knownOutcomes_known (items : List Json) : ∀ t ∈ knownOutcomes items, t ∈ RECALL_OUTCOMES := by
  intro t ht
  obtain ⟨item, -, hitem⟩ := List.mem_filterMap.mp ht
  cases item with
  | str u =>
    simp only [Option.ite_none_right_eq_some, Option.some.injEq] at hitem
    exact hitem.2 ▸ hitem.1
  | _ => cases hitem

theorem salvaged_wf (json : JsonLoads) (file : Option (List UInt8)) : (salvaged json file).Wf := by
  unfold salvaged
  split
  · refine ⟨?_, knownOutcomes_known _⟩
    dsimp only
    exact ordered_filter _
  · exact .empty

/-- A written state is read back from its bytes. -/
theorem readStateFile_written {state : WatchdogState} {text : Text} (hwf : state.Wf)
    (h : writeState state = .ok text) : readStateFile json (some (encode text)) = .ok state := by
  have htext : text = encodeState state ∧ utf8Len text ≤ MAX_STATE_BYTES := by
    unfold writeState at h
    split at h
    · cases h
    · rename_i hle
      cases h
      exact ⟨rfl, not_lt.mp hle⟩
  obtain ⟨rfl, hle⟩ := htext
  have hback := readState_writeState hwf h
  rw [readState_eq, if_neg (not_lt.mpr hle), loads_encodeState] at hback
  have hlen : ¬ MAX_STATE_BYTES < (encode (encodeState state)).length := by
    rw [length_encode]
    exact not_lt.mpr hle
  simp only [readStateFile, if_neg hlen, json.written]
  have hdocument : stateOf (stateDocument state) = .ok state := hback
  rw [hdocument]
  rfl

end Reading

/-! ## Evaluations -/

/-- The evaluation returns what the legible part of the file and the known values of the events
make it, and leaves a file that reads as the state it found: a later evaluation sees nothing else of
the damaged one. -/
structure Survived (json : JsonLoads) (divide : ℕ → ℕ → ℚ) (input : WatchdogInput)
    (file : Option (List UInt8)) (result : Option WatchdogResult) (raw : List UInt8)
    (state : WatchdogState) (newReasons : List AlertReason) : Prop where
  returns : evaluateFile json divide input file = .ok (result, raw)
  outcomes : state.recallOutcomes = lastOutcomes input.thresholds.recallWindow
    ((salvaged json file).recallOutcomes ++ recallsOf input.events)
  reasons : state.activeReasons = ordered
    (currentReasons divide input.thresholds input.status input.canary state.recallOutcomes)
  new : ∀ r, r ∈ newReasons ↔ ∃ event ∈ input.events, Reports event r
  result_eq : result = transition (salvaged json file).activeReasons state.activeReasons newReasons
  next : readStateFile json (some raw) = .ok state

theorem bind_mapError {ε ε' α β : Type} {f : ε → ε'} {x : Except ε α} {g : α → Except ε' β} {b : β}
    (h : (x.mapError f >>= g) = .ok b) : ∃ a, x = .ok a ∧ g a = .ok b := by
  cases x with
  | error e => cases h
  | ok a => exact ⟨a, rfl, h⟩

/-- A window of at most 100 outcomes always fits. -/
theorem writeState_small {divide : ℕ → ℕ → ℚ} {thresholds : Thresholds} {status canary : Mapping}
    {outcomes : List Text} (hknown : ∀ t ∈ outcomes, t ∈ RECALL_OUTCOMES)
    (hlen : outcomes.length ≤ 100) :
    writeState ⟨ordered (currentReasons divide thresholds status canary outcomes), outcomes⟩ =
      .ok (encodeState ⟨ordered (currentReasons divide thresholds status canary outcomes),
        outcomes⟩) := by
  have hbytes := outcomes_le hknown
  have hcounts := counts_le outcomes
  have hreasons : listBytes (reasonTexts (ordered
      (currentReasons divide thresholds status canary outcomes))) ≤ 96 := by
    refine (reasonBytes_le (REASON_ORDER.filter fun r => r.isNew = false)
      fun r hr => ?_).trans (by decide)
    rw [List.mem_filter]
    exact ⟨by cases r <;> decide, by simpa using isNew_currentReasons hr⟩
  refine if_neg (not_lt.mpr ?_)
  rw [utf8Len_encodeState hknown]
  simp only [MAX_STATE_BYTES, listBytes] at hreasons ⊢
  omega

section Evaluating
variable {json : JsonLoads} {divide : ℕ → ℕ → ℚ} {input : WatchdogInput}
  {file : Option (List UInt8)}

/-- **A damaged state file or an odd event does not disable the watchdog**, exactly when reading the
file does not raise and no event holds a list or a dict where a value is looked up. -/
theorem damage_survived (hvalid : validateThresholds input.thresholds = .ok ())
    (hwindow : input.thresholds.recallWindow ≤ 100) :
    (∃ result raw state newReasons, Survived json divide input file result raw state newReasons) ↔
      ¬ BeyondReading json file ∧ ∀ event ∈ input.events, ¬ Unreadable event := by
  have hevaluate : evaluateFile json divide input file =
      (readStateFile json file).bind fun previous =>
        ((evaluateFrom divide input previous).mapError EvaluationError.watchdog).map fun r =>
          (r.1, encode r.2) := by
    rw [evaluateFile, hvalid]
    cases readStateFile json file with
    | error e => rfl
    | ok previous =>
      simp only [Except.bind, bind]
      cases evaluateFrom divide input previous <;> rfl
  constructor
  · rintro ⟨result, raw, state, newReasons, h⟩
    have hreturns := h.returns
    rw [hevaluate] at hreturns
    rcases readStateFile_spec json file with ⟨-, e, hread⟩ | ⟨hbeyond, hread⟩
    · rw [hread] at hreturns
      cases hreturns
    · refine ⟨hbeyond, fun event hmem hbad => ?_⟩
      rcases observeAll_spec input.events
        ⟨(salvaged json file).recallOutcomes, false, false, false, false⟩ with
        ⟨-, hobs⟩ | ⟨hgood, -⟩
      · rw [hread, Except.bind, evaluateFrom, WatchdogInput.observed, hobs] at hreturns
        cases hreturns
      · exact hgood event hmem hbad
  · rintro ⟨hbeyond, hgood⟩
    rcases readStateFile_spec json file with ⟨h, -⟩ | ⟨-, hread⟩
    · exact absurd h hbeyond
    · rcases observeAll_spec input.events
        ⟨(salvaged json file).recallOutcomes, false, false, false, false⟩ with
        ⟨⟨event, hmem, hbad⟩, -⟩ | ⟨-, seen, hobs, hadds⟩
      · exact absurd hbad (hgood event hmem)
      · have houtcomes := observeAll_outcomes hobs
        have hwf : (input.nextState divide seen).Wf :=
          nextState_wf hadds (salvaged_wf json file).outcomes
        have hlen : (lastOutcomes input.thresholds.recallWindow seen.recallOutcomes).length ≤ 100 := by
          have hle := length_lastOutcomes_le (validThresholds_of_ok hvalid).window_pos
            seen.recallOutcomes
          omega
        have hwrite : writeState (input.nextState divide seen) =
            .ok (encodeState (input.nextState divide seen)) := writeState_small hwf.outcomes hlen
        refine ⟨_, encode (encodeState (input.nextState divide seen)), input.nextState divide seen,
          seen.newReasons, ?_, ?_, rfl, ?_, rfl, readStateFile_written hwf hwrite⟩
        · rw [hevaluate, hread, Except.bind, evaluateFrom, WatchdogInput.observed, hobs, Except.bind,
            hwrite]
          rfl
        · rw [← houtcomes]
          rfl
        · intro r
          rw [hadds.reasons]
          simp [mem_newReasons]

end Evaluating

/-! ## Fixed files -/

/-- The text of UTF-8 bytes. -/
def decodeUtf8 (raw : List UInt8) : Option Text :=
  raw.toByteArray.utf8Decode?.map Array.toList

theorem decodeUtf8_encode (t : Text) : decodeUtf8 (encode t) = some t := by
  have h : (encode t).toByteArray = t.utf8Encode := rfl
  rw [decodeUtf8, h, List.utf8Decode?_utf8Encode]
  rfl

/-- Reading UTF-8 within all limits. -/
def utf8Loads : JsonLoads where
  run raw :=
    match (decodeUtf8 raw).bind Json.loads with
    | some value => .document value
    | none => .undecodable
  written state := by
    rw [decodeUtf8_encode, Option.bind_some, loads_encodeState]
    rfl

/-- A document with the two lists. -/
def listsDocument (reasons outcomes : List Json) : Json :=
  .obj [("active_reasons".toList, .arr reasons), ("recall_outcomes".toList, .arr outcomes)]

def listsFile (reasons outcomes : List Json) : Text :=
  Json.dumpsPlain Json.quoteAscii (listsDocument reasons outcomes)

theorem loads_listsFile {reasons outcomes : List Json} (hr : ∀ v ∈ reasons, v.Distinct)
    (ho : ∀ v ∈ outcomes, v.Distinct) :
    Json.loads (listsFile reasons outcomes) = some (listsDocument reasons outcomes) := by
  refine Json.loads_dumpsPlain Json.quotes_ascii (.obj ?_ ?_)
  · exact (by decide : ["active_reasons".toList, "recall_outcomes".toList].Nodup)
  · simp only [List.forall_mem_cons]
    exact ⟨.arr hr, .arr ho, List.forall_mem_nil _⟩

theorem stateLists_listsDocument (reasons outcomes : List Json) :
    stateLists (listsDocument reasons outcomes) = some (reasons, outcomes) := rfl

/-- A reason that is no text, and an outcome that is a number. -/
def dentedFile : Text := listsFile [.str "e2e_failed", .bool true] [.int 7, .str "timeout"]

/-- A list among the outcomes. -/
def brokenFile : Text := listsFile [] [.arr []]

/-- An evaluation without news. -/
def quietInput : WatchdogInput := { canaryFails with canary := canaryFails.status }

theorem lists_of_loads {t : Text} {value : Json} (hlen : utf8Len t ≤ MAX_STATE_BYTES)
    (h : Json.loads t = some value) :
    (documentOf utf8Loads (some (encode t))).bind stateLists = stateLists value := by
  have hshort : ¬ MAX_STATE_BYTES < (encode t).length := by
    rw [length_encode]
    exact not_lt.mpr hlen
  have hrun : utf8Loads.run (encode t) = .document value := by
    simp only [utf8Loads, decodeUtf8_encode, Option.bind_some, h]
  rw [documentOf, if_neg hshort, hrun]
  rfl

theorem damage_survived_dented : ∃ result raw state newReasons,
    Survived utf8Loads (fun a b => (a : ℚ) / b) quietInput (some (encode dentedFile)) result raw
      state newReasons := by
  have hloads : Json.loads dentedFile =
      some (listsDocument [.str "e2e_failed", .bool true] [.int 7, .str "timeout"]) := by
    refine loads_listsFile ?_ ?_ <;> simp only [List.forall_mem_cons]
    · exact ⟨.str _, .bool _, List.forall_mem_nil _⟩
    · exact ⟨.int _, .str _, List.forall_mem_nil _⟩
  have hlen : utf8Len dentedFile ≤ MAX_STATE_BYTES := by decide +kernel
  refine (damage_survived (by decide +kernel) (by decide)).mpr ⟨?_, List.forall_mem_nil _⟩
  rintro (⟨hfile, -, hrun⟩ | ⟨hlists, hmem, hitem⟩)
  · cases hfile
    simp only [utf8Loads, decodeUtf8_encode, Option.bind_some, hloads] at hrun
    cases hrun
  · rw [lists_of_loads hlen hloads, stateLists_listsDocument] at hlists
    cases hlists
    simp only [List.mem_cons, List.not_mem_nil, or_false] at hmem
    rcases hmem with rfl | rfl <;> cases hitem

theorem damage_fatal : ¬ ∀ (json : JsonLoads) (divide : ℕ → ℕ → ℚ) (input : WatchdogInput)
    (file : Option (List UInt8)), validateThresholds input.thresholds = .ok () →
      input.thresholds.recallWindow ≤ 100 →
        ∃ result raw state newReasons,
          Survived json divide input file result raw state newReasons := by
  intro hall
  have hloads : Json.loads brokenFile = some (listsDocument [] [.arr []]) := by
    refine loads_listsFile nofun ?_
    simp only [List.forall_mem_cons]
    exact ⟨.arr nofun, nofun⟩
  have hlen : utf8Len brokenFile ≤ MAX_STATE_BYTES := by decide +kernel
  have hbeyond : BeyondReading utf8Loads (some (encode brokenFile)) :=
    .collection (lists_of_loads hlen hloads) (List.mem_singleton_self _) (.list [])
  obtain ⟨result, raw, state, newReasons, h⟩ := hall utf8Loads (fun a b => (a : ℚ) / b) quietInput
    (some (encode brokenFile)) (by decide +kernel) (by decide)
  rcases readStateFile_spec utf8Loads (some (encode brokenFile)) with ⟨-, e, hread⟩ | ⟨hnot, -⟩
  · have hreturns := h.returns
    have hvalid : validateThresholds quietInput.thresholds = .ok () := by decide +kernel
    rw [evaluateFile, hvalid, hread] at hreturns
    cases hreturns
  · exact hnot hbeyond

end BetterHindsight
