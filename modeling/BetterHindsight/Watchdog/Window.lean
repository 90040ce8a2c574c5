import BetterHindsight.Watchdog.Stream

/-! # The recall window in the state file

Evaluations one after the other under the same thresholds. Each writes the recall outcomes of all
batches so far that the window keeps, as long as the longest window fits the file's bound.

* `recallsOf`: the recall outcomes that events report.
* `Fits`: the thresholds whose windows fit.
* `window_survives`: the window survives every sequence of batches under exactly these. -/

namespace BetterHindsight
set_option autoImplicit false

/-! ## The outcomes of a batch -/

/-- The name of the events that report recall outcomes. -/
def RECALL_EVENT : Text := "better_hindsight.recall"

/-- The recall outcome that an event reports. -/
def recallOutcome? (event : Mapping) : Option Text :=
  match event.get? "event", event.get? "outcome" with
  | some (.str name), some (.str t) =>
    if name = RECALL_EVENT ∧ t ∈ RECALL_OUTCOMES then some t else none
  | _, _ => none

def recallsOf (events : List Mapping) : List Text := events.filterMap recallOutcome?

theorem recallOutcome?_eq_some {event : Mapping} {t : Text} :
    recallOutcome? event = some t ↔
      Named event RECALL_EVENT ∧ event.get? "outcome" = some (.str t) ∧ t ∈ RECALL_OUTCOMES := by
  unfold recallOutcome? Named
  split
  · rename_i name t' hname hout
    rw [hname, hout]
    simp only [Option.ite_none_right_eq_some, Option.some.injEq, Json.str.injEq]
    constructor
    · rintro ⟨⟨rfl, ht⟩, rfl⟩
      exact ⟨rfl, rfl, ht⟩
    · rintro ⟨rfl, rfl, ht⟩
      exact ⟨⟨rfl, ht⟩, rfl⟩
  · rename_i hnot
    constructor
    · intro h
      cases h
    · rintro ⟨hname, hout, -⟩
      exact absurd hout (hnot _ _ hname)

theorem recallOutcome?_of_not_named {event : Mapping} (h : ¬ Named event RECALL_EVENT) :
    recallOutcome? event = none := by
  by_contra hsome
  obtain ⟨t, ht⟩ := Option.ne_none_iff_exists'.mp hsome
  exact h (recallOutcome?_eq_some.mp ht).1

theorem observe_recall_outcomes {seen seen' : Observed} {event : Mapping}
    (hrecall : Named event RECALL_EVENT) (h : observe seen event = .ok seen') :
    seen'.recallOutcomes = seen.recallOutcomes ++ (recallOutcome? event).toList := by
  rw [observe_recall hrecall] at h
  obtain ⟨known, hknown, rfl⟩ := of_map_eq_ok h
  rcases inSet_cases (event.get? "outcome") RECALL_OUTCOMES with
    ⟨-, hin⟩ | ⟨-, ⟨t, ht, hv⟩, hin⟩ | ⟨-, hnot, hin⟩
  · rw [hin] at hknown
    cases hknown
  · obtain rfl : known = true := Except.ok.inj (hknown.symm.trans hin)
    have hsome := recallOutcome?_eq_some.mpr ⟨hrecall, hv, ht⟩
    rw [hsome, hv, if_pos rfl]
    rfl
  · obtain rfl : known = false := Except.ok.inj (hknown.symm.trans hin)
    have hnone : recallOutcome? event = none := by
      by_contra hsome
      obtain ⟨t, ht⟩ := Option.ne_none_iff_exists'.mp hsome
      obtain ⟨-, hout, hmem⟩ := recallOutcome?_eq_some.mp ht
      exact hnot ⟨t, hmem, hout⟩
    rw [hnone, if_neg (by simp), Option.toList_none, List.append_nil]

theorem observe_outcomes {seen seen' : Observed} {event : Mapping}
    (h : observe seen event = .ok seen') :
    seen'.recallOutcomes = seen.recallOutcomes ++ (recallOutcome? event).toList := by
  by_cases hrecall : Named event RECALL_EVENT
  · exact observe_recall_outcomes hrecall h
  · rw [recallOutcome?_of_not_named hrecall, Option.toList_none, List.append_nil]
    by_cases hname : ∃ name ∈ EVENT_NAMES, Named event name
    · obtain ⟨name, hmem, hnamed⟩ := hname
      simp only [EVENT_NAMES, List.mem_cons, List.not_mem_nil, or_false] at hmem
      obtain rfl | rfl | rfl | rfl | rfl := hmem
      · exact absurd hnamed hrecall
      · rw [observe_senderAttempt hnamed] at h
        obtain ⟨found, -, rfl⟩ := of_map_eq_ok h
        cases found <;> rfl
      · rw [observe_flag hnamed .adapterContract] at h
        obtain ⟨found, -, rfl⟩ := of_map_eq_ok h
        cases found <;> rfl
      · rw [observe_flag hnamed .senderLoop] at h
        obtain ⟨found, -, rfl⟩ := of_map_eq_ok h
        cases found <;> rfl
      · rw [observe_flag hnamed .clientLifecycle] at h
        obtain ⟨found, -, rfl⟩ := of_map_eq_ok h
        cases found <;> rfl
    · push Not at hname
      rw [observe_other hname] at h
      rw [Except.ok.inj h]

/-- The loop appends the recall outcomes of the events, in order. -/
theorem observeAll_outcomes {events : List Mapping} {seen seen' : Observed}
    (h : observeAll events seen = .ok seen') :
    seen'.recallOutcomes = seen.recallOutcomes ++ recallsOf events := by
  induction events generalizing seen with
  | nil =>
    cases h
    simp [recallsOf]
  | cons event events ih =>
    rw [observeAll] at h
    cases hobs : observe seen event with
    | error e =>
      rw [hobs] at h
      cases h
    | ok next =>
      rw [hobs] at h
      rw [ih h, observe_outcomes hobs, List.append_assoc, recallsOf, recallsOf,
        List.filterMap_cons]
      cases recallOutcome? event <;> rfl

theorem known_of_recallsOf {events : List Mapping} : ∀ t ∈ recallsOf events, t ∈ RECALL_OUTCOMES := by
  intro t ht
  obtain ⟨event, -, hevent⟩ := List.mem_filterMap.mp ht
  exact (recallOutcome?_eq_some.mp hevent).2.2

/-- The window of the window so far and more outcomes is the window of all of them. -/
theorem lastOutcomes_append (window : ℤ) (kept new : List Text) :
    lastOutcomes window (lastOutcomes window kept ++ new) = lastOutcomes window (kept ++ new) := by
  unfold lastOutcomes
  generalize window.toNat = n
  by_cases hshort : kept.length ≤ n
  · rw [Nat.sub_eq_zero_of_le hshort, List.drop_zero]
  · have hkept : kept.drop (kept.length - n) ++ new = (kept ++ new).drop (kept.length - n) := by
      rw [List.drop_append_of_le_length (by omega)]
    rw [hkept, List.drop_drop, List.length_drop, List.length_append]
    congr 1
    omega

/-! ## The size of a state -/

/-- The size of a list of strings that JSON does not escape, between its brackets. -/
def listBytes (texts : List Text) : ℕ := (texts.map fun t => t.length + 2).sum + (texts.length - 1)

/-- A text that `ensure_ascii` leaves as it is. -/
def PlainText (t : Text) : Prop := utf8Len (Json.quoteAscii t) = t.length + 2

theorem utf8Len_strings {texts : List Text} (h : ∀ t ∈ texts, PlainText t) :
    utf8Len (Json.dumps Json.quoteAscii (.arr (texts.map .str))) = listBytes texts + 2 := by
  have hopen : Char.utf8Size '[' = 1 := by decide
  have hclose : Char.utf8Size ']' = 1 := by decide
  have hmap : (texts.map fun t => utf8Len (Json.dumps Json.quoteAscii (.str t))) =
      texts.map fun t => t.length + 2 := List.map_congr_left fun t ht => h t ht
  rw [Json.dumps_arr]
  simp only [utf8Len_cons, utf8Len_append, utf8Len_nil, Json.utf8Len_joinComma, List.map_map,
    Function.comp_def, hmap, List.length_map, hopen, hclose, listBytes]
  omega

theorem plainText_outcome {t : Text} (h : t ∈ RECALL_OUTCOMES) : PlainText t := by
  have hall : RECALL_OUTCOMES.all (fun t => utf8Len (Json.quoteAscii t) == t.length + 2) = true := by
    decide +kernel
  simpa [PlainText] using List.all_eq_true.mp hall t h

example : utf8Len (Json.quoteAscii "timeout") = 9 := by decide +kernel

theorem plainText_reason (r : AlertReason) : PlainText r.value := by
  unfold PlainText
  cases r <;> decide +kernel

def reasonTexts (reasons : List AlertReason) : List Text := reasons.map AlertReason.value

/-- The names, the version and the brackets take 54 bytes. -/
theorem utf8Len_encodeState {state : WatchdogState}
    (h : ∀ t ∈ state.recallOutcomes, t ∈ RECALL_OUTCOMES) :
    utf8Len (encodeState state) =
      54 + listBytes (reasonTexts state.activeReasons) + listBytes state.recallOutcomes := by
  have hreasons : state.activeReasons.map (fun reason => Json.str reason.value) =
      (reasonTexts state.activeReasons).map .str := by
    rw [reasonTexts, List.map_map]
    rfl
  have hplain : ∀ t ∈ reasonTexts state.activeReasons, PlainText t := by
    intro t ht
    obtain ⟨r, -, rfl⟩ := List.mem_map.mp ht
    exact plainText_reason r
  have hactive : utf8Len (Json.quoteAscii "active_reasons".toList) = 16 := by decide +kernel
  have houtcomes : utf8Len (Json.quoteAscii "recall_outcomes".toList) = 17 := by decide +kernel
  have hversion : utf8Len (Json.quoteAscii "version".toList) = 9 := by decide +kernel
  have hone : utf8Len (Json.dumps Json.quoteAscii (.int 1)) = 1 := by decide +kernel
  rw [encodeState, hreasons, Json.utf8Len_dumps_obj]
  simp only [List.map_cons, List.map_nil, List.sum_cons, List.sum_nil, List.length_cons,
    List.length_nil, utf8Len_strings hplain, utf8Len_strings fun t ht => plainText_outcome (h t ht),
    hactive, houtcomes, hversion, hone]
  omega

theorem listBytes_sublist {texts texts' : List Text} (h : texts.Sublist texts') :
    listBytes texts ≤ listBytes texts' := by
  have hsum := (h.map fun t => t.length + 2).sum_le_sum fun _ _ => Nat.zero_le _
  have hlen := h.length_le
  unfold listBytes
  omega

/-- The outcomes that count as errors. -/
def recallErrorCount (outcomes : List Text) : ℕ := outcomes.countP (· ∈ RECALL_ERROR_OUTCOMES)

def recallTimeoutCount (outcomes : List Text) : ℕ := outcomes.countP (· = "timeout".toList)

/-- An error takes at most 18 bytes, another outcome at most 9. -/
theorem outcomes_le {outcomes : List Text} (h : ∀ t ∈ outcomes, t ∈ RECALL_OUTCOMES) :
    (outcomes.map fun t => t.length + 2).sum ≤ 9 * outcomes.length + 9 * recallErrorCount outcomes := by
  have hall : RECALL_OUTCOMES.all (fun t =>
      decide (t.length + 2 ≤ 9 + if t ∈ RECALL_ERROR_OUTCOMES then 9 else 0)) = true := by
    decide +kernel
  induction outcomes with
  | nil => rfl
  | cons t outcomes ih =>
    obtain ⟨ht, hrest⟩ := List.forall_mem_cons.mp h
    have hone := of_decide_eq_true (List.all_eq_true.mp hall t ht)
    have hmany := ih hrest
    simp only [recallErrorCount, List.map_cons, List.sum_cons, List.length_cons, List.countP_cons,
      decide_eq_true_eq] at hmany ⊢
    split at hone
    · rename_i herror
      rw [if_pos herror]
      omega
    · rename_i herror
      rw [if_neg herror]
      omega

/-- A timeout is no error. -/
theorem counts_le (outcomes : List Text) :
    recallTimeoutCount outcomes + recallErrorCount outcomes ≤ outcomes.length := by
  have hdisjoint : ∀ t : Text, t = "timeout".toList → t ∉ RECALL_ERROR_OUTCOMES := by
    rintro t rfl
    decide
  induction outcomes with
  | nil => rfl
  | cons t outcomes ih =>
    simp only [recallTimeoutCount, recallErrorCount, List.countP_cons, List.length_cons,
      decide_eq_true_eq] at ih ⊢
    by_cases ht : t = "timeout".toList
    · rw [if_pos ht, if_neg (hdisjoint t ht)]
      omega
    · rw [if_neg ht]
      split <;> omega

/-! ## The thresholds whose windows fit -/

/-- What the division of two `int`s gives where nothing is rounded. -/
structure ExactDivision (divide : ℕ → ℕ → ℚ) : Prop where
  zero : ∀ n, divide 0 n = 0
  self : ∀ n, 0 < n → divide n n = 1

/-- A window of at most 423 outcomes always fits. One of 424 does not fit where a single timeout
among errors raises both rates, and a longer one does not fit when it is full of errors. -/
def Fits (divide : ℕ → ℕ → ℚ) (thresholds : Thresholds) : Prop :=
  thresholds.recallWindow ≤ 423 ∨ thresholds.recallWindow = 424 ∧
    ¬ (reaches (divide 1 424) thresholds.recallTimeoutRate = true ∧
      reaches (divide 423 424) thresholds.recallErrorRate = true)

section Sizes
variable {divide : ℕ → ℕ → ℚ} {thresholds : Thresholds} {status canary : Mapping}
  {outcomes : List Text}

structure ValidThresholds (thresholds : Thresholds) : Prop where
  window_pos : 0 < thresholds.recallWindow
  samples_le : thresholds.minimumRecallSamples ≤ thresholds.recallWindow
  error_rate : validRate thresholds.recallErrorRate = true
  timeout_rate : validRate thresholds.recallTimeoutRate = true

theorem validThresholds_of_ok (h : validateThresholds thresholds = .ok ()) :
    ValidThresholds thresholds := by
  unfold validateThresholds at h
  split at h
  · cases h
  · split at h
    · cases h
    · rename_i hwindow
      split at h
      · cases h
      · rename_i hsamples
        split at h
        · cases h
        · rename_i herror
          split at h
          · cases h
          · rename_i htimeout
            exact ⟨by omega, by omega, by simpa using herror, by simpa using htimeout⟩

theorem not_reaches_zero {rate : PyFloat} (h : validRate rate = true) : reaches 0 rate = false := by
  cases rate with
  | finite q =>
    simp only [validRate, Bool.and_eq_true, decide_eq_true_eq] at h
    simp only [reaches, decide_eq_false_iff_not, not_le]
    exact h.1
  | posInf => cases h
  | negInf => cases h
  | nan => cases h

theorem reaches_one {rate : PyFloat} (h : validRate rate = true) : reaches 1 rate = true := by
  cases rate with
  | finite q =>
    simp only [validRate, Bool.and_eq_true, decide_eq_true_eq] at h
    simp only [reaches, decide_eq_true_eq]
    exact h.2
  | posInf => cases h
  | negInf => cases h
  | nan => cases h

/-- A timeout rate that is reached. -/
def TimeoutsElevated (divide : ℕ → ℕ → ℚ) (thresholds : Thresholds) (outcomes : List Text) : Prop :=
  thresholds.minimumRecallSamples ≤ outcomes.length ∧
    reaches (divide (recallTimeoutCount outcomes) outcomes.length) thresholds.recallTimeoutRate = true

def ErrorsElevated (divide : ℕ → ℕ → ℚ) (thresholds : Thresholds) (outcomes : List Text) : Prop :=
  thresholds.minimumRecallSamples ≤ outcomes.length ∧
    reaches (divide (recallErrorCount outcomes) outcomes.length) thresholds.recallErrorRate = true

theorem mem_currentReasons {r : AlertReason} :
    r ∈ currentReasons divide thresholds status canary outcomes ↔
      (isText (status.get? "result") "ok" = false ∧ r = .localStatusDegraded) ∨
      (TimeoutsElevated divide thresholds outcomes ∧ r = .recallTimeoutRateElevated) ∨
      (ErrorsElevated divide thresholds outcomes ∧ r = .recallErrorRateElevated) ∨
      (isText (canary.get? "result") "ok" = false ∧ r = .e2eFailed) := by
  simp only [currentReasons, List.mem_append, List.mem_ite_nil_left, List.mem_ite_nil_right,
    List.mem_singleton, or_assoc, Bool.not_eq_true, TimeoutsElevated, ErrorsElevated, recallTimeoutCount,
    recallErrorCount]

/-- Reasons among the given ones take no more than all of these. -/
theorem reasonBytes_le {reasons : List AlertReason} (allowed : List AlertReason)
    (h : ∀ r ∈ reasons, r ∈ allowed) :
    listBytes (reasonTexts (ordered reasons)) ≤
      listBytes (reasonTexts (REASON_ORDER.filter (· ∈ allowed))) := by
  refine listBytes_sublist (List.Sublist.map _ ?_)
  refine List.monotone_filter_right _ fun r hr => ?_
  exact decide_eq_true (h r (of_decide_eq_true hr))

/-- **The longest state of a window.** Every window of known outcomes fits the file. -/
theorem encodeState_le (status canary : Mapping) (hdiv : ExactDivision divide) (hvalid : ValidThresholds thresholds)
    (hfits : Fits divide thresholds) (hknown : ∀ t ∈ outcomes, t ∈ RECALL_OUTCOMES)
    (hlen : (outcomes.length : ℤ) ≤ thresholds.recallWindow) :
    utf8Len (encodeState ⟨ordered (currentReasons divide thresholds status canary outcomes),
      outcomes⟩) ≤ MAX_STATE_BYTES := by
  have hbytes := outcomes_le hknown
  have hcounts := counts_le outcomes
  have hwindow : outcomes.length ≤ 424 := by
    rcases hfits with h | h
    · omega
    · omega
  rw [utf8Len_encodeState hknown]
  simp only [MAX_STATE_BYTES, listBytes]
  by_cases htimeouts : TimeoutsElevated divide thresholds outcomes
  · -- a timeout rate above zero needs a timeout
    have hpos : recallTimeoutCount outcomes ≠ 0 := by
      intro hzero
      have hreaches := htimeouts.2
      rw [hzero, hdiv.zero, not_reaches_zero hvalid.timeout_rate] at hreaches
      cases hreaches
    by_cases herrors : ErrorsElevated divide thresholds outcomes
    · have hreasons : listBytes (reasonTexts (ordered
          (currentReasons divide thresholds status canary outcomes))) ≤ 96 := by
        refine (reasonBytes_le (REASON_ORDER.filter fun r => r.isNew = false)
          fun r hr => ?_).trans (by decide)
        rw [List.mem_filter]
        exact ⟨by cases r <;> decide, by simpa using isNew_currentReasons hr⟩
      have hsingle : ¬ (outcomes.length = 424 ∧ recallTimeoutCount outcomes = 1 ∧
          recallErrorCount outcomes = 423) := by
        rintro ⟨hn, ht, he⟩
        rcases hfits with h | ⟨-, hnot⟩
        · omega
        · refine hnot ⟨?_, ?_⟩
          · have hreaches := htimeouts.2
            rwa [ht, hn] at hreaches
          · have hreaches := herrors.2
            rwa [he, hn] at hreaches
      simp only [listBytes] at hreasons
      omega
    · have hreasons : listBytes (reasonTexts (ordered
          (currentReasons divide thresholds status canary outcomes))) ≤ 67 := by
        refine (reasonBytes_le [.localStatusDegraded, .recallTimeoutRateElevated,
          .e2eFailed] fun r hr => ?_).trans (by decide)
        rcases mem_currentReasons.mp hr with ⟨-, rfl⟩ | ⟨-, rfl⟩ | ⟨h, -⟩ | ⟨-, rfl⟩
        · decide
        · decide
        · exact absurd h herrors
        · decide
      simp only [listBytes] at hreasons
      omega
  · have hreasons : listBytes (reasonTexts (ordered
        (currentReasons divide thresholds status canary outcomes))) ≤ 65 := by
      refine (reasonBytes_le [.localStatusDegraded, .recallErrorRateElevated,
        .e2eFailed] fun r hr => ?_).trans (by decide)
      rcases mem_currentReasons.mp hr with ⟨-, rfl⟩ | ⟨h, -⟩ | ⟨-, rfl⟩ | ⟨-, rfl⟩
      · decide
      · exact absurd h htimeouts
      · decide
      · decide
    simp only [listBytes] at hreasons
    omega

end Sizes

/-! ## Batches -/

/-- What one evaluation gets, apart from the thresholds and the state file. -/
structure WatchdogBatch where
  status : Mapping
  canary : Mapping
  events : List Mapping

def WatchdogBatch.input (thresholds : Thresholds) (batch : WatchdogBatch) : WatchdogInput :=
  ⟨batch.status, batch.canary, batch.events, thresholds⟩

/-- The state file after the batches, evaluated in turn, from a file that may be missing. -/
def runBatches (divide : ℕ → ℕ → ℚ) (thresholds : Thresholds) (file : Option Text)
    (batches : List WatchdogBatch) : Except WatchdogError (Option Text) :=
  batches.foldlM (fun file batch =>
    (evaluateWatchdog divide (batch.input thresholds) file).map fun r => some r.2) file

/-- The recall outcomes of all batches. -/
def allRecalls (batches : List WatchdogBatch) : List Text :=
  recallsOf (batches.flatMap fun batch => batch.events)

/-- The last of the batches leaves in the file what it wrote: the window of all recall outcomes so
far, and the reasons that these and its own documents give. -/
structure WindowKept (divide : ℕ → ℕ → ℚ) (thresholds : Thresholds) (before : List WatchdogBatch)
    (batch : WatchdogBatch) (text : Text) (state : WatchdogState) : Prop where
  run : runBatches divide thresholds none (before ++ [batch]) = .ok (some text)
  written : writeState state = .ok text
  read : readState (some text) = .ok state
  outcomes : state.recallOutcomes =
    lastOutcomes thresholds.recallWindow (allRecalls (before ++ [batch]))
  reasons : state.activeReasons = ordered
    (currentReasons divide thresholds batch.status batch.canary state.recallOutcomes)

/-- Every evaluation of the sequence keeps the window. -/
def SurvivesBatches (divide : ℕ → ℕ → ℚ) (thresholds : Thresholds)
    (batches : List WatchdogBatch) : Prop :=
  ∀ before batch, before ++ [batch] <+: batches →
    ∃ text state, WindowKept divide thresholds before batch text state

section Batches
variable {divide : ℕ → ℕ → ℚ} {thresholds : Thresholds} {file : Option Text}
  {batches : List WatchdogBatch} {batch : WatchdogBatch}

theorem runBatches_concat : runBatches divide thresholds file (batches ++ [batch]) =
    (runBatches divide thresholds file batches).bind fun file =>
      (evaluateWatchdog divide (batch.input thresholds) file).map fun r => some r.2 := by
  unfold runBatches
  rw [List.foldlM_append]
  refine congrArg (Except.bind _) (funext fun file => ?_)
  simp only [List.foldlM_cons, List.foldlM_nil]
  cases evaluateWatchdog divide (batch.input thresholds) file <;> rfl

theorem allRecalls_concat :
    allRecalls (batches ++ [batch]) = allRecalls batches ++ recallsOf batch.events := by
  simp [allRecalls, recallsOf]

theorem length_lastOutcomes_le {window : ℤ} (h : 0 < window) (outcomes : List Text) :
    ((lastOutcomes window outcomes).length : ℤ) ≤ window := by
  rw [lastOutcomes, List.length_drop]
  omega

/-- One evaluation of readable events writes the next state, when this fits. -/
theorem evaluate_writes (divide : ℕ → ℕ → ℚ) {previous : WatchdogState} (hvalid : validateThresholds thresholds = .ok ())
    (hread : readState file = .ok previous) (hreadable : ∀ event ∈ batch.events, ¬ Unreadable event) :
    ∃ seen, seen.recallOutcomes = previous.recallOutcomes ++ recallsOf batch.events ∧
      ((batch.input thresholds).nextState divide seen).Wf ∧
      (evaluateWatchdog divide (batch.input thresholds) file).map (fun r => some r.2) =
        (writeState ((batch.input thresholds).nextState divide seen)).map some := by
  rcases observeAll_spec batch.events ⟨previous.recallOutcomes, false, false, false, false⟩ with
    ⟨⟨event, hmem, hbad⟩, -⟩ | ⟨-, seen, hobs, hadds⟩
  · exact absurd hbad (hreadable event hmem)
  · refine ⟨seen, observeAll_outcomes hobs, nextState_wf hadds (readState_wf hread).outcomes, ?_⟩
    have hseen : (batch.input thresholds).observed previous = .ok seen := hobs
    have hthresholds : validateThresholds (batch.input thresholds).thresholds = .ok () := hvalid
    rw [evaluateWatchdog_eq hread, hthresholds, hseen]
    simp only [Except.bind]
    cases writeState ((batch.input thresholds).nextState divide seen) <;> rfl

/-- **The run keeps the window**, batch after batch. -/
theorem survives_of_fits (hdiv : ExactDivision divide)
    (hvalid : validateThresholds thresholds = .ok ()) (hfits : Fits divide thresholds)
    (hreadable : ∀ batch ∈ batches, ∀ event ∈ batch.events, ¬ Unreadable event) :
    (∃ file state, runBatches divide thresholds none batches = .ok file ∧
      readState file = .ok state ∧
      state.recallOutcomes = lastOutcomes thresholds.recallWindow (allRecalls batches)) ∧
    SurvivesBatches divide thresholds batches := by
  induction batches using List.reverseRecOn with
  | nil =>
    have hnothing : lastOutcomes thresholds.recallWindow (allRecalls []) = [] :=
      List.drop_nil
    refine ⟨⟨none, .empty, rfl, rfl, hnothing.symm⟩, ?_⟩
    intro before batch hbegins
    exact absurd (List.prefix_nil.mp hbegins) (by simp)
  | append_singleton batches batch ih =>
    obtain ⟨⟨file, previous, hrun, hread, houtcomes⟩, hkept⟩ :=
      ih fun b hb => hreadable b (List.mem_append_left _ hb)
    obtain ⟨seen, hseen, hwf, hevaluate⟩ := evaluate_writes divide hvalid hread
      (hreadable batch (by simp))
    have hwindow : ((batch.input thresholds).nextState divide seen).recallOutcomes =
        lastOutcomes thresholds.recallWindow (allRecalls (batches ++ [batch])) := by
      rw [allRecalls_concat, ← lastOutcomes_append, ← houtcomes, ← hseen]
      rfl
    have hlen := length_lastOutcomes_le (validThresholds_of_ok hvalid).window_pos seen.recallOutcomes
    have hwrite : writeState ((batch.input thresholds).nextState divide seen) =
        .ok (encodeState ((batch.input thresholds).nextState divide seen)) := by
      have hsize := encodeState_le batch.status batch.canary hdiv (validThresholds_of_ok hvalid)
        hfits hwf.outcomes hlen
      exact if_neg (not_lt.mpr hsize)
    have hlast : WindowKept divide thresholds batches batch
        (encodeState ((batch.input thresholds).nextState divide seen))
        ((batch.input thresholds).nextState divide seen) := by
      refine ⟨?_, hwrite, readState_writeState hwf hwrite, hwindow, rfl⟩
      rw [runBatches_concat, hrun, Except.bind, hevaluate, hwrite]
      rfl
    refine ⟨⟨_, _, hlast.run, hlast.read, hwindow⟩, ?_⟩
    intro before batch' hbegins
    rcases List.prefix_concat_iff.mp hbegins with heq | hbegins
    · obtain ⟨rfl, hsame⟩ := List.append_inj' heq rfl
      obtain rfl : batch' = batch := by simpa using hsame
      exact ⟨_, _, hlast⟩
    · exact hkept before batch' hbegins

/-! ## Windows that do not fit -/

/-- A recall event with the given outcome. -/
def recallEvent (outcome : Text) : Mapping :=
  ⟨[("event".toList, .str RECALL_EVENT), ("outcome".toList, .str outcome)],
    (by decide : ["event".toList, "outcome".toList].Nodup)⟩

/-- One batch of recalls while status and canary fail. -/
def recallBatch (outcomes : List Text) : WatchdogBatch :=
  ⟨.empty, .empty, outcomes.map recallEvent⟩

theorem recallsOf_recallEvents {outcomes : List Text} (h : ∀ t ∈ outcomes, t ∈ RECALL_OUTCOMES) :
    recallsOf (outcomes.map recallEvent) = outcomes := by
  induction outcomes with
  | nil => rfl
  | cons t outcomes ih =>
    obtain ⟨ht, hrest⟩ := List.forall_mem_cons.mp h
    have hone : recallOutcome? (recallEvent t) = some t :=
      recallOutcome?_eq_some.mpr ⟨rfl, rfl, ht⟩
    have hmany := ih hrest
    rw [recallsOf] at hmany ⊢
    rw [List.map_cons, List.filterMap_cons, hone, hmany]

theorem readable_recallEvents (outcomes : List Text) :
    ∀ event ∈ outcomes.map recallEvent, ¬ Unreadable event := by
  intro event hmem
  obtain ⟨t, -, rfl⟩ := List.mem_map.mp hmem
  have hnamed : Named (recallEvent t) RECALL_EVENT := rfl
  rintro (⟨-, hc⟩ | ⟨hname, -⟩)
  · exact not_collection_str t hc
  · exact absurd (hnamed.eq hname) (by decide)

/-- A window whose state does not fit the file is not kept. -/
theorem not_survives {outcomes : List Text} (hknown : ∀ t ∈ outcomes, t ∈ RECALL_OUTCOMES)
    (hlen : outcomes.length = thresholds.recallWindow)
    (hbig : MAX_STATE_BYTES < utf8Len (encodeState
      ⟨ordered (currentReasons divide thresholds .empty .empty outcomes), outcomes⟩)) :
    ¬ SurvivesBatches divide thresholds [recallBatch outcomes] := by
  intro hkept
  obtain ⟨text, state, h⟩ := hkept [] (recallBatch outcomes) (by simp)
  have hfull : lastOutcomes thresholds.recallWindow outcomes = outcomes := by
    have hzero : outcomes.length - thresholds.recallWindow.toNat = 0 := by omega
    rw [lastOutcomes, hzero, List.drop_zero]
  have houtcomes : state.recallOutcomes = outcomes := by
    have hrecalls : allRecalls ([] ++ [recallBatch outcomes]) = outcomes := by
      simp [allRecalls, recallBatch, recallsOf_recallEvents hknown]
    rw [h.outcomes, hrecalls, hfull]
  have hstate : state =
      ⟨ordered (currentReasons divide thresholds .empty .empty outcomes), outcomes⟩ := by
    have hreasons := h.reasons
    rw [houtcomes] at hreasons
    cases state
    simp only at houtcomes hreasons
    rw [houtcomes, hreasons]
    rfl
  have hwritten := h.written
  rw [hstate, writeState, if_pos hbig] at hwritten
  cases hwritten

/-- Reasons that hold take no more than the reasons found. -/
theorem le_reasonBytes {reasons : List AlertReason} (present : List AlertReason)
    (h : ∀ r ∈ present, r ∈ reasons) :
    listBytes (reasonTexts (REASON_ORDER.filter (· ∈ present))) ≤
      listBytes (reasonTexts (ordered reasons)) := by
  refine listBytes_sublist (List.Sublist.map _ ?_)
  refine List.monotone_filter_right _ fun r hr => ?_
  exact decide_eq_true (h r (of_decide_eq_true hr))

/-- What a failed status and canary add to the rates that are elevated. -/
theorem failing_reasons {outcomes : List Text} {r : AlertReason}
    (h : r = .localStatusDegraded ∨ r = .e2eFailed) :
    r ∈ currentReasons divide thresholds .empty .empty outcomes := by
  rcases h with rfl | rfl
  · exact mem_currentReasons.mpr (.inl ⟨rfl, rfl⟩)
  · exact mem_currentReasons.mpr (.inr (.inr (.inr ⟨rfl, rfl⟩)))

/-- The longest outcome, as often as the window has room for it. -/
def fullOfErrors (n : ℕ) : List Text := List.replicate n "response_invalid".toList

theorem known_fullOfErrors (n : ℕ) : ∀ t ∈ fullOfErrors n, t ∈ RECALL_OUTCOMES := by
  intro t ht
  rw [List.eq_of_mem_replicate ht]
  decide

theorem recallErrorCount_fullOfErrors (n : ℕ) : recallErrorCount (fullOfErrors n) = n := by
  have herror : "response_invalid".toList ∈ RECALL_ERROR_OUTCOMES := by decide
  rw [recallErrorCount, fullOfErrors, List.countP_replicate, if_pos (decide_eq_true herror)]

theorem sum_fullOfErrors (n : ℕ) :
    ((fullOfErrors n).map fun t => t.length + 2).sum = 18 * n := by
  have hlen : "response_invalid".toList.length + 2 = 18 := by decide
  rw [fullOfErrors, List.map_replicate, hlen, List.sum_replicate, smul_eq_mul, Nat.mul_comm]

theorem not_survives_long (hdiv : ExactDivision divide)
    (hvalid : validateThresholds thresholds = .ok ()) (hlong : 425 ≤ thresholds.recallWindow) :
    ¬ SurvivesBatches divide thresholds
      [recallBatch (fullOfErrors thresholds.recallWindow.toNat)] := by
  have hvalid' := validThresholds_of_ok hvalid
  generalize hn : thresholds.recallWindow.toNat = n
  have hlen : (fullOfErrors n).length = n := List.length_replicate
  refine not_survives (known_fullOfErrors n) (by omega) ?_
  have herrors : ErrorsElevated divide thresholds (fullOfErrors n) := by
    refine ⟨?_, ?_⟩
    · have hsamples := hvalid'.samples_le
      omega
    · rw [recallErrorCount_fullOfErrors, hlen, hdiv.self n (by omega)]
      exact reaches_one hvalid'.error_rate
  have hpresent : ∀ r ∈ [AlertReason.localStatusDegraded, .recallErrorRateElevated, .e2eFailed],
      r ∈ currentReasons divide thresholds .empty .empty (fullOfErrors n) := by
    intro r hr
    simp only [List.mem_cons, List.not_mem_nil, or_false] at hr
    rcases hr with rfl | rfl | rfl
    · exact failing_reasons (.inl rfl)
    · exact mem_currentReasons.mpr (.inr (.inr (.inl ⟨herrors, rfl⟩)))
    · exact failing_reasons (.inr rfl)
  have hreasons := le_reasonBytes _ hpresent
  have hsixty : listBytes (reasonTexts (REASON_ORDER.filter
    (· ∈ [AlertReason.localStatusDegraded, .recallErrorRateElevated, .e2eFailed]))) = 65 := by decide
  have hsum := sum_fullOfErrors n
  rw [utf8Len_encodeState (known_fullOfErrors n)]
  simp only [MAX_STATE_BYTES, listBytes, hlen] at hreasons hsixty ⊢
  omega

/-- One timeout, and the longest outcome otherwise. -/
def oneTimeout : List Text := "timeout".toList :: fullOfErrors 423

theorem not_survives_oneTimeout (hvalid : validateThresholds thresholds = .ok ())
    (hwindow : thresholds.recallWindow = 424)
    (htimeout : reaches (divide 1 424) thresholds.recallTimeoutRate = true)
    (herror : reaches (divide 423 424) thresholds.recallErrorRate = true) :
    ¬ SurvivesBatches divide thresholds [recallBatch oneTimeout] := by
  have hsamples := (validThresholds_of_ok hvalid).samples_le
  have hknown : ∀ t ∈ oneTimeout, t ∈ RECALL_OUTCOMES :=
    List.forall_mem_cons.mpr ⟨by decide, known_fullOfErrors 423⟩
  have hlen : oneTimeout.length = 424 := by
    rw [oneTimeout, List.length_cons, fullOfErrors, List.length_replicate]
  have herrorCount : recallErrorCount oneTimeout = 423 := by
    have hnot : "timeout".toList ∉ RECALL_ERROR_OUTCOMES := by decide
    have hrest := recallErrorCount_fullOfErrors 423
    rw [recallErrorCount] at hrest
    rw [recallErrorCount, oneTimeout, List.countP_cons, hrest, if_neg (by simpa using hnot)]
  have htimeoutCount : recallTimeoutCount oneTimeout = 1 := by
    have hnone : (fullOfErrors 423).countP (· = "timeout".toList) = 0 := by
      rw [fullOfErrors, List.countP_replicate, if_neg (by simp)]
    rw [recallTimeoutCount, oneTimeout, List.countP_cons, hnone, if_pos (by simp)]
  have htimeouts : TimeoutsElevated divide thresholds oneTimeout := by
    unfold TimeoutsElevated
    rw [htimeoutCount, hlen]
    exact ⟨by omega, htimeout⟩
  have herrors : ErrorsElevated divide thresholds oneTimeout := by
    unfold ErrorsElevated
    rw [herrorCount, hlen]
    exact ⟨by omega, herror⟩
  have hsum : (oneTimeout.map fun t => t.length + 2).sum = 7623 := by
    have hfirst : "timeout".toList.length + 2 = 9 := by decide
    rw [oneTimeout, List.map_cons, List.sum_cons, sum_fullOfErrors, hfirst]
  generalize oneTimeout = outcomes at hknown hlen htimeouts herrors hsum ⊢
  refine not_survives hknown (by omega) ?_
  have hpresent : ∀ r ∈ REASON_ORDER.filter fun r => r.isNew = false,
      r ∈ currentReasons divide thresholds .empty .empty outcomes := by
    have hfour : (REASON_ORDER.filter fun r => r.isNew = false) = [.localStatusDegraded,
        .recallTimeoutRateElevated, .recallErrorRateElevated, .e2eFailed] := by decide
    rw [hfour]
    intro r hr
    simp only [List.mem_cons, List.not_mem_nil, or_false] at hr
    rcases hr with rfl | rfl | rfl | rfl
    · exact failing_reasons (.inl rfl)
    · exact mem_currentReasons.mpr (.inr (.inl ⟨htimeouts, rfl⟩))
    · exact mem_currentReasons.mpr (.inr (.inr (.inl ⟨herrors, rfl⟩)))
    · exact failing_reasons (.inr rfl)
  have hreasons := le_reasonBytes _ hpresent
  have hninetySix : listBytes (reasonTexts (REASON_ORDER.filter
    (· ∈ REASON_ORDER.filter fun r => r.isNew = false))) = 96 := by decide
  rw [utf8Len_encodeState hknown]
  simp only [MAX_STATE_BYTES, listBytes, hlen] at hreasons hninetySix ⊢
  omega

/-- **The recall window survives persistence** through every sequence of readable batches exactly
under the thresholds whose windows fit. -/
theorem window_survives (hdiv : ExactDivision divide)
    (hvalid : validateThresholds thresholds = .ok ()) :
    (∀ batches : List WatchdogBatch,
      (∀ batch ∈ batches, ∀ event ∈ batch.events, ¬ Unreadable event) →
        SurvivesBatches divide thresholds batches) ↔ Fits divide thresholds := by
  have hreadable : ∀ outcomes, ∀ batch ∈ [recallBatch outcomes], ∀ event ∈ batch.events,
      ¬ Unreadable event := by
    intro outcomes batch hbatch
    obtain rfl := List.mem_singleton.mp hbatch
    exact readable_recallEvents outcomes
  constructor
  · intro hall
    by_contra hnot
    rcases lt_or_ge thresholds.recallWindow 425 with hlt | hlong
    · -- what is left is the window of 424 with both rates in reach
      have hwindow : thresholds.recallWindow = 424 := by
        by_contra hne
        exact hnot (.inl (by omega))
      have hrates : reaches (divide 1 424) thresholds.recallTimeoutRate = true ∧
          reaches (divide 423 424) thresholds.recallErrorRate = true := by
        by_contra hrates
        exact hnot (.inr ⟨hwindow, hrates⟩)
      exact not_survives_oneTimeout hvalid hwindow hrates.1 hrates.2 (hall _ (hreadable _))
    · exact not_survives_long hdiv hvalid hlong (hall _ (hreadable _))
  · intro hfits batches hbatches
    exact (survives_of_fits hdiv hvalid hfits hbatches).2

end Batches

/-- Division without rounding. -/
theorem exactDivision_rat : ExactDivision fun a b => (a : ℚ) / b where
  zero n := by simp
  self n hn := div_self (by exact_mod_cast hn.ne')

theorem window_survives_default : SurvivesBatches (fun a b => (a : ℚ) / b)
    ⟨10, .finite (1 / 5), .finite (1 / 5), 100⟩ [recallBatch ["timeout"], recallBatch ["success"]] := by
  have hvalid : validateThresholds ⟨10, .finite (1 / 5), .finite (1 / 5), 100⟩ = .ok () := by
    decide +kernel
  refine (window_survives exactDivision_rat hvalid).mpr (.inl (by decide)) _ ?_
  intro batch hbatch
  simp only [List.mem_cons, List.not_mem_nil, or_false] at hbatch
  rcases hbatch with rfl | rfl
  · exact readable_recallEvents _
  · exact readable_recallEvents _

theorem window_lost : ¬ ∀ (divide : ℕ → ℕ → ℚ) (thresholds : Thresholds),
    ExactDivision divide → validateThresholds thresholds = .ok () →
      ∀ batches : List WatchdogBatch,
        (∀ batch ∈ batches, ∀ event ∈ batch.events, ¬ Unreadable event) →
          SurvivesBatches divide thresholds batches := by
  intro hall
  have hvalid : validateThresholds ⟨10, .finite (1 / 5), .finite (1 / 5), 425⟩ = .ok () := by
    decide +kernel
  refine not_survives_long exactDivision_rat hvalid (by decide)
    (hall _ _ exactDivision_rat hvalid _ ?_)
  intro batch hbatch
  obtain rfl := List.mem_singleton.mp hbatch
  exact readable_recallEvents _

end BetterHindsight
