import BetterHindsight.Foundations.Runs
import BetterHindsight.Watchdog.Events

/-! # The watchdog's stream of outputs

Evaluations one after the other, and an observer that sees their outputs only. The state file reads
back as it was written (`readState_writeState`), so an evaluation compares with the reasons that the
previous one found. -/

namespace BetterHindsight
set_option autoImplicit false

/-! ## The state file -/

/-- The reasons and the outcomes that an evaluation can write. -/
structure WatchdogState.Wf (state : WatchdogState) : Prop where
  reasons : ordered state.activeReasons = state.activeReasons
  outcomes : ∀ t ∈ state.recallOutcomes, t ∈ RECALL_OUTCOMES

theorem ordered_filter (p : AlertReason → Bool) :
    ordered (REASON_ORDER.filter p) = REASON_ORDER.filter p := by
  apply List.filter_congr
  intro reason hmem
  simp [hmem]

theorem of_map_eq_ok {ε α β : Type} {f : α → β} {x : Except ε α} {b : β} (h : x.map f = .ok b) :
    ∃ a, x = .ok a ∧ f a = b := by
  cases x with
  | error e => cases h
  | ok a =>
    cases h
    exact ⟨a, rfl, rfl⟩

theorem safeOutcomes_strings {outcomes : List Text} (h : ∀ t ∈ outcomes, t ∈ RECALL_OUTCOMES) :
    safeOutcomes (outcomes.map .str) = .ok outcomes := by
  induction outcomes with
  | nil => rfl
  | cons t outcomes ih =>
    obtain ⟨ht, hrest⟩ := List.forall_mem_cons.mp h
    have hin : inSet (some (.str t)) RECALL_OUTCOMES = .ok true := by simp [inSet, ht]
    rw [List.map_cons, safeOutcomes, hin, ih hrest]
    rfl

theorem safeOutcomes_known {outcomes : List Json} {safe : List Text}
    (h : safeOutcomes outcomes = .ok safe) : ∀ t ∈ safe, t ∈ RECALL_OUTCOMES := by
  induction outcomes generalizing safe with
  | nil =>
    cases h
    exact nofun
  | cons outcome outcomes ih =>
    rcases inSet_cases (some outcome) RECALL_OUTCOMES with
      ⟨-, hin⟩ | ⟨-, ⟨t, ht, hv⟩, hin⟩ | ⟨-, -, hin⟩
    · rw [safeOutcomes, hin] at h
      cases h
    · cases hv
      rw [safeOutcomes, hin] at h
      obtain ⟨rest, hrest, rfl⟩ := of_map_eq_ok h
      exact List.forall_mem_cons.mpr ⟨ht, ih hrest⟩
    · rw [safeOutcomes, hin] at h
      obtain ⟨rest, hrest, rfl⟩ := of_map_eq_ok h
      intro t ht
      exact ih hrest t (by cases outcome <;> exact ht)

theorem value_injective : Function.Injective AlertReason.value := by
  intro a b h
  cases a <;> cases b <;> first | rfl | exact absurd h (by decide)

theorem distinct_strings (texts : List Text) : (Json.arr (texts.map .str)).Distinct := by
  refine .arr fun v hv => ?_
  obtain ⟨t, -, rfl⟩ := List.mem_map.mp hv
  exact .str t

theorem sorted_strings (texts : List Text) :
    (Json.arr (texts.map .str)).sorted = .arr (texts.map .str) := by
  rw [Json.sorted, Json.sortedItems_eq_map, List.map_map]
  rfl

theorem loads_encodeState (state : WatchdogState) :
    Json.loads (encodeState state) = some (.obj
      [("active_reasons".toList, .arr ((state.activeReasons.map AlertReason.value).map .str)),
        ("recall_outcomes".toList, .arr (state.recallOutcomes.map .str)),
        ("version".toList, .int 1)]) := by
  have hreasons : state.activeReasons.map (fun reason => Json.str reason.value) =
      (state.activeReasons.map AlertReason.value).map .str := by
    rw [List.map_map]
    rfl
  rw [encodeState, hreasons, Json.loads_dumps Json.quotes_ascii]
  · rw [Json.sorted, Json.sortedFields_eq_map, List.map_cons, List.map_cons, List.map_cons,
      List.map_nil, sorted_strings, sorted_strings, Json.sortKeys_of_sorted]
    · rfl
    · exact (by decide : ["active_reasons".toList, "recall_outcomes".toList,
        "version".toList].Pairwise (· ≤ ·))
  · have hnodup : ["active_reasons".toList, "recall_outcomes".toList, "version".toList].Nodup := by
      decide
    refine .obj hnodup ?_
    simp only [List.forall_mem_cons]
    exact ⟨distinct_strings _, distinct_strings _, .int 1, List.forall_mem_nil _⟩

theorem readState_writeState {state : WatchdogState} {text : Text} (hwf : state.Wf)
    (h : writeState state = .ok text) : readState (some text) = .ok state := by
  unfold writeState at h
  split at h
  · cases h
  · rename_i hsize
    cases h
    have hreasons : ∀ reason : AlertReason, ((state.activeReasons.map AlertReason.value).map
        Json.str).any (fun r => isText (some r) reason.value) =
          decide (reason ∈ state.activeReasons) := by
      intro reason
      rw [List.any_map, List.any_map, Bool.eq_iff_iff, List.any_eq_true, decide_eq_true_iff]
      constructor
      · rintro ⟨r, hr, heq⟩
        obtain rfl : r = reason := value_injective (by simpa [isText] using heq)
        exact hr
      · intro hr
        exact ⟨reason, hr, by simp [isText]⟩
    have hlookup : ("recall_outcomes".toList == "active_reasons".toList) = false := by decide
    simp only [readState, if_neg hsize, loads_encodeState, List.lookup, beq_self_eq_true, hlookup,
      safeOutcomes_strings hwf.outcomes, hreasons, Except.map]
    have hactive : REASON_ORDER.filter (fun reason => decide (reason ∈ state.activeReasons)) =
        state.activeReasons := hwf.reasons
    rw [hactive]

theorem WatchdogState.Wf.empty : WatchdogState.empty.Wf := ⟨rfl, nofun⟩

/-- What is read is what an evaluation can write. -/
theorem readState_wf {file : Option Text} {state : WatchdogState} (h : readState file = .ok state) :
    state.Wf := by
  unfold readState at h
  split at h
  · cases h
    exact .empty
  · split at h
    · cases h
      exact .empty
    · split at h
      · split at h
        · obtain ⟨safe, hsafe, rfl⟩ := of_map_eq_ok h
          refine ⟨?_, safeOutcomes_known hsafe⟩
          dsimp only
          exact ordered_filter _
        · cases h
          exact .empty
      · cases h
        exact .empty

/-! ## One evaluation -/

/-- The reasons that only new events report. -/
def AlertReason.isNew : AlertReason → Bool
  | newRetentionFailure => true
  | newAdapterContractFailure => true
  | newSenderLoopFailure => true
  | newClientLifecycleFailure => true
  | _ => false

theorem Reports.isNew {event : Mapping} {r : AlertReason} (h : Reports event r) :
    r.isNew = true := by
  cases h <;> rfl

theorem mem_ordered {r : AlertReason} {reasons : List AlertReason} :
    r ∈ ordered reasons ↔ r ∈ reasons := by
  have hmem : r ∈ REASON_ORDER := by cases r <;> decide
  simp [ordered, hmem]

theorem nodup_ordered (reasons : List AlertReason) : (ordered reasons).Nodup :=
  (by decide : REASON_ORDER.Nodup).filter _

theorem ordered_eq_nil {reasons : List AlertReason} : ordered reasons = [] ↔ reasons = [] := by
  simp only [List.eq_nil_iff_forall_not_mem, mem_ordered]

theorem ordered_ordered (reasons : List AlertReason) :
    ordered (ordered reasons) = ordered reasons :=
  ordered_filter _

theorem isNew_currentReasons {divide : ℕ → ℕ → ℚ} {thresholds : Thresholds}
    {status canary : Mapping} {recallOutcomes : List Text} {r : AlertReason}
    (h : r ∈ currentReasons divide thresholds status canary recallOutcomes) : r.isNew = false := by
  simp only [currentReasons, List.mem_append, List.mem_ite_nil_left, List.mem_ite_nil_right,
    List.mem_singleton] at h
  obtain ((⟨-, rfl⟩ | ⟨-, rfl⟩) | ⟨-, rfl⟩) | ⟨-, rfl⟩ := h <;> rfl

section Evaluation
variable {divide : ℕ → ℕ → ℚ} {input : WatchdogInput} {file : Option Text}
  {previous : WatchdogState}

/-- An evaluation that returns has read every event, and it compares with the state it read. -/
structure Evaluated (input : WatchdogInput) (previous : WatchdogState)
    (result : Option WatchdogResult) (file : Option Text) : Prop where
  readable : ∀ event ∈ input.events, ¬ Unreadable event
  compares : ∃ state newReasons, readState file = .ok state ∧
    (∀ r ∈ state.activeReasons, r.isNew = false) ∧
    (∀ r, r ∈ newReasons ↔ ∃ event ∈ input.events, Reports event r) ∧
    result = transition previous.activeReasons state.activeReasons newReasons

/-- What the events of an evaluation add up to. -/
def WatchdogInput.observed (input : WatchdogInput) (previous : WatchdogState) :
    Except WatchdogError Observed :=
  observeAll input.events ⟨previous.recallOutcomes, false, false, false, false⟩

/-- The state that an evaluation writes. -/
def WatchdogInput.nextState (divide : ℕ → ℕ → ℚ) (input : WatchdogInput) (seen : Observed) :
    WatchdogState :=
  let recallOutcomes := lastOutcomes input.thresholds.recallWindow seen.recallOutcomes
  ⟨ordered (currentReasons divide input.thresholds input.status input.canary recallOutcomes),
    recallOutcomes⟩

theorem evaluateWatchdog_eq (hread : readState file = .ok previous) :
    evaluateWatchdog divide input file =
      (validateThresholds input.thresholds).bind fun _ =>
        (input.observed previous).bind fun seen =>
          (writeState (input.nextState divide seen)).map fun text =>
            (transition previous.activeReasons (input.nextState divide seen).activeReasons
              seen.newReasons, text) := by
  simp only [evaluateWatchdog, hread, bind, Except.bind, pure, Except.pure,
    WatchdogInput.observed, WatchdogInput.nextState]
  cases validateThresholds input.thresholds with
  | error e => simp only
  | ok u =>
    simp only
    generalize observeAll input.events _ = seen
    cases seen with
    | error e => simp only
    | ok seen =>
      simp only
      generalize writeState _ = written
      cases written <;> rfl

theorem nextState_wf {seen seen' : Observed} {events : List Mapping}
    (hadds : Adds seen seen' events) (h : ∀ t ∈ seen.recallOutcomes, t ∈ RECALL_OUTCOMES) :
    (input.nextState divide seen').Wf where
  reasons := ordered_ordered _
  outcomes := by
    intro t ht
    rcases hadds.outcomes t (List.mem_of_mem_drop ht) with ht | ht
    · exact h t ht
    · exact ht

theorem evaluate_returns {result : Option WatchdogResult} {text : Text}
    (hread : readState file = .ok previous)
    (h : evaluateWatchdog divide input file = .ok (result, text)) :
    Evaluated input previous result (some text) := by
  rw [evaluateWatchdog_eq hread] at h
  cases hv : validateThresholds input.thresholds with
  | error e =>
    rw [hv] at h
    cases h
  | ok u =>
    rw [hv, Except.bind] at h
    rcases observeAll_spec input.events ⟨previous.recallOutcomes, false, false, false, false⟩ with
      ⟨-, hobs⟩ | ⟨hreadable, seen, hobs, hadds⟩
    · rw [WatchdogInput.observed, hobs] at h
      cases h
    · rw [WatchdogInput.observed, hobs, Except.bind] at h
      obtain ⟨text', hwrite, heq⟩ := of_map_eq_ok h
      cases heq
      have hwf : (input.nextState divide seen).Wf :=
        nextState_wf hadds (readState_wf hread).outcomes
      refine ⟨hreadable, _, seen.newReasons, readState_writeState hwf hwrite, ?_, ?_, rfl⟩
      · intro r hr
        exact isNew_currentReasons (mem_ordered.mp hr)
      · intro r
        rw [hadds.reasons]
        simp [mem_newReasons]

theorem validateThresholds_ne_typeError (thresholds : Thresholds) :
    validateThresholds thresholds ≠ .error .typeError := by
  unfold validateThresholds
  split_ifs <;> nofun

theorem writeState_ne_typeError (state : WatchdogState) :
    writeState state ≠ .error .typeError := by
  unfold writeState
  split_ifs <;> nofun

theorem evaluate_raises (hread : readState file = .ok previous)
    (h : evaluateWatchdog divide input file = .error .typeError) :
    ∃ event ∈ input.events, Unreadable event := by
  rw [evaluateWatchdog_eq hread] at h
  cases hv : validateThresholds input.thresholds with
  | error e =>
    rw [hv] at h
    cases h
    exact absurd hv (validateThresholds_ne_typeError _)
  | ok u =>
    rw [hv, Except.bind] at h
    rcases observeAll_spec input.events ⟨previous.recallOutcomes, false, false, false, false⟩ with
      ⟨hunreadable, -⟩ | ⟨-, seen, hobs, -⟩
    · exact hunreadable
    · rw [WatchdogInput.observed, hobs, Except.bind] at h
      cases hw : writeState (input.nextState divide seen) with
      | error e =>
        rw [hw] at h
        cases h
        exact absurd hw (writeState_ne_typeError _)
      | ok text =>
        rw [hw] at h
        cases h

end Evaluation

/-! ## The observer -/

/-- The set that an observer keeps: the reasons of an alert that are not new ones, nothing after a
recovery. -/
def applyOutput (active : Finset AlertReason) : Option WatchdogResult → Finset AlertReason
  | some (.alert reasons _) => (reasons.filter fun r => r.isNew = false).toFinset
  | some .recovered => ∅
  | none => active

/-- How often an output lists `r` as a reason that the observer does not hold. -/
def announced (active : Finset AlertReason) (r : AlertReason) : Option WatchdogResult → ℕ
  | some (.alert reasons _) => if r ∈ active then 0 else reasons.count r
  | _ => 0

/-- How often an output reports that `r` is gone. -/
def reportedGone (active : Finset AlertReason) (r : AlertReason) : Option WatchdogResult → ℕ
  | some (.alert _ resolvedReasons) => resolvedReasons.count r
  | some .recovered => if r ∈ active then 1 else 0
  | none => 0

/-- The output is an alert that names `r`. -/
def Names (r : AlertReason) (output : Option WatchdogResult) : Prop :=
  ∃ reasons resolvedReasons, output = some (.alert reasons resolvedReasons) ∧ r ∈ reasons

section Transition
variable {previous persistent new : List AlertReason}

/-- The cases of a transition. -/
theorem transition_cases (previous persistent new : List AlertReason) :
    (new = [] ∧ persistent = previous ∧ transition previous persistent new = none) ∨
    (persistent = [] ∧ new = [] ∧ transition previous persistent new = some .recovered) ∨
    transition previous persistent new = some (.alert (ordered (persistent ++ new))
      (previous.filter (· ∉ persistent))) := by
  unfold transition
  by_cases hreasons : ordered (persistent ++ new) = []
  · obtain ⟨rfl, rfl⟩ := List.append_eq_nil_iff.mp (ordered_eq_nil.mp hreasons)
    by_cases hprev : previous = []
    · subst hprev
      exact .inl ⟨rfl, rfl, rfl⟩
    · refine .inr (.inl ⟨rfl, rfl, ?_⟩)
      simp only [ne_eq, hreasons, not_true_eq_false, if_false, hprev, not_false_eq_true, if_true]
  · by_cases hsame : new = [] ∧ persistent = previous
    · refine .inl ⟨hsame.1, hsame.2, ?_⟩
      rw [if_pos hreasons, if_pos hsame]
    · refine .inr (.inr ?_)
      rw [if_pos hreasons, if_neg hsame]

theorem applyOutput_transition (hpersistent : ∀ r ∈ persistent, r.isNew = false)
    (hnew : ∀ r ∈ new, r.isNew = true) :
    applyOutput previous.toFinset (transition previous persistent new) = persistent.toFinset := by
  rcases transition_cases previous persistent new with
    ⟨-, rfl, h⟩ | ⟨rfl, -, h⟩ | h
  · rw [h, applyOutput]
  · rw [h]
    rfl
  · rw [h, applyOutput]
    ext r
    simp only [List.mem_toFinset, List.mem_filter, mem_ordered, List.mem_append,
      decide_eq_true_eq]
    constructor
    · rintro ⟨hr | hr, hnot⟩
      · exact hr
      · rw [hnew r hr] at hnot
        cases hnot
    · intro hr
      exact ⟨.inl hr, hpersistent r hr⟩

theorem announced_transition (hnew : ∀ r ∈ new, r.isNew = true) {r : AlertReason}
    (hr : r.isNew = false) :
    announced previous.toFinset r (transition previous persistent new) =
      if r ∈ persistent ∧ r ∉ previous then 1 else 0 := by
  rcases transition_cases previous persistent new with
    ⟨-, rfl, h⟩ | ⟨rfl, -, h⟩ | h
  · simp [h, announced]
  · simp [h, announced]
  · have hnot : r ∉ new := fun hmem => by
      rw [hnew r hmem] at hr
      cases hr
    rw [h, announced, (nodup_ordered _).count]
    by_cases hprev : r ∈ previous <;> simp [mem_ordered, hprev, hnot]

theorem reportedGone_transition (hprevious : previous.Nodup) (r : AlertReason) :
    reportedGone previous.toFinset r (transition previous persistent new) =
      if r ∈ previous ∧ r ∉ persistent then 1 else 0 := by
  rcases transition_cases previous persistent new with
    ⟨-, rfl, h⟩ | ⟨rfl, -, h⟩ | h
  · simp [h, reportedGone]
  · simp [h, reportedGone]
  · rw [h, reportedGone, (hprevious.filter _).count]
    simp

theorem names_transition {r : AlertReason} (hr : r ∈ new) :
    Names r (transition previous persistent new) := by
  rcases transition_cases previous persistent new with
    ⟨rfl, -, -⟩ | ⟨-, rfl, -⟩ | h
  · exact absurd hr List.not_mem_nil
  · exact absurd hr List.not_mem_nil
  · exact ⟨_, _, h, mem_ordered.mpr (List.mem_append_right _ hr)⟩

end Transition

/-! ## Evaluations one after the other -/

/-- The state file, the last output and the observer's set. -/
structure WatchdogWorld where
  file : Option Text
  output : Option WatchdogResult
  observer : Finset AlertReason

/-- One evaluation. One that raises `TypeError` has no output and leaves the file. `ValueError`, for
thresholds that are not valid and for a state that cannot be written, is no step. -/
inductive WatchdogStep (divide : ℕ → ℕ → ℚ) : WatchdogWorld → WatchdogInput → WatchdogWorld → Prop
  | returns {w : WatchdogWorld} {input : WatchdogInput} {result : Option WatchdogResult}
      {text : Text}
      (h : evaluateWatchdog divide input w.file = .ok (result, text)) :
      WatchdogStep divide w input ⟨some text, result, applyOutput w.observer result⟩
  | raises {w : WatchdogWorld} {input : WatchdogInput}
      (h : evaluateWatchdog divide input w.file = .error .typeError) :
      WatchdogStep divide w input ⟨w.file, none, w.observer⟩

/-- The persisted `active_reasons`. -/
def persisted (file : Option Text) : List AlertReason :=
  match readState file with
  | .ok state => state.activeReasons
  | .error _ => []

/-- What the outputs promise of one evaluation. -/
structure StreamFaithful (e : Transition WatchdogWorld WatchdogInput) : Prop where
  held : e.after.observer = (persisted e.after.file).toFinset
  onset : ∀ r : AlertReason, r.isNew = false →
    announced e.before.observer r e.after.output =
      if r ∈ persisted e.after.file ∧ r ∉ persisted e.before.file then 1 else 0
  gone : ∀ r : AlertReason, reportedGone e.before.observer r e.after.output =
    if r ∈ persisted e.before.file ∧ r ∉ persisted e.after.file then 1 else 0
  transient : ∀ event ∈ e.label.events, ∀ r, Reports event r → Names r e.after.output

/-- A transient failure and an unreadable event come to one evaluation. -/
def FailureUnreported (events : List Mapping) : Prop :=
  (∃ event ∈ events, Unreadable event) ∧ ∃ event ∈ events, ∃ r, Reports event r

/-- The file is readable, and the observer holds what it says. -/
def WatchdogWorld.Synced (w : WatchdogWorld) : Prop :=
  ∃ state, readState w.file = .ok state ∧ w.observer = state.activeReasons.toFinset

theorem persisted_eq {file : Option Text} {state : WatchdogState} (h : readState file = .ok state) :
    persisted file = state.activeReasons := by
  rw [persisted, h]

theorem WatchdogWorld.Synced.observer {w : WatchdogWorld} (h : w.Synced) :
    w.observer = (persisted w.file).toFinset := by
  obtain ⟨state, hread, hobs⟩ := h
  rw [persisted_eq hread, hobs]

theorem nodup_persisted (file : Option Text) : (persisted file).Nodup := by
  unfold persisted
  split
  · rename_i state h
    rw [← (readState_wf h).reasons]
    exact nodup_ordered _
  · exact List.nodup_nil

section Steps
variable {divide : ℕ → ℕ → ℚ} {w w' : WatchdogWorld} {input : WatchdogInput}

/-- One step keeps observer and file together. It is faithful unless it raises over a failure. -/
theorem watchdogStep_spec (hsynced : w.Synced) (h : WatchdogStep divide w input w') :
    w'.Synced ∧ (StreamFaithful ⟨w, input, w'⟩ ↔ ¬ FailureUnreported input.events) := by
  obtain ⟨previous, hread, hobs⟩ := hsynced
  have hprev := persisted_eq hread
  cases h with
  | @returns result text heval =>
    obtain ⟨hreadable, state, new, hstate, hpersistent, hnew, rfl⟩ := evaluate_returns hread heval
    have hisNew : ∀ r ∈ new, r.isNew = true := by
      intro r hr
      obtain ⟨event, -, hreports⟩ := (hnew r).mp hr
      exact hreports.isNew
    have happly : applyOutput previous.activeReasons.toFinset _ = _ :=
      applyOutput_transition hpersistent hisNew
    rw [← hobs] at happly
    refine ⟨⟨state, hstate, happly⟩, ?_⟩
    have hnodup := nodup_persisted w.file
    rw [hprev] at hnodup
    refine iff_of_true ?_ fun ⟨⟨event, hmem, hu⟩, _⟩ => hreadable event hmem hu
    refine ⟨?_, ?_, ?_, ?_⟩
    · rw [persisted_eq hstate]
      exact happly
    · intro r hr
      rw [persisted_eq hstate, hprev, hobs]
      exact announced_transition hisNew hr
    · intro r
      rw [persisted_eq hstate, hprev, hobs]
      exact reportedGone_transition hnodup r
    · intro event hmem r hr
      exact names_transition ((hnew r).mpr ⟨event, hmem, hr⟩)
  | raises heval =>
    have hunreadable := evaluate_raises hread heval
    refine ⟨⟨previous, hread, hobs⟩, ?_⟩
    constructor
    · rintro hfaithful ⟨-, event, hmem, r, hr⟩
      obtain ⟨_, _, houtput, -⟩ := hfaithful.transient event hmem r hr
      cases houtput
    · intro hnot
      refine ⟨?_, ?_, ?_, ?_⟩
      · rw [hprev]
        exact hobs
      · intro r _
        simp [announced]
      · intro r
        simp [reportedGone]
      · intro event hmem r hr
        exact absurd ⟨hunreadable, event, hmem, r, hr⟩ hnot

end Steps

/-- Over every sequence of evaluations the outputs tell the persisted reasons and every transient
failure, unless one evaluation gets a transient failure together with an unreadable event. -/
theorem stream_faithful (divide : ℕ → ℕ → ℚ) {w₀ w : WatchdogWorld} {state : WatchdogState}
    {tr : List (Transition WatchdogWorld WatchdogInput)} (hvalid : readState w₀.file = .ok state)
    (hobserver : w₀.observer = state.activeReasons.toFinset)
    (h : Run (WatchdogStep divide) w₀ tr w) :
    (∀ e ∈ tr, e.after.observer = (persisted e.after.file).toFinset) ∧
      ((∀ e ∈ tr, StreamFaithful e) ↔ ∀ e ∈ tr, ¬ FailureUnreported e.label.events) := by
  have hat := Run.invariant_at (I := WatchdogWorld.Synced) h ⟨state, hvalid, hobserver⟩
    fun a l b ha hl => (watchdogStep_spec ha hl).1
  refine ⟨fun e he => ?_, forall₂_congr fun e he => ?_⟩
  · obtain ⟨hbefore, hstep⟩ := hat e he
    exact (watchdogStep_spec hbefore hstep).1.observer
  · obtain ⟨hbefore, hstep⟩ := hat e he
    exact (watchdogStep_spec hbefore hstep).2

/-- An evaluation whose only news is that the canary fails. -/
def canaryFails : WatchdogInput where
  status := ⟨[("result".toList, .str "ok")], by decide⟩
  canary := .empty
  events := []
  thresholds := ⟨10, .finite 1, .finite 1, 100⟩

theorem evaluate_canaryFails : ∃ text, evaluateWatchdog (fun a b => (a : ℚ) / b) canaryFails none =
    .ok (some (.alert [.e2eFailed] []), text) :=
  ⟨encodeState ⟨[.e2eFailed], []⟩, by decide +kernel⟩

theorem stream_faithful_canaryFails : ∃ w, Run (WatchdogStep fun a b => (a : ℚ) / b)
    ⟨none, none, ∅⟩ [⟨⟨none, none, ∅⟩, canaryFails, w⟩] w ∧
      w.observer = {.e2eFailed} ∧
      StreamFaithful ⟨⟨none, none, ∅⟩, canaryFails, w⟩ := by
  obtain ⟨text, h⟩ := evaluate_canaryFails
  have hrun := Run.single (R := WatchdogStep fun a b => (a : ℚ) / b)
    (WatchdogStep.returns (w := ⟨none, none, ∅⟩) h)
  have hread : readState none = .ok .empty := rfl
  have hspec := stream_faithful _ hread rfl hrun
  refine ⟨_, hrun, rfl, hspec.2.mpr ?_ _ (List.mem_singleton_self _)⟩
  intro e he
  obtain rfl := List.mem_singleton.mp he
  rintro ⟨⟨event, hmem, -⟩, -⟩
  cases hmem

/-- A failed retention, and a recall whose outcome is a list. -/
def failureAndList : WatchdogInput where
  status := .empty
  canary := .empty
  events := [⟨[("event".toList, .str "better_hindsight.sender_attempt"),
      ("outcome".toList, .str "retain_failed")], by decide⟩,
    ⟨[("event".toList, .str "better_hindsight.recall"), ("outcome".toList, .arr [])], by decide⟩]
  thresholds := ⟨10, .finite 1, .finite 1, 100⟩

theorem stream_unfaithful : ¬ ∀ (divide : ℕ → ℕ → ℚ) (w₀ w : WatchdogWorld) (state : WatchdogState)
    (tr : List (Transition WatchdogWorld WatchdogInput)), readState w₀.file = .ok state →
      w₀.observer = state.activeReasons.toFinset → Run (WatchdogStep divide) w₀ tr w →
        ∀ e ∈ tr, StreamFaithful e := by
  intro hall
  have hraises : evaluateWatchdog (fun _ _ => 0) failureAndList none = .error .typeError := by
    decide +kernel
  have hstep : WatchdogStep (fun _ _ => 0) ⟨none, none, ∅⟩ failureAndList ⟨none, none, ∅⟩ :=
    .raises hraises
  have hfaithful := hall _ _ _ .empty _ rfl rfl (Run.single hstep) _ (List.mem_singleton_self _)
  obtain ⟨_, _, houtput, -⟩ := hfaithful.transient _ List.mem_cons_self .newRetentionFailure
    (.retention rfl (.inl ⟨_, by decide, rfl⟩))
  cases houtput

end BetterHindsight
