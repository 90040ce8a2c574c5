import BetterHindsight.Watchdog.Evaluate

/-! # What the events say to the watchdog

Which transient failure an event reports, and which events make the evaluation raise because a
value that the code looks up in a set is a list or a dict. `observeAll_spec`: the loop raises at
such an event, and otherwise adds what the events report. -/

namespace BetterHindsight
set_option autoImplicit false

def OneOf (value : Option Json) (texts : List Text) : Prop := ∃ t ∈ texts, value = some (.str t)

/-- A list or a dict, which a set cannot look up. -/
inductive Collection : Option Json → Prop
  | list (items : List Json) : Collection (some (.arr items))
  | dict (fields : List (Text × Json)) : Collection (some (.obj fields))

def Named (event : Mapping) (name : Text) : Prop := event.get? "event" = some (.str name)

/-- The event reports the transient failure `r`. -/
inductive Reports (event : Mapping) : AlertReason → Prop
  | retention : Named event "better_hindsight.sender_attempt" →
      OneOf (event.get? "outcome") RETENTION_FAILURES ∨
        OneOf (event.get? "category") RETENTION_FAILURES → Reports event .newRetentionFailure
  | adapterContract : Named event "better_hindsight.http_request" →
      OneOf (event.get? "outcome") ADAPTER_CONTRACT_FAILURES →
      Reports event .newAdapterContractFailure
  | senderLoop : Named event "better_hindsight.sender_loop" →
      OneOf (event.get? "outcome") SENDER_LOOP_FAILURES → Reports event .newSenderLoopFailure
  | clientLifecycle : Named event "better_hindsight.client_lifecycle" →
      OneOf (event.get? "outcome") LIFECYCLE_FAILURES → Reports event .newClientLifecycleFailure

def EVENT_NAMES : List Text :=
  ["better_hindsight.recall", "better_hindsight.sender_attempt", "better_hindsight.http_request",
    "better_hindsight.sender_loop", "better_hindsight.client_lifecycle"]

/-- A value that the event's name has looked up is a list or a dict. -/
def Unreadable (event : Mapping) : Prop :=
  (∃ name ∈ EVENT_NAMES, Named event name) ∧ Collection (event.get? "outcome") ∨
    Named event "better_hindsight.sender_attempt" ∧
      ¬ OneOf (event.get? "outcome") RETENTION_FAILURES ∧ Collection (event.get? "category")

theorem isText_iff {value : Option Json} {text : Text} :
    isText value text = true ↔ value = some (.str text) := by
  unfold isText
  split
  · simp
  · rename_i h
    simpa using h text

theorem isText_false {value : Option Json} {text : Text} (h : value ≠ some (.str text)) :
    isText value text = false :=
  Bool.eq_false_iff.mpr fun ht => h (isText_iff.mp ht)

theorem not_collection_str (t : Text) : ¬ Collection (some (.str t)) := by
  intro h
  cases h

/-- A lookup raises, finds the value or does not. -/
theorem inSet_cases (value : Option Json) (texts : List Text) :
    (Collection value ∧ inSet value texts = .error .typeError) ∨
    (¬ Collection value ∧ OneOf value texts ∧ inSet value texts = .ok true) ∨
    (¬ Collection value ∧ ¬ OneOf value texts ∧ inSet value texts = .ok false) := by
  match value with
  | some (.arr items) => exact .inl ⟨.list items, rfl⟩
  | some (.obj fields) => exact .inl ⟨.dict fields, rfl⟩
  | some (.str t) =>
    refine .inr ?_
    by_cases ht : t ∈ texts
    · exact .inl ⟨not_collection_str t, ⟨t, ht, rfl⟩, by simp [inSet, ht]⟩
    · refine .inr ⟨not_collection_str t, ?_, by simp [inSet, ht]⟩
      rintro ⟨t', ht', hv⟩
      cases hv
      exact ht ht'
  | none => exact .inr (.inr ⟨nofun, nofun, rfl⟩)
  | some .null => exact .inr (.inr ⟨nofun, nofun, rfl⟩)
  | some (.bool b) => exact .inr (.inr ⟨nofun, nofun, rfl⟩)
  | some (.int n) => exact .inr (.inr ⟨nofun, nofun, rfl⟩)
  | some (.float x) => exact .inr (.inr ⟨nofun, nofun, rfl⟩)

/-- What the events that were read say, after `seen`. -/
structure Adds (seen seen' : Observed) (events : List Mapping) : Prop where
  reasons : ∀ r, r ∈ seen'.newReasons ↔ r ∈ seen.newReasons ∨ ∃ event ∈ events, Reports event r
  outcomes : ∀ t ∈ seen'.recallOutcomes, t ∈ seen.recallOutcomes ∨ t ∈ RECALL_OUTCOMES

theorem mem_newReasons {seen : Observed} {r : AlertReason} :
    r ∈ seen.newReasons ↔ (r = .newRetentionFailure ∧ seen.newRetentionFailure = true) ∨
      (r = .newAdapterContractFailure ∧ seen.newAdapterContractFailure = true) ∨
      (r = .newSenderLoopFailure ∧ seen.newSenderLoopFailure = true) ∨
      (r = .newClientLifecycleFailure ∧ seen.newClientLifecycleFailure = true) := by
  simp only [Observed.newReasons, List.mem_append, List.mem_ite_nil_right, List.mem_singleton,
    or_assoc, and_comm]

theorem Adds.nothing {seen : Observed} {event : Mapping} (h : ∀ r, ¬ Reports event r) :
    Adds seen seen [event] where
  reasons r := by simp [h r]
  outcomes t ht := .inl ht

/-- An event that only sets the flag of the reason it reports. -/
theorem Adds.flag {seen seen' : Observed} {event : Mapping} {r : AlertReason}
    (hreports : ∀ r', Reports event r' ↔ r' = r)
    (hreasons : ∀ r', r' ∈ seen'.newReasons ↔ r' ∈ seen.newReasons ∨ r' = r)
    (houtcomes : seen'.recallOutcomes = seen.recallOutcomes) : Adds seen seen' [event] where
  reasons r' := by simp [hreports r', hreasons r']
  outcomes t ht := .inl (houtcomes ▸ ht)

theorem Named.eq {event : Mapping} {name name' : Text} (h : Named event name)
    (h' : Named event name') : name = name' := by
  have hnames := h.symm.trans h'
  cases hnames
  rfl

/-! ## What one event adds -/

theorem isText_named {event : Mapping} {name : Text} (h : Named event name) (text : Text) :
    isText (event.get? "event") text = (name == text) := by
  rw [h, isText]

theorem observe_recall {event : Mapping} (h : Named event "better_hindsight.recall")
    (seen : Observed) :
    observe seen event = (inSet (event.get? "outcome") RECALL_OUTCOMES).map fun known =>
      if known then { seen with
        recallOutcomes := seen.recallOutcomes ++ [outcomeText (event.get? "outcome")] }
      else seen := by
  unfold observe
  simp only [isText_named h]
  rcases inSet_cases (event.get? "outcome") RECALL_OUTCOMES with
    ⟨-, hin⟩ | ⟨-, -, hin⟩ | ⟨-, -, hin⟩ <;> rw [hin] <;> rfl

theorem observe_senderAttempt {event : Mapping} (h : Named event "better_hindsight.sender_attempt")
    (seen : Observed) :
    observe seen event = (eitherHolds (inSet (event.get? "outcome") RETENTION_FAILURES)
      (inSet (event.get? "category") RETENTION_FAILURES)).map fun found =>
        if found then { seen with newRetentionFailure := true } else seen := by
  unfold observe
  simp only [isText_named h]
  rcases inSet_cases (event.get? "outcome") RETENTION_FAILURES with
    ⟨-, hin⟩ | ⟨-, -, hin⟩ | ⟨-, -, hin⟩ <;>
    rcases inSet_cases (event.get? "category") RETENTION_FAILURES with
      ⟨-, hcat⟩ | ⟨-, -, hcat⟩ | ⟨-, -, hcat⟩ <;> rw [hin, hcat] <;> rfl

/-- The branches that look the outcome up and set one flag. -/
inductive FlagBranch : Text → List Text → AlertReason → (Observed → Observed) → Prop
  | adapterContract : FlagBranch "better_hindsight.http_request" ADAPTER_CONTRACT_FAILURES
      .newAdapterContractFailure fun seen => { seen with newAdapterContractFailure := true }
  | senderLoop : FlagBranch "better_hindsight.sender_loop" SENDER_LOOP_FAILURES
      .newSenderLoopFailure fun seen => { seen with newSenderLoopFailure := true }
  | clientLifecycle : FlagBranch "better_hindsight.client_lifecycle" LIFECYCLE_FAILURES
      .newClientLifecycleFailure fun seen => { seen with newClientLifecycleFailure := true }

section Flags
variable {event : Mapping} {name : Text} {texts : List Text} {r : AlertReason}
  {flag : Observed → Observed}

theorem observe_flag (h : Named event name) (hbranch : FlagBranch name texts r flag)
    (seen : Observed) :
    observe seen event = (inSet (event.get? "outcome") texts).map fun found =>
      if found then flag seen else seen := by
  unfold observe
  simp only [isText_named h]
  cases hbranch
  case adapterContract =>
    rcases inSet_cases (event.get? "outcome") ADAPTER_CONTRACT_FAILURES with
      ⟨-, hin⟩ | ⟨-, -, hin⟩ | ⟨-, -, hin⟩ <;> rw [hin] <;> rfl
  case senderLoop =>
    rcases inSet_cases (event.get? "outcome") SENDER_LOOP_FAILURES with
      ⟨-, hin⟩ | ⟨-, -, hin⟩ | ⟨-, -, hin⟩ <;> rw [hin] <;> rfl
  case clientLifecycle =>
    rcases inSet_cases (event.get? "outcome") LIFECYCLE_FAILURES with
      ⟨-, hin⟩ | ⟨-, -, hin⟩ | ⟨-, -, hin⟩ <;> rw [hin] <;> rfl

theorem reports_flag (h : Named event name) (hbranch : FlagBranch name texts r flag)
    (r' : AlertReason) : Reports event r' ↔ r' = r ∧ OneOf (event.get? "outcome") texts := by
  constructor
  · intro hr
    cases hbranch <;> cases hr <;> rename_i hname hone <;>
      first | exact absurd (h.eq hname) (by decide) | exact ⟨rfl, hone⟩
  · rintro ⟨rfl, hone⟩
    cases hbranch
    case adapterContract => exact .adapterContract h hone
    case senderLoop => exact .senderLoop h hone
    case clientLifecycle => exact .clientLifecycle h hone

theorem unreadable_flag (h : Named event name) (hbranch : FlagBranch name texts r flag) :
    Unreadable event ↔ Collection (event.get? "outcome") := by
  have hmem : name ∈ EVENT_NAMES := by cases hbranch <;> decide
  have hne : name ≠ "better_hindsight.sender_attempt".toList := by cases hbranch <;> decide
  constructor
  · rintro (⟨-, hc⟩ | ⟨hname, -⟩)
    · exact hc
    · exact absurd (h.eq hname) hne
  · intro hc
    exact .inl ⟨⟨name, hmem, h⟩, hc⟩

theorem newReasons_flag (hbranch : FlagBranch name texts r flag) (seen : Observed)
    (r' : AlertReason) : r' ∈ (flag seen).newReasons ↔ r' ∈ seen.newReasons ∨ r' = r := by
  cases hbranch <;> cases r' <;> simp [mem_newReasons]

theorem recallOutcomes_flag (hbranch : FlagBranch name texts r flag) (seen : Observed) :
    (flag seen).recallOutcomes = seen.recallOutcomes := by
  cases hbranch <;> rfl

end Flags

theorem observe_other {event : Mapping} (h : ∀ name ∈ EVENT_NAMES, ¬ Named event name)
    (seen : Observed) : observe seen event = .ok seen := by
  have hname : ∀ name ∈ EVENT_NAMES, isText (event.get? "event") name = false :=
    fun name hmem => isText_false (h name hmem)
  simp only [EVENT_NAMES, List.forall_mem_cons] at hname
  obtain ⟨h₁, h₂, h₃, h₄, h₅, -⟩ := hname
  unfold observe
  simp only [h₁, h₂, h₃, h₄, h₅]
  rfl

/-- One event raises or adds what it reports. -/
def ObserveSpec (seen : Observed) (event : Mapping) : Prop :=
  (Unreadable event ∧ observe seen event = .error .typeError) ∨
    (¬ Unreadable event ∧ ∃ seen', observe seen event = .ok seen' ∧ Adds seen seen' [event])

theorem observeSpec_recall {event : Mapping} (h : Named event "better_hindsight.recall")
    (seen : Observed) : ObserveSpec seen event := by
  have hreports : ∀ r, ¬ Reports event r := by
    intro r hr
    cases hr <;> rename_i hname _ <;> exact absurd (h.eq hname) (by decide)
  have hunreadable : Unreadable event ↔ Collection (event.get? "outcome") := by
    constructor
    · rintro (⟨-, hc⟩ | ⟨hname, -⟩)
      · exact hc
      · exact absurd (h.eq hname) (by decide)
    · intro hc
      exact .inl ⟨⟨_, by decide, h⟩, hc⟩
  unfold ObserveSpec
  rw [observe_recall h, hunreadable]
  rcases inSet_cases (event.get? "outcome") RECALL_OUTCOMES with
    ⟨hc, hin⟩ | ⟨hc, hone, hin⟩ | ⟨hc, -, hin⟩
  · exact .inl ⟨hc, by rw [hin]; rfl⟩
  · refine .inr ⟨hc, _, by rw [hin]; rfl, ?_⟩
    obtain ⟨t, ht, hv⟩ := hone
    have hnothing : Adds seen seen [event] := Adds.nothing hreports
    refine ⟨hnothing.reasons, ?_⟩
    intro t' ht'
    simp only [if_true, List.mem_append, hv, outcomeText, List.mem_singleton] at ht'
    rcases ht' with ht' | rfl
    · exact .inl ht'
    · exact .inr ht
  · exact .inr ⟨hc, seen, by rw [hin]; rfl, Adds.nothing hreports⟩

theorem observeSpec_senderAttempt {event : Mapping}
    (h : Named event "better_hindsight.sender_attempt") (seen : Observed) :
    ObserveSpec seen event := by
  have hreports : ∀ r, Reports event r ↔ r = .newRetentionFailure ∧
      (OneOf (event.get? "outcome") RETENTION_FAILURES ∨
        OneOf (event.get? "category") RETENTION_FAILURES) := by
    intro r
    constructor
    · intro hr
      cases hr <;> rename_i hname hone
      case retention => exact ⟨rfl, hone⟩
      all_goals exact absurd (h.eq hname) (by decide)
    · rintro ⟨rfl, hone⟩
      exact .retention h hone
  have hunreadable : Unreadable event ↔ Collection (event.get? "outcome") ∨
      ¬ OneOf (event.get? "outcome") RETENTION_FAILURES ∧ Collection (event.get? "category") := by
    constructor
    · rintro (⟨-, hc⟩ | ⟨-, hc⟩)
      · exact .inl hc
      · exact .inr hc
    · rintro (hc | hc)
      · exact .inl ⟨⟨_, by decide, h⟩, hc⟩
      · exact .inr ⟨h, hc⟩
  have hflag : (OneOf (event.get? "outcome") RETENTION_FAILURES ∨
      OneOf (event.get? "category") RETENTION_FAILURES) →
      Adds seen { seen with newRetentionFailure := true } [event] := by
    intro hone
    refine Adds.flag (r := .newRetentionFailure) (fun r => ?_) (fun r => ?_) rfl
    · rw [hreports r, and_iff_left hone]
    · cases r <;> simp [mem_newReasons]
  unfold ObserveSpec
  rw [observe_senderAttempt h, hunreadable]
  rcases inSet_cases (event.get? "outcome") RETENTION_FAILURES with
    ⟨hc, hin⟩ | ⟨hc, hone, hin⟩ | ⟨hc, hnot, hin⟩
  · exact .inl ⟨.inl hc, by rw [hin]; rfl⟩
  · exact .inr ⟨fun hu => hu.elim hc fun hu => hu.1 hone, _, by rw [hin]; rfl, hflag (.inl hone)⟩
  · rcases inSet_cases (event.get? "category") RETENTION_FAILURES with
      ⟨hc', hcat⟩ | ⟨hc', hone, hcat⟩ | ⟨hc', hnot', hcat⟩
    · exact .inl ⟨.inr ⟨hnot, hc'⟩, by rw [hin, hcat]; rfl⟩
    · exact .inr ⟨fun hu => hu.elim hc fun hu => hc' hu.2, _, by rw [hin, hcat]; rfl,
        hflag (.inr hone)⟩
    · refine .inr ⟨fun hu => hu.elim hc fun hu => hc' hu.2, seen, by rw [hin, hcat]; rfl,
        Adds.nothing fun r hr => ?_⟩
      rcases ((hreports r).mp hr).2 with hone | hone
      · exact hnot hone
      · exact hnot' hone

theorem observeSpec_flag {event : Mapping} {name : Text} {texts : List Text} {r : AlertReason}
    {flag : Observed → Observed} (h : Named event name) (hbranch : FlagBranch name texts r flag)
    (seen : Observed) : ObserveSpec seen event := by
  unfold ObserveSpec
  rw [observe_flag h hbranch, unreadable_flag h hbranch]
  rcases inSet_cases (event.get? "outcome") texts with
    ⟨hc, hin⟩ | ⟨hc, hone, hin⟩ | ⟨hc, hnot, hin⟩
  · exact .inl ⟨hc, by rw [hin]; rfl⟩
  · refine .inr ⟨hc, _, by rw [hin]; rfl, ?_⟩
    refine Adds.flag (fun r' => ?_) (newReasons_flag hbranch seen)
      (recallOutcomes_flag hbranch seen)
    rw [reports_flag h hbranch, and_iff_left hone]
  · refine .inr ⟨hc, seen, by rw [hin]; rfl, Adds.nothing fun r' hr => ?_⟩
    exact hnot ((reports_flag h hbranch r').mp hr).2

theorem observe_spec (seen : Observed) (event : Mapping) : ObserveSpec seen event := by
  by_cases hname : ∃ name ∈ EVENT_NAMES, Named event name
  · obtain ⟨name, hmem, h⟩ := hname
    simp only [EVENT_NAMES, List.mem_cons, List.not_mem_nil, or_false] at hmem
    obtain rfl | rfl | rfl | rfl | rfl := hmem
    · exact observeSpec_recall h seen
    · exact observeSpec_senderAttempt h seen
    · exact observeSpec_flag h .adapterContract seen
    · exact observeSpec_flag h .senderLoop seen
    · exact observeSpec_flag h .clientLifecycle seen
  · push Not at hname
    have hreports : ∀ r, ¬ Reports event r := by
      intro r hr
      cases hr <;> rename_i h _ <;> exact hname _ (by decide) h
    refine .inr ⟨?_, seen, observe_other hname seen, Adds.nothing hreports⟩
    rintro (⟨⟨name, hmem, h⟩, -⟩ | ⟨h, -⟩)
    · exact hname name hmem h
    · exact hname _ (by decide) h

/-- The loop raises at the first unreadable event, or adds what the events report. -/
theorem observeAll_spec (events : List Mapping) (seen : Observed) :
    ((∃ event ∈ events, Unreadable event) ∧ observeAll events seen = .error .typeError) ∨
      ((∀ event ∈ events, ¬ Unreadable event) ∧
        ∃ seen', observeAll events seen = .ok seen' ∧ Adds seen seen' events) := by
  induction events generalizing seen with
  | nil => exact .inr ⟨nofun, seen, rfl, by simp, fun t ht => .inl ht⟩
  | cons event events ih =>
    rcases observe_spec seen event with ⟨hu, hobs⟩ | ⟨hu, seen', hobs, hadds⟩
    · exact .inl ⟨⟨event, List.mem_cons_self, hu⟩, by rw [observeAll, hobs]; rfl⟩
    · rcases ih seen' with ⟨⟨event', hmem, hu'⟩, hall⟩ | ⟨hu', seen'', hall, hadds'⟩
      · refine .inl ⟨⟨event', List.mem_cons_of_mem _ hmem, hu'⟩, ?_⟩
        rw [observeAll, hobs]
        exact hall
      · refine .inr ⟨List.forall_mem_cons.mpr ⟨hu, hu'⟩, seen'', ?_, ?_, ?_⟩
        · rw [observeAll, hobs]
          exact hall
        · intro r
          rw [hadds'.reasons, hadds.reasons, List.exists_mem_cons_iff]
          simp [or_assoc]
        · intro t ht
          rcases hadds'.outcomes t ht with ht | ht
          · exact hadds.outcomes t ht
          · exact .inr ht

end BetterHindsight
