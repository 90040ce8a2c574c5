import BetterHindsight.MentalModels.Calls

/-! # One refresh at a time

No refresh of a model is submitted while an earlier one is unresolved, whatever the other calls of
the instance do in between and wherever the calls are cancelled.

* `Submits`, `Refused`, `Acknowledged`, `StatusRead`: what a step tells about a refresh.
* `Refreshing`: the attributes agree with the stages of the calls.
* `Unresolved`: the refresh of a model that no new one may follow yet. -/

namespace BetterHindsight.MentalModels
set_option autoImplicit false

abbrev CallTransition := Transition Instance CallEvent

/-! ## What a step tells -/

/-- Call `k` sends the refresh request of the model. -/
def Submits (k : ℕ) (m : Text) (e : CallTransition) : Prop :=
  ∃ answer id, e.label = .answer k answer ∧ id.1 = m ∧ e.after.calls k = some (.refreshSubmit id)

/-- The refresh request of call `k` is answered with 422 or 429. -/
def Refused (k : ℕ) (m : Text) (e : CallTransition) : Prop :=
  ∃ error id, e.label = .answer k (.failed error) ∧ error.refuses = true ∧ id.1 = m ∧
    e.before.calls k = some (.refreshSubmit id)

/-- The refresh request of call `k` is answered with this operation. -/
def Acknowledged (k : ℕ) (m op : Text) (e : CallTransition) : Prop :=
  ∃ value id acknowledged, e.label = .answer k (.payload value) ∧ id.1 = m ∧
    e.before.calls k = some (.refreshSubmit id) ∧ decodeQueued value = some acknowledged ∧
    acknowledged.1 = op

/-- A call awaits the status of this operation of the model. -/
def Stage.AsksStatus (m op : Text) : Stage → Prop
  | .refreshVerify id op' | .status id op' => id.1 = m ∧ op'.1 = op
  | _ => False

/-- A call reads the status of this operation of the model. -/
def StatusRead (m op : Text) (e : CallTransition) : Prop :=
  ∃ k value stage, e.label = .answer k (.payload value) ∧ e.before.calls k = some stage ∧
    stage.AsksStatus m op ∧ (decodeStatus e.before.books value m op).1.isSome = true

/-! ## Status responses -/

theorem statusOf_state {value : JsonValue} {m op state : Text}
    (h : statusOf value m op = some state) :
    state ∈ ["pending", "processing", "completed", "failed", "cancelled"].map String.toList := by
  simp only [statusOf, Option.bind_eq_bind, Option.bind_eq_some_iff, Option.guard_eq_some',
    Option.pure_def, Option.some.injEq] at h
  obtain ⟨-, -, -, -, -, -, -, -, -, -, state', -, -, hstate, rfl⟩ := h
  exact hstate

/-- The response of a status call is small enough. -/
theorem fits_statusPayload {id : BoundedText 128} {op : BoundedText 36} {state : Text}
    (h : state.length ≤ 10) : fits (statusPayload id.1 op.1 state) = true := by
  have hid := valueSize_str_le id.1
  have hop := valueSize_str_le op.1
  have hstate := valueSize_str_le state
  have hidlen := id.2
  have hoplen := op.2
  have hframe : FRAME_BYTES ≤ 1000 := by decide +kernel
  have hmax : OUTPUT_MAX_BYTES = 16384 := rfl
  have hkeys : keySize "result" + keySize "id" + keySize "operation_id" + keySize "status" +
      keySize "verification" + valueSize (.str "ok") + valueSize (.str
        "Read this model and inspect content before claiming success.") ≤ 300 := by
    decide +kernel
  rw [fits, decide_eq_true_iff, utf8Len_encodePayload, escapedLen_record, statusPayload]
  simp only [List.map_cons, List.map_nil, List.sum_cons, List.sum_nil, fieldSize_eq,
    List.length_cons, List.length_nil]
  omega

/-- A status read changes nothing, or succeeds and may settle the refresh of its operation. -/
theorem decodeStatus_cases (books : Books) (value : JsonValue) (id : BoundedText 128)
    (op : BoundedText 36) :
    ((decodeStatus books value id.1 op.1).1 = none ∧
      (decodeStatus books value id.1 op.1).2 = books) ∨
    (∃ response, (decodeStatus books value id.1 op.1).1 = some response) ∧
      ((decodeStatus books value id.1 op.1).2 = books ∨
        books.unconfirmedOperation id.1 = some op.1 ∧
          (decodeStatus books value id.1 op.1).2 = books.settle id.1) := by
  unfold decodeStatus
  cases hstatus : statusOf value id.1 op.1 with
  | none => exact .inl ⟨rfl, rfl⟩
  | some state =>
    have hlen : state.length ≤ 10 := by
      have hstate := statusOf_state hstatus
      have hall : ∀ t ∈ ["pending", "processing", "completed", "failed", "cancelled"].map
          String.toList, t.length ≤ 10 := by decide
      exact hall state hstate
    have hrender := render_of_fits (@fits_statusPayload id op state hlen)
    simp only [hrender]
    refine .inr ⟨⟨_, rfl⟩, ?_⟩
    split
    · rename_i h
      exact .inr ⟨h.2, rfl⟩
    · exact .inl rfl

/-! ## The attributes and the calls -/

/-- A recorded refresh is also ambiguous. -/
def Books.Recorded (books : Books) : Prop :=
  ∀ m known, books.refreshUnconfirmed.get? m = some known →
    m ∈ books.refreshAmbiguities ∧ ∃ op, known = unconfirmedPayload m op

/-- What the attributes say where a call is at a stage. A status call may have settled the refresh
while it awaits its own status. -/
def Stage.Agrees (books : Books) : Stage → Prop
  | .refreshRead id => books.refreshUnconfirmed.get? id.1 = none
  | .refreshSubmit id =>
    id.1 ∈ books.refreshAmbiguities ∧ books.refreshUnconfirmed.get? id.1 = none
  | .refreshVerify id op =>
    books.refreshUnconfirmed.get? id.1 = some (unconfirmedPayload id.1 op.1) ∨
      id.1 ∉ books.refreshAmbiguities
  | _ => True

structure Refreshing (s : Instance) : Prop where
  locked : Locked s
  recorded : s.books.Recorded
  agrees : ∀ k stage, s.calls k = some stage → stage.Agrees s.books

theorem Refreshing.new : Refreshing .new := ⟨.new, nofun, nofun⟩

theorem agrees_of_not_holds {stage : Stage} (h : stage.holdsLock = false) (books : Books) :
    stage.Agrees books := by
  cases stage <;> trivial

section Books
variable {books : Books} {m : Text}

theorem unconfirmedOperation_eq {op : Text}
    (h : books.refreshUnconfirmed.get? m = some (unconfirmedPayload m op)) :
    books.unconfirmedOperation m = some op := by
  rw [Books.unconfirmedOperation, h]
  rfl

theorem unconfirmedPayload_injective (m : Text) : Function.Injective (unconfirmedPayload m) := by
  intro op op' h
  have hget := congrArg (fun p : Payload => (p.get? "operation_id").bind JsonValue.text?) h
  exact Option.some.inj hget

theorem Books.Recorded.of_operation (h : books.Recorded) {op : Text}
    (hop : books.unconfirmedOperation m = some op) :
    books.refreshUnconfirmed.get? m = some (unconfirmedPayload m op) := by
  cases hknown : books.refreshUnconfirmed.get? m with
  | none =>
    rw [Books.unconfirmedOperation, hknown] at hop
    cases hop
  | some known =>
    obtain ⟨-, op', rfl⟩ := h m known hknown
    have heq := (unconfirmedOperation_eq hknown).symm.trans hop
    rw [Option.some.inj heq]

theorem get?_settle (m m' : Text) : (books.settle m).refreshUnconfirmed.get? m' =
    if m' = m then none else books.refreshUnconfirmed.get? m' := Dict.get?_erase _ _ _

theorem mem_settle {m m' : Text} : m' ∈ (books.settle m).refreshAmbiguities ↔
    m' ≠ m ∧ m' ∈ books.refreshAmbiguities := Finset.mem_erase

theorem Books.Recorded.settle (h : books.Recorded) (m : Text) : (books.settle m).Recorded := by
  intro m' known hknown
  rw [get?_settle] at hknown
  split at hknown
  · cases hknown
  · rename_i hne
    obtain ⟨hmem, hop⟩ := h m' known hknown
    exact ⟨mem_settle.mpr ⟨hne, hmem⟩, hop⟩

/-- What is settled was recorded, so no call is about to submit it. -/
theorem Stage.Agrees.settle {stage : Stage} (h : stage.Agrees books) {op : Text}
    (hop : books.unconfirmedOperation m = some op) : stage.Agrees (books.settle m) := by
  have hrecorded : books.refreshUnconfirmed.get? m ≠ none := by
    intro hnone
    rw [Books.unconfirmedOperation, hnone] at hop
    cases hop
  cases stage with
  | refreshRead id =>
    change (books.settle m).refreshUnconfirmed.get? id.1 = none
    rw [get?_settle]
    split
    · rfl
    · exact h
  | refreshSubmit id =>
    have hne : id.1 ≠ m := fun heq => hrecorded (heq ▸ h.2)
    refine ⟨mem_settle.mpr ⟨hne, h.1⟩, ?_⟩
    rw [get?_settle, if_neg hne]
    exact h.2
  | refreshVerify id op' =>
    by_cases hid : id.1 = m
    · exact .inr fun hmem => (mem_settle.mp hmem).1 hid
    · refine h.imp (fun hknown => ?_) fun hnot hmem => hnot (mem_settle.mp hmem).2
      rw [get?_settle, if_neg hid]
      exact hknown
  | _ => trivial

end Books

/-! ## One answer -/

section Answers
variable {setting : Setting} {books books' : Books} {stage stage' : Stage} {answer : Answer}

/-- How an answer changes the attributes that tell of refreshes. -/
inductive RefreshChange (books : Books) (answer : Answer) : Stage → Books → Stage → Prop
  /-- nothing changes, and no refresh is submitted -/
  | unchanged {stage stage' : Stage} {books' : Books}
      (ambiguities : books'.refreshAmbiguities = books.refreshAmbiguities)
      (unconfirmed : books'.refreshUnconfirmed = books.refreshUnconfirmed)
      (free : ∀ b : Books, stage'.Agrees b)
      (notSubmit : ∀ id, stage' ≠ .refreshSubmit id) :
      RefreshChange books answer stage books' stage'
  | submitted {id : BoundedText 128} (fresh : id.1 ∉ books.refreshAmbiguities) :
      RefreshChange books answer (.refreshRead id)
        { books with refreshAmbiguities := insert id.1 books.refreshAmbiguities }
        (.refreshSubmit id)
  | refused {id : BoundedText 128} {error : ClientError} {ending : Ending}
      (hanswer : answer = .failed error) (hrefuses : error.refuses = true) :
      RefreshChange books answer (.refreshSubmit id)
        { books with refreshAmbiguities := books.refreshAmbiguities.erase id.1 } (.ended ending)
  | acknowledged {id : BoundedText 128} {op : BoundedText 36} {value : JsonValue}
      (hanswer : answer = .payload value) (hqueued : decodeQueued value = some op) :
      RefreshChange books answer (.refreshSubmit id)
        { books with
          refreshUnconfirmed := books.refreshUnconfirmed.set id.1 (unconfirmedPayload id.1 op.1) }
        (.refreshVerify id op)
  /-- A status read settles the refresh of the model: the recorded one, or that of the call. -/
  | settled {stage : Stage} {m op : Text} {value : JsonValue} {ending : Ending}
      (hanswer : answer = .payload value) (asks : stage.AsksStatus m op)
      (hread : (decodeStatus books value m op).1.isSome = true)
      (known : books.unconfirmedOperation m = some op ∨
        ∃ id op, stage = .refreshVerify id op) :
      RefreshChange books answer stage (books.settle m) (.ended ending)

theorem settle_settle (books : Books) (m : Text) : (books.settle m).settle m = books.settle m := by
  have herase : (books.refreshUnconfirmed.erase m).erase m = books.refreshUnconfirmed.erase m := by
    have hext : ∀ d d' : Dict Text Payload, d.entries = d'.entries → d = d' := by
      rintro ⟨_, _⟩ ⟨_, _⟩ rfl
      rfl
    apply hext
    rw [Dict.erase, Dict.filter, Dict.erase, Dict.filter]
    dsimp only
    rw [List.filter_filter]
    congr 1
    funext e
    exact Bool.and_self _
  simp only [Books.settle, herase, Finset.erase_idem]

theorem resume_change (h : resume setting books stage answer = some (books', stage')) :
    RefreshChange books answer stage books' stage' := by
  cases stage with
  | version action =>
    cases h
    have hfree := dispatch_holds action answer
    refine .unchanged rfl rfl (agrees_of_not_holds hfree) fun id heq => ?_
    rw [heq] at hfree
    cases hfree
  | refreshRead id =>
    simp only [resume, refreshRead, Option.some.injEq] at h
    split at h
    · cases h
      exact .unchanged rfl rfl (fun _ => trivial) (by rintro _ ⟨⟩)
    · split at h
      · cases h
        exact .unchanged rfl rfl (fun _ => trivial) (by rintro _ ⟨⟩)
      · split at h
        · cases h
          exact .unchanged rfl rfl (fun _ => trivial) (by rintro _ ⟨⟩)
        · rename_i hfresh
          cases h
          exact .submitted hfresh
  | refreshSubmit id =>
    simp only [resume, refreshSubmitted, Option.some.injEq] at h
    cases answer with
    | failed error =>
      simp only [observed] at h
      split at h
      · rename_i hrefuses
        cases h
        exact .refused rfl hrefuses
      · cases h
        exact .unchanged rfl rfl (fun _ => trivial) (by rintro _ ⟨⟩)
    | payload value =>
      cases hqueued : decodeQueued value with
      | none =>
        simp only [observed, hqueued] at h
        split at h
        · rename_i hrefuses
          cases hrefuses
        · cases h
          exact .unchanged rfl rfl (fun _ => trivial) (by rintro _ ⟨⟩)
      | some op =>
        simp only [observed, hqueued] at h
        cases h
        exact .acknowledged rfl hqueued
  | refreshVerify id op =>
    simp only [resume, refreshVerified, Option.some.injEq] at h
    cases answer with
    | failed error =>
      dsimp only at h
      split at h <;> cases h <;> exact .unchanged rfl rfl (fun _ => trivial) (by rintro _ ⟨⟩)
    | payload value =>
      dsimp only at h
      rcases hdecoded : decodeStatus books value id.1 op.1 with ⟨response, after⟩
      have hcases := decodeStatus_cases books value id op
      rw [hdecoded] at h hcases
      rcases hcases with ⟨hnone, hsame⟩ | ⟨⟨r, hsome⟩, heffect⟩
      · dsimp only at hnone hsame
        subst hnone hsame
        dsimp only at h
        split at h <;> cases h <;> exact .unchanged rfl rfl (fun _ => trivial) (by rintro _ ⟨⟩)
      · dsimp only at hsome heffect
        subst hsome
        dsimp only at h
        have hread : (decodeStatus books value id.1 op.1).1.isSome = true := by rw [hdecoded]; rfl
        have hsettled : after.settle id.1 = books.settle id.1 := by
          rcases heffect with rfl | ⟨-, rfl⟩
          · rfl
          · exact settle_settle books id.1
        rw [hsettled] at h
        cases h
        exact .settled rfl ⟨rfl, rfl⟩ hread (.inr ⟨id, op, rfl⟩)
  | status id op =>
    simp only [resume, statusRead, Option.some.injEq] at h
    cases answer with
    | failed error =>
      cases h
      exact .unchanged rfl rfl (fun _ => trivial) (by rintro _ ⟨⟩)
    | payload value =>
      dsimp only at h
      rcases hdecoded : decodeStatus books value id.1 op.1 with ⟨response, after⟩
      have hcases := decodeStatus_cases books value id op
      rw [hdecoded] at h hcases
      rcases hcases with ⟨hnone, hsame⟩ | ⟨⟨r, hsome⟩, heffect⟩
      · dsimp only at hnone hsame
        subst hnone hsame
        cases h
        exact .unchanged rfl rfl (fun _ => trivial) (by rintro _ ⟨⟩)
      · dsimp only at hsome heffect
        subst hsome
        cases h
        rcases heffect with rfl | ⟨hknown, rfl⟩
        · exact .unchanged rfl rfl (fun _ => trivial) (by rintro _ ⟨⟩)
        · have hread : (decodeStatus books value id.1 op.1).1.isSome = true := by
            rw [hdecoded]
            rfl
          exact .settled rfl ⟨rfl, rfl⟩ hread (.inl hknown)
  | createRead args modern =>
    simp only [resume, createRead, Option.some.injEq] at h
    (repeat' split at h) <;> cases h
    · exact .unchanged rfl rfl (fun _ => trivial) (by rintro _ ⟨⟩)
    · exact .unchanged rfl rfl (fun _ => trivial) (by rintro _ ⟨⟩)
    · exact .unchanged rfl rfl (fun _ => trivial) (by rintro _ ⟨⟩)
    · exact .unchanged rfl rfl (fun _ => trivial) (by rintro _ ⟨⟩)
  | createPage args modern =>
    simp only [resume, createPaged, Option.some.injEq] at h
    (repeat' split at h) <;> cases h
    · exact .unchanged rfl rfl (fun _ => trivial) (by rintro _ ⟨⟩)
    · exact .unchanged rfl rfl (fun _ => trivial) (by rintro _ ⟨⟩)
    · exact .unchanged rfl rfl (fun _ => trivial) (by rintro _ ⟨⟩)
  | createSubmit modelId body =>
    simp only [resume, createSubmitted, Option.some.injEq] at h
    (repeat' split at h) <;> cases h <;> exact .unchanged rfl rfl (fun _ => trivial) (by rintro _ ⟨⟩)
  | refreshLock id => cases h
  | createLock args modern => cases h
  | ended ending => cases h

theorem entered_agrees (h : entered setting books stage = some stage') :
    stage'.Agrees books ∧ ∀ id, stage' ≠ .refreshSubmit id := by
  unfold entered at h
  split at h
  · split at h <;> cases h
    · exact ⟨trivial, nofun⟩
    · rename_i hnone
      exact ⟨hnone, nofun⟩
  · split at h <;> cases h <;> exact ⟨trivial, nofun⟩
  · cases h

theorem Stage.Agrees.congr (h : stage.Agrees books)
    (hamb : books'.refreshAmbiguities = books.refreshAmbiguities)
    (hunconf : books'.refreshUnconfirmed = books.refreshUnconfirmed) : stage.Agrees books' := by
  cases stage with
  | refreshRead id =>
    change books'.refreshUnconfirmed.get? id.1 = none
    rw [hunconf]
    exact h
  | refreshSubmit id => exact ⟨hamb ▸ h.1, hunconf ▸ h.2⟩
  | refreshVerify id op => exact h.imp (fun hknown => hunconf ▸ hknown) fun hnot => hamb ▸ hnot
  | _ => trivial

/-- The call that takes an answer keeps the attributes in order. -/
theorem RefreshChange.recorded (h : RefreshChange books answer stage books' stage')
    (hrecorded : books.Recorded) (hagrees : stage.Agrees books) :
    books'.Recorded ∧ stage'.Agrees books' := by
  cases h with
  | unchanged ambiguities unconfirmed free notSubmit =>
    refine ⟨fun m known hknown => ?_, free _⟩
    rw [unconfirmed] at hknown
    rw [ambiguities]
    exact hrecorded m known hknown
  | @submitted id fresh =>
    refine ⟨fun m known hknown => ?_, Finset.mem_insert_self _ _, hagrees⟩
    obtain ⟨hmem, hop⟩ := hrecorded m known hknown
    exact ⟨Finset.mem_insert_of_mem hmem, hop⟩
  | @refused id error ending hanswer hrefuses =>
    refine ⟨fun m known hknown => ?_, trivial⟩
    obtain ⟨hmem, hop⟩ := hrecorded m known hknown
    have hne : m ≠ id.1 := by
      rintro rfl
      have hnone := hagrees.2
      rw [hnone] at hknown
      cases hknown
    exact ⟨Finset.mem_erase.mpr ⟨hne, hmem⟩, hop⟩
  | @acknowledged id op value hanswer hqueued =>
    have hself : (books.refreshUnconfirmed.set id.1 (unconfirmedPayload id.1 op.1)).get? id.1 =
        some (unconfirmedPayload id.1 op.1) := by
      rw [Dict.get?_set, if_pos rfl]
    refine ⟨fun m known hknown => ?_, .inl hself⟩
    dsimp only at hknown
    rw [Dict.get?_set] at hknown
    split at hknown
    · rename_i hm
      cases hknown
      exact ⟨hm ▸ hagrees.1, op.1, by rw [hm]⟩
    · exact hrecorded m known hknown
  | settled hanswer asks hread known => exact ⟨hrecorded.settle _, trivial⟩

end Answers

/-! ## Every step -/

section Steps
variable {setting : Setting} {s s' : Instance} {event : CallEvent}

/-- Beside a call that holds the lock, the others do not. -/
theorem Locked.others (h : Locked s) {k k' : ℕ} {stage other : Stage}
    (hcall : s.calls k = some stage) (hholds : stage.holdsLock = true) (hk : k' ≠ k)
    (hother : s.calls k' = some other) : other.holdsLock = false := by
  by_contra hnot
  exact hk (h.eq hcall hholds hother (by simpa using hnot))

theorem Refreshing.put_same (h : Refreshing s) (lockOwner : Option ℕ) {k : ℕ} {stage : Stage}
    (hlocked : Locked ({ s with lockOwner := lockOwner }.put k s.books stage))
    (hagrees : stage.Agrees s.books) :
    Refreshing ({ s with lockOwner := lockOwner }.put k s.books stage) := by
  refine ⟨hlocked, h.recorded, fun k' stage' hcall => ?_⟩
  rw [put_calls] at hcall
  split at hcall
  · cases hcall
    exact hagrees
  · exact h.agrees k' stage' hcall

theorem Refreshing.step (h : Refreshing s) (hstep : CallStep setting s event s') :
    Refreshing s' := by
  have hlocked := h.locked.step hstep
  cases hstep.change with
  | @start k action fresh => exact h.put_same s.lockOwner hlocked trivial
  | @acquire k stage stage' free hcall hentered =>
    exact h.put_same (some k) hlocked (entered_agrees hentered).1
  | @cancel k stage hcall running => exact h.put_same s.lockOwner hlocked trivial
  | @answer k stage stage' answer books hcall hresume =>
    have hchange := resume_change hresume
    obtain ⟨hrecorded, hagrees⟩ := hchange.recorded h.recorded (h.agrees k stage hcall)
    refine ⟨hlocked, hrecorded, fun k' other hother => ?_⟩
    rw [put_calls] at hother
    split at hother
    · cases hother
      exact hagrees
    · rename_i hk
      have hbefore := h.agrees k' other hother
      have hfree := fun hholds => h.locked.others (k := k) hcall hholds hk hother
      cases hchange with
      | unchanged ambiguities unconfirmed free notSubmit =>
        exact hbefore.congr ambiguities unconfirmed
      | submitted fresh => exact agrees_of_not_holds (hfree rfl) _
      | refused hanswer hrefuses => exact agrees_of_not_holds (hfree rfl) _
      | acknowledged hanswer hqueued => exact agrees_of_not_holds (hfree rfl) _
      | settled hanswer asks hread known =>
        rcases known with hop | ⟨id, op, rfl⟩
        · exact hbefore.settle hop
        · exact agrees_of_not_holds (hfree rfl) _

/-! ## Unresolved refreshes -/

/-- A refresh of the model was sent and is not resolved: it is recorded as `known`, or nothing is
known of it. No call waits for its request any more. -/
structure Unresolved (m : Text) (known : Option Payload) (s : Instance) : Prop where
  ambiguous : m ∈ s.books.refreshAmbiguities
  recorded : s.books.refreshUnconfirmed.get? m = known
  finished : ∀ k id, s.calls k = some (.refreshSubmit id) → id.1 ≠ m

theorem Unresolved.put_same {m : Text} {known : Option Payload} (h : Unresolved m known s)
    (lockOwner : Option ℕ) {k : ℕ} {stage : Stage} (hstage : ∀ id, stage ≠ .refreshSubmit id) :
    Unresolved m known ({ s with lockOwner := lockOwner }.put k s.books stage) := by
  refine ⟨h.ambiguous, h.recorded, fun k' id hcall => ?_⟩
  rw [put_calls] at hcall
  split at hcall
  · exact absurd (Option.some.inj hcall) (hstage id)
  · exact h.finished k' id hcall

/-- Only a status read of its operation resolves a refresh whose request is over. -/
theorem Unresolved.step {m : Text} {known : Option Payload} (h : Unresolved m known s)
    (hs : Refreshing s) (hstep : CallStep setting s event s') :
    Unresolved m known s' ∨ ∃ op, known = some (unconfirmedPayload m op) ∧
      StatusRead m op ⟨s, event, s'⟩ := by
  cases hstep.change with
  | start fresh => exact .inl (h.put_same s.lockOwner nofun)
  | @acquire k stage stage' free hcall hentered =>
    exact .inl (h.put_same (some k) (entered_agrees hentered).2)
  | cancel hcall running => exact .inl (h.put_same s.lockOwner nofun)
  | @answer k stage stage' answer books hcall hresume =>
    have hfinished : ∀ {stage' : Stage} {books : Books}, (∀ id : BoundedText 128, id.1 = m →
        stage' ≠ .refreshSubmit id) →
        ∀ k' id, (s.put k books stage').calls k' = some (.refreshSubmit id) → id.1 ≠ m := by
      intro stage' books hstage k' id hcall' hid
      rw [put_calls] at hcall'
      split at hcall'
      · exact hstage id hid (Option.some.inj hcall')
      · exact h.finished k' id hcall' hid
    cases resume_change hresume with
    | unchanged ambiguities unconfirmed free notSubmit =>
      exact .inl ⟨by rw [put_books, ambiguities]; exact h.ambiguous,
        by rw [put_books, unconfirmed]; exact h.recorded, hfinished fun id _ => notSubmit id⟩
    | @submitted id fresh =>
      refine .inl ⟨Finset.mem_insert_of_mem h.ambiguous, h.recorded,
        hfinished fun id' hid heq => ?_⟩
      obtain rfl := Stage.refreshSubmit.inj heq
      exact fresh (hid ▸ h.ambiguous)
    | @refused id error ending hanswer hrefuses =>
      have hne := h.finished k id hcall
      exact .inl ⟨Finset.mem_erase.mpr ⟨hne.symm, h.ambiguous⟩, h.recorded, hfinished nofun⟩
    | @acknowledged id op value hanswer hqueued =>
      have hne := h.finished k id hcall
      refine .inl ⟨h.ambiguous, ?_, hfinished nofun⟩
      rw [put_books]
      dsimp only
      rw [Dict.get?_set, if_neg hne.symm]
      exact h.recorded
    | @settled stage m' op value ending hanswer asks hread hknown =>
      by_cases hm : m' = m
      · subst hm
        have hop : s.books.refreshUnconfirmed.get? m' = some (unconfirmedPayload m' op) := by
          rcases hknown with hop | ⟨id, op', rfl⟩
          · exact hs.recorded.of_operation hop
          · obtain ⟨rfl, rfl⟩ := asks
            exact (hs.agrees k _ hcall).resolve_right fun hnot => hnot h.ambiguous
        refine .inr ⟨op, h.recorded.symm.trans hop, k, value, stage, ?_, hcall, asks, hread⟩
        rw [hanswer]
      · refine .inl ⟨mem_settle.mpr ⟨fun heq => hm heq.symm, h.ambiguous⟩, ?_, hfinished nofun⟩
        rw [put_books, get?_settle, if_neg fun heq => hm heq.symm]
        exact h.recorded

/-- A refresh is submitted only where none of the model is unresolved. -/
theorem not_mem_of_submits {k : ℕ} {m : Text} (hstep : CallStep setting s event s')
    (h : Submits k m ⟨s, event, s'⟩) : m ∉ s.books.refreshAmbiguities := by
  obtain ⟨answer, id, hlabel, rfl, hafter⟩ := h
  cases hlabel
  cases hstep.change with
  | @answer k stage stage' answer books hcall hresume =>
    have hstage : stage' = .refreshSubmit id :=
      Option.some.inj ((put_same _ _ _ _).symm.trans hafter)
    subst hstage
    cases resume_change hresume with
    | unchanged ambiguities unconfirmed free notSubmit => exact absurd rfl (notSubmit id)
    | submitted fresh => exact fresh

/-- The call awaits the answer to its refresh request. -/
def Submitting (k : ℕ) (m : Text) (s : Instance) : Prop :=
  ∃ id, id.1 = m ∧ s.calls k = some (.refreshSubmit id)

/-- The step that ends the wait for a refresh request. -/
inductive RequestOver (k : ℕ) (m : Text) (e : CallTransition) : Prop
  | refused (h : Refused k m e)
  | acknowledged {op : Text} (h : Acknowledged k m op e)
      (left : Unresolved m (some (unconfirmedPayload m op)) e.after)
  /-- the answer is lost, or no acknowledgement -/
  | unknown (left : Unresolved m none e.after)

theorem Submitting.mem {k : ℕ} {m : Text} (h : Submitting k m s) (hs : Refreshing s) :
    m ∈ s.books.refreshAmbiguities := by
  obtain ⟨id, rfl, hcall⟩ := h
  exact (hs.agrees k _ hcall).1

theorem Submitting.step {k : ℕ} {m : Text} (h : Submitting k m s) (hs : Refreshing s)
    (hstep : CallStep setting s event s') :
    Submitting k m s' ∨ RequestOver k m ⟨s, event, s'⟩ := by
  obtain ⟨id, rfl, hcall⟩ := h
  obtain ⟨hmem, hnone⟩ := hs.agrees k _ hcall
  -- the calls that do not hold the lock submit nothing
  have hother : ∀ k' stage' books, k' ≠ k →
      Submitting k id.1 (s.put k' books stage') := by
    intro k' stage' books hk
    exact ⟨id, rfl, (put_ne s hk.symm books stage').trans hcall⟩
  have hfinished : ∀ (books : Books) (stage' : Stage), (∀ id, stage' ≠ .refreshSubmit id) →
      ∀ k' id', (s.put k books stage').calls k' = some (.refreshSubmit id') → id'.1 ≠ id.1 := by
    intro books stage' hstage k' id' hcall' _
    rw [put_calls] at hcall'
    split at hcall'
    · exact hstage id' (Option.some.inj hcall')
    · rename_i hk
      have hfree := hs.locked.others hcall rfl hk hcall'
      cases hfree
  cases hstep.change with
  | @start k' action fresh =>
    exact .inl (hother k' _ _ fun hk => by rw [hk, hcall] at fresh; cases fresh)
  | @acquire k' stage stage' free hcall' hentered =>
    have howner := hs.locked.held k _ hcall rfl
    rw [free] at howner
    cases howner
  | @cancel k' stage hcall' running =>
    by_cases hk : k' = k
    · subst hk
      exact .inr (.unknown ⟨hmem, hnone, hfinished _ _ nofun⟩)
    · exact .inl (hother k' _ _ hk)
  | @answer k' stage stage' answer books hcall' hresume =>
    by_cases hk : k' = k
    · subst hk
      obtain rfl : stage = .refreshSubmit id := Option.some.inj (hcall'.symm.trans hcall)
      cases resume_change hresume with
      | unchanged ambiguities unconfirmed free notSubmit =>
        refine .inr (.unknown ⟨?_, ?_, hfinished _ _ notSubmit⟩)
        · rw [put_books, ambiguities]
          exact hmem
        · rw [put_books, unconfirmed]
          exact hnone
      | @refused _ error ending hanswer hrefuses =>
        exact .inr (.refused ⟨error, id, by rw [hanswer], hrefuses, rfl, hcall⟩)
      | @acknowledged _ op value hanswer hqueued =>
        refine .inr (.acknowledged ⟨value, id, op, by rw [hanswer], rfl, hcall, hqueued, rfl⟩
          ⟨hmem, ?_, hfinished _ _ nofun⟩)
        rw [put_books]
        dsimp only
        rw [Dict.get?_set, if_pos rfl]
      | settled hanswer asks hread known => exact asks.elim
    · exact .inl (hother k' _ _ hk)

end Steps

/-! ## Runs -/

section Runs
variable {setting : Setting}

theorem unresolved_run {s t : Instance} {tr : List CallTransition} {m : Text}
    {known : Option Payload} (h : Run (CallStep setting) s tr t) (hs : Refreshing s)
    (hu : Unresolved m known s) : Unresolved m known t ∨
      ∃ e ∈ tr, ∃ op, known = some (unconfirmedPayload m op) ∧ StatusRead m op e :=
  h.persists_or hs (fun _ _ _ hi => hi.step) (fun _ _ _ hi hstep hp => hp.step hi hstep) hu

theorem acknowledged_after {s s' : Instance} {event : CallEvent} {k : ℕ} {m op : Text}
    (hs : Refreshing s) (hstep : CallStep setting s event s')
    (h : Acknowledged k m op ⟨s, event, s'⟩) :
    Unresolved m (some (unconfirmedPayload m op)) s' := by
  obtain ⟨value, id, acknowledged, hlabel, rfl, hcall, hqueued, rfl⟩ := h
  have hover := Submitting.step ⟨id, rfl, hcall⟩ hs hstep
  cases hlabel
  cases hstep.change with
  | @answer k stage stage' answer books hcall' hresume =>
    obtain rfl : stage = .refreshSubmit id := Option.some.inj (hcall'.symm.trans hcall)
    simp only [resume, refreshSubmitted, observed, hqueued] at hresume
    cases hresume
    rcases hover with ⟨id', -, hsubmit⟩ | hover
    · have hstage := (put_same _ _ _ _).symm.trans hsubmit
      cases hstage
    · cases hover with
      | refused h =>
        obtain ⟨error, -, hlabel, -⟩ := h
        cases hlabel
      | acknowledged h left =>
        obtain ⟨value', -, op', hlabel, -, -, hqueued', rfl⟩ := h
        cases hlabel
        obtain rfl : op' = acknowledged := Option.some.inj (hqueued'.symm.trans hqueued)
        exact left
      | unknown left =>
        have hrecorded := left.recorded
        rw [put_books] at hrecorded
        dsimp only at hrecorded
        rw [Dict.get?_set, if_pos rfl] at hrecorded
        cases hrecorded

/-- In every run of one instance, between two refresh requests for one model the first is answered
with 422 or 429, or it is acknowledged and then the status of its operation is read. And every
operation that a refresh request is answered with stays in `refresh_unconfirmed` until its status is
read. -/
theorem refresh_once {t : Instance} {tr : List CallTransition}
    (h : Run (CallStep setting) .new tr t) :
    (∀ before first between second after k k' m,
      tr = before ++ first :: (between ++ second :: after) → Submits k m first →
      Submits k' m second → (∃ e ∈ between, Refused k m e) ∨
        ∃ op earlier acknowledged later, between = earlier ++ acknowledged :: later ∧
          Acknowledged k m op acknowledged ∧ ∃ e ∈ later, StatusRead m op e) ∧
    ∀ before e after k m op, tr = before ++ e :: after → Acknowledged k m op e →
      t.books.refreshUnconfirmed.get? m = some (unconfirmedPayload m op) ∨
        ∃ r ∈ after, StatusRead m op r := by
  have hinv : ∀ {tr s}, Run (CallStep setting) .new tr s → Refreshing s := fun hrun =>
    hrun.invariant .new fun _ _ _ hi => hi.step
  constructor
  · rintro before first between second after k k' m rfl hfirst hsecond
    obtain ⟨hbefore, hstep, hrest⟩ := h.split
    obtain ⟨hbetween, hstep', -⟩ := hrest.split
    have hafter : Refreshing first.after := (hinv hbefore).step hstep
    have hlast := hbetween.invariant hafter fun _ _ _ hi => hi.step
    have hnot := not_mem_of_submits hstep' hsecond
    have hsubmitting : Submitting k m first.after := by
      obtain ⟨-, id, -, hid, hcall⟩ := hfirst
      exact ⟨id, hid, hcall⟩
    have hover := hbetween.persists_or hafter (fun _ _ _ hi => hi.step)
      (fun _ _ _ hi hs hp => hp.step hi hs) hsubmitting
    rcases hover with hstill | ⟨e, he, hover⟩
    · exact absurd (hstill.mem hlast) hnot
    · obtain ⟨earlier, later, rfl⟩ := List.append_of_mem he
      obtain ⟨hearlier, hstep'', hlater⟩ := hbetween.split
      have he' := (hearlier.invariant hafter fun _ _ _ hi => hi.step).step hstep''
      cases hover with
      | refused h => exact .inl ⟨e, he, h⟩
      | @acknowledged op hack left =>
        rcases unresolved_run hlater he' left with hleft | ⟨r, hr, op', hop, hread⟩
        · exact absurd hleft.ambiguous hnot
        · obtain rfl := unconfirmedPayload_injective m (Option.some.inj hop)
          exact .inr ⟨op, earlier, e, later, rfl, hack, r, hr, hread⟩
      | unknown left =>
        rcases unresolved_run hlater he' left with hleft | ⟨r, -, op', hop, -⟩
        · exact absurd hleft.ambiguous hnot
        · cases hop
  · rintro before e after k m op rfl hack
    obtain ⟨hbefore, hstep, hafter⟩ := h.split
    have he := hinv hbefore
    have hleft := acknowledged_after he hstep hack
    rcases unresolved_run hafter (he.step hstep) hleft with hleft | ⟨r, hr, op', hop, hread⟩
    · exact .inl hleft.recorded
    · obtain rfl := unconfirmedPayload_injective m (Option.some.inj hop)
      exact .inr ⟨r, hr, hread⟩

end Runs

/-! ## A cancelled refresh -/

/-- The bank `demo`, with no digest and no cron expression known. -/
def demoSetting : Setting where
  lib := .ofTables [] []
  croniterIsValid := fun _ => false
  floats := ⟨fun _ _ => false, fun _ _ => false⟩
  nfkc := id
  casefold := id
  apiUrl := "http://localhost"
  bankId := "demo"
  maxModels := 2
  creation := .default

def demoModel : Payload where
  entries := [("id".toList, .str "mm-1"), ("bank_id".toList, .str "demo"),
    ("name".toList, .str "Tea"), ("tags".toList, .arr []),
    ("trigger".toList, object ⟨SummaryPolicy.default.trigger, SummaryPolicy.default.nodup_trigger⟩)]
  nodup := by decide

def demoId : BoundedText 128 := ⟨"mm-1".toList, by decide⟩

def demoOperation : Text := "00000000-0000-0000-0000-000000000001".toList

def demoQueued : JsonValue :=
  object ⟨[("status".toList, .str "queued"), ("operation_id".toList, .str demoOperation)],
    by decide⟩

/-- The id of a refresh whose submission waits for its answer. -/
def Stage.refreshes : Stage → Option Text
  | .refreshSubmit id => some id.1
  | _ => none

theorem Stage.refreshes_eq_some {stage : Stage} {m : Text} (h : stage.refreshes = some m) :
    ∃ id, stage = .refreshSubmit id ∧ id.1 = m := by
  cases stage with
  | refreshSubmit id => exact ⟨id, rfl, Option.some.inj h⟩
  | _ => cases h

theorem step_of_queued (setting : Setting) {s : Instance} {k : ℕ} {id : BoundedText 128}
    {op : BoundedText 36} {value : JsonValue} (hcall : s.calls k = some (.refreshSubmit id))
    (hop : decodeQueued value = some op) :
    ∃ s', CallStep setting s (.answer k (.payload value)) s' ∧
      s'.calls k = some (.refreshVerify id op) := by
  have hresume : resume setting s.books (.refreshSubmit id) (.payload value) =
      some (refreshSubmitted s.books id (.payload value)) := rfl
  have hstage : (refreshSubmitted s.books id (.payload value)).2 = .refreshVerify id op := by
    simp only [refreshSubmitted, observed, hop]
  refine ⟨s.put k (refreshSubmitted s.books id (.payload value)).1
    (refreshSubmitted s.books id (.payload value)).2, ?_, hstage ▸ put_same _ _ _ _⟩
  rw [CallStep, Instance.next]
  simp only [hcall, hresume, Option.map_some]

/-- A refresh up to its request. -/
def demoCalls : List CallEvent :=
  [.start 0 (.refresh demoId),
    .answer 0 (.payload (object ⟨[("api_version".toList, .str "1.0.0")], by decide⟩)), .acquire 0,
    .answer 0 (.payload (object demoModel))]

theorem refresh_once_cancelled : ∃ tr u v t, Run (CallStep demoSetting) .new tr u ∧
    CallStep demoSetting u (.answer 0 (.payload demoQueued)) v ∧
    CallStep demoSetting v (.cancel 0) t ∧
    t.books.refreshUnconfirmed.get? "mm-1" = some (unconfirmedPayload "mm-1" demoOperation) := by
  have hsent : ((runCalls demoSetting .new demoCalls).bind fun after =>
      (after.2.calls 0).bind Stage.refreshes) = some demoId.1 := by decide +kernel
  have hqueued : (decodeQueued demoQueued).map Subtype.val = some demoOperation := by
    decide +kernel
  obtain ⟨⟨tr, u⟩, hcalls, hsent⟩ := Option.bind_eq_some_iff.mp hsent
  obtain ⟨stage, hcall, hsent⟩ := Option.bind_eq_some_iff.mp hsent
  obtain ⟨id, rfl, hid⟩ := Stage.refreshes_eq_some hsent
  obtain ⟨op, hop, hqueued⟩ := Option.map_eq_some_iff.mp hqueued
  have hrun := run_of_runCalls hcalls
  obtain ⟨v, hanswer, hverify⟩ := step_of_queued demoSetting hcall hop
  have hcancel : CallStep demoSetting v (.cancel 0) (v.put 0 v.books (.ended .cancelled)) := by
    simp only [CallStep, Instance.next, hverify]
  refine ⟨tr, u, v, _, hrun, hanswer, hcancel, ?_⟩
  have hwhole := (hrun.snoc hanswer).snoc hcancel
  have hack : Acknowledged 0 "mm-1".toList demoOperation
      ⟨u, .answer 0 (.payload demoQueued), v⟩ := ⟨_, id, op, rfl, hid, hcall, hop, hqueued⟩
  rcases (refresh_once hwhole).2 tr _ _ 0 _ _ (List.append_assoc _ _ _) hack with
    hleft | ⟨r, hr, hread⟩
  · exact hleft
  · obtain rfl := List.mem_singleton.mp hr
    obtain ⟨k, value, stage, hlabel, -⟩ := hread
    cases hlabel

end BetterHindsight.MentalModels
