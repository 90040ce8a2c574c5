import BetterHindsight.MentalModels.Refreshes

/-! # The mental-model allowance

The calls of one instance against the bank that it alone writes to. The bank serves requests in any
order and answers them as it likes, with no model in an answer to a read that it does not have; a
creation request is applied at most once, at any time until the bank refuses it. Answers and calls
get lost at will.

* `Bank`, `BankStep`: the models, the answers under way and the creation requests left to apply.
* `ReservationChange`: what an answer does to the reservations.
* `Allowed`: the models and the reservations together never exceed the allowance, and a request that
  is left to apply is for one of them. -/

namespace BetterHindsight.MentalModels
set_option autoImplicit false

/-! ## The bank -/

/-- The models, the answers under way to the calls, and the creation requests that may still be
applied, each with its call. -/
structure Bank where
  existing : Finset Text
  inFlight : ℕ → Option Answer
  pending : Finset (ℕ × Text)

structure BankWorld where
  models : Instance
  bank : Bank

/-- The models that exist or may still come to exist. -/
def Bank.possible (bank : Bank) : Finset Text := bank.existing ∪ bank.pending.image Prod.snd

/-- The creation request that a call at this stage has sent. -/
def Stage.creates : Stage → Option Text
  | .createSubmit m _ => some m
  | _ => none

/-- The answer refuses the request. -/
def Answer.refuses : Answer → Bool
  | .failed error => error.refuses
  | .payload _ => false

/-- What the bank's answer to the reads of `create` says is so. A failed read says nothing. -/
def Truthful (setting : Setting) (existing : Finset Text) : Stage → Answer → Prop
  | .createRead args _, .payload value =>
    (decodeModel setting value (args.modelId setting) (some (args.query setting))).isSome = true →
      args.modelId setting ∈ existing
  | .createPage .., .payload value => ∀ items total,
    decodePage setting.lib setting.bankId value 0 = some (items, total) →
      total = existing.card ∧ present? items ⊆ existing
  | _, _ => True

inductive BankEvent where
  | call (event : CallEvent)
  | serve (k : ℕ) (answer : Answer)
  | apply (k : ℕ) (m : Text)

/-- The call that a step is about. -/
def CallEvent.call : CallEvent → ℕ
  | .start k _ | .acquire k | .answer k _ | .cancel k => k

/-- The bank after a step of call `k`, which is at a new stage then. -/
def Bank.noted (bank : Bank) (k : ℕ) (stage : Option Stage) : Bank where
  existing := bank.existing
  inFlight := Function.update bank.inFlight k none
  pending := match stage.bind Stage.creates with
    | some m => insert (k, m) bank.pending
    | none => bank.pending

/-- The bank after it sends call `k` an answer: what it refuses it does not apply. -/
def Bank.served (bank : Bank) (k : ℕ) (stage : Stage) (answer : Answer) : Bank where
  existing := bank.existing
  inFlight := Function.update bank.inFlight k (some answer)
  pending := match stage.creates with
    | some m => if answer.refuses then bank.pending.erase (k, m) else bank.pending
    | none => bank.pending

/-- One step of a call or of the bank. -/
inductive BankStep (setting : Setting) : BankWorld → BankEvent → BankWorld → Prop
  /-- A call makes a step; an answer that it gets is the one under way to it. -/
  | call {w : BankWorld} {event : CallEvent} {models : Instance}
      (hstep : CallStep setting w.models event models)
      (hanswer : ∀ k answer, event = .answer k answer → w.bank.inFlight k = some answer) :
      BankStep setting w (.call event)
        ⟨models, w.bank.noted event.call (models.calls event.call)⟩
  | serve {w : BankWorld} {k : ℕ} {stage : Stage} {answer : Answer}
      (hcall : w.models.calls k = some stage) (idle : w.bank.inFlight k = none)
      (truthful : Truthful setting w.bank.existing stage answer)
      (refusable : answer.refuses = true → ∀ m, stage.creates = some m → (k, m) ∈ w.bank.pending) :
      BankStep setting w (.serve k answer) ⟨w.models, w.bank.served k stage answer⟩
  | apply {w : BankWorld} {k : ℕ} {m : Text} (hpending : (k, m) ∈ w.bank.pending) :
      BankStep setting w (.apply k m)
        ⟨w.models, { w.bank with
          existing := insert m w.bank.existing
          pending := w.bank.pending.erase (k, m) }⟩

/-- A new instance for a bank that has no more models than are allowed. -/
structure BankWorld.Initial (setting : Setting) (w : BankWorld) : Prop where
  models : w.models = .new
  idle : ∀ k, w.bank.inFlight k = none
  pending : w.bank.pending = ∅
  allowed : w.bank.existing.card ≤ setting.maxModels

abbrev BankTransition := Transition BankWorld BankEvent

/-! ## What a step tells -/

/-- Call `k` sends a creation request for the model. -/
def Creates (k : ℕ) (m : Text) (e : BankTransition) : Prop :=
  ∃ answer body, e.label = .call (.answer k answer) ∧
    e.after.models.calls k = some (.createSubmit m body)

/-- The creation request of call `k` is answered with 422 or 429. -/
def CreationRefused (k : ℕ) (m : Text) (e : BankTransition) : Prop :=
  ∃ error body, e.label = .call (.answer k (.failed error)) ∧ error.refuses = true ∧
    e.before.models.calls k = some (.createSubmit m body)

/-- A call reads the model, or finds it in the inventory. -/
def Seen (setting : Setting) (m : Text) (e : BankTransition) : Prop :=
  ∃ k value, e.label = .call (.answer k (.payload value)) ∧
    ((∃ args modern, e.before.models.calls k = some (.createRead args modern) ∧
        args.modelId setting = m ∧
        (decodeModel setting value m (some (args.query setting))).isSome = true) ∨
      ∃ args modern items total, e.before.models.calls k = some (.createPage args modern) ∧
        decodePage setting.lib setting.bankId value 0 = some (items, total) ∧ m ∈ present? items)

/-! ## Reservations -/

section Reservations
variable {setting : Setting} {books books' : Books} {stage stage' : Stage} {answer : Answer}

/-- What an answer does to the reservations. -/
inductive ReservationChange (setting : Setting) (books : Books) (answer : Answer) :
    Stage → Books → Stage → Prop
  | unchanged {stage stage' : Stage} {books' : Books}
      (reservations : books'.reservations = books.reservations)
      (notPage : ∀ args modern, stage' ≠ .createPage args modern)
      (notSubmit : stage'.creates = none) :
      ReservationChange setting books answer stage books' stage'
  | existing {args : CreateArgs} {modern : Bool} {value : JsonValue} {ending : Ending}
      (hanswer : answer = .payload value)
      (hread : (decodeModel setting value (args.modelId setting)
        (some (args.query setting))).isSome = true) :
      ReservationChange setting books answer (.createRead args modern)
        { books with reservations := books.reservations.erase (args.modelId setting) }
        (.ended ending)
  | absent {args : CreateArgs} {modern : Bool} (free : args.modelId setting ∉ books.reservations) :
      ReservationChange setting books answer (.createRead args modern) books
        (.createPage args modern)
  | reserved {args : CreateArgs} {modern : Bool} {value : JsonValue} {items : List ModelItem}
      (hanswer : answer = .payload value)
      (hpage : decodePage setting.lib setting.bankId value 0 = some (items, items.length))
      (room : items.length + (books.reservations \ present? items).card < setting.maxModels) :
      ReservationChange setting books answer (.createPage args modern)
        { books with
          reservations := insert (args.modelId setting) (books.reservations \ present? items) }
        (.createSubmit (args.modelId setting) (creationBody setting args modern))
  | refused {m : Text} {body : Payload} {error : ClientError} {ending : Ending}
      (hanswer : answer = .failed error) (hrefuses : error.refuses = true) :
      ReservationChange setting books answer (.createSubmit m body)
        { books with reservations := books.reservations.erase m } (.ended ending)

theorem decodeStatus_reservations (books : Books) (value : JsonValue) (m op : Text) :
    (decodeStatus books value m op).2.reservations = books.reservations := by
  unfold decodeStatus
  split
  · rfl
  · dsimp only
    split <;> rfl

theorem observed_ok {α : Type} {decoder : JsonValue → Option α} {a : α}
    (h : observed decoder answer = .ok a) :
    ∃ value, answer = .payload value ∧ decoder value = some a := by
  cases answer with
  | failed error => cases h
  | payload value =>
    cases hvalue : decoder value with
    | none => simp only [observed, hvalue, reduceCtorEq] at h
    | some b =>
      simp only [observed, hvalue, Except.ok.injEq] at h
      exact ⟨value, rfl, h ▸ hvalue⟩

theorem observed_refuses {α : Type} {decoder : JsonValue → Option α} {error : ClientError}
    (h : observed decoder answer = .error error) (hrefuses : error.refuses = true) :
    answer = .failed error := by
  cases answer with
  | failed error' => exact congrArg Answer.failed (Except.error.inj h)
  | payload value =>
    cases hvalue : decoder value with
    | none =>
      simp only [observed, hvalue, Except.error.injEq] at h
      subst h
      cases hrefuses
    | some b => simp only [observed, hvalue, reduceCtorEq] at h

theorem dispatch_plain (action : Action) (answer : Answer) :
    (∀ args modern, dispatch action answer ≠ .createPage args modern) ∧
      (dispatch action answer).creates = none := by
  have hfree := dispatch_holds action answer
  constructor
  · intro args modern heq
    rw [heq] at hfree
    cases hfree
  · cases hstage : dispatch action answer with
    | createSubmit m body =>
      rw [hstage] at hfree
      cases hfree
    | _ => rfl

theorem resume_reservations (h : resume setting books stage answer = some (books', stage')) :
    ReservationChange setting books answer stage books' stage' := by
  cases stage with
  | version action =>
    cases h
    obtain ⟨hpage, hsubmit⟩ := dispatch_plain action answer
    exact .unchanged rfl hpage hsubmit
  | refreshRead id =>
    simp only [resume, refreshRead, Option.some.injEq] at h
    (repeat' split at h) <;> cases h <;> exact .unchanged rfl (by rintro _ _ ⟨⟩) rfl
  | refreshSubmit id =>
    simp only [resume, refreshSubmitted, Option.some.injEq] at h
    (repeat' split at h) <;> cases h <;> exact .unchanged rfl (by rintro _ _ ⟨⟩) rfl
  | refreshVerify id op =>
    simp only [resume, refreshVerified, Option.some.injEq] at h
    cases answer with
    | failed error =>
      dsimp only at h
      split at h <;> cases h <;> exact .unchanged rfl (by rintro _ _ ⟨⟩) rfl
    | payload value =>
      have hsame := decodeStatus_reservations books value id.1 op.1
      dsimp only at h
      split at h
      · rename_i hdecoded
        rw [hdecoded] at hsame
        cases h
        exact .unchanged hsame (by rintro _ _ ⟨⟩) rfl
      · rename_i hdecoded
        rw [hdecoded] at hsame
        split at h <;> cases h <;> exact .unchanged hsame (by rintro _ _ ⟨⟩) rfl
  | status id op =>
    simp only [resume, statusRead, Option.some.injEq] at h
    cases answer with
    | failed error =>
      cases h
      exact .unchanged rfl (by rintro _ _ ⟨⟩) rfl
    | payload value =>
      have hsame := decodeStatus_reservations books value id.1 op.1
      dsimp only at h
      split at h
      all_goals
        rename_i hdecoded
        rw [hdecoded] at hsame
        cases h
        exact .unchanged hsame (by rintro _ _ ⟨⟩) rfl
  | createRead args modern =>
    simp only [resume, createRead, Option.some.injEq] at h
    split at h
    · rename_i model hmodel
      obtain ⟨value, hanswer, hvalue⟩ := observed_ok hmodel
      cases h
      exact .existing hanswer (by rw [hvalue]; rfl)
    · split at h
      · cases h
        exact .unchanged rfl (by rintro _ _ ⟨⟩) rfl
      · split at h
        · cases h
          exact .unchanged rfl (by rintro _ _ ⟨⟩) rfl
        · rename_i hfree
          cases h
          exact .absent hfree
  | createPage args modern =>
    simp only [resume, createPaged, Option.some.injEq] at h
    split at h
    · cases h
      exact .unchanged rfl (by rintro _ _ ⟨⟩) rfl
    · rename_i items total hpage
      obtain ⟨value, hanswer, hvalue⟩ := observed_ok hpage
      split at h
      · cases h
        exact .unchanged rfl (by rintro _ _ ⟨⟩) rfl
      · rename_i hroom
        cases h
        obtain ⟨htotal, hroom⟩ := not_or.mp hroom
        obtain rfl : total = items.length := not_not.mp htotal
        exact .reserved hanswer hvalue (not_le.mp hroom)
  | createSubmit m body =>
    simp only [resume, createSubmitted, Option.some.injEq] at h
    split at h
    · rename_i error herror
      split at h
      · rename_i hrefuses
        cases h
        exact .refused (observed_refuses herror hrefuses) hrefuses
      · cases h
        exact .unchanged rfl (by rintro _ _ ⟨⟩) rfl
    · cases h
      exact .unchanged rfl (by rintro _ _ ⟨⟩) rfl
  | refreshLock id => cases h
  | createLock args modern => cases h
  | ended ending => cases h

end Reservations

/-! ## The invariant -/

/-- What the bank says of a call at a stage, given the answer under way to it. -/
def Stage.Backed (setting : Setting) (reservations existing : Finset Text)
    (pending : Finset (ℕ × Text)) (answer : Option Answer) (k : ℕ) : Stage → Prop
  | .createRead args _ => ∀ value, answer = some (.payload value) →
    (decodeModel setting value (args.modelId setting) (some (args.query setting))).isSome = true →
      args.modelId setting ∈ existing
  | .createPage args _ => args.modelId setting ∉ reservations ∧
    ∀ value items total, answer = some (.payload value) →
      decodePage setting.lib setting.bankId value 0 = some (items, total) →
        -- the models when the page was served; those that came since were reserved
        ∃ seen : Finset Text, seen.card = total ∧ present? items ⊆ seen ∧ seen ⊆ existing ∧
          existing ⊆ seen ∪ reservations
  | .createSubmit m _ => (∀ k', k' ≠ k → (k', m) ∈ pending → m ∈ existing) ∧
    ∀ a, answer = some a → a.refuses = true → (k, m) ∉ pending
  | _ => True

structure Allowed (setting : Setting) (w : BankWorld) : Prop where
  locked : Locked w.models
  covered : ∀ k m, (k, m) ∈ w.bank.pending →
    m ∈ w.bank.existing ∪ w.models.books.reservations
  bounded : (w.bank.existing ∪ w.models.books.reservations).card ≤ setting.maxModels
  backed : ∀ k stage, w.models.calls k = some stage →
    stage.Backed setting w.models.books.reservations w.bank.existing w.bank.pending
      (w.bank.inFlight k) k

section Invariant
variable {setting : Setting} {reservations existing existing' : Finset Text}
  {pending pending' : Finset (ℕ × Text)} {answer : Option Answer} {k : ℕ} {stage : Stage}

theorem backed_of_not_holds (h : stage.holdsLock = false) :
    stage.Backed setting reservations existing pending answer k := by
  cases stage <;> trivial

/-- A call that just got to its stage. -/
theorem backed_none (notPage : ∀ args modern, stage ≠ .createPage args modern)
    (notSubmit : stage.creates = none) :
    stage.Backed setting reservations existing pending none k := by
  cases stage with
  | createRead args modern => exact nofun
  | createPage args modern => exact absurd rfl (notPage args modern)
  | createSubmit m body => cases notSubmit
  | _ => trivial

/-- Models that were reserved may come into existence, and requests may be applied or refused. -/
theorem Stage.Backed.mono (h : stage.Backed setting reservations existing pending answer k)
    (hexisting : existing ⊆ existing') (hcovered : existing' ⊆ existing ∪ reservations)
    (hpending : pending' ⊆ pending) :
    stage.Backed setting reservations existing' pending' answer k := by
  cases stage with
  | createRead args modern =>
    exact fun value hanswer hread => hexisting (h value hanswer hread)
  | createPage args modern =>
    refine ⟨h.1, fun value items total hanswer hpage => ?_⟩
    obtain ⟨seen, hcard, hpresent, hseen, hsince⟩ := h.2 value items total hanswer hpage
    refine ⟨seen, hcard, hpresent, hseen.trans hexisting, hcovered.trans ?_⟩
    exact Finset.union_subset hsince Finset.subset_union_right
  | createSubmit m body =>
    exact ⟨fun k' hk hmem => hexisting (h.1 k' hk (hpending hmem)),
      fun a hanswer hrefuses hmem => h.2 a hanswer hrefuses (hpending hmem)⟩
  | _ => trivial

theorem decodePage_nodup {lib : Stdlib} {bankId : Text} {value : JsonValue} {offset total : ℕ}
    {items : List ModelItem} (h : decodePage lib bankId value offset = some (items, total)) :
    (items.map fun item => item.id.1).Nodup := by
  simp only [decodePage, Option.bind_eq_bind, Option.bind_eq_some_iff, Option.guard_eq_some',
    Option.pure_def, Option.some.injEq, Prod.mk.injEq] at h
  obtain ⟨-, -, -, -, -, -, -, -, -, -, projected, -, -, hnodup, rfl, -⟩ := h
  exact hnodup

theorem card_present? {lib : Stdlib} {bankId : Text} {value : JsonValue} {offset total : ℕ}
    {items : List ModelItem} (h : decodePage lib bankId value offset = some (items, total)) :
    (present? items).card = items.length := by
  rw [present?, List.toFinset_card_of_nodup (decodePage_nodup h), List.length_map]

theorem entered_plain {books : Books} {stage' : Stage}
    (h : entered setting books stage = some stage') :
    (∀ args modern, stage' ≠ .createPage args modern) ∧ stage'.creates = none := by
  unfold entered at h
  split at h
  · split at h <;> cases h <;> exact ⟨nofun, rfl⟩
  · split at h <;> cases h <;> exact ⟨nofun, rfl⟩
  · cases h

end Invariant

theorem noted_same (bank : Bank) (k : ℕ) (stage : Option Stage) :
    (bank.noted k stage).inFlight k = none := Function.update_self _ _ _

theorem noted_ne {k k' : ℕ} (h : k' ≠ k) (bank : Bank) (stage : Option Stage) :
    (bank.noted k stage).inFlight k' = bank.inFlight k' := Function.update_of_ne h _ _

section Steps
variable {setting : Setting} {w w' : BankWorld} {event : BankEvent}

theorem Allowed.initial (h : w.Initial setting) : Allowed setting w where
  locked := h.models ▸ .new
  covered k m hmem := by
    rw [h.pending] at hmem
    cases hmem
  bounded := by
    rw [h.models]
    change (w.bank.existing ∪ ∅).card ≤ setting.maxModels
    rw [Finset.union_empty]
    exact h.allowed
  backed k stage hcall := by
    rw [h.models] at hcall
    cases hcall

/-- A step that leaves the reservations as they are and creates nothing. -/
theorem Allowed.put_same (h : Allowed setting w) (k : ℕ) {models : Instance} {stage : Stage}
    (hlocked : Locked models)
    (hcalls : models.calls = Function.update w.models.calls k (some stage))
    (hsame : models.books.reservations = w.models.books.reservations)
    (hpage : ∀ args modern, stage ≠ .createPage args modern) (hsubmit : stage.creates = none) :
    Allowed setting ⟨models, w.bank.noted k (models.calls k)⟩ := by
  have hpending : (w.bank.noted k (models.calls k)).pending = w.bank.pending := by
    rw [hcalls, Function.update_self, Bank.noted]
    simp only [Option.bind_some, hsubmit]
  refine ⟨hlocked, fun k' m hmem => ?_, hsame.symm ▸ h.bounded, fun k' stage' hcall => ?_⟩
  · rw [hpending] at hmem
    exact hsame.symm ▸ h.covered k' m hmem
  · rw [hcalls, Function.update_apply] at hcall
    dsimp only
    rw [hsame, hpending]
    split at hcall
    · rename_i hk
      cases hcall
      rw [hk, noted_same]
      exact backed_none hpage hsubmit
    · rename_i hk
      rw [noted_ne hk]
      exact h.backed k' stage' hcall

/-- The other calls do not hold the lock while one does. -/
theorem Allowed.answered (h : Allowed setting w) {k : ℕ} {stage stage' : Stage} {books : Books}
    (hcall : w.models.calls k = some stage) (hholds : stage.holdsLock = true)
    (hlocked : Locked (w.models.put k books stage'))
    (hcovered : ∀ k' m, (k', m) ∈ (w.bank.noted k (some stage')).pending →
      m ∈ w.bank.existing ∪ books.reservations)
    (hbounded : (w.bank.existing ∪ books.reservations).card ≤ setting.maxModels)
    (hbacked : stage'.Backed setting books.reservations w.bank.existing
      (w.bank.noted k (some stage')).pending none k) :
    Allowed setting
      ⟨w.models.put k books stage', w.bank.noted k ((w.models.put k books stage').calls k)⟩ := by
  have hself : (w.models.put k books stage').calls k = some stage' := Function.update_self _ _ _
  rw [hself]
  refine ⟨hlocked, hcovered, hbounded, fun k' other hother => ?_⟩
  dsimp only at hother ⊢
  rw [put_calls] at hother
  split at hother
  · rename_i hk
    cases hother
    rw [hk, noted_same]
    exact hbacked
  · rename_i hk
    exact backed_of_not_holds (h.locked.others hcall hholds hk hother)

theorem Allowed.call (h : Allowed setting w) {event : CallEvent} {models : Instance}
    (hstep : CallStep setting w.models event models)
    (hanswer : ∀ k answer, event = .answer k answer → w.bank.inFlight k = some answer) :
    Allowed setting ⟨models, w.bank.noted event.call (models.calls event.call)⟩ := by
  have hlocked := h.locked.step hstep
  cases hstep.change with
  | @start k action fresh => exact h.put_same k hlocked rfl rfl nofun rfl
  | @cancel k stage hcall running => exact h.put_same k hlocked rfl rfl nofun rfl
  | @acquire k stage stage' free hcall hentered =>
    obtain ⟨hpage, hsubmit⟩ := entered_plain hentered
    exact h.put_same k hlocked rfl rfl hpage hsubmit
  | @answer k stage stage' answer books hcall hresume =>
    have hflight := hanswer k answer rfl
    have hbacked := h.backed k stage hcall
    rw [hflight] at hbacked
    cases resume_reservations hresume with
    | unchanged reservations notPage notSubmit =>
      exact h.put_same k hlocked rfl reservations notPage notSubmit
    | @existing args modern value ending hvalue hread =>
      have hexists := hbacked value (congrArg some hvalue) hread
      refine h.answered hcall rfl hlocked (fun k' m hmem => ?_) ?_ trivial
      · rcases Finset.mem_union.mp (h.covered k' m hmem) with hm | hm
        · exact Finset.mem_union_left _ hm
        · by_cases heq : m = args.modelId setting
          · rw [heq]
            exact Finset.mem_union_left _ hexists
          · exact Finset.mem_union_right _ (Finset.mem_erase.mpr ⟨heq, hm⟩)
      · refine (Finset.card_le_card ?_).trans h.bounded
        exact Finset.union_subset_union_right (Finset.erase_subset _ _)
    | @absent args modern free =>
      exact h.answered hcall rfl hlocked h.covered h.bounded ⟨free, nofun⟩
    | @reserved args modern value items hvalue hpage room =>
      obtain ⟨hfree, hserved⟩ := hbacked
      obtain ⟨seen, hcard, hpresent, hseen, hsince⟩ :=
        hserved value items items.length (congrArg some hvalue) hpage
      have hcomplete : present? items = seen := by
        refine Finset.eq_of_subset_of_card_le hpresent ?_
        rw [hcard, card_present? hpage]
      rw [hcomplete] at room hlocked ⊢
      refine h.answered hcall rfl hlocked (fun k' m hmem => ?_) ?_ ⟨fun k' hk hmem => ?_, nofun⟩
      · rcases Finset.mem_insert.mp hmem with heq | hmem
        · cases heq
          exact Finset.mem_union_right _ (Finset.mem_insert_self _ _)
        · rcases Finset.mem_union.mp (h.covered k' m hmem) with hm | hm
          · exact Finset.mem_union_left _ hm
          · by_cases hs : m ∈ seen
            · exact Finset.mem_union_left _ (hseen hs)
            · exact Finset.mem_union_right _
                (Finset.mem_insert_of_mem (Finset.mem_sdiff.mpr ⟨hm, hs⟩))
      · have hsubset : w.bank.existing ∪ insert (args.modelId setting)
            (w.models.books.reservations \ seen) ⊆
              insert (args.modelId setting) (seen ∪ w.models.books.reservations) := by
          refine Finset.union_subset ?_ (Finset.insert_subset_insert _ ?_)
          · exact hsince.trans (Finset.subset_insert _ _)
          · exact Finset.sdiff_subset.trans Finset.subset_union_right
        have hunion : (seen ∪ w.models.books.reservations).card =
            seen.card + (w.models.books.reservations \ seen).card := by
          rw [← Finset.union_sdiff_self_eq_union, Finset.card_union_of_disjoint
            Finset.disjoint_sdiff]
        have hinsert := Finset.card_insert_le (args.modelId setting)
          (seen ∪ w.models.books.reservations)
        have hle := Finset.card_le_card hsubset
        dsimp only
        omega
      · rcases Finset.mem_insert.mp hmem with heq | hmem
        · exact absurd (Prod.mk.inj heq).1 hk
        · exact (Finset.mem_union.mp (h.covered k' _ hmem)).resolve_right hfree
    | @refused m body error ending hvalue hrefuses =>
      obtain ⟨hothers, hgone⟩ := hbacked
      have hgone := hgone answer rfl (hvalue ▸ hrefuses)
      refine h.answered hcall rfl hlocked (fun k' m' hmem => ?_) ?_ trivial
      · by_cases heq : m' = m
        · subst heq
          have hk : k' ≠ k := fun hk => hgone (hk ▸ hmem)
          exact Finset.mem_union_left _ (hothers k' hk hmem)
        · rcases Finset.mem_union.mp (h.covered k' m' hmem) with hm | hm
          · exact Finset.mem_union_left _ hm
          · exact Finset.mem_union_right _ (Finset.mem_erase.mpr ⟨heq, hm⟩)
      · refine (Finset.card_le_card ?_).trans h.bounded
        exact Finset.union_subset_union_right (Finset.erase_subset _ _)

theorem served_pending_subset (bank : Bank) (k : ℕ) (stage : Stage) (answer : Answer) :
    (bank.served k stage answer).pending ⊆ bank.pending := by
  unfold Bank.served
  dsimp only
  split
  · split
    · exact Finset.erase_subset _ _
    · exact Finset.Subset.refl _
  · exact Finset.Subset.refl _

/-- A truthful answer is one that the call is ready for. -/
theorem Truthful.backed {reservations existing : Finset Text} {pending : Finset (ℕ × Text)}
    {k : ℕ} {stage : Stage} {answer : Answer} (h : Truthful setting existing stage answer)
    (hbefore : stage.Backed setting reservations existing pending none k)
    (hrefused : ∀ m, stage.creates = some m → answer.refuses = true → (k, m) ∉ pending) :
    stage.Backed setting reservations existing pending (some answer) k := by
  cases stage with
  | createRead args modern =>
    rintro value heq hread
    cases heq
    exact h hread
  | createPage args modern =>
    refine ⟨hbefore.1, fun value items total heq hpage => ?_⟩
    cases heq
    obtain ⟨htotal, hpresent⟩ := h items total hpage
    exact ⟨existing, htotal.symm, hpresent, Finset.Subset.refl _, Finset.subset_union_left⟩
  | createSubmit m body =>
    refine ⟨hbefore.1, fun a heq hrefuses => ?_⟩
    cases heq
    exact hrefused m rfl hrefuses
  | _ => trivial

theorem Allowed.step (h : Allowed setting w) (hstep : BankStep setting w event w') :
    Allowed setting w' := by
  cases hstep with
  | call hstep hanswer => exact h.call hstep hanswer
  | @serve k stage answer hcall idle truthful refusable =>
    have hsubset := served_pending_subset w.bank k stage answer
    refine ⟨h.locked, fun k' m hmem => h.covered k' m (hsubset hmem), h.bounded,
      fun k' stage' hcall' => ?_⟩
    have hmono := (h.backed k' stage' hcall').mono (Finset.Subset.refl _)
      Finset.subset_union_left hsubset
    by_cases hk : k' = k
    · subst hk
      obtain rfl : stage' = stage := Option.some.inj (hcall'.symm.trans hcall)
      rw [idle] at hmono
      have hanswer : (w.bank.served k' stage' answer).inFlight k' = some answer :=
        Function.update_self _ _ _
      rw [hanswer]
      refine truthful.backed hmono fun m hm hrefuses => ?_
      simp only [Bank.served, hm, hrefuses, if_true]
      exact Finset.notMem_erase _ _
    · have hanswer : (w.bank.served k stage answer).inFlight k' = w.bank.inFlight k' :=
        Function.update_of_ne hk _ _
      rw [hanswer]
      exact hmono
  | @apply k m hpending =>
    have hm := h.covered k m hpending
    have hcovered : insert m w.bank.existing ⊆
        w.bank.existing ∪ w.models.books.reservations :=
      Finset.insert_subset hm Finset.subset_union_left
    have herase := Finset.erase_subset (k, m) w.bank.pending
    refine ⟨h.locked, fun k' m' hmem => ?_, ?_, fun k' stage hcall => ?_⟩
    · rcases Finset.mem_union.mp (h.covered k' m' (herase hmem)) with hm' | hm'
      · exact Finset.mem_union_left _ (Finset.mem_insert_of_mem hm')
      · exact Finset.mem_union_right _ hm'
    · refine (Finset.card_le_card ?_).trans h.bounded
      exact Finset.union_subset hcovered Finset.subset_union_right
    · exact (h.backed k' stage hcall).mono (Finset.subset_insert _ _) hcovered herase

theorem Allowed.possible_le (h : Allowed setting w) :
    w.bank.possible.card ≤ setting.maxModels := by
  refine (Finset.card_le_card ?_).trans h.bounded
  refine Finset.union_subset Finset.subset_union_left fun m hm => ?_
  obtain ⟨⟨k, m'⟩, hmem, rfl⟩ := Finset.mem_image.mp hm
  exact h.covered k m' hmem

/-! ## Requests for one model -/

/-- The model is reserved, and no other call waits for a creation request for it. -/
structure Reserved (k : ℕ) (m : Text) (w : BankWorld) : Prop where
  mem : m ∈ w.models.books.reservations
  alone : ∀ k' body, w.models.calls k' = some (.createSubmit m body) → k' = k

/-- A creation request is sent only where the model is not reserved. -/
theorem Creates.reserved (h : Allowed setting w) (hstep : BankStep setting w event w') {k : ℕ}
    {m : Text} (hcreates : Creates k m ⟨w, event, w'⟩) :
    m ∉ w.models.books.reservations ∧ Reserved k m w' := by
  obtain ⟨answer, body, hlabel, hafter⟩ := hcreates
  cases hlabel
  cases hstep with
  | call hstep hanswer =>
    cases hstep.change with
    | @answer k stage stage' answer books hcall hresume =>
      have hstage : stage' = .createSubmit m body :=
        Option.some.inj ((put_same _ _ _ _).symm.trans hafter)
      subst hstage
      have hbacked := h.backed k stage hcall
      cases resume_reservations hresume with
      | unchanged reservations notPage notSubmit => cases notSubmit
      | @reserved args modern value items hvalue hpage room =>
        refine ⟨hbacked.1, Finset.mem_insert_self _ _, fun k' body' hcall' => ?_⟩
        by_contra hk
        rw [put_ne _ hk] at hcall'
        cases h.locked.others hcall rfl hk hcall'

/-- A reservation goes only when its request is refused or the model is seen. -/
theorem Reserved.step {k : ℕ} {m : Text} (h : Reserved k m w) (hw : Allowed setting w)
    (hstep : BankStep setting w event w') :
    Reserved k m w' ∨ CreationRefused k m ⟨w, event, w'⟩ ∨ Seen setting m ⟨w, event, w'⟩ := by
  cases hstep with
  | serve hcall idle truthful refusable => exact .inl ⟨h.mem, h.alone⟩
  | apply hpending => exact .inl ⟨h.mem, h.alone⟩
  | call hstep hanswer =>
    have halone : ∀ {k' : ℕ} {books : Books} {stage : Stage} {lockOwner : Option ℕ},
        (∀ body, stage ≠ .createSubmit m body) → ∀ k'' body,
        ({ w.models with lockOwner := lockOwner }.put k' books stage).calls k'' =
          some (.createSubmit m body) → k'' = k := by
      intro k' books stage lockOwner hstage k'' body hcall
      rw [put_calls] at hcall
      split at hcall
      · exact absurd (Option.some.inj hcall) (hstage body)
      · exact h.alone k'' body hcall
    have hplain : ∀ {stage : Stage}, stage.creates = none →
        ∀ body, stage ≠ .createSubmit m body := by
      rintro stage hnone body rfl
      cases hnone
    cases hstep.change with
    | start fresh => exact .inl ⟨h.mem, halone nofun⟩
    | cancel hcall running => exact .inl ⟨h.mem, halone nofun⟩
    | acquire free hcall hentered =>
      exact .inl ⟨h.mem, halone (hplain (entered_plain hentered).2)⟩
    | @answer k' stage stage' answer books hcall hresume =>
      have hbacked := hw.backed k' stage hcall
      cases resume_reservations hresume with
      | unchanged reservations notPage notSubmit =>
        exact .inl ⟨reservations.symm ▸ h.mem, halone (hplain notSubmit)⟩
      | @existing args modern value ending hvalue hread =>
        by_cases hm : args.modelId setting = m
        · subst hm
          exact .inr (.inr ⟨k', value, by rw [hvalue], .inl ⟨args, modern, hcall, rfl, hread⟩⟩)
        · exact .inl ⟨Finset.mem_erase.mpr ⟨fun heq => hm heq.symm, h.mem⟩, halone nofun⟩
      | absent free => exact .inl ⟨h.mem, halone nofun⟩
      | @reserved args modern value items hvalue hpage room =>
        by_cases hm : m ∈ present? items
        · exact .inr (.inr ⟨k', value, by rw [hvalue],
            .inr ⟨args, modern, items, items.length, hcall, hpage, hm⟩⟩)
        · refine .inl ⟨Finset.mem_insert_of_mem (Finset.mem_sdiff.mpr ⟨h.mem, hm⟩),
            halone fun body heq => ?_⟩
          obtain ⟨rfl, -⟩ := Stage.createSubmit.inj heq
          exact hbacked.1 h.mem
      | @refused m' body error ending hvalue hrefuses =>
        by_cases hm : m' = m
        · subst hm
          have hk := h.alone k' body hcall
          exact .inr (.inl ⟨error, body, by rw [← hk, hvalue], hrefuses, hk ▸ hcall⟩)
        · exact .inl ⟨Finset.mem_erase.mpr ⟨fun heq => hm heq.symm, h.mem⟩, halone nofun⟩

end Steps

def demoCreate : CreateArgs := ⟨"Tea".toList, "Which tea?".toList⟩

/-- A bank with one model that is about to answer a creation call. -/
def demoBank : BankWorld := ⟨.new, ⟨{"mm-1".toList}, fun _ => none, ∅⟩⟩

end BetterHindsight.MentalModels
