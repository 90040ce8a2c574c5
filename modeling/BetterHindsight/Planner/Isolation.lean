import BetterHindsight.Planner.Sides

/-! # Isolation of sessions in the mailbox

Whether the operations for one family of sessions can be seen by the others.

* `SidedCall`, `Separate`: a run whose calls keep to one family, or to the others.
* `KeepsApart`, `Apart`: the turn id of a call leads to no plan of the other side.
* `isolated`: then the others see the same results with and without the inserted calls of the
  family.
* `turn_collision`: with one turn id on both sides they do not. -/

namespace BetterHindsight
set_option autoImplicit false

open Mailbox

/-! ## Calls of two sides -/

structure SidedCall where
  call : MailboxCall
  /-- performed for the family -/
  mine : Bool
  /-- left out in the run to compare with -/
  inserted : Bool

/-- The operation concerns sessions of one side only. -/
def MailboxOperation.PerformedFor (family : Text → Bool) (m : Mailbox) (mine : Bool) :
    MailboxOperation → Prop
  | activate sessionId _ => family sessionId = mine
  | deactivate token => ∀ sessionId, m.activation? token = some sessionId → family sessionId = mine
  | rebind token newSessionId _ => family newSessionId = mine ∧
      ∀ sessionId, m.activation? token = some sessionId → family sessionId = mine
  | isActive sessionId => family sessionId = mine
  | beginTurn sessionId _ parentSessionId _ => family sessionId = mine ∧
      (parentSessionId ≠ [] → family parentSessionId = mine)
  | reserve args => family args.sessionId = mine
  | finalize _ => True
  | cancel _ _ => True
  | consume _ sessionId => family sessionId = mine
  | clearSessionPlans sessionId => family sessionId = mine
  | purgeStale => True

/-- The operations that may be inserted. -/
def MailboxOperation.Insertable : MailboxOperation → Prop
  | beginTurn _ _ _ _ => True
  | reserve _ => True
  | finalize _ => True
  | cancel _ _ => True
  | consume _ _ => True
  | clearSessionPlans _ => True
  | _ => False

/-- A call on the clock, with a token of its own where it activates, for one side. -/
structure SidedCall.Admissible (family : Text → Bool) (w : MailboxWorld) (c : SidedCall) :
    Prop where
  clock : w.clock ≤ c.call.now
  fresh : c.call.operation.Fresh w.mailbox
  performed : c.call.operation.PerformedFor family w.mailbox c.mine
  inserted : c.inserted = true → c.mine = true ∧ c.call.operation.Insertable

/-- The turn id of the call leads to no plan of the other side. -/
def SidedCall.KeepsApart (family : Text → Bool) (m : Mailbox) (c : SidedCall) : Prop :=
  ∀ state, m = some state →
    match c.call.operation with
    | .reserve args => c.mine = false →
        (state.purgeExpired c.call.now).ReservesOwn family args
    | .finalize args =>
      (state.purgeExpired c.call.now).FinalizesOwn family c.mine c.call.now args
    | .cancel turnId ownerToken => c.mine = true → ∀ plan,
        ¬ state.CancelsOther family c.call.now turnId ownerToken plan
    | .consume _ sessionId => c.mine = true → ∀ effective redirected,
        ((state.purgeExpired c.call.now).resolveActiveSession sessionId).1 =
          some (effective, redirected) →
        (state.purgeExpired c.call.now).ClosesOwn family effective
    | _ => True

section Runs
variable (lib : Stdlib) (family : Text → Bool)

/-- Every call keeps to its side. -/
def Separate : MailboxWorld → List SidedCall → Prop
  | _, [] => True
  | w, c :: calls => c.Admissible family w ∧ Separate (w.next lib c.call) calls

/-- No call meets a plan of the other side. -/
def Apart : MailboxWorld → List SidedCall → Prop
  | _, [] => True
  | w, c :: calls => c.KeepsApart family w.mailbox ∧ Apart (w.next lib c.call) calls

/-- What the others get. -/
def observed : MailboxWorld → List SidedCall → List MailboxResult
  | _, [] => []
  | w, c :: calls =>
    if c.mine then observed (w.next lib c.call) calls
    else (c.call.run lib w.mailbox).1 :: observed (w.next lib c.call) calls

end Runs

/-! ## One call on both sides -/

/-- Both entries are there, or none is, and they agree for the others. -/
inductive Agrees (family : Text → Bool) (now : ℚ) : Mailbox → Mailbox → Prop
  | none : Agrees family now none none
  | some {a b : HomeState} (h : a.Agree family now b) : Agrees family now (some a) (some b)

/-- The same result, and agreeing entries. -/
inductive SameOutcome {α : Type} (family : Text → Bool) (now : ℚ) :
    Except MailboxError (α × Mailbox) → Except MailboxError (α × Mailbox) → Prop
  | error (e : MailboxError) : SameOutcome family now (.error e) (.error e)
  | ok (value : α) {m m' : Mailbox} (h : Agrees family now m m') :
      SameOutcome family now (.ok (value, m)) (.ok (value, m'))

section Calls
variable {family : Text → Bool} {now : ℚ} {m m' : Mailbox}

theorem Agrees.symm (h : Agrees family now m m') : Agrees family now m' m := by
  cases h with
  | none => exact .none
  | some h => exact .some h.symm

theorem Agrees.trans {m'' : Mailbox} (h : Agrees family now m m') (h' : Agrees family now m' m'') :
    Agrees family now m m'' := by
  cases h with
  | none => exact h'
  | some h =>
    cases h' with
    | some h' => exact .some (h.trans h')

theorem Agrees.refl (m : Mailbox) : Agrees family now m m := by
  cases m with
  | none => exact .none
  | some a => exact .some (HomeState.Agree.refl a)

theorem SameOutcome.check {α : Type} (x : Except MailboxError Unit)
    {f g : Unit → Except MailboxError (α × Mailbox)}
    (h : SameOutcome family now (f ()) (g ())) : SameOutcome family now (x >>= f) (x >>= g) := by
  cases x with
  | error e => exact .error e
  | ok u => exact h

theorem SameOutcome.reply {α : Type} {x y : Except MailboxError (α × Mailbox)}
    (h : SameOutcome family now x y) (hm : Agrees family now m m') (wrap : α → MailboxResult) :
    (MailboxResult.reply wrap m x).1 = (MailboxResult.reply wrap m' y).1 ∧
      Agrees family now (MailboxResult.reply wrap m x).2 (MailboxResult.reply wrap m' y).2 := by
  cases h with
  | error e => exact ⟨rfl, hm⟩
  | ok value h => exact ⟨rfl, h⟩

theorem Agrees.dropEmptyHome {a b : HomeState} (h : a.Agree family now b) (ha : a.Sound)
    (hb : b.Sound) : Agrees family now a.dropEmptyHome b.dropEmptyHome := by
  rw [ha.dropEmptyHome_eq, hb.dropEmptyHome_eq, isEmpty_of_keys h.keys]
  split
  · exact .none
  · exact .some h

theorem purged_agree {a b : HomeState} (h : a.Agree family now b) :
    (a.purgeExpired now).Agree family now (b.purgeExpired now) :=
  (HomeState.Agree.purgeExpired a).symm.trans (h.trans (HomeState.Agree.purgeExpired b))

theorem activation_agree {a b : HomeState} (h : a.Agree family now b) {token sessionId : Text}
    (hget : a.activations.get? token = some sessionId) (hother : family sessionId = false) :
    b.activations.get? token = some sessionId := by
  have hfilter := h.activations token
  rw [hget, Option.filter_some_pos (by simp [hother])] at hfilter
  exact (Option.filter_eq_some_iff.mp hfilter.symm).1

theorem inactive_agree {a b : HomeState} (h : a.Agree family now b) {token : Text}
    (hget : a.activations.get? token = none) : b.activations.get? token = none := by
  rw [← Option.not_isSome_iff_eq_none, ← h.keys token, hget]
  exact Bool.false_ne_true

theorem same_activate (h : Agrees family now m m') (sessionId token : Text) :
    SameOutcome family now (m.activate sessionId token now) (m'.activate sessionId token now) := by
  refine SameOutcome.check _ (.ok token (.some ?_))
  cases h with
  | none => exact HomeState.Agree.refl _
  | some h => exact (purged_agree h).setActivation token sessionId

/-- Either side may deactivate: the session loses an activation on both. -/
theorem same_deactivate (h : Agrees family now m m') (hm : m.Sound) (hm' : m'.Sound)
    (token : Text) : SameOutcome family now (m.deactivate token now) (m'.deactivate token now) := by
  refine SameOutcome.check _ ?_
  cases h with
  | none => exact .ok () .none
  | @some a b h =>
    have hpurged := purged_agree h
    have ha := (hm a rfl).1.purgeExpired now
    have hb := (hm' b rfl).1.purgeExpired now
    dsimp only
    generalize a.purgeExpired now = a' at hpurged ha ⊢
    generalize b.purgeExpired now = b' at hpurged hb ⊢
    have hreleased := hpurged.eraseActivation token
    cases hget : a'.activations.get? token with
    | none =>
      rw [inactive_agree hpurged hget]
      exact .ok () (Agrees.dropEmptyHome hreleased (release_sound ha hget)
        (release_sound hb (inactive_agree hpurged hget)))
    | some sessionId =>
      cases hother : family sessionId with
      | false =>
        have hget' := activation_agree hpurged hget hother
        rw [hget']
        exact .ok () (Agrees.dropEmptyHome (hreleased.clearOrphan hother)
          (release_orphan_sound ha hget) (release_orphan_sound hb hget'))
      | true =>
        cases hget' : b'.activations.get? token with
        | none =>
          rw [inactive_agree hpurged.symm hget'] at hget
          cases hget
        | some sessionId' =>
          have hother' : family sessionId' = true := by
            by_contra hne
            rw [Bool.not_eq_true] at hne
            rw [activation_agree hpurged.symm hget' hne] at hget
            cases hget
            rw [hother] at hne
            cases hne
          refine .ok () (Agrees.dropEmptyHome ?_ (release_orphan_sound ha hget)
            (release_orphan_sound hb hget'))
          exact (HomeState.Agree.orphan_family hother).symm.trans
            (hreleased.trans (HomeState.Agree.orphan_family hother'))

theorem same_rebind (h : Agrees family now m m') {token new : Text} (parent : Text)
    (hold : ∀ sessionId, m.activation? token = some sessionId → family sessionId = false) :
    SameOutcome family now (m.rebind token new parent now) (m'.rebind token new parent now) := by
  refine SameOutcome.check _ (SameOutcome.check _ ?_)
  cases h with
  | none => exact .error _
  | @some a b h =>
    have hpurged := purged_agree h
    dsimp only
    cases hget : a.activations.get? token with
    | none =>
      rw [inactive_agree h hget]
      exact .error _
    | some old =>
      have hother := hold old hget
      rw [activation_agree h hget hother]
      dsimp only
      split
      · exact .ok true (.some hpurged)
      · split
        · exact .ok false (.some hpurged)
        · exact .ok true (.some (((hpurged.setActivation token new).clearOrphan hother).clearSession
            new true))

theorem same_isActive (h : Agrees family now m m') {sessionId : Text}
    (hother : family sessionId = false) :
    SameOutcome family now (m.isActive sessionId now) (m'.isActive sessionId now) := by
  refine SameOutcome.check _ ?_
  cases h with
  | none => exact .ok false .none
  | @some a b h =>
    have hpurged := purged_agree h
    dsimp only
    rw [hpurged.isActive hother]
    exact .ok _ (.some hpurged)

theorem SameOutcome.of_pair {α : Type} {x y : α × HomeState} (hresult : x.1 = y.1)
    (h : x.2.Agree family now y.2) :
    SameOutcome family now (.ok (x.1, some x.2)) (.ok (y.1, some y.2)) := by
  rw [hresult]
  exact .ok _ (.some h)

theorem same_beginTurn (h : Agrees family now m m') {sessionId parent : Text}
    (hother : family sessionId = false) (hparent : parent ≠ [] → family parent = false)
    (turnId owner : Text) :
    SameOutcome family now (m.beginTurn sessionId turnId parent owner now)
      (m'.beginTurn sessionId turnId parent owner now) := by
  refine SameOutcome.check _ (SameOutcome.check _ ?_)
  cases h with
  | none => exact .ok none .none
  | @some a b h =>
    obtain ⟨hresult, hagree⟩ := (purged_agree h).beginTurn (a.live_purgeExpired now)
      (b.live_purgeExpired now) hother hparent turnId owner
    exact SameOutcome.of_pair hresult hagree

theorem same_reserve (h : Agrees family now m m') (lib : Stdlib) {args : ReserveArguments}
    (hother : family args.sessionId = false)
    (howna : ∀ state, m = some state → (state.purgeExpired now).ReservesOwn family args)
    (hownb : ∀ state, m' = some state → (state.purgeExpired now).ReservesOwn family args) :
    SameOutcome family now (m.reserve lib args now) (m'.reserve lib args now) := by
  refine SameOutcome.check _ (SameOutcome.check _ (SameOutcome.check _ ?_))
  cases requireTimeout args.publishTimeoutSeconds with
  | error e => exact .error e
  | ok timeout =>
    cases h with
    | none => exact .ok false .none
    | @some a b h =>
      obtain ⟨hresult, hagree⟩ := (purged_agree h).reserve (a.live_purgeExpired now)
        (b.live_purgeExpired now) lib hother (howna a rfl) (hownb b rfl) timeout
      exact SameOutcome.of_pair hresult hagree

theorem same_finalize (h : Agrees family now m m') {args : FinalizeArguments}
    (howna : ∀ state, m = some state → (state.purgeExpired now).FinalizesOwn family false now args)
    (hownb : ∀ state, m' = some state →
      (state.purgeExpired now).FinalizesOwn family false now args) :
    SameOutcome family now (m.finalize args now) (m'.finalize args now) := by
  refine SameOutcome.check _ (SameOutcome.check _ ?_)
  cases h with
  | none => exact .ok false .none
  | @some a b h =>
    obtain ⟨hresult, hagree⟩ := (purged_agree h).finalize (a.live_purgeExpired now)
      (b.live_purgeExpired now) (howna a rfl) (hownb b rfl)
    exact SameOutcome.of_pair hresult hagree

theorem same_cancel (h : Agrees family now m m') (hm : m.Sound) (hm' : m'.Sound) (turnId : Text)
    (ownerToken : Option Text) :
    SameOutcome family now (m.cancel turnId ownerToken) (m'.cancel turnId ownerToken) := by
  refine SameOutcome.check _ ?_
  cases h with
  | none => exact .ok () .none
  | @some a b h =>
    exact .ok () (Agrees.dropEmptyHome (h.cancel turnId ownerToken)
      ((hm a rfl).1.cancel turnId ownerToken) ((hm' b rfl).1.cancel turnId ownerToken))

theorem same_clearSessionPlans (h : Agrees family now m m') (hm : m.Sound) (hm' : m'.Sound)
    (sessionId : Text) :
    SameOutcome family now (m.clearSessionPlans sessionId) (m'.clearSessionPlans sessionId) := by
  refine SameOutcome.check _ ?_
  cases h with
  | none => exact .ok () .none
  | @some a b h =>
    exact .ok () (Agrees.dropEmptyHome (h.clearSession sessionId true)
      ((hm a rfl).1.clearSession sessionId true) ((hm' b rfl).1.clearSession sessionId true))

theorem same_purgeStale (h : Agrees family now m m') (hm : m.Sound) (hm' : m'.Sound) :
    Agrees family now (m.purgeStale now) (m'.purgeStale now) := by
  cases h with
  | none => exact .none
  | @some a b h =>
    exact Agrees.dropEmptyHome (purged_agree h) ((hm a rfl).1.purgeExpired now)
      ((hm' b rfl).1.purgeExpired now)

/-- The session that `consume` looks at. -/
theorem resolves_agree {a b : HomeState} (h : a.Agree family now b) (hsided : a.Sided family)
    {sessionId : Text} (hother : family sessionId = false) :
    (a.resolveActiveSession sessionId).1 = (b.resolveActiveSession sessionId).1 ∧
      (a.resolveActiveSession sessionId).2.Agree family now (b.resolveActiveSession sessionId).2 ∧
      ∀ effective redirected, (a.resolveActiveSession sessionId).1 = some (effective, redirected) →
        family effective = false := by
  unfold HomeState.resolveActiveSession
  rw [h.isActive hother]
  split
  · refine ⟨rfl, h, fun effective redirected heq => ?_⟩
    cases heq
    exact hother
  · have hpopped : ({ a with redirects := a.redirects.erase sessionId } : HomeState).Agree family
        now { b with redirects := b.redirects.erase sessionId } :=
      h.setRedirects fun source hsource => by
        rw [Dict.get?_erase, Dict.get?_erase, h.redirects source hsource]
    rw [← h.redirects sessionId hother]
    dsimp only
    cases hredirect : a.redirects.get? sessionId with
    | none => exact ⟨rfl, hpopped, fun _ _ heq => by cases heq⟩
    | some redirect =>
      obtain ⟨target, turnId⟩ := redirect
      have htarget : family target = false := (hsided _ _ hredirect).trans hother
      dsimp only
      rw [h.isActive htarget]
      split
      · refine ⟨rfl, hpopped, fun effective redirected heq => ?_⟩
        cases heq
        exact htarget
      · exact ⟨rfl, hpopped, fun _ _ heq => by cases heq⟩

theorem resolveActiveSession_state (state : HomeState) (sessionId : Text) :
    ∃ redirects, (state.resolveActiveSession sessionId).2 = { state with redirects } := by
  rcases resolveActiveSession_cases state sessionId with heq | ⟨resolved, heq, -⟩
  · rw [heq]
    exact ⟨state.redirects, rfl⟩
  · rw [heq]
    exact ⟨_, rfl⟩

theorem consume_agree {a b : HomeState} (h : a.Agree family now b) (ha : a.Live now)
    (hb : b.Live now) (hsa : a.Sound) (hsb : b.Sound) (hsided : a.Sided family) (lib : Stdlib)
    (sourceQuery : Text) {sessionId : Text} (hother : family sessionId = false) :
    (a.consume lib sourceQuery sessionId now).1 = (b.consume lib sourceQuery sessionId now).1 ∧
      (a.consume lib sourceQuery sessionId now).2.Agree family now
        (b.consume lib sourceQuery sessionId now).2 := by
  obtain ⟨hresolved, hagree, heffective⟩ := resolves_agree h hsided hother
  obtain ⟨redirects, hstatea⟩ := resolveActiveSession_state a sessionId
  obtain ⟨redirects', hstateb⟩ := resolveActiveSession_state b sessionId
  unfold HomeState.consume
  generalize a.resolveActiveSession sessionId = ra at hresolved hagree heffective hstatea ⊢
  generalize b.resolveActiveSession sessionId = rb at hresolved hagree hstateb ⊢
  obtain ⟨resolved, next⟩ := ra
  obtain ⟨resolved', next'⟩ := rb
  cases hresolved
  cases resolved with
  | none => exact ⟨rfl, hagree⟩
  | some effective =>
    obtain ⟨effective, redirected⟩ := effective
    subst hstatea hstateb
    exact hagree.takePlan ⟨ha.plans, ha.closed⟩ ⟨hb.plans, hb.closed⟩ (hsa.redirect redirects)
      (hsb.redirect redirects') lib sourceQuery (heffective effective redirected rfl) redirected

theorem same_consume (h : Agrees family now m m') (hm : m.Sound) (hm' : m'.Sound)
    (hsided : ∀ state, m = some state → state.Sided family) (lib : Stdlib) (sourceQuery : Text)
    {sessionId : Text} (hother : family sessionId = false) :
    SameOutcome family now (m.consume lib sourceQuery sessionId now)
      (m'.consume lib sourceQuery sessionId now) := by
  refine SameOutcome.check _ (SameOutcome.check _ ?_)
  cases h with
  | none => exact .ok HomeState.Consumed.nothing .none
  | @some a b h =>
    obtain ⟨hresult, hagree⟩ := consume_agree (purged_agree h) (a.live_purgeExpired now)
      (b.live_purgeExpired now) ((hm a rfl).1.purgeExpired now) ((hm' b rfl).1.purgeExpired now)
      (hsided a rfl) lib sourceQuery hother
    exact SameOutcome.of_pair hresult hagree

/-! ## A call for the family -/

/-- The outcome leaves what the others see. -/
def Keeps {α : Type} (family : Text → Bool) (now : ℚ) (m : Mailbox)
    (outcome : Except MailboxError (α × Mailbox)) : Prop :=
  ∀ value m', outcome = .ok (value, m') → Agrees family now m m'

theorem Keeps.reply {α : Type} {outcome : Except MailboxError (α × Mailbox)}
    (h : Keeps family now m outcome) (wrap : α → MailboxResult) :
    Agrees family now m (MailboxResult.reply wrap m outcome).2 := by
  cases outcome with
  | error e => exact Agrees.refl m
  | ok r => exact h r.1 r.2 rfl

theorem Keeps.check {α : Type} {x : Except MailboxError Unit}
    {f : Unit → Except MailboxError (α × Mailbox)} (h : Keeps family now m (f ())) :
    Keeps family now m (x >>= f) := by
  intro value m' hok
  obtain ⟨u, -, hf⟩ := bind_ok hok
  exact h value m' hf

theorem Keeps.ok {α : Type} {value : α} (h : Agrees family now m m') :
    Keeps family now m (.ok (value, m')) := by
  intro value' m'' hok
  cases hok
  exact h

/-- A call that keeps an activation does not drop the entry. -/
theorem keeps_dropEmptyHome {a next : HomeState} (h : a.Agree family now next)
    (hm : Sound (some a)) (hnext : next.Sound) : Agrees family now (some a) next.dropEmptyHome := by
  rw [hnext.dropEmptyHome_eq, ← isEmpty_of_keys h.keys, (hm a rfl).2]
  exact .some h

theorem keeps_rebind {token new : Text} (parent : Text) (hnew : family new = true)
    (hold : ∀ sessionId, m.activation? token = some sessionId → family sessionId = true) :
    Keeps family now m (m.rebind token new parent now) := by
  refine Keeps.check (Keeps.check ?_)
  cases m with
  | none =>
    intro value m' hok
    cases hok
  | some a =>
    have hpurged := @HomeState.Agree.purgeExpired family now a
    dsimp only
    cases hget : a.activations.get? token with
    | none =>
      intro value m' hok
      cases hok
    | some old =>
      have hfamily := hold old hget
      have hget' : (a.purgeExpired now).activations.get? token = some old := hget
      dsimp only
      split
      · exact Keeps.ok (.some hpurged)
      · split
        · exact Keeps.ok (.some hpurged)
        · refine Keeps.ok (.some (hpurged.trans ((HomeState.Agree.move_family hget' hfamily hnew).trans
            ((HomeState.Agree.orphan_family hfamily).trans
              (HomeState.Agree.clear_family hnew true)))))

theorem keeps_isActive (sessionId : Text) : Keeps family now m (m.isActive sessionId now) := by
  refine Keeps.check ?_
  cases m with
  | none => exact Keeps.ok .none
  | some a => exact Keeps.ok (.some (HomeState.Agree.purgeExpired a))

theorem keeps_beginTurn (hsided : ∀ state, m = some state → state.Sided family)
    {sessionId parent : Text} (hfamily : family sessionId = true)
    (hparent : parent ≠ [] → family parent = true) (turnId owner : Text) :
    Keeps family now m (m.beginTurn sessionId turnId parent owner now) := by
  refine Keeps.check (Keeps.check ?_)
  cases m with
  | none => exact Keeps.ok .none
  | some a =>
    have hside : (a.purgeExpired now).Sided family := hsided a rfl
    exact Keeps.ok (.some ((HomeState.Agree.purgeExpired a).trans
      (HomeState.Agree.beginTurn_family hside hfamily hparent turnId owner)))

theorem keeps_reserve (lib : Stdlib) {args : ReserveArguments}
    (hfamily : family args.sessionId = true) :
    Keeps family now m (m.reserve lib args now) := by
  refine Keeps.check (Keeps.check (Keeps.check ?_))
  cases requireTimeout args.publishTimeoutSeconds with
  | error e =>
    intro value m' hok
    cases hok
  | ok timeout =>
    cases m with
    | none => exact Keeps.ok .none
    | some a =>
      exact Keeps.ok (.some ((HomeState.Agree.purgeExpired a).trans
        (HomeState.Agree.reserve_family _ lib hfamily timeout)))

theorem keeps_finalize {args : FinalizeArguments}
    (hown : ∀ state, m = some state → (state.purgeExpired now).FinalizesOwn family true now args) :
    Keeps family now m (m.finalize args now) := by
  refine Keeps.check (Keeps.check ?_)
  cases m with
  | none => exact Keeps.ok .none
  | some a =>
    exact Keeps.ok (.some ((HomeState.Agree.purgeExpired a).trans
      (HomeState.Agree.finalize_family (hown a rfl))))

theorem keeps_cancel (hm : m.Sound) {turnId : Text} {ownerToken : Option Text}
    (hown : ∀ state, m = some state → ∀ plan,
      ¬ state.CancelsOther family now turnId ownerToken plan) :
    Keeps family now m (m.cancel turnId ownerToken) := by
  refine Keeps.check ?_
  cases m with
  | none => exact Keeps.ok .none
  | some a =>
    exact Keeps.ok (keeps_dropEmptyHome (HomeState.Agree.cancel_hidden (hown a rfl)) hm
      ((hm a rfl).1.cancel turnId ownerToken))

theorem keeps_clearSessionPlans (hm : m.Sound) {sessionId : Text}
    (hfamily : family sessionId = true) : Keeps family now m (m.clearSessionPlans sessionId) := by
  refine Keeps.check ?_
  cases m with
  | none => exact Keeps.ok .none
  | some a =>
    exact Keeps.ok (keeps_dropEmptyHome (HomeState.Agree.clear_family hfamily true) hm
      ((hm a rfl).1.clearSession sessionId true))

theorem keeps_purgeStale (hm : m.Sound) : Agrees family now m (m.purgeStale now) := by
  cases m with
  | none => exact .none
  | some a =>
    exact keeps_dropEmptyHome (HomeState.Agree.purgeExpired a) hm ((hm a rfl).1.purgeExpired now)

theorem consume_family {a : HomeState} (hsided : a.Sided family) (lib : Stdlib)
    (sourceQuery : Text) {sessionId : Text} (hfamily : family sessionId = true)
    (hown : ∀ effective redirected, (a.resolveActiveSession sessionId).1 =
      some (effective, redirected) → a.ClosesOwn family effective) :
    a.Agree family now (a.consume lib sourceQuery sessionId now).2 := by
  unfold HomeState.consume
  rcases resolveActiveSession_cases a sessionId with heq | ⟨resolved, heq, hresolved⟩
  · rw [heq] at hown ⊢
    exact HomeState.Agree.takePlan_family hsided lib sourceQuery hfamily (hown sessionId none rfl)
      none
  · have hne : ∀ source, family source = false → source ≠ sessionId := by
      rintro source hsource rfl
      rw [hfamily] at hsource
      cases hsource
    have hpopped : a.Agree family now { a with redirects := a.redirects.erase sessionId } :=
      HomeState.Agree.of_redirects fun source hsource => by
        rw [Dict.get?_erase, if_neg (hne source hsource)]
    rw [heq] at hown ⊢
    cases resolved with
    | none => exact hpopped
    | some target =>
      obtain ⟨effective, redirected⟩ := target
      obtain ⟨turnId, -, hredirect⟩ := hresolved effective redirected rfl
      have heffective : family effective = true := (hsided _ _ hredirect).trans hfamily
      have hown' : ({ a with redirects := a.redirects.erase sessionId } : HomeState).ClosesOwn
          family effective := hown effective redirected rfl
      refine hpopped.trans (HomeState.Agree.takePlan_family ?_ lib sourceQuery heffective hown'
        redirected)
      intro source redirect hr
      replace hr : (a.redirects.erase sessionId).get? source = some redirect := hr
      rw [Dict.get?_erase] at hr
      split at hr
      · cases hr
      · exact hsided source redirect hr

theorem keeps_consume (hsided : ∀ state, m = some state → state.Sided family) (lib : Stdlib)
    (sourceQuery : Text) {sessionId : Text} (hfamily : family sessionId = true)
    (hown : ∀ state, m = some state → ∀ effective redirected,
      ((state.purgeExpired now).resolveActiveSession sessionId).1 = some (effective, redirected) →
      (state.purgeExpired now).ClosesOwn family effective) :
    Keeps family now m (m.consume lib sourceQuery sessionId now) := by
  refine Keeps.check (Keeps.check ?_)
  cases m with
  | none => exact Keeps.ok .none
  | some a =>
    have hside : (a.purgeExpired now).Sided family := hsided a rfl
    have hconsume : (a.purgeExpired now).Agree family now
        ((a.purgeExpired now).consume lib sourceQuery sessionId now).2 :=
      consume_family hside lib sourceQuery hfamily (hown a rfl)
    exact Keeps.ok (.some ((HomeState.Agree.purgeExpired a).trans hconsume))

end Calls

/-! ## Runs on both sides -/

section Runs
variable {lib : Stdlib} {family : Text → Bool}

/-- What the two runs have in common. -/
structure Twin (family : Text → Bool) (w w' : MailboxWorld) : Prop where
  clock : w'.clock ≤ w.clock
  agrees : Agrees family w.clock w.mailbox w'.mailbox
  sound : w.mailbox.Sound
  sound' : w'.mailbox.Sound
  sided : ∀ state, w.mailbox = some state → state.Sided family
  sided' : ∀ state, w'.mailbox = some state → state.Sided family

theorem Agrees.later {now now' : ℚ} {m m' : Mailbox} (h : Agrees family now m m')
    (hle : now ≤ now') : Agrees family now' m m' := by
  cases h with
  | none => exact .none
  | some h => exact .some (h.later hle)

/-- A call for the family, other than to activate or deactivate, changes nothing for the others. -/
theorem keeps_call {m : Mailbox} (hm : m.Sound)
    (hsided : ∀ state, m = some state → state.Sided family) {c : SidedCall} (hmine : c.mine = true)
    (hperformed : c.call.operation.PerformedFor family m true) (hapart : c.KeepsApart family m)
    (hactivate : ∀ s t, c.call.operation ≠ .activate s t)
    (hdeactivate : ∀ t, c.call.operation ≠ .deactivate t) :
    Agrees family c.call.now m (c.call.run lib m).2 := by
  obtain ⟨⟨operation, now⟩, mine, inserted⟩ := c
  cases operation with
  | activate s t => exact absurd rfl (hactivate s t)
  | deactivate t => exact absurd rfl (hdeactivate t)
  | rebind t new parent => exact (keeps_rebind parent hperformed.1 hperformed.2).reply _
  | isActive s => exact (keeps_isActive s).reply _
  | beginTurn s t parent k =>
    exact (keeps_beginTurn hsided hperformed.1 hperformed.2 t k).reply _
  | reserve args => exact (keeps_reserve lib hperformed).reply _
  | finalize args =>
    refine (keeps_finalize fun state hstate => ?_).reply _
    have hown := hapart state hstate
    rw [hmine] at hown
    exact hown
  | cancel t k => exact (keeps_cancel hm fun state hstate => hapart state hstate hmine).reply _
  | consume q s =>
    exact (keeps_consume hsided lib q hperformed fun state hstate =>
      hapart state hstate hmine).reply _
  | clearSessionPlans s => exact (keeps_clearSessionPlans hm hperformed).reply _
  | purgeStale => exact keeps_purgeStale hm

/-- A call for the others has the same result on both sides. -/
theorem same_call {m m' : Mailbox} {c : SidedCall} (h : Agrees family c.call.now m m')
    (hm : m.Sound) (hm' : m'.Sound) (hsided : ∀ state, m = some state → state.Sided family)
    (hmine : c.mine = false) (hperformed : c.call.operation.PerformedFor family m false)
    (hapart : c.KeepsApart family m) (hapart' : c.KeepsApart family m') :
    (c.call.run lib m).1 = (c.call.run lib m').1 ∧
      Agrees family c.call.now (c.call.run lib m).2 (c.call.run lib m').2 := by
  obtain ⟨⟨operation, now⟩, mine, inserted⟩ := c
  cases operation with
  | activate s t => exact (same_activate h s t).reply h _
  | deactivate t => exact (same_deactivate h hm hm' t).reply h _
  | rebind t new parent => exact (same_rebind h parent hperformed.2).reply h _
  | isActive s => exact (same_isActive h hperformed).reply h _
  | beginTurn s t parent k =>
    exact (same_beginTurn h hperformed.1 hperformed.2 t k).reply h _
  | reserve args =>
    exact (same_reserve h lib hperformed (fun state hstate => hapart state hstate hmine)
      fun state hstate => hapart' state hstate hmine).reply h _
  | finalize args =>
    refine (same_finalize h (fun state hstate => ?_) fun state hstate => ?_).reply h _
    · have hown := hapart state hstate
      rw [hmine] at hown
      exact hown
    · have hown := hapart' state hstate
      rw [hmine] at hown
      exact hown
  | cancel t k => exact (same_cancel h hm hm' t k).reply h _
  | consume q s => exact (same_consume h hm hm' hsided lib q hperformed).reply h _
  | clearSessionPlans s => exact (same_clearSessionPlans h hm hm' s).reply h _
  | purgeStale => exact ⟨rfl, same_purgeStale h hm hm'⟩

theorem performed_twin {m m' : Mailbox} {now : ℚ} {operation : MailboxOperation}
    (h : Agrees family now m m') (hperformed : operation.PerformedFor family m true) :
    operation.PerformedFor family m' true := by
  have hactivation : ∀ {token : Text},
      (∀ sessionId, m.activation? token = some sessionId → family sessionId = true) →
      ∀ sessionId, m'.activation? token = some sessionId → family sessionId = true := by
    intro token hall sessionId hget
    by_contra hne
    rw [Bool.not_eq_true] at hne
    cases h with
    | none => cases hget
    | some hagree =>
      rw [hall sessionId (activation_agree hagree.symm hget hne)] at hne
      cases hne
  cases operation with
  | deactivate t => exact hactivation hperformed
  | rebind t new parent => exact ⟨hperformed.1, hactivation hperformed.2⟩
  | _ => exact hperformed

theorem sided_next {m : Mailbox} {call : MailboxCall} {mine : Bool}
    (hsided : ∀ state, m = some state → state.Sided family)
    (hperformed : ∀ s t parent k, call.operation = .beginTurn s t parent k →
      family s = mine ∧ (parent ≠ [] → family parent = mine)) :
    ∀ state, (call.run lib m).2 = some state → state.Sided family := by
  intro state hstate source redirect hredirect
  have hr : (call.run lib m).2.redirect? source = some redirect := by
    rw [hstate]
    exact hredirect
  rcases MailboxCall.redirects hr with hold | ⟨hne, owner, hop, -, -⟩
  · cases m with
    | none => cases hold
    | some a => exact hsided a rfl source redirect hold
  · obtain ⟨hchild, hparent⟩ := hperformed _ _ _ _ hop
    rw [hchild, hparent hne]

variable {w w' : MailboxWorld} {c : SidedCall}

theorem SidedCall.Admissible.beginTurn (h : c.Admissible family w) (s t parent k : Text)
    (hop : c.call.operation = .beginTurn s t parent k) :
    family s = c.mine ∧ (parent ≠ [] → family parent = c.mine) := by
  have hperformed := h.performed
  rw [hop] at hperformed
  exact hperformed

theorem Twin.fresh (h : Twin family w w') (hfresh : c.call.operation.Fresh w.mailbox) :
    c.call.operation.Fresh w'.mailbox := by
  obtain ⟨⟨operation, now⟩, mine, inserted⟩ := c
  cases operation with
  | activate s t =>
    intro state hstate
    have hagrees := h.agrees
    rw [hstate] at hagrees
    generalize hm : w.mailbox = m at hagrees
    cases hagrees with
    | some hagree => exact inactive_agree hagree (hfresh _ hm)
  | _ => trivial

theorem Twin.clock_le (h : Twin family w w') (hadm : c.Admissible family w) :
    w'.clock ≤ c.call.now := h.clock.trans hadm.clock

/-- An inserted call. -/
theorem Twin.insert (h : Twin family w w') (hadm : c.Admissible family w)
    (hinserted : c.inserted = true) (hapart : c.KeepsApart family w.mailbox) :
    Twin family (w.next lib c.call) w' := by
  obtain ⟨hmine, hinsertable⟩ := hadm.inserted hinserted
  have hperformed := hadm.performed
  rw [hmine] at hperformed
  have hkeeps := @keeps_call lib family w.mailbox h.sound h.sided c hmine hperformed hapart
    (fun s t hop => by rw [hop] at hinsertable; exact hinsertable)
    (fun t hop => by rw [hop] at hinsertable; exact hinsertable)
  exact {
    clock := h.clock_le hadm
    agrees := hkeeps.symm.trans (h.agrees.later hadm.clock)
    sound := MailboxCall.sound hadm.fresh h.sound
    sound' := h.sound'
    sided := sided_next h.sided hadm.beginTurn
    sided' := h.sided' }

theorem Twin.next (h : Twin family w w') (hadm : c.Admissible family w)
    (hagrees : Agrees family c.call.now (c.call.run lib w.mailbox).2
      (c.call.run lib w'.mailbox).2) :
    Twin family (w.next lib c.call) (w'.next lib c.call) where
  clock := le_refl c.call.now
  agrees := hagrees
  sound := MailboxCall.sound hadm.fresh h.sound
  sound' := MailboxCall.sound (h.fresh hadm.fresh) h.sound'
  sided := sided_next h.sided hadm.beginTurn
  sided' := sided_next h.sided' hadm.beginTurn

/-- A call of the family that both runs make. -/
theorem Twin.both (h : Twin family w w') (hadm : c.Admissible family w) (hmine : c.mine = true)
    (hapart : c.KeepsApart family w.mailbox) (hapart' : c.KeepsApart family w'.mailbox) :
    Agrees family c.call.now (c.call.run lib w.mailbox).2 (c.call.run lib w'.mailbox).2 := by
  have hagrees := h.agrees.later hadm.clock
  have hperformed := hadm.performed
  rw [hmine] at hperformed
  by_cases hlifecycle : (∀ s t, c.call.operation ≠ .activate s t) ∧
      ∀ t, c.call.operation ≠ .deactivate t
  · obtain ⟨hactivate, hdeactivate⟩ := hlifecycle
    have hkeeps := @keeps_call lib family w.mailbox h.sound h.sided c hmine hperformed hapart
      hactivate hdeactivate
    have hkeeps' := @keeps_call lib family w'.mailbox h.sound' h.sided' c hmine
      (performed_twin hagrees hperformed) hapart' hactivate hdeactivate
    exact hkeeps.symm.trans (hagrees.trans hkeeps')
  · obtain ⟨⟨operation, now⟩, mine, inserted⟩ := c
    cases operation with
    | activate s t => exact ((same_activate hagrees s t).reply hagrees _).2
    | deactivate t => exact ((same_deactivate hagrees h.sound h.sound' t).reply hagrees _).2
    | _ => exact absurd ⟨nofun, nofun⟩ hlifecycle

/-- Where no call meets a plan of the other side, the others get the same results with and without
the inserted calls. -/
theorem Twin.observed (h : Twin family w w') {calls : List SidedCall}
    (hcalls : Separate lib family w calls) (hapart : Apart lib family w calls)
    (hapart' : Apart lib family w' (calls.filter fun c => !c.inserted)) :
    observed lib w calls = observed lib w' (calls.filter fun c => !c.inserted) := by
  induction calls generalizing w w' with
  | nil => rfl
  | cons c calls ih =>
    obtain ⟨hadm, hrest⟩ := hcalls
    obtain ⟨hc, hapart⟩ := hapart
    cases hinserted : c.inserted with
    | true =>
      obtain ⟨hmine, -⟩ := hadm.inserted hinserted
      rw [List.filter_cons_of_neg (by simp [hinserted])] at hapart' ⊢
      rw [BetterHindsight.observed, if_pos hmine]
      exact ih (h.insert hadm hinserted hc) hrest hapart hapart'
    | false =>
      rw [List.filter_cons_of_pos (by simp [hinserted])] at hapart' ⊢
      obtain ⟨hc', hapart'⟩ := hapart'
      cases hmine : c.mine with
      | true =>
        rw [BetterHindsight.observed, BetterHindsight.observed, if_pos hmine, if_pos hmine]
        exact ih (h.next hadm (h.both hadm hmine hc hc')) hrest hapart hapart'
      | false =>
        have hperformed := hadm.performed
        rw [hmine] at hperformed
        obtain ⟨hresult, hagrees⟩ := @same_call lib family _ _ c (h.agrees.later hadm.clock) h.sound
          h.sound' h.sided hmine hperformed hc hc'
        rw [BetterHindsight.observed, BetterHindsight.observed, if_neg (by simp [hmine]),
          if_neg (by simp [hmine]), hresult, ih (h.next hadm hagrees) hrest hapart hapart']

end Runs

/-- From every reachable entry whose redirects keep to the sides: in a run without and with the
inserted calls, where no call meets a plan of the other side, the others get the same results. -/
theorem isolated (lib : Stdlib) (family : Text → Bool) {start : ℚ}
    {tr : List (Transition MailboxWorld MailboxCall)} {w : MailboxWorld}
    (hreach : Run (MailboxStep lib) ⟨none, start⟩ tr w)
    (hredirects : ∀ sessionId redirect, w.mailbox.redirect? sessionId = some redirect →
      family redirect.1 = family sessionId)
    {calls : List SidedCall} (hcalls : Separate lib family w calls)
    (hapart : Apart lib family w calls)
    (hapart' : Apart lib family w (calls.filter fun c => !c.inserted)) :
    observed lib w calls = observed lib w (calls.filter fun c => !c.inserted) := by
  have hsided : ∀ state, w.mailbox = some state → state.Sided family := by
    intro state hstate sessionId redirect hredirect
    refine hredirects sessionId redirect ?_
    rw [hstate]
    exact hredirect
  have htwin : Twin family w w :=
    ⟨le_refl _, Agrees.refl _, hreach.sound, hreach.sound, hsided, hsided⟩
  exact htwin.observed hcalls hapart hapart'

/-! ## One turn id in two sessions -/

/-- Two active sessions. -/
def twoSessions : List MailboxCall := [⟨.activate "a" "x", 0⟩, ⟨.activate "b" "y", 0⟩]

def twoSessionsWorld : MailboxWorld :=
  (⟨none, 0⟩ : MailboxWorld).after (Stdlib.ofTables [] []) twoSessions

def familyOfB (sessionId : Text) : Bool := sessionId == "b".toList

def reserveArguments (sessionId turnId owner : Text) : ReserveArguments :=
  ⟨"hello", sessionId, turnId, .active, none, none, some owner⟩

/-- A hook of `a` begins a turn and reserves; in between a hook of `b` does. -/
def interleaved (turnOfB : Text) : List SidedCall :=
  [⟨⟨.beginTurn "a" "t" [] "k", 1⟩, false, false⟩,
    ⟨⟨.beginTurn "b" turnOfB [] "l", 2⟩, true, true⟩,
    ⟨⟨.reserve (reserveArguments "b" turnOfB "l"), 3⟩, true, true⟩,
    ⟨⟨.reserve (reserveArguments "a" "t" "k"), 4⟩, false, false⟩]

theorem twoSessions_reachable : Run (MailboxStep (Stdlib.ofTables [] [])) ⟨none, 0⟩
    ((⟨none, 0⟩ : MailboxWorld).trace (Stdlib.ofTables [] []) twoSessions) twoSessionsWorld := by
  have hpermits : (⟨none, 0⟩ : MailboxWorld).Permits (Stdlib.ofTables [] []) twoSessions := by
    refine ⟨⟨le_refl 0, fun state h => (by cases h), trivial⟩, ⟨le_refl 0, ?_, trivial⟩, trivial⟩
    intro state h
    cases h
    decide +kernel
  exact hpermits.run.imp fun _ _ _ h => h.1

theorem interleaved_separate (turnOfB : Text) :
    Separate (Stdlib.ofTables [] []) familyOfB twoSessionsWorld (interleaved turnOfB) := by
  refine ⟨⟨show (0 : ℚ) ≤ 1 by norm_num, trivial, ⟨by decide, nofun⟩, nofun⟩,
    ⟨show (1 : ℚ) ≤ 2 by norm_num, trivial, ⟨show familyOfB "b" = true by decide, nofun⟩,
      fun _ => ⟨rfl, trivial⟩⟩,
    ⟨show (2 : ℚ) ≤ 3 by norm_num, trivial, show familyOfB "b" = true by decide,
      fun _ => ⟨rfl, trivial⟩⟩,
    ⟨show (3 : ℚ) ≤ 4 by norm_num, trivial, show familyOfB "a" = false by decide, nofun⟩, trivial⟩

/-- With one turn id in both sessions, the hook of `a` is refused after the inserted calls of `b`. -/
theorem turn_collision :
    Separate (Stdlib.ofTables [] []) familyOfB twoSessionsWorld (interleaved "t") ∧
      observed (Stdlib.ofTables [] []) twoSessionsWorld (interleaved "t") =
        [.token (some "k".toList), .flag false] ∧
      observed (Stdlib.ofTables [] []) twoSessionsWorld
        ((interleaved "t").filter fun c => !c.inserted) =
          [.token (some "k".toList), .flag true] :=
  ⟨interleaved_separate "t", by decide +kernel, by decide +kernel⟩

theorem reservesOwn_of_free {family : Text → Bool} {m : Mailbox} {args : ReserveArguments} {now : ℚ}
    (h : (m.bind fun state => (state.purgeExpired now).plans.get? args.turnId) = none)
    (state : HomeState) (hstate : m = some state) :
    (state.purgeExpired now).ReservesOwn family args := by
  subst hstate
  intro _ plan hplan
  rw [show (state.purgeExpired now).plans.get? args.turnId = none from h] at hplan
  cases hplan

theorem isolated_twoTurns :
    observed (Stdlib.ofTables [] []) twoSessionsWorld (interleaved "u") =
      observed (Stdlib.ofTables [] []) twoSessionsWorld
        ((interleaved "u").filter fun c => !c.inserted) := by
  refine isolated (Stdlib.ofTables [] []) familyOfB twoSessions_reachable
    (fun sessionId redirect h => by cases h) (interleaved_separate "u") ?_ ?_
  · refine ⟨fun _ _ => trivial, fun _ _ => trivial, fun _ _ => nofun, ?_, trivial⟩
    exact fun state hstate _ => reservesOwn_of_free (by decide +kernel) state hstate
  · refine ⟨fun _ _ => trivial, ?_, trivial⟩
    exact fun state hstate _ => reservesOwn_of_free (by decide +kernel) state hstate

end BetterHindsight
