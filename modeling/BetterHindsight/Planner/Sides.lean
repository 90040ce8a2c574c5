import BetterHindsight.Planner.MailboxSound

/-! # Two families of sessions in one mailbox

A family of sessions, given by its characteristic function, and what an entry stores for the other
sessions.

* `HomeState.Agree`: two entries that store the same for the other sessions, apart from the numbers
  of the plans and what has expired.
* one lemma for each part of an operation: done for the family it changes nothing here, and done
  for the others it changes two agreeing entries alike. -/

namespace BetterHindsight
set_option autoImplicit false

def StoredPlan.unnumbered (plan : StoredPlan) : StoredPlan := { plan with sequence := 0 }

namespace HomeState

/-- The live plans of the other sessions, in their order. -/
def otherPlans (family : Text → Bool) (now : ℚ) (plans : Dict Text StoredPlan) :
    List (Text × StoredPlan) :=
  (plans.entries.filter fun entry =>
    now < entry.2.expiresAt && !family entry.2.sessionId).map fun entry =>
      (entry.1, entry.2.unnumbered)

structure Agree (family : Text → Bool) (now : ℚ) (a b : HomeState) : Prop where
  keys : ∀ token, (a.activations.get? token).isSome = (b.activations.get? token).isSome
  activations : ∀ token, (a.activations.get? token).filter (fun s => !family s) =
    (b.activations.get? token).filter fun s => !family s
  closed : ∀ key, family key.1 = false → (a.closedTurns.get? key).filter (fun e => now < e) =
    (b.closedTurns.get? key).filter fun e => now < e
  current : ∀ sessionId, family sessionId = false →
    a.currentTurns.get? sessionId = b.currentTurns.get? sessionId
  redirects : ∀ sessionId, family sessionId = false →
    a.redirects.get? sessionId = b.redirects.get? sessionId
  plans : otherPlans family now a.plans = otherPlans family now b.plans

/-- Redirects stay among the family, or among the others. -/
def Sided (family : Text → Bool) (state : HomeState) : Prop :=
  ∀ sessionId redirect, state.redirects.get? sessionId = some redirect →
    family redirect.1 = family sessionId

/-! ## Plans under the turn of a call -/

/-- No plan of the family stands under the turn that another session may reserve. -/
def ReservesOwn (state : HomeState) (family : Text → Bool) (args : ReserveArguments) : Prop :=
  state.mayReserve args = true → ∀ plan, state.plans.get? args.turnId = some plan →
    family plan.sessionId = false

/-- Only plans of the one side are finalized for it. -/
def FinalizesOwn (state : HomeState) (family : Text → Bool) (mine : Bool) (now : ℚ)
    (args : FinalizeArguments) : Prop :=
  ∀ plan, state.plans.get? args.turnId = some plan → mayFinalize plan args now = true →
    family plan.sessionId = mine

/-- The live plan of another session that a cancel would reach. -/
def CancelsOther (state : HomeState) (family : Text → Bool) (now : ℚ) (turnId : Text)
    (ownerToken : Option Text) (plan : StoredPlan) : Prop :=
  state.plans.get? turnId = some plan ∧ plan.ownerToken = ownerToken ∧ now < plan.expiresAt ∧
    family plan.sessionId = false

/-- A consume of the family closes no turn under which another session has a plan. -/
def ClosesOwn (state : HomeState) (family : Text → Bool) (sessionId : Text) : Prop :=
  ∀ turn plan, state.currentTurns.get? sessionId = some turn →
    state.plans.get? turn.1 = some plan → family plan.sessionId = true

/-! ## Agreement -/

/-- Nothing stored has expired. -/
structure Live (now : ℚ) (state : HomeState) : Prop where
  plans : ∀ {turnId plan}, state.plans.get? turnId = some plan → now < plan.expiresAt
  closed : ∀ {key expiresAt}, state.closedTurns.get? key = some expiresAt → now < expiresAt

theorem live_purgeExpired (state : HomeState) (now : ℚ) : (state.purgeExpired now).Live now where
  plans := fun h => (plans_purgeExpired h).2
  closed := fun {key expiresAt} h => by
    replace h : (state.closedTurns.filter _).get? key = some expiresAt := h
    rw [Dict.get?_filter, Option.filter_eq_some_iff] at h
    simpa using h.2

variable {family : Text → Bool} {now : ℚ} {a b c : HomeState}

namespace Agree

theorem refl (a : HomeState) : Agree family now a a :=
  ⟨fun _ => rfl, fun _ => rfl, fun _ _ => rfl, fun _ _ => rfl, fun _ _ => rfl, rfl⟩

theorem symm (h : Agree family now a b) : Agree family now b a :=
  ⟨fun t => (h.keys t).symm, fun t => (h.activations t).symm, fun k hk => (h.closed k hk).symm,
    fun s hs => (h.current s hs).symm, fun s hs => (h.redirects s hs).symm, h.plans.symm⟩

theorem trans (h : Agree family now a b) (h' : Agree family now b c) : Agree family now a c :=
  ⟨fun t => (h.keys t).trans (h'.keys t), fun t => (h.activations t).trans (h'.activations t),
    fun k hk => (h.closed k hk).trans (h'.closed k hk),
    fun s hs => (h.current s hs).trans (h'.current s hs),
    fun s hs => (h.redirects s hs).trans (h'.redirects s hs), h.plans.trans h'.plans⟩

end Agree

/-! ## Plans of the others -/

theorem mem_otherPlans {plans : Dict Text StoredPlan} {turnId : Text} {plan : StoredPlan} :
    (turnId, plan) ∈ otherPlans family now plans ↔ ∃ stored,
      plans.get? turnId = some stored ∧ now < stored.expiresAt ∧
        family stored.sessionId = false ∧ stored.unnumbered = plan := by
  simp only [otherPlans, List.mem_map, List.mem_filter, Bool.and_eq_true, decide_eq_true_eq,
    Bool.not_eq_true', Prod.mk.injEq, Prod.exists, Dict.mem_entries]
  constructor
  · rintro ⟨key, stored, ⟨hget, hlive, hother⟩, rfl, rfl⟩
    exact ⟨stored, hget, hlive, hother, rfl⟩
  · rintro ⟨stored, hget, hlive, hother, rfl⟩
    exact ⟨turnId, stored, ⟨hget, hlive, hother⟩, rfl, rfl⟩

/-- A live plan of another session is stored on both sides. -/
theorem Agree.plan (h : Agree family now a b) {turnId : Text} {plan : StoredPlan}
    (hplan : a.plans.get? turnId = some plan) (hlive : now < plan.expiresAt)
    (hother : family plan.sessionId = false) :
    ∃ plan', b.plans.get? turnId = some plan' ∧ plan'.unnumbered = plan.unnumbered := by
  have hmem : (turnId, plan.unnumbered) ∈ otherPlans family now a.plans :=
    mem_otherPlans.mpr ⟨plan, hplan, hlive, hother, rfl⟩
  rw [h.plans] at hmem
  obtain ⟨plan', hget, -, -, heq⟩ := mem_otherPlans.mp hmem
  exact ⟨plan', hget, heq⟩

variable {plans : Dict Text StoredPlan}

theorem otherPlans_filter {p : Text → StoredPlan → Bool}
    (hp : ∀ turnId plan, p turnId plan.unnumbered = p turnId plan) :
    otherPlans family now (plans.filter p) =
      (otherPlans family now plans).filter fun entry => p entry.1 entry.2 := by
  simp only [otherPlans, Dict.filter, List.filter_map, List.filter_filter]
  congr 1
  refine List.filter_congr fun entry _ => ?_
  simp only [Function.comp_def, hp]
  rw [Bool.and_comm]

/-- A filter that keeps the live plans of the others. -/
theorem otherPlans_keep {p : Text → StoredPlan → Bool}
    (hp : ∀ turnId plan, plans.get? turnId = some plan → now < plan.expiresAt →
      family plan.sessionId = false → p turnId plan = true) :
    otherPlans family now (plans.filter p) = otherPlans family now plans := by
  simp only [otherPlans, Dict.filter, List.filter_filter]
  congr 1
  refine List.filter_congr fun entry hentry => ?_
  cases hkeep : decide (now < entry.2.expiresAt) && !family entry.2.sessionId with
  | false => rw [Bool.false_and]
  | true =>
    simp only [Bool.and_eq_true, decide_eq_true_eq, Bool.not_eq_true'] at hkeep
    rw [hp _ _ (Dict.mem_entries.mp hentry) hkeep.1 hkeep.2]
    rfl

theorem otherPlans_add {turnId : Text} (hfree : plans.get? turnId = none) (plan : StoredPlan) :
    otherPlans family now (plans.set turnId plan) =
      otherPlans family now plans ++ if now < plan.expiresAt && !family plan.sessionId then
        [(turnId, plan.unnumbered)] else [] := by
  simp only [otherPlans, Dict.entries_set_of_none hfree, List.filter_append, List.map_append]
  congr 1
  rw [List.filter_singleton]
  cases hkeep : decide (now < plan.expiresAt) && !family plan.sessionId with
  | false => rfl
  | true => rfl

theorem otherPlans_change {turnId : Text} {old plan : StoredPlan}
    (hold : plans.get? turnId = some old) (hsession : plan.sessionId = old.sessionId)
    (hexpires : plan.expiresAt = old.expiresAt) :
    otherPlans family now (plans.set turnId plan) =
      (otherPlans family now plans).map fun entry =>
        (entry.1, if entry.1 = turnId then plan.unnumbered else entry.2) := by
  simp only [otherPlans, Dict.entries_set_of_some hold, List.filter_map, List.map_map]
  rw [List.filter_congr (q := fun entry =>
    decide (now < entry.2.expiresAt) && !family entry.2.sessionId)]
  · refine List.map_congr_left fun entry _ => ?_
    simp only [Function.comp_def]
    split <;> rfl
  · intro entry hentry
    simp only [Function.comp_def]
    split
    · rename_i hkey
      have hget : plans.get? turnId = some entry.2 := hkey ▸ Dict.mem_entries.mp hentry
      rw [hold] at hget
      cases hget
      rw [hsession, hexpires]
    · rfl

/-! ## Parts of the operations -/

namespace Agree

theorem later (h : Agree family now a b) {now' : ℚ} (hle : now ≤ now') :
    Agree family now' a b where
  keys := h.keys
  activations := h.activations
  closed := fun key hkey => by
    have hcut : ∀ o : Option ℚ, o.filter (fun e => now' < e) =
        (o.filter fun e => now < e).filter fun e => now' < e := by
      intro o
      rw [Option.filter_filter]
      congr 1
      funext e
      by_cases hlive : now' < e
      · simp [hlive, hle.trans_lt hlive]
      · simp [hlive]
    rw [hcut, h.closed key hkey, ← hcut]
  current := h.current
  redirects := h.redirects
  plans := by
    have hcut : ∀ plans, otherPlans family now' plans =
        (otherPlans family now plans).filter fun entry => now' < entry.2.expiresAt := by
      intro plans
      simp only [otherPlans, List.filter_map, List.filter_filter]
      congr 1
      refine List.filter_congr fun entry _ => ?_
      by_cases hlive : now' < entry.2.expiresAt
      · simp [StoredPlan.unnumbered, hlive, hle.trans_lt hlive]
      · simp [StoredPlan.unnumbered, hlive]
    rw [hcut, h.plans, ← hcut]

theorem purgeExpired (a : HomeState) : Agree family now a (a.purgeExpired now) where
  keys := fun _ => rfl
  activations := fun _ => rfl
  closed := fun key _ => by
    show _ = ((a.closedTurns.filter _).get? key).filter _
    rw [Dict.get?_filter, Option.filter_filter]
    congr 1
    funext e
    rw [Bool.and_self]
  current := fun _ _ => rfl
  redirects := fun _ _ => rfl
  plans := (otherPlans_keep fun _ _ _ hlive _ => decide_eq_true hlive).symm

theorem isActive (h : Agree family now a b) {sessionId : Text} (hother : family sessionId = false) :
    a.isActive sessionId = b.isActive sessionId := by
  have hone : ∀ {a b : HomeState}, Agree family now a b → a.isActive sessionId = true →
      b.isActive sessionId = true := by
    intro a b h hactive
    obtain ⟨token, htoken⟩ := isActive_iff.mp hactive
    have hfilter := h.activations token
    rw [htoken, Option.filter_some_pos (by simp [hother])] at hfilter
    exact isActive_iff.mpr ⟨token, (Option.filter_eq_some_iff.mp hfilter.symm).1⟩
  rw [Bool.eq_iff_iff]
  exact ⟨hone h, hone h.symm⟩

theorem clearSession (h : Agree family now a b) (sessionId : Text) (includeClosed : Bool) :
    Agree family now (a.clearSession sessionId includeClosed)
      (b.clearSession sessionId includeClosed) where
  keys := h.keys
  activations := h.activations
  closed := fun key hkey => by
    show ((a.closedTurns.filter _).get? key).filter _ = ((b.closedTurns.filter _).get? key).filter _
    have hswap : ∀ (o : Option ℚ) (p q : ℚ → Bool), (o.filter p).filter q =
        (o.filter q).filter p := by
      intro o p q
      rw [Option.filter_filter, Option.filter_filter]
      congr 1
      funext e
      rw [Bool.and_comm]
    rw [Dict.get?_filter, Dict.get?_filter, hswap, h.closed key hkey, hswap]
  current := fun other hother => by
    show (a.currentTurns.erase sessionId).get? other = (b.currentTurns.erase sessionId).get? other
    rw [Dict.get?_erase, Dict.get?_erase, h.current other hother]
  redirects := h.redirects
  plans := by
    have hfilter : ∀ state : HomeState,
        otherPlans family now (state.clearSession sessionId includeClosed).plans =
          (otherPlans family now state.plans).filter fun entry => entry.2.sessionId ≠ sessionId :=
      fun state => otherPlans_filter fun _ _ => rfl
    rw [hfilter, hfilter, h.plans]

theorem clear_family {sessionId : Text} (hfamily : family sessionId = true) (includeClosed : Bool) :
    Agree family now a (a.clearSession sessionId includeClosed) where
  keys := fun _ => rfl
  activations := fun _ => rfl
  closed := fun key hkey => by
    show _ = ((a.closedTurns.filter _).get? key).filter _
    have hne : key.1 ≠ sessionId := by
      rintro rfl
      rw [hfamily] at hkey
      cases hkey
    rw [Dict.get?_filter]
    cases a.closedTurns.get? key with
    | none => rfl
    | some e => simp [hne]
  current := fun other hother => by
    have hne : other ≠ sessionId := by
      rintro rfl
      rw [hfamily] at hother
      cases hother
    exact (current_clearSession hne).symm
  redirects := fun _ _ => rfl
  plans := by
    refine (otherPlans_keep fun _ plan _ _ hother => ?_).symm
    have hne : plan.sessionId ≠ sessionId := by
      intro heq
      rw [heq, hfamily] at hother
      cases hother
    exact decide_eq_true hne

/-! ### Activations -/

theorem setActivation (h : Agree family now a b) (token sessionId : Text) :
    Agree family now { a with activations := a.activations.set token sessionId }
      { b with activations := b.activations.set token sessionId } where
  keys := fun other => by
    rw [Dict.get?_set, Dict.get?_set]
    split
    · rfl
    · exact h.keys other
  activations := fun other => by
    rw [Dict.get?_set, Dict.get?_set]
    split
    · rfl
    · exact h.activations other
  closed := h.closed
  current := h.current
  redirects := h.redirects
  plans := h.plans

theorem eraseActivation (h : Agree family now a b) (token : Text) :
    Agree family now { a with activations := a.activations.erase token }
      { b with activations := b.activations.erase token } where
  keys := fun other => by
    rw [Dict.get?_erase, Dict.get?_erase]
    split
    · rfl
    · exact h.keys other
  activations := fun other => by
    rw [Dict.get?_erase, Dict.get?_erase]
    split
    · rfl
    · exact h.activations other
  closed := h.closed
  current := h.current
  redirects := h.redirects
  plans := h.plans

/-- An activation that moves within the family. -/
theorem move_family {token old new : Text} (hold : a.activations.get? token = some old)
    (hfamily : family old = true) (hnew : family new = true) :
    Agree family now a { a with activations := a.activations.set token new } where
  keys := fun other => by
    rw [Dict.get?_set]
    split
    · rename_i heq
      rw [heq, hold]
      rfl
    · rfl
  activations := fun other => by
    rw [Dict.get?_set]
    split
    · rename_i heq
      rw [heq, hold, Option.filter_some_neg (by simp [hfamily]),
        Option.filter_some_neg (by simp [hnew])]
    · rfl
  closed := fun _ _ => rfl
  current := fun _ _ => rfl
  redirects := fun _ _ => rfl
  plans := rfl

theorem clearOrphan (h : Agree family now a b) {sessionId : Text}
    (hother : family sessionId = false) :
    Agree family now (a.clearOrphan sessionId) (b.clearOrphan sessionId) := by
  unfold HomeState.clearOrphan
  rw [h.isActive hother]
  split
  · exact h
  · exact h.clearSession sessionId true

theorem orphan_family {sessionId : Text} (hfamily : family sessionId = true) :
    Agree family now a (a.clearOrphan sessionId) := by
  unfold HomeState.clearOrphan
  split
  · exact refl a
  · exact clear_family hfamily true

/-! ### Turns -/

/-- Two states that differ in their redirects only. -/
theorem of_redirects {redirects : Dict Text (Text × Text)}
    (h : ∀ sessionId, family sessionId = false →
      a.redirects.get? sessionId = redirects.get? sessionId) :
    Agree family now a { a with redirects } :=
  ⟨fun _ => rfl, fun _ => rfl, fun _ _ => rfl, fun _ _ => rfl, h, rfl⟩

theorem setRedirects (h : Agree family now a b) {redirects redirects' : Dict Text (Text × Text)}
    (hredirects : ∀ sessionId, family sessionId = false →
      redirects.get? sessionId = redirects'.get? sessionId) :
    Agree family now { a with redirects } { b with redirects := redirects' } :=
  ⟨h.keys, h.activations, h.closed, h.current, hredirects, h.plans⟩

theorem bridge (h : Agree family now a b) {parent : Text} (hparent : family parent = false)
    (sessionId turnId : Text) (hother : family sessionId = false) :
    Agree family now (a.bridge parent sessionId turnId) (b.bridge parent sessionId turnId) := by
  unfold HomeState.bridge
  refine Agree.clearSession ?_ parent true
  refine ⟨fun token => ?_, fun token => ?_, h.closed, h.current, fun source hsource => ?_, h.plans⟩
  · rw [Dict.get?_mapValues, Dict.get?_mapValues, Option.isSome_map, Option.isSome_map, h.keys]
  · have hmap : ∀ o : Option Text, (o.map fun s => if s = parent then sessionId else s).filter
        (fun s => !family s) = (o.filter fun s => !family s).map fun s =>
          if s = parent then sessionId else s := by
      intro o
      cases o with
      | none => rfl
      | some s =>
        by_cases heq : s = parent
        · rw [Option.map_some, if_pos heq, Option.filter_some_pos (by simp [hother]),
            Option.filter_some_pos (by simp [heq, hparent]), Option.map_some, if_pos heq]
        · rw [Option.map_some, if_neg heq]
          by_cases hs : family s = false
          · rw [Option.filter_some_pos (by simp [hs]), Option.map_some, if_neg heq]
          · rw [Option.filter_some_neg (by simpa using hs)]
            rfl
    rw [Dict.get?_mapValues, Dict.get?_mapValues, hmap, h.activations, ← hmap]
  · rw [Dict.get?_set, Dict.get?_set]
    split
    · rfl
    · rw [Dict.get?_filter, Dict.get?_filter, h.redirects source hsource]

theorem bridge_family (hsided : a.Sided family) {parent sessionId : Text}
    (hparent : family parent = true) (hfamily : family sessionId = true) (turnId : Text) :
    Agree family now a (a.bridge parent sessionId turnId) := by
  have hne : ∀ other, family other = false → other ≠ parent ∧ other ≠ sessionId := by
    intro other hother
    refine ⟨?_, ?_⟩
    · rintro rfl
      rw [hparent] at hother
      cases hother
    · rintro rfl
      rw [hfamily] at hother
      cases hother
  unfold HomeState.bridge
  refine Agree.trans ?_ (clear_family hparent true)
  refine ⟨fun token => ?_, fun token => ?_, fun _ _ => rfl, fun _ _ => rfl,
    fun source hsource => ?_, rfl⟩
  · rw [Dict.get?_mapValues, Option.isSome_map]
  · rw [Dict.get?_mapValues]
    cases a.activations.get? token with
    | none => rfl
    | some s =>
      by_cases heq : s = parent
      · rw [Option.map_some, if_pos heq, Option.filter_some_neg (by simp [heq, hparent]),
          Option.filter_some_neg (by simp [hfamily])]
      · rw [Option.map_some, if_neg heq]
  · rw [Dict.get?_set, if_neg (hne source hsource).1, Dict.get?_filter]
    cases hredirect : a.redirects.get? source with
    | none => rfl
    | some redirect =>
      have hsame : family redirect.1 = false := (hsided source redirect hredirect).trans hsource
      rw [Option.filter_some_pos]
      simp [hne source hsource, hne redirect.1 hsame]

theorem setCurrent (h : Agree family now a b) (sessionId : Text) (turn : Text × Text) :
    Agree family now { a with currentTurns := a.currentTurns.set sessionId turn }
      { b with currentTurns := b.currentTurns.set sessionId turn } where
  keys := h.keys
  activations := h.activations
  closed := h.closed
  current := fun other hother => by
    rw [Dict.get?_set, Dict.get?_set]
    split
    · rfl
    · exact h.current other hother
  redirects := h.redirects
  plans := h.plans

theorem current_family {sessionId : Text} (hfamily : family sessionId = true)
    (turn : Text × Text) :
    Agree family now a { a with currentTurns := a.currentTurns.set sessionId turn } where
  keys := fun _ => rfl
  activations := fun _ => rfl
  closed := fun _ _ => rfl
  current := fun other hother => by
    rw [Dict.get?_set, if_neg]
    rintro rfl
    rw [hfamily] at hother
    cases hother
  redirects := fun _ _ => rfl
  plans := rfl

theorem closed_live (h : Agree family now a b) (ha : a.Live now) (hb : b.Live now)
    {key : Text × Text} (hother : family key.1 = false) :
    a.closedTurns.get? key = b.closedTurns.get? key := by
  have hlive : ∀ {state : HomeState}, state.Live now →
      (state.closedTurns.get? key).filter (fun e => now < e) = state.closedTurns.get? key := by
    intro state hstate
    cases hget : state.closedTurns.get? key with
    | none => rfl
    | some e => exact Option.filter_some_pos (decide_eq_true (hstate.closed hget))
  rw [← hlive ha, h.closed key hother, hlive hb]

/-- A turn that begins for another session. -/
theorem beginTurn (h : Agree family now a b) (ha : a.Live now) (hb : b.Live now)
    {sessionId parent : Text} (hother : family sessionId = false)
    (hparent : parent ≠ [] → family parent = false) (turnId owner : Text) :
    (a.beginTurn sessionId turnId parent owner).1 = (b.beginTurn sessionId turnId parent owner).1 ∧
      Agree family now (a.beginTurn sessionId turnId parent owner).2
        (b.beginTurn sessionId turnId parent owner).2 := by
  unfold HomeState.beginTurn
  rw [h.closed_live ha hb (show family (sessionId, turnId).1 = false from hother)]
  split
  · exact ⟨rfl, h⟩
  · have hactive : (parent ≠ [] && a.isActive parent) = (parent ≠ [] && b.isActive parent) := by
      by_cases hp : parent = []
      · simp [hp]
      · rw [h.isActive (hparent hp)]
    have hkept : Agree family now
        { a with redirects := a.redirects.filter fun _ redirect =>
          redirect.1 ≠ sessionId || redirect.2 = turnId }
        { b with redirects := b.redirects.filter fun _ redirect =>
          redirect.1 ≠ sessionId || redirect.2 = turnId } :=
      h.setRedirects fun source hsource => by
        rw [Dict.get?_filter, Dict.get?_filter, h.redirects source hsource]
    rw [hactive, h.isActive hother]
    extract_lets kept parentActive bridged cleared kept' bridged' cleared'
    have hbridged : Agree family now bridged bridged' := by
      simp only [bridged, bridged']
      split
      · rename_i hp
        have hne : parent ≠ [] := of_decide_eq_true (Bool.and_eq_true _ _ ▸ hp).1
        exact hkept.bridge (hparent hne) sessionId turnId hother
      · exact hkept
    split
    · exact ⟨rfl, (hbridged.clearSession sessionId false).setCurrent sessionId (turnId, owner)⟩
    · exact ⟨rfl, hbridged⟩

/-- A turn that begins for the family. -/
theorem beginTurn_family (hsided : a.Sided family) {sessionId parent : Text}
    (hfamily : family sessionId = true) (hparent : parent ≠ [] → family parent = true)
    (turnId owner : Text) :
    Agree family now a (a.beginTurn sessionId turnId parent owner).2 := by
  unfold HomeState.beginTurn
  split
  · exact refl a
  · extract_lets kept parentActive bridged cleared
    have hkept : Agree family now a kept := by
      refine of_redirects fun source hsource => ?_
      rw [Dict.get?_filter]
      cases hredirect : a.redirects.get? source with
      | none => rfl
      | some redirect =>
        have hsame : family redirect.1 = false := (hsided source redirect hredirect).trans hsource
        have hne : redirect.1 ≠ sessionId := by
          intro heq
          rw [heq, hfamily] at hsame
          cases hsame
        rw [Option.filter_some_pos]
        simp [hne]
    have hbridged : Agree family now a bridged := by
      simp only [bridged]
      split
      · rename_i hp
        have hne : parent ≠ [] := of_decide_eq_true (Bool.and_eq_true _ _ ▸ hp).1
        refine hkept.trans (bridge_family ?_ (hparent hne) hfamily turnId)
        intro source redirect hredirect
        replace hredirect : (a.redirects.filter _).get? source = some redirect := hredirect
        rw [Dict.get?_filter, Option.filter_eq_some_iff] at hredirect
        exact hsided source redirect hredirect.1
      · exact hkept
    split
    · exact hbridged.trans ((clear_family hfamily false).trans (current_family hfamily _))
    · exact hbridged

/-! ### Plans -/

theorem setPlans (h : Agree family now a b) {plans plans' : Dict Text StoredPlan} {n k : ℕ}
    (hplans : otherPlans family now plans = otherPlans family now plans') :
    Agree family now { a with plans, sequence := n } { b with plans := plans', sequence := k } :=
  ⟨h.keys, h.activations, h.closed, h.current, h.redirects, hplans⟩

theorem mayReserve (h : Agree family now a b) {args : ReserveArguments}
    (hother : family args.sessionId = false) : a.mayReserve args = b.mayReserve args := by
  unfold HomeState.mayReserve
  rw [h.isActive hother, h.current _ hother]

theorem reserve (h : Agree family now a b) (ha : a.Live now) (hb : b.Live now) (lib : Stdlib)
    {args : ReserveArguments} (hother : family args.sessionId = false)
    (howna : a.ReservesOwn family args) (hownb : b.ReservesOwn family args) (timeout : Option ℚ) :
    (a.reserve lib args timeout now).1 = (b.reserve lib args timeout now).1 ∧
      Agree family now (a.reserve lib args timeout now).2 (b.reserve lib args timeout now).2 := by
  have hfree : ∀ {a b : HomeState}, Agree family now a b → b.Live now →
      b.mayReserve args = true → b.ReservesOwn family args →
      a.plans.get? args.turnId = none → b.plans.get? args.turnId = none := by
    intro a b h hb hmay hown hnone
    refine Option.eq_none_iff_forall_ne_some.mpr fun plan hplan => ?_
    obtain ⟨plan', hplan', -⟩ := h.symm.plan hplan (hb.plans hplan) (hown hmay plan hplan)
    rw [hnone] at hplan'
    cases hplan'
  unfold HomeState.reserve
  rw [← h.mayReserve hother]
  by_cases hmay : a.mayReserve args = true
  · have hmay' : b.mayReserve args = true := h.mayReserve hother ▸ hmay
    rw [hmay, Bool.true_and, Bool.true_and]
    by_cases hnone : a.plans.get? args.turnId = none
    · have hnone' := hfree h hb hmay' hownb hnone
      rw [if_pos (Option.isNone_iff_eq_none.mpr hnone),
        if_pos (Option.isNone_iff_eq_none.mpr hnone')]
      refine ⟨rfl, h.setPlans ?_⟩
      rw [otherPlans_add hnone, otherPlans_add hnone', h.plans]
      rfl
    · have hnone' : b.plans.get? args.turnId ≠ none := fun hb' =>
        hnone (hfree h.symm ha hmay howna hb')
      rw [if_neg (by rwa [Option.isNone_iff_eq_none]), if_neg (by rwa [Option.isNone_iff_eq_none])]
      exact ⟨rfl, h⟩
  · rw [Bool.not_eq_true] at hmay
    rw [hmay, Bool.false_and, Bool.false_and]
    exact ⟨rfl, h⟩

theorem reserve_family (a : HomeState) (lib : Stdlib) {args : ReserveArguments}
    (hfamily : family args.sessionId = true) (timeout : Option ℚ) :
    Agree family now a (a.reserve lib args timeout now).2 := by
  unfold HomeState.reserve
  split
  · rename_i hmay
    rw [Bool.and_eq_true, Option.isNone_iff_eq_none] at hmay
    refine (refl a).setPlans ?_
    rw [otherPlans_add hmay.2, if_neg, List.append_nil]
    simp [reservedPlan, hfamily]
  · exact refl a

theorem mayFinalize_unnumbered (plan : StoredPlan) (args : FinalizeArguments) (now : ℚ) :
    mayFinalize plan.unnumbered args now = mayFinalize plan args now := rfl

theorem finalize_rejects {state : HomeState} {args : FinalizeArguments}
    (h : ∀ plan, state.plans.get? args.turnId = some plan → mayFinalize plan args now = false) :
    state.finalize args now = (false, state) := by
  unfold HomeState.finalize
  split
  · rfl
  · rename_i plan hplan
    rw [h plan hplan]
    rfl

theorem finalize_accepts {state : HomeState} {args : FinalizeArguments} {plan : StoredPlan}
    (hplan : state.plans.get? args.turnId = some plan) (hmay : mayFinalize plan args now = true) :
    state.finalize args now = (true, { state with
      plans := state.plans.set args.turnId
        { plan with action := some args.action, rewrittenQuery := args.rewrittenQuery } }) := by
  unfold HomeState.finalize
  rw [hplan]
  exact if_pos hmay

/-- The same change of a plan that both sides store. -/
theorem change (h : Agree family now a b) {turnId : Text} {plan plan' : StoredPlan}
    (hplan : a.plans.get? turnId = some plan) (hplan' : b.plans.get? turnId = some plan')
    (heq : plan'.unnumbered = plan.unnumbered) (f : StoredPlan → StoredPlan)
    (hf : ∀ p, (f p).unnumbered = f p.unnumbered) (hsession : ∀ p, (f p).sessionId = p.sessionId)
    (hexpires : ∀ p, (f p).expiresAt = p.expiresAt) :
    Agree family now { a with plans := a.plans.set turnId (f plan) }
      { b with plans := b.plans.set turnId (f plan') } := by
  refine h.setPlans (n := a.sequence) (k := b.sequence) ?_
  rw [otherPlans_change hplan (hsession plan) (hexpires plan),
    otherPlans_change hplan' (hsession plan') (hexpires plan'), h.plans, hf, hf, heq]

theorem finalize (h : Agree family now a b) (ha : a.Live now) (hb : b.Live now)
    {args : FinalizeArguments} (howna : a.FinalizesOwn family false now args)
    (hownb : b.FinalizesOwn family false now args) :
    (a.finalize args now).1 = (b.finalize args now).1 ∧
      Agree family now (a.finalize args now).2 (b.finalize args now).2 := by
  have hrejects : ∀ {a b : HomeState}, Agree family now a b → b.Live now →
      b.FinalizesOwn family false now args →
      (∀ plan, a.plans.get? args.turnId = some plan → mayFinalize plan args now = false) →
      ∀ plan, b.plans.get? args.turnId = some plan → mayFinalize plan args now = false := by
    intro a b h hb hown hreject plan hplan
    by_contra hmay
    rw [Bool.not_eq_false] at hmay
    obtain ⟨plan', hplan', heq⟩ := h.symm.plan hplan (hb.plans hplan) (hown plan hplan hmay)
    have hno := hreject plan' hplan'
    rw [← mayFinalize_unnumbered, heq, mayFinalize_unnumbered, hmay] at hno
    cases hno
  by_cases hreject : ∀ plan, a.plans.get? args.turnId = some plan →
      mayFinalize plan args now = false
  · rw [finalize_rejects hreject, finalize_rejects (hrejects h hb hownb hreject)]
    exact ⟨rfl, h⟩
  · push Not at hreject
    obtain ⟨plan, hplan, hmay⟩ := hreject
    rw [ne_eq, Bool.not_eq_false] at hmay
    obtain ⟨plan', hplan', heq⟩ := h.plan hplan (ha.plans hplan) (howna plan hplan hmay)
    have hmay' : mayFinalize plan' args now = true := by
      rw [← mayFinalize_unnumbered, heq, mayFinalize_unnumbered, hmay]
    rw [finalize_accepts hplan hmay, finalize_accepts hplan' hmay']
    exact ⟨rfl, h.change hplan hplan' heq (fun plan => { plan with
      action := some args.action, rewrittenQuery := args.rewrittenQuery }) (fun _ => rfl)
      (fun _ => rfl) fun _ => rfl⟩

/-- A change of a plan that is no live plan of the others. -/
theorem change_hidden {state : HomeState} {turnId : Text} {old plan : StoredPlan}
    (hold : state.plans.get? turnId = some old) (hsession : plan.sessionId = old.sessionId)
    (hexpires : plan.expiresAt = old.expiresAt)
    (hhidden : now < old.expiresAt → family old.sessionId = true) :
    Agree family now state { state with plans := state.plans.set turnId plan } := by
  refine (refl state).setPlans ?_
  rw [otherPlans_change hold hsession hexpires]
  conv_lhs => rw [← List.map_id (otherPlans family now state.plans)]
  refine List.map_congr_left fun entry hentry => ?_
  have hne : entry.1 ≠ turnId := by
    rintro rfl
    obtain ⟨stored, hget, hlive, hother, -⟩ := mem_otherPlans.mp hentry
    rw [hold] at hget
    cases hget
    rw [hhidden hlive] at hother
    cases hother
  rw [if_neg hne]
  rfl

theorem finalize_family {args : FinalizeArguments} (hown : a.FinalizesOwn family true now args) :
    Agree family now a (a.finalize args now).2 := by
  by_cases hreject : ∀ plan, a.plans.get? args.turnId = some plan →
      mayFinalize plan args now = false
  · rw [finalize_rejects hreject]
    exact refl a
  · push Not at hreject
    obtain ⟨plan, hplan, hmay⟩ := hreject
    rw [ne_eq, Bool.not_eq_false] at hmay
    rw [finalize_accepts hplan hmay]
    exact change_hidden hplan rfl rfl fun _ => hown plan hplan hmay

theorem cancel_hidden {turnId : Text} {ownerToken : Option Text}
    (h : ∀ plan, ¬ a.CancelsOther family now turnId ownerToken plan) :
    Agree family now a (a.cancel turnId ownerToken) := by
  unfold HomeState.cancel
  split
  · exact refl a
  · rename_i plan hplan
    split
    · rename_i howner
      have hhidden : now < plan.expiresAt → family plan.sessionId = true := by
        intro hlive
        by_contra hother
        exact h plan ⟨hplan, howner, hlive, Bool.not_eq_true _ ▸ hother⟩
      split
      · refine (refl a).setPlans (n := a.sequence) (k := a.sequence) (otherPlans_keep ?_).symm
        intro key plan' hget hlive hother
        refine decide_eq_true ?_
        rintro rfl
        rw [hplan] at hget
        cases hget
        rw [hhidden hlive] at hother
        cases hother
      · exact change_hidden hplan rfl rfl hhidden
    · exact refl a

theorem cancel (h : Agree family now a b) (turnId : Text) (ownerToken : Option Text) :
    Agree family now (a.cancel turnId ownerToken) (b.cancel turnId ownerToken) := by
  by_cases hreach : ∃ plan, a.CancelsOther family now turnId ownerToken plan
  · obtain ⟨plan, hplan, howner, hlive, hother⟩ := hreach
    obtain ⟨plan', hplan', heq⟩ := h.plan hplan hlive hother
    have howner' : plan'.ownerToken = ownerToken := by
      rw [show plan'.ownerToken = plan'.unnumbered.ownerToken from rfl, heq]
      exact howner
    have hevaluation : plan'.evaluationId = plan.evaluationId := by
      rw [show plan'.evaluationId = plan'.unnumbered.evaluationId from rfl, heq]
      rfl
    unfold HomeState.cancel
    rw [hplan, hplan']
    dsimp only
    rw [if_pos howner, if_pos howner', hevaluation]
    split
    · refine h.setPlans (n := a.sequence) (k := b.sequence) ?_
      rw [Dict.erase, Dict.erase, otherPlans_filter fun _ _ => rfl, otherPlans_filter fun _ _ => rfl,
        h.plans]
    · exact h.change hplan hplan' heq tombstone (fun _ => rfl) (fun _ => rfl) fun _ => rfl
  · push Not at hreach
    have hreach' : ∀ plan, ¬ b.CancelsOther family now turnId ownerToken plan := by
      rintro plan ⟨hplan, howner, hlive, hother⟩
      obtain ⟨plan', hplan', heq⟩ := h.symm.plan hplan hlive hother
      have hsame : ∀ {α : Type} (f : StoredPlan → α), (∀ p, f p.unnumbered = f p) →
          f plan' = f plan := by
        intro α f hf
        rw [← hf plan', heq, hf]
      refine hreach plan' ⟨hplan', ?_, ?_, ?_⟩
      · rw [hsame StoredPlan.ownerToken fun _ => rfl]
        exact howner
      · rw [hsame StoredPlan.expiresAt fun _ => rfl]
        exact hlive
      · rw [hsame StoredPlan.sessionId fun _ => rfl]
        exact hother
    exact (cancel_hidden hreach).symm.trans (h.trans (cancel_hidden hreach'))

end Agree

/-! ### The rendezvous -/

/-- The plan is one that `consume` matches, given the current turn of the session. -/
def matchesPlan (lib : Stdlib) (sourceQuery sessionId : Text) (redirected : Option Text)
    (current : Option (Text × Text)) (entry : Text × StoredPlan) : Bool :=
  current.all (fun turn => entry.1 = turn.1) &&
    isCandidate sessionId redirected sourceQuery entry.1 entry.2 &&
    entry.2.queryDigest = (lib.sha256Text sourceQuery).text

/-- The plans that `consume` removes as matches. -/
def matching (lib : Stdlib) (state : HomeState) (sourceQuery sessionId : Text)
    (redirected : Option Text) : List (Text × StoredPlan) :=
  state.plans.entries.filter
    (matchesPlan lib sourceQuery sessionId redirected (state.currentTurns.get? sessionId))

/-- `consume` has closed the current turn, if there is one. -/
def closeCurrent (state : HomeState) (sessionId : Text) (now : ℚ) : HomeState :=
  match state.currentTurns.get? sessionId with
  | some (turnId, _) => state.closeTurn sessionId turnId now
  | none => state

theorem takePlan_eq (lib : Stdlib) (state : HomeState) (sourceQuery sessionId : Text)
    (redirected : Option Text) (now : ℚ) :
    state.takePlan lib sourceQuery sessionId redirected now =
      match (state.matching lib sourceQuery sessionId redirected).argmax
        fun entry => entry.2.sequence with
      | none => (.nothing, state.closeCurrent sessionId now)
      | some (turnId, plan) => (consumed turnId plan,
        { state.closeCurrent sessionId now with
          plans := (state.closeCurrent sessionId now).plans.filter fun key _ =>
            key ∉ (state.matching lib sourceQuery sessionId redirected).map Prod.fst }) := by
  unfold takePlan
  extract_lets current closed stored candidates found
  have hstored : stored = state.plans.entries.filter fun entry =>
      (state.currentTurns.get? sessionId).all fun turn => entry.1 = turn.1 := by
    simp only [stored, current]
    split
    · rename_i heq
      rw [heq]
      exact (Dict.filter_entries_key _ _).symm
    · rename_i heq
      rw [heq]
      simp
  have hfound : found = state.matching lib sourceQuery sessionId redirected := by
    simp only [found, candidates, hstored]
    rw [List.filter_filter, List.filter_filter, matching]
    refine List.filter_congr fun entry _ => ?_
    simp only [matchesPlan, Bool.and_assoc, Bool.and_comm, Bool.and_left_comm]
  rw [← hfound]
  rfl

theorem mem_matching {lib : Stdlib} {state : HomeState} {sourceQuery sessionId : Text}
    {redirected : Option Text} {turnId : Text} {plan : StoredPlan}
    (h : (turnId, plan) ∈ state.matching lib sourceQuery sessionId redirected) :
    state.plans.get? turnId = some plan ∧ plan.sessionId = sessionId := by
  obtain ⟨hmem, hmatch⟩ := List.mem_filter.mp h
  simp only [matchesPlan, isCandidate, Bool.and_eq_true, beq_iff_eq] at hmatch
  exact ⟨Dict.mem_entries.mp hmem, hmatch.1.2.1.1⟩

/-- Both sides match the same plans of another session. -/
theorem Agree.matching (h : Agree family now a b) (ha : a.Live now) (hb : b.Live now)
    (lib : Stdlib) (sourceQuery : Text) {sessionId : Text} (hother : family sessionId = false)
    (redirected : Option Text) :
    (a.matching lib sourceQuery sessionId redirected).map (Prod.map id StoredPlan.unnumbered) =
      (b.matching lib sourceQuery sessionId redirected).map
        (Prod.map id StoredPlan.unnumbered) := by
  have hothers : ∀ {state : HomeState}, state.Live now →
      (state.matching lib sourceQuery sessionId redirected).map
        (Prod.map id StoredPlan.unnumbered) =
      (otherPlans family now state.plans).filter
        (matchesPlan lib sourceQuery sessionId redirected (state.currentTurns.get? sessionId)) := by
    intro state hstate
    rw [otherPlans, List.filter_map, List.filter_filter, HomeState.matching]
    refine congrArg _ (List.filter_congr fun entry hentry => ?_)
    have hsame : (matchesPlan lib sourceQuery sessionId redirected
        (state.currentTurns.get? sessionId) ∘ fun entry => (entry.1, entry.2.unnumbered)) entry =
        matchesPlan lib sourceQuery sessionId redirected (state.currentTurns.get? sessionId)
          entry := rfl
    rw [hsame]
    cases hmatch : matchesPlan lib sourceQuery sessionId redirected
        (state.currentTurns.get? sessionId) entry with
    | false => rfl
    | true =>
      have hsession := (mem_matching (List.mem_filter.mpr ⟨hentry, hmatch⟩)).2
      have hlive := hstate.plans (Dict.mem_entries.mp hentry)
      simp [hlive, hsession, hother]
  rw [hothers ha, hothers hb, h.plans, h.current sessionId hother]

/-- Among entries in the order of their numbers, the newest is the last. -/
theorem argmax_eq_getLast? {entries : List (Text × StoredPlan)}
    (h : (entries.map fun entry => entry.2.sequence).Pairwise (· < ·)) :
    entries.argmax (fun entry => entry.2.sequence) = entries.getLast? := by
  induction entries using List.reverseRecOn with
  | nil => rfl
  | append_singleton entries last ih =>
    rw [List.map_append, List.pairwise_append] at h
    rw [List.argmax_concat, ih h.1, List.getLast?_concat]
    cases hlast : entries.getLast? with
    | none => rfl
    | some entry =>
      have hlt : entry.2.sequence < last.2.sequence := h.2.2 _
        (List.mem_map_of_mem (List.mem_of_getLast? hlast)) _ (by simp)
      exact if_pos hlt

namespace Agree

theorem closeTurn (h : Agree family now a b) (sessionId turnId : Text) :
    Agree family now (a.closeTurn sessionId turnId now) (b.closeTurn sessionId turnId now) where
  keys := h.keys
  activations := h.activations
  closed := fun key hkey => by
    show ((a.closedTurns.set _ _).get? key).filter _ = ((b.closedTurns.set _ _).get? key).filter _
    rw [Dict.get?_set, Dict.get?_set]
    split
    · rfl
    · exact h.closed key hkey
  current := fun other hother => by
    show (a.currentTurns.erase sessionId).get? other = (b.currentTurns.erase sessionId).get? other
    rw [Dict.get?_erase, Dict.get?_erase, h.current other hother]
  redirects := fun source hsource => by
    show (a.redirects.filter _).get? source = (b.redirects.filter _).get? source
    rw [Dict.get?_filter, Dict.get?_filter, h.redirects source hsource]
  plans := by
    show otherPlans family now (a.plans.filter _) = otherPlans family now (b.plans.filter _)
    rw [otherPlans_filter fun _ _ => rfl, otherPlans_filter fun _ _ => rfl, h.plans]

/-- Closing a turn of the family, where no plan of another session stands under it. -/
theorem close_family (hsided : a.Sided family) {sessionId turnId : Text}
    (hfamily : family sessionId = true)
    (hown : ∀ plan, a.plans.get? turnId = some plan → family plan.sessionId = true) :
    Agree family now a (a.closeTurn sessionId turnId now) where
  keys := fun _ => rfl
  activations := fun _ => rfl
  closed := fun key hkey => by
    show _ = ((a.closedTurns.set _ _).get? key).filter _
    rw [Dict.get?_set, if_neg]
    rintro rfl
    rw [hfamily] at hkey
    cases hkey
  current := fun other hother => by
    show _ = (a.currentTurns.erase sessionId).get? other
    rw [Dict.get?_erase, if_neg]
    rintro rfl
    rw [hfamily] at hother
    cases hother
  redirects := fun source hsource => by
    show _ = (a.redirects.filter _).get? source
    rw [Dict.get?_filter]
    cases hredirect : a.redirects.get? source with
    | none => rfl
    | some redirect =>
      have hsame : family redirect.1 = false := (hsided source redirect hredirect).trans hsource
      rw [Option.filter_some_pos]
      refine decide_eq_true ?_
      rintro rfl
      rw [hfamily] at hsame
      cases hsame
  plans := by
    refine (otherPlans_keep fun key plan hplan _ hother => decide_eq_true ?_).symm
    rintro rfl
    rw [hown plan hplan] at hother
    cases hother

theorem takePlan_family (hsided : a.Sided family) (lib : Stdlib) (sourceQuery : Text)
    {sessionId : Text} (hfamily : family sessionId = true) (hown : a.ClosesOwn family sessionId)
    (redirected : Option Text) :
    Agree family now a (a.takePlan lib sourceQuery sessionId redirected now).2 := by
  have hclosed : Agree family now a (a.closeCurrent sessionId now) := by
    unfold closeCurrent
    split
    · rename_i turnId owner hcurrent
      exact close_family hsided hfamily fun plan hplan => hown _ plan hcurrent hplan
    · exact refl a
  have hplans : ∀ key plan, (a.closeCurrent sessionId now).plans.get? key = some plan →
      a.plans.get? key = some plan := by
    intro key plan hplan
    unfold closeCurrent at hplan
    split at hplan
    · replace hplan : (a.plans.erase _).get? key = some plan := hplan
      rw [Dict.get?_erase] at hplan
      split at hplan
      · cases hplan
      · exact hplan
    · exact hplan
  rw [takePlan_eq]
  split
  · exact hclosed
  · refine hclosed.trans ((refl _).setPlans (n := (a.closeCurrent sessionId now).sequence)
      (k := (a.closeCurrent sessionId now).sequence) (otherPlans_keep ?_).symm)
    intro key plan hplan _ hother
    refine decide_eq_true fun hkey => ?_
    obtain ⟨entry, hentry, rfl⟩ := List.mem_map.mp hkey
    obtain ⟨hget, hsession⟩ := mem_matching hentry
    rw [hplans _ _ hplan] at hget
    cases hget
    rw [hsession, hfamily] at hother
    cases hother

theorem takePlan (h : Agree family now a b) (ha : a.Live now) (hb : b.Live now) (hsa : a.Sound)
    (hsb : b.Sound) (lib : Stdlib) (sourceQuery : Text) {sessionId : Text}
    (hother : family sessionId = false) (redirected : Option Text) :
    (a.takePlan lib sourceQuery sessionId redirected now).1 =
        (b.takePlan lib sourceQuery sessionId redirected now).1 ∧
      Agree family now (a.takePlan lib sourceQuery sessionId redirected now).2
        (b.takePlan lib sourceQuery sessionId redirected now).2 := by
  have hclosed : Agree family now (a.closeCurrent sessionId now) (b.closeCurrent sessionId now) := by
    unfold closeCurrent
    rw [h.current sessionId hother]
    split
    · exact h.closeTurn _ _
    · exact h
  have hnewest : ∀ {state : HomeState}, state.Sound →
      (state.matching lib sourceQuery sessionId redirected).argmax (fun e => e.2.sequence) =
        (state.matching lib sourceQuery sessionId redirected).getLast? := fun hstate =>
    argmax_eq_getLast? (hstate.ordered.sublist (List.filter_sublist.map _))
  have hmatching := h.matching ha hb lib sourceQuery hother redirected
  have hkeys : (a.matching lib sourceQuery sessionId redirected).map Prod.fst =
      (b.matching lib sourceQuery sessionId redirected).map Prod.fst := by
    have hfst := congrArg (List.map Prod.fst) hmatching
    rwa [List.map_map, List.map_map] at hfst
  have hlast := congrArg List.getLast? hmatching
  rw [List.getLast?_map, List.getLast?_map] at hlast
  rw [takePlan_eq, takePlan_eq, hnewest hsa, hnewest hsb]
  cases hla : (a.matching lib sourceQuery sessionId redirected).getLast? with
  | none =>
    rw [hla] at hlast
    rw [Option.map_eq_none_iff.mp hlast.symm]
    exact ⟨rfl, hclosed⟩
  | some entry =>
    rw [hla] at hlast
    obtain ⟨entry', hlb, heq⟩ := Option.map_eq_some_iff.mp hlast.symm
    rw [hlb]
    obtain ⟨hturn, hplan⟩ := Prod.mk.inj heq
    refine ⟨?_, ?_⟩
    · show consumed entry.1 entry.2.unnumbered = consumed entry'.1 entry'.2.unnumbered
      rw [hplan]
      exact congrArg (fun turnId => consumed turnId _) hturn.symm
    · refine hclosed.setPlans (n := (a.closeCurrent sessionId now).sequence)
        (k := (b.closeCurrent sessionId now).sequence) ?_
      rw [hkeys, otherPlans_filter fun _ _ => rfl, otherPlans_filter fun _ _ => rfl, hclosed.plans]

end Agree

end HomeState

end BetterHindsight
