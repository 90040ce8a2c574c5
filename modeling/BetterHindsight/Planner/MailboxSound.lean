import BetterHindsight.Planner.MailboxRuns

/-! # Reachable entries of the mailbox

* `HomeState.Sound`: turns and plans belong to active sessions, and plans are stored in the order
  of their sequence numbers.
* `Mailbox.Sound`: such an entry exists only while some provider is active.
* `MailboxCall.sound`: every call keeps this. -/

namespace BetterHindsight
set_option autoImplicit false

namespace HomeState

structure Sound (state : HomeState) : Prop where
  current : ∀ {sessionId turn}, state.currentTurns.get? sessionId = some turn →
    state.isActive sessionId = true
  closed : ∀ {key expiresAt}, state.closedTurns.get? key = some expiresAt →
    state.isActive key.1 = true
  plans : ∀ {turnId plan}, state.plans.get? turnId = some plan →
    state.isActive plan.sessionId = true
  ordered : (state.plans.entries.map fun entry => entry.2.sequence).Pairwise (· < ·)
  bounded : ∀ {turnId plan}, state.plans.get? turnId = some plan →
    plan.sequence ≤ state.sequence

/-- Something of the session is stored. -/
inductive Holds (state : HomeState) (sessionId : Text) : Prop
  | current {turn : Text × Text} (h : state.currentTurns.get? sessionId = some turn)
  | closed {turnId : Text} {expiresAt : ℚ}
      (h : state.closedTurns.get? (sessionId, turnId) = some expiresAt)
  | plan {turnId : Text} {plan : StoredPlan} (h : state.plans.get? turnId = some plan)
      (hsession : plan.sessionId = sessionId)

theorem empty_sound : empty.Sound where
  current := fun h => by cases h
  closed := fun h => by cases h
  plans := fun h => by cases h
  ordered := List.Pairwise.nil
  bounded := fun h => by cases h

namespace Sound

theorem active {state : HomeState} (h : state.Sound) {sessionId : Text}
    (hholds : state.Holds sessionId) : state.isActive sessionId = true := by
  cases hholds with
  | current hturn => exact h.current hturn
  | closed hclosed => exact h.closed hclosed
  | plan hplan hsession => exact hsession ▸ h.plans hplan

/-- Nothing new is stored, and the sessions that still hold something are active. -/
theorem restrict {state next : HomeState} (h : state.Sound)
    (hcurrent : ∀ sessionId turn, next.currentTurns.get? sessionId = some turn →
      state.currentTurns.get? sessionId = some turn)
    (hclosed : ∀ key expiresAt, next.closedTurns.get? key = some expiresAt →
      state.closedTurns.get? key = some expiresAt)
    (hplans : next.plans.entries.Sublist state.plans.entries)
    (hactive : ∀ sessionId, next.Holds sessionId → state.isActive sessionId = true →
      next.isActive sessionId = true)
    (hsequence : state.sequence ≤ next.sequence) : next.Sound where
  current := fun hturn => hactive _ (.current hturn) (h.current (hcurrent _ _ hturn))
  closed := fun {key _} hkey =>
    hactive key.1 (.closed hkey) (h.closed (hclosed _ _ hkey))
  plans := fun hplan => hactive _ (.plan hplan rfl)
    (h.plans (Dict.mem_entries.mp (hplans.subset (Dict.mem_entries.mpr hplan))))
  ordered := h.ordered.sublist (hplans.map _)
  bounded := fun hplan =>
    (h.bounded (Dict.mem_entries.mp (hplans.subset (Dict.mem_entries.mpr hplan)))).trans hsequence

variable {state : HomeState}

theorem purgeExpired (h : state.Sound) (now : ℚ) : (state.purgeExpired now).Sound := by
  refine h.restrict (fun _ _ hturn => hturn) (fun key expiresAt hkey => ?_) List.filter_sublist
    (fun _ _ hactive => hactive) (le_refl _)
  replace hkey : (state.closedTurns.filter _).get? key = some expiresAt := hkey
  rw [Dict.get?_filter, Option.filter_eq_some_iff] at hkey
  exact hkey.1

theorem clearSession (h : state.Sound) (sessionId : Text) (includeClosed : Bool) :
    (state.clearSession sessionId includeClosed).Sound := by
  refine h.restrict (fun other turn hturn => ?_) (fun key expiresAt hkey => ?_)
    List.filter_sublist (fun _ _ hactive => hactive) (le_refl _)
  · replace hturn : (state.currentTurns.erase sessionId).get? other = some turn := hturn
    rw [Dict.get?_erase] at hturn
    split at hturn
    · cases hturn
    · exact hturn
  · replace hkey : (state.closedTurns.filter _).get? key = some expiresAt := hkey
    rw [Dict.get?_filter, Option.filter_eq_some_iff] at hkey
    exact hkey.1

/-- A cleared session holds nothing. -/
theorem not_holds_clearSession {sessionId : Text} :
    ¬ (state.clearSession sessionId true).Holds sessionId := by
  intro hholds
  cases hholds with
  | @current turn hturn =>
    replace hturn : (state.currentTurns.erase sessionId).get? sessionId = some turn := hturn
    rw [Dict.get?_erase, if_pos rfl] at hturn
    cases hturn
  | @closed turnId expiresAt hkey =>
    replace hkey : (state.closedTurns.filter _).get? (sessionId, turnId) = some expiresAt := hkey
    rw [Dict.get?_filter, Option.filter_eq_some_iff] at hkey
    simp at hkey
  | plan hplan hsession => exact (plans_clearSession hplan).2 hsession

/-- A session is cleared when it is no longer active. -/
theorem clear_moved (h : state.Sound) {activations : Dict Text Text} {sessionId : Text}
    (hactive : ∀ other, other ≠ sessionId → state.isActive other = true →
      ({ state with activations } : HomeState).isActive other = true) :
    (({ state with activations } : HomeState).clearSession sessionId true).Sound := by
  have hclear := h.clearSession sessionId true
  refine hclear.restrict (fun _ _ hturn => hturn) (fun _ _ hkey => hkey) (List.Sublist.refl _)
    (fun other hholds hother => ?_) (le_refl _)
  refine hactive other ?_ hother
  rintro rfl
  exact not_holds_clearSession hholds

theorem clearOrphan (h : state.Sound) {activations : Dict Text Text} {sessionId : Text}
    (hactive : ∀ other, other ≠ sessionId → state.isActive other = true →
      ({ state with activations } : HomeState).isActive other = true) :
    (({ state with activations } : HomeState).clearOrphan sessionId).Sound := by
  unfold HomeState.clearOrphan
  split
  · rename_i hself
    refine h.restrict (fun _ _ hturn => hturn) (fun _ _ hkey => hkey) (List.Sublist.refl _)
      (fun other _ hother => ?_) (le_refl _)
    by_cases heq : other = sessionId
    · exact heq ▸ hself
    · exact hactive other heq hother
  · exact h.clear_moved hactive

theorem redirect (h : state.Sound) (redirects : Dict Text (Text × Text)) :
    ({ state with redirects } : HomeState).Sound :=
  h.restrict (fun _ _ hturn => hturn) (fun _ _ hkey => hkey) (List.Sublist.refl _)
    (fun _ _ hactive => hactive) (le_refl _)

theorem bridge (h : state.Sound) (parent sessionId turnId : Text) :
    (state.bridge parent sessionId turnId).Sound := by
  set bridged := state.bridge parent sessionId turnId
  refine @clear_moved _ (h.redirect bridged.redirects) bridged.activations parent
    fun other hne hother => ?_
  obtain ⟨token, htoken⟩ := isActive_iff.mp hother
  refine isActive_iff.mpr ⟨token, ?_⟩
  show (state.activations.mapValues _).get? token = some other
  rw [Dict.get?_mapValues, show state.activations.get? token = some other from htoken,
    Option.map_some, if_neg hne]

theorem setCurrent (h : state.Sound) {sessionId : Text} {turn : Text × Text}
    (hactive : state.isActive sessionId = true) :
    ({ state with currentTurns := state.currentTurns.set sessionId turn } : HomeState).Sound where
  current := fun {other turn'} hturn => by
    replace hturn : (state.currentTurns.set sessionId turn).get? other = some turn' := hturn
    rw [Dict.get?_set] at hturn
    split at hturn
    · rename_i heq
      exact heq ▸ hactive
    · exact h.current hturn
  closed := h.closed
  plans := h.plans
  ordered := h.ordered
  bounded := h.bounded

/-- A plan is stored at the end, under the next number. -/
theorem addPlan (h : state.Sound) {turnId : Text} {plan : StoredPlan}
    (hfree : state.plans.get? turnId = none) (hsequence : plan.sequence = state.sequence + 1)
    (hactive : state.isActive plan.sessionId = true) :
    ({ state with
      sequence := state.sequence + 1
      plans := state.plans.set turnId plan } : HomeState).Sound where
  current := h.current
  closed := h.closed
  plans := fun {turnId' plan'} hplan => by
    replace hplan : (state.plans.set turnId plan).get? turnId' = some plan' := hplan
    rw [Dict.get?_set] at hplan
    split at hplan
    · cases hplan
      exact hactive
    · exact h.plans hplan
  ordered := by
    show ((state.plans.set turnId plan).entries.map fun entry => entry.2.sequence).Pairwise _
    rw [Dict.entries_set_of_none hfree, List.map_append, List.pairwise_append]
    refine ⟨h.ordered, by simp, fun n hn m hm => ?_⟩
    obtain ⟨entry, hentry, rfl⟩ := List.mem_map.mp hn
    have hle := h.bounded (Dict.mem_entries.mp hentry)
    have hm' : m = plan.sequence := by simpa using hm
    omega
  bounded := fun {turnId' plan'} hplan => by
    replace hplan : (state.plans.set turnId plan).get? turnId' = some plan' := hplan
    rw [Dict.get?_set] at hplan
    split at hplan
    · cases hplan
      exact hsequence.le
    · exact (h.bounded hplan).trans (Nat.le_succ _)

/-- A stored plan is changed in its place. -/
theorem changePlan (h : state.Sound) {turnId : Text} {old plan : StoredPlan}
    (hold : state.plans.get? turnId = some old) (hsequence : plan.sequence = old.sequence)
    (hsession : plan.sessionId = old.sessionId) :
    ({ state with plans := state.plans.set turnId plan } : HomeState).Sound where
  current := h.current
  closed := h.closed
  plans := fun {turnId' plan'} hplan => by
    replace hplan : (state.plans.set turnId plan).get? turnId' = some plan' := hplan
    rw [Dict.get?_set] at hplan
    split at hplan
    · cases hplan
      have hactive := h.plans hold
      rw [← hsession] at hactive
      exact hactive
    · exact h.plans hplan
  ordered := by
    have hsame : ((state.plans.set turnId plan).entries.map fun entry => entry.2.sequence) =
        state.plans.entries.map fun entry => entry.2.sequence := by
      rw [Dict.entries_set_of_some hold, List.map_map]
      refine List.map_congr_left fun entry hentry => ?_
      by_cases hkey : entry.1 = turnId
      · have hget : state.plans.get? turnId = some entry.2 := hkey ▸ Dict.mem_entries.mp hentry
        rw [hold] at hget
        cases hget
        simp [hkey, hsequence]
      · simp [hkey]
    show ((state.plans.set turnId plan).entries.map fun entry => entry.2.sequence).Pairwise _
    rw [hsame]
    exact h.ordered
  bounded := fun {turnId' plan'} hplan => by
    replace hplan : (state.plans.set turnId plan).get? turnId' = some plan' := hplan
    rw [Dict.get?_set] at hplan
    split at hplan
    · cases hplan
      exact hsequence.le.trans (h.bounded hold)
    · exact h.bounded hplan

theorem filterPlans (h : state.Sound) (p : Text → StoredPlan → Bool) :
    ({ state with plans := state.plans.filter p } : HomeState).Sound :=
  h.restrict (fun _ _ hturn => hturn) (fun _ _ hkey => hkey) List.filter_sublist
    (fun _ _ hactive => hactive) (le_refl _)

theorem closeTurn (h : state.Sound) {sessionId : Text} (hactive : state.isActive sessionId = true)
    (turnId : Text) (now : ℚ) : (state.closeTurn sessionId turnId now).Sound where
  current := fun {other turn} hturn => by
    replace hturn : (state.currentTurns.erase sessionId).get? other = some turn := hturn
    rw [Dict.get?_erase] at hturn
    split at hturn
    · cases hturn
    · exact h.current hturn
  closed := fun {key expiresAt} hkey => by
    replace hkey : (state.closedTurns.set (sessionId, turnId) _).get? key = some expiresAt := hkey
    rw [Dict.get?_set] at hkey
    split at hkey
    · rename_i heq
      subst heq
      exact hactive
    · exact h.closed hkey
  plans := (h.filterPlans fun key _ => key ≠ turnId).plans
  ordered := (h.filterPlans fun key _ => key ≠ turnId).ordered
  bounded := (h.filterPlans fun key _ => key ≠ turnId).bounded

theorem beginTurn (h : state.Sound) (sessionId turnId parent owner : Text) :
    (state.beginTurn sessionId turnId parent owner).2.Sound := by
  unfold HomeState.beginTurn
  split
  · exact h
  · extract_lets kept parentActive bridged cleared
    have hkept : kept.Sound := h.redirect kept.redirects
    have hbridged : bridged.Sound := by
      simp only [bridged]
      split
      · exact hkept.bridge parent sessionId turnId
      · exact hkept
    split
    · rename_i hactive
      refine (hbridged.clearSession sessionId false).setCurrent ?_
      show bridged.isActive sessionId = true
      simp only [bridged]
      split
      · rename_i hparent
        have hparent' : state.isActive parent = true := (Bool.and_eq_true _ _ ▸ hparent).2
        obtain ⟨token, htoken⟩ := isActive_iff.mp hparent'
        refine isActive_iff.mpr ⟨token, ?_⟩
        show (state.activations.mapValues _).get? token = some sessionId
        rw [Dict.get?_mapValues, htoken, Option.map_some, if_pos rfl]
      · rename_i hparent
        rw [Bool.or_eq_true] at hactive
        exact hactive.resolve_right hparent
    · exact hbridged

theorem reserve (h : state.Sound) (lib : Stdlib) (args : ReserveArguments) (timeout : Option ℚ)
    (now : ℚ) : (state.reserve lib args timeout now).2.Sound := by
  unfold HomeState.reserve
  split
  · rename_i hmay
    rw [Bool.and_eq_true, Option.isNone_iff_eq_none] at hmay
    unfold mayReserve at hmay
    rw [Bool.and_eq_true] at hmay
    exact h.addPlan hmay.2 rfl hmay.1.1
  · exact h

theorem finalize (h : state.Sound) (args : FinalizeArguments) (now : ℚ) :
    (state.finalize args now).2.Sound := by
  unfold HomeState.finalize
  split
  · exact h
  · rename_i plan hplan
    split
    · exact h.changePlan hplan rfl rfl
    · exact h

theorem cancel (h : state.Sound) (turnId : Text) (ownerToken : Option Text) :
    (state.cancel turnId ownerToken).Sound := by
  unfold HomeState.cancel
  split
  · exact h
  · rename_i plan hplan
    split
    · split
      · exact h.filterPlans _
      · exact h.changePlan hplan rfl rfl
    · exact h

theorem takePlan (h : state.Sound) (lib : Stdlib) (sourceQuery : Text) {sessionId : Text}
    (redirected : Option Text) (now : ℚ) (hactive : state.isActive sessionId = true) :
    (state.takePlan lib sourceQuery sessionId redirected now).2.Sound := by
  unfold HomeState.takePlan
  extract_lets current closed stored candidates found
  have hclosed : closed.Sound := by
    simp only [closed, current]
    split
    · exact h.closeTurn hactive _ now
    · exact h
  split
  · exact hclosed
  · exact hclosed.filterPlans _

theorem consume (h : state.Sound) (lib : Stdlib) (sourceQuery sessionId : Text) (now : ℚ) :
    (state.consume lib sourceQuery sessionId now).2.Sound := by
  unfold HomeState.consume HomeState.resolveActiveSession
  by_cases hactive : state.isActive sessionId = true
  · rw [if_pos hactive]
    exact h.takePlan lib sourceQuery none now hactive
  · rw [if_neg hactive]
    have hpopped := h.redirect (state.redirects.erase sessionId)
    cases state.redirects.get? sessionId with
    | none => exact hpopped
    | some target =>
      obtain ⟨target, turnId⟩ := target
      dsimp only
      by_cases htarget : state.isActive target = true
      · rw [if_pos htarget]
        exact hpopped.takePlan lib sourceQuery (some turnId) now htarget
      · rw [if_neg htarget]
        exact hpopped

end Sound

/-- An entry without providers is empty, so `_drop_empty_home` looks at them only. -/
theorem Sound.dropEmptyHome_eq {state : HomeState} (h : state.Sound) :
    state.dropEmptyHome = if state.activations.isEmpty then none else some state := by
  unfold dropEmptyHome
  by_cases hempty : state.activations.isEmpty = true
  · have hinactive : ∀ sessionId, ¬ state.isActive sessionId = true := by
      intro sessionId hactive
      obtain ⟨token, htoken⟩ := isActive_iff.mp hactive
      rw [Dict.isEmpty_iff.mp hempty token] at htoken
      cases htoken
    have hclosed : state.closedTurns.isEmpty = true := by
      refine Dict.isEmpty_iff.mpr fun key => Option.eq_none_iff_forall_ne_some.mpr fun e he => ?_
      exact hinactive _ (h.closed he)
    have hcurrent : state.currentTurns.isEmpty = true := by
      refine Dict.isEmpty_iff.mpr fun key => Option.eq_none_iff_forall_ne_some.mpr fun e he => ?_
      exact hinactive _ (h.current he)
    have hplans : state.plans.isEmpty = true := by
      refine Dict.isEmpty_iff.mpr fun key => Option.eq_none_iff_forall_ne_some.mpr fun e he => ?_
      exact hinactive _ (h.plans he)
    rw [hempty, hclosed, hcurrent, hplans]
    rfl
  · rw [Bool.not_eq_true] at hempty
    rw [hempty]
    rfl

end HomeState

/-! ## Entries -/

/-- The entry exists only while some provider is active. -/
def Mailbox.Sound (m : Mailbox) : Prop :=
  ∀ state, m = some state → state.Sound ∧ state.activations.isEmpty = false

namespace Mailbox

theorem sound_none : Sound none := fun _ h => by cases h

theorem sound_some {state : HomeState} (h : state.Sound)
    (hactive : state.activations.isEmpty = false) : Sound (some state) := by
  intro state' heq
  cases heq
  exact ⟨h, hactive⟩

theorem Sound.dropEmptyHome {state : HomeState} (h : state.Sound) : Sound state.dropEmptyHome := by
  rw [h.dropEmptyHome_eq]
  split
  · exact sound_none
  · rename_i hactive
    exact sound_some h (Bool.eq_false_iff.mpr hactive)

theorem isEmpty_of_keys {a b : Dict Text Text}
    (h : ∀ token, (a.get? token).isSome = (b.get? token).isSome) : a.isEmpty = b.isEmpty := by
  rw [Bool.eq_iff_iff, Dict.isEmpty_iff, Dict.isEmpty_iff]
  refine forall_congr' fun token => ?_
  rw [← Option.isNone_iff_eq_none, ← Option.isNone_iff_eq_none, ← Option.not_isSome, h token,
    Option.not_isSome]

variable {m m' : Mailbox} {now : ℚ}

theorem Sound.activate (hm : m.Sound) {sessionId token result : Text}
    (hfresh : ∀ state, m = some state → state.activations.get? token = none)
    (h : m.activate sessionId token now = .ok (result, m')) : m'.Sound := by
  obtain ⟨_, -, h⟩ := bind_ok h
  cases h
  have hstate : ((m.getD .empty).purgeExpired now).Sound := by
    cases m with
    | none => exact HomeState.empty_sound.purgeExpired now
    | some state => exact (hm state rfl).1.purgeExpired now
  have hnone : ((m.getD .empty).purgeExpired now).activations.get? token = none := by
    cases m with
    | none => rfl
    | some state => exact hfresh state rfl
  generalize (m.getD .empty).purgeExpired now = state at hstate hnone ⊢
  refine sound_some (hstate.restrict (fun _ _ hturn => hturn) (fun _ _ hkey => hkey)
    (List.Sublist.refl _) (fun other _ hactive => ?_) (le_refl _)) ?_
  · have hset := @isActive_set state token sessionId other (by rw [hnone]; nofun)
      (HomeState.isActive_iff.mp hactive)
    exact HomeState.isActive_iff.mpr hset
  · refine Bool.eq_false_iff.mpr fun hempty => ?_
    have hget := Dict.isEmpty_iff.mp hempty token
    rw [Dict.get?_set, if_pos rfl] at hget
    cases hget

theorem release_sound {state : HomeState} (h : state.Sound) {token : Text}
    (hnone : state.activations.get? token = none) :
    ({ state with activations := state.activations.erase token } : HomeState).Sound := by
  refine h.restrict (fun _ _ hturn => hturn) (fun _ _ hkey => hkey) (List.Sublist.refl _)
    (fun other _ hactive => ?_) (le_refl _)
  exact HomeState.isActive_iff.mpr
    (isActive_erase (by rw [hnone]; nofun) (HomeState.isActive_iff.mp hactive))

theorem release_orphan_sound {state : HomeState} (h : state.Sound) {token sessionId : Text}
    (hsome : state.activations.get? token = some sessionId) :
    (({ state with activations := state.activations.erase token } : HomeState).clearOrphan
      sessionId).Sound := by
  refine h.clearOrphan fun other hne hactive => ?_
  refine HomeState.isActive_iff.mpr (isActive_erase ?_ (HomeState.isActive_iff.mp hactive))
  rw [hsome]
  exact fun heq => hne (Option.some.inj heq).symm

theorem Sound.deactivate (hm : m.Sound) {token : Text} {u : Unit}
    (h : m.deactivate token now = .ok (u, m')) : m'.Sound := by
  obtain ⟨_, -, h⟩ := bind_ok h
  cases m with
  | none =>
    cases h
    exact sound_none
  | some state =>
    dsimp only at h
    have hstate := (hm state rfl).1.purgeExpired now
    split at h
    · rename_i hnone
      cases h
      exact Sound.dropEmptyHome (release_sound hstate hnone)
    · rename_i sessionId hsome
      cases h
      exact Sound.dropEmptyHome (release_orphan_sound hstate hsome)

theorem isEmpty_clearOrphan (state : HomeState) (sessionId : Text) :
    (state.clearOrphan sessionId).activations = state.activations := by
  unfold HomeState.clearOrphan
  split <;> rfl

theorem Sound.rebind (hm : m.Sound) {token new parent : Text} {moved : Bool}
    (h : m.rebind token new parent now = .ok (moved, m')) : m'.Sound := by
  obtain ⟨_, -, h⟩ := bind_ok h
  obtain ⟨_, -, h⟩ := bind_ok h
  cases m with
  | none => cases h
  | some state =>
    dsimp only at h
    obtain ⟨hstate, hactive⟩ := hm state rfl
    have hpurged := hstate.purgeExpired now
    split at h
    · cases h
    · rename_i old hold
      split at h
      · cases h
        exact sound_some hpurged hactive
      · split at h
        · cases h
          exact sound_some hpurged hactive
        · cases h
          refine sound_some ((hpurged.clearOrphan fun other hne hother => ?_).clearSession new true)
            ?_
          · refine HomeState.isActive_iff.mpr (isActive_set ?_ (HomeState.isActive_iff.mp hother))
            rw [show (state.purgeExpired now).activations.get? token = some old from hold]
            exact fun heq => hne (Option.some.inj heq).symm
          · show (HomeState.clearOrphan _ old).activations.isEmpty = false
            rw [isEmpty_clearOrphan, ← hactive]
            refine isEmpty_of_keys fun other => ?_
            show ((state.activations.set token new).get? other).isSome = _
            rw [Dict.get?_set]
            split
            · rename_i heq
              rw [heq, hold]
              rfl
            · rfl

/-- The calls that do not touch the set of tokens. -/
theorem Sound.of_keys {state next : HomeState} (hm : Sound (some state)) (h : next.Sound)
    (hkeys : next.activations = state.activations) : Sound (some next) :=
  sound_some h (by rw [hkeys]; exact (hm state rfl).2)

theorem activations_beginTurn (state : HomeState) (sessionId turnId parent owner token : Text) :
    ((state.beginTurn sessionId turnId parent owner).2.activations.get? token).isSome =
      (state.activations.get? token).isSome := by
  have hbridge : ∀ next : HomeState, ((next.bridge parent sessionId turnId).activations.get?
      token).isSome = (next.activations.get? token).isSome := by
    intro next
    show ((next.activations.mapValues _).get? token).isSome = _
    rw [Dict.get?_mapValues, Option.isSome_map]
  unfold HomeState.beginTurn
  split
  · rfl
  · extract_lets kept parentActive bridged cleared
    have hbridged : (bridged.activations.get? token).isSome =
        (state.activations.get? token).isSome := by
      simp only [bridged]
      split
      · exact hbridge kept
      · rfl
    split
    · exact hbridged
    · exact hbridged

theorem activations_cancel (state : HomeState) (turnId : Text) (ownerToken : Option Text) :
    (state.cancel turnId ownerToken).activations = state.activations := by
  unfold HomeState.cancel
  repeat' split
  all_goals rfl

theorem activations_consume (lib : Stdlib) (state : HomeState) (sourceQuery sessionId : Text)
    (now : ℚ) :
    (state.consume lib sourceQuery sessionId now).2.activations = state.activations := by
  have htake : ∀ (next : HomeState) (effective : Text) (redirected : Option Text),
      (next.takePlan lib sourceQuery effective redirected now).2.activations =
        next.activations := by
    intro next effective redirected
    unfold HomeState.takePlan
    extract_lets current closed stored candidates found
    have hclosed : closed.activations = next.activations := by
      simp only [closed, current]
      split <;> rfl
    split
    · exact hclosed
    · exact hclosed
  unfold HomeState.consume
  rcases resolveActiveSession_cases state sessionId with heq | ⟨resolved, heq, -⟩
  · rw [heq]
    exact htake _ _ _
  · rw [heq]
    cases resolved with
    | none => rfl
    | some target => exact htake _ _ _

/-! ## Calls -/

theorem sound_reply {α : Type} (hm : m.Sound) (wrap : α → MailboxResult)
    {outcome : Except MailboxError (α × Mailbox)}
    (h : ∀ value m', outcome = .ok (value, m') → m'.Sound) :
    (MailboxResult.reply wrap m outcome).2.Sound := by
  cases outcome with
  | error error => exact hm
  | ok r => exact h r.1 r.2 rfl

theorem Sound.isActive (hm : m.Sound) {sessionId : Text} {active : Bool}
    (h : m.isActive sessionId now = .ok (active, m')) : m'.Sound := by
  obtain ⟨_, -, h⟩ := bind_ok h
  cases m with
  | none =>
    cases h
    exact sound_none
  | some state =>
    cases h
    exact hm.of_keys ((hm state rfl).1.purgeExpired now) rfl

theorem Sound.beginTurn (hm : m.Sound) {sessionId turnId parent owner : Text}
    {token : Option Text}
    (h : m.beginTurn sessionId turnId parent owner now = .ok (token, m')) : m'.Sound := by
  obtain ⟨_, -, h⟩ := bind_ok h
  obtain ⟨_, -, h⟩ := bind_ok h
  cases m with
  | none =>
    cases h
    exact sound_none
  | some state =>
    dsimp only at h
    have hkeys := activations_beginTurn (state.purgeExpired now) sessionId turnId parent owner
    have hnext := ((hm state rfl).1.purgeExpired now).beginTurn sessionId turnId parent owner
    generalize (state.purgeExpired now).beginTurn sessionId turnId parent owner = result
      at h hkeys hnext
    cases h
    refine sound_some hnext ?_
    rw [isEmpty_of_keys hkeys]
    exact (hm state rfl).2

theorem Sound.reserve (hm : m.Sound) {lib : Stdlib} {args : ReserveArguments} {reserved : Bool}
    (h : m.reserve lib args now = .ok (reserved, m')) : m'.Sound := by
  obtain ⟨_, -, h⟩ := bind_ok h
  obtain ⟨_, -, h⟩ := bind_ok h
  obtain ⟨_, -, h⟩ := bind_ok h
  obtain ⟨timeout, -, h⟩ := bind_ok h
  cases m with
  | none =>
    cases h
    exact sound_none
  | some state =>
    dsimp only at h
    have hkeys : ((state.purgeExpired now).reserve lib args timeout now).2.activations =
        state.activations := by
      unfold HomeState.reserve
      split <;> rfl
    have hnext := ((hm state rfl).1.purgeExpired now).reserve lib args timeout now
    generalize (state.purgeExpired now).reserve lib args timeout now = result at h hkeys hnext
    cases h
    exact hm.of_keys hnext hkeys

theorem Sound.finalize (hm : m.Sound) {args : FinalizeArguments} {finalized : Bool}
    (h : m.finalize args now = .ok (finalized, m')) : m'.Sound := by
  obtain ⟨_, -, h⟩ := bind_ok h
  obtain ⟨_, -, h⟩ := bind_ok h
  cases m with
  | none =>
    cases h
    exact sound_none
  | some state =>
    dsimp only at h
    have hkeys : ((state.purgeExpired now).finalize args now).2.activations =
        state.activations := by
      unfold HomeState.finalize
      repeat' split
      all_goals rfl
    have hnext := ((hm state rfl).1.purgeExpired now).finalize args now
    generalize (state.purgeExpired now).finalize args now = result at h hkeys hnext
    cases h
    exact hm.of_keys hnext hkeys

theorem Sound.cancel (hm : m.Sound) {turnId : Text} {ownerToken : Option Text} {u : Unit}
    (h : m.cancel turnId ownerToken = .ok (u, m')) : m'.Sound := by
  obtain ⟨_, -, h⟩ := bind_ok h
  cases m with
  | none =>
    cases h
    exact sound_none
  | some state =>
    cases h
    exact Sound.dropEmptyHome ((hm state rfl).1.cancel turnId ownerToken)

theorem Sound.consume (hm : m.Sound) {lib : Stdlib} {sourceQuery sessionId : Text}
    {outcome : HomeState.Consumed}
    (h : m.consume lib sourceQuery sessionId now = .ok (outcome, m')) : m'.Sound := by
  obtain ⟨_, -, h⟩ := bind_ok h
  obtain ⟨_, -, h⟩ := bind_ok h
  cases m with
  | none =>
    cases h
    exact sound_none
  | some state =>
    dsimp only at h
    have hkeys := activations_consume lib (state.purgeExpired now) sourceQuery sessionId now
    have hnext := ((hm state rfl).1.purgeExpired now).consume lib sourceQuery sessionId now
    generalize (state.purgeExpired now).consume lib sourceQuery sessionId now = result
      at h hkeys hnext
    cases h
    exact hm.of_keys hnext hkeys

theorem Sound.clearSessionPlans (hm : m.Sound) {sessionId : Text} {u : Unit}
    (h : m.clearSessionPlans sessionId = .ok (u, m')) : m'.Sound := by
  obtain ⟨_, -, h⟩ := bind_ok h
  cases m with
  | none =>
    cases h
    exact sound_none
  | some state =>
    cases h
    exact Sound.dropEmptyHome ((hm state rfl).1.clearSession sessionId true)

theorem Sound.purgeStale (hm : m.Sound) (now : ℚ) : (m.purgeStale now).Sound := by
  cases m with
  | none => exact sound_none
  | some state => exact Sound.dropEmptyHome ((hm state rfl).1.purgeExpired now)

end Mailbox

open Mailbox

theorem MailboxCall.sound {lib : Stdlib} {call : MailboxCall} {m : Mailbox}
    (hfresh : call.operation.Fresh m) (hm : m.Sound) : (call.run lib m).2.Sound := by
  obtain ⟨operation, now⟩ := call
  cases operation with
  | activate s t => exact sound_reply hm _ fun _ _ h => hm.activate hfresh h
  | deactivate t => exact sound_reply hm _ fun _ _ h => hm.deactivate h
  | rebind t new parent => exact sound_reply hm _ fun _ _ h => hm.rebind h
  | isActive s => exact sound_reply hm _ fun _ _ h => hm.isActive h
  | beginTurn s t parent k => exact sound_reply hm _ fun _ _ h => hm.beginTurn h
  | reserve args => exact sound_reply hm _ fun _ _ h => hm.reserve h
  | finalize args => exact sound_reply hm _ fun _ _ h => hm.finalize h
  | cancel t k => exact sound_reply hm _ fun _ _ h => hm.cancel h
  | consume q s => exact sound_reply hm _ fun _ _ h => hm.consume h
  | clearSessionPlans s => exact sound_reply hm _ fun _ _ h => hm.clearSessionPlans h
  | purgeStale => exact hm.purgeStale now

theorem Run.sound {lib : Stdlib} {start : ℚ} {tr : List (Transition MailboxWorld MailboxCall)}
    {w : MailboxWorld} (h : Run (MailboxStep lib) ⟨none, start⟩ tr w) : w.mailbox.Sound := by
  refine h.invariant (I := fun w => w.mailbox.Sound) sound_none ?_
  rintro a call b ha ⟨-, hfresh, rfl⟩
  exact MailboxCall.sound hfresh ha

end BetterHindsight
