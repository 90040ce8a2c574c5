import BetterHindsight.Planner.Handoff

/-! # The plan and the query that the provider recalls

`prefetch` up to the projection of the query: it consumes at most one plan, and the plan decides
which query is recalled, or that none is.

* `prefetch`: the decision and the entry it leaves.
* `handoff_safety`: a decision other than the direct query rests on one finalized reservation of
  the current turn. -/

namespace BetterHindsight
set_option autoImplicit false

open Mailbox

/-- `config.planner.mode` -/
inductive PlannerMode where
  | off
  | shadow
  | active
  deriving DecidableEq

def PlanMode.setting : PlanMode → PlannerMode
  | shadow => .shadow
  | active => .active

/-- What `prefetch` reads of the provider and its configuration. -/
structure PrefetchSettings where
  /-- recall is enabled, and the configuration and the runtime are there -/
  ready : Bool
  hasMailbox : Bool
  sessionId : Text
  plannerMode : PlannerMode
  historyMaxChars : ℕ
  timeoutSeconds : ℚ

inductive PrefetchDecision where
  /-- `""` before any plan is looked at -/
  | inactive
  | raised (error : MailboxError)
  /-- `""` at the deadline -/
  | timedOut
  /-- `""` on a plan -/
  | suppressed
  | recall (effectiveQuery : Text)
  deriving DecidableEq

namespace PrefetchSettings

/-- `session_id or self._session_id` -/
def consumeSession (settings : PrefetchSettings) (sessionId : Text) : Text :=
  if sessionId = [] then settings.sessionId else sessionId

/-- The decision on the consumed plan. -/
def follow (settings : PrefetchSettings) (query : Text) : Option RecallPlan → PrefetchDecision
  | none => .recall query
  | some plan =>
    if plan.mode.setting = settings.plannerMode then
      if plan.mode = .active ∧ (plan.action = .skip ∨ plan.action = .reuse) then .suppressed
      else if plan.mode = .active ∧ plan.action = .recall then
        .recall (plan.rewrittenQuery.getD query)
      else .recall query
    else .recall query

/-- `prefetch` that starts at `startedAt`, consumes at `now` and looks at the deadline at
`checkedAt`. -/
def prefetch (lib : Stdlib) (settings : PrefetchSettings) (query sessionId : Text)
    (startedAt now checkedAt : ℚ) (mailbox : Mailbox) : PrefetchDecision × Mailbox :=
  if !settings.ready || query == [] then (.inactive, mailbox)
  else if settings.hasMailbox && query.length ≤ settings.historyMaxChars && !isBlank query then
    let late : Bool := startedAt + settings.timeoutSeconds ≤ checkedAt
    match mailbox.consume lib query (settings.consumeSession sessionId) now with
    | .error (.valueError message) => (.raised (.valueError message), mailbox)
    | .error .unavailable => (if late then .timedOut else .recall query, mailbox)
    | .ok (outcome, next) => (if late then .timedOut else settings.follow query outcome.plan, next)
  else (.recall query, mailbox)

end PrefetchSettings

/-- The plan of a decision that is not the direct recall of the query. -/
structure PrefetchDecision.RestsOn (decision : PrefetchDecision) (settings : PrefetchSettings)
    (plan : RecallPlan) : Prop where
  configured : settings.plannerMode = .active
  mode : plan.mode = .active
  action : (decision = .suppressed ∧ plan.action ≠ .recall) ∨
    ∃ rewrittenQuery, decision = .recall rewrittenQuery ∧ plan.action = .recall ∧
      plan.rewrittenQuery = some rewrittenQuery

/-- The query is suppressed or rewritten. -/
def PrefetchDecision.Departs (decision : PrefetchDecision) (query : Text) : Prop :=
  decision = .suppressed ∨ ∃ effectiveQuery, decision = .recall effectiveQuery ∧
    effectiveQuery ≠ query

theorem PrefetchDecision.not_departs (query : Text) :
    ¬ (PrefetchDecision.recall query).Departs query := by
  rintro (hsuppressed | ⟨effectiveQuery, heq, hne⟩)
  · cases hsuppressed
  · cases heq
    exact hne rfl

theorem PrefetchSettings.follow_departs {settings : PrefetchSettings} {query : Text}
    {consumed : Option RecallPlan} (h : (settings.follow query consumed).Departs query) :
    ∃ plan, consumed = some plan ∧ (settings.follow query consumed).RestsOn settings plan := by
  cases consumed with
  | none => exact absurd h (PrefetchDecision.not_departs query)
  | some plan =>
    refine ⟨plan, rfl, ?_⟩
    simp only [PrefetchSettings.follow] at h ⊢
    by_cases hsetting : plan.mode.setting = settings.plannerMode
    · rw [if_pos hsetting] at h ⊢
      by_cases hskip : plan.mode = .active ∧ (plan.action = .skip ∨ plan.action = .reuse)
      · rw [if_pos hskip]
        refine ⟨?_, hskip.1, .inl ⟨rfl, fun hrecall => ?_⟩⟩
        · rw [← hsetting, hskip.1]
          rfl
        · rcases hskip.2 with haction | haction
          · rw [hrecall] at haction
            cases haction
          · rw [hrecall] at haction
            cases haction
      · rw [if_neg hskip] at h ⊢
        by_cases hrecall : plan.mode = .active ∧ plan.action = .recall
        · rw [if_pos hrecall] at h ⊢
          cases hrewritten : plan.rewrittenQuery with
          | none =>
            rw [hrewritten] at h
            exact absurd h (PrefetchDecision.not_departs query)
          | some rewrittenQuery =>
            refine ⟨?_, hrecall.1, .inr ⟨rewrittenQuery, rfl, hrecall.2, hrewritten⟩⟩
            rw [← hsetting, hrecall.1]
            rfl
        · rw [if_neg hrecall] at h
          exact absurd h (PrefetchDecision.not_departs query)
    · rw [if_neg hsetting] at h
      exact absurd h (PrefetchDecision.not_departs query)

/-- A decision other than the direct recall rests on the plan that `consume` returned. -/
theorem PrefetchSettings.prefetch_departs {lib : Stdlib} {settings : PrefetchSettings}
    {query sessionId : Text} {startedAt now checkedAt : ℚ} {m : Mailbox}
    (h : (settings.prefetch lib query sessionId startedAt now checkedAt m).1.Departs query) :
    ∃ plan evaluation m', m.consume lib query (settings.consumeSession sessionId) now =
        .ok (⟨some plan, evaluation⟩, m') ∧
      (settings.prefetch lib query sessionId startedAt now checkedAt m).1.RestsOn settings plan := by
  unfold PrefetchSettings.prefetch at h ⊢
  extract_lets late at h
  have hlate : ¬ PrefetchDecision.timedOut.Departs query := by
    rintro (heq | ⟨effectiveQuery, heq, -⟩) <;> cases heq
  split at h
  · rcases h with heq | ⟨effectiveQuery, heq, -⟩ <;> cases heq
  · rename_i hready
    rw [if_neg hready]
    split at h
    · rename_i heligible
      rw [if_pos heligible]
      generalize m.consume lib query (settings.consumeSession sessionId) now = result at h ⊢
      cases result with
      | error error =>
        cases error with
        | valueError message =>
          rcases h with heq | ⟨effectiveQuery, heq, -⟩ <;> cases heq
        | unavailable =>
          dsimp only at h
          split at h
          · exact absurd h hlate
          · exact absurd h (PrefetchDecision.not_departs query)
      | ok r =>
        obtain ⟨⟨consumed, evaluation⟩, m'⟩ := r
        dsimp only at h ⊢
        split at h
        · exact absurd h hlate
        · rename_i hintime
          rw [if_neg hintime]
          obtain ⟨plan, rfl, hrests⟩ := PrefetchSettings.follow_departs h
          exact ⟨plan, evaluation, m', rfl, hrests⟩
    · exact absurd h (PrefetchDecision.not_departs query)

/-! ## Safety of the hand-off -/

section Safety
variable {lib : Stdlib} {start : ℚ} {tr : List MailboxEvent} {w : MailboxWorld}

theorem Run.comesFrom (hstart : 0 ≤ start) (hrun : Run (HookStep lib) ⟨none, start⟩ tr w)
    (hcf : lib.CollisionFree (QueryOf tr)) {past rest : List MailboxEvent} {e : MailboxEvent}
    {sourceQuery sessionId : Text} {plan : RecallPlan} (htr : tr = past ++ e :: rest)
    (hreturns : Returns lib e sourceQuery sessionId plan) :
    ∃! position, HandedOver lib past position e.label.now sourceQuery sessionId plan := by
  obtain ⟨before, r, after, args, owner, hpast, hhandover, -⟩ :=
    hrun.returned hstart hcf htr hreturns
  refine ⟨before.length, ⟨before, r, after, args, owner, hpast, rfl, hhandover⟩, ?_⟩
  rintro position ⟨before', r', after', args', owner', hpast', rfl, hhandover'⟩
  exact hhandover'.unique hhandover rfl (hpast'.symm.trans hpast)

theorem QueryOf.of_snoc {e : MailboxEvent} {text : Text}
    (hreserve : ∀ args, e.label.operation ≠ .reserve args) (h : QueryOf (tr ++ [e]) text) :
    QueryOf tr text ∨ ∃ sessionId, e.label.operation = .consume text sessionId := by
  rcases h with ⟨x, hx, args, hop, htext⟩ | ⟨x, hx, sessionId, hop⟩
  · rcases List.mem_append.mp hx with hx | hx
    · exact .inl (.inl ⟨x, hx, args, hop, htext⟩)
    · rw [List.mem_singleton] at hx
      exact absurd (hx ▸ hop) (hreserve args)
  · rcases List.mem_append.mp hx with hx | hx
    · exact .inl (.inr ⟨x, hx, sessionId, hop⟩)
    · rw [List.mem_singleton] at hx
      exact .inr ⟨sessionId, hx ▸ hop⟩

/-- A later plan comes from another reservation. -/
theorem Run.comesFrom_once (hstart : 0 ≤ start) (hrun : Run (HookStep lib) ⟨none, start⟩ tr w)
    (hcf : lib.CollisionFree (QueryOf tr)) {past rest₁ rest₂ : List MailboxEvent}
    {e e' : MailboxEvent} {sourceQuery sessionId sourceQuery' sessionId' : Text}
    {plan plan' : RecallPlan} (htr : tr = past ++ e :: (rest₁ ++ e' :: rest₂))
    (hreturns : Returns lib e sourceQuery sessionId plan)
    (hreturns' : Returns lib e' sourceQuery' sessionId' plan') {position : ℕ}
    (hfrom : HandedOver lib past position e.label.now sourceQuery sessionId plan) :
    ¬ HandedOver lib (past ++ e :: rest₁) position e'.label.now sourceQuery' sessionId' plan' := by
  rintro ⟨before', r', after', args', owner', hpast', hposition, hhandover'⟩
  obtain ⟨before, r, after, args, owner, rfl, rfl, hhandover⟩ := hfrom
  have hcut : (before ++ r :: after) ++ e :: rest₁ = before ++ r :: (after ++ e :: rest₁) := by
    simp
  obtain ⟨rfl, htail⟩ := List.append_inj (hcut.symm.trans hpast') hposition.symm
  obtain ⟨rfl, rfl⟩ := List.cons.inj htail
  have hargs : args = args' := by
    have hop := hhandover.reserved.1
    rw [hhandover'.reserved.1] at hop
    exact (MailboxOperation.reserve.inj hop).symm
  have hturn : plan.turnId = plan'.turnId := by
    rw [← hhandover.turn, ← hhandover'.turn, hargs]
  obtain ⟨before'', r'', after'', args'', owner'', hpast'', hhandover'', hkept⟩ :=
    hrun.returned hstart hcf (show tr = (before ++ r :: (after ++ e :: rest₁)) ++ e' :: rest₂ by
      rw [htr]
      simp) hreturns'
  have hlength := hhandover'.unique hhandover'' rfl hpast''
  obtain ⟨rfl, htail⟩ := List.append_inj hpast'' hlength
  obtain ⟨-, rfl⟩ := List.cons.inj htail
  exact hkept e (by simp) sourceQuery sessionId plan hreturns hturn

/-- Every plan that `consume` returns comes from exactly one reservation, by the owner of the
latest turn of the session, finalized in time and undisturbed; no reservation is returned twice;
and only such a plan, in the configured active mode, makes `prefetch` depart from the direct recall
of the query. -/
theorem handoff_safety (lib : Stdlib) (texts : Text → Prop) (hcf : lib.CollisionFree texts)
    {start : ℚ} (hstart : 0 ≤ start) {tr : List MailboxEvent} {w : MailboxWorld}
    (hrun : Run (HookStep lib) ⟨none, start⟩ tr w) (htexts : ∀ text, QueryOf tr text → texts text) :
    (∀ past e rest sourceQuery sessionId plan, tr = past ++ e :: rest →
      Returns lib e sourceQuery sessionId plan →
      (∃! position, HandedOver lib past position e.label.now sourceQuery sessionId plan) ∧
      ∀ rest₁ e' rest₂ sourceQuery' sessionId' plan', rest = rest₁ ++ e' :: rest₂ →
        Returns lib e' sourceQuery' sessionId' plan' → ∀ position,
        HandedOver lib past position e.label.now sourceQuery sessionId plan →
        ¬ HandedOver lib (past ++ e :: rest₁) position e'.label.now sourceQuery' sessionId' plan') ∧
    ∀ (settings : PrefetchSettings) (query sessionId : Text) (startedAt now checkedAt : ℚ),
      w.clock ≤ now → texts query →
      (settings.prefetch lib query sessionId startedAt now checkedAt w.mailbox).1.Departs query →
      ∃ plan, (settings.prefetch lib query sessionId startedAt now checkedAt w.mailbox).1.RestsOn
          settings plan ∧
        ∃! position,
          HandedOver lib tr position now query (settings.consumeSession sessionId) plan := by
  have hqueries : lib.CollisionFree (QueryOf tr) := fun s t hs ht => hcf s t (htexts s hs) (htexts t ht)
  refine ⟨fun past e rest sourceQuery sessionId plan htr hreturns => ⟨?_, ?_⟩, ?_⟩
  · exact hrun.comesFrom hstart hqueries htr hreturns
  · rintro rest₁ e' rest₂ sourceQuery' sessionId' plan' rfl hreturns' position hfrom
    exact hrun.comesFrom_once hstart hqueries htr hreturns hreturns' hfrom
  · intro settings query sessionId startedAt now checkedAt hnow hquery hdeparts
    obtain ⟨plan, evaluation, m', hconsume, hrests⟩ := PrefetchSettings.prefetch_departs hdeparts
    refine ⟨plan, hrests, ?_⟩
    -- the consume of `prefetch` as the next call of the run
    set call : MailboxCall := ⟨.consume query (settings.consumeSession sessionId), now⟩
    have hcall : call.run lib w.mailbox = (.consumed ⟨some plan, evaluation⟩, m') := by
      show MailboxResult.reply .consumed w.mailbox (w.mailbox.consume lib query _ now) = _
      rw [hconsume]
      rfl
    have hstep : HookStep lib w call ⟨m', now⟩ := ⟨⟨hnow, trivial, by rw [hcall]⟩, trivial⟩
    have hsnoc : ∀ text, QueryOf (tr ++ [⟨w, call, ⟨m', now⟩⟩]) text → texts text :=
      fun text htext => (QueryOf.of_snoc (fun _ hop => by cases hop) htext).elim (htexts text) fun ⟨s, hop⟩ => by
        cases hop
        exact hquery
    exact (hrun.snoc hstep).comesFrom hstart
      (fun s t hs ht => hcf s t (hsnoc s hs) (hsnoc t ht)) rfl
      ⟨rfl, evaluation, congrArg Prod.fst hcall⟩

/-! ## One skipped turn -/

/-- A hook decides to skip recall for the turn. -/
def skippedTurn : List MailboxCall :=
  [⟨.activate "s" "a", 0⟩, ⟨.beginTurn "s" "t" [] "k", 1⟩,
    ⟨.reserve ⟨"hello", "s", "t", .active, none, none, some "k"⟩, 2⟩,
    ⟨.finalize ⟨"t", .active, .skip, none, some "k"⟩, 3⟩]

def activeSettings : PrefetchSettings := ⟨true, true, "s", .active, 100, 5⟩

theorem skippedTurn_permitted :
    (⟨none, 0⟩ : MailboxWorld).Permits (Stdlib.ofTables [] []) skippedTurn := by
  refine ⟨⟨le_refl 0, fun state h => (by cases h), trivial⟩, ⟨by decide +kernel, trivial, trivial⟩,
    ⟨by decide +kernel, trivial, nofun⟩, ⟨by decide +kernel, trivial, nofun⟩, trivial⟩

theorem handoff_safety_skippedTurn :
    ∃ plan, (activeSettings.prefetch (Stdlib.ofTables [] []) "hello" [] 0 4 4
        ((⟨none, 0⟩ : MailboxWorld).after (Stdlib.ofTables [] []) skippedTurn).mailbox).1.RestsOn
          activeSettings plan ∧
      ∃! position, HandedOver (Stdlib.ofTables [] [])
        ((⟨none, 0⟩ : MailboxWorld).trace (Stdlib.ofTables [] []) skippedTurn) position 4 "hello"
        "s" plan := by
  refine (handoff_safety (Stdlib.ofTables [] []) (fun text => text = "hello".toList) ?_ (le_refl 0)
    skippedTurn_permitted.run ?_).2 activeSettings "hello" [] 0 4 4 ?_ rfl (.inl ?_)
  · rintro s t rfl rfl -
    rfl
  · rintro text (⟨e, he, args, hop, rfl⟩ | ⟨e, he, sessionId, hop⟩)
    · have hmem := MailboxWorld.label_mem he
      simp only [skippedTurn, List.mem_cons, List.not_mem_nil, or_false] at hmem
      rcases hmem with hcall | hcall | hcall | hcall <;> rw [hcall] at hop <;> cases hop
      rfl
    · have hmem := MailboxWorld.label_mem he
      simp only [skippedTurn, List.mem_cons, List.not_mem_nil, or_false] at hmem
      rcases hmem with hcall | hcall | hcall | hcall <;> rw [hcall] at hop <;> cases hop
  · decide +kernel
  · decide +kernel

end Safety

end BetterHindsight
