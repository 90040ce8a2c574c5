import Mathlib

/-! # Runs of a labelled transition system

A step relation `step : σ → ℓ → σ → Prop` and the runs it has from a state. A run keeps every
transition it made, so a theorem about it can name the step at which something happened:

* `Run.invariant`, `Run.invariant_at`: what every step preserves holds at the end of a run and at
  every transition of it.
* `Run.persists_or`: a fact that every step preserves, apart from named transitions, still holds
  at the end of the run unless the run made such a transition.
* `Run.answered`: a state that no request can lead to directly is reached only after every request
  has been answered.
* `Run.countP_le`: a potential that pays for every transition of one kind bounds their number.
* `Run.traceOf`, `Run.of_foldlM`: the run of a list of labels where every label has one next state,
  or at most one.
-/

namespace BetterHindsight
set_option autoImplicit false

universe u v

/-- One transition of a run. -/
structure Transition (σ : Type u) (ℓ : Type v) where
  before : σ
  label : ℓ
  after : σ

/-- `Run step s tr t`: the transitions `tr`, in order, lead from `s` to `t`. -/
inductive Run {σ : Type u} {ℓ : Type v} (step : σ → ℓ → σ → Prop) (s : σ) :
    List (Transition σ ℓ) → σ → Prop
  | nil : Run step s [] s
  | snoc {t u : σ} {tr : List (Transition σ ℓ)} {l : ℓ} :
      Run step s tr t → step t l u → Run step s (tr ++ [⟨t, l, u⟩]) u

/-- Some run from a state that satisfies `init` ends in `s`. -/
def Reachable {σ : Type u} {ℓ : Type v} (init : σ → Prop) (step : σ → ℓ → σ → Prop) (s : σ) :
    Prop :=
  ∃ s₀ tr, init s₀ ∧ Run step s₀ tr s

section Rules
variable {σ : Type u} {ℓ : Type v} {R : σ → ℓ → σ → Prop}

theorem Run.single {s t : σ} {l : ℓ} (h : R s l t) : Run R s [⟨s, l, t⟩] t := by
  have h' := Run.snoc (.nil : Run R s [] s) h
  simpa using h'

theorem Run.append {s t u : σ} {tr tr' : List (Transition σ ℓ)} (h : Run R s tr t)
    (h' : Run R t tr' u) : Run R s (tr ++ tr') u := by
  induction h' with
  | nil => simpa using h
  | snoc _ hs ih => rw [← List.append_assoc]; exact ih.snoc hs

/-- A run of a relation is one of every larger relation. -/
theorem Run.imp {R' : σ → ℓ → σ → Prop} {s t : σ} {tr : List (Transition σ ℓ)} (h : Run R s tr t)
    (hstep : ∀ a l b, R a l b → R' a l b) : Run R' s tr t := by
  induction h with
  | nil => exact Run.nil
  | snoc _ hl ih => exact ih.snoc (hstep _ _ _ hl)

/-- A run whose labels satisfy `P` is one of the steps with such labels. -/
theorem Run.restrict {P : ℓ → Prop} {s t : σ} {tr : List (Transition σ ℓ)} (h : Run R s tr t)
    (hP : ∀ e ∈ tr, P e.label) : Run (fun a l b => R a l b ∧ P l) s tr t := by
  induction h with
  | nil => exact Run.nil
  | snoc _ hl ih =>
    have hlabel := hP _ (List.mem_append_right _ (List.mem_singleton_self _))
    exact (ih fun e he => hP e (List.mem_append_left _ he)).snoc ⟨hl, hlabel⟩

/-- A run is one of the steps that satisfy what each of its transitions does. -/
theorem Run.restrict_at {P : Transition σ ℓ → Prop} {s t : σ} {tr : List (Transition σ ℓ)}
    (h : Run R s tr t) (hP : ∀ e ∈ tr, P e) :
    Run (fun a l b => R a l b ∧ P ⟨a, l, b⟩) s tr t := by
  induction h with
  | nil => exact Run.nil
  | snoc _ hl ih =>
    have hlast := hP _ (List.mem_append_right _ (List.mem_singleton_self _))
    exact (ih fun e he => hP e (List.mem_append_left _ he)).snoc ⟨hl, hlast⟩

/-- A run cut between two of its transitions. -/
theorem Run.of_append {s t : σ} {tr₁ tr₂ : List (Transition σ ℓ)} (h : Run R s (tr₁ ++ tr₂) t) :
    ∃ u, Run R s tr₁ u ∧ Run R u tr₂ t := by
  generalize htr : tr₁ ++ tr₂ = tr at h
  induction h generalizing tr₂ with
  | nil =>
    obtain ⟨rfl, rfl⟩ := List.append_eq_nil_iff.mp htr
    exact ⟨s, Run.nil, Run.nil⟩
  | @snoc t' u tr' l hr hl ih =>
    rcases List.eq_nil_or_concat tr₂ with rfl | ⟨tr₂', e, rfl⟩
    · rw [List.append_nil] at htr
      exact ⟨u, htr ▸ hr.snoc hl, Run.nil⟩
    · rw [List.concat_eq_append, ← List.append_assoc] at htr
      obtain ⟨h₁, h₂⟩ := List.append_inj' htr rfl
      obtain rfl : e = ⟨t', l, u⟩ := by simpa using h₂
      obtain ⟨v, hv, hv'⟩ := ih h₁
      rw [List.concat_eq_append]
      exact ⟨v, hv, hv'.snoc hl⟩

theorem Run.invariant {I : σ → Prop} {s t : σ} {tr : List (Transition σ ℓ)}
    (h : Run R s tr t) (hs : I s) (hstep : ∀ a l b, I a → R a l b → I b) : I t := by
  induction h with
  | nil => exact hs
  | snoc _ hl ih => exact hstep _ _ _ ih hl

/-- Every transition of a run is a step, taken in a state that satisfies the invariant. -/
theorem Run.invariant_at {I : σ → Prop} {s t : σ} {tr : List (Transition σ ℓ)}
    (h : Run R s tr t) (hs : I s) (hstep : ∀ a l b, I a → R a l b → I b) :
    ∀ e ∈ tr, I e.before ∧ R e.before e.label e.after := by
  induction h with
  | nil => intro e he; simp at he
  | snoc hr hl ih =>
    intro e he
    rcases List.mem_append.mp he with he | he
    · exact ih e he
    · rw [List.mem_singleton] at he
      subst he
      exact ⟨hr.invariant hs hstep, hl⟩

/-- A run cut at one of its transitions. -/
theorem Run.split {s t : σ} {tr₁ tr₂ : List (Transition σ ℓ)} {e : Transition σ ℓ}
    (h : Run R s (tr₁ ++ e :: tr₂) t) :
    Run R s tr₁ e.before ∧ R e.before e.label e.after ∧ Run R e.after tr₂ t := by
  generalize htr : tr₁ ++ e :: tr₂ = tr at h
  induction h generalizing tr₂ with
  | nil => simp at htr
  | @snoc t' u tr' l hr hl ih =>
    rcases List.eq_nil_or_concat tr₂ with rfl | ⟨tr₂', e', rfl⟩
    · obtain ⟨rfl, he⟩ := List.append_inj' htr rfl
      obtain rfl : e = ⟨t', l, u⟩ := by simpa using he
      exact ⟨hr, hl, Run.nil⟩
    · rw [List.concat_eq_append, ← List.cons_append, ← List.append_assoc] at htr
      obtain ⟨h₁, h₂⟩ := List.append_inj' htr rfl
      obtain rfl : e' = ⟨t', l, u⟩ := by simpa using h₂
      obtain ⟨ha, hb, hc⟩ := ih h₁
      rw [List.concat_eq_append]
      exact ⟨ha, hb, hc.snoc hl⟩

/-- What every step preserves, apart from the transitions `E`, holds at the end of a run that has
no such transition. -/
theorem Run.persists_or {I P : σ → Prop} {E : Transition σ ℓ → Prop} {s t : σ}
    {tr : List (Transition σ ℓ)} (h : Run R s tr t) (hs : I s)
    (hstep : ∀ a l b, I a → R a l b → I b)
    (hP : ∀ a l b, I a → R a l b → P a → P b ∨ E ⟨a, l, b⟩) (hPs : P s) :
    P t ∨ ∃ e ∈ tr, E e := by
  induction h with
  | nil => exact .inl hPs
  | @snoc a b tr' l hr hl ih =>
    rcases ih with hp | ⟨e, he, hE⟩
    · rcases hP _ _ _ (hr.invariant hs hstep) hl hp with h' | h'
      · exact .inl h'
      · exact .inr ⟨_, by simp, h'⟩
    · exact .inr ⟨e, by simp [he], hE⟩

/-- Where `W` holds, every request `P` of the run was followed by an answer `Q`: a request never
leads to `W`, and only an answer leads from outside `W` into it. -/
theorem Run.answered {W : σ → Prop} {P Q : Transition σ ℓ → Prop} {s t : σ}
    {tr : List (Transition σ ℓ)} (h : Run R s tr t)
    (hstep : ∀ a l b, R a l b → W b → ¬ P ⟨a, l, b⟩ ∧ (Q ⟨a, l, b⟩ ∨ W a)) (hW : W t)
    {tr₁ tr₂ : List (Transition σ ℓ)} {e : Transition σ ℓ} (htr : tr = tr₁ ++ e :: tr₂)
    (hP : P e) : ∃ e' ∈ tr₂, Q e' := by
  induction h generalizing tr₂ with
  | nil => simp at htr
  | @snoc a b tr' l hr hl ih =>
    obtain ⟨hnot, hQ⟩ := hstep a l b hl hW
    rcases List.eq_nil_or_concat tr₂ with rfl | ⟨tr₂', e', rfl⟩
    · obtain ⟨-, he⟩ := List.append_inj' htr rfl
      obtain rfl : ⟨a, l, b⟩ = e := by simpa using he
      exact absurd hP hnot
    · rw [List.concat_eq_append, ← List.cons_append, ← List.append_assoc] at htr
      obtain ⟨h₁, h₂⟩ := List.append_inj' htr rfl
      obtain rfl : ⟨a, l, b⟩ = e' := by simpa using h₂
      rw [List.concat_eq_append]
      rcases hQ with hQ | hWa
      · exact ⟨_, by simp, hQ⟩
      · obtain ⟨e'', he'', hQ⟩ := ih hWa h₁
        exact ⟨e'', by simp [he''], hQ⟩

/-- The number of transitions of one kind is bounded by a potential that each of them lowers and
no step raises. -/
theorem Run.countP_le {I : σ → Prop} (E : Transition σ ℓ → Bool) (φ : σ → ℕ) {s t : σ}
    {tr : List (Transition σ ℓ)} (h : Run R s tr t) (hs : I s)
    (hstep : ∀ a l b, I a → R a l b → I b)
    (hφ : ∀ a l b, I a → R a l b → (if E ⟨a, l, b⟩ then 1 else 0) + φ b ≤ φ a) :
    tr.countP E + φ t ≤ φ s := by
  induction h with
  | nil => simp
  | @snoc a b tr' l hr hl ih =>
    have h₂ := hφ _ _ _ (hr.invariant hs hstep) hl
    rw [List.countP_append, List.countP_singleton]
    omega

theorem Reachable.init {init : σ → Prop} {s : σ} (h : init s) : Reachable init R s :=
  ⟨s, [], h, Run.nil⟩

theorem Reachable.snoc {init : σ → Prop} {s t : σ} {l : ℓ} (h : Reachable init R s)
    (hl : R s l t) : Reachable init R t := by
  obtain ⟨s₀, tr, h₀, hr⟩ := h
  exact ⟨s₀, _, h₀, hr.snoc hl⟩

theorem Reachable.run {init : σ → Prop} {s t : σ} {tr : List (Transition σ ℓ)}
    (h : Reachable init R s) (hr : Run R s tr t) : Reachable init R t := by
  obtain ⟨s₀, tr₀, h₀, hr₀⟩ := h
  exact ⟨s₀, _, h₀, hr₀.append hr⟩

theorem Reachable.invariant {init I : σ → Prop} {s : σ} (h : Reachable init R s)
    (hinit : ∀ s₀, init s₀ → I s₀) (hstep : ∀ a l b, I a → R a l b → I b) : I s := by
  obtain ⟨s₀, tr, h₀, hr⟩ := h
  exact hr.invariant (hinit s₀ h₀) hstep

end Rules

/-! ## Deterministic steps -/

section Deterministic
variable {σ : Type u} {ℓ : Type v}

/-- The transitions that a list of labels makes, one after the other. -/
def traceOf (next : σ → ℓ → σ) : σ → List ℓ → List (Transition σ ℓ)
  | _, [] => []
  | s, l :: ls => ⟨s, l, next s l⟩ :: traceOf next (next s l) ls

theorem Run.traceOf {R : σ → ℓ → σ → Prop} {next : σ → ℓ → σ} {labels : List ℓ}
    (h : ∀ s, ∀ l ∈ labels, R s l (next s l)) (s : σ) :
    Run R s (traceOf next s labels) (labels.foldl next s) := by
  induction labels generalizing s with
  | nil => exact Run.nil
  | cons l ls ih =>
    have hrest := ih (fun t k hk => h t k (List.mem_cons_of_mem l hk)) (next s l)
    exact (Run.single (h s l List.mem_cons_self)).append hrest

theorem labels_traceOf (next : σ → ℓ → σ) (s : σ) (labels : List ℓ) :
    (BetterHindsight.traceOf next s labels).map Transition.label = labels := by
  induction labels generalizing s with
  | nil => rfl
  | cons l ls ih => simp [BetterHindsight.traceOf, ih]

/-- The run of labels that each have at most one next state. -/
theorem Run.of_foldlM {next : σ → ℓ → Option σ} {labels : List ℓ} {s t : σ}
    (h : labels.foldlM next s = some t) :
    ∃ tr, Run (fun a l b => next a l = some b) s tr t ∧ tr.map Transition.label = labels := by
  induction labels generalizing s with
  | nil =>
    obtain rfl := Option.some.inj h
    exact ⟨[], Run.nil, rfl⟩
  | cons l ls ih =>
    rw [List.foldlM_cons] at h
    obtain ⟨u, hu, hrest⟩ := Option.bind_eq_some_iff.mp h
    obtain ⟨tr, hrun, hlabels⟩ := ih hrest
    exact ⟨_, (Run.single hu).append hrun, by simp [hlabels]⟩

end Deterministic

end BetterHindsight
