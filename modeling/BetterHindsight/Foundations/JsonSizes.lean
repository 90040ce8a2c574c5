import BetterHindsight.Foundations.JsonEscape

/-! # Sizes of encoded documents

A size of texts that adds up over their parts: `utf8Len`, and `escapedLen` for a document that is
encoded once more.

* `Additive.dumps_obj`: the size of an object, field by field in any order.
* `Additive.escapeBy_mono`: what a pass with rules writes only grows with its text. -/

namespace BetterHindsight.Json
set_option autoImplicit false

/-- A size that adds up. -/
structure Additive (μ : Text → ℕ) : Prop where
  append : ∀ s t, μ (s ++ t) = μ s + μ t

theorem additive_utf8Len : Additive utf8Len := ⟨utf8Len_append⟩

theorem additive_escapedLen : Additive escapedLen := ⟨escapedLen_append⟩

namespace Additive

variable {μ : Text → ℕ}

theorem nil (hμ : Additive μ) : μ [] = 0 := by
  have h := hμ.append [] []
  rw [List.append_nil] at h
  omega

theorem cons (hμ : Additive μ) (c : Char) (t : Text) : μ (c :: t) = μ [c] + μ t :=
  hμ.append [c] t

theorem joinComma (hμ : Additive μ) (ts : List Text) :
    μ (joinComma ts) = (ts.map μ).sum + (ts.length - 1) * μ [','] := by
  match ts with
  | [] => simp [Json.joinComma, hμ.nil]
  | [t] => simp [Json.joinComma]
  | t :: u :: ts =>
    have ih := hμ.joinComma (u :: ts)
    have hlen : (t :: u :: ts).length - 1 = ((u :: ts).length - 1) + 1 := rfl
    have hsum : ((t :: u :: ts).map μ).sum = μ t + ((u :: ts).map μ).sum := List.sum_cons
    rw [joinComma_cons_cons, hμ.append, hμ.cons, ih, hlen, Nat.add_mul, Nat.one_mul, hsum]
    omega

/-- The size of an object is a sum over its fields, in any order. -/
theorem dumps_obj (hμ : Additive μ) (quote : Text → Text) (fs : List (Text × Json)) :
    μ (dumps quote (.obj fs)) =
      (fs.map fun f => μ (quote f.1) + μ [':'] + μ (dumps quote f.2)).sum +
        (fs.length - 1) * μ [','] + μ ['{'] + μ ['}'] := by
  have hperm : (sortKeys fs).Perm fs := List.perm_insertionSort _ fs
  have hsum := (hperm.map fun f : Text × Json =>
    μ (quote f.1) + μ [':'] + μ (dumps quote f.2)).sum_nat
  have hmap : ((sortKeys fs).map fun f => quote f.1 ++ ':' :: dumps quote f.2).map μ =
      (sortKeys fs).map fun f => μ (quote f.1) + μ [':'] + μ (dumps quote f.2) := by
    rw [List.map_map]
    apply List.map_congr_left
    intro f _
    rw [Function.comp_apply, hμ.append, hμ.cons, Nat.add_assoc]
  rw [Json.dumps_obj, hμ.cons, hμ.append, hμ.joinComma, hmap, hsum, List.length_map,
    hperm.length_eq]
  omega

/-- A longer text has a larger pass: a rule that applies to the shorter one still does. -/
theorem escapeBy_mono (hμ : Additive μ) {R : EscapeRules}
    (hgrow : ∀ r ∈ R.rules, μ [r.1] ≤ μ (unicodeEscape r.1.toNat)) (s t : Text) :
    μ (escapeBy R s) ≤ μ (escapeBy R (s ++ t)) := by
  induction s with
  | nil =>
    have hempty : escapeBy R [] = [] := rfl
    rw [hempty, hμ.nil]
    exact Nat.zero_le _
  | cons c s ih =>
    rw [List.cons_append, escapeBy_cons, escapeBy_cons, hμ.append, hμ.append]
    by_cases hs : R.applies c s
    · have hst : R.applies c (s ++ t) := by
        obtain ⟨r, hr, hc, hrest⟩ := hs
        exact ⟨r, hr, hc, hrest.trans (List.prefix_append s t)⟩
      rw [if_pos hs, if_pos hst]
      omega
    · rw [if_neg hs]
      split
      · next hst =>
        obtain ⟨r, hr, rfl, -⟩ := hst
        have hchar := hgrow r hr
        omega
      · omega

end Additive

end BetterHindsight.Json
