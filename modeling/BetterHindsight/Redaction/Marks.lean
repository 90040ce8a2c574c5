import BetterHindsight.Foundations.Substitution
import BetterHindsight.Redaction

/-! # What each redaction replaces

Every match of a credential pattern begins with a label, and the replacement keeps the label and
possibly an end of the match (a quote, the `@`) around the marker.

* `Redacts`: the shape of a replacement, one lemma for each pattern.
* `infix_redact`: redaction brings no text together that was apart. -/

namespace BetterHindsight
set_option autoImplicit false

open Regex

namespace Redaction

/-! ## Labels -/

def authorizationLabel (lib : Stdlib) : Regex :=
  seq (wordBoundary lib) (seq (litIgnoreCase "authorization")
    (seq blanks (seq (lit ":") blanks)))

def bearerLabel (lib : Stdlib) : Regex :=
  seq (wordBoundary lib) (seq (litIgnoreCase "bearer") (atLeast 1 (chr isBlankChar)))

def apiKeyLabel (lib : Stdlib) : Regex :=
  seq (look fun before _ => !before.any fun c => isAsciiAlnum (foldCase c))
    (seq (litIgnoreCase "api")
    (seq (opt (chr fun c => c == '-' || c == '_' || c == ' '))
    (seq (litIgnoreCase "key")
    (seq (wordBoundary lib)
    (seq (opt (chr isQuoteChar))
    (seq blanks
    (seq (chr fun c => c == '=' || c == ':') blanks)))))))

def schemeLabel (lib : Stdlib) : Regex :=
  seq (wordBoundary lib)
    (seq (litIgnoreCase "http") (seq (opt (litIgnoreCase "s")) (lit "://")))

/-- The marker with what the replacement keeps around it: a text of the label before it, and at
least `least` characters less between them. -/
def Redacts (label : Text → Prop) (least : ℕ) (m : Match) (out : Text) : Prop :=
  ∃ head secret tail, m.text = head ++ secret ++ tail ∧ out = head ++ REDACTION_MARKER ++ tail ∧
    label head ∧ least ≤ secret.length

variable {lib : Stdlib} {m : Match}

theorem privateKey_redacts (h : Match.Of PRIVATE_KEY_PATTERN m) :
    Redacts (· = []) 10 m REDACTION_MARKER := by
  have hlen := h.accepts.minLen
  have hmin : 10 ≤ PRIVATE_KEY_PATTERN.minLen := by decide
  exact ⟨[], m.text, [], by simp, by simp, rfl, hmin.trans hlen⟩

theorem authorization_redacts (h : Match.Of (AUTHORIZATION_HEADER_PATTERN lib) m) :
    Redacts (authorizationLabel lib).Accepts 1 m (m.group keptGroup ++ REDACTION_MARKER) := by
  obtain ⟨u, v, htext, hgroup, hu, hv⟩ := Match.Of.group_seq (by decide) h
  have hlen := hv.minLen
  exact ⟨u, v, [], by simp [htext], by simp [hgroup], hu, hlen⟩

theorem bearer_redacts (h : Match.Of (BEARER_TOKEN_PATTERN lib) m) :
    Redacts (bearerLabel lib).Accepts 8 m (m.group keptGroup ++ REDACTION_MARKER) := by
  obtain ⟨u, v, htext, hgroup, hu, hv⟩ := Match.Of.group_seq (by decide) h
  have hlen := hv.minLen
  exact ⟨u, v, [], by simp [htext], by simp [hgroup], hu, hlen⟩

theorem apiKey_redacts (h : Match.Of (API_KEY_PATTERN lib) m) :
    Redacts (fun t => ∃ u v, t = u ++ v ∧ (apiKeyLabel lib).Accepts u) 4 m
      (m.group keptGroup ++ m.group quoteGroup ++ REDACTION_MARKER ++ m.group quoteGroup) := by
  obtain ⟨u, v, w, htext, hkept, hquote, hu, -, hw⟩ :=
    Match.Of.quoted (by decide) (by decide) (by decide) h
  have hlen := hw.minLen
  exact ⟨u ++ v, w, v, htext, by rw [hkept, hquote], ⟨u, v, rfl, hu⟩, hlen⟩

theorem url_redacts (h : Match.Of (URL_USERINFO_PATTERN lib) m) :
    Redacts (schemeLabel lib).Accepts 1 m
      (m.group keptGroup ++ REDACTION_MARKER ++ "@".toList) := by
  obtain ⟨u, v, htext, hgroup, hu, hv⟩ := Match.Of.group_seq (by decide) h
  obtain ⟨user, rest, rfl, huser, hrest⟩ := hv.seq
  obtain ⟨password, at_, rfl, -, hat⟩ := hrest.seq
  have hlen := huser.minLen
  refine ⟨u, user ++ password, at_, by simp [htext], by rw [hgroup, hat.lit], hu, ?_⟩
  rw [List.length_append]
  exact Nat.le_add_right_of_le hlen

/-! ## Texts apart stay apart -/

theorem Redacts.marks {label : Text → Prop} {least : ℕ} {out : Text}
    (h : Redacts label least m out) : Marks REDACTION_MARKER m out := by
  obtain ⟨head, secret, tail, htext, hout, -, -⟩ := h
  exact ⟨head, secret, tail, htext, hout⟩

end Redaction

open Redaction

/-- The word between the brackets of the marker. -/
def markerWord : Text := "REDACTED"

theorem REDACTION_MARKER_eq : REDACTION_MARKER = '[' :: markerWord ++ [']'] := rfl

/-- What is read in a redacted text outside of brackets is read in the text itself, or in the
marker's word. -/
theorem infix_redact {lib : Stdlib} {secret : Text} (ho : '[' ∉ secret) (hc : ']' ∉ secret)
    {t : Text} (h : secret <:+: redactSensitiveText lib t) :
    secret <:+: t ∨ secret <:+: markerWord := by
  have hpass : ∀ (r : Regex) (f : Match → Text), (∀ m, Match.Of r m → Marks REDACTION_MARKER m (f m)) →
      ∀ {u : Text}, (secret <:+: u → secret <:+: t ∨ secret <:+: markerWord) →
        secret <:+: r.sub f u → secret <:+: t ∨ secret <:+: markerWord := by
    intro r f hf u hu hsub
    rw [REDACTION_MARKER_eq] at hf
    rcases infix_sub ho hc hf hsub with h | h
    · exact hu h
    · exact .inr h
  refine hpass _ _ (fun m hm => (url_redacts hm).marks) ?_ h
  apply hpass _ _ fun m hm => (apiKey_redacts hm).marks
  apply hpass _ _ fun m hm => (bearer_redacts hm).marks
  apply hpass _ _ fun m hm => (authorization_redacts hm).marks
  apply hpass _ _ fun m hm => (privateKey_redacts hm).marks
  exact .inl

end BetterHindsight
