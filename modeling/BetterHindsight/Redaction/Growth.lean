import BetterHindsight.Foundations.Json
import BetterHindsight.Redaction.Marks

/-! # How much redaction can lengthen a text

A marker may be longer than the secret it replaces, so a redacted text can be longer than the text.
Its JSON encoding still needs no more than six bytes for each character of the text: the letters of
a label are written in at most three bytes, and what they leave of their six pays for the marker.
Each of the five substitutions spends letters that no marker and no other label has.

* `weight paid`: six for a character, but the bytes of one that a marker may bring or whose letter is
  already spent.
* `escapedLen_redact`: the bound. -/

namespace BetterHindsight
set_option autoImplicit false

open Regex Redaction

namespace Redaction

/-- The bytes of a character in a JSON string. -/
def size (c : Char) : ℕ := Json.escapedLen [c]

theorem escapedLen_eq_weigh (t : Text) : Json.escapedLen t = weigh size t := by
  induction t with
  | nil => rfl
  | cons c t ih =>
    have hcons : Json.escapedLen (c :: t) = Json.escapedLen [c] + Json.escapedLen t :=
      Json.escapedLen_append [c] t
    rw [hcons, ih, weigh_cons, size]

theorem utf8Len_unicodeEscape (n : ℕ) : utf8Len (Json.unicodeEscape n) = 6 := by
  have hdigit : ∀ m < 16, Char.utf8Size (Nat.digitChar m) = 1 := by decide
  have hone : ∀ k, Char.utf8Size (Json.hexDigit k) = 1 := fun k => hdigit _ (Nat.mod_lt _ (by decide))
  have hback : Char.utf8Size '\\' = 1 := by decide
  have hu : Char.utf8Size 'u' = 1 := by decide
  simp only [Json.unicodeEscape, utf8Len_cons, utf8Len_nil, hone, hback, hu]

/-- A character is written with a letter after a backslash, as `\uXXXX` or as itself. -/
theorem size_cases (c : Char) :
    size c = 2 ∨ size c = 6 ∧ c.toNat < 0x20 ∨ size c = c.utf8Size := by
  have hsize : size c = utf8Len (Json.escapeRaw c) := by
    rw [size, Json.escapedLen, List.flatMap_singleton]
  rw [hsize, Json.escapeRaw]
  cases hshort : Json.shortEscape c with
  | some e =>
    refine .inl ?_
    unfold Json.shortEscape at hshort
    split_ifs at hshort <;> rw [← Option.some.inj hshort] <;> dsimp only <;> decide
  | none =>
    by_cases hcontrol : c.toNat < 0x20
    · refine .inr (.inl ⟨?_, hcontrol⟩)
      simp only [if_pos hcontrol, utf8Len_unicodeEscape]
    · refine .inr (.inr ?_)
      simp only [if_neg hcontrol, utf8Len_cons, utf8Len_nil, Nat.add_zero]

theorem size_le_six (c : Char) : size c ≤ 6 := by
  have hfour := Char.utf8Size_le_four c
  have hcases := size_cases c
  omega

theorem one_le_size (c : Char) : 1 ≤ size c := by
  have hpos := Char.utf8Size_pos c
  have hcases := size_cases c
  omega

theorem size_le_three {c : Char} (hlow : 0x20 ≤ c.toNat) (hhigh : c.toNat < 0x10000) :
    size c ≤ 3 := by
  have hthree : c.utf8Size ≤ 3 := by
    have hval : c.val ≤ 0xFFFF := by
      rw [UInt32.le_iff_toNat_le]
      show c.toNat ≤ 0xFFFF
      omega
    unfold Char.utf8Size
    dsimp only
    split_ifs with hone htwo hthree
    · decide
    · decide
    · decide
    · exact absurd hval hthree
  have hcases := size_cases c
  omega

/-! ## Letters that pay -/

/-- The cased forms of a printable ASCII character are printable characters of the basic plane. -/
theorem foldCase_range {c : Char} (hlow : 0x20 ≤ (foldCase c).toNat)
    (hhigh : (foldCase c).toNat < 0x10000) : 0x20 ≤ c.toNat ∧ c.toNat < 0x10000 := by
  unfold foldCase at hlow hhigh
  split_ifs at hlow hhigh with hupper hi hk hs
  · have hA : 'A'.toNat = 65 := rfl
    have hZ : 'Z'.toNat = 90 := rfl
    have hle : 'A'.toNat ≤ c.toNat ∧ c.toNat ≤ 'Z'.toNat := hupper
    omega
  · omega
  · omega
  · omega
  · exact ⟨hlow, hhigh⟩

/-- Six for a character, but its bytes where a marker may bring it or its letter is spent. -/
def weight (paid : Text) (c : Char) : ℕ :=
  if c ∈ REDACTION_MARKER ∨ foldCase c ∈ paid then size c else 6

theorem size_le_weight (paid : Text) (c : Char) : size c ≤ weight paid c := by
  unfold weight
  split
  · exact Nat.le_refl _
  · exact size_le_six c

theorem weight_le_six (paid : Text) (c : Char) : weight paid c ≤ 6 := by
  unfold weight
  split
  · exact size_le_six c
  · exact Nat.le_refl _

theorem one_le_weight (paid : Text) (c : Char) : 1 ≤ weight paid c :=
  (one_le_size c).trans (size_le_weight paid c)

theorem weight_anti {paid more : Text} (h : paid ⊆ more) (c : Char) :
    weight more c ≤ weight paid c := by
  unfold weight
  split_ifs with hmore hpaid hpaid
  · exact Nat.le_refl _
  · exact size_le_six c
  · exact absurd (hpaid.imp_right fun hc => h hc) hmore
  · exact Nat.le_refl _

theorem weigh_marker (paid : Text) : weigh (weight paid) REDACTION_MARKER = 10 := by
  have hmember : ∀ c ∈ REDACTION_MARKER, weight paid c = size c := by
    intro c hc
    rw [weight, if_pos (.inl hc)]
  have hmap : REDACTION_MARKER.map (weight paid) = REDACTION_MARKER.map size :=
    List.map_congr_left hmember
  rw [weigh, hmap]
  decide

/-- The letters that labels can spend; none of them is a letter of the marker. -/
def spendable : Text := "uzonbkyihp/"

theorem spendable_not_marker {c : Char} (h : foldCase c ∈ spendable) : c ∉ REDACTION_MARKER := by
  intro hc
  have hall : (REDACTION_MARKER.all fun d => decide (foldCase d ∉ spendable)) = true := by
    decide +kernel
  exact of_decide_eq_true (List.all_eq_true.mp hall c hc) h

/-- What is spent of a character. -/
def spent (paid more : Text) (c : Char) : ℕ := weight paid c - weight more c

/-- A letter that is spent pays three bytes. -/
theorem three_le_spent {paid more : Text} {c : Char} (hspend : foldCase c ∈ spendable)
    (hmore : foldCase c ∈ more) (hpaid : foldCase c ∉ paid) : 3 ≤ spent paid more c := by
  have hrange : (spendable.all fun d => decide (0x20 ≤ d.toNat ∧ d.toNat < 0x10000)) = true := by
    decide +kernel
  obtain ⟨hlow, hhigh⟩ := of_decide_eq_true (List.all_eq_true.mp hrange _ hspend)
  obtain ⟨hlow, hhigh⟩ := foldCase_range hlow hhigh
  have hsize := size_le_three hlow hhigh
  have hnot := spendable_not_marker hspend
  rw [spent, weight, weight, if_neg (by simp [hnot, hpaid]), if_pos (.inr hmore)]
  omega

example : 3 ≤ spent [] spendable 'u' := by decide +kernel

/-- What a literal pays: three bytes for each of its letters that are spent. -/
def payment (paid more : Text) (t : Text) : ℕ :=
  3 * t.countP fun c => foldCase c ∈ spendable ∧ foldCase c ∈ more ∧ foldCase c ∉ paid

theorem payment_cons (paid more : Text) (c : Char) (t : Text) :
    payment paid more (c :: t) = payment paid more [c] + payment paid more t := by
  rw [payment, payment, payment, ← Nat.mul_add, ← List.countP_append, List.singleton_append]

theorem payment_le (paid more : Text) {c d : Char} (hsame : foldCase d = foldCase c) :
    payment paid more [c] ≤ spent paid more d := by
  rw [payment, List.countP_singleton, ← hsame]
  split
  · rename_i hd
    simp only [decide_eq_true_eq] at hd
    exact three_le_spent hd.1 hd.2.1 hd.2.2
  · exact Nat.zero_le _

theorem gains_litIgnoreCase (paid more t : Text) :
    Gains (spent paid more) (litIgnoreCase t) (payment paid more t) := by
  induction t with
  | nil => exact .nothing _
  | cons c t ih =>
    rw [payment_cons]
    exact .seq (.chr fun d hd => payment_le paid more (by simpa using hd)) ih

/-- The same for a literal that is read as it stands. -/
theorem gains_lit (paid more t : Text) :
    Gains (spent paid more) (lit t) (payment paid more t) := by
  induction t with
  | nil => exact .nothing _
  | cons c t ih =>
    rw [payment_cons]
    refine .seq (.chr fun d hd => payment_le paid more ?_) ih
    obtain rfl : d = c := by simpa using hd
    rfl

/-! ## One substitution after the other -/

/-- A replacement whose label and secret pay for the marker weighs no more than the match. -/
theorem Redacts.weigh_le {paid more : Text} (hpaid : paid ⊆ more) {label : Text → Prop}
    {least gain : ℕ} (hgain : ∀ t, label t → gain ≤ weigh (spent paid more) t)
    (hten : 10 ≤ gain + least) {m : Match} {out : Text} (h : Redacts label least m out) :
    weigh (weight more) out ≤ weigh (weight paid) m.text := by
  obtain ⟨head, secret, tail, htext, hout, hlabel, hleast⟩ := h
  have hmono := weight_anti hpaid
  have hhead : weigh (weight paid) head = weigh (weight more) head + weigh (spent paid more) head := by
    rw [← weigh_add]
    congr 1
    funext c
    have hc := hmono c
    rw [spent]
    omega
  have hsecret := length_le_weigh (one_le_weight paid) secret
  have htail := weigh_mono hmono tail
  have hlabel' := hgain head hlabel
  rw [htext, hout]
  simp only [weigh_append, weigh_marker]
  omega

/-! ## What the labels pay -/

def spentAuthorization : Text := "uzon"

def spentBearer : Text := spentAuthorization ++ "b".toList

def spentApiKey : Text := spentBearer ++ "kyi".toList

variable {lib : Stdlib}

theorem authorization_pays (t : Text) (h : (authorizationLabel lib).Accepts t) :
    15 ≤ weigh (spent [] spentAuthorization) t := by
  have hgain : Gains (spent [] spentAuthorization) (authorizationLabel lib)
      (0 + (payment [] spentAuthorization "authorization" + 0)) :=
    .seq (.nothing _) (.seq (gains_litIgnoreCase _ _ _) (.nothing _))
  have hfifteen : 15 ≤ 0 + (payment [] spentAuthorization "authorization" + 0) := by
    decide +kernel
  exact hfifteen.trans (hgain.weigh h)

theorem bearer_pays (t : Text) (h : (bearerLabel lib).Accepts t) :
    3 ≤ weigh (spent spentAuthorization spentBearer) t := by
  have hgain : Gains (spent spentAuthorization spentBearer) (bearerLabel lib)
      (0 + (payment spentAuthorization spentBearer "bearer" + 0)) :=
    .seq (.nothing _) (.seq (gains_litIgnoreCase _ _ _) (.nothing _))
  have hthree : 3 ≤ 0 + (payment spentAuthorization spentBearer "bearer" + 0) := by
    decide +kernel
  exact hthree.trans (hgain.weigh h)

example : 3 ≤ weigh (spent spentAuthorization spentBearer) "Bearer" := by decide +kernel

theorem apiKey_pays (t : Text) (h : ∃ u v, t = u ++ v ∧ (apiKeyLabel lib).Accepts u) :
    9 ≤ weigh (spent spentBearer spentApiKey) t := by
  obtain ⟨u, v, rfl, hu⟩ := h
  have hgain : Gains (spent spentBearer spentApiKey) (apiKeyLabel lib)
      (0 + (payment spentBearer spentApiKey "api" +
        (0 + (payment spentBearer spentApiKey "key" + 0)))) :=
    .seq (.nothing _) (.seq (gains_litIgnoreCase _ _ _)
      (.seq (.nothing _) (.seq (gains_litIgnoreCase _ _ _) (.nothing _))))
  have hnine : 9 ≤ 0 + (payment spentBearer spentApiKey "api" +
      (0 + (payment spentBearer spentApiKey "key" + 0))) := by
    decide +kernel
  have hpaid := hgain.weigh hu
  rw [weigh_append]
  omega

theorem url_pays (t : Text) (h : (schemeLabel lib).Accepts t) :
    12 ≤ weigh (spent spentApiKey spendable) t := by
  have hgain : Gains (spent spentApiKey spendable) (schemeLabel lib)
      (0 + (payment spentApiKey spendable "http" + (0 + payment spentApiKey spendable "://"))) :=
    .seq (.nothing _) (.seq (gains_litIgnoreCase _ _ _) (.seq (.nothing _) (gains_lit _ _ _)))
  have htwelve : 12 ≤
      0 + (payment spentApiKey spendable "http" + (0 + payment spentApiKey spendable "://")) := by
    decide +kernel
  exact htwelve.trans (hgain.weigh h)

/-- One substitution, when its labels pay for the markers. -/
theorem weigh_pass {paid more : Text} (hpaid : paid ⊆ more) {r : Regex} {f : Match → Text}
    {label : Text → Prop} {least gain : ℕ} (hf : ∀ m, Match.Of r m → Redacts label least m (f m))
    (hgain : ∀ t, label t → gain ≤ weigh (spent paid more) t) (hten : 10 ≤ gain + least)
    (t : Text) : weigh (weight more) (r.sub f t) ≤ weigh (weight paid) t :=
  weigh_sub (weight_anti hpaid) (fun m hm => (hf m hm).weigh_le hpaid hgain hten) t

end Redaction

/-- The redacted text takes at most six bytes of a JSON string for each character of the text. -/
theorem escapedLen_redact (lib : Stdlib) (t : Text) :
    Json.escapedLen (redactSensitiveText lib t) ≤ 6 * t.length := by
  let afterKey := PRIVATE_KEY_PATTERN.sub (fun _ => REDACTION_MARKER) t
  let afterAuthorization := (AUTHORIZATION_HEADER_PATTERN lib).sub
    (fun m => m.group keptGroup ++ REDACTION_MARKER) afterKey
  let afterBearer := (BEARER_TOKEN_PATTERN lib).sub
    (fun m => m.group keptGroup ++ REDACTION_MARKER) afterAuthorization
  let afterApiKey := (API_KEY_PATTERN lib).sub
    (fun m => m.group keptGroup ++ m.group quoteGroup ++ REDACTION_MARKER ++ m.group quoteGroup)
    afterBearer
  have hkey : weigh (weight []) afterKey ≤ weigh (weight []) t :=
    weigh_pass (List.Subset.refl []) (fun m => privateKey_redacts)
      (fun _ _ => Nat.zero_le _) (by decide) t
  have hauthorization : weigh (weight spentAuthorization) afterAuthorization ≤
      weigh (weight []) afterKey :=
    weigh_pass (List.nil_subset _) (fun m => authorization_redacts) authorization_pays
      (by decide) afterKey
  have hbearer : weigh (weight spentBearer) afterBearer ≤
      weigh (weight spentAuthorization) afterAuthorization :=
    weigh_pass (List.subset_append_left _ _) (fun m => bearer_redacts) bearer_pays (by decide)
      afterAuthorization
  have hapiKey : weigh (weight spentApiKey) afterApiKey ≤ weigh (weight spentBearer) afterBearer :=
    weigh_pass (List.subset_append_left _ _) (fun m => apiKey_redacts) apiKey_pays (by decide)
      afterBearer
  have hurl : weigh (weight spendable) (redactSensitiveText lib t) ≤
      weigh (weight spentApiKey) afterApiKey :=
    weigh_pass (by decide +kernel) (fun m => url_redacts) url_pays (by decide) afterApiKey
  have hstart := BetterHindsight.weigh_le (weight_le_six []) t
  have hend := weigh_mono (size_le_weight spendable) (redactSensitiveText lib t)
  rw [escapedLen_eq_weigh]
  omega

end BetterHindsight
