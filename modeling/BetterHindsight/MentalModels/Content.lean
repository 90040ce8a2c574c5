import BetterHindsight.MentalModels.Frame
import BetterHindsight.MentalModels.Pagination

/-! # Responses with a content

`render` keeps the longest content that fits. Its flag is set before the search, and `true` takes a
byte less than `false`: a response one byte too large is flagged and then fits as a whole. -/

namespace BetterHindsight.MentalModels
set_option autoImplicit false

/-- The response with the first `n` characters of the content: as it was given where that is all
of it, else flagged. -/
def prefixForm (payload : Payload) (content : Text) (n : ℕ) : Payload :=
  if n = content.length then payload else cutContent payload content n

/-- The response holds the longest prefix of the content that fits, flagged exactly where it is
shorter than the content. -/
def HonestContent (payload : Payload) (content : Text) : Prop :=
  ∃ rendered cut n, render payload = .ok (rendered, cut) ∧ rendered = encodePayload cut ∧
    utf8Len rendered ≤ OUTPUT_MAX_BYTES ∧ n ≤ content.length ∧
    cut.get? "content" = some (.str (content.take n)) ∧
    (∀ m, n < m → m ≤ content.length → fits (prefixForm payload content m) = false) ∧
    (cut.get? "truncated" = some (.bool true) ↔ n < content.length)

/-- The flag says of the whole content that it is whole, and to set it makes no room for it. -/
def FlagFits (payload : Payload) : Prop :=
  if fits payload then payload.get? "truncated" ≠ some (.bool true)
  else fits (payload.set "truncated" (.bool true)) = false

theorem content_eq_str {payload : Payload} {content : Text}
    (h : (payload.get? "content").bind JsonValue.text? = some content) :
    payload.get? "content" = some (.str content) := by
  obtain ⟨⟨v, hv⟩, hget, htext⟩ := Option.bind_eq_some_iff.mp h
  rw [hget]
  cases v with
  | str t =>
    cases htext
    rfl
  | _ => cases htext

theorem str_unique {payload : Payload} {k s t : Text} (hs : payload.get? k = some (.str s))
    (ht : payload.get? k = some (.str t)) : s = t := by
  rw [hs, Option.some.injEq] at ht
  exact Json.str.inj (congrArg Subtype.val ht)

theorem fits_iff {payload : Payload} : fits payload = true ↔
    FRAME_BYTES + Json.escapedLen (record payload) ≤ OUTPUT_MAX_BYTES := by
  rw [fits, decide_eq_true_iff, utf8Len_encodePayload]

/-- To cut nothing off only sets the flag. -/
theorem fits_cutContent_length {payload : Payload} {content : Text}
    (h : payload.get? "content" = some (.str content)) :
    fits (cutContent payload content content.length) =
      fits (payload.set "truncated" (.bool true)) := by
  have hget : (payload.set "truncated" (.bool true)).get? "content" = some (.str content) := by
    rw [Dict.get?_set, if_neg (by decide), h]
  have hsize := escapedLen_record_set hget (.str content)
  rw [Bool.eq_iff_iff, fits_iff, fits_iff, cutContent, List.take_length]
  omega

theorem get?_cutContent (payload : Payload) (content : Text) (n : ℕ) :
    (cutContent payload content n).get? "content" = some (.str (content.take n)) ∧
      (cutContent payload content n).get? "truncated" = some (.bool true) := by
  rw [cutContent, Dict.get?_set, if_pos rfl, Dict.get?_set, if_neg (by decide), Dict.get?_set,
    if_pos rfl]
  exact ⟨rfl, rfl⟩

theorem fits_searchContent {payload : Payload} {content : Text} {low : ℕ} (high : ℕ)
    (h : fits (cutContent payload content low) = true) :
    fits (cutContent payload content (searchContent payload content low high)) = true := by
  fun_induction searchContent payload content low high with
  | case1 low high hlt middle hfits ih => exact ih hfits
  | case2 low high hlt middle hfits ih => exact ih h
  | case3 low high hlt => exact h

/-- Where the whole response is too large, the search returns the longest prefix that fits with the
flag set. -/
theorem render_content {payload : Payload} {content : Text}
    (hcontent : (payload.get? "content").bind JsonValue.text? = some content)
    (hitems : (payload.get? "items").bind JsonValue.items? = none)
    (hminimal : fits (cutContent payload content 0) = true) (hlarge : fits payload = false) :
    ∃ n, n ≤ content.length ∧ fits (cutContent payload content n) = true ∧
      (∀ m, n < m → m ≤ content.length → fits (cutContent payload content m) = false) ∧
      render payload =
        .ok (encodePayload (cutContent payload content n), cutContent payload content n) := by
  obtain ⟨hle, hmost⟩ := searchContent_spec hcontent 0 content.length (Nat.zero_le _)
  have hfits := fits_searchContent content.length hminimal
  generalize hn : searchContent payload content 0 content.length = n at hle hmost hfits
  refine ⟨n, hle, hfits, hmost, ?_⟩
  rw [render, hlarge, if_neg Bool.false_ne_true, hitems, hcontent]
  dsimp only
  rw [hn, if_pos hfits]

/-- A response with a content is honest exactly where its flag fits. -/
theorem render_honest_iff {payload : Payload} {content : Text}
    (hcontent : (payload.get? "content").bind JsonValue.text? = some content)
    (hitems : (payload.get? "items").bind JsonValue.items? = none)
    (hminimal : fits (cutContent payload content 0) = true) :
    HonestContent payload content ↔ FlagFits payload := by
  have hget := content_eq_str hcontent
  cases hfits : fits payload with
  | true =>
    have hrender := render_of_fits hfits
    rw [FlagFits, if_pos hfits]
    constructor
    · rintro ⟨rendered, cut, n, hok, -, -, hle, hcut, -, hflag⟩ htrue
      cases hrender.symm.trans hok
      have hshort := hflag.mp htrue
      have htake := congrArg List.length (str_unique hget hcut)
      rw [List.length_take] at htake
      omega
    · intro hflag
      refine ⟨encodePayload payload, payload, content.length, hrender, rfl,
        of_decide_eq_true hfits, le_rfl, ?_, fun m hm hle => by omega, ?_⟩
      · rw [List.take_length, hget]
      · exact ⟨fun h => absurd h hflag, fun h => absurd h (Nat.lt_irrefl _)⟩
  | false =>
    obtain ⟨n, hle, hkept, hmost, hrender⟩ := render_content hcontent hitems hminimal hfits
    obtain ⟨hcut, htrue⟩ := get?_cutContent payload content n
    rw [FlagFits, if_neg (Bool.eq_false_iff.mp hfits), ← fits_cutContent_length hget]
    constructor
    · rintro ⟨rendered, cut, m, hok, -, -, hlem, hcut', -, hflag⟩
      cases hrender.symm.trans hok
      have hshort := hflag.mp htrue
      have htake := congrArg List.length (str_unique hcut hcut')
      rw [List.length_take, List.length_take] at htake
      exact hmost _ (by omega) le_rfl
    · intro hwhole
      have hshort : n < content.length := by
        refine lt_of_le_of_ne hle fun heq => ?_
        rw [← heq, hkept] at hwhole
        cases hwhole
      refine ⟨_, _, n, hrender, rfl, of_decide_eq_true hkept, hle, hcut, fun m hm hmle => ?_,
        ⟨fun _ => hshort, fun _ => htrue⟩⟩
      rw [prefixForm]
      split
      · exact hfits
      · exact hmost m hm hmle

theorem readPayload_keys (content : Text) :
    ((readPayload content).get? "content").bind JsonValue.text? = some content ∧
      ((readPayload content).get? "items").bind JsonValue.items? = none ∧
      (readPayload content).get? "truncated" = some (.bool false) :=
  ⟨rfl, rfl, rfl⟩

theorem render_honest_short : HonestContent (readPayload "Tea.") "Tea." := by
  have hminimal : fits (cutContent (readPayload "Tea.") "Tea." 0) = true := by decide +kernel
  have hfits : fits (readPayload "Tea.") = true := by decide +kernel
  obtain ⟨hcontent, hitems, hflag⟩ := readPayload_keys "Tea."
  refine (render_honest_iff hcontent hitems hminimal).mpr ?_
  rw [FlagFits, if_pos hfits, hflag, ne_eq, Option.some.injEq]
  exact fun heq => by cases congrArg Subtype.val heq

/-- Where the flag is off, it is `false` that takes the byte. -/
theorem flagFits_of_false {payload : Payload}
    (h : payload.get? "truncated" = some (.bool false)) :
    FlagFits payload ↔ utf8Len (encodePayload payload) ≠ OUTPUT_MAX_BYTES + 1 := by
  have hsize := escapedLen_record_set h (.bool true)
  have htrue : valueSize (.bool true) = 4 := by decide
  have hfalse : valueSize (.bool false) = 5 := by decide
  have hne : JsonValue.bool false ≠ .bool true := fun heq => by cases congrArg Subtype.val heq
  rw [FlagFits, utf8Len_encodePayload, h]
  split
  · next hfits =>
    rw [fits_iff] at hfits
    simp only [ne_eq, Option.some.injEq, hne, not_false_eq_true, true_iff]
    omega
  · next hlarge =>
    rw [fits_iff] at hlarge
    rw [Bool.eq_false_iff, ne_eq, fits_iff]
    omega

theorem valueSize_plain (n : ℕ) : valueSize (.str (List.replicate n 'a')) = n + 4 := by
  have hbody : Json.escapedLen ((List.replicate n 'a').flatMap Json.escapeRaw) = n := by
    induction n with
    | zero => rfl
    | succ n ih =>
      rw [List.replicate_succ, List.flatMap_cons, Json.escapedLen_append, ih]
      exact Nat.add_comm 1 n
  have hquote : Json.escapedLen ['"'] = 2 := by decide
  rw [valueSize, JsonValue.str, Json.dumpsPlain, Json.quoteRaw, ← List.singleton_append,
    Json.escapedLen_append, Json.escapedLen_append, hquote, hbody]
  omega

theorem utf8Len_readPayload (content : Text) :
    utf8Len (encodePayload (readPayload content)) = 537 + valueSize (.str content) := by
  have hempty : utf8Len (encodePayload (readPayload [])) = 541 := by decide +kernel
  have hnil : valueSize (.str []) = 4 := by decide
  have hget : (readPayload []).get? "content" = some (.str []) := rfl
  have hset : (readPayload []).set "content" (.str content) = readPayload content := rfl
  have hsize := escapedLen_record_set hget (.str content)
  rw [utf8Len_encodePayload] at hempty
  rw [hset] at hsize
  rw [utf8Len_encodePayload]
  omega

theorem minimal_readPayload (content : Text) :
    fits (cutContent (readPayload content) content 0) = true := by
  obtain ⟨-, -, hflag⟩ := readPayload_keys content
  have hset : ((readPayload content).set "truncated" (.bool true)).get? "content" =
      some (.str content) := rfl
  have h₁ := escapedLen_record_set hflag (.bool true)
  have h₂ := escapedLen_record_set hset (.str [])
  have htrue : valueSize (.bool true) = 4 := by decide
  have hnil : valueSize (.str []) = 4 := by decide
  have hsize := (utf8Len_encodePayload _).symm.trans (utf8Len_readPayload content)
  have hmax : OUTPUT_MAX_BYTES = 16384 := rfl
  rw [fits_iff, cutContent, List.take_zero]
  omega

/-- One byte too many: nothing is cut off, and the response says that something was. -/
theorem dishonest_readPayload {content : Text}
    (h : utf8Len (encodePayload (readPayload content)) = OUTPUT_MAX_BYTES + 1) :
    ¬ HonestContent (readPayload content) content := by
  obtain ⟨hget, hitems, hflag⟩ := readPayload_keys content
  rw [render_honest_iff hget hitems (minimal_readPayload content), flagFits_of_false hflag]
  exact not_not_intro h

theorem render_dishonest : ¬ ∀ (payload : Payload) (content : Text),
    (payload.get? "content").bind JsonValue.text? = some content →
    (payload.get? "items").bind JsonValue.items? = none →
    fits (cutContent payload content 0) = true → HonestContent payload content := by
  intro hall
  obtain ⟨content, hsize⟩ : ∃ content : Text,
      utf8Len (encodePayload (readPayload content)) = OUTPUT_MAX_BYTES + 1 := by
    refine ⟨List.replicate 15844 'a', ?_⟩
    rw [utf8Len_readPayload, valueSize_plain, OUTPUT_MAX_BYTES]
  obtain ⟨hget, hitems, -⟩ := readPayload_keys content
  exact dishonest_readPayload hsize (hall _ _ hget hitems (minimal_readPayload content))

end BetterHindsight.MentalModels
