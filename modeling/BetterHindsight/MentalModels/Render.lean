import BetterHindsight.Formatting.Envelope
import BetterHindsight.Foundations.Dict

/-! # Rendering a mental-model response

`render` of `mental_models.py`: a payload in its frame, cut until the whole response fits.

* `Payload`, `context`, `encodePayload`: the response of a payload, whatever its size.
* `render`: the response, and the payload as `render` leaves it.
* `Fitted`, `render_fitted`: which payload that is, said by sizes alone. -/

namespace BetterHindsight
set_option autoImplicit false

namespace JsonValue

def str (t : Text) : JsonValue := ⟨.str t, .str t⟩

def int (n : ℤ) : JsonValue := ⟨.int n, .int n⟩

def bool (b : Bool) : JsonValue := ⟨.bool b, .bool b⟩

def null : JsonValue := ⟨.null, .null⟩

def arr (items : List JsonValue) : JsonValue where
  val := .arr (items.map Subtype.val)
  property := .arr fun v hv => by
    obtain ⟨item, -, rfl⟩ := List.mem_map.mp hv
    exact item.property

/-- The items of a list. -/
def items? : JsonValue → Option (List JsonValue)
  | ⟨.arr items, h⟩ => some (items.attach.map fun v => ⟨v.1, match h with | .arr h => h v.1 v.2⟩)
  | _ => none

def text? : JsonValue → Option Text
  | ⟨.str t, _⟩ => some t
  | _ => none

theorem items?_eq_some {v : JsonValue} {items : List JsonValue} (h : v.items? = some items) :
    v = arr items := by
  obtain ⟨v, hv⟩ := v
  cases v <;> simp only [items?, reduceCtorEq, Option.some.injEq] at h
  subst h
  apply Subtype.ext
  simp [arr]

theorem arr_injective : Function.Injective arr := by
  intro items items' h
  have hval := congrArg Subtype.val h
  simp only [arr, Json.arr.injEq] at hval
  exact List.map_injective_iff.mpr Subtype.val_injective hval

theorem items?_arr (items : List JsonValue) : (arr items).items? = some items := by
  obtain ⟨items', h⟩ : ∃ items', (arr items).items? = some items' := ⟨_, rfl⟩
  rw [h, arr_injective (items?_eq_some h)]

end JsonValue

namespace MentalModels

def OUTPUT_MAX_BYTES : ℕ := 16384

inductive RenderError where
  | valueError
  | keyError
  | typeError
  deriving DecidableEq

/-! ## Payloads -/

/-- A response before it is encoded. -/
abbrev Payload := Dict Text JsonValue

def payloadJson (payload : Payload) : Json := .obj (payload.entries.map fun e => (e.1, e.2.val))

def record (payload : Payload) : Text := Json.dumpsPlain Json.quoteRaw (payloadJson payload)

def context (payload : Payload) : Text :=
  CONTEXT_PREAMBLE ++ '\n' :: (record payload ++ '\n' :: CONTEXT_SUFFIX)

/-- The response with a context. -/
def response (context : Text) : Json :=
  .obj [("trust", .str "untrusted_generated_evidence"), ("context", .str context)]

/-- `encode` inside `render` -/
def encodePayload (payload : Payload) : Text :=
  Json.dumpsPlain Json.quoteRaw (response (context payload))

def fits (payload : Payload) : Bool := utf8Len (encodePayload payload) ≤ OUTPUT_MAX_BYTES

/-! ## Cutting -/

/-- The payload with the first `n` of its items. -/
def cutItems (payload : Payload) (items : List JsonValue) (n : ℕ) : Except RenderError Payload :=
  let kept := (payload.set "truncated" (.bool true)).set "items" (.arr (items.take n))
  if (payload.get? "inventory").bind JsonValue.text? = some "knowledge_pages_only".toList then
    let closed := kept.set "next_offset" .null
    .ok (if (payload.get? "returned_hits").isSome then closed.set "returned_hits" (.int n)
      else closed)
  else
    match payload.get? "offset" with
    | some ⟨.int offset, _⟩ => .ok (kept.set "next_offset" (.int (offset + n)))
    | some _ => .error .typeError
    | none => .error .keyError

/-- The loop that pops the last of `n` items until the response fits. -/
def popItems (payload : Payload) (items : List JsonValue) :
    ℕ → Except RenderError (Text × Payload)
  | 0 => .error .valueError
  | n + 1 =>
    (cutItems payload items n).bind fun cut =>
      if n = 0 then .error .valueError
      else if fits cut then .ok (encodePayload cut, cut)
      else popItems payload items n

/-- The payload with the first `n` characters of its content. -/
def cutContent (payload : Payload) (content : Text) (n : ℕ) : Payload :=
  (payload.set "truncated" (.bool true)).set "content" (.str (content.take n))

/-- The binary search for the longest content that fits. -/
def searchContent (payload : Payload) (content : Text) (low high : ℕ) : ℕ :=
  if low < high then
    let middle := (low + high + 1) / 2
    if fits (cutContent payload content middle) then searchContent payload content middle high
    else searchContent payload content low (middle - 1)
  else low
termination_by high - low

/-- `render`, with the payload as it leaves it. -/
def render (payload : Payload) : Except RenderError (Text × Payload) :=
  if fits payload then .ok (encodePayload payload, payload)
  else
    match (payload.get? "items").bind JsonValue.items? with
    | some items => popItems payload items items.length
    | none =>
      match (payload.get? "content").bind JsonValue.text? with
      | some content =>
        let cut := cutContent payload content (searchContent payload content 0 content.length)
        if fits cut then .ok (encodePayload cut, cut) else .error .valueError
      | none => .error .valueError

theorem render_of_fits {payload : Payload} (h : fits payload = true) :
    render payload = .ok (encodePayload payload, payload) := by
  rw [render, if_pos h]

/-! ## What is kept -/

/-- The payload that `render` encodes: the whole one if it fits, else the one with the most items
or the longest content that does. -/
inductive Fitted (payload : Payload) : Payload → Prop
  | whole (h : fits payload = true) : Fitted payload payload
  | items {items : List JsonValue} {n : ℕ} {cut : Payload} (hlarge : fits payload = false)
      (hitems : (payload.get? "items").bind JsonValue.items? = some items)
      (hpos : 0 < n) (hn : n < items.length) (hcut : cutItems payload items n = .ok cut)
      (hfits : fits cut = true)
      (hmost : ∀ m, n < m → m < items.length → ∀ larger, cutItems payload items m = .ok larger →
        fits larger = false) : Fitted payload cut
  | content {content : Text} {n : ℕ} (hlarge : fits payload = false)
      (hitems : (payload.get? "items").bind JsonValue.items? = none)
      (hcontent : (payload.get? "content").bind JsonValue.text? = some content)
      (hn : n ≤ content.length) (hfits : fits (cutContent payload content n) = true)
      (hmost : ∀ m, n < m → m ≤ content.length →
        fits (cutContent payload content m) = false) :
      Fitted payload (cutContent payload content n)

theorem popItems_fitted {payload : Payload} {items : List JsonValue} {k : ℕ} {rendered : Text}
    {cut : Payload} (hlarge : fits payload = false)
    (hitems : (payload.get? "items").bind JsonValue.items? = some items) (hk : k ≤ items.length)
    (hmost : ∀ m, k ≤ m → m < items.length → ∀ larger, cutItems payload items m = .ok larger →
      fits larger = false) (h : popItems payload items k = .ok (rendered, cut)) :
    Fitted payload cut ∧ rendered = encodePayload cut := by
  induction k with
  | zero => cases h
  | succ n ih =>
    rw [popItems] at h
    cases hcut : cutItems payload items n with
    | error e =>
      rw [hcut] at h
      cases h
    | ok popped =>
      rw [hcut, Except.bind] at h
      split_ifs at h with hzero hfits
      · cases h
        refine ⟨.items hlarge hitems (Nat.pos_of_ne_zero hzero) hk hcut hfits ?_, rfl⟩
        intro m hm
        exact hmost m hm
      · refine ih (Nat.le_of_succ_le hk) ?_ h
        intro m hm hlt larger hlarger
        rcases Nat.eq_or_lt_of_le hm with rfl | hm
        · rw [hcut] at hlarger
          cases hlarger
          exact Bool.eq_false_iff.mpr hfits
        · exact hmost m hm hlt larger hlarger

/-! ## Sizes -/

/-- The size of the response around the encoded payload. -/
def FRAME_BYTES : ℕ :=
  utf8Len (Json.dumpsPlain Json.quoteRaw (response (CONTEXT_PREAMBLE ++ '\n' :: '\n' ::
    CONTEXT_SUFFIX)))

theorem utf8Len_response (ctx : Text) :
    utf8Len (Json.dumpsPlain Json.quoteRaw (response ctx)) =
      utf8Len (Json.dumpsPlain Json.quoteRaw (response [])) + Json.escapedLen ctx := by
  simp only [response, Json.dumpsPlain_obj, List.map_cons, List.map_nil, Json.joinComma,
    Json.dumpsPlain, utf8Len_cons, utf8Len_append, Json.utf8Len_quoteRaw, Json.escapedLen_nil]
  omega

theorem utf8Len_encodePayload (payload : Payload) :
    utf8Len (encodePayload payload) = FRAME_BYTES + Json.escapedLen (record payload) := by
  have happend : ∀ (c : Char) (t : Text),
      Json.escapedLen (c :: t) = Json.escapedLen [c] + Json.escapedLen t :=
    fun c t => Json.escapedLen_append [c] t
  rw [encodePayload, FRAME_BYTES, utf8Len_response, utf8Len_response (_ ++ _), context]
  simp only [Json.escapedLen_append]
  rw [happend '\n' (record payload ++ _), happend '\n' ('\n' :: _), Json.escapedLen_append]
  omega

/-- The size of a field in the response, where it is escaped once more. -/
def fieldSize (field : Text × JsonValue) : ℕ :=
  Json.escapedLen (Json.quoteRaw field.1) + 1 +
    Json.escapedLen (Json.dumpsPlain Json.quoteRaw field.2.val)

theorem escapedLen_joinComma (ts : List Text) :
    Json.escapedLen (Json.joinComma ts) = (ts.map Json.escapedLen).sum + (ts.length - 1) := by
  have hcomma : ∀ t, Json.escapedLen (',' :: t) = 1 + Json.escapedLen t :=
    fun t => Json.escapedLen_append [','] t
  match ts with
  | [] => rfl
  | [t] => simp [Json.joinComma]
  | t :: u :: ts =>
    have ih := escapedLen_joinComma (u :: ts)
    simp only [Json.joinComma, Json.escapedLen_append, hcomma, ih, List.map_cons, List.sum_cons,
      List.length_cons]
    omega

theorem escapedLen_record (payload : Payload) :
    Json.escapedLen (record payload) =
      (payload.entries.map fieldSize).sum + (payload.entries.length - 1) + 2 := by
  have hopen : ∀ t, Json.escapedLen ('{' :: t) = 1 + Json.escapedLen t :=
    fun t => Json.escapedLen_append ['{'] t
  have hcolon : ∀ t, Json.escapedLen (':' :: t) = 1 + Json.escapedLen t :=
    fun t => Json.escapedLen_append [':'] t
  have hclose : Json.escapedLen ['}'] = 1 := by decide
  have hfields : (payload.entries.map fun e => Json.escapedLen (Json.quoteRaw e.1 ++
      ':' :: Json.dumpsPlain Json.quoteRaw e.2.val)) = payload.entries.map fieldSize := by
    apply List.map_congr_left
    intro e _
    rw [Json.escapedLen_append, hcolon, fieldSize, Nat.add_assoc]
  rw [record, payloadJson, Json.dumpsPlain_obj, hopen, Json.escapedLen_append, hclose,
    escapedLen_joinComma, List.map_map, List.map_map, List.length_map, List.length_map, ← hfields]
  simp only [Function.comp_def]
  omega

/-- One field more or less large, in its place. -/
theorem fits_set_mono {payload : Payload} {k : Text} {v w larger : JsonValue}
    (h : payload.get? k = some v) (hle : fieldSize (k, w) ≤ fieldSize (k, larger))
    (hfits : fits (payload.set k larger) = true) : fits (payload.set k w) = true := by
  have hsum : ((payload.set k w).entries.map fieldSize).sum ≤
      ((payload.set k larger).entries.map fieldSize).sum := by
    rw [Dict.entries_set_of_some h, Dict.entries_set_of_some h, List.map_map, List.map_map]
    apply List.sum_le_sum
    rintro ⟨key, value⟩ -
    simp only [Function.comp]
    by_cases hkey : key = k
    · rw [if_pos hkey, if_pos hkey, hkey]
      exact hle
    · rw [if_neg hkey, if_neg hkey]
  have hlen : (payload.set k w).entries.length = (payload.set k larger).entries.length := by
    rw [Dict.entries_set_of_some h, Dict.entries_set_of_some h, List.length_map, List.length_map]
  simp only [fits, decide_eq_true_eq, utf8Len_encodePayload, escapedLen_record, hlen] at hfits ⊢
  omega

theorem fieldSize_take_le (k content : Text) {m n : ℕ} (h : m ≤ n) :
    fieldSize (k, .str (content.take m)) ≤ fieldSize (k, .str (content.take n)) := by
  have hquote : ∀ t, Json.escapedLen (Json.quoteRaw t) =
      Json.escapedLen ['"'] + Json.escapedLen (t.flatMap Json.escapeRaw) +
        Json.escapedLen ['"'] := by
    intro t
    rw [Json.quoteRaw, ← List.singleton_append, Json.escapedLen_append, Json.escapedLen_append,
      Nat.add_assoc]
  have hsplit : content.take n = content.take m ++ (content.take n).drop m := by
    have hdrop := List.take_append_drop m (content.take n)
    rw [List.take_take, Nat.min_eq_left h] at hdrop
    exact hdrop.symm
  simp only [fieldSize, JsonValue.str, Json.dumpsPlain, hquote]
  rw [hsplit, List.flatMap_append, Json.escapedLen_append]
  omega

theorem fits_cutContent_mono {payload : Payload} {content : Text}
    (h : (payload.get? "content").bind JsonValue.text? = some content) {m n : ℕ} (hmn : m ≤ n)
    (hfits : fits (cutContent payload content n) = true) :
    fits (cutContent payload content m) = true := by
  obtain ⟨v, hv, -⟩ := Option.bind_eq_some_iff.mp h
  have hv' : (payload.set "truncated" (.bool true)).get? "content" = some v := by
    rw [Dict.get?_set, if_neg (by decide), hv]
  exact fits_set_mono hv' (fieldSize_take_le _ content hmn) hfits

/-- The binary search ends at the longest content that fits, if any does. -/
theorem searchContent_spec {payload : Payload} {content : Text}
    (h : (payload.get? "content").bind JsonValue.text? = some content) (low high : ℕ)
    (hle : low ≤ high) :
    searchContent payload content low high ≤ high ∧
      ∀ m, searchContent payload content low high < m → m ≤ high →
        fits (cutContent payload content m) = false := by
  fun_induction searchContent payload content low high with
  | case1 low high hlt middle hfits ih =>
    exact ih (by omega)
  | case2 low high hlt middle hfits ih =>
    obtain ⟨hbound, hmost⟩ := ih (by omega)
    refine ⟨by omega, fun m hm hmhigh => ?_⟩
    by_cases hmid : m ≤ middle - 1
    · exact hmost m hm hmid
    · exact Bool.eq_false_iff.mpr fun hm =>
        hfits (fits_cutContent_mono h (by omega) hm)
  | case3 low high hlt =>
    exact ⟨hle, fun m hm hmhigh => absurd hmhigh (by omega)⟩

/-- What `render` returns. -/
theorem render_fitted {payload cut : Payload} {rendered : Text}
    (h : render payload = .ok (rendered, cut)) :
    Fitted payload cut ∧ rendered = encodePayload cut := by
  unfold render at h
  split at h
  · rename_i hfits
    cases h
    exact ⟨.whole hfits, rfl⟩
  · rename_i hlarge
    have hlarge := Bool.eq_false_iff.mpr hlarge
    split at h
    · rename_i items hitems
      exact popItems_fitted hlarge hitems (Nat.le_refl _)
        (fun m hm hlt => absurd hlt (Nat.not_lt.mpr hm)) h
    · rename_i hitems
      split at h
      · rename_i content hcontent
        dsimp only at h
        split at h
        · rename_i hfits
          cases h
          obtain ⟨hbound, hmost⟩ := searchContent_spec hcontent 0 content.length (Nat.zero_le _)
          exact ⟨.content hlarge hitems hcontent hbound hfits hmost, rfl⟩
        · cases h
      · cases h

theorem Fitted.unique {payload cut cut' : Payload} (h : Fitted payload cut)
    (h' : Fitted payload cut') : cut = cut' := by
  cases h with
  | whole hfits =>
    cases h' with
    | whole _ => rfl
    | items hlarge => rw [hlarge] at hfits; cases hfits
    | content hlarge => rw [hlarge] at hfits; cases hfits
  | @items items n _ hlarge hitems _ hn hcut hfits hmost =>
    cases h' with
    | whole hfits' => rw [hlarge] at hfits'; cases hfits'
    | @items items' n' _ _ hitems' _ hn' hcut' hfits' hmost' =>
      obtain rfl : items = items' := Option.some.inj (hitems.symm.trans hitems')
      rcases Nat.lt_trichotomy n n' with hlt | rfl | hlt
      · rw [hmost n' hlt hn' _ hcut'] at hfits'
        cases hfits'
      · exact Except.ok.inj (hcut.symm.trans hcut')
      · rw [hmost' n hlt hn _ hcut] at hfits
        cases hfits
    | content _ hitems' => rw [hitems] at hitems'; cases hitems'
  | @content content n hlarge hitems hcontent hn hfits hmost =>
    cases h' with
    | whole hfits' => rw [hlarge] at hfits'; cases hfits'
    | items _ hitems' => rw [hitems] at hitems'; cases hitems'
    | @content content' n' _ _ hcontent' hn' hfits' hmost' =>
      obtain rfl : content = content' := Option.some.inj (hcontent.symm.trans hcontent')
      rcases Nat.lt_trichotomy n n' with hlt | rfl | hlt
      · rw [hmost n' hlt hn'] at hfits'
        cases hfits'
      · rfl
      · rw [hmost' n hlt hn] at hfits
        cases hfits

theorem payloadJson_distinct (payload : Payload) : (payloadJson payload).Distinct := by
  refine .obj ?_ fun f hf => ?_
  · rw [List.map_map]
    exact payload.nodup
  · obtain ⟨e, -, rfl⟩ := List.mem_map.mp hf
    exact e.2.property

theorem loads_record (payload : Payload) :
    Json.loads (record payload) = some (payloadJson payload) :=
  Json.loads_dumpsPlain Json.quotes_raw (payloadJson_distinct payload)

/-- The response is read as its context in the outer object. -/
theorem loads_encodePayload (payload : Payload) :
    Json.loads (encodePayload payload) = some (response (context payload)) := by
  have hkeys : ["trust".toList, "context".toList].Nodup := by decide
  refine Json.loads_dumpsPlain Json.quotes_raw (.obj hkeys ?_)
  simp only [List.forall_mem_cons]
  exact ⟨.str _, .str _, nofun⟩

end MentalModels

end BetterHindsight
