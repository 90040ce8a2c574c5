import BetterHindsight.MentalModels.Inventory

/-! # Following the pages of an inventory

The `list` and `page_browse` actions, called with each response's `next_offset` until there is none.
One item always fits (`valueSize_item_le` and its like bound its size, escaped twice), so every
response shows at least one item of those that are left and the calls come to an end. -/

namespace BetterHindsight.MentalModels
set_option autoImplicit false

/-! ## Sizes -/

/-- The size of a value in a response, where it is escaped once more. -/
def valueSize (v : JsonValue) : ℕ := Json.escapedLen (Json.dumpsPlain Json.quoteRaw v.val)

/-- The size of a key, with its colon. -/
def keySize (k : Text) : ℕ := Json.escapedLen (Json.quoteRaw k) + 1

theorem fieldSize_eq (k : Text) (v : JsonValue) : fieldSize (k, v) = keySize k + valueSize v := rfl

theorem escapedLen_cons (c : Char) (t : Text) :
    Json.escapedLen (c :: t) = Json.escapedLen [c] + Json.escapedLen t :=
  Json.escapedLen_append [c] t

theorem escapedLen_hexDigit (n : ℕ) : Json.escapedLen [Json.hexDigit n] = 1 := by
  have h : ∀ m < 16, Json.escapedLen [Nat.digitChar m] = 1 := by decide
  exact h (n % 16) (Nat.mod_lt _ (by decide))

theorem escapedLen_escapeRaw_le (c : Char) : Json.escapedLen (Json.escapeRaw c) ≤ 7 := by
  have hself : Json.escapedLen [c] = utf8Len (Json.escapeRaw c) := by
    rw [Json.escapedLen, List.flatMap_singleton]
  have hsize := Char.utf8Size_le_four c
  unfold Json.escapeRaw at hself ⊢
  cases hshort : Json.shortEscape c with
  | some e =>
    dsimp only
    unfold Json.shortEscape at hshort
    split_ifs at hshort <;> rw [← Option.some.inj hshort] <;> decide
  | none =>
    rw [hshort] at hself
    dsimp only at hself ⊢
    split_ifs at hself ⊢ with hcontrol
    · have hback : Json.escapedLen ['\\'] = 2 ∧ Json.escapedLen ['u'] = 1 := by decide
      rw [Json.unicodeEscape, escapedLen_cons '\\', escapedLen_cons 'u',
        escapedLen_cons (Json.hexDigit (c.toNat / 4096)),
        escapedLen_cons (Json.hexDigit (c.toNat / 256)),
        escapedLen_cons (Json.hexDigit (c.toNat / 16)), hback.1, hback.2]
      simp only [escapedLen_hexDigit]
      decide
    · rw [hself, utf8Len_cons, utf8Len_nil]
      omega

/-- A string of `n` characters takes at most `7 * n + 4` bytes: a control character is escaped as
six characters, the first of which is escaped again. -/
theorem valueSize_str_le (t : Text) : valueSize (.str t) ≤ 7 * t.length + 4 := by
  have hquote : Json.escapedLen ['"'] = 2 := by decide
  have hbody : Json.escapedLen (t.flatMap Json.escapeRaw) ≤ 7 * t.length := by
    induction t with
    | nil => exact Nat.zero_le _
    | cons c t ih =>
      have hc := escapedLen_escapeRaw_le c
      rw [List.flatMap_cons, Json.escapedLen_append, List.length_cons]
      omega
  rw [valueSize, JsonValue.str, Json.dumpsPlain, Json.quoteRaw, ← List.singleton_append,
    Json.escapedLen_append, Json.escapedLen_append, hquote]
  omega

theorem escapedLen_digits {t : Text} (h : ∀ c ∈ t, c.isDigit = true) :
    Json.escapedLen t = t.length := by
  induction t with
  | nil => rfl
  | cons c t ih =>
    obtain ⟨hc, ht⟩ := List.forall_mem_cons.mp h
    rw [Char.isDigit_iff_toNat] at hc
    have hzero : '0'.toNat = 48 := rfl
    have hnine : '9'.toNat = 57 := rfl
    have hone : Json.escapedLen [c] = 1 := by
      have hnumber : ∀ m ≤ 9, Json.escapedLen [Char.ofNat (48 + m)] = 1 := by decide
      have hc' := hnumber (c.toNat - 48) (by omega)
      rwa [Nat.add_sub_cancel' (by omega), Char.ofNat_toNat] at hc'
    rw [escapedLen_cons, hone, ih ht, List.length_cons, Nat.add_comm]

theorem valueSize_nat_le {n : ℕ} (h : n < 10 ^ 6) : valueSize (.int n) ≤ 6 := by
  have hdigits : Json.escapedLen (Nat.toDigits 10 n) = (Nat.toDigits 10 n).length :=
    escapedLen_digits fun c hc => Nat.isDigit_of_mem_toDigits (by decide) (by decide) hc
  have hvalue : valueSize (.int n) = Json.escapedLen (Nat.toDigits 10 n) := rfl
  rw [hvalue, hdigits]
  exact (Nat.length_toDigits_le_iff (by decide) (by decide)).mpr h

theorem valueSize_object (payload : Payload) :
    valueSize (object payload) =
      (payload.entries.map fieldSize).sum + (payload.entries.length - 1) + 2 :=
  escapedLen_record payload

theorem valueSize_arr (items : List JsonValue) :
    valueSize (.arr items) = (items.map valueSize).sum + (items.length - 1) + 2 := by
  have hopen : ∀ t, Json.escapedLen ('[' :: t) = 1 + Json.escapedLen t :=
    fun t => Json.escapedLen_append ['['] t
  have hclose : Json.escapedLen [']'] = 1 := by decide
  have hmap : (items.map Subtype.val).map (Json.dumpsPlain Json.quoteRaw) =
      items.map fun v => Json.dumpsPlain Json.quoteRaw v.val := by
    rw [List.map_map]
    rfl
  rw [valueSize, JsonValue.arr, Json.dumpsPlain_arr, hopen, Json.escapedLen_append, hclose,
    escapedLen_joinComma, hmap, List.map_map, List.length_map]
  have hsum : (items.map (Json.escapedLen ∘ fun v =>
      Json.dumpsPlain Json.quoteRaw v.val)).sum = (items.map valueSize).sum := rfl
  rw [hsum]
  omega

theorem valueSize_optional_le {α : Type} {encode : α → JsonValue} {n : ℕ} (hn : 4 ≤ n)
    (h : ∀ a, valueSize (encode a) ≤ n) (value : Option α) :
    valueSize (optional encode value) ≤ n := by
  cases value with
  | none => exact hn
  | some a => exact h a

theorem valueSize_bool_le (b : Bool) : valueSize (.bool b) ≤ 5 := by
  cases b <;> decide

/-! ## One item -/

theorem valueSize_item_le (item : ModelItem) (h : item.content = none) :
    valueSize (object item.payload) ≤ 4000 := by
  obtain ⟨id, name, nameTruncated, lastRefreshedAt, lastMemorySeenAt, isStale, content⟩ := item
  cases h
  have hid := valueSize_str_le id
  have hname := valueSize_str_le name
  have htruncated := valueSize_bool_le nameTruncated
  have hstamp : ∀ t : BoundedText 64, valueSize (.str t) ≤ 452 := by
    intro t
    have ht := valueSize_str_le t.1
    have hlen := t.2
    omega
  have hrefreshed := valueSize_optional_le (by decide) hstamp lastRefreshedAt
  have hseen := valueSize_optional_le (by decide) hstamp lastMemorySeenAt
  have hstale := valueSize_optional_le (by decide) valueSize_bool_le isStale
  have hkeys : keySize "id" + keySize "name" + keySize "name_truncated" +
      keySize "last_refreshed_at" + keySize "last_memory_seen_at" + keySize "is_stale" ≤ 200 := by
    decide +kernel
  have hidlen := id.2
  have hnamelen := name.2
  rw [valueSize_object, ModelItem.payload]
  simp only [List.append_nil, List.map_cons, List.map_nil, List.sum_cons, List.sum_nil,
    fieldSize_eq, List.length_cons, List.length_nil]
  omega

theorem valueSize_node_le (node : TreeNode) : valueSize (object node.payload) ≤ 4000 := by
  have hpage : ∀ id : PageId, valueSize (.str id) ≤ 249 := by
    intro id
    have hid := valueSize_str_le id.1
    have hlen : id.1.length ≤ 35 := by
      have hpage := id.2
      simp only [isPageId, isHex, Bool.and_eq_true, beq_iff_eq] at hpage
      have hdrop := hpage.2.1
      rw [List.length_drop] at hdrop
      omega
    omega
  have hid := hpage node.pageId
  have hkind : valueSize (.str node.kind.value) ≤ 100 := by
    cases node.kind <;> decide +kernel
  have hname := valueSize_str_le node.name
  have hparent := valueSize_optional_le (by decide) hpage node.parentId
  have hbacking : ∀ t : BoundedText 128, valueSize (.str t) ≤ 900 := by
    intro t
    have ht := valueSize_str_le t.1
    have hlen := t.2
    omega
  have hmodel := valueSize_optional_le (by decide) hbacking node.mentalModelId
  have hstale := valueSize_optional_le (by decide) valueSize_bool_le node.isStale
  have hkeys : keySize "page_id" + keySize "kind" + keySize "name" + keySize "parent_id" +
      keySize "mental_model_id" + keySize "is_stale" ≤ 200 := by
    decide +kernel
  have hnamelen := node.name.2
  rw [valueSize_object, TreeNode.payload]
  simp only [List.map_cons, List.map_nil, List.sum_cons, List.sum_nil, fieldSize_eq,
    List.length_cons, List.length_nil]
  omega

/-! ## One response -/

/-- Setting a key that is there changes the size by that of its value. -/
theorem escapedLen_record_set {payload : Payload} {k : Text} {w : JsonValue}
    (h : payload.get? k = some w) (v : JsonValue) :
    Json.escapedLen (record (payload.set k v)) + valueSize w =
      Json.escapedLen (record payload) + valueSize v := by
  obtain ⟨before, after, hsplit⟩ := List.append_of_mem (Dict.mem_entries.mpr h)
  have hnodup := payload.nodup
  rw [hsplit, List.map_append, List.map_cons, List.nodup_append, List.nodup_cons] at hnodup
  obtain ⟨-, ⟨hafter, -⟩, hbefore⟩ := hnodup
  have hkeep : ∀ entries : List (Text × JsonValue), k ∉ entries.map Prod.fst →
      entries.map (fun e => (e.1, if e.1 = k then v else e.2)) = entries := by
    intro entries hk
    conv_rhs => rw [← List.map_id entries]
    apply List.map_congr_left
    intro e he
    have hne : e.1 ≠ k := fun heq => hk (heq ▸ List.mem_map_of_mem he)
    rw [if_neg hne]
    rfl
  have hbefore' : k ∉ before.map Prod.fst := fun hk =>
    hbefore k hk k List.mem_cons_self rfl
  have hentries : (payload.set k v).entries = before ++ (k, v) :: after := by
    rw [Dict.entries_set_of_some h, hsplit, List.map_append, List.map_cons, hkeep _ hbefore',
      hkeep _ hafter, if_pos rfl]
  rw [escapedLen_record, escapedLen_record, hentries, hsplit]
  simp only [List.map_append, List.map_cons, List.sum_append, List.sum_cons, List.length_append,
    List.length_cons, fieldSize_eq]
  omega

/-- A response that shows items from an offset on. -/
structure Paged (payload : Payload) (items : List JsonValue) (offset : ℕ) (next : JsonValue) :
    Prop where
  hasItems : payload.get? "items" = some (.arr items)
  hasOffset : payload.get? "offset" = some (.int offset)
  hasNext : payload.get? "next_offset" = some next
  notTruncated : payload.get? "truncated" = some (.bool false)
  inventory : (payload.get? "inventory").bind JsonValue.text? ≠ some "knowledge_pages_only".toList
  size : Json.escapedLen (record payload) ≤ valueSize (.arr items) + 1000
  small : ∀ item ∈ items, valueSize item ≤ 4000
  bounded : offset + items.length < 10 ^ 6

section Responses
variable {payload : Payload} {items : List JsonValue} {offset : ℕ} {next : JsonValue}

theorem Paged.cut (h : Paged payload items offset next) {n : ℕ} (hn : n ≤ items.length) :
    ∃ cut, cutItems payload items n = .ok cut ∧ cut.get? "items" = some (.arr (items.take n)) ∧
      cut.get? "next_offset" = some (.int (offset + n : ℕ)) ∧
      Json.escapedLen (record cut) ≤ valueSize (.arr (items.take n)) + 1010 := by
  have hkept : ((payload.set "truncated" (.bool true)).set "items" (.arr (items.take n))).get?
      "next_offset" = some next := by
    rw [Dict.get?_set, if_neg (by decide), Dict.get?_set, if_neg (by decide), h.hasNext]
  have hitems : (payload.set "truncated" (.bool true)).get? "items" = some (.arr items) := by
    rw [Dict.get?_set, if_neg (by decide), h.hasItems]
  have h₁ := escapedLen_record_set h.notTruncated (.bool true)
  have h₂ := escapedLen_record_set hitems (.arr (items.take n))
  have h₃ := escapedLen_record_set hkept (.int (offset + n : ℕ))
  have htrue : valueSize (.bool true) = 4 := by decide
  have hbounded := h.bounded
  have hint := valueSize_nat_le (show offset + n < 10 ^ 6 by omega)
  have hsize := h.size
  refine ⟨((payload.set "truncated" (.bool true)).set "items" (.arr (items.take n))).set
    "next_offset" (.int (offset + n : ℕ)), ?_, ?_, ?_, ?_⟩
  · rw [cutItems, if_neg h.inventory, h.hasOffset]
    rfl
  · rw [Dict.get?_set, if_neg (by decide), Dict.get?_set, if_pos rfl]
  · rw [Dict.get?_set, if_pos rfl]
  · omega

theorem valueSize_take_one {items : List JsonValue}
    (hsmall : ∀ item ∈ items, valueSize item ≤ 4000) : valueSize (.arr (items.take 1)) ≤ 4002 := by
  rw [valueSize_arr]
  cases items with
  | nil => decide
  | cons item rest =>
    have hitem := hsmall item List.mem_cons_self
    simp only [List.take_succ_cons, List.take_zero, List.map_singleton, List.sum_singleton,
      List.length_singleton]
    omega

theorem Paged.fits_of_le_one (h : Paged payload items offset next) (hlen : items.length ≤ 1) :
    fits payload = true := by
  have hframe : FRAME_BYTES ≤ 1000 := by decide +kernel
  have hsize := h.size
  have harr := valueSize_take_one h.small
  rw [List.take_of_length_le hlen] at harr
  simp only [fits, decide_eq_true_eq, utf8Len_encodePayload, OUTPUT_MAX_BYTES]
  omega

theorem popItems_one (hcut : ∀ n ≤ items.length, ∃ cut, cutItems payload items n = .ok cut)
    (hone : ∀ cut, cutItems payload items 1 = .ok cut → fits cut = true) {k : ℕ} (hk : 2 ≤ k)
    (hle : k ≤ items.length) :
    ∃ n cut, 0 < n ∧ n < k ∧ cutItems payload items n = .ok cut ∧
      popItems payload items k = .ok (encodePayload cut, cut) := by
  induction k, hk using Nat.le_induction with
  | base =>
    obtain ⟨cut, h⟩ := hcut 1 (by omega)
    refine ⟨1, cut, by decide, by decide, h, ?_⟩
    rw [popItems, h, Except.bind, if_neg (by decide), if_pos (hone cut h)]
  | succ k hk ih =>
    obtain ⟨cut, h⟩ := hcut k (by omega)
    rw [popItems, h, Except.bind, if_neg (by omega)]
    by_cases hfits : fits cut = true
    · exact ⟨k, cut, by omega, by omega, h, if_pos hfits⟩
    · obtain ⟨n, cut', hpos, hlt, hcut', hpop⟩ := ih (by omega)
      exact ⟨n, cut', hpos, by omega, hcut', by rw [if_neg hfits, hpop]⟩

/-- A response shows all of its items, or fewer and where to go on. -/
theorem Paged.render (h : Paged payload items offset next) :
    render payload = .ok (encodePayload payload, payload) ∨
      ∃ n cut, 0 < n ∧ n < items.length ∧ render payload = .ok (encodePayload cut, cut) ∧
        cut.get? "items" = some (.arr (items.take n)) ∧
        cut.get? "next_offset" = some (.int (offset + n : ℕ)) := by
  by_cases hfits : fits payload = true
  · exact .inl (by rw [MentalModels.render, if_pos hfits])
  · have hlen : 2 ≤ items.length := by
      by_contra hlen
      exact hfits (h.fits_of_le_one (by omega))
    have hcuts : ∀ n ≤ items.length, ∃ cut, cutItems payload items n = .ok cut := by
      intro n hn
      obtain ⟨cut, hcut, -⟩ := h.cut hn
      exact ⟨cut, hcut⟩
    have hone : ∀ cut, cutItems payload items 1 = .ok cut → fits cut = true := by
      intro cut hcut
      obtain ⟨cut', hcut', -, -, hsize⟩ := h.cut (n := 1) (by omega)
      rw [hcut] at hcut'
      cases hcut'
      have hframe : FRAME_BYTES ≤ 1000 := by decide +kernel
      have harr := valueSize_take_one h.small
      simp only [fits, decide_eq_true_eq, utf8Len_encodePayload, OUTPUT_MAX_BYTES]
      omega
    obtain ⟨n, cut, hpos, hlt, hcut, hpop⟩ := popItems_one hcuts hone hlen (Nat.le_refl _)
    obtain ⟨cut', hcut', hitems, hnext, -⟩ := h.cut (Nat.le_of_lt hlt)
    rw [hcut] at hcut'
    cases hcut'
    refine .inr ⟨n, cut, hpos, hlt, ?_, hitems, hnext⟩
    have hget : (payload.get? "items").bind JsonValue.items? = some items := by
      rw [h.hasItems, Option.bind_some, JsonValue.items?_arr]
    rw [MentalModels.render, if_neg hfits, hget]
    exact hpop

end Responses

/-! ## Following the offsets -/

/-- The items of all responses, from an offset on, in at most `calls` calls. -/
def follow (call : ℕ → Option Payload) : ℕ → ℕ → Option (List JsonValue)
  | 0, _ => none
  | calls + 1, offset =>
    (call offset).bind fun payload =>
      ((payload.get? "items").bind JsonValue.items?).bind fun items =>
        match payload.get? "next_offset" with
        | some ⟨.null, _⟩ => some items
        | some ⟨.int next, _⟩ => (follow call calls next.toNat).map (items ++ ·)
        | _ => none

/-- The response shows the next items of `all`, and where to go on if there are more. -/
def ShowsNext (all : List JsonValue) (offset : ℕ) (payload : Payload) : Prop :=
  ∃ n, payload.get? "items" = some (.arr ((all.drop offset).take n)) ∧
    (payload.get? "next_offset" = some .null ∧ all.length ≤ offset + n ∨
      payload.get? "next_offset" = some (.int (offset + n : ℕ)) ∧ 0 < n ∧ offset + n < all.length)

theorem follow_complete {call : ℕ → Option Payload} {all : List JsonValue}
    (h : ∀ offset, offset = 0 ∨ offset < all.length →
      ∃ payload, call offset = some payload ∧ ShowsNext all offset payload) :
    follow call (all.length + 1) 0 = some all := by
  have hfrom : ∀ calls offset, all.length < calls + offset → offset = 0 ∨ offset < all.length →
      follow call calls offset = some (all.drop offset) := by
    intro calls
    induction calls with
    | zero =>
      intro offset hcalls hoffset
      omega
    | succ calls ih =>
      intro offset hcalls hoffset
      obtain ⟨payload, hcall, n, hitems, ⟨hnext, hlen⟩ | ⟨hnext, hpos, hlt⟩⟩ := h offset hoffset
      · have hall : (all.drop offset).take n = all.drop offset := by
          apply List.take_of_length_le
          rw [List.length_drop]
          omega
        rw [follow, hcall, Option.bind_some, hitems, Option.bind_some, JsonValue.items?_arr,
          Option.bind_some, hnext, hall]
        rfl
      · have hrest := ih (offset + n) (by omega) (.inr hlt)
        have hsplit : (all.drop offset).take n ++ all.drop (offset + n) = all.drop offset := by
          rw [← List.drop_drop, List.take_append_drop]
        rw [follow, hcall, Option.bind_some, hitems, Option.bind_some, JsonValue.items?_arr,
          Option.bind_some, hnext]
        show (follow call calls (offset + n)).map _ = _
        rw [hrest, Option.map_some, hsplit]
  exact hfrom (all.length + 1) 0 (by omega) (.inl rfl)

/-- Rendered, a response with a beginning of the items that are left shows the next ones. -/
theorem Paged.showsNext {payload : Payload} {all : List JsonValue} {offset k : ℕ}
    {next : JsonValue} (h : Paged payload ((all.drop offset).take k) offset next)
    (hnext : next = .null ∧ all.length ≤ offset + k ∨
      next = .int (offset + k : ℕ) ∧ 0 < k ∧ offset + k < all.length) :
    ∃ rendered shown, MentalModels.render payload = .ok (rendered, shown) ∧
      ShowsNext all offset shown := by
  rcases h.render with hrender | ⟨n, cut, hpos, hlt, hrender, hitems, hcutnext⟩
  · refine ⟨_, _, hrender, k, h.hasItems, ?_⟩
    rw [h.hasNext]
    rcases hnext with ⟨rfl, hlen⟩ | ⟨rfl, hk⟩
    · exact .inl ⟨rfl, hlen⟩
    · exact .inr ⟨rfl, hk⟩
  · rw [List.length_take, List.length_drop] at hlt
    refine ⟨_, _, hrender, n, ?_, .inr ⟨hcutnext, hpos, by omega⟩⟩
    rw [hitems, List.take_take, Nat.min_eq_left (by omega)]

/-! ## The list of mental models -/

theorem project_content {lib : Stdlib} {bankId : Text} {model : Payload} {item : ModelItem}
    (h : project lib bankId model false = some item) : item.content = none := by
  simp only [project, Option.bind_eq_bind, Option.bind_eq_some_iff, Option.pure_def,
    Option.some.injEq, if_false, Bool.false_eq_true] at h
  obtain ⟨-, -, id, -, name, -, refreshed, -, seen, -, stale, -, body, hbody, rfl⟩ := h
  cases hbody
  rfl

/-- The server answers with the exact window of 20 models. -/
def ServesWindow (models : List Payload) (offset : ℕ) (value : JsonValue) : Prop :=
  ∃ answer, mapping value = some answer ∧
    answer.get? "total" = some (.int models.length) ∧ answer.get? "limit" = some (.int 20) ∧
      answer.get? "offset" = some (.int offset) ∧
        answer.get? "items" = some (.arr (((models.drop offset).take 20).map object))

theorem projectAll_objects {lib : Stdlib} {bankId : Text} {models : List Payload}
    {items : List ModelItem}
    (h : models.map (fun model => project lib bankId model false) = items.map some) :
    projectAll lib bankId (models.map object) = some items := by
  unfold projectAll
  induction models generalizing items with
  | nil =>
    cases items with
    | nil => rfl
    | cons => cases h
  | cons model models ih =>
    cases items with
    | nil => cases h
    | cons item items =>
      rw [List.map_cons, List.map_cons, List.cons.injEq] at h
      rw [List.map_cons, List.mapM_cons, mapping_object, Option.bind_some, h.1, ih h.2]
      rfl

theorem decodePage_window {lib : Stdlib} {bankId : Text} {models : List Payload}
    {items : List ModelItem} {offset : ℕ} {value : JsonValue}
    (hserver : ServesWindow models offset value)
    (hitems : models.map (fun model => project lib bankId model false) = items.map some)
    (hids : (items.map fun item => item.id.1).Nodup) :
    decodePage lib bankId value offset = some ((items.drop offset).take 20, models.length) := by
  obtain ⟨answer, hmapping, htotal, hlimit, hoffset, hlist⟩ := hserver
  have hwindow : ((models.drop offset).take 20).map (fun model => project lib bankId model false) =
      ((items.drop offset).take 20).map some := by
    rw [List.map_take, List.map_drop, hitems, List.map_take, List.map_drop]
  have hnatural : natural (some (.int models.length)) = some models.length := by
    simp [natural, JsonValue.int]
  have hequal : equalsInt (some (.int 20)) 20 = true ∧
      equalsInt (some (.int offset)) offset = true := by
    simp [equalsInt, JsonValue.int]
  have hlength : (((models.drop offset).take 20).map object).length =
      min 20 (models.length - offset) := by
    rw [List.length_map, List.length_take, List.length_drop]
  have hnodup : (((items.drop offset).take 20).map fun item => item.id.1).Nodup := by
    rw [List.map_take, List.map_drop]
    exact hids.sublist ((List.take_sublist _ _).trans (List.drop_sublist _ _))
  have hrange := projectAll_objects hwindow
  simp only [decodePage, hmapping, Option.bind_eq_bind, Option.bind_some, htotal, hlimit, hoffset,
    hlist, hnatural, hequal, JsonValue.items?_arr, hlength, hrange, hnodup, guard_true, and_self,
    Option.pure_def]

theorem paged_listPayload {items : List ModelItem} {total offset : ℕ} 
    (hcontent : ∀ item ∈ items, item.content = none) (htotal : total < 10 ^ 6)
    (hoffset : offset + items.length < 10 ^ 6) :
    Paged (listPayload items total offset) (items.map fun item => object item.payload) offset
      (if offset + items.length < total then .int (offset + items.length : ℕ) else .null) := by
  have htotal' := valueSize_nat_le htotal
  have hoffset' := valueSize_nat_le (show offset < 10 ^ 6 by omega)
  have hnext : valueSize (if offset + items.length < total then
      .int (offset + items.length : ℕ) else .null) ≤ 6 := by
    split
    · exact valueSize_nat_le hoffset
    · decide
  have hfixed : keySize "result" + keySize "items" + keySize "total" + keySize "offset" +
      keySize "limit" + keySize "truncated" + keySize "next_offset" + valueSize (.str "ok") +
        valueSize (.int 20) + valueSize (.bool false) ≤ 500 := by decide +kernel
  refine ⟨rfl, rfl, rfl, rfl, ?_, ?_, ?_, ?_⟩
  · exact nofun
  · rw [escapedLen_record, listPayload]
    simp only [List.map_cons, List.map_nil, List.sum_cons, List.sum_nil, fieldSize_eq,
      List.length_cons, List.length_nil]
    omega
  · intro v hv
    obtain ⟨item, hitem, rfl⟩ := List.mem_map.mp hv
    exact valueSize_item_le item (hcontent item hitem)
  · rw [List.length_map]
    exact hoffset

theorem listModels_showsNext {lib : Stdlib} {bankId : Text} {models : List Payload}
    {items : List ModelItem} {page : ℕ → JsonValue}
    (hitems : models.map (fun model => project lib bankId model false) = items.map some)
    (hids : (items.map fun item => item.id.1).Nodup) (hlen : models.length ≤ 100000) {offset : ℕ}
    (hserver : ServesWindow models offset (page offset))
    (hoffset : offset = 0 ∨ offset < models.length) :
    ∃ rendered shown, listModels lib bankId page offset = some (rendered, shown) ∧
      ShowsNext (items.map fun item => object item.payload) offset shown := by
  have hlength : items.length = models.length := by
    have h := congrArg List.length hitems
    rw [List.length_map, List.length_map] at h
    exact h.symm
  have hcontent : ∀ item ∈ (items.drop offset).take 20, item.content = none := by
    intro item hitem
    have hmem : some item ∈ items.map some :=
      List.mem_map_of_mem (List.mem_of_mem_drop (List.mem_of_mem_take hitem))
    rw [← hitems] at hmem
    obtain ⟨model, -, hmodel⟩ := List.mem_map.mp hmem
    exact project_content hmodel
  have hwindow : ((items.drop offset).take 20).length = min 20 (models.length - offset) := by
    rw [List.length_take, List.length_drop, hlength]
  have htotal : models.length < 10 ^ 6 := by omega
  have hpaged : Paged (listPayload ((items.drop offset).take 20) models.length offset) _ _ _ :=
    paged_listPayload hcontent htotal (by omega)
  rw [List.map_take, List.map_drop] at hpaged
  obtain ⟨rendered, shown, hrender, hshows⟩ := hpaged.showsNext (by
    rw [List.length_map, hlength, hwindow]
    by_cases hlast : models.length ≤ offset + 20
    · exact .inl ⟨if_neg (by omega), hlast⟩
    · have hfull : min 20 (models.length - offset) = 20 := by omega
      rw [hfull]
      exact .inr ⟨if_pos (by omega), by decide, by omega⟩)
  refine ⟨rendered, shown, ?_, hshows⟩
  rw [listModels, decodePage_window hserver hitems hids, Option.bind_some, hrender]
  rfl

/-! ## The knowledge tree -/

theorem decodeNodes_length {lib : Stdlib} {expectedPage : Option (Text × Text)} {left : ℕ}
    {stack : List Pending} {result nodes : List TreeNode}
    (h : decodeNodes lib expectedPage left stack result = some nodes) :
    nodes.length ≤ left + result.length := by
  induction left generalizing stack result with
  | zero =>
    cases stack with
    | nil =>
      cases h
      omega
    | cons => cases h
  | succ left ih =>
    match stack with
    | [] =>
      cases h
      omega
    | (raw, parent, depth) :: stack =>
      rw [decodeNodes] at h
      split at h
      · cases h
      · obtain ⟨⟨node, children⟩, -, h⟩ := Option.bind_eq_some_iff.mp h
        dsimp only at h
        split at h
        · cases h
        · have hrest := ih h
          rw [List.length_append, List.length_singleton] at hrest
          omega

theorem decodeTree_length {lib : Stdlib} {tree : JsonValue} {expectedPage : Option (Text × Text)}
    {nodes : List TreeNode} (h : decodeTree lib tree expectedPage = some nodes) :
    nodes.length ≤ TREE_MAX_NODES := by
  simp only [decodeTree, Option.bind_eq_bind, Option.bind_eq_some_iff] at h
  obtain ⟨-, -, roots, -, -, -, h⟩ := h
  exact decodeNodes_length h

theorem paged_browsePayload {nodes : List TreeNode} {offset : ℕ} (hlen : nodes.length ≤ 1000)
    (hoffset : offset ≤ 100000) :
    Paged (browsePayload nodes offset) ((nodes.drop offset).map fun node => object node.payload)
      offset .null := by
  have htotal' := valueSize_nat_le (show nodes.length < 10 ^ 6 by omega)
  have hoffset' := valueSize_nat_le (show offset < 10 ^ 6 by omega)
  have hnull : valueSize .null = 4 := by decide
  have hfixed : keySize "result" + keySize "inventory" + keySize "items" + keySize "total" +
      keySize "offset" + keySize "next_offset" + keySize "truncated" + keySize "verification" +
        valueSize (.str "ok") + valueSize (.str "knowledge_pages_and_folders") +
          valueSize (.bool false) +
            valueSize (.str ("Bounded tree; continue with next_offset while ".toList ++
              "inventory is unchanged. Standalone models are not pages.".toList)) ≤ 700 := by
    decide +kernel
  have hinventory : "knowledge_pages_and_folders".toList ≠ "knowledge_pages_only".toList := by
    decide +kernel
  refine ⟨rfl, rfl, rfl, rfl, ?_, ?_, ?_, ?_⟩
  · exact fun h => hinventory (Option.some.inj h)
  · rw [escapedLen_record, browsePayload]
    simp only [List.map_cons, List.map_nil, List.sum_cons, List.sum_nil, fieldSize_eq,
      List.length_cons, List.length_nil]
    omega
  · intro v hv
    obtain ⟨node, -, rfl⟩ := List.mem_map.mp hv
    exact valueSize_node_le node
  · rw [List.length_map, List.length_drop]
    omega

theorem browse_showsNext {lib : Stdlib} {tree : JsonValue} {nodes : List TreeNode}
    (htree : decodeTree lib tree none = some nodes) {offset : ℕ} (hoffset : offset ≤ 100000) :
    ∃ rendered shown, browse lib tree offset = some (rendered, shown) ∧
      ShowsNext (nodes.map fun node => object node.payload) offset shown := by
  have hlen : nodes.length ≤ 200 := decodeTree_length htree
  have hpaged := paged_browsePayload (by omega : nodes.length ≤ 1000) hoffset
  have hall : (nodes.drop offset).map (fun node => object node.payload) =
      ((nodes.map fun node => object node.payload).drop offset).take nodes.length := by
    rw [List.map_drop, List.take_of_length_le]
    rw [List.length_drop, List.length_map]
    omega
  rw [hall] at hpaged
  obtain ⟨rendered, shown, hrender, hshows⟩ := hpaged.showsNext (.inl ⟨rfl, by simp⟩)
  refine ⟨rendered, shown, ?_, hshows⟩
  rw [browse, htree, Option.bind_some, hrender]
  rfl

/-! ## Completeness -/

/-- A bank with one model and one page, and what is shown of them. -/
def lonelyModel : Payload where
  entries := [("bank_id".toList, .str "b"), ("id".toList, .str "m"), ("name".toList, .str "Tea")]
  nodup := (by decide : ["bank_id".toList, "id".toList, "name".toList].Nodup)

def lonelyItem : ModelItem :=
  ⟨⟨"m".toList, by decide⟩, ⟨"Tea".toList, by decide⟩, false, none, none, none, none⟩

def lonelyPage (offset : ℕ) : JsonValue := object
  { entries := [("total".toList, .int 1), ("limit".toList, .int 20), ("offset".toList, .int offset),
      ("items".toList, .arr ((([lonelyModel].drop offset).take 20).map object))]
    nodup := (by decide : ["total".toList, "limit".toList, "offset".toList, "items".toList].Nodup) }

def lonelyId : PageId := ⟨"kp-".toList ++ List.replicate 32 '0', by decide +kernel⟩

def lonelyNode : TreeNode :=
  ⟨lonelyId, .page, ⟨"Tea".toList, by decide⟩, none, some ⟨"m".toList, by decide⟩, none⟩

def lonelyTree : JsonValue := object
  { entries := [("roots".toList, .arr [object
      { entries := [("id".toList, .str lonelyId), ("kind".toList, .str "page"),
          ("children".toList, .arr []), ("mental_model_id".toList, .str "m"),
          ("name".toList, .str "Tea")]
        nodup := (by decide : ["id".toList, "kind".toList, "children".toList,
          "mental_model_id".toList, "name".toList].Nodup) }])]
    nodup := List.nodup_singleton _ }

end BetterHindsight.MentalModels
