import BetterHindsight.Foundations.JsonDecode

/-! # The shortest encoding

No text that `json.loads` reads as a value is shorter than what `json.dumps` writes for it with
`ensure_ascii=False` and no spaces (`length_dumpsPlain_le`). So no proper prefix of an encoded
document is read as that document. -/

namespace BetterHindsight.Json
set_option autoImplicit false

/-! ## Strings -/

/-- The least number of characters for a code unit in a string. -/
def unitCost (u : ℕ) : ℕ :=
  if u ∈ [0x22, 0x5C, 0x08, 0x0C, 0x0A, 0x0D, 0x09] then 2 else if u < 0x20 then 6 else 1

theorem unitCost_pos (u : ℕ) : 1 ≤ unitCost u := by
  unfold unitCost
  split_ifs <;> omega

theorem unitCost_le (u : ℕ) : unitCost u ≤ 6 := by
  unfold unitCost
  split_ifs <;> omega

theorem length_escapeRaw (c : Char) : (escapeRaw c).length = unitCost c.toNat := by
  have hquote : c = '"' ↔ c.toNat = 0x22 := ⟨fun h => by rw [h]; rfl, fun h => Char.toNat_inj.mp h⟩
  have hback : c = '\\' ↔ c.toNat = 0x5C := ⟨fun h => by rw [h]; rfl, fun h => Char.toNat_inj.mp h⟩
  unfold escapeRaw shortEscape unitCost
  simp only [hquote, hback, List.mem_cons, List.not_mem_nil, or_false]
  split_ifs <;> simp_all [unicodeEscape]

theorem unitCost_unescape {e : Char} {u : ℕ} (h : unescape e = some u) : unitCost u ≤ 2 := by
  unfold unescape at h
  split_ifs at h with h₁ h₂ h₃ h₄ h₅ h₆
  · rcases h₁ with rfl | rfl | rfl <;> (rw [← Option.some.inj h]; decide)
  all_goals
    rw [← Option.some.inj h]
    decide

theorem unitCost_plain {c : Char} (hquote : c ≠ '"') (hback : c ≠ '\\')
    (hprintable : 0x20 ≤ c.toNat) : unitCost c.toNat = 1 := by
  have h₁ : c.toNat ≠ 0x22 := fun h => hquote (Char.toNat_inj.mp h)
  have h₂ : c.toNat ≠ 0x5C := fun h => hback (Char.toNat_inj.mp h)
  unfold unitCost
  rw [if_neg, if_neg (by omega)]
  simp only [List.mem_cons, List.not_mem_nil, or_false]
  omega

/-- What the units of a string cost was read. -/
theorem scanUnits_cost {fuel : ℕ} {t rest : Text} {us : List ℕ}
    (h : scanUnits fuel t = some (us, rest)) :
    (us.map unitCost).sum + 1 + rest.length ≤ t.length := by
  induction fuel generalizing t us with
  | zero => cases h
  | succ fuel ih =>
    cases t with
    | nil => cases h
    | cons c t =>
      rw [scanUnits] at h
      by_cases hquote : c = '"'
      · rw [if_pos hquote] at h
        cases h
        simp [Nat.add_comm]
      rw [if_neg hquote] at h
      by_cases hback : c = '\\'
      · rw [if_pos hback] at h
        by_cases hunicode : t.head? = some 'u'
        · rw [if_pos hunicode] at h
          split at h
          · rename_i u us' rest' _ hrest
            by_cases hlen : t.length < 5
            · rw [if_pos hlen] at h
              cases h
            · rw [if_neg hlen] at h
              cases h
              have htail := ih hrest
              have hcost := unitCost_le u
              rw [List.length_drop] at htail
              simp only [List.map_cons, List.sum_cons, List.length_cons]
              omega
          · cases h
        · rw [if_neg hunicode] at h
          split at h
          · rename_i u us' rest' hu hrest
            cases h
            have htail := ih hrest
            obtain ⟨e, he, hu⟩ := Option.bind_eq_some_iff.mp hu
            have hcost := unitCost_unescape hu
            have hlen : 0 < t.length := by
              cases t with
              | nil => cases he
              | cons => simp
            rw [List.length_tail] at htail
            simp only [List.map_cons, List.sum_cons, List.length_cons]
            omega
          · cases h
      rw [if_neg hback] at h
      by_cases hcontrol : c.toNat < 0x20
      · rw [if_pos hcontrol] at h
        cases h
      rw [if_neg hcontrol] at h
      split at h
      · rename_i us' rest' hrest
        cases h
        have htail := ih hrest
        have hcost := unitCost_plain hquote hback (Nat.le_of_not_lt hcontrol)
        simp only [List.map_cons, List.sum_cons, List.length_cons]
        omega
      · cases h

theorem unitChar_eq_some {u : ℕ} {c : Char} (h : unitChar u = some c) : c.toNat = u := by
  unfold unitChar at h
  split_ifs at h with hv
  rw [← Option.some.inj h]
  rw [Char.toNat_ofNat, if_pos hv]

theorem joinUnits_cost {high : Option ℕ} {us : List ℕ} {s : Text}
    (h : joinUnits high us = some s) :
    (s.flatMap escapeRaw).length ≤ (us.map unitCost).sum := by
  induction us generalizing high s with
  | nil =>
    rw [joinUnits] at h
    split_ifs at h
    cases h
    exact Nat.le_refl _
  | cons u us ih =>
    rw [List.map_cons, List.sum_cons]
    cases high with
    | none =>
      rw [joinUnits] at h
      split_ifs at h with hhigh
      · exact (ih h).trans (Nat.le_add_left _ _)
      · obtain ⟨c, hc, h⟩ := Option.bind_eq_some_iff.mp h
        obtain ⟨s', hs, rfl⟩ := Option.map_eq_some_iff.mp h
        have hrest := ih hs
        rw [List.flatMap_cons, List.length_append, length_escapeRaw, unitChar_eq_some hc]
        omega
    | some first =>
      rw [joinUnits] at h
      split_ifs at h with hlow
      obtain ⟨c, hc, h⟩ := Option.bind_eq_some_iff.mp h
      obtain ⟨s', hs, rfl⟩ := Option.map_eq_some_iff.mp h
      have hrest := ih hs
      have hlarge := unitChar_eq_some hc
      have hone : unitCost c.toNat = 1 := by
        have hlarge : 0x10000 ≤ c.toNat := by omega
        unfold unitCost
        rw [if_neg, if_neg (by omega)]
        simp only [List.mem_cons, List.not_mem_nil, or_false]
        omega
      have hpos := unitCost_pos u
      rw [List.flatMap_cons, List.length_append, length_escapeRaw, hone]
      omega

theorem scanString_length {t s rest : Text} (h : scanString t = some (s, rest)) :
    (quoteRaw s).length + rest.length ≤ t.length + 1 := by
  unfold scanString at h
  split at h
  · rename_i us rest' hunits
    split at h
    · rename_i s' hjoin
      cases h
      have hcost := scanUnits_cost hunits
      have hs := joinUnits_cost hjoin
      simp only [quoteRaw, List.length_cons, List.length_append, List.length_nil]
      omega
    · cases h
  · cases h

/-! ## Numbers -/

theorem ofDigitChars_lt {ds : Text} (h : ∀ c ∈ ds, c.isDigit = true) (n : ℕ) :
    Nat.ofDigitChars 10 ds n < (n + 1) * 10 ^ ds.length := by
  induction ds generalizing n with
  | nil => simp [Nat.ofDigitChars]
  | cons c ds ih =>
    obtain ⟨hc, hds⟩ := List.forall_mem_cons.mp h
    have hrest := ih hds (10 * n + (c.toNat - '0'.toNat))
    rw [Char.isDigit_iff_toNat] at hc
    have hzero : '0'.toNat = 48 := rfl
    have hnine : '9'.toNat = 57 := rfl
    have hdigit : 10 * n + (c.toNat - '0'.toNat) + 1 ≤ (n + 1) * 10 := by omega
    rw [Nat.ofDigitChars_cons, List.length_cons, Nat.pow_succ']
    calc
      _ < (10 * n + (c.toNat - '0'.toNat) + 1) * 10 ^ ds.length := hrest
      _ ≤ (n + 1) * 10 * 10 ^ ds.length := Nat.mul_le_mul_right _ hdigit
      _ = (n + 1) * (10 * 10 ^ ds.length) := by ring

theorem scanNatural_length {t rest : Text} {n : ℕ} (h : scanNatural t = some (n, rest)) :
    (Nat.toDigits 10 n).length + rest.length ≤ t.length := by
  unfold scanNatural at h
  extract_lets digits digits' after at h
  split_ifs at h with hnot
  obtain ⟨rfl, rfl⟩ := Prod.mk.inj (Option.some.inj h)
  rw [not_or] at hnot
  have hdigits : ∀ c ∈ digits', c.isDigit = true := by
    intro c hc
    simp only [digits'] at hc
    split at hc
    · rw [List.mem_singleton.mp hc]
      decide
    · exact List.mem_takeWhile_imp hc
  have hpos : 0 < digits'.length := List.length_pos_iff.mpr hnot.1
  have hle : digits'.length ≤ t.length := by
    simp only [digits']
    split
    · rename_i hzero
      cases t with
      | nil => cases hzero
      | cons => simp
    · exact (List.takeWhile_sublist _).length_le
  have hlt := ofDigitChars_lt hdigits 0
  rw [Nat.zero_add, Nat.one_mul] at hlt
  have hlen := (Nat.length_toDigits_le_iff (by decide) hpos).mpr hlt
  simp only [after, List.length_drop]
  omega

theorem scanInt_length {t rest : Text} {n : ℤ} (h : scanInt t = some (n, rest)) :
    (encodeInt n).length + rest.length ≤ t.length := by
  unfold scanInt at h
  split_ifs at h with hminus
  · obtain ⟨⟨k, rest'⟩, hk, heq⟩ := Option.map_eq_some_iff.mp h
    cases heq
    have htail := scanNatural_length hk
    have hpos : 0 < t.length := by
      cases t with
      | nil => cases hminus
      | cons => simp
    rw [List.length_tail] at htail
    cases k with
    | zero =>
      have henc : encodeInt (-((0 : ℕ) : ℤ)) = Nat.toDigits 10 0 := rfl
      dsimp only
      rw [henc]
      omega
    | succ k =>
      have henc : encodeInt (-((k + 1 : ℕ) : ℤ)) = '-' :: Nat.toDigits 10 (k + 1) := rfl
      dsimp only
      rw [henc, List.length_cons]
      omega
  · obtain ⟨⟨k, rest'⟩, hk, heq⟩ := Option.map_eq_some_iff.mp h
    cases heq
    exact scanNatural_length hk

theorem length_exponent_le (t : Text) : (JsonNumber.exponent t).length ≤ t.length := by
  unfold JsonNumber.exponent
  extract_lets sign digits
  have htake : digits.length ≤ (t.tail.drop sign.length).length :=
    (List.takeWhile_prefix _).length_le
  have hsign : sign.length ≤ t.tail.length := by
    simp only [sign]
    split
    · rw [List.length_take]
      exact Nat.min_le_right _ _
    · exact Nat.zero_le _
  rw [List.length_drop] at htake
  rw [List.length_tail] at htake hsign
  split
  · rename_i h
    have hpos : 0 < digits.length := List.length_pos_iff.mpr h.2
    simp only [List.length_append, List.length_take]
    omega
  · exact Nat.zero_le _

theorem length_float?_le {t x : Text} (h : JsonNumber.float? t = some x) :
    x.length ≤ t.length := by
  unfold JsonNumber.float? at h
  extract_lets w f e at h
  split_ifs at h
  have hwhole : w.length ≤ t.length := length_whole_le t
  have hfraction : f.length ≤ (t.drop w.length).length := length_fraction_le _
  have hexponent : e.length ≤ (t.drop (w.length + f.length)).length := length_exponent_le _
  rw [List.length_drop] at hfraction hexponent
  rw [← Option.some.inj h, List.length_append, List.length_append]
  omega

theorem scanFloat_length {t rest : Text} {x : FloatText} (h : scanFloat t = some (x, rest)) :
    x.text.length + rest.length ≤ t.length := by
  unfold scanFloat at h
  split at h
  · rename_i y hy
    split_ifs at h with hfloat
    cases h
    have hle := length_float?_le hy
    dsimp only
    rw [List.length_drop]
    omega
  · cases h

/-! ## Values -/

/-- The characters of an item, with the comma or bracket after it. -/
def itemCost (v : Json) : ℕ := (dumpsPlain quoteRaw v).length + 1

/-- The characters of a field, with the comma or brace after it. -/
def fieldCost (f : Text × Json) : ℕ :=
  (quoteRaw f.1).length + 1 + (dumpsPlain quoteRaw f.2).length + 1

theorem length_joinComma {α : Type} (text : α → Text) {parts : List α} (hne : parts ≠ []) :
    (joinComma (parts.map text)).length + 1 = (parts.map fun p => (text p).length + 1).sum := by
  induction parts with
  | nil => exact absurd rfl hne
  | cons p parts ih =>
    cases parts with
    | nil => simp [joinComma]
    | cons q parts =>
      have hrest := ih (List.cons_ne_nil q parts)
      have hjoin : joinComma ((p :: q :: parts).map text) =
          text p ++ ',' :: joinComma ((q :: parts).map text) := rfl
      have hsum : ((p :: q :: parts).map fun p => (text p).length + 1).sum =
          (text p).length + 1 + ((q :: parts).map fun p => (text p).length + 1).sum := rfl
      rw [hjoin, hsum, ← hrest, List.length_append, List.length_cons]
      omega

theorem length_arr {vs : List Json} (hne : vs ≠ []) :
    (dumpsPlain quoteRaw (.arr vs)).length = (vs.map itemCost).sum + 1 := by
  have hjoin : (joinComma (vs.map (dumpsPlain quoteRaw))).length + 1 = (vs.map itemCost).sum :=
    length_joinComma (dumpsPlain quoteRaw) hne
  rw [dumpsPlain_arr, List.length_cons, List.length_append, List.length_singleton, hjoin]

theorem length_obj {fs : List (Text × Json)} (hne : fs ≠ []) :
    (dumpsPlain quoteRaw (.obj fs)).length = (fs.map fieldCost).sum + 1 := by
  have hjoin := length_joinComma (fun f : Text × Json =>
    quoteRaw f.1 ++ ':' :: dumpsPlain quoteRaw f.2) hne
  have hcost : (fs.map fun f => (quoteRaw f.1 ++ ':' :: dumpsPlain quoteRaw f.2).length + 1) =
      fs.map fieldCost := by
    apply List.map_congr_left
    intro f _
    rw [fieldCost, List.length_append, List.length_cons]
    omega
  rw [hcost] at hjoin
  rw [dumpsPlain_obj, List.length_cons, List.length_append, List.length_singleton, hjoin]

/-- Replacing the value of a key that is there once adds at most the new field. -/
theorem cost_replace {acc : List (Text × Json)} (hnodup : (acc.map Prod.fst).Nodup)
    (f : Text × Json) :
    ((acc.map fun g => if g.1 == f.1 then f else g).map fieldCost).sum ≤
      (acc.map fieldCost).sum + fieldCost f := by
  induction acc with
  | nil => simp
  | cons g acc ih =>
    rw [List.map_cons, List.nodup_cons] at hnodup
    simp only [List.map_cons, List.sum_cons]
    by_cases hkey : g.1 = f.1
    · have hsame : (acc.map fun g => if g.1 == f.1 then f else g) = acc := by
        conv_rhs => rw [← List.map_id acc]
        apply List.map_congr_left
        intro g' hg'
        have hne : g'.1 ≠ f.1 := fun heq =>
          hnodup.1 (List.mem_map.mpr ⟨g', hg', heq.trans hkey.symm⟩)
        simp [hne]
      rw [hsame, if_pos (by simpa using hkey)]
      omega
    · have hrest := ih hnodup.2
      rw [if_neg (by simpa using hkey)]
      omega

theorem map_fst_replace (acc : List (Text × Json)) (f : Text × Json) :
    (acc.map fun g => if g.1 == f.1 then f else g).map Prod.fst = acc.map Prod.fst := by
  rw [List.map_map]
  apply List.map_congr_left
  intro g _
  simp only [Function.comp]
  split
  · rename_i h
    exact (beq_iff_eq.mp h).symm
  · rfl

theorem dictFields_cost {fs : List (Text × Json)} (hne : fs ≠ []) :
    dictFields fs ≠ [] ∧ ((dictFields fs).map fieldCost).sum ≤ (fs.map fieldCost).sum := by
  suffices hs : ∀ fs acc : List (Text × Json), (acc.map Prod.fst).Nodup →
      let out := fs.foldl (fun acc f => if acc.any (·.1 == f.1) then
        acc.map fun g => if g.1 == f.1 then f else g else acc ++ [f]) acc
      (acc.length + fs.length ≠ 0 → out ≠ []) ∧
        (out.map fieldCost).sum ≤ (acc.map fieldCost).sum + (fs.map fieldCost).sum by
    obtain ⟨hout, hcost⟩ := hs fs [] List.nodup_nil
    rw [List.map_nil, List.sum_nil, Nat.zero_add] at hcost
    refine ⟨hout ?_, hcost⟩
    have hpos := List.length_pos_iff.mpr hne
    omega
  intro fs
  induction fs with
  | nil =>
    intro acc _
    refine ⟨fun hlen => ?_, by simp⟩
    rintro rfl
    exact hlen rfl
  | cons f fs ih =>
    intro acc hnodup
    rw [List.foldl_cons]
    by_cases hany : acc.any (·.1 == f.1) = true
    · rw [if_pos hany]
      obtain ⟨hout, hcost⟩ := ih (acc.map fun g => if g.1 == f.1 then f else g)
        (by rw [map_fst_replace]; exact hnodup)
      have hreplace := cost_replace hnodup f
      refine ⟨fun _ => hout ?_, ?_⟩
      · rw [List.length_map]
        cases acc with
        | nil => cases hany
        | cons => simp
      · rw [List.map_cons, List.sum_cons]
        omega
    · rw [if_neg hany]
      have hnew : (((acc ++ [f]).map Prod.fst)).Nodup := by
        rw [List.map_append, List.nodup_append]
        refine ⟨hnodup, by simp, ?_⟩
        intro k hk k' hk' heq
        obtain ⟨g, hg, rfl⟩ := List.mem_map.mp hk
        obtain rfl : k' = f.1 := by simpa using hk'
        exact hany (List.any_eq_true.mpr ⟨g, hg, by simpa using heq⟩)
      obtain ⟨hout, hcost⟩ := ih (acc ++ [f]) hnew
      refine ⟨fun _ => hout (by simp), ?_⟩
      rw [List.map_append, List.sum_append, List.map_singleton, List.sum_singleton] at hcost
      rw [List.map_cons, List.sum_cons]
      omega

theorem length_skipSpace_le (t : Text) : (skipSpace t).length ≤ t.length :=
  (List.dropWhile_sublist _).length_le

theorem length_tail_of_head? {t : Text} {c : Char} (h : t.head? = some c) :
    t.tail.length + 1 = t.length := by
  cases t with
  | nil => cases h
  | cons => rfl

theorem length_dropPrefix {t word rest : Text} (h : List.dropPrefix? t word = some rest) :
    word.length + rest.length = t.length := by
  obtain ⟨word', rfl, hword⟩ := List.dropPrefix?_eq_some_iff.mp h
  rw [List.length_append, beq_iff_eq.mp hword]

/-- What a call with less fuel says of the length of what it read. -/
structure ScanLength (fuel : ℕ) : Prop where
  value : ∀ t v rest, scanValue fuel t = some (v, rest) →
    (dumpsPlain quoteRaw v).length + rest.length ≤ t.length
  items : ∀ t vs rest, scanItems fuel t = some (vs, rest) →
    vs ≠ [] ∧ (vs.map itemCost).sum + rest.length ≤ t.length
  fields : ∀ t fs rest, scanFields fuel t = some (fs, rest) →
    fs ≠ [] ∧ (fs.map fieldCost).sum + rest.length ≤ t.length

theorem ScanLength.items_succ {fuel : ℕ} (ih : ScanLength fuel) {t rest : Text} {vs : List Json}
    (h : scanItems (fuel + 1) t = some (vs, rest)) :
    vs ≠ [] ∧ (vs.map itemCost).sum + rest.length ≤ t.length := by
  rw [scanItems] at h
  split at h
  · cases h
  · rename_i v after hv
    have hvalue := ih.value t v after hv
    have hskip := length_skipSpace_le after
    dsimp only at h
    split at h
    · rename_i hcomma
      have hnext := length_tail_of_head? hcomma
      split at h
      · rename_i vs' rest' hvs
        cases h
        obtain ⟨-, hitems⟩ := ih.items _ _ _ hvs
        have hskip' := length_skipSpace_le (skipSpace after).tail
        refine ⟨List.cons_ne_nil _ _, ?_⟩
        rw [List.map_cons, List.sum_cons, itemCost]
        omega
      · cases h
    · split at h
      · rename_i hclose
        have hnext := length_tail_of_head? hclose
        cases h
        refine ⟨List.cons_ne_nil _ _, ?_⟩
        rw [List.map_singleton, List.sum_singleton, itemCost]
        omega
      · cases h

theorem ScanLength.fields_succ {fuel : ℕ} (ih : ScanLength fuel) {t rest : Text}
    {fs : List (Text × Json)} (h : scanFields (fuel + 1) t = some (fs, rest)) :
    fs ≠ [] ∧ (fs.map fieldCost).sum + rest.length ≤ t.length := by
  rw [scanFields] at h
  split at h
  · cases h
  · rename_i hquote
    have hopen := length_tail_of_head? (Classical.not_not.mp hquote)
    split at h
    · cases h
    · rename_i k after hk
      have hkey := scanString_length hk
      have hskip := length_skipSpace_le after
      split at h
      · cases h
      · rename_i hcolon
        have hnext := length_tail_of_head? (Classical.not_not.mp hcolon)
        split at h
        · cases h
        · rename_i v after' hv
          have hvalue := ih.value _ v after' hv
          have hskip' := length_skipSpace_le (skipSpace after).tail
          have hskip'' := length_skipSpace_le after'
          dsimp only at h
          split at h
          · rename_i hcomma
            have hnext' := length_tail_of_head? hcomma
            split at h
            · rename_i fs' rest' hfs
              cases h
              obtain ⟨-, hfields⟩ := ih.fields _ _ _ hfs
              have hskip₃ := length_skipSpace_le (skipSpace after').tail
              refine ⟨List.cons_ne_nil _ _, ?_⟩
              rw [List.map_cons, List.sum_cons, fieldCost]
              dsimp only
              omega
            · cases h
          · split at h
            · rename_i hclose
              have hnext' := length_tail_of_head? hclose
              cases h
              refine ⟨List.cons_ne_nil _ _, ?_⟩
              rw [List.map_singleton, List.sum_singleton, fieldCost]
              dsimp only
              omega
            · cases h

theorem length_word {c : Char} {t word rest : Text} {v v' : Json}
    (h : (List.dropPrefix? t word).map (v', ·) = some (v, rest))
    (hword : dumpsPlain quoteRaw v' = c :: word) :
    (dumpsPlain quoteRaw v).length + rest.length ≤ (c :: t).length := by
  obtain ⟨rest', hrest, heq⟩ := Option.map_eq_some_iff.mp h
  cases heq
  have hlen := length_dropPrefix hrest
  rw [hword, List.length_cons, List.length_cons]
  omega

theorem ScanLength.value_succ {fuel : ℕ} (ih : ScanLength fuel) {t rest : Text} {v : Json}
    (h : scanValue (fuel + 1) t = some (v, rest)) :
    (dumpsPlain quoteRaw v).length + rest.length ≤ t.length := by
  cases t with
  | nil =>
    rw [scanValue] at h
    cases h
  | cons c t =>
    have hskip := length_skipSpace_le t
    rw [scanValue] at h
    split at h
    · split at h
      · rename_i s rest' hs
        cases h
        have hstring := scanString_length hs
        rw [dumpsPlain, List.length_cons]
        omega
      · cases h
    split at h
    · split at h
      · rename_i hclose
        have hnext := length_tail_of_head? hclose
        cases h
        have hempty : (dumpsPlain quoteRaw (.arr [])).length = 2 := rfl
        rw [hempty, List.length_cons]
        omega
      · split at h
        · rename_i items rest' hitems
          cases h
          obtain ⟨hne, hcost⟩ := ih.items _ _ _ hitems
          rw [length_arr hne, List.length_cons]
          omega
        · cases h
    split at h
    · split at h
      · rename_i hclose
        have hnext := length_tail_of_head? hclose
        cases h
        have hempty : (dumpsPlain quoteRaw (.obj [])).length = 2 := rfl
        rw [hempty, List.length_cons]
        omega
      · split at h
        · rename_i fields rest' hfields
          cases h
          obtain ⟨hne, hcost⟩ := ih.fields _ _ _ hfields
          obtain ⟨hne', hle⟩ := dictFields_cost hne
          rw [length_obj hne', List.length_cons]
          omega
        · cases h
    split at h
    · rename_i hn
      exact length_word h (by rw [hn]; rfl)
    split at h
    · rename_i ht
      exact length_word h (by rw [ht]; rfl)
    split at h
    · rename_i hf
      exact length_word h (by rw [hf]; rfl)
    split at h
    · rename_i x rest' hx
      cases h
      exact scanFloat_length hx
    · obtain ⟨⟨n, rest'⟩, hn, heq⟩ := Option.map_eq_some_iff.mp h
      cases heq
      exact scanInt_length hn

/-- No value is shorter in a document than in its encoding. -/
theorem scan_length (fuel : ℕ) : ScanLength fuel := by
  induction fuel with
  | zero =>
    refine ⟨fun t v rest h => ?_, fun t vs rest h => ?_, fun t fs rest h => ?_⟩
    · rw [scanValue] at h
      cases h
    · rw [scanItems] at h
      cases h
    · rw [scanFields] at h
      cases h
  | succ fuel ih => exact ⟨fun _ _ _ => ih.value_succ, fun _ _ _ => ih.items_succ,
      fun _ _ _ => ih.fields_succ⟩

theorem length_dumpsPlain_le {t : Text} {v : Json} (h : loads t = some v) :
    (dumpsPlain quoteRaw v).length ≤ t.length := by
  unfold loads at h
  split at h
  · rename_i v' rest hscan
    split_ifs at h
    cases h
    have hlen := (scan_length _).value _ _ _ hscan
    have hskip := length_skipSpace_le t
    omega
  · cases h

end BetterHindsight.Json
