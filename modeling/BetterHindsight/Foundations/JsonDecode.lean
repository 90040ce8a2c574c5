import BetterHindsight.Foundations.Json

/-! # Decoding JSON

`json.loads`: a document with an escaped lone surrogate has no value here, and floats that are
written differently are different. `loads_dumps` is the round trip with both encoders of
`Json.dumps`; `dumps_injective` follows from it. -/

namespace BetterHindsight.Json
set_option autoImplicit false

universe u

/-! ## Strings -/

def hexVal (c : Char) : Option ℕ :=
  if '0' ≤ c ∧ c ≤ '9' then some (c.toNat - 48)
  else if 'a' ≤ c ∧ c ≤ 'f' then some (c.toNat - 87)
  else if 'A' ≤ c ∧ c ≤ 'F' then some (c.toNat - 55)
  else none

/-- The number the digits spell, read after `n`. -/
def hexNum (n : ℕ) : Text → Option ℕ
  | [] => some n
  | c :: cs =>
    match hexVal c with
    | some d => hexNum (n * 16 + d) cs
    | none => none

/-- The code unit named by the letter after a backslash. -/
def unescape (e : Char) : Option ℕ :=
  if e = '"' ∨ e = '\\' ∨ e = '/' then some e.toNat
  else if e = 'b' then some 0x08
  else if e = 'f' then some 0x0C
  else if e = 'n' then some 0x0A
  else if e = 'r' then some 0x0D
  else if e = 't' then some 0x09
  else none

/-- The code units of a string up to its closing quote, and what follows. A character that is not
escaped is one unit, whatever its size. -/
def scanUnits : ℕ → Text → Option (List ℕ × Text)
  | 0, _ => none
  | _ + 1, [] => none
  | fuel + 1, c :: rest =>
    if c = '"' then some ([], rest)
    else if c = '\\' then
      if rest.head? = some 'u' then
        match hexNum 0 (rest.tail.take 4), scanUnits fuel (rest.drop 5) with
        | some u, some (us, rest') => if rest.length < 5 then none else some (u :: us, rest')
        | _, _ => none
      else
        match rest.head?.bind unescape, scanUnits fuel rest.tail with
        | some u, some (us, rest') => some (u :: us, rest')
        | _, _ => none
    else if c.toNat < 0x20 then none
    else
      match scanUnits fuel rest with
      | some (us, rest') => some (c.toNat :: us, rest')
      | none => none

def isHigh (u : ℕ) : Bool := 0xD800 ≤ u && u < 0xDC00

def isLow (u : ℕ) : Bool := 0xDC00 ≤ u && u < 0xE000

def unitChar (u : ℕ) : Option Char := if u.isValidChar then some (Char.ofNat u) else none

def pairChar (u w : ℕ) : Option Char := unitChar (0x10000 + (u - 0xD800) * 0x400 + (w - 0xDC00))

/-- Joins escaped surrogate pairs; `high` is the first half of a pair whose second half is due. -/
def joinUnits (high : Option ℕ) : List ℕ → Option Text
  | [] => if high = none then some [] else none
  | u :: us =>
    match high with
    | none =>
      if isHigh u then joinUnits (some u) us
      else (unitChar u).bind fun c => (joinUnits none us).map (c :: ·)
    | some h =>
      if isLow u then (pairChar h u).bind fun c => (joinUnits none us).map (c :: ·) else none

/-- A string after its opening quote. -/
def scanString (t : Text) : Option (Text × Text) :=
  match scanUnits (t.length + 1) t with
  | some (us, rest) =>
    match joinUnits none us with
    | some s => some (s, rest)
    | none => none
  | none => none

/-! ## Values -/

def isJsonSpace (c : Char) : Bool := c == ' ' || c == '\t' || c == '\n' || c == '\r'

def skipSpace (t : Text) : Text := t.dropWhile isJsonSpace

/-- An integer; a number with a fraction or an exponent is a float. -/
def scanNatural (t : Text) : Option (ℕ × Text) :=
  let digits := t.takeWhile Char.isDigit
  let digits := if digits.head? = some '0' then ['0'] else digits
  let rest := t.drop digits.length
  if digits = [] ∨ rest.head? ∈ [some '.', some 'e', some 'E'] then none
  else some (Nat.ofDigitChars 10 digits 0, rest)

def scanInt (t : Text) : Option (ℤ × Text) :=
  if t.head? = some '-' then (scanNatural t.tail).map fun p => (-(p.1 : ℤ), p.2)
  else (scanNatural t).map fun p => ((p.1 : ℤ), p.2)

def scanFloat (t : Text) : Option (FloatText × Text) :=
  match JsonNumber.float? t with
  | some x => if h : JsonNumber.float? x = some x then some (⟨x, h⟩, t.drop x.length) else none
  | none => none

/-- What a Python `dict` keeps of a list of fields: one entry for each key, with its last value. -/
def dictFields (fields : List (Text × Json)) : List (Text × Json) :=
  fields.foldl (fun acc f =>
    if acc.any (·.1 == f.1) then acc.map fun g => if g.1 == f.1 then f else g else acc ++ [f]) []

mutual

/-- A value at the head of the text. Every call either reads a character or hands over to a call
that does, so twice the length of the text is enough fuel. -/
def scanValue : ℕ → Text → Option (Json × Text)
  | 0, _ => none
  | _ + 1, [] => none
  | fuel + 1, c :: rest =>
    if c = '"' then
      match scanString rest with
      | some (s, rest) => some (.str s, rest)
      | none => none
    else if c = '[' then
      if (skipSpace rest).head? = some ']' then some (.arr [], (skipSpace rest).tail)
      else
        match scanItems fuel (skipSpace rest) with
        | some (items, rest) => some (.arr items, rest)
        | none => none
    else if c = '{' then
      if (skipSpace rest).head? = some '}' then some (.obj [], (skipSpace rest).tail)
      else
        match scanFields fuel (skipSpace rest) with
        | some (fields, rest) => some (.obj (dictFields fields), rest)
        | none => none
    else if c = 'n' then (List.dropPrefix? rest "ull".toList).map (.null, ·)
    else if c = 't' then (List.dropPrefix? rest "rue".toList).map (.bool true, ·)
    else if c = 'f' then (List.dropPrefix? rest "alse".toList).map (.bool false, ·)
    else
      match scanFloat (c :: rest) with
      | some (x, rest) => some (.float x, rest)
      | none => (scanInt (c :: rest)).map fun p => (.int p.1, p.2)

/-- The items of a nonempty array and the rest after its bracket. -/
def scanItems : ℕ → Text → Option (List Json × Text)
  | 0, _ => none
  | fuel + 1, t =>
    match scanValue fuel t with
    | none => none
    | some (v, rest) =>
      let rest := skipSpace rest
      if rest.head? = some ',' then
        match scanItems fuel (skipSpace rest.tail) with
        | some (vs, rest) => some (v :: vs, rest)
        | none => none
      else if rest.head? = some ']' then some ([v], rest.tail)
      else none

/-- The fields of a nonempty object and the rest after its brace. -/
def scanFields : ℕ → Text → Option (List (Text × Json) × Text)
  | 0, _ => none
  | fuel + 1, t =>
    if t.head? ≠ some '"' then none
    else
      match scanString t.tail with
      | none => none
      | some (k, rest) =>
        if (skipSpace rest).head? ≠ some ':' then none
        else
          match scanValue fuel (skipSpace (skipSpace rest).tail) with
          | none => none
          | some (v, rest) =>
            let rest := skipSpace rest
            if rest.head? = some ',' then
              match scanFields fuel (skipSpace rest.tail) with
              | some (fs, rest) => some ((k, v) :: fs, rest)
              | none => none
            else if rest.head? = some '}' then some ([(k, v)], rest.tail)
            else none

end

/-- `json.loads(text)` -/
def loads (t : Text) : Option Json :=
  match scanValue (2 * t.length + 1) (skipSpace t) with
  | some (v, rest) => if skipSpace rest = [] then some v else none
  | none => none

/-! ## Strings read back -/

theorem hexVal_hexDigit (n : ℕ) : hexVal (hexDigit n) = some (n % 16) := by
  have h : ∀ m < 16, hexVal (Nat.digitChar m) = some m := by decide
  exact h _ (Nat.mod_lt _ (by decide))

theorem hexNum_unicodeEscape {n : ℕ} (h : n < 0x10000) :
    hexNum 0 ((unicodeEscape n).drop 2) = some n := by
  simp only [unicodeEscape, List.drop_succ_cons, List.drop_zero, hexNum, hexVal_hexDigit]
  congr 1
  omega

theorem scanUnits_unicodeEscape {n : ℕ} (h : n < 0x10000) (fuel : ℕ) (rest : Text) :
    scanUnits (fuel + 1) (unicodeEscape n ++ rest) =
      (scanUnits fuel rest).map fun p => (n :: p.1, p.2) := by
  have hn := hexNum_unicodeEscape h
  simp only [unicodeEscape, List.drop_succ_cons, List.drop_zero] at hn
  rw [scanUnits.eq_def]
  simp [unicodeEscape, hn]
  cases scanUnits fuel rest <;> rfl

theorem unescape_shortEscape {c e : Char} (h : shortEscape c = some e) :
    unescape e = some c.toNat ∧ e ≠ 'u' := by
  unfold shortEscape at h
  split_ifs at h with h1 h2 h3 h4 h5 h6 h7 <;> cases h
  · subst h1
    decide
  · subst h2
    decide
  · rw [h3]
    decide
  · rw [h4]
    decide
  · rw [h5]
    decide
  · rw [h6]
    decide
  · rw [h7]
    decide

theorem scanUnits_shortEscape {c e : Char} (h : shortEscape c = some e) (fuel : ℕ) (rest : Text) :
    scanUnits (fuel + 1) (['\\', e] ++ rest) =
      (scanUnits fuel rest).map fun p => (c.toNat :: p.1, p.2) := by
  obtain ⟨hu, hne⟩ := unescape_shortEscape h
  rw [scanUnits.eq_def]
  simp [hu, hne]
  cases scanUnits fuel rest <;> rfl

theorem scanUnits_plain {c : Char} (h : shortEscape c = none) (hc : 0x20 ≤ c.toNat) (fuel : ℕ)
    (rest : Text) :
    scanUnits (fuel + 1) ([c] ++ rest) =
      (scanUnits fuel rest).map fun p => (c.toNat :: p.1, p.2) := by
  have hq : c ≠ '"' := by
    rintro rfl
    exact absurd h (by decide)
  have hb : c ≠ '\\' := by
    rintro rfl
    exact absurd h (by decide)
  rw [scanUnits.eq_def]
  simp only [List.cons_append, List.nil_append, hq, hb, if_false, Nat.not_lt.mpr hc]
  cases scanUnits fuel rest <;> rfl

theorem toNat_bounds (c : Char) :
    c.toNat < 0xD800 ∨ 0xDFFF < c.toNat ∧ c.toNat < 0x110000 := by
  have h : c.toNat.isValidChar := c.valid
  unfold Nat.isValidChar at h
  exact h

theorem unitChar_toNat (c : Char) : unitChar c.toNat = some c := by
  have h : c.toNat.isValidChar := c.valid
  rw [unitChar, if_pos h, Char.ofNat_toNat]

theorem not_isHigh_toNat (c : Char) : isHigh c.toNat = false := by
  have h := toNat_bounds c
  simp only [isHigh, Bool.and_eq_false_iff, decide_eq_false_iff_not]
  omega

theorem joinUnits_toNat (c : Char) (us : List ℕ) :
    joinUnits none (c.toNat :: us) = (joinUnits none us).map (c :: ·) := by
  simp [joinUnits, not_isHigh_toNat, unitChar_toNat]

/-- A surrogate pair is read back as the character it spells. -/
theorem joinUnits_pair {c : Char} (h : 0x10000 ≤ c.toNat) (us : List ℕ) :
    joinUnits none ((0xD800 + (c.toNat - 0x10000) / 0x400) ::
        (0xDC00 + (c.toNat - 0x10000) % 0x400) :: us) =
      (joinUnits none us).map (c :: ·) := by
  have hv := toNat_bounds c
  have hhi : isHigh (0xD800 + (c.toNat - 0x10000) / 0x400) = true := by
    simp only [isHigh, Bool.and_eq_true, decide_eq_true_eq]
    omega
  have hlo : isLow (0xDC00 + (c.toNat - 0x10000) % 0x400) = true := by
    simp only [isLow, Bool.and_eq_true, decide_eq_true_eq]
    omega
  have hsum : 0x10000 + (0xD800 + (c.toNat - 0x10000) / 0x400 - 0xD800) * 0x400 +
      (0xDC00 + (c.toNat - 0x10000) % 0x400 - 0xDC00) = c.toNat := by
    omega
  simp only [joinUnits, hhi, hlo, if_true, pairChar, hsum, unitChar_toNat, Option.bind_some]

/-- A way to write the characters of a string that the scanner reads back as `units`. -/
structure Escapes (esc : Char → Text) (units : Char → List ℕ) : Prop where
  scan (c : Char) (fuel : ℕ) (rest : Text) :
    scanUnits (fuel + (units c).length) (esc c ++ rest) =
      (scanUnits fuel rest).map fun p => (units c ++ p.1, p.2)
  length_le (c : Char) : (units c).length ≤ (esc c).length
  join (c : Char) (us : List ℕ) : joinUnits none (units c ++ us) = (joinUnits none us).map (c :: ·)

theorem escapes_raw : Escapes escapeRaw fun c => [c.toNat] where
  scan c fuel rest := by
    unfold escapeRaw
    cases h : shortEscape c with
    | some e => exact scanUnits_shortEscape h fuel rest
    | none =>
      by_cases hc : c.toNat < 0x20
      · simp only [hc, if_true]
        exact scanUnits_unicodeEscape (by omega) fuel rest
      · simp only [hc, if_false]
        exact scanUnits_plain h (by omega) fuel rest
  length_le c := by
    unfold escapeRaw
    cases shortEscape c with
    | some e => simp
    | none =>
      by_cases hc : c.toNat < 0x20 <;> simp [hc, unicodeEscape]
  join := joinUnits_toNat

theorem escapes_ascii : Escapes escapeAscii utf16 where
  scan c fuel rest := by
    unfold escapeAscii utf16
    cases h : shortEscape c with
    | some e =>
      have hc : c.toNat < 0x10000 := by
        unfold shortEscape at h
        split_ifs at h with h1 h2
        all_goals first | omega | (subst_vars; decide)
      simp only [hc, if_true]
      exact scanUnits_shortEscape h fuel rest
    | none =>
      by_cases hp : 0x20 ≤ c.toNat ∧ c.toNat < 0x7F
      · simp only [hp, and_self, if_true, show c.toNat < 0x10000 by omega]
        exact scanUnits_plain h hp.1 fuel rest
      · simp only [hp, if_false]
        by_cases hc : c.toNat < 0x10000
        · simp only [hc, if_true, List.flatMap_cons, List.flatMap_nil, List.append_nil]
          exact scanUnits_unicodeEscape hc fuel rest
        · have hv : c.toNat < 0xD800 ∨ 0xDFFF < c.toNat ∧ c.toNat < 0x110000 := c.valid
          simp only [hc, if_false, List.flatMap_cons, List.flatMap_nil, List.append_nil,
            List.append_assoc, List.length_cons, List.length_nil]
          rw [show fuel + (0 + 1 + 1) = fuel + 1 + 1 by omega,
            scanUnits_unicodeEscape (by omega), scanUnits_unicodeEscape (by omega), Option.map_map]
          rfl
  length_le c := by
    unfold escapeAscii utf16
    cases shortEscape c with
    | some e => simp only; split <;> simp
    | none =>
      simp only
      split_ifs <;> first | omega | simp [unicodeEscape]
  join c us := by
    unfold utf16
    by_cases hc : c.toNat < 0x10000
    · simp only [hc, if_true]
      exact joinUnits_toNat c us
    · simp only [hc, if_false]
      exact joinUnits_pair (by omega) us

section Escapes

variable {esc : Char → Text} {units : Char → List ℕ}

theorem Escapes.scanUnits_flatMap (he : Escapes esc units) (t : Text) (fuel : ℕ) (rest : Text) :
    scanUnits (fuel + (t.flatMap units).length) (t.flatMap esc ++ rest) =
      (scanUnits fuel rest).map fun p => (t.flatMap units ++ p.1, p.2) := by
  induction t with
  | nil => simp
  | cons c t ih =>
    simp only [List.flatMap_cons, List.length_append, List.append_assoc]
    rw [show fuel + ((units c).length + (t.flatMap units).length) =
      (fuel + (t.flatMap units).length) + (units c).length by omega, he.scan, ih, Option.map_map]
    rfl

theorem Escapes.length_flatMap_le (he : Escapes esc units) (t : Text) :
    (t.flatMap units).length ≤ (t.flatMap esc).length := by
  induction t with
  | nil => simp
  | cons c t ih =>
    have := he.length_le c
    simp only [List.flatMap_cons, List.length_append]
    omega

theorem Escapes.joinUnits_flatMap (he : Escapes esc units) (t : Text) :
    joinUnits none (t.flatMap units) = some t := by
  induction t with
  | nil => rfl
  | cons c t ih => rw [List.flatMap_cons, he.join, ih, Option.map_some]

end Escapes

/-- A way to write a string, quotes included, that the scanner reads back. -/
def Quotes (quote : Text → Text) : Prop :=
  ∀ t rest, ∃ body, quote t ++ rest = '"' :: body ∧ scanString body = some (t, rest)

theorem quotes_of_escapes {esc : Char → Text} {units : Char → List ℕ} (he : Escapes esc units) :
    Quotes fun t => '"' :: (t.flatMap esc ++ ['"']) := by
  intro t rest
  refine ⟨t.flatMap esc ++ '"' :: rest, by simp, ?_⟩
  obtain ⟨fuel, hf⟩ : ∃ fuel, (t.flatMap esc ++ '"' :: rest).length + 1 =
      (fuel + 1) + (t.flatMap units).length := by
    have := he.length_flatMap_le t
    refine ⟨(t.flatMap esc ++ '"' :: rest).length - (t.flatMap units).length, ?_⟩
    simp only [List.length_append, List.length_cons]
    omega
  have hq : scanUnits (fuel + 1) ('"' :: rest) = some ([], rest) := by simp [scanUnits]
  rw [scanString, hf, he.scanUnits_flatMap, hq]
  simp [he.joinUnits_flatMap]

theorem quotes_raw : Quotes quoteRaw := quotes_of_escapes escapes_raw

theorem quotes_ascii : Quotes quoteAscii := quotes_of_escapes escapes_ascii

/-! ## Integers read back -/

theorem head_toDigits {n : ℕ} (h : 0 < n) : (Nat.toDigits 10 n).head? ≠ some '0' := by
  induction n using Nat.strongRecOn with
  | ind n ih =>
    by_cases hn : n < 10
    · rw [Nat.toDigits_of_lt_base hn]
      simp
      omega
    · rw [Nat.toDigits_of_base_le (by decide) (by omega), List.head?_append]
      have := ih (n / 10) (by omega) (by omega)
      cases hd : Nat.toDigits 10 (n / 10) with
      | nil => exact absurd hd Nat.toDigits_ne_nil
      | cons d ds =>
        rw [hd] at this
        simpa using this

/-- What may follow a value inside a document. -/
def Delimited (rest : Text) : Prop := ∀ c, rest.head? = some c → c = ',' ∨ c = ']' ∨ c = '}'

theorem delimited_cons {c : Char} (h : c = ',' ∨ c = ']' ∨ c = '}') (rest : Text) :
    Delimited (c :: rest) := by
  intro d hd
  rw [List.head?_cons, Option.some_inj] at hd
  exact hd ▸ h

theorem takeWhile_toDigits (n : ℕ) {rest : Text} (hr : Delimited rest) :
    (Nat.toDigits 10 n ++ rest).takeWhile Char.isDigit = Nat.toDigits 10 n := by
  have hd : ∀ c ∈ Nat.toDigits 10 n, c.isDigit = true := fun c hc =>
    Nat.isDigit_of_mem_toDigits (by decide) (by decide) hc
  rw [List.takeWhile_append_of_pos hd]
  cases rest with
  | nil => simp
  | cons c rest =>
    have hc : c.isDigit = false := by
      rcases hr c rfl with rfl | rfl | rfl <;> decide
    simp [hc]

theorem scanNatural_toDigits (n : ℕ) {rest : Text} (hr : Delimited rest) :
    scanNatural (Nat.toDigits 10 n ++ rest) = some (n, rest) := by
  have hdig : (if (Nat.toDigits 10 n).head? = some '0' then ['0'] else Nat.toDigits 10 n) =
      Nat.toDigits 10 n := by
    by_cases hn : n = 0
    · subst hn
      decide
    · rw [if_neg (head_toDigits (by omega))]
  have hne : ¬ (Nat.toDigits 10 n = [] ∨ rest.head? ∈ [some '.', some 'e', some 'E']) := by
    rintro (h | h)
    · exact Nat.toDigits_ne_nil h
    · simp only [List.mem_cons, List.not_mem_nil, or_false] at h
      rcases h with h | h | h <;> rcases hr _ h with h | h | h <;> exact absurd h (by decide)
  simp only [scanNatural, takeWhile_toDigits n hr, hdig, List.drop_left, hne, if_false,
    Nat.ofDigitChars_ten_toDigits]

theorem exists_toDigits (n : ℕ) : ∃ d ds, Nat.toDigits 10 n = d :: ds ∧ d.isDigit = true := by
  cases h : Nat.toDigits 10 n with
  | nil => exact absurd h Nat.toDigits_ne_nil
  | cons d ds =>
    have hd : d ∈ Nat.toDigits 10 n := by
      rw [h]
      exact List.mem_cons_self
    exact ⟨d, ds, rfl, Nat.isDigit_of_mem_toDigits (by decide) (by decide) hd⟩

theorem scanInt_encodeInt (n : ℤ) {rest : Text} (hr : Delimited rest) :
    scanInt (encodeInt n ++ rest) = some (n, rest) := by
  cases n with
  | ofNat n =>
    obtain ⟨d, ds, hd, hdig⟩ := exists_toDigits n
    have hne : d ≠ '-' := by
      rintro rfl
      exact absurd hdig (by decide)
    have h := scanNatural_toDigits n hr
    rw [scanInt, encodeInt, if_neg (by rw [hd]; simpa using hne), h]
    rfl
  | negSucc n =>
    have h := scanNatural_toDigits (n + 1) hr
    rw [scanInt, encodeInt, if_pos (by simp), List.cons_append, List.tail_cons, h]
    rfl

/-! ## Floats read back -/

section Floats
variable {rest : Text}

theorem digits_delimited (hr : Delimited rest) (t : Text) :
    (t ++ rest).takeWhile Char.isDigit = t.takeWhile Char.isDigit := by
  have hrest : rest.takeWhile Char.isDigit = [] := by
    cases rest with
    | nil => rfl
    | cons c rest =>
      have hc : c.isDigit = false := by
        rcases hr c rfl with rfl | rfl | rfl <;> decide
      simp [hc]
  rw [List.takeWhile_append, hrest, List.append_nil]
  split
  · rename_i h
    exact (List.IsPrefix.eq_of_length (List.takeWhile_prefix _) h).symm
  · rfl

theorem head?_delimited {c : Char} (hc : c ≠ ',' ∧ c ≠ ']' ∧ c ≠ '}') (hr : Delimited rest)
    (t : Text) : (t ++ rest).head? = some c ↔ t.head? = some c := by
  cases t with
  | cons d t => rfl
  | nil =>
    refine ⟨fun h => ?_, fun h => by cases h⟩
    rcases hr c h with h | h | h
    · exact absurd h hc.1
    · exact absurd h hc.2.1
    · exact absurd h hc.2.2

/-- What follows a delimiter is not a part of the number before it. -/
theorem whole_delimited (hr : Delimited rest) (t : Text) :
    JsonNumber.whole (t ++ rest) = JsonNumber.whole t := by
  have hsign : (if (t ++ rest).head? = some '-' then ['-'] else []) =
      (if t.head? = some '-' then ['-'] else [] : Text) := by
    simp only [head?_delimited (c := '-') (by decide) hr t]
  unfold JsonNumber.whole
  rw [hsign]
  by_cases hs : t.head? = some '-'
  · obtain ⟨u, rfl⟩ : ∃ u, t = '-' :: u := by
      cases t with
      | nil => cases hs
      | cons c u => exact ⟨u, by rw [Option.some.inj hs]⟩
    simp only [List.cons_append, List.head?_cons, if_true, List.length_cons, List.length_nil,
      List.drop_succ_cons, List.drop_zero, digits_delimited hr]
  · simp only [hs, if_false, List.length_nil, List.drop_zero,
      digits_delimited hr]

theorem tail_delimited {t : Text} (h : t ≠ []) : (t ++ rest).tail = t.tail ++ rest := by
  cases t with
  | nil => exact absurd rfl h
  | cons c t => rfl

theorem fraction_delimited (hr : Delimited rest) (t : Text) :
    JsonNumber.fraction (t ++ rest) = JsonNumber.fraction t := by
  unfold JsonNumber.fraction
  by_cases hs : t.head? = some '.'
  · have hne : t ≠ [] := by
      rintro rfl
      cases hs
    simp only [(head?_delimited (by decide) hr t).mpr hs, hs, tail_delimited hne,
      digits_delimited hr]
  · have hs' := mt (head?_delimited (by decide) hr t).mp hs
    simp only [hs, hs', false_and, if_false]

theorem exponent_delimited (hr : Delimited rest) (t : Text) :
    JsonNumber.exponent (t ++ rest) = JsonNumber.exponent t := by
  have hhead : (t ++ rest).head? ∈ [some 'e', some 'E'] ↔ t.head? ∈ [some 'e', some 'E'] := by
    simp only [List.mem_cons, List.not_mem_nil, or_false,
      head?_delimited (c := 'e') (by decide) hr t, head?_delimited (c := 'E') (by decide) hr t]
  unfold JsonNumber.exponent
  by_cases hs : t.head? ∈ [some 'e', some 'E']
  · obtain ⟨c, u, rfl⟩ : ∃ c u, t = c :: u := by
      cases t with
      | nil => simp at hs
      | cons c u => exact ⟨c, u, rfl⟩
    have hsign : (u ++ rest).head? ∈ [some '+', some '-'] ↔ u.head? ∈ [some '+', some '-'] := by
      simp only [List.mem_cons, List.not_mem_nil, or_false,
        head?_delimited (c := '+') (by decide) hr u, head?_delimited (c := '-') (by decide) hr u]
    rw [List.head?_cons] at hs
    simp only [List.cons_append, List.head?_cons, hs, List.tail_cons, hsign]
    by_cases hu : u.head? ∈ [some '+', some '-']
    · obtain ⟨d, v, rfl⟩ : ∃ d v, u = d :: v := by
        cases u with
        | nil => simp at hu
        | cons d v => exact ⟨d, v, rfl⟩
      simp only [List.head?_cons] at hu
      simp only [hu, if_true, List.head?_cons, List.cons_append, List.take_succ_cons,
        List.take_zero, List.length_cons, List.length_nil, List.drop_succ_cons, List.drop_zero,
        digits_delimited hr]
    · simp only [hu, if_false, List.length_nil, List.drop_zero,
        digits_delimited hr, List.take_succ_cons, List.take_zero]
  · have hs' := mt hhead.mp hs
    simp only [hs, hs', false_and, if_false]

theorem length_whole_le (t : Text) : (JsonNumber.whole t).length ≤ t.length := by
  unfold JsonNumber.whole
  extract_lets sign digits digits'
  have hdigits : digits'.length ≤ digits.length := by
    simp only [digits']
    split
    · cases hd : digits with
      | nil => simp [hd] at *
      | cons c cs => simp
    · exact le_rfl
  have htake : digits.length ≤ (t.drop sign.length).length := (List.takeWhile_prefix _).length_le
  have hsign : sign.length ≤ t.length := by
    simp only [sign]
    split
    · cases t with
      | nil => simp at *
      | cons c t => simp
    · simp
  rw [List.length_drop] at htake
  split
  · simp
  · rw [List.length_append]
    omega

theorem length_fraction_le (t : Text) : (JsonNumber.fraction t).length ≤ t.length := by
  unfold JsonNumber.fraction
  extract_lets digits
  have htake : digits.length ≤ t.tail.length := (List.takeWhile_prefix _).length_le
  rw [List.length_tail] at htake
  split
  · rename_i h
    cases t with
    | nil => simp at h
    | cons c t =>
      simp only [List.length_cons] at htake ⊢
      omega
  · simp

theorem float?_delimited (hr : Delimited rest) (t : Text) :
    JsonNumber.float? (t ++ rest) = JsonNumber.float? t := by
  have hwhole := length_whole_le t
  have hfraction := length_fraction_le (t.drop (JsonNumber.whole t).length)
  rw [List.length_drop] at hfraction
  have hsum : (JsonNumber.whole t).length +
      (JsonNumber.fraction (t.drop (JsonNumber.whole t).length)).length ≤ t.length := by omega
  simp only [JsonNumber.float?, whole_delimited hr, List.drop_append_of_le_length hwhole,
    fraction_delimited hr, List.drop_append_of_le_length hsum, exponent_delimited hr]

theorem scanFloat_text (x : FloatText) (hr : Delimited rest) :
    scanFloat (x.text ++ rest) = some (x, rest) := by
  unfold scanFloat
  rw [float?_delimited hr, x.isFloat]
  simp only [x.isFloat, dite_true, List.drop_left]

/-- A float begins with a sign or a digit. -/
theorem float_head (x : FloatText) :
    ∃ c cs, x.text = c :: cs ∧ (c.isDigit = true ∨ c = '-') := by
  have hfloat := x.isFloat
  have hne : JsonNumber.whole x.text ≠ [] := by
    intro h
    rw [JsonNumber.float?, if_pos (.inl h)] at hfloat
    cases hfloat
  unfold JsonNumber.whole at hne
  extract_lets sign digits digits' at hne
  cases ht : x.text with
  | nil => simp [ht, digits', digits] at hne
  | cons c cs =>
    refine ⟨c, cs, rfl, ?_⟩
    by_contra hc
    push Not at hc
    have hsign : sign = [] := by
      simp only [sign, ht, List.head?_cons, Option.some.injEq, if_neg hc.2]
    apply hne
    simp [digits', digits, hsign, ht, hc.1]

theorem whole_encodeInt (n : ℤ) : JsonNumber.whole (encodeInt n) = encodeInt n := by
  have hdigits : ∀ k, (Nat.toDigits 10 k).takeWhile Char.isDigit = Nat.toDigits 10 k := by
    intro k
    have hnil : Delimited [] := by
      intro c hc
      cases hc
    have h := takeWhile_toDigits k hnil
    rwa [List.append_nil] at h
  have hzero : ∀ k, (if (Nat.toDigits 10 k).head? = some '0' then ['0'] else Nat.toDigits 10 k) =
      Nat.toDigits 10 k := by
    intro k
    by_cases hk : k = 0
    · subst hk
      decide
    · rw [if_neg (head_toDigits (by omega))]
  have hne : ∀ k, Nat.toDigits 10 k ≠ [] := fun k => Nat.toDigits_ne_nil
  cases n with
  | ofNat n =>
    obtain ⟨d, ds, hd, hdig⟩ := exists_toDigits n
    have hsign : (Nat.toDigits 10 n).head? ≠ some '-' := by
      rw [hd, List.head?_cons]
      intro h
      rw [Option.some.inj h] at hdig
      exact absurd hdig (by decide)
    simp only [encodeInt, JsonNumber.whole, hsign, if_false, List.length_nil, List.drop_zero,
      hdigits, hzero, hne n, List.nil_append]
  | negSucc n =>
    simp only [encodeInt, JsonNumber.whole, List.head?_cons, if_true, List.length_cons,
      List.length_nil, List.drop_succ_cons, List.drop_zero, hdigits, hzero, hne (n + 1), if_false]
    rfl

/-- An integer has neither a fraction nor an exponent. -/
theorem scanFloat_encodeInt (n : ℤ) (hr : Delimited rest) :
    scanFloat (encodeInt n ++ rest) = none := by
  have hnone : JsonNumber.float? (encodeInt n) = none := by
    simp [JsonNumber.float?, whole_encodeInt, JsonNumber.fraction, JsonNumber.exponent]
  unfold scanFloat
  rw [float?_delimited hr, hnone]

end Floats

/-! ## Values read back -/

/-- Induction over a value, with the hypothesis for every item and every field. -/
theorem induct {P : Json → Prop} (hnull : P .null) (hbool : ∀ b, P (.bool b))
    (hint : ∀ n, P (.int n)) (hfloat : ∀ x, P (.float x)) (hstr : ∀ t, P (.str t))
    (harr : ∀ items : List Json, (∀ v ∈ items, P v) → P (.arr items))
    (hobj : ∀ fields : List (Text × Json), (∀ f ∈ fields, P f.2) → P (.obj fields)) (v : Json) :
    P v :=
  match v with
  | .null => hnull
  | .bool b => hbool b
  | .int n => hint n
  | .float x => hfloat x
  | .str t => hstr t
  | .arr items => harr items fun v _ => induct hnull hbool hint hfloat hstr harr hobj v
  | .obj fields => hobj fields fun f _ => induct hnull hbool hint hfloat hstr harr hobj f.2
termination_by sizeOf v
decreasing_by
  · have := List.sizeOf_lt_of_mem ‹_›
    simp only [Json.arr.sizeOf_spec]
    omega
  · have h := List.sizeOf_lt_of_mem ‹_›
    have : sizeOf f.2 < sizeOf f := by
      cases f
      simp only [Prod.mk.sizeOf_spec]
      omega
    simp only [Json.obj.sizeOf_spec]
    omega

/-- Every object of the value has one field for each key, as a `dict` does. -/
inductive Distinct : Json → Prop
  | null : Distinct .null
  | bool (b : Bool) : Distinct (.bool b)
  | int (n : ℤ) : Distinct (.int n)
  | float (x : FloatText) : Distinct (.float x)
  | str (t : Text) : Distinct (.str t)
  | arr {items : List Json} (h : ∀ v ∈ items, Distinct v) : Distinct (.arr items)
  | obj {fields : List (Text × Json)} (nodup : (fields.map Prod.fst).Nodup)
      (h : ∀ f ∈ fields, Distinct f.2) : Distinct (.obj fields)

theorem dictFields_of_nodup {fields : List (Text × Json)} (h : (fields.map Prod.fst).Nodup) :
    dictFields fields = fields := by
  suffices hs : ∀ fs acc : List (Text × Json), ((acc ++ fs).map Prod.fst).Nodup →
      fs.foldl (fun acc f => if acc.any (·.1 == f.1) then
        acc.map fun g => if g.1 == f.1 then f else g else acc ++ [f]) acc = acc ++ fs from
    hs fields [] h
  intro fs
  induction fs with
  | nil => simp
  | cons f fs ih =>
    intro acc hn
    have hf : acc.any (·.1 == f.1) = false := by
      rw [List.any_eq_false]
      intro g hg he
      rw [List.map_append, List.nodup_append] at hn
      exact hn.2.2 g.1 (List.mem_map_of_mem hg) f.1 (by simp) (by simpa using he)
    rw [List.foldl_cons, if_neg (by simp [hf]), ih (acc ++ [f]) (by simpa using hn)]
    simp

theorem sortKeys_perm {α : Type u} (fs : List (Text × α)) : (sortKeys fs).Perm fs :=
  List.perm_insertionSort _ fs

theorem mem_sortKeys {α : Type u} {fs : List (Text × α)} {f : Text × α} :
    f ∈ sortKeys fs ↔ f ∈ fs := (sortKeys_perm fs).mem_iff

theorem nodup_sortKeys {α : Type u} {fs : List (Text × α)} (h : (fs.map Prod.fst).Nodup) :
    ((sortKeys fs).map Prod.fst).Nodup :=
  ((sortKeys_perm fs).map Prod.fst).nodup_iff.mpr h

theorem sortKeys_of_sorted {α : Type u} {fs : List (Text × α)}
    (h : (fs.map Prod.fst).Pairwise (· ≤ ·)) : sortKeys fs = fs :=
  List.Pairwise.insertionSort_eq (List.pairwise_map.mp h)

theorem lookup_eq_some {α : Type u} {fs : List (Text × α)} (h : (fs.map Prod.fst).Nodup)
    {k : Text} {v : α} : fs.lookup k = some v ↔ (k, v) ∈ fs := by
  induction fs with
  | nil => simp
  | cons f fs ih =>
    obtain ⟨k', v'⟩ := f
    rw [List.map_cons, List.nodup_cons] at h
    by_cases hk : k = k'
    · subst hk
      have hnot : (k, v) ∉ fs := fun hm => h.1 (List.mem_map.mpr ⟨_, hm, rfl⟩)
      simp [List.lookup, hnot, eq_comm]
    · have hb : (k == k') = false := by simpa using hk
      simp [List.lookup, hb, ih h.2, hk]

theorem lookup_sortKeys {α : Type u} {fs : List (Text × α)} (h : (fs.map Prod.fst).Nodup)
    (k : Text) : (sortKeys fs).lookup k = fs.lookup k := by
  apply Option.ext
  intro v
  rw [lookup_eq_some h, lookup_eq_some (nodup_sortKeys h), mem_sortKeys]

/-- What the encoding of a value begins with. -/
def Opens (t : Text) : Prop := ∃ c cs, t = c :: cs ∧ isJsonSpace c = false ∧ c ≠ ']'

theorem Opens.skipSpace {t : Text} (h : Opens t) : skipSpace t = t := by
  obtain ⟨c, cs, rfl, hc, -⟩ := h
  simp [Json.skipSpace, hc]

theorem Opens.append {t : Text} (h : Opens t) (rest : Text) : Opens (t ++ rest) := by
  obtain ⟨c, cs, rfl, hc⟩ := h
  exact ⟨c, cs ++ rest, rfl, hc⟩

section Values

variable {quote : Text → Text}

theorem opens_quote (hq : Quotes quote) (t : Text) : Opens (quote t) := by
  obtain ⟨body, hb, -⟩ := hq t []
  rw [List.append_nil] at hb
  exact ⟨_, _, hb, by decide, by decide⟩

theorem encodeInt_head (n : ℤ) :
    ∃ c cs, encodeInt n = c :: cs ∧ (c.isDigit = true ∨ c = '-') := by
  cases n with
  | ofNat n =>
    obtain ⟨d, ds, hd, hdig⟩ := exists_toDigits n
    exact ⟨d, ds, hd, .inl hdig⟩
  | negSucc n => exact ⟨'-', _, rfl, .inr rfl⟩

theorem opens_number {t : Text} (h : ∃ c cs, t = c :: cs ∧ (c.isDigit = true ∨ c = '-')) :
    Opens t := by
  obtain ⟨c, cs, hc, hhead⟩ := h
  refine ⟨c, cs, hc, ?_, ?_⟩
  · by_contra hs
    simp only [isJsonSpace, Bool.not_eq_false, Bool.or_eq_true, beq_iff_eq] at hs
    rcases hs with ((rfl | rfl) | rfl) | rfl <;> exact absurd hhead (by decide)
  · rintro rfl
    exact absurd hhead (by decide)

theorem opens_encodeInt (n : ℤ) : Opens (encodeInt n) := opens_number (encodeInt_head n)

/-- A number is scanned as one. -/
theorem scanValue_number {t rest : Text} {fuel : ℕ}
    (h : ∃ c cs, t = c :: cs ∧ (c.isDigit = true ∨ c = '-')) :
    scanValue (fuel + 1) (t ++ rest) =
      match scanFloat (t ++ rest) with
      | some (x, rest) => some (.float x, rest)
      | none => (scanInt (t ++ rest)).map fun p => (.int p.1, p.2) := by
  obtain ⟨c, cs, rfl, hhead⟩ := h
  have hother : c ∉ ['"', '[', '{', 'n', 't', 'f'] := by
    intro hm
    simp only [List.mem_cons, List.not_mem_nil, or_false] at hm
    rcases hm with rfl | rfl | rfl | rfl | rfl | rfl <;> exact absurd hhead (by decide)
  simp only [List.mem_cons, List.not_mem_nil, or_false, not_or] at hother
  rw [List.cons_append]
  simp only [scanValue, hother, if_false]

theorem opens_dumps (hq : Quotes quote) (v : Json) : Opens (dumps quote v) := by
  cases v with
  | null => exact ⟨'n', "ull".toList, rfl, by decide, by decide⟩
  | bool b => cases b with
    | true => exact ⟨'t', "rue".toList, rfl, by decide, by decide⟩
    | false => exact ⟨'f', "alse".toList, rfl, by decide, by decide⟩
  | int n => exact opens_encodeInt n
  | float x => exact opens_number (float_head x)
  | str t => exact opens_quote hq t
  | arr items => exact ⟨'[', _, by rw [dumps], by decide, by decide⟩
  | obj fields => exact ⟨'{', _, by rw [dumps], by decide, by decide⟩

theorem joinComma_cons_cons (t u : Text) (ts : List Text) :
    joinComma (t :: u :: ts) = t ++ ',' :: joinComma (u :: ts) := rfl

/-- The text is read as the value, whatever follows it. -/
structure ReadsAs (t : Text) (v : Json) : Prop where
  opens : Opens t
  scan : ∀ rest fuel, Delimited rest → 2 * t.length < fuel →
    scanValue fuel (t ++ rest) = some (v, rest)

theorem skipSpace_cons {c : Char} (h : isJsonSpace c = false) (t : Text) :
    skipSpace (c :: t) = c :: t := by
  simp [skipSpace, h]

theorem opens_joinComma {ts : List Text} (hne : ts ≠ []) (h : ∀ t ∈ ts, Opens t) :
    Opens (joinComma ts) := by
  cases ts with
  | nil => exact absurd rfl hne
  | cons t ts =>
    have ht := h t List.mem_cons_self
    cases ts with
    | nil => exact ht
    | cons u ts => exact ht.append _

/-- The items of an array, each read in turn. -/
theorem scanItems_joinComma {items : List (Text × Json)} (hne : items ≠ [])
    (h : ∀ item ∈ items, ReadsAs item.1 item.2) (rest : Text) (fuel : ℕ)
    (hf : 2 * (joinComma (items.map Prod.fst)).length + 1 < fuel) :
    scanItems fuel (joinComma (items.map Prod.fst) ++ ']' :: rest) =
      some (items.map Prod.snd, rest) := by
  induction items generalizing fuel with
  | nil => exact absurd rfl hne
  | cons item items ih =>
    obtain ⟨fuel, rfl⟩ : ∃ f, fuel = f + 1 := ⟨fuel - 1, by omega⟩
    have hitem := h item List.mem_cons_self
    cases items with
    | nil =>
      simp only [List.map_cons, List.map_nil, joinComma] at hf ⊢
      have hd : Delimited (']' :: rest) := delimited_cons (by simp) _
      rw [scanItems, hitem.scan _ fuel hd (by omega)]
      simp [skipSpace_cons (c := ']') (by decide)]
    | cons next items =>
      simp only [List.map_cons, joinComma_cons_cons, List.length_append, List.length_cons] at hf
      have hd : Delimited (',' :: (joinComma ((next :: items).map Prod.fst) ++ ']' :: rest)) :=
        delimited_cons (by simp) _
      have hopen : Opens (joinComma ((next :: items).map Prod.fst) ++ ']' :: rest) := by
        refine (opens_joinComma (by simp) fun t ht => ?_).append _
        obtain ⟨item', hmem, rfl⟩ := List.mem_map.mp ht
        exact (h item' (List.mem_cons_of_mem _ hmem)).opens
      have htail := ih (by simp) (fun item' hmem => h item' (List.mem_cons_of_mem _ hmem)) fuel
        (by simp only [List.map_cons]; omega)
      rw [List.map_cons, List.map_cons, joinComma_cons_cons, ← List.map_cons, List.append_assoc,
        List.cons_append, scanItems, hitem.scan _ fuel hd (by omega)]
      simp only [skipSpace_cons (c := ',') (by decide), List.head?_cons, if_true, List.tail_cons,
        hopen.skipSpace, htail]
      rfl

/-- A key, a text and the value that the text is read as. -/
abbrev FieldText := Text × Text × Json

/-- `"key":text` -/
def FieldText.write (quote : Text → Text) (f : FieldText) : Text := quote f.1 ++ ':' :: f.2.1

theorem opens_field (hq : Quotes quote) (f : FieldText) : Opens (f.write quote) :=
  (opens_quote hq f.1).append _

/-- The fields of an object, each read in turn. -/
theorem scanFields_joinComma (hq : Quotes quote) {fs : List FieldText} (hne : fs ≠ [])
    (h : ∀ f ∈ fs, ReadsAs f.2.1 f.2.2) (rest : Text) (fuel : ℕ)
    (hf : 2 * (joinComma (fs.map (FieldText.write quote))).length + 1 < fuel) :
    scanFields fuel (joinComma (fs.map (FieldText.write quote)) ++ '}' :: rest) =
      some (fs.map fun f => (f.1, f.2.2), rest) := by
  induction fs generalizing fuel with
  | nil => exact absurd rfl hne
  | cons f fs ih =>
    obtain ⟨fuel, rfl⟩ : ∃ f, fuel = f + 1 := ⟨fuel - 1, by omega⟩
    have hf' := h f List.mem_cons_self
    -- one field: its key, the colon, its value
    have hfield : ∀ after, Delimited after → 2 * f.2.1.length < fuel →
        ∃ body, f.write quote ++ after = '"' :: body ∧
          scanString body = some (f.1, ':' :: (f.2.1 ++ after)) ∧
          scanValue fuel (f.2.1 ++ after) = some (f.2.2, after) := by
      intro after ha hfl
      obtain ⟨body, hb, hs⟩ := hq f.1 (':' :: (f.2.1 ++ after))
      exact ⟨body, by rw [← hb]; simp [FieldText.write], hs, hf'.scan after fuel ha hfl⟩
    have hskip : ∀ after, skipSpace (f.2.1 ++ after) = f.2.1 ++ after :=
      fun after => (hf'.opens.append after).skipSpace
    cases fs with
    | nil =>
      have hlen : (f.write quote).length = (quote f.1).length + (f.2.1.length + 1) := by
        simp [FieldText.write]
      simp only [List.map_cons, List.map_nil, joinComma, hlen] at hf ⊢
      obtain ⟨body, hb, hs, hv⟩ := hfield ('}' :: rest) (delimited_cons (by simp) _) (by omega)
      rw [hb, scanFields]
      simp only [List.head?_cons, ne_eq, not_true_eq_false, if_false, List.tail_cons, hs,
        skipSpace_cons (c := ':') (by decide), hskip, hv, skipSpace_cons (c := '}') (by decide)]
      simp
    | cons g fs =>
      have hlen : (f.write quote).length = (quote f.1).length + (f.2.1.length + 1) := by
        simp [FieldText.write]
      simp only [List.map_cons, joinComma_cons_cons, List.length_append, List.length_cons, hlen]
        at hf
      obtain ⟨body, hb, hs, hv⟩ := hfield (',' :: (joinComma ((g :: fs).map
        (FieldText.write quote)) ++ '}' :: rest)) (delimited_cons (by simp) _) (by omega)
      have hopen : Opens (joinComma ((g :: fs).map (FieldText.write quote)) ++ '}' :: rest) := by
        refine (opens_joinComma (by simp) fun t ht => ?_).append _
        obtain ⟨f', -, rfl⟩ := List.mem_map.mp ht
        exact opens_field hq f'
      have htail := ih (by simp) (fun f hf => h f (List.mem_cons_of_mem _ hf)) fuel (by
        simp only [List.map_cons]
        omega)
      rw [List.map_cons, List.map_cons, joinComma_cons_cons,
        ← List.map_cons (f := FieldText.write quote), List.append_assoc, List.cons_append, hb,
        scanFields]
      simp only [List.head?_cons, ne_eq, not_true_eq_false, if_false, List.tail_cons, hs,
        skipSpace_cons (c := ':') (by decide), hskip, hv, skipSpace_cons (c := ',') (by decide),
        hopen.skipSpace, if_true, htail]
      rfl

theorem readsAs_array {items : List (Text × Json)} (h : ∀ item ∈ items, ReadsAs item.1 item.2) :
    ReadsAs ('[' :: (joinComma (items.map Prod.fst) ++ [']'])) (.arr (items.map Prod.snd)) where
  opens := ⟨'[', _, rfl, by decide, by decide⟩
  scan := by
    intro rest fuel _ hf
    obtain ⟨fuel, rfl⟩ : ∃ f, fuel = f + 1 := ⟨fuel - 1, by omega⟩
    simp only [List.length_cons, List.length_append, List.length_nil] at hf
    simp only [List.cons_append, List.append_assoc, List.nil_append]
    cases items with
    | nil => rfl
    | cons item items =>
      have hopen : Opens (joinComma ((item :: items).map Prod.fst) ++ ']' :: rest) := by
        refine (opens_joinComma (by simp) fun t ht => ?_).append _
        obtain ⟨item', hmem, rfl⟩ := List.mem_map.mp ht
        exact (h item' hmem).opens
      have hitems := scanItems_joinComma (by simp) h rest fuel (by omega)
      obtain ⟨c, cs, hc, -, hne⟩ := id hopen
      have hhead : (joinComma ((item :: items).map Prod.fst) ++ ']' :: rest).head? ≠ some ']' := by
        rw [hc]
        simpa using hne
      rw [scanValue, if_neg (by decide), if_pos rfl, hopen.skipSpace, if_neg hhead, hitems]

theorem readsAs_object (hq : Quotes quote) {fs : List FieldText} (hnodup : (fs.map Prod.fst).Nodup)
    (h : ∀ f ∈ fs, ReadsAs f.2.1 f.2.2) :
    ReadsAs ('{' :: (joinComma (fs.map (FieldText.write quote)) ++ ['}']))
      (.obj (fs.map fun f => (f.1, f.2.2))) where
  opens := ⟨'{', _, rfl, by decide, by decide⟩
  scan := by
    intro rest fuel _ hf
    obtain ⟨fuel, rfl⟩ : ∃ f, fuel = f + 1 := ⟨fuel - 1, by omega⟩
    simp only [List.length_cons, List.length_append, List.length_nil] at hf
    simp only [List.cons_append, List.append_assoc, List.nil_append]
    cases fs with
    | nil => rfl
    | cons f fs =>
      obtain ⟨body, hb⟩ : ∃ body, joinComma ((f :: fs).map (FieldText.write quote)) ++
          '}' :: rest = '"' :: body := by
        obtain ⟨body, hb, -⟩ := hq f.1 (':' :: f.2.1)
        cases fs with
        | nil => exact ⟨body ++ '}' :: rest, by simp [joinComma, FieldText.write, hb]⟩
        | cons g fs =>
          exact ⟨body ++ ',' :: joinComma ((g :: fs).map (FieldText.write quote)) ++ '}' :: rest,
            by simp [joinComma_cons_cons, FieldText.write, hb]⟩
      have hfields := scanFields_joinComma hq (by simp) h rest fuel (by omega)
      rw [hb] at hfields
      rw [scanValue, if_neg (by decide), if_neg (by decide), if_pos rfl, hb,
        skipSpace_cons (by decide), if_neg (by simp), hfields]
      have hdict : dictFields ((f :: fs).map fun f => (f.1, f.2.2)) =
          (f :: fs).map fun f => (f.1, f.2.2) := by
        apply dictFields_of_nodup
        rw [List.map_map]
        exact hnodup
      simp only [hdict]

/-- Values that are neither arrays nor objects. -/
theorem readsAs_leaf (hq : Quotes quote) {v : Json} (harr : ∀ items, v ≠ .arr items)
    (hobj : ∀ fields, v ≠ .obj fields) : ReadsAs (dumps quote v) v where
  opens := opens_dumps hq v
  scan := by
    intro rest fuel hr hf
    obtain ⟨fuel, rfl⟩ : ∃ f, fuel = f + 1 := ⟨fuel - 1, by omega⟩
    cases v with
    | null => simp [dumps, scanValue, List.dropPrefix?]
    | bool b => cases b <;> simp [dumps, scanValue, List.dropPrefix?]
    | int n =>
      rw [dumps, scanValue_number (encodeInt_head n), scanFloat_encodeInt n hr]
      simp only [scanInt_encodeInt n hr, Option.map_some]
    | float x =>
      rw [dumps, scanValue_number (float_head x), scanFloat_text x hr]
    | str t =>
      obtain ⟨body, hb, hs⟩ := hq t rest
      rw [dumps, hb]
      simp only [scanValue, if_true, hs]
    | arr items => exact absurd rfl (harr items)
    | obj fields => exact absurd rfl (hobj fields)

theorem readsAs_dumps (hq : Quotes quote) (v : Json) : v.Distinct →
    ReadsAs (dumps quote v) v.sorted := by
  induction v using induct with
  | hnull => exact fun _ => readsAs_leaf hq nofun nofun
  | hbool b => exact fun _ => readsAs_leaf hq nofun nofun
  | hint n => exact fun _ => readsAs_leaf hq nofun nofun
  | hfloat x => exact fun _ => readsAs_leaf hq nofun nofun
  | hstr t => exact fun _ => readsAs_leaf hq nofun nofun
  | harr items ih =>
    intro hd
    cases hd with
    | arr hd =>
    have hitems : ∀ item ∈ items.map fun v => (dumps quote v, v.sorted),
        ReadsAs item.1 item.2 := by
      intro item hmem
      obtain ⟨v, hv, rfl⟩ := List.mem_map.mp hmem
      exact ih v hv (hd v hv)
    have harray := readsAs_array hitems
    simpa only [dumps_arr, sorted, sortedItems_eq_map, List.map_map, Function.comp_def]
      using harray
  | hobj fields ih =>
    intro hd
    cases hd with
    | obj hn hd =>
    let fs : List FieldText := (sortKeys fields).map fun f => (f.1, dumps quote f.2, f.2.sorted)
    have hkeys : (fs.map Prod.fst).Nodup := by
      simpa only [fs, List.map_map, Function.comp_def] using nodup_sortKeys hn
    have hvalues : ∀ f ∈ fs, ReadsAs f.2.1 f.2.2 := by
      intro f hmem
      obtain ⟨g, hg, rfl⟩ := List.mem_map.mp hmem
      exact ih g (mem_sortKeys.mp hg) (hd g (mem_sortKeys.mp hg))
    have hobject := readsAs_object hq hkeys hvalues
    simpa only [dumps_obj, sorted, sortedFields_eq_map, sortKeys_map fun _ v => sorted v,
      fs, List.map_map, Function.comp_def, FieldText.write] using hobject

theorem readsAs_dumpsPlain (hq : Quotes quote) (v : Json) : v.Distinct →
    ReadsAs (dumpsPlain quote v) v := by
  induction v using induct with
  | hnull => exact fun _ => readsAs_leaf hq (v := .null) nofun nofun
  | hbool b =>
    intro _
    have hleaf := readsAs_leaf hq (v := .bool b) nofun nofun
    cases b <;> exact hleaf
  | hint n => exact fun _ => readsAs_leaf hq (v := .int n) nofun nofun
  | hfloat x => exact fun _ => readsAs_leaf hq (v := .float x) nofun nofun
  | hstr t => exact fun _ => readsAs_leaf hq (v := .str t) nofun nofun
  | harr items ih =>
    intro hd
    cases hd with
    | arr hd =>
    have hitems : ∀ item ∈ items.map fun v => (dumpsPlain quote v, v),
        ReadsAs item.1 item.2 := by
      intro item hmem
      obtain ⟨v, hv, rfl⟩ := List.mem_map.mp hmem
      exact ih v hv (hd v hv)
    have harray := readsAs_array hitems
    simpa only [dumpsPlain_arr, List.map_map, Function.comp_def, List.map_id'] using harray
  | hobj fields ih =>
    intro hd
    cases hd with
    | obj hn hd =>
    let fs : List FieldText := fields.map fun f => (f.1, dumpsPlain quote f.2, f.2)
    have hkeys : (fs.map Prod.fst).Nodup := by
      simpa only [fs, List.map_map, Function.comp_def] using hn
    have hvalues : ∀ f ∈ fs, ReadsAs f.2.1 f.2.2 := by
      intro f hmem
      obtain ⟨g, hg, rfl⟩ := List.mem_map.mp hmem
      exact ih g hg (hd g hg)
    have hobject := readsAs_object hq hkeys hvalues
    simpa only [dumpsPlain_obj, fs, List.map_map, Function.comp_def, FieldText.write, List.map_id']
      using hobject

/-- A text that is read as a value is a document for it. -/
theorem ReadsAs.loads {t : Text} {v : Json} (h : ReadsAs t v) : loads t = some v := by
  have hr := h.scan [] (2 * t.length + 1) (by intro c hc; cases hc) (by omega)
  rw [List.append_nil] at hr
  rw [Json.loads, h.opens.skipSpace, hr]
  rfl

/-- **Decoding inverts encoding**, up to the order of the fields. -/
theorem loads_dumps (hq : Quotes quote) {v : Json} (h : v.Distinct) :
    loads (dumps quote v) = some v.sorted := (readsAs_dumps hq v h).loads

theorem loads_dumpsPlain (hq : Quotes quote) {v : Json} (h : v.Distinct) :
    loads (dumpsPlain quote v) = some v := (readsAs_dumpsPlain hq v h).loads

theorem dumps_injective (hq : Quotes quote) {v w : Json} (hv : v.Distinct) (hw : w.Distinct)
    (h : dumps quote v = dumps quote w) : v.sorted = w.sorted := by
  have hl := loads_dumps hq hv
  rw [h, loads_dumps hq hw, Option.some_inj] at hl
  exact hl.symm

end Values

end BetterHindsight.Json
