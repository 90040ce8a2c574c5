import BetterHindsight.Foundations.Text

/-! # JSON values and their encoding

`json.dumps` with `separators=(",", ":")`, in the two modes this development
needs: `quoteRaw` is `ensure_ascii=False`, `quoteAscii` is `ensure_ascii=True`. A number is an
integer or a finite float.

* `FloatText`: a float by the text that its `repr` has.
* `dumps`, `dumpsPlain`: the encoder, with and without `sort_keys=True`.
* `sortKeys`, `Json.sorted`: the key order of the encoding, at one level and throughout.
* `utf8Len_quoteRaw`: string escaping is additive, character by character. -/

namespace BetterHindsight
set_option autoImplicit false

universe u

/-! ## Floats -/

namespace JsonNumber

/-- `-?(0|[1-9][0-9]*)` at the head of the text, if it is there. -/
def whole (t : Text) : Text :=
  let sign : Text := if t.head? = some '-' then ['-'] else []
  let digits := (t.drop sign.length).takeWhile Char.isDigit
  let digits := if digits.head? = some '0' then ['0'] else digits
  if digits = [] then [] else sign ++ digits

/-- `\.[0-9]+` -/
def fraction (t : Text) : Text :=
  let digits := t.tail.takeWhile Char.isDigit
  if t.head? = some '.' ∧ digits ≠ [] then '.' :: digits else []

/-- `[eE][-+]?[0-9]+` -/
def exponent (t : Text) : Text :=
  let sign : Text := if t.tail.head? ∈ [some '+', some '-'] then t.tail.take 1 else []
  let digits := (t.tail.drop sign.length).takeWhile Char.isDigit
  if t.head? ∈ [some 'e', some 'E'] ∧ digits ≠ [] then t.take 1 ++ sign ++ digits else []

/-- A number with a fraction or an exponent at the head of the text. -/
def float? (t : Text) : Option Text :=
  let w := whole t
  let f := fraction (t.drop w.length)
  let e := exponent (t.drop (w.length + f.length))
  if w = [] ∨ f ++ e = [] then none else some (w ++ f ++ e)

end JsonNumber

/-- A finite float, as `float.__repr__` writes it. -/
structure FloatText where
  text : Text
  isFloat : JsonNumber.float? text = some text

inductive Json where
  | null
  | bool (b : Bool)
  | int (n : ℤ)
  | float (x : FloatText)
  | str (t : Text)
  | arr (items : List Json)
  | obj (fields : List (Text × Json))

namespace Json

/-! ## Strings -/

def hexDigit (n : ℕ) : Char := Nat.digitChar (n % 16)

/-- `\uXXXX` -/
def unicodeEscape (n : ℕ) : Text :=
  ['\\', 'u', hexDigit (n / 4096), hexDigit (n / 256), hexDigit (n / 16), hexDigit n]

/-- The escapes with a letter of their own. -/
def shortEscape (c : Char) : Option Char :=
  if c = '"' then some '"'
  else if c = '\\' then some '\\'
  else if c.toNat = 0x08 then some 'b'
  else if c.toNat = 0x0C then some 'f'
  else if c.toNat = 0x0A then some 'n'
  else if c.toNat = 0x0D then some 'r'
  else if c.toNat = 0x09 then some 't'
  else none

/-- One character of a string under `ensure_ascii=False`. -/
def escapeRaw (c : Char) : Text :=
  match shortEscape c with
  | some e => ['\\', e]
  | none => if c.toNat < 0x20 then unicodeEscape c.toNat else [c]

/-- The UTF-16 code units of a character. -/
def utf16 (c : Char) : List ℕ :=
  if c.toNat < 0x10000 then [c.toNat]
  else [0xD800 + (c.toNat - 0x10000) / 0x400, 0xDC00 + (c.toNat - 0x10000) % 0x400]

/-- One character of a string under `ensure_ascii=True`. -/
def escapeAscii (c : Char) : Text :=
  match shortEscape c with
  | some e => ['\\', e]
  | none =>
    if 0x20 ≤ c.toNat ∧ c.toNat < 0x7F then [c] else (utf16 c).flatMap unicodeEscape

def quoteRaw (t : Text) : Text := '"' :: (t.flatMap escapeRaw ++ ['"'])

def quoteAscii (t : Text) : Text := '"' :: (t.flatMap escapeAscii ++ ['"'])

/-- The UTF-8 length of a string's encoding between its quotes. -/
def escapedLen (t : Text) : ℕ := utf8Len (t.flatMap escapeRaw)

@[simp] theorem escapedLen_nil : escapedLen [] = 0 := rfl

@[simp] theorem escapedLen_append (s t : Text) :
    escapedLen (s ++ t) = escapedLen s + escapedLen t := by
  simp [escapedLen]

theorem utf8Len_quoteRaw (t : Text) : utf8Len (quoteRaw t) = escapedLen t + 2 := by
  have h : Char.utf8Size '"' = 1 := by decide
  simp only [quoteRaw, escapedLen, utf8Len_cons, utf8Len_append, utf8Len_nil, h]
  omega

/-! ## Values -/

/-- Sorts the fields of an object by key. -/
def sortKeys {α : Type u} (fields : List (Text × α)) : List (Text × α) :=
  fields.insertionSort fun a b => a.1 ≤ b.1

def encodeInt : ℤ → Text
  | .ofNat n => Nat.toDigits 10 n
  | .negSucc n => '-' :: Nat.toDigits 10 (n + 1)

/-- `",".join(parts)` -/
def joinComma : List Text → Text
  | [] => []
  | [t] => t
  | t :: ts => t ++ ',' :: joinComma ts

mutual

/-- `json.dumps(value, sort_keys=True, separators=(",", ":"))`; `quote` encodes a string. -/
def dumps (quote : Text → Text) : Json → Text
  | .null => "null"
  | .bool true => "true"
  | .bool false => "false"
  | .int n => encodeInt n
  | .float x => x.text
  | .str t => quote t
  | .arr items => '[' :: (joinComma (dumpsItems quote items) ++ [']'])
  | .obj fields =>
    '{' :: (joinComma ((sortKeys (dumpsFields quote fields)).map Prod.snd) ++ ['}'])

def dumpsItems (quote : Text → Text) : List Json → List Text
  | [] => []
  | v :: vs => dumps quote v :: dumpsItems quote vs

/-- Each field under its key, encoded as `"key":value`. -/
def dumpsFields (quote : Text → Text) : List (Text × Json) → List (Text × Text)
  | [] => []
  | (k, v) :: fs => (k, quote k ++ ':' :: dumps quote v) :: dumpsFields quote fs

end

mutual

/-- `json.dumps(value, separators=(",", ":"))`: every object keeps the order of its fields. -/
def dumpsPlain (quote : Text → Text) : Json → Text
  | .null => "null"
  | .bool true => "true"
  | .bool false => "false"
  | .int n => encodeInt n
  | .float x => x.text
  | .str t => quote t
  | .arr items => '[' :: (joinComma (dumpsPlainItems quote items) ++ [']'])
  | .obj fields => '{' :: (joinComma (dumpsPlainFields quote fields) ++ ['}'])

def dumpsPlainItems (quote : Text → Text) : List Json → List Text
  | [] => []
  | v :: vs => dumpsPlain quote v :: dumpsPlainItems quote vs

def dumpsPlainFields (quote : Text → Text) : List (Text × Json) → List Text
  | [] => []
  | (k, v) :: fs => (quote k ++ ':' :: dumpsPlain quote v) :: dumpsPlainFields quote fs

end

mutual

/-- The value with the fields of every object in key order. -/
def sorted : Json → Json
  | .arr items => .arr (sortedItems items)
  | .obj fields => .obj (sortKeys (sortedFields fields))
  | v => v

def sortedItems : List Json → List Json
  | [] => []
  | v :: vs => sorted v :: sortedItems vs

def sortedFields : List (Text × Json) → List (Text × Json)
  | [] => []
  | (k, v) :: fs => (k, sorted v) :: sortedFields fs

end

theorem dumpsItems_eq_map (quote : Text → Text) (vs : List Json) :
    dumpsItems quote vs = vs.map (dumps quote) := by
  induction vs with
  | nil => rfl
  | cons v vs ih => rw [dumpsItems, ih, List.map_cons]

theorem dumpsFields_eq_map (quote : Text → Text) (fs : List (Text × Json)) :
    dumpsFields quote fs = fs.map fun f => (f.1, quote f.1 ++ ':' :: dumps quote f.2) := by
  induction fs with
  | nil => rfl
  | cons f fs ih => rw [dumpsFields, ih, List.map_cons]

theorem dumpsPlain_arr (quote : Text → Text) (vs : List Json) :
    dumpsPlain quote (.arr vs) = '[' :: (joinComma (vs.map (dumpsPlain quote)) ++ [']']) := by
  have h : dumpsPlainItems quote vs = vs.map (dumpsPlain quote) := by
    induction vs with
    | nil => rfl
    | cons v vs ih => rw [dumpsPlainItems, ih, List.map_cons]
  rw [dumpsPlain, h]

theorem dumpsPlain_obj (quote : Text → Text) (fs : List (Text × Json)) :
    dumpsPlain quote (.obj fs) = '{' :: (joinComma (fs.map fun f =>
      quote f.1 ++ ':' :: dumpsPlain quote f.2) ++ ['}']) := by
  have h : dumpsPlainFields quote fs =
      fs.map fun f => quote f.1 ++ ':' :: dumpsPlain quote f.2 := by
    induction fs with
    | nil => rfl
    | cons f fs ih => rw [dumpsPlainFields, ih, List.map_cons]
  rw [dumpsPlain, h]

theorem sortedItems_eq_map (vs : List Json) : sortedItems vs = vs.map sorted := by
  induction vs with
  | nil => rfl
  | cons v vs ih => rw [sortedItems, ih, List.map_cons]

theorem sortedFields_eq_map (fs : List (Text × Json)) :
    sortedFields fs = fs.map fun f => (f.1, f.2.sorted) := by
  induction fs with
  | nil => rfl
  | cons f fs ih => rw [sortedFields, ih, List.map_cons]

theorem sortKeys_map {α β : Type u} (f : Text → α → β) (fs : List (Text × α)) :
    sortKeys (fs.map fun p => (p.1, f p.1 p.2)) = (sortKeys fs).map fun p => (p.1, f p.1 p.2) := by
  symm
  apply List.map_insertionSort
  intro a _ b _
  rfl

/-- The encoding of an object, field by field in key order. -/
theorem dumps_obj (quote : Text → Text) (fs : List (Text × Json)) :
    dumps quote (.obj fs) = '{' :: (joinComma ((sortKeys fs).map fun f =>
      quote f.1 ++ ':' :: dumps quote f.2) ++ ['}']) := by
  rw [dumps, dumpsFields_eq_map, sortKeys_map fun k v => quote k ++ ':' :: dumps quote v,
    List.map_map]
  rfl

theorem dumps_arr (quote : Text → Text) (vs : List Json) :
    dumps quote (.arr vs) = '[' :: (joinComma (vs.map (dumps quote)) ++ [']']) := by
  rw [dumps, dumpsItems_eq_map]

/-! ## Sizes -/

theorem utf8Len_joinComma (ts : List Text) :
    utf8Len (joinComma ts) = (ts.map utf8Len).sum + (ts.length - 1) := by
  have hcomma : Char.utf8Size ',' = 1 := by decide
  match ts with
  | [] => rfl
  | [t] => simp [joinComma]
  | t :: u :: ts =>
    have ih := utf8Len_joinComma (u :: ts)
    simp only [joinComma, utf8Len_append, utf8Len_cons, hcomma, ih, List.map_cons, List.sum_cons,
      List.length_cons]
    omega

/-- The size of an object is a sum over its fields, in any order. -/
theorem utf8Len_dumps_obj (quote : Text → Text) (fs : List (Text × Json)) :
    utf8Len (dumps quote (.obj fs)) =
      (fs.map fun f => utf8Len (quote f.1) + 1 + utf8Len (dumps quote f.2)).sum +
        (fs.length - 1) + 2 := by
  have hopen : Char.utf8Size '{' = 1 := by decide
  have hclose : Char.utf8Size '}' = 1 := by decide
  have hcolon : Char.utf8Size ':' = 1 := by decide
  have hperm : (sortKeys fs).Perm fs := List.perm_insertionSort _ fs
  have hsum := (hperm.map fun f : Text × Json =>
    utf8Len (quote f.1) + 1 + utf8Len (dumps quote f.2)).sum_nat
  have hlen := hperm.length_eq
  have hmap : ((sortKeys fs).map fun f => quote f.1 ++ ':' :: dumps quote f.2).map utf8Len =
      (sortKeys fs).map fun f => utf8Len (quote f.1) + 1 + utf8Len (dumps quote f.2) := by
    rw [List.map_map]
    apply List.map_congr_left
    intro f _
    simp only [Function.comp, utf8Len_append, utf8Len_cons, hcolon]
    omega
  rw [dumps_obj]
  simp only [utf8Len_cons, utf8Len_append, utf8Len_nil, utf8Len_joinComma, hmap, hsum,
    List.length_map, hlen, hopen, hclose]
  omega

end Json

end BetterHindsight
