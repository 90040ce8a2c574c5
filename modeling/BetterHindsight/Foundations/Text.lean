import Mathlib

/-! # Text as Python handles it

A Python `str` is the list of its code points. Only Unicode scalar values are represented: a
lone surrogate has no UTF-8 encoding, and every path modelled here rejects it on `encode`.

* `isSpace`, `strip`, `isBlank`, `deleteSpace`: the whitespace of `str.isspace` and of `\s`.
* `encode`, `utf8Len`: the UTF-8 encoding and its length, additive over concatenation.
* `HexDigest`: what `hashlib.sha256(..).hexdigest()` returns, 64 lowercase hexadecimal digits. -/

namespace BetterHindsight
set_option autoImplicit false

abbrev Text := List Char

instance : Coe String Text := ⟨String.toList⟩

-- A definition that compares texts or characters names these, and holds no proof of its own.
instance instLawfulBEqText : LawfulBEq Text := List.instLawfulBEq

instance instLawfulBEqOptionChar : LawfulBEq (Option Char) := Option.instLawfulBEq Char

/-! ## Whitespace -/

/-- The code points for which `str.isspace` holds. -/
def isSpace (c : Char) : Bool :=
  (0x09 ≤ c.toNat && c.toNat ≤ 0x0D) || (0x1C ≤ c.toNat && c.toNat ≤ 0x20) || c.toNat == 0x85 ||
  c.toNat == 0xA0 || c.toNat == 0x1680 || (0x2000 ≤ c.toNat && c.toNat ≤ 0x200A) ||
  c.toNat == 0x2028 || c.toNat == 0x2029 || c.toNat == 0x202F || c.toNat == 0x205F ||
  c.toNat == 0x3000

/-- `str.strip()`. -/
def strip (t : Text) : Text := ((t.dropWhile isSpace).reverse.dropWhile isSpace).reverse

/-- `not text.strip()`. -/
def isBlank (t : Text) : Bool := (strip t).isEmpty

/-- The text with every whitespace character removed. -/
def deleteSpace (t : Text) : Text := t.filter fun c => !isSpace c

theorem isBlank_iff {t : Text} : isBlank t = true ↔ ∀ c ∈ t, isSpace c = true := by
  rw [isBlank, List.isEmpty_iff, strip, List.reverse_eq_nil_iff, List.dropWhile_eq_nil_iff]
  constructor
  · intro h
    by_contra hc
    -- the first character that is not whitespace survives the inner `dropWhile`
    have hne : t.dropWhile isSpace ≠ [] := fun h0 => hc (List.dropWhile_eq_nil_iff.mp h0)
    have h1 := List.head_dropWhile_not isSpace hne
    have h2 := h _ (List.mem_reverse.mpr (List.head_mem hne))
    rw [h1] at h2
    simp at h2
  · intro h c hc
    exact h c ((List.dropWhile_sublist isSpace).subset (List.mem_reverse.mp hc))

theorem deleteSpace_eq_nil {t : Text} (h : ∀ c ∈ t, isSpace c = true) : deleteSpace t = [] := by
  rw [deleteSpace, List.filter_eq_nil_iff]
  intro c hc
  simp [h c hc]

@[simp] theorem deleteSpace_append (s t : Text) :
    deleteSpace (s ++ t) = deleteSpace s ++ deleteSpace t := by
  simp [deleteSpace]

@[simp] theorem deleteSpace_nil : deleteSpace [] = [] := rfl

/-! ## UTF-8 -/

/-- `text.encode("utf-8")`. -/
def encode (t : Text) : List UInt8 := t.flatMap String.utf8EncodeChar

/-- `len(text.encode("utf-8"))`. -/
def utf8Len (t : Text) : ℕ := (t.map Char.utf8Size).sum

theorem length_encode (t : Text) : (encode t).length = utf8Len t := by
  simp [encode, utf8Len, List.length_flatMap]

@[simp] theorem utf8Len_nil : utf8Len [] = 0 := rfl

@[simp] theorem utf8Len_cons (c : Char) (t : Text) : utf8Len (c :: t) = c.utf8Size + utf8Len t := by
  simp [utf8Len]

@[simp] theorem utf8Len_append (s t : Text) : utf8Len (s ++ t) = utf8Len s + utf8Len t := by
  simp [utf8Len]

/-! ## Hexadecimal digests -/

def isHexLower (c : Char) : Bool := ('0' ≤ c && c ≤ '9') || ('a' ≤ c && c ≤ 'f')

/-- `re.fullmatch(r"[0-9a-f]{n}", text)`. -/
def isHex (n : ℕ) (t : Text) : Bool := t.length == n && t.all isHexLower

structure HexDigest where
  text : Text
  isHex : isHex 64 text = true

theorem HexDigest.ext {a b : HexDigest} (h : a.text = b.text) : a = b := by
  cases a
  cases b
  subst h
  rfl

theorem HexDigest.ne_nil (d : HexDigest) : d.text ≠ [] := by
  intro h
  have := d.isHex
  rw [h] at this
  exact absurd this (by decide)

end BetterHindsight
