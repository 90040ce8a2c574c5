import BetterHindsight.Foundations.Text

/-! # The standard library the code calls

What the modelled code takes from Python's standard library and this development does not spell
out. Nothing is assumed of these functions beyond the laws among the fields of `Stdlib`; a theorem
that relies on more says what it needs. -/

namespace BetterHindsight
set_option autoImplicit false

/-- A Python `float`. A finite one is the rational number it stands for. -/
inductive PyFloat where
  | finite (q : ℚ)
  | posInf
  | negInf
  | nan
  deriving DecidableEq

/-- What `time.time()` returns: seconds since the epoch. -/
structure WallTime where
  seconds : ℚ
  nonneg : 0 ≤ seconds

-- The literals of a `datetime`'s fields, likewise.
instance instNeZeroYear : NeZero 10000 := ⟨by decide⟩
instance instNeZeroMonth : NeZero 13 := ⟨by decide⟩
instance instNeZeroDay : NeZero 32 := ⟨by decide⟩
instance instNeZeroHour : NeZero 24 := ⟨by decide⟩
instance instNeZeroMinute : NeZero 60 := ⟨by decide⟩
instance instNeZeroMicrosecond : NeZero 1000000 := ⟨by decide⟩

/-- A UTC `datetime` by its fields. -/
structure UtcDateTime where
  year : Fin 10000
  month : Fin 13
  day : Fin 32
  hour : Fin 24
  minute : Fin 60
  second : Fin 60
  microsecond : Fin 1000000

/-- `n` with `width` decimal digits. -/
def zeroPadded (width n : ℕ) : Text :=
  List.replicate (width - (Nat.toDigits 10 n).length) '0' ++ Nat.toDigits 10 n

/-- `value.isoformat(timespec="microseconds")` -/
def UtcDateTime.isoformat (d : UtcDateTime) : Text :=
  zeroPadded 4 d.year ++ '-' :: zeroPadded 2 d.month ++ '-' :: zeroPadded 2 d.day ++
    'T' :: zeroPadded 2 d.hour ++ ':' :: zeroPadded 2 d.minute ++ ':' :: zeroPadded 2 d.second ++
    '.' :: zeroPadded 6 d.microsecond ++ "+00:00".toList

/-- The parts of a URL that `urllib.parse.urlsplit` and its properties report. -/
structure SplitResult where
  scheme : Text
  netloc : Text
  path : Text
  query : Text
  fragment : Text
  hostname : Option Text
  port : Option ℕ
  username : Option Text
  password : Option Text

structure Stdlib where
  /-- `hashlib.sha256(data).hexdigest()` -/
  sha256 : List UInt8 → HexDigest
  /-- `str.isalnum` of one character -/
  isAlnum : Char → Bool
  /-- `str.isprintable` of one character -/
  isPrintable : Char → Bool
  /-- `str.lower` -/
  lower : Text → Text
  /-- `urlsplit` and its properties; `none` stands for `ValueError` -/
  urlsplit : Text → Option SplitResult
  /-- `urlunsplit((scheme, netloc, path, "", ""))` -/
  urlunsplit : Text → Text → Text → Text
  /-- `ipaddress.ip_address(text).compressed`; `none` stands for `ValueError` -/
  ipAddress : Text → Option Text
  /-- `text.encode("idna").decode("ascii")`; `none` stands for `UnicodeError` -/
  idna : Text → Option Text
  /-- `Path(value).parts`; the first part of an absolute path starts with a slash -/
  pathParts : Text → List Text
  /-- `str(Path(value))`; two paths are equal when their texts are -/
  pathText : Text → Text
  /-- `str(Path(value).resolve(strict=False))` -/
  resolve : Text → Text
  /-- whether `datetime.fromisoformat(text)` has a time zone; `none` stands for `ValueError` -/
  fromIsoformat : Text → Option Bool
  fromIsoformat_isoformat : ∀ d : UtcDateTime, fromIsoformat d.isoformat = some true
  /-- `a + b` on floats, rounding and overflow included -/
  addFloat : ℚ → ℚ → PyFloat
  addFloat_nonneg : ∀ {a b c : ℚ}, 0 ≤ a → 0 ≤ b → addFloat a b = .finite c → 0 ≤ c

/-- The digest of a text's UTF-8 encoding. -/
def Stdlib.sha256Text (lib : Stdlib) (t : Text) : HexDigest := lib.sha256 (encode t)

/-- No two of the given texts share a SHA-256 digest. -/
def Stdlib.CollisionFree (lib : Stdlib) (texts : Text → Prop) : Prop :=
  ∀ s t, texts s → texts t → lib.sha256Text s = lib.sha256Text t → s = t

/-! ## Fixed inputs -/

/-- The digest of 64 hexadecimal digits. -/
def HexDigest.ofNat (n : ℕ) : HexDigest where
  text := (List.range 64).map fun i => Nat.digitChar (n / 16 ^ (63 - i) % 16)
  isHex := by
    have hdigit : ∀ d < 16, isHexLower (Nat.digitChar d) = true := by decide
    have hall : ∀ i ∈ List.range 64, isHexLower (Nat.digitChar (n / 16 ^ (63 - i) % 16)) = true :=
      fun i _ => hdigit _ (Nat.mod_lt _ (by decide))
    simpa [BetterHindsight.isHex, List.all_map] using hall

/-- The library on ASCII text, with the digests and URLs that a run on fixed inputs needs. -/
def Stdlib.ofTables (digests : List (Text × ℕ)) (urls : List (Text × SplitResult)) : Stdlib where
  sha256 data := HexDigest.ofNat
    (((digests.find? fun entry => encode entry.1 = data).map Prod.snd).getD 0)
  isAlnum c := c.isAlphanum
  isPrintable c := 32 ≤ c.toNat && c.toNat < 127
  lower t := t.map Char.toLower
  urlsplit t := urls.lookup t
  urlunsplit scheme netloc path := scheme ++ "://".toList ++ netloc ++ path
  ipAddress _ := none
  idna t := some t
  pathParts t := if t.head? = some '/' then ['/'] :: (t.splitOn '/').filter (· ≠ [])
    else (t.splitOn '/').filter (· ≠ [])
  pathText t := t
  resolve t := t
  fromIsoformat _ := some true
  fromIsoformat_isoformat _ := rfl
  addFloat a b := .finite (a + b)
  addFloat_nonneg := by
    intro a b c ha hb h
    cases h
    exact add_nonneg ha hb

end BetterHindsight
