import BetterHindsight.Foundations.Regex
import BetterHindsight.Stdlib

/-! # Redaction

`redaction.py`: the five credential patterns and `redact_sensitive_text`, which replaces their
matches one pattern after the other. -/

namespace BetterHindsight
set_option autoImplicit false

def REDACTION_MARKER : Text := "[REDACTED]"

/-! ## Characters of the patterns -/

/-- The lower case that `re.IGNORECASE` compares with, where it is an ASCII letter. Four other
characters count as cased forms of `i`, `k` and `s`. -/
def foldCase (c : Char) : Char :=
  if 'A' ≤ c ∧ c ≤ 'Z' then c.toLower
  else if c.toNat = 0x130 ∨ c.toNat = 0x131 then 'i'
  else if c.toNat = 0x212A then 'k'
  else if c.toNat = 0x17F then 's'
  else c

def isAsciiAlnum (c : Char) : Bool :=
  ('0' ≤ c && c ≤ '9') || ('A' ≤ c && c ≤ 'Z') || ('a' ≤ c && c ≤ 'z')

def isBlankChar (c : Char) : Bool := c == ' ' || c == '\t'

def isQuoteChar (c : Char) : Bool := c == '"' || c == '\''

namespace Redaction

open Regex

/-- A literal under `re.IGNORECASE`. -/
def litIgnoreCase : Text → Regex
  | [] => eps
  | c :: t => seq (chr fun d => foldCase d == foldCase c) (litIgnoreCase t)

def blanks : Regex := many true (chr isBlankChar)

/-- `\w` -/
def isWord (lib : Stdlib) (c : Char) : Bool := lib.isAlnum c || c == '_'

/-- `\b` -/
def wordBoundary (lib : Stdlib) : Regex :=
  look fun before after => before.any (isWord lib) != after.any (isWord lib)

/-- The named group of each pattern that its replacement keeps. -/
def keptGroup : ℕ := 0

def quoteGroup : ℕ := 1

/-! ## The patterns -/

def isLabelChar (c : Char) : Bool := ('A' ≤ c && c ≤ 'Z') || ('0' ≤ c && c ≤ '9')

def PRIVATE_KEY_PATTERN : Regex :=
  seq (lit "-----BEGIN ")
    (seq (group keptGroup
      (seq (opt (seq (chr isLabelChar)
        (seq (many true (chr fun c => isLabelChar c || c == ' ' || c == '-')) (lit " "))))
        (lit "PRIVATE KEY")))
    (seq (lit "-----")
    (seq (many false (chr fun _ => true))
    (seq (lit "-----END ") (seq (backref keptGroup) (lit "-----"))))))

def AUTHORIZATION_HEADER_PATTERN (lib : Stdlib) : Regex :=
  seq (group keptGroup
      (seq (wordBoundary lib) (seq (litIgnoreCase "authorization")
        (seq blanks (seq (lit ":") blanks)))))
    (atLeast 1 (chr fun c => c != '\r' && c != '\n'))

def isTokenChar (c : Char) : Bool := isAsciiAlnum (foldCase c) || "._~+/=-".toList.contains c

def BEARER_TOKEN_PATTERN (lib : Stdlib) : Regex :=
  seq (group keptGroup
      (seq (wordBoundary lib) (seq (litIgnoreCase "bearer") (atLeast 1 (chr isBlankChar)))))
    (atLeast 8 (chr isTokenChar))

def isKeyChar (c : Char) : Bool := !isSpace c && !"\"'`,;\x7d]".toList.contains c

def API_KEY_PATTERN (lib : Stdlib) : Regex :=
  seq (group keptGroup
      (seq (look fun before _ => !before.any fun c => isAsciiAlnum (foldCase c))
      (seq (litIgnoreCase "api")
      (seq (opt (chr fun c => c == '-' || c == '_' || c == ' '))
      (seq (litIgnoreCase "key")
      (seq (wordBoundary lib)
      (seq (opt (chr isQuoteChar))
      (seq blanks
      (seq (chr fun c => c == '=' || c == ':') blanks)))))))))
    (seq (group quoteGroup (opt (chr isQuoteChar)))
    (seq (atLeast 4 (chr isKeyChar)) (backref quoteGroup)))

def URL_USERINFO_PATTERN (lib : Stdlib) : Regex :=
  seq (group keptGroup
      (seq (wordBoundary lib)
      (seq (litIgnoreCase "http") (seq (opt (litIgnoreCase "s")) (lit "://")))))
    (seq (atLeast 1 (chr fun c => !isSpace c && c != '/' && c != '@'))
    (seq (opt (seq (lit ":") (many true (chr fun c => !isSpace c && c != '/' && c != '@'))))
      (lit "@")))

end Redaction

open Redaction

/-- Replaces narrow, high-confidence credential forms with one fixed marker. -/
def redactSensitiveText (lib : Stdlib) (text : Text) : Text :=
  let redacted := PRIVATE_KEY_PATTERN.sub (fun _ => REDACTION_MARKER) text
  let redacted := (AUTHORIZATION_HEADER_PATTERN lib).sub
    (fun m => m.group keptGroup ++ REDACTION_MARKER) redacted
  let redacted := (BEARER_TOKEN_PATTERN lib).sub
    (fun m => m.group keptGroup ++ REDACTION_MARKER) redacted
  let redacted := (API_KEY_PATTERN lib).sub
    (fun m => m.group keptGroup ++ m.group quoteGroup ++ REDACTION_MARKER ++ m.group quoteGroup)
    redacted
  (URL_USERINFO_PATTERN lib).sub (fun m => m.group keptGroup ++ REDACTION_MARKER ++ "@".toList)
    redacted

end BetterHindsight
