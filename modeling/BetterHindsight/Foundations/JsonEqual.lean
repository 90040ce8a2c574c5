import BetterHindsight.Foundations.Json

/-! # Equality of decoded values

`==` on what `json.loads` returns: numbers are compared by their value, whatever their type, and
dictionaries without their order. How a float compares is a parameter.

* `pyEq`: the comparison.
* `pyEq_empty`: what is equal to the empty list. -/

namespace BetterHindsight
set_option autoImplicit false

/-- How a float compares with an integer and with another float. -/
structure FloatEquality where
  eqInt : FloatText → ℤ → Bool
  eqFloat : FloatText → FloatText → Bool

namespace Json

/-- `int(b)` -/
def boolInt (b : Bool) : ℤ := if b then 1 else 0

mutual

/-- `a == b` -/
def pyEq (floats : FloatEquality) : Json → Json → Bool
  | .null, .null => true
  | .bool a, .bool b => a == b
  | .bool a, .int n => boolInt a == n
  | .int n, .bool b => n == boolInt b
  | .int m, .int n => m == n
  | .bool a, .float y => floats.eqInt y (boolInt a)
  | .int m, .float y => floats.eqInt y m
  | .float x, .bool b => floats.eqInt x (boolInt b)
  | .float x, .int n => floats.eqInt x n
  | .float x, .float y => floats.eqFloat x y
  | .str s, .str t => s == t
  | .arr items, .arr others => pyEqItems floats items others
  | .obj fields, .obj others => fields.length == others.length && pyEqFields floats fields others
  | _, _ => false

def pyEqItems (floats : FloatEquality) : List Json → List Json → Bool
  | [], [] => true
  | item :: items, other :: others => pyEq floats item other && pyEqItems floats items others
  | _, _ => false

/-- Every field has an equal one of its key among the others. -/
def pyEqFields (floats : FloatEquality) : List (Text × Json) → List (Text × Json) → Bool
  | [], _ => true
  | field :: fields, others =>
    (match others.lookup field.1 with
      | some other => pyEq floats field.2 other
      | none => false) && pyEqFields floats fields others

end

theorem pyEq_empty {floats : FloatEquality} {value : Json} :
    pyEq floats value (.arr []) = true ↔ value = .arr [] := by
  cases value with
  | arr items =>
    cases items with
    | nil => simp [pyEq, pyEqItems]
    | cons item items => simp [pyEq, pyEqItems]
  | _ => simp [pyEq]

end Json

end BetterHindsight
