import RemoteView.Json.Printer

/-! # CSS declarations

A map from property names to values, written as `name:value` entries between semicolons. Property
names are hyphenated, a list value stands for one entry per item, and whole numbers lose their
fraction.
-/

namespace RemoteView

/-- Property names and their values, in order. -/
abbrev Declarations := Assoc String Json

namespace Declarations

/-- A hyphen before every ASCII capital. -/
def markCapitals (name : List Char) : List Char :=
  name.flatMap fun c => if c.isUpper then ['-', c] else [c]

/-- A vendor name of one vendor comes without its leading hyphen. -/
def markVendor (name : List Char) : List Char :=
  if ['m', 's', '-'].isPrefixOf name then '-' :: name else name

/-- The CSS name of a property: capitals become small letters after a hyphen. -/
def hyphenate (name : String) : String :=
  String.ofList ((markVendor (markCapitals name.toList)).map Char.toLower)

/-- The digits of a double that is a whole number of magnitude below `limit`. -/
def wholeText? (limit : Nat) (x : Float) : Option String :=
  let sign := if Decimal.isNegative x then "-" else ""
  match Decimal.magnitude x with
  | .zero => some (sign ++ "0")
  | .finite value =>
      let (n, d) := (value.numerator, value.denominator)
      if n % d = 0 ∧ n / d < limit then some (sign ++ toString (n / d)) else none
  | _ => none

/-- From which magnitude on whole numbers keep their fraction: ten to the fifteenth. -/
def wholeLimit : Nat := 1000000000000000

def valueText : Json → String
  | .string text => text
  | .number (.float x) => (wholeText? wholeLimit x).getD (Number.float x).render
  | other => other.render

/-- The entries of one property: one for each item of a list, one for any other value. -/
def entriesOf (name : String) : Json → List String
  | .array items => items.map fun item => hyphenate name ++ ":" ++ valueText item
  | value => [hyphenate name ++ ":" ++ valueText value]

/-- All entries in order. -/
def entries (declarations : Declarations) : List String :=
  declarations.flatMap fun (name, value) => entriesOf name value

/-- The declarations as CSS text. -/
def render (declarations : Declarations) : String :=
  String.intercalate ";" declarations.entries

end Declarations

end RemoteView
