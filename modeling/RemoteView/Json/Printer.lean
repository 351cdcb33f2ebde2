import RemoteView.Decimal.Shortest
import RemoteView.Json.Basic

/-! # JSON text

The compact text of a JSON value: no blanks, members in order, and in strings only the quote, the
backslash and the control characters below the blank are escaped.
-/

namespace RemoteView

namespace Decimal

/-- How a double is written: the exponents that are written positionally (from `least` on, below
    `limit`), what follows a whole number, and the texts of the special values. -/
structure Style where
  least : Int
  limit : Int
  wholeSuffix : String
  exponentMark : String
  plusSign : String
  zero : String
  special : String

namespace Style

/-- The digits with the point among, before or after them. -/
def positional (style : Style) (d : Digits) : String :=
  let count := d.digits.length
  if d.point ≤ 0 then
    "0." ++ String.ofList (List.replicate (-d.point).toNat '0' ++ d.digits)
  else if d.point < count then
    String.ofList (d.digits.take d.point.toNat ++ '.' :: d.digits.drop d.point.toNat)
  else
    String.ofList (d.digits ++ List.replicate (d.point - count).toNat '0') ++ style.wholeSuffix

/-- One digit, a point and the other digits if there are any, and the exponent with its sign. -/
def scientific (style : Style) (d : Digits) : String :=
  let exponent := d.point - 1
  let sign := if exponent < 0 then "-" else style.plusSign
  let significand :=
    match d.digits with
    | first :: second :: rest => String.ofList (first :: '.' :: second :: rest)
    | digits => String.ofList digits
  significand ++ style.exponentMark ++ sign ++ toString exponent.natAbs

/-- The text of a decimal. -/
def render (style : Style) (d : Digits) : String :=
  if style.least ≤ d.point - 1 ∧ d.point - 1 < style.limit then style.positional d
  else style.scientific d

/-- The text of a double: its sign and the shortest digits that read back. -/
def renderFloat (style : Style) (x : Float) : String :=
  let sign := if isNegative x then "-" else ""
  match magnitude x with
  | .zero => sign ++ style.zero
  | .finite value => sign ++ style.render value.shortest
  | .infinite => style.special
  | .notANumber => style.special

end Style

end Decimal

namespace Number

/-- Doubles are positional from `1e-5` on and below `1e16`, always with a point, and scientific with
    a signed exponent elsewhere. -/
def floatStyle : Decimal.Style :=
  { least := -5, limit := 16, wholeSuffix := ".0", exponentMark := "e", plusSign := "+",
    zero := "0.0", special := "null" }

/-- The text of a number. -/
def render : Number → String
  | .integer value _ => toString value
  | .float value => floatStyle.renderFloat value

end Number

namespace Json

/-- The written form of one character of a string. -/
def escapeChar (c : Char) : List Char :=
  match c with
  | '"' => ['\\', '"']
  | '\\' => ['\\', '\\']
  | '\x08' => ['\\', 'b']
  | '\x0c' => ['\\', 'f']
  | '\n' => ['\\', 'n']
  | '\r' => ['\\', 'r']
  | '\t' => ['\\', 't']
  | c =>
      if c.toNat < 0x20 then
        ['\\', 'u', '0', '0', Nat.digitChar (c.toNat / 16), Nat.digitChar (c.toNat % 16)]
      else [c]

def quote (text : String) : String :=
  "\"" ++ String.ofList (text.toList.flatMap escapeChar) ++ "\""

mutual
/-- The compact text of a value. -/
def render : Json → String
  | .null => "null"
  | .bool true => "true"
  | .bool false => "false"
  | .number n => n.render
  | .string text => quote text
  | .array items => "[" ++ String.intercalate "," (renderItems items) ++ "]"
  | .object members => "\x7b" ++ String.intercalate "," (renderMembers members) ++ "\x7d"

/-- The texts of the items. -/
def renderItems : List Json → List String
  | [] => []
  | item :: rest => item.render :: renderItems rest

/-- The texts of the members, each with its name. -/
def renderMembers : List (String × Json) → List String
  | [] => []
  | (name, value) :: rest => (quote name ++ ":" ++ value.render) :: renderMembers rest
end

def byteLength (value : Json) : Nat := value.render.utf8ByteSize

end Json

end RemoteView
