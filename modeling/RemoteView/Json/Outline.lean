import RemoteView.Json.Printer
import RemoteView.Text.Shown

/-! # Outlines of JSON values

The form in which messages show a value together with its kind: the name of the kind, and what the
value is made of. Strings stand in quotes, with escapes for what could not be read otherwise.
-/

namespace RemoteView.Json

/-- A character inside quotes. -/
def outlineChar (c : Char) : List Char :=
  match c with
  | '\x00' => ['\\', '0']
  | '\t' => ['\\', 't']
  | '\n' => ['\\', 'n']
  | '\r' => ['\\', 'r']
  | '"' => ['\\', '"']
  | '\\' => ['\\', '\\']
  | c =>
      if Text.isShown c then [c]
      else ['\\', 'u', '\x7b'] ++ Nat.toDigits 16 c.toNat ++ ['\x7d']

/-- A string in quotes. -/
def outlineText (text : String) : String :=
  "\"" ++ String.ofList (text.toList.flatMap outlineChar) ++ "\""

mutual
/-- The outline of a value. -/
def outline : Json → String
  | .null => "Null"
  | .bool flag => "Bool(" ++ (if flag then "true" else "false") ++ ")"
  | .number n => "Number(" ++ n.render ++ ")"
  | .string text => "String(" ++ outlineText text ++ ")"
  | .array items => "Array [" ++ String.intercalate ", " (outlineItems items) ++ "]"
  | .object members => "Object \x7b" ++ String.intercalate ", " (outlineMembers members) ++ "\x7d"

def outlineItems : List Json → List String
  | [] => []
  | item :: rest => item.outline :: outlineItems rest

def outlineMembers : List (String × Json) → List String
  | [] => []
  | (name, value) :: rest => (outlineText name ++ ": " ++ value.outline) :: outlineMembers rest
end

/-- The outline of a value that may be missing. -/
def outlineOption : Option Json → String
  | none => "None"
  | some value => "Some(" ++ value.outline ++ ")"

end RemoteView.Json
