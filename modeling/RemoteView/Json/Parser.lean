import RemoteView.Json.Token

/-! # Reading JSON

Tokens are read by a machine with a stack of the arrays and objects that are still open. A name that
an object has already keeps its place and takes the new value. Text that opens more than
`depthLimit` arrays and objects inside each other is refused.
-/

namespace RemoteView.Json

namespace Parser

/-- An array or object that is still open. -/
inductive Frame where
  /-- The items so far, last first. -/
  | array (items : List Json)
  /-- The members so far, last first, and the name whose value comes next. -/
  | object (members : List (String × Json)) (name : String)

/-- What may come next. -/
inductive Expect where
  /-- A value. -/
  | value
  /-- A value, or the end of the array just opened. -/
  | firstItem
  /-- A name, for an object with these members. -/
  | name (members : List (String × Json))
  /-- A name, or the end of the object just opened. -/
  | firstName
  /-- The colon after a name. -/
  | colon (members : List (String × Json)) (name : String)
  /-- A comma or the end of what is open, after this value. -/
  | next (value : Json)

/-- The machine between two tokens. -/
structure State where
  stack : List Frame
  expect : Expect

/-- Before the first token. -/
def start : State := ⟨[], .value⟩

/-- Open an array or object below the current value. -/
def State.openBelow? (depthLimit : Nat) (state : State) (expect : Expect) : Option State :=
  if state.stack.length < depthLimit then some ⟨state.stack, expect⟩ else none

/-- A token where a value may start. The frame of a new container is pushed when its first part has
    been read, so the stack counts one container less than are open. -/
def valueStep? (depthLimit : Nat) (state : State) : Token → Option State
  | .scalar value => some ⟨state.stack, .next value⟩
  | .string text => some ⟨state.stack, .next (.string text)⟩
  | .openArray => state.openBelow? depthLimit .firstItem
  | .openObject => state.openBelow? depthLimit .firstName
  | _ => none

def step? (depthLimit : Nat) (state : State) (token : Token) : Option State :=
  match state.expect, token with
  | .value, token => valueStep? depthLimit state token
  | .firstItem, .closeArray => some ⟨state.stack, .next (.array [])⟩
  | .firstItem, token =>
      valueStep? depthLimit { state with stack := .array [] :: state.stack } token
  | .firstName, .closeObject => some ⟨state.stack, .next (.object [])⟩
  | .firstName, .string name => some ⟨state.stack, .colon [] name⟩
  | .name members, .string name => some ⟨state.stack, .colon members name⟩
  | .colon members name, .colon => some ⟨.object members name :: state.stack, .value⟩
  | .next value, .comma =>
      match state.stack with
      | .array items :: outer => some ⟨.array (value :: items) :: outer, .value⟩
      | .object members name :: outer => some ⟨outer, .name ((name, value) :: members)⟩
      | [] => none
  | .next value, .closeArray =>
      match state.stack with
      | .array items :: outer => some ⟨outer, .next (.array (value :: items).reverse)⟩
      | _ => none
  | .next value, .closeObject =>
      match state.stack with
      | .object members name :: outer =>
          some ⟨outer, .next (.object (Assoc.ofList ((name, value) :: members).reverse))⟩
      | _ => none
  | _, _ => none

/-- The value read, once nothing is open. -/
def State.result? : State → Option Json
  | ⟨[], .next value⟩ => some value
  | _ => none

end Parser

/-- How deep arrays and objects may be nested in text from outside. -/
def defaultDepthLimit : Nat := 127

/-- The value of a text, if the whole text is the text of one value. -/
def parse? (text : String) (depthLimit : Nat := defaultDepthLimit) : Option Json := do
  let tokens ← Token.readAll? [] text.toList
  let final ← tokens.foldlM (Parser.step? depthLimit) Parser.start
  final.result?

/-- The value of a text given as UTF-8 bytes. -/
def parseBytes? (bytes : List UInt8) : Option Json := do
  let text ← String.fromUTF8? ⟨bytes.toArray⟩
  parse? text

end RemoteView.Json
