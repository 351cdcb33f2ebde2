import RemoteView.Expr.Decode
import RemoteView.Spine.Basic
import RemoteView.Spine.Error

/-! # Reading attributes

The parts of a spine that hold no further nodes: attributes with their styles, listeners and refs,
and the listeners and hooks of components. None of them depends on where the node stands.
-/

namespace RemoteView

/-- Reading a part of a node. -/
abbrev Reading (α : Type) := Except SpineFault α

namespace Reading

/-- What an optional reading found, or the fault that a part is malformed. -/
def expect {α : Type} (part : SpinePart) : Option α → Reading α
  | some value => .ok value
  | none => .error (.malformed part)

/-- A handler expression. -/
def expr (raw : Json) : Reading Expr :=
  match Expr.decode raw with
  | .ok e => .ok e
  | .error error => .error (.expression error)

def text (part : SpinePart) (raw : Json) : Reading String := expect part raw.text?

/-- A function identity. -/
def functionId (raw : Json) : Reading FunctionId := expect .functionId (FunctionId.ofJson? raw)

def declarations (raw : Json) : Reading Declarations := expect .styleDeclarations raw.members?

/-- A condition. Every kind but the first tests for support. -/
def condition (raw : Json) : Reading Condition :=
  match raw with
  | .array [kind, predicate] => do
      let predicate ← text .conditionPredicate predicate
      return ⟨if kind.toUInt64? = some 1 then .media else .supports, predicate⟩
  | _ => .error (.malformed .styleCondition)

/-- A hash: a string, or a number by its text. -/
def hash : Json → Reading String
  | .string text => .ok text
  | .number n => .ok n.render
  | _ => .error (.malformed .styleHash)

/-- A style descriptor: kind 1 is a rule and kind 5 a font face. -/
def descriptor (raw : Json) : Reading StyleDescriptor :=
  match raw with
  | .array (kind :: rawHash :: fields) => do
      let hash ← hash rawHash
      match kind.toUInt64? with
      | some 1 =>
          match fields with
          | [conditions, suffixes, body] => do
              let conditions ← expect .styleConditions conditions.items?
              let conditions ← conditions.mapM condition
              let suffixes ← expect .styleSuffixes suffixes.items?
              let suffixes ← suffixes.mapM (text .styleSuffix)
              let body ← declarations body
              return .rule hash conditions suffixes body
          | _ => .error (.malformed .styleFields)
      | some 5 =>
          match fields with
          | [body] => do
              let body ← declarations body
              return .fontFace hash body
          | _ => .error (.malformed .styleFields)
      | _ => .error (.unknownStyleKind kind)
  | _ => .error (.malformed .styleDescriptor)

/-- A style: a list of descriptors, or declarations of the element itself. -/
def style : Json → Reading Style
  | .array descriptors => do
      let descriptors ← descriptors.mapM descriptor
      return .rules descriptors
  | .object members => .ok (.inlined members)
  | _ => .error (.malformed .style)

/-- The stable key of a ref: absent, null, a string, or a number by its text. -/
def refKey : Option Json → Reading (Option String)
  | none => .ok none
  | some .null => .ok none
  | some (.string text) => .ok (some text)
  | some (.number n) => .ok (some n.render)
  | some _ => .error (.malformed .refKey)

def ref (raw : Json) : Reading RefAttribute := do
  let key ← refKey (raw.get? "key")
  let attach ← expr ((raw.get? "attach").getD .null)
  let detach ← expr ((raw.get? "detach").getD .null)
  return ⟨key, attach, detach⟩

/-- A listener of an element. -/
def listener (raw : Json) : Reading Listener :=
  match raw with
  | .array [fid, event, handler] => do
      let fid ← functionId fid
      let event ← text .listenerEvent event
      let handler ← expr handler
      return ⟨fid, event, handler⟩
  | _ => .error (.malformed .eventListener)

/-- The operand at a place after the tag; a missing one counts as null. -/
def operand (place : Nat) (operands : List Json) : Json := operands[place]?.getD .null

def nodeAttribute (raw : Json) : Reading Attribute :=
  match raw with
  | .array (tag :: operands) => do
      let tag ← text .attributeTag tag
      if tag = "AVAL" then do
        let name ← text .attributeName (operand 0 operands)
        return .value name (operand 1 operands)
      else if tag = "AEVL" then do
        let listener ← listener (operand 0 operands)
        return .listener listener
      else if tag = "ASTY" then do
        let style ← style (operand 0 operands)
        return .style style
      else if tag = "AREF" then do
        let declared ← ref (operand 0 operands)
        return .ref declared
      else .error (.unknownAttribute tag)
  | _ => .error (.malformed .attribute)

/-- A list that may be missing or null. -/
def optionalItems (part : SpinePart) : Option Json → Reading (List Json)
  | none => .ok []
  | some .null => .ok []
  | some (.array items) => .ok items
  | some _ => .error (.malformed part)

/-- A window listener, with or without a handler. -/
def windowListener (raw : Json) : Reading WindowListener :=
  match raw with
  | .array [fid, event] => do
      let fid ← functionId fid
      let event ← text .listenerEvent event
      return ⟨fid, event, none⟩
  | .array [fid, event, handler] => do
      let fid ← functionId fid
      let event ← text .listenerEvent event
      let handler ← expr handler
      return ⟨fid, event, some handler⟩
  | _ => .error (.malformed .componentListener)

/-- A list of hooks under the first of two names that is there. -/
def hooks (name alternative : String) (members : Option Json) : Reading (List Expr) :=
  match members.bind fun hooks => (hooks.get? name).or (hooks.get? alternative) with
  | none => .ok []
  | some (.array items) => items.mapM expr
  | some _ => .error (.malformed .hookList)

/-- What a component reacts to. -/
def behaviour (raw : Json) : Reading Behaviour := do
  let listeners ← optionalItems .componentListeners (raw.get? "eventListeners")
  let listeners ← listeners.mapM windowListener
  let onMount ← hooks "componentDidMount" "onMount" (raw.get? "hooks")
  let onUnmount ← hooks "componentWillUnmount" "onUnmount" (raw.get? "hooks")
  return ⟨listeners, onMount, onUnmount⟩

end Reading

end RemoteView
