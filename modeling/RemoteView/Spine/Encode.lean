import RemoteView.Expr.Encode
import RemoteView.Spine.Basic

/-! # Writing spines

The JSON form of spines and of all their parts. Elements and components are written with their type,
children as pairs of an index and a spine, and nothing that may be left out is left out, except the
stable key of a ref that has none.
-/

namespace RemoteView

/-- The kind and the predicate of a condition. -/
def Condition.encode (condition : Condition) : Json :=
  let kind : UInt64 :=
    match condition.kind with
    | .media => 1
    | .supports => 2
  .array [.ofUInt64 kind, .string condition.predicate]

/-- The kind of a descriptor, its hash, and what it is made of. -/
def StyleDescriptor.encode : StyleDescriptor → Json
  | .rule hash conditions suffixes declarations =>
      .array [.ofUInt64 1, .string hash, .array (conditions.map Condition.encode),
        .array (suffixes.map .string), .object declarations]
  | .fontFace hash declarations => .array [.ofUInt64 5, .string hash, .object declarations]

/-- A list of descriptors, or the declarations of the element itself. -/
def Style.encode : Style → Json
  | .inlined declarations => .object declarations
  | .rules descriptors => .array (descriptors.map StyleDescriptor.encode)

/-- The function, the event and the handler of a listener. -/
def Listener.encode (listener : Listener) : Json :=
  .array [listener.fid.toJson, .string listener.event, listener.handler.encode]

/-- The members of a ref. -/
def RefAttribute.encode (declared : RefAttribute) : Json :=
  let key := (declared.key.map fun key => ("key", Json.string key)).toList
  .object (key ++ [("attach", declared.attach.encode), ("detach", declared.detach.encode)])

/-- The tag and the operands of an attribute. -/
def Attribute.encode : Attribute → Json
  | .value name written => .array [.string "AVAL", .string name, written]
  | .listener declared => .array [.string "AEVL", declared.encode]
  | .style declared => .array [.string "ASTY", declared.encode]
  | .ref declared => .array [.string "AREF", declared.encode]

/-- The function and the event of a window listener, and its handler if it has one. -/
def WindowListener.encode (listener : WindowListener) : Json :=
  .array ([listener.fid.toJson, .string listener.event] ++
    (listener.handler.map Expr.encode).toList)

/-- The members in which a component says what it reacts to. -/
def Behaviour.members (behaviour : Behaviour) : List (String × Json) :=
  [("eventListeners", .array (behaviour.listeners.map WindowListener.encode)),
    ("hooks", .object
      [("componentDidMount", .array (behaviour.onMount.map Expr.encode)),
        ("componentWillUnmount", .array (behaviour.onUnmount.map Expr.encode))])]

namespace Spine

mutual
def encode : Spine → Json
  | .empty => .null
  | .text content => .string content
  | .element tag children attributes =>
      .object [("type", .string "Node"), ("tag", .string tag),
        ("children", .array (encodeChildren children)),
        ("attributes", .array (attributes.map Attribute.encode))]
  | .component id name content behaviour =>
      .object [("type", .string "Component"), ("id", .ofUInt64 id), ("displayName", .string name),
        ("spine", .object (("spine", encode content) :: behaviour.members))]

/-- The pairs of indices and children. -/
def encodeChildren : List (UInt32 × Spine) → List Json
  | [] => []
  | (index, child) :: rest => .array [.ofUInt32 index, encode child] :: encodeChildren rest
end

end Spine

/-- The JSON form of what a component renders and reacts to. -/
def Payload.encode (payload : Payload) : Json :=
  .object (("spine", payload.content.encode) :: payload.behaviour.members)

end RemoteView
