import RemoteView.Numbered
import RemoteView.Value.Basic
import RemoteView.Text.Natural

/-! # Host objects

The objects that handler expressions can reach: the handles of mounted elements, native events and
the global window. Each keeps a record of the methods called on it.
-/

namespace RemoteView

/-- The handle of an element. -/
structure ElementObject where
  tag : String
  attributes : Assoc String Json
  invoked : List String

/-- A native event. -/
structure EventObject where
  kind : String
  target : Option ObjectId
  detail : Assoc String Json
  invoked : List String

/-- The global window. -/
structure WindowObject where
  properties : Assoc String Json
  calls : List (String × List Json)

inductive HostObject where
  | element (object : ElementObject)
  | event (object : EventObject)
  | window (object : WindowObject)

abbrev Objects := Numbered HostObject

namespace ElementObject

/-- The handle with one attribute written. -/
def setAttribute (name : String) (value : Json) (object : ElementObject) : ElementObject :=
  { object with attributes := Assoc.insert name value object.attributes }

end ElementObject

def EventObject.defaultPrevented (object : EventObject) : Bool :=
  object.invoked.contains "preventDefault"

namespace HostObject

/-- A member of an object. The tag name and the kind and target of an event are members too. -/
def member (key : String) : HostObject → Value
  | .element object =>
      if key = "tagName" then .ofString object.tag.toUpper
      else .ofJson? (Assoc.get? key object.attributes)
  | .event object =>
      if key = "type" then .ofString object.kind
      else if key = "target" then
        match object.target with
        | some target => .host target
        | none => .absent
      else .ofJson? (Assoc.get? key object.detail)
  | .window object => .ofJson? (Assoc.get? key object.properties)

/-- What an object looks like in JSON. -/
def describe : HostObject → Json
  | .element object =>
      .object [("tagName", .string object.tag.toUpper), ("attributes", .object object.attributes)]
  | .event object => .object (Assoc.insert "type" (.string object.kind) object.detail)
  | .window _ => .object [("object", .string "window")]

end HostObject

namespace Objects

/-- The handle with a number, if the object is one. -/
def element? (objects : Objects) (id : ObjectId) : Option ElementObject :=
  match objects.get? id with
  | some (.element object) => some object
  | _ => none

/-- The window with a number, if the object is one. -/
def window? (objects : Objects) (id : ObjectId) : Option WindowObject :=
  match objects.get? id with
  | some (.window object) => some object
  | _ => none

/-- Change a handle. -/
def modifyElement (objects : Objects) (id : ObjectId) (change : ElementObject → ElementObject) :
    Objects :=
  match objects.element? id with
  | some object => objects.put id (.element (change object))
  | none => objects

/-- What the object with a number looks like in JSON. -/
def describe (objects : Objects) (id : ObjectId) : Json :=
  match objects.get? id with
  | some object => object.describe
  | none => .null

end Objects

namespace Value

mutual
/-- The JSON value that a value is sent as. -/
def toJson (objects : Objects) : Value → Json
  | .absent => .null
  | .json value => value
  | .tuple items => .array (toJsons objects items)
  | .host object => objects.describe object
  | .eventHandler record => record.toJson
  | .refHandler record => record.toJson

def toJsons (objects : Objects) : List Value → List Json
  | [] => []
  | item :: rest => item.toJson objects :: toJsons objects rest
end

/-- The action that a value asks for: its JSON value, if it counts as true. -/
def action? (objects : Objects) (value : Value) : Option Json :=
  if value.isTruthy then some (value.toJson objects) else none

/-- The position in a list that a member name stands for. -/
def position? (key : String) : Option Nat := Text.natural? UInt64.size key

/-- A member of a value. What has no such member yields no value. -/
def member (objects : Objects) (key : String) : Value → Value
  | .host object =>
      match objects.get? object with
      | some object => object.member key
      | none => .absent
  | .json (.object members) => .ofJson? (Assoc.get? key members)
  | .json (.array items) => .ofJson? ((position? key).bind fun index => items[index]?)
  | .tuple items => ((position? key).bind fun index => items[index]?).getD .absent
  | _ => .absent

end Value

namespace ElementObject

/-- A method call on a handle. Attributes can be read and written; other methods are only recorded.
-/
def invoke (objects : Objects) (method : String) (arguments : List Value) (object : ElementObject) :
    Value × ElementObject :=
  let object := { object with invoked := object.invoked ++ [method] }
  match method, arguments with
  | "getAttribute", name :: _ =>
      (.ofJson? (name.text?.bind fun name => Assoc.get? name object.attributes), object)
  | "setAttribute", name :: value :: _ =>
      match name.text? with
      | some name => (.absent, object.setAttribute name (value.toJson objects))
      | none => (.absent, object)
  | _, _ => (.absent, object)

end ElementObject

namespace HostObject

/-- A method call. Events and the window record it and answer nothing. -/
def invoke (objects : Objects) (method : String) (arguments : List Value) :
    HostObject → Value × HostObject
  | .element object =>
      let (value, object) := object.invoke objects method arguments
      (value, .element object)
  | .event object => (.absent, .event { object with invoked := object.invoked ++ [method] })
  | .window object =>
      let call := (method, Value.toJsons objects arguments)
      (.absent, .window { object with calls := object.calls ++ [call] })

end HostObject

namespace Value

/-- A method call on a value; only host objects have methods. -/
def invoke (method : String) (arguments : List Value) : Value → StateM Objects Value
  | .host id => do
      let objects ← get
      match objects.get? id with
      | some object =>
          let (value, object) := object.invoke objects method arguments
          set (objects.put id object)
          return value
      | none => return .absent
  | _ => return .absent

end Value

end RemoteView
