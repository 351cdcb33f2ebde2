import RemoteView.Expr.Basic
import RemoteView.FunctionId
import RemoteView.Path
import RemoteView.Style.Descriptor

/-! # Spines

A spine is the description of a user interface tree that the other side sends: texts, elements with
attributes and numbered children, and components with a content of their own.
-/

namespace RemoteView

/-- A listener of an element. -/
structure Listener where
  fid : FunctionId
  event : String
  handler : Expr

/-- The style of an element. -/
inductive Style where
  | inlined (declarations : Declarations)
  | rules (descriptors : List StyleDescriptor)

/-- A ref: what is evaluated when the element's handle is attached and detached, and the stable key
    under which the handle can be reached in between. -/
structure RefAttribute where
  key : Option String
  attach : Expr
  detach : Expr

/-- An attribute of an element. -/
inductive Attribute where
  | value (name : String) (value : Json)
  | listener (listener : Listener)
  | style (style : Style)
  | ref (declared : RefAttribute)

/-- A listener of a component on the window. Without a handler the event itself is sent. -/
structure WindowListener where
  fid : FunctionId
  event : String
  handler : Option Expr

/-- What a component reacts to besides the listeners of its content. -/
structure Behaviour where
  listeners : List WindowListener
  onMount : List Expr
  onUnmount : List Expr

/-- The description of a tree. -/
inductive Spine where
  | empty
  | text (text : String)
  | element (tag : String) (children : List (UInt32 × Spine)) (attributes : List Attribute)
  | component (id : UInt64) (name : String) (content : Spine) (behaviour : Behaviour)

instance : Inhabited Behaviour := ⟨⟨[], [], []⟩⟩

instance : Inhabited Spine := ⟨.empty⟩

/-- What a component renders and reacts to. -/
structure Payload where
  content : Spine
  behaviour : Behaviour
  deriving Inhabited

/-- The payload that renders nothing. -/
def Payload.empty : Payload := ⟨.empty, ⟨[], [], []⟩⟩

end RemoteView
