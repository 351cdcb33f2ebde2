import RemoteView.Callback
import RemoteView.Spine.Basic
import RemoteView.Text.Capital

/-! # Properties of rendered elements

The attributes of a node become the properties of a host element. A later attribute that writes the
same property takes the place of the earlier one.
-/

namespace RemoteView

/-- The value of a property. -/
inductive Property where
  | value (value : Json)
  | className (classes : String)
  | style (declarations : Declarations)
  | listener (callback : Callback)
  | ref (callback : RefId)

/-- Properties by name, in the order in which they were first written. -/
abbrev Props := Assoc String Property

namespace Property

/-- Would the host see no difference between two values? Callbacks are compared by identity. -/
def same : Property → Property → Bool
  | .value a, .value b => a == b
  | .className a, .className b => a == b
  | .style a, .style b => Json.object a == Json.object b
  | .listener a, .listener b => a == b
  | .ref a, .ref b => a == b
  | _, _ => false

def value? : Property → Option Json
  | .value json => some json
  | _ => none

def listener? : Property → Option Callback
  | .listener callback => some callback
  | _ => none

/-- The callback of a ref. -/
def ref? : Property → Option RefId
  | .ref callback => some callback
  | _ => none

/-- What is written into the attributes of the handle; callbacks are not. -/
def attribute? : Property → Option Json
  | .value json => some json
  | .className classes => some (.string classes)
  | .style declarations => some (.string declarations.render)
  | .listener _ => none
  | .ref _ => none

end Property

/-- The property that holds the listener for an event: the name after `on`, with a capital. -/
def listenerProperty (event : String) : String :=
  match event.toList with
  | [] => "on"
  | first :: rest => "on" ++ String.ofList (Text.capital first ++ rest)

def refProperty : String := "ref"

def classProperty : String := "className"

/-- The name of the property with the element's own declarations. -/
def styleProperty : String := "style"

/-- The name of the property with the value of an input. -/
def valueProperty : String := "value"

/-- The name of the property with the change listener of an input. -/
def changeProperty : String := "onChange"

/-- The property that an attribute writes, for a node at a position in a context. -/
def Attribute.property (context : ContextId) (path : Path) : Attribute → String × Property
  | .value name json => (name, .value json)
  | .listener declared =>
      (listenerProperty declared.event, .listener (.listener ⟨context, path, declared.fid⟩))
  | .style (.rules descriptors) =>
      (classProperty, .className (StyleDescriptor.classList descriptors))
  | .style (.inlined declarations) => (styleProperty, .style declarations)
  | .ref _ => (refProperty, .ref ⟨context, path⟩)

namespace Props

def ofAttributes (context : ContextId) (path : Path) (attributes : List Attribute) : Props :=
  Assoc.ofList (attributes.map (Attribute.property context path))

/-- The ref of an element. -/
def ref? (props : Props) : Option RefId := (Assoc.get? refProperty props).bind Property.ref?

/-- The listener stored under a property name. -/
def listener? (name : String) (props : Props) : Option Callback :=
  (Assoc.get? name props).bind Property.listener?

/-- The plain value stored under a property name. -/
def value? (name : String) (props : Props) : Option Json :=
  (Assoc.get? name props).bind Property.value?

/-- The attributes that a handle with these properties has. -/
def attributes (props : Props) : Assoc String Json :=
  props.filterMap fun (name, property) => property.attribute?.map fun value => (name, value)

end Props

end RemoteView
