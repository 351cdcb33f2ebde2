import RemoteView.ControlledInput
import RemoteView.Host.Basic

/-! # Mounted trees

What a node has become on the host: elements with their handles, controlled inputs with their state,
and components with their instances.
-/

namespace RemoteView

/-- A mounted element without its children. -/
structure MountedElement where
  tag : String
  key : Option UInt32
  props : Props
  handle : ObjectId
  input : Option ControlledInput

/-- A mounted tree. -/
inductive Mounted where
  | empty
  | text (text : String)
  | element (node : MountedElement) (children : List Mounted)
  | component (identity : Instance) (child : Mounted)

instance : Inhabited Mounted := ⟨.empty⟩

namespace Mounted

/-- The key by which a tree is found among its siblings. -/
def key : Mounted → Option UInt32
  | .empty => none
  | .text _ => none
  | .element node _ => node.key
  | .component identity _ => identity.key

mutual
/-- The instances in a tree, outer ones before those inside them. -/
def instances : Mounted → List Instance
  | .empty => []
  | .text _ => []
  | .element _ children => childInstances children
  | .component identity child => identity :: instances child

def childInstances : List Mounted → List Instance
  | [] => []
  | child :: rest => instances child ++ childInstances rest
end

mutual
/-- The element that following child indices from a tree leads to. Components are passed through;
    among siblings the first one with a key is taken. -/
def find? (segments : List UInt32) : Mounted → Option MountedElement
  | .empty => none
  | .text _ => none
  | .component _ child => find? segments child
  | .element node children =>
      match segments with
      | [] => some node
      | index :: rest => findChild? index rest children

/-- The element that following child indices from the child with a key leads to. -/
def findChild? (index : UInt32) (rest : List UInt32) : List Mounted → Option MountedElement
  | [] => none
  | child :: others =>
      if child.key = some index then find? rest child else findChild? index rest others
end

mutual
/-- Change the state of the controlled input whose element has a handle. -/
def modifyInput (handle : ObjectId) (change : ControlledInput → ControlledInput) :
    Mounted → Mounted
  | .empty => .empty
  | .text content => .text content
  | .component identity child => .component identity (modifyInput handle change child)
  | .element node children =>
      let node :=
        if node.handle = handle then { node with input := node.input.map change }
        else node
      .element node (modifyInputs handle change children)

/-- Change the state of the controlled input whose element has a handle, in a list of trees. -/
def modifyInputs (handle : ObjectId) (change : ControlledInput → ControlledInput) :
    List Mounted → List Mounted
  | [] => []
  | child :: rest => modifyInput handle change child :: modifyInputs handle change rest
end

/-- The element with the value of its controlled input as its value property. -/
def withInputValue (node : MountedElement) : MountedElement :=
  match node.input with
  | none => node
  | some input =>
      { node with props := Assoc.insert valueProperty (.value (.string input.value)) node.props }

/-- Has the controlled input a value that is not the value property of its element? -/
def isStale (node : MountedElement) : Bool :=
  match node.input with
  | none => false
  | some input =>
      match node.props.value? valueProperty with
      | some value => value != .string input.value
      | none => true

mutual
/-- The tree with the values of all controlled inputs in the properties of their elements. -/
def refresh : Mounted → Mounted
  | .empty => .empty
  | .text content => .text content
  | .component identity child => .component identity (refresh child)
  | .element node children =>
      .element (if isStale node then withInputValue node else node)
        (refreshChildren children)

/-- The trees with the values of all controlled inputs in the properties of their elements. -/
def refreshChildren : List Mounted → List Mounted
  | [] => []
  | child :: rest => refresh child :: refreshChildren rest
end

mutual
/-- The elements that `refresh` changes, as they are afterwards. -/
def stale : Mounted → List MountedElement
  | .empty => []
  | .text _ => []
  | .component _ child => stale child
  | .element node children =>
      (if isStale node then [withInputValue node] else []) ++ staleChildren children

/-- The elements that `refreshChildren` changes, as they are afterwards. -/
def staleChildren : List Mounted → List MountedElement
  | [] => []
  | child :: rest => stale child ++ staleChildren rest
end

end Mounted

end RemoteView
