import RemoteView.Host.Object
import RemoteView.Property

/-! # Controlled inputs

The value of an input belongs both to the other side, which pushes values, and to the user, who
types. A controlled input keeps the value of its own, follows every change event, and takes over
each pushed value. The element it renders carries this value and a change callback of its own; the
listener that was pushed is called after the value has changed.
-/

namespace RemoteView

structure ControlledInput where
  value : String
  forwardTo : Option Callback

namespace ControlledInput

/-- The text of a pushed or typed value; null has none. -/
def textOf? : Json → Option String
  | .null => none
  | .string text => some text
  | other => some other.render

/-- The value that the properties push: empty when there is none. -/
def pushedValue (props : Props) : String :=
  ((props.value? valueProperty).bind textOf?).getD ""

/-- The input for the properties first pushed. -/
def new (props : Props) : ControlledInput := ⟨pushedValue props, props.listener? changeProperty⟩

def receive (_input : ControlledInput) (props : Props) : ControlledInput := new props

/-- The properties of the element: the pushed ones with the value and the change callback of the
    input. -/
def render (onChange : Callback) (input : ControlledInput) (props : Props) : Props :=
  Assoc.insert changeProperty (.listener onChange)
    (Assoc.insert valueProperty (.value (.string input.value)) props)

def typedText (objects : Objects) (event : Value) : String :=
  let typed := (event.member objects "target").member objects "value"
  (textOf? (typed.toJson objects)).getD ""

def change (objects : Objects) (event : Value) (input : ControlledInput) : ControlledInput :=
  { input with value := typedText objects event }

end ControlledInput

end RemoteView
