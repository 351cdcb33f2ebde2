import RemoteView.Config
import RemoteView.Spine.Error
import RemoteView.Wire.Message

/-! # Notices

What the program reports about its own work: warnings, and one kind of error.
-/

namespace RemoteView

/-- Where an abandoned rendering started. -/
inductive RenderScope where
  | frame
  | component
  | head
  deriving DecidableEq, Repr

/-- A report. -/
inductive Notice where
  /-- The outbound queue was full. -/
  | queueFull (capacity dropped : Nat) (tag : String)
  /-- A component took the place of a live one in the table of paths. -/
  | replacingComponent (key : String)
  /-- A connection failed. -/
  | connectionFailed (reason : String) (reconnect : Bool)
  /-- A message from the server made no sense. -/
  | ignoredMessage (error : ProtocolError)
  /-- A connection was opened while another one was live. -/
  | openedOverSession
  /-- A component was addressed that is not mounted. -/
  | noComponentAt (key : String)
  /-- A component to render again was not found in the trees. -/
  | componentNotFound (path : Path)
  /-- A spine could not be read. -/
  | abandonedRender (scope : RenderScope) (error : SpineError)

namespace RenderScope

def name : RenderScope → String
  | .frame => "frame"
  | .component => "component"
  | .head => "head"

end RenderScope

namespace Notice

/-- How serious a notice is. -/
def level : Notice → String
  | .abandonedRender .. => "ERROR"
  | _ => "WARN"

/-- The text of a notice. -/
def message : Notice → String
  | .queueFull .. => "outbound queue full; dropping message"
  | .replacingComponent .. => "replacing a live component in the path table"
  | .connectionFailed .. => "connection failed"
  | .ignoredMessage .. => "ignoring server message"
  | .openedOverSession => "opening a connection over a live session; discarding it"
  | .noComponentAt .. => "no component mounted at path"
  | .componentNotFound .. => "component to update is not mounted"
  | .abandonedRender .. => "abandoning render"

def fields : Notice → List (String × String)
  | .queueFull capacity dropped tag =>
      [("capacity", toString capacity), ("dropped", toString dropped), ("tag", tag)]
  | .replacingComponent key => [("path", key)]
  | .connectionFailed reason reconnect =>
      [("reason", reason), ("reconnect", if reconnect then "true" else "false")]
  | .ignoredMessage error => [("error", error.message)]
  | .openedOverSession => []
  | .noComponentAt key => [("path", key)]
  | .componentNotFound path => [("path", path.display)]
  | .abandonedRender scope error =>
      [("scope", scope.name), ("path", error.path.display), ("tag", error.fault.tag?.getD ""),
        ("error", error.message)]

def line (notice : Notice) : String :=
  String.intercalate " "
    (notice.level :: notice.message :: notice.fields.map fun (name, value) => name ++ "=" ++ value)

end Notice

end RemoteView
