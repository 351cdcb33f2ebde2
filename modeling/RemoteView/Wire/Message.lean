import RemoteView.FunctionId
import RemoteView.Json.Outline
import RemoteView.Json.Parser
import RemoteView.Path

/-! # Messages

What the two sides say to each other. Every message to the server is an array headed by a tag; from
the server an array is a tagged message as well, and any other value is a spine.
-/

namespace RemoteView

/-- A message to the server. -/
inductive ClientMessage where
  /-- The location that is shown. -/
  | location (path : String)
  /-- A listener of the element at a position asks for an action. -/
  | action (path : Path) (event : String) (action : Json)
  /-- What a hook of the component at a position answered. -/
  | hook (path : Path) (result : Json)
  /-- A ref of the element at a position asks for an action. -/
  | ref (path : Path) (action : Json)
  /-- An event for a listener without a handler. -/
  | event (path : Path) (fid : FunctionId) (event : Json)

namespace ClientMessage

def tag : ClientMessage → String
  | .location .. => "location"
  | .action .. => "action"
  | .hook .. => "hook"
  | .ref .. => "ref"
  | .event .. => "event"

/-- What follows the tag. -/
def operands : ClientMessage → List Json
  | .location path => [.string path]
  | .action path name asked => [path.toJson, .string name, asked]
  | .hook path result => [path.toJson, result]
  | .ref path asked => [path.toJson, asked]
  | .event path fid native => [path.toJson, fid.toJson, native]

def toJson (message : ClientMessage) : Json := .array (.string message.tag :: message.operands)

end ClientMessage

inductive ServerMessage where
  | location (path : String)
  | spine (raw : Json)

/-- Why something received is not a message. -/
inductive ProtocolError where
  | invalidJson
  | unknownMessage (tag : String)
  | emptyArray
  | locationPath (found : Option Json)

def ProtocolError.message : ProtocolError → String
  | .invalidJson => "invalid json payload"
  | .unknownMessage tag => "unknown server message '" ++ tag ++ "'"
  | .emptyArray => "malformed 'envelope' message: empty array"
  | .locationPath found =>
      "malformed 'location' message: expected string path, got " ++ Json.outlineOption found

namespace ServerMessage

/-- Read a message. A spine message without a spine shows nothing. -/
def decode : Json → Except ProtocolError ServerMessage
  | .array [] => .error .emptyArray
  | .array (.string tag :: operands) =>
      if tag = "location" then
        match operands with
        | .string path :: _ => .ok (.location path)
        | operands => .error (.locationPath operands.head?)
      else if tag = "spine" then .ok (.spine (operands.head?.getD .null))
      else .error (.unknownMessage tag)
  | .array (other :: _) => .error (.unknownMessage other.render)
  | raw => .ok (.spine raw)

/-- Read a message from the bytes of a frame. -/
def ofBytes (bytes : List UInt8) : Except ProtocolError ServerMessage :=
  match Json.parseBytes? bytes with
  | some raw => decode raw
  | none => .error .invalidJson

end ServerMessage

end RemoteView
