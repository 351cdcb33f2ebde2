import RemoteView.FunctionId
import RemoteView.Path
import RemoteView.Value.Basic

/-! # Identities of callbacks

A callback is known by where it was declared and not by what it does. The same declaration in the
same rendering context is the same callback in every rendering, so nothing changes for the host when
a node is rendered again.
-/

namespace RemoteView

/-- The number of a session: one connection to the other side. -/
abbrev SessionId := Nat

/-- The number of a component instance. -/
abbrev InstanceId := Nat

/-- A rendering context: that of a session's root, or that of a component instance. -/
structure ContextId where
  session : SessionId
  instance? : Option InstanceId
  deriving DecidableEq, Repr

/-- The context in which the root of a session is rendered. -/
def ContextId.root (session : SessionId) : ContextId := ⟨session, none⟩

/-- A listener: its context, the position of the node that declares it, and its function. -/
structure ListenerId where
  context : ContextId
  path : Path
  fid : FunctionId
  deriving DecidableEq, Repr

/-- A ref: its context and the position of the element that declares it. -/
structure RefId where
  context : ContextId
  path : Path
  deriving DecidableEq, Repr

/-- What can be called with an event. -/
inductive Callback where
  /-- A listener that was declared in a rendering context. -/
  | listener (id : ListenerId)
  /-- The change callback of the controlled input whose element has this handle. -/
  | input (handle : ObjectId)
  /-- A listener of the program around, known by a label. -/
  | external (label : Nat)
  deriving DecidableEq, Repr

end RemoteView
