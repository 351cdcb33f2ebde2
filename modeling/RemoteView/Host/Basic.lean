import RemoteView.Expr.Evaluate
import RemoteView.Node
import RemoteView.Notice
import RemoteView.Style.Sheet

/-! # The host

Everything that rendered trees act on: host objects, the listeners of the window, the style rules,
the sessions with their component instances and rendering contexts, the messages sent and the
notices given.

Sessions and contexts are never removed, but they end. A session lives as long as it is the current
one or a component instance of it is held by a tree. The context of its root lives as long as the
session; the context of an instance lives as long as the instance is held. Callbacks of what has
ended do nothing.
-/

namespace RemoteView

/-- What a listener does when it is called. -/
inductive ListenerBehaviour where
  /-- Evaluate a handler and do what it answers; the event is known by this name. -/
  | evaluate (event : String) (handler : Expr)
  /-- Send the event itself. -/
  | forward

def WindowListener.behaviour (declared : WindowListener) : ListenerBehaviour :=
  match declared.handler with
  | some handler => .evaluate declared.event handler
  | none => .forward

/-- The callbacks that were declared in a rendering context, each as it was declared first, and the
    handles that stable keys stand for. -/
structure RenderContext where
  listeners : Assoc (Path × FunctionId) ListenerBehaviour
  refs : Assoc Path RefAttribute
  handles : RefStore

namespace RenderContext

/-- Nothing declared. -/
def empty : RenderContext := ⟨[], [], []⟩

instance : Inhabited RenderContext := ⟨empty⟩

/-- The listener of a node and function: the one that was declared first, or this one. -/
def listener (path : Path) (fid : FunctionId) (behaviour : ListenerBehaviour)
    (context : RenderContext) : RenderContext :=
  { context with listeners := Assoc.insertNew (path, fid) behaviour context.listeners }

/-- The ref of a node: the one that was declared first, or this one. -/
def ref (path : Path) (declared : RefAttribute) (context : RenderContext) : RenderContext :=
  { context with refs := Assoc.insertNew path declared context.refs }

/-- How many callbacks were declared. -/
def declaredCount (context : RenderContext) : Nat :=
  context.listeners.length + context.refs.length

end RenderContext

/-- What never changes about a component instance. -/
structure Instance where
  id : InstanceId
  session : SessionId
  component : UInt64
  path : Path
  key : Option UInt32
  deriving DecidableEq, Repr

/-- How far an instance has come. -/
inductive Phase where
  | created
  | mounted
  | unmounted
  deriving DecidableEq, Repr

/-- A component instance: its payload, the window listeners it has added, and whether a tree holds
    it. -/
structure InstanceState where
  identity : Instance
  payload : Payload
  attached : List (String × ListenerId)
  phase : Phase
  isHeld : Bool

def Instance.context (identity : Instance) : ContextId := ⟨identity.session, some identity.id⟩

def InstanceState.isMounted (state : InstanceState) : Bool := state.phase = .mounted

/-- Where the content of an instance is rendered. -/
def Instance.site (identity : Instance) : Site := ⟨identity.context, identity.path, identity.key⟩

/-- A session: the components it knows with their first names, and the table of mounted components
    by the key of their path. -/
structure Session where
  components : Assoc UInt64 String
  mounted : Assoc String InstanceId

/-- The state of the host. -/
structure Host where
  objects : Objects
  /-- The number of the window. -/
  window : ObjectId
  windowListeners : List (String × ListenerId)
  styles : RuleCompiler
  sessions : Numbered Session
  instances : Numbered InstanceState
  contexts : Assoc ContextId RenderContext
  /-- The session of the open connection. -/
  current : Option SessionId
  /-- All messages sent, each with the session whose connection took it. -/
  sent : List (SessionId × ClientMessage)
  log : List Notice

namespace Host

/-- A host that has nothing but the window. -/
def empty : Host :=
  let (window, objects) := Numbered.empty.add (HostObject.window ⟨[], []⟩)
  { objects := objects, window := window, windowListeners := [], styles := .empty
    sessions := .empty, instances := .empty, contexts := []
    current := none, sent := [], log := [] }

def send (session : SessionId) (message : ClientMessage) (host : Host) : Host :=
  { host with sent := host.sent ++ [(session, message)] }

/-- Give a notice. -/
def report (notice : Notice) (host : Host) : Host := { host with log := host.log ++ [notice] }

/-- Start a session and make it the current one. -/
def openSession (host : Host) : SessionId × Host :=
  let (session, sessions) := host.sessions.add ⟨[], []⟩
  (session, { host with sessions := sessions, current := some session })

/-- Let go of the current session. -/
def dropSession (host : Host) : Host := { host with current := none }

/-! ## What is alive -/

def isHeld (host : Host) (id : InstanceId) : Bool :=
  match host.instances.get? id with
  | some state => state.isHeld
  | none => false

/-- Is a session the current one, or that of an instance that is held? -/
def isSessionAlive (host : Host) (session : SessionId) : Bool :=
  host.current = some session ||
    host.instances.entries.any fun (_, state) => state.isHeld && state.identity.session = session

/-- Does a context still work? -/
def isContextAlive (host : Host) (context : ContextId) : Bool :=
  host.isSessionAlive context.session &&
    match context.instance? with
    | none => true
    | some id => host.isHeld id

/-! ## Contexts, sessions and instances -/

def context (host : Host) (id : ContextId) : RenderContext :=
  (Assoc.get? id host.contexts).getD .empty

def modifyContext (id : ContextId) (change : RenderContext → RenderContext) (host : Host) : Host :=
  { host with contexts := Assoc.insert id (change (host.context id)) host.contexts }

def modifySession (id : SessionId) (change : Session → Session) (host : Host) : Host :=
  { host with sessions := host.sessions.modify id change }

def modifyInstance (id : InstanceId) (change : InstanceState → InstanceState) (host : Host) :
    Host :=
  { host with instances := host.instances.modify id change }

/-- The component mounted at a path of a session, unless no tree holds it any more. -/
def mountedAt (host : Host) (session : SessionId) (key : String) : Option InstanceState := do
  let state ← host.sessions.get? session
  let id ← Assoc.get? key state.mounted
  let found ← host.instances.get? id
  if found.isHeld then some found else none

/-- The component mounted at a path of the current session. -/
def currentMountedAt (host : Host) (key : String) : Option InstanceState := do
  let session ← host.current
  host.mountedAt session key

/-- How many entries in the table of a session stand for instances that are held. -/
def mountedCount (host : Host) (session : SessionId) : Nat :=
  match host.sessions.get? session with
  | some state => state.mounted.countP fun (_, id) => host.isHeld id
  | none => 0

/-- How many components a session has met. -/
def componentCount (host : Host) (session : SessionId) : Nat :=
  match host.sessions.get? session with
  | some state => state.components.length
  | none => 0

/-- The name under which a component of a session was met first. -/
def componentName (host : Host) (session : SessionId) (component : UInt64) : String :=
  ((host.sessions.get? session).bind fun state => Assoc.get? component state.components).getD ""

/-! ## Declarations -/

/-- Take note of a declaration made in a context. -/
def declare (context : ContextId) (host : Host) : Declaration → Host
  | .listener path declared =>
      host.modifyContext context
        (.listener path declared.fid (.evaluate declared.event declared.handler))
  | .ref path declared => host.modifyContext context (.ref path declared)
  | .rules descriptors => { host with styles := host.styles.emitAll descriptors }
  | .component id name =>
      host.modifySession context.session fun session =>
        { session with components := Assoc.insertNew id name session.components }

/-- Take note of everything that the rendering of a spine declares. -/
def declareAll (site : Site) (spine : Spine) (host : Host) : Host :=
  (spine.declarations site.path).foldl (declare site.context) host

/-- Render a spine: the node, and the host with everything declared. -/
def render (site : Site) (spine : Spine) (host : Host) : Node × Host :=
  (.ofSpine site spine, host.declareAll site spine)

end Host

end RemoteView
