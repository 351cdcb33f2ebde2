import RemoteView.Host.Basic

/-! # Calling back

What happens when a listener is called with an event, a ref with a handle or without one, and the
window with an event. A handler is evaluated with the event in hole 0, a ref with the handle in
hole 1.
-/

namespace RemoteView.Host

def eventHole : UInt32 := 0

def handleHole : UInt32 := 1

def evaluateIn (context : ContextId) (holes : Assoc UInt32 Value) (e : Expr) (host : Host) :
    Value × Host :=
  let scope : Scope :=
    { holes := holes, refs := (host.context context).handles, global := .host host.window }
  let (value, objects) := (e.evaluate scope).run host.objects
  (value, { host with objects := objects })

/-- Call a method on a value when a flag asks for it. -/
def invokeIf (flag : Bool) (method : String) (value : Value) (host : Host) : Host :=
  if flag then { host with objects := ((value.invoke method []).run host.objects).2 } else host

/-- Do what a handler answered: call the methods it asks for on the event and send its action. -/
def answerEvent (id : ListenerId) (name : String) (event : Value) (record : EventHandler)
    (host : Host) : Host :=
  let host := host.invokeIf record.preventDefault "preventDefault" event
  let host := host.invokeIf record.stopPropagation "stopPropagation" event
  let host := host.invokeIf record.stopImmediatePropagation "stopImmediatePropagation" event
  match record.action with
  | some action => host.send id.context.session (.action id.path name action)
  | none => host

/-- Call a listener with an event. A handler needs its context alive; the event itself is sent as
    long as the session is. -/
def fire (id : ListenerId) (event : Value) (host : Host) : Host :=
  match Assoc.get? (id.path, id.fid) (host.context id.context).listeners with
  | none => host
  | some .forward =>
      if host.isSessionAlive id.context.session then
        host.send id.context.session (.event id.path id.fid (event.toJson host.objects))
      else host
  | some (.evaluate name handler) =>
      if host.isContextAlive id.context then
        match host.evaluateIn id.context [(eventHole, event)] handler with
        | (.eventHandler record, host) => host.answerEvent id name event record
        | (_, host) => host
      else host

/-- Send the action that a ref answered. -/
def answerRef (id : RefId) (answer : Value) (host : Host) : Host :=
  match answer with
  | .refHandler ⟨some action⟩ => host.send id.context.session (.ref id.path action)
  | _ => host

/-- Change the handles under the stable key of a ref, if it has one. -/
def withKey (id : RefId) (declared : RefAttribute) (change : String → RefStore → RefStore)
    (host : Host) : Host :=
  match declared.key with
  | some key =>
      host.modifyContext id.context fun context =>
        { context with handles := change key context.handles }
  | none => host

def attachRef (id : RefId) (handle : Value) (host : Host) : Host :=
  match Assoc.get? id.path (host.context id.context).refs with
  | none => host
  | some declared =>
      if host.isContextAlive id.context then
        let host := host.withKey id declared fun key => Assoc.insert key handle
        let (answer, host) := host.evaluateIn id.context [(handleHole, handle)] declared.attach
        host.answerRef id answer
      else host

def detachRef (id : RefId) (host : Host) : Host :=
  match Assoc.get? id.path (host.context id.context).refs with
  | none => host
  | some declared =>
      if host.isContextAlive id.context then
        let host := host.withKey id declared fun key => Assoc.erase key
        let (answer, host) := host.evaluateIn id.context [(handleHole, .json .null)] declared.detach
        host.answerRef id answer
      else host

/-! ## The window -/

/-- The window listeners for an event, in the order in which they were added. -/
def listenersFor (event : String) (host : Host) : List ListenerId :=
  (host.windowListeners.filter fun (name, _) => name = event).map Prod.snd

/-- Give an event to the window: every listener that is there for it is called. -/
def dispatchWindow (event : String) (native : Value) (host : Host) : Nat × Host :=
  let listeners := host.listenersFor event
  (listeners.length, listeners.foldl (fun host id => host.fire id native) host)

/-- Write a property of the window. -/
def setGlobal (name : String) (value : Json) (host : Host) : Host :=
  match host.objects.window? host.window with
  | some window =>
      let properties := Assoc.insert name value window.properties
      { host with
        objects := host.objects.put host.window (.window { window with properties := properties }) }
  | none => host

/-- The methods called on the window, with their arguments. -/
def windowCalls (host : Host) : List (String × List Json) :=
  match host.objects.window? host.window with
  | some window => window.calls
  | none => []

def addWindowListener (event : String) (id : ListenerId) (host : Host) : Host :=
  { host with windowListeners := host.windowListeners ++ [(event, id)] }

/-- Remove the first window listener that is this one. -/
def removeWindowListener (event : String) (id : ListenerId) (host : Host) : Host :=
  { host with windowListeners := host.windowListeners.erase (event, id) }

end RemoteView.Host
