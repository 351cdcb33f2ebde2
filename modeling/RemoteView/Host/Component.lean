import RemoteView.Host.Callback

/-! # Component instances

An instance is created, mounted once, and unmounted once. While it is mounted it stands in the table
of its session, and its window listeners are there.
-/

namespace RemoteView.Host

/-- Create an instance; from here on it is held. -/
def instantiate (identity : Instance) (payload : Payload) (host : Host) : Host :=
  let state : InstanceState := ⟨identity, payload, [], .created, true⟩
  { host with instances := host.instances.put identity.id state }

/-- Give an instance another payload. -/
def setPayload (id : InstanceId) (payload : Payload) (host : Host) : Host :=
  host.modifyInstance id fun state => { state with payload := payload }

/-- No tree holds the instance any more. -/
def release (id : InstanceId) (host : Host) : Host :=
  host.modifyInstance id fun state => { state with isHeld := false }

def renderInstance (state : InstanceState) (host : Host) : Node × Host :=
  host.render state.identity.site state.payload.content

/-- Enter an instance into the table of its session. -/
def registerMounted (identity : Instance) (host : Host) : Host :=
  let key := identity.path.key
  let previous := (host.sessions.get? identity.session).bind fun session =>
    Assoc.get? key session.mounted
  let host := host.modifySession identity.session fun session =>
    { session with mounted := Assoc.insert key identity.id session.mounted }
  match previous with
  | some other => if host.isHeld other then host.report (.replacingComponent key) else host
  | none => host

/-- Remove an instance from the table of its session, unless another one has taken its place. -/
def unregisterMounted (identity : Instance) (host : Host) : Host :=
  let key := identity.path.key
  host.modifySession identity.session fun session =>
    if Assoc.get? key session.mounted = some identity.id then
      { session with mounted := Assoc.erase key session.mounted }
    else session

/-- Evaluate a hook and send what it answers. -/
def runHook (identity : Instance) (host : Host) (hook : Expr) : Host :=
  let (answer, host) := host.evaluateIn identity.context [] hook
  host.send identity.session (.hook identity.path (answer.toJson host.objects))

/-- Evaluate hooks in order. -/
def runHooks (identity : Instance) (hooks : List Expr) (host : Host) : Host :=
  hooks.foldl (runHook identity) host

/-- Add a window listener of an instance. Its function may have been declared before at the path of
    the instance; then it is that listener. -/
def attachListener (identity : Instance) (host : Host) (declared : WindowListener) : Host :=
  let id : ListenerId := ⟨identity.context, identity.path, declared.fid⟩
  let host := host.modifyContext identity.context
    (.listener identity.path declared.fid declared.behaviour)
  let host := host.addWindowListener declared.event id
  host.modifyInstance identity.id fun state =>
    { state with attached := state.attached ++ [(declared.event, id)] }

/-- An instance has been mounted: it is entered into the table, its hooks are run, and its window
    listeners are added. This happens once. -/
def didMount (id : InstanceId) (host : Host) : Host :=
  match host.instances.get? id with
  | none => host
  | some state =>
      if state.phase = .created then
        let identity := state.identity
        let host := host.modifyInstance id fun state => { state with phase := .mounted }
        let host := host.registerMounted identity
        let host := host.runHooks identity state.payload.behaviour.onMount
        state.payload.behaviour.listeners.foldl (attachListener identity) host
      else host

/-- An instance is about to be unmounted: its hooks are run, its window listeners are removed, and
    it leaves the table. This happens once, to an instance that is mounted. -/
def willUnmount (id : InstanceId) (host : Host) : Host :=
  match host.instances.get? id with
  | none => host
  | some state =>
      if state.phase = .mounted then
        let identity := state.identity
        let host := host.modifyInstance id fun state =>
          { state with phase := .unmounted, attached := [] }
        let host := host.runHooks identity state.payload.behaviour.onUnmount
        let host := state.attached.foldl
          (fun host (event, listener) => host.removeWindowListener event listener) host
        host.unregisterMounted identity
      else host

end RemoteView.Host
