import RemoteView.Client.Basic
import RemoteView.Spine.Decode

/-! # Connections

What the client does when a connection is opened, when messages arrive, when a frame is due, and
when the connection ends. A spine is read as a whole before anything is rendered, so one that cannot
be read changes nothing.
-/

namespace RemoteView.Client

/-- Open a connection: a new session starts, and the location is sent. -/
def openConnection (client : Client) : Client :=
  let client :=
    if client.host.current.isSome then client.modifyHost (·.report .openedOverSession) else client
  let (session, host) := client.host.openSession
  { client with host := host.send session (.location client.navigation.current) }

/-- Store a spine for the next frame, and ask for one unless another spine did. -/
def schedule (spine : Json) (client : Client) : Client :=
  let (asked, scheduler) := client.scheduler.push spine
  { client with scheduler := scheduler, frameRequested := client.frameRequested || asked }

/-- The other side moves the user to a location. -/
def pushLocation (location : String) (client : Client) : Client :=
  if client.navigation.current = location then client
  else { client with navigation := ⟨location, client.navigation.pushed ++ [location]⟩ }

/-- A message from the other side. -/
def handleMessage (raw : Json) (client : Client) : Client :=
  match ServerMessage.decode raw with
  | .ok (.spine spine) => client.schedule spine
  | .ok (.location location) => client.pushLocation location
  | .error error => client.modifyHost (·.report (.ignoredMessage error))

def takeFrameRequest (client : Client) : Bool × Client :=
  (client.frameRequested, { client with frameRequested := false })

/-- A rendering is given up because of an error. -/
def abandon (scope : RenderScope) (error : SpineError) (client : Client) : Client :=
  client.modifyHost (·.report (.abandonedRender scope error))

/-- Render the spine that waits, and say whether the body was rendered. -/
def frame (client : Client) : Bool × Client :=
  let (pending, scheduler) := client.scheduler.take
  let client := { client with scheduler := scheduler }
  match pending, client.host.current with
  | some raw, some session =>
      match Spine.decode .root raw with
      | .ok spine => (true, client.renderBody session spine)
      | .error error => (false, client.abandon .frame error)
  | _, _ => (false, client)

/-- Give the component mounted at a path another payload, and say whether that was done. -/
def renderAt (key : String) (raw : Json) (client : Client) : Bool × Client :=
  match client.host.current with
  | none => (false, client)
  | some session =>
      match client.host.mountedAt session key with
      | none => (false, client.modifyHost (·.report (.noComponentAt key)))
      | some state =>
          match Payload.decode state.identity.path raw with
          | .error error => (false, client.abandon .component error)
          | .ok payload =>
              let client := client.modifyHost (·.setPayload state.identity.id payload)
              (true, client.renderInstance { state with payload := payload })

/-- Render fragments in the head, and say whether that was done. -/
def renderFragments (fragments : List Json) (client : Client) : Bool × Client :=
  match client.host.current with
  | none => (false, client)
  | some session =>
      match fragments.mapM (Spine.decode .root) with
      | .error error => (false, client.abandon .head error)
      | .ok spines => (true, client.renderHead session spines)

/-- The connection is gone: the session ends, what waits is dropped, and everything is unmounted. -/
def disconnect (client : Client) : Client :=
  let client := client.modifyHost Host.dropSession
  { client with scheduler := client.scheduler.take.2 }.showLoading

/-- The connection was closed. Says whether to open another one. -/
def close (client : Client) : Bool × Client :=
  (client.policy.shouldReconnect false, client.disconnect)

/-- The connection failed. Says whether to open another one. -/
def fail (reason : String) (client : Client) : Bool × Client :=
  let reconnect := client.policy.shouldReconnect true
  (reconnect, client.disconnect.modifyHost (·.report (.connectionFailed reason reconnect)))

end RemoteView.Client
