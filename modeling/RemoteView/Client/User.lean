import RemoteView.Client.Basic

/-! # The user

What the user does to the client: events on elements, typing into inputs, and navigation.
-/

namespace RemoteView.Client

/-- Write the values of controlled inputs to the properties and handles of their elements. -/
def refreshInputs (client : Client) : Client :=
  { client with
    body := client.body.refresh
    host := client.body.stale.foldl
      (fun host element => host.runStep (.syncHandle element.handle element.props)) client.host }

/-- Call a callback of an element in the body. The change callback of a controlled input changes its
    value and then calls the listener that was pushed. -/
def call (callback : Callback) (element : MountedElement) (event : Value) (client : Client) :
    Client :=
  match callback with
  | .listener id => client.modifyHost (·.fire id event)
  | .external _ => client
  | .input handle =>
      let objects := client.host.objects
      let client := { client with body := client.body.modifyInput handle (·.change objects event) }
      match element.input.bind ControlledInput.forwardTo with
      | some (.listener id) => client.modifyHost (·.fire id event)
      | _ => client

/-- Give an event to the element at a position, and say whether it has a listener for it. -/
def dispatch (path : Path) (event : String) (native : Value) (client : Client) : Bool × Client :=
  match client.elementAt path with
  | none => (false, client)
  | some element =>
      match element.props.listener? (listenerProperty event) with
      | none => (false, client)
      | some callback => (true, (client.call callback element native).refreshInputs)

/-- The handle of the element at a position. -/
def handleAt (client : Client) (path : Path) : Option ObjectId :=
  (client.elementAt path).map MountedElement.handle

/-- Write an attribute of the handle of the element at a position. -/
def setAttribute (path : Path) (name : String) (value : Json) (client : Client) : Client :=
  match client.handleAt path with
  | none => client
  | some handle =>
      client.modifyHost fun host =>
        { host with objects := host.objects.modifyElement handle (·.setAttribute name value) }

/-- An attribute of the handle of the element at a position. -/
def attribute? (path : Path) (name : String) (client : Client) : Option Json := do
  let handle ← client.handleAt path
  let object ← client.host.objects.element? handle
  Assoc.get? name object.attributes

/-- Type a text into the element at a position: its handle takes the text as value, and it is given
    a change event. -/
def typeText (path : Path) (text : String) (client : Client) : Bool × Client :=
  match client.handleAt path with
  | none => (false, client)
  | some handle =>
      let client := client.setAttribute path valueProperty (.string text)
      let (event, objects) := client.host.objects.add (.event ⟨"change", some handle, [], []⟩)
      let client := client.modifyHost fun host => { host with objects := objects }
      client.dispatch path "change" (.host event)

/-- Give an event to the window, and say how many listeners were called. -/
def dispatchWindow (event : String) (native : Value) (client : Client) : Nat × Client :=
  let (count, host) := client.host.dispatchWindow event native
  (count, { client with host := host })

/-- The user goes to a location. -/
def navigate (location : String) (client : Client) : Client :=
  { client with navigation := { client.navigation with current := location } }

/-- Tell the other side which location is shown. -/
def popState (client : Client) : Client :=
  match client.host.current with
  | some session => client.modifyHost (·.send session (.location client.navigation.current))
  | none => client

end RemoteView.Client
