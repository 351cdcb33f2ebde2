import RemoteView.Mounted.Html
import RemoteView.Mounted.Reconcile
import RemoteView.Scheduler

/-! # The client

The host together with the trees that are mounted on it: the body, and the fragments of the head.
Rendering turns them into the trees of new spines.
-/

namespace RemoteView

/-- The locations of the user: the one that is shown, and those that the other side has pushed. -/
structure Navigation where
  current : String
  pushed : List String
  deriving DecidableEq, Repr

/-- The state of the client. -/
structure Client where
  host : Host
  body : Mounted
  head : List Mounted
  isLoading : Bool
  frameRequested : Bool
  navigation : Navigation
  scheduler : Scheduler
  policy : ReconnectPolicy

/-- What is shown while there is no connection. -/
def loadingSpine : Spine :=
  .element "div" [(0, .text "Loading...")] [.value classProperty (.string "spine-loading")]

namespace Client

/-- A client that shows a location and has no connection. -/
def new (location : String) (policy : ReconnectPolicy) : Client :=
  { host := .empty, body := .empty, head := [], isLoading := false, frameRequested := false
    navigation := ⟨location, []⟩, scheduler := .empty, policy := policy }

def modifyHost (change : Host → Host) (client : Client) : Client :=
  { client with host := change client.host }

/-- Turn the body into what a spine renders to. -/
def reconcileBody (site : Site) (spine : Spine) (client : Client) : Client :=
  let outcome := Mounted.reconcile site client.body spine client.host.supply
  { client with host := client.host.commit outcome, body := outcome.value, isLoading := false }

/-- Turn the head into what a list of spines renders to. -/
def reconcileHead (site : Site) (spines : List Spine) (client : Client) : Client :=
  let outcome := Mounted.reconcileAll site client.head spines client.host.supply
  { client with host := client.host.commit outcome, head := outcome.value }

def renderBody (session : SessionId) (spine : Spine) (client : Client) : Client :=
  let site := Site.root session
  (client.modifyHost (·.declareAll site spine)).reconcileBody site spine

def renderHead (session : SessionId) (spines : List Spine) (client : Client) : Client :=
  let site := Site.root session
  let declared := client.modifyHost fun host =>
    spines.foldl (fun host spine => host.declareAll site spine) host
  declared.reconcileHead site spines

/-- Empty the head and show that the client is waiting for a connection. -/
def showLoading (client : Client) : Client :=
  let client := (client.reconcileHead (.root 0) []).reconcileBody (.root 0) loadingSpine
  { client with isLoading := true }

/-- Render the content of an instance again, wherever it is mounted. -/
def renderInstance (state : InstanceState) (client : Client) : Client :=
  let id := state.identity.id
  let content := state.payload.content
  if client.body.holds id then
    let outcome := Mounted.rerender id content client.body client.host.supply
    { client with host := client.host.commit outcome, body := outcome.value }
  else if Mounted.anyHolds id client.head then
    let outcome := Mounted.rerenderFirst id content client.head client.host.supply
    { client with host := client.host.commit outcome, head := outcome.value }
  else client.modifyHost (·.report (.componentNotFound state.identity.path))

/-- The element at a position in the body. -/
def elementAt (client : Client) (path : Path) : Option MountedElement :=
  client.body.find? path.segments

/-- How many components are mounted. -/
def componentCount (client : Client) : Nat :=
  client.body.instances.length + (Mounted.childInstances client.head).length

/-- The document as HTML: the style rules and the head, then the body. -/
def html (client : Client) : String :=
  let rules := client.host.styles.sheets.rules
  let style := if rules = [] then "" else "<style>" ++ String.intercalate "\n" rules ++ "</style>"
  "<head>" ++ style ++ Mounted.htmlAll client.head ++ "</head>" ++
    "<body>" ++ client.body.html ++ "</body>"

end Client

end RemoteView
