import RemoteView.Client.Connection
import RemoteView.Wire.Frame

/-! # Serving a connection

The loop that serves one connection. Each turn handles a message if one has arrived, and then
renders a frame if one is wanted and due. Frames are paced: the first is due at once, and every
other one some time after the last. After each frame that rendered the body a snapshot of the
document can be saved; a snapshot that cannot be saved ends the connection.
-/

namespace RemoteView

/-- When frames are due; times are in milliseconds. -/
structure Pace where
  /-- The least time between two frames. -/
  interval : Nat
  /-- From when on the next frame is due. -/
  next : Nat
  deriving DecidableEq, Repr

namespace Pace

/-- Is a frame due? -/
def isDue (now : Nat) (pace : Pace) : Bool := pace.next ≤ now

def afterFrame (now : Nat) (pace : Pace) : Pace := { pace with next := now + pace.interval }

/-- How long to wait for a message: until the frame that is wanted is due, or for one interval. -/
def wait (framePending : Bool) (now : Nat) (pace : Pace) : Nat :=
  if framePending then pace.next - now else pace.interval

end Pace

/-- How a connection ends. -/
inductive Ending where
  | closed
  | failed (reason : String)
  deriving DecidableEq, Repr

/-- The ending that reading a stream comes to: a stream that just ends closes the connection. -/
def Ending.ofRead : Option FrameError → Ending
  | none => .closed
  | some error => .failed ("read: " ++ error.message?.getD "the payload is not JSON")

/-- A client that serves a connection. -/
structure Serving where
  client : Client
  /-- Is a frame wanted that was not rendered yet? -/
  framePending : Bool
  pace : Pace
  /-- The document after the last frame that rendered the body. -/
  snapshot : Option String

namespace Serving

/-- Open a connection. -/
def start (interval now : Nat) (client : Client) : Serving :=
  ⟨client.openConnection, false, ⟨interval, now⟩, none⟩

/-- Handle a message if there is one, and note whether a frame is wanted. -/
def receive (message : Option Json) (serving : Serving) : Serving :=
  let client :=
    match message with
    | some raw => serving.client.handleMessage raw
    | none => serving.client
  let (asked, client) := client.takeFrameRequest
  { serving with client := client, framePending := serving.framePending || asked }

/-- Render the frame that is wanted, if it is allowed now. Answers whether the body was rendered,
    when a frame was. -/
def render (allowed : Bool) (serving : Serving) : Option Bool × Serving :=
  if serving.framePending && allowed then
    let (rendered, client) := serving.client.frame
    let snapshot := if rendered then some client.html else serving.snapshot
    (some rendered, { serving with client := client, framePending := false, snapshot := snapshot })
  else (none, serving)

/-- One turn of the loop. Answers whether the body was rendered. -/
def turn (message : Option Json) (now : Nat) (serving : Serving) : Bool × Serving :=
  match (serving.receive message).render (serving.pace.isDue now) with
  | (some rendered, after) => (rendered, { after with pace := after.pace.afterFrame now })
  | (none, after) => (false, after)

/-- Turns for messages that arrive at given times, up to a snapshot that cannot be saved: `save`
    says why not. -/
def turns (save : String → Option String) :
    List (Nat × Json) → Serving → Except String Unit × Serving
  | [], serving => (.ok (), serving)
  | (now, raw) :: rest, serving =>
      let (rendered, after) := serving.turn (some raw) now
      match if rendered then save after.client.html else none with
      | some reason => (.error reason, { after with snapshot := none })
      | none => turns save rest after

/-- The end of the connection. Says whether to open another one. -/
def finish (ending : Ending) (serving : Serving) : Bool × Client :=
  match ending with
  | .closed => serving.client.close
  | .failed reason => serving.client.fail reason

end Serving

/-- What came of a connection. -/
structure Service where
  /-- Whether to open another one, or why a snapshot could not be saved. -/
  reconnect : Except String Bool
  /-- The last document saved. -/
  snapshot : Option String
  client : Client

/-- Serve a connection from the messages that arrive on it, and what its stream ends with. -/
def Client.serve (interval : Nat) (save : String → Option String) (arrivals : List (Nat × Json))
    (final : Option FrameError) (client : Client) : Service :=
  match (Serving.start interval 0 client).turns save arrivals with
  | (.ok (), serving) =>
      let (reconnect, client) := serving.finish (.ofRead final)
      ⟨.ok reconnect, serving.snapshot, client⟩
  | (.error reason, serving) =>
      ⟨.error reason, serving.snapshot, (serving.finish (.failed reason)).2⟩

end RemoteView
