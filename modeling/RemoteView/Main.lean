import RemoteView.Client.Serving

/-! # The command line

Serves one connection on the standard streams. Settings are read from the environment, frames come
in on the standard input and go out on the standard output, and notices go to the standard error.
-/

namespace RemoteView.Main

/-- The bytes that come next on a stream: as many as asked for, or fewer at its end. -/
partial def readBytes (stream : IO.FS.Stream) (count : Nat) (done : ByteArray := .empty) :
    IO (List UInt8) := do
  if count ≤ done.size then return done.toList
  let more ← stream.read (USize.ofNat (count - done.size))
  if more.isEmpty then return done.toList
  readBytes stream count (done ++ more)

def readValue (stream : IO.FS.Stream) : IO (Except FrameError Json) := do
  match ← readBytes stream 4 with
  | [a, b, c, d] =>
      match Frame.announced Frame.serverCap a b c d with
      | .error error => return .error error
      | .ok length =>
          let payload ← readBytes stream length
          return if payload.length < length then .error .endOfStream else Frame.valueOf payload
  | _ => return .error .endOfStream

/-- Write what a client has sent and reported since the last time. -/
def flush (output : IO.FS.Stream) (client : Client) : IO (Option FrameError × Client) := do
  for notice in client.host.log do
    IO.eprintln notice.line
  let (bytes, failure) := Frame.writeMessages (client.host.sent.map Prod.snd)
  output.write ⟨bytes.toArray⟩
  output.flush
  return (failure, client.modifyHost fun host => { host with sent := [], log := [] })

/-- Wait for a task, for some milliseconds at most. -/
partial def await {α : Type} (task : Task α) (milliseconds : Nat) : IO (Option α) := do
  if ← IO.hasFinished task then return some task.get
  if milliseconds = 0 then return none
  IO.sleep 1
  await task (milliseconds - 1)

/-- Save a document, and say why not if that fails. -/
def save (target : Option String) (document : String) : IO (Option String) := do
  match target with
  | none => return none
  | some file =>
      try
        IO.FS.writeFile file document
        return none
      catch error =>
        return some ("failed to write snapshot " ++ file ++ ": " ++ toString error)

/-- End a connection. -/
def finish (output : IO.FS.Stream) (ending : Ending) (serving : Serving) : IO Unit := do
  let _ ← flush output (serving.finish ending).2

/-- Take a turn. Says why a snapshot that is due cannot be saved. -/
def takeTurn (config : Config) (message : Option Json) (serving : Serving) :
    IO (Option String × Serving) := do
  let (rendered, after) := serving.turn message (← IO.monoMsNow)
  let failure ← if rendered then save config.snapshot after.client.html else pure none
  return (failure, after)

/-- Serve a connection until it ends. -/
partial def serve (config : Config) (input output : IO.FS.Stream)
    (incoming : Task (Except IO.Error (Except FrameError Json))) (serving : Serving) :
    IO UInt32 := do
  let (failure, client) ← flush output serving.client
  let serving := { serving with client := client }
  if let some error := failure then
    finish output (.failed ("write: " ++ error.message?.getD "")) serving
    return 0
  let arrived ← await incoming (serving.pace.wait serving.framePending (← IO.monoMsNow))
  match arrived with
  | some (.error error) => do
      finish output (.failed ("read: " ++ toString error)) serving
      return 0
  | some (.ok (.error error)) => do
      finish output (.ofRead (if error = .endOfStream then none else some error)) serving
      return 0
  | _ => do
      let message := match arrived with
        | some (.ok (.ok raw)) => some raw
        | _ => none
      let (failure, serving) ← takeTurn config message serving
      match failure with
      | some reason => do
          finish output (.failed reason) serving
          return 1
      | none =>
          let incoming ← if message.isSome then IO.asTask (readValue input) else pure incoming
          serve config input output incoming serving

/-- Run with settings. -/
def run (config : Config) : IO UInt32 := do
  match config.endpoint with
  | .address address => do
      IO.eprintln ("failed to connect to " ++ address ++ ": only the standard streams are served")
      return 1
  | .stdio => do
      let input ← IO.getStdin
      let output ← IO.getStdout
      let client := Client.new config.initialLocation config.reconnect
      let serving := Serving.start config.frameInterval.toNat (← IO.monoMsNow) client
      serve config input output (← IO.asTask (readValue input)) serving

/-- The settings in the environment. -/
def settings : IO (Except ConfigError Config) := do
  let found ← Setting.all.mapM fun setting => do
    return (setting.variableName, ← IO.getEnv setting.variableName)
  return Config.ofLookup fun name => (Assoc.get? name found).join

end RemoteView.Main

def main : IO UInt32 := do
  match ← RemoteView.Main.settings with
  | .ok config => RemoteView.Main.run config
  | .error error => do
      IO.eprintln error.message
      return 1
