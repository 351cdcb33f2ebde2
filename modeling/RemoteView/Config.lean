import RemoteView.Text.Blank
import RemoteView.Text.Natural

/-! # Configuration

How the program finds its settings among named variables. Settings that are missing, and numbers
that cannot be read or are zero, take their defaults; an address or a reconnect policy that cannot
be read is an error.
-/

namespace RemoteView

/-- The variables that settings are read from. -/
inductive Setting where
  | address
  | reconnect
  | queueCapacity
  | reconnectDelay
  | frameInterval
  | location
  | snapshot
  deriving DecidableEq, Repr

namespace Setting

def variableName : Setting → String
  | .address => "SPINE_HOST_ADDR"
  | .reconnect => "SPINE_HOST_RECONNECT"
  | .queueCapacity => "SPINE_HOST_OUTBOUND_QUEUE_CAP"
  | .reconnectDelay => "SPINE_HOST_RECONNECT_DELAY_MS"
  | .frameInterval => "SPINE_HOST_FRAME_MS"
  | .location => "SPINE_HOST_LOCATION"
  | .snapshot => "SPINE_HOST_SNAPSHOT"

/-- Every variable. -/
def all : List Setting :=
  [.address, .reconnect, .queueCapacity, .reconnectDelay, .frameInterval, .location, .snapshot]

end Setting

/-- What to do after a connection ended. -/
inductive ReconnectPolicy where
  | always
  | onClose
  | never
  deriving DecidableEq, Repr

/-- Where the other side is. -/
inductive Endpoint where
  /-- At the standard streams: one connection for as long as the program runs. -/
  | stdio
  | address (hostAndPort : String)
  deriving DecidableEq, Repr

/-- Why a configuration is refused. -/
inductive ConfigError where
  | unknownReconnectPolicy (raw : String)
  | invalidAddress (address : String)
  deriving DecidableEq, Repr

/-- The settings of the program; times are in milliseconds. -/
structure Config where
  endpoint : Endpoint
  queueCapacity : UInt64
  reconnect : ReconnectPolicy
  reconnectDelay : UInt64
  frameInterval : UInt64
  initialLocation : String
  snapshot : Option String
  deriving DecidableEq, Repr

def ConfigError.message : ConfigError → String
  | .unknownReconnectPolicy raw =>
      "unknown reconnect policy '" ++ raw ++ "' (expected always, on-close or never)"
  | .invalidAddress address =>
      Setting.address.variableName ++ " must be host:port, got '" ++ address ++ "'"

namespace ReconnectPolicy

/-- Does the policy ask for another connection after an end that was a failure or a plain close? -/
def shouldReconnect (failed : Bool) : ReconnectPolicy → Bool
  | .always => true
  | .onClose => !failed
  | .never => false

/-- Read a policy, without regard to blanks around it and to case. -/
def parse (raw : String) : Except ConfigError ReconnectPolicy :=
  let word := (Text.trim raw).toLower
  if word = "always" then .ok .always
  else if word = "on-close" ∨ word = "on_close" then .ok .onClose
  else if word = "never" then .ok .never
  else .error (.unknownReconnectPolicy raw)

end ReconnectPolicy

namespace Config

def default : Config :=
  { endpoint := .stdio, queueCapacity := 256, reconnect := .never, reconnectDelay := 1000
    frameInterval := 16, initialLocation := "/", snapshot := none }

/-- What precedes and what follows the last colon. -/
def splitLastColon? (text : List Char) : Option (List Char × List Char) :=
  match text.reverse.span (· ≠ ':') with
  | (_, []) => none
  | (after, _ :: before) => some (before.reverse, after.reverse)

/-- Read an address: a host, the last colon, and a number of 16 bits. -/
def parseAddress (raw : String) : Except ConfigError String :=
  let address := Text.trim raw
  match splitLastColon? address.toList with
  | some (host, number) =>
      if host ≠ [] ∧ (Text.toUInt16? (String.ofList number)).isSome then .ok address
      else .error (.invalidAddress address)
  | none => .error (.invalidAddress address)

/-- A number above zero. -/
def positive? (raw : Option String) : Option UInt64 :=
  (raw.bind fun text => Text.toUInt64? (Text.trim text)).filter (· ≠ 0)

/-- The endpoint: an address when one is given and not blank. -/
def endpointOf (raw : Option String) : Except ConfigError Endpoint :=
  match raw.filter fun text => Text.trim text ≠ "" with
  | none => .ok .stdio
  | some text => (parseAddress text).map .address

def requestedPolicy (raw : Option String) : Except ConfigError (Option ReconnectPolicy) :=
  match raw with
  | none => .ok none
  | some text => (ReconnectPolicy.parse text).map some

/-- The standard streams cannot be opened again. -/
def policyFor (requested : Option ReconnectPolicy) : Endpoint → ReconnectPolicy
  | .stdio => .never
  | .address _ => requested.getD .onClose

/-- The settings found by a look-up of variables. -/
def ofLookup (lookup : String → Option String) : Except ConfigError Config := do
  let value (setting : Setting) : Option String := lookup setting.variableName
  let endpoint ← endpointOf (value .address)
  let requested ← requestedPolicy (value .reconnect)
  return {
    endpoint := endpoint
    queueCapacity := (positive? (value .queueCapacity)).getD default.queueCapacity
    reconnect := policyFor requested endpoint
    reconnectDelay := (positive? (value .reconnectDelay)).getD default.reconnectDelay
    frameInterval := (positive? (value .frameInterval)).getD default.frameInterval
    initialLocation := ((value .location).filter (·.startsWith "/")).getD default.initialLocation
    snapshot := (value .snapshot).filter (· ≠ "") }

end Config

end RemoteView
