import RemoteView.Spine.Encode
import RemoteView.Wire.Frame
import RemoteView.Wire.Queue
import RemoteView.Client.Serving
import RemoteView.Client.User
import RemoteView.Main
import RemoteView.Proofs.Client.Lifecycle
import RemoteView.Proofs.Client.Readdressing
import RemoteView.Proofs.Host.Listening
import RemoteView.Proofs.Host.Sending
import RemoteView.Proofs.Client.Sessions
import RemoteView.Proofs.Client.Teardown
import RemoteView.Proofs.Client.Reopening
import RemoteView.Proofs.Mounted.Places
import RemoteView.Proofs.Client.Fidelity
import RemoteView.Proofs.Mounted.Attaching
import RemoteView.Proofs.Client.StableKeys
import RemoteView.Proofs.Spine.RoundTrip
import RemoteView.Proofs.Client.Atomicity
import RemoteView.Proofs.Host.Behaviours
import RemoteView.Proofs.Mounted.Contents
import RemoteView.Proofs.Client.WindowListeners
import RemoteView.Proofs.Client.Dispatching
import RemoteView.Proofs.Wire.Outbound
import RemoteView.Proofs.Client.Pacing
import RemoteView.Proofs.Client.Completion
import RemoteView.Proofs.Client.Updating
import RemoteView.Proofs.Client.Balance
import RemoteView.Proofs.Client.Repeating
import RemoteView.Proofs.Client.RefCalls
import RemoteView.Proofs.Client.Dropped
import RemoteView.Proofs.Client.Inputs
import RemoteView.Proofs.Client.Styles
import RemoteView.Proofs.Client.Hooks
import RemoteView.Proofs.Wire.Accounts
import RemoteView.Proofs.Wire.Delivery
import RemoteView.Proofs.Spine.Locating
import RemoteView.Proofs.Client.Losses
import RemoteView.Proofs.Host.Lifetime
import RemoteView.Proofs.Host.Requests
import RemoteView.Proofs.Expr.Nodes
import RemoteView.Proofs.Expr.Tuples
import RemoteView.Proofs.Style.Names
import RemoteView.Proofs.Style.Declarations
import RemoteView.Proofs.Html.Faithful
import RemoteView.Proofs.Client.Positions
import RemoteView.Proofs.Expr.Untagged
import RemoteView.Proofs.Host.Slots
import RemoteView.Proofs.Mounted.Taking
import RemoteView.Proofs.Config
