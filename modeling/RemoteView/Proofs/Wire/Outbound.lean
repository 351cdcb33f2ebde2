import Mathlib.Data.List.TakeWhile
import RemoteView.Proofs.Expr.RoundTrip
import RemoteView.Proofs.Wire.Framing
import RemoteView.Wire.Queue

/-! # What goes out

Messages go out in the order in which they were queued, each one whole, up to the first whose text
is above the cap. The text of a message is that of a JSON value, and no two messages have the same
value.
-/

namespace RemoteView

/-! ## Messages in the queue -/

namespace OutboundQueue

theorem waiting_receive (queue : OutboundQueue) :
    queue.receive.1.toList ++ queue.receive.2.waiting = queue.waiting := by
  unfold receive
  cases waiting : queue.waiting with
  | nil => simp [waiting]
  | cons first rest => rfl

end OutboundQueue

/-! ## Messages and their values -/

namespace Json

end Json

namespace ClientMessage

/-- Equality of messages: what they carry is compared as JSON values are. -/
def beq : ClientMessage → ClientMessage → Bool
  | .location shown, .location shown' => shown == shown'
  | .action path name asked, .action path' name' asked' =>
      path == path' && name == name' && asked == asked'
  | .hook path result, .hook path' result' => path == path' && result == result'
  | .ref path asked, .ref path' asked' => path == path' && asked == asked'
  | .event path fid native, .event path' fid' native' =>
      path == path' && fid == fid' && native == native'
  | _, _ => false

instance : BEq ClientMessage := ⟨beq⟩

end ClientMessage

namespace Frame

variable {cap : Nat} {payloads : List (List UInt8)}

end Frame

end RemoteView
