import RemoteView.Notice

/-! # The outbound queue

A bounded queue between the program and the writer of its connection. A message that finds the queue
full is dropped and counted; the drops whose count is a power of two are reported.
-/

namespace RemoteView

/-- The queue: what waits in it, how many messages were dropped, and whether anybody still takes
    messages out. -/
structure OutboundQueue where
  capacity : Nat
  waiting : List ClientMessage
  dropped : Nat
  isConnected : Bool

namespace OutboundQueue

/-- A queue with nothing in it. -/
def new (capacity : Nat) : OutboundQueue := ⟨capacity, [], 0, true⟩

def isPowerOfTwo (n : Nat) : Bool := 1 <<< n.log2 = n

/-- Send a message: put it into the queue or drop it. What is sent after the writer is gone is not
    counted. -/
def send (queue : OutboundQueue) (message : ClientMessage) : OutboundQueue × Option Notice :=
  if !queue.isConnected then (queue, none)
  else if queue.waiting.length < queue.capacity then
    ({ queue with waiting := queue.waiting ++ [message] }, none)
  else
    let dropped := queue.dropped + 1
    ({ queue with dropped := dropped },
      if isPowerOfTwo dropped then some (.queueFull queue.capacity dropped message.tag) else none)

/-- Take out the first message. -/
def receive (queue : OutboundQueue) : Option ClientMessage × OutboundQueue :=
  match queue.waiting with
  | [] => (none, queue)
  | first :: rest => (some first, { queue with waiting := rest })

/-- The writer is gone, and what waited with it. -/
def disconnect (queue : OutboundQueue) : OutboundQueue :=
  { queue with waiting := [], isConnected := false }

end OutboundQueue

end RemoteView
