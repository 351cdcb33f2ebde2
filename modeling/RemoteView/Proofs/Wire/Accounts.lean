import Mathlib.Data.List.Induction
import RemoteView.Proofs.Wire.Outbound

/-! # What becomes of the messages sent

A message that is sent to a bounded queue is accepted, refused because the queue is full, or late
because nobody takes messages out any more. A queue without a place is always full, but hands a
message to a writer that waits for one. The account of a queue is exact after any sending,
receiving, waiting and leaving: what was accepted has been received in this order or waits, what was
refused is counted, and every refusal whose number is a power of two has been reported.
-/

namespace RemoteView.OutboundQueue

/-- What becomes of a message that is sent. -/
inductive Fate where
  /-- It is put into the queue. -/
  | accepted
  /-- The queue holds as many messages as it can. -/
  | refused
  /-- Nobody takes messages out any more. -/
  | late
  deriving DecidableEq, Repr

/-- What becomes of a message that is sent to a queue now. -/
def fate (queue : OutboundQueue) : Fate :=
  if queue.isConnected then
    if queue.waiting.length = queue.capacity then .refused else .accepted
  else .late

/-- Something that senders do to a queue, or the writer. -/
inductive Event where
  | send (message : ClientMessage)
  /-- The writer takes out the first message, if there is one. -/
  | receive
  /-- The writer starts to wait until a message is handed to it. A message that finds a place is
      never handed over: the writer takes it out later. -/
  | await
  /-- The writer leaves. -/
  | disconnect

namespace Event

/-- The message that is sent. -/
def message? : Event → Option ClientMessage
  | .send message => some message
  | .receive => none
  | .await => none
  | .disconnect => none

def isDisconnect : Event → Bool
  | .disconnect => true
  | .send _ => false
  | .receive => false
  | .await => false

/-- The messages that are sent. -/
def messages (events : List Event) : List ClientMessage := events.filterMap message?

/-- What happens from the time on when the writer leaves. -/
def sinceLeaving (events : List Event) : List Event :=
  events.dropWhile fun event => !event.isDisconnect

end Event

/-- A queue with what has happened to it. -/
structure History where
  queue : OutboundQueue
  /-- Does the writer wait at a queue without a place? -/
  awaits : Bool
  /-- The messages sent, each with what became of it. -/
  sent : List (ClientMessage × Fate)
  received : List ClientMessage
  /-- What waited when the writer left. -/
  lost : List ClientMessage
  log : List Notice

namespace History

/-- Nothing has happened to a new queue. -/
def start (capacity : Nat) : History := ⟨.new capacity, false, [], [], [], []⟩

/-- A message is sent to the queue. -/
def enqueue (history : History) (message : ClientMessage) : History :=
  { history with
    queue := (history.queue.send message).1
    sent := history.sent ++ [(message, history.queue.fate)]
    log := history.log ++ (history.queue.send message).2.toList }

/-- A message that is sent goes to the writer that waits, and not through the queue. -/
def handOver (history : History) (message : ClientMessage) : History :=
  { history with
    awaits := false
    sent := history.sent ++ [(message, .accepted)]
    received := history.received ++ [message] }

def after (history : History) : Event → History
  | .send message => if history.awaits then history.handOver message else history.enqueue message
  | .receive =>
      { history with
        queue := history.queue.receive.2
        awaits := false
        received := history.received ++ history.queue.receive.1.toList }
  | .await => { history with awaits := history.queue.isConnected && history.queue.capacity = 0 }
  | .disconnect =>
      { history with
        queue := history.queue.disconnect
        awaits := false
        lost := history.lost ++ history.queue.waiting }

/-- The messages that had a fate, in the order in which they were sent. -/
def having (fate : Fate) (history : History) : List ClientMessage :=
  history.sent.filterMap fun one => if one.2 = fate then some one.1 else none

end History

/-- A queue with everything that has happened to it since it was new. -/
def run (capacity : Nat) (events : List Event) : History :=
  events.foldl History.after (.start capacity)

/-- The warnings about refused messages: about those whose number is a power of two. -/
def warnings (capacity : Nat) (refused : List ClientMessage) : List Notice :=
  (refused.zipIdx 1).filterMap fun (message, number) =>
    if number.isPowerOfTwo then some (.queueFull capacity number message.tag) else none

/-- The account of a queue. -/
structure Accounts (capacity : Nat) (events : List Event) (history : History) : Prop where
  fixed : history.queue.capacity = capacity
  /-- The writer takes messages out until it leaves. -/
  connected : history.queue.isConnected = !events.any Event.isDisconnect
  /-- Everything sent is accounted for. -/
  sent : history.sent.map Prod.fst = Event.messages events
  /-- What was accepted has been received in this order, and the rest waits, or was lost when the
      writer left. -/
  accepted : history.having .accepted =
    history.received ++ history.queue.waiting ++ history.lost
  present : history.queue.isConnected = true → history.lost = []
  awaiting : history.awaits = true → history.queue.isConnected = true ∧ capacity = 0
  gone : history.queue.isConnected = false → history.queue.waiting = []
  bounded : history.queue.waiting.length ≤ capacity
  /-- Only messages that found a full queue are counted as dropped. -/
  dropped : history.queue.dropped = (history.having .refused).length
  /-- What was sent after the writer left is late, and nothing else is. -/
  late : history.having .late = Event.messages (Event.sinceLeaving events)
  log : history.log = warnings capacity (history.having .refused)

/-! ## Sending -/

theorem isPowerOfTwo_iff {n : Nat} : isPowerOfTwo n = true ↔ n.isPowerOfTwo := by
  unfold isPowerOfTwo
  rw [decide_eq_true_iff, Nat.one_shiftLeft]
  constructor
  · intro same
    exact ⟨n.log2, same.symm⟩
  · rintro ⟨k, rfl⟩
    rw [Nat.log2_two_pow]

/-- What sending a message comes to, by the fate of the message. -/
theorem send_cases {queue : OutboundQueue} (bounded : queue.waiting.length ≤ queue.capacity)
    (message : ClientMessage) :
    (queue.fate = .accepted ∧ queue.isConnected = true ∧
      queue.waiting.length < queue.capacity ∧
      queue.send message = ({ queue with waiting := queue.waiting ++ [message] }, none)) ∨
    (queue.fate = .refused ∧ queue.isConnected = true ∧
      queue.send message = ({ queue with dropped := queue.dropped + 1 },
        if (queue.dropped + 1).isPowerOfTwo then
          some (.queueFull queue.capacity (queue.dropped + 1) message.tag)
        else none)) ∨
    (queue.fate = .late ∧ queue.isConnected = false ∧ queue.send message = (queue, none)) := by
  unfold fate send
  cases queue.isConnected with
  | false => exact .inr (.inr ⟨rfl, rfl, rfl⟩)
  | true =>
      by_cases full : queue.waiting.length = queue.capacity
      · refine .inr (.inl ⟨by simp [full], rfl, ?_⟩)
        simp [full, isPowerOfTwo_iff]
      · have room : queue.waiting.length < queue.capacity := by omega
        exact .inl ⟨by simp [full], rfl, room, by simp [room]⟩

/-! ## Histories and events, one after another -/

theorem History.filterMap_concat (history : History) (message : ClientMessage) (its fate : Fate) :
    (history.sent ++ [(message, its)]).filterMap
        (fun one => if one.2 = fate then some one.1 else none) =
      history.having fate ++ if its = fate then [message] else [] := by
  rw [List.filterMap_append]
  by_cases same : its = fate <;> simp [same, having]

theorem History.length_sent (history : History) : history.sent.length =
    (history.having .accepted).length + (history.having .refused).length +
      (history.having .late).length := by
  unfold having
  induction history.sent with
  | nil => rfl
  | cons one rest ih =>
      obtain ⟨message, fate⟩ := one
      cases fate <;> simp [ih] <;> omega

namespace Event

theorem any_concat (events : List Event) (event : Event) :
    (events ++ [event]).any isDisconnect = (events.any isDisconnect || event.isDisconnect) := by
  simp

theorem messages_concat (events : List Event) (event : Event) :
    messages (events ++ [event]) = messages events ++ event.message?.toList := by
  cases event <;> simp [messages, message?]

theorem isEmpty_sinceLeaving (events : List Event) :
    (sinceLeaving events).isEmpty = !events.any isDisconnect := by
  rw [Bool.eq_iff_iff]
  simp [sinceLeaving, List.isEmpty_iff, List.dropWhile_eq_nil_iff]

theorem sinceLeaving_concat (events : List Event) (event : Event) :
    sinceLeaving (events ++ [event]) =
      if events.any isDisconnect then sinceLeaving events ++ [event] else sinceLeaving [event] := by
  have empty := isEmpty_sinceLeaving events
  unfold sinceLeaving at empty ⊢
  rw [List.dropWhile_append, empty]
  cases events.any isDisconnect <;> rfl

theorem messages_sinceLeaving_concat (events : List Event) (event : Event) :
    messages (sinceLeaving (events ++ [event])) = messages (sinceLeaving events) ++
      if events.any isDisconnect then event.message?.toList else [] := by
  have empty := isEmpty_sinceLeaving events
  rw [sinceLeaving_concat]
  cases any : events.any isDisconnect with
  | true => simp [messages_concat]
  | false =>
      rw [any, Bool.not_false, List.isEmpty_iff] at empty
      rw [empty]
      cases event <;> rfl

end Event

theorem warnings_concat (capacity : Nat) (refused : List ClientMessage) (message : ClientMessage) :
    warnings capacity (refused ++ [message]) = warnings capacity refused ++
      (if (refused.length + 1).isPowerOfTwo
        then some (.queueFull capacity (refused.length + 1) message.tag)
        else none : Option Notice).toList := by
  unfold warnings
  rw [List.zipIdx_append, List.filterMap_append, List.zipIdx_singleton, Nat.add_comm 1]
  by_cases reported : (refused.length + 1).isPowerOfTwo <;> simp [reported]

/-! ## The account is kept -/

namespace Accounts

variable {capacity : Nat} {events : List Event} {history : History}

theorem start (capacity : Nat) : Accounts capacity [] (.start capacity) where
  fixed := rfl
  connected := rfl
  sent := rfl
  accepted := rfl
  present _ := rfl
  awaiting := nofun
  gone _ := rfl
  bounded := Nat.zero_le capacity
  dropped := rfl
  late := rfl
  log := rfl

theorem sent_concat (accounts : Accounts capacity events history) (message : ClientMessage)
    (fate : Fate) : (history.sent ++ [(message, fate)]).map Prod.fst =
      Event.messages (events ++ [.send message]) := by
  rw [Event.messages_concat, ← accounts.sent, List.map_append]
  rfl

theorem connected_concat (accounts : Accounts capacity events history) (event : Event)
    (stays : event.isDisconnect = false) :
    history.queue.isConnected = !(events ++ [event]).any Event.isDisconnect := by
  rw [Event.any_concat, stays, Bool.or_false]
  exact accounts.connected

theorem late_concat (accounts : Accounts capacity events history) (event : Event) :
    Event.messages (Event.sinceLeaving (events ++ [event])) = history.having .late ++
      if history.queue.isConnected then [] else event.message?.toList := by
  rw [Event.messages_sinceLeaving_concat, ← accounts.late, accounts.connected]
  cases events.any Event.isDisconnect <;> rfl

theorem enqueue (accounts : Accounts capacity events history) (message : ClientMessage) :
    Accounts capacity (events ++ [.send message]) (history.enqueue message) := by
  have bounded := accounts.bounded
  rw [← accounts.fixed] at bounded
  have late := accounts.late_concat (.send message)
  have connected := accounts.connected_concat (.send message) rfl
  rcases send_cases bounded message with ⟨fate, isConnected, room, sends⟩ |
    ⟨fate, isConnected, sends⟩ | ⟨fate, isConnected, sends⟩
  all_goals
    rw [isConnected] at late
    rw [History.enqueue, sends, fate]
  · exact
      { fixed := accounts.fixed
        connected
        sent := accounts.sent_concat message _
        accepted := by
          rw [History.having, History.filterMap_concat, accounts.accepted,
            accounts.present isConnected]
          simp
        present := accounts.present
        awaiting := accounts.awaiting
        gone := fun left => by cases isConnected.symm.trans left
        bounded := by
          rw [List.length_append]
          exact accounts.fixed ▸ room
        dropped := by
          rw [History.having, History.filterMap_concat]
          simpa using accounts.dropped
        late := by
          rw [History.having, History.filterMap_concat, late]
          rfl
        log := by
          rw [History.having, History.filterMap_concat, accounts.log]
          simp }
  · exact
      { accounts with
        connected
        sent := accounts.sent_concat message _
        accepted := by
          rw [History.having, History.filterMap_concat, accounts.accepted]
          simp
        dropped := by
          rw [History.having, History.filterMap_concat, List.length_append, ← accounts.dropped]
          rfl
        late := by
          rw [History.having, History.filterMap_concat, late]
          rfl
        log := by
          rw [History.having, History.filterMap_concat, accounts.log, accounts.dropped,
            accounts.fixed]
          exact (warnings_concat _ _ _).symm }
  · exact
      { accounts with
        connected
        sent := accounts.sent_concat message _
        accepted := by
          rw [History.having, History.filterMap_concat, accounts.accepted]
          simp
        dropped := by
          rw [History.having, History.filterMap_concat]
          simpa using accounts.dropped
        late := by
          rw [History.having, History.filterMap_concat, late]
          rfl
        log := by
          rw [History.having, History.filterMap_concat, accounts.log]
          simp }

/-- A message that is handed over is accepted and received: nothing waits before it. -/
theorem handOver (accounts : Accounts capacity events history) (awaits : history.awaits = true)
    (message : ClientMessage) :
    Accounts capacity (events ++ [.send message]) (history.handOver message) := by
  obtain ⟨isConnected, noPlace⟩ := accounts.awaiting awaits
  have late := accounts.late_concat (.send message)
  rw [isConnected] at late
  have empty : history.queue.waiting = [] := by
    have bounded := accounts.bounded
    rwa [noPlace, Nat.le_zero, List.length_eq_zero_iff] at bounded
  rw [History.handOver]
  exact
    { accounts with
      connected := accounts.connected_concat _ rfl
      sent := accounts.sent_concat message _
      accepted := by
        rw [History.having, History.filterMap_concat, accounts.accepted, empty,
          accounts.present isConnected]
        simp
      awaiting := nofun
      dropped := by
        rw [History.having, History.filterMap_concat]
        simpa using accounts.dropped
      late := by
        rw [History.having, History.filterMap_concat, late]
        rfl
      log := by
        rw [History.having, History.filterMap_concat, accounts.log]
        simp }

theorem of_not_sent (accounts : Accounts capacity events history) (event : Event)
    (nothing : event.message? = none) :
    history.sent.map Prod.fst = Event.messages (events ++ [event]) ∧
      history.having .late = Event.messages (Event.sinceLeaving (events ++ [event])) := by
  constructor
  · rw [Event.messages_concat, nothing, Option.toList_none, List.append_nil]
    exact accounts.sent
  · rw [accounts.late_concat, nothing, Option.toList_none, ite_self, List.append_nil]

theorem receive (accounts : Accounts capacity events history) :
    Accounts capacity (events ++ [.receive]) (history.after .receive) := by
  have passed := waiting_receive history.queue
  have same : history.queue.receive.2 =
      { history.queue with waiting := history.queue.receive.2.waiting } := by
    unfold OutboundQueue.receive
    split <;> rfl
  have fewer : history.queue.receive.2.waiting.length ≤ history.queue.waiting.length := by
    rw [← passed, List.length_append]
    exact Nat.le_add_left _ _
  obtain ⟨sent, late⟩ := accounts.of_not_sent .receive rfl
  rw [History.after, same]
  exact
    { accounts with
      connected := accounts.connected_concat _ rfl
      sent
      accepted := by
        rw [List.append_assoc history.received, passed]
        exact accounts.accepted
      awaiting := nofun
      gone := fun left => by
        have empty := accounts.gone left
        rw [← passed, List.append_eq_nil_iff] at empty
        exact empty.2
      bounded := fewer.trans accounts.bounded
      late }

theorem await (accounts : Accounts capacity events history) :
    Accounts capacity (events ++ [.await]) (history.after .await) := by
  obtain ⟨sent, late⟩ := accounts.of_not_sent .await rfl
  exact
    { accounts with
      connected := accounts.connected_concat _ rfl
      sent
      awaiting := fun awaits => by
        have fixed := accounts.fixed
        simpa [History.after, fixed] using awaits
      late }

/-- What waits when the writer leaves is lost. -/
theorem disconnect (accounts : Accounts capacity events history) :
    Accounts capacity (events ++ [.disconnect]) (history.after .disconnect) := by
  obtain ⟨sent, late⟩ := accounts.of_not_sent .disconnect rfl
  exact
    { fixed := accounts.fixed
      connected := by
        rw [Event.any_concat, Event.isDisconnect, Bool.or_true]
        rfl
      sent
      accepted := by
        refine accounts.accepted.trans ?_
        cases connected : history.queue.isConnected with
        | true => simp [History.after, accounts.present connected, OutboundQueue.disconnect]
        | false => simp [History.after, accounts.gone connected, OutboundQueue.disconnect]
      present := nofun
      awaiting := nofun
      gone := fun _ => rfl
      bounded := Nat.zero_le capacity
      dropped := accounts.dropped
      late
      log := accounts.log }

end Accounts

/-- Whatever senders and the writer do, and whatever the capacity, the account of the queue is exact,
    and every message sent was accepted, was counted as dropped, or came after the writer left. -/
theorem queue_accounts_exact (capacity : Nat) (events : List Event) :
    Accounts capacity events (run capacity events) ∧
      (Event.messages events).length = ((run capacity events).having .accepted).length +
        (run capacity events).queue.dropped +
          (Event.messages (Event.sinceLeaving events)).length := by
  have accounts : Accounts capacity events (run capacity events) := by
    induction events using List.reverseRecOn with
    | nil => exact .start capacity
    | append_singleton events event accounts =>
        rw [run, List.foldl_append]
        cases event with
        | send message =>
            rw [List.foldl_cons, List.foldl_nil, History.after]
            split
            · rename_i awaits
              exact accounts.handOver awaits message
            · exact accounts.enqueue message
        | receive => exact accounts.receive
        | await => exact accounts.await
        | disconnect => exact accounts.disconnect
  refine ⟨accounts, ?_⟩
  rw [← accounts.sent, accounts.dropped, ← accounts.late, List.length_map, History.length_sent]

/-- A queue without a place passes on only what the writer waits for. -/
example (first second : ClientMessage) :
    let history := run 0 [.send first, .await, .send second]
    history.received = [second] ∧ history.queue.dropped = 1 := ⟨rfl, rfl⟩

end RemoteView.OutboundQueue
