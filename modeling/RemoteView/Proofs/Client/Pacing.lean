import Mathlib
import RemoteView.Client.Serving

/-! # What becomes of the spines

While connections are served, one after another, spines arrive and frames take them. A turn of the
loop handles a message or none, since waiting for one can time out, and then a frame is due or not.
Whatever comes when, a spine that waits will get its frame, frames take the newest spine, each at
most once, and every spine that has arrived is accounted for.
-/

namespace RemoteView

/-- What can happen to a spine. -/
inductive SpineEvent.Kind where
  | received
  /-- A frame takes the spine that waits. -/
  | taken
  /-- The connection ends while the spine waits. -/
  | dropped
  deriving DecidableEq

/-- Something that happens to a spine. -/
structure SpineEvent where
  kind : SpineEvent.Kind
  spine : Json

/-- The spines to which something of a kind has happened, in this order. -/
def SpineEvent.spines (kind : Kind) (past : List SpineEvent) : List Json :=
  (past.filter fun event => event.kind = kind).map SpineEvent.spine

open SpineEvent (spines)

/-- What comes with a message, if there is one. -/
def SpineEvent.ofMessage (message : Option Json) : List SpineEvent :=
  match message.map ServerMessage.decode with
  | some (.ok (.spine spine)) => [⟨.received, spine⟩]
  | _ => []

/-- What comes of the spine that waits when it is taken out. -/
def Scheduler.leaving (kind : SpineEvent.Kind) (scheduler : Scheduler) : List SpineEvent :=
  (scheduler.take.1.map (SpineEvent.mk kind)).toList

/-- What comes of a frame that is due or not. -/
def Serving.taking (due : Bool) (serving : Serving) : List SpineEvent :=
  if serving.framePending && due then serving.client.scheduler.leaving .taken else []

/-- Either no connection is served, or the loop is about to take its next turn. -/
inductive Stage where
  | idle (client : Client)
  | looping (serving : Serving)

namespace Stage

def client : Stage → Client
  | idle client => client
  | looping serving => serving.client

/-- What can happen next, and what it means for the spines. -/
inductive Step : Stage → List SpineEvent → Stage → Prop
  | connect (interval now : Nat) (client : Client) :
      Step (idle client) [] (looping (.start interval now client))
  /-- A message or none, and a frame that is due or not. When the next one will be due is left open,
      and so is what has been saved of the document. -/
  | turn (message : Option Json) (due : Bool) {before after : Serving}
      (client : after.client = ((before.receive message).render due).2.client)
      (framePending : after.framePending = ((before.receive message).render due).2.framePending) :
      Step (looping before) (SpineEvent.ofMessage message ++ (before.receive message).taking due)
        (looping after)
  | disconnect (ending : Ending) (before : Serving) :
      Step (looping before) (before.client.scheduler.leaving .dropped)
        (idle (before.finish ending).2)

/-- What can be reached from the start of the program, and what has happened to spines so far. -/
inductive Run : List SpineEvent → Stage → Prop
  | start (location : String) (policy : ReconnectPolicy) : Run [] (idle (.new location policy))
  | step {past events : List SpineEvent} {stage next : Stage} (run : Run past stage)
      (step : Step stage events next) : Run (past ++ events) next

end Stage

/-! ## The account of a scheduler -/

/-- What has happened to the spines that went through a scheduler. -/
structure Scheduler.Accounts (past : List SpineEvent) (scheduler : Scheduler) : Prop where
  /-- What waits has arrived last, and nothing has happened to it since. -/
  waits : ∀ spine, scheduler.pending = some spine ↔ past.getLast? = some ⟨.received, spine⟩
  counts : (spines .received past).length = (spines .taken past).length + scheduler.superseded +
    (spines .dropped past).length + scheduler.pending.toList.length
  inOrder : (spines .taken past ++ scheduler.pending.toList).Sublist (spines .received past)
  /-- What is taken has arrived last, and nothing has happened to it before. -/
  newest : ∀ before spine after, past = before ++ ⟨.taken, spine⟩ :: after →
    before.getLast? = some ⟨.received, spine⟩

theorem SpineEvent.spines_concat (kind : Kind) (past : List SpineEvent) (event : SpineEvent) :
    spines kind (past ++ [event]) =
      spines kind past ++ if event.kind = kind then [event.spine] else [] := by
  by_cases same : event.kind = kind <;> simp [spines, same]

theorem List.split_concat {α : Type} {past before after : List α} {last entry : α}
    (same : past ++ [last] = before ++ entry :: after) :
    (last = entry ∧ past = before) ∨ ∃ rest, past = before ++ entry :: rest := by
  rcases List.eq_nil_or_concat after with rfl | ⟨rest, other, rfl⟩
  · obtain ⟨rfl, isLast⟩ := List.append_inj' same rfl
    exact .inl ⟨(List.cons.inj isLast).1, rfl⟩
  · refine .inr ⟨rest, ?_⟩
    rw [List.concat_eq_append, ← List.cons_append, ← List.append_assoc] at same
    exact (List.append_inj' same rfl).1

namespace Scheduler

variable {past : List SpineEvent} {scheduler : Scheduler}

theorem accounts_empty : Accounts [] .empty where
  waits := by simp [empty]
  counts := rfl
  inOrder := .slnil
  newest := by simp

theorem Accounts.push (accounts : Accounts past scheduler) (spine : Json) :
    Accounts (past ++ [⟨.received, spine⟩]) (scheduler.push spine).2 := by
  have pending : (scheduler.push spine).2.pending = some spine := by
    unfold Scheduler.push
    cases scheduler.pending <;> rfl
  have superseded : (scheduler.push spine).2.superseded =
      scheduler.superseded + scheduler.pending.toList.length := by
    unfold Scheduler.push
    cases scheduler.pending <;> rfl
  have counts := accounts.counts
  have inOrder := (List.sublist_append_left _ _).trans accounts.inOrder
  refine ⟨fun other => ?_, ?_, ?_, ?_⟩
  · simp [pending]
  · simp [SpineEvent.spines_concat, pending, superseded]
    omega
  · simpa [SpineEvent.spines_concat, pending] using inOrder.append (List.Sublist.refl [spine])
  · intro before other after same
    rcases List.split_concat same with ⟨isLast, -⟩ | ⟨rest, earlier⟩
    · cases isLast
    · exact accounts.newest before other rest earlier

theorem Accounts.leave (accounts : Accounts past scheduler) {kind : SpineEvent.Kind}
    (leaves : kind ≠ .received) : Accounts (past ++ scheduler.leaving kind) scheduler.take.2 := by
  cases waiting : scheduler.pending with
  | none =>
      have idle : scheduler.take = (none, scheduler) := by simp [take, ← waiting]
      simpa [leaving, idle] using accounts
  | some spine =>
      have last := (accounts.waits spine).mp waiting
      have counts := accounts.counts
      have inOrder := accounts.inOrder
      rw [waiting] at counts inOrder
      simp only [leaving, take, waiting, Option.map_some, Option.toList_some]
      refine ⟨fun other => ?_, ?_, ?_, ?_⟩
      · simp [leaves]
      · cases kind <;> simp [SpineEvent.spines_concat] at counts leaves ⊢ <;> omega
      · have taken := (List.sublist_append_left _ _).trans inOrder
        cases kind <;> simp_all [SpineEvent.spines_concat]
      · intro before other after same
        rcases List.split_concat same with ⟨isLast, rfl⟩ | ⟨rest, earlier⟩
        · obtain ⟨-, rfl⟩ := SpineEvent.mk.inj isLast
          exact last
        · exact accounts.newest before other rest earlier

end Scheduler

/-! ## What every turn keeps -/

section

variable {past : List SpineEvent}

theorem Client.scheduler_openConnection (client : Client) :
    client.openConnection.scheduler = client.scheduler := by
  unfold openConnection
  simp only
  split <;> rfl

/-- A frame takes what waits, whatever it makes of it. -/
theorem Client.scheduler_frame (client : Client) :
    client.frame.2.scheduler = client.scheduler.take.2 := by
  unfold frame
  simp only
  split
  · split <;> rfl
  · rfl

theorem Client.accounts_handleMessage {client : Client} (accounts : client.scheduler.Accounts past)
    (raw : Json) :
    (client.handleMessage raw).scheduler.Accounts (past ++ SpineEvent.ofMessage (some raw)) := by
  unfold handleMessage SpineEvent.ofMessage
  rw [Option.map_some]
  cases ServerMessage.decode raw with
  | error error =>
      rw [List.append_nil]
      exact accounts
  | ok message =>
      cases message with
      | spine spine => exact accounts.push spine
      | location location =>
          have aside : (client.pushLocation location).scheduler = client.scheduler := by
            unfold pushLocation
            split <;> rfl
          rw [List.append_nil, aside]
          exact accounts

theorem Client.asked_handleMessage {client : Client} {framePending : Bool}
    (asked : client.scheduler.pending.isSome → framePending ∨ client.frameRequested) (raw : Json)
    (waits : (client.handleMessage raw).scheduler.pending.isSome) :
    framePending ∨ (client.handleMessage raw).frameRequested := by
  unfold handleMessage at waits ⊢
  cases decoded : ServerMessage.decode raw with
  | error error =>
      rw [decoded] at waits
      exact asked waits
  | ok message =>
      cases message with
      | spine spine =>
          simp only [schedule, Scheduler.push]
          cases earlier : client.scheduler.pending with
          | none => simp
          | some other =>
              rw [earlier] at asked
              simpa using asked rfl
      | location location =>
          simp only [decoded, pushLocation] at waits ⊢
          by_cases same : client.navigation.current = location
          · rw [if_pos same] at waits ⊢
            exact asked waits
          · rw [if_neg same] at waits ⊢
            exact asked waits

namespace Stage

/-- What waits at a stage will get its frame: in a connection a frame is wanted already or has been
    asked for, and between connections nothing waits. -/
def WillRender : Stage → Prop
  | idle client => client.scheduler.pending = none
  | looping serving => serving.client.scheduler.pending.isSome →
      serving.framePending ∨ serving.client.frameRequested

end Stage

namespace Serving

variable {serving : Serving}

theorem accounts_receive (accounts : serving.client.scheduler.Accounts past)
    (message : Option Json) : (serving.receive message).client.scheduler.Accounts
      (past ++ SpineEvent.ofMessage message) := by
  cases message with
  | none =>
      rw [SpineEvent.ofMessage, Option.map_none, List.append_nil]
      exact accounts
  | some raw => exact Client.accounts_handleMessage accounts raw

theorem framePending_receive (asked : (Stage.looping serving).WillRender) (message : Option Json)
    (waits : (serving.receive message).client.scheduler.pending.isSome) :
    (serving.receive message).framePending := by
  have wanted (client : Client) (asks : serving.framePending ∨ client.frameRequested) :
      serving.framePending || client.frameRequested := by
    simpa using asks
  cases message with
  | none => exact wanted serving.client (asked waits)
  | some raw => exact wanted _ (Client.asked_handleMessage asked raw waits)

theorem accounts_render (accounts : serving.client.scheduler.Accounts past) (due : Bool) :
    (serving.render due).2.client.scheduler.Accounts (past ++ serving.taking due) := by
  unfold render taking
  split
  · simpa only [Client.scheduler_frame] using accounts.leave (by decide)
  · simpa using accounts

/-- A frame that is rendered leaves nothing waiting, and one that is not stays wanted. -/
theorem framePending_render
    (wanted : serving.client.scheduler.pending.isSome → serving.framePending) (due : Bool)
    (waits : (serving.render due).2.client.scheduler.pending.isSome) :
    (serving.render due).2.framePending := by
  unfold render at waits ⊢
  split
  · rename_i rendered
    rw [if_pos rendered] at waits
    simp [Client.scheduler_frame, Scheduler.take] at waits
  · rename_i skipped
    rw [if_neg skipped] at waits
    exact wanted waits

theorem scheduler_finish (ending : Ending) (serving : Serving) :
    (serving.finish ending).2.scheduler = serving.client.scheduler.take.2 := by
  cases ending <;> rfl

end Serving

namespace Stage

variable {stage next : Stage} {events : List SpineEvent}

theorem Step.keeps (step : Step stage events next)
    (accounts : stage.client.scheduler.Accounts past) (asked : stage.WillRender) :
    next.client.scheduler.Accounts (past ++ events) ∧ next.WillRender := by
  cases step with
  | connect interval now client =>
      have opened : (Serving.start interval now client).client.scheduler = client.scheduler :=
        client.scheduler_openConnection
      refine ⟨?_, fun waits => ?_⟩
      · rw [List.append_nil, Stage.client, opened]
        exact accounts
      · rw [opened, show client.scheduler.pending = none from asked] at waits
        cases waits
  | turn message due isClient isPending =>
      rename_i before after
      refine ⟨?_, fun waits => ?_⟩
      · rw [Stage.client, isClient, ← List.append_assoc]
        exact Serving.accounts_render (Serving.accounts_receive accounts message) due
      · rw [isClient] at waits
        rw [isPending]
        have pending := Serving.framePending_receive asked message
        exact .inl (Serving.framePending_render pending due waits)
  | disconnect ending before =>
      have left := before.scheduler_finish ending
      refine ⟨?_, ?_⟩
      · rw [Stage.client, left]
        exact accounts.leave (by decide)
      · rw [WillRender, left]
        rfl

theorem Run.keeps (run : Run past stage) :
    stage.client.scheduler.Accounts past ∧ stage.WillRender := by
  induction run with
  | start location policy => exact ⟨Scheduler.accounts_empty, rfl⟩
  | step run step ih => exact step.keeps ih.1 ih.2

/-! ## The loop itself -/

/-- A turn at some time is a turn with the frame that is due then. -/
theorem Step.of_turn (message : Option Json) (now : Nat) {before after : Serving}
    (client : after.client = (before.turn message now).2.client)
    (framePending : after.framePending = (before.turn message now).2.framePending) :
    ∃ events, Step (looping before) events (looping after) := by
  have paced : (before.turn message now).2.client =
        ((before.receive message).render (before.pace.isDue now)).2.client ∧
      (before.turn message now).2.framePending =
        ((before.receive message).render (before.pace.isDue now)).2.framePending := by
    unfold Serving.turn
    split
    all_goals
      rename_i result
      rw [result]
      exact ⟨rfl, rfl⟩
  exact ⟨_, .turn message _ (client.trans paced.1) (framePending.trans paced.2)⟩

theorem run_turns (save : String → Option String) (arrivals : List (Nat × Json)) {serving : Serving}
    (run : Run past (looping serving)) :
    ∃ more, Run (past ++ more) (looping (serving.turns save arrivals).2) := by
  induction arrivals generalizing past serving with
  | nil => exact ⟨[], by rw [List.append_nil]; exact run⟩
  | cons arrival rest ih =>
      obtain ⟨now, raw⟩ := arrival
      simp only [Serving.turns]
      split
      · obtain ⟨events, step⟩ : ∃ events, Step (looping serving) events
            (looping { (serving.turn (some raw) now).2 with snapshot := none }) :=
          Step.of_turn (some raw) now rfl rfl
        exact ⟨events, run.step step⟩
      · obtain ⟨events, step⟩ : ∃ events, Step (looping serving) events
            (looping (serving.turn (some raw) now).2) := Step.of_turn (some raw) now rfl rfl
        obtain ⟨more, later⟩ := ih (run.step step)
        exact ⟨events ++ more, by rw [← List.append_assoc]; exact later⟩

/-- Serving a connection is a run from one stage without a connection to the next. -/
theorem run_serve (interval : Nat) (save : String → Option String) (arrivals : List (Nat × Json))
    (final : Option FrameError) {client : Client} (run : Run past (idle client)) :
    ∃ more, Run (past ++ more) (idle (client.serve interval save arrivals final).client) := by
  obtain ⟨more, served⟩ := run_turns save arrivals (run.step (.connect interval 0 client))
  unfold Client.serve
  split
  · rename_i serving ended
    rw [ended] at served
    have left := served.step (.disconnect (.ofRead final) serving)
    rw [List.append_nil, List.append_assoc] at left
    exact ⟨_, left⟩
  · rename_i reason serving ended
    rw [ended] at served
    have left := served.step (.disconnect (.failed reason) serving)
    rw [List.append_nil, List.append_assoc] at left
    exact ⟨_, left⟩

/-- No spine is lost or repeated, in any number of connections and whenever messages come and frames
    are due. A spine that waits at the start of a turn has its frame wanted or asked for. Frames
    take spines in the order in which they have arrived, each at the moment at which it is the
    newest and at most once: it has arrived last, and nothing has happened to a spine since. What
    has arrived has been taken, superseded or dropped at the end of a connection, or it waits. -/
theorem no_spine_lost_or_repeated (run : Run past stage) :
    (∀ serving, stage = looping serving → serving.client.scheduler.pending.isSome →
      serving.framePending ∨ serving.client.frameRequested) ∧
    (spines .taken past).Sublist (spines .received past) ∧
    (∀ before spine after, past = before ++ ⟨.taken, spine⟩ :: after →
      before.getLast? = some ⟨.received, spine⟩) ∧
    (spines .received past).length =
      (spines .taken past).length + stage.client.scheduler.superseded +
        (spines .dropped past).length + stage.client.scheduler.pending.toList.length := by
  obtain ⟨accounts, asked⟩ := run.keeps
  refine ⟨?_, (List.sublist_append_left _ _).trans accounts.inOrder, accounts.newest,
    accounts.counts⟩
  rintro serving rfl
  exact asked

/-- Four spines in two connections: the second one supersedes the first and is taken, the third one
    is dropped when its connection ends, and the fourth one waits. -/
theorem four_spines_in_two_connections :
    ∃ past stage, Run past stage ∧
      past = [⟨.received, .string "a"⟩, ⟨.received, .string "b"⟩, ⟨.taken, .string "b"⟩,
        ⟨.received, .string "c"⟩, ⟨.dropped, .string "c"⟩, ⟨.received, .string "d"⟩] ∧
      (∀ serving, stage = looping serving → serving.client.scheduler.pending.isSome →
        serving.framePending ∨ serving.client.frameRequested) ∧
      (spines .taken past).Sublist (spines .received past) ∧
      (∀ before spine after, past = before ++ ⟨.taken, spine⟩ :: after →
        before.getLast? = some ⟨.received, spine⟩) ∧
      (spines .received past).length =
        (spines .taken past).length + stage.client.scheduler.superseded +
          (spines .dropped past).length + stage.client.scheduler.pending.toList.length := by
  have opened := (Run.start "/" .always).step (.connect 16 0 _)
  have first := opened.step (.turn (some (.string "a")) false rfl rfl)
  have second := first.step (.turn (some (.string "b")) true rfl rfl)
  have third := second.step (.turn (some (.string "c")) false rfl rfl)
  have closed := third.step (.disconnect .closed _)
  have again := closed.step (.connect 16 0 _)
  have fourth := again.step (.turn (some (.string "d")) false rfl rfl)
  refine ⟨_, _, fourth, ?_, no_spine_lost_or_repeated fourth⟩
  cbv

end Stage

end

end RemoteView
