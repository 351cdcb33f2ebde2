import Mathlib
import RemoteView.Proofs.Client.Lifecycle
import RemoteView.Proofs.Client.Sessions
import RemoteView.Proofs.Host.Parting
import RemoteView.Proofs.Host.Styling
import RemoteView.Proofs.Mounted.Html

/-! # The end of a connection

When a connection is closed or fails, everything that its session and all earlier ones have left is
taken down: the trees give way to what is shown while there is no connection, every instance that
was mounted runs its hooks once, the window has no listener any more, and nothing keeps a session
alive. From then on no callback that was handed out before does anything.
-/

namespace RemoteView

/-- The listener that a callback of an element comes to, if it comes to one. -/
def Callback.target? (element : MountedElement) : Callback → Option ListenerId
  | .listener id => some id
  | .external _ => none
  | .input _ =>
      match element.input.bind ControlledInput.forwardTo with
      | some (.listener id) => some id
      | _ => none

namespace Client

/-- The client when its session has been let go of, and what waits has been dropped. -/
def dropped (client : Client) : Client :=
  { client.modifyHost Host.dropSession with scheduler := client.scheduler.take.2 }

/-- The instances that leave when the connection ends, each with the host that it leaves. -/
def partings (client : Client) : List (Host × InstanceState) :=
  Host.partings (Deed.steps (client.dropped.deeds .loading)) client.dropped.host

/-- The callbacks that were handed out in the sessions before one do nothing when they are called. -/
structure IgnoresBefore (bound : SessionId) (client : Client) : Prop where
  fire : ∀ id : ListenerId, id.context.session < bound → ∀ event,
    client.host.fire id event = client.host
  attachRef : ∀ id : RefId, id.context.session < bound → ∀ handle,
    client.host.attachRef id handle = client.host
  detachRef : ∀ id : RefId, id.context.session < bound → client.host.detachRef id = client.host
  call : ∀ (callback : Callback) element event,
    (∀ id, callback.target? element = some id → id.context.session < bound) →
      (client.call callback element event).host = client.host

/-- What is left of a client after its connection has ended. -/
structure TornDown (before after : Client) : Prop where
  current : after.host.current = none
  pending : after.scheduler.pending = none
  isLoading : after.isLoading = true
  body : Mounted.Shows (.root 0) loadingSpine after.body
  html : after.body.html = "<div class=\"spine-loading\">Loading...</div>"
  head : after.head = []
  instances : after.instances = []
  phases : ∀ id state, after.host.instances.get? id = some state →
    state.phase = .unmounted ∧ state.isHeld = false
  table : ∀ session key, after.host.mountedAt session key = none
  windowListeners : after.host.windowListeners = []
  /-- Those that leave are the instances that were mounted, and each of them leaves once. -/
  leaving : ∀ id, id ∈ before.partings.map (fun parting => parting.2.identity.id) ↔
    ∃ state, before.host.instances.get? id = some state ∧ state.phase = .mounted
  once : (before.partings.map fun parting => parting.2.identity.id).Nodup
  /-- They leave as what they were, with the payload that they had. -/
  payloads : ∀ parting ∈ before.partings, parting.2.phase = .mounted ∧ ∃ state,
    before.host.instances.get? parting.2.identity.id = some state ∧
      state.identity = parting.2.identity ∧ state.payload = parting.2.payload
  /-- The hooks of those that leave have spoken in their sessions, and no other hook has. -/
  hooks : after.host.hooksSent = before.host.hooksSent ++ before.partings.flatMap Host.farewell
  dead : ∀ session, after.host.isSessionAlive session = false
  /-- Whatever happens later, nothing that was handed out so far does anything. -/
  ignored : ∀ actions, IgnoresBefore after.host.sessions.next (after.performAll actions)
  /-- Nor is anything sent in the sessions so far. -/
  silent : ∀ actions, ∀ session < after.host.sessions.next,
    Host.Sends (fun message => message.1 ≠ session) after.host (after.performAll actions).host
  styles : after.host.styles = before.host.styles

/-! ## What is shown -/

theorem shows_loading {client : Client} (sound : Sound client) :
    Mounted.Shows (.root 0) loadingSpine client.disconnect.body := by
  obtain ⟨session, placed⟩ := sound.body
  exact Mounted.shows_reconcile (.root 0) placed loadingSpine _

theorem html_disconnect (client : Client) :
    client.disconnect.body.html = "<div class=\"spine-loading\">Loading...</div>" := by
  have shown : client.disconnect.body.html = loadingSpine.html := Mounted.html_reconcile _ _ _ _
  rw [shown]
  cbv

theorem head_disconnect (client : Client) : client.disconnect.head = [] := by
  simp [disconnect, showLoading, reconcileBody, reconcileHead, Mounted.reconcileAll_apply]

/-! ## The deeds that take everything down -/

theorem takesDown_deeds_loading (client : Client) :
    (∀ step ∈ Deed.steps (client.deeds .loading), step.TakesDown) ∧
      Deed.effects (client.deeds .loading) = [] := by
  have body := takesDown_loading client.body (client.reconcileHead (.root 0) []).host.supply
  simp only [deeds, Deed.steps_append, Deed.effects_append, Outcome.steps_deeds,
    Outcome.effects_deeds, Mounted.reconcileAll_apply, body.2]
  refine ⟨fun step member => ?_, by simp⟩
  rcases List.mem_append.mp member with inHead | inBody
  · exact Mounted.takesDown_unmountAll _ step (by simpa using inHead)
  · exact body.1 step inBody

theorem runDeeds_of_no_effects {deeds : List Deed} (none : Deed.effects deeds = []) (host : Host) :
    deeds.foldl Host.runDeed host = (Deed.steps deeds).foldl Host.runStep host := by
  induction deeds generalizing host with
  | nil => rfl
  | cons deed rest ih =>
      cases deed with
      | step step => exact ih none _
      | effect effect => cases none

theorem host_disconnect (client : Client) : client.disconnect.host =
    (Deed.steps (client.dropped.deeds .loading)).foldl Host.runStep client.dropped.host :=
  (host_render .loading client.dropped).trans
    (runDeeds_of_no_effects (takesDown_deeds_loading client.dropped).2 _)

theorem styles_runStep (host : Host) {step : Step} (down : step.TakesDown) :
    (host.runStep step).styles = host.styles := by
  cases step with
  | createHandle | syncHandle | release => rfl
  | detachRef id => exact (Host.CalledBack.detachRef id host).styles
  | willUnmount id => exact Host.styles_willUnmount id host
  | instantiate | receive | declare => exact down.elim

theorem current_disconnect (client : Client) : client.disconnect.host.current = none := by
  have kept (steps : List Step) (host : Host) :
      (steps.foldl Host.runStep host).current = host.current :=
    (Host.Remembers.foldl Host.Remembers.runStep steps host).current
  rw [host_disconnect, kept]
  rfl

theorem styles_disconnect (client : Client) :
    client.disconnect.host.styles = client.host.styles := by
  have taken (steps : List Step) (host : Host) (down : ∀ step ∈ steps, step.TakesDown) :
      (steps.foldl Host.runStep host).styles = host.styles := by
    induction steps generalizing host with
    | nil => rfl
    | cons step rest ih =>
        obtain ⟨here, later⟩ := List.forall_mem_cons.mp down
        exact (ih _ later).trans (styles_runStep host here)
  rw [host_disconnect]
  exact taken _ _ (takesDown_deeds_loading _).1

/-! ## Who leaves -/

theorem sound_dropped {client : Client} (sound : Sound client) : Sound client.dropped :=
  sound.congr rfl rfl rfl

theorem perm_partings {client : Client} (sound : Sound client) :
    (client.partings.map fun parting => parting.2.identity.id).Perm
      (client.instances.map Instance.id) := by
  obtain ⟨session, finish, turnover, -⟩ := turnover_render (sound_dropped sound).settled .loading
  rw [instances_loading (sound_dropped sound)] at turnover
  have leaving := (turnover.perm_partings (sound_dropped sound).settled
    (Step.only_of_takesDown (takesDown_deeds_loading _).1).1).map Instance.id
  rw [List.map_map] at leaving
  exact leaving

theorem mem_partings_iff {client : Client} (sound : Sound client) (id : InstanceId) :
    id ∈ client.partings.map (fun parting => parting.2.identity.id) ↔
      ∃ state, client.host.instances.get? id = some state ∧ state.phase = .mounted := by
  obtain ⟨stored, shown⟩ := mountedAreShown_of_settled sound.settled
  rw [(perm_partings sound).mem_iff, List.mem_map]
  constructor
  · rintro ⟨identity, member, rfl⟩
    obtain ⟨state, found, same⟩ := stored identity member
    exact ⟨state, found, (shown _ state found).mpr (by rw [same]; exact member)⟩
  · rintro ⟨state, found, mounted⟩
    exact ⟨state.identity, (shown id state found).mp mounted,
      sound.settled.named.id_eq found⟩

theorem nodup_partings {client : Client} (sound : Sound client) :
    (client.partings.map fun parting => parting.2.identity.id).Nodup :=
  (perm_partings sound).nodup_iff.mpr sound.settled.distinct

theorem hooksSent_disconnect (client : Client) : client.disconnect.host.hooksSent =
    client.host.hooksSent ++ client.partings.flatMap Host.farewell := by
  rw [host_disconnect, Host.hooksSent_steps]
  rfl

/-! ## Nothing is alive -/

section Empty

variable {client : Client}

theorem phases_of_empty (sound : Sound client) (none : client.instances = []) :
    ∀ id state, client.host.instances.get? id = some state →
      state.phase = .unmounted ∧ state.isHeld = false := by
  intro id state found
  refine sound.settled.absent id state.standing (Host.standing_of_get? found) ?_
  rw [none]
  exact List.not_mem_nil

theorem mountedAt_of_empty (sound : Sound client) (none : client.instances = [])
    (session : SessionId) (key : String) : client.host.mountedAt session key = Option.none := by
  cases found : client.host.mountedAt session key with
  | none => rfl
  | some state =>
      have held : state.isHeld = true := by
        simp only [Host.mountedAt, Option.bind_eq_bind, Option.bind_eq_some_iff] at found
        obtain ⟨_, -, _, -, other, -, stored⟩ := found
        split at stored
        · rename_i isHeld
          rwa [← Option.some.inj stored]
        · cases stored
      have stored := Host.Named.get?_of_mountedAt sound.settled.named found
      rw [(phases_of_empty sound none _ state stored).2] at held
      cases held

theorem windowListeners_of_empty (sound : Sound client) (listening : client.host.Listening)
    (none : client.instances = []) : client.host.windowListeners = [] := by
  refine List.Perm.eq_nil (listening.balanced.trans (.of_eq ?_))
  refine List.flatMap_eq_nil_iff.mpr fun entry member => ?_
  have found := Assoc.get?_of_mem listening.distinct member
  have ended := (phases_of_empty sound none entry.1 entry.2 found).1
  exact listening.idle entry.1 entry.2 found (by rw [ended]; decide)

theorem dead_of_empty {past : List Deed} (run : Run past client)
    (current : client.host.current = Option.none) (none : client.instances = [])
    (session : SessionId) : client.host.isSessionAlive session = false := by
  rw [← Bool.not_eq_true, isSessionAlive_iff run, current, none]
  simp

end Empty

/-- Where all earlier sessions are over, their callbacks do nothing. -/
theorem ignoresBefore_of_isOver {client : Client} {bound : SessionId}
    (isOver : ∀ session < bound, Host.IsOver session client.host) : IgnoresBefore bound client where
  fire id earlier event := Host.fire_of_dead (isOver _ earlier).isSessionAlive event
  attachRef id earlier handle := Host.attachRef_of_dead (isOver _ earlier).isSessionAlive handle
  detachRef id earlier := Host.detachRef_of_dead (isOver _ earlier).isSessionAlive
  call callback element event earlier := by
    have fired (id : ListenerId) (before : id.context.session < bound) :
        client.host.fire id event = client.host :=
      Host.fire_of_dead (isOver _ before).isSessionAlive event
    cases callback with
    | listener id => exact fired id (earlier id rfl)
    | external label => rfl
    | input handle =>
        simp only [call]
        split
        · rename_i id forwarded
          exact fired id (earlier id (by simp only [Callback.target?, forwarded]))
        · rfl

/-- After a connection has ended everything is taken down. Notices may have been given since. -/
theorem tornDown_disconnect {client after : Client} (reachable : Reachable client)
    (later : Reachable after) {log : List Notice}
    (same : after = { client.disconnect with host := { client.disconnect.host with log := log } }) :
    TornDown client after := by
  obtain ⟨past, run⟩ := later
  have current : after.host.current = none := by
    rw [same]
    exact current_disconnect client
  have none : after.instances = [] := by
    rw [same]
    exact instances_loading (sound_dropped reachable.sound)
  have dead := dead_of_empty run current none
  have isOver : ∀ session < after.host.sessions.next, Host.IsOver session after.host :=
    fun session opened => (isOver_iff run session).mpr ⟨opened, dead session⟩
  refine {
    current := current
    pending := by rw [same]; rfl
    isLoading := by rw [same]; rfl
    body := by rw [same]; exact shows_loading reachable.sound
    html := by rw [same]; exact html_disconnect client
    head := by rw [same]; exact head_disconnect client
    instances := none
    phases := phases_of_empty run.sound none
    table := mountedAt_of_empty run.sound none
    windowListeners := windowListeners_of_empty run.sound run.listening none
    leaving := mem_partings_iff reachable.sound
    once := nodup_partings reachable.sound
    payloads := Host.given_of_parting (sound_dropped reachable.sound).settled.named
      (takesDown_deeds_loading client.dropped).1
    hooks := by rw [same]; exact hooksSent_disconnect client
    dead := dead
    ignored := fun actions => ignoresBefore_of_isOver fun session opened =>
      (isOver_performAll ⟨past, run⟩ (isOver session opened) actions).1
    silent := fun actions session opened =>
      (isOver_performAll ⟨past, run⟩ (isOver session opened) actions).2
    styles := by rw [same]; exact styles_disconnect client }

/-- However a connection ends, everything is taken down: that of its session, and what earlier ones
    have left. -/
theorem tornDown_close_and_fail {client : Client} (reachable : Reachable client) :
    TornDown client client.close.2 ∧ ∀ reason, TornDown client (client.fail reason).2 :=
  ⟨tornDown_disconnect reachable (reachable.perform .close) rfl,
    fun reason => tornDown_disconnect reachable (reachable.perform (.fail reason)) rfl⟩

/-- A component that listens to the window and says goodbye, as it is sent. -/
def politeComponent (id : UInt64) : Json :=
  .object [("type", .string "Component"), ("id", .ofUInt64 id), ("spine", .object [
    ("eventListeners", .array [.array [.string "2", .string "resize"]]),
    ("hooks", .object [("onUnmount", .array [.array [.string "LitE", .string "bye"]])])])]

/-- What leads to a client that shows two of them, from the connection that is open and from an
    earlier one that was never closed. -/
def showPoliteComponents : List Action :=
  [.openConnection, .message (politeComponent 1), .frame, .openConnection,
    .renderFragments [politeComponent 2]]

/-- Both say goodbye, each in its own session, and both leave the window. -/
theorem polite_components_torn_down :
    let client := (history showPoliteComponents (.new "/" .never)).2
    TornDown client client.close.2 ∧
      client.instances.map (fun identity => (identity.id, identity.session)) = [(0, 0), (1, 1)] ∧
      client.host.windowListeners.map Prod.fst = ["resize", "resize"] ∧
      client.host.hooksSent = [] ∧
      client.close.2.host.hooksSent.map (fun message => message.1) = [1, 0] := by
  intro client
  have reachable : Reachable client := ⟨_, run_history "/" .never showPoliteComponents⟩
  refine ⟨(tornDown_close_and_fail reachable).1, ?_, ?_, ?_, ?_⟩
  · unfold client
    cbv
  · unfold client
    cbv
  · unfold client
    cbv
  · unfold client
    cbv

end Client

end RemoteView
