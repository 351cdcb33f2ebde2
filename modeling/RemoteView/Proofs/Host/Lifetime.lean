import Mathlib
import RemoteView.Proofs.Host.Hooks
import RemoteView.Proofs.Host.Mounting

/-! # The life of one instance

Whatever is done to an instance, in any order and however often, it is mounted by the first call
that mounts it and unmounted by the first later call that unmounts it. Just then it evaluates the
hooks of the payload that it holds, each once and in order, and in between its window listeners are
there. All other calls change nothing but its payload and what is declared.
-/

namespace RemoteView

/-- What can be done to an instance. -/
inductive InstanceCall where
  | didMount
  | willUnmount
  | setPayload (payload : Payload)
  /-- The enclosing spine is rendered again and hands over a payload. -/
  | receive (payload : Payload)
  | render

namespace InstanceCall

/-- The payload that is held after a call. -/
def held (payload : Payload) : InstanceCall → Payload
  | .setPayload next | .receive next => next
  | .didMount | .willUnmount | .render => payload

/-- The payload that is held after calls. -/
def heldAfter (payload : Payload) (calls : List InstanceCall) : Payload := calls.foldl held payload

/-- Does a call mount or unmount an instance that has come so far? -/
def Turns (phase : Phase) (call : InstanceCall) : Prop :=
  phase = .created ∧ call = .didMount ∨ phase = .mounted ∧ call = .willUnmount

end InstanceCall

namespace Host

open InstanceCall

/-- The host after a call on an instance. -/
def runCall (id : InstanceId) (host : Host) : InstanceCall → Host
  | .didMount => host.didMount id
  | .willUnmount => host.willUnmount id
  | .setPayload payload => host.setPayload id payload
  | .receive payload => host.runStep (.receive id payload)
  | .render =>
      match host.instances.get? id with
      | some state => (host.renderInstance state).2
      | none => host

/-- The host after calls on an instance. -/
def runCalls (id : InstanceId) (host : Host) (calls : List InstanceCall) : Host :=
  calls.foldl (runCall id) host

theorem runCalls_append (id : InstanceId) (host : Host) (calls later : List InstanceCall) :
    host.runCalls id (calls ++ later) = (host.runCalls id calls).runCalls id later :=
  List.foldl_append

/-! ## Calls that do not turn -/

/-- From outside two hosts look the same: no message has been sent, and objects and window listeners
    are as they were. -/
structure Quiet (before after : Host) : Prop where
  sent : after.sent = before.sent
  objects : after.objects = before.objects
  windowListeners : after.windowListeners = before.windowListeners

theorem Quiet.trans {before middle after : Host} (first : Quiet before middle)
    (second : Quiet middle after) : Quiet before after where
  sent := second.sent.trans first.sent
  objects := second.objects.trans first.objects
  windowListeners := second.windowListeners.trans first.windowListeners

variable {host : Host} {state : InstanceState}

theorem runCall_of_not_turns {id : InstanceId} (found : host.instances.get? id = some state)
    {call : InstanceCall} (stays : ¬ Turns state.phase call) :
    (host.runCall id call).instances.get? id =
        some { state with payload := call.held state.payload } ∧
      Quiet host (host.runCall id call) := by
  cases call with
  | didMount =>
      have same : host.didMount id = host := by
        apply didMount_of_not_created
        intro other isFound created
        obtain rfl := Option.some.inj (found.symm.trans isFound)
        exact stays (.inl ⟨created, rfl⟩)
      rw [runCall, same]
      exact ⟨found, rfl, rfl, rfl⟩
  | willUnmount =>
      have same : host.willUnmount id = host := by
        apply willUnmount_of_not_mounted
        intro other isFound mounted
        obtain rfl := Option.some.inj (found.symm.trans isFound)
        exact stays (.inr ⟨mounted, rfl⟩)
      rw [runCall, same]
      exact ⟨found, rfl, rfl, rfl⟩
  | setPayload payload | receive payload =>
      refine ⟨(Numbered.get?_modify _ _ _ _).trans ((if_pos rfl).trans ?_), rfl, rfl, rfl⟩
      rw [found]
      rfl
  | render =>
      obtain ⟨contexts, styles, sessions, same, -⟩ :=
        declareAll_eq state.identity.site state.payload.content host
      have rendered : host.runCall id .render =
          { host with contexts := contexts, styles := styles, sessions := sessions } := by
        simp only [runCall, found]
        exact same
      rw [rendered]
      exact ⟨found, rfl, rfl, rfl⟩

theorem runCalls_of_not_turns {id : InstanceId} (found : host.instances.get? id = some state)
    {calls : List InstanceCall} (stay : ∀ call ∈ calls, ¬ Turns state.phase call) :
    (host.runCalls id calls).instances.get? id =
        some { state with payload := heldAfter state.payload calls } ∧
      Quiet host (host.runCalls id calls) := by
  induction calls generalizing host state with
  | nil => exact ⟨found, rfl, rfl, rfl⟩
  | cons call rest ih =>
      obtain ⟨first, quiet⟩ := runCall_of_not_turns found (stay call List.mem_cons_self)
      obtain ⟨last, still⟩ := ih first fun later among => stay later (List.mem_cons_of_mem _ among)
      exact ⟨last, quiet.trans still⟩

/-! ## The two calls that turn -/

/-- What hooks make of the objects depends on these and on the handles under stable keys. -/
theorem objects_runHooks_congr (identity : Instance) (hooks : List Expr) {host other : Host}
    (objects : other.objects = host.objects) (window : other.window = host.window)
    (contexts : other.contexts = host.contexts) :
    (other.runHooks identity hooks).objects = (host.runHooks identity hooks).objects := by
  unfold runHooks
  induction hooks generalizing host other with
  | nil => exact objects
  | cons hook rest ih =>
      obtain ⟨-, left⟩ := evaluateIn_congr identity.context [] hook objects window contexts
      exact ih left window contexts

theorem objects_attachListeners (identity : Instance) (declared : List WindowListener)
    (host : Host) : (declared.foldl (attachListener identity) host).objects = host.objects := by
  induction declared generalizing host with
  | nil => rfl
  | cons first rest ih => exact ih _

/-- The hooks of an instance that enters the table find everything as it was. -/
theorem entering_eq (identity : Instance) (host : Host) :
    (host.entering identity).objects = host.objects ∧
      (host.entering identity).window = host.window ∧
      (host.entering identity).contexts = host.contexts ∧
      (host.entering identity).sent = host.sent := by
  obtain ⟨_, same⟩ := registerMounted_eq identity
    (host.modifyInstance identity.id ({ · with phase := .mounted }))
  rw [entering, same]
  exact ⟨rfl, rfl, rfl, rfl⟩

theorem didMount_of_created (found : host.instances.get? state.identity.id = some state)
    (created : state.phase = .created) :
    let after := host.didMount state.identity.id
    let behaviour := state.payload.behaviour
    after.sent = host.sent ++ hookMessages state.identity behaviour.onMount host ∧
      after.objects = (host.runHooks state.identity behaviour.onMount).objects ∧
      after.windowListeners =
        host.windowListeners ++ Mounting.listeners ⟨state.identity, state.payload⟩ := by
  obtain ⟨objects, window, contexts, sent⟩ := entering_eq state.identity host
  have enters := didMount_eq_runHooks ⟨state, found, rfl, rfl, created⟩
  refine ⟨?_, ?_, (didMount_created found created).1⟩
  · rw [enters, sent_attachListeners, sent_runHooks, sent,
      hookMessages_congr _ _ objects window contexts]
  · rw [enters, objects_attachListeners, objects_runHooks_congr _ _ objects window contexts]

theorem willUnmount_of_mounted (found : host.instances.get? state.identity.id = some state)
    (mounted : state.phase = .mounted) :
    let after := host.willUnmount state.identity.id
    let behaviour := state.payload.behaviour
    after.sent = host.sent ++ hookMessages state.identity behaviour.onUnmount host ∧
      after.objects = (host.runHooks state.identity behaviour.onUnmount).objects ∧
      after.windowListeners = host.windowListeners.diff state.attached := by
  have leaves := willUnmount_eq_runHooks found mounted
  rw [foldl_removeWindowListener_eq] at leaves
  refine ⟨sent_willUnmount found mounted, ?_, ?_⟩
  · rw [leaves]
    exact objects_runHooks_congr _ _ rfl rfl rfl
  · rw [leaves]
    have hooked := CalledBack.runHooks state.identity state.payload.behaviour.onUnmount
      (host.leaving state.identity)
    exact congrArg (·.diff state.attached) hooked.windowListeners

theorem diff_append_right {α : Type} [BEq α] [LawfulBEq α] {old added : List α}
    (apart : ∀ item ∈ added, item ∉ old) : (old ++ added).diff added = old := by
  induction added with
  | nil => simp
  | cons first rest ih =>
      rw [List.diff_cons, List.erase_append_right _ (apart first List.mem_cons_self),
        List.erase_cons_head, ih fun item among => apart item (List.mem_cons_of_mem _ among)]

theorem not_mem_of_silent {identity : Instance}
    (silent : host.windowListenersOf identity.context = []) (payload : Payload) :
    ∀ entry ∈ Mounting.listeners ⟨identity, payload⟩, entry ∉ host.windowListeners := by
  intro entry among there
  obtain ⟨one, -, rfl⟩ := List.mem_map.mp among
  have own := List.filter_eq_nil_iff.mp silent _ there
  exact own (decide_eq_true rfl)

/-! ## A whole life -/

/-- What calls on an instance have left in a host: what has become of the instance, the messages
    sent since, the objects, and the window listeners added since. -/
structure Traces (host after : Host) (state : InstanceState)
    (messages : List (SessionId × ClientMessage)) (objects : Objects)
    (listeners : List (String × ListenerId)) : Prop where
  stored : after.instances.get? state.identity.id = some state
  sent : after.sent = host.sent ++ messages
  objects : after.objects = objects
  windowListeners : after.windowListeners = host.windowListeners ++ listeners

namespace Traces

/-- A new instance waits until somebody mounts it. -/
theorem waits (host : Host) (identity : Instance) (payload : Payload) {calls : List InstanceCall}
    (never : .didMount ∉ calls) :
    Traces host ((host.instantiate identity payload).runCalls identity.id calls)
      ⟨identity, heldAfter payload calls, [], .created, true⟩ [] host.objects [] := by
  have found : (host.instantiate identity payload).instances.get? identity.id =
      some ⟨identity, payload, [], .created, true⟩ :=
    (Numbered.get?_put ..).trans (if_pos rfl)
  obtain ⟨stored, quiet⟩ := runCalls_of_not_turns found fun call among turns => by
    rcases turns with ⟨-, rfl⟩ | ⟨mounted, -⟩
    · exact never among
    · cases mounted
  exact ⟨stored, quiet.sent.trans (List.append_nil _).symm, quiet.objects,
    quiet.windowListeners.trans (List.append_nil _).symm⟩

variable {middle : Host} {messages : List (SessionId × ClientMessage)} {objects : Objects}
  {listeners : List (String × ListenerId)}

/-- It is mounted, and stays so as long as nobody unmounts it. -/
theorem mounted (traces : Traces host middle state messages objects listeners)
    (created : state.phase = .created) {between : List InstanceCall}
    (stays : .willUnmount ∉ between) :
    let onMount := state.payload.behaviour.onMount
    let added := Mounting.listeners ⟨state.identity, state.payload⟩
    Traces host (middle.runCalls state.identity.id (.didMount :: between))
      { state with
        payload := heldAfter state.payload between
        phase := .mounted
        attached := state.attached ++ added }
      (messages ++ hookMessages state.identity onMount middle)
      (middle.runHooks state.identity onMount).objects (listeners ++ added) := by
  intro onMount added
  obtain ⟨sent, hooked, listens⟩ := didMount_of_created traces.stored created
  obtain ⟨stored, quiet⟩ := runCalls_of_not_turns (get?_didMount_created traces.stored created)
    fun call among turns => by
      rcases turns with ⟨new, -⟩ | ⟨-, rfl⟩
      · cases new
      · exact stays among
  refine ⟨stored, (quiet.sent.trans sent).trans ?_, quiet.objects.trans hooked,
    (quiet.windowListeners.trans listens).trans ?_⟩
  · rw [traces.sent, List.append_assoc]
  · rw [traces.windowListeners, List.append_assoc]

/-- It is unmounted, and stays so. The listeners that it gives up are those added since. -/
theorem unmounted (traces : Traces host middle state messages objects state.attached)
    (mounted : state.phase = .mounted)
    (apart : ∀ entry ∈ state.attached, entry ∉ host.windowListeners) (later : List InstanceCall) :
    let onUnmount := state.payload.behaviour.onUnmount
    Traces host (middle.runCalls state.identity.id (.willUnmount :: later))
      { state with
        payload := heldAfter state.payload later
        phase := .unmounted
        attached := [] }
      (messages ++ hookMessages state.identity onUnmount middle)
      (middle.runHooks state.identity onUnmount).objects [] := by
  intro onUnmount
  have left : (middle.willUnmount state.identity.id).instances.get? state.identity.id =
      some { state with phase := .unmounted, attached := [] } := by
    rw [instances_willUnmount traces.stored mounted, modifyInstance, Numbered.get?_modify,
      if_pos rfl, traces.stored, Option.map_some]
  obtain ⟨sent, hooked, removed⟩ := willUnmount_of_mounted traces.stored mounted
  obtain ⟨stored, quiet⟩ := runCalls_of_not_turns left fun call _ turns => by
    rcases turns with ⟨new, -⟩ | ⟨again, -⟩
    · cases new
    · cases again
  refine ⟨stored, (quiet.sent.trans sent).trans ?_, quiet.objects.trans hooked,
    (quiet.windowListeners.trans removed).trans ?_⟩
  · rw [traces.sent, List.append_assoc]
  · rw [traces.windowListeners, diff_append_right apart, List.append_nil]

end Traces

/-- The host after calls on a new instance: until it is mounted nobody has seen anything; then its
    hooks have been run and its window listeners are there; and once it is unmounted the other hooks
    have been run and its listeners are gone, whatever comes later. That a new instance has none yet
    is `Listening.windowListenersOf_of_new`. -/
theorem instance_lives_once (host : Host) (identity : Instance) (payload : Payload)
    (silent : host.windowListenersOf identity.context = []) :
    let run := (host.instantiate identity payload).runCalls identity.id
    let held := heldAfter payload
    (∀ calls, .didMount ∉ calls →
      Traces host (run calls) ⟨identity, held calls, [], .created, true⟩ [] host.objects [] ∧
        (run calls).willUnmount identity.id = run calls) ∧
    ∀ before between, .didMount ∉ before → .willUnmount ∉ between →
      let mounting : Mounting := ⟨identity, held before⟩
      let onMount := mounting.payload.behaviour.onMount
      let mounts := hookMessages identity onMount (run before)
      let calls := before ++ .didMount :: between
      Traces host (run calls) ⟨identity, held calls, mounting.listeners, .mounted, true⟩ mounts
        ((run before).runHooks identity onMount).objects mounting.listeners ∧
      ∀ later,
        let whole := calls ++ .willUnmount :: later
        let onUnmount := (held calls).behaviour.onUnmount
        Traces host (run whole) ⟨identity, held whole, [], .unmounted, true⟩
          (mounts ++ hookMessages identity onUnmount (run calls))
          ((run calls).runHooks identity onUnmount).objects [] := by
  intro run held
  have ran (first : List InstanceCall) (call : InstanceCall) (rest : List InstanceCall) :
      run (first ++ call :: rest) = (run first).runCalls identity.id (call :: rest) :=
    runCalls_append ..
  have handed (first : List InstanceCall) (call : InstanceCall) (rest : List InstanceCall) :
      held (first ++ call :: rest) = heldAfter (call.held (held first)) rest :=
    List.foldl_append
  constructor
  · intro calls never
    have waits := Traces.waits host identity payload never
    refine ⟨waits, willUnmount_of_not_mounted fun state found => ?_⟩
    obtain rfl := Option.some.inj (waits.stored.symm.trans found)
    exact nofun
  intro before between never stays mounting onMount mounts calls
  have lives : Traces host (run calls) ⟨identity, held calls, mounting.listeners, .mounted, true⟩
      mounts ((run before).runHooks identity onMount).objects mounting.listeners := by
    rw [ran before .didMount between, handed before .didMount between]
    exact (Traces.waits host identity payload never).mounted rfl stays
  refine ⟨lives, fun later => ?_⟩
  intro whole onUnmount
  have ranWhole := ran calls .willUnmount later
  have handedWhole := handed calls .willUnmount later
  rw [ranWhole, handedWhole]
  exact lives.unmounted rfl (not_mem_of_silent silent (held before)) later

/-- A clock is told to leave before it is there, is handed another payload, and comes and leaves
    twice. It starts with the payload it then has and stops with the one it got in between. -/
theorem clock_starts_and_stops_once :
    let clock : Instance := ⟨0, 0, 9, ⟨[0, 2]⟩, some 2⟩
    let tells (tag : String) : Expr := .tuple0 (.string tag)
    let shown (start stop : String) : Payload :=
      ⟨.text "tick", ⟨[⟨.number 1, "resize", none⟩], [tells start, tells "Interval"], [tells stop]⟩⟩
    let host := Host.empty.openSession.2
    let early : List InstanceCall := [.willUnmount, .render, .setPayload (shown "Start" "Halt")]
    let meanwhile : List InstanceCall := [.didMount, .receive (shown "Again" "Stop"), .render]
    let late : List InstanceCall := [.willUnmount, .didMount, .setPayload (shown "Late" "Later")]
    let run := (host.instantiate clock (shown "First" "Last")).runCalls 0
    let hook (tag : String) : SessionId × ClientMessage :=
      (0, .hook ⟨[0, 2]⟩ (.array [.string tag]))
    host.windowListenersOf clock.context = [] ∧
      (run (early ++ .didMount :: meanwhile)).windowListeners =
        [("resize", ⟨clock.context, ⟨[0, 2]⟩, .number 1⟩)] ∧
      (run ((early ++ .didMount :: meanwhile) ++ .willUnmount :: late)).sent =
        [hook "Start", hook "Interval", hook "Stop"] ∧
      (run ((early ++ .didMount :: meanwhile) ++ .willUnmount :: late)).windowListeners = [] := by
  intro clock tells shown host early meanwhile late run hook
  have silent : host.windowListenersOf clock.context = [] := rfl
  have waits : .didMount ∉ early := by simp [early]
  have stays : .willUnmount ∉ meanwhile := by simp [meanwhile]
  obtain ⟨lives, leaves⟩ :=
    (instance_lives_once host clock (shown "First" "Last") silent).2 early meanwhile waits stays
  refine ⟨silent, lives.windowListeners.trans ?_, (leaves late).sent.trans ?_,
    (leaves late).windowListeners⟩
  · cbv
  · cbv

end Host

end RemoteView
