import RemoteView.Proofs.Client.StableKeys
import RemoteView.Proofs.Host.Attending

/-! # Events of the window

A component listens to the window as it was created: an event of the window reaches its listeners in
the order in which the payload has them, and each does what was declared for its function at the
root of the content, or else what was declared for itself. This stays so whatever happens, as long
as the component is in the trees.
-/

namespace RemoteView

/-- Call listeners with an event, one after another. -/
def Host.fireAll (ids : List ListenerId) (event : Value) (host : Host) : Host :=
  ids.foldl (fun host id => host.fire id event) host

theorem Host.CalledBack.fireAll (ids : List ListenerId) (event : Value) (host : Host) :
    CalledBack host (host.fireAll ids event) :=
  .foldl (fun host id => .fire id event host) ids host

namespace Client

/-- A call declares contents in the contexts of the instances that it creates or hands a payload to,
    and of those that it renders again. -/
theorem declaresContents_render {client : Client} (settled : client.host.Settled client.instances)
    (call : RenderCall) : ∃ again, (∀ n ∈ again, n < client.host.instances.next) ∧
      Mounted.DeclaresContents again (Deed.steps (client.deeds call)) := by
  cases call with
  | body session spine =>
      refine ⟨[], by simp, ?_⟩
      rw [deeds, Outcome.steps_deeds]
      exact Mounted.reconcile_declaresContents.reconcile (.root session) client.body spine
        client.host.supply
  | head session spines =>
      refine ⟨[], by simp, ?_⟩
      rw [deeds, Outcome.steps_deeds]
      exact Mounted.declaresContents_reconcileAll (.root session) client.head spines
        client.host.supply
  | update id =>
      cases found : client.host.instances.get? id with
      | none =>
          refine ⟨[], by simp, ?_⟩
          simp only [deeds, found]
          exact .nil
      | some state =>
          have name : state.identity.id = id := settled.named.id_eq found
          refine ⟨[state.identity.id], ?_, ?_⟩
          · intro n among
            rw [List.mem_singleton.mp among, name]
            exact settled.bounded id state found
          · simp only [deeds, found, updateDeeds]
            split
            · rw [Outcome.steps_deeds]
              exact ((Mounted.rerenders _ _).rerender client.body _).declaresContents
            · split
              · rw [Outcome.steps_deeds]
                exact ((Mounted.rerenders _ _).rerenderFirst client.head _).declaresContents
              · exact .of_takesDown (by simp)
  | loading =>
      refine ⟨[], by simp, ?_⟩
      rw [deeds, Deed.steps_append, Outcome.steps_deeds, Outcome.steps_deeds]
      exact (Mounted.declaresContents_reconcileAll (.root 0) client.head [] _).append
        (Mounted.reconcile_declaresContents.reconcile (.root 0) client.body loadingSpine _)

theorem listener?_prepared (call : RenderCall) (client : Client) {id : ListenerId}
    {n : InstanceId} (inside : id.context.instance? = some n) :
    (client.prepared call).listener? id = client.host.listener? id := by
  have declared (session : SessionId) (spine : Spine) (host : Host) :
      (host.declareAll (.root session) spine).listener? id = host.listener? id := by
    rw [Host.listener?_declareAll, ListenerId.firstIn_eq_none, Option.or_none]
    intro pair among same
    obtain ⟨declaration, -, rfl⟩ := List.mem_map.mp among
    rw [← same] at inside
    cases inside
  cases call with
  | body session spine => exact declared session spine client.host
  | head session spines =>
      unfold prepared
      induction spines generalizing client with
      | nil => rfl
      | cons spine rest ih =>
          exact (ih (client.modifyHost (·.declareAll (.root session) spine))).trans
            (declared session spine client.host)
  | update number =>
      simp only [prepared]
      split
      · split <;> rfl
      · rfl
  | loading => rfl

/-- The instances in the trees listen to the window as they were created. -/
structure Attending (past : List Deed) (client : Client) : Prop where
  sound : Sound client
  listening : client.host.Listening
  old : ∀ identity payload, .step (.instantiate identity payload) ∈ past →
    identity.id < client.host.instances.next
  nothing : client.host.NothingAhead
  attends : ∀ identity payload, .step (.instantiate identity payload) ∈ past →
    identity ∈ client.instances → (payload.behaviour.listeners.map WindowListener.fid).Nodup →
      client.host.Attends identity payload

namespace Attending

variable {past : List Deed} {client after : Client}

theorem new (location : String) (policy : ReconnectPolicy) :
    Attending [] (Client.new location policy) where
  sound := (Run.new location policy).sound
  listening := .empty
  old _ _ created := by cases created
  nothing _ _ _ _ := rfl
  attends _ _ created := by cases created

theorem quiet (attending : Attending past client) (change : Quiet client after) :
    Attending past after := by
  have listener (id : ListenerId) : after.host.listener? id = client.host.listener? id :=
    Host.listener?_congr (contexts_quiet change) id
  have grown (n : InstanceId) (old : n < client.host.instances.next) :
      n < after.host.instances.next :=
    @hasOpened_quiet client after change ⟨0, some n⟩ old
  have listeners : after.host.windowListeners = client.host.windowListeners := by
    cases change with
    | aside host body head => rw [host]
    | report | locate | openSession | dropSession | setAttribute | addObject | setPayload
    | changeInputs | sync => rfl
    | fire id offered event => exact (Host.CalledBack.fire id event client.host).windowListeners
    | setGlobal name value =>
        exact (Host.CalledBack.setGlobal name value client.host).windowListeners
  exact {
    sound := attending.sound.quiet change
    listening := listening_quiet attending.listening change
    old := fun identity payload created => grown _ (attending.old identity payload created)
    nothing := fun id n own ahead => by
      rw [listener id]
      refine attending.nothing id n own (Nat.le_of_not_lt fun old => ?_)
      exact Nat.not_lt_of_le ahead (grown n old)
    attends := fun identity payload created member distinct => by
      rw [instances_quiet change] at member
      exact (attending.attends identity payload created member distinct).congr
        (Host.windowListenersOf_congr listeners _) fun id _ _ stored => (listener id).trans stored }

theorem render (attending : Attending past client) (call : RenderCall) :
    Attending (past ++ client.deeds call) (client.render call) := by
  obtain ⟨session, finish, turnover, -⟩ := turnover_render attending.sound.settled call
  obtain ⟨again, old, declares⟩ := declaresContents_render attending.sound.settled call
  obtain ⟨_, _, _, _, same, -⟩ := prepared_eq call client
  have instances := instances_prepared call client
  have settled := attending.sound.settled.congr instances
  have windowListeners : (client.prepared call).windowListeners = client.host.windowListeners := by
    rw [same]
  have listening := attending.listening.congr instances windowListeners fun _ => forwards_prepared
  have nothing : (client.prepared call).NothingAhead := by
    intro id n own ahead
    rw [listener?_prepared call client own]
    rw [instances] at ahead
    exact attending.nothing id n own ahead
  have grown : client.host.instances.next ≤ (client.render call).host.instances.next := by
    rw [host_render_eq_commit call client finish, ← instances]
    exact Host.next_le_commit _ _
  rw [← supply_prepared call] at turnover
  rw [← instances] at old
  have sound := attending.sound.render call
  refine ⟨sound, listening_render attending.sound attending.listening call, ?_, ?_, ?_⟩
  · intro identity payload created
    rcases List.mem_append.mp created with before | new
    · exact Nat.lt_of_lt_of_le (attending.old identity payload before) grown
    · have among : identity ∈ Step.instantiations (Deed.steps (client.deeds call)) :=
        Step.mem_instantiations.mpr ⟨payload, Deed.mem_steps.mpr new⟩
      exact sound.settled.id_lt (turnover.entered settled among).2.2.2.2
  · rw [host_render_eq_commit call client finish]
    exact turnover.nothingAhead_commit settled declares old nothing
  · intro identity payload created member distinct
    rw [host_render_eq_commit call client finish]
    rcases List.mem_append.mp created with before | new
    · -- An instance with an old number was there before.
      have wasThere : identity ∈ client.instances := by
        rcases turnover.known identity member with there | among
        · exact there
        · have new := turnover.le_of_created among
          have isOld := attending.old identity payload before
          rw [← instances] at isOld
          exact absurd isOld (Nat.not_lt_of_le new)
      have attends : (client.prepared call).Attends identity payload :=
        (attending.attends identity payload before wasThere distinct).congr
          (Host.windowListenersOf_congr windowListeners _) fun id own _ stored => by
            rw [listener?_prepared call client (by rw [own]; rfl), stored]
      exact turnover.attends_of_kept settled listening wasThere member attends
    · exact turnover.attends_of_created settled listening declares old nothing (Deed.mem_steps.mpr new) distinct

theorem move (attending : Attending past client) {deeds : List Deed}
    (move : Move client deeds after) : Attending (past ++ deeds) after := by
  cases move with
  | quiet change =>
      rw [List.append_nil]
      exact attending.quiet change
  | render call live => exact attending.render call

end Attending

theorem Run.attending {past : List Deed} {client : Client} (run : Run past client) :
    Attending past client :=
  run.invariant (P := Attending) Attending.new fun _ _ _ _ attending move => attending.move move

/-! ## What the window does with an event -/

/-- A listener that is in the window does what was declared for it, after those before it. -/
theorem dispatchWindow_at {client : Client} {event : String} {id : ListenerId}
    {behaviour : ListenerBehaviour} (stored : client.host.listener? id = some behaviour)
    (works : client.host.Works id.context) {before after : List ListenerId}
    (there : client.host.listenersFor event = before ++ id :: after) (native : Value) :
    (client.dispatchWindow event native).2.host =
      ((client.host.fireAll before native).behaved id behaviour native).fireAll after native := by
  have called := Host.CalledBack.fireAll before native client.host
  have still : (client.host.fireAll before native).listener? id = some behaviour :=
    (called.listener? id).trans stored
  have alive := works.congr called.current called.instances
  have fired : (client.dispatchWindow event native).2.host =
      client.host.fireAll (client.host.listenersFor event) native := rfl
  rw [fired, there, Host.fireAll, List.foldl_append, List.foldl_cons]
  congr 1
  exact Host.fire_eq_behaved still alive native

/-- An event of the window reaches the listeners of a component in the order of its payload, and
    each does what it should: what was declared for its function at the root of the content, or else
    what was declared for itself. -/
theorem window_listeners_behave {past : List Deed} {client : Client} (run : Run past client)
    {identity : Instance} {payload : Payload}
    (created : .step (.instantiate identity payload) ∈ past)
    (mounted : identity ∈ client.instances)
    (distinct : (payload.behaviour.listeners.map WindowListener.fid).Nodup) (event : String) :
    ((client.host.listenersFor event).filter fun id => id.context = identity.context) =
        (payload.behaviour.listeners.filter fun one => one.event = event).map
          identity.listenerOf ∧
      ∀ declared ∈ payload.behaviour.listeners, ∀ before after,
        client.host.listenersFor event = before ++ identity.listenerOf declared :: after →
          ∀ native, (client.dispatchWindow event native).2.host =
            ((client.host.fireAll before native).behaved (identity.listenerOf declared)
              (declared.behaviourIn payload.content) native).fireAll after native := by
  have attends := run.attending.attends identity payload created mounted distinct
  have works : client.host.Works identity.context :=
    HasContext.works run.sound (.inside mounted)
  constructor
  · have added := attends.added
    unfold Host.windowListenersOf at added
    have swapped : (client.host.windowListeners.filter fun entry => entry.1 = event).filter
        (fun entry => entry.2.context = identity.context) =
          ((payload.behaviour.listeners.map fun one => (one.event, identity.listenerOf one)).filter
            fun entry => entry.1 = event) := by
      rw [← added, List.filter_filter, List.filter_filter]
      simp only [Bool.and_comm]
    rw [Host.listenersFor, List.filter_map, Function.comp_def, swapped, List.filter_map,
      List.map_map]
    rfl
  · intro declared among before after there native
    exact dispatchWindow_at (attends.does declared among) works there native

/-- A handler that answers an action. -/
def answerGo : Expr := .eventHandler .nothing .nothing .nothing (.literal (.string "go"))

/-- What a component renders that holds the button of `handlingButton`. -/
def buttonContent : Spine := .element "button" [] [.listener ⟨.name "2", "click", answerGo⟩]

/-- The button in a component that listens to the window with two functions of its own. -/
def resizingButton : Payload :=
  ⟨buttonContent, ⟨[⟨.name "3", "resize", none⟩, ⟨.name "4", "resize", some answerGo⟩], [], []⟩⟩

/-- The button in a component that listens to the window with the function of the button. -/
def overruledButton : Payload := ⟨buttonContent, ⟨[⟨.name "2", "resize", none⟩], [], []⟩⟩

/-- The instance that is created first. -/
def firstInstance : Instance := ⟨0, 0, 1, .root, none⟩

/-- What leads to a client that shows a component with a payload. -/
def showPayload (payload : Payload) : List Action :=
  [.openConnection, .message (Spine.component 1 "C1" payload.content payload.behaviour).encode,
    .frame]

/-- The component sends the event itself, and then the action of its handler. -/
theorem resizing_button_sends_both :
    let shown := history (showPayload resizingButton) (.new "/" .never)
    let first : ListenerId := ⟨firstInstance.context, .root, .name "3"⟩
    let second : ListenerId := ⟨firstInstance.context, .root, .name "4"⟩
    shown.2.host.listenersFor "resize" = [first, second] ∧
      (shown.2.dispatchWindow "resize" (.json .null)).2.host =
        (shown.2.host.fireAll [first] (.json .null)).behaved second (.evaluate "resize" answerGo)
          (.json .null) ∧
      (shown.2.dispatchWindow "resize" (.json .null)).2.host.sent = shown.2.host.sent ++
        [(0, .event .root (.name "3") .null), (0, .action .root "resize" (.string "go"))] := by
  intro shown first second
  have there : shown.2.host.listenersFor "resize" = [first, second] := by
    unfold shown
    cbv
  have created : shown.1.head? = some (.step (.instantiate firstInstance resizingButton)) := by
    unfold shown
    cbv
  have mounted : shown.2.instances = [firstInstance] := by
    unfold shown
    cbv
  have behaves := window_listeners_behave (run_history "/" .never (showPayload resizingButton))
    (List.mem_of_mem_head? created) (by rw [mounted]; exact List.mem_cons_self) (by decide) "resize"
  refine ⟨there, ?_, ?_⟩
  · exact behaves.2 ⟨.name "4", "resize", some answerGo⟩ (by simp [resizingButton]) [first] [] there
      (.json .null)
  · unfold shown
    cbv

/-- Where the content has a listener of the same function, a window listener does not do what was
    declared for itself. -/
theorem exists_window_listener_overruled :
    ¬ ∀ past client, Run past client → ∀ identity payload,
      .step (.instantiate identity payload) ∈ past → identity ∈ client.instances →
        (payload.behaviour.listeners.map WindowListener.fid).Nodup →
          ∀ declared ∈ payload.behaviour.listeners, ∀ event before after,
            client.host.listenersFor event = before ++ identity.listenerOf declared :: after →
              ∀ native, (client.dispatchWindow event native).2.host =
                ((client.host.fireAll before native).behaved (identity.listenerOf declared)
                  declared.behaviour native).fireAll after native := by
  intro always
  have created : (history (showPayload overruledButton) (.new "/" .never)).1.head? =
      some (.step (.instantiate firstInstance overruledButton)) := by
    cbv
  have mounted : (history (showPayload overruledButton) (.new "/" .never)).2.instances =
      [firstInstance] := by
    cbv
  have there : (history (showPayload overruledButton) (.new "/" .never)).2.host.listenersFor
      "resize" = [] ++ firstInstance.listenerOf ⟨.name "2", "resize", none⟩ :: [] := by
    cbv
  have behaves := always _ _ (run_history "/" .never (showPayload overruledButton)) firstInstance
    overruledButton (List.mem_of_mem_head? created) (by rw [mounted]; exact List.mem_cons_self)
    (by decide) ⟨.name "2", "resize", none⟩ (by simp [overruledButton]) "resize" [] [] there
    (.json .null)
  have action : ((history (showPayload overruledButton) (.new "/" .never)).2.dispatchWindow
      "resize" (.json .null)).2.host.sent =
        [(0, .location "/"), (0, .action .root "click" (.string "go"))] := by
    cbv
  have event : ((((history (showPayload overruledButton) (.new "/" .never)).2.host.fireAll []
      (.json .null)).behaved (firstInstance.listenerOf ⟨.name "2", "resize", none⟩) .forward
        (.json .null)).fireAll [] (.json .null)).sent =
          [(0, .location "/"), (0, .event .root (.name "2") .null)] := by
    cbv
  rw [behaves] at action
  cases action.symm.trans event

end Client

end RemoteView
