import RemoteView.Proofs.Client.Dispatching

/-! # Callbacks of dropped instances

When the trees have let go of an instance, what was declared in its context does nothing any more: a
ref is not attached and not detached, and no handler is evaluated. One kind of callback is left out
of this. A window listener without a handler asks only whether its session is there, and as long as
it is, the event is sent in the name of an instance that is gone.
-/

namespace RemoteView

namespace Host

/-- Whatever is called in a context, and with whatever, nothing happens. -/
structure Inert (context : ContextId) (host : Host) : Prop where
  fire : ∀ id : ListenerId, id.context = context → ∀ event, host.fire id event = host
  attachRef : ∀ id : RefId, id.context = context → ∀ handle, host.attachRef id handle = host
  detachRef : ∀ id : RefId, id.context = context → host.detachRef id = host

section NotAlive

variable {host : Host}

theorem attachRef_of_not_alive {id : RefId} (dead : host.isContextAlive id.context = false)
    (handle : Value) : host.attachRef id handle = host := by
  unfold attachRef
  split
  · rfl
  · simp [dead]

theorem detachRef_of_not_alive {id : RefId} (dead : host.isContextAlive id.context = false) :
    host.detachRef id = host := by
  unfold detachRef
  split
  · rfl
  · simp [dead]

theorem fire_of_not_alive {id : ListenerId} (dead : host.isContextAlive id.context = false)
    (handled : ¬ host.Forwards id) (event : Value) : host.fire id event = host := by
  unfold Forwards at handled
  unfold fire
  split
  · rfl
  · rename_i stored
    exact absurd stored handled
  · simp [dead]

/-- What sends the events themselves needs its session only. -/
theorem fire_of_forwards {id : ListenerId} (forwards : host.Forwards id)
    (alive : host.isSessionAlive id.context.session = true) (event : Value) :
    host.fire id event =
      host.send id.context.session (.event id.path id.fid (event.toJson host.objects)) := by
  unfold Forwards at forwards
  simp only [fire, forwards, alive, if_true]

theorem send_ne (session : SessionId) (message : ClientMessage) : host.send session message ≠ host := by
  intro same
  have grown := congrArg (fun host => host.sent.length) same
  simp [send] at grown

end NotAlive

end Host

namespace Client

variable {past : List Deed} {client after : Client}

/-! ## What is remembered of an instance -/

/-- An instance that was created is known by its number for good, and what its window listeners do
    stays declared. -/
structure RemembersCreated (past : List Deed) (client : Client) : Prop where
  known : ∀ identity payload, .step (.instantiate identity payload) ∈ past →
    ∃ standing, client.host.standing identity.id = some standing ∧ standing.identity = identity
  does : ∀ identity payload, .step (.instantiate identity payload) ∈ past →
    (payload.behaviour.listeners.map WindowListener.fid).Nodup →
      ∀ declared ∈ payload.behaviour.listeners,
        client.host.listener? (identity.listenerOf declared) =
          some (declared.behaviourIn payload.content)

namespace RemembersCreated

theorem quiet (remembers : RemembersCreated past client) (change : Quiet client after) :
    RemembersCreated past after where
  known identity payload created := by
    have same : after.host.standing = client.host.standing := by
      cases change with
      | aside host body head => rw [host]
      | report | locate | openSession | dropSession | setAttribute | addObject | changeInputs
      | sync => rfl
      | fire id offered event =>
          exact Host.standing_congr (Host.CalledBack.fire id event client.host).instances
      | setGlobal name value =>
          exact Host.standing_congr (Host.CalledBack.setGlobal name value client.host).instances
      | setPayload id payload => exact Host.standing_setPayload id payload client.host
    rw [same]
    exact remembers.known identity payload created
  does identity payload created distinct declared among := by
    rw [Host.listener?_congr (contexts_quiet change)]
    exact remembers.does identity payload created distinct declared among

theorem render (remembers : RemembersCreated past client) (attending : Attending past client)
    (call : RenderCall) : RemembersCreated (past ++ client.deeds call) (client.render call) := by
  obtain ⟨session, finish, turnover, -⟩ := turnover_render attending.sound.settled call
  have rendered := attending.render call
  have instances := instances_prepared call client
  have entered {identity : Instance} {payload : Payload}
      (new : .step (.instantiate identity payload) ∈ client.deeds call) :
      identity ∈ (client.render call).instances :=
    (turnover.entered attending.sound.settled
      (Step.mem_instantiations.mpr ⟨payload, Deed.mem_steps.mpr new⟩)).2.2.2.2
  refine ⟨fun identity payload created => ?_, fun identity payload created distinct declared among =>
    ?_⟩
  · rcases List.mem_append.mp created with before | new
    · -- The number is an old one, so nothing that is created now takes it.
      obtain ⟨standing, found, own⟩ := remembers.known identity payload before
      have old : identity.id ∉
          (Step.instantiations (Deed.steps (client.deeds call))).map Instance.id := by
        rw [← List.count_eq_zero]
        exact turnover.count_old (attending.old identity payload before)
      rw [host_render_eq_commit call client finish, Host.commit, Host.standing_effects,
        Host.standing_steps _ _ _ old, Host.standing_congr instances, found]
      refine ⟨_, rfl, ?_⟩
      dsimp only
      split <;> split <;> split <;> simpa using own
    · exact ⟨_, standing_of_mem rendered.sound (entered new), rfl⟩
  · rcases List.mem_append.mp created with before | new
    · rw [host_render_eq_commit call client finish]
      apply Host.listener?_commit_of_some
      rw [Host.listener?_steps, listener?_prepared call client rfl,
        remembers.does identity payload before distinct declared among, Option.some_or]
    · exact (rendered.attends identity payload created (entered new) distinct).does declared among

end RemembersCreated

theorem Run.remembersCreated (run : Run past client) : RemembersCreated past client := by
  have both : Attending past client ∧ RemembersCreated past client := by
    refine run.invariant
      (P := fun past client => Attending past client ∧ RemembersCreated past client)
      (fun location policy => ⟨.new location policy, ?_, ?_⟩) ?_
    · rintro _ _ ⟨⟩
    · rintro _ _ ⟨⟩
    · rintro past client deeds after ⟨attending, remembers⟩ move
      refine ⟨attending.move move, ?_⟩
      cases move with
      | quiet change =>
          rw [List.append_nil]
          exact remembers.quiet change
      | render call live => exact remembers.render attending call
  exact both.2

/-! ## What is left when an instance is gone -/

theorem isContextAlive_of_dropped (run : Run past client) {identity : Instance} {payload : Payload}
    (created : .step (.instantiate identity payload) ∈ past)
    (dropped : identity ∉ client.instances) :
    client.host.isContextAlive identity.context = false := by
  obtain ⟨standing, found, own⟩ := run.remembersCreated.known identity payload created
  obtain ⟨state, stored, rfl⟩ := Option.map_eq_some_iff.mp found
  have held : state.isHeld = false :=
    (run.sound.settled.absent identity.id state.standing found (by rwa [own])).2
  simp [Host.isContextAlive, Instance.context, Host.isHeld, stored, held]

/-- What the callbacks of an instance do when it is gone and its session is open. -/
structure LeavesBehind (identity : Instance) (payload : Payload) (client : Client) : Prop where
  /-- Refs store nothing, clear nothing and say nothing. -/
  refs : ∀ id : RefId, id.context = identity.context →
    (∀ handle, client.host.attachRef id handle = client.host) ∧
      client.host.detachRef id = client.host
  /-- Handlers are not evaluated, be they those of elements or of window listeners. -/
  handlers : ∀ id : ListenerId, id.context = identity.context → ¬ client.host.Forwards id →
    ∀ event, client.host.fire id event = client.host
  /-- Without a handler the event is sent, from the position of the instance. -/
  events : ∀ id : ListenerId, id.context = identity.context → client.host.Forwards id →
    id.path = identity.path ∧ ∀ event, client.host.fire id event =
      client.host.send identity.session (.event id.path id.fid (event.toJson client.host.objects))
  /-- So all callbacks are invalid exactly when none of them sends the events themselves. -/
  inert_iff : client.host.Inert identity.context ↔
    ∀ id : ListenerId, id.context = identity.context → ¬ client.host.Forwards id
  /-- A window listener sends the events themselves exactly when it was declared without a handler,
      and the content had no listener of the same function at its root. -/
  forwards_iff : (payload.behaviour.listeners.map WindowListener.fid).Nodup →
    ∀ declared ∈ payload.behaviour.listeners,
      client.host.Forwards (identity.listenerOf declared) ↔
        declared.handler = none ∧ payload.content.listenerAt? declared.fid [] = none

/-- An instance that is gone leaves callbacks behind that do nothing, but for its window listeners
    without a handler: they go on sending the events of the window as long as the session is open. -/
theorem dropped_callbacks (run : Run past client) {identity : Instance} {payload : Payload}
    (created : .step (.instantiate identity payload) ∈ past)
    (dropped : identity ∉ client.instances) (live : client.host.current = some identity.session) :
    LeavesBehind identity payload client := by
  have dead := isContextAlive_of_dropped run created dropped
  have alive : client.host.isSessionAlive identity.session = true :=
    (isSessionAlive_iff run identity.session).mpr (.inl live)
  have refs : ∀ id : RefId, id.context = identity.context →
      (∀ handle, client.host.attachRef id handle = client.host) ∧
        client.host.detachRef id = client.host := by
    intro id own
    rw [← own] at dead
    exact ⟨Host.attachRef_of_not_alive dead, Host.detachRef_of_not_alive dead⟩
  have handlers : ∀ id : ListenerId, id.context = identity.context → ¬ client.host.Forwards id →
      ∀ event, client.host.fire id event = client.host := by
    intro id own handled
    rw [← own] at dead
    exact Host.fire_of_not_alive dead handled
  have events : ∀ id : ListenerId, id.context = identity.context → client.host.Forwards id →
      ∀ event, client.host.fire id event = client.host.send identity.session
        (.event id.path id.fid (event.toJson client.host.objects)) := by
    intro id own forwards event
    have session : id.context.session = identity.session := by
      rw [own]
      rfl
    rw [Host.fire_of_forwards forwards (by rw [session]; exact alive), session]
  refine { refs := refs, handlers := handlers, events := fun id own forwards => ⟨?_, events id own forwards⟩
           inert_iff := ⟨fun inert id own forwards => ?_, fun handled => ?_⟩
           forwards_iff := fun distinct declared among => ?_ }
  · obtain ⟨n, state, found, context, path⟩ := run.listening.forwards id forwards
    obtain ⟨standing, known, isThis⟩ := run.remembersCreated.known identity payload created
    have number : state.identity.id = identity.id := by
      have same := context.trans own
      exact Option.some.inj (congrArg ContextId.instance? same)
    have stands : client.host.standing identity.id = some state.standing := by
      rw [← number, run.sound.settled.named.id_eq found]
      exact Host.standing_of_get? found
    obtain rfl := Option.some.inj (stands.symm.trans known)
    rw [← path, ← isThis]
    rfl
  · have fired := inert.fire id own (.json .null)
    rw [events id own forwards] at fired
    exact Host.send_ne _ _ fired
  · exact ⟨fun id own => handlers id own (handled id own), fun id own => (refs id own).1,
      fun id own => (refs id own).2⟩
  · have does := run.remembersCreated.does identity payload created distinct declared among
    unfold Host.Forwards
    rw [show Assoc.get? _ _ = _ from does, WindowListener.behaviourIn]
    cases payload.content.listenerAt? declared.fid [] with
    | some first => simp [Listener.behaviour]
    | none =>
        cases handled : declared.handler <;> simp [WindowListener.behaviour, handled]

/-- What leads to a client that shows a component with a payload and then a text in its place. -/
def showAndDrop (payload : Payload) : List Action :=
  showPayload payload ++ [.message (Spine.text "gone").encode, .frame]

/-- Of a component that is gone one window listener still sends the event, and the other one, which
    has a handler, does nothing. -/
theorem dropped_button_sends_event :
    let shown := history (showAndDrop resizingButton) (.new "/" .never)
    let forwarding := firstInstance.listenerOf ⟨.name "3", "resize", none⟩
    let handling := firstInstance.listenerOf ⟨.name "4", "resize", some answerGo⟩
    LeavesBehind firstInstance resizingButton shown.2 ∧
      shown.2.host.fire handling (.json .null) = shown.2.host ∧
      shown.2.host.fire forwarding (.json .null) =
        shown.2.host.send 0 (.event .root (.name "3") .null) := by
  intro shown forwarding handling
  have created : shown.1.head? = some (.step (.instantiate firstInstance resizingButton)) := by
    unfold shown
    cbv
  have gone : shown.2.instances = [] := by
    unfold shown
    cbv
  have live : shown.2.host.current = some 0 := by
    unfold shown
    cbv
  have leaves := dropped_callbacks (run_history "/" .never (showAndDrop resizingButton))
    (List.mem_of_mem_head? created) (by rw [gone]; exact List.not_mem_nil) live
  have forwards (declared : WindowListener) (among : declared ∈ resizingButton.behaviour.listeners) :=
    leaves.forwards_iff (by decide) declared among
  refine ⟨leaves, leaves.handlers handling rfl ?_ _, (leaves.events forwarding rfl ?_).2 _⟩
  · rw [forwards _ (by simp [resizingButton])]
    simp
  · rw [forwards _ (by simp [resizingButton])]
    decide

/-- Dropping an instance does not silence all of its callbacks. -/
theorem exists_dropped_not_inert :
    ¬ ∀ past client, Run past client → ∀ identity payload,
      .step (.instantiate identity payload) ∈ past → identity ∉ client.instances →
        client.host.current = some identity.session → client.host.Inert identity.context := by
  intro always
  let shown := history (showAndDrop resizingButton) (.new "/" .never)
  have created : shown.1.head? = some (.step (.instantiate firstInstance resizingButton)) := by
    unfold shown
    cbv
  have gone : shown.2.instances = [] := by
    unfold shown
    cbv
  have live : shown.2.host.current = some 0 := by
    unfold shown
    cbv
  have inert := always shown.1 shown.2 (run_history "/" .never (showAndDrop resizingButton))
    firstInstance resizingButton (List.mem_of_mem_head? created)
    (by rw [gone]; exact List.not_mem_nil) live
  have silent := congrArg Host.sent (inert.fire (firstInstance.listenerOf ⟨.name "3", "resize", none⟩)
    rfl (.json .null))
  have before : shown.2.host.sent = [(0, .location "/")] := by
    unfold shown
    cbv
  have sent : (shown.2.host.fire (firstInstance.listenerOf ⟨.name "3", "resize", none⟩)
      (.json .null)).sent = [(0, .location "/"), (0, .event .root (.name "3") .null)] := by
    unfold shown
    cbv
  cases (sent.symm.trans silent).trans before

end Client

end RemoteView
