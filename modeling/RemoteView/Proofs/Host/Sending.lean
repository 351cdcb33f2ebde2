import RemoteView.Proofs.Host.Listening

/-! # What is sent

Who sends messages, and which. A listener that is called sends at most one message, a ref that
is attached or detached at most one, and the hooks of an instance one each; all of them are sent in
the session of who sends them and name its path. Nothing else about a rendering sends anything.
-/

namespace RemoteView

/-- Could a listener have sent a message? -/
def ListenerId.Speaks (id : ListenerId) (sent : SessionId × ClientMessage) : Prop :=
  sent.1 = id.context.session ∧
    ((∃ name action, sent.2 = .action id.path name action) ∨
      ∃ event, sent.2 = .event id.path id.fid event)

/-- Could a ref have sent a message? -/
def RefId.Speaks (id : RefId) (sent : SessionId × ClientMessage) : Prop :=
  sent.1 = id.context.session ∧ ∃ action, sent.2 = .ref id.path action

/-- Could a hook of an instance have sent a message? -/
def Instance.Speaks (identity : Instance) (sent : SessionId × ClientMessage) : Prop :=
  sent.1 = identity.session ∧ ∃ answer, sent.2 = .hook identity.path answer

namespace Host

/-- The messages that were sent between two hosts are of a kind. -/
def Sends (P : SessionId × ClientMessage → Prop) (before after : Host) : Prop :=
  ∃ messages, after.sent = before.sent ++ messages ∧ ∀ message ∈ messages, P message

namespace Sends

variable {P Q : SessionId × ClientMessage → Prop} {before middle after : Host}

theorem of_same (same : after.sent = before.sent) : Sends P before after :=
  ⟨[], by simp [same], by simp⟩

theorem refl (host : Host) : Sends P host host := of_same rfl

theorem one (message : SessionId × ClientMessage) (holds : P message)
    (added : after.sent = before.sent ++ [message]) : Sends P before after :=
  ⟨[message], added, by simpa using holds⟩

theorem trans (first : Sends P before middle) (second : Sends P middle after) :
    Sends P before after := by
  obtain ⟨messages, sent, said⟩ := first
  obtain ⟨more, sentMore, saidMore⟩ := second
  refine ⟨messages ++ more, by rw [sentMore, sent, List.append_assoc], fun message member => ?_⟩
  rcases List.mem_append.mp member with here | there
  · exact said message here
  · exact saidMore message there

theorem mono (sends : Sends P before after) (implies : ∀ message, P message → Q message) :
    Sends Q before after := by
  obtain ⟨messages, sent, said⟩ := sends
  exact ⟨messages, sent, fun message member => implies message (said message member)⟩

end Sends

/-! ## Listeners and refs -/

theorem evaluateIn_eq (context : ContextId) (holes : Assoc UInt32 Value) (e : Expr) (host : Host) :
    host.evaluateIn context holes e =
      let answer := (e.evaluate ⟨holes, (host.context context).handles, .host host.window⟩).run
        host.objects
      (answer.1, { host with objects := answer.2 }) := rfl

theorem sent_invokeIf (flag : Bool) (method : String) (value : Value) (host : Host) :
    (host.invokeIf flag method value).sent = host.sent := by
  unfold invokeIf
  split <;> rfl

/-- A listener that is called sends one message or none: an action when it has a handler, and the
    event itself when it has none. -/
theorem sent_fire (id : ListenerId) (event : Value) (host : Host) :
    (host.fire id event).sent = host.sent ∨ ∃ message,
      (host.fire id event).sent = host.sent ++ [(id.context.session, message)] ∧
        ((∃ name handler action, Assoc.get? (id.path, id.fid) (host.context id.context).listeners =
            some (.evaluate name handler) ∧ message = .action id.path name action) ∨
          (Assoc.get? (id.path, id.fid) (host.context id.context).listeners = some .forward ∧
            host.isSessionAlive id.context.session = true ∧
            ∃ told, message = .event id.path id.fid told)) := by
  unfold fire
  cases declared : Assoc.get? (id.path, id.fid) (host.context id.context).listeners with
  | none => exact .inl rfl
  | some behaviour =>
      cases behaviour with
      | forward =>
          simp only
          split
          · rename_i alive
            exact .inr ⟨_, rfl, .inr ⟨trivial, alive, _, rfl⟩⟩
          · exact .inl rfl
      | evaluate name handler =>
          simp only
          split
          · rw [evaluateIn_eq]
            split
            · rename_i record answered found
              obtain ⟨-, rfl⟩ := Prod.mk.inj found
              unfold answerEvent
              cases record.action with
              | none => exact .inl (by simp only [sent_invokeIf])
              | some action =>
                  exact .inr ⟨.action id.path name action, by simp only [send, sent_invokeIf],
                    .inl ⟨name, handler, action, rfl, rfl⟩⟩
            · rename_i answered _ found
              obtain ⟨-, rfl⟩ := Prod.mk.inj found
              exact .inl rfl
          · exact .inl rfl

theorem sent_withKey (id : RefId) (declared : RefAttribute) (change : String → RefStore → RefStore)
    (host : Host) : (host.withKey id declared change).sent = host.sent := by
  unfold withKey
  split <;> rfl

theorem sends_answerRef (id : RefId) (answer : Value) (host : Host) :
    Sends id.Speaks host (host.answerRef id answer) := by
  unfold answerRef
  split
  · rename_i action
    exact .one _ ⟨rfl, action, rfl⟩ rfl
  · exact .refl host

theorem sends_attachRef (id : RefId) (handle : Value) (host : Host) :
    Sends (fun message => host.isContextAlive id.context = true ∧ id.Speaks message) host
      (host.attachRef id handle) := by
  unfold attachRef
  split
  · exact .refl host
  · rename_i declared _
    split
    · rename_i alive
      have keyed : Sends (fun message => host.isContextAlive id.context = true ∧ id.Speaks message)
          host (host.withKey id declared fun key => Assoc.insert key handle) :=
        .of_same (sent_withKey ..)
      exact keyed.trans (.trans (.of_same rfl)
        ((sends_answerRef id _ _).mono fun message spoken => ⟨alive, spoken⟩))
    · exact .refl host

theorem sends_detachRef (id : RefId) (host : Host) :
    Sends (fun message => host.isContextAlive id.context = true ∧ id.Speaks message) host
      (host.detachRef id) := by
  unfold detachRef
  split
  · exact .refl host
  · rename_i declared _
    split
    · rename_i alive
      have keyed : Sends (fun message => host.isContextAlive id.context = true ∧ id.Speaks message)
          host (host.withKey id declared fun key => Assoc.erase key) :=
        .of_same (sent_withKey ..)
      exact keyed.trans (.trans (.of_same rfl)
        ((sends_answerRef id _ _).mono fun message spoken => ⟨alive, spoken⟩))
    · exact .refl host

/-! ## Hooks -/

/-- What hooks of an instance answer one after another, as messages. -/
def hookMessages (identity : Instance) : List Expr → Host → List (SessionId × ClientMessage)
  | [], _ => []
  | hook :: rest, host =>
      let (answer, after) := host.evaluateIn identity.context [] hook
      (identity.session, .hook identity.path (answer.toJson after.objects)) ::
        hookMessages identity rest after

/-- What an expression answers, and what becomes of the objects, depends on these and on the handles
    under stable keys. -/
theorem evaluateIn_congr (context : ContextId) (holes : Assoc UInt32 Value) (e : Expr)
    {host other : Host} (objects : other.objects = host.objects)
    (window : other.window = host.window) (contexts : other.contexts = host.contexts) :
    (other.evaluateIn context holes e).1 = (host.evaluateIn context holes e).1 ∧
      (other.evaluateIn context holes e).2.objects =
        (host.evaluateIn context holes e).2.objects := by
  simp only [evaluateIn_eq, Host.context, objects, window, contexts, and_self]

theorem hookMessages_congr (identity : Instance) (hooks : List Expr) {host other : Host}
    (objects : other.objects = host.objects) (window : other.window = host.window)
    (contexts : other.contexts = host.contexts) :
    hookMessages identity hooks other = hookMessages identity hooks host := by
  induction hooks generalizing host other with
  | nil => rfl
  | cons hook rest ih =>
      obtain ⟨answer, left⟩ :=
        evaluateIn_congr identity.context [] hook objects window contexts
      simp only [hookMessages, answer, left]
      exact congrArg _ (ih left window contexts)

theorem sent_runHooks (identity : Instance) (hooks : List Expr) (host : Host) :
    (host.runHooks identity hooks).sent = host.sent ++ hookMessages identity hooks host := by
  unfold runHooks
  induction hooks generalizing host with
  | nil => simp [hookMessages]
  | cons hook rest ih =>
      have same : hookMessages identity rest (host.runHook identity hook) =
          hookMessages identity rest (host.evaluateIn identity.context [] hook).2 :=
        hookMessages_congr identity rest rfl rfl rfl
      rw [List.foldl_cons, ih, same]
      simp [hookMessages, runHook, send, evaluateIn_eq]

theorem speaks_hookMessages (identity : Instance) (hooks : List Expr) (host : Host) :
    ∀ message ∈ hookMessages identity hooks host, identity.Speaks message := by
  induction hooks generalizing host with
  | nil => simp [hookMessages]
  | cons hook rest ih =>
      intro message member
      rcases List.mem_cons.mp member with rfl | later
      · exact ⟨rfl, _, rfl⟩
      · exact ih _ message later

theorem sends_runHooks (identity : Instance) (hooks : List Expr) (host : Host) :
    Sends identity.Speaks host (host.runHooks identity hooks) :=
  ⟨_, sent_runHooks identity hooks host, speaks_hookMessages identity hooks host⟩

theorem sent_registerMounted (identity : Instance) (host : Host) :
    (host.registerMounted identity).sent = host.sent := by
  obtain ⟨_, same⟩ := registerMounted_eq identity host
  rw [same]

theorem sent_attachListeners (identity : Instance) (declared : List WindowListener) (host : Host) :
    (declared.foldl (attachListener identity) host).sent = host.sent := by
  induction declared generalizing host with
  | nil => rfl
  | cons first rest ih => exact ih _

theorem sends_didMount (id : InstanceId) (host : Host) :
    Sends (fun message => ∃ state, host.instances.get? id = some state ∧ state.phase = .created ∧
      state.identity.Speaks message) host (host.didMount id) := by
  unfold didMount
  cases found : host.instances.get? id with
  | none => exact .refl host
  | some state =>
      simp only
      split
      · rename_i created
        have entered := sent_registerMounted state.identity
          (host.modifyInstance id ({ · with phase := .mounted }))
        have hooked := (sends_runHooks state.identity state.payload.behaviour.onMount
          (Host.registerMounted state.identity
            (host.modifyInstance id ({ · with phase := .mounted })))).mono
              fun message spoken => (⟨state, rfl, created, spoken⟩ : ∃ other,
                some state = some other ∧ other.phase = .created ∧ other.identity.Speaks message)
        exact (Sends.of_same entered).trans (hooked.trans (.of_same (sent_attachListeners ..)))
      · exact .refl host

theorem sent_willUnmount {host : Host} {id : InstanceId} {state : InstanceState}
    (found : host.instances.get? id = some state) (mounted : state.phase = .mounted) :
    (host.willUnmount id).sent =
      host.sent ++ hookMessages state.identity state.payload.behaviour.onUnmount host := by
  obtain ⟨window, same⟩ := willUnmount_eq found mounted
  rw [same]
  refine (sent_runHooks ..).trans ?_
  exact congrArg (host.sent ++ ·) (hookMessages_congr _ _ rfl rfl rfl)

theorem sends_willUnmount (id : InstanceId) (host : Host) :
    Sends (fun message => ∃ state, host.instances.get? id = some state ∧ state.phase = .mounted ∧
      state.identity.Speaks message) host (host.willUnmount id) := by
  rcases willUnmount_cases id host with ⟨state, found, mounted⟩ | ⟨-, same⟩
  · exact ⟨_, sent_willUnmount found mounted, fun message member =>
      ⟨state, found, mounted, speaks_hookMessages _ _ _ message member⟩⟩
  · rw [same]
    exact .refl host

/-! ## Steps and effects -/

/-- The instances that are not unmounted yet, or that a tree holds, have a property. -/
def Living (K : Instance → Prop) (host : Host) : Prop :=
  ∀ id standing, host.standing id = some standing →
    standing.phase ≠ .unmounted ∨ standing.isHeld = true → K standing.identity

namespace Living

variable {K : Instance → Prop} {host after : Host}

theorem congr (living : host.Living K) (same : after.instances = host.instances) :
    after.Living K := by
  intro id standing found
  rw [standing_congr same] at found
  exact living id standing found

theorem of_map {move : Standing → Standing} {id : InstanceId} {standing : Standing}
    (living : host.Living K) (same : after.standing id = (host.standing id).map move)
    (keeps : ∀ was, (move was).identity = was.identity)
    (ends : ∀ was, was.phase = .unmounted → was.isHeld = false → move was = was)
    (found : after.standing id = some standing)
    (lives : standing.phase ≠ .unmounted ∨ standing.isHeld = true) : K standing.identity := by
  rw [same] at found
  obtain ⟨was, stood, rfl⟩ := Option.map_eq_some_iff.mp found
  rw [keeps]
  apply living id was stood
  by_contra ended
  simp only [not_or, ne_eq, Decidable.not_not, Bool.not_eq_true] at ended
  rw [ends was ended.1 ended.2] at lives
  simp [ended.1, ended.2] at lives

theorem runStep (living : host.Living K) (step : Step)
    (created : ∀ identity ∈ step.instantiated?, K identity) : (host.runStep step).Living K := by
  intro id standing found lives
  by_cases old : ∀ identity ∈ step.instantiated?, identity.id ≠ id
  · refine living.of_map (standing_runStep host step id old) (fun was => ?_) (fun was phase held => ?_)
      found lives
    · simp only
      split <;> split <;> simp
    · obtain ⟨-, unmount, release⟩ := Standing.ended phase held
      simp [unmount, release]
  · -- The step creates the instance with this number.
    cases step with
    | instantiate identity payload =>
        obtain rfl : identity.id = id := by simpa using old
        rw [Host.runStep, standing_instantiate, if_pos rfl, Option.some.injEq] at found
        rw [← found]
        exact created identity rfl
    | createHandle | syncHandle | detachRef | willUnmount | release | receive | declare =>
        simp at old

theorem runEffect (living : host.Living K) (effect : Effect) : (host.runEffect effect).Living K := by
  intro id standing found lives
  refine living.of_map (standing_runEffect host effect id) (fun was => ?_) (fun was phase held => ?_)
    found lives
  · split <;> simp
  · obtain ⟨mount, -, -⟩ := Standing.ended phase held
    simp [mount]

end Living

/-- The steps of a rendering send what refs answer that are detached, and what the hooks of living
    instances do. -/
theorem sends_runStep {K : Instance → Prop} {host : Host} (living : host.Living K) (step : Step) :
    Sends (fun message =>
      (∃ id, step = .detachRef id ∧ host.isContextAlive id.context = true ∧ id.Speaks message) ∨
        ∃ identity, K identity ∧ identity.Speaks message) host (host.runStep step) := by
  cases step with
  | createHandle | syncHandle | release | instantiate | receive => exact .of_same rfl
  | detachRef id =>
      exact (sends_detachRef id host).mono fun message spoken =>
        .inl ⟨id, rfl, spoken.1, spoken.2⟩
  | willUnmount id =>
      refine (sends_willUnmount id host).mono fun message => ?_
      rintro ⟨state, found, mounted, spoken⟩
      refine .inr ⟨state.identity, ?_, spoken⟩
      exact living id state.standing (Host.standing_of_get? found)
        (.inl (by simp [InstanceState.standing, mounted]))
  | declare site spine =>
      obtain ⟨contexts, styles, sessions, same, -⟩ := declareAll_eq site spine host
      rw [runStep, same]
      exact .of_same rfl

theorem sends_runEffect {K : Instance → Prop} {host : Host} (living : host.Living K)
    (effect : Effect) :
    Sends (fun message =>
      (∃ id handle, effect = .attachRef id handle ∧ host.isContextAlive id.context = true ∧
        id.Speaks message) ∨
        ∃ identity, K identity ∧ identity.Speaks message) host (host.runEffect effect) := by
  cases effect with
  | attachRef id handle =>
      exact (sends_attachRef id (.host handle) host).mono fun message spoken =>
        .inl ⟨id, handle, rfl, spoken.1, spoken.2⟩
  | didMount id =>
      refine (sends_didMount id host).mono fun message => ?_
      rintro ⟨state, found, created, spoken⟩
      refine .inr ⟨state.identity, ?_, spoken⟩
      exact living id state.standing (Host.standing_of_get? found)
        (.inl (by simp [InstanceState.standing, created]))

end Host

end RemoteView
