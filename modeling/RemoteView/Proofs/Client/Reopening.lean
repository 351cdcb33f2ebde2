import RemoteView.Proofs.Client.Teardown

/-! # Opening over a session

A connection can be opened while there is a session. The new session takes its place, but unlike the
end of a connection this takes nothing down: what is in the trees stays there and keeps its session
alive, and the spine that waits is rendered in the new session. So the earlier sessions are discarded
exactly when there was nothing to be discarded.
-/

namespace RemoteView.Client

/-- The spine that waits for the next frame, if there is one that can be read. -/
def awaited? (client : Client) : Option Spine :=
  client.scheduler.pending.bind fun raw => (Spine.decode .root raw).toOption

/-- Does a spine arrive when these things happen? -/
def Arrives (spine : Spine) (actions : List Action) : Prop :=
  ∃ message raw, Action.message message ∈ actions ∧ ServerMessage.decode message = .ok (.spine raw) ∧
    Spine.decode .root raw = .ok spine

/-- With the session that has been opened, all earlier ones are discarded. -/
structure DiscardsEarlier (opened : Client) : Prop where
  mounted : ∀ id state, opened.host.instances.get? id = some state → state.phase = .mounted →
    opened.host.current = some state.identity.session
  listeners : ∀ event id, (event, id) ∈ opened.host.windowListeners →
    opened.host.current = some id.context.session
  /-- A frame renders only what arrives from now on. -/
  rendered : ∀ actions ready session spine,
    (opened.performAll actions).call? .frame = some (ready, .body session spine) →
      Arrives spine actions
  /-- In earlier sessions nothing is sent any more. -/
  silent : ∀ current, opened.host.current = some current → ∀ session < current, ∀ actions,
    Host.Sends (fun message => message.1 ≠ session) opened.host (opened.performAll actions).host

/-- What opening a connection leaves of earlier sessions, and for how long. -/
structure LeavesEarlier (before opened : Client) : Prop where
  current : opened.host.current = some before.host.sessions.next
  sent : opened.host.sent =
    before.host.sent ++ [(before.host.sessions.next, .location before.navigation.current)]
  body : opened.body = before.body
  head : opened.head = before.head
  scheduler : opened.scheduler = before.scheduler
  instances : opened.host.instances = before.host.instances
  windowListeners : opened.host.windowListeners = before.host.windowListeners
  /-- A frame that renders takes down what is left in the body. -/
  frame : ∀ actions ready session spine,
    (opened.performAll actions).call? .frame = some (ready, .body session spine) →
      ∀ identity ∈ ((opened.performAll actions).perform .frame).body.instances,
        identity.session = session
  /-- Fragments that are rendered take down what is left in the head. -/
  fragments : ∀ actions ready session spines fragments,
    (opened.performAll actions).call? (.renderFragments fragments) =
        some (ready, .head session spines) →
      ∀ tree ∈ ((opened.performAll actions).perform (.renderFragments fragments)).head,
        ∀ identity ∈ tree.instances, identity.session = session
  /-- When none of its instances is left an earlier session is over. -/
  released : ∀ actions, ∀ session < before.host.sessions.next,
    (∀ identity ∈ (opened.performAll actions).instances, identity.session ≠ session) → ∀ more,
      Host.Sends (fun message => message.1 ≠ session) (opened.performAll actions).host
        ((opened.performAll actions).performAll more).host

theorem openConnection_eq (client : Client) : ∃ log, client.openConnection = { client with
    host := { client.host.openSession.2 with
      log := log
      sent := client.host.sent ++
        [(client.host.sessions.next, .location client.navigation.current)] } } := by
  by_cases live : client.host.current.isSome
  · exact ⟨_, by rw [openConnection, if_pos live]; rfl⟩
  · exact ⟨_, by rw [openConnection, if_neg live]; rfl⟩

/-! ## What waits -/

@[simp] theorem scheduler_refreshInputs (client : Client) :
    client.refreshInputs.scheduler = client.scheduler := rfl

@[simp] theorem scheduler_call (callback : Callback) (element : MountedElement) (event : Value)
    (client : Client) : (client.call callback element event).scheduler = client.scheduler := by
  cases callback with
  | listener id => rfl
  | external label => rfl
  | input handle =>
      simp only [call]
      split <;> rfl

@[simp] theorem scheduler_dispatch (path : Path) (event : String) (native : Value)
    (client : Client) : (client.dispatch path event native).2.scheduler = client.scheduler := by
  unfold dispatch
  split
  · rfl
  · split
    · rfl
    · simp

@[simp] theorem scheduler_setAttribute (path : Path) (name : String) (value : Json)
    (client : Client) : (client.setAttribute path name value).scheduler = client.scheduler := by
  unfold setAttribute
  split <;> rfl

@[simp] theorem scheduler_typeText (path : Path) (text : String) (client : Client) :
    (client.typeText path text).2.scheduler = client.scheduler := by
  unfold typeText
  split
  · rfl
  · simp [modifyHost]

@[simp] theorem scheduler_renderInstance (state : InstanceState) (client : Client) :
    (client.renderInstance state).scheduler = client.scheduler := by
  unfold renderInstance
  simp only
  split
  · rfl
  · split <;> rfl

/-- What waits after something has happened waited before, or has just arrived. -/
theorem pending_perform (action : Action) (client : Client) {raw : Json}
    (waits : (client.perform action).scheduler.pending = some raw) :
    client.scheduler.pending = some raw ∨
      ∃ message, action = .message message ∧ ServerMessage.decode message = .ok (.spine raw) := by
  cases action with
  | openConnection =>
      obtain ⟨log, opened⟩ := openConnection_eq client
      refine .inl ?_
      rw [← waits, perform, opened]
  | message message =>
      simp only [perform, handleMessage] at waits
      split at waits
      · rename_i spine received
        rw [pending_schedule] at waits
        exact .inr ⟨message, rfl, by rw [received, Option.some.inj waits]⟩
      · refine .inl ?_
        rw [← waits, pushLocation]
        split <;> rfl
      · exact .inl waits
  | frame =>
      -- A frame takes what waits, whatever comes of it.
      simp only [perform, frame, Scheduler.take] at waits
      repeat' split at waits
      all_goals cases waits
  | renderAt key raw =>
      refine .inl ?_
      rw [← waits, perform, renderAt]
      repeat' split
      all_goals simp [modifyHost, abandon]
  | renderFragments fragments =>
      refine .inl ?_
      rw [← waits, perform, renderFragments]
      repeat' split
      all_goals rfl
  | close | fail reason => cases waits
  | popState =>
      refine .inl ?_
      rw [← waits, perform, popState]
      split <;> rfl
  | dispatch path event native => exact .inl (by simpa [perform] using waits)
  | typeText path text => exact .inl (by simpa [perform] using waits)
  | setAttribute path name value => exact .inl (by simpa [perform] using waits)
  | takeFrameRequest | navigate location | dispatchWindow event native | setGlobal name value
  | addObject object => exact .inl waits

theorem pending_performAll (actions : List Action) (client : Client) {raw : Json}
    (waits : (client.performAll actions).scheduler.pending = some raw) :
    client.scheduler.pending = some raw ∨
      ∃ message, Action.message message ∈ actions ∧
        ServerMessage.decode message = .ok (.spine raw) := by
  induction actions generalizing client with
  | nil => exact .inl waits
  | cons action rest ih =>
      rcases ih (client.perform action) waits with before | ⟨message, arrives, received⟩
      · rcases pending_perform action client before with earlier | ⟨message, rfl, received⟩
        · exact .inl earlier
        · exact .inr ⟨message, List.mem_cons_self, received⟩
      · exact .inr ⟨message, List.mem_cons_of_mem _ arrives, received⟩

theorem call?_frame_eq_some {client ready : Client} {session : SessionId} {spine : Spine}
    (called : client.call? .frame = some (ready, .body session spine)) :
    client.host.current = some session ∧ ∃ raw, client.scheduler.pending = some raw ∧
      Spine.decode .root raw = .ok spine := by
  simp only [call?, Scheduler.take, Option.bind_eq_bind, Option.bind_eq_some_iff, Option.pure_def,
    Option.some.injEq, Prod.mk.injEq, RenderCall.body.injEq] at called
  obtain ⟨raw, waits, other, live, content, reads, -, rfl, rfl⟩ := called
  refine ⟨live, raw, waits, ?_⟩
  cases decoded : Spine.decode .root raw with
  | error error => rw [decoded] at reads; cases reads
  | ok found =>
      rw [decoded] at reads
      rw [Option.some.inj reads]

/-- What a frame renders was awaited before, or has arrived since. -/
theorem arrives_of_rendered {client ready : Client} (none : client.awaited? = none)
    {actions : List Action} {session : SessionId} {spine : Spine}
    (called : (client.performAll actions).call? .frame = some (ready, .body session spine)) :
    Arrives spine actions := by
  obtain ⟨-, raw, waits, decoded⟩ := call?_frame_eq_some called
  rcases pending_performAll actions client waits with before | ⟨message, arrives, received⟩
  · rw [awaited?, before, Option.bind_some, decoded] at none
    cases none
  · exact ⟨message, raw, arrives, received, decoded⟩

/-! ## What is rendered belongs to the open session -/

theorem session_body_perform_frame {client ready : Client} (sound : Sound client)
    {session : SessionId} {spine : Spine}
    (called : client.call? .frame = some (ready, .body session spine)) :
    ∀ identity ∈ (client.perform .frame).body.instances, identity.session = session := by
  obtain ⟨live, raw, waits, decoded⟩ := call?_frame_eq_some called
  obtain ⟨before, placed⟩ := sound.body
  rw [perform, frame_eq_renderBody live waits decoded]
  exact (Sound.placed_root placed session spine _).session_eq

theorem session_head_perform_renderFragments {client ready : Client} (sound : Sound client)
    {fragments : List Json} {session : SessionId} {spines : List Spine}
    (called : client.call? (.renderFragments fragments) = some (ready, .head session spines)) :
    ∀ tree ∈ (client.perform (.renderFragments fragments)).head,
      ∀ identity ∈ tree.instances, identity.session = session := by
  obtain ⟨before, placed⟩ := sound.head
  simp only [call?, Option.bind_eq_bind, Option.bind_eq_some_iff, Option.pure_def,
    Option.some.injEq, Prod.mk.injEq, RenderCall.head.injEq] at called
  obtain ⟨other, live, found, reads, -, rfl, rfl⟩ := called
  cases decoded : fragments.mapM (Spine.decode .root) with
  | error error => rw [decoded] at reads; cases reads
  | ok spines =>
      obtain rfl : spines = found := by rw [decoded] at reads; exact Option.some.inj reads
      simp only [perform, renderFragments, live, decoded]
      intro tree member
      exact (Sound.placed_head placed other spines _ tree member).session_eq

/-! ## What opening leaves -/

section

variable {client : Client}

theorem leavesEarlier_openConnection (reachable : Reachable client) :
    LeavesEarlier client client.openConnection := by
  obtain ⟨log, opened⟩ := openConnection_eq client
  have later (actions : List Action) : Reachable (client.openConnection.performAll actions) :=
    (reachable.perform .openConnection).performAll actions
  have since : Since client.host.sessions.next client.openConnection := by
    rw [opened]
    exact ⟨Nat.le_max_left _ _, fun session live => Nat.le_of_eq (Option.some.inj live)⟩
  refine {
    current := by rw [opened]; rfl
    sent := by rw [opened]
    body := by rw [opened]
    head := by rw [opened]
    scheduler := by rw [opened]
    instances := by rw [opened]; rfl
    windowListeners := by rw [opened]; rfl
    frame := fun actions _ _ _ called => session_body_perform_frame (later actions).sound called
    fragments := fun actions _ _ _ _ called =>
      session_head_perform_renderFragments (later actions).sound called
    released := fun actions session earlier gone more => ?_ }
  obtain ⟨past, run⟩ := later actions
  have bounded := since.performAll (reachable.perform .openConnection) actions
  refine (isOver_performAll (later actions) ((isOver_iff run session).mpr
    ⟨Nat.lt_of_lt_of_le earlier bounded.opened, ?_⟩) more).2
  rw [← Bool.not_eq_true, isSessionAlive_iff run]
  rintro (live | ⟨identity, member, own⟩)
  · exact Nat.not_lt_of_le (bounded.current session live) earlier
  · exact gone identity member own

theorem discardsEarlier_of_nothing (reachable : Reachable client)
    (nobody : ∀ id state, client.host.instances.get? id = some state → state.phase ≠ .mounted)
    (none : client.awaited? = none) : DiscardsEarlier client.openConnection := by
  obtain ⟨past, run⟩ := reachable
  have left := leavesEarlier_openConnection ⟨past, run⟩
  have empty : client.instances = [] := by
    refine List.eq_nil_iff_forall_not_mem.mpr fun identity member => ?_
    obtain ⟨state, found, same⟩ := (mountedAreShown_of_settled run.sound.settled).1 identity member
    refine nobody _ state found
      (((mountedAreShown_of_settled run.sound.settled).2 _ state found).mpr ?_)
    rw [same]
    exact member
  refine { mounted := fun id state found mounted => ?_
           listeners := fun event id member => ?_
           rendered := fun actions _ _ _ called => arrives_of_rendered ?_ called
           silent := fun current live session earlier actions => ?_ }
  · rw [left.instances] at found
    exact absurd mounted (nobody id state found)
  · rw [left.windowListeners, windowListeners_of_empty run.sound run.listening empty] at member
    cases member
  · rw [awaited?, left.scheduler]
    exact none
  · obtain rfl : client.host.sessions.next = current := Option.some.inj (left.current.symm.trans live)
    refine left.released [] session earlier (fun identity member => ?_) actions
    rw [show (client.openConnection.performAll []).instances = client.instances by
      rw [performAll, List.foldl_nil, instances, instances, left.body, left.head], empty] at member
    cases member

/-- Opening a connection discards the earlier sessions exactly when nothing is mounted and no spine
    waits. Otherwise what they have left stays, until what is rendered in the new session takes it
    down. -/
theorem discardsEarlier_openConnection_iff (reachable : Reachable client) :
    (DiscardsEarlier client.openConnection ↔
      (∀ id state, client.host.instances.get? id = some state → state.phase ≠ .mounted) ∧
        client.awaited? = none) ∧
    LeavesEarlier client client.openConnection := by
  have left := leavesEarlier_openConnection reachable
  refine ⟨⟨fun discards => ⟨fun id state found mounted => ?_, ?_⟩,
    fun nothing => discardsEarlier_of_nothing reachable nothing.1 nothing.2⟩, left⟩
  · obtain ⟨past, run⟩ := reachable
    have inNew := discards.mounted id state (by rw [left.instances]; exact found) mounted
    have member := ((mountedAreShown_of_settled run.sound.settled).2 id state found).mp mounted
    rw [left.current, Option.some.injEq] at inNew
    exact absurd (session_lt_of_mem run member) (by rw [← inNew]; exact Nat.lt_irrefl _)
  · cases awaited : client.awaited? with
    | none => rfl
    | some spine =>
        obtain ⟨raw, waits, reads⟩ := Option.bind_eq_some_iff.mp awaited
        obtain ⟨message, _, arrives, -⟩ := discards.rendered [] _ _ spine (show
            client.openConnection.call? .frame =
              some ({ client.openConnection with
                scheduler := client.openConnection.scheduler.take.2 },
                .body client.host.sessions.next spine) by
          simp only [call?, left.scheduler, Scheduler.take, waits, left.current, reads,
            Option.bind_eq_bind, Option.bind_some, Option.pure_def])
        cases arrives

end

/-- What leads to a client that shows a text. -/
def showText : List Action := [.openConnection, .message (.string "text"), .frame]

/-- Nothing is left of the session in which a text was shown. -/
theorem text_discarded_by_opening :
    let client := (history showText (.new "/" .never)).2
    client.host.current = some 0 ∧ DiscardsEarlier client.openConnection := by
  intro client
  have reachable : Reachable client := ⟨_, run_history "/" .never showText⟩
  have nobody : client.host.instances = .empty := by
    unfold client
    cbv
  refine ⟨?_, (discardsEarlier_openConnection_iff reachable).1.mpr ⟨?_, ?_⟩⟩
  · unfold client
    cbv
  · intro id state found
    rw [nobody] at found
    cases found
  · unfold client
    cbv

/-- A component that is shown stays when a connection is opened over its session. -/
theorem exists_live_not_discarded :
    ¬ ∀ client, Reachable client → client.host.current.isSome →
      DiscardsEarlier client.openConnection := by
  intro always
  have reachable : Reachable showingComponent := ⟨_, run_history "/" .never showComponent⟩
  have discards := always showingComponent reachable (by cbv)
  have stays : (showingComponent.openConnection.host.instances.get? 0).map
      (fun state => (state.phase, state.identity.session)) = some (.mounted, 0) := by
    cbv
  obtain ⟨state, found, same⟩ := Option.map_eq_some_iff.mp stays
  obtain ⟨mounted, own⟩ := Prod.mk.inj same
  have inNew := discards.mounted 0 state found mounted
  rw [own, show showingComponent.openConnection.host.current = some 1 by cbv] at inNew
  cases inNew

end RemoteView.Client
