import RemoteView.Proofs.Client.Addressing
import RemoteView.Proofs.Host.Over

/-! # The sessions of a client

In every client that can be reached the window listeners are those of the mounted instances, and a
session lives as long as it is the open one or one of its instances is in the trees. Once it is over
it stays over, whatever happens, and nothing is sent in it.
-/

namespace RemoteView.Client

/-- The client after things have happened one after another. -/
def performAll (actions : List Action) (client : Client) : Client :=
  actions.foldl (fun client action => client.perform action) client

theorem Reachable.sound {client : Client} (reachable : Reachable client) : Sound client := by
  obtain ⟨past, run⟩ := reachable
  exact run.sound

theorem Reachable.perform {client : Client} (reachable : Reachable client) (action : Action) :
    Reachable (client.perform action) := by
  obtain ⟨past, run⟩ := reachable
  exact ⟨_, run.perform action⟩

theorem Reachable.performAll {client : Client} (reachable : Reachable client)
    (actions : List Action) : Reachable (client.performAll actions) := by
  induction actions generalizing client with
  | nil => exact reachable
  | cons action rest ih => exact ih (reachable.perform action)

theorem prepared_eq (call : RenderCall) (client : Client) :
    ∃ contexts styles sessions log, client.prepared call =
        { client.host with
          contexts := contexts, styles := styles, sessions := sessions, log := log } ∧
      client.host.sessions.next ≤ sessions.next := by
  refine prepared_induction call ⟨_, _, _, _, rfl, Nat.le_refl _⟩ ?_ ?_
  · rintro site spine _ ⟨contexts, styles, sessions, log, rfl, grown⟩
    obtain ⟨_, _, _, same, further⟩ := Host.declareAll_eq site spine
      { client.host with contexts := contexts, styles := styles, sessions := sessions, log := log }
    exact ⟨_, _, _, _, same, Nat.le_trans grown further⟩
  · rintro notice _ ⟨_, _, _, _, rfl, grown⟩
    exact ⟨_, _, _, _, rfl, grown⟩

/-! ## Window listeners -/

theorem forwards_prepared {call : RenderCall} {client : Client} {id : ListenerId}
    (forwards : (client.prepared call).Forwards id) : client.host.Forwards id := by
  revert forwards
  refine prepared_induction call (fun forwards => forwards) ?_ fun _ _ before => before
  exact fun _ _ _ before forwards => before (Host.forwards_declareAll forwards)

theorem listening_render {client : Client} (sound : Sound client)
    (listening : client.host.Listening) (call : RenderCall) :
    (client.render call).host.Listening := by
  obtain ⟨session, finish, turnover, -⟩ := turnover_render sound.settled call
  have windowListeners : (client.prepared call).windowListeners = client.host.windowListeners := by
    obtain ⟨_, _, _, _, same, -⟩ := prepared_eq call client
    rw [same]
  have instances := instances_prepared call client
  have settled := sound.settled.congr instances
  rw [host_render_eq_commit call client finish]
  rw [← supply_prepared call] at turnover
  exact turnover.listening_commit settled
    (listening.congr instances windowListeners fun _ => forwards_prepared)

theorem listening_quiet {client after : Client} (listening : client.host.Listening)
    (change : Quiet client after) : after.host.Listening := by
  cases change with
  | aside host body head => rwa [host]
  | report | locate | openSession | dropSession | setAttribute | addObject | changeInputs | sync =>
      exact listening.congr rfl rfl fun _ forwards => forwards
  | fire id offered event => exact listening.calledBack (.fire id event _)
  | setGlobal name value => exact listening.calledBack (.setGlobal name value _)
  | setPayload id payload =>
      exact listening.modifyInstance id _ (fun _ => rfl) (fun _ ended => ended) fun _ => rfl

theorem Run.listening {past : List Deed} {client : Client} (run : Run past client) :
    client.host.Listening := by
  have both : Sound client ∧ client.host.Listening := by
    refine run.invariant (P := fun _ client => Sound client ∧ client.host.Listening)
      (fun location policy => ⟨(Run.new location policy).sound, .empty⟩) ?_
    intro _ client _ after ⟨sound, listening⟩ move
    refine ⟨sound.move move, ?_⟩
    cases move with
    | quiet change => exact listening_quiet listening change
    | render call live => exact listening_render sound listening call
  exact both.2

/-! ## What is alive -/

theorem standing_of_mem {client : Client} (sound : Sound client) {identity : Instance}
    (member : identity ∈ client.instances) :
    client.host.standing identity.id = some ⟨identity, .mounted, true⟩ :=
  sound.settled.present identity member

/-- Only the instances in the trees live. -/
theorem living_instances {client : Client} (sound : Sound client) :
    client.host.Living (· ∈ client.instances) := by
  intro id standing found lives
  by_contra gone
  obtain ⟨phase, held⟩ := sound.settled.absent id standing found gone
  simp [phase, held] at lives

/-- A session lives as long as it is the open one or one of its instances is in the trees. -/
theorem isSessionAlive_iff {past : List Deed} {client : Client} (run : Run past client)
    (session : SessionId) : client.host.isSessionAlive session = true ↔
      client.host.current = some session ∨
        ∃ identity ∈ client.instances, identity.session = session := by
  rw [Host.isSessionAlive_iff run.listening.distinct]
  refine or_congr Iff.rfl ⟨?_, ?_⟩
  · rintro ⟨id, standing, found, held, own⟩
    exact ⟨standing.identity, living_instances run.sound id standing found (.inr held), own⟩
  · rintro ⟨identity, member, own⟩
    exact ⟨identity.id, _, standing_of_mem run.sound member, rfl, own⟩

theorem isOver_iff {past : List Deed} {client : Client} (run : Run past client)
    (session : SessionId) : Host.IsOver session client.host ↔
      session < client.host.sessions.next ∧ client.host.isSessionAlive session = false := by
  refine ⟨fun isOver => ⟨isOver.opened, isOver.isSessionAlive⟩, ?_⟩
  rintro ⟨opened, dead⟩
  have neither := (isSessionAlive_iff run session).not.mp (by simp [dead])
  rw [not_or] at neither
  refine ⟨opened, neither.1, fun id standing found lives own => ?_, run.listening.distinct⟩
  exact neither.2 ⟨standing.identity, living_instances run.sound id standing found lives, own⟩

theorem session_lt_of_mem {past : List Deed} {client : Client} (run : Run past client)
    {identity : Instance} (member : identity ∈ client.instances) :
    identity.session < client.host.sessions.next := by
  have tabled := run.registered.tabled
  have known := tabled.known identity.id _ (standing_of_mem run.sound member)
  obtain ⟨table, found⟩ := Option.isSome_iff_exists.mp known
  obtain ⟨session, stored, -⟩ := Option.map_eq_some_iff.mp found
  exact tabled.bounded _ session stored

theorem current_lt {past : List Deed} {client : Client} (registered : Registered past client)
    {session : SessionId} (live : client.host.current = some session) :
    session < client.host.sessions.next := by
  have tabled := registered.tabled
  obtain ⟨table, found⟩ := Option.isSome_iff_exists.mp (tabled.current session live)
  obtain ⟨state, stored, -⟩ := Option.map_eq_some_iff.mp found
  exact tabled.bounded _ state stored

/-- A call opens no session and closes none, and numbers of sessions are never given back. -/
theorem opened_render (call : RenderCall) (client : Client) :
    client.host.sessions.next ≤ (client.render call).host.sessions.next ∧
      (client.render call).host.current = client.host.current := by
  have deeds (deeds : List Deed) (host : Host) :
      host.sessions.next ≤ (deeds.foldl Host.runDeed host).sessions.next ∧
        (deeds.foldl Host.runDeed host).current = host.current := by
    induction deeds generalizing host with
    | nil => exact ⟨Nat.le_refl _, rfl⟩
    | cons deed rest ih =>
        obtain ⟨grown, same⟩ := ih (host.runDeed deed)
        cases deed with
        | step step =>
            exact ⟨Nat.le_trans (Host.sessions_le_runStep host step) grown,
              same.trans (Host.Remembers.runStep host step).current⟩
        | effect effect =>
            exact ⟨Nat.le_trans (Host.sessions_le_runEffect host effect) grown,
              same.trans (Host.Remembers.runEffect host effect).current⟩
  obtain ⟨_, _, _, _, same, started⟩ := prepared_eq call client
  obtain ⟨grown, current⟩ := deeds (client.deeds call) (client.prepared call)
  rw [same] at grown current
  rw [host_render, same]
  exact ⟨Nat.le_trans started grown, current⟩

theorem opened_quiet {client after : Client} (change : Quiet client after) :
    client.host.sessions.next ≤ after.host.sessions.next ∧
      ∀ session, after.host.current = some session → client.host.current = some session ∨
        session = client.host.sessions.next := by
  cases change with
  | aside host body head =>
      rw [host]
      exact ⟨Nat.le_refl _, fun _ => .inl⟩
  | report | locate | setAttribute | addObject | setPayload | changeInputs | sync =>
      exact ⟨Nat.le_refl _, fun _ => .inl⟩
  | openSession => exact ⟨Nat.le_max_left _ _, fun _ live => .inr (Option.some.inj live).symm⟩
  | dropSession => exact ⟨Nat.le_refl _, fun _ live => by cases live⟩
  | fire id offered event =>
      have called := Host.CalledBack.fire id event client.host
      exact ⟨Nat.le_of_eq (by rw [modifyHost, called.sessions]),
        fun _ live => .inl (called.current.symm.trans live)⟩
  | setGlobal name value =>
      have called := Host.CalledBack.setGlobal name value client.host
      exact ⟨Nat.le_of_eq (by rw [modifyHost, called.sessions]),
        fun _ live => .inl (called.current.symm.trans live)⟩

/-! ## One session after another -/

/-- Only sessions from a certain one on can be open, now and later. -/
structure Since (bound : SessionId) (client : Client) : Prop where
  opened : bound ≤ client.host.sessions.next
  current : ∀ session, client.host.current = some session → bound ≤ session

namespace Since

variable {bound : SessionId} {client after : Client}

theorem quiet (since : Since bound client) (change : Quiet client after) : Since bound after := by
  obtain ⟨grown, opened⟩ := opened_quiet change
  refine ⟨Nat.le_trans since.opened grown, fun session live => ?_⟩
  rcases opened session live with before | rfl
  · exact since.current session before
  · exact since.opened

theorem render (since : Since bound client) (call : RenderCall) :
    Since bound (client.render call) := by
  obtain ⟨grown, same⟩ := opened_render call client
  exact ⟨Nat.le_trans since.opened grown,
    fun session live => since.current session (same.symm.trans live)⟩

theorem performAll (since : Since bound client) (reachable : Reachable client)
    (actions : List Action) : Since bound (client.performAll actions) := by
  induction actions generalizing client with
  | nil => exact since
  | cons action rest ih =>
      have moves := moves_perform reachable.sound.settled.named action
      have step (past : List Deed) (client : Client) (deeds : List Deed) (after : Client)
          (since : Since bound client) (move : Move client deeds after) : Since bound after := by
        cases move with
        | quiet change => exact since.quiet change
        | render call live => exact since.render call
      exact ih (@Moves.invariant _ _ _ (fun _ client => Since bound client) step [] since moves)
        (reachable.perform action)

end Since

/-! ## What is over stays over -/

section IsOver

variable {session : SessionId} {client after : Client}

theorem isOver_quiet (isOver : Host.IsOver session client.host) (change : Quiet client after) :
    Host.IsOver session after.host ∧
      Host.Sends (fun message => message.1 ≠ session) client.host after.host := by
  cases change with
  | aside host body head =>
      rw [host]
      exact ⟨isOver, .refl _⟩
  | report | setAttribute | addObject | changeInputs | sync =>
      exact ⟨isOver.congr rfl (Nat.le_refl _) isOver.current, .of_same rfl⟩
  | locate live =>
      refine ⟨isOver.congr rfl (Nat.le_refl _) isOver.current, .one _ ?_ rfl⟩
      rintro rfl
      exact isOver.current live
  | openSession =>
      refine ⟨isOver.congr rfl (Nat.le_max_left _ _) ?_, .of_same rfl⟩
      intro live
      have new : client.host.sessions.next = session := Option.some.inj live
      exact Nat.lt_irrefl _ (new ▸ isOver.opened)
  | dropSession =>
      exact ⟨isOver.congr rfl (Nat.le_refl _) (by simp [modifyHost, Host.dropSession]),
        .of_same rfl⟩
  | fire id offered event =>
      have called := Host.CalledBack.fire id event client.host
      refine ⟨isOver.congr called.instances (Nat.le_of_eq (by rw [modifyHost, called.sessions])) (by
        rw [modifyHost, called.current]
        exact isOver.current), ?_⟩
      by_cases own : id.context.session = session
      · subst own
        exact .of_same (by rw [modifyHost, Host.fire_of_dead isOver.isSessionAlive])
      · rcases Host.sent_fire id event client.host with same | ⟨message, added, -⟩
        · exact .of_same same
        · exact .one _ own added
  | setGlobal name value =>
      obtain ⟨objects, same⟩ := Host.setGlobal_eq name value client.host
      rw [modifyHost, same]
      exact ⟨isOver.congr rfl (Nat.le_refl _) isOver.current, .of_same rfl⟩
  | setPayload id payload =>
      refine ⟨⟨isOver.opened, isOver.current, ?_, ?_⟩, .of_same rfl⟩
      · intro n standing found
        rw [modifyHost, Host.standing_setPayload] at found
        exact isOver.living n standing found
      · exact Host.written_modify (P := fun store => (Assoc.keys store.entries).Nodup)
          (fun _ number entry distinct => Numbered.nodup_put distinct number entry)
          isOver.distinct id _

theorem isOver_quietly (isOver : Host.IsOver session client.host) (changes : Quietly client after) :
    Host.IsOver session after.host ∧
      Host.Sends (fun message => message.1 ≠ session) client.host after.host := by
  induction changes with
  | refl => exact ⟨isOver, .refl _⟩
  | tail _ change ih =>
      obtain ⟨still, silent⟩ := isOver_quiet ih.1 change
      exact ⟨still, ih.2.trans silent⟩

theorem alive_of_created (sound : Sound client) {call : RenderCall} (live : call.IsLive client)
    {identity : Instance} (created : identity ∈ Deed.instantiations (client.deeds call)) :
    client.host.current = some identity.session ∨
      ∃ other ∈ client.instances, other.session = identity.session := by
  have own := sessionOf_of_created sound call created
  cases call with
  | body session spine =>
      obtain rfl : session = identity.session := Option.some.inj own
      exact .inl live
  | head session spines =>
      obtain rfl : session = identity.session := Option.some.inj own
      exact .inl live
  | update id =>
      obtain ⟨state, found, same⟩ := Option.map_eq_some_iff.mp own
      simp only [deeds, found, updateDeeds] at created
      -- Nothing is created unless the instance is in one of the trees.
      have there : state.identity.id ∈ client.instances.map Instance.id := by
        rw [instances, List.map_append, List.mem_append]
        by_cases inBody : client.body.holds state.identity.id = true
        · exact .inl ((Mounted.holds_iff _ _).mp inBody)
        · by_cases inHead : Mounted.anyHolds state.identity.id client.head = true
          · exact .inr ((Mounted.anyHolds_iff _ _).mp inHead)
          · simp [inBody, inHead, Deed.instantiations] at created
      obtain ⟨other, member, isOwner⟩ := List.mem_map.mp there
      have isState : state.identity = other := sound.settled.identity_eq found member
        (isOwner.trans (sound.settled.named.id_eq found))
      exact .inr ⟨other, member, by rw [← isState, same]⟩
  | loading => simp [sessionOf] at own

theorem isOver_render (sound : Sound client) (isOver : Host.IsOver session client.host)
    {call : RenderCall} (live : call.IsLive client) :
    Host.IsOver session (client.render call).host ∧
      Host.Sends (fun message => message.1 ≠ session) client.host (client.render call).host := by
  obtain ⟨_, _, _, _, same, grown⟩ := prepared_eq call client
  have before : Host.IsOver session (client.prepared call) := by
    rw [same]
    exact isOver.congr rfl grown isOver.current
  rw [host_render]
  obtain ⟨still, silent⟩ := before.runDeeds (client.deeds call) fun identity created => by
    rintro rfl
    rcases alive_of_created sound live created with isCurrent | ⟨other, member, own⟩
    · exact isOver.current isCurrent
    · exact isOver.living other.id _ (standing_of_mem sound member) (.inr rfl) own
  exact ⟨still, .trans (.of_same (by rw [same])) silent⟩

/-- Whatever happens, a session that is over stays over, and nothing is sent in it. -/
theorem isOver_perform (sound : Sound client) (isOver : Host.IsOver session client.host)
    (action : Action) :
    Host.IsOver session (client.perform action).host ∧
      Host.Sends (fun message => message.1 ≠ session) client.host (client.perform action).host := by
  have happens := happens_perform sound.settled.named action
  generalize client.call? action = called at happens
  cases happens with
  | quietly changes => exact isOver_quietly isOver changes
  | render before live afterwards =>
      have soundly {client after : Client} (sound : Sound client) (changes : Quietly client after) :
          Sound after := by
        induction changes with
        | refl => exact sound
        | tail _ change ih => exact ih.quiet change
      obtain ⟨ready, first⟩ := isOver_quietly isOver before
      obtain ⟨rendered, second⟩ := isOver_render (soundly sound before) ready live
      obtain ⟨still, third⟩ := isOver_quietly rendered afterwards
      exact ⟨still, (first.trans second).trans third⟩

theorem isOver_performAll (reachable : Reachable client) (isOver : Host.IsOver session client.host)
    (actions : List Action) :
    Host.IsOver session (client.performAll actions).host ∧
      Host.Sends (fun message => message.1 ≠ session) client.host
        (client.performAll actions).host := by
  induction actions generalizing client with
  | nil => exact ⟨isOver, .refl _⟩
  | cons action rest ih =>
      obtain ⟨still, silent⟩ := isOver_perform reachable.sound isOver action
      obtain ⟨stillAfter, silentAfter⟩ := ih (reachable.perform action) still
      exact ⟨stillAfter, silent.trans silentAfter⟩

end IsOver

end RemoteView.Client
