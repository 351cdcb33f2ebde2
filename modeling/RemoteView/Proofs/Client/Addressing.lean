import Mathlib.Data.List.Permutation
import RemoteView.Proofs.Client.Run
import RemoteView.Proofs.Host.Table
import RemoteView.Proofs.Mounted.Chains
import RemoteView.Proofs.Path

/-! # Components found by their paths

Several instances can be mounted at one path, in a component directly inside another one or in
fragments of the head. The path then stands for the one that was mounted last, and for none as soon
as that one is unmounted. So an instance that is mounted can be found by its path exactly as long as
the last one that was mounted there is.
-/

namespace RemoteView.Client

/-- The instance that was mounted last at a path of a session. -/
def lastMountedAt (past : List Deed) (session : SessionId) (path : Path) (client : Client) :
    Option InstanceId :=
  ((Deed.mounts past).filter fun id => (client.host.instances.get? id).any fun state =>
    state.identity.session = session ∧ state.identity.path = path).getLast?

/-! ## Every move takes the tables along -/

theorem instances_loading {client : Client} (sound : Sound client) :
    (client.render .loading).instances = [] := by
  obtain ⟨session, placed⟩ := sound.body
  have shows : Mounted.Shows (.root 0) loadingSpine (client.render .loading).body :=
    Mounted.shows_reconcile (.root 0) placed loadingSpine
      (client.reconcileHead (.root 0) []).host.supply
  have none : (client.render .loading).body.chains = [] := by
    have same := shows.chains_fst
    simpa [loadingSpine, Spine.chains, Spine.childChains] using same
  have head : (client.render .loading).head = [] := by
    simp [render, showLoading, reconcileBody, reconcileHead, Mounted.reconcileAll_apply]
  rw [instances, head, ← Mounted.chains_snd, none]
  rfl

theorem sessionOf_of_created {client : Client} (sound : Sound client) (call : RenderCall)
    {identity : Instance} (created : identity ∈ Deed.instantiations (client.deeds call)) :
    client.sessionOf call = some identity.session := by
  obtain ⟨session, finish, turnover, here⟩ := turnover_render sound.settled call
  have own := turnover.sessions identity created
  cases call with
  | body other spine => rw [own, ← here other rfl]; rfl
  | head other spines => rw [own, ← here other rfl]; rfl
  | update id =>
      cases found : client.host.instances.get? id with
      | none => simp [deeds, found, Deed.instantiations] at created
      | some state =>
          have same : client.sessionOf (.update id) = some state.identity.session := by
            simp [sessionOf, found]
          rw [same, own, here _ same]
  | loading =>
      have there := (turnover.entered sound.settled created).2.2.2.2
      rw [instances_loading sound] at there
      simp at there

/-- The tables of a client tell what was mounted last. -/
structure Registered (past : List Deed) (client : Client) : Prop where
  sound : Sound client
  tabled : Host.Tabled (Deed.mounts past) client.host
  old : ∀ id ∈ Deed.mounts past, id < client.host.instances.next

namespace Registered

variable {past : List Deed} {client after : Client}

theorem tabled_prepared (registered : Registered past client) (call : RenderCall) :
    Host.Tabled (Deed.mounts past) (client.prepared call) :=
  prepared_induction call registered.tabled (fun site spine _ tabled => tabled.declareAll site spine)
    fun _ _ tabled => tabled.congr tabled.bounded rfl rfl rfl

theorem table_prepared (call : RenderCall) (client : Client) :
    (client.prepared call).table = client.host.table :=
  prepared_induction call rfl (fun _ _ _ same => (Host.table_declareAll _ _ _).trans same)
    fun _ _ same => same

theorem live (registered : Registered past client) {call : RenderCall} (live : call.IsLive client)
    {session : SessionId} (isSession : client.sessionOf call = some session) :
    (client.host.table session).isSome := by
  cases call with
  | body other spine =>
      obtain rfl : other = session := Option.some.inj isSession
      exact registered.tabled.current _ live
  | head other spines =>
      obtain rfl : other = session := Option.some.inj isSession
      exact registered.tabled.current _ live
  | update id =>
      obtain ⟨state, found, rfl⟩ := Option.map_eq_some_iff.mp isSession
      exact registered.tabled.known id state.standing (Host.standing_of_get? found)
  | loading => simp [sessionOf] at isSession

theorem render (registered : Registered past client) {call : RenderCall}
    (live : call.IsLive client) : Registered (past ++ client.deeds call) (client.render call) := by
  obtain ⟨session, finish, turnover, -⟩ := turnover_render registered.sound.settled call
  have instances := instances_prepared call client
  have settled := registered.sound.settled.congr instances
  have mounts : Deed.mounts (past ++ client.deeds call) =
      Deed.mounts past ++ Deed.mounts (client.deeds call) := by
    simp [Deed.mounts]
  have sound := registered.sound.render call
  have committed := host_render_eq_commit call client finish
  refine ⟨sound, ?_, ?_⟩
  · rw [mounts, committed]
    rw [← supply_prepared call] at turnover
    have taken (outcome : Outcome Unit) (steps : Deed.steps (client.deeds call) = outcome.steps)
        (effects : Deed.effects (client.deeds call) = outcome.effects) :
        Host.Tabled (Deed.mounts past ++ Effect.mounts outcome.effects)
          ((client.prepared call).commit outcome) := by
      rw [steps, effects] at turnover
      refine turnover.tabled_commit settled (registered.tabled_prepared call) ?_ ?_
      · rw [instances]
        exact registered.old
      · intro identity created
        rw [← steps] at created
        rw [table_prepared]
        exact registered.live live (sessionOf_of_created registered.sound call created)
    exact taken ⟨(), Deed.steps (client.deeds call), Deed.effects (client.deeds call), finish⟩ rfl rfl
  · intro id member
    rw [mounts, List.mem_append] at member
    rcases member with before | new
    · have grows := Host.next_le_commit (client.prepared call)
        (⟨(), Deed.steps (client.deeds call), Deed.effects (client.deeds call), finish⟩ : Outcome Unit)
      rw [committed]
      rw [instances] at grows
      exact Nat.lt_of_lt_of_le (registered.old id before) grows
    · obtain ⟨identity, created, rfl⟩ := turnover.created_of_mounted new
      exact sound.settled.id_lt (turnover.entered registered.sound.settled created).2.2.2.2

theorem calledBack (registered : Registered past client) (sound : Sound after)
    (called : client.host.CalledBack after.host) : Registered past after where
  sound := sound
  tabled := registered.tabled.calledBack called
  old id member := by
    rw [called.instances]
    exact registered.old id member

theorem quiet (registered : Registered past client) (change : Quiet client after) :
    Registered past after := by
  have sound := registered.sound.quiet change
  have tabled := registered.tabled
  cases change with
  | aside host body head => exact registered.calledBack sound (by rw [host]; exact .refl _)
  | report | setAttribute | addObject | changeInputs | sync =>
      exact ⟨sound, tabled.congr tabled.bounded rfl rfl rfl, registered.old⟩
  | locate live => exact registered.calledBack sound (.send _ _ _)
  | openSession => exact ⟨sound, tabled.openSession, registered.old⟩
  | dropSession => exact ⟨sound, tabled.dropSession, registered.old⟩
  | fire id offered event => exact registered.calledBack sound (.fire id event _)
  | setGlobal name value => exact registered.calledBack sound (.setGlobal name value _)
  | setPayload id payload =>
      refine ⟨sound, tabled.congr tabled.bounded rfl rfl (Host.standing_setPayload id payload _),
        fun n member => ?_⟩
      exact Nat.lt_of_lt_of_le (registered.old n member) (Host.written_modify
        (P := fun store => client.host.instances.next ≤ store.next)
        (fun _ _ _ below => Nat.le_trans below (Nat.le_max_left _ _)) (Nat.le_refl _) id _)

theorem move (registered : Registered past client) {deeds : List Deed}
    (move : Move client deeds after) : Registered (past ++ deeds) after := by
  cases move with
  | quiet change =>
      rw [List.append_nil]
      exact registered.quiet change
  | render call live => exact registered.render live

end Registered

theorem Run.registered {past : List Deed} {client : Client} (run : Run past client) :
    Registered past client :=
  run.invariant (P := Registered)
    (fun _ _ => ⟨⟨.empty, ⟨0, trivial⟩, 0, by simp [Client.new]⟩, .empty, by simp [Deed.mounts]⟩)
    fun _ _ _ _ registered move => registered.move move

/-! ## What a path stands for -/

theorem lastMounted_key (past : List Deed) (session : SessionId) (path : Path) (client : Client) :
    Host.lastMounted (Deed.mounts past) client.host session path.key =
      client.lastMountedAt past session path := by
  unfold Host.lastMounted lastMountedAt
  congr 2
  funext id
  unfold Host.belongs Host.standing
  cases client.host.instances.get? id with
  | none => rfl
  | some state =>
      have key : state.identity.path.key = path.key ↔ state.identity.path = path :=
        ⟨Path.eq_of_key_eq, congrArg Path.key⟩
      simp [InstanceState.standing, key]

theorem isHeld_of_mounted {client : Client} (sound : Sound client) {id : InstanceId}
    {state : InstanceState} (found : client.host.instances.get? id = some state)
    (mounted : state.phase = .mounted) : state.isHeld = true := by
  have member := sound.settled.mem_of_mounted found mounted
  exact congrArg Standing.isHeld (sound.settled.standing_eq found member)

theorem mountedAt_eq {past : List Deed} {client : Client} (registered : Registered past client)
    (session : SessionId) (path : Path) : client.host.mountedAt session path.key =
      (client.lastMountedAt past session path).bind fun id =>
        (client.host.instances.get? id).filter (·.isMounted) := by
  have tabled := registered.tabled
  rw [← lastMounted_key]
  cases known : client.host.sessions.get? session with
  | none =>
      -- No instance belongs to a session that was never opened.
      have nothing : Host.lastMounted (Deed.mounts past) client.host session path.key = none := by
        cases last : Host.lastMounted (Deed.mounts past) client.host session path.key with
        | none => rfl
        | some id =>
            obtain ⟨standing, stands, rfl, -⟩ :=
              Host.belongs_iff.mp (Host.of_lastMounted last).2
            have there := tabled.known id standing stands
            simp [Host.table, known] at there
      simp [Host.mountedAt, known, nothing]
  | some state =>
      have stored := tabled.exact session state.mounted path.key (by simp [Host.table, known])
      simp only [Host.mountedAt, known, Option.bind_eq_bind, Option.bind_some, stored]
      cases Host.lastMounted (Deed.mounts past) client.host session path.key with
      | none => rfl
      | some id =>
          cases found : client.host.instances.get? id with
          | none => simp [Option.filter_some, found]
          | some state =>
              have mounted : client.host.isMounted id = state.isMounted := by
                simp [Host.isMounted, Host.standing, found, InstanceState.standing,
                  InstanceState.isMounted]
              by_cases phase : state.phase = .mounted
              · have held := isHeld_of_mounted registered.sound found phase
                simp [Option.filter_some, mounted, InstanceState.isMounted, phase, found, held]
              · simp [Option.filter_some, mounted, InstanceState.isMounted, phase, found]

theorem Registered.of_mountedAt {past : List Deed} {client : Client}
    (registered : Registered past client) {session : SessionId} {key : String}
    {state : InstanceState} (found : client.host.mountedAt session key = some state) :
    state.phase = .mounted ∧ state.identity.session = session ∧ state.identity.path.key = key ∧
      state.identity ∈ client.instances := by
  have tabled := registered.tabled
  have settled := registered.sound.settled
  have stored := tabled.named.get?_of_mountedAt found
  have stands := Host.standing_of_get? stored
  -- The entry of the table is the number of the instance that was found.
  obtain ⟨entry, known, listed⟩ : ∃ entry, client.host.sessions.get? session = some entry ∧
      Assoc.get? key entry.mounted = some state.identity.id := by
    simp only [Host.mountedAt, Option.bind_eq_bind, Option.bind_eq_some_iff] at found
    obtain ⟨entry, known, id, listed, other, there, held⟩ := found
    split at held
    · obtain rfl := Option.some.inj held
      exact ⟨entry, known, (tabled.named.id_eq there) ▸ listed⟩
    · cases held
  -- So it was mounted last under the key, and is mounted still.
  rw [tabled.exact session entry.mounted key (by simp [Host.table, known]),
    Option.filter_eq_some_iff] at listed
  obtain ⟨last, mounted⟩ := listed
  obtain ⟨standing, same, inSession, atKey⟩ := Host.belongs_iff.mp (Host.of_lastMounted last).2
  obtain rfl : state.standing = standing := Option.some.inj (stands.symm.trans same)
  have phase : state.phase = .mounted := by
    simpa [Host.isMounted, stands, InstanceState.standing] using mounted
  exact ⟨phase, inSession, atKey, settled.mem_of_mounted stored phase⟩

theorem path_of_mountedAt {past : List Deed} {client : Client}
    (registered : Registered past client) {session : SessionId} {path : Path}
    {state : InstanceState} (found : client.host.mountedAt session path.key = some state) :
    state.identity.path = path := by
  obtain ⟨-, -, atKey, -⟩ := registered.of_mountedAt found
  exact Path.eq_of_key_eq atKey

/-- A path stands for the instance that was mounted last there, as long as that one is mounted. So an
    instance that is mounted can be found by its path exactly when the last one that was mounted
    there is mounted still. -/
theorem mounted_found_iff_last_mounted {past : List Deed} {client : Client}
    (run : Run past client) :
    (∀ session path, client.host.mountedAt session path.key =
      (client.lastMountedAt past session path).bind fun id =>
        (client.host.instances.get? id).filter (·.isMounted)) ∧
    ∀ id state, client.host.instances.get? id = some state → state.phase = .mounted →
      ((∃ found, client.host.mountedAt state.identity.session state.identity.path.key =
            some found ∧ found.phase = .mounted ∧ found.identity.path = state.identity.path) ↔
        ∃ last there, client.lastMountedAt past state.identity.session state.identity.path =
            some last ∧ client.host.instances.get? last = some there ∧ there.phase = .mounted) := by
  have registered := run.registered
  refine ⟨mountedAt_eq registered, fun id state _ _ => ?_⟩
  rw [mountedAt_eq registered]
  constructor
  · rintro ⟨found, isFound, mounted, -⟩
    obtain ⟨last, isLast, there⟩ := Option.bind_eq_some_iff.mp isFound
    exact ⟨last, found, isLast, (Option.filter_eq_some_iff.mp there).1, mounted⟩
  · rintro ⟨last, there, isLast, stored, mounted⟩
    refine ⟨there, ?_, mounted, ?_⟩
    · simp [isLast, stored, Option.filter_some, InstanceState.isMounted, mounted]
    · have here := (List.mem_filter.mp (List.mem_of_getLast? isLast)).2
      simp only [stored, Option.any_some, decide_eq_true_eq] at here
      exact here.2

/-- What leads to a client that shows a component, and showed a fragment with another one for a
    while. -/
def coverComponent : List Action :=
  showComponent ++ [.renderFragments [plainComponent 2 (by decide)], .renderFragments []]

/-- The component is mounted, but the one of the fragment was mounted last at its path and is not
    mounted any more, so nothing is found there. -/
theorem covered_component_not_found :
    let covered := history coverComponent (.new "/" .never)
    ∃ state, covered.2.host.instances.get? 0 = some state ∧ state.phase = .mounted ∧
      covered.2.lastMountedAt covered.1 state.identity.session state.identity.path = some 1 ∧
      ¬ ∃ found, covered.2.host.mountedAt state.identity.session state.identity.path.key =
        some found ∧ found.phase = .mounted ∧ found.identity.path = state.identity.path := by
  intro covered
  have stored : ((covered.2.host.instances.get? 0).map fun state => (state.identity, state.phase)) =
      some (⟨0, 0, 1, .root, none⟩, .mounted) := by
    unfold covered
    cbv
  have gone : (covered.2.host.instances.get? 1).map InstanceState.phase = some .unmounted := by
    unfold covered
    cbv
  have last : covered.2.lastMountedAt covered.1 0 .root = some 1 := by
    unfold covered
    cbv
  obtain ⟨state, found, same⟩ := Option.map_eq_some_iff.mp stored
  obtain ⟨identity, mounted⟩ := Prod.mk.inj same
  have exactly := (mounted_found_iff_last_mounted (run_history "/" .never coverComponent)).2 0 state
    found mounted
  rw [identity] at exactly
  refine ⟨state, found, mounted, by rw [identity]; exact last, ?_⟩
  rw [identity, exactly]
  rintro ⟨id, there, isLast, isThere, isMounted⟩
  obtain rfl : 1 = id := Option.some.inj (last.symm.trans isLast)
  rw [isThere, Option.map_some, isMounted] at gone
  exact absurd gone (by decide)

/-- Not every component of the open connection that is mounted is found by its path. -/
theorem exists_mounted_not_found :
    ¬ ∀ client, Reachable client → ∀ id state, client.host.instances.get? id = some state →
      state.phase = .mounted → client.host.current = some state.identity.session →
        ∃ found, client.host.mountedAt state.identity.session state.identity.path.key =
          some found ∧ found.phase = .mounted ∧ found.identity.path = state.identity.path := by
  intro always
  have reachable : Reachable (history coverComponent (.new "/" .never)).2 :=
    ⟨_, run_history "/" .never coverComponent⟩
  have stored : (((history coverComponent (.new "/" .never)).2.host.instances.get? 0).map
      fun state => (state.identity, state.phase)) = some (⟨0, 0, 1, .root, none⟩, .mounted) := by
    cbv
  have nothing : ((history coverComponent (.new "/" .never)).2.host.mountedAt 0
      (Path.root).key).isSome = false := by
    cbv
  obtain ⟨state, there, same⟩ := Option.map_eq_some_iff.mp stored
  obtain ⟨identity, mounted⟩ := Prod.mk.inj same
  have live : (history coverComponent (.new "/" .never)).2.host.current = some 0 := by cbv
  obtain ⟨found, isFound, -⟩ := always _ reachable 0 state there mounted (by rw [identity, live])
  rw [identity] at isFound
  rw [isFound] at nothing
  cases nothing

end RemoteView.Client
