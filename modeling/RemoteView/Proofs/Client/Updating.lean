import Mathlib.Data.List.Nodup
import RemoteView.Proofs.Client.Addressing
import RemoteView.Proofs.Host.Reporting
import RemoteView.Proofs.Mounted.Within

/-! # Updating components

What the table of a session leads to is a component that is mounted, in this session and at this
path, and that the trees hold. So a payload for a path never misses: whenever it is answered that
the component was rendered, the component was found in the trees and its content is what the payload
renders to, and no notice ever says that the component to update is not mounted.
-/

namespace RemoteView.Client

/-- The body and the trees of the head. -/
def trees (client : Client) : List Mounted := client.body :: client.head

/-- Rendering the content of an instance of the trees again does so in the first tree that holds it,
    and it is not reported as missing. -/
theorem renderInstance_of_mem {client : Client} {state : InstanceState}
    (member : state.identity ∈ client.instances) :
    (client.renderInstance state).trees =
        (Mounted.rerenderFirst state.identity.id state.payload.content client.trees
          client.host.supply).value ∧
      client.host.ReportsReplacing (client.renderInstance state).host := by
  have named : state.identity.id ∈ (Mounted.childInstances client.trees).map Instance.id :=
    List.mem_map.mpr ⟨_, member, rfl⟩
  have held := (Mounted.anyHolds_iff _ _).mpr named
  simp only [trees, Mounted.anyHolds, Bool.or_eq_true] at held ⊢
  by_cases inBody : client.body.holds state.identity.id = true
  · rw [Mounted.rerenderFirst_here _ inBody]
    simp only [renderInstance, inBody, if_true, true_and]
    exact Host.reports_commit client.host _
  · have inHead := held.resolve_left inBody
    rw [Mounted.rerenderFirst_later _ inBody]
    simp only [renderInstance, inBody, inHead, if_true, Bool.false_eq_true, if_false, true_and]
    exact Host.reports_commit client.host _

/-- What it means that a component was given a payload and rendered again: it was found in the trees,
    where it is the only one with its number before and afterwards, and what was in it became what
    the payload renders to. -/
structure Updates (client after : Client) (identity : Instance) (payload : Payload)
    (old : Mounted) : Prop where
  found : Mounted.allWithin identity.id client.trees = [.component identity old]
  updated : Mounted.allWithin identity.id after.trees = [.component identity
    (Mounted.reconcile identity.site old payload.content client.host.supply).value]
  shown : Mounted.Shows identity.site payload.content
    (Mounted.reconcile identity.site old payload.content client.host.supply).value

theorem updates_renderInstance {client : Client} (sound : Sound client) {state : InstanceState}
    (member : state.identity ∈ client.instances) :
    ∃ old, Updates client (client.renderInstance state) state.identity state.payload old := by
  obtain ⟨old, alone, again⟩ :=
    (Mounted.rerender_within state.identity.id state.payload.content).rerenderFirst client.trees
      client.host.supply sound.settled.distinct state.identity member rfl
  rw [← (renderInstance_of_mem member).1] at again
  have placed : old.Placed state.identity.site := by
    have inTrees : Mounted.component state.identity old ∈
        Mounted.allWithin state.identity.id client.trees := by
      rw [alone]
      exact List.mem_singleton_self _
    obtain ⟨tree, isTree, inside⟩ := Mounted.mem_allWithin.mp inTrees
    rcases List.mem_cons.mp isTree with rfl | inHead
    · obtain ⟨session, body⟩ := sound.body
      exact Mounted.placed_of_within body inside
    · obtain ⟨session, head⟩ := sound.head
      exact Mounted.placed_of_within (head tree inHead) inside
  exact ⟨old, alone, again,
    Mounted.shows_reconcile state.identity.site placed state.payload.content client.host.supply⟩

/-- A component that the table of a session leads to is given a payload: it is found and rendered
    again, and all notices are about components that took the places of others. -/
theorem Registered.updates_of_mountedAt {past : List Deed} {client : Client}
    (registered : Registered past client) {session : SessionId} {key : String}
    {state : InstanceState} (found : client.host.mountedAt session key = some state)
    (payload : Payload) :
    let after := (client.modifyHost (·.setPayload state.identity.id payload)).renderInstance
      { state with payload := payload }
    (∃ old, Updates client after state.identity payload old) ∧
      client.host.ReportsReplacing after.host := by
  intro after
  have given := registered.quiet (.setPayload client state.identity.id payload)
  have member : state.identity ∈
      (client.modifyHost (·.setPayload state.identity.id payload)).instances :=
    (registered.of_mountedAt found).2.2.2
  have supply : (client.host.setPayload state.identity.id payload).supply = client.host.supply := by
    simp only [Host.supply, Host.setPayload, Host.modifyInstance,
      registered.sound.settled.bounded.next_modify]
  refine ⟨?_, ?_⟩
  · obtain ⟨old, alone, updated, shown⟩ :=
      @updates_renderInstance _ given.sound { state with payload := payload } member
    simp only [modifyHost, supply] at updated shown
    exact ⟨old, alone, updated, shown⟩
  · have reports := (@renderInstance_of_mem _ { state with payload := payload } member).2
    exact (Host.ReportsReplacing.of_same rfl).trans reports

/-- What the table of a session leads to is mounted, in this session and at this path, and in the
    trees. Whenever a payload for a path is answered with yes, this component was found in the trees
    and rendered again. A notice that the component to update is not mounted is never given. -/
theorem table_never_misleads {past : List Deed} {client : Client} (run : Run past client) :
    (∀ session key state, client.host.mountedAt session key = some state →
      state.phase = .mounted ∧ state.identity.session = session ∧ state.identity.path.key = key ∧
        (state.identity ∈ client.body.instances ∨
          state.identity ∈ Mounted.childInstances client.head)) ∧
    ∀ key raw,
      ((client.renderAt key raw).1 = true → ∃ session state payload old,
        client.host.current = some session ∧ client.host.mountedAt session key = some state ∧
        Payload.decode state.identity.path raw = .ok payload ∧
        Updates client (client.renderAt key raw).2 state.identity payload old) ∧
      ∃ notices, (client.renderAt key raw).2.host.log = client.host.log ++ notices ∧
        ∀ path, .componentNotFound path ∉ notices := by
  have registered := run.registered
  refine ⟨fun session key state found => ?_, fun key raw => ?_⟩
  · obtain ⟨phase, inSession, atKey, member⟩ := registered.of_mountedAt found
    exact ⟨phase, inSession, atKey, List.mem_append.mp member⟩
  · cases live : client.host.current with
    | none =>
        have refused : client.renderAt key raw = (false, client) := by simp only [renderAt, live]
        rw [refused]
        exact ⟨fun yes => absurd yes Bool.false_ne_true, [], (List.append_nil _).symm, by simp⟩
    | some session =>
        cases found : client.host.mountedAt session key with
        | none =>
            have refused : client.renderAt key raw =
                (false, client.modifyHost (·.report (.noComponentAt key))) := by
              simp only [renderAt, live, found]
            rw [refused]
            exact ⟨fun yes => absurd yes Bool.false_ne_true, [.noComponentAt key], rfl, by simp⟩
        | some state =>
            cases decoded : Payload.decode state.identity.path raw with
            | error error =>
                have refused : client.renderAt key raw = (false, client.abandon .component error) := by
                  simp only [renderAt, live, found, decoded]
                rw [refused]
                exact ⟨fun yes => absurd yes Bool.false_ne_true, [.abandonedRender .component error],
                  rfl, by simp⟩
            | ok payload =>
                have answered : client.renderAt key raw = (true,
                    (client.modifyHost (·.setPayload state.identity.id payload)).renderInstance
                      { state with payload := payload }) := by
                  simp only [renderAt, live, found, decoded]
                obtain ⟨⟨old, updates⟩, keys, log⟩ := registered.updates_of_mountedAt found payload
                rw [answered]
                exact ⟨fun _ => ⟨session, state, payload, old, rfl, found, decoded, updates⟩,
                  keys.map .replacingComponent, log, by simp⟩

/-- The component at the root is found and given a text. -/
theorem component_at_root_updated :
    let client := (history showComponent (.new "/" .never)).2
    let answer := client.renderAt Path.root.key (.object [("spine", .string "shown")])
    (∃ state, client.host.mountedAt 0 Path.root.key = some state ∧ state.phase = .mounted ∧
      state.identity.path.key = Path.root.key ∧ (state.identity ∈ client.body.instances ∨
        state.identity ∈ Mounted.childInstances client.head)) ∧
    answer.1 = true ∧ ∃ session state payload old, client.host.current = some session ∧
      client.host.mountedAt session Path.root.key = some state ∧
      Payload.decode state.identity.path (.object [("spine", .string "shown")]) = .ok payload ∧
      Updates client answer.2 state.identity payload old := by
  intro client answer
  obtain ⟨table, updates⟩ := table_never_misleads (run_history "/" .never showComponent)
  have mounted : (client.host.mountedAt 0 Path.root.key).isSome = true := by
    unfold client
    cbv
  have rendered : answer.1 = true := by
    unfold answer client
    cbv
  obtain ⟨state, found⟩ := Option.isSome_iff_exists.mp mounted
  obtain ⟨phase, -, atKey, held⟩ := table 0 Path.root.key state found
  exact ⟨⟨state, found, phase, atKey, held⟩, rendered, (updates _ _).1 rendered⟩

end RemoteView.Client
