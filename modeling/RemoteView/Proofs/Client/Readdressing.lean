import Mathlib
import RemoteView.Proofs.Client.Addressing
import RemoteView.Proofs.Client.Handles
import RemoteView.Proofs.Host.Alike
import RemoteView.Proofs.Mounted.Html
import RemoteView.Proofs.Spine.Payload

/-! # Rendering one component again

A component can be given another payload in two ways: by its path, or within a whole spine that has
the other payload there. Right after the spine was rendered both ways come to the same.
-/

namespace RemoteView.Client

/-- A spine has just been rendered in the body. -/
structure HasRendered (session : SessionId) (spine : Spine) (client : Client) : Prop where
  live : client.host.current = some session
  shows : Mounted.Shows (.root session) spine client.body
  declared : ∀ pair ∈ Mounted.declared spine client.body, client.host.HasDeclared pair.1 pair.2
  atRoot : ∀ declaration ∈ spine.declarations .root,
    client.host.HasDeclared (.root session) declaration

theorem hasRendered_renderBody {client : Client} (sound : Sound client) {session : SessionId}
    (live : client.host.current = some session) (spine : Spine) :
    HasRendered session spine (client.renderBody session spine) := by
  obtain ⟨before, placed⟩ := sound.body
  have declared := Host.Stays.declareAll (.root session) spine client.host
  have committed (host : Host) := Host.Remembers.commit
    (Mounted.reconcile (.root session) client.body spine
      (client.host.declareAll (.root session) spine).supply) host
  refine ⟨?_, Mounted.shows_reconcile (.root session) placed spine _, ?_, ?_⟩
  · exact ((committed _).current.trans declared.current).trans live
  · intro pair member
    obtain ⟨site, content, done, context, among⟩ :=
      Mounted.reconcile_declares.reconcile (.root session) client.body spine _ pair member
    rw [context]
    exact Host.hasDeclared_commit done _ pair.2 among
  · intro declaration among
    exact (committed _).hasDeclared
      (Host.hasDeclared_declareAll (.root session) spine client.host declaration among)

theorem eq_renderBody_of_frame {before client : Client} {raw : Json}
    (pending : before.scheduler.pending = some raw) {spine : Spine}
    (decoded : Spine.decode .root raw = .ok spine) (rendered : before.frame = (true, client)) :
    ∃ session, before.host.current = some session ∧
      client = ({ before with scheduler := before.scheduler.take.2 } : Client).renderBody session
        spine := by
  cases live : before.host.current with
  | none => simp [frame, Scheduler.take, pending, live] at rendered
  | some session =>
      rw [frame_eq_renderBody live pending decoded] at rendered
      exact ⟨session, rfl, (Prod.mk.inj rendered).2.symm⟩

theorem hasRendered_frame {before client : Client} (sound : Sound before) {raw : Json}
    (pending : before.scheduler.pending = some raw) {spine : Spine}
    (decoded : Spine.decode .root raw = .ok spine) (rendered : before.frame = (true, client)) :
    ∃ session, HasRendered session spine client := by
  obtain ⟨session, live, rfl⟩ := eq_renderBody_of_frame pending decoded rendered
  have taken : Sound { before with scheduler := before.scheduler.take.2 } :=
    sound.congr rfl rfl rfl
  exact ⟨session, hasRendered_renderBody taken live spine⟩

/-! ## Around a component -/

/-- What lies around an instance in the body that shows a spine: the elements outside of it, the
    instances outside of it, and what has been declared. Events are left aside with them, for no
    handle leads to one. -/
def surroundings (spine : Spine) (id : InstanceId) (client : Client) : Surroundings where
  handles handle := handle ∈ (client.body.without id).handles ∨
    client.host.objects.kind? handle = some .event
  instances number := ∃ identity ∈ (client.body.without id).instances, identity.id = number
  declarations context declaration := (context, declaration) ∈ Mounted.declared spine client.body

section Around

variable {client : Client} {spine : Spine} {id : InstanceId}

theorem nodup_body_instances (sound : Sound client) :
    (client.body.instances.map Instance.id).Nodup := by
  have distinct := sound.settled.distinct
  rw [instances, List.map_append] at distinct
  exact distinct.of_append_left

theorem nodup_body_handles (handled : Handled client) : client.body.handles.Nodup := by
  have once := Host.Handled.once handled
  rw [holdings, List.map_append] at once
  rw [← Mounted.holdings_fst none]
  exact once.of_append_left

theorem mem_handles_of_without {handle : ObjectId}
    (member : handle ∈ (client.body.without id).handles) : handle ∈ client.body.handles :=
  (Mounted.perm_handles id client.body).mem_iff.mpr (List.mem_append_left _ member)

theorem kind?_of_mem_handles (handled : Handled client) {handle : ObjectId}
    (member : handle ∈ client.body.handles) : client.host.objects.kind? handle = some .element := by
  rw [← Mounted.holdings_fst none] at member
  obtain ⟨holding, held, rfl⟩ := List.mem_map.mp member
  exact Host.Handled.elements handled holding (List.mem_append_left _ held)

theorem supply_isApart (sound : Sound client) (handled : Handled client) :
    client.host.supply.IsApart (client.surroundings spine id) where
  objects handle new around := by
    have missing := Host.Handled.kind?_of_le handled new
    rcases around with outside | event
    · rw [kind?_of_mem_handles handled (mem_handles_of_without outside)] at missing
      cases missing
    · rw [event] at missing
      cases missing
  instances number new around := by
    obtain ⟨identity, outside, rfl⟩ := around
    have member : identity ∈ client.instances := List.mem_append_left _
      ((Mounted.perm_instances id client.body).mem_iff.mpr (List.mem_append_left _ outside))
    exact absurd (sound.settled.id_lt member) (Nat.not_lt.mpr new)

/-- No stored handle leads around an instance, unless it was stored for what is around. -/
theorem alike_self (sound : Sound client) (handled : Handled client) :
    Host.Alike (client.surroundings spine id) client.host client.host where
  same := rfl
  objects := by
    refine ⟨rfl, fun _ _ => rfl, fun handle event free found => ?_, fun handle around => ?_⟩
    · exact free (.inr (by simp [Objects.kind?, found, HostObject.kind]))
    · exact Nat.lt_of_not_le fun new => (supply_isApart sound handled).objects handle new around
  instances := by
    refine ⟨rfl, List.forall₂_same.mpr fun entry _ => ⟨rfl, fun _ => rfl⟩, fun number around => ?_⟩
    exact Nat.lt_of_not_le fun new => (supply_isApart sound handled).instances number new around
  window around := by
    have window := Host.Handled.window handled
    rcases around with outside | event
    · rw [kind?_of_mem_handles handled (mem_handles_of_without outside)] at window
      cases window
    · rw [event] at window
      cases window
  stored := by
    rintro context ⟨number, inside, apart⟩ entry member
    obtain ⟨handle, same, element, own⟩ := Host.Handled.stored handled context entry member
    rw [same]
    rintro (outside | event)
    · rw [← Mounted.holdings_fst none] at outside
      obtain ⟨holding, held, rfl⟩ := List.mem_map.mp outside
      have owner := own holding.2 (List.mem_append_left _ (Mounted.holding_of_without held))
      rcases Mounted.owner_of_holding held with root | ⟨identity, among, owned⟩
      · rw [root, inside] at owner
        cases owner
      · rw [owned, inside] at owner
        exact apart ⟨identity, among, Option.some.inj owner⟩
    · rw [element] at event
      cases event

theorem liesAroundAt : Mounted.LiesAroundAt (client.surroundings spine id) id spine client.body where
  handles _ outside := .inl outside
  instances identity outside := ⟨identity, outside, rfl⟩
  declared _ member := member

theorem not_around (id : InstanceId) : ¬ (client.surroundings spine id).instances id := by
  rintro ⟨identity, outside, same⟩
  exact Mounted.id_of_without outside same

theorem rerender_isApart (sound : Sound client) (handled : Handled client) {session : SessionId}
    (shows : Mounted.Shows (.root session) spine client.body) (content : Spine) :
    (Mounted.rerender id content client.body client.host.supply).IsApart
      (client.surroundings spine id) fun _ => True := by
  refine (Mounted.rerender_apart id content).rerender client.body _ shows ?_ ?_
    (supply_isApart sound handled)
  · rintro handle inside (outside | event)
    · have split := (Mounted.perm_handles id client.body).nodup_iff.mp
        (nodup_body_handles handled)
      exact (List.nodup_append.mp split).2.2 handle outside handle inside rfl
    · have member := (Mounted.perm_handles id client.body).mem_iff.mpr
        (List.mem_append_right _ inside)
      rw [kind?_of_mem_handles handled member] at event
      cases event
  · rintro identity inside ⟨other, outside, same⟩
    have split := ((Mounted.perm_instances id client.body).map Instance.id).nodup_iff.mp
      (nodup_body_instances sound)
    rw [List.map_append] at split
    exact (List.nodup_append.mp split).2.2 other.id (List.mem_map.mpr ⟨other, outside, rfl⟩)
      identity.id (List.mem_map.mpr ⟨identity, inside, rfl⟩) same

end Around

/-! ## Both ways -/

/-- Rendering a spine again with another payload in its only component at a path, and rendering the
    component with this payload, lead to the same body on hosts that are alike around it. -/
theorem alike_renderBody {past : List Deed} {client : Client} (registered : Registered past client)
    (handled : Handled client) {session : SessionId} {spine : Spine}
    (shown : HasRendered session spine client) (distinct : spine.Distinct) {identity : Instance}
    (member : identity ∈ client.body.instances)
    (only : (spine.componentPaths .root).count identity.path = 1) (payload : Payload) :
    let host := client.host.setPayload identity.id payload
    let again := Mounted.rerender identity.id payload.content client.body host.supply
    let full := client.renderBody session (spine.withPayload payload identity.path.segments)
    again.value = full.body ∧
      Host.Alike (client.surroundings spine identity.id) (host.commit again) full.host := by
  have sound := registered.sound
  have supply : (client.host.setPayload identity.id payload).supply = client.host.supply := by
    simp only [Host.supply, Host.setPayload, Host.modifyInstance,
      sound.settled.bounded.next_modify]
  have embeds := (Mounted.reconcile_withPayload payload).tree shown.shows distinct identity
    identity.path.segments ⟨nodup_body_instances sound, member, rfl, only⟩ liesAroundAt client.host.supply
  have declared : client.host.declareAll (.root session)
      (spine.withPayload payload identity.path.segments) = client.host := by
    refine Host.declareAll_of_hasDeclared registered.tabled.bounded fun declaration among => ?_
    rw [Spine.declarations_withPayload] at among
    exact shown.atRoot declaration among
  simp only [renderBody, reconcileBody, modifyHost, declared, supply]
  refine ⟨?_, ?_⟩
  · obtain ⟨before, after, -, -, same⟩ := embeds
    rw [same]
  · exact (alike_self sound handled).commit sound.settled.named registered.tabled.bounded
      (fun context declaration known => shown.declared (context, declaration) known)
      (not_around identity.id) (rerender_isApart sound handled shown.shows payload.content) embeds

/-- Right after a frame, rendering a component that is alone at its path with another payload, and a
    frame for the same spine with this payload in the component, come to the same: the body, the
    messages sent, the style rules, and what is found by every path. -/
theorem renderAt_eq_frame_withPayload {before client : Client} (reachable : Reachable before)
    {raw : Json} (pending : before.scheduler.pending = some raw)
    (framed : before.frame = (true, client)) {spine : Spine}
    (decodes : Spine.decode .root raw = .ok spine) (distinct : spine.Distinct) {path : Path}
    (only : (spine.componentPaths .root).count path = 1) {state : InstanceState}
    (found : client.host.currentMountedAt path.key = some state)
    (shown : state.identity ∈ client.body.instances) {rawPayload : Json} {payload : Payload}
    (reads : Payload.decode path rawPayload = .ok payload) :
    let addressed := client.renderAt path.key rawPayload
    let full := (client.schedule (Json.withPayload rawPayload path.segments raw)).frame
    addressed.1 = true ∧ full.1 = true ∧
      addressed.2.body = full.2.body ∧ addressed.2.bodyHtml = full.2.bodyHtml ∧
      (∃ messages, addressed.2.host.sent = client.host.sent ++ messages ∧
        full.2.host.sent = client.host.sent ++ messages) ∧
      addressed.2.host.styles.sheets.rules = full.2.host.styles.sheets.rules ∧
      ∀ session key, (addressed.2.host.mountedAt session key).map InstanceState.standing =
        (full.2.host.mountedAt session key).map InstanceState.standing := by
  obtain ⟨past, run⟩ := reachable
  have after : Run (past ++ before.actionDeeds .frame) client := by
    have performed := run.perform .frame
    rwa [perform, framed] at performed
  have registered := after.registered
  obtain ⟨session, rendered⟩ := hasRendered_frame run.sound pending decodes framed
  have mounted : client.host.mountedAt session path.key = some state := by
    simpa [Host.currentMountedAt, rendered.live] using found
  obtain rfl := path_of_mountedAt registered mounted
  obtain ⟨body, alike⟩ := alike_renderBody registered after.handled rendered distinct shown only
    payload
  have addressed : client.renderAt state.identity.path.key rawPayload =
      (true, (client.modifyHost (·.setPayload state.identity.id payload)).renderInstance
        { state with payload := payload }) := by
    simp only [renderAt, rendered.live, mounted, reads]
  have full : (client.schedule
      (Json.withPayload rawPayload state.identity.path.segments raw)).frame = _ :=
    frame_eq_renderBody (by simpa using rendered.live) (pending_schedule _ client)
      (Spine.decode_withPayload reads rfl raw decodes)
  have inBody : client.body.holds state.identity.id = true :=
    (Mounted.holds_iff _ _).mpr (List.mem_map.mpr ⟨_, shown, rfl⟩)
  simp only [addressed, full, renderInstance, modifyHost, inBody, if_true]
  obtain ⟨_, _, same⟩ := alike.exists_eq
  refine ⟨trivial, trivial, body, ?_, ?_, ?_, ?_⟩
  · exact congrArg (fun tree => "<body>" ++ tree.html ++ "</body>") body
  · obtain ⟨messages, sent⟩ : client.host.sent <+: _ :=
      (Host.Remembers.commit _ (client.host.setPayload state.identity.id payload)).sent
    exact ⟨messages, sent.symm, (congrArg Host.sent same).trans sent.symm⟩
  · exact (congrArg (·.styles.sheets.rules) same).symm
  · exact fun session key => (alike.mountedAt_standing session key).symm

/-- A list with a component without content as its second entry, as it is sent. -/
def componentInList : Json :=
  .object [("tag", .string "ul"), ("children", .array
    [.array [.ofUInt32 0, .string "first"],
      .array [.ofUInt32 1, .object [("type", .string "Component"), ("id", .ofUInt64 1)]]])]

/-- What leads to a client that is about to show the list. -/
def awaitList : List Action := [.openConnection, .message componentInList]

/-- The second entry is given a text, either by its path or within the list. -/
theorem component_in_list_given_text :
    let client := (history awaitList (.new "/" .never)).2.frame.2
    let path := Path.root.child 1
    let payload := Json.object [("spine", .string "second")]
    let addressed := client.renderAt path.key payload
    let full := (client.schedule (Json.withPayload payload path.segments componentInList)).frame
    addressed.1 = true ∧ full.1 = true ∧ addressed.2.bodyHtml = full.2.bodyHtml ∧
      full.2.bodyHtml = "<body><ul>firstsecond</ul></body>" := by
  intro client path payload addressed full
  have decodes : Spine.decode .root componentInList = .ok
      (.element "ul" [(0, .text "first"), (1, .component 1 "" .empty ⟨[], [], []⟩)] []) := by
    cbv
  have mounted : (client.host.currentMountedAt path.key).map InstanceState.identity =
      some ⟨0, 0, 1, path, some 1⟩ := by
    unfold client path
    cbv
  have instances : client.body.instances = [⟨0, 0, 1, path, some 1⟩] := by
    unfold client path
    cbv
  have framed : (history awaitList (.new "/" .never)).2.frame.1 = true := by cbv
  have reads : Payload.decode path payload = .ok ⟨.text "second", ⟨[], [], []⟩⟩ := by
    unfold path payload
    cbv
  obtain ⟨state, found, identity⟩ := Option.map_eq_some_iff.mp mounted
  have shown : state.identity ∈ client.body.instances := by
    rw [identity, instances]
    exact List.mem_singleton_self _
  have distinct : (Spine.element "ul"
      [(0, .text "first"), (1, .component 1 "" .empty ⟨[], [], []⟩)] []).Distinct := by
    simp [Spine.Distinct, Spine.DistinctChildren]
  have same := renderAt_eq_frame_withPayload ⟨_, run_history "/" .never awaitList⟩ rfl
    (Prod.ext framed rfl) decodes distinct (by decide) found shown reads
  refine ⟨same.1, same.2.1, same.2.2.2.1, ?_⟩
  unfold full client path payload
  cbv

end RemoteView.Client
