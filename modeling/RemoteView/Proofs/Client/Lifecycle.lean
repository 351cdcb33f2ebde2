import Mathlib
import RemoteView.Proofs.Client.Run
import RemoteView.Proofs.Mounted.Chains

/-! # The lives of instances

Wherever the renderer can be called the instances that are mounted are those in the trees, and every
call keeps the account: what stays is left alone, what leaves is unmounted once, and what enters is
created and mounted once. Which instances of the body stay is a matter of the chains that lead to
them.
-/

namespace RemoteView

namespace RenderCall

/-- Are the indices of siblings distinct in what a call renders in the body? -/
def Distinct (client : Client) : RenderCall → Prop
  | .body _ spine => spine.Distinct
  | .update id => ∀ state, client.host.instances.get? id = some state →
      state.payload.content.Distinct
  | .head _ _ => True
  | .loading => True

/-- Is there, in what a call renders in the body, the chain to an instance, in its session? Outside
    of a component that is rendered again everything is as it was. -/
def Keeps (client : Client) (chain : Chain) (identity : Instance) : RenderCall → Prop
  | .body session spine => identity.session = session ∧ chain ∈ spine.chains
  | .update id => ∀ state, client.host.instances.get? id = some state → ∀ place owner,
      owner.id = id → (place, owner) ∈ client.body.chains →
        Chain.Follows place state.payload.content chain
  | .head _ _ => True
  | .loading => False

end RenderCall

namespace Client

/-- The instances that are mounted are those in the trees. -/
def MountedAreShown (client : Client) : Prop :=
  (∀ identity ∈ client.instances, ∃ state,
    client.host.instances.get? identity.id = some state ∧ state.identity = identity) ∧
  ∀ id state, client.host.instances.get? id = some state →
    (state.phase = .mounted ↔ state.identity ∈ client.instances)

/-- What a call of the renderer does to instances. -/
structure Accounts (client : Client) (call : RenderCall) : Prop where
  stays : ∀ identity ∈ client.instances, identity ∈ (client.render call).instances →
    (Deed.mounts (client.deeds call)).count identity.id = 0 ∧
      (Deed.unmounts (client.deeds call)).count identity.id = 0
  leaves : ∀ identity ∈ client.instances, identity ∉ (client.render call).instances →
    (Deed.mounts (client.deeds call)).count identity.id = 0 ∧
      (Deed.unmounts (client.deeds call)).count identity.id = 1
  enters : ∀ identity ∈ (client.render call).instances, identity ∉ client.instances →
    (Deed.instantiations (client.deeds call)).count identity = 1 ∧
      (Deed.mounts (client.deeds call)).count identity.id = 1 ∧
      (Deed.unmounts (client.deeds call)).count identity.id = 0
  /-- Nothing is created that does not come to stand in the trees. -/
  created : ∀ identity ∈ Deed.instantiations (client.deeds call),
    identity ∈ (client.render call).instances ∧ identity ∉ client.instances
  /-- Nobody is handed what was rendered in another session. -/
  handed : ∀ id ∈ Deed.receivers (client.deeds call), ∃ identity ∈ client.instances,
    identity.id = id ∧ identity ∈ (client.render call).instances ∧
      client.sessionOf call = some identity.session
  shown : (client.render call).MountedAreShown

theorem mountedAreShown_of_settled {client : Client}
    (settled : client.host.Settled client.instances) : client.MountedAreShown := by
  refine ⟨fun identity member => ?_, fun id state found => ?_⟩
  · obtain ⟨state, found, stands⟩ := Option.map_eq_some_iff.mp (settled.present identity member)
    exact ⟨state, found, congrArg Standing.identity stands⟩
  · exact ⟨settled.mem_of_mounted found,
      fun member => congrArg Standing.phase (settled.standing_eq found member)⟩

theorem sessionOf_of_receiver {client : Client} {call : RenderCall} {id : InstanceId}
    (handed : id ∈ Deed.receivers (client.deeds call)) :
    ∃ session, client.sessionOf call = some session := by
  cases call with
  | body session spine => exact ⟨session, rfl⟩
  | head session spines => exact ⟨session, rfl⟩
  | update number =>
      cases found : client.host.instances.get? number with
      | none => simp [deeds, found, Deed.receivers] at handed
      | some state => exact ⟨state.identity.session, by simp [sessionOf, found]⟩
  | loading =>
      rw [Deed.receivers, deeds] at handed
      simp [Mounted.reconcileAll_apply, Mounted.unmountAll_only,
        (Step.only_of_takesDown (takesDown_loading _ _).1).2] at handed

/-- Every call of the renderer keeps the account of instances. -/
theorem accounts_of_settled {client : Client} (settled : client.host.Settled client.instances)
    (call : RenderCall) : Accounts client call := by
  obtain ⟨session, finish, turnover, here⟩ := turnover_render settled call
  refine { stays := fun identity member still => turnover.kept settled member still
           leaves := fun identity member gone => ?_
           enters := fun identity member new => ?_
           created := fun identity isNew => ?_
           handed := fun id isHanded => ?_
           shown := mountedAreShown_of_settled (settled_render settled call) }
  · obtain ⟨mounted, unmounted, -⟩ := turnover.left settled member gone
    exact ⟨mounted, unmounted⟩
  · have created := (turnover.known identity member).resolve_left new
    obtain ⟨once, mounted, unmounted, -⟩ := turnover.entered settled created
    exact ⟨List.count_eq_one_of_mem (List.Nodup.of_map _ turnover.nodup_instantiations) created,
      mounted, unmounted⟩
  · obtain ⟨-, -, -, -, there⟩ := turnover.entered settled isNew
    exact ⟨there, fun old => Nat.not_lt_of_le (turnover.le_of_created isNew) (settled.id_lt old)⟩
  · obtain ⟨identity, old, named, new, same⟩ := turnover.received id isHanded
    obtain ⟨other, isOther⟩ := sessionOf_of_receiver isHanded
    exact ⟨identity, old, named, new, by rw [isOther, here other isOther, same]⟩

/-! ## Which instances of the body stay -/

theorem ready_body {client : Client} (sound : Sound client) (distinct : client.body.Distinct)
    {supply : Supply} (later : client.host.instances.next ≤ supply.nextInstance) :
    ∃ session, Mounted.Ready (.root session) supply client.body := by
  obtain ⟨session, placed⟩ := sound.body
  refine ⟨session, distinct, ?_, ?_, placed⟩
  · have once := sound.settled.distinct
    rw [instances, List.map_append] at once
    exact once.of_append_left
  · intro identity member
    exact Nat.lt_of_lt_of_le (sound.settled.id_lt (List.mem_append_left _ member)) later

theorem distinct_renderBody {client : Client} (sound : Sound client) (session : SessionId)
    {spine : Spine} (distinct : spine.Distinct) : (client.renderBody session spine).body.Distinct := by
  obtain ⟨old, placed⟩ := sound.body
  have shows : Mounted.Shows (.root session) spine (Mounted.reconcile (.root session) client.body
      spine (client.modifyHost (·.declareAll (.root session) spine)).host.supply).value :=
    Mounted.shows_reconcile _ placed spine _
  exact shows.distinct distinct

theorem distinct_render {client : Client} (sound : Sound client) {call : RenderCall}
    (before : client.body.Distinct) (distinct : call.Distinct client) :
    (client.render call).body.Distinct := by
  cases call with
  | body session spine => exact distinct_renderBody sound session distinct
  | head session spines => exact before
  | update id =>
      cases found : client.host.instances.get? id with
      | none => simpa only [render, found] using before
      | some state =>
          obtain ⟨session, placed⟩ := sound.body
          simp only [render, found, renderInstance]
          split
          · have pushed := distinct state found
            have kept := (Mounted.rerender_distinct state.identity.id pushed).rerender client.body
              client.host.supply
            exact kept.2 placed before
          · split <;> exact before
  | loading =>
      have emptied : Sound (client.reconcileHead (.root 0) []) :=
        sound.render (.head 0 [])
      exact distinct_renderBody emptied 0 (by simp [loadingSpine, Spine.Distinct,
        Spine.DistinctChildren])

theorem mem_body_update_iff {client : Client} (sound : Sound client) {id : InstanceId}
    {state : InstanceState} (found : client.host.instances.get? id = some state)
    (before : client.body.Distinct) (distinct : state.payload.content.Distinct) {chain : Chain}
    {identity : Instance} (member : (chain, identity) ∈ client.body.chains) :
    identity ∈ (client.renderInstance state).body.instances ↔
      ∀ place owner, owner.id = id → (place, owner) ∈ client.body.chains →
        Chain.Follows place state.payload.content chain := by
  obtain rfl : state.identity.id = id := sound.settled.named.id_eq found
  unfold renderInstance
  simp only
  by_cases held : client.body.holds state.identity.id = true
  · rw [if_pos held]
    obtain ⟨session, ready⟩ := ready_body sound before (Nat.le_refl client.host.supply.nextInstance)
    obtain ⟨owner, inBody, same⟩ := List.mem_map.mp ((Mounted.holds_iff _ _).mp held)
    rw [← Mounted.chains_snd] at inBody
    obtain ⟨⟨place, inner⟩, placed, isOwner⟩ := List.mem_map.mp inBody
    obtain rfl : inner = owner := isOwner
    have kept := (Mounted.rerender_keeps state.identity.id distinct).rerender client.body _ ready
      same placed member
    refine kept.trans ⟨?_, ?_⟩
    · intro follows place' owner' same' placed'
      -- Only one instance has the number, and only one chain leads to it.
      obtain rfl : owner' = inner := sound.settled.eq_of_id
        (List.mem_append_left _ (Mounted.mem_instances_of_chain placed'))
        (List.mem_append_left _ (Mounted.mem_instances_of_chain placed)) (same'.trans same.symm)
      rw [Mounted.chain_unique ready.once placed' placed]
      exact follows
    · exact fun all => all place inner same placed
  · rw [if_neg held]
    have there := Mounted.mem_instances_of_chain member
    refine iff_of_true (by split <;> exact there) fun place owner same placed => ?_
    exact absurd ((Mounted.holds_iff _ _).mpr (List.mem_map.mpr
      ⟨owner, Mounted.mem_instances_of_chain placed, same⟩)) held

/-- When siblings can be told apart, an instance of the body stays exactly when its chain is in what
    is rendered. -/
theorem mem_body_render_iff {client : Client} (sound : Sound client) {call : RenderCall}
    (before : client.body.Distinct) (distinct : call.Distinct client) {chain : Chain}
    {identity : Instance} (member : (chain, identity) ∈ client.body.chains) :
    identity ∈ (client.render call).body.instances ↔ call.Keeps client chain identity := by
  have there := Mounted.mem_instances_of_chain member
  cases call with
  | body session spine =>
      have same := supply_declareAll (.root session) spine client.host
      obtain ⟨old, ready⟩ := ready_body sound before (Nat.le_of_eq
        (congrArg Supply.nextInstance same.symm))
      exact Mounted.mem_reconcile_iff ready distinct member
  | head session spines => exact iff_of_true there trivial
  | update id =>
      cases found : client.host.instances.get? id with
      | none => simpa [render, RenderCall.Keeps, found] using there
      | some state =>
          have kept := mem_body_update_iff sound found before (distinct state found) member
          simpa [render, RenderCall.Keeps, found] using kept
  | loading =>
      obtain ⟨old, ready⟩ : ∃ session, Mounted.Ready (.root session)
          (client.reconcileHead (.root 0) []).host.supply client.body :=
        ready_body sound before (Host.next_le_commit client.host _)
      have kept : identity ∈ (client.render .loading).body.instances ↔
          identity.session = 0 ∧ chain ∈ loadingSpine.chains :=
        Mounted.mem_reconcile_iff ready (by simp [loadingSpine, Spine.Distinct,
          Spine.DistinctChildren]) member
      simpa [RenderCall.Keeps, loadingSpine, Spine.chains, Spine.childChains] using kept

/-- Wherever the renderer can be called, the instances that are mounted are those in the trees, and
    every call keeps the account of them. When siblings can be told apart, an instance of the body
    stays exactly when what is rendered has the chain that leads to it. -/
theorem render_lifecycle_exact {client : Client} (callable : Callable client)
    (call : RenderCall) :
    client.MountedAreShown ∧ Accounts client call ∧
      (∀ session spine, call = .body session spine → spine.Distinct →
        (client.render call).body.Distinct) ∧
      (client.body.Distinct → call.Distinct client → (client.render call).body.Distinct ∧
        ∀ identity ∈ client.body.instances, ∃ chain,
          (∀ other, (other, identity) ∈ client.body.chains ↔ other = chain) ∧
          (identity ∈ (client.render call).body.instances ↔ call.Keeps client chain identity)) := by
  have sound := callable.sound
  refine ⟨mountedAreShown_of_settled sound.settled, accounts_of_settled sound.settled call, ?_, ?_⟩
  · rintro session spine rfl distinct
    exact distinct_renderBody sound session distinct
  · intro before distinct
    refine ⟨distinct_render sound before distinct, fun identity there => ?_⟩
    have member := there
    rw [← Mounted.chains_snd] at member
    obtain ⟨⟨chain, inner⟩, along, isThis⟩ := List.mem_map.mp member
    obtain rfl : inner = identity := isThis
    obtain ⟨session, ready⟩ := ready_body sound before (Nat.le_refl client.host.supply.nextInstance)
    refine ⟨chain, fun other => ⟨fun again => Mounted.chain_unique ready.once again along, ?_⟩,
      mem_body_render_iff sound before distinct along⟩
    rintro rfl
    exact along

/-- A client that shows a component without content. -/
def showingComponent : Client := (history showComponent (.new "/" .never)).2

/-- A client that shows a paragraph with another component in the component. -/
def showingInner : Client :=
  showingComponent.perform (.renderAt "" (.object [("spine", .object [("tag", .string "p"),
    ("children", .array [.array [.ofUInt32 0,
      .object [("type", .string "Component"), ("id", .ofUInt64 2)]]])])]))

theorem chains_showingInner : showingInner.body.chains = [([.component 1], ⟨0, 0, 1, .root, none⟩),
    ([.component 1, .child "p" (some 0), .component 2], ⟨1, 0, 2, ⟨[0]⟩, some 0⟩)] := by
  cbv

theorem distinct_showingInner : showingInner.body.Distinct := by
  cbv
  exact ⟨List.pairwise_singleton _ _, trivial⟩

/-- When the component is rendered again with a text in place of the paragraph, it stays, and the
    one in the paragraph leaves. -/
theorem outer_stays_inner_leaves :
    let sent : Json := .object [("spine", .string "text")]
    let ready := showingInner.modifyHost (·.setPayload 0 ⟨.text "text", [], [], []⟩)
    let outer : Instance := ⟨0, 0, 1, .root, none⟩
    let inner : Instance := ⟨1, 0, 2, ⟨[0]⟩, some 0⟩
    showingInner.call? (.renderAt "" sent) = some (ready, .update 0) ∧
      Callable ready ∧ Accounts ready (.update 0) ∧
      (outer ∈ ready.body.instances ∧ outer ∈ (ready.render (.update 0)).body.instances) ∧
      inner ∈ ready.body.instances ∧ inner ∉ (ready.render (.update 0)).body.instances := by
  intro sent ready outer inner
  have reachable : Reachable showingInner := ⟨_, (run_history "/" .never showComponent).perform _⟩
  have called : showingInner.call? (.renderAt "" sent) = some (ready, .update 0) := by
    unfold ready sent
    cbv
  have callable := reachable.callable_of_call? called
  obtain ⟨-, accounts, -, retained⟩ := render_lifecycle_exact callable (.update 0)
  have chains : ready.body.chains = [([.component 1], outer),
      ([.component 1, .child "p" (some 0), .component 2], inner)] := chains_showingInner
  have instances : ready.body.instances = [outer, inner] := by
    simp [← Mounted.chains_snd, chains]
  have payload : (ready.host.instances.get? 0).map InstanceState.payload =
      some ⟨.text "text", [], [], []⟩ := by
    unfold ready
    cbv
  have content {state : InstanceState} (found : ready.host.instances.get? 0 = some state) :
      state.payload.content = .text "text" := by
    rw [found] at payload
    exact congrArg Payload.content (Option.some.inj payload)
  have distinct : RenderCall.Distinct ready (.update 0) := by
    intro state found
    rw [content found]
    trivial
  obtain ⟨-, keeps⟩ := retained distinct_showingInner distinct
  refine ⟨called, callable, accounts, ⟨by simp [instances], ?_⟩, by simp [instances], ?_⟩
  · obtain ⟨chain, leads, exactly⟩ := keeps outer (by simp [instances])
    obtain rfl : [.component 1] = chain := (leads _).mp (by simp [chains])
    refine exactly.mpr fun state found place owner same along rest split inside => ?_
    simp only [chains, List.mem_cons, Prod.mk.injEq, List.not_mem_nil, or_false] at along
    rcases along with ⟨rfl, -⟩ | ⟨rfl, -⟩
    · exact absurd (List.cons.inj split).2.symm inside
    · cases split
  · obtain ⟨chain, leads, exactly⟩ := keeps inner (by simp [instances])
    obtain rfl : [.component 1, .child "p" (some 0), .component 2] = chain :=
      (leads _).mp (by simp [chains])
    rw [exactly]
    intro follows
    obtain ⟨state, found, -⟩ := Option.map_eq_some_iff.mp payload
    have inText := follows state found [.component 1] outer rfl (by simp [chains])
      [.child "p" (some 0), .component 2] rfl (List.cons_ne_nil _ _)
    rw [content found] at inText
    cases inText

end Client

end RemoteView
