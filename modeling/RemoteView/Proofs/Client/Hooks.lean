import RemoteView.Proofs.Client.Lifecycle
import RemoteView.Proofs.Client.Updating
import RemoteView.Proofs.Client.WindowListeners
import RemoteView.Proofs.Host.Hooks
import RemoteView.Proofs.Mounted.Belonging

/-! # When hooks run

The hooks of an instance that is mounted run when everything inside of it is complete: its refs are
attached, the components inside of it have been mounted, and those around it have not. The hooks of
an instance that is unmounted run while everything inside of it is still there. So a hook reaches
the elements of its own component under their stable keys.
-/

namespace RemoteView

namespace Deed

/-- Does a deed unmount an instance or detach a ref? -/
def TearsDown : Deed → Prop
  | .step (.willUnmount _) => True
  | .step (.detachRef _) => True
  | _ => False

/-- Does a deed mount an instance or attach a ref? -/
def Completes : Deed → Prop
  | .effect _ => True
  | .step _ => False

end Deed

theorem deeds_cut_effect {steps : List Step} {effects : List Effect} {before after : List Deed}
    {effect : Effect}
    (cut : steps.map .step ++ effects.map .effect = before ++ .effect effect :: after) :
    ∃ earlier later, effects = earlier ++ effect :: later ∧
      before = steps.map .step ++ earlier.map .effect := by
  induction steps generalizing before with
  | nil =>
      obtain ⟨earlier, rest, rfl, rfl, same⟩ := List.map_eq_append_iff.mp cut
      obtain ⟨one, later, rfl, isThis, -⟩ := List.map_eq_cons_iff.mp same
      exact ⟨earlier, later, by rw [Deed.effect.inj isThis], rfl⟩
  | cons step rest ih =>
      cases before with
      | nil => cases cut
      | cons first others =>
          obtain ⟨rfl, tail⟩ := List.cons.inj cut
          obtain ⟨earlier, later, split, rfl⟩ := ih tail
          exact ⟨earlier, later, split, rfl⟩

theorem deeds_cut_step {steps : List Step} {effects : List Effect} {before after : List Deed}
    {step : Step}
    (cut : steps.map .step ++ effects.map .effect = before ++ .step step :: after) :
    ∃ earlier later, steps = earlier ++ step :: later ∧ before = earlier.map .step ∧
      after = later.map .step ++ effects.map .effect := by
  induction steps generalizing before with
  | nil =>
      have among : .step step ∈ effects.map Deed.effect := by
        rw [← List.nil_append (effects.map Deed.effect)]
        exact cut ▸ List.mem_append_right _ List.mem_cons_self
      obtain ⟨effect, -, same⟩ := List.mem_map.mp among
      cases same
  | cons one rest ih =>
      cases before with
      | nil =>
          obtain ⟨same, rfl⟩ := List.cons.inj cut
          exact ⟨[], rest, by rw [Deed.step.inj same]; rfl, rfl, rfl⟩
      | cons first others =>
          obtain ⟨rfl, tail⟩ := List.cons.inj cut
          obtain ⟨earlier, later, rfl, rfl, rfl⟩ := ih tail
          exact ⟨one :: earlier, later, rfl, rfl, rfl⟩

namespace Client

/-- The components in the body and in the head, each with what is in it. -/
def components (client : Client) : List (Instance × Mounted) :=
  client.body.components ++ Mounted.childComponents client.head

theorem components_fst (client : Client) : client.components.map Prod.fst = client.instances := by
  rw [components, List.map_append, Mounted.components_fst, Mounted.childComponents_fst]
  rfl

theorem wholes_render (call : RenderCall) (client : Client) :
    Mounted.AsWholes client.components (client.render call).components
      (Deed.steps (client.deeds call)) (Deed.effects (client.deeds call)) :=
  turns_render Mounted.wholes_reckons call client

theorem isOutside_trees {client : Client} (carries : CarriesPaths client) :
    ∀ tree ∈ client.trees, tree.IsOutside client.instances := by
  intro tree isTree
  obtain ⟨session, faithful⟩ := carries.exists_faithful isTree
  refine ⟨.root session, fun identity _ same => ?_, faithful.elements⟩
  exact Option.some_ne_none _ (congrArg ContextId.instance? same).symm

/-- The refs of a component, with those of the components inside of it, are apart from all other
    refs of the client. -/
theorem exists_other_refs {client : Client} (sound : Sound client)
    (carries : CarriesPaths client) {one : Instance × Mounted}
    (member : one ∈ client.components) : ∃ others, Mounted.RefsApart client.refs one others :=
  @Mounted.exists_other_childRefs client.trees (isOutside_trees carries) sound.settled.distinct
    one member

theorem mem_refs_of_context {client : Client} (sound : Sound client)
    (carries : CarriesPaths client) {identity : Instance} {child : Mounted}
    (there : (identity, child) ∈ client.components) {one : Attachment} (member : one ∈ client.refs)
    (context : one.1.context = identity.context) : one ∈ child.refs := by
  obtain ⟨rest, apart⟩ := exists_other_refs sound carries there
  rcases List.mem_append.mp (apart.all.mem_iff.mp member) with isOwn | isOther
  · exact isOwn
  · exact absurd context (apart.outside one isOther identity List.mem_cons_self)

theorem not_inside {client : Client} (sound : Sound client) {identity : Instance}
    {child : Mounted} (member : (identity, child) ∈ client.components) :
    identity.id ∉ child.instances.map Instance.id := by
  have within : (Mounted.component identity child).instances <:+: client.instances :=
    @Mounted.instances_of_childComponent client.trees (identity, child) member
  exact (List.nodup_cons.mp ((within.sublist.map Instance.id).nodup sound.settled.distinct)).1

/-! ## What is declared for new instances -/

theorem noRefsAhead_prepared {client : Client} (nothing : client.host.NoRefsAhead)
    (call : RenderCall) : (client.prepared call).NoRefsAhead := by
  intro id n own ahead
  have atRoot : ∀ pair ∈ call.declaredAtRoot, pair.1.instance? = none := by
    intro pair among
    cases call with
    | body session spine =>
        obtain ⟨declaration, -, rfl⟩ := List.mem_map.mp among
        rfl
    | head session spines =>
        obtain ⟨spine, -, inside⟩ := List.mem_flatMap.mp among
        obtain ⟨declaration, -, rfl⟩ := List.mem_map.mp inside
        rfl
    | update | loading => cases among
  have silent : id.firstIn call.declaredAtRoot = none :=
    RefId.firstIn_eq_none fun pair among same => by
      have root := atRoot pair among
      rw [same, own] at root
      cases root
  rw [instances_prepared] at ahead
  rw [ref?_prepared, silent, Option.or_none]
  exact nothing id n own ahead

theorem noRefsAhead_quiet {client after : Client} (nothing : client.host.NoRefsAhead)
    (change : Quiet client after) : after.host.NoRefsAhead := by
  intro id n own ahead
  have same : after.host.ref? id = client.host.ref? id := by
    simp only [Host.ref?, Host.context, contexts_quiet change]
  rw [same]
  refine nothing id n own (Nat.le_of_not_lt fun old => Nat.not_lt_of_le ahead ?_)
  exact @hasOpened_quiet client after change ⟨0, some n⟩ old

theorem noRefsAhead_render {client : Client} (sound : Sound client)
    (nothing : client.host.NoRefsAhead) (call : RenderCall) :
    (client.render call).host.NoRefsAhead := by
  obtain ⟨session, finish, turnover, -⟩ := turnover_render sound.settled call
  obtain ⟨again, old, declares⟩ := declaresContents_render sound.settled call
  have instances := instances_prepared call client
  rw [← supply_prepared call] at turnover
  rw [← instances] at old
  rw [host_render_eq_commit call client finish]
  exact turnover.noRefsAhead_commit (sound.settled.congr instances) declares old
    (noRefsAhead_prepared nothing call)

theorem Run.noRefsAhead {past : List Deed} {client : Client} (run : Run past client) :
    client.host.NoRefsAhead := by
  refine (run.invariant (P := fun _ client => Sound client ∧ client.host.NoRefsAhead)
    (fun location policy => ⟨(Run.new location policy).sound, fun _ _ _ _ => rfl⟩) ?_).2
  rintro past client deeds after ⟨sound, nothing⟩ move
  refine ⟨sound.move move, ?_⟩
  cases move with
  | quiet change => exact noRefsAhead_quiet nothing change
  | render call live => exact noRefsAhead_render sound nothing call

theorem Callable.noRefsAhead {client : Client} (callable : Callable client) :
    client.host.NoRefsAhead :=
  callable.invariant (P := fun client => client.host.NoRefsAhead) (fun _ _ => Run.noRefsAhead)
    fun _ _ => noRefsAhead_quiet

/-! ## Instances that are mounted -/

/-- A component that a call brings in, with the payload that its instance is created with. -/
structure Entering (client : Client) (call : RenderCall) (identity : Instance) (child : Mounted)
    (payload : Payload) : Prop where
  there : (identity, child) ∈ (client.render call).components
  created : .instantiate identity payload ∈ Deed.steps (client.deeds call)
  shows : Mounted.Shows identity.site payload.content child
  completed : (Mounted.component identity child).completion <:+:
    Deed.effects (client.deeds call)

section

variable {client : Client} {call : RenderCall} {identity : Instance}
  {child : Mounted} {payload : Payload} {earlier later : List Effect}

theorem exists_entering (there : (identity, child) ∈ (client.render call).components)
    (new : identity ∉ client.instances) :
    ∃ payload, Entering client call identity child payload := by
  rw [← components_fst] at new
  obtain ⟨⟨payload, created, shows⟩, completed⟩ :=
    ((wholes_render call client).enters _ there).resolve_left new
  exact ⟨payload, there, created, shows, completed⟩

theorem exists_entering_of_mounted (sound : Sound client) {id : InstanceId}
    (mounted : .didMount id ∈ Deed.effects (client.deeds call)) :
    ∃ identity child payload, identity.id = id ∧ identity ∉ client.instances ∧
      Entering client call identity child payload := by
  obtain ⟨session, finish, turnover, -⟩ := turnover_render sound.settled call
  have created := List.count_pos_iff.mpr (Effect.mem_mounts.mpr mounted)
  rw [turnover.mounted] at created
  obtain ⟨identity, isNew, rfl⟩ := List.mem_map.mp (List.count_pos_iff.mp created)
  obtain ⟨there, new⟩ := (accounts_of_settled sound.settled call).created identity isNew
  rw [← components_fst] at there
  obtain ⟨⟨_, child⟩, isComponent, rfl⟩ := List.mem_map.mp there
  obtain ⟨payload, entering⟩ := exists_entering isComponent new
  exact ⟨_, child, payload, rfl, new, entering⟩

theorem Entering.isNew (entering : Entering client call identity child payload) :
    identity ∈ Step.instantiations (Deed.steps (client.deeds call)) :=
  Step.mem_instantiations.mpr ⟨payload, entering.created⟩

theorem Entering.mounted_once (entering : Entering client call identity child payload)
    (sound : Sound client)
    (cut : Deed.effects (client.deeds call) = earlier ++ .didMount identity.id :: later) :
    .didMount identity.id ∉ earlier ∧ .didMount identity.id ∉ later := by
  obtain ⟨session, finish, turnover, -⟩ := turnover_render sound.settled call
  have once := (turnover.entered sound.settled entering.isNew).2.1
  rw [cut, Effect.mounts_append, Effect.mounts_cons, List.count_append, List.count_append] at once
  simp only [Effect.mounted?, Option.toList_some, List.count_singleton_self] at once
  rw [← Effect.mem_mounts, ← Effect.mem_mounts]
  exact ⟨List.count_eq_zero.mp (by omega), List.count_eq_zero.mp (by omega)⟩

/-- Just before an instance is told that it is mounted everything inside of it is completed. -/
theorem Entering.earlier_eq (entering : Entering client call identity child payload)
    (sound : Sound client)
    (cut : Deed.effects (client.deeds call) = earlier ++ .didMount identity.id :: later) :
    ∃ others, earlier = others ++ child.completion := by
  obtain ⟨others, rest, whole⟩ := entering.completed
  have again : Deed.effects (client.deeds call) =
      (others ++ child.completion) ++ .didMount identity.id :: rest := by
    rw [← whole]
    simp [Mounted.completion]
  obtain ⟨before, after⟩ := entering.mounted_once sound cut
  exact ⟨others,
    ((List.append_cons_inj_of_notMem before after).mp (cut.symm.trans again)).1⟩

theorem Entering.around (entering : Entering client call identity child payload)
    (sound : Sound client)
    (cut : Deed.effects (client.deeds call) = earlier ++ .didMount identity.id :: later)
    {outer : Instance} {content : Mounted}
    (there : (outer, content) ∈ (client.render call).components)
    (inside : identity ∈ content.instances) : .didMount outer.id ∉ earlier := by
  intro among
  by_cases old : outer ∈ client.instances
  · obtain ⟨session, finish, turnover, -⟩ := turnover_render sound.settled call
    have still : outer ∈ (client.render call).instances := by
      rw [← components_fst]
      exact List.mem_map_of_mem there
    refine List.count_eq_zero.mp (turnover.kept sound.settled old still).1 ?_
    rw [Effect.mem_mounts, cut]
    exact List.mem_append_left _ among
  · obtain ⟨_, around⟩ := exists_entering there old
    obtain ⟨first, between, rfl⟩ := List.append_of_mem among
    have cutThere : Deed.effects (client.deeds call) =
        first ++ .didMount outer.id :: (between ++ .didMount identity.id :: later) := by
      rw [cut, List.append_assoc]
      rfl
    obtain ⟨others, rfl⟩ := around.earlier_eq sound cutThere
    refine (entering.mounted_once sound cut).1 (List.mem_append_left _ ?_)
    exact List.mem_append_right _ (Mounted.didMount_mem_completion inside)

theorem Entering.waits (entering : Entering client call identity child payload)
    (sound : Sound client)
    (cut : Deed.effects (client.deeds call) = earlier ++ .didMount identity.id :: later) :
    (earlier.foldl Host.runEffect
      ((Deed.steps (client.deeds call)).foldl Host.runStep (client.prepared call))).HasCreated
        identity payload := by
  obtain ⟨session, finish, turnover, -⟩ := turnover_render sound.settled call
  have settled := sound.settled.congr (instances_prepared call client)
  have once := List.nodup_iff_count.mp turnover.nodup_instantiations identity.id
  have kept := turnover.not_received sound.settled (turnover.le_of_created entering.isNew)
  exact (Host.HasCreated.of_created entering.created once kept _).effects earlier
    (Host.Named.steps settled.named _)
    (Effect.mem_mounts.not.mpr (entering.mounted_once sound cut).1)

/-- What the own elements of the content declare counts, so their refs store under the keys that they
    declare. -/
theorem Entering.slot? (entering : Entering client call identity child payload)
    (callable : Callable client) (names : payload.content.NamesElements)
    {entry : List UInt32 × String × List Attribute}
    (member : entry ∈ payload.content.ownElements) {declared : RefAttribute}
    (here : declared ∈ Attribute.refs entry.2.2) :
    ((Deed.steps (client.deeds call)).foldl Host.runStep (client.prepared call)).slot?
      ⟨identity.context, identity.path.descend entry.1⟩ =
        declared.key.map (identity.context, ·) := by
  have sound := callable.sound
  obtain ⟨session, finish, turnover, -⟩ := turnover_render sound.settled call
  obtain ⟨again, old, declares⟩ := declaresContents_render sound.settled call
  rw [← supply_prepared call] at turnover
  rw [← instances_prepared call client] at old
  rw [Host.slot?, turnover.ref?_of_created (sound.settled.congr (instances_prepared call client))
    declares old (noRefsAhead_prepared callable.noRefsAhead call) entering.created names member here]
  rfl

/-- When an instance is told that it is mounted, every stable key that its content declares stands
    for the element that declares it. -/
theorem Entering.stored? (entering : Entering client call identity child payload)
    (callable : Callable client)
    (cut : Deed.effects (client.deeds call) = earlier ++ .didMount identity.id :: later)
    (names : payload.content.NamesElements) {entry : List UInt32 × String × List Attribute}
    (member : entry ∈ payload.content.ownElements) {declared : RefAttribute}
    (here : declared ∈ Attribute.refs entry.2.2) {key : String} (keyed : declared.key = some key) :
    ∃ one ∈ child.elementsAt identity.site, Mounted.IsOwn identity.site entry one ∧
      (earlier.foldl Host.runEffect
        ((Deed.steps (client.deeds call)).foldl Host.runStep (client.prepared call))).stored?
          (identity.context, key) = some (.host one.2.handle) := by
  have sound := callable.sound
  have new := not_inside (sound.render call) entering.there
  obtain ⟨one, placed, own, isRef⟩ := Mounted.exists_own_element entering.shows new member
  refine ⟨one, placed, own, ?_⟩
  have attached := isRef declared (names.written entry member declared here)
  obtain ⟨others, rfl⟩ := entering.earlier_eq sound cut
  have works := (works_of_created sound entering.isNew).1
  rcases @Host.stored?_effects (identity.context, key) (others ++ child.completion) _ works
    with ⟨other, among, stores, stored⟩ | ⟨none, -⟩
  · -- Only an own element of the component stores under the key, and it is the same one.
    have context : other.1.context = identity.context := (Host.context_of_slot stores).symm
    obtain ⟨gone, turned⟩ := refTurnover_render call client
    have there : other ∈ (client.render call).refs := by
      refine turned.attached ?_
      rw [cut, Effect.attaches_append]
      exact List.mem_append_left _ among
    have inside := mem_refs_of_context (sound.render call) (callable.carriesPaths.render call)
      entering.there there context
    obtain ⟨again, member', given, here', same⟩ :=
      Mounted.own_of_mem_refs entering.shows new inside context
    rw [same, entering.slot? callable names member' here'] at stores
    have keyed' : given.key = some key := by simpa using stores
    obtain rfl := names.eq_of_key member member' here keyed here' keyed'
    have once := Mounted.nodup_refs entering.shows.placed entering.shows.faithful
      (entering.shows.distinct names.distinct)
    have isThis := List.inj_on_of_nodup_map once inside attached same
    rw [stored, isThis]
  · refine absurd ?_ (none _ (List.mem_filterMap.mpr
      ⟨_, List.mem_append_right _ (Mounted.attachRef_mem_completion attached), rfl⟩))
    rw [entering.slot? callable names member here, keyed]
    rfl

end

/-! ## Instances that are unmounted -/

/-- A component that a call takes away. -/
structure Leaving (client : Client) (call : RenderCall) (identity : Instance) (child : Mounted) :
    Prop where
  there : (identity, child) ∈ client.components
  gone : identity ∉ (client.render call).instances
  unmounted : (Mounted.component identity child).unmount <:+: Deed.steps (client.deeds call)

section

variable {client : Client} {call : RenderCall} {identity : Instance} {child : Mounted}
  {earlier later : List Step}

theorem Leaving.instances_subset (leaving : Leaving client call identity child) :
    identity :: child.instances ⊆ client.instances :=
  (@Mounted.instances_of_childComponent client.trees (identity, child) leaving.there).subset

theorem exists_leaving_of_unmounted (sound : Sound client) {id : InstanceId}
    (unmounted : .willUnmount id ∈ Deed.steps (client.deeds call)) :
    ∃ identity child, identity.id = id ∧ Leaving client call identity child := by
  obtain ⟨session, finish, turnover, -⟩ := turnover_render sound.settled call
  have among := Step.mem_unmounts.mpr unmounted
  have was := Nat.lt_of_lt_of_le (List.count_pos_iff.mpr among) (turnover.gone id)
  obtain ⟨identity, member, rfl⟩ := List.mem_map.mp (List.count_pos_iff.mp was)
  have gone : identity ∉ (client.render call).instances := fun still =>
    List.count_eq_zero.mp (turnover.kept sound.settled member still).2 among
  rw [← components_fst] at member gone
  obtain ⟨⟨_, child⟩, there, rfl⟩ := List.mem_map.mp member
  have whole := ((wholes_render call client).leaves _ there).resolve_left gone
  rw [components_fst] at gone
  exact ⟨_, child, rfl, there, gone, whole⟩

theorem Leaving.unmounted_once (leaving : Leaving client call identity child)
    (sound : Sound client)
    (cut : Deed.steps (client.deeds call) = earlier ++ .willUnmount identity.id :: later) :
    .willUnmount identity.id ∉ earlier ∧ .willUnmount identity.id ∉ later := by
  obtain ⟨session, finish, turnover, -⟩ := turnover_render sound.settled call
  have member := leaving.instances_subset List.mem_cons_self
  have once := (turnover.left sound.settled member leaving.gone).2.1
  rw [cut, Step.unmounts_append, Step.unmounts_cons, List.count_append, List.count_append] at once
  simp only [Step.unmounted?, Option.toList_some, List.count_singleton_self] at once
  rw [← Step.mem_unmounts, ← Step.mem_unmounts]
  exact ⟨List.count_eq_zero.mp (by omega), List.count_eq_zero.mp (by omega)⟩

/-- Just after an instance is told that it will be unmounted everything inside of it is
    unmounted. -/
theorem Leaving.later_eq (leaving : Leaving client call identity child) (sound : Sound client)
    (cut : Deed.steps (client.deeds call) = earlier ++ .willUnmount identity.id :: later) :
    ∃ others, later = child.unmount ++ .release identity.id :: others := by
  obtain ⟨before, others, whole⟩ := leaving.unmounted
  have again : Deed.steps (client.deeds call) =
      before ++ .willUnmount identity.id :: (child.unmount ++ .release identity.id :: others) := by
    rw [← whole]
    simp [Mounted.unmount]
  obtain ⟨first, last⟩ := leaving.unmounted_once sound cut
  exact ⟨others, ((List.append_cons_inj_of_notMem first last).mp (cut.symm.trans again)).2.2⟩

theorem Leaving.nested (leaving : Leaving client call identity child) (sound : Sound client)
    (cut : Deed.steps (client.deeds call) = earlier ++ .willUnmount identity.id :: later)
    {inner : Instance} (member : inner ∈ child.instances) :
    .willUnmount inner.id ∉ earlier ∧ .willUnmount inner.id ∈ later := by
  obtain ⟨session, finish, turnover, -⟩ := turnover_render sound.settled call
  obtain ⟨others, rfl⟩ := leaving.later_eq sound cut
  have inside : inner.id ∈ Step.unmounts child.unmount := by
    rw [Mounted.unmounts_unmount]
    exact List.mem_map_of_mem member
  have once := Nat.le_trans (turnover.gone inner.id) (sound.settled.count_le_one inner.id)
  have there := List.count_pos_iff.mpr inside
  rw [cut, Step.unmounts_append, Step.unmounts_cons, Step.unmounts_append, List.count_append,
    List.count_append, List.count_append] at once
  rw [← Step.mem_unmounts]
  exact ⟨List.count_eq_zero.mp (by omega), List.mem_append_left _ (Step.mem_unmounts.mp inside)⟩

/-- When an instance is told that it will be unmounted, no ref inside of it has been detached. -/
theorem Leaving.attached (leaving : Leaving client call identity child) (sound : Sound client)
    (carries : CarriesPaths client)
    (cut : Deed.steps (client.deeds call) = earlier ++ .willUnmount identity.id :: later)
    {one : Attachment} (member : one ∈ child.refs) :
    .detachRef one.1 ∉ earlier ∧ .detachRef one.1 ∈ later := by
  obtain ⟨gone, turned⟩ := refTurnover_render call client
  obtain ⟨others, rfl⟩ := leaving.later_eq sound cut
  obtain ⟨rest, apart⟩ := exists_other_refs sound carries leaving.there
  -- All refs of this name are inside, and unmounting what is inside detaches every one of them.
  have elsewhere : one.1 ∉ rest.map Prod.fst := by
    intro among
    obtain ⟨other, isOther, same⟩ := List.mem_map.mp among
    obtain ⟨inner, within, own⟩ := apart.inside one member
    exact apart.outside other isOther inner within (by rw [same, own])
  have bound : (Step.detaches (Deed.steps (client.deeds call))).count one.1 ≤
      (child.refs.map Prod.fst).count one.1 := by
    calc (Step.detaches (Deed.steps (client.deeds call))).count one.1
        ≤ (client.refs.map Prod.fst).count one.1 := by
          obtain ⟨left, same, sub⟩ := turned.sub
          rw [turned.detached, ← (same.map Prod.fst).count_eq]
          exact (sub.map Prod.fst).count_le one.1
      _ = (child.refs.map Prod.fst).count one.1 := by
          rw [(apart.all.map Prod.fst).count_eq, List.map_append, List.count_append,
            List.count_eq_zero.mpr elsewhere, Nat.add_zero]
  rw [cut, Step.detaches_append, Step.detaches_cons, Step.detaches_append,
    Mounted.detaches_unmount, List.count_append, List.count_append, List.count_append] at bound
  have inside : one.1 ∈ Step.detaches child.unmount := by
    rw [Mounted.detaches_unmount]
    exact List.mem_map_of_mem member
  rw [← Step.mem_detaches]
  exact ⟨List.count_eq_zero.mp (by omega), List.mem_append_left _ (Step.mem_detaches.mp inside)⟩

theorem Leaving.mounted (leaving : Leaving client call identity child) (sound : Sound client)
    (cut : Deed.steps (client.deeds call) = earlier ++ .willUnmount identity.id :: later) :
    ∃ state, (earlier.foldl Host.runStep (client.prepared call)).instances.get? identity.id =
      some state ∧ state.identity = identity ∧ state.phase = .mounted := by
  obtain ⟨session, finish, turnover, -⟩ := turnover_render sound.settled call
  have settled := sound.settled.congr (instances_prepared call client)
  have member := leaving.instances_subset List.mem_cons_self
  have old : identity.id ∉ (Step.instantiations earlier).map Instance.id := by
    intro among
    refine List.count_eq_zero.mp (turnover.count_old (sound.settled.id_lt member)) ?_
    rw [cut, Step.instantiations_append, List.map_append]
    exact List.mem_append_left _ among
  have standing := Host.standing_steps earlier (client.prepared call) identity.id old
  rw [settled.present identity member, Option.map_some] at standing
  rw [if_neg (Step.mem_unmounts.not.mpr (leaving.unmounted_once sound cut).1)] at standing
  obtain ⟨state, found, same⟩ := Option.map_eq_some_iff.mp standing
  refine ⟨state, found, ?_, ?_⟩
  · have identity := congrArg Standing.identity same
    split at identity <;> exact identity
  · have phase := congrArg Standing.phase same
    split at phase <;> exact phase

end

/-! ## Hooks -/

/-- What has been done when a call tells an instance that it is mounted, and what its hooks
    reach. -/
structure MountsInTime (client : Client) (call : RenderCall) (before : List Deed)
    (identity : Instance) (child : Mounted) (payload : Payload) : Prop where
  there : (identity, child) ∈ (client.render call).components
  new : identity ∉ client.instances
  created : .step (.instantiate identity payload) ∈ before
  attached : ∀ one ∈ child.refs, .effect (.attachRef one.1 one.2) ∈ before
  nested : ∀ inner ∈ child.instances, .effect (.didMount inner.id) ∈ before
  around : ∀ outer content, (outer, content) ∈ (client.render call).components →
    identity ∈ content.instances → .effect (.didMount outer.id) ∉ before
  /-- This is when the hooks are evaluated. -/
  hooks : (before.foldl Host.runDeed (client.prepared call)).didMount identity.id =
    payload.behaviour.listeners.foldl (Host.attachListener identity)
      (((before.foldl Host.runDeed (client.prepared call)).entering identity).runHooks identity
        payload.behaviour.onMount)
  /-- Whichever hook it is, and wherever in it a stable key is asked for: it stands for the element
      that declares it. -/
  reached : payload.content.NamesElements → ∀ entry ∈ payload.content.ownElements,
    ∀ declared ∈ Attribute.refs entry.2.2, ∀ key, declared.key = some key →
      ∃ one ∈ child.elementsAt identity.site, Mounted.IsOwn identity.site entry one ∧
        ∀ done hook rest, payload.behaviour.onMount = done ++ hook :: rest →
          let host := ((before.foldl Host.runDeed (client.prepared call)).entering
            identity).runHooks identity done
          ∀ holes objects, ({ host with objects := objects }.evaluateIn identity.context holes
            (.deref key)).1 = .host one.2.handle

/-- What has been done, and what has not, when a call tells an instance that it will be
    unmounted. -/
structure UnmountsInTime (client : Client) (call : RenderCall) (before after : List Deed)
    (identity : Instance) (child : Mounted) : Prop where
  there : (identity, child) ∈ client.components
  gone : identity ∉ (client.render call).instances
  attached : ∀ one ∈ child.refs,
    .step (.detachRef one.1) ∉ before ∧ .step (.detachRef one.1) ∈ after
  nested : ∀ inner ∈ child.instances,
    .step (.willUnmount inner.id) ∉ before ∧ .step (.willUnmount inner.id) ∈ after
  /-- This is when the hooks are evaluated. -/
  hooks : ∃ state,
    (before.foldl Host.runDeed (client.prepared call)).instances.get? identity.id = some state ∧
    state.identity = identity ∧
    (before.foldl Host.runDeed (client.prepared call)).willUnmount identity.id =
      (state.attached.foldl (fun host (event, listener) => host.removeWindowListener event listener)
        (((before.foldl Host.runDeed (client.prepared call)).leaving identity).runHooks identity
          state.payload.behaviour.onUnmount)).unregisterMounted identity

/-- When a call evaluates hooks. -/
structure HooksInTime (client : Client) (call : RenderCall) : Prop where
  /-- Once something was mounted or attached, nothing is unmounted or detached. -/
  apart : (client.deeds call).Pairwise fun earlier later => earlier.Completes → ¬ later.TearsDown
  entered : ∀ identity ∈ (client.render call).instances, identity ∉ client.instances →
    .effect (.didMount identity.id) ∈ client.deeds call
  mounted : ∀ id before after, client.deeds call = before ++ .effect (.didMount id) :: after →
    ∃ identity child payload, identity.id = id ∧
      MountsInTime client call before identity child payload
  left : ∀ identity ∈ client.instances, identity ∉ (client.render call).instances →
    .step (.willUnmount identity.id) ∈ client.deeds call
  unmounted : ∀ id before after, client.deeds call = before ++ .step (.willUnmount id) :: after →
    ∃ identity child, identity.id = id ∧ UnmountsInTime client call before after identity child

section

variable {client : Client} {call : RenderCall}

theorem deeds_eq_append (call : RenderCall) (client : Client) : client.deeds call =
    (Deed.steps (client.deeds call)).map .step ++ (Deed.effects (client.deeds call)).map .effect :=
  deeds_eq call client client.host.supply

theorem foldl_runDeed_steps (steps : List Step) (host : Host) :
    (steps.map Deed.step).foldl Host.runDeed host = steps.foldl Host.runStep host :=
  List.foldl_map

theorem foldl_runDeed_effects (effects : List Effect) (host : Host) :
    (effects.map Deed.effect).foldl Host.runDeed host = effects.foldl Host.runEffect host :=
  List.foldl_map

/-- An instance is told that it is mounted when everything inside of it is complete. -/
theorem mountsInTime (callable : Callable client) {id : InstanceId} {before after : List Deed}
    (cut : client.deeds call = before ++ .effect (.didMount id) :: after) :
    ∃ identity child payload, identity.id = id ∧
      MountsInTime client call before identity child payload := by
  have sound := callable.sound
  obtain ⟨earlier, later, effects, rfl⟩ :=
    deeds_cut_effect ((deeds_eq_append call client).symm.trans cut)
  have mounted : .didMount id ∈ Deed.effects (client.deeds call) := by
    rw [effects]
    exact List.mem_append_right _ List.mem_cons_self
  obtain ⟨identity, child, payload, rfl, new, entering⟩ :=
    exists_entering_of_mounted sound mounted
  obtain ⟨others, rest⟩ := entering.earlier_eq sound effects
  have done {effect : Effect} (among : effect ∈ child.completion) :
      .effect effect ∈ (Deed.steps (client.deeds call)).map Deed.step ++
        earlier.map Deed.effect := by
    rw [rest]
    exact List.mem_append_right _ (List.mem_map_of_mem (List.mem_append_right _ among))
  have waits := entering.waits sound effects
  have host : ((Deed.steps (client.deeds call)).map Deed.step ++ earlier.map Deed.effect).foldl
      Host.runDeed (client.prepared call) = earlier.foldl Host.runEffect
        ((Deed.steps (client.deeds call)).foldl Host.runStep (client.prepared call)) := by
    rw [List.foldl_append, foldl_runDeed_steps, foldl_runDeed_effects]
  refine ⟨identity, child, payload, rfl, {
    there := entering.there
    new := new
    created := List.mem_append_left _ (List.mem_map_of_mem entering.created)
    attached := fun one member => done (Mounted.attachRef_mem_completion member)
    nested := fun inner member => done (Mounted.didMount_mem_completion member)
    around := ?_
    hooks := ?_
    reached := ?_ }⟩
  · intro outer content around inside among
    refine entering.around sound effects around inside ?_
    simpa using among
  · rw [host]
    exact Host.didMount_eq_runHooks waits
  · intro names entry member declared here key keyed
    obtain ⟨one, placed, own, stored⟩ :=
      entering.stored? callable effects names member here keyed
    refine ⟨one, placed, own, fun done hook rest split holes objects => ?_⟩
    rw [host, Host.deref_entering, stored]
    rfl

/-- An instance is told that it will be unmounted while everything inside of it is there. -/
theorem unmountsInTime (callable : Callable client) {id : InstanceId} {before after : List Deed}
    (cut : client.deeds call = before ++ .step (.willUnmount id) :: after) :
    ∃ identity child, identity.id = id ∧
      UnmountsInTime client call before after identity child := by
  have sound := callable.sound
  obtain ⟨earlier, later, steps, rfl, rfl⟩ :=
    deeds_cut_step ((deeds_eq_append call client).symm.trans cut)
  have unmounted : .willUnmount id ∈ Deed.steps (client.deeds call) := by
    rw [steps]
    exact List.mem_append_right _ List.mem_cons_self
  obtain ⟨identity, child, rfl, leaving⟩ := exists_leaving_of_unmounted sound unmounted
  refine ⟨identity, child, rfl, {
    there := leaving.there
    gone := leaving.gone
    attached := fun one member => ?_
    nested := fun inner member => ?_
    hooks := ?_ }⟩
  · obtain ⟨absent, follows⟩ := leaving.attached sound callable.carriesPaths steps member
    exact ⟨by simpa using absent, List.mem_append_left _ (List.mem_map_of_mem follows)⟩
  · obtain ⟨absent, follows⟩ := leaving.nested sound steps member
    exact ⟨by simpa using absent, List.mem_append_left _ (List.mem_map_of_mem follows)⟩
  · obtain ⟨state, found, rfl, mounted⟩ := leaving.mounted sound steps
    rw [foldl_runDeed_steps]
    exact ⟨state, found, rfl, Host.willUnmount_eq_runHooks found mounted⟩

/-- Whenever a call evaluates the hooks of an instance that it mounts, every ref inside of it has
    been attached, every component inside of it has been mounted, and none around it has; and the
    stable keys that its content declares reach the elements that declare them. Whenever it
    evaluates the hooks of an instance that it unmounts, nothing inside of it has been detached or
    unmounted. All that is unmounted and detached comes before all that is mounted and attached. -/
theorem hooks_run_in_time (callable : Callable client) (call : RenderCall) :
    HooksInTime client call := by
  have accounts := accounts_of_settled callable.sound.settled call
  refine {
    apart := ?_
    entered := fun identity member new => ?_
    mounted := fun id before after cut => mountsInTime callable cut
    left := fun identity member gone => ?_
    unmounted := fun id before after cut => unmountsInTime callable cut }
  · rw [deeds_eq_append]
    refine List.pairwise_append.mpr ⟨?_, ?_, ?_⟩
    · exact List.pairwise_map.mpr (List.pairwise_of_forall fun _ _ never => never.elim)
    · exact List.pairwise_map.mpr (List.pairwise_of_forall fun _ _ _ never => never)
    · intro earlier isStep later _ completes
      obtain ⟨step, -, rfl⟩ := List.mem_map.mp isStep
      exact completes.elim
  · have once := (accounts.enters identity member new).2.1
    have among : identity.id ∈ Effect.mounts (Deed.effects (client.deeds call)) :=
      List.count_pos_iff.mp (by rw [← Deed.mounts, once]; exact Nat.one_pos)
    rw [deeds_eq_append]
    exact List.mem_append_right _ (List.mem_map_of_mem (Effect.mem_mounts.mp among))
  · have once := (accounts.leaves identity member gone).2
    have among : identity.id ∈ Step.unmounts (Deed.steps (client.deeds call)) :=
      List.count_pos_iff.mp (by rw [← Deed.unmounts, once]; exact Nat.one_pos)
    rw [deeds_eq_append]
    exact List.mem_append_left _ (List.mem_map_of_mem (Step.mem_unmounts.mp among))

end

/-- A paragraph with a stable key, and a component in it that has hooks. -/
def keyedParagraph : Spine :=
  let hook (text : String) : List Expr := [.literal (.string text)]
  .element "p" [(0, .component 2 "Inner" (.text "leaf") ⟨[], hook "mounted", hook "unmounted"⟩)]
    [.ref ⟨some "text", .nothing, .nothing⟩]

/-- A component around the paragraph, with hooks that ask for the key. -/
def askingComponent : Spine :=
  .component 1 "Outer" keyedParagraph ⟨[], [.deref "text"], [.deref "text"]⟩

/-- The component inside is mounted first and unmounted last, and both times the component around it
    reaches the paragraph. -/
theorem paragraph_reached_by_hooks :
    let opened := (history [.openConnection] (.new "/" .never)).2
    let shown := opened.render (.body 0 askingComponent)
    let paragraph : Json := .object [("tagName", .string "P"), ("attributes", .object [])]
    HooksInTime opened (.body 0 askingComponent) ∧ keyedParagraph.NamesElements ∧
      (shown.render (.body 0 .empty)).host.sent =
        [(0, .location "/"), (0, .hook ⟨[0]⟩ (.string "mounted")), (0, .hook .root paragraph),
          (0, .hook .root paragraph), (0, .hook ⟨[0]⟩ (.string "unmounted"))] := by
  intro opened shown paragraph
  have reachable : Reachable opened := ⟨_, run_history "/" .never [.openConnection]⟩
  refine ⟨hooks_run_in_time reachable.callable _, ?_, ?_⟩
  · constructor
    · decide
    all_goals simp [keyedParagraph, Spine.ownElements, Spine.ownChildren, Attribute.refs,
      Attribute.asRef?, Attribute.lastWriting?, Attribute.propertyName]
  · unfold shown opened
    cbv

end Client

end RemoteView
