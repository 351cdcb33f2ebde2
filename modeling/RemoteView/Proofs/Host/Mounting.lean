import RemoteView.Proofs.Client.Rendering
import RemoteView.Proofs.Host.Attending

/-! # What is mounted with which payload

A record of everything that was mounted, each instance with the payload that it had just then. What
an instance has added to the window is what this payload declares, however often it is handed
another one, and when it is unmounted just that is taken away. So the listeners of the window are
those that the instances of the trees declared when they were mounted, each as often as it was
declared.
-/

namespace RemoteView

/-- An instance that was mounted, with the payload that it had then. -/
structure Mounting where
  identity : Instance
  payload : Payload

/-- The window listeners that were declared, with their events. -/
def Mounting.listeners (mounting : Mounting) : List (String × ListenerId) :=
  mounting.payload.behaviour.listeners.map fun one =>
    (one.event, mounting.identity.listenerOf one)

namespace Host

/-- What a deed mounts: an instance that was created, with the payload that it has now. -/
def mounting? (host : Host) : Deed → Option Mounting
  | .effect (.didMount id) =>
      ((host.instances.get? id).filter (·.phase = .created)).map fun state =>
        ⟨state.identity, state.payload⟩
  | .effect (.attachRef _ _) => none
  | .step _ => none

/-- Everything that deeds mount, one after another. -/
def mountings : List Deed → Host → List Mounting
  | [], _ => []
  | deed :: rest, host => (host.mounting? deed).toList ++ mountings rest (host.runDeed deed)

theorem mountings_append (left right : List Deed) (host : Host) :
    mountings (left ++ right) host =
      mountings left host ++ mountings right (left.foldl runDeed host) := by
  induction left generalizing host with
  | nil => rfl
  | cons deed rest ih => simp only [List.cons_append, mountings, ih, List.append_assoc, List.foldl_cons]

theorem mountings_steps (steps : List Step) (host : Host) :
    mountings (steps.map .step) host = [] := by
  induction steps generalizing host with
  | nil => rfl
  | cons step rest ih => exact ih (host.runStep step)

/-! ## What mounting and unmounting write -/

theorem get?_attachListeners {identity : Instance} {state : InstanceState}
    (declared : List WindowListener) {host : Host}
    (found : host.instances.get? identity.id = some state) :
    (declared.foldl (attachListener identity) host).instances.get? identity.id =
      some { state with
        attached := state.attached ++ declared.map fun one =>
          (one.event, identity.listenerOf one) } := by
  induction declared generalizing host state with
  | nil => simpa using found
  | cons first rest ih =>
      have stored : (host.attachListener identity first).instances.get? identity.id =
          some { state with attached := state.attached ++
            [(first.event, identity.listenerOf first)] } := by
        refine (Numbered.get?_modify _ _ _ _).trans ((if_pos rfl).trans ?_)
        exact congrArg _ found
      rw [List.foldl_cons, ih stored, List.append_assoc]
      rfl

theorem get?_didMount_created {host : Host} {state : InstanceState}
    (found : host.instances.get? state.identity.id = some state) (created : state.phase = .created) :
    (host.didMount state.identity.id).instances.get? state.identity.id =
      some { state with
        phase := .mounted
        attached := state.attached ++ Mounting.listeners ⟨state.identity, state.payload⟩ } := by
  have hooked := CalledBack.runHooks state.identity state.payload.behaviour.onMount
    ((host.modifyInstance state.identity.id ({ · with phase := .mounted })).registerMounted
      state.identity)
  have stored : (Host.runHooks state.identity state.payload.behaviour.onMount
      ((host.modifyInstance state.identity.id ({ · with phase := .mounted })).registerMounted
        state.identity)).instances.get? state.identity.id =
          some { state with phase := .mounted } := by
    rw [hooked.instances, instances_registerMounted]
    refine (Numbered.get?_modify _ _ _ _).trans ((if_pos rfl).trans ?_)
    rw [found, Option.map_some]
  unfold didMount
  simp only [found, created, if_true]
  exact get?_attachListeners state.payload.behaviour.listeners stored

/-! ## The record -/

/-- A host has mounted these instances, with these payloads: each of them once, and what is mounted
    still has added what its payload declared then. -/
structure HasMounted (mounted : List Mounting) (host : Host) : Prop where
  once : (mounted.map fun one => one.identity.id).Nodup
  known : ∀ one ∈ mounted, ∃ state, host.instances.get? one.identity.id = some state ∧
    state.phase ≠ .created
  added : ∀ id state, host.instances.get? id = some state → state.phase = .mounted →
    ∃ one ∈ mounted, one.identity = state.identity ∧ state.attached = one.listeners

namespace HasMounted

variable {mounted : List Mounting} {host after : Host}

theorem empty : HasMounted [] .empty where
  once := List.nodup_nil
  known one among := by cases among
  added id state found := by simp [Host.empty, Numbered.get?, Numbered.empty] at found

theorem congr (has : HasMounted mounted host) (same : after.instances = host.instances) :
    HasMounted mounted after where
  once := has.once
  known := by
    rw [same]
    exact has.known
  added := by
    rw [same]
    exact has.added

theorem modifyInstance (has : HasMounted mounted host) (id : InstanceId)
    (change : InstanceState → InstanceState)
    (identity : ∀ state, (change state).identity = state.identity)
    (begun : ∀ state, (change state).phase = .created → state.phase = .created)
    (kept : ∀ state, (change state).phase = .mounted →
      state.phase = .mounted ∧ (change state).attached = state.attached) :
    HasMounted mounted (host.modifyInstance id change) where
  once := has.once
  known one among := by
    obtain ⟨state, found, phase⟩ := has.known one among
    rw [Host.modifyInstance, Numbered.get?_modify, found]
    split
    · exact ⟨change state, rfl, fun new => phase (begun state new)⟩
    · exact ⟨state, rfl, phase⟩
  added n state found phase := by
    rw [Host.modifyInstance, Numbered.get?_modify] at found
    split at found
    · obtain ⟨before, stored, rfl⟩ := Option.map_eq_some_iff.mp found
      obtain ⟨was, attached⟩ := kept before phase
      rw [identity, attached]
      exact has.added n before stored was
    · exact has.added n state found phase

theorem instantiate (has : HasMounted mounted host) {identity : Instance} (payload : Payload)
    (new : host.instances.get? identity.id = none) :
    HasMounted mounted (host.instantiate identity payload) where
  once := has.once
  known one among := by
    obtain ⟨state, found, phase⟩ := has.known one among
    refine ⟨state, ?_, phase⟩
    rw [Host.instantiate, Numbered.get?_put, if_neg]
    · exact found
    · intro same
      rw [same, new] at found
      cases found
  added n state found phase := by
    rw [Host.instantiate, Numbered.get?_put] at found
    split at found
    · obtain rfl := Option.some.inj found
      cases phase
    · exact has.added n state found phase

theorem willUnmount (has : HasMounted mounted host) (id : InstanceId) :
    HasMounted mounted (host.willUnmount id) := by
  rcases willUnmount_cases id host with ⟨state, found, isMounted⟩ | ⟨-, same⟩
  · have left := has.modifyInstance id ({ · with phase := .unmounted, attached := [] })
      (fun _ => rfl) (fun _ new => by cases new) (fun _ still => by cases still)
    exact left.congr (instances_willUnmount found isMounted)
  · rw [same]
    exact has

theorem runStep (has : HasMounted mounted host) (step : Step)
    (new : ∀ identity ∈ step.instantiated?, host.instances.get? identity.id = none) :
    HasMounted mounted (host.runStep step) := by
  cases step with
  | createHandle | syncHandle => exact has.congr rfl
  | detachRef id => exact has.congr (CalledBack.detachRef id host).instances
  | willUnmount id => exact has.willUnmount id
  | release id =>
      exact has.modifyInstance id _ (fun _ => rfl) (fun _ new => new) fun _ still => ⟨still, rfl⟩
  | instantiate identity payload => exact has.instantiate payload (new identity rfl)
  | receive id payload =>
      exact has.modifyInstance id _ (fun _ => rfl) (fun _ new => new) fun _ still => ⟨still, rfl⟩
  | declare site spine => exact has.congr (instances_declareAll site spine host)

theorem didMount (has : HasMounted mounted host) (listening : host.Listening) (named : host.Named)
    (id : InstanceId) :
    HasMounted (mounted ++ (host.mounting? (.effect (.didMount id))).toList) (host.didMount id) := by
  by_cases waits : ∃ state, host.instances.get? id = some state ∧ state.phase = .created
  · obtain ⟨state, found, created⟩ := waits
    obtain rfl : state.identity.id = id := named.id_eq found
    have grown : host.mounting? (.effect (.didMount state.identity.id)) =
        some ⟨state.identity, state.payload⟩ := by
      simp [mounting?, found, Option.filter_some, created]
    have stored := get?_didMount_created found created
    rw [listening.idle _ state found (by simp [created]), List.nil_append] at stored
    -- What was mounted before was another instance.
    have other : ∀ one ∈ mounted, one.identity.id ≠ state.identity.id := by
      intro one among same
      obtain ⟨old, isOld, phase⟩ := has.known one among
      rw [same, found, Option.some.injEq] at isOld
      exact phase (isOld ▸ created)
    rw [grown, Option.toList_some]
    refine ⟨?_, ?_, ?_⟩
    · rw [List.map_append, List.nodup_append]
      refine ⟨has.once, List.nodup_singleton _, fun n isOld last isLast same => ?_⟩
      obtain ⟨one, among, rfl⟩ := List.mem_map.mp isOld
      exact other one among (same.trans (List.mem_singleton.mp isLast))
    · intro one among
      rcases List.mem_append.mp among with before | last
      · rw [get?_didMount_other named (other one before)]
        exact has.known one before
      · obtain rfl := List.mem_singleton.mp last
        exact ⟨_, stored, by simp⟩
    · intro n entry isFound phase
      by_cases here : n = state.identity.id
      · subst here
        obtain rfl := Option.some.inj (stored.symm.trans isFound)
        exact ⟨_, List.mem_append_right _ (List.mem_singleton_self _), rfl, rfl⟩
      · rw [get?_didMount_other named here] at isFound
        obtain ⟨one, among, same⟩ := has.added n entry isFound phase
        exact ⟨one, List.mem_append_left _ among, same⟩
  · have still : host.didMount id = host :=
      didMount_of_not_created fun state found created => waits ⟨state, found, created⟩
    have nothing : host.mounting? (.effect (.didMount id)) = none := by
      cases found : host.instances.get? id with
      | none => simp [mounting?, found]
      | some state =>
          have phase : state.phase ≠ .created := fun created => waits ⟨state, found, created⟩
          simp [mounting?, found, Option.filter_some, phase]
    rw [still, nothing, Option.toList_none, List.append_nil]
    exact has

theorem runEffect (has : HasMounted mounted host) (listening : host.Listening) (named : host.Named)
    (effect : Effect) :
    HasMounted (mounted ++ (host.mounting? (.effect effect)).toList) (host.runEffect effect) := by
  cases effect with
  | attachRef id handle =>
      refine HasMounted.congr ?_ (CalledBack.attachRef id (.host handle) host).instances
      simpa [mounting?] using has
  | didMount id => exact has.didMount listening named id

theorem steps (steps : List Step) (has : HasMounted mounted host)
    (new : ∀ identity ∈ Step.instantiations steps, host.standing identity.id = none)
    (once : ((Step.instantiations steps).map Instance.id).Nodup) :
    HasMounted mounted (steps.foldl Host.runStep host) :=
  steps_of_new (fun _ step has new => has.runStep step new) has new once

theorem effects (effects : List Effect) (has : HasMounted mounted host)
    (listening : host.Listening) (named : host.Named) :
    HasMounted (mounted ++ mountings (effects.map .effect) host)
      (effects.foldl Host.runEffect host) := by
  induction effects generalizing host mounted with
  | nil =>
      rw [List.map_nil, mountings, List.append_nil]
      exact has
  | cons effect rest ih =>
      rw [List.map_cons, mountings, ← List.append_assoc]
      exact ih (has.runEffect listening named effect) (listening.runEffect named effect)
        (named.runEffect effect)

end HasMounted

/-- A rendering adds what it mounts to the record. -/
theorem HasMounted.commit {α : Type} {session : SessionId} {host : Host} {mounted : List Mounting}
    {before after : List Instance} {outcome : Outcome α} {finish : Supply}
    (has : HasMounted mounted host)
    (turnover : Turnover session host.supply before after outcome.steps outcome.effects finish)
    (settled : host.Settled before) (listening : host.Listening) :
    HasMounted (mounted ++ mountings outcome.deeds host) (host.commit outcome) := by
  have new : ∀ identity ∈ Step.instantiations outcome.steps, host.standing identity.id = none :=
    fun _ => turnover.standing_of_created settled
  have stepped := has.steps outcome.steps new turnover.nodup_instantiations
  have listens := listening.steps outcome.steps new turnover.nodup_instantiations
  rw [Outcome.deeds, mountings_append, mountings_steps, List.nil_append, List.foldl_map]
  exact stepped.effects outcome.effects listens (Host.Named.steps settled.named outcome.steps)

/-! ## The balance of the window -/

theorem flatMap_filter_of_nil {α β : Type} {P : α → Bool} {f : α → List β} {list : List α}
    (nothing : ∀ one ∈ list, P one = false → f one = []) :
    (list.filter P).flatMap f = list.flatMap f := by
  induction list with
  | nil => rfl
  | cons first rest ih =>
      have later := ih fun one among => nothing one (List.mem_cons_of_mem _ among)
      cases holds : P first with
      | true => rw [List.filter_cons_of_pos holds, List.flatMap_cons, List.flatMap_cons, later]
      | false =>
          rw [List.filter_cons_of_neg (by simp [holds]), List.flatMap_cons, later,
            nothing first List.mem_cons_self holds, List.nil_append]

section Balance

variable {mounted : List Mounting} {host : Host} {trees : List Instance}

theorem HasMounted.perm_trees (has : HasMounted mounted host) (settled : host.Settled trees) :
    ((mounted.filter (·.identity ∈ trees)).map Mounting.identity).Perm trees := by
  have once : ((mounted.filter (·.identity ∈ trees)).map Mounting.identity).Nodup := by
    apply List.Nodup.of_map Instance.id
    rw [List.map_map]
    exact has.once.sublist (List.filter_sublist.map _)
  refine (List.perm_ext_iff_of_nodup once settled.distinct.of_map).mpr fun identity => ?_
  constructor
  · intro member
    obtain ⟨one, among, rfl⟩ := List.mem_map.mp member
    exact of_decide_eq_true (List.mem_filter.mp among).2
  · intro member
    obtain ⟨state, found, stands⟩ := Option.map_eq_some_iff.mp (settled.present identity member)
    obtain ⟨one, among, same, -⟩ := has.added _ state found (congrArg Standing.phase stands)
    have isThis : one.identity = identity := same.trans (congrArg Standing.identity stands)
    exact List.mem_map.mpr ⟨one, List.mem_filter.mpr ⟨among, by simpa [isThis] using member⟩, isThis⟩

/-- The instances that are mounted, each with what it has added to the window. -/
def adding (host : Host) : List (Instance × List (String × ListenerId)) :=
  (host.instances.entries.filter (·.2.phase = .mounted)).map fun entry =>
    (entry.2.identity, entry.2.attached)

/-- The instances of a record that are in the trees still, each with what it declared. -/
def declaring (mounted : List Mounting) (trees : List Instance) :
    List (Instance × List (String × ListenerId)) :=
  (mounted.filter (·.identity ∈ trees)).map fun one => (one.identity, one.listeners)

theorem mem_declaring {pair : Instance × List (String × ListenerId)} :
    pair ∈ declaring mounted trees ↔
      ∃ one ∈ mounted, one.identity ∈ trees ∧ (one.identity, one.listeners) = pair := by
  simp [declaring, and_assoc]

theorem mem_adding (listening : host.Listening) {pair : Instance × List (String × ListenerId)} :
    pair ∈ host.adding ↔ ∃ id state, host.instances.get? id = some state ∧
      state.phase = .mounted ∧ (state.identity, state.attached) = pair := by
  rw [adding, List.mem_map]
  constructor
  · rintro ⟨entry, member, rfl⟩
    obtain ⟨stored, phase⟩ := List.mem_filter.mp member
    exact ⟨entry.1, entry.2, Assoc.get?_of_mem listening.distinct stored, of_decide_eq_true phase,
      rfl⟩
  · rintro ⟨id, state, found, phase, rfl⟩
    exact ⟨(id, state), List.mem_filter.mpr ⟨Assoc.mem_of_get? found, decide_eq_true phase⟩, rfl⟩

theorem nodup_adding (listening : host.Listening) (settled : host.Settled trees) :
    host.adding.Nodup := by
  apply List.Nodup.of_map fun pair => pair.1.id
  have keys : host.adding.map (fun pair => pair.1.id) =
      (host.instances.entries.filter (·.2.phase = .mounted)).map Prod.fst := by
    rw [adding, List.map_map]
    refine List.map_congr_left fun entry among => ?_
    have found : host.instances.get? entry.1 = some entry.2 :=
      Assoc.get?_of_mem listening.distinct (List.mem_filter.mp among).1
    exact settled.named.id_eq found
  rw [keys]
  exact listening.distinct.sublist (List.filter_sublist.map _)

theorem HasMounted.nodup_declaring (has : HasMounted mounted host) :
    (declaring mounted trees).Nodup := by
  apply List.Nodup.of_map fun pair => pair.1.id
  rw [declaring, List.map_map]
  exact has.once.sublist (List.filter_sublist.map _)

/-- The instances that are mounted are those of the record that are in the trees still, and each has
    added what it declared. -/
theorem HasMounted.perm_adding (has : HasMounted mounted host) (listening : host.Listening)
    (settled : host.Settled trees) : host.adding.Perm (declaring mounted trees) := by
  refine (List.perm_ext_iff_of_nodup (nodup_adding listening settled) has.nodup_declaring).mpr
    fun pair => ?_
  rw [mem_adding listening, mem_declaring]
  constructor
  · rintro ⟨id, state, found, phase, rfl⟩
    obtain ⟨one, isOne, same, attached⟩ := has.added id state found phase
    refine ⟨one, isOne, ?_, by rw [same, attached]⟩
    rw [same]
    exact settled.mem_of_mounted found phase
  · rintro ⟨one, isOne, there, rfl⟩
    obtain ⟨state, found, stands⟩ := Option.map_eq_some_iff.mp (settled.present one.identity there)
    have phase : state.phase = .mounted := congrArg Standing.phase stands
    have isThis : state.identity = one.identity := congrArg Standing.identity stands
    obtain ⟨other, isOther, same, attached⟩ := has.added _ state found phase
    obtain rfl := List.inj_on_of_nodup_map has.once isOther isOne
      (congrArg Instance.id (same.trans isThis))
    exact ⟨_, state, found, phase, by rw [isThis, attached]⟩

theorem HasMounted.balanced (has : HasMounted mounted host) (listening : host.Listening)
    (settled : host.Settled trees) : host.windowListeners.Perm
      ((mounted.filter (·.identity ∈ trees)).flatMap Mounting.listeners) := by
  have sums : host.attached = host.adding.flatMap Prod.snd := by
    rw [adding, List.flatMap_map, attached, flatMap_filter_of_nil]
    intro entry stored unmounted
    exact listening.idle entry.1 entry.2 (Assoc.get?_of_mem listening.distinct stored)
      (of_decide_eq_false unmounted)
  have declares : (mounted.filter (·.identity ∈ trees)).flatMap Mounting.listeners =
      (declaring mounted trees).flatMap Prod.snd := by
    rw [declaring, List.flatMap_map]
  rw [declares]
  exact listening.balanced.trans
    (sums ▸ (has.perm_adding listening settled).flatMap_right Prod.snd)

theorem HasMounted.perm_windowListenersOf (has : HasMounted mounted host)
    (listening : host.Listening) (settled : host.Settled trees) {one : Mounting}
    (among : one ∈ mounted) (there : one.identity ∈ trees) :
    (host.windowListenersOf one.identity.context).Perm one.listeners := by
  have living : one ∈ mounted.filter (·.identity ∈ trees) :=
    List.mem_filter.mpr ⟨among, decide_eq_true there⟩
  have once : ((mounted.filter (·.identity ∈ trees)).map fun one => one.identity.id).Nodup :=
    has.once.sublist (List.filter_sublist.map _)
  have balance := (has.balanced listening settled).filter fun entry =>
    entry.2.context = one.identity.context
  obtain ⟨before, after, split⟩ := List.append_of_mem living
  rw [split] at balance once
  simp only [List.map_append, List.map_cons] at once
  obtain ⟨-, notLater, notBefore⟩ := List.nodup_append.mp once
  -- The others are of other contexts.
  have others (list : List Mounting) (other : ∀ item ∈ list, item.identity.id ≠ one.identity.id) :
      (list.flatMap Mounting.listeners).filter (fun entry =>
        entry.2.context = one.identity.context) = [] := by
    refine List.filter_eq_nil_iff.mpr fun entry isEntry same => ?_
    obtain ⟨item, isItem, inside⟩ := List.mem_flatMap.mp isEntry
    obtain ⟨declared, -, rfl⟩ := List.mem_map.mp inside
    have contexts : item.identity.context = one.identity.context := of_decide_eq_true same
    exact other item isItem (Option.some.inj (ContextId.mk.inj contexts).2)
  have own : one.listeners.filter (fun entry => entry.2.context = one.identity.context) =
      one.listeners := by
    refine List.filter_eq_self.mpr fun entry isEntry => ?_
    obtain ⟨declared, -, rfl⟩ := List.mem_map.mp isEntry
    exact decide_eq_true rfl
  rw [List.flatMap_append, List.flatMap_cons, List.filter_append, List.filter_append, own,
    others before fun item isItem => ?_, others after fun item isItem => ?_, List.nil_append,
    List.append_nil] at balance
  · exact balance
  · exact fun same => (List.nodup_cons.mp notLater).1 (List.mem_map.mpr ⟨item, isItem, same⟩)
  · exact fun same => notBefore _ (List.mem_map.mpr ⟨item, isItem, rfl⟩) _ List.mem_cons_self same

end Balance

end Host

end RemoteView
