import RemoteView.Proofs.Host.Listening
import RemoteView.Proofs.Mounted.Contents
import RemoteView.Proofs.Spine.Listeners

/-! # What window listeners do

An instance that is mounted adds its window listeners in the order in which its payload has them. By
then its content has been declared in the same context, so where the root of the content has a
listener of the same function, that one counts. As long as the instance is mounted nothing changes
about this, whatever it is rendered with later.
-/

namespace RemoteView

/-- A window listener of an instance. -/
def Instance.listenerOf (identity : Instance) (declared : WindowListener) : ListenerId :=
  ⟨identity.context, identity.path, declared.fid⟩

/-- What a window listener of a component with a content does: what a listener of the same function
    does at the root of the content, or else what was declared for it. -/
def WindowListener.behaviourIn (content : Spine) (declared : WindowListener) : ListenerBehaviour :=
  ((content.listenerAt? declared.fid []).map Listener.behaviour).getD declared.behaviour

theorem context_ne_of_id {identity : Instance} {context : ContextId}
    (apart : context.instance? ≠ some identity.id) : identity.context ≠ context := by
  rintro rfl
  exact apart rfl

namespace Host

/-- The window listeners of a context, with their events. -/
def windowListenersOf (context : ContextId) (host : Host) : List (String × ListenerId) :=
  host.windowListeners.filter fun entry => entry.2.context = context

/-! ## Adding window listeners -/

theorem windowListeners_attachListeners (identity : Instance) (declared : List WindowListener)
    (host : Host) : (declared.foldl (attachListener identity) host).windowListeners =
      host.windowListeners ++ declared.map fun one => (one.event, identity.listenerOf one) := by
  induction declared generalizing host with
  | nil => exact (List.append_nil _).symm
  | cons first rest ih =>
      have added : (host.attachListener identity first).windowListeners =
          host.windowListeners ++ [(first.event, identity.listenerOf first)] := rfl
      rw [List.foldl_cons, ih, added, List.append_assoc]
      rfl

theorem listener?_attachListeners (identity : Instance) (declared : List WindowListener)
    (host : Host) (id : ListenerId) :
    (declared.foldl (attachListener identity) host).listener? id = (host.listener? id).or
      (declared.findSome? fun one =>
        if identity.listenerOf one = id then some one.behaviour else none) := by
  induction declared generalizing host with
  | nil => exact (Option.or_none ..).symm
  | cons first rest ih =>
      have added : (host.attachListener identity first).listener? id = (host.listener? id).or
          (if identity.listenerOf first = id then some first.behaviour else none) := by
        refine (listener?_insertNew identity.context identity.path first.fid first.behaviour host
          id).trans ?_
        congr 2
        obtain ⟨context, path, fid⟩ := id
        simp [Instance.listenerOf]
      rw [List.foldl_cons, ih, added, List.findSome?_cons, Option.or_assoc]
      congr 1
      split <;> rfl

/-- An instance that is mounted adds its window listeners; what they do may have been declared
    before. -/
theorem didMount_created {host : Host} {id : InstanceId} {state : InstanceState}
    (found : host.instances.get? id = some state) (created : state.phase = .created) :
    let declared := state.payload.behaviour.listeners
    (host.didMount id).windowListeners = host.windowListeners ++
        declared.map (fun one => (one.event, state.identity.listenerOf one)) ∧
      ∀ other, (host.didMount id).listener? other = (host.listener? other).or
        (declared.findSome? fun one =>
          if state.identity.listenerOf one = other then some one.behaviour else none) := by
  intro declared
  have hooked := CalledBack.runHooks state.identity state.payload.behaviour.onMount
    ((host.modifyInstance id ({ · with phase := .mounted })).registerMounted state.identity)
  unfold didMount
  simp only [found, created, if_true]
  constructor
  · rw [windowListeners_attachListeners, hooked.windowListeners, windowListeners_registerMounted]
    rfl
  · intro other
    rw [listener?_attachListeners, hooked.listener?,
      listener?_congr (contexts_registerMounted state.identity _)]
    rfl

theorem didMount_of_not_created {host : Host} {id : InstanceId}
    (not : ∀ state, host.instances.get? id = some state → state.phase ≠ .created) :
    host.didMount id = host := by
  unfold didMount
  cases found : host.instances.get? id with
  | none => rfl
  | some state => exact if_neg (not state found)

theorem didMount_other {host : Host} (named : host.Named) {id : InstanceId} (context : ContextId)
    (apart : context.instance? ≠ some id) :
    (host.didMount id).windowListenersOf context = host.windowListenersOf context ∧
      ∀ other : ListenerId, other.context = context →
        (host.didMount id).listener? other = host.listener? other := by
  cases found : host.instances.get? id with
  | none => simp [didMount, found]
  | some state =>
      by_cases created : state.phase = .created
      · have name : state.identity.id = id := named.id_eq found
        have elsewhere : state.identity.context ≠ context := context_ne_of_id (by rwa [name])
        obtain ⟨added, declared⟩ := didMount_created found created
        constructor
        · have none : (state.payload.behaviour.listeners.map fun one =>
              (one.event, state.identity.listenerOf one)).filter
                (fun entry => entry.2.context = context) = [] := by
            apply List.filter_eq_nil_iff.mpr
            intro entry among
            obtain ⟨one, -, rfl⟩ := List.mem_map.mp among
            exact decide_eq_true_iff.not.mpr elsewhere
          rw [windowListenersOf, added, List.filter_append, none, List.append_nil]
          rfl
        · intro other own
          rw [declared, List.findSome?_eq_none_iff.mpr, Option.or_none]
          intro one _
          refine if_neg fun same => elsewhere ?_
          rw [← own, ← same]
          rfl
      · have still : host.didMount id = host := by
          apply didMount_of_not_created
          intro other isFound
          rw [found, Option.some.injEq] at isFound
          rwa [← isFound]
        rw [still]
        exact ⟨rfl, fun _ _ => rfl⟩

/-! ## Taking window listeners away -/

theorem filter_erase_of_not {α : Type} [BEq α] [LawfulBEq α] {P : α → Bool} {one : α}
    (not : P one = false) (list : List α) : (list.erase one).filter P = list.filter P := by
  induction list with
  | nil => rfl
  | cons first rest ih =>
      by_cases same : first = one
      · subst same
        rw [List.erase_cons_head, List.filter_cons_of_neg (by simp [not])]
      · rw [List.erase_cons_tail (by simpa using same), List.filter_cons, List.filter_cons, ih]

theorem filter_diff_of_not {α : Type} [BEq α] [LawfulBEq α] {P : α → Bool} {removed : List α}
    (not : ∀ one ∈ removed, P one = false) (list : List α) :
    (list.diff removed).filter P = list.filter P := by
  induction removed generalizing list with
  | nil => rfl
  | cons first rest ih =>
      rw [List.diff_cons, ih fun one among => not one (List.mem_cons_of_mem _ among),
        filter_erase_of_not (not first List.mem_cons_self)]

/-- Instances have added listeners of their own contexts only. -/
def AddsOwn (host : Host) : Prop :=
  ∀ id state, host.instances.get? id = some state →
    ∀ entry ∈ state.attached, entry.2.context = state.identity.context

theorem Listening.addsOwn {host : Host} (listening : host.Listening) : host.AddsOwn :=
  fun id state found entry among => (listening.own id state found entry among).1

theorem Listening.windowListenersOf_of_new {host : Host} (listening : host.Listening)
    (named : host.Named) (bounded : host.instances.IsBounded) {identity : Instance}
    (new : host.instances.next ≤ identity.id) : host.windowListenersOf identity.context = [] := by
  apply List.filter_eq_nil_iff.mpr
  intro entry among same
  obtain ⟨⟨n, state⟩, stored, added⟩ := List.mem_flatMap.mp (listening.balanced.mem_iff.mp among)
  have found : host.instances.get? n = some state := Assoc.get?_of_mem listening.distinct stored
  have own := listening.addsOwn n state found entry added
  have isThis : state.identity.context = identity.context := own.symm.trans (of_decide_eq_true same)
  have sameId : state.identity.id = identity.id := Option.some.inj (ContextId.mk.inj isThis).2
  have there : identity.id < host.instances.next := by
    rw [← sameId, named.id_eq found]
    exact bounded n state found
  exact Nat.not_lt_of_le new there

namespace AddsOwn

variable {host after : Host}

theorem congr (own : host.AddsOwn) (same : after.instances = host.instances) : after.AddsOwn := by
  intro id state found
  rw [same] at found
  exact own id state found

theorem modifyInstance (own : host.AddsOwn) (id : InstanceId)
    (change : InstanceState → InstanceState)
    (identity : ∀ state, (change state).identity = state.identity)
    (attached : ∀ state, (change state).attached ⊆ state.attached) :
    (host.modifyInstance id change).AddsOwn := by
  intro n state found entry among
  rw [Host.modifyInstance, Numbered.get?_modify] at found
  split at found
  · obtain ⟨before, stored, rfl⟩ := Option.map_eq_some_iff.mp found
    rw [identity]
    exact own n before stored entry (attached before among)
  · exact own n state found entry among

theorem runStep (own : host.AddsOwn) (step : Step) : (host.runStep step).AddsOwn := by
  cases step with
  | createHandle | syncHandle => exact own.congr rfl
  | detachRef id => exact own.congr (CalledBack.detachRef id host).instances
  | willUnmount id =>
      rcases willUnmount_cases id host with ⟨state, found, mounted⟩ | ⟨-, same⟩
      · have left := own.modifyInstance id ({ · with phase := .unmounted, attached := [] })
          (fun _ => rfl) fun _ => List.nil_subset _
        exact left.congr (instances_willUnmount found mounted)
      · rw [Host.runStep, same]
        exact own
  | release id => exact own.modifyInstance id _ (fun _ => rfl) fun _ => List.Subset.refl _
  | instantiate identity payload =>
      intro n state found
      rw [Host.runStep, Host.instantiate, Numbered.get?_put] at found
      split at found
      · obtain rfl := Option.some.inj found
        simp
      · exact own n state found
  | receive id payload => exact own.modifyInstance id _ (fun _ => rfl) fun _ => List.Subset.refl _
  | declare site spine => exact own.congr (instances_declareAll site spine host)

end AddsOwn

theorem windowListenersOf_willUnmount {host : Host} (named : host.Named) (own : host.AddsOwn)
    {id : InstanceId} {context : ContextId} (apart : context.instance? ≠ some id) :
    (host.willUnmount id).windowListenersOf context = host.windowListenersOf context := by
  rcases willUnmount_cases id host with ⟨state, found, mounted⟩ | ⟨-, same⟩
  · have name : state.identity.id = id := named.id_eq found
    have elsewhere : state.identity.context ≠ context := context_ne_of_id (by rwa [name])
    have hooked := CalledBack.runHooks state.identity state.payload.behaviour.onUnmount
      (host.modifyInstance id ({ · with phase := .unmounted, attached := [] }))
    unfold windowListenersOf willUnmount
    simp only [found, mounted, if_true, foldl_removeWindowListener_eq]
    refine (filter_diff_of_not (fun entry among => ?_) _).trans ?_
    · rw [decide_eq_false_iff_not, own id state found entry among]
      exact elsewhere
    · rw [hooked.windowListeners]
      rfl
  · rw [same]

theorem windowListenersOf_congr {host after : Host}
    (same : after.windowListeners = host.windowListeners) (context : ContextId) :
    after.windowListenersOf context = host.windowListenersOf context := by
  rw [windowListenersOf, same, windowListenersOf]

theorem windowListenersOf_runStep {host : Host} (named : host.Named) (own : host.AddsOwn)
    {step : Step} {identity : Instance} (stays : step.unmounted? ≠ some identity.id) :
    (host.runStep step).windowListenersOf identity.context =
      host.windowListenersOf identity.context := by
  cases step with
  | createHandle | syncHandle | release | instantiate | receive =>
      exact windowListenersOf_congr rfl _
  | detachRef id =>
      exact windowListenersOf_congr (CalledBack.detachRef id host).windowListeners _
  | willUnmount id =>
      exact windowListenersOf_willUnmount named own stays.symm
  | declare site spine =>
      obtain ⟨_, _, _, same, -⟩ := declareAll_eq site spine host
      refine windowListenersOf_congr ?_ _
      rw [runStep, same]

theorem windowListenersOf_steps {identity : Instance} (steps : List Step) {host : Host}
    (named : host.Named) (own : host.AddsOwn) (stays : identity.id ∉ Step.unmounts steps) :
    (steps.foldl runStep host).windowListenersOf identity.context =
      host.windowListenersOf identity.context := by
  induction steps generalizing host with
  | nil => rfl
  | cons step rest ih =>
      simp only [Step.unmounts_cons, List.mem_append, Option.mem_toList, not_or] at stays
      rw [List.foldl_cons, ih (named.runStep step) (own.runStep step) stays.2,
        windowListenersOf_runStep named own stays.1]

/-! ## Instances that wait to be mounted -/

theorem get?_didMount_other {host : Host} (named : host.Named) {id n : InstanceId}
    (apart : n ≠ id) :
    (host.didMount id).instances.get? n = host.instances.get? n := by
  cases found : host.instances.get? id with
  | none => simp [didMount, found]
  | some state =>
      have name : state.identity.id = id := named.id_eq found
      have attached (declared : List WindowListener) (host : Host) :
          (declared.foldl (attachListener state.identity) host).instances.get? n =
            host.instances.get? n := by
        induction declared generalizing host with
        | nil => rfl
        | cons first rest ih =>
            rw [List.foldl_cons, ih]
            refine (Numbered.get?_modify _ _ _ _).trans (if_neg ?_)
            rwa [name]
      unfold didMount
      simp only [found]
      split
      · rw [attached, (CalledBack.runHooks _ _ _).instances, instances_registerMounted]
        exact (Numbered.get?_modify _ _ _ _).trans (if_neg apart)
      · rfl

/-- An instance was created with a payload and has not been mounted. -/
def HasCreated (identity : Instance) (payload : Payload) (host : Host) : Prop :=
  ∃ state, host.instances.get? identity.id = some state ∧ state.identity = identity ∧
    state.payload = payload ∧ state.phase = .created

namespace HasCreated

variable {host after : Host} {identity : Instance} {payload : Payload}

theorem congr (waits : host.HasCreated identity payload)
    (same : after.instances.get? identity.id = host.instances.get? identity.id) :
    after.HasCreated identity payload := by
  obtain ⟨state, found, rest⟩ := waits
  exact ⟨state, same.trans found, rest⟩

theorem modifyInstance (waits : host.HasCreated identity payload) (id : InstanceId)
    (change : InstanceState → InstanceState)
    (same : identity.id = id → ∀ state, (change state).identity = state.identity ∧
      (change state).payload = state.payload ∧ (change state).phase = state.phase) :
    (host.modifyInstance id change).HasCreated identity payload := by
  obtain ⟨state, found, isThis, given, created⟩ := waits
  by_cases here : identity.id = id
  · obtain ⟨still, handed, phase⟩ := same here state
    refine ⟨change state, ?_, still.trans isThis, handed.trans given, phase.trans created⟩
    rw [Host.modifyInstance, Numbered.get?_modify, if_pos here, found, Option.map_some]
  · refine ⟨state, ?_, isThis, given, created⟩
    rw [Host.modifyInstance, Numbered.get?_modify, if_neg here, found]

theorem runStep (waits : host.HasCreated identity payload) {step : Step}
    (kept : step.receiver? ≠ some identity.id)
    (old : ∀ other ∈ step.instantiated?, other.id ≠ identity.id) :
    (host.runStep step).HasCreated identity payload := by
  cases step with
  | createHandle | syncHandle => exact waits.congr rfl
  | detachRef id =>
      exact waits.congr (by rw [Host.runStep, (CalledBack.detachRef id host).instances])
  | willUnmount id =>
      rcases willUnmount_cases id host with ⟨state, found, mounted⟩ | ⟨-, same⟩
      · have apart : identity.id ≠ id := by
          rintro rfl
          obtain ⟨other, isFound, -, -, created⟩ := waits
          rw [found, Option.some.injEq] at isFound
          rw [← isFound, mounted] at created
          cases created
        refine waits.congr ?_
        rw [Host.runStep, instances_willUnmount found mounted]
        exact (Numbered.get?_modify _ _ _ _).trans (if_neg apart)
      · rw [Host.runStep, same]
        exact waits
  | release id => exact waits.modifyInstance id _ fun _ _ => ⟨rfl, rfl, rfl⟩
  | instantiate other given =>
      refine waits.congr ((Numbered.get?_put _ _ _ _).trans (if_neg fun same => ?_))
      exact old other rfl same.symm
  | receive id given =>
      refine waits.modifyInstance id _ fun here => absurd ?_ kept
      rw [Step.receiver?, here]
  | declare site spine =>
      exact waits.congr (by rw [Host.runStep, instances_declareAll site spine host])

theorem steps (steps : List Step) (waits : host.HasCreated identity payload)
    (kept : identity.id ∉ Step.receivers steps)
    (old : identity.id ∉ (Step.instantiations steps).map Instance.id) :
    (steps.foldl Host.runStep host).HasCreated identity payload := by
  induction steps generalizing host with
  | nil => exact waits
  | cons step rest ih =>
      simp only [Step.receivers_cons, Step.instantiations_cons, List.map_append, List.mem_append,
        Option.mem_toList, not_or] at kept old
      refine ih (waits.runStep kept.1 fun other created same => ?_) kept.2 old.2
      exact old.1 (List.mem_map.mpr ⟨other, Option.mem_toList.mpr created, same⟩)

theorem of_created {steps : List Step} (created : .instantiate identity payload ∈ steps)
    (once : ((Step.instantiations steps).map Instance.id).count identity.id ≤ 1)
    (kept : identity.id ∉ Step.receivers steps) (host : Host) :
    (steps.foldl Host.runStep host).HasCreated identity payload := by
  obtain ⟨before, after, rfl⟩ := List.append_of_mem created
  simp only [Step.instantiations_append, Step.instantiations_cons, Step.instantiated?,
    Option.toList_some, List.map_append, List.map_cons, List.map_nil, List.count_append,
    List.count_singleton_self] at once
  simp only [Step.receivers_append, Step.receivers_cons, List.mem_append, not_or] at kept
  have later : identity.id ∉ (Step.instantiations after).map Instance.id := by
    apply List.count_eq_zero.mp
    omega
  rw [List.foldl_append, List.foldl_cons]
  refine HasCreated.steps after ⟨⟨identity, payload, [], .created, true⟩, ?_, rfl, rfl, rfl⟩
    kept.2.2
    later
  exact (Numbered.get?_put _ _ _ _).trans (if_pos rfl)

theorem runEffect (waits : host.HasCreated identity payload) (named : host.Named)
    {effect : Effect} (other : effect.mounted? ≠ some identity.id) :
    (host.runEffect effect).HasCreated identity payload := by
  cases effect with
  | attachRef id handle =>
      have called := CalledBack.attachRef id (.host handle) host
      exact waits.congr (by rw [Host.runEffect, called.instances])
  | didMount id =>
      have apart : identity.id ≠ id := fun same => other (congrArg some same.symm)
      exact waits.congr (get?_didMount_other named apart)

theorem effects (effects : List Effect) (waits : host.HasCreated identity payload)
    (named : host.Named) (others : identity.id ∉ Effect.mounts effects) :
    (effects.foldl Host.runEffect host).HasCreated identity payload := by
  induction effects generalizing host with
  | nil => exact waits
  | cons effect rest ih =>
      simp only [Effect.mounts_cons, List.mem_append, Option.mem_toList, not_or] at others
      exact ih (waits.runEffect named others.1) (named.runEffect effect) others.2

end HasCreated

/-- An instance that waits to be mounted has no window listener, and of what is declared at its own
    position its content counts. -/
structure Awaits (identity : Instance) (payload : Payload) (host : Host) : Prop where
  created : host.HasCreated identity payload
  silent : host.windowListenersOf identity.context = []
  root : ∀ declared, host.listener? (identity.listenerOf declared) =
    (payload.content.listenerAt? declared.fid []).map Listener.behaviour

/-- An instance listens to the window as its payload says: its listeners are there in their order,
    and each does what it should. -/
structure Attends (identity : Instance) (payload : Payload) (host : Host) : Prop where
  added : host.windowListenersOf identity.context =
    payload.behaviour.listeners.map fun one => (one.event, identity.listenerOf one)
  does : ∀ declared ∈ payload.behaviour.listeners,
    host.listener? (identity.listenerOf declared) = some (declared.behaviourIn payload.content)

theorem findSome?_listenerOf (identity : Instance) {listeners : List WindowListener}
    (distinct : (listeners.map WindowListener.fid).Nodup) {declared : WindowListener}
    (among : declared ∈ listeners) :
    (listeners.findSome? fun one =>
      if identity.listenerOf one = identity.listenerOf declared then some one.behaviour else none) =
        some declared.behaviour := by
  induction listeners with
  | nil => cases among
  | cons first rest ih =>
      obtain ⟨new, others⟩ := List.nodup_cons.mp distinct
      rw [List.findSome?_cons]
      rcases List.mem_cons.mp among with rfl | later
      · rw [if_pos rfl]
      · have other : identity.listenerOf first ≠ identity.listenerOf declared := by
          intro same
          apply new
          rw [show first.fid = declared.fid from (ListenerId.mk.inj same).2.2]
          exact List.mem_map_of_mem later
        rw [if_neg other]
        exact ih others later

namespace Awaits

variable {host after : Host} {identity : Instance} {payload : Payload}

theorem runEffect (awaits : host.Awaits identity payload) (named : host.Named) {effect : Effect}
    (other : effect.mounted? ≠ some identity.id) :
    (host.runEffect effect).Awaits identity payload := by
  have created := awaits.created.runEffect named other
  cases effect with
  | attachRef id handle =>
      have called := CalledBack.attachRef id (.host handle) host
      exact {
        created := created
        silent := (windowListenersOf_congr called.windowListeners _).trans awaits.silent
        root := fun declared => (called.listener? _).trans (awaits.root declared) }
  | didMount id =>
      obtain ⟨listeners, declared⟩ := didMount_other named identity.context other.symm
      exact {
        created := created
        silent := listeners.trans awaits.silent
        root := fun one => (declared _ rfl).trans (awaits.root one) }

theorem didMount (awaits : host.Awaits identity payload)
    (distinct : (payload.behaviour.listeners.map WindowListener.fid).Nodup) :
    (host.didMount identity.id).Attends identity payload := by
  obtain ⟨state, found, isThis, given, created⟩ := awaits.created
  obtain ⟨added, declared⟩ := didMount_created found created
  rw [isThis, given] at added
  rw [isThis, given] at declared
  constructor
  · have own : (payload.behaviour.listeners.map fun one =>
        (one.event, identity.listenerOf one)).filter
          (fun entry => entry.2.context = identity.context) =
            payload.behaviour.listeners.map fun one => (one.event, identity.listenerOf one) := by
      apply List.filter_eq_self.mpr
      intro entry among
      obtain ⟨one, -, rfl⟩ := List.mem_map.mp among
      exact decide_eq_true rfl
    have silent := awaits.silent
    unfold windowListenersOf at silent ⊢
    rw [added, List.filter_append, silent, List.nil_append, own]
  · intro one among
    rw [declared, awaits.root, findSome?_listenerOf identity distinct among,
      WindowListener.behaviourIn]
    cases payload.content.listenerAt? one.fid [] <;> rfl

end Awaits

namespace Attends

variable {host after : Host} {identity : Instance} {payload : Payload}

theorem congr (attends : host.Attends identity payload)
    (listeners : after.windowListenersOf identity.context = host.windowListenersOf identity.context)
    (declared : ∀ id : ListenerId, id.context = identity.context → ∀ behaviour,
      host.listener? id = some behaviour → after.listener? id = some behaviour) :
    after.Attends identity payload where
  added := listeners.trans attends.added
  does one among := declared _ rfl _ (attends.does one among)

theorem calledBack (attends : host.Attends identity payload) (called : CalledBack host after) :
    after.Attends identity payload :=
  attends.congr (windowListenersOf_congr called.windowListeners _) fun id _ _ stored =>
    (called.listener? id).trans stored

theorem steps (attends : host.Attends identity payload) (named : host.Named) (own : host.AddsOwn)
    {steps : List Step} (stays : identity.id ∉ Step.unmounts steps) :
    (steps.foldl Host.runStep host).Attends identity payload := by
  apply attends.congr (windowListenersOf_steps steps named own stays)
  intro id _ behaviour stored
  rw [listener?_steps, stored, Option.some_or]

theorem runEffect (attends : host.Attends identity payload) (named : host.Named) {effect : Effect}
    (other : effect.mounted? ≠ some identity.id) :
    (host.runEffect effect).Attends identity payload := by
  cases effect with
  | attachRef id handle => exact attends.calledBack (.attachRef id (.host handle) host)
  | didMount id =>
      obtain ⟨listeners, declared⟩ := didMount_other named identity.context other.symm
      exact attends.congr listeners fun id own _ stored => (declared id own).trans stored

theorem effects (attends : host.Attends identity payload) (named : host.Named)
    {effects : List Effect} (kept : identity.id ∉ Effect.mounts effects) :
    (effects.foldl Host.runEffect host).Attends identity payload := by
  induction effects generalizing host with
  | nil => exact attends
  | cons effect rest ih =>
      simp only [Effect.mounts_cons, List.mem_append, Option.mem_toList, not_or] at kept
      exact ih (attends.runEffect named kept.1) (named.runEffect effect) kept.2

theorem of_awaits (awaits : host.Awaits identity payload) (named : host.Named)
    (distinct : (payload.behaviour.listeners.map WindowListener.fid).Nodup)
    {effects : List Effect} (once : (Effect.mounts effects).count identity.id = 1) :
    (effects.foldl Host.runEffect host).Attends identity payload := by
  induction effects generalizing host with
  | nil => simp at once
  | cons effect rest ih =>
      rw [Effect.mounts_cons, List.count_append] at once
      by_cases here : effect.mounted? = some identity.id
      · obtain rfl : effect = .didMount identity.id := by
          cases effect with
          | attachRef => cases here
          | didMount id => rw [Option.some.inj here]
        have later : identity.id ∉ Effect.mounts rest := by
          apply List.count_eq_zero.mp
          simp only [Effect.mounted?, Option.toList_some, List.count_singleton_self] at once
          omega
        exact (awaits.didMount distinct).effects (named.runEffect (.didMount identity.id)) later
      · have absent : effect.mounted?.toList.count identity.id = 0 :=
          List.count_eq_zero.mpr fun among => here (Option.mem_toList.mp among)
        exact ih (awaits.runEffect named here) (named.runEffect effect) (by omega)

end Attends

/-! ## What is declared for an instance when it is created -/

theorem firstIn_declarations_eq_none {steps : List Step} {id : ListenerId} {n : InstanceId}
    (own : id.context.instance? = some n) (absent : n ∉ Step.declarers steps) :
    id.firstIn (Step.declarations steps) = none := by
  apply ListenerId.firstIn_eq_none
  intro pair among same
  exact absent (Step.mem_declarers_of_declared among (by rw [same, own]))

/-- Of what steps declare for an instance that they create its content is all. -/
theorem findSome?_of_created {α : Type} {again : List InstanceId} {steps : List Step}
    (declares : Mounted.DeclaresContents again steps) {identity : Instance} {payload : Payload}
    (created : .instantiate identity payload ∈ steps)
    (once : ((Step.instantiations steps).map Instance.id).count identity.id ≤ 1)
    (kept : identity.id ∉ Step.receivers steps) (notAgain : identity.id ∉ again)
    {said : ContextId × Declaration → Option α}
    (own : ∀ pair, pair.1 ≠ identity.context → said pair = none) :
    (Step.declarations steps).findSome? said =
      (payload.content.declaredAt identity.site).findSome? said := by
  have balance := declares.balance identity.id
  rw [List.count_eq_zero.mpr kept, List.count_eq_zero.mpr notAgain] at balance
  obtain ⟨before, after, rfl⟩ := List.append_of_mem (declares.created identity payload created)
  have here : (Step.declare identity.site payload.content).declarer?.toList = [identity.id] := rfl
  rw [Step.declarers_append, Step.declarers_cons, here, List.count_append, List.count_append,
    List.count_singleton_self] at balance
  have silent {others : List Step} (absent : identity.id ∉ Step.declarers others) :
      (Step.declarations others).findSome? said = none :=
    List.findSome?_eq_none_iff.mpr fun pair among => own pair fun same =>
      absent (Step.mem_declarers_of_declared among (by rw [same]; rfl))
  have split : Step.declarations (before ++ .declare identity.site payload.content :: after) =
      Step.declarations before ++
        (payload.content.declaredAt identity.site ++ Step.declarations after) :=
    List.flatMap_append
  rw [split, List.findSome?_append, List.findSome?_append,
    silent (List.count_eq_zero.mp (by omega)), silent (List.count_eq_zero.mp (by omega)),
    Option.none_or, Option.or_none]

/-- In the contexts of instances that have not been created nothing is declared. -/
def NothingAhead (host : Host) : Prop :=
  ∀ (id : ListenerId) (n : InstanceId), id.context.instance? = some n →
    host.instances.next ≤ n → host.listener? id = none

theorem listener?_effects (effects : List Effect) {host : Host} (named : host.Named)
    {id : ListenerId} {n : InstanceId} (own : id.context.instance? = some n)
    (kept : n ∉ Effect.mounts effects) :
    (effects.foldl runEffect host).listener? id = host.listener? id := by
  induction effects generalizing host with
  | nil => rfl
  | cons effect rest ih =>
      simp only [Effect.mounts_cons, List.mem_append, Option.mem_toList, not_or] at kept
      rw [List.foldl_cons, ih (named.runEffect effect) kept.2]
      cases effect with
      | attachRef other handle =>
          exact (CalledBack.attachRef other (.host handle) host).listener? id
      | didMount other =>
          refine (didMount_other named id.context ?_).2 id rfl
          rw [own]
          exact fun same => kept.1 same.symm

end Host

namespace Turnover

variable {α : Type} {session : SessionId} {host : Host} {before after : List Instance}
  {again : List InstanceId} {outcome : Outcome α} {finish : Supply}

theorem not_received {steps : List Step} {effects : List Effect}
    (turnover : Turnover session host.supply before after steps effects finish)
    (settled : host.Settled before) {n : InstanceId} (new : host.instances.next ≤ n) :
    n ∉ Step.receivers steps := by
  intro received
  obtain ⟨identity, member, rfl, -⟩ := turnover.received n received
  exact Nat.not_lt_of_le new (settled.id_lt member)

theorem listener?_of_created {steps : List Step} {effects : List Effect}
    (turnover : Turnover session host.supply before after steps effects finish)
    (settled : host.Settled before) (declares : Mounted.DeclaresContents again steps)
    (old : ∀ n ∈ again, n < host.instances.next) {identity : Instance} {payload : Payload}
    (created : .instantiate identity payload ∈ steps) {id : ListenerId}
    (own : id.context = identity.context) {segments : List UInt32}
    (place : id.path = identity.path.descend segments) (nothing : host.listener? id = none) :
    (steps.foldl Host.runStep host).listener? id =
      (payload.content.listenerAt? id.fid segments).map Listener.behaviour := by
  have isNew := Step.mem_instantiations.mpr ⟨payload, created⟩
  have new : host.instances.next ≤ identity.id := turnover.le_of_created isNew
  have once := List.nodup_iff_count.mp turnover.nodup_instantiations identity.id
  have content : id.firstIn (Step.declarations steps) =
      id.firstIn (payload.content.declaredAt identity.site) :=
    Host.findSome?_of_created declares created once (turnover.not_received settled new)
      (fun among => Nat.not_lt_of_le new (old _ among)) fun pair elsewhere =>
        id.saidBy_eq_none (own ▸ elsewhere)
  rw [Host.listener?_steps, nothing, Option.none_or, content]
  exact ListenerId.firstIn_declaredAt id identity.site segments payload.content own.symm place

theorem not_created (turnover : Turnover session host.supply before after outcome.steps
    outcome.effects finish) (settled : host.Settled before) {n : InstanceId}
    (ahead : (host.commit outcome).instances.next ≤ n) :
    n ∉ (Step.instantiations outcome.steps).map Instance.id := by
  intro created
  obtain ⟨identity, among, rfl⟩ := List.mem_map.mp created
  have there := (turnover.entered settled among).2.2.2.2
  exact Nat.not_lt_of_le ahead ((turnover.settled_commit settled).id_lt there)

/-- A rendering declares contents for instances only that are there afterwards. -/
theorem not_declared (turnover : Turnover session host.supply before after outcome.steps
    outcome.effects finish) (settled : host.Settled before)
    (declares : Mounted.DeclaresContents again outcome.steps)
    (old : ∀ n ∈ again, n < host.instances.next) {n : InstanceId}
    (ahead : (host.commit outcome).instances.next ≤ n) : n ∉ Step.declarers outcome.steps := by
  have new : host.instances.next ≤ n := Nat.le_trans (Host.next_le_commit host outcome) ahead
  have balance := declares.balance n
  rw [List.count_eq_zero.mpr (turnover.not_created settled ahead),
    List.count_eq_zero.mpr (turnover.not_received settled new),
    List.count_eq_zero.mpr fun among => Nat.not_lt_of_le new (old n among)] at balance
  exact List.count_eq_zero.mp (Nat.le_zero.mp balance)

theorem nothingAhead_commit (turnover : Turnover session host.supply before after outcome.steps
    outcome.effects finish) (settled : host.Settled before)
    (declares : Mounted.DeclaresContents again outcome.steps)
    (old : ∀ n ∈ again, n < host.instances.next) (nothing : host.NothingAhead) :
    (host.commit outcome).NothingAhead := by
  intro id n own ahead
  have new : host.instances.next ≤ n := Nat.le_trans (Host.next_le_commit host outcome) ahead
  have notMounted : n ∉ Effect.mounts outcome.effects := by
    apply List.count_eq_zero.mp
    rw [turnover.mounted n]
    exact List.count_eq_zero.mpr (turnover.not_created settled ahead)
  have notDeclared := turnover.not_declared settled declares old ahead
  rw [Host.commit, Host.listener?_effects outcome.effects
    (Host.Named.steps settled.named outcome.steps) own notMounted, Host.listener?_steps,
    Host.firstIn_declarations_eq_none own notDeclared, Option.or_none]
  exact nothing id n own new

/-- An instance that a rendering creates listens to the window afterwards. -/
theorem attends_of_created (turnover : Turnover session host.supply before after outcome.steps
    outcome.effects finish) (settled : host.Settled before) (listening : host.Listening)
    (declares : Mounted.DeclaresContents again outcome.steps)
    (old : ∀ n ∈ again, n < host.instances.next) (nothing : host.NothingAhead)
    {identity : Instance} {payload : Payload}
    (created : .instantiate identity payload ∈ outcome.steps)
    (distinct : (payload.behaviour.listeners.map WindowListener.fid).Nodup) :
    (host.commit outcome).Attends identity payload := by
  have isNew := Step.mem_instantiations.mpr ⟨payload, created⟩
  have new : host.instances.next ≤ identity.id := turnover.le_of_created isNew
  obtain ⟨once, mounted, stays, -, -⟩ := turnover.entered settled isNew
  have kept := turnover.not_received settled new
  have awaits : (outcome.steps.foldl Host.runStep host).Awaits identity payload := {
    created := Host.HasCreated.of_created created (Nat.le_of_eq once) kept host
    silent := (Host.windowListenersOf_steps outcome.steps settled.named listening.addsOwn
      (List.count_eq_zero.mp stays)).trans
        (listening.windowListenersOf_of_new settled.named settled.bounded new)
    root := fun declared => turnover.listener?_of_created settled declares old created rfl
      (by simp [Instance.listenerOf, Path.descend]) (nothing _ identity.id rfl new) }
  exact .of_awaits awaits (Host.Named.steps settled.named outcome.steps) distinct mounted

/-- An instance that stays listens to the window as before. -/
theorem attends_of_kept (turnover : Turnover session host.supply before after outcome.steps
    outcome.effects finish) (settled : host.Settled before) (listening : host.Listening)
    {identity : Instance} (member : identity ∈ before) (still : identity ∈ after)
    {payload : Payload} (attends : host.Attends identity payload) :
    (host.commit outcome).Attends identity payload := by
  obtain ⟨mounts, unmounts⟩ := turnover.kept settled member still
  have stepped := attends.steps settled.named listening.addsOwn (List.count_eq_zero.mp unmounts)
  exact stepped.effects (Host.Named.steps settled.named outcome.steps)
    (List.count_eq_zero.mp mounts)

end Turnover

end RemoteView
