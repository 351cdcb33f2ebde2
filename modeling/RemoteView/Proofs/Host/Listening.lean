import Mathlib.Data.List.Perm.Basic
import RemoteView.Proofs.Host.Declared
import RemoteView.Proofs.Host.Settled

/-! # Who listens to the window

The window listeners are those that instances have added, each as often as it was added. An instance
has some only while it is mounted, and they are at its own path. So a host whose instances are all
unmounted has no window listener.
-/

namespace RemoteView

namespace Assoc

variable {κ α : Type} [DecidableEq κ]

theorem perm_erase {key : κ} {value : α} {entries : Assoc κ α}
    (found : get? key entries = some value) : entries.Perm ((key, value) :: erase key entries) := by
  induction entries with
  | nil => simp at found
  | cons entry rest ih =>
      obtain ⟨first, inner⟩ := entry
      by_cases same : first = key
      · subst same
        obtain rfl : inner = value := by simpa [get?] using found
        simp [erase]
      · rw [erase, if_neg same]
        exact ((ih (by simpa [get?, same] using found)).cons _).trans (.swap ..)

theorem perm_insert {key : κ} {old : α} {entries : Assoc κ α}
    (found : get? key entries = some old) (value : α) :
    (insert key value entries).Perm ((key, value) :: erase key entries) := by
  induction entries with
  | nil => simp at found
  | cons entry rest ih =>
      obtain ⟨first, inner⟩ := entry
      by_cases same : first = key
      · subst same
        simp [insert, erase]
      · rw [insert, erase, if_neg same, if_neg same]
        exact ((ih (by simpa [get?, same] using found)).cons _).trans (.swap ..)

theorem insert_of_absent {key : κ} {entries : Assoc κ α} (absent : get? key entries = none)
    (value : α) : insert key value entries = entries ++ [(key, value)] := by
  induction entries with
  | nil => rfl
  | cons entry rest ih =>
      obtain ⟨first, inner⟩ := entry
      have other : first ≠ key := by
        rintro rfl
        simp [get?] at absent
      rw [insert, if_neg other, ih (by simpa [get?, other] using absent), List.cons_append]

theorem get?_of_mem {key : κ} {value : α} {entries : Assoc κ α} (distinct : (keys entries).Nodup)
    (member : (key, value) ∈ entries) : get? key entries = some value := by
  induction entries with
  | nil => simp at member
  | cons entry rest ih =>
      obtain ⟨first, inner⟩ := entry
      rw [keys_cons, List.nodup_cons] at distinct
      rcases List.mem_cons.mp member with here | there
      · obtain ⟨rfl, rfl⟩ := Prod.mk.inj here
        simp [get?]
      · have other : first ≠ key := by
          rintro rfl
          exact distinct.1 (List.mem_map.mpr ⟨_, there, rfl⟩)
        rw [get?, if_neg other]
        exact ih distinct.2 there

end Assoc

namespace Numbered

variable {α : Type}

theorem nodup_put {store : Numbered α} (distinct : (Assoc.keys store.entries).Nodup) (number : Nat)
    (entry : α) : (Assoc.keys (store.put number entry).entries).Nodup :=
  Assoc.nodup_keys_insert number entry distinct

theorem perm_modify {store : Numbered α} {number : Nat} {entry : α}
    (found : store.get? number = some entry) (change : α → α) :
    ∃ others, store.entries.Perm ((number, entry) :: others) ∧
      (store.modify number change).entries.Perm ((number, change entry) :: others) := by
  refine ⟨_, Assoc.perm_erase found, ?_⟩
  rw [modify, found]
  exact Assoc.perm_insert found (change entry)

theorem next_le_modify (store : Numbered α) (number : Nat) (change : α → α) :
    store.next ≤ (store.modify number change).next := by
  unfold modify
  cases store.get? number with
  | none => exact Nat.le_refl _
  | some entry => exact Nat.le_max_left _ _

end Numbered

namespace Host

/-- The window listeners that instances have added. -/
def attached (host : Host) : List (String × ListenerId) :=
  host.instances.entries.flatMap fun entry => entry.2.attached

/-- Does a listener of a context send the events themselves? -/
def Forwards (host : Host) (id : ListenerId) : Prop :=
  Assoc.get? (id.path, id.fid) (host.context id.context).listeners = some .forward

/-- The listeners of the window are those that the mounted instances have added, each at the path of
    its own instance. What sends the events themselves was added by an instance, too. -/
structure Listening (host : Host) : Prop where
  distinct : (Assoc.keys host.instances.entries).Nodup
  balanced : host.windowListeners.Perm host.attached
  idle : ∀ id state, host.instances.get? id = some state → state.phase ≠ .mounted →
    state.attached = []
  own : ∀ id state, host.instances.get? id = some state → ∀ entry ∈ state.attached,
    entry.2.context = state.identity.context ∧ entry.2.path = state.identity.path
  forwards : ∀ id, host.Forwards id → ∃ n state, host.instances.get? n = some state ∧
    state.identity.context = id.context ∧ state.identity.path = id.path

theorem perm_attached {host : Host} {id : InstanceId} {state : InstanceState}
    (found : host.instances.get? id = some state) (change : InstanceState → InstanceState) :
    ∃ others, host.attached.Perm (state.attached ++ others) ∧
      (host.modifyInstance id change).attached.Perm ((change state).attached ++ others) := by
  obtain ⟨others, before, after⟩ := Numbered.perm_modify found change
  refine ⟨others.flatMap fun entry => entry.2.attached, ?_, ?_⟩
  · exact before.flatMap_right _
  · exact after.flatMap_right _

theorem diff_append_left {α : Type} [BEq α] [LawfulBEq α] (left right : List α) :
    (left ++ right).diff left = right := by
  induction left with
  | nil => simp
  | cons first rest ih => rw [List.cons_append, List.diff_cons, List.erase_cons_head, ih]

theorem foldl_removeWindowListener_eq (listeners : List (String × ListenerId)) (host : Host) :
    listeners.foldl (fun host (event, listener) => host.removeWindowListener event listener) host =
      { host with windowListeners := host.windowListeners.diff listeners } := by
  induction listeners generalizing host with
  | nil => rfl
  | cons first rest ih =>
      rw [List.foldl_cons, ih, List.diff_cons]
      rfl

theorem windowListeners_registerMounted (identity : Instance) (host : Host) :
    (host.registerMounted identity).windowListeners = host.windowListeners := by
  obtain ⟨_, same⟩ := registerMounted_eq identity host
  rw [same]

/-- Declarations concern contexts, style rules and sessions only, and take no session back. -/
theorem declareAll_eq (site : Site) (spine : Spine) (host : Host) :
    ∃ contexts styles sessions, host.declareAll site spine =
        { host with contexts := contexts, styles := styles, sessions := sessions } ∧
      host.sessions.next ≤ sessions.next := by
  unfold declareAll
  induction spine.declarations site.path generalizing host with
  | nil => exact ⟨host.contexts, host.styles, host.sessions, rfl, Nat.le_refl _⟩
  | cons declaration rest ih =>
      obtain ⟨contexts, styles, sessions, same, grown⟩ := ih (host.declare site.context declaration)
      refine ⟨contexts, styles, sessions, ?_, Nat.le_trans ?_ grown⟩
      · rw [List.foldl_cons, same]
        cases declaration <;> rfl
      · cases declaration with
        | listener | ref | rules => exact Nat.le_refl _
        | component id name => exact Numbered.next_le_modify _ _ _

theorem forwards_modifyContext {context : ContextId} {change : RenderContext → RenderContext}
    {host : Host} {id : ListenerId} (forwards : (host.modifyContext context change).Forwards id)
    (same : id.context = context → ∀ stored : RenderContext,
      Assoc.get? (id.path, id.fid) (change stored).listeners = some .forward →
        Assoc.get? (id.path, id.fid) stored.listeners = some .forward) : host.Forwards id := by
  unfold Forwards at forwards ⊢
  rw [context_modifyContext] at forwards
  split at forwards
  · rename_i here
    rw [here]
    exact same here _ forwards
  · exact forwards

theorem forwards_declare {context : ContextId} {host : Host} {declaration : Declaration}
    {id : ListenerId} (forwards : (host.declare context declaration).Forwards id) :
    host.Forwards id := by
  cases declaration with
  | listener path declared =>
      refine forwards_modifyContext forwards fun _ stored found => ?_
      rw [RenderContext.listener, Assoc.get?_insertNew] at found
      split at found
      · rename_i same
        rw [same]
        cases declaredBefore : Assoc.get? (path, declared.fid) stored.listeners with
        | none => simp [declaredBefore] at found
        | some behaviour => simpa [declaredBefore] using found
      · exact found
  | ref path declared => exact forwards_modifyContext forwards fun _ _ found => found
  | rules descriptors => exact forwards
  | component id name => exact forwards

theorem forwards_declareAll {site : Site} {spine : Spine} {host : Host} {id : ListenerId}
    (forwards : (host.declareAll site spine).Forwards id) : host.Forwards id := by
  unfold declareAll at forwards
  generalize spine.declarations site.path = declarations at forwards
  induction declarations generalizing host with
  | nil => exact forwards
  | cons declaration rest ih => exact forwards_declare (ih forwards)

theorem forwards_registerMounted {identity : Instance} {host : Host} {id : ListenerId}
    (forwards : (host.registerMounted identity).Forwards id) : host.Forwards id := by
  unfold registerMounted at forwards
  simp only at forwards
  split at forwards
  · split at forwards <;> exact forwards
  · exact forwards

theorem CalledBack.forwards {before after : Host} (called : CalledBack before after)
    {id : ListenerId} (forwards : after.Forwards id) : before.Forwards id := by
  unfold Forwards at forwards ⊢
  rwa [called.listeners] at forwards

namespace Listening

variable {host after : Host}

theorem empty : Listening .empty where
  distinct := List.nodup_nil
  balanced := .nil
  idle id state found := by simp [Host.empty, Numbered.get?, Numbered.empty] at found
  own id state found := by simp [Host.empty, Numbered.get?, Numbered.empty] at found
  forwards id forwards := by
    simp [Forwards, Host.empty, Host.context, RenderContext.empty] at forwards

theorem congr (listening : Listening host) (instances : after.instances = host.instances)
    (windowListeners : after.windowListeners = host.windowListeners)
    (forwards : ∀ id, after.Forwards id → host.Forwards id) : Listening after where
  distinct := by
    rw [instances]
    exact listening.distinct
  balanced := by
    rw [windowListeners, attached, instances]
    exact listening.balanced
  idle id state found := by
    rw [instances] at found
    exact listening.idle id state found
  own id state found := by
    rw [instances] at found
    exact listening.own id state found
  forwards id isForward := by
    rw [instances]
    exact listening.forwards id (forwards id isForward)

theorem calledBack (listening : Listening host) (called : CalledBack host after) :
    Listening after :=
  listening.congr called.instances called.windowListeners fun _ => called.forwards

theorem distinct_modify (listening : Listening host) (id : InstanceId)
    (change : InstanceState → InstanceState) :
    (Assoc.keys (host.modifyInstance id change).instances.entries).Nodup :=
  written_modify (P := fun store => (Assoc.keys store.entries).Nodup)
    (fun _ number entry distinct => Numbered.nodup_put distinct number entry) listening.distinct id
    change

/-- An instance changes, and with it the window listeners: what it had added is taken away, and what
    it has now is added. -/
theorem modify (listening : Listening host) {id : InstanceId} {state : InstanceState}
    (found : host.instances.get? id = some state) (change : InstanceState → InstanceState)
    (identity : (change state).identity = state.identity)
    (idle : (change state).phase ≠ .mounted → (change state).attached = [])
    (own : ∀ entry ∈ (change state).attached,
      entry.2.context = state.identity.context ∧ entry.2.path = state.identity.path)
    (instances : after.instances = (host.modifyInstance id change).instances)
    (forwards : ∀ other, after.Forwards other → host.Forwards other ∨
      other.context = state.identity.context ∧ other.path = state.identity.path)
    (balanced : ∀ others, host.windowListeners.Perm (state.attached ++ others) →
      after.windowListeners.Perm ((change state).attached ++ others)) : Listening after where
  distinct := by
    rw [instances]
    exact listening.distinct_modify id change
  balanced := by
    obtain ⟨others, before, changed⟩ := perm_attached found change
    rw [attached, instances]
    exact (balanced others (listening.balanced.trans before)).trans changed.symm
  idle n entry isFound phase := by
    rw [instances, modifyInstance, Numbered.get?_modify] at isFound
    split at isFound
    · rename_i same
      obtain rfl : change state = entry := by simpa [same, found] using isFound
      exact idle phase
    · exact listening.idle n entry isFound phase
  own n entry isFound := by
    rw [instances, modifyInstance, Numbered.get?_modify] at isFound
    split at isFound
    · rename_i same
      obtain rfl : change state = entry := by simpa [same, found] using isFound
      rw [identity]
      exact own
    · exact listening.own n entry isFound
  forwards other isForward := by
    have changed : after.instances.get? id = some (change state) := by
      rw [instances, modifyInstance, Numbered.get?_modify, if_pos rfl, found, Option.map_some]
    rcases forwards other isForward with old | ⟨context, path⟩
    · obtain ⟨n, entry, isFound, context, path⟩ := listening.forwards other old
      by_cases same : n = id
      · obtain rfl : state = entry := by
          rw [same, found] at isFound
          exact Option.some.inj isFound
        exact ⟨id, change state, changed, by rw [identity, context], by rw [identity, path]⟩
      · refine ⟨n, entry, ?_, context, path⟩
        rw [instances, modifyInstance, Numbered.get?_modify, if_neg same]
        exact isFound
    · exact ⟨id, change state, changed, by rw [identity, context], by rw [identity, path]⟩

theorem modifyInstance (listening : Listening host) (id : InstanceId)
    (change : InstanceState → InstanceState)
    (identity : ∀ state, (change state).identity = state.identity)
    (phase : ∀ state, (change state).phase ≠ .mounted → state.phase ≠ .mounted)
    (same : ∀ state, (change state).attached = state.attached) :
    Listening (host.modifyInstance id change) := by
  cases found : host.instances.get? id with
  | none =>
      have still : host.instances.modify id change = host.instances := by
        rw [Numbered.modify, found]
      exact listening.congr still rfl fun _ forwards => forwards
  | some state =>
      refine listening.modify found change (identity state) (fun ended => ?_) ?_ rfl
        (fun _ => .inl) fun others => ?_
      · rw [same]
        exact listening.idle id state found (phase state ended)
      · rw [same]
        exact listening.own id state found
      · rw [same]
        exact fun before => before

theorem instantiate (listening : Listening host) {identity : Instance} (payload : Payload)
    (new : host.instances.get? identity.id = none) :
    Listening (host.instantiate identity payload) where
  distinct := Numbered.nodup_put listening.distinct _ _
  balanced := by
    have entries : (host.instantiate identity payload).attached = host.attached := by
      simp [attached, Host.instantiate, Numbered.put, Assoc.insert_of_absent new]
    rw [entries]
    exact listening.balanced
  idle id state found phase := by
    rw [Host.instantiate, Numbered.get?_put] at found
    split at found
    · obtain rfl := Option.some.inj found
      rfl
    · exact listening.idle id state found phase
  own id state found := by
    rw [Host.instantiate, Numbered.get?_put] at found
    split at found
    · obtain rfl := Option.some.inj found
      simp
    · exact listening.own id state found
  forwards id isForward := by
    obtain ⟨n, state, found, same⟩ := listening.forwards id isForward
    refine ⟨n, state, ?_, same⟩
    rw [Host.instantiate, Numbered.get?_put, if_neg]
    · exact found
    · rintro rfl
      rw [new] at found
      cases found

theorem attachListener (listening : Listening host) {state : InstanceState}
    (found : host.instances.get? state.identity.id = some state) (mounted : state.phase = .mounted)
    (declared : WindowListener) : Listening (host.attachListener state.identity declared) := by
  refine listening.modify found
    (fun state => { state with attached := state.attached ++
      [(declared.event, ⟨state.identity.context, state.identity.path, declared.fid⟩)] }) rfl
    (fun ended => absurd mounted ended) (fun entry member => ?_) ?_ (fun other isForward => ?_)
    fun others before => ?_
  · rcases List.mem_append.mp member with old | new
    · exact listening.own _ state found entry old
    · rw [List.mem_singleton.mp new]
      exact ⟨rfl, rfl⟩
  · simp [Host.attachListener, Host.modifyInstance, Host.modifyContext, Host.addWindowListener,
      Numbered.modify, found]
  · by_cases own : other.context = state.identity.context ∧ other.path = state.identity.path
    · exact .inr own
    · refine .inl (forwards_modifyContext (show (host.modifyContext state.identity.context
        (.listener state.identity.path declared.fid declared.behaviour)).Forwards other from isForward)
          fun same stored found => ?_)
      rw [RenderContext.listener, Assoc.get?_insertNew, if_neg] at found
      · exact found
      · rintro here
        exact own ⟨same, (Prod.mk.inj here).1⟩
  · have added := before.append_right
      [(declared.event, (⟨state.identity.context, state.identity.path, declared.fid⟩ : ListenerId))]
    refine added.trans ?_
    rw [List.append_assoc, List.append_assoc]
    exact List.perm_append_comm.append_left _

theorem attachListeners (listening : Listening host) {identity : Instance} {state : InstanceState}
    (found : host.instances.get? identity.id = some state) (own : state.identity = identity)
    (mounted : state.phase = .mounted) (declared : List WindowListener) :
    Listening (declared.foldl (Host.attachListener identity) host) := by
  induction declared generalizing host state with
  | nil => exact listening
  | cons first rest ih =>
      subst own
      have stored : (host.attachListener state.identity first).instances.get? state.identity.id =
          some { state with attached := state.attached ++
            [(first.event, ⟨state.identity.context, state.identity.path, first.fid⟩)] } := by
        simp [Host.attachListener, Host.modifyInstance, Host.modifyContext, Host.addWindowListener,
          Numbered.get?_modify, found]
      exact ih (listening.attachListener found mounted first) stored rfl mounted

theorem didMount (listening : Listening host) (named : host.Named) (id : InstanceId) :
    Listening (host.didMount id) := by
  unfold Host.didMount
  cases found : host.instances.get? id with
  | none => exact listening
  | some state =>
      simp only
      split
      · obtain rfl : state.identity.id = id := named.id_eq found
        have entered : Listening (host.modifyInstance state.identity.id
            ({ · with phase := .mounted })) :=
          listening.modifyInstance _ _ (fun _ => rfl) (fun _ ended => absurd rfl ended) fun _ => rfl
        have registered := entered.congr (instances_registerMounted state.identity _)
          (windowListeners_registerMounted state.identity _) fun _ => forwards_registerMounted
        have hooked := CalledBack.runHooks state.identity state.payload.behaviour.onMount
          (Host.registerMounted state.identity
            (host.modifyInstance state.identity.id ({ · with phase := .mounted })))
        have stored : (Host.runHooks state.identity state.payload.behaviour.onMount
            (Host.registerMounted state.identity (host.modifyInstance state.identity.id
              ({ · with phase := .mounted })))).instances.get? state.identity.id =
                some { state with phase := .mounted } := by
          rw [hooked.instances, instances_registerMounted]
          simp [Host.modifyInstance, Numbered.get?_modify, found]
        exact (registered.calledBack hooked).attachListeners stored rfl rfl _
      · exact listening

theorem willUnmount (listening : Listening host) (id : InstanceId) :
    Listening (host.willUnmount id) := by
  rcases willUnmount_cases id host with ⟨state, found, mounted⟩ | ⟨-, same⟩
  · have hooked := CalledBack.runHooks state.identity state.payload.behaviour.onUnmount
      (host.modifyInstance id ({ · with phase := .unmounted, attached := [] }))
    unfold Host.willUnmount
    simp only [found, mounted, if_true, foldl_removeWindowListener_eq]
    refine listening.modify found ({ · with phase := .unmounted, attached := [] }) rfl
      (fun _ => rfl) (by simp) hooked.instances (fun _ forwards => .inl (hooked.forwards forwards))
        fun others before => ?_
    -- What the instance had added is taken away again, and the others stay.
    show (List.diff _ _).Perm _
    rw [hooked.windowListeners, List.nil_append]
    have removed := before.diff_right state.attached
    rwa [diff_append_left] at removed
  · rw [same]
    exact listening

theorem runStep (listening : Listening host) (step : Step)
    (new : ∀ identity ∈ step.instantiated?, host.instances.get? identity.id = none) :
    Listening (host.runStep step) := by
  cases step with
  | createHandle | syncHandle => exact listening.congr rfl rfl fun _ => id
  | detachRef id => exact listening.calledBack (.detachRef id host)
  | willUnmount id => exact listening.willUnmount id
  | release id =>
      exact listening.modifyInstance id _ (fun _ => rfl) (fun _ ended => ended) fun _ => rfl
  | instantiate identity payload => exact listening.instantiate payload (new identity rfl)
  | receive id payload =>
      exact listening.modifyInstance id _ (fun _ => rfl) (fun _ ended => ended) fun _ => rfl
  | declare site spine =>
      refine listening.congr (instances_declareAll site spine host) ?_ fun _ => forwards_declareAll
      obtain ⟨contexts, styles, sessions, same, -⟩ := declareAll_eq site spine host
      rw [Host.runStep, same]

theorem runEffect (listening : Listening host) (named : host.Named) (effect : Effect) :
    Listening (host.runEffect effect) := by
  cases effect with
  | attachRef id handle => exact listening.calledBack (.attachRef id (.host handle) host)
  | didMount id => exact listening.didMount named id

theorem steps (steps : List Step) (listening : Listening host)
    (new : ∀ identity ∈ Step.instantiations steps, host.standing identity.id = none)
    (once : ((Step.instantiations steps).map Instance.id).Nodup) :
    Listening (steps.foldl Host.runStep host) :=
  steps_of_new (fun _ step listening new => listening.runStep step new) listening new once

theorem effects (effects : List Effect) (listening : Listening host) (named : host.Named) :
    Listening (effects.foldl Host.runEffect host) := by
  induction effects generalizing host with
  | nil => exact listening
  | cons effect rest ih => exact ih (listening.runEffect named effect) (named.runEffect effect)

end Listening

theorem Named.steps {host : Host} (named : host.Named) (steps : List Step) :
    (steps.foldl Host.runStep host).Named := by
  induction steps generalizing host with
  | nil => exact named
  | cons step rest ih => exact ih (named.runStep step)

end Host

/-- A rendering takes the window listeners along. -/
theorem Turnover.listening_commit {α : Type} {session : SessionId} {host : Host}
    {before after : List Instance} {outcome : Outcome α} {finish : Supply}
    (turnover : Turnover session host.supply before after outcome.steps outcome.effects finish)
    (settled : host.Settled before) (listening : host.Listening) :
    (host.commit outcome).Listening := by
  have stepped := listening.steps outcome.steps
    (fun _ => turnover.standing_of_created settled) turnover.nodup_instantiations
  exact stepped.effects outcome.effects (Host.Named.steps settled.named outcome.steps)

end RemoteView
