import RemoteView.Proofs.Host.Declared
import RemoteView.Proofs.Mounted.Attaching

/-! # What is stored under stable keys

A ref that is attached stores its handle under its stable key, and one that is detached clears the
key, as long as their context works. The key is that of the declaration that came first. Nothing
else about a rendering changes what is stored.
-/

namespace RemoteView

namespace Host

/-- What was declared for a ref first. -/
def ref? (id : RefId) (host : Host) : Option RefAttribute :=
  Assoc.get? id.path (host.context id.context).refs

/-- Where a ref stores its handle: in its context, under its stable key. -/
def slot? (id : RefId) (host : Host) : Option (ContextId × String) :=
  ((host.ref? id).bind RefAttribute.key).map (id.context, ·)

/-- What is stored under a key of a context. -/
def stored? (slot : ContextId × String) (host : Host) : Option Value :=
  Assoc.get? slot.2 (host.context slot.1).handles

theorem context_of_slot {host : Host} {id : RefId} {slot : ContextId × String}
    (known : host.slot? id = some slot) : slot.1 = id.context := by
  obtain ⟨key, -, rfl⟩ := Option.map_eq_some_iff.mp known
  rfl

theorem evaluateIn_deref (context : ContextId) (holes : Assoc UInt32 Value) (key : String)
    (host : Host) : (host.evaluateIn context holes (.deref key)).1 =
      (host.stored? (context, key)).getD .absent := rfl

/-! ## Declarations -/

theorem ref?_declare (context : ContextId) (host : Host) (declaration : Declaration) (id : RefId) :
    (host.declare context declaration).ref? id =
      (host.ref? id).or (id.saidBy (context, declaration)) := by
  cases declaration with
  | listener path declared =>
      simp only [declare, ref?, context_modifyContext, RefId.saidBy, Option.or_none]
      split
      · rename_i same
        rw [same]
        rfl
      · rfl
  | ref path declared =>
      simp only [declare, ref?, context_modifyContext, RefId.saidBy]
      by_cases same : id.context = context
      · subst same
        rw [if_pos rfl, RenderContext.ref, Assoc.get?_insertNew]
        by_cases here : id.path = path
        · subst here
          cases Assoc.get? id.path (host.context id.context).refs <;> simp
        · simp [here, Ne.symm here]
      · simp [same, Ne.symm same]
  | rules descriptors => exact (Option.or_none ..).symm
  | component number name => exact (Option.or_none ..).symm

/-- Of what a spine declares for a ref the first counts, unless something was declared before. -/
theorem ref?_declareAll (site : Site) (spine : Spine) (host : Host) (id : RefId) :
    (host.declareAll site spine).ref? id =
      (host.ref? id).or (id.firstIn (spine.declaredAt site)) := by
  unfold declareAll Spine.declaredAt
  induction spine.declarations site.path generalizing host with
  | nil => exact (Option.or_none ..).symm
  | cons declaration rest ih =>
      rw [List.foldl_cons, ih, ref?_declare, List.map_cons, Option.or_assoc]
      congr 1
      simp only [RefId.firstIn, List.findSome?_cons]
      cases id.saidBy (site.context, declaration) <;> rfl

theorem contexts_runHooks (identity : Instance) (hooks : List Expr) (host : Host) :
    (host.runHooks identity hooks).contexts = host.contexts := by
  unfold runHooks
  induction hooks generalizing host with
  | nil => rfl
  | cons hook rest ih => exact ih _

theorem contexts_registerMounted (identity : Instance) (host : Host) :
    (host.registerMounted identity).contexts = host.contexts := by
  obtain ⟨_, same⟩ := registerMounted_eq identity host
  rw [same]

theorem contexts_willUnmount (id : InstanceId) (host : Host) :
    (host.willUnmount id).contexts = host.contexts := by
  rcases willUnmount_cases id host with ⟨state, found, mounted⟩ | ⟨-, same⟩
  · obtain ⟨window, same⟩ := willUnmount_eq found mounted
    rw [same]
    exact contexts_runHooks _ _ _
  · rw [same]

/-- An instance that is mounted declares window listeners, but no refs, and stores nothing. -/
theorem context_didMount (id : InstanceId) (host : Host) (context : ContextId) :
    ((host.didMount id).context context).refs = (host.context context).refs ∧
      ((host.didMount id).context context).handles = (host.context context).handles := by
  have attached (identity : Instance) (declared : List WindowListener) (host : Host) :
      ((declared.foldl (attachListener identity) host).context context).refs =
          (host.context context).refs ∧
        ((declared.foldl (attachListener identity) host).context context).handles =
          (host.context context).handles := by
    induction declared generalizing host with
    | nil => exact ⟨rfl, rfl⟩
    | cons first rest ih =>
        obtain ⟨refs, handles⟩ := ih (attachListener identity host first)
        have here : (attachListener identity host first).context context =
            (host.modifyContext identity.context
              (.listener identity.path first.fid first.behaviour)).context context := rfl
        rw [List.foldl_cons, refs, handles, here, context_modifyContext]
        split
        · rename_i same
          subst same
          exact ⟨rfl, rfl⟩
        · exact ⟨rfl, rfl⟩
  unfold didMount
  cases host.instances.get? id with
  | none => exact ⟨rfl, rfl⟩
  | some state =>
      simp only
      split
      · obtain ⟨refs, handles⟩ := attached state.identity state.payload.behaviour.listeners
          (((host.modifyInstance id ({ · with phase := .mounted })).registerMounted
            state.identity).runHooks state.identity state.payload.behaviour.onMount)
        have entered : (((host.modifyInstance id ({ · with phase := .mounted })).registerMounted
            state.identity).runHooks state.identity state.payload.behaviour.onMount).context
              context = host.context context := by
          rw [Host.context, contexts_runHooks, contexts_registerMounted]
          rfl
        rw [entered] at refs handles
        exact ⟨refs, handles⟩
      · exact ⟨rfl, rfl⟩

theorem ref?_runStep (host : Host) (step : Step) (id : RefId) :
    (host.runStep step).ref? id = (host.ref? id).or (id.firstIn step.declared) := by
  cases step with
  | createHandle | syncHandle | release | instantiate | receive =>
      exact (Option.or_none ..).symm
  | detachRef other =>
      refine Eq.trans ?_ (Option.or_none ..).symm
      rw [ref?, runStep, (CalledBack.detachRef other host).refs, ref?]
  | willUnmount other =>
      refine Eq.trans ?_ (Option.or_none ..).symm
      rw [ref?, runStep, context, contexts_willUnmount]
      rfl
  | declare site spine => exact ref?_declareAll site spine host id

theorem ref?_runEffect (host : Host) (effect : Effect) (id : RefId) :
    (host.runEffect effect).ref? id = host.ref? id := by
  cases effect with
  | attachRef other handle =>
      rw [ref?, runEffect, (CalledBack.attachRef other (.host handle) host).refs, ref?]
  | didMount other => rw [ref?, runEffect, (context_didMount other host id.context).1, ref?]

theorem ref?_steps (steps : List Step) (host : Host) (id : RefId) :
    (steps.foldl runStep host).ref? id =
      (host.ref? id).or (id.firstIn (Step.declarations steps)) := by
  induction steps generalizing host with
  | nil => exact (Option.or_none ..).symm
  | cons step rest ih =>
      rw [List.foldl_cons, ih, ref?_runStep, Step.declarations_cons, RefId.firstIn_append,
        Option.or_assoc]

theorem ref?_effects (effects : List Effect) (host : Host) (id : RefId) :
    (effects.foldl runEffect host).ref? id = host.ref? id := by
  induction effects generalizing host with
  | nil => rfl
  | cons effect rest ih => rw [List.foldl_cons, ih, ref?_runEffect]

/-- What a ref does after a rendering was declared first: before, or by a step. -/
theorem ref?_commit {α : Type} (outcome : Outcome α) (host : Host) (id : RefId) :
    (host.commit outcome).ref? id =
      (host.ref? id).or (id.firstIn (Step.declarations outcome.steps)) := by
  rw [commit, ref?_effects, ref?_steps]

theorem slot?_congr {host after : Host} {id : RefId} (same : after.ref? id = host.ref? id) :
    after.slot? id = host.slot? id := by
  rw [slot?, same, slot?]

theorem slot?_of_declared {host after : Host} {id : RefId} {declared : RefAttribute}
    {more : Option RefAttribute} (found : host.ref? id = some declared)
    (same : after.ref? id = (host.ref? id).or more) : after.slot? id = host.slot? id := by
  refine slot?_congr (same.trans ?_)
  rw [found, Option.some_or]

/-! ## Contexts that work -/

/-- A context that works: that of the root of the open session, or that of an instance that a tree
    holds. -/
inductive Works (host : Host) : ContextId → Prop
  | root {session : SessionId} (live : host.current = some session) : Works host (.root session)
  | inside {standing : Standing} (found : host.standing standing.identity.id = some standing)
      (held : standing.isHeld = true) : Works host standing.identity.context

/-- Steps do not let go of the instance of a context, and do not create it. -/
def Spares (context : ContextId) (steps : List Step) : Prop :=
  ∀ id, context.instance? = some id →
    id ∉ Step.releases steps ∧ id ∉ (Step.instantiations steps).map Instance.id

theorem spares_cons {context : ContextId} {step : Step} {rest : List Step} :
    Spares context (step :: rest) ↔ Spares context [step] ∧ Spares context rest := by
  simp only [Spares, Step.releases_cons, Step.instantiations_cons, Step.releases_nil,
    Step.instantiations_nil, List.append_nil, List.map_append, List.mem_append, not_or]
  constructor
  · intro spares
    exact ⟨fun id inside => ⟨(spares id inside).1.1, (spares id inside).2.1⟩,
      fun id inside => ⟨(spares id inside).1.2, (spares id inside).2.2⟩⟩
  · rintro ⟨here, there⟩ id inside
    exact ⟨⟨(here id inside).1, (there id inside).1⟩, (here id inside).2, (there id inside).2⟩

theorem spares_one {context : ContextId} {step : Step} :
    Spares context [step] ↔ ∀ id, context.instance? = some id →
      step.released? ≠ some id ∧ ∀ identity ∈ step.instantiated?, identity.id ≠ id := by
  simp only [Spares, Step.releases_cons, Step.instantiations_cons, Step.releases_nil,
    Step.instantiations_nil, List.append_nil, Option.mem_toList, List.mem_map, not_exists, not_and,
    Option.mem_def, ne_eq]

namespace Works

variable {host after : Host} {context : ContextId}

theorem isContextAlive (works : host.Works context) : host.isContextAlive context = true := by
  cases works with
  | root live => simp [Host.isContextAlive, isSessionAlive, ContextId.root, live]
  | @inside standing found held =>
      obtain ⟨state, stored, rfl⟩ := Option.map_eq_some_iff.mp found
      replace stored : host.instances.get? state.identity.id = some state := stored
      have inTable : (state.identity.id, state) ∈ host.instances.entries := Assoc.mem_of_get? stored
      have session : host.isSessionAlive state.identity.session = true := by
        rw [isSessionAlive, Bool.or_eq_true, List.any_eq_true]
        refine .inr ⟨_, inTable, ?_⟩
        simpa [InstanceState.standing] using held
      have isHeld : host.isHeld state.identity.id = true := by
        rw [Host.isHeld, stored]
        exact held
      exact Bool.and_eq_true_iff.mpr ⟨session, isHeld⟩

theorem of_map (works : host.Works context) (current : after.current = host.current)
    (move : Standing → Standing) (moved : ∀ id, context.instance? = some id →
      after.standing id = (host.standing id).map move)
    (identity : ∀ was, (move was).identity = was.identity)
    (held : ∀ was, (move was).isHeld = was.isHeld) : after.Works context := by
  cases works with
  | root live => exact .root (current.trans live)
  | @inside standing found isHeld =>
      have there : after.standing (move standing).identity.id = some (move standing) := by
        rw [identity, moved standing.identity.id rfl, found, Option.map_some]
      have still := Works.inside there (by rw [held]; exact isHeld)
      rwa [identity] at still

theorem congr (works : host.Works context) (current : after.current = host.current)
    (instances : after.instances = host.instances) : after.Works context :=
  works.of_map current id (fun _ _ => by rw [standing_congr instances, Option.map_id]; rfl)
    (fun _ => rfl) fun _ => rfl

theorem runStep (works : host.Works context) {step : Step} (spares : Spares context [step]) :
    (host.runStep step).Works context := by
  refine works.of_map (Remembers.runStep host step).current (fun was =>
    if step.unmounted? = context.instance? ∧ context.instance? ≠ none then was.unmount else was)
    (fun id same => ?_) (fun was => ?_) fun was => ?_
  · obtain ⟨held, old⟩ := spares_one.mp spares id same
    rw [standing_runStep host step id old]
    congr 1
    funext was
    simp only [held, same, if_false, ne_eq, reduceCtorEq, not_false_eq_true, and_true]
  · split <;> simp
  · split
    · unfold Standing.unmount
      split <;> rfl
    · rfl

theorem steps (works : host.Works context) {steps : List Step} (spares : Spares context steps) :
    (steps.foldl Host.runStep host).Works context := by
  induction steps generalizing host with
  | nil => exact works
  | cons step rest ih =>
      obtain ⟨here, there⟩ := spares_cons.mp spares
      exact ih (works.runStep here) there

theorem runEffect (works : host.Works context) (effect : Effect) :
    (host.runEffect effect).Works context := by
  refine works.of_map (Remembers.runEffect host effect).current (fun was =>
    if effect.mounted? = context.instance? ∧ context.instance? ≠ none then was.mount else was)
    (fun id same => ?_) (fun was => ?_) fun was => ?_
  · rw [standing_runEffect]
    congr 1
    funext was
    simp only [same, ne_eq, reduceCtorEq, not_false_eq_true, and_true]
  · split <;> simp
  · split
    · unfold Standing.mount
      split <;> rfl
    · rfl

end Works

/-! ## Attaching and detaching -/

/-- No key is stored twice in a context. -/
def StoresOnce (context : ContextId) (host : Host) : Prop :=
  (Assoc.keys (host.context context).handles).Nodup

/-- The handles of a context when a ref whose context works changes what is stored under its key. -/
def rekeyed (id : RefId) (change : String → RefStore → RefStore) (context : ContextId)
    (host : Host) : RefStore :=
  match (host.ref? id).bind RefAttribute.key with
  | some key =>
      if context = id.context ∧ host.isContextAlive id.context = true then
        change key (host.context context).handles
      else (host.context context).handles
  | none => (host.context context).handles

theorem handles_withKey {id : RefId} {declared : RefAttribute}
    {change : String → RefStore → RefStore} {host : Host} (found : host.ref? id = some declared)
    (alive : host.isContextAlive id.context = true) (context : ContextId) :
    ((host.withKey id declared change).context context).handles =
      host.rekeyed id change context := by
  unfold withKey rekeyed
  rw [found, Option.bind_some]
  cases declared.key with
  | none => rfl
  | some key =>
      simp only [context_modifyContext, alive, and_true]
      by_cases same : context = id.context
      · rw [if_pos same, if_pos same, same]
      · rw [if_neg same, if_neg same]

theorem rekeyed_of_not_alive {id : RefId} {change : String → RefStore → RefStore} {host : Host}
    (dead : ¬ host.isContextAlive id.context = true) (context : ContextId) :
    host.rekeyed id change context = (host.context context).handles := by
  unfold rekeyed
  split
  · exact if_neg fun both => dead both.2
  · rfl

theorem context_answerRef (id : RefId) (answer : Value) (host : Host) :
    (host.answerRef id answer).context = host.context := by
  unfold answerRef
  split <;> rfl

theorem handles_attachRef (id : RefId) (value : Value) (host : Host) (context : ContextId) :
    ((host.attachRef id value).context context).handles =
      host.rekeyed id (fun key => Assoc.insert key value) context := by
  unfold attachRef
  cases found : Assoc.get? id.path (host.context id.context).refs with
  | none => simp only [rekeyed, ref?, found, Option.bind_none]
  | some declared =>
      simp only
      split
      · rename_i alive
        rw [context_answerRef]
        exact handles_withKey found alive context
      · rename_i dead
        exact (rekeyed_of_not_alive dead context).symm

theorem handles_detachRef (id : RefId) (host : Host) (context : ContextId) :
    ((host.detachRef id).context context).handles =
      host.rekeyed id (fun key => Assoc.erase key) context := by
  unfold detachRef
  cases found : Assoc.get? id.path (host.context id.context).refs with
  | none => simp only [rekeyed, ref?, found, Option.bind_none]
  | some declared =>
      simp only
      split
      · rename_i alive
        rw [context_answerRef]
        exact handles_withKey found alive context
      · rename_i dead
        exact (rekeyed_of_not_alive dead context).symm

theorem nodup_rekeyed {id : RefId} {change : String → RefStore → RefStore} {host : Host}
    {context : ContextId} (once : host.StoresOnce context)
    (changed : ∀ key (handles : RefStore), (Assoc.keys handles).Nodup →
      (Assoc.keys (change key handles)).Nodup) :
    (Assoc.keys (host.rekeyed id change context)).Nodup := by
  unfold rekeyed
  split
  · split
    · exact changed _ _ once
    · exact once
  · exact once

theorem get?_rekeyed {id : RefId} {change : String → RefStore → RefStore} {host : Host}
    {slot : ContextId × String} (works : slot.1 = id.context → host.Works slot.1)
    (others : ∀ key, key ≠ slot.2 → Assoc.get? slot.2 (change key (host.context slot.1).handles) =
      host.stored? slot) :
    Assoc.get? slot.2 (host.rekeyed id change slot.1) =
      if host.slot? id = some slot then
        Assoc.get? slot.2 (change slot.2 (host.context slot.1).handles)
      else host.stored? slot := by
  unfold rekeyed slot?
  cases (host.ref? id).bind RefAttribute.key with
  | none => rfl
  | some key =>
      obtain ⟨context, name⟩ := slot
      simp only [Option.map_some, Option.some.injEq, Prod.mk.injEq]
      by_cases same : context = id.context
      · subst same
        simp only [(works rfl).isContextAlive, and_true, if_true, true_and]
        by_cases own : key = name
        · rw [own, if_pos rfl]
        · rw [if_neg own]
          exact others key own
      · rw [if_neg fun both => same both.1, if_neg fun both => same both.1.symm]
        rfl

theorem handles_runStep (host : Host) {step : Step} (none : step.detached? = none)
    (context : ContextId) :
    ((host.runStep step).context context).handles = (host.context context).handles := by
  cases step with
  | createHandle | syncHandle | release | instantiate | receive => rfl
  | detachRef other => cases none
  | willUnmount other =>
      rw [runStep, Host.context, contexts_willUnmount]
      rfl
  | declare site spine =>
      rw [runStep, declareAll]
      induction spine.declarations site.path generalizing host with
      | nil => rfl
      | cons declaration rest ih =>
          rw [List.foldl_cons, ih]
          cases declaration with
          | listener | ref =>
              simp only [declare, context_modifyContext]
              split
              · rename_i same
                rw [same]
                rfl
              · rfl
          | rules | component => rfl

theorem storesOnce_runStep {host : Host} {context : ContextId} (once : host.StoresOnce context)
    (step : Step) : (host.runStep step).StoresOnce context := by
  cases detached : step.detached? with
  | none =>
      unfold StoresOnce
      rw [handles_runStep host detached]
      exact once
  | some id =>
      cases step with
      | detachRef other =>
          unfold StoresOnce
          rw [runStep, handles_detachRef]
          refine nodup_rekeyed once fun key handles distinct => ?_
          rw [Assoc.keys_erase]
          exact distinct.erase key
      | createHandle | syncHandle | willUnmount | release | instantiate | receive | declare =>
          cases detached

theorem storesOnce_runEffect {host : Host} {context : ContextId} (once : host.StoresOnce context)
    (effect : Effect) : (host.runEffect effect).StoresOnce context := by
  unfold StoresOnce
  cases effect with
  | attachRef id handle =>
      rw [runEffect, handles_attachRef]
      exact nodup_rekeyed once fun key handles => Assoc.nodup_keys_insert key _
  | didMount id =>
      rw [runEffect, (context_didMount id host context).2]
      exact once

theorem stored?_runStep {host : Host} {slot : ContextId × String} (once : host.StoresOnce slot.1)
    (step : Step) (works : ∀ id, step.detached? = some id → slot.1 = id.context →
      host.Works slot.1) :
    (host.runStep step).stored? slot =
      if step.detached?.bind (host.slot? ·) = some slot then none else host.stored? slot := by
  cases detached : step.detached? with
  | none =>
      rw [stored?, handles_runStep host detached]
      rfl
  | some id =>
      cases step with
      | detachRef other =>
          obtain rfl : other = id := Option.some.inj detached
          rw [stored?, runStep, handles_detachRef,
            get?_rekeyed (works other rfl) fun key apart => ?_]
          · rw [Assoc.get?_erase _ _ once, if_pos rfl]
            rfl
          · rw [Assoc.get?_erase _ _ once, if_neg apart.symm]
            rfl
      | createHandle | syncHandle | willUnmount | release | instantiate | receive | declare =>
          cases detached

theorem stored?_runEffect {host : Host} {slot : ContextId × String} (works : host.Works slot.1)
    (effect : Effect) :
    (host.runEffect effect).stored? slot =
      match effect.attached? with
      | some (id, handle) =>
          if host.slot? id = some slot then some (.host handle) else host.stored? slot
      | none => host.stored? slot := by
  cases effect with
  | attachRef id handle =>
      rw [stored?, runEffect, handles_attachRef, get?_rekeyed (fun _ => works) fun key apart =>
        Assoc.get?_insert_of_ne apart.symm _ _]
      rw [Assoc.get?_insert_self]
      rfl
  | didMount id =>
      rw [stored?, runEffect, (context_didMount id host slot.1).2]
      rfl

/-! ## A whole rendering -/

theorem storesOnce_steps {context : ContextId} (steps : List Step) {host : Host}
    (once : host.StoresOnce context) : (steps.foldl runStep host).StoresOnce context := by
  induction steps generalizing host with
  | nil => exact once
  | cons step rest ih => exact ih (storesOnce_runStep once step)

theorem storesOnce_effects {context : ContextId} (effects : List Effect) {host : Host}
    (once : host.StoresOnce context) : (effects.foldl runEffect host).StoresOnce context := by
  induction effects generalizing host with
  | nil => exact once
  | cons effect rest ih => exact ih (storesOnce_runEffect once effect)

/-- Steps clear what is stored by the refs that they detach. -/
theorem stored?_steps {slot : ContextId × String} {steps : List Step} {host : Host}
    (once : host.StoresOnce slot.1)
    (works : (∀ id ∈ Step.detaches steps, slot.1 ≠ id.context) ∨
      host.Works slot.1 ∧ Spares slot.1 steps)
    (declared : ∀ id ∈ Step.detaches steps, ∃ declared, host.ref? id = some declared) :
    (steps.foldl runStep host).stored? slot =
      if ∃ id ∈ Step.detaches steps, host.slot? id = some slot then none
      else host.stored? slot := by
  induction steps generalizing host with
  | nil => simp
  | cons step rest ih =>
      rw [Step.detaches_cons] at declared works
      have here : ∀ id, step.detached? = some id → slot.1 = id.context → host.Works slot.1 := by
        intro id detached same
        rcases works with apart | ⟨works, -⟩
        · exact absurd same (apart id (List.mem_append_left _ (Option.mem_toList.mpr detached)))
        · exact works
      have still : (∀ id ∈ Step.detaches rest, slot.1 ≠ id.context) ∨
          (host.runStep step).Works slot.1 ∧ Spares slot.1 rest := by
        rcases works with apart | ⟨works, spares⟩
        · exact .inl fun id member => apart id (List.mem_append_right _ member)
        · obtain ⟨one, others⟩ := spares_cons.mp spares
          exact .inr ⟨works.runStep one, others⟩
      have known : ∀ id ∈ Step.detaches rest, ∃ declared,
          (host.runStep step).ref? id = some declared := by
        intro id member
        obtain ⟨first, found⟩ := declared id (List.mem_append_right _ member)
        exact ⟨first, by rw [ref?_runStep, found, Option.some_or]⟩
      have same : ∀ id ∈ Step.detaches rest, (host.runStep step).slot? id = host.slot? id := by
        intro id member
        obtain ⟨first, found⟩ := declared id (List.mem_append_right _ member)
        exact slot?_of_declared found (ref?_runStep host step id)
      rw [List.foldl_cons, ih (storesOnce_runStep once step) still known,
        stored?_runStep once step here, Step.detaches_cons]
      have split : (∃ id ∈ step.detached?.toList ++ Step.detaches rest, host.slot? id = some slot) ↔
          (∃ id ∈ Step.detaches rest, (host.runStep step).slot? id = some slot) ∨
            step.detached?.bind (host.slot? ·) = some slot := by
        simp only [List.mem_append, or_and_right, exists_or, Option.mem_toList,
          Option.bind_eq_some_iff]
        rw [or_comm]
        refine or_congr (exists_congr fun id => and_congr_right fun member => ?_) Iff.rfl
        rw [same id member]
      simp only [split, ite_or]

/-- Effects store the handles of the refs that they attach. -/
theorem stored?_effects {slot : ContextId × String} (effects : List Effect) {host : Host}
    (works : host.Works slot.1) :
    let after := effects.foldl runEffect host
    (∃ one ∈ Effect.attaches effects, host.slot? one.1 = some slot ∧
        after.stored? slot = some (.host one.2)) ∨
      (∀ one ∈ Effect.attaches effects, host.slot? one.1 ≠ some slot) ∧
        after.stored? slot = host.stored? slot := by
  induction effects generalizing host with
  | nil => exact .inr ⟨by simp, rfl⟩
  | cons effect rest ih =>
      have same (id : RefId) : (host.runEffect effect).slot? id = host.slot? id :=
        slot?_congr (ref?_runEffect host effect id)
      have here := stored?_runEffect works effect
      have later := ih (works.runEffect effect)
      simp only [same] at later
      simp only [List.foldl_cons, Effect.attaches_cons]
      rcases later with ⟨one, member, known, stored⟩ | ⟨none, stored⟩
      · exact .inl ⟨one, List.mem_append_right _ member, known, stored⟩
      · rw [stored, here]
        cases attached : effect.attached? with
        | none => exact .inr ⟨by simpa using none, rfl⟩
        | some one =>
            simp only
            split
            · rename_i known
              exact .inl ⟨one, List.mem_append_left _ (List.mem_singleton_self _), known, rfl⟩
            · rename_i other
              refine .inr ⟨fun entry member => ?_, rfl⟩
              rcases List.mem_append.mp member with first | among
              · rw [List.mem_singleton.mp first]
                exact other
              · exact none entry among

theorem handles_commit_of_apart {α : Type} {outcome : Outcome α} {context : ContextId}
    (detached : ∀ id ∈ Step.detaches outcome.steps, context ≠ id.context)
    (attached : ∀ one ∈ Effect.attaches outcome.effects, context ≠ one.1.context) (host : Host) :
    ((host.commit outcome).context context).handles = (host.context context).handles := by
  have apart {id : RefId} {change : String → RefStore → RefStore} {host : Host}
      (other : context ≠ id.context) :
      host.rekeyed id change context = (host.context context).handles := by
    unfold rekeyed
    split
    · exact if_neg fun both => other both.1
    · rfl
  have stepped (steps : List Step) (host : Host)
      (detached : ∀ id ∈ Step.detaches steps, context ≠ id.context) :
      ((steps.foldl runStep host).context context).handles = (host.context context).handles := by
    induction steps generalizing host with
    | nil => rfl
    | cons step rest ih =>
        rw [Step.detaches_cons, List.forall_mem_append] at detached
        rw [List.foldl_cons, ih _ detached.2]
        cases step with
        | detachRef id =>
            rw [runStep, handles_detachRef]
            exact apart (detached.1 id (List.mem_singleton_self _))
        | createHandle | syncHandle | willUnmount | release | instantiate | receive | declare =>
            exact handles_runStep host rfl context
  have effected (effects : List Effect) (host : Host)
      (attached : ∀ one ∈ Effect.attaches effects, context ≠ one.1.context) :
      ((effects.foldl runEffect host).context context).handles =
        (host.context context).handles := by
    induction effects generalizing host with
    | nil => rfl
    | cons effect rest ih =>
        rw [Effect.attaches_cons, List.forall_mem_append] at attached
        rw [List.foldl_cons, ih _ attached.2]
        cases effect with
        | attachRef id handle =>
            rw [runEffect, handles_attachRef]
            exact apart (attached.1 (id, handle) (List.mem_singleton_self _))
        | didMount id => exact (context_didMount id host context).2
  rw [commit, effected _ _ attached, stepped _ _ detached]

/-! ## What the refs of trees have stored -/

/-- What is stored under a key is the handle of the ref that stores there, if there is one. -/
def Holds (refs : List Attachment) (slot : ContextId × String) (host : Host) : Prop :=
  ∀ value, host.stored? slot = some value ↔
    ∃ one ∈ refs, host.slot? one.1 = some slot ∧ value = .host one.2

end Host

theorem eq_of_countP_le_one {α : Type} {list : List α} {P : α → Prop} [DecidablePred P]
    (once : list.countP (fun one => P one) ≤ 1) {one other : α} (here : one ∈ list) (holds : P one)
    (there : other ∈ list) (holdsToo : P other) : one = other := by
  rw [List.countP_eq_length_filter] at once
  have first : one ∈ list.filter fun one => P one := List.mem_filter.mpr ⟨here, by simpa⟩
  have second : other ∈ list.filter fun one => P one := List.mem_filter.mpr ⟨there, by simpa⟩
  match same : list.filter fun one => P one with
  | [] =>
      rw [same] at first
      cases first
  | [single] =>
      rw [same, List.mem_singleton] at first second
      rw [first, second]
  | _ :: _ :: _ =>
      rw [same] at once
      simp at once

namespace RefTurnover

variable {before after gone : List Attachment} {steps : List Step} {effects : List Effect}
  {P : Attachment → Prop}

theorem perm (turnover : RefTurnover before after gone steps effects) :
    (after ++ gone).Perm (before ++ Effect.attaches effects) := by
  refine List.perm_iff_count.mpr fun one => ?_
  rw [List.count_append, List.count_append]
  exact turnover.balance one

theorem mem_iff_of_kept (turnover : RefTurnover before after gone steps effects)
    (left : ∀ one ∈ gone, ¬ P one) (entered : ∀ one ∈ Effect.attaches effects, ¬ P one)
    {one : Attachment} (isThis : P one) : one ∈ before ↔ one ∈ after := by
  have same := turnover.perm.mem_iff (a := one)
  rw [List.mem_append, List.mem_append] at same
  constructor
  · intro member
    exact (same.mpr (.inl member)).resolve_right fun isGone => left one isGone isThis
  · intro member
    exact (same.mp (.inl member)).resolve_right fun isNew => entered one isNew isThis

theorem not_of_left [DecidablePred P] (turnover : RefTurnover before after gone steps effects)
    (once : before.countP (fun one => P one) ≤ 1) {one : Attachment} (isGone : one ∈ gone)
    (isThis : P one) (entered : ∀ one ∈ Effect.attaches effects, ¬ P one) :
    ∀ other ∈ after, ¬ P other := by
  have counts := turnover.perm.countP_eq fun one => P one
  have left : 0 < gone.countP (fun one => P one) :=
    List.countP_pos_iff.mpr ⟨one, isGone, by simpa using isThis⟩
  have new : (Effect.attaches effects).countP (fun one => P one) = 0 :=
    List.countP_eq_zero.mpr fun one isNew => by simpa using entered one isNew
  rw [List.countP_append, List.countP_append, new] at counts
  have nobody : after.countP (fun one => P one) = 0 := by omega
  intro other member
  simpa using List.countP_eq_zero.mp nobody other member

/-- Where at most one ref has a property, before and afterwards, its handle is there afterwards when
    it was there before. -/
theorem holds [DecidablePred P] (turnover : RefTurnover before after gone steps effects)
    (once : before.countP (fun one => P one) ≤ 1)
    (onceAfter : after.countP (fun one => P one) ≤ 1) {old middle new : Option Value}
    (held : ∀ value, old = some value ↔ ∃ one ∈ before, P one ∧ value = .host one.2)
    (left : middle = if ∃ one ∈ gone, P one then none else old)
    (entered : (∃ one ∈ Effect.attaches effects, P one ∧ new = some (.host one.2)) ∨
      (∀ one ∈ Effect.attaches effects, ¬ P one) ∧ new = middle) (value : Value) :
    new = some value ↔ ∃ one ∈ after, P one ∧ value = .host one.2 := by
  rcases entered with ⟨one, member, isThis, rfl⟩ | ⟨none, rfl⟩
  · have there := turnover.attached member
    constructor
    · intro stored
      exact ⟨one, there, isThis, (Option.some.inj stored).symm⟩
    · rintro ⟨other, stays, alsoThis, rfl⟩
      rw [eq_of_countP_le_one onceAfter there isThis stays alsoThis]
  · rw [left]
    split
    · rename_i leaves
      obtain ⟨one, isGone, isThis⟩ := leaves
      have nobody := turnover.not_of_left once isGone isThis none
      constructor
      · intro stored
        cases stored
      · rintro ⟨other, stays, alsoThis, -⟩
        exact absurd alsoThis (nobody other stays)
    · rename_i stay
      rw [held]
      have kept : ∀ one ∈ gone, ¬ P one := fun one isGone isThis => stay ⟨one, isGone, isThis⟩
      constructor
      · rintro ⟨one, member, isThis, rfl⟩
        exact ⟨one, (turnover.mem_iff_of_kept kept none isThis).mp member, isThis, rfl⟩
      · rintro ⟨one, member, isThis, rfl⟩
        exact ⟨one, (turnover.mem_iff_of_kept kept none isThis).mpr member, isThis, rfl⟩

end RefTurnover

namespace Host

/-- After a rendering every slot of a context that works holds the handle of the ref that stores
    there, when it did before. The context worked before, or the rendering makes its instance. -/
theorem Holds.commit {α : Type} {outcome : Outcome α} {before after gone : List Attachment}
    {host : Host} {slot : ContextId × String} (holds : host.Holds before slot)
    (turnover : RefTurnover before after gone outcome.steps outcome.effects)
    (stores : host.StoresOnce slot.1)
    (declared : ∀ one ∈ before, ∃ declared, host.ref? one.1 = some declared)
    (once : before.countP (fun one => host.slot? one.1 = some slot) ≤ 1)
    (onceAfter : after.countP (fun one => (host.commit outcome).slot? one.1 = some slot) ≤ 1)
    (works : (outcome.steps.foldl runStep host).Works slot.1)
    (worked : (∀ one ∈ before, slot.1 ≠ one.1.context) ∨
      host.Works slot.1 ∧ Spares slot.1 outcome.steps) :
    (host.commit outcome).Holds after slot := by
  have same : ∀ one ∈ before, (host.commit outcome).slot? one.1 = host.slot? one.1 := by
    intro one member
    obtain ⟨first, found⟩ := declared one member
    exact slot?_of_declared found (ref?_commit outcome host one.1)
  have detached : ∀ id ∈ Step.detaches outcome.steps, ∃ one ∈ gone, one.1 = id := by
    intro id member
    rw [turnover.detached] at member
    exact List.mem_map.mp member
  have left := @stored?_steps slot outcome.steps host stores
    (worked.imp_left fun apart id member => by
      obtain ⟨one, isGone, rfl⟩ := detached id member
      exact apart one (turnover.left isGone))
    (fun id member => by
      obtain ⟨one, isGone, rfl⟩ := detached id member
      exact declared one (turnover.left isGone))
  have entered := stored?_effects outcome.effects works
  have known (id : RefId) : (outcome.steps.foldl runStep host).slot? id =
      (host.commit outcome).slot? id :=
    (slot?_congr (by rw [Host.commit, ref?_effects])).symm
  simp only [known] at entered
  refine turnover.holds (P := fun one => (host.commit outcome).slot? one.1 = some slot) ?_ onceAfter
    (fun value => (holds value).trans ?_) ?_ entered
  · refine le_of_eq_of_le (List.countP_congr fun one member => ?_) once
    rw [same one member]
  · refine exists_congr fun one => and_congr_right fun member => ?_
    rw [same one member]
  · have leaves : (∃ id ∈ Step.detaches outcome.steps, host.slot? id = some slot) ↔
        ∃ one ∈ gone, (host.commit outcome).slot? one.1 = some slot := by
      simp only [turnover.detached, List.mem_map, exists_exists_and_eq_and]
      refine exists_congr fun one => and_congr_right fun member => ?_
      rw [same one (turnover.left member)]
    simp only [left, leaves]

end Host

end RemoteView
