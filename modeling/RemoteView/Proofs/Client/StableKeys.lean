import Mathlib
import RemoteView.Proofs.Client.Fidelity
import RemoteView.Proofs.Host.Stored
import RemoteView.Spine.Encode

/-! # Stable keys

What is declared for a ref first is what counts, its stable key included. As long as no two refs of
the trees store under the same key of a context, every key stands for the handle of the element
whose ref stores under it, however the trees change.
-/

namespace RemoteView

/-- Has the session or the instance of a context been there? -/
def Host.HasOpened (host : Host) (context : ContextId) : Prop :=
  match context.instance? with
  | none => context.session < host.sessions.next
  | some id => id < host.instances.next

/-- What a call declares at the root of its session. -/
def RenderCall.declaredAtRoot : RenderCall → List (ContextId × Declaration)
  | .body session spine => spine.declaredAt (.root session)
  | .head session spines => spines.flatMap (Spine.declaredAt (.root session))
  | .update _ | .loading => []

namespace Client

/-- What a call declares, in order: what is rendered at the root, then what is in components. -/
def declarations (call : RenderCall) (client : Client) : List (ContextId × Declaration) :=
  call.declaredAtRoot ++ Step.declarations (Deed.steps (client.deeds call))

/-- What is declared when something happens. -/
def declaredBy (action : Action) (client : Client) : List (ContextId × Declaration) :=
  match client.call? action with
  | some (ready, call) => ready.declarations call
  | none => []

/-- The contexts that a client has: that of the root of the open session, and those of the instances
    in the trees. -/
inductive HasContext (client : Client) : ContextId → Prop
  | root {session : SessionId} (live : client.host.current = some session) :
      HasContext client (.root session)
  | inside {identity : Instance} (member : identity ∈ client.instances) :
      HasContext client identity.context

/-- No two refs of the trees store under the same key of a context. -/
def KeysApart (client : Client) : Prop :=
  (client.refs.filterMap fun one => client.host.slot? one.1).Nodup

instance (client : Client) : Decidable client.KeysApart :=
  inferInstanceAs (Decidable (List.Nodup _))

/-- Clients that can be reached with keys apart all the time. -/
inductive Tidy : Client → Prop
  | new (location : String) (policy : ReconnectPolicy) : Tidy (Client.new location policy)
  | perform {client : Client} (tidy : Tidy client) (action : Action)
      (apart : (client.perform action).KeysApart) : Tidy (client.perform action)

/-- What is true of refs and of what they store. -/
structure RefsAreStored (client : Client) : Prop where
  /-- What is declared for a ref first counts from then on. -/
  first : ∀ action id, (client.perform action).host.ref? id =
    (client.host.ref? id).or (id.firstIn (client.declaredBy action))
  /-- Something has been declared for every ref in the trees. -/
  declared : ∀ one ∈ client.refs, ∃ declared, client.host.ref? one.1 = some declared
  /-- A key stands for a handle exactly when the element with the handle has a ref that stores under
      the key. -/
  stored : ∀ context, client.HasContext context → ∀ key value,
    client.host.stored? (context, key) = some value ↔ ∃ one ∈ client.refs,
      client.host.slot? one.1 = some (context, key) ∧ value = .host one.2
  /-- So the key reaches the element. -/
  reached : ∀ context, client.HasContext context → ∀ one ∈ client.refs, ∀ key,
    client.host.slot? one.1 = some (context, key) → ∀ holes,
      (client.host.evaluateIn context holes (.deref key)).1 = .host one.2

/-! ## What was declared first -/

theorem ref?_prepared (call : RenderCall) (client : Client) (id : RefId) :
    (client.prepared call).ref? id = (client.host.ref? id).or (id.firstIn call.declaredAtRoot) := by
  have idle : client.host.ref? id = (client.host.ref? id).or (id.firstIn []) :=
    (Option.or_none ..).symm
  cases call with
  | body session spine => exact Host.ref?_declareAll (.root session) spine client.host id
  | head session spines =>
      have each (spines : List Spine) (host : Host) :
          (spines.foldl (fun host spine => host.declareAll (.root session) spine) host).ref? id =
            (host.ref? id).or
              (id.firstIn (spines.flatMap (Spine.declaredAt (.root session)))) := by
        induction spines generalizing host with
        | nil => exact (Option.or_none ..).symm
        | cons spine rest ih =>
            rw [List.foldl_cons, ih, Host.ref?_declareAll, List.flatMap_cons, RefId.firstIn_append,
              Option.or_assoc]
      exact each spines client.host
  | update number =>
      refine Eq.trans ?_ idle
      simp only [prepared]
      split
      · split <;> rfl
      · rfl
  | loading => exact idle

theorem ref?_render (call : RenderCall) (client : Client) (id : RefId) :
    (client.render call).host.ref? id =
      (client.host.ref? id).or (id.firstIn (client.declarations call)) := by
  rw [host_render_eq_commit call client client.host.supply, Host.ref?_commit, ref?_prepared,
    declarations, RefId.firstIn_append, Option.or_assoc]

/-- What a call attaches has been declared, and at the root it belongs to the open session. -/
theorem attaches_render {client : Client} {call : RenderCall} (live : call.IsLive client) :
    ∀ one ∈ Effect.attaches (Deed.effects (client.deeds call)),
      one.1.IsDeclaredIn (client.declarations call) ∧ (one.1.context.instance? = none →
        client.host.current = some one.1.context.session) := by
  have of_attaches {C : ContextId} {declarations : List (ContextId × Declaration)}
      {effects : List Effect} (attaches : Mounted.Attaches C declarations effects)
      (here : C.instance? = none → client.host.current = some C.session) :
      ∀ one ∈ Effect.attaches effects, one.1.IsDeclaredIn declarations ∧
        (one.1.context.instance? = none →
          client.host.current = some one.1.context.session) := by
    intro one member
    obtain ⟨declared, same | inside⟩ := attaches one member
    · exact ⟨declared, by rw [same]; exact here⟩
    · exact ⟨declared, fun none => by rw [none] at inside; cases inside⟩
  cases call with
  | body session spine =>
      refine of_attaches (C := .root session) ?_ fun _ => live
      rw [declarations, deeds, Outcome.steps_deeds, Outcome.effects_deeds]
      exact Mounted.reconcile_attaches.reconcile (.root session) client.body spine
        client.host.supply
  | head session spines =>
      refine of_attaches (C := .root session) ?_ fun _ => live
      rw [declarations, deeds, Outcome.steps_deeds, Outcome.effects_deeds]
      exact Mounted.attaches_reconcileAll (.root session) client.head spines client.host.supply
  | update id =>
      have inside (context : ContextId) (here : context.instance? ≠ none) :
          ∀ one ∈ Effect.attaches (Deed.effects (client.deeds (.update id))),
            one.1.IsDeclaredIn (client.declarations (.update id)) ∧
              (one.1.context.instance? = none →
                client.host.current = some one.1.context.session) := by
        refine of_attaches (C := context) ?_ fun none => absurd none here
        rw [declarations, RenderCall.declaredAtRoot, List.nil_append, deeds]
        cases client.host.instances.get? id with
        | none => simp [Mounted.Attaches]
        | some state =>
            simp only [updateDeeds]
            split
            · simpa only [Outcome.steps_deeds, Outcome.effects_deeds] using
                ((Mounted.rerenders state.identity.id state.payload.content).rerender client.body
                  client.host.supply).attaches context
            · split
              · simpa only [Outcome.steps_deeds, Outcome.effects_deeds] using
                  ((Mounted.rerenders state.identity.id state.payload.content).rerenderFirst
                    client.head client.host.supply).attaches context
              · simp [Mounted.Attaches]
      exact inside ⟨0, some id⟩ (by simp)
  | loading =>
      -- What is shown without a connection has no refs.
      have nothing : Deed.effects (client.deeds .loading) = [] := by
        rw [deeds, Deed.effects_append, Outcome.effects_deeds, Outcome.effects_deeds,
          (takesDown_loading _ _).2, Mounted.reconcileAll_apply]
        simp
      rw [nothing]
      simp

/-! ## What is always true of refs -/

theorem contexts_quiet {client after : Client} (change : Quiet client after) :
    after.host.contexts = client.host.contexts := by
  cases change with
  | aside host body head => rw [host]
  | report | locate | openSession | dropSession | setAttribute | addObject | setPayload
  | changeInputs | sync => rfl
  | fire id offered event => exact Host.contexts_fire id event client.host
  | setGlobal name value =>
      obtain ⟨objects, same⟩ := Host.setGlobal_eq name value client.host
      rw [modifyHost, same]

theorem hasOpened_quiet {client after : Client} (change : Quiet client after) {context : ContextId}
    (opened : client.host.HasOpened context) : after.host.HasOpened context := by
  have instances : client.host.instances.next ≤ after.host.instances.next := by
    cases change with
    | aside host body head => rw [host]
    | report | locate | openSession | dropSession | setAttribute | addObject | changeInputs
    | sync => exact Nat.le_refl _
    | fire id offered event =>
        rw [modifyHost, (Host.CalledBack.fire id event client.host).instances]
    | setGlobal name value =>
        rw [modifyHost, (Host.CalledBack.setGlobal name value client.host).instances]
    | setPayload id payload => exact Numbered.next_le_modify _ _ _
  unfold Host.HasOpened at opened ⊢
  split at opened
  · exact Nat.lt_of_lt_of_le opened (opened_quiet change).1
  · exact Nat.lt_of_lt_of_le opened instances

theorem hasOpened_render {client : Client} (call : RenderCall) {context : ContextId}
    (opened : client.host.HasOpened context) : (client.render call).host.HasOpened context := by
  unfold Host.HasOpened at opened ⊢
  split at opened
  · exact Nat.lt_of_lt_of_le opened (opened_render call client).1
  · refine Nat.lt_of_lt_of_le opened ?_
    rw [host_render_eq_commit call client client.host.supply, ← instances_prepared call client]
    exact Host.next_le_commit _ _

theorem handles_prepared (call : RenderCall) (client : Client) (context : ContextId) :
    ((client.prepared call).context context).handles = (client.host.context context).handles :=
  prepared_induction call rfl (fun site spine host same =>
    (@Host.handles_runStep host (.declare site spine) rfl context).trans same) fun _ _ same => same

theorem context_of_mem_refs {client : Client} (carries : CarriesPaths client) {one : Attachment}
    (member : one ∈ client.refs) : one.1.context.instance? = none ∨
      ∃ identity ∈ client.instances, one.1.context = identity.context := by
  rw [refs_eq_flatMap] at member
  obtain ⟨tree, isTree, inside⟩ := List.mem_flatMap.mp member
  obtain ⟨session, faithful⟩ := carries.exists_faithful isTree
  refine (Mounted.context_of_mem_refs faithful.elements inside).imp ?_ ?_
  · exact congrArg ContextId.instance?
  · rintro ⟨identity, within, own⟩
    rw [instances_eq_flatMap]
    exact ⟨identity, List.mem_flatMap.mpr ⟨tree, isTree, within⟩, own⟩

/-- Refs have been declared, and nothing is stored in a context that has not been there. -/
structure KnowsRefs (client : Client) : Prop where
  declared : ∀ one ∈ client.refs, ∃ declared, client.host.ref? one.1 = some declared
  opened : ∀ one ∈ client.refs, client.host.HasOpened one.1.context
  once : ∀ context, client.host.StoresOnce context
  fresh : ∀ context, ¬ client.host.HasOpened context → (client.host.context context).handles = []

namespace KnowsRefs

variable {client after : Client}

theorem new (location : String) (policy : ReconnectPolicy) :
    KnowsRefs (Client.new location policy) where
  declared := by simp [Client.new, refs, Mounted.refs, Mounted.childRefs]
  opened := by simp [Client.new, refs, Mounted.refs, Mounted.childRefs]
  once _ := List.nodup_nil
  fresh _ _ := rfl

theorem quiet (knows : KnowsRefs client) (change : Quiet client after) : KnowsRefs after := by
  have context : after.host.context = client.host.context := by
    unfold Host.context
    rw [contexts_quiet change]
  refine { declared := ?_, opened := ?_, once := ?_, fresh := ?_ }
  · rw [refs_quiet change]
    intro one member
    rw [Host.ref?, context]
    exact knows.declared one member
  · rw [refs_quiet change]
    intro one member
    exact hasOpened_quiet change (knows.opened one member)
  · intro other
    rw [Host.StoresOnce, context]
    exact knows.once other
  · intro other new
    rw [context]
    exact knows.fresh other fun opened => new (hasOpened_quiet change opened)

theorem render (knows : KnowsRefs client) {past : List Deed} (registered : Registered past client)
    (carries : CarriesPaths client) {call : RenderCall} (live : call.IsLive client) :
    KnowsRefs (client.render call) := by
  obtain ⟨gone, turned⟩ := refTurnover_render call client
  have attaches := attaches_render live
  have known : ∀ one ∈ (client.render call).refs, one ∈ client.refs ∨
      one ∈ Effect.attaches (Deed.effects (client.deeds call)) := by
    intro one member
    have balance := turned.balance one
    have there := List.count_pos_iff.mpr member
    rcases Nat.eq_zero_or_pos (client.refs.count one) with none | old
    · exact .inr (List.count_pos_iff.mp (by omega))
    · exact .inl (List.count_pos_iff.mp old)
  have opened : ∀ one ∈ (client.render call).refs,
      (client.render call).host.HasOpened one.1.context := by
    intro one member
    rcases context_of_mem_refs (carries.render call) member with atRoot | ⟨identity, inside, same⟩
    · rcases known one member with old | new
      · exact hasOpened_render call (knows.opened one old)
      · have current := (attaches one new).2 atRoot
        have root : one.1.context = .root one.1.context.session := by
          rw [ContextId.root, ← atRoot]
        rw [root]
        exact hasOpened_render call (current_lt registered current)
    · rw [same]
      exact (registered.sound.render call).settled.id_lt inside
  refine { declared := ?_, opened := opened, once := ?_, fresh := ?_ }
  · intro one member
    rw [ref?_render]
    rcases known one member with old | new
    · obtain ⟨first, found⟩ := knows.declared one old
      exact ⟨first, by rw [found, Option.some_or]⟩
    · obtain ⟨first, among⟩ := (attaches one new).1.firstIn
      rw [among]
      cases client.host.ref? one.1 with
      | none => exact ⟨first, rfl⟩
      | some earlier => exact ⟨earlier, rfl⟩
  · intro context
    rw [host_render_eq_commit call client client.host.supply]
    refine Host.storesOnce_effects _ (Host.storesOnce_steps _ ?_)
    rw [Host.StoresOnce, handles_prepared]
    exact knows.once context
  · intro context new
    rw [host_render_eq_commit call client client.host.supply, Host.handles_commit_of_apart,
      handles_prepared]
    · exact knows.fresh context fun was => new (hasOpened_render call was)
    · intro id detached
      rw [turned.detached] at detached
      obtain ⟨one, left, rfl⟩ := List.mem_map.mp detached
      rintro rfl
      exact new (hasOpened_render call (knows.opened one (turned.left left)))
    · intro one attached
      rintro rfl
      exact new (opened one (turned.attached attached))

end KnowsRefs

theorem Run.knowsRefs {past : List Deed} {client : Client} (run : Run past client) :
    KnowsRefs client := by
  have all : KnowsRefs client ∧ Registered past client ∧ CarriesPaths client := by
    refine run.invariant
      (P := fun past client => KnowsRefs client ∧ Registered past client ∧ CarriesPaths client)
      (fun location policy => ?_) ?_
    · have started := Run.new location policy
      exact ⟨.new location policy, started.registered, started.carriesPaths⟩
    · intro past client deeds after ⟨knows, registered, carries⟩ move
      refine ⟨?_, registered.move move, ?_⟩
      · cases move with
        | quiet change => exact knows.quiet change
        | render call live => exact knows.render registered carries live
      · cases move with
        | quiet change => exact carries.quiet change
        | render call live => exact carries.render call
  exact all.1

/-! ## What is stored -/

/-- Every key of every context stands for the ref that stores there. -/
def StoresExactly (client : Client) : Prop :=
  ∀ context, client.HasContext context → ∀ key, client.host.Holds client.refs (context, key)

section StoresExactly

variable {client after : Client}

theorem holds_of_new (knows : KnowsRefs client) {slot : ContextId × String}
    (new : ¬ client.host.HasOpened slot.1) : client.host.Holds client.refs slot := by
  intro value
  rw [Host.stored?, knows.fresh slot.1 new]
  constructor
  · intro stored
    cases stored
  · rintro ⟨one, member, known, -⟩
    refine absurd (knows.opened one member) ?_
    rwa [← Host.context_of_slot known]

theorem holds_quiet (change : Quiet client after) {slot : ContextId × String}
    (holds : client.host.Holds client.refs slot) : after.host.Holds after.refs slot := by
  have context : after.host.context = client.host.context := by
    unfold Host.context
    rw [contexts_quiet change]
  intro value
  simp only [Host.stored?, Host.slot?, Host.ref?, context, refs_quiet change]
  exact holds value

theorem storesExactly_quiet (stores : StoresExactly client) (knows : KnowsRefs client)
    (change : Quiet client after) : StoresExactly after := by
  intro context has key
  refine holds_quiet change ?_
  cases has with
  | inside member =>
      rw [instances_quiet change] at member
      exact stores _ (.inside member) key
  | @root session live =>
      rcases (opened_quiet change).2 session live with before | rfl
      · exact stores _ (.root before) key
      · exact holds_of_new knows (Nat.lt_irrefl _)

theorem KeysApart.countP_le_one (apart : client.KeysApart) (slot : ContextId × String) :
    client.refs.countP (fun one => client.host.slot? one.1 = some slot) ≤ 1 := by
  have once := List.nodup_iff_count_le_one.mp apart slot
  rw [List.count_filterMap] at once
  refine le_of_eq_of_le (List.countP_congr fun one member => ?_) once
  rw [decide_eq_true_eq, beq_iff_eq]

theorem HasContext.works (sound : Sound client) {context : ContextId}
    (has : client.HasContext context) : client.host.Works context := by
  cases has with
  | root live => exact .root live
  | @inside identity member =>
      exact @Host.Works.inside _ ⟨identity, .mounted, true⟩ (standing_of_mem sound member) rfl

theorem works_prepared (call : RenderCall) {context : ContextId}
    (works : client.host.Works context) : (client.prepared call).Works context := by
  obtain ⟨_, _, _, _, same, -⟩ := prepared_eq call client
  exact works.congr (by rw [same]) (by rw [same])

/-- A context that the client has after a call was there before, and the call spares it, or it is
    that of an instance that the call creates. -/
theorem hasContext_render (sound : Sound client) {call : RenderCall} {context : ContextId}
    (has : (client.render call).HasContext context) :
    client.HasContext context ∧ Host.Spares context (Deed.steps (client.deeds call)) ∨
      ∃ identity ∈ Step.instantiations (Deed.steps (client.deeds call)),
        context = identity.context := by
  obtain ⟨session, finish, turnover, -⟩ := turnover_render sound.settled call
  cases has with
  | root live =>
      rw [(opened_render call client).2] at live
      exact .inl ⟨.root live, fun id inside => by cases inside⟩
  | @inside identity member =>
      by_cases old : identity ∈ client.instances
      · refine .inl ⟨.inside old, fun id inside => ?_⟩
        obtain rfl : identity.id = id := Option.some.inj inside
        obtain ⟨-, unmounts⟩ := turnover.kept sound.settled old member
        have released := turnover.released identity.id
        have created := turnover.count_old (sound.settled.id_lt old)
        rw [unmounts] at released
        exact ⟨List.count_eq_zero.mp released, List.count_eq_zero.mp created⟩
      · exact .inr ⟨identity, (turnover.known identity member).resolve_left old, rfl⟩

/-- The context of an instance that a call creates works when the steps are done, and has not been
    there before. -/
theorem works_of_created (sound : Sound client) {call : RenderCall} {identity : Instance}
    (created : identity ∈ Step.instantiations (Deed.steps (client.deeds call))) :
    ((Deed.steps (client.deeds call)).foldl Host.runStep (client.prepared call)).Works
        identity.context ∧
      ¬ client.host.HasOpened identity.context := by
  obtain ⟨session, finish, turnover, -⟩ := turnover_render sound.settled call
  obtain ⟨once, -, unmounts, released, -⟩ := turnover.entered sound.settled created
  have standing := Host.standing_steps_created created (Nat.le_of_eq once)
    (List.count_eq_zero.mp unmounts) (List.count_eq_zero.mp released) (client.prepared call)
  exact ⟨@Host.Works.inside _ ⟨identity, .created, true⟩ standing rfl,
    Nat.not_lt_of_le (turnover.le_of_created created)⟩

/-- After a call a key stands for the ref that stores under it, when it did before and the context
    of the key works. -/
theorem holds_render (knows : KnowsRefs client) (apart : client.KeysApart) {call : RenderCall}
    (apartAfter : (client.render call).KeysApart) {slot : ContextId × String}
    (holds : client.host.Holds client.refs slot)
    (works : ((Deed.steps (client.deeds call)).foldl Host.runStep (client.prepared call)).Works
      slot.1)
    (worked : (∀ one ∈ client.refs, slot.1 ≠ one.1.context) ∨
      (client.prepared call).Works slot.1 ∧
        Host.Spares slot.1 (Deed.steps (client.deeds call))) :
    (client.render call).host.Holds (client.render call).refs slot := by
  obtain ⟨gone, turned⟩ := refTurnover_render call client
  have onceAfter := apartAfter.countP_le_one slot
  have prepared : ∀ one ∈ client.refs, (client.prepared call).slot? one.1 =
      client.host.slot? one.1 := by
    intro one member
    obtain ⟨first, found⟩ := knows.declared one member
    exact Host.slot?_of_declared found (ref?_prepared call client one.1)
  rw [host_render_eq_commit call client client.host.supply] at onceAfter ⊢
  refine Host.Holds.commit ?_ turned ?_ ?_ ?_ onceAfter works worked
  · intro value
    rw [Host.stored?, handles_prepared]
    refine (holds value).trans (exists_congr fun one => and_congr_right fun member => ?_)
    rw [prepared one member]
  · rw [Host.StoresOnce, handles_prepared]
    exact knows.once slot.1
  · intro one member
    obtain ⟨first, found⟩ := knows.declared one member
    exact ⟨first, by rw [ref?_prepared, found, Option.some_or]⟩
  · refine le_of_eq_of_le (List.countP_congr fun one member => ?_) (apart.countP_le_one slot)
    rw [prepared one member]

theorem storesExactly_render (stores : StoresExactly client) (knows : KnowsRefs client)
    (sound : Sound client) (apart : client.KeysApart) {call : RenderCall}
    (apartAfter : (client.render call).KeysApart) : StoresExactly (client.render call) := by
  intro context has key
  rcases hasContext_render sound has with ⟨had, spares⟩ | ⟨identity, created, rfl⟩
  · have works := works_prepared call (had.works sound)
    exact holds_render knows apart apartAfter (stores context had key) (works.steps spares)
      (.inr ⟨works, spares⟩)
  · obtain ⟨works, new⟩ := works_of_created sound created
    refine holds_render knows apart apartAfter (holds_of_new knows new) works
      (.inl fun one member same => ?_)
    have opened := knows.opened one member
    rw [← same] at opened
    exact new opened

end StoresExactly

/-! ## Whatever happens -/

theorem ref?_quietly {client after : Client} (changes : Quietly client after) (id : RefId) :
    after.host.ref? id = client.host.ref? id := by
  refine changes.preserves (P := fun after => after.host.ref? id = client.host.ref? id) ?_ rfl
  intro middle after same change
  rw [← same, Host.ref?, Host.context, contexts_quiet change]
  rfl

theorem keysApart_quietly {client after : Client} (changes : Quietly client after) :
    after.KeysApart ↔ client.KeysApart := by
  unfold KeysApart
  rw [(trees_quietly changes).1]
  simp only [Host.slot?, ref?_quietly changes]

theorem stores_quietly {client after : Client} (changes : Quietly client after)
    (knows : KnowsRefs client) (stores : StoresExactly client) :
    KnowsRefs after ∧ StoresExactly after := by
  refine changes.preserves (P := fun client => KnowsRefs client ∧ StoresExactly client) ?_
    ⟨knows, stores⟩
  rintro client after ⟨knows, stores⟩ change
  exact ⟨knows.quiet change, storesExactly_quiet stores knows change⟩

/-- What happens adds what it declares to what was declared before. -/
theorem ref?_perform {client : Client} (sound : Sound client) (action : Action) (id : RefId) :
    (client.perform action).host.ref? id =
      (client.host.ref? id).or (id.firstIn (client.declaredBy action)) := by
  unfold declaredBy
  have happens := happens_perform sound.settled.named action
  generalize client.call? action = called at happens ⊢
  cases happens with
  | quietly changes => exact (ref?_quietly changes id).trans (Option.or_none ..).symm
  | render before live afterwards =>
      rw [ref?_quietly afterwards, ref?_render, ref?_quietly before]

theorem storesExactly_perform {past : List Deed} {client : Client} (run : Run past client)
    (apart : client.KeysApart) (stores : StoresExactly client) {action : Action}
    (apartAfter : (client.perform action).KeysApart) : StoresExactly (client.perform action) := by
  have happens := happens_perform run.sound.settled.named action
  generalize client.call? action = called at happens
  cases happens with
  | quietly changes => exact (stores_quietly changes run.knowsRefs stores).2
  | render before live afterwards =>
      obtain ⟨knows, stores⟩ := stores_quietly before run.knowsRefs stores
      have registered := before.preserves (fun _ _ => Registered.quiet) run.registered
      have carries := before.preserves (fun _ _ => CarriesPaths.quiet) run.carriesPaths
      have rendered := storesExactly_render stores knows registered.sound
        ((keysApart_quietly before).mpr apart) ((keysApart_quietly afterwards).mp apartAfter)
      exact (stores_quietly afterwards (knows.render registered carries live) rendered).2

namespace Tidy

variable {client : Client}

theorem reachable (tidy : Tidy client) : Reachable client := by
  induction tidy with
  | new location policy => exact ⟨[], .new location policy⟩
  | perform _ action _ ih =>
      obtain ⟨past, run⟩ := ih
      exact ⟨_, run.perform action⟩

theorem keysApart (tidy : Tidy client) : client.KeysApart := by
  cases tidy with
  | new location policy => exact List.nodup_nil
  | perform _ action apart => exact apart

theorem storesExactly (tidy : Tidy client) : StoresExactly client := by
  induction tidy with
  | new location policy =>
      intro context has key
      cases has with
      | root live => cases live
      | inside member => cases member
  | perform tidy action apart ih =>
      obtain ⟨past, run⟩ := tidy.reachable
      exact storesExactly_perform run tidy.keysApart ih apart

end Tidy

/-- The ref of an element stores under the key that was declared for its place first. As long as
    keys are apart, a key stands for an element exactly when its ref stores under it, and so the key
    reaches the element, whatever happens. -/
theorem refs_are_stored {client : Client} (tidy : Tidy client) : RefsAreStored client := by
  obtain ⟨past, run⟩ := tidy.reachable
  have stored := tidy.storesExactly
  refine ⟨ref?_perform run.sound, run.knowsRefs.declared, stored, ?_⟩
  intro context has one member key known holes
  rw [Host.evaluateIn_deref, (stored context has key _).mpr ⟨one, member, known, rfl⟩,
    Option.getD_some]

/-- Paragraphs beside each other, some of which have refs with stable keys. -/
def paragraphs (keys : List (Option String)) : Spine :=
  let paragraph (key : Option String) : Spine :=
    .element "p" [] (key.toList.map fun key => .ref ⟨some key, .nothing, .nothing⟩)
  .element "div" (keys.zipIdx.map fun (key, index) => (UInt32.ofNat index, paragraph key)) []

/-- What leads to a client that is sent spines and shows each of them. -/
def showEach (spines : List Spine) : List Action :=
  .openConnection :: spines.flatMap fun spine => [.message spine.encode, .frame]

/-- A paragraph takes the key of another one with it, and is reached under it. -/
theorem key_moves_to_next_paragraph :
    let client := (history (showEach [paragraphs [some "a", none], paragraphs [none, some "a"]])
      (.new "/" .never)).2
    Tidy client ∧ RefsAreStored client ∧ client.refs = [(⟨.root 0, ⟨[1]⟩⟩, 3)] ∧
      client.host.stored? (.root 0, "a") = some (.host 3) := by
  intro client
  have tidy : Tidy client := by
    refine .perform (.perform (.perform (.perform (.perform (.new "/" .never) .openConnection ?_)
      (.message _) ?_) .frame ?_) (.message _) ?_) .frame ?_
    all_goals exact of_decide_eq_true (by cbv)
  have only : client.refs = [(⟨.root 0, ⟨[1]⟩⟩, 3)] := by
    unfold client
    cbv
  have slot : client.host.slot? ⟨.root 0, ⟨[1]⟩⟩ = some (.root 0, "a") := by
    unfold client
    cbv
  have live : client.host.current = some 0 := by
    unfold client
    cbv
  refine ⟨tidy, refs_are_stored tidy, only, ?_⟩
  refine ((refs_are_stored tidy).stored _ (.root live) "a" _).mpr
    ⟨(⟨.root 0, ⟨[1]⟩⟩, 3), ?_, slot, rfl⟩
  rw [only]
  exact List.mem_singleton_self _

/-- A key that is declared later, where another one was declared before, stands for nothing. -/
theorem exists_later_key_not_stored :
    ¬ ∀ (rows : List (List (Option String))) (last : List (Option String)),
      (∀ keys ∈ last :: rows, (paragraphs keys).Distinct ∧ keys.reduceOption.Nodup) →
      let client := (history (showEach (rows.map paragraphs) ++ [.message (paragraphs last).encode])
        (.new "/" .never)).2
      let after := client.perform .frame
      ∀ key value, after.host.stored? (.root 0, key) = some value ↔
        ∃ one ∈ after.refs, one.1.context = .root 0 ∧
          (one.1.firstIn (client.declaredBy .frame)).bind RefAttribute.key = some key ∧
            value = .host one.2 := by
  intro always
  let client := (history (showEach [paragraphs [some "a"]] ++
    [.message (paragraphs [some "b"]).encode]) (.new "/" .never)).2
  have nothing : (client.perform .frame).host.stored? (.root 0, "b") = none := by
    unfold client
    cbv
  have only : (client.perform .frame).refs = [(⟨.root 0, ⟨[0]⟩⟩, 2)] := by
    unfold client
    cbv
  have declared : ((⟨.root 0, ⟨[0]⟩⟩ : RefId).firstIn (client.declaredBy .frame)).bind
      RefAttribute.key = some "b" := by
    unfold client
    cbv
  have member : (⟨.root 0, ⟨[0]⟩⟩, 2) ∈ (client.perform .frame).refs := by
    rw [only]
    exact List.mem_singleton_self _
  have distinct (key : String) : (paragraphs [some key]).Distinct ∧
      [some key].reduceOption.Nodup := by
    simp [paragraphs, Spine.Distinct, Spine.DistinctChildren]
  have stored := (always [[some "a"]] [some "b"] (by simp [distinct]) "b" (.host 2)).mpr
    ⟨_, member, rfl, declared, rfl⟩
  cases nothing.symm.trans stored

end Client

end RemoteView
