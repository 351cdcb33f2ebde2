import RemoteView.Proofs.Expr.Apart
import RemoteView.Proofs.Host.Declared
import RemoteView.Proofs.Host.Settled
import RemoteView.Proofs.Mounted.Apart

/-! # Hosts that differ around a component

Two hosts may differ in the handles and the payloads that lie around a component. What keeps apart
from these does the same to both hosts, and what is idle there keeps them alike.
-/

namespace RemoteView

/-! ## Instances -/

/-- Entries of one instance that differ at most in its payload, and only around. -/
structure AlikeEntries (around : Surroundings) (left right : InstanceId × InstanceState) : Prop where
  same : right = (left.1, { left.2 with payload := right.2.payload })
  apart : ¬ around.instances left.1 → right = left

/-- Stores of instances that differ only in payloads around. -/
structure AlikeInstances (around : Surroundings) (left right : Numbered InstanceState) : Prop where
  next : right.next = left.next
  entries : List.Forall₂ (AlikeEntries around) left.entries right.entries
  bounded : ∀ id, around.instances id → id < left.next

namespace AlikeInstances

variable {around : Surroundings} {left right : Numbered InstanceState}

theorem get?_eq (alike : AlikeInstances around left right) {id : InstanceId}
    (apart : ¬ around.instances id) : right.get? id = left.get? id := by
  unfold Numbered.get?
  have entries := alike.entries
  generalize left.entries = list, right.entries = other at entries ⊢
  induction entries with
  | nil => rfl
  | @cons first other rest others entry _ ih =>
      have key : other.1 = first.1 := by rw [entry.same]
      unfold Assoc.get?
      simp only [key]
      by_cases here : first.1 = id
      · rw [if_pos here, if_pos here, entry.apart (by rwa [here])]
      · rw [if_neg here, if_neg here, ih]

theorem standing_eq (alike : AlikeInstances around left right) (id : InstanceId) :
    (right.get? id).map InstanceState.standing = (left.get? id).map InstanceState.standing := by
  unfold Numbered.get?
  have entries := alike.entries
  generalize left.entries = list, right.entries = other at entries ⊢
  induction entries with
  | nil => rfl
  | @cons first other rest others entry _ ih =>
      have key : other.1 = first.1 := by rw [entry.same]
      have inner : other.2 = { first.2 with payload := other.2.payload } :=
        congrArg Prod.snd entry.same
      unfold Assoc.get?
      simp only [key]
      by_cases here : first.1 = id
      · rw [if_pos here, if_pos here, inner]
        rfl
      · rw [if_neg here, if_neg here, ih]

theorem any_eq (alike : AlikeInstances around left right) (session : SessionId) :
    (right.entries.any fun (_, state) => state.isHeld && state.identity.session = session) =
      left.entries.any fun (_, state) => state.isHeld && state.identity.session = session := by
  have entries := alike.entries
  generalize left.entries = list, right.entries = other at entries ⊢
  induction entries with
  | nil => rfl
  | @cons first other rest others entry _ ih =>
      rw [List.any_cons, List.any_cons, ih, entry.same]

theorem put (alike : AlikeInstances around left right) (id : InstanceId) (state : InstanceState) :
    AlikeInstances around (left.put id state) (right.put id state) where
  next := by
    have next := alike.next
    simp only [Numbered.put, next]
  bounded other there := Nat.lt_of_lt_of_le (alike.bounded other there) (Nat.le_max_left _ _)
  entries := by
    simp only [Numbered.put]
    have entries := alike.entries
    generalize left.entries = list, right.entries = other at entries ⊢
    induction entries with
    | nil => exact .cons ⟨rfl, fun _ => rfl⟩ .nil
    | @cons first other rest others entry tail ih =>
        obtain ⟨number, inner⟩ := first
        obtain ⟨same, inner'⟩ := other
        obtain rfl : same = number := congrArg Prod.fst entry.same
        unfold Assoc.insert
        split
        · exact .cons ⟨rfl, fun _ => rfl⟩ tail
        · exact .cons entry ih

theorem modify (alike : AlikeInstances around left right) {id : InstanceId}
    (apart : ¬ around.instances id) (change : InstanceState → InstanceState) :
    AlikeInstances around (left.modify id change) (right.modify id change) := by
  unfold Numbered.modify
  rw [alike.get?_eq apart]
  cases left.get? id with
  | none => exact alike
  | some state => exact alike.put id (change state)

theorem modify_right (alike : AlikeInstances around left right) {id : InstanceId}
    (there : around.instances id) (payload : Payload) :
    AlikeInstances around left (right.modify id fun state => { state with payload := payload }) := by
  unfold Numbered.modify
  cases found : right.get? id with
  | none => exact alike
  | some state =>
      refine ⟨?_, ?_, alike.bounded⟩
      · have small : id + 1 ≤ left.next := alike.bounded id there
        exact (Nat.max_eq_left (by rw [alike.next]; exact small)).trans alike.next
      · unfold Numbered.get? at found
        simp only [Numbered.put]
        have entries := alike.entries
        generalize left.entries = list, right.entries = other at entries found ⊢
        induction entries with
        | nil => simp at found
        | @cons first other rest others entry tail ih =>
            obtain ⟨number, inner⟩ := first
            obtain ⟨same, inner'⟩ := other
            obtain rfl : same = number := congrArg Prod.fst entry.same
            unfold Assoc.get? at found
            unfold Assoc.insert
            split at found
            · rename_i here
              obtain rfl := Option.some.inj found
              rw [if_pos here]
              refine .cons ⟨?_, fun apart => absurd (here ▸ there) apart⟩ tail
              have state : inner' = { inner with payload := inner'.payload } :=
                congrArg Prod.snd entry.same
              rw [state]
            · rename_i elsewhere
              rw [if_neg elsewhere]
              exact .cons entry (ih found)

end AlikeInstances

namespace Host

/-- Hosts that differ only in handles and payloads around. Neither the window nor the handles that
    contexts apart have stored lead there. -/
structure Alike (around : Surroundings) (left right : Host) : Prop where
  same : right = { left with objects := right.objects, instances := right.instances }
  objects : AlikeObjects around.handles left.objects right.objects
  instances : AlikeInstances around left.instances right.instances
  window : ¬ around.handles left.window
  stored : ∀ context : ContextId, context.IsApart around →
    ∀ entry ∈ (left.context context).handles, entry.2.Avoids around.handles

namespace Alike

variable {around : Surroundings} {left right : Host}

theorem exists_eq (alike : Alike around left right) :
    ∃ objects instances, right = { left with objects := objects, instances := instances } :=
  ⟨_, _, alike.same⟩

theorem standing_eq (alike : Alike around left right) (id : InstanceId) :
    right.standing id = left.standing id :=
  alike.instances.standing_eq id

theorem isHeld_eq (alike : Alike around left right) (id : InstanceId) :
    right.isHeld id = left.isHeld id := by
  have held (host : Host) : host.isHeld id = (host.standing id).any Standing.isHeld := by
    unfold isHeld standing
    cases host.instances.get? id <;> rfl
  rw [held, held, alike.standing_eq]

theorem mountedAt_standing (alike : Alike around left right) (session : SessionId) (key : String) :
    (right.mountedAt session key).map InstanceState.standing =
      (left.mountedAt session key).map InstanceState.standing := by
  have mounted (host : Host) : (host.mountedAt session key).map InstanceState.standing =
      (((host.sessions.get? session).bind fun state => Assoc.get? key state.mounted).bind
        host.standing).filter Standing.isHeld := by
    unfold mountedAt standing
    cases host.sessions.get? session with
    | none => rfl
    | some state =>
        simp only [Option.bind_eq_bind, Option.bind_some]
        cases Assoc.get? key state.mounted with
        | none => rfl
        | some id =>
            cases found : host.instances.get? id with
            | none => simp [found]
            | some inner =>
                by_cases held : inner.isHeld <;>
                  simp [found, held, InstanceState.standing, Option.filter]
  have sessions : right.sessions = left.sessions := by
    obtain ⟨_, _, rfl⟩ := alike.exists_eq
    rfl
  rw [mounted, mounted, sessions, funext alike.standing_eq]

theorem isSessionAlive_eq (alike : Alike around left right) (session : SessionId) :
    right.isSessionAlive session = left.isSessionAlive session := by
  have any := alike.instances.any_eq session
  obtain ⟨objects, instances, rfl⟩ := alike.exists_eq
  unfold isSessionAlive
  rw [any]

theorem isContextAlive_eq (alike : Alike around left right) (context : ContextId) :
    right.isContextAlive context = left.isContextAlive context := by
  unfold isContextAlive
  rw [alike.isSessionAlive_eq]
  cases context.instance? with
  | none => rfl
  | some id => simp only [alike.isHeld_eq]

/-! ## What changes both hosts -/

theorem withObjects (alike : Alike around left right) {objects objects' : Objects}
    (still : AlikeObjects around.handles objects objects') :
    Alike around { left with objects := objects } { right with objects := objects' } := by
  obtain ⟨_, _, rfl⟩ := alike.exists_eq
  exact ⟨rfl, still, alike.instances, alike.window, alike.stored⟩

theorem withInstances (alike : Alike around left right) {instances instances' : Numbered InstanceState}
    (still : AlikeInstances around instances instances') :
    Alike around { left with instances := instances } { right with instances := instances' } := by
  obtain ⟨_, _, rfl⟩ := alike.exists_eq
  exact ⟨rfl, alike.objects, still, alike.window, alike.stored⟩

theorem send (alike : Alike around left right) (session : SessionId) (message : ClientMessage) :
    Alike around (left.send session message) (right.send session message) := by
  obtain ⟨_, _, rfl⟩ := alike.exists_eq
  exact ⟨rfl, alike.objects, alike.instances, alike.window, alike.stored⟩

theorem modifyContext (alike : Alike around left right) (context : ContextId)
    (change : RenderContext → RenderContext)
    (stored : context.IsApart around → ∀ entry ∈ (change (left.context context)).handles,
      entry.2.Avoids around.handles) :
    Alike around (left.modifyContext context change) (right.modifyContext context change) := by
  obtain ⟨_, _, rfl⟩ := alike.exists_eq
  refine ⟨rfl, alike.objects, alike.instances, alike.window, fun other apart => ?_⟩
  rw [context_modifyContext]
  split
  · rename_i same
    exact stored (same ▸ apart)
  · exact alike.stored other apart

theorem modifySession (alike : Alike around left right) (id : SessionId)
    (change : Session → Session) :
    Alike around (left.modifySession id change) (right.modifySession id change) := by
  obtain ⟨_, _, rfl⟩ := alike.exists_eq
  exact ⟨rfl, alike.objects, alike.instances, alike.window, alike.stored⟩

theorem modifyInstance (alike : Alike around left right) {id : InstanceId}
    (apart : ¬ around.instances id) (change : InstanceState → InstanceState) :
    Alike around (left.modifyInstance id change) (right.modifyInstance id change) :=
  alike.withInstances (alike.instances.modify apart change)

theorem foldl {α : Type} {run : Host → α → Host} {items : List α}
    (one : ∀ item ∈ items, ∀ left right, Alike around left right →
      Alike around (run left item) (run right item))
    (alike : Alike around left right) :
    Alike around (items.foldl run left) (items.foldl run right) := by
  induction items generalizing left right with
  | nil => exact alike
  | cons item rest ih =>
      exact ih (fun other member => one other (List.mem_cons_of_mem _ member))
        (one item (List.mem_cons_self ..) _ _ alike)

/-! ## Calling back -/

theorem evaluateIn (alike : Alike around left right) {context : ContextId}
    (apart : context.IsApart around) (holes : Assoc UInt32 Value)
    (avoid : ∀ index value, Assoc.get? index holes = some value → value.Avoids around.handles)
    (e : Expr) :
    (right.evaluateIn context holes e).1 = (left.evaluateIn context holes e).1 ∧
      (left.evaluateIn context holes e).1.Avoids around.handles ∧
      Alike around (left.evaluateIn context holes e).2 (right.evaluateIn context holes e).2 := by
  have scope : Scope.Avoids around.handles
      ⟨holes, (left.context context).handles, .host left.window⟩ :=
    ⟨avoid, fun key value found => alike.stored context apart _ (Assoc.mem_of_get? found),
      alike.window⟩
  obtain ⟨objects, instances, rfl⟩ := alike.exists_eq
  obtain ⟨same, good, still⟩ := Expr.agrees_evaluate scope e left.objects objects alike.objects
  exact ⟨same, good, rfl, still, alike.instances, alike.window, alike.stored⟩

theorem runHook (alike : Alike around left right) {identity : Instance}
    (apart : ¬ around.instances identity.id) (hook : Expr) :
    Alike around (left.runHook identity hook) (right.runHook identity hook) := by
  have context : identity.context.IsApart around := ⟨identity.id, rfl, apart⟩
  obtain ⟨same, good, still⟩ := alike.evaluateIn context [] (by simp) hook
  unfold Host.runHook
  simp only [same, still.objects.toJson_eq good]
  exact still.send _ _

theorem runHooks (alike : Alike around left right) {identity : Instance}
    (apart : ¬ around.instances identity.id) (hooks : List Expr) :
    Alike around (left.runHooks identity hooks) (right.runHooks identity hooks) :=
  foldl (fun hook _ _ _ alike => alike.runHook apart hook) alike

theorem answerRef (alike : Alike around left right) (id : RefId) (answer : Value) :
    Alike around (left.answerRef id answer) (right.answerRef id answer) := by
  unfold Host.answerRef
  split
  · exact alike.send _ _
  · exact alike

theorem withKey (alike : Alike around left right) (id : RefId) (declared : RefAttribute)
    (change : String → RefStore → RefStore)
    (stored : ∀ key store, (∀ entry ∈ store, entry.2.Avoids around.handles) →
      ∀ entry ∈ change key store, entry.2.Avoids around.handles) :
    Alike around (left.withKey id declared change) (right.withKey id declared change) := by
  unfold Host.withKey
  split
  · exact alike.modifyContext _ _ fun apart => stored _ _ (alike.stored _ apart)
  · exact alike

theorem attachRef (alike : Alike around left right) {id : RefId} (apart : id.context.IsApart around)
    {handle : Value} (avoids : handle.Avoids around.handles) :
    Alike around (left.attachRef id handle) (right.attachRef id handle) := by
  have context : right.context id.context = left.context id.context := by
    obtain ⟨_, _, rfl⟩ := alike.exists_eq
    rfl
  unfold Host.attachRef
  rw [context, alike.isContextAlive_eq]
  split
  · exact alike
  · rename_i declared _
    split
    · have entered := alike.withKey id declared (fun key => Assoc.insert key handle)
        fun key store good entry member => by
          rcases Assoc.mem_insert member with rfl | old
          · exact avoids
          · exact good entry old
      obtain ⟨same, -, still⟩ := entered.evaluateIn apart [(handleHole, handle)] (by
          intro index value found
          obtain ⟨-, rfl⟩ := Prod.mk.inj (List.mem_singleton.mp (Assoc.mem_of_get? found))
          exact avoids) declared.attach
      simp only [same]
      exact still.answerRef id _
    · exact alike

theorem detachRef (alike : Alike around left right) {id : RefId}
    (apart : id.context.IsApart around) :
    Alike around (left.detachRef id) (right.detachRef id) := by
  have context : right.context id.context = left.context id.context := by
    obtain ⟨_, _, rfl⟩ := alike.exists_eq
    rfl
  unfold Host.detachRef
  rw [context, alike.isContextAlive_eq]
  split
  · exact alike
  · rename_i declared _
    split
    · have entered := alike.withKey id declared (fun key => Assoc.erase key)
        fun key store good entry member => good entry (Assoc.mem_of_mem_erase member)
      obtain ⟨same, -, still⟩ := entered.evaluateIn apart [(handleHole, .json .null)] (by
          intro index value found
          obtain ⟨-, rfl⟩ := Prod.mk.inj (List.mem_singleton.mp (Assoc.mem_of_get? found))
          trivial) declared.detach
      simp only [same]
      exact still.answerRef id _
    · exact alike

/-! ## Component instances -/

theorem registerMounted (alike : Alike around left right) (identity : Instance) :
    Alike around (left.registerMounted identity) (right.registerMounted identity) := by
  have entered := alike.modifySession identity.session fun session =>
    { session with mounted := Assoc.insert identity.path.key identity.id session.mounted }
  have sessions : right.sessions = left.sessions := by
    obtain ⟨_, _, rfl⟩ := alike.exists_eq
    rfl
  unfold Host.registerMounted
  simp only [sessions]
  split
  · rw [entered.isHeld_eq]
    split
    · obtain ⟨_, _, same⟩ := entered.exists_eq
      rw [same] at entered ⊢
      exact ⟨rfl, entered.objects, entered.instances, entered.window, entered.stored⟩
    · exact entered
  · exact entered

theorem removeWindowListener (alike : Alike around left right) (event : String) (id : ListenerId) :
    Alike around (left.removeWindowListener event id) (right.removeWindowListener event id) := by
  obtain ⟨_, _, rfl⟩ := alike.exists_eq
  exact ⟨rfl, alike.objects, alike.instances, alike.window, alike.stored⟩

theorem attachListener (alike : Alike around left right) {identity : Instance}
    (apart : ¬ around.instances identity.id) (declared : WindowListener) :
    Alike around (left.attachListener identity declared)
      (right.attachListener identity declared) := by
  have entered := alike.modifyContext identity.context
    (.listener identity.path declared.fid declared.behaviour) (alike.stored identity.context)
  unfold Host.attachListener
  refine modifyInstance ?_ apart _
  obtain ⟨_, _, same⟩ := entered.exists_eq
  rw [same] at entered ⊢
  exact ⟨rfl, entered.objects, entered.instances, entered.window, entered.stored⟩

theorem didMount (alike : Alike around left right) (named : left.Named) {id : InstanceId}
    (apart : ¬ around.instances id) : Alike around (left.didMount id) (right.didMount id) := by
  unfold Host.didMount
  rw [alike.instances.get?_eq apart]
  cases found : left.instances.get? id with
  | none => exact alike
  | some state =>
      have name : state.identity.id = id := named.id_eq found
      rw [← name] at apart ⊢
      simp only
      split
      · have entered := ((alike.modifyInstance apart fun state =>
          { state with phase := .mounted }).registerMounted state.identity).runHooks apart
            state.payload.behaviour.onMount
        exact foldl (fun declared _ _ _ alike => alike.attachListener apart declared) entered
      · exact alike

theorem willUnmount (alike : Alike around left right) (named : left.Named) {id : InstanceId}
    (apart : ¬ around.instances id) :
    Alike around (left.willUnmount id) (right.willUnmount id) := by
  unfold Host.willUnmount
  rw [alike.instances.get?_eq apart]
  cases found : left.instances.get? id with
  | none => exact alike
  | some state =>
      have name : state.identity.id = id := named.id_eq found
      rw [← name] at apart ⊢
      simp only
      split
      · have left := (alike.modifyInstance apart fun state =>
          { state with phase := .unmounted, attached := [] }).runHooks apart
            state.payload.behaviour.onUnmount
        exact (foldl (fun entry _ _ _ alike => alike.removeWindowListener entry.1 entry.2)
          left).modifySession _ _
      · exact alike

theorem declare (alike : Alike around left right) (context : ContextId)
    (declaration : Declaration) :
    Alike around (left.declare context declaration) (right.declare context declaration) := by
  cases declaration with
  | listener path inner => exact alike.modifyContext context _ (alike.stored context)
  | ref path inner => exact alike.modifyContext context _ (alike.stored context)
  | rules descriptors =>
      obtain ⟨_, _, rfl⟩ := alike.exists_eq
      exact ⟨rfl, alike.objects, alike.instances, alike.window, alike.stored⟩
  | component id name => exact alike.modifySession context.session _

/-! ## Steps and effects -/

theorem runStep (alike : Alike around left right) (named : left.Named) {step : Step}
    (apart : step.IsApart around) : Alike around (left.runStep step) (right.runStep step) := by
  cases step with
  | createHandle handle tag props => exact alike.withObjects (alike.objects.put (by simp))
  | syncHandle handle props =>
      refine alike.withObjects ?_
      unfold Objects.modifyElement Objects.element?
      rw [alike.objects.get? handle apart]
      split
      · exact alike.objects.put (by simp)
      · exact alike.objects
  | detachRef id => exact alike.detachRef apart
  | willUnmount id => exact alike.willUnmount named apart
  | release id => exact alike.modifyInstance apart _
  | instantiate identity payload => exact alike.withInstances (alike.instances.put _ _)
  | receive id payload => exact alike.modifyInstance apart _
  | declare site spine => exact foldl (fun declaration _ _ _ alike => alike.declare _ declaration) alike

theorem runEffect (alike : Alike around left right) (named : left.Named) {effect : Effect}
    (apart : effect.IsApart around) :
    Alike around (left.runEffect effect) (right.runEffect effect) := by
  cases effect with
  | attachRef id handle => exact alike.attachRef apart.1 apart.2
  | didMount id => exact alike.didMount named apart

theorem steps (alike : Alike around left right) (named : left.Named) {steps : List Step}
    (apart : ∀ step ∈ steps, step.IsApart around) :
    Alike around (steps.foldl Host.runStep left) (steps.foldl Host.runStep right) ∧
      (steps.foldl Host.runStep left).Named := by
  induction steps generalizing left right with
  | nil => exact ⟨alike, named⟩
  | cons step rest ih =>
      exact ih (alike.runStep named (apart step (List.mem_cons_self ..))) (named.runStep step)
        fun other member => apart other (List.mem_cons_of_mem _ member)

theorem effects (alike : Alike around left right) (named : left.Named) {effects : List Effect}
    (apart : ∀ effect ∈ effects, effect.IsApart around) :
    Alike around (effects.foldl Host.runEffect left) (effects.foldl Host.runEffect right) := by
  induction effects generalizing left right with
  | nil => exact alike
  | cons effect rest ih =>
      exact ih (alike.runEffect named (apart effect (List.mem_cons_self ..)))
        (named.runEffect effect) fun other member => apart other (List.mem_cons_of_mem _ member)

/-- What is idle around keeps the second host like the first one. -/
theorem idle (alike : Alike around left right) (bounded : left.sessions.IsBounded)
    (declared : ∀ context declaration, around.declarations context declaration →
      left.HasDeclared context declaration) {step : Step} (idle : step.IsIdle around) :
    Alike around left (right.runStep step) := by
  obtain ⟨objects, instances, rfl⟩ := alike.exists_eq
  cases step with
  | syncHandle handle props =>
      refine ⟨rfl, ?_, alike.instances, alike.window, alike.stored⟩
      simp only [Host.runStep]
      unfold Objects.modifyElement
      split
      · exact alike.objects.put_right idle _
      · exact alike.objects
  | receive id payload =>
      exact ⟨rfl, alike.objects, alike.instances.modify_right idle payload, alike.window,
        alike.stored⟩
  | declare site spine =>
      generalize right_eq : { left with objects := objects, instances := instances } = right at *
      have same : right.declareAll site spine = right := by
        refine declareAll_of_hasDeclared (by rw [← right_eq]; exact bounded) ?_
        intro declaration member
        have before := declared _ _ (idle declaration member)
        rw [← right_eq]
        exact before
      rw [Host.runStep, same]
      exact alike
  | createHandle | detachRef | willUnmount | release | instantiate => exact idle.elim

theorem idles (alike : Alike around left right) (bounded : left.sessions.IsBounded)
    (declared : ∀ context declaration, around.declarations context declaration →
      left.HasDeclared context declaration) {steps : List Step}
    (idle : ∀ step ∈ steps, step.IsIdle around) :
    Alike around left (steps.foldl Host.runStep right) := by
  induction steps generalizing right with
  | nil => exact alike
  | cons step rest ih =>
      exact ih (alike.idle bounded declared (idle step (List.mem_cons_self ..)))
        fun other member => idle other (List.mem_cons_of_mem _ member)

/-- An outcome with idle steps around it comes to the same, but for what lies around. -/
theorem commit {α : Type} {host : Host} {full again : Outcome α} {id : InstanceId}
    {payload : Payload} (alike : Alike around host host) (named : host.Named)
    (bounded : host.sessions.IsBounded)
    (declared : ∀ context declaration, around.declarations context declaration →
      host.HasDeclared context declaration)
    (apart : ¬ around.instances id) (keeps : again.IsApart around fun _ => True)
    (embeds : Mounted.Embeds around id payload full again) :
    Alike around ((host.setPayload id payload).commit again) (host.commit full) := by
  obtain ⟨before, after, idle, idle', rfl⟩ := embeds
  have handed : Step.IsApart around (.receive id payload) := apart
  have received : Alike around (host.setPayload id payload)
      ((before.foldl Host.runStep host).runStep (.receive id payload)) :=
    (alike.idles bounded declared idle).runStep named handed
  have renamed : (host.setPayload id payload).Named := named.runStep (.receive id payload)
  obtain ⟨rendered, named⟩ := received.steps renamed keeps.steps
  have remembers : Remembers host (again.steps.foldl Host.runStep (host.setPayload id payload)) :=
    (Stays.modifyInstance id _ host).toRemembers.trans (.foldl .runStep _ _)
  have finished := rendered.idles (remembers.bounded bounded)
    (fun context declaration known => remembers.hasDeclared (declared context declaration known))
    idle'
  unfold Host.commit
  rw [List.foldl_append, List.foldl_cons, List.foldl_append]
  exact finished.effects named keeps.effects

end Alike

end Host

end RemoteView
