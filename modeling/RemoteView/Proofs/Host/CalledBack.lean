import RemoteView.Host.Component
import RemoteView.Mounted.Plan
import RemoteView.Proofs.Host.Objects

/-! # What calling back changes

Listeners, refs and hooks act on host objects, on the handles under stable keys and on the messages
sent. Everything else about the host is as it was.
-/

namespace RemoteView.Host

theorem context_modifyContext (id other : ContextId) (change : RenderContext → RenderContext)
    (host : Host) : (host.modifyContext id change).context other =
      if other = id then change (host.context id) else host.context other := by
  unfold modifyContext context
  rw [Assoc.get?_insert]
  split <;> rfl

theorem foldl_removeWindowListener (listeners : List (String × ListenerId)) (host : Host) :
    ∃ window, listeners.foldl (fun host (event, listener) =>
      host.removeWindowListener event listener) host = { host with windowListeners := window } := by
  induction listeners generalizing host with
  | nil => exact ⟨_, rfl⟩
  | cons first rest ih =>
      obtain ⟨window, removed⟩ := ih (host.removeWindowListener first.1 first.2)
      exact ⟨window, removed⟩

/-- An instance that unmounts runs its hooks and gives up its window listeners and its path. -/
theorem willUnmount_eq {host : Host} {id : InstanceId} {state : InstanceState}
    (found : host.instances.get? id = some state) (mounted : state.phase = .mounted) :
    ∃ window, host.willUnmount id =
      Host.unregisterMounted state.identity
        { (host.modifyInstance id ({ · with phase := .unmounted, attached := [] })).runHooks
            state.identity state.payload.behaviour.onUnmount with windowListeners := window } := by
  obtain ⟨window, removed⟩ := foldl_removeWindowListener state.attached
    ((host.modifyInstance id ({ · with phase := .unmounted, attached := [] })).runHooks
      state.identity state.payload.behaviour.onUnmount)
  refine ⟨window, ?_⟩
  simp only [willUnmount, found, mounted, if_true]
  rw [removed]

theorem willUnmount_of_not_mounted {host : Host} {id : InstanceId}
    (not : ∀ state, host.instances.get? id = some state → state.phase ≠ .mounted) :
    host.willUnmount id = host := by
  unfold willUnmount
  cases found : host.instances.get? id with
  | none => rfl
  | some state => exact if_neg (not state found)

theorem willUnmount_cases (id : InstanceId) (host : Host) :
    (∃ state, host.instances.get? id = some state ∧ state.phase = .mounted) ∨
      (∀ state, host.instances.get? id = some state → state.phase ≠ .mounted) ∧
        host.willUnmount id = host := by
  by_cases mounted : ∃ state, host.instances.get? id = some state ∧ state.phase = .mounted
  · exact .inl mounted
  · have not : ∀ state, host.instances.get? id = some state → state.phase ≠ .mounted :=
      fun state found phase => mounted ⟨state, found, phase⟩
    exact .inr ⟨not, willUnmount_of_not_mounted not⟩

/-- The second host is the first one after something was called back. -/
structure CalledBack (before after : Host) : Prop where
  objects : before.objects.KeptTagged after.objects
  window : after.window = before.window
  windowListeners : after.windowListeners = before.windowListeners
  styles : after.styles = before.styles
  sessions : after.sessions = before.sessions
  instances : after.instances = before.instances
  current : after.current = before.current
  log : after.log = before.log
  sent : before.sent <+: after.sent
  listeners : ∀ id, (after.context id).listeners = (before.context id).listeners
  refs : ∀ id, (after.context id).refs = (before.context id).refs

namespace CalledBack

variable {before middle after : Host}

theorem refl (host : Host) : CalledBack host host where
  objects := .refl _
  window := rfl
  windowListeners := rfl
  styles := rfl
  sessions := rfl
  instances := rfl
  current := rfl
  log := rfl
  sent := List.prefix_refl _
  listeners _ := rfl
  refs _ := rfl

theorem trans (first : CalledBack before middle) (second : CalledBack middle after) :
    CalledBack before after where
  objects := first.objects.trans second.objects
  window := second.window.trans first.window
  windowListeners := second.windowListeners.trans first.windowListeners
  styles := second.styles.trans first.styles
  sessions := second.sessions.trans first.sessions
  instances := second.instances.trans first.instances
  current := second.current.trans first.current
  log := second.log.trans first.log
  sent := first.sent.trans second.sent
  listeners id := (second.listeners id).trans (first.listeners id)
  refs id := (second.refs id).trans (first.refs id)

theorem foldl {α : Type} {run : Host → α → Host} (one : ∀ host item, CalledBack host (run host item))
    (items : List α) (host : Host) : CalledBack host (items.foldl run host) := by
  induction items generalizing host with
  | nil => exact refl host
  | cons item rest ih => exact (one host item).trans (ih _)

theorem withObjects {host : Host} {objects : Objects} (kept : host.objects.KeptTagged objects) :
    CalledBack host { host with objects := objects } :=
  { refl host with objects := kept }

theorem send (session : SessionId) (message : ClientMessage) (host : Host) :
    CalledBack host (host.send session message) :=
  { refl host with sent := List.prefix_append _ _ }

theorem evaluateIn (context : ContextId) (holes : Assoc UInt32 Value) (e : Expr) (host : Host) :
    CalledBack host (host.evaluateIn context holes e).2 :=
  withObjects (e.keeps_evaluate _ _)

theorem invokeIf (flag : Bool) (method : String) (value : Value) (host : Host) :
    CalledBack host (host.invokeIf flag method value) := by
  unfold Host.invokeIf
  split
  · exact withObjects (Keeps.invoke method [] value _)
  · exact refl host

theorem answerEvent (id : ListenerId) (name : String) (event : Value) (record : EventHandler)
    (host : Host) : CalledBack host (host.answerEvent id name event record) := by
  have invoked := ((invokeIf record.preventDefault "preventDefault" event host).trans
    (invokeIf record.stopPropagation "stopPropagation" event _)).trans
    (invokeIf record.stopImmediatePropagation "stopImmediatePropagation" event _)
  unfold Host.answerEvent
  cases record.action with
  | none => exact invoked
  | some asked => exact invoked.trans (send _ _ _)

theorem fire (id : ListenerId) (event : Value) (host : Host) :
    CalledBack host (host.fire id event) := by
  unfold Host.fire
  cases Assoc.get? (id.path, id.fid) (host.context id.context).listeners with
  | none => exact refl host
  | some behaviour =>
      cases behaviour with
      | forward =>
          simp only
          split
          · exact send _ _ _
          · exact refl host
      | evaluate name handler =>
          simp only
          split
          · have evaluated := evaluateIn id.context [(eventHole, event)] handler host
            generalize host.evaluateIn id.context [(eventHole, event)] handler = answer at *
            obtain ⟨value, host'⟩ := answer
            cases value with
            | eventHandler record => exact evaluated.trans (answerEvent _ _ _ _ _)
            | absent | json | tuple | host | refHandler => exact evaluated
          · exact refl host

theorem answerRef (id : RefId) (answer : Value) (host : Host) :
    CalledBack host (host.answerRef id answer) := by
  unfold Host.answerRef
  split
  · exact send _ _ _
  · exact refl host

theorem withKey (id : RefId) (declared : RefAttribute) (change : String → RefStore → RefStore)
    (host : Host) : CalledBack host (host.withKey id declared change) := by
  unfold Host.withKey
  cases declared.key with
  | none => exact refl host
  | some key =>
      refine { refl host with listeners := fun other => ?_, refs := fun other => ?_ }
      · rw [context_modifyContext]
        split
        · rename_i same
          rw [same]
        · rfl
      · rw [context_modifyContext]
        split
        · rename_i same
          rw [same]
        · rfl

theorem attachRef (id : RefId) (handle : Value) (host : Host) :
    CalledBack host (host.attachRef id handle) := by
  unfold Host.attachRef
  cases Assoc.get? id.path (host.context id.context).refs with
  | none => exact refl host
  | some declared =>
      simp only
      split
      · exact ((withKey _ _ _ _).trans (evaluateIn _ _ _ _)).trans (answerRef _ _ _)
      · exact refl host

theorem detachRef (id : RefId) (host : Host) : CalledBack host (host.detachRef id) := by
  unfold Host.detachRef
  cases Assoc.get? id.path (host.context id.context).refs with
  | none => exact refl host
  | some declared =>
      simp only
      split
      · exact ((withKey _ _ _ _).trans (evaluateIn _ _ _ _)).trans (answerRef _ _ _)
      · exact refl host

theorem setGlobal (name : String) (value : Json) (host : Host) :
    CalledBack host (host.setGlobal name value) := by
  unfold Host.setGlobal
  cases found : host.objects.window? host.window with
  | none => exact refl host
  | some window =>
      refine withObjects (.put fun old there => ?_)
      rw [Objects.window?, there] at found
      cases old with
      | window => exact ⟨rfl, rfl⟩
      | element | event => cases found

theorem runHook (identity : Instance) (host : Host) (hook : Expr) :
    CalledBack host (host.runHook identity hook) :=
  (evaluateIn _ _ _ _).trans (send _ _ _)

theorem runHooks (identity : Instance) (hooks : List Expr) (host : Host) :
    CalledBack host (host.runHooks identity hooks) :=
  foldl (runHook identity) hooks host

end CalledBack

theorem instances_willUnmount {host : Host} {id : InstanceId} {state : InstanceState}
    (found : host.instances.get? id = some state) (mounted : state.phase = .mounted) :
    (host.willUnmount id).instances =
      (host.modifyInstance id ({ · with phase := .unmounted, attached := [] })).instances := by
  obtain ⟨window, same⟩ := willUnmount_eq found mounted
  rw [same]
  exact (CalledBack.runHooks _ _ _).instances

theorem setGlobal_eq (name : String) (value : Json) (host : Host) :
    ∃ objects, host.setGlobal name value = { host with objects := objects } := by
  unfold setGlobal
  split
  · exact ⟨_, rfl⟩
  · exact ⟨host.objects, rfl⟩

theorem contexts_fire (id : ListenerId) (event : Value) (host : Host) :
    (host.fire id event).contexts = host.contexts := by
  have invoked (flag : Bool) (method : String) (value : Value) (host : Host) :
      (host.invokeIf flag method value).contexts = host.contexts := by
    unfold invokeIf
    split <;> rfl
  have answered (name : String) (record : EventHandler) (host : Host) :
      (host.answerEvent id name event record).contexts = host.contexts := by
    unfold answerEvent
    split <;> simp [send, invoked]
  unfold fire
  split
  · rfl
  · split <;> rfl
  · split
    · split
      · rename_i record after found
        rw [answered]
        exact (congrArg (fun answer => answer.2.contexts) found).symm
      · rename_i value after _ found
        exact (congrArg (fun answer => answer.2.contexts) found).symm
    · rfl

end RemoteView.Host
