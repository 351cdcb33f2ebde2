import RemoteView.Proofs.Host.Attending
import RemoteView.Proofs.Spine.Own

/-! # Hooks

An instance that is mounted is entered into the table of its session before its hooks are evaluated,
one after another, in its context. Nothing that is declared or stored changes meanwhile, so a stable
key reaches what was stored under it before. What is declared for the refs of a new instance is what
its content declares.
-/

namespace RemoteView

namespace Host

/-- The host in which the hooks of an instance begin when it is told that it is mounted. -/
def entering (identity : Instance) (host : Host) : Host :=
  (host.modifyInstance identity.id fun state =>
    { state with phase := .mounted }).registerMounted identity

/-- The host in which the hooks of an instance begin when it is told that it will be unmounted. -/
def leaving (identity : Instance) (host : Host) : Host :=
  host.modifyInstance identity.id fun state => { state with phase := .unmounted, attached := [] }

theorem didMount_eq_runHooks {host : Host} {identity : Instance} {payload : Payload}
    (waits : host.HasCreated identity payload) :
    host.didMount identity.id = payload.behaviour.listeners.foldl (attachListener identity)
      ((host.entering identity).runHooks identity payload.behaviour.onMount) := by
  obtain ⟨state, found, rfl, rfl, created⟩ := waits
  simp only [didMount, found, created, if_true]
  rfl

/-- An instance that is mounted evaluates its hooks before it takes its window listeners away and
    leaves the table. -/
theorem willUnmount_eq_runHooks {host : Host} {state : InstanceState}
    (found : host.instances.get? state.identity.id = some state) (mounted : state.phase = .mounted) :
    host.willUnmount state.identity.id = (state.attached.foldl
      (fun host (event, listener) => host.removeWindowListener event listener)
      ((host.leaving state.identity).runHooks state.identity
        state.payload.behaviour.onUnmount)).unregisterMounted state.identity := by
  simp only [willUnmount, found, mounted, if_true]
  rfl

/-- While the hooks of an instance are evaluated a stable key reaches what was stored under it
    before, whatever they have done to objects. -/
theorem deref_entering (identity : Instance) (done : List Expr) (host : Host)
    (holes : Assoc UInt32 Value) (objects : Objects) (context : ContextId) (key : String) :
    ({ (host.entering identity).runHooks identity done with objects := objects }.evaluateIn context
      holes (.deref key)).1 = (host.stored? (context, key)).getD .absent := by
  have contexts : ((host.entering identity).runHooks identity done).contexts = host.contexts := by
    rw [contexts_runHooks, entering, contexts_registerMounted]
    rfl
  rw [evaluateIn_deref]
  simp only [stored?, Host.context, contexts]

/-- For the refs of instances that have not been created nothing is declared. -/
def NoRefsAhead (host : Host) : Prop :=
  ∀ (id : RefId) (n : InstanceId), id.context.instance? = some n →
    host.instances.next ≤ n → host.ref? id = none

end Host

namespace RefId

theorem saidBy_eq_none (id : RefId) {pair : ContextId × Declaration}
    (elsewhere : pair.1 ≠ id.context) : id.saidBy pair = none := by
  obtain ⟨context, declaration⟩ := pair
  cases declaration with
  | ref path declared => exact if_neg fun both => elsewhere both.1
  | listener | rules | component => rfl

theorem firstIn_eq_none {id : RefId} {declarations : List (ContextId × Declaration)}
    (elsewhere : ∀ pair ∈ declarations, pair.1 ≠ id.context) : id.firstIn declarations = none :=
  List.findSome?_eq_none_iff.mpr fun pair among => id.saidBy_eq_none (elsewhere pair among)

end RefId

namespace Turnover

variable {α : Type} {session : SessionId} {host : Host} {before after : List Instance}
  {again : List InstanceId} {outcome : Outcome α} {finish : Supply}

theorem noRefsAhead_commit (turnover : Turnover session host.supply before after outcome.steps
    outcome.effects finish) (settled : host.Settled before)
    (declares : Mounted.DeclaresContents again outcome.steps)
    (old : ∀ n ∈ again, n < host.instances.next) (nothing : host.NoRefsAhead) :
    (host.commit outcome).NoRefsAhead := by
  intro id n own ahead
  have notDeclared := turnover.not_declared settled declares old ahead
  have silent : id.firstIn (Step.declarations outcome.steps) = none :=
    RefId.firstIn_eq_none fun pair among same =>
      notDeclared (Step.mem_declarers_of_declared among (by rw [same, own]))
  rw [Host.ref?_commit, silent, Option.or_none]
  exact nothing id n own (Nat.le_trans (Host.next_le_commit host outcome) ahead)

/-- The refs of an instance that is created are declared as its content has them. -/
theorem ref?_of_created {steps : List Step} {effects : List Effect}
    (turnover : Turnover session host.supply before after steps effects finish)
    (settled : host.Settled before) (declares : Mounted.DeclaresContents again steps)
    (old : ∀ n ∈ again, n < host.instances.next) (nothing : host.NoRefsAhead)
    {identity : Instance} {payload : Payload} (created : .instantiate identity payload ∈ steps)
    (names : payload.content.NamesElements) {entry : List UInt32 × String × List Attribute}
    (member : entry ∈ payload.content.ownElements) {declared : RefAttribute}
    (here : declared ∈ Attribute.refs entry.2.2) :
    (steps.foldl Host.runStep host).ref? ⟨identity.context, identity.path.descend entry.1⟩ =
      some declared := by
  have isNew := Step.mem_instantiations.mpr ⟨payload, created⟩
  have new : host.instances.next ≤ identity.id := turnover.le_of_created isNew
  have once := List.nodup_iff_count.mp turnover.nodup_instantiations identity.id
  let id : RefId := ⟨identity.context, identity.path.descend entry.1⟩
  have content : id.firstIn (Step.declarations steps) =
      id.firstIn (payload.content.declaredAt identity.site) :=
    Host.findSome?_of_created declares created once (turnover.not_received settled new)
      (fun among => Nat.not_lt_of_le new (old _ among)) fun _ elsewhere =>
        id.saidBy_eq_none elsewhere
  rw [Host.ref?_steps, nothing _ identity.id rfl new, Option.none_or, content]
  exact names.firstIn_declaredAt member here identity.site

end Turnover

end RemoteView
