import RemoteView.Proofs.Host.Standing
import RemoteView.Proofs.Mounted.Handles

/-! # What has been declared

A declaration stays in force from when it was made, and making it again changes nothing. Of what
happens to the host only two things reach further than that: a new element has a handle, and a ref
that is attached may store it.
-/

namespace RemoteView

namespace Assoc

variable {κ α : Type} [DecidableEq κ]

theorem insert_of_get? {key : κ} {value : α} {entries : Assoc κ α}
    (stored : get? key entries = some value) : insert key value entries = entries := by
  induction entries with
  | nil => simp at stored
  | cons entry rest ih =>
      obtain ⟨first, inner⟩ := entry
      by_cases same : first = key
      · subst same
        obtain rfl : inner = value := by simpa [get?] using stored
        simp [insert]
      · rw [insert, if_neg same, ih (by simpa [get?, same] using stored)]

theorem insertNew_of_contains {key : κ} (value : α) {entries : Assoc κ α}
    (there : contains key entries = true) : insertNew key value entries = entries := by
  rw [insertNew, if_pos there]

theorem contains_insertNew (key k : κ) (value : α) (entries : Assoc κ α) :
    contains k (insertNew key value entries) = (decide (k = key) || contains k entries) := by
  unfold contains
  rw [get?_insertNew]
  by_cases same : k = key
  · simp [same]
  · simp [same]

theorem mem_of_get? {key : κ} {value : α} {entries : Assoc κ α}
    (found : get? key entries = some value) : (key, value) ∈ entries := by
  induction entries with
  | nil => simp at found
  | cons entry rest ih =>
      obtain ⟨first, inner⟩ := entry
      unfold get? at found
      split at found
      · rename_i same
        obtain rfl := Option.some.inj found
        subst same
        exact List.mem_cons_self ..
      · exact List.mem_cons_of_mem _ (ih found)

theorem mem_insert {key : κ} {value : α} {entries : Assoc κ α} {entry : κ × α}
    (member : entry ∈ insert key value entries) : entry = (key, value) ∨ entry ∈ entries := by
  induction entries with
  | nil => exact .inl (List.mem_singleton.mp member)
  | cons first rest ih =>
      obtain ⟨other, inner⟩ := first
      unfold insert at member
      split at member
      · rename_i same
        subst same
        rcases List.mem_cons.mp member with here | there
        · exact .inl here
        · exact .inr (List.mem_cons_of_mem _ there)
      · rcases List.mem_cons.mp member with here | there
        · exact .inr (by rw [here]; exact List.mem_cons_self ..)
        · exact (ih there).imp_right (List.mem_cons_of_mem _)

theorem mem_of_mem_erase {key : κ} {entries : Assoc κ α} {entry : κ × α}
    (member : entry ∈ erase key entries) : entry ∈ entries := by
  induction entries with
  | nil => simp [erase] at member
  | cons first rest ih =>
      obtain ⟨other, inner⟩ := first
      unfold erase at member
      split at member
      · exact List.mem_cons_of_mem _ member
      · rcases List.mem_cons.mp member with rfl | there
        · exact List.mem_cons_self ..
        · exact List.mem_cons_of_mem _ (ih there)

end Assoc

theorem Numbered.put_of_get? {α : Type} {store : Numbered α} (bounded : store.IsBounded)
    {number : Nat} {entry : α} (found : store.get? number = some entry) :
    store.put number entry = store := by
  have small := bounded number entry found
  unfold put
  rw [Assoc.insert_of_get? found, Nat.max_eq_left small]

namespace RuleCompiler

theorem emitAll_of_seen {compiler : RuleCompiler} {descriptors : List StyleDescriptor}
    (seen : ∀ descriptor ∈ descriptors, descriptor.hash ∈ compiler.seen) :
    compiler.emitAll descriptors = compiler := by
  induction descriptors with
  | nil => rfl
  | cons first rest ih =>
      obtain ⟨here, there⟩ := List.forall_mem_cons.mp seen
      unfold emitAll
      rw [List.foldl_cons, emit, if_pos here]
      exact ih there

theorem seen_emit (compiler : RuleCompiler) (descriptor : StyleDescriptor) :
    compiler.seen ⊆ (compiler.emit descriptor).seen ∧
      descriptor.hash ∈ (compiler.emit descriptor).seen := by
  unfold emit
  split
  · rename_i there
    exact ⟨fun _ member => member, there⟩
  · exact ⟨fun _ member => List.mem_append_left _ member, by simp⟩

theorem seen_emitAll (compiler : RuleCompiler) (descriptors : List StyleDescriptor) :
    compiler.seen ⊆ (compiler.emitAll descriptors).seen ∧
      ∀ descriptor ∈ descriptors, descriptor.hash ∈ (compiler.emitAll descriptors).seen := by
  induction descriptors generalizing compiler with
  | nil => exact ⟨fun _ member => member, by simp⟩
  | cons first rest ih =>
      obtain ⟨old, new⟩ := ih (compiler.emit first)
      obtain ⟨before, here⟩ := seen_emit compiler first
      refine ⟨fun _ member => old (before member), fun descriptor member => ?_⟩
      rcases List.mem_cons.mp member with rfl | later
      · exact old here
      · exact new descriptor later

end RuleCompiler

namespace Host

/-- Has a declaration been made in a context? -/
def HasDeclared (host : Host) (context : ContextId) : Declaration → Prop
  | .listener path declared =>
      Assoc.contains (path, declared.fid) (host.context context).listeners = true
  | .ref path _ => Assoc.contains path (host.context context).refs = true
  | .rules descriptors => ∀ descriptor ∈ descriptors, descriptor.hash ∈ host.styles.seen
  | .component id _ => ∀ session, host.sessions.get? context.session = some session →
      Assoc.contains id session.components = true

theorem modifyContext_of_same {host : Host} {context : ContextId}
    {change : RenderContext → RenderContext} (there : Assoc.contains context host.contexts = true)
    (same : change (host.context context) = host.context context) :
    host.modifyContext context change = host := by
  obtain ⟨stored, found⟩ := Option.isSome_iff_exists.mp there
  have current : host.context context = stored := by simp [Host.context, found]
  unfold modifyContext
  rw [same, current, Assoc.insert_of_get? found]

theorem contains_context {host : Host} {context : ContextId}
    (notEmpty : host.context context ≠ .empty) :
    Assoc.contains context host.contexts = true := by
  unfold Assoc.contains
  cases found : Assoc.get? context host.contexts with
  | none => exact absurd (by simp [Host.context, found]) notEmpty
  | some stored => rfl

theorem declare_of_hasDeclared {host : Host} (bounded : host.sessions.IsBounded)
    {context : ContextId} {declaration : Declaration}
    (declared : host.HasDeclared context declaration) :
    host.declare context declaration = host := by
  cases declaration with
  | listener path inner =>
      have there : Assoc.contains (path, inner.fid) (host.context context).listeners = true :=
        declared
      refine modifyContext_of_same (contains_context ?_) ?_
      · intro empty
        rw [empty] at there
        cases there
      · rw [RenderContext.listener, Assoc.insertNew_of_contains _ there]
  | ref path inner =>
      have there : Assoc.contains path (host.context context).refs = true := declared
      refine modifyContext_of_same (contains_context ?_) ?_
      · intro empty
        rw [empty] at there
        cases there
      · rw [RenderContext.ref, Assoc.insertNew_of_contains _ there]
  | rules descriptors =>
      simp only [declare, RuleCompiler.emitAll_of_seen declared]
  | component id name =>
      simp only [declare, modifySession, Numbered.modify]
      cases found : host.sessions.get? context.session with
      | none => rfl
      | some session =>
          simp only [Assoc.insertNew_of_contains name (declared session found)]
          rw [Numbered.put_of_get? bounded found]

theorem declareAll_of_hasDeclared {host : Host} (bounded : host.sessions.IsBounded) {site : Site}
    {spine : Spine} (declared : ∀ declaration ∈ spine.declarations site.path,
      host.HasDeclared site.context declaration) : host.declareAll site spine = host := by
  unfold declareAll
  generalize spine.declarations site.path = list at declared ⊢
  induction list with
  | nil => rfl
  | cons first rest ih =>
      obtain ⟨here, there⟩ := List.forall_mem_cons.mp declared
      rw [List.foldl_cons, declare_of_hasDeclared bounded here]
      exact ih there

/-! ## Declarations stay in force -/

/-- Everything that had been declared still is, and what was sent has been sent. -/
structure Remembers (before after : Host) : Prop where
  current : after.current = before.current
  sent : before.sent <+: after.sent
  listeners : ∀ context key, Assoc.contains key (before.context context).listeners = true →
    Assoc.contains key (after.context context).listeners = true
  refs : ∀ context key, Assoc.contains key (before.context context).refs = true →
    Assoc.contains key (after.context context).refs = true
  styles : before.styles.seen ⊆ after.styles.seen
  components : ∀ id session, after.sessions.get? id = some session →
    ∃ was, before.sessions.get? id = some was ∧
      ∀ key, Assoc.contains key was.components = true → Assoc.contains key session.components = true
  bounded : before.sessions.IsBounded → after.sessions.IsBounded

/-- Besides, every object is still there, and no handle was stored. -/
structure Stays (before after : Host) : Prop extends Remembers before after where
  objects : before.objects.KeptTagged after.objects
  window : after.window = before.window
  stored : ∀ context, (after.context context).handles ⊆ (before.context context).handles

namespace Remembers

variable {before middle after : Host}

theorem trans (first : Remembers before middle) (second : Remembers middle after) :
    Remembers before after where
  current := second.current.trans first.current
  sent := first.sent.trans second.sent
  listeners context key there := second.listeners context key (first.listeners context key there)
  refs context key there := second.refs context key (first.refs context key there)
  styles _ member := second.styles (first.styles member)
  components id session found := by
    obtain ⟨inner, there, keeps⟩ := second.components id session found
    obtain ⟨was, stored, keeps'⟩ := first.components id inner there
    exact ⟨was, stored, fun key known => keeps key (keeps' key known)⟩
  bounded bounded := second.bounded (first.bounded bounded)

theorem hasDeclared (remembers : Remembers before after) {context : ContextId}
    {declaration : Declaration} (declared : before.HasDeclared context declaration) :
    after.HasDeclared context declaration := by
  cases declaration with
  | listener path inner => exact remembers.listeners context _ declared
  | ref path inner => exact remembers.refs context _ declared
  | rules descriptors => exact fun descriptor member => remembers.styles (declared descriptor member)
  | component id name =>
      intro session found
      obtain ⟨was, stored, keeps⟩ := remembers.components _ session found
      exact keeps id (declared was stored)

theorem of_calledBack (called : CalledBack before after) : Remembers before after where
  current := called.current
  sent := called.sent
  listeners context key there := by rwa [called.listeners]
  refs context key there := by rwa [called.refs]
  styles _ member := by rwa [called.styles]
  components id session found := by
    rw [called.sessions] at found
    exact ⟨session, found, fun _ there => there⟩
  bounded bounded := by rwa [called.sessions]

end Remembers

namespace Stays

variable {before middle after : Host}

theorem of_same (contexts : after.contexts = before.contexts) (styles : after.styles = before.styles)
    (sessions : after.sessions = before.sessions)
    (objects : before.objects.KeptTagged after.objects)
    (window : after.window = before.window) (current : after.current = before.current)
    (sent : before.sent <+: after.sent) : Stays before after where
  current := current
  sent := sent
  listeners context key there := by rwa [Host.context, contexts]
  refs context key there := by rwa [Host.context, contexts]
  styles _ member := by rwa [styles]
  components id session found := by
    rw [sessions] at found
    exact ⟨session, found, fun _ there => there⟩
  bounded bounded := by rwa [sessions]
  objects := objects
  window := window
  stored context entry member := by
    rwa [Host.context, contexts] at member

theorem refl (host : Host) : Stays host host := of_same rfl rfl rfl (.refl _) rfl rfl (List.prefix_refl _)

theorem trans (first : Stays before middle) (second : Stays middle after) : Stays before after where
  toRemembers := first.toRemembers.trans second.toRemembers
  objects := first.objects.trans second.objects
  window := second.window.trans first.window
  stored context _ member := first.stored context (second.stored context member)

theorem foldl {α : Type} {run : Host → α → Host} (one : ∀ host item, Stays host (run host item))
    (items : List α) (host : Host) : Stays host (items.foldl run host) := by
  induction items generalizing host with
  | nil => exact refl host
  | cons item rest ih => exact (one host item).trans (ih _)

theorem modifyContext (context : ContextId) (change : RenderContext → RenderContext)
    (listeners : ∀ inner key, Assoc.contains key inner.listeners = true →
      Assoc.contains key (change inner).listeners = true)
    (refs : ∀ inner key, Assoc.contains key inner.refs = true →
      Assoc.contains key (change inner).refs = true)
    (stored : ∀ inner, (change inner).handles ⊆ inner.handles) (host : Host) :
    Stays host (host.modifyContext context change) :=
  { refl host with
    listeners := by
      intro other key there
      rw [context_modifyContext]
      split
      · rename_i same
        exact listeners _ key (same ▸ there)
      · exact there
    refs := by
      intro other key there
      rw [context_modifyContext]
      split
      · rename_i same
        exact refs _ key (same ▸ there)
      · exact there
    stored := by
      intro other entry member
      rw [context_modifyContext] at member
      split at member
      · rename_i same
        rw [same]
        exact stored _ member
      · exact member }

theorem modifyInstance (id : InstanceId) (change : InstanceState → InstanceState) (host : Host) :
    Stays host (host.modifyInstance id change) :=
  of_same rfl rfl rfl (.refl _) rfl rfl (List.prefix_refl _)

theorem modifySession (id : SessionId) (change : Session → Session)
    (components : ∀ session key, Assoc.contains key session.components = true →
      Assoc.contains key (change session).components = true) (host : Host) :
    Stays host (host.modifySession id change) :=
  { refl host with
    components := by
      intro other session found
      simp only [Host.modifySession, Numbered.get?_modify] at found
      split at found
      · obtain ⟨was, stored, rfl⟩ := Option.map_eq_some_iff.mp found
        exact ⟨was, stored, fun key there => components was key there⟩
      · exact ⟨session, found, fun _ there => there⟩
    bounded := fun bounded => bounded.modify id change }

theorem declare (context : ContextId) (host : Host) (declaration : Declaration) :
    Stays host (host.declare context declaration) := by
  cases declaration with
  | listener path inner =>
      refine modifyContext context
        (.listener path inner.fid (.evaluate inner.event inner.handler))
        (fun inner key there => ?_) (fun _ _ there => there) (fun _ _ member => member) host
      rw [RenderContext.listener, Assoc.contains_insertNew, there, Bool.or_true]
  | ref path inner =>
      refine modifyContext context (.ref path inner) (fun _ _ there => there)
        (fun inner key there => ?_) (fun _ _ member => member) host
      rw [RenderContext.ref, Assoc.contains_insertNew, there, Bool.or_true]
  | rules descriptors =>
      exact { refl host with styles := (host.styles.seen_emitAll descriptors).1 }
  | component id name =>
      refine modifySession context.session _ (fun session key there => ?_) host
      rw [Assoc.contains_insertNew, there, Bool.or_true]

theorem declareAll (site : Site) (spine : Spine) (host : Host) :
    Stays host (host.declareAll site spine) :=
  foldl (declare site.context) _ host

theorem evaluateIn (context : ContextId) (holes : Assoc UInt32 Value) (e : Expr) (host : Host) :
    Stays host (host.evaluateIn context holes e).2 :=
  of_same rfl rfl rfl (e.keeps_evaluate _ _) rfl rfl (List.prefix_refl _)

theorem send (session : SessionId) (message : ClientMessage) (host : Host) :
    Stays host (host.send session message) :=
  of_same rfl rfl rfl (.refl _) rfl rfl (List.prefix_append _ _)

theorem runHooks (identity : Instance) (hooks : List Expr) (host : Host) :
    Stays host (host.runHooks identity hooks) :=
  foldl (fun _ _ => (evaluateIn _ _ _ _).trans (send _ _ _)) hooks host

theorem detachRef (id : RefId) (host : Host) : Stays host (host.detachRef id) := by
  have erased (declared : RefAttribute) :
      Stays host (host.withKey id declared fun key => Assoc.erase key) := by
    unfold withKey
    split
    · rename_i key _
      exact modifyContext id.context
        (fun context => { context with handles := Assoc.erase key context.handles })
        (fun _ _ there => there) (fun _ _ there => there)
        (fun _ _ member => Assoc.mem_of_mem_erase member) host
    · exact refl host
  have answered (answer : Value) (host : Host) : Stays host (host.answerRef id answer) := by
    unfold answerRef
    split
    · exact send _ _ _
    · exact refl host
  unfold Host.detachRef
  split
  · exact refl host
  · split
    · exact ((erased _).trans (evaluateIn _ _ _ _)).trans (answered _ _)
    · exact refl host

theorem registerMounted (identity : Instance) (host : Host) :
    Stays host (host.registerMounted identity) := by
  have entered := modifySession identity.session
    (fun session => { session with
      mounted := Assoc.insert identity.path.key identity.id session.mounted })
    (fun _ _ there => there) host
  obtain ⟨_, same⟩ := registerMounted_eq identity host
  rw [same]
  exact entered.trans (of_same rfl rfl rfl (.refl _) rfl rfl (List.prefix_refl _))

theorem unregisterMounted (identity : Instance) (host : Host) :
    Stays host (host.unregisterMounted identity) := by
  refine modifySession identity.session _ (fun session key there => ?_) host
  split <;> exact there

theorem attachListener (identity : Instance) (host : Host) (declared : WindowListener) :
    Stays host (host.attachListener identity declared) := by
  have entered := modifyContext identity.context
    (.listener identity.path declared.fid declared.behaviour)
    (fun inner key there => by
      rw [RenderContext.listener, Assoc.contains_insertNew, there, Bool.or_true])
    (fun _ _ there => there) (fun _ _ member => member) host
  exact entered.trans (of_same rfl rfl rfl (.refl _) rfl rfl (List.prefix_refl _))

theorem didMount (id : InstanceId) (host : Host) : Stays host (host.didMount id) := by
  unfold Host.didMount
  split
  · exact refl host
  · simp only
    split
    · refine .trans ?_ (foldl (attachListener _) _ _)
      refine .trans ?_ (runHooks _ _ _)
      exact (modifyInstance id _ host).trans (registerMounted _ _)
    · exact refl host

theorem willUnmount (id : InstanceId) (host : Host) : Stays host (host.willUnmount id) := by
  unfold Host.willUnmount
  split
  · exact refl host
  · simp only
    split
    · have removed (host : Host) (entry : String × ListenerId) :
          Stays host (host.removeWindowListener entry.1 entry.2) :=
        of_same rfl rfl rfl (.refl _) rfl rfl (List.prefix_refl _)
      refine .trans ?_ (unregisterMounted _ _)
      refine .trans ?_ (foldl removed _ _)
      exact (modifyInstance id _ host).trans (runHooks _ _ _)
    · exact refl host

theorem runStep (host : Host) {step : Step} (none : step.created? = none) :
    Stays host (host.runStep step) := by
  cases step with
  | createHandle handle tag props => cases none
  | syncHandle handle props =>
      exact of_same rfl rfl rfl (.modifyElement _ handle _ fun _ => rfl) rfl rfl (List.prefix_refl _)
  | release | instantiate | receive => exact of_same rfl rfl rfl (.refl _) rfl rfl (List.prefix_refl _)
  | detachRef id => exact detachRef id host
  | willUnmount id => exact willUnmount id host
  | declare site spine => exact declareAll site spine host

end Stays

namespace Remembers

theorem runStep (host : Host) (step : Step) : Remembers host (host.runStep step) := by
  cases step with
  | createHandle handle tag props => exact { Stays.refl host with }
  | syncHandle | release | instantiate | receive | detachRef | willUnmount | declare =>
      exact (Stays.runStep host rfl).toRemembers

theorem runEffect (host : Host) (effect : Effect) : Remembers host (host.runEffect effect) := by
  cases effect with
  | attachRef id handle => exact of_calledBack (.attachRef id (.host handle) host)
  | didMount id => exact (Stays.didMount id host).toRemembers

theorem foldl {α : Type} {run : Host → α → Host}
    (one : ∀ host item, Remembers host (run host item)) (items : List α) (host : Host) :
    Remembers host (items.foldl run host) := by
  induction items generalizing host with
  | nil => exact (Stays.refl host).toRemembers
  | cons item rest ih => exact (one host item).trans (ih _)

theorem commit {α : Type} (outcome : Outcome α) (host : Host) :
    Remembers host (host.commit outcome) :=
  (foldl runStep _ _).trans (foldl runEffect _ _)

end Remembers

/-! ## What is declared by a rendering -/

theorem hasDeclared_declare (context : ContextId) (host : Host) (declaration : Declaration) :
    (host.declare context declaration).HasDeclared context declaration := by
  cases declaration with
  | listener path inner =>
      simp [HasDeclared, declare, context_modifyContext, RenderContext.listener,
        Assoc.contains_insertNew]
  | ref path inner =>
      simp [HasDeclared, declare, context_modifyContext, RenderContext.ref,
        Assoc.contains_insertNew]
  | rules descriptors => exact (host.styles.seen_emitAll descriptors).2
  | component id name =>
      intro session found
      simp only [declare, modifySession, Numbered.get?_modify, if_true] at found
      obtain ⟨was, -, rfl⟩ := Option.map_eq_some_iff.mp found
      simp [Assoc.contains_insertNew]

theorem hasDeclared_declareAll (site : Site) (spine : Spine) (host : Host) :
    ∀ declaration ∈ spine.declarations site.path,
      (host.declareAll site spine).HasDeclared site.context declaration := by
  unfold declareAll
  generalize spine.declarations site.path = list
  induction list generalizing host with
  | nil => simp
  | cons first rest ih =>
      intro declaration member
      rcases List.mem_cons.mp member with rfl | later
      · exact (Stays.foldl (Stays.declare site.context) rest _).hasDeclared
          (hasDeclared_declare site.context host declaration)
      · exact ih _ declaration later

/-- What is declared on the way has been declared when the outcome is committed. -/
theorem hasDeclared_commit {α : Type} {outcome : Outcome α} {site : Site} {spine : Spine}
    (member : .declare site spine ∈ outcome.steps) (host : Host) :
    ∀ declaration ∈ spine.declarations site.path,
      (host.commit outcome).HasDeclared site.context declaration := by
  intro declaration declared
  obtain ⟨before, after, split⟩ := List.append_of_mem member
  rw [commit, split, List.foldl_append, List.foldl_cons]
  exact ((Remembers.foldl Remembers.runStep after _).trans
    (Remembers.foldl Remembers.runEffect _ _)).hasDeclared
      (hasDeclared_declareAll site spine _ declaration declared)

end Host

end RemoteView
