import RemoteView.Client.User
import RemoteView.Proofs.Host.Settled
import RemoteView.Proofs.Mounted.Refs

/-! # Calls of the renderer

There are four ways in which the trees change: a spine is rendered in the body, spines are rendered
in the head, the content of an instance is rendered again, and everything gives way to what is shown
while there is no connection. Each is a list of deeds on the host and a turnover of the instances of
both trees, so a settled host stays settled.
-/

namespace RemoteView

/-- Something that a rendering does. -/
inductive Deed where
  | step (step : Step)
  | effect (effect : Effect)

namespace Deed

/-- The steps among deeds. -/
def steps (deeds : List Deed) : List Step :=
  deeds.filterMap fun
    | .step one => some one
    | .effect _ => none

/-- The effects among deeds. -/
def effects (deeds : List Deed) : List Effect :=
  deeds.filterMap fun
    | .step _ => none
    | .effect one => some one

@[simp] theorem steps_nil : steps [] = [] := rfl

@[simp] theorem effects_nil : effects [] = [] := rfl

@[simp] theorem steps_append (left right : List Deed) :
    steps (left ++ right) = steps left ++ steps right :=
  List.filterMap_append

@[simp] theorem effects_append (left right : List Deed) :
    effects (left ++ right) = effects left ++ effects right :=
  List.filterMap_append

theorem mem_steps {deeds : List Deed} {one : Step} : one ∈ steps deeds ↔ .step one ∈ deeds := by
  rw [steps, List.mem_filterMap]
  constructor
  · rintro ⟨deed, member, isThis⟩
    cases deed <;> simp_all
  · exact fun member => ⟨_, member, rfl⟩

/-- The instances that are created. -/
def instantiations (deeds : List Deed) : List Instance := Step.instantiations (steps deeds)

/-- The instances that are handed a payload. -/
def receivers (deeds : List Deed) : List InstanceId := Step.receivers (steps deeds)

/-- The instances that are told that they will be unmounted. -/
def unmounts (deeds : List Deed) : List InstanceId := Step.unmounts (steps deeds)

/-- The instances that are told that they are mounted. -/
def mounts (deeds : List Deed) : List InstanceId := Effect.mounts (effects deeds)

end Deed

/-- The deeds that an outcome comes to: all steps, then all effects. -/
def Outcome.deeds {α : Type} (outcome : Outcome α) : List Deed :=
  outcome.steps.map .step ++ outcome.effects.map .effect

@[simp] theorem Outcome.steps_deeds {α : Type} (outcome : Outcome α) :
    Deed.steps outcome.deeds = outcome.steps := by
  simp [Deed.steps, deeds, List.filterMap_map]

@[simp] theorem Outcome.effects_deeds {α : Type} (outcome : Outcome α) :
    Deed.effects outcome.deeds = outcome.effects := by
  simp [Deed.effects, deeds, List.filterMap_map]

namespace Host

def runDeed (host : Host) : Deed → Host
  | .step step => host.runStep step
  | .effect effect => host.runEffect effect

theorem commit_eq_foldl {α : Type} (host : Host) (outcome : Outcome α) :
    host.commit outcome = outcome.deeds.foldl runDeed host := by
  simp only [commit, Outcome.deeds, List.foldl_append, List.foldl_map, runDeed]

end Host

inductive RenderCall where
  | body (session : SessionId) (spine : Spine)
  | head (session : SessionId) (spines : List Spine)
  | update (id : InstanceId)
  | loading

namespace Client

/-- The instances in the body and in the head. -/
def instances (client : Client) : List Instance :=
  client.body.instances ++ Mounted.childInstances client.head

theorem instances_eq_flatMap (client : Client) :
    client.instances = (client.body :: client.head).flatMap Mounted.instances :=
  Mounted.childInstances_eq_flatMap (client.body :: client.head)

/-- Make a call of the renderer. -/
def render (call : RenderCall) (client : Client) : Client :=
  match call with
  | .body session spine => client.renderBody session spine
  | .head session spines => client.renderHead session spines
  | .update id =>
      match client.host.instances.get? id with
      | some state => client.renderInstance state
      | none => client
  | .loading => client.showLoading

/-- The deeds of rendering the content of an instance again. -/
def updateDeeds (state : InstanceState) (client : Client) : List Deed :=
  let id := state.identity.id
  let content := state.payload.content
  if client.body.holds id then
    (Mounted.rerender id content client.body client.host.supply).deeds
  else if Mounted.anyHolds id client.head then
    (Mounted.rerenderFirst id content client.head client.host.supply).deeds
  else []

def deeds (call : RenderCall) (client : Client) : List Deed :=
  match call with
  | .body session spine =>
      (Mounted.reconcile (.root session) client.body spine client.host.supply).deeds
  | .head session spines =>
      (Mounted.reconcileAll (.root session) client.head spines client.host.supply).deeds
  | .update id =>
      match client.host.instances.get? id with
      | some state => client.updateDeeds state
      | none => []
  | .loading =>
      let emptied := client.reconcileHead (.root 0) []
      (Mounted.reconcileAll (.root 0) client.head [] client.host.supply).deeds ++
        (Mounted.reconcile (.root 0) client.body loadingSpine emptied.host.supply).deeds

/-- The session in which a call renders. Without a connection there is none. -/
def sessionOf (call : RenderCall) (client : Client) : Option SessionId :=
  match call with
  | .body session _ => some session
  | .head session _ => some session
  | .update id => (client.host.instances.get? id).map fun state => state.identity.session
  | .loading => none

theorem objects_declareAll (site : Site) (spine : Spine) (host : Host) :
    (host.declareAll site spine).objects = host.objects := by
  unfold Host.declareAll
  induction spine.declarations site.path generalizing host with
  | nil => rfl
  | cons declaration rest ih =>
      rw [List.foldl_cons, ih]
      cases declaration <;> rfl

theorem supply_declareAll (site : Site) (spine : Spine) (host : Host) :
    (host.declareAll site spine).supply = host.supply := by
  simp only [Host.supply, objects_declareAll, Host.instances_declareAll]

theorem supply_declareEach (site : Site) (spines : List Spine) (host : Host) :
    (spines.foldl (fun host spine => host.declareAll site spine) host).supply = host.supply := by
  induction spines generalizing host with
  | nil => rfl
  | cons spine rest ih => rw [List.foldl_cons, ih, supply_declareAll]

/-- The host when the deeds of a call begin: what the spines declare has been taken note of, and an
    instance that is not mounted has been reported. -/
def prepared (call : RenderCall) (client : Client) : Host :=
  match call with
  | .body session spine => client.host.declareAll (.root session) spine
  | .head session spines =>
      spines.foldl (fun host spine => host.declareAll (.root session) spine) client.host
  | .update id =>
      match client.host.instances.get? id with
      | some state =>
          if client.body.holds state.identity.id ∨ Mounted.anyHolds state.identity.id client.head
          then client.host
          else client.host.report (.componentNotFound state.identity.path)
      | none => client.host
  | .loading => client.host

/-- What declaring and reporting preserve holds when the deeds of a call begin. -/
@[elab_as_elim]
theorem prepared_induction {P : Host → Prop} (call : RenderCall) {client : Client}
    (holds : P client.host)
    (declared : ∀ site spine host, P host → P (host.declareAll site spine))
    (reported : ∀ notice host, P host → P (host.report notice)) : P (client.prepared call) := by
  cases call with
  | body session spine => exact declared _ _ _ holds
  | head session spines =>
      unfold prepared
      generalize client.host = host at holds ⊢
      induction spines generalizing host with
      | nil => exact holds
      | cons spine rest ih => exact ih _ (declared _ _ _ holds)
  | update id =>
      simp only [prepared]
      split
      · split
        · exact holds
        · exact reported _ _ holds
      · exact holds
  | loading => exact holds

theorem instances_prepared (call : RenderCall) (client : Client) :
    (client.prepared call).instances = client.host.instances :=
  prepared_induction call rfl (fun _ _ _ same => (Host.instances_declareAll _ _ _).trans same)
    fun _ _ same => same

theorem objects_prepared (call : RenderCall) (client : Client) :
    (client.prepared call).objects = client.host.objects :=
  prepared_induction call rfl (fun _ _ _ same => (objects_declareAll _ _ _).trans same)
    fun _ _ same => same

theorem supply_prepared (call : RenderCall) (client : Client) :
    (client.prepared call).supply = client.host.supply :=
  prepared_induction call rfl (fun _ _ _ same => (supply_declareAll _ _ _).trans same)
    fun _ _ same => same

theorem host_render (call : RenderCall) (client : Client) :
    (client.render call).host = (client.deeds call).foldl Host.runDeed (client.prepared call) := by
  cases call with
  | body session spine =>
      simp only [render, deeds, prepared, renderBody, reconcileBody, modifyHost,
        supply_declareAll, Host.commit_eq_foldl]
  | head session spines =>
      simp only [render, deeds, prepared, renderHead, reconcileHead, modifyHost,
        supply_declareEach, Host.commit_eq_foldl]
  | update id =>
      cases found : client.host.instances.get? id with
      | none => simp only [render, deeds, prepared, found, List.foldl_nil]
      | some state =>
          simp only [render, deeds, prepared, found, renderInstance, updateDeeds]
          by_cases inBody : client.body.holds state.identity.id = true
          · simp [inBody, Host.commit_eq_foldl]
          · by_cases inHead : Mounted.anyHolds state.identity.id client.head = true
            · simp [inBody, inHead, Host.commit_eq_foldl]
            · simp [inBody, inHead, modifyHost]
  | loading =>
      simp only [render, deeds, prepared, showLoading, reconcileBody, reconcileHead,
        List.foldl_append, Host.commit_eq_foldl]

/-! ## The turnover of a call -/

theorem takesDown_reconcile_text (site : Site) (old : Mounted) (content : String)
    (supply : Supply) :
    (∀ step ∈ (Mounted.reconcile site old (.text content) supply).steps, step.TakesDown) ∧
      (Mounted.reconcile site old (.text content) supply).effects = [] := by
  rcases Mounted.reconcile_eq_replace_or site old (.text content) with ⟨-, replaced⟩ | ⟨-, other⟩ |
    ⟨before, _, rfl, -⟩ | ⟨_, _, _, _, _, _, other, -⟩ | ⟨_, _, _, _, _, _, -, other, -⟩
  · rw [replaced, Mounted.replace_apply]
    simpa using Mounted.takesDown_unmount old
  · cases other
  · exact ⟨fun _ member => absurd member List.not_mem_nil, rfl⟩
  · cases other
  · cases other

/-- When what is shown without a connection takes over, everything is taken down, and nothing is
    left for later. -/
theorem takesDown_loading (old : Mounted) (supply : Supply) :
    (∀ step ∈ (Mounted.reconcile (.root 0) old loadingSpine supply).steps, step.TakesDown) ∧
      (Mounted.reconcile (.root 0) old loadingSpine supply).effects = [] := by
  rcases Mounted.reconcile_eq_replace_or (.root 0) old loadingSpine with ⟨-, replaced⟩ | ⟨-, other⟩ |
    ⟨_, _, -, other⟩ | ⟨node, oldChildren, tag, children, attributes, rfl, same, kept⟩ |
    ⟨_, _, _, _, _, _, -, other, -⟩
  · rw [replaced, Mounted.replace_apply]
    have mounted : (Mounted.mount (.root 0) loadingSpine supply).effects = [] ∧
        ∀ step ∈ (Mounted.mount (.root 0) loadingSpine supply).steps, step.TakesDown := by
      rw [loadingSpine, Mounted.mount_element, Mounted.mountChildren_cons]
      exact ⟨rfl, by simp [Step.TakesDown]⟩
    refine ⟨fun step member => ?_, mounted.1⟩
    rcases List.mem_append.mp member with before | new
    · exact Mounted.takesDown_unmount old step before
    · exact mounted.2 step new
  · cases other
  · cases other
  · obtain ⟨rfl, rfl, rfl⟩ := Spine.element.inj same
    have inner (matched : List (Option Mounted)) :
        (∀ step ∈ (Mounted.reconcileChildren (.root 0) matched [(0, .text "Loading...")]
          supply).steps, step.TakesDown) ∧
        (Mounted.reconcileChildren (.root 0) matched [(0, .text "Loading...")] supply).effects =
          [] := by
      rcases matched with _ | ⟨_ | old, rest⟩
      · exact ⟨fun _ member => absurd member List.not_mem_nil, rfl⟩
      · exact ⟨fun _ member => absurd member List.not_mem_nil, rfl⟩
      · rw [Mounted.reconcileChildren_kept]
        simpa using takesDown_reconcile_text (Site.child (.root 0) 0) old "Loading..." supply
    rw [loadingSpine, Mounted.reconcile_element _ kept]
    obtain ⟨steps, effects⟩ := inner
      (Matching.assign Mounted.key oldChildren (Mounted.childKeys [(0, .text "Loading...")])).1
    refine ⟨fun step member => ?_, ?_⟩
    · simp only [List.mem_append, List.mem_cons] at member
      rcases member with detached | rfl | inside | left
      · obtain ⟨id, -, rfl⟩ := Option.map_eq_some_iff.mp (Option.mem_toList.mp detached)
        trivial
      · trivial
      · exact steps step inside
      · exact Mounted.takesDown_unmountAll _ step left
    · -- The element that is shown has no ref.
      simp only [effects, List.nil_append]
      split <;> rfl
  · cases other

theorem turnover_render {client : Client} (settled : client.host.Settled client.instances)
    (call : RenderCall) : ∃ session finish,
      Turnover session client.host.supply client.instances (client.render call).instances
        (Deed.steps (client.deeds call)) (Deed.effects (client.deeds call)) finish ∧
      ∀ other, client.sessionOf call = some other → other = session := by
  cases call with
  | body session spine =>
      have turned := (Mounted.turnover_reconcile (.root session) client.body spine
        client.host.supply).append (.still (Mounted.childInstances client.head) _)
      refine ⟨session, _, by
        simpa [deeds, render, instances, renderBody, reconcileBody, modifyHost, supply_declareAll,
          Site.root, ContextId.root] using turned, ?_⟩
      rintro other ⟨⟩
      rfl
  | head session spines =>
      have turned := (Turnover.still client.body.instances client.host.supply).append
        (Mounted.turnover_reconcileAll (.root session) client.head spines client.host.supply)
      refine ⟨session, _, by
        simpa [deeds, render, instances, renderHead, reconcileHead, modifyHost, supply_declareEach,
          Site.root, ContextId.root] using turned, ?_⟩
      rintro other ⟨⟩
      rfl
  | update id =>
      cases found : client.host.instances.get? id with
      | none =>
          refine ⟨0, client.host.supply, by simpa [deeds, render, found] using .still _ _, ?_⟩
          simp [sessionOf, found]
      | some state =>
          have owned : ∀ identity ∈ client.instances, identity.id = state.identity.id →
              identity.session = state.identity.session := by
            intro identity member same
            rw [settled.identity_eq found member (same.trans (settled.named.id_eq found))]
          refine ⟨state.identity.session, ?_⟩
          have here : ∀ other, client.sessionOf (.update id) = some other →
              other = state.identity.session := by
            simp [sessionOf, found]
          by_cases inBody : client.body.holds state.identity.id = true
          · have inside := (Mounted.rerender_turnover state.identity.id state.payload.content
              state.identity.session).rerender client.body client.host.supply
                fun identity member => owned identity (List.mem_append_left _ member)
            have turned := inside.append (.still (Mounted.childInstances client.head) _)
            exact ⟨_, by simpa [deeds, render, found, instances, renderInstance, updateDeeds, inBody]
              using turned, here⟩
          · by_cases inHead : Mounted.anyHolds state.identity.id client.head = true
            · have inside := (Mounted.rerender_turnover state.identity.id state.payload.content
                state.identity.session).rerenderFirst client.head client.host.supply
                  fun identity member => owned identity (List.mem_append_right _ member)
              have turned := (Turnover.still client.body.instances _).append inside
              exact ⟨_, by simpa [deeds, render, found, instances, renderInstance, updateDeeds,
                inBody, inHead] using turned, here⟩
            · exact ⟨_, by simpa [deeds, render, found, instances, renderInstance, updateDeeds,
                inBody, inHead, modifyHost] using .still client.instances client.host.supply, here⟩
  | loading =>
      have emptied := Mounted.turnover_reconcileAll (.root 0) client.head [] client.host.supply
      have order : (Mounted.reconcileAll (.root 0) client.head [] client.host.supply).supply.nextInstance ≤
          (client.reconcileHead (.root 0) []).host.supply.nextInstance := by
        exact Host.next_le_commit client.host _
      have shown := Mounted.turnover_reconcile (.root 0) client.body loadingSpine
        (client.reconcileHead (.root 0) []).host.supply
      have turned := (emptied.append_of_le order shown).of_perm List.perm_append_comm
        List.perm_append_comm .rfl
      refine ⟨0, _, by simpa [deeds, render, instances, showLoading, reconcileBody, reconcileHead]
        using turned, by simp [sessionOf]⟩

/-- The refs in the body and in the head. -/
def refs (client : Client) : List Attachment := client.body.refs ++ Mounted.childRefs client.head

theorem refs_eq_flatMap (client : Client) :
    client.refs = (client.body :: client.head).flatMap Mounted.refs :=
  Mounted.childRefs_eq_flatMap (client.body :: client.head)

/-- What is reckoned up over trees is known for a call. -/
theorem turns_render {α : Type} {collect : Mounted → List α} {collectAll : List Mounted → List α}
    {Turns : List α → List α → List Step → List Effect → Prop}
    (reckons : Mounted.Reckons collect collectAll Turns) (call : RenderCall) (client : Client) :
    Turns (collectAll (client.body :: client.head))
      (collectAll ((client.render call).body :: (client.render call).head))
      (Deed.steps (client.deeds call)) (Deed.effects (client.deeds call)) := by
  simp only [reckons.collects.cons]
  -- The head stays as it is, or the body does.
  have inBody {before after : Mounted} {steps : List Step} {effects : List Effect}
      (turned : Turns (collect before) (collect after) steps effects) (head : List Mounted) :
      Turns (collect before ++ collectAll head) (collect after ++ collectAll head) steps
        effects := by
    simpa using reckons.append turned (reckons.still (collectAll head))
  have inHead {before after : List Mounted} {steps : List Step} {effects : List Effect}
      (turned : Turns (collectAll before) (collectAll after) steps effects) (body : Mounted) :
      Turns (collect body ++ collectAll before) (collect body ++ collectAll after) steps effects :=
    reckons.append (reckons.still (collect body)) turned
  cases call with
  | body session spine =>
      simpa [deeds, render, renderBody, reconcileBody, modifyHost, supply_declareAll] using
        inBody (reckons.reconcile (.root session) client.body spine client.host.supply) client.head
  | head session spines =>
      simpa [deeds, render, renderHead, reconcileHead, modifyHost, supply_declareEach] using
        inHead (reckons.reconcileAll (.root session) client.head spines client.host.supply)
          client.body
  | update id =>
      cases found : client.host.instances.get? id with
      | none => simpa [deeds, render, found] using reckons.still _
      | some state =>
          simp only [deeds, render, found, updateDeeds, renderInstance]
          split
          · have rendered := (reckons.rerenders state.identity.id state.payload.content).rerender
              client.body client.host.supply
            simpa using inBody rendered client.head
          · split
            · have rendered := (reckons.rerenders state.identity.id
                state.payload.content).rerenderFirst client.head client.host.supply
              simpa using inHead rendered client.body
            · exact reckons.still _
  | loading =>
      have emptied := reckons.reconcileAll (.root 0) client.head [] client.host.supply
      have shown := reckons.reconcile (.root 0) client.body loadingSpine
        (client.reconcileHead (.root 0) []).host.supply
      simpa [deeds, render, showLoading, reconcileBody, reconcileHead] using
        reckons.perm (reckons.append emptied shown) List.perm_append_comm List.perm_append_comm

theorem refTurnover_render (call : RenderCall) (client : Client) : ∃ gone,
    RefTurnover client.refs (client.render call).refs gone (Deed.steps (client.deeds call))
      (Deed.effects (client.deeds call)) :=
  turns_render Mounted.refTurnover_reckons call client

theorem deeds_eq (call : RenderCall) (client : Client) (finish : Supply) :
    client.deeds call = Outcome.deeds
      ⟨(), Deed.steps (client.deeds call), Deed.effects (client.deeds call), finish⟩ := by
  have one {α : Type} (outcome : Outcome α) : outcome.deeds = Outcome.deeds
      ⟨(), Deed.steps outcome.deeds, Deed.effects outcome.deeds, finish⟩ := by
    simp only [Outcome.steps_deeds, Outcome.effects_deeds]
    rfl
  cases call with
  | body session spine => exact one _
  | head session spines => exact one _
  | update id =>
      cases found : client.host.instances.get? id with
      | none =>
          simp only [deeds, found]
          rfl
      | some state =>
          simp only [deeds, found, updateDeeds]
          split
          · exact one _
          · split
            · exact one _
            · rfl
  | loading =>
      -- Emptying the head leaves nothing for later.
      have nothing : (Mounted.reconcileAll (.root 0) client.head [] client.host.supply).effects =
          [] := by
        rw [Mounted.reconcileAll_apply]
        simp
      simp only [deeds, Deed.steps_append, Deed.effects_append, Outcome.steps_deeds,
        Outcome.effects_deeds, nothing]
      simp [Outcome.deeds, nothing]

/-- A call commits its steps and effects to the host that is ready for them. -/
theorem host_render_eq_commit (call : RenderCall) (client : Client) (finish : Supply) :
    (client.render call).host = (client.prepared call).commit
      ⟨(), Deed.steps (client.deeds call), Deed.effects (client.deeds call), finish⟩ := by
  rw [host_render, Host.commit_eq_foldl, ← deeds_eq call client finish]

theorem settled_render {client : Client} (settled : client.host.Settled client.instances)
    (call : RenderCall) : (client.render call).host.Settled (client.render call).instances := by
  obtain ⟨session, finish, turnover, -⟩ := turnover_render settled call
  rw [host_render_eq_commit call client finish]
  rw [← supply_prepared call] at turnover
  exact turnover.settled_commit (settled.congr (instances_prepared call client))

theorem named_render {client : Client} (named : client.host.Named) (call : RenderCall) :
    (client.render call).host.Named := by
  rw [host_render]
  have done (deeds : List Deed) (host : Host) (named : host.Named) :
      (deeds.foldl Host.runDeed host).Named := by
    induction deeds generalizing host with
    | nil => exact named
    | cons deed rest ih =>
        cases deed with
        | step step => exact ih _ (named.runStep step)
        | effect effect => exact ih _ (named.runEffect effect)
  exact done _ _ (named.congr (instances_prepared call client))

end Client

end RemoteView
