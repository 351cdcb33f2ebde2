import Mathlib
import RemoteView.Proofs.Client.Sessions
import RemoteView.Proofs.Mounted.Places

/-! # Faithful paths

In every client that can be reached the instances, the listeners and the refs of the trees carry the
positions at which they are. So whatever is sent names the position of the node that sent it, and an
event that is given to an element sends one message at most, which names the position of the element.
-/

namespace RemoteView

namespace Host

/-- The deeds of a rendering send what refs answer that are detached or attached, and what the hooks
    of living instances do. -/
theorem sends_runDeeds {K : Instance → Prop} (deeds : List Deed) {host : Host}
    (living : host.Living K) (created : ∀ identity ∈ Deed.instantiations deeds, K identity) :
    Sends (fun message =>
      (∃ id ∈ Step.detaches (Deed.steps deeds), id.Speaks message) ∨
        (∃ one ∈ Effect.attaches (Deed.effects deeds), one.1.Speaks message) ∨
          ∃ identity, K identity ∧ identity.Speaks message) host (deeds.foldl runDeed host) := by
  induction deeds generalizing host with
  | nil => exact .refl host
  | cons deed rest ih =>
      cases deed with
      | step step =>
          have split : Deed.instantiations (.step step :: rest) =
              step.instantiated?.toList ++ Deed.instantiations rest := Step.instantiations_cons _ _
          have steps : Deed.steps (.step step :: rest) = step :: Deed.steps rest := rfl
          have effects : Deed.effects (.step step :: rest) = Deed.effects rest := rfl
          rw [split] at created
          rw [steps, effects, Step.detaches_cons]
          have stepped := living.runStep step fun identity isCreated =>
            created identity (List.mem_append_left _ (Option.mem_toList.mpr isCreated))
          refine .trans ((sends_runStep living step).mono fun message => ?_)
            ((ih stepped fun identity isCreated =>
              created identity (List.mem_append_right _ isCreated)).mono fun message => ?_)
          · rintro (⟨id, rfl, -, spoken⟩ | hooked)
            · exact .inl ⟨id, by simp, spoken⟩
            · exact .inr (.inr hooked)
          · rintro (⟨id, member, spoken⟩ | others)
            · exact .inl ⟨id, List.mem_append_right _ member, spoken⟩
            · exact .inr others
      | effect effect =>
          have steps : Deed.steps (.effect effect :: rest) = Deed.steps rest := rfl
          have effects : Deed.effects (.effect effect :: rest) = effect :: Deed.effects rest := rfl
          rw [steps, effects, Effect.attaches_cons]
          refine .trans ((sends_runEffect living effect).mono fun message => ?_)
            ((ih (living.runEffect effect) created).mono fun message => ?_)
          · rintro (⟨id, handle, rfl, -, spoken⟩ | hooked)
            · exact .inr (.inl ⟨(id, handle), by simp, spoken⟩)
            · exact .inr (.inr hooked)
          · rintro (detached | ⟨one, member, spoken⟩ | hooked)
            · exact .inl detached
            · exact .inr (.inl ⟨one, List.mem_append_right _ member, spoken⟩)
            · exact .inr (.inr hooked)

end Host

namespace Client

/-- Is an element at a position, in the body or in a fragment of the head? -/
def HasElementAt (client : Client) (path : Path) (node : MountedElement) : Prop :=
  ∃ tree ∈ client.body :: client.head, ∃ session site,
    (site, node) ∈ tree.elementsAt (.root session) ∧ site.path = path

/-- Is an instance at a position, in the body or in a fragment of the head? -/
def HasInstanceAt (client : Client) (path : Path) (identity : Instance) : Prop :=
  ∃ tree ∈ client.body :: client.head, ∃ session site,
    (site, identity) ∈ tree.instancesAt (.root session) ∧ site.path = path

/-- A message was sent by a node of the trees, and names the position at which the node is. -/
inductive SentFrom (client : Client) (message : SessionId × ClientMessage) : Prop
  | location (shown : String) (located : message.2 = .location shown)
  | hook (identity : Instance) (there : client.HasInstanceAt identity.path identity)
      (spoken : identity.Speaks message)
  | ref (node : MountedElement) (id : RefId) (there : client.HasElementAt id.path node)
      (given : node.props.ref? = some id) (spoken : id.Speaks message)
  | listener (node : MountedElement) (id : ListenerId) (there : client.HasElementAt id.path node)
      (listens : node.Listens id) (spoken : id.Speaks message)
  /-- An instance listens to the window. -/
  | window (identity : Instance) (id : ListenerId) (there : client.HasInstanceAt id.path identity)
      (own : id.context = identity.context) (spoken : id.Speaks message)

/-- What an event on an element sends: one message at most, which names the position of the element.
    It is the action that the handler answers. Only where the function was first made known by a
    component that listens to the window without a handler, it is the event. -/
def AnswersAt (client : Client) (path : Path) (event : String) (native : Value) : Prop :=
  ∃ messages, (client.dispatch path event native).2.host.sent = client.host.sent ++ messages ∧
    messages.length ≤ 1 ∧ ∀ message ∈ messages,
      (∃ name action, message.2 = .action path name action) ∨
        ∃ fid told node identity, message.2 = .event path fid told ∧
          client.elementAt path = some node ∧ node.Listens ⟨identity.context, path, fid⟩ ∧
          client.HasInstanceAt path identity ∧ client.host.Forwards ⟨identity.context, path, fid⟩

/-- What is true of paths in a client. -/
structure PathsAreFaithful (client : Client) : Prop where
  body : ∃ session, client.body.Faithful (.root session)
  head : ∃ session, ∀ tree ∈ client.head, tree.Faithful (.root session)
  dispatch : ∀ path event native, client.AnswersAt path event native
  /-- Whatever happens, messages name the positions that nodes have before or afterwards. -/
  sent : ∀ action, Host.Sends
    (fun message => client.SentFrom message ∨ (client.perform action).SentFrom message)
    client.host (client.perform action).host

/-! ## Trees carry the positions of their nodes -/

/-- Every tree stands at the root of a session, and carries the positions of its nodes. -/
structure CarriesPaths (client : Client) : Prop where
  body : ∃ session, client.body.Placed (.root session) ∧ client.body.Faithful (.root session)
  head : ∃ session, ∀ tree ∈ client.head,
    tree.Placed (.root session) ∧ tree.Faithful (.root session)

namespace CarriesPaths

variable {client after : Client}

theorem congr (carries : CarriesPaths client) (body : after.body = client.body)
    (head : after.head = client.head) : CarriesPaths after where
  body := by
    rw [body]
    exact carries.body
  head := by
    rw [head]
    exact carries.head

theorem exists_faithful (carries : CarriesPaths client) {tree : Mounted}
    (isTree : tree ∈ client.body :: client.head) : ∃ session, tree.Faithful (.root session) := by
  obtain ⟨inBody, -, body⟩ := carries.body
  obtain ⟨inHead, head⟩ := carries.head
  rcases List.mem_cons.mp isTree with rfl | among
  · exact ⟨inBody, body⟩
  · exact ⟨inHead, (head tree among).2⟩

theorem of_forall₂ {site : Site} {spines : List Spine} {trees : List Mounted}
    (shows : List.Forall₂ (Mounted.Shows site) spines trees) :
    ∀ tree ∈ trees, tree.Placed site ∧ tree.Faithful site := by
  induction shows with
  | nil => simp
  | cons here _ ih => exact List.forall_mem_cons.mpr ⟨⟨here.placed, here.faithful⟩, ih⟩

theorem renderBody (carries : CarriesPaths client) (session : SessionId) (spine : Spine)
    (host : Host) : CarriesPaths
      { client with host := host, body := (Mounted.reconcile (.root session) client.body spine
          host.supply).value } := by
  obtain ⟨before, placed, -⟩ := carries.body
  have shows : Mounted.Shows (.root session) spine (Mounted.reconcile (.root session) client.body
      spine host.supply).value := Mounted.shows_reconcile _ placed spine _
  exact ⟨⟨session, shows.placed, shows.faithful⟩, carries.head⟩

theorem renderHead (carries : CarriesPaths client) (session : SessionId) (spines : List Spine)
    (host : Host) : CarriesPaths
      { client with host := host, head := (Mounted.reconcileAll (.root session) client.head spines
          host.supply).value } := by
  obtain ⟨before, placed⟩ := carries.head
  exact ⟨carries.body, session, of_forall₂ (Mounted.shows_reconcileAll (.root session)
    (fun tree member => ⟨.root before, (placed tree member).1⟩) spines host.supply)⟩

theorem renderInstance (carries : CarriesPaths client) (state : InstanceState) :
    CarriesPaths (client.renderInstance state) := by
  obtain ⟨inBody, placed, faithful⟩ := carries.body
  obtain ⟨inHead, head⟩ := carries.head
  unfold Client.renderInstance
  simp only
  split
  · exact ⟨⟨inBody, (Mounted.rerender_placed _ _).rerender _ _ placed,
      Mounted.faithful_rerender _ _ placed faithful _⟩, inHead, head⟩
  · split
    · refine ⟨⟨inBody, placed, faithful⟩, inHead, Mounted.forall_mem_rerenderFirst ?_ head _⟩
      intro tree supply stands
      exact ⟨(Mounted.rerender_placed _ _).rerender tree supply stands.1,
        Mounted.faithful_rerender _ _ stands.1 stands.2 supply⟩
    · exact ⟨⟨inBody, placed, faithful⟩, inHead, head⟩

theorem render (carries : CarriesPaths client) (call : RenderCall) :
    CarriesPaths (client.render call) := by
  cases call with
  | body session spine => exact (carries.renderBody session spine _).congr rfl rfl
  | head session spines => exact (carries.renderHead session spines _).congr rfl rfl
  | update id =>
      unfold Client.render
      simp only
      split
      · exact carries.renderInstance _
      · exact carries
  | loading =>
      have emptied : CarriesPaths (client.reconcileHead (.root 0) []) :=
        (carries.renderHead 0 [] client.host).congr rfl rfl
      exact (emptied.renderBody 0 loadingSpine _).congr rfl rfl

theorem quiet (carries : CarriesPaths client) (change : Quiet client after) :
    CarriesPaths after := by
  cases change with
  | aside host body head => exact carries.congr body head
  | report | locate | openSession | dropSession | fire | setGlobal | setAttribute | addObject
  | setPayload | sync => exact carries.congr rfl rfl
  | changeInputs keeps =>
      obtain ⟨session, placed, faithful⟩ := carries.body
      exact ⟨⟨session, Mounted.placed_mapNodes keeps placed, faithful.mapNodes keeps⟩,
        carries.head⟩

end CarriesPaths

theorem Run.carriesPaths {past : List Deed} {client : Client} (run : Run past client) :
    CarriesPaths client := by
  refine run.invariant (P := fun _ client => CarriesPaths client) (fun _ _ => ?_) ?_
  · refine ⟨⟨0, trivial, ?_, ?_⟩, 0, by simp [Client.new]⟩ <;>
      simp [Client.new, Mounted.instancesAt, Mounted.elementsAt]
  · intro _ client _ after carries move
    cases move with
    | quiet change => exact carries.quiet change
    | render call live => exact carries.render call

theorem Callable.carriesPaths {client : Client} (callable : Callable client) :
    CarriesPaths client :=
  callable.invariant (fun _ _ => Run.carriesPaths) fun _ _ => CarriesPaths.quiet

/-! ## Who is where -/

section

variable {client after : Client}

theorem hasInstanceAt_of_mem (carries : CarriesPaths client) {identity : Instance}
    (member : identity ∈ client.instances) : client.HasInstanceAt identity.path identity := by
  rw [instances_eq_flatMap] at member
  obtain ⟨tree, isTree, inside⟩ := List.mem_flatMap.mp member
  obtain ⟨session, faithful⟩ := carries.exists_faithful isTree
  rw [← Mounted.instancesAt_snd (.root session)] at inside
  obtain ⟨⟨site, other⟩, placed, rfl⟩ := List.mem_map.mp inside
  exact ⟨tree, isTree, session, site, placed, (faithful.instances _ placed).symm⟩

theorem sentFrom_of_instance (carries : CarriesPaths client) {identity : Instance}
    (member : identity ∈ client.instances) {message : SessionId × ClientMessage}
    (spoken : identity.Speaks message) : client.SentFrom message :=
  .hook identity (hasInstanceAt_of_mem carries member) spoken

theorem sentFrom_of_ref (carries : CarriesPaths client) {one : Attachment}
    (member : one ∈ client.refs) {message : SessionId × ClientMessage}
    (spoken : one.1.Speaks message) : client.SentFrom message := by
  rw [refs_eq_flatMap] at member
  obtain ⟨tree, isTree, inside⟩ := List.mem_flatMap.mp member
  obtain ⟨session, faithful⟩ := carries.exists_faithful isTree
  obtain ⟨⟨site, node⟩, placed, given, -⟩ :=
    Mounted.exists_elementAt_of_ref inside (.root session)
  have carried := (faithful.elements _ placed).ref one.1 given
  exact .ref node one.1 ⟨tree, isTree, session, site, placed, carried.2.symm⟩ given spoken

theorem mem_elementsAt_of_elementAt {path : Path} {node : MountedElement}
    (here : client.elementAt path = some node) (session : SessionId) :
    ∃ site, (site, node) ∈ client.body.elementsAt (.root session) ∧ site.path = path :=
  Mounted.mem_elementsAt_of_find? here (.root session)

theorem sentFrom_of_offered (sound : Sound client) (listening : client.host.Listening)
    (carries : CarriesPaths client) {id : ListenerId} (offered : client.Offers id)
    {message : SessionId × ClientMessage} (spoken : id.Speaks message) :
    client.SentFrom message := by
  rcases offered with ⟨event, added⟩ | ⟨path, node, here, listens⟩
  · obtain ⟨entry, stored, among⟩ :=
      List.mem_flatMap.mp (listening.balanced.mem_iff.mp added)
    have found := Assoc.get?_of_mem listening.distinct stored
    have mounted : entry.2.phase = .mounted := by
      by_contra ended
      rw [listening.idle _ _ found ended] at among
      cases among
    obtain ⟨context, path⟩ := listening.own _ _ found _ among
    have stands : client.host.standing entry.1 = some entry.2.standing :=
      congrArg (Option.map InstanceState.standing) found
    have member : entry.2.identity ∈ client.instances :=
      living_instances sound _ _ stands (.inl (by simp [InstanceState.standing, mounted]))
    have there := hasInstanceAt_of_mem carries member
    rw [← path] at there
    exact .window entry.2.identity id there context spoken
  · obtain ⟨session, -, faithful⟩ := carries.body
    obtain ⟨site, placed, -⟩ := mem_elementsAt_of_elementAt here session
    have carried := (faithful.elements _ placed).listeners id listens
    exact .listener node id ⟨_, List.mem_cons_self, session, site, placed, carried.2.symm⟩ listens
      spoken

/-! ## What is sent -/

theorem sentFrom_of_quiet (change : Quiet client after) {message : SessionId × ClientMessage}
    (sent : after.SentFrom message) : client.SentFrom message := by
  have congr (body : after.body = client.body) (head : after.head = client.head) :
      client.SentFrom message := by
    have elements : after.HasElementAt = client.HasElementAt := by
      unfold HasElementAt
      rw [body, head]
    have instances : after.HasInstanceAt = client.HasInstanceAt := by
      unfold HasInstanceAt
      rw [body, head]
    cases sent with
    | location shown located => exact .location shown located
    | hook identity there spoken => exact .hook identity (instances ▸ there) spoken
    | ref node id there given spoken => exact .ref node id (elements ▸ there) given spoken
    | listener node id there listens spoken =>
        exact .listener node id (elements ▸ there) listens spoken
    | window identity id there own spoken =>
        exact .window identity id (instances ▸ there) own spoken
  cases change with
  | aside host body head => exact congr body head
  | report | locate | openSession | dropSession | fire | setGlobal | setAttribute | addObject
  | setPayload | sync => exact congr rfl rfl
  | @changeInputs change keeps =>
      have element {path : Path} {node : MountedElement} (there : HasElementAt
          { client with body := client.body.mapNodes change } path node) :
          ∃ old, client.HasElementAt path old ∧
            (∀ id, node.Listens id → old.Listens id) ∧ node.props.ref? = old.props.ref? := by
        obtain ⟨tree, isTree, session, site, placed, leads⟩ := there
        rcases List.mem_cons.mp isTree with rfl | inHead
        · rw [Mounted.elementsAt_mapNodes keeps] at placed
          obtain ⟨⟨place, old⟩, stood, same⟩ := List.mem_map.mp placed
          obtain ⟨rfl, rfl⟩ := Prod.mk.inj same
          exact ⟨old, ⟨_, List.mem_cons_self, session, place, stood, leads⟩,
            fun id => keeps.listens, keeps.ref old⟩
        · exact ⟨node, ⟨tree, List.mem_cons_of_mem _ inHead, session, site, placed, leads⟩,
            fun _ listens => listens, rfl⟩
      have inst {path : Path} {identity : Instance} (there : HasInstanceAt
          { client with body := client.body.mapNodes change } path identity) :
          client.HasInstanceAt path identity := by
        obtain ⟨tree, isTree, session, site, placed, leads⟩ := there
        rcases List.mem_cons.mp isTree with rfl | inHead
        · rw [Mounted.instancesAt_mapNodes keeps] at placed
          exact ⟨_, List.mem_cons_self, session, site, placed, leads⟩
        · exact ⟨tree, List.mem_cons_of_mem _ inHead, session, site, placed, leads⟩
      cases sent with
      | location shown located => exact .location shown located
      | hook identity there spoken => exact .hook identity (inst there) spoken
      | ref node id there given spoken =>
          obtain ⟨old, stood, -, same⟩ := element there
          exact .ref old id stood (same.symm.trans given) spoken
      | listener node id there listens spoken =>
          obtain ⟨old, stood, kept, -⟩ := element there
          exact .listener old id stood (kept id listens) spoken
      | window identity id there own spoken => exact .window identity id (inst there) own spoken

theorem sends_quiet (sound : Sound client) (listening : client.host.Listening)
    (carries : CarriesPaths client) (change : Quiet client after) :
    Host.Sends client.SentFrom client.host after.host := by
  cases change with
  | aside host body head => exact .of_same (by rw [host])
  | report | openSession | dropSession | setAttribute | addObject | setPayload | changeInputs
  | sync => exact .of_same rfl
  | locate live => exact .one _ (.location _ rfl) rfl
  | setGlobal name value =>
      obtain ⟨objects, same⟩ := Host.setGlobal_eq name value client.host
      exact .of_same (by rw [modifyHost, same])
  | fire id offered event =>
      rcases Host.sent_fire id event client.host with same | ⟨message, added, kinds⟩
      · exact .of_same same
      · refine .one _ (sentFrom_of_offered sound listening carries offered ⟨rfl, ?_⟩) added
        rcases kinds with ⟨name, -, action, -, rfl⟩ | ⟨-, -, told, rfl⟩
        · exact .inl ⟨name, action, rfl⟩
        · exact .inr ⟨told, rfl⟩

theorem sends_quietly (changes : Quietly client after) (sound : Sound client)
    (listening : client.host.Listening) (carries : CarriesPaths client) :
    Host.Sends client.SentFrom client.host after.host := by
  induction changes using Relation.ReflTransGen.head_induction_on with
  | refl => exact .refl _
  | head change _ ih =>
      exact (sends_quiet sound listening carries change).trans
        ((ih (sound.quiet change) (listening_quiet listening change) (carries.quiet change)).mono
          fun message => sentFrom_of_quiet change)

/-- A call of the renderer sends what the instances and refs send that are there before or
    afterwards. -/
theorem sends_render (sound : Sound client) (call : RenderCall) : Host.Sends
    (fun message =>
      (∃ one, (one ∈ client.refs ∨ one ∈ (client.render call).refs) ∧ one.1.Speaks message) ∨
        ∃ identity, (identity ∈ client.instances ∨ identity ∈ (client.render call).instances) ∧
          identity.Speaks message) client.host (client.render call).host := by
  obtain ⟨session, finish, turnover, -⟩ := turnover_render sound.settled call
  obtain ⟨gone, turned⟩ := refTurnover_render call client
  have living : (client.prepared call).Living fun identity =>
      identity ∈ client.instances ∨ identity ∈ (client.render call).instances := by
    intro id standing found lives
    exact .inl ((living_instances sound).congr (instances_prepared call client) id standing found
      lives)
  have sent : (client.prepared call).sent = client.host.sent := by
    obtain ⟨_, _, _, _, same, -⟩ := prepared_eq call client
    rw [same]
  rw [host_render]
  refine (Host.Sends.of_same sent).trans ((Host.sends_runDeeds (client.deeds call) living
    fun identity created => .inr ?_).mono fun message => ?_)
  · obtain ⟨-, -, -, -, there⟩ := turnover.entered sound.settled created
    exact there
  · rintro (⟨id, detached, spoken⟩ | ⟨one, attached, spoken⟩ | ⟨identity, member, spoken⟩)
    · rw [turned.detached] at detached
      obtain ⟨one, left, rfl⟩ := List.mem_map.mp detached
      exact .inl ⟨one, .inl (turned.left left), spoken⟩
    · exact .inl ⟨one, .inr (turned.attached attached), spoken⟩
    · exact .inr ⟨identity, member, spoken⟩

theorem refs_quiet (change : Quiet client after) : after.refs = client.refs := by
  cases change with
  | aside host body head => rw [refs, refs, body, head]
  | report | locate | openSession | dropSession | fire | setGlobal | setAttribute | addObject
  | setPayload | sync => rfl
  | changeInputs keeps => rw [refs, refs, Mounted.refs_mapNodes keeps]

theorem instances_quiet (change : Quiet client after) : after.instances = client.instances := by
  cases change with
  | aside host body head => rw [instances, instances, body, head]
  | report | locate | openSession | dropSession | fire | setGlobal | setAttribute | addObject
  | setPayload | sync => rfl
  | changeInputs keeps => rw [instances, instances, Mounted.instances_mapNodes]

theorem trees_quietly (changes : Quietly client after) :
    after.refs = client.refs ∧ after.instances = client.instances := by
  induction changes with
  | refl => exact ⟨rfl, rfl⟩
  | tail _ change ih => exact ⟨(refs_quiet change).trans ih.1, (instances_quiet change).trans ih.2⟩

end

/-- Whatever happens, what is sent names the position of the node that sent it. -/
theorem sends_perform {client : Client} (sound : Sound client) (listening : client.host.Listening)
    (carries : CarriesPaths client) (action : Action) : Host.Sends
      (fun message => client.SentFrom message ∨ (client.perform action).SentFrom message)
      client.host (client.perform action).host := by
  have happens := happens_perform sound.settled.named action
  cases called : client.call? action with
  | none =>
      rw [called] at happens
      cases happens with
      | quietly changes =>
          exact (sends_quietly changes sound listening carries).mono fun message sent => .inl sent
  | some found =>
      obtain ⟨ready, call⟩ := found
      obtain ⟨log, done⟩ := perform_of_call? sound.settled.named called
      rw [called] at happens
      cases happens with
      | render before live afterwards =>
          obtain ⟨refs, instances⟩ := trees_quietly before
          have sound' := before.preserves (fun _ _ => Sound.quiet) sound
          have rendered : CarriesPaths (client.perform action) := by
            rw [done]
            have carried := before.preserves (fun _ _ => CarriesPaths.quiet) carries
            exact (carried.render call).congr rfl rfl
          refine ((sends_quietly before sound listening carries).mono fun message sent =>
            .inl sent).trans (((sends_render sound' call).mono fun message => ?_).trans
              (.of_same (by rw [done])))
          rw [refs, instances]
          rintro (⟨one, old | new, spoken⟩ | ⟨identity, old | new, spoken⟩)
          · exact .inl (sentFrom_of_ref carries old spoken)
          · exact .inr (sentFrom_of_ref rendered (by rw [done]; exact new) spoken)
          · exact .inl (sentFrom_of_instance carries old spoken)
          · exact .inr (sentFrom_of_instance rendered (by rw [done]; exact new) spoken)

/-! ## Events on elements -/

theorem host_call (callback : Callback) (node : MountedElement) (event : Value) {name : String}
    {client : Client} (given : node.props.listener? name = some callback) :
    (client.call callback node event).host = client.host ∨ ∃ id, node.Listens id ∧
      (client.call callback node event).host = client.host.fire id event := by
  cases callback with
  | listener id => exact .inr ⟨id, .inl ⟨name, given⟩, rfl⟩
  | external label => exact .inl rfl
  | input handle =>
      simp only [call]
      split
      · rename_i id forwarded
        exact .inr ⟨id, .inr forwarded, rfl⟩
      · exact .inl rfl

theorem sent_refreshInputs (client : Client) :
    client.refreshInputs.host.sent = client.host.sent := by
  have synced (elements : List MountedElement) (host : Host) : (elements.foldl
      (fun host element => host.runStep (.syncHandle element.handle element.props)) host).sent =
        host.sent := by
    induction elements generalizing host with
    | nil => rfl
    | cons element rest ih => exact ih _
  exact synced client.body.stale client.host

theorem path_of_listens {client : Client} (carries : CarriesPaths client) {path : Path}
    {node : MountedElement} (here : client.elementAt path = some node) {id : ListenerId}
    (listens : node.Listens id) : id.path = path := by
  obtain ⟨session, -, faithful⟩ := carries.body
  obtain ⟨site, placed, rfl⟩ := mem_elementsAt_of_elementAt here session
  exact ((faithful.elements _ placed).listeners id listens).2

/-- A listener of an element that sends the events themselves is that of the instance in which the
    element is, and the instance is at the same position. -/
theorem exists_instance_of_forwards {client : Client} (sound : Sound client)
    (listening : client.host.Listening) (carries : CarriesPaths client) {path : Path}
    {node : MountedElement} (here : client.elementAt path = some node) {id : ListenerId}
    (listens : node.Listens id) (forwards : client.host.Forwards id) :
    ∃ identity, identity.context = id.context ∧ client.HasInstanceAt path identity := by
  obtain ⟨session, -, faithful⟩ := carries.body
  obtain ⟨site, placed, -⟩ := mem_elementsAt_of_elementAt here session
  obtain ⟨inContext, -⟩ := (faithful.elements _ placed).listeners id listens
  obtain ⟨number, state, found, own, there⟩ := listening.forwards id forwards
  rcases Mounted.context_of_elementAt placed with atRoot | ⟨identity, inside, within⟩
  · -- At the root nothing listens to the window.
    have none : state.identity.context.instance? = none := by
      rw [own, inContext, atRoot]
      rfl
    cases none
  · have member : identity ∈ client.instances := List.mem_append_left _ inside
    have same : some state.identity.id = some identity.id := by
      have contexts := own.trans (inContext.trans within)
      exact congrArg ContextId.instance? contexts
    obtain rfl : state.identity = identity := sound.settled.identity_eq found member
      ((Option.some.inj same).symm.trans (sound.settled.named.id_eq found))
    refine ⟨state.identity, own, ?_⟩
    rw [← path_of_listens carries here listens, ← there]
    exact hasInstanceAt_of_mem carries member

theorem answersAt {client : Client} (sound : Sound client) (listening : client.host.Listening)
    (carries : CarriesPaths client) (path : Path) (event : String) (native : Value) :
    client.AnswersAt path event native := by
  have silent (same : (client.dispatch path event native).2.host.sent = client.host.sent) :
      client.AnswersAt path event native := ⟨[], by rw [same, List.append_nil], by simp, by simp⟩
  cases here : client.elementAt path with
  | none => exact silent (by simp only [dispatch, here])
  | some node =>
      cases given : node.props.listener? (listenerProperty event) with
      | none => exact silent (by simp only [dispatch, here, given])
      | some callback =>
          have same : (client.dispatch path event native).2.host.sent =
              (client.call callback node native).host.sent := by
            simp only [dispatch, here, given, sent_refreshInputs]
          rcases host_call callback node native given with quiet | ⟨id, listens, fired⟩
          · exact silent (by rw [same, quiet])
          · rcases Host.sent_fire id native client.host with kept | ⟨message, added, kinds⟩
            · exact silent (by rw [same, fired, kept])
            · have onPath := path_of_listens carries here listens
              refine ⟨[(id.context.session, message)], by rw [same, fired, added], by simp, ?_⟩
              intro sent member
              obtain rfl := List.mem_singleton.mp member
              rcases kinds with ⟨name, -, action, -, rfl⟩ | ⟨forwards, -, told, rfl⟩
              · exact .inl ⟨name, action, by rw [onPath]⟩
              · obtain ⟨identity, own, there⟩ :=
                  exists_instance_of_forwards sound listening carries here listens forwards
                have whole : (⟨identity.context, path, id.fid⟩ : ListenerId) = id := by
                  rw [own, ← onPath]
                exact .inr ⟨id.fid, told, node, identity, by rw [onPath], here,
                  by rwa [whole], there, by rwa [whole]⟩

/-- In every client that can be reached paths are faithful. -/
theorem paths_faithful {client : Client} (reachable : Reachable client) :
    PathsAreFaithful client := by
  obtain ⟨past, run⟩ := reachable
  have carries := run.carriesPaths
  obtain ⟨inBody, -, body⟩ := carries.body
  obtain ⟨inHead, head⟩ := carries.head
  exact {
    body := ⟨inBody, body⟩
    head := ⟨inHead, fun tree member => (head tree member).2⟩
    dispatch := answersAt run.sound run.listening carries
    sent := sends_perform run.sound run.listening carries }

/-- A component that listens to the window without a handler, as it is sent. -/
def listeningComponent (content : Json) : Json :=
  .object [("type", .string "Component"), ("id", .ofUInt64 1), ("spine", .object [
    ("spine", content), ("eventListeners", .array [.array [.string "2", .string "resize"]])])]

/-- A button with a handler, whose function has the same number, as it is sent. -/
def handlingButton : Json :=
  .object [("tag", .string "button"), ("attributes", .array [.array [.string "AEVL",
    .array [.string "2", .string "click", .array [.string "EventHandlerE", .array [.string "NothingE"],
      .array [.string "NothingE"], .array [.string "NothingE"],
      .array [.string "LitE", .string "go"]]]]])]

/-- What leads to a client that shows the button in the component. -/
def showButton : List Action :=
  [.openConnection, .message (listeningComponent handlingButton), .frame]

/-- The same, where the component has listened to the window before it has the button. -/
def showButtonLater : List Action :=
  [.openConnection, .message (listeningComponent (.string "")), .frame,
    .message (listeningComponent handlingButton), .frame]

/-- The button sends its action, at its position. -/
theorem button_sends_action :
    let client := (history showButton (.new "/" .never)).2
    PathsAreFaithful client ∧ (client.dispatch .root "click" .absent).2.host.sent =
      client.host.sent ++ [(0, .action .root "click" (.string "go"))] := by
  intro client
  refine ⟨paths_faithful ⟨_, run_history "/" .never showButton⟩, ?_⟩
  unfold client
  cbv

/-- The button sends the event, when the component has listened to the window before. -/
theorem exists_event_instead_of_action :
    ¬ ∀ client, Reachable client → ∀ path event native, ∃ messages,
      (client.dispatch path event native).2.host.sent = client.host.sent ++ messages ∧
        messages.length ≤ 1 ∧ ∀ message ∈ messages, ∃ name action,
          message.2 = .action path name action := by
  intro always
  obtain ⟨messages, sent, -, actions⟩ :=
    always _ ⟨_, run_history "/" .never showButtonLater⟩ .root "click" .absent
  have before : (history showButtonLater (.new "/" .never)).2.host.sent = [(0, .location "/")] := by
    cbv
  have after : ((history showButtonLater (.new "/" .never)).2.dispatch .root "click"
      .absent).2.host.sent = [(0, .location "/"), (0, .event .root (.name "2") .null)] := by
    cbv
  rw [before, after] at sent
  obtain rfl : [_] = messages := (List.cons.inj sent).2
  obtain ⟨name, action, isAction⟩ := actions _ List.mem_cons_self
  cases isAction

end Client

end RemoteView
