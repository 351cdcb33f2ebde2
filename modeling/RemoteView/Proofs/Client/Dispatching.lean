import RemoteView.Proofs.Client.WindowListeners
import RemoteView.Proofs.Mounted.Elements
import RemoteView.Proofs.Spine.RoundTrip

/-! # From handlers to messages

What an event on an element comes to after the first frame. The element is found by its position,
its property for the event holds the listener that writes it last, an input follows the event before
it passes it on, and the listener does what it declares: its handler is evaluated with the event, in
the context of the component around the element, and its action is sent from the position of the
element.
-/

namespace RemoteView

theorem listenerProperty_ne_value (event : String) : listenerProperty event ≠ valueProperty := by
  intro same
  have letters := congrArg String.toList same
  unfold listenerProperty valueProperty at letters
  split at letters
  · exact absurd letters (by decide)
  · rw [String.toList_append] at letters
    have first := (List.cons.inj letters).1
    exact absurd first (by decide)

namespace Mounted

theorem listener?_rendered (place : Site) (tag : String) (attributes : List Attribute)
    (handle : ObjectId) (event : String) :
    (rendered place tag attributes handle).props.listener? (listenerProperty event) =
      if tag = inputTag ∧ listenerProperty event = changeProperty then some (.input handle)
      else (Attribute.listenerWriting? (listenerProperty event) attributes).map fun declared =>
        .listener ⟨place.context, place.path, declared.fid⟩ := by
  rw [← Attribute.listener?_ofAttributes]
  by_cases isInput : tag = inputTag
  · have props : (rendered place tag attributes handle).props =
        (ControlledInput.new (.ofAttributes place.context place.path attributes)).render
          (.input handle) (.ofAttributes place.context place.path attributes) := by
      simp only [rendered, inputFor, if_pos isInput, propsWith]
    rw [props, Props.listener?, ControlledInput.render, Assoc.get?_insert,
      Assoc.get?_insert_of_ne (listenerProperty_ne_value event)]
    by_cases changes : listenerProperty event = changeProperty
    · rw [if_pos changes, if_pos ⟨isInput, changes⟩]
      rfl
    · rw [if_neg changes, if_neg fun both => changes both.2]
      rfl
  · rw [if_neg fun both => isInput both.1]
    simp only [rendered, inputFor, if_neg isInput, propsWith]

theorem forwardTo_rendered (place : Site) {tag : String} (isInput : tag = inputTag)
    (attributes : List Attribute) (handle : ObjectId) :
    (rendered place tag attributes handle).input.bind ControlledInput.forwardTo =
      (Attribute.listenerWriting? changeProperty attributes).map fun declared =>
        .listener ⟨place.context, place.path, declared.fid⟩ := by
  rw [← Attribute.listener?_ofAttributes]
  simp only [rendered, inputFor, if_pos isInput, Option.bind_some, ControlledInput.new]

theorem reconcile_of_empty (site : Site) (spine : Spine) (supply : Supply) :
    reconcile site .empty spine supply = mount site spine supply := by
  cases spine with
  | empty | text | element | component => rfl

end Mounted

namespace Host

theorem listener?_runEffect_of_some {host : Host} {id : ListenerId} {behaviour : ListenerBehaviour}
    (stored : host.listener? id = some behaviour) (effect : Effect) :
    (host.runEffect effect).listener? id = some behaviour := by
  cases effect with
  | attachRef other handle =>
      exact ((CalledBack.attachRef other (.host handle) host).listener? id).trans stored
  | didMount other =>
      by_cases created : ∃ state, host.instances.get? other = some state ∧ state.phase = .created
      · obtain ⟨state, found, isCreated⟩ := created
        rw [runEffect, (didMount_created found isCreated).2, stored, Option.some_or]
      · rw [runEffect, didMount_of_not_created fun state found isCreated =>
          created ⟨state, found, isCreated⟩]
        exact stored

theorem listener?_commit_of_some {α : Type} {outcome : Outcome α} {host : Host} {id : ListenerId}
    {behaviour : ListenerBehaviour}
    (stored : (outcome.steps.foldl runStep host).listener? id = some behaviour) :
    (host.commit outcome).listener? id = some behaviour := by
  unfold commit
  generalize outcome.steps.foldl runStep host = stepped at stored ⊢
  induction outcome.effects generalizing stepped with
  | nil => exact stored
  | cons effect rest ih => exact ih _ (listener?_runEffect_of_some stored effect)

end Host

namespace Client

/-! ## Before the first frame -/

/-- A client whose trees are empty and that has declared nothing. -/
structure Blank (client : Client) : Prop where
  sound : Sound client
  body : client.body = .empty
  contexts : client.host.contexts = []

theorem Blank.of_quietly {location : String} {policy : ReconnectPolicy} {client : Client}
    (changes : Quietly (Client.new location policy) client) : Blank client := by
  refine changes.preserves (fun client after blank change => ?_)
    ⟨(Run.new location policy).sound, rfl, rfl⟩
  have body : after.body = .empty := by
    have before := blank.body
    cases change with
    | aside host body head => rwa [body]
    | report | locate | openSession | dropSession | fire | setGlobal | setAttribute | addObject
    | setPayload | sync => exact before
    | changeInputs keeps => simp only [before, Mounted.mapNodes]
  exact ⟨blank.sound.quiet change, body, (contexts_quiet change).trans blank.contexts⟩

theorem Blank.listener? {client : Client} (blank : Blank client) (id : ListenerId) :
    client.host.listener? id = none := by
  rw [Host.listener?, Host.context, blank.contexts]
  rfl

/-- After the first rendering listeners do what the spine declares, at the root and in the contents
    of the components that are created. -/
theorem Blank.hears {client : Client} (blank : Blank client) (session : SessionId)
    (spine : Spine) : (client.renderBody session spine).host.Hears (.root session) spine ∧
      ∀ identity payload, .instantiate identity payload ∈
          (Mounted.mount (.root session) spine client.host.supply).steps →
        (client.renderBody session spine).host.Hears identity.site payload.content := by
  have steps : Deed.steps (client.deeds (.body session spine)) =
      (Mounted.mount (.root session) spine client.host.supply).steps := by
    rw [deeds, Outcome.steps_deeds, blank.body, Mounted.reconcile_of_empty]
  obtain ⟨_, finish, turnover, -⟩ := turnover_render blank.sound.settled (.body session spine)
  obtain ⟨again, old, declares⟩ := declaresContents_render blank.sound.settled
    (.body session spine)
  have rendered : (client.renderBody session spine).host = (client.prepared
      (.body session spine)).commit ⟨(), Deed.steps (client.deeds (.body session spine)),
        Deed.effects (client.deeds (.body session spine)), finish⟩ :=
    host_render_eq_commit (.body session spine) client finish
  constructor
  · intro segments fid declared found
    rw [rendered]
    apply Host.listener?_commit_of_some
    have prepared : (client.prepared (.body session spine)).listener?
        ⟨.root session, (Path.root).descend segments, fid⟩ = some declared.behaviour := by
      rw [prepared, Host.listener?_declareAll, blank.listener?, Option.none_or,
        ListenerId.firstIn_declaredAt _ (.root session) segments spine rfl rfl, found]
      rfl
    rw [Host.listener?_steps]
    exact congrArg (Option.or · _) prepared
  · intro identity payload created segments fid declared found
    rw [rendered]
    apply Host.listener?_commit_of_some
    rw [← steps] at created
    have instances := instances_prepared (.body session spine) client
    rw [← supply_prepared (.body session spine)] at turnover
    rw [← instances] at old
    have nothing := (listener?_prepared (.body session spine) client rfl).trans
      (blank.listener? ⟨identity.context, identity.path.descend segments, fid⟩)
    have declared := turnover.listener?_of_created (blank.sound.settled.congr instances) declares
      old created rfl rfl nothing
    exact declared.trans (congrArg (Option.map Listener.behaviour) found)

/-- After the first rendering every element of the spine is at its position, and its listeners do
    what they declare. -/
theorem Blank.stands {client : Client} (blank : Blank client) {session : SessionId}
    (live : client.host.current = some session) {spine : Spine} (distinct : spine.Distinct)
    {entry : Path × String × List Attribute} (among : entry ∈ spine.elements .root) :
    let shown := client.renderBody session spine
    shown.host.current = some session ∧ ∃ place node,
      (place, node) ∈ shown.body.elementsAt (.root session) ∧ shown.elementAt entry.1 = some node ∧
        shown.host.Works place.context ∧ StandsAt shown.host entry place node := by
  intro shown
  have current : shown.host.current = some session :=
    (opened_render (.body session spine) client).2.trans live
  have body : shown.body = (Mounted.mount (.root session) spine client.host.supply).value := by
    have reconciled : shown.body =
        (Mounted.reconcile (.root session) client.body spine client.host.supply).value := by
      simp only [shown, renderBody, reconcileBody, modifyHost, supply_declareAll]
    rw [reconciled, blank.body, Mounted.reconcile_of_empty]
  have sound : Sound shown := blank.sound.render (.body session spine)
  obtain ⟨root, contents⟩ := blank.hears session spine
  obtain ⟨place, node, there, stands⟩ := (Mounted.mount_stands shown.host).mount (.root session)
    spine client.host.supply distinct root contents entry among
  rw [← body] at there
  have shows := Mounted.shows_mount (.root session) spine client.host.supply
  rw [← body] at shows
  obtain ⟨segments, leads, found⟩ :=
    Mounted.find?_of_mem_elementsAt shows.placed (shows.distinct distinct) there
  refine ⟨current, place, node, there, ?_, ?_, stands⟩
  · have position : entry.1.segments = segments := by
      rw [← stands.path, leads]
      rfl
    rw [elementAt, position, found]
  · rcases Mounted.context_of_elementAt there with own | ⟨identity, inside, same⟩
    · rw [own]
      exact .root current
    · rw [same]
      exact HasContext.works sound (.inside (List.mem_append_left _ inside))

/-! ## Events on elements -/

/-- The client after an input has followed an event that changes it. -/
def follow (node : MountedElement) (event : String) (native : Value) (client : Client) : Client :=
  if node.tag = inputTag ∧ listenerProperty event = changeProperty then
    { client with
      body := client.body.modifyInput node.handle (·.change client.host.objects native) }
  else client

theorem host_follow (node : MountedElement) (event : String) (native : Value) (client : Client) :
    (client.follow node event native).host = client.host := by
  unfold follow
  split <;> rfl

section

variable {client : Client} {place : Site} {tag : String} {attributes : List Attribute}
  {node : MountedElement} {event : String}

/-- An event goes to the listener that writes the property for it, after an input has followed the
    event. -/
theorem dispatch_of_writing (here : client.elementAt place.path = some node)
    (rendered : node = Mounted.rendered place tag attributes node.handle) {declared : Listener}
    (writing : Attribute.listenerWriting? (listenerProperty event) attributes = some declared)
    (native : Value) : client.dispatch place.path event native =
      (true, ((client.follow node event native).modifyHost
        (·.fire ⟨place.context, place.path, declared.fid⟩ native)).refreshInputs) := by
  have isTag : node.tag = tag := by rw [rendered]; rfl
  have offered : node.props.listener? (listenerProperty event) =
      if tag = inputTag ∧ listenerProperty event = changeProperty then some (.input node.handle)
      else some (.listener ⟨place.context, place.path, declared.fid⟩) := by
    rw [rendered, Mounted.listener?_rendered, writing]
    rfl
  unfold dispatch follow
  simp only [here, offered, isTag]
  by_cases changes : tag = inputTag ∧ listenerProperty event = changeProperty
  · have forwarded : node.input.bind ControlledInput.forwardTo =
        some (.listener ⟨place.context, place.path, declared.fid⟩) := by
      rw [rendered, Mounted.forwardTo_rendered place changes.1, ← changes.2, writing]
      rfl
    simp only [if_pos changes, call, forwarded]
  · simp only [if_neg changes, call]

theorem sent_dispatch_of_no_writing (here : client.elementAt place.path = some node)
    (rendered : node = Mounted.rendered place tag attributes node.handle)
    (nothing : Attribute.listenerWriting? (listenerProperty event) attributes = none)
    (native : Value) :
    (client.dispatch place.path event native).2.host.sent = client.host.sent := by
  have offered : node.props.listener? (listenerProperty event) =
      if tag = inputTag ∧ listenerProperty event = changeProperty then some (.input node.handle)
      else none := by
    rw [rendered, Mounted.listener?_rendered, nothing]
    rfl
  unfold dispatch
  simp only [here, offered]
  by_cases changes : tag = inputTag ∧ listenerProperty event = changeProperty
  · have forwarded : node.input.bind ControlledInput.forwardTo = none := by
      rw [rendered, Mounted.forwardTo_rendered place changes.1, ← changes.2, nothing]
      rfl
    simp only [if_pos changes, call, forwarded]
    exact sent_refreshInputs _
  · simp only [if_neg changes]

end

/-- After the first frame every element of the spine is found by its position, and an event on it
    makes the listener that writes the property for the event last do what it declares, in the
    context of the component around the element. An input follows a change before, and nothing is
    sent but what the listener sends. Where no listener writes the property last, nothing is sent.
    Before the first frame a connection may be opened, messages may arrive, and whatever else the
    renderer has no part in may happen. -/
theorem events_reach_handlers {location : String} {policy : ReconnectPolicy}
    {before client : Client} (opened : Quietly (Client.new location policy) before) {raw : Json}
    {spine : Spine} (waits : before.scheduler.pending = some raw)
    (reads : Spine.decode .root raw = .ok spine) (framed : before.frame = (true, client))
    (distinct : spine.Distinct) (apart : ∀ entry ∈ spine.elements .root,
      ((Attribute.listeners entry.2.2).map Listener.fid).Nodup)
    {path : Path} {tag : String} {attributes : List Attribute}
    (among : (path, tag, attributes) ∈ spine.elements .root) :
    ∃ session, client.host.current = some session ∧ ∃ place node,
      (place, node) ∈ client.body.elementsAt (.root session) ∧ place.path = path ∧
      client.elementAt path = some node ∧ node.tag = tag ∧
      ∀ event native,
        (∀ declared,
          Attribute.listenerWriting? (listenerProperty event) attributes = some declared →
            client.dispatch path event native = (true, ((client.follow node event native).modifyHost
              (·.behaved ⟨place.context, path, declared.fid⟩ declared.behaviour
                native)).refreshInputs) ∧
            (client.dispatch path event native).2.host.sent = (client.host.behaved
              ⟨place.context, path, declared.fid⟩ declared.behaviour native).sent) ∧
        (Attribute.listenerWriting? (listenerProperty event) attributes = none →
          (client.dispatch path event native).2.host.sent = client.host.sent) := by
  have blank := Blank.of_quietly opened
  cases live : before.host.current with
  | none => simp [frame, Scheduler.take, waits, live] at framed
  | some session =>
      have shown : ({ before with scheduler := before.scheduler.take.2 }).renderBody session spine =
          client := by
        simpa [frame, Scheduler.take, waits, live, reads] using framed
      have ready : Blank { before with scheduler := before.scheduler.take.2 } :=
        ⟨blank.sound.congr rfl rfl rfl, blank.body, blank.contexts⟩
      have stood := ready.stands live distinct among
      rw [shown] at stood
      obtain ⟨current, place, node, there, here, works, stands⟩ := stood
      obtain rfl : place.path = path := stands.path
      refine ⟨session, current, place, node, there, rfl, here, ?_, fun event native => ⟨?_, ?_⟩⟩
      · rw [stands.rendered]
        rfl
      · intro declared writing
        have stored := stands.does declared.fid declared
          (Attribute.listenerFor?_of_mem (apart _ among)
            (Attribute.mem_listeners_of_writing writing))
        have behaves := Host.fire_eq_behaved stored works native
        rw [dispatch_of_writing here stands.rendered writing native, sent_refreshInputs, modifyHost,
          modifyHost, host_follow, behaves]
        exact ⟨rfl, rfl⟩
      · intro nothing
        exact sent_dispatch_of_no_writing here stands.rendered nothing native

/-- A form with a component around an input that answers changes. -/
def formWithInput : Spine :=
  .element "form" [(4, .component 1 "C1"
    (.element "input" [] [.listener ⟨.name "2", "change", answerGo⟩]) ⟨[], [], []⟩)] []

/-- A client that is about to render the form. -/
def awaitingForm : Client :=
  ((Client.new "/" .never).openConnection).handleMessage formWithInput.encode

/-- A change of the input sends the action from the position of the input. -/
theorem change_sends_action :
    let client := awaitingForm.frame.2
    ∃ place node, (place, node) ∈ client.body.elementsAt (.root 0) ∧
      client.elementAt ⟨[4]⟩ = some node ∧
      client.dispatch ⟨[4]⟩ "change" .absent =
        (true, ((client.follow node "change" .absent).modifyHost
          (·.behaved ⟨place.context, ⟨[4]⟩, .name "2"⟩ (.evaluate "change" answerGo)
            .absent)).refreshInputs) ∧
      (client.dispatch ⟨[4]⟩ "change" .absent).2.host.sent =
        client.host.sent ++ [(0, .action ⟨[4]⟩ "change" (.string "go"))] := by
  intro client
  have opened : Quietly (Client.new "/" .never) awaitingForm :=
    (quietly_openConnection _).trans (quietly_handleMessage _ _)
  have framed : awaitingForm.frame = (true, client) := by
    have rendered : awaitingForm.frame.1 = true := by cbv
    exact Prod.ext rendered rfl
  have distinct : formWithInput.Distinct := by
    simp [formWithInput, Spine.Distinct, Spine.DistinctChildren]
  have apart : ∀ entry ∈ formWithInput.elements .root,
      ((Attribute.listeners entry.2.2).map Listener.fid).Nodup := by
    intro entry among
    rcases List.mem_cons.mp among with rfl | among
    · decide
    · obtain rfl := List.mem_singleton.mp among
      decide
  obtain ⟨session, current, place, node, there, -, here, -, answers⟩ := events_reach_handlers opened
    (by rfl) (Spine.decode_encode formWithInput .root) framed distinct apart
    (List.mem_cons_of_mem _ List.mem_cons_self)
  obtain rfl : session = 0 := by
    have live : client.host.current = some 0 := by
      unfold client
      cbv
    exact Option.some.inj (current.symm.trans live)
  obtain ⟨dispatched, -⟩ := (answers "change" .absent).1 ⟨.name "2", "change", answerGo⟩ (by rfl)
  refine ⟨place, node, there, here, dispatched, ?_⟩
  unfold client
  cbv

end Client

end RemoteView
