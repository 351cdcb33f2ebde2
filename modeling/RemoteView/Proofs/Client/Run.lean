import Mathlib.Logic.Relation
import RemoteView.Client.Connection
import RemoteView.Proofs.Client.Rendering
import RemoteView.Proofs.Mounted.Shows

/-! # Runs

Everything that can happen to a client, from the outside and by its user, and the deeds of the
renderer that come of it. Whatever happens is made of a few small moves, so that what every move
preserves holds of every client that can be reached.
-/

namespace RemoteView

/-- Spines are rendered in the session of the open connection only. -/
def RenderCall.IsLive (client : Client) : RenderCall → Prop
  | .body session _ | .head session _ => client.host.current = some session
  | .update _ | .loading => True

/-- Something that happens to a client. -/
inductive Action where
  | openConnection
  | message (raw : Json)
  | frame
  | takeFrameRequest
  | renderAt (key : String) (raw : Json)
  | renderFragments (fragments : List Json)
  | close
  | fail (reason : String)
  | popState
  | navigate (location : String)
  | dispatch (path : Path) (event : String) (native : Value)
  | typeText (path : Path) (text : String)
  | setAttribute (path : Path) (name : String) (value : Json)
  | dispatchWindow (event : String) (native : Value)
  | setGlobal (name : String) (value : Json)
  /-- The program around makes an object that events can refer to. -/
  | addObject (object : HostObject)

namespace Client

/-- The client after something has happened. -/
def perform (action : Action) (client : Client) : Client :=
  match action with
  | .openConnection => client.openConnection
  | .message raw => client.handleMessage raw
  | .frame => client.frame.2
  | .takeFrameRequest => client.takeFrameRequest.2
  | .renderAt key raw => (client.renderAt key raw).2
  | .renderFragments fragments => (client.renderFragments fragments).2
  | .close => client.close.2
  | .fail reason => (client.fail reason).2
  | .popState => client.popState
  | .navigate location => client.navigate location
  | .dispatch path event native => (client.dispatch path event native).2
  | .typeText path text => (client.typeText path text).2
  | .setAttribute path name value => client.setAttribute path name value
  | .dispatchWindow event native => (client.dispatchWindow event native).2
  | .setGlobal name value => client.modifyHost (·.setGlobal name value)
  | .addObject object =>
      client.modifyHost fun host => { host with objects := (host.objects.add object).2 }

/-- The call of the renderer that comes of what happens, and the client that it is made on. -/
def call? (action : Action) (client : Client) : Option (Client × RenderCall) :=
  match action with
  | .frame => do
      let raw ← client.scheduler.take.1
      let session ← client.host.current
      let spine ← (Spine.decode .root raw).toOption
      return ({ client with scheduler := client.scheduler.take.2 }, .body session spine)
  | .renderAt key raw => do
      let session ← client.host.current
      let state ← client.host.mountedAt session key
      let payload ← (Payload.decode state.identity.path raw).toOption
      return (client.modifyHost (·.setPayload state.identity.id payload),
        .update state.identity.id)
  | .renderFragments fragments => do
      let session ← client.host.current
      let spines ← (fragments.mapM (Spine.decode .root)).toOption
      return (client, .head session spines)
  | .close | .fail _ =>
      let dropped := client.modifyHost Host.dropSession
      some ({ dropped with scheduler := dropped.scheduler.take.2 }, .loading)
  | _ => none

/-- The deeds of the renderer when something happens. -/
def actionDeeds (action : Action) (client : Client) : List Deed :=
  match client.call? action with
  | some (ready, call) => ready.deeds call
  | none => []

/-- Clients that can be reached, with all deeds of their renderer so far. -/
inductive Run : List Deed → Client → Prop
  | new (location : String) (policy : ReconnectPolicy) : Run [] (Client.new location policy)
  | perform {past : List Deed} {client : Client} (run : Run past client) (action : Action) :
      Run (past ++ client.actionDeeds action) (client.perform action)

/-- Clients that can be reached. -/
def Reachable (client : Client) : Prop := ∃ past, Run past client

/-! ## Moves -/

/-- Can an event reach a listener, from the window or from an element? -/
def Offers (client : Client) (id : ListenerId) : Prop :=
  (∃ event, (event, id) ∈ client.host.windowListeners) ∨
    ∃ path element, client.elementAt path = some element ∧
      ((∃ name, element.props.listener? name = some (.listener id)) ∨
        element.input.bind ControlledInput.forwardTo = some (.listener id))

/-- A small change of a client that the renderer has no part in. -/
inductive Quiet : Client → Client → Prop
  /-- Nothing that is rendered or could be reached by callbacks changes. -/
  | aside {client after : Client} (host : after.host = client.host) (body : after.body = client.body)
      (head : after.head = client.head) : Quiet client after
  | report (client : Client) (notice : Notice) : Quiet client (client.modifyHost (·.report notice))
  /-- The other side is told which location is shown. -/
  | locate (client : Client) {session : SessionId} (live : client.host.current = some session) :
      Quiet client (client.modifyHost (·.send session (.location client.navigation.current)))
  | openSession (client : Client) : Quiet client (client.modifyHost (·.openSession.2))
  | dropSession (client : Client) : Quiet client (client.modifyHost Host.dropSession)
  | fire (client : Client) (id : ListenerId) (offered : client.Offers id) (event : Value) :
      Quiet client (client.modifyHost (·.fire id event))
  | setGlobal (client : Client) (name : String) (value : Json) :
      Quiet client (client.modifyHost (·.setGlobal name value))
  | setAttribute (client : Client) (handle : ObjectId) (name : String) (value : Json) :
      Quiet client (client.modifyHost fun host =>
        { host with objects := host.objects.modifyElement handle (·.setAttribute name value) })
  | addObject (client : Client) (object : HostObject) :
      Quiet client (client.modifyHost fun host =>
        { host with objects := (host.objects.add object).2 })
  | setPayload (client : Client) (id : InstanceId) (payload : Payload) :
      Quiet client (client.modifyHost (·.setPayload id payload))
  /-- Inputs change their values, and perhaps show them. -/
  | changeInputs (client : Client) {change : MountedElement → MountedElement}
      (keeps : Mounted.KeepsPlace change) :
      Quiet client { client with body := client.body.mapNodes change }
  | sync (client : Client) (handle : ObjectId) (props : Props) :
      Quiet client (client.modifyHost (·.runStep (.syncHandle handle props)))

/-- Small changes one after another. -/
abbrev Quietly : Client → Client → Prop := Relation.ReflTransGen Quiet

theorem Quietly.preserves {P : Client → Prop} {client after : Client}
    (changes : Quietly client after) (step : ∀ client after, P client → Quiet client after → P after)
    (holds : P client) : P after := by
  induction changes with
  | refl => exact holds
  | tail _ change ih => exact step _ _ ih change

/-- What happens to a client with the call of the renderer that comes of it, if there is one: all
    around the call is quiet. -/
inductive Happens : Client → Option (Client × RenderCall) → Client → Prop
  | quietly {client after : Client} (changes : Quietly client after) : Happens client none after
  | render {client ready after : Client} {call : RenderCall} (before : Quietly client ready)
      (live : call.IsLive ready) (afterwards : Quietly (ready.render call) after) :
      Happens client (some (ready, call)) after

/-- A small change of a client, with the deeds of its renderer. -/
inductive Move : Client → List Deed → Client → Prop
  | quiet {client after : Client} (change : Quiet client after) : Move client [] after
  | render (client : Client) (call : RenderCall) (live : call.IsLive client) :
      Move client (client.deeds call) (client.render call)

/-- Moves one after another. -/
inductive Moves : Client → List Deed → Client → Prop
  | refl (client : Client) : Moves client [] client
  | tail {client middle after : Client} {deeds more : List Deed} (moves : Moves client deeds middle)
      (move : Move middle more after) : Moves client (deeds ++ more) after

namespace Moves

variable {client middle after : Client} {deeds more : List Deed}

theorem trans (first : Moves client deeds middle) (second : Moves middle more after) :
    Moves client (deeds ++ more) after := by
  induction second with
  | refl => simpa using first
  | tail moves move ih =>
      rw [← List.append_assoc]
      exact ih.tail move

theorem of_quietly (changes : Quietly client after) : Moves client [] after := by
  induction changes with
  | refl => exact refl client
  | tail _ change ih => simpa using ih.tail (.quiet change)

theorem invariant {P : List Deed → Client → Prop}
    (step : ∀ past client deeds after, P past client → Move client deeds after →
      P (past ++ deeds) after) {past : List Deed} (holds : P past client)
    (moves : Moves client deeds after) : P (past ++ deeds) after := by
  induction moves with
  | refl => simpa using holds
  | tail moves move ih =>
      rw [← List.append_assoc]
      exact step _ _ _ _ ih move

end Moves

/-! ## What happens is made of moves -/

theorem quietly_openConnection (client : Client) : Quietly client client.openConnection := by
  unfold openConnection
  simp only
  split
  · exact ((Relation.ReflTransGen.single (.report client .openedOverSession)).tail
      (.openSession _)).tail (.locate _ rfl)
  · exact (Relation.ReflTransGen.single (.openSession client)).tail (.locate _ rfl)

theorem quietly_handleMessage (raw : Json) (client : Client) :
    Quietly client (client.handleMessage raw) := by
  unfold handleMessage
  split
  · exact .single (.aside rfl rfl rfl)
  · unfold pushLocation
    split
    · exact .refl
    · exact .single (.aside rfl rfl rfl)
  · exact .single (.report client _)

theorem happens_frame (client : Client) :
    Happens client (client.call? .frame) client.frame.2 := by
  have aside : Quietly client { client with scheduler := client.scheduler.take.2 } :=
    .single (.aside rfl rfl rfl)
  unfold frame
  cases pending : client.scheduler.take.1 with
  | none => simpa [call?, pending] using Happens.quietly aside
  | some raw =>
      cases live : client.host.current with
      | none => simpa [call?, pending, live] using Happens.quietly aside
      | some session =>
          cases decoded : Spine.decode .root raw with
          | ok spine =>
              simpa [call?, pending, live, decoded, Except.toOption, render] using
                Happens.render aside (show RenderCall.IsLive _ (.body session spine) from live) .refl
          | error error =>
              simpa [call?, pending, live, decoded, Except.toOption, abandon] using
                Happens.quietly (aside.tail (.report _ (.abandonedRender .frame error)))

theorem happens_renderFragments (fragments : List Json) (client : Client) :
    Happens client (client.call? (.renderFragments fragments))
      (client.renderFragments fragments).2 := by
  unfold renderFragments
  cases live : client.host.current with
  | none => simpa [call?, live] using Happens.quietly (.refl (a := client))
  | some session =>
      cases decoded : fragments.mapM (Spine.decode .root) with
      | ok spines =>
          simpa [call?, live, decoded, Except.toOption, render] using
            Happens.render .refl (show RenderCall.IsLive client (.head session spines) from live) .refl
      | error error =>
          simpa [call?, live, decoded, Except.toOption, abandon] using
            Happens.quietly (.single (.report client (.abandonedRender .head error)))

theorem quietly_dropped (client : Client) : Quietly client { client.modifyHost Host.dropSession with
    scheduler := (client.modifyHost Host.dropSession).scheduler.take.2 } :=
  .tail (.single (.dropSession client)) (.aside rfl rfl rfl)

theorem quietly_refreshInputs (client : Client) : Quietly client client.refreshInputs := by
  unfold refreshInputs
  have synced (elements : List MountedElement) (client : Client) :
      Quietly client (client.modifyHost fun host => elements.foldl
        (fun host element => host.runStep (.syncHandle element.handle element.props)) host) := by
    induction elements generalizing client with
    | nil => exact .refl
    | cons element rest ih =>
        exact (Relation.ReflTransGen.single (.sync client element.handle element.props)).trans (ih _)
  rw [Mounted.refresh_eq]
  exact (synced client.body.stale client).tail (.changeInputs _ Mounted.keepsPlace_withInputValue)

theorem quietly_call {client : Client} {path : Path} {element : MountedElement}
    (here : client.elementAt path = some element) {name : String} {callback : Callback}
    (given : element.props.listener? name = some callback) (event : Value) :
    Quietly client (client.call callback element event) := by
  cases callback with
  | listener id => exact .single (.fire client id (.inr ⟨path, element, here, .inl ⟨name, given⟩⟩) event)
  | external label => exact .refl
  | input handle =>
      simp only [call, Mounted.modifyInput_eq]
      have keeps := Mounted.keepsPlace_modifyInput handle
        fun input => show (input.change client.host.objects event).forwardTo = _ from rfl
      split
      · -- The host and the inputs change apart from each other, so the listener may come first.
        rename_i id forwarded
        exact (Relation.ReflTransGen.single
          (.fire client id (.inr ⟨path, element, here, .inr forwarded⟩) event)).tail
            (.changeInputs _ keeps)
      · exact .single (.changeInputs client keeps)

theorem quietly_dispatch (path : Path) (event : String) (native : Value) (client : Client) :
    Quietly client (client.dispatch path event native).2 := by
  unfold dispatch
  split
  · exact .refl
  · rename_i element here
    split
    · exact .refl
    · rename_i callback given
      exact (quietly_call here given native).trans (quietly_refreshInputs _)

theorem quietly_setAttribute (path : Path) (name : String) (value : Json) (client : Client) :
    Quietly client (client.setAttribute path name value) := by
  unfold setAttribute
  split
  · exact .refl
  · exact .single (.setAttribute client _ name value)

theorem quietly_typeText (path : Path) (text : String) (client : Client) :
    Quietly client (client.typeText path text).2 := by
  unfold typeText
  split
  · exact .refl
  · exact ((quietly_setAttribute path valueProperty (.string text) client).tail
      (.addObject _ _)).trans (quietly_dispatch _ _ _ _)

theorem quietly_dispatchWindow (event : String) (native : Value) (client : Client) :
    Quietly client (client.dispatchWindow event native).2 := by
  have fired (ids : List ListenerId) (client : Client)
      (added : ∀ id ∈ ids, (event, id) ∈ client.host.windowListeners) :
      Quietly client (client.modifyHost fun host =>
        ids.foldl (fun host id => host.fire id native) host) := by
    induction ids generalizing client with
    | nil => exact .refl
    | cons id rest ih =>
        obtain ⟨here, there⟩ := List.forall_mem_cons.mp added
        refine (Relation.ReflTransGen.single (.fire client id (.inl ⟨event, here⟩) native)).trans
          (ih _ fun other member => ?_)
        rw [modifyHost, (Host.CalledBack.fire id native client.host).windowListeners]
        exact there other member
  refine fired (client.host.listenersFor event) client fun id member => ?_
  obtain ⟨⟨name, other⟩, isAdded, rfl⟩ := List.mem_map.mp member
  obtain ⟨there, same⟩ := List.mem_filter.mp isAdded
  obtain rfl : name = event := by simpa using same
  exact there

theorem happens_renderAt {client : Client} (named : client.host.Named) (key : String)
    (raw : Json) : Happens client (client.call? (.renderAt key raw)) (client.renderAt key raw).2 := by
  unfold renderAt
  cases live : client.host.current with
  | none => simpa [call?, live] using Happens.quietly (.refl (a := client))
  | some session =>
      cases mounted : client.host.mountedAt session key with
      | none =>
          simpa [call?, live, mounted] using
            Happens.quietly (.single (.report client (.noComponentAt key)))
      | some state =>
          cases decoded : Payload.decode state.identity.path raw with
          | error error =>
              simpa [call?, live, mounted, decoded, Except.toOption, abandon] using
                Happens.quietly (.single (.report client (.abandonedRender .component error)))
          | ok payload =>
              have found := named.get?_of_mountedAt mounted
              have stored : (client.host.setPayload state.identity.id payload).instances.get?
                  state.identity.id = some { state with payload := payload } := by
                simp [Host.setPayload, Host.modifyInstance, Numbered.get?_modify, found]
              have rendered : (client.modifyHost (·.setPayload state.identity.id payload)).render
                  (.update state.identity.id) =
                    (client.modifyHost (·.setPayload state.identity.id payload)).renderInstance
                      { state with payload := payload } := by
                simp only [render, modifyHost, stored]
              have happens := Happens.render (.single (.setPayload client state.identity.id payload))
                (show RenderCall.IsLive _ (.update state.identity.id) from trivial) .refl
              rw [rendered] at happens
              simpa [call?, live, mounted, decoded, Except.toOption] using happens

/-- Whatever happens is quiet, but for the call of the renderer that comes of it. -/
theorem happens_perform {client : Client} (named : client.host.Named) (action : Action) :
    Happens client (client.call? action) (client.perform action) := by
  cases action with
  | openConnection => exact .quietly (quietly_openConnection client)
  | message raw => exact .quietly (quietly_handleMessage raw client)
  | frame => exact happens_frame client
  | takeFrameRequest => exact .quietly (.single (.aside rfl rfl rfl))
  | renderAt key raw => exact happens_renderAt named key raw
  | renderFragments fragments => exact happens_renderFragments fragments client
  | close => exact .render (quietly_dropped client) trivial .refl
  | fail reason => exact .render (quietly_dropped client) trivial (.single (.report _ _))
  | popState =>
      refine .quietly ?_
      unfold perform popState
      simp only
      split
      · rename_i session live
        exact .single (.locate client live)
      · exact .refl
  | navigate location => exact .quietly (.single (.aside rfl rfl rfl))
  | dispatch path event native => exact .quietly (quietly_dispatch path event native client)
  | typeText path text => exact .quietly (quietly_typeText path text client)
  | setAttribute path name value => exact .quietly (quietly_setAttribute path name value client)
  | dispatchWindow event native => exact .quietly (quietly_dispatchWindow event native client)
  | setGlobal name value => exact .quietly (.single (.setGlobal client name value))
  | addObject object => exact .quietly (.single (.addObject client object))

/-- Where a call of the renderer comes of what happens, nothing follows it but a notice. -/
theorem perform_of_call? {client ready : Client} {action : Action} {call : RenderCall}
    (named : client.host.Named) (called : client.call? action = some (ready, call)) :
    ∃ log, client.perform action =
      { ready.render call with host := { (ready.render call).host with log := log } } := by
  have whole {after : Client} (same : client.perform action = after) :
      ∃ log, client.perform action = { after with host := { after.host with log := log } } :=
    ⟨_, same⟩
  cases action with
  | frame =>
      simp only [call?, Option.bind_eq_bind, Option.bind_eq_some_iff, Option.pure_def,
        Option.some.injEq, Prod.mk.injEq] at called
      obtain ⟨raw, waits, session, live, spine, reads, rfl, rfl⟩ := called
      refine whole ?_
      cases decoded : Spine.decode .root raw with
      | error error => rw [decoded] at reads; cases reads
      | ok found =>
          rw [decoded] at reads
          obtain rfl := Option.some.inj reads
          simp only [perform, frame, waits, live, decoded, render]
  | renderAt key raw =>
      simp only [call?, Option.bind_eq_bind, Option.bind_eq_some_iff, Option.pure_def,
        Option.some.injEq, Prod.mk.injEq] at called
      obtain ⟨session, live, state, mounted, payload, reads, rfl, rfl⟩ := called
      refine whole ?_
      cases decoded : Payload.decode state.identity.path raw with
      | error error => rw [decoded] at reads; cases reads
      | ok found =>
          rw [decoded] at reads
          obtain rfl := Option.some.inj reads
          have stored := named.get?_of_mountedAt mounted
          simp [perform, renderAt, live, mounted, decoded, render, modifyHost, Host.setPayload,
            Host.modifyInstance, Numbered.get?_modify, stored]
  | renderFragments fragments =>
      simp only [call?, Option.bind_eq_bind, Option.bind_eq_some_iff, Option.pure_def,
        Option.some.injEq, Prod.mk.injEq] at called
      obtain ⟨session, live, spines, reads, rfl, rfl⟩ := called
      refine whole ?_
      cases decoded : fragments.mapM (Spine.decode .root) with
      | error error => rw [decoded] at reads; cases reads
      | ok found =>
          rw [decoded] at reads
          obtain rfl := Option.some.inj reads
          simp only [perform, renderFragments, live, decoded, render]
  | close =>
      obtain ⟨rfl, rfl⟩ := Prod.mk.inj (Option.some.inj called)
      exact whole rfl
  | fail reason =>
      obtain ⟨rfl, rfl⟩ := Prod.mk.inj (Option.some.inj called)
      exact ⟨_, rfl⟩
  | openConnection | message | takeFrameRequest | popState | navigate | dispatch | typeText
  | setAttribute | dispatchWindow | setGlobal | addObject => cases called

theorem moves_perform {client : Client} (named : client.host.Named) (action : Action) :
    Moves client (client.actionDeeds action) (client.perform action) := by
  unfold actionDeeds
  have happens := happens_perform named action
  generalize client.call? action = called at happens ⊢
  cases happens with
  | quietly changes => exact .of_quietly changes
  | render before live afterwards =>
      simpa using ((Moves.of_quietly before).tail (.render _ _ live)).trans (.of_quietly afterwards)

theorem Quiet.named {client after : Client} (change : Quiet client after)
    (named : client.host.Named) : after.host.Named := by
  cases change with
  | aside host body head => exact named.congr (by rw [host])
  | report | locate | openSession | dropSession | setAttribute | addObject | changeInputs | sync =>
      exact named
  | fire id offered event => exact named.congr (Host.CalledBack.fire id event _).instances
  | setGlobal name value => exact named.congr (Host.CalledBack.setGlobal name value _).instances
  | setPayload id payload => exact named.modifyInstance id _ fun _ => rfl

theorem Move.named {client after : Client} {deeds : List Deed} (move : Move client deeds after)
    (named : client.host.Named) : after.host.Named := by
  cases move with
  | quiet change => exact change.named named
  | render call live => exact named_render named call

/-- What holds of a new client and is preserved by every move holds of every client that can be
    reached. -/
theorem Run.invariant {P : List Deed → Client → Prop}
    (new : ∀ location policy, P [] (Client.new location policy))
    (step : ∀ past client deeds after, P past client → Move client deeds after →
      P (past ++ deeds) after) {past : List Deed} {client : Client} (run : Run past client) :
    P past client := by
  have both : P past client ∧ client.host.Named := by
    induction run with
    | new location policy =>
        refine ⟨new location policy, fun id standing found => ?_⟩
        simp [Client.new, Host.standing, Host.empty, Numbered.get?, Numbered.empty] at found
    | perform run action ih =>
        obtain ⟨holds, named⟩ := ih
        have moves := moves_perform named action
        refine Moves.invariant (P := fun past client => P past client ∧ client.host.Named)
          (fun past client deeds after before move =>
            ⟨step past client deeds after before.1 move, move.named before.2⟩)
          ⟨holds, named⟩ moves
  exact both.1

/-! ## What is always true of the trees -/

/-- The instances of the trees are those that are alive, and everything stands at its place in some
    session. -/
structure Sound (client : Client) : Prop where
  settled : client.host.Settled client.instances
  body : ∃ session, client.body.Placed (.root session)
  head : ∃ session, ∀ tree ∈ client.head, tree.Placed (.root session)

namespace Sound

variable {client after : Client}

theorem congr (sound : Sound client) (instances : after.host.instances = client.host.instances)
    (body : after.body = client.body) (head : after.head = client.head) : Sound after where
  settled := by
    rw [Client.instances, body, head]
    exact sound.settled.congr instances
  body := by
    rw [body]
    exact sound.body
  head := by
    rw [head]
    exact sound.head

theorem placed_root {old : Mounted} {before : SessionId} (placed : old.Placed (.root before))
    (session : SessionId) (spine : Spine) (supply : Supply) :
    (Mounted.reconcile (.root session) old spine supply).value.Placed (.root session) :=
  (Mounted.shows_reconcile (.root session) placed spine supply).placed

theorem placed_head {old : List Mounted} {before : SessionId}
    (placed : ∀ tree ∈ old, tree.Placed (.root before)) (session : SessionId)
    (spines : List Spine) (supply : Supply) :
    ∀ tree ∈ (Mounted.reconcileAll (.root session) old spines supply).value,
      tree.Placed (.root session) :=
  Mounted.placed_of_forall₂ (Mounted.shows_reconcileAll (.root session)
    (fun tree member => ⟨.root before, placed tree member⟩) spines supply)

theorem render (sound : Sound client) (call : RenderCall) : Sound (client.render call) := by
  obtain ⟨settled, ⟨inBody, body⟩, ⟨inHead, head⟩⟩ := sound
  cases call with
  | body session spine =>
      exact ⟨settled_render settled _, ⟨session, placed_root body session spine _⟩, inHead, head⟩
  | head session spines =>
      exact ⟨settled_render settled _, ⟨inBody, body⟩, session, placed_head head session spines _⟩
  | update id =>
      refine ⟨settled_render settled _, ⟨inBody, ?_⟩, inHead, ?_⟩
      · cases found : client.host.instances.get? id with
        | none => simpa only [Client.render, found] using body
        | some state =>
            simp only [Client.render, found, renderInstance]
            split
            · exact (Mounted.rerender_placed _ _).rerender _ _ body
            · split <;> exact body
      · cases found : client.host.instances.get? id with
        | none => simpa only [Client.render, found] using head
        | some state =>
            simp only [Client.render, found, renderInstance]
            split
            · exact head
            · split
              · exact Mounted.forall_mem_rerenderFirst
                  (fun tree supply => (Mounted.rerender_placed _ _).rerender tree supply) head _
              · exact head
  | loading =>
      exact ⟨settled_render settled _, ⟨0, placed_root body 0 loadingSpine
        (client.reconcileHead (.root 0) []).host.supply⟩, 0,
        placed_head head 0 [] client.host.supply⟩

theorem quiet (sound : Sound client) (change : Quiet client after) : Sound after := by
  cases change with
  | aside host body head => exact sound.congr (by rw [host]) body head
  | report | locate | openSession | dropSession | setAttribute | addObject | sync =>
      exact sound.congr rfl rfl rfl
  | fire id offered event => exact sound.congr (Host.CalledBack.fire id event _).instances rfl rfl
  | setGlobal name value =>
      exact sound.congr (Host.CalledBack.setGlobal name value _).instances rfl rfl
  | setPayload id payload =>
      exact ⟨sound.settled.modifyInstance id _ fun _ => rfl, sound.body, sound.head⟩
  | changeInputs keeps =>
      obtain ⟨session, placed⟩ := sound.body
      refine ⟨?_, ⟨session, Mounted.placed_mapNodes keeps placed⟩, sound.head⟩
      simpa [Client.instances] using sound.settled

theorem move (sound : Sound client) {deeds : List Deed} (move : Move client deeds after) :
    Sound after := by
  cases move with
  | quiet change => exact sound.quiet change
  | render call live => exact sound.render call

end Sound

theorem Run.sound {past : List Deed} {client : Client} (run : Run past client) : Sound client :=
  run.invariant (P := fun _ client => Sound client) (fun _ _ => ⟨.empty, ⟨0, trivial⟩, ⟨0, by simp [Client.new]⟩⟩)
    fun _ _ _ _ sound move => sound.move move

/-! ## Where the renderer is called -/

/-- Clients that the renderer can be called on. What happens can change a client that was reached
    before it comes to its call: an instance is given another payload, or the session is dropped. -/
def Callable (client : Client) : Prop := ∃ reached, Reachable reached ∧ Quietly reached client

theorem Reachable.callable {client : Client} (reachable : Reachable client) : Callable client :=
  ⟨client, reachable, .refl⟩

/-- Whatever happens, its call is made on such a client. -/
theorem Reachable.callable_of_call? {client ready : Client} {action : Action} {call : RenderCall}
    (reachable : Reachable client) (called : client.call? action = some (ready, call)) :
    Callable ready := by
  obtain ⟨past, run⟩ := reachable
  have happens := happens_perform run.sound.settled.named action
  rw [called] at happens
  cases happens with
  | render before live afterwards => exact ⟨client, ⟨past, run⟩, before⟩

/-- What is true of all clients that can be reached, and stays so while it is quiet, is true wherever
    the renderer can be called. -/
theorem Callable.invariant {P : Client → Prop} (reached : ∀ past client, Run past client → P client)
    (quiet : ∀ client after, P client → Quiet client after → P after) {client : Client}
    (callable : Callable client) : P client := by
  obtain ⟨before, ⟨past, run⟩, changes⟩ := callable
  exact changes.preserves quiet (reached past before run)

theorem Callable.sound {client : Client} (callable : Callable client) : Sound client :=
  callable.invariant (fun _ _ => Run.sound) fun _ _ => Sound.quiet

/-- Things that happen one after another, with the deeds that come of them. -/
def history (actions : List Action) (client : Client) : List Deed × Client :=
  actions.foldl (fun (past, client) action =>
    (past ++ client.actionDeeds action, client.perform action)) ([], client)

theorem run_history (location : String) (policy : ReconnectPolicy) (actions : List Action) :
    Run (history actions (Client.new location policy)).1
      (history actions (Client.new location policy)).2 := by
  have after (actions : List Action) (so : List Deed × Client) (run : Run so.1 so.2) :
      Run (actions.foldl (fun (past, client) action =>
          (past ++ client.actionDeeds action, client.perform action)) so).1
        (actions.foldl (fun (past, client) action =>
          (past ++ client.actionDeeds action, client.perform action)) so).2 := by
    induction actions generalizing so with
    | nil => exact run
    | cons action rest ih => exact ih _ (run.perform action)
  exact after actions ([], _) (.new location policy)

/-- A component without content, as it is sent. -/
def plainComponent (id : Int) (fits : IntegerFits id) : Json :=
  .object [("type", .string "Component"), ("id", .number (.integer id fits))]

/-- What leads to a client that shows a component without content. -/
def showComponent : List Action :=
  [.openConnection, .message (plainComponent 1 (by decide)), .frame]

end Client

end RemoteView
