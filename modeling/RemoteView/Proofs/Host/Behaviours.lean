import RemoteView.Proofs.Host.Sending
import RemoteView.Proofs.Host.Stored

/-! # What listeners do

A listener does what was declared first for its function at its path in its context, as long as the
context works. A handler is evaluated once; the methods it asks for are called on the event and its
action is sent. Without a handler the event itself is sent.
-/

namespace RemoteView

/-- What a listener of an element does. -/
def Listener.behaviour (declared : Listener) : ListenerBehaviour :=
  .evaluate declared.event declared.handler

/-- The methods that a record asks for, in the order in which they are called. -/
def EventHandler.methods (record : EventHandler) : List String :=
  [(record.preventDefault, "preventDefault"), (record.stopPropagation, "stopPropagation"),
    (record.stopImmediatePropagation, "stopImmediatePropagation")].filterMap
      fun (asked, method) => if asked then some method else none

namespace ListenerId

/-- What a declaration says about a listener. -/
def saidBy (id : ListenerId) : ContextId × Declaration → Option ListenerBehaviour
  | (context, .listener path declared) =>
      if context = id.context ∧ (path, declared.fid) = (id.path, id.fid) then
        some declared.behaviour
      else none
  | _ => none

/-- What declarations say about a listener: the first one counts. -/
def firstIn (id : ListenerId) (declarations : List (ContextId × Declaration)) :
    Option ListenerBehaviour :=
  declarations.findSome? id.saidBy

theorem firstIn_append (id : ListenerId) (left right : List (ContextId × Declaration)) :
    id.firstIn (left ++ right) = (id.firstIn left).or (id.firstIn right) :=
  List.findSome?_append

theorem saidBy_eq_none (id : ListenerId) {pair : ContextId × Declaration}
    (elsewhere : pair.1 ≠ id.context) : id.saidBy pair = none := by
  obtain ⟨context, declaration⟩ := pair
  cases declaration with
  | listener path declared => exact if_neg fun both => elsewhere both.1
  | ref | rules | component => rfl

theorem firstIn_eq_none {id : ListenerId} {declarations : List (ContextId × Declaration)}
    (elsewhere : ∀ pair ∈ declarations, pair.1 ≠ id.context) : id.firstIn declarations = none :=
  List.findSome?_eq_none_iff.mpr fun pair among => id.saidBy_eq_none (elsewhere pair among)

end ListenerId

namespace Host

/-- What a listener does: what was declared for it first. -/
def listener? (id : ListenerId) (host : Host) : Option ListenerBehaviour :=
  Assoc.get? (id.path, id.fid) (host.context id.context).listeners

/-- The host after a handler has answered an event: the methods that it asks for have been called on
    the event, and its action has been sent. -/
def answered (id : ListenerId) (name : String) (event answer : Value) (host : Host) : Host :=
  match answer with
  | .eventHandler record =>
      { host with
        objects := record.methods.foldl
          (fun objects method => ((event.invoke method []).run objects).2) host.objects
        sent := host.sent ++ (record.action.map fun action =>
          (id.context.session, ClientMessage.action id.path name action)).toList }
  | _ => host

/-- The host after a listener has done what it does with an event. A handler is evaluated with the
    event in its hole and the handles of the listener's context. -/
def behaved (id : ListenerId) (behaviour : ListenerBehaviour) (event : Value) (host : Host) :
    Host :=
  match behaviour with
  | .forward => host.send id.context.session (.event id.path id.fid (event.toJson host.objects))
  | .evaluate name handler =>
      let scope : Scope :=
        { holes := [(eventHole, event)], refs := (host.context id.context).handles
          global := .host host.window }
      let (answer, objects) := (handler.evaluate scope).run host.objects
      { host with objects := objects }.answered id name event answer

theorem answerEvent_eq (id : ListenerId) (name : String) (event : Value) (record : EventHandler)
    (host : Host) :
    host.answerEvent id name event record = host.answered id name event (.eventHandler record) := by
  obtain ⟨preventDefault, stopPropagation, stopImmediate, action⟩ := record
  cases preventDefault <;> cases stopPropagation <;> cases stopImmediate <;> cases action <;>
    simp [answerEvent, answered, invokeIf, EventHandler.methods, send]

/-- A listener whose context works does what was declared for it. -/
theorem fire_eq_behaved {host : Host} {id : ListenerId} {behaviour : ListenerBehaviour}
    (stored : host.listener? id = some behaviour) (works : host.Works id.context) (event : Value) :
    host.fire id event = host.behaved id behaviour event := by
  have alive := works.isContextAlive
  have session : host.isSessionAlive id.context.session = true :=
    (Bool.and_eq_true_iff.mp alive).1
  unfold listener? at stored
  unfold fire
  cases behaviour with
  | forward =>
      simp only [stored, session, if_true]
      rfl
  | evaluate name handler =>
      simp only [stored, alive, if_true, evaluateIn_eq, behaved]
      generalize (handler.evaluate ⟨[(eventHole, event)], (host.context id.context).handles,
        .host host.window⟩).run host.objects = outcome
      obtain ⟨answer, objects⟩ := outcome
      cases answer with
      | eventHandler record => exact answerEvent_eq id name event record _
      | absent | json | tuple | host | refHandler => rfl

/-! ## Declarations -/

theorem listener?_modifyContext (context : ContextId) (change : RenderContext → RenderContext)
    (host : Host) (id : ListenerId) : (host.modifyContext context change).listener? id =
      if id.context = context then
        Assoc.get? (id.path, id.fid) (change (host.context context)).listeners
      else host.listener? id := by
  rw [listener?, context_modifyContext]
  split <;> rfl

theorem listener?_insertNew (context : ContextId) (path : Path) (fid : FunctionId)
    (behaviour : ListenerBehaviour) (host : Host) (id : ListenerId) :
    (host.modifyContext context (.listener path fid behaviour)).listener? id =
      (host.listener? id).or
        (if context = id.context ∧ (path, fid) = (id.path, id.fid) then some behaviour
          else none) := by
  rw [listener?_modifyContext]
  by_cases here : id.context = context
  · rw [if_pos here, RenderContext.listener, Assoc.get?_insertNew]
    by_cases same : (id.path, id.fid) = (path, fid)
    · rw [if_pos same, if_pos ⟨here.symm, same.symm⟩, listener?, here, same]
      cases Assoc.get? (path, fid) (host.context context).listeners <;> rfl
    · rw [if_neg same, if_neg (fun both => same both.2.symm), Option.or_none, listener?, here]
  · rw [if_neg here, if_neg (fun both => here both.1.symm), Option.or_none]

theorem listener?_declare (context : ContextId) (host : Host) (declaration : Declaration)
    (id : ListenerId) : (host.declare context declaration).listener? id =
      (host.listener? id).or (id.saidBy (context, declaration)) := by
  cases declaration with
  | listener path declared =>
      exact listener?_insertNew context path declared.fid declared.behaviour host id
  | ref path declared =>
      refine Eq.trans ?_ (Option.or_none ..).symm
      rw [declare, listener?_modifyContext]
      split
      · rename_i here
        rw [listener?, here]
        rfl
      · rfl
  | rules descriptors => exact (Option.or_none ..).symm
  | component number name => exact (Option.or_none ..).symm

/-- Of what a spine declares for a listener the first counts, unless something was declared
    before. -/
theorem listener?_declareAll (site : Site) (spine : Spine) (host : Host) (id : ListenerId) :
    (host.declareAll site spine).listener? id =
      (host.listener? id).or (id.firstIn (spine.declaredAt site)) := by
  unfold declareAll Spine.declaredAt
  induction spine.declarations site.path generalizing host with
  | nil => exact (Option.or_none ..).symm
  | cons declaration rest ih =>
      rw [List.foldl_cons, ih, listener?_declare, List.map_cons, Option.or_assoc]
      congr 1
      simp only [ListenerId.firstIn, List.findSome?_cons]
      cases id.saidBy (site.context, declaration) <;> rfl

theorem listener?_congr {host after : Host} (same : after.contexts = host.contexts)
    (id : ListenerId) : after.listener? id = host.listener? id := by
  rw [listener?, listener?, Host.context, Host.context, same]

theorem CalledBack.listener? {before after : Host} (called : CalledBack before after)
    (id : ListenerId) : after.listener? id = before.listener? id := by
  rw [Host.listener?, called.listeners, Host.listener?]

theorem listener?_runStep (host : Host) (step : Step) (id : ListenerId) :
    (host.runStep step).listener? id = (host.listener? id).or (id.firstIn step.declared) := by
  cases step with
  | createHandle | syncHandle | release | instantiate | receive =>
      exact (Option.or_none ..).symm
  | detachRef other =>
      exact ((CalledBack.detachRef other host).listener? id).trans (Option.or_none ..).symm
  | willUnmount other =>
      exact (listener?_congr (contexts_willUnmount other host) id).trans (Option.or_none ..).symm
  | declare site spine => exact listener?_declareAll site spine host id

theorem listener?_steps (steps : List Step) (host : Host) (id : ListenerId) :
    (steps.foldl runStep host).listener? id =
      (host.listener? id).or (id.firstIn (Step.declarations steps)) := by
  induction steps generalizing host with
  | nil => exact (Option.or_none ..).symm
  | cons step rest ih =>
      rw [List.foldl_cons, ih, listener?_runStep, Step.declarations_cons,
        ListenerId.firstIn_append, Option.or_assoc]

end Host

end RemoteView
