import RemoteView.Host.Component
import RemoteView.Mounted.Basic

/-! # Plans

Turning one tree into another is planned before it is done. A plan says what the new tree is, which
steps lead to it, and which effects follow once the whole tree is there: refs are attached and
components are told that they are mounted, inner ones first. Plans take the numbers of new elements
and instances from a supply; nothing else about the host matters to them.
-/

namespace RemoteView

/-- Something that is done while a tree changes. -/
inductive Step where
  /-- Create the handle of a new element. -/
  | createHandle (handle : ObjectId) (tag : String) (props : Props)
  /-- Write the properties of an element to its handle. -/
  | syncHandle (handle : ObjectId) (props : Props)
  | detachRef (id : RefId)
  | willUnmount (id : InstanceId)
  /-- The tree lets go of an instance. -/
  | release (id : InstanceId)
  | instantiate (identity : Instance) (payload : Payload)
  /-- Hand a new payload to an instance. -/
  | receive (id : InstanceId) (payload : Payload)
  /-- Take note of what the rendering of a spine declares. -/
  | declare (site : Site) (spine : Spine)

/-- Something that is done when the tree is there. -/
inductive Effect where
  | attachRef (id : RefId) (handle : ObjectId)
  | didMount (id : InstanceId)
  deriving DecidableEq, Repr

/-- The first unused numbers. -/
structure Supply where
  nextObject : ObjectId
  nextInstance : InstanceId
  deriving DecidableEq, Repr

/-- What a plan comes to. -/
structure Outcome (α : Type) where
  value : α
  steps : List Step
  effects : List Effect
  supply : Supply

/-- A plan for a value. -/
def Plan (α : Type) := Supply → Outcome α

namespace Plan

/-- Nothing has to be done for a value. -/
def pure {α : Type} (value : α) : Plan α := fun supply => ⟨value, [], [], supply⟩

/-- One plan after another. -/
def bind {α β : Type} (plan : Plan α) (next : α → Plan β) : Plan β := fun supply =>
  let first := plan supply
  let second := next first.value first.supply
  ⟨second.value, first.steps ++ second.steps, first.effects ++ second.effects, second.supply⟩

instance : Monad Plan where
  pure := pure
  bind := bind

/-- Steps and effects are joined in order, so it does not matter how plans are grouped. -/
instance : LawfulMonad Plan := LawfulMonad.mk' Plan
  (by intro α plan; funext supply; simp [Functor.map, bind, pure])
  (by intro α β value next; funext supply; simp [Bind.bind, Pure.pure, bind, pure])
  (by intro α β γ plan next last; funext supply; simp [Bind.bind, bind, List.append_assoc])

def steps (list : List Step) : Plan Unit := fun supply => ⟨(), list, [], supply⟩

def step (one : Step) : Plan Unit := steps [one]

/-- Leave something for later. -/
def effect (one : Effect) : Plan Unit := fun supply => ⟨(), [], [one], supply⟩

/-- The number of a new host object. -/
def newObject : Plan ObjectId := fun supply =>
  ⟨supply.nextObject, [], [], { supply with nextObject := supply.nextObject + 1 }⟩

def newInstance : Plan InstanceId := fun supply =>
  ⟨supply.nextInstance, [], [], { supply with nextInstance := supply.nextInstance + 1 }⟩

end Plan

namespace Host

/-- The numbers that the host has not given out. -/
def supply (host : Host) : Supply := ⟨host.objects.next, host.instances.next⟩

def runStep (host : Host) : Step → Host
  | .createHandle handle tag props =>
      { host with objects := host.objects.put handle (.element ⟨tag, props.attributes, []⟩) }
  | .syncHandle handle props =>
      { host with objects := host.objects.modifyElement handle fun object =>
          { object with attributes := props.attributes } }
  | .detachRef id => host.detachRef id
  | .willUnmount id => host.willUnmount id
  | .release id => host.release id
  | .instantiate identity payload => host.instantiate identity payload
  | .receive id payload => host.setPayload id payload
  | .declare site spine => host.declareAll site spine

/-- Do what was left for later. -/
def runEffect (host : Host) : Effect → Host
  | .attachRef id handle => host.attachRef id (.host handle)
  | .didMount id => host.didMount id

/-- Do all steps and then all effects of an outcome. -/
def commit {α : Type} (outcome : Outcome α) (host : Host) : Host :=
  outcome.effects.foldl runEffect (outcome.steps.foldl runStep host)

end Host

end RemoteView
