import RemoteView.Mounted.Matching
import RemoteView.Mounted.Plan

/-! # Reconciling trees

How a mounted tree becomes the tree of a newly received spine. What stays the same kind of node at
the same place is kept: elements with the same tag keep their handles and inputs, components with
the same number in the same session keep their instances. Everything else is unmounted, outer nodes
first, and what takes its place is mounted.
-/

namespace RemoteView

/-- The key of the node that a spine renders to: texts and empty nodes have none. -/
def Spine.keyAt (key : Option UInt32) : Spine → Option UInt32
  | .empty => none
  | .text _ => none
  | .element .. => key
  | .component .. => key

namespace Mounted

mutual
/-- The steps that take a tree down. -/
def unmount : Mounted → List Step
  | .empty => []
  | .text _ => []
  | .element node children =>
      (node.props.ref?.map Step.detachRef).toList ++ unmountAll children
  | .component identity child =>
      .willUnmount identity.id :: (unmount child ++ [.release identity.id])

/-- The steps that take several trees down, one after another. -/
def unmountAll : List Mounted → List Step
  | [] => []
  | child :: rest => unmount child ++ unmountAll rest
end

/-- The state of the controlled input of an element, for the properties pushed: the one it has, or a
    new one. Only elements with the tag of inputs have one. -/
def inputFor (tag : String) (previous : Option ControlledInput) (pushed : Props) :
    Option ControlledInput :=
  if tag = inputTag then
    some <|
      match previous with
      | some input => input.receive pushed
      | none => .new pushed
  else none

/-- The properties of an element with a handle and perhaps a controlled input. -/
def propsWith (handle : ObjectId) (input : Option ControlledInput) (pushed : Props) : Props :=
  match input with
  | some input => input.render (.input handle) pushed
  | none => pushed

/-- Attach a ref when the tree is there, if the element has one. -/
def attachLater (ref : Option RefId) (handle : ObjectId) : Plan Unit :=
  match ref with
  | some id => Plan.effect (.attachRef id handle)
  | none => return ()

mutual
def mount (site : Site) : Spine → Plan Mounted
  | .empty => return .empty
  | .text content => return .text content
  | .element tag children attributes => do
      let pushed := Props.ofAttributes site.context site.path attributes
      let handle ← Plan.newObject
      let input := inputFor tag none pushed
      let props := propsWith handle input pushed
      Plan.step (.createHandle handle tag props)
      let children ← mountChildren site children
      attachLater props.ref? handle
      return .element ⟨tag, site.key, props, handle, input⟩ children
  | .component id _ content behaviour => do
      let number ← Plan.newInstance
      let identity : Instance := ⟨number, site.context.session, id, site.path, site.key⟩
      Plan.step (.instantiate identity ⟨content, behaviour⟩)
      Plan.step (.declare identity.site content)
      let child ← mount identity.site content
      Plan.effect (.didMount number)
      return .component identity child

def mountChildren (site : Site) : List (UInt32 × Spine) → Plan (List Mounted)
  | [] => return []
  | (index, child) :: rest => do
      let first ← mount (site.child index) child
      let others ← mountChildren site rest
      return first :: others
end

/-- Unmount a tree and mount what takes its place. -/
def replace (site : Site) (old : Mounted) (spine : Spine) : Plan Mounted := do
  Plan.steps old.unmount
  mount site spine

mutual
/-- Turn a tree into what a spine renders to at a site. -/
def reconcile (site : Site) (old : Mounted) : Spine → Plan Mounted
  | .empty =>
      match old with
      | .empty => return .empty
      | old => replace site old .empty
  | .text content =>
      match old with
      | .text _ => return .text content
      | old => replace site old (.text content)
  | .element tag children attributes =>
      match old with
      | .element node oldChildren =>
          if node.tag = tag then do
            let pushed := Props.ofAttributes site.context site.path attributes
            let input := inputFor tag node.input pushed
            let props := propsWith node.handle input pushed
            let oldRef := node.props.ref?
            let changed := oldRef ≠ props.ref?
            Plan.steps (if changed then (oldRef.map Step.detachRef).toList else [])
            Plan.step (.syncHandle node.handle props)
            let keys := children.map fun (index, child) => child.keyAt (some index)
            let (matched, left) := Matching.assign key oldChildren keys
            let children ← reconcileChildren site matched children
            Plan.steps (unmountAll left)
            attachLater (if changed then props.ref? else none) node.handle
            return .element ⟨tag, site.key, props, node.handle, input⟩ children
          else replace site old (.element tag children attributes)
      | old => replace site old (.element tag children attributes)
  | .component id name content behaviour =>
      match old with
      | .component identity child =>
          if identity.session = site.context.session ∧ identity.component = id then do
            Plan.step (.receive identity.id ⟨content, behaviour⟩)
            Plan.step (.declare identity.site content)
            let child ← reconcile identity.site child content
            return .component identity child
          else replace site old (.component id name content behaviour)
      | old => replace site old (.component id name content behaviour)

/-- Turn the old children that were matched into the children of an element; a child without an old
    one is mounted. -/
def reconcileChildren (site : Site) (matched : List (Option Mounted)) :
    List (UInt32 × Spine) → Plan (List Mounted)
  | [] => return []
  | (index, child) :: rest => do
      let first ←
        match matched.head?.join with
        | some old => reconcile (site.child index) old child
        | none => mount (site.child index) child
      let others ← reconcileChildren site matched.tail rest
      return first :: others
end

/-- Turn a tree that was matched, or nothing, into what a spine renders to. -/
def reconcileMatched (site : Site) (matched : Option Mounted) (spine : Spine) : Plan Mounted :=
  match matched with
  | some old => reconcile site old spine
  | none => mount site spine

/-- Turn a list of trees into what a list of spines renders to at one site. -/
def reconcileAll (site : Site) (old : List Mounted) (spines : List Spine) :
    Plan (List Mounted) := do
  let (matched, left) := Matching.assign key old (spines.map (Spine.keyAt site.key))
  let trees ← (matched.zip spines).mapM fun (matched, spine) => reconcileMatched site matched spine
  Plan.steps (unmountAll left)
  return trees

mutual
/-- Is an instance in a tree? -/
def holds (id : InstanceId) : Mounted → Bool
  | .empty => false
  | .text _ => false
  | .element _ children => anyHolds id children
  | .component identity child => identity.id = id || holds id child

/-- Is an instance in one of several trees? -/
def anyHolds (id : InstanceId) : List Mounted → Bool
  | [] => false
  | child :: rest => holds id child || anyHolds id rest
end

mutual
theorem holds_iff (id : InstanceId) (tree : Mounted) :
    holds id tree = true ↔ id ∈ tree.instances.map Instance.id := by
  cases tree with
  | empty => simp [holds, instances]
  | text => simp [holds, instances]
  | element node children => simpa [holds, instances] using anyHolds_iff id children
  | component identity child =>
      have inside := holds_iff id child
      simp only [holds, instances, Bool.or_eq_true, decide_eq_true_eq, List.map_cons,
        List.mem_cons, inside]
      exact or_congr ⟨Eq.symm, Eq.symm⟩ Iff.rfl

theorem anyHolds_iff (id : InstanceId) (trees : List Mounted) :
    anyHolds id trees = true ↔ id ∈ (childInstances trees).map Instance.id := by
  cases trees with
  | nil => simp [anyHolds, childInstances]
  | cons first rest =>
      have here := holds_iff id first
      have there := anyHolds_iff id rest
      simp only [anyHolds, childInstances, Bool.or_eq_true, List.map_append, List.mem_append, here,
        there]
end

mutual
/-- Render other content in the component with a number. -/
def rerender (id : InstanceId) (content : Spine) : Mounted → Plan Mounted
  | .empty => return .empty
  | .text content => return .text content
  | .element node children => do
      let children ← rerenderFirst id content children
      return .element node children
  | .component identity child => do
      if identity.id = id then
        Plan.step (.declare identity.site content)
        let child ← reconcile identity.site child content
        return .component identity child
      else
        let child ← rerender id content child
        return .component identity child

/-- Render other content in the component with a number, in the first tree that holds it. -/
def rerenderFirst (id : InstanceId) (content : Spine) : List Mounted → Plan (List Mounted)
  | [] => return []
  | child :: rest =>
      if child.holds id then do
        let child ← rerender id content child
        return child :: rest
      else do
        let rest ← rerenderFirst id content rest
        return child :: rest
end

end Mounted

end RemoteView
