import RemoteView.Proofs.Mounted.Outcome

/-! # The styles of a rendering

A rendering declares the style descriptors of a spine in an order that the spine alone tells: first
those outside of components, then those of the contents, each content before what is inside of its
components. The tree that was there before plays no part in it.
-/

namespace RemoteView

/-- The style descriptors that an attribute uses. -/
def Attribute.descriptors : Attribute → List StyleDescriptor
  | .style (.rules descriptors) => descriptors
  | _ => []

namespace Spine

mutual
/-- The style descriptors of a spine outside of its components, with those of children before those
    of their element. -/
def descriptors : Spine → List StyleDescriptor
  | .empty => []
  | .text _ => []
  | .element _ children attributes =>
      childDescriptors children ++ attributes.flatMap Attribute.descriptors
  | .component .. => []

/-- The style descriptors of the children of an element. -/
def childDescriptors : List (UInt32 × Spine) → List StyleDescriptor
  | [] => []
  | (_, child) :: rest => descriptors child ++ childDescriptors rest
end

mutual
/-- The style descriptors of the contents of components in a spine. -/
def innerDescriptors : Spine → List StyleDescriptor
  | .empty => []
  | .text _ => []
  | .element _ children _ => childInnerDescriptors children
  | .component _ _ content _ => content.descriptors ++ innerDescriptors content

/-- The style descriptors of the contents of components in the children of an element. -/
def childInnerDescriptors : List (UInt32 × Spine) → List StyleDescriptor
  | [] => []
  | (_, child) :: rest => innerDescriptors child ++ childInnerDescriptors rest
end

/-- All style descriptors of a spine in the order in which rendering it declares them. -/
def allDescriptors (spine : Spine) : List StyleDescriptor :=
  spine.descriptors ++ spine.innerDescriptors

end Spine

/-- The style descriptors that a step declares. -/
def Step.descriptors : Step → List StyleDescriptor
  | .declare _ spine => spine.descriptors
  | _ => []

/-- The style descriptors that steps declare. -/
def Step.allDescriptors (steps : List Step) : List StyleDescriptor := steps.flatMap Step.descriptors

namespace Step

@[simp] theorem allDescriptors_nil : allDescriptors [] = [] := rfl

@[simp] theorem allDescriptors_cons (step : Step) (rest : List Step) :
    allDescriptors (step :: rest) = step.descriptors ++ allDescriptors rest := rfl

@[simp] theorem allDescriptors_append (left right : List Step) :
    allDescriptors (left ++ right) = allDescriptors left ++ allDescriptors right :=
  List.flatMap_append

@[simp] theorem allDescriptors_detachments (ref : Option RefId) :
    allDescriptors (Mounted.detachments ref) = [] := by
  cases ref <;> rfl

end Step

namespace Mounted

mutual
@[simp] theorem allDescriptors_unmount (tree : Mounted) :
    Step.allDescriptors tree.unmount = [] := by
  cases tree with
  | empty | text => rfl
  | element node children =>
      have own : Step.allDescriptors (node.props.ref?.map Step.detachRef).toList = [] :=
        Step.allDescriptors_detachments node.props.ref?
      rw [unmount, Step.allDescriptors_append, own, allDescriptors_unmountAll children]
      rfl
  | component identity child =>
      simp [unmount, Step.descriptors, allDescriptors_unmount child]

@[simp] theorem allDescriptors_unmountAll (trees : List Mounted) :
    Step.allDescriptors (unmountAll trees) = [] := by
  cases trees with
  | nil => rfl
  | cons tree rest =>
      simp [unmountAll, allDescriptors_unmount tree, allDescriptors_unmountAll rest]
end

theorem mount_styles :
    MountInduction
      (fun _ spine _ outcome => Step.allDescriptors outcome.steps = spine.innerDescriptors)
      (fun _ children _ outcome =>
        Step.allDescriptors outcome.steps = Spine.childInnerDescriptors children) where
  empty _ _ := rfl
  text _ _ _ := rfl
  nil _ _ := rfl
  element _ _ _ _ _ inner := inner
  component site id name content behaviour supply inner := by
    rw [Spine.innerDescriptors, ← inner]
    rfl
  cons site index child rest supply first others := by
    rw [Step.allDescriptors_append, first, others, Spine.childInnerDescriptors]

/-- Turning any tree into that of a spine declares the styles of the contents in the spine. -/
theorem reconcile_styles :
    ReconcileInduction
      (fun _ _ spine _ outcome => Step.allDescriptors outcome.steps = spine.innerDescriptors)
      (fun _ _ children _ outcome =>
        Step.allDescriptors outcome.steps = Spine.childInnerDescriptors children) where
  replace site old spine supply _ := by
    simp [replace_apply, mount_styles.mount site spine supply]
  empty _ _ := rfl
  text _ _ _ _ := rfl
  nil _ _ _ := rfl
  element site node oldChildren children attributes supply inner := by
    rw [Spine.innerDescriptors, ← inner]
    simp [Step.descriptors]
  component site identity old name content behaviour supply session inner := by
    rw [Spine.innerDescriptors, ← inner]
    rfl
  kept site old matched index child rest supply first others := by
    rw [Step.allDescriptors_append, first, others, Spine.childInnerDescriptors]
  new site matched index child rest supply none others := by
    rw [Step.allDescriptors_append, mount_styles.mount (site.child index) child supply, others,
      Spine.childInnerDescriptors]

theorem reconcileEach_styles (site : Site) :
    EachInduction site fun pairs _ outcome =>
      Step.allDescriptors outcome.steps =
        (pairs.map Prod.snd).flatMap Spine.innerDescriptors where
  nil _ := rfl
  new spine rest supply others := by
    simp only [Step.allDescriptors_append, others, List.map_cons, List.flatMap_cons]
    rw [mount_styles.mount site spine supply]
  kept old spine rest supply others := by
    simp only [Step.allDescriptors_append, others, List.map_cons, List.flatMap_cons]
    rw [reconcile_styles.reconcile site old spine supply]

theorem styles_reconcileAll (site : Site) (old : List Mounted) (spines : List Spine)
    (supply : Supply) : Step.allDescriptors (reconcileAll site old spines supply).steps =
      spines.flatMap Spine.innerDescriptors := by
  rw [reconcileAll_apply]
  simp only [Step.allDescriptors_append, allDescriptors_unmountAll, List.append_nil,
    (reconcileEach_styles site).each]
  rw [List.map_snd_zip (by simp)]

theorem Rerenders.styles {id : InstanceId} {content : Spine} {supply finish : Supply} {held : Bool}
    {steps : List Step} {effects : List Effect}
    (does : Rerenders id content supply held steps effects finish) (there : held = true) :
    Step.allDescriptors steps = content.allDescriptors := by
  cases does with
  | absent => cases there
  | here identity child _ =>
      rw [Spine.allDescriptors, ← reconcile_styles.reconcile identity.site child content supply]
      rfl

end Mounted

end RemoteView
