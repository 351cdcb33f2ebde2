import RemoteView.Proofs.Mounted.Focus

/-! # Payloads that a spine gives

A spine has a payload for each of its components. Whatever a tree was before, reconciling it with the
spine hands each payload to the instance that shows the component, new or old, and nothing else to
anyone.
-/

namespace RemoteView

namespace Step

/-- What a step hands to an instance, be it new or not. -/
@[simp] def handed? : Step → Option (InstanceId × Payload)
  | .instantiate identity payload => some (identity.id, payload)
  | .receive id payload => some (id, payload)
  | _ => none

/-- What steps hand to instances. -/
def handed (steps : List Step) : List (InstanceId × Payload) := steps.filterMap handed?

@[simp] theorem handed_nil : handed [] = [] := rfl

@[simp] theorem handed_cons (step : Step) (rest : List Step) :
    handed (step :: rest) = step.handed?.toList ++ handed rest := by
  cases step <;> rfl

@[simp] theorem handed_append (left right : List Step) :
    handed (left ++ right) = handed left ++ handed right :=
  List.filterMap_append

end Step

namespace Mounted

mutual
/-- The payloads of the components in a spine, each with the instance that shows it. -/
def given : Spine → Mounted → List (InstanceId × Payload)
  | .element _ children _, .element _ trees => givenEach children trees
  | .component _ _ content behaviour, .component identity child =>
      (identity.id, ⟨content, behaviour⟩) :: given content child
  | _, _ => []

/-- The payloads of the components in the children of an element. -/
def givenEach : List (UInt32 × Spine) → List Mounted → List (InstanceId × Payload)
  | (_, child) :: rest, tree :: trees => given child tree ++ givenEach rest trees
  | _, _ => []
end

mutual
@[simp] theorem handed_unmount (tree : Mounted) : Step.handed tree.unmount = [] := by
  cases tree with
  | empty | text => rfl
  | element node children =>
      cases ref : node.props.ref? <;> simp [unmount, ref, handed_unmountAll children]
  | component identity child => simp [unmount, handed_unmount child]

@[simp] theorem handed_unmountAll (trees : List Mounted) : Step.handed (unmountAll trees) = [] := by
  cases trees with
  | nil => rfl
  | cons tree rest => simp [unmountAll, handed_unmount tree, handed_unmountAll rest]
end

@[simp] theorem handed_detachments (ref : Option RefId) : Step.handed (detachments ref) = [] := by
  cases ref <;> rfl

theorem mount_gives :
    MountInduction (fun _ spine _ outcome => Step.handed outcome.steps = given spine outcome.value)
      (fun _ children _ outcome => Step.handed outcome.steps = givenEach children outcome.value) where
  empty _ _ := rfl
  text _ _ _ := rfl
  element _ _ _ _ _ inner := by simpa [given] using inner
  component _ _ _ _ _ _ inner := by simpa [given] using inner
  nil _ _ := rfl
  cons _ _ _ _ _ first others := by simp only [Step.handed_append, first, others, givenEach]

/-- Reconciling hands out what the spine gives, each payload to the instance that shows its
    component. -/
theorem reconcile_gives :
    ReconcileInduction
      (fun _ _ spine _ outcome => Step.handed outcome.steps = given spine outcome.value)
      (fun _ _ children _ outcome => Step.handed outcome.steps = givenEach children outcome.value) where
  replace site old spine supply _ := by
    rw [replace_apply]
    simpa using mount_gives.mount site spine supply
  empty _ _ := rfl
  text _ _ _ _ := rfl
  nil _ _ _ := rfl
  element _ _ _ _ _ _ inner := by simpa [given] using inner
  component _ _ _ _ _ _ _ _ inner := by simpa [given] using inner
  kept _ _ _ _ _ _ _ first others := by simp only [Step.handed_append, first, others, givenEach]
  new site _ index child _ supply _ others := by
    have first := mount_gives.mount (site.child index) child supply
    simp only [Step.handed_append, first, others, givenEach]

theorem shows_given :
    ShowsInduction
      (fun _ spine tree => (given spine tree).map Prod.fst = tree.instances.map Instance.id)
      (fun _ children trees =>
        (givenEach children trees).map Prod.fst = (childInstances trees).map Instance.id) where
  empty _ := rfl
  text _ _ := rfl
  element _ _ _ _ _ _ _ inner := inner
  component _ _ _ _ _ _ _ _ _ _ inner := by
    simp only [given, instances, List.map_cons, inner]
  nil _ := rfl
  cons _ _ _ _ _ _ _ _ first others := by
    simp only [givenEach, childInstances, List.map_append, first, others]

end Mounted

end RemoteView
