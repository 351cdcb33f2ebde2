import RemoteView.Proofs.Mounted.Pushes
import RemoteView.Proofs.Mounted.Reckoning

/-! # The tags of handles

Every element of a tree that was rendered has the handle and the tag of an element that was there
before, or its handle is created with its tag on the way. Nothing else is created.
-/

namespace RemoteView

/-- A handle with the tag of its element. -/
abbrev Label := ObjectId × String

def MountedElement.label (node : MountedElement) : Label := (node.handle, node.tag)

/-- The handle that a step creates, with its tag. -/
def Step.label? : Step → Option Label
  | .createHandle handle tag _ => some (handle, tag)
  | _ => none

theorem Step.label?_eq_none {step : Step} (idle : step.created? = none) : step.label? = none := by
  cases step with
  | createHandle => cases idle
  | syncHandle | detachRef | willUnmount | release | instantiate | receive | declare => rfl

/-- The handles that steps create, with their tags. -/
def labelsOf (steps : List Step) : List Label := steps.filterMap Step.label?

theorem labelsOf_append (steps more : List Step) :
    labelsOf (steps ++ more) = labelsOf steps ++ labelsOf more :=
  List.filterMap_append

theorem labelsOf_eq_nil {steps : List Step} (idle : ∀ step ∈ steps, step.created? = none) :
    labelsOf steps = [] := by
  apply List.filterMap_eq_nil_iff.mpr
  intro step among
  exact Step.label?_eq_none (idle step among)

/-- Of labels some were there before, and the others are made by steps, which make no more. -/
def Labelled (before after : List Label) (steps : List Step) (_effects : List Effect) : Prop :=
  ∃ kept, kept ⊆ before ∧ after.Perm (kept ++ labelsOf steps)

namespace Labelled

variable {before before' after after' : List Label} {steps steps' : List Step}
  {effects effects' : List Effect}

theorem drop (kept : after ⊆ before) (idle : ∀ step ∈ steps, step.created? = none) :
    Labelled before after steps effects := by
  refine ⟨after, kept, ?_⟩
  rw [labelsOf_eq_nil idle, List.append_nil]

theorem append (first : Labelled before after steps effects)
    (second : Labelled before' after' steps' effects') :
    Labelled (before ++ before') (after ++ after') (steps ++ steps') (effects ++ effects') := by
  obtain ⟨kept, were, perm⟩ := first
  obtain ⟨others, were', perm'⟩ := second
  refine ⟨kept ++ others, ?_, ?_⟩
  · intro label among
    obtain here | there := List.mem_append.mp among
    · exact List.mem_append_left _ (were here)
    · exact List.mem_append_right _ (were' there)
  · have shuffled : (kept ++ labelsOf steps ++ (others ++ labelsOf steps')).Perm
        (kept ++ others ++ (labelsOf steps ++ labelsOf steps')) := by
      simp only [List.append_assoc]
      refine List.Perm.append_left kept ?_
      simp only [← List.append_assoc]
      exact List.perm_append_comm.append_right _
    rw [labelsOf_append]
    exact (perm.append perm').trans shuffled

theorem perm (labelled : Labelled before after steps effects) (was : before.Perm before')
    (now : after.Perm after') : Labelled before' after' steps effects := by
  obtain ⟨kept, were, perm⟩ := labelled
  exact ⟨kept, fun label among => was.subset (were among), now.symm.trans perm⟩

theorem cons (labelled : Labelled before after steps effects) (label : Label) :
    Labelled (label :: before) (label :: after) steps effects := by
  obtain ⟨kept, were, perm⟩ := labelled
  exact ⟨label :: kept, List.cons_subset_cons label were, perm.cons label⟩

theorem mono (labelled : Labelled before after steps effects) (more : before ⊆ before') :
    Labelled before' after steps effects := by
  obtain ⟨kept, were, perm⟩ := labelled
  exact ⟨kept, fun label among => more (were among), perm⟩

theorem of_steps (labelled : Labelled before after steps effects)
    (same : labelsOf steps' = labelsOf steps) : Labelled before after steps' effects' := by
  unfold Labelled
  rw [same]
  exact labelled

end Labelled

namespace Mounted

/-- The labels of the elements in a tree. -/
def labels (tree : Mounted) : List Label := tree.elements.map MountedElement.label

/-- The labels of the elements in several trees. -/
def childLabels (trees : List Mounted) : List Label :=
  (childElements trees).map MountedElement.label

theorem childLabels_fst (trees : List Mounted) :
    (childLabels trees).map Prod.fst = childHandles trees := by
  rw [childLabels, List.map_map]
  exact childElements_handles trees

theorem collects_labels : Collects labels childLabels where
  nil := rfl
  cons tree rest := by simp only [labels, childLabels, childElements, List.map_append]

theorem mount_labels :
    MountInduction (fun _ _ _ outcome => outcome.value.labels = labelsOf outcome.steps)
      (fun _ _ _ outcome => childLabels outcome.value = labelsOf outcome.steps) where
  empty _ _ := rfl
  text _ _ _ := rfl
  element site tag children attributes supply inner := congrArg (List.cons _) inner
  component _ _ _ _ _ _ inner := inner
  nil _ _ := rfl
  cons _ _ _ _ _ first others := by
    rw [collects_labels.cons, labelsOf_append, first, others]

theorem labelled_mount (site : Site) (spine : Spine) (supply : Supply) :
    let outcome := mount site spine supply
    Labelled [] outcome.value.labels outcome.steps outcome.effects := by
  refine ⟨[], List.Subset.refl _, ?_⟩
  rw [mount_labels.mount site spine supply, List.nil_append]

theorem reconcile_labelled :
    ReconcileInduction
      (fun _ old _ _ outcome =>
        Labelled old.labels outcome.value.labels outcome.steps outcome.effects)
      (fun _ matched _ _ outcome => Labelled (childLabels (matched.filterMap id))
        (childLabels outcome.value) outcome.steps outcome.effects) where
  replace site old spine supply _ := by
    have gone : Labelled old.labels [] old.unmount [] :=
      .drop (List.nil_subset _) (created_unmount old)
    simpa [replace_apply] using gone.append (labelled_mount site spine supply)
  empty _ _ := .drop (List.Subset.refl _) (by simp)
  text _ _ _ _ := .drop (List.Subset.refl _) (by simp)
  nil _ _ _ := .drop (List.nil_subset _) (by simp)
  element site node oldChildren children attributes supply inner := by
    have all : childLabels ((Matching.assign key oldChildren (childKeys children)).1.filterMap id) ⊆
        childLabels oldChildren := by
      intro label among
      have split := collects_labels.perm
        (Matching.perm_assign key oldChildren (childKeys children))
      rw [collects_labels.append] at split
      exact split.subset (List.mem_append_left _ among)
    have detached (ref : Option RefId) : labelsOf (detachments ref) = [] := by
      cases ref <;> rfl
    refine ((inner.mono all).cons node.label).of_steps ?_
    rw [labelsOf_append, detached, List.nil_append]
    have written := labelsOf_append (reconcileChildren site
      (Matching.assign key oldChildren (childKeys children)).1 children supply).steps
      (unmountAll (Matching.assign key oldChildren (childKeys children)).2)
    rw [labelsOf_eq_nil (created_unmountAll _), List.append_nil] at written
    exact written
  component _ _ _ _ _ _ _ _ inner := inner.of_steps rfl
  kept _ _ _ _ _ _ _ first others := by
    simpa only [List.filterMap_cons, id_eq, collects_labels.cons] using first.append others
  new site matched index child rest supply absent others := by
    have later : matched.tail.filterMap id = matched.filterMap id := by
      rcases matched with _ | ⟨_ | old, others⟩
      · rfl
      · rfl
      · cases absent
    rw [← later, collects_labels.cons]
    exact (labelled_mount (site.child index) child supply).append others

/-- The labels of trees, however these are rendered. -/
theorem labels_reckons : Reckons labels childLabels Labelled where
  collects := collects_labels
  still _ := .drop (List.Subset.refl _) (by simp)
  append := .append
  perm := .perm
  element node := fun inside => inside.cons node.label
  component _ := fun inside => inside
  declare _ _ := .drop (List.Subset.refl _) (by simp [Step.created?])
  unmountAll trees := .drop (List.nil_subset _) (created_unmountAll trees)
  mount := labelled_mount
  reconcile := reconcile_labelled.reconcile

end Mounted

end RemoteView
