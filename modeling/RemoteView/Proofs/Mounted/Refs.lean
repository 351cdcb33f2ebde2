import Mathlib.Data.List.Perm.Basic
import Mathlib.Data.List.Perm.Subperm
import RemoteView.Proofs.Mounted.Shows
import RemoteView.Proofs.Mounted.Turnover

/-! # The refs of elements

What reconciling does to refs, as a balance: the refs that are there afterwards and those that were
detached are together the refs that were there before and those that are attached, each with the
handle of its element. Like that of instances, the balance of a tree is found by induction.
-/

namespace RemoteView

/-- A ref with the handle of the element that has it. -/
abbrev Attachment := RefId × ObjectId

/-- The ref that a step detaches. -/
@[simp] def Step.detached? : Step → Option RefId
  | .detachRef id => some id
  | _ => none

/-- The refs that steps detach. -/
def Step.detaches (steps : List Step) : List RefId := steps.filterMap Step.detached?

/-- The ref that an effect attaches. -/
@[simp] def Effect.attached? : Effect → Option Attachment
  | .attachRef id handle => some (id, handle)
  | .didMount _ => none

/-- The refs that effects attach. -/
def Effect.attaches (effects : List Effect) : List Attachment := effects.filterMap Effect.attached?

@[simp] theorem Step.detaches_nil : Step.detaches [] = [] := rfl

@[simp] theorem Step.detaches_cons (step : Step) (rest : List Step) :
    Step.detaches (step :: rest) = step.detached?.toList ++ Step.detaches rest := by
  cases step <;> rfl

@[simp] theorem Step.detaches_append (left right : List Step) :
    Step.detaches (left ++ right) = Step.detaches left ++ Step.detaches right :=
  List.filterMap_append

theorem Step.mem_detaches {steps : List Step} {id : RefId} :
    id ∈ Step.detaches steps ↔ .detachRef id ∈ steps := by
  rw [Step.detaches, List.mem_filterMap]
  constructor
  · rintro ⟨step, member, isThis⟩
    cases step <;> simp_all
  · exact fun member => ⟨_, member, rfl⟩

@[simp] theorem Effect.attaches_nil : Effect.attaches [] = [] := rfl

@[simp] theorem Effect.attaches_cons (first : Effect) (rest : List Effect) :
    Effect.attaches (first :: rest) = first.attached?.toList ++ Effect.attaches rest := by
  cases first <;> rfl

@[simp] theorem Effect.attaches_append (left right : List Effect) :
    Effect.attaches (left ++ right) = Effect.attaches left ++ Effect.attaches right :=
  List.filterMap_append

/-- A ref, if there is one, with a handle. -/
def attachment (ref : Option RefId) (handle : ObjectId) : List Attachment :=
  (ref.map fun id => (id, handle)).toList

@[simp] theorem Step.detaches_detachments (ref : Option RefId) :
    Step.detaches (Mounted.detachments ref) = ref.toList := by
  cases ref <;> rfl

@[simp] theorem Effect.attaches_attachments (ref : Option RefId) (handle : ObjectId) :
    Effect.attaches (Mounted.attachments ref handle) = attachment ref handle := by
  cases ref <;> rfl

@[simp] theorem attachment_fst (ref : Option RefId) (handle : ObjectId) :
    (attachment ref handle).map Prod.fst = ref.toList := by
  cases ref <;> rfl

namespace Mounted

mutual
/-- The refs in a tree, each with the handle of its element. -/
def refs : Mounted → List Attachment
  | .empty => []
  | .text _ => []
  | .element node children => attachment node.props.ref? node.handle ++ childRefs children
  | .component _ child => refs child

/-- The refs in a list of trees. -/
def childRefs : List Mounted → List Attachment
  | [] => []
  | child :: rest => refs child ++ childRefs rest
end

theorem collects_refs : Collects refs childRefs := ⟨rfl, fun _ _ => rfl⟩

theorem childRefs_eq_flatMap (trees : List Mounted) : childRefs trees = trees.flatMap refs :=
  collects_refs.eq_flatMap trees

theorem childRefs_append (left right : List Mounted) :
    childRefs (left ++ right) = childRefs left ++ childRefs right :=
  collects_refs.append left right

theorem perm_childRefs {trees others : List Mounted} (same : trees.Perm others) :
    (childRefs trees).Perm (childRefs others) :=
  collects_refs.perm same

section MapNodes

variable {change : MountedElement → MountedElement}

mutual
@[simp] theorem refs_mapNodes (keeps : KeepsPlace change) (tree : Mounted) :
    (mapNodes change tree).refs = tree.refs := by
  cases tree with
  | empty | text => rfl
  | element node children =>
      simp only [mapNodes, refs, keeps.ref, keeps.handle, childRefs_mapChildren keeps children]
  | component identity child => exact refs_mapNodes keeps child

@[simp] theorem childRefs_mapChildren (keeps : KeepsPlace change) (trees : List Mounted) :
    childRefs (mapChildren change trees) = childRefs trees := by
  cases trees with
  | nil => rfl
  | cons tree rest =>
      simp only [mapChildren, childRefs, refs_mapNodes keeps tree, childRefs_mapChildren keeps rest]
end

end MapNodes

mutual
theorem detaches_unmount (tree : Mounted) :
    Step.detaches tree.unmount = tree.refs.map Prod.fst := by
  cases tree with
  | empty | text => rfl
  | element node children =>
      simp only [unmount, refs, Step.detaches_append, List.map_append, attachment_fst,
        detaches_unmountAll children]
      rw [show (node.props.ref?.map Step.detachRef).toList = detachments node.props.ref? from rfl,
        Step.detaches_detachments]
  | component identity child => simp [unmount, refs, detaches_unmount child]

theorem detaches_unmountAll (trees : List Mounted) :
    Step.detaches (unmountAll trees) = (childRefs trees).map Prod.fst := by
  cases trees with
  | nil => rfl
  | cons tree rest =>
      simp [unmountAll, childRefs, detaches_unmount tree, detaches_unmountAll rest]
end

end Mounted

/-- How the refs of a tree are turned over by steps and effects: `gone` are those that are detached. -/
structure RefTurnover (before after gone : List Attachment) (steps : List Step)
    (effects : List Effect) : Prop where
  detached : Step.detaches steps = gone.map Prod.fst
  balance : ∀ one, after.count one + gone.count one =
    before.count one + (Effect.attaches effects).count one
  /-- Nothing is detached more often than it was there. -/
  sub : gone.Subperm before
  attached : Effect.attaches effects ⊆ after

namespace RefTurnover

variable {before before' after after' gone gone' : List Attachment} {steps steps' : List Step}
  {effects effects' : List Effect}

theorem left (turnover : RefTurnover before after gone steps effects) : gone ⊆ before :=
  turnover.sub.subset

theorem idle (refs : List Attachment) (noDetaches : Step.detaches steps = [])
    (noAttaches : Effect.attaches effects = []) : RefTurnover refs refs [] steps effects where
  detached := noDetaches
  balance one := by rw [noAttaches]
  sub := List.nil_subperm
  attached := by rw [noAttaches]; exact List.nil_subset _

theorem append (first : RefTurnover before after gone steps effects)
    (second : RefTurnover before' after' gone' steps' effects') :
    RefTurnover (before ++ before') (after ++ after') (gone ++ gone') (steps ++ steps')
      (effects ++ effects') where
  detached := by rw [Step.detaches_append, first.detached, second.detached, List.map_append]
  balance one := by
    have left := first.balance one
    have right := second.balance one
    simp only [Effect.attaches_append, List.count_append]
    omega
  sub := first.sub.append second.sub
  attached := by
    rw [Effect.attaches_append]
    exact List.append_subset.mpr ⟨List.subset_append_of_subset_left _ first.attached,
      List.subset_append_of_subset_right _ second.attached⟩

theorem of_perm (turnover : RefTurnover before after gone steps effects)
    (sameBefore : before.Perm before') (sameAfter : after.Perm after')
    (sameEffects : effects.Perm effects') : RefTurnover before' after' gone steps effects' where
  detached := turnover.detached
  balance one := by
    have attaches : (Effect.attaches effects).Perm (Effect.attaches effects') :=
      sameEffects.filterMap _
    rw [← sameAfter.count_eq, ← sameBefore.count_eq, ← attaches.count_eq]
    exact turnover.balance one
  sub := turnover.sub.trans sameBefore.subperm
  attached := fun one member => sameAfter.mem_iff.mp
    (turnover.attached ((sameEffects.filterMap Effect.attached?).mem_iff.mpr member))

theorem leave (detached : Step.detaches steps = before.map Prod.fst) :
    RefTurnover before [] before steps [] where
  detached := detached
  balance one := by simp
  sub := .refl _
  attached := List.nil_subset _

theorem unmount (tree : Mounted) : RefTurnover tree.refs [] tree.refs tree.unmount [] :=
  leave (Mounted.detaches_unmount tree)

theorem unmountAll (trees : List Mounted) : RefTurnover (Mounted.childRefs trees) []
    (Mounted.childRefs trees) (Mounted.unmountAll trees) [] :=
  leave (Mounted.detaches_unmountAll trees)

theorem attach (ref : Option RefId) (handle : ObjectId) :
    RefTurnover [] (attachment ref handle) [] [] (Mounted.attachments ref handle) where
  detached := rfl
  balance one := by simp
  sub := List.nil_subperm
  attached := by rw [Effect.attaches_attachments]; exact List.Subset.refl _

/-- An element that stays exchanges its ref for another one, or keeps it. -/
theorem exchange (old new : Option RefId) (handle : ObjectId) :
    RefTurnover (attachment old handle) (attachment new handle)
      (if old ≠ new then attachment old handle else [])
      (Mounted.detachments (if old ≠ new then old else none))
      (Mounted.attachments (if old ≠ new then new else none) handle) := by
  by_cases same : old = new
  · subst same
    simpa using idle (attachment old handle) rfl rfl
  · simp only [ne_eq, same, not_false_eq_true, if_true]
    have gone : RefTurnover (attachment old handle) [] (attachment old handle)
        (Mounted.detachments old) [] := leave (by simp)
    simpa using gone.append (attach new handle)

end RefTurnover

namespace Mounted

theorem mount_refs :
    MountInduction
      (fun _ _ _ outcome =>
        RefTurnover [] outcome.value.refs [] outcome.steps outcome.effects)
      (fun _ _ _ outcome =>
        RefTurnover [] (childRefs outcome.value) [] outcome.steps outcome.effects) where
  empty _ _ := .idle [] rfl rfl
  text _ _ _ := .idle [] rfl rfl
  element site tag _ attributes supply inner := by
    have created : RefTurnover [] [] [] [.createHandle supply.nextObject tag
        (rendered site tag attributes supply.nextObject).props] [] := .idle [] rfl rfl
    have attached := RefTurnover.attach
      (rendered site tag attributes supply.nextObject).props.ref? supply.nextObject
    simpa [refs] using
      ((created.append inner).append attached).of_perm .nil List.perm_append_comm .rfl
  component site id _ content behaviour supply inner := by
    have entered : RefTurnover [] [] []
        [.instantiate (newIdentity site supply.nextInstance id) ⟨content, behaviour⟩,
          .declare (newIdentity site supply.nextInstance id).site content]
        [.didMount (newIdentity site supply.nextInstance id).id] := .idle [] rfl rfl
    exact (entered.append inner).of_perm .nil .rfl (List.perm_append_singleton _ _).symm
  nil _ _ := .idle [] rfl rfl
  cons _ _ _ _ _ first others := first.append others

theorem refTurnover_mount (site : Site) (spine : Spine) (supply : Supply) :
    let outcome := mount site spine supply
    RefTurnover [] outcome.value.refs [] outcome.steps outcome.effects :=
  mount_refs.mount site spine supply

theorem reconcile_refs :
    ReconcileInduction
      (fun _ old _ _ outcome => ∃ gone,
        RefTurnover old.refs outcome.value.refs gone outcome.steps outcome.effects)
      (fun _ matched children _ outcome => matched.length = children.length → ∃ gone,
        RefTurnover (childRefs (matched.filterMap id)) (childRefs outcome.value) gone outcome.steps
          outcome.effects) where
  replace site old spine supply _ :=
    ⟨_, by simpa [replace_apply] using
      (RefTurnover.unmount old).append (refTurnover_mount site spine supply)⟩
  empty _ _ := ⟨[], .idle [] rfl rfl⟩
  text _ _ _ _ := ⟨[], .idle [] rfl rfl⟩
  element site node oldChildren children attributes supply inner := by
    have all := perm_childRefs (Matching.perm_assign key oldChildren (childKeys children))
    rw [childRefs_append] at all
    obtain ⟨gone, inside⟩ := inner (by simp [childKeys])
    have exchanged := RefTurnover.exchange node.props.ref?
      (rendered site node.tag attributes node.handle).props.ref? node.handle
    have written : RefTurnover [] [] []
        [.syncHandle node.handle (rendered site node.tag attributes node.handle).props] [] :=
      .idle [] rfl rfl
    have turned := exchanged.append (written.append (inside.append (.unmountAll
      (Matching.assign key oldChildren (childKeys children)).2)))
    exact ⟨_, turned.of_perm (by simpa [refs] using all.append_left _) (by simp [refs])
      (by simpa using List.perm_append_comm)⟩
  component site identity old _ content behaviour supply _ inner := by
    obtain ⟨gone, inside⟩ := inner
    have kept : RefTurnover [] [] []
        [.receive identity.id ⟨content, behaviour⟩, .declare identity.site content] [] :=
      .idle [] rfl rfl
    exact ⟨_, kept.append inside⟩
  nil site matched supply length := by
    obtain rfl := List.length_eq_zero_iff.mp length
    exact ⟨[], .idle [] rfl rfl⟩
  kept _ _ _ _ _ _ _ first others length := by
    obtain ⟨_, first⟩ := first
    obtain ⟨_, others⟩ := others (by simpa using length)
    exact ⟨_, first.append others⟩
  new site matched index child rest supply none others length := by
    obtain ⟨head, tail, rfl⟩ : ∃ head tail, matched = head :: tail :=
      List.exists_cons_of_length_eq_add_one length
    obtain rfl : head = Option.none := by simpa using none
    obtain ⟨_, others⟩ := others (by simpa using length)
    exact ⟨_, (refTurnover_mount (site.child index) child supply).append others⟩

/-- Reconciling turns the refs of the old tree into those of the new one. -/
theorem refTurnover_reconcile (site : Site) (old : Mounted) (spine : Spine) (supply : Supply) :
    let outcome := reconcile site old spine supply
    ∃ gone, RefTurnover old.refs outcome.value.refs gone outcome.steps outcome.effects :=
  reconcile_refs.reconcile site old spine supply

/-- What is done to refs adds up. -/
theorem refTurnover_reckons :
    Reckons refs childRefs fun before after steps effects =>
      ∃ gone, RefTurnover before after gone steps effects where
  collects := collects_refs
  still list := ⟨[], .idle list rfl rfl⟩
  append := fun ⟨_, first⟩ ⟨_, second⟩ => ⟨_, first.append second⟩
  perm := fun ⟨_, turned⟩ sameBefore sameAfter => ⟨_, turned.of_perm sameBefore sameAfter .rfl⟩
  element node := by
    rintro children others steps effects ⟨_, inside⟩
    have own : RefTurnover (attachment node.props.ref? node.handle)
        (attachment node.props.ref? node.handle) [] [] [] := .idle _ rfl rfl
    exact ⟨_, own.append inside⟩
  component _ := fun inside => inside
  declare _ _ := ⟨[], .idle [] rfl rfl⟩
  unmountAll trees := ⟨_, .unmountAll trees⟩
  mount site spine supply := ⟨[], refTurnover_mount site spine supply⟩
  reconcile := refTurnover_reconcile

end Mounted

end RemoteView
