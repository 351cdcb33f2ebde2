import Mathlib.Data.List.Infix
import RemoteView.Proofs.Mounted.Refs

/-! # Components come and go as wholes

A component that enters a tree is mounted as a whole: what is left for later for everything inside
of it comes just before its instance is told that it is mounted, and nothing comes in between. A
component that leaves is unmounted as a whole: its instance is unmounted first, and everything
inside of it just afterwards. This is so wherever the component is, also when what is around it
stays.
-/

namespace RemoteView.Mounted

mutual
/-- The components in a tree, each with what is in it, outer ones before those inside them. -/
def components : Mounted → List (Instance × Mounted)
  | .empty => []
  | .text _ => []
  | .element _ children => childComponents children
  | .component identity child => (identity, child) :: components child

/-- The components in a list of trees. -/
def childComponents : List Mounted → List (Instance × Mounted)
  | [] => []
  | tree :: rest => components tree ++ childComponents rest
end

mutual
/-- What mounting a tree leaves for later: every ref and every instance comes when everything inside
    of it is done. -/
def completion : Mounted → List Effect
  | .empty => []
  | .text _ => []
  | .element node children => completeAll children ++ attachments node.props.ref? node.handle
  | .component identity child => completion child ++ [.didMount identity.id]

/-- What mounting several trees leaves for later. -/
def completeAll : List Mounted → List Effect
  | [] => []
  | tree :: rest => completion tree ++ completeAll rest
end

mutual
theorem components_fst (tree : Mounted) : tree.components.map Prod.fst = tree.instances := by
  cases tree with
  | empty | text => rfl
  | element node children => exact childComponents_fst children
  | component identity child =>
      rw [components, List.map_cons, components_fst child]
      rfl

theorem childComponents_fst (trees : List Mounted) :
    (childComponents trees).map Prod.fst = childInstances trees := by
  cases trees with
  | nil => rfl
  | cons tree rest =>
      rw [childComponents, List.map_append, components_fst tree, childComponents_fst rest]
      rfl
end

theorem collects_components : Collects components childComponents := ⟨rfl, fun _ _ => rfl⟩

mutual
theorem instances_of_component {tree : Mounted} {one : Instance × Mounted}
    (member : one ∈ tree.components) : (component one.1 one.2).instances <:+: tree.instances := by
  cases tree with
  | empty | text => cases member
  | element node children => exact instances_of_childComponent member
  | component identity child =>
      rcases List.mem_cons.mp member with rfl | inside
      · exact List.infix_rfl
      · exact List.infix_cons (instances_of_component inside)

theorem instances_of_childComponent {trees : List Mounted} {one : Instance × Mounted}
    (member : one ∈ childComponents trees) :
    (component one.1 one.2).instances <:+: childInstances trees := by
  cases trees with
  | nil => cases member
  | cons tree rest =>
      rcases List.mem_append.mp member with here | there
      · exact (instances_of_component here).trans (List.prefix_append _ _).isInfix
      · exact (instances_of_childComponent there).trans (List.suffix_append _ _).isInfix
end

/-! ## What is left for later, and what is taken down -/

mutual
theorem attachRef_mem_completion {tree : Mounted} {one : Attachment} (member : one ∈ tree.refs) :
    .attachRef one.1 one.2 ∈ tree.completion := by
  cases tree with
  | empty | text => cases member
  | element node children =>
      rcases List.mem_append.mp member with own | inside
      · refine List.mem_append_right _ ?_
        obtain ⟨id, isRef, rfl⟩ := Option.map_eq_some_iff.mp (Option.mem_toList.mp own)
        simp [attachments, isRef]
      · exact List.mem_append_left _ (attachRef_mem_completeAll inside)
  | component identity child =>
      have inside : one ∈ child.refs := member
      exact List.mem_append_left _ (attachRef_mem_completion inside)

theorem attachRef_mem_completeAll {trees : List Mounted} {one : Attachment}
    (member : one ∈ childRefs trees) : .attachRef one.1 one.2 ∈ completeAll trees := by
  cases trees with
  | nil => cases member
  | cons tree rest =>
      rcases List.mem_append.mp member with here | there
      · exact List.mem_append_left _ (attachRef_mem_completion here)
      · exact List.mem_append_right _ (attachRef_mem_completeAll there)
end

mutual
theorem didMount_mem_completion {tree : Mounted} {identity : Instance}
    (member : identity ∈ tree.instances) : .didMount identity.id ∈ tree.completion := by
  cases tree with
  | empty | text => cases member
  | element node children => exact List.mem_append_left _ (didMount_mem_completeAll member)
  | component outer child =>
      rcases List.mem_cons.mp member with rfl | inside
      · exact List.mem_append_right _ (List.mem_singleton_self _)
      · exact List.mem_append_left _ (didMount_mem_completion inside)

theorem didMount_mem_completeAll {trees : List Mounted} {identity : Instance}
    (member : identity ∈ childInstances trees) : .didMount identity.id ∈ completeAll trees := by
  cases trees with
  | nil => cases member
  | cons tree rest =>
      rcases List.mem_append.mp member with here | there
      · exact List.mem_append_left _ (didMount_mem_completion here)
      · exact List.mem_append_right _ (didMount_mem_completeAll there)
end

mutual
/-- A component is mounted and unmounted in one go within the tree around it. -/
theorem infix_of_component {tree : Mounted} {one : Instance × Mounted}
    (member : one ∈ tree.components) :
    (component one.1 one.2).completion <:+: tree.completion ∧
      (component one.1 one.2).unmount <:+: tree.unmount := by
  cases tree with
  | empty | text => cases member
  | element node children =>
      obtain ⟨completed, unmounted⟩ := infix_of_childComponent member
      exact ⟨completed.trans (List.prefix_append _ _).isInfix,
        unmounted.trans (List.suffix_append _ _).isInfix⟩
  | component identity child =>
      rcases List.mem_cons.mp member with rfl | inside
      · exact ⟨List.infix_rfl, List.infix_rfl⟩
      · obtain ⟨completed, unmounted⟩ := infix_of_component inside
        exact ⟨completed.trans (List.prefix_append _ _).isInfix,
          List.infix_cons (unmounted.trans (List.prefix_append _ _).isInfix)⟩

theorem infix_of_childComponent {trees : List Mounted} {one : Instance × Mounted}
    (member : one ∈ childComponents trees) :
    (component one.1 one.2).completion <:+: completeAll trees ∧
      (component one.1 one.2).unmount <:+: unmountAll trees := by
  cases trees with
  | nil => cases member
  | cons tree rest =>
      rcases List.mem_append.mp member with here | there
      · obtain ⟨completed, unmounted⟩ := infix_of_component here
        exact ⟨completed.trans (List.prefix_append _ _).isInfix,
          unmounted.trans (List.prefix_append _ _).isInfix⟩
      · obtain ⟨completed, unmounted⟩ := infix_of_childComponent there
        exact ⟨completed.trans (List.suffix_append _ _).isInfix,
          unmounted.trans (List.suffix_append _ _).isInfix⟩
end

theorem mount_completion :
    MountInduction (fun _ _ _ outcome => outcome.effects = outcome.value.completion)
      (fun _ _ _ outcome => outcome.effects = completeAll outcome.value) where
  empty _ _ := rfl
  text _ _ _ := rfl
  element _ _ _ _ _ inner := congrArg (· ++ _) inner
  component _ _ _ _ _ _ inner := congrArg (· ++ _) inner
  nil _ _ := rfl
  cons _ _ _ _ _ first others := congrArg₂ (· ++ ·) first others

theorem effects_mount (site : Site) (spine : Spine) (supply : Supply) :
    (mount site spine supply).effects = (mount site spine supply).value.completion :=
  mount_completion.mount site spine supply

/-! ## Wholes -/

/-- A component enters as a whole: it shows the content that its instance is created with, and it is
    mounted in one go. -/
structure Enters (identity : Instance) (child : Mounted) (steps : List Step)
    (effects : List Effect) : Prop where
  shown : ∃ payload, .instantiate identity payload ∈ steps ∧
    Shows identity.site payload.content child
  completed : (component identity child).completion <:+: effects

theorem Enters.mono {identity : Instance} {child : Mounted} {steps others : List Step}
    {effects more : List Effect} (enters : Enters identity child steps effects)
    (all : steps ⊆ others) (within : effects <:+: more) : Enters identity child others more where
  shown := by
    obtain ⟨payload, created, shows⟩ := enters.shown
    exact ⟨payload, all created, shows⟩
  completed := enters.completed.trans within

/-- Of the components of a tree, those that steps and effects bring in enter as wholes, and those
    that they take away leave as wholes. -/
structure AsWholes (before after : List (Instance × Mounted)) (steps : List Step)
    (effects : List Effect) : Prop where
  enters : ∀ one ∈ after, one.1 ∈ before.map Prod.fst ∨ Enters one.1 one.2 steps effects
  leaves : ∀ one ∈ before, one.1 ∈ after.map Prod.fst ∨
    (component one.1 one.2).unmount <:+: steps

namespace AsWholes

variable {before before' after after' : List (Instance × Mounted)} {steps steps' : List Step}
  {effects effects' : List Effect}

theorem idle (components : List (Instance × Mounted)) (steps : List Step)
    (effects : List Effect) : AsWholes components components steps effects where
  enters _ member := .inl (List.mem_map_of_mem member)
  leaves _ member := .inl (List.mem_map_of_mem member)

theorem append (first : AsWholes before after steps effects)
    (second : AsWholes before' after' steps' effects') :
    AsWholes (before ++ before') (after ++ after') (steps ++ steps') (effects ++ effects') where
  enters one member := by
    rw [List.map_append]
    rcases List.mem_append.mp member with here | there
    · exact (first.enters one here).imp (List.mem_append_left _) fun enters =>
        enters.mono (List.subset_append_left _ _) (List.prefix_append _ _).isInfix
    · exact (second.enters one there).imp (List.mem_append_right _) fun enters =>
        enters.mono (List.subset_append_right _ _) (List.suffix_append _ _).isInfix
  leaves one member := by
    rw [List.map_append]
    rcases List.mem_append.mp member with here | there
    · exact (first.leaves one here).imp (List.mem_append_left _) fun within =>
        within.trans (List.prefix_append _ _).isInfix
    · exact (second.leaves one there).imp (List.mem_append_right _) fun within =>
        within.trans (List.suffix_append _ _).isInfix

theorem of_perm (wholes : AsWholes before after steps effects) (sameBefore : before.Perm before')
    (sameAfter : after.Perm after') : AsWholes before' after' steps effects where
  enters one member := (wholes.enters one (sameAfter.mem_iff.mpr member)).imp_left
    (sameBefore.map Prod.fst).mem_iff.mp
  leaves one member := (wholes.leaves one (sameBefore.mem_iff.mpr member)).imp_left
    (sameAfter.map Prod.fst).mem_iff.mp

theorem keep (wholes : AsWholes before after steps effects) (identity : Instance)
    (child now : Mounted) :
    AsWholes ((identity, child) :: before) ((identity, now) :: after) steps effects where
  enters one member := by
    rcases List.mem_cons.mp member with rfl | inside
    · exact .inl List.mem_cons_self
    · exact (wholes.enters one inside).imp_left (List.mem_cons_of_mem _)
  leaves one member := by
    rcases List.mem_cons.mp member with rfl | inside
    · exact .inl List.mem_cons_self
    · exact (wholes.leaves one inside).imp_left (List.mem_cons_of_mem _)

theorem unmount (tree : Mounted) : AsWholes tree.components [] tree.unmount [] where
  enters _ member := by cases member
  leaves _ member := .inr (infix_of_component member).2

theorem unmountAll (trees : List Mounted) :
    AsWholes (childComponents trees) [] (unmountAll trees) [] where
  enters _ member := by cases member
  leaves _ member := .inr (infix_of_childComponent member).2

end AsWholes

theorem mount_wholes :
    MountInduction
      (fun _ _ _ outcome => AsWholes [] outcome.value.components outcome.steps outcome.effects)
      (fun _ _ _ outcome =>
        AsWholes [] (childComponents outcome.value) outcome.steps outcome.effects) where
  empty _ _ := .idle [] [] []
  text _ _ _ := .idle [] [] []
  element site tag children attributes supply inner := by
    have created : AsWholes [] [] [.createHandle supply.nextObject tag
        (rendered site tag attributes supply.nextObject).props] [] := .idle [] _ _
    have attached : AsWholes [] [] [] (attachments
        (rendered site tag attributes supply.nextObject).props.ref? supply.nextObject) :=
      .idle [] _ _
    simpa [components] using (created.append inner).append attached
  component site id name content behaviour supply inner := by
    let identity := newIdentity site supply.nextInstance id
    let start : Supply := { supply with nextInstance := supply.nextInstance + 1 }
    refine ⟨fun one member => ?_, fun one member => by cases member⟩
    rcases List.mem_cons.mp member with rfl | inside
    · refine .inr ⟨⟨⟨content, behaviour⟩, List.mem_cons_self, shows_mount _ content start⟩, ?_⟩
      rw [completion, effects_mount identity.site content start]
    · refine (inner.enters one inside).imp_right fun enters => ?_
      exact enters.mono (List.subset_append_right [_, _] _) (List.prefix_append _ _).isInfix
  nil _ _ := .idle [] [] []
  cons _ _ _ _ _ first others := first.append others

theorem wholes_mount (site : Site) (spine : Spine) (supply : Supply) :
    let outcome := mount site spine supply
    AsWholes [] outcome.value.components outcome.steps outcome.effects :=
  mount_wholes.mount site spine supply

theorem reconcile_wholes :
    ReconcileInduction
      (fun _ old _ _ outcome =>
        AsWholes old.components outcome.value.components outcome.steps outcome.effects)
      (fun _ matched children _ outcome => matched.length = children.length →
        AsWholes (childComponents (matched.filterMap id)) (childComponents outcome.value)
          outcome.steps outcome.effects) where
  replace site old spine supply _ := by
    rw [replace_apply]
    simpa using (AsWholes.unmount old).append (wholes_mount site spine supply)
  empty _ _ := .idle [] [] []
  text _ _ _ _ := .idle [] [] []
  element site node oldChildren children attributes supply inner := by
    let new := rendered site node.tag attributes node.handle
    have all := collects_components.perm
      (Matching.perm_assign key oldChildren (childKeys children))
    rw [collects_components.append] at all
    have written : AsWholes [] []
        (detachments (if node.props.ref? ≠ new.props.ref? then node.props.ref? else none) ++
          [.syncHandle node.handle new.props]) [] := .idle [] _ _
    have attached : AsWholes [] [] [] (attachments
        (if node.props.ref? ≠ new.props.ref? then new.props.ref? else none) node.handle) :=
      .idle [] _ _
    have whole := ((written.append (inner (by simp [childKeys]))).append
      (.unmountAll (Matching.assign key oldChildren (childKeys children)).2)).append attached
    simpa [components] using whole.of_perm (by simpa using all) .rfl
  component site identity old _ content behaviour supply _ inner := by
    have received : AsWholes [] [] [.receive identity.id ⟨content, behaviour⟩,
        .declare identity.site content] [] := .idle [] _ _
    exact (received.append inner).keep identity old _
  nil site matched supply length := by
    obtain rfl := List.length_eq_zero_iff.mp length
    exact .idle [] [] []
  kept _ _ _ _ _ _ _ first others length := first.append (others (by simpa using length))
  new site matched index child rest supply none others length := by
    obtain ⟨head, tail, rfl⟩ : ∃ head tail, matched = head :: tail :=
      List.exists_cons_of_length_eq_add_one length
    obtain rfl : head = Option.none := by simpa using none
    exact (wholes_mount (site.child index) child supply).append (others (by simpa using length))

theorem wholes_reconcile (site : Site) (old : Mounted) (spine : Spine) (supply : Supply) :
    let outcome := reconcile site old spine supply
    AsWholes old.components outcome.value.components outcome.steps outcome.effects :=
  reconcile_wholes.reconcile site old spine supply

/-- However trees are rendered, components come and go as wholes. -/
theorem wholes_reckons : Reckons components childComponents AsWholes where
  collects := collects_components
  still list := .idle list [] []
  append := .append
  perm := .of_perm
  element _ := fun inside => inside
  component identity := fun inside => inside.keep identity _ _
  declare _ _ := .idle [] _ _
  unmountAll := .unmountAll
  mount := wholes_mount
  reconcile := wholes_reconcile

end RemoteView.Mounted
