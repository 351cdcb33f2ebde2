import RemoteView.Proofs.Mounted.Focus

/-! # Keeping apart

A rendering inside a component keeps apart from what lies around the component: it touches handles
and instances of the component or new ones only, and calls back in the contexts of these instances
only.
-/

namespace RemoteView

namespace Assoc

variable {κ α : Type} [DecidableEq κ] {key : κ} {value : α}

theorem mem_of_get?_foldl_insert {entries : List (κ × α)} {done : Assoc κ α}
    (found : get? key (entries.foldl (fun done (key, value) => insert key value done) done) =
      some value) : (key, value) ∈ entries ∨ get? key done = some value := by
  induction entries generalizing done with
  | nil => exact .inr found
  | cons entry rest ih =>
      rcases ih found with later | now
      · exact .inl (List.mem_cons_of_mem _ later)
      · rw [get?_insert] at now
        split at now
        · rename_i same
          obtain rfl := Option.some.inj now
          exact .inl (by rw [same]; exact List.mem_cons_self ..)
        · exact .inr now

theorem mem_of_get?_ofList {entries : List (κ × α)}
    (found : get? key (ofList entries) = some value) : (key, value) ∈ entries := by
  have either : (key, value) ∈ entries ∨ get? key [] = some value :=
    mem_of_get?_foldl_insert found
  rcases either with written | nothing
  · exact written
  · simp at nothing

end Assoc

/-- The context of an instance that does not lie around. -/
def ContextId.IsApart (around : Surroundings) (context : ContextId) : Prop :=
  ∃ id, context.instance? = some id ∧ ¬ around.instances id

/-- Does a step keep apart from what lies around? -/
def Step.IsApart (around : Surroundings) : Step → Prop
  | .createHandle handle _ _ => ¬ around.handles handle
  | .syncHandle handle _ => ¬ around.handles handle
  | .detachRef id => id.context.IsApart around
  | .willUnmount id => ¬ around.instances id
  | .release id => ¬ around.instances id
  | .instantiate identity _ => ¬ around.instances identity.id
  | .receive id _ => ¬ around.instances id
  | .declare _ _ => True

/-- Does an effect keep apart from what lies around? -/
def Effect.IsApart (around : Surroundings) : Effect → Prop
  | .attachRef id handle => id.context.IsApart around ∧ ¬ around.handles handle
  | .didMount id => ¬ around.instances id

/-- Are all numbers of a supply apart from what lies around? -/
structure Supply.IsApart (around : Surroundings) (supply : Supply) : Prop where
  objects : ∀ handle, supply.nextObject ≤ handle → ¬ around.handles handle
  instances : ∀ id, supply.nextInstance ≤ id → ¬ around.instances id

namespace Mounted

variable {around : Surroundings}

mutual
/-- Does nothing in a tree lie around? -/
def IsApart (around : Surroundings) : Mounted → Prop
  | .empty => True
  | .text _ => True
  | .element node children =>
      ¬ around.handles node.handle ∧ (∀ id, node.props.ref? = some id → id.context.IsApart around) ∧
        AreApart around children
  | .component identity child => ¬ around.instances identity.id ∧ IsApart around child

/-- Does nothing in a list of trees lie around? -/
def AreApart (around : Surroundings) : List Mounted → Prop
  | [] => True
  | tree :: rest => IsApart around tree ∧ AreApart around rest
end

theorem areApart_iff {trees : List Mounted} :
    AreApart around trees ↔ ∀ tree ∈ trees, tree.IsApart around := by
  induction trees with
  | nil => simp [AreApart]
  | cons tree rest ih => simp [AreApart, ih]

theorem AreApart.of_subset {trees fewer : List Mounted} (apart : AreApart around trees)
    (less : fewer ⊆ trees) : AreApart around fewer :=
  areApart_iff.mpr fun tree member => areApart_iff.mp apart tree (less member)

theorem isApart_detachments {ref? : Option RefId}
    (apart : ∀ id, ref? = some id → id.context.IsApart around) :
    ∀ step ∈ detachments ref?, step.IsApart around := by
  intro step member
  obtain ⟨id, isRef, rfl⟩ := Option.map_eq_some_iff.mp (Option.mem_toList.mp member)
  exact apart id isRef

theorem isApart_attachments {ref? : Option RefId} {handle : ObjectId}
    (apart : ∀ id, ref? = some id → id.context.IsApart around) (own : ¬ around.handles handle) :
    ∀ effect ∈ attachments ref? handle, effect.IsApart around := by
  intro effect member
  obtain ⟨id, isRef, rfl⟩ := Option.map_eq_some_iff.mp (Option.mem_toList.mp member)
  exact ⟨apart id isRef, own⟩

theorem ref?_rendered (site : Site) (tag : String) (attributes : List Attribute)
    (handle : ObjectId) : (rendered site tag attributes handle).props.ref? =
      (Props.ofAttributes site.context site.path attributes).ref? := by
  simp only [rendered, propsWith, inputFor]
  split
  · simp only [Props.ref?, ControlledInput.render]
    rw [Assoc.get?_insert_of_ne (by decide), Assoc.get?_insert_of_ne (by decide)]
  · rfl

/-- The ref of an element is one of its attributes, and is known by where the element is rendered. -/
theorem exists_attribute_of_ref {site : Site} {tag : String} {attributes : List Attribute}
    {handle : ObjectId} {id : RefId}
    (found : (rendered site tag attributes handle).props.ref? = some id) :
    ∃ declared, Attribute.ref declared ∈ attributes ∧ id = ⟨site.context, site.path⟩ := by
  rw [ref?_rendered] at found
  obtain ⟨property, stored, isRef⟩ := Option.bind_eq_some_iff.mp found
  obtain ⟨given, among, written⟩ := List.mem_map.mp (Assoc.mem_of_get?_ofList stored)
  cases given with
  | ref declared =>
      obtain ⟨-, rfl⟩ := Prod.mk.inj written
      exact ⟨declared, among, (Option.some.inj isRef).symm⟩
  | value | listener =>
      obtain ⟨-, rfl⟩ := Prod.mk.inj written
      simp [Property.ref?] at isRef
  | style style =>
      cases style <;>
      · obtain ⟨-, rfl⟩ := Prod.mk.inj written
        simp [Property.ref?] at isRef

theorem ref_rendered {site : Site} {tag : String} {attributes : List Attribute}
    {handle : ObjectId} {id : RefId}
    (found : (rendered site tag attributes handle).props.ref? = some id) :
    id = ⟨site.context, site.path⟩ := by
  obtain ⟨-, -, same⟩ := exists_attribute_of_ref found
  exact same

theorem context_of_ref {site : Site} {tag : String} {attributes : List Attribute}
    {handle : ObjectId} {id : RefId}
    (found : (rendered site tag attributes handle).props.ref? = some id) :
    id.context = site.context :=
  congrArg RefId.context (ref_rendered found)

theorem isApart_ref {site : Site} (tag : String) (attributes : List Attribute) (handle : ObjectId)
    (apart : site.context.IsApart around) (id : RefId)
    (found : (rendered site tag attributes handle).props.ref? = some id) :
    id.context.IsApart around := by
  rw [context_of_ref found]
  exact apart

theorem shows_isApart :
    ShowsInduction
      (fun site _ tree => site.context.IsApart around → (∀ handle ∈ tree.handles,
          ¬ around.handles handle) → (∀ identity ∈ tree.instances, ¬ around.instances identity.id) →
        tree.IsApart around)
      (fun site _ trees => site.context.IsApart around → (∀ handle ∈ childHandles trees,
          ¬ around.handles handle) →
        (∀ identity ∈ childInstances trees, ¬ around.instances identity.id) →
        AreApart around trees) where
  empty _ _ _ _ := trivial
  text _ _ _ _ _ := trivial
  element site tag children attributes handle trees _ inner := by
    intro context handles instances
    exact ⟨handles handle List.mem_cons_self, isApart_ref tag attributes handle context,
      inner context (fun other member => handles other (List.mem_cons_of_mem _ member)) instances⟩
  component site identity name content behaviour child _ _ _ _ inner := by
    intro _ handles instances
    have own := instances identity (List.mem_cons_self ..)
    exact ⟨own, inner ⟨identity.id, rfl, own⟩ handles
      fun other member => instances other (List.mem_cons_of_mem _ member)⟩
  nil _ _ _ _ := trivial
  cons site index child rest tree trees _ _ first others := by
    intro context handles instances
    exact ⟨first context (fun handle member => handles handle (List.mem_append_left _ member))
        (fun identity member => instances identity (List.mem_append_left _ member)),
      others context (fun handle member => handles handle (List.mem_append_right _ member))
        (fun identity member => instances identity (List.mem_append_right _ member))⟩

mutual
theorem IsApart.unmount {tree : Mounted} (apart : tree.IsApart around) :
    ∀ step ∈ tree.unmount, step.IsApart around := by
  cases tree with
  | empty | text => simp [Mounted.unmount]
  | element node children =>
      obtain ⟨-, ref, inner⟩ := apart
      exact List.forall_mem_append.mpr ⟨isApart_detachments ref, AreApart.unmount inner⟩
  | component identity child =>
      obtain ⟨own, inner⟩ := apart
      exact List.forall_mem_cons.mpr ⟨own, List.forall_mem_append.mpr
        ⟨IsApart.unmount inner, List.forall_mem_singleton.mpr own⟩⟩

theorem AreApart.unmount {trees : List Mounted} (apart : AreApart around trees) :
    ∀ step ∈ unmountAll trees, step.IsApart around := by
  cases trees with
  | nil => simp [unmountAll]
  | cons tree rest =>
      exact List.forall_mem_append.mpr ⟨IsApart.unmount apart.1, AreApart.unmount apart.2⟩
end

end Mounted

/-- Does an outcome keep apart from what lies around, and what it comes to as well? -/
structure Outcome.IsApart {α : Type} (around : Surroundings) (stands : α → Prop)
    (outcome : Outcome α) : Prop where
  value : stands outcome.value
  steps : ∀ step ∈ outcome.steps, step.IsApart around
  effects : ∀ effect ∈ outcome.effects, effect.IsApart around
  supply : outcome.supply.IsApart around

namespace Mounted

variable {around : Surroundings}

theorem isApart_cons {first : Outcome Mounted} {others : Outcome (List Mounted)}
    (here : first.IsApart around (IsApart around))
    (there : others.IsApart around (AreApart around)) :
    Outcome.IsApart around (AreApart around) ⟨first.value :: others.value,
      first.steps ++ others.steps, first.effects ++ others.effects, others.supply⟩ where
  value := ⟨here.value, there.value⟩
  steps := List.forall_mem_append.mpr ⟨here.steps, there.steps⟩
  effects := List.forall_mem_append.mpr ⟨here.effects, there.effects⟩
  supply := there.supply

theorem mount_apart :
    MountInduction
      (fun site _ supply outcome => site.context.IsApart around → supply.IsApart around →
        outcome.IsApart around (IsApart around))
      (fun site _ supply outcome => site.context.IsApart around → supply.IsApart around →
        outcome.IsApart around (AreApart around)) where
  empty _ _ _ supply := ⟨trivial, by simp, by simp, supply⟩
  text _ _ _ _ supply := ⟨trivial, by simp, by simp, supply⟩
  nil _ _ _ supply := ⟨trivial, by simp, by simp, supply⟩
  element site tag children attributes supply inner := by
    intro context apart
    have own := apart.objects supply.nextObject (Nat.le_refl _)
    have start : Supply.IsApart around { supply with nextObject := supply.nextObject + 1 } :=
      ⟨fun handle later => apart.objects handle (Nat.le_of_succ_le later), apart.instances⟩
    obtain ⟨value, steps, effects, finish⟩ := inner context start
    have ref := isApart_ref tag attributes supply.nextObject context
    exact ⟨⟨own, ref, value⟩, List.forall_mem_cons.mpr ⟨own, steps⟩,
      List.forall_mem_append.mpr ⟨effects, isApart_attachments ref own⟩, finish⟩
  component site id name content behaviour supply inner := by
    intro _ apart
    have own := apart.instances supply.nextInstance (Nat.le_refl _)
    have start : Supply.IsApart around { supply with nextInstance := supply.nextInstance + 1 } :=
      ⟨apart.objects, fun number later => apart.instances number (Nat.le_of_succ_le later)⟩
    obtain ⟨value, steps, effects, finish⟩ := inner ⟨supply.nextInstance, rfl, own⟩ start
    exact ⟨⟨own, value⟩,
      List.forall_mem_cons.mpr ⟨own, List.forall_mem_cons.mpr ⟨trivial, steps⟩⟩,
      List.forall_mem_append.mpr ⟨effects, List.forall_mem_singleton.mpr own⟩, finish⟩
  cons site index child rest supply first others := by
    intro context apart
    have here := first context apart
    exact isApart_cons here (others context here.supply)

theorem reconcile_apart :
    ReconcileInduction
      (fun site old _ supply outcome => site.context.IsApart around → old.IsApart around →
        supply.IsApart around → outcome.IsApart around (IsApart around))
      (fun site matched _ supply outcome => site.context.IsApart around →
        AreApart around (matched.filterMap id) → supply.IsApart around →
        outcome.IsApart around (AreApart around)) where
  replace site old spine supply _ := by
    intro context apart supply
    obtain ⟨value, steps, effects, finish⟩ := mount_apart.mount site spine _ context supply
    exact ⟨value, List.forall_mem_append.mpr ⟨apart.unmount, steps⟩, effects, finish⟩
  empty _ _ _ _ supply := ⟨trivial, by simp, by simp, supply⟩
  text _ _ _ _ _ _ supply := ⟨trivial, by simp, by simp, supply⟩
  nil _ _ _ _ _ supply := ⟨trivial, by simp, by simp, supply⟩
  element site node oldChildren children attributes supply inner := by
    intro context apart supply
    obtain ⟨own, ref, inside⟩ := apart
    have all := (Matching.perm_assign key oldChildren (childKeys children)).subset
    have matched := inside.of_subset (List.Subset.trans (List.subset_append_left _ _) all)
    have left := inside.of_subset (List.Subset.trans (List.subset_append_right _ _) all)
    obtain ⟨value, steps, effects, finish⟩ := inner context matched supply
    have ref' := isApart_ref node.tag attributes node.handle context
    refine ⟨⟨own, ref', value⟩, List.forall_mem_append.mpr ⟨isApart_detachments ?_,
      List.forall_mem_cons.mpr ⟨own, List.forall_mem_append.mpr ⟨steps, left.unmount⟩⟩⟩,
      List.forall_mem_append.mpr ⟨effects, isApart_attachments ?_ own⟩, finish⟩
    · intro id isRef
      exact ref id (Option.ite_none_right_eq_some.mp isRef).2
    · intro id isRef
      exact ref' id (Option.ite_none_right_eq_some.mp isRef).2
  component site identity old name content behaviour supply session inner := by
    intro _ apart supply
    obtain ⟨own, inside⟩ := apart
    obtain ⟨value, steps, effects, finish⟩ := inner ⟨identity.id, rfl, own⟩ inside supply
    exact ⟨⟨own, value⟩,
      List.forall_mem_cons.mpr ⟨own, List.forall_mem_cons.mpr ⟨trivial, steps⟩⟩, effects, finish⟩
  kept site old matched index child rest supply first others := by
    intro context apart supply
    have here := first context apart.1 supply
    exact isApart_cons here (others context apart.2 here.supply)
  new site matched index child rest supply none others := by
    intro context apart supply
    have here := mount_apart.mount (site.child index) child _ context supply
    have later := apart.of_subset ((List.tail_sublist matched).filterMap id).subset
    exact isApart_cons here (others context later here.supply)

/-! ## Rendering one component again -/

mutual
/-- The component with a number in a tree. -/
def within (id : InstanceId) : Mounted → List Mounted
  | .empty => []
  | .text _ => []
  | .element _ children => allWithin id children
  | .component identity child =>
      if identity.id = id then [.component identity child] else within id child

/-- The component with a number in a list of trees. -/
def allWithin (id : InstanceId) : List Mounted → List Mounted
  | [] => []
  | child :: rest => within id child ++ allWithin id rest
end

/-- What is collected from a node is what the node has itself, and what is in it. -/
structure CollectsNodes {α : Type} (collect : Mounted → List α) (collectAll : List Mounted → List α)
    (ofElement : MountedElement → List α) (ofInstance : Instance → List α) : Prop extends
    Collects collect collectAll where
  empty : collect .empty = []
  text : ∀ content, collect (.text content) = []
  element : ∀ node children,
    collect (.element node children) = ofElement node ++ collectAll children
  component : ∀ identity child,
    collect (.component identity child) = ofInstance identity ++ collect child

section

variable {α : Type} {collect : Mounted → List α} {collectAll : List Mounted → List α}
  {ofElement : MountedElement → List α} {ofInstance : Instance → List α}

mutual
theorem CollectsNodes.perm_without (nodes : CollectsNodes collect collectAll ofElement ofInstance)
    (id : InstanceId) (tree : Mounted) :
    (collect tree).Perm (collect (tree.without id) ++ collectAll (tree.within id)) := by
  cases tree with
  | empty | text => simp [without, within, nodes.nil]
  | element node children =>
      rw [without, within, nodes.element, nodes.element, List.append_assoc]
      exact (nodes.perm_eachWithout id children).append_left _
  | component identity child =>
      unfold without within
      split
      · simp [nodes.empty, nodes.cons, nodes.nil]
      · rw [nodes.component, nodes.component, List.append_assoc]
        exact (nodes.perm_without id child).append_left _

theorem CollectsNodes.perm_eachWithout
    (nodes : CollectsNodes collect collectAll ofElement ofInstance) (id : InstanceId)
    (trees : List Mounted) : (collectAll trees).Perm
      (collectAll (eachWithout id trees) ++ collectAll (allWithin id trees)) := by
  cases trees with
  | nil => simp [eachWithout, allWithin, nodes.nil]
  | cons tree rest =>
      rw [eachWithout, allWithin, nodes.cons, nodes.cons, nodes.append]
      have both := (nodes.perm_without id tree).append (nodes.perm_eachWithout id rest)
      refine both.trans ?_
      rw [List.append_assoc, List.append_assoc]
      refine .append_left _ ?_
      rw [← List.append_assoc, ← List.append_assoc]
      exact List.perm_append_comm.append_right _
end

end

theorem collectsNodes_handles :
    CollectsNodes handles childHandles (fun node => [node.handle]) fun _ => [] where
  nil := rfl
  cons _ _ := rfl
  empty := rfl
  text _ := rfl
  element _ _ := rfl
  component _ _ := rfl

theorem collectsNodes_instances :
    CollectsNodes instances childInstances (fun _ => []) fun identity => [identity] where
  nil := rfl
  cons _ _ := rfl
  empty := rfl
  text _ := rfl
  element _ _ := rfl
  component _ _ := rfl

theorem perm_handles (id : InstanceId) (tree : Mounted) :
    (tree.handles).Perm ((tree.without id).handles ++ childHandles (tree.within id)) :=
  collectsNodes_handles.perm_without id tree

theorem perm_instances (id : InstanceId) (tree : Mounted) :
    (tree.instances).Perm ((tree.without id).instances ++ childInstances (tree.within id)) :=
  collectsNodes_instances.perm_without id tree

/-- Rendering the content of a component again keeps apart from what lies around it. -/
theorem rerender_apart (id : InstanceId) (content : Spine) :
    RerenderInduction id content
      (fun tree supply outcome => ∀ {site spine}, Shows site spine tree →
        (∀ handle ∈ childHandles (tree.within id), ¬ around.handles handle) →
        (∀ identity ∈ childInstances (tree.within id), ¬ around.instances identity.id) →
          supply.IsApart around → outcome.IsApart around fun _ => True)
      (fun trees supply outcome => ∀ {site children}, ShowsChildren site children trees →
        (∀ handle ∈ childHandles (allWithin id trees), ¬ around.handles handle) →
        (∀ identity ∈ childInstances (allWithin id trees), ¬ around.instances identity.id) →
          supply.IsApart around → outcome.IsApart around fun _ => True) where
  empty _ _ _ _ _ _ apart := ⟨trivial, by simp, by simp, apart⟩
  text _ _ _ _ _ _ _ apart := ⟨trivial, by simp, by simp, apart⟩
  element node children supply inner := by
    intro site spine shows handles instances apart
    obtain ⟨_, shows⟩ := shows.of_element
    obtain ⟨-, steps, effects, finish⟩ := inner shows handles instances apart
    exact ⟨trivial, steps, effects, finish⟩
  here identity child supply here := by
    intro site spine shows handles instances apart
    simp only [within, if_pos here, childHandles, Mounted.handles, List.append_nil,
      childInstances, Mounted.instances] at handles instances
    obtain ⟨_, shows⟩ := shows.of_component
    have own := instances identity (List.mem_cons_self ..)
    have context : identity.site.context.IsApart around := ⟨identity.id, rfl, own⟩
    have old := shows_isApart.tree shows context handles
      fun other member => instances other (List.mem_cons_of_mem _ member)
    obtain ⟨-, steps, effects, finish⟩ :=
      reconcile_apart.reconcile identity.site child content supply context old apart
    exact ⟨trivial, List.forall_mem_cons.mpr ⟨trivial, steps⟩, effects, finish⟩
  inside identity child supply other inner := by
    intro site spine shows handles instances apart
    simp only [within, if_neg other] at handles instances
    obtain ⟨_, shows⟩ := shows.of_component
    obtain ⟨-, steps, effects, finish⟩ := inner shows handles instances apart
    exact ⟨trivial, steps, effects, finish⟩
  nil _ _ _ _ _ _ apart := ⟨trivial, by simp, by simp, apart⟩
  first tree rest supply _ inner := by
    intro site children shows handles instances apart
    simp only [allWithin, collectsNodes_handles.append, childInstances_append, List.mem_append]
      at handles instances
    obtain ⟨_, _, _, here, -⟩ := shows.of_cons
    obtain ⟨-, steps, effects, finish⟩ := inner here
      (fun handle member => handles handle (.inl member))
      (fun identity member => instances identity (.inl member)) apart
    exact ⟨trivial, steps, effects, finish⟩
  later tree rest supply _ inner := by
    intro site children shows handles instances apart
    simp only [allWithin, collectsNodes_handles.append, childInstances_append, List.mem_append]
      at handles instances
    obtain ⟨_, _, _, -, there⟩ := shows.of_cons
    obtain ⟨-, steps, effects, finish⟩ := inner there
      (fun handle member => handles handle (.inr member))
      (fun identity member => instances identity (.inr member)) apart
    exact ⟨trivial, steps, effects, finish⟩

end Mounted

end RemoteView
