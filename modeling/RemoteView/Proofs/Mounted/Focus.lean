import RemoteView.Proofs.Mounted.Chains

/-! # Rendering the same again

A tree that shows a spine with distinct indices stays as it is when the spine is rendered again:
handles are written and payloads handed out, but nothing is mounted or unmounted. When one component
of the spine gets another payload, what happens besides this is what happens when the content of
that one component is rendered again.
-/

namespace RemoteView

theorem Path.descend_child (path : Path) (index : UInt32) (more : List UInt32) :
    (path.child index).descend more = path.descend (index :: more) := by
  simp [Path.descend, Path.child]

namespace Spine

mutual
def componentPaths (path : Path) : Spine → List Path
  | .empty => []
  | .text _ => []
  | .element _ children _ => childComponentPaths path children
  | .component _ _ content _ => path :: componentPaths path content

def childComponentPaths (path : Path) : List (UInt32 × Spine) → List Path
  | [] => []
  | (index, child) :: rest =>
      componentPaths (path.child index) child ++ childComponentPaths path rest
end

mutual
/-- The spine with another payload in the component that indices lead to. Of several ones at one
    path it is the outermost. -/
def withPayload (payload : Payload) (segments : List UInt32) : Spine → Spine
  | .empty => .empty
  | .text content => .text content
  | .element tag children attributes =>
      match segments with
      | [] => .element tag children attributes
      | index :: rest => .element tag (withChildPayload payload index rest children) attributes
  | .component id name content behaviour =>
      match segments with
      | [] => .component id name payload.content payload.behaviour
      | index :: rest => .component id name (withPayload payload (index :: rest) content) behaviour

/-- The children with another payload in a component inside the child with an index. -/
def withChildPayload (payload : Payload) (index : UInt32) (rest : List UInt32) :
    List (UInt32 × Spine) → List (UInt32 × Spine)
  | [] => []
  | (first, child) :: others =>
      if first = index then (first, withPayload payload rest child) :: others
      else (first, child) :: withChildPayload payload index rest others
end

theorem keyAt_withPayload (payload : Payload) (segments : List UInt32) (spine : Spine)
    (key : Option UInt32) : (spine.withPayload payload segments).keyAt key = spine.keyAt key := by
  cases spine <;> cases segments <;> rfl

theorem childKeys_withChildPayload (payload : Payload) (index : UInt32) (rest : List UInt32)
    (children : List (UInt32 × Spine)) :
    Mounted.childKeys (withChildPayload payload index rest children) =
      Mounted.childKeys children := by
  induction children with
  | nil => rfl
  | cons entry others ih =>
      obtain ⟨first, child⟩ := entry
      unfold withChildPayload
      split
      · simp [Mounted.childKeys, keyAt_withPayload]
      · simpa [Mounted.childKeys] using ih

mutual
theorem declarations_withPayload (payload : Payload) (segments : List UInt32) (spine : Spine)
    (path : Path) : (spine.withPayload payload segments).declarations path =
      spine.declarations path := by
  cases spine with
  | empty | text => rfl
  | element tag children attributes =>
      cases segments with
      | nil => rfl
      | cons index rest =>
          simp only [withPayload, declarations,
            childDeclarations_withChildPayload payload index rest children path]
  | component id name content behaviour => cases segments <;> rfl

theorem childDeclarations_withChildPayload (payload : Payload) (index : UInt32)
    (rest : List UInt32) (children : List (UInt32 × Spine)) (path : Path) :
    childDeclarations path (withChildPayload payload index rest children) =
      childDeclarations path children := by
  cases children with
  | nil => rfl
  | cons entry others =>
      obtain ⟨first, child⟩ := entry
      unfold withChildPayload
      split
      · simp only [childDeclarations, declarations_withPayload payload rest child]
      · simp only [childDeclarations,
          childDeclarations_withChildPayload payload index rest others path]
end

end Spine

namespace Mounted

mutual
/-- The handles of the elements in a tree. -/
def handles : Mounted → List ObjectId
  | .empty => []
  | .text _ => []
  | .element node children => node.handle :: childHandles children
  | .component _ child => handles child

/-- The handles of the elements in a list of trees. -/
def childHandles : List Mounted → List ObjectId
  | [] => []
  | child :: rest => handles child ++ childHandles rest
end

mutual
/-- The tree with an instance and everything in it taken out. -/
def without (id : InstanceId) : Mounted → Mounted
  | .empty => .empty
  | .text content => .text content
  | .element node children => .element node (eachWithout id children)
  | .component identity child =>
      if identity.id = id then .empty else .component identity (without id child)

/-- The trees with an instance and everything in it taken out. -/
def eachWithout (id : InstanceId) : List Mounted → List Mounted
  | [] => []
  | child :: rest => without id child :: eachWithout id rest
end

/-- What the contents of the components in a spine declare, each in the context of the instance that
    shows it. -/
def declared : Spine → Mounted → List (ContextId × Declaration)
  | .element _ children _, .element _ trees => childDeclared children trees
  | .component _ _ content _, .component identity child =>
      (content.declarations identity.path).map (identity.context, ·) ++ declared content child
  | _, _ => []
where
  childDeclared : List (UInt32 × Spine) → List Mounted → List (ContextId × Declaration)
  | (_, child) :: rest, tree :: trees => declared child tree ++ childDeclared rest trees
  | _, _ => []

end Mounted

/-! ## Where components are -/

namespace Spine

mutual
theorem below_of_componentPaths {path place : Path} {spine : Spine}
    (member : place ∈ spine.componentPaths path) : ∃ more, place = path.descend more := by
  cases spine with
  | empty | text => simp [componentPaths] at member
  | element tag children attributes =>
      obtain ⟨index, -, more, same⟩ := below_of_childComponentPaths member
      exact ⟨index :: more, same⟩
  | component id name content behaviour =>
      rcases List.mem_cons.mp member with rfl | inside
      · exact ⟨[], by simp [Path.descend]⟩
      · exact below_of_componentPaths inside

theorem below_of_childComponentPaths {path place : Path} {children : List (UInt32 × Spine)}
    (member : place ∈ childComponentPaths path children) :
    ∃ index ∈ children.map Prod.fst, ∃ more, place = path.descend (index :: more) := by
  cases children with
  | nil => simp [childComponentPaths] at member
  | cons entry rest =>
      obtain ⟨index, child⟩ := entry
      rcases List.mem_append.mp member with here | there
      · obtain ⟨more, rfl⟩ := below_of_componentPaths here
        exact ⟨index, by simp, more, Path.descend_child path index more⟩
      · obtain ⟨other, among, more, same⟩ := below_of_childComponentPaths there
        exact ⟨other, List.mem_cons_of_mem _ among, more, same⟩
end

end Spine

namespace Mounted

theorem shows_paths :
    ShowsInduction (fun site spine tree =>
        tree.instances.map Instance.path = spine.componentPaths site.path)
      (fun site children trees =>
        (childInstances trees).map Instance.path = Spine.childComponentPaths site.path children) where
  empty _ := rfl
  text _ _ := rfl
  element _ _ _ _ _ _ _ inner := inner
  component site identity name content behaviour child _ path _ _ inner := by
    have same : identity.site.path = identity.path := rfl
    simp only [instances, List.map_cons, Spine.componentPaths, inner, same, path]
  nil _ := rfl
  cons site index child rest tree trees _ _ first others := by
    simp only [childInstances, List.map_append, Spine.childComponentPaths, first, others]
    rfl

end Mounted

/-! ## Nothing else changes -/

/-- What lies around a component: handles, instances, and what has been declared. -/
structure Surroundings where
  handles : ObjectId → Prop
  instances : InstanceId → Prop
  declarations : ContextId → Declaration → Prop

/-- Does a step only write a handle around, hand a payload to an instance around, or declare what
    has been declared? -/
def Step.IsIdle (around : Surroundings) : Step → Prop
  | .syncHandle handle _ => around.handles handle
  | .receive id _ => around.instances id
  | .declare site spine =>
      ∀ declaration ∈ spine.declarations site.path, around.declarations site.context declaration
  | .createHandle .. | .detachRef _ | .willUnmount _ | .release _ | .instantiate .. => False

namespace Mounted

variable {around : Surroundings}

/-- A tree that shows a spine lies around. -/
structure LiesAround (around : Surroundings) (spine : Spine) (tree : Mounted) : Prop where
  handles : ∀ handle ∈ tree.handles, around.handles handle
  instances : ∀ identity ∈ tree.instances, around.instances identity.id
  declared : ∀ pair ∈ declared spine tree, around.declarations pair.1 pair.2

/-- Trees that show the children of an element lie around. -/
structure LieAround (around : Surroundings) (children : List (UInt32 × Spine))
    (trees : List Mounted) : Prop where
  handles : ∀ handle ∈ childHandles trees, around.handles handle
  instances : ∀ identity ∈ childInstances trees, around.instances identity.id
  declared : ∀ pair ∈ declared.childDeclared children trees, around.declarations pair.1 pair.2

theorem LiesAround.children {tag : String} {children : List (UInt32 × Spine)}
    {attributes : List Attribute} {node : MountedElement} {trees : List Mounted}
    (lies : LiesAround around (.element tag children attributes) (.element node trees)) :
    LieAround around children trees where
  handles handle member := lies.handles handle (List.mem_cons_of_mem _ member)
  instances := lies.instances
  declared := lies.declared

section

variable {id : UInt64} {name : String} {content : Spine} {behaviour : Behaviour}
  {identity : Instance} {child : Mounted}

theorem LiesAround.inner
    (lies : LiesAround around (.component id name content behaviour) (.component identity child)) :
    LiesAround around content child where
  handles := lies.handles
  instances other member := lies.instances other (List.mem_cons_of_mem _ member)
  declared pair member := lies.declared pair (List.mem_append_right _ member)

theorem declared_own
    (known : ∀ pair ∈ declared (.component id name content behaviour) (.component identity child),
      around.declarations pair.1 pair.2) :
    ∀ declaration ∈ content.declarations identity.path,
      around.declarations identity.context declaration :=
  fun declaration among => known (identity.context, declaration)
    (List.mem_append_left _ (List.mem_map_of_mem among))

end

theorem LieAround.first {index : UInt32} {child : Spine} {rest : List (UInt32 × Spine)}
    {tree : Mounted} {trees : List Mounted}
    (lie : LieAround around ((index, child) :: rest) (tree :: trees)) :
    LiesAround around child tree where
  handles handle member := lie.handles handle (List.mem_append_left _ member)
  instances identity member := lie.instances identity (List.mem_append_left _ member)
  declared pair member := lie.declared pair (List.mem_append_left _ member)

theorem LieAround.others {index : UInt32} {child : Spine} {rest : List (UInt32 × Spine)}
    {tree : Mounted} {trees : List Mounted}
    (lie : LieAround around ((index, child) :: rest) (tree :: trees)) :
    LieAround around rest trees where
  handles handle member := lie.handles handle (List.mem_append_right _ member)
  instances identity member := lie.instances identity (List.mem_append_right _ member)
  declared pair member := lie.declared pair (List.mem_append_right _ member)

/-- When children are matched with trees that show them, each gets its own. -/
theorem assign_shows {site : Site} {children : List (UInt32 × Spine)} {trees : List Mounted}
    (shows : ShowsChildren site children trees) (distinct : (children.map Prod.fst).Nodup)
    (inner : Spine.DistinctChildren children) :
    Matching.assign key trees (childKeys children) = (trees.map some, []) := by
  have keys := (ShowsChildren.distinct shows inner).1
  rw [← keys]
  apply Matching.assign_self
  rw [keys]
  exact Spine.nodup_childKeys distinct

theorem reconcile_idle :
    ShowsInduction
      (fun site spine tree => spine.Distinct → LiesAround around spine tree → ∀ supply,
        ∃ steps, reconcile site tree spine supply = ⟨tree, steps, [], supply⟩ ∧
          ∀ step ∈ steps, step.IsIdle around)
      (fun site children trees => Spine.DistinctChildren children →
        LieAround around children trees → ∀ supply,
        ∃ steps, reconcileChildren site (trees.map some) children supply =
          ⟨trees, steps, [], supply⟩ ∧ ∀ step ∈ steps, step.IsIdle around) where
  empty _ _ _ _ := ⟨[], rfl, by simp⟩
  text _ _ _ _ _ := ⟨[], rfl, by simp⟩
  element site tag children attributes handle trees shows inner := by
    intro distinct lies supply
    obtain ⟨steps, same, idle⟩ := inner distinct.2 lies.children supply
    refine ⟨.syncHandle handle (rendered site tag attributes handle).props :: steps, ?_,
      List.forall_mem_cons.mpr ⟨lies.handles handle List.mem_cons_self, idle⟩⟩
    rw [reconcile_element site (rendered_tag site tag attributes handle),
      assign_shows shows distinct.1 distinct.2]
    simp [same, detachments, attachments, unmountAll]
  component site identity name content behaviour child session _ _ _ inner := by
    intro distinct lies supply
    obtain ⟨steps, same, idle⟩ := inner distinct lies.inner supply
    refine ⟨.receive identity.id ⟨content, behaviour⟩ :: .declare identity.site content :: steps,
      ?_, List.forall_mem_cons.mpr ⟨lies.instances identity List.mem_cons_self,
        List.forall_mem_cons.mpr ⟨declared_own lies.declared, idle⟩⟩⟩
    rw [reconcile_component site ⟨session, rfl⟩]
    simp [same]
  nil _ _ _ _ := ⟨[], rfl, by simp⟩
  cons site index child rest tree trees _ _ first others := by
    intro distinct lie supply
    obtain ⟨steps, same, idle⟩ := first distinct.1 lie.first supply
    obtain ⟨more, same', idle'⟩ := others distinct.2 lie.others supply
    refine ⟨steps ++ more, ?_, List.forall_mem_append.mpr ⟨idle, idle'⟩⟩
    rw [List.map_cons, reconcileChildren_kept]
    simp [same, same']

/-! ## What is declared on the way -/

def Declares (steps : List Step) (pair : ContextId × Declaration) : Prop :=
  ∃ site content, .declare site content ∈ steps ∧ pair.1 = site.context ∧
    pair.2 ∈ content.declarations site.path

theorem Declares.mono {steps more : List Step} {pair : ContextId × Declaration}
    (declares : Declares steps pair) (all : steps ⊆ more) : Declares more pair := by
  obtain ⟨site, content, member, context, declared⟩ := declares
  exact ⟨site, content, all member, context, declared⟩

theorem declares_component {identity : Instance} {id : UInt64} {name : String} {content : Spine}
    {behaviour : Behaviour} {child : Mounted} {steps : List Step} {first : Step}
    (inner : ∀ pair ∈ declared content child, Declares steps pair) :
    ∀ pair ∈ declared (.component id name content behaviour) (.component identity child),
      Declares (first :: .declare identity.site content :: steps) pair := by
  intro pair member
  rcases List.mem_append.mp member with own | inside
  · obtain ⟨declaration, among, rfl⟩ := List.mem_map.mp own
    exact ⟨identity.site, content, by simp, rfl, among⟩
  · exact (inner pair inside).mono fun step done =>
      List.mem_cons_of_mem _ (List.mem_cons_of_mem _ done)

theorem declares_cons {index : UInt32} {child : Spine} {rest : List (UInt32 × Spine)}
    {tree : Mounted} {trees : List Mounted} {steps more : List Step}
    (first : ∀ pair ∈ declared child tree, Declares steps pair)
    (others : ∀ pair ∈ declared.childDeclared rest trees, Declares more pair) :
    ∀ pair ∈ declared.childDeclared ((index, child) :: rest) (tree :: trees),
      Declares (steps ++ more) pair := by
  intro pair member
  rcases List.mem_append.mp member with here | there
  · exact (first pair here).mono (List.subset_append_left _ _)
  · exact (others pair there).mono (List.subset_append_right _ _)

theorem mount_declares :
    MountInduction
      (fun _ spine _ outcome => ∀ pair ∈ declared spine outcome.value,
        Declares outcome.steps pair)
      (fun _ children _ outcome => ∀ pair ∈ declared.childDeclared children outcome.value,
        Declares outcome.steps pair) where
  empty _ _ := by simp [declared]
  text _ _ _ := by simp [declared]
  element _ _ _ _ _ inner pair member :=
    (inner pair member).mono fun step done => List.mem_cons_of_mem _ done
  component _ _ _ _ _ _ inner := declares_component inner
  nil _ _ := by simp [declared.childDeclared]
  cons _ _ _ _ _ first others := declares_cons first others

theorem reconcile_declares :
    ReconcileInduction
      (fun _ _ spine _ outcome => ∀ pair ∈ declared spine outcome.value,
        Declares outcome.steps pair)
      (fun _ _ children _ outcome => ∀ pair ∈ declared.childDeclared children outcome.value,
        Declares outcome.steps pair) where
  replace site _ spine supply _ pair member :=
    (mount_declares.mount site spine supply pair member).mono (List.subset_append_right _ _)
  empty _ _ := by simp [declared]
  text _ _ _ _ := by simp [declared]
  nil _ _ _ := by simp [declared.childDeclared]
  element _ _ _ _ _ _ inner pair member := by
    refine (inner pair member).mono fun step done => ?_
    exact List.mem_append_right _ (List.mem_cons_of_mem _ (List.mem_append_left _ done))
  component _ _ _ _ _ _ _ _ inner := declares_component inner
  kept _ _ _ _ _ _ _ first others := declares_cons first others
  new site _ index child _ supply _ others :=
    declares_cons (mount_declares.mount (site.child index) child supply) others

/-! ## One component gets another payload -/

mutual
theorem without_of_absent {id : InstanceId} {tree : Mounted}
    (absent : id ∉ tree.instances.map Instance.id) : tree.without id = tree := by
  cases tree with
  | empty | text => rfl
  | element node children => rw [without, eachWithout_of_absent absent]
  | component identity child =>
      have apart : identity.id ≠ id ∧ id ∉ child.instances.map Instance.id := by
        simpa [instances, eq_comm] using absent
      rw [without, if_neg apart.1, without_of_absent apart.2]

theorem eachWithout_of_absent {id : InstanceId} {trees : List Mounted}
    (absent : id ∉ (childInstances trees).map Instance.id) : eachWithout id trees = trees := by
  cases trees with
  | nil => rfl
  | cons tree rest =>
      rw [childInstances, List.map_append, List.mem_append, not_or] at absent
      rw [eachWithout, without_of_absent absent.1, eachWithout_of_absent absent.2]
end

mutual
theorem id_of_without {id : InstanceId} {tree : Mounted} {identity : Instance}
    (member : identity ∈ (tree.without id).instances) : identity.id ≠ id := by
  cases tree with
  | empty | text => simp [without, instances] at member
  | element node children => exact id_of_eachWithout member
  | component outer child =>
      unfold without at member
      split at member
      · simp [instances] at member
      · rename_i other
        rcases List.mem_cons.mp member with rfl | inside
        · exact other
        · exact id_of_without inside

theorem id_of_eachWithout {id : InstanceId} {trees : List Mounted} {identity : Instance}
    (member : identity ∈ childInstances (eachWithout id trees)) : identity.id ≠ id := by
  cases trees with
  | nil => simp [eachWithout, childInstances] at member
  | cons tree rest =>
      rcases List.mem_append.mp member with here | there
      · exact id_of_without here
      · exact id_of_eachWithout there
end

/-- Everything around an instance in a tree that shows a spine. -/
structure LiesAroundAt (around : Surroundings) (id : InstanceId) (spine : Spine)
    (tree : Mounted) : Prop where
  handles : ∀ handle ∈ (tree.without id).handles, around.handles handle
  instances : ∀ identity ∈ (tree.without id).instances, around.instances identity.id
  declared : ∀ pair ∈ declared spine tree, around.declarations pair.1 pair.2

structure LieAroundAt (around : Surroundings) (id : InstanceId)
    (children : List (UInt32 × Spine)) (trees : List Mounted) : Prop where
  handles : ∀ handle ∈ childHandles (eachWithout id trees), around.handles handle
  instances : ∀ identity ∈ childInstances (eachWithout id trees), around.instances identity.id
  declared : ∀ pair ∈ declared.childDeclared children trees, around.declarations pair.1 pair.2

namespace LieAroundAt

variable {id : InstanceId} {index : UInt32} {child : Spine} {rest : List (UInt32 × Spine)}
  {tree : Mounted} {trees : List Mounted}

theorem first (lie : LieAroundAt around id ((index, child) :: rest) (tree :: trees)) :
    LiesAroundAt around id child tree where
  handles handle member := lie.handles handle (List.mem_append_left _ member)
  instances identity member := lie.instances identity (List.mem_append_left _ member)
  declared pair member := lie.declared pair (List.mem_append_left _ member)

theorem others (lie : LieAroundAt around id ((index, child) :: rest) (tree :: trees)) :
    LieAroundAt around id rest trees where
  handles handle member := lie.handles handle (List.mem_append_right _ member)
  instances identity member := lie.instances identity (List.mem_append_right _ member)
  declared pair member := lie.declared pair (List.mem_append_right _ member)

theorem all (lie : LieAroundAt around id rest trees)
    (absent : id ∉ (childInstances trees).map Instance.id) : LieAround around rest trees := by
  obtain ⟨handles, instances, declared⟩ := lie
  rw [eachWithout_of_absent absent] at handles instances
  exact ⟨handles, instances, declared⟩

end LieAroundAt

namespace LiesAroundAt

theorem children {id : InstanceId} {tag : String} {children : List (UInt32 × Spine)}
    {attributes : List Attribute} {node : MountedElement} {trees : List Mounted}
    (lies : LiesAroundAt around id (.element tag children attributes) (.element node trees)) :
    LieAroundAt around id children trees where
  handles handle member := lies.handles handle (List.mem_cons_of_mem _ member)
  instances := lies.instances
  declared := lies.declared

theorem inner {id : InstanceId} {component : UInt64} {name : String} {content : Spine}
    {behaviour : Behaviour} {outer : Instance} {child : Mounted} (other : outer.id ≠ id)
    (lies : LiesAroundAt around id (.component component name content behaviour)
      (.component outer child)) :
    around.instances outer.id ∧ LiesAroundAt around id content child := by
  obtain ⟨handles, instances, declared⟩ := lies
  rw [without, if_neg other] at handles instances
  obtain ⟨here, inside⟩ := List.forall_mem_cons.mp instances
  exact ⟨here, handles, inside, fun pair member => declared pair (List.mem_append_right _ member)⟩

theorem all {id : InstanceId} {spine : Spine} {tree : Mounted}
    (lies : LiesAroundAt around id spine tree) (absent : id ∉ tree.instances.map Instance.id) :
    LiesAround around spine tree := by
  obtain ⟨handles, instances, declared⟩ := lies
  rw [without_of_absent absent] at handles instances
  exact ⟨handles, instances, declared⟩

end LiesAroundAt

/-- An outcome is the other one, after the instance was handed the payload, with idle steps before
    and after. -/
def Embeds {α : Type} (around : Surroundings) (id : InstanceId) (payload : Payload)
    (full again : Outcome α) : Prop :=
  ∃ before after, (∀ step ∈ before, step.IsIdle around) ∧ (∀ step ∈ after, step.IsIdle around) ∧
    full = ⟨again.value, before ++ .receive id payload :: (again.steps ++ after), again.effects,
      again.supply⟩

/-- Where the only component at a path of a spine is. -/
structure OnlyAt (site : Site) (spine : Spine) (tree : Mounted) (identity : Instance)
    (segments : List UInt32) : Prop where
  once : (tree.instances.map Instance.id).Nodup
  member : identity ∈ tree.instances
  place : identity.path = site.path.descend segments
  only : (spine.componentPaths site.path).count identity.path = 1

structure OnlyIn (site : Site) (children : List (UInt32 × Spine)) (trees : List Mounted)
    (identity : Instance) (index : UInt32) (rest : List UInt32) : Prop where
  once : ((childInstances trees).map Instance.id).Nodup
  member : identity ∈ childInstances trees
  place : identity.path = site.path.descend (index :: rest)
  only : (Spine.childComponentPaths site.path children).count identity.path = 1

theorem index_eq_of_below {path place : Path} {first index : UInt32} {rest : List UInt32}
    {child : Spine} (place_eq : place = path.descend (index :: rest))
    (member : place ∈ child.componentPaths (path.child first)) : first = index := by
  obtain ⟨more, same⟩ := Spine.below_of_componentPaths member
  rw [place_eq, Path.descend_child] at same
  have segments := congrArg Path.segments same
  simp only [Path.descend, List.append_cancel_left_eq, List.cons.injEq] at segments
  exact segments.1.symm

theorem mem_componentPaths {site : Site} {spine : Spine} {tree : Mounted}
    (shows : Shows site spine tree) {identity : Instance} (member : identity ∈ tree.instances) :
    identity.path ∈ spine.componentPaths site.path := by
  rw [← shows_paths.tree shows]
  exact List.mem_map.mpr ⟨identity, member, rfl⟩

theorem mem_childComponentPaths {site : Site} {children : List (UInt32 × Spine)}
    {trees : List Mounted} (shows : ShowsChildren site children trees) {identity : Instance}
    (member : identity ∈ childInstances trees) :
    identity.path ∈ Spine.childComponentPaths site.path children := by
  rw [← shows_paths.children shows]
  exact List.mem_map.mpr ⟨identity, member, rfl⟩

/-- A component is at its own site only when it is the outermost one there. -/
theorem OnlyAt.inside {site : Site} {outer identity : Instance} {name : String} {content : Spine}
    {behaviour : Behaviour} {child : Mounted} {segments : List UInt32}
    (path : outer.path = site.path) (shows : Shows outer.site content child)
    (at_ : OnlyAt site (.component outer.component name content behaviour)
      (.component outer child) identity segments) :
    (identity = outer ∧ segments = []) ∨ (outer.id ≠ identity.id ∧ segments ≠ [] ∧
      OnlyAt outer.site content child identity segments) := by
  obtain ⟨once, member, place, only⟩ := at_
  have same : outer.site.path = site.path := path
  rcases List.mem_cons.mp member with rfl | inside
  · refine .inl ⟨rfl, ?_⟩
    rw [path] at place
    have segments := congrArg Path.segments place
    simpa [Path.descend] using segments
  · have there := mem_componentPaths shows inside
    rw [same] at there
    rw [Spine.componentPaths, List.count_cons] at only
    have counted := List.count_pos_iff.mpr there
    have apart : site.path ≠ identity.path := by
      intro equal
      simp only [equal, beq_self_eq_true, if_true] at only
      rw [equal] at counted
      omega
    refine .inr ⟨?_, ?_, ?_⟩
    · intro equal
      rw [instances, List.map_cons, List.nodup_cons] at once
      exact once.1 (List.mem_map.mpr ⟨identity, inside, equal.symm⟩)
    · rintro rfl
      exact apart (by rw [place]; simp [Path.descend])
    · refine ⟨?_, inside, by rw [same]; exact place, ?_⟩
      · rw [instances, List.map_cons, List.nodup_cons] at once
        exact once.2
      · rw [same]
        simpa [apart] using only

theorem OnlyAt.children {site : Site} {tag : String} {children : List (UInt32 × Spine)}
    {attributes : List Attribute} {node : MountedElement} {trees : List Mounted}
    {identity : Instance} {segments : List UInt32} (shows : ShowsChildren site children trees)
    (at_ : OnlyAt site (.element tag children attributes) (.element node trees) identity segments) :
    ∃ index rest, segments = index :: rest ∧ OnlyIn site children trees identity index rest := by
  obtain ⟨once, member, place, only⟩ := at_
  obtain ⟨index, -, more, same⟩ :=
    Spine.below_of_childComponentPaths (mem_childComponentPaths shows member)
  have segments : segments = index :: more := by
    rw [place] at same
    simpa [Path.descend] using congrArg Path.segments same
  subst segments
  exact ⟨index, more, rfl, once, member, place, only⟩

theorem OnlyIn.first_or_later {site : Site} {first : UInt32} {child : Spine}
    {children : List (UInt32 × Spine)} {tree : Mounted} {trees : List Mounted}
    {identity : Instance} {index : UInt32} {rest : List UInt32}
    (distinct : first ∉ children.map Prod.fst) (here : Shows (site.child first) child tree)
    (there : ShowsChildren site children trees)
    (in_ : OnlyIn site ((first, child) :: children) (tree :: trees) identity index rest) :
    (first = index ∧ identity.id ∉ (childInstances trees).map Instance.id ∧
      OnlyAt (site.child first) child tree identity rest) ∨
    (first ≠ index ∧ identity.id ∉ tree.instances.map Instance.id ∧
      OnlyIn site children trees identity index rest) := by
  obtain ⟨once, member, place, only⟩ := in_
  rw [childInstances, List.map_append, List.nodup_append] at once
  obtain ⟨onceHere, onceThere, apart⟩ := once
  rw [Spine.childComponentPaths, List.count_append] at only
  rcases List.mem_append.mp member with inside | later
  · have below := mem_componentPaths here inside
    obtain rfl : first = index := index_eq_of_below place below
    have counted := List.count_pos_iff.mpr below
    refine .inl ⟨rfl, ?_, onceHere, inside, ?_, ?_⟩
    · intro again
      exact apart _ (List.mem_map.mpr ⟨identity, inside, rfl⟩) _ again rfl
    · rw [place]
      exact (Path.descend_child site.path first rest).symm
    · change (child.componentPaths (site.path.child first)).count identity.path = 1
      change 0 < (child.componentPaths (site.path.child first)).count identity.path at counted
      omega
  · have below := mem_childComponentPaths there later
    obtain ⟨other, among, more, same⟩ := Spine.below_of_childComponentPaths below
    have counted := List.count_pos_iff.mpr below
    have equal : other = index := by
      rw [place] at same
      have segments := congrArg Path.segments same
      simp only [Path.descend, List.append_cancel_left_eq, List.cons.injEq] at segments
      exact segments.1.symm
    refine .inr ⟨?_, ?_, onceThere, later, place, by omega⟩
    · rintro rfl
      exact distinct (equal ▸ among)
    · intro again
      exact apart _ again _ (List.mem_map.mpr ⟨identity, later, rfl⟩) rfl

/-- Rendering a spine in which one component has got another payload is rendering the content of
    that component again. -/
theorem reconcile_withPayload (payload : Payload) :
    ShowsInduction
      (fun site spine tree => spine.Distinct → ∀ identity segments,
        OnlyAt site spine tree identity segments → LiesAroundAt around identity.id spine tree →
        ∀ supply, Embeds around identity.id payload
          (reconcile site tree (spine.withPayload payload segments) supply)
          (rerender identity.id payload.content tree supply))
      (fun site children trees => (children.map Prod.fst).Nodup →
        Spine.DistinctChildren children → ∀ identity index rest,
        OnlyIn site children trees identity index rest →
        LieAroundAt around identity.id children trees →
        ∀ supply, Embeds around identity.id payload
          (reconcileChildren site (trees.map some)
            (Spine.withChildPayload payload index rest children) supply)
          (rerenderFirst identity.id payload.content trees supply)) where
  empty _ _ _ _ at_ := by
    have member := at_.member
    simp [instances] at member
  text _ _ _ _ _ at_ := by
    have member := at_.member
    simp [instances] at member
  nil _ _ _ _ _ _ in_ := by
    have member := in_.member
    simp [childInstances] at member
  element site tag children attributes handle trees shows inner := by
    intro distinct identity segments at_ lies supply
    obtain ⟨index, rest, rfl, in_⟩ := at_.children shows
    obtain ⟨before, after, idle, idle', same⟩ :=
      inner distinct.1 distinct.2 identity index rest in_ lies.children supply
    refine ⟨.syncHandle handle (rendered site tag attributes handle).props :: before, after,
      List.forall_mem_cons.mpr ⟨lies.handles handle List.mem_cons_self, idle⟩, idle', ?_⟩
    rw [Spine.withPayload, reconcile_element site (rendered_tag site tag attributes handle),
      Spine.childKeys_withChildPayload, assign_shows shows distinct.1 distinct.2,
      rerender_element]
    simp [same, detachments, attachments, unmountAll]
  component site outer name content behaviour child session path _ shows inner := by
    intro distinct identity segments at_ lies supply
    rcases at_.inside path shows with ⟨rfl, rfl⟩ | ⟨other, deeper, inside⟩
    · refine ⟨[], [], by simp, by simp, ?_⟩
      rw [Spine.withPayload, reconcile_component site ⟨session, rfl⟩, rerender_here]
      simp
    · obtain ⟨here, within⟩ := lies.inner other
      obtain ⟨before, after, idle, idle', same⟩ :=
        inner distinct identity segments inside within supply
      obtain ⟨index, rest, rfl⟩ := List.exists_cons_of_ne_nil deeper
      let changed := content.withPayload payload (index :: rest)
      have known : ∀ declaration ∈ changed.declarations outer.path,
          around.declarations outer.context declaration := by
        rw [Spine.declarations_withPayload]
        exact declared_own lies.declared
      refine ⟨.receive outer.id ⟨changed, behaviour⟩ :: .declare outer.site changed :: before,
        after, List.forall_mem_cons.mpr ⟨here, List.forall_mem_cons.mpr ⟨known, idle⟩⟩, idle', ?_⟩
      rw [Spine.withPayload, reconcile_component site ⟨session, rfl⟩,
        rerender_inside payload.content other]
      simp [same, changed]
  cons site first child children tree trees here there focus others := by
    intro keys distinct identity index rest in_ lie supply
    obtain ⟨new, keys⟩ := List.nodup_cons.mp keys
    rcases in_.first_or_later new here there with ⟨rfl, absent, at_⟩ | ⟨apart, absent, in_⟩
    · obtain ⟨before, after, idle, idle', same⟩ := focus distinct.1 identity rest at_ lie.first
        supply
      obtain ⟨more, same', idle''⟩ := reconcile_idle.children there distinct.2
        (lie.others.all absent)
        (rerender identity.id payload.content tree supply).supply
      have held : tree.holds identity.id = true :=
        (holds_iff _ _).mpr (List.mem_map.mpr ⟨identity, at_.member, rfl⟩)
      refine ⟨before, after ++ more, idle, List.forall_mem_append.mpr ⟨idle', idle''⟩, ?_⟩
      rw [Spine.withChildPayload, if_pos rfl, List.map_cons, reconcileChildren_kept,
        rerenderFirst_here payload.content held]
      simp [same, same']
    · obtain ⟨more, same', idle''⟩ := reconcile_idle.tree here distinct.1
        (lie.first.all absent) supply
      obtain ⟨before, after, idle, idle', same⟩ := others keys distinct.2 identity index rest in_
        lie.others supply
      have missing : tree.holds identity.id ≠ true := fun held => absent ((holds_iff _ _).mp held)
      refine ⟨more ++ before, after, List.forall_mem_append.mpr ⟨idle'', idle⟩, idle', ?_⟩
      rw [Spine.withChildPayload, if_neg apart, List.map_cons, reconcileChildren_kept,
        rerenderFirst_later payload.content missing]
      simp [same, same']

end Mounted

end RemoteView
