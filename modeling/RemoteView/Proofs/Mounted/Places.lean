import RemoteView.Proofs.Mounted.Apart
import RemoteView.Proofs.Mounted.Refs

/-! # The places of nodes

Where the nodes of a tree are: the sites that child indices lead to from the root. That instances and
callbacks carry these positions is true of every tree that shows a spine, and of the trees that come
of rendering a component again.
-/

namespace RemoteView

/-- The site of a child that has a key. -/
def Site.below (site : Site) : Option UInt32 → Site
  | some index => site.child index
  | none => site

/-- Does an event on an element come to a listener, perhaps through its input? -/
def MountedElement.Listens (node : MountedElement) (id : ListenerId) : Prop :=
  (∃ name, node.props.listener? name = some (.listener id)) ∨
    node.input.bind ControlledInput.forwardTo = some (.listener id)

/-- The listeners and the ref of an element carry the place where it is. -/
structure MountedElement.Carries (site : Site) (node : MountedElement) : Prop where
  listeners : ∀ id, node.Listens id → id.context = site.context ∧ id.path = site.path
  ref : ∀ id, node.props.ref? = some id → id.context = site.context ∧ id.path = site.path

namespace Mounted

mutual
/-- The elements in a tree, each with the site to which child indices lead from that of the tree.
    Components add no index, but what is inside them is rendered in their context. -/
def elementsAt (site : Site) : Mounted → List (Site × MountedElement)
  | .empty => []
  | .text _ => []
  | .element node children => (site, node) :: childElementsAt site children
  | .component identity child => elementsAt { site with context := identity.context } child

/-- The elements in the children of a tree. -/
def childElementsAt (site : Site) : List Mounted → List (Site × MountedElement)
  | [] => []
  | tree :: rest => elementsAt (site.below tree.key) tree ++ childElementsAt site rest
end

mutual
/-- The instances in a tree, each with the site to which child indices lead from that of the tree. -/
def instancesAt (site : Site) : Mounted → List (Site × Instance)
  | .empty => []
  | .text _ => []
  | .element _ children => childInstancesAt site children
  | .component identity child =>
      (site, identity) :: instancesAt { site with context := identity.context } child

/-- The instances in the children of a tree. -/
def childInstancesAt (site : Site) : List Mounted → List (Site × Instance)
  | [] => []
  | tree :: rest => instancesAt (site.below tree.key) tree ++ childInstancesAt site rest
end

/-- Everything in a tree carries the place where it is. -/
structure Faithful (site : Site) (tree : Mounted) : Prop where
  instances : ∀ entry ∈ tree.instancesAt site, entry.2.path = entry.1.path
  elements : ∀ entry ∈ tree.elementsAt site, entry.2.Carries entry.1

/-! ## What is rendered carries its place -/

theorem listener?_ofAttributes {context : ContextId} {path : Path} {attributes : List Attribute}
    {name : String} {callback : Callback}
    (found : (Props.ofAttributes context path attributes).listener? name = some callback) :
    ∃ fid, callback = .listener ⟨context, path, fid⟩ := by
  obtain ⟨property, stored, isListener⟩ := Option.bind_eq_some_iff.mp found
  obtain ⟨declared, -, written⟩ := List.mem_map.mp (Assoc.mem_of_get?_ofList stored)
  cases declared with
  | listener declared =>
      obtain ⟨-, rfl⟩ := Prod.mk.inj written
      exact ⟨declared.fid, (Option.some.inj isListener).symm⟩
  | value | ref =>
      obtain ⟨-, rfl⟩ := Prod.mk.inj written
      cases isListener
  | style style =>
      cases style <;>
      · obtain ⟨-, rfl⟩ := Prod.mk.inj written
        cases isListener

theorem listener?_render {onChange callback : Callback} {input : ControlledInput} {props : Props}
    {name : String} (found : (input.render onChange props).listener? name = some callback) :
    callback = onChange ∨ props.listener? name = some callback := by
  simp only [Props.listener?, ControlledInput.render, Assoc.get?_insert] at found
  split at found
  · exact .inl (Option.some.inj found).symm
  · split at found
    · cases found
    · exact .inr found

theorem carries_rendered (site : Site) (tag : String) (attributes : List Attribute)
    (handle : ObjectId) : (rendered site tag attributes handle).Carries site where
  listeners id listens := by
    have pushed (name : String) (given : (Props.ofAttributes site.context site.path
        attributes).listener? name = some (.listener id)) :
        id.context = site.context ∧ id.path = site.path := by
      obtain ⟨fid, same⟩ := listener?_ofAttributes given
      obtain rfl := Callback.listener.inj same
      exact ⟨rfl, rfl⟩
    simp only [MountedElement.Listens, rendered, propsWith, inputFor] at listens
    by_cases isInput : tag = inputTag
    · simp only [if_pos isInput, Option.bind_some, ControlledInput.new] at listens
      rcases listens with ⟨name, given⟩ | forwarded
      · rcases listener?_render given with own | given
        · cases own
        · exact pushed name given
      · exact pushed _ forwarded
    · simp only [if_neg isInput, Option.bind_none, reduceCtorEq, or_false] at listens
      obtain ⟨name, given⟩ := listens
      exact pushed name given
  ref id found := by
    rw [ref_rendered found]
    exact ⟨rfl, rfl⟩

/-! ## Trees that stand at their place -/

theorem site_of_placed {site : Site} {identity : Instance} {child : Mounted}
    (placed : (Mounted.component identity child).Placed site) :
    identity.site = { site with context := identity.context } := by
  obtain ⟨-, path, key, -⟩ := placed
  rw [Instance.site, path, key]

theorem below_of_placed {site : Site} {index : UInt32} {tree : Mounted}
    (placed : tree.Placed (site.child index)) :
    tree.elementsAt (site.below tree.key) = tree.elementsAt (site.child index) ∧
      tree.instancesAt (site.below tree.key) = tree.instancesAt (site.child index) := by
  cases tree with
  | empty | text => exact ⟨rfl, rfl⟩
  | element node children =>
      have key : (Mounted.element node children).key = some index := placed.1
      rw [key]
      exact ⟨rfl, rfl⟩
  | component identity child =>
      have key : (Mounted.component identity child).key = some index := placed.2.2.1
      rw [key]
      exact ⟨rfl, rfl⟩

mutual
theorem path_of_placed {site : Site} {tree : Mounted} (placed : tree.Placed site) :
    ∀ entry ∈ tree.instancesAt site, entry.2.path = entry.1.path := by
  cases tree with
  | empty | text => simp [instancesAt]
  | element node children => exact path_of_placedChildren placed.2
  | component identity child =>
      intro entry member
      rcases List.mem_cons.mp member with rfl | inside
      · exact placed.2.1
      · rw [← site_of_placed placed] at inside
        exact path_of_placed placed.2.2.2 entry inside

theorem path_of_placedChildren {site : Site} {trees : List Mounted}
    (placed : PlacedChildren site trees) :
    ∀ entry ∈ childInstancesAt site trees, entry.2.path = entry.1.path := by
  cases trees with
  | nil => simp [childInstancesAt]
  | cons tree rest =>
      obtain ⟨⟨index, here⟩, there⟩ := placed
      intro entry member
      rcases List.mem_append.mp member with first | later
      · rw [(below_of_placed here).2] at first
        exact path_of_placed here entry first
      · exact path_of_placedChildren there entry later
end

theorem shows_carries :
    ShowsInduction
      (fun site _ tree => ∀ entry ∈ tree.elementsAt site, entry.2.Carries entry.1)
      (fun site _ trees => ∀ entry ∈ childElementsAt site trees, entry.2.Carries entry.1) where
  empty _ := by simp [elementsAt]
  text _ _ := by simp [elementsAt]
  element site tag children attributes handle trees _ inner := by
    intro entry member
    rcases List.mem_cons.mp member with rfl | inside
    · exact carries_rendered site tag attributes handle
    · exact inner entry inside
  component site identity name content behaviour child session path key shows inner := by
    intro entry member
    have placed : (Mounted.component identity child).Placed site :=
      ⟨session, path, key, shows.placed⟩
    refine inner entry ?_
    rw [site_of_placed placed]
    exact member
  nil _ := by simp [childElementsAt]
  cons site index child rest tree trees shows _ first others := by
    intro entry member
    rcases List.mem_append.mp member with here | there
    · rw [(below_of_placed shows.placed).1] at here
      exact first entry here
    · exact others entry there

theorem Shows.faithful {site : Site} {spine : Spine} {tree : Mounted}
    (shows : Shows site spine tree) : tree.Faithful site where
  instances := path_of_placed shows.placed
  elements := shows_carries.tree shows

/-! ## Rendering a component again -/

theorem rerender_carries (id : InstanceId) (content : Spine) :
    RerenderInduction id content
      (fun tree _ outcome => ∀ {site}, tree.Placed site →
        (∀ entry ∈ tree.elementsAt site, entry.2.Carries entry.1) →
          ∀ entry ∈ outcome.value.elementsAt site, entry.2.Carries entry.1)
      (fun trees _ outcome => ∀ {site}, PlacedChildren site trees →
        (∀ entry ∈ childElementsAt site trees, entry.2.Carries entry.1) →
          ∀ entry ∈ childElementsAt site outcome.value, entry.2.Carries entry.1) where
  empty _ _ _ carried := carried
  text _ _ _ _ carried := carried
  element _ _ _ inner _ placed carried := by
    obtain ⟨own, inside⟩ := List.forall_mem_cons.mp carried
    exact List.forall_mem_cons.mpr ⟨own, inner placed.2 inside⟩
  here identity child supply _ site placed _ := by
    have same := site_of_placed placed
    rw [elementsAt, ← same]
    exact (shows_reconcile identity.site placed.2.2.2 content supply).faithful.elements
  inside identity child supply _ inner site placed carried := by
    have same := site_of_placed placed
    rw [elementsAt, ← same] at carried ⊢
    exact inner placed.2.2.2 carried
  nil _ _ _ carried := carried
  first tree rest supply _ inner site placed carried := by
    obtain ⟨⟨index, here⟩, there⟩ := placed
    obtain ⟨first, later⟩ := List.forall_mem_append.mp carried
    refine List.forall_mem_append.mpr ⟨?_, later⟩
    rw [(below_of_placed here).1] at first
    rw [(below_of_placed ((rerender_placed id content).rerender tree supply here)).1]
    exact inner here first
  later _ _ _ _ inner _ placed carried := by
    obtain ⟨first, later⟩ := List.forall_mem_append.mp carried
    exact List.forall_mem_append.mpr ⟨first, inner placed.2 later⟩

theorem faithful_rerender (id : InstanceId) (content : Spine) {site : Site} {tree : Mounted}
    (placed : tree.Placed site) (faithful : tree.Faithful site) (supply : Supply) :
    (rerender id content tree supply).value.Faithful site where
  instances := path_of_placed ((rerender_placed id content).rerender tree supply placed)
  elements := (rerender_carries id content).rerender tree supply placed faithful.elements

/-! ## Changes of elements -/

section MapNodes

variable {change : MountedElement → MountedElement}

theorem KeepsPlace.listens (keeps : KeepsPlace change) {node : MountedElement} {id : ListenerId}
    (listens : (change node).Listens id) : node.Listens id := by
  rcases listens with ⟨name, given⟩ | forwarded
  · exact .inl ⟨name, keeps.listener node name _ given⟩
  · rw [keeps.forwardTo] at forwarded
    exact .inr forwarded

theorem KeepsPlace.carries (keeps : KeepsPlace change) {site : Site} {node : MountedElement}
    (carried : node.Carries site) : (change node).Carries site where
  listeners id listens := carried.listeners id (keeps.listens listens)
  ref id found := carried.ref id (by rw [← keeps.ref node]; exact found)

theorem key_mapNodes (keeps : KeepsPlace change) (tree : Mounted) :
    (mapNodes change tree).key = tree.key := by
  cases tree with
  | empty | text | component => rfl
  | element node children => exact keeps.key node

mutual
theorem elementsAt_mapNodes (keeps : KeepsPlace change) (site : Site) (tree : Mounted) :
    (mapNodes change tree).elementsAt site =
      (tree.elementsAt site).map fun entry => (entry.1, change entry.2) := by
  cases tree with
  | empty | text => rfl
  | element node children =>
      simp only [mapNodes, elementsAt, List.map_cons, childElementsAt_mapChildren keeps site children]
  | component identity child => exact elementsAt_mapNodes keeps _ child

theorem childElementsAt_mapChildren (keeps : KeepsPlace change) (site : Site)
    (trees : List Mounted) : childElementsAt site (mapChildren change trees) =
      (childElementsAt site trees).map fun entry => (entry.1, change entry.2) := by
  cases trees with
  | nil => rfl
  | cons tree rest =>
      simp only [mapChildren, childElementsAt, List.map_append, key_mapNodes keeps tree,
        elementsAt_mapNodes keeps _ tree, childElementsAt_mapChildren keeps site rest]
end

mutual
theorem instancesAt_mapNodes (keeps : KeepsPlace change) (site : Site) (tree : Mounted) :
    (mapNodes change tree).instancesAt site = tree.instancesAt site := by
  cases tree with
  | empty | text => rfl
  | element node children => exact childInstancesAt_mapChildren keeps site children
  | component identity child =>
      simp only [mapNodes, instancesAt, instancesAt_mapNodes keeps _ child]

theorem childInstancesAt_mapChildren (keeps : KeepsPlace change) (site : Site)
    (trees : List Mounted) :
    childInstancesAt site (mapChildren change trees) = childInstancesAt site trees := by
  cases trees with
  | nil => rfl
  | cons tree rest =>
      simp only [mapChildren, childInstancesAt, key_mapNodes keeps tree,
        instancesAt_mapNodes keeps _ tree, childInstancesAt_mapChildren keeps site rest]
end

theorem Faithful.mapNodes (keeps : KeepsPlace change) {site : Site} {tree : Mounted}
    (faithful : tree.Faithful site) : (mapNodes change tree).Faithful site where
  instances := by
    rw [instancesAt_mapNodes keeps]
    exact faithful.instances
  elements entry member := by
    rw [elementsAt_mapNodes keeps] at member
    obtain ⟨old, there, rfl⟩ := List.mem_map.mp member
    exact keeps.carries (faithful.elements old there)

end MapNodes

/-! ## What is at a place -/

mutual
theorem mem_elementsAt_of_find? {segments : List UInt32} {tree : Mounted} {node : MountedElement}
    (found : tree.find? segments = some node) (site : Site) :
    ∃ place, (place, node) ∈ tree.elementsAt site ∧ place.path = site.path.descend segments := by
  cases tree with
  | empty | text => cases found
  | element own children =>
      cases segments with
      | nil =>
          obtain rfl : own = node := Option.some.inj found
          exact ⟨site, List.mem_cons_self, by simp [Path.descend]⟩
      | cons index rest =>
          obtain ⟨place, inside, leads⟩ := mem_childElementsAt_of_findChild? found site
          exact ⟨place, List.mem_cons_of_mem _ inside, leads⟩
  | component identity child =>
      have inside : child.find? segments = some node := found
      exact mem_elementsAt_of_find? inside { site with context := identity.context }

theorem mem_childElementsAt_of_findChild? {index : UInt32} {rest : List UInt32}
    {trees : List Mounted} {node : MountedElement}
    (found : findChild? index rest trees = some node) (site : Site) :
    ∃ place, (place, node) ∈ childElementsAt site trees ∧
      place.path = site.path.descend (index :: rest) := by
  cases trees with
  | nil => cases found
  | cons tree others =>
      unfold findChild? at found
      split at found
      · rename_i key
        obtain ⟨place, inside, leads⟩ := mem_elementsAt_of_find? found (site.child index)
        refine ⟨place, List.mem_append_left _ (by rw [key]; exact inside), ?_⟩
        rw [leads]
        exact Path.descend_child site.path index rest
      · obtain ⟨place, inside, leads⟩ := mem_childElementsAt_of_findChild? found site
        exact ⟨place, List.mem_append_right _ inside, leads⟩
end

mutual
theorem exists_elementAt_of_ref {one : Attachment} {tree : Mounted} (member : one ∈ tree.refs)
    (site : Site) : ∃ entry ∈ tree.elementsAt site,
      entry.2.props.ref? = some one.1 ∧ entry.2.handle = one.2 := by
  cases tree with
  | empty | text => cases member
  | element node children =>
      rcases List.mem_append.mp member with own | inside
      · obtain ⟨id, given, rfl⟩ := Option.map_eq_some_iff.mp (Option.mem_toList.mp own)
        exact ⟨_, List.mem_cons_self, given, rfl⟩
      · obtain ⟨entry, there, given⟩ := exists_childElementAt_of_ref inside site
        exact ⟨entry, List.mem_cons_of_mem _ there, given⟩
  | component identity child =>
      have inside : one ∈ child.refs := member
      exact exists_elementAt_of_ref inside { site with context := identity.context }

theorem exists_childElementAt_of_ref {one : Attachment} {trees : List Mounted}
    (member : one ∈ childRefs trees) (site : Site) : ∃ entry ∈ childElementsAt site trees,
      entry.2.props.ref? = some one.1 ∧ entry.2.handle = one.2 := by
  cases trees with
  | nil => cases member
  | cons tree rest =>
      rcases List.mem_append.mp member with here | there
      · obtain ⟨entry, inside, given⟩ := exists_elementAt_of_ref here (site.below tree.key)
        exact ⟨entry, List.mem_append_left _ inside, given⟩
      · obtain ⟨entry, inside, given⟩ := exists_childElementAt_of_ref there site
        exact ⟨entry, List.mem_append_right _ inside, given⟩
end

mutual
@[simp] theorem instancesAt_snd (site : Site) (tree : Mounted) :
    (tree.instancesAt site).map Prod.snd = tree.instances := by
  cases tree with
  | empty | text => rfl
  | element node children => exact childInstancesAt_snd site children
  | component identity child => simp only [instancesAt, instances, List.map_cons, instancesAt_snd]

@[simp] theorem childInstancesAt_snd (site : Site) (trees : List Mounted) :
    (childInstancesAt site trees).map Prod.snd = childInstances trees := by
  cases trees with
  | nil => rfl
  | cons tree rest =>
      simp only [childInstancesAt, childInstances, List.map_append, instancesAt_snd,
        childInstancesAt_snd]
end

mutual
theorem context_of_elementAt {site : Site} {tree : Mounted} {entry : Site × MountedElement}
    (member : entry ∈ tree.elementsAt site) : entry.1.context = site.context ∨
      ∃ identity ∈ tree.instances, entry.1.context = identity.context := by
  cases tree with
  | empty | text => cases member
  | element node children =>
      rcases List.mem_cons.mp member with rfl | inside
      · exact .inl rfl
      · exact context_of_childElementAt inside
  | component identity child =>
      have inner : entry ∈ child.elementsAt { site with context := identity.context } := member
      refine .inr ?_
      rcases context_of_elementAt inner with own | ⟨other, inside, same⟩
      · exact ⟨identity, List.mem_cons_self, own⟩
      · exact ⟨other, List.mem_cons_of_mem _ inside, same⟩

theorem context_of_childElementAt {site : Site} {trees : List Mounted}
    {entry : Site × MountedElement} (member : entry ∈ childElementsAt site trees) :
    entry.1.context = site.context ∨
      ∃ identity ∈ childInstances trees, entry.1.context = identity.context := by
  cases trees with
  | nil => cases member
  | cons tree rest =>
      rcases List.mem_append.mp member with here | there
      · rcases context_of_elementAt here with own | ⟨identity, inside, same⟩
        · refine .inl (own.trans ?_)
          cases tree.key <;> rfl
        · exact .inr ⟨identity, List.mem_append_left _ inside, same⟩
      · rcases context_of_childElementAt there with own | ⟨identity, inside, same⟩
        · exact .inl own
        · exact .inr ⟨identity, List.mem_append_right _ inside, same⟩
end

/-- A ref belongs to where its tree is rendered, or to an instance in the tree. -/
theorem context_of_mem_refs {site : Site} {tree : Mounted}
    (carried : ∀ entry ∈ tree.elementsAt site, entry.2.Carries entry.1) {one : Attachment}
    (member : one ∈ tree.refs) : one.1.context = site.context ∨
      ∃ identity ∈ tree.instances, one.1.context = identity.context := by
  obtain ⟨entry, placed, isRef, -⟩ := exists_elementAt_of_ref member site
  obtain ⟨own, -⟩ := (carried entry placed).ref one.1 isRef
  rw [own]
  exact context_of_elementAt placed

end Mounted

end RemoteView
