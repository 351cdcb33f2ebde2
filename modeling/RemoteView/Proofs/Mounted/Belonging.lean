import RemoteView.Proofs.Mounted.Carriers
import RemoteView.Proofs.Mounted.Wholes
import RemoteView.Proofs.Spine.Own

/-! # What belongs to a component

A ref is known by the context in which its element is rendered, so the refs of a component and of
the components inside of it are in it alone. The elements of its own, those that are in no component
inside of it, are the ones that its content describes, one by one.
-/

namespace RemoteView

theorem exists_related_of_mem {α β : Type} {R : α → β → Prop} {left : List α} {right : List β}
    (related : List.Forall₂ R left right) {one : α} (member : one ∈ left) :
    ∃ other ∈ right, R one other := by
  induction related with
  | nil => cases member
  | cons here _ ih =>
      rcases List.mem_cons.mp member with rfl | later
      · exact ⟨_, List.mem_cons_self, here⟩
      · obtain ⟨other, among, holds⟩ := ih later
        exact ⟨other, List.mem_cons_of_mem _ among, holds⟩

namespace Mounted

/-- A tree carries its places, and is rendered outside of some instances. -/
def IsOutside (instances : List Instance) (tree : Mounted) : Prop :=
  ∃ site, (∀ identity ∈ instances, site.context ≠ identity.context) ∧
    ∀ entry ∈ tree.elementsAt site, entry.2.Carries entry.1

theorem IsOutside.mono {instances fewer : List Instance} {tree : Mounted}
    (outside : tree.IsOutside instances) (less : fewer ⊆ instances) : tree.IsOutside fewer := by
  obtain ⟨site, apart, carried⟩ := outside
  exact ⟨site, fun identity member => apart identity (less member), carried⟩

/-- A ref in a tree that is rendered outside of some instances does not belong to them, unless they
    are in the tree. -/
theorem context_ne_of_mem_refs {instances : List Instance} {tree : Mounted}
    (outside : tree.IsOutside instances)
    (apart : ∀ identity ∈ instances, identity.id ∉ tree.instances.map Instance.id)
    {one : Attachment} (member : one ∈ tree.refs) :
    ∀ identity ∈ instances, one.1.context ≠ identity.context := by
  obtain ⟨site, elsewhere, carried⟩ := outside
  intro identity among same
  rcases context_of_mem_refs carried member with atSite | ⟨other, inside, within⟩
  · exact elsewhere identity among (atSite.symm.trans same)
  · have there : some identity.id = some other.id :=
      congrArg ContextId.instance? (same.symm.trans within)
    refine apart identity among ?_
    rw [Option.some.inj there]
    exact List.mem_map_of_mem inside

theorem isOutside_children {node : MountedElement} {children : List Mounted}
    {instances : List Instance} (outside : (element node children).IsOutside instances) :
    ∀ tree ∈ children, tree.IsOutside instances := by
  obtain ⟨site, apart, carried⟩ := outside
  have each : ∀ entry ∈ childElementsAt site children, entry.2.Carries entry.1 :=
    fun entry member => carried entry (List.mem_cons_of_mem _ member)
  clear carried
  induction children with
  | nil => simp
  | cons tree rest ih =>
      refine List.forall_mem_cons.mpr ⟨⟨site.below tree.key, ?_, fun entry member => ?_⟩,
        ih fun entry member => each entry (List.mem_append_right _ member)⟩
      · cases tree.key <;> exact apart
      · exact each entry (List.mem_append_left _ member)

/-- The refs in a component belong to its instance or to those inside of it, and the other refs around
    it do not. -/
structure RefsApart (refs : List Attachment) (one : Instance × Mounted)
    (others : List Attachment) : Prop where
  all : refs.Perm (one.2.refs ++ others)
  inside : ∀ ref ∈ one.2.refs, ∃ identity ∈ (component one.1 one.2).instances,
    ref.1.context = identity.context
  outside : ∀ ref ∈ others, ∀ identity ∈ (component one.1 one.2).instances,
    ref.1.context ≠ identity.context

namespace RefsApart

variable {refs others more : List Attachment} {one : Instance × Mounted}

theorem around (apart : RefsApart refs one others) (left right : List Attachment)
    (outsideLeft : ∀ ref ∈ left, ∀ identity ∈ (component one.1 one.2).instances,
      ref.1.context ≠ identity.context)
    (outsideRight : ∀ ref ∈ right, ∀ identity ∈ (component one.1 one.2).instances,
      ref.1.context ≠ identity.context) :
    RefsApart (left ++ refs ++ right) one (left ++ others ++ right) where
  all := by
    rw [← List.append_assoc, ← List.append_assoc]
    refine List.Perm.append_right right ((apart.all.append_left left).trans ?_)
    rw [List.append_assoc]
    exact List.perm_append_comm_assoc _ _ _
  inside := apart.inside
  outside ref among := by
    rcases List.mem_append.mp among with near | far
    · exact (List.mem_append.mp near).elim (outsideLeft ref) (apart.outside ref)
    · exact outsideRight ref far

end RefsApart

mutual
/-- The refs of a component, with those of the components inside of it, are apart from all other
    refs of the tree. -/
theorem exists_other_refs {tree : Mounted} (outside : tree.IsOutside tree.instances)
    (once : (tree.instances.map Instance.id).Nodup) {one : Instance × Mounted}
    (member : one ∈ tree.components) : ∃ others, RefsApart tree.refs one others := by
  cases tree with
  | empty | text => cases member
  | element node children =>
      obtain ⟨others, apart⟩ := exists_other_childRefs (isOutside_children outside) once member
      obtain ⟨site, elsewhere, carried⟩ := outside
      have own : ∀ ref ∈ attachment node.props.ref? node.handle,
          ∀ identity ∈ (component one.1 one.2).instances, ref.1.context ≠ identity.context := by
        intro ref among identity inside
        obtain ⟨id, isRef, rfl⟩ := Option.map_eq_some_iff.mp (Option.mem_toList.mp among)
        obtain ⟨here, -⟩ := (carried (site, node) List.mem_cons_self).ref id isRef
        rw [here]
        exact elsewhere identity ((instances_of_childComponent member).subset inside)
      exact ⟨_, by simpa [refs] using apart.around _ [] own (by simp)⟩
  | component outer inner =>
      obtain ⟨new, distinct⟩ := List.nodup_cons.mp once
      obtain ⟨site, -, carried⟩ := outside
      let within : Site := { site with context := outer.context }
      have carried : ∀ entry ∈ inner.elementsAt within, entry.2.Carries entry.1 := carried
      rcases List.mem_cons.mp member with rfl | inside
      · refine ⟨[], by rw [List.append_nil, refs], fun ref among => ?_, by simp⟩
        rcases context_of_mem_refs carried among with here | ⟨identity, isInner, there⟩
        · exact ⟨outer, List.mem_cons_self, here⟩
        · exact ⟨identity, List.mem_cons_of_mem _ isInner, there⟩
      · have isOutside : inner.IsOutside inner.instances := by
          refine ⟨within, ?_, carried⟩
          intro identity among same
          refine new ?_
          rw [show outer.id = identity.id from Option.some.inj (congrArg ContextId.instance? same)]
          exact List.mem_map_of_mem among
        exact exists_other_refs isOutside distinct inside

theorem exists_other_childRefs {trees : List Mounted}
    (outside : ∀ tree ∈ trees, tree.IsOutside (childInstances trees))
    (once : ((childInstances trees).map Instance.id).Nodup) {one : Instance × Mounted}
    (member : one ∈ childComponents trees) : ∃ others, RefsApart (childRefs trees) one others := by
  cases trees with
  | nil => cases member
  | cons tree rest =>
      obtain ⟨first, later⟩ := List.forall_mem_cons.mp outside
      rw [childInstances, List.map_append, List.nodup_append] at once
      obtain ⟨distinct, others, disjoint⟩ := once
      rcases List.mem_append.mp member with here | there
      · obtain ⟨left, apart⟩ :=
          exists_other_refs (first.mono (List.subset_append_left _ _)) distinct here
        have far : ∀ ref ∈ childRefs rest, ∀ identity ∈ (component one.1 one.2).instances,
            ref.1.context ≠ identity.context := by
          intro ref among
          rw [childRefs_eq_flatMap] at among
          obtain ⟨sibling, isSibling, inside⟩ := List.mem_flatMap.mp among
          refine context_ne_of_mem_refs ((later sibling isSibling).mono ?_) ?_ inside
          · exact List.subset_append_of_subset_left _ (instances_of_component here).subset
          · intro identity own elsewhere
            refine disjoint _ (List.mem_map_of_mem ((instances_of_component here).subset own)) _ ?_
              rfl
            obtain ⟨other, among, same⟩ := List.mem_map.mp elsewhere
            rw [childInstances_eq_flatMap]
            exact List.mem_map.mpr ⟨other, List.mem_flatMap.mpr ⟨sibling, isSibling, among⟩, same⟩
        exact ⟨_, apart.around [] _ (by simp) far⟩
      · obtain ⟨left, apart⟩ := exists_other_childRefs
          (fun sibling isSibling =>
            (later sibling isSibling).mono (List.subset_append_right _ _)) others there
        have near : ∀ ref ∈ tree.refs, ∀ identity ∈ (component one.1 one.2).instances,
            ref.1.context ≠ identity.context := by
          intro ref among
          refine context_ne_of_mem_refs (first.mono ?_) ?_ among
          · exact List.subset_append_of_subset_right _ (instances_of_childComponent there).subset
          · intro identity own elsewhere
            exact disjoint _ elsewhere _
              (List.mem_map_of_mem ((instances_of_childComponent there).subset own)) rfl
        exact ⟨_, by simpa [childRefs] using apart.around _ [] near (by simp)⟩
end

/-! ## The elements of its own -/

/-- An element of a tree is what an element of a spine looks like at a site. -/
structure IsOwn (site : Site) (entry : List UInt32 × String × List Attribute)
    (one : Site × MountedElement) : Prop where
  context : one.1.context = site.context
  path : one.1.path = site.path.descend entry.1
  rendered : one.2 = Mounted.rendered one.1 entry.2.1 entry.2.2 one.2.handle

/-- A tree that shows a spine outside of its instances has the own elements of the spine in its
    context, one by one. -/
theorem shows_own :
    ShowsInduction
      (fun site spine tree => (∀ identity ∈ tree.instances, site.context ≠ identity.context) →
        List.Forall₂ (IsOwn site) spine.ownElements
          ((tree.elementsAt site).filter fun one => one.1.context = site.context))
      (fun site children trees =>
        (∀ identity ∈ childInstances trees, site.context ≠ identity.context) →
          List.Forall₂ (IsOwn site) (Spine.ownChildren children)
            ((childElementsAt site trees).filter fun one => one.1.context = site.context)) where
  empty _ := fun _ => .nil
  text _ _ := fun _ => .nil
  element site tag children attributes handle trees _ inner := by
    intro apart
    rw [elementsAt, List.filter_cons_of_pos (by simp)]
    exact .cons ⟨rfl, by simp [Path.descend], rfl⟩ (inner apart)
  component site identity name content behaviour child _ _ _ shows _ := by
    intro apart
    have nothing : ((component identity child).elementsAt site).filter
        (fun one => one.1.context = site.context) = [] := by
      refine List.filter_eq_nil_iff.mpr fun one member => ?_
      rw [decide_eq_true_eq]
      intro same
      have inside : one ∈ child.elementsAt { site with context := identity.context } := member
      rcases context_of_elementAt inside with here | ⟨inside, among, there⟩
      · exact apart identity List.mem_cons_self (same.symm.trans here)
      · exact apart inside (List.mem_cons_of_mem _ among) (same.symm.trans there)
    rw [nothing]
    exact .nil
  nil _ := fun _ => .nil
  cons site index child rest tree trees shows _ here there := by
    intro apart
    rw [childElementsAt, (below_of_placed shows.placed).1, List.filter_append, Spine.ownChildren]
    refine List.rel_append ?_ (there fun identity member =>
      apart identity (List.mem_append_right _ member))
    rw [List.forall₂_map_left_iff]
    refine (here fun identity member => apart identity (List.mem_append_left _ member)).imp ?_
    rintro entry one ⟨context, path, rendered⟩
    exact ⟨context, path.trans (Path.descend_child site.path index entry.1), rendered⟩

theorem IsOwn.ref? {site : Site} {entry : List UInt32 × String × List Attribute}
    {one : Site × MountedElement} (own : IsOwn site entry one) {declared : RefAttribute}
    (written : Attribute.lastWriting? refProperty entry.2.2 = some (.ref declared)) :
    one.2.props.ref? = some ⟨site.context, site.path.descend entry.1⟩ := by
  rw [own.rendered, ref?_rendered, Props.ref?, Attribute.get?_ofAttributes, written, own.context,
    own.path]
  rfl

section

variable {identity : Instance} {content : Spine} {child : Mounted}

/-- In a component every own element of its content is there, and so is its ref when it is not
    written over. -/
theorem exists_own_element (shows : Shows identity.site content child)
    (new : identity.id ∉ child.instances.map Instance.id)
    {entry : List UInt32 × String × List Attribute} (member : entry ∈ content.ownElements) :
    ∃ one ∈ child.elementsAt identity.site, IsOwn identity.site entry one ∧ ∀ declared,
      Attribute.lastWriting? refProperty entry.2.2 = some (.ref declared) →
        (⟨identity.context, identity.path.descend entry.1⟩, one.2.handle) ∈ child.refs := by
  have apart : ∀ other ∈ child.instances, identity.site.context ≠ other.context :=
    fun other among same => new (List.mem_map.mpr
      ⟨other, among, (Option.some.inj (congrArg ContextId.instance? same)).symm⟩)
  obtain ⟨one, among, own⟩ := exists_related_of_mem (shows_own.tree shows apart) member
  obtain ⟨there, -⟩ := List.mem_filter.mp among
  refine ⟨one, there, own, fun declared written => ?_⟩
  rw [refs_eq_flatMap, ← elementsAt_snd identity.site]
  refine List.mem_flatMap.mpr ⟨one.2, List.mem_map_of_mem there, ?_⟩
  rw [own.ref? written]
  exact List.mem_singleton_self _

theorem own_of_mem_refs (shows : Shows identity.site content child)
    (new : identity.id ∉ child.instances.map Instance.id) {one : Attachment}
    (member : one ∈ child.refs) (here : one.1.context = identity.context) :
    ∃ entry ∈ content.ownElements, ∃ declared ∈ Attribute.refs entry.2.2,
      one.1 = ⟨identity.context, identity.path.descend entry.1⟩ := by
  have apart : ∀ other ∈ child.instances, identity.site.context ≠ other.context :=
    fun other among same => new (List.mem_map.mpr
      ⟨other, among, (Option.some.inj (congrArg ContextId.instance? same)).symm⟩)
  obtain ⟨place, among, isRef, -⟩ := exists_elementAt_of_ref member identity.site
  obtain ⟨context, -⟩ := (shows.faithful.elements place among).ref one.1 isRef
  have inside : place ∈ (child.elementsAt identity.site).filter fun one =>
      one.1.context = identity.site.context :=
    List.mem_filter.mpr ⟨among, decide_eq_true (context.symm.trans here)⟩
  obtain ⟨entry, isEntry, own⟩ := exists_related_of_mem (shows_own.tree shows apart).flip inside
  rw [own.rendered] at isRef
  obtain ⟨declared, isAttribute, same⟩ := exists_attribute_of_ref isRef
  refine ⟨entry, isEntry, declared, Attribute.mem_refs.mpr isAttribute, ?_⟩
  rw [same, own.context, own.path]
  rfl

end

end Mounted

end RemoteView
