import RemoteView.Proofs.Mounted.Elements
import RemoteView.Proofs.Spine.Listeners

/-! # Carriers of refs

Where siblings can be told apart, no two elements have the same position, and so no two elements
carry the same ref: a ref has one handle in a tree at most, that of the element that carries it.
-/

namespace RemoteView

/-- The handles of the elements that a ref is attached to. -/
def RefId.handlesIn (id : RefId) (refs : List Attachment) : List ObjectId :=
  (refs.filter fun one => one.1 = id).map Prod.snd

namespace RefId

variable {id : RefId}

theorem handlesIn_append (left right : List Attachment) :
    id.handlesIn (left ++ right) = id.handlesIn left ++ id.handlesIn right := by
  simp only [handlesIn, List.filter_append, List.map_append]

theorem handlesIn_perm {refs others : List Attachment} (same : refs.Perm others) :
    (id.handlesIn refs).Perm (id.handlesIn others) :=
  (same.filter _).map _

theorem length_handlesIn_le {refs : List Attachment} (once : (refs.map Prod.fst).Nodup) :
    (id.handlesIn refs).length ≤ 1 := by
  have count := List.nodup_iff_count_le_one.mp once id
  rw [List.count, List.countP_map] at count
  rw [handlesIn, List.length_map, ← List.countP_eq_length_filter]
  exact le_of_eq_of_le (List.countP_congr fun one _ => by simp) count

end RefId

namespace Mounted

mutual
/-- The elements in a tree. -/
def elements : Mounted → List MountedElement
  | .empty => []
  | .text _ => []
  | .element node children => node :: childElements children
  | .component _ child => elements child

/-- The elements in a list of trees. -/
def childElements : List Mounted → List MountedElement
  | [] => []
  | tree :: rest => elements tree ++ childElements rest
end

/-- The elements in a tree that have a ref. -/
def carriers (id : RefId) (tree : Mounted) : List MountedElement :=
  tree.elements.filter fun node => node.props.ref? = some id

mutual
theorem elementsAt_snd (site : Site) (tree : Mounted) :
    (tree.elementsAt site).map Prod.snd = tree.elements := by
  cases tree with
  | empty | text => rfl
  | element node children =>
      simp only [elementsAt, elements, List.map_cons, childElementsAt_snd]
  | component identity child => exact elementsAt_snd _ child

theorem childElementsAt_snd (site : Site) (trees : List Mounted) :
    (childElementsAt site trees).map Prod.snd = childElements trees := by
  cases trees with
  | nil => rfl
  | cons tree rest =>
      simp only [childElementsAt, childElements, List.map_append, elementsAt_snd,
        childElementsAt_snd]
end

mutual
theorem refs_eq_flatMap (tree : Mounted) :
    tree.refs = tree.elements.flatMap fun node => attachment node.props.ref? node.handle := by
  cases tree with
  | empty | text => rfl
  | element node children =>
      rw [refs, elements, List.flatMap_cons, childRefs_eq_flatMap_elements children]
  | component identity child => exact refs_eq_flatMap child

theorem childRefs_eq_flatMap_elements (trees : List Mounted) :
    childRefs trees =
      (childElements trees).flatMap fun node => attachment node.props.ref? node.handle := by
  cases trees with
  | nil => rfl
  | cons tree rest =>
      rw [childRefs, childElements, List.flatMap_append, refs_eq_flatMap tree,
        childRefs_eq_flatMap_elements rest]
end

theorem handlesIn_refs (id : RefId) (tree : Mounted) :
    id.handlesIn tree.refs = (tree.carriers id).map MountedElement.handle := by
  rw [refs_eq_flatMap, carriers]
  induction tree.elements with
  | nil => rfl
  | cons node rest ih =>
      rw [List.flatMap_cons, RefId.handlesIn_append, ih, List.filter_cons]
      cases given : node.props.ref? with
      | none => rfl
      | some other =>
          by_cases same : other = id
          · simp [same, attachment, RefId.handlesIn]
          · simp [same, attachment, RefId.handlesIn]

/-! ## Positions are distinct -/

mutual
/-- No two elements of a tree have the same position. -/
theorem nodup_paths {site : Site} {tree : Mounted} (placed : tree.Placed site)
    (distinct : tree.Distinct) :
    ((tree.elementsAt site).map fun entry => entry.1.path).Nodup := by
  cases tree with
  | empty | text => exact List.nodup_nil
  | element node children =>
      rw [elementsAt, List.map_cons, List.nodup_cons]
      refine ⟨fun among => ?_, nodup_childPaths placed.2 distinct.1 distinct.2⟩
      -- Below the element every position has further indices.
      obtain ⟨entry, inside, same⟩ := List.mem_map.mp among
      obtain ⟨index, rest, -, leads, -⟩ :=
        findChild?_of_mem_childElementsAt placed.2 distinct.1 distinct.2 inside
      rw [leads] at same
      simpa [Path.descend] using congrArg Path.segments same
  | component identity child =>
      rw [elementsAt, ← site_of_placed placed]
      have inside : child.Distinct := distinct
      exact nodup_paths placed.2.2.2 inside

theorem nodup_childPaths {site : Site} {trees : List Mounted} (placed : PlacedChildren site trees)
    (apart : ((trees.map key).filterMap id).Nodup) (distinct : DistinctChildren trees) :
    ((childElementsAt site trees).map fun entry => entry.1.path).Nodup := by
  cases trees with
  | nil => exact List.nodup_nil
  | cons tree others =>
      obtain ⟨⟨index, here⟩, there⟩ := placed
      obtain ⟨rest, other⟩ := nodup_keys_cons apart
      rw [childElementsAt, List.map_append, (below_of_placed here).1]
      refine (nodup_paths here distinct.1).append (nodup_childPaths there rest distinct.2) ?_
      intro path first later
      obtain ⟨one, inFirst, rfl⟩ := List.mem_map.mp first
      obtain ⟨two, inLater, same⟩ := List.mem_map.mp later
      have keyed : tree.key = some index := here.key_of_elementAt inFirst
      obtain ⟨segments, leads, -⟩ := find?_of_mem_elementsAt here distinct.1 inFirst
      obtain ⟨next, below, isKey, leadsToo, -⟩ :=
        findChild?_of_mem_childElementsAt there rest distinct.2 inLater
      have differs : index ≠ next := by
        rintro rfl
        exact other index keyed isKey
      rw [leads, leadsToo] at same
      exact ListenerId.ne_descend_child differs below segments same
end

theorem nodup_refs {site : Site} {tree : Mounted} (placed : tree.Placed site)
    (faithful : tree.Faithful site) (distinct : tree.Distinct) :
    (tree.refs.map Prod.fst).Nodup := by
  have ids : tree.refs.map Prod.fst =
      (tree.elementsAt site).filterMap fun entry => entry.2.props.ref? := by
    rw [refs_eq_flatMap, ← elementsAt_snd site, List.map_flatMap, List.flatMap_map,
      List.filterMap_eq_flatMap_toList]
    simp only [attachment_fst]
  rw [ids]
  refine List.pairwise_filterMap.mpr ((List.pairwise_map.mp (nodup_paths placed distinct)).imp_of_mem
    fun first second differ id given other also same => differ ?_)
  rw [← ((faithful.elements _ first).ref id given).2, same,
    ((faithful.elements _ second).ref other also).2]

/-! ## Changes of elements -/

section MapNodes

variable {change : MountedElement → MountedElement}

mutual
theorem distinct_mapNodes (keeps : KeepsPlace change) {tree : Mounted} (distinct : tree.Distinct) :
    (mapNodes change tree).Distinct := by
  cases tree with
  | empty | text => trivial
  | element node children =>
      obtain ⟨keys, inner⟩ := distinct_mapChildren keeps distinct.2
      refine ⟨?_, inner⟩
      rw [keys]
      exact distinct.1
  | component identity child =>
      have inside : child.Distinct := distinct
      have inner : (mapNodes change child).Distinct := distinct_mapNodes keeps inside
      exact inner

theorem distinct_mapChildren (keeps : KeepsPlace change) {trees : List Mounted}
    (distinct : DistinctChildren trees) : (mapChildren change trees).map key = trees.map key ∧
      DistinctChildren (mapChildren change trees) := by
  cases trees with
  | nil => exact ⟨rfl, trivial⟩
  | cons tree rest =>
      obtain ⟨keys, inner⟩ := distinct_mapChildren keeps distinct.2
      refine ⟨?_, distinct_mapNodes keeps distinct.1, inner⟩
      rw [mapChildren, List.map_cons, List.map_cons, key_mapNodes keeps, keys]
end

end MapNodes

end Mounted

end RemoteView
