import RemoteView.Proofs.Mounted.Apart

/-! # The component with a number

In trees whose instances have different numbers every instance is in one component. Rendering its
content again finds this component and reconciles what is in it.
-/

namespace RemoteView.Mounted

mutual
theorem within_eq_nil {id : InstanceId} {tree : Mounted}
    (absent : id ∉ tree.instances.map Instance.id) : tree.within id = [] := by
  cases tree with
  | empty | text => rfl
  | element node children =>
      have inside : id ∉ (childInstances children).map Instance.id := absent
      exact allWithin_eq_nil inside
  | component identity child =>
      rw [instances, List.map_cons, List.mem_cons, not_or] at absent
      rw [within, if_neg (Ne.symm absent.1)]
      exact within_eq_nil absent.2

theorem allWithin_eq_nil {id : InstanceId} {trees : List Mounted}
    (absent : id ∉ (childInstances trees).map Instance.id) : allWithin id trees = [] := by
  cases trees with
  | nil => rfl
  | cons tree rest =>
      rw [childInstances, List.map_append, List.mem_append, not_or] at absent
      rw [allWithin, within_eq_nil absent.1, allWithin_eq_nil absent.2, List.append_nil]
end

/-- A component with this identity is the only one with its number in some trees, and in others as
    well, and there it is what it was, reconciled with the content. -/
structure FoundWithin (identity : Instance) (content : Spine) (supply : Supply)
    (found again : List Mounted) (child : Mounted) : Prop where
  alone : found = [.component identity child]
  rerendered : again = [.component identity (reconcile identity.site child content supply).value]

theorem rerender_within (id : InstanceId) (content : Spine) :
    RerenderInduction id content
      (fun tree supply outcome => (tree.instances.map Instance.id).Nodup →
        ∀ identity ∈ tree.instances, identity.id = id →
          ∃ child, FoundWithin identity content supply (tree.within id) (outcome.value.within id)
            child)
      (fun trees supply outcome => ((childInstances trees).map Instance.id).Nodup →
        ∀ identity ∈ childInstances trees, identity.id = id →
          ∃ child, FoundWithin identity content supply (allWithin id trees)
            (allWithin id outcome.value) child) where
  empty _ _ _ member := by simp [instances] at member
  text _ _ _ _ member := by simp [instances] at member
  element _ _ _ inner := inner
  here outer inner supply here distinct identity member named := by
    rw [instances, List.map_cons, List.nodup_cons] at distinct
    obtain rfl : identity = outer := by
      rcases List.mem_cons.mp member with same | inside
      · exact same
      · exact absurd (List.mem_map.mpr ⟨identity, inside, named.trans here.symm⟩) distinct.1
    exact ⟨inner, by rw [within, if_pos here], by rw [within, if_pos here]⟩
  inside outer inner supply other rerendered distinct identity member named := by
    rw [instances, List.map_cons, List.nodup_cons] at distinct
    have inside : identity ∈ inner.instances := by
      rcases List.mem_cons.mp member with same | inside
      · exact absurd (same ▸ named) other
      · exact inside
    simp only [within, if_neg other]
    exact rerendered distinct.2 identity inside named
  nil _ _ _ member := by simp [childInstances] at member
  first tree rest supply held inner distinct identity member named := by
    rw [childInstances, List.map_append] at distinct
    have later := List.disjoint_of_nodup_append distinct ((holds_iff id tree).mp held)
    have here : identity ∈ tree.instances := by
      apply (List.mem_append.mp member).resolve_right
      intro there
      exact later (List.mem_map.mpr ⟨identity, there, named⟩)
    simp only [allWithin, allWithin_eq_nil later, List.append_nil]
    exact inner distinct.of_append_left identity here named
  later tree rest supply absent inner distinct identity member named := by
    rw [childInstances, List.map_append] at distinct
    have first : id ∉ tree.instances.map Instance.id := fun here =>
      absent ((holds_iff id tree).mpr here)
    have there : identity ∈ childInstances rest := by
      apply (List.mem_append.mp member).resolve_left
      intro here
      exact first (List.mem_map.mpr ⟨identity, here, named⟩)
    simp only [allWithin, within_eq_nil first, List.nil_append]
    exact inner distinct.of_append_right identity there named

mutual
theorem placed_of_within {site : Site} {id : InstanceId} {tree child : Mounted}
    {identity : Instance} (placed : tree.Placed site)
    (found : .component identity child ∈ tree.within id) : child.Placed identity.site := by
  cases tree with
  | empty | text => simp [within] at found
  | element node children => exact placed_of_allWithin placed.2 found
  | component outer inner =>
      rw [within] at found
      split at found
      · obtain ⟨rfl, rfl⟩ := Mounted.component.inj (List.mem_singleton.mp found)
        exact placed.2.2.2
      · exact placed_of_within placed.2.2.2 found

theorem placed_of_allWithin {site : Site} {id : InstanceId} {trees : List Mounted}
    {child : Mounted} {identity : Instance} (placed : PlacedChildren site trees)
    (found : .component identity child ∈ allWithin id trees) : child.Placed identity.site := by
  cases trees with
  | nil => simp [allWithin] at found
  | cons tree rest =>
      obtain ⟨⟨index, first⟩, others⟩ := placed
      rcases List.mem_append.mp found with here | there
      · exact placed_of_within first here
      · exact placed_of_allWithin others there
end

theorem mem_allWithin {id : InstanceId} {trees : List Mounted} {found : Mounted} :
    found ∈ allWithin id trees ↔ ∃ tree ∈ trees, found ∈ tree.within id := by
  induction trees with
  | nil => simp [allWithin]
  | cons tree rest ih => simp [allWithin, ih]

end RemoteView.Mounted
