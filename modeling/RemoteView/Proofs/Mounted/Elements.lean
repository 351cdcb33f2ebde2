import RemoteView.Proofs.Mounted.Places
import RemoteView.Proofs.Spine.Elements

/-! # Elements at their positions

Where siblings can be told apart, following child indices leads to every element of a tree. A spine
that is mounted has all its elements there, and each listener does what it declares, as long as what
the contents of the components declare counts in their own contexts.
-/

namespace RemoteView

/-- Where a spine is rendered, its listeners do what they declare. -/
def Host.Hears (site : Site) (spine : Spine) (host : Host) : Prop :=
  ∀ segments fid declared, spine.listenerAt? fid segments = some declared →
    host.listener? ⟨site.context, site.path.descend segments, fid⟩ = some declared.behaviour

theorem Host.Hears.child {host : Host} {site : Site} {tag : String}
    {children : List (UInt32 × Spine)} {attributes : List Attribute}
    (hears : host.Hears site (.element tag children attributes))
    (distinct : (children.map Prod.fst).Nodup) {index : UInt32} {child : Spine}
    (among : (index, child) ∈ children) : host.Hears (site.child index) child := by
  intro segments fid declared found
  have below := hears (index :: segments) fid declared
    ((Spine.childListenerAt?_of_mem distinct among fid segments).trans found)
  rw [← Path.descend_child] at below
  exact below

/-- An element of a spine is at a place, and its listeners do what they declare. -/
structure StandsAt (host : Host) (entry : Path × String × List Attribute) (place : Site)
    (node : MountedElement) : Prop where
  path : place.path = entry.1
  rendered : node = Mounted.rendered place entry.2.1 entry.2.2 node.handle
  does : ∀ fid declared, Attribute.listenerFor? fid entry.2.2 = some declared →
    host.listener? ⟨place.context, place.path, fid⟩ = some declared.behaviour

namespace Mounted

/-! ## Finding elements -/

theorem Placed.key_of_elementAt {site other : Site} {tree : Mounted} (placed : tree.Placed site)
    {entry : Site × MountedElement} (among : entry ∈ tree.elementsAt other) :
    tree.key = site.key := by
  cases tree with
  | empty | text => cases among
  | element node children => exact placed.1
  | component identity child => exact placed.2.2.1

theorem nodup_keys_cons {tree : Mounted} {others : List Mounted}
    (apart : (((tree :: others).map key).filterMap id).Nodup) :
    ((others.map key).filterMap id).Nodup ∧
      ∀ index, tree.key = some index → index ∉ (others.map key).filterMap id := by
  rw [List.map_cons, List.filterMap_cons] at apart
  cases keyed : tree.key with
  | none =>
      rw [keyed] at apart
      exact ⟨apart, fun index found => by cases found⟩
  | some own =>
      rw [keyed] at apart
      obtain ⟨new, rest⟩ := List.nodup_cons.mp apart
      refine ⟨rest, fun index found => ?_⟩
      rwa [← Option.some.inj found]

mutual
/-- Following the child indices to the place of an element leads to it. -/
theorem find?_of_mem_elementsAt {site : Site} {tree : Mounted} (placed : tree.Placed site)
    (distinct : tree.Distinct) {entry : Site × MountedElement}
    (among : entry ∈ tree.elementsAt site) :
    ∃ segments, entry.1.path = site.path.descend segments ∧
      tree.find? segments = some entry.2 := by
  cases tree with
  | empty | text => cases among
  | element node children =>
      rcases List.mem_cons.mp among with rfl | inside
      · exact ⟨[], by simp [Path.descend], rfl⟩
      · obtain ⟨index, rest, -, leads, found⟩ :=
          findChild?_of_mem_childElementsAt placed.2 distinct.1 distinct.2 inside
        exact ⟨index :: rest, leads, found⟩
  | component identity child =>
      obtain ⟨-, path, key, inner⟩ := placed
      have same : { site with context := identity.context } = identity.site := by
        rw [Instance.site, path, key]
      have inside : entry ∈ child.elementsAt identity.site := by
        rw [← same]
        exact among
      obtain ⟨segments, leads, found⟩ := find?_of_mem_elementsAt inner distinct inside
      refine ⟨segments, ?_, found⟩
      rw [leads, ← same]

theorem findChild?_of_mem_childElementsAt {site : Site} {trees : List Mounted}
    (placed : PlacedChildren site trees) (apart : ((trees.map key).filterMap id).Nodup)
    (distinct : DistinctChildren trees) {entry : Site × MountedElement}
    (among : entry ∈ childElementsAt site trees) :
    ∃ index rest, index ∈ (trees.map key).filterMap id ∧
      entry.1.path = site.path.descend (index :: rest) ∧
      findChild? index rest trees = some entry.2 := by
  cases trees with
  | nil => cases among
  | cons tree others =>
      obtain ⟨⟨index, here⟩, there⟩ := placed
      rcases List.mem_append.mp among with first | later
      · have keyed : tree.key = some index := here.key_of_elementAt first
        rw [keyed] at first
        obtain ⟨rest, leads, found⟩ := find?_of_mem_elementsAt here distinct.1 first
        refine ⟨index, rest, by simp [keyed], ?_, ?_⟩
        · rw [leads]
          exact Path.descend_child site.path index rest
        · rw [findChild?, if_pos keyed, found]
      · obtain ⟨rest, new⟩ := nodup_keys_cons apart
        obtain ⟨other, segments, isKey, leads, found⟩ :=
          findChild?_of_mem_childElementsAt there rest distinct.2 later
        have differs : tree.key ≠ some other := fun keyed => new other keyed isKey
        refine ⟨other, segments, ?_, leads, ?_⟩
        · rw [List.map_cons, List.filterMap_cons]
          split
          · exact isKey
          · exact List.mem_cons_of_mem _ isKey
        · rw [findChild?, if_neg differs, found]
end

/-! ## Mounting elements -/

theorem key_mount (site : Site) (spine : Spine) (supply : Supply) :
    (mount site spine supply).value.key = spine.keyAt site.key :=
  (shows_mount site spine supply).key_eq

theorem keyAt_of_element {path : Path} {spine : Spine} {entry : Path × String × List Attribute}
    (among : entry ∈ spine.elements path) (key : Option UInt32) : spine.keyAt key = key := by
  cases spine with
  | empty | text => cases among
  | element | component => rfl

/-- What is mounted has every element of its spine, and each does what it declares. -/
theorem mount_stands (host : Host) :
    MountInduction
      (fun site spine _ outcome => spine.Distinct → host.Hears site spine →
        (∀ identity payload, .instantiate identity payload ∈ outcome.steps →
          host.Hears identity.site payload.content) →
        ∀ entry ∈ spine.elements site.path, ∃ place node,
          (place, node) ∈ outcome.value.elementsAt site ∧ StandsAt host entry place node)
      (fun site children _ outcome => Spine.DistinctChildren children →
        (∀ index child, (index, child) ∈ children → host.Hears (site.child index) child) →
        (∀ identity payload, .instantiate identity payload ∈ outcome.steps →
          host.Hears identity.site payload.content) →
        ∀ entry ∈ Spine.childElements site.path children, ∃ place node,
          (place, node) ∈ childElementsAt site outcome.value ∧ StandsAt host entry place node) where
  empty _ _ := fun _ _ _ _ among => by cases among
  text _ _ _ := fun _ _ _ _ among => by cases among
  element site tag children attributes supply inner := by
    intro distinct hears contents entry among
    rcases List.mem_cons.mp among with rfl | inside
    · refine ⟨site, _, List.mem_cons_self, rfl, rfl, fun fid declared found => ?_⟩
      have own := hears [] fid declared found
      rwa [show site.path.descend [] = site.path by simp [Path.descend]] at own
    · obtain ⟨place, node, there, stands⟩ := inner distinct.2
        (fun index child member => hears.child distinct.1 member)
        (fun identity payload done => contents identity payload (List.mem_cons_of_mem _ done))
        entry inside
      exact ⟨place, node, List.mem_cons_of_mem _ there, stands⟩
  component site id name content behaviour supply inner := by
    intro distinct _ contents
    refine inner distinct ?_ fun identity payload done => ?_
    · exact contents _ ⟨content, behaviour⟩ List.mem_cons_self
    · exact contents identity payload (List.mem_cons_of_mem _ (List.mem_cons_of_mem _ done))
  nil _ _ := fun _ _ _ _ among => by cases among
  cons site index child rest supply first others := by
    intro distinct hears contents entry among
    rcases List.mem_append.mp among with here | there
    · obtain ⟨place, node, inside, stands⟩ := first distinct.1
        (hears index child List.mem_cons_self)
        (fun identity payload done => contents identity payload (List.mem_append_left _ done))
        entry here
      refine ⟨place, node, List.mem_append_left _ ?_, stands⟩
      rw [key_mount, keyAt_of_element here]
      exact inside
    · obtain ⟨place, node, inside, stands⟩ := others distinct.2
        (fun index child member => hears index child (List.mem_cons_of_mem _ member))
        (fun identity payload done => contents identity payload (List.mem_append_right _ done))
        entry there
      exact ⟨place, node, List.mem_append_right _ inside, stands⟩

end Mounted

end RemoteView
