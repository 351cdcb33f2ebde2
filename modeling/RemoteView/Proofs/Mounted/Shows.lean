import RemoteView.Proofs.Mounted.Matching
import RemoteView.Proofs.Mounted.Outcome

/-! # What a tree shows

A tree shows a spine at a site when it is built like the spine, with the properties, identities and
keys that belong there; only handles and the numbers of instances are free. Mounting a spine shows
it, and so does reconciling any tree that stands at the place of the site.
-/

namespace RemoteView

namespace Mounted

mutual
/-- Every node of a tree stands where a tree at the site has it: instances have the session and the
    path, elements and instances the key. -/
def Placed (site : Site) : Mounted → Prop
  | .empty => True
  | .text _ => True
  | .element node children => node.key = site.key ∧ PlacedChildren site children
  | .component identity child =>
      identity.session = site.context.session ∧ identity.path = site.path ∧
        identity.key = site.key ∧ Placed identity.site child

/-- Every tree stands where some child of the site does. -/
def PlacedChildren (site : Site) : List Mounted → Prop
  | [] => True
  | tree :: rest => (∃ index, Placed (site.child index) tree) ∧ PlacedChildren site rest
end

mutual
/-- A tree is what a spine looks like at a site. -/
def Shows (site : Site) : Spine → Mounted → Prop
  | .empty, .empty => True
  | .text content, .text shown => shown = content
  | .element tag children attributes, .element node trees =>
      node = rendered site tag attributes node.handle ∧ ShowsChildren site children trees
  | .component id _ content _, .component identity child =>
      identity.session = site.context.session ∧ identity.component = id ∧
        identity.path = site.path ∧ identity.key = site.key ∧ Shows identity.site content child
  | _, _ => False

/-- Trees are what the children of an element look like, one by one. -/
def ShowsChildren (site : Site) : List (UInt32 × Spine) → List Mounted → Prop
  | [], [] => True
  | (index, child) :: rest, tree :: trees =>
      Shows (site.child index) child tree ∧ ShowsChildren site rest trees
  | _, _ => False
end

/-- What holds of every kind of node that shows a spine, given that it holds of what is inside. -/
structure ShowsInduction (P : Site → Spine → Mounted → Prop)
    (Q : Site → List (UInt32 × Spine) → List Mounted → Prop) : Prop where
  empty : ∀ site, P site .empty .empty
  text : ∀ site content, P site (.text content) (.text content)
  element : ∀ site tag children attributes handle trees, ShowsChildren site children trees →
    Q site children trees →
      P site (.element tag children attributes)
        (.element (rendered site tag attributes handle) trees)
  component : ∀ site (identity : Instance) name content behaviour child,
    identity.session = site.context.session → identity.path = site.path →
    identity.key = site.key → Shows identity.site content child →
    P identity.site content child →
      P site (.component identity.component name content behaviour) (.component identity child)
  nil : ∀ site, Q site [] []
  cons : ∀ site index child rest tree trees, Shows (site.child index) child tree →
    ShowsChildren site rest trees → P (site.child index) child tree → Q site rest trees →
      Q site ((index, child) :: rest) (tree :: trees)

namespace ShowsInduction

variable {P : Site → Spine → Mounted → Prop}
  {Q : Site → List (UInt32 × Spine) → List Mounted → Prop}

mutual
theorem tree (cases : ShowsInduction P Q) {site : Site} {spine : Spine} {tree : Mounted}
    (shows : Shows site spine tree) : P site spine tree := by
  match spine, tree, shows with
  | .empty, .empty, _ => exact cases.empty site
  | .text content, .text _, rfl => exact cases.text site content
  | .element tag children attributes, .element node trees, ⟨same, inner⟩ =>
      rw [same]
      exact cases.element site tag children attributes node.handle trees inner
        (cases.children inner)
  | .component _ name content behaviour, .component identity child,
      ⟨session, rfl, path, key, inner⟩ =>
      exact cases.component site identity name content behaviour child session path key inner
        (cases.tree inner)

theorem children (cases : ShowsInduction P Q) {site : Site} {children : List (UInt32 × Spine)}
    {trees : List Mounted} (shows : ShowsChildren site children trees) :
    Q site children trees := by
  match children, trees, shows with
  | [], [], _ => exact cases.nil site
  | (index, child) :: rest, tree :: trees, ⟨here, there⟩ =>
      exact cases.cons site index child rest tree trees here there (cases.tree here)
        (cases.children there)
end

end ShowsInduction

theorem placedChildren_iff {site : Site} {trees : List Mounted} :
    PlacedChildren site trees ↔ ∀ tree ∈ trees, ∃ index, Placed (site.child index) tree := by
  induction trees with
  | nil => simp [PlacedChildren]
  | cons tree rest ih => simp [PlacedChildren, ih]

mutual
theorem Placed.session_eq {site : Site} {tree : Mounted} (placed : tree.Placed site) :
    ∀ identity ∈ tree.instances, identity.session = site.context.session := by
  cases tree with
  | empty | text => simp [instances]
  | element node children => exact PlacedChildren.session_eq placed.2
  | component outer child =>
      intro identity member
      rcases List.mem_cons.mp member with rfl | inside
      · exact placed.1
      · exact (Placed.session_eq placed.2.2.2 identity inside).trans placed.1

theorem PlacedChildren.session_eq {site : Site} {trees : List Mounted}
    (placed : PlacedChildren site trees) :
    ∀ identity ∈ childInstances trees, identity.session = site.context.session := by
  cases trees with
  | nil => simp [childInstances]
  | cons tree rest =>
      intro identity member
      obtain ⟨⟨index, here⟩, there⟩ := placed
      rcases List.mem_append.mp member with first | later
      · exact Placed.session_eq here identity first
      · exact PlacedChildren.session_eq there identity later
end

mutual
theorem Shows.placed {site : Site} {spine : Spine} {tree : Mounted} (shows : Shows site spine tree) :
    tree.Placed site := by
  cases tree with
  | empty | text => trivial
  | element node trees =>
      cases spine with
      | element tag children attributes =>
          obtain ⟨same, inner⟩ := shows
          exact ⟨by rw [same]; rfl, ShowsChildren.placed inner⟩
      | empty | text | component => exact shows.elim
  | component identity child =>
      cases spine with
      | component id name content behaviour =>
          obtain ⟨session, -, path, key, inner⟩ := shows
          exact ⟨session, path, key, Shows.placed inner⟩
      | empty | text | element => exact shows.elim

theorem ShowsChildren.placed {site : Site} {children : List (UInt32 × Spine)}
    {trees : List Mounted} (shows : ShowsChildren site children trees) :
    PlacedChildren site trees := by
  cases trees with
  | nil => trivial
  | cons tree trees =>
      cases children with
      | nil => exact shows.elim
      | cons entry rest => exact ⟨⟨entry.1, Shows.placed shows.1⟩, ShowsChildren.placed shows.2⟩
end

theorem Shows.of_element {site : Site} {spine : Spine} {node : MountedElement}
    {trees : List Mounted} (shows : Shows site spine (.element node trees)) :
    ∃ children, ShowsChildren site children trees := by
  cases spine with
  | element tag children attributes => exact ⟨children, shows.2⟩
  | empty | text | component => exact shows.elim

theorem Shows.of_component {site : Site} {spine : Spine} {identity : Instance} {child : Mounted}
    (shows : Shows site spine (.component identity child)) :
    ∃ content, Shows identity.site content child := by
  cases spine with
  | component id name content behaviour => exact ⟨content, shows.2.2.2.2⟩
  | empty | text | element => exact shows.elim

theorem ShowsChildren.of_cons {site : Site} {children : List (UInt32 × Spine)} {tree : Mounted}
    {rest : List Mounted} (shows : ShowsChildren site children (tree :: rest)) :
    ∃ index child others, Shows (site.child index) child tree ∧ ShowsChildren site others rest := by
  cases children with
  | nil => exact shows.elim
  | cons entry others => exact ⟨entry.1, entry.2, others, shows.1, shows.2⟩

/-! ## Mounting and reconciling -/

theorem mount_shows :
    MountInduction (fun site spine _ outcome => Shows site spine outcome.value)
      (fun site children _ outcome => ShowsChildren site children outcome.value) where
  empty _ _ := trivial
  text _ _ _ := rfl
  element _ _ _ _ _ inner := ⟨rfl, inner⟩
  component _ _ _ _ _ _ inner := ⟨rfl, rfl, rfl, rfl, inner⟩
  nil _ _ := trivial
  cons _ _ _ _ _ first others := ⟨first, others⟩

theorem shows_mount (site : Site) (spine : Spine) (supply : Supply) :
    Shows site spine (mount site spine supply).value :=
  mount_shows.mount site spine supply

/-- Every old tree has the key of the child that takes it over. -/
def TakenOver (matched : List (Option Mounted)) (children : List (UInt32 × Spine)) : Prop :=
  List.Forall₂ (fun matched entry => ∀ old, matched = some old →
    old.key = entry.2.keyAt (some entry.1)) matched children

theorem takenOver_assign (old : List Mounted) (children : List (UInt32 × Spine)) :
    TakenOver (Matching.assign key old (childKeys children)).1 children := by
  refine List.forall₂_iff_get.mpr ⟨by simp [childKeys], ?_⟩
  intro i inMatched inChildren tree found
  have served : (Matching.assign key old (childKeys children)).1[i]? = some (some tree) := by
    rw [List.getElem?_eq_getElem inMatched]
    exact congrArg some found
  have asked := (Matching.key_of_assign served).1
  simp only [childKeys, List.getElem?_map, List.getElem?_eq_getElem inChildren, Option.map_some,
    Option.some.injEq] at asked
  exact asked.symm

/-- A child takes over a tree that stands at its place, in whatever context. -/
theorem placed_of_key {site : Site} {context : ContextId} {old : Mounted} {index other : UInt32}
    {child : Spine} (same : old.key = child.keyAt (some index))
    (placed : old.Placed ({ site with context := context }.child other)) :
    old.Placed { site.child index with context := context } := by
  cases old with
  | empty | text => trivial
  | element node children =>
      obtain rfl : index = other := by
        have keyed := placed.1.symm.trans same
        cases child <;> simp_all [Spine.keyAt, Site.child]
      exact placed
  | component identity inner =>
      obtain rfl : index = other := by
        have keyed := placed.2.2.1.symm.trans same
        cases child <;> simp_all [Spine.keyAt, Site.child]
      exact placed

theorem reconcile_shows :
    ReconcileInduction
      (fun site old spine _ outcome => ∀ context, old.Placed { site with context := context } →
        Shows site spine outcome.value)
      (fun site matched children _ outcome => TakenOver matched children →
        ∀ context, PlacedChildren { site with context := context } (matched.filterMap id) →
          ShowsChildren site children outcome.value) where
  replace site _ spine supply _ _ _ := shows_mount site spine supply
  empty _ _ _ _ := trivial
  text _ _ _ _ _ _ := rfl
  element site node oldChildren children attributes supply inner := by
    intro context placed
    refine ⟨rfl, inner (takenOver_assign oldChildren children) context ?_⟩
    rw [placedChildren_iff]
    intro tree member
    apply placedChildren_iff.mp placed.2 tree
    exact (Matching.perm_assign key oldChildren (childKeys children)).mem_iff.mp
      (List.mem_append_left _ member)
  component site identity old name content behaviour supply same inner := by
    intro context placed
    obtain ⟨-, path, key, inside⟩ := placed
    exact ⟨same, rfl, path, key, inner identity.context inside⟩
  nil _ _ _ := fun _ _ _ => trivial
  kept site old matched index child rest supply first others := by
    intro taken context placed
    obtain ⟨same, later⟩ := List.forall₂_cons.mp taken
    obtain ⟨⟨other, here⟩, there⟩ := placed
    exact ⟨first context (placed_of_key (same old rfl) here), others later context there⟩
  new site matched index child rest supply none others := by
    intro taken context placed
    refine ⟨shows_mount (site.child index) child supply, ?_⟩
    cases matched with
    | nil => cases taken
    | cons head tail =>
        obtain rfl : head = Option.none := by simpa using none
        exact others (List.forall₂_cons.mp taken).2 context placed

/-- Reconciling shows the spine, when the old tree stands at the place of the site. Its session may
    be another one. -/
theorem shows_reconcile (site : Site) {context : ContextId} {old : Mounted}
    (placed : old.Placed { site with context := context }) (spine : Spine) (supply : Supply) :
    Shows site spine (reconcile site old spine supply).value :=
  reconcile_shows.reconcile site old spine supply context placed

theorem reconcileEach_shows (site : Site) :
    EachInduction site fun pairs _ outcome =>
      (∀ pair ∈ pairs, ∀ old, pair.1 = some old →
        ∃ context, old.Placed { site with context := context }) →
      List.Forall₂ (Shows site) (pairs.map Prod.snd) outcome.value where
  nil _ _ := .nil
  new spine rest supply others placed :=
    .cons (shows_mount site spine supply)
      (others fun pair member => placed pair (List.mem_cons_of_mem _ member))
  kept old spine rest supply others placed := by
    obtain ⟨context, here⟩ := placed _ List.mem_cons_self old rfl
    exact .cons (shows_reconcile site here spine supply)
      (others fun pair member => placed pair (List.mem_cons_of_mem _ member))

theorem shows_reconcileAll (site : Site) {old : List Mounted}
    (placed : ∀ tree ∈ old, ∃ context, tree.Placed { site with context := context })
    (spines : List Spine) (supply : Supply) :
    List.Forall₂ (Shows site) spines (reconcileAll site old spines supply).value := by
  rw [reconcileAll_apply]
  have each := (reconcileEach_shows site).each
    ((Matching.assign key old (spines.map (Spine.keyAt site.key))).1.zip spines) supply (by
      intro pair member tree found
      apply placed tree
      have given := (List.of_mem_zip member).1
      exact (Matching.perm_assign key old (spines.map (Spine.keyAt site.key))).mem_iff.mp
        (List.mem_append_left _ (List.mem_filterMap.mpr ⟨_, given, found⟩)))
  rwa [List.map_snd_zip (by simp)] at each

theorem rerender_placed (id : InstanceId) (content : Spine) :
    RerenderInduction id content
      (fun tree _ outcome => ∀ {site : Site}, tree.Placed site → outcome.value.Placed site)
      (fun trees _ outcome =>
        ∀ {site : Site}, PlacedChildren site trees → PlacedChildren site outcome.value) where
  empty _ _ _ := trivial
  text _ _ _ _ := trivial
  element _ _ _ inner _ placed := ⟨placed.1, inner placed.2⟩
  here identity child supply _ _ placed := by
    obtain ⟨session, path, key, inside⟩ := placed
    exact ⟨session, path, key, (shows_reconcile identity.site inside content supply).placed⟩
  inside _ _ _ _ inner _ placed := by
    obtain ⟨session, path, key, inside⟩ := placed
    exact ⟨session, path, key, inner inside⟩
  nil _ _ _ := trivial
  first _ _ _ _ inner _ placed := by
    obtain ⟨⟨index, here⟩, there⟩ := placed
    exact ⟨⟨index, inner here⟩, there⟩
  later _ _ _ _ inner _ placed := ⟨placed.1, inner placed.2⟩

theorem placed_of_forall₂ {site : Site} {spines : List Spine} {trees : List Mounted}
    (shows : List.Forall₂ (Shows site) spines trees) : ∀ tree ∈ trees, tree.Placed site := by
  induction shows with
  | nil => simp
  | cons here _ ih => exact List.forall_mem_cons.mpr ⟨here.placed, ih⟩

/-! ## Changes that leave the tree standing -/

mutual
/-- The tree with every element changed. -/
def mapNodes (change : MountedElement → MountedElement) : Mounted → Mounted
  | .empty => .empty
  | .text content => .text content
  | .element node children => .element (change node) (mapChildren change children)
  | .component identity child => .component identity (mapNodes change child)

/-- The trees with every element changed. -/
def mapChildren (change : MountedElement → MountedElement) : List Mounted → List Mounted
  | [] => []
  | tree :: rest => mapNodes change tree :: mapChildren change rest
end

mutual
theorem modifyInput_eq (handle : ObjectId) (change : ControlledInput → ControlledInput)
    (tree : Mounted) : modifyInput handle change tree = mapNodes (fun node =>
      if node.handle = handle then { node with input := node.input.map change } else node) tree := by
  cases tree with
  | empty | text => rfl
  | element node children => simp only [modifyInput, mapNodes, modifyInputs_eq handle change children]
  | component identity child => simp only [modifyInput, mapNodes, modifyInput_eq handle change child]

theorem modifyInputs_eq (handle : ObjectId) (change : ControlledInput → ControlledInput)
    (trees : List Mounted) : modifyInputs handle change trees = mapChildren (fun node =>
      if node.handle = handle then { node with input := node.input.map change } else node)
        trees := by
  cases trees with
  | nil => rfl
  | cons tree rest =>
      simp only [modifyInputs, mapChildren, modifyInput_eq handle change tree,
        modifyInputs_eq handle change rest]
end

mutual
theorem refresh_eq (tree : Mounted) : refresh tree =
    mapNodes (fun node => if isStale node then withInputValue node else node) tree := by
  cases tree with
  | empty | text => rfl
  | element node children => simp only [refresh, mapNodes, refreshChildren_eq children]
  | component identity child => simp only [refresh, mapNodes, refresh_eq child]

theorem refreshChildren_eq (trees : List Mounted) : refreshChildren trees =
    mapChildren (fun node => if isStale node then withInputValue node else node) trees := by
  cases trees with
  | nil => rfl
  | cons tree rest =>
      simp only [refreshChildren, mapChildren, refresh_eq tree, refreshChildren_eq rest]
end

/-- A change of elements that leaves them where they are, with their handles and refs, and adds no
    callback. -/
structure KeepsPlace (change : MountedElement → MountedElement) : Prop where
  tag : ∀ node, (change node).tag = node.tag
  key : ∀ node, (change node).key = node.key
  handle : ∀ node, (change node).handle = node.handle
  ref : ∀ node, (change node).props.ref? = node.props.ref?
  listener : ∀ node name callback, (change node).props.listener? name = some callback →
    node.props.listener? name = some callback
  forwardTo : ∀ node, (change node).input.bind ControlledInput.forwardTo =
    node.input.bind ControlledInput.forwardTo

theorem keepsPlace_modifyInput (handle : ObjectId) {change : ControlledInput → ControlledInput}
    (same : ∀ input, (change input).forwardTo = input.forwardTo) :
    KeepsPlace fun node =>
      if node.handle = handle then { node with input := node.input.map change } else node where
  tag node := by split <;> rfl
  key node := by split <;> rfl
  handle node := by split <;> rfl
  ref node := by split <;> rfl
  listener node name callback found := by
    split at found <;> exact found
  forwardTo node := by
    split
    · cases node.input with
      | none => rfl
      | some input => exact same input
    · rfl

theorem input_withInputValue (node : MountedElement) : (withInputValue node).input = node.input := by
  unfold withInputValue
  split <;> rfl

theorem keepsPlace_withInputValue :
    KeepsPlace fun node => if isStale node then withInputValue node else node where
  tag node := by
    unfold withInputValue
    cases node.input <;> split <;> rfl
  key node := by
    unfold withInputValue
    cases node.input <;> split <;> rfl
  handle node := by
    unfold withInputValue
    cases node.input <;> split <;> rfl
  ref node := by
    unfold withInputValue
    cases node.input with
    | none => split <;> rfl
    | some input =>
        split
        · exact congrArg (·.bind Property.ref?)
            (Assoc.get?_insert_of_ne (by decide : refProperty ≠ valueProperty) _ _)
        · rfl
  listener node name callback found := by
    unfold withInputValue at found
    cases input : node.input with
    | none => rwa [input, ite_self] at found
    | some state =>
        rw [input] at found
        split at found
        · -- The value property holds no callback.
          simp only [Props.listener?, Assoc.get?_insert] at found
          split at found
          · cases found
          · exact found
        · exact found
  forwardTo node := by
    split
    · rw [input_withInputValue]
    · rfl

section KeepsPlace

variable {change : MountedElement → MountedElement}

mutual
@[simp] theorem instances_mapNodes (tree : Mounted) :
    (mapNodes change tree).instances = tree.instances := by
  cases tree with
  | empty | text => rfl
  | element node children => simp only [mapNodes, instances, childInstances_mapChildren children]
  | component identity child => simp only [mapNodes, instances, instances_mapNodes child]

@[simp] theorem childInstances_mapChildren (trees : List Mounted) :
    childInstances (mapChildren change trees) = childInstances trees := by
  cases trees with
  | nil => rfl
  | cons tree rest =>
      simp only [mapChildren, childInstances, instances_mapNodes tree,
        childInstances_mapChildren rest]
end

mutual
theorem placed_mapNodes (keeps : KeepsPlace change) {site : Site} {tree : Mounted}
    (placed : tree.Placed site) : (mapNodes change tree).Placed site := by
  cases tree with
  | empty | text => trivial
  | element node children =>
      exact ⟨(keeps.key node).trans placed.1, placed_mapChildren keeps placed.2⟩
  | component identity child =>
      obtain ⟨session, path, key, inside⟩ := placed
      exact ⟨session, path, key, placed_mapNodes keeps inside⟩

theorem placed_mapChildren (keeps : KeepsPlace change) {site : Site} {trees : List Mounted}
    (placed : PlacedChildren site trees) : PlacedChildren site (mapChildren change trees) := by
  cases trees with
  | nil => trivial
  | cons tree rest =>
      obtain ⟨⟨index, here⟩, there⟩ := placed
      exact ⟨⟨index, placed_mapNodes keeps here⟩, placed_mapChildren keeps there⟩
end

end KeepsPlace

end Mounted

end RemoteView
