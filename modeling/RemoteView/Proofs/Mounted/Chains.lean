import Mathlib.Data.List.Nodup
import RemoteView.Proofs.Mounted.Shows
import RemoteView.Proofs.Mounted.Turnover

/-! # Chains to components

A chain is what one passes on the way from the root to a component: the tags and keys of elements
and the numbers of components, its own included. A tree that shows a spine has the chains of the
spine. Reconciling keeps the instances on the chains that the spine has, as long as siblings can be
told apart, and it never moves an instance to another chain.
-/

namespace RemoteView

/-- One edge on the way to a component. -/
inductive ChainStep where
  /-- From an element with a tag to the child with a key. -/
  | child (tag : String) (key : Option UInt32)
  /-- To a component with a number, or through it. -/
  | component (id : UInt64)
  deriving DecidableEq, Repr

/-- The way from the root to a component. -/
abbrev Chain := List ChainStep

namespace Spine

mutual
/-- The chains to the components of a spine, outer ones before those inside them. -/
def chains : Spine → List Chain
  | .empty => []
  | .text _ => []
  | .element tag children _ => childChains tag children
  | .component id _ content _ => [.component id] :: (chains content).map (.component id :: ·)

/-- The chains through the children of an element. -/
def childChains (tag : String) : List (UInt32 × Spine) → List Chain
  | [] => []
  | (index, child) :: rest =>
      (chains child).map (.child tag (some index) :: ·) ++ childChains tag rest
end

mutual
/-- Are the indices of siblings distinct everywhere? -/
def Distinct : Spine → Prop
  | .empty => True
  | .text _ => True
  | .element _ children _ => (children.map Prod.fst).Nodup ∧ DistinctChildren children
  | .component _ _ content _ => Distinct content

/-- Are the indices of siblings distinct everywhere inside? -/
def DistinctChildren : List (UInt32 × Spine) → Prop
  | [] => True
  | (_, child) :: rest => Distinct child ∧ DistinctChildren rest
end

mutual
/-- Whether siblings have distinct indices can be computed. -/
instance decidableDistinct : (spine : Spine) → Decidable spine.Distinct
  | .empty => inferInstanceAs (Decidable True)
  | .text _ => inferInstanceAs (Decidable True)
  | .element _ children _ =>
      have := decidableDistinctChildren children
      inferInstanceAs (Decidable (_ ∧ _))
  | .component _ _ content _ => decidableDistinct content

/-- The same for children. -/
instance decidableDistinctChildren :
    (children : List (UInt32 × Spine)) → Decidable (DistinctChildren children)
  | [] => inferInstanceAs (Decidable True)
  | (_, child) :: rest =>
      have := decidableDistinct child
      have := decidableDistinctChildren rest
      inferInstanceAs (Decidable (_ ∧ _))
end

theorem mem_childChains {tag : String} {children : List (UInt32 × Spine)} {chain : Chain} :
    chain ∈ childChains tag children ↔ ∃ index child rest, (index, child) ∈ children ∧
      chain = .child tag (some index) :: rest ∧ rest ∈ child.chains := by
  induction children with
  | nil => simp [childChains]
  | cons entry others ih =>
      obtain ⟨first, spine⟩ := entry
      simp only [childChains, List.mem_append, List.mem_map, ih, List.mem_cons, Prod.mk.injEq]
      constructor
      · rintro (⟨rest, member, rfl⟩ | ⟨index, child, rest, member, rfl, inside⟩)
        · exact ⟨first, spine, rest, .inl ⟨rfl, rfl⟩, rfl, member⟩
        · exact ⟨index, child, rest, .inr member, rfl, inside⟩
      · rintro ⟨index, child, rest, ⟨rfl, rfl⟩ | member, rfl, inside⟩
        · exact .inl ⟨rest, inside, rfl⟩
        · exact .inr ⟨index, child, rest, member, rfl, inside⟩

theorem mem_chains_component {id : UInt64} {name : String} {content : Spine}
    {behaviour : Behaviour} {chain : Chain} :
    chain ∈ (component id name content behaviour).chains ↔ chain = [.component id] ∨
      ∃ rest, chain = .component id :: rest ∧ rest ∈ content.chains := by
  simp only [chains, List.mem_cons, List.mem_map]
  refine or_congr_right ⟨?_, ?_⟩
  · rintro ⟨rest, inside, rfl⟩
    exact ⟨rest, rfl, inside⟩
  · rintro ⟨rest, rfl, inside⟩
    exact ⟨rest, inside, rfl⟩

theorem keyAt_of_chain {spine : Spine} {chain : Chain} (member : chain ∈ spine.chains)
    (key : Option UInt32) : spine.keyAt key = key := by
  cases spine with
  | empty | text => simp [chains] at member
  | element | component => rfl

theorem nodup_childKeys {children : List (UInt32 × Spine)}
    (distinct : (children.map Prod.fst).Nodup) :
    ((Mounted.childKeys children).filterMap id).Nodup := by
  have sub : ((Mounted.childKeys children).filterMap id).Sublist (children.map Prod.fst) := by
    induction children with
    | nil => simp [Mounted.childKeys]
    | cons entry rest ih =>
        have others := ih (List.nodup_cons.mp distinct).2
        obtain ⟨index, child⟩ := entry
        cases child with
        | empty | text => exact others.cons index
        | element | component => exact others.cons_cons index
  exact distinct.sublist sub

end Spine

/-- A chain that leads inside a place goes on as the content does. -/
def Chain.Follows (place : Chain) (content : Spine) (chain : Chain) : Prop :=
  ∀ rest, chain = place ++ rest → rest ≠ [] → rest ∈ content.chains

namespace Mounted

mutual
/-- The chains to the instances in a tree, outer ones before those inside them. -/
def chains : Mounted → List (Chain × Instance)
  | .empty => []
  | .text _ => []
  | .element node children => childChains node.tag children
  | .component identity child =>
      ([.component identity.component], identity) ::
        (chains child).map fun (chain, inner) => (.component identity.component :: chain, inner)

/-- The chains through the children of an element. -/
def childChains (tag : String) : List Mounted → List (Chain × Instance)
  | [] => []
  | tree :: rest =>
      ((chains tree).map fun (chain, inner) => (.child tag tree.key :: chain, inner)) ++
        childChains tag rest
end

mutual
/-- Can siblings be told apart by their keys everywhere? -/
def Distinct : Mounted → Prop
  | .empty => True
  | .text _ => True
  | .element _ children => ((children.map key).filterMap id).Nodup ∧ DistinctChildren children
  | .component _ child => Distinct child

/-- Can siblings be told apart by their keys everywhere inside? -/
def DistinctChildren : List Mounted → Prop
  | [] => True
  | tree :: rest => Distinct tree ∧ DistinctChildren rest
end

theorem mem_childChains_cons {tag : String} {tree : Mounted} {others : List Mounted}
    {chain : Chain} {identity : Instance} :
    (chain, identity) ∈ childChains tag (tree :: others) ↔
      (∃ rest, chain = .child tag tree.key :: rest ∧ (rest, identity) ∈ tree.chains) ∨
        (chain, identity) ∈ childChains tag others := by
  simp only [childChains, List.mem_append, List.mem_map, Prod.mk.injEq, Prod.exists]
  refine or_congr_left ⟨?_, ?_⟩
  · rintro ⟨rest, _, inside, rfl, rfl⟩
    exact ⟨rest, rfl, inside⟩
  · rintro ⟨rest, rfl, inside⟩
    exact ⟨rest, identity, inside, rfl, rfl⟩

theorem mem_childChains {tag : String} {trees : List Mounted} {chain : Chain}
    {identity : Instance} : (chain, identity) ∈ childChains tag trees ↔
      ∃ tree ∈ trees, ∃ rest, chain = .child tag tree.key :: rest ∧
        (rest, identity) ∈ tree.chains := by
  induction trees with
  | nil => simp [childChains]
  | cons tree others ih => rw [mem_childChains_cons, ih, List.exists_mem_cons_iff]

theorem mem_chains_component {outer : Instance} {child : Mounted} {chain : Chain}
    {identity : Instance} : (chain, identity) ∈ (component outer child).chains ↔
      (chain = [.component outer.component] ∧ identity = outer) ∨
        ∃ rest, chain = .component outer.component :: rest ∧ (rest, identity) ∈ child.chains := by
  simp only [chains, List.mem_cons, Prod.mk.injEq, List.mem_map, Prod.exists]
  refine or_congr_right ⟨?_, ?_⟩
  · rintro ⟨rest, inner, inside, rfl, rfl⟩
    exact ⟨rest, rfl, inside⟩
  · rintro ⟨rest, rfl, inside⟩
    exact ⟨rest, identity, inside, rfl, rfl⟩

theorem distinctChildren_iff {trees : List Mounted} :
    DistinctChildren trees ↔ ∀ tree ∈ trees, tree.Distinct := by
  induction trees with
  | nil => simp [DistinctChildren]
  | cons tree rest ih => simp [DistinctChildren, ih]

mutual
theorem chains_snd (tree : Mounted) : tree.chains.map Prod.snd = tree.instances := by
  cases tree with
  | empty | text => rfl
  | element node children => exact childChains_snd node.tag children
  | component identity child =>
      simp [chains, instances, Function.comp_def, ← chains_snd child]

theorem childChains_snd (tag : String) (trees : List Mounted) :
    (childChains tag trees).map Prod.snd = childInstances trees := by
  cases trees with
  | nil => rfl
  | cons tree rest =>
      simp [childChains, childInstances, Function.comp_def, ← chains_snd tree,
        ← childChains_snd tag rest]
end

theorem ne_nil_of_chain {tree : Mounted} {chain : Chain} {identity : Instance}
    (member : (chain, identity) ∈ tree.chains) : chain ≠ [] := by
  rintro rfl
  cases tree with
  | empty | text => simp [chains] at member
  | element node trees =>
      obtain ⟨_, _, _, same, _⟩ := mem_childChains.mp member
      simp at same
  | component outer child => simp [chains] at member

theorem mem_instances_of_chain {tree : Mounted} {chain : Chain} {identity : Instance}
    (member : (chain, identity) ∈ tree.chains) : identity ∈ tree.instances := by
  rw [← chains_snd]
  exact List.mem_map.mpr ⟨_, member, rfl⟩

theorem mem_childInstances_of_chain {tag : String} {trees : List Mounted} {chain : Chain}
    {identity : Instance} (member : (chain, identity) ∈ childChains tag trees) :
    identity ∈ childInstances trees := by
  rw [← childChains_snd tag]
  exact List.mem_map.mpr ⟨_, member, rfl⟩

/-! ## Trees that show a spine -/

theorem Shows.key_eq {site : Site} {spine : Spine} {tree : Mounted}
    (shows : Shows site spine tree) : tree.key = spine.keyAt site.key := by
  cases spine <;> cases tree <;> simp only [Shows] at shows
  · rfl
  · rfl
  · rw [Mounted.key, shows.1]
    rfl
  · exact shows.2.2.2.1

mutual
theorem Shows.chains_fst {site : Site} {spine : Spine} {tree : Mounted}
    (shows : Shows site spine tree) : tree.chains.map Prod.fst = spine.chains := by
  cases spine with
  | empty => cases tree <;> first | rfl | exact shows.elim
  | text content => cases tree <;> first | rfl | exact shows.elim
  | element tag children attributes =>
      cases tree with
      | element node trees =>
          obtain ⟨same, inner⟩ := shows
          rw [chains, show node.tag = tag by rw [same]; rfl]
          exact ShowsChildren.chains_fst inner tag
      | empty | text | component => exact shows.elim
  | component id name content behaviour =>
      cases tree with
      | component identity child =>
          obtain ⟨-, rfl, -, -, inner⟩ := shows
          simp [chains, Spine.chains, Function.comp_def, ← Shows.chains_fst inner]
      | empty | text | element => exact shows.elim

theorem ShowsChildren.chains_fst {site : Site} {children : List (UInt32 × Spine)}
    {trees : List Mounted} (shows : ShowsChildren site children trees) (tag : String) :
    (childChains tag trees).map Prod.fst = Spine.childChains tag children := by
  cases children with
  | nil => cases trees <;> first | rfl | exact shows.elim
  | cons entry rest =>
      obtain ⟨index, child⟩ := entry
      cases trees with
      | nil => exact shows.elim
      | cons tree trees =>
          obtain ⟨here, there⟩ := shows
          have first := Shows.chains_fst here
          simp only [childChains, Spine.childChains, List.map_append, List.map_map,
            ShowsChildren.chains_fst there tag, ← first, List.append_cancel_right_eq]
          refine List.map_congr_left fun pair member => ?_
          -- A tree with an instance inside has the index as its key.
          have keyed : tree.key = some index := here.key_eq.trans
            (Spine.keyAt_of_chain (first ▸ List.mem_map.mpr ⟨pair, member, rfl⟩) _)
          simp [keyed]
end

mutual
theorem Shows.distinct {site : Site} {spine : Spine} {tree : Mounted}
    (shows : Shows site spine tree) (distinct : spine.Distinct) : tree.Distinct := by
  cases spine with
  | empty => cases tree <;> trivial
  | text content => cases tree <;> trivial
  | element tag children attributes =>
      cases tree with
      | element node trees =>
          obtain ⟨keys, inner⟩ := ShowsChildren.distinct shows.2 distinct.2
          refine ⟨?_, inner⟩
          rw [keys]
          exact Spine.nodup_childKeys distinct.1
      | empty | text | component => exact shows.elim
  | component id name content behaviour =>
      cases tree with
      | component identity child =>
          obtain ⟨-, -, -, -, inner⟩ := shows
          have inside : child.Distinct := Shows.distinct inner distinct
          exact inside
      | empty | text | element => exact shows.elim

theorem ShowsChildren.distinct {site : Site} {children : List (UInt32 × Spine)}
    {trees : List Mounted} (shows : ShowsChildren site children trees)
    (distinct : Spine.DistinctChildren children) :
    trees.map key = childKeys children ∧ DistinctChildren trees := by
  cases children with
  | nil => cases trees <;> first | exact ⟨rfl, trivial⟩ | exact shows.elim
  | cons entry rest =>
      obtain ⟨index, child⟩ := entry
      cases trees with
      | nil => exact shows.elim
      | cons tree trees =>
          obtain ⟨here, there⟩ := shows
          obtain ⟨keys, inner⟩ := ShowsChildren.distinct there distinct.2
          refine ⟨?_, Shows.distinct here distinct.1, inner⟩
          rw [List.map_cons, keys, here.key_eq]
          rfl
end

/-! ## Reconciling leaves instances on their chains -/

theorem key_reconcile {site : Site} {old : Mounted} {spine : Spine}
    (same : old.key = spine.keyAt site.key) (supply : Supply) :
    (reconcile site old spine supply).value.key = spine.keyAt site.key := by
  rcases reconcile_eq_replace_or site old spine with ⟨-, replaced⟩ | ⟨rfl, rfl⟩ |
    ⟨before, content, rfl, rfl⟩ | ⟨node, oldChildren, tag, children, attributes, rfl, rfl, kept⟩ |
    ⟨identity, child, id, name, content, behaviour, rfl, rfl, here⟩
  · rw [replaced, replace_apply]
    exact (shows_mount site spine supply).key_eq
  · rfl
  · rfl
  · rw [reconcile_element site kept]
    rfl
  · rw [reconcile_component site here]
    exact same

theorem reconcile_keeps_chains :
    ReconcileInduction
      (fun _ old _ _ outcome => ∀ chain identity, (chain, identity) ∈ outcome.value.chains →
        (chain, identity) ∈ old.chains ∨ identity ∈ Step.instantiations outcome.steps)
      (fun _ matched children _ outcome => TakenOver matched children → ∀ tag chain identity,
        (chain, identity) ∈ childChains tag outcome.value →
          (chain, identity) ∈ childChains tag (matched.filterMap id) ∨
            identity ∈ Step.instantiations outcome.steps) where
  replace site old spine supply _ chain identity member := by
    right
    rw [replace_apply] at member ⊢
    rw [Step.instantiations_append, List.mem_append]
    rcases (turnover_mount site spine supply).known identity (mem_instances_of_chain member) with
      old | new
    · simp at old
    · exact .inr new
  empty _ _ _ _ member := by simp [chains] at member
  text _ _ _ _ _ _ member := by simp [chains] at member
  element site node oldChildren children attributes supply inner chain identity member := by
    rcases inner (takenOver_assign oldChildren children) node.tag chain identity member with
      old | new
    · left
      obtain ⟨tree, taken, rest, rfl, inside⟩ := mem_childChains.mp old
      exact mem_childChains.mpr ⟨tree, (Matching.perm_assign key oldChildren
        (childKeys children)).mem_iff.mp (List.mem_append_left _ taken), rest, rfl, inside⟩
    · right
      simp [new]
  component site outer old name content behaviour supply same inner chain identity member := by
    rw [mem_chains_component] at member ⊢
    rcases member with here | ⟨rest, rfl, inside⟩
    · exact .inl (.inl here)
    · rcases inner rest identity inside with old | new
      · exact .inl (.inr ⟨rest, rfl, old⟩)
      · right
        simpa using new
  nil _ _ _ _ _ _ _ member := by simp [childChains] at member
  kept site old matched index child rest supply first others taken tag chain identity member := by
    obtain ⟨same, later⟩ := List.forall₂_cons.mp taken
    have keyed : old.key = child.keyAt (site.child index).key := same old rfl
    rw [Step.instantiations_append, List.mem_append, List.filterMap_cons_some (by rfl),
      mem_childChains_cons]
    rcases mem_childChains_cons.mp member with ⟨inner, rfl, inside⟩ | there
    · rw [key_reconcile keyed, ← keyed]
      exact (first inner identity inside).imp (fun was => .inl ⟨inner, rfl, was⟩) .inl
    · exact (others later tag chain identity there).imp .inr .inr
  new site matched index child rest supply none others taken tag chain identity member := by
    cases matched with
    | nil => cases taken
    | cons head tail =>
        obtain rfl : head = Option.none := by simpa using none
        obtain ⟨-, later⟩ := List.forall₂_cons.mp taken
        rw [Step.instantiations_append, List.mem_append]
        rcases mem_childChains_cons.mp member with ⟨inner, rfl, inside⟩ | there
        · have known := (turnover_mount (site.child index) child supply).known identity
            (mem_instances_of_chain inside)
          exact .inr (.inl (known.resolve_left List.not_mem_nil))
        · exact (others later tag chain identity there).imp_right .inr

/-- An instance that is there after reconciling is new, or it is where it was. -/
theorem chain_of_reconcile {site : Site} {old : Mounted} {spine : Spine} {supply : Supply}
    {chain : Chain} {identity : Instance}
    (member : (chain, identity) ∈ (reconcile site old spine supply).value.chains) :
    (chain, identity) ∈ old.chains ∨
      identity ∈ Step.instantiations (reconcile site old spine supply).steps :=
  reconcile_keeps_chains.reconcile site old spine supply chain identity member

theorem fits_of_chain {site : Site} {old : Mounted} {spine : Spine} {chain : Chain}
    {identity : Instance} (ours : ∀ other ∈ old.instances, other.session = site.context.session)
    (there : (chain, identity) ∈ old.chains) (asked : chain ∈ spine.chains) :
    Fits site old spine := by
  cases old with
  | empty | text => simp [chains] at there
  | element node trees =>
      obtain ⟨tree, -, rest, rfl, -⟩ := mem_childChains.mp there
      cases spine with
      | empty | text => simp [Spine.chains] at asked
      | element tag children attributes =>
          obtain ⟨index, child, other, -, same, -⟩ := Spine.mem_childChains.mp asked
          simp only [List.cons.injEq, ChainStep.child.injEq] at same
          exact same.1.1
      | component => simp [Spine.chains] at asked
  | component outer child =>
      obtain ⟨rest, rfl⟩ : ∃ rest, chain = .component outer.component :: rest := by
        rcases mem_chains_component.mp there with ⟨rfl, -⟩ | ⟨rest, rfl, -⟩
        · exact ⟨[], rfl⟩
        · exact ⟨rest, rfl⟩
      cases spine with
      | empty | text => simp [Spine.chains] at asked
      | element tag children attributes =>
          obtain ⟨_, _, _, _, same, _⟩ := Spine.mem_childChains.mp asked
          simp at same
      | component id name content behaviour =>
          refine ⟨ours outer (List.mem_cons_self ..), ?_⟩
          rcases Spine.mem_chains_component.mp asked with here | ⟨other, same, -⟩
          · simpa using (List.cons.inj here).1
          · simpa using (List.cons.inj same).1

/-! ## Instances on the chains of the spine stay -/

theorem reconcile_keeps_instances :
    ReconcileInduction
      (fun site old spine _ outcome => old.Distinct → spine.Distinct →
        (∀ other ∈ old.instances, other.session = site.context.session) →
        ∀ chain identity, (chain, identity) ∈ old.chains → chain ∈ spine.chains →
          identity ∈ outcome.value.instances)
      (fun site matched children _ outcome => DistinctChildren (matched.filterMap id) →
        Spine.DistinctChildren children →
        (∀ other ∈ childInstances (matched.filterMap id), other.session = site.context.session) →
        ∀ (position : Nat) (old : Mounted) (index : UInt32) (child : Spine),
          matched[position]? = some (some old) → children[position]? = some (index, child) →
            ∀ chain identity, (chain, identity) ∈ old.chains → chain ∈ child.chains →
              identity ∈ childInstances outcome.value) where
  replace site old spine supply other _ _ ours chain identity there asked :=
    absurd (fits_of_chain ours there asked) other
  empty _ _ _ _ _ _ _ there := by simp [chains] at there
  text _ _ _ _ _ _ _ _ _ there := by simp [chains] at there
  element site node oldChildren children attributes supply inner oldDistinct distinct ours chain
      identity there asked := by
    obtain ⟨tree, member, rest, rfl, inside⟩ := mem_childChains.mp there
    obtain ⟨index, child, _, entry, same, along⟩ := Spine.mem_childChains.mp asked
    simp only [List.cons.injEq, ChainStep.child.injEq, true_and] at same
    obtain ⟨keyed, rfl⟩ := same
    obtain ⟨position, stands⟩ := List.mem_iff_getElem?.mp entry
    have all := Matching.perm_assign key oldChildren (childKeys children)
    -- The child at the position asks for the key of the tree, and gets the tree.
    have asks : (childKeys children)[position]? = some (some index) := by
      simp [childKeys, stands, Spine.keyAt_of_chain along]
    have served := Matching.assign_of_distinct oldDistinct.1 (Spine.nodup_childKeys distinct.1)
      asks member keyed
    refine inner ?_ distinct.2 ?_ position tree index child served stands rest identity inside along
    · rw [distinctChildren_iff]
      exact fun other taken => distinctChildren_iff.mp oldDistinct.2 other
        (all.mem_iff.mp (List.mem_append_left _ taken))
    · intro other taken
      apply ours other
      have perm := perm_childInstances all
      rw [childInstances_append] at perm
      exact perm.mem_iff.mp (List.mem_append_left _ taken)
  component site outer old name content behaviour supply same inner oldDistinct distinct ours chain
      identity there asked := by
    rcases mem_chains_component.mp there with ⟨-, rfl⟩ | ⟨rest, rfl, along⟩
    · exact List.mem_cons_self ..
    · refine List.mem_cons_of_mem _ (inner oldDistinct distinct ?_ rest identity along ?_)
      · intro other member
        exact (ours other (List.mem_cons_of_mem _ member)).trans same.symm
      · rcases Spine.mem_chains_component.mp asked with only | ⟨_, isRest, member⟩
        · exact absurd (List.cons.inj only).2 (ne_nil_of_chain along)
        · rw [(List.cons.inj isRest).2]
          exact member
  nil _ _ _ _ _ _ _ _ _ _ _ stands := by simp at stands
  kept site old matched index child rest supply first others oldDistinct distinct ours position tree
      index' child' served stands chain identity there asked := by
    cases position with
    | zero =>
        simp only [List.getElem?_cons_zero, Option.some.injEq, Prod.mk.injEq] at served stands
        obtain ⟨rfl, rfl⟩ := stands
        subst served
        refine List.mem_append_left _ (first oldDistinct.1 distinct.1 ?_ chain identity there asked)
        exact fun other member => ours other (List.mem_append_left _ member)
    | succ position =>
        refine List.mem_append_right _ (others oldDistinct.2 distinct.2 ?_ position tree index' child'
          served stands chain identity there asked)
        exact fun other member => ours other (List.mem_append_right _ member)
  new site matched index child rest supply none others oldDistinct distinct ours position tree index'
      child' served stands chain identity there asked := by
    cases matched with
    | nil => simp at served
    | cons head tail =>
        obtain rfl : head = Option.none := by simpa using none
        cases position with
        | zero => simp at served
        | succ position =>
            exact List.mem_append_right _ (others oldDistinct distinct.2 ours position tree index'
              child' served stands chain identity there asked)

/-- In a tree with distinct instances, one chain leads to each of them. -/
theorem chain_unique {tree : Mounted} (once : (tree.instances.map Instance.id).Nodup)
    {chain other : Chain} {identity : Instance} (member : (chain, identity) ∈ tree.chains)
    (again : (other, identity) ∈ tree.chains) : chain = other := by
  have distinct : (tree.chains.map Prod.snd).Nodup := by
    rw [chains_snd]
    exact List.Nodup.of_map _ once
  exact congrArg Prod.fst (List.inj_on_of_nodup_map distinct member again rfl)

/-- What is true of the instances of a tree before it is rendered again: they have one number each,
    given out before, and siblings can be told apart. -/
structure Ready (site : Site) (supply : Supply) (tree : Mounted) : Prop where
  distinct : tree.Distinct
  once : (tree.instances.map Instance.id).Nodup
  old : ∀ identity ∈ tree.instances, identity.id < supply.nextInstance
  placed : tree.Placed site

/-- When siblings can be told apart, reconciling keeps an instance exactly when the spine has its
    chain and is rendered in its session. -/
theorem mem_reconcile_iff {site : Site} {context : ContextId} {old : Mounted} {spine : Spine}
    {supply : Supply} (ready : Ready { site with context := context } supply old)
    (distinct : spine.Distinct) {chain : Chain} {identity : Instance}
    (member : (chain, identity) ∈ old.chains) :
    identity ∈ (reconcile site old spine supply).value.instances ↔
      identity.session = site.context.session ∧ chain ∈ spine.chains := by
  have shows := shows_reconcile site ready.placed spine supply
  have there := mem_instances_of_chain member
  constructor
  · intro stays
    refine ⟨shows.placed.session_eq identity stays, ?_⟩
    rw [← chains_snd] at stays
    obtain ⟨⟨now, other⟩, along, isThis⟩ := List.mem_map.mp stays
    obtain rfl : other = identity := isThis
    rcases chain_of_reconcile along with before | new
    · rw [chain_unique ready.once member before, ← shows.chains_fst]
      exact List.mem_map.mpr ⟨_, along, rfl⟩
    · exact absurd (ready.old other there)
        (Nat.not_lt_of_le ((turnover_reconcile site old spine supply).le_of_created new))
  · rintro ⟨session, asked⟩
    have ours : ∀ other ∈ old.instances, other.session = site.context.session := by
      intro other inside
      rw [ready.placed.session_eq other inside, ← ready.placed.session_eq identity there, session]
    exact reconcile_keeps_instances.reconcile site old spine supply ready.distinct distinct ours
      chain identity member asked

/-! ## Rendering the content of one component again -/

theorem Placed.key_of_mem {site : Site} {tree : Mounted} (placed : tree.Placed site)
    {identity : Instance} (member : identity ∈ tree.instances) : tree.key = site.key := by
  cases tree with
  | empty | text => simp [instances] at member
  | element node children => exact placed.1
  | component outer child => exact placed.2.2.1

/-- What is true of the children of an element before the element is rendered again. -/
structure ReadyChildren (site : Site) (supply : Supply) (trees : List Mounted) : Prop where
  keys : ((trees.map key).filterMap id).Nodup
  distinct : DistinctChildren trees
  once : ((childInstances trees).map Instance.id).Nodup
  old : ∀ identity ∈ childInstances trees, identity.id < supply.nextInstance
  placed : PlacedChildren site trees

section

variable {site : Site} {supply : Supply}

theorem Ready.children {node : MountedElement} {trees : List Mounted}
    (ready : Ready site supply (element node trees)) : ReadyChildren site supply trees :=
  ⟨ready.distinct.1, ready.distinct.2, ready.once, ready.old, ready.placed.2⟩

theorem Ready.inner {outer : Instance} {child : Mounted}
    (ready : Ready site supply (component outer child)) :
    Ready outer.site supply child ∧ ∀ other ∈ child.instances, other.id ≠ outer.id := by
  obtain ⟨new, once⟩ := List.nodup_cons.mp ready.once
  refine ⟨⟨ready.distinct, once, fun other there => ready.old other (List.mem_cons_of_mem _ there),
    ready.placed.2.2.2⟩, ?_⟩
  rintro other there same
  exact new (List.mem_map.mpr ⟨other, there, same⟩)

namespace ReadyChildren

variable {tree : Mounted} {rest : List Mounted}

theorem first (ready : ReadyChildren site supply (tree :: rest)) :
    ∃ index, Ready (site.child index) supply tree := by
  obtain ⟨⟨index, stands⟩, -⟩ := ready.placed
  have once := ready.once
  rw [childInstances, List.map_append] at once
  exact ⟨index, ready.distinct.1, once.of_append_left,
    fun inner here => ready.old inner (List.mem_append_left _ here), stands⟩

theorem others (ready : ReadyChildren site supply (tree :: rest)) :
    ReadyChildren site supply rest := by
  have once := ready.once
  rw [childInstances, List.map_append] at once
  exact ⟨ready.keys.sublist ((List.sublist_cons_self _ _).filterMap id), ready.distinct.2,
    once.of_append_right, fun inner there => ready.old inner (List.mem_append_right _ there),
    ready.placed.2⟩

theorem disjoint (ready : ReadyChildren site supply (tree :: rest)) {inner other : Instance}
    (here : inner ∈ tree.instances) (there : other ∈ childInstances rest) :
    inner.id ≠ other.id := by
  have once := ready.once
  rw [childInstances, List.map_append, List.nodup_append] at once
  exact once.2.2 inner.id (List.mem_map_of_mem here) other.id (List.mem_map_of_mem there)

theorem key_ne (ready : ReadyChildren site supply (tree :: rest)) {identity : Instance}
    (here : identity ∈ tree.instances) {other : Mounted} (sibling : other ∈ rest) :
    tree.key ≠ other.key := by
  obtain ⟨⟨index, first⟩, others⟩ := ready.placed
  have keyed := first.key_of_mem here
  have keys := ready.keys
  rw [List.map_cons, keyed] at keys
  intro same
  refine (List.nodup_cons.mp keys).1 (List.mem_filterMap.mpr
    ⟨other.key, List.mem_map_of_mem sibling, ?_⟩)
  exact same.symm.trans keyed

end ReadyChildren

end

theorem follows_of_key_ne {tag : String} {key other : Option UInt32} {place chain : Chain}
    (apart : key ≠ other) (content : Spine) :
    Chain.Follows (.child tag key :: place) content (.child tag other :: chain) := by
  intro more same
  simp only [List.cons_append, List.cons.injEq, ChainStep.child.injEq] at same
  exact absurd same.1.2.symm apart

/-- When siblings can be told apart, rendering other content in a component keeps everything outside
    of it, and inside of it what is on a chain of the content. -/
theorem rerender_keeps (id : InstanceId) {content : Spine} (distinct : content.Distinct) :
    RerenderInduction id content
      (fun tree supply outcome => ∀ {site place chain owner identity}, Ready site supply tree →
        owner.id = id → (place, owner) ∈ tree.chains → (chain, identity) ∈ tree.chains →
          (identity ∈ outcome.value.instances ↔ Chain.Follows place content chain))
      (fun trees supply outcome => ∀ {site tag place chain owner identity},
        ReadyChildren site supply trees → owner.id = id → (place, owner) ∈ childChains tag trees →
          (chain, identity) ∈ childChains tag trees →
            (identity ∈ childInstances outcome.value ↔ Chain.Follows place content chain)) where
  empty _ _ _ _ _ _ _ _ _ member := by simp [chains] at member
  text _ _ _ _ _ _ _ _ _ _ member := by simp [chains] at member
  element _ _ _ inner _ _ _ _ _ ready named placed member :=
    inner ready.children named placed member
  here outer child supply here := by
    intro site place chain owner identity ready named placed member
    obtain ⟨deeper, inside⟩ := ready.inner
    obtain ⟨rfl, rfl⟩ : place = [.component outer.component] ∧ owner = outer := by
      rcases mem_chains_component.mp placed with both | ⟨rest, -, along⟩
      · exact both
      · exact absurd (named.trans here.symm) (inside owner (mem_instances_of_chain along))
    rcases mem_chains_component.mp member with ⟨rfl, rfl⟩ | ⟨rest, rfl, along⟩
    · simp [instances, Chain.Follows]
    · have there := mem_instances_of_chain along
      have other : identity ≠ owner := fun same => inside identity there (congrArg _ same)
      have session : identity.session = owner.site.context.session :=
        deeper.placed.session_eq identity there
      have kept : identity ∈ (reconcile owner.site child content supply).value.instances ↔
          identity.session = owner.site.context.session ∧ rest ∈ content.chains :=
        mem_reconcile_iff deeper distinct along
      simp [instances, other, kept, session, Chain.Follows, ne_nil_of_chain along]
  inside outer child supply here inner := by
    intro site place chain owner identity ready named placed member
    obtain ⟨deeper, inside⟩ := ready.inner
    rcases mem_chains_component.mp placed with ⟨-, rfl⟩ | ⟨rest, rfl, along⟩
    · exact absurd named here
    rcases mem_chains_component.mp member with ⟨rfl, rfl⟩ | ⟨rest', rfl, within⟩
    · simp [instances, Chain.Follows, ne_nil_of_chain along]
    · have other : identity ≠ outer := fun same =>
        inside identity (mem_instances_of_chain within) (congrArg _ same)
      simpa [instances, other, Chain.Follows] using inner deeper named along within
  nil _ _ _ _ _ _ _ _ _ _ member := by simp [childChains] at member
  first tree rest supply held inner := by
    intro site tag place chain owner identity ready named placed member
    rw [mem_childChains_cons] at placed member
    obtain ⟨holder, here, same⟩ := List.mem_map.mp ((holds_iff id tree).mp held)
    obtain ⟨place, rfl, along⟩ := placed.resolve_right fun there =>
      ready.disjoint here (mem_childInstances_of_chain there) (same.trans named.symm)
    rcases member with ⟨chain, rfl, within⟩ | later
    · obtain ⟨index, first⟩ := ready.first
      have elsewhere : identity ∉ childInstances rest := fun again =>
        ready.disjoint (mem_instances_of_chain within) again rfl
      simpa [childInstances, elsewhere, Chain.Follows] using inner first named along within
    · obtain ⟨other, sibling, chain, rfl, -⟩ := mem_childChains.mp later
      apply iff_of_true (List.mem_append_right _ (mem_childInstances_of_chain later))
      exact follows_of_key_ne (ready.key_ne (mem_instances_of_chain along) sibling) content
  later tree rest supply absent inner := by
    intro site tag place chain owner identity ready named placed member
    rw [mem_childChains_cons] at placed member
    have there := placed.resolve_left fun ⟨_, _, within⟩ => absent ((holds_iff id tree).mpr
      (List.mem_map.mpr ⟨owner, mem_instances_of_chain within, named⟩))
    rcases member with ⟨chain, rfl, within⟩ | later
    · obtain ⟨other, sibling, place, rfl, -⟩ := mem_childChains.mp there
      have apart := ready.key_ne (mem_instances_of_chain within) sibling
      apply iff_of_true (List.mem_append_left _ (mem_instances_of_chain within))
      exact follows_of_key_ne apart.symm content
    · have elsewhere : identity ∉ tree.instances := fun again =>
        ready.disjoint again (mem_childInstances_of_chain later) rfl
      simpa [childInstances, elsewhere] using inner ready.others named there later

theorem rerender_distinct (id : InstanceId) {content : Spine} (distinct : content.Distinct) :
    RerenderInduction id content
      (fun tree _ outcome => outcome.value.key = tree.key ∧
        ∀ {site}, tree.Placed site → tree.Distinct → outcome.value.Distinct)
      (fun trees _ outcome => outcome.value.map key = trees.map key ∧
        ∀ {site}, PlacedChildren site trees → DistinctChildren trees →
          DistinctChildren outcome.value) where
  empty _ := ⟨rfl, fun _ _ => trivial⟩
  text _ _ := ⟨rfl, fun _ _ => trivial⟩
  element node children _ inner := by
    obtain ⟨keys, kept⟩ := inner
    refine ⟨rfl, fun placed before => ⟨?_, kept placed.2 before.2⟩⟩
    rw [keys]
    exact before.1
  here identity child supply _ := by
    refine ⟨rfl, fun placed _ => ?_⟩
    exact (shows_reconcile identity.site placed.2.2.2 content supply).distinct distinct
  inside identity _ _ _ inner := ⟨rfl, fun placed before => inner.2 placed.2.2.2 before⟩
  nil _ := ⟨rfl, fun _ _ => trivial⟩
  first tree rest _ _ inner := by
    refine ⟨by simp [inner.1], fun placed before => ?_⟩
    obtain ⟨index, here⟩ := placed.1
    exact ⟨inner.2 here before.1, before.2⟩
  later tree rest _ _ inner := by
    obtain ⟨keys, kept⟩ := inner
    exact ⟨by simp [keys], fun placed before => ⟨before.1, kept placed.2 before.2⟩⟩

end Mounted

end RemoteView
