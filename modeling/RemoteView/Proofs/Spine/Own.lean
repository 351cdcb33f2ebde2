import Mathlib.Data.List.Pairwise
import RemoteView.Proofs.Mounted.Attaching
import RemoteView.Proofs.Spine.Elements

/-! # The elements of its own

Of the elements of a spine those that are in no component are rendered in one context, and the refs
that the rendering of the spine declares are theirs. Where siblings have distinct indices and no
stable key is declared twice, every key names one of these elements.
-/

namespace RemoteView

namespace Attribute

/-- The ref that an attribute is. -/
def asRef? : Attribute → Option RefAttribute
  | .ref declared => some declared
  | _ => none

/-- The refs among attributes. -/
def refs (attributes : List Attribute) : List RefAttribute := attributes.filterMap asRef?

theorem mem_refs {attributes : List Attribute} {declared : RefAttribute} :
    declared ∈ refs attributes ↔ .ref declared ∈ attributes := by
  rw [refs, List.mem_filterMap]
  constructor
  · rintro ⟨one, among, isRef⟩
    cases one with
    | ref other => rwa [← Option.some.inj isRef]
    | value | listener | style => cases isRef
  · exact fun among => ⟨_, among, rfl⟩

end Attribute

namespace Spine

mutual
/-- The elements of a spine that are not inside of components, each with the child indices that lead
    to it, its tag and its attributes. -/
def ownElements : Spine → List (List UInt32 × String × List Attribute)
  | .empty => []
  | .text _ => []
  | .component .. => []
  | .element tag children attributes => ([], tag, attributes) :: ownChildren children

/-- The elements of the children of an element that are not inside of components. -/
def ownChildren : List (UInt32 × Spine) → List (List UInt32 × String × List Attribute)
  | [] => []
  | (index, child) :: rest =>
      (ownElements child).map (fun entry => (index :: entry.1, entry.2)) ++ ownChildren rest
end

mutual
theorem mem_declarations_ref {spine : Spine} {path place : Path} {declared : RefAttribute} :
    .ref place declared ∈ spine.declarations path ↔ ∃ entry ∈ spine.ownElements,
      place = path.descend entry.1 ∧ declared ∈ Attribute.refs entry.2.2 := by
  cases spine with
  | empty | text => simp [declarations, ownElements]
  | component => simp [declarations, ownElements]
  | element tag children attributes =>
      have own : .ref place declared ∈ attributes.flatMap (Attribute.declarations path) ↔
          place = path.descend [] ∧ declared ∈ Attribute.refs attributes := by
        rw [List.mem_flatMap, Attribute.mem_refs]
        constructor
        · rintro ⟨one, among, said⟩
          cases one with
          | ref other =>
              obtain ⟨rfl, rfl⟩ := Declaration.ref.inj (List.mem_singleton.mp said)
              exact ⟨by simp [Path.descend], among⟩
          | value => cases said
          | listener => simp [Attribute.declarations] at said
          | style style => cases style <;> simp [Attribute.declarations] at said
        · rintro ⟨rfl, among⟩
          exact ⟨_, among, by simp [Attribute.declarations, Path.descend]⟩
      rw [declarations, List.mem_append, own, mem_childDeclarations_ref, ownElements]
      simp only [List.mem_cons, exists_eq_or_imp]
      exact or_comm

theorem mem_childDeclarations_ref {children : List (UInt32 × Spine)} {path place : Path}
    {declared : RefAttribute} :
    .ref place declared ∈ childDeclarations path children ↔ ∃ entry ∈ ownChildren children,
      place = path.descend entry.1 ∧ declared ∈ Attribute.refs entry.2.2 := by
  cases children with
  | nil => simp [childDeclarations, ownChildren]
  | cons first rest =>
      obtain ⟨index, child⟩ := first
      rw [childDeclarations, List.mem_append, mem_declarations_ref, mem_childDeclarations_ref,
        ownChildren]
      simp only [List.mem_append, List.mem_map, or_and_right, exists_or, exists_exists_and_eq_and,
        Path.descend_child]
end

end Spine

namespace Spine

mutual
theorem nodup_ownElements {spine : Spine} (distinct : spine.Distinct) :
    (spine.ownElements.map Prod.fst).Nodup := by
  cases spine with
  | empty | text | component => exact List.nodup_nil
  | element tag children attributes =>
      obtain ⟨heads, nodup⟩ := nodup_ownChildren distinct.1 distinct.2
      refine List.nodup_cons.mpr ⟨fun root => ?_, nodup⟩
      obtain ⟨index, rest, below, -⟩ := heads [] root
      cases below

theorem nodup_ownChildren {children : List (UInt32 × Spine)}
    (apart : (children.map Prod.fst).Nodup) (distinct : DistinctChildren children) :
    (∀ segments ∈ (ownChildren children).map Prod.fst, ∃ index rest,
      segments = index :: rest ∧ index ∈ children.map Prod.fst) ∧
      ((ownChildren children).map Prod.fst).Nodup := by
  cases children with
  | nil => simp [ownChildren]
  | cons first others =>
      obtain ⟨index, child⟩ := first
      obtain ⟨new, apart⟩ := List.nodup_cons.mp apart
      obtain ⟨heads, later⟩ := nodup_ownChildren apart distinct.2
      have here : ((ownElements child).map fun entry => (index :: entry.1, entry.2)).map Prod.fst =
          ((ownElements child).map Prod.fst).map (index :: ·) := by
        rw [List.map_map, List.map_map]
        rfl
      rw [ownChildren, List.map_append, here]
      constructor
      · intro segments member
        rcases List.mem_append.mp member with first | other
        · obtain ⟨rest, -, rfl⟩ := List.mem_map.mp first
          exact ⟨index, rest, rfl, List.mem_cons_self⟩
        · obtain ⟨own, rest, below, among⟩ := heads segments other
          exact ⟨own, rest, below, List.mem_cons_of_mem _ among⟩
      · refine List.nodup_append.mpr ⟨?_, later, ?_⟩
        · exact (nodup_ownElements distinct.1).map List.cons_injective
        · rintro segments first other there rfl
          obtain ⟨rest, -, rfl⟩ := List.mem_map.mp first
          obtain ⟨own, below, same, among⟩ := heads _ there
          rw [(List.cons.inj same).1] at new
          exact new among
end

/-- Does every stable key that a spine declares name one of its own elements? Siblings have distinct
    indices, no element has two refs or a ref that is written over, and no key is declared twice. -/
structure NamesElements (spine : Spine) : Prop where
  distinct : spine.Distinct
  single : ∀ entry ∈ spine.ownElements, (Attribute.refs entry.2.2).length ≤ 1
  written : ∀ entry ∈ spine.ownElements, ∀ declared ∈ Attribute.refs entry.2.2,
    Attribute.lastWriting? refProperty entry.2.2 = some (.ref declared)
  keys : (spine.ownElements.flatMap fun entry =>
    (Attribute.refs entry.2.2).filterMap RefAttribute.key).Nodup

namespace NamesElements

variable {spine : Spine} {entry other : List UInt32 × String × List Attribute}

theorem ref_unique (names : spine.NamesElements) (member : entry ∈ spine.ownElements)
    {declared again : RefAttribute} (here : declared ∈ Attribute.refs entry.2.2)
    (there : again ∈ Attribute.refs entry.2.2) : again = declared := by
  obtain ⟨only, alone⟩ : ∃ only, Attribute.refs entry.2.2 = [only] := by
    refine List.length_eq_one_iff.mp (Nat.le_antisymm (names.single entry member) ?_)
    exact List.length_pos_of_mem here
  rw [alone, List.mem_singleton] at here there
  rw [here, there]

theorem eq_of_key (names : spine.NamesElements) (member : entry ∈ spine.ownElements)
    (member' : other ∈ spine.ownElements) {declared again : RefAttribute} {key : String}
    (here : declared ∈ Attribute.refs entry.2.2) (keyed : declared.key = some key)
    (there : again ∈ Attribute.refs other.2.2) (keyed' : again.key = some key) :
    entry = other := by
  obtain ⟨-, apart⟩ := List.nodup_flatMap.mp names.keys
  have : Std.Symm (Function.onFun List.Disjoint
      fun entry : List UInt32 × String × List Attribute =>
        (Attribute.refs entry.2.2).filterMap RefAttribute.key) :=
    ⟨fun _ _ disjoint _ here there => disjoint there here⟩
  by_contra differs
  exact apart.forall member member' differs (List.mem_filterMap.mpr ⟨declared, here, keyed⟩)
    (List.mem_filterMap.mpr ⟨again, there, keyed'⟩)

/-- What a spine declares first for the position of one of its own elements is the ref of this
    element. -/
theorem firstIn_declaredAt (names : spine.NamesElements) (member : entry ∈ spine.ownElements)
    {declared : RefAttribute} (here : declared ∈ Attribute.refs entry.2.2) (site : Site) :
    RefId.firstIn ⟨site.context, site.path.descend entry.1⟩ (spine.declaredAt site) =
      some declared := by
  have among : RefId.IsDeclaredIn ⟨site.context, site.path.descend entry.1⟩
      (spine.declaredAt site) :=
    ⟨declared, List.mem_map.mpr ⟨_, mem_declarations_ref.mpr ⟨entry, member, rfl, here⟩, rfl⟩⟩
  obtain ⟨first, found⟩ := among.firstIn
  obtain ⟨pair, isPair, said⟩ := List.exists_of_findSome?_eq_some found
  obtain ⟨declaration, declares, rfl⟩ := List.mem_map.mp isPair
  cases declaration with
  | ref path given =>
      obtain ⟨rfl, rfl⟩ : path = site.path.descend entry.1 ∧ given = first := by
        simpa [RefId.saidBy] using said
      obtain ⟨other, member', same, there⟩ := mem_declarations_ref.mp declares
      have segments : entry.1 = other.1 := List.append_cancel_left (congrArg Path.segments same)
      obtain rfl : entry = other :=
        List.inj_on_of_nodup_map (nodup_ownElements names.distinct) member member' segments
      rw [found, names.ref_unique member here there]
  | listener | rules | component => cases said

end NamesElements

end Spine

end RemoteView
