import RemoteView.Proofs.Mounted.Chains

/-! # Following child indices

Child indices lead through a spine as they lead through the tree that shows it. In the tree they are
compared with the keys of nodes, which texts and empty nodes have none of and which a component has
in place of its content; in the spine they are just the indices of children.
-/

namespace RemoteView

namespace Spine

mutual
/-- The node that following child indices from a spine leads to. A component is its content. -/
def nodeAt? (segments : List UInt32) : Spine → Option Spine
  | .empty => if segments = [] then some .empty else none
  | .text content => if segments = [] then some (.text content) else none
  | .component _ _ content _ => nodeAt? segments content
  | .element tag children attributes =>
      match segments with
      | [] => some (.element tag children attributes)
      | index :: rest => childNodeAt? index rest children

/-- The node that following child indices from the child with an index leads to. -/
def childNodeAt? (index : UInt32) (rest : List UInt32) : List (UInt32 × Spine) → Option Spine
  | [] => none
  | (other, child) :: others =>
      if other = index then nodeAt? rest child else childNodeAt? index rest others
end

/-- The tag of a node, if it is an element. -/
def tag? : Spine → Option String
  | .element tag _ _ => some tag
  | _ => none

theorem tag?_eq_some_iff {spine : Spine} {tag : String} : spine.tag? = some tag ↔
    ∃ children attributes, spine = .element tag children attributes := by
  cases spine with
  | element other children attributes => simp [tag?]
  | empty | text | component => simp [tag?]

/-- The tag of the element that child indices lead to, if they lead to one. -/
def tagAt? (segments : List UInt32) (spine : Spine) : Option String :=
  (spine.nodeAt? segments).bind tag?

/-- The tag of the element that child indices lead to from the child with an index. -/
def childTagAt? (index : UInt32) (rest : List UInt32) (children : List (UInt32 × Spine)) :
    Option String :=
  (childNodeAt? index rest children).bind tag?

theorem childNodeAt?_of_not_mem {index : UInt32} (rest : List UInt32)
    {children : List (UInt32 × Spine)} (absent : index ∉ children.map Prod.fst) :
    childNodeAt? index rest children = none := by
  induction children with
  | nil => rfl
  | cons entry others ih =>
      obtain ⟨other, child⟩ := entry
      obtain ⟨here, there⟩ := not_or.mp (List.mem_cons.not.mp absent)
      rw [childNodeAt?, if_neg (Ne.symm here), ih there]

theorem tagAt?_of_keyless {spine : Spine} {index : UInt32}
    (keyless : spine.keyAt (some index) = none) (segments : List UInt32) :
    spine.tagAt? segments = none := by
  cases spine with
  | empty | text =>
      rw [tagAt?, nodeAt?]
      split <;> rfl
  | element | component => cases keyless

theorem keyAt_cases (key : Option UInt32) (spine : Spine) :
    spine.keyAt key = key ∨ ∀ key, spine.keyAt key = none := by
  cases spine with
  | empty | text => exact .inr fun _ => rfl
  | element | component => exact .inl rfl

end Spine

namespace Mounted

/-- In a tree that shows a spine, child indices lead to an element of a tag exactly when they do so
    in the spine. -/
theorem shows_follows :
    ShowsInduction
      (fun _ spine tree => spine.Distinct →
        ∀ segments, (tree.find? segments).map MountedElement.tag = spine.tagAt? segments)
      (fun _ children trees => (children.map Prod.fst).Nodup → Spine.DistinctChildren children →
        ∀ index rest, (findChild? index rest trees).map MountedElement.tag =
          Spine.childTagAt? index rest children) where
  empty _ _ segments := by
    have keyless : Spine.empty.keyAt (some 0) = none := rfl
    rw [Spine.tagAt?_of_keyless keyless]
    rfl
  text _ content _ segments := by
    have keyless : (Spine.text content).keyAt (some 0) = none := rfl
    rw [Spine.tagAt?_of_keyless keyless]
    rfl
  element site tag children attributes handle trees _ inner := by
    intro distinct segments
    cases segments with
    | nil => rfl
    | cons index rest => exact inner distinct.1 distinct.2 index rest
  component _ _ _ _ _ _ _ _ _ _ inner := inner
  nil _ _ _ _ _ := rfl
  cons site index child rest tree trees shows _ first others := by
    intro apart distinct asked segments
    obtain ⟨new, apart⟩ := List.nodup_cons.mp apart
    have later := others apart distinct.2 asked segments
    have keyed : tree.key = child.keyAt (some index) := shows.key_eq
    rw [Spine.childTagAt?, Spine.childNodeAt?, findChild?, keyed]
    by_cases here : index = asked
    · subst here
      rw [if_pos rfl]
      obtain own | keyless := child.keyAt_cases (some index)
      · rw [if_pos own]
        exact first distinct.1 segments
      · -- The tree passes over a node without a key, and no sibling has its index.
        have nothing := Spine.tagAt?_of_keyless (keyless (some index)) segments
        rw [Spine.childTagAt?, Spine.childNodeAt?_of_not_mem segments new] at later
        rw [keyless, if_neg (by simp), later]
        exact nothing.symm
    · have other : child.keyAt (some index) ≠ some asked := by
        obtain own | keyless := child.keyAt_cases (some index)
        · rw [own]
          exact fun same => here (Option.some.inj same)
        · rw [keyless]
          simp
      rw [if_neg here, if_neg other]
      exact later

end Mounted

end RemoteView
