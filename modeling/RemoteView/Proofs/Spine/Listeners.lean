import RemoteView.Proofs.Host.Behaviours
import RemoteView.Proofs.Mounted.Focus

/-! # Listeners in a spine

A listener is known by its function and by the position of its element. So what the rendering of a
spine declares for it is found by going down to the element: the first attribute with the function
counts. What is inside of components is declared elsewhere.
-/

namespace RemoteView

namespace Attribute

/-- The listener of an attribute, if it is one of a function. -/
def listener? (fid : FunctionId) : Attribute → Option Listener
  | .listener declared => if declared.fid = fid then some declared else none
  | _ => none

/-- The first listener of a function among attributes. -/
def listenerFor? (fid : FunctionId) (attributes : List Attribute) : Option Listener :=
  attributes.findSome? (listener? fid)

end Attribute

namespace Spine

mutual
/-- The first listener of a function at the element that indices lead to. -/
def listenerAt? (fid : FunctionId) (segments : List UInt32) : Spine → Option Listener
  | .empty => none
  | .text _ => none
  | .component .. => none
  | .element _ children attributes =>
      match segments with
      | [] => Attribute.listenerFor? fid attributes
      | index :: rest => childListenerAt? fid index rest children

/-- The first listener of a function at the element that indices lead to from the children with an
    index. -/
def childListenerAt? (fid : FunctionId) (index : UInt32) (rest : List UInt32) :
    List (UInt32 × Spine) → Option Listener
  | [] => none
  | (first, child) :: others =>
      if first = index then
        (listenerAt? fid rest child).or (childListenerAt? fid index rest others)
      else childListenerAt? fid index rest others
end

end Spine

namespace ListenerId

theorem firstIn_attribute (id : ListenerId) (site : Site) (one : Attribute) :
    id.firstIn ((one.declarations site.path).map (site.context, ·)) =
      if site.context = id.context ∧ site.path = id.path then
        (one.listener? id.fid).map Listener.behaviour
      else none := by
  cases one with
  | listener declared =>
      by_cases here : site.context = id.context ∧ site.path = id.path
      · by_cases same : declared.fid = id.fid
        · simp [Attribute.declarations, firstIn, saidBy, here, same, Attribute.listener?]
        · simp [Attribute.declarations, firstIn, saidBy, same, Attribute.listener?]
      · rw [if_neg here]
        apply List.findSome?_eq_none_iff.mpr
        intro pair among
        obtain rfl : pair = (site.context, .listener site.path declared) := by
          simpa [Attribute.declarations] using among
        exact if_neg fun same => here ⟨same.1, (Prod.mk.inj same.2).1⟩
  | value name json => exact (ite_self _).symm
  | style style => cases style <;> exact (ite_self _).symm
  | ref declared => exact (ite_self _).symm

theorem firstIn_attributes (id : ListenerId) (site : Site) (attributes : List Attribute) :
    id.firstIn ((attributes.flatMap (Attribute.declarations site.path)).map (site.context, ·)) =
      if site.context = id.context ∧ site.path = id.path then
        (Attribute.listenerFor? id.fid attributes).map Listener.behaviour
      else none := by
  induction attributes with
  | nil => exact (ite_self _).symm
  | cons one rest ih =>
      rw [List.flatMap_cons, List.map_append, firstIn_append, ih, firstIn_attribute]
      split
      · rw [Attribute.listenerFor?, Attribute.listenerFor?, List.findSome?_cons]
        cases one.listener? id.fid <;> rfl
      · rfl

theorem declaredAt_element (site : Site) (tag : String) (children : List (UInt32 × Spine))
    (attributes : List Attribute) : (Spine.element tag children attributes).declaredAt site =
      (Spine.childDeclarations site.path children).map (site.context, ·) ++
        (attributes.flatMap (Attribute.declarations site.path)).map (site.context, ·) :=
  List.map_append

theorem childDeclaredAt_cons (site : Site) (index : UInt32) (child : Spine)
    (rest : List (UInt32 × Spine)) :
    (Spine.childDeclarations site.path ((index, child) :: rest)).map (site.context, ·) =
      child.declaredAt (site.child index) ++
        (Spine.childDeclarations site.path rest).map (site.context, ·) :=
  List.map_append

mutual
theorem firstIn_declaredAt_eq_none (id : ListenerId) (site : Site) (spine : Spine)
    (elsewhere : ∀ segments, id.path ≠ site.path.descend segments) :
    id.firstIn (spine.declaredAt site) = none := by
  cases spine with
  | empty | text | component => rfl
  | element tag children attributes =>
      have other : ¬(site.context = id.context ∧ site.path = id.path) := fun here =>
        elsewhere [] (by simp [Path.descend, here.2])
      rw [declaredAt_element, firstIn_append, firstIn_attributes, if_neg other, Option.or_none]
      exact firstIn_childDeclarations_eq_none id site children fun index segments =>
        elsewhere (index :: segments)

theorem firstIn_childDeclarations_eq_none (id : ListenerId) (site : Site)
    (children : List (UInt32 × Spine))
    (elsewhere : ∀ index segments, id.path ≠ site.path.descend (index :: segments)) :
    id.firstIn ((Spine.childDeclarations site.path children).map (site.context, ·)) = none := by
  cases children with
  | nil => rfl
  | cons entry rest =>
      obtain ⟨index, child⟩ := entry
      have here : ∀ segments, id.path ≠ (site.child index).path.descend segments := by
        intro segments
        rw [show (site.child index).path = site.path.child index from rfl, Path.descend_child]
        exact elsewhere index segments
      rw [childDeclaredAt_cons, firstIn_append,
        firstIn_declaredAt_eq_none id (site.child index) child here, Option.none_or]
      exact firstIn_childDeclarations_eq_none id site rest elsewhere
end

theorem ne_descend_child {site : Site} {index first : UInt32} (other : first ≠ index)
    (rest segments : List UInt32) :
    site.path.descend (index :: rest) ≠ (site.child first).path.descend segments := by
  rw [show (site.child first).path = site.path.child first from rfl, Path.descend_child]
  intro same
  have indices := List.append_cancel_left (congrArg Path.segments same)
  exact other (List.cons.inj indices).1.symm

mutual
/-- What a spine declares for a listener is found at the element of the listener. -/
theorem firstIn_declaredAt (id : ListenerId) (site : Site) (segments : List UInt32) (spine : Spine)
    (own : site.context = id.context) (place : id.path = site.path.descend segments) :
    id.firstIn (spine.declaredAt site) =
      (spine.listenerAt? id.fid segments).map Listener.behaviour := by
  cases spine with
  | empty | text | component => rfl
  | element tag children attributes =>
      rw [declaredAt_element, firstIn_append, firstIn_attributes]
      cases segments with
      | nil =>
          have here : site.path = id.path := by
            rw [place]
            simp [Path.descend]
          rw [if_pos ⟨own, here⟩, firstIn_childDeclarations_eq_none id site children,
            Option.none_or]
          · rfl
          · intro index segments same
            have indices := congrArg Path.segments (here.trans same)
            simp [Path.descend] at indices
      | cons index rest =>
          have below : ¬(site.context = id.context ∧ site.path = id.path) := by
            rintro ⟨-, here⟩
            have indices := congrArg Path.segments (here.trans place)
            simp [Path.descend] at indices
          rw [if_neg below, Option.or_none]
          exact firstIn_childDeclarations id site index rest children own place

theorem firstIn_childDeclarations (id : ListenerId) (site : Site) (index : UInt32)
    (rest : List UInt32) (children : List (UInt32 × Spine)) (own : site.context = id.context)
    (place : id.path = site.path.descend (index :: rest)) :
    id.firstIn ((Spine.childDeclarations site.path children).map (site.context, ·)) =
      (Spine.childListenerAt? id.fid index rest children).map Listener.behaviour := by
  cases children with
  | nil => rfl
  | cons entry others =>
      obtain ⟨first, child⟩ := entry
      rw [childDeclaredAt_cons, firstIn_append,
        firstIn_childDeclarations id site index rest others own place, Spine.childListenerAt?]
      by_cases here : first = index
      · subst here
        rw [if_pos rfl, Option.map_or,
          firstIn_declaredAt id (site.child first) rest child own
            (place.trans (Path.descend_child site.path first rest).symm)]
      · rw [if_neg here, firstIn_declaredAt_eq_none id (site.child first) child, Option.none_or]
        intro segments
        rw [place]
        exact ne_descend_child here rest segments
end

end ListenerId

end RemoteView
