import RemoteView.Proofs.Mounted.Chains
import RemoteView.Proofs.Spine.Listeners

/-! # The elements of a spine

The attributes of an element write properties one after another, so the last one that writes a
property counts. Where the listeners of an element have functions of their own, each is found by its
function, and where siblings have indices of their own, each element is found by its position.
-/

namespace RemoteView

namespace Assoc

variable {κ α : Type} [DecidableEq κ]

theorem get?_foldl_insert (key : κ) (entries : List (κ × α)) (done : Assoc κ α) :
    get? key (entries.foldl (fun done entry => insert entry.1 entry.2 done) done) =
      ((entries.reverse.find? (·.1 = key)).map Prod.snd).or (get? key done) := by
  induction entries generalizing done with
  | nil => rfl
  | cons entry rest ih =>
      obtain ⟨first, value⟩ := entry
      rw [List.foldl_cons, ih, get?_insert, List.reverse_cons, List.find?_append]
      cases rest.reverse.find? (·.1 = key) with
      | some later => rfl
      | none =>
          by_cases same : first = key
          · simp [same]
          · simp [same, Ne.symm same]

theorem get?_ofList (key : κ) (entries : List (κ × α)) :
    get? key (ofList entries) = (entries.reverse.find? (·.1 = key)).map Prod.snd :=
  (get?_foldl_insert key entries []).trans Option.or_none

end Assoc

namespace Attribute

/-- The name of the property that an attribute writes. -/
def propertyName : Attribute → String
  | .value name _ => name
  | .listener declared => listenerProperty declared.event
  | .style (.rules _) => classProperty
  | .style (.inlined _) => styleProperty
  | .ref _ => refProperty

/-- The listener that an attribute is. -/
def asListener? : Attribute → Option Listener
  | .listener declared => some declared
  | _ => none

/-- The value that an attribute is. -/
def asValue? : Attribute → Option Json
  | .value _ json => some json
  | _ => none

/-- The listeners among attributes. -/
def listeners (attributes : List Attribute) : List Listener := attributes.filterMap asListener?

/-- The last attribute that writes a property. -/
def lastWriting? (name : String) (attributes : List Attribute) : Option Attribute :=
  attributes.reverse.find? (·.propertyName = name)

/-- The listener that writes a property: the last attribute that writes it, if that is one. -/
def listenerWriting? (name : String) (attributes : List Attribute) : Option Listener :=
  (attributes.reverse.find? (·.propertyName = name)).bind asListener?

/-- The value that is written as a property: the last attribute that writes it, if that is one. -/
def valueWriting? (name : String) (attributes : List Attribute) : Option Json :=
  (lastWriting? name attributes).bind asValue?

theorem property_fst (context : ContextId) (path : Path) (one : Attribute) :
    (one.property context path).1 = one.propertyName := by
  cases one with
  | style style => cases style <;> rfl
  | value | listener | ref => rfl

theorem listener?_property (context : ContextId) (path : Path) (one : Attribute) :
    (one.property context path).2.listener? = one.asListener?.map fun declared =>
      .listener ⟨context, path, declared.fid⟩ := by
  cases one with
  | style style => cases style <;> rfl
  | value | listener | ref => rfl

theorem value?_property (context : ContextId) (path : Path) (one : Attribute) :
    (one.property context path).2.value? = one.asValue? := by
  cases one with
  | style style => cases style <;> rfl
  | value | listener | ref => rfl

/-- A property of an element is what the last attribute that writes it makes of it. -/
theorem get?_ofAttributes (context : ContextId) (path : Path) (attributes : List Attribute)
    (name : String) : Assoc.get? name (Props.ofAttributes context path attributes) =
      (lastWriting? name attributes).map fun one => (one.property context path).2 := by
  have names : ((fun one : String × Property => decide (one.1 = name)) ∘
      Attribute.property context path) = fun one => decide (one.propertyName = name) := by
    funext one
    rw [Function.comp_apply, property_fst]
  rw [Props.ofAttributes, Assoc.get?_ofList, ← List.map_reverse, List.find?_map, names,
    Option.map_map]
  rfl

theorem listener?_ofAttributes (context : ContextId) (path : Path) (attributes : List Attribute)
    (name : String) : (Props.ofAttributes context path attributes).listener? name =
      (listenerWriting? name attributes).map fun declared =>
        .listener ⟨context, path, declared.fid⟩ := by
  rw [Props.listener?, get?_ofAttributes, lastWriting?, listenerWriting?]
  cases attributes.reverse.find? (·.propertyName = name) with
  | none => rfl
  | some one => exact listener?_property context path one

theorem value?_ofAttributes (context : ContextId) (path : Path) (attributes : List Attribute)
    (name : String) :
    (Props.ofAttributes context path attributes).value? name = valueWriting? name attributes := by
  rw [Props.value?, get?_ofAttributes, valueWriting?]
  cases lastWriting? name attributes with
  | none => rfl
  | some one => exact value?_property context path one

theorem mem_listeners_of_writing {name : String} {attributes : List Attribute}
    {declared : Listener} (writing : listenerWriting? name attributes = some declared) :
    declared ∈ listeners attributes := by
  obtain ⟨one, last, isListener⟩ := Option.bind_eq_some_iff.mp writing
  exact List.mem_filterMap.mpr
    ⟨one, List.mem_reverse.mp (List.mem_of_find?_eq_some last), isListener⟩

theorem listenerFor?_of_mem {attributes : List Attribute}
    (distinct : ((listeners attributes).map Listener.fid).Nodup) {declared : Listener}
    (among : declared ∈ listeners attributes) :
    listenerFor? declared.fid attributes = some declared := by
  induction attributes with
  | nil => cases among
  | cons one rest ih =>
      rw [listenerFor?, List.findSome?_cons]
      cases one with
      | listener first =>
          obtain ⟨new, others⟩ : first.fid ∉ (listeners rest).map Listener.fid ∧
              ((listeners rest).map Listener.fid).Nodup := List.nodup_cons.mp distinct
          have here : (Attribute.listener first).listener? declared.fid =
              if first.fid = declared.fid then some first else none := rfl
          rw [here]
          have either : declared ∈ first :: listeners rest := among
          rcases List.mem_cons.mp either with rfl | later
          · rw [if_pos rfl]
          · have other : first.fid ≠ declared.fid := fun same =>
              new (same ▸ List.mem_map_of_mem later)
            rw [if_neg other]
            exact ih others later
      | value | style | ref => exact ih distinct among

end Attribute

namespace Spine

mutual
/-- The elements of a spine with their positions, tags and attributes; those inside of components
    are among them. -/
def elements (path : Path) : Spine → List (Path × String × List Attribute)
  | .empty => []
  | .text _ => []
  | .element tag children attributes => (path, tag, attributes) :: childElements path children
  | .component _ _ content _ => elements path content

/-- The elements of the children of an element. -/
def childElements (path : Path) : List (UInt32 × Spine) → List (Path × String × List Attribute)
  | [] => []
  | (index, child) :: rest => elements (path.child index) child ++ childElements path rest
end

theorem childListenerAt?_of_mem {children : List (UInt32 × Spine)}
    (distinct : (children.map Prod.fst).Nodup) {index : UInt32} {child : Spine}
    (among : (index, child) ∈ children) (fid : FunctionId) (rest : List UInt32) :
    childListenerAt? fid index rest children = child.listenerAt? fid rest := by
  have absent (others : List (UInt32 × Spine)) (elsewhere : index ∉ others.map Prod.fst) :
      childListenerAt? fid index rest others = none := by
    induction others with
    | nil => rfl
    | cons first later ih =>
        obtain ⟨here, there⟩ := not_or.mp (List.mem_cons.not.mp elsewhere)
        rw [childListenerAt?, if_neg (Ne.symm here)]
        exact ih there
  induction children with
  | nil => cases among
  | cons first others ih =>
      obtain ⟨new, apart⟩ := List.nodup_cons.mp distinct
      rcases List.mem_cons.mp among with rfl | later
      · rw [childListenerAt?, if_pos rfl, absent others new, Option.or_none]
      · have other : first.1 ≠ index := by
          rintro rfl
          exact new (List.mem_map.mpr ⟨_, later, rfl⟩)
        rw [childListenerAt?, if_neg other]
        exact ih apart later

end Spine

end RemoteView
