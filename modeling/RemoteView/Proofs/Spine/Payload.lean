import RemoteView.Proofs.Failing
import RemoteView.Proofs.Mounted.Focus
import RemoteView.Spine.Decode

/-! # Sending another payload

A raw spine with another raw payload in one of its components is read as the spine with the other
payload there.
-/

namespace RemoteView

namespace Json

mutual
/-- The raw spine with another raw payload in the component that indices lead to. Of several ones at
    one path it is the outermost. -/
def withPayload (payload : Json) (segments : List UInt32) (raw : Json) : Json :=
  match raw with
  | .object members =>
      match SpineShape.of members, segments with
      | .element, index :: rest =>
          match found : Assoc.get? "children" members with
          | some (.array entries) =>
              have : sizeOf entries < sizeOf members := by
                have := Assoc.sizeOf_get?_lt found
                simp only [Json.array.sizeOf_spec] at this
                omega
              .object (Assoc.insert "children"
                (.array (withChildPayload payload index rest entries)) members)
          | _ => .object members
      | .component, [] => .object (Assoc.insert "spine" payload members)
      | .component, index :: rest =>
          match found : Assoc.get? "spine" members with
          | some (.object inner) =>
              match inside : Assoc.get? "spine" inner with
              | some content =>
                  have : sizeOf content < sizeOf members := by
                    have := Assoc.sizeOf_get?_lt found
                    have := Assoc.sizeOf_get?_lt inside
                    simp only [Json.object.sizeOf_spec] at *
                    omega
                  .object (Assoc.insert "spine" (.object (Assoc.insert "spine"
                    (withPayload payload (index :: rest) content) inner)) members)
              | none => .object members
          | _ => .object members
      | _, _ => .object members
  | other => other
termination_by sizeOf raw

/-- The entries of children with another raw payload in a component inside the child with an index.
-/
def withChildPayload (payload : Json) (index : UInt32) (rest : List UInt32)
    (entries : List Json) : List Json :=
  match entries with
  | [] => []
  | .array [key, child] :: others =>
      if key.toUInt32? = some index then .array [key, withPayload payload rest child] :: others
      else .array [key, child] :: withChildPayload payload index rest others
  | entry :: others => entry :: withChildPayload payload index rest others
termination_by sizeOf entries
end

section Shapes

variable (payload : Json) {members : Assoc String Json}

theorem withPayload_element_nil (shape : SpineShape.of members = .element) :
    withPayload payload [] (.object members) = .object members := by
  unfold withPayload
  simp only [shape]

theorem withPayload_element (shape : SpineShape.of members = .element) (index : UInt32)
    (rest : List UInt32) : withPayload payload (index :: rest) (.object members) =
      match Assoc.get? "children" members with
      | some (.array entries) => .object (Assoc.insert "children"
          (.array (withChildPayload payload index rest entries)) members)
      | _ => .object members := by
  rw [withPayload.eq_def]
  simp only [shape]
  split <;> simp_all

theorem withPayload_component_nil (shape : SpineShape.of members = .component) :
    withPayload payload [] (.object members) = .object (Assoc.insert "spine" payload members) := by
  unfold withPayload
  simp only [shape]

theorem withPayload_component (shape : SpineShape.of members = .component) (index : UInt32)
    (rest : List UInt32) : withPayload payload (index :: rest) (.object members) =
      match Assoc.get? "spine" members with
      | some (.object inner) =>
          match Assoc.get? "spine" inner with
          | some content => .object (Assoc.insert "spine" (.object (Assoc.insert "spine"
              (withPayload payload (index :: rest) content) inner)) members)
          | none => .object members
      | _ => .object members := by
  rw [withPayload.eq_def]
  simp only [shape]
  split
  · split <;> simp_all
  · simp_all

end Shapes

end Json

namespace Spine

/-- Read the member that holds the children of an element. -/
def decodeChildMember (path : Path) : Option Json → Except SpineError (List (UInt32 × Spine))
  | none => .ok []
  | some .null => .ok []
  | some (.array entries) => decodeChildren path entries
  | some _ => .error ⟨path, .malformed .children⟩

theorem decodeElement_eq (path : Path) (members : Assoc String Json) :
    decodeElement path members = (do
      let tag ←
        (Reading.expect .elementTag ((Assoc.get? "tag" members).bind Json.text?)).placed path
      let children ← decodeChildMember path (Assoc.get? "children" members)
      let attributes ←
        (Reading.optionalItems .attributes (Assoc.get? "attributes" members)).placed path
      let attributes ← (attributes.mapM Reading.nodeAttribute : Reading _).placed path
      return .element tag children attributes) := by
  rw [decodeElement]
  congr 1
  funext tag
  unfold decodeChildMember
  split <;> simp_all

theorem decodeComponent_eq (path : Path) (members : Assoc String Json) :
    decodeComponent path members = (do
      let id ←
        (Reading.expect .componentId ((Assoc.get? "id" members).bind Json.toUInt64?)).placed path
      let name := ((Assoc.get? "displayName" members).bind Json.text?).getD ""
      match Assoc.get? "spine" members with
      | none => return .component id name .empty ⟨[], [], []⟩
      | some raw =>
          let (content, behaviour) ← decodePayload path raw
          return .component id name content behaviour) := by
  rw [decodeComponent]
  congr 1
  funext id
  simp only
  split <;> simp_all

/-- Read the member that holds the content of a component. -/
def decodeContent (path : Path) : Json → Except SpineError Spine
  | .object members =>
      match Assoc.get? "spine" members with
      | none => .ok .empty
      | some inner => decode path inner
  | _ => .ok .empty

theorem decodePayload_eq (path : Path) (raw : Json) :
    decodePayload path raw = (do
      let content ← decodeContent path raw
      let behaviour ← (Reading.behaviour raw).placed path
      return (content, behaviour)) := by
  cases raw with
  | null | bool | number | string | array =>
      rw [decodePayload]
      · rfl
      · simp
  | object members =>
      rw [decodePayload]
      unfold decodeContent
      simp only
      split <;> simp_all

theorem decode_object (path : Path) (members : List (String × Json)) :
    decode path (.object members) =
      match SpineShape.of members with
      | .element => decodeElement path members
      | .component => decodeComponent path members
      | .unknown found => .error ⟨path, .unknownShape found⟩ :=
  decode.eq_def path (.object members)

end Spine

theorem SpineShape.of_insert {name : String} (notType : "type" ≠ name) (notTag : "tag" ≠ name)
    (value : Json) (members : Assoc String Json) :
    SpineShape.of (Assoc.insert name value members) = SpineShape.of members := by
  unfold SpineShape.of Assoc.contains
  rw [Assoc.get?_insert_of_ne notType, Assoc.get?_insert_of_ne notTag]

theorem Reading.behaviour_insert (content : Json) (members : Assoc String Json) :
    Reading.behaviour (.object (Assoc.insert "spine" content members)) =
      Reading.behaviour (.object members) := by
  unfold Reading.behaviour
  simp only [Json.get?]
  rw [Assoc.get?_insert_of_ne (by decide), Assoc.get?_insert_of_ne (by decide)]

namespace Spine

theorem decodeElement_insert {path : Path} {members : Assoc String Json} {spine : Spine}
    (decoded : decodeElement path members = .ok spine) :
    ∃ tag children attributes, spine = .element tag children attributes ∧
      decodeChildMember path (Assoc.get? "children" members) = .ok children ∧
      ∀ raw others, decodeChildMember path (some raw) = .ok others →
        decodeElement path (Assoc.insert "children" raw members) =
          .ok (.element tag others attributes) := by
  rw [decodeElement_eq] at decoded
  obtain ⟨tag, isTag, decoded⟩ := Except.bind_eq_ok.mp decoded
  obtain ⟨children, areChildren, decoded⟩ := Except.bind_eq_ok.mp decoded
  obtain ⟨raws, areRaws, decoded⟩ := Except.bind_eq_ok.mp decoded
  obtain ⟨attributes, areAttributes, decoded⟩ := Except.bind_eq_ok.mp decoded
  refine ⟨tag, children, attributes, (Except.ok.inj decoded).symm, areChildren, ?_⟩
  intro raw others areOthers
  rw [decodeElement_eq, Assoc.get?_insert_of_ne (by decide), Assoc.get?_insert_self,
    Assoc.get?_insert_of_ne (by decide)]
  exact Except.bind_eq_ok.mpr ⟨tag, isTag, Except.bind_eq_ok.mpr ⟨others, areOthers,
    Except.bind_eq_ok.mpr ⟨raws, areRaws, Except.bind_eq_ok.mpr ⟨attributes, areAttributes, rfl⟩⟩⟩⟩

theorem decodeComponent_insert {path : Path} {members : Assoc String Json} {spine : Spine}
    (decoded : decodeComponent path members = .ok spine) :
    ∃ id name content behaviour, spine = .component id name content behaviour ∧
      (∀ raw, Assoc.get? "spine" members = some raw →
        decodePayload path raw = .ok (content, behaviour)) ∧
      (Assoc.get? "spine" members = none → content = .empty) ∧
      ∀ raw content' behaviour', decodePayload path raw = .ok (content', behaviour') →
        decodeComponent path (Assoc.insert "spine" raw members) =
          .ok (.component id name content' behaviour') := by
  rw [decodeComponent_eq] at decoded
  obtain ⟨id, isId, decoded⟩ := Except.bind_eq_ok.mp decoded
  have other (raw : Json) (content' : Spine) (behaviour' : Behaviour)
      (read : decodePayload path raw = .ok (content', behaviour')) :
      decodeComponent path (Assoc.insert "spine" raw members) = .ok (.component id
        (((Assoc.get? "displayName" members).bind Json.text?).getD "") content' behaviour') := by
    rw [decodeComponent_eq, Assoc.get?_insert_of_ne (by decide),
      Assoc.get?_insert_of_ne (by decide), Assoc.get?_insert_self]
    exact Except.bind_eq_ok.mpr ⟨id, isId, Except.bind_eq_ok.mpr ⟨_, read, rfl⟩⟩
  cases stored : Assoc.get? "spine" members with
  | none =>
      simp only [stored] at decoded
      exact ⟨id, _, .empty, _, (Except.ok.inj decoded).symm, by simp, fun _ => rfl, other⟩
  | some raw =>
      simp only [stored] at decoded
      obtain ⟨⟨content, behaviour⟩, read, decoded⟩ := Except.bind_eq_ok.mp decoded
      refine ⟨id, _, content, behaviour, (Except.ok.inj decoded).symm, ?_, by simp, other⟩
      rintro _ ⟨⟩
      exact read

theorem decodePayload_insert {path : Path} {members : Assoc String Json} {content : Spine}
    {behaviour : Behaviour}
    (decoded : decodePayload path (.object members) = .ok (content, behaviour)) :
    (∀ raw, Assoc.get? "spine" members = some raw → decode path raw = .ok content) ∧
      (Assoc.get? "spine" members = none → content = .empty) ∧
      ∀ raw other, decode path raw = .ok other →
        decodePayload path (.object (Assoc.insert "spine" raw members)) =
          .ok (other, behaviour) := by
  rw [decodePayload_eq] at decoded
  obtain ⟨inner, isInner, decoded⟩ := Except.bind_eq_ok.mp decoded
  obtain ⟨reacts, isBehaviour, decoded⟩ := Except.bind_eq_ok.mp decoded
  obtain ⟨rfl, rfl⟩ := Prod.mk.inj (Except.ok.inj decoded)
  unfold decodeContent at isInner
  refine ⟨?_, ?_, ?_⟩
  · intro raw stored
    simpa only [stored] using isInner
  · intro stored
    simp only [stored] at isInner
    exact (Except.ok.inj isInner).symm
  · intro raw other read
    rw [decodePayload_eq, Reading.behaviour_insert, isBehaviour]
    simp only [decodeContent, Assoc.get?_insert_self, read]
    rfl

variable {place : Path} {rawPayload : Json} {payload : Payload}

theorem eq_nil_of_decodeChildMember {path : Path} {member : Option Json}
    {children : List (UInt32 × Spine)} (decoded : decodeChildMember path member = .ok children)
    (noEntries : ∀ entries, member ≠ some (.array entries)) : children = [] := by
  unfold decodeChildMember at decoded
  split at decoded
  · exact (Except.ok.inj decoded).symm
  · exact (Except.ok.inj decoded).symm
  · rename_i entries
    exact absurd rfl (noEntries entries)
  · cases decoded

theorem eq_empty_of_decodePayload {path : Path} {raw : Json} {content : Spine}
    {behaviour : Behaviour} (decoded : decodePayload path raw = .ok (content, behaviour))
    (noObject : ∀ members, raw ≠ .object members) : content = .empty := by
  rw [decodePayload_eq] at decoded
  obtain ⟨inner, isInner, rest⟩ := Except.bind_eq_ok.mp decoded
  obtain ⟨reacts, -, rest⟩ := Except.bind_eq_ok.mp rest
  obtain ⟨rfl, -⟩ := Prod.mk.inj (Except.ok.inj rest)
  cases raw with
  | object members => exact absurd rfl (noObject members)
  | null | bool | number | string | array => exact (Except.ok.inj isInner).symm

theorem decode_withPayload_element {path : Path} {members : Assoc String Json} {spine : Spine}
    (shape : SpineShape.of members = .element) (decoded : decodeElement path members = .ok spine)
    {index : UInt32} {rest : List UInt32}
    (inside : ∀ entries, Assoc.get? "children" members = some (.array entries) →
      ∀ children, decodeChildren path entries = .ok children →
        decodeChildren path (Json.withChildPayload rawPayload index rest entries) =
          .ok (withChildPayload payload index rest children)) :
    decode path (Json.withPayload rawPayload (index :: rest) (.object members)) =
      .ok (spine.withPayload payload (index :: rest)) := by
  obtain ⟨tag, children, attributes, rfl, areChildren, other⟩ := decodeElement_insert decoded
  rw [Json.withPayload_element _ shape]
  split
  · rename_i entries stored
    rw [decode_object, SpineShape.of_insert (by decide) (by decide), shape]
    rw [stored] at areChildren
    exact other _ _ (inside entries stored children areChildren)
  · rename_i noEntries
    obtain rfl := eq_nil_of_decodeChildMember areChildren noEntries
    rw [decode_object, shape]
    exact decoded

theorem decode_withPayload_component_nil (read : Payload.decode place rawPayload = .ok payload)
    {members : Assoc String Json} {spine : Spine} (shape : SpineShape.of members = .component)
    (decoded : decodeComponent place members = .ok spine) :
    decode place (Json.withPayload rawPayload [] (.object members)) =
      .ok (spine.withPayload payload []) := by
  obtain ⟨id, name, content, behaviour, rfl, -, -, other⟩ := decodeComponent_insert decoded
  rw [Json.withPayload_component_nil _ shape, decode_object,
    SpineShape.of_insert (by decide) (by decide), shape]
  obtain ⟨⟨inner, reacts⟩, isPayload, same⟩ := Except.bind_eq_ok.mp read
  obtain rfl := Except.ok.inj same
  exact other _ _ _ isPayload

theorem decode_withPayload_component {path : Path} {members : Assoc String Json} {spine : Spine}
    (shape : SpineShape.of members = .component)
    (decoded : decodeComponent path members = .ok spine) {index : UInt32} {rest : List UInt32}
    (inside : ∀ inner raw, Assoc.get? "spine" members = some (.object inner) →
      Assoc.get? "spine" inner = some raw → ∀ content, decode path raw = .ok content →
        decode path (Json.withPayload rawPayload (index :: rest) raw) =
          .ok (content.withPayload payload (index :: rest))) :
    decode path (Json.withPayload rawPayload (index :: rest) (.object members)) =
      .ok (spine.withPayload payload (index :: rest)) := by
  obtain ⟨id, name, content, behaviour, rfl, stores, nothing, other⟩ :=
    decodeComponent_insert decoded
  have same : decode path (.object members) = .ok (.component id name content behaviour) := by
    rw [decode_object, shape]
    exact decoded
  rw [Json.withPayload_component _ shape]
  split
  · rename_i inner stored
    obtain ⟨stores', nothing', other'⟩ := decodePayload_insert (stores _ stored)
    split
    · rename_i raw isContent
      rw [decode_object, SpineShape.of_insert (by decide) (by decide), shape]
      exact other _ _ _ (other' _ _ (inside inner raw stored isContent content
        (stores' raw isContent)))
    · rename_i missing
      obtain rfl := nothing' missing
      exact same
  · rename_i noObject
    have empty : content = .empty := by
      cases stored : Assoc.get? "spine" members with
      | none => exact nothing stored
      | some raw =>
          refine eq_empty_of_decodePayload (stores raw stored) fun inner isObject => ?_
          exact noObject inner (isObject ▸ stored)
    subst empty
    exact same

mutual
/-- Another raw payload in the raw spine is the other payload in the spine. -/
theorem decode_withPayload (read : Payload.decode place rawPayload = .ok payload) {path : Path}
    {segments : List UInt32} (there : path.descend segments = place) (raw : Json) {spine : Spine}
    (decoded : decode path raw = .ok spine) :
    decode path (Json.withPayload rawPayload segments raw) =
      .ok (spine.withPayload payload segments) := by
  cases raw with
  | bool | number | array =>
      rw [decode] at decoded
      · cases decoded
      all_goals simp
  | null =>
      rw [decode] at decoded
      obtain rfl := Except.ok.inj decoded
      rw [Json.withPayload, decode]
      · rfl
      · simp
  | string written =>
      rw [decode] at decoded
      obtain rfl := Except.ok.inj decoded
      rw [Json.withPayload, decode]
      · rfl
      · simp
  | object members =>
      rw [decode_object] at decoded
      cases shape : SpineShape.of members with
      | unknown found =>
          rw [shape] at decoded
          cases decoded
      | element =>
          simp only [shape] at decoded
          cases segments with
          | nil =>
              obtain ⟨tag, children, attributes, rfl, -⟩ := decodeElement_insert decoded
              rw [Json.withPayload_element_nil _ shape, decode_object, shape]
              exact decoded
          | cons index rest =>
              refine decode_withPayload_element shape decoded fun entries stored children among => ?_
              have := Assoc.sizeOf_get?_lt stored
              exact decodeChildren_withPayload read there entries among
      | component =>
          simp only [shape] at decoded
          cases segments with
          | nil =>
              obtain rfl : path = place := by simpa [Path.descend] using there
              exact decode_withPayload_component_nil read shape decoded
          | cons index rest =>
              refine decode_withPayload_component shape decoded
                fun inner raw stored isContent content among => ?_
              have := Assoc.sizeOf_get?_lt stored
              have := Assoc.sizeOf_get?_lt isContent
              exact decode_withPayload read there raw among
termination_by sizeOf raw
decreasing_by
  all_goals simp_all only [Json.object.sizeOf_spec, Json.array.sizeOf_spec]
  all_goals omega

theorem decodeChildren_withPayload (read : Payload.decode place rawPayload = .ok payload)
    {path : Path} {index : UInt32} {rest : List UInt32}
    (there : path.descend (index :: rest) = place) (entries : List Json)
    {children : List (UInt32 × Spine)} (decoded : decodeChildren path entries = .ok children) :
    decodeChildren path (Json.withChildPayload rawPayload index rest entries) =
      .ok (withChildPayload payload index rest children) := by
  match entries with
  | [] =>
      rw [decodeChildren] at decoded
      obtain rfl := Except.ok.inj decoded
      rw [Json.withChildPayload, decodeChildren]
      rfl
  | .array [key, raw] :: others =>
      rw [decodeChildren] at decoded
      cases isIndex : key.toUInt32? with
      | none =>
          rw [isIndex] at decoded
          cases decoded
      | some first =>
          simp only [isIndex] at decoded
          obtain ⟨child, isChild, decoded⟩ := Except.bind_eq_ok.mp decoded
          obtain ⟨later, areLater, decoded⟩ := Except.bind_eq_ok.mp decoded
          obtain rfl := Except.ok.inj decoded
          rw [Json.withChildPayload, withChildPayload, isIndex]
          by_cases here : first = index
          · subst here
            have inside := decode_withPayload read (Path.descend_child path first rest ▸ there)
              raw isChild
            rw [if_pos rfl, if_pos rfl, decodeChildren]
            simp only [isIndex]
            exact Except.bind_eq_ok.mpr ⟨_, inside, Except.bind_eq_ok.mpr ⟨_, areLater, rfl⟩⟩
          · have after := decodeChildren_withPayload read there others areLater
            rw [if_neg (by simpa using here), if_neg here, decodeChildren]
            simp only [isIndex]
            exact Except.bind_eq_ok.mpr ⟨_, isChild, Except.bind_eq_ok.mpr ⟨_, after, rfl⟩⟩
  | .null :: _ | .bool _ :: _ | .number _ :: _ | .string _ :: _ | .object _ :: _ |
    .array [] :: _ | .array [_] :: _ | .array (_ :: _ :: _ :: _) :: _ =>
      rw [decodeChildren] at decoded
      · cases decoded
      · simp
termination_by sizeOf entries
end

end Spine

end RemoteView
