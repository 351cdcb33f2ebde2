import RemoteView.Proofs.Spine.Payload

/-! # Faults deep in a spine

A raw spine can be read only if every node in it can be read. Whether a node can be read does not
depend on where it stands; only the error says where it was.
-/

namespace RemoteView

/-- A raw spine holds a node: the spine is the node, or one of its children holds it, or it is a
    component whose content holds it. -/
inductive Json.Holds (node : Json) : Json → Prop where
  | here : Holds node node
  | child {members : Assoc String Json} {entries : List Json} {key child : Json}
      (shape : SpineShape.of members = .element)
      (stored : Assoc.get? "children" members = some (.array entries))
      (entry : .array [key, child] ∈ entries) (inside : Holds node child) :
      Holds node (.object members)
  | content {members : Assoc String Json} {payload content : Json}
      (shape : SpineShape.of members = .component)
      (stored : Assoc.get? "spine" members = some payload)
      (rendered : payload.get? "spine" = some content) (inside : Holds node content) :
      Holds node (.object members)

/-- Some node of a raw spine cannot be read. -/
def Json.IsFaulty (raw : Json) : Prop :=
  ∃ node, Holds node raw ∧ ∃ path error, Spine.decode path node = .error error

/-- A raw payload cannot be read, or some node of its content cannot. -/
def Json.IsFaultyPayload (raw : Json) : Prop :=
  (∃ path error, Payload.decode path raw = .error error) ∨
    ∃ content, raw.get? "spine" = some content ∧ content.IsFaulty

theorem Reading.placed_eq_ok {α : Type} {path : Path} {reading : Reading α} {value : α} :
    reading.placed path = .ok value ↔ reading = .ok value := by
  cases reading <;> simp [placed]

theorem Except.pure_eq_ok {ε α : Type} {value result : α} :
    (pure value : Except ε α) = .ok result ↔ value = result := by
  simp [pure, Except.pure]

theorem Json.sizeOf_get?_lt {name : String} {raw value : Json}
    (found : raw.get? name = some value) : sizeOf value < sizeOf raw := by
  cases raw with
  | null | bool | number | string | array => cases found
  | object members =>
      have := Assoc.sizeOf_get?_lt found
      simp only [Json.object.sizeOf_spec]
      omega

namespace Spine

variable {path : Path} {members : Assoc String Json} {spine : Spine}

/-! ## What can be read, part by part -/

theorem decodeElement_eq_ok : decodeElement path members = .ok spine ↔
    ∃ tag, Reading.expect .elementTag ((Assoc.get? "tag" members).bind Json.text?) = .ok tag ∧
      ∃ children, decodeChildMember path (Assoc.get? "children" members) = .ok children ∧
        ∃ raws, Reading.optionalItems .attributes (Assoc.get? "attributes" members) = .ok raws ∧
          ∃ attributes, raws.mapM Reading.nodeAttribute = .ok attributes ∧
            .element tag children attributes = spine := by
  simp only [decodeElement_eq, Except.bind_eq_ok, Reading.placed_eq_ok, Except.pure_eq_ok]

theorem decodeContent_eq (path : Path) (raw : Json) : decodeContent path raw =
    match raw.get? "spine" with
    | none => .ok .empty
    | some content => decode path content := by
  cases raw <;> rfl

theorem decodePayload_eq_ok {raw : Json} {content : Spine} {behaviour : Behaviour} :
    decodePayload path raw = .ok (content, behaviour) ↔
      decodeContent path raw = .ok content ∧ Reading.behaviour raw = .ok behaviour := by
  simp only [decodePayload_eq, Except.bind_eq_ok, Reading.placed_eq_ok, Except.pure_eq_ok,
    Prod.mk.injEq]
  grind

/-- The payload member of a component; without one it renders and does nothing. -/
def decodePayloadMember (path : Path) : Option Json → Except SpineError (Spine × Behaviour)
  | none => .ok (.empty, ⟨[], [], []⟩)
  | some raw => decodePayload path raw

theorem decodeComponent_eq_ok : decodeComponent path members = .ok spine ↔
    ∃ id, Reading.expect .componentId ((Assoc.get? "id" members).bind Json.toUInt64?) = .ok id ∧
      ∃ content behaviour,
        decodePayloadMember path (Assoc.get? "spine" members) = .ok (content, behaviour) ∧
          .component id (((Assoc.get? "displayName" members).bind Json.text?).getD "") content
            behaviour = spine := by
  simp only [decodeComponent_eq, Except.bind_eq_ok, Reading.placed_eq_ok]
  cases Assoc.get? "spine" members with
  | none => simp [decodePayloadMember, Except.pure_eq_ok]
  | some raw =>
      simp only [decodePayloadMember, Except.bind_eq_ok, Except.pure_eq_ok, Prod.exists]

theorem decodeChildren_cons_eq_ok {entry : Json} {rest : List Json}
    {children : List (UInt32 × Spine)} :
    decodeChildren path (entry :: rest) = .ok children ↔
      ∃ key raw index child others, entry = .array [key, raw] ∧ key.toUInt32? = some index ∧
        decode (path.child index) raw = .ok child ∧ decodeChildren path rest = .ok others ∧
          (index, child) :: others = children := by
  match entry with
  | .array [key, raw] =>
      rw [decodeChildren]
      cases isIndex : key.toUInt32? with
      | none => simp [isIndex]
      | some index =>
          simp only [Except.bind_eq_ok, Except.pure_eq_ok]
          grind
  | .null | .bool _ | .number _ | .string _ | .object _ | .array [] | .array [_] |
    .array (_ :: _ :: _ :: _) =>
      rw [decodeChildren]
      · simp
      · simp

/-! ## Every node -/

theorem decodePayload_anywhere_of {other : Path} {raw : Json} {result : Spine × Behaviour}
    (inside : ∀ content, raw.get? "spine" = some content → ∀ spine,
      decode path content = .ok spine → decode other content = .ok spine)
    (decoded : decodePayload path raw = .ok result) : decodePayload other raw = .ok result := by
  obtain ⟨isContent, reacts⟩ := decodePayload_eq_ok.mp decoded
  apply decodePayload_eq_ok.mpr
  rw [decodeContent_eq] at isContent ⊢
  refine ⟨?_, reacts⟩
  cases rendered : raw.get? "spine" with
  | none =>
      rw [rendered] at isContent
      exact isContent
  | some content =>
      simp only [rendered] at isContent
      exact inside content rendered _ isContent

mutual
/-- What a node is read as does not depend on where it stands. -/
theorem decode_anywhere (other : Path) (raw : Json) {path : Path} {spine : Spine}
    (decoded : decode path raw = .ok spine) : decode other raw = .ok spine := by
  cases raw with
  | bool | number | array =>
      rw [decode] at decoded
      · cases decoded
      all_goals simp
  | null | string =>
      rw [decode] at decoded ⊢
      exact decoded
  | object members =>
      rw [decode_object] at decoded ⊢
      cases shape : SpineShape.of members with
      | unknown found =>
          rw [shape] at decoded
          cases decoded
      | element =>
          simp only [shape] at decoded ⊢
          obtain ⟨tag, isTag, children, areChildren, rest⟩ := decodeElement_eq_ok.mp decoded
          have areThere : decodeChildMember other (Assoc.get? "children" members) =
              .ok children := by
            unfold decodeChildMember at areChildren ⊢
            split at areChildren
            · exact areChildren
            · exact areChildren
            · rename_i entries stored
              have := Assoc.sizeOf_get?_lt stored
              exact decodeChildren_anywhere other entries areChildren
            · cases areChildren
          exact decodeElement_eq_ok.mpr ⟨tag, isTag, children, areThere, rest⟩
      | component =>
          simp only [shape] at decoded ⊢
          obtain ⟨id, isId, content, behaviour, isPayload, rest⟩ :=
            decodeComponent_eq_ok.mp decoded
          have isThere : decodePayloadMember other (Assoc.get? "spine" members) =
              .ok (content, behaviour) := by
            cases stored : Assoc.get? "spine" members with
            | none =>
                rw [stored] at isPayload
                exact isPayload
            | some payload =>
                rw [stored] at isPayload
                have := Assoc.sizeOf_get?_lt stored
                refine decodePayload_anywhere_of (fun raw rendered spine isContent => ?_) isPayload
                have := Json.sizeOf_get?_lt rendered
                exact decode_anywhere other raw isContent
          exact decodeComponent_eq_ok.mpr ⟨id, isId, content, behaviour, isThere, rest⟩
termination_by sizeOf raw
decreasing_by
  all_goals simp_all only [Json.object.sizeOf_spec, Json.array.sizeOf_spec]
  all_goals omega

theorem decodeChildren_anywhere (other : Path) (entries : List Json) {path : Path}
    {children : List (UInt32 × Spine)} (decoded : decodeChildren path entries = .ok children) :
    decodeChildren other entries = .ok children := by
  cases entries with
  | nil =>
      rw [decodeChildren] at decoded ⊢
      exact decoded
  | cons entry rest =>
      obtain ⟨key, raw, index, child, others, rfl, isIndex, isChild, areOthers, same⟩ :=
        decodeChildren_cons_eq_ok.mp decoded
      have here := decode_anywhere (other.child index) raw isChild
      have after := decodeChildren_anywhere other rest areOthers
      exact decodeChildren_cons_eq_ok.mpr
        ⟨key, raw, index, child, others, rfl, isIndex, here, after, same⟩
termination_by sizeOf entries
end

theorem decode_of_mem_entries {entries : List Json} {children : List (UInt32 × Spine)}
    (decoded : decodeChildren path entries = .ok children) {key raw : Json}
    (entry : .array [key, raw] ∈ entries) :
    ∃ index child, decode (path.child index) raw = .ok child := by
  induction entries generalizing children with
  | nil => cases entry
  | cons first rest ih =>
      obtain ⟨_, _, index, child, others, rfl, -, isChild, areOthers, -⟩ :=
        decodeChildren_cons_eq_ok.mp decoded
      rcases List.mem_cons.mp entry with same | later
      · obtain ⟨rfl, rfl⟩ : key = _ ∧ raw = _ := by simpa using same
        exact ⟨index, child, isChild⟩
      · exact ih areOthers later

theorem decode_of_holds {node raw : Json} (held : Json.Holds node raw)
    (decoded : decode path raw = .ok spine) (other : Path) :
    ∃ inner, decode other node = .ok inner := by
  induction held generalizing path spine with
  | here => exact ⟨spine, decode_anywhere other _ decoded⟩
  | child shape stored entry inside ih =>
      rw [decode_object, shape] at decoded
      obtain ⟨tag, -, children, areChildren, -⟩ := decodeElement_eq_ok.mp decoded
      rw [stored] at areChildren
      obtain ⟨index, child, isChild⟩ := decode_of_mem_entries areChildren entry
      exact ih isChild
  | content shape stored rendered inside ih =>
      rw [decode_object, shape] at decoded
      obtain ⟨id, -, content, behaviour, isPayload, -⟩ := decodeComponent_eq_ok.mp decoded
      rw [stored] at isPayload
      obtain ⟨isContent, -⟩ := decodePayload_eq_ok.mp isPayload
      rw [decodeContent_eq] at isContent
      simp only [rendered] at isContent
      exact ih isContent

/-- One node that cannot be read is enough: the spine cannot be read either. -/
theorem decode_of_isFaulty {raw : Json} (faulty : raw.IsFaulty) (path : Path) :
    ∃ error, decode path raw = .error error := by
  obtain ⟨node, held, place, fault, fails⟩ := faulty
  cases decoded : decode path raw with
  | error error => exact ⟨error, rfl⟩
  | ok spine =>
      obtain ⟨inner, reads⟩ := decode_of_holds held decoded place
      rw [fails] at reads
      cases reads

end Spine

theorem Payload.decode_eq_ok {path : Path} {raw : Json} {payload : Payload} :
    Payload.decode path raw = .ok payload ↔
      Spine.decodePayload path raw = .ok (payload.content, payload.behaviour) := by
  obtain ⟨content, behaviour⟩ := payload
  simp only [Payload.decode, Except.bind_eq_ok, Except.pure_eq_ok, Prod.exists, Payload.mk.injEq]
  grind

/-- A fault of the payload itself or of a node in its content: the payload cannot be read. -/
theorem Payload.decode_of_isFaultyPayload {raw : Json} (faulty : raw.IsFaultyPayload)
    (path : Path) : ∃ error, Payload.decode path raw = .error error := by
  cases decoded : Payload.decode path raw with
  | error error => exact ⟨error, rfl⟩
  | ok payload =>
      have isPayload := Payload.decode_eq_ok.mp decoded
      rcases faulty with ⟨place, fault, fails⟩ | ⟨content, rendered, faulty⟩
      · have reads : Payload.decode place raw = .ok payload :=
          Payload.decode_eq_ok.mpr (Spine.decodePayload_anywhere_of
            (fun content _ _ => Spine.decode_anywhere place content) isPayload)
        rw [fails] at reads
        cases reads
      · obtain ⟨isContent, -⟩ := Spine.decodePayload_eq_ok.mp isPayload
        rw [Spine.decodeContent_eq] at isContent
        simp only [rendered] at isContent
        obtain ⟨error, fails⟩ := Spine.decode_of_isFaulty faulty path
        rw [fails] at isContent
        cases isContent

end RemoteView
