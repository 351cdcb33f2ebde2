import RemoteView.Proofs.Expr.RoundTrip
import RemoteView.Proofs.Spine.Payload
import RemoteView.Spine.Encode

/-! # Reading what was written: spines

Every part of a spine can be read off its written form again, wherever it stands. No reader looks at
a slot that another part is written to, and nothing that is left out has a default of its own.
-/

namespace RemoteView

@[simp] theorem Except.ok_bind {ε α β : Type} (value : α) (next : α → Except ε β) :
    ((.ok value : Except ε α) >>= next) = next value := rfl

theorem Except.mapM_map_eq_ok {ε α β : Type} {read : β → Except ε α} {write : α → β}
    (inverse : ∀ a, read (write a) = .ok a) (as : List α) : (as.map write).mapM read = .ok as := by
  induction as with
  | nil => rfl
  | cons a as ih =>
      rw [List.map_cons, List.mapM_cons, inverse, ih]
      rfl

namespace Reading

@[simp] theorem expr_encode (e : Expr) : expr e.encode = .ok e := by
  rw [expr, Expr.decode_encode]

@[simp] theorem functionId_toJson (fid : FunctionId) : functionId fid.toJson = .ok fid := by
  rw [functionId, FunctionId.ofJson?_toJson]
  rfl

@[simp] theorem text_string (part : SpinePart) (written : String) :
    text part (.string written) = .ok written := rfl

theorem condition_encode (written : Condition) : condition written.encode = .ok written := by
  obtain ⟨kind, predicate⟩ := written
  cases kind <;> rfl

theorem descriptor_encode (written : StyleDescriptor) :
    descriptor written.encode = .ok written := by
  cases written with
  | fontFace hash body => rfl
  | rule hash conditions suffixes body =>
      have areConditions := Except.mapM_map_eq_ok condition_encode conditions
      have areSuffixes := Except.mapM_map_eq_ok (text_string .styleSuffix) suffixes
      have isRule : (Json.ofUInt64 1).toUInt64? = some 1 := rfl
      simp only [StyleDescriptor.encode, descriptor, Reading.hash, isRule, Json.items?, expect,
        Except.ok_bind, areConditions, areSuffixes]
      rfl

theorem style_encode (written : Style) : style written.encode = .ok written := by
  cases written with
  | inlined body => rfl
  | rules descriptors =>
      have areDescriptors := Except.mapM_map_eq_ok descriptor_encode descriptors
      simp only [Style.encode, style, areDescriptors]
      rfl

theorem ref_encode (written : RefAttribute) : ref written.encode = .ok written := by
  obtain ⟨key, attach, detach⟩ := written
  cases key with
  | none =>
      simp [RefAttribute.encode, ref, Json.get?, Assoc.get?, refKey]
  | some key =>
      simp [RefAttribute.encode, ref, Json.get?, Assoc.get?, refKey]

theorem listener_encode (written : Listener) : listener written.encode = .ok written := by
  simp only [Listener.encode, listener, functionId_toJson, text_string, expr_encode]
  rfl

theorem nodeAttribute_encode (written : Attribute) :
    nodeAttribute written.encode = .ok written := by
  cases written with
  | value name written => rfl
  | listener written =>
      simp [Attribute.encode, nodeAttribute, operand, listener_encode]
  | style written =>
      simp [Attribute.encode, nodeAttribute, operand, style_encode]
  | ref written =>
      simp [Attribute.encode, nodeAttribute, operand, ref_encode]

theorem windowListener_encode (written : WindowListener) :
    windowListener written.encode = .ok written := by
  obtain ⟨fid, event, handler⟩ := written
  cases handler with
  | none =>
      simp [WindowListener.encode, windowListener]
  | some handler =>
      simp [WindowListener.encode, windowListener]

theorem hooks_encode {name : String} (alternative : String) {members : Assoc String Json}
    {written : List Expr}
    (stored : Assoc.get? name members = some (.array (written.map Expr.encode))) :
    hooks name alternative (some (.object members)) = .ok written := by
  have areHooks := Except.mapM_map_eq_ok expr_encode written
  simp only [hooks, Option.bind_some, Json.get?, stored, Option.some_or, areHooks]

theorem behaviour_encode (content : Json) (written : Behaviour) :
    behaviour (.object (("spine", content) :: written.members)) = .ok written := by
  obtain ⟨listeners, onMount, onUnmount⟩ := written
  have areListeners := Except.mapM_map_eq_ok windowListener_encode listeners
  let written : Assoc String Json :=
    [("componentDidMount", .array (onMount.map Expr.encode)),
      ("componentWillUnmount", .array (onUnmount.map Expr.encode))]
  have mounting : hooks "componentDidMount" "onMount" (some (.object written)) = .ok onMount :=
    hooks_encode _ rfl
  have unmounting : hooks "componentWillUnmount" "onUnmount" (some (.object written)) =
      .ok onUnmount := hooks_encode _ rfl
  calc
    _ = ((listeners.map WindowListener.encode).mapM windowListener >>= fun listeners => do
          let onMount ← hooks "componentDidMount" "onMount" (some (.object written))
          let onUnmount ← hooks "componentWillUnmount" "onUnmount" (some (.object written))
          return (⟨listeners, onMount, onUnmount⟩ : Behaviour)) := rfl
    _ = _ := by
      rw [areListeners, mounting, unmounting]
      rfl

end Reading

namespace Spine

theorem decodePayload_members {path : Path} {raw : Json} {content : Spine}
    (isContent : decode path raw = .ok content) (behaviour : Behaviour) :
    decodePayload path (.object (("spine", raw) :: behaviour.members)) =
      .ok (content, behaviour) := by
  rw [decodePayload_eq, Reading.behaviour_encode, decodeContent, Assoc.get?]
  simp only [if_true, isContent]
  rfl

mutual
/-- Reading a written spine gives it back, wherever it stands. -/
theorem decode_encode (spine : Spine) (path : Path) : decode path spine.encode = .ok spine := by
  cases spine with
  | empty | text =>
      simp only [encode]
      rw [decode]
  | element tag children attributes =>
      have areChildren := decodeChildren_encodeChildren children path
      have areAttributes := Except.mapM_map_eq_ok Reading.nodeAttribute_encode attributes
      rw [encode, decode_object, show SpineShape.of _ = .element from rfl]
      simp only [decodeElement_eq]
      apply Except.bind_eq_ok.mpr
      refine ⟨tag, rfl, ?_⟩
      apply Except.bind_eq_ok.mpr
      refine ⟨children, areChildren, ?_⟩
      apply Except.bind_eq_ok.mpr
      refine ⟨attributes.map Attribute.encode, rfl, ?_⟩
      rw [areAttributes]
      rfl
  | component id name content behaviour =>
      have isContent := decode_encode content path
      have isPayload := decodePayload_members isContent behaviour
      rw [encode, decode_object, show SpineShape.of _ = .component from rfl]
      simp only [decodeComponent_eq]
      apply Except.bind_eq_ok.mpr
      refine ⟨id, ?_, ?_⟩
      · show Reading.placed path (Reading.expect _ (Json.ofUInt64 id).toUInt64?) = _
        rw [Json.toUInt64?_ofUInt64]
        rfl
      · apply Except.bind_eq_ok.mpr
        exact ⟨(content, behaviour), isPayload, rfl⟩
termination_by sizeOf spine

theorem decodeChildren_encodeChildren (children : List (UInt32 × Spine)) (path : Path) :
    decodeChildren path (encodeChildren children) = .ok children := by
  cases children with
  | nil => rw [encodeChildren, decodeChildren]
  | cons entry rest =>
      obtain ⟨index, child⟩ := entry
      have isChild := decode_encode child (path.child index)
      have areRest := decodeChildren_encodeChildren rest path
      rw [encodeChildren, decodeChildren]
      simp only [Json.toUInt32?_ofUInt32, isChild, areRest]
      rfl
termination_by sizeOf children
end

end Spine

theorem Payload.decode_encode (payload : Payload) (path : Path) :
    Payload.decode path payload.encode = .ok payload := by
  have isContent := Spine.decode_encode payload.content path
  have isPayload := Spine.decodePayload_members isContent payload.behaviour
  rw [Payload.decode, Payload.encode, isPayload]
  rfl

/-- Reading undoes writing on the whole format: for every spine and every payload at every position,
    and for every expression. -/
theorem reading_undoes_writing :
    (∀ (spine : Spine) (path : Path), Spine.decode path spine.encode = .ok spine) ∧
      (∀ (payload : Payload) (path : Path), Payload.decode path payload.encode = .ok payload) ∧
      ∀ e : Expr, Expr.decode e.encode = .ok e :=
  ⟨Spine.decode_encode, Payload.decode_encode, Expr.decode_encode⟩

end RemoteView
