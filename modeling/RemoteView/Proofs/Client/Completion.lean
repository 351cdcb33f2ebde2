import Mathlib
import RemoteView.Proofs.Client.Addressing
import RemoteView.Proofs.Client.Atomicity
import RemoteView.Proofs.Client.Lifecycle

/-! # What is read in place of a malformed node or payload

Some values that are not of the documented form are read nevertheless: an element with a type that
is no text, a payload that is no object or has no content, and hooks that are no object. Each of
them is read as a value of the documented form, in which the part that is wrong is as good as
absent. So a component that is given a payload without content is emptied.
-/

namespace RemoteView

/-! ## The documented forms -/

/-- A node says what it is: its type is that of an element or of a component, or it has a tag and no
    type. -/
def SpineShape.IsStated (members : Assoc String Json) : Prop :=
  Assoc.get? "type" members = some (.string "Node") ∨
    Assoc.get? "type" members = some (.string "Component") ∨
    Assoc.get? "type" members = none ∧ Assoc.contains "tag" members

namespace Json

/-- A payload is an object with content, and its hooks are an object if there are any. -/
def IsPayload (raw : Json) : Prop :=
  ∃ members, raw = .object members ∧ Assoc.contains "spine" members ∧
    ∀ hooks, Assoc.get? "hooks" members = some hooks →
      hooks = .null ∨ ∃ inner, hooks = .object inner

/-- The members of a node where a type that is no text does not count. -/
def typed (members : Assoc String Json) : Assoc String Json :=
  match Assoc.get? "type" members with
  | none | some (.string _) => members
  | some _ =>
      if Assoc.contains "tag" members then Assoc.insert "type" (.string "Node") members else members

/-- The members of a payload where hooks that are no object do not count. -/
def withHooks (members : Assoc String Json) : Assoc String Json :=
  match Assoc.get? "hooks" members with
  | none | some .null | some (.object _) => members
  | some _ => Assoc.insert "hooks" .null members

/-- The members of a payload that renders nothing unless it has content. -/
def withContent (members : Assoc String Json) : Assoc String Json :=
  if Assoc.contains "spine" members then members else Assoc.insert "spine" .null members

/-- The payload as which a value is read. -/
def asPayload (raw : Json) : Json := .object (withContent (withHooks (raw.members?.getD [])))

/-- The members of a component with a payload in the documented form. -/
def withReference (members : Assoc String Json) : Assoc String Json :=
  Assoc.insert "spine" ((Assoc.get? "spine" members).getD .null).asPayload members

theorem get?_eq (name : String) (raw : Json) :
    raw.get? name = Assoc.get? name (raw.members?.getD []) := by
  cases raw <;> rfl

theorem get?_withHooks {name : String} (differs : name ≠ "hooks") (members : Assoc String Json) :
    Assoc.get? name (withHooks members) = Assoc.get? name members := by
  unfold withHooks
  split
  · rfl
  · rfl
  · rfl
  · exact Assoc.get?_insert_of_ne differs _ _

theorem get?_withContent {name : String} (differs : name ≠ "spine") (members : Assoc String Json) :
    Assoc.get? name (withContent members) = Assoc.get? name members := by
  unfold withContent
  split
  · rfl
  · exact Assoc.get?_insert_of_ne differs _ _

theorem isPayload_asPayload (raw : Json) : raw.asPayload.IsPayload := by
  refine ⟨_, rfl, ?_, fun hooks found => ?_⟩
  · unfold withContent
    split
    · rename_i present
      exact present
    · simp [Assoc.contains]
  · rw [get?_withContent (by decide)] at found
    unfold withHooks at found
    split at found
    · rename_i absent
      rw [absent] at found
      cases found
    · rename_i isNull
      exact .inl (Option.some.inj (found.symm.trans isNull))
    · rename_i inner isObject
      exact .inr ⟨inner, Option.some.inj (found.symm.trans isObject)⟩
    · rw [Assoc.get?_insert_self] at found
      exact .inl (Option.some.inj found).symm

theorem asPayload_of_isPayload {raw : Json} (shaped : raw.IsPayload) : raw.asPayload = raw := by
  obtain ⟨members, rfl, content, hooks⟩ := shaped
  have same : withHooks members = members := by
    unfold withHooks
    split
    · rfl
    · rfl
    · rfl
    · rename_i other notNull notObject found
      rcases hooks other found with rfl | ⟨inner, rfl⟩
      · exact absurd rfl notNull
      · exact absurd rfl (notObject inner)
  rw [asPayload, members?, Option.getD_some, same, withContent, if_pos content]

theorem typed_of_isStated {members : Assoc String Json} (stated : SpineShape.IsStated members) :
    typed members = members := by
  unfold typed
  rcases stated with type | type | ⟨type, -⟩
  all_goals simp only [type]

end Json

/-! ## What is read -/

theorem SpineShape.of_untyped {members : Assoc String Json}
    (untyped : (Assoc.get? "type" members).bind Json.text? = none) : of members =
      if Assoc.contains "tag" members then .element else .unknown "object without type" := by
  rw [of, untyped]

theorem SpineShape.isStated_typed {members : Assoc String Json}
    (known : ∀ found, of members ≠ .unknown found) : IsStated (Json.typed members) := by
  -- Without a type that is a text, only a tag makes the shape known.
  have tagged (untyped : (Assoc.get? "type" members).bind Json.text? = none) :
      Assoc.contains "tag" members := by
    by_contra without
    exact known _ (by rw [of_untyped untyped, if_neg without])
  unfold Json.typed
  split
  · rename_i absent
    exact .inr (.inr ⟨absent, tagged (by rw [absent]; rfl)⟩)
  · rename_i text isText
    by_cases isNode : text = "Node"
    · exact .inl (isNode ▸ isText)
    · by_cases isComponent : text = "Component"
      · exact .inr (.inl (isComponent ▸ isText))
      · refine absurd ?_ (known text)
        rw [of, isText, Option.bind_some, Json.text?]
        simp
  · rename_i type notText found
    have untyped : type.text? = none := by
      cases type with
      | string text => exact absurd rfl (notText text)
      | _ => rfl
    rw [if_pos (tagged (by rw [found]; exact untyped))]
    exact .inl (Assoc.get?_insert_self _ _ _)

theorem Reading.hooks_of_no_object {hooks : Json} (noObject : ∀ inner, hooks ≠ .object inner)
    (name alternative : String) :
    Reading.hooks name alternative (some hooks) = Reading.hooks name alternative (some .null) := by
  cases hooks with
  | object inner => exact absurd rfl (noObject inner)
  | _ => rfl

theorem Reading.behaviour_asPayload (raw : Json) :
    Reading.behaviour raw.asPayload = Reading.behaviour raw := by
  have listeners : raw.asPayload.get? "eventListeners" = raw.get? "eventListeners" := by
    rw [raw.get?_eq, Json.asPayload, Json.get?, Json.get?_withContent (by decide),
      Json.get?_withHooks (by decide)]
  have hooks (name alternative : String) :
      Reading.hooks name alternative (raw.asPayload.get? "hooks") =
        Reading.hooks name alternative (raw.get? "hooks") := by
    rw [raw.get?_eq, Json.asPayload, Json.get?, Json.get?_withContent (by decide)]
    unfold Json.withHooks
    split
    · rfl
    · rfl
    · rfl
    · rename_i other notNull notObject found
      rw [Assoc.get?_insert_self, found]
      exact (hooks_of_no_object notObject name alternative).symm
  simp only [Reading.behaviour, listeners, hooks]

namespace Spine

variable (path : Path)

theorem decode_typed (members : Assoc String Json) :
    decode path (.object (Json.typed members)) = decode path (.object members) := by
  unfold Json.typed
  split
  · rfl
  · rfl
  · rename_i type notText found
    split
    · rename_i tagged
      have shape : SpineShape.of members = .element := by
        have untyped : type.text? = none := by
          cases type with
          | string text => exact absurd rfl (notText text)
          | _ => rfl
        rw [SpineShape.of_untyped (by rw [found]; exact untyped), if_pos tagged]
      have typed : SpineShape.of (Assoc.insert "type" (.string "Node") members) = .element := by
        rw [SpineShape.of, Assoc.get?_insert_self]
        rfl
      simp only [decode_object, shape, typed, decodeElement_eq]
      rw [Assoc.get?_insert_of_ne (by decide), Assoc.get?_insert_of_ne (by decide),
        Assoc.get?_insert_of_ne (by decide)]
    · rfl

/-- An object that can be read says what it is, except that its type may be no text. -/
theorem isStated_typed_of_decode {members : Assoc String Json} {spine : Spine}
    (decoded : decode path (.object members) = .ok spine) :
    SpineShape.IsStated (Json.typed members) := by
  apply SpineShape.isStated_typed
  intro found shape
  rw [decode_object, shape] at decoded
  cases decoded

/-- What is wrong with the form of a payload is as good as absent. -/
theorem decodePayload_asPayload (raw : Json) :
    decodePayload path raw.asPayload = decodePayload path raw := by
  have content : decodeContent path raw.asPayload = decodeContent path raw := by
    rw [decodeContent_eq, decodeContent_eq, raw.get?_eq, ← Json.get?_withHooks (by decide),
      Json.asPayload, Json.get?, Json.withContent]
    by_cases present : Assoc.contains "spine" (Json.withHooks (raw.members?.getD []))
    · rw [if_pos present]
    · -- Content that is null renders nothing, and so does no content.
      rw [if_neg present, Assoc.get?_insert_self, Option.not_isSome_iff_eq_none.mp present]
      exact decode.eq_1 path
  rw [decodePayload_eq, decodePayload_eq, content, Reading.behaviour_asPayload]

theorem decodePayload_of_no_object {raw : Json} (noObject : ∀ members, raw ≠ .object members) :
    decodePayload path raw = .ok (.empty, ⟨[], [], []⟩) := by
  cases raw with
  | object members => exact absurd rfl (noObject members)
  | null | bool | number | string | array => rw [decodePayload_eq]; rfl

theorem decode_withReference {members : Assoc String Json}
    (shape : SpineShape.of members = .component) :
    decode path (.object (Json.withReference members)) = decode path (.object members) := by
  unfold Json.withReference
  simp only [decode_object, SpineShape.of_insert (show "type" ≠ "spine" by decide) (by decide),
    shape, decodeComponent_eq, Assoc.get?_insert_self, decodePayload_asPayload,
    Assoc.get?_insert_of_ne (show "id" ≠ "spine" by decide),
    Assoc.get?_insert_of_ne (show "displayName" ≠ "spine" by decide)]
  cases Assoc.get? "spine" members with
  | none => rw [Option.getD_none, decodePayload_of_no_object path (by simp)]; rfl
  | some raw => rfl

end Spine

namespace Payload

variable {path : Path} {raw : Json}

theorem decode_asPayload (path : Path) (raw : Json) :
    decode path raw.asPayload = decode path raw := by
  rw [decode, Spine.decodePayload_asPayload, decode]

theorem decode_of_no_object (noObject : ∀ members, raw ≠ .object members) :
    decode path raw = .ok .empty := by
  rw [decode, Spine.decodePayload_of_no_object path noObject]
  rfl

theorem content_eq_empty {payload : Payload} (without : raw.get? "spine" = none)
    (decoded : decode path raw = .ok payload) : payload.content = .empty := by
  have isContent := (Spine.decodePayload_eq_ok.mp (decode_eq_ok.mp decoded)).1
  rw [Spine.decodeContent_eq, without] at isContent
  exact (Except.ok.inj isContent).symm

end Payload

/-! ## Emptied components -/

namespace Mounted

mutual
/-- The components in a tree, by their numbers, with what they show. -/
def contents : Mounted → List (InstanceId × Mounted)
  | .empty => []
  | .text _ => []
  | .element _ children => childContents children
  | .component identity child => (identity.id, child) :: contents child

/-- The components in a list of trees, by their numbers, with what they show. -/
def childContents : List Mounted → List (InstanceId × Mounted)
  | [] => []
  | child :: rest => contents child ++ childContents rest
end

theorem reconcile_empty (site : Site) (old : Mounted) (supply : Supply) :
    (reconcile site old .empty supply).value = .empty := by
  cases old <;> rfl

theorem rerender_empties (id : InstanceId) :
    RerenderInduction id .empty
      (fun tree _ outcome => tree.holds id = true → (id, .empty) ∈ outcome.value.contents)
      (fun trees _ outcome =>
        anyHolds id trees = true → (id, .empty) ∈ childContents outcome.value) where
  empty _ held := by cases held
  text _ _ held := by cases held
  element _ _ _ inner := inner
  here identity child supply named _ := by
    rw [contents, reconcile_empty, named]
    exact List.mem_cons_self
  inside identity child _ other inner held := by
    apply List.mem_cons_of_mem
    apply inner
    simpa [holds, other] using held
  nil _ held := by cases held
  first _ _ _ held inner _ := List.mem_append_left _ (inner held)
  later tree rest _ absent inner held := by
    apply List.mem_append_right
    apply inner
    simpa [anyHolds, absent] using held

end Mounted

namespace Client

variable {client : Client}

/-- The components in the body and in the head, by their numbers, with what they show. -/
def contents (client : Client) : List (InstanceId × Mounted) :=
  client.body.contents ++ Mounted.childContents client.head

theorem empties_renderInstance (state : InstanceState) (without : state.payload.content = .empty)
    (shown : state.identity ∈ client.instances) :
    (state.identity.id, .empty) ∈ (client.renderInstance state).contents := by
  unfold renderInstance
  simp only [without]
  by_cases inBody : client.body.holds state.identity.id
  · rw [if_pos inBody]
    exact List.mem_append_left _ ((Mounted.rerender_empties _).rerender _ _ inBody)
  · have inHead : Mounted.anyHolds state.identity.id client.head := by
      rcases List.mem_append.mp shown with member | member
      · exact absurd ((Mounted.holds_iff _ _).mpr (List.mem_map.mpr ⟨_, member, rfl⟩)) inBody
      · exact (Mounted.anyHolds_iff _ _).mpr (List.mem_map.mpr ⟨_, member, rfl⟩)
    rw [if_neg inBody, if_pos inHead]
    exact List.mem_append_right _ ((Mounted.rerender_empties _).rerenderFirst _ _ inHead)

theorem mem_instances_of_mountedAt {past : List Deed} (registered : Registered past client)
    {session : SessionId} {path : Path} {state : InstanceState}
    (found : client.host.mountedAt session path.key = some state) :
    state.identity ∈ client.instances := by
  obtain ⟨-, -, -, shown⟩ := registered.of_mountedAt found
  exact shown

/-- A payload is rendered if there is a component for it and the payload can be read. Otherwise
    there are only notices. -/
theorem renderAt_cases (key : String) (raw : Json) (client : Client) :
    (∃ state payload, client.host.currentMountedAt key = some state ∧
      Payload.decode state.identity.path raw = .ok payload ∧
      client.renderAt key raw =
        (true, (client.modifyHost (·.setPayload state.identity.id payload)).renderInstance
          { state with payload := payload })) ∨
    (∀ state, client.host.currentMountedAt key = some state →
      ∀ payload, Payload.decode state.identity.path raw ≠ .ok payload) ∧
      ∃ notices, client.renderAt key raw = (false, client.noting notices) := by
  unfold renderAt Host.currentMountedAt
  cases client.host.current with
  | none => exact .inr ⟨nofun, [], by rw [noting_nil]⟩
  | some session =>
      simp only [Option.bind_eq_bind, Option.bind_some]
      cases client.host.mountedAt session key with
      | none => exact .inr ⟨nofun, [.noComponentAt key], rfl⟩
      | some state =>
          cases decoded : Payload.decode state.identity.path raw with
          | error error =>
              refine .inr ⟨?_, [.abandonedRender .component error], by simp only [decoded]; rfl⟩
              rintro _ ⟨⟩ payload readable
              rw [decoded] at readable
              cases readable
          | ok payload =>
              exact .inl ⟨state, payload, rfl, decoded, by simp only [decoded]⟩

end Client

/-! ## All of it -/

/-- A node is read as one that says what it is. -/
structure SpineShape.ReadAsStated (path : Path) (members : Assoc String Json) : Prop where
  same : Spine.decode path (.object (Json.typed members)) = Spine.decode path (.object members)
  stated : ∀ spine, Spine.decode path (.object members) = .ok spine →
    IsStated (Json.typed members)
  verbatim : IsStated members → Json.typed members = members
  /-- A component has a payload, whether it is there or not. -/
  component : of members = .component →
    Spine.decode path (.object (Json.withReference members)) = Spine.decode path (.object members)

/-- A value is read as a payload in the documented form. -/
structure Json.ReadAsPayload (path : Path) (raw : Json) : Prop where
  same : Payload.decode path raw.asPayload = Payload.decode path raw
  shaped : raw.asPayload.IsPayload
  verbatim : raw.IsPayload → raw.asPayload = raw
  /-- What is no object can always be read. -/
  bare : (∀ members, raw ≠ .object members) → Payload.decode path raw = .ok .empty

/-- The component at a path is given a value as if it were a payload. -/
structure Client.GivenAsPayload (path : Path) (raw : Json) (client : Client) : Prop where
  same : client.renderAt path.key raw.asPayload = client.renderAt path.key raw
  rendered : (client.renderAt path.key raw).1 = true ↔
    (client.host.currentMountedAt path.key).isSome ∧
      ∃ payload, Payload.decode path raw.asPayload = .ok payload
  refused : (client.renderAt path.key raw).1 = false →
    ∃ notices, (client.renderAt path.key raw).2 = client.noting notices
  /-- Without content the component is emptied. -/
  emptied : raw.get? "spine" = none → (client.renderAt path.key raw).1 = true →
    ∀ state, client.host.currentMountedAt path.key = some state →
      (state.identity.id, .empty) ∈ (client.renderAt path.key raw).2.contents

namespace Client

theorem givenAsPayload {client : Client} (reachable : Reachable client) (path : Path) (raw : Json) :
    client.GivenAsPayload path raw := by
  obtain ⟨past, run⟩ := reachable
  have mountedAt {state : InstanceState}
      (found : client.host.currentMountedAt path.key = some state) :
      state.identity.path = path ∧ state.identity ∈ client.instances := by
    obtain ⟨session, -, there⟩ := Option.bind_eq_some_iff.mp found
    exact ⟨path_of_mountedAt run.registered there, mem_instances_of_mountedAt run.registered there⟩
  have same : client.renderAt path.key raw.asPayload = client.renderAt path.key raw := by
    simp only [renderAt, Payload.decode_asPayload]
  rcases renderAt_cases path.key raw client with ⟨state, payload, found, read, answer⟩ |
    ⟨never, notices, answer⟩
  · obtain ⟨here, shown⟩ := mountedAt found
    refine { same, rendered := ?_, refused := ?_, emptied := ?_ }
    · rw [answer, Payload.decode_asPayload, found, ← here]
      exact iff_of_true rfl ⟨rfl, payload, read⟩
    · intro refused
      rw [answer] at refused
      cases refused
    · intro without _ other isOther
      obtain rfl : state = other := Option.some.inj (found.symm.trans isOther)
      have given : state.identity ∈
          (client.modifyHost (·.setPayload state.identity.id payload)).instances := shown
      rw [answer]
      exact empties_renderInstance { state with payload := payload }
        (Payload.content_eq_empty without read) given
  · refine { same, rendered := ?_, refused := ?_, emptied := ?_ }
    · rw [answer, Payload.decode_asPayload]
      refine iff_of_false Bool.false_ne_true ?_
      rintro ⟨isThere, payload, read⟩
      obtain ⟨state, found⟩ := Option.isSome_iff_exists.mp isThere
      exact never state found payload ((mountedAt found).1 ▸ read)
    · exact fun _ => ⟨notices, by rw [answer]⟩
    · intro _ rendered
      rw [answer] at rendered
      cases rendered

/-- Nodes, payloads and references to components are read as if what is wrong with their form were
    absent, and refused only if that cannot be read. In particular a component is emptied by any
    value that is no object. -/
theorem malformed_read_as_completed {client : Client} (reachable : Reachable client) :
    (∀ path members, SpineShape.ReadAsStated path members) ∧
      (∀ path raw, Json.ReadAsPayload path raw) ∧
      ∀ path raw, client.GivenAsPayload path raw := by
  refine ⟨fun path members => ?_, fun path raw => ?_, givenAsPayload reachable⟩
  · exact { same := Spine.decode_typed path members
            stated := fun spine => Spine.isStated_typed_of_decode path
            verbatim := Json.typed_of_isStated
            component := Spine.decode_withReference path }
  · exact { same := Payload.decode_asPayload path raw
            shaped := raw.isPayload_asPayload
            verbatim := Json.asPayload_of_isPayload
            bare := Payload.decode_of_no_object }

/-- A component that shows a text, as it is sent. -/
def componentWithText : Json :=
  .object [("type", .string "Component"), ("id", .ofUInt64 1),
    ("spine", .object [("spine", .string "shown")])]

/-- What leads to a client that shows the component. -/
def showComponentWithText : List Action :=
  [.openConnection, .message componentWithText, .frame]

/-- An element whose type is a number. -/
def numberedType : Assoc String Json := [("type", .ofUInt64 1), ("tag", .string "a")]

/-- The element is read as one that has type Node, and the component is emptied by a number. -/
theorem number_empties_component :
    let client := (history showComponentWithText (.new "/" .never)).2
    Spine.decode .root (.object numberedType) =
        Spine.decode .root (.object [("type", .string "Node"), ("tag", .string "a")]) ∧
      Payload.decode .root (.ofUInt64 5) = .ok .empty ∧
      (client.renderAt "" (.ofUInt64 5)).1 = true ∧
      (0, .empty) ∈ (client.renderAt "" (.ofUInt64 5)).2.contents := by
  intro client
  have reachable : Reachable client := ⟨_, run_history "/" .never showComponentWithText⟩
  obtain ⟨nodes, payloads, given⟩ := malformed_read_as_completed reachable
  have read := (payloads .root (.ofUInt64 5)).bare (fun _ same => by cases same)
  have number := given .root (.ofUInt64 5)
  have found : (client.host.currentMountedAt "").map (·.identity.id) = some 0 := by
    unfold client
    cbv
  obtain ⟨state, isThere, isFirst⟩ := Option.map_eq_some_iff.mp found
  have rendered := number.rendered.mpr
    ⟨Option.isSome_iff_exists.mpr ⟨state, isThere⟩, .empty, by rw [Payload.decode_asPayload, read]⟩
  exact ⟨(nodes .root numberedType).same.symm, read, rendered,
    isFirst ▸ number.emptied rfl rendered state isThere⟩

/-- So reading is not strict: such an element is accepted, and so are a number and an object with
    hooks that are a number for payloads, and a component without a payload. A client that shows a
    text in a component shows nothing after it was given a number there. -/
theorem malformed_accepted :
    ¬ (∀ path members spine, Spine.decode path (.object members) = .ok spine →
        SpineShape.IsStated members) ∧
      ¬ (∀ path raw payload, Payload.decode path raw = .ok payload → raw.IsPayload) ∧
      ¬ (∀ path members spine, Spine.decode path (.object members) = .ok spine →
        SpineShape.of members = .component → Assoc.contains "spine" members) ∧
      ¬ ∀ client, Reachable client → ∀ (path : Path) (raw : Json), ¬ raw.IsPayload →
        (client.renderAt path.key raw).1 = false ∧
          (client.renderAt path.key raw).2.html = client.html := by
  have noPayload : ¬ (Json.ofUInt64 5).IsPayload := fun ⟨_, same, _⟩ => by cases same
  refine ⟨fun always => ?_, fun always => ?_, fun always => ?_, fun always => ?_⟩
  · have stated := always .root numberedType (.element "a" [] []) (by cbv)
    rcases stated with isNode | isComponent | ⟨absent, -⟩
    · cases isNode
    · cases isComponent
    · cases absent
  · exact noPayload (always .root _ .empty (by cbv))
  · have present := always .root [("type", .string "Component"), ("id", .ofUInt64 1)]
      (.component 1 "" .empty ⟨[], [], []⟩) (by cbv) (by cbv)
    cases present
  · have kept := (always _ ⟨_, run_history "/" .never showComponentWithText⟩ .root _ noPayload).2
    have shown : (history showComponentWithText (.new "/" .never)).2.html =
        "<head></head><body>shown</body>" := by cbv
    have emptied : ((history showComponentWithText (.new "/" .never)).2.renderAt Path.root.key
        (.ofUInt64 5)).2.html = "<head></head><body></body>" := by cbv
    rw [shown, emptied] at kept
    exact absurd kept (by decide)

end Client

end RemoteView
