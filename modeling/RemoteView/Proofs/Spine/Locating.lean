import Mathlib
import RemoteView.Proofs.Failing
import RemoteView.Proofs.Spine.Faults

/-! # Where a fault lies

A raw spine is read part by part: each node first says what it is, the nodes in it come next, and
what else it declares comes last. The first part with a fault ends the reading. The fault is placed
at the node whose part it is, and the parts are the same wherever the spine stands.
-/

namespace RemoteView

/-- A part of a node, with what the node has there. -/
inductive RawPart where
  | shape (node : Json)
  | tag (member : Option Json)
  /-- A member that holds a list or is missing. -/
  | list (part : SpinePart) (member : Option Json)
  /-- The pair of an index and a child. -/
  | childEntry (entry : Json)
  | attribute (raw : Json)
  | id (member : Option Json)
  | listener (raw : Json)
  | hooks (member : Option Json)
  | hook (raw : Json)

/-- What is wrong with a part, by itself. -/
def RawPart.fault? : RawPart → Option SpineFault
  | .shape .null => none
  | .shape (.string _) => none
  | .shape (.object members) =>
      match SpineShape.of members with
      | .unknown found => some (.unknownShape found)
      | _ => none
  | .shape other => some (.unknownShape other.render)
  | .tag member => failure? (Reading.expect .elementTag (member.bind Json.text?))
  | .list part member => failure? (Reading.optionalItems part member)
  | .childEntry (.array [index, _]) => failure? (Reading.expect .childIndex index.toUInt32?)
  | .childEntry _ => some (.malformed .childEntry)
  | .attribute raw => failure? (Reading.nodeAttribute raw)
  | .id member => failure? (Reading.expect .componentId (member.bind Json.toUInt64?))
  | .listener raw => failure? (Reading.windowListener raw)
  | .hooks none => none
  | .hooks (some (.array _)) => none
  | .hooks (some _) => some (.malformed .hookList)
  | .hook raw => failure? (Reading.expr raw)

namespace Json

/-- The items of a member that holds a list. -/
def memberItems (member : Option Json) : List Json := (member.bind items?).getD []

/-- A hook list under the first of two names that is there, and its hooks. -/
def hookParts (name alternative : String) (payload : Json) : List RawPart :=
  let member :=
    (payload.get? "hooks").bind fun hooks => (hooks.get? name).or (hooks.get? alternative)
  .hooks member :: (memberItems member).map .hook

/-- The parts of a payload besides its content. -/
def behaviourParts (payload : Json) : List RawPart :=
  .list .componentListeners (payload.get? "eventListeners") ::
    (memberItems (payload.get? "eventListeners")).map .listener ++
      hookParts "componentDidMount" "onMount" payload ++
        hookParts "componentWillUnmount" "onUnmount" payload

/-- The parts of a node that are read before the nodes in it. -/
def openingParts : Json → List RawPart
  | .object members =>
      match SpineShape.of members with
      | .element => [.shape (.object members), .tag (Assoc.get? "tag" members),
          .list .children (Assoc.get? "children" members)]
      | .component => [.shape (.object members), .id (Assoc.get? "id" members)]
      | .unknown _ => [.shape (.object members)]
  | raw => [.shape raw]

/-- The entries of the children of a node. -/
def childEntries : Json → List Json
  | .object members =>
      match SpineShape.of members with
      | .element => memberItems (Assoc.get? "children" members)
      | _ => []
  | _ => []

/-- The parts of a node that are read after the nodes in it. -/
def closingParts : Json → List RawPart
  | .object members =>
      match SpineShape.of members with
      | .element => .list .attributes (Assoc.get? "attributes" members) ::
          (memberItems (Assoc.get? "attributes" members)).map .attribute
      | .component => ((Assoc.get? "spine" members).map behaviourParts).getD []
      | .unknown _ => []
  | _ => []

/-- The parts of a node itself. -/
def ownParts (node : Json) : List RawPart :=
  node.openingParts ++ node.childEntries.map .childEntry ++ node.closingParts

/-- Child indices lead from a raw spine to a node in it; the content of a component stands where the
    component stands. -/
inductive Leads (node : Json) : List UInt32 → Json → Prop where
  | here : Leads node [] node
  | child {members : Assoc String Json} {entries : List Json} {key child : Json} {index : UInt32}
      {rest : List UInt32} (shape : SpineShape.of members = .element)
      (stored : Assoc.get? "children" members = some (.array entries))
      (entry : .array [key, child] ∈ entries) (isIndex : key.toUInt32? = some index)
      (inside : Leads node rest child) : Leads node (index :: rest) (.object members)
  | content {members : Assoc String Json} {payload content : Json} {indices : List UInt32}
      (shape : SpineShape.of members = .component)
      (stored : Assoc.get? "spine" members = some payload)
      (rendered : payload.get? "spine" = some content) (inside : Leads node indices content) :
      Leads node indices (.object members)

/-- A part of a node that is looked at, and the child indices that lead to the node. -/
structure Look where
  indices : List UInt32
  node : Json
  part : RawPart

/-- The look at something in the child with an index. -/
def Look.under (index : UInt32) (look : Look) : Look :=
  { look with indices := index :: look.indices }

mutual
/-- What is looked at in a raw spine, one after another. -/
def looks (raw : Json) : List Look :=
  raw.openingParts.map (Look.mk [] raw) ++
    (match raw with
    | .object members =>
        match SpineShape.of members with
        | .element =>
            match found : Assoc.get? "children" members with
            | some (.array entries) =>
                have : sizeOf entries < sizeOf members := by
                  have := Assoc.sizeOf_get?_lt found
                  simp only [Json.array.sizeOf_spec] at this
                  omega
                childLooks (.object members) entries
            | _ => []
        | .component =>
            match found : Assoc.get? "spine" members with
            | some payload =>
                match inside : payload.get? "spine" with
                | some content =>
                    have : sizeOf content < sizeOf members :=
                      Nat.lt_trans (sizeOf_get?_lt inside) (Assoc.sizeOf_get?_lt found)
                    looks content
                | none => []
            | none => []
        | .unknown _ => []
    | _ => []) ++
    raw.closingParts.map (Look.mk [] raw)
termination_by sizeOf raw

/-- Each entry of the children is looked at before what is in the child. -/
def childLooks (parent : Json) (entries : List Json) : List Look :=
  match entries with
  | [] => []
  | .array [key, child] :: rest =>
      ⟨[], parent, .childEntry (.array [key, child])⟩ ::
        ((match key.toUInt32? with
          | some index => (looks child).map (Look.under index)
          | none => []) ++ childLooks parent rest)
  | entry :: rest => ⟨[], parent, .childEntry entry⟩ :: childLooks parent rest
termination_by sizeOf entries
end

/-- What is looked at inside of a node. -/
def innerLooks : Json → List Look
  | .object members =>
      match SpineShape.of members with
      | .element => childLooks (.object members) (memberItems (Assoc.get? "children" members))
      | .component =>
          match (Assoc.get? "spine" members).bind (·.get? "spine") with
          | some content => looks content
          | none => []
      | .unknown _ => []
  | _ => []

theorem memberItems_of_not_array {member : Option Json}
    (other : ∀ entries, member ≠ some (.array entries)) : memberItems member = [] := by
  cases member with
  | none => rfl
  | some raw =>
      cases raw with
      | array entries => exact absurd rfl (other entries)
      | null | bool | number | string | object => rfl

theorem looks_eq (raw : Json) : raw.looks =
    raw.openingParts.map (Look.mk [] raw) ++ raw.innerLooks ++
      raw.closingParts.map (Look.mk [] raw) := by
  rw [looks.eq_def]
  congr 2
  cases raw with
  | null | bool | number | string | array => rfl
  | object members =>
      simp only [innerLooks]
      cases SpineShape.of members with
      | unknown found => rfl
      | element =>
          simp only
          split
          · rename_i entries stored
            rw [stored]
            rfl
          · rename_i other
            rw [memberItems_of_not_array other, childLooks]
      | component =>
          simp only
          split
          · rename_i payload stored
            simp only [stored, Option.bind_some]
            split <;> simp_all
          · rename_i missing
            simp [missing]

end Json

/-! ## What is looked at

Every part of every node that child indices lead to is looked at, and nothing else is. -/

namespace Json

theorem mem_childLooks {look : Look} {parent : Json} {entries : List Json} :
    look ∈ childLooks parent entries ↔
      (∃ entry ∈ entries, look = ⟨[], parent, .childEntry entry⟩) ∨
        ∃ key child index inner, .array [key, child] ∈ entries ∧ key.toUInt32? = some index ∧
          inner ∈ child.looks ∧ inner.under index = look := by
  induction entries with
  | nil => simp [childLooks]
  | cons entry rest ih =>
      match entry with
      | .array [key, child] =>
          rw [childLooks, List.mem_cons, List.mem_append, ih]
          cases isIndex : key.toUInt32? with
          | none => simp only; grind
          | some index => simp only [List.mem_map]; grind
      | .null | .bool _ | .number _ | .string _ | .object _ | .array [] | .array [_] |
        .array (_ :: _ :: _ :: _) =>
          rw [childLooks]
          · simp [ih, or_assoc]
          · simp

theorem mem_memberItems {member : Option Json} {raw : Json} :
    raw ∈ memberItems member ↔ ∃ items, member = some (.array items) ∧ raw ∈ items := by
  unfold memberItems
  match member with
  | some (.array items) => simp [items?]
  | none | some .null | some (.bool _) | some (.number _) | some (.string _) |
    some (.object _) => simp [items?]

theorem mem_looks_cases {raw : Json} {look : Look} (among : look ∈ raw.looks) :
    (look.indices = [] ∧ look.node = raw ∧ look.part ∈ raw.ownParts) ∨
    (∃ members entries key child index inner, raw = .object members ∧
      SpineShape.of members = .element ∧
      Assoc.get? "children" members = some (.array entries) ∧ .array [key, child] ∈ entries ∧
      key.toUInt32? = some index ∧ inner ∈ child.looks ∧ inner.under index = look) ∨
    ∃ members payload content, raw = .object members ∧ SpineShape.of members = .component ∧
      Assoc.get? "spine" members = some payload ∧ payload.get? "spine" = some content ∧
      look ∈ content.looks := by
  rw [looks_eq, List.mem_append, List.mem_append] at among
  rcases among with (opens | inside) | closes
  · obtain ⟨part, own, rfl⟩ := List.mem_map.mp opens
    exact .inl ⟨rfl, rfl, by simp [ownParts, own]⟩
  · cases raw with
    | null | bool | number | string | array => cases inside
    | object members =>
        unfold innerLooks at inside
        cases shape : SpineShape.of members with
        | unknown found => simp [shape] at inside
        | element =>
            simp only [shape] at inside
            rcases mem_childLooks.mp inside with ⟨entry, among, rfl⟩ |
              ⟨key, child, index, inner, among, rest⟩
            · refine .inl ⟨rfl, rfl, ?_⟩
              simp [ownParts, childEntries, shape, among]
            · obtain ⟨entries, stored, among⟩ := mem_memberItems.mp among
              exact .inr (.inl ⟨members, entries, key, child, index, inner, rfl, shape, stored,
                among, rest⟩)
        | component =>
            simp only [shape] at inside
            split at inside
            · rename_i content found
              obtain ⟨payload, stored, rendered⟩ := Option.bind_eq_some_iff.mp found
              exact .inr (.inr ⟨members, payload, content, rfl, shape, stored, rendered, inside⟩)
            · cases inside
  · obtain ⟨part, own, rfl⟩ := List.mem_map.mp closes
    exact .inl ⟨rfl, rfl, by simp [ownParts, own]⟩

/-- What is looked at is a part of a node that the indices lead to. -/
theorem leads_of_mem_looks (raw : Json) {look : Look} (among : look ∈ raw.looks) :
    Leads look.node look.indices raw ∧ look.part ∈ look.node.ownParts := by
  rcases mem_looks_cases among with ⟨noIndices, isNode, own⟩ |
    ⟨members, entries, key, child, index, inner, rfl, shape, stored, entry, isIndex, inside, rfl⟩ |
    ⟨members, payload, content, rfl, shape, stored, rendered, inside⟩
  · rw [noIndices, isNode]
    exact ⟨.here, own⟩
  · have := Assoc.sizeOf_get?_lt stored
    have := List.sizeOf_lt_of_mem entry
    obtain ⟨leads, own⟩ := leads_of_mem_looks child inside
    exact ⟨.child shape stored entry isIndex leads, own⟩
  · have := Assoc.sizeOf_get?_lt stored
    have := sizeOf_get?_lt rendered
    obtain ⟨leads, own⟩ := leads_of_mem_looks content inside
    exact ⟨.content shape stored rendered leads, own⟩
termination_by sizeOf raw
decreasing_by
  all_goals simp_all only [Json.object.sizeOf_spec, Json.array.sizeOf_spec,
    List.cons.sizeOf_spec, List.nil.sizeOf_spec]
  all_goals omega

theorem mem_looks_of_inner {raw : Json} {look : Look} (inside : look ∈ raw.innerLooks) :
    look ∈ raw.looks := by
  rw [looks_eq]
  exact List.mem_append_left _ (List.mem_append_right _ inside)

/-- Every part of a node that indices lead to is looked at. -/
theorem mem_looks_of_leads {node raw : Json} {indices : List UInt32} {part : RawPart}
    (leads : Leads node indices raw) (own : part ∈ node.ownParts) :
    ⟨indices, node, part⟩ ∈ raw.looks := by
  induction leads with
  | here =>
      rw [ownParts, List.mem_append, List.mem_append] at own
      rcases own with (opens | paired) | closes
      · rw [looks_eq]
        simp [opens]
      · obtain ⟨entry, among, rfl⟩ := List.mem_map.mp paired
        apply mem_looks_of_inner
        cases node with
        | null | bool | number | string | array => cases among
        | object members =>
            unfold childEntries at among
            unfold innerLooks
            cases shape : SpineShape.of members with
            | unknown | component => simp [shape] at among
            | element =>
                simp only [shape] at among ⊢
                exact mem_childLooks.mpr (.inl ⟨entry, among, rfl⟩)
      · rw [looks_eq]
        simp [closes]
  | child shape stored entry isIndex inside ih =>
      apply mem_looks_of_inner
      simp only [innerLooks, shape]
      exact mem_childLooks.mpr (.inr ⟨_, _, _, _, mem_memberItems.mpr ⟨_, stored, entry⟩, isIndex,
        ih, rfl⟩)
  | content shape stored rendered inside ih =>
      apply mem_looks_of_inner
      simpa only [innerLooks, shape, stored, Option.bind_some, rendered] using ih

end Json

/-! ## The first fault -/

section Failures

variable {α β : Type}

theorem failure?_placed (path : Path) (reading : Reading α) :
    failure? (reading.placed path) = (failure? reading).map (SpineError.mk path) := by
  cases reading <;> rfl

theorem failure?_placed_bind {path : Path} {reading : Reading α} {next : α → Except SpineError β}
    {later : Option SpineError} (goesOn : ∀ value, reading = .ok value →
      failure? (next value) = later) :
    failure? (reading.placed path >>= next) =
      ((failure? reading).map (SpineError.mk path)).or later := by
  rw [← failure?_placed]
  exact failure?_bind fun value found => goesOn value (Reading.placed_eq_ok.mp found)

end Failures

namespace Json

/-- The first fault that is found, at the position of its node. -/
def firstFault? (path : Path) (looks : List Look) : Option SpineError :=
  looks.findSome? fun look => look.part.fault?.map (⟨path.descend look.indices, ·⟩)

variable (path : Path)

theorem firstFault?_append (looks later : List Look) : firstFault? path (looks ++ later) =
    (firstFault? path looks).or (firstFault? path later) := List.findSome?_append

theorem firstFault?_cons (node : Json) (part : RawPart) (later : List Look) :
    firstFault? path (⟨[], node, part⟩ :: later) =
      (part.fault?.map (SpineError.mk path)).or (firstFault? path later) := by
  have here : path.descend [] = path := congrArg Path.mk (List.append_nil _)
  rw [firstFault?, findSome?_cons_or]
  simp only [here]
  rfl

theorem firstFault?_own (node : Json) (parts : List RawPart) :
    firstFault? path (parts.map (Look.mk [] node)) =
      (parts.findSome? RawPart.fault?).map (SpineError.mk path) := by
  rw [firstFault?, List.findSome?_map, List.map_findSome?]
  simp only [Function.comp_def, Path.descend, List.append_nil]

theorem firstFault?_under (index : UInt32) (looks : List Look) :
    firstFault? path (looks.map (Look.under index)) = firstFault? (path.child index) looks := by
  rw [firstFault?, List.findSome?_map]
  simp only [firstFault?, Function.comp_def, Look.under, Path.descend_child]

/-- What a node opens with, then what is in it, then what it closes with. -/
theorem firstFault?_looks (raw : Json) : firstFault? path raw.looks =
    ((raw.openingParts.findSome? RawPart.fault?).map (SpineError.mk path)).or
      ((firstFault? path raw.innerLooks).or
        ((raw.closingParts.findSome? RawPart.fault?).map (SpineError.mk path))) := by
  rw [looks_eq, firstFault?_append, firstFault?_append, firstFault?_own, firstFault?_own,
    Option.or_assoc]

end Json

namespace Reading

theorem placed_bind {α β : Type} (path : Path) (first : Reading α) (next : α → Reading β) :
    (first >>= next).placed path = first.placed path >>= fun value => (next value).placed path := by
  cases first <;> rfl

theorem failure?_items {α : Type} {part : SpinePart} {member : Option Json}
    (read : Json → Reading α) (toPart : Json → RawPart)
    (reads : ∀ raw, (toPart raw).fault? = failure? (read raw)) :
    failure? (optionalItems part member >>= fun raws => raws.mapM read) =
      (RawPart.list part member :: (Json.memberItems member).map toPart).findSome?
        RawPart.fault? := by
  have items (raws : List Json) (found : optionalItems part member = .ok raws) :
      raws = Json.memberItems member := by
    unfold optionalItems at found
    split at found <;> cases found <;> rfl
  have each : RawPart.fault? ∘ toPart = fun raw => failure? (read raw) := funext reads
  rw [findSome?_cons_or, List.findSome?_map, each, ← failure?_mapM]
  exact failure?_bind fun raws found => by rw [items raws found]

theorem failure?_hooks (name alternative : String) (payload : Json) :
    failure? (hooks name alternative (payload.get? "hooks")) =
      (Json.hookParts name alternative payload).findSome? RawPart.fault? := by
  unfold hooks Json.hookParts
  rcases (payload.get? "hooks").bind fun hooks => (hooks.get? name).or (hooks.get? alternative)
    with _ | raw
  · rfl
  · cases raw with
    | array items =>
        rw [failure?_mapM, findSome?_cons_or, List.findSome?_map]
        rfl
    | null | bool | number | string | object => rfl

theorem failure?_behaviour (payload : Json) :
    failure? (behaviour payload) = payload.behaviourParts.findSome? RawPart.fault? := by
  rw [behaviour, ← bind_assoc, Json.behaviourParts, List.findSome?_append, List.findSome?_append,
    ← failure?_items windowListener .listener fun _ => rfl, ← failure?_hooks,
    ← failure?_hooks, Option.or_assoc]
  exact failure?_bind fun _ _ => failure?_bind fun _ _ => failure?_bind_pure ..

end Reading

namespace Spine

variable {path : Path} {members : Assoc String Json}

theorem failure?_decodeChildMember (parent : Json) {member : Option Json}
    (inside : ∀ entries, member = some (.array entries) →
      failure? (decodeChildren path entries) =
        Json.firstFault? path (Json.childLooks parent entries)) :
    failure? (decodeChildMember path member) =
      ((RawPart.list .children member).fault?.map (SpineError.mk path)).or
        (Json.firstFault? path (Json.childLooks parent (Json.memberItems member))) := by
  have none : Json.firstFault? path (Json.childLooks parent []) = none := by
    rw [Json.childLooks]
    rfl
  unfold decodeChildMember
  split
  · exact none.symm
  · exact none.symm
  · exact inside _ rfl
  · rename_i raw notNull notArray
    cases raw with
    | null => exact absurd rfl notNull
    | array entries => exact absurd rfl (notArray entries)
    | bool | number | string | object => rfl

theorem failure?_decode_element (shape : SpineShape.of members = .element)
    (inside : ∀ entries, Assoc.get? "children" members = some (.array entries) →
      failure? (decodeChildren path entries) =
        Json.firstFault? path (Json.childLooks (.object members) entries)) :
    failure? (decode path (.object members)) =
      Json.firstFault? path (Json.looks (.object members)) := by
  have opening : ((Json.openingParts (.object members)).findSome? RawPart.fault?) =
      (RawPart.tag (Assoc.get? "tag" members)).fault?.or
        (RawPart.list .children (Assoc.get? "children" members)).fault? := by
    simp [Json.openingParts, shape, findSome?_cons_or, RawPart.fault?]
  have inner : Json.innerLooks (.object members) = Json.childLooks (.object members)
      (Json.memberItems (Assoc.get? "children" members)) := by
    simp only [Json.innerLooks, shape]
  have closing : ((Json.closingParts (.object members)).findSome? RawPart.fault?).map
      (SpineError.mk path) = failure? (do
        let raws ← (Reading.optionalItems .attributes (Assoc.get? "attributes" members)).placed path
        (raws.mapM Reading.nodeAttribute : Reading _).placed path) := by
    rw [← Reading.placed_bind, failure?_placed,
      Reading.failure?_items _ .attribute fun _ => rfl]
    simp only [Json.closingParts, shape]
  have read : decode path (.object members) = decodeElement path members := by
    rw [decode_object, shape]
  rw [Json.firstFault?_looks, opening, inner, closing, Option.map_or, Option.or_assoc,
    ← @Option.or_assoc _ (Option.map _ (RawPart.fault? (.list _ _))),
    ← failure?_decodeChildMember _ inside, read, decodeElement_eq]
  refine failure?_placed_bind fun tag _ => failure?_bind fun children _ => ?_
  rw [← bind_assoc, failure?_bind_pure]

theorem failure?_decode_component (shape : SpineShape.of members = .component)
    (inside : ∀ payload content, Assoc.get? "spine" members = some payload →
      payload.get? "spine" = some content →
        failure? (decode path content) = Json.firstFault? path content.looks) :
    failure? (decode path (.object members)) =
      Json.firstFault? path (Json.looks (.object members)) := by
  have opening : ((Json.openingParts (.object members)).findSome? RawPart.fault?) =
      (RawPart.id (Assoc.get? "id" members)).fault? := by
    simp [Json.openingParts, shape, findSome?_cons_or, RawPart.fault?]
  have read : decode path (.object members) = decodeComponent path members := by
    rw [decode_object, shape]
  rw [Json.firstFault?_looks, opening, read, decodeComponent_eq]
  refine failure?_placed_bind fun id _ => ?_
  simp only [Json.innerLooks, Json.closingParts, shape]
  cases stored : Assoc.get? "spine" members with
  | none => rfl
  | some payload =>
      have content : failure? (decodeContent path payload) =
          Json.firstFault? path (match payload.get? "spine" with
            | some content => Json.looks content
            | none => []) := by
        rw [decodeContent_eq]
        cases rendered : payload.get? "spine" with
        | none => rfl
        | some content => exact inside payload content stored rendered
      simp only [Option.bind_some, Option.map_some, Option.getD_some]
      rw [← content, ← Reading.failure?_behaviour, failure?_bind_pure, decodePayload_eq]
      exact failure?_bind fun content _ => (failure?_bind_pure ..).trans (failure?_placed ..)

mutual
/-- Decoding fails with the first fault that is found. -/
theorem failure?_decode (raw : Json) (path : Path) :
    failure? (decode path raw) = Json.firstFault? path raw.looks := by
  cases raw with
  | null | bool | number | string | array =>
      rw [decode, Json.firstFault?_looks]
      · rfl
      all_goals simp
  | object members =>
      cases shape : SpineShape.of members with
      | unknown found =>
          rw [Json.firstFault?_looks, decode_object]
          simp only [Json.openingParts, Json.innerLooks, Json.closingParts, shape,
            findSome?_cons_or, RawPart.fault?]
          rfl
      | element =>
          refine failure?_decode_element shape fun entries stored => ?_
          have := Assoc.sizeOf_get?_lt stored
          exact failure?_decodeChildren entries path (.object members)
      | component =>
          refine failure?_decode_component shape fun payload content stored rendered => ?_
          have := Assoc.sizeOf_get?_lt stored
          have := Json.sizeOf_get?_lt rendered
          exact failure?_decode content path
termination_by sizeOf raw
decreasing_by
  all_goals simp_all only [Json.object.sizeOf_spec, Json.array.sizeOf_spec]
  all_goals omega

theorem failure?_decodeChildren (entries : List Json) (path : Path) (parent : Json) :
    failure? (decodeChildren path entries) =
      Json.firstFault? path (Json.childLooks parent entries) := by
  match entries with
  | [] =>
      rw [decodeChildren, Json.childLooks]
      rfl
  | .array [key, child] :: rest =>
      have here := fun index => failure?_decode child (path.child index)
      have after := failure?_decodeChildren rest path parent
      rw [decodeChildren, Json.childLooks]
      rw [Json.firstFault?_cons, Json.firstFault?_append, ← after, RawPart.fault?]
      cases isIndex : key.toUInt32? with
      | none => rfl
      | some index =>
          simp only [Json.firstFault?_under, ← here]
          exact failure?_bind fun child _ => failure?_bind_pure ..
  | .null :: _ | .bool _ :: _ | .number _ :: _ | .string _ :: _ | .object _ :: _ |
    .array [] :: _ | .array [_] :: _ | .array (_ :: _ :: _ :: _) :: _ =>
      rw [decodeChildren, Json.childLooks]
      · rw [Json.firstFault?_cons]
        rfl
      all_goals simp
termination_by sizeOf entries
end

end Spine

/-- The first fault of a raw spine is found where child indices lead, in a part of the node there,
    and everything that is looked at before it is without fault. -/
structure Json.IsFirstFault (raw : Json) (look : Look) (fault : SpineFault) : Prop where
  leads : Leads look.node look.indices raw
  own : look.part ∈ look.node.ownParts
  faulty : look.part.fault? = some fault
  first : ∃ before after, raw.looks = before ++ look :: after ∧
    ∀ earlier ∈ before, earlier.part.fault? = none

namespace Json

theorem firstFault?_eq_some {raw : Json} {path : Path} {error : SpineError}
    (found : firstFault? path raw.looks = some error) :
    ∃ look, IsFirstFault raw look error.fault ∧ error.path = path.descend look.indices := by
  obtain ⟨before, look, after, parts, found, faultless⟩ := List.findSome?_eq_some_iff.mp found
  obtain ⟨fault, faulty, rfl⟩ := Option.map_eq_some_iff.mp found
  have among : look ∈ raw.looks := parts ▸ List.mem_append_right _ List.mem_cons_self
  obtain ⟨leads, own⟩ := leads_of_mem_looks raw among
  refine ⟨look, ⟨leads, own, faulty, before, after, parts, fun earlier isBefore => ?_⟩, rfl⟩
  exact Option.map_eq_none_iff.mp (faultless earlier isBefore)

theorem firstFault?_of_isFirstFault {raw : Json} {look : Look} {fault : SpineFault}
    (isFirst : IsFirstFault raw look fault) (path : Path) :
    firstFault? path raw.looks = some ⟨path.descend look.indices, fault⟩ := by
  obtain ⟨before, after, parts, faultless⟩ := isFirst.first
  refine List.findSome?_eq_some_iff.mpr ⟨before, look, after, parts, ?_, fun earlier isBefore => ?_⟩
  · rw [isFirst.faulty]
    rfl
  · rw [faultless earlier isBefore]
    rfl

theorem firstFault?_eq_none {raw : Json} {path : Path} :
    firstFault? path raw.looks = none ↔
      ∀ node indices, Leads node indices raw → ∀ part ∈ node.ownParts, part.fault? = none := by
  rw [firstFault?, List.findSome?_eq_none_iff]
  constructor
  · intro faultless node indices leads part own
    exact Option.map_eq_none_iff.mp (faultless _ (mem_looks_of_leads leads own))
  · intro faultless look among
    obtain ⟨leads, own⟩ := leads_of_mem_looks raw among
    exact Option.map_eq_none_iff.mpr (faultless _ _ leads _ own)

end Json

/-- Whether a raw spine can be read, and what it is read as, does not depend on where it stands. It
    can be read if and only if no part of any node in it has a fault. Otherwise the error is the
    first fault, placed at the node that child indices lead to, wherever the spine stands. -/
theorem Spine.faults_located_exactly (raw : Json) (path other : Path) :
    (∀ spine, decode path raw = .ok spine ↔ decode other raw = .ok spine) ∧
    ((∃ spine, decode path raw = .ok spine) ↔ ∀ node indices, Json.Leads node indices raw →
      ∀ part ∈ node.ownParts, part.fault? = none) ∧
    ∀ error, decode path raw = .error error → ∃ look, raw.IsFirstFault look error.fault ∧
      error.path = path.descend look.indices ∧
      decode other raw = .error ⟨other.descend look.indices, error.fault⟩ := by
  refine ⟨fun spine => ⟨decode_anywhere other raw, decode_anywhere path raw⟩, ?_, ?_⟩
  · rw [← failure?_eq_none, failure?_decode, Json.firstFault?_eq_none]
  · intro error failed
    rw [← failure?_eq_some, failure?_decode] at failed
    obtain ⟨look, isFirst, isPath⟩ := Json.firstFault?_eq_some failed
    refine ⟨look, isFirst, isPath, ?_⟩
    rw [← failure?_eq_some, failure?_decode, Json.firstFault?_of_isFirstFault isFirst other]

/-- A list whose own attributes are no list, with a component in it that shows an element with an
    attribute of an unknown kind and has no list of hooks. -/
def faultyList : Json :=
  .object [("tag", .string "ul"), ("attributes", .ofUInt64 5), ("children", .array [
    .array [.ofUInt64 2, .object [("type", .string "Component"), ("id", .ofUInt64 1),
      ("spine", .object [
        ("hooks", .object [("onMount", .ofUInt64 5)]),
        ("spine", .object [("tag", .string "li"), ("attributes", .array [
          .array [.string "AKEY"]])])])]]])]

/-- Of its three faults the one that is deepest comes first. -/
theorem Spine.deepest_fault_first : ∃ look,
    faultyList.IsFirstFault look (.unknownAttribute "AKEY") ∧ look.indices = [2] ∧
    decode ⟨[7]⟩ faultyList = .error ⟨⟨[7, 2]⟩, .unknownAttribute "AKEY"⟩ ∧
    decode .root faultyList = .error ⟨⟨[2]⟩, .unknownAttribute "AKEY"⟩ := by
  have fails : decode ⟨[7]⟩ faultyList = .error ⟨⟨[7, 2]⟩, .unknownAttribute "AKEY"⟩ := by cbv
  obtain ⟨look, isFirst, isPath, elsewhere⟩ :=
    (faults_located_exactly faultyList ⟨[7]⟩ .root).2.2 _ fails
  have indices : look.indices = [2] := by simpa [Path.descend] using isPath.symm
  rw [indices] at elsewhere
  exact ⟨look, isFirst, indices, fails, elsewhere⟩

end RemoteView
