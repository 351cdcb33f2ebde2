import RemoteView.Spine.Attribute

/-! # Reading spines

Children are read before the attributes of their element, and the content of a component before its
listeners and hooks, so the error reported is that of the first faulty node in this order.
-/

namespace RemoteView

/-- What kind of node the members of an object describe. -/
inductive SpineShape where
  | element
  | component
  | unknown (found : String)

/-- The shape of an object: by its type when that is a string; otherwise anything with a tag is an
    element. -/
def SpineShape.of (members : Assoc String Json) : SpineShape :=
  match (Assoc.get? "type" members).bind Json.text? with
  | some "Node" => .element
  | some "Component" => .component
  | some other => .unknown other
  | none => if Assoc.contains "tag" members then .element else .unknown "object without type"

/-- Place the fault of a part at its node. -/
def Reading.placed {α : Type} (path : Path) : Reading α → Except SpineError α
  | .ok value => .ok value
  | .error fault => .error ⟨path, fault⟩

theorem Assoc.sizeOf_get?_lt {name : String} {members : Assoc String Json} {value : Json}
    (found : Assoc.get? name members = some value) : sizeOf value < sizeOf members := by
  induction members with
  | nil => simp at found
  | cons entry rest ih =>
      obtain ⟨k, v⟩ := entry
      unfold Assoc.get? at found
      by_cases h : k = name
      · simp only [h, if_true, Option.some.injEq] at found
        subst found
        simp only [List.cons.sizeOf_spec, Prod.mk.sizeOf_spec]
        omega
      · simp only [h, if_false] at found
        have := ih found
        simp only [List.cons.sizeOf_spec]
        omega

namespace Spine

mutual
/-- Read the node at a position. -/
def decode (path : Path) (raw : Json) : Except SpineError Spine :=
  match raw with
  | .null => .ok .empty
  | .string written => .ok (.text written)
  | .object members =>
      match SpineShape.of members with
      | .element => decodeElement path members
      | .component => decodeComponent path members
      | .unknown found => .error ⟨path, .unknownShape found⟩
  | other => .error ⟨path, .unknownShape other.render⟩
termination_by (sizeOf raw, 0)

def decodeElement (path : Path) (members : Assoc String Json) : Except SpineError Spine := do
  let tag ← (Reading.expect .elementTag ((Assoc.get? "tag" members).bind Json.text?)).placed path
  let children ←
    match found : Assoc.get? "children" members with
    | none => .ok []
    | some .null => .ok []
    | some (.array entries) =>
        have : sizeOf entries < sizeOf members := by
          have := Assoc.sizeOf_get?_lt found
          simp only [Json.array.sizeOf_spec] at this
          omega
        decodeChildren path entries
    | some _ => .error ⟨path, .malformed .children⟩
  let attributes ← (Reading.optionalItems .attributes (Assoc.get? "attributes" members)).placed path
  let attributes ← (attributes.mapM Reading.nodeAttribute : Reading _).placed path
  return .element tag children attributes
termination_by (sizeOf members, 1)

/-- Read the numbered children of an element. -/
def decodeChildren (path : Path) (entries : List Json) :
    Except SpineError (List (UInt32 × Spine)) :=
  match entries with
  | [] => .ok []
  | .array [index, raw] :: rest =>
      match index.toUInt32? with
      | some index => do
          let child ← decode (path.child index) raw
          let others ← decodeChildren path rest
          return (index, child) :: others
      | none => .error ⟨path, .malformed .childIndex⟩
  | _ :: _ => .error ⟨path, .malformed .childEntry⟩
termination_by (sizeOf entries, 0)

def decodeComponent (path : Path) (members : Assoc String Json) : Except SpineError Spine := do
  let id ← (Reading.expect .componentId ((Assoc.get? "id" members).bind Json.toUInt64?)).placed path
  let name := ((Assoc.get? "displayName" members).bind Json.text?).getD ""
  match found : Assoc.get? "spine" members with
  | none => return .component id name .empty ⟨[], [], []⟩
  | some raw =>
      have : sizeOf raw < sizeOf members := Assoc.sizeOf_get?_lt found
      let (content, behaviour) ← decodePayload path raw
      return .component id name content behaviour
termination_by (sizeOf members, 1)

/-- Read what a component renders and reacts to. Only the members of an object count. -/
def decodePayload (path : Path) (raw : Json) : Except SpineError (Spine × Behaviour) := do
  let content ←
    match raw with
    | .object members =>
        match found : Assoc.get? "spine" members with
        | none => .ok .empty
        | some inner =>
            have : sizeOf inner < 1 + sizeOf members :=
              Nat.lt_add_left 1 (Assoc.sizeOf_get?_lt found)
            decode path inner
    | _ => .ok .empty
  let behaviour ← (Reading.behaviour raw).placed path
  return (content, behaviour)
termination_by (sizeOf raw, 1)
end

end Spine

/-- Read the payload of the component at a position. -/
def Payload.decode (path : Path) (raw : Json) : Except SpineError Payload := do
  let (content, behaviour) ← Spine.decodePayload path raw
  return ⟨content, behaviour⟩

end RemoteView
