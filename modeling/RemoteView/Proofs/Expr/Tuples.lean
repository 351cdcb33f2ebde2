import Mathlib
import RemoteView.Proofs.Host.Objects

/-! # Tuples and the arrays that they are sent as

A value that is built from JSON values, tuples and nothing else is sent as one JSON value. In its
normal form it is that JSON value: no value is null and a tuple is an array. Expressions cannot tell
a value from its normal form, so in scopes that bind values with the same normal forms they come to
values with the same normal forms and call the same methods.
-/

namespace RemoteView

namespace Value

/-- The JSON value that a value is. -/
def json? : Value → Option Json
  | .json value => some value
  | _ => none

/-- A tuple, or the array of its items if they are JSON values. -/
def pack (items : List Value) : Value :=
  match items.mapM json? with
  | some values => .json (.array values)
  | none => .tuple items

mutual
/-- The normal form: what is built from JSON values and tuples alone is a JSON value. -/
def normal : Value → Value
  | .absent => .json .null
  | .tuple items => pack (normals items)
  | .json value => .json value
  | .host object => .host object
  | .eventHandler record => .eventHandler record
  | .refHandler record => .refHandler record

def normals : List Value → List Value
  | [] => []
  | item :: rest => item.normal :: normals rest
end

theorem normals_eq_map (items : List Value) : normals items = items.map normal := by
  induction items with
  | nil => rfl
  | cons item rest ih => rw [normals, ih, List.map_cons]

theorem mapM_json? {items : List Value} {values : List Json} :
    items.mapM json? = some values ↔ items = values.map .json := by
  induction items generalizing values with
  | nil => simp [eq_comm]
  | cons item rest ih =>
      cases item <;> cases values <;>
        simp [List.mapM_cons, json?, Option.bind_eq_some_iff, ih, and_left_comm]

/-- A tuple is its items, or they are JSON values and it is an array. -/
theorem pack_cases (items : List Value) :
    pack items = .tuple items ∨
      ∃ values, items = values.map .json ∧ pack items = .json (.array values) := by
  unfold pack
  cases found : items.mapM json? with
  | none => exact .inl rfl
  | some values => exact .inr ⟨values, mapM_json?.mp found, rfl⟩

variable (objects : Objects)

theorem toJsons_map_json (values : List Json) : toJsons objects (values.map .json) = values := by
  induction values with
  | nil => rfl
  | cons value rest ih => rw [List.map_cons, toJsons, ih, toJson]

theorem toJson_pack (items : List Value) :
    (pack items).toJson objects = (Value.tuple items).toJson objects := by
  rcases pack_cases items with same | ⟨values, rfl, same⟩
  · rw [same]
  · rw [same, toJson, toJson, toJsons_map_json]

theorem member_pack (key : String) (items : List Value) :
    (pack items).member objects key = (Value.tuple items).member objects key := by
  rcases pack_cases items with same | ⟨values, rfl, same⟩
  · rw [same]
  · rw [same]
    simp only [member]
    cases position? key with
    | none => rfl
    | some index =>
        simp only [Option.bind_some, List.getElem?_map]
        cases values[index]? <;> rfl

mutual
@[simp] theorem toJson_normal (value : Value) :
    value.normal.toJson objects = value.toJson objects := by
  cases value with
  | absent | json | host | eventHandler | refHandler => rfl
  | tuple items => rw [normal, toJson_pack, toJson, toJson, toJsons_normals items]

theorem toJsons_normals (items : List Value) :
    toJsons objects (normals items) = toJsons objects items := by
  cases items with
  | nil => rfl
  | cons item rest => rw [normals, toJsons, toJsons, toJson_normal item, toJsons_normals rest]
end

mutual
@[simp] theorem normal_normal (value : Value) : value.normal.normal = value.normal := by
  cases value with
  | absent | json | host | eventHandler | refHandler => rfl
  | tuple items =>
      rw [normal]
      rcases pack_cases (normals items) with same | ⟨values, -, same⟩
      · rw [same, normal, normals_normals items, same]
      · rw [same, normal]

theorem normals_normals (items : List Value) : normals (normals items) = normals items := by
  cases items with
  | nil => rfl
  | cons item rest => rw [normals, normals, normal_normal item, normals_normals rest]
end

@[simp] theorem isTruthy_normal (value : Value) : value.normal.isTruthy = value.isTruthy := by
  cases value with
  | absent | json | host | eventHandler | refHandler => rfl
  | tuple items =>
      rw [normal]
      rcases pack_cases (normals items) with same | ⟨values, -, same⟩ <;> rw [same] <;> rfl

@[simp] theorem action?_normal (value : Value) :
    value.normal.action? objects = value.action? objects := by
  rw [action?, action?, isTruthy_normal, toJson_normal]

@[simp] theorem key?_normal (value : Value) : value.normal.key? = value.key? := by
  cases value with
  | absent | json | host | eventHandler | refHandler => rfl
  | tuple items =>
      rw [normal]
      rcases pack_cases (normals items) with same | ⟨values, -, same⟩ <;> rw [same] <;> rfl

@[simp] theorem text?_normal (value : Value) : value.normal.text? = value.text? := by
  cases value with
  | absent | json | host | eventHandler | refHandler => rfl
  | tuple items =>
      rw [normal]
      rcases pack_cases (normals items) with same | ⟨values, -, same⟩ <;> rw [same] <;> rfl

theorem normal_member_normal (key : String) (value : Value) :
    (value.normal.member objects key).normal = (value.member objects key).normal := by
  cases value with
  | absent | json | host | eventHandler | refHandler => rfl
  | tuple items =>
      rw [normal, member_pack, normals_eq_map]
      simp only [member]
      cases position? key with
      | none => rfl
      | some index =>
          simp only [Option.bind_some, List.getElem?_map]
          cases items[index]? with
          | none => rfl
          | some item => exact item.normal_normal

/-- A handle or the record that a listener or a ref answers. -/
def IsAtom : Value → Prop
  | .host _ | .eventHandler _ | .refHandler _ => True
  | .absent | .json _ | .tuple _ => False

theorem normal_eq_atom {value atom : Value} (isAtom : atom.IsAtom) :
    value.normal = atom ↔ value = atom := by
  constructor
  · rintro rfl
    cases value with
    | absent | json => cases isAtom
    | host | eventHandler | refHandler => rfl
    | tuple items =>
        rw [normal] at isAtom
        rcases pack_cases (normals items) with same | ⟨values, -, same⟩ <;>
          (rw [same] at isAtom; cases isAtom)
  · rintro rfl
    cases value with
    | absent | json | tuple => cases isAtom
    | host | eventHandler | refHandler => rfl

/-- Built from nothing, JSON values and tuples only. -/
inductive IsPlain : Value → Prop where
  | absent : IsPlain .absent
  | json (value : Json) : IsPlain (.json value)
  | tuple {items : List Value} (each : ∀ item ∈ items, IsPlain item) : IsPlain (.tuple items)

theorem IsPlain.normal_eq {value : Value} (plain : value.IsPlain) (objects : Objects) :
    value.normal = .json (value.toJson objects) := by
  induction plain with
  | absent | json => rfl
  | tuple each ih =>
      rename_i items
      have array : normals items = (toJsons objects items).map .json := by
        clear each
        induction items with
        | nil => rfl
        | cons item rest rests =>
            rw [normals, toJsons, List.map_cons, ih item List.mem_cons_self,
              rests fun other later => ih other (List.mem_cons_of_mem _ later)]
      rw [normal, toJson, pack, mapM_json?.mpr array]

/-- Two values have the same normal form. -/
def Alike (left right : Value) : Prop := left.normal = right.normal

namespace Alike

variable {left right : Value}

theorem toJson (alike : left.Alike right) : left.toJson objects = right.toJson objects := by
  rw [← toJson_normal, ← right.toJson_normal, alike]

theorem isTruthy (alike : left.Alike right) : left.isTruthy = right.isTruthy := by
  rw [← isTruthy_normal, ← right.isTruthy_normal, alike]

theorem action? (alike : left.Alike right) : left.action? objects = right.action? objects := by
  rw [← action?_normal, ← right.action?_normal, alike]

theorem key? (alike : left.Alike right) : left.key? = right.key? := by
  rw [← key?_normal, ← right.key?_normal, alike]

theorem member (alike : left.Alike right) (key : String) :
    (left.member objects key).Alike (right.member objects key) := by
  rw [Alike, ← normal_member_normal, ← normal_member_normal objects key right, alike]

theorem eq_atom (alike : left.Alike right) (atom : Value) (isAtom : atom.IsAtom) :
    left = atom ↔ right = atom := by
  rw [← normal_eq_atom isAtom, alike, normal_eq_atom isAtom]

theorem tuple {items items' : List Value} (alike : normals items = normals items') :
    (Value.tuple items).Alike (.tuple items') := by
  rw [Alike, normal, normal, alike]

theorem of_plain (isPlain : left.IsPlain) (isPlain' : right.IsPlain)
    (same : left.toJson objects = right.toJson objects) : left.Alike right := by
  rw [Alike, isPlain.normal_eq objects, isPlain'.normal_eq objects, same]

end Alike

theorem normals_cons_congr {left right : Value} {rest rest' : List Value}
    (first : left.Alike right) (others : normals rest = normals rest') :
    normals (left :: rest) = normals (right :: rest') := by
  rw [normals, normals, first, others]

end Value

theorem ElementObject.invoke_normals (objects : Objects) (method : String)
    (arguments : List Value) (object : ElementObject) :
    object.invoke objects method (Value.normals arguments) =
      object.invoke objects method arguments := by
  unfold ElementObject.invoke
  match arguments with
  | [] => rfl
  | [name] =>
      by_cases get : method = "getAttribute"
      · simp [get, Value.normals]
      · simp [get, Value.normals]
  | name :: value :: rest =>
      by_cases get : method = "getAttribute"
      · simp [get, Value.normals]
      · by_cases set : method = "setAttribute"
        · simp [set, Value.normals]
        · simp [get, set, Value.normals]

theorem HostObject.invoke_normals (objects : Objects) (method : String)
    (arguments : List Value) (object : HostObject) :
    object.invoke objects method (Value.normals arguments) =
      object.invoke objects method arguments := by
  cases object with
  | event object => rfl
  | window object => simp only [invoke, Value.toJsons_normals]
  | element object => simp only [invoke, ElementObject.invoke_normals]

/-- Two computations come to related values and leave the same objects. -/
def Parallel {α : Type} (related : α → α → Prop) (left right : StateM Objects α) : Prop :=
  ∀ objects : Objects, related (left.run objects).1 (right.run objects).1 ∧
    (right.run objects).2 = (left.run objects).2

namespace Parallel

variable {α β : Type} {related : α → α → Prop} {related' : β → β → Prop}

theorem pure {left right : α} (holds : related left right) :
    Parallel related (pure left) (pure right) := fun _ => ⟨holds, rfl⟩

theorem bind {left right : StateM Objects α} {next next' : α → StateM Objects β}
    (first : Parallel related left right)
    (second : ∀ one other, related one other → Parallel related' (next one) (next' other)) :
    Parallel related' (left >>= next) (right >>= next') := by
  intro objects
  obtain ⟨holds, same⟩ := first objects
  rw [Objects.run_bind, Objects.run_bind, same]
  exact second _ _ holds _

theorem read {answer answer' : Objects → α}
    (holds : ∀ objects, related (answer objects) (answer' objects)) :
    Parallel related (do return answer (← MonadState.get)) (do return answer' (← MonadState.get)) :=
  fun objects => ⟨holds objects, rfl⟩

end Parallel

theorem Parallel.invoke (method : String) {arguments arguments' : List Value}
    (alike : Value.normals arguments = Value.normals arguments') {left right : Value}
    (receivers : left.Alike right) :
    Parallel Value.Alike (left.invoke method arguments) (right.invoke method arguments') := by
  cases left with
  | host id =>
      obtain rfl := (receivers.eq_atom (.host id) trivial).mp rfl
      intro objects
      rw [Value.run_invoke, Value.run_invoke]
      cases objects.get? id with
      | none => exact ⟨rfl, rfl⟩
      | some object =>
          simp only
          rw [← object.invoke_normals, alike, object.invoke_normals]
          exact ⟨rfl, rfl⟩
  | absent | json | tuple | eventHandler | refHandler =>
      cases right with
      | host id => cases (receivers.eq_atom (.host id) trivial).mpr rfl
      | absent | json | tuple | eventHandler | refHandler => exact .pure rfl

/-- What is in a hole; nothing if the hole is missing. -/
def Scope.hole (scope : Scope) (index : UInt32) : Value :=
  (Assoc.get? index scope.holes).getD .absent

/-- What is stored under a stable key; nothing if the key is missing. -/
def Scope.stored (scope : Scope) (key : String) : Value := (Assoc.get? key scope.refs).getD .absent

/-- Two scopes bind values with the same normal forms. -/
structure Scope.Alike (left right : Scope) : Prop where
  holes : ∀ index, (left.hole index).Alike (right.hole index)
  refs : ∀ key, (left.stored key).Alike (right.stored key)
  global : left.global.Alike right.global

namespace Expr

mutual
/-- In scopes that are alike an expression comes to values that are alike, with the same calls. -/
theorem parallel_evaluate {left right : Scope} (alike : left.Alike right) (e : Expr) :
    Parallel Value.Alike (e.evaluate left) (e.evaluate right) := by
  cases e with
  | global => exact .pure alike.global
  | hole index => exact .pure (alike.holes index)
  | deref key => exact .pure (alike.refs key)
  | tuple0 | literal | nothing => exact .pure rfl
  | tuple1 tag first =>
      exact .bind (parallel_evaluate alike first) fun _ _ same =>
        .pure (.tuple (Value.normals_cons_congr rfl (Value.normals_cons_congr same rfl)))
  | tuple2 tag first second =>
      exact .bind (parallel_evaluate alike first) fun _ _ same =>
        .bind (parallel_evaluate alike second) fun _ _ same' =>
          .pure (.tuple (Value.normals_cons_congr rfl
            (Value.normals_cons_congr same (Value.normals_cons_congr same' rfl))))
  | get key object =>
      refine .bind (parallel_evaluate alike key) fun key key' keys =>
        .bind (parallel_evaluate alike object) fun object object' same => ?_
      rw [keys.key?]
      cases key'.key? with
      | none => exact .pure rfl
      | some key => exact .read fun objects => same.member objects key
  | invoke method object arguments =>
      refine .bind (parallel_evaluate alike object) fun object object' receivers =>
        .bind (parallel_evaluate alike method) fun method method' methods =>
          .bind (parallel_evaluateAll alike arguments) fun arguments arguments' same => ?_
      rw [methods.key?]
      cases method'.key? with
      | none => exact .pure rfl
      | some method => exact .invoke method same receivers
  | eventHandler preventDefault stopPropagation stopImmediate action =>
      exact .bind (parallel_evaluate alike preventDefault) fun _ _ prevent =>
        .bind (parallel_evaluate alike stopPropagation) fun _ _ stop =>
          .bind (parallel_evaluate alike stopImmediate) fun _ _ immediate =>
            .bind (parallel_evaluate alike action) fun _ _ act =>
              .read fun objects => by
                rw [prevent.isTruthy, stop.isTruthy, immediate.isTruthy, act.action?]
                rfl
  | just inner => exact parallel_evaluate alike inner
  | refHandler action =>
      exact .bind (parallel_evaluate alike action) fun _ _ act => .read fun objects => by
        rw [act.action?]
        rfl

theorem parallel_evaluateAll {left right : Scope} (alike : left.Alike right) (es : List Expr) :
    Parallel (fun one other => Value.normals one = Value.normals other)
      (evaluateAll left es) (evaluateAll right es) := by
  cases es with
  | nil => exact .pure rfl
  | cons first rest =>
      exact .bind (parallel_evaluate alike first) fun _ _ same =>
        .bind (parallel_evaluateAll alike rest) fun _ _ others =>
          .pure (Value.normals_cons_congr same others)
end

end Expr

/-! ## Plain scopes -/

/-- Everything that a scope binds is plain. -/
structure Scope.IsPlain (scope : Scope) : Prop where
  holes : ∀ index, (scope.hole index).IsPlain
  refs : ∀ key, (scope.stored key).IsPlain
  global : scope.global.IsPlain

/-- What two scopes bind is sent as the same JSON values; what is missing counts as null. -/
structure Scope.SentAlike (objects : Objects) (left right : Scope) : Prop where
  holes : ∀ index, (left.hole index).toJson objects = (right.hole index).toJson objects
  refs : ∀ key, (left.stored key).toJson objects = (right.stored key).toJson objects
  global : left.global.toJson objects = right.global.toJson objects

/-- No message shows a difference between two values: they are sent as the same JSON value, count as
    true alike, ask for the same action, and are the same record if one of them is a record. -/
structure Value.Indistinguishable (objects : Objects) (left right : Value) : Prop where
  sent : left.toJson objects = right.toJson objects
  truthy : left.isTruthy = right.isTruthy
  action : left.action? objects = right.action? objects
  event : ∀ record, left = .eventHandler record ↔ right = .eventHandler record
  ref : ∀ record, left = .refHandler record ↔ right = .refHandler record

theorem Value.Alike.indistinguishable {left right : Value} (alike : left.Alike right)
    (objects : Objects) : Indistinguishable objects left right where
  sent := alike.toJson objects
  truthy := alike.isTruthy
  action := alike.action? objects
  event record := alike.eq_atom (.eventHandler record) trivial
  ref record := alike.eq_atom (.refHandler record) trivial

namespace Scope

variable {objects : Objects} {left right : Scope}

theorem SentAlike.alike (sent : SentAlike objects left right) (isPlain : left.IsPlain)
    (isPlain' : right.IsPlain) : left.Alike right where
  holes index := .of_plain objects (isPlain.holes index) (isPlain'.holes index) (sent.holes index)
  refs key := .of_plain objects (isPlain.refs key) (isPlain'.refs key) (sent.refs key)
  global := .of_plain objects isPlain.global isPlain'.global sent.global

/-- The scope with another value in a hole. -/
def bindHole (index : UInt32) (value : Value) (scope : Scope) : Scope :=
  { scope with holes := Assoc.insert index value scope.holes }

/-- The scope with another value under a stable key. -/
def bindRef (key : String) (value : Value) (scope : Scope) : Scope :=
  { scope with refs := Assoc.insert key value scope.refs }

/-- The scope with another global value. -/
def bindGlobal (value : Value) (scope : Scope) : Scope := { scope with global := value }

theorem Alike.bindHole {value other : Value} (alike : value.Alike other) (index : UInt32)
    (scope : Scope) : (scope.bindHole index value).Alike (scope.bindHole index other) where
  holes n := by
    simp only [hole, Scope.bindHole, Assoc.get?_insert]
    split
    · exact alike
    · rfl
  refs _ := rfl
  global := rfl

theorem Alike.bindRef {value other : Value} (alike : value.Alike other) (key : String)
    (scope : Scope) : (scope.bindRef key value).Alike (scope.bindRef key other) where
  holes _ := rfl
  refs name := by
    simp only [stored, Scope.bindRef, Assoc.get?_insert]
    split
    · exact alike
    · rfl
  global := rfl

theorem Alike.bindGlobal {value other : Value} (alike : value.Alike other) (scope : Scope) :
    (scope.bindGlobal value).Alike (scope.bindGlobal other) :=
  ⟨fun _ => rfl, fun _ => rfl, alike⟩

end Scope

namespace Expr

/-- What an expression comes to in two scopes cannot be told apart, and the same methods are called.
-/
def Indistinguishable (e : Expr) (objects : Objects) (left right : Scope) : Prop :=
  let one := (e.evaluate left).run objects
  let other := (e.evaluate right).run objects
  other.2 = one.2 ∧ one.1.Indistinguishable one.2 other.1

theorem indistinguishable_of_alike (e : Expr) (objects : Objects) {left right : Scope}
    (alike : left.Alike right) : e.Indistinguishable objects left right := by
  obtain ⟨values, same⟩ := parallel_evaluate alike e objects
  exact ⟨same, values.indistinguishable _⟩

/-- Plain scopes that bind what is sent alike cannot be told apart by any expression. So in any
    scope a tuple can be put in place of the array that it is sent as, and nothing in place of
    null. -/
theorem tuples_indistinguishable (e : Expr) (objects : Objects) :
    (∀ left right : Scope, left.IsPlain → right.IsPlain → left.SentAlike objects right →
      e.Indistinguishable objects left right) ∧
    ∀ (scope : Scope) (value : Value), value.IsPlain →
      (∀ index, e.Indistinguishable objects (scope.bindHole index value)
        (scope.bindHole index (.json (value.toJson objects)))) ∧
      (∀ key, e.Indistinguishable objects (scope.bindRef key value)
        (scope.bindRef key (.json (value.toJson objects)))) ∧
      e.Indistinguishable objects (scope.bindGlobal value)
        (scope.bindGlobal (.json (value.toJson objects))) := by
  refine ⟨fun left right isPlain isPlain' sent => ?_, fun scope value isPlain => ?_⟩
  · exact e.indistinguishable_of_alike objects (sent.alike isPlain isPlain')
  · have alike : value.Alike (.json (value.toJson objects)) := isPlain.normal_eq objects
    exact ⟨fun index => e.indistinguishable_of_alike objects (.bindHole alike index scope),
      fun key => e.indistinguishable_of_alike objects (.bindRef alike key scope),
      e.indistinguishable_of_alike objects (.bindGlobal alike scope)⟩

/-- A tuple of a text and nothing. -/
def keyTuple : Value := .tuple [.ofString "Key", .absent]

theorem isPlain_keyTuple : keyTuple.IsPlain := by
  refine .tuple fun item among => ?_
  simp only [List.mem_cons, List.not_mem_nil, or_false] at among
  rcases among with rfl | rfl
  · exact .json _
  · exact .absent

/-- The tuple is in hole 0. -/
def tupleScope : Scope := ⟨[(0, keyTuple)], [], .absent⟩

/-- The array that the tuple is sent as, and null where the other scope has nothing. -/
def arrayScope : Scope :=
  ⟨[(0, .json (.array [.string "Key", .null]))], [("field", .json .null)], .json .null⟩

/-- Answers the first item of hole 0, and stops the propagation if there is a second one. -/
def answerFirst : Expr :=
  .eventHandler (.literal (.bool true)) (.get (.literal (.ofUInt64 1)) (.hole 0)) .nothing
    (.tuple1 (.string "Pressed") (.get (.literal (.ofUInt64 0)) (.hole 0)))

/-- A listener answers a tuple and its array with the same record. -/
theorem same_answer_to_tuple_and_array :
    tupleScope.IsPlain ∧ arrayScope.IsPlain ∧ tupleScope.SentAlike .empty arrayScope ∧
      answerFirst.Indistinguishable .empty tupleScope arrayScope ∧
      ((answerFirst.evaluate arrayScope).run .empty).1 =
        .eventHandler ⟨true, false, false, some (.array [.string "Pressed", .string "Key"])⟩ ∧
      answerFirst.Indistinguishable .empty (arrayScope.bindHole 0 keyTuple)
        (arrayScope.bindHole 0 (.json (keyTuple.toJson .empty))) := by
  have plain : tupleScope.IsPlain := by
    refine ⟨fun index => ?_, fun _ => .absent, .absent⟩
    simp only [tupleScope, Scope.hole, Assoc.get?]
    split
    · exact isPlain_keyTuple
    · exact .absent
  have plain' : arrayScope.IsPlain := by
    refine ⟨fun index => ?_, fun key => ?_, .json _⟩
    · simp only [arrayScope, Scope.hole, Assoc.get?]
      split
      · exact .json _
      · exact .absent
    · simp only [arrayScope, Scope.stored, Assoc.get?]
      split
      · exact .json _
      · exact .absent
  have sent : tupleScope.SentAlike .empty arrayScope := by
    refine ⟨fun index => ?_, fun key => ?_, rfl⟩
    · simp only [tupleScope, arrayScope, Scope.hole, Assoc.get?]
      split <;> rfl
    · simp only [tupleScope, arrayScope, Scope.stored, Assoc.get?]
      split <;> rfl
  have bound := (tuples_indistinguishable answerFirst .empty).2 arrayScope _ isPlain_keyTuple
  exact ⟨plain, plain', sent,
    (tuples_indistinguishable answerFirst .empty).1 _ _ plain plain' sent, by cbv, bound.1 0⟩

end Expr

end RemoteView
