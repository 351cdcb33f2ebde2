import RemoteView.Proofs.Host.Objects

/-! # Evaluating apart from some objects

An expression reaches host objects only through the values in its scope. When none of them leads to
certain objects, evaluation neither sees nor changes these: on stores that differ there only, it
comes to the same value and again to stores that differ there only.
-/

namespace RemoteView

/-- Stores that differ only in some objects that both have. What is outside of these is no event, so
    it leads to no other object. -/
structure AlikeObjects (hidden : ObjectId → Prop) (left right : Objects) : Prop where
  next : right.next = left.next
  get? : ∀ id, ¬ hidden id → right.get? id = left.get? id
  plain : ∀ id event, ¬ hidden id → left.get? id ≠ some (.event event)
  bounded : ∀ id, hidden id → id < left.next

variable {hidden : ObjectId → Prop}

namespace Value

mutual
/-- Does a value lead to none of some objects? -/
def Avoids (hidden : ObjectId → Prop) : Value → Prop
  | .host id => ¬ hidden id
  | .tuple items => AllAvoid hidden items
  | .absent | .json _ | .eventHandler _ | .refHandler _ => True

/-- Do values lead to none of some objects? -/
def AllAvoid (hidden : ObjectId → Prop) : List Value → Prop
  | [] => True
  | item :: rest => Avoids hidden item ∧ AllAvoid hidden rest
end

theorem allAvoid_iff {items : List Value} :
    AllAvoid hidden items ↔ ∀ item ∈ items, item.Avoids hidden := by
  induction items with
  | nil => simp [AllAvoid]
  | cons item rest ih => simp [AllAvoid, ih]

@[simp] theorem avoids_ofJson? (found : Option Json) : (ofJson? found).Avoids hidden := by
  cases found <;> trivial

end Value

namespace AlikeObjects

variable {left right : Objects}

theorem put (alike : AlikeObjects hidden left right) {id : ObjectId} {object : HostObject}
    (plain : ∀ event, object ≠ .event event) :
    AlikeObjects hidden (left.put id object) (right.put id object) where
  next := by
    have next := alike.next
    simp only [Numbered.put, next]
  get? other free := by
    rw [Numbered.get?_put, Numbered.get?_put, alike.get? other free]
  plain other event free := by
    rw [Numbered.get?_put]
    split
    · simpa using plain event
    · exact alike.plain other event free
  bounded other there := Nat.lt_of_lt_of_le (alike.bounded other there) (Nat.le_max_left _ _)

theorem put_right (alike : AlikeObjects hidden left right) {id : ObjectId} (there : hidden id)
    (object : HostObject) : AlikeObjects hidden left (right.put id object) where
  next := by
    have small : id + 1 ≤ right.next := by
      rw [alike.next]
      exact alike.bounded id there
    exact (Nat.max_eq_left small).trans alike.next
  get? other free := by
    have apart : other ≠ id := by
      rintro rfl
      exact free there
    rw [Numbered.get?_put, if_neg apart, alike.get? other free]
  plain := alike.plain
  bounded := alike.bounded

mutual
theorem toJson_eq (alike : AlikeObjects hidden left right) {value : Value}
    (avoids : value.Avoids hidden) : value.toJson right = value.toJson left := by
  cases value with
  | absent | json | eventHandler | refHandler => rfl
  | tuple items => simp only [Value.toJson, toJsons_eq alike avoids]
  | host id => simp only [Value.toJson, Objects.describe, alike.get? id avoids]

theorem toJsons_eq (alike : AlikeObjects hidden left right) {items : List Value}
    (avoid : Value.AllAvoid hidden items) : Value.toJsons right items = Value.toJsons left items := by
  cases items with
  | nil => rfl
  | cons item rest =>
      simp only [Value.toJsons, toJson_eq alike avoid.1, toJsons_eq alike avoid.2]
end

theorem action?_eq (alike : AlikeObjects hidden left right) {value : Value}
    (avoids : value.Avoids hidden) : value.action? right = value.action? left := by
  unfold Value.action?
  rw [alike.toJson_eq avoids]

theorem member_eq (alike : AlikeObjects hidden left right) (key : String) {value : Value}
    (avoids : value.Avoids hidden) : value.member right key = value.member left key ∧
      (value.member left key).Avoids hidden := by
  cases value with
  | absent | eventHandler | refHandler => exact ⟨rfl, trivial⟩
  | json inner => cases inner <;> simp [Value.member, Value.Avoids]
  | tuple items =>
      refine ⟨rfl, ?_⟩
      simp only [Value.member]
      cases found : (Value.position? key).bind fun index => items[index]? with
      | none => trivial
      | some item =>
          obtain ⟨index, -, there⟩ := Option.bind_eq_some_iff.mp found
          exact Value.allAvoid_iff.mp avoids item (List.mem_of_getElem? there)
  | host id =>
      simp only [Value.member, alike.get? id avoids, true_and]
      cases found : left.get? id with
      | none => trivial
      | some object =>
          cases object with
          | event event => exact absurd found (alike.plain id event avoids)
          | element object =>
              simp only [HostObject.member]
              split
              · trivial
              · exact Value.avoids_ofJson? _
          | window object => exact Value.avoids_ofJson? _

theorem invoke_eq (alike : AlikeObjects hidden left right) (method : String)
    {arguments : List Value} (avoid : Value.AllAvoid hidden arguments) {object : HostObject}
    (plain : ∀ event, object ≠ .event event) :
    object.invoke right method arguments = object.invoke left method arguments ∧
      (object.invoke left method arguments).1.Avoids hidden ∧
      ∀ event, (object.invoke left method arguments).2 ≠ .event event := by
  cases object with
  | event event => exact absurd rfl (plain event)
  | window object =>
      refine ⟨?_, trivial, by simp [HostObject.invoke]⟩
      simp only [HostObject.invoke, alike.toJsons_eq avoid]
  | element object =>
      have same : object.invoke right method arguments = object.invoke left method arguments ∧
          (object.invoke left method arguments).1.Avoids hidden := by
        unfold ElementObject.invoke
        simp only
        split
        · exact ⟨rfl, Value.avoids_ofJson? _⟩
        · have written := avoid.2.1
          split
          · exact ⟨by rw [alike.toJson_eq written], trivial⟩
          · exact ⟨rfl, trivial⟩
        · exact ⟨rfl, trivial⟩
      simp only [HostObject.invoke, same.1]
      exact ⟨trivial, same.2, by simp⟩

end AlikeObjects

/-- A computation comes to the same value on stores that differ only in some objects. -/
def Agrees {α : Type} (hidden : ObjectId → Prop) (good : α → Prop) (run : StateM Objects α) :
    Prop :=
  ∀ left right, AlikeObjects hidden left right →
    (run.run right).1 = (run.run left).1 ∧ good (run.run left).1 ∧
      AlikeObjects hidden (run.run left).2 (run.run right).2

namespace Agrees

variable {α β : Type} {good : α → Prop} {good' : β → Prop}

theorem pure {value : α} (holds : good value) : Agrees hidden good (pure value) :=
  fun _ _ alike => ⟨rfl, holds, alike⟩

theorem bind {run : StateM Objects α} {next : α → StateM Objects β}
    (first : Agrees hidden good run)
    (second : ∀ value, good value → Agrees hidden good' (next value)) :
    Agrees hidden good' (run >>= next) := by
  intro left right alike
  obtain ⟨same, holds, middle⟩ := first left right alike
  rw [Objects.run_bind, Objects.run_bind, same]
  exact second _ holds _ _ middle

theorem read {answer : Objects → α}
    (same : ∀ left right, AlikeObjects hidden left right →
      answer right = answer left ∧ good (answer left)) :
    Agrees hidden good (do return answer (← MonadState.get)) := by
  intro left right alike
  exact ⟨(same left right alike).1, (same left right alike).2, alike⟩

theorem invoke (method : String) {arguments : List Value} {value : Value}
    (avoid : Value.AllAvoid hidden arguments) (avoids : value.Avoids hidden) :
    Agrees hidden (Value.Avoids hidden) (value.invoke method arguments) := by
  cases value with
  | absent | json | tuple | eventHandler | refHandler => exact .pure trivial
  | host id =>
      intro left right alike
      rw [Value.run_invoke, Value.run_invoke, alike.get? id avoids]
      cases found : left.get? id with
      | none => exact ⟨rfl, trivial, alike⟩
      | some object =>
          have plain : ∀ event, object ≠ .event event := by
            rintro event rfl
            exact alike.plain id event avoids found
          obtain ⟨same, good, still⟩ := alike.invoke_eq method avoid plain
          simp only [same]
          exact ⟨trivial, good, alike.put still⟩

end Agrees

/-- Does nothing in a scope lead to some objects? -/
structure Scope.Avoids (hidden : ObjectId → Prop) (scope : Scope) : Prop where
  holes : ∀ index value, Assoc.get? index scope.holes = some value → value.Avoids hidden
  refs : ∀ key value, Assoc.get? key scope.refs = some value → value.Avoids hidden
  global : scope.global.Avoids hidden

namespace Expr

mutual
theorem agrees_evaluate {scope : Scope} (avoids : scope.Avoids hidden) (e : Expr) :
    Agrees hidden (Value.Avoids hidden) (e.evaluate scope) := by
  cases e with
  | global => exact .pure avoids.global
  | hole index =>
      refine .pure ?_
      cases found : Assoc.get? index scope.holes with
      | none => trivial
      | some value => exact avoids.holes index value found
  | tuple0 tag => exact .pure ⟨trivial, trivial⟩
  | tuple1 tag first =>
      exact .bind (agrees_evaluate avoids first) fun value good =>
        .pure ⟨trivial, good, trivial⟩
  | tuple2 tag first second =>
      exact .bind (agrees_evaluate avoids first) fun value good =>
        .bind (agrees_evaluate avoids second) fun value' good' =>
          .pure ⟨trivial, good, good', trivial⟩
  | literal value => exact .pure trivial
  | get key object =>
      refine .bind (agrees_evaluate avoids key) fun key _ =>
        .bind (agrees_evaluate avoids object) fun object good => ?_
      cases key.key? with
      | none => exact .pure trivial
      | some key => exact .read fun left right alike => alike.member_eq key good
  | invoke method object arguments =>
      refine .bind (agrees_evaluate avoids object) fun object good =>
        .bind (agrees_evaluate avoids method) fun method _ =>
          .bind (agrees_evaluateAll avoids arguments) fun arguments good' => ?_
      cases method.key? with
      | none => exact .pure trivial
      | some method => exact .invoke method good' good
  | eventHandler preventDefault stopPropagation stopImmediate action =>
      exact .bind (agrees_evaluate avoids preventDefault) fun _ _ =>
        .bind (agrees_evaluate avoids stopPropagation) fun _ _ =>
          .bind (agrees_evaluate avoids stopImmediate) fun _ _ =>
            .bind (agrees_evaluate avoids action) fun action good =>
              .read fun left right alike => ⟨by rw [alike.action?_eq good], trivial⟩
  | just inner => exact agrees_evaluate avoids inner
  | nothing => exact .pure trivial
  | refHandler action =>
      exact .bind (agrees_evaluate avoids action) fun action good =>
        .read fun left right alike => ⟨by rw [alike.action?_eq good], trivial⟩
  | deref key =>
      refine .pure ?_
      cases found : Assoc.get? key scope.refs with
      | none => trivial
      | some value => exact avoids.refs key value found

theorem agrees_evaluateAll {scope : Scope} (avoids : scope.Avoids hidden) (es : List Expr) :
    Agrees hidden (Value.AllAvoid hidden) (evaluateAll scope es) := by
  cases es with
  | nil => exact .pure trivial
  | cons first rest =>
      exact .bind (agrees_evaluate avoids first) fun value good =>
        .bind (agrees_evaluateAll avoids rest) fun values good' => .pure ⟨good, good'⟩
end

end Expr

end RemoteView
