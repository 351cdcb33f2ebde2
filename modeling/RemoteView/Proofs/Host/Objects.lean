import RemoteView.Expr.Evaluate

/-! # Objects stay what they are

No number of a store is given out twice, and no object ever becomes one of another kind, or a handle
one of another tag. Evaluating expressions calls methods on objects that are there, and makes none.
-/

namespace RemoteView

namespace Numbered

variable {α : Type}

/-- Numbers that have not been given out have no entry. -/
def IsBounded (store : Numbered α) : Prop :=
  ∀ number entry, store.get? number = some entry → number < store.next

theorem isBounded_empty : (Numbered.empty : Numbered α).IsBounded := by
  intro number entry found
  simp [empty, get?] at found

theorem IsBounded.put {store : Numbered α} (bounded : store.IsBounded) (number : Nat) (entry : α) :
    (store.put number entry).IsBounded := by
  intro other found isFound
  rw [get?_put] at isFound
  have next : (store.put number entry).next = max store.next (number + 1) := rfl
  by_cases same : other = number
  · omega
  · rw [if_neg same] at isFound
    have := bounded other found isFound
    omega

theorem IsBounded.modify {store : Numbered α} (bounded : store.IsBounded) (number : Nat)
    (change : α → α) : (store.modify number change).IsBounded := by
  unfold Numbered.modify
  cases store.get? number with
  | none => exact bounded
  | some entry => exact bounded.put number (change entry)

theorem IsBounded.next_modify {store : Numbered α} (bounded : store.IsBounded) (number : Nat)
    (change : α → α) : (store.modify number change).next = store.next := by
  unfold Numbered.modify
  cases found : store.get? number with
  | none => rfl
  | some entry => exact Nat.max_eq_left (bounded number entry found)

end Numbered

/-- What a host object is. -/
inductive ObjectKind where
  | element
  | event
  | window
  deriving DecidableEq

def HostObject.kind : HostObject → ObjectKind
  | .element _ => .element
  | .event _ => .event
  | .window _ => .window

/-- The tag of an object, if it is a handle. -/
def HostObject.tag? : HostObject → Option String
  | .element object => some object.tag
  | .event _ => none
  | .window _ => none

theorem ElementObject.tag_invoke (objects : Objects) (method : String) (arguments : List Value)
    (object : ElementObject) : (object.invoke objects method arguments).2.tag = object.tag := by
  unfold ElementObject.invoke
  simp only
  split
  · rfl
  · split <;> rfl
  · rfl

theorem HostObject.invoke_same (objects : Objects) (method : String) (arguments : List Value)
    (object : HostObject) : (object.invoke objects method arguments).2.kind = object.kind ∧
      (object.invoke objects method arguments).2.tag? = object.tag? := by
  cases object with
  | element object =>
      exact ⟨rfl, congrArg some (object.tag_invoke objects method arguments)⟩
  | event | window => exact ⟨rfl, rfl⟩

namespace Objects

/-- The kind of the object with a number. -/
def kind? (objects : Objects) (id : ObjectId) : Option ObjectKind :=
  (objects.get? id).map HostObject.kind

theorem kind?_put (objects : Objects) (id other : ObjectId) (object : HostObject) :
    Objects.kind? (objects.put id object) other =
      if other = id then some object.kind else objects.kind? other := by
  unfold kind?
  rw [Numbered.get?_put]
  split <;> rfl

/-- The tag of the handle with a number. -/
def tag? (objects : Objects) (id : ObjectId) : Option String :=
  (objects.get? id).bind HostObject.tag?

theorem tag?_put (objects : Objects) (id other : ObjectId) (object : HostObject) :
    Objects.tag? (objects.put id object) other =
      if other = id then object.tag? else objects.tag? other := by
  unfold tag?
  rw [Numbered.get?_put]
  split <;> rfl

theorem element?_of_tag? {objects : Objects} {id : ObjectId} {tag : String}
    (tagged : objects.tag? id = some tag) :
    ∃ object, objects.element? id = some object ∧ object.tag = tag := by
  obtain ⟨object, found, isTag⟩ := Option.bind_eq_some_iff.mp tagged
  cases object with
  | element object => exact ⟨object, by rw [element?, found], Option.some.inj isTag⟩
  | event | window => cases isTag

/-- The second store has everything that the first one has, of the same kind. -/
structure Kept (before after : Objects) : Prop where
  kinds : ∀ id kind, before.kind? id = some kind → after.kind? id = some kind
  bounded : before.IsBounded → after.IsBounded

namespace Kept

variable {before middle after : Objects}

theorem refl (objects : Objects) : Kept objects objects := ⟨fun _ _ there => there, id⟩

theorem trans (first : Kept before middle) (second : Kept middle after) : Kept before after where
  kinds id kind there := second.kinds id kind (first.kinds id kind there)
  bounded bounded := second.bounded (first.bounded bounded)

theorem put {objects : Objects} {id : ObjectId} {object : HostObject}
    (same : ∀ kind, objects.kind? id = some kind → object.kind = kind) :
    Kept objects (objects.put id object) where
  kinds other kind there := by
    rw [kind?_put]
    split
    · rename_i here
      rw [same kind (here ▸ there)]
    · exact there
  bounded bounded := bounded.put id object

theorem modifyElement (objects : Objects) (id : ObjectId)
    (change : ElementObject → ElementObject) : Kept objects (objects.modifyElement id change) := by
  unfold Objects.modifyElement element?
  split
  · rename_i object there
    refine put fun kind isKind => ?_
    split at there
    · rename_i inner found
      rw [kind?, found] at isKind
      exact Option.some.inj isKind
    · cases there
  · exact refl objects

end Kept

/-- Besides, every handle has its tag. -/
structure KeptTagged (before after : Objects) : Prop extends Kept before after where
  tags : ∀ id tag, before.tag? id = some tag → after.tag? id = some tag

namespace KeptTagged

variable {before middle after : Objects}

theorem refl (objects : Objects) : KeptTagged objects objects :=
  ⟨.refl objects, fun _ _ there => there⟩

theorem trans (first : KeptTagged before middle) (second : KeptTagged middle after) :
    KeptTagged before after where
  toKept := first.toKept.trans second.toKept
  tags id tag there := second.tags id tag (first.tags id tag there)

theorem put {objects : Objects} {id : ObjectId} {object : HostObject}
    (same : ∀ old, objects.get? id = some old → object.kind = old.kind ∧ object.tag? = old.tag?) :
    KeptTagged objects (objects.put id object) where
  toKept := .put fun kind isKind => by
    obtain ⟨old, found, rfl⟩ := Option.map_eq_some_iff.mp isKind
    exact (same old found).1
  tags other tag there := by
    rw [tag?_put]
    split
    · rename_i here
      subst here
      obtain ⟨old, found, isTag⟩ := Option.bind_eq_some_iff.mp there
      rw [(same old found).2, isTag]
    · exact there

theorem modifyElement (objects : Objects) (id : ObjectId) (change : ElementObject → ElementObject)
    (same : ∀ object, (change object).tag = object.tag) :
    KeptTagged objects (objects.modifyElement id change) := by
  unfold Objects.modifyElement
  cases there : objects.element? id with
  | none => exact refl objects
  | some object =>
      refine put fun old found => ?_
      rw [element?, found] at there
      cases old with
      | element old =>
          obtain rfl := Option.some.inj there
          exact ⟨rfl, congrArg some (same old)⟩
      | event | window => cases there

end KeptTagged

theorem run_bind {α β : Type} (run : StateM Objects α) (next : α → StateM Objects β)
    (objects : Objects) : (run >>= next).run objects =
      (next (run.run objects).1).run (run.run objects).2 := rfl

end Objects

/-- A computation keeps every object. -/
def Keeps {α : Type} (run : StateM Objects α) : Prop :=
  ∀ objects : Objects, objects.KeptTagged (run.run objects).2

namespace Keeps

variable {α β : Type}

theorem pure (value : α) : Keeps (pure value) := fun objects => .refl objects

theorem bind {run : StateM Objects α} {next : α → StateM Objects β} (first : Keeps run)
    (second : ∀ value, Keeps (next value)) : Keeps (run >>= next) :=
  fun objects => (first objects).trans (second _ _)

theorem read (answer : Objects → α) : Keeps (do return answer (← MonadState.get)) :=
  fun objects => .refl objects

end Keeps

/-- A method call on an object: if it is there, it is written back. -/
theorem Value.run_invoke (method : String) (arguments : List Value) (id : ObjectId)
    (objects : Objects) : (Value.invoke method arguments (.host id)).run objects =
      match objects.get? id with
      | some object => ((object.invoke objects method arguments).1,
          objects.put id (object.invoke objects method arguments).2)
      | none => (.absent, objects) := by
  rw [Value.invoke, StateT.run_bind, StateT.run_get, pure_bind]
  cases objects.get? id with
  | none => rfl
  | some object =>
      dsimp only
      generalize object.invoke objects method arguments = answer
      rfl

theorem Keeps.invoke (method : String) (arguments : List Value) (value : Value) :
    Keeps (value.invoke method arguments) := by
  cases value with
  | absent | json | tuple | eventHandler | refHandler => exact .pure _
  | host id =>
      intro objects
      rw [Value.run_invoke]
      cases found : objects.get? id with
      | none => exact .refl objects
      | some object =>
          refine .put fun old there => ?_
          obtain rfl := Option.some.inj (found.symm.trans there)
          exact object.invoke_same objects method arguments

namespace Expr

mutual
theorem keeps_evaluate (scope : Scope) (e : Expr) : Keeps (e.evaluate scope) := by
  cases e with
  | global | hole | tuple0 | literal | nothing | deref => exact .pure _
  | tuple1 tag first => exact .bind (keeps_evaluate scope first) fun _ => .pure _
  | tuple2 tag first second =>
      exact .bind (keeps_evaluate scope first) fun _ =>
        .bind (keeps_evaluate scope second) fun _ => .pure _
  | get key object =>
      refine .bind (keeps_evaluate scope key) fun key =>
        .bind (keeps_evaluate scope object) fun object => ?_
      cases key.key? with
      | none => exact .pure _
      | some key => exact .read _
  | invoke method object arguments =>
      refine .bind (keeps_evaluate scope object) fun object =>
        .bind (keeps_evaluate scope method) fun method =>
          .bind (keeps_evaluateAll scope arguments) fun arguments => ?_
      cases method.key? with
      | none => exact .pure _
      | some method => exact .invoke method arguments object
  | eventHandler preventDefault stopPropagation stopImmediate action =>
      exact .bind (keeps_evaluate scope preventDefault) fun _ =>
        .bind (keeps_evaluate scope stopPropagation) fun _ =>
          .bind (keeps_evaluate scope stopImmediate) fun _ =>
            .bind (keeps_evaluate scope action) fun _ => .read _
  | just inner => exact keeps_evaluate scope inner
  | refHandler action => exact .bind (keeps_evaluate scope action) fun _ => .read _

theorem keeps_evaluateAll (scope : Scope) (es : List Expr) : Keeps (evaluateAll scope es) := by
  cases es with
  | nil => exact .pure _
  | cons first rest =>
      exact .bind (keeps_evaluate scope first) fun _ =>
        .bind (keeps_evaluateAll scope rest) fun _ => .pure _
end

end Expr

end RemoteView
