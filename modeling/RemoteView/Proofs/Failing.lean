/-! # What fails first

Reading is a chain of steps, and the first one that fails decides. So what a chain fails with is put
together from what its steps fail with, and a list is read up to its first failure.
-/

namespace RemoteView

/-- What reading or decoding fails with. -/
def failure? {ε α : Type} : Except ε α → Option ε
  | .ok _ => none
  | .error error => some error

variable {ε α β : Type}

theorem failure?_eq_some {attempt : Except ε α} {error : ε} :
    failure? attempt = some error ↔ attempt = .error error := by
  cases attempt <;> simp [failure?]

theorem failure?_eq_none {attempt : Except ε α} :
    failure? attempt = none ↔ ∃ value, attempt = .ok value := by
  cases attempt <;> simp [failure?]

theorem Except.bind_eq_ok {first : Except ε α} {next : α → Except ε β} {result : β} :
    (first >>= next) = .ok result ↔ ∃ value, first = .ok value ∧ next value = .ok result := by
  cases first with
  | error error => exact ⟨fun same => (by cases same), fun ⟨_, same, _⟩ => (by cases same)⟩
  | ok value =>
      exact ⟨fun same => ⟨value, rfl, same⟩, fun ⟨_, same, rest⟩ => by cases same; exact rest⟩

/-- The first step fails, or the next one does, with whatever it goes on. -/
theorem failure?_bind {first : Except ε α} {next : α → Except ε β} {later : Option ε}
    (goesOn : ∀ value, first = .ok value → failure? (next value) = later) :
    failure? (first >>= next) = (failure? first).or later := by
  cases first with
  | error error => rfl
  | ok value => exact goesOn value rfl

theorem failure?_bind_pure (first : Except ε α) (make : α → β) :
    failure? (first >>= fun value => pure (make value)) = failure? first := by
  cases first <;> rfl

theorem failure?_map (first : Except ε α) (make : α → β) :
    failure? (first.map make) = failure? first := by
  cases first <;> rfl

theorem findSome?_cons_or (find : α → Option β) (item : α) (rest : List α) :
    (item :: rest).findSome? find = (find item).or (rest.findSome? find) := by
  rw [List.findSome?_cons]
  cases find item <;> rfl

theorem findSome?_flatMap {γ : Type} {find : β → Option γ} {parts : α → List β}
    {whole : α → Option γ} {items : List α}
    (each : ∀ item ∈ items, whole item = (parts item).findSome? find) :
    items.findSome? whole = (items.flatMap parts).findSome? find := by
  induction items with
  | nil => rfl
  | cons item rest ih =>
      rw [List.flatMap_cons, List.findSome?_append, findSome?_cons_or, each item List.mem_cons_self,
        ih fun other later => each other (List.mem_cons_of_mem _ later)]

theorem failure?_mapM (read : α → Except ε β) (items : List α) :
    failure? (items.mapM read) = items.findSome? fun item => failure? (read item) := by
  induction items with
  | nil => rfl
  | cons item rest ih =>
      rw [List.mapM_cons, failure?_bind fun _ _ => failure?_bind_pure .., ih, findSome?_cons_or]

end RemoteView
