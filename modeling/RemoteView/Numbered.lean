import RemoteView.Assoc

/-! # Numbered stores

A store that gives each new entry the next unused number. Numbers are never given out twice, so a
number identifies its entry for good.
-/

namespace RemoteView

/-- Entries by number, and the first number that no entry has had. -/
structure Numbered (α : Type) where
  entries : Assoc Nat α
  next : Nat

namespace Numbered

variable {α : Type}

/-- The store without entries. -/
def empty : Numbered α := ⟨[], 0⟩

instance : Inhabited (Numbered α) := ⟨empty⟩

def get? (store : Numbered α) (number : Nat) : Option α := Assoc.get? number store.entries

/-- Write the entry with a number, which counts as given out from then on. -/
def put (store : Numbered α) (number : Nat) (entry : α) : Numbered α :=
  ⟨Assoc.insert number entry store.entries, max store.next (number + 1)⟩

/-- Change the entry with a number, if there is one. -/
def modify (store : Numbered α) (number : Nat) (change : α → α) : Numbered α :=
  match store.get? number with
  | some entry => store.put number (change entry)
  | none => store

/-- Store an entry under the next number. -/
def add (store : Numbered α) (entry : α) : Nat × Numbered α :=
  (store.next, store.put store.next entry)

theorem get?_put (store : Numbered α) (number n : Nat) (entry : α) :
    (store.put number entry).get? n = if n = number then some entry else store.get? n := by
  simp [put, get?, Assoc.get?_insert]

theorem get?_add (store : Numbered α) (n : Nat) (entry : α) :
    (store.add entry).2.get? n = if n = store.next then some entry else store.get? n :=
  get?_put store store.next n entry

theorem get?_modify (store : Numbered α) (number n : Nat) (change : α → α) :
    (store.modify number change).get? n =
      if n = number then (store.get? n).map change else store.get? n := by
  unfold modify
  cases h : store.get? number with
  | none =>
      by_cases hn : n = number
      · subst hn
        simp [h]
      · simp [hn]
  | some entry =>
      by_cases hn : n = number
      · subst hn
        simp [get?_put, h]
      · simp [get?_put, hn]

end Numbered

end RemoteView
