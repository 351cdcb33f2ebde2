/-! # Ordered association lists

A finite map kept as the list of its entries in the order in which their keys first appeared.
Writing a key that is present replaces its value in place; removing an entry moves the later ones
up.
-/

namespace RemoteView

/-- Entries in insertion order. Every map the library builds has each key at most once. -/
abbrev Assoc (κ : Type) (α : Type) := List (κ × α)

namespace Assoc

variable {κ α : Type} [DecidableEq κ]

/-- The value stored under a key. -/
def get? (key : κ) : Assoc κ α → Option α
  | [] => none
  | (k, v) :: rest => if k = key then some v else get? key rest

def contains (key : κ) (entries : Assoc κ α) : Bool :=
  (get? key entries).isSome

/-- Write one entry: in place when the key is present, at the end otherwise. -/
def insert (key : κ) (value : α) : Assoc κ α → Assoc κ α
  | [] => [(key, value)]
  | (k, v) :: rest => if k = key then (k, value) :: rest else (k, v) :: insert key value rest

/-- Remove the entry under a key, if there is one. -/
def erase (key : κ) : Assoc κ α → Assoc κ α
  | [] => []
  | (k, v) :: rest => if k = key then rest else (k, v) :: erase key rest

/-- The map written by a list of entries from left to right. -/
def ofList (entries : List (κ × α)) : Assoc κ α :=
  entries.foldl (fun done (key, value) => insert key value done) []

/-- Add an entry only when its key is new. -/
def insertNew (key : κ) (value : α) (entries : Assoc κ α) : Assoc κ α :=
  if contains key entries then entries else entries ++ [(key, value)]

/-- The keys in order. -/
def keys (entries : Assoc κ α) : List κ :=
  entries.map Prod.fst

@[simp] theorem get?_nil (key : κ) : get? key ([] : Assoc κ α) = none := rfl

theorem get?_insert (key k : κ) (value : α) (entries : Assoc κ α) :
    get? k (insert key value entries) = if k = key then some value else get? k entries := by
  induction entries with
  | nil => by_cases h : key = k <;> simp [insert, get?, h, eq_comm]
  | cons entry rest ih =>
      obtain ⟨k', v'⟩ := entry
      by_cases h : k' = key
      · subst h
        by_cases hk : k' = k
        · simp [insert, get?, hk]
        · have hk' : k ≠ k' := fun e => hk e.symm
          simp [insert, get?, hk, hk']
      · by_cases hk : k' = k
        · subst hk
          simp [insert, get?, h]
        · simp [insert, get?, h, hk, ih]

@[simp] theorem get?_insert_self (key : κ) (value : α) (entries : Assoc κ α) :
    get? key (insert key value entries) = some value := by
  simp [get?_insert]

theorem get?_insert_of_ne {key k : κ} (h : k ≠ key) (value : α) (entries : Assoc κ α) :
    get? k (insert key value entries) = get? k entries := by
  simp [get?_insert, h]

omit [DecidableEq κ] in
@[simp] theorem keys_nil : keys ([] : Assoc κ α) = [] := rfl

omit [DecidableEq κ] in
@[simp] theorem keys_cons (entry : κ × α) (rest : Assoc κ α) :
    keys (entry :: rest) = entry.1 :: keys rest := rfl

theorem get?_eq_none_iff {key : κ} {entries : Assoc κ α} :
    get? key entries = none ↔ key ∉ keys entries := by
  induction entries with
  | nil => simp
  | cons entry rest ih =>
      by_cases h : entry.1 = key
      · simp [get?, h]
      · have h' : key ≠ entry.1 := fun e => h e.symm
        simp [get?, h, h', ih]

theorem keys_insert (key : κ) (value : α) (entries : Assoc κ α) :
    keys (insert key value entries) =
      if key ∈ keys entries then keys entries else keys entries ++ [key] := by
  induction entries with
  | nil => simp [insert]
  | cons entry rest ih =>
      by_cases h : entry.1 = key
      · simp [insert, h]
      · have h' : key ≠ entry.1 := fun e => h e.symm
        by_cases inRest : key ∈ keys rest
        · simp [insert, h, inRest, ih]
        · simp [insert, h, h', inRest, ih]

theorem nodup_keys_insert (key : κ) (value : α) {entries : Assoc κ α}
    (distinct : (keys entries).Nodup) : (keys (insert key value entries)).Nodup := by
  rw [keys_insert]
  split
  · exact distinct
  · rename_i new
    rw [List.nodup_append]
    refine ⟨distinct, by simp, ?_⟩
    intro other present last isLast
    rw [List.mem_singleton] at isLast
    subst isLast
    intro same
    exact new (same ▸ present)

theorem keys_erase (key : κ) (entries : Assoc κ α) :
    keys (erase key entries) = (keys entries).erase key := by
  induction entries with
  | nil => rfl
  | cons entry rest ih =>
      by_cases h : entry.1 = key
      · simp [erase, h]
      · simp [erase, h, ih]

theorem get?_erase (key k : κ) {entries : Assoc κ α} (distinct : (keys entries).Nodup) :
    get? k (erase key entries) = if k = key then none else get? k entries := by
  induction entries with
  | nil => simp [erase]
  | cons entry rest ih =>
      obtain ⟨first, value⟩ := entry
      rw [keys_cons, List.nodup_cons] at distinct
      by_cases h : first = key
      · subst h
        by_cases hk : k = first
        · subst hk
          simpa [erase] using get?_eq_none_iff.mpr distinct.1
        · have hk' : first ≠ k := fun e => hk e.symm
          simp [erase, get?, hk, hk']
      · by_cases hk : first = k
        · subst hk
          simp [erase, get?, h]
        · simp [erase, get?, h, hk, ih distinct.2]

theorem get?_append (k : κ) (left right : Assoc κ α) :
    get? k (left ++ right) = (get? k left).or (get? k right) := by
  induction left with
  | nil => simp
  | cons entry rest ih =>
      by_cases h : entry.1 = k
      · simp [get?, h]
      · simp [get?, h, ih]

theorem get?_insertNew (key k : κ) (value : α) (entries : Assoc κ α) :
    get? k (insertNew key value entries) =
      if k = key then some ((get? key entries).getD value) else get? k entries := by
  unfold insertNew contains
  cases stored : get? key entries with
  | some old =>
      by_cases h : k = key
      · simp [h, stored]
      · simp [h]
  | none =>
      by_cases h : k = key
      · subst h
        simp [get?_append, stored, get?]
      · have h' : key ≠ k := fun e => h e.symm
        simp [get?_append, get?, h, h']

end Assoc

end RemoteView
