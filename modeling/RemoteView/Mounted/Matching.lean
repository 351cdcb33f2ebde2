/-! # Matching children

Which of the old children each new child takes over. A child with a key takes the old child with
this key, and of several the last one; a child without a key takes the old child at its own
position, if that has no key either. No old child is taken twice: later requests for it come to
nothing.
-/

namespace RemoteView.Matching

variable {κ α : Type} [DecidableEq κ]

/-- The last position at which a key stands. -/
def lastWith? (key : κ) : List (Option κ) → Option Nat
  | [] => none
  | first :: rest =>
      match lastWith? key rest with
      | some position => some (position + 1)
      | none => if first = some key then some 0 else none

/-- The position that a new child asks for, given the keys of the old ones. -/
def request (oldKeys : List (Option κ)) (position : Nat) : Option κ → Option Nat
  | some key => lastWith? key oldKeys
  | none => if oldKeys[position]? = some none then some position else none

/-- The positions that new children ask for, from a position on. -/
def requests (oldKeys : List (Option κ)) (position : Nat) : List (Option κ) → List (Option Nat)
  | [] => []
  | key :: rest => request oldKeys position key :: requests oldKeys (position + 1) rest

/-- Serve requests in order from the slots of the old children: what each of them gets, and what is
    left in the slots. -/
def serve (slots : List (Option α)) : List (Option Nat) → List (Option α) × List (Option α)
  | [] => ([], slots)
  | none :: rest =>
      let (served, left) := serve slots rest
      (none :: served, left)
  | some position :: rest =>
      let (served, left) := serve (slots.set position none) rest
      ((slots[position]?).join :: served, left)

/-- What each new child takes over of the old ones, and the old ones that are left. -/
def assign (keyOf : α → Option κ) (old : List α) (keys : List (Option κ)) :
    List (Option α) × List α :=
  let (served, left) := serve (old.map some) (requests (old.map keyOf) 0 keys)
  (served, left.filterMap id)

@[simp] theorem length_requests (oldKeys : List (Option κ)) (position : Nat)
    (keys : List (Option κ)) : (requests oldKeys position keys).length = keys.length := by
  induction keys generalizing position with
  | nil => rfl
  | cons key rest ih => simp [requests, ih]

omit [DecidableEq κ] in
@[simp] theorem length_serve (slots : List (Option α)) (asked : List (Option Nat)) :
    (serve slots asked).1.length = asked.length := by
  induction asked generalizing slots with
  | nil => rfl
  | cons first rest ih =>
      cases first with
      | none => simp [serve, ih]
      | some position => simp [serve, ih]

@[simp] theorem length_assign (keyOf : α → Option κ) (old : List α) (keys : List (Option κ)) :
    (assign keyOf old keys).1.length = keys.length := by
  simp [assign]

end RemoteView.Matching
