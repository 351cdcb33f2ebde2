import Mathlib.Data.List.Forall2
import RemoteView.Mounted.Matching

/-! # What matching comes to

Serving takes nothing twice and loses nothing: what was given out and what is left are the old
children in another order. Everything that is given out has the key it was asked for. When no key
is asked for twice, everyone gets the slot asked for, and a list that is matched with its own keys
is given out as it is.
-/

namespace RemoteView.Matching

variable {κ α : Type} [DecidableEq κ]

theorem key_of_lastWith? {key : κ} {keys : List (Option κ)} {position : Nat}
    (found : lastWith? key keys = some position) : keys[position]? = some (some key) := by
  induction keys generalizing position with
  | nil => simp [lastWith?] at found
  | cons first rest ih =>
      unfold lastWith? at found
      cases later : lastWith? key rest with
      | some inner =>
          simp only [later, Option.some.injEq] at found
          subst found
          simpa using ih later
      | none =>
          simp only [later] at found
          split at found
          · rename_i here
            simp only [Option.some.injEq] at found
            subst found
            simp [here]
          · simp at found

theorem key_of_request {oldKeys : List (Option κ)} {start position : Nat} {key : Option κ}
    (asked : request oldKeys start key = some position) : oldKeys[position]? = some key := by
  cases key with
  | some key => exact key_of_lastWith? asked
  | none =>
      simp only [request] at asked
      split at asked
      · rename_i unkeyed
        simp only [Option.some.injEq] at asked
        subst asked
        exact unkeyed
      · simp at asked

section Serve

omit [DecidableEq κ]

theorem perm_set_none (slots : List (Option α)) (position : Nat) :
    ((slots[position]?).join.toList ++ (slots.set position none).filterMap id).Perm
      (slots.filterMap id) := by
  induction slots generalizing position with
  | nil => simp
  | cons slot rest ih =>
      cases position with
      | zero => cases slot <;> simp
      | succ position =>
          have inside := ih position
          cases slot with
          | none => simpa using inside
          | some value =>
              simp only [List.getElem?_cons_succ, List.set_cons_succ, List.filterMap_cons, id_eq]
              exact List.perm_middle.trans (inside.cons value)

theorem perm_serve (slots : List (Option α)) (asked : List (Option Nat)) :
    ((serve slots asked).1.filterMap id ++ (serve slots asked).2.filterMap id).Perm
      (slots.filterMap id) := by
  induction asked generalizing slots with
  | nil => simp [serve]
  | cons first rest ih =>
      cases first with
      | none => simpa [serve] using ih slots
      | some position =>
          have taken := perm_set_none slots position
          have others := ih (slots.set position none)
          have here : ((slots[position]?).join.toList ++
              ((serve (slots.set position none) rest).1.filterMap id ++
                (serve (slots.set position none) rest).2.filterMap id)).Perm
              (slots.filterMap id) := (others.append_left _).trans taken
          cases slot : (slots[position]?).join with
          | none => simpa [serve, slot] using here
          | some value => simpa [serve, slot] using here

theorem serve_mem {slots : List (Option α)} {asked : List (Option Nat)} {i : Nat} {value : α}
    (served : (serve slots asked).1[i]? = some (some value)) :
    ∃ position, asked[i]? = some (some position) ∧ slots[position]? = some (some value) := by
  induction asked generalizing slots i with
  | nil => simp [serve] at served
  | cons first rest ih =>
      cases first with
      | none =>
          cases i with
          | zero => simp [serve] at served
          | succ i => simpa using ih (by simpa [serve] using served)
      | some position =>
          cases i with
          | zero =>
              refine ⟨position, rfl, ?_⟩
              simpa [serve, Option.join_eq_some_iff] using served
          | succ i =>
              have later : (serve (slots.set position none) rest).1[i]? = some (some value) := by
                simpa [serve] using served
              obtain ⟨other, asks, slot⟩ := ih later
              refine ⟨other, by simpa using asks, ?_⟩
              rw [List.getElem?_set] at slot
              split at slot
              · split at slot <;> simp at slot
              · exact slot

theorem serve_of_nodup {slots : List (Option α)} {asked : List (Option Nat)}
    (once : (asked.filterMap id).Nodup) :
    (serve slots asked).1 = asked.map fun position => position.bind fun at_ => slots[at_]?.join := by
  induction asked generalizing slots with
  | nil => rfl
  | cons first rest ih =>
      cases first with
      | none => simpa [serve] using ih (by simpa using once)
      | some position =>
          simp only [List.filterMap_cons, id_eq, List.nodup_cons] at once
          obtain ⟨fresh, once⟩ := once
          simp only [serve, List.map_cons, Option.bind_some, ih once, List.cons.injEq, true_and]
          refine List.map_congr_left fun other asks => ?_
          cases other with
          | none => rfl
          | some other =>
              have apart : position ≠ other := by
                intro same
                subst same
                exact fresh (List.mem_filterMap.mpr ⟨some position, asks, rfl⟩)
              simp [List.getElem?_set, apart]

end Serve

theorem requests_getElem? (oldKeys : List (Option κ)) (start : Nat) (keys : List (Option κ))
    (i : Nat) : (requests oldKeys start keys)[i]? =
      (keys[i]?).map (request oldKeys (start + i)) := by
  induction keys generalizing start i with
  | nil => simp [requests]
  | cons key rest ih =>
      cases i with
      | zero => simp [requests]
      | succ i => simp [requests, ih, Nat.add_assoc, Nat.add_comm 1 i]

theorem key_of_assign {keyOf : α → Option κ} {old : List α} {keys : List (Option κ)} {i : Nat}
    {value : α} (served : (assign keyOf old keys).1[i]? = some (some value)) :
    keys[i]? = some (keyOf value) ∧ value ∈ old := by
  obtain ⟨position, asked, slot⟩ := serve_mem served
  rw [requests_getElem?, Option.map_eq_some_iff] at asked
  obtain ⟨key, there, requested⟩ := asked
  have stored : old[position]? = some value := by simpa [List.getElem?_map] using slot
  have same := key_of_request requested
  rw [List.getElem?_map, stored, Option.map_some, Option.some.injEq] at same
  exact ⟨by rw [there, same], List.mem_of_getElem? stored⟩

/-- What was given out and what is left are the old children. -/
theorem perm_assign (keyOf : α → Option κ) (old : List α) (keys : List (Option κ)) :
    ((assign keyOf old keys).1.filterMap id ++ (assign keyOf old keys).2).Perm old := by
  have all : (old.map some).filterMap id = old := by simp [List.filterMap_map]
  simpa only [assign, all] using perm_serve (old.map some) (requests (old.map keyOf) 0 keys)

/-! ## Distinct keys -/

theorem request_none {oldKeys : List (Option κ)} {start position : Nat}
    (asked : request oldKeys start none = some position) : position = start := by
  simp only [request] at asked
  split at asked
  · exact (Option.some.inj asked).symm
  · simp at asked

theorem requests_nodup {oldKeys : List (Option κ)} {keys : List (Option κ)} (start : Nat)
    (distinct : (keys.filterMap id).Nodup) :
    ((requests oldKeys start keys).filterMap id).Nodup := by
  induction keys generalizing start with
  | nil => simp [requests]
  | cons key rest ih =>
      have others := ih (start + 1)
        (distinct.sublist ((List.sublist_cons_self key rest).filterMap id))
      cases asked : request oldKeys start key with
      | none => simpa [requests, asked] using others
      | some position =>
          simp only [requests, asked, List.filterMap_cons, id_eq, List.nodup_cons]
          refine ⟨fun again => ?_, others⟩
          -- Whoever asks for the same position asks with the same key.
          obtain ⟨_, member, rfl⟩ := List.mem_filterMap.mp again
          obtain ⟨i, there⟩ := List.mem_iff_getElem?.mp member
          rw [requests_getElem?, Option.map_eq_some_iff] at there
          obtain ⟨other, isOther, asks⟩ := there
          have same : key = other := by
            have := (key_of_request asked).symm.trans (key_of_request asks)
            simpa using this
          subst same
          cases key with
          | none =>
              have first := request_none asked
              have second := request_none asks
              omega
          | some key =>
              simp only [List.filterMap_cons, id_eq, List.nodup_cons] at distinct
              exact distinct.1 (List.mem_filterMap.mpr
                ⟨some key, List.mem_of_getElem? isOther, rfl⟩)

theorem lastWith?_eq {key : κ} {keys : List (Option κ)} {position : Nat}
    (distinct : (keys.filterMap id).Nodup) (there : keys[position]? = some (some key)) :
    lastWith? key keys = some position := by
  induction keys generalizing position with
  | nil => simp at there
  | cons first rest ih =>
      cases position with
      | zero =>
          obtain rfl : first = some key := by simpa using there
          have absent : lastWith? key rest = none := by
            cases later : lastWith? key rest with
            | none => rfl
            | some inner =>
                have again := List.mem_of_getElem? (key_of_lastWith? later)
                simp only [List.filterMap_cons, id_eq, List.nodup_cons] at distinct
                exact absurd (by simpa using again) distinct.1
          simp [lastWith?, absent]
      | succ position =>
          have later := ih (distinct.sublist ((List.sublist_cons_self first rest).filterMap id))
            (by simpa using there)
          simp [lastWith?, later]

/-- With distinct keys on both sides, a new child takes over the old child that has its key. -/
theorem assign_of_distinct {keyOf : α → Option κ} {old : List α} {keys : List (Option κ)}
    (oldDistinct : ((old.map keyOf).filterMap id).Nodup) (distinct : (keys.filterMap id).Nodup)
    {i : Nat} {key : κ} (asks : keys[i]? = some (some key)) {value : α} (member : value ∈ old)
    (keyed : keyOf value = some key) : (assign keyOf old keys).1[i]? = some (some value) := by
  obtain ⟨position, there⟩ := List.mem_iff_getElem?.mp member
  have found : lastWith? key (old.map keyOf) = some position :=
    lastWith?_eq oldDistinct (by simp [there, keyed])
  simp [assign, serve_of_nodup (requests_nodup 0 distinct), requests_getElem?, asks, request,
    found, there]

/-- A list that is matched with its own keys, when these are distinct, is given out as it is. -/
theorem assign_self {keyOf : α → Option κ} {old : List α}
    (distinct : ((old.map keyOf).filterMap id).Nodup) :
    assign keyOf old (old.map keyOf) = (old.map some, []) := by
  have served : (assign keyOf old (old.map keyOf)).1 = old.map some := by
    refine List.ext_getElem? fun i => ?_
    cases there : old[i]? with
    | none =>
        have beyond := List.getElem?_eq_none_iff.mp there
        rw [List.getElem?_eq_none (by simpa using beyond),
          List.getElem?_eq_none (by simpa using beyond)]
    | some value =>
        have stored : (old.map keyOf)[i]? = some (keyOf value) := by simp [there]
        cases keyed : keyOf value with
        | some key =>
            rw [assign_of_distinct distinct distinct (stored.trans (congrArg some keyed))
              (List.mem_of_getElem? there) keyed]
            simp [there]
        | none =>
            simp [assign, serve_of_nodup (requests_nodup 0 distinct), requests_getElem?, request,
              there, keyed]
  have all := perm_assign keyOf old (old.map keyOf)
  rw [served] at all
  have length := all.length_eq
  simp at length
  exact Prod.ext served length

end RemoteView.Matching
