import Mathlib.Data.List.Basic
import Std.Data.String.ToNat
import RemoteView.Path

/-! # Keys of paths

A decimal number has no dot, so the indices can be read off a key again. The word for the root is
not the key of any path, so a path can be told from what messages show as well.
-/

namespace RemoteView.Path

/-- The digits of the indices, one list for each. -/
def digits (path : Path) : List (List Char) :=
  path.segments.map fun index => Nat.toDigits 10 index.toNat

theorem toList_key (path : Path) : path.key.toList = ['.'].intercalate path.digits := by
  have one (index : UInt32) : (toString index.toNat).toList = Nat.toDigits 10 index.toNat := by
    rw [Nat.toString_eq_repr, Nat.toList_repr]
  rw [key, String.toList_intercalate, digits, List.map_map]
  simp only [Function.comp_def, one]
  rfl

theorem dot_not_mem_digits (path : Path) : ∀ word ∈ path.digits, '.' ∉ word := by
  intro word member dot
  obtain ⟨index, -, rfl⟩ := List.mem_map.mp member
  have digit := Nat.isDigit_of_mem_toDigits (by decide) (by decide) dot
  exact absurd digit (by decide)

/-- Reading a key gives the digits of every index; the root has none. -/
theorem splitOn_key (path : Path) :
    path.key.toList.splitOn '.' = if path.digits = [] then [[]] else path.digits := by
  rw [toList_key]
  split
  · rename_i none
    simp [none]
  · rename_i some
    exact List.splitOn_intercalate '.' path.dot_not_mem_digits some

theorem digits_ne_blank (path : Path) : path.digits ≠ [[]] := by
  intro blank
  have member : [] ∈ path.digits := by simp [blank]
  obtain ⟨index, -, empty⟩ := List.mem_map.mp member
  exact Nat.toDigits_ne_nil empty

theorem eq_of_key_eq {path other : Path} (same : path.key = other.key) : path = other := by
  have split : (if path.digits = [] then [[]] else path.digits) =
      if other.digits = [] then [[]] else other.digits := by
    rw [← splitOn_key, ← splitOn_key, same]
  have digits : path.digits = other.digits := by
    by_cases none : path.digits = [] <;> by_cases none' : other.digits = []
    · rw [none, none']
    · rw [if_pos none, if_neg none'] at split
      exact absurd split.symm other.digits_ne_blank
    · rw [if_neg none, if_pos none'] at split
      exact absurd split path.digits_ne_blank
    · rwa [if_neg none, if_neg none'] at split
  obtain ⟨segments⟩ := path
  obtain ⟨segments'⟩ := other
  have injective : Function.Injective fun index : UInt32 => Nat.toDigits 10 index.toNat := by
    intro index index' equal
    apply UInt32.toNat_inj.mp
    apply Nat.repr_injective
    rw [← String.toList_inj, Nat.toList_repr, Nat.toList_repr]
    exact equal
  exact congrArg Path.mk (List.map_injective_iff.mpr injective digits)

theorem key_inj {path other : Path} : path.key = other.key ↔ path = other :=
  ⟨eq_of_key_eq, congrArg key⟩

theorem isRoot_iff {path : Path} : path.isRoot ↔ path = root := by
  obtain ⟨segments⟩ := path
  simp [isRoot, root]

theorem key_ne_rootWord (path : Path) : path.key ≠ "<root>" := by
  intro same
  have split := path.splitOn_key
  have word : "<root>".toList.splitOn '.' = ["<root>".toList] := by decide
  rw [same, word] at split
  split at split
  · exact absurd (List.cons.inj split).1 (by decide)
  · have member : "<root>".toList ∈ path.digits := split ▸ List.mem_singleton_self _
    obtain ⟨index, -, decimal⟩ := List.mem_map.mp member
    have digit : '<'.isDigit := Nat.isDigit_of_mem_toDigits (b := 10) (n := index.toNat)
      (by decide) (by decide) (by rw [decimal]; decide)
    exact absurd digit (by decide)

theorem display_eq_rootWord {path : Path} : path.display = "<root>" ↔ path = root := by
  rw [← isRoot_iff, display]
  split
  · rename_i atRoot
    exact iff_of_true rfl atRoot
  · rename_i below
    exact iff_of_false path.key_ne_rootWord below

theorem display_inj {path other : Path} : path.display = other.display ↔ path = other := by
  refine ⟨fun same => ?_, congrArg display⟩
  by_cases atRoot : path = root
  · have shown := display_eq_rootWord.mpr atRoot
    rw [atRoot, display_eq_rootWord.mp (same.symm.trans shown)]
  · have below : other ≠ root := fun otherRoot =>
      atRoot (display_eq_rootWord.mp (same.trans (display_eq_rootWord.mpr otherRoot)))
    rw [← isRoot_iff] at atRoot
    rw [Ne, ← isRoot_iff] at below
    rw [display, display, if_neg atRoot, if_neg below] at same
    exact eq_of_key_eq same

end RemoteView.Path
