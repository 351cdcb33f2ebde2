import Mathlib
import RemoteView.Style.Declarations

/-! # Names of CSS properties

Hyphenating a name sets hyphens and turns capitals into small letters, and that is all. A name that
has been hyphenated has no capital, and the vendor that comes without its hyphen has got it, so
there is nothing left to do: the names that stay as they are are exactly those.
-/

namespace RemoteView.Declarations

/-- The name of the vendor that comes without its leading hyphen, up to the hyphen after it. -/
def bareVendor : List Char := ['m', 's', '-']

/-- The characters of a name without its hyphens. -/
def letters (name : List Char) : List Char := name.filter (· ≠ '-')

/-- The characters of a name that are not in ASCII. -/
def foreign (name : List Char) : List Char := name.filter (128 ≤ ·.toNat)

/-- Has a name no ASCII capital? -/
def IsSmall (name : List Char) : Prop := ∀ c ∈ name, c.isUpper = false

theorem toList_hyphenate (name : String) :
    (hyphenate name).toList = (markVendor (markCapitals name.toList)).map Char.toLower := by
  simp [hyphenate]

theorem markCapitals_capital {c : Char} (capital : c.isUpper) (rest : List Char) :
    markCapitals (c :: rest) = '-' :: c :: markCapitals rest := by
  simp [markCapitals, capital]

theorem markCapitals_small {c : Char} (small : ¬ c.isUpper) (rest : List Char) :
    markCapitals (c :: rest) = c :: markCapitals rest := by
  simp [markCapitals, small]

/-! ## Small names -/

theorem toLower_of_isSmall {name : List Char} (small : IsSmall name) :
    name.map Char.toLower = name := by
  refine (List.map_congr_left fun c among => ?_).trans (List.map_id name)
  exact Char.toLower_eq_of_not_isUpper (by simp [small c among])

theorem markCapitals_of_isSmall {name : List Char} (small : IsSmall name) :
    markCapitals name = name := by
  induction name with
  | nil => rfl
  | cons c rest ih =>
      obtain ⟨here, there⟩ := List.forall_mem_cons.mp small
      rw [markCapitals_small (by simp [here]), ih there]

theorem markVendor_of_not_bare {name : List Char} (bare : ¬ bareVendor <+: name) :
    markVendor name = name :=
  if_neg (List.isPrefixOf_iff_prefix.not.mpr bare)

theorem hyphenate_of_isSmall {name : String} (small : IsSmall name.toList)
    (bare : ¬ bareVendor <+: name.toList) : hyphenate name = name := by
  apply String.toList_injective
  rw [toList_hyphenate, markCapitals_of_isSmall small, markVendor_of_not_bare bare,
    toLower_of_isSmall small]

theorem isSmall_hyphenate (name : String) : IsSmall (hyphenate name).toList := by
  intro c among
  rw [toList_hyphenate] at among
  obtain ⟨d, -, rfl⟩ := List.mem_map.mp among
  exact Char.isUpper_toLower_eq_false d

/-! ## The bare vendor -/

/-- A capital that is marked does not begin a word: what a marked name begins with up to a hyphen,
    once capitals have become small, it has begun with before. -/
theorem prefix_of_prefix_toLower {word : List Char} (plain : '-' ∉ word) {name : List Char}
    (starts : word ++ ['-'] <+: (markCapitals name).map Char.toLower) :
    word ++ ['-'] <+: markCapitals name := by
  induction word generalizing name with
  | nil =>
      cases name with
      | nil => simp [markCapitals] at starts
      | cons c rest =>
          by_cases capital : c.isUpper
          · rw [markCapitals_capital capital]
            exact ⟨_, rfl⟩
          · rw [markCapitals_small capital] at starts ⊢
            have hyphen : '-' = c.toLower := (List.cons_prefix_cons.mp starts).1
            rw [Char.toLower_eq_of_not_isUpper capital] at hyphen
            exact ⟨_, congrArg (· :: markCapitals rest) hyphen⟩
  | cons first word ih =>
      obtain ⟨hyphen, others⟩ := not_or.mp (List.mem_cons.not.mp plain)
      cases name with
      | nil => simp [markCapitals] at starts
      | cons c rest =>
          by_cases capital : c.isUpper
          · rw [markCapitals_capital capital] at starts
            have wrong : first = '-' := (List.cons_prefix_cons.mp starts).1
            exact absurd wrong.symm hyphen
          · rw [markCapitals_small capital] at starts ⊢
            obtain ⟨same, later⟩ := List.cons_prefix_cons.mp starts
            rw [Char.toLower_eq_of_not_isUpper capital] at same
            exact List.cons_prefix_cons.mpr ⟨same, ih others later⟩

theorem not_bare_hyphenate (name : String) : ¬ bareVendor <+: (hyphenate name).toList := by
  intro bare
  rw [toList_hyphenate] at bare
  by_cases marked : bareVendor <+: markCapitals name.toList
  · have led : markVendor (markCapitals name.toList) = '-' :: markCapitals name.toList :=
      if_pos (List.isPrefixOf_iff_prefix.mpr marked)
    rw [led, List.map_cons, bareVendor, List.cons_prefix_cons] at bare
    exact absurd bare.1 (by decide)
  · rw [markVendor_of_not_bare marked] at bare
    have word : '-' ∉ ['m', 's'] := by decide
    exact marked (prefix_of_prefix_toLower word bare)

/-! ## What is kept -/

theorem letters_cons (c : Char) (rest : List Char) :
    letters (c :: rest) = letters [c] ++ letters rest :=
  List.filter_append [c] rest

theorem letters_hyphen (rest : List Char) : letters ('-' :: rest) = letters rest := rfl

theorem letters_markCapitals (name : List Char) : letters (markCapitals name) = letters name := by
  induction name with
  | nil => rfl
  | cons c rest ih =>
      by_cases capital : c.isUpper
      · rw [markCapitals_capital capital, letters_hyphen, letters_cons, ih, ← letters_cons]
      · rw [markCapitals_small capital, letters_cons, ih, ← letters_cons]

theorem letters_markVendor (name : List Char) : letters (markVendor name) = letters name := by
  unfold markVendor
  split
  · exact letters_hyphen name
  · rfl

theorem toLower_eq_hyphen_iff (c : Char) : c.toLower = '-' ↔ c = '-' := by
  constructor
  · intro hyphen
    by_cases capital : c.isUpper
    · have letter : c.toLower.isAlpha = true := by
        simp [Char.isAlpha, capital]
      rw [hyphen] at letter
      exact absurd letter (by decide)
    · rwa [Char.toLower_eq_of_not_isUpper capital] at hyphen
  · rintro rfl
    rfl

theorem letters_toLower (name : List Char) :
    letters (name.map Char.toLower) = (letters name).map Char.toLower := by
  have same : ((fun c : Char => decide (c ≠ '-')) ∘ Char.toLower) = fun c => decide (c ≠ '-') := by
    funext c
    simp [toLower_eq_hyphen_iff]
  rw [letters, List.filter_map, same]
  rfl

theorem letters_hyphenate (name : String) :
    letters (hyphenate name).toList = (letters name.toList).map Char.toLower := by
  rw [toList_hyphenate, letters_toLower, letters_markVendor, letters_markCapitals]

theorem toLower_foreign (c : Char) :
    (128 ≤ c.toNat → c.toLower = c) ∧ (128 ≤ c.toLower.toNat ↔ 128 ≤ c.toNat) := by
  by_cases capital : c.isUpper
  · have letter : c.toLower.isLower = true := by simp [Char.isAlpha, capital]
    simp only [Char.isUpper, Char.isLower, decide_eq_true_eq, UInt32.le_iff_toNat_le,
      Bool.and_eq_true] at capital letter
    have before : c.toNat ≤ 90 := capital.2
    have after : c.toLower.toNat ≤ 122 := letter.2
    omega
  · rw [Char.toLower_eq_of_not_isUpper capital]
    exact ⟨fun _ => rfl, Iff.rfl⟩

theorem foreign_toLower (name : List Char) : foreign (name.map Char.toLower) = foreign name := by
  induction name with
  | nil => rfl
  | cons c rest ih =>
      obtain ⟨same, small⟩ := toLower_foreign c
      unfold foreign at ih ⊢
      by_cases far : 128 ≤ c.toNat
      · simp [far, same far, ih]
      · simp [small, far, ih]

theorem foreign_letters (name : List Char) : foreign (letters name) = foreign name := by
  rw [foreign, letters, List.filter_filter]
  refine List.filter_congr fun c _ => ?_
  by_cases hyphen : c = '-'
  · subst hyphen
    decide
  · simp [hyphen]

theorem foreign_hyphenate (name : String) :
    foreign (hyphenate name).toList = foreign name.toList := by
  calc foreign (hyphenate name).toList
      = foreign (letters (hyphenate name).toList) := (foreign_letters _).symm
    _ = foreign ((letters name.toList).map Char.toLower) := by rw [letters_hyphenate]
    _ = foreign name.toList := by rw [foreign_toLower, foreign_letters]

/-- Hyphenating brings every name into a form that has no capital and is not that of the bare
    vendor, and in which it stays: the names in this form are those that do not change. Besides
    hyphens it adds, drops and moves no character; it turns capitals into small letters, and leaves
    what is not in ASCII alone. -/
theorem names_hyphenated (name : String) :
    hyphenate (hyphenate name) = hyphenate name ∧
      IsSmall (hyphenate name).toList ∧ ¬ bareVendor <+: (hyphenate name).toList ∧
      letters (hyphenate name).toList = (letters name.toList).map Char.toLower ∧
      foreign (hyphenate name).toList = foreign name.toList ∧
      (hyphenate name = name ↔ IsSmall name.toList ∧ ¬ bareVendor <+: name.toList) := by
  have small := isSmall_hyphenate name
  have bare := not_bare_hyphenate name
  refine ⟨hyphenate_of_isSmall small bare, small, bare, letters_hyphenate name,
    foreign_hyphenate name, ?_, ?_⟩
  · intro same
    rw [same] at small bare
    exact ⟨small, bare⟩
  · rintro ⟨small, bare⟩
    exact hyphenate_of_isSmall small bare

example : hyphenate "msFlexAlign" = "-ms-flex-align" ∧ hyphenate "-ms-flex" = "-ms-flex" := by
  decide

end RemoteView.Declarations
