import RemoteView.Text.Natural
import Mathlib.Data.Option.Basic

/-! # Numerals

Which texts are read as numbers, and as which.
-/

namespace RemoteView.Text

/-- Digits, one at least. -/
def AreDigits (digits : List Char) : Prop := digits ≠ [] ∧ ∀ c ∈ digits, c.isDigit

/-- A text is a numeral of a number when that is what its digits stand for, after a plus sign or
    not. -/
def IsNumeral (text : String) (n : Nat) : Prop :=
  ∃ digits, AreDigits digits ∧ (text.toList = digits ∨ text.toList = '+' :: digits) ∧
    Nat.ofDigitChars 10 digits 0 = n

theorem naturalOfDigits?_eq_some {digits : List Char} {n : Nat} :
    naturalOfDigits? digits = some n ↔ AreDigits digits ∧ Nat.ofDigitChars 10 digits 0 = n := by
  have read : ¬ (digits = [] ∨ digits.any fun c => !c.isDigit) ↔ AreDigits digits := by
    simp [AreDigits]
  rw [naturalOfDigits?, Nat.ofDigitChars_eq_foldl, ← read]
  split
  · next refused => exact ⟨nofun, fun areDigits => absurd refused areDigits.1⟩
  · next areDigits => rw [Option.some_inj, and_iff_right areDigits]

theorem not_areDigits_plus (rest : List Char) : ¬ AreDigits ('+' :: rest) :=
  fun areDigits => absurd (areDigits.2 '+' List.mem_cons_self) (by decide)

theorem natural?_eq_some {limit : Nat} {text : String} {n : Nat} :
    natural? limit text = some n ↔ IsNumeral text n ∧ n < limit := by
  rw [natural?, Option.filter_eq_some_iff, decide_eq_true_eq]
  refine and_congr_left fun _ => ?_
  split
  · next digits plus =>
      rw [naturalOfDigits?_eq_some]
      constructor
      · rintro ⟨areDigits, value⟩
        exact ⟨digits, areDigits, .inr plus, value⟩
      · rintro ⟨others, areDigits, bare | signed, value⟩
        · exact absurd (plus.symm.trans bare ▸ areDigits) (not_areDigits_plus digits)
        · cases plus.symm.trans signed
          exact ⟨areDigits, value⟩
  · next noPlus =>
      rw [naturalOfDigits?_eq_some]
      constructor
      · rintro ⟨areDigits, value⟩
        exact ⟨_, areDigits, .inl rfl, value⟩
      · rintro ⟨digits, areDigits, bare | signed, value⟩
        · exact bare ▸ ⟨areDigits, value⟩
        · exact absurd signed (noPlus digits)

theorem isSome_toUInt16? {text : String} :
    (toUInt16? text).isSome ↔ ∃ n < 65536, IsNumeral text n := by
  simp only [toUInt16?, Option.isSome_map, Option.isSome_iff_exists, natural?_eq_some]
  exact exists_congr fun n => and_comm

end RemoteView.Text
