import RemoteView.Proofs.Expr.Nodes
import RemoteView.Proofs.Text.Shorten

/-! # Values that are not tagged

An expression is an array headed by a tag. Of a value that is none, the error shows the JSON text,
and of a long text no more than the characters that lie within the bytes it has room for.
-/

namespace RemoteView

/-- An array headed by a text, whether or not this is the tag of an expression. -/
def Json.IsTagged (raw : Json) : Prop := ∃ name operands, raw = .array (.string name :: operands)

theorem Json.exprFault?_eq_notTagged {node found : Json} :
    node.exprFault? = some (.notTagged found) ↔ found = node ∧ ¬ node.IsTagged := by
  unfold exprFault?
  split
  · rename_i name operands
    have tagged : IsTagged (.array (.string name :: operands)) := ⟨name, operands, rfl⟩
    refine ⟨fun fault => ?_, fun untagged => absurd tagged untagged.2⟩
    split at fault
    · cases fault
    · rename_i tag known
      split at fault
      · unfold Expr.Tag.operandFault? at fault
        split at fault <;> simp at fault
      · cases fault
  · rename_i untagged
    rw [Option.some.injEq, ExprError.notTagged.injEq]
    constructor
    · rintro rfl
      refine ⟨rfl, ?_⟩
      rintro ⟨name, operands, tagged⟩
      exact untagged name operands tagged
    · rintro ⟨rfl, -⟩
      rfl

namespace Expr

theorem decode_of_untagged {raw : Json} (untagged : ¬ raw.IsTagged) :
    decode raw = .error (.notTagged raw) := by
  rw [← failure?_eq_some]
  change failureOf? raw = _
  rw [failureOf?_eq, Json.exprFault?_eq_notTagged.mpr ⟨rfl, untagged⟩, Option.some_or]

theorem mem_exprNodes_of_untagged {raw found : Json}
    (rejected : decode raw = .error (.notTagged found)) :
    found ∈ raw.exprNodes ∧ ¬ found.IsTagged := by
  have first : raw.exprNodes.findSome? Json.exprFault? = some (.notTagged found) := by
    rw [← failureOf?_eq_findSome?]
    exact failure?_eq_some.mpr rejected
  obtain ⟨node, among, fault⟩ := List.exists_of_findSome?_eq_some first
  obtain ⟨rfl, untagged⟩ := Json.exprFault?_eq_notTagged.mp fault
  exact ⟨among, untagged⟩

/-- When reading fails at a value that is not tagged, the error shows the JSON text of this value.
    A text of more than 64 bytes is cut to its longest prefix within them, which has 61 bytes or
    more, and marked with an ellipsis. The search for the cut begins behind byte 64 and goes back
    three bytes at most, to a position between two characters. -/
theorem untagged_shown_shortened {raw found : Json}
    (rejected : decode raw = .error (.notTagged found)) :
    (found ∈ raw.exprNodes ∧ ¬ found.IsTagged ∧ (¬ raw.IsTagged → found = raw)) ∧
    ∃ shown, (ExprError.notTagged found).message = "expression is not a tagged array: " ++ shown ∧
      (found.render.utf8ByteSize ≤ 64 → shown = found.render) ∧
      (64 < found.render.utf8ByteSize →
        (∃ kept, Text.IsCut 64 found.render kept ∧ shown = kept ++ "…") ∧
        ∃ steps ≤ 3, Text.StopsAfter steps found.render 64) := by
  obtain ⟨among, untagged⟩ := mem_exprNodes_of_untagged rejected
  refine ⟨⟨among, untagged, fun itself => ?_⟩, Text.shorten 64 found.render, rfl,
    Text.shorten_of_fits, fun long =>
      ⟨Text.shorten_of_lt long, Text.exists_stopsAfter (Nat.le_of_lt long)⟩⟩
  rw [decode_of_untagged itself] at rejected
  exact (ExprError.notTagged.inj (Except.error.inj rejected)).symm

/-- Of twenty characters with four bytes each, behind a quotation mark, fifteen are shown: byte 64
    is inside of the next one. -/
theorem wide_text_cut_between_characters :
    let found : Json := .string "😀😀😀😀😀😀😀😀😀😀😀😀😀😀😀😀😀😀😀😀"
    decode (.array [.string "JustE", found]) = .error (.notTagged found) ∧
      64 < found.render.utf8ByteSize ∧ Text.IsCut 64 found.render "\"😀😀😀😀😀😀😀😀😀😀😀😀😀😀😀" := by
  intro found
  have rejected : decode (.array [.string "JustE", found]) = .error (.notTagged found) := rfl
  have long : 64 < found.render.utf8ByteSize := by decide +kernel
  obtain ⟨-, shown, message, -, cut⟩ := untagged_shown_shortened rejected
  obtain ⟨⟨kept, isCut, rfl⟩, -⟩ := cut long
  have written : (ExprError.notTagged found).message =
      "expression is not a tagged array: " ++ ("\"😀😀😀😀😀😀😀😀😀😀😀😀😀😀😀" ++ "…") := by decide +kernel
  have same : kept = "\"😀😀😀😀😀😀😀😀😀😀😀😀😀😀😀" :=
    (String.append_left_inj _).mp ((String.append_right_inj _).mp (message.symm.trans written))
  exact ⟨rejected, long, same ▸ isCut⟩

end Expr

end RemoteView
