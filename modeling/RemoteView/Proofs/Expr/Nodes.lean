import Mathlib.Data.List.Basic
import RemoteView.Proofs.Failing
import RemoteView.Proofs.Expr.RoundTrip

/-! # The first faulty expression

A raw expression is a node, and those of its operands that are expressions are nodes again. Each
node is well formed or not by itself. A node is looked at before its operands and these from left to
right, so an expression is read if all its nodes are well formed, and otherwise the first one that
is not says why.
-/

namespace RemoteView

namespace Expr.Tag

/-- Can so many operands follow a tag? -/
def Admits (tag : Tag) (count : Nat) : Prop :=
  match tag with
  | .globalE | .nothingE => True
  | .invokeE => 2 ≤ count
  | .holeE | .value0E | .litE | .justE | .refHandlerE | .derefE => count = 1
  | .value1E | .getE => count = 2
  | .value2E => count = 3
  | .eventHandlerE => count = 4

instance (tag : Tag) (count : Nat) : Decidable (tag.Admits count) :=
  match tag with
  | .globalE | .nothingE => inferInstanceAs (Decidable True)
  | .invokeE => inferInstanceAs (Decidable (_ ≤ _))
  | .holeE | .value0E | .litE | .justE | .refHandlerE | .derefE | .value1E | .getE | .value2E
  | .eventHandlerE => inferInstanceAs (Decidable (_ = _))

/-- The operands that a tag takes as expressions. The tag of a tuple, a literal, a hole index and a
    ref key are none. -/
def expressions (tag : Tag) (operands : List Json) : List Json :=
  match tag with
  | .globalE | .nothingE | .holeE | .value0E | .litE | .derefE => []
  | .value1E | .value2E => operands.tail
  | .getE | .invokeE | .eventHandlerE | .justE | .refHandlerE => operands

theorem expressions_sublist (tag : Tag) (operands : List Json) :
    (tag.expressions operands).Sublist operands := by
  cases tag with
  | globalE | nothingE | holeE | value0E | litE | derefE => exact List.nil_sublist _
  | value1E | value2E => exact List.tail_sublist _
  | getE | invokeE | eventHandlerE | justE | refHandlerE => exact .refl _

/-- What is wrong with the operand of a tag that takes an index or a key. -/
def operandFault? : Tag → List Json → Option ExprError
  | .holeE, [index] => if (holeIndex? index).isSome then none else some (.holeIndex index)
  | .derefE, [key] => if (refKey? key).isSome then none else some (.refKey key)
  | _, _ => none

end Expr.Tag

namespace Json

open RemoteView.Expr (Tag)

/-- A number of 32 bits, or a text that stands for one. -/
def IsHoleIndex (raw : Json) : Prop :=
  ∃ index : UInt32, raw = .ofUInt32 index ∨
    ∃ text, raw = .string text ∧ Text.toUInt32? text = some index

/-- A string or a number. -/
def IsRefKey (raw : Json) : Prop := (∃ text, raw = .string text) ∨ ∃ number, raw = .number number

/-- An array headed by a known tag, with as many operands as the tag admits, where the operand of
    `HoleE` is an index and that of `DerefE` a key. -/
def IsWellFormed (node : Json) : Prop :=
  ∃ (tag : Tag) (operands : List Json), node = .array (.string tag.name :: operands) ∧
    tag.Admits operands.length ∧
    (tag = .holeE → ∀ index ∈ operands, index.IsHoleIndex) ∧
    (tag = .derefE → ∀ key ∈ operands, key.IsRefKey)

/-- The operands of a node that are expressions. -/
def operandExprs : Json → List Json
  | .array (.string name :: operands) =>
      match Tag.ofName? name with
      | some tag => tag.expressions operands
      | none => []
  | _ => []

theorem sizeOf_lt_of_mem_operandExprs {node operand : Json} (among : operand ∈ node.operandExprs) :
    sizeOf operand < sizeOf node := by
  unfold operandExprs at among
  split at among
  · rename_i name operands
    split at among
    · rename_i tag known
      have := List.sizeOf_lt_of_mem ((tag.expressions_sublist operands).subset among)
      simp only [Json.array.sizeOf_spec, List.cons.sizeOf_spec]
      omega
    · cases among
  · cases among

/-- The expression nodes of a value: each before its operands, and these from left to right. -/
def exprNodes (raw : Json) : List Json :=
  raw :: raw.operandExprs.attach.flatMap fun ⟨operand, _⟩ => exprNodes operand
termination_by sizeOf raw
decreasing_by exact sizeOf_lt_of_mem_operandExprs ‹_›

theorem exprNodes_eq (raw : Json) :
    raw.exprNodes = raw :: raw.operandExprs.flatMap exprNodes := by
  rw [exprNodes, List.flatMap_subtype (fun _ _ => rfl), List.unattach_attach]

/-- What is wrong with a node by itself. -/
def exprFault? (node : Json) : Option ExprError :=
  match node with
  | .array (.string name :: operands) =>
      match Tag.ofName? name with
      | none => some (.unknownTag name)
      | some tag =>
          if tag.Admits operands.length then tag.operandFault? operands
          else some (.arity tag tag.operandCount operands.length)
  | other => some (.notTagged other)

end Json

/-! ## What is wrong with a node -/

theorem Number.eq_ofUInt64_of_toUInt32? {n : Number} {word : UInt32}
    (read : n.toUInt32? = some word) : n = .ofUInt64 word.toUInt64 := by
  cases n with
  | float value => cases read
  | integer value fits =>
      simp only [Number.toUInt32?, UInt32.size, Option.ite_none_right_eq_some,
        Option.some.injEq] at read
      obtain ⟨bounds, rfl⟩ := read
      have whole : value = (UInt32.ofNat value.toNat).toUInt64.toNat := by
        simp only [UInt32.toNat_toUInt64, UInt32.toNat_ofNat']
        omega
      simp only [Number.ofUInt64, ← whole]

namespace Expr

theorem isSome_holeIndex? {raw : Json} : (holeIndex? raw).isSome ↔ raw.IsHoleIndex := by
  rw [Option.isSome_iff_exists]
  constructor
  · rintro ⟨index, read⟩
    refine ⟨index, ?_⟩
    cases raw with
    | number n => exact .inl (congrArg _ (Number.eq_ofUInt64_of_toUInt32? read))
    | string text => exact .inr ⟨text, rfl, read⟩
    | null | bool | array | object => cases read
  · rintro ⟨index, rfl | ⟨text, rfl, read⟩⟩
    · exact ⟨index, holeIndex?_ofUInt32 index⟩
    · exact ⟨index, read⟩

theorem isSome_refKey? {raw : Json} : (refKey? raw).isSome ↔ raw.IsRefKey := by
  cases raw <;> simp [refKey?, Json.IsRefKey]

namespace Tag

theorem name_of_ofName? {name : String} {tag : Tag} (known : ofName? name = some tag) :
    tag.name = name := by
  have found := List.find?_some known
  exact of_decide_eq_true found

theorem operandFault?_eq_none {tag : Tag} {operands : List Json}
    (admitted : tag.Admits operands.length) : tag.operandFault? operands = none ↔
      (tag = .holeE → ∀ index ∈ operands, index.IsHoleIndex) ∧
        (tag = .derefE → ∀ key ∈ operands, key.IsRefKey) := by
  cases tag with
  | holeE =>
      obtain ⟨index, rfl⟩ := List.length_eq_one_iff.mp admitted
      simp [operandFault?, ← isSome_holeIndex?, Option.isSome_iff_ne_none]
  | derefE =>
      obtain ⟨key, rfl⟩ := List.length_eq_one_iff.mp admitted
      simp [operandFault?, ← isSome_refKey?, Option.isSome_iff_ne_none]
  | globalE | nothingE | value0E | litE | value1E | value2E | getE | invokeE | eventHandlerE | justE
  | refHandlerE => simp [operandFault?]

end Tag

end Expr

theorem Json.exprFault?_eq_none {node : Json} : node.exprFault? = none ↔ node.IsWellFormed := by
  constructor
  · intro faultless
    unfold exprFault? at faultless
    split at faultless
    · rename_i name operands
      split at faultless
      · cases faultless
      · rename_i tag known
        split at faultless
        · rename_i admitted
          obtain rfl := Expr.Tag.name_of_ofName? known
          exact ⟨tag, operands, rfl, admitted,
            (Expr.Tag.operandFault?_eq_none admitted).mp faultless⟩
        · cases faultless
    · cases faultless
  · rintro ⟨tag, operands, rfl, admitted, accepted⟩
    simp only [exprFault?, Expr.Tag.ofName?_name, if_pos admitted]
    exact (Expr.Tag.operandFault?_eq_none admitted).mpr accepted

/-! ## Reading node by node -/

namespace Expr

/-- What reading a value as an expression fails with. -/
def failureOf? (raw : Json) : Option ExprError := failure? (decode raw)

theorem failure?_decodeAll (raws : List Json) :
    failure? (decodeAll raws) = raws.findSome? failureOf? := by
  induction raws with
  | nil => rfl
  | cons raw rest ih =>
      rw [decodeAll, failure?_bind fun _ _ => failure?_bind_pure .., ih, findSome?_cons_or]
      rfl

theorem decode_of_not_admits {tag : Tag} {operands : List Json}
    (wrong : ¬ tag.Admits operands.length) : decode (.array (.string tag.name :: operands)) =
      .error (.arity tag tag.operandCount operands.length) := by
  rw [decode.eq_def]
  simp only [Tag.ofName?_name]
  split <;> simp_all [Tag.Admits]

/-- A known tag with as many operands as it admits: an index or a key is checked, and expressions
    are read in order. -/
theorem failureOf?_of_admits {tag : Tag} {operands : List Json}
    (admitted : tag.Admits operands.length) :
    failureOf? (.array (.string tag.name :: operands)) =
      (tag.operandFault? operands).or ((tag.expressions operands).findSome? failureOf?) := by
  have one (raw : Json) : failureOf? raw = [raw].findSome? failureOf? := by
    rw [findSome?_cons_or, List.findSome?_nil, Option.or_none]
  unfold failureOf? at one ⊢
  cases tag with
  | globalE | nothingE =>
      simp only [decode, Tag.ofName?_name]
      rfl
  | value0E | litE =>
      obtain ⟨value, rfl⟩ := List.length_eq_one_iff.mp admitted
      simp only [decode, Tag.ofName?_name]
      rfl
  | holeE =>
      obtain ⟨index, rfl⟩ := List.length_eq_one_iff.mp admitted
      simp only [decode, Tag.ofName?_name, Tag.operandFault?]
      cases holeIndex? index <;> rfl
  | derefE =>
      obtain ⟨key, rfl⟩ := List.length_eq_one_iff.mp admitted
      simp only [decode, Tag.ofName?_name, Tag.operandFault?]
      cases refKey? key <;> rfl
  | justE | refHandlerE =>
      obtain ⟨inner, rfl⟩ := List.length_eq_one_iff.mp admitted
      simp only [decode, Tag.ofName?_name]
      exact (failure?_bind_pure ..).trans (one inner)
  | value1E =>
      obtain ⟨tag, first, rfl⟩ := List.length_eq_two.mp admitted
      simp only [decode, Tag.ofName?_name]
      exact (failure?_bind_pure ..).trans (one first)
  | value2E =>
      obtain ⟨tag, first, second, rfl⟩ := List.length_eq_three.mp admitted
      simp only [decode, Tag.ofName?_name]
      rw [failure?_bind fun _ _ => failure?_bind_pure .., one second]
      simp only [Tag.operandFault?, Tag.expressions, List.tail_cons, findSome?_cons_or,
        Option.none_or]
  | getE =>
      obtain ⟨key, object, rfl⟩ := List.length_eq_two.mp admitted
      simp only [decode, Tag.ofName?_name]
      rw [failure?_bind fun _ _ => failure?_bind_pure .., one object]
      simp only [Tag.operandFault?, Tag.expressions, findSome?_cons_or, Option.none_or]
  | invokeE =>
      obtain ⟨method, rest, rfl⟩ := List.exists_cons_of_length_pos (Nat.zero_lt_of_lt admitted)
      obtain ⟨object, arguments, rfl⟩ :=
        List.exists_cons_of_length_pos (Nat.le_of_succ_le_succ admitted)
      simp only [decode, Tag.ofName?_name]
      rw [failure?_bind fun _ _ => failure?_bind fun _ _ => failure?_bind_pure ..,
        failure?_decodeAll]
      simp only [Tag.operandFault?, Tag.expressions, findSome?_cons_or, Option.none_or]
      rfl
  | eventHandlerE =>
      obtain ⟨preventDefault, rest, rfl⟩ := List.exists_of_length_succ _ admitted
      obtain ⟨stopPropagation, stopImmediate, action, rfl⟩ :=
        List.length_eq_three.mp (Nat.succ.inj admitted)
      simp only [decode, Tag.ofName?_name]
      rw [failure?_bind fun _ _ => failure?_bind fun _ _ => failure?_bind fun _ _ =>
        failure?_bind_pure .., one action]
      simp only [Tag.operandFault?, Tag.expressions, findSome?_cons_or, Option.none_or]

/-- A node is checked by itself, and then the expressions among its operands are read. -/
theorem failureOf?_eq (raw : Json) :
    failureOf? raw = raw.exprFault?.or (raw.operandExprs.findSome? failureOf?) := by
  match raw with
  | .array (.string name :: operands) =>
      simp only [Json.exprFault?, Json.operandExprs]
      cases known : Tag.ofName? name with
      | none =>
          simp only [failureOf?, decode, known]
          rfl
      | some tag =>
          obtain rfl := Tag.name_of_ofName? known
          by_cases admitted : tag.Admits operands.length
          · rw [failureOf?_of_admits admitted]
            simp only [if_pos admitted]
          · rw [failureOf?, decode_of_not_admits admitted]
            simp only [if_neg admitted]
            rfl
  | .null | .bool _ | .number _ | .string _ | .object _ | .array [] | .array (.null :: _) |
    .array (.bool _ :: _) | .array (.number _ :: _) | .array (.array _ :: _) |
    .array (.object _ :: _) =>
      rw [failureOf?, decode]
      · rfl
      · simp

theorem failureOf?_eq_findSome? (raw : Json) :
    failureOf? raw = raw.exprNodes.findSome? Json.exprFault? := by
  have inside : raw.operandExprs.findSome? failureOf? =
      (raw.operandExprs.flatMap Json.exprNodes).findSome? Json.exprFault? :=
    findSome?_flatMap fun operand _ => failureOf?_eq_findSome? operand
  rw [failureOf?_eq, inside, Json.exprNodes_eq, findSome?_cons_or]
termination_by sizeOf raw
decreasing_by exact Json.sizeOf_lt_of_mem_operandExprs ‹_›

/-- A raw expression can be read if and only if each of its nodes is well formed. Otherwise the
    error says what is wrong with the first node that is not: a node comes before its operands, and
    these from left to right. -/
theorem first_fault_reported (raw : Json) :
    ((∃ e, decode raw = .ok e) ↔ ∀ node ∈ raw.exprNodes, node.IsWellFormed) ∧
    ∀ error, decode raw = .error error ↔ ∃ before node after,
      raw.exprNodes = before ++ node :: after ∧ (∀ earlier ∈ before, earlier.IsWellFormed) ∧
        node.exprFault? = some error := by
  simp only [← Json.exprFault?_eq_none, ← failure?_eq_none, ← failure?_eq_some]
  change (failureOf? raw = none ↔ _) ∧ ∀ error, failureOf? raw = some error ↔ _
  simp only [failureOf?_eq_findSome?]
  refine ⟨List.findSome?_eq_none_iff, fun error => ?_⟩
  rw [List.findSome?_eq_some_iff]
  grind

end Expr

end RemoteView
