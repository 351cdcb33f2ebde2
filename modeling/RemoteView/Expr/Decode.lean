import RemoteView.Expr.Basic
import RemoteView.Text.Natural

/-! # Reading expressions

An expression node is a non-empty array headed by a tag. A node is checked before its operands and
the operands from left to right, so the error reported is that of the first faulty node.
-/

namespace RemoteView.Expr

/-- A hole index: a number of 32 bits, or its text. -/
def holeIndex? : Json → Option UInt32
  | .number n => n.toUInt32?
  | .string text => Text.toUInt32? text
  | _ => none

/-- A ref key: a string, or a number by its text. -/
def refKey? : Json → Option String
  | .string text => some text
  | .number n => some n.render
  | _ => none

mutual
/-- Read an expression. -/
def decode (raw : Json) : Except ExprError Expr :=
  match raw with
  | .array (.string name :: operands) =>
      match Tag.ofName? name with
      | none => .error (.unknownTag name)
      | some tag =>
          match tag, operands with
          | .globalE, _ => .ok .global
          | .nothingE, _ => .ok .nothing
          | .holeE, [index] =>
              match holeIndex? index with
              | some index => .ok (.hole index)
              | none => .error (.holeIndex index)
          | .value0E, [tag] => .ok (.tuple0 tag)
          | .value1E, [tag, a] => do
              let a ← decode a
              return .tuple1 tag a
          | .value2E, [tag, a, b] => do
              let a ← decode a
              let b ← decode b
              return .tuple2 tag a b
          | .litE, [value] => .ok (.literal value)
          | .getE, [key, object] => do
              let key ← decode key
              let object ← decode object
              return .get key object
          | .invokeE, method :: object :: arguments => do
              let method ← decode method
              let object ← decode object
              let arguments ← decodeAll arguments
              return .invoke method object arguments
          | .eventHandlerE, [preventDefault, stopPropagation, stopImmediate, action] => do
              let preventDefault ← decode preventDefault
              let stopPropagation ← decode stopPropagation
              let stopImmediate ← decode stopImmediate
              let action ← decode action
              return .eventHandler preventDefault stopPropagation stopImmediate action
          | .justE, [inner] => do
              let inner ← decode inner
              return .just inner
          | .refHandlerE, [action] => do
              let action ← decode action
              return .refHandler action
          | .derefE, [key] =>
              match refKey? key with
              | some key => .ok (.deref key)
              | none => .error (.refKey key)
          | tag, operands => .error (.arity tag tag.operandCount operands.length)
  | other => .error (.notTagged other)

/-- Read expressions from left to right. -/
def decodeAll : List Json → Except ExprError (List Expr)
  | [] => .ok []
  | raw :: rest => do
      let first ← decode raw
      let others ← decodeAll rest
      return first :: others
end

end RemoteView.Expr
