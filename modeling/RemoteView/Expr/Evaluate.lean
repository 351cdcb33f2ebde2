import RemoteView.Expr.Basic
import RemoteView.Host.Object

/-! # Evaluating expressions

An expression is evaluated in a scope of holes, stable refs and the global object. Evaluation always
yields a value: what is missing or of the wrong kind yields no value. Host objects change only
through the method calls that are met, operands first and from left to right; of a call the
object is evaluated first, then the method, then the arguments.
-/

namespace RemoteView

/-- The handles stored under stable keys. -/
abbrev RefStore := Assoc String Value

/-- What an expression can refer to. -/
structure Scope where
  holes : Assoc UInt32 Value
  refs : RefStore
  global : Value

namespace Expr

mutual
def evaluate (scope : Scope) : Expr → StateM Objects Value
  | .global => return scope.global
  | .hole index => return (Assoc.get? index scope.holes).getD .absent
  | .tuple0 tag => return .tuple [.json tag]
  | .tuple1 tag first => do
      let first ← evaluate scope first
      return .tuple [.json tag, first]
  | .tuple2 tag first second => do
      let first ← evaluate scope first
      let second ← evaluate scope second
      return .tuple [.json tag, first, second]
  | .literal value => return .json value
  | .get key object => do
      let key ← evaluate scope key
      let object ← evaluate scope object
      match key.key? with
      | some key => return object.member (← MonadState.get) key
      | none => return .absent
  | .invoke method object arguments => do
      let object ← evaluate scope object
      let method ← evaluate scope method
      let arguments ← evaluateAll scope arguments
      match method.key? with
      | some method => object.invoke method arguments
      | none => return .absent
  | .eventHandler preventDefault stopPropagation stopImmediate action => do
      let preventDefault ← evaluate scope preventDefault
      let stopPropagation ← evaluate scope stopPropagation
      let stopImmediate ← evaluate scope stopImmediate
      let action ← evaluate scope action
      return .eventHandler
        { preventDefault := preventDefault.isTruthy
          stopPropagation := stopPropagation.isTruthy
          stopImmediatePropagation := stopImmediate.isTruthy
          action := action.action? (← MonadState.get) }
  | .just inner => evaluate scope inner
  | .nothing => return .absent
  | .refHandler action => do
      let action ← evaluate scope action
      return .refHandler ⟨action.action? (← MonadState.get)⟩
  | .deref key => return (Assoc.get? key scope.refs).getD .absent

/-- The values of expressions, from left to right. -/
def evaluateAll (scope : Scope) : List Expr → StateM Objects (List Value)
  | [] => return []
  | first :: rest => do
      let first ← evaluate scope first
      let rest ← evaluateAll scope rest
      return first :: rest
end

end Expr

end RemoteView
