import RemoteView.Expr.Basic

/-! # Writing expressions

The tagged array that each expression is written as. The ignored operands of `GlobalE` and
`NothingE` are left out.
-/

namespace RemoteView.Expr

def Tag.node (tag : Tag) (operands : List Json) : Json := .array (.string tag.name :: operands)

mutual
/-- The written form of an expression. -/
def encode : Expr → Json
  | .global => Tag.globalE.node []
  | .hole index => Tag.holeE.node [.ofUInt32 index]
  | .tuple0 tag => Tag.value0E.node [tag]
  | .tuple1 tag first => Tag.value1E.node [tag, first.encode]
  | .tuple2 tag first second => Tag.value2E.node [tag, first.encode, second.encode]
  | .literal value => Tag.litE.node [value]
  | .get key object => Tag.getE.node [key.encode, object.encode]
  | .invoke method object arguments =>
      Tag.invokeE.node (method.encode :: object.encode :: encodeAll arguments)
  | .eventHandler preventDefault stopPropagation stopImmediate action =>
      Tag.eventHandlerE.node
        [preventDefault.encode, stopPropagation.encode, stopImmediate.encode, action.encode]
  | .just inner => Tag.justE.node [inner.encode]
  | .nothing => Tag.nothingE.node []
  | .refHandler action => Tag.refHandlerE.node [action.encode]
  | .deref key => Tag.derefE.node [.string key]

/-- The written forms of expressions, in order. -/
def encodeAll : List Expr → List Json
  | [] => []
  | first :: rest => first.encode :: encodeAll rest
end

end RemoteView.Expr
