import RemoteView.Json.Printer
import RemoteView.Text.Shorten

/-! # Handler expressions

A small expression language in which the other side describes what a listener, a ref or a hook
does. Expressions arrive as tagged arrays. Their only side effects are method calls on host objects.
-/

namespace RemoteView

/-- A handler expression. -/
inductive Expr where
  /-- The global object. -/
  | global
  /-- The value in a hole, such as the event that a listener receives. -/
  | hole (index : UInt32)
  /-- A tuple of a tag alone. -/
  | tuple0 (tag : Json)
  /-- A tuple of a tag and one value. -/
  | tuple1 (tag : Json) (first : Expr)
  /-- A tuple of a tag and two values. -/
  | tuple2 (tag : Json) (first second : Expr)
  /-- A JSON value. -/
  | literal (value : Json)
  /-- A member of an object. -/
  | get (key object : Expr)
  /-- A method call on a host object. -/
  | invoke (method object : Expr) (arguments : List Expr)
  /-- What a listener answers: three flags and an action. -/
  | eventHandler (preventDefault stopPropagation stopImmediatePropagation action : Expr)
  /-- The value of another expression. -/
  | just (inner : Expr)
  /-- No value. -/
  | nothing
  /-- What a ref or a hook answers: an action. -/
  | refHandler (action : Expr)
  /-- The handle stored under a stable key. -/
  | deref (key : String)
  deriving Inhabited

inductive Expr.Tag where
  | globalE
  | holeE
  | value0E
  | value1E
  | value2E
  | litE
  | getE
  | invokeE
  | eventHandlerE
  | justE
  | nothingE
  | refHandlerE
  | derefE
  deriving DecidableEq, Repr

namespace Expr.Tag

/-- The tag as it is written. -/
def name : Tag → String
  | .globalE => "GlobalE"
  | .holeE => "HoleE"
  | .value0E => "Value0E"
  | .value1E => "Value1E"
  | .value2E => "Value2E"
  | .litE => "LitE"
  | .getE => "GetE"
  | .invokeE => "InvokeE"
  | .eventHandlerE => "EventHandlerE"
  | .justE => "JustE"
  | .nothingE => "NothingE"
  | .refHandlerE => "RefHandlerE"
  | .derefE => "DerefE"

def all : List Tag :=
  [.globalE, .holeE, .value0E, .value1E, .value2E, .litE, .getE, .invokeE, .eventHandlerE, .justE,
    .nothingE, .refHandlerE, .derefE]

def ofName? (name : String) : Option Tag := all.find? fun tag => tag.name = name

/-- How many operands a tag takes. A call takes further arguments after its two operands, and what
    follows `GlobalE` and `NothingE` is ignored. -/
def operandCount : Tag → Nat
  | .globalE | .nothingE => 0
  | .holeE | .value0E | .litE | .justE | .refHandlerE | .derefE => 1
  | .value1E | .getE | .invokeE => 2
  | .value2E => 3
  | .eventHandlerE => 4

end Expr.Tag

/-- Why a JSON value is not an expression. -/
inductive ExprError where
  /-- A tag that is not in the language. -/
  | unknownTag (tag : String)
  /-- Not an array headed by a string. -/
  | notTagged (found : Json)
  /-- A wrong number of operands. -/
  | arity (tag : Expr.Tag) (expected found : Nat)
  /-- A hole index that is not a number of 32 bits. -/
  | holeIndex (found : Json)
  /-- A ref key that is neither a string nor a number. -/
  | refKey (found : Json)

namespace ExprError

/-- How many bytes of an offending value a message shows. -/
def shownBytes : Nat := 64

def message : ExprError → String
  | .unknownTag tag => "unknown expression tag '" ++ tag ++ "'"
  | .notTagged found =>
      "expression is not a tagged array: " ++ Text.shorten shownBytes found.render
  | .arity tag expected found =>
      "expression '" ++ tag.name ++ "' expects " ++ toString expected ++ " operand(s), got "
        ++ toString found
  | .holeIndex found =>
      "expression 'HoleE' has an invalid operand: hole index must be a small integer, got "
        ++ found.render
  | .refKey found =>
      "expression 'DerefE' has an invalid operand: ref key must be a string, got " ++ found.render

end ExprError

end RemoteView
