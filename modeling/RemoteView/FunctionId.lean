import RemoteView.Json.Printer

/-! # Function identities

The other side names its functions by numbers or by texts. A number and its digits are different
names.
-/

namespace RemoteView

/-- The name of a function of the other side. -/
inductive FunctionId where
  | number (value : UInt64)
  | name (text : String)
  deriving DecidableEq, Repr

namespace FunctionId

/-- Read a name: an unsigned integer or a string. -/
def ofJson? : Json → Option FunctionId
  | .number n => n.toUInt64?.map .number
  | .string text => some (.name text)
  | _ => none

/-- Write a name. -/
def toJson : FunctionId → Json
  | .number value => .ofUInt64 value
  | .name text => .string text

/-- The name as messages show it. -/
def display : FunctionId → String
  | .number value => toString value.toNat
  | .name text => text

@[simp] theorem ofJson?_toJson (fid : FunctionId) : ofJson? fid.toJson = some fid := by
  cases fid with
  | number value => simp [toJson, ofJson?, Json.ofUInt64]
  | name text => rfl

end FunctionId

end RemoteView
