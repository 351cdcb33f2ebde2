import RemoteView.Json.Printer

/-! # Values of expressions

What handler expressions compute: JSON values, tuples, references to host objects, and the records
that listeners and refs answer. A host object is known by its number only; what it holds is in the
object store (`RemoteView.Host.Object`).
-/

namespace RemoteView

/-- The number of a host object. Two references are the same object when the numbers agree. -/
abbrev ObjectId := Nat

/-- What a listener answers. -/
structure EventHandler where
  preventDefault : Bool
  stopPropagation : Bool
  stopImmediatePropagation : Bool
  action : Option Json

/-- What a ref or a hook answers. -/
structure RefHandler where
  action : Option Json

/-- The value of an expression. -/
inductive Value where
  | absent
  | json (value : Json)
  | tuple (items : List Value)
  | host (object : ObjectId)
  | eventHandler (record : EventHandler)
  | refHandler (record : RefHandler)

instance : Inhabited Value := ⟨.absent⟩

instance : BEq EventHandler where
  beq a b := a.preventDefault == b.preventDefault && a.stopPropagation == b.stopPropagation &&
    a.stopImmediatePropagation == b.stopImmediatePropagation && a.action == b.action

instance : BEq RefHandler where
  beq a b := a.action == b.action

def EventHandler.toJson (record : EventHandler) : Json :=
  .object [("preventDefault", .bool record.preventDefault),
    ("stopPropagation", .bool record.stopPropagation),
    ("stopImmediatePropagation", .bool record.stopImmediatePropagation),
    ("action", record.action.getD .null)]

def RefHandler.toJson (record : RefHandler) : Json := .object [("action", record.action.getD .null)]

namespace Value

mutual
/-- Equality of values; host objects by identity. -/
def beq : Value → Value → Bool
  | .absent, .absent => true
  | .json a, .json b => a == b
  | .tuple as, .tuple bs => beqItems as bs
  | .host a, .host b => a == b
  | .eventHandler a, .eventHandler b => a == b
  | .refHandler a, .refHandler b => a == b
  | _, _ => false

/-- Equality of tuples, item by item. -/
def beqItems : List Value → List Value → Bool
  | [], [] => true
  | a :: as, b :: bs => a.beq b && beqItems as bs
  | _, _ => false
end

instance : BEq Value := ⟨beq⟩

def ofString (text : String) : Value := .json (.string text)

def ofJson? : Option Json → Value
  | some value => .json value
  | none => .absent

/-- No value at all, or null. -/
def isAbsent : Value → Bool
  | .absent => true
  | .json .null => true
  | _ => false

/-- Does the value count as true? Nothing, null, false, zero and the empty string do not. -/
def isTruthy : Value → Bool
  | .absent => false
  | .json .null => false
  | .json (.bool flag) => flag
  | .json (.number n) => n.isNonzero
  | .json (.string text) => text ≠ ""
  | _ => true

/-- The member name that a string, a number or a flag stands for. -/
def key? : Value → Option String
  | .json (.string text) => some text
  | .json (.number n) => some n.render
  | .json (.bool flag) => some (Json.bool flag).render
  | _ => none

def text? : Value → Option String
  | .json (.string text) => some text
  | _ => none

end Value

end RemoteView
