import RemoteView.Assoc

/-! # JSON values

Objects keep their members in order, with each name once. A number is either an integer between
`-2^63` and `2^64 - 1` or a double; the two kinds are never equal, not even `1` and `1.0`.
-/

namespace RemoteView

/-- Does an integer belong to the integer kind of JSON numbers? The bounds are those of signed words
    below and of unsigned words above. -/
def IntegerFits (value : Int) : Prop :=
  -9223372036854775808 ≤ value ∧ value < 18446744073709551616

instance (value : Int) : Decidable (IntegerFits value) :=
  inferInstanceAs (Decidable (_ ∧ _))

/-- A JSON number of one of the two kinds. -/
inductive Number where
  | integer (value : Int) (fits : IntegerFits value)
  | float (value : Float)

/-- A JSON value. -/
inductive Json where
  | null
  | bool (flag : Bool)
  | number (value : Number)
  | string (text : String)
  | array (items : List Json)
  | object (members : List (String × Json))

instance : Inhabited Json := ⟨.null⟩

namespace Number

/-- Integers by value, doubles as doubles: `0.0` equals `-0.0`, and no integer equals a double. -/
def beq : Number → Number → Bool
  | .integer a _, .integer b _ => a = b
  | .float a, .float b => a == b
  | _, _ => false

instance : BEq Number := ⟨beq⟩

/-- A number that the integer kind holds, or nothing. -/
def ofInt? (value : Int) : Option Number :=
  if fits : IntegerFits value then some (.integer value fits) else none

theorem integerFits_toNat (n : UInt64) : IntegerFits n.toNat := by
  have := n.toNat_lt
  unfold IntegerFits
  omega

/-- A word as a number. -/
def ofUInt64 (n : UInt64) : Number := .integer n.toNat (integerFits_toNat n)

/-- The word that a number is, if it is an integer from `0` to `2^64 - 1`. -/
def toUInt64? : Number → Option UInt64
  | .integer value _ => if 0 ≤ value then some (UInt64.ofNat value.toNat) else none
  | .float _ => none

/-- The half word that a number is, if it is an integer from `0` to `2^32 - 1`. -/
def toUInt32? : Number → Option UInt32
  | .integer value _ =>
      if 0 ≤ value ∧ value < UInt32.size then some (UInt32.ofNat value.toNat) else none
  | .float _ => none

/-- Neither zero nor not-a-number. -/
def isNonzero : Number → Bool
  | .integer value _ => value ≠ 0
  | .float value => value != 0.0 && !value.isNaN

@[simp] theorem toUInt64?_ofUInt64 (n : UInt64) : (ofUInt64 n).toUInt64? = some n := by
  simp [ofUInt64, toUInt64?]

end Number

namespace Json

mutual
/-- Equality of values. Objects are compared without regard to the order of their members. -/
def beq : Json → Json → Bool
  | .null, .null => true
  | .bool a, .bool b => a == b
  | .number a, .number b => a == b
  | .string a, .string b => a == b
  | .array as, .array bs => beqItems as bs
  | .object as, .object bs => as.length == bs.length && beqMembers as bs
  | _, _ => false

/-- Equality of arrays, item by item. -/
def beqItems : List Json → List Json → Bool
  | [], [] => true
  | a :: as, b :: bs => a.beq b && beqItems as bs
  | _, _ => false

/-- Is every member of the first list found in the second with an equal value? -/
def beqMembers : List (String × Json) → List (String × Json) → Bool
  | [], _ => true
  | (name, a) :: as, bs =>
      (match Assoc.get? name bs with
        | some b => a.beq b
        | none => false) && beqMembers as bs
end

instance : BEq Json := ⟨beq⟩

/-- A word as a value. -/
def ofUInt64 (n : UInt64) : Json := .number (.ofUInt64 n)

/-- A half word as a value. -/
def ofUInt32 (n : UInt32) : Json := ofUInt64 n.toUInt64

/-- The member of an object under a name. Other values have no members. -/
def get? (name : String) : Json → Option Json
  | .object members => Assoc.get? name members
  | _ => none

/-- The items of an array. -/
def items? : Json → Option (List Json)
  | .array items => some items
  | _ => none

/-- The members of an object. -/
def members? : Json → Option (Assoc String Json)
  | .object members => some members
  | _ => none

def text? : Json → Option String
  | .string text => some text
  | _ => none

/-- The flag that a value is. -/
def flag? : Json → Option Bool
  | .bool flag => some flag
  | _ => none

/-- The word that a value is. -/
def toUInt64? : Json → Option UInt64
  | .number n => n.toUInt64?
  | _ => none

/-- The half word that a value is. -/
def toUInt32? : Json → Option UInt32
  | .number n => n.toUInt32?
  | _ => none

end Json

end RemoteView
