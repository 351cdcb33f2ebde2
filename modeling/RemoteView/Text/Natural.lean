/-! # Unsigned numbers in text

The decimal form in which configuration values, hole indices and list positions are written: an
optional plus sign and at least one ASCII digit. A number at or above the limit of its width is
refused.
-/

namespace RemoteView.Text

/-- The number that a non-empty run of ASCII digits stands for. -/
def naturalOfDigits? (digits : List Char) : Option Nat :=
  if digits = [] ∨ digits.any (fun c => !c.isDigit) then none
  else some (digits.foldl (fun n c => 10 * n + (c.toNat - '0'.toNat)) 0)

/-- A number below `limit`, with an optional plus sign. -/
def natural? (limit : Nat) (text : String) : Option Nat :=
  let value :=
    match text.toList with
    | '+' :: digits => naturalOfDigits? digits
    | digits => naturalOfDigits? digits
  value.filter (· < limit)

/-- A number of 16 bits. -/
def toUInt16? (text : String) : Option UInt16 := (natural? UInt16.size text).map UInt16.ofNat

/-- A number of 32 bits. -/
def toUInt32? (text : String) : Option UInt32 := (natural? UInt32.size text).map UInt32.ofNat

/-- A number of 64 bits. -/
def toUInt64? (text : String) : Option UInt64 := (natural? UInt64.size text).map UInt64.ofNat

end RemoteView.Text
