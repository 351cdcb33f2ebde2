/-! # Blanks

The characters with the Unicode property `White_Space`, and text without them at its ends.
-/

namespace RemoteView.Text

/-- Is a character white space? -/
def isBlank (c : Char) : Bool :=
  let n := c.toNat
  (0x9 ≤ n && n ≤ 0xD) || n = 0x20 || n = 0x85 || n = 0xA0 || n = 0x1680 ||
    (0x2000 ≤ n && n ≤ 0x200A) || n = 0x2028 || n = 0x2029 || n = 0x202F || n = 0x205F || n = 0x3000

/-- The characters between the blanks at both ends. -/
def trimChars (text : List Char) : List Char :=
  ((text.dropWhile isBlank).reverse.dropWhile isBlank).reverse

/-- Text without the blanks at its ends. -/
def trim (text : String) : String := String.ofList (trimChars text.toList)

end RemoteView.Text
