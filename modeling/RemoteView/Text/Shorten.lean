/-! # Shortened text

Long text is cut for error messages: at most a fixed number of UTF-8 bytes are kept, the cut never
falls inside a character, and an ellipsis marks it.
-/

namespace RemoteView.Text

/-- Does a cut after `n` bytes fall between two characters, or at either end? -/
def isBoundary : List Char → Nat → Bool
  | _, 0 => true
  | [], _ + 1 => false
  | c :: rest, n + 1 => c.utf8Size ≤ n + 1 && isBoundary rest (n + 1 - c.utf8Size)

/-- The last boundary at or before `n`, found by stepping back one byte at a time. -/
def lastBoundary (text : List Char) : Nat → Nat
  | 0 => 0
  | n + 1 => if isBoundary text (n + 1) then n + 1 else lastBoundary text n

theorem lastBoundary_le (text : List Char) (n : Nat) : lastBoundary text n ≤ n := by
  induction n with
  | zero => exact Nat.le_refl 0
  | succ n ih =>
      unfold lastBoundary
      split
      · exact Nat.le_refl _
      · exact Nat.le_succ_of_le ih

theorem isBoundary_lastBoundary (text : List Char) (n : Nat) :
    isBoundary text (lastBoundary text n) = true := by
  induction n with
  | zero => cases text <;> rfl
  | succ n ih =>
      unfold lastBoundary
      split
      · assumption
      · exact ih

/-- The characters that lie within the first `n` bytes. -/
def takeBytes : List Char → Nat → List Char
  | [], _ => []
  | c :: rest, n => if c.utf8Size ≤ n then c :: takeBytes rest (n - c.utf8Size) else []

/-- The text itself when it has at most `limit` bytes, and otherwise what precedes the last boundary
    within `limit` bytes, followed by an ellipsis. -/
def shorten (limit : Nat) (text : String) : String :=
  if text.utf8ByteSize ≤ limit then text
  else
    let chars := text.toList
    String.ofList (takeBytes chars (lastBoundary chars limit)) ++ "…"

end RemoteView.Text
