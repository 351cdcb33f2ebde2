import RemoteView.Decimal.Scale
import RemoteView.Json.Basic

/-! # JSON tokens

JSON text is read in two steps: characters to tokens here, tokens to values in `Json.Parser`. The
reader is strict. It takes the four blanks of the standard and nothing else between tokens, refuses
bare control characters and lone surrogates in strings, and refuses numbers beyond the doubles.
-/

namespace RemoteView.Json

/-- A token of JSON text. -/
inductive Token where
  | openArray
  | closeArray
  | openObject
  | closeObject
  | comma
  | colon
  | string (text : String)
  /-- `null`, `true`, `false` or a number. -/
  | scalar (value : Json)

namespace Token

/-- The four characters that may stand between tokens. -/
def isBlank (c : Char) : Bool :=
  c = ' ' || c = '\t' || c = '\n' || c = '\r'

/-- What remains after reading from `input`: never longer than it. -/
abbrev Rest (input : List Char) := { rest : List Char // rest.length ≤ input.length }

/-- What remains after reading at least one character from `input`. -/
abbrev Shorter (input : List Char) := { rest : List Char // rest.length < input.length }

/-! ## Strings -/

/-- The value of a hexadecimal digit. -/
def hexDigit? (c : Char) : Option Nat :=
  if '0' ≤ c ∧ c ≤ '9' then some (c.toNat - '0'.toNat)
  else if 'a' ≤ c ∧ c ≤ 'f' then some (c.toNat - 'a'.toNat + 10)
  else if 'A' ≤ c ∧ c ≤ 'F' then some (c.toNat - 'A'.toNat + 10)
  else none

/-- Four hexadecimal digits: one unit of 16 bits. -/
def unit? (input : List Char) : Option (Nat × Rest input) :=
  match input with
  | a :: b :: c :: d :: rest => do
      let a ← hexDigit? a
      let b ← hexDigit? b
      let c ← hexDigit? c
      let d ← hexDigit? d
      return (((a * 16 + b) * 16 + c) * 16 + d, ⟨rest, by simp only [List.length_cons]; omega⟩)
  | _ => none

/-- The rest of an escape after `\u`: one unit, or a pair of surrogates of which the second is
    written as a full escape. A surrogate outside such a pair is refused. -/
def unicodeEscape? (input : List Char) : Option (Char × Rest input) := do
  let (high, rest) ← unit? input
  if 0xD800 ≤ high ∧ high < 0xDC00 then
    match h : rest.val with
    | '\\' :: 'u' :: tail =>
        let (low, rest') ← unit? tail
        if 0xDC00 ≤ low ∧ low < 0xE000 then
          return (Char.ofNat (0x10000 + (high - 0xD800) * 0x400 + (low - 0xDC00)),
            ⟨rest'.val, by
              have h₁ := rest.property
              have h₂ := rest'.property
              rw [h] at h₁
              simp only [List.length_cons] at h₁
              omega⟩)
        else none
    | _ => none
  else if 0xDC00 ≤ high ∧ high < 0xE000 then none
  else return (Char.ofNat high, rest)

def escape? (input : List Char) : Option (Char × Rest input) :=
  match input with
  | '"' :: rest => some ('"', ⟨rest, by simp⟩)
  | '\\' :: rest => some ('\\', ⟨rest, by simp⟩)
  | '/' :: rest => some ('/', ⟨rest, by simp⟩)
  | 'b' :: rest => some ('\x08', ⟨rest, by simp⟩)
  | 'f' :: rest => some ('\x0c', ⟨rest, by simp⟩)
  | 'n' :: rest => some ('\n', ⟨rest, by simp⟩)
  | 'r' :: rest => some ('\r', ⟨rest, by simp⟩)
  | 't' :: rest => some ('\t', ⟨rest, by simp⟩)
  | 'u' :: rest => do
      let (c, tail) ← unicodeEscape? rest
      return (c, ⟨tail.val, by have := tail.property; simp only [List.length_cons]; omega⟩)
  | _ => none

/-- The rest of a string after its opening quote; `done` holds the characters read, last first. What
    remains is not longer than `bound`, as the input is. -/
def string? (bound : Nat) (done : List Char) (input : List Char) (within : input.length ≤ bound) :
    Option (String × { rest : List Char // rest.length ≤ bound }) :=
  match input with
  | [] => none
  | '"' :: rest =>
      some (String.ofList done.reverse, ⟨rest, Nat.le_of_succ_le within⟩)
  | '\\' :: rest =>
      match escape? rest with
      | none => none
      | some (c, tail) =>
          have shorter : tail.val.length < ('\\' :: rest).length := by
            have := tail.property
            simp only [List.length_cons]
            omega
          string? bound (c :: done) tail.val (Nat.le_trans (Nat.le_of_lt shorter) within)
  | c :: rest =>
      if c.toNat < 0x20 then none
      else string? bound (c :: done) rest (Nat.le_of_succ_le within)
termination_by input.length
decreasing_by
  · exact shorter
  · exact Nat.lt_succ_self rest.length

/-! ## Numbers -/

/-- The parts of a number as written. -/
structure NumberText where
  negative : Bool
  whole : List Char
  fraction : Option (List Char)
  exponent : Option (Bool × List Char)

/-- The number that a run of decimal digits stands for. -/
def naturalOf (digits : List Char) : Nat :=
  digits.foldl (fun n c => n * 10 + (c.toNat - '0'.toNat)) 0

theorem length_dropWhile_le (p : Char → Bool) (input : List Char) :
    (input.dropWhile p).length ≤ input.length :=
  (List.dropWhile_suffix p).length_le

/-- Digits after a point, at least one. -/
def fraction? (input : List Char) : Option (Option (List Char) × Rest input) :=
  match input with
  | '.' :: rest =>
      match rest.takeWhile Char.isDigit with
      | [] => none
      | run => some (some run, ⟨rest.dropWhile Char.isDigit, by
          have := length_dropWhile_le Char.isDigit rest
          simp only [List.length_cons]
          omega⟩)
  | other => some (none, ⟨other, Nat.le_refl _⟩)

/-- The sign of an exponent: is it negative? -/
def sign (input : List Char) : Bool × Rest input :=
  match input with
  | '-' :: rest => (true, ⟨rest, by simp⟩)
  | '+' :: rest => (false, ⟨rest, by simp⟩)
  | other => (false, ⟨other, Nat.le_refl _⟩)

/-- An exponent mark, a sign or none, and at least one digit. -/
def exponent? (input : List Char) : Option (Option (Bool × List Char) × Rest input) :=
  match input with
  | mark :: rest =>
      if mark = 'e' ∨ mark = 'E' then
        let (negative, run) := sign rest
        match run.val.takeWhile Char.isDigit with
        | [] => none
        | written => some (some (negative, written), ⟨run.val.dropWhile Char.isDigit, by
            have h₁ := length_dropWhile_le Char.isDigit run.val
            have h₂ := run.property
            simp only [List.length_cons]
            omega⟩)
      else some (none, ⟨mark :: rest, Nat.le_refl _⟩)
  | [] => some (none, ⟨[], Nat.le_refl _⟩)

/-- The number written, of the integer kind when it has neither point nor exponent and fits there.
-/
def NumberText.value? (text : NumberText) : Option Number :=
  let whole := Decimal.Scaled.ofWhole 0 text.whole
  let gathered := whole.gatherFraction (text.fraction.getD [])
  let shift : Int :=
    match text.exponent with
    | some (true, run) => -Int.ofNat (naturalOf run)
    | some (false, run) => Int.ofNat (naturalOf run)
    | none => 0
  let signed (x : Float) := if text.negative then -x else x
  let float : Option Number :=
    (Decimal.Scaled.toFloat? { gathered with exponent := gathered.exponent + shift }).map
      fun x => .float (signed x)
  if text.fraction.isSome ∨ text.exponent.isSome then float
  else if text.negative then
    if gathered.significand = 0 then float
    else (Number.ofInt? (-Int.ofNat (naturalOf text.whole))).or float
  else (Number.ofInt? (Int.ofNat (naturalOf text.whole))).or float

theorem length_dropWhile_lt {p : Char → Bool} {input run : List Char} {first : Char}
    (h : input.takeWhile p = first :: run) : (input.dropWhile p).length < input.length := by
  have split : (input.takeWhile p ++ input.dropWhile p).length = input.length :=
    congrArg List.length (List.takeWhile_append_dropWhile (p := p) (l := input))
  rw [List.length_append, h, List.length_cons] at split
  omega

/-- The digits before the point: a lone zero, or a run that starts with no zero. -/
def whole? (input : List Char) : Option (List Char × Shorter input) :=
  match input with
  | '0' :: rest => some (['0'], ⟨rest, by simp⟩)
  | other =>
      match h : other.takeWhile Char.isDigit with
      | [] => none
      | first :: run =>
          some (first :: run, ⟨other.dropWhile Char.isDigit, length_dropWhile_lt h⟩)

/-- A number whose sign has been read. -/
def unsigned? (negative : Bool) (input : List Char) : Option (Number × Shorter input) := do
  let (whole, afterWhole) ← whole? input
  let (fraction, afterFraction) ← fraction? afterWhole.val
  let (exponent, final) ← exponent? afterFraction.val
  let value ← NumberText.value? ⟨negative, whole, fraction, exponent⟩
  return (value, ⟨final.val, by
    have h₁ := afterWhole.property
    have h₂ := afterFraction.property
    have h₃ := final.property
    omega⟩)

/-! ## The token at the front -/

/-- What follows a fixed word at the front of the input. -/
def dropWord? (word input : List Char) : Option (Rest input) :=
  if word.isPrefixOf input then some ⟨input.drop word.length, by simp⟩ else none

def starting? (c : Char) (rest : List Char) : Option (Token × Rest rest) :=
  let single (token : Token) : Option (Token × Rest rest) := some (token, ⟨rest, Nat.le_refl _⟩)
  let word (tail : String) (value : Json) : Option (Token × Rest rest) :=
    (dropWord? tail.toList rest).map fun final => (.scalar value, final)
  match c with
  | '[' => single .openArray
  | ']' => single .closeArray
  | '\x7b' => single .openObject
  | '\x7d' => single .closeObject
  | ',' => single .comma
  | ':' => single .colon
  | '"' =>
      (string? rest.length [] rest (Nat.le_refl _)).map fun (text, final) => (.string text, final)
  | 'n' => word "ull" .null
  | 't' => word "rue" (.bool true)
  | 'f' => word "alse" (.bool false)
  | '-' =>
      (unsigned? true rest).map fun (value, final) =>
        (.scalar (.number value), ⟨final.val, Nat.le_of_lt final.property⟩)
  | _ => none

/-- Read tokens to the end of the text; `done` holds those read, last first. -/
def readAll? (done : List Token) (input : List Char) : Option (List Token) :=
  match input with
  | [] => some done.reverse
  | c :: rest =>
      if isBlank c then readAll? done rest
      else if c.isDigit then
        match unsigned? false (c :: rest) with
        | none => none
        | some (value, final) =>
            have shorter := final.property
            readAll? (.scalar (.number value) :: done) final.val
      else
        match starting? c rest with
        | none => none
        | some (token, final) =>
            have shorter : final.val.length < (c :: rest).length := by
              have := final.property
              simp only [List.length_cons]
              omega
            readAll? (token :: done) final.val
termination_by input.length
decreasing_by
  · exact Nat.lt_succ_self rest.length
  · exact shorter
  · exact shorter

end Token

end RemoteView.Json
