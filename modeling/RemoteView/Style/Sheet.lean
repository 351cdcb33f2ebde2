import RemoteView.Style.Descriptor

/-! # Style sheets

The rules of the document, and the compiler that writes each descriptor once. The compiler opens its
sheet when the first descriptor is written.
-/

namespace RemoteView

/-- The style sheets of a document. All of them add to one list of rules. -/
structure StyleSheets where
  rules : List String
  created : Nat

namespace StyleSheets

/-- No sheet and no rule. -/
def empty : StyleSheets := ⟨[], 0⟩

/-- Open a sheet. -/
def create (sheets : StyleSheets) : StyleSheets := { sheets with created := sheets.created + 1 }

/-- Insert a rule at a position, or at the end when there are not so many rules. -/
def insertRule (text : String) (index : Nat) (sheets : StyleSheets) : StyleSheets :=
  { sheets with rules := sheets.rules.take index ++ text :: sheets.rules.drop index }

end StyleSheets

/-- The writer of style rules: the document's sheets, whether its own sheet is open, and the hashes
    written so far. -/
structure RuleCompiler where
  sheets : StyleSheets
  isOpen : Bool
  seen : List String

namespace RuleCompiler

/-- Nothing written yet. -/
def empty : RuleCompiler := ⟨.empty, false, []⟩

/-- Write a descriptor at the end of the rules, unless its hash was written before. -/
def emit (compiler : RuleCompiler) (descriptor : StyleDescriptor) : RuleCompiler :=
  if descriptor.hash ∈ compiler.seen then compiler
  else
    let sheets := if compiler.isOpen then compiler.sheets else compiler.sheets.create
    { sheets := sheets.insertRule descriptor.toCss sheets.rules.length
      isOpen := true
      seen := compiler.seen ++ [descriptor.hash] }

/-- Write descriptors in order. -/
def emitAll (compiler : RuleCompiler) (descriptors : List StyleDescriptor) : RuleCompiler :=
  descriptors.foldl emit compiler

/-- How many descriptors were written. -/
def emitted (compiler : RuleCompiler) : Nat := compiler.seen.length

end RuleCompiler

end RemoteView
