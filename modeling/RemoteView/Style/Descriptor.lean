import RemoteView.Style.Declarations

/-! # Style descriptors

A descriptor is a style rule or a font face that is known by a hash. Rules are written for the class
that belongs to their hash.
-/

namespace RemoteView

/-- What a condition tests. -/
inductive ConditionKind where
  | media
  | supports
  deriving DecidableEq, Repr

/-- A condition under which a rule applies. -/
structure Condition where
  kind : ConditionKind
  predicate : String
  deriving DecidableEq, Repr

/-- A rule or a font face. -/
inductive StyleDescriptor where
  | rule (hash : String) (conditions : List Condition) (suffixes : List String)
      (declarations : Declarations)
  | fontFace (hash : String) (declarations : Declarations)

def ConditionKind.atRule : ConditionKind → String
  | .media => "@media"
  | .supports => "@supports"

namespace StyleDescriptor

def hash : StyleDescriptor → String
  | .rule hash _ _ _ => hash
  | .fontFace hash _ => hash

def className (descriptor : StyleDescriptor) : String := "s" ++ descriptor.hash

def braced (body : String) : String := "\x7b" ++ body ++ "\x7d"

/-- The text of a descriptor. The first condition is the innermost one. -/
def toCss : StyleDescriptor → String
  | .rule hash conditions suffixes declarations =>
      let block := "." ++ ("s" ++ hash) ++ String.join suffixes ++ braced declarations.render
      conditions.foldl
        (fun inner condition =>
          condition.kind.atRule ++ " " ++ condition.predicate ++ " " ++ braced inner)
        block
  | .fontFace _ declarations => "@font-face" ++ braced declarations.render

/-- The class attribute that a list of descriptors stands for. -/
def classList (descriptors : List StyleDescriptor) : String :=
  String.intercalate " " (descriptors.map className)

end StyleDescriptor

end RemoteView
