import RemoteView.Json.Basic

/-! # Positions in a rendered tree

A path is the sequence of child indices that leads from the root to a node. Components add no index.
-/

namespace RemoteView

/-- Child indices from the root downwards. -/
structure Path where
  segments : List UInt32
  deriving DecidableEq, Repr, Inhabited

namespace Path

/-- The position of the root. -/
def root : Path := ⟨[]⟩

/-- The position of a child. -/
def child (path : Path) (index : UInt32) : Path := ⟨path.segments ++ [index]⟩

/-- The position reached by following further indices. -/
def descend (path : Path) (indices : List UInt32) : Path := ⟨path.segments ++ indices⟩

def isRoot (path : Path) : Bool := path.segments.isEmpty

/-- The indices in decimal with dots between them; the root has the empty key. -/
def key (path : Path) : String :=
  String.intercalate "." (path.segments.map fun index => toString index.toNat)

/-- The key, or a word for the root, as messages show it. -/
def display (path : Path) : String := if path.isRoot then "<root>" else path.key

/-- The array of the indices. -/
def toJson (path : Path) : Json := .array (path.segments.map Json.ofUInt32)

@[simp] theorem segments_root : root.segments = [] := rfl

@[simp] theorem segments_child (path : Path) (index : UInt32) :
    (path.child index).segments = path.segments ++ [index] := rfl

end Path

end RemoteView
