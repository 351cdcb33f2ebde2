import RemoteView.Expr.Basic
import RemoteView.Path

/-! # Faults in spines

Why a JSON value is not a spine. A fault is found at a node; the error adds the position of the
node.
-/

namespace RemoteView

/-- A part of a spine that has not the required form. -/
inductive SpinePart where
  | elementTag
  | children
  | childEntry
  | childIndex
  | attributes
  | attribute
  | attributeTag
  | attributeName
  | eventListener
  | functionId
  | listenerEvent
  | style
  | styleDescriptor
  | styleHash
  | styleFields
  | styleConditions
  | styleCondition
  | conditionPredicate
  | styleSuffixes
  | styleSuffix
  | styleDeclarations
  | refKey
  | componentId
  | componentListeners
  | componentListener
  | hookList
  deriving DecidableEq, Repr

namespace SpinePart

def name : SpinePart → String
  | .elementTag => "element"
  | .children => "children"
  | .childEntry => "child entry"
  | .childIndex => "child index"
  | .attributes => "attributes"
  | .attribute | .attributeTag => "attribute"
  | .attributeName => "attribute name"
  | .eventListener => "event listener"
  | .functionId => "function id"
  | .listenerEvent => "listener event name"
  | .style => "style attribute"
  | .styleDescriptor | .styleHash | .styleFields => "style descriptor"
  | .styleConditions => "style conditions"
  | .styleCondition => "style condition"
  | .conditionPredicate => "condition predicate"
  | .styleSuffixes => "style suffixes"
  | .styleSuffix => "style suffix"
  | .styleDeclarations => "css declarations"
  | .refKey => "ref key"
  | .componentId => "component"
  | .componentListeners => "component listeners"
  | .componentListener => "component listener"
  | .hookList => "hook list"

def requirement : SpinePart → String
  | .elementTag => "missing tag"
  | .children | .attributes | .styleConditions | .styleSuffixes | .componentListeners
  | .hookList => "expected array"
  | .childEntry => "expected [index, spine]"
  | .childIndex => "expected unsigned integer"
  | .attribute => "expected tagged array"
  | .attributeTag => "tag must be a string"
  | .attributeName | .listenerEvent | .conditionPredicate | .styleSuffix | .refKey =>
      "expected string"
  | .eventListener => "expected [fid, name, expr]"
  | .functionId => "expected number or string"
  | .style => "expected descriptor list or map"
  | .styleDescriptor => "expected [kind, hash, …]"
  | .styleHash => "hash must be a string"
  | .styleFields => "wrong number of fields"
  | .styleCondition => "expected [kind, predicate]"
  | .styleDeclarations => "expected object"
  | .componentId => "missing numeric id"
  | .componentListener => "expected [fid, name, expr?]"

end SpinePart

/-- What is wrong with a node. -/
inductive SpineFault where
  /-- Neither text nor element nor component. -/
  | unknownShape (found : String)
  /-- An attribute of an unknown kind. -/
  | unknownAttribute (tag : String)
  /-- A style descriptor of an unknown kind. -/
  | unknownStyleKind (kind : Json)
  | malformed (part : SpinePart)
  | expression (error : ExprError)

/-- A fault and the position of the node that has it. -/
structure SpineError where
  path : Path
  fault : SpineFault

namespace SpineFault

/-- The tag that the fault is about, when it is about one. -/
def tag? : SpineFault → Option String
  | .unknownShape found => some found
  | .unknownAttribute tag => some tag
  | .unknownStyleKind kind => some kind.render
  | .expression (.unknownTag tag) => some tag
  | _ => none

end SpineFault

def SpineError.message (error : SpineError) : String :=
  let path := error.path.display
  match error.fault with
  | .unknownShape found => "unexpected spine value at " ++ path ++ ": " ++ found
  | .unknownAttribute tag => "unknown attribute tag '" ++ tag ++ "' at " ++ path
  | .unknownStyleKind kind => "unknown style descriptor kind " ++ kind.render ++ " at " ++ path
  | .malformed part => "malformed " ++ part.name ++ " at " ++ path ++ ": " ++ part.requirement
  | .expression source => "bad expression at " ++ path ++ ": " ++ source.message

end RemoteView
