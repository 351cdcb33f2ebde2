import RemoteView.Mounted.Basic

/-! # HTML

The text of a mounted tree. Components leave no trace, callbacks and refs are not written, null and
false are left out, true is an attribute without a value, and void elements have neither children
nor an end tag.
-/

namespace RemoteView

/-- The characters that text and attribute values cannot hold as they are. -/
def escapeHtmlChar (c : Char) : List Char :=
  match c with
  | '&' => ['&', 'a', 'm', 'p', ';']
  | '<' => ['&', 'l', 't', ';']
  | '>' => ['&', 'g', 't', ';']
  | '"' => ['&', 'q', 'u', 'o', 't', ';']
  | c => [c]

def escapeHtml (text : String) : String := String.ofList (text.toList.flatMap escapeHtmlChar)

/-- The elements that have no content. -/
def voidTags : List String := ["area", "br", "col", "hr", "img", "input", "link", "meta", "wbr"]

/-- What is written for a property. -/
inductive AttributeText where
  /-- Nothing. -/
  | omitted
  /-- The name alone. -/
  | bare
  /-- The name and this value. -/
  | valued (text : String)
  deriving DecidableEq, Repr

/-- What is written for a property. -/
def Property.htmlText : Property → AttributeText
  | .value .null => .omitted
  | .value (.bool false) => .omitted
  | .value (.bool true) => .bare
  | .value (.string text) => .valued text
  | .value other => .valued other.render
  | .className classes => .valued classes
  | .style declarations => .valued declarations.render
  | .listener _ => .omitted
  | .ref _ => .omitted

def attributeName (property : String) : String :=
  if property = classProperty then "class" else property

/-- The text of a property, after a blank. -/
def Property.html (name : String) (property : Property) : String :=
  match property.htmlText with
  | .omitted => ""
  | .bare => " " ++ attributeName name
  | .valued text => " " ++ attributeName name ++ "=\"" ++ escapeHtml text ++ "\""

namespace Mounted

def startTag (node : MountedElement) : String :=
  "<" ++ node.tag ++
    String.join (node.props.map fun (name, property) => property.html name) ++ ">"

mutual
/-- The text of a tree. -/
def html : Mounted → String
  | .empty => ""
  | .text content => escapeHtml content
  | .component _ child => html child
  | .element node children =>
      if node.tag ∈ voidTags then startTag node
      else startTag node ++ htmlAll children ++ "</" ++ node.tag ++ ">"

/-- The texts of several trees, one after another. -/
def htmlAll : List Mounted → String
  | [] => ""
  | child :: rest => html child ++ htmlAll rest
end

end Mounted

end RemoteView
