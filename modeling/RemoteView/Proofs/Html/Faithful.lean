import Mathlib.Data.List.Basic
import RemoteView.Proofs.Html.Reading

/-! # What the HTML of a tree tells

The HTML of a mounted tree is that of its normal form, and as HTML can be read in one way only, it
tells the normal form and no more. Texts and values of attributes have no part in its structure: the
tags that a reader finds who knows nothing of texts and values are those of the elements.
-/

namespace RemoteView

theorem escaped_append (text more : String) :
    escaped (text ++ more) = escaped text ++ escaped more := by
  simp [escaped]

namespace HtmlNode

/-! ## Joining texts -/

/-- A node before others: a text is joined with the text that follows it, and is left out when it is
    empty. -/
def prepend : HtmlNode → List HtmlNode → List HtmlNode
  | .text content, .text more :: rest => .text (content ++ more) :: rest
  | .text content, rest => if content = "" then rest else .text content :: rest
  | .element tag attributes children, rest => .element tag attributes children :: rest

/-- Nodes with adjacent texts joined and empty texts left out. -/
def joinTexts (nodes : List HtmlNode) : List HtmlNode := nodes.foldr prepend []

theorem allChars_concat (nodes more : List HtmlNode) :
    allChars (nodes ++ more) = allChars nodes ++ allChars more := by
  induction nodes with
  | nil => rfl
  | cons node nodes ih => simp [allChars, ih]

theorem allChars_prepend (node : HtmlNode) (rest : List HtmlNode) :
    allChars (prepend node rest) = node.chars ++ allChars rest := by
  fun_cases prepend node rest with
  | case1 content more rest => simp [allChars, chars, escaped_append]
  | case2 => simp [chars, escaped]
  | case3 | case4 => rw [allChars]

theorem allChars_joinTexts (nodes : List HtmlNode) :
    allChars (joinTexts nodes) = allChars nodes := by
  induction nodes with
  | nil => rfl
  | cons node nodes ih =>
      rw [joinTexts, List.foldr_cons, allChars_prepend, ← joinTexts, ih, allChars]

theorem areNormal_prepend {node : HtmlNode} {rest : List HtmlNode}
    (single : ¬ node.isText → node.IsNormal) (normal : AreNormal rest) :
    AreNormal (prepend node rest) := by
  fun_cases prepend node rest with
  | case1 content more rest =>
      rw [AreNormal, IsNormal] at normal
      obtain ⟨filled, later, apart⟩ := normal
      refine ⟨?_, later, apart⟩
      simp [IsNormal, filled]
  | case2 => exact normal
  | case3 content rest apart filled =>
      refine ⟨filled, normal, ?_⟩
      rintro - (more | _) first
      · cases rest with
        | nil => cases first
        | cons next rest =>
            cases first
            exact absurd rfl (apart more rest)
      · simp [isText]
  | case4 rest tag attributes children =>
      refine ⟨single (by simp [isText]), normal, ?_⟩
      intro text
      cases text

theorem areNormal_joinTexts {nodes : List HtmlNode}
    (single : ∀ node ∈ nodes, ¬ node.isText → node.IsNormal) : AreNormal (joinTexts nodes) := by
  induction nodes with
  | nil => exact trivial
  | cons node nodes ih =>
      obtain ⟨here, there⟩ := List.forall_mem_cons.mp single
      exact areNormal_prepend here (ih there)

end HtmlNode

/-! ## Normal forms -/

/-- The attribute that is written for a property, if any. -/
def Property.attributeText? (entry : String × Property) : Option (String × Option String) :=
  match entry.2.htmlText with
  | .omitted => none
  | .bare => some (attributeName entry.1, none)
  | .valued text => some (attributeName entry.1, some text)

/-- The attributes that are written for properties. -/
def Props.written (props : Props) : List (String × Option String) :=
  props.filterMap Property.attributeText?

namespace Mounted

open HtmlNode (joinTexts allChars AreNormal)

mutual
/-- The nodes of HTML in a tree. Components and empty nodes are left out, and so are the children of
    void elements; the texts of an element are joined. -/
def nodes : Mounted → List HtmlNode
  | .empty => []
  | .text content => [.text content]
  | .component _ child => nodes child
  | .element node children =>
      [.element node.tag node.props.written
        (if node.tag ∈ voidTags then [] else joinTexts (allNodes children))]

def allNodes : List Mounted → List HtmlNode
  | [] => []
  | child :: rest => nodes child ++ allNodes rest
end

/-- The normal form of a tree. -/
def normal (tree : Mounted) : List HtmlNode := joinTexts tree.nodes

mutual
/-- Are the tags and the properties in a tree named by letters, digits and hyphens? -/
def IsNamed : Mounted → Prop
  | .empty => True
  | .text _ => True
  | .component _ child => IsNamed child
  | .element node children =>
      IsName node.tag ∧ (∀ entry ∈ node.props, IsName entry.1) ∧ AreNamed children

def AreNamed : List Mounted → Prop
  | [] => True
  | child :: rest => IsNamed child ∧ AreNamed rest
end

theorem isName_written {props : Props} (named : ∀ entry ∈ props, IsName entry.1) :
    ∀ entry ∈ props.written, IsName entry.1 := by
  intro attr among
  obtain ⟨⟨name, property⟩, property_mem, written⟩ := List.mem_filterMap.mp among
  have isName : IsName (attributeName name) := by
    unfold attributeName
    split
    · decide
    · exact named _ property_mem
  unfold Property.attributeText? at written
  split at written <;> cases written <;> exact isName

theorem toList_property (name : String) (property : Property) :
    (property.html name).toList =
      (Property.attributeText? (name, property)).toList.flatMap attributeChars := by
  unfold Property.html Property.attributeText?
  cases property.htmlText <;> simp [attributeChars, valueChars, toList_escapeHtml]

theorem toList_attributes (props : Props) :
    (String.join (props.map fun (name, property) => property.html name)).toList =
      props.written.flatMap attributeChars := by
  rw [String.toList_join, Props.written, List.flatMap_map, List.filterMap_eq_flatMap_toList,
    List.flatMap_assoc]
  exact congrArg (List.flatMap · props) (funext fun entry => toList_property entry.1 entry.2)

/-- An element is written as its tag with the attributes, and unless it is void its children and the
    end tag. -/
theorem toList_html_element (node : MountedElement) (children : List Mounted) :
    (html (.element node children)).toList =
      '<' :: (node.tag.toList ++ (node.props.written.flatMap attributeChars ++ '>' ::
        (if node.tag ∈ voidTags then [] else
          (htmlAll children).toList ++ HtmlNode.endTag node.tag))) := by
  rw [html]
  split <;> simp [startTag, ← toList_attributes, HtmlNode.endTag]

mutual
theorem toList_html : ∀ tree : Mounted, tree.html.toList = allChars tree.nodes
  | .empty => rfl
  | .text content => by simp [html, nodes, allChars, HtmlNode.chars, toList_escapeHtml]
  | .component identity child => by rw [html, nodes, toList_html child]
  | .element node children => by
      rw [toList_html_element, nodes, allChars, HtmlNode.chars, toList_htmlAll children]
      split <;> simp [allChars, HtmlNode.allChars_joinTexts]

theorem toList_htmlAll : ∀ trees : List Mounted, (htmlAll trees).toList = allChars (allNodes trees)
  | [] => rfl
  | tree :: rest => by
      rw [htmlAll, allNodes, String.toList_append, HtmlNode.allChars_concat, toList_html tree,
        toList_htmlAll rest]
end

/-- A tree is written as its normal form. -/
theorem toList_html_normal (tree : Mounted) : tree.html.toList = allChars tree.normal := by
  rw [normal, HtmlNode.allChars_joinTexts, toList_html]

mutual
theorem isNormal_nodes : ∀ {tree : Mounted}, tree.IsNamed →
    ∀ node ∈ tree.nodes, ¬ node.isText → node.IsNormal
  | .empty, _ => by simp [nodes]
  | .text content, _ => by simp [nodes, HtmlNode.isText]
  | .component _ child, named => by
      rw [IsNamed] at named
      rw [nodes]
      exact isNormal_nodes named
  | .element node children, named => by
      rw [IsNamed] at named
      obtain ⟨isName, names, inner⟩ := named
      intro other among noText
      rw [nodes, List.mem_singleton] at among
      subst among
      have normal := HtmlNode.areNormal_joinTexts (isNormal_allNodes inner)
      refine ⟨isName, isName_written names, ?_, ?_⟩
      · intro void
        exact if_pos void
      · split
        · exact trivial
        · exact normal

theorem isNormal_allNodes : ∀ {trees : List Mounted}, AreNamed trees →
    ∀ node ∈ allNodes trees, ¬ node.isText → node.IsNormal
  | [], _ => by simp [allNodes]
  | tree :: rest, named => by
      rw [AreNamed] at named
      intro node among
      rw [allNodes, List.mem_append] at among
      cases among with
      | inl here => exact isNormal_nodes named.1 node here
      | inr there => exact isNormal_allNodes named.2 node there
end

theorem areNormal_normal {tree : Mounted} (named : tree.IsNamed) : AreNormal tree.normal :=
  HtmlNode.areNormal_joinTexts (isNormal_nodes named)

/-! ## Tags -/

/-- Can a character be in a tag? -/
def IsTagChar (c : Char) : Prop := IsNameChar c ∨ c = '/'

instance (c : Char) : Decidable (IsTagChar c) := inferInstanceAs (Decidable (_ ∨ _))

/-- The tags that a reader finds who takes every `<` for the beginning of one. -/
def tagsIn : List Char → List String
  | [] => []
  | c :: rest =>
      if c = '<' then String.ofList (rest.takeWhile (IsTagChar ·)) :: tagsIn rest
      else tagsIn rest

mutual
/-- The tags that a tree has, those at the end of an element with their slash. -/
def tags : Mounted → List String
  | .empty => []
  | .text _ => []
  | .component _ child => tags child
  | .element node children =>
      node.tag :: (if node.tag ∈ voidTags then [] else allTags children ++ ["/" ++ node.tag])

def allTags : List Mounted → List String
  | [] => []
  | child :: rest => tags child ++ allTags rest
end

theorem tagsIn_append {plain : List Char} (without : ∀ c ∈ plain, c ≠ '<') (rest : List Char) :
    tagsIn (plain ++ rest) = tagsIn rest := by
  induction plain with
  | nil => rfl
  | cons c plain ih =>
      obtain ⟨here, there⟩ := List.forall_mem_cons.mp without
      rw [List.cons_append, tagsIn, if_neg here, ih there]

theorem tagsIn_tag {name : String} (named : ∀ c ∈ name.toList, IsTagChar c) {inside : List Char}
    (stops : Stops IsTagChar inside) :
    tagsIn ('<' :: (name.toList ++ inside)) = name :: tagsIn inside := by
  have plain : ∀ c ∈ name.toList, c ≠ '<' := by
    rintro c among rfl
    exact absurd (named _ among) (by decide)
  have ended : inside.takeWhile (IsTagChar ·) = [] := by
    cases inside with
    | nil => rfl
    | cons c inside => simp [stops c rfl]
  have word : (name.toList ++ inside).takeWhile (IsTagChar ·) = name.toList := by
    rw [List.takeWhile_append_of_pos (by simpa using named), ended, List.append_nil]
  rw [tagsIn, if_pos rfl, tagsIn_append plain, word, String.ofList_toList]

theorem plain_attributes {attributes : List (String × Option String)}
    (named : ∀ entry ∈ attributes, IsName entry.1) :
    ∀ c ∈ attributes.flatMap attributeChars, c ≠ '<' := by
  rintro c among rfl
  obtain ⟨⟨name, value⟩, entry_mem, among⟩ := List.mem_flatMap.mp among
  rw [attributeChars, List.mem_cons, List.mem_append] at among
  obtain blank | inName | inValue := among
  · exact absurd blank (by decide)
  · exact absurd ((named _ entry_mem).2 _ inName) (by decide)
  · cases value with
    | none => cases inValue
    | some value =>
        have inText : '<' ∈ escaped value := by simpa [valueChars] using inValue
        exact (plain_escaped value _ inText).1 rfl

mutual
theorem tagsIn_html : ∀ {tree : Mounted}, tree.IsNamed → ∀ rest,
    tagsIn (tree.html.toList ++ rest) = tree.tags ++ tagsIn rest
  | .empty, _, rest => rfl
  | .text content, _, rest => by
      rw [html, toList_escapeHtml, tags, List.nil_append]
      exact tagsIn_append (fun c among => (plain_escaped content c among).1) rest
  | .component _ child, named, rest => by
      rw [IsNamed] at named
      rw [html, tags]
      exact tagsIn_html named rest
  | .element node children, named, rest => by
      rw [IsNamed] at named
      obtain ⟨isName, names, inner⟩ := named
      have names := isName_written names
      have opening (content : List Char) :
          tagsIn ('<' :: (node.tag.toList ++ (node.props.written.flatMap attributeChars ++
            '>' :: content))) = node.tag :: tagsIn content := by
        rw [tagsIn_tag (fun c among => .inl (isName.2 c among))
          (stops_attributes (by decide) (by decide) _ _), tagsIn_append (plain_attributes names),
          tagsIn, if_neg (by decide)]
      have closing : tagsIn (HtmlNode.endTag node.tag ++ rest) =
          ("/" ++ node.tag) :: tagsIn rest := by
        have chars : ∀ c ∈ ("/" ++ node.tag).toList, IsTagChar c := by
          intro c among
          rw [String.toList_append, List.mem_append] at among
          obtain slash | inTag := among
          · exact .inr (by simpa using slash)
          · exact .inl (isName.2 c inTag)
        have stops : Stops IsTagChar ('>' :: rest) := stops_cons (by decide) rest
        simpa [HtmlNode.endTag, tagsIn] using tagsIn_tag chars stops
      rw [toList_html_element, tags]
      by_cases void : node.tag ∈ voidTags
      · simpa [void] using opening rest
      · have content := tagsIn_htmlAll inner (HtmlNode.endTag node.tag ++ rest)
        rw [closing] at content
        simp only [if_neg void, List.cons_append, List.append_assoc, opening, content,
          List.nil_append]

theorem tagsIn_htmlAll : ∀ {trees : List Mounted}, AreNamed trees → ∀ rest,
    tagsIn ((htmlAll trees).toList ++ rest) = allTags trees ++ tagsIn rest
  | [], _, rest => rfl
  | tree :: others, named, rest => by
      rw [AreNamed] at named
      rw [htmlAll, String.toList_append, List.append_assoc, tagsIn_html named.1,
        tagsIn_htmlAll named.2, allTags, List.append_assoc]
end

/-- Trees have the same HTML if and only if they have the same normal form, whatever their texts and
    the values of their properties are. These add no tag and hide none: the tags in the HTML of a
    tree are those of its elements. -/
theorem html_faithful {tree other : Mounted} (named : tree.IsNamed) (called : other.IsNamed) :
    (tree.html = other.html ↔ tree.normal = other.normal) ∧
      tagsIn tree.html.toList = tree.tags := by
  refine ⟨⟨fun same => ?_, fun same => ?_⟩, ?_⟩
  · have written := congrArg String.toList same
    rw [toList_html_normal, toList_html_normal] at written
    exact HtmlNode.allChars_inj (areNormal_normal named) (areNormal_normal called) written
  · apply String.toList_injective
    rw [toList_html_normal, toList_html_normal, same]
  · have found := tagsIn_html named []
    rwa [List.append_nil, tagsIn, List.append_nil] at found

/-- A paragraph with markup in its text and in its class, as a component renders it in pieces. -/
theorem quoted_markup_stays_text :
    let component : Mounted := .component ⟨0, 0, 1, .root, none⟩ (.element
      ⟨"p", none, [("ref", .ref ⟨.root 0, .root⟩), ("hidden", .value (.bool false)),
        ("className", .className "a\">")], 0, none⟩ [.text "</p", .empty, .text "", .text ">&"])
    let plain : Mounted := .element ⟨"p", some 3, [("class", .value (.string "a\">"))], 7, none⟩
      [.text "</p>&"]
    component.html = plain.html ∧ tagsIn component.html.toList = ["p", "/p"] := by
  intro component plain
  have named : component.IsNamed ∧ plain.IsNamed := by
    simp only [component, plain, IsNamed, AreNamed, List.forall_mem_cons, List.not_mem_nil,
      false_imp_iff, implies_true, and_true]
    decide
  obtain ⟨same, found⟩ := html_faithful named.1 named.2
  exact ⟨same.mpr rfl, found⟩

end Mounted

end RemoteView
