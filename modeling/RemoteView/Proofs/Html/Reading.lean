import RemoteView.Mounted.Html

/-! # Reading HTML

HTML can be read in one way only, when no text is empty or beside another, no void element has
children, and all names are made of letters, digits and hyphens. A text ends at the next `<`, as it
has none itself, a name where the first other character is, and a value at the next quote; the end
of a list of nodes is told from a further element by the slash.
-/

namespace RemoteView

/-! ## Characters of a kind -/

/-- Does a text not begin with a character of a kind? -/
def Stops (kind : Char → Prop) (rest : List Char) : Prop := ∀ c, rest.head? = some c → ¬ kind c

theorem stops_cons {kind : Char → Prop} {c : Char} (other : ¬ kind c) (rest : List Char) :
    Stops kind (c :: rest) := by
  intro d first
  cases first
  exact other

/-- A text of characters of one kind ends where the next character is not of this kind. -/
theorem eq_of_append_eq {kind : Char → Prop} {word other rest more : List Char}
    (mine : ∀ c ∈ word, kind c) (yours : ∀ c ∈ other, kind c) (stops : Stops kind rest)
    (halts : Stops kind more) (same : word ++ rest = other ++ more) :
    word = other ∧ rest = more := by
  induction word generalizing other with
  | nil =>
      cases other with
      | nil => exact ⟨rfl, same⟩
      | cons c other =>
          rw [List.nil_append] at same
          have first : rest.head? = some c := by simp [same]
          exact absurd (yours c List.mem_cons_self) (stops c first)
  | cons c word ih =>
      cases other with
      | nil =>
          rw [List.nil_append] at same
          have first : more.head? = some c := by simp [← same]
          exact absurd (mine c List.mem_cons_self) (halts c first)
      | cons d other =>
          obtain ⟨rfl, later⟩ := List.cons.inj same
          obtain ⟨-, mine⟩ := List.forall_mem_cons.mp mine
          obtain ⟨-, yours⟩ := List.forall_mem_cons.mp yours
          obtain ⟨rfl, rest⟩ := ih mine yours later
          exact ⟨rfl, rest⟩

/-! ## Escaped texts -/

/-- What a text is written as. -/
def escaped (text : String) : List Char := text.toList.flatMap escapeHtmlChar

theorem toList_escapeHtml (text : String) : (escapeHtml text).toList = escaped text := by
  simp [escapeHtml, escaped]

/-- Is a character none of those that end a text, a tag or a value? -/
def IsTextChar (c : Char) : Prop := c ≠ '<' ∧ c ≠ '>' ∧ c ≠ '"'

theorem plain_escapeHtmlChar (c : Char) : ∀ d ∈ escapeHtmlChar c, IsTextChar d := by
  unfold escapeHtmlChar
  split
  case h_5 _ opening closing quote =>
    intro d among
    cases List.mem_singleton.mp among
    exact ⟨opening, closing, quote⟩
  all_goals simp [IsTextChar]

theorem plain_escaped (text : String) : ∀ d ∈ escaped text, IsTextChar d := by
  intro d among
  obtain ⟨c, -, among⟩ := List.mem_flatMap.mp among
  exact plain_escapeHtmlChar c d among

theorem escapeHtmlChar_ne_nil (c : Char) : escapeHtmlChar c ≠ [] := by
  unfold escapeHtmlChar
  split <;> exact List.cons_ne_nil _ _

theorem escapeHtmlChar_append {c d : Char} {rest more : List Char}
    (same : escapeHtmlChar c ++ rest = escapeHtmlChar d ++ more) : c = d ∧ rest = more := by
  unfold escapeHtmlChar at same
  split at same <;> split at same <;> simp only [List.cons_append, List.nil_append] at same <;>
    grind

theorem escaped_inj {text other : String} (same : escaped text = escaped other) : text = other := by
  have chars (word more : List Char)
      (same : word.flatMap escapeHtmlChar = more.flatMap escapeHtmlChar) : word = more := by
    induction word generalizing more with
    | nil =>
        cases more with
        | nil => rfl
        | cons d more => simp [escapeHtmlChar_ne_nil] at same
    | cons c word ih =>
        cases more with
        | nil => simp [escapeHtmlChar_ne_nil] at same
        | cons d more =>
            obtain ⟨rfl, later⟩ := escapeHtmlChar_append same
            rw [ih more later]
  exact String.toList_injective (chars _ _ same)

/-- A text ends where the next character is one that it cannot hold. -/
theorem escaped_append_inj {kind : Char → Prop} (holds : ∀ c, IsTextChar c → kind c)
    {text other : String} {rest more : List Char} (stops : Stops kind rest)
    (halts : Stops kind more) (same : escaped text ++ rest = escaped other ++ more) :
    text = other ∧ rest = more := by
  have mine : ∀ c ∈ escaped text, kind c := fun c among => holds c (plain_escaped text c among)
  have yours : ∀ c ∈ escaped other, kind c := fun c among => holds c (plain_escaped other c among)
  obtain ⟨texts, rest⟩ := eq_of_append_eq mine yours stops halts same
  exact ⟨escaped_inj texts, rest⟩

/-! ## Names -/

/-- The characters of names: letters, digits and hyphens. -/
def IsNameChar (c : Char) : Prop := c.isAlphanum = true ∨ c = '-'

instance (c : Char) : Decidable (IsNameChar c) := inferInstanceAs (Decidable (_ ∨ _))

/-- Can a text be the name of an element or of an attribute? -/
def IsName (name : String) : Prop := name ≠ "" ∧ ∀ c ∈ name.toList, IsNameChar c

instance (name : String) : Decidable (IsName name) :=
  decidable_of_iff (name ≠ "" ∧ name.toList.all (IsNameChar ·) = true) (by simp [IsName])

theorem IsName.toList_eq {name : String} (named : IsName name) :
    ∃ c rest, IsNameChar c ∧ name.toList = c :: rest := by
  cases chars : name.toList with
  | nil => exact absurd (String.toList_eq_nil_iff.mp chars) named.1
  | cons c rest => exact ⟨c, rest, named.2 c (by simp [chars]), rfl⟩

theorem IsName.append_inj {name other : String} {rest more : List Char} (named : IsName name)
    (called : IsName other) (stops : Stops IsNameChar rest) (halts : Stops IsNameChar more)
    (same : name.toList ++ rest = other.toList ++ more) : name = other ∧ rest = more := by
  obtain ⟨chars, rest⟩ := eq_of_append_eq named.2 called.2 stops halts same
  exact ⟨String.toList_injective chars, rest⟩

/-! ## Attributes -/

/-- What follows the name of an attribute. -/
def valueChars : Option String → List Char
  | none => []
  | some value => '=' :: '"' :: (escaped value ++ ['"'])

/-- What an attribute is written as: a blank, its name and its value. -/
def attributeChars (entry : String × Option String) : List Char :=
  ' ' :: (entry.1.toList ++ valueChars entry.2)

theorem valueChars_append {value other : Option String} {rest more : List Char}
    (stops : Stops (· = '=') rest) (halts : Stops (· = '=') more)
    (same : valueChars value ++ rest = valueChars other ++ more) : value = other ∧ rest = more := by
  cases value with
  | none =>
      cases other with
      | none => exact ⟨rfl, same⟩
      | some other =>
          rw [valueChars, List.nil_append] at same
          exact absurd rfl (stops '=' (by simp [same, valueChars]))
  | some value =>
      cases other with
      | none =>
          rw [valueChars.eq_1, List.nil_append] at same
          exact absurd rfl (halts '=' (by simp [← same, valueChars]))
      | some other =>
          have quoted : escaped value ++ '"' :: rest = escaped other ++ '"' :: more := by
            simpa [valueChars] using same
          have noQuote : ∀ c, IsTextChar c → c ≠ '"' := fun _ plain => plain.2.2
          obtain ⟨rfl, rest⟩ := escaped_append_inj noQuote (stops_cons (by simp) rest)
            (stops_cons (by simp) more) quoted
          exact ⟨rfl, (List.cons.inj rest).2⟩

/-- What follows an attribute begins with no character of a kind that has neither the blank nor the
    end of the tag. -/
theorem stops_attributes {kind : Char → Prop} (blank : ¬ kind ' ') (closing : ¬ kind '>')
    (attributes : List (String × Option String)) (rest : List Char) :
    Stops kind (attributes.flatMap attributeChars ++ '>' :: rest) := by
  cases attributes with
  | nil => exact stops_cons closing rest
  | cons => exact stops_cons blank _

theorem stops_value {kind : Char → Prop} (equals : ¬ kind '=') {rest : List Char}
    (stops : Stops kind rest) (value : Option String) : Stops kind (valueChars value ++ rest) := by
  cases value with
  | none => exact stops
  | some => exact stops_cons equals _

theorem attributes_append {attributes others : List (String × Option String)}
    {rest more : List Char} (named : ∀ entry ∈ attributes, IsName entry.1)
    (called : ∀ entry ∈ others, IsName entry.1)
    (same : attributes.flatMap attributeChars ++ '>' :: rest =
      others.flatMap attributeChars ++ '>' :: more) : attributes = others ∧ rest = more := by
  induction attributes generalizing others with
  | nil =>
      cases others with
      | nil => simpa using same
      | cons => simp [attributeChars] at same
  | cons entry attributes ih =>
      cases others with
      | nil => simp [attributeChars] at same
      | cons other others =>
          obtain ⟨name, value⟩ := entry
          obtain ⟨name', value'⟩ := other
          obtain ⟨isName, areNames⟩ := List.forall_mem_cons.mp named
          obtain ⟨isName', areNames'⟩ := List.forall_mem_cons.mp called
          have ends (kind : Char → Prop) (blank : ¬ kind ' ') (closing : ¬ kind '>') :=
            stops_attributes blank closing
          simp only [List.flatMap_cons, attributeChars, List.cons_append, List.append_assoc,
            List.cons.injEq, true_and] at same
          obtain ⟨rfl, values⟩ := isName.append_inj isName'
            (stops_value (by decide) (ends _ (by decide) (by decide) _ _) _)
            (stops_value (by decide) (ends _ (by decide) (by decide) _ _) _) same
          obtain ⟨rfl, later⟩ := valueChars_append (ends _ (by decide) (by decide) _ _)
            (ends _ (by decide) (by decide) _ _) values
          obtain ⟨rfl, rest⟩ := ih areNames areNames' later
          exact ⟨rfl, rest⟩

/-! ## Nodes -/

/-- A node of HTML. An attribute without a value is not one with an empty value. -/
inductive HtmlNode where
  | text (content : String)
  | element (tag : String) (attributes : List (String × Option String)) (children : List HtmlNode)

namespace HtmlNode

def isText : HtmlNode → Bool
  | .text _ => true
  | .element _ _ _ => false

/-- What an end tag is written as. -/
def endTag (tag : String) : List Char := '<' :: '/' :: (tag.toList ++ ['>'])

mutual
/-- What a node is written as. -/
def chars : HtmlNode → List Char
  | .text content => escaped content
  | .element tag attributes children =>
      '<' :: (tag.toList ++ (attributes.flatMap attributeChars ++ '>' ::
        (if tag ∈ voidTags then [] else allChars children ++ endTag tag)))

def allChars : List HtmlNode → List Char
  | [] => []
  | node :: rest => chars node ++ allChars rest
end

mutual
/-- Are there no empty texts, no texts beside each other, no children of void elements and no names
    of other characters? -/
def IsNormal : HtmlNode → Prop
  | .text content => content ≠ ""
  | .element tag attributes children =>
      IsName tag ∧ (∀ entry ∈ attributes, IsName entry.1) ∧
        (tag ∈ voidTags → children = []) ∧ AreNormal children

def AreNormal : List HtmlNode → Prop
  | [] => True
  | node :: rest =>
      IsNormal node ∧ AreNormal rest ∧
        (node.isText → ∀ next, rest.head? = some next → ¬ next.isText)
end

/-- Does a list of nodes end here? -/
def Ends (rest : List Char) : Prop := rest = [] ∨ ∃ tag, rest = '<' :: '/' :: tag

theorem ends_endTag (tag : String) (rest : List Char) : Ends (endTag tag ++ rest) :=
  .inr ⟨_, rfl⟩

theorem Ends.stops {rest : List Char} (ends : Ends rest) : Stops (· ≠ '<') rest := by
  obtain rfl | ⟨tag, rfl⟩ := ends
  · intro c first
    cases first
  · exact stops_cons (by decide) _

theorem text_starts {content : String} (filled : content ≠ "") :
    ∃ c rest, c ≠ '<' ∧ (text content).chars = c :: rest := by
  rw [chars]
  cases all : escaped content with
  | nil =>
      have same : escaped content = escaped "" := all
      exact absurd (escaped_inj same) filled
  | cons c rest => exact ⟨c, rest, (plain_escaped content c (by simp [all])).1, rfl⟩

theorem element_starts {tag : String} (named : IsName tag)
    (attributes : List (String × Option String)) (children : List HtmlNode) :
    ∃ c rest, IsNameChar c ∧ (element tag attributes children).chars = '<' :: c :: rest := by
  obtain ⟨c, rest, isName, name⟩ := named.toList_eq
  exact ⟨c, _, isName, by rw [chars, name]; rfl⟩

theorem not_ends_chars {node : HtmlNode} (normal : node.IsNormal) (rest : List Char) :
    ¬ Ends (node.chars ++ rest) := by
  intro ends
  cases node with
  | text content =>
      rw [IsNormal] at normal
      obtain ⟨c, more, plain, starts⟩ := text_starts normal
      exact ends.stops c (by simp [starts]) plain
  | element tag attributes children =>
      rw [IsNormal] at normal
      obtain ⟨c, more, isName, starts⟩ := element_starts normal.1 attributes children
      rw [starts] at ends
      obtain none | ⟨other, closing⟩ := ends
      · exact absurd none (List.cons_ne_nil _ _)
      · simp only [List.cons_append, List.cons.injEq, true_and] at closing
        exact absurd (closing.1 ▸ isName) (by decide)

theorem stops_after_text {content : String} {nodes : List HtmlNode} {rest : List Char}
    (normal : AreNormal (text content :: nodes)) (ends : Ends rest) :
    Stops (· ≠ '<') (allChars nodes ++ rest) := by
  rw [AreNormal] at normal
  cases nodes with
  | nil => exact ends.stops
  | cons next nodes =>
      cases next with
      | text => exact absurd rfl (normal.2.2 rfl _ rfl)
      | element => exact stops_cons (by simp) _

/-- Lists of nodes with the same text are the same, wherever they end. -/
theorem allChars_append {nodes others : List HtmlNode} {rest more : List Char}
    (normal : AreNormal nodes) (proper : AreNormal others) (ends : Ends rest) (halts : Ends more)
    (same : allChars nodes ++ rest = allChars others ++ more) : nodes = others ∧ rest = more := by
  match nodes, others with
  | [], [] => exact ⟨rfl, same⟩
  | [], other :: others =>
      rw [AreNormal] at proper
      have more : rest = other.chars ++ (allChars others ++ more) := by simpa [allChars] using same
      exact absurd (more ▸ ends) (not_ends_chars proper.1 _)
  | node :: nodes, [] =>
      rw [AreNormal] at normal
      have rest : more = node.chars ++ (allChars nodes ++ rest) := by
        simpa [allChars] using same.symm
      exact absurd (rest ▸ halts) (not_ends_chars normal.1 _)
  | text content :: nodes, text other :: others =>
      have stops := stops_after_text normal ends
      have pauses := stops_after_text proper halts
      rw [AreNormal] at normal proper
      have split : escaped content ++ (allChars nodes ++ rest) =
          escaped other ++ (allChars others ++ more) := by
        simpa [allChars, chars] using same
      have noTag : ∀ c, IsTextChar c → c ≠ '<' := fun _ plain => plain.1
      obtain ⟨rfl, later⟩ := escaped_append_inj noTag stops pauses split
      obtain ⟨rfl, rest⟩ := allChars_append normal.2.1 proper.2.1 ends halts later
      exact ⟨rfl, rest⟩
  | text content :: nodes, element tag attributes children :: others =>
      rw [AreNormal, IsNormal] at normal
      obtain ⟨c, _, plain, starts⟩ := text_starts normal.1
      rw [allChars, allChars, starts, chars] at same
      exact absurd (List.cons.inj same).1 plain
  | element tag attributes children :: nodes, text other :: others =>
      rw [AreNormal, IsNormal] at proper
      obtain ⟨c, _, plain, starts⟩ := text_starts proper.1
      rw [allChars, allChars, starts, chars] at same
      exact absurd (List.cons.inj same).1.symm plain
  | element tag attributes children :: nodes, element tag' attributes' children' :: others =>
      rw [AreNormal, IsNormal] at normal proper
      obtain ⟨⟨isName, named, hollow, inner⟩, next, -⟩ := normal
      obtain ⟨⟨isName', named', hollow', inner'⟩, next', -⟩ := proper
      simp only [allChars, chars, List.cons_append, List.append_assoc, List.cons.injEq,
        true_and] at same
      obtain ⟨rfl, tail⟩ := isName.append_inj isName'
        (stops_attributes (by decide) (by decide) _ _)
        (stops_attributes (by decide) (by decide) _ _) same
      obtain ⟨rfl, content⟩ := attributes_append named named' tail
      by_cases void : tag ∈ voidTags
      · have later : allChars nodes ++ rest = allChars others ++ more := by
          simpa [void] using content
        obtain ⟨rfl, rest⟩ := allChars_append next next' ends halts later
        rw [hollow void, hollow' void]
        exact ⟨rfl, rest⟩
      · have inside : allChars children ++ (endTag tag ++ (allChars nodes ++ rest)) =
            allChars children' ++ (endTag tag ++ (allChars others ++ more)) := by
          simpa [void] using content
        obtain ⟨rfl, closing⟩ := allChars_append inner inner' (ends_endTag tag _)
          (ends_endTag tag _) inside
        obtain ⟨rfl, rest⟩ := allChars_append next next' ends halts
          (List.append_cancel_left closing)
        exact ⟨rfl, rest⟩

theorem allChars_inj {nodes others : List HtmlNode} (normal : AreNormal nodes)
    (proper : AreNormal others) (same : allChars nodes = allChars others) : nodes = others := by
  refine (allChars_append normal proper (.inl rfl) (.inl rfl) ?_).1
  rw [same]

end HtmlNode

end RemoteView
