import RemoteView.Property

/-! # Rendered nodes

A node is what a spine renders to in a context: texts, elements with properties, and components
whose content is not rendered yet. Rendering a node has no effect; what it declares is collected by
`Spine.declarations`.
-/

namespace RemoteView

/-- A component that is to be mounted. -/
structure ComponentNode where
  session : SessionId
  component : UInt64
  path : Path
  key : Option UInt32
  payload : Payload

/-- A rendered node. -/
inductive Node where
  | empty
  | text (text : String)
  | element (tag : String) (key : Option UInt32) (props : Props) (children : List Node)
  | component (component : ComponentNode)

instance : Inhabited Node := ⟨.empty⟩

/-- Where a spine is rendered: the context, the position, and the key among the siblings. -/
structure Site where
  context : ContextId
  path : Path
  key : Option UInt32
  deriving DecidableEq, Repr

namespace Site

def root (session : SessionId) : Site := ⟨.root session, .root, none⟩

def child (site : Site) (index : UInt32) : Site :=
  ⟨site.context, site.path.child index, some index⟩

end Site

namespace Node

/-- The key by which a node is found among its siblings. -/
def key : Node → Option UInt32
  | .empty => none
  | .text _ => none
  | .element _ key _ _ => key
  | .component mounted => mounted.key

mutual
def ofSpine (site : Site) : Spine → Node
  | .empty => .empty
  | .text content => .text content
  | .element tag children attributes =>
      .element tag site.key (.ofAttributes site.context site.path attributes)
        (ofChildren site children)
  | .component id _ content behaviour =>
      .component ⟨site.context.session, id, site.path, site.key, ⟨content, behaviour⟩⟩

def ofChildren (site : Site) : List (UInt32 × Spine) → List Node
  | [] => []
  | (index, child) :: rest => ofSpine (site.child index) child :: ofChildren site rest
end

end Node

/-- The tag of elements that are controlled inputs. -/
def inputTag : String := "input"

/-- Something that a rendering declares besides the nodes. -/
inductive Declaration where
  /-- A listener of the element at a position. -/
  | listener (path : Path) (listener : Listener)
  /-- A ref of the element at a position. -/
  | ref (path : Path) (declared : RefAttribute)
  /-- Style descriptors in use. -/
  | rules (descriptors : List StyleDescriptor)
  /-- A component and its name. -/
  | component (id : UInt64) (name : String)

/-- What an attribute declares. -/
def Attribute.declarations (path : Path) : Attribute → List Declaration
  | .value _ _ => []
  | .listener declared => [.listener path declared]
  | .style (.rules descriptors) => [.rules descriptors]
  | .style (.inlined _) => []
  | .ref declared => [.ref path declared]

namespace Spine

mutual
/-- What the rendering of a spine declares: children before the attributes of their element, and of
    components nothing but their names. -/
def declarations (path : Path) : Spine → List Declaration
  | .empty => []
  | .text _ => []
  | .element _ children attributes =>
      childDeclarations path children ++ attributes.flatMap (Attribute.declarations path)
  | .component id name _ _ => [.component id name]

def childDeclarations (path : Path) : List (UInt32 × Spine) → List Declaration
  | [] => []
  | (index, child) :: rest => declarations (path.child index) child ++ childDeclarations path rest
end

end Spine

end RemoteView
