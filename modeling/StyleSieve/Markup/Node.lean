/-!
# Document trees

A document is a tree of elements.  Between its elements it holds text and
comments.
-/

namespace StyleSieve.Markup

/-- A name with a value. -/
structure Attribute where
  name : String
  value : String
  deriving DecidableEq, Repr

/-- A part of a document. -/
inductive Node where
  | element (tag : String) (attributes : List Attribute) (content : List Node)
  | text (text : String)
  | comment
  deriving Inhabited, Repr

namespace Node

/-- Whether a node is an element. -/
def isElement : Node → Bool
  | .element .. => true
  | _ => false

/-- The name of an element. -/
def tag : Node → String
  | .element tag _ _ => tag
  | _ => ""

/-- The attributes of an element. -/
def attributes : Node → List Attribute
  | .element _ attributes _ => attributes
  | _ => []

/-- What an element encloses. -/
def content : Node → List Node
  | .element _ _ content => content
  | _ => []

/-- The value of an attribute of an element, if the element has it. -/
def attribute? (node : Node) (name : String) : Option String :=
  (node.attributes.find? (·.name == name)).map (·.value)

mutual

/-- The elements of a tree, in document order. -/
def elements : Node → List Node
  | .element tag attributes content => .element tag attributes content :: elementsAmong content
  | .text _ | .comment => []

/-- The elements of some trees, in document order. -/
def elementsAmong : List Node → List Node
  | [] => []
  | node :: rest => node.elements ++ elementsAmong rest

end

end Node

end StyleSieve.Markup
