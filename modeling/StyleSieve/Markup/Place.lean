import StyleSieve.Markup.Node

/-!
# Places in documents

A place is an element together with everything around it.  Only elements count
as neighbours; text and comments do not.
-/

namespace StyleSieve.Markup

/-- An element of a document: the outermost one, or one inside another, with the
elements before it, nearest first, and those after it. -/
inductive Place where
  | outermost (self : Node)
  | inside (parent : Place) (before : List Node) (self : Node) (after : List Node)
  deriving Inhabited

namespace Place

/-- The element itself. -/
def self : Place → Node
  | .outermost self => self
  | .inside _ _ self _ => self

/-- The place of the enclosing element. -/
def parent? : Place → Option Place
  | .outermost _ => none
  | .inside parent _ _ _ => some parent

/-- The elements before an element in the same parent, nearest first. -/
def before : Place → List Node
  | .outermost _ => []
  | .inside _ before _ _ => before

/-- The elements after an element in the same parent. -/
def after : Place → List Node
  | .outermost _ => []
  | .inside _ _ _ after => after

/-- The places of all enclosing elements, innermost first. -/
def ancestors : Place → List Place
  | .outermost _ => []
  | .inside parent _ _ _ => parent :: parent.ancestors

/-- The places of the elements `before` an element, nearest first. -/
def placesBefore (parent : Place) : List Node → Node → List Node → List Place
  | [], _, _ => []
  | node :: rest, self, after =>
      .inside parent rest node (self :: after) :: placesBefore parent rest node (self :: after)

/-- The places of the elements `after` an element, nearest first. -/
def placesAfter (parent : Place) : List Node → Node → List Node → List Place
  | _, _, [] => []
  | before, self, node :: rest =>
      .inside parent (self :: before) node rest :: placesAfter parent (self :: before) node rest

/-- The places of the elements before an element, nearest first. -/
def previous : Place → List Place
  | .outermost _ => []
  | .inside parent before self after => placesBefore parent before self after

/-- The places of the elements after an element, nearest first. -/
def following : Place → List Place
  | .outermost _ => []
  | .inside parent before self after => placesAfter parent before self after

/-- The places of elements in a parent, after those of `before`. -/
def placesIn (parent : Place) (before : List Node) : List Node → List Place
  | [] => []
  | node :: rest => .inside parent before node rest :: placesIn parent (node :: before) rest

/-- The places of the elements that an element encloses directly. -/
def children (place : Place) : List Place :=
  placesIn place [] (place.self.content.filter Node.isElement)

mutual

/-- The place of an element and those of all elements in it, in document
order. -/
def allAt (place : Place) : Node → List Place
  | .element _ _ content => place :: allIn place [] content
  | .text _ | .comment => []

/-- The places of the elements among some nodes, and of all elements in them, in
document order. -/
def allIn (parent : Place) (before : List Node) : List Node → List Place
  | [] => []
  | node :: rest =>
      if node.isElement then
        allAt (.inside parent before node (rest.filter Node.isElement)) node ++
          allIn parent (node :: before) rest
      else allIn parent before rest

end

/-- The places of all elements that an element encloses, in document order. -/
def descendants (place : Place) : List Place :=
  allIn place [] place.self.content

end Place

/-- The places of a document, in document order. -/
def Node.places (root : Node) : List Place :=
  Place.allAt (.outermost root) root

end StyleSieve.Markup
