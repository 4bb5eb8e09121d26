import StyleSieve.Markup.Content
import StyleSieve.Markup.Node
import StyleSieve.Markup.Token

/-!
# Building document trees

The tokens of a document are read from left to right.  Every document has an
outermost element with a head and a body, whose tags may be left out; a start
tag ends the open elements that it cannot stand in; an end tag ends the
innermost open element of its name, with all elements in it.
-/

namespace StyleSieve.Markup

/-- An element whose end has not been read, with its content so far, last node
first. -/
structure OpenElement where
  tag : String
  attributes : List Attribute
  content : List Node

/-- A document being built: the open elements, innermost first; the trees that
are complete, last one first; whether there has been a head or a body; and how
many end tags belong to start tags that were ignored. -/
structure Building where
  openElements : List OpenElement := []
  complete : List Node := []
  hadHead : Bool := false
  hadBody : Bool := false
  ignored : Nat := 0

namespace Building

/-- The name of the innermost open element. -/
def current? (building : Building) : Option String :=
  building.openElements.head?.map (·.tag)

/-- Whether an element with a name is open. -/
def isOpen (building : Building) (tag : String) : Bool :=
  building.openElements.any (·.tag == tag)

/-- Adds a node to the innermost open element. -/
def add (building : Building) (node : Node) : Building :=
  match building.openElements with
  | [] => { building with complete := node :: building.complete }
  | inner :: outer =>
      { building with openElements := { inner with content := node :: inner.content } :: outer }

/-- Ends the innermost open element. -/
def close (building : Building) : Building :=
  match building.openElements with
  | [] => building
  | inner :: outer =>
      { building with openElements := outer }.add
        (.element inner.tag inner.attributes inner.content.reverse)

/-- Ends a number of open elements. -/
def closeSeveral : Nat → Building → Building
  | 0, building => building
  | count + 1, building => closeSeveral count building.close

/-- Starts an element. -/
def start (building : Building) (tag : String) (attributes : List Attribute) : Building :=
  { building with
    openElements := ⟨tag, attributes, []⟩ :: building.openElements
    hadHead := building.hadHead || tag == "head" || tag == "body"
    hadBody := building.hadBody || tag == "body" }

/-- Ends the open elements that a start tag ends, from the innermost on. -/
def makeRoom (building : Building) (tag : String) : Building :=
  let ended := building.openElements.takeWhile fun inner => (enders inner.tag).contains tag
  building.closeSeveral ended.length

/-- Starts the outermost element, unless it is open. -/
def startDocument (building : Building) : Building :=
  if building.openElements.isEmpty then building.start "html" [] else building

/-- Starts the elements around an element whose tags were left out. -/
def startImplied (building : Building) (tag : String) : Building :=
  if tag == "html" then building
  else
    let within := building.startDocument
    if tag == "body" || tag == "head" then within
    else if within.openElements.length ≤ 1 && headElements.contains tag then
      if within.hadHead then within else within.start "head" []
    else if frameElements.contains tag then within
    else if within.hadBody || within.isOpen "body" || within.isOpen "head" then within
    else within.start "body" []

/-- Whether a start tag stands where its element is open already, or cannot
be. -/
def isMisplaced (building : Building) (tag : String) : Bool :=
  match tag with
  | "html" => !building.openElements.isEmpty
  | "head" => building.openElements.length != 1
  | "body" => building.isOpen "body"
  | _ => false

/-- Reads a start tag. -/
def readStart (building : Building) (tag : String) (attributes : List Attribute)
    (closed : Bool) : Building :=
  let ready := (building.makeRoom tag).startImplied tag
  if ready.isMisplaced tag then { ready with ignored := ready.ignored + 1 }
  else
    let started := ready.start tag attributes
    if closed || voidElements.contains tag then started.close else started

/-- Reads an end tag. -/
def readEnd (building : Building) (tag : String) : Building :=
  if building.ignored > 0 && ["html", "body", "head"].contains tag then
    { building with ignored := building.ignored - 1 }
  else if building.isOpen tag then
    let inside := building.openElements.takeWhile (·.tag != tag)
    if inside.any (rank ·.tag > rank tag) then building
    else building.closeSeveral (inside.length + 1)
  else building

/-- Adds text to the innermost open element.  Text before the first element
counts only from its first character that is not blank. -/
def addText (building : Building) (text : List Char) : Building :=
  if text.isEmpty then building
  else
    match building.openElements with
    | [] => building
    | _ :: _ => building.add (.text (String.ofList text))

/-- Reads text.  Text that is not blank does not stand in a head, nor outside a
body that has not been there. -/
def readText (building : Building) (text : List Char) : Building :=
  match building.current? with
  | some "html" | some "head" | none =>
      let blanks := text.takeWhile isSpace
      let rest := text.dropWhile isSpace
      let before := building.addText blanks
      if rest.isEmpty then before
      else
        let outside := if before.current? == some "head" then before.makeRoom "p" else before
        (outside.startImplied "p").addText rest
  | some _ => building.addText text

/-- An attribute of an element.  An attribute without a value is empty, unless
it is a switch. -/
def attributeOf (spelled : SpelledAttribute) : Attribute :=
  let name := String.ofList spelled.1
  match spelled.2 with
  | some value => ⟨name, String.ofList value⟩
  | none => ⟨name, if switchAttributes.contains name then name else ""⟩

/-- The attributes of an element: of several with one name the first counts. -/
def attributesOf (spelled : List SpelledAttribute) : List Attribute :=
  spelled.foldl (fun found next =>
    let one := attributeOf next
    if found.any (·.name == one.name) then found else found ++ [one]) []

/-- Reads a token. -/
def read (building : Building) : Token → Building
  | .startTag name attributes closed =>
      building.readStart (String.ofList name) (attributesOf attributes) closed
  | .cutTag name =>
      (building.makeRoom (String.ofList name)).startImplied (String.ofList name)
  | .endTag name => building.readEnd (String.ofList name)
  | .text text => building.readText text
  | .comment => building.add .comment

/-- The outermost nodes of a document, once all its tokens have been read. -/
def finish (building : Building) : List Node :=
  (building.closeSeveral building.openElements.length).complete.reverse

end Building

/-- The tree of a document, unless the document has no element: its outermost
element, and whatever follows it is left out. -/
def parse (source : String) : Option Node :=
  (((tokens source).foldl Building.read {}).finish).find? (·.isElement)

end StyleSieve.Markup
