import StyleSieve.Proofs.Text.Words
import StyleSieve.Usage.Static

/-!
# Links and places

The references of a document to style sheets are those of the links among the places that selectors
are matched at, as long as the markup reads the same whether its encoding is told or guessed.
-/

namespace StyleSieve.Markup

/-! ## Places and elements -/

namespace Place

mutual

theorem map_self_allAt {place : Place} (node : Node) (here : place.self = node) :
    (allAt place node).map Place.self = node.elements := by
  cases node with
  | element tag attributes content =>
      rw [allAt, List.map_cons, here, map_self_allIn place [] content, Node.elements]
  | text text => rfl
  | comment => rfl

/-- The places among some nodes are those of their elements, in document order. -/
theorem map_self_allIn (parent : Place) (before nodes : List Node) :
    (allIn parent before nodes).map Place.self = Node.elementsAmong nodes := by
  cases nodes with
  | nil => rfl
  | cons node rest =>
      rw [allIn, Node.elementsAmong]
      split
      · rw [List.map_append, map_self_allAt node rfl, map_self_allIn parent _ rest]
      · next nothing =>
          rw [map_self_allIn parent before rest]
          cases node with
          | element tag attributes content => exact absurd rfl nothing
          | text text => rfl
          | comment => rfl

end

end Place

theorem Node.map_self_places (root : Node) : root.places.map Place.self = root.elements :=
  Place.map_self_allAt root rfl

/-! ## Markup whose encoding is guessed -/

/-- The mark in front of markup is the only character with its bytes. -/
theorem head_of_mark {text : String}
    (marked : (Text.encodeUtf8 text).take 3 = [0xEF, 0xBB, 0xBF]) :
    text.toList.head? = some '\uFEFF' := by
  rw [← String.ofList_toList (s := text), Text.encodeUtf8_ofList] at marked
  generalize text.toList = chars at marked ⊢
  cases chars with
  | nil => exact absurd marked (by simp)
  | cons c rest =>
      obtain ⟨byte, tail, bytes, piece⟩ := Text.leadingPiece_of_bytes c
      rw [List.flatMap_cons, bytes, List.cons_append] at marked
      have whole := piece (rest.flatMap String.utf8EncodeChar)
      generalize tail ++ rest.flatMap String.utf8EncodeChar = more at marked whole
      match more, marked with
      | second :: third :: others, marked =>
          simp only [List.take_succ_cons, List.take_zero, List.cons.injEq, and_true] at marked
          obtain ⟨rfl, rfl, rfl⟩ := marked
          have mark : Text.leadingPiece 0xEF (0xBB :: 0xBF :: others) = ⟨3, .ok '\uFEFF'⟩ := rfl
          rw [mark] at whole
          simp only [Text.Utf8Piece.mk.injEq, Except.ok.injEq] at whole
          rw [List.head?_cons, whole.2]

/-- A guess of marked UTF-8 comes from a declaration: there is no mark in front. -/
theorem not_marked {source : String} (guessed : guessEncoding source = .utf8Marked) :
    (Text.encodeUtf8 source).take 3 ≠ [0xEF, 0xBB, 0xBF] := by
  intro marked
  rw [guessEncoding, head_of_mark marked, if_pos (by decide)] at guessed
  exact Text.Encoding.noConfusion guessed

/-- Markup reads the same when its encoding is guessed if it is all ASCII, or if the guess is that
it is in UTF-8, as it is. -/
theorem readGuessing_eq_self {source : String}
    (right : source.toList.all (·.toNat < 0x80) = true ∨ guessEncoding source = .utf8 ∨
      guessEncoding source = .utf8Marked) :
    readGuessing source = source := by
  rw [readGuessing]
  split
  · rfl
  · next wide =>
      rcases right with narrow | plain | marked
      · exact absurd narrow wide
      · rw [plain, Text.Encoding.decode, Text.decodeUtf8Lossy_encodeUtf8]
      · rw [marked, Text.Encoding.decode, if_neg (by simpa using not_marked marked),
          Text.decodeUtf8Lossy_encodeUtf8]

/-- Markup outside ASCII reads otherwise if the guess is an encoding that takes each byte for a
character. -/
theorem readGuessing_ne_self {source : String}
    (wide : source.toList.all (·.toNat < 0x80) = false)
    (single : guessEncoding source = .ascii ∨ guessEncoding source = .latin1 ∨
      guessEncoding source = .windows1252) :
    readGuessing source ≠ source := by
  intro same
  have length := congrArg (fun text => text.toList.length) same
  have bytes := (Text.length_le_bytes source.toList).2 wide
  rw [← Text.encodeUtf8_ofList, String.ofList_toList] at bytes
  rw [readGuessing, if_neg (by simp [wide])] at length
  rcases single with guess | guess | guess <;>
    · rw [guess] at length
      simp only [Text.Encoding.decode, String.toList_ofList, List.length_map] at length
      omega

end StyleSieve.Markup

namespace StyleSieve.Usage

open Markup (Node Place)

/-! ## Linked sheets -/

/-- Whether an element is a link to a style sheet: `stylesheet` is one of the words of its kind, in
lower case. -/
def linksSheet (element : Node) : Bool :=
  element.tag == "link" &&
    (Text.words (Text.lowercase ((element.attribute? "rel").getD "").toList)).contains
      "stylesheet".toList

/-- What an element refers to, without blanks at the ends. -/
def target (element : Node) : String :=
  Text.trimmed ((element.attribute? "href").getD "")

/-- What the links to style sheets among some places refer to, in their order, if it is not
empty. -/
def linkedSheets (places : List Place) : List String :=
  (((places.map Place.self).filter linksSheet).map target).filter (· != "")

theorem sheetReference?_eq (element : Node) :
    sheetReference? element =
      if linksSheet element && target element != "" then some (target element) else none := by
  have plain : "stylesheet".toList.all fun c => c.toNat < 0x80 && c != 'i' && c != 'k' := by
    decide +kernel
  have kinds := @Text.mem_words_lowercase "stylesheet".toList
    (by simpa only [List.all_eq_true, Bool.and_eq_true, decide_eq_true_eq, bne_iff_ne, and_assoc]
      using plain)
    ((element.attribute? "rel").getD "").toList
  rw [← List.contains_iff_mem, ← List.contains_iff_mem, ← Bool.eq_iff_iff] at kinds
  rw [sheetReference?, linksSheet, kinds]
  rfl

theorem filterMap_sheetReference? (elements : List Node) :
    elements.filterMap sheetReference? =
      ((elements.filter linksSheet).map target).filter (· != "") := by
  induction elements with
  | nil => rfl
  | cons element rest ih =>
      rw [List.filterMap_cons, sheetReference?_eq, ih]
      cases links : linksSheet element <;> cases reference : target element != "" <;>
        simp [links, reference]

/-- The references of markup that is not blank: those of the links in its tree, when its encoding
is guessed. -/
theorem sheetReferences_eq {html : String} (solid : ¬Text.allBlank html) :
    sheetReferences html =
      ((Markup.parse (Markup.readGuessing html)).map fun root => linkedSheets root.places).getD
        [] := by
  rw [sheetReferences, if_neg solid]
  cases Markup.parse (Markup.readGuessing html) with
  | none => rfl
  | some root =>
      rw [Option.map_some, Option.getD_some, linkedSheets, Node.map_self_places]
      exact filterMap_sheetReference? root.elements

/-- A document that can be loaded refers to the sheets that its links refer to, among the places
that selectors are matched at, in document order and as often as they do: none if it is blank, and
else whenever its markup reads the same with its encoding guessed.  The encoding is guessed although
it is known, and where the guess is wrong the references are those of the links in markup that is
misread.  It is right about ASCII and where it is UTF-8, and wrong about all else where it is an
encoding that takes each byte for a character. -/
theorem sheetReferences_of_places {document : Document} {places : List Place}
    (loaded : document.places? = some places) :
    (Text.allBlank document.html = true →
        places = [] ∧ sheetReferences document.html = []) ∧
      (Markup.readGuessing document.html = document.html →
        sheetReferences document.html = linkedSheets places) ∧
      (Text.allBlank document.html = false →
        sheetReferences document.html =
          ((Markup.parse (Markup.readGuessing document.html)).map fun root =>
            linkedSheets root.places).getD []) ∧
      (document.html.toList.all (·.toNat < 0x80) = true ∨
          Markup.guessEncoding document.html = .utf8 ∨
          Markup.guessEncoding document.html = .utf8Marked →
        Markup.readGuessing document.html = document.html) ∧
      (document.html.toList.all (·.toNat < 0x80) = false →
        Markup.guessEncoding document.html = .ascii ∨
          Markup.guessEncoding document.html = .latin1 ∨
          Markup.guessEncoding document.html = .windows1252 →
        Markup.readGuessing document.html ≠ document.html) := by
  have right := @Markup.readGuessing_eq_self document.html
  have wrong := @Markup.readGuessing_ne_self document.html
  rw [Document.places?] at loaded
  cases blank : Text.allBlank document.html with
  | true =>
      rw [blank, if_pos rfl, Option.some.injEq] at loaded
      have nothing : sheetReferences document.html = [] := by
        rw [sheetReferences, if_pos blank]
      rw [← loaded]
      exact ⟨fun _ => ⟨rfl, nothing⟩, fun _ => nothing, fun solid => absurd solid (by decide),
        right, wrong⟩
  | false =>
      rw [blank, if_neg (by decide), Option.map_eq_some_iff] at loaded
      obtain ⟨root, parsed, rfl⟩ := loaded
      have references := @sheetReferences_eq document.html (by simp [blank])
      refine ⟨fun nothing => absurd nothing (by decide), fun same => ?_, fun _ => references,
        right, wrong⟩
      rw [references, same, parsed]
      rfl

/-- A document outside ASCII that says which encoding it is in. -/
def declared : Document where
  location := "p.html"
  html := "<meta charset=utf-8><link rel=\"Alternate StyleSheet\" href=\" \u00e9.css\">"

/-- Its reference is the one in its tree. -/
theorem sheetReferences_of_places_declared :
    ∃ places, declared.places? = some places ∧
      Markup.readGuessing declared.html = declared.html ∧
      linkedSheets places = ["\u00e9.css"] ∧ sheetReferences declared.html = ["\u00e9.css"] := by
  obtain ⟨places, loaded⟩ : ∃ places, declared.places? = some places :=
    Option.isSome_iff_exists.mp (by decide +kernel)
  have references : sheetReferences declared.html = ["\u00e9.css"] := by decide +kernel
  obtain ⟨-, linked, -, right, -⟩ := sheetReferences_of_places loaded
  have same := right (.inr (.inl (by decide +kernel)))
  exact ⟨places, loaded, same, (linked same).symm.trans references, references⟩

/-- A document outside ASCII that does not. -/
def undeclared : Document where
  location := "p.html"
  html := "<link rel=\"stylesheet\" href=\"\u00e9.css\">"

/-- Its link is misread: what it refers to is looked for under a name that it does not hold. -/
theorem undeclared_misread :
    ∃ places, undeclared.places? = some places ∧ linkedSheets places = ["\u00e9.css"] ∧
      sheetReferences undeclared.html = ["\u00c3\u00a9.css"] := by
  have linked : undeclared.places?.map linkedSheets = some ["\u00e9.css"] := by decide +kernel
  obtain ⟨places, loaded, same⟩ := Option.map_eq_some_iff.mp linked
  exact ⟨places, loaded, same, by decide +kernel⟩

end StyleSieve.Usage
