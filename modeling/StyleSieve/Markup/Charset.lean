import StyleSieve.Markup.Token
import StyleSieve.Text.Encoding

/-!
# The encoding of markup

Markup whose encoding is not told may tell it itself: by a mark in front, or by
a declaration that precedes the first character outside ASCII.  Failing that,
what follows is searched for words that look like a declaration.
-/

namespace StyleSieve.Markup

open Text (Encoding)

/-- The text after the first place where a word stands, in any case. -/
def afterWord? (word : String) : List Char → Option (List Char)
  | [] => none
  | c :: rest =>
      if startsWith word (c :: rest) then some ((c :: rest).drop word.length)
      else afterWord? word rest

/-- The encoding that a declaration of a content type names. -/
def charsetOfContent? (content : List Char) : Option Encoding := do
  let after ← afterWord? "charset" content
  match after.dropWhile isSpace with
  | '=' :: name => Encoding.ofName? (String.ofList (name.dropWhile isSpace))
  | _ => none

/-- The value of an attribute as it is spelled in a tag. -/
def spelledValue? (attributes : List SpelledAttribute) (name : String) : Option (List Char) :=
  (attributes.find? (·.1 == name.toList)).bind (·.2)

/-- The encoding that a tag declares. -/
def charsetOfTag? : Token → Option Encoding
  | .startTag name attributes _ =>
      if name != "meta".toList then none
      else
        match (spelledValue? attributes "charset").bind fun value =>
            Encoding.ofName? (String.ofList (value.dropWhile isSpace)) with
        | some encoding => some encoding
        | none =>
            let declares := (spelledValue? attributes "http-equiv").any fun value =>
              Css.lowerAscii value == "content-type".toList
            if declares then (spelledValue? attributes "content").bind charsetOfContent? else none
  | _ => none

/-- Whether a character may stand in the name of an encoding. -/
def isCharsetChar (c : Char) : Bool :=
  c.isAlphanum || c == '-' || c == '_' || c == ':' || c == '/'

/-- The encoding that words in a text seem to declare. -/
def charsetInWords? (text : List Char) : Option Encoding := do
  let afterKind ← afterWord? "http-equiv" text
  let afterContent ← afterWord? "content" afterKind
  let name ← afterWord? "charset=" afterContent
  Encoding.ofName? (String.ofList (name.takeWhile isCharsetChar))

/-- The encoding in which markup is read if it is not told. -/
def guessEncoding (source : String) : Encoding :=
  let text := source.toList
  let plain := text.takeWhile (·.toNat < 0x80)
  if text.head? == some '\uFEFF' then .utf8
  else
    match (tokensOf (unifyNewlines plain)).findSome? charsetOfTag? with
    | some encoding => encoding
    | none => (charsetInWords? (text.drop plain.length)).getD .latin1

/-- The text of markup that is given in UTF-8 when its encoding is not told. -/
def readGuessing (source : String) : String :=
  if source.toList.all (·.toNat < 0x80) then source
  else (guessEncoding source).decode (Text.encodeUtf8 source)

end StyleSieve.Markup
