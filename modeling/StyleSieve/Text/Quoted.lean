import StyleSieve.Text.Printable
import StyleSieve.Text.Surrogate

/-!
# Quoted texts

In a message a text stands between quotes, on one line and in printable
characters only.  The quotes are single unless the text holds single quotes and
no double ones.
-/

namespace StyleSieve.Text

/-- The quote that a text is set in. -/
def quoteOf (text : List Char) : Char :=
  if text.contains '\'' && !text.contains '"' then '"' else '\''

/-- A character between quotes of a given kind. -/
def quoteChar (quote c : Char) : List Char :=
  if c == quote || c == '\\' then ['\\', c]
  else if c == '\t' then ['\\', 't']
  else if c == '\n' then ['\\', 'n']
  else if c == '\r' then ['\\', 'r']
  else if isPrintable c then [c]
  else if codePoint c < 0x100 then '\\' :: 'x' :: paddedHex 2 (codePoint c)
  else if codePoint c < 0x10000 then '\\' :: 'u' :: paddedHex 4 (codePoint c)
  else '\\' :: 'U' :: paddedHex 8 (codePoint c)

/-- A text between quotes. -/
def quoteChars (text : List Char) : List Char :=
  quoteOf text :: (text.flatMap (quoteChar (quoteOf text)) ++ [quoteOf text])

/-- A string between quotes. -/
def quoted (text : String) : String :=
  String.ofList (quoteChars text.toList)

end StyleSieve.Text
