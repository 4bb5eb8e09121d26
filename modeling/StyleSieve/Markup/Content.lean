/-!
# What elements may contain

Some start tags end elements that are still open, some elements are empty, and
an end tag does not reach past elements of a higher rank.
-/

namespace StyleSieve.Markup

/-- The elements that never have content. -/
def voidElements : List String :=
  ["area", "base", "basefont", "br", "col", "frame", "hr", "img", "input", "isindex", "link",
   "meta", "param"]

/-- The start tags that end a paragraph or a preformatted list. -/
def endsHeading : List String := ["fieldset", "form", "li", "p", "table"]

/-- The start tags that end an element with the given name. -/
def enders (tag : String) : List String :=
  match tag with
  | "a" => ["a", "fieldset", "table", "td", "th"]
  | "address" => ["dd", "dl", "dt", "form", "li", "ul"]
  | "b" => ["center", "p", "td", "th"]
  | "big" => ["p"]
  | "caption" => ["col", "colgroup", "tbody", "tfoot", "thead", "tr"]
  | "col" => ["col", "colgroup", "tbody", "tfoot", "thead", "tr"]
  | "colgroup" => ["colgroup", "tbody", "tfoot", "thead", "tr"]
  | "dd" => ["dt"]
  | "dir" => ["dd", "dl", "dt", "form", "ul"]
  | "dl" => ["form", "li"]
  | "dt" => ["dd", "dl"]
  | "font" => ["center", "td", "th"]
  | "form" => ["form"]
  | "h1" | "h2" | "h3" | "h4" | "h5" | "h6" => endsHeading
  | "head" =>
      ["a", "abbr", "acronym", "address", "b", "bdo", "big", "blockquote", "body", "br",
       "center", "cite", "code", "dd", "dfn", "dir", "div", "dl", "dt", "em", "fieldset",
       "font", "form", "frameset", "h1", "h2", "h3", "h4", "h5", "h6", "hr", "i", "iframe",
       "img", "kbd", "li", "listing", "map", "menu", "ol", "p", "pre", "q", "s", "samp",
       "small", "span", "strike", "strong", "sub", "sup", "table", "tt", "u", "ul", "var", "xmp"]
  | "hr" => ["form"]
  | "i" => ["center"]
  | "li" => ["li"]
  | "legend" => ["fieldset"]
  | "link" => ["body", "frameset"]
  | "listing" => ["dd", "dl", "dt", "fieldset", "form", "li", "table", "ul"]
  | "menu" => ["dd", "dl", "dt", "form", "ul"]
  | "ol" => ["form"]
  | "option" => ["optgroup", "option"]
  | "p" =>
      ["address", "blockquote", "body", "caption", "center", "col", "colgroup", "dd", "dir",
       "div", "dl", "dt", "frameset", "h1", "h2", "h3", "h4", "h5", "h6", "head", "hr", "li",
       "listing", "menu", "ol", "p", "pre", "table", "tbody", "td", "tfoot", "th", "title", "tr",
       "ul", "xmp"]
  | "pre" => ["dd", "dl", "dt", "fieldset", "form", "li", "table", "ul"]
  | "s" | "small" | "strike" | "tt" => ["p"]
  | "script" => ["noscript"]
  | "span" => ["td", "th"]
  | "style" | "title" => ["body", "frameset"]
  | "tbody" => ["tbody", "tfoot"]
  | "td" => ["tbody", "td", "tfoot", "th", "tr"]
  | "tfoot" => ["tbody"]
  | "th" => ["tbody", "td", "tfoot", "th", "tr"]
  | "thead" => ["tbody", "tfoot"]
  | "tr" => ["tbody", "tfoot", "tr"]
  | "u" => ["p", "td", "th"]
  | "ul" => ["address", "form", "menu", "pre"]
  | "xmp" => ["dd", "dl", "dt", "fieldset", "form", "li", "table", "ul"]
  | _ => []

/-- The rank of an element: an end tag of lower rank does not reach past it. -/
def rank (tag : String) : Nat :=
  match tag with
  | "div" => 150
  | "td" | "th" => 160
  | "tr" => 170
  | "thead" | "tbody" | "tfoot" => 180
  | "table" => 190
  | "head" | "body" => 200
  | "html" => 220
  | _ => 100

/-- The elements that belong to the head of a document. -/
def headElements : List String :=
  ["script", "style", "meta", "link", "title", "base"]

/-- The elements that take the place of a body. -/
def frameElements : List String :=
  ["noframes", "frame", "frameset"]

/-- The attributes that, without a value, have their own name as value. -/
def switchAttributes : List String :=
  ["checked", "compact", "declare", "defer", "disabled", "ismap", "multiple", "nohref",
   "noresize", "noshade", "nowrap", "readonly", "selected"]

end StyleSieve.Markup
