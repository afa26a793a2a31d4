/-
  The words that tell selectors from declarations.

  A line such as `a:hover` looks like a declaration; it is a selector because
  `a` is an element name and `hover` a pseudo class.

  * `elementNames` are the element names that can start a type selector;
  * `pseudoNames` are the pseudo classes and pseudo elements that may follow
    one.
-/
import IndentedSass.Text.Basic

namespace IndentedSass.Line

/-- The element names recognized as type selectors. -/
def elementNames : List String :=
  ["a", "abbr", "address", "area", "article", "aside", "audio", "b", "base", "bdi", "bdo",
   "blockquote", "body", "br", "button", "canvas", "caption", "cite", "code", "col",
   "colgroup", "data", "datalist", "dd", "del", "details", "dfn", "dialog", "div", "dl", "dt",
   "em", "embed", "fieldset", "figcaption", "figure", "footer", "form", "h1", "h2", "h3", "h4",
   "h5", "h6", "head", "header", "hgroup", "hr", "html", "i", "iframe", "img", "input", "ins",
   "kbd", "keygen", "label", "legend", "li", "link", "main", "map", "mark", "menu", "menuitem",
   "meta", "meter", "nav", "noscript", "object", "ol", "optgroup", "option", "output", "p",
   "param", "picture", "pre", "progress", "q", "rb", "rp", "rt", "rtc", "ruby", "s", "samp",
   "script", "section", "select", "small", "source", "span", "strong", "style", "sub",
   "summary", "sup", "svg", "table", "tbody", "td", "template", "textarea", "tfoot", "th",
   "thead", "time", "title", "tr", "track", "u", "ul", "var", "video", "wbr"]

/-- The pseudo classes and pseudo elements that may follow an element name. -/
def pseudoNames : List String :=
  ["active", "after", "before", "checked", "default", "disabled", "empty", "enabled", "first",
   "first-child", "first-letter", "first-line", "first-of-type", "focus", "focus-visible",
   "focus-within", "hover", "in-range", "indeterminate", "invalid", "is", "lang", "last-child",
   "last-of-type", "link", "marker", "not", "nth-child", "nth-last-child", "nth-last-of-type",
   "nth-of-type", "only-child", "only-of-type", "optional", "out-of-range", "placeholder",
   "read-only", "read-write", "required", "root", "selection", "target", "valid", "visited",
   "where", "has"]

/-- Whether a text is the name of an element. -/
def isElementName (t : Text) : Bool := elementNames.contains t.string

/-- Whether a text is the name of a pseudo class or pseudo element. -/
def isPseudoName (t : Text) : Bool := pseudoNames.contains t.string

end IndentedSass.Line
