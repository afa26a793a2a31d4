/-
  How a line begins.

  A line of the indented syntax is told apart by what follows its indentation:
  a sigil, a keyword, an element name, or a name and a colon.  Each predicate
  here looks at that beginning only.

  * `isVariable` and `isProperty` recognize declarations; `variableName?` and
    `plainName?` return the name and what follows the colon;
  * `isUse`, `isImport`, `isMixin`, … recognize at-rules, by a keyword that is
    not part of a longer word (`hasKeyword`);
  * `isSelector` recognizes block headers: sigils, element names, keyframe
    points and the remaining at-rules;
  * `isResetMark`, `isIgnoreMark` and `isSpaceMark` recognize the comments that
    steer the formatter;
  * `spaceAfterColon` puts the one space that may be missing after the colon of
    a declaration.
-/
import IndentedSass.Line.Vocabulary
import IndentedSass.Text.Blank
import IndentedSass.Text.Word

namespace IndentedSass.Line

/-! ## Words and sigils -/

/-- Whether the text starts with the word `w` and the word ends there. -/
def startsWithWord (w : String) (t : Text) : Bool :=
  match Text.dropPrefix? w.toList t with
  | some rest => rest.atWordEnd
  | none => false

/-- Whether the line starts, after its indentation, with the word `w`. -/
def hasKeyword (w : String) (line : Text) : Bool := startsWithWord w line.body

/-- Whether the line starts with `@` and one of the words. -/
def hasAtRule (words : List String) (line : Text) : Bool :=
  match line.body with
  | '@' :: rest => words.any fun w => startsWithWord w rest
  | _ => false

/-- Whether the first character after the indentation satisfies `p`. -/
def headIs (p : Char → Bool) (line : Text) : Bool :=
  match line.body with
  | c :: _ => p c
  | [] => false

/-! ## Blank lines and comments -/

/-- A line of white space only. -/
def isBlankLine (line : Text) : Bool := line.isAllWhite

/-- `// comment` -/
def isLineComment (line : Text) : Bool := line.body.startsWith ['/', '/']

/-- `/* comment` -/
def opensBlockComment (line : Text) : Bool := line.body.startsWith ['/', '*']

/-- Either form of comment. -/
def isComment (line : Text) : Bool := isLineComment line || opensBlockComment line

/-- Whether the text holds the end of a block comment. -/
def closesBlockComment (t : Text) : Bool := t.has ['*', '/']

/-- Whether the block comment that the line opens is still open at its end. -/
def leavesCommentOpen (line : Text) : Bool :=
  !closesBlockComment ((line.after? ['/', '*']).getD [])

/-! ## Declarations -/

/-- A name of at least one character, then blanks and a colon: the name and
    what follows the colon. -/
def nameAndColon? (t : Text) : Option (Text × Text) :=
  match t.takeWhile isNameChar, Text.body (t.dropWhile isNameChar) with
  | c :: name, ':' :: rest => some (c :: name, rest)
  | _, _ => none

/-- `name:` at the start of a line. -/
def plainName? (line : Text) : Option (Text × Text) := nameAndColon? line.body

/-- `$name:` or `--name:` at the start of a line. -/
def variableName? (line : Text) : Option (Text × Text) :=
  match line.body with
  | '$' :: rest => (nameAndColon? rest).map fun (name, value) => ('$' :: name, value)
  | '-' :: '-' :: rest => (nameAndColon? rest).map fun (name, value) => ('-' :: '-' :: name, value)
  | _ => none

/-- `$name:` or `--name:` -/
def isVariable (line : Text) : Bool := (variableName? line).isSome

/-- Whether `name:` and what follows it are an element with a pseudo class or
    pseudo element (`a:hover`, `a::before`), not a declaration. -/
def isElementWithPseudo (name afterColon : Text) : Bool :=
  isElementName name &&
    match afterColon with
    | ':' :: _ => true
    | _ => isPseudoName (afterColon.takeWhile fun c => c.isAlphanum || c == '-')

/-- `name:` where the name is no custom property (`--name`) and the colon does
    not start a pseudo class. -/
def isProperty (line : Text) : Bool :=
  match plainName? line with
  | some (name, rest) => !name.startsWith ['-', '-'] && !isElementWithPseudo name rest
  | none => false

/-- Where a space is missing after the colon that directly follows a name: the
    line up to the colon, and the visible text after it. -/
def missingSpace? (line : Text) : Option (Text × Text) :=
  let isName (c : Char) : Bool := c == '$' || isNameChar c
  match line.body.takeWhile isName, line.body.dropWhile isName with
  | a :: name, ':' :: c :: rest =>
    if isWhite c then none else some (line.blanks ++ a :: name ++ [':'], c :: rest)
  | _, _ => none

/-- Whether the colon of a declaration is followed by white space or nothing. -/
def hasSpaceAfterColon (line : Text) : Bool := (missingSpace? line).isNone

/-- The line with the space that is missing after its colon. -/
def spaceAfterColon (line : Text) : Text :=
  match missingSpace? line with
  | some (head, value) => head ++ ' ' :: value
  | none => line

/-! ## At-rules -/

/-- `@use` -/
def isUse (line : Text) : Bool := hasAtRule ["use"] line

/-- `@import` -/
def isImport (line : Text) : Bool := hasAtRule ["import"] line

/-- `@mixin name` or `=name` -/
def isMixin (line : Text) : Bool := hasAtRule ["mixin"] line || headIs (· == '=') line

/-- `@include name` or `+name` -/
def isInclude (line : Text) : Bool :=
  hasAtRule ["include"] line ||
    match line.body with
    | '+' :: c :: _ => isNameChar c
    | _ => false

/-- `@extend selector` -/
def isExtend (line : Text) : Bool := hasAtRule ["extend"] line

/-- `@font-face` -/
def isFontFace (line : Text) : Bool := hasAtRule ["font-face"] line

/-- Any at-rule. -/
def isAtRule (line : Text) : Bool := headIs (· == '@') line

/-- `@keyframes`, also with a vendor name such as `@-moz-keyframes`. -/
def isKeyframes (line : Text) : Bool :=
  match line.body with
  | '@' :: '-' :: rest =>
    match rest.takeWhile isWord, rest.dropWhile isWord with
    | _ :: _, '-' :: more => startsWithWord "keyframes" more
    | _, _ => false
  | '@' :: rest => startsWithWord "keyframes" rest
  | _ => false

/-- An at-rule that opens a block. -/
def isBlockAtRule (line : Text) : Bool :=
  hasAtRule
    ["each", "for", "while", "media", "supports", "function", "at-root", "page", "document",
      "font-face"] line

/-- An at-rule that is a statement inside a block. -/
def isStatementAtRule (line : Text) : Bool :=
  hasAtRule ["content", "return", "debug", "warn", "error"] line

/-- `@if` or `@else` -/
def isIfOrElse (line : Text) : Bool := hasAtRule ["if", "else"] line

/-- `@else` -/
def isElse (line : Text) : Bool := hasAtRule ["else"] line

/-! ## Selectors -/

/-- A class, an id, a placeholder or an interpolation. -/
def isClassOrId (line : Text) : Bool := headIs (fun c => c == '#' || c == '.' || c == '%') line

/-- The universal selector `*`. -/
def isStar (line : Text) : Bool := headIs (· == '*') line

/-- The parent selector `&`. -/
def isParentRef (line : Text) : Bool := headIs (· == '&') line

/-- `:hover` or `::before` -/
def isPseudo (line : Text) : Bool :=
  match line.body with
  | ':' :: ':' :: c :: _ => isNameChar c
  | ':' :: c :: _ => isNameChar c
  | _ => false

/-- A character of an attribute selector, between its brackets. -/
def isAttributeChar (c : Char) : Bool := isWord c || "=-*\"'^$|~ ".toList.contains c

/-- An attribute selector such as `[type=text]`. -/
def isAttribute (line : Text) : Bool :=
  match line.body with
  | '[' :: rest => (rest.dropWhile isAttributeChar).head? == some ']'
  | _ => false

/-- A character that ends an element name in a selector. -/
def endsElement (c : Char) : Bool := "\t ,.#:[>+~)".toList.contains c

/-- A type selector such as `div`, `a:hover` or `ul li`. -/
def isElement (line : Text) : Bool := isElementName (line.body.takeWhile fun c => !endsElement c)

/-- A percentage: digits, perhaps a fraction, and `%`. -/
def startsWithPercentage (t : Text) : Bool :=
  match t.takeWhile isDigit, t.dropWhile isDigit with
  | _ :: _, '%' :: _ => true
  | _ :: _, '.' :: rest =>
    match rest.takeWhile isDigit, rest.dropWhile isDigit with
    | _ :: _, '%' :: _ => true
    | _, _ => false
  | _, _ => false

/-- A keyframe point: `from`, `to` or a percentage. -/
def isKeyframePoint (line : Text) : Bool :=
  startsWithPercentage line.body || hasKeyword "from" line || hasKeyword "to" line

/-- A sigil that starts a selector; `+` only when a blank follows it. -/
def hasSelectorSigil (line : Text) : Bool :=
  match line.body with
  | '+' :: c :: _ => isBlank c
  | c :: _ => ".#%&[*:>~".toList.contains c
  | [] => false

/-- A block header: a selector, a keyframe point or an at-rule. -/
def isSelector (line : Text) : Bool :=
  hasSelectorSigil line || isElement line || isKeyframePoint line || isAtRule line

/-! ## Marks for the formatter -/

/-- A comment of two or three slashes that holds the letter `mark` only. -/
def isMark (mark : Char) (line : Text) : Bool :=
  match line.body with
  | '/' :: '/' :: rest =>
    let text := match rest with
      | '/' :: more => more
      | _ => rest
    match Text.body text with
    | c :: more => c == mark && List.isEmpty (Text.body more)
    | [] => false
  | _ => false

/-- `// R`: the indentation of this line is the new base. -/
def isResetMark (line : Text) : Bool := isMark 'R' line

/-- `// I`: the next line is left alone. -/
def isIgnoreMark (line : Text) : Bool := isMark 'I' line

/-- `// S`: the blank lines that follow are kept. -/
def isSpaceMark (line : Text) : Bool := isMark 'S' line

end IndentedSass.Line
