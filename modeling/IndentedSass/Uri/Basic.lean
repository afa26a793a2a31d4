/-
  URIs of documents.

  A URI is held in its normal form: the scheme in lower case, the path without
  `.` and `..` segments where it was read from text, everything that may not
  stand for itself in percent form.  Two URIs are the same document exactly when
  they are equal.  `Uri.text` writes a URI.
-/
import IndentedSass.Host

namespace IndentedSass

/-- What stands between `//` and the path of a URI. -/
structure Authority where
  /-- The user name and password, in percent form and with a colon between them;
      empty for none. -/
  user : Text
  /-- The host; empty for none. -/
  host : Text
  /-- The number behind the host's colon. -/
  number : Option Nat
  deriving DecidableEq, Repr

namespace Authority

/-- The authority that is only a host. -/
def ofHost (host : Text) : Authority := ⟨[], host, none⟩

/-- The authority as text. -/
def text (a : Authority) : Text :=
  (if a.user = [] then [] else a.user ++ ['@']) ++ a.host ++
    match a.number with
    | some n => ':' :: (toString n).toList
    | none => []

end Authority

/-- A URI in normal form. -/
structure Uri where
  /-- What stands before the first colon. -/
  scheme : Text
  /-- What stands between `//` and the path, when there is a `//`. -/
  authority : Option Authority
  /-- The path, in percent form. -/
  path : Text
  /-- What follows `?`. -/
  query : Option Text
  /-- What follows `#`. -/
  fragment : Option Text
  deriving DecidableEq, Repr

/-- Why a text is no URI. -/
inductive UriError where
  /-- There is no scheme. -/
  | relative
  /-- What stands in the place of the host is none. -/
  | host (e : HostError)
  /-- Behind the colon of a host stands no 16-bit number. -/
  | invalidPort
  deriving DecidableEq, Repr

namespace UriError

/-- The wording of an error. -/
def message : UriError → String
  | relative => "relative URL without a base"
  | host e => e.message
  | invalidPort => "invalid port number"

end UriError

namespace Uri

/-- What stands between the colon of the scheme and the path.  Without an
    authority a path that starts with two slashes is set off by `/.`, since what
    follows two slashes would be read as an authority. -/
def beforePath (u : Uri) : Text :=
  match u.authority with
  | some a => '/' :: '/' :: a.text
  | none => if Text.startsWith u.path ['/', '/'] then ['/', '.'] else []

/-- The URI as text. -/
def text (u : Uri) : Text :=
  let mark (sign : Char) : Option Text → Text
    | some t => sign :: t
    | none => []
  u.scheme ++ ':' :: u.beforePath ++ u.path ++ mark '?' u.query ++ mark '#' u.fragment

/-- The URI as a string. -/
def string (u : Uri) : String := u.text.string

/-- The host of a URI; empty for none. -/
def host (u : Uri) : Text := (u.authority.map Authority.host).getD []

/-! ## Characters that stand for themselves -/

/-- A printable ASCII character, the space included. -/
def isPrintable (c : Char) : Bool := ' ' ≤ c && c ≤ '~'

/-- A character that is written as it is in a path. -/
def isPathChar (c : Char) : Bool := isPrintable c && !" \"#<>?`\x7b\x7d".toList.contains c

/-- A character that is written as it is in a file name: no character of a path
    that has a meaning of its own there. -/
def isFileNameChar (c : Char) : Bool := isPathChar c && !"/%\\".toList.contains c

/-- A character that is written as it is in a query. -/
def isQueryChar (special : Bool) (c : Char) : Bool :=
  isPrintable c && !" \"#<>".toList.contains c && !(special && c == '\'')

/-- A character that is written as it is in a fragment. -/
def isFragmentChar (c : Char) : Bool := isPrintable c && !" \"<>`".toList.contains c

/-- A character that is written as it is in a user name or password. -/
def isUserChar (c : Char) : Bool := isPathChar c && !"/:;=@[\\]^|".toList.contains c

end Uri

end IndentedSass
