/-
  Diagnostics.

  A diagnostic is a problem at a range of a file.  Its code, wording and
  severity are functions of the problem, and so is whether formatting the file
  is expected to make it go away.
-/
import IndentedSass.Indent.Style
import IndentedSass.Text.Position

namespace IndentedSass

/-- What is wrong with a line. -/
inductive Problem where
  /-- `@use` after a rule. -/
  | useNotTopLevel
  /-- Indentation deeper than the open blocks allow; `level` is the deepest
      level that the line can have. -/
  | invalidIndentation (level : Nat) (style : IndentStyle)
  /-- A reference to a variable that is declared nowhere. -/
  | variableNotFound (name : Text)
  /-- A line that is nothing known. -/
  | unclassifiedLine (text : Text)
  deriving DecidableEq, Repr

/-- How bad a problem is. -/
inductive Severity where
  /-- The file is wrong. -/
  | error
  /-- The file may be wrong. -/
  | warning
  deriving DecidableEq, Repr

/-- A problem and where it is. -/
structure Diagnostic where
  /-- What is wrong. -/
  problem : Problem
  /-- The text that is to blame. -/
  range : Range
  deriving DecidableEq, Repr

namespace Severity

/-- The number of a severity, as editors count. -/
def number : Severity → Nat
  | error => 1
  | warning => 2

end Severity

namespace Problem

/-- The code of a problem. -/
def code : Problem → String
  | useNotTopLevel => "@useNotTopLevel"
  | invalidIndentation _ _ => "invalidIndentation"
  | variableNotFound _ => "variableNotFound"
  | unclassifiedLine _ => "unclassifiedLine"

/-- A number of things, in words. -/
def counted (n : Nat) (thing : String) : String :=
  toString n ++ " " ++ thing ++ (if n = 1 then "" else "s")

/-- The wording of a problem. -/
def message : Problem → String
  | useNotTopLevel =>
    "@use rules must come before any rules other than @forward, including style rules. " ++
      "However, you can declare variables before @use rules to use when configuring modules."
  | invalidIndentation level style =>
    "Invalid Indentation Expected " ++
      if style.insertSpaces then counted (level * style.tabSize % UInt64.size) "space"
      else counted level "tab"
  | variableNotFound name => "Variable declaration for " ++ name.string ++ " not found."
  | unclassifiedLine text => "Unrecognized line: " ++ text.trim.string

/-- How bad a problem is. -/
def severity : Problem → Severity
  | unclassifiedLine _ => .warning
  | _ => .error

/-- Whether formatting the file is expected to make the problem go away. -/
def isResolvedByFormatting : Problem → Bool
  | useNotTopLevel | invalidIndentation _ _ => true
  | variableNotFound _ | unclassifiedLine _ => false

end Problem

end IndentedSass
