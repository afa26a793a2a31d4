/-
  The direction of host names.

  A name in a script that is written from right to left can be shown in an order
  that misleads.  As soon as a host has one such character, each of its labels
  has to read in one direction.

  * `Direction.of` is the direction of a character, among those that a host name
    can have;
  * `Direction.isMixed` holds of a host with a right-to-left character, and
    `Direction.allows` of a label that reads in one direction.
-/
import IndentedSass.Host.Mark

namespace IndentedSass

/-- How a character takes part in the direction of a text. -/
inductive Direction where
  /-- Written from left to right. -/
  | left
  /-- Written from right to left. -/
  | right
  /-- A digit of a number that is shown among left-to-right text as it is. -/
  | europeanNumber
  /-- A digit of a number of a right-to-left script. -/
  | arabicNumber
  /-- A mark that takes the direction of what it stands on. -/
  | mark
  /-- Anything that takes its direction from the text around it. -/
  | neutral
  deriving DecidableEq, Repr

namespace Direction

/-- The marks without space that have a direction of their own. -/
def leftMarks : List (Nat × Nat) := Ranges.read "CBF CC6 11A07-11A08 11C3F"

/-- The characters above ASCII, marks apart, that are not written from left to
    right. -/
def table : List (Direction × List (Nat × Nat)) := Ranges.readClasses
   [(.right, "5BE-5F4 7C0-7F5 7FA-85E 10800-1091B 10920-10B35 10B40-10CFF 10D40-10D8F"),
    (.right, "10E80-10EB1 10F00-10F27 10F70-10FF6 1E800-1E95F"),
    (.right, "608 60B 60D 61B-64A 66D-6D5 6E5-6E6 6EE-6EF 6FA-7B1 860-8C9 FBB2-FBD2"),
    (.right, "FD90-FDCE FE73 10D00-10D23 10EC2-10ED8 10F30-10F59 1EC71-1ED3D"),
    (.arabicNumber, "660-669 66B-66C 10D30-10D39 10E60-10E7E"),
    (.europeanNumber, "6F0-6F9 102E1-102FB"),
    (.neutral, "A1-D7 F7 2B9-2BA 2C2-2CF 2D2-2ED 2EF-2FF 375 3F6 58A-58F 606-607 609-60A"),
    (.neutral, "60C 60E-60F 66A 6DE 6E9 7F6-7F9 9F2-9F3 9FB AF1 BF3-BFA C78-C7E E3F"),
    (.neutral, "F3A-F3D 1390-1399 1400 169B-169C 17DB 17F0-180A 1940-1945 19DE-19FF"),
    (.neutral, "200C-214D 218A-2335 237B-2394 2396-26AB 26AD-27FF 2900-2BFF 2CE5-2CEA"),
    (.neutral, "2CF9-2CFF 2E00-3004 3008-3020 3030 3037 303D-303F 30A0 30FB 31C0-31E5"),
    (.neutral, "4DC0-4DFF A490-A4C6 A60D-A60F A673-A67F A700-A721 A788 A828-A82B A838-A839"),
    (.neutral, "A874-A877 AB6A-AB6B FD3E-FD4F FDCF-FE46 10101 10140-1018C 10190-101A0"),
    (.neutral, "1091F 10B39-10B3F 11052-11065 11660-1166C 11FD5-11FF1 16FE2 1CC00-1CEF0"),
    (.neutral, "1D1E9-1D245 1D300-1D356 1E2FF 1EEF0-1F12F 1F16D-1F16F 1F1AD 1F260-1FBFA")]

/-- The direction of a character. -/
def of (c : Char) : Direction :=
  if c.toNat < 128 then
    if c.isAlpha then .left else if c.isDigit then .europeanNumber else .neutral
  else if inRanges leftMarks c.toNat then .left
  else match Mark.of? c with
    | some ⟨_, false⟩ => .mark
    | _ => (Ranges.class? table c).getD .left

/-- Whether a text has a character of a right-to-left script. -/
def isMixed (t : Text) : Bool := t.any fun c => of c == .right || of c == .arabicNumber

/-- Whether a label reads in one direction, which that of its first character
    is.  A label from left to right ends in a letter or a digit, and has no
    right-to-left character; one from right to left has no left-to-right letter,
    and not both kinds of numbers.  Marks at the end do not count. -/
def allows (label : Text) : Bool :=
  match label.map of with
  | [] => true
  | first :: rest =>
    let rest := (rest.reverse.dropWhile (· == .mark)).reverse
    let endsIn (ends : List Direction) : Bool := (rest.getLast?.map ends.contains).getD true
    match first with
    | left =>
      endsIn [left, europeanNumber] && !rest.contains right && !rest.contains arabicNumber
    | right =>
      endsIn [right, europeanNumber, arabicNumber] && !rest.contains left &&
        !(rest.contains europeanNumber && rest.contains arabicNumber)
    | _ => false

end Direction

end IndentedSass
