/-
  Characters that join or keep apart.

  Two invisible characters ask for the letters around them to be joined (U+200D)
  or kept apart (U+200C).  In a host name they may stand only where they change
  what is seen: behind a mark that joins consonants, or, for the one that keeps
  apart, between letters that would be joined.

  * `Joining.of?` is how a letter of a cursive script joins its neighbours;
  * `Joining.allows` holds of a label in which these characters stand only there.
-/
import IndentedSass.Host.Mark

namespace IndentedSass

/-- The sides on which a letter joins its neighbours. -/
inductive Joining where
  /-- Both sides. -/
  | dual
  /-- The side of the letter that follows it. -/
  | left
  /-- The side of the letter before it. -/
  | right
  deriving DecidableEq, Repr

namespace Joining

/-- The letters of cursive scripts. -/
def table : List (Joining × List (Nat × Nat)) := Ranges.readClasses
   [(.dual, "620 626 628 62A-62E 633-63F 641-647 649-64A 66E-66F 679-687 69A-6BF"),
    (.dual, "6C1-6C2 6CC 6CE 6D0-6D1 6FA-6FC 6FF 712-714 71A-71D 71F-727 729 72B"),
    (.dual, "72D-72E 74E-758 75C-76A 76D-770 772 775-777 77A-77F 7CA-7EA 841-845 848"),
    (.dual, "84A-853 855 860 862-865 868 886 889-88D 88F 8A0-8A9 8AF-8B0 8B3-8B8"),
    (.dual, "8BA-8C8 1807 1820-1878 1887-18A8 18AA A840-A871 10AC0-10AC4 10AD3-10AD6"),
    (.dual, "10AD8-10ADC 10ADE-10AE0 10AEB-10AEE 10B80 10B82 10B86-10B88 10B8A-10B8B"),
    (.dual, "10B8D 10B90 10BAD-10BAE 10D01-10D21 10D23 10EC3-10EC4 10EC6-10EC7"),
    (.dual, "10F30-10F32 10F34-10F44 10F51-10F53 10F70-10F73 10F76-10F81 10FB0"),
    (.dual, "10FB2-10FB3 10FB8 10FBB-10FBC 10FBE-10FBF 10FC1 10FC4 10FCA 1E922-1E943"),
    (.left, "A872 10ACD 10AD7 10D00 10FCB"),
    (.right, "622-625 627 629 62F-632 648 671-673 688-699 6C0 6C3-6CB 6CD 6CF 6D2-6D3"),
    (.right, "6D5 6EE-6EF 710 715-719 71E 728 72A 72C 72F 74D 759-75B 76B-76C 771"),
    (.right, "773-774 778-779 840 846-847 849 854 856-858 867 869-882 88E 8AA-8AC 8AE"),
    (.right, "8B1-8B2 8B9 10AC5 10AC7 10AC9-10ACA 10ACE-10AD2 10ADD 10AE1 10AE4 10AEF"),
    (.right, "10B81 10B83-10B85 10B89 10B8C 10B8E-10B8F 10B91 10BA9-10BAC 10D22 10EC2"),
    (.right, "10F33 10F54 10F74-10F75 10FB4-10FB6 10FB9-10FBA 10FBD 10FC2-10FC3 10FC9")]

/-- How a letter joins its neighbours. -/
def of? (c : Char) : Option Joining := Ranges.class? table c

/-- Whether letters join over a character as if it were not there. -/
def isTransparent (c : Char) : Bool :=
  c.toNat == 0x1E94B || ((Mark.of? c).map fun m => !m.isSpacing).getD false

/-- The first letter of a text that does not let its neighbours join over it. -/
def neighbour? (t : Text) : Option Joining := (t.find? fun c => !isTransparent c).bind of?

/-- The class of the marks that join consonants. -/
def viramaOrder : Nat := 9

/-- Whether the text behind `before`, which is given from its end, may go on with
    `c` and `rest`. -/
def allowsAt (before : Text) (c : Char) (rest : Text) : Bool :=
  if c == '\u200c' || c == '\u200d' then
    (before.head?.map fun b => Mark.orderOf b == viramaOrder).getD false ||
      (c == '\u200c' &&
        [some dual, some left].contains (neighbour? before) &&
        [some dual, some right].contains (neighbour? rest))
  else true

/-- Whether the text behind `before` has joining characters only where they may
    stand. -/
def allowsFrom (before : Text) : Text → Bool
  | [] => true
  | c :: rest => allowsAt before c rest && allowsFrom (c :: before) rest

/-- Whether a label has joining characters only where they may stand. -/
def allows (label : Text) : Bool := allowsFrom [] label

end Joining

end IndentedSass
