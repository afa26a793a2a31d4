/-
  Combining marks.

  A mark combines with the character before it.  Marks of different classes
  combine independently of each other, so that their order does not matter.

  * `Mark.of?` is the mark that a character is, among the characters that a host
    name can have;
  * `Mark.orderOf` is the place of a character in the standard order of the marks
    behind a character, 0 for one that keeps its place.

  A line of a table gives a class and the ranges of its marks.
-/
import IndentedSass.Text.Ranges

namespace IndentedSass

/-- A combining mark. -/
structure Mark where
  /-- Its class: marks of one class keep their order. -/
  order : Nat
  /-- Whether it takes space of its own. -/
  isSpacing : Bool
  deriving DecidableEq, Repr

namespace Mark

/-- The marks that take no space. -/
def nonspacing : List (Nat × List (Nat × Nat)) := Ranges.readClasses
   [(0, "488-489 7A6-7B0 900-902 93A 941-948 955-957 962-963 981 9C1-9C4 9E2-9E3 A01-A02"),
    (0, "A41-A4C A51 A70-A71 A75 A81-A82 AC1-AC8 AE2-AE3 AFA-B01 B3F B41-B44 B55-B56"),
    (0, "B62-B63 B82 BC0 C00 C04 C3E-C40 C46-C4C C62-C63 C81 CBF CC6 CCC CE2-CE3 D00-D01"),
    (0, "D41-D44 D62-D63 D81 DD2-DD6 E31 E34-E37 E47 E4C-E4E EB1 EB4-EB7 EBB-EBC ECC-ECE"),
    (0, "F7E F8D-FBC 102D-1030 1032-1036 103D-103E 1058-1059 105E-1060 1071-1074 1082"),
    (0, "1085-1086 109D 1712-1713 1732-1733 1752-1753 1772-1773 17B7-17BD 17C6 17C9-17D1"),
    (0, "17D3 1885-1886 1920-1922 1927-1928 1932 1A1B 1A56 1A58-1A5E 1A62 1A65-1A6C"),
    (0, "1A73-1A74 1ABE 1B00-1B03 1B36-1B3A 1B3C 1B42 1B80-1B81 1BA2-1BA5 1BA8-1BA9"),
    (0, "1BAC-1BAD 1BE8-1BE9 1BED 1BEF-1BF1 1C2C-1C33 1C36 20DD-20E0 20E2-20E4 A670-A672"),
    (0, "A802 A80B A825-A826 A8C5 A8FF A926-A92A A947-A951 A980-A982 A9B6-A9B9 A9BC-A9BD"),
    (0, "A9E5 AA29-AA2E AA31-AA32 AA35-AA36 AA43 AA4C AA7C AAEC-AAED ABE5 ABE8 10A01-10A0C"),
    (0, "10A0E 10EFC 11001 11038-11045 11073-11074 11080-11081 110B3-110B6 110C2"),
    (0, "11127-1112B 1112D-11132 11180-11181 111B6-111BE 111C9 111CB-111CC 111CF"),
    (0, "1122F-11231 11234 11237 1123E 11241 112DF 112E3-112E8 11300-11301 11340"),
    (0, "113BB-113C0 113D2 113E1-113E2 11438-1143F 11443-11444 114B3-114B8 114BA"),
    (0, "114BF-114C0 115B2-115B5 115BC-115BD 115DC-115DD 11633-1163A 1163D 11640 116AB"),
    (0, "116AD 116B0-116B5 1171D 1171F 11722-11725 11727-1172A 1182F-11837 1193B-1193C"),
    (0, "119D4-119DB 11A01-11A0A 11A33 11A35-11A38 11A3B-11A3E 11A51-11A56 11A59-11A5B"),
    (0, "11A8A-11A96 11A98 11B60 11B62-11B64 11B66 11C30-11C3D 11C92-11CA7 11CAA-11CB0"),
    (0, "11CB2-11CB3 11CB5-11CB6 11D31-11D41 11D43 11D47 11D90-11D91 11D95 11EF3-11EF4"),
    (0, "11F00-11F01 11F36-11F3A 11F40 11F5A 13440 13447-13455 1611E-16129 1612D-1612E"),
    (0, "16F4F 16F8F-16F92 16FE4 1BC9D 1CF00-1CF46 1DA00-1DA36 1DA3B-1DA6C 1DA75 1DA84"),
    (0, "1DA9B-1DAAF"),
    (1, "334-338 1CD4 1CE2-1CE8 20D2-20D3 20D8-20DA 20E5-20E6 20EA-20EB 10A39 16AF0-16AF4"),
    (1, "1BC9E 1D167-1D169"),
    (7, "93C 9BC A3C ABC B3C C3C CBC 1037 1B34 1BE6 1C37 A9B3 110BA 11173 111CA 11236 112E9"),
    (7, "1133B-1133C 11446 114C3 115C0 116B7 1183A 11943 11D42 1E94A"),
    (8, "3099-309A"),
    (9, "94D 9CD A4D ACD B4D BCD C4D CCD D3B-D3C D4D DCA E3A EBA F84 1039-103A 1714 17D2"),
    (9, "1A60 1BAB 2D7F A806 A82C A8C4 AAF6 ABED 10A3F 11046 11070 1107F 110B9 11133-11134"),
    (9, "112EA 113CE 113D0 11442 114C2 115BF 1163F 1172B 11839 1193E 119E0 11A34 11A47"),
    (9, "11A99 11C3F 11D44-11D45 11D97 11F42 1612F"),
    (10, "5B0"),
    (11, "5B1"),
    (12, "5B2"),
    (13, "5B3"),
    (14, "5B4"),
    (15, "5B5"),
    (16, "5B6"),
    (17, "5B7"),
    (18, "5B8 5C7"),
    (19, "5B9-5BA"),
    (20, "5BB"),
    (21, "5BC"),
    (22, "5BD"),
    (23, "5BF"),
    (24, "5C1"),
    (25, "5C2"),
    (26, "FB1E"),
    (27, "64B 8F0"),
    (28, "64C 8F1"),
    (29, "64D 8F2"),
    (30, "618 64E"),
    (31, "619 64F"),
    (32, "61A 650"),
    (33, "651"),
    (34, "652"),
    (35, "670"),
    (36, "711"),
    (84, "C55"),
    (91, "C56"),
    (103, "E38-E39"),
    (107, "E48-E4B"),
    (118, "EB8-EB9"),
    (122, "EC8-ECB"),
    (129, "F71"),
    (130, "F72 F7A-F7D F80"),
    (132, "F74"),
    (202, "321-322 327-328 1DD0"),
    (214, "1DCE"),
    (216, "31B F39"),
    (218, "1DFA 302A"),
    (220, "316-319 31C-320 323-326 329-333 339-33C 347-349 34D-34E 353-356 359-35A 591 596"),
    (220, "59B 5A2-5A7 5AA 5C5 655-656 65C 65F 6E3 6EA 6ED 731 734 737-739 73B-73C 73E 742"),
    (220, "744 746 748 7F2 7FD 859-85B 899-89B 8CF-8D3 8E3 8E6 8E9 8ED-8EF 8F6 8F9-8FA 952"),
    (220, "F18-F19 F35 F37 FC6 108D 193B 1A18 1A7F 1AB5-1ABA 1ABD 1ABF-1AC0 1AC3-1AC4 1ACA"),
    (220, "1ADD 1AE6 1B6C 1CD5-1CD9 1CDC-1CDF 1CED 1DC2 1DCA 1DCF 1DF9 1DFD 1DFF 20E8"),
    (220, "20EC-20EF A92B-A92D AAB4 FE27-FE2D 101FD 102E0 10A0D 10A3A 10AE6 10EFA-10EFB"),
    (220, "10EFD-10EFF 10F46-10F47 10F4B 10F4D-10F50 10F83 10F85 1D17B-1D182 1D18A-1D18B"),
    (220, "1E4EE 1E5EF 1E8D0-1E8D6"),
    (222, "59A 5AD 1939 302D"),
    (228, "5AE 18A9 1DF7-1DF8 302B"),
    (230, "300-314 33D-346 34A-34C 350-352 357 35B 363-36F 483-487 592-595 597-599 59C-5A1"),
    (230, "5A8-5A9 5AB-5AC 5AF 5C4 610-617 653-654 657-65B 65D-65E 6D6-6DC 6DF-6E2 6E4"),
    (230, "6E7-6E8 6EB-6EC 730 732-733 735-736 73A 73D 73F-741 743 745 747 749-74A 7EB-7F1"),
    (230, "7F3 816-819 81B-823 825-827 829-82D 897-898 89C-89F 8CA-8CE 8D4-8E1 8E4-8E5"),
    (230, "8E7-8E8 8EA-8EC 8F3-8F5 8F7-8F8 8FB-8FF 951 953-954 9FE F82-F83 F86-F87 135D-135F"),
    (230, "17DD 193A 1A17 1A75-1A7C 1AB0-1AB4 1ABB-1ABC 1AC1-1AC2 1AC5-1AC9 1ACB-1ADC"),
    (230, "1AE0-1AE5 1AE7-1AEA 1B6B 1B6D-1B73 1CD0-1CD2 1CDA-1CDB 1CE0 1CF4 1CF8-1CF9"),
    (230, "1DC0-1DC1 1DC3-1DC9 1DCB-1DCC 1DD1-1DF5 1DFB 1DFE 20D0-20D1 20D4-20D7 20DB-20DC"),
    (230, "20E1 20E7 20E9 20F0 2CEF-2CF1 2DE0-2DFF A66F A674-A67D A69E-A69F A6F0-A6F1"),
    (230, "A8E0-A8F1 AAB0 AAB2-AAB3 AAB7-AAB8 AABE-AABF AAC1 FE20-FE26 FE2E-FE2F 10376-1037A"),
    (230, "10A0F 10A38 10AE5 10D24-10D27 10D69-10D6D 10EAB-10EAC 10F48-10F4A 10F4C 10F82"),
    (230, "10F84 11100-11102 11366-11374 1145E 16B30-16B36 1D185-1D189 1D1AA-1D1AD"),
    (230, "1D242-1D244 1E000-1E08F 1E130-1E136 1E2AE 1E2EC-1E2EF 1E4EF 1E5EE 1E6E3 1E6E6"),
    (230, "1E6EE-1E6EF 1E6F5 1E944-1E949"),
    (232, "315 31A 358 1DF6 302C 1E4EC-1E4ED"),
    (233, "35C 35F 362 1DFC"),
    (234, "35D-35E 360-361 1AEB 1DCD")]

/-- The marks that take space. -/
def spacing : List (Nat × List (Nat × Nat)) := Ranges.readClasses
   [(0, "903 93B 93E-940 949-94C 94E-94F 982-983 9BE-9C0 9C7-9CC 9D7 A03 A3E-A40 A83"),
    (0, "ABE-AC0 AC9-ACC B02-B03 B3E B40 B47-B4C B57 BBE-BBF BC1-BCC BD7 C01-C03 C41-C44"),
    (0, "C82-C83 CBE CC0-CC4 CC7-CCB CD5-CD6 CF3 D02-D03 D3E-D40 D46-D4C D57 D82-D83"),
    (0, "DCF-DD1 DD8-DDF DF2-DF3 F3E-F3F F7F 102B-102C 1031 1038 103B-103C 1056-1057"),
    (0, "1062-1064 1067-106D 1083-1084 1087-108C 108F 109A-109C 17B6 17BE-17C5 17C7-17C8"),
    (0, "1923-1926 1929-1931 1933-1938 1A19-1A1A 1A55 1A57 1A61 1A63-1A64 1A6D-1A72 1B04"),
    (0, "1B35 1B3B 1B3D-1B41 1B43 1B82 1BA1 1BA6-1BA7 1BE7 1BEA-1BEC 1BEE 1C24-1C2B"),
    (0, "1C34-1C35 1CE1 1CF7 A823-A824 A827 A880-A881 A8B4-A8C3 A952 A983 A9B4-A9B5"),
    (0, "A9BA-A9BB A9BE-A9BF AA2F-AA30 AA33-AA34 AA4D AA7B AA7D AAEB AAEE-AAEF AAF5"),
    (0, "ABE3-ABE4 ABE6-ABE7 ABE9-ABEA ABEC 11000 11002 11082 110B0-110B2 110B7-110B8 1112C"),
    (0, "11145-11146 11182 111B3-111B5 111BF 111CE 1122C-1122E 11232-11233 112E0-112E2"),
    (0, "11302-11303 1133E-1133F 11341-1134C 11357 11362-11363 113B8-113BA 113C2-113CD"),
    (0, "11435-11437 11440-11441 11445 114B0-114B2 114B9 114BB-114BE 114C1 115AF-115B1"),
    (0, "115B8-115BB 115BE 11630-11632 1163B-1163C 1163E 116AC 116AE-116AF 1171E"),
    (0, "11720-11721 11726 1182C-1182E 11838 11930-11938 11940 11942 119D1-119D3"),
    (0, "119DC-119DF 119E4 11A39 11A57-11A58 11A97 11B61 11B65 11B67 11C2F 11C3E 11CA9"),
    (0, "11CB1 11CB4 11D8A-11D8E 11D93-11D94 11D96 11EF5-11EF6 11F03 11F34-11F35"),
    (0, "11F3E-11F3F 1612A-1612C 16F51-16F87"),
    (6, "16FF0-16FF1"),
    (9, "1715 1734 1B44 1BAA 1BF2-1BF3 A953 A9C0 111C0 11235 1134D 113CF 116B6 1193D 11F41"),
    (216, "1D165-1D166 1D16E-1D172"),
    (224, "302E-302F"),
    (226, "1D16D")]

/-- The mark that a character is. -/
def of? (c : Char) : Option Mark :=
  if c.toNat < 128 then none
  else match Ranges.class? nonspacing c with
    | some n => some ⟨n, false⟩
    | none => (Ranges.class? spacing c).map (⟨·, true⟩)

/-- The place of a character in the standard order of marks. -/
def orderOf (c : Char) : Nat := ((of? c).map order).getD 0

end Mark

end IndentedSass
