/-
  Rules written on one line.

  A rule on one line is a header with the declarations and the rules nested in it (`RuleItem`).
  The line is cut by several scans, of which one looks for the end of a nested rule and another
  starts again inside it.  On a line that was put together from a rule they cut where it was put
  together.

  * `Passes.print`: a scan that passes over the parts of a rule passes over the rule;
  * `splitRule_print`: a rule is cut into its lines;
  * `convertBraces_print`: converting the line gives the header and the lines below it.
-/
import Mathlib
import IndentedSass.Proofs.Format.Fragments

namespace IndentedSass

/-- The text of a header or of a declaration. -/
structure RuleText where
  /-- The text. -/
  text : Text
  /-- There is one. -/
  visible : text ≠ []
  /-- No white space stands at its ends. -/
  trimmed : text.trim = text
  /-- What it opens is closed in it. -/
  fragment : Fragment text

/-- What may stand in a rule. -/
inductive RuleItem where
  /-- A declaration. -/
  | declaration (d : RuleText)
  /-- A nested rule. -/
  | rule (header : RuleText) (items : List RuleItem)

namespace RuleItem

mutual

/-- An item, written on one line. -/
def print : RuleItem → Text
  | declaration d => d.text ++ [';']
  | rule header items =>
    header.text ++ [' ', '\x7b', ' '] ++ List.intercalate [' '] (printEach items) ++ [' ', '\x7d']

/-- Each of the items, written on one line. -/
def printEach : List RuleItem → List Text
  | [] => []
  | item :: rest => item.print :: printEach rest

end

mutual

/-- The lines of an item that stands `depth` levels below a header. -/
def lines (depth : Nat) : RuleItem → List RuleLine
  | declaration d => [⟨depth, Line.spaceAfterColon d.text⟩]
  | rule header items => ⟨depth, header.text⟩ :: linesOfEach (depth + 1) items

/-- The lines of the items that stand `depth` levels below a header. -/
def linesOfEach (depth : Nat) : List RuleItem → List RuleLine
  | [] => []
  | item :: rest => item.lines depth ++ linesOfEach depth rest

end

theorem print_rule_append (header : RuleText) (items : List RuleItem) (u : Text) :
    (rule header items).print ++ u = header.text ++ (' ' :: '\x7b' :: ' ' ::
      (List.intercalate [' '] (printEach items) ++ (' ' :: '\x7d' :: u))) := by
  simp [print]

theorem intercalate_printEach_one (item : RuleItem) :
    List.intercalate [' '] (printEach [item]) = item.print := by
  simp [printEach, List.intercalate]

theorem intercalate_printEach (item next : RuleItem) (rest : List RuleItem) :
    List.intercalate [' '] (printEach (item :: next :: rest)) =
      item.print ++ ' ' :: List.intercalate [' '] (printEach (next :: rest)) := by
  simp [printEach, List.intercalate]

end RuleItem

/-! ## Scans of a rule -/

/-- A scan that passes over what a rule is put together from, at any depth of blocks. -/
structure Passes (scan : Nat → Text → Text × Text) : Prop where
  fragment {t u : Text} (depth : Nat) : Fragment t → Ends u →
    scan depth (t ++ u) = prepend t (scan depth u)
  space (depth : Nat) (u : Text) : scan depth (' ' :: u) = prepend [' '] (scan depth u)
  semicolon (depth : Nat) (u : Text) : scan depth (';' :: u) = prepend [';'] (scan depth u)
  opening (depth : Nat) (u : Text) :
    scan depth ('\x7b' :: u) = prepend ['\x7b'] (scan (depth + 1) u)
  closing (depth : Nat) (u : Text) :
    scan (depth + 1) ('\x7d' :: u) = prepend ['\x7d'] (scan depth u)

namespace Passes

variable {scan : Nat → Text → Text × Text}

mutual

theorem print (h : Passes scan) (depth : Nat) (u : Text) : ∀ item : RuleItem,
    scan depth (item.print ++ u) = prepend item.print (scan depth u)
  | .declaration d => by
    rw [RuleItem.print, List.append_assoc, h.fragment depth d.fragment (by simp [Ends]),
      List.singleton_append, h.semicolon, ← prepend_append]
  | .rule header items => by
    rw [RuleItem.print_rule_append, h.fragment depth header.fragment (by simp [Ends]), h.space,
      h.opening, h.space, h.printEach (depth + 1) _ items, h.space, h.closing]
    simp [prepend, RuleItem.print]

theorem printEach (h : Passes scan) (depth : Nat) (u : Text) : ∀ items : List RuleItem,
    scan depth (List.intercalate [' '] (RuleItem.printEach items) ++ u) =
      prepend (List.intercalate [' '] (RuleItem.printEach items)) (scan depth u)
  | [] => rfl
  | [item] => by
    rw [RuleItem.intercalate_printEach_one, h.print depth u item]
  | item :: next :: rest => by
    rw [RuleItem.intercalate_printEach, List.append_assoc, h.print depth _ item, List.cons_append,
      h.space, h.printEach depth u (next :: rest)]
    simp [prepend]

end

end Passes

/-- No part of a rule is a comment, whatever braces are open. -/
theorem passes_splitComment : Passes fun _ => Line.splitCommentFrom .outside 0 where
  fragment _ ht hu := Line.splitCommentFrom_fragment ht hu
  space _ _ := Line.splitCommentFrom_char (by decide) (by decide) (by decide) (by simp)
  semicolon _ _ := Line.splitCommentFrom_char (by decide) (by decide) (by decide) (by simp)
  opening _ _ := Line.splitCommentFrom_char (by decide) (by decide) (by decide) (by simp)
  closing _ _ := Line.splitCommentFrom_char (by decide) (by decide) (by decide) (by simp)

/-- The braces of a rule match. -/
theorem passes_splitClose : Passes (splitClose .outside) where
  fragment depth ht _ := splitClose_fragment ht depth _
  space depth u := splitClose_char (by decide) (by decide) (by decide) depth u
  semicolon depth u := splitClose_char (by decide) (by decide) (by decide) depth u
  opening := splitClose_open
  closing := splitClose_close

/-! ## The lines of a rule -/

variable {x ws ws' u : Text} {depth : Nat}

/-- White space around a text is not seen in the lines. -/
theorem RuleText.trim_surrounded (d : RuleText) (hw : White ws) (hw' : White ws') :
    Text.trim (ws ++ d.text ++ ws') = d.text := by
  have hstart : Text.trimStart (ws ++ d.text) = Text.trimStart d.text :=
    List.dropWhile_append_of_pos hw
  rw [Text.trim_white hw', Text.trim, hstart]
  exact d.trimmed

theorem RuleState.declaration_of_trim (d : RuleText) (h : x.trim = d.text) :
    RuleState.declaration { current := x } depth = [⟨depth, Line.spaceAfterColon d.text⟩] := by
  rw [RuleState.declaration, h, if_neg]
  simpa using d.visible

theorem RuleState.header_of_trim (d : RuleText) (h : x.trim = d.text) :
    RuleState.header { current := x } depth = [⟨depth, d.text⟩] := by
  rw [RuleState.header, h, if_neg]
  simpa using d.visible

theorem splitRule_space :
    splitRule depth { current := x } (' ' :: u) = splitRule depth { current := x ++ [' '] } u :=
  splitRule_char (by decide) (by simp) (by simp)

theorem splitRule_semicolon :
    splitRule depth { current := x } (';' :: u) =
      RuleState.declaration { current := x } depth ++ splitRule depth {} u := by
  simp [splitRule, Quote.isOutside]

theorem splitRule_opening :
    splitRule depth { current := x } ('\x7b' :: u) =
      RuleState.header { current := x } depth ++
        splitRule (depth + 1) {} (splitClose .outside 0 u).1 ++
        splitRule depth {} (splitClose .outside 0 u).2 := by
  simp [splitRule, Quote.isOutside]

/-- The brace that closes the rule itself. -/
theorem splitRule_closing :
    splitRule depth { current := x } ('\x7d' :: u) = splitRule depth { current := x } u := by
  simp [splitRule, Quote.isOutside]

theorem white_space : White [' '] := by
  intro c hc
  rw [List.mem_singleton.1 hc]
  decide

/-- What is left at the end of a rule is white space. -/
theorem splitRule_nil (hw : White ws) : splitRule depth { current := ws } [] = [] := by
  have hnone : Text.trim ws = [] := Text.trim_white hw []
  rw [splitRule, RuleState.declaration, hnone]
  rfl

mutual

theorem splitRule_print (depth : Nat) (ws u : Text) (hw : White ws) : ∀ item : RuleItem,
    splitRule depth { current := ws } (item.print ++ u) = item.lines depth ++ splitRule depth {} u
  | .declaration d => by
    have htrim : Text.trim (ws ++ d.text) = d.text := by
      have hnone : White [] := nofun
      simpa using d.trim_surrounded hw hnone
    rw [RuleItem.print, List.append_assoc, splitRule_fragment d.fragment (by simp),
      List.singleton_append, splitRule_semicolon, RuleState.declaration_of_trim d htrim]
    rfl
  | .rule header items => by
    -- the scan for the end of the rule finds the brace behind its items
    have hclose : splitClose .outside 0 (' ' ::
        (List.intercalate [' '] (RuleItem.printEach items) ++ (' ' :: '\x7d' :: u))) =
        (' ' :: (List.intercalate [' '] (RuleItem.printEach items) ++ [' ']), u) := by
      rw [passes_splitClose.space, passes_splitClose.printEach, passes_splitClose.space,
        splitClose_end]
      simp [prepend]
    obtain ⟨ws', hw', hitems⟩ := splitRule_printEach (depth + 1) [' '] [' '] white_space items
    rw [RuleItem.print_rule_append, splitRule_fragment header.fragment (by simp), splitRule_space,
      splitRule_opening, RuleState.header_of_trim header (header.trim_surrounded hw white_space),
      hclose, splitRule_space, List.nil_append, hitems, splitRule_space, splitRule_nil]
    · simp [RuleItem.lines]
    · exact List.forall_mem_append.2 ⟨hw', white_space⟩

theorem splitRule_printEach (depth : Nat) (ws u : Text) (hw : White ws) : ∀ items : List RuleItem,
    ∃ ws', White ws' ∧
      splitRule depth { current := ws } (List.intercalate [' '] (RuleItem.printEach items) ++ u) =
        RuleItem.linesOfEach depth items ++ splitRule depth { current := ws' } u
  | [] => ⟨ws, hw, rfl⟩
  | [item] => by
    refine ⟨[], nofun, ?_⟩
    rw [RuleItem.intercalate_printEach_one, splitRule_print depth ws u hw item]
    simp [RuleItem.linesOfEach]
  | item :: next :: rest => by
    obtain ⟨ws', hw', hrest⟩ := splitRule_printEach depth [' '] u white_space (next :: rest)
    refine ⟨ws', hw', ?_⟩
    rw [RuleItem.intercalate_printEach, List.append_assoc, splitRule_print depth ws _ hw item,
      List.cons_append, splitRule_space, List.nil_append, hrest, ← List.append_assoc]
    rfl

end

/-! ## The line -/

section

variable (header : RuleText) (items : List RuleItem)

theorem splitComment_print : Line.splitComment (RuleItem.rule header items).print =
    ((RuleItem.rule header items).print, []) := by
  have hpass := passes_splitComment.print 0 [] (RuleItem.rule header items)
  rw [List.append_nil] at hpass
  rw [Line.splitComment, hpass]
  simp [prepend, Line.splitCommentFrom]

/-- No blanks stand before a text without white space at its ends. -/
theorem Text.blanks_append_of_trimmed {d : Text} (hvisible : d ≠ []) (htrim : d.trim = d)
    (u : Text) : Text.blanks (d ++ u) = [] := by
  obtain ⟨c, rest, hc⟩ := List.exists_cons_of_ne_nil hvisible
  have hwhite : isWhite c = false := Text.head_trim (htrim.trans hc)
  have hblank : ¬isBlank c = true := fun h => by
    rw [isWhite_of_isBlank h] at hwhite
    cases hwhite
  rw [Text.blanks, hc]
  exact List.takeWhile_cons_of_neg hblank

/-- No white space stands at the ends of a rule. -/
theorem trimmed_print :
    Text.trimEnd (RuleItem.rule header items).print = (RuleItem.rule header items).print ∧
      Text.blanks (RuleItem.rule header items).print = [] := by
  constructor
  · refine Text.trimEnd_eq_self fun c hc => ?_
    rw [RuleItem.print, List.getLast?_append_of_ne_nil _ (by simp)] at hc
    cases hc
    decide
  · rw [RuleItem.print, List.append_assoc, List.append_assoc]
    exact Text.blanks_append_of_trimmed header.visible header.trimmed _

theorem splitBlockOpen?_print : Line.splitBlockOpen? (RuleItem.rule header items).print =
    some (header.text ++ [' '],
      ' ' :: (List.intercalate [' '] (RuleItem.printEach items) ++ [' ', '\x7d'])) := by
  have hopens : ∀ v : Text, Line.Opens (' ' :: '\x7b' :: v) ([' '], v) := fun v hash => rfl
  have hheader := (hopens (' ' :: (List.intercalate [' '] (RuleItem.printEach items) ++
    [' ', '\x7d']))).fragment header.fragment false
  rw [Line.splitBlockOpen?, RuleItem.print]
  simpa [prepend] using hheader

end

/-- All of a line is its code, when it has no comment and no white space at its ends. -/
theorem Line.codeBody_eq_self {line : Text} (hcomment : (splitComment line).2 = [])
    (hend : line.trimEnd = line) (hblanks : line.blanks = []) :
    (code line).trimEnd = line ∧ codeBody line = line := by
  have hsplit := splitComment_append line
  rw [hcomment, List.append_nil] at hsplit
  have hcode : (code line).trimEnd = line := by rw [code, hsplit, hend]
  have hbody := line.blanks_append_body
  rw [hblanks, List.nil_append] at hbody
  exact ⟨hcode, by rw [codeBody, hcode, hbody]⟩

/-- A rule written on one line is converted to its header, and below it to its declarations and
    nested headers, in order, each as deep as it is nested. -/
theorem convertBraces_print (header : RuleText) (items : List RuleItem) :
    convertBraces (RuleItem.rule header items).print [] =
      ⟨header.text, RuleItem.linesOfEach 1 items, header.text, false⟩ := by
  have hcomment := splitComment_print header items
  obtain ⟨htrim, hblanks⟩ := trimmed_print header items
  obtain ⟨hcode, hbody⟩ := Line.codeBody_eq_self (congrArg Prod.snd hcomment) htrim hblanks
  have hopen := splitBlockOpen?_print header items
  rw [← hbody] at hopen
  have hheader : Text.trim (header.text ++ [' ']) = header.text :=
    (Text.trim_white white_space _).trans header.trimmed
  have hlines : splitRule 1 {} (' ' :: (List.intercalate [' '] (RuleItem.printEach items) ++
      [' ', '\x7d'])) = RuleItem.linesOfEach 1 items := by
    obtain ⟨ws, hw, hitems⟩ := splitRule_printEach 1 [' '] [' ', '\x7d'] white_space items
    rw [splitRule_space, List.nil_append, hitems, splitRule_space, splitRule_closing,
      splitRule_nil (List.forall_mem_append.2 ⟨hw, white_space⟩), List.append_nil]
  rw [convertBraces_of_header hopen rfl, hheader, hlines, hcode, hblanks, hcomment]
  have hvisible : header.text.isEmpty = false := by simpa using header.visible
  simp only [joinComment, hvisible]
  rfl

/-- An interpolation in a header, a brace in a string, a semicolon in parentheses, and a nested
    rule behind them. -/
theorem convertBraces_print_nested :
    ∃ (header : RuleText) (items : List RuleItem),
      (RuleItem.rule header items).print =
        "a#\x7bb\x7d \x7b c:'\x7d'; d(;); e \x7b f: g; \x7d \x7d".toList ∧
      convertBraces (RuleItem.rule header items).print [] =
        ⟨"a#\x7bb\x7d".toList,
          [⟨1, "c: '\x7d'".toList⟩, ⟨1, "d(;)".toList⟩, ⟨1, "e".toList⟩, ⟨2, "f: g".toList⟩],
          "a#\x7bb\x7d".toList, false⟩ := by
  have hname : ∀ c ∈ ['b'], isBare c = true ∧ c ≠ '/' :=
    List.forall_mem_singleton.2 (by decide)
  have hstring : Fragment ('\'' :: ['\x7d'] ++ '\'' :: []) :=
    .string rfl (by decide) (by decide) .nil
  have hparens : Fragment "(;)".toList := .parens (.char (c := ';') rfl .nil) .nil
  let header : RuleText := ⟨"a#\x7bb\x7d".toList, by decide, by decide +kernel,
    (Fragment.interpolation hname .nil).bare (s := ['a']) rfl⟩
  let string : RuleText := ⟨"c:'\x7d'".toList, by decide, by decide +kernel,
    hstring.bare (s := ['c', ':']) rfl⟩
  let call : RuleText := ⟨"d(;)".toList, by decide, by decide +kernel,
    hparens.bare (s := ['d']) rfl⟩
  let inner : RuleText := ⟨"e".toList, by decide, by decide +kernel,
    Fragment.nil.bare (s := ['e']) rfl⟩
  let plain : RuleText := ⟨"f: g".toList, by decide, by decide +kernel,
    Fragment.nil.bare (s := "f: g".toList) rfl⟩
  let items : List RuleItem :=
    [.declaration string, .declaration call, .rule inner [.declaration plain]]
  have hlines := convertBraces_print header items
  exact ⟨header, items, rfl, hlines⟩

end IndentedSass
