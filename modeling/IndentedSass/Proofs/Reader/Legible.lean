/-
  Nodes that are read back from their lines.

  A node that a line adds to a tree is written as a text of its own, which is not always the
  line: white space and quotation marks go, values are spaced anew, and what could not be
  understood is written as it was.  The text is read as the node again, unless a value, a
  path or a list of parameters is written in a way that is read differently.

  * `Line.Tells`: a text without indentation is read as a node, and `Line.Tells.toSays`: so it
    is at the indentation of its level;
  * `Line.importPaths?_quoted`: the paths of an `@import` line are found, however many;
  * `Line.tells_extend`, `tells_include`, `tells_mixinCall`, `tells_import`, `tells_use`: what is
    written of a clause is read as the clause.
-/
import Mathlib
import IndentedSass.Proofs.Line.Declarations
import IndentedSass.Proofs.Reader.Rendered
import IndentedSass.Proofs.Reader.Reread

namespace IndentedSass

/-! ## Texts without indentation -/

/-- A text without indentation is read as a node at a level. -/
structure Line.Tells (level : Nat) (text : Text) (node : Node) : Prop where
  feed : '\n' ∉ text
  plainEnd : text.getLast? ≠ some '\r'
  visible : ∃ c rest, text = c :: rest ∧ isBlank c = false
  nodes : Line.nodes level text (kindOutsideComment text) = [node]

namespace Line

variable {level : Nat} {line text : Text} {node : Node} {kind : LineKind}

theorem width_of_visible {tab : Nat} (h : ∃ c rest, text = c :: rest ∧ isBlank c = false) :
    Indent.width tab text = 0 := by
  obtain ⟨c, rest, rfl, hc⟩ := h
  simp only [isBlank, Bool.or_eq_false_iff, beq_eq_false_iff_ne] at hc
  simp [Indent.width, hc.1, hc.2]

/-- What a text tells, it says at an indentation that reaches its level. -/
theorem Tells.toSays_of_reaches {style : IndentStyle} (h : Tells level text node) (hlevel : level < 2 ^ 50)
    (hreaches : style.Reaches level) : Says style level (Indent.ofLevel style level ++ text) node := by
  have hblanks := Indent.blanks_ofLevel style level
  obtain ⟨c, rest, htext, hc⟩ := h.visible
  refine ⟨hlevel, fun hmem => ?_, ?_, ?_, ?_⟩
  · rcases List.mem_append.1 hmem with hindent | hown
    · exact absurd (hblanks _ hindent) (by decide)
    · exact h.feed hown
  · rw [List.getLast?_append_of_ne_nil _ (by rw [htext]; simp)]
    exact h.plainEnd
  · rw [Indent.width_of_reaches hreaches, width_of_visible h.visible, Nat.add_zero]
  · rw [kindOutsideComment_blanks hblanks, nodes_blanks hblanks]
    exact h.nodes

/-- What a text tells, it says at the indentation of its level. -/
theorem Tells.toSays {style : IndentStyle} (htab : 0 < style.tabSize) (hlevel : level < 2 ^ 50)
    (h : Tells level text node) : Says style level (Indent.ofLevel style level ++ text) node :=
  h.toSays_of_reaches hlevel (.inl fun _ => htab)

/-! ## Lines that are written as they are -/

theorem trim_trim (t : Text) : t.trim.trim = t.trim := by
  refine Text.trim_eq_self (fun c hc => ?_) fun c hc => Text.getLast?_trimEnd _ c hc
  cases h : t.trim with
  | nil =>
    rw [h] at hc
    cases hc
  | cons d rest =>
    rw [h] at hc
    cases hc
    exact Text.head_trim h

theorem visible_trim (h : isBlankLine line = false) :
    ∃ c rest, line.trim = c :: rest ∧ isBlank c = false := by
  cases ht : line.trim with
  | nil => simp [isBlankLine, Text.isAllWhite, ht] at h
  | cons c rest => exact ⟨c, rest, rfl, isBlank_head_trim ht⟩

theorem getLast?_trim_ne (t : Text) : t.trim.getLast? ≠ some '\r' := by
  intro h
  have hwhite := Text.getLast?_trimEnd _ _ h
  revert hwhite
  decide

/-- A line that is written as it is, but for the white space at its ends. -/
theorem tells_trim (hfeed : '\n' ∉ line) (hvisible : isBlankLine line = false)
    (hnodes : nodes level line.trim (kindOutsideComment line.trim) = [node]) :
    Tells level line.trim node where
  feed h := hfeed (Text.mem_of_mem_trim h)
  plainEnd := getLast?_trim_ne line
  visible := visible_trim hvisible
  nodes := hnodes

/-- The kind of a line that starts with a visible character but no slash is none of the first
    three. -/
theorem kind_of_head {c : Char} (hwhite : isWhite c = false) (hslash : c ≠ '/') (rest : Text) :
    isBlankLine (c :: rest) = false ∧ isLineComment (c :: rest) = false ∧
      opensBlockComment (c :: rest) = false := by
  have hbody : Text.body (c :: rest) = c :: rest := by
    refine List.dropWhile_cons_of_neg fun hblank => ?_
    rw [isWhite_of_isBlank hblank] at hwhite
    cases hwhite
  refine ⟨Bool.eq_false_iff.2 fun h => ?_, ?_, ?_⟩
  · rw [white_of_isBlankLine h c (List.mem_cons_self ..)] at hwhite
    cases hwhite
  · rw [isLineComment, hbody]
    simp [Text.startsWith, Text.dropPrefix?, Ne.symm hslash]
  · rw [opensBlockComment, hbody]
    simp [Text.startsWith, Text.dropPrefix?, Ne.symm hslash]

/-- Behind its indentation, a line starts with a visible character. -/
def StartsVisibly (line : Text) : Prop := ∃ c rest, line.body = c :: rest ∧ isWhite c = false

/-- What sees neither the indentation of a line nor the white space at its end sees the
    trimmed line as the line. -/
theorem congr_trim {α : Type} (f : Text → α)
    (hblanks : ∀ {pre : Text}, Blanks pre → ∀ t : Text, f (pre ++ t) = f t)
    (hwhite : ∀ {ws : Text}, White ws → ∀ t : Text, f (t ++ ws) = f t)
    (h : StartsVisibly line) : f line.trim = f line := by
  obtain ⟨c, rest, hbody, hc⟩ := h
  obtain ⟨ws, hw, hsplit⟩ := Text.exists_white (c :: rest)
  rw [trim_of_body hbody hc]
  conv_rhs => rw [← line.blanks_append_body, hblanks line.blanks_blanks, hbody, hsplit, hwhite hw]

/-- A keyword at the start of a line stays when the line is trimmed. -/
theorem trim_keyword {a b : Char} (ha : isWhite a = false) (hb : isWhite b = false) (k rest : Text) :
    Text.trim (a :: k ++ b :: rest) = a :: k ++ b :: Text.trimEnd rest := by
  obtain ⟨ws, hw, hsplit⟩ := Text.exists_white rest
  have hlast : ∀ c ∈ (a :: k ++ b :: Text.trimEnd rest).getLast?, isWhite c = false := by
    intro c hc
    rw [List.getLast?_append_of_ne_nil _ (by simp)] at hc
    cases ht : Text.trimEnd rest with
    | nil =>
      rw [ht] at hc
      cases hc
      exact hb
    | cons d more =>
      rw [ht, List.getLast?_cons_cons, ← ht] at hc
      exact Text.getLast?_trimEnd rest c hc
  have hstart : Text.trimStart (a :: k ++ b :: rest) = a :: k ++ b :: rest :=
    List.dropWhile_cons_of_neg (by simp [ha])
  have happend : a :: k ++ b :: rest = (a :: k ++ b :: Text.trimEnd rest) ++ ws := by
    conv_lhs => rw [hsplit]
    simp
  rw [Text.trim, hstart, happend, Text.trimEnd_white hw, Text.trimEnd_eq_self hlast]

theorem trim_trimEnd (t : Text) : Text.trim (Text.trimEnd t) = Text.trim t := by
  obtain ⟨ws, hw, hsplit⟩ := Text.exists_white t
  conv_rhs => rw [hsplit, Text.trim_white hw]

/-! ## `@extend` and `@include` -/

/-- What follows a keyword and a space is found again. -/
theorem trim_behind {t : Text} (ht : t.trim = t) : Text.trim (Text.trimEnd (' ' :: t)) = t := by
  rw [trim_trimEnd]
  have hblank : Blanks [' '] := by simp [Blanks, isBlank]
  exact (Text.trim_blanks hblank t).trans ht

/-- A text behind a keyword and a space ends in no carriage return. -/
theorem getLast?_behind {k t : Text} (ht : t.trim = t) : (k ++ ' ' :: t).getLast? ≠ some '\r' := by
  intro h
  rw [List.getLast?_append_of_ne_nil _ (by simp)] at h
  cases t with
  | nil => cases h
  | cons c t =>
    rw [List.getLast?_cons_cons, ← ht] at h
    exact getLast?_trim_ne _ h

theorem dropCopies_some {a : Char} {p t rest : Text} (h : Text.dropPrefix? (a :: p) t = some rest) :
    Text.dropCopies a p t = Text.dropCopies a p rest := by
  rw [Text.dropCopies]
  split
  · rename_i found hfound
    rw [h] at hfound
    cases hfound
    rfl
  · rename_i hnone
    rw [h] at hnone
    cases hnone

theorem dropCopies_none {a : Char} {p t : Text} (h : Text.dropPrefix? (a :: p) t = none) :
    Text.dropCopies a p t = t := by
  rw [Text.dropCopies]
  split
  · rename_i found hfound
    rw [h] at hfound
    cases hfound
  · rfl

theorem kind_extend (t : Text) : kindOutsideComment ("@extend ".toList ++ t) = .extendRule := by
  obtain ⟨hblank, -, -⟩ := kind_of_head (c := '@') (by decide) (by decide) ("extend ".toList ++ t)
  unfold kindOutsideComment
  rw [show isBlankLine ("@extend ".toList ++ t) = false from hblank]
  rfl

theorem extended_written {t : Text} (ht : t.trim = t) : extended ("@extend ".toList ++ t) = t := by
  have htrim : Text.trim ("@extend ".toList ++ t) = "@extend".toList ++ Text.trimEnd (' ' :: t) :=
    trim_keyword (a := '@') (b := 'd') (by decide) (by decide) "exten".toList (' ' :: t)
  have hfirst : Text.dropPrefix? ('@' :: "extend".toList)
      ("@extend".toList ++ Text.trimEnd (' ' :: t)) = some (Text.trimEnd (' ' :: t)) :=
    Text.dropPrefix?_eq_some_iff.2 rfl
  have hsecond : Text.dropPrefix? ('@' :: "extend".toList) (Text.trimEnd (' ' :: t)) = none := by
    cases h : Text.trimEnd (' ' :: t) with
    | nil => rfl
    | cons c rest =>
      -- what is left starts with the space
      obtain ⟨ws, -, hsplit⟩ := Text.exists_white (' ' :: t)
      rw [h] at hsplit
      cases hsplit
      rfl
  rw [extended, htrim, dropCopies_some hfirst, dropCopies_none hsecond, trim_behind ht]

theorem kind_include (t : Text) : kindOutsideComment ("@include ".toList ++ t) = .mixinCall := by
  obtain ⟨hblank, -, -⟩ := kind_of_head (c := '@') (by decide) (by decide) ("include ".toList ++ t)
  unfold kindOutsideComment
  rw [show isBlankLine ("@include ".toList ++ t) = false from hblank]
  rfl

theorem mixinCall_written {t : Text} (ht : t.trim = t) :
    mixinCall ("@include ".toList ++ t) = (.keyword, t) := by
  have htrim : Text.trim ("@include ".toList ++ t) = "@include".toList ++ Text.trimEnd (' ' :: t) :=
    trim_keyword (a := '@') (b := 'e') (by decide) (by decide) "includ".toList (' ' :: t)
  have hfirst : Text.dropPrefix? "@include".toList
      ("@include".toList ++ Text.trimEnd (' ' :: t)) = some (Text.trimEnd (' ' :: t)) :=
    Text.dropPrefix?_eq_some_iff.2 rfl
  rw [mixinCall, htrim, hfirst]
  dsimp only
  rw [trim_behind ht]

theorem mem_of_mem_dropCopies {a c : Char} {p t : Text} (h : c ∈ Text.dropCopies a p t) : c ∈ t := by
  induction t using Text.dropCopies.induct a p with
  | case1 t rest hrest ih =>
    rw [dropCopies_some hrest] at h
    rw [Text.dropPrefix?_eq_some_iff.1 hrest]
    exact List.mem_append_right _ (ih h)
  | case2 t hnone =>
    rw [dropCopies_none hnone] at h
    exact h

/-- The text of an `@extend` line. -/
theorem tells_extend {t : Text} (ht : t.trim = t) (hfeed : '\n' ∉ t) :
    Tells level ("@extend ".toList ++ t) (.leaf 0 (.extendRule level t)) where
  feed h := by
    rcases List.mem_append.1 h with hkey | hown
    · revert hkey
      decide
    · exact hfeed hown
  plainEnd := getLast?_behind (k := "@extend".toList) ht
  visible := ⟨'@', _, rfl, by decide⟩
  nodes := by
    rw [kind_extend]
    simp only [nodes]
    rw [extended_written ht]

/-- The text of an `@include` line. -/
theorem tells_include {t : Text} (ht : t.trim = t) (hfeed : '\n' ∉ t) :
    Tells level ("@include ".toList ++ t) (.leaf 0 (.mixinCall level .keyword t)) where
  feed h := by
    rcases List.mem_append.1 h with hkey | hown
    · revert hkey
      decide
    · exact hfeed hown
  plainEnd := getLast?_behind (k := "@include".toList) ht
  visible := ⟨'@', _, rfl, by decide⟩
  nodes := by
    rw [kind_include]
    simp only [nodes]
    rw [mixinCall_written ht]

theorem kind_plus {c : Char} (hc : isNameChar c = true) (rest : Text) :
    kindOutsideComment ('+' :: c :: rest) = .mixinCall := by
  obtain ⟨hblank, -, -⟩ := kind_of_head (c := '+') (by decide) (by decide) (c :: rest)
  have hinclude : isInclude ('+' :: c :: rest) = true := hc
  unfold kindOutsideComment
  rw [hblank, hinclude]
  rfl

/-- The text of a `+` line. -/
theorem tells_plus {c : Char} {rest : Text} (hc : isNameChar c = true)
    (ht : Text.trim (c :: rest) = c :: rest) (hfeed : '\n' ∉ c :: rest) :
    Tells level ('+' :: c :: rest) (.leaf 0 (.mixinCall level .sigil (c :: rest))) where
  feed h := by
    rcases List.mem_cons.1 h with hplus | hown
    · revert hplus
      decide
    · exact hfeed hown
  plainEnd := by
    rw [List.getLast?_cons_cons, ← ht]
    exact getLast?_trim_ne _
  visible := ⟨'+', _, rfl, by decide⟩
  nodes := by
    have hplus : c ≠ '+' := by
      rintro rfl
      revert hc
      decide
    have htrim : Text.trim ('+' :: c :: rest) = '+' :: c :: rest := by
      refine Text.trim_eq_self (fun d hd => ?_) fun d hd => ?_
      · cases hd
        decide
      · rw [List.getLast?_cons_cons, ← ht] at hd
        exact Text.getLast?_trimEnd _ d hd
    have hfirst : Text.dropPrefix? ['+'] ('+' :: c :: rest) = some (c :: rest) := rfl
    have hsecond : Text.dropPrefix? ['+'] (c :: rest) = none := by
      rw [Text.dropPrefix?, if_neg (Ne.symm hplus)]
    have hcall : mixinCall ('+' :: c :: rest) = (.sigil, c :: rest) := by
      rw [mixinCall, htrim]
      show (Spelling.sigil, (Text.dropCopies '+' [] ('+' :: c :: rest)).trim) = _
      rw [dropCopies_some hfirst, dropCopies_none hsecond, ht]
    rw [kind_plus hc]
    simp only [nodes]
    rw [hcall]

/-- An at-rule is its keyword and what follows it. -/
theorem hasAtRule_eq {w : String} (h : hasAtRule [w] line = true) :
    ∃ rest, line.body = '@' :: w.toList ++ rest ∧ rest.atWordEnd = true := by
  unfold hasAtRule at h
  split at h
  · rename_i rest hbody
    simp only [List.any_cons, List.any_nil, Bool.or_false, startsWithWord] at h
    split at h
    · rename_i more hmore
      refine ⟨more, ?_, h⟩
      rw [hbody, Text.dropPrefix?_eq_some_iff.1 hmore, List.cons_append]
    · cases h
  · cases h

/-- What an `@include` line names. -/
theorem tells_mixinCall (hfeed : '\n' ∉ line) (hkind : isInclude line = true) :
    Tells level (match mixinCall line with
      | (.keyword, t) => "@include ".toList ++ t
      | (.sigil, t) => '+' :: t)
      (.leaf 0 (.mixinCall level (mixinCall line).1 (mixinCall line).2)) := by
  have htrim : line.trim = line.body.trim := by
    rw [← Text.trim_blanks line.blanks_blanks line.body, line.blanks_append_body]
  unfold mixinCall
  cases hprefix : Text.dropPrefix? "@include".toList line.trim with
  | some rest =>
    refine tells_include (trim_trim rest) fun hmem => hfeed (Text.mem_of_mem_trim ?_)
    rw [Text.dropPrefix?_eq_some_iff.1 hprefix]
    exact List.mem_append_right _ (Text.mem_of_mem_trim hmem)
  | none =>
    dsimp only
    unfold isInclude at hkind
    rcases Bool.or_eq_true_iff.1 hkind with hrule | hsigil
    · -- the keyword would have been found
      obtain ⟨rest, hbody, -⟩ := hasAtRule_eq hrule
      have hkey : Text.trim ("@include".toList ++ rest) = "@include".toList ++ Text.trimEnd rest :=
        trim_keyword (a := '@') (b := 'e') (by decide) (by decide) "includ".toList rest
      rw [htrim, hbody, show '@' :: "include".toList ++ rest = "@include".toList ++ rest from rfl, hkey,
        Text.dropPrefix?_eq_some_iff.2 rfl] at hprefix
      cases hprefix
    · split at hsigil
      · rename_i c rest hbody
        have hc : isWhite c = false := by
          refine Bool.eq_false_iff.2 fun hwhite => ?_
          rw [isNameChar_of_isWhite hwhite] at hsigil
          cases hsigil
        have hkey : Text.trim ('+' :: c :: rest) = '+' :: c :: Text.trimEnd rest :=
          trim_keyword (a := '+') (by decide) hc [] rest
        have hplus : '+' ≠ c := by
          rintro rfl
          revert hsigil
          decide
        have hfirst : Text.dropPrefix? ['+'] ('+' :: c :: Text.trimEnd rest) =
            some (c :: Text.trimEnd rest) := rfl
        have hsecond : Text.dropPrefix? ['+'] (c :: Text.trimEnd rest) = none := by
          rw [Text.dropPrefix?, if_neg hplus]
        have hown : Text.trim (c :: Text.trimEnd rest) = c :: Text.trimEnd rest := by
          refine Text.trim_eq_self (fun d hd => ?_) fun d hd => ?_
          · cases hd
            exact hc
          · rw [← List.getLast?_cons_cons (a := '+'), ← hkey] at hd
            exact Text.getLast?_trimEnd _ d hd
        rw [htrim, hbody, hkey, dropCopies_some hfirst, dropCopies_none hsecond, hown]
        refine tells_plus hsigil hown fun hmem => hfeed (Text.mem_of_mem_trim ?_)
        rw [htrim, hbody, hkey]
        exact List.mem_cons_of_mem _ hmem
      · cases hsigil

/-! ## `@import` -/

/-- The paths that are read are bare: no comma, and no quotation mark at their ends. -/
structure BarePath (path : Text) : Prop where
  nonempty : path ≠ []
  comma : ',' ∉ path
  head : ∀ c ∈ path.head?, isQuoteMark c = false
  last : ∀ c ∈ path.getLast?, isQuoteMark c = false

theorem mem_of_mem_importPath {c : Char} {t : Text} (h : c ∈ importPath t) : c ∈ t :=
  Text.mem_of_mem_trim (Text.mem_of_mem_dropEnd (Text.mem_of_mem_trim
    (List.dropWhile_subset isQuoteMark (Text.mem_of_mem_dropEnd h))))

theorem barePath_importPath {t : Text} (hcomma : ',' ∉ t) (hne : importPath t ≠ []) :
    BarePath (importPath t) := by
  refine ⟨hne, fun h => hcomma (mem_of_mem_importPath h), ?_, Text.getLast?_dropEnd _⟩
  -- dropping the end leaves the head, when it leaves anything
  intro c hc
  unfold importPath at hne hc
  dsimp only at hne hc
  generalize (Text.dropEnd (· == ';') t.trim).trim = bare at hne hc
  obtain ⟨ws, hsplit⟩ := Text.exists_dropEnd isQuoteMark (bare.dropWhile isQuoteMark)
  refine Text.head?_dropWhile bare c ?_
  rw [hsplit, List.head?_append_of_ne_nil _ hne]
  exact hc

theorem importPath_quoted {path : Text} (h : BarePath path) :
    importPath ('\'' :: path ++ ['\'']) = path := by
  obtain ⟨c, rest, rfl⟩ := List.exists_cons_of_ne_nil h.nonempty
  have hlast : ∀ {q : Char → Bool}, q '\'' = false →
      ∀ d ∈ ('\'' :: (c :: rest) ++ ['\'']).getLast?, q d = false := by
    intro q hq d hd
    rw [List.getLast?_append_of_ne_nil _ (by simp)] at hd
    cases hd
    exact hq
  have htrim : Text.trim ('\'' :: (c :: rest) ++ ['\'']) = '\'' :: (c :: rest) ++ ['\''] := by
    refine Text.trim_eq_self (fun d hd => ?_) (hlast (by decide))
    cases hd
    decide
  have hend : Text.dropEnd (· == ';') ('\'' :: (c :: rest) ++ ['\'']) =
      '\'' :: (c :: rest) ++ ['\''] := Text.dropEnd_eq_self (hlast (by decide))
  have hstart : ('\'' :: (c :: rest) ++ ['\'']).dropWhile isQuoteMark = (c :: rest) ++ ['\''] := by
    rw [List.cons_append, List.dropWhile_cons_of_pos (by decide)]
    exact List.dropWhile_cons_of_neg (by simp [h.head c rfl])
  rw [importPath, htrim, hend, htrim, hstart, Text.dropEnd_concat (by decide) h.last]

/-- A path between quotation marks. -/
def quotedPath (path : Text) : Text := '\'' :: path ++ ['\'']

theorem importPath_blank (t : Text) : importPath (' ' :: t) = importPath t := by
  have hblank : Blanks [' '] := by simp [Blanks, isBlank]
  have htrim : Text.trim (' ' :: t) = Text.trim t := Text.trim_blanks hblank t
  rw [importPath, importPath, htrim]

/-- The paths of an `@import` line are what stands between its commas. -/
theorem splitImportPaths_intercalate {pieces : List Text} (hne : pieces ≠ [])
    (h : ∀ piece ∈ pieces, ',' ∉ piece) : splitImportPaths (List.intercalate [','] pieces) =
      (pieces.map importPath).filter fun path => !path.isEmpty := by
  rw [splitImportPaths, Text.splitOn_intercalate_of_not_mem hne h]

/-- Each of the paths that are written on an `@import` line is found, in order. -/
theorem importPaths?_quoted {paths : List Text} (hne : paths ≠ [])
    (h : ∀ path ∈ paths, BarePath path) :
    importPaths? ("@import".toList ++
      List.intercalate [','] (paths.map fun path => ' ' :: quotedPath path)) = some paths := by
  obtain ⟨first, rest, rfl⟩ := List.exists_cons_of_ne_nil hne
  obtain ⟨hfirst, hrest⟩ := List.forall_mem_cons.1 h
  -- the first blank belongs to the keyword
  generalize hpieces : rest.map (fun path => ' ' :: quotedPath path) = pieces
  have hline : List.intercalate [','] ((first :: rest).map fun path => ' ' :: quotedPath path) =
      ' ' :: List.intercalate [','] (quotedPath first :: pieces) := by
    rw [List.map_cons, hpieces]
    cases pieces <;> simp
  have hbody : ∃ more, List.intercalate [','] (quotedPath first :: pieces) = '\'' :: more := by
    cases pieces <;> simp [quotedPath]
  have hcomma : ∀ piece ∈ quotedPath first :: pieces, ',' ∉ piece := by
    subst hpieces
    intro piece hmem
    simp only [List.mem_cons, List.mem_map] at hmem
    rcases hmem with rfl | ⟨path, hpath, rfl⟩
    · simp [quotedPath, hfirst.comma]
    · simp [quotedPath, (hrest path hpath).comma]
  have hread : (quotedPath first :: pieces).map importPath = first :: rest := by
    subst hpieces
    rw [List.map_cons, List.map_map, quotedPath, importPath_quoted hfirst]
    have hown : ∀ path ∈ rest, (importPath ∘ fun path => ' ' :: quotedPath path) path = id path :=
      fun path hpath => (importPath_blank _).trans (importPath_quoted (hrest path hpath))
    rw [List.map_congr_left hown, List.map_id]
  have hkept : (first :: rest).filter (fun path => !path.isEmpty) = first :: rest :=
    List.filter_eq_self.2 fun path hpath => by simpa using (h path hpath).nonempty
  obtain ⟨more, hmore⟩ := hbody
  have hsplit := splitImportPaths_intercalate (by simp) hcomma
  rw [hread, hkept, hmore] at hsplit
  rw [hline, hmore, ← hsplit]
  rfl

theorem kind_import (t : Text) : kindOutsideComment ("@import '".toList ++ t) = .importPaths := by
  obtain ⟨hblank, -, -⟩ := kind_of_head (c := '@') (by decide) (by decide) ("import '".toList ++ t)
  unfold kindOutsideComment
  rw [show isBlankLine ("@import '".toList ++ t) = false from hblank]
  rfl

/-- The paths of a line, and what they are written with. -/
theorem barePath_of_mem {t path : Text} (h : path ∈ splitImportPaths t) :
    BarePath path ∧ ∀ c ∈ path, c ∈ t := by
  obtain ⟨hmem, hne⟩ := List.mem_filter.1 h
  obtain ⟨piece, hpiece, rfl⟩ := List.mem_map.1 hmem
  refine ⟨barePath_importPath (Text.not_mem_of_mem_splitOn hpiece) (by simpa using hne), ?_⟩
  exact fun c hc => Text.mem_of_mem_splitOn hpiece (mem_of_mem_importPath hc)

/-- The text of one path of an `@import` line. -/
theorem tells_import {path : Text} (h : BarePath path) (hfeed : '\n' ∉ path) :
    Tells level ("@import '".toList ++ path ++ ['\'']) (.leaf 0 (.importPath level path none)) where
  feed hmem := by
    simp only [List.mem_append] at hmem
    rcases hmem with (hkey | hown) | hend
    · revert hkey
      decide
    · exact hfeed hown
    · revert hend
      decide
  plainEnd := by
    rw [List.getLast?_append_of_ne_nil _ (by simp)]
    decide
  visible := ⟨'@', _, rfl, by decide⟩
  nodes := by
    have hpaths : importPaths? ("@import '".toList ++ path ++ ['\'']) = some [path] := by
      simpa [quotedPath] using
        importPaths?_quoted (List.cons_ne_nil path []) (List.forall_mem_singleton.2 h)
    rw [List.append_assoc, kind_import, ← List.append_assoc, nodes_importPaths hpaths (by simp)]
    rfl

/-! ## `@use` -/

theorem kind_use_written (t : Text) :
    kindOutsideComment ("@use '".toList ++ t) = .useModule := by
  obtain ⟨hblank, -, -⟩ := kind_of_head (c := '@') (by decide) (by decide) ("use '".toList ++ t)
  unfold kindOutsideComment
  rw [show isBlankLine ("@use '".toList ++ t) = false from hblank]
  rfl

/-- The name behind `as` is a word. -/
theorem alias?_word {t word : Text} (h : UseClause.alias? t = some (some word)) :
    word ≠ [] ∧ ∀ c ∈ word, isNameChar c = true := by
  unfold UseClause.alias? at h
  split at h
  · cases h
  · split at h
    · cases h
    · split at h
      · split at h
        · cases h
        · split at h
          · cases h
          · split at h
            · cases h
            · rename_i name _ _ hne
              simp only [Option.some.injEq] at h
              subst h
              exact ⟨fun hnil => hne hnil, fun c hc => List.mem_takeWhile_imp hc⟩
      · cases h

theorem alias?_written {name : Text} (hne : name ≠ []) (hname : ∀ c ∈ name, isNameChar c = true) :
    UseClause.alias? (" as ".toList ++ name) = some (some name) := by
  have hread : UseClause.aliasName? (Text.body (name ++ [])) = some (some name) :=
    UseClause.aliasName?_name hne hname rfl
  rwa [List.append_nil] at hread

theorem mem_of_path? {c : Char} {t path tail : Text} (h : UseClause.path? t = some (path, tail))
    (hc : c ∈ path) : c ∈ t := by
  have hquoted : ∀ {mark : Char}, UseClause.quoted? mark t = some (path, tail) → c ∈ t := by
    intro mark hq
    cases t with
    | nil => cases hq
    | cons d rest =>
      rw [UseClause.quoted?] at hq
      split at hq
      · cases hq
      · split at hq
        · cases hq
          exact List.mem_cons_of_mem _ (List.takeWhile_subset _ hc)
        · cases hq
  unfold UseClause.path? at h
  split at h
  · rename_i hq
    exact hquoted (hq.trans h)
  · split at h
    · rename_i hq
      exact hquoted (hq.trans h)
    · split at h
      · cases h
      · cases h
        exact List.takeWhile_subset _ hc

/-- What a `@use` line says can be written. -/
theorem useClause_spec {clause : UseClause} (h : UseClause.ofLine? line = some clause) :
    (∀ c ∈ clause.path, c ∈ line) ∧ ∀ name, clause.qualifier = some name →
      name ≠ defaultQualifier clause.path → name ≠ [] ∧ ∀ c ∈ name, isNameChar c = true := by
  unfold UseClause.ofLine? at h
  split at h
  · rename_i d rest hprefix
    split at h
    · cases h
    · obtain ⟨⟨path, tail⟩, hpath, rfl⟩ := Option.map_eq_some_iff.1 h
      refine ⟨fun c hc => ?_, fun name hname hother => ?_⟩
      · have hbody := Text.dropPrefix?_eq_some_iff.1 hprefix
        refine List.dropWhile_subset isBlank (show c ∈ line.body from ?_)
        rw [hbody]
        exact List.mem_append_right _ (List.mem_cons_of_mem _
          (List.dropWhile_subset isBlank (mem_of_path? hpath hc)))
      · cases hword : UseClause.alias? tail with
        | none =>
          simp only [hword, Option.getD_none, Option.some.injEq] at hname
          exact absurd hname.symm hother
        | some found =>
          simp only [hword, Option.getD_some] at hname
          subst hname
          exact alias?_word hword
  · cases h

theorem ofLine?_written {path : Text} (hpath : '\'' ∉ path) (tail : Text) :
    UseClause.ofLine? ("@use '".toList ++ path ++ '\'' :: tail) =
      some ⟨path, (UseClause.alias? tail).getD (some (defaultQualifier path))⟩ := by
  have hfound : UseClause.path? ('\'' :: (path ++ '\'' :: tail)) = some (path, tail) := by
    rw [UseClause.path?, UseClause.quoted?_of_ne (by decide), UseClause.quoted?_of_mem hpath]
  rw [List.append_assoc]
  show (UseClause.path? ('\'' :: (path ++ '\'' :: tail))).map _ = _
  rw [hfound]
  rfl

theorem useText_named {path name : Text} (h : name ≠ defaultQualifier path) :
    useText path (some name) = "@use '".toList ++ path ++ '\'' :: (" as ".toList ++ name) := by
  unfold useText
  dsimp only
  rw [if_neg h]
  generalize "@use '".toList = first
  generalize " as ".toList = second
  simp

/-- The text of a `@use` line. -/
theorem tells_use {path : Text} {qualifier : Option Text} (hpath : '\'' ∉ path)
    (hfeed : '\n' ∉ path) (hqualifier : ∀ name, qualifier = some name → name ≠ defaultQualifier path →
      name ≠ [] ∧ ∀ c ∈ name, isNameChar c = true) :
    Tells level (useText path qualifier) (.leaf 0 (.useModule path none qualifier)) := by
  -- every form is the path between quotation marks and what follows it
  have htail : ∃ tail, useText path qualifier = "@use '".toList ++ path ++ '\'' :: tail ∧
      '\n' ∉ tail ∧ ('\'' :: tail).getLast? ≠ some '\r' ∧
      (UseClause.alias? tail).getD (some (defaultQualifier path)) = qualifier := by
    cases qualifier with
    | none =>
      exact ⟨" as *".toList, List.append_assoc .., by decide, by decide, rfl⟩
    | some name =>
      by_cases hdefault : name = defaultQualifier path
      · subst hdefault
        exact ⟨[], if_pos rfl, by decide, by decide, rfl⟩
      · obtain ⟨hne, hname⟩ := hqualifier name rfl hdefault
        refine ⟨" as ".toList ++ name, ?_, ?_, ?_, ?_⟩
        · exact useText_named hdefault
        · intro hmem
          rcases List.mem_append.1 hmem with hkey | hown
          · revert hkey
            decide
          · have hbad := hname '\n' hown
            revert hbad
            decide
        · intro hlast
          rw [← List.cons_append, List.getLast?_append_of_ne_nil _ hne] at hlast
          have hbad := hname '\r' (List.mem_of_getLast? hlast)
          revert hbad
          decide
        · rw [alias?_written hne hname]
          rfl
  obtain ⟨tail, htext, hfeedTail, hlast, hread⟩ := htail
  rw [htext]
  constructor
  · intro hmem
    simp only [List.mem_append, List.mem_cons] at hmem
    rcases hmem with (hkey | hown) | hmark | htail
    · revert hkey
      decide
    · exact hfeed hown
    · revert hmark
      decide
    · exact hfeedTail htail
  · rw [List.getLast?_append_of_ne_nil _ (by simp)]
    exact hlast
  · exact ⟨'@', _, rfl, by decide⟩
  · rw [List.append_assoc, kind_use_written, ← List.append_assoc]
    simp only [nodes, ofLine?_written hpath, hread]

end Line

end IndentedSass
