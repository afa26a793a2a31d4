/-
  Headers of mixins that are read back.

  A header is cut at its first and last parenthesis, then at the commas between the parameters, then
  each parameter at its first colon, and what stands behind the colon is read as a value.  Four scans
  follow the strings and parentheses of a default value; they agree on a value whose strings are
  closed.

  * `Parameter.Proper`: the parameters that are read back; `Parameter.Proper.exists_written` gives a
    text that they are the parts of, `apart_of_proper` tells them apart in a list;
  * `readFile_mixin`: the line of a header is read as the mixin, and declares its parameters.
-/
import Mathlib
import IndentedSass.Proofs.Reader.Parameters
import IndentedSass.Proofs.Reader.Levels
import IndentedSass.Proofs.Reader.Restored
import IndentedSass.Proofs.Scope.Levels

namespace IndentedSass

/-! ## Parameters -/

/-- A character of the name of a parameter, behind the `$`. -/
def isParameterChar (c : Char) : Bool :=
  !isQuoteMark c && !isWhite c && !List.contains [':', ',', '(', ')', '\\'] c

/-- A default value that was read from a text with closed strings and no other white space than
    blanks.  As it is written, the parentheses outside of its strings match, and no comma stands
    outside of both. -/
def Value.Proper (value : List Value) : Prop :=
  ∃ (lookup : Lookups) (place : ValuePlace) (raw : Text), value = (readValue lookup place raw).1 ∧
    raw.Closed .paired ∧ (∀ c ∈ raw, isWhite c = true → isBlank c = true) ∧
    Text.OneArgument 0 .outside (Value.render value) ∧
    Text.argumentEnd 0 .outside (Value.render value) = (0, .outside)

/-- A parameter that may stand in any list of parameters. -/
structure Parameter.Proper (p : Parameter) : Prop where
  name : ∃ rest, p.name = '$' :: rest ∧ ∀ c ∈ rest, isParameterChar c = true
  default? : ∀ value, p.default? = some value → Value.Proper value

theorem isParameterChar_iff {c : Char} : isParameterChar c = true ↔
    isQuoteMark c = false ∧ isWhite c = false ∧
      c ≠ ':' ∧ c ≠ ',' ∧ c ≠ '(' ∧ c ≠ ')' ∧ c ≠ '\\' := by
  simp [isParameterChar, and_assoc]

namespace Parameter

variable {p : Parameter}

theorem Proper.isParameterChar_name (h : p.Proper) : ∀ c ∈ p.name, isParameterChar c = true := by
  obtain ⟨rest, hname, hrest⟩ := h.name
  rw [hname]
  exact List.forall_mem_cons.2 ⟨by decide, hrest⟩

/-- No argument ends in the name of a parameter, or is left open in it. -/
theorem Proper.entire_name (h : p.Proper) : Text.Entire p.name := by
  refine Text.entire_plain fun c hc => ?_
  obtain ⟨hmark, -, -, hcomma, hopen, hclose, -⟩ :=
    isParameterChar_iff.1 (h.isParameterChar_name c hc)
  exact ⟨hmark, hcomma, hopen, hclose⟩

/-- The text of a parameter is one argument, in which nothing is left open. -/
theorem Proper.entire_text (h : p.Proper) : Text.Entire p.text := by
  unfold Parameter.text
  split
  · rename_i value hvalue
    obtain ⟨-, -, -, -, -, -, hone, hend⟩ := h.default? value hvalue
    exact h.entire_name.append ⟨⟨nofun, hone⟩, hend⟩
  · exact h.entire_name

theorem Proper.trim_name (h : p.Proper) : p.name.trim = p.name := by
  refine Text.trim_eq_self (fun c hc => ?_) fun c hc => ?_
  · exact (isParameterChar_iff.1 (h.isParameterChar_name c (List.mem_of_head? hc))).2.1
  · exact (isParameterChar_iff.1 (h.isParameterChar_name c (List.mem_of_getLast? hc))).2.1

/-- A name is cut off at the colon behind it. -/
theorem Proper.splitColon?_name (h : p.Proper) (t : Text) :
    Line.splitColon? .outside false (p.name ++ t) =
      (Line.splitColon? .outside false t).map fun (a, b) => (p.name ++ a, b) := by
  refine Line.splitColon?_plain (fun c hc => ?_) t
  obtain ⟨hmark, -, hcolon, -, -, -, hbackslash⟩ := isParameterChar_iff.1 (h.isParameterChar_name c hc)
  simp [Line.isPlain, hmark, hcolon, hbackslash]

end Parameter

/-- A default value is read from a text without white space at its end. -/
theorem Value.Proper.exists_raw {value : List Value} (h : Value.Proper value) :
    ∃ raw : Text, valueParts raw = Value.shape value ∧ Value.Closed (valueParts raw) ∧
      ∀ c ∈ raw.getLast?, isWhite c = false := by
  obtain ⟨lookup, place, raw, rfl, hclosed, hwhite, -⟩ := h
  obtain ⟨ws, hw, hsplit⟩ := raw.exists_white
  have hblanks : Blanks ws := fun c hc =>
    hwhite c (by rw [hsplit]; exact List.mem_append_right _ hc) (hw c hc)
  have hclosed' : raw.trimEnd.Closed .paired := Text.closed_trimEnd_iff.2 hclosed
  have hread : (readValue lookup place raw).1 = (readValue lookup place raw.trimEnd).1 := by
    conv_lhs => rw [hsplit]
    exact readValue_blanks lookup place hclosed' hblanks
  refine ⟨raw.trimEnd, ?_, ?_, raw.getLast?_trimEnd⟩
  · rw [hread, shape_eq_valueParts]
  · -- every string is closed in its part, also in the last one
    rw [valueParts, Value.closed_shape]
    have hall := closedAll_readValue (fun _ _ _ _ => none) ⟨0, 0, 0⟩ hclosed'
    generalize (readValue (fun _ _ _ _ => none) ⟨0, 0, 0⟩ raw.trimEnd).1 = vs at hall
    rcases vs.eq_nil_or_concat' with rfl | ⟨front, last, rfl⟩
    · exact ⟨rfl, fun v hv => absurd hv (Option.not_mem_none v)⟩
    · rw [Value.closedAll_append, Bool.and_eq_true] at hall
      rw [Value.Closed, List.dropLast_concat, List.getLast?_concat]
      refine ⟨hall.1, fun v hv => .inl ?_⟩
      cases hv
      simpa [Value.closedAll] using hall.2

namespace Parameter

variable {p : Parameter}

/-- A parameter is the parts of a text without white space at its end. -/
theorem Proper.exists_written (h : p.Proper) :
    ∃ written, Parameter.parts written = p.shape ∧ (Parameter.parts written).Clear ∧
      ∀ c ∈ written.getLast?, isWhite c = false := by
  obtain ⟨name, default?⟩ := p
  cases default? with
  | none =>
    have hnone : Line.splitDeclaration? name = none := by
      have hcut := h.splitColon?_name []
      rw [List.append_nil] at hcut
      rw [Line.splitDeclaration?, hcut]
      rfl
    have hparts : Parameter.parts name = ⟨name, none⟩ := by
      rw [Parameter.parts, hnone]
      exact congrArg (fun n => (⟨n, none⟩ : Parameter)) h.trim_name
    rw [show Parameter.shape ⟨name, none⟩ = ⟨name, none⟩ from rfl]
    refine ⟨name, hparts, ?_, fun c hc => ?_⟩
    · rw [hparts]
      intro value hvalue
      cases hvalue
    · exact (isParameterChar_iff.1 (h.isParameterChar_name c (List.mem_of_getLast? hc))).2.1
  | some value =>
    obtain ⟨raw, hraw, hclosed, hlast⟩ := (h.default? value rfl).exists_raw
    have hparts : Parameter.parts (name ++ ':' :: raw) = ⟨name, some (valueParts raw)⟩ := by
      rw [Parameter.parts, Line.splitDeclaration?, h.splitColon?_name]
      have hname : Text.trim (name ++ []) = name := (congrArg _ name.append_nil).trans h.trim_name
      exact congrArg (fun n => (⟨n, some (valueParts raw)⟩ : Parameter)) hname
    refine ⟨name ++ ':' :: raw, ?_, ?_, fun c hc => ?_⟩
    · rw [hparts, hraw]
      rfl
    · rw [hparts]
      intro value' hvalue
      cases hvalue
      refine ⟨hclosed, fun hbackslash => ?_⟩
      have hc := isParameterChar_iff.1
        (h.isParameterChar_name '\\' (List.mem_of_getLast? hbackslash))
      exact hc.2.2.2.2.2.2 rfl
    · rw [List.getLast?_append_of_ne_nil _ (by simp)] at hc
      cases raw with
      | nil =>
        cases hc
        decide
      | cons d rest => exact hlast c (by rwa [List.getLast?_cons_cons] at hc)

/-- A parameter is read back from its text. -/
theorem Proper.parts_eq (h : p.Proper) : Parameter.parts p.text = p.shape := by
  obtain ⟨written, hparts, hclear, -⟩ := h.exists_written
  rw [← text_shape, ← hparts]
  exact Parameter.parts_text hclear

theorem Proper.bare_text (h : p.Proper) : Text.Bare p.text := by
  obtain ⟨written, hparts, -, hlast⟩ := h.exists_written
  rw [← text_shape, ← hparts]
  exact Parameter.bare_text hlast

end Parameter

/-- Parameters can be told apart in a list of them. -/
theorem apart_of_proper {parameters : List Parameter} (h : ∀ p ∈ parameters, p.Proper) :
    Text.Apart (parameters.map Parameter.text) := by
  have hwhole : ∀ t ∈ parameters.map Parameter.text, Text.Entire t := by
    intro t ht
    obtain ⟨p, hp, rfl⟩ := List.mem_map.1 ht
    exact (h p hp).entire_text
  refine ⟨fun t ht => (hwhole t ht).one,
    fun t ht => (hwhole t (List.mem_of_mem_dropLast ht)).closed, ?_⟩
  intro hlast
  obtain ⟨p, hp, hempty⟩ := List.mem_map.1 (List.mem_of_getLast? hlast)
  obtain ⟨rest, hname, -⟩ := (h p hp).name
  unfold Parameter.text at hempty
  rw [hname] at hempty
  split at hempty <;> cases hempty

/-! ## Reading a header -/

namespace Reader

variable {find : Nat → Finder} {r r' : Reader} {index : Nat} {line : Text}

/-- The line of a mixin adds its block, and its parameters become the deepest level that is
    visible. -/
theorem Reads.mixin (hs : r.Sound) (h : Reads find r index line r')
    (hkind : r.kindOf line = .mixin) :
    let level := r.levelOf (r.lineInfo index line)
    let parameters := (MixinClause.ofLine line).parameters.map
      (Parameter.ofText (r.lookup find) index level)
    (∃ path, Tree.nodeAt? r'.nodes path = some (.block index level
      (.mixin (MixinClause.ofLine line).spelling (MixinClause.ofLine line).name parameters) [])) ∧
    ∀ k, r'.scope.declared.getD k [] =
      if k ≤ level then r.scope.declared.getD k []
      else if k = level + 1 then parameters.map (fun p => ⟨p.name, index⟩) else [] := by
  intro level parameters
  cases h with
  | waits hk =>
    rw [hkind] at hk
    cases hk
  | goesOn _ hk =>
    rw [hkind] at hk
    cases hk
  | steps _ _ hstep =>
    rw [hkind] at hstep
    have htarget := (hs.settled (r.lineInfo index line)).hasTarget (r.lineInfo index line)
    obtain ⟨header, hopens, hnodes, hscope⟩ := hstep.opened rfl
    cases hopens
    refine ⟨⟨(r.settled (r.lineInfo index line)).slot (r.lineInfo index line), ?_⟩, fun k => ?_⟩
    · rw [hstep.nodes_eq, hnodes]
      exact nodeAt?_slot htarget
    · rw [hscope]
      exact Scope.declared_getD_opened ..

end Reader

/-- A line that is a mixin is a block of the tree, and its parameters are declared behind what is
    visible at its own level. -/
theorem readFile_exists_mixin {σ : Type} (resolver : Resolver σ) (files : σ) (uri : Uri)
    (style : IndentStyle) (text : Text) (n : Nat) {line : Text}
    (hline : (text.lines.map Text.dropReturn)[n]? = some line)
    (hkind : Line.kind style.tabStop
      (Reader.commentOf style ((text.lines.map Text.dropReturn).take n)) line = .mixin) :
    let before := Reading.afterLines resolver files uri style text n
    let after := Reading.afterLines resolver files uri style text (n + 1)
    let level := before.reader.levelOf (before.reader.lineInfo n line)
    ∃ path read body, Tree.nodeAt? (readFile resolver files uri style text).entry.body path =
        some (.block n level
          (.mixin (MixinClause.ofLine line).spelling (MixinClause.ofLine line).name read) body) ∧
      read.map Parameter.shape =
        ((MixinClause.ofLine line).parameters.map Prod.fst).map Parameter.parts ∧
      ∀ k, after.reader.scope.declared.getD k [] =
        if k ≤ level then before.reader.scope.declared.getD k []
        else if k = level + 1 then read.map (fun p => ⟨p.name, n⟩) else [] := by
  intro before after level
  obtain ⟨raw, hraw, hdrop⟩ := Option.map_eq_some_iff.1 (List.getElem?_map .. ▸ hline)
  have hafter : Reader.After uri style _ before.reader :=
    Reading.after_afterLines resolver files uri style text n
  have hmixin : before.reader.kindOf line = .mixin := by
    rw [List.map_take] at hafter
    rw [hafter.kindOf_eq, hkind]
  have hreads := Reading.readLine_reads resolver hafter.sound n line
  rw [← hdrop, ← Reading.afterLines_succ resolver files uri style hraw, hdrop] at hreads
  obtain ⟨⟨path, hnode⟩, hdeclared⟩ := hreads.mixin hafter.sound hmixin
  have hextends := Reading.readFile_extends resolver files uri style text
    (List.take_append_drop (n + 1) text.lines).symm
  obtain ⟨body, hbody⟩ := hextends.block hnode
  exact ⟨path, _, body, hbody, Parameter.map_shape_ofText .., hdeclared⟩

/-- The header of a mixin with parameters that are proper is read from its text: with its spelling,
    its name, and its parameters and their default values, wherever the references in these lead.
    It declares its parameters, and nothing else, behind what is visible at its own level. -/
theorem readFile_mixin {σ : Type} (resolver : Resolver σ) (files : σ) (uri : Uri)
    (style : IndentStyle) (text : Text) (n : Nat) {pre name line : Text} {spelling : Spelling}
    {parameters : List Parameter} (hname : name.trim = name) (hparen : '(' ∉ name)
    (hparameters : ∀ p ∈ parameters, p.Proper) (hpre : Blanks pre)
    (hwritten : line = pre ++ (Header.mixin spelling name parameters).text)
    (hline : (text.lines.map Text.dropReturn)[n]? = some line)
    (hcomment : Line.kind style.tabStop
      (Reader.commentOf style ((text.lines.map Text.dropReturn).take n)) line ≠
        .blockCommentContent) :
    let before := Reading.afterLines resolver files uri style text n
    let after := Reading.afterLines resolver files uri style text (n + 1)
    let level := before.reader.levelOf (before.reader.lineInfo n line)
    (∃ path read body, Tree.nodeAt? (readFile resolver files uri style text).entry.body path =
        some (.block n level (.mixin spelling name read) body) ∧
      read.map Parameter.shape = parameters.map Parameter.shape) ∧
    ∀ k, after.reader.scope.declared.getD k [] =
      if k ≤ level then before.reader.scope.declared.getD k []
      else if k = level + 1 then parameters.map (fun p => ⟨p.name, n⟩) else [] := by
  intro before after level
  have htext := Header.text_eq spelling name parameters
  have hkind : Line.kind style.tabStop
      (Reader.commentOf style ((text.lines.map Text.dropReturn).take n)) line = .mixin := by
    rw [Line.kind_eq_outside hcomment, hwritten, Line.kindOutsideComment_blanks hpre, htext,
      List.append_assoc]
    exact Line.kind_mixin spelling _
  -- the clause of the line is what was written
  have hbare : ∀ t ∈ parameters.map Parameter.text, Text.Bare t := by
    intro t ht
    obtain ⟨p, hp, rfl⟩ := List.mem_map.1 ht
    exact (hparameters p hp).bare_text
  obtain ⟨hspelling', hname', hlist'⟩ :=
    MixinClause.ofLine_text htext hname hparen (apart_of_proper hparameters) hbare
  obtain ⟨hspelling, hclause, hlist⟩ :=
    MixinClause.ofLine_blanks hpre (Header.mixin spelling name parameters).text
  rw [← hwritten] at hspelling hclause hlist
  obtain ⟨path, read, body, hnode, hread, hdeclared⟩ :=
    readFile_exists_mixin resolver files uri style text n hline hkind
  have hshape : read.map Parameter.shape = parameters.map Parameter.shape := by
    rw [hread, hlist, hlist', List.map_map]
    exact List.map_congr_left fun p hp => (hparameters p hp).parts_eq
  rw [hspelling, hclause, hspelling', hname'] at hnode
  refine ⟨⟨path, read, body, hnode, hshape⟩, fun k => ?_⟩
  have hnames := congrArg (List.map fun p : Parameter => (⟨p.name, n⟩ : Declared)) hshape
  rw [List.map_map, List.map_map (l := parameters)] at hnames
  rw [hdeclared k]
  exact ite_congr rfl (fun _ => rfl) fun _ => ite_congr rfl (fun _ => hnames) fun _ => rfl

/-- A mixin below another one, with a default value that is a call with a string in it. -/
theorem readFile_mixin_nested :
    let uri : Uri := ⟨"file".toList, none, "/a.sass".toList, none, none⟩
    let value : List Value := (readValue (fun _ _ _ _ => none) ⟨0, 0, 0⟩ "f($a, \",)\") ".toList).1
    let parameters : List Parameter := [⟨"$b".toList, none⟩, ⟨"$c".toList, some value⟩]
    let text : Text := "@mixin m($a)\n  =n($b, $c: f($a, \",)\"))\n    d: $c".toList
    ∃ path read body,
      Tree.nodeAt? (readFile .detached () uri {} text).entry.body path =
        some (.block 1 1 (.mixin .sigil "n".toList read) body) ∧
      read.map Parameter.shape = parameters.map Parameter.shape := by
  intro uri value parameters text
  have hb : Parameter.Proper ⟨"$b".toList, none⟩ :=
    ⟨⟨['b'], by decide +kernel, List.forall_mem_singleton.2 (by decide)⟩, nofun⟩
  have hblank : ∀ c ∈ "f($a, \",)\") ".toList, isWhite c = true → isBlank c = true := by
    have hall : ("f($a, \",)\") ".toList.all fun c => !isWhite c || isBlank c) = true := by
      decide +kernel
    intro c hc hwhite
    simpa [hwhite] using List.all_eq_true.1 hall c hc
  have hvalue : Value.Proper value :=
    ⟨_, _, _, rfl, by decide +kernel, hblank, by decide +kernel, by decide +kernel⟩
  have hc : Parameter.Proper ⟨"$c".toList, some value⟩ :=
    ⟨⟨['c'], by decide +kernel, List.forall_mem_singleton.2 (by decide)⟩,
      fun _ h => Option.some.inj h ▸ hvalue⟩
  have hproper : ∀ p ∈ parameters, p.Proper :=
    List.forall_mem_cons.2 ⟨hb, List.forall_mem_cons.2 ⟨hc, nofun⟩⟩
  have hwritten : "  =n($b, $c: f($a, \",)\"))".toList =
      Indent.ofLevel {} 1 ++ (Header.mixin .sigil "n".toList parameters).text := by decide +kernel
  obtain ⟨hnode, -⟩ := readFile_mixin .detached () uri {} text 1 (by decide +kernel)
    (by decide +kernel) hproper (Indent.blanks_ofLevel {} 1) hwritten (by decide +kernel)
    (by decide +kernel)
  have hlevel : (Reading.afterLines .detached () uri {} text 1).reader.levelOf
      ((Reading.afterLines .detached () uri {} text 1).reader.lineInfo 1
        "  =n($b, $c: f($a, \",)\"))".toList) = 1 := by decide +kernel
  rwa [hlevel] at hnode

end IndentedSass
