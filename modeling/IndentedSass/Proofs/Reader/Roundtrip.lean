/-
  Canonical texts are read and written back as they are.

  A canonical text is given by its lines: each is empty, or content at a depth
  (`WrittenLine`).  The depths nest properly, each content is written back as it is
  when it is read on its own, no two empty lines follow each other, and `@use` comes
  before everything else but variables and comments (`CanonicalLines`).

  * `CanonicalLines.wellNested`: the lines of such a text nest properly for the reader;
  * `Reader.Writes` is the invariant: the tree that was read shows the lines that were
    read, and `@use` may still come where the text has one;
  * `render_readDetached`: reading such a text and writing the tree gives the text back.
-/
import Mathlib
import IndentedSass.Proofs.Reader.Nesting
import IndentedSass.Proofs.Reader.Written

namespace IndentedSass

/-- The lines of these kinds may come before `@use`. -/
def LineKind.allowsUse : LineKind → Bool
  | .blank | .useModule | .variableDecl | .comment | .blockCommentStart => true
  | _ => false

/-- A line as it is written: empty, or content at a depth. -/
inductive WrittenLine where
  | empty
  | content (depth : Nat) (text : Text)
  deriving DecidableEq, Repr

namespace WrittenLine

/-- The text of a line. -/
def text (style : IndentStyle) : WrittenLine → Text
  | empty => []
  | content depth text => Indent.ofLevel style depth ++ text

/-- The line as it is read. -/
def read (style : IndentStyle) (w : WrittenLine) : Text := (w.text style).dropReturn

/-- The kind of a line, when no comment is open before it. -/
def kind (style : IndentStyle) (w : WrittenLine) : LineKind :=
  Line.kindOutsideComment (w.read style)

/-- What is shown of a line when the tree is written. -/
def shown (style : IndentStyle) (w : WrittenLine) : Bool × Text :=
  (w == empty, w.text style)

/-- The lines nest properly, when the first of them may have depth `deepest`: below a
    line that opens a block a line may be one deeper, below another one it may not. -/
def Nested (style : IndentStyle) : (deepest : Nat) → List WrittenLine → Prop
  | _, [] => True
  | deepest, empty :: rest => Nested style deepest rest
  | deepest, content depth text :: rest =>
    depth ≤ deepest ∧
      Nested style (if ((content depth text).kind style).opensBlock then depth + 1 else depth) rest

end WrittenLine

open WrittenLine (empty content)

/-- The conditions on the lines of a canonical text. -/
structure CanonicalLines (uri : Uri) (style : IndentStyle) (lines : List WrittenLine) : Prop where
  /-- The first line is at depth 0, and the others nest below it. -/
  nested : WrittenLine.Nested style 0 lines
  /-- A line that is not empty has content, which is written back as it is and leaves no
      block comment open. -/
  canonical : ∀ depth text, content depth text ∈ lines → text ≠ [] ∧
    Line.Canonical uri style text ∧ Line.commentAfter style.tabStop none text.dropReturn = none
  /-- No two empty lines follow each other. -/
  spaced : lines.IsChain fun a b => a = empty → b ≠ empty
  /-- A `@use` line is one, it is at depth 0, and it comes before other lines. -/
  use : ∀ before depth text after, lines = before ++ content depth text :: after →
    (content depth text).kind style = .useModule →
      depth = 0 ∧
      (∃ path target qualifier,
        (readDetached uri style text).body = [.leaf 0 (.useModule path target qualifier)]) ∧
      ∀ w ∈ before, (w.kind style).allowsUse = true
  /-- The columns can be told from each other. -/
  columns : ∀ depth text, content depth text ∈ lines → depth * style.tabStop < 2 ^ 50

variable {uri : Uri} {style : IndentStyle} {lines : List WrittenLine} {d : Nat} {t : Text}

/-! ## Single lines -/

theorem Indent.blanks_ofLevel (style : IndentStyle) (n : Nat) : Blanks (Indent.ofLevel style n) := by
  intro c hc
  unfold Indent.ofLevel at hc
  split at hc
  · rw [List.eq_of_mem_replicate hc]
    decide
  · rw [List.eq_of_mem_replicate hc]
    decide

theorem Text.dropReturn_append {pre : Text} (hne : t ≠ []) :
    (pre ++ t).dropReturn = pre ++ t.dropReturn := by
  unfold Text.dropReturn
  rw [List.getLast?_append_of_ne_nil _ hne]
  split
  · rw [List.dropLast_append_of_ne_nil hne]
  · rfl

/-- The lines of a canonical text, one by one. -/
structure WrittenLine.Proper (uri : Uri) (style : IndentStyle) (d : Nat) (t : Text) : Prop where
  line : '\n' ∉ t
  nonempty : t ≠ []
  canonical : Line.Canonical uri style t
  closed : Line.commentAfter style.tabStop none t.dropReturn = none
  column : d * style.tabStop < 2 ^ 50

namespace WrittenLine.Proper

variable (h : WrittenLine.Proper uri style d t)

include h

theorem read_eq : (content d t).read style = Indent.ofLevel style d ++ t.dropReturn :=
  Text.dropReturn_append h.nonempty

theorem kind_eq : (content d t).kind style = Line.kindOutsideComment t.dropReturn := by
  rw [WrittenLine.kind, h.read_eq, Line.kindOutsideComment_blanks (Indent.blanks_ofLevel style d)]

theorem visible : Line.isBlankLine ((content d t).read style) = false := by
  rw [h.read_eq, Line.isBlankLine_blanks (Indent.blanks_ofLevel style d)]
  exact isBlankLine_of_canonical h.line h.nonempty h.canonical

theorem kind_ne_blank : (content d t).kind style ≠ .blank := by
  intro hk
  rw [WrittenLine.kind, ← Line.kind_none 0] at hk
  have hvisible := h.visible
  rw [Line.kind_eq_blank_iff.1 hk] at hvisible
  cases hvisible

/-- What the line is written back as. -/
theorem texts_eq : Line.texts ((content d t).read style) ((content d t).kind style) = [t] := by
  rw [h.kind_eq, h.read_eq, Line.texts_blanks (Indent.blanks_ofLevel style d)]
  exact texts_of_canonical h.line h.nonempty h.canonical

theorem width_eq (hstyle : style.insertSpaces = true → 0 < style.tabSize) :
    Indent.width style.tabStop ((content d t).read style) = d * style.tabStop := by
  rw [h.read_eq, Indent.width_ofLevel hstyle,
    width_of_canonical h.line h.nonempty h.canonical, Nat.add_zero]

theorem depth_eq (hstyle : style.insertSpaces = true → 0 < style.tabSize) :
    Line.depth style.tabStop ((content d t).read style) = d := by
  rw [Line.depth, h.width_eq hstyle, Nat.mul_div_cancel _ style.tabStop_pos]

theorem depth_lt : d < 2 ^ 50 :=
  Nat.lt_of_le_of_lt (Nat.le_mul_of_pos_right d style.tabStop_pos) h.column

/-- No comment is open after the line. -/
theorem commentAfter_eq : Line.commentAfter style.tabStop none ((content d t).read style) = none := by
  have hclosed := h.closed
  unfold Line.commentAfter at hclosed ⊢
  rw [Line.kind_none] at hclosed ⊢
  rw [show Line.kindOutsideComment _ = _ from h.kind_eq, h.read_eq,
    Line.leavesCommentOpen_blanks (Indent.blanks_ofLevel style d)]
  generalize Line.kindOutsideComment t.dropReturn = kind at *
  cases kind with
  | blockCommentStart =>
    dsimp only at hclosed ⊢
    split at hclosed
    · cases hclosed
    · rename_i hopen
      rw [if_neg hopen]
  | blockCommentContent => simp
  | _ => rfl

end WrittenLine.Proper

theorem CanonicalLines.proper (h : CanonicalLines uri style lines)
    (hfeed : ∀ w ∈ lines, '\n' ∉ w.text style) (hmem : content d t ∈ lines) :
    WrittenLine.Proper uri style d t := by
  obtain ⟨hne, hcanonical, hclosed⟩ := h.canonical d t hmem
  refine ⟨fun hin => ?_, hne, hcanonical, hclosed, h.columns d t hmem⟩
  exact hfeed _ hmem (List.mem_append_right _ hin)

/-- The clause of a line that is a `@use` on its own. -/
theorem WrittenLine.Proper.useClause (h : WrittenLine.Proper uri style d t)
    (hk : (content d t).kind style = .useModule)
    (huse : ∃ path target qualifier,
      (readDetached uri style t).body = [.leaf 0 (.useModule path target qualifier)]) :
    ∃ clause, UseClause.ofLine? ((content d t).read style) = some clause := by
  have hclause : UseClause.ofLine? ((content d t).read style) =
      UseClause.ofLine? t.dropReturn := by
    rw [h.read_eq, UseClause.ofLine?, Text.body_blanks (Indent.blanks_ofLevel style d)]
    rfl
  obtain ⟨path, target, qualifier, hbody⟩ := huse
  obtain ⟨nodes, r, r', hstep, hallowed, -, hnodes⟩ := readDetached_line uri style h.line
    (isBlankLine_of_canonical h.line h.nonempty h.canonical)
  rw [hclause]
  rw [← h.kind_eq, hk] at hstep
  rw [hnodes] at hbody
  subst hbody
  generalize hn : [Node.leaf 0 (.useModule path target qualifier)] = nodes at hstep
  cases hstep with
  | opens _ ho => cases ho
  | closes _ hc =>
    cases hc with
    | noColon hkind => simp at hkind
    | noModule => cases hn
  | keeps _ hkeeps =>
    cases hkeeps
    cases hn
  | uses _ _ _ hclause => exact ⟨_, hclause⟩

/-! ## The nesting of the lines -/

/-- The lines of a canonical text nest properly for the reader. -/
theorem WrittenLine.wellNested (hstyle : style.insertSpaces = true → 0 < style.tabSize)
    {deepest : Nat} (hproper : ∀ d t, content d t ∈ lines → WrittenLine.Proper uri style d t)
    (hnested : WrittenLine.Nested style deepest lines) :
    Line.WellNested style.tabStop deepest none (lines.map (WrittenLine.read style)) := by
  induction lines generalizing deepest with
  | nil => trivial
  | cons w rest ih =>
    have hrest := fun d t hmem => hproper d t (List.mem_cons_of_mem w hmem)
    cases w with
    | empty => exact ⟨.inl rfl, ih hrest hnested⟩
    | content d t =>
      have hp := hproper d t (List.mem_cons_self ..)
      obtain ⟨hle, hnext⟩ := hnested
      have hdepth := hp.depth_eq hstyle
      have hkind : Line.kind style.tabStop none ((content d t).read style) =
        (content d t).kind style := rfl
      refine ⟨.inr ⟨?_, ?_, ?_⟩, ?_⟩
      · exact Line.kindOutsideComment_ne_content _
      · rw [hp.width_eq hstyle]
        exact Nat.dvd_mul_left _ _
      · rw [hdepth]
        exact hle
      · rw [hp.commentAfter_eq, Line.deepestAfter, hkind, if_neg hp.kind_ne_blank, hdepth]
        exact ih hrest hnext

/-- No comment is open after the lines of a canonical text. -/
theorem WrittenLine.commentOf_eq
    (hproper : ∀ d t, content d t ∈ lines → WrittenLine.Proper uri style d t) :
    Reader.commentOf style (lines.map (WrittenLine.read style)) = none := by
  unfold Reader.commentOf
  induction lines with
  | nil => rfl
  | cons w rest ih =>
    have hrest := ih fun d t hmem => hproper d t (List.mem_cons_of_mem w hmem)
    rw [List.map_cons, List.foldl_cons]
    cases w with
    | empty => exact hrest
    | content d t => rwa [(hproper d t (List.mem_cons_self ..)).commentAfter_eq]

/-! ## What a tree shows -/

theorem Tree.Spine.shown_graft {nodes : List Node} {path : TreePath} (h : Tree.Spine nodes path)
    (style : IndentStyle) (added : List Node) :
    (Tree.listing (Tree.graft added nodes path)).map (Node.shown style) =
      (Tree.listing nodes).map (Node.shown style) ++
        (Tree.listing added).map (Node.shown style) := by
  refine h.listing_graft (fun line level header inner inner' => ?_) added
  rw [Node.shown, Node.shown, Node.isBlank_block, Node.isBlank_block]
  rfl

theorem shown_blanks (style : IndentStyle) (blanks : List Nat) :
    (Tree.listing (blanks.map (.leaf · .blank))).map (Node.shown style) =
      blanks.map fun _ => (true, [[]]) := by
  induction blanks with
  | nil => rfl
  | cons index rest ih =>
    simp only [List.map_cons, Tree.listing, List.map_append, ih]
    rfl

/-! ## The invariant -/

namespace Reader

variable {find : Nat → Finder} {r r' : Reader} {info : LineInfo} {line : Text}
  {kind : LineKind} {nodes : List Node} {first : List WrittenLine}

/-- The tree shows the lines that were read, and `@use` may come after lines that allow
    it. -/
structure Writes (style : IndentStyle) (first : List WrittenLine) (r : Reader) : Prop where
  shown : (Tree.listing r.nodes).map (Node.shown style) ++
      r.pendingBlanks.map (fun _ => (true, [[]])) =
    first.map fun w => ((w.shown style).1, [(w.shown style).2])
  use : (∀ w ∈ first, (w.kind style).allowsUse = true) → r.useAllowed = true

/-- The lines that may come before `@use` do not forbid it. -/
theorem Step.useAllowed_eq (h : Step find r info line kind nodes r')
    (hk : kind = Line.kindOutsideComment line) (hallows : kind.allowsUse = true)
    (huse : kind = .useModule → ∃ clause, UseClause.ofLine? line = some clause) :
    r'.useAllowed = r.useAllowed := by
  cases h with
  | opens _ ho => cases ho <;> cases hallows
  | closes _ hc =>
    cases hc with
    | noColon hkind hd =>
      rcases hkind with rfl | rfl
      · cases hallows
      · have hsome := Line.splitDeclaration?_isSome hk.symm
        rw [hd] at hsome
        cases hsome
    | noModule _ hm =>
      obtain ⟨clause, hclause⟩ := huse rfl
      rw [hm] at hclause
      cases hclause
    | _ => cases hallows
  | imports => cases hallows
  | declares | keeps | comments | uses => rfl

/-- A line that is added at the end of the last branch is shown behind the lines before
    it. -/
theorem Step.listing_shown {e : Nat} (style : IndentStyle)
    (h : Step find (r.settled info) info line kind nodes r')
    (ha : AtDepth e info r) (huse : r.useAllowed = true → r.scope.blocks = [])
    (hlate : kind = .useModule → r.useAllowed = true) {t : Text} (ht : Line.texts line kind = [t]) :
    (Tree.listing r'.nodes).map (Node.shown style) =
      (Tree.listing r.nodes).map (Node.shown style) ++
        r.pendingBlanks.map (fun _ => (true, [[]])) ++ [(false, [Indent.ofLevel style e ++ t])] := by
  have hshown := h.shown style huse hlate
  rw [ht, show (r.settled info).levelOf info = e from ha.level] at hshown
  rw [h.settled_nodes, ha.spine.shown_graft, Tree.listing_append, List.map_append, shown_blanks,
    listing_fresh h.fresh, hshown, ← List.append_assoc]
  rfl

/-- A blank line waits to be shown. -/
theorem Writes.waits (hw : Writes style first r) (index : Nat) :
    Writes style (first ++ [empty])
      { r with openComment := none, pendingBlanks := r.pendingBlanks ++ [index] } := by
  refine ⟨?_, fun hallows => hw.use fun w hmem => hallows w (List.mem_append_left _ hmem)⟩
  dsimp only
  rw [List.map_append, List.map_append, ← hw.shown, ← List.append_assoc]
  rfl

/-- A line that is not blank is shown behind the others. -/
theorem Writes.step {d : Nat} {t : Text} (hw : Writes style first r)
    (hproper : WrittenLine.Proper uri style d t)
    (hblocks : r.useAllowed = true → r.scope.blocks = [])
    (huse : (content d t).kind style = .useModule →
      (∃ clause, UseClause.ofLine? ((content d t).read style) = some clause) ∧
        ∀ w ∈ first, (w.kind style).allowsUse = true)
    (ha : AtDepth d info r)
    (h : Step find (r.settled info) info ((content d t).read style) ((content d t).kind style)
      nodes r') :
    Writes style (first ++ [content d t]) r' := by
  have hpending : r'.pendingBlanks = [] := h.frame.2.2.2.1
  refine ⟨?_, fun hallows => ?_⟩
  · rw [h.listing_shown style ha hblocks (fun hk => hw.use (huse hk).2) hproper.texts_eq, hw.shown,
      hpending, List.map_append]
    simp [WrittenLine.shown, WrittenLine.text]
  · have hline := hallows (content d t) (by simp)
    rw [h.useAllowed_eq rfl hline fun hk => (huse hk).1]
    exact hw.use fun w hmem => hallows w (List.mem_append_left _ hmem)

end Reader

/-! ## The round trip -/

/-- The last of the lines that were read, of the lines of a text. -/
theorem WrittenLine.of_snoc {done : List Text} {line : Text} {first : List WrittenLine}
    (h : done ++ [line] = first.map (WrittenLine.read style)) :
    ∃ before w, first = before ++ [w] ∧ done = before.map (WrittenLine.read style) ∧
      line = w.read style := by
  obtain ⟨before, last, rfl, hdone, hlast⟩ := List.map_eq_append_iff.1 h.symm
  obtain ⟨w, rfl, hw⟩ := List.map_eq_singleton_iff.1 hlast
  exact ⟨before, w, rfl, hdone.symm, hw.symm⟩

/-- The tree of a canonical text shows its lines. -/
theorem CanonicalLines.writes {text : Text}
    (hstyle : style.insertSpaces = true → 0 < style.tabSize)
    (hlines : text.lines = lines.map (WrittenLine.text style))
    (hcanonical : CanonicalLines uri style lines) :
    Reader.Writes style lines
      (Reading.readLines .detached ⟨.start uri style, (), []⟩ 0 text.lines).reader := by
  have hfeed : ∀ w ∈ lines, '\n' ∉ w.text style := fun w hw =>
    Text.not_mem_of_mem_lines (hlines ▸ List.mem_map_of_mem hw)
  have hproper : ∀ d t, content d t ∈ lines → WrittenLine.Proper uri style d t :=
    fun d t hmem => hcanonical.proper hfeed hmem
  have hread : text.lines.map Text.dropReturn = lines.map (WrittenLine.read style) := by
    rw [hlines, List.map_map]
    rfl
  have hnested := WrittenLine.wellNested hstyle hproper hcanonical.nested
  -- the lines that were read are the first ones of the text
  refine (Reading.readLines_nested (P := fun done r => ∀ first rest, lines = first ++ rest →
    done = first.map (WrittenLine.read style) → Reader.Writes style first r)
    Resolver.detached ?_ ?_ ?_ () text.lines (by rw [hread]; exact hnested) ?_).2
    lines [] (by simp) hread
  · intro first rest _ hdone
    rw [List.map_eq_nil_iff.1 hdone.symm]
    exact ⟨rfl, fun _ => rfl⟩
  · intro done r line _ hp hblank first rest hsplit hdone
    obtain ⟨before, w, rfl, hbefore, rfl⟩ := WrittenLine.of_snoc hdone
    rw [List.append_assoc] at hsplit
    cases w with
    | empty => exact (hp before _ hsplit hbefore).waits _
    | content d t =>
      have hvisible := (hproper d t (by simp [hsplit])).visible
      rw [Line.kind_eq_blank_iff.1 hblank] at hvisible
      cases hvisible
  · intro _ done r line nodes r' hafter hp _ hblank hdepth hstep first rest hsplit hdone
    obtain ⟨before, w, rfl, hbefore, rfl⟩ := WrittenLine.of_snoc hdone
    rw [List.append_assoc] at hsplit
    cases w with
    | empty => exact absurd (Line.kind_eq_blank_iff.2 rfl) hblank
    | content d t =>
      have hline := hproper d t (by simp [hsplit])
      have hopen : Reader.commentOf style done = none := by
        rw [hbefore]
        exact WrittenLine.commentOf_eq fun d t hmem => hproper d t (by simp [hsplit, hmem])
      have hkind : r.kindOf ((content d t).read style) = (content d t).kind style := by
        rw [hafter.kindOf_eq, hopen]
        rfl
      rw [hline.depth_eq hstyle] at hdepth
      rw [hkind] at hstep
      refine (hp before _ hsplit hbefore).step hline hafter.sound.use (fun hk => ?_) hdepth hstep
      obtain ⟨-, hnode, hallows⟩ := hcanonical.use before d t rest hsplit hk
      exact ⟨hline.useClause hk hnode, hallows⟩
  · intro line hmem hvisible
    rw [hread] at hmem
    obtain ⟨w, hw, rfl⟩ := List.mem_map.1 hmem
    cases w with
    | empty => cases hvisible
    | content d t =>
      rw [(hproper d t hw).depth_eq hstyle]
      exact (hproper d t hw).depth_lt

/-- Reading a canonical text and writing the tree gives the text back. -/
theorem render_readDetached {text : Text}
    (hstyle : style.insertSpaces = true → 0 < style.tabSize)
    (hlines : text.lines = lines.map (WrittenLine.text style))
    (hcanonical : CanonicalLines uri style lines) :
    Tree.render style (readDetached uri style text).body = text := by
  have hwrites := hcanonical.writes hstyle hlines
  have hbody : (readDetached uri style text).body =
      ((Reading.readLines .detached ⟨.start uri style, (), []⟩ 0
        text.lines).reader.flushBlanks []).nodes := rfl
  generalize (Reading.readLines .detached ⟨.start uri style, (), []⟩ 0 text.lines).reader = r at *
  -- the blank lines that wait at the end are shown at the end of the top level
  have hshown : (Tree.listing (r.flushBlanks []).nodes).map (Node.shown style) =
      (lines.map (WrittenLine.shown style)).map fun item => (item.1, [item.2]) := by
    rw [Reader.flushBlanks_eq rfl, Tree.Spine.here.shown_graft, shown_blanks, List.map_map]
    exact hwrites.shown
  have hspaced : (lines.map (WrittenLine.shown style)).IsChain
      fun a b => a.1 = true → b.1 = false := by
    refine (List.isChain_map _).2 (hcanonical.spaced.imp fun a b hab hblank => ?_)
    exact beq_eq_false_iff_ne.2 (hab (beq_iff_eq.1 hblank))
  rw [hbody, Tree.render_eq, hshown, squeeze_spaced hspaced (by simp), List.map_map,
    show Prod.snd ∘ WrittenLine.shown style = WrittenLine.text style from rfl, ← hlines]
  exact Text.unlines_lines text

/-- A text with a module, a blank line and a rule is canonical. -/
theorem render_readDetached_rule :
    let uri : Uri := ⟨"file".toList, none, "/a.sass".toList, none, none⟩
    let text : Text := "@use 'b'\n\n.a\n  b: c".toList
    Tree.render {} (readDetached uri {} text).body = text := by
  intro uri text
  have hlines : text.lines = [content 0 "@use 'b'".toList, empty, content 0 ".a".toList,
      content 1 "b: c".toList].map (WrittenLine.text {}) := by decide
  refine render_readDetached (by decide) hlines ⟨?_, ?_, by decide, ?_, ?_⟩
  · exact ⟨by decide, by decide, by decide, trivial⟩
  · intro depth text hmem
    simp only [List.mem_cons, reduceCtorEq, WrittenLine.content.injEq, List.not_mem_nil, or_false,
      false_or] at hmem
    rcases hmem with ⟨rfl, rfl⟩ | ⟨rfl, rfl⟩ | ⟨rfl, rfl⟩
    · exact ⟨by decide, by unfold Line.Canonical; decide +kernel, by decide +kernel⟩
    · exact ⟨by decide, by unfold Line.Canonical; decide +kernel, by decide +kernel⟩
    · exact ⟨by decide, by unfold Line.Canonical; decide +kernel, by decide +kernel⟩
  · intro before depth text after hsplit hk
    match before, hsplit with
    | [], hsplit =>
      cases hsplit
      exact ⟨rfl, ⟨"b".toList, none, some "b".toList, rfl⟩, by simp⟩
    | [_], hsplit => cases hsplit
    | [_, _], hsplit =>
      cases hsplit
      exact absurd hk (by decide)
    | [_, _, _], hsplit =>
      cases hsplit
      exact absurd hk (by decide)
    | _ :: _ :: _ :: _ :: before, hsplit => simp at hsplit
  · intro depth text hmem
    simp only [List.mem_cons, reduceCtorEq, WrittenLine.content.injEq, List.not_mem_nil, or_false,
      false_or] at hmem
    rcases hmem with ⟨rfl, rfl⟩ | ⟨rfl, rfl⟩ | ⟨rfl, rfl⟩ <;> decide

end IndentedSass
