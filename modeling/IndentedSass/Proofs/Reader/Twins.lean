/-
  Two readings in step.

  Twins stay twins when both read a line that is read alike at the same place; a blank line
  that only one of them meets makes no difference.

  * `Reading.twins_drop`, `twins_blank`, `twins_content`, `twins_visible`: one line, by the
    way in which it is read;
  * `Reading.outline_finish`: the trees of twins have the same outline.
-/
import Mathlib
import IndentedSass.Proofs.Reader.Outline

namespace IndentedSass

namespace Reader

variable {r r' : Reader} {info info' : LineInfo} {line : Text} {comment : OpenComment}
  {n level : Nat} {lines : List CommentLine}

namespace Twins

variable (h : Twins r r')

include h

theorem style : r'.style = r.style := (congrArg Reader.style h.outline).symm

/-- Twins know the same open comment. -/
theorem opened : r'.openComment.map (·.column) = r.openComment.map (·.column) := by
  have hopened := congrArg (fun o : Reader => o.openComment.map (·.column)) h.outline
  simpa [Reader.outline, Option.map_map, Function.comp_def] using hopened.symm

theorem kindOf (line' : Text) : r'.kindOf line' = r.kindOf line' := by
  rw [Reader.kindOf, Reader.kindOf, h.style, h.opened]

theorem settled (info info' : LineInfo) : Twins (r.settled info) (r'.settled info') := by
  refine ⟨h.left.settled info, h.right.settled info', ?_⟩
  rw [outline_settled h.left, outline_settled h.right, h.outline]

end Twins

/-- A line that a block comment goes on with, in the outline. -/
theorem outline_readCommentContent (hs : r.Sound) (info : LineInfo)
    (hopen : r.openComment = some comment)
    (hnode : Tree.nodeAt? r.nodes comment.path = some (.leaf n (.blockComment level lines))) :
    (r.readCommentContent info line).outline =
      { r.outline with
        nodes := Tree.modifyAt (fun _ => .leaf 0 (.blockComment level
            (lines.map (fun l => { l with line := 0 }) ++
              [⟨0, (dropColumns r.style.tabStop comment.column line).trimEnd⟩])))
          r.outline.nodes (Tree.outlinePath r.nodes comment.path)
        openComment := if Line.closesBlockComment line then none else r.outline.openComment } := by
  have hextends := Tree.extends_modifyAt
    [⟨info.index, (dropColumns r.style.tabStop comment.column line).trimEnd⟩] hnode
  have hmore : (Node.leaf n (.blockComment level (lines ++
      [⟨info.index, (dropColumns r.style.tabStop comment.column line).trimEnd⟩]))).isBlank = false :=
    rfl
  have hnodes := Tree.outline_modifyAt hnode rfl hmore
  simp only [Node.outline, Leaf.outline, List.map_append, List.map_cons, List.map_nil] at hnodes
  have houtline := outline_extended hs hextends r.diagnostics
  rw [hnodes] at houtline
  -- the comment is found at the same path
  have hopened : (if Line.closesBlockComment line then none else some comment).map
      (fun c => { c with path := Tree.outlinePath (Tree.modifyAt (fun _ => .leaf n (.blockComment level
        (lines ++ [⟨info.index, (dropColumns r.style.tabStop comment.column line).trimEnd⟩])))
          r.nodes comment.path) c.path }) =
      if Line.closesBlockComment line then none else r.outline.openComment := by
    split
    · rfl
    · rw [outline, hopen, Option.map_some, Option.map_some, hextends.outlinePath hnode]
  simp only [readCommentContent, hopen, hnode]
  exact congrArg₂ (fun (o : Reader) comment => { o with openComment := comment }) houtline hopened

end Reader

namespace Reading

variable {g g' : Reading Unit} {line line' : Text}

/-- A blank line that only one of the twins meets, outside of comments. -/
theorem twins_drop (h : Reader.Twins g.reader g'.reader) (index : Nat)
    (hblank : g.reader.kindOf line = .blank) (hopen : g.reader.openComment = none) :
    Reader.Twins (g.readLine .detached index line).reader g'.reader := by
  refine ⟨(readLine_reads .detached h.left index line).sound h.left, h.right, ?_⟩
  rw [← h.outline, readLine_of_blank .detached index hblank]
  simp only [Reader.outline, hopen]

/-- A blank line that both meet. -/
theorem twins_blank (h : Reader.Twins g.reader g'.reader) (index index' : Nat)
    (hblank : g.reader.kindOf line = .blank) (hblank' : g'.reader.kindOf line' = .blank) :
    Reader.Twins (g.readLine .detached index line).reader
      (g'.readLine .detached index' line').reader := by
  refine ⟨(readLine_reads .detached h.left index line).sound h.left,
    (readLine_reads .detached h.right index' line').sound h.right, ?_⟩
  rw [readLine_of_blank .detached index hblank, readLine_of_blank .detached index' hblank']
  exact congrArg (fun o : Reader => { o with openComment := none }) h.outline

/-- A line that goes on with the block comment of both. -/
theorem twins_content (h : Reader.Twins g.reader g'.reader) (index index' : Nat)
    (hcontent : g.reader.kindOf line = .blockCommentContent)
    (hcontent' : g'.reader.kindOf line' = .blockCommentContent)
    (htext : ∀ tab columns, (dropColumns tab columns line').trimEnd =
      (dropColumns tab columns line).trimEnd)
    (hcloses : Line.closesBlockComment line' = Line.closesBlockComment line) :
    Reader.Twins (g.readLine .detached index line).reader
      (g'.readLine .detached index' line').reader := by
  refine ⟨(readLine_reads .detached h.left index line).sound h.left,
    (readLine_reads .detached h.right index' line').sound h.right, ?_⟩
  obtain ⟨column, hcolumn⟩ := Line.opened_of_content hcontent
  obtain ⟨comment, hopen, -⟩ := Option.map_eq_some_iff.1 hcolumn
  obtain ⟨column', hcolumn'⟩ := Line.opened_of_content hcontent'
  obtain ⟨comment', hopen', -⟩ := Option.map_eq_some_iff.1 hcolumn'
  obtain ⟨n, level, lines, hnode⟩ := h.left.comment comment hopen
  obtain ⟨n', level', lines', hnode'⟩ := h.right.comment comment' hopen'
  have hcomments := congrArg Reader.openComment h.outline
  simp only [Reader.outline, hopen, hopen', Option.map_some, Option.some.injEq,
    OpenComment.mk.injEq] at hcomments
  have hsame := Tree.nodeAt?_outline hnode rfl
  rw [show Tree.outline g.reader.nodes = Tree.outline g'.reader.nodes from
    congrArg Reader.nodes h.outline, hcomments.1, Tree.nodeAt?_outline hnode' rfl] at hsame
  simp only [Node.outline, Leaf.outline, Option.some.injEq, Node.leaf.injEq, true_and,
    Leaf.blockComment.injEq] at hsame
  rw [readLine_of_content .detached h.left index hcontent,
    readLine_of_content .detached h.right index' hcontent',
    Reader.outline_readCommentContent h.left _ hopen hnode,
    Reader.outline_readCommentContent h.right _ hopen' hnode', h.outline, h.style, htext, hcloses,
    hcomments.1, hcomments.2, hsame.1, hsame.2]

/-- Another line, when both find the same place for it. -/
theorem twins_visible (h : Reader.Twins g.reader g'.reader) (index index' : Nat)
    (hblank : g.reader.kindOf line ≠ .blank)
    (hcontent : g.reader.kindOf line ≠ .blockCommentContent)
    (hkind : g'.reader.kindOf line' = g.reader.kindOf line) (hline : Line.ReadsAlike line line')
    (hplace : g.reader.SamePlace (g.reader.lineInfo index line) (g'.reader.lineInfo index' line'))
    (hcolumn : (g.reader.kindOf line).opensBlock = false → (g.reader.kindOf line).declares = false →
      (g'.reader.lineInfo index' line').column = (g.reader.lineInfo index line).column) :
    Reader.Twins (g.readLine .detached index line).reader
      (g'.readLine .detached index' line').reader := by
  refine ⟨(readLine_reads .detached h.left index line).sound h.left,
    (readLine_reads .detached h.right index' line').sound h.right, ?_⟩
  rw [readLine_of_visible .detached h.left index hblank hcontent,
    readLine_of_visible .detached h.right index' (hkind ▸ hblank) (hkind ▸ hcontent), hkind]
  have hsettled : Reader.Twins
      ({ g with reader := g.reader.settled (g.reader.lineInfo index line) } : Reading Unit).reader
      ({ g' with reader := g'.reader.settled (g'.reader.lineInfo index' line') } :
        Reading Unit).reader := h.settled _ _
  refine outline_readKind hsettled hline ⟨hplace.level, hplace.target⟩
    (Line.kind_eq_outside hcontent).symm fun hopens hdeclares => ?_
  have hsame := hcolumn hopens hdeclares
  refine ⟨hsame, ?_⟩
  rw [Reader.lineInfo, Reader.lineInfo, h.style] at hsame ⊢
  exact congrArg (Indent.level g.reader.style.tabStop) hsame

/-- The trees of twins have the same outline. -/
theorem outline_finish (h : Reader.Twins g.reader g'.reader) :
    Tree.outline g.finish.reader.nodes = Tree.outline g'.finish.reader.nodes := by
  have hfinish : ∀ g : Reading Unit, Tree.outline g.finish.reader.nodes =
      Tree.outline g.reader.nodes := by
    intro g
    rw [finish, Reader.flushBlanks_eq (show Tree.bodyAt? g.reader.nodes [] = _ from rfl),
      Tree.graft_nil, Tree.outline_append, Tree.outline_blanks, List.append_nil]
  rw [hfinish, hfinish]
  exact congrArg Reader.nodes h.outline

end Reading

end IndentedSass
