/-
  A tree that is written and read again.

  Reading accepts more than writing emits, so a tree is read back from its text only where its
  nodes can be: each stands at the depth that its level says, is written as a line that shows
  what it is, and is not swallowed by a comment that is still open above it.  For the trees
  that reading makes, the second of these is a matter of what a node holds, since a node keeps
  the line it was made of up to white space, quotation marks and spacing.

  * `Node.Clear`: what must hold of a node for its lines to be read as the node;
  * `Reader.Step.legible`: the nodes that a line adds are read back from their own lines;
  * `CommentLine.GoesOn.goOn`: the further lines of a block comment are read back;
  * `Reader.Retold` and `Reading.retold_readLine`: a line keeps the nodes of a reader legible;
  * `legible_readDetached`: so the nodes of a file are, and `sketch_reread`: the tree is.
-/
import Mathlib
import IndentedSass.Proofs.Reader.Parameters
import IndentedSass.Proofs.Tree.Branches

namespace IndentedSass

/-! ## What must hold of the nodes -/

/-- The text of a further line of a block comment shows that it belongs to the comment. -/
def CommentLine.GoesOn (content : CommentLine) : Prop :=
  (∃ c ∈ content.text.head?, isBlank c = true) ∨ content.text.trim.head? = some '*'

instance (content : CommentLine) : Decidable content.GoesOn :=
  decidable_of_iff' (content.text.head?.any isBlank = true ∨ content.text.trim.head? = some '*')
    (by unfold CommentLine.GoesOn; cases content.text.head? <;> simp)

/-- What must hold of a leaf for its lines to be read as the leaf: its value leaves no string open,
    its path can stand between quotation marks, and so on. -/
def Leaf.Clear : Leaf → Prop
  | .property _ _ value | .variableDecl _ _ value =>
    Value.Closed value ∧ (Value.render value).getLast? ≠ some '\r'
  | .useModule path _ _ => '\'' ∉ path
  | .unclassified _ text => Line.IsUnknown text
  | .blockComment _ lines => ∀ content ∈ lines.tail, content.GoesOn
  | _ => True

instance (leaf : Leaf) : Decidable leaf.Clear :=
  match leaf with
  | .property .. | .variableDecl .. => inferInstanceAs (Decidable (_ ∧ _))
  | .useModule path .. => inferInstanceAs (Decidable ('\'' ∉ path))
  | .unclassified _ text => inferInstanceAs (Decidable (Line.IsUnknown text))
  | .blockComment _ lines => inferInstanceAs (Decidable (∀ content ∈ lines.tail, content.GoesOn))
  | .importPath .. | .comment .. | .blank | .extendRule .. | .mixinCall .. => isTrue trivial

/-- What must hold of a header for its line to be read as the header. -/
def Header.Clear : Header → Prop
  | .rule selector => selector ≠ ['+']
  | .mixin _ _ parameters => Parameters.Clear parameters
  | .fontFace => True

instance (header : Header) : Decidable header.Clear :=
  match header with
  | .rule selector => inferInstanceAs (Decidable (selector ≠ ['+']))
  | .mixin _ _ parameters => inferInstanceAs (Decidable (Parameters.Clear parameters))
  | .fontFace => isTrue trivial

/-- What must hold of a node, without the nodes under it, for its lines to be read as the node. -/
def Node.Clear : Node → Prop
  | .leaf _ l => l.Clear
  | .block _ _ header _ => header.Clear

instance (node : Node) : Decidable node.Clear :=
  match node with
  | .leaf _ l => inferInstanceAs (Decidable l.Clear)
  | .block _ _ header _ => inferInstanceAs (Decidable header.Clear)

theorem Parameters.Clear.shape {parameters : List Parameter} (h : Parameters.Clear parameters) :
    Parameters.Clear (parameters.map Parameter.shape) := by
  constructor
  · intro p hp value hvalue
    obtain ⟨own, hown, rfl⟩ := List.mem_map.1 hp
    obtain ⟨ownValue, hdefault, rfl⟩ := Option.map_eq_some_iff.1 hvalue
    obtain ⟨hclosed, hname⟩ := h.each own hown ownValue hdefault
    exact ⟨(Value.closed_shape ownValue).2 hclosed, hname⟩
  · have hsame : (parameters.map Parameter.shape).map Parameter.text =
        parameters.map Parameter.text := by
      rw [List.map_map]
      exact List.map_congr_left fun p _ => p.text_shape
    rw [hsame]
    exact h.apart

/-! ## Nodes as they were added -/

namespace Reader

variable {find : Nat → Finder} {style : IndentStyle} {r r' : Reader}
  {info : LineInfo} {line : Text} {kind : LineKind} {nodes : List Node}

theorem legible_leaf {level : Nat} {leaf : Leaf} (text : Text) (htab : 0 < style.tabSize)
    (hlevel : level < 2 ^ 50) (hown : leaf.level?.getD 0 = level)
    (htexts : leaf.texts style = [Indent.ofLevel style level ++ text])
    (htells : Line.Tells level text (.leaf 0 leaf.sketch)) :
    ∃ line, leaf.texts style = [line] ∧
      Line.Says style (leaf.level?.getD 0) line (.leaf 0 leaf.sketch) := by
  subst hown
  exact ⟨_, htexts, htells.toSays htab hlevel⟩

theorem Opens.legible {header : Header} (h : Opens find r info line kind header)
    (htab : 0 < style.tabSize) (hfeed : '\n' ∉ line) (hkind : Line.kindOutsideComment line = kind)
    (hlevel : r.levelOf info < 2 ^ 50) (hclear : header.Clear) :
    header.Legible style (r.levelOf info) := by
  cases h with
  | rule => exact (Line.tells_rule hfeed hkind hclear).toSays htab hlevel
  | fontFace => exact Line.tells_fontFace.toSays htab hlevel
  | mixin =>
    have htells : Line.Tells (r.levelOf info) _ _ :=
      Line.tells_mixin hfeed (Parameter.map_shape_ofText (r.lookup find) info.index (r.levelOf info)
        (MixinClause.ofLine line).parameters) (Parameters.Clear.shape hclear)
    have htext : (Header.mixin (MixinClause.ofLine line).spelling (MixinClause.ofLine line).name
        (((MixinClause.ofLine line).parameters.map
          (Parameter.ofText (r.lookup find) info.index (r.levelOf info))).map Parameter.shape)).text =
        (Header.mixin (MixinClause.ofLine line).spelling (MixinClause.ofLine line).name
          ((MixinClause.ofLine line).parameters.map
            (Parameter.ofText (r.lookup find) info.index (r.levelOf info)))).text := by
      refine Header.text_mixin ?_
      rw [List.map_map]
      exact List.map_congr_left fun p _ => p.text_shape
    rw [Header.Legible, Header.sketch_mixin, ← htext]
    exact htells.toSays htab hlevel

/-- A value as it was read, written and read again. -/
theorem render_eq_valueParts (lookup : Lookups) (place : ValuePlace) (raw : Text) :
    Value.render (readValue lookup place raw).1 = Value.render (valueParts raw) := by
  rw [← shape_eq_valueParts lookup place raw, Value.shape, Value.render_retarget]

theorem Closes.legible {leaf : Leaf} {n : Nat} (h : Closes find r info line kind leaf)
    (htab : 0 < style.tabSize) (hfeed : '\n' ∉ line) (hkind : Line.kindOutsideComment line = kind)
    (hvisible : kind ≠ .blank) (hlevel : r.levelOf info < 2 ^ 50) (hclear : leaf.Clear) :
    (Node.leaf n leaf).Legible style := by
  have hunknown : Line.IsUnknown line.trim →
      (Node.leaf n (.unclassified (r.levelOf info) line.trim)).Legible style := fun hclear =>
    legible_leaf line.trim htab hlevel rfl rfl
      (Line.tells_unclassified hfeed (Line.isBlankLine_of_kind hkind hvisible) hclear)
  cases h with
  | @property d hd =>
    obtain ⟨hclosed, hplain⟩ := hclear
    rw [render_eq_valueParts] at hplain
    rw [← Value.closed_shape, shape_eq_valueParts] at hclosed
    refine legible_leaf (d.name ++ ':' :: Value.render (valueParts d.value)) htab hlevel rfl ?_ ?_
    · rw [Leaf.texts, render_eq_valueParts, List.append_assoc]
    · rw [Leaf.sketch_property, shape_eq_valueParts]
      exact Line.tells_property hfeed hkind hd hclosed hplain
  | mixinCall =>
    have hinclude : Line.isInclude line = true := by
      have hpassed := Line.passed_kind line
      rwa [hkind] at hpassed
    refine legible_leaf _ htab hlevel rfl ?_ (Line.tells_mixinCall hfeed hinclude)
    cases IndentedSass.mixinCall line with
    | mk spelling text =>
      cases spelling with
      | keyword => rw [Leaf.texts, List.append_assoc]
      | sigil => rfl
  | extendRule =>
    refine legible_leaf ("@extend ".toList ++ extended line) htab hlevel rfl
      (by rw [Leaf.texts, List.append_assoc]) (Line.tells_extend (Line.trim_trim _) fun hmem => hfeed ?_)
    exact Text.mem_of_mem_trim (Line.mem_of_mem_dropCopies (Text.mem_of_mem_trim hmem))
  | literal => exact hunknown hclear
  | noColon => exact hunknown hclear
  | noPaths => exact hunknown hclear
  | noModule => exact hunknown hclear

/-- The nodes of a step are read back from their lines. -/
theorem Step.legible (h : Step find r info line kind nodes r') (htab : 0 < style.tabSize)
    (hfeed : '\n' ∉ line) (hkind : Line.kindOutsideComment line = kind)
    (hvisible : kind ≠ .blank) (hlevel : r.levelOf info < 2 ^ 50) :
    ∀ node ∈ nodes, node.Clear → node.Legible style := by
  intro node hnode hclear
  cases h with
  | opens _ ho =>
    cases List.mem_singleton.1 hnode
    exact ho.legible htab hfeed hkind hlevel hclear
  | closes _ hc =>
    cases List.mem_singleton.1 hnode
    exact hc.legible htab hfeed hkind hvisible hlevel hclear
  | @declares d _ _ hd hv =>
    cases List.mem_singleton.1 hnode
    subst hv
    obtain ⟨hclosed, hplain⟩ := hclear
    rw [render_eq_valueParts] at hplain
    rw [← Value.closed_shape, shape_eq_valueParts] at hclosed
    refine legible_leaf (d.name ++ ':' :: Value.render (valueParts d.value)) htab hlevel rfl ?_ ?_
    · rw [Leaf.texts, render_eq_valueParts, List.append_assoc]
    · rw [Leaf.sketch_variableDecl, shape_eq_valueParts]
      exact Line.tells_variable hfeed hkind hd hclosed hplain
  | keeps _ hk =>
    cases List.mem_singleton.1 hnode
    cases hk with
    | comment => exact legible_leaf line.trim htab hlevel rfl rfl (Line.tells_comment hfeed hkind)
    | lateUse =>
      obtain ⟨c, rest, htrim, -⟩ :=
        Line.visible_trim (Line.isBlankLine_of_kind hkind (by decide))
      exact legible_leaf ("// ".toList ++ line.trim) htab hlevel rfl rfl
        (Line.tells_slashes (Line.trim_trim line) (by rw [htrim]; exact List.cons_ne_nil c rest)
          fun hmem => hfeed (Text.mem_of_mem_trim hmem))
  | comments =>
    cases List.mem_singleton.1 hnode
    exact ⟨_, [], rfl, (Line.tells_blockComment hfeed hkind).toSays htab hlevel, trivial⟩
  | @imports paths targets _ _ hpaths =>
    rw [← List.map_uncurry_zip_eq_zipWith, List.mem_map] at hnode
    obtain ⟨⟨path, target⟩, hmem, rfl⟩ := hnode
    have hpath := (List.of_mem_zip hmem).1
    obtain ⟨hbare, hchars⟩ : Line.BarePath path ∧ ∀ c ∈ path, c ∈ line := by
      unfold importPaths? at hpaths
      split at hpaths
      · rename_i c rest hprefix
        split at hpaths
        · cases hpaths
          obtain ⟨hbare, hchars⟩ := Line.barePath_of_mem hpath
          refine ⟨hbare, fun d hd => List.dropWhile_subset isBlank (show d ∈ line.body from ?_)⟩
          rw [Text.dropPrefix?_eq_some_iff.1 hprefix]
          exact List.mem_append_right _ (List.dropWhile_subset isBlank (hchars d hd))
        · cases hpaths
      · cases hpaths
    exact legible_leaf ("@import '".toList ++ path ++ ['\'']) htab hlevel rfl
      (by rw [Leaf.texts]; simp) (Line.tells_import hbare fun hmem => hfeed (hchars _ hmem))
  | uses _ _ _ hclause =>
    cases List.mem_singleton.1 hnode
    obtain ⟨hchars, hqualifier⟩ := Line.useClause_spec hclause
    exact legible_leaf (useText _ _) htab (show 0 < 2 ^ 50 by decide) rfl rfl
      (Line.tells_use hclear (fun hmem => hfeed (hchars _ hmem)) hqualifier)

end Reader

/-! ## Block comments -/

/-- What is left of a line without columns of its indentation. -/
theorem exists_dropColumns (tab columns : Nat) (line : Text) :
    ∃ pre, Blanks pre ∧ line = pre ++ dropColumns tab columns line := by
  induction line generalizing columns with
  | nil => exact ⟨[], by simp [Blanks], rfl⟩
  | cons c cs ih =>
    have hcons : isBlank c = true → ∀ n, ∃ pre, Blanks pre ∧ c :: cs = pre ++ dropColumns tab n cs := by
      intro hc n
      obtain ⟨pre, hpre, hcs⟩ := ih n
      refine ⟨c :: pre, fun d hd => ?_, by rw [List.cons_append, ← hcs]⟩
      rcases List.mem_cons.1 hd with rfl | hd
      · exact hc
      · exact hpre d hd
    have hwhole : ∃ pre, Blanks pre ∧ c :: cs = pre ++ c :: cs := ⟨[], by simp [Blanks], rfl⟩
    unfold dropColumns
    split_ifs with hzero hspace htab
    · exact hwhole
    · exact hcons (by simp [isBlank, hspace]) _
    · exact hcons (by simp [isBlank, htab]) _
    · exact hwhole

theorem dropColumns_zero (tab : Nat) (t : Text) : dropColumns tab 0 t = t := by
  cases t <;> rfl

/-- The indentation of a level is dropped as a whole. -/
theorem dropColumns_ofLevel {style : IndentStyle} (htab : 0 < style.tabSize) (level : Nat) (t : Text) :
    dropColumns style.tabStop (level * style.tabStop) (Indent.ofLevel style level ++ t) = t := by
  have hspaces : ∀ n, dropColumns style.tabStop n (List.replicate n ' ' ++ t) = t := by
    intro n
    induction n with
    | zero => exact dropColumns_zero ..
    | succ n ih =>
      rw [List.replicate_succ, List.cons_append, dropColumns, if_neg (Nat.succ_ne_zero n), if_pos rfl]
      exact ih
  have htabs : ∀ n, dropColumns style.tabStop (n * style.tabStop) (List.replicate n '\t' ++ t) = t := by
    intro n
    induction n with
    | zero =>
      rw [Nat.zero_mul]
      exact dropColumns_zero ..
    | succ n ih =>
      have hpos := style.tabStop_pos
      rw [List.replicate_succ, List.cons_append, dropColumns, Nat.succ_mul, if_neg (by omega),
        if_neg (by decide), if_pos rfl, Nat.add_sub_cancel, ih]
  unfold Indent.ofLevel
  split
  · rw [IndentStyle.tabStop, Nat.max_eq_left htab]
    rw [IndentStyle.tabStop, Nat.max_eq_left htab] at hspaces
    exact hspaces _
  · exact htabs level

theorem Line.closesBlockComment_blanks {pre : Text} (h : Blanks pre) (t : Text) :
    closesBlockComment (pre ++ t) = closesBlockComment t := by
  rw [closesBlockComment, Text.has, Text.after?_blanks (by decide) h]
  rfl

theorem Line.goOn_snoc {style : IndentStyle} {level : Nat} {opened : Option Nat}
    {contents : List CommentLine} {content : CommentLine} (h : GoOn style level opened contents)
    (hlast : GoOn style level ((contents.map fun l => Indent.ofLevel style level ++ l.text).foldl
      (commentAfter style.tabStop) opened) [content]) :
    GoOn style level opened (contents ++ [content]) := by
  induction contents generalizing opened with
  | nil => exact hlast
  | cons first rest ih =>
    obtain ⟨hfeed, hplain, hkind, htext, hrest⟩ := h
    exact ⟨hfeed, hplain, hkind, htext, ih hrest hlast⟩

/-- A further line of a comment, as it is kept, goes on with the comment. -/
theorem CommentLine.GoesOn.goOn {style : IndentStyle} {index opened column : Nat} {line : Text}
    (level : Nat) (htab : 0 < style.tabSize) (hfeed : '\n' ∉ line)
    (hkind : Line.kind style.tabStop (some opened) line = .blockCommentContent)
    (h : (⟨index, (dropColumns style.tabStop column line).trimEnd⟩ : CommentLine).GoesOn) :
    let text := (dropColumns style.tabStop column line).trimEnd
    Line.GoOn style level (some (level * style.tabStop)) [⟨index, text⟩] ∧
      Line.commentAfter style.tabStop (some (level * style.tabStop))
          (Indent.ofLevel style level ++ text) =
        if Line.closesBlockComment line then none else some (level * style.tabStop) := by
  intro text
  obtain ⟨pre, hpre, hline⟩ := exists_dropColumns style.tabStop column line
  obtain ⟨ws, hw, hsplit⟩ := Text.exists_white (dropColumns style.tabStop column line)
  have hindent := Indent.blanks_ofLevel style level
  have htrim : text.trim = line.trim := by
    rw [hline, Text.trim_blanks hpre]
    exact Line.trim_trimEnd _
  have hvisible : ∃ c rest, line.trim = c :: rest := by
    cases ht : line.trim with
    | nil =>
      rw [Line.kind, Line.continuesComment, ht, if_neg Bool.false_ne_true] at hkind
      exact absurd hkind (Line.kindOutsideComment_ne_content line)
    | cons c rest => exact ⟨c, rest, rfl⟩
  obtain ⟨c, rest, hc⟩ := hvisible
  have hne : text ≠ [] := by
    intro hnil
    rw [hnil, hc] at htrim
    cases htrim
  have hcloses : Line.closesBlockComment (Indent.ofLevel style level ++ text) =
      Line.closesBlockComment line := by
    conv_rhs => rw [hline, Line.closesBlockComment_blanks hpre, hsplit, Line.closesBlockComment_white hw]
    exact Line.closesBlockComment_blanks hindent text
  have hkind' : Line.kind style.tabStop (some (level * style.tabStop))
      (Indent.ofLevel style level ++ text) = .blockCommentContent := by
    have hgoes : (c == '*' || decide (level * style.tabStop <
        Indent.width style.tabStop (Indent.ofLevel style level ++ text))) = true := by
      rw [Indent.width_ofLevel fun _ => htab, Bool.or_eq_true, beq_iff_eq, decide_eq_true_eq]
      rcases h with ⟨b, hb, hblank⟩ | hstar
      · right
        have hpos := style.tabStop_pos
        obtain ⟨more, hmore⟩ := List.head?_eq_some_iff.1 (show text.head? = some b from hb)
        rcases isBlank_iff.1 hblank with rfl | rfl <;> (rw [hmore]; simp [Indent.width, hpos])
      · left
        rw [show Text.trim _ = line.trim from htrim, hc] at hstar
        exact Option.some.inj hstar
    rw [Line.kind, Line.continuesComment, Text.trim_blanks hindent, htrim, hc]
    exact if_pos hgoes
  refine ⟨⟨?_, ?_, hkind', ?_, trivial⟩, ?_⟩
  · intro hmem
    rcases List.mem_append.1 hmem with hblank | hown
    · exact absurd (hindent _ hblank) (by decide)
    · refine hfeed ?_
      rw [hline]
      exact List.mem_append_right _ (Text.mem_of_mem_trimEnd hown)
  · rw [List.getLast?_append_of_ne_nil _ hne]
    intro hlast
    have hwhite := Text.getLast?_trimEnd _ _ hlast
    revert hwhite
    decide
  · rw [dropColumns_ofLevel htab]
    exact Text.trimEnd_eq_self (Text.getLast?_trimEnd _)
  · rw [Line.commentAfter, hkind']
    simp only [hcloses]

/-! ## Runs -/

namespace Tree

mutual

theorem exists_path_of_listingOfOne : ∀ (node : Node) {m : Node}, m ∈ listingOfOne node →
    m = node ∨ ∃ line level header body path, node = .block line level header body ∧
      nodeAt? body path = some m
  | .leaf _ _, m, hm => .inl (List.mem_singleton.1 hm)
  | .block line level header body, m, hm => by
    rcases List.mem_cons.1 hm with rfl | hm
    · exact .inl rfl
    · obtain ⟨path, hpath⟩ := exists_path_of_listing body hm
      exact .inr ⟨line, level, header, body, path, rfl, hpath⟩

/-- Every node of a document stands at a path. -/
theorem exists_path_of_listing : ∀ (nodes : List Node) {m : Node}, m ∈ listing nodes →
    ∃ path, nodeAt? nodes path = some m
  | node :: rest, m, hm => by
    rcases List.mem_append.1 hm with hm | hm
    · rcases exists_path_of_listingOfOne node hm with rfl | ⟨line, level, header, body, path, rfl, hpath⟩
      · exact ⟨[0], rfl⟩
      · have hne : path ≠ [] := by
          rintro rfl
          cases hpath
        exact ⟨0 :: path, (nodeAt?_cons hne).2 ⟨line, level, header, body, rfl, hpath⟩⟩
    · obtain ⟨path, hpath⟩ := exists_path_of_listing rest hm
      cases path with
      | nil => cases hpath
      | cons i path =>
        refine ⟨(1 + i) :: path, ?_⟩
        have hright : nodeAt? ([node] ++ rest) (([node].length + i) :: path) = nodeAt? rest (i :: path) :=
          nodeAt?_append_right
        exact hright.trans hpath

end

end Tree

theorem SameHead.clear {old node : Node} (h : Tree.SameHead old node) (hclear : node.Clear) :
    old.Clear := by
  cases h <;> exact hclear

theorem SameHead.legible {style : IndentStyle} {old node : Node} (h : Tree.SameHead old node)
    (hlegible : old.Legible style) : node.Legible style := by
  cases h <;> exact hlegible

namespace Reader

variable {find : Nat → Finder} {style : IndentStyle} {r r' : Reader}
  {info : LineInfo} {line : Text} {kind : LineKind} {nodes : List Node}

/-- The nodes of a reader are read back from their lines, where they are clear, and the lines of the
    open comment leave it open. -/
structure Retold (style : IndentStyle) (r : Reader) : Prop where
  legible : ∀ path node, Tree.nodeAt? r.nodes path = some node → node.Clear → node.Legible style
  comment : ∀ c, r.openComment = some c → ∀ n level lines,
    Tree.nodeAt? r.nodes c.path = some (.leaf n (.blockComment level lines)) →
      (Node.leaf n (.blockComment level lines)).Clear →
        (Node.leaf n (.blockComment level lines)).leavesOpen style = some (level * style.tabStop)

theorem retold_start (uri : Uri) (style : IndentStyle) : Retold style (start uri style) where
  legible path node h := by
    cases path with
    | nil => cases h
    | cons i path => cases path <;> cases h
  comment _ h := nomatch h

/-- New nodes without nodes under them. -/
theorem Retold.grown {body : List Node} {path : TreePath} (h : Retold style r)
    (hb : Tree.bodyAt? r.nodes path = some body) (hfresh : ∀ line level header inner,
      Node.block line level header inner ∈ nodes → inner = [])
    (hnodes : ∀ node ∈ nodes, node.Clear → node.Legible style) :
    ∀ q node, Tree.nodeAt? (Tree.graft nodes r.nodes path) q = some node → node.Clear →
      node.Legible style := by
  intro q node hnode hclear
  rcases Tree.nodeAt?_graft_cases hb hfresh hnode with ⟨k, -, hk⟩ | ⟨old, hold, hsame⟩
  · exact hnodes node (List.mem_of_getElem? hk) hclear
  · exact SameHead.legible hsame (h.legible q old hold (SameHead.clear hsame hclear))

theorem Retold.settled (h : Retold style r) (hs : r.Sound) (info : LineInfo) :
    Retold style (r.settled info) := by
  obtain ⟨body, hb⟩ := hs.hasTarget info
  refine ⟨h.grown hb (fun line level header inner hmem => ?_) (fun node hmem _ => ?_), nofun⟩
  · obtain ⟨index, -, heq⟩ := List.mem_map.1 hmem
    cases heq
  · obtain ⟨index, -, rfl⟩ := List.mem_map.1 hmem
    trivial

theorem Retold.step (h : Retold style r) (hs : r.Sound) (hopen : r.openComment = none)
    (hstyle : r.style = style) (hcolumn : info.column = Indent.width r.style.tabStop line)
    (hstep : Step find r info line kind nodes r') (htab : 0 < style.tabSize)
    (hfeed : '\n' ∉ line) (hkind : Line.kindOutsideComment line = kind)
    (hvisible : kind ≠ .blank) (hlevel : r.levelOf info < 2 ^ 50) : Retold style r' := by
  obtain ⟨body, hb⟩ := hs.hasTarget info
  have hnodes := hstep.legible htab hfeed hkind hvisible hlevel
  constructor
  · rw [hstep.nodes_eq]
    refine h.grown hb (fun line level header inner hmem => ?_) hnodes
    cases hstep.fresh _ hmem
    rfl
  · intro c hc n level lines hn hclear
    obtain ⟨hpath, hadded⟩ := hstep.comment_slot hopen hc
    rw [hstep.nodes_eq, hpath, hadded, nodeAt?_slot (hs.hasTarget info)] at hn
    cases hn
    have hcomment := hstep.comment_eq hopen hcolumn
    rw [hc, hstyle] at hcomment
    split at hcomment
    · rename_i hstart
      obtain ⟨rfl, hleaves⟩ := hstart
      have htells : Line.Tells (r.levelOf info) line.trim _ := Line.tells_blockComment hfeed hkind
      have hsays : Line.Says style _ _ _ := htells.toSays htab hlevel
      have hkind' : Line.kindOutsideComment (Indent.ofLevel style (r.levelOf info) ++ line.trim) =
          .blockCommentStart := by
        rw [Line.kindOutsideComment_blanks (Indent.blanks_ofLevel style _)]
        exact Line.kind_trim_start hkind
      have hsame : Line.leavesCommentOpen (Indent.ofLevel style (r.levelOf info) ++ line.trim) =
          Line.leavesCommentOpen line := by
        rw [Line.leavesCommentOpen_blanks (Indent.blanks_ofLevel style _)]
        exact Line.congr_trim _ Line.leavesCommentOpen_blanks Line.leavesCommentOpen_white
          (Line.startsVisibly_of_kind hkind (by decide) (by decide))
      show Line.commentAfter style.tabStop none
        (Indent.ofLevel style (r.levelOf info) ++ line.trim) = _
      rw [Line.commentAfter, Line.kind_none, hkind']
      simp only [hsame, hleaves, if_true, hsays.width]
    · cases hcomment

theorem Retold.goesOn {comment : OpenComment} {n level : Nat} {lines : List CommentLine}
    (h : Retold style r) (hstyle : r.style = style) (htab : 0 < style.tabSize) (hfeed : '\n' ∉ line)
    (hkind : r.kindOf line = .blockCommentContent) (hopen : r.openComment = some comment)
    (hnode : Tree.nodeAt? r.nodes comment.path = some (.leaf n (.blockComment level lines)))
    (index : Nat) :
    Retold style
      { r with
        nodes := Tree.modifyAt (fun _ => .leaf n (.blockComment level (lines ++
          [⟨index, (dropColumns r.style.tabStop comment.column line).trimEnd⟩]))) r.nodes comment.path
        openComment := if Line.closesBlockComment line then none else some comment } := by
  subst hstyle
  rw [kindOf, hopen, Option.map_some] at hkind
  generalize hcontent : (⟨index, (dropColumns r.style.tabStop comment.column line).trimEnd⟩ :
    CommentLine) = content
  -- what the comment with one more line is written as
  have hwritten : (Node.leaf n (.blockComment level (lines ++ [content]))).Clear →
      (Node.leaf n (.blockComment level (lines ++ [content]))).Legible r.style ∧
        (Node.leaf n (.blockComment level (lines ++ [content]))).leavesOpen r.style =
          if Line.closesBlockComment line then none else some (level * r.style.tabStop) := by
    intro hclear
    have hold : (Node.leaf n (.blockComment level lines)).Clear := by
      intro l hl
      refine hclear l ?_
      cases lines with
      | nil => cases hl
      | cons first rest => exact List.mem_append_left _ hl
    obtain ⟨first, rest, rfl, hsaid, hrest⟩ := h.legible _ _ hnode hold
    have hopened := h.comment comment hopen n level _ hnode hold
    have hgoes : content.GoesOn := hclear content (by simp)
    rw [← hcontent] at hgoes
    obtain ⟨hgoOn, hafter⟩ := hgoes.goOn level htab hfeed hkind
    rw [hcontent] at hgoOn
    have htext : (dropColumns r.style.tabStop comment.column line).trimEnd = content.text := by
      rw [← hcontent]
    have hfold : (rest.map fun l => Indent.ofLevel r.style level ++ l.text).foldl
        (Line.commentAfter r.style.tabStop) (Line.commentAfter r.style.tabStop none
          (Indent.ofLevel r.style level ++ first.text)) = some (level * r.style.tabStop) := hopened
    refine ⟨⟨first, rest ++ [content], rfl, hsaid, Line.goOn_snoc hrest (by rwa [hfold])⟩, ?_⟩
    rw [← hafter, htext, ← hfold, Node.leavesOpen]
    show ((Indent.ofLevel r.style level ++ first.text) ::
      (rest ++ [content]).map fun l => Indent.ofLevel r.style level ++ l.text).foldl _ none = _
    rw [List.foldl_cons, List.map_append, List.foldl_append]
    rfl
  constructor
  · intro q node hq hclear
    rcases Tree.nodeAt?_modifyAt_cases hnode hq with ⟨-, rfl⟩ | ⟨old, hold, hsame⟩
    · exact (hwritten hclear).1
    · exact SameHead.legible hsame (h.legible q old hold (SameHead.clear hsame hclear))
  · intro c hc n' level' lines' hn hclear
    dsimp only at hc hn
    split at hc
    · cases hc
    · rename_i hstays
      cases hc
      rw [Tree.nodeAt?_modifyAt _ hnode] at hn
      cases hn
      rw [(hwritten hclear).2, if_neg hstays]

end Reader

namespace Reading

variable {σ : Type} {style : IndentStyle}

/-- A line keeps the nodes of a reader legible. -/
theorem retold_readLine (resolver : Resolver σ) {g : Reading σ} {line : Text} {index : Nat}
    (h : g.reader.Retold style) (hs : g.reader.Sound) (hstyle : g.reader.style = style)
    (htab : 0 < style.tabSize) (hfeed : '\n' ∉ line)
    (hdepth : g.reader.scope.blocks.length < 2 ^ 50) :
    (g.readLine resolver index line).reader.Retold style := by
  by_cases hcontent : g.reader.kindOf line = .blockCommentContent
  · obtain ⟨column, hcolumn⟩ := Line.opened_of_content hcontent
    obtain ⟨comment, hopen, -⟩ := Option.map_eq_some_iff.1 hcolumn
    obtain ⟨n, level, lines, hnode⟩ := hs.comment comment hopen
    rw [readLine_of_content resolver hs index hcontent]
    simp only [Reader.readCommentContent, hopen, hnode]
    exact h.goesOn hstyle htab hfeed hcontent hopen hnode index
  · have hreads := readLine_reads resolver hs index line
    generalize (g.readLine resolver index line).reader = r' at hreads ⊢
    cases hreads with
    | waits => exact ⟨h.legible, by simp⟩
    | goesOn _ hk => exact absurd hk hcontent
    | steps hblank _ hstep =>
      refine (h.settled hs _).step (hs.settled _) rfl hstyle rfl hstep htab hfeed ?_ hblank ?_
      · exact (Line.kind_eq_outside hcontent).symm
      · exact Nat.lt_of_le_of_lt (Nat.min_le_right _ _) hdepth

end Reading

/-- A block opens within the blocks that are open only where the line is long enough for it. -/
theorem Reader.Reads.deepens {find : Nat → Finder} {r r' : Reader}
    {index : Nat} {line : Text} (hs : r.Sound) (h : Reads find r index line r') :
    r'.scope.blocks.length ≤ r.scope.blocks.length ∨
      r'.scope.blocks.length = r.scope.blocks.length + 1 ∧
        r.scope.blocks.length ≤ 8 * line.length + 1 := by
  have hblocks := h.length_blocks hs
  have hlevel : r.levelOf (r.lineInfo index line) ≤ 8 * line.length + 1 :=
    (Nat.min_le_left ..).trans (Indent.level_width_le r.style line)
  have hopen : r.levelOf (r.lineInfo index line) ≤ r.scope.blocks.length := Nat.min_le_right ..
  split at hblocks <;> omega

theorem Text.mem_of_mem_dropReturn {t : Text} {c : Char} (h : c ∈ t.dropReturn) : c ∈ t := by
  unfold Text.dropReturn at h
  split at h
  · exact List.mem_of_mem_dropLast h
  · exact h

/-- The nodes of a file are read back from their lines, where they are clear. -/
theorem legible_readDetached (uri : Uri) {style : IndentStyle} {text : Text}
    (htab : 0 < style.tabSize) (hsize : text.length < 2 ^ 63) :
    ∀ node ∈ Tree.listing (readDetached uri style text).body, node.Clear → node.Legible style := by
  -- blocks within blocks take lines that are longer and longer, which bounds the levels
  let P : List Text → Reader → Prop := fun done r =>
    (∀ line ∈ done, '\n' ∉ line) → (done.map List.length).sum < 2 ^ 63 →
      r.Retold style ∧ (r.scope.blocks.length - 1) * (r.scope.blocks.length - 2) ≤
        16 * (done.map List.length).sum
  have hstart : P [] (.start uri style) :=
    fun _ _ => ⟨Reader.retold_start uri style, Nat.zero_le _⟩
  have hrun := (Reading.readLines_keeps .detached hstart
    (fun g done line ha hp hfeed hlength => by
      rw [List.map_append, List.sum_append, List.map_singleton, List.sum_singleton] at hlength ⊢
      obtain ⟨hretold, hdepth⟩ := hp (fun l hl => hfeed l (List.mem_append_left _ hl)) (by omega)
      have hshallow : g.reader.scope.blocks.length < 2 ^ 50 := by
        by_contra hdeep
        have := Nat.mul_le_mul (show 2 ^ 49 ≤ g.reader.scope.blocks.length - 1 by omega)
          (show 2 ^ 49 ≤ g.reader.scope.blocks.length - 2 by omega)
        omega
      refine ⟨Reading.retold_readLine .detached hretold ha.sound ha.style_eq htab
        (hfeed line (by simp)) hshallow, ?_⟩
      have hblocks := (Reading.readLine_reads .detached ha.sound done.length line).deepens ha.sound
      generalize (g.readLine .detached done.length line).reader.scope.blocks.length = next at *
      generalize g.reader.scope.blocks.length = depth at *
      rcases hblocks with hle | ⟨rfl, hlong⟩
      · have := Nat.mul_le_mul (show next - 1 ≤ depth - 1 by omega)
          (show next - 2 ≤ depth - 2 by omega)
        omega
      · have hsquare : (depth + 1 - 1) * (depth + 1 - 2) =
            (depth - 1) * (depth - 2) + 2 * (depth - 1) := by
          rcases depth with _ | _ | depth
          · rfl
          · rfl
          · show (depth + 2) * (depth + 1) = (depth + 1) * depth + 2 * (depth + 1)
            ring
        omega) () text.lines).2
  have hretold := (hrun
    (fun line hline hmem => by
      obtain ⟨whole, hwhole, rfl⟩ := List.mem_map.1 hline
      exact Text.not_mem_of_mem_lines hwhole (Text.mem_of_mem_dropReturn hmem))
    (text.sum_length_dropReturn_le.trans_lt hsize)).1
  have htree : (readDetached uri style text).body = Tree.graft _ _ [] :=
    congrArg Reader.nodes (Reader.flushBlanks_eq rfl)
  intro node hnode
  obtain ⟨path, hpath⟩ := Tree.exists_path_of_listing _ hnode
  rw [htree] at hpath
  refine hretold.grown rfl (fun line level header inner hmem => ?_) (fun blank hmem _ => ?_)
    path node hpath
  · obtain ⟨index, -, heq⟩ := List.mem_map.1 hmem
    cases heq
  · obtain ⟨index, -, rfl⟩ := List.mem_map.1 hmem
    trivial

/-- A tree that was read is written as a text that is read as the same tree, line numbers, blank
    lines and references apart: where its nodes stand at the depth that their levels say, each of
    them is clear, and they can be read in the order of the document. -/
theorem sketch_reread (uri : Uri) {style : IndentStyle} {text : Text} (htab : 0 < style.tabSize)
    (hsize : text.length < 2 ^ 63) :
    let nodes := (readDetached uri style text).body
    Tree.Placed 0 nodes → (∀ node ∈ Tree.listing nodes, node.Clear) →
      Tree.Separate style (Tree.listing nodes) →
      Tree.sketch (readDetached uri style (Tree.render style nodes)).body =
        Tree.sketch (Tree.renumbered style nodes) := by
  intro nodes hplaced hclear hseparate
  have hlegible : ∀ node ∈ Tree.listing nodes, node.Legible style := fun node hnode =>
    legible_readDetached uri htab hsize node hnode (hclear node hnode)
  rw [Tree.sketch_renumbered]
  exact sketch_readDetached_render hplaced hlegible hseparate

/-- A module is used, a mixin has a parameter with a value, a comment of two lines ends at a blank
    line, and a call stands in a value. -/
theorem sketch_reread_rules :
    let uri : Uri := ⟨"file".toList, none, "/a.sass".toList, none, none⟩
    let text : Text := ("@use 'k/c' as z\n=m( $a:b(c), $d )\n  e:$a\n\nf > g\n  /* h\n" ++
      "   * i\n\n  j: k( l )").toList
    let nodes := (readDetached uri {} text).body
    Tree.sketch (readDetached uri {} (Tree.render {} nodes)).body =
      Tree.sketch (Tree.renumbered {} nodes) := by
  intro uri text nodes
  exact sketch_reread uri (by decide) (by decide +kernel) (by decide +kernel) (by decide +kernel)
    (by decide +kernel)

/-- A text that is not read as the tree it was written from shows it in the kinds of the top nodes
    or in how they are written. -/
def Tree.aspect (nodes : List Node) : List NodeKind × Text :=
  (nodes.map Node.kind, Tree.render {} nodes)

/-- What is left out: a rule indented by less than a tab stop, which goes to the top at the level
    it rounds to; a value or the default of a parameter with a string that is left open; a value
    that ends in a carriage return; a path with an apostrophe; a line of text behind white space
    that is no blank; a further line of a comment without blanks or a star; a plus sign for a rule;
    an empty parameter; a star below a comment that is open above it; and an unknown `@use` line
    below a rule. -/
theorem sketch_reread_ne :
    let uri : Uri := ⟨"file".toList, none, "/a.sass".toList, none, none⟩
    let texts := [".class\n  .class\n .class", "a: b(\"c", "@mixin a($b: c(\"d)", "a: b\r\r",
      "@use \"a'b\"", "\u00a0a b c", " /* a\n\tb", "+ \n  a: b", "@mixin a(,)",
      "a\n  .b\n/* c\n\n    d: e\n* f", "a\n\u00a0@use \u00a0b"]
    ∀ text ∈ texts,
      let nodes := (readDetached uri {} text.toList).body
      Tree.sketch (readDetached uri {} (Tree.render {} nodes)).body ≠
        Tree.sketch (Tree.renumbered {} nodes) := by
  intro uri texts text htext nodes hsame
  have haspect : ∀ text ∈ texts,
      let nodes := (readDetached uri {} text.toList).body
      Tree.aspect (Tree.sketch (readDetached uri {} (Tree.render {} nodes)).body) ≠
        Tree.aspect (Tree.sketch (Tree.renumbered {} nodes)) := by decide +kernel
  exact haspect text htext (congrArg Tree.aspect hsame)

end IndentedSass
