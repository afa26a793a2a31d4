/-
  Where block comments are, for the reader and for the formatter.

  The reader and the formatter follow block comments in two ways.  The reader takes the
  lines that are indented deeper than the opening line or start with `*`, up to the end of
  the comment or the first line that is neither; the formatter takes all lines up to the
  end of the comment.  They agree as long as every line of a comment is one that the
  reader takes.

  * `Tree.CommentBegins` and `Tree.CommentContinues` tell the lines of the block comments
    of a tree;
  * `Reader.Commented` is the invariant that ties them to the kinds of the lines, and
    `readFile_comments` says it of the tree of a file;
  * `Line.GoesOn` is a line that the reader takes for a further line of a comment;
  * `comments_agree`: the lines that the formatter meets inside of a comment are the
    further lines of the comments in the tree.
-/
import Mathlib
import IndentedSass.Proofs.Format.Comments
import IndentedSass.Proofs.Line.Traits
import IndentedSass.Proofs.Reader.Coverage

namespace IndentedSass

/-! ## Comments in a tree -/

namespace Tree

variable {added body nodes nodes' : List Node} {path : TreePath} {i n : Nat}
  {lines : List CommentLine}

/-- A block comment of the tree begins on line `n` and has these lines. -/
def CommentAt (tree : List Node) (n : Nat) (lines : List CommentLine) : Prop :=
  ∃ path level, nodeAt? tree path = some (.leaf n (.blockComment level lines))

/-- Line `i` is the opening line of a block comment. -/
def CommentBegins (tree : List Node) (i : Nat) : Prop := ∃ lines, CommentAt tree i lines

/-- Line `i` is a further line of a block comment. -/
def CommentContinues (tree : List Node) (i : Nat) : Prop :=
  ∃ n lines, CommentAt tree n lines ∧ i ∈ lines.tail.map CommentLine.line

theorem CommentBegins.mono (h : CommentBegins nodes i) (hextends : Extends nodes nodes') :
    CommentBegins nodes' i := by
  obtain ⟨lines, path, level, hn⟩ := h
  obtain ⟨more, hn'⟩ := hextends.comment hn
  exact ⟨_, path, level, hn'⟩

theorem CommentContinues.mono (h : CommentContinues nodes i) (hextends : Extends nodes nodes') :
    CommentContinues nodes' i := by
  obtain ⟨n, lines, ⟨path, level, hn⟩, hi⟩ := h
  obtain ⟨more, hn'⟩ := hextends.comment hn
  refine ⟨n, _, ⟨path, level, hn'⟩, ?_⟩
  cases lines with
  | nil => exact absurd hi List.not_mem_nil
  | cons line rest => simp_all

/-- The comments of a tree that grew by nodes without children are the old ones and those
    among the new nodes. -/
theorem commentAt_graft (h : bodyAt? nodes path = some body)
    (hadded : ∀ line level header inner, Node.block line level header inner ∈ added → inner = [])
    (hc : CommentAt (graft added nodes path) n lines) :
    CommentAt nodes n lines ∨ ∃ level, Node.leaf n (.blockComment level lines) ∈ added := by
  obtain ⟨q, level, hq⟩ := hc
  obtain ⟨k, -, hk⟩ | ⟨old, hold, hhead⟩ := nodeAt?_graft_cases h hadded hq
  · exact .inr ⟨level, List.mem_of_getElem? hk⟩
  · rw [hhead.leaf] at hold
    exact .inl ⟨q, level, hold⟩

end Tree

/-! ## The invariant -/

namespace Reader

variable {find : Nat → Finder} {r r' : Reader} {uri : Uri} {style : IndentStyle}
  {done : List Text} {line : Text} {info : LineInfo} {kind : LineKind} {nodes : List Node}

/-- A line adds a block comment exactly when it opens one. -/
theorem Step.comment_nodes (h : Step find r info line kind nodes r') {n level : Nat}
    {lines : List CommentLine} (hmem : Node.leaf n (.blockComment level lines) ∈ nodes) :
    kind = .blockCommentStart ∧ n = info.index ∧ lines = [⟨info.index, line.trim⟩] := by
  cases h with
  | comments =>
    obtain ⟨rfl, hleaf⟩ := Node.leaf.inj (List.mem_singleton.1 hmem)
    obtain ⟨-, rfl⟩ := Leaf.blockComment.inj hleaf
    exact ⟨rfl, rfl, rfl⟩
  | opens | declares | uses => simp at hmem
  | closes _ hc => cases hc <;> simp at hmem
  | keeps _ hk => cases hk <;> simp at hmem
  | imports =>
    rw [← List.map_uncurry_zip_eq_zipWith, List.mem_map] at hmem
    obtain ⟨p, -, hp⟩ := hmem
    cases hp

theorem Step.nodes_of_start (h : Step find r info line .blockCommentStart nodes r') :
    nodes = [.leaf info.index (.blockComment (r.levelOf info) [⟨info.index, line.trim⟩])] := by
  cases h with
  | comments => rfl
  | opens _ ho => cases ho
  | closes _ hc => cases hc; simp_all
  | keeps _ hk => cases hk

/-- The block comments of the tree are those that the kinds of the lines tell. -/
structure Commented (style : IndentStyle) (done : List Text) (r : Reader) : Prop where
  begins : ∀ i, Tree.CommentBegins r.nodes i ↔ (kindsOf style done)[i]? = some .blockCommentStart
  continues : ∀ i, Tree.CommentContinues r.nodes i ↔
    (kindsOf style done)[i]? = some .blockCommentContent
  nonempty : ∀ n lines, Tree.CommentAt r.nodes n lines → lines ≠ []

theorem commented_start : Commented style [] (start uri style) := by
  have hnone : ∀ n lines, ¬Tree.CommentAt (start uri style).nodes n lines := by
    rintro n lines ⟨path, level, hn⟩
    obtain ⟨parent, i, body, -, hb, hi⟩ := Tree.nodeAt?_eq_some hn
    cases parent <;> simp_all [start, Tree.bodyAt?]
  refine ⟨fun i => ?_, fun i => ?_, fun n lines h => absurd h (hnone n lines)⟩
  · refine iff_of_false ?_ (by simp [kindsOf, Line.kinds])
    rintro ⟨lines, h⟩
    exact hnone i lines h
  · refine iff_of_false ?_ (by simp [kindsOf, Line.kinds])
    rintro ⟨n, lines, h, -⟩
    exact hnone n lines h

theorem getElem?_kindsOf_snoc (ha : After uri style done r) {i : Nat} {kind : LineKind} :
    (kindsOf style (done ++ [line]))[i]? = some kind ↔
      (kindsOf style done)[i]? = some kind ∨ (i = done.length ∧ r.kindOf line = kind) := by
  have hlength : (kindsOf style done).length = done.length := kindsOf_length
  rw [ha.kindsOf_snoc, ← hlength]
  constructor
  · intro h
    exact (getElem?_snoc h).imp id fun h => ⟨h.1, h.2.symm⟩
  · rintro (h | ⟨rfl, rfl⟩)
    · rw [List.getElem?_append_left (List.getElem?_eq_some_iff.1 h).1, h]
    · exact List.getElem?_concat_length

theorem Commented.waits (hc : Commented style done r) (ha : After uri style done r)
    (hk : r.kindOf line = .blank) : Commented style (done ++ [line])
      { r with openComment := none, pendingBlanks := r.pendingBlanks ++ [done.length] } := by
  refine ⟨fun i => ?_, fun i => ?_, hc.nonempty⟩
  · rw [getElem?_kindsOf_snoc ha, hk, ← hc.begins i]
    simp
  · rw [getElem?_kindsOf_snoc ha, hk, ← hc.continues i]
    simp

theorem Commented.goesOn {comment : OpenComment} {n level : Nat} {lines : List CommentLine}
    (hc : Commented style done r) (ha : After uri style done r) (text : Text)
    (hk : r.kindOf line = .blockCommentContent) (opened : Option OpenComment)
    (hnode : Tree.nodeAt? r.nodes comment.path = some (.leaf n (.blockComment level lines))) :
    Commented style (done ++ [line])
      { r with
        nodes := Tree.modifyAt
          (fun _ => .leaf n (.blockComment level (lines ++ [⟨done.length, text⟩]))) r.nodes
          comment.path
        openComment := opened } := by
  have hextends := Tree.extends_modifyAt [⟨done.length, text⟩] hnode
  have hnew := Tree.nodeAt?_modifyAt
    (.leaf n (.blockComment level (lines ++ [⟨done.length, text⟩]))) hnode
  have hne : lines ≠ [] := hc.nonempty n lines ⟨_, _, hnode⟩
  -- a comment of the new tree is the one that goes on, or an old one
  have hcases : ∀ m ls, Tree.CommentAt (Tree.modifyAt
      (fun _ => .leaf n (.blockComment level (lines ++ [⟨done.length, text⟩]))) r.nodes
      comment.path) m ls → (m = n ∧ ls = lines ++ [⟨done.length, text⟩]) ∨
        Tree.CommentAt r.nodes m ls := by
    rintro m ls ⟨q, l, hq⟩
    obtain ⟨-, hleaf⟩ | ⟨old, hold, hhead⟩ := Tree.nodeAt?_modifyAt_cases hnode hq
    · simp only [Node.leaf.injEq, Leaf.blockComment.injEq] at hleaf
      exact .inl ⟨hleaf.1, hleaf.2.2⟩
    · rw [hhead.leaf] at hold
      exact .inr ⟨q, l, hold⟩
  refine ⟨fun i => ?_, fun i => ?_, fun m ls h => ?_⟩
  · rw [getElem?_kindsOf_snoc ha, hk, ← hc.begins i]
    simp only [reduceCtorEq, and_false, or_false]
    refine ⟨fun ⟨ls, h⟩ => ?_, fun h => h.mono hextends⟩
    obtain ⟨rfl, -⟩ | hold := hcases i ls h
    · exact ⟨lines, _, _, hnode⟩
    · exact ⟨ls, hold⟩
  · rw [getElem?_kindsOf_snoc ha, hk, ← hc.continues i]
    constructor
    · rintro ⟨m, ls, h, hi⟩
      obtain ⟨rfl, rfl⟩ | hold := hcases m ls h
      · rw [List.tail_append_of_ne_nil hne, List.map_append, List.mem_append] at hi
        obtain hi | hi := hi
        · exact .inl ⟨m, lines, ⟨_, _, hnode⟩, hi⟩
        · exact .inr ⟨by simpa using hi, rfl⟩
      · exact .inl ⟨m, ls, hold, hi⟩
    · rintro (h | ⟨rfl, -⟩)
      · exact h.mono hextends
      · exact ⟨n, _, ⟨_, _, hnew⟩, by simp [List.tail_append_of_ne_nil hne]⟩
  · obtain ⟨-, rfl⟩ | hold := hcases m ls h
    · simp
    · exact hc.nonempty m ls hold

theorem Commented.steps (hc : Commented style done r) (ha : After uri style done r)
    (hcontent : r.kindOf line ≠ .blockCommentContent)
    (h : Step find (r.settled (r.lineInfo done.length line)) (r.lineInfo done.length line) line
      (r.kindOf line) nodes r') : Commented style (done ++ [line]) r' := by
  have hnodes := h.settled_nodes
  obtain ⟨body, hb⟩ := ha.sound.hasTarget (r.lineInfo done.length line)
  have hextends : Tree.Extends r.nodes r'.nodes := hnodes ▸ Tree.extends_graft _ hb
  have hadded : ∀ line' level header inner, Node.block line' level header inner ∈
      r.pendingBlanks.map (.leaf · .blank) ++ nodes → inner = [] := by
    intro line' level header inner hmem
    obtain hold | hnew := List.mem_append.1 hmem
    · simp at hold
    · cases h.fresh _ hnew
      rfl
  -- a comment of the new tree is an old one, or the line opens it
  have hcases : ∀ m ls, Tree.CommentAt r'.nodes m ls → Tree.CommentAt r.nodes m ls ∨
      r.kindOf line = .blockCommentStart ∧ m = done.length ∧ ls = [⟨done.length, line.trim⟩] := by
    intro m ls hat
    rw [hnodes] at hat
    obtain hold | ⟨level, hmem⟩ := Tree.commentAt_graft hb hadded hat
    · exact .inl hold
    · obtain hblank | hnew := List.mem_append.1 hmem
      · simp at hblank
      · exact .inr (h.comment_nodes hnew)
  refine ⟨fun i => ?_, fun i => ?_, fun m ls hat => ?_⟩
  · rw [getElem?_kindsOf_snoc ha, ← hc.begins i]
    constructor
    · rintro ⟨ls, hat⟩
      obtain hold | ⟨hk, rfl, -⟩ := hcases i ls hat
      · exact .inl ⟨ls, hold⟩
      · exact .inr ⟨rfl, hk⟩
    · rintro (hold | ⟨rfl, hk⟩)
      · exact hold.mono hextends
      · rw [hk] at h
        rw [Tree.CommentBegins, h.nodes_eq, h.nodes_of_start]
        exact ⟨_, _, _, nodeAt?_slot
          ((ha.sound.settled (r.lineInfo done.length line)).hasTarget (r.lineInfo done.length line))⟩
  · rw [getElem?_kindsOf_snoc ha, ← hc.continues i]
    constructor
    · rintro ⟨m, ls, hat, hi⟩
      obtain hold | ⟨-, -, rfl⟩ := hcases m ls hat
      · exact .inl ⟨m, ls, hold, hi⟩
      · simp at hi
    · rintro (hold | ⟨-, hk⟩)
      · exact hold.mono hextends
      · exact absurd hk hcontent
  · obtain hold | ⟨-, -, rfl⟩ := hcases m ls hat
    · exact hc.nonempty m ls hold
    · simp

theorem Commented.reads (hc : Commented style done r) (ha : After uri style done r)
    (h : Reads find r done.length line r') : Commented style (done ++ [line]) r' := by
  cases h with
  | waits hk => exact hc.waits ha hk
  | goesOn text hk _ hnode => exact hc.goesOn ha text hk _ hnode
  | steps _ hcontent hstep => exact hc.steps ha hcontent hstep

end Reader

/-- The block comments of the tree of a file are those that the kinds of its lines tell. -/
theorem readFile_comments {σ : Type} (resolver : Resolver σ) (files : σ) (uri : Uri)
    (style : IndentStyle) (text : Text) (i : Nat) :
    let kinds := Reader.kindsOf style (text.lines.map Text.dropReturn)
    let tree := (readFile resolver files uri style text).entry.body
    (Tree.CommentBegins tree i ↔ kinds[i]? = some .blockCommentStart) ∧
      (Tree.CommentContinues tree i ↔ kinds[i]? = some .blockCommentContent) := by
  intro kinds tree
  have hstart : Reader.Commented style [] (.start uri style) := Reader.commented_start
  obtain ⟨-, hc⟩ := Reading.readLines_run resolver hstart
    (fun _ _ _ _ _ ha hc h => hc.reads ha h) files text.lines
  -- the blank lines that still wait at the end are no comments
  have htree : tree = Tree.graft _ _ [] := congrArg Reader.nodes (Reader.flushBlanks_eq rfl)
  have hextends : Tree.Extends (Reading.readLines resolver ⟨.start uri style, files, []⟩ 0
      text.lines).reader.nodes tree := by
    rw [htree]
    exact Tree.extends_graft _ rfl
  have hcases : ∀ n lines, Tree.CommentAt tree n lines → Tree.CommentAt (Reading.readLines resolver
      ⟨.start uri style, files, []⟩ 0 text.lines).reader.nodes n lines := by
    intro n lines hat
    rw [htree] at hat
    obtain hold | ⟨level, hmem⟩ := Tree.commentAt_graft rfl (by simp) hat
    · exact hold
    · simp at hmem
  refine ⟨?_, ?_⟩
  · rw [← hc.begins i]
    exact ⟨fun ⟨lines, h⟩ => ⟨lines, hcases i lines h⟩, fun h => h.mono hextends⟩
  · rw [← hc.continues i]
    exact ⟨fun ⟨n, lines, h, hi⟩ => ⟨n, lines, hcases n lines h, hi⟩, fun h => h.mono hextends⟩

/-! ## The lines of a text -/

namespace Line

variable {tab : Nat} {first line : Text} {lines : List Text}

/-- A line is a further line of the block comment that the line `first` opens, as the
    reader sees it: it is indented deeper or starts with `*`, and it is not blank. -/
def GoesOn (tab : Nat) (first line : Text) : Prop :=
  isBlankLine line = false ∧
    (Indent.width tab first < Indent.width tab line ∨ line.trim.head? = some '*')

/-- Every line inside of a block comment goes on with it. -/
def CommentsGoOn (tab : Nat) (lines : List Text) : Prop :=
  ∀ i line first, lines[i]? = some line → opener (lines.take i) = some first → GoesOn tab first line

instance (tab : Nat) (first line : Text) : Decidable (GoesOn tab first line) :=
  inferInstanceAs (Decidable (_ ∧ _))

/-- What holds of the lines inside of comments can be checked line by line. -/
theorem forall_inside_iff {P : Text → Text → Prop} :
    (∀ i line first, lines[i]? = some line → opener (lines.take i) = some first → P first line) ↔
      ∀ i : Fin lines.length, ∀ first ∈ opener (lines.take i), P first (lines.get i) := by
  constructor
  · intro h i first hfirst
    exact h i lines[i] first (List.getElem?_eq_getElem i.2) hfirst
  · intro h i line first hline hfirst
    obtain ⟨hlt, rfl⟩ := List.getElem?_eq_some_iff.1 hline
    exact h ⟨i, hlt⟩ first hfirst

theorem continuesComment_of_goesOn (h : GoesOn tab first line) :
    continuesComment tab (Indent.width tab first) line = true := by
  obtain ⟨hblank, h⟩ := h
  unfold continuesComment
  cases htrim : line.trim with
  | nil => simp [isBlankLine, Text.isAllWhite, htrim] at hblank
  | cons c rest =>
    rw [htrim] at h
    obtain hdeep | hstar := h
    · simp [hdeep]
    · simp [Option.some.inj hstar]

/-- A line that opens a block comment is neither blank nor a line comment. -/
theorem kindOutsideComment_eq_start_iff :
    kindOutsideComment line = .blockCommentStart ↔ opensBlockComment line = true := by
  constructor
  · intro h
    by_contra hopens
    revert h
    unfold kindOutsideComment
    rw [if_neg hopens]
    repeat' refine iteInduction (motive := (· ≠ LineKind.blockCommentStart)) (fun _ => ?_) fun _ => ?_
    all_goals decide
  · intro h
    obtain ⟨rest, hprefix⟩ := Option.isSome_iff_exists.1 h
    have hbody : line.body = '/' :: '*' :: rest := Text.dropPrefix?_eq_some_iff.1 hprefix
    have hvisible : ¬isBlankLine line = true := by
      intro hblank
      have hmem : '/' ∈ line.body := by simp [hbody]
      exact absurd (white_of_isBlankLine hblank '/' ((List.dropWhile_sublist _).mem hmem)) (by decide)
    have hline : ¬isLineComment line = true := by
      simp [isLineComment, hbody, Text.startsWith, Text.dropPrefix?]
    rw [kindOutsideComment, if_neg hvisible, if_neg hline, if_pos h]

theorem getElem?_kinds (tab : Nat) (opened : Option Nat) (lines : List Text) (i : Nat) :
    (kinds tab opened lines)[i]? =
      lines[i]?.map (kind tab ((lines.take i).foldl (commentAfter tab) opened)) := by
  induction lines generalizing opened i with
  | nil => rfl
  | cons line rest ih =>
    cases i with
    | zero => rfl
    | succ i => simpa [kinds] using ih (commentAfter tab opened line) i

/-- Outside of comments a line opens one if it says so. -/
theorem commentAfter_none (tab : Nat) (line : Text) :
    commentAfter tab none line =
      if opensBlockComment line && leavesCommentOpen line then some (Indent.width tab line) else none := by
  unfold commentAfter
  rw [kind_none]
  cases hopens : opensBlockComment line with
  | true => rw [kindOutsideComment_eq_start_iff.2 hopens, Bool.true_and]
  | false =>
    have hstart : kindOutsideComment line ≠ .blockCommentStart := fun h => by
      rw [kindOutsideComment_eq_start_iff, hopens] at h
      exact Bool.false_ne_true h
    have hcontent := kindOutsideComment_ne_content line
    cases hk : kindOutsideComment line <;> simp_all

/-- A line that goes on with a comment may close it. -/
theorem commentAfter_some {column : Nat} (h : continuesComment tab column line = true) :
    commentAfter tab (some column) line = if closesBlockComment line then none else some column := by
  rw [commentAfter, kind, if_pos h]

/-- One line keeps the two views of the open comment together. -/
theorem commentAfter_openedBy {opened : Option Text} (line : Text)
    (h : ∀ first, opened = some first → GoesOn tab first line) :
    commentAfter tab (opened.map (Indent.width tab)) line =
      (openedBy opened line).map (Indent.width tab) := by
  cases opened with
  | some first =>
    rw [Option.map_some, commentAfter_some (continuesComment_of_goesOn (h first rfl)), openedBy,
      apply_ite (Option.map _)]
    rfl
  | none =>
    rw [Option.map_none, commentAfter_none, openedBy, apply_ite (Option.map _)]
    rfl

/-- The comment that is open before a line is the one that the texts tell. -/
theorem commentOf_take {style : IndentStyle} (h : CommentsGoOn style.tabStop lines) :
    ∀ i, Reader.commentOf style (lines.take i) =
      (opener (lines.take i)).map (Indent.width style.tabStop) := by
  intro i
  induction i with
  | zero => rfl
  | succ i ih =>
    cases hline : lines[i]? with
    | none =>
      have hlen : lines.length ≤ i := List.getElem?_eq_none_iff.1 hline
      rwa [List.take_of_length_le (by omega), ← List.take_of_length_le hlen]
    | some line =>
      obtain ⟨hlt, hget⟩ := List.getElem?_eq_some_iff.1 hline
      have htake : lines.take (i + 1) = lines.take i ++ [line] := by
        rw [← hget, List.take_append_getElem]
      rw [htake, opener_snoc, ← commentAfter_openedBy line fun first => h i line first hline, ← ih]
      simp [Reader.commentOf, List.foldl_append]

/-- The lines inside of comments are those that the reader takes for further lines. -/
theorem kindsOf_eq_content_iff {style : IndentStyle} (h : CommentsGoOn style.tabStop lines) {i : Nat}
    (hline : lines[i]? = some line) :
    (Reader.kindsOf style lines)[i]? = some .blockCommentContent ↔
      (opener (lines.take i)).isSome = true := by
  rw [Reader.kindsOf, getElem?_kinds, hline, Option.map_some, Option.some.injEq,
    show List.foldl _ _ _ = _ from commentOf_take h i]
  cases hopened : opener (lines.take i) with
  | none => exact iff_of_false (kindOutsideComment_ne_content line) Bool.false_ne_true
  | some first =>
    refine iff_of_true ?_ rfl
    rw [Option.map_some, kind, if_pos (continuesComment_of_goesOn (h i line first hline hopened))]

/-- Outside of comments, the lines that open one are those that the reader takes for it. -/
theorem kindsOf_eq_start_iff {style : IndentStyle} (h : CommentsGoOn style.tabStop lines) {i : Nat}
    (hline : lines[i]? = some line) :
    (Reader.kindsOf style lines)[i]? = some .blockCommentStart ↔
      opener (lines.take i) = none ∧ opensBlockComment line = true := by
  rw [Reader.kindsOf, getElem?_kinds, hline, Option.map_some, Option.some.injEq,
    show List.foldl _ _ _ = _ from commentOf_take h i]
  cases hopened : opener (lines.take i) with
  | none => rw [Option.map_none, kind_none, kindOutsideComment_eq_start_iff, eq_self, true_and]
  | some first =>
    rw [Option.map_some, kind, if_pos (continuesComment_of_goesOn (h i line first hline hopened))]
    simp

end Line

/-! ## The two views -/

namespace Tree

/-- Line `i` is a line of a block comment. -/
def InComment (tree : List Node) (i : Nat) : Prop :=
  ∃ n lines, CommentAt tree n lines ∧ i ∈ lines.map CommentLine.line

/-- The first line of a comment is the one that opens it. -/
theorem Covers.inComment_iff {lines : List Text} {kinds : List LineKind} {tree : List Node}
    (h : Covers lines kinds tree) (i : Nat) :
    InComment tree i ↔ CommentBegins tree i ∨ CommentContinues tree i := by
  have hfirst : ∀ n ls, CommentAt tree n ls → ∃ first rest, ls = first :: rest ∧ first.line = n := by
    rintro n ls ⟨path, level, hn⟩
    obtain ⟨hne, hlines⟩ := h.comments path n level ls hn
    obtain ⟨first, rest, rfl⟩ := List.exists_cons_of_ne_nil hne
    exact ⟨first, rest, rfl, (List.cons.inj hlines).1⟩
  constructor
  · rintro ⟨n, ls, hat, hi⟩
    obtain ⟨first, rest, rfl, rfl⟩ := hfirst n ls hat
    obtain rfl | hi := List.mem_cons.1 hi
    · exact .inl ⟨_, hat⟩
    · exact .inr ⟨_, _, hat, hi⟩
  · rintro (⟨ls, hat⟩ | ⟨n, ls, hat, hi⟩)
    · obtain ⟨first, rest, rfl, rfl⟩ := hfirst i ls hat
      exact ⟨_, _, hat, List.mem_cons_self⟩
    · exact ⟨n, ls, hat, ((List.tail_sublist ls).map _).mem hi⟩

end Tree

/-- The formatter and the reader agree on the lines of block comments, in a text without
    ignore marks in which every line up to the end of a comment is not blank and is indented
    deeper than the opening line or starts with `*`: the lines that the formatter meets
    inside of a comment are the further lines of the comments in the tree, and with the
    lines that open one they are all lines of the comments. -/
theorem comments_agree {σ : Type} (resolver : Resolver σ) (files : σ) (uri : Uri)
    (config : FormatConfig) (style : IndentStyle) (text : Text) (henabled : config.enabled = true)
    (hmarks : ∀ line ∈ text.lines.map Text.dropReturn, Line.isIgnoreMark line = false)
    (hgoesOn : Line.CommentsGoOn style.tabStop (text.lines.map Text.dropReturn)) :
    ∀ i line, (text.lines.map Text.dropReturn)[i]? = some line →
      let inside := (Format.stateBefore config style text i).inBlockComment
      let tree := (readFile resolver files uri style text).entry.body
      (inside = true ↔ Tree.CommentContinues tree i) ∧
        (inside = true ∨ Line.opensBlockComment line = true ↔ Tree.InComment tree i) := by
  intro i line hline inside tree
  obtain ⟨hbegins, hcontinues⟩ := readFile_comments resolver files uri style text i
  have hlt : i ≤ (text.lines.map Text.dropReturn).length :=
    Nat.le_of_lt (List.getElem?_eq_some_iff.1 hline).1
  have hinside : inside = (Line.opener ((text.lines.map Text.dropReturn).take i)).isSome :=
    Format.stateBefore_inBlockComment style henabled hmarks hlt
  have hcovers := covers_readFile resolver files uri style text
  rw [hcovers.inComment_iff i, hbegins, hcontinues, Line.kindsOf_eq_content_iff hgoesOn hline,
    Line.kindsOf_eq_start_iff hgoesOn hline, hinside]
  refine ⟨Iff.rfl, ?_⟩
  cases Line.opener ((text.lines.map Text.dropReturn).take i) <;> simp

/-- The second line of a comment begins with a star at the column of the first, so that the third one
    is in the comment for both. -/
theorem comments_agree_starred :
    let uri : Uri := ⟨"file".toList, none, "/a.sass".toList, none, none⟩
    let text : Text := "/* a\n* b\n    c\n*/".toList
    (Format.stateBefore {} {} text 2).inBlockComment = true ∧
      Tree.CommentContinues (readFile .detached () uri {} text).entry.body 2 := by
  intro uri text
  have hgoesOn : Line.CommentsGoOn 2 (text.lines.map Text.dropReturn) :=
    Line.forall_inside_iff.2 (by decide +kernel)
  have hinside : (Format.stateBefore {} {} text 2).inBlockComment = true := by decide +kernel
  exact ⟨hinside, (comments_agree .detached () uri {} {} text rfl (by decide) hgoesOn 2
    "    c".toList (by decide)).1.1 hinside⟩

/-- A blank line ends a comment for the reader, but not for the formatter. -/
theorem comments_differ_behind_blank :
    let uri : Uri := ⟨"file".toList, none, "/a.sass".toList, none, none⟩
    let text : Text := "/* a\n\n  b\n*/".toList
    let lines := text.lines.map Text.dropReturn
    (∀ line ∈ lines, Line.isIgnoreMark line = false) ∧ Line.opener lines = none ∧
      (∀ i line first, lines[i]? = some line → Line.opener (lines.take i) = some first →
        Line.isBlankLine line = true ∨ Line.GoesOn 2 first line) ∧
      (Format.stateBefore {} {} text 2).inBlockComment = true ∧
      ¬Tree.InComment (readFile .detached () uri {} text).entry.body 2 := by
  intro uri text lines
  refine ⟨by decide, by decide, Line.forall_inside_iff.2 (by decide +kernel), by decide +kernel, ?_⟩
  · obtain ⟨hbegins, hcontinues⟩ := readFile_comments .detached () uri {} text 2
    rw [(covers_readFile .detached () uri {} text).inComment_iff 2, hbegins, hcontinues]
    decide +kernel

end IndentedSass
