/-
  What a run of lines does to a reader.

  A line waits (when it is blank), goes on with the block comment that is open, or
  makes a `Step` after the waiting blank lines found their place.

  * `Reader.Reads`: the three ways to read a line, and `Reading.readLine_reads`;
  * `Reader.Sound`: every path that the reader holds leads to a node of the right
    kind, and none was lost so far (`Reads.sound`);
  * `Reading.readLines_keeps`, `Reading.readLines_run`: what holds at the start and is
    kept by every line holds after all lines.
-/
import Mathlib
import IndentedSass.Proofs.Indent.Levels
import IndentedSass.Proofs.Reader.Step

namespace IndentedSass

/-- A node as a line adds it: without children, and a block comment with the line
    itself only. -/
inductive Node.Fresh (index : Nat) : Node → Prop
  | leaf {leaf : Leaf} (h : ∀ level lines, leaf = .blockComment level lines →
      lines.map CommentLine.line = [index]) : Fresh index (.leaf index leaf)
  | block {level : Nat} {header : Header} : Fresh index (.block index level header [])

theorem Node.Fresh.line_eq {index : Nat} {node : Node} (h : node.Fresh index) :
    node.line = index := by
  cases h <;> rfl

theorem listing_fresh {index : Nat} {nodes : List Node}
    (h : ∀ node ∈ nodes, Node.Fresh index node) : Tree.listing nodes = nodes := by
  induction nodes with
  | nil => rfl
  | cons node rest ih =>
    have hone : Tree.listingOfOne node = [node] := by
      cases h node (List.mem_cons_self ..) <;> rfl
    rw [Tree.listing, hone, ih fun n hn => h n (List.mem_cons_of_mem _ hn)]
    rfl

/-- How many nodes a line of a kind adds: one for each path of an `@import`, and
    one for every other line. -/
def Line.nodeCount (kind : LineKind) (line : Text) : Nat :=
  if kind = .importPaths then max 1 ((importPaths? line).getD []).length else 1

namespace Reader

variable {find : Nat → Finder} {r r' : Reader} {info : LineInfo} {line : Text}
  {kind : LineKind} {nodes : List Node} {index : Nat}

/-! ## The parts of a step -/

theorem declareAll_frame (s : Scope) (parameters : List Parameter) (line level : Nat) :
    (s.declareAll parameters line level).blocks = s.blocks ∧
      (s.declareAll parameters line level).uri = s.uri := by
  induction parameters generalizing s with
  | nil => exact ⟨rfl, rfl⟩
  | cons p rest ih => exact ih (s.declareParameter p.name line level)

theorem Step.nodes_eq (h : Step find r info line kind nodes r') :
    r'.nodes = r.grown info nodes := by
  cases h <;> rfl

theorem Step.frame (h : Step find r info line kind nodes r') :
    r'.uri = r.uri ∧ r'.style = r.style ∧ r'.scope.uri = r.scope.uri ∧
      r'.pendingBlanks = r.pendingBlanks ∧ r'.lost = r.lost := by
  cases h with
  | opens => exact ⟨rfl, rfl, (declareAll_frame _ _ _ _).2, rfl, rfl⟩
  | imports _ _ _ _ _ _ huri => exact ⟨rfl, rfl, huri, rfl, rfl⟩
  | uses _ _ _ _ hscope =>
    obtain rfl | ⟨imported, rfl⟩ := hscope
    · exact ⟨rfl, rfl, rfl, rfl, rfl⟩
    · exact ⟨rfl, rfl, rfl, rfl, rfl⟩
  | _ => exact ⟨rfl, rfl, rfl, rfl, rfl⟩

theorem Step.fresh (h : Step find r info line kind nodes r') :
    ∀ node ∈ nodes, Node.Fresh info.index node := by
  intro node hnode
  cases h with
  | opens =>
    rw [List.mem_singleton.1 hnode]
    exact .block
  | closes _ hc =>
    rw [List.mem_singleton.1 hnode]
    refine .leaf fun level lines hl => ?_
    cases hc <;> cases hl
  | keeps _ hk =>
    rw [List.mem_singleton.1 hnode]
    refine .leaf fun level lines hl => ?_
    cases hk <;> cases hl
  | comments =>
    rw [List.mem_singleton.1 hnode]
    refine .leaf fun level lines hl => ?_
    cases hl
    rfl
  | imports =>
    rw [← List.map_uncurry_zip_eq_zipWith, List.mem_map] at hnode
    obtain ⟨⟨path, target⟩, -, rfl⟩ := hnode
    exact .leaf fun level lines hl => nomatch hl
  | declares | uses =>
    rw [List.mem_singleton.1 hnode]
    exact .leaf fun level lines hl => nomatch hl

theorem Step.length_eq (h : Step find r info line kind nodes r') :
    nodes.length = Line.nodeCount kind line := by
  cases h with
  | opens _ ho => cases ho <;> rfl
  | closes _ hc =>
    cases hc with
    | noPaths hp => rcases hp with hp | hp <;> simp [Line.nodeCount, hp]
    | noColon hk => rcases hk with rfl | rfl <;> rfl
    | _ => rfl
  | keeps _ hk => cases hk <;> rfl
  | imports _ hp hne hlen =>
    have hpos := List.length_pos_of_ne_nil hne
    simp only [Line.nodeCount, hp, List.length_zipWith, hlen, if_true, Option.getD_some]
    omega
  | declares | comments | uses => rfl

/-! ## Sound readers -/

/-- The paths of a reader lead to nodes of the right kind. -/
structure Sound (r : Reader) : Prop where
  /-- The path of every open block leads to a block. -/
  blocks : ∀ block ∈ r.scope.blocks, ∃ line level header body,
    Tree.nodeAt? r.nodes block.path = some (.block line level header body)
  /-- The path of the open block comment leads to a block comment. -/
  comment : ∀ comment, r.openComment = some comment → ∃ line level lines,
    Tree.nodeAt? r.nodes comment.path = some (.leaf line (.blockComment level lines))
  /-- No block is open as long as `@use` may come. -/
  use : r.useAllowed = true → r.scope.blocks = []
  /-- No blank line waits while a block comment is open. -/
  waiting : r.openComment ≠ none → r.pendingBlanks = []
  /-- No path was lost. -/
  lost : r.lost = []

theorem sound_start (uri : Uri) (style : IndentStyle) : (start uri style).Sound where
  blocks := by simp [start]
  comment := by simp [start]
  use := by simp [start]
  waiting := by simp [start]
  lost := rfl

/-- The body of a line is the top level or that of an open block. -/
theorem target_mem (r : Reader) (info : LineInfo) :
    (r.target info).1 = [] ∨ ∃ block ∈ r.scope.blocks, (r.target info).1 = block.path := by
  unfold target
  dsimp only
  by_cases htop : info.column < r.style.tabStop ∨ r.scope.blocks.length = 0
  · exact .inl (by rw [if_pos htop])
  · rw [if_neg htop]
    by_cases hdeep : r.scope.blocks.length < info.rawLevel
    · rw [if_pos hdeep]
      cases hlast : r.scope.blocks.getLast? with
      | none => exact .inl rfl
      | some block => exact .inr ⟨block, List.mem_of_getLast? hlast, rfl⟩
    · rw [if_neg hdeep]
      cases hget : r.scope.blocks[info.rawLevel - 1]? with
      | none => exact .inl rfl
      | some block => exact .inr ⟨block, List.mem_of_getElem? hget, rfl⟩

theorem Sound.path_ne_nil {block : OpenBlock} (hs : r.Sound) (hmem : block ∈ r.scope.blocks) :
    block.path ≠ [] := by
  intro hnil
  obtain ⟨line, level, header, body, hn⟩ := hs.blocks block hmem
  rw [hnil] at hn
  cases hn

theorem Sound.bodyAt?_block {block : OpenBlock} (hs : r.Sound) (hmem : block ∈ r.scope.blocks) :
    ∃ body, Tree.bodyAt? r.nodes block.path = some body := by
  obtain ⟨line, level, header, body, hn⟩ := hs.blocks block hmem
  exact ⟨body, (Tree.bodyAt?_eq_some_iff (hs.path_ne_nil hmem)).2 ⟨line, level, header, hn⟩⟩

theorem Sound.hasTarget (hs : r.Sound) (info : LineInfo) : r.HasTarget info := by
  rcases r.target_mem info with htop | ⟨block, hmem, hpath⟩
  · exact ⟨r.nodes, by rw [htop]; rfl⟩
  · obtain ⟨body, hb⟩ := hs.bodyAt?_block hmem
    exact ⟨body, by rw [hpath, hb]⟩

/-! ## Reading a line -/

/-- The reader after the waiting blank lines went where a line goes, and the block
    comment ended. -/
def settled (r : Reader) (info : LineInfo) : Reader :=
  { r with
    nodes := r.grown info (r.pendingBlanks.map (.leaf · .blank))
    openComment := none
    pendingBlanks := [] }

/-- The kind of a line that is read next. -/
def kindOf (r : Reader) (line : Text) : LineKind :=
  Line.kind r.style.tabStop (r.openComment.map (·.column)) line

/-- The three ways to read a line. -/
inductive Reads (find : Nat → Finder) (r : Reader) (index : Nat) (line : Text) :
    Reader → Prop
  /-- A blank line waits. -/
  | waits (hk : r.kindOf line = .blank) :
      Reads find r index line
        { r with openComment := none, pendingBlanks := r.pendingBlanks ++ [index] }
  /-- The open block comment goes on. -/
  | goesOn {comment : OpenComment} {n level : Nat} {lines : List CommentLine} (text : Text)
      (hk : r.kindOf line = .blockCommentContent) (hopen : r.openComment = some comment)
      (hnode : Tree.nodeAt? r.nodes comment.path = some (.leaf n (.blockComment level lines))) :
      Reads find r index line
        { r with
          nodes := Tree.modifyAt
            (fun _ => .leaf n (.blockComment level (lines ++ [⟨index, text⟩]))) r.nodes comment.path
          openComment := if Line.closesBlockComment line then none else some comment }
  /-- A step, after the blank lines found their place. -/
  | steps {nodes : List Node} {r' : Reader} (hblank : r.kindOf line ≠ .blank)
      (hcontent : r.kindOf line ≠ .blockCommentContent)
      (hstep : Step find (r.settled (r.lineInfo index line)) (r.lineInfo index line) line
        (r.kindOf line) nodes r') :
      Reads find r index line r'

/-! ## What a line keeps -/

theorem Step.extends (htarget : r.HasTarget info) (h : Step find r info line kind nodes r') :
    Tree.Extends r.nodes r'.nodes := by
  obtain ⟨body, hb⟩ := htarget
  rw [h.nodes_eq]
  exact Tree.extends_graft nodes hb

theorem nodeAt?_slot {node : Node} (htarget : r.HasTarget info) :
    Tree.nodeAt? (r.grown info [node]) (r.slot info) = some node := by
  obtain ⟨body, hb⟩ := htarget
  have hslot : r.slot info = (r.target info).1 ++ [body.length + 0] := by simp [slot, hb]
  rw [hslot, grown, Tree.nodeAt?_graft hb]
  rfl

/-- The blocks that are open after a step were open before, or are the new one. -/
theorem Step.mem_blocks (h : Step find r info line kind nodes r') {block : OpenBlock}
    (hmem : block ∈ r'.scope.blocks) :
    block ∈ r.scope.blocks ∨ ∃ header, block.path = r.slot info ∧
      nodes = [.block info.index (r.levelOf info) header []] := by
  cases h with
  | @opens _ header _ _ =>
    rw [(declareAll_frame _ _ _ _).1] at hmem
    rcases List.mem_append.1 hmem with hold | hnew
    · exact .inl (List.mem_of_mem_take hold)
    · exact .inr ⟨header, by rw [List.mem_singleton.1 hnew], rfl⟩
  | closes => exact .inl (List.mem_of_mem_take hmem)
  | declares => exact .inl (List.mem_of_mem_take hmem)
  | keeps | comments => exact .inl hmem
  | imports _ _ _ _ hblocks =>
    rw [hblocks] at hmem
    exact .inl (List.mem_of_mem_take hmem)
  | uses _ _ _ _ hscope =>
    obtain rfl | ⟨imported, rfl⟩ := hscope
    · exact .inl hmem
    · exact .inl (List.mem_of_mem_take hmem)

/-- The blocks that are open after a line of a kind. -/
theorem Step.blocks_eq (h : Step find r info line kind nodes r')
    (huse : r.useAllowed = true → r.scope.blocks = []) :
    r'.scope.blocks = match kind with
      | .comment | .blockCommentStart | .useModule => r.scope.blocks
      | .selector | .fontFace | .mixin =>
        r.scope.blocks.take (r.levelOf info) ++ [⟨r.levelOf info, r.slot info⟩]
      | _ => r.scope.blocks.take (r.levelOf info) := by
  cases h with
  | opens _ ho =>
    dsimp only
    rw [(declareAll_frame _ _ _ _).1]
    cases ho <;> rfl
  | closes _ hc =>
    cases hc with
    | noColon hk => rcases hk with rfl | rfl <;> rfl
    | noModule hu => simp [Scope.truncate, huse hu]
    | _ => rfl
  | keeps _ hk => cases hk <;> rfl
  | declares | comments => rfl
  | imports _ _ _ _ hblocks => exact hblocks
  | uses _ _ hu _ hscope =>
    obtain rfl | ⟨imported, rfl⟩ := hscope
    · rfl
    · simp [Scope.declareImport, Scope.truncate, huse hu]

/-- Only a header leaves a block open that was not open before, the last one then. -/
theorem Step.length_blocks (huse : r.useAllowed = true → r.scope.blocks = [])
    (h : Step find r info line kind nodes r') :
    r'.scope.blocks.length ≤
      if kind.opensBlock then r.levelOf info + 1 else r.scope.blocks.length := by
  rw [h.blocks_eq huse]
  cases kind <;> simp [LineKind.opensBlock]

/-- As long as `@use` may come, a step opens no block. -/
theorem Step.use (h : Step find r info line kind nodes r')
    (huse : r.useAllowed = true → r.scope.blocks = []) :
    r'.useAllowed = true → r'.scope.blocks = [] := by
  intro hu
  cases h with
  | opens | closes | imports => cases hu
  | keeps | comments => exact huse hu
  | declares =>
    show List.take _ _ = []
    rw [huse hu, List.take_nil]
  | uses _ _ _ _ hscope =>
    obtain rfl | ⟨imported, rfl⟩ := hscope
    · exact huse hu
    · rfl

/-- A block comment that is open after a step is the one that the step began. -/
theorem Step.comment_slot {comment : OpenComment} (hopen : r.openComment = none)
    (h : Step find r info line kind nodes r') (hc : r'.openComment = some comment) :
    comment.path = r.slot info ∧
      nodes = [.leaf info.index (.blockComment (r.levelOf info) [⟨info.index, line.trim⟩])] := by
  cases h with
  | comments =>
    dsimp only at hc
    split at hc
    · cases hc
      exact ⟨rfl, rfl⟩
    · rw [hopen] at hc
      cases hc
  | _ =>
    rw [show _ = r.openComment from rfl, hopen] at hc
    cases hc

/-- The nodes of an `@import` line are its paths. -/
theorem Step.import_nodes {paths : List Text} (h : Step find r info line .importPaths nodes r')
    (hp : importPaths? line = some paths) (hne : paths ≠ []) {k : Nat} {p : Text}
    (hk : paths[k]? = some p) :
    ∃ target, nodes[k]? = some (.leaf info.index (.importPath (r.levelOf info) p target)) := by
  cases h with
  | opens _ ho => cases ho
  | keeps _ hkeeps => cases hkeeps
  | closes _ hc =>
    cases hc with
    | noColon hkind => simp at hkind
    | noPaths hnone =>
      rcases hnone with hnone | hnone
      · rw [hp] at hnone
        cases hnone
      · rw [hp] at hnone
        exact absurd (Option.some.inj hnone) hne
  | @imports _ targets _ _ hp' _ hlen =>
    rw [hp] at hp'
    cases hp'
    have hlt := (List.getElem?_eq_some_iff.1 hk).1
    have htarget : k < targets.length := hlen.symm ▸ hlt
    refine ⟨targets[k], ?_⟩
    rw [List.getElem?_zipWith, hk, List.getElem?_eq_getElem htarget]

theorem Step.sound (hs : r.Sound) (hopen : r.openComment = none) (hblanks : r.pendingBlanks = [])
    (h : Step find r info line kind nodes r') : r'.Sound := by
  have htarget := hs.hasTarget info
  have hextends := h.extends htarget
  obtain ⟨-, -, -, hpending, hlost⟩ := h.frame
  refine ⟨?_, ?_, h.use hs.use, fun _ => hpending.trans hblanks, hlost.trans hs.lost⟩
  · intro block hmem
    rcases h.mem_blocks hmem with hold | ⟨header, hpath, hnodes⟩
    · obtain ⟨line, level, header, body, hn⟩ := hs.blocks block hold
      exact ⟨line, level, header, hextends.block hn⟩
    · rw [h.nodes_eq, hpath, hnodes, nodeAt?_slot htarget]
      exact ⟨_, _, _, _, rfl⟩
  · intro comment hc
    obtain ⟨hpath, hnodes⟩ := h.comment_slot hopen hc
    rw [h.nodes_eq, hpath, hnodes, nodeAt?_slot htarget]
    exact ⟨_, _, _, rfl⟩

theorem Sound.settled (hs : r.Sound) (info : LineInfo) : (r.settled info).Sound := by
  obtain ⟨body, hb⟩ := hs.hasTarget info
  refine ⟨?_, ?_, hs.use, ?_, hs.lost⟩
  · intro block hmem
    obtain ⟨line, level, header, inner, hn⟩ := hs.blocks block hmem
    exact ⟨line, level, header, (Tree.extends_graft _ hb).block hn⟩
  · intro comment hc
    cases hc
  · intro _
    rfl

theorem Reads.sound (hs : r.Sound) (h : Reads find r index line r') : r'.Sound := by
  cases h with
  | waits => exact ⟨hs.blocks, by simp, hs.use, by simp, hs.lost⟩
  | goesOn text _ hopen hnode =>
    have hextends := Tree.extends_modifyAt [⟨index, text⟩] hnode
    have hwaiting := hs.waiting (by simp [hopen])
    refine ⟨?_, ?_, hs.use, fun _ => hwaiting, hs.lost⟩
    · intro block hmem
      obtain ⟨line, level, header, body, hn⟩ := hs.blocks block hmem
      exact ⟨line, level, header, hextends.block hn⟩
    · intro comment' hc
      dsimp only at hc
      split at hc
      · cases hc
      · cases hc
        obtain ⟨more, hn⟩ := hextends.comment hnode
        exact ⟨_, _, _, hn⟩
  | steps _ _ hstep => exact hstep.sound (hs.settled _) rfl rfl

/-- The tree after a step, from before the blank lines found their place. -/
theorem Step.settled_nodes (h : Step find (r.settled info) info line kind nodes r') :
    r'.nodes = Tree.graft (r.pendingBlanks.map (.leaf · .blank) ++ nodes) r.nodes
      (r.target info).1 := by
  rw [h.nodes_eq]
  exact Tree.graft_graft _ _

/-- Every node stays at its path when a line is read. -/
theorem Reads.extends (hs : r.Sound) (h : Reads find r index line r') :
    Tree.Extends r.nodes r'.nodes := by
  cases h with
  | waits => exact .refl _
  | goesOn text _ _ hnode => exact Tree.extends_modifyAt _ hnode
  | steps _ _ hstep =>
    obtain ⟨body, hb⟩ := hs.hasTarget (r.lineInfo index line)
    rw [hstep.settled_nodes]
    exact Tree.extends_graft _ hb

theorem Reads.length_blocks (hs : r.Sound) (h : Reads find r index line r') :
    r'.scope.blocks.length ≤
      if (r.kindOf line).opensBlock then r.levelOf (r.lineInfo index line) + 1
      else r.scope.blocks.length := by
  cases h with
  | waits hblank => simp [hblank, LineKind.opensBlock]
  | goesOn _ hcontent => simp [hcontent, LineKind.opensBlock]
  | steps _ _ hstep => exact hstep.length_blocks (r := r.settled _) hs.use

theorem Step.comment_eq (hopen : r.openComment = none) (hcolumn : info.column =
    Indent.width r.style.tabStop line) (h : Step find r info line kind nodes r') :
    r'.openComment.map (·.column) =
      if kind = .blockCommentStart ∧ Line.leavesCommentOpen line then
        some (Indent.width r.style.tabStop line) else none := by
  cases h with
  | comments =>
    by_cases hleaves : Line.leavesCommentOpen line = true
    · simp [hleaves, hcolumn]
    · simp [hleaves, hopen]
  | opens _ ho => cases ho <;> simp [hopen]
  | closes _ hc =>
    cases hc with
    | noColon hk => rcases hk with rfl | rfl <;> simp [hopen]
    | _ => simp [hopen]
  | keeps _ hk => cases hk <;> simp [hopen]
  | declares | imports | uses => simp [hopen]

/-- The open block comment is the one that the lines tell. -/
theorem Reads.comment_eq (h : Reads find r index line r') :
    r'.openComment.map (·.column) =
      Line.commentAfter r.style.tabStop (r.openComment.map (·.column)) line := by
  unfold Line.commentAfter
  cases h with
  | waits hk =>
    rw [show Line.kind _ _ _ = _ from hk]
    rfl
  | goesOn text hk hopen =>
    rw [show Line.kind _ _ _ = _ from hk]
    dsimp only
    split <;> simp [hopen]
  | steps hblank hcontent hstep =>
    rw [hstep.comment_eq rfl rfl, show Line.kind _ _ _ = r.kindOf line from rfl]
    cases hk : r.kindOf line <;> simp_all [Reader.settled]

theorem Reads.frame (h : Reads find r index line r') :
    r'.uri = r.uri ∧ r'.style = r.style ∧ r'.scope.uri = r.scope.uri := by
  cases h with
  | waits => exact ⟨rfl, rfl, rfl⟩
  | goesOn => exact ⟨rfl, rfl, rfl⟩
  | steps _ _ hstep =>
    obtain ⟨huri, hstyle, hscope, -, -⟩ := hstep.frame
    exact ⟨huri, hstyle, hscope⟩

/-! ## Runs -/

/-- The column of the block comment that is open after lines. -/
def commentOf (style : IndentStyle) (done : List Text) : Option Nat :=
  done.foldl (Line.commentAfter style.tabStop) none

/-- What holds of every reader after the lines `done` of a file. -/
structure After (uri : Uri) (style : IndentStyle) (done : List Text) (r : Reader) : Prop where
  uri_eq : r.uri = uri
  style_eq : r.style = style
  scope_uri : r.scope.uri = uri
  comment_eq : r.openComment.map (·.column) = commentOf style done
  sound : r.Sound

theorem after_start (uri : Uri) (style : IndentStyle) : After uri style [] (start uri style) :=
  ⟨rfl, rfl, rfl, rfl, sound_start uri style⟩

theorem After.step {uri : Uri} {style : IndentStyle} {done : List Text}
    (ha : After uri style done r) (h : Reads find r index line r') :
    After uri style (done ++ [line]) r' := by
  obtain ⟨huri, hstyle, hscope⟩ := h.frame
  refine ⟨huri.trans ha.uri_eq, hstyle.trans ha.style_eq, hscope.trans ha.scope_uri, ?_,
    h.sound ha.sound⟩
  rw [h.comment_eq, ha.style_eq, ha.comment_eq, commentOf, commentOf, List.foldl_append]
  rfl

/-- The kind of the next line is the one it has in the file. -/
theorem After.kindOf_eq {uri : Uri} {style : IndentStyle} {done : List Text}
    (ha : After uri style done r) (line : Text) :
    r.kindOf line = Line.kind style.tabStop (commentOf style done) line := by
  rw [kindOf, ha.style_eq, ha.comment_eq]

end Reader

namespace Reading

variable {σ : Type} {resolver : Resolver σ} {g : Reading σ}

theorem readLine_of_blank (resolver : Resolver σ) (index : Nat) {line : Text}
    (hblank : g.reader.kindOf line = .blank) :
    (g.readLine resolver index line).reader =
      { g.reader with
        openComment := none
        pendingBlanks := g.reader.pendingBlanks ++ [index] } := by
  have hkind : Line.kind g.reader.style.tabStop (g.reader.openComment.map (·.column)) line =
    .blank := hblank
  simp only [readLine, hkind, reduceCtorEq, if_false, if_true]

theorem readLine_of_content (resolver : Resolver σ) (hs : g.reader.Sound) (index : Nat) {line : Text}
    (hcontent : g.reader.kindOf line = .blockCommentContent) :
    (g.readLine resolver index line).reader =
      g.reader.readCommentContent (g.reader.lineInfo index line) line := by
  have hkind : Line.kind g.reader.style.tabStop (g.reader.openComment.map (·.column)) line =
    .blockCommentContent := hcontent
  obtain ⟨column, hcolumn⟩ := Line.opened_of_content hcontent
  obtain ⟨comment, hopen, -⟩ := Option.map_eq_some_iff.1 hcolumn
  have hnone : g.reader.pendingBlanks = [] := hs.waiting (by simp [hopen])
  have hflush : g.reader.flushBlanks (g.reader.target (g.reader.lineInfo index line)).1 =
      g.reader := by
    simp only [Reader.flushBlanks, hnone, List.foldl_nil]
    rw [← hnone]
  simp only [readLine, hkind, reduceCtorEq, if_false, if_true, hflush, readKind]

/-- Any other line is read once the waiting blank lines found their place. -/
theorem readLine_of_visible (resolver : Resolver σ) (hs : g.reader.Sound) (index : Nat) {line : Text}
    (hblank : g.reader.kindOf line ≠ .blank)
    (hcontent : g.reader.kindOf line ≠ .blockCommentContent) :
    g.readLine resolver index line =
      readKind resolver { g with reader := g.reader.settled (g.reader.lineInfo index line) }
        (g.reader.lineInfo index line) line (g.reader.kindOf line) := by
  obtain ⟨body, hb⟩ := hs.hasTarget (g.reader.lineInfo index line)
  have hsettled : { g.reader with openComment := none }.flushBlanks
      ({ g.reader with openComment := none }.target (g.reader.lineInfo index line)).1 =
      g.reader.settled (g.reader.lineInfo index line) :=
    Reader.flushBlanks_eq hb
  have hkind : Line.kind g.reader.style.tabStop (g.reader.openComment.map (·.column)) line =
    g.reader.kindOf line := rfl
  simp only [readLine, hkind, if_neg hblank, if_neg hcontent]
  rw [hsettled]

theorem readLine_reads (resolver : Resolver σ) (hs : g.reader.Sound) (index : Nat) (line : Text) :
    Reader.Reads (resolver.find g.files index) g.reader index line
      (g.readLine resolver index line).reader := by
  by_cases hblank : g.reader.kindOf line = .blank
  · rw [readLine_of_blank resolver index hblank]
    exact .waits hblank
  by_cases hcontent : g.reader.kindOf line = .blockCommentContent
  · obtain ⟨column, hcolumn⟩ := Line.opened_of_content hcontent
    obtain ⟨comment, hopen, -⟩ := Option.map_eq_some_iff.1 hcolumn
    obtain ⟨n, level, lines, hnode⟩ := hs.comment comment hopen
    rw [readLine_of_content resolver hs index hcontent]
    simp only [Reader.readCommentContent, hopen, hnode]
    exact .goesOn _ hcontent hopen hnode
  · rw [readLine_of_visible resolver hs index hblank hcontent]
    have htarget := (hs.settled (g.reader.lineInfo index line)).hasTarget
      (g.reader.lineInfo index line)
    obtain ⟨nodes, hstep⟩ := readKind_step resolver line
      (g := { g with reader := g.reader.settled (g.reader.lineInfo index line) }) hblank hcontent
      htarget hs.use (Indent.level_pos g.reader.style.tabStop_pos)
    exact .steps hblank hcontent hstep

/-- Lines are read after those before them. -/
theorem readLines_append (resolver : Resolver σ) (g : Reading σ) (i : Nat)
    (first rest : List Text) :
    readLines resolver g i (first ++ rest) =
      readLines resolver (readLines resolver g i first) (i + first.length) rest := by
  induction first generalizing g i with
  | nil => rfl
  | cons line first ih =>
    rw [List.cons_append, readLines, readLines, ih, List.length_cons, Nat.add_assoc,
      Nat.add_comm 1]

/-- What holds of a reading at the start of a file and is kept by every line holds after
    all lines. -/
theorem readLines_keeps (resolver : Resolver σ) {P : List Text → Reader → Prop} {uri : Uri}
    {style : IndentStyle} (hstart : P [] (.start uri style))
    (hline : ∀ (g : Reading σ) done line, Reader.After uri style done g.reader → P done g.reader →
      P (done ++ [line]) (g.readLine resolver done.length line).reader)
    (files : σ) (lines : List Text) :
    Reader.After uri style (lines.map Text.dropReturn)
        (readLines resolver ⟨.start uri style, files, []⟩ 0 lines).reader ∧
      P (lines.map Text.dropReturn)
        (readLines resolver ⟨.start uri style, files, []⟩ 0 lines).reader := by
  have key : ∀ (lines done : List Text) (g : Reading σ), Reader.After uri style done g.reader →
      P done g.reader →
      Reader.After uri style (done ++ lines.map Text.dropReturn)
          (readLines resolver g done.length lines).reader ∧
        P (done ++ lines.map Text.dropReturn) (readLines resolver g done.length lines).reader := by
    intro lines
    induction lines with
    | nil => intro done g ha hp; simpa [readLines] using ⟨ha, hp⟩
    | cons line rest ih =>
      intro done g ha hp
      have hreads := readLine_reads resolver ha.sound done.length line.dropReturn
      have hnext := ih (done ++ [line.dropReturn]) _ (ha.step hreads) (hline g done _ ha hp)
      simpa [readLines] using hnext
  simpa using key lines [] ⟨.start uri style, files, []⟩ (Reader.after_start uri style) hstart

/-- The same for what is kept by each of the three ways to read a line. -/
theorem readLines_run (resolver : Resolver σ) {P : List Text → Reader → Prop} {uri : Uri}
    {style : IndentStyle} (hstart : P [] (.start uri style))
    (hline : ∀ files done r line r', Reader.After uri style done r → P done r →
      Reader.Reads (resolver.find files done.length) r done.length line r' → P (done ++ [line]) r')
    (files : σ) (lines : List Text) :
    Reader.After uri style (lines.map Text.dropReturn)
        (readLines resolver ⟨.start uri style, files, []⟩ 0 lines).reader ∧
      P (lines.map Text.dropReturn)
        (readLines resolver ⟨.start uri style, files, []⟩ 0 lines).reader :=
  readLines_keeps resolver hstart
    (fun _ _ _ ha hp => hline _ _ _ _ _ ha hp (readLine_reads resolver ha.sound _ _)) files lines

theorem after_readLines (resolver : Resolver σ) (files : σ) (uri : Uri) (style : IndentStyle)
    (lines : List Text) :
    Reader.After uri style (lines.map Text.dropReturn)
      (readLines resolver ⟨.start uri style, files, []⟩ 0 lines).reader :=
  (readLines_run resolver (P := fun _ _ => True) trivial (fun _ _ _ _ _ _ _ _ => trivial) files
    lines).1

/-- Every node stays at its path when lines are read. -/
theorem readLines_extends (resolver : Resolver σ) (hs : g.reader.Sound) (i : Nat)
    (lines : List Text) :
    Tree.Extends g.reader.nodes (readLines resolver g i lines).reader.nodes := by
  induction lines generalizing g i with
  | nil => exact .refl _
  | cons line rest ih =>
    have hreads := readLine_reads resolver hs i line.dropReturn
    exact (hreads.extends hs).trans (ih (hreads.sound hs) (i + 1))

/-- Every node that was read from the lines at the start of a file is in its tree. -/
theorem readFile_extends (resolver : Resolver σ) (files : σ) (uri : Uri) (style : IndentStyle)
    (text : Text) {first rest : List Text} (hsplit : text.lines = first ++ rest) :
    Tree.Extends (readLines resolver ⟨.start uri style, files, []⟩ 0 first).reader.nodes
      (readFile resolver files uri style text).entry.body := by
  have hs := (after_readLines resolver files uri style first).sound
  have hfinish : (readFile resolver files uri style text).entry.body = Tree.graft _ _ [] :=
    congrArg Reader.nodes (Reader.flushBlanks_eq rfl)
  rw [hfinish, hsplit, readLines_append]
  exact (readLines_extends resolver hs _ rest).trans (Tree.extends_graft _ rfl)

end Reading

end IndentedSass
