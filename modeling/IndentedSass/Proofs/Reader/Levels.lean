/-
  Levels and nesting agree.

  The level of a line is rounded from its indentation and bounded by the open blocks; its body
  is chosen from the same indentation, but on its own.  Both agree, except that a line which is
  indented by half a tab stop goes to the top level with level one when a block is open.

  * `Tree.LevelsNest`: the nodes in a block are one level deeper than the block;
  * `Reader.Leveled` is the invariant: the open blocks are at their own levels, one deeper than
    the other (`Reads.leveled`);
  * `readFile_levels`: levels in the tree of a file, and of the open blocks on the way.
-/
import Mathlib
import IndentedSass.Proofs.Reader.Rewritten
import IndentedSass.Proofs.Reader.SourceOrder

namespace IndentedSass

namespace Tree

variable {body nodes added : List Node} {path : TreePath}

/-- Every node in a block that has a level is one level deeper than the block. -/
def LevelsNest (nodes : List Node) : Prop :=
  ∀ path i line level header inner child,
    nodeAt? nodes path = some (.block line level header inner) →
    nodeAt? nodes (path ++ [i]) = some child → ∀ own, child.level? = some own → own = level + 1

theorem SameHead.level_eq {a b : Node} (h : SameHead a b) : b.level? = a.level? := by
  cases h <;> rfl

theorem SameHead.of_block {a : Node} {line level : Nat} {header : Header} {inner : List Node}
    (h : SameHead a (.block line level header inner)) :
    ∃ old, a = .block line level header old := by
  cases h <;> exact ⟨_, rfl⟩

theorem levelsNest_nil : LevelsNest [] := by
  intro path i line level header inner child hblock
  obtain ⟨parent, k, siblings, rfl, hs, hk⟩ := nodeAt?_eq_some hblock
  cases parent with
  | nil =>
    cases hs
    simp at hk
  | cons j parent => simp [bodyAt?] at hs

/-- Nodes may be added to the top level, and to a block that they are one level below. -/
theorem LevelsNest.graft (h : LevelsNest nodes) (hb : bodyAt? nodes path = some body)
    (hempty : ∀ line level header inner, Node.block line level header inner ∈ added → inner = [])
    (hlevel : ∀ line level header inner, nodeAt? nodes path = some (.block line level header inner) →
      ∀ node ∈ added, ∀ own, node.level? = some own → own = level + 1) :
    LevelsNest (graft added nodes path) := by
  intro q i line level header inner child hblock hchild own hown
  rcases nodeAt?_graft_cases hb hempty hchild with ⟨k, hq, hk⟩ | ⟨child', hchild', hsame⟩
  · -- a new node is under the block that it was added to, which was there before
    obtain ⟨rfl, -⟩ := List.append_inj' hq rfl
    rcases nodeAt?_graft_cases hb hempty hblock with ⟨l, hq', -⟩ | ⟨old, hold, hsame⟩
    · simp at hq'
    · obtain ⟨inner', rfl⟩ := hsame.of_block
      exact hlevel line level header inner' hold child (List.mem_of_getElem? hk) own hown
  · rcases nodeAt?_graft_cases hb hempty hblock with ⟨l, rfl, -⟩ | ⟨old, hold, hsame'⟩
    · -- nothing was under a node that was not there
      obtain ⟨inner', hinner, -⟩ := bodyAt?_of_nodeAt? hchild'
      obtain ⟨line', level', header', hn⟩ := (bodyAt?_eq_some_iff (by simp)).1 hinner
      have hlt := (List.getElem?_eq_some_iff.1 (getElem?_of_nodeAt? hb hn)).1
      omega
    · obtain ⟨inner', rfl⟩ := hsame'.of_block
      exact h q i line level header inner' child' hold hchild' own (hsame.level_eq ▸ hown)

/-- The lines of a block comment say nothing about levels. -/
theorem LevelsNest.goOn {line level : Nat} {lines more : List CommentLine} (h : LevelsNest nodes)
    (hn : nodeAt? nodes path = some (.leaf line (.blockComment level lines))) :
    LevelsNest (modifyAt (fun _ => .leaf line (.blockComment level (lines ++ more))) nodes path) := by
  intro q i line' level' header inner child hblock hchild own hown
  have hlevel : ∃ old, nodeAt? nodes (q ++ [i]) = some old ∧ old.level? = some own := by
    rcases nodeAt?_modifyAt_cases hn hchild with ⟨hq, rfl⟩ | ⟨old, hold, hsame⟩
    · exact ⟨.leaf line (.blockComment level lines), hq ▸ hn, hown⟩
    · exact ⟨old, hold, hsame.level_eq ▸ hown⟩
  obtain ⟨child', hchild', hown'⟩ := hlevel
  rcases nodeAt?_modifyAt_cases hn hblock with ⟨-, heq⟩ | ⟨old, hold, hsame⟩
  · cases heq
  · obtain ⟨inner', rfl⟩ := hsame.of_block
    exact h q i line' level' header inner' child' hold hchild' own hown'

theorem LevelsNest.of_listing (h : LevelsNest nodes) {line level : Nat} {header : Header}
    {inner : List Node} (hblock : .block line level header inner ∈ listing nodes) :
    ∀ child ∈ inner, ∀ own, child.level? = some own → own = level + 1 := by
  intro child hchild own hown
  obtain ⟨path, hpath⟩ := exists_path_of_listing nodes hblock
  obtain ⟨i, hi⟩ := List.mem_iff_getElem?.1 hchild
  have hne : path ≠ [] := by
    rintro rfl
    cases hpath
  have hbody : bodyAt? nodes path = some inner :=
    (bodyAt?_eq_some_iff hne).2 ⟨line, level, header, hpath⟩
  refine h path i line level header inner child hpath ?_ own hown
  rw [nodeAt?_concat, hbody]
  exact hi

end Tree

namespace Reader

variable {find : Nat → Finder} {r r' : Reader} {info : LineInfo} {line : Text}
  {kind : LineKind} {nodes : List Node} {index : Nat} {Half : Nat → Prop}

/-- The levels that the reader holds agree with the nesting.  `Half` tells the lines that may
    have level one at the top level. -/
structure Leveled (Half : Nat → Prop) (r : Reader) : Prop where
  /-- An open block is at its own level, and its path leads to it. -/
  blocks : ∀ (k : Nat) block, r.scope.blocks[k]? = some block → block.level = k ∧
    ∃ line header body, Tree.nodeAt? r.nodes block.path = some (.block line k header body)
  /-- The nodes in a block are one level deeper. -/
  nested : Tree.LevelsNest r.nodes
  /-- The nodes at the top level have level zero, or one after half a tab stop. -/
  top : ∀ node ∈ r.nodes, ∀ own, node.level? = some own → own = 0 ∨ own = 1 ∧ Half node.line

theorem leveled_start (uri : Uri) (style : IndentStyle) : Leveled Half (start uri style) where
  blocks := by simp [start]
  nested := Tree.levelsNest_nil
  top := by simp [start]

/-- All nodes of a step have the level of its line, or none. -/
theorem Step.level_eq (h : Step find r info line kind nodes r') :
    ∀ node ∈ nodes, ∀ own, node.level? = some own → own = r.levelOf info := by
  intro node hnode own hown
  cases h with
  | imports =>
    rw [← List.map_uncurry_zip_eq_zipWith, List.mem_map] at hnode
    obtain ⟨⟨path, target⟩, -, rfl⟩ := hnode
    exact (Option.some.inj hown).symm
  | closes _ hc =>
    rw [List.mem_singleton.1 hnode] at hown
    cases hc <;> exact (Option.some.inj hown).symm
  | keeps _ hk =>
    rw [List.mem_singleton.1 hnode] at hown
    cases hk <;> exact (Option.some.inj hown).symm
  | opens | declares | comments =>
    rw [List.mem_singleton.1 hnode] at hown
    exact (Option.some.inj hown).symm
  | uses =>
    rw [List.mem_singleton.1 hnode] at hown
    cases hown

/-! ## Lines -/

/-- Where a line goes: to the top level, with level zero or after half a tab stop, or into the
    open block that its level is one deeper than. -/
inductive Goes (r : Reader) (info : LineInfo) : Prop
  | top (hpath : (r.target info).1 = []) (hlevel : r.levelOf info = 0)
  | half (hpath : (r.target info).1 = []) (hlevel : r.levelOf info = 1)
      (hcolumn : r.style.tabStop ≤ 2 * info.column) (hbefore : info.column < r.style.tabStop)
      (hopen : r.scope.blocks ≠ [])
  | block {k : Nat} {block : OpenBlock} (hget : r.scope.blocks[k]? = some block)
      (hpath : (r.target info).1 = block.path) (hlevel : r.levelOf info = k + 1)

theorem goes (r : Reader) (index : Nat) (hsmall : Indent.width r.style.tabStop line < 2 ^ 50) :
    Goes r (r.lineInfo index line) := by
  have hpos : r.style.tabStop ≤ (r.lineInfo index line).column →
      0 < (r.lineInfo index line).rawLevel := Indent.level_pos r.style.tabStop_pos
  have hunder := r.under_target hpos
  by_cases hcolumn : (r.lineInfo index line).column < r.style.tabStop
  · rw [if_pos hcolumn] at hunder
    have hpath : (r.target (r.lineInfo index line)).1 = [] := by
      generalize (r.target (r.lineInfo index line)).1 = path at hunder
      cases hunder
      rfl
    have hone : (r.lineInfo index line).rawLevel ≤ 1 := Indent.level_le_one hcolumn hsmall
    by_cases hzero : r.levelOf (r.lineInfo index line) = 0
    · exact .top hpath hzero
    · rw [levelOf] at hzero
      refine .half hpath (by rw [levelOf]; omega) ?_ hcolumn fun hnone => ?_
      · by_contra hlt
        have hraw : (r.lineInfo index line).rawLevel = 0 :=
          Indent.level_eq_zero (Nat.lt_of_not_le hlt) hsmall
        exact hzero (by rw [hraw, Nat.zero_min])
      · rw [hnone] at hzero
        exact hzero (Nat.min_zero _)
  · rw [if_neg hcolumn, ← levelOf] at hunder
    generalize hlevel : r.levelOf (r.lineInfo index line) = n at hunder
    generalize hpath : (r.target (r.lineInfo index line)).1 = path at hunder
    cases hunder with
    | top => exact .top hpath hlevel
    | block hget => exact .block hget hpath hlevel

theorem Goes.settled (h : Goes r info) : Goes (r.settled info) info := by
  cases h with
  | top hpath hlevel => exact .top hpath hlevel
  | half hpath hlevel hcolumn hbefore hopen => exact .half hpath hlevel hcolumn hbefore hopen
  | block hget hpath hlevel => exact .block hget hpath hlevel

/-- Nodes without children that have the level of a line, or none, may be added where the line
    goes. -/
theorem Leveled.grown {added : List Node} (hl : Leveled Half r) (htarget : r.HasTarget info)
    (hgoes : Goes r info)
    (hempty : ∀ line level header inner, Node.block line level header inner ∈ added → inner = [])
    (hlevel : ∀ node ∈ added, ∀ own, node.level? = some own → own = r.levelOf info)
    (hhalf : info.column < r.style.tabStop → r.style.tabStop ≤ 2 * info.column →
      r.scope.blocks ≠ [] → ∀ node ∈ added, node.level? ≠ none → Half node.line) :
    Leveled Half { r with nodes := r.grown info added } := by
  obtain ⟨body, hb⟩ := htarget
  have hextends := Tree.extends_graft added hb
  refine ⟨?_, hl.nested.graft hb hempty ?_, ?_⟩
  · intro k block hk
    obtain ⟨hown, line, header, inner, hn⟩ := hl.blocks k block hk
    exact ⟨hown, line, header, hextends.block hn⟩
  · intro line level header inner hn node hnode own hown
    rw [hlevel node hnode own hown]
    cases hgoes with
    | top hpath | half hpath =>
      rw [hpath] at hn
      cases hn
    | block hget hpath hl' =>
      obtain ⟨-, line', header', inner', hn'⟩ := hl.blocks _ _ hget
      rw [hpath, hn'] at hn
      cases hn
      exact hl'
  · intro node hnode own hown
    obtain ⟨i, hi⟩ := List.mem_iff_getElem?.1 hnode
    rw [← Tree.nodeAt?_singleton] at hi
    rcases Tree.nodeAt?_graft_cases hb hempty hi with ⟨k, hq, hk⟩ | ⟨old, hold, hsame⟩
    · have hadded := List.mem_of_getElem? hk
      rw [hlevel node hadded own hown]
      cases hgoes with
      | top _ hzero => exact .inl hzero
      | half _ hone hcolumn hbefore hopen =>
        exact .inr ⟨hone, hhalf hbefore hcolumn hopen node hadded (by rw [hown]; simp)⟩
      | block hget hpath =>
        -- a path into a block is longer
        obtain ⟨-, line', header', inner', hn'⟩ := hl.blocks _ _ hget
        have hsplit : [] ++ [i] = (r.target info).1 ++ [body.length + k] := hq
        have hnil : (r.target info).1 = [] := (List.append_inj' hsplit rfl).1.symm
        rw [← hpath, hnil] at hn'
        cases hn'
    · rw [Tree.nodeAt?_singleton] at hold
      rw [hsame.line_eq]
      exact hl.top old (List.mem_of_getElem? hold) own (hsame.level_eq ▸ hown)

/-- A blank line has no level. -/
theorem Leveled.settled (hl : Leveled Half r) (hs : r.Sound) (hgoes : Goes r info) :
    Leveled Half (r.settled info) := by
  have hblank : ∀ node ∈ r.pendingBlanks.map (Node.leaf · .blank), node.level? = none := by
    intro node hnode
    obtain ⟨n, -, rfl⟩ := List.mem_map.1 hnode
    rfl
  have hgrown :
      Leveled Half { r with nodes := r.grown info (r.pendingBlanks.map (.leaf · .blank)) } :=
    hl.grown (hs.hasTarget info) hgoes
      (fun line level header inner hmem => by simp at hmem)
      (fun node hnode own hown => by rw [hblank node hnode] at hown; cases hown)
      (fun _ _ _ node hnode hne => absurd (hblank node hnode) hne)
  exact ⟨hgrown.blocks, hgrown.nested, hgrown.top⟩

theorem Step.leveled (hl : Leveled Half r) (hs : r.Sound) (hgoes : Goes r info)
    (hhalf : info.column < r.style.tabStop → r.style.tabStop ≤ 2 * info.column →
      r.scope.blocks ≠ [] → Half info.index)
    (h : Step find r info line kind nodes r') : Leveled Half r' := by
  have htarget := hs.hasTarget info
  have hgrown := hl.grown htarget hgoes
    (fun line level header inner hmem => by cases h.fresh _ hmem; rfl) h.level_eq
    (fun hbefore hcolumn hopen node hnode _ =>
      (h.fresh node hnode).line_eq ▸ hhalf hbefore hcolumn hopen)
  rw [← h.nodes_eq] at hgrown
  refine ⟨?_, hgrown.nested, hgrown.top⟩
  -- the blocks that stay open are the first ones
  have htake : ∀ n (k : Nat) block, (r.scope.blocks.take n)[k]? = some block →
      block.level = k ∧ ∃ line header body,
        Tree.nodeAt? r'.nodes block.path = some (.block line k header body) := by
    intro n k block hk
    rw [List.getElem?_take] at hk
    split at hk
    · exact hgrown.blocks k block hk
    · cases hk
  intro k block hk
  by_cases hopens : kind.opensBlock = true
  · obtain ⟨header, -, hnodes, hscope⟩ := h.opened hopens
    have hlength : (r.scope.truncate (r.levelOf info)).blocks.length = r.levelOf info :=
      List.length_take_of_le (Nat.min_le_right ..)
    rw [hscope, (declareAll_frame _ _ _ _).1] at hk
    rcases getElem?_snoc hk with hold | ⟨rfl, rfl⟩
    · exact htake _ k block hold
    · refine ⟨hlength.symm, info.index, header, [], ?_⟩
      rw [h.nodes_eq, hnodes, hlength]
      exact nodeAt?_slot htarget
  · rw [h.blocks_eq hs.use] at hk
    cases kind with
    | selector | fontFace | mixin => exact absurd rfl hopens
    | comment | blockCommentStart | useModule => exact hgrown.blocks k block hk
    | _ => exact htake _ k block hk

/-- Every line keeps the levels and the nesting in agreement. -/
theorem Reads.leveled (hl : Leveled Half r) (hs : r.Sound)
    (hsmall : Indent.width r.style.tabStop line < 2 ^ 50)
    (hhalf : Indent.width r.style.tabStop line < r.style.tabStop →
      r.style.tabStop ≤ 2 * Indent.width r.style.tabStop line → r.scope.blocks ≠ [] → Half index)
    (h : Reads find r index line r') : Leveled Half r' := by
  have hgoes := r.goes index hsmall
  cases h with
  | waits => exact ⟨hl.blocks, hl.nested, hl.top⟩
  | goesOn text _ hopen hnode =>
    have hextends := Tree.extends_modifyAt [⟨index, text⟩] hnode
    refine ⟨?_, hl.nested.goOn hnode, ?_⟩
    · intro k block hk
      obtain ⟨hown, line, header, body, hn⟩ := hl.blocks k block hk
      exact ⟨hown, line, header, hextends.block hn⟩
    · intro node hmem own hown
      obtain ⟨i, hi⟩ := List.mem_iff_getElem?.1 hmem
      rw [← Tree.nodeAt?_singleton] at hi
      rcases Tree.nodeAt?_modifyAt_cases hnode hi with ⟨hq, rfl⟩ | ⟨old, hold, hsame⟩
      · rw [← hq, Tree.nodeAt?_singleton] at hnode
        exact hl.top _ (List.mem_of_getElem? hnode) own hown
      · rw [Tree.nodeAt?_singleton] at hold
        rw [hsame.line_eq]
        exact hl.top old (List.mem_of_getElem? hold) own (hsame.level_eq ▸ hown)
  | steps hblank hcontent hstep =>
    exact hstep.leveled (hl.settled hs hgoes) (hs.settled _) hgoes.settled hhalf

end Reader

/-! ## Files -/

/-- A carriage return is no indentation. -/
theorem Text.width_dropReturn (tab : Nat) (t : Text) :
    Indent.width tab t.dropReturn = Indent.width tab t := by
  have hreturn : ∀ init : Text, Indent.width tab (init ++ ['\r']) = Indent.width tab init := by
    intro init
    induction init with
    | nil => rfl
    | cons c cs ih => rw [List.cons_append, Indent.width, Indent.width, ih]
  unfold Text.dropReturn
  split
  · rename_i hlast
    obtain ⟨init, rfl⟩ := List.getLast?_eq_some_iff.1 hlast
    rw [List.dropLast_concat, hreturn]
  · rfl

namespace Reading

variable {σ : Type} (resolver : Resolver σ) (files : σ) (uri : Uri) (style : IndentStyle)
  (text : Text)

/-- The reading after the first `n` lines of a text. -/
def afterLines (n : Nat) : Reading σ :=
  readLines resolver ⟨.start uri style, files, []⟩ 0 (text.lines.take n)

/-- Line `i` is indented by at least half a tab stop, but not by a whole one, and a block is open
    before it. -/
def HalfIndented (i : Nat) : Prop :=
  ∃ line, text.lines[i]? = some line ∧ style.tabStop ≤ 2 * Indent.width style.tabStop line ∧
    Indent.width style.tabStop line < style.tabStop ∧
    (afterLines resolver files uri style text i).reader.scope.blocks ≠ []

theorem after_afterLines (n : Nat) :
    Reader.After uri style ((text.lines.take n).map Text.dropReturn)
      (afterLines resolver files uri style text n).reader :=
  after_readLines resolver files uri style (text.lines.take n)

variable {text} {n : Nat}

theorem afterLines_succ {line : Text} (hline : text.lines[n]? = some line) :
    afterLines resolver files uri style text (n + 1) =
      (afterLines resolver files uri style text n).readLine resolver n line.dropReturn := by
  obtain ⟨hlt, rfl⟩ := List.getElem?_eq_some_iff.1 hline
  rw [afterLines, afterLines, List.take_succ_eq_append_getElem hlt, readLines_append, Nat.zero_add,
    List.length_take_of_le (Nat.le_of_lt hlt)]
  rfl

/-- Levels and nesting agree after any number of lines. -/
theorem leveled_afterLines (hsmall : ∀ line ∈ text.lines, Indent.width style.tabStop line < 2 ^ 50)
    (n : Nat) :
    (afterLines resolver files uri style text n).reader.Leveled
      (HalfIndented resolver files uri style text) := by
  induction n with
  | zero => exact Reader.leveled_start uri style
  | succ n ih =>
    cases hline : text.lines[n]? with
    | none =>
      have hge := List.getElem?_eq_none_iff.1 hline
      rwa [afterLines, List.take_of_length_le (Nat.le_succ_of_le hge),
        ← List.take_of_length_le hge]
    | some line =>
      have hafter := after_afterLines resolver files uri style text n
      have hreads := readLine_reads resolver hafter.sound n line.dropReturn
      rw [← afterLines_succ resolver files uri style hline] at hreads
      refine hreads.leveled ih hafter.sound ?_ ?_
      · rw [Text.width_dropReturn, hafter.style_eq]
        exact hsmall line (List.mem_of_getElem? hline)
      · rw [Text.width_dropReturn, hafter.style_eq]
        exact fun hbefore hcolumn hopen => ⟨line, hline, hcolumn, hbefore, hopen⟩

/-- The tree of a file is that after all its lines, and blank lines. -/
theorem readFile_eq_afterLines (text : Text) :
    ∃ blanks : List Nat, (readFile resolver files uri style text).entry.body =
      (afterLines resolver files uri style text text.lines.length).reader.nodes ++
        blanks.map (.leaf · .blank) := by
  refine ⟨(afterLines resolver files uri style text text.lines.length).reader.pendingBlanks, ?_⟩
  rw [← Tree.graft_nil, afterLines, List.take_length]
  exact congrArg Reader.nodes (Reader.flushBlanks_eq rfl)

end Reading

/-- The levels in the tree of a file: a node in a block is one level deeper than the block, and a
    node at the top level has level zero, or level one if its line is indented by at least half a
    tab stop but less than a whole one and a block was open before it.  On the way, after any
    number of lines, the open blocks have the levels zero, one, two and so on, and their paths
    lead to blocks of these levels. -/
theorem readFile_levels {σ : Type} (resolver : Resolver σ) (files : σ) (uri : Uri)
    (style : IndentStyle) (text : Text)
    (hsmall : ∀ line ∈ text.lines, Indent.width style.tabStop line < 2 ^ 50) :
    (∀ n level header body,
      .block n level header body ∈ Tree.listing (readFile resolver files uri style text).entry.body →
        ∀ node ∈ body, ∀ own, node.level? = some own → own = level + 1) ∧
    (∀ node ∈ (readFile resolver files uri style text).entry.body,
      ∀ level, node.level? = some level →
        level = 0 ∨ level = 1 ∧ Reading.HalfIndented resolver files uri style text node.line) ∧
    ∀ n (k : Nat) block,
      (Reading.afterLines resolver files uri style text n).reader.scope.blocks[k]? = some block →
        block.level = k ∧ ∃ line header body,
          Tree.nodeAt? (Reading.afterLines resolver files uri style text n).reader.nodes block.path =
            some (.block line k header body) := by
  have hleveled := Reading.leveled_afterLines resolver files uri style hsmall
  have hall := hleveled text.lines.length
  obtain ⟨blanks, htree⟩ := Reading.readFile_eq_afterLines resolver files uri style text
  -- the blank lines at the end have no levels
  have hblank : ∀ node ∈ blanks.map (Node.leaf · .blank), ∃ n, node = .leaf n .blank := by
    intro node hnode
    obtain ⟨n, -, rfl⟩ := List.mem_map.1 hnode
    exact ⟨n, rfl⟩
  rw [htree]
  refine ⟨fun n level header body hblock => ?_, fun node hnode level hlevel => ?_,
    fun n k block hk => (hleveled n).blocks k block hk⟩
  · rw [← Tree.graft_nil] at hblock
    refine Tree.LevelsNest.of_listing (hall.nested.graft rfl ?_ ?_) hblock
    · intro line level header inner hmem
      obtain ⟨n, hn⟩ := hblank _ hmem
      cases hn
    · intro line level header inner hn
      cases hn
  · rcases List.mem_append.1 hnode with hold | hnew
    · exact hall.top node hold level hlevel
    · obtain ⟨n, rfl⟩ := hblank node hnew
      cases hlevel

/-- A rule that is indented by half a tab stop has level one at the top level; what follows it
    at the first tab stop still belongs to the rule before. -/
theorem readFile_levels_halfway :
    let uri : Uri := ⟨"file".toList, none, "/a.sass".toList, none, none⟩
    let text : Text := "a\n b\n  c: d".toList
    let tree := (readFile .detached () uri {} text).entry.body
    (∀ line ∈ text.lines, Indent.width 2 line < 2 ^ 50) ∧
      tree.map Node.level? = [some 0, some 1] ∧
      (Tree.listing tree).map Node.level? = [some 0, some 1, some 1] ∧
      Reading.HalfIndented .detached () uri {} text 1 := by
  intro uri text tree
  have hsmall : ∀ line ∈ text.lines, Indent.width 2 line < 2 ^ 50 := by decide
  have hlevels : tree.map (fun node => (node.level?, node.line)) = [(some 0, 0), (some 1, 1)] := by
    decide +kernel
  obtain ⟨node, hnode, hlevel⟩ := List.mem_map.1 (hlevels ▸ List.mem_cons_of_mem _
    (List.mem_singleton.2 rfl) : (some 1, 1) ∈ tree.map fun node => (node.level?, node.line))
  obtain ⟨hone, hline⟩ := Prod.mk.inj hlevel
  refine ⟨hsmall, by decide +kernel, by decide +kernel, ?_⟩
  have htop := (readFile_levels .detached () uri {} text hsmall).2.1 node hnode 1 hone
  rw [hline] at htop
  exact (htop.resolve_left (by decide)).2

end IndentedSass
