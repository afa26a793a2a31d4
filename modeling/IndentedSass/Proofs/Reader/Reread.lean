/-
  Reading what was written.

  A tree is written in the order of the document, every node at its level.  Where each
  node stands as deep as its level says, and each written line says its node again, the
  reader builds the same tree.

  * `Line.Says`: a written line is read as a node; `Leaf.Legible` and `Header.Legible`:
    the lines of a node are read as that node;
  * `Reader.Ready` is the invariant before the lines of a node at a depth, and
    `Reader.Gains` is what reading them does: the body at that depth has gained the node;
  * `Reading.readLines_print`: by induction over the tree, reading its lines gains its
    nodes.
-/
import Mathlib
import IndentedSass.Proofs.Reader.Alone
import IndentedSass.Proofs.Reader.Roundtrip

namespace IndentedSass

/-! ## Lines that say their nodes -/

/-- A written line at a level is read as a node. -/
structure Line.Says (style : IndentStyle) (level : Nat) (line : Text) (node : Node) : Prop where
  level_lt : level < 2 ^ 50
  feed : '\n' ∉ line
  plainEnd : line.getLast? ≠ some '\r'
  width : Indent.width style.tabStop line = level * style.tabStop
  nodes : Line.nodes level line (kindOutsideComment line) = [node]

/-- Written lines go on with the block comment that is open at a column. -/
def Line.GoOn (style : IndentStyle) (level : Nat) : Option Nat → List CommentLine → Prop
  | _, [] => True
  | opened, content :: rest =>
    let line := Indent.ofLevel style level ++ content.text
    '\n' ∉ line ∧ line.getLast? ≠ some '\r' ∧
      kind style.tabStop opened line = .blockCommentContent ∧
      (dropColumns style.tabStop (level * style.tabStop) line).trimEnd = content.text ∧
      GoOn style level (commentAfter style.tabStop opened line) rest

/-- The lines of a leaf are read as the leaf. -/
def Leaf.Legible (style : IndentStyle) : Leaf → Prop
  | .blank => True
  | .blockComment level lines =>
    ∃ first rest, lines = first :: rest ∧
      Line.Says style level (Indent.ofLevel style level ++ first.text)
        (.leaf 0 (.blockComment level [⟨0, first.text⟩])) ∧
      Line.GoOn style level (Line.commentAfter style.tabStop none
        (Indent.ofLevel style level ++ first.text)) rest
  | leaf => ∃ line, leaf.texts style = [line] ∧
      Line.Says style (leaf.level?.getD 0) line (.leaf 0 leaf.sketch)

theorem Leaf.Legible.exists_line {style : IndentStyle} {leaf : Leaf} (h : leaf.Legible style)
    (hblank : leaf ≠ .blank) (hcomment : ∀ level lines, leaf ≠ .blockComment level lines) :
    ∃ line, leaf.texts style = [line] ∧
      Line.Says style (leaf.level?.getD 0) line (.leaf 0 leaf.sketch) := by
  cases leaf with
  | blank => exact absurd rfl hblank
  | blockComment level lines => exact absurd rfl (hcomment level lines)
  | _ => exact h

/-- The line of a header at a level is read as a block with the header. -/
def Header.Legible (style : IndentStyle) (level : Nat) (header : Header) : Prop :=
  Line.Says style level (Indent.ofLevel style level ++ header.text)
    (.block 0 level header.sketch [])

/-- The lines of a node itself are read as the node. -/
def Node.Legible (style : IndentStyle) : Node → Prop
  | .leaf _ l => l.Legible style
  | .block _ level header _ => header.Legible style level

/-! ## The order of the document -/

namespace Node

/-- The column of the block comment that is open after the lines of a node. -/
def leavesOpen (style : IndentStyle) (node : Node) : Option Nat :=
  (node.texts style).foldl (Line.commentAfter style.tabStop) none

/-- The first line of a node starts with a star. -/
def Starred (style : IndentStyle) (node : Node) : Prop :=
  ∃ line, (node.texts style).head? = some line ∧ line.trim.head? = some '*'

/-- The node is written as a `@use` line. -/
def IsUse (style : IndentStyle) (node : Node) : Prop :=
  ∃ line, (node.texts style).head? = some line ∧ Line.kindOutsideComment line = .useModule

/-- A `@use` line may come after the node. -/
def allowsUse (node : Node) : Bool :=
  match node.kind with
  | .variableDecl | .useModule | .comment | .blockComment | .blank => true
  | _ => false

instance (style : IndentStyle) (node : Node) : Decidable (node.Starred style) :=
  inferInstanceAs (Decidable (∃ line ∈ (node.texts style).head?, _))

instance (style : IndentStyle) (node : Node) : Decidable (node.IsUse style) :=
  inferInstanceAs (Decidable (∃ line ∈ (node.texts style).head?, _))

end Node

/-- The nodes of a document can be read in this order: no block comment that is still open
    is followed by a line that starts with a star, and `@use` comes first. -/
structure Tree.Separate (style : IndentStyle) (listing : List Node) : Prop where
  comments : listing.IsChain fun a b => a.leavesOpen style ≠ none → ¬b.Starred style
  uses : listing.Pairwise fun a b => b.IsUse style → a.allowsUse = true

instance (style : IndentStyle) (listing : List Node) : Decidable (Tree.Separate style listing) :=
  decidable_of_iff' (_ ∧ _) ⟨fun h => ⟨h.comments, h.uses⟩, fun h => ⟨h.1, h.2⟩⟩

theorem Tree.Separate.left {style : IndentStyle} {first rest : List Node}
    (h : Separate style (first ++ rest)) : Separate style first :=
  ⟨(List.isChain_append.1 h.comments).1, (List.pairwise_append.1 h.uses).1⟩

mutual

/-- A node stands at the depth that its level says, and so do the nodes under it. -/
def Node.Placed (d : Nat) : Node → Prop
  | .leaf _ l => ∀ level ∈ l.level?, level = d
  | .block _ level _ body => level = d ∧ Tree.Placed (d + 1) body

/-- The nodes of a body stand at the depth that their levels say. -/
def Tree.Placed (d : Nat) : List Node → Prop
  | [] => True
  | node :: nodes => node.Placed d ∧ Tree.Placed d nodes

end

mutual

instance decidableNodePlaced : ∀ d node, Decidable (Node.Placed d node)
  | d, .leaf _ l => inferInstanceAs (Decidable (∀ level ∈ l.level?, level = d))
  | d, .block _ level _ body =>
    haveI := decidableTreePlaced (d + 1) body
    inferInstanceAs (Decidable (level = d ∧ _))

instance decidableTreePlaced : ∀ d nodes, Decidable (Tree.Placed d nodes)
  | _, [] => isTrue trivial
  | d, node :: nodes =>
    haveI := decidableNodePlaced d node
    haveI := decidableTreePlaced d nodes
    inferInstanceAs (Decidable (_ ∧ _))

end

theorem Line.commentAfter_of_opensBlock {tab : Nat} {line : Text}
    (h : (kindOutsideComment line).opensBlock = true) : commentAfter tab none line = none := by
  rw [commentAfter, kind_none]
  cases hk : kindOutsideComment line with
  | blockCommentStart | blockCommentContent =>
    rw [hk] at h
    cases h
  | _ => rfl

/-- The kind of node that lines of a kind are. -/
def LineKind.nodeKind : LineKind → NodeKind
  | .blank => .blank
  | .property => .property
  | .variableDecl => .variableDecl
  | .selector => .selector
  | .useModule => .useModule
  | .importPaths => .importPath
  | .comment => .comment
  | .blockCommentStart | .blockCommentContent => .blockComment
  | .mixin => .mixin
  | .mixinCall => .mixinCall
  | .extendRule => .extendRule
  | .fontFace => .fontFace
  | .literal => .unclassified

/-- A line is a node of its kind, or nothing known. -/
theorem Line.kind_of_nodes {level : Nat} {line : Text} {kind : LineKind} {node : Node}
    (h : Line.nodes level line kind = [node]) :
    node.kind = kind.nodeKind ∨ node.kind = .unclassified := by
  cases kind with
  | blank | blockCommentContent => cases h
  | property | variableDecl | useModule =>
    simp only [Line.nodes] at h
    split at h
    · cases h
      exact .inr rfl
    · cases h
      exact .inl rfl
  | importPaths =>
    simp only [Line.nodes] at h
    split at h
    · cases h
      exact .inr rfl
    · cases h
      exact .inr rfl
    · obtain ⟨path, -, rfl⟩ := List.mem_map.1 (h ▸ List.mem_singleton_self node)
      exact .inl rfl
  | _ =>
    cases h
    exact .inl rfl

namespace Line.Says

variable {style : IndentStyle} {d : Nat} {line : Text} {node : Node}

theorem kind_ne_blank (h : Says style d line node) : kindOutsideComment line ≠ .blank := by
  intro hk
  have hnodes := h.nodes
  rw [hk] at hnodes
  cases hnodes

/-- A line that says a block opens one. -/
theorem opensBlock {level : Nat} {header : Header} {body : List Node}
    (h : Says style d line (.block 0 level header body)) :
    (kindOutsideComment line).opensBlock = true := by
  have hkind := kind_of_nodes h.nodes
  generalize kindOutsideComment line = kind at hkind
  cases header <;> cases kind <;> simp_all [Node.kind, Header.kind, LineKind.nodeKind,
    LineKind.opensBlock]

/-- A line that says a module is a `@use` line. -/
theorem kind_use {path : Text} {target : Option Uri} {qualifier : Option Text}
    (h : Says style d line (.leaf 0 (.useModule path target qualifier))) :
    kindOutsideComment line = .useModule := by
  have hkind := kind_of_nodes h.nodes
  generalize kindOutsideComment line = kind at hkind
  cases kind <;> simp_all [Node.kind, Leaf.kind, LineKind.nodeKind]

/-- Where a node allows `@use`, so does its line. -/
theorem allowsUse (h : Says style d line node) (hallows : node.allowsUse = true) :
    (kindOutsideComment line).allowsUse = true ∧
      (kindOutsideComment line = .useModule →
        ∃ clause, UseClause.ofLine? line = some clause) := by
  have hnodes := h.nodes
  have hkind : node.kind = (kindOutsideComment line).nodeKind := by
    refine (kind_of_nodes hnodes).resolve_right fun hunknown => ?_
    rw [Node.allowsUse, hunknown] at hallows
    cases hallows
  rw [Node.allowsUse, hkind] at hallows
  generalize kindOutsideComment line = kind at hnodes hkind hallows
  cases kind with
  | variableDecl | comment | blockCommentStart => exact ⟨rfl, fun hk => nomatch hk⟩
  | useModule =>
    refine ⟨rfl, fun _ => ?_⟩
    simp only [Line.nodes] at hnodes
    split at hnodes
    · cases hnodes
      cases hkind
    · exact ⟨_, ‹_›⟩
  | blank | blockCommentContent => cases hnodes
  | _ => cases hallows

end Line.Says

namespace Reader

variable {find : Nat → Finder} {style : IndentStyle} {d : Nat} {prev : List Node}
  {r r' r'' : Reader} {info : LineInfo} {line : Text} {node : Node} {nodes more : List Node}

/-! ## The body at a depth -/

/-- The path of the body at a depth: that of the innermost of so many open blocks. -/
def pathAt (r : Reader) (d : Nat) : TreePath :=
  if d = 0 then [] else (r.scope.blocks[d - 1]?.map (·.path)).getD []

/-- The path of the next node that is not blank in the body at a depth. -/
def nextPath (r : Reader) (d : Nat) : TreePath :=
  r.pathAt d ++ [((Tree.bodyAt? r.nodes (r.pathAt d)).map List.length).getD 0 +
    r.pendingBlanks.length]

theorem pathAt_congr (h : r'.scope.blocks.take d = r.scope.blocks.take d) :
    r'.pathAt d = r.pathAt d := by
  unfold pathAt
  split
  · rfl
  · have hget : r'.scope.blocks[d - 1]? = r.scope.blocks[d - 1]? := by
      rw [← List.getElem?_take_of_lt (show d - 1 < d by omega), h, List.getElem?_take_of_lt (by omega)]
    rw [hget]

/-- A line at a depth belongs to the body at that depth. -/
theorem target_eq_pathAt (hd : d ≤ r.scope.blocks.length)
    (hcolumn : info.column = d * r.style.tabStop) (hlevel : info.rawLevel = d) :
    (r.target info).1 = r.pathAt d ∧ r.levelOf info = d := by
  have htab := r.style.tabStop_pos
  refine ⟨?_, by rw [levelOf, hlevel]; omega⟩
  rcases Nat.eq_zero_or_pos d with rfl | hpos
  · have htop : info.column < r.style.tabStop ∨ r.scope.blocks.length = 0 := by omega
    simp only [target, if_pos htop, pathAt, if_true]
  · have hmul : r.style.tabStop ≤ d * r.style.tabStop := Nat.le_mul_of_pos_left _ hpos
    have htop : ¬(info.column < r.style.tabStop ∨ r.scope.blocks.length = 0) := by omega
    have hdeep : ¬r.scope.blocks.length < d := by omega
    simp only [target, if_neg htop, hlevel, if_neg hdeep, pathAt, if_neg (Nat.ne_of_gt hpos)]

/-! ## What a reader gains -/

/-- The body at depth `d` has gained nodes with the sketch of `nodes`, and the blocks above
    are still open. -/
structure Gains (d : Nat) (nodes : List Node) (r r' : Reader) : Prop where
  blocks : r'.scope.blocks.take d = r.scope.blocks.take d
  tree : ∃ added, r'.nodes = Tree.graft added r.nodes (r.pathAt d) ∧
    Tree.sketch added = Tree.sketch nodes

theorem Gains.trans (h : Gains d nodes r r') (h' : Gains d more r' r'') :
    Gains d (nodes ++ more) r r'' := by
  obtain ⟨added, htree, hsketch⟩ := h.tree
  obtain ⟨added', htree', hsketch'⟩ := h'.tree
  refine ⟨h'.blocks.trans h.blocks, added ++ added', ?_, ?_⟩
  · rw [htree', htree, pathAt_congr h.blocks, Tree.graft_graft]
  · rw [Tree.sketch_append, Tree.sketch_append, hsketch, hsketch']

/-- What holds before the lines of nodes at depth `d` are read, after the nodes `prev`. -/
structure Ready (style : IndentStyle) (d : Nat) (prev : List Node) (r : Reader) : Prop where
  sound : r.Sound
  style_eq : r.style = style
  depth : d ≤ r.scope.blocks.length
  /-- An open comment stands at least as deep, and is the last node. -/
  comment : ∀ column, r.openComment.map (·.column) = some column → d * style.tabStop ≤ column ∧
    ∃ last, prev.getLast? = some last ∧ last.leavesOpen style ≠ none
  /-- A `@use` may come after nodes that allow it. -/
  use : (∀ node ∈ prev, node.allowsUse = true) → r.useAllowed = true

theorem Ready.bodyAt? (hr : Ready style d prev r) :
    ∃ body, Tree.bodyAt? r.nodes (r.pathAt d) = some body := by
  unfold pathAt
  split
  · exact ⟨r.nodes, rfl⟩
  · have hlt : d - 1 < r.scope.blocks.length := by
      have := hr.depth
      omega
    rw [List.getElem?_eq_getElem hlt]
    exact hr.sound.bodyAt?_block (List.getElem_mem hlt)

theorem ready_start (uri : Uri) (style : IndentStyle) : Ready style 0 [] (start uri style) where
  sound := sound_start uri style
  style_eq := rfl
  depth := Nat.zero_le _
  comment _ h := nomatch h
  use _ := rfl

/-! ## A visible line -/

/-- What a line at depth `d` that says a node does to a reader. -/
structure Adds (d : Nat) (line : Text) (fresh : Node) (r r' : Reader) : Prop where
  nodes : r'.nodes =
    Tree.graft (r.pendingBlanks.map (.leaf · .blank) ++ [fresh]) r.nodes (r.pathAt d)
  blocks : r'.scope.blocks.take d = r.scope.blocks.take d
  depth : d ≤ r'.scope.blocks.length
  sound : r'.Sound
  style_eq : r'.style = r.style
  comment : r'.openComment.map (·.column) = Line.commentAfter r.style.tabStop none line
  commentPath : ∀ c, r'.openComment = some c → c.path = r.nextPath d
  /-- The block that it opens is the innermost one. -/
  opened : (Line.kindOutsideComment line).opensBlock = true →
    r'.scope.blocks[d]? = some ⟨d, r.nextPath d⟩
  /-- It does not forbid `@use` when its node does not. -/
  use : fresh.allowsUse = true → r'.useAllowed = r.useAllowed

/-- A line that may come after an open comment does not go on with it. -/
theorem Ready.kindOf_eq (hr : Ready style d prev r) (hsaid : Line.Says style d line node)
    (hstar : ∀ last, prev.getLast? = some last → last.leavesOpen style ≠ none →
      line.trim.head? ≠ some '*') :
    r.kindOf line = Line.kindOutsideComment line := by
  unfold kindOf
  cases hopen : r.openComment.map (·.column) with
  | none => rfl
  | some column =>
    obtain ⟨hdeep, last, hlast, hleaves⟩ := hr.comment column hopen
    have hnot := hstar last hlast hleaves
    have hwidth : Indent.width r.style.tabStop line ≤ column := by
      rw [hr.style_eq, hsaid.width]
      exact hdeep
    have hstops : Line.continuesComment r.style.tabStop column line = false := by
      unfold Line.continuesComment
      cases htrim : line.trim with
      | nil => rfl
      | cons c rest =>
        have hc : c ≠ '*' := fun hc => hnot (by rw [htrim, hc]; rfl)
        simp [hc, hwidth]
    rw [Line.kind, hstops]
    rfl

/-- No step adds a blank line. -/
theorem Step.visible {kind : LineKind} (h : Step find r info line kind nodes r') :
    ∀ node ∈ nodes, node.isBlank = false := by
  intro node hnode
  cases h with
  | opens =>
    rw [List.mem_singleton.1 hnode]
    exact Tree.isBlank_block ..
  | closes _ hc =>
    rw [List.mem_singleton.1 hnode]
    cases hc <;> rfl
  | keeps _ hk =>
    rw [List.mem_singleton.1 hnode]
    cases hk <;> rfl
  | imports =>
    rw [← List.map_uncurry_zip_eq_zipWith, List.mem_map] at hnode
    obtain ⟨⟨path, target⟩, -, rfl⟩ := hnode
    rfl
  | declares | comments | uses =>
    rw [List.mem_singleton.1 hnode]
    rfl

/-- The slot of a line once the waiting blank lines found their place. -/
theorem slot_settled (hs : r.Sound) (htarget : (r.target info).1 = r.pathAt d) :
    (r.settled info).slot info = r.nextPath d := by
  obtain ⟨body, hb⟩ := hs.hasTarget info
  have hgrown := Tree.bodyAt?_graft (r.pendingBlanks.map (.leaf · .blank)) hb
  have hslot : (r.settled info).slot info = (r.target info).1 ++
      [((Tree.bodyAt? (Tree.graft (r.pendingBlanks.map (.leaf · .blank)) r.nodes
        (r.target info).1) (r.target info).1).map List.length).getD 0] := rfl
  rw [hslot, hgrown]
  rw [htarget] at hb ⊢
  simp [nextPath, hb]

/-- A line that says a node, at the depth of the node, adds it. -/
theorem Ready.adds {g : Reading Unit} (hr : Ready style d prev g.reader)
    (hsaid : Line.Says style d line node)
    (hstar : ∀ last, prev.getLast? = some last → last.leavesOpen style ≠ none →
      line.trim.head? ≠ some '*')
    (huse : Line.kindOutsideComment line = .useModule → g.reader.useAllowed = true) (index : Nat) :
    ∃ fresh, Adds d line fresh g.reader (g.readLine .detached index line).reader ∧
      Tree.sketch [fresh] = [node] ∧ Node.Fresh index fresh := by
  have hkind := hr.kindOf_eq hsaid hstar
  have hreads := Reading.readLine_reads .detached hr.sound index line
  have hsound := hreads.sound hr.sound
  have hcomment := hreads.comment_eq
  generalize (g.readLine .detached index line).reader = r' at hreads hsound hcomment ⊢
  cases hreads with
  | waits hk => exact absurd (hkind.symm.trans hk) hsaid.kind_ne_blank
  | goesOn _ hk => exact absurd (hkind.symm.trans hk) (Line.kindOutsideComment_ne_content line)
  | @steps nodes _ _ _ hstep =>
    rw [hkind] at hstep
    have hcolumn : (g.reader.lineInfo index line).column = d * g.reader.style.tabStop := by
      rw [hr.style_eq, ← hsaid.width, ← hr.style_eq]
      rfl
    have hlevel : (g.reader.lineInfo index line).rawLevel = d := by
      show Indent.level _ (g.reader.lineInfo index line).column = d
      have hsmall := hsaid.level_lt
      rw [hcolumn, Indent.level_mul g.reader.style.tabStop_pos (by omega)]
    obtain ⟨htarget, hlevelOf⟩ := target_eq_pathAt hr.depth hcolumn hlevel
    have hlevelOf' : (g.reader.settled (g.reader.lineInfo index line)).levelOf
        (g.reader.lineInfo index line) = d := hlevelOf
    -- the line says one node, so one node was added
    have hsketch := hstep.sketch_nodes huse
    rw [hlevelOf', hsaid.nodes] at hsketch
    have hlength : nodes.length = 1 := by
      rw [← Tree.length_sketch hstep.visible, hsketch]
      rfl
    obtain ⟨fresh, rfl⟩ := List.length_eq_one_iff.1 hlength
    have hslot := slot_settled hr.sound htarget
    have hkept : ∀ k, k < d → r'.scope.blocks[k]? = g.reader.scope.blocks[k]? :=
      fun k hk => hstep.blocks_take hr.sound.use k (by rw [hlevelOf']; exact hk)
    have htake : r'.scope.blocks.take d = g.reader.scope.blocks.take d := by
      refine List.ext_getElem? fun k => ?_
      rw [List.getElem?_take, List.getElem?_take]
      split
      · exact hkept k ‹_›
      · rfl
    refine ⟨fresh, ⟨?_, htake, ?_, hsound, hstep.frame.2.1, ?_, ?_, ?_, ?_⟩, hsketch,
      hstep.fresh fresh (List.mem_singleton_self fresh)⟩
    · rw [hstep.settled_nodes, htarget]
    · have hlen := congrArg List.length htake
      rw [List.length_take, List.length_take, Nat.min_eq_left hr.depth] at hlen
      omega
    · rw [hcomment, Line.commentAfter, Line.commentAfter,
        show Line.kind g.reader.style.tabStop _ line = _ from hkind, Line.kind_none]
      have hne := Line.kindOutsideComment_ne_content line
      cases hk : Line.kindOutsideComment line with
      | blockCommentContent => exact absurd hk hne
      | _ => rfl
    · intro c hc
      rw [(hstep.comment_slot rfl hc).1, hslot]
    · intro hopens
      obtain ⟨header, -, -, hscope⟩ := hstep.opened hopens
      have hblocks : r'.scope.blocks = g.reader.scope.blocks.take d ++ [⟨d, g.reader.nextPath d⟩] := by
        rw [hscope, (declareAll_frame _ _ _ _).1, hlevelOf', hslot]
        rfl
      have hlen : (g.reader.scope.blocks.take d).length = d := by
        rw [List.length_take]
        exact Nat.min_eq_left hr.depth
      have hlast : (g.reader.scope.blocks.take d ++ [⟨d, g.reader.nextPath d⟩])[
          (g.reader.scope.blocks.take d).length]? = some ⟨d, g.reader.nextPath d⟩ :=
        List.getElem?_concat_length
      rwa [hlen, ← hblocks] at hlast
    · intro hallows
      have hsame : node.allowsUse = fresh.allowsUse := by
        rw [Node.allowsUse, Node.allowsUse, Tree.kind_of_sketch hsketch]
      obtain ⟨hkindAllows, hclause⟩ := hsaid.allowsUse (hsame.trans hallows)
      exact hstep.useAllowed_eq rfl hkindAllows hclause

/-- A reader that added the first line of a node has gained the node, if that is all. -/
theorem Adds.gains {fresh : Node} (h : Adds d line fresh r r')
    (hsketch : Tree.sketch [fresh] = Tree.sketch [node]) : Gains d [node] r r' := by
  refine ⟨h.blocks, _, h.nodes, ?_⟩
  rw [Tree.sketch_append, Tree.sketch_blanks, hsketch]
  rfl

theorem Ready.mono {e : Nat} (hr : Ready style d prev r) (he : e ≤ d) : Ready style e prev r := by
  refine ⟨hr.sound, hr.style_eq, Nat.le_trans he hr.depth, fun column hc => ?_, hr.use⟩
  obtain ⟨hdeep, hlast⟩ := hr.comment column hc
  exact ⟨Nat.le_trans (Nat.mul_le_mul_right _ he) hdeep, hlast⟩

/-- A comment that a line opens stands at the column of the line. -/
theorem column_of_commentAfter {tab column : Nat}
    (h : Line.commentAfter tab none line = some column) : column = Indent.width tab line := by
  unfold Line.commentAfter at h
  split at h
  · split at h
    · exact (Option.some.inj h).symm
    · cases h
  · split at h
    · cases h
    · cases h
  · cases h

/-- After a line that adds a node at depth `e`, the lines of deeper nodes may come. -/
theorem Adds.ready {fresh : Node} {e : Nat} (hr : Ready style d prev r)
    (h : Adds d line fresh r r') (htexts : node.texts style = [line])
    (hwidth : Indent.width style.tabStop line = d * style.tabStop)
    (hdepth : e ≤ r'.scope.blocks.length)
    (hcomment : ∀ column, Line.commentAfter style.tabStop none line = some column → e ≤ d)
    (hallows : node.allowsUse = fresh.allowsUse) : Ready style e (prev ++ [node]) r' := by
  refine ⟨h.sound, h.style_eq.trans hr.style_eq, hdepth, fun column hc => ?_, fun hall => ?_⟩
  · rw [h.comment, hr.style_eq] at hc
    refine ⟨?_, node, List.getLast?_concat, ?_⟩
    · rw [column_of_commentAfter hc, hwidth]
      exact Nat.mul_le_mul_right _ (hcomment column hc)
    · rw [Node.leavesOpen, htexts, List.foldl_cons, List.foldl_nil, hc]
      exact Option.some_ne_none column
  · have hnode := hall node (by simp)
    rw [h.use (hallows ▸ hnode)]
    exact hr.use fun n hn => hall n (List.mem_append_left _ hn)

end Reader

namespace Reading

variable {style : IndentStyle} {d : Nat} {prev : List Node} {g : Reading Unit}

theorem readLines_singleton (g : Reading Unit) (i : Nat) {line : Text}
    (h : line.getLast? ≠ some '\r') :
    readLines .detached g i [line] = g.readLine .detached i line := by
  rw [readLines, readLines, Text.dropReturn, if_neg h]

/-! ## Leaves -/

/-- The next line of a document may come after the nodes before it. -/
theorem separate_next {node : Node} {line : Text} {rest : List Text}
    (hsep : Tree.Separate style (prev ++ [node])) (htexts : node.texts style = line :: rest) :
    (∀ last, prev.getLast? = some last → last.leavesOpen style ≠ none →
        line.trim.head? ≠ some '*') ∧
      (Line.kindOutsideComment line = .useModule → ∀ a ∈ prev, a.allowsUse = true) := by
  constructor
  · intro last hlast hleaves hstar
    have hchain := (List.isChain_append.1 hsep.comments).2.2 last hlast node rfl
    exact hchain hleaves ⟨line, by rw [htexts]; rfl, hstar⟩
  · intro hk a ha
    exact (List.pairwise_append.1 hsep.uses).2.2 a ha node (List.mem_singleton_self node)
      ⟨line, by rw [htexts]; rfl, hk⟩

/-- A leaf of one line is read back. -/
theorem readLines_leaf {n : Nat} {leaf : Leaf} {line : Text} (hr : Reader.Ready style d prev g.reader)
    (htexts : leaf.texts style = [line]) (hblank : leaf ≠ .blank)
    (hsaid : Line.Says style d line (.leaf 0 leaf.sketch))
    (hsep : Tree.Separate style (prev ++ [.leaf n leaf])) (i : Nat) :
    Reader.Gains d [.leaf n leaf] g.reader (readLines .detached g i [line]).reader ∧
      Reader.Ready style d (prev ++ [.leaf n leaf]) (readLines .detached g i [line]).reader := by
  obtain ⟨hstar, huse⟩ := separate_next hsep htexts
  obtain ⟨fresh, hadds, hsketch, -⟩ := hr.adds hsaid hstar (fun hk => hr.use (huse hk)) i
  rw [readLines_singleton g i hsaid.plainEnd]
  have hsame : Tree.sketch [fresh] = Tree.sketch [.leaf n leaf] := by
    rw [hsketch, Tree.sketch_leaf hblank]
  refine ⟨hadds.gains hsame, hadds.ready hr htexts hsaid.width hadds.depth (fun _ _ => le_rfl) ?_⟩
  have hkind : (Node.leaf 0 leaf.sketch).kind = (Node.leaf n leaf).kind :=
    Tree.kind_of_sketch (Tree.sketch_leaf hblank n)
  rw [Node.allowsUse, Node.allowsUse, ← Tree.kind_of_sketch hsketch, hkind]

/-! ## Block comments -/

/-- A reader in the middle of a block comment: the comment, so far `done`, is the last node
    of the body at a path. -/
structure InComment (style : IndentStyle) (level : Nat) (first : List Node) (n : Nat)
    (done : List CommentLine) (nodes body : List Node) (path : TreePath) (r : Reader) : Prop where
  sound : r.Sound
  style_eq : r.style = style
  nodes_eq : r.nodes = Tree.graft (first ++ [.leaf n (.blockComment level done)]) nodes path
  opened : ∀ c, r.openComment = some c →
    c.path = path ++ [body.length + first.length] ∧ c.column = level * style.tabStop

/-- A further line of a block comment is read back. -/
theorem InComment.goOn {level n i : Nat} {first nodes body : List Node} {done : List CommentLine}
    {path : TreePath} {line text : Text}
    (hc : InComment style level first n done nodes body path g.reader)
    (hb : Tree.bodyAt? nodes path = some body)
    (hkind : g.reader.kindOf line = .blockCommentContent)
    (htext : (dropColumns style.tabStop (level * style.tabStop) line).trimEnd = text) :
    InComment style level first n (done ++ [⟨i, text⟩]) nodes body path
        (g.readLine .detached i line).reader ∧
      (g.readLine .detached i line).reader.scope = g.reader.scope ∧
      (g.readLine .detached i line).reader.useAllowed = g.reader.useAllowed := by
  obtain ⟨column, hcolumn⟩ := Line.opened_of_content hkind
  obtain ⟨comment, hopen, -⟩ := Option.map_eq_some_iff.1 hcolumn
  obtain ⟨hpath, hat⟩ := hc.opened comment hopen
  have hnode : Tree.nodeAt? g.reader.nodes comment.path =
      some (.leaf n (.blockComment level done)) := by
    rw [hc.nodes_eq, hpath, Tree.nodeAt?_graft hb, List.getElem?_concat_length]
  have hread : (g.readLine .detached i line).reader =
      { g.reader with
        nodes := Tree.modifyAt (fun _ => .leaf n (.blockComment level (done ++ [⟨i, text⟩])))
          g.reader.nodes comment.path
        openComment := if Line.closesBlockComment line then none else g.reader.openComment } := by
    rw [readLine_of_content .detached hc.sound i hkind]
    simp only [Reader.readCommentContent, hopen, hnode, hat, hc.style_eq, htext]
    rfl
  have hsound := (readLine_reads .detached hc.sound i line).sound hc.sound
  rw [hread] at hsound ⊢
  refine ⟨⟨hsound, hc.style_eq, ?_, ?_⟩, rfl, rfl⟩
  · show Tree.modifyAt _ g.reader.nodes comment.path = _
    rw [hc.nodes_eq, hpath, Tree.modifyAt_graft hb]
  · intro c hc'
    dsimp only at hc'
    split at hc'
    · cases hc'
    · exact hc.opened c hc'

/-- The further lines of a block comment are read back. -/
theorem InComment.goOnAll {level n i : Nat} {first nodes body : List Node}
    {done rest : List CommentLine} {path : TreePath}
    (hc : InComment style level first n done nodes body path g.reader)
    (hb : Tree.bodyAt? nodes path = some body)
    (hrest : Line.GoOn style level (g.reader.openComment.map (·.column)) rest) :
    let lines := rest.map fun l => Indent.ofLevel style level ++ l.text
    ∃ added : List CommentLine, added.map CommentLine.text = rest.map CommentLine.text ∧
      InComment style level first n (done ++ added) nodes body path
        (readLines .detached g i lines).reader ∧
      (readLines .detached g i lines).reader.scope = g.reader.scope ∧
      (readLines .detached g i lines).reader.useAllowed = g.reader.useAllowed ∧
      (readLines .detached g i lines).reader.openComment.map (·.column) =
        lines.foldl (Line.commentAfter style.tabStop) (g.reader.openComment.map (·.column)) := by
  intro lines
  induction rest generalizing g i done with
  | nil => exact ⟨[], rfl, by rw [List.append_nil]; exact hc, rfl, rfl, rfl⟩
  | cons content rest ih =>
    obtain ⟨-, hplain, hkind, htext, hnext⟩ := hrest
    have hkindOf : g.reader.kindOf (Indent.ofLevel style level ++ content.text) =
        .blockCommentContent := by
      rw [Reader.kindOf, hc.style_eq]
      exact hkind
    obtain ⟨hc', hscope, huse⟩ := hc.goOn (i := i) hb hkindOf htext
    have hafter := (readLine_reads .detached hc.sound i
      (Indent.ofLevel style level ++ content.text)).comment_eq
    rw [hc.style_eq] at hafter
    obtain ⟨added, htexts, hdone, hscope', huse', hopen⟩ :=
      ih (i := i + 1) hc' (by rw [hafter]; exact hnext)
    have hlines : readLines .detached g i lines = readLines .detached
        (g.readLine .detached i (Indent.ofLevel style level ++ content.text)) (i + 1)
        (rest.map fun l => Indent.ofLevel style level ++ l.text) := by
      show readLines .detached g i (_ :: _) = _
      rw [readLines, Text.dropReturn, if_neg hplain]
    rw [hlines]
    refine ⟨⟨i, content.text⟩ :: added, ?_, ?_, hscope'.trans hscope, huse'.trans huse, ?_⟩
    · rw [List.map_cons, List.map_cons, htexts]
    · rwa [List.append_cons]
    · rw [hopen, hafter]
      rfl

/-- A block comment is read back. -/
theorem readLines_blockComment {n : Nat} {first : CommentLine} {rest : List CommentLine}
    (hr : Reader.Ready style d prev g.reader)
    (hsaid : Line.Says style d (Indent.ofLevel style d ++ first.text)
      (.leaf 0 (.blockComment d [⟨0, first.text⟩])))
    (hrest : Line.GoOn style d (Line.commentAfter style.tabStop none
      (Indent.ofLevel style d ++ first.text)) rest)
    (hsep : Tree.Separate style (prev ++ [.leaf n (.blockComment d (first :: rest))])) (i : Nat) :
    let lines := (Leaf.blockComment d (first :: rest)).texts style
    Reader.Gains d [.leaf n (.blockComment d (first :: rest))] g.reader
        (readLines .detached g i lines).reader ∧
      Reader.Ready style d (prev ++ [.leaf n (.blockComment d (first :: rest))])
        (readLines .detached g i lines).reader := by
  intro lines
  have htexts : Node.texts style (.leaf n (.blockComment d (first :: rest))) =
      (Indent.ofLevel style d ++ first.text) ::
        rest.map fun l => Indent.ofLevel style d ++ l.text := rfl
  obtain ⟨hstar, huse⟩ := separate_next hsep htexts
  obtain ⟨fresh, hadds, hsketch, hfresh⟩ := hr.adds hsaid hstar (fun hk => hr.use (huse hk)) i
  obtain ⟨own, rfl⟩ : ∃ own, fresh = .leaf i (.blockComment d [⟨own, first.text⟩]) := by
    cases hfresh with
    | block => rw [Tree.sketch_block] at hsketch; cases hsketch
    | @leaf leaf _ =>
      cases leaf with
      | blockComment level contents =>
        rw [Tree.sketch_leaf Leaf.noConfusion] at hsketch
        simp only [Leaf.sketch, Leaf.shape, Leaf.outline, List.cons.injEq, Node.leaf.injEq,
          Leaf.blockComment.injEq, true_and, and_true] at hsketch
        obtain ⟨rfl, hcontents⟩ := hsketch
        obtain ⟨content, rfl, hcontent⟩ := List.map_eq_singleton_iff.1 hcontents
        simp only [CommentLine.mk.injEq, true_and] at hcontent
        exact ⟨content.line, by rw [← hcontent]⟩
      | _ => cases hsketch
  obtain ⟨body, hb⟩ := hr.bodyAt?
  have hfirst := hadds.comment
  rw [hr.style_eq] at hfirst
  have hc : InComment style d (g.reader.pendingBlanks.map (.leaf · .blank)) i [⟨own, first.text⟩]
      g.reader.nodes body (g.reader.pathAt d)
      (g.readLine .detached i (Indent.ofLevel style d ++ first.text)).reader := by
    refine ⟨hadds.sound, hadds.style_eq.trans hr.style_eq, hadds.nodes, fun c hopen => ⟨?_, ?_⟩⟩
    · rw [hadds.commentPath c hopen, Reader.nextPath, hb, List.length_map]
      rfl
    · rw [hopen, Option.map_some] at hfirst
      exact (Reader.column_of_commentAfter hfirst.symm).trans hsaid.width
  obtain ⟨added, htexts', hdone, hscope, hallowed, hopen⟩ := hc.goOnAll (i := i + 1) hb
    (by rw [hfirst]; exact hrest)
  have hlines : readLines .detached g i lines = readLines .detached
      (g.readLine .detached i (Indent.ofLevel style d ++ first.text)) (i + 1)
      (rest.map fun l => Indent.ofLevel style d ++ l.text) := by
    show readLines .detached g i (_ :: _) = _
    rw [readLines, Text.dropReturn, if_neg hsaid.plainEnd]
  rw [hlines]
  refine ⟨⟨by rw [hscope, hadds.blocks], _, hdone.nodes_eq, ?_⟩, hdone.sound, hdone.style_eq,
    by rw [hscope]; exact hadds.depth, fun column hcolumn => ?_, fun hall => ?_⟩
  · rw [Tree.sketch_append, Tree.sketch_blanks, Tree.sketch_leaf Leaf.noConfusion,
      Tree.sketch_leaf Leaf.noConfusion]
    have hzero : ∀ ls : List CommentLine, (ls.map fun l => ({ l with line := 0 } : CommentLine)) =
        (ls.map CommentLine.text).map fun text => ⟨0, text⟩ := fun ls => by simp
    simp only [Leaf.sketch, Leaf.shape, Leaf.outline, hzero, List.map_append, htexts', List.map_cons]
    rfl
  · obtain ⟨c, hc', rfl⟩ := Option.map_eq_some_iff.1 hcolumn
    refine ⟨Nat.le_of_eq (hdone.opened c hc').2.symm, _, List.getLast?_concat, ?_⟩
    rw [Node.leavesOpen, htexts, List.foldl_cons, ← hfirst, ← hopen, hcolumn]
    exact Option.some_ne_none _
  · rw [hallowed, hadds.use rfl]
    exact hr.use fun node hnode => hall node (List.mem_append_left _ hnode)

/-! ## Blocks -/

/-- The line of a header opens a block, under which the lines of its body may come. -/
theorem readLine_header {n level : Nat} {header : Header} {inner : List Node}
    (hr : Reader.Ready style d prev g.reader)
    (hsaid : Line.Says style d (Indent.ofLevel style d ++ header.text)
      (.block 0 d header.sketch []))
    (hlevel : level = d)
    (hsep : Tree.Separate style (prev ++ [.block n level header inner])) (i : Nat) :
    let line := Indent.ofLevel style d ++ header.text
    ∃ header', header'.sketch = header.sketch ∧
      Reader.Adds d line (.block i d header' []) g.reader (g.readLine .detached i line).reader ∧
      Reader.Ready style (d + 1) (prev ++ [.block n level header inner])
        (g.readLine .detached i line).reader ∧
      (g.readLine .detached i line).reader.pathAt (d + 1) = g.reader.nextPath d := by
  intro line
  subst hlevel
  have htexts : Node.texts style (.block n level header inner) = [line] := rfl
  obtain ⟨hstar, huse⟩ := separate_next hsep htexts
  obtain ⟨fresh, hadds, hsketch, hfresh⟩ := hr.adds hsaid hstar (fun hk => hr.use (huse hk)) i
  obtain ⟨header', rfl, hheader⟩ : ∃ header', fresh = .block i level header' [] ∧
      header'.sketch = header.sketch := by
    cases hfresh with
    | leaf =>
      rename_i leaf _
      cases leaf <;> cases hsketch
    | @block level' header' =>
      rw [Tree.sketch_block] at hsketch
      simp only [List.cons.injEq, Node.block.injEq, true_and, and_true] at hsketch
      exact ⟨header', by rw [hsketch.1], hsketch.2.1⟩
  have hopened := hadds.opened hsaid.opensBlock
  have hlt := (List.getElem?_eq_some_iff.1 hopened).1
  refine ⟨header', hheader, hadds, hadds.ready hr rfl hsaid.width hlt ?_ ?_, ?_⟩
  · intro column hcolumn
    rw [Line.commentAfter_of_opensBlock hsaid.opensBlock] at hcolumn
    cases hcolumn
  · cases header <;> cases header' <;> rfl
  · rw [Reader.pathAt, if_neg (Nat.succ_ne_zero level), Nat.add_sub_cancel, hopened]
    rfl

/-- A block whose body was gained was gained with its body. -/
theorem gains_block {n level : Nat} {header header' : Header} {inner : List Node} {line : Text}
    {r r₁ r₂ : Reader} {i : Nat} (hr : Reader.Ready style d prev r)
    (hheader : header'.sketch = header.sketch)
    (hadds : Reader.Adds d line (.block i d header' []) r r₁)
    (hpath : r₁.pathAt (d + 1) = r.nextPath d) (hlevel : level = d)
    (hgains : Reader.Gains (d + 1) inner r₁ r₂) :
    Reader.Gains d [.block n level header inner] r r₂ := by
  obtain ⟨added, htree, hsketch⟩ := hgains.tree
  obtain ⟨body, hb⟩ := hr.bodyAt?
  have hblocks : r₂.scope.blocks.take d = r₁.scope.blocks.take d := by
    have htake := congrArg (List.take d) hgains.blocks
    rwa [List.take_take, List.take_take, Nat.min_eq_left (Nat.le_succ d)] at htake
  refine ⟨hblocks.trans hadds.blocks,
    r.pendingBlanks.map (.leaf · .blank) ++ [.block i d header' added], ?_, ?_⟩
  · rw [htree, hpath, hadds.nodes, Reader.nextPath, hb, Option.map_some, Option.getD_some,
      ← List.length_map (f := (Node.leaf · .blank)), Tree.graft, Tree.updateAt_graft_block _ hb]
    rfl
  · rw [Tree.sketch_append, Tree.sketch_blanks, Tree.sketch_block, Tree.sketch_block, hheader,
      hsketch, hlevel]
    rfl

/-! ## Trees -/

/-- The lines of a block are that of its header and those of its body. -/
theorem readLines_printOne_block {n level : Nat} {header : Header} {body : List Node} (cur : Cursor)
    (i : Nat) (hend : (Indent.ofLevel style level ++ header.text).getLast? ≠ some '\r') :
    readLines .detached g i (Tree.printOne style cur (.block n level header body)).lines =
      readLines .detached (g.readLine .detached i (Indent.ofLevel style level ++ header.text)) (i + 1)
        (Tree.print style ⟨cur.line + 1, false⟩ body).lines := by
  rw [Tree.printOne, readLines, Text.dropReturn, if_neg hend]

theorem readLines_print_cons {node : Node} {rest : List Node} (cur : Cursor) (i : Nat) :
    readLines .detached g i (Tree.print style cur (node :: rest)).lines =
      readLines .detached (readLines .detached g i (Tree.printOne style cur node).lines)
        (i + (Tree.printOne style cur node).lines.length)
        (Tree.print style (Tree.printOne style cur node).cursor rest).lines := by
  rw [Tree.print, readLines_append]

/-- What reading the lines of nodes does. -/
structure ReadBack (style : IndentStyle) (d : Nat) (prev nodes : List Node) (cur : Cursor)
    (r r' : Reader) : Prop where
  gains : r.Gains d nodes r'
  ready : r'.Ready style d (prev ++ Tree.listing nodes)
  /-- After a blank line no comment is open. -/
  blank : cur.afterBlank = true → r'.openComment = none

/-- A blank line waits, or is not written. -/
theorem readLines_blank {n : Nat} {cur : Cursor} (i : Nat) (hr : g.reader.Ready style d prev)
    (hcur : cur.afterBlank = true → g.reader.openComment = none) :
    ReadBack style d prev [.leaf n .blank] (Tree.printOne style cur (.leaf n .blank)).cursor g.reader
      (readLines .detached g i (Tree.printOne style cur (.leaf n .blank)).lines).reader := by
  have hready : ∀ r : Reader, r.Sound → r.style = style → r.scope = g.reader.scope →
      r.useAllowed = g.reader.useAllowed → r.openComment = none →
      r.Ready style d (prev ++ [.leaf n .blank]) := by
    intro r hsound hstyle hscope huse hopen
    refine ⟨hsound, hstyle, by rw [hscope]; exact hr.depth, fun column hc => ?_, fun hall => ?_⟩
    · rw [hopen] at hc
      cases hc
    · rw [huse]
      exact hr.use fun node hnode => hall node (List.mem_append_left _ hnode)
  cases hafter : cur.afterBlank with
  | true =>
    have hprint : Tree.printOne style cur (.leaf n .blank) = ⟨[], [], cur⟩ := by
      simp only [Tree.printOne, hafter]
      rfl
    rw [hprint]
    exact ⟨⟨rfl, [], Tree.graft_nothing.symm, rfl⟩,
      hready _ hr.sound hr.style_eq rfl rfl (hcur hafter), hcur⟩
  | false =>
    have hprint : (Tree.printOne style cur (.leaf n .blank)).lines = [[]] := by
      simp only [Tree.printOne, hafter]
      rfl
    have hread : (readLines .detached g i [[]]).reader =
        { g.reader with
          openComment := none
          pendingBlanks := g.reader.pendingBlanks ++ [i] } :=
      readLine_of_blank .detached i (Line.kind_eq_blank_iff.2 rfl)
    have hsound := (readLine_reads .detached hr.sound i []).sound hr.sound
    rw [show readLine .detached g i [] = readLines .detached g i [[]] from rfl, hread] at hsound
    rw [hprint, hread]
    exact ⟨⟨rfl, [], Tree.graft_nothing.symm, rfl⟩,
      hready _ hsound hr.style_eq rfl rfl rfl, fun _ => rfl⟩

/-- A `@use` line comes before every block, so it stands at the top level. -/
theorem depth_of_level?_none {n e : Nat} {leaf : Leaf} {line : Text}
    (hr : g.reader.Ready style d prev) (htexts : leaf.texts style = [line])
    (hblank : leaf ≠ .blank) (hlevel : leaf.level? = none)
    (hsaid : Line.Says style e line (.leaf 0 leaf.sketch))
    (hsep : Tree.Separate style (prev ++ [.leaf n leaf])) : d = 0 := by
  cases leaf with
  | blank => exact absurd rfl hblank
  | useModule path target qualifier =>
    have hallowed := hr.use ((separate_next hsep htexts).2 (Line.Says.kind_use hsaid))
    have hdepth := hr.depth
    rw [hr.sound.use hallowed] at hdepth
    exact Nat.le_zero.1 hdepth
  | _ => cases hlevel

/-- A leaf is read back. -/
theorem readLines_printLeaf {n : Nat} {leaf : Leaf} {cur : Cursor} (i : Nat)
    (hr : g.reader.Ready style d prev)
    (hcur : cur.afterBlank = true → g.reader.openComment = none)
    (hplaced : (Node.leaf n leaf).Placed d) (hlegible : leaf.Legible style)
    (hsep : Tree.Separate style (prev ++ [.leaf n leaf])) :
    ReadBack style d prev [.leaf n leaf] (Tree.printOne style cur (.leaf n leaf)).cursor g.reader
      (readLines .detached g i (Tree.printOne style cur (.leaf n leaf)).lines).reader := by
  have hlisting : prev ++ Tree.listing [.leaf n leaf] = prev ++ [.leaf n leaf] := rfl
  by_cases hblank : leaf = .blank
  · subst hblank
    exact readLines_blank i hr hcur
  · -- a leaf that is not blank is always written
    have hvisible : (Node.leaf n leaf).isBlank = false := by
      cases leaf with
      | blank => exact absurd rfl hblank
      | _ => rfl
    have hprint : Tree.printOne style cur (.leaf n leaf) =
        ⟨[.leaf cur.line (leaf.renumber cur.line)], leaf.texts style,
          ⟨cur.line + (leaf.texts style).length,
            if (leaf.texts style).isEmpty then cur.afterBlank else false⟩⟩ := by
      simp only [Tree.printOne, hvisible, Bool.and_false, Bool.false_eq_true, if_false]
    have hcursor : ∀ {line : Text} {rest : List Text}, leaf.texts style = line :: rest →
        (Tree.printOne style cur (.leaf n leaf)).cursor.afterBlank = false := by
      intro line rest htexts
      rw [hprint, htexts]
      rfl
    have hread : (∃ line rest, leaf.texts style = line :: rest) ∧
        Reader.Gains d [.leaf n leaf] g.reader (readLines .detached g i (leaf.texts style)).reader ∧
        Reader.Ready style d (prev ++ [.leaf n leaf])
          (readLines .detached g i (leaf.texts style)).reader := by
      by_cases hcomment : ∃ level lines, leaf = .blockComment level lines
      · obtain ⟨level, lines, rfl⟩ := hcomment
        obtain ⟨first, rest, rfl, hsaid, hrest⟩ := hlegible
        obtain rfl : level = d := hplaced level rfl
        exact ⟨⟨_, _, rfl⟩, readLines_blockComment hr hsaid hrest hsep i⟩
      · obtain ⟨line, htexts, hsaid⟩ := hlegible.exists_line hblank fun level lines h =>
          hcomment ⟨level, lines, h⟩
        have hlevel : leaf.level?.getD 0 = d := by
          cases hl : leaf.level? with
          | some level => exact hplaced level hl
          | none => exact (depth_of_level?_none hr htexts hblank hl hsaid hsep).symm
        rw [hlevel] at hsaid
        rw [htexts]
        exact ⟨⟨line, [], rfl⟩, readLines_leaf hr htexts hblank hsaid hsep i⟩
    obtain ⟨⟨line, rest, htexts⟩, hgains, hready⟩ := hread
    rw [show (Tree.printOne style cur (.leaf n leaf)).lines = leaf.texts style by rw [hprint]]
    refine ⟨hgains, hready, fun h => ?_⟩
    rw [hcursor htexts] at h
    cases h

mutual

theorem readLines_printOne (style : IndentStyle) : ∀ (node : Node) (cur : Cursor) (i : Nat) {d : Nat}
    {prev : List Node} {g : Reading Unit}, g.reader.Ready style d prev →
    (cur.afterBlank = true → g.reader.openComment = none) → node.Placed d →
    (∀ n ∈ Tree.listingOfOne node, n.Legible style) →
    Tree.Separate style (prev ++ Tree.listingOfOne node) →
    ReadBack style d prev [node] (Tree.printOne style cur node).cursor g.reader
      (readLines .detached g i (Tree.printOne style cur node).lines).reader
  | .leaf n leaf, cur, i, d, prev, g, hr, hcur, hplaced, hlegible, hsep =>
    readLines_printLeaf i hr hcur hplaced (hlegible _ (List.mem_singleton_self _)) hsep
  | .block n level header body, cur, i, d, prev, g, hr, hcur, hplaced, hlegible, hsep => by
    obtain ⟨rfl, hbody⟩ := hplaced
    have hsaid := hlegible _ (List.mem_cons_self ..)
    have hlisting : prev ++ Tree.listingOfOne (.block n level header body) =
        (prev ++ [.block n level header body]) ++ Tree.listing body := by
      rw [Tree.listingOfOne, List.append_cons]
    rw [hlisting] at hsep
    obtain ⟨header', hheader, hadds, hready, hpath⟩ := readLine_header hr hsaid rfl hsep.left i
    have hinner := readLines_print style body ⟨cur.line + 1, false⟩ (i + 1) hready
      (fun h => nomatch h) hbody (fun m hm => hlegible m (List.mem_cons_of_mem _ hm)) hsep
    rw [readLines_printOne_block cur i hsaid.plainEnd]
    refine ⟨gains_block hr hheader hadds hpath rfl hinner.gains, ?_, hinner.blank⟩
    rw [Tree.listing, Tree.listing, List.append_nil, hlisting]
    exact hinner.ready.mono (Nat.le_succ level)

theorem readLines_print (style : IndentStyle) : ∀ (nodes : List Node) (cur : Cursor) (i : Nat)
    {d : Nat} {prev : List Node} {g : Reading Unit}, g.reader.Ready style d prev →
    (cur.afterBlank = true → g.reader.openComment = none) → Tree.Placed d nodes →
    (∀ n ∈ Tree.listing nodes, n.Legible style) →
    Tree.Separate style (prev ++ Tree.listing nodes) →
    ReadBack style d prev nodes (Tree.print style cur nodes).cursor g.reader
      (readLines .detached g i (Tree.print style cur nodes).lines).reader
  | [], cur, i, d, prev, g, hr, hcur, hplaced, hlegible, hsep => by
    refine ⟨⟨rfl, [], Tree.graft_nothing.symm, rfl⟩, ?_, hcur⟩
    rw [Tree.listing, List.append_nil]
    exact hr
  | node :: rest, cur, i, d, prev, g, hr, hcur, hplaced, hlegible, hsep => by
    rw [Tree.listing, ← List.append_assoc] at hsep
    have hfirst := readLines_printOne style node cur i hr hcur hplaced.1
      (fun n hn => hlegible n (List.mem_append_left _ hn)) hsep.left
    have hready := hfirst.ready
    rw [Tree.listing, Tree.listing, List.append_nil] at hready
    have hrest := readLines_print style rest (Tree.printOne style cur node).cursor
      (i + (Tree.printOne style cur node).lines.length) hready hfirst.blank hplaced.2
      (fun n hn => hlegible n (List.mem_append_right _ hn)) hsep
    rw [readLines_print_cons]
    refine ⟨hfirst.gains.trans hrest.gains, ?_, hrest.blank⟩
    rw [Tree.listing, ← List.append_assoc]
    exact hrest.ready

end

end Reading

/-! ## Texts -/

theorem mem_squeeze {after : Bool} {items : List (Bool × List Text)} {line : Text}
    (h : line ∈ (squeeze after items).1) : ∃ item ∈ items, line ∈ item.2 := by
  induction items generalizing after with
  | nil => cases h
  | cons item items ih =>
    simp only [squeeze] at h
    split at h
    · obtain ⟨other, hmem, hline⟩ := ih h
      exact ⟨other, List.mem_cons_of_mem _ hmem, hline⟩
    · rcases List.mem_append.1 h with hown | hrest
      · exact ⟨item, List.mem_cons_self .., hown⟩
      · obtain ⟨other, hmem, hline⟩ := ih hrest
        exact ⟨other, List.mem_cons_of_mem _ hmem, hline⟩

theorem Line.GoOn.feed {style : IndentStyle} {level : Nat} {opened : Option Nat}
    {contents : List CommentLine} (h : Line.GoOn style level opened contents) :
    ∀ content ∈ contents, '\n' ∉ Indent.ofLevel style level ++ content.text := by
  induction contents generalizing opened with
  | nil =>
    intro content hmem
    cases hmem
  | cons first rest ih =>
    obtain ⟨hfeed, -, -, -, hrest⟩ := h
    intro content hmem
    rcases List.mem_cons.1 hmem with rfl | hmem
    · exact hfeed
    · exact ih hrest content hmem

/-- The lines of a node that is read back are lines. -/
theorem Node.Legible.feed {style : IndentStyle} {node : Node} (h : node.Legible style) :
    ∀ line ∈ node.texts style, '\n' ∉ line := by
  intro line hline
  cases node with
  | block n level header body =>
    rw [List.mem_singleton.1 hline]
    exact Line.Says.feed h
  | leaf n leaf =>
    by_cases hblank : leaf = .blank
    · subst hblank
      rw [List.mem_singleton.1 hline]
      exact List.not_mem_nil
    by_cases hcomment : ∃ level lines, leaf = .blockComment level lines
    · obtain ⟨level, lines, rfl⟩ := hcomment
      obtain ⟨first, rest, rfl, hsaid, hrest⟩ := h
      obtain ⟨content, hmem, rfl⟩ := List.mem_map.1 hline
      rcases List.mem_cons.1 hmem with rfl | hmem
      · exact hsaid.feed
      · exact hrest.feed content hmem
    · obtain ⟨own, htexts, hsaid⟩ := Leaf.Legible.exists_line h hblank fun level lines hl =>
        hcomment ⟨level, lines, hl⟩
      rw [show Node.texts style (.leaf n leaf) = [own] from htexts] at hline
      rw [List.mem_singleton.1 hline]
      exact hsaid.feed

/-- What the lines of a written tree gain is the tree of its text. -/
theorem sketch_readDetached_of_gains {uri : Uri} {style : IndentStyle} {nodes read : List Node}
    (hfeed : ∀ n ∈ Tree.listing nodes, ∀ line ∈ n.texts style, '\n' ∉ line)
    (hgains : (Reader.start uri style).Gains 0 read (Reading.readLines .detached
      ⟨.start uri style, (), []⟩ 0 (Tree.print style {} nodes).lines).reader) :
    Tree.sketch (readDetached uri style (Tree.render style nodes)).body = Tree.sketch read := by
  obtain ⟨added, htree, hsketch⟩ := hgains.tree
  rw [show (Reader.start uri style).pathAt 0 = [] from rfl, Tree.graft_nil,
    show (Reader.start uri style).nodes = [] from rfl, List.nil_append] at htree
  have hlines : ∀ line ∈ (Tree.print style {} nodes).lines, '\n' ∉ line := by
    intro line hline
    have hshown := congrArg Prod.fst (Tree.print_lines style {} nodes)
    rw [show (Tree.print style {} nodes).lines = _ from hshown] at hline
    obtain ⟨item, hitem, hmem⟩ := mem_squeeze hline
    obtain ⟨node, hnode, rfl⟩ := List.mem_map.1 hitem
    exact hfeed node hnode line hmem
  by_cases hnone : (Tree.print style {} nodes).lines = []
  · -- without lines there is one blank line to be read
    have hempty : Tree.sketch read = [] := by
      rw [← hsketch, ← htree, hnone]
      rfl
    rw [hempty, Tree.render, hnone]
    rfl
  · have hbody : (readDetached uri style (Tree.render style nodes)).body =
        ((Reading.readLines .detached ⟨.start uri style, (), []⟩ 0
          (Tree.print style {} nodes).lines).reader.flushBlanks []).nodes := by
      rw [readDetached, readFile, Tree.render, Text.lines_unlines hnone hlines]
      rfl
    rw [hbody, Reader.flushBlanks_eq rfl, Tree.graft_nil, Tree.sketch_append, Tree.sketch_blanks,
      List.append_nil, htree, hsketch]

/-- A tree whose nodes stand where their levels say and are read back from their lines is
    read back from its text. -/
theorem sketch_readDetached_render {uri : Uri} {style : IndentStyle} {nodes : List Node}
    (hplaced : Tree.Placed 0 nodes) (hlegible : ∀ n ∈ Tree.listing nodes, n.Legible style)
    (hsep : Tree.Separate style (Tree.listing nodes)) :
    Tree.sketch (readDetached uri style (Tree.render style nodes)).body = Tree.sketch nodes := by
  have hback := Reading.readLines_print style nodes {} 0 (g := ⟨.start uri style, (), []⟩)
    (Reader.ready_start uri style) (fun h => nomatch h) hplaced hlegible hsep
  exact sketch_readDetached_of_gains (fun n hn => (hlegible n hn).feed) hback.gains

end IndentedSass
