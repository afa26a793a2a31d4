/-
  Every line has its place in the tree.

  Reading neither loses nor repeats a line: each line of a file is in the tree
  once, only the paths of an `@import` line are nodes of their own, side by side.
  `Tree.Covers` says this of a tree and the lines of a file, with the order of the
  lines and the place of blank lines.

  * `Reader.Covering` is the invariant: it holds of the tree that has been read,
    and of the blank lines that wait behind it;
  * `readFile_covers`: reading gives such a tree, and on the way every path that
    the reader holds leads to a node of the right kind.
-/
import Mathlib
import IndentedSass.Proofs.Reader.Run
import IndentedSass.Proofs.Tree.Order

namespace IndentedSass

/-! ## The lines of a file in a tree -/

namespace Tree

/-- The blank lines from `first` up to `next` are nodes of the body at a path, the
    first of them at index `start`. -/
def BlankRun (kinds : List LineKind) (tree : List Node) (path : TreePath)
    (start first next : Nat) : Prop :=
  first < next ∧ ∀ t, first ≤ t → t < next → kinds[t]? = some .blank ∧
    nodeAt? tree (path ++ [start + (t - first)]) = some (.leaf t .blank)

/-- The blank line `i` and those that follow it stand right before the node of the
    next other line, in the same body. -/
def BlankBefore (kinds : List LineKind) (tree : List Node) (i : Nat) : Prop :=
  ∃ path start next kind node, BlankRun kinds tree path start i next ∧
    kinds[next]? = some kind ∧ kind ≠ .blank ∧
    nodeAt? tree (path ++ [start + (next - i)]) = some node ∧ node.line = next

/-- The blank line `i` and those that follow it end the file and the top level. -/
def BlankAtEnd (kinds : List LineKind) (tree : List Node) (i : Nat) : Prop :=
  ∃ start, BlankRun kinds tree [] start i kinds.length ∧
    tree.length = start + (kinds.length - i)

/-- The paths of the `@import` line `i` are nodes side by side, in one body. -/
def ImportRun (tree : List Node) (i : Nat) (paths : List Text) : Prop :=
  ∃ path start level, ∀ k p, paths[k]? = some p → ∃ target,
    nodeAt? tree (path ++ [start + k]) = some (.leaf i (.importPath level p target))

/-- A tree holds the lines of a file, which are of these kinds. -/
structure Covers (lines : List Text) (kinds : List LineKind) (tree : List Node) : Prop where
  /-- Every line occurs once, an `@import` line once for each of its paths. -/
  occurs : ∀ (i : Nat) kind line, kinds[i]? = some kind → lines[i]? = some line →
    (lineNumbers tree).count i = Line.nodeCount kind line
  /-- No other line occurs. -/
  bounded : ∀ i ∈ lineNumbers tree, i < lines.length
  /-- The paths of an `@import` line are adjacent. -/
  imports : ∀ (i : Nat) line paths, kinds[i]? = some .importPaths → lines[i]? = some line →
    importPaths? line = some paths → paths ≠ [] → ImportRun tree i paths
  /-- The lines of a body do not go back. -/
  sorted : ∀ path body, bodyAt? tree path = some body → body.Pairwise (·.line ≤ ·.line)
  /-- The lines under a block come after it. -/
  nested : ∀ path line level header body,
    nodeAt? tree path = some (.block line level header body) → ∀ child ∈ body, line < child.line
  /-- The lines of a block comment are consecutive and start with its own. -/
  comments : ∀ path line level lines,
    nodeAt? tree path = some (.leaf line (.blockComment level lines)) →
      lines ≠ [] ∧ lines.map CommentLine.line = List.range' line lines.length
  /-- Blank lines stand before the next other line, or at the end. -/
  blanks : ∀ i : Nat, kinds[i]? = some .blank → BlankBefore kinds tree i ∨ BlankAtEnd kinds tree i

/-- A line that is no `@import` line is in one place. -/
theorem Covers.path_eq {lines : List Text} {kinds : List LineKind} {tree : List Node}
    (h : Covers lines kinds tree) {i : Nat} {kind : LineKind} {line : Text}
    (hk : kinds[i]? = some kind) (hkind : kind ≠ .importPaths) (hline : lines[i]? = some line)
    {path q : TreePath} {a b : Node} (ha : nodeAt? tree path = some a)
    (hb : nodeAt? tree q = some b) (hai : i ∈ a.lines) (hbi : i ∈ b.lines) : path = q := by
  have hcount : (lineNumbers tree).count i = 1 := by
    rw [h.occurs i kind line hk hline, Line.nodeCount, if_neg hkind]
  exact path_eq_of_count hcount.le ha hb hai hbi

variable {kinds : List LineKind} {nodes nodes' : List Node} {i : Nat}

theorem BlankBefore.mono (h : BlankBefore kinds nodes i) (hextends : Extends nodes nodes')
    (more : List LineKind) : BlankBefore (kinds ++ more) nodes' i := by
  obtain ⟨path, start, next, kind, node, ⟨hlt, hrun⟩, hkind, hne, hnode, hline⟩ := h
  have hkeep : ∀ {t : Nat} {k : LineKind}, kinds[t]? = some k → (kinds ++ more)[t]? = some k :=
    fun hk => by rw [List.getElem?_append_left (List.getElem?_eq_some_iff.1 hk).1, hk]
  obtain ⟨node', hnode', hc⟩ := hextends _ _ hnode
  refine ⟨path, start, next, kind, node', ⟨hlt, fun t h₁ h₂ => ?_⟩, hkeep hkind, hne, hnode',
    hc.line_eq.trans hline⟩
  obtain ⟨hk, hn⟩ := hrun t h₁ h₂
  exact ⟨hkeep hk, hextends.leaf (fun _ _ h => nomatch h) hn⟩

theorem ImportRun.mono {paths : List Text} (h : ImportRun nodes i paths)
    (hextends : Extends nodes nodes') : ImportRun nodes' i paths := by
  obtain ⟨path, start, level, hrun⟩ := h
  refine ⟨path, start, level, fun k p hk => ?_⟩
  obtain ⟨target, hn⟩ := hrun k p hk
  exact ⟨target, hextends.leaf (fun _ _ h => nomatch h) hn⟩

/-- The nodes that a line leaves in its body have the number of the line. -/
theorem lineNumbers_fresh {index : Nat} (hfresh : ∀ node ∈ nodes, Node.Fresh index node) :
    lineNumbers nodes = List.replicate nodes.length index := by
  induction nodes with
  | nil => rfl
  | cons node rest ih =>
    have hone : lineNumbers [node] = [index] := by
      cases hfresh node (List.mem_cons_self ..) with
      | block => rw [lineNumbers_block, lineNumbers_nil]
      | @leaf leaf hleaf =>
        rw [lineNumbers_leaf]
        cases leaf with
        | blockComment level lines => exact hleaf level lines rfl
        | _ => rfl
    rw [lineNumbers_cons, hone, ih fun n hn => hfresh n (List.mem_cons_of_mem _ hn)]
    rfl

theorem count_fresh {index : Nat} (hfresh : ∀ node ∈ nodes, Node.Fresh index node) (i : Nat) :
    (lineNumbers nodes).count i = if i = index then nodes.length else 0 := by
  rw [lineNumbers_fresh hfresh, List.count_replicate]
  by_cases h : i = index
  · simp [h]
  · simp [h, Ne.symm h]

theorem lineNumbers_blanks (blanks : List Nat) :
    lineNumbers (blanks.map (.leaf · .blank)) = blanks := by
  induction blanks with
  | nil => rfl
  | cons i rest ih =>
    rw [List.map_cons, lineNumbers_cons, ih, lineNumbers_leaf]
    rfl

end Tree

/-! ## The invariant -/

theorem getElem?_snoc {α : Type} {l : List α} {a b : α} {t : Nat}
    (h : (l ++ [a])[t]? = some b) : l[t]? = some b ∨ (t = l.length ∧ b = a) := by
  rcases Nat.lt_trichotomy t l.length with hlt | rfl | hgt
  · rw [List.getElem?_append_left hlt] at h
    exact .inl h
  · rw [List.getElem?_concat_length] at h
    exact .inr ⟨rfl, (Option.some.inj h).symm⟩
  · rw [List.getElem?_eq_none (by simpa using hgt)] at h
    cases h

theorem getD_snoc (l : List Nat) (a i : Nat) :
    (l ++ [a]).getD i 0 = l.getD i 0 + if i = l.length then a else 0 := by
  rcases Nat.lt_trichotomy i l.length with hlt | rfl | hgt
  · rw [if_neg (Nat.ne_of_lt hlt), List.getD_eq_getElem?_getD, List.getElem?_append_left hlt,
      List.getD_eq_getElem?_getD, Nat.add_zero]
  · simp
  · simp [Nat.le_of_lt hgt, Nat.ne_of_gt hgt, hgt]

namespace Reader

variable {find : Nat → Finder} {r r' : Reader} {uri : Uri} {style : IndentStyle}
  {done : List Text} {line : Text} {m index : Nat}

/-- The kinds of the lines of a file, from its start. -/
def kindsOf (style : IndentStyle) (done : List Text) : List LineKind :=
  Line.kinds style.tabStop none done

theorem kindsOf_length : (kindsOf style done).length = done.length := Line.kinds_length _ _ _

theorem After.kindsOf_snoc (ha : After uri style done r) (line : Text) :
    kindsOf style (done ++ [line]) = kindsOf style done ++ [r.kindOf line] := by
  rw [ha.kindOf_eq, kindsOf, Line.kinds_append]
  rfl

/-- The lines below `m` are in the tree, and the blank lines behind them wait. -/
structure Covering (style : IndentStyle) (done : List Text) (m : Nat) (r : Reader) : Prop where
  waiting : r.pendingBlanks = List.range' m (done.length - m)
  bound : m ≤ done.length
  ordered : Tree.Ordered m r.nodes
  blank : ∀ t, m ≤ t → t < done.length → (kindsOf style done)[t]? = some .blank
  before : ∀ i, i < m → (kindsOf style done)[i]? = some .blank →
    Tree.BlankBefore (kindsOf style done) r.nodes i
  counted : ∀ i, (Tree.lineNumbers r.nodes).count i + r.pendingBlanks.count i =
    (List.zipWith Line.nodeCount (kindsOf style done) done).getD i 0
  comment : ∀ comment, r.openComment = some comment → ∀ line level lines,
    Tree.nodeAt? r.nodes comment.path = some (.leaf line (.blockComment level lines)) →
      line + lines.length = done.length
  imports : ∀ (i : Nat) line paths, (kindsOf style done)[i]? = some .importPaths →
    done[i]? = some line → importPaths? line = some paths → paths ≠ [] →
      Tree.ImportRun r.nodes i paths

theorem covering_start : Covering style [] 0 (start uri style) := by
  refine ⟨rfl, Nat.le_refl _, Tree.ordered_nil, ?_, ?_, ?_, ?_, ?_⟩ <;> simp [start, kindsOf, Line.kinds]

theorem counted_snoc (ha : After uri style done r) (line : Text) (i : Nat) :
    (List.zipWith Line.nodeCount (kindsOf style (done ++ [line])) (done ++ [line])).getD i 0 =
      (List.zipWith Line.nodeCount (kindsOf style done) done).getD i 0 +
        if i = done.length then Line.nodeCount (r.kindOf line) line else 0 := by
  rw [ha.kindsOf_snoc, List.zipWith_append kindsOf_length, List.zipWith_cons_cons,
    List.zipWith_nil_left, getD_snoc, List.length_zipWith, kindsOf_length, Nat.min_self]

/-- The blank lines that had their place keep it. -/
theorem Covering.before_snoc (hc : Covering style done m r) (ha : After uri style done r)
    {nodes' : List Node} (hextends : Tree.Extends r.nodes nodes') {i : Nat} (hi : i < m)
    (hblank : (kindsOf style (done ++ [line]))[i]? = some .blank) :
    Tree.BlankBefore (kindsOf style (done ++ [line])) nodes' i := by
  have hbound := hc.bound
  rw [ha.kindsOf_snoc] at hblank ⊢
  rw [List.getElem?_append_left (by rw [kindsOf_length]; omega)] at hblank
  exact (hc.before i hi hblank).mono hextends _

/-- The paths that were imported stay adjacent; only the last line needs a proof. -/
theorem Covering.imports_snoc (hc : Covering style done m r) (ha : After uri style done r)
    {nodes' : List Node} (hextends : Tree.Extends r.nodes nodes')
    (hnew : r.kindOf line = .importPaths → ∀ paths, importPaths? line = some paths → paths ≠ [] →
      Tree.ImportRun nodes' done.length paths) :
    ∀ (i : Nat) line' paths, (kindsOf style (done ++ [line]))[i]? = some .importPaths →
      (done ++ [line])[i]? = some line' → importPaths? line' = some paths → paths ≠ [] →
        Tree.ImportRun nodes' i paths := by
  intro i line' paths hkind hline hpaths hne
  rw [ha.kindsOf_snoc] at hkind
  rcases getElem?_snoc hkind with hold | ⟨rfl, hlast⟩
  · have hlt : i < done.length := by
      rw [← kindsOf_length]
      exact (List.getElem?_eq_some_iff.1 hold).1
    rw [List.getElem?_append_left hlt] at hline
    exact (hc.imports i line' paths hold hline hpaths hne).mono hextends
  · rw [kindsOf_length, List.getElem?_concat_length] at hline
    cases hline
    rw [kindsOf_length]
    exact hnew hlast.symm paths hpaths hne

theorem Covering.waits (hc : Covering style done m r) (ha : After uri style done r)
    (hk : r.kindOf line = .blank) :
    Covering style (done ++ [line]) m
      { r with openComment := none, pendingBlanks := r.pendingBlanks ++ [done.length] } := by
  have hbound := hc.bound
  constructor
  · rw [hc.waiting, List.length_append, List.length_singleton, Nat.sub_add_comm hbound,
      List.range'_concat, Nat.one_mul, Nat.add_sub_cancel' hbound]
  · rw [List.length_append]
    omega
  · exact hc.ordered
  · intro t h₁ h₂
    rw [ha.kindsOf_snoc, hk]
    rcases Nat.lt_or_ge t done.length with hlt | hge
    · rw [List.getElem?_append_left (by rwa [kindsOf_length])]
      exact hc.blank t h₁ hlt
    · have ht : t = (kindsOf style done).length := by
        rw [List.length_append, List.length_singleton] at h₂
        rw [kindsOf_length]
        omega
      rw [ht, List.getElem?_concat_length]
  · exact fun i hi hblank => hc.before_snoc ha (Tree.Extends.refl _) hi hblank
  · intro i
    have hcount := hc.counted i
    rw [counted_snoc ha, hk, List.count_append, List.count_singleton]
    simp only [Line.nodeCount, reduceCtorEq, if_false, beq_iff_eq]
    by_cases hi : i = done.length
    · simp only [hi, if_true] at hcount ⊢
      omega
    · simp only [if_neg hi, if_neg (Ne.symm hi)]
      omega
  · intro comment hopen
    cases hopen
  · refine hc.imports_snoc ha (Tree.Extends.refl _) fun habs => ?_
    rw [hk] at habs
    cases habs

theorem Covering.goesOn {comment : OpenComment} {n level : Nat} {lines : List CommentLine}
    (hc : Covering style done m r) (ha : After uri style done r) (text : Text)
    (hk : r.kindOf line = .blockCommentContent) (hopen : r.openComment = some comment)
    (hnode : Tree.nodeAt? r.nodes comment.path = some (.leaf n (.blockComment level lines))) :
    Covering style (done ++ [line]) (done.length + 1)
      { r with
        nodes := Tree.modifyAt
          (fun _ => .leaf n (.blockComment level (lines ++ [⟨done.length, text⟩]))) r.nodes
          comment.path
        openComment := if Line.closesBlockComment line then none else some comment } := by
  have hblanks : r.pendingBlanks = [] := ha.sound.waiting (by simp [hopen])
  have hend := hc.comment comment hopen n level lines hnode
  have hextends := Tree.extends_modifyAt [⟨done.length, text⟩] hnode
  -- nothing waits, so that all lines so far are in the tree
  have hm : m = done.length := by
    have hlen := congrArg List.length (hc.waiting.symm.trans hblanks)
    have hbound := hc.bound
    rw [List.length_range', List.length_nil] at hlen
    omega
  subst hm
  constructor
  · rw [List.length_append, List.length_singleton, Nat.sub_self]
    exact hblanks
  · rw [List.length_append]
    exact Nat.le_refl _
  · exact (hc.ordered.goOn ⟨done.length, text⟩ hnode hend).mono (Nat.le_succ _)
  · intro t h₁ h₂
    rw [List.length_append, List.length_singleton] at h₂
    omega
  · intro i hi hblank
    rcases Nat.lt_or_ge i done.length with hlt | hge
    · exact hc.before_snoc ha hextends hlt hblank
    · have hi' : i = (kindsOf style done).length := by
        rw [kindsOf_length]
        omega
      rw [ha.kindsOf_snoc, hi', List.getElem?_concat_length, hk] at hblank
      cases hblank
  · intro i
    have hcount := hc.counted i
    rw [Tree.count_modifyAt _ hnode, counted_snoc ha, hk, ← hcount, List.count_singleton]
    simp only [Line.nodeCount, reduceCtorEq, if_false, beq_iff_eq, @eq_comm _ done.length]
    omega
  · intro comment' hopen' line' level' lines' hnode'
    dsimp only at hopen' hnode'
    split at hopen'
    · cases hopen'
    · cases hopen'
      rw [Tree.nodeAt?_modifyAt _ hnode] at hnode'
      cases hnode'
      rw [List.length_append, List.length_append, List.length_singleton, List.length_singleton]
      omega
  · refine hc.imports_snoc ha hextends fun habs => ?_
    rw [hk] at habs
    cases habs

/-- The blank lines that waited and the nodes of the line behind them are in
    order. -/
theorem ordered_added {nodes added : List Node} {path : TreePath} {body : List Node} {n : Nat}
    (h : Tree.Ordered m nodes) (hb : Tree.bodyAt? nodes path = some body) (hm : m ≤ n)
    (hfresh : ∀ node ∈ added, Node.Fresh n node) :
    Tree.Ordered (n + 1)
      (Tree.graft ((List.range' m (n - m)).map (.leaf · .blank) ++ added) nodes path) := by
  refine h.graft hb ?_ ?_ (Nat.le_succ_of_le hm) ?_ ?_
  · intro line level header inner hmem
    rcases List.mem_append.1 hmem with hold | hnew
    · simp at hold
    · cases hfresh _ hnew
      rfl
  · intro node hmem
    rcases List.mem_append.1 hmem with hold | hnew
    · obtain ⟨t, ht, rfl⟩ := List.mem_map.1 hold
      rw [List.mem_range'_1] at ht
      simp only [Node.line]
      omega
    · rw [(hfresh _ hnew).line_eq]
      omega
  · refine List.pairwise_append.2 ⟨?_, ?_, ?_⟩
    · rw [List.pairwise_map]
      exact List.pairwise_le_range'
    · refine List.pairwise_of_forall_mem_list fun a ha b hb => ?_
      rw [(hfresh a ha).line_eq, (hfresh b hb).line_eq]
    · intro a ha b hb
      obtain ⟨t, ht, rfl⟩ := List.mem_map.1 ha
      rw [List.mem_range'_1] at ht
      rw [(hfresh b hb).line_eq]
      simp only [Node.line]
      omega
  · intro line level lines hmem
    rcases List.mem_append.1 hmem with hold | hnew
    · simp at hold
    · cases hfresh _ hnew with
      | leaf hleaf => exact hleaf level lines rfl

/-- The nodes of a line stand behind the blank lines that waited. -/
theorem Covering.exists_place {nodes : List Node} (hc : Covering style done m r)
    (ha : After uri style done r)
    (h : Step find (r.settled (r.lineInfo done.length line)) (r.lineInfo done.length line) line
      (r.kindOf line) nodes r') :
    ∃ path start,
      (∀ t, m ≤ t → t < done.length →
        Tree.nodeAt? r'.nodes (path ++ [start + (t - m)]) = some (.leaf t .blank)) ∧
      ∀ k, Tree.nodeAt? r'.nodes (path ++ [start + (done.length - m + k)]) = nodes[k]? := by
  have hbound := hc.bound
  have hnodes := h.settled_nodes
  obtain ⟨body, hb⟩ := ha.sound.hasTarget (r.lineInfo done.length line)
  have hlen : (r.pendingBlanks.map (Node.leaf · .blank)).length = done.length - m := by
    rw [List.length_map, hc.waiting, List.length_range']
  generalize (r.target (r.lineInfo done.length line)).1 = path at hnodes hb
  refine ⟨path, body.length, fun t h₁ h₂ => ?_, fun k => ?_⟩
  · rw [hnodes, Tree.nodeAt?_graft hb, List.getElem?_append_left (by omega), hc.waiting,
      List.getElem?_map, List.getElem?_range' (by omega)]
    simp only [Option.map_some, Option.some.injEq, Node.leaf.injEq, and_true]
    omega
  · rw [hnodes, Tree.nodeAt?_graft hb, List.getElem?_append_right (by omega), hlen,
      Nat.add_sub_cancel_left]

/-- The blank lines that waited stand right before the first node of the line. -/
theorem Covering.before_steps {nodes : List Node} (hc : Covering style done m r)
    (ha : After uri style done r) (hblank : r.kindOf line ≠ .blank)
    (h : Step find (r.settled (r.lineInfo done.length line)) (r.lineInfo done.length line) line
      (r.kindOf line) nodes r') {i : Nat} (hm : m ≤ i) (hi : i < done.length) :
    Tree.BlankBefore (kindsOf style (done ++ [line])) r'.nodes i := by
  obtain ⟨path, start, hblankAt, hnodeAt⟩ := hc.exists_place ha h
  have hlast : (kindsOf style (done ++ [line]))[done.length]? = some (r.kindOf line) := by
    rw [ha.kindsOf_snoc, ← kindsOf_length, List.getElem?_concat_length]
  obtain ⟨node, rest, rfl⟩ : ∃ node rest, nodes = node :: rest := by
    refine List.exists_cons_of_length_pos ?_
    rw [h.length_eq, Line.nodeCount]
    split <;> omega
  refine ⟨path, start + (i - m), done.length, _, node, ⟨hi, fun t h₁ h₂ => ⟨?_, ?_⟩⟩,
    hlast, hblank, ?_, (h.fresh node (List.mem_cons_self ..)).line_eq⟩
  · rw [ha.kindsOf_snoc, List.getElem?_append_left (by rwa [kindsOf_length])]
    exact hc.blank t (by omega) h₂
  · rw [Nat.add_assoc, show i - m + (t - i) = t - m by omega]
    exact hblankAt t (by omega) h₂
  · rw [show start + (i - m) + (done.length - i) = start + (done.length - m + 0) by omega]
    exact hnodeAt 0

theorem Covering.steps {nodes : List Node} (hc : Covering style done m r)
    (ha : After uri style done r) (hblank : r.kindOf line ≠ .blank)
    (h : Step find (r.settled (r.lineInfo done.length line)) (r.lineInfo done.length line) line
      (r.kindOf line) nodes r') :
    Covering style (done ++ [line]) (done.length + 1) r' := by
  have hbound := hc.bound
  have hpending : r'.pendingBlanks = [] := h.frame.2.2.2.1
  have hnodes := h.settled_nodes
  have hfresh := h.fresh
  have htarget := (ha.sound.settled (r.lineInfo done.length line)).hasTarget
    (r.lineInfo done.length line)
  obtain ⟨body, hb⟩ := ha.sound.hasTarget (r.lineInfo done.length line)
  generalize (r.target (r.lineInfo done.length line)).1 = path at hnodes hb
  have hextends : Tree.Extends r.nodes r'.nodes := hnodes ▸ Tree.extends_graft _ hb
  constructor
  · rw [hpending, List.length_append, List.length_singleton, Nat.sub_self]
    rfl
  · rw [List.length_append]
    exact Nat.le_refl _
  · rw [hnodes, hc.waiting]
    exact ordered_added hc.ordered hb hbound hfresh
  · intro t h₁ h₂
    rw [List.length_append, List.length_singleton] at h₂
    omega
  · intro i hi hkind
    rcases Nat.lt_or_ge i m with hlt | hge
    · exact hc.before_snoc ha hextends hlt hkind
    rcases Nat.lt_succ_iff_lt_or_eq.1 hi with hlt | rfl
    · exact hc.before_steps ha hblank h hge hlt
    · -- the line itself is not blank
      rw [ha.kindsOf_snoc, ← kindsOf_length, List.getElem?_concat_length] at hkind
      exact absurd (Option.some.inj hkind) hblank
  · intro i
    have hcount := hc.counted i
    rw [hpending, hnodes, Tree.count_graft _ hb, Tree.lineNumbers_append,
      Tree.lineNumbers_blanks, List.count_append, Tree.count_fresh hfresh, h.length_eq,
      counted_snoc ha, ← hcount, List.count_nil]
    exact Nat.add_assoc _ _ _ |>.symm
  · intro comment hopen line' level lines hn
    obtain ⟨hpath, hnew⟩ := h.comment_slot rfl hopen
    rw [h.nodes_eq, hpath, hnew, nodeAt?_slot htarget] at hn
    cases hn
    rw [List.length_append]
    rfl
  · refine hc.imports_snoc ha hextends fun hk paths hpaths hne => ?_
    obtain ⟨place, start, -, hnodeAt⟩ := hc.exists_place ha h
    rw [hk] at h
    refine ⟨place, start + (done.length - m), r.levelOf (r.lineInfo done.length line),
      fun k p hp => ?_⟩
    obtain ⟨target, htarget⟩ := h.import_nodes hpaths hne hp
    exact ⟨target, by rw [Nat.add_assoc, hnodeAt, htarget]; rfl⟩

theorem Covering.reads (hc : Covering style done m r) (ha : After uri style done r)
    (h : Reads find r done.length line r') : ∃ m', Covering style (done ++ [line]) m' r' := by
  cases h with
  | waits hk => exact ⟨m, hc.waits ha hk⟩
  | goesOn text hk hopen hnode => exact ⟨_, hc.goesOn ha text hk hopen hnode⟩
  | steps hblank _ hstep => exact ⟨_, hc.steps ha hblank hstep⟩

/-- The blank lines that still wait at the end of a file end the top level. -/
theorem Covering.finish (hc : Covering style done m r) :
    Tree.Covers done (kindsOf style done)
      (r.nodes ++ r.pendingBlanks.map (.leaf · .blank)) := by
  have hbound := hc.bound
  have hlength : (kindsOf style done).length = done.length := kindsOf_length
  have hcount : ∀ i, (Tree.lineNumbers (r.nodes ++ r.pendingBlanks.map (.leaf · .blank))).count i =
      (List.zipWith Line.nodeCount (kindsOf style done) done).getD i 0 := by
    intro i
    rw [Tree.lineNumbers_append, Tree.lineNumbers_blanks, List.count_append, hc.counted]
  have hextends := Tree.extends_append r.nodes (r.pendingBlanks.map (.leaf · .blank))
  have hordered : Tree.Ordered (done.length + 1)
      (Tree.graft ((List.range' m (done.length - m)).map (.leaf · .blank) ++ []) r.nodes []) :=
    ordered_added hc.ordered rfl hbound (by simp)
  rw [List.append_nil, Tree.graft_nil, ← hc.waiting] at hordered
  constructor
  · intro i kind line hkind hline
    rw [hcount, List.getD_eq_getElem?_getD, List.getElem?_zipWith, hkind, hline]
    rfl
  · intro i hi
    by_contra hge
    have hpos := List.count_pos_iff.2 hi
    rw [hcount, List.getD_eq_getElem?_getD, List.getElem?_eq_none (by
      rw [List.length_zipWith, hlength, Nat.min_self]; omega)] at hpos
    exact absurd hpos (Nat.lt_irrefl 0)
  · exact fun i line paths hkind hline hpaths hne =>
      (hc.imports i line paths hkind hline hpaths hne).mono hextends
  · intro path body hb
    rw [List.pairwise_iff_getElem]
    intro i j hi hj hij
    refine hordered.sorted path i j _ _ (Nat.le_of_lt hij) ?_ ?_
    · rw [Tree.nodeAt?_concat, hb, Option.bind_some, List.getElem?_eq_getElem hi]
    · rw [Tree.nodeAt?_concat, hb, Option.bind_some, List.getElem?_eq_getElem hj]
  · intro path line level header body hn child hmem
    obtain ⟨i, hi⟩ := List.mem_iff_getElem?.1 hmem
    have hne : path ≠ [] := by
      rintro rfl
      cases hn
    have hb := (Tree.bodyAt?_eq_some_iff hne).2 ⟨line, level, header, hn⟩
    refine hordered.nested path i _ child hn ?_
    rw [Tree.nodeAt?_concat, hb, Option.bind_some, hi]
  · exact hordered.comments
  · intro i hkind
    rcases Nat.lt_or_ge i m with hlt | hge
    · have hbefore := (hc.before i hlt hkind).mono hextends []
      rw [List.append_nil] at hbefore
      exact .inl hbefore
    · have hi : i < done.length := by
        rw [← hlength]
        exact (List.getElem?_eq_some_iff.1 hkind).1
      refine .inr ⟨r.nodes.length + (i - m), ⟨by omega, fun t h₁ h₂ => ⟨?_, ?_⟩⟩, ?_⟩
      · exact hc.blank t (by omega) (by omega)
      · rw [List.nil_append, Tree.nodeAt?_singleton, List.getElem?_append_right (by omega),
          hc.waiting, List.getElem?_map, List.getElem?_range' (by omega)]
        simp only [Option.map_some, Option.some.injEq, Node.leaf.injEq, and_true]
        omega
      · rw [List.length_append, List.length_map, hc.waiting, List.length_range', hlength]
        omega

end Reader

/-! ## Reading a file -/

/-- After any lines the reader covers them. -/
theorem Reading.covering_readLines {σ : Type} (resolver : Resolver σ) (files : σ) (uri : Uri)
    (style : IndentStyle) (lines : List Text) :
    let r := (readLines resolver ⟨.start uri style, files, []⟩ 0 lines).reader
    Reader.After uri style (lines.map Text.dropReturn) r ∧
      ∃ m, Reader.Covering style (lines.map Text.dropReturn) m r := by
  refine readLines_run resolver (P := fun done r => ∃ m, Reader.Covering style done m r)
    ⟨0, Reader.covering_start⟩ ?_ files lines
  rintro files done r line r' ha ⟨m, hc⟩ hreads
  exact hc.reads ha hreads

theorem covers_readFile {σ : Type} (resolver : Resolver σ) (files : σ) (uri : Uri)
    (style : IndentStyle) (text : Text) :
    Tree.Covers (text.lines.map Text.dropReturn)
      (Line.kinds style.tabStop none (text.lines.map Text.dropReturn))
      (readFile resolver files uri style text).entry.body := by
  obtain ⟨-, m, hc⟩ := Reading.covering_readLines resolver files uri style text.lines
  have hfinish : (Reading.readLines resolver ⟨.start uri style, files, []⟩ 0
      text.lines).reader.flushBlanks [] = _ := Reader.flushBlanks_eq rfl
  rw [Tree.graft_nil] at hfinish
  simp only [readFile, Reading.finish, Reading.entry, hfinish]
  exact hc.finish

/-- Reading a file gives a tree with every line in its place.  On the way, after
    any number of lines, the paths of the open blocks lead to blocks and that of the
    open block comment leads to a block comment; no path that was followed led
    nowhere. -/
theorem readFile_covers {σ : Type} (resolver : Resolver σ) (files : σ) (uri : Uri)
    (style : IndentStyle) (text : Text) :
    Tree.Covers (text.lines.map Text.dropReturn)
        (Line.kinds style.tabStop none (text.lines.map Text.dropReturn))
        (readFile resolver files uri style text).entry.body ∧
      (∀ k, (Reading.readLines resolver ⟨.start uri style, files, []⟩ 0
        (text.lines.take k)).reader.Sound) ∧
      (readFile resolver files uri style text).reader.lost = [] := by
  have hsound : ∀ lines, (Reading.readLines resolver ⟨.start uri style, files, []⟩ 0
      lines).reader.Sound :=
    fun lines => (Reading.covering_readLines resolver files uri style lines).1.sound
  refine ⟨covers_readFile resolver files uri style text, fun k => hsound _, ?_⟩
  have hfinish : (Reading.readLines resolver ⟨.start uri style, files, []⟩ 0
      text.lines).reader.flushBlanks [] = _ := Reader.flushBlanks_eq rfl
  simp only [readFile, Reading.finish, hfinish]
  exact (hsound text.lines).lost

/-- Two paths on one line below a rule, behind a blank line: the line is in the tree twice, side by
    side, and the blank line once. -/
theorem readFile_covers_imports :
    let uri : Uri := ⟨"file".toList, none, "/a.sass".toList, none, none⟩
    let text : Text := "a\n\n  @import 'b', 'c'\n  d: e".toList
    let tree := (readFile .detached () uri {} text).entry.body
    (Tree.lineNumbers tree).count 1 = 1 ∧ (Tree.lineNumbers tree).count 2 = 2 ∧
      Tree.ImportRun tree 2 ["b".toList, "c".toList] := by
  intro uri text tree
  obtain ⟨hcovers, -, -⟩ := readFile_covers .detached () uri {} text
  refine ⟨hcovers.occurs 1 .blank [] (by decide +kernel) rfl, ?_, ?_⟩
  · exact hcovers.occurs 2 .importPaths "  @import 'b', 'c'".toList (by decide +kernel) rfl
  · exact hcovers.imports 2 "  @import 'b', 'c'".toList _ (by decide +kernel) rfl (by decide)
      (by decide)

end IndentedSass
