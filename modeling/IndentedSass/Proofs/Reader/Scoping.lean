/-
  References follow the tree.

  A reader knows no tree when it looks a variable up: it keeps the variables of each
  nesting level and forgets levels as lines come back from them.  In a well nested
  file this is lexical scoping: a reference leads to the latest declaration before
  it in a body around it, or to a parameter of a mixin around it.

  * `Tree.DeclaredIn` and `Tree.Declares` say what a tree declares around a node;
  * `Reader.Scoped` is the invariant: the levels of the scope are the declarations
    of the last branch, and the references read so far are resolved;
  * `readDetached_scoping`: the references of a file that is read on its own.
-/
import Mathlib
import IndentedSass.Proofs.Reader.Coverage
import IndentedSass.Proofs.Reader.Nesting
import IndentedSass.Proofs.Reader.Values
import IndentedSass.Proofs.Scope.Levels
import IndentedSass.Proofs.Text.Lines

namespace IndentedSass

/-- The references in the value of a declaration, or in the default values of
    parameters. -/
def Node.references : Node → List Reference
  | .leaf _ (.property _ _ value) | .leaf _ (.variableDecl _ _ value) => Value.references value
  | .leaf _ _ => []
  | .block _ _ header _ => header.parameters.flatMap fun p => Value.references (p.default?.getD [])

namespace Tree

variable {added body nodes nodes' : List Node} {path : TreePath} {x : Text} {j : Nat}

/-- The body at a path holds a declaration of `x` on line `j`, or the mixin that it is
    the body of has `x` as a parameter. -/
inductive DeclaredIn (tree : List Node) (path : TreePath) (x : Text) (j : Nat) : Prop
  | line {i level : Nat} {value : List Value}
      (h : nodeAt? tree (path ++ [i]) = some (.leaf j (.variableDecl level x value)))
  | parameter {level : Nat} {header : Header} {body : List Node} {p : Parameter}
      (h : nodeAt? tree path = some (.block j level header body)) (hp : p ∈ header.parameters)
      (hx : p.name = x)

/-- A body around the node at a path declares `x` on line `j`. -/
def Declares (tree : List Node) (path : TreePath) (x : Text) (j : Nat) : Prop :=
  ∃ k < path.length, DeclaredIn tree (path.take k) x j

/-- A reference on line `i` leads to the latest declaration before it that is
    around it, when there is one; with a qualifier it leads nowhere. -/
def Resolves (uri : Uri) (tree : List Node) (path : TreePath) (i : Nat) (ref : Reference) : Prop :=
  (ref.qualifier = none →
    (∃ j, IsGreatest {j | j < i ∧ Declares tree path ref.name j} j ∧ ref.target = some ⟨uri, j⟩) ∨
      ((∀ j < i, ¬Declares tree path ref.name j) ∧ ref.target = none)) ∧
    (ref.qualifier ≠ none → ref.target = none)

theorem DeclaredIn.mono (h : DeclaredIn nodes path x j) (hextends : Extends nodes nodes') :
    DeclaredIn nodes' path x j := by
  cases h with
  | line h => exact .line (hextends.leaf (fun _ _ h => nomatch h) h)
  | parameter h hp hx =>
    obtain ⟨body', hn⟩ := hextends.block h
    exact .parameter hn hp hx

/-- What a tree declares after nodes without children were added to a body: what it
    declared, and the variables among these nodes, in their body. -/
theorem declaredIn_graft (hb : bodyAt? nodes path = some body)
    (hempty : ∀ line level header inner, Node.block line level header inner ∈ added → inner = [])
    {q : TreePath} (hq : ∀ k, q ≠ path ++ [body.length + k]) :
    DeclaredIn (graft added nodes path) q x j ↔ DeclaredIn nodes q x j ∨
      (q = path ∧ ∃ level value, .leaf j (.variableDecl level x value) ∈ added) := by
  constructor
  · intro h
    cases h with
    | line h =>
      rcases nodeAt?_graft_cases hb hempty h with ⟨k, hpath, hk⟩ | ⟨old, ho, hc⟩
      · exact .inr ⟨(List.append_inj' hpath rfl).1, _, _, List.mem_of_getElem? hk⟩
      · rw [hc.leaf] at ho
        exact .inl (.line ho)
    | parameter h hp hx =>
      rcases nodeAt?_graft_cases hb hempty h with ⟨k, hpath, -⟩ | ⟨old, ho, hc⟩
      · exact absurd hpath (hq k)
      · cases hc with
        | same => exact .inl (.parameter ho hp hx)
        | block => exact .inl (.parameter ho hp hx)
  · rintro (h | ⟨rfl, level, value, hmem⟩)
    · exact h.mono (extends_graft added hb)
    · obtain ⟨k, hk⟩ := List.mem_iff_getElem?.1 hmem
      exact .line ((nodeAt?_graft hb k).trans hk)

/-- The bodies around a node are there. -/
theorem bodyAt?_take {node : Node} (h : nodeAt? nodes path = some node) {k : Nat}
    (hk : k < path.length) : ∃ body, bodyAt? nodes (path.take k) = some body := by
  rw [← List.take_append_drop k path, nodeAt?_append (by simpa using hk),
    Option.bind_eq_some_iff] at h
  obtain ⟨body, hb, -⟩ := h
  exact ⟨body, hb⟩

/-- There is no body where nodes are added. -/
theorem bodyAt?_behind (hb : bodyAt? nodes path = some body) (k : Nat) :
    bodyAt? nodes (path ++ [body.length + k]) = none := by
  rw [bodyAt?_append, hb, Option.bind_some]
  simp [bodyAt?]

/-- Later lines do not change what was declared around a node before. -/
theorem declares_graft {q : TreePath} {node : Node} {n : Nat} (hb : bodyAt? nodes path = some body)
    (hempty : ∀ line level header inner, Node.block line level header inner ∈ added → inner = [])
    (hlines : ∀ line level x value, .leaf line (.variableDecl level x value) ∈ added → n ≤ line)
    (hq : nodeAt? nodes q = some node) (hj : j < n) :
    Declares (graft added nodes path) q x j ↔ Declares nodes q x j := by
  unfold Declares
  refine exists_congr fun k => and_congr_right fun hk => ?_
  obtain ⟨inner, hinner⟩ := bodyAt?_take hq hk
  have hne : ∀ l, q.take k ≠ path ++ [body.length + l] := by
    intro l heq
    rw [heq, bodyAt?_behind hb] at hinner
    cases hinner
  rw [declaredIn_graft hb hempty hne]
  refine or_iff_left ?_
  rintro ⟨-, level, value, hmem⟩
  have := hlines j level x value hmem
  omega

/-- Later lines do not change where a reference leads. -/
theorem Resolves.graft {uri : Uri} {q : TreePath} {node : Node} {i n : Nat} {ref : Reference}
    (h : Resolves uri nodes q i ref) (hb : bodyAt? nodes path = some body)
    (hempty : ∀ line level header inner, Node.block line level header inner ∈ added → inner = [])
    (hlines : ∀ line level x value, .leaf line (.variableDecl level x value) ∈ added → n ≤ line)
    (hq : nodeAt? nodes q = some node) (hi : i ≤ n) :
    Resolves uri (graft added nodes path) q i ref := by
  have hsame : ∀ j, (j < i ∧ Declares (Tree.graft added nodes path) q ref.name j) ↔
      (j < i ∧ Declares nodes q ref.name j) :=
    fun j => and_congr_right fun hj => declares_graft hb hempty hlines hq (by omega)
  refine ⟨fun hnone => ?_, h.2⟩
  simp only [hsame]
  refine (h.1 hnone).imp_right fun ⟨hno, htarget⟩ => ⟨fun j hj hdeclared => ?_, htarget⟩
  exact hno j hj ((hsame j).1 ⟨hj, hdeclared⟩).2

end Tree

namespace Reader

variable {find : Nat → Finder} {r r' : Reader} {uri : Uri} {style : IndentStyle}
  {done : List Text} {info : LineInfo} {line : Text} {kind : LineKind} {nodes : List Node}
  {e : Nat}

/-! ## What a step declares -/

/-- The references of a line are looked up in the scope before it. -/
theorem Step.references_target (h : Step find r info line kind nodes r') :
    ∀ node ∈ nodes, ∀ ref ∈ node.references, ∃ column,
      ref.target = r.scope.resolve (find column) ref.name ref.qualifier (r.levelOf info) := by
  intro node hnode ref href
  cases h with
  | opens _ ho =>
    rw [List.mem_singleton.1 hnode] at href
    cases ho with
    | rule | fontFace => cases href
    | mixin =>
      obtain ⟨p, hp, href⟩ := List.mem_flatMap.1 href
      obtain ⟨written, -, rfl⟩ := List.mem_map.1 hp
      unfold Parameter.ofText at href
      split at href
      · cases href
      · exact readValue_target _ _ _ ref href
  | closes _ hc =>
    rw [List.mem_singleton.1 hnode] at href
    cases hc with
    | property => exact readValue_target _ _ _ ref href
    | _ => cases href
  | declares _ _ hv =>
    rw [List.mem_singleton.1 hnode, hv] at href
    exact readValue_target _ _ _ ref href
  | keeps _ hk =>
    rw [List.mem_singleton.1 hnode] at href
    cases hk <;> cases href
  | comments | uses =>
    rw [List.mem_singleton.1 hnode] at href
    cases href
  | imports =>
    rw [← List.map_uncurry_zip_eq_zipWith, List.mem_map] at hnode
    obtain ⟨⟨path, target⟩, -, rfl⟩ := hnode
    cases href

/-- The variables that a line declares. -/
def variablesOf (nodes : List Node) : List Declared :=
  nodes.filterMap fun
    | .leaf line (.variableDecl _ name _) => some ⟨name, line⟩
    | _ => none

theorem mem_variablesOf {x : Text} {j : Nat} :
    ⟨x, j⟩ ∈ variablesOf nodes ↔ ∃ level value, .leaf j (.variableDecl level x value) ∈ nodes := by
  unfold variablesOf
  rw [List.mem_filterMap]
  constructor
  · rintro ⟨node, hmem, hnode⟩
    split at hnode
    · cases hnode
      exact ⟨_, _, hmem⟩
    · cases hnode
  · rintro ⟨level, value, hmem⟩
    exact ⟨_, hmem, rfl⟩

/-- The levels down to that of a line keep their variables, and the last of them
    gains those of the line. -/
theorem Step.declared_getD (h : Step find r info line kind nodes r')
    (huse : r.useAllowed = true → r.scope.blocks = []) (k : Nat) (hk : k ≤ r.levelOf info) :
    r'.scope.declared.getD k [] = r.scope.declared.getD k [] ++
      if k = r.levelOf info then variablesOf nodes else [] := by
  have htake : ∀ level, k ≤ level → (r.scope.declared.take (level + 1)).getD k [] =
      r.scope.declared.getD k [] := by
    intro level hle
    rw [List.getD_eq_getElem?_getD, List.getElem?_take_of_lt (by omega), List.getD_eq_getElem?_getD]
  have hsame : ∀ declared : List (List Declared), declared.getD k [] = r.scope.declared.getD k [] →
      variablesOf nodes = [] → declared.getD k [] = r.scope.declared.getD k [] ++
        if k = r.levelOf info then variablesOf nodes else [] := by
    intro declared hd hv
    rw [hd, hv, ite_self, List.append_nil]
  cases h with
  | opens =>
    refine hsame _ ?_ rfl
    rw [Scope.declared_getD_opened, if_pos hk]
  | closes _ hc =>
    refine hsame _ (htake _ hk) ?_
    cases hc <;> rfl
  | @declares d value =>
    show (addAtLevel _ _ (r.scope.declared.take (r.levelOf info + 1))).getD k [] = _
    rw [addAtLevel_getD]
    split
    · subst_vars
      rw [htake _ (Nat.le_refl _)]
      rfl
    · rw [htake _ hk, List.append_nil]
  | keeps _ hkeeps =>
    refine hsame _ rfl ?_
    cases hkeeps <;> rfl
  | comments => exact hsame _ rfl rfl
  | imports _ _ _ _ _ hdeclared =>
    refine hsame _ (by rw [hdeclared, htake _ hk]) ?_
    rw [variablesOf, ← List.map_uncurry_zip_eq_zipWith, List.filterMap_map,
      List.filterMap_eq_nil_iff]
    exact fun _ _ => rfl
  | uses _ _ hu _ hscope =>
    have hlevel : r.levelOf info = 0 := by simp [levelOf, huse hu]
    obtain rfl | ⟨imported, rfl⟩ := hscope
    · exact hsame _ rfl rfl
    · refine hsame _ (htake 0 (by omega)) rfl

/-- The variables of a line come last, and some of those before are forgotten. -/
theorem Step.declared_flatten (h : Step find r info line kind nodes r') :
    ∃ kept new, r'.scope.declared.flatten = kept ++ new ∧
      kept.Sublist r.scope.declared.flatten ∧ ∀ v ∈ new, v.line = info.index := by
  have htake : ∀ n, (r.scope.declared.take n).flatten.Sublist r.scope.declared.flatten :=
    fun n => (List.take_sublist n _).flatten
  have hkeep : ∀ declared : List (List Declared),
      declared.flatten.Sublist r.scope.declared.flatten → ∃ kept new,
        declared.flatten = kept ++ new ∧ kept.Sublist r.scope.declared.flatten ∧
          ∀ v ∈ new, v.line = info.index :=
    fun declared hsub => ⟨_, [], (List.append_nil _).symm, hsub, by simp⟩
  cases h with
  | @opens _ header _ _ =>
    have hlen : (r.scope.enter (r.levelOf info) (r.slot info)).declared.length ≤
        r.levelOf info + 1 + 1 := by
      show (r.scope.declared.take (r.levelOf info + 1)).length ≤ _
      rw [List.length_take]
      omega
    refine ⟨_, _, (Scope.declareAll_declared header.parameters hlen).1, htake _, fun v hv => ?_⟩
    obtain ⟨p, -, rfl⟩ := List.mem_map.1 hv
    rfl
  | closes => exact hkeep _ (htake _)
  | declares =>
    refine ⟨_, _, addAtLevel_flatten _ (List.length_take_le _ _), htake _, fun v hv => ?_⟩
    rw [List.mem_singleton.1 hv]
  | keeps | comments => exact hkeep _ (List.Sublist.refl _)
  | imports _ _ _ _ _ hdeclared => exact hkeep _ (by rw [hdeclared]; exact htake _)
  | uses _ _ _ _ hscope =>
    obtain rfl | ⟨imported, rfl⟩ := hscope
    · exact hkeep _ (List.Sublist.refl _)
    · exact hkeep _ (htake _)

/-- The variables stay in the order of their lines. -/
theorem Step.inOrder (h : Step find r info line kind nodes r')
    (hsorted : r.scope.declared.flatten.Pairwise (·.line ≤ ·.line))
    (hbelow : ∀ v ∈ r.scope.declared.flatten, v.line < info.index) :
    r'.scope.declared.flatten.Pairwise (·.line ≤ ·.line) ∧
      ∀ v ∈ r'.scope.declared.flatten, v.line < info.index + 1 := by
  obtain ⟨kept, new, hflatten, hsub, hnew⟩ := h.declared_flatten
  have hkept : ∀ v ∈ kept, v.line < info.index := fun v hv => hbelow v (hsub.subset hv)
  rw [hflatten]
  refine ⟨List.pairwise_append.2 ⟨hsorted.sublist hsub, ?_, ?_⟩, fun v hv => ?_⟩
  · refine List.pairwise_of_forall_mem_list fun a ha b hb => ?_
    rw [hnew a ha, hnew b hb]
  · intro a ha b hb
    rw [hnew b hb]
    exact Nat.le_of_lt (hkept a ha)
  · rcases List.mem_append.1 hv with hold | hlast
    · exact Nat.lt_succ_of_lt (hkept v hold)
    · rw [hnew v hlast]
      exact Nat.lt_succ_self _

/-! ## The invariant -/

/-- The levels of the scope down to `d` are the declarations of the last branch, and
    all references of the tree, which has the lines below `n`, are resolved. -/
structure Scoped (uri : Uri) (d n : Nat) (r : Reader) : Prop where
  levels : ∀ path, Tree.Spine r.nodes path → path.length ≤ d → ∀ x j,
    ⟨x, j⟩ ∈ r.scope.declared.getD path.length [] ↔ Tree.DeclaredIn r.nodes path x j
  sorted : r.scope.declared.flatten.Pairwise (·.line ≤ ·.line)
  below : ∀ v ∈ r.scope.declared.flatten, v.line < n
  resolved : ∀ path node, Tree.nodeAt? r.nodes path = some node → ∀ ref ∈ node.references,
    Tree.Resolves uri r.nodes path node.line ref

theorem scoped_start : Scoped uri 0 0 (start uri style) := by
  have hnone : ∀ path node, Tree.nodeAt? [] path ≠ some node :=
    fun path node h => absurd (Tree.ordered_nil.below path node h) (Nat.not_lt_zero _)
  refine ⟨fun path _ hlen x j => ?_, .nil, by simp [start], fun path node h => ?_⟩
  · rw [List.length_eq_zero_iff.1 (Nat.le_zero.1 hlen)]
    refine iff_of_false (by simp [start]) ?_
    rintro (h | ⟨h, -, -⟩)
    · exact hnone _ _ h
    · exact hnone _ _ h
  · exact absurd h (hnone path node)

theorem mem_take_flatten {v : Declared} {levels : List (List Declared)} {n : Nat} :
    v ∈ (levels.take (n + 1)).flatten ↔ ∃ k ≤ n, v ∈ levels.getD k [] := by
  rw [List.mem_flatten]
  constructor
  · rintro ⟨level, hmem, hv⟩
    obtain ⟨k, hk⟩ := List.mem_iff_getElem?.1 hmem
    have hlt := (List.getElem?_eq_some_iff.1 hk).1
    rw [List.length_take] at hlt
    rw [List.getElem?_take_of_lt (by omega)] at hk
    exact ⟨k, by omega, by rwa [List.getD_eq_getElem?_getD, hk]⟩
  · rintro ⟨k, hk, hv⟩
    rw [List.getD_eq_getElem?_getD] at hv
    cases hget : levels[k]? with
    | none =>
      rw [hget] at hv
      cases hv
    | some level =>
      rw [hget] at hv
      refine ⟨level, List.mem_of_getElem? (i := k) ?_, hv⟩
      rw [List.getElem?_take_of_lt (by omega), hget]

section Added

variable {blanks : List Nat} {n : Nat}

theorem added_empty (hfresh : ∀ node ∈ nodes, Node.Fresh n node) {l level : Nat} {header : Header}
    {inner : List Node} (h : .block l level header inner ∈ blanks.map (.leaf · .blank) ++ nodes) :
    inner = [] := by
  rcases List.mem_append.1 h with hblank | hnew
  · simp at hblank
  · cases hfresh _ hnew
    rfl

theorem added_variable {j level : Nat} {x : Text} {value : List Value} :
    .leaf j (.variableDecl level x value) ∈ blanks.map (.leaf · .blank) ++ nodes ↔
      .leaf j (.variableDecl level x value) ∈ nodes := by
  simp

end Added

/-- The levels above a line stay the declarations of the last branch. -/
theorem Scoped.levels_kept {d n : Nat} (hs : Scoped uri d n r) (hsound : r.Sound) (he : e ≤ d)
    (hat : AtDepth e info r)
    (h : Step find (r.settled info) info line kind nodes r') {path : TreePath}
    (hp : Tree.Spine r'.nodes path) (hle : path.length ≤ e) (x : Text) (j : Nat) :
    ⟨x, j⟩ ∈ r'.scope.declared.getD path.length [] ↔ Tree.DeclaredIn r'.nodes path x j := by
  obtain ⟨body, hb⟩ := hat.spine.bodyAt?
  have hnodes := h.settled_nodes
  have hempty : ∀ l level header inner, Node.block l level header inner ∈
      r.pendingBlanks.map (.leaf · .blank) ++ nodes → inner = [] :=
    fun _ _ _ _ hmem => added_empty h.fresh hmem
  have hlen := hat.length
  have htake : path = (r.target info).1.take path.length := by
    rw [hnodes] at hp
    exact hp.eq_take (hat.spine.graft _) (by omega)
  have hold : Tree.Spine r.nodes path := htake ▸ hat.spine.take _
  have hne : ∀ k, path ≠ (r.target info).1 ++ [body.length + k] := by
    intro k heq
    have := congrArg List.length heq
    rw [List.length_append] at this
    simp only [List.length_singleton] at this
    omega
  have heq : path = (r.target info).1 ↔ path.length = e := by
    refine ⟨fun hpath => by rw [hpath, hlen], fun hpath => ?_⟩
    rw [htake, hpath, ← hlen, List.take_length]
  have hlevel : (r.settled info).levelOf info = e := hat.level
  have hkept := h.declared_getD hsound.use path.length (by rw [hlevel]; exact hle)
  rw [hkept, List.mem_append, hnodes, Tree.declaredIn_graft hb hempty hne, hlevel, heq]
  refine or_congr (hs.levels path hold (by omega) x j) ?_
  simp only [added_variable]
  by_cases hpath : path.length = e
  · rw [if_pos hpath, mem_variablesOf]
    exact (and_iff_right hpath).symm
  · rw [if_neg hpath]
    exact iff_of_false (by simp) fun habs => hpath habs.1

/-- The level of a block that was opened holds its parameters. -/
theorem Scoped.levels_opened (hat : AtDepth e info r)
    (h : Step find (r.settled info) info line kind nodes r') (hk : kind.opensBlock = true)
    {path : TreePath} (hp : Tree.Spine r'.nodes path) (hlen : path.length = e + 1) (x : Text)
    (j : Nat) :
    ⟨x, j⟩ ∈ r'.scope.declared.getD path.length [] ↔ Tree.DeclaredIn r'.nodes path x j := by
  obtain ⟨header, -, hblock, hscope⟩ := h.opened hk
  obtain ⟨body, hb⟩ := hat.spine.bodyAt?
  have hlevel : (r.settled info).levelOf info = e := hat.level
  have hnodes := h.settled_nodes
  rw [hblock] at hnodes
  -- the block is the end of the last branch, and there is nothing in it
  have hspine : Tree.Spine (Tree.graft (r.pendingBlanks.map (.leaf · .blank) ++
      [.block info.index ((r.settled info).levelOf info) header []]) r.nodes (r.target info).1) _ :=
    hat.spine.graft_block hb _
  rw [← hnodes] at hspine
  have hpath := hp.eq_take hspine (by rw [List.length_append, hat.length, hlen]; rfl)
  rw [hlen, ← hat.length, List.take_of_length_le (by rw [List.length_append]; rfl)] at hpath
  have hnode : Tree.nodeAt? r'.nodes path =
      some (.block info.index ((r.settled info).levelOf info) header []) := by
    rw [hpath, hnodes, Tree.nodeAt?_graft hb, List.getElem?_concat_length]
  have hinner : ∀ i, Tree.nodeAt? r'.nodes (path ++ [i]) = none := by
    intro i
    have hne : path ≠ [] := List.ne_nil_of_length_eq_add_one hlen
    rw [Tree.nodeAt?_concat, (Tree.bodyAt?_eq_some_iff hne).2 ⟨_, _, _, hnode⟩]
    rfl
  have hparams : r'.scope.declared.getD path.length [] =
      header.parameters.map (fun p => ⟨p.name, info.index⟩) := by
    rw [hscope, Scope.declared_getD_opened, hlen, hlevel, if_neg (by omega), if_pos rfl]
  rw [hparams, List.mem_map]
  constructor
  · rintro ⟨p, hmem, hv⟩
    cases hv
    exact .parameter hnode hmem rfl
  · intro hdeclared
    cases hdeclared with
    | line hn =>
      rw [hinner] at hn
      cases hn
    | parameter hn hmem hx =>
      rw [hnode] at hn
      cases hn
      exact ⟨_, hmem, by rw [hx]⟩

/-- The references of a line lead where the tree says. -/
theorem Scoped.resolved_new {d n : Nat} (hs : Scoped uri d n r) (huri : r.scope.uri = uri)
    (he : e ≤ d) (hat : AtDepth e info r) (hfind : ∀ column turn u x, find column turn u x = none)
    (hindex : info.index = n) (h : Step find (r.settled info) info line kind nodes r')
    {node : Node} (hnode : node ∈ nodes) {i : Nat} {ref : Reference} (href : ref ∈ node.references) :
    Tree.Resolves uri r'.nodes ((r.target info).1 ++ [i]) node.line ref := by
  obtain ⟨body, hb⟩ := hat.spine.bodyAt?
  have hempty : ∀ l level header inner, Node.block l level header inner ∈
      r.pendingBlanks.map (.leaf · .blank) ++ nodes → inner = [] :=
    fun _ _ _ _ hmem => added_empty h.fresh hmem
  have hline : node.line = n := ((h.fresh node hnode).line_eq).trans hindex
  -- what is declared around the line is what the scope holds
  have hvisible : ∀ x j, j < n ∧ Tree.Declares r'.nodes ((r.target info).1 ++ [i]) x j ↔
      ⟨x, j⟩ ∈ (r.scope.declared.take (e + 1)).flatten := by
    intro x j
    have hbody : ∀ k, k ≤ e → (j < n ∧ Tree.DeclaredIn r'.nodes ((r.target info).1.take k) x j ↔
        ⟨x, j⟩ ∈ r.scope.declared.getD k []) := by
      intro k hk
      have hlen : ((r.target info).1.take k).length = k := by
        rw [List.length_take, hat.length, Nat.min_eq_left hk]
      have hne : ∀ l, (r.target info).1.take k ≠ (r.target info).1 ++ [body.length + l] := by
        intro l heq
        have := congrArg List.length heq
        rw [hlen, List.length_append, hat.length] at this
        simp only [List.length_singleton] at this
        omega
      have hlevel := hs.levels _ (hat.spine.take k) (by omega) x j
      rw [hlen] at hlevel
      rw [h.settled_nodes, Tree.declaredIn_graft hb hempty hne, hlevel]
      constructor
      · rintro ⟨hj, hold | ⟨-, level, value, hmem⟩⟩
        · exact hold
        · have hfresh := (h.fresh _ (added_variable.1 hmem)).line_eq
          exact absurd (hfresh.trans hindex) (Nat.ne_of_lt hj)
      · intro hold
        refine ⟨hs.below ⟨x, j⟩ ?_, .inl hold⟩
        rw [← hlevel] at hold
        exact (List.take_sublist (k + 1) _).flatten.subset
          (mem_take_flatten.2 ⟨k, Nat.le_refl k, hold⟩)
    rw [mem_take_flatten]
    constructor
    · rintro ⟨hj, k, hk, hdeclared⟩
      rw [List.length_append, hat.length] at hk
      have hk : k ≤ e := Nat.le_of_lt_succ hk
      rw [List.take_append_of_le_length (by rw [hat.length]; exact hk)] at hdeclared
      exact ⟨k, hk, (hbody k hk).1 ⟨hj, hdeclared⟩⟩
    · rintro ⟨k, hk, hmem⟩
      obtain ⟨hj, hdeclared⟩ := (hbody k hk).2 hmem
      refine ⟨hj, k, by rw [List.length_append, hat.length]; exact Nat.lt_succ_of_le hk, ?_⟩
      rwa [List.take_append_of_le_length (by rw [hat.length]; exact hk)]
  obtain ⟨column, htarget⟩ : ∃ column,
      ref.target = r.scope.resolve (find column) ref.name ref.qualifier e := by
    rw [← hat.level]
    exact h.references_target node hnode ref href
  have hsorted : (r.scope.declared.take (e + 1)).flatten.Pairwise (·.line ≤ ·.line) :=
    hs.sorted.sublist (List.take_sublist _ _).flatten
  obtain ⟨hplain, hqualified⟩ := Scope.resolve_eq (hfind column) hsorted ref.name
  rw [hline]
  unfold Tree.Resolves
  rw [htarget]
  refine ⟨fun hnone => ?_, fun hsome => ?_⟩
  · rw [hnone]
    simp only [hvisible]
    rcases hplain with ⟨j, hj, hr⟩ | ⟨hno, hr⟩
    · exact .inl ⟨j, hj, by rw [hr, huri]⟩
    · exact .inr ⟨fun j hj hdeclared => hno j ((hvisible _ j).1 ⟨hj, hdeclared⟩), hr⟩
  · obtain ⟨qualifier, hq⟩ := Option.ne_none_iff_exists'.1 hsome
    rw [hq]
    exact hqualified qualifier

theorem Scoped.steps {d m : Nat} (hs : Scoped uri d done.length r) (hc : Covering style done m r)
    (ha : After uri style done r) (he : e ≤ d) (hfind : ∀ column turn u x, find column turn u x = none)
    (hat : AtDepth e (r.lineInfo done.length line) r)
    (h : Step find (r.settled (r.lineInfo done.length line)) (r.lineInfo done.length line) line kind
      nodes r') :
    Scoped uri (if kind.opensBlock then e + 1 else e) (done.length + 1) r' := by
  obtain ⟨body, hb⟩ := hat.spine.bodyAt?
  have hempty : ∀ l level header inner, Node.block l level header inner ∈
      r.pendingBlanks.map (.leaf · .blank) ++ nodes → inner = [] :=
    fun _ _ _ _ hmem => added_empty h.fresh hmem
  obtain ⟨hsorted, hbelow⟩ := h.inOrder hs.sorted hs.below
  refine ⟨?_, hsorted, hbelow, ?_⟩
  · intro path hp hlen x j
    by_cases hle : path.length ≤ e
    · exact hs.levels_kept ha.sound he hat h hp hle x j
    · by_cases hopens : kind.opensBlock = true
      · rw [if_pos hopens] at hlen
        exact Scoped.levels_opened hat h hopens hp (by omega) x j
      · rw [if_neg hopens] at hlen
        exact absurd hlen hle
  · intro path node hn ref href
    have hnodes := h.settled_nodes
    rw [hnodes] at hn
    rcases Tree.nodeAt?_graft_cases hb hempty hn with ⟨k, rfl, hk⟩ | ⟨old, hold, hhead⟩
    · rcases List.mem_append.1 (List.mem_of_getElem? hk) with hblank | hmem
      · obtain ⟨t, -, rfl⟩ := List.mem_map.1 hblank
        cases href
      · exact hs.resolved_new ha.scope_uri he hat hfind rfl h hmem href
    · -- the lines that were added are later than the reference
      have hline := hc.ordered.below path old hold
      have hbound := hc.bound
      have hlate : ∀ l level x value, .leaf l (.variableDecl level x value) ∈
          r.pendingBlanks.map (.leaf · .blank) ++ nodes → done.length ≤ l := by
        intro l level x value hmem
        exact Nat.le_of_eq (h.fresh _ (added_variable.1 hmem)).line_eq.symm
      have hrefs : ref ∈ old.references := by
        cases hhead with
        | same => exact href
        | block => exact href
      have hresolved := hs.resolved path old hold ref hrefs
      rw [hhead.line_eq, hnodes]
      exact hresolved.graft hb hempty hlate hold (by omega)

end Reader

/-! ## Reading a file on its own -/

/-- In a well nested file the depth of a line is small: a file that goes deep is
    long. -/
theorem depth_lt_of_size {style : IndentStyle} {text : Text} (hsize : text.size ≤ Indent.maxCount)
    (hnested : Line.WellNested style.tabStop 0 none (text.lines.map Text.dropReturn)) :
    ∀ line ∈ text.lines.map Text.dropReturn, Line.isBlankLine line = false →
      Line.depth style.tabStop line < 2 ^ 50 := by
  intro line hline hvisible
  have hmul := Line.depth_mul_le style.tabStop_pos hnested (Nat.zero_le (2 * 0)) line hline hvisible
  have hsum := Text.sum_length_dropReturn_le text
  have hlength := text.length_le_size
  by_contra hge
  have hdeep : 2 ^ 50 * (2 ^ 50 - 1) ≤
      Line.depth style.tabStop line * (Line.depth style.tabStop line - 1) :=
    Nat.mul_le_mul (by omega) (by omega)
  rw [Indent.maxCount, UInt64.size] at hsize
  omega

theorem readLines_scoped (uri : Uri) {style : IndentStyle} {text : Text}
    (hsize : text.size ≤ Indent.maxCount)
    (hnested : Line.WellNested style.tabStop 0 none (text.lines.map Text.dropReturn)) :
    Reader.After uri style (text.lines.map Text.dropReturn)
        (Reading.readLines .detached ⟨.start uri style, (), []⟩ 0 text.lines).reader ∧
      ((∃ m, Reader.Covering style (text.lines.map Text.dropReturn) m
        (Reading.readLines .detached ⟨.start uri style, (), []⟩ 0 text.lines).reader) ∧
      (Reading.readLines .detached ⟨.start uri style, (), []⟩ 0 text.lines).reader.Scoped uri
        (Line.deepestOf style.tabStop 0 none (text.lines.map Text.dropReturn))
        (text.lines.map Text.dropReturn).length) := by
  refine Reading.readLines_nested .detached (P := fun done r =>
    (∃ m, Reader.Covering style done m r) ∧
      r.Scoped uri (Line.deepestOf style.tabStop 0 none done) done.length)
    ⟨⟨0, Reader.covering_start⟩, Reader.scoped_start⟩ ?_ ?_ () text.lines hnested
    (depth_lt_of_size hsize hnested)
  · rintro done r line ha ⟨⟨m, hc⟩, hs⟩ hk
    refine ⟨⟨m, hc.waits ha hk⟩, ?_⟩
    rw [ha.deepestOf_snoc, if_pos hk, List.length_append]
    exact ⟨hs.levels, hs.sorted, fun v hv => Nat.lt_succ_of_lt (hs.below v hv), hs.resolved⟩
  · rintro _ done r line nodes r' ha ⟨⟨m, hc⟩, hs⟩ hle hblank hat hstep
    refine ⟨⟨_, hc.steps ha hblank hstep⟩, ?_⟩
    rw [ha.deepestOf_snoc, if_neg hblank, List.length_append]
    exact hs.steps hc ha hle (fun _ _ _ _ => rfl) hat hstep

/-- References follow the tree of a well nested file that is read on its own: each
    leads to the latest declaration before it in a body around it or by a mixin
    around it, and to none when there is no such declaration. -/
theorem readDetached_scoping (uri : Uri) (style : IndentStyle) (text : Text)
    (hsize : text.size ≤ Indent.maxCount)
    (hnested : Line.WellNested style.tabStop 0 none (text.lines.map Text.dropReturn)) :
    ∀ path node, Tree.nodeAt? (readDetached uri style text).body path = some node →
      ∀ ref ∈ node.references,
        Tree.Resolves uri (readDetached uri style text).body path node.line ref := by
  obtain ⟨-, ⟨m, hc⟩, hs⟩ := readLines_scoped uri hsize hnested
  have hfinish : (Reading.readLines .detached ⟨.start uri style, (), []⟩ 0
      text.lines).reader.flushBlanks [] = _ := Reader.flushBlanks_eq rfl
  have hbody : (readDetached uri style text).body = _ := congrArg Reader.nodes hfinish
  have hempty : ∀ l level header inner, Node.block l level header inner ∈ (Reading.readLines
      .detached ⟨.start uri style, (), []⟩ 0 text.lines).reader.pendingBlanks.map
        (.leaf · .blank) → inner = [] := by simp
  intro path node hn ref href
  rw [hbody] at hn ⊢
  rcases Tree.nodeAt?_graft_cases rfl hempty hn with ⟨k, -, hk⟩ | ⟨old, hold, hhead⟩
  · obtain ⟨t, -, rfl⟩ := List.mem_map.1 (List.mem_of_getElem? hk)
    cases href
  · have hline := hc.ordered.below path old hold
    have hrefs : ref ∈ old.references := by
      cases hhead with
      | same => exact href
      | block => exact href
    rw [hhead.line_eq]
    exact (hs.resolved path old hold ref hrefs).graft rfl hempty (by simp) hold (Nat.le_refl _)

/-- In the body of a mixin, its own variable hides the one of the top level, and its
    parameter is declared on its line. -/
theorem readDetached_scoping_mixin :
    let uri : Uri := ⟨"file".toList, none, "/a.sass".toList, none, none⟩
    let text : Text := "$a: 1\n@mixin m($b)\n  $a: 2\n  c: $a $b\nd: $a".toList
    ∃ node, Tree.nodeAt? (readDetached uri {} text).body [1, 1] = some node ∧
      node.references.map (·.target) = [some ⟨uri, 2⟩, some ⟨uri, 1⟩] ∧
      ∀ ref ∈ node.references,
        Tree.Resolves uri (readDetached uri {} text).body [1, 1] node.line ref := by
  intro uri text
  have hread : (Tree.nodeAt? (readDetached uri {} text).body [1, 1]).map
      (fun node => node.references.map (·.target)) = some [some ⟨uri, 2⟩, some ⟨uri, 1⟩] := by
    decide +kernel
  obtain ⟨node, hnode, htargets⟩ := Option.map_eq_some_iff.1 hread
  exact ⟨node, hnode, htargets,
    readDetached_scoping uri {} text (by decide) (by decide) [1, 1] node hnode⟩

end IndentedSass
