/-
  What is visible in a mixin.

  A reader that looks a variable up knows levels, not the tree.  The open blocks stand in each
  other or, behind half a tab stop, at the top level; the variables of a level are declared in the
  body under as many open blocks, or at the top level.  So a reference in the body of a mixin finds
  the parameters of the mixin, unless something around it is declared between them.
-/
import Mathlib
import IndentedSass.Proofs.Reader.Headers
import IndentedSass.Proofs.Reader.Innermost
import IndentedSass.Proofs.Reader.Missing

namespace IndentedSass

namespace Reader

/-- The body under the first `n` open blocks, or the top level. -/
def Near (blocks : List OpenBlock) (n : Nat) (path : TreePath) : Prop :=
  path = [] ∨ Under blocks n path

variable {blocks : List OpenBlock} {n k : Nat} {path outer : TreePath}

theorem Near.take (h : Near blocks k path) (hk : k ≤ n) : Near (blocks.take n) k path :=
  h.imp_right fun h => h.take hk

theorem Near.append (h : Near blocks k path) (more : List OpenBlock) :
    Near (blocks ++ more) k path :=
  h.imp_right fun h => h.append more

end Reader

namespace Scope

open Reader (Near Under)

/-- The open blocks stand in each other or at the top level, and what is visible at a level is
    declared there. -/
structure Housed (nodes : List Node) (s : Scope) : Prop where
  /-- An open block stands in the block before it, or at the top level. -/
  blocks : ∀ (k : Nat) block, s.blocks[k]? = some block →
    ∃ parent i, Near s.blocks k parent ∧ block.path = parent ++ [i]
  /-- The parameters of an open mixin are declared in its body. -/
  parameters : ∀ (k : Nat) block line level header body, s.blocks[k]? = some block →
    Tree.nodeAt? nodes block.path = some (.block line level header body) →
    ∀ p ∈ header.parameters, ⟨p.name, line⟩ ∈ s.declared.getD (k + 1) []
  /-- A variable is declared in the body of its level, or at the top level. -/
  declared : ∀ k, ∀ v ∈ s.declared.getD k [],
    ∃ path, Near s.blocks k path ∧ Tree.DeclaredIn nodes path v.name v.line

variable {nodes nodes' : List Node} {s s' : Scope} {level : Nat}

theorem housed_start (uri : Uri) : Housed [] { uri } where
  blocks := by simp
  parameters := by simp
  declared := by simp

/-- The tree may grow. -/
theorem Housed.mono (h : Housed nodes s) (hextends : Tree.Extends nodes nodes')
    (hblocks : ∀ block ∈ s.blocks, ∃ line level header body,
      Tree.nodeAt? nodes block.path = some (.block line level header body)) : Housed nodes' s where
  blocks := h.blocks
  parameters := by
    intro k block line level header body hk hn
    obtain ⟨line', level', header', body', hold⟩ := hblocks block (List.mem_of_getElem? hk)
    obtain ⟨body'', hnew⟩ := hextends.block hold
    rw [hn] at hnew
    cases hnew
    exact h.parameters k block line level header body' hk hold
  declared := by
    intro k v hv
    obtain ⟨path, hnear, hdeclared⟩ := h.declared k v hv
    exact ⟨path, hnear, hdeclared.mono hextends⟩

theorem getD_take {α : Type} (levels : List (List α)) (n k : Nat) :
    (levels.take n).getD k [] = if k < n then levels.getD k [] else [] := by
  simp only [List.getD_eq_getElem?_getD, List.getElem?_take]
  split <;> rfl

/-- What is deeper may be forgotten. -/
theorem Housed.truncate (h : Housed nodes s) (hblocks : s'.blocks = s.blocks.take level)
    (hdeclared : s'.declared = s.declared.take (level + 1)) : Housed nodes s' where
  blocks := by
    intro k block hk
    rw [hblocks] at hk ⊢
    rw [List.getElem?_take] at hk
    split at hk
    · obtain ⟨parent, i, hnear, hpath⟩ := h.blocks k block hk
      exact ⟨parent, i, hnear.take (Nat.le_of_lt ‹_›), hpath⟩
    · cases hk
  parameters := by
    intro k block line own header body hk hn p hp
    rw [hblocks, List.getElem?_take] at hk
    split at hk
    · rw [hdeclared, getD_take, if_pos (by omega)]
      exact h.parameters k block line own header body hk hn p hp
    · cases hk
  declared := by
    intro k v hv
    rw [hdeclared, getD_take] at hv
    split at hv
    · obtain ⟨path, hnear, hd⟩ := h.declared k v hv
      exact ⟨path, hblocks ▸ hnear.take (by omega), hd⟩
    · cases hv

/-- A variable may be declared in the body of its level, or at the top level. -/
theorem Housed.declare {path : TreePath} {x : Text} {line : Nat} (h : Housed nodes s)
    (hle : level ≤ s.blocks.length) (hnear : Near s.blocks level path)
    (hx : Tree.DeclaredIn nodes path x line) : Housed nodes (s.declare x line level) := by
  have htruncate : Housed nodes (s.truncate level) := h.truncate rfl rfl
  have hdeclared : ∀ k, (s.declare x line level).declared.getD k [] =
      if k = level then (s.truncate level).declared.getD level [] ++ [⟨x, line⟩]
      else (s.truncate level).declared.getD k [] := fun k => addAtLevel_getD ..
  refine ⟨htruncate.blocks, ?_, ?_⟩
  · intro k block line' own header body hk hn p hp
    have hold := htruncate.parameters k block line' own header body hk hn p hp
    rw [hdeclared]
    split
    · rename_i heq
      exact List.mem_append_left _ (heq ▸ hold)
    · exact hold
  · intro k v hv
    rw [hdeclared] at hv
    split at hv
    · rename_i heq
      subst heq
      rcases List.mem_append.1 hv with hold | hnew
      · exact htruncate.declared k v hold
      · rw [List.mem_singleton.1 hnew]
        exact ⟨path, hnear.take (Nat.le_refl _), hx⟩
    · exact htruncate.declared k v hv

/-- A block may be opened in the body of its level, or at the top level. -/
theorem Housed.opened {parent : TreePath} {i line : Nat} {header : Header} (h : Housed nodes s)
    (hle : level ≤ s.blocks.length) (hnear : Near s.blocks level parent)
    (hn : Tree.nodeAt? nodes (parent ++ [i]) = some (.block line level header [])) :
    Housed nodes ((s.enter level (parent ++ [i])).declareAll header.parameters line (level + 1)) := by
  have htruncate : Housed nodes (s.truncate level) := h.truncate rfl rfl
  have hkept : ∀ k ≤ level, (s.truncate level).declared.getD k [] = s.declared.getD k [] := by
    intro k hk
    rw [show (s.truncate level).declared = s.declared.take (level + 1) from rfl, getD_take,
      if_pos (by omega)]
  have hlength : (s.blocks.take level).length = level := List.length_take_of_le hle
  have hblocks : ((s.enter level (parent ++ [i])).declareAll header.parameters line
      (level + 1)).blocks = s.blocks.take level ++ [⟨level, parent ++ [i]⟩] :=
    (Reader.declareAll_frame ..).1
  refine ⟨?_, ?_, ?_⟩
  · intro k block hk
    rw [hblocks] at hk ⊢
    rcases getElem?_snoc hk with hold | ⟨rfl, rfl⟩
    · obtain ⟨parent', i', hnear', hpath⟩ := htruncate.blocks k block hold
      exact ⟨parent', i', hnear'.append _, hpath⟩
    · rw [hlength]
      exact ⟨parent, i, (hnear.take (Nat.le_refl _)).append _, rfl⟩
  · intro k block line' own header' body hk hn' p hp
    rw [hblocks] at hk
    rw [declared_getD_opened]
    rcases getElem?_snoc hk with hold | ⟨rfl, rfl⟩
    · have hlt : k < level := hlength ▸ (List.getElem?_eq_some_iff.1 hold).1
      rw [if_pos (by omega), ← hkept _ hlt]
      exact htruncate.parameters k block line' own header' body hold hn' p hp
    · rw [hn] at hn'
      cases hn'
      rw [hlength, if_neg (by omega), if_pos rfl]
      exact List.mem_map_of_mem hp
  · intro k v hv
    rw [hblocks]
    rw [declared_getD_opened] at hv
    split at hv
    · rename_i hk
      obtain ⟨path, hpath, hd⟩ := htruncate.declared k v (by rwa [hkept k hk])
      exact ⟨path, hpath.append _, hd⟩
    split at hv
    · rename_i hk
      obtain ⟨p, hp, rfl⟩ := List.mem_map.1 hv
      have hlast : (s.blocks.take level ++ [(⟨level, parent ++ [i]⟩ : OpenBlock)])[level]? =
          some ⟨level, parent ++ [i]⟩ := by
        rw [List.getElem?_append_right (by omega), hlength, Nat.sub_self]
        rfl
      exact ⟨parent ++ [i], .inr (hk ▸ Under.block hlast), .parameter hn hp rfl⟩
    · cases hv

/-- A block that the body under `n` open blocks stands in is open, and the bodies from it on stand
    in each other. -/
theorem Housed.exists_block {n : Nat} {path outer : TreePath} (h : Housed nodes s)
    (hunder : Under s.blocks n path) (houter : outer ≠ []) (hstart : outer <+: path) :
    ∃ m < n, ∃ block, s.blocks[m]? = some block ∧ block.path = outer ∧
      ∀ k inner, m < k → k ≤ n → Under s.blocks k inner → inner <+: path := by
  induction n generalizing path with
  | zero =>
    cases hunder
    exact absurd (List.prefix_nil.1 hstart) houter
  | succ n ih =>
    cases hunder with
    | @block _ block hget =>
      have hself : ∀ inner, Under s.blocks (n + 1) inner → inner <+: block.path := by
        intro inner hinner
        rw [hinner.unique (.block hget)]
      by_cases heq : block.path = outer
      · refine ⟨n, Nat.lt_succ_self n, block, hget, heq, fun k inner hk hle hinner => ?_⟩
        obtain rfl : k = n + 1 := by omega
        exact hself inner hinner
      · obtain ⟨parent, i, hnear, hpath⟩ := h.blocks n block hget
        have hparent : outer <+: parent := by
          rcases List.prefix_concat_iff.1 (hpath ▸ hstart) with heq' | hparent
          · exact absurd (hpath.trans heq'.symm) heq
          · exact hparent
        have hne : parent ≠ [] := by
          rintro rfl
          exact houter (List.prefix_nil.1 hparent)
        obtain ⟨m, hm, found, hfound, hfoundPath, hinside⟩ := ih (hnear.resolve_left hne) hparent
        refine ⟨m, by omega, found, hfound, hfoundPath, fun k inner hk hle hinner => ?_⟩
        rcases Nat.lt_or_ge n k with hlt | hge
        · obtain rfl : k = n + 1 := by omega
          exact hself inner hinner
        · rw [hpath]
          exact (hinside k inner hk hge hinner).trans (List.prefix_append _ _)

/-- A name that is a parameter of a mixin leads, in the body of the mixin, to the mixin or to what
    is declared later around it. -/
theorem Housed.resolve_parameter (h : Housed nodes s) (find : Finder)
    (hsorted : s.declared.flatten.Pairwise (·.line ≤ ·.line)) {path outer : TreePath}
    (hnear : Near s.blocks level path) (houter : outer <+: path) {j own : Nat} {header : Header}
    {body : List Node} (hn : Tree.nodeAt? nodes outer = some (.block j own header body))
    {p : Parameter} (hp : p ∈ header.parameters) :
    ∃ m, j ≤ m ∧ (∃ v ∈ s.declared.flatten, v.line = m) ∧
      (∃ inner, inner <+: path ∧ Tree.DeclaredIn nodes inner p.name m) ∧
      s.resolve find p.name none level = some ⟨s.uri, m⟩ := by
  have hne : outer ≠ [] := by
    rintro rfl
    cases hn
  have hunder : Under s.blocks level path := hnear.resolve_left fun hnil =>
    hne (List.prefix_nil.1 (hnil ▸ houter))
  obtain ⟨m, hm, block, hget, rfl, hinside⟩ := h.exists_block hunder hne houter
  have hparameter := h.parameters m block j own header body hget hn p hp
  have htake := List.take_sublist (level + 1) s.declared
  obtain ⟨i, ⟨hi, hgreatest⟩, hresolve⟩ := resolve_visible find (hsorted.sublist htake.flatten)
    (Reader.mem_take_flatten.2 ⟨m + 1, hm, hparameter⟩)
  have hle : j ≤ i := hgreatest (Reader.mem_take_flatten.2 ⟨m + 1, hm, hparameter⟩)
  refine ⟨i, hle, ⟨_, htake.flatten.subset hi, rfl⟩, ?_, hresolve⟩
  obtain ⟨k, hk, hvisible⟩ := Reader.mem_take_flatten.1 hi
  obtain ⟨inner, hinner, hdeclared⟩ := h.declared k _ hvisible
  by_cases hdeep : m < k
  · refine ⟨inner, ?_, hdeclared⟩
    rcases hinner with rfl | hinner
    · exact List.nil_prefix
    · exact hinside k inner hdeep hk hinner
  · -- a variable of an outer level is not later than the mixin
    have hearly := line_le_of_lt hsorted (Nat.lt_succ_of_le (Nat.le_of_not_lt hdeep)) hvisible
      hparameter
    obtain rfl : i = j := Nat.le_antisymm hearly hle
    exact ⟨block.path, houter, .parameter hn hp rfl⟩

end Scope

/-! ## References in a mixin -/

namespace Tree

variable {nodes nodes' body : List Node} {path outer : TreePath} {node : Node} {uri : Uri}
  {i : Nat} {ref : Reference}

/-- A reference on line `i` that has the name of a parameter of a mixin around it leads to a
    declaration around it, which is not before the mixin. -/
def Sees (uri : Uri) (tree : List Node) (path : TreePath) (i : Nat) (ref : Reference) : Prop :=
  ∀ outer j level header body, outer <+: path.dropLast →
    nodeAt? tree outer = some (.block j level header body) →
    (∃ p ∈ header.parameters, p.name = ref.name) →
    ∃ m, j ≤ m ∧ m < i ∧ Declares tree path ref.name m ∧ ref.target = some ⟨uri, m⟩

/-- A block that something stands in was a block before the tree grew. -/
theorem Extends.block_above (h : Extends nodes nodes')
    (hb : Tree.bodyAt? nodes path = some body) (houter : outer <+: path) {j level : Nat}
    {header : Header} {inner : List Node}
    (hn : nodeAt? nodes' outer = some (.block j level header inner)) :
    ∃ old, nodeAt? nodes outer = some (.block j level header old) := by
  have hne : outer ≠ [] := by
    rintro rfl
    cases hn
  obtain ⟨rest, rfl⟩ := houter
  rw [bodyAt?_append, Option.bind_eq_some_iff] at hb
  obtain ⟨old, hold, -⟩ := hb
  obtain ⟨j', level', header', hblock⟩ := (bodyAt?_eq_some_iff hne).1 hold
  obtain ⟨inner', hnew⟩ := h.block hblock
  rw [hn] at hnew
  cases hnew
  exact ⟨old, hblock⟩

theorem SameHead.references_eq {a b : Node} (h : SameHead a b) : b.references = a.references := by
  cases h <;> rfl

theorem Sees.mono (h : Sees uri nodes path i ref) (hn : nodeAt? nodes path = some node)
    (hextends : Extends nodes nodes') : Sees uri nodes' path i ref := by
  intro outer j level header body houter hblock hparameter
  obtain ⟨parent, k, siblings, rfl, hb, -⟩ := nodeAt?_eq_some hn
  rw [List.dropLast_concat] at houter
  obtain ⟨old, hold⟩ := hextends.block_above hb houter hblock
  obtain ⟨m, hj, hi, ⟨depth, hdepth, hdeclared⟩, htarget⟩ :=
    h outer j level header old (by rwa [List.dropLast_concat]) hold hparameter
  exact ⟨m, hj, hi, ⟨depth, hdepth, hdeclared.mono hextends⟩, htarget⟩

end Tree

namespace Reader

variable {find : Nat → Finder} {r r' : Reader} {uri : Uri} {style : IndentStyle}
  {done : List Text} {info : LineInfo} {line : Text} {kind : LineKind} {nodes : List Node}

/-- What is declared is where the levels say, and the references read so far see the parameters of
    the mixins around them. -/
structure Sighted (uri : Uri) (n : Nat) (r : Reader) : Prop where
  housed : r.scope.Housed r.nodes
  sorted : r.scope.declared.flatten.Pairwise (·.line ≤ ·.line)
  below : ∀ v ∈ r.scope.declared.flatten, v.line < n
  sees : ∀ path node, Tree.nodeAt? r.nodes path = some node → ∀ ref ∈ node.references,
    ref.qualifier = none → Tree.Sees uri r.nodes path node.line ref

theorem sighted_start : Sighted uri 0 (start uri style) where
  housed := Scope.housed_start uri
  sorted := .nil
  below := by simp [start]
  sees path node hn :=
    absurd (Tree.ordered_nil.below path node hn) (Nat.not_lt_zero _)

/-- A line goes to the body of its level, or to the top level. -/
theorem near_target (r : Reader) (htab : r.style.tabStop ≤ info.column → 0 < info.rawLevel) :
    Near r.scope.blocks (r.levelOf info) (r.target info).1 := by
  have hunder := r.under_target htab
  split at hunder
  · generalize (r.target info).1 = path at hunder
    cases hunder
    exact .inl rfl
  · exact .inr hunder

/-- What a step does to the scope keeps it in agreement with the tree. -/
theorem Step.housed (h : Step find r info line kind nodes r') (hs : r.Sound)
    (hhoused : r.scope.Housed r.nodes)
    (hnear : Near r.scope.blocks (r.levelOf info) (r.target info).1) :
    r'.scope.Housed r'.nodes := by
  have htarget := hs.hasTarget info
  have hgrown : r.scope.Housed r'.nodes := hhoused.mono (h.extends htarget) hs.blocks
  have hle : r.levelOf info ≤ r.scope.blocks.length := Nat.min_le_right ..
  cases h with
  | opens => exact hgrown.opened hle hnear (nodeAt?_slot htarget)
  | closes => exact hgrown.truncate rfl rfl
  | declares => exact hgrown.declare hle hnear (.line (nodeAt?_slot htarget))
  | keeps | comments => exact hgrown
  | imports _ _ _ _ hblocks hdeclared => exact hgrown.truncate hblocks hdeclared
  | uses _ _ _ _ hscope =>
    obtain rfl | ⟨imported, rfl⟩ := hscope
    · exact hgrown
    · exact hgrown.truncate rfl rfl

/-- The references of a line see the parameters of the mixins around it. -/
theorem Step.sees (h : Step find r info line kind nodes r') (hs : r.Sound)
    (hsighted : Sighted uri info.index r) (huri : r.scope.uri = uri)
    (hnear : Near r.scope.blocks (r.levelOf info) (r.target info).1) {node : Node}
    (hnode : node ∈ nodes) {i : Nat} {ref : Reference} (href : ref ∈ node.references)
    (hqualifier : ref.qualifier = none) :
    Tree.Sees uri r'.nodes ((r.target info).1 ++ [i]) node.line ref := by
  intro outer j own header body houter hn ⟨p, hp, hname⟩
  rw [List.dropLast_concat] at houter
  obtain ⟨target, hb⟩ := hs.hasTarget info
  have hextends := h.extends (hs.hasTarget info)
  obtain ⟨old, hold⟩ := hextends.block_above hb houter hn
  obtain ⟨column, htarget⟩ := h.references_target node hnode ref href
  obtain ⟨m, hle, ⟨v, hv, rfl⟩, ⟨inner, hinner, hdeclared⟩, hresolve⟩ :=
    hsighted.housed.resolve_parameter (find column) hsighted.sorted hnear houter hold hp
  refine ⟨v.line, hle, ?_, ?_, ?_⟩
  · rw [(h.fresh node hnode).line_eq]
    exact hsighted.below v hv
  · obtain ⟨rest, hrest⟩ := hinner
    refine ⟨inner.length, ?_, ?_⟩
    · rw [← hrest]
      simp only [List.length_append, List.length_singleton]
      omega
    · rw [← hrest, List.append_assoc, List.take_left, ← hname]
      exact hdeclared.mono hextends
  · rw [htarget, hqualifier, ← hname, hresolve, huri]

/-- Blank lines hold no references. -/
theorem Sighted.sees_blanks {n : Nat} {path : TreePath} {body : List Node} (h : Sighted uri n r)
    (hb : Tree.bodyAt? r.nodes path = some body) (blanks : List Nat) :
    ∀ q node, Tree.nodeAt? (Tree.graft (blanks.map (.leaf · .blank)) r.nodes path) q = some node →
      ∀ ref ∈ node.references, ref.qualifier = none →
        Tree.Sees uri (Tree.graft (blanks.map (.leaf · .blank)) r.nodes path) q node.line ref := by
  intro q node hn ref href hq
  rcases Tree.nodeAt?_graft_cases hb (by simp) hn with ⟨k, -, hk⟩ | ⟨old, hold, hhead⟩
  · obtain ⟨t, -, rfl⟩ := List.mem_map.1 (List.mem_of_getElem? hk)
    cases href
  · rw [hhead.references_eq] at href
    rw [hhead.line_eq]
    exact (h.sees q old hold ref href hq).mono hold (Tree.extends_graft _ hb)

theorem Sighted.settled {n : Nat} (h : Sighted uri n r) (hs : r.Sound) (info : LineInfo) :
    Sighted uri n (r.settled info) := by
  obtain ⟨body, hb⟩ := hs.hasTarget info
  exact ⟨h.housed.mono (Tree.extends_graft _ hb) hs.blocks, h.sorted, h.below, h.sees_blanks hb _⟩

theorem Sighted.step (h : Sighted uri info.index r) (hs : r.Sound) (huri : r.scope.uri = uri)
    (htab : r.style.tabStop ≤ info.column → 0 < info.rawLevel)
    (hstep : Step find r info line kind nodes r') : Sighted uri (info.index + 1) r' := by
  obtain ⟨body, hb⟩ := hs.hasTarget info
  have hnear := r.near_target htab
  obtain ⟨hsorted, hbelow⟩ := hstep.inOrder h.sorted h.below
  refine ⟨hstep.housed hs h.housed hnear, hsorted, hbelow, fun path node hn ref href hq => ?_⟩
  have hempty : ∀ l level header inner, Node.block l level header inner ∈ nodes → inner = [] := by
    intro l level header inner hmem
    cases hstep.fresh _ hmem
    rfl
  have hnew := hn
  rw [hstep.nodes_eq] at hnew
  rcases Tree.nodeAt?_graft_cases hb hempty hnew with ⟨k, rfl, hk⟩ | ⟨old, hold, hhead⟩
  · exact hstep.sees hs h huri hnear (List.mem_of_getElem? hk) href hq
  · rw [hhead.references_eq] at href
    rw [hhead.line_eq]
    exact (h.sees path old hold ref href hq).mono hold (hstep.extends (hs.hasTarget info))

/-- Every line keeps the parameters of mixins in sight. -/
theorem Sighted.reads (h : Sighted uri done.length r) (ha : After uri style done r)
    (hreads : Reads find r done.length line r') : Sighted uri (done.length + 1) r' := by
  cases hreads with
  | waits => exact ⟨h.housed, h.sorted, fun v hv => Nat.lt_succ_of_lt (h.below v hv), h.sees⟩
  | goesOn text _ hopen hnode =>
    have hextends := Tree.extends_modifyAt [⟨done.length, text⟩] hnode
    refine ⟨h.housed.mono hextends ha.sound.blocks, h.sorted,
      fun v hv => Nat.lt_succ_of_lt (h.below v hv), fun path node hn ref href hq => ?_⟩
    rcases Tree.nodeAt?_modifyAt_cases hnode hn with ⟨-, rfl⟩ | ⟨old, hold, hhead⟩
    · cases href
    · rw [hhead.references_eq] at href
      rw [hhead.line_eq]
      exact (h.sees path old hold ref href hq).mono hold hextends
  | steps _ _ hstep =>
    exact (h.settled ha.sound _).step (ha.sound.settled _) ha.scope_uri
      (Indent.level_pos r.style.tabStop_pos) hstep

end Reader

/-- In the tree of a file, the references see the parameters of the mixins around them. -/
theorem readFile_sees {σ : Type} (resolver : Resolver σ) (files : σ) (uri : Uri)
    (style : IndentStyle) (text : Text) (path : TreePath) (node : Node)
    (hn : Tree.nodeAt? (readFile resolver files uri style text).entry.body path = some node) :
    ∀ ref ∈ node.references, ref.qualifier = none →
      Tree.Sees uri (readFile resolver files uri style text).entry.body path node.line ref := by
  obtain ⟨-, hsighted⟩ := Reading.readLines_run resolver
    (P := fun done r => Reader.Sighted uri done.length r) Reader.sighted_start
    (fun _ _ _ _ _ ha h hreads => by rw [List.length_append]; exact h.reads ha hreads) files
    text.lines
  have hfinish : (readFile resolver files uri style text).entry.body = Tree.graft _ _ [] :=
    congrArg Reader.nodes (Reader.flushBlanks_eq rfl)
  rw [hfinish] at hn ⊢
  exact hsighted.sees_blanks rfl _ path node hn

end IndentedSass
