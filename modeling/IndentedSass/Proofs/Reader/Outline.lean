/-
  Readings with the same outline.

  `Reader.outline` is a reader that only knows the outline of its tree.  What a line adds
  to the outline is told by the outline and by what the reader sees of the line.

  * `Reader.outline_addComment`, `outline_addBlock`, …: the operations of a reader, in its
    outline;
  * `Reader.Twins`: two readers with the same outline;
  * `Line.ReadsAlike`: lines that add the same to the outline, from the same place
    (`Reading.outline_readKind`).
-/
import Mathlib
import IndentedSass.Proofs.Line.Clauses
import IndentedSass.Proofs.Reader.Run
import IndentedSass.Proofs.Reader.Values
import IndentedSass.Proofs.Tree.Outline

namespace IndentedSass

/-! ## Values -/

/-- Texts that are read as the same value, whatever is visible. -/
def SameValue (v v' : Text) : Prop :=
  ∀ (lookup lookup' : Lookups) (place place' : ValuePlace),
    (∀ column column' name q, (lookup column name q place.level).map Location.outline =
      (lookup' column' name q place'.level).map Location.outline) →
    Value.outline (readValue lookup place v).1 = Value.outline (readValue lookup' place' v').1

theorem SameValue.refl (v : Text) : SameValue v v :=
  fun _ _ _ _ hlookup => readValue_retarget hlookup v

theorem SameValue.symm {v v' : Text} (h : SameValue v v') : SameValue v' v :=
  fun _ _ _ _ hlookup =>
    (h _ _ _ _ fun column column' name q => (hlookup column' column name q).symm).symm

theorem SameValue.trans {v v' v'' : Text} (h : SameValue v v') (h' : SameValue v' v'') :
    SameValue v v'' :=
  fun _ lookup' _ place' hlookup => (h _ _ _ _ hlookup).trans
    (h' lookup' lookup' place' place' fun column column' name q =>
      (hlookup 0 column name q).symm.trans (hlookup 0 column' name q))

/-- A space before a value is not part of it. -/
theorem SameValue.space (v : Text) : SameValue (' ' :: v) v :=
  fun _ _ _ _ hlookup => readValue_space hlookup v

/-- Blanks behind a value are not part of it, unless they stand in a string. -/
theorem SameValue.blanks {v ws : Text} (hclosed : v.Closed .paired) (hws : Blanks ws) :
    SameValue (v ++ ws) v := by
  intro lookup lookup' place place' hlookup
  rw [readValue_blanks lookup place hclosed hws]
  exact readValue_retarget hlookup v

/-! ## Scopes -/

theorem map_addAtLevel {α β : Type} (f : α → β) (level : Nat) (a : α) (levels : List (List α)) :
    (addAtLevel level a levels).map (List.map f) =
      addAtLevel level (f a) (levels.map (List.map f)) := by
  refine List.ext_getElem? fun i => ?_
  simp only [addAtLevel, List.getElem?_map, List.getElem?_modify, List.length_map]
  have hpadded : (levels.map (List.map f) ++ List.replicate (level + 1 - levels.length) [])[i]? =
      (levels ++ List.replicate (level + 1 - levels.length) [])[i]?.map (List.map f) := by
    rw [← List.getElem?_map, List.map_append, List.map_replicate, List.map_nil]
  rw [hpadded]
  cases (levels ++ List.replicate (level + 1 - levels.length) [])[i]? with
  | none => rfl
  | some own => by_cases hi : level = i <;> simp [hi]

namespace Scope

variable {nodes nodes' : List Node} {s : Scope}

/-- A scope in the outline of a tree. -/
def outline (nodes : List Node) (s : Scope) : Scope :=
  { s with
    blocks := s.blocks.map fun block => { block with path := Tree.outlinePath nodes block.path }
    declared := s.declared.map (List.map fun declared => { declared with line := 0 }) }

theorem outline_extends (h : Tree.Extends nodes nodes')
    (hblocks : ∀ block ∈ s.blocks, ∃ node, Tree.nodeAt? nodes block.path = some node) :
    s.outline nodes' = s.outline nodes := by
  have hpaths : s.blocks.map (fun block => { block with path := Tree.outlinePath nodes' block.path }) =
      s.blocks.map fun block => { block with path := Tree.outlinePath nodes block.path } := by
    refine List.map_congr_left fun block hmem => ?_
    obtain ⟨node, hnode⟩ := hblocks block hmem
    rw [h.outlinePath hnode]
  rw [outline, hpaths]
  rfl

theorem outline_truncate (nodes : List Node) (s : Scope) (level : Nat) :
    (s.truncate level).outline nodes = (s.outline nodes).truncate level := by
  simp only [outline, truncate, List.map_take]

theorem outline_enter (nodes : List Node) (s : Scope) (level : Nat) (path : TreePath) :
    (s.enter level path).outline nodes =
      (s.outline nodes).enter level (Tree.outlinePath nodes path) := by
  simp only [outline, enter, truncate, List.map_take, List.map_append, List.map_cons, List.map_nil]

theorem outline_declare (nodes : List Node) (s : Scope) (name : Text) (line level : Nat) :
    (s.declare name line level).outline nodes = (s.outline nodes).declare name 0 level := by
  simp only [outline, declare, truncate, map_addAtLevel, List.map_take]

theorem outline_declareAll (nodes : List Node) (s : Scope) (parameters : List Parameter)
    (line level : Nat) :
    (s.declareAll parameters line level).outline nodes =
      (s.outline nodes).declareAll parameters 0 level := by
  induction parameters generalizing s with
  | nil => rfl
  | cons p rest ih =>
    have hfirst : (s.declareParameter p.name line level).outline nodes =
        (s.outline nodes).declareParameter p.name 0 level := by
      simp only [outline, declareParameter, map_addAtLevel, List.map_take]
    exact (ih _).trans (congrArg (·.declareAll rest 0 level) hfirst)

/-- Where no other file is known, the outline tells which variable is meant. -/
theorem outline_resolve (nodes : List Node) (s : Scope) (name : Text) (qualifier : Option Text)
    (level : Nat) :
    (s.resolve (fun _ _ _ => none) name qualifier level).map Location.outline =
      (s.outline nodes).resolve (fun _ _ _ => none) name qualifier level := by
  have hnone : ∀ imports : List (Imported × Nat),
      (imports.findSome? fun _ => (none : Option Location)) = none := by simp
  have hvisible : (s.outline nodes).visibleVariables level =
      (s.visibleVariables level).map fun declared => { declared with line := 0 } := by
    simp only [visibleVariables, outline, ← List.map_take, ← List.map_reverse, List.flatMap_map,
      List.map_flatMap]
  unfold resolve
  simp only [hnone, hvisible, List.find?_map, Function.comp_def]
  split
  · cases (s.visibleVariables level).find? fun v => v.name == name <;> rfl
  · rfl

end Scope

namespace Reader

variable {r r' : Reader} {info info' : LineInfo} {line line' : Text} {leaf leaf' : Leaf}
  {nodes : List Node}

/-! ## The outline of a reader -/

/-- A reader that only knows the outline of its tree. -/
def outline (r : Reader) : Reader :=
  { r with
    nodes := Tree.outline r.nodes
    diagnostics := []
    scope := r.scope.outline r.nodes
    openComment := r.openComment.map fun comment =>
      { comment with path := Tree.outlinePath r.nodes comment.path }
    pendingBlanks := [] }

theorem levelOf_outline (r : Reader) (info : LineInfo) : r.outline.levelOf info = r.levelOf info := by
  simp [levelOf, outline, Scope.outline]

theorem target_outline (r : Reader) (info : LineInfo) :
    (r.outline.target info).1 = Tree.outlinePath r.nodes (r.target info).1 := by
  have hpath : ∀ block? : Option OpenBlock,
      ((block?.map fun block => { block with path := Tree.outlinePath r.nodes block.path }).map
        (·.path)).getD [] = Tree.outlinePath r.nodes ((block?.map (·.path)).getD []) := by
    intro block?
    cases block? <;> rfl
  simp only [target, outline, Scope.outline, List.length_map, List.getLast?_map, List.getElem?_map,
    hpath]
  split_ifs <;> rfl

theorem outline_grown (h : r.HasTarget info) (added : List Node) :
    Tree.outline (r.grown info added) = r.outline.grown info (Tree.outline added) := by
  obtain ⟨body, hb⟩ := h
  rw [grown, grown, target_outline]
  exact Tree.outline_graft added hb

theorem outlinePath_slot (h : r.HasTarget info) (node : Node) :
    Tree.outlinePath (r.grown info [node]) (r.slot info) = r.outline.slot info := by
  obtain ⟨body, hb⟩ := h
  have hpath := (Tree.extends_graft [node] hb).outlinePath_body hb
  have hslot : r.slot info = (r.target info).1 ++ [body.length] := by simp [slot, hb]
  rw [hslot, grown, Tree.outlinePath_graft [node] hb hpath, slot, target_outline]
  simp [outline, Tree.bodyAt?_outline hb]

/-- A tree that grew changes the tree of the outline only. -/
theorem outline_extended (hs : r.Sound) (h : Tree.Extends r.nodes nodes) (ds : List Diagnostic) :
    { r with nodes := nodes, diagnostics := ds }.outline =
      { r.outline with nodes := Tree.outline nodes } := by
  have hscope : r.scope.outline nodes = r.scope.outline r.nodes := by
    refine Scope.outline_extends h fun block hmem => ?_
    obtain ⟨_, _, _, _, hnode⟩ := hs.blocks block hmem
    exact ⟨_, hnode⟩
  have hcomment : (r.openComment.map fun comment =>
      { comment with path := Tree.outlinePath nodes comment.path }) =
      r.openComment.map fun comment =>
        { comment with path := Tree.outlinePath r.nodes comment.path } := by
    cases hopen : r.openComment with
    | none => rfl
    | some comment =>
      obtain ⟨_, _, _, hnode⟩ := hs.comment comment hopen
      rw [Option.map_some, Option.map_some, h.outlinePath hnode]
  simp only [outline, hscope, hcomment]

theorem extends_grown (h : r.HasTarget info) (added : List Node) :
    Tree.Extends r.nodes (r.grown info added) := by
  obtain ⟨body, hb⟩ := h
  exact Tree.extends_graft added hb

theorem outline_leaf (hleaf : leaf ≠ .blank) (index : Nat) :
    Tree.outline [.leaf index leaf] = [.leaf 0 leaf.outline] := by
  have hvisible : (Node.leaf index leaf).isBlank = false := by
    cases leaf <;> first | rfl | exact absurd rfl hleaf
  rw [Tree.outline_cons hvisible, Tree.outline_nil]
  simp [Node.outline]

theorem outline_settled (hs : r.Sound) (info : LineInfo) :
    (r.settled info).outline = { r.outline with openComment := none } := by
  have htarget := hs.hasTarget info
  have hnodes : Tree.outline (r.grown info (r.pendingBlanks.map (.leaf · .blank))) =
      Tree.outline r.nodes := by
    rw [outline_grown htarget, Tree.outline_blanks]
    exact Tree.graft_nothing
  have houtline := outline_extended hs
    (extends_grown htarget (r.pendingBlanks.map (.leaf · .blank))) r.diagnostics
  rw [hnodes] at houtline
  exact congrArg (fun o : Reader => { o with openComment := none }) houtline

theorem outline_addComment (hs : r.Sound) (hleaf : leaf ≠ .blank) :
    (r.addComment info line leaf).1.outline =
      { r.outline with nodes := r.outline.grown info [.leaf 0 leaf.outline] } := by
  have htarget := hs.hasTarget info
  obtain ⟨ds, hadd⟩ := addComment_eq htarget line leaf
  rw [hadd, outline_extended hs (extends_grown htarget _), outline_grown htarget, outline_leaf hleaf]

theorem outline_withScope {scope : Scope} {f : Scope → Scope}
    (h : scope.outline r.nodes = f r.outline.scope) :
    { r with scope := scope }.outline = { r.outline with scope := f r.outline.scope } := by
  rw [← h]
  rfl

/-- A leaf that closes the blocks below a level. -/
theorem outline_truncated (hs : r.Sound) (hleaf : leaf ≠ .blank) (level : Nat) :
    { (r.addComment info line leaf).1 with
        scope := (r.addComment info line leaf).1.scope.truncate level }.outline =
      { r.outline with
        nodes := r.outline.grown info [.leaf 0 leaf.outline]
        scope := r.outline.scope.truncate level } := by
  rw [outline_withScope (f := (·.truncate level)) (Scope.outline_truncate _ _ level),
    outline_addComment hs hleaf]

theorem outline_addBlock (hs : r.Sound) (header : Header) :
    (r.addBlock info line header).outline =
      { r.outline with
        nodes := r.outline.grown info [.block 0 (r.levelOf info) header.outline []]
        scope := r.outline.scope.enter (r.levelOf info) (r.outline.slot info) } := by
  have htarget := hs.hasTarget info
  obtain ⟨ds, hadd⟩ := addBlock_eq htarget line header
  have hnode : Tree.outline [.block info.index (r.levelOf info) header []] =
      [.block 0 (r.levelOf info) header.outline []] := by
    rw [Tree.outline_cons (Tree.isBlank_block ..), Tree.outline_nil, Node.outline, Tree.outline_nil]
  have hscope := Scope.outline_enter (r.grown info [.block info.index (r.levelOf info) header []])
    r.scope (r.levelOf info) (r.slot info)
  rw [outlinePath_slot htarget] at hscope
  rw [hadd, ← hnode, ← outline_grown htarget]
  refine (outline_withScope (r := { r with
    nodes := r.grown info [.block info.index (r.levelOf info) header []]
    diagnostics := ds }) (f := (·.enter _ _)) hscope).trans ?_
  rw [outline_extended hs (extends_grown htarget _)]

theorem outline_declared (h : r.outline = r'.outline) {name name' : Text} {level level' : Nat}
    (hname : name = name') (hlevel : level = level') (i j : Nat) :
    { r with scope := r.scope.declare name i level }.outline =
      { r' with scope := r'.scope.declare name' j level' }.outline := by
  subst hname hlevel
  rw [outline_withScope (f := (·.declare name 0 level)) (Scope.outline_declare ..),
    outline_withScope (f := (·.declare name 0 level)) (Scope.outline_declare ..), h]

theorem outline_declaredAll (h : r.outline = r'.outline) {first second : List Parameter}
    {level level' : Nat} (hnames : first.map Parameter.name = second.map Parameter.name)
    (hlevel : level = level') (i j : Nat) :
    { r with scope := r.scope.declareAll first i level }.outline =
      { r' with scope := r'.scope.declareAll second j level' }.outline := by
  subst hlevel
  rw [outline_withScope (f := (·.declareAll first 0 level)) (Scope.outline_declareAll ..),
    outline_withScope (f := (·.declareAll second 0 level)) (Scope.outline_declareAll ..), h,
    Scope.declareAll_congr hnames]

/-- The path of a leaf that was added, in the outline. -/
theorem outlinePath_addComment (hs : r.Sound) (info : LineInfo) (line : Text) (leaf : Leaf) :
    Tree.outlinePath (r.addComment info line leaf).1.nodes (r.addComment info line leaf).2 =
      r.outline.slot info := by
  have htarget := hs.hasTarget info
  obtain ⟨ds, hadd⟩ := addComment_eq htarget line leaf
  rw [hadd]
  exact outlinePath_slot htarget _

/-- A leaf that closes the blocks below a level leaves the reader sound. -/
theorem Sound.truncated (hs : r.Sound) (info : LineInfo) (line : Text) (leaf : Leaf) (level : Nat) :
    { (r.addComment info line leaf).1 with
      scope := (r.addComment info line leaf).1.scope.truncate level }.Sound := by
  have htarget := hs.hasTarget info
  have hextends := extends_grown htarget [.leaf info.index leaf]
  obtain ⟨ds, hadd⟩ := addComment_eq htarget line leaf
  rw [hadd]
  refine ⟨fun block hmem => ?_, fun comment hopen => ?_, fun huse => ?_, hs.waiting, hs.lost⟩
  · obtain ⟨_, _, _, _, hnode⟩ := hs.blocks block (List.mem_of_mem_take hmem)
    exact ⟨_, _, _, hextends.block hnode⟩
  · obtain ⟨_, _, _, hnode⟩ := hs.comment comment hopen
    obtain ⟨more, hnode'⟩ := hextends.comment hnode
    exact ⟨_, _, _, hnode'⟩
  · show r.scope.blocks.take level = []
    rw [hs.use huse, List.take_nil]

/-! ## Twins -/

/-- A reader takes two places in a file for the same place in the tree. -/
structure SamePlace (r : Reader) (info info' : LineInfo) : Prop where
  level : r.levelOf info' = r.levelOf info
  target : (r.target info').1 = (r.target info).1

theorem SamePlace.grown (h : r.SamePlace info info') (added : List Node) :
    r.outline.grown info' added = r.outline.grown info added := by
  rw [Reader.grown, Reader.grown, target_outline, target_outline, h.target]

theorem SamePlace.forbidUse (h : r.SamePlace info info') : r.forbidUse.SamePlace info info' :=
  ⟨h.level, h.target⟩

theorem SamePlace.withDiagnostics (h : r.SamePlace info info') (ds : List Diagnostic) :
    { r with diagnostics := ds }.SamePlace info info' := ⟨h.level, h.target⟩

/-- Lines at the same column have the same place, for every reader. -/
theorem samePlace_of_column (r : Reader) (hcolumn : info'.column = info.column)
    (hlevel : info'.rawLevel = info.rawLevel) : r.SamePlace info info' := by
  refine ⟨?_, ?_⟩
  · rw [Reader.levelOf, Reader.levelOf, hlevel]
  · rw [target, target, hcolumn, hlevel]

theorem SamePlace.slot (h : r.SamePlace info info') : r.outline.slot info' = r.outline.slot info := by
  rw [Reader.slot, Reader.slot, target_outline, target_outline, h.target]

/-- Two readers with the same outline. -/
structure Twins (r r' : Reader) : Prop where
  left : r.Sound
  right : r'.Sound
  outline : r.outline = r'.outline

namespace Twins

variable (h : Twins r r')

include h

theorem levelOf (hplace : r.SamePlace info info') : r'.levelOf info' = r.levelOf info := by
  rw [← levelOf_outline, ← h.outline, levelOf_outline, hplace.level]

theorem lookup (column column' : Nat) (name : Text) (qualifier : Option Text) (level : Nat) :
    (r.lookup (fun _ _ _ _ => none) column name qualifier level).map Location.outline =
      (r'.lookup (fun _ _ _ _ => none) column' name qualifier level).map Location.outline := by
  rw [Reader.lookup, Reader.lookup, Scope.outline_resolve r.nodes, Scope.outline_resolve r'.nodes]
  exact congrArg (fun o : Reader => o.scope.resolve (fun _ _ _ => none) name qualifier level) h.outline

theorem withDiagnostics (ds ds' : List Diagnostic) :
    Twins { r with diagnostics := ds } { r' with diagnostics := ds' } :=
  ⟨⟨h.left.blocks, h.left.comment, h.left.use, h.left.waiting, h.left.lost⟩,
    ⟨h.right.blocks, h.right.comment, h.right.use, h.right.waiting, h.right.lost⟩, h.outline⟩

theorem forbidUse : Twins r.forbidUse r'.forbidUse :=
  ⟨⟨h.left.blocks, h.left.comment, (fun hu => nomatch hu), h.left.waiting, h.left.lost⟩,
    ⟨h.right.blocks, h.right.comment, (fun hu => nomatch hu), h.right.waiting, h.right.lost⟩,
    congrArg Reader.forbidUse h.outline⟩

variable (line line') (hplace : r.SamePlace info info')

include hplace

theorem addComment (hleaf : leaf ≠ .blank) (hleaf' : leaf' ≠ .blank)
    (hsame : leaf.outline = leaf'.outline) :
    (r.addComment info line leaf).1.outline =
      (r'.addComment info' line' leaf').1.outline := by
  rw [outline_addComment h.left hleaf, ← hplace.grown, h.outline, hsame,
    outline_addComment h.right hleaf']

theorem truncated (hleaf : leaf ≠ .blank) (hleaf' : leaf' ≠ .blank)
    (hsame : leaf.outline = leaf'.outline) (level : Nat) :
    { (r.addComment info line leaf).1 with
        scope := (r.addComment info line leaf).1.scope.truncate level }.outline =
      { (r'.addComment info' line' leaf').1 with
        scope := (r'.addComment info' line' leaf').1.scope.truncate
          level }.outline := by
  rw [outline_truncated h.left hleaf, ← hplace.grown, h.outline, hsame,
    outline_truncated h.right hleaf']

theorem addLeaf (hleaf : leaf ≠ .blank) (hleaf' : leaf' ≠ .blank)
    (hsame : leaf.outline = leaf'.outline) :
    (r.addLeaf info line leaf).outline =
      (r'.addLeaf info' line' leaf').outline := by
  have htruncated := h.truncated line line' hplace hleaf hleaf' hsame (r.levelOf info)
  rw [Reader.addLeaf, Reader.addLeaf, h.levelOf hplace]
  exact htruncated

theorem addBlock {header header' : Header} (hsame : header.outline = header'.outline) :
    (r.addBlock info line header).outline =
      (r'.addBlock info' line' header').outline := by
  rw [outline_addBlock h.left, outline_addBlock h.right, h.levelOf hplace, ← hplace.grown,
    ← hplace.slot, h.outline, hsame]

/-! ## Lines of one kind -/

theorem readUnclassified (htrim : line.trim = line'.trim) :
    (r.readUnclassified info line).outline =
      (r'.readUnclassified info' line').outline := by
  refine (h.forbidUse.withDiagnostics _ _).addLeaf line line'
    (hplace.forbidUse.withDiagnostics _) Leaf.noConfusion
    Leaf.noConfusion ?_
  rw [htrim]
  exact congrArg (fun level => Leaf.unclassified level line'.trim) (h.levelOf hplace).symm

/-- A value that both read is the same. -/
theorem value {v v' : Text} (hvalue : SameValue v v') (i column column' : Nat) :
    Value.outline (readValue (r.lookup fun _ _ _ _ => none) ⟨i, column, r.levelOf info⟩ v).1 =
      Value.outline (readValue (r'.lookup fun _ _ _ _ => none)
        ⟨info'.index, column', r'.levelOf info'⟩ v').1 := by
  refine hvalue _ _ _ _ fun column column' name qualifier => ?_
  rw [h.levelOf hplace]
  exact h.lookup column column' name qualifier (r.levelOf info)

theorem readProperty {name v v' : Text} (hline : Line.nameAndValue? line = some (name, v))
    (hline' : Line.nameAndValue? line' = some (name, v')) (hvalue : SameValue v v') :
    (r.readProperty (fun _ _ _ _ => none) info line).outline =
      (r'.readProperty (fun _ _ _ _ => none) info' line').outline := by
  obtain ⟨d, hd, hsplit⟩ := Option.map_eq_some_iff.1 hline
  obtain ⟨d', hd', hsplit'⟩ := Option.map_eq_some_iff.1 hline'
  obtain ⟨rfl, rfl⟩ := Prod.mk.inj hsplit
  obtain ⟨hname, rfl⟩ := Prod.mk.inj hsplit'
  simp only [Reader.readProperty, hd, hd']
  refine (h.forbidUse.withDiagnostics _ _).addLeaf line line'
    (hplace.forbidUse.withDiagnostics _) Leaf.noConfusion
    Leaf.noConfusion ?_
  simp only [Leaf.outline, readValueAt, hname, h.forbidUse.levelOf hplace.forbidUse,
    h.forbidUse.value hplace.forbidUse hvalue info.index d.column d'.column]

theorem readVariable {name v v' : Text} (hline : Line.nameAndValue? line = some (name, v))
    (hline' : Line.nameAndValue? line' = some (name, v')) (hvalue : SameValue v v') :
    (r.readVariable (fun _ _ _ _ => none) info line).outline =
      (r'.readVariable (fun _ _ _ _ => none) info' line').outline := by
  obtain ⟨d, hd, hsplit⟩ := Option.map_eq_some_iff.1 hline
  obtain ⟨d', hd', hsplit'⟩ := Option.map_eq_some_iff.1 hline'
  obtain ⟨rfl, rfl⟩ := Prod.mk.inj hsplit
  obtain ⟨hname, rfl⟩ := Prod.mk.inj hsplit'
  have hleaf : Leaf.outline (.variableDecl (r.levelOf info) d.name
      (readValue (r.lookup fun _ _ _ _ => none) ⟨info.index, d.column, r.levelOf info⟩ d.value).1) =
      Leaf.outline (.variableDecl (r'.levelOf info') d'.name
        (readValue (r'.lookup fun _ _ _ _ => none)
          ⟨info'.index, d'.column, r'.levelOf info'⟩ d'.value).1) := by
    simp only [Leaf.outline, hname, h.levelOf hplace, h.value hplace hvalue info.index d.column d'.column]
  simp only [Reader.readVariable, hd, hd']
  refine outline_declared ?_ hname.symm (h.levelOf hplace).symm info.index info'.index
  exact (h.withDiagnostics _ _).addComment line line' (hplace.withDiagnostics _) Leaf.noConfusion
    Leaf.noConfusion hleaf

/-- The parameters that both read are the same. -/
theorem parameters {first second : List (Text × Nat)}
    (hsame : first.map Prod.fst = second.map Prod.fst) (i : Nat) :
    (first.map (Parameter.ofText (r.lookup fun _ _ _ _ => none) i (r.levelOf info))).map
        Parameter.outline =
      (second.map (Parameter.ofText (r'.lookup fun _ _ _ _ => none) info'.index
        (r'.levelOf info'))).map Parameter.outline := by
  -- the column of a parameter does not count
  have hleft : ∀ written : Text × Nat,
      (Parameter.ofText (r.lookup fun _ _ _ _ => none) i (r.levelOf info) written).outline =
        (Parameter.ofText (r.lookup fun _ _ _ _ => none) i (r.levelOf info) (written.1, 0)).outline := by
    intro written
    unfold Parameter.ofText
    cases Line.splitDeclaration? written.1 with
    | none => rfl
    | some d =>
      simp only [Parameter.outline, Option.map_some]
      congr 2
      exact SameValue.refl _ _ _ _ _ fun _ _ _ _ => rfl
  have hright : ∀ written : Text × Nat,
      (Parameter.ofText (r'.lookup fun _ _ _ _ => none) info'.index (r'.levelOf info')
        written).outline =
        (Parameter.ofText (r.lookup fun _ _ _ _ => none) i (r.levelOf info) (written.1, 0)).outline := by
    intro written
    unfold Parameter.ofText
    cases Line.splitDeclaration? written.1 with
    | none => rfl
    | some d =>
      simp only [Parameter.outline, Option.map_some]
      congr 2
      exact (h.value hplace (SameValue.refl d.value) i (0 + d.column) (written.2 + d.column)).symm
  have hmap : ∀ (g : Text → Parameter) {f : Text × Nat → Parameter} (list : List (Text × Nat)),
      (∀ written, (f written).outline = (g written.1).outline) →
      (list.map f).map Parameter.outline = (list.map Prod.fst).map fun t => (g t).outline := by
    intro g f list hf
    rw [List.map_map, List.map_map]
    exact List.map_congr_left fun written _ => hf written
  rw [hmap (fun t => Parameter.ofText (r.lookup fun _ _ _ _ => none) i (r.levelOf info) (t, 0)) first hleft,
    hmap (fun t => Parameter.ofText (r.lookup fun _ _ _ _ => none) i (r.levelOf info) (t, 0)) second
      hright, hsame]

theorem readMixin (hspelling : (MixinClause.ofLine line).spelling = (MixinClause.ofLine line').spelling)
    (hname : (MixinClause.ofLine line).name = (MixinClause.ofLine line').name)
    (hparameters : (MixinClause.ofLine line).parameters.map Prod.fst =
      (MixinClause.ofLine line').parameters.map Prod.fst) :
    (r.readMixin (fun _ _ _ _ => none) info line).outline =
      (r'.readMixin (fun _ _ _ _ => none) info' line').outline := by
  have hsame := h.forbidUse.parameters hplace.forbidUse hparameters info.index
  obtain ⟨ds, hread⟩ := readParameters_eq (fun _ _ _ _ => none) r.forbidUse info
    (MixinClause.ofLine line).parameters
  obtain ⟨ds', hread'⟩ := readParameters_eq (fun _ _ _ _ => none) r'.forbidUse info'
    (MixinClause.ofLine line').parameters
  simp only [Reader.readMixin, hread, hread']
  generalize (MixinClause.ofLine line).parameters.map _ = first at hsame ⊢
  generalize (MixinClause.ofLine line').parameters.map _ = second at hsame ⊢
  have hnames : first.map Parameter.name = second.map Parameter.name := by
    have hnamed := congrArg (List.map Parameter.name) hsame
    rw [List.map_map, List.map_map] at hnamed
    exact hnamed
  have hheader : Header.outline
      (.mixin (MixinClause.ofLine line).spelling (MixinClause.ofLine line).name first) =
      Header.outline
        (.mixin (MixinClause.ofLine line').spelling (MixinClause.ofLine line').name second) := by
    simp only [Header.outline, hspelling, hname, hsame]
  refine outline_declaredAll ?_ hnames (congrArg (· + 1) (h.forbidUse.levelOf hplace.forbidUse).symm)
    info.index info'.index
  exact (h.forbidUse.withDiagnostics ds ds').addBlock line line'
    (hplace.forbidUse.withDiagnostics ds) hheader

theorem readBlockComment (hcolumn : info'.column = info.column) (htrim : line.trim = line'.trim)
    (hleaves : Line.leavesCommentOpen line = Line.leavesCommentOpen line') :
    (r.readBlockComment info line).outline =
      (r'.readBlockComment info' line').outline := by
  have hleaf : Leaf.outline (.blockComment (r.levelOf info) [⟨info.index, line.trim⟩]) =
      Leaf.outline
        (.blockComment (r'.levelOf info') [⟨info'.index, line'.trim⟩]) := by
    simp only [Leaf.outline, List.map_cons, List.map_nil, htrim, h.levelOf hplace]
  have hadded := h.addComment line line' hplace Leaf.noConfusion Leaf.noConfusion hleaf
  simp only [Reader.readBlockComment, hleaves]
  split
  · have hpath := outlinePath_addComment h.left info line
      (.blockComment (r.levelOf info) [⟨info.index, line.trim⟩])
    have hpath' := outlinePath_addComment h.right info' line'
      (.blockComment (r'.levelOf info') [⟨info'.index, line'.trim⟩])
    rw [← h.outline, hplace.slot] at hpath'
    have hcomment := congrArg (fun path => some (⟨path, info.column⟩ : OpenComment))
      (hpath.trans hpath'.symm)
    rw [hcolumn]
    exact congrArg₂ (fun (o : Reader) comment => { o with openComment := comment }) hadded hcomment
  · exact hadded

omit hplace in
/-- A `@use` line stands at the top level. -/
theorem insert (hleaf : leaf ≠ .blank) (i j : Nat) :
    (r.insert (.leaf i leaf) []).1.outline = (r'.insert (.leaf j leaf) []).1.outline := by
  have htop : ∀ {r : Reader} (i : Nat), r.Sound → (r.insert (.leaf i leaf) []).1.outline =
      { r.outline with nodes := r.outline.nodes ++ [.leaf 0 leaf.outline] } := by
    intro r i hs
    have hextends := Tree.extends_graft [.leaf i leaf] (show Tree.bodyAt? r.nodes [] = _ from rfl)
    rw [insert_eq _ rfl, ← outline_leaf hleaf i]
    refine (outline_extended hs hextends r.diagnostics).trans ?_
    rw [Tree.graft_nil, Tree.outline_append]
    rfl
  rw [htop i h.left, htop j h.right, h.outline]

theorem readLateUse (htrim : line.trim = line'.trim) :
    (r.readLateUse info line).outline = (r'.readLateUse info' line').outline := by
  refine (h.withDiagnostics _ _).addComment line line' (hplace.withDiagnostics _) Leaf.noConfusion
    Leaf.noConfusion ?_
  rw [htrim]
  exact congrArg (fun level => Leaf.comment level ("// ".toList ++ line'.trim)) (h.levelOf hplace).symm

end Twins

end Reader

namespace Reading

variable {g g' : Reading Unit} {info : LineInfo} {line line' : Text}

/-! ## Lines that refer to other files -/

theorem readImportPath_detached (info : LineInfo) (line : Text) (level : Nat) (g : Reading Unit)
    (path : Text) :
    readImportPath .detached info line level g path =
      { g with
        reader := { (g.reader.addComment info line (.importPath level path none)).1 with
          scope := (g.reader.addComment info line
            (.importPath level path none)).1.scope.truncate level } } := by
  have hnone : g.resolveImport .detached path = (none, g.files) := by
    unfold resolveImport
    split <;> rfl
  simp only [readImportPath, hnone]

theorem twins_readImportPaths (h : Reader.Twins g.reader g'.reader) (line line' : Text)
    (hcolumn : info'.column = info.column) (hraw : info'.rawLevel = info.rawLevel) (level : Nat)
    (paths : List Text) :
    Reader.Twins (paths.foldl (readImportPath .detached info line level) g).reader
      (paths.foldl (readImportPath .detached info' line' level) g').reader := by
  induction paths generalizing g g' with
  | nil => exact h
  | cons path rest ih =>
    rw [List.foldl_cons, List.foldl_cons, readImportPath_detached, readImportPath_detached]
    refine ih ⟨h.left.truncated .., h.right.truncated .., ?_⟩
    exact h.truncated line line' (g.reader.samePlace_of_column hcolumn hraw) Leaf.noConfusion
      Leaf.noConfusion rfl level

theorem readImport_eq (resolver : Resolver Unit) (g : Reading Unit) (info : LineInfo) (line : Text) :
    g.readImport resolver info line =
      if (importPaths? line).getD [] = [] then
        { g with reader := g.reader.forbidUse.readUnclassified info line }
      else ((importPaths? line).getD []).foldl
        (readImportPath resolver info line (g.reader.forbidUse.levelOf info))
        { g with reader := g.reader.forbidUse } := by
  unfold readImport
  cases importPaths? line with
  | none => rfl
  | some paths => cases paths <;> rfl

theorem outline_readImport (h : Reader.Twins g.reader g'.reader)
    (hcolumn : info'.column = info.column) (hraw : info'.rawLevel = info.rawLevel)
    (htrim : line.trim = line'.trim)
    (hpaths : (importPaths? line).getD [] = (importPaths? line').getD []) :
    (g.readImport .detached info line).reader.outline =
      (g'.readImport .detached info' line').reader.outline := by
  have hplace := g.reader.forbidUse.samePlace_of_column hcolumn hraw
  rw [readImport_eq, readImport_eq, hpaths, h.forbidUse.levelOf hplace]
  split
  · exact h.forbidUse.readUnclassified line line' hplace htrim
  · have htwins : Reader.Twins ({ g with reader := g.reader.forbidUse } : Reading Unit).reader
      ({ g' with reader := g'.reader.forbidUse } : Reading Unit).reader := h.forbidUse
    exact (twins_readImportPaths htwins line line' hcolumn hraw _ _).outline

theorem outline_readUse (h : Reader.Twins g.reader g'.reader)
    (hplace : g.reader.SamePlace info info') (htrim : line.trim = line'.trim)
    (hclause : UseClause.ofLine? line = UseClause.ofLine? line') :
    (g.readUse .detached info line).reader.outline =
      (g'.readUse .detached info' line').reader.outline := by
  have huse := congrArg Reader.useAllowed h.outline
  unfold readUse
  rw [show g'.reader.useAllowed = g.reader.useAllowed from huse.symm, hclause]
  split
  · exact h.readLateUse line line' hplace htrim
  · cases UseClause.ofLine? line' with
    | none => exact h.readUnclassified line line' hplace htrim
    | some clause => exact h.insert Leaf.noConfusion info.index info'.index

end Reading

/-! ## Lines that are read alike -/

/-- A line of the kind declares something, or includes or extends it. -/
def LineKind.declares : LineKind → Bool
  | .property | .variableDecl | .mixinCall | .extendRule => true
  | _ => false

/-- Lines that add the same to the outline of a tree, where they have the same place. -/
structure Line.ReadsAlike (l l' : Text) : Prop where
  kind : Line.kindOutsideComment l' = Line.kindOutsideComment l
  /-- They differ in their indentation and the white space at their end only, -/
  text : Line.kindOutsideComment l ≠ .property → Line.kindOutsideComment l ≠ .variableDecl →
    Text.trimEnd l.body = Text.trimEnd l'.body
  /-- or they declare the same. -/
  declaration : Line.kindOutsideComment l = .property ∨ Line.kindOutsideComment l = .variableDecl →
    ∃ name v v', Line.nameAndValue? l = some (name, v) ∧ Line.nameAndValue? l' = some (name, v') ∧
      SameValue v v'

namespace Reading

variable {g g' : Reading Unit} {info info' : LineInfo} {line line' : Text}

/-- Twins read lines alike. -/
theorem outline_readKind (h : Reader.Twins g.reader g'.reader)
    (hline : Line.ReadsAlike line line') (hplace : g.reader.SamePlace info info')
    {kind : LineKind} (hkind : Line.kindOutsideComment line = kind)
    (hcolumn : kind.opensBlock = false → kind.declares = false →
      info'.column = info.column ∧ info'.rawLevel = info.rawLevel) :
    (g.readKind .detached info line kind).reader.outline =
      (g'.readKind .detached info' line' kind).reader.outline := by
  have htext := hline.text
  have hdeclaration := hline.declaration
  rw [hkind] at htext hdeclaration
  have hseen : ∀ {α : Type} (f : Text → α), (∀ {pre : Text}, Blanks pre → ∀ t, f (pre ++ t) = f t) →
      (∀ {ws : Text}, White ws → ∀ t, f (t ++ ws) = f t) → kind ≠ .property → kind ≠ .variableDecl →
      f line = f line' :=
    fun f hblanks hwhite hp hv => Line.congr_of_trimEnd_body f hblanks hwhite (htext hp hv)
  have htrim := hseen Text.trim Text.trim_blanks Text.trim_white
  cases kind with
  | blank => exact h.outline
  | blockCommentContent => exact absurd hkind (Line.kindOutsideComment_ne_content line)
  | selector =>
    exact h.forbidUse.addBlock line line' hplace.forbidUse (by rw [htrim (by simp) (by simp)])
  | fontFace => exact h.forbidUse.addBlock line line' hplace.forbidUse rfl
  | mixin =>
    have hclause := hseen (fun t => ((MixinClause.ofLine t).spelling, (MixinClause.ofLine t).name,
        (MixinClause.ofLine t).parameters.map Prod.fst))
      (fun hpre t => by
        obtain ⟨hspelling, hname, hparameters⟩ := MixinClause.ofLine_blanks hpre t
        rw [hspelling, hname, hparameters])
      (fun hw t => by
        obtain ⟨hspelling, hname, hparameters⟩ := MixinClause.ofLine_white hw t
        rw [hspelling, hname, hparameters]) (by simp) (by simp)
    simp only [Prod.mk.injEq] at hclause
    exact h.readMixin line line' hplace hclause.1 hclause.2.1 hclause.2.2
  | property =>
    obtain ⟨name, v, v', hv, hv', hsame⟩ := hdeclaration (.inl rfl)
    exact h.readProperty line line' hplace hv hv' hsame
  | variableDecl =>
    obtain ⟨name, v, v', hv, hv', hsame⟩ := hdeclaration (.inr rfl)
    exact h.readVariable line line' hplace hv hv' hsame
  | mixinCall =>
    refine h.forbidUse.addLeaf line line' hplace.forbidUse Leaf.noConfusion Leaf.noConfusion ?_
    simp only [Leaf.outline, htrim (by simp) (by simp), h.levelOf hplace]
  | extendRule =>
    refine h.forbidUse.addLeaf line line' hplace.forbidUse Leaf.noConfusion Leaf.noConfusion ?_
    simp only [Leaf.outline, extended, htrim (by simp) (by simp), h.levelOf hplace]
  | importPaths =>
    obtain ⟨hcolumn, hraw⟩ := hcolumn rfl rfl
    have hpaths := hseen (fun t => (importPaths? t).getD [])
      (fun hpre t => by rw [importPaths?, Text.body_blanks hpre]; rfl) importPaths?_white (by simp)
      (by simp)
    exact outline_readImport h hcolumn hraw (htrim (by simp) (by simp)) hpaths
  | useModule =>
    have hclause := hseen UseClause.ofLine?
      (fun hpre t => by rw [UseClause.ofLine?, Text.body_blanks hpre]; rfl) UseClause.ofLine?_white
      (by simp) (by simp)
    exact outline_readUse h hplace (htrim (by simp) (by simp)) hclause
  | comment =>
    refine h.addComment line line' hplace Leaf.noConfusion Leaf.noConfusion ?_
    simp only [Leaf.outline, htrim (by simp) (by simp), h.levelOf hplace]
  | blockCommentStart =>
    obtain ⟨hcolumn, -⟩ := hcolumn rfl rfl
    exact h.readBlockComment line line' hplace hcolumn (htrim (by simp) (by simp))
      (hseen Line.leavesCommentOpen Line.leavesCommentOpen_blanks Line.leavesCommentOpen_white
        (by simp) (by simp))
  | literal => exact h.readUnclassified line line' hplace (htrim (by simp) (by simp))

end Reading

end IndentedSass
