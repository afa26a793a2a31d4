/-
  What one line does to a reader.

  A line that is neither blank nor part of a block comment adds nodes to one
  body, the one its indentation tells (`Reader.target`), and changes what is
  visible.  `Reader.Step` lists the seven ways in which it can do so; the
  diagnostics are left open.

  * `Reader.Opens` and `Reader.Closes` are the headers and leaves of lines that
    open a block or close the blocks that are not above them;
  * `Reading.readKind_step`: reading such a line is one of these steps, provided
    that the body exists and that no block is open while `@use` is allowed.
-/
import Mathlib
import IndentedSass.Reader.File
import IndentedSass.Proofs.Line.Kinds
import IndentedSass.Proofs.Tree.Growth

namespace IndentedSass

/-- The parameters of a header; only mixins have some. -/
def Header.parameters : Header → List Parameter
  | .mixin _ _ parameters => parameters
  | _ => []

/-- A parameter of a mixin on line `line` at a level, as written at a column. -/
def Parameter.ofText (lookup : Lookups) (line level : Nat) (written : Text × Nat) : Parameter :=
  match Line.splitDeclaration? written.1 with
  | none => ⟨written.1.trim, none⟩
  | some d => ⟨d.name, some (readValue lookup ⟨line, written.2 + d.column, level⟩ d.value).1⟩

namespace Scope

/-- Declares the parameters of a mixin on a line. -/
def declareAll (s : Scope) (parameters : List Parameter) (line level : Nat) : Scope :=
  parameters.foldl (fun s p => s.declareParameter p.name line level) s

/-- Only the names of the parameters are declared. -/
theorem declareAll_congr {first second : List Parameter}
    (h : first.map Parameter.name = second.map Parameter.name) (s : Scope) (line level : Nat) :
    s.declareAll first line level = s.declareAll second line level := by
  have hnames : ∀ parameters : List Parameter, s.declareAll parameters line level =
      (parameters.map Parameter.name).foldl (fun s name => s.declareParameter name line level) s :=
    fun parameters => by rw [List.foldl_map]; rfl
  rw [hnames, hnames, h]

end Scope

namespace Reader

variable {find : Nat → Finder} {r : Reader} {info : LineInfo} {line : Text}

/-! ## The body of a line -/

/-- The body that a line belongs to is there. -/
def HasTarget (r : Reader) (info : LineInfo) : Prop :=
  ∃ body, Tree.bodyAt? r.nodes (r.target info).1 = some body

/-- The tree with `added` in the body that a line belongs to. -/
def grown (r : Reader) (info : LineInfo) (added : List Node) : List Node :=
  Tree.graft added r.nodes (r.target info).1

/-- The path of the next node in the body that a line belongs to. -/
def slot (r : Reader) (info : LineInfo) : TreePath :=
  (r.target info).1 ++ [((Tree.bodyAt? r.nodes (r.target info).1).map List.length).getD 0]

/-! ## The steps -/

/-- The headers that lines of these kinds open. -/
inductive Opens (find : Nat → Finder) (r : Reader) (info : LineInfo) (line : Text) :
    LineKind → Header → Prop
  | rule : Opens find r info line .selector (.rule line.trim)
  | fontFace : Opens find r info line .fontFace .fontFace
  | mixin : Opens find r info line .mixin
      (.mixin (MixinClause.ofLine line).spelling (MixinClause.ofLine line).name
        ((MixinClause.ofLine line).parameters.map
          (Parameter.ofText (r.lookup find) info.index (r.levelOf info))))

/-- The leaves of lines that close the blocks that are not above them. -/
inductive Closes (find : Nat → Finder) (r : Reader) (info : LineInfo) (line : Text) :
    LineKind → Leaf → Prop
  | property {d : Line.Declaration} (h : Line.splitDeclaration? line = some d) :
      Closes find r info line .property (.property (r.levelOf info) d.name
        (readValue (r.lookup find) ⟨info.index, d.column, r.levelOf info⟩ d.value).1)
  | mixinCall : Closes find r info line .mixinCall
      (.mixinCall (r.levelOf info) (mixinCall line).1 (mixinCall line).2)
  | extendRule : Closes find r info line .extendRule (.extendRule (r.levelOf info) (extended line))
  | literal : Closes find r info line .literal (.unclassified (r.levelOf info) line.trim)
  | noColon {kind : LineKind} (hk : kind = .property ∨ kind = .variableDecl)
      (h : Line.splitDeclaration? line = none) :
      Closes find r info line kind (.unclassified (r.levelOf info) line.trim)
  | noPaths (h : importPaths? line = none ∨ importPaths? line = some []) :
      Closes find r info line .importPaths (.unclassified (r.levelOf info) line.trim)
  | noModule (hu : r.useAllowed = true) (h : UseClause.ofLine? line = none) :
      Closes find r info line .useModule (.unclassified (r.levelOf info) line.trim)

/-- The leaves of lines that leave the blocks open. -/
inductive Keeps (r : Reader) (info : LineInfo) (line : Text) : LineKind → Leaf → Prop
  | comment : Keeps r info line .comment (.comment (r.levelOf info) line.trim)
  | lateUse (hu : r.useAllowed = false) :
      Keeps r info line .useModule (.comment (r.levelOf info) ("// ".toList ++ line.trim))

/-- What a line that is neither blank nor part of a block comment does: its kind,
    the nodes it adds to its body, and the reader after it. -/
inductive Step (find : Nat → Finder) (r : Reader) (info : LineInfo) (line : Text) :
    LineKind → List Node → Reader → Prop
  /-- It opens a block, in which its parameters are visible. -/
  | opens {kind : LineKind} {header : Header} (ds : List Diagnostic)
      (h : Opens find r info line kind header) :
      Step find r info line kind [.block info.index (r.levelOf info) header []]
        { r with
          nodes := r.grown info [.block info.index (r.levelOf info) header []]
          diagnostics := ds
          scope := (r.scope.enter (r.levelOf info) (r.slot info)).declareAll header.parameters
            info.index (r.levelOf info + 1)
          useAllowed := false }
  /-- It closes the blocks that are not above it. -/
  | closes {kind : LineKind} {leaf : Leaf} (ds : List Diagnostic)
      (h : Closes find r info line kind leaf) :
      Step find r info line kind [.leaf info.index leaf]
        { r with
          nodes := r.grown info [.leaf info.index leaf]
          diagnostics := ds
          scope := r.scope.truncate (r.levelOf info)
          useAllowed := false }
  /-- It declares a variable. -/
  | declares {d : Line.Declaration} {value : List Value} (ds : List Diagnostic)
      (h : Line.splitDeclaration? line = some d)
      (hv : value =
        (readValue (r.lookup find) ⟨info.index, d.column, r.levelOf info⟩ d.value).1) :
      Step find r info line .variableDecl
        [.leaf info.index (.variableDecl (r.levelOf info) d.name value)]
        { r with
          nodes := r.grown info [.leaf info.index (.variableDecl (r.levelOf info) d.name value)]
          diagnostics := ds
          scope := r.scope.declare d.name info.index (r.levelOf info) }
  /-- It leaves the blocks open. -/
  | keeps {kind : LineKind} {leaf : Leaf} (ds : List Diagnostic) (h : Keeps r info line kind leaf) :
      Step find r info line kind [.leaf info.index leaf]
        { r with nodes := r.grown info [.leaf info.index leaf], diagnostics := ds }
  /-- It begins a block comment. -/
  | comments (ds : List Diagnostic) :
      Step find r info line .blockCommentStart
        [.leaf info.index (.blockComment (r.levelOf info) [⟨info.index, line.trim⟩])]
        { r with
          nodes := r.grown info
            [.leaf info.index (.blockComment (r.levelOf info) [⟨info.index, line.trim⟩])]
          diagnostics := ds
          openComment :=
            if Line.leavesCommentOpen line then some ⟨r.slot info, info.column⟩ else r.openComment }
  /-- It imports files, one for each of its paths. -/
  | imports {paths : List Text} {targets : List (Option Uri)} {scope : Scope}
      (ds : List Diagnostic) (h : importPaths? line = some paths) (hne : paths ≠ [])
      (hlen : targets.length = paths.length) (hblocks : scope.blocks =
        r.scope.blocks.take (r.levelOf info))
      (hdeclared : scope.declared = r.scope.declared.take (r.levelOf info + 1))
      (huri : scope.uri = r.scope.uri) :
      Step find r info line .importPaths
        (List.zipWith (fun path target => .leaf info.index (.importPath (r.levelOf info) path target))
          paths targets)
        { r with
          nodes := r.grown info (List.zipWith
            (fun path target => .leaf info.index (.importPath (r.levelOf info) path target))
            paths targets)
          diagnostics := ds
          scope
          useAllowed := false }
  /-- It uses a module. -/
  | uses {clause : UseClause} (target : Option Uri) {scope : Scope} (ds : List Diagnostic)
      (hu : r.useAllowed = true) (h : UseClause.ofLine? line = some clause)
      (hscope : scope = r.scope ∨ ∃ imported, scope = r.scope.declareImport imported 0) :
      Step find r info line .useModule
        [.leaf info.index (.useModule clause.path target clause.qualifier)]
        { r with
          nodes := r.grown info [.leaf info.index (.useModule clause.path target clause.qualifier)]
          diagnostics := ds
          scope }

/-! ## The operations of a reader -/

theorem insert_eq {path : TreePath} {body : List Node} (node : Node)
    (h : Tree.bodyAt? r.nodes path = some body) :
    r.insert node path =
      ({ r with nodes := Tree.graft [node] r.nodes path }, path ++ [body.length]) := by
  rw [insert, Tree.appendAt?_eq_graft node h]

theorem flushBlanks_eq {path : TreePath} {body : List Node}
    (h : Tree.bodyAt? r.nodes path = some body) :
    r.flushBlanks path =
      { r with
        nodes := Tree.graft (r.pendingBlanks.map (.leaf · .blank)) r.nodes path
        pendingBlanks := [] } := by
  -- one insertion after the other; the fold starts with the list already emptied
  have key : ∀ (blanks : List Nat) (r : Reader) (body : List Node),
      Tree.bodyAt? r.nodes path = some body →
      blanks.foldl (fun r index => (r.insert (.leaf index .blank) path).1) r =
        { r with nodes := Tree.graft (blanks.map (.leaf · .blank)) r.nodes path } := by
    intro blanks
    induction blanks with
    | nil => intro r body _; simp [Tree.graft_nothing]
    | cons index blanks ih =>
      intro r body h
      rw [List.foldl_cons, insert_eq _ h, ih _ _ (Tree.bodyAt?_graft _ h)]
      simp
  exact key r.pendingBlanks { r with pendingBlanks := [] } body h

theorem place_eq (r : Reader) (info : LineInfo) (line : Text) :
    ∃ ds, r.place info line = ({ r with diagnostics := ds }, (r.target info).1) := by
  unfold place
  dsimp only
  split
  · exact ⟨_, rfl⟩
  · exact ⟨r.diagnostics, rfl⟩

theorem addComment_eq (h : r.HasTarget info) (line : Text) (leaf : Leaf) :
    ∃ ds, r.addComment info line leaf =
      ({ r with nodes := r.grown info [.leaf info.index leaf], diagnostics := ds }, r.slot info) := by
  obtain ⟨body, hb⟩ := h
  obtain ⟨ds, hp⟩ := r.place_eq info line
  refine ⟨ds, ?_⟩
  have hslot : r.slot info = (r.target info).1 ++ [body.length] := by simp [slot, hb]
  simp only [addComment, hp, hslot]
  exact insert_eq (r := { r with diagnostics := ds }) _ hb

theorem addLeaf_eq (h : r.HasTarget info) (line : Text) (leaf : Leaf) :
    ∃ ds, r.addLeaf info line leaf =
      { r with
        nodes := r.grown info [.leaf info.index leaf]
        diagnostics := ds
        scope := r.scope.truncate (r.levelOf info) } := by
  obtain ⟨ds, ha⟩ := addComment_eq h line leaf
  exact ⟨ds, by simp only [addLeaf, ha]⟩

theorem addBlock_eq (h : r.HasTarget info) (line : Text) (header : Header) :
    ∃ ds, r.addBlock info line header =
      { r with
        nodes := r.grown info [.block info.index (r.levelOf info) header []]
        diagnostics := ds
        scope := r.scope.enter (r.levelOf info) (r.slot info) } := by
  obtain ⟨body, hb⟩ := h
  obtain ⟨ds, hp⟩ := r.place_eq info line
  refine ⟨ds, ?_⟩
  have hslot : r.slot info = (r.target info).1 ++ [body.length] := by simp [slot, hb]
  simp only [addBlock, hp, hslot]
  rw [insert_eq (r := { r with diagnostics := ds }) _ hb]
  rfl

theorem readUnclassified_eq (h : r.HasTarget info) (line : Text) :
    ∃ ds, r.readUnclassified info line =
      { r with
        nodes := r.grown info [.leaf info.index (.unclassified (r.levelOf info) line.trim)]
        diagnostics := ds
        scope := r.scope.truncate (r.levelOf info)
        useAllowed := false } :=
  addLeaf_eq (r := r.forbidUse.report (.unclassifiedLine line) (.visible info.index line)) h line
    (.unclassified (r.levelOf info) line.trim)

theorem readParameters_eq (find : Nat → Finder) (r : Reader) (info : LineInfo)
    (written : List (Text × Nat)) :
    ∃ ds, r.readParameters find info written =
      ({ r with diagnostics := ds },
        written.map (Parameter.ofText (r.lookup find) info.index (r.levelOf info))) := by
  induction written generalizing r with
  | nil => exact ⟨r.diagnostics, rfl⟩
  | cons first rest ih =>
    obtain ⟨text, column⟩ := first
    cases hd : Line.splitDeclaration? text with
    | none =>
      obtain ⟨ds, hrest⟩ := ih r
      exact ⟨ds, by simp [readParameters, hd, hrest, Parameter.ofText]⟩
    | some d =>
      obtain ⟨ds, hrest⟩ := ih (r.readValueAt find info (column + d.column) d.value).1
      refine ⟨ds, ?_⟩
      simp only [readParameters, hd, hrest, List.map_cons, Parameter.ofText]
      rfl

/-! ## The steps of the kinds -/

theorem Step.read {kind : LineKind} {nodes : List Node} {r₁ r₂ : Reader}
    (h : Step find r info line kind nodes r₁) (heq : r₂ = r₁) :
    ∃ nodes, Step find r info line kind nodes r₂ := ⟨nodes, heq ▸ h⟩

theorem readMixin_step (h : r.HasTarget info) :
    ∃ nodes, Step find r info line .mixin nodes (r.readMixin find info line) := by
  obtain ⟨ds, hp⟩ := readParameters_eq find r.forbidUse info (MixinClause.ofLine line).parameters
  obtain ⟨ds', ha⟩ := addBlock_eq (r := { r.forbidUse with diagnostics := ds }) h line
    (.mixin (MixinClause.ofLine line).spelling (MixinClause.ofLine line).name
      ((MixinClause.ofLine line).parameters.map
        (Parameter.ofText (r.lookup find) info.index (r.levelOf info))))
  have hsame : (MixinClause.ofLine line).parameters.map
      (Parameter.ofText (r.forbidUse.lookup find) info.index (r.forbidUse.levelOf info)) =
      (MixinClause.ofLine line).parameters.map
        (Parameter.ofText (r.lookup find) info.index (r.levelOf info)) := rfl
  refine (Step.opens ds' Opens.mixin).read ?_
  simp only [readMixin, hp]
  rw [hsame, ha]
  rfl

theorem readProperty_step (h : r.HasTarget info) :
    ∃ nodes, Step find r info line .property nodes (r.readProperty find info line) := by
  cases hd : Line.splitDeclaration? line with
  | none =>
    obtain ⟨ds, hr⟩ := readUnclassified_eq (r := r.forbidUse) h line
    refine (Step.closes ds (Closes.noColon (.inl rfl) hd)).read ?_
    simp only [readProperty, hd, hr]
    rfl
  | some d =>
    obtain ⟨ds, hr⟩ := addLeaf_eq
      (r := (r.forbidUse.readValueAt find info d.column d.value).1) h line
      (.property (r.levelOf info) d.name
        (readValue (r.lookup find) ⟨info.index, d.column, r.levelOf info⟩ d.value).1)
    refine (Step.closes ds (Closes.property hd)).read ?_
    simp only [readProperty, hd]
    exact hr

theorem readVariable_step (h : r.HasTarget info) :
    ∃ nodes, Step find r info line .variableDecl nodes (r.readVariable find info line) := by
  cases hd : Line.splitDeclaration? line with
  | none =>
    obtain ⟨ds, hr⟩ := readUnclassified_eq h line
    refine (Step.closes ds (Closes.noColon (.inr rfl) hd)).read ?_
    simp only [readVariable, hd, hr]
  | some d =>
    obtain ⟨ds, hr⟩ := addComment_eq (r := (r.readValueAt find info d.column d.value).1) h line
      (.variableDecl (r.levelOf info) d.name
        (readValue (r.lookup find) ⟨info.index, d.column, r.levelOf info⟩ d.value).1)
    have hsame : (r.readValueAt find info d.column d.value).2 =
        (readValue (r.lookup find) ⟨info.index, d.column, r.levelOf info⟩ d.value).1 := rfl
    refine (Step.declares ds hd rfl).read ?_
    simp only [readVariable, hd]
    rw [hsame]
    exact congrArg (fun p : Reader × TreePath => { p.1 with
      scope := p.1.scope.declare d.name info.index (r.levelOf info) }) hr

theorem readBlockComment_step (h : r.HasTarget info) :
    ∃ nodes, Step find r info line .blockCommentStart nodes (r.readBlockComment info line) := by
  obtain ⟨ds, hr⟩ := addComment_eq h line
    (.blockComment (r.levelOf info) [⟨info.index, line.trim⟩])
  refine (Step.comments ds).read ?_
  simp only [readBlockComment, hr]
  split <;> rfl

/-- Closing the blocks that are not above a line leaves the line its body. -/
theorem target_truncate {r' : Reader} (htab : r.style.tabStop ≤ info.column → 0 < info.rawLevel)
    (hstyle : r'.style = r.style)
    (hblocks : r'.scope.blocks = r.scope.blocks.take (r.levelOf info)) :
    (r'.target info).1 = (r.target info).1 := by
  unfold target
  rw [hstyle, hblocks]
  dsimp only [levelOf]
  by_cases hcol : info.column < r.style.tabStop ∨ r.scope.blocks.length = 0
  · have hcol' : info.column < r.style.tabStop ∨
        (r.scope.blocks.take (min info.rawLevel r.scope.blocks.length)).length = 0 := by
      rw [List.length_take]
      omega
    rw [if_pos hcol, if_pos hcol']
  · have hpos : 0 < info.rawLevel := htab (by omega)
    have hcol' : ¬(info.column < r.style.tabStop ∨
        (r.scope.blocks.take (min info.rawLevel r.scope.blocks.length)).length = 0) := by
      rw [List.length_take]
      omega
    rw [if_neg hcol, if_neg hcol']
    by_cases hdeep : r.scope.blocks.length < info.rawLevel
    · rw [Nat.min_eq_right (Nat.le_of_lt hdeep), List.take_length]
    · have hle : info.rawLevel ≤ r.scope.blocks.length := by omega
      rw [Nat.min_eq_left hle, List.length_take, if_neg hdeep, if_neg (by omega),
        List.getElem?_take_of_lt (by omega)]

end Reader

namespace Reading

variable {σ : Type} {resolver : Resolver σ} {g : Reading σ} {info : LineInfo} {line : Text}

theorem readImportPath_eq (resolver : Resolver σ) (line : Text) (h : g.reader.HasTarget info)
    (level : Nat) (path : Text) :
    ∃ target ds scope, (readImportPath resolver info line level g path).reader =
        { g.reader with
          nodes := g.reader.grown info [.leaf info.index (.importPath level path target)]
          diagnostics := ds
          scope } ∧
      scope.blocks = g.reader.scope.blocks.take level ∧
      scope.declared = g.reader.scope.declared.take (level + 1) ∧
      scope.uri = g.reader.scope.uri := by
  unfold readImportPath
  dsimp only
  generalize g.resolveImport resolver path = found
  obtain ⟨uri?, files⟩ := found
  obtain ⟨ds, hr⟩ := Reader.addComment_eq h line (.importPath level path uri?)
  cases uri? with
  | none =>
    refine ⟨none, ds, g.reader.scope.truncate level, ?_, rfl, rfl, rfl⟩
    simp only [hr]
  | some uri =>
    refine ⟨some uri, ds, g.reader.scope.declareImport (.merged uri) level, ?_, rfl, rfl, rfl⟩
    simp only [hr]

/-- The paths of an `@import` line go to one body, one behind the other. -/
theorem readImportPaths_eq (resolver : Resolver σ) (line : Text) (h : g.reader.HasTarget info)
    (htab : g.reader.style.tabStop ≤ info.column → 0 < info.rawLevel) {paths : List Text}
    (hne : paths ≠ []) :
    ∃ targets ds scope, targets.length = paths.length ∧
      (paths.foldl (readImportPath resolver info line (g.reader.levelOf info)) g).reader =
        { g.reader with
          nodes := g.reader.grown info (List.zipWith
            (fun path target =>
              .leaf info.index (.importPath (g.reader.levelOf info) path target)) paths targets)
          diagnostics := ds
          scope } ∧
      scope.blocks = g.reader.scope.blocks.take (g.reader.levelOf info) ∧
      scope.declared = g.reader.scope.declared.take (g.reader.levelOf info + 1) ∧
      scope.uri = g.reader.scope.uri := by
  induction paths generalizing g with
  | nil => exact absurd rfl hne
  | cons path rest ih =>
    obtain ⟨target, ds, scope, hread, hblocks, hdeclared, huri⟩ :=
      readImportPath_eq resolver line h (g.reader.levelOf info) path
    by_cases hrest : rest = []
    · subst hrest
      exact ⟨[target], ds, scope, rfl, hread, hblocks, hdeclared, huri⟩
    · -- the second path finds the body and the level that the first one found
      generalize hg : readImportPath resolver info line (g.reader.levelOf info) g path = g' at hread
      have hlevel : g'.reader.levelOf info = g.reader.levelOf info := by
        simp only [Reader.levelOf, hread, hblocks, List.length_take]
        omega
      have htarget : (g'.reader.target info).1 = (g.reader.target info).1 :=
        Reader.target_truncate htab (by rw [hread]) (by rw [hread]; exact hblocks)
      obtain ⟨body, hb⟩ := h
      have h' : g'.reader.HasTarget info := by
        refine ⟨body ++ [.leaf info.index (.importPath (g.reader.levelOf info) path target)], ?_⟩
        rw [htarget, hread]
        exact Tree.bodyAt?_graft _ hb
      have hstyle : g'.reader.style = g.reader.style := by rw [hread]
      obtain ⟨targets, ds', scope', hlen, hread', hblocks', hdeclared', huri'⟩ :=
        ih h' (by rw [hstyle]; exact htab) hrest
      rw [hlevel] at hread' hblocks' hdeclared'
      have hgrown : g'.reader.grown info = fun added => Tree.graft
          (.leaf info.index (.importPath (g.reader.levelOf info) path target) :: added)
          g.reader.nodes (g.reader.target info).1 := by
        funext added
        unfold Reader.grown
        rw [htarget, hread]
        exact Tree.graft_graft _ _
      refine ⟨target :: targets, ds', scope', by simp [hlen], ?_, ?_, ?_, ?_⟩
      · rw [List.foldl_cons, hg, hread', hgrown, hread]
        rfl
      · rw [hblocks', hread]
        simp [hblocks, List.take_take]
      · rw [hdeclared', hread]
        simp [hdeclared, List.take_take]
      · rw [huri', hread]
        exact huri

theorem readImport_step (h : g.reader.HasTarget info)
    (htab : g.reader.style.tabStop ≤ info.column → 0 < info.rawLevel) :
    ∃ nodes, Reader.Step (resolver.find g.files info.index) g.reader info line .importPaths nodes
      (g.readImport resolver info line).reader := by
  obtain ⟨ds, hu⟩ := Reader.readUnclassified_eq (r := g.reader.forbidUse) h line
  cases hp : importPaths? line with
  | none =>
    refine (Reader.Step.closes ds (.noPaths (.inl hp))).read ?_
    simp only [readImport, hp]
    exact hu
  | some paths =>
    cases paths with
    | nil =>
      refine (Reader.Step.closes ds (.noPaths (.inr hp))).read ?_
      simp only [readImport, hp]
      exact hu
    | cons path rest =>
      obtain ⟨targets, ds', scope, hlen, hread, hblocks, hdeclared, huri⟩ :=
        readImportPaths_eq resolver line (g := { g with reader := g.reader.forbidUse }) h htab
          (List.cons_ne_nil path rest)
      refine (Reader.Step.imports (r := g.reader) ds' hp (List.cons_ne_nil path rest) hlen hblocks
        hdeclared huri).read ?_
      simp only [readImport, hp]
      exact hread

theorem readUse_step (h : g.reader.HasTarget info)
    (huse : g.reader.useAllowed = true → g.reader.scope.blocks = []) :
    ∃ nodes, Reader.Step (resolver.find g.files info.index) g.reader info line .useModule nodes
      (g.readUse resolver info line).reader := by
  cases hu : g.reader.useAllowed with
  | false =>
    obtain ⟨ds, hr⟩ := Reader.addComment_eq
      (r := g.reader.report .useNotTopLevel (.visible info.index line)) h line
      (.comment (g.reader.levelOf info) ("// ".toList ++ line.trim))
    refine (Reader.Step.keeps ds (.lateUse hu)).read ?_
    unfold readUse
    rw [if_pos (by simp [hu])]
    exact congrArg Prod.fst hr
  | true =>
    cases hc : UseClause.ofLine? line with
    | none =>
      obtain ⟨ds, hr⟩ := Reader.readUnclassified_eq h line
      refine (Reader.Step.closes ds (.noModule hu hc)).read ?_
      unfold readUse
      rw [if_neg (by simp [hu])]
      simp only [hc]
      exact hr
    | some clause =>
      have htarget : (g.reader.target info).1 = [] := by simp [Reader.target, huse hu]
      have hgrown : ∀ node : Node, (g.reader.insert node []).1 =
          { g.reader with nodes := g.reader.grown info [node] } := by
        intro node
        rw [Reader.grown, htarget]
        exact congrArg Prod.fst (Reader.insert_eq node rfl)
      rcases hfound : resolver.resolve g.files g.reader.uri clause.path with ⟨uri?, files⟩
      have hread := hgrown (.leaf info.index (.useModule clause.path uri? clause.qualifier))
      cases uri? with
      | none =>
        refine (Reader.Step.uses none g.reader.diagnostics hu hc (.inl rfl)).read ?_
        unfold readUse
        rw [if_neg (by simp [hu])]
        simp only [hc, hfound, hread]
      | some uri =>
        refine (Reader.Step.uses (some uri) g.reader.diagnostics hu hc
          (.inr ⟨.qualified uri clause.qualifier, rfl⟩)).read ?_
        unfold readUse
        rw [if_neg (by simp [hu])]
        simp only [hc, hfound, hread]

/-- A line that is neither blank nor part of a block comment makes one step. -/
theorem readKind_step (resolver : Resolver σ) (line : Text) {kind : LineKind} (hblank : kind ≠ .blank)
    (hcontent : kind ≠ .blockCommentContent) (h : g.reader.HasTarget info)
    (huse : g.reader.useAllowed = true → g.reader.scope.blocks = [])
    (htab : g.reader.style.tabStop ≤ info.column → 0 < info.rawLevel) :
    ∃ nodes, Reader.Step (resolver.find g.files info.index) g.reader info line kind nodes
      (g.readKind resolver info line kind).reader := by
  have hblock := Reader.addBlock_eq (r := g.reader.forbidUse) h line
  have hleaf := Reader.addLeaf_eq (r := g.reader.forbidUse) h line
  cases kind with
  | blank => exact absurd rfl hblank
  | blockCommentContent => exact absurd rfl hcontent
  | selector =>
    obtain ⟨ds, hr⟩ := hblock (.rule line.trim)
    exact (Reader.Step.opens ds .rule).read hr
  | fontFace =>
    obtain ⟨ds, hr⟩ := hblock .fontFace
    exact (Reader.Step.opens ds .fontFace).read hr
  | mixin => exact Reader.readMixin_step h
  | property => exact Reader.readProperty_step h
  | variableDecl => exact Reader.readVariable_step h
  | mixinCall =>
    obtain ⟨ds, hr⟩ := hleaf
      (.mixinCall (g.reader.levelOf info) (mixinCall line).1 (mixinCall line).2)
    exact (Reader.Step.closes ds .mixinCall).read hr
  | extendRule =>
    obtain ⟨ds, hr⟩ := hleaf (.extendRule (g.reader.levelOf info) (extended line))
    exact (Reader.Step.closes ds .extendRule).read hr
  | importPaths => exact readImport_step h htab
  | useModule => exact readUse_step h huse
  | comment =>
    obtain ⟨ds, hr⟩ := Reader.addComment_eq h line (.comment (g.reader.levelOf info) line.trim)
    exact (Reader.Step.keeps ds .comment).read (congrArg Prod.fst hr)
  | blockCommentStart => exact Reader.readBlockComment_step h
  | literal =>
    obtain ⟨ds, hr⟩ := Reader.readUnclassified_eq h line
    exact (Reader.Step.closes ds .literal).read hr

end Reading

end IndentedSass
