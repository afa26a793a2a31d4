/-
  Readings with other resolvers have the same shape.

  Other files tell a reader where import paths and references lead, and nothing else.

  * `Reader.shape` is a reader that only knows what the text tells: the shape of its tree,
    and no imports.  The operations of a reader are done in its shape
    (`Reader.shape_insert`, `shape_addLeaf`, …);
  * `Reader.Flat`: while `@use` may come, nothing is open and nothing is declared below the
    top level, so that it makes no difference whether a `@use` line leads somewhere;
  * `Resolver.Agree`: two resolvers lead to files that are the same up to `e`;
    `readFile_shape_congr`: then the two readings are the same up to `e`;
  * `readFile_shape`: whatever two resolvers answer, the readings have the same shape.
-/
import Mathlib
import IndentedSass.Proofs.Reader.Run
import IndentedSass.Proofs.Reader.Values
import IndentedSass.Proofs.Tree.Shape

namespace IndentedSass

/-! ## Values -/

namespace ValueState

variable {lookup : Lookups} {place : ValuePlace} {st : ValueState}

/-- All that was noted are references that were found nowhere. -/
def NotesMissing (st : ValueState) : Prop := ∀ d ∈ st.diagnostics, d.isMissing = true

theorem diagnostics_push (st : ValueState) (v : Value) : (st.push v).diagnostics = st.diagnostics := by
  unfold push
  split <;> rfl

theorem diagnostics_close (st : ValueState) : st.close.diagnostics = st.diagnostics := by
  unfold close
  split
  · rfl
  · exact diagnostics_push ..

theorem NotesMissing.flush (h : st.NotesMissing) : (st.flush lookup place).NotesMissing := by
  unfold ValueState.flush
  split
  · exact h
  · dsimp only
    split
    · rw [NotesMissing, diagnostics_push]
      exact h
    · rw [NotesMissing, diagnostics_push]
      intro d hd
      rcases List.mem_append.1 hd with hold | hnew
      · exact h d hold
      · split at hnew
        · rw [List.mem_singleton.1 hnew]
          rfl
        · cases hnew

theorem NotesMissing.act (h : st.NotesMissing) (c : Char) (next : Option Char) :
    (st.act lookup place c next).NotesMissing := by
  unfold ValueState.act
  split_ifs
  · exact h
  · exact h
  · exact h.flush
  · exact h.flush
  · exact h
  · exact h
  · rw [NotesMissing, diagnostics_close]
    exact h.flush
  · exact h

theorem NotesMissing.run (h : st.NotesMissing) (t : Text) :
    (st.run lookup place t).NotesMissing := by
  induction t generalizing st with
  | nil => exact h
  | cons c cs ih => exact ih (h.act c cs.head?)

theorem NotesMissing.finish (h : st.NotesMissing) : (st.finish lookup place).NotesMissing := by
  have hclose : ∀ (opened : List OpenCompound) (st : ValueState), st.NotesMissing →
      (opened.foldl (fun st _ => st.close) st).NotesMissing := by
    intro opened
    induction opened with
    | nil => exact fun _ h => h
    | cons o os ih =>
      intro st h
      refine ih st.close ?_
      rw [NotesMissing, diagnostics_close]
      exact h
  exact hclose _ _ h.flush

end ValueState

/-- What is noted about a value leaves its shape. -/
theorem shape_readValue_diagnostics (lookup : Lookups) (place : ValuePlace) (raw : Text) :
    Diagnostic.shape (readValue lookup place raw).2 = [] := by
  have hstart : ValueState.NotesMissing {} := fun d hd => nomatch hd
  have hall : ∀ d ∈ (readValue lookup place raw).2, d.isMissing = true := (hstart.run raw).finish
  rw [Diagnostic.shape, List.filter_eq_nil_iff]
  intro d hd
  simp [hall d hd]

/-- The shape of a value does not depend on what is visible. -/
theorem shape_readValue (lookup lookup' : Lookups) (place place' : ValuePlace) (raw : Text) :
    Value.shape (readValue lookup place raw).1 = Value.shape (readValue lookup' place' raw).1 := by
  apply readValue_retarget
  exact fun _ _ _ _ => rfl

/-- A scope without its imports. -/
def Scope.shape (s : Scope) : Scope := { s with imports := [] }

theorem Scope.shape_declareAll (s : Scope) (parameters : List Parameter) (line level : Nat) :
    (s.declareAll parameters line level).shape = s.shape.declareAll parameters line level := by
  induction parameters generalizing s with
  | nil => rfl
  | cons p rest ih => exact ih (s.declareParameter p.name line level)

namespace Reader

variable {e : Option Uri → Option Uri} {find find' : Nat → Finder} {r r' : Reader}
  {info : LineInfo} {line : Text}

/-! ## The operations of a reader, in its shape -/

/-- A reader that only knows what the text tells. -/
def shape (e : Option Uri → Option Uri) (r : Reader) : Reader :=
  { r with
    nodes := Tree.shape e r.nodes
    diagnostics := Diagnostic.shape r.diagnostics
    scope := r.scope.shape }

theorem shape_report (e : Option Uri → Option Uri) (r : Reader) {problem : Problem} (range : Range)
    (h : (Diagnostic.mk problem range).isMissing = false) :
    (r.report problem range).shape e = (r.shape e).report problem range := by
  simp [shape, report, Diagnostic.shape, h]

theorem shape_place (e : Option Uri → Option Uri) (r : Reader) (info : LineInfo) (line : Text) :
    (r.shape e).place info line = ((r.place info line).1.shape e, (r.place info line).2) := by
  have htarget : (r.shape e).target info = r.target info := rfl
  unfold place
  rw [htarget]
  dsimp only
  split
  · rw [shape_report e r _ rfl]
    rfl
  · rfl

theorem shape_insert (e : Option Uri → Option Uri) (r : Reader) (node : Node) (path : TreePath) :
    (r.shape e).insert (node.shape e) path =
      ((r.insert node path).1.shape e, (r.insert node path).2) := by
  unfold insert
  simp only [shape, Tree.appendAt?_shape]
  cases Tree.appendAt? node r.nodes path with
  | none => simp [Tree.shape_append, Tree.shape]
  | some found => rfl

theorem shape_insert_congr {node node' : Node} (h : r.shape e = r'.shape e) (path : TreePath)
    (hnode : node.shape e = node'.shape e) :
    (r.insert node path).1.shape e = (r'.insert node' path).1.shape e := by
  have hinsert := congrArg Prod.fst (shape_insert e r node path)
  have hinsert' := congrArg Prod.fst (shape_insert e r' node' path)
  rw [h, hnode] at hinsert
  exact hinsert.symm.trans hinsert'

theorem shape_flushBlanks (e : Option Uri → Option Uri) (r : Reader) (path : TreePath) :
    (r.flushBlanks path).shape e = (r.shape e).flushBlanks path := by
  have hfold : ∀ (blanks : List Nat) (r : Reader),
      (blanks.foldl (fun r index => (r.insert (.leaf index .blank) path).1) r).shape e =
        blanks.foldl (fun r index => (r.insert (.leaf index .blank) path).1) (r.shape e) := by
    intro blanks
    induction blanks with
    | nil => exact fun _ => rfl
    | cons index blanks ih =>
      intro r
      have hinsert : ((r.shape e).insert (.leaf index .blank) path).1 =
          (r.insert (.leaf index .blank) path).1.shape e :=
        congrArg Prod.fst (shape_insert e r (.leaf index .blank) path)
      rw [List.foldl_cons, List.foldl_cons, ih, hinsert]
  exact hfold r.pendingBlanks { r with pendingBlanks := [] }

theorem shape_addComment (e : Option Uri → Option Uri) (r : Reader) (info : LineInfo) (line : Text)
    (leaf : Leaf) :
    (r.shape e).addComment info line (leaf.shape e) =
      ((r.addComment info line leaf).1.shape e, (r.addComment info line leaf).2) := by
  simp only [addComment, shape_place]
  exact shape_insert e (r.place info line).1 (.leaf info.index leaf) (r.place info line).2

theorem shape_addLeaf (e : Option Uri → Option Uri) (r : Reader) (info : LineInfo) (line : Text)
    (leaf : Leaf) :
    (r.addLeaf info line leaf).shape e = (r.shape e).addLeaf info line (leaf.shape e) := by
  simp only [addLeaf, shape_addComment]
  rfl

theorem shape_addBlock (e : Option Uri → Option Uri) (r : Reader) (info : LineInfo) (line : Text)
    (header : Header) :
    (r.addBlock info line header).shape e = (r.shape e).addBlock info line header.shape := by
  have hinsert := shape_insert e (r.place info line).1
    (.block info.index (r.levelOf info) header []) (r.place info line).2
  have hnode : Node.shape e (.block info.index (r.levelOf info) header []) =
      .block info.index ((r.shape e).levelOf info) header.shape [] := by
    rw [Node.shape, Tree.shape]
    rfl
  rw [hnode] at hinsert
  simp only [addBlock, shape_place, hinsert]
  rfl

theorem shape_readUnclassified (e : Option Uri → Option Uri) (r : Reader) (info : LineInfo)
    (line : Text) :
    (r.readUnclassified info line).shape e = (r.shape e).readUnclassified info line := by
  unfold readUnclassified
  rw [shape_addLeaf, shape_report e r.forbidUse _ rfl]
  rfl

/-! ## Readers of the same shape -/

theorem shape_readValueAt (e : Option Uri → Option Uri) (find : Nat → Finder)
    (r : Reader) (info : LineInfo) (column : Nat) (value : Text) :
    (r.readValueAt find info column value).1.shape e = r.shape e := by
  have hnone := shape_readValue_diagnostics (r.lookup find) ⟨info.index, column, r.levelOf info⟩ value
  simp only [readValueAt, shape, Diagnostic.shape_append, hnone, List.append_nil]

theorem shape_readParameters (e : Option Uri → Option Uri) (find : Nat → Finder)
    (r : Reader) (info : LineInfo) (written : List (Text × Nat)) :
    (r.readParameters find info written).1.shape e = r.shape e := by
  induction written generalizing r with
  | nil => rfl
  | cons first rest ih =>
    obtain ⟨text, column⟩ := first
    unfold readParameters
    cases Line.splitDeclaration? text with
    | none => exact ih r
    | some d => exact (ih _).trans (shape_readValueAt ..)

theorem shape_parameters (lookup lookup' : Lookups) (line line' level level' : Nat)
    (written : List (Text × Nat)) :
    (written.map (Parameter.ofText lookup line level)).map Parameter.shape =
      (written.map (Parameter.ofText lookup' line' level')).map Parameter.shape := by
  rw [List.map_map, List.map_map]
  refine List.map_congr_left fun ⟨text, column⟩ _ => ?_
  simp only [Function.comp_apply, Parameter.ofText]
  cases Line.splitDeclaration? text with
  | none => rfl
  | some d =>
    exact congrArg (fun value => (⟨d.name, some value⟩ : Parameter)) (shape_readValue ..)

theorem levelOf_of_shape (h : r.shape e = r'.shape e) (info : LineInfo) :
    r.levelOf info = r'.levelOf info := by
  have hblocks := congrArg (fun r : Reader => r.levelOf info) h
  exact hblocks

theorem uri_of_shape (h : r.shape e = r'.shape e) : r.uri = r'.uri := by
  have huri := congrArg Reader.uri h
  exact huri

theorem shape_addComment_congr {leaf leaf' : Leaf} (h : r.shape e = r'.shape e) (info : LineInfo)
    (line : Text) (hleaf : leaf.shape e = leaf'.shape e) :
    (r.addComment info line leaf).1.shape e = (r'.addComment info line leaf').1.shape e := by
  have hadd := congrArg Prod.fst (shape_addComment e r info line leaf)
  have hadd' := congrArg Prod.fst (shape_addComment e r' info line leaf')
  rw [h, hleaf] at hadd
  exact hadd.symm.trans hadd'

theorem shape_readProperty (h : r.shape e = r'.shape e) :
    (r.readProperty find info line).shape e = (r'.readProperty find' info line).shape e := by
  have hforbid : r.forbidUse.shape e = r'.forbidUse.shape e := congrArg forbidUse h
  unfold readProperty
  cases Line.splitDeclaration? line with
  | none => rw [shape_readUnclassified, shape_readUnclassified, hforbid]
  | some d =>
    have hlevel := levelOf_of_shape h info
    have hleaf : Leaf.shape e (.property (r.forbidUse.levelOf info) d.name
          (r.forbidUse.readValueAt find info d.column d.value).2) =
        Leaf.shape e (.property (r'.forbidUse.levelOf info) d.name
          (r'.forbidUse.readValueAt find' info d.column d.value).2) :=
      congrArg₂ (Leaf.property · d.name ·) hlevel (shape_readValue ..)
    dsimp only
    rw [shape_addLeaf, shape_addLeaf, shape_readValueAt, shape_readValueAt, hforbid, hleaf]

theorem shape_readVariable (h : r.shape e = r'.shape e) :
    (r.readVariable find info line).shape e = (r'.readVariable find' info line).shape e := by
  unfold readVariable
  cases Line.splitDeclaration? line with
  | none => rw [shape_readUnclassified, shape_readUnclassified, h]
  | some d =>
    have hlevel := levelOf_of_shape h info
    have hleaf : Leaf.shape e (.variableDecl (r.levelOf info) d.name
          (r.readValueAt find info d.column d.value).2) =
        Leaf.shape e (.variableDecl (r'.levelOf info) d.name
          (r'.readValueAt find' info d.column d.value).2) :=
      congrArg₂ (Leaf.variableDecl · d.name ·) hlevel (shape_readValue ..)
    have hread : (r.readValueAt find info d.column d.value).1.shape e =
        (r'.readValueAt find' info d.column d.value).1.shape e := by
      rw [shape_readValueAt, shape_readValueAt, h]
    have hadd := shape_addComment_congr hread info line hleaf
    dsimp only
    rw [hlevel] at hadd ⊢
    exact congrArg (fun added : Reader =>
      { added with scope := added.scope.declare d.name info.index (r'.levelOf info) }) hadd

theorem shape_readMixin (h : r.shape e = r'.shape e) :
    (r.readMixin find info line).shape e = (r'.readMixin find' info line).shape e := by
  have hforbid : r.forbidUse.shape e = r'.forbidUse.shape e := congrArg forbidUse h
  have hlevel := levelOf_of_shape hforbid info
  have hread := shape_readParameters e find r.forbidUse info (MixinClause.ofLine line).parameters
  have hread' := shape_readParameters e find' r'.forbidUse info (MixinClause.ofLine line).parameters
  have hsame : (r.forbidUse.readParameters find info (MixinClause.ofLine line).parameters).2.map
        Parameter.shape =
      (r'.forbidUse.readParameters find' info (MixinClause.ofLine line).parameters).2.map
        Parameter.shape := by
    obtain ⟨ds, hp⟩ := readParameters_eq find r.forbidUse info (MixinClause.ofLine line).parameters
    obtain ⟨ds', hp'⟩ := readParameters_eq find' r'.forbidUse info
      (MixinClause.ofLine line).parameters
    rw [hp, hp']
    exact shape_parameters ..
  unfold readMixin
  dsimp only
  generalize r.forbidUse.readParameters find info (MixinClause.ofLine line).parameters = read
    at hread hsame ⊢
  generalize r'.forbidUse.readParameters find' info (MixinClause.ofLine line).parameters = read'
    at hread' hsame ⊢
  have hnames : read.2.map Parameter.name = read'.2.map Parameter.name := by
    have hnamed := congrArg (List.map Parameter.name) hsame
    rw [List.map_map, List.map_map] at hnamed
    exact hnamed
  have hblock := shape_addBlock e read.1 info line
    (.mixin (MixinClause.ofLine line).spelling (MixinClause.ofLine line).name read.2)
  have hblock' := shape_addBlock e read'.1 info line
    (.mixin (MixinClause.ofLine line).spelling (MixinClause.ofLine line).name read'.2)
  rw [hread, hforbid, Header.shape, hsame] at hblock
  rw [hread', Header.shape] at hblock'
  have hadd := hblock.trans hblock'.symm
  rw [hlevel]
  generalize read.1.addBlock info line _ = added at hadd ⊢
  generalize read'.1.addBlock info line _ = added' at hadd ⊢
  have hscope := congrArg (fun r : Reader =>
    { r with scope := r.scope.declareAll read.2 info.index (r'.forbidUse.levelOf info + 1) }) hadd
  have hdeclared : ∀ (added : Reader) (parameters : List Parameter) (level : Nat),
      shape e { added with scope := added.scope.declareAll parameters info.index level } =
        { added.shape e with
          scope := (added.shape e).scope.declareAll parameters info.index level } := by
    intro added parameters level
    simp only [shape, Scope.shape_declareAll]
  refine (hdeclared added read.2 _).trans (hscope.trans ?_)
  rw [Scope.declareAll_congr hnames]
  exact (hdeclared added' read'.2 _).symm

theorem shape_readBlockComment (e : Option Uri → Option Uri) (r : Reader) (info : LineInfo)
    (line : Text) :
    (r.readBlockComment info line).shape e = (r.shape e).readBlockComment info line := by
  have hadd := shape_addComment e r info line
    (.blockComment (r.levelOf info) [⟨info.index, line.trim⟩])
  unfold readBlockComment
  dsimp only
  rw [show Leaf.blockComment ((r.shape e).levelOf info) [⟨info.index, line.trim⟩] =
    Leaf.shape e (.blockComment (r.levelOf info) [⟨info.index, line.trim⟩]) from rfl, hadd]
  split <;> rfl

theorem shape_readCommentContent (e : Option Uri → Option Uri) (r : Reader) (info : LineInfo)
    (line : Text) :
    (r.readCommentContent info line).shape e = (r.shape e).readCommentContent info line := by
  unfold readCommentContent
  rw [show (r.shape e).openComment = r.openComment from rfl]
  cases r.openComment with
  | none => rfl
  | some comment =>
    dsimp only
    rw [show (r.shape e).nodes = Tree.shape e r.nodes from rfl, Tree.nodeAt?_shape]
    cases Tree.nodeAt? r.nodes comment.path with
    | none => rfl
    | some node =>
      cases node with
      | block line level header body => rfl
      | leaf n leaf =>
        cases leaf with
        | blockComment level lines =>
          have hmodify := Tree.modifyAt_shape e (.leaf n (.blockComment level (lines ++
            [⟨info.index, (dropColumns r.style.tabStop comment.column line).trimEnd⟩])))
            r.nodes comment.path
          simp only [Option.map_some, Node.shape, Leaf.shape] at hmodify ⊢
          simp only [shape, ← hmodify]
        | _ => rfl

theorem shape_readLateUse (e : Option Uri → Option Uri) (r : Reader) (info : LineInfo) (line : Text) :
    (r.readLateUse info line).shape e = (r.shape e).readLateUse info line := by
  have hadd := shape_addComment e (r.report .useNotTopLevel (.visible info.index line)) info line
    (.comment (r.levelOf info) ("// ".toList ++ line.trim))
  rw [shape_report e r _ rfl] at hadd
  exact (congrArg Prod.fst hadd).symm

/-- A reader whose block comment ends before a line, unless the line belongs to it. -/
def ended (r : Reader) (line : Text) : Reader :=
  if r.kindOf line = .blockCommentContent then r else { r with openComment := none }

theorem shape_ended (e : Option Uri → Option Uri) (r : Reader) (line : Text) :
    (r.ended line).shape e = (r.shape e).ended line := by
  have hkind : (r.shape e).kindOf line = r.kindOf line := rfl
  unfold ended
  rw [hkind]
  split <;> rfl

/-! ## While `@use` may come -/

/-- While `@use` may come, no block is open and nothing is declared below the top level. -/
def Flat (r : Reader) : Prop :=
  r.useAllowed = true → r.scope.blocks = [] ∧ r.scope.declared.length ≤ 1

theorem length_addAtLevel_zero {α : Type} (a : α) {levels : List (List α)} (h : levels.length ≤ 1) :
    (addAtLevel 0 a levels).length ≤ 1 := by
  simp only [addAtLevel, List.length_modify, List.length_append, List.length_replicate]
  omega

theorem Flat.step {kind : LineKind} {nodes : List Node} (h : r.Flat)
    (hstep : Step find r info line kind nodes r') : r'.Flat := by
  intro huse
  cases hstep with
  | opens | closes | imports => cases huse
  | keeps | comments => exact h huse
  | declares =>
    obtain ⟨hblocks, hdeclared⟩ := h huse
    have hlevel : r.levelOf info = 0 := by simp [levelOf, hblocks]
    rw [hlevel]
    refine ⟨rfl, length_addAtLevel_zero _ ?_⟩
    show (List.take _ _).length ≤ 1
    rw [List.length_take]
    omega
  | uses _ _ _ _ hscope =>
    obtain rfl | ⟨imported, rfl⟩ := hscope
    · exact h huse
    · refine ⟨rfl, ?_⟩
      show (List.take _ _).length ≤ 1
      rw [List.length_take]
      omega

theorem Flat.reads {index : Nat} (h : r.Flat) (hreads : Reads find r index line r') : r'.Flat := by
  cases hreads with
  | waits => exact h
  | goesOn => exact h
  | steps _ _ hstep => exact Flat.step (r := r.settled _) h hstep

theorem Flat.of_shape (hflat : r.Flat) (h : r.shape e = r'.shape e) : r'.Flat := by
  have hsame : (r.shape e).Flat = (r'.shape e).Flat := congrArg Flat h
  exact hsame.mp hflat

theorem Flat.insert (h : r.Flat) (node : Node) (path : TreePath) : (r.insert node path).1.Flat := by
  unfold Reader.insert
  split <;> exact h

theorem Flat.flushBlanks (h : r.Flat) (path : TreePath) : (r.flushBlanks path).Flat := by
  have hfold : ∀ (blanks : List Nat) (r : Reader), r.Flat →
      (blanks.foldl (fun r index => (r.insert (.leaf index .blank) path).1) r).Flat := by
    intro blanks
    induction blanks with
    | nil => exact fun _ h => h
    | cons index blanks ih => exact fun _ h => ih _ (h.insert _ path)
  exact hfold r.pendingBlanks { r with pendingBlanks := [] } h

theorem Flat.ended (h : r.Flat) (line : Text) : (r.ended line).Flat := by
  unfold Reader.ended
  split <;> exact h

/-- An import at the top level changes nothing but what is imported. -/
theorem Flat.shape_declareImport (h : r.Flat) (huse : r.useAllowed = true) (imported : Imported) :
    (r.scope.declareImport imported 0).shape = r.scope.shape := by
  obtain ⟨hblocks, hdeclared⟩ := h huse
  simp only [Scope.declareImport, Scope.truncate, Scope.shape, hblocks, List.take_nil,
    List.take_of_length_le hdeclared]

end Reader

/-! ## Two resolvers -/

section

variable {σ τ : Type} {first : Resolver σ} {second : Resolver τ} {e : Option Uri → Option Uri}
  {P : σ → Prop} {Q : τ → Prop}

/-- A resolver keeps what holds of its state. -/
structure Resolver.Keeps (resolver : Resolver σ) (P : σ → Prop) : Prop where
  resolve : ∀ {a}, P a → ∀ base path, P (resolver.resolve a base path).2
  load : ∀ {a}, P a → ∀ style uri, P (resolver.load a style uri).state

/-- In states that satisfy `P` and `Q`, which both keep, two resolvers lead to files that are
    the same up to `e`. -/
structure Resolver.Agree (e : Option Uri → Option Uri) (first : Resolver σ) (second : Resolver τ)
    (P : σ → Prop) (Q : τ → Prop) : Prop where
  resolve : ∀ {a b}, P a → Q b → ∀ base path,
    e (first.resolve a base path).1 = e (second.resolve b base path).1
  left : first.Keeps P
  right : second.Keeps Q

/-- Two readings that have come to the same point, up to `e`. -/
structure Reading.SameShape (e : Option Uri → Option Uri) (P : σ → Prop) (Q : τ → Prop)
    (g : Reading σ) (g' : Reading τ) : Prop where
  reader : g.reader.shape e = g'.reader.shape e
  left : P g.files
  right : Q g'.files

namespace Reading

variable {g : Reading σ} {g' : Reading τ} {info : LineInfo} {line : Text}

theorem SameShape.change {r r' : Reader} (h : SameShape e P Q g g') (hr : r.shape e = r'.shape e) :
    SameShape e P Q { g with reader := r } { g' with reader := r' } := ⟨hr, h.left, h.right⟩

/-- The reader and the files after one path of an `@import` line. -/
theorem readImportPath_spec (resolver : Resolver σ) {P : σ → Prop} (hkeeps : resolver.Keeps P)
    (info : LineInfo) (line : Text) (level : Nat) (g : Reading σ) (path : Text) (hg : P g.files) :
    let target := (g.resolveImport resolver path).1
    let r := (g.reader.addComment info line (.importPath level path target)).1
    (readImportPath resolver info line level g path).reader.shape e =
        { r.shape e with scope := (r.shape e).scope.truncate level } ∧
      P (readImportPath resolver info line level g path).files := by
  have hfound : P (g.resolveImport resolver path).2 := by
    unfold resolveImport
    split
    · exact hg
    · exact hkeeps.resolve hg _ _
  unfold readImportPath
  generalize g.resolveImport resolver path = found at hfound ⊢
  obtain ⟨uri?, files⟩ := found
  cases uri? with
  | none => exact ⟨rfl, hfound⟩
  | some uri => exact ⟨rfl, hkeeps.load hfound _ _⟩

theorem SameShape.readImportPath (hagree : first.Agree e second P Q) (h : SameShape e P Q g g')
    (level : Nat) (path : Text) :
    SameShape e P Q (readImportPath first info line level g path)
      (readImportPath second info line level g' path) := by
  obtain ⟨hread, hfiles⟩ := readImportPath_spec (e := e) first hagree.left info line level g path h.left
  obtain ⟨hread', hfiles'⟩ :=
    readImportPath_spec (e := e) second hagree.right info line level g' path h.right
  refine ⟨?_, hfiles, hfiles'⟩
  have htarget : e (g.resolveImport first path).1 = e (g'.resolveImport second path).1 := by
    unfold resolveImport
    split
    · rfl
    · rw [Reader.uri_of_shape h.reader]
      exact hagree.resolve h.left h.right _ _
  have hleaf : Leaf.shape e (.importPath level path (g.resolveImport first path).1) =
      Leaf.shape e (.importPath level path (g'.resolveImport second path).1) :=
    congrArg (Leaf.importPath level path) htarget
  have hadd := Reader.shape_addComment_congr h.reader info line hleaf
  rw [hread, hread']
  exact congrArg (fun r : Reader => { r with scope := r.scope.truncate level }) hadd

theorem SameShape.readImport (hagree : first.Agree e second P Q) (h : SameShape e P Q g g') :
    SameShape e P Q (g.readImport first info line) (g'.readImport second info line) := by
  have hforbid : g.reader.forbidUse.shape e = g'.reader.forbidUse.shape e :=
    congrArg Reader.forbidUse h.reader
  have hunknown : (g.reader.forbidUse.readUnclassified info line).shape e =
      (g'.reader.forbidUse.readUnclassified info line).shape e := by
    rw [Reader.shape_readUnclassified, Reader.shape_readUnclassified, hforbid]
  have hpaths : ∀ (level : Nat) (paths : List Text) (g : Reading σ) (g' : Reading τ),
      SameShape e P Q g g' →
      SameShape e P Q (paths.foldl (Reading.readImportPath first info line level) g)
        (paths.foldl (Reading.readImportPath second info line level) g') := by
    intro level paths
    induction paths with
    | nil => exact fun _ _ h => h
    | cons path paths ih => exact fun _ _ h => ih _ _ (h.readImportPath hagree level path)
  unfold Reading.readImport
  dsimp only
  rw [Reader.levelOf_of_shape hforbid info]
  split
  · exact h.change hunknown
  · exact h.change hunknown
  · exact hpaths _ _ _ _ (h.change hforbid)

/-- The reader and the files after a `@use` line that is one. -/
theorem readUse_spec (resolver : Resolver σ) (info : LineInfo) {P : σ → Prop}
    (hkeeps : resolver.Keeps P) {g : Reading σ} {clause : UseClause} (hflat : g.reader.Flat) (huse : g.reader.useAllowed = true)
    (hclause : UseClause.ofLine? line = some clause) (hg : P g.files) :
    let target := (resolver.resolve g.files g.reader.uri clause.path).1
    (g.readUse resolver info line).reader.shape e =
        (g.reader.insert (.leaf info.index (.useModule clause.path target clause.qualifier)) []).1.shape e ∧
      P (g.readUse resolver info line).files := by
  have hadded : ∀ (node : Node) (imported : Imported),
      ((g.reader.insert node []).1.scope.declareImport imported 0).shape =
        (g.reader.insert node []).1.scope.shape :=
    fun node imported => hflat.shape_declareImport huse imported
  have hkept := hkeeps.resolve hg g.reader.uri clause.path
  rcases hfound : resolver.resolve g.files g.reader.uri clause.path with ⟨uri?, files⟩
  rw [hfound] at hkept
  simp only [Reading.readUse, huse, hclause, hfound, Bool.not_true, Bool.false_eq_true, if_false]
  cases uri? with
  | none => exact ⟨rfl, hkept⟩
  | some uri =>
    refine ⟨?_, hkeeps.load hkept _ _⟩
    simp only [Reader.shape, hadded]

theorem SameShape.readUse (hagree : first.Agree e second P Q) (h : SameShape e P Q g g')
    (hflat : g.reader.Flat) :
    SameShape e P Q (g.readUse first info line) (g'.readUse second info line) := by
  have hallowed : g.reader.useAllowed = g'.reader.useAllowed := by
    have hread := congrArg Reader.useAllowed h.reader
    exact hread
  cases huse : g.reader.useAllowed with
  | false =>
    have huse' : g'.reader.useAllowed = false := hallowed.symm.trans huse
    simp only [Reading.readUse, huse, huse', Bool.not_false, if_true]
    refine h.change ?_
    rw [Reader.shape_readLateUse, Reader.shape_readLateUse, h.reader]
  | true =>
    have huse' : g'.reader.useAllowed = true := hallowed.symm.trans huse
    cases hclause : UseClause.ofLine? line with
    | none =>
      simp only [Reading.readUse, huse, huse', hclause, Bool.not_true, Bool.false_eq_true, if_false]
      refine h.change ?_
      rw [Reader.shape_readUnclassified, Reader.shape_readUnclassified, h.reader]
    | some clause =>
      obtain ⟨hread, hfiles⟩ :=
        readUse_spec (e := e) first info hagree.left hflat huse hclause h.left
      obtain ⟨hread', hfiles'⟩ :=
        readUse_spec (e := e) second info hagree.right (hflat.of_shape h.reader) huse' hclause h.right
      refine ⟨?_, hfiles, hfiles'⟩
      have htarget := hagree.resolve h.left h.right g'.reader.uri clause.path
      rw [hread, hread']
      exact Reader.shape_insert_congr h.reader _ (congrArg
        (fun target => Node.leaf info.index (.useModule clause.path target clause.qualifier))
        (Reader.uri_of_shape h.reader ▸ htarget))

theorem SameShape.readKind (hagree : first.Agree e second P Q) (h : SameShape e P Q g g')
    (hflat : g.reader.Flat) (kind : LineKind) :
    SameShape e P Q (readKind first g info line kind) (readKind second g' info line kind) := by
  have hforbid : g.reader.forbidUse.shape e = g'.reader.forbidUse.shape e :=
    congrArg Reader.forbidUse h.reader
  have hlevel := Reader.levelOf_of_shape h.reader info
  cases kind with
  | blank => exact h
  | selector | fontFace =>
    refine h.change ?_
    rw [Reader.shape_addBlock, Reader.shape_addBlock, hforbid]
  | mixin => exact h.change (Reader.shape_readMixin h.reader)
  | property => exact h.change (Reader.shape_readProperty h.reader)
  | variableDecl => exact h.change (Reader.shape_readVariable h.reader)
  | mixinCall | extendRule =>
    refine h.change ?_
    rw [Reader.shape_addLeaf, Reader.shape_addLeaf, hforbid, hlevel]
  | importPaths => exact h.readImport hagree
  | useModule => exact h.readUse hagree hflat
  | comment =>
    refine h.change (Reader.shape_addComment_congr h.reader info line ?_)
    rw [hlevel]
  | blockCommentStart =>
    refine h.change ?_
    rw [Reader.shape_readBlockComment, Reader.shape_readBlockComment, h.reader]
  | blockCommentContent =>
    refine h.change ?_
    rw [Reader.shape_readCommentContent, Reader.shape_readCommentContent, h.reader]
  | literal =>
    refine h.change ?_
    rw [Reader.shape_readUnclassified, Reader.shape_readUnclassified, h.reader]

theorem readLine_eq (resolver : Resolver σ) (g : Reading σ) (index : Nat) (line : Text) :
    g.readLine resolver index line =
      if g.reader.kindOf line = .blank then
        { g with
          reader := { g.reader.ended line with
            pendingBlanks := (g.reader.ended line).pendingBlanks ++ [index] } }
      else readKind resolver
        { g with
          reader := (g.reader.ended line).flushBlanks
            ((g.reader.ended line).target (g.reader.lineInfo index line)).1 }
        (g.reader.lineInfo index line) line (g.reader.kindOf line) := rfl

/-- What a line adds to the shape does not depend on where files are found. -/
theorem SameShape.readLine (hagree : first.Agree e second P Q) (h : SameShape e P Q g g')
    (hflat : g.reader.Flat) (index : Nat) (line : Text) :
    SameShape e P Q (g.readLine first index line) (g'.readLine second index line) := by
  have hkind : g.reader.kindOf line = g'.reader.kindOf line := by
    have hread := congrArg (fun r : Reader => r.kindOf line) h.reader
    exact hread
  have hinfo : g.reader.lineInfo index line = g'.reader.lineInfo index line := by
    have hread := congrArg (fun r : Reader => r.lineInfo index line) h.reader
    exact hread
  have hended : (g.reader.ended line).shape e = (g'.reader.ended line).shape e := by
    rw [Reader.shape_ended, Reader.shape_ended, h.reader]
  have htarget : (g.reader.ended line).target (g'.reader.lineInfo index line) =
      (g'.reader.ended line).target (g'.reader.lineInfo index line) := by
    have hread := congrArg (fun r : Reader => r.target (g'.reader.lineInfo index line)) hended
    exact hread
  rw [readLine_eq, readLine_eq, hkind, hinfo]
  split
  · exact h.change (congrArg (fun r : Reader =>
      { r with pendingBlanks := r.pendingBlanks ++ [index] }) hended)
  · have hflush : ((g.reader.ended line).flushBlanks
          ((g.reader.ended line).target (g'.reader.lineInfo index line)).1).shape e =
        ((g'.reader.ended line).flushBlanks
          ((g'.reader.ended line).target (g'.reader.lineInfo index line)).1).shape e := by
      rw [Reader.shape_flushBlanks, Reader.shape_flushBlanks, hended, htarget]
    exact (h.change hflush).readKind hagree ((hflat.ended line).flushBlanks _) _

/-- Readings that come to the same point read the same lines in the same way. -/
theorem SameShape.readLines (hagree : first.Agree e second P Q) (lines : List Text) (index : Nat)
    (h : SameShape e P Q g g') (hs : g.reader.Sound) (hflat : g.reader.Flat) :
    SameShape e P Q (readLines first g index lines) (readLines second g' index lines) := by
  induction lines generalizing g g' index with
  | nil => exact h
  | cons line rest ih =>
    have hreads := readLine_reads first hs index line.dropReturn
    exact ih (index + 1) (h.readLine hagree hflat index line.dropReturn) (hreads.sound hs)
      (hflat.reads hreads)

end Reading

/-- Resolvers that lead to the same files, up to `e`, give readings of the same shape. -/
theorem readFile_shape_congr (hagree : first.Agree e second P Q) {a : σ} {b : τ} (ha : P a)
    (hb : Q b) (uri : Uri) (style : IndentStyle) (text : Text) :
    (readFile first a uri style text).entry.shape e =
      (readFile second b uri style text).entry.shape e := by
  have hstart : Reading.SameShape e P Q ⟨.start uri style, a, []⟩ ⟨.start uri style, b, []⟩ :=
    ⟨rfl, ha, hb⟩
  have hread := (hstart.readLines hagree text.lines 0 (Reader.sound_start uri style)
    fun _ => ⟨rfl, Nat.zero_le 1⟩).reader
  have hfinish := congrArg (fun r : Reader => r.flushBlanks []) hread
  rw [← Reader.shape_flushBlanks, ← Reader.shape_flushBlanks] at hfinish
  exact congrArg (fun r : Reader => FileEntry.mk r.nodes r.diagnostics) hfinish

end

/-- Whatever two resolvers answer, the readings of a text differ only in where its imports and
    references lead, and in which references were found nowhere. -/
theorem readFile_shape {σ τ : Type} (first : Resolver σ) (second : Resolver τ) (a : σ) (b : τ)
    (uri : Uri) (style : IndentStyle) (text : Text) :
    (readFile first a uri style text).entry.shape (fun _ => none) =
      (readFile second b uri style text).entry.shape fun _ => none :=
  readFile_shape_congr
    (⟨fun _ _ _ _ => rfl, ⟨fun _ _ _ => trivial, fun _ _ _ => trivial⟩,
        ⟨fun _ _ _ => trivial, fun _ _ _ => trivial⟩⟩ :
      first.Agree (fun _ => none) second (fun _ => True) fun _ => True)
    trivial trivial uri style text

end IndentedSass
