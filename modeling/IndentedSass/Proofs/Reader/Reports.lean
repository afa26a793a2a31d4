/-
  What a reader reports, and what it keeps.

  Reading a line takes nothing back: the tree after it extends the tree before it, and its
  diagnostics come behind those that were there (`Reader.Grows`).

  * `Reading.reports_readKind`: the diagnostics only grow;
  * `Reading.unclassified_readLine`: a line that is nothing known is reported;
  * `Reading.notesDepth_readLine`: a line that is too deep is reported;
  * `Reading.grows_readLines`: reading lines takes nothing back.
-/
import Mathlib
import IndentedSass.Proofs.Reader.Run

namespace IndentedSass

namespace Reader

variable {find : Nat → Finder} {r r' r'' : Reader} {info : LineInfo} {line : Text}

/-! ## The diagnostics of the operations -/

theorem reports_place (r : Reader) (info : LineInfo) (line : Text) :
    r.diagnostics <+: (r.place info line).1.diagnostics := by
  unfold place
  dsimp only
  split
  · exact List.prefix_append ..
  · exact List.prefix_rfl

theorem diagnostics_insert (r : Reader) (node : Node) (path : TreePath) :
    (r.insert node path).1.diagnostics = r.diagnostics := by
  unfold insert
  split <;> rfl

theorem reports_insert (r : Reader) (info : LineInfo) (line : Text) (node : Node) :
    r.diagnostics <+: ((r.place info line).1.insert node (r.place info line).2).1.diagnostics := by
  rw [diagnostics_insert]
  exact reports_place r info line

theorem reports_addComment (r : Reader) (info : LineInfo) (line : Text) (leaf : Leaf) :
    r.diagnostics <+: (r.addComment info line leaf).1.diagnostics := reports_insert r info line _

theorem reports_addLeaf (r : Reader) (info : LineInfo) (line : Text) (leaf : Leaf) :
    r.diagnostics <+: (r.addLeaf info line leaf).diagnostics := reports_insert r info line _

theorem reports_addBlock (r : Reader) (info : LineInfo) (line : Text) (header : Header) :
    r.diagnostics <+: (r.addBlock info line header).diagnostics := reports_insert r info line _

/-! ## The diagnostics of the kinds -/

theorem reports_readUnclassified (r : Reader) (info : LineInfo) (line : Text) :
    r.diagnostics ++ [⟨.unclassifiedLine line, .visible info.index line⟩] <+:
      (r.readUnclassified info line).diagnostics :=
  reports_addLeaf (r.forbidUse.report (.unclassifiedLine line) (.visible info.index line)) info line _

theorem reports_readValueAt (r : Reader) (info : LineInfo) (column : Nat) (value : Text) :
    r.diagnostics <+: (r.readValueAt find info column value).1.diagnostics := List.prefix_append ..

theorem reports_readProperty (r : Reader) (info : LineInfo) (line : Text) :
    r.diagnostics <+: (r.readProperty find info line).diagnostics := by
  unfold readProperty
  cases Line.splitDeclaration? line with
  | none => exact (List.prefix_append ..).trans (reports_readUnclassified r.forbidUse info line)
  | some d =>
    exact (reports_readValueAt r.forbidUse info d.column d.value).trans (reports_addLeaf _ info line _)

theorem reports_readVariable (r : Reader) (info : LineInfo) (line : Text) :
    r.diagnostics <+: (r.readVariable find info line).diagnostics := by
  unfold readVariable
  cases Line.splitDeclaration? line with
  | none => exact (List.prefix_append ..).trans (reports_readUnclassified r info line)
  | some d =>
    exact (reports_readValueAt r info d.column d.value).trans (reports_addComment _ info line _)

theorem reports_readParameters (find : Nat → Finder) (r : Reader) (info : LineInfo)
    (written : List (Text × Nat)) :
    r.diagnostics <+: (r.readParameters find info written).1.diagnostics := by
  induction written generalizing r with
  | nil => exact List.prefix_rfl
  | cons first rest ih =>
    obtain ⟨text, column⟩ := first
    unfold readParameters
    cases Line.splitDeclaration? text with
    | none => exact ih r
    | some d => exact (reports_readValueAt r info (column + d.column) d.value).trans (ih _)

theorem reports_readMixin (r : Reader) (info : LineInfo) (line : Text) :
    r.diagnostics <+: (r.readMixin find info line).diagnostics := by
  have hkept := reports_readParameters find r.forbidUse info (MixinClause.ofLine line).parameters
  unfold readMixin
  dsimp only
  generalize r.forbidUse.readParameters find info (MixinClause.ofLine line).parameters = read at hkept ⊢
  exact hkept.trans (reports_addBlock read.1 info line _)

theorem reports_readBlockComment (r : Reader) (info : LineInfo) (line : Text) :
    r.diagnostics <+: (r.readBlockComment info line).diagnostics := by
  have hadd := reports_addComment r info line
    (.blockComment (r.levelOf info) [⟨info.index, line.trim⟩])
  unfold readBlockComment
  dsimp only
  split <;> exact hadd

theorem diagnostics_readCommentContent (r : Reader) (info : LineInfo) (line : Text) :
    (r.readCommentContent info line).diagnostics = r.diagnostics := by
  unfold readCommentContent
  split
  · rfl
  · dsimp only
    split <;> rfl

theorem reports_readLateUse (r : Reader) (info : LineInfo) (line : Text) :
    r.diagnostics <+: (r.readLateUse info line).diagnostics :=
  (List.prefix_append ..).trans
    (reports_addComment (r.report .useNotTopLevel (.visible info.index line)) info line _)

end Reader

namespace Reading

variable {σ : Type} {g : Reading σ} {info : LineInfo} {line : Text}

theorem reports_readImportPath (resolver : Resolver σ) (g : Reading σ) (info : LineInfo) (line : Text)
    (level : Nat) (path : Text) : g.reader.diagnostics <+:
      (readImportPath resolver info line level g path).reader.diagnostics := by
  unfold readImportPath
  dsimp only
  split <;> exact Reader.reports_addComment ..

theorem reports_readImportPaths (resolver : Resolver σ) (g : Reading σ) (info : LineInfo)
    (line : Text) (level : Nat) (paths : List Text) : g.reader.diagnostics <+:
      (paths.foldl (readImportPath resolver info line level) g).reader.diagnostics := by
  induction paths generalizing g with
  | nil => exact List.prefix_rfl
  | cons path rest ih => exact (reports_readImportPath resolver g info line level path).trans (ih _)

theorem reports_readImport (resolver : Resolver σ) (g : Reading σ) (info : LineInfo) (line : Text) :
    g.reader.diagnostics <+: (g.readImport resolver info line).reader.diagnostics := by
  have hunknown := (List.prefix_append ..).trans
    (Reader.reports_readUnclassified g.reader.forbidUse info line)
  unfold readImport
  dsimp only
  split
  · exact hunknown
  · exact hunknown
  · exact reports_readImportPaths resolver { g with reader := g.reader.forbidUse } info line _ _

theorem reports_readUse (resolver : Resolver σ) (g : Reading σ) (info : LineInfo) (line : Text) :
    g.reader.diagnostics <+: (g.readUse resolver info line).reader.diagnostics := by
  unfold readUse
  split
  · exact Reader.reports_readLateUse g.reader info line
  split
  · exact (List.prefix_append ..).trans (Reader.reports_readUnclassified g.reader info line)
  · dsimp only
    split <;> exact (Reader.diagnostics_insert ..).symm ▸ List.prefix_rfl

/-- What was reported before a line stays reported. -/
theorem reports_readKind (resolver : Resolver σ) (g : Reading σ) (info : LineInfo) (line : Text)
    (kind : LineKind) :
    g.reader.diagnostics <+: (g.readKind resolver info line kind).reader.diagnostics := by
  cases kind with
  | blank => exact List.prefix_rfl
  | blockCommentContent => exact (Reader.diagnostics_readCommentContent ..).symm ▸ List.prefix_rfl
  | selector | fontFace => exact Reader.reports_addBlock g.reader.forbidUse info line _
  | mixinCall | extendRule => exact Reader.reports_addLeaf g.reader.forbidUse info line _
  | mixin => exact Reader.reports_readMixin g.reader info line
  | property => exact Reader.reports_readProperty g.reader info line
  | variableDecl => exact Reader.reports_readVariable g.reader info line
  | comment => exact Reader.reports_addComment g.reader info line _
  | blockCommentStart => exact Reader.reports_readBlockComment g.reader info line
  | importPaths => exact reports_readImport resolver g info line
  | useModule => exact reports_readUse resolver g info line
  | literal => exact (List.prefix_append ..).trans (Reader.reports_readUnclassified g.reader info line)

/-- A line that is nothing known is reported. -/
theorem unclassified_readLine (resolver : Resolver σ) (hs : g.reader.Sound) (index : Nat)
    (hliteral : g.reader.kindOf line = .literal) :
    ∃ d ∈ (g.readLine resolver index line).reader.diagnostics,
      d.problem.code = "unclassifiedLine" := by
  rw [readLine_of_visible resolver hs index (by simp [hliteral]) (by simp [hliteral]), hliteral]
  have hreports := Reader.reports_readUnclassified (g.reader.settled (g.reader.lineInfo index line))
    (g.reader.lineInfo index line) line
  exact ⟨_, hreports.subset (List.mem_append_right _ (List.mem_singleton.2 rfl)), rfl⟩

end Reading

/-! ## Lines that are too deep -/

namespace Reader

variable {find : Nat → Finder} {r r' : Reader} {info : LineInfo}

/-- A line was reported for being too deep. -/
def NotesDepth (r : Reader) : Prop :=
  ∃ d ∈ r.diagnostics, d.problem.code = "invalidIndentation"

theorem NotesDepth.mono (h : r.NotesDepth) (hreports : r.diagnostics <+: r'.diagnostics) :
    r'.NotesDepth := by
  obtain ⟨d, hd, hcode⟩ := h
  exact ⟨d, hreports.subset hd, hcode⟩

theorem notesDepth_place (h : (r.target info).2 = true) (line : Text) :
    (r.place info line).1.NotesDepth := by
  unfold place
  dsimp only
  rw [if_pos h]
  exact ⟨_, List.mem_append_right _ (List.mem_singleton.2 rfl), rfl⟩

theorem notesDepth_addComment (h : (r.target info).2 = true) (line : Text) (leaf : Leaf) :
    (r.addComment info line leaf).1.NotesDepth :=
  (notesDepth_place h line).mono (diagnostics_insert .. ▸ List.prefix_rfl)

theorem notesDepth_addLeaf (h : (r.target info).2 = true) (line : Text) (leaf : Leaf) :
    (r.addLeaf info line leaf).NotesDepth := notesDepth_addComment h line leaf

theorem notesDepth_addBlock (h : (r.target info).2 = true) (line : Text) (header : Header) :
    (r.addBlock info line header).NotesDepth :=
  (notesDepth_place h line).mono (diagnostics_insert .. ▸ List.prefix_rfl)

theorem notesDepth_readUnclassified (h : (r.target info).2 = true) (line : Text) :
    (r.readUnclassified info line).NotesDepth :=
  notesDepth_addLeaf
    (r := r.forbidUse.report (.unclassifiedLine line) (.visible info.index line)) h line _

theorem notesDepth_readProperty (h : (r.target info).2 = true) (line : Text) :
    (r.readProperty find info line).NotesDepth := by
  unfold readProperty
  cases Line.splitDeclaration? line with
  | none => exact notesDepth_readUnclassified (r := r.forbidUse) h line
  | some d =>
    exact notesDepth_addLeaf (r := (r.forbidUse.readValueAt find info d.column d.value).1) h line _

theorem notesDepth_readVariable (h : (r.target info).2 = true) (line : Text) :
    (r.readVariable find info line).NotesDepth := by
  unfold readVariable
  cases Line.splitDeclaration? line with
  | none => exact notesDepth_readUnclassified h line
  | some d =>
    exact notesDepth_addComment (r := (r.readValueAt find info d.column d.value).1) h line _

theorem notesDepth_readMixin (h : (r.target info).2 = true) (line : Text) :
    (r.readMixin find info line).NotesDepth := by
  obtain ⟨ds, hread⟩ := readParameters_eq find r.forbidUse info (MixinClause.ofLine line).parameters
  unfold readMixin
  dsimp only
  rw [hread]
  exact notesDepth_addBlock (r := { r.forbidUse with diagnostics := ds }) h line _

theorem notesDepth_readBlockComment (h : (r.target info).2 = true) (line : Text) :
    (r.readBlockComment info line).NotesDepth := by
  have hadd := notesDepth_addComment h line
    (.blockComment (r.levelOf info) [⟨info.index, line.trim⟩])
  unfold readBlockComment
  dsimp only
  split <;> exact hadd

end Reader

namespace Reading

variable {σ : Type} {g : Reading σ} {info : LineInfo} {line : Text}

theorem notesDepth_readImport (resolver : Resolver σ) (g : Reading σ)
    (h : (g.reader.target info).2 = true) (line : Text) :
    (g.readImport resolver info line).reader.NotesDepth := by
  unfold readImport
  dsimp only
  split
  · exact Reader.notesDepth_readUnclassified (r := g.reader.forbidUse) h line
  · exact Reader.notesDepth_readUnclassified (r := g.reader.forbidUse) h line
  · rename_i paths hne _
    cases paths with
    | nil => exact absurd rfl hne
    | cons path rest =>
      -- the first path is reported
      have hfirst : (readImportPath resolver info line (g.reader.forbidUse.levelOf info)
          { g with reader := g.reader.forbidUse } path).reader.NotesDepth := by
        unfold readImportPath
        dsimp only
        split <;> exact Reader.notesDepth_addComment (r := g.reader.forbidUse) h line _
      exact hfirst.mono (reports_readImportPaths resolver _ info line _ rest)

/-- A line that is deeper than the open blocks allow is reported; a `@use` line, which always goes
    to the top level, may not be. -/
theorem notesDepth_readLine (resolver : Resolver σ) (hs : g.reader.Sound) (index : Nat)
    (hblank : g.reader.kindOf line ≠ .blank) (hcontent : g.reader.kindOf line ≠ .blockCommentContent)
    (huse : g.reader.kindOf line ≠ .useModule)
    (hdeep : (g.reader.target (g.reader.lineInfo index line)).2 = true) :
    (g.readLine resolver index line).reader.NotesDepth := by
  rw [readLine_of_visible resolver hs index hblank hcontent]
  have hdeep : ((g.reader.settled (g.reader.lineInfo index line)).target
    (g.reader.lineInfo index line)).2 = true := hdeep
  generalize g.reader.settled (g.reader.lineInfo index line) = r at hdeep ⊢
  generalize g.reader.lineInfo index line = info at hdeep ⊢
  cases hkind : g.reader.kindOf line with
  | blank => exact absurd hkind hblank
  | blockCommentContent => exact absurd hkind hcontent
  | useModule => exact absurd hkind huse
  | selector | fontFace => exact Reader.notesDepth_addBlock (r := r.forbidUse) hdeep line _
  | mixin => exact Reader.notesDepth_readMixin hdeep line
  | property => exact Reader.notesDepth_readProperty hdeep line
  | variableDecl => exact Reader.notesDepth_readVariable hdeep line
  | mixinCall | extendRule => exact Reader.notesDepth_addLeaf (r := r.forbidUse) hdeep line _
  | importPaths => exact notesDepth_readImport resolver { g with reader := r } hdeep line
  | comment => exact Reader.notesDepth_addComment hdeep line _
  | blockCommentStart => exact Reader.notesDepth_readBlockComment hdeep line
  | literal => exact Reader.notesDepth_readUnclassified hdeep line

end Reading
/-! ## Lines one after the other -/

namespace Reader

variable {find : Nat → Finder} {r r' r'' : Reader} {index : Nat} {line : Text}

/-- What `r` knows of the file, `r'` knows as well. -/
structure Grows (r r' : Reader) : Prop where
  nodes : Tree.Extends r.nodes r'.nodes
  diagnostics : r.diagnostics <+: r'.diagnostics

theorem Grows.refl (r : Reader) : Grows r r := ⟨.refl _, List.prefix_rfl⟩

theorem Grows.trans (h : Grows r r') (h' : Grows r' r'') : Grows r r'' :=
  ⟨h.nodes.trans h'.nodes, h.diagnostics.trans h'.diagnostics⟩

/-- The blank lines that wait at the end of a file are the last of the tree. -/
theorem grows_flushBlanks (r : Reader) : Grows r (r.flushBlanks []) := by
  rw [flushBlanks_eq (show Tree.bodyAt? r.nodes [] = some r.nodes from rfl)]
  exact ⟨Tree.extends_graft _ rfl, List.prefix_rfl⟩

end Reader

namespace Reading

variable {σ : Type} {g : Reading σ}

theorem grows_readLine (resolver : Resolver σ) (hs : g.reader.Sound) (index : Nat) (line : Text) :
    Reader.Grows g.reader (g.readLine resolver index line).reader := by
  refine ⟨(readLine_reads resolver hs index line).extends hs, ?_⟩
  by_cases hblank : g.reader.kindOf line = .blank
  · rw [readLine_of_blank resolver index hblank]
  by_cases hcontent : g.reader.kindOf line = .blockCommentContent
  · rw [readLine_of_content resolver hs index hcontent, Reader.diagnostics_readCommentContent]
  · rw [readLine_of_visible resolver hs index hblank hcontent]
    exact reports_readKind resolver
      { g with reader := g.reader.settled (g.reader.lineInfo index line) } _ line _

/-- Reading lines takes nothing back. -/
theorem grows_readLines (resolver : Resolver σ) (hs : g.reader.Sound) (index : Nat)
    (lines : List Text) : Reader.Grows g.reader (readLines resolver g index lines).reader := by
  induction lines generalizing g index with
  | nil => exact .refl _
  | cons line rest ih =>
    have hsound := (readLine_reads resolver hs index line.dropReturn).sound hs
    exact (grows_readLine resolver hs index line.dropReturn).trans (ih hsound (index + 1))

end Reading

end IndentedSass
