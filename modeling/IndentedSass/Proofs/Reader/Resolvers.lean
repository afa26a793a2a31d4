/-
  What a reading asks of other files.

  A reader sees other files through a resolver only, and of the resolver only what
  the `@import` and `@use` lines of the text ask for.

  * `importedPaths` are the paths that the lines of a text ask for;
  * `Resolver.Simulates`: two resolvers answer these questions alike, as long as
    their states are related by `Rel`, which also knows the files loaded so far;
  * `readFile_simulates`: then the two readings agree, and the states are still
    related; the files that the tree imports at its top level were loaded.
-/
import Mathlib
import IndentedSass.Workspace.Lookup
import IndentedSass.Proofs.Reader.Run
import IndentedSass.Proofs.Scope.Levels

namespace IndentedSass

/-- The paths that a line of a kind asks for. -/
def Line.importedPaths : LineKind → Text → List Text
  | .importPaths, line => ((importPaths? line).getD []).filter fun path => !isPlainCss path
  | .useModule, line => ((UseClause.ofLine? line).map (·.path)).toList
  | _, _ => []

/-- The paths that the `@import` and `@use` lines of a text ask for. -/
def importedPaths (style : IndentStyle) (text : Text) : List Text :=
  let lines := text.lines.map Text.dropReturn
  (List.zipWith Line.importedPaths (Line.kinds style.tabStop none lines) lines).flatten

namespace Tree

variable {node : Node} {nodes nodes' : List Node} {line : Nat} {leaf : Leaf}

theorem leaf_mem_appendAt? {path : TreePath} {i : Nat}
    (h : appendAt? node nodes path = some (nodes', i)) (hmem : .leaf line leaf ∈ nodes') :
    .leaf line leaf ∈ nodes ∨ .leaf line leaf = node := by
  cases path with
  | nil =>
    cases h
    simpa using hmem
  | cons k path =>
    simp only [appendAt?] at h
    split at h
    · obtain ⟨⟨body, j⟩, -, heq⟩ := Option.map_eq_some_iff.1 h
      cases heq
      rcases List.mem_or_eq_of_mem_set hmem with hold | hblock
      · exact .inl hold
      · cases hblock
    · cases h

theorem leaf_mem_modifyAt {path : TreePath}
    (hmem : .leaf line leaf ∈ modifyAt (fun _ => node) nodes path) :
    .leaf line leaf ∈ nodes ∨ .leaf line leaf = node := by
  match path with
  | [] => exact .inl hmem
  | [k] =>
    rcases Nat.lt_or_ge k nodes.length with hlt | hge
    · rw [modifyAt, List.modify_eq_set_getElem?] at hmem
      rw [List.getElem?_eq_getElem hlt] at hmem
      exact List.mem_or_eq_of_mem_set hmem
    · rw [modifyAt, List.modify_eq_self hge] at hmem
      exact .inl hmem
  | k :: j :: path =>
    simp only [modifyAt] at hmem
    split at hmem
    · rcases List.mem_or_eq_of_mem_set hmem with hold | hblock
      · exact .inl hold
      · cases hblock
    · exact .inl hmem

end Tree

theorem mem_getD_of_flatten {α : Type} {b : α} {levels : List (List α)} :
    b ∈ levels.flatten ↔ ∃ k, b ∈ levels.getD k [] := by
  simp only [List.mem_flatten, List.getD_eq_getElem?_getD]
  constructor
  · rintro ⟨items, hitems, hb⟩
    obtain ⟨k, hk⟩ := List.mem_iff_getElem?.1 hitems
    exact ⟨k, by simpa [hk] using hb⟩
  · rintro ⟨k, hb⟩
    cases hk : levels[k]? with
    | none => simp [hk] at hb
    | some items => exact ⟨items, List.mem_of_getElem? hk, by simpa [hk] using hb⟩

theorem mem_flatten_addAtLevel {α : Type} {level : Nat} {a b : α} {levels : List (List α)}
    (h : b ∈ (addAtLevel level a levels).flatten) : b ∈ levels.flatten ∨ b = a := by
  obtain ⟨k, hb⟩ := mem_getD_of_flatten.1 h
  rw [addAtLevel_getD] at hb
  split at hb
  · rcases List.mem_append.1 hb with hold | hnew
    · exact .inl (mem_getD_of_flatten.2 ⟨_, hold⟩)
    · exact .inr (List.mem_singleton.1 hnew)
  · exact .inl (mem_getD_of_flatten.2 ⟨_, hb⟩)

theorem mem_flatten_of_take {α : Type} {n : Nat} {b : α} {levels : List (List α)}
    (h : b ∈ (levels.take n).flatten) : b ∈ levels.flatten := by
  obtain ⟨items, hitems, hb⟩ := List.mem_flatten.1 h
  exact List.mem_flatten.2 ⟨items, List.mem_of_mem_take hitems, hb⟩

/-- A reference finds the same declaration when the visible imports answer alike. -/
theorem Scope.resolve_congr {find find' : Finder} {s : Scope}
    (h : ∀ i ∈ s.imports.flatten, ∀ turn name, find turn i.uri name = find' turn i.uri name) :
    s.resolve find = s.resolve find' := by
  funext name qualifier level
  have hfound :
      ((s.visibleImports level).filter (Imported.admits qualifier)).zipIdx.findSome?
        (fun asked => find asked.2 asked.1.uri name) =
      ((s.visibleImports level).filter (Imported.admits qualifier)).zipIdx.findSome?
        (fun asked => find' asked.2 asked.1.uri name) := by
    rw [← List.head?_filterMap, ← List.head?_filterMap]
    refine congrArg List.head? (List.filterMap_congr fun asked hasked => ?_)
    have hi := List.fst_mem_of_mem_zipIdx hasked
    exact h asked.1 (mem_flatten_of_take (List.mem_of_mem_filter hi)) asked.2 name
  simp only [resolve, hfound]

namespace Reader

variable {loaded loaded' : List Uri} {r : Reader} {info : LineInfo} {line : Text}

/-! ## The files that a reader refers to -/

/-- The files that are imported at the top level or visible are among `loaded`. -/
structure Within (loaded : List Uri) (r : Reader) : Prop where
  nodes : ∀ {n level path v}, Node.leaf n (.importPath level path (some v)) ∈ r.nodes → v ∈ loaded
  scope : ∀ i ∈ r.scope.imports.flatten, i.uri ∈ loaded

/-- The file that a node imports is among `loaded`. -/
def Admissible (loaded : List Uri) (node : Node) : Prop :=
  ∀ n level path v, node = .leaf n (.importPath level path (some v)) → v ∈ loaded

theorem Within.mono (h : r.Within loaded) (hsub : loaded ⊆ loaded') : r.Within loaded' :=
  ⟨fun hmem => hsub (h.nodes hmem), fun i hi => hsub (h.scope i hi)⟩

theorem within_start (loaded : List Uri) (uri : Uri) (style : IndentStyle) :
    (start uri style).Within loaded :=
  ⟨by simp [start], by simp [start]⟩

theorem Within.insert {node : Node} (h : r.Within loaded) (hnode : Admissible loaded node)
    (path : TreePath) : (r.insert node path).1.Within loaded := by
  unfold Reader.insert
  split
  · rename_i happend
    refine ⟨fun hmem => ?_, h.scope⟩
    rcases Tree.leaf_mem_appendAt? happend hmem with hold | hnew
    · exact h.nodes hold
    · exact hnode _ _ _ _ hnew.symm
  · refine ⟨fun hmem => ?_, h.scope⟩
    rcases List.mem_append.1 hmem with hold | hnew
    · exact h.nodes hold
    · exact hnode _ _ _ _ (List.mem_singleton.1 hnew).symm

theorem Within.place (h : r.Within loaded) (info : LineInfo) (line : Text) :
    (r.place info line).1.Within loaded := by
  obtain ⟨ds, hp⟩ := r.place_eq info line
  rw [hp]
  exact ⟨h.nodes, h.scope⟩

theorem Within.flushBlanks (h : r.Within loaded) (path : TreePath) :
    (r.flushBlanks path).Within loaded := by
  have key : ∀ (blanks : List Nat) (r : Reader), r.Within loaded →
      (blanks.foldl (fun r index => (r.insert (.leaf index .blank) path).1) r).Within loaded := by
    intro blanks
    induction blanks with
    | nil => exact fun r h => h
    | cons index blanks ih =>
      intro r h
      exact ih _ (h.insert (fun _ _ _ _ heq => by cases heq) path)
  exact key _ _ ⟨h.nodes, h.scope⟩

theorem Within.addComment {leaf : Leaf} (h : r.Within loaded) (line : Text)
    (hleaf : Admissible loaded (.leaf info.index leaf)) :
    (r.addComment info line leaf).1.Within loaded :=
  (h.place info line).insert hleaf _

theorem Within.truncate (h : r.Within loaded) (level : Nat) :
    { r with scope := r.scope.truncate level }.Within loaded :=
  ⟨h.nodes, fun i hi => h.scope i (mem_flatten_of_take hi)⟩

theorem Within.addLeaf {leaf : Leaf} (h : r.Within loaded)
    (hleaf : Admissible loaded (.leaf info.index leaf)) :
    (r.addLeaf info line leaf).Within loaded :=
  (h.addComment line hleaf).truncate _

theorem Within.addBlock (h : r.Within loaded) (info : LineInfo) (line : Text) (header : Header) :
    (r.addBlock info line header).Within loaded := by
  have hnode : Admissible loaded (.block info.index (r.levelOf info) header []) :=
    fun _ _ _ _ heq => by cases heq
  have hinsert := (h.place info line).insert hnode (r.place info line).2
  exact ⟨hinsert.nodes, fun i hi => hinsert.scope i (mem_flatten_of_take hi)⟩

theorem Within.forbidUse (h : r.Within loaded) : r.forbidUse.Within loaded := ⟨h.nodes, h.scope⟩

theorem Within.report (h : r.Within loaded) (problem : Problem) (range : Range) :
    (r.report problem range).Within loaded := ⟨h.nodes, h.scope⟩

theorem Within.readUnclassified (h : r.Within loaded) :
    (r.readUnclassified info line).Within loaded :=
  (h.forbidUse.report _ _).addLeaf fun _ _ _ _ heq => by cases heq

theorem Within.declareImport (h : r.Within loaded) {imported : Imported}
    (hi : imported.uri ∈ loaded) (level : Nat) :
    { r with scope := r.scope.declareImport imported level }.Within loaded := by
  refine ⟨h.nodes, fun i hmem => ?_⟩
  rcases mem_flatten_addAtLevel hmem with hold | rfl
  · exact h.scope i (mem_flatten_of_take hold)
  · exact hi

/-! ## Readers with other resolvers -/

variable {find find' : Nat → Finder}

theorem Within.lookup_congr (h : r.Within loaded)
    (hfind : ∀ v ∈ loaded, ∀ column turn name, find column turn v name = find' column turn v name) :
    r.lookup find = r.lookup find' := by
  funext column
  exact Scope.resolve_congr fun i hi turn name => hfind i.uri (h.scope i hi) column turn name

theorem readValueAt_congr (h : r.lookup find = r.lookup find') (info : LineInfo) (column : Nat)
    (value : Text) :
    r.readValueAt find info column value = r.readValueAt find' info column value := by
  simp only [readValueAt, h]

theorem readParameters_congr (h : r.lookup find = r.lookup find') (written : List (Text × Nat)) :
    r.readParameters find info written = r.readParameters find' info written := by
  induction written generalizing r with
  | nil => rfl
  | cons first rest ih =>
    obtain ⟨text, column⟩ := first
    cases hd : Line.splitDeclaration? text with
    | none => simp only [readParameters, hd, ih h]
    | some d =>
      have hvalue := readValueAt_congr h info (column + d.column) d.value
      have hrest := ih (r := (r.readValueAt find' info (column + d.column) d.value).1) h
      simp only [readParameters, hd, hvalue, hrest]

theorem Within.readProperty (h : r.Within loaded) :
    (r.readProperty find info line).Within loaded := by
  unfold Reader.readProperty
  split
  · exact h.forbidUse.readUnclassified
  · have hvalue : ∀ ds, { r.forbidUse with diagnostics := ds }.Within loaded :=
      fun _ => ⟨h.nodes, h.scope⟩
    exact (hvalue _).addLeaf fun _ _ _ _ heq => by cases heq

theorem Within.readVariable (h : r.Within loaded) :
    (r.readVariable find info line).Within loaded := by
  unfold Reader.readVariable
  split
  · exact h.readUnclassified
  · rename_i d _
    have hvalue : (r.readValueAt find info d.column d.value).1.Within loaded := ⟨h.nodes, h.scope⟩
    have hleaf : Admissible loaded (.leaf info.index (.variableDecl (r.levelOf info) d.name
        (r.readValueAt find info d.column d.value).2)) := fun _ _ _ _ heq => by cases heq
    have hadd := hvalue.addComment line hleaf
    exact ⟨hadd.nodes, fun i hi => hadd.scope i (mem_flatten_of_take hi)⟩

theorem Within.readMixin (h : r.Within loaded) : (r.readMixin find info line).Within loaded := by
  obtain ⟨ds, hp⟩ := readParameters_eq find r.forbidUse info (MixinClause.ofLine line).parameters
  have hvalue : { r.forbidUse with diagnostics := ds }.Within loaded := ⟨h.nodes, h.scope⟩
  have hkeep : ∀ (parameters : List Parameter) (s : Scope),
      (s.declareAll parameters info.index (r.levelOf info + 1)).imports = s.imports := by
    intro parameters
    induction parameters with
    | nil => exact fun _ => rfl
    | cons p rest ih => exact fun s => ih _
  have hblock := hvalue.addBlock info line (.mixin
    (MixinClause.ofLine line).spelling (MixinClause.ofLine line).name
    ((MixinClause.ofLine line).parameters.map
      (Parameter.ofText (r.forbidUse.lookup find) info.index (r.forbidUse.levelOf info))))
  unfold Reader.readMixin
  simp only [hp]
  refine ⟨hblock.nodes, fun i hi => hblock.scope i ?_⟩
  rw [← hkeep]
  exact hi

theorem Within.readBlockComment (h : r.Within loaded) :
    (r.readBlockComment info line).Within loaded := by
  have hleaf : Admissible loaded
      (.leaf info.index (.blockComment (r.levelOf info) [⟨info.index, line.trim⟩])) :=
    fun _ _ _ _ heq => by cases heq
  have hadd := h.addComment line hleaf
  unfold Reader.readBlockComment
  dsimp only
  split
  · exact ⟨hadd.nodes, hadd.scope⟩
  · exact hadd

theorem Within.readCommentContent (h : r.Within loaded) :
    (r.readCommentContent info line).Within loaded := by
  unfold Reader.readCommentContent
  split
  · exact h
  · dsimp only
    split
    · refine ⟨fun hmem => ?_, h.scope⟩
      rcases Tree.leaf_mem_modifyAt hmem with hold | hnew
      · exact h.nodes hold
      · cases hnew
    · exact ⟨h.nodes, h.scope⟩

theorem Within.readLateUse (h : r.Within loaded) : (r.readLateUse info line).Within loaded :=
  (h.report _ _).addComment line fun _ _ _ _ heq => by cases heq

end Reader

/-! ## Two resolvers -/

section

variable {σ τ : Type}

/-- Two resolvers answer alike what the text of the file `uri` asks for.  `Rel`
    relates their states after the files `loaded` were loaded. -/
structure Resolver.Simulates (first : Resolver σ) (second : Resolver τ)
    (Rel : List Uri → σ → τ → Prop) (uri : Uri) (style : IndentStyle) (paths : List Text) :
    Prop where
  resolve : ∀ {loaded a b path}, Rel loaded a b → path ∈ paths →
    (first.resolve a uri path).1 = (second.resolve b uri path).1 ∧
      Rel loaded (first.resolve a uri path).2 (second.resolve b uri path).2
  load : ∀ {loaded a b path v s t}, Rel loaded a b → path ∈ paths →
    first.resolve a uri path = (some v, s) → second.resolve b uri path = (some v, t) →
    Rel (v :: loaded) (first.load s style v).state (second.load t style v).state
  find : ∀ {loaded a b v}, Rel loaded a b → v ∈ loaded → ∀ line column turn name,
    first.find a line column turn v name = second.find b line column turn v name

/-- Two readings that have come to the same point. -/
structure Reading.Matches (Rel : List Uri → σ → τ → Prop) (loaded : List Uri) (g : Reading σ)
    (g' : Reading τ) : Prop where
  reader : g.reader = g'.reader
  files : Rel loaded g.files g'.files
  within : g.reader.Within loaded

namespace Reading

variable {first : Resolver σ} {second : Resolver τ} {Rel : List Uri → σ → τ → Prop} {uri : Uri}
  {style : IndentStyle} {paths : List Text} {loaded : List Uri} {g : Reading σ} {g' : Reading τ}
  {info : LineInfo} {line : Text}

/-- A change of the reader alone. -/
theorem Matches.change (h : Matches Rel loaded g g') {r : Reader} (hr : r.Within loaded) :
    Matches Rel loaded { g with reader := r } { g' with reader := r } :=
  ⟨rfl, h.files, hr⟩

theorem insert_frame (r : Reader) (node : Node) (path : TreePath) :
    (r.insert node path).1.uri = r.uri ∧ (r.insert node path).1.style = r.style := by
  unfold Reader.insert
  split <;> exact ⟨rfl, rfl⟩

theorem addComment_frame (r : Reader) (info : LineInfo) (line : Text) (leaf : Leaf) :
    (r.addComment info line leaf).1.uri = r.uri ∧
      (r.addComment info line leaf).1.style = r.style := by
  obtain ⟨ds, hp⟩ := r.place_eq info line
  have hframe := insert_frame { r with diagnostics := ds } (.leaf info.index leaf) (r.target info).1
  simpa only [Reader.addComment, hp] using hframe

theorem flushBlanks_frame (r : Reader) (path : TreePath) :
    (r.flushBlanks path).uri = r.uri ∧ (r.flushBlanks path).style = r.style := by
  have key : ∀ (blanks : List Nat) (r : Reader),
      (blanks.foldl (fun r index => (r.insert (.leaf index .blank) path).1) r).uri = r.uri ∧
      (blanks.foldl (fun r index => (r.insert (.leaf index .blank) path).1) r).style = r.style := by
    intro blanks
    induction blanks with
    | nil => exact fun r => ⟨rfl, rfl⟩
    | cons index blanks ih =>
      intro r
      obtain ⟨huri, hstyle⟩ := ih (r.insert (.leaf index .blank) path).1
      obtain ⟨huri', hstyle'⟩ := insert_frame r (.leaf index .blank) path
      exact ⟨huri.trans huri', hstyle.trans hstyle'⟩
  exact key r.pendingBlanks { r with pendingBlanks := [] }

theorem Matches.load (hsim : first.Simulates second Rel uri style paths)
    (h : Matches Rel loaded g g') (hstyle : g.reader.style = style) {a : σ} {b : τ} {path : Text}
    {v : Uri} (hfiles : Rel loaded a b) (hpath : path ∈ paths)
    (hv : first.resolve a uri path = (some v, g.files))
    (hv' : second.resolve b uri path = (some v, g'.files)) (note : Uri → LoadError → Warning) :
    Matches Rel (v :: loaded) (g.load first v note) (g'.load second v note) := by
  refine ⟨h.reader, ?_, h.within.mono (List.subset_cons_self v loaded)⟩
  have hload := hsim.load hfiles hpath hv hv'
  rw [← hstyle] at hload
  show Rel _ (first.load g.files g.reader.style v).state (second.load g'.files g'.reader.style v).state
  rw [← h.reader]
  exact hload

/-- Both find the same file, and go on from states that correspond. -/
theorem Matches.resolve (hsim : first.Simulates second Rel uri style paths)
    (h : Matches Rel loaded g g') (huri : g.reader.uri = uri) {path : Text} (hpath : path ∈ paths) :
    ∃ found s t, first.resolve g.files g.reader.uri path = (found, s) ∧
      second.resolve g'.files g'.reader.uri path = (found, t) ∧ Rel loaded s t := by
  obtain ⟨hsame, hrel⟩ := hsim.resolve h.files hpath
  rw [← h.reader, huri]
  exact ⟨_, _, _, rfl, Prod.ext hsame.symm rfl, hrel⟩

theorem Matches.readImportPath (hsim : first.Simulates second Rel uri style paths)
    (h : Matches Rel loaded g g') (huri : g.reader.uri = uri) (hstyle : g.reader.style = style)
    {path : Text} (hpath : isPlainCss path = false → path ∈ paths) (level : Nat) :
    ∃ loaded', Matches Rel loaded' (readImportPath first info line level g path)
        (readImportPath second info line level g' path) ∧
      (readImportPath first info line level g path).reader.uri = uri ∧
      (readImportPath first info line level g path).reader.style = style := by
  have hframe := addComment_frame g.reader info line
  have hnothing : Reader.Admissible loaded (.leaf info.index (.importPath level path none)) :=
    fun _ _ _ _ heq => by cases heq
  -- where no file is found, the reader alone goes on
  have hnone : ∀ {s : σ} {t : τ}, Rel loaded s t → g.resolveImport first path = (none, s) →
      g'.resolveImport second path = (none, t) → ∃ loaded',
        Matches Rel loaded' (Reading.readImportPath first info line level g path)
          (Reading.readImportPath second info line level g' path) ∧
        (Reading.readImportPath first info line level g path).reader.uri = uri ∧
        (Reading.readImportPath first info line level g path).reader.style = style := by
    intro s t hrel hfound hfound'
    simp only [Reading.readImportPath, hfound, hfound', ← h.reader]
    obtain ⟨huri', hstyle'⟩ := hframe (.importPath level path none)
    exact ⟨loaded, ⟨rfl, hrel, (h.within.addComment line hnothing).truncate level⟩,
      huri'.trans huri, hstyle'.trans hstyle⟩
  cases hcss : isPlainCss path with
  | true => exact hnone h.files (if_pos hcss) (if_pos hcss)
  | false =>
    have hread : (isPlainCss path = true) = False := by simp [hcss]
    obtain ⟨found, s, t, hfound, hfound', hrel⟩ := h.resolve hsim huri (hpath hcss)
    cases found with
    | none =>
      exact hnone hrel ((if_neg hread.mp).trans hfound) ((if_neg hread.mp).trans hfound')
    | some v =>
      have hfirst : g.resolveImport first path = (some v, s) := (if_neg hread.mp).trans hfound
      have hsecond : g'.resolveImport second path = (some v, t) := (if_neg hread.mp).trans hfound'
      rw [huri] at hfound
      rw [← h.reader, huri] at hfound'
      obtain ⟨huri', hstyle'⟩ := hframe (.importPath level path (some v))
      have hleaf : Reader.Admissible (v :: loaded)
          (.leaf info.index (.importPath level path (some v))) := by
        intro _ _ _ _ heq
        cases heq
        exact List.mem_cons_self ..
      have hadd := (h.within.mono (List.subset_cons_self v loaded)).addComment line hleaf
      have hload := hsim.load h.files (hpath hcss) hfound hfound'
      rw [← hstyle, ← hstyle'] at hload
      simp only [Reading.readImportPath, hfirst, hsecond, ← h.reader]
      exact ⟨v :: loaded, ⟨rfl, hload, hadd.declareImport (List.mem_cons_self ..) level⟩,
        huri'.trans huri, hstyle'.trans hstyle⟩

theorem Matches.readImport (hsim : first.Simulates second Rel uri style paths)
    (h : Matches Rel loaded g g') (huri : g.reader.uri = uri) (hstyle : g.reader.style = style)
    (hpaths : Line.importedPaths .importPaths line ⊆ paths) :
    ∃ loaded', Matches Rel loaded' (g.readImport first info line)
      (g'.readImport second info line) := by
  have key : ∀ (level : Nat) (asked : List Text), (∀ path ∈ asked, isPlainCss path = false →
      path ∈ paths) → ∀ {loaded} {g : Reading σ} {g' : Reading τ}, Matches Rel loaded g g' →
      g.reader.uri = uri → g.reader.style = style →
      ∃ loaded', Matches Rel loaded' (asked.foldl (Reading.readImportPath first info line level) g)
        (asked.foldl (Reading.readImportPath second info line level) g') := by
    intro level asked
    induction asked with
    | nil => exact fun _ loaded _ _ h _ _ => ⟨loaded, h⟩
    | cons path rest ih =>
      intro hasked loaded g g' h huri hstyle
      obtain ⟨loaded', hnext, huri', hstyle'⟩ := h.readImportPath hsim huri hstyle
        (hasked path (List.mem_cons_self ..)) level
      exact ih (fun p hp => hasked p (List.mem_cons_of_mem _ hp)) hnext huri' hstyle'
  unfold Reading.readImport
  rw [← h.reader]
  cases hp : importPaths? line with
  | none => exact ⟨loaded, h.change h.within.forbidUse.readUnclassified⟩
  | some asked =>
    cases asked with
    | nil => exact ⟨loaded, h.change h.within.forbidUse.readUnclassified⟩
    | cons path rest =>
      refine key _ (path :: rest) (fun p hmem hcss => hpaths ?_) (h.change h.within.forbidUse)
        huri hstyle
      simp only [Line.importedPaths, hp, Option.getD_some, List.mem_filter]
      exact ⟨hmem, by simp [hcss]⟩

theorem Matches.readUse (hsim : first.Simulates second Rel uri style paths)
    (h : Matches Rel loaded g g') (huri : g.reader.uri = uri) (hstyle : g.reader.style = style)
    (hpaths : Line.importedPaths .useModule line ⊆ paths) :
    ∃ loaded', Matches Rel loaded' (g.readUse first info line) (g'.readUse second info line) := by
  unfold Reading.readUse
  rw [← h.reader]
  by_cases hallowed : g.reader.useAllowed = true
  swap
  · have hlate : (!g.reader.useAllowed) = true := by simpa using hallowed
    rw [if_pos hlate, if_pos hlate]
    exact ⟨loaded, h.change h.within.readLateUse⟩
  · rw [if_neg (by simp [hallowed]), if_neg (by simp [hallowed])]
    cases hclause : UseClause.ofLine? line with
    | none => exact ⟨loaded, h.change h.within.readUnclassified⟩
    | some clause =>
      have hpath : clause.path ∈ paths := hpaths (by simp [Line.importedPaths, hclause])
      obtain ⟨found, s, t, hfound, hfound', hrel⟩ := h.resolve hsim huri hpath
      have hinsert : ∀ target, (g.reader.insert (.leaf info.index
          (.useModule clause.path target clause.qualifier)) []).1.Within loaded :=
        fun target => h.within.insert (fun _ _ _ _ heq => by cases heq) []
      rw [← h.reader] at hfound'
      simp only [hfound, hfound']
      cases found with
      | none => exact ⟨loaded, rfl, hrel, hinsert none⟩
      | some v =>
        obtain ⟨-, hstyle'⟩ := insert_frame g.reader
          (.leaf info.index (.useModule clause.path (some v) clause.qualifier)) []
        have hbefore : Matches Rel loaded ⟨(g.reader.insert (.leaf info.index
            (.useModule clause.path (some v) clause.qualifier)) []).1, s, g.warnings⟩
          ⟨(g.reader.insert (.leaf info.index
            (.useModule clause.path (some v) clause.qualifier)) []).1, t, g'.warnings⟩ :=
          ⟨rfl, hrel, hinsert (some v)⟩
        rw [huri] at hfound hfound'
        have hnext := hbefore.load hsim (hstyle'.trans hstyle) h.files hpath hfound hfound'
          .moduleFailed
        exact ⟨v :: loaded, rfl, hnext.files,
          hnext.within.declareImport (List.mem_cons_self ..) 0⟩

theorem Matches.readKind (hsim : first.Simulates second Rel uri style paths)
    (h : Matches Rel loaded g g') (huri : g.reader.uri = uri) (hstyle : g.reader.style = style)
    {kind : LineKind} (hpaths : Line.importedPaths kind line ⊆ paths) :
    ∃ loaded', Matches Rel loaded' (g.readKind first info line kind)
      (g'.readKind second info line kind) := by
  have hlookup : ∀ {r : Reader}, r.Within loaded →
      r.lookup (first.find g.files info.index) = r.lookup (second.find g'.files info.index) :=
    fun hr => hr.lookup_congr fun v hv => hsim.find h.files hv info.index
  have hleaf : ∀ {leaf : Leaf}, (∀ level path v, leaf ≠ .importPath level path (some v)) →
      Reader.Admissible loaded (.leaf info.index leaf) := by
    rintro leaf hne _ level path v ⟨⟩
    exact absurd rfl (hne level path v)
  obtain ⟨r, files, warnings⟩ := g
  obtain ⟨r', files', warnings'⟩ := g'
  obtain rfl : r = r' := h.reader
  cases kind with
  | blank => exact ⟨loaded, h⟩
  | importPaths => exact h.readImport hsim huri hstyle hpaths
  | useModule => exact h.readUse hsim huri hstyle hpaths
  | mixin =>
    have hsame : r.readMixin (first.find files info.index) info line =
        r.readMixin (second.find files' info.index) info line := by
      simp only [Reader.readMixin, Reader.readParameters_congr (hlookup h.within.forbidUse)]
    simp only [Reading.readKind, hsame]
    exact ⟨loaded, h.change h.within.readMixin⟩
  | property =>
    have hsame : r.readProperty (first.find files info.index) info line =
        r.readProperty (second.find files' info.index) info line := by
      simp only [Reader.readProperty, Reader.readValueAt_congr (hlookup h.within.forbidUse)]
    simp only [Reading.readKind, hsame]
    exact ⟨loaded, h.change h.within.readProperty⟩
  | variableDecl =>
    have hsame : r.readVariable (first.find files info.index) info line =
        r.readVariable (second.find files' info.index) info line := by
      simp only [Reader.readVariable, Reader.readValueAt_congr (hlookup h.within)]
    simp only [Reading.readKind, hsame]
    exact ⟨loaded, h.change h.within.readVariable⟩
  | selector | fontFace => exact ⟨loaded, h.change (h.within.forbidUse.addBlock ..)⟩
  | mixinCall | extendRule =>
    exact ⟨loaded, h.change (h.within.forbidUse.addLeaf (hleaf (by simp)))⟩
  | comment => exact ⟨loaded, h.change (h.within.addComment line (hleaf (by simp)))⟩
  | blockCommentStart => exact ⟨loaded, h.change h.within.readBlockComment⟩
  | blockCommentContent => exact ⟨loaded, h.change h.within.readCommentContent⟩
  | literal => exact ⟨loaded, h.change h.within.readUnclassified⟩

theorem Matches.readLine (hsim : first.Simulates second Rel uri style paths)
    (h : Matches Rel loaded g g') (huri : g.reader.uri = uri) (hstyle : g.reader.style = style)
    (index : Nat) (hpaths : Line.importedPaths (g.reader.kindOf line) line ⊆ paths) :
    ∃ loaded', Matches Rel loaded' (g.readLine first index line) (g'.readLine second index line) := by
  obtain ⟨r, files, warnings⟩ := g
  obtain ⟨r', files', warnings'⟩ := g'
  obtain rfl : r = r' := h.reader
  have hclosed : (if r.kindOf line = .blockCommentContent then r
      else { r with openComment := none }).Within loaded := by
    split
    · exact h.within
    · exact ⟨h.within.nodes, h.within.scope⟩
  have hframe : (if r.kindOf line = .blockCommentContent then r
        else { r with openComment := none }).uri = uri ∧
      (if r.kindOf line = .blockCommentContent then r
        else { r with openComment := none }).style = style := by
    split <;> exact ⟨huri, hstyle⟩
  have hkind : Line.kind r.style.tabStop (r.openComment.map (·.column)) line = r.kindOf line := rfl
  unfold Reading.readLine
  simp only [hkind]
  generalize (if r.kindOf line = .blockCommentContent then r
    else { r with openComment := none }) = r₁ at hclosed hframe
  by_cases hblank : r.kindOf line = .blank
  · rw [if_pos hblank, if_pos hblank]
    exact ⟨loaded, h.change ⟨hclosed.nodes, hclosed.scope⟩⟩
  · rw [if_neg hblank, if_neg hblank]
    obtain ⟨huri', hstyle'⟩ := flushBlanks_frame r₁ (r₁.target (r.lineInfo index line)).1
    exact (h.change (hclosed.flushBlanks _)).readKind hsim (huri'.trans hframe.1)
      (hstyle'.trans hframe.2) hpaths

/-- The kinds of the lines that follow are those they have in the file. -/
theorem Matches.readLines (hsim : first.Simulates second Rel uri style paths) :
    ∀ (lines done : List Text) {loaded : List Uri} {g : Reading σ} {g' : Reading τ},
      Matches Rel loaded g g' → Reader.After uri style done g.reader →
      (List.zipWith Line.importedPaths
        (Line.kinds style.tabStop (Reader.commentOf style done) (lines.map Text.dropReturn))
        (lines.map Text.dropReturn)).flatten ⊆ paths →
      ∃ loaded', Matches Rel loaded' (Reading.readLines first g done.length lines)
        (Reading.readLines second g' done.length lines)
  | [], done, loaded, g, g', h, _, _ => ⟨loaded, h⟩
  | line :: rest, done, loaded, g, g', h, ha, hpaths => by
    rw [List.map_cons, Line.kinds, List.zipWith_cons_cons, List.flatten_cons,
      List.append_subset] at hpaths
    obtain ⟨hline, hrest⟩ := hpaths
    rw [← ha.kindOf_eq] at hline
    obtain ⟨loaded', hnext⟩ := h.readLine hsim ha.uri_eq ha.style_eq done.length hline
    have hafter := ha.step (readLine_reads first ha.sound done.length line.dropReturn)
    have hcomment : Line.commentAfter style.tabStop (Reader.commentOf style done) line.dropReturn =
        Reader.commentOf style (done ++ [line.dropReturn]) := by
      simp [Reader.commentOf]
    rw [hcomment] at hrest
    obtain ⟨loaded'', hlast⟩ := Matches.readLines hsim rest _ hnext hafter hrest
    exact ⟨loaded'', by simpa [Reading.readLines] using hlast⟩

end Reading

/-- Resolvers that answer alike what a text asks for give the same reading. -/
theorem readFile_simulates {first : Resolver σ} {second : Resolver τ}
    {Rel : List Uri → σ → τ → Prop} {uri : Uri} {style : IndentStyle} {text : Text} {a : σ} {b : τ}
    (hsim : first.Simulates second Rel uri style (importedPaths style text)) (h : Rel [] a b) :
    (readFile first a uri style text).reader = (readFile second b uri style text).reader ∧
      ∃ loaded, Rel loaded (readFile first a uri style text).files
          (readFile second b uri style text).files ∧
        ∀ v ∈ (readFile first a uri style text).entry.imports, v ∈ loaded := by
  have hstart : Reading.Matches Rel [] ⟨.start uri style, a, []⟩ ⟨.start uri style, b, []⟩ :=
    ⟨rfl, h, Reader.within_start [] uri style⟩
  obtain ⟨loaded, hend⟩ := hstart.readLines hsim text.lines [] (Reader.after_start uri style)
    (List.Subset.refl _)
  have hflush := hend.within.flushBlanks []
  refine ⟨congrArg (Reader.flushBlanks · []) hend.reader, loaded, hend.files, fun v hv => ?_⟩
  obtain ⟨line, level, path, hmem⟩ := FileEntry.mem_imports.1 hv
  exact hflush.nodes hmem

end

end IndentedSass
