/-
  Files that are read again.

  A session opens, changes and closes documents, loads files, and finds another disk each time.
  When a file is read again, the files it imports are taken from what was kept as long as their
  own text is unchanged.  What these import in turn is then not looked at.

  * `Registry.replay`: the registry and the disk after such events; `Registry.renewed` is the
    registry of a new session with the same documents;
  * `Registry.Shaped`: what is kept for a file has the shape of the text it was read from, after
    every history (`shaped_replay`);
  * `Registry.Tended`: what is kept for the files that can be reached is not out of date in what
    it imports;
  * `Registry.loadInChain_renews`: files that are loaded stay tended, and a file that is read
    again is what a new registry reads;
  * `Registry.result_reload`: hence reading a file again is as good as a new session.
-/
import Mathlib
import IndentedSass.Proofs.Reader.Shape
import IndentedSass.Proofs.Workspace.History

namespace IndentedSass

/-! ## What the shape of a file tells -/

theorem FileEntry.lines_of_shape {e : Option Uri → Option Uri} {first second : FileEntry}
    (h : first.shape e = second.shape e) (name : Text) :
    (first.topLevelVariable? name).map VariableDecl.line =
      (second.topLevelVariable? name).map VariableDecl.line := by
  have hshape : ∀ entry : FileEntry,
      ((entry.shape e).topLevelVariable? name).map VariableDecl.line =
        (entry.topLevelVariable? name).map VariableDecl.line := by
    intro entry
    simp only [topLevelVariable?, FileEntry.shape, Tree.shape_eq_map, ← List.map_reverse,
      List.findSome?_map, List.map_findSome?]
    congr 1
    funext node
    cases node with
    | block => rfl
    | leaf line leaf =>
      cases leaf with
      | variableDecl level own value =>
        simp only [Function.comp_apply, Node.shape, Leaf.shape]
        split <;> rfl
      | _ => rfl
  rw [← hshape first, h, hshape second]

/-- The shape of a reading is that of the text read on its own. -/
theorem readFile_shape_detached {σ : Type} (resolver : Resolver σ) (files : σ) (uri : Uri)
    (style : IndentStyle) (text : Text) :
    (readFile resolver files uri style text).entry.shape (fun _ => none) =
      (readDetached uri style text).shape fun _ => none :=
  readFile_shape_congr
    (⟨fun _ _ _ _ => rfl, ⟨fun _ _ _ => trivial, fun _ _ _ => trivial⟩,
        ⟨fun _ _ _ => trivial, fun _ _ _ => trivial⟩⟩ :
      resolver.Agree (fun _ => none) .detached (fun _ => True) fun _ => True)
    trivial trivial uri style text

/-- What a resolver keeps, reading a file keeps. -/
theorem readFile_keeps {σ : Type} {resolver : Resolver σ} {P : σ → Prop}
    (hkeeps : resolver.Keeps P) {files : σ} (h : P files) (uri : Uri) (style : IndentStyle)
    (text : Text) : P (readFile resolver files uri style text).files := by
  have hsim : resolver.Simulates resolver (fun _ a b => a = b ∧ P a) uri style
      (importedPaths style text) := by
    refine ⟨fun {_ a b path} ⟨hab, hp⟩ _ => ?_, fun {_ a b path v s t} ⟨hab, hp⟩ _ hv hv' => ?_,
      fun ⟨hab, _⟩ _ _ _ _ _ => by rw [hab]⟩
    · subst hab
      exact ⟨rfl, rfl, hkeeps.resolve hp uri path⟩
    · subst hab
      obtain ⟨-, rfl⟩ := Prod.mk.inj (hv.symm.trans hv')
      have hs := hkeeps.resolve hp uri path
      rw [hv] at hs
      exact ⟨rfl, hkeeps.load hs style v⟩
  obtain ⟨-, loaded, ⟨-, hp⟩, -⟩ := readFile_simulates hsim ⟨rfl, h⟩
  exact hp

namespace Registry

/-! ## Histories -/

/-- What can happen in a session. -/
inductive Event where
  /-- A file is asked for. -/
  | load (style : IndentStyle) (uri : Uri)
  /-- A file is read again. -/
  | reload (style : IndentStyle) (uri : Uri)
  /-- A document is opened. -/
  | openDocument (uri : Uri) (text : Text) (version : Int)
  /-- A document is changed. -/
  | changeDocument (uri : Uri) (changes : List Change) (version : Int)
  /-- A document is closed. -/
  | closeDocument (uri : Uri)
  /-- Files on disk are changed. -/
  | changeDisk (disk : Disk)

/-- The registry and the disk after an event. -/
def replayOne : Registry × Disk → Event → Registry × Disk
  | (g, disk), .load style uri => ((g.load disk style uri).registry, disk)
  | (g, disk), .reload style uri => ((g.reload disk style uri).registry, disk)
  | (g, disk), .openDocument uri text version => (g.openDocument uri text version, disk)
  | (g, disk), .changeDocument uri changes version => ((g.changeDocument uri changes version).1, disk)
  | (g, disk), .closeDocument uri => (g.closeDocument uri, disk)
  | (g, _), .changeDisk disk => (g, disk)

/-- The registry and the disk after the events of a session. -/
def replay (disk : Disk) (events : List Event) : Registry × Disk :=
  events.foldl replayOne ({}, disk)

/-- The registry of a new session with the same documents. -/
def renewed (g : Registry) : Registry := { documents := g.documents }

variable {disk : Disk} {style : IndentStyle} {base g x y : Registry} {R : Set Uri} {u v w : Uri}

/-- What is kept for a file has the shape of the text it was read from. -/
def Shaped (g : Registry) : Prop := ∀ v file, g.files.get? v = some file →
  file.entry.shape (fun _ => none) = (readDetached v file.style file.text).shape fun _ => none

theorem Shaped.store (h : g.Shaped) (v : Uri) {file : StoredFile}
    (hfile : file.entry.shape (fun _ => none) =
      (readDetached v file.style file.text).shape fun _ => none) : (g.store v file).Shaped := by
  intro w file' hget
  simp only [Registry.store, Table.get?_insert] at hget
  split at hget
  · rename_i hw
    cases hget
    rw [hw]
    exact hfile
  · exact h w file' hget

theorem Shaped.forget (h : g.Shaped) (v : Uri) : (g.forget v).Shaped := by
  intro w file hget
  simp only [Registry.forget, Table.get?_erase] at hget
  split at hget
  · cases hget
  · exact h w file hget

theorem Shaped.loadInChain (disk : Disk) (bound : Nat) (chain : List Uri) (style : IndentStyle)
    (v : Uri) (h : g.Shaped) : (loadInChain disk bound chain g style v).registry.Shaped := by
  induction bound generalizing chain g style v with
  | zero => exact h
  | succ bound ih =>
    unfold Registry.loadInChain
    split
    · exact h
    split
    · exact h
    split
    · exact h
    · have hkeeps : (resolver disk (Registry.loadInChain disk bound (chain ++ [v]))).Keeps Shaped :=
        ⟨fun ha _ _ => ha, fun ha style uri => ih (chain ++ [v]) style uri ha⟩
      exact (readFile_keeps hkeeps h v style _).store v (readFile_shape_detached ..)

theorem Shaped.replayOne {s : Registry × Disk} (h : s.1.Shaped) (event : Event) :
    (replayOne s event).1.Shaped := by
  obtain ⟨g, disk⟩ := s
  cases event with
  | load style uri => exact Shaped.loadInChain disk _ [] style uri h
  | reload style uri => exact Shaped.loadInChain disk _ [] style uri (h.forget uri)
  | changeDocument uri changes version =>
    simp only [Registry.replayOne, Registry.changeDocument]
    split <;> exact h
  | openDocument | closeDocument | changeDisk => exact h

/-- After every history, what is kept has the shape of the text it was read from. -/
theorem shaped_replay (disk : Disk) (events : List Event) : (replay disk events).1.Shaped := by
  induction events using List.reverseRecOn with
  | nil => exact fun _ _ hfile => nomatch hfile
  | append_singleton events event ih =>
    rw [replay, List.foldl_append]
    exact ih.replayOne event

/-! ## Files that are not out of date -/

/-- What the registry `g` keeps for a file was read from its current text; `base` is the
    registry of a new session. -/
def Current (disk : Disk) (style : IndentStyle) (base g : Registry) (v : Uri) : Prop :=
  ∃ file, g.files.get? v = some file ∧ base.readText disk v = .ok file.text ∧ file.style = style

/-- Whether what is kept for a file was read from its current text can be told. -/
instance (disk : Disk) (style : IndentStyle) (base g : Registry) (v : Uri) :
    Decidable (Current disk style base g v) :=
  match hfile : g.files.get? v, hread : base.readText disk v with
  | some file, .ok text =>
    if h : file.text = text ∧ file.style = style then
      isTrue ⟨file, hfile, by rw [hread, h.1], h.2⟩
    else isFalse fun ⟨file', hfile', htext, hstyle⟩ => by
      cases hfile.symm.trans hfile'
      exact h ⟨(Except.ok.inj (hread.symm.trans htext)).symm, hstyle⟩
  | some _, .error _ => isFalse fun ⟨_, _, htext, _⟩ => by simp [hread] at htext
  | none, _ => isFalse fun ⟨_, hfile', _⟩ => by simp [hfile] at hfile'

/-- Nothing that the registry `g` keeps for the files of `R` is out of date: nothing is kept for
    a file that cannot be read, and a file whose own text is unchanged imports what it imports
    in a new session, from files whose text is unchanged too. -/
structure Tended (disk : Disk) (style : IndentStyle) (base : Registry) (R : Set Uri)
    (g : Registry) : Prop where
  readable : ∀ v ∈ R, g.Keeps v → base.Readable disk v
  imports : ∀ v ∈ R, ∀ file entry, g.files.get? v = some file →
    base.readText disk v = .ok file.text → file.style = style →
    (base.load disk style v).result = .ok entry →
      file.entry.imports = entry.imports ∧
        ∀ w ∈ entry.imports, base.Readable disk w → Current disk style base g w

/-- A registry in the session of `base` that keeps nothing out of date for the files of `R`. -/
structure Follows (disk : Disk) (style : IndentStyle) (base : Registry) (R : Set Uri)
    (g : Registry) : Prop where
  documents : g.documents = base.documents
  shaped : g.Shaped
  tended : Tended disk style base R g

theorem Current.readable (h : Current disk style base g v) : base.Readable disk v := by
  obtain ⟨file, -, htext, -⟩ := h
  exact ⟨file.text, htext⟩

theorem Current.keeps (h : Current disk style base g v) : g.Keeps v := by
  obtain ⟨file, hfile, -⟩ := h
  exact ⟨file, hfile⟩

theorem Current.store {text : Text} (h : Current disk style base g w)
    (htext : base.readText disk v = .ok text) (entry : FileEntry) :
    Current disk style base (g.store v ⟨text, style, entry⟩) w := by
  obtain ⟨file, hfile, hcurrent, hstyle⟩ := h
  by_cases hwv : w = v
  · subst hwv
    exact ⟨_, Table.get?_insert_self .., htext, rfl⟩
  · exact ⟨file, (Table.get?_insert_of_ne _ _ hwv).trans hfile, hcurrent, hstyle⟩

/-- What a new registry reads. -/
theorem load_spec (hnew : base.files = .empty) {entry : FileEntry}
    (h : (base.load disk style v).result = .ok entry) :
    ∃ text, base.readText disk v = .ok text ∧
      entry.shape (fun _ => none) = (readDetached v style text).shape fun _ => none := by
  obtain ⟨limit, hlimit⟩ : ∃ k, base.chainBound = k + 1 := ⟨_, rfl⟩
  rw [Registry.load, hlimit] at h
  cases hread : base.readText disk v with
  | error e =>
    rw [loadInChain_of_error List.not_mem_nil hread] at h
    cases h
  | ok text =>
    have hnone : base.stored? v text style = none := by simp [stored?, hnew]
    rw [loadInChain_of_new List.not_mem_nil hread hnone] at h
    cases h
    exact ⟨text, rfl, readFile_shape_detached ..⟩

/-- What a new registry reads imports files that its text links to. -/
theorem links_of_load (hnew : base.files = .empty)
    (hacyclic : ∀ u, ¬Relation.TransGen (base.Links disk style) u u) {entry : FileEntry}
    (h : (base.load disk style v).result = .ok entry) (hw : w ∈ entry.imports) :
    base.Links disk style v w := by
  obtain ⟨text, htext, -⟩ := load_spec hnew h
  have hloads := load_loads hnew hacyclic (settled_new hnew ∅) (u := v) fun _ _ =>
    Set.notMem_empty _
  obtain ⟨file, hfile⟩ := hloads.stored ⟨text, htext⟩
  have hsame : file.entry = entry := Except.ok.inj ((hloads.settled.entry hfile).symm.trans h)
  exact hloads.settled.links hfile (hsame ▸ hw)

/-! ## Looking for variables -/

/-- A registry that keeps nothing out of date finds variables where a registry finds them that
    keeps what a new one reads. -/
theorem Follows.find_eq (hnew : base.files = .empty) (hx : Follows disk style base R x)
    (hy : base.Settled disk style ∅ y) (hR : ∀ v ∈ R, ∀ w, base.Links disk style v w → w ∈ R)
    (hv : v ∈ R) (hkept : base.Readable disk v → Current disk style base x v ∧ y.Keeps v)
    (name : Text) :
    (x.findVariable? v name).map FoundVariable.location =
      (y.findVariable? v name).map FoundVariable.location := by
  have hsame : ∀ {w file file'}, w ∈ R → x.files.get? w = some file →
      base.readText disk w = .ok file.text → file.style = style → y.files.get? w = some file' →
      file.entry.Offers VariableDecl.line file'.entry ∧
        ∀ z ∈ file.entry.imports, base.Links disk style w z ∧
          (base.Readable disk z → Current disk style base x z ∧ y.Keeps z) := by
    intro w file file' hw hfile htext hstyle hfile'
    obtain ⟨himports, hcurrent⟩ :=
      hx.tended.imports w hw file file'.entry hfile htext hstyle (hy.entry hfile')
    obtain ⟨text, htext', hshape⟩ := load_spec hnew (hy.entry hfile')
    cases htext.symm.trans htext'
    have hshapes : file.entry.shape (fun _ => none) = file'.entry.shape fun _ => none := by
      rw [hx.shaped w file hfile, hshape, hstyle]
    refine ⟨⟨himports, FileEntry.lines_of_shape hshapes⟩, fun z hz => ?_⟩
    · rw [himports] at hz
      exact ⟨hy.links hfile' hz, fun hread =>
        ⟨hcurrent z hz hread, hy.imports hfile' hz (Set.notMem_empty z) hread⟩⟩
  have hoffers : ∀ w ∈ {w | w ∈ R ∧ (base.Readable disk w →
      Current disk style base x w ∧ y.Keeps w)},
      Option.Rel (FileEntry.Offers VariableDecl.line) (x.entry? w) (y.entry? w) := by
    rintro w ⟨hw, hread⟩
    by_cases hcan : base.Readable disk w
    · obtain ⟨⟨file, hfile, htext, hstyle⟩, file', hfile'⟩ := hread hcan
      simp only [hfile, hfile', entry?, Option.map_some]
      exact .some (hsame hw hfile htext hstyle hfile').1
    · have hnone : ∀ {g : Registry}, (g.Keeps w → base.Readable disk w) → g.entry? w = none := by
        intro g hg
        cases hfile : g.files.get? w with
        | none => simp [hfile, entry?]
        | some file => exact absurd (hg ⟨file, hfile⟩) hcan
      rw [hnone (hx.tended.readable w hw), hnone hy.readable]
      exact .none
  have hfound := findFrom?_map_congr VariableDecl.line _ hoffers (fun w hw entry hentry z hz => ?_)
    name [] [v] (by simpa using ⟨hv, hkept⟩)
  · have hlocation : ∀ found : Option FoundVariable, found.map FoundVariable.location =
        (found.map fun f => (f.uri, f.decl.line)).map fun p => ⟨p.1, p.2⟩ := by
      intro found
      cases found <;> rfl
    rw [hlocation, hlocation]
    exact congrArg _ hfound.symm
  · obtain ⟨hw, hread⟩ := hw
    obtain ⟨file, hfile, rfl⟩ := Option.map_eq_some_iff.1 hentry
    obtain ⟨⟨file₁, hfile₁, htext, hstyle⟩, file', hfile'⟩ :=
      hread (hx.tended.readable w hw ⟨file, hfile⟩)
    cases hfile.symm.trans hfile₁
    obtain ⟨hlink, hkept⟩ := (hsame hw hfile htext hstyle hfile').2 z hz
    exact ⟨hR w hw z hlink, hkept⟩

/-! ## Loading a file -/

/-- What loading a file `v` from the registry `g` gives. -/
structure Renews (disk : Disk) (style : IndentStyle) (base : Registry) (R : Set Uri) (v : Uri)
    (g : Registry) (l : Loading) : Prop where
  follows : Follows disk style base R l.registry
  current : base.Readable disk v → Current disk style base l.registry v
  kept : ∀ w, Current disk style base g w → Current disk style base l.registry w
  result : ¬Current disk style base g v → l.result = (base.load disk style v).result

/-- The registry keeps a file that was just read. -/
theorem Follows.store {text : Text} {entry : FileEntry} (h : Follows disk style base R g)
    (htext : base.readText disk v = .ok text) (hentry : (base.load disk style v).result = .ok entry)
    (hshape : entry.shape (fun _ => none) = (readDetached v style text).shape fun _ => none)
    (himports : ∀ w ∈ entry.imports, base.Readable disk w → Current disk style base g w) :
    Follows disk style base R (g.store v ⟨text, style, entry⟩) := by
  have hcases : ∀ {w file}, (g.store v ⟨text, style, entry⟩).files.get? w = some file →
      (w = v ∧ file = ⟨text, style, entry⟩) ∨ g.files.get? w = some file := by
    intro w file hfile
    simp only [Registry.store, Table.get?_insert] at hfile
    split at hfile
    · rename_i hwv
      exact .inl ⟨hwv, (Option.some.inj hfile).symm⟩
    · exact .inr hfile
  refine ⟨h.documents, h.shaped.store v hshape, ⟨?_, ?_⟩⟩
  · rintro w hw ⟨file, hfile⟩
    rcases hcases hfile with ⟨rfl, -⟩ | hold
    · exact ⟨text, htext⟩
    · exact h.tended.readable w hw ⟨file, hold⟩
  · intro w hw file entry' hfile hcurrent hstyle hload
    rcases hcases hfile with ⟨rfl, rfl⟩ | hold
    · cases hload.symm.trans hentry
      exact ⟨rfl, fun z hz hread => (himports z hz hread).store htext _⟩
    · obtain ⟨hsame, hnext⟩ := h.tended.imports w hw file entry' hold hcurrent hstyle hload
      exact ⟨hsame, fun z hz hread => (hnext z hz hread).store htext _⟩

/-- Two ways to load files that are right for what `v` links to, one of them from a registry that
    keeps nothing out of date and the other from one that keeps what a new one reads, read `v`
    alike. -/
theorem Follows.readFile_eq {load load' : Registry → IndentStyle → Uri → Loading} {text : Text}
    (hnew : base.files = .empty) (htext : base.readText disk v = .ok text)
    (hR : ∀ v ∈ R, ∀ w, base.Links disk style v w → w ∈ R)
    (hv : ∀ w, base.Links disk style v w → w ∈ R)
    (hload : ∀ {w x}, base.Links disk style v w → Follows disk style base R x →
      Renews disk style base R w x (load x style w))
    (hload' : ∀ {w y}, base.Links disk style v w → base.Settled disk style ∅ y →
      Loads disk style base ∅ w y (load' y style w))
    (hx : Follows disk style base R x) (hy : base.Settled disk style ∅ y) :
    (readFile (resolver disk load) x v style text).reader =
        (readFile (resolver disk load') y v style text).reader ∧
      Follows disk style base R (readFile (resolver disk load) x v style text).files ∧
      (∀ w, Current disk style base x w →
        Current disk style base (readFile (resolver disk load) x v style text).files w) ∧
      ∀ w ∈ (readFile (resolver disk load) x v style text).entry.imports, base.Readable disk w →
        Current disk style base (readFile (resolver disk load) x v style text).files w := by
  have hsim : (resolver disk load).Simulates (resolver disk load')
      (fun loaded a b => Follows disk style base R a ∧ base.Settled disk style ∅ b ∧
        (∀ w, Current disk style base x w → Current disk style base a w) ∧
        ∀ w ∈ loaded, base.Links disk style v w ∧
          (base.Readable disk w → Current disk style base a w ∧ b.Keeps w))
      v style (importedPaths style text) := by
    refine ⟨fun {_ a b _} h _ => ⟨?_, h⟩,
      fun {_ a b _ w _ _} ⟨ha, hb, hkept, hloaded⟩ hpath hw hw' => ?_,
      fun {_ a b w} ⟨ha, hb, _, hloaded⟩ hw _ _ _ name => ?_⟩
    · exact (resolve?_congr h.1.documents v _).trans (resolve?_congr h.2.1.documents v _).symm
    · obtain ⟨hfound, rfl⟩ := Prod.mk.inj hw
      obtain ⟨-, rfl⟩ := Prod.mk.inj hw'
      have hlink : base.Links disk style v w :=
        ⟨text, htext, _, hpath, (resolve?_congr ha.documents v _).symm.trans hfound⟩
      have hl := hload hlink ha
      have hl' := hload' hlink hb
      have hsettled := hl'.settled
      rw [Set.empty_sdiff] at hsettled
      refine ⟨hl.follows, hsettled, fun z hz => hl.kept z (hkept z hz),
        fun z hz => ?_⟩
      rcases List.mem_cons.1 hz with rfl | hz
      · exact ⟨hlink, fun hread => ⟨hl.current hread, hl'.stored hread⟩⟩
      · obtain ⟨hlink', hkeeps⟩ := hloaded z hz
        exact ⟨hlink', fun hread =>
          ⟨hl.kept z (hkeeps hread).1, hl'.kept (hkeeps hread).2⟩⟩
    · obtain ⟨hlink, hkeeps⟩ := hloaded w hw
      exact ha.find_eq hnew hb hR (hv w hlink) hkeeps name
  obtain ⟨hreader, loaded, ⟨hfollows, -, hkept, hloaded⟩, himports⟩ :=
    readFile_simulates hsim ⟨hx, hy, fun _ h => h, fun w hw => by cases hw⟩
  exact ⟨hreader, hfollows, hkept, fun w hw hread => ((hloaded w (himports w hw)).2 hread).1⟩

/-- Loading a file leaves nothing out of date.  The induction is on the length of the chains
    that start at the file. -/
theorem loadInChain_renews (hnew : base.files = .empty)
    (hacyclic : ∀ u, ¬Relation.TransGen (base.Links disk style) u u)
    (hR : ∀ v ∈ R, ∀ w, base.Links disk style v w → w ∈ R) :
    ∀ (n : Nat) {v : Uri}, (∀ l, List.IsChain (base.Links disk style) (v :: l) → l.length < n) →
      (∀ w, base.Links disk style v w → w ∈ R) →
      ∀ {g : Registry} {bound : Nat} {chain : List Uri}, Follows disk style base R g →
        List.IsChain (base.Links disk style) (chain ++ [v]) →
        bound + chain.length = base.chainBound →
        Renews disk style base R v g (loadInChain disk bound chain g style v) := by
  intro n
  induction n with
  | zero => exact fun hlong => absurd (hlong [] (.singleton _)) (Nat.not_lt_zero _)
  | succ n ih =>
    intro v hlong hv g bound chain hg hchain hbound
    obtain ⟨hmem, bound, rfl⟩ := chain_room hacyclic hchain hbound
    obtain ⟨limit, hlimit⟩ : ∃ k, base.chainBound = k + 1 := ⟨_, rfl⟩
    have hbase : base.load disk style v = loadInChain disk (limit + 1) [] base style v := by
      rw [Registry.load, hlimit]
    have hframe : g.readText disk v = base.readText disk v := readText_congr hg.documents v
    cases hread : base.readText disk v with
    | error e =>
      rw [loadInChain_of_error hmem (hframe.trans hread)]
      refine ⟨hg, fun hcan => ?_, fun _ h => h, fun _ => ?_⟩
      · obtain ⟨text, htext⟩ := hcan
        rw [htext] at hread
        cases hread
      · rw [hbase, loadInChain_of_error List.not_mem_nil hread]
    | ok text =>
      cases hstored : g.stored? v text style with
      | some entry =>
        have hcurrent : Current disk style base g v := by
          unfold stored? at hstored
          split at hstored
          · rename_i file hfile
            split at hstored
            · rename_i hsame
              exact ⟨file, hfile, hsame.1 ▸ hread, hsame.2⟩
            · cases hstored
          · cases hstored
        rw [loadInChain_of_stored hmem (hframe.trans hread) hstored]
        exact ⟨hg, fun _ => hcurrent, fun _ h => h, fun h => absurd hcurrent h⟩
      | none =>
        have hnone : base.stored? v text style = none := by simp [stored?, hnew]
        have hload : ∀ {w x}, base.Links disk style v w → Follows disk style base R x →
            Renews disk style base R w x (loadInChain disk bound (chain ++ [v]) x style w) := by
          intro w x hlink hx
          refine ih (fun l hl => ?_) (hR w (hv w hlink)) hx (hlink.concat hchain) ?_
          · have := hlong (w :: l) (.cons_cons hlink hl)
            simpa using this
          · rw [List.length_append, List.length_singleton]
            omega
        have hload' : ∀ {w y}, base.Links disk style v w → base.Settled disk style ∅ y →
            Loads disk style base ∅ w y (loadInChain disk limit ([] ++ [v]) y style w) := by
          intro w y hlink hy
          refine loadInChain_loads hnew hacyclic base.chainBound (fun l hl => ?_) hy
            (fun z _ => Set.notMem_empty z) (hlink.concat (.singleton v)) hlimit.symm
          exact chain_length_le hl (List.nodup_cons.1 (chain_nodup hacyclic hl)).2
        obtain ⟨hreader, hfollows, hkept, himports⟩ := Follows.readFile_eq hnew hread hR hv hload
          hload' hg (settled_new hnew ∅)
        have hsame : (base.load disk style v).result =
            .ok (readFile (resolver disk (loadInChain disk bound (chain ++ [v]))) g v style
              text).entry := by
          rw [hbase, loadInChain_of_new List.not_mem_nil hread hnone]
          exact congrArg (fun r : Reader => Except.ok (FileEntry.mk r.nodes r.diagnostics))
            hreader.symm
        rw [loadInChain_of_new hmem (hframe.trans hread) hstored]
        exact ⟨hfollows.store hread hsame (readFile_shape_detached ..) himports,
          fun _ => ⟨_, Table.get?_insert_self .., hread, rfl⟩,
          fun w hw => (hkept w hw).store hread _, fun _ => hsame.symm⟩

/-! ## Reading a file again -/

theorem Follows.forget (hnew : base.files = .empty)
    (hacyclic : ∀ u, ¬Relation.TransGen (base.Links disk style) u u)
    (hR : ∀ v ∈ R, ∀ w, base.Links disk style v w → w ∈ R) (hu : u ∉ R)
    (h : Follows disk style base R g) : Follows disk style base R (g.forget u) := by
  have hget : ∀ {v file}, (g.forget u).files.get? v = some file → g.files.get? v = some file := by
    intro v file hfile
    simp only [Registry.forget, Table.get?_erase] at hfile
    split at hfile
    · cases hfile
    · exact hfile
  refine ⟨h.documents, h.shaped.forget u, ⟨?_, ?_⟩⟩
  · rintro v hv ⟨file, hfile⟩
    exact h.tended.readable v hv ⟨file, hget hfile⟩
  · intro v hv file entry hfile htext hstyle hload
    obtain ⟨hsame, hnext⟩ := h.tended.imports v hv file entry (hget hfile) htext hstyle hload
    refine ⟨hsame, fun w hw hread => ?_⟩
    obtain ⟨file', hfile', htext', hstyle'⟩ := hnext w hw hread
    -- the file that is forgotten is not among those that can be reached
    have hwu : w ≠ u := by
      rintro rfl
      exact hu (hR v hv w (links_of_load hnew hacyclic hload hw))
    exact ⟨file', (Table.get?_erase_of_ne _ hwu).trans hfile', htext', hstyle'⟩

/-- After every history, reading a file again gives what a new session gives, when no file leads
    back to itself and nothing that is kept for the files it leads to is out of date. -/
theorem result_reload {disk₀ disk : Disk} {events : List Event} {g : Registry} {style : IndentStyle}
    {u : Uri} (hreplay : replay disk₀ events = (g, disk))
    (hacyclic : ∀ v, ¬Relation.TransGen (g.renewed.Links disk style) v v)
    (htended : Tended disk style g.renewed
      {v | Relation.TransGen (g.renewed.Links disk style) u v} g) :
    (g.reload disk style u).result = (g.renewed.reload disk style u).result := by
  have hshaped : g.Shaped := by
    have hall := shaped_replay disk₀ events
    rwa [hreplay] at hall
  have hR : ∀ v ∈ {v | Relation.TransGen (g.renewed.Links disk style) u v}, ∀ w,
      g.renewed.Links disk style v w → Relation.TransGen (g.renewed.Links disk style) u w :=
    fun v hv w hlink => Relation.TransGen.tail hv hlink
  have hfollows : Follows disk style g.renewed _ (g.forget u) :=
    Follows.forget rfl hacyclic hR (hacyclic u) ⟨rfl, hshaped, htended⟩
  have hrenews : Renews disk style g.renewed _ u (g.forget u) ((g.forget u).load disk style u) :=
    loadInChain_renews rfl hacyclic hR g.renewed.chainBound
      (fun l hl => chain_length_le hl (List.nodup_cons.1 (chain_nodup hacyclic hl)).2)
      (fun w hlink => .single hlink) hfollows (.singleton u) (Nat.add_zero _)
  have hforgotten : ¬Current disk style g.renewed (g.forget u) u := by
    rintro ⟨file, hfile, -⟩
    simp only [Registry.forget, Table.get?_erase_self] at hfile
    cases hfile
  have hsettled : g.renewed.Settled disk style ∅ g.renewed := settled_new rfl ∅
  obtain ⟨hfresh, -⟩ := answer_settled rfl hacyclic hsettled (.reload u)
  exact (hrenews.result hforgotten).trans hfresh.symm

/-- The file at a path. -/
def fileAt (path : String) : Uri := .ofPath (.ofBytes (FileName.ofString path))

/-- Three documents are opened, of which the first imports the second and the second the third.
    The first is read, and then the variable that it refers to is taken out of the third. -/
def edited : List Event :=
  [.openDocument (fileAt "/c.sass") "$x: 1".toList 1,
    .openDocument (fileAt "/b.sass") "@import 'c'".toList 1,
    .openDocument (fileAt "/a.sass") "@import 'b'\n.d\n  e: $x".toList 1,
    .reload {} (fileAt "/a.sass"),
    .changeDocument (fileAt "/c.sass") [⟨none, "$y: 1".toList⟩] 2]

theorem result_reload_edited :
    let s := replay {} (edited ++ [.load {} (fileAt "/c.sass")])
    (∀ v, ¬Relation.TransGen (s.1.renewed.Links s.2 {}) v v) ∧
      Tended s.2 {} s.1.renewed
        {v | Relation.TransGen (s.1.renewed.Links s.2 {}) (fileAt "/a.sass") v} s.1 ∧
      (s.1.reload s.2 {} (fileAt "/a.sass")).result =
        (s.1.renewed.reload s.2 {} (fileAt "/a.sass")).result := by
  intro s
  have hacyclic : ∀ v, ¬Relation.TransGen (s.1.renewed.Links s.2 {}) v v :=
    acyclic_of_ranks [fileAt "/a.sass", fileAt "/b.sass", fileAt "/c.sass"].idxOf
      (by decide +kernel)
  -- the second and the third document can be reached, and both are kept
  have hreached : ∀ v, Relation.TransGen (s.1.renewed.Links s.2 {}) (fileAt "/a.sass") v →
      v ∈ [fileAt "/b.sass", fileAt "/c.sass"] := by
    intro v hv
    obtain ⟨u, -, hlink⟩ := Relation.TransGen.tail'_iff.1 hv
    obtain ⟨d, hd, path, hpath, hv⟩ := hlink.document
    have hall : ∀ e ∈ s.1.renewed.documents.entries, ∀ path ∈ importedPaths {} e.2.text,
        ∀ v ∈ s.1.renewed.resolve? {} e.1 path, v ∈ [fileAt "/b.sass", fileAt "/c.sass"] := by
      decide +kernel
    exact hall (u, d) hd path hpath v hv
  have hcurrent : ∀ v ∈ [fileAt "/b.sass", fileAt "/c.sass"], Current s.2 {} s.1.renewed s.1 v := by
    decide +kernel
  have htended : Tended s.2 {} s.1.renewed
      {v | Relation.TransGen (s.1.renewed.Links s.2 {}) (fileAt "/a.sass") v} s.1 := by
    refine ⟨fun v hv _ => (hcurrent v (hreached v hv)).readable,
      fun v hv file entry hfile _ _ hload => ?_⟩
    have hall : ∀ v ∈ [fileAt "/b.sass", fileAt "/c.sass"],
        (s.1.files.get? v).map (·.entry.imports) =
          (s.1.renewed.load s.2 {} v).result.toOption.map (·.imports) := by
      decide +kernel
    have hsame := hall v (hreached v hv)
    rw [hfile, hload] at hsame
    refine ⟨Option.some.inj hsame, fun w hw _ => hcurrent w (hreached w (.tail hv ?_))⟩
    exact links_of_load rfl hacyclic hload hw
  have hreplay : replay {} (edited ++ [.load {} (fileAt "/c.sass")]) = (s.1, s.2) :=
    Prod.mk.eta.symm
  exact ⟨hacyclic, htended, result_reload hreplay hacyclic htended⟩

/-- The second document is taken from what was kept, so that the change of the third is not
    noticed. -/
theorem result_reload_of_change :
    let s := replay {} edited
    (∀ v, ¬Relation.TransGen (s.1.renewed.Links s.2 {}) v v) ∧
      (s.1.reload s.2 {} (fileAt "/a.sass")).result ≠
        (s.1.renewed.reload s.2 {} (fileAt "/a.sass")).result := by
  intro s
  refine ⟨acyclic_of_ranks [fileAt "/a.sass", fileAt "/b.sass", fileAt "/c.sass"].idxOf
    (by decide +kernel), fun hsame => ?_⟩
  have hproblems := congrArg (fun result => result.toOption.map (·.diagnostics)) hsame
  revert hproblems
  decide +kernel

end Registry

end IndentedSass
